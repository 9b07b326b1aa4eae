import GateServer.Gateway
import GateServer.Interact.Waiting
import Mathlib.Data.Fintype.Card

/-!
# Lock order of the pools

The pools as stocks at which callers wait, while no pool is closed, and the traces that
acquire from a pool only while nothing of its rank or above is held.
-/

namespace GateServer

open Interact

namespace Gateway

variable {Accounts : Type}

def running (Accounts : Type) : Arena Ans (Gateway Accounts) where
  act := Acts
  env _ _ := False

/-- A call waits at an empty pool, and each return to a pool notifies one waiter. `RPConPool`
never waits. -/
def bells : Bells Op Pool where
  awaits
    | .acquire .varify => none
    | .acquire pool => some pool
    | _ => none
  rings
    | .release pool _ => some pool
    | _ => none

def Serving (pool : Pool) (g : Gateway Accounts) : Prop := pool ≠ .varify ∧ Opened pool g

theorem bells_awaits (h : bells.awaits op = some pool) : op = .acquire pool ∧ pool ≠ .varify := by
  cases op with
  | acquire p => cases p <;> cases h <;> exact ⟨rfl, nofun⟩
  | _ => cases h

theorem stocks : Stocks (running Accounts) bells moves idle Serving where
  lends _ := {
    take := fun ha ho hm => (lends ho.1).take ha ho.2 hm
    give := fun ha ho hm => (lends ho.1).give ha ho.2 hm
    stay := fun ha ho hm => (lends ho.1).stay ha ho.2 hm
    env := fun he => he.elim
    opened_act := fun ha ho => ⟨ho.1, (lends ho.1).opened_act ha ho.2⟩
    opened_env := fun he => he.elim }
  takes h ha ho := by
    obtain ⟨rfl, hq⟩ := bells_awaits h
    obtain ⟨c, rfl⟩ := Acts.acquired ha hq ((lends hq).opened_act ha ho.2)
    exact ⟨c, moves_acquire ..⟩
  empty := by
    rintro op pool g h ⟨hq, ho⟩ hnone
    obtain ⟨rfl, -⟩ := bells_awaits h
    rw [idle]
    cases hp : g.pools pool with
    | mk conns closed =>
    cases conns with
    | nil => rfl
    | cons conn conns =>
      have hclosed : closed = false := by simpa [Opened, hp] using ho
      refine absurd (Acts.get ?_) (hnone (some conn) (g.setPool pool ⟨conns, false⟩))
      rw [hp, hclosed]
      exact pool.gets_front conn conns
  rings {pool op a x} hm := by
    cases op with
    | release p conn =>
      have hp : p = pool := by
        by_contra hne
        simp [moves, hne] at hm
      rw [hp]
      rfl
    | acquire p => exact absurd hm (acquire_ne_give _ _ _ _)
    | _ => cases hm

-- ---------------------------------------------------------------------------
-- Nested use of the pools
-- ---------------------------------------------------------------------------

/-- The order in which the pools are acquired: a holder of a MySQL connection acquires nothing
else. -/
def rank : Pool → Bool
  | .mySql => true
  | _ => false

/-- Programs that hold one element of each pool in `qs`, acquire only from pools of higher rank
and release in reverse order. -/
inductive Nested : List Pool → Trace → Prop
  | nil : Nested qs []
  | other : Op.pool? ev.op = none → Nested qs tr → Nested qs (ev :: tr)
  | null : (∀ q ∈ qs, rank q < rank pool) → Nested qs tr →
      Nested qs (⟨.acquire pool, none⟩ :: tr)
  | span : (∀ q ∈ qs, rank q < rank pool) → Nested (pool :: qs) m → Nested qs t →
      Nested qs (⟨.acquire pool, some conn⟩ :: (m ++ ⟨.release pool conn, ()⟩ :: t))

theorem Nested.append (hn : Nested qs tr) (hn' : Nested qs tr') : Nested qs (tr ++ tr') := by
  induction hn with
  | nil => exact hn'
  | other hev _ ih => exact .other hev (ih hn')
  | null hrank _ ih => exact .null hrank (ih hn')
  | span hrank hmid _ _ ih =>
    simp only [List.cons_append, List.append_assoc]
    exact .span hrank hmid (ih hn')

theorem Nested.quiet (h : ∀ ev ∈ tr, Op.pool? ev.op = none) : Nested qs tr := by
  induction tr with
  | nil => exact .nil
  | cons ev tr ih => exact .other (h ev (by simp)) (ih fun ev hev => h ev (.tail _ hev))

theorem Nested.once {m t : Trace} (hrank : ∀ q ∈ qs, rank q < rank pool)
    (h : ∀ ev ∈ m, Op.pool? ev.op = none) (h' : ∀ ev ∈ t, Op.pool? ev.op = none) :
    Nested qs (⟨.acquire pool, some conn⟩ :: (m ++ ⟨.release pool conn, ()⟩ :: t)) :=
  .span hrank (.quiet h) (.quiet h')

theorem Nested.around {b a t : Trace} (hrank : ∀ q ∈ qs, rank q < rank pool)
    (hn : Nested (pool :: qs) tr) (hb : ∀ ev ∈ b, Op.pool? ev.op = none)
    (ha : ∀ ev ∈ a, Op.pool? ev.op = none) (ht : ∀ ev ∈ t, Op.pool? ev.op = none) :
    Nested qs (⟨.acquire pool, some conn⟩ :: (b ++ tr ++ a ++ ⟨.release pool conn, ()⟩ :: t)) :=
  .span hrank (((Nested.quiet hb).append hn).append (.quiet ha)) (.quiet ht)

/-- After this history the operation releases only what is held, and acquires only from a pool
of higher rank. -/
def Safe (h : Trace) (op : Op) : Prop :=
  (∀ pool, GivesHeld (moves pool) h op) ∧ Climbs bells moves rank h op

def SameHands (h h' : Trace) : Prop :=
  ∀ pool, givenBack (moves pool) h' ≤ taken (moves pool) h' ∧
    held (moves pool) h' = held (moves pool) h

theorem stay_of_none (hev : Op.pool? op = none) (pool : Pool) (a : Ans op) :
    moves pool ⟨op, a⟩ = .stay :=
  moves_of_pool_ne fun h => by cases hev.symm.trans h

theorem safe_other (hev : Op.pool? op = none) (h : Trace) : Safe h op := by
  refine ⟨fun pool a c hm => ?_, fun pool hawaits => ?_⟩
  · cases (stay_of_none hev pool a).symm.trans hm
  · obtain ⟨rfl, -⟩ := bells_awaits hawaits
    cases hev

theorem safe_acquire {h : Trace} {qs : List Pool} (hqs : ∀ p, held (moves p) h ≠ 0 → p ∈ qs)
    (hrank : ∀ q ∈ qs, rank q < rank pool) : Safe h (.acquire pool) := by
  refine ⟨fun p a c hm => absurd hm (acquire_ne_give _ _ _ _), fun p hawaits q hq => ?_⟩
  obtain ⟨heq, -⟩ := bells_awaits hawaits
  cases heq
  exact hrank q (hqs q hq)

theorem safe_release {h : Trace} (hconn : conn ∈ held (moves pool) h) :
    Safe h (.release pool conn) := by
  refine ⟨fun p a c hm => ?_, fun p hawaits => ?_⟩
  · by_cases hp : pool = p
    · subst hp
      cases (moves_release pool conn).symm.trans hm
      exact hconn
    · simp [moves, hp] at hm
  · obtain ⟨heq, -⟩ := bells_awaits hawaits
    cases heq

theorem SameHands.trans (h₁ : SameHands h h') (h₂ : SameHands h' h'') : SameHands h h'' :=
  fun pool => ⟨(h₂ pool).1, (h₂ pool).2.trans (h₁ pool).2⟩

theorem sameHands_stay {h : Trace} (hle : ∀ p, givenBack (moves p) h ≤ taken (moves p) h)
    (ev : Ev) (hev : ∀ p, moves p ev = .stay) : SameHands h (h ++ [ev]) := by
  intro p
  refine ⟨?_, held_stay (hev p)⟩
  rw [givenBack_append, taken_append]
  simpa [givenBack, taken, hev p] using hle p

theorem acquire_other (hp : pool ≠ p) (a : Option Conn) : moves p ⟨.acquire pool, a⟩ = .stay :=
  moves_of_pool_ne fun h => hp (Option.some.inj h)

theorem release_other (hp : pool ≠ p) (conn : Conn) : moves p ⟨.release pool conn, ()⟩ = .stay :=
  moves_of_pool_ne fun h => hp (Option.some.inj h)

theorem sameHands_span {h mid : Trace} {pool : Pool} {conn : Conn}
    (hle : ∀ p, givenBack (moves p) h ≤ taken (moves p) h)
    (hmid : SameHands (h ++ [⟨.acquire pool, some conn⟩])
      (h ++ [⟨.acquire pool, some conn⟩] ++ mid)) :
    conn ∈ held (moves pool) (h ++ [⟨.acquire pool, some conn⟩] ++ mid) ∧
    SameHands h (h ++ [⟨.acquire pool, some conn⟩] ++ mid ++ [⟨.release pool conn, ()⟩]) := by
  have htook : held (moves pool) (h ++ [⟨.acquire pool, some conn⟩] ++ mid) =
      conn ::ₘ held (moves pool) h := by
    rw [(hmid pool).2, held_take (hle pool) (moves_acquire ..)]
  have hconn : conn ∈ held (moves pool) (h ++ [⟨.acquire pool, some conn⟩] ++ mid) := by
    rw [htook]
    exact Multiset.mem_cons_self ..
  refine ⟨hconn, fun p => ?_⟩
  by_cases hp : pool = p
  · subst hp
    refine ⟨givenBack_snoc_le (hmid pool).1 fun c hm => ?_, ?_⟩
    · cases (moves_release pool conn).symm.trans hm
      exact hconn
    · rw [held_give hconn (moves_release ..)] at htook
      exact (Multiset.cons_inj_right conn).mp htook
  · refine ⟨givenBack_snoc_le (hmid p).1 fun c hm => ?_, ?_⟩
    · cases (release_other hp conn).symm.trans hm
    · rw [held_stay (release_other hp conn), (hmid p).2, held_stay (acquire_other hp _)]

theorem Nested.safe (hn : Nested qs tr) : ∀ h, (∀ p, givenBack (moves p) h ≤ taken (moves p) h) →
    (∀ p, held (moves p) h ≠ 0 → p ∈ qs) → Guarded Safe h tr ∧ SameHands h (h ++ tr) := by
  induction hn with
  | nil => exact fun h hle _ => ⟨trivial, fun p => by simpa using hle p⟩
  | @other _ _ ev hev _ ih =>
    intro h hle hqs
    have hsame := sameHands_stay hle ev fun p => stay_of_none hev p ev.ans
    obtain ⟨hguard, hafter⟩ := ih (h ++ [ev]) (fun p => (hsame p).1)
      fun p hp => hqs p ((hsame p).2 ▸ hp)
    refine ⟨⟨safe_other hev h, hguard⟩, ?_⟩
    rw [List.append_cons]
    exact hsame.trans hafter
  | @null _ pool _ hrank _ ih =>
    intro h hle hqs
    have hsame := sameHands_stay hle ⟨.acquire pool, none⟩ fun _ => rfl
    obtain ⟨hguard, hafter⟩ := ih (h ++ [⟨.acquire pool, none⟩]) (fun p => (hsame p).1)
      fun p hp => hqs p ((hsame p).2 ▸ hp)
    refine ⟨⟨safe_acquire hqs hrank, hguard⟩, ?_⟩
    rw [List.append_cons]
    exact hsame.trans hafter
  | @span _ pool mid tail conn hrank _ _ ih ih' =>
    intro h hle hqs
    have hle' (p : Pool) : givenBack (moves p) (h ++ [⟨.acquire pool, some conn⟩]) ≤
        taken (moves p) (h ++ [⟨.acquire pool, some conn⟩]) :=
      givenBack_snoc_le (hle p) fun c hm => absurd hm (acquire_ne_give _ _ _ _)
    obtain ⟨hguard, hmid⟩ := ih _ hle' fun p hp => by
      by_cases heq : pool = p
      · exact heq ▸ List.mem_cons_self ..
      · rw [held_stay (acquire_other heq _)] at hp
        exact .tail _ (hqs p hp)
    obtain ⟨hconn, hback⟩ := sameHands_span hle hmid
    obtain ⟨hguard', hafter⟩ := ih' _ (fun p => (hback p).1) fun p hp => hqs p ((hback p).2 ▸ hp)
    refine ⟨⟨safe_acquire hqs hrank, guarded_append.mpr ⟨hguard, safe_release hconn, hguard'⟩⟩, ?_⟩
    have := hback.trans hafter
    simpa using this

theorem Nested.safe_start (hn : Nested [] tr) : Guarded Safe [] tr ∧ SameHands [] tr :=
  hn.safe [] (fun _ => le_rfl) fun _ hp => absurd rfl hp

theorem Nested.settles (hn : Nested [] tr) (pool : Pool) : Settles (moves pool) tr := by
  obtain ⟨hguard, hsame⟩ := hn.safe_start
  refine ⟨hguard.mono fun _ _ h => h.1 pool, le_antisymm (hsame pool).1 ?_⟩
  have hzero : taken (moves pool) tr - givenBack (moves pool) tr = 0 := (hsame pool).2
  exact tsub_eq_zero_iff_le.mp hzero

-- ---------------------------------------------------------------------------
-- Programs whose runs are nested
-- ---------------------------------------------------------------------------

@[simp] def Handed : Ev → Prop
  | ⟨.acquire pool, conn⟩ => pool ≠ .varify → ∃ c, conn = some c
  | _ => True

theorem handed {prog : ι → Act α} {g : Gateway Accounts} {c : Config Ans ι α (Gateway Accounts)}
    (hopen : ∀ pool, pool ≠ .varify → Opened pool g)
    (hr : Reachable (running Accounts) (.start prog g jobs) c) :
    (∀ pool, pool ≠ .varify → Opened pool c.world) ∧ ∀ t ∈ c.threads, ∀ ev ∈ t.hist, Handed ev := by
  refine hr.answers (I := fun g => ∀ pool, pool ≠ .varify → Opened pool g) hopen ?_
    fun _ _ _ (he : False) => he.elim
  intro g ev g' ho ha
  refine ⟨fun pool hq => (Acts.closed ha hq).trans (ho pool hq), ?_⟩
  obtain ⟨op, a⟩ := ev
  cases op with
  | acquire pool => exact fun hq => Acts.acquired ha hq (ho pool hq)
  | _ => trivial

/-- Programs that nest their use of the pools never all wait for each other, for any sizes of
the pools. -/
theorem never_deadlocked {prog : ι → Act α} {Fits : ι → Ev → Prop} {g : Gateway Accounts}
    {c : Monitor (Gateway Accounts) (Worker Ans ι α Pool)}
    (hans : ∀ i op, ∃ a, Fits i ⟨op, a⟩ ∧ Handed ⟨op, a⟩)
    (hnest : ∀ i tr e, Runs (prog i) tr e → (∀ ev ∈ tr, Fits i ev ∧ Handed ev) → Nested [] tr)
    (hopen : ∀ pool, pool ≠ .varify → Opened pool g ∧ (g.pools pool).conns ≠ [])
    (hr : (waiting (running Accounts) bells).Reachable Machine.Any (.start prog g jobs) c)
    (hf : AllFit Fits c.config) : ¬ Deadlocked (running Accounts) bells c := by
  obtain ⟨hopen', hhanded⟩ :=
    handed (fun pool hq => (hopen pool hq).1) (Monitor.config_reachable hr)
  have hborrows (i : ι) (pool : Pool) :
      Borrows (fun ev => Fits i ev ∧ Handed ev) (moves pool) (prog i) :=
    Borrows.of_runs (hans i) fun tr e hrun hev => (hnest i tr e hrun hev).settles pool
  have hclimbs (i : ι) : Spec ⟨fun ev => Fits i ev ∧ Handed ev, Climbs bells moves rank⟩ []
      (prog i) fun _ _ => True := by
    refine Spec.of_runs (hans i) fun tr e hrun hev => ⟨?_, trivial⟩
    exact (hnest i tr e hrun hev).safe_start.1.mono fun _ _ h => h.2
  refine stocks.no_deadlock hborrows hclimbs hr ?_ ?_ ?_
  · exact fun t ht ev hev => ⟨hf t ht ev hev, hhanded t ht ev hev⟩
  · intro op pool hawaits
    obtain ⟨-, hq⟩ := bells_awaits hawaits
    exact ⟨hq, hopen' pool hq⟩
  · intro op pool hawaits hidle
    obtain ⟨-, hq⟩ := bells_awaits hawaits
    exact (hopen pool hq).2 ((Multiset.coe_eq_zero _).mp hidle)

end Gateway
end GateServer
