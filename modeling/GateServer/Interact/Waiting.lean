import GateServer.Interact.Lending
import GateServer.Interact.Monitor
import Mathlib.Algebra.Order.Sub.Basic

/-!
# Waiting for an element of a stock

Programs side by side, where a thread that asks for an element of an empty stock sleeps,
and a thread that gives one back wakes one sleeper. If the stocks are ranked, and a thread
that asks for an element holds nothing of its rank or above, then the threads never all
wait for each other.
-/

namespace Interact

variable {Op : Type} {Ans : Op → Type} {ι α W C R : Type}

/-- `told` is a sleeper that was notified and has not tested its condition since. -/
inductive Standing (R : Type)
  | runs
  | told (r : R)
  | parked (r : R)
  deriving DecidableEq

def Standing.Awake : Standing R → Prop
  | .parked _ => False
  | _ => True

structure Worker (Ans : Op → Type) (ι α R : Type) where
  thread : Thread Ans ι α
  standing : Standing R

/-- Which stock an operation may wait for, and which one it notifies. -/
structure Bells (Op R : Type) where
  awaits : Op → Option R
  rings : Op → Option R

def Bells.signal (B : Bells Op R) (op : Op) : Signal R :=
  match B.rings op with
  | some r => .one r
  | none => .quiet

inductive Works (A : Arena Ans W) (B : Bells Op R) :
    W → Worker Ans ι α R → Signal R → W → Worker Ans ι α R → Prop
  | call {next : Ans op → Prog Ans α} : st.Awake → A.act w ⟨op, a⟩ w' →
      Works A B w ⟨⟨i, h, .call op next⟩, st⟩ (B.signal op) w' ⟨⟨i, h ++ [⟨op, a⟩], next a⟩, .runs⟩
  | block {next : Ans op → Prog Ans α} : st.Awake → B.awaits op = some r →
      (∀ a w', ¬ A.act w ⟨op, a⟩ w') →
      Works A B w ⟨⟨i, h, .call op next⟩, st⟩ .quiet w ⟨⟨i, h, .call op next⟩, .parked r⟩
  | spurious : Works A B w ⟨t, .parked r⟩ .quiet w ⟨t, .runs⟩

def waiting (A : Arena Ans W) (B : Bells Op R) : Machine W (Worker Ans ι α R) R where
  next := Works A B
  parked u := match u.standing with
    | .parked r => some r
    | _ => none
  woken u := match u.standing with
    | .parked r => { u with standing := .told r }
    | _ => u

def Monitor.start (prog : ι → Prog Ans α) (w : W) (jobs : List ι) : Monitor W (Worker Ans ι α R) :=
  ⟨w, jobs.map fun i => ⟨.start prog i, .runs⟩⟩

def Monitor.config (c : Monitor W (Worker Ans ι α R)) : Config Ans ι α W :=
  ⟨c.shared, c.threads.map Worker.thread⟩

variable {A : Arena Ans W} {B : Bells Op R} {prog : ι → Prog Ans α} {w : W} {jobs : List ι}
  {c c' : Monitor W (Worker Ans ι α R)} {u u' : Worker Ans ι α R}

namespace Worker

theorem parked_iff : (waiting A B).parked u = some r ↔ u.standing = .parked r := by
  obtain ⟨t, st⟩ := u
  cases st <;> simp [waiting]

theorem parked_isSome (h : ((waiting A B).parked u).isSome) : ∃ r, u.standing = .parked r := by
  obtain ⟨r, hr⟩ := Option.isSome_iff_exists.mp h
  exact ⟨r, parked_iff.mp hr⟩

theorem woken_of_parked (h : u.standing = .parked r) :
    (waiting A B).woken u = { u with standing := .told r } := by
  simp [waiting, h]

end Worker

-- ---------------------------------------------------------------------------
-- The interleaving below
-- ---------------------------------------------------------------------------

section
variable [DecidableEq R]

theorem Monitor.config_step (hs : (waiting A B).Step c u u' c') :
    c'.config = c.config ∨ ∃ who, Step A c.config who c'.config := by
  obtain ⟨ts, us, sig, hts, hn, hw⟩ := hs.inv
  have hmap : c'.threads.map Worker.thread = (ts ++ u' :: us).map Worker.thread := by
    refine hw.map_eq fun v hv => ?_
    obtain ⟨r, hr⟩ := Worker.parked_isSome hv
    rw [Worker.woken_of_parked hr]
  simp only [Monitor.config, hmap, hts, List.map_append, List.map_cons]
  generalize c.shared = w at hn ⊢
  generalize c'.shared = w' at hn ⊢
  cases hn with
  | call _ hact => exact .inr ⟨_, .call hact⟩
  | block => exact .inl rfl
  | spurious => exact .inl rfl

omit [DecidableEq R] in
theorem Monitor.config_start : (Monitor.start prog w jobs : Monitor W (Worker Ans ι α R)).config =
    .start prog w jobs := by
  simp [Monitor.start, Monitor.config, Config.start]

theorem Monitor.config_reachable (hr : (waiting A B).Reachable Machine.Any (.start prog w jobs) c) :
    Reachable A (.start prog w jobs) c.config := by
  refine hr.invariant (I := fun c => Reachable A (.start prog w jobs) c.config) ?_ ?_
  · rw [Monitor.config_start]
    exact .start
  · intro c u u' c' _ _ hs ih
    rcases Monitor.config_step hs with heq | ⟨who, hstep⟩
    · rwa [heq]
    · exact ih.step hstep

-- ---------------------------------------------------------------------------
-- Sleepers
-- ---------------------------------------------------------------------------

def Worker.AtBell (B : Bells Op R) (u : Worker Ans ι α R) : Prop :=
  ∀ r, u.standing = .parked r ∨ u.standing = .told r →
    ∃ op next, u.thread.rest = .call op next ∧ B.awaits op = some r

omit [DecidableEq R] in
theorem Works.atBell (hn : Works A B w u sig w' u') : u'.AtBell B := by
  cases hn with
  | call => rintro r (h | h) <;> cases h
  | block _ hawaits =>
    rintro r (h | h) <;> cases h
    exact ⟨_, _, rfl, hawaits⟩
  | spurious => rintro r (h | h) <;> cases h

omit [DecidableEq R] in
theorem Worker.AtBell.roused (h : u.AtBell B) (hr : (waiting A B).Roused u u') : u'.AtBell B := by
  rcases hr with rfl | ⟨hpark, rfl⟩
  · exact h
  · obtain ⟨r, hr⟩ := Worker.parked_isSome hpark
    rw [Worker.woken_of_parked hr]
    rintro r' (h' | h') <;> cases h'
    exact h r (.inl hr)

theorem Monitor.atBell (hr : (waiting A B).Reachable Machine.Any (.start prog w jobs) c) :
    ∀ u ∈ c.threads, u.AtBell B := by
  refine hr.invariant (I := fun c => ∀ u ∈ c.threads, u.AtBell B) ?_ ?_
  · intro u hu
    obtain ⟨i, -, rfl⟩ := List.mem_map.mp hu
    rintro r (h | h) <;> cases h
  · intro c u u' c' _ _ hs ih v' hv'
    obtain ⟨_, _, sig, -, hn, -⟩ := hs.inv
    rcases hs.mem hv' with hr | ⟨v, hr, ts, us, hts, hv⟩
    · exact hn.atBell.roused hr
    · refine (ih v ?_).roused hr
      rw [hts]
      rcases List.mem_append.mp hv with hv | hv
      · exact List.mem_append_left _ hv
      · exact List.mem_append_right _ (.tail _ hv)

def Monitor.parked (c : Monitor W (Worker Ans ι α R)) (r : R) : Nat :=
  c.threads.countP (·.standing = .parked r)

def Monitor.told (c : Monitor W (Worker Ans ι α R)) (r : R) : Nat :=
  c.threads.countP (·.standing = .told r)

/-- Several stocks. An operation that may wait takes an element when it goes through, waits
only at an empty stock, and is notified when an element is given back. -/
structure Stocks (A : Arena Ans W) (B : Bells Op R) (mv : R → Event Ans → Move C)
    (idle : R → W → Multiset C) (opened : R → W → Prop) : Prop where
  lends : ∀ r, Lender A (mv r) (idle r) (opened r)
  takes : B.awaits op = some r → A.act s ⟨op, a⟩ s' → opened r s' → ∃ x, mv r ⟨op, a⟩ = .take x
  empty : B.awaits op = some r → opened r s → (∀ a s', ¬ A.act s ⟨op, a⟩ s') → idle r s = 0
  rings : mv r ⟨op, a⟩ = .give x → B.rings op = some r

variable {mv : R → Event Ans → Move C} {idle : R → W → Multiset C} {opened : R → W → Prop}

/-- While a thread sleeps, there are no more elements in stock than notified threads. -/
def Monitor.Heard (c : Monitor W (Worker Ans ι α R)) (idle : R → W → Multiset C) (r : R) : Prop :=
  c.parked r = 0 ∨ (idle r c.shared).card ≤ c.told r

section
variable {ts us : List (Worker Ans ι α R)} {r : R}

theorem parked_le (hw : (waiting A B).Wakes sig ts us) :
    us.countP (·.standing = .parked r) ≤ ts.countP (·.standing = .parked r) := by
  refine hw.countP_le fun u hu h => ?_
  obtain ⟨r', hr⟩ := Worker.parked_isSome hu
  simp [Worker.woken_of_parked hr] at h

theorem le_told (hw : (waiting A B).Wakes sig ts us) :
    ts.countP (·.standing = .told r) ≤ us.countP (·.standing = .told r) := by
  refine hw.le_countP fun u hu h => ?_
  obtain ⟨r', hr⟩ := Worker.parked_isSome hu
  simp [hr] at h

theorem told_of_ring (hw : (waiting A B).Wakes (.one r) ts us) :
    us.countP (·.standing = .parked r) = 0 ∨
      us.countP (·.standing = .told r) = ts.countP (·.standing = .told r) + 1 := by
  rcases hw.one_cases with ⟨rfl, hnone⟩ | ⟨u, hu, hcount⟩
  · refine .inl (List.countP_eq_zero.mpr fun u hu h => hnone u hu (Worker.parked_iff.mpr ?_))
    simpa using h
  · have htold := hcount (·.standing = .told r)
    have hr := Worker.parked_iff.mp hu
    simp [Worker.woken_of_parked hr, hr] at htold
    exact .inr htold

end

omit [DecidableEq R] in
theorem Stocks.takes_told {next : Ans op → Prog Ans α} (S : Stocks A B mv idle opened)
    (hbell : (⟨⟨i, h, .call op next⟩, .told r⟩ : Worker Ans ι α R).AtBell B)
    (hact : A.act s ⟨op, a⟩ s') (hopen : opened r s') : ∃ x, mv r ⟨op, a⟩ = .take x := by
  obtain ⟨op, next, heq, hawaits⟩ := hbell r (.inr rfl)
  cases heq
  exact S.takes hawaits hact hopen

theorem Monitor.Heard.step (S : Stocks A B mv idle opened) (hs : (waiting A B).Step c u u' c')
    (hbell : u.AtBell B) (hopen : opened r c'.shared) (h : c.Heard idle r) : c'.Heard idle r := by
  obtain ⟨ts, us, sig, hts, hn, hw⟩ := hs.inv
  have hparked := Machine.countP_move hts (·.standing = .parked r) u'
  have htold := Machine.countP_move hts (·.standing = .told r) u'
  have hle := parked_le (r := r) hw
  have hge := le_told (r := r) hw
  obtain ⟨s, threads⟩ := c
  obtain ⟨s', threads'⟩ := c'
  simp only [Monitor.Heard, Monitor.parked, Monitor.told] at *
  cases hn with
  | spurious =>
    simp only [reduceCtorEq, decide_false, Bool.toNat_false, add_zero] at hparked htold
    omega
  | @block op r' _ _ _ st next hawake hawaits hnone =>
    by_cases hr : r' = r
    · subst hr
      simp [S.empty hawaits hopen hnone]
    · have hst : st ≠ .told r := by
        rintro rfl
        obtain ⟨op, next, heq, hawaits'⟩ := hbell r (.inr rfl)
        cases heq
        exact hr (Option.some.inj (hawaits.symm.trans hawaits'))
      simp only [Standing.parked.injEq, hr, hst, reduceCtorEq, decide_false, Bool.toNat_false,
        add_zero] at hparked htold
      omega
  | @call op _ a _ i h st next hawake hact =>
    have hst : st ≠ .parked r := by
      rintro rfl
      exact hawake
    simp only [hst, reduceCtorEq, decide_false, Bool.toNat_false, add_zero] at hparked htold
    have htake {x : C} (hm : mv r ⟨op, a⟩ = .take x) : (idle r s).card = (idle r s').card + 1 := by
      rw [(S.lends r).take hact hopen hm, Multiset.card_cons]
    by_cases hr : st = .told r
    · subst hr
      obtain ⟨x, hm⟩ := S.takes_told hbell hact hopen
      have := htake hm
      simp only [decide_true, Bool.toNat_true] at htold
      omega
    · simp only [hr, decide_false, Bool.toNat_false, add_zero] at htold
      cases hm : mv r ⟨op, a⟩ with
      | take x =>
        have := htake hm
        omega
      | stay =>
        rw [(S.lends r).stay hact hopen hm]
        omega
      | give x =>
        -- the thing that has come back is matched by a thread that has been woken
        have hring : B.signal op = .one r := by simp [Bells.signal, S.rings hm]
        have hback : (idle r s').card = (idle r s).card + 1 := by
          rw [(S.lends r).give hact hopen hm, Multiset.card_cons]
        rw [hring] at hw
        rcases told_of_ring hw with hnone | hmore
        · exact .inl hnone
        · omega

omit [DecidableEq R] in
theorem Works.opened_before (S : Stocks A B mv idle opened) (hn : Works A B s u sig s' u')
    (ho : opened r s') : opened r s := by
  cases hn with
  | call _ hact => exact (S.lends r).opened_act hact ho
  | block => exact ho
  | spurious => exact ho

theorem Monitor.heard (S : Stocks A B mv idle opened)
    (hr : (waiting A B).Reachable Machine.Any (.start prog w jobs) c) (ho : opened r c.shared) :
    c.Heard idle r := by
  refine hr.invariant (I := fun c => opened r c.shared → c.Heard idle r) ?_ ?_ ho
  · intro _
    refine .inl (List.countP_eq_zero.mpr fun u hu => ?_)
    obtain ⟨i, -, rfl⟩ := List.mem_map.mp hu
    simp
  · intro c u u' c' hr _ hs ih ho
    obtain ⟨_, _, sig, -, hn, -⟩ := hs.inv
    exact (ih (hn.opened_before S ho)).step S hs (Monitor.atBell hr u hs.mover) ho

end

-- ---------------------------------------------------------------------------
-- Deadlock
-- ---------------------------------------------------------------------------

def Worker.Stuck (A : Arena Ans W) (B : Bells Op R) (w : W) (u : Worker Ans ι α R) (r : R) : Prop :=
  ∃ op next, u.thread.rest = .call op next ∧ B.awaits op = some r ∧
    (u.standing = .parked r ∨ ∀ a w', ¬ A.act w ⟨op, a⟩ w')

def Worker.Unbegun (u : Worker Ans ι α R) : Prop := u.thread.hist = [] ∧ u.standing = .runs

/-- Some thread is stuck, and so is every thread that has begun and not finished. -/
structure Deadlocked (A : Arena Ans W) (B : Bells Op R) (c : Monitor W (Worker Ans ι α R)) :
    Prop where
  stuck : ∃ u ∈ c.threads, ∃ r, u.Stuck A B c.shared r
  rest : ∀ u ∈ c.threads, u.thread.Finished ∨ u.Unbegun ∨ ∃ r, u.Stuck A B c.shared r

/-- An operation that may wait is reached only while holding elements of lower rank. -/
def Climbs {K : Type} [DecidableEq C] [LT K] (B : Bells Op R) (mv : R → Event Ans → Move C)
    (rank : R → K)
    (h : List (Event Ans)) (op : Op) : Prop :=
  ∀ r, B.awaits op = some r → ∀ q, held (mv q) h ≠ 0 → rank q < rank r

variable {mv : R → Event Ans → Move C} {idle : R → W → Multiset C} {opened : R → W → Prop}
  {Fits : ι → Event Ans → Prop} {K : Type} [Preorder K] {rank : R → K}

theorem Deadlocked.empty [DecidableEq R] (S : Stocks A B mv idle opened) (hd : Deadlocked A B c)
    (hbell : ∀ u ∈ c.threads, u.AtBell B) (ho : opened r c.shared) (hheard : c.Heard idle r)
    (hu : u ∈ c.threads) (hstuck : u.Stuck A B c.shared r) : idle r c.shared = 0 := by
  obtain ⟨op, next, -, hawaits, hparked | hnone⟩ := hstuck
  · have hpos : 0 < c.parked r := List.countP_pos_iff.mpr ⟨u, hu, by simpa using hparked⟩
    have hle : (idle r c.shared).card ≤ c.told r := hheard.resolve_left (by omega)
    by_contra hne
    have htold : 0 < c.told r := (Multiset.card_pos.mpr hne).trans_le hle
    obtain ⟨v, hv, hst⟩ := List.countP_pos_iff.mp htold
    have hst : v.standing = .told r := by simpa using hst
    obtain ⟨op, next, hrest, hawaits⟩ := hbell v hv r (.inr hst)
    rcases hd.rest v hv with
      ⟨e, he⟩ | ⟨-, hruns⟩ | ⟨r', op', next', hrest', hawaits', hpark | hvain⟩
    · cases hrest.symm.trans he
    · cases hst.symm.trans hruns
    · cases hst.symm.trans hpark
    · cases hrest.symm.trans hrest'
      exact hne (S.empty hawaits ho hvain)
  · exact S.empty hawaits ho hnone

/-- An element that is not in stock is held by a thread. -/
theorem exists_holder [DecidableEq C] {ts : List (Thread Ans ι α)} {stock : Multiset C}
    {mv : Event Ans → Move C} (htotal : 0 + allHeld mv ts = stock) (hne : stock ≠ 0) :
    ∃ t ∈ ts, held mv t.hist ≠ 0 := by
  by_contra hnone
  push Not at hnone
  refine hne (htotal.symm.trans ?_)
  rw [zero_add, allHeld, List.map_congr_left hnone]
  simp

/-- Programs that acquire in the order of rank never all wait for each other, in any
interleaving. -/
theorem Stocks.no_deadlock [DecidableEq R] [DecidableEq C] [WellFoundedGT K]
    (S : Stocks A B mv idle opened) (hb : ∀ i r, Borrows (Fits i) (mv r) (prog i))
    (hc : ∀ i, Spec ⟨Fits i, Climbs B mv rank⟩ [] (prog i) fun _ _ => True)
    (hr : (waiting A B).Reachable Machine.Any (.start prog w jobs) c) (hf : AllFit Fits c.config)
    (hopen : ∀ op r, B.awaits op = some r → opened r c.shared)
    (hstock : ∀ op r, B.awaits op = some r → idle r w ≠ 0) : ¬ Deadlocked A B c := by
  intro hd
  have hr' := Monitor.config_reachable hr
  have hnone : ∀ k, ∀ u ∈ c.threads, ∀ r, u.Stuck A B c.shared r → rank r = k → False := by
    intro k
    induction k using WellFoundedGT.induction with
    | ind k ih =>
    rintro u hu r hstuck rfl
    have hasks := hstuck
    obtain ⟨op, _, _, hawaits, -⟩ := hasks
    have ho := hopen op r hawaits
    have hempty := hd.empty S (Monitor.atBell hr) ho (Monitor.heard S hr ho) hu hstuck
    have hcons := (S.lends r).conserved (fun i => hb i r) hr' hf ho
    have htotal := hcons.total
    rw [show idle r c.config.world = 0 from hempty] at htotal
    obtain ⟨t, ht, hheld⟩ := exists_holder htotal (hstock op r hawaits)
    obtain ⟨v, hv, rfl⟩ := List.mem_map.mp ht
    -- the holder is neither done nor about to begin, so it is stuck too, and higher up
    rcases hd.rest v hv with hfin | ⟨hnil, -⟩ | ⟨r', hstuck'⟩
    · apply hheld
      rw [held, hcons.back _ ht hfin, tsub_self]
    · exact hheld (by rw [hnil, held_nil])
    · have hasks' := hstuck'
      obtain ⟨op', next', hrest, hawaits', -⟩ := hasks'
      have hsteps := hr'.steps v.thread (List.mem_map.mpr ⟨v, hv, rfl⟩)
      rw [hrest] at hsteps
      have hspec := (hc v.thread.job).steps hsteps (hf v.thread (List.mem_map.mpr ⟨v, hv, rfl⟩))
      exact ih _ (hspec.1 r' hawaits' r hheld) v hv r' hstuck' rfl
  obtain ⟨u, hu, r, hstuck⟩ := hd.stuck
  exact hnone _ u hu r hstuck rfl

end Interact
