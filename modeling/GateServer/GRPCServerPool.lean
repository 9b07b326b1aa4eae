import GateServer.Operations
import GateServer.Interact.Lending
import GateServer.Interact.Monitor
import Mathlib.Logic.Function.Basic

/-!
# The pool of status stubs, step by step

Stubs and channels are kept in two queues, each with its own mutex and condition variable,
under one flag. The flag is loaded before the wait, in the predicate and after the wait,
and `stop` neither stores it nor notifies under a mutex.
-/

namespace GateServer.GRPCServerPool

open Interact

inductive Kind
  | stub
  | channel
  deriving DecidableEq

/-- `entered`, `left` and `stopDone` are ghost fields: what was pushed and what was popped, in
order, and whether a call of `stop` has returned. -/
structure Shared where
  pool : Kind → List Conn
  locked : Kind → Bool
  isStop : Bool
  entered : Kind → List Conn
  left : Kind → List Conn
  stopDone : Bool

namespace Shared

def lock (s : Shared) (k : Kind) : Shared := { s with locked := Function.update s.locked k true }

def unlock (s : Shared) (k : Kind) : Shared :=
  { s with locked := Function.update s.locked k false }

def push (s : Shared) (k : Kind) (conn : Conn) : Shared :=
  { s with
    pool := Function.update s.pool k (s.pool k ++ [conn])
    entered := Function.update s.entered k (s.entered k ++ [conn]) }

def pop (s : Shared) (k : Kind) (conn : Conn) (rest : List Conn) : Shared :=
  { s with
    pool := Function.update s.pool k rest
    left := Function.update s.left k (s.left k ++ [conn]) }

@[simp] theorem lock_isStop (s : Shared) (k : Kind) : (s.lock k).isStop = s.isStop := rfl
@[simp] theorem unlock_isStop (s : Shared) (k : Kind) : (s.unlock k).isStop = s.isStop := rfl
@[simp] theorem pop_isStop (s : Shared) (k : Kind) (conn : Conn) (rest : List Conn) :
    (s.pop k conn rest).isStop = s.isStop := rfl
@[simp] theorem push_isStop (s : Shared) (k : Kind) (conn : Conn) :
    (s.push k conn).isStop = s.isStop := rfl

end Shared

/-- `get_stub` and `get_Channel` are the same code over another queue, and so are
`release_stub` and `release_Channel`. -/
inductive Place
  | out
  | getLock (k : Kind)
  | getTest (k : Kind)
  | getCheck (k : Kind)
  | getBlock (k : Kind)
  | getWait (k : Kind)
  | getWake (k : Kind)
  | getRetest (k : Kind)
  | getFront (k : Kind)
  | getUnlock (k : Kind) (res : Option Conn)
  | got (k : Kind) (res : Option Conn)
  | relLock (k : Kind) (conn : Conn)
  | relTest (k : Kind) (conn : Conn)
  | relPush (k : Kind) (conn : Conn)
  | relNotify (k : Kind) (conn : Conn)
  | relUnlock (k : Kind) (conn : Conn)
  | stopStore
  | stopNotify (k : Kind)
  deriving DecidableEq

inductive Next : Shared → Place → Move (Kind × Conn) → Signal Kind → Shared → Place → Prop
  | getCall : Next s .out .stay .quiet s (.getLock k)
  | getLock : s.locked k = false → Next s (.getLock k) .stay .quiet (s.lock k) (.getTest k)
  | getStopped : s.isStop = true → Next s (.getTest k) .stay .quiet s (.getUnlock k none)
  | getRuns : s.isStop = false → Next s (.getTest k) .stay .quiet s (.getCheck k)
  | getReady : s.pool k ≠ [] ∨ s.isStop = true →
      Next s (.getCheck k) .stay .quiet s (.getRetest k)
  | getEmpty : s.pool k = [] → s.isStop = false →
      Next s (.getCheck k) .stay .quiet s (.getBlock k)
  | getWait : Next s (.getBlock k) .stay .quiet (s.unlock k) (.getWait k)
  | getSpurious : Next s (.getWait k) .stay .quiet s (.getWake k)
  | getWake : s.locked k = false → Next s (.getWake k) .stay .quiet (s.lock k) (.getCheck k)
  | getGivesUp : s.isStop = true → Next s (.getRetest k) .stay .quiet s (.getUnlock k none)
  | getGoes : s.isStop = false → Next s (.getRetest k) .stay .quiet s (.getFront k)
  | getFront : s.pool k = conn :: rest →
      Next s (.getFront k) (.take (k, conn)) .quiet (s.pop k conn rest) (.getUnlock k (some conn))
  | getUnlock : Next s (.getUnlock k res) .stay .quiet (s.unlock k) (.got k res)
  | getReturn : Next s (.got k res) .stay .quiet s .out
  | relCall : Next s .out .stay .quiet s (.relLock k conn)
  | relLock : s.locked k = false →
      Next s (.relLock k conn) .stay .quiet (s.lock k) (.relTest k conn)
  | relStopped : s.isStop = true →
      Next s (.relTest k conn) (.give (k, conn)) .quiet s (.relUnlock k conn)
  | relRuns : s.isStop = false → Next s (.relTest k conn) .stay .quiet s (.relPush k conn)
  | relPush : Next s (.relPush k conn) (.give (k, conn)) .quiet (s.push k conn) (.relNotify k conn)
  | relNotify : Next s (.relNotify k conn) .stay (.one k) s (.relUnlock k conn)
  | relUnlock : Next s (.relUnlock k conn) .stay .quiet (s.unlock k) .out
  | stopCall : Next s .out .stay .quiet s .stopStore
  | stopStore : Next s .stopStore .stay .quiet { s with isStop := true } (.stopNotify .channel)
  | stopChannels : Next s (.stopNotify .channel) .stay (.all .channel) s (.stopNotify .stub)
  | stopStubs : Next s (.stopNotify .stub) .stay (.all .stub) { s with stopDone := true } .out

/-- `late` and `owned` are ghost fields; `late` says that a `stop` had returned when the call
began. -/
structure Thread where
  place : Place
  late : Bool
  owned : Kind → Multiset Conn

def handsAfter (owned : Kind → Multiset Conn) : Move (Kind × Conn) → Kind → Multiset Conn
  | .take (k, conn) => Function.update owned k (conn ::ₘ owned k)
  | .give (k, conn) => Function.update owned k ((owned k).erase conn)
  | .stay => owned

inductive Does : Shared → Thread → Signal Kind → Shared → Thread → Prop
  | mk : Next s p mv sig s' p' → Does s ⟨p, late, owned⟩ sig s' ⟨p', match p with
    | .out => s.stopDone
    | _ => late, handsAfter owned mv⟩

def machine : Machine Shared Thread Kind where
  next := Does
  parked t := match t.place with
    | .getWait k => some k
    | _ => none
  woken t := match t.place with
    | .getWait k => { t with place := .getWake k }
    | _ => t

def start (conns : Kind → List Conn) (n : Nat) : Monitor Shared Thread :=
  ⟨⟨conns, fun _ => false, false, conns, fun _ => [], false⟩,
    List.replicate n ⟨.out, false, fun _ => 0⟩⟩

-- ---------------------------------------------------------------------------
-- The mutexes
-- ---------------------------------------------------------------------------

@[simp] def Place.inside : Place → Kind → Bool
  | .getTest k, k' | .getCheck k, k' | .getBlock k, k' | .getRetest k, k' | .getFront k, k'
  | .getUnlock k _, k' | .relTest k _, k' | .relPush k _, k' | .relNotify k _, k'
  | .relUnlock k _, k' => k == k'
  | _, _ => false

theorem parked_iff {t : Thread} : machine.parked t = some k ↔ t.place = .getWait k := by
  obtain ⟨place, late, owned⟩ := t
  cases place <;> simp [machine]

theorem woken_of_wait {t : Thread} (h : t.place = .getWait k) :
    machine.woken t = { t with place := .getWake k } := by
  simp [machine, h]

theorem parked_isSome {t : Thread} (h : (machine.parked t).isSome) : ∃ k, t.place = .getWait k := by
  obtain ⟨k, hk⟩ := Option.isSome_iff_exists.mp h
  exact ⟨k, parked_iff.mp hk⟩

theorem lock_balance {s : Shared} (h : s.locked k = false) (k' : Kind) :
    ((s.lock k).locked k').toNat = (s.locked k').toNat + (k == k').toNat := by
  by_cases hk : k = k'
  · subst hk
    simp [Shared.lock, h]
  · simp [Shared.lock, Function.update_of_ne (Ne.symm hk), hk]

theorem unlock_balance {s : Shared} {k' : Kind} (h : (k == k') = true → s.locked k' = true) :
    ((s.unlock k).locked k').toNat + (k == k').toNat = (s.locked k').toNat := by
  by_cases hk : k = k'
  · subst hk
    simp [Shared.unlock, h (beq_self_eq_true k)]
  · simp [Shared.unlock, Function.update_of_ne (Ne.symm hk), hk]

theorem lock : machine.Lock (fun s k => s.locked k) fun t k => t.place.inside k where
  balance := by
    rintro s t sig s' t' ⟨hn⟩ k hflag
    cases hn with
    | getLock h => exact lock_balance h k
    | getWake h => exact lock_balance h k
    | relLock h => exact lock_balance h k
    | getWait => exact unlock_balance hflag
    | getUnlock => exact unlock_balance hflag
    | relUnlock => exact unlock_balance hflag
    | _ => rfl
  woken := by
    intro t ht
    obtain ⟨k, hk⟩ := parked_isSome ht
    rw [woken_of_wait hk]
    simp [hk]

theorem start_excludes : Machine.Excludes (fun s k => s.locked k) (fun t k => t.place.inside k)
    (start conns n) := by
  intro
  simp [start]

-- ---------------------------------------------------------------------------
-- What a thread knows at its place
-- ---------------------------------------------------------------------------

@[simp] def Place.deep : Place → Bool
  | .getCheck _ | .getBlock _ | .getWait _ | .getWake _ | .getRetest _ | .getFront _
  | .getUnlock _ (some _) | .got _ (some _) | .relPush .. => true
  | _ => false

@[simp] def Place.Knows (s : Shared) : Place → Prop
  | .getRetest k => s.pool k ≠ [] ∨ s.isStop = true
  | .getFront k => s.pool k ≠ []
  | .getUnlock _ none | .got _ none | .stopNotify _ => s.isStop = true
  | _ => True

@[simp] def Thread.Releases (t : Thread) : Prop :=
  match t.place with
  | .relLock k conn | .relTest k conn | .relPush k conn => conn ∈ t.owned k
  | _ => True

structure Knows (s : Shared) (t : Thread) : Prop where
  place : t.place.Knows s
  done : s.stopDone = true → s.isStop = true
  late : t.late = true → s.isStop = true ∧ t.place.deep = false

theorem Next.isStop_mono (hn : Next s p mv sig s' p') (h : s.isStop = true) :
    s'.isStop = true := by
  cases hn <;> first | exact h | rfl

theorem Next.pool_outside (hn : Next s p mv sig s' p') (h : p.inside k = false) :
    s'.pool k = s.pool k := by
  cases hn with
  | getFront => exact Function.update_of_ne (by rintro rfl; simp at h) ..
  | relPush => exact Function.update_of_ne (by rintro rfl; simp at h) ..
  | _ => rfl

theorem Next.done (hn : Next s p mv sig s' p') (hp : p.Knows s)
    (hdone : s.stopDone = true → s.isStop = true) (h : s'.stopDone = true) : s'.isStop = true := by
  cases hn with
  | stopStubs => exact hp
  | stopStore => rfl
  | _ => exact hdone h

theorem Place.Knows.stable {p : Place} (hp : p.Knows s) (hstop : s.isStop = true → s'.isStop = true)
    (hpool : ∀ k, p.inside k = true → s'.pool k = s.pool k) : p.Knows s' := by
  cases p with
  | getRetest k =>
    rw [Place.Knows, hpool k (by simp)]
    exact hp.imp_right hstop
  | getFront k =>
    rw [Place.Knows, hpool k (by simp)]
    exact hp
  | getUnlock k res =>
    cases res with
    | none => exact hstop hp
    | some conn => trivial
  | got k res =>
    cases res with
    | none => exact hstop hp
    | some conn => trivial
  | stopNotify k => exact hstop hp
  | _ => trivial

theorem outline : machine.Outline Ok (fun t k => t.place.inside k) Knows where
  own := by
    rintro s _ t t' sig s' - ⟨hn⟩ ⟨hplace, hdone, hlate⟩
    refine ⟨?_, hn.done hplace hdone, ?_⟩
    · cases hn with
      | @getUnlock _ k res => cases res <;> exact hplace
      | _ => simp_all
    · cases hn with
      | @getUnlock _ k res => cases res <;> simp_all
      | _ => simp_all
  others := by
    rintro s l sig s' l' u ⟨hn⟩ hl hu hapart
    refine ⟨hu.place.stable hn.isStop_mono fun k hin => hn.pool_outside (hapart k hin).1,
      hn.done hl.place hu.done, fun h => ⟨hn.isStop_mono (hu.late h).1, (hu.late h).2⟩⟩
  woken := by
    rintro s t ht ⟨-, hdone, hlate⟩
    obtain ⟨k, hk⟩ := parked_isSome ht
    rw [woken_of_wait hk]
    refine ⟨trivial, hdone, fun h => ?_⟩
    simp [hk] at hlate
    simp_all

theorem knows (hr : machine.Reachable Ok (start conns n) c) :
    ∀ t ∈ c.threads, Knows c.shared t := by
  refine outline.holds lock start_excludes (fun t ht => ?_) hr
  obtain ⟨-, rfl⟩ := List.mem_replicate.mp ht
  exact ⟨trivial, nofun, nofun⟩

-- ---------------------------------------------------------------------------
-- Stubs are conserved
-- ---------------------------------------------------------------------------

def ReleasesOwn (_ : Monitor Shared Thread) (t t' : Thread) : Prop :=
  ∀ k conn, t'.place = .relLock k conn → conn ∈ t.owned k

theorem releases_outline : machine.Outline ReleasesOwn (fun t k => t.place.inside k)
    fun _ t => t.Releases where
  own := by
    rintro s _ t t' sig s' hok ⟨hn⟩ hrel
    cases hn with
    | @relCall _ k conn => exact hok k conn rfl
    | relLock => exact hrel
    | relRuns => exact hrel
    | _ => trivial
  others _ _ hu _ := hu
  woken := by
    intro s t ht _
    obtain ⟨k, hk⟩ := parked_isSome ht
    rw [woken_of_wait hk]
    trivial

theorem releases (hr : machine.Reachable ReleasesOwn (start conns n) c) :
    ∀ t ∈ c.threads, t.Releases := by
  refine releases_outline.holds lock start_excludes (fun t ht => ?_) hr
  obtain ⟨-, rfl⟩ := List.mem_replicate.mp ht
  trivial

def allOwned (k : Kind) (c : Monitor Shared Thread) : Multiset Conn :=
  (c.threads.map (·.owned k)).sum

theorem Next.balance (hn : Next s p mv sig s' p') (hrun : s'.isStop = false)
    (hrel : (⟨p, late, owned⟩ : Thread).Releases) (k : Kind) :
    (s'.pool k : Multiset Conn) + handsAfter owned mv k = s.pool k + owned k := by
  cases hn with
  | @getFront _ conn rest k' hpool =>
    by_cases hk : k = k'
    · subst hk
      simp [Shared.pop, handsAfter, hpool, ← Multiset.cons_coe]
    · simp [Shared.pop, handsAfter, hk]
  | @relPush _ k' conn =>
    by_cases hk : k = k'
    · subst hk
      have howned : owned k = conn ::ₘ (owned k).erase conn := (Multiset.cons_erase hrel).symm
      rw [howned]
      simp only [Shared.push, handsAfter, Function.update_self, ← Multiset.coe_add,
        Multiset.coe_singleton, ← Multiset.singleton_add]
      ac_rfl
    · simp [Shared.push, handsAfter, hk]
  | relStopped hstop => cases hstop.symm.trans hrun
  | _ => rfl

theorem total_step (hr : machine.Reachable ReleasesOwn (start conns n) c)
    (hs : machine.Step c t t' c') (hrun : c'.shared.isStop = false) (k : Kind) :
    (c'.shared.pool k : Multiset Conn) + allOwned k c' = c.shared.pool k + allOwned k c := by
  have hrel := releases hr t hs.mover
  obtain ⟨ts, us, sig, hts, hact, hw⟩ := hs.inv
  have hmap : c'.threads.map (·.owned k) = (ts ++ t' :: us).map (·.owned k) := by
    refine hw.map_eq fun u hu => ?_
    obtain ⟨k', hk⟩ := parked_isSome hu
    rw [woken_of_wait hk]
  rw [allOwned, allOwned, hmap, hts]
  generalize c.shared = s at hact ⊢
  generalize c'.shared = s' at hact hrun ⊢
  obtain ⟨hn⟩ := hact
  have hbalance := hn.balance hrun hrel k
  simp only [List.map_append, List.map_cons, List.sum_append, List.sum_cons]
  calc
    _ = (s'.pool k + handsAfter _ _ k) + ((ts.map (·.owned k)).sum + (us.map (·.owned k)).sum) := by
      ac_rfl
    _ = (s.pool k + _) + ((ts.map (·.owned k)).sum + (us.map (·.owned k)).sum) := by rw [hbalance]
    _ = _ := by ac_rfl

theorem isStop_mono (hs : machine.Step c t t' c') (h : c.shared.isStop = true) :
    c'.shared.isStop = true := by
  obtain ⟨_, _, sig, -, hact, -⟩ := hs.inv
  generalize c.shared = s at hact h
  generalize c'.shared = s' at hact ⊢
  obtain ⟨hn⟩ := hact
  exact hn.isStop_mono h

theorem running_of_step (hs : machine.Step c t t' c') (h : c'.shared.isStop = false) :
    c.shared.isStop = false := by
  cases hstop : c.shared.isStop with
  | false => rfl
  | true => cases h.symm.trans (isStop_mono hs hstop)

theorem total (hr : machine.Reachable ReleasesOwn (start conns n) c)
    (hrun : c.shared.isStop = false) (k : Kind) :
    (c.shared.pool k : Multiset Conn) + allOwned k c = conns k := by
  induction hr with
  | start => simp [start, allOwned]
  | step hr _ hs ih => rw [total_step hr hs hrun k, ih (running_of_step hs hrun)]

def InOrder (s : Shared) : Prop := ∀ k, s.entered k = s.left k ++ s.pool k

theorem Next.inOrder (hn : Next s p mv sig s' p') (h : InOrder s) : InOrder s' := by
  intro k
  cases hn with
  | @getFront _ conn rest k' hpool =>
    by_cases hk : k = k'
    · subst hk
      simp [Shared.pop, h k, hpool]
    · simp [Shared.pop, hk, h k]
  | @relPush _ k' conn =>
    by_cases hk : k = k'
    · subst hk
      simp [Shared.push, h k]
    · simp [Shared.push, hk, h k]
  | _ => exact h k

theorem inOrder (hr : machine.Reachable Ok (start conns n) c) : InOrder c.shared := by
  refine hr.invariant (I := fun c => InOrder c.shared) (fun _ => rfl) fun c t t' c' _ _ hs h => ?_
  obtain ⟨_, _, sig, -, hact, -⟩ := hs.inv
  generalize c.shared = s at hact h
  generalize c'.shared = s' at hact ⊢
  obtain ⟨hn⟩ := hact
  exact hn.inOrder h

/-- Before the flag is set nothing is lost, duplicated or null, and the queue is first in,
first out. A call that begins after a `stop` has returned gets null and changes nothing. -/
structure Conserves (conns : Kind → List Conn) (c : Monitor Shared Thread) : Prop where
  total : c.shared.isStop = false → ∀ k, (c.shared.pool k : Multiset Conn) + allOwned k c = conns k
  apart : c.shared.isStop = false → ∀ k, (conns k).Nodup →
    c.threads.Pairwise fun t u => Disjoint (t.owned k) (u.owned k)
  handed : c.shared.isStop = false → ∀ t ∈ c.threads, ∀ k, t.place ≠ .got k none
  order : ∀ k, c.shared.entered k = c.shared.left k ++ c.shared.pool k
  late_null : ∀ t ∈ c.threads, t.late = true → ∀ k conn, t.place ≠ .got k (some conn)
  late_idle : ∀ t t' c', t.late = true → machine.Step c t t' c' → c'.shared.pool = c.shared.pool

theorem late_idle (hk : Knows c.shared t) (hlate : t.late = true)
    (hs : machine.Step c t t' c') : c'.shared.pool = c.shared.pool := by
  obtain ⟨_, _, sig, -, hact, -⟩ := hs.inv
  have hdeep := (hk.late hlate).2
  generalize c.shared = s at hact ⊢
  generalize c'.shared = s' at hact ⊢
  obtain ⟨hn⟩ := hact
  cases hn <;> first | rfl | cases hdeep

theorem stubs_conserved (hr : machine.Reachable ReleasesOwn (start conns n) c) :
    Conserves conns c where
  total hrun k := total hr hrun k
  apart hrun k hnodup := by
    have hsum : ((c.shared.pool k : Multiset Conn) + allOwned k c).Nodup := by
      rw [total hr hrun k]
      exact hnodup
    exact pairwise_disjoint_of_sum (Multiset.nodup_add.mp hsum).2.1
  handed hrun t ht k hplace := by
    have hk := (knows hr t ht).place
    rw [hplace] at hk
    cases hrun.symm.trans hk
  order := inOrder hr
  late_null t ht hlate k conn hplace := by
    have hdeep := ((knows hr t ht).late hlate).2
    rw [hplace] at hdeep
    cases hdeep
  late_idle t t' c' hlate hs := late_idle (knows hr t hs.mover) hlate hs

theorem stubs_conserved_put_back :
    ∃ c, machine.Reachable ReleasesOwn (start (fun _ => [0]) 2) c ∧
      (∃ t ∈ c.threads, t.place = .got .stub (some 0)) ∧ Conserves (fun _ => [0]) c := by
  have quiet (ts us : List Thread) {s s' : Shared} {t t' : Thread}
      (hr : machine.Reachable ReleasesOwn (start (fun _ => [0]) 2) ⟨s, ts ++ t :: us⟩)
      (hn : Does s t .quiet s' t')
      (hok : ∀ k conn, t'.place = .relLock k conn → conn ∈ t.owned k := by simp [handsAfter]) :
      machine.Reachable ReleasesOwn (start (fun _ => [0]) 2) ⟨s', ts ++ t' :: us⟩ :=
    hr.quiet ts us hn hok
  have hasked := quiet [] [_] (quiet [] [_] .start (.mk (.getCall (k := .stub))))
    (.mk (.getLock rfl))
  have hruns := quiet [] [_] hasked (.mk (.getRuns rfl))
  have hready := quiet [] [_] hruns (.mk (.getReady (.inl (by decide))))
  have hgot := quiet [] [_] (quiet [] [_] hready (.mk (.getGoes rfl))) (.mk (.getFront rfl))
  have hout := quiet [] [_] (quiet [] [_] hgot (.mk .getUnlock)) (.mk .getReturn)
  have hsecond := quiet [_] [] (quiet [_] [] hout (.mk (.getCall (k := .stub))))
    (.mk (.getLock rfl))
  have hempty := quiet [_] [] (quiet [_] [] hsecond (.mk (.getRuns rfl)))
    (.mk (.getEmpty rfl rfl))
  have hwaits := quiet [_] [] hempty (.mk .getWait)
  have hback := quiet [] [_] hwaits
    (.mk (show Next _ .out .stay .quiet _ (.relLock .stub 0) from .relCall))
    (by rintro k conn ⟨⟩; simp [handsAfter])
  have htested := quiet [] [_] (quiet [] [_] hback (.mk (.relLock rfl))) (.mk (.relRuns rfl))
  have hpushed := quiet [] [_] htested (.mk .relPush)
  have htold := hpushed.notify_one [] [] [] (.mk .relNotify) (by simp [ReleasesOwn]) rfl
  have hfree := quiet [] [_] htold (.mk .relUnlock)
  have hwoken := quiet [_] [] hfree (.mk (.getWake rfl))
  have hagain := quiet [_] [] hwoken (.mk (.getReady (.inl (by decide))))
  have hfront := quiet [_] [] (quiet [_] [] hagain (.mk (.getGoes rfl))) (.mk (.getFront rfl))
  have hown := quiet [_] [] hfront (.mk .getUnlock)
  exact ⟨_, hown, ⟨_, .tail _ (.head _), rfl⟩, stubs_conserved hown⟩

-- ---------------------------------------------------------------------------
-- Stopping
-- ---------------------------------------------------------------------------

/-- No thread is between a false predicate and its wait when `stop` notifies. -/
def NoneBlocking (c : Monitor Shared Thread) (t _ : Thread) : Prop :=
  ∀ k, t.place = .stopNotify k → ∀ u ∈ c.threads, u.place ≠ .getBlock k

def count (p : Place → Bool) (c : Monitor Shared Thread) : Nat := c.threads.countP (p ·.place)

@[simp] def Place.stranded (k : Kind) : Place → Bool
  | .getBlock k' | .getWait k' => k' == k
  | _ => false

@[simp] def Place.lastNotify : Place → Bool
  | .stopNotify .stub => true
  | _ => false

theorem lastNotify_of_woken {t : Thread} (h : (machine.parked t).isSome)
    (hw : (machine.woken t).place.lastNotify = true) : t.place.lastNotify = true := by
  obtain ⟨k, hk⟩ := parked_isSome h
  simp [woken_of_wait hk] at hw

theorem stranded_of_woken {t : Thread} (h : (machine.parked t).isSome)
    (hw : (machine.woken t).place.stranded k = true) : t.place.stranded k = true := by
  obtain ⟨k', hk⟩ := parked_isSome h
  simp [woken_of_wait hk] at hw

theorem stranded_told (hw : machine.Wakes (.all k) ts ts')
    (hnone : ∀ u ∈ ts, u.place ≠ .getBlock k) : ∀ u ∈ ts', u.place.stranded k = false := by
  intro u' hu'
  have hwait : u'.place ≠ .getWait k := by
    refine fun h => hw.all_parked (fun u hu => ?_) u' hu' (parked_iff.mpr h)
    rw [woken_of_wait (parked_iff.mp hu)]
    simp [machine]
  have hblock : u'.place ≠ .getBlock k := by
    obtain ⟨u, hu, rfl | ⟨hpark, rfl⟩⟩ := hw.mem hu'
    · exact hnone u' hu
    · obtain ⟨k', hk⟩ := parked_isSome hpark
      simp [woken_of_wait hk]
  cases h : u'.place with
  | getBlock k' => simpa [h] using hblock
  | getWait k' => simpa [h] using hwait
  | _ => rfl

theorem told_zero {c c' : Monitor Shared Thread} {t t' : Thread} {ts us : List Thread} {k : Kind}
    (hts : c.threads = ts ++ t :: us)
    (hw : machine.Wakes (.all k) (ts ++ t' :: us) c'.threads)
    (hnone : ∀ u ∈ c.threads, u.place ≠ .getBlock k) (ht' : t'.place ≠ .getBlock k) :
    count (Place.stranded k) c' = 0 := by
  refine List.countP_eq_zero.mpr fun u hu h => ?_
  have hall : ∀ u ∈ ts ++ t' :: us, u.place ≠ .getBlock k := by
    intro u hu
    rcases List.mem_append.mp hu with hu | hu
    · exact hnone u (by simp [hts, hu])
    · rcases List.mem_cons.mp hu with rfl | hu
      · exact ht'
      · exact hnone u (by simp [hts, hu])
  cases (stranded_told hw hall u hu).symm.trans h

structure Told (c : Monitor Shared Thread) : Prop where
  channel : c.shared.stopDone = true ∨ 0 < count Place.lastNotify c →
    count (Place.stranded .channel) c = 0
  stub : c.shared.stopDone = true → count (Place.stranded .stub) c = 0

theorem isStop_of_lastNotify {c : Monitor Shared Thread} (hk : ∀ t ∈ c.threads, Knows c.shared t)
    (hpos : 0 < count Place.lastNotify c) : c.shared.isStop = true := by
  obtain ⟨u, hu, hplace⟩ := List.countP_pos_iff.mp hpos
  have hplace' := (hk u hu).place
  obtain ⟨place, late, owned⟩ := u
  cases place <;> simp_all

theorem Next.stops (hn : Next s p mv sig s' p') (h : s'.stopDone = true) :
    s.stopDone = true ∨ p = .stopNotify .stub := by
  cases hn <;> simp_all [Shared.lock, Shared.unlock, Shared.push, Shared.pop]

theorem Next.notifies (hn : Next s (.stopNotify k) mv sig s' p') : sig = .all k := by
  cases hn <;> rfl

theorem Next.notified (hn : Next s (.stopNotify k) mv sig s' p') (k' : Kind) :
    p' ≠ .getBlock k' := by
  cases hn <;> simp

theorem Next.notifiesLast (hn : Next s p mv sig s' p') (hp : p ≠ .stopNotify .channel)
    (h : p'.lastNotify = true) : p.lastNotify = true := by
  cases hn <;> simp_all

theorem Does.next (h : Does s t sig s' t') : ∃ mv, Next s t.place mv sig s' t'.place := by
  obtain ⟨hn⟩ := h
  exact ⟨_, hn⟩

/-- No thread goes to wait after the pool has stopped. -/
theorem Next.strands (hn : Next s p mv sig s' p') (hstop : s.isStop = true)
    (hp : p.stranded k = false) : p'.stranded k = false := by
  cases hn <;> simp_all

theorem none_stranded {t t' : Thread} (hs : machine.Step c t t' c') (hstop : c.shared.isStop = true)
    (h : count (Place.stranded k) c = 0) : count (Place.stranded k) c' = 0 := by
  obtain ⟨_, _, _, -, hact, -⟩ := hs.inv
  obtain ⟨mv, hn⟩ := hact.next
  have hmover : t.place.stranded k = false :=
    Bool.eq_false_iff.mpr (List.countP_eq_zero.mp h t hs.mover)
  exact hs.countP_zero (fun _ => stranded_of_woken) h (hn.strands hstop hmover)

theorem Told.step (hr : machine.Reachable NoneBlocking (start conns n) c)
    (hok : NoneBlocking c t t') (hs : machine.Step c t t' c') (h : Told c) : Told c' := by
  have hdone := (knows hr t hs.mover).done
  obtain ⟨ts, us, sig, hts, hact, hw⟩ := hs.inv
  obtain ⟨mv, hn⟩ := hact.next
  have hnotified (k : Kind) (hplace : t.place = .stopNotify k) :
      count (Place.stranded k) c' = 0 := by
    rw [hplace] at hn
    obtain rfl := hn.notifies
    exact told_zero hts hw (hok k hplace) (hn.notified k)
  constructor
  case channel =>
    intro hstopped
    by_cases hplace : t.place = .stopNotify .channel
    · exact hnotified .channel hplace
    · have hbefore : c.shared.stopDone = true ∨ 0 < count Place.lastNotify c := by
        rcases hstopped with hstopped | hlast
        · refine (hn.stops hstopped).imp_right fun hstub => ?_
          exact List.countP_pos_iff.mpr ⟨t, hs.mover, by rw [hstub]; rfl⟩
        · refine .inr (hs.countP_pos (fun _ => lastNotify_of_woken) hlast ?_)
          exact hn.notifiesLast hplace
      have hstop := hbefore.elim hdone (isStop_of_lastNotify (knows hr))
      exact none_stranded hs hstop (h.channel hbefore)
  case stub =>
    intro hstopped
    rcases hn.stops hstopped with hstopped | hplace
    · exact none_stranded hs (hdone hstopped) (h.stub hstopped)
    · exact hnotified .stub hplace

theorem told (hr : machine.Reachable NoneBlocking (start conns n) c) : Told c := by
  refine hr.invariant ⟨?_, ?_⟩ fun _ _ _ _ hr hok hs h => h.step hr hok hs
  · simp [count, start]
  · simp [start]

/-- If no thread is about to wait when `stop` notifies, no thread waits after it. -/
theorem stop_strands_nobody (hr : machine.Reachable NoneBlocking (start conns n) c)
    (hdone : c.shared.stopDone = true) : ∀ t ∈ c.threads, ∀ k, t.place ≠ .getWait k := by
  obtain ⟨channel, stub⟩ := told hr
  intro t ht k hplace
  have hzero : count (Place.stranded k) c = 0 := by
    cases k with
    | stub => exact stub hdone
    | channel => exact channel (.inl hdone)
  exact absurd (List.countP_eq_zero.mp hzero t ht) (by simp [hplace])

theorem stop_strands_nobody_waiting : ∃ c : Monitor Shared Thread, c.shared.stopDone = true ∧
    ⟨.getWake .stub, false, fun _ => 0⟩ ∈ c.threads ∧
    ∀ t ∈ c.threads, ∀ k, t.place ≠ .getWait k := by
  have noBlock (s : Shared) (ts us : List Thread) (t t' : Thread)
      (hnone : ∀ u ∈ ts ++ us, ∀ k, u.place ≠ .getBlock k) :
      NoneBlocking ⟨s, ts ++ t :: us⟩ t t' := by
    intro k hk u hu
    rcases List.mem_append.mp hu with hu | hu
    · exact hnone u (List.mem_append_left _ hu) k
    · rcases List.mem_cons.mp hu with rfl | hu
      · simp [hk]
      · exact hnone u (List.mem_append_right _ hu) k
  have hwaits : machine.Reachable NoneBlocking (start (fun _ => []) 2) ⟨_,
      [⟨.getWait .stub, false, fun _ => 0⟩, ⟨.out, false, fun _ => 0⟩]⟩ :=
    Machine.Reachable.start.path [] [_] (.step (.mk .getCall) (.step (.mk (.getLock rfl))
      (.step (.mk (.getRuns rfl)) (.step (.mk (.getEmpty rfl rfl)) (.step (.mk .getWait) .refl)))))
      fun s l l' => noBlock s [] [_] l l' (by simp)
  have hstored : machine.Reachable NoneBlocking (start (fun _ => []) 2) ⟨_,
      [⟨.getWait .stub, false, fun _ => 0⟩, ⟨.stopNotify .channel, false, fun _ => 0⟩]⟩ :=
    hwaits.path [_] [] (.step (.mk .stopCall) (.step (.mk .stopStore) .refl))
      fun s l l' => noBlock s [_] [] l l' (by simp)
  have hchannels := hstored.notify [_] [] (.mk .stopChannels) (noBlock _ [_] [] _ _ (by simp))
  have hstubs := hchannels.notify [_] [] (.mk .stopStubs)
    (noBlock _ [_] [] _ _ (by simp [Machine.wake, machine]))
  exact ⟨_, rfl, .head _, stop_strands_nobody hstubs rfl⟩

/-- A thread that has just found the queue empty misses both notifications. -/
theorem stop_strands_late_waiter : ∃ c, machine.Reachable Machine.Any (start (fun _ => []) 2) c ∧
    c.shared.stopDone = true ∧ ∃ t ∈ c.threads, ∃ k, t.place = .getWait k := by
  have hblocks : machine.Reachable Machine.Any (start (fun _ => []) 2) ⟨_,
      [⟨.getBlock .stub, false, fun _ => 0⟩, ⟨.out, false, fun _ => 0⟩]⟩ :=
    Machine.Reachable.start.path [] [_] (.step (.mk .getCall) (.step (.mk (.getLock rfl))
      (.step (.mk (.getRuns rfl)) (.step (.mk (.getEmpty rfl rfl)) .refl)))) fun _ _ _ => trivial
  have hstored := hblocks.path [_] [] (.step (.mk .stopCall) (.step (.mk .stopStore) .refl))
    fun _ _ _ => trivial
  have hchannels := hstored.notify [_] [] (.mk .stopChannels) trivial
  have hstopped := hchannels.notify [_] [] (.mk .stopStubs) trivial
  exact ⟨_, hstopped.path [] [_] (.step (.mk .getWait) .refl) fun _ _ _ => trivial, rfl,
    _, .head _, .stub, rfl⟩

end GateServer.GRPCServerPool
