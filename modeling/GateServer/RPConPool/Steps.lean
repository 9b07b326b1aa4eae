import GateServer.Interact.Attending
import GateServer.Interact.Insider
import GateServer.Interact.Recording
import GateServer.RPConPool

/-!
# The pool of verification stubs, step by step

Any number of threads call the two methods while the destructor runs. It stores the flag
outside the mutex, but notifies under it.
-/

namespace GateServer.RPConPool

open Interact

/-- `stopDone` is a ghost field: the destructor has released the mutex. -/
structure Shared where
  slots : List (Option Conn)
  running : Bool
  locked : Bool
  stopDone : Bool

inductive Place
  | out
  | getLock
  | getCheck
  | getBlock
  | getWait
  | getWake
  | getRetest
  | getFront
  | getUnlock (res : Option Conn)
  | got (res : Option Conn)
  | retLock (conn : Conn)
  | retTest (conn : Conn)
  | retPush (conn : Conn)
  | retNotify (conn : Conn)
  | retUnlock (conn : Conn)
  | stopStore
  | stopLock
  | stopNotify
  | stopDrain
  | stopUnlock
  deriving DecidableEq

/-- `getFront` moves out of the first slot and removes the last one. -/
inductive Next : Shared → Place → Signal Unit → Shared → Place → Prop
  | getCall : Next s .out .quiet s .getLock
  | getLock : s.locked = false → Next s .getLock .quiet { s with locked := true } .getCheck
  | getReady : s.slots ≠ [] ∨ s.running = false → Next s .getCheck .quiet s .getRetest
  | getEmpty : s.slots = [] → s.running = true → Next s .getCheck .quiet s .getBlock
  | getWait : Next s .getBlock .quiet { s with locked := false } .getWait
  | getSpurious : Next s .getWait .quiet s .getWake
  | getWake : s.locked = false → Next s .getWake .quiet { s with locked := true } .getCheck
  | getStopped : s.running = false → Next s .getRetest .quiet s (.getUnlock none)
  | getRuns : s.running = true → Next s .getRetest .quiet s .getFront
  | getFront : s.slots = slot :: slots →
      Next s .getFront .quiet { s with slots := (none :: slots).dropLast } (.getUnlock slot)
  | getUnlock : Next s (.getUnlock res) .quiet { s with locked := false } (.got res)
  | getReturn : Next s (.got res) .quiet s .out
  | retCall : Next s .out .quiet s (.retLock conn)
  | retLock : s.locked = false →
      Next s (.retLock conn) .quiet { s with locked := true } (.retTest conn)
  | retStopped : s.running = false → Next s (.retTest conn) .quiet s (.retUnlock conn)
  | retRuns : s.running = true → Next s (.retTest conn) .quiet s (.retPush conn)
  | retPush :
      Next s (.retPush conn) .quiet { s with slots := s.slots ++ [some conn] } (.retNotify conn)
  | retNotify : Next s (.retNotify conn) (.one ()) s (.retUnlock conn)
  | retUnlock : Next s (.retUnlock conn) .quiet { s with locked := false } .out
  | stopCall : Next s .out .quiet s .stopStore
  | stopStore : Next s .stopStore .quiet { s with running := false } .stopLock
  | stopLock : s.locked = false → Next s .stopLock .quiet { s with locked := true } .stopNotify
  | stopNotify : Next s .stopNotify (.all ()) s .stopDrain
  | stopPop : s.slots ≠ [] →
      Next s .stopDrain .quiet { s with slots := s.slots.dropLast } .stopDrain
  | stopEmpty : s.slots = [] → Next s .stopDrain .quiet s .stopUnlock
  | stopUnlock : Next s .stopUnlock .quiet { s with locked := false, stopDone := true } .out

/-- A `getConnection` takes effect with its second load of the flag, a `returnConnection` with
its only one, and the destructor when it stores the flag and when it locks the mutex. -/
def effect (s : Shared) : Place → Place → Effect Ans
  | .getRetest, .getUnlock res => .act ⟨.acquire .varify, res⟩
  | .getRetest, .getFront => .act ⟨.acquire .varify, s.slots.head?.join⟩
  | .retTest conn, .retUnlock _ | .retTest conn, .retPush _ => .act ⟨.release .varify conn, ()⟩
  | .stopStore, .stopLock | .stopLock, .stopNotify => .env
  | _, _ => .none

def machine : Machine Shared Place Unit where
  next := Next
  parked
    | .getWait => some ()
    | _ => none
  woken _ := .getWake

def start (poolSize n : Nat) : Monitor Shared Place :=
  ⟨⟨(create poolSize).connections, true, false, false⟩, List.replicate n .out⟩

-- ---------------------------------------------------------------------------
-- The mutex
-- ---------------------------------------------------------------------------

@[simp] def Place.inside : Place → Bool
  | .getCheck | .getBlock | .getRetest | .getFront | .getUnlock _ | .retTest _ | .retPush _
  | .retNotify _ | .retUnlock _ | .stopNotify | .stopDrain | .stopUnlock => true
  | _ => false

theorem parked_iff {p : Place} {cv : Unit} : machine.parked p = some cv ↔ p = .getWait := by
  cases p <;> simp [machine]

theorem parked_isSome {p : Place} : (machine.parked p).isSome ↔ p = .getWait := by
  cases p <;> simp [machine]

theorem lock : machine.Guarded (·.locked) Place.inside where
  balance := by
    rintro s p sig s' p' hn - hflag
    cases hn <;> simp_all
  woken := by
    intro p hp
    cases parked_isSome.mp hp
    rfl

theorem start_oneInside : Machine.OneInside (·.locked) Place.inside (start poolSize n) := by
  intro
  simp [start]

-- ---------------------------------------------------------------------------
-- What a thread knows at its place
-- ---------------------------------------------------------------------------

@[simp] def Place.Knows (s : Shared) : Place → Prop
  | .getBlock | .stopUnlock => s.slots = []
  | .getRetest => s.slots ≠ [] ∨ s.running = false
  | .getFront => s.slots ≠ []
  | _ => True

@[simp] def Place.stopping : Place → Bool
  | .stopLock | .stopNotify | .stopDrain | .stopUnlock => true
  | _ => false

structure Knows (s : Shared) (p : Place) : Prop where
  place : p.Knows s
  stopping : p.stopping = true → s.running = false
  done : s.stopDone = true → s.running = false

theorem Next.stopped_mono (hn : Next s p sig s' p') (h : s.running = false) :
    s'.running = false := by
  cases hn <;> first | exact h | rfl

theorem Next.slots_outside (hn : Next s p sig s' p') (h : p.inside = false) :
    s'.slots = s.slots := by
  cases hn <;> first | rfl | cases h

theorem Next.done (hn : Next s p sig s' p') (hp : p.stopping = true → s.running = false)
    (hdone : s.stopDone = true → s.running = false) (h : s'.stopDone = true) :
    s'.running = false := by
  cases hn with
  | stopUnlock => exact hp rfl
  | stopStore => rfl
  | _ => exact hdone h

theorem Place.Knows.stable {p : Place} (hp : p.Knows s)
    (hstop : s.running = false → s'.running = false)
    (hslots : p.inside = true → s'.slots = s.slots) : p.Knows s' := by
  cases p with
  | getBlock | stopUnlock | getFront =>
    rw [Place.Knows, hslots rfl]
    exact hp
  | getRetest =>
    rw [Place.Knows, hslots rfl]
    exact hp.imp_right hstop
  | _ => trivial

theorem outline : machine.Outline (K := Unit) Ok (fun p _ => p.inside) Knows where
  own := by
    rintro s _ p p' sig s' - hn ⟨hplace, hstopping, hdone⟩
    refine ⟨?_, ?_, ?_⟩
    · cases hn <;> simp_all
    · cases hn <;> simp_all
    · cases hn <;> simp_all
  others := by
    rintro s p sig s' p' u hn hp hu hapart
    have hslots (hin : u.inside = true) := hn.slots_outside (hapart () hin).1
    exact ⟨hu.place.stable hn.stopped_mono hslots, fun h => hn.stopped_mono (hu.stopping h),
      hn.done hp.stopping hp.done⟩
  woken := by
    rintro s p - ⟨-, -, hdone⟩
    exact ⟨trivial, nofun, hdone⟩

theorem start_knows : ∀ p ∈ (start poolSize n).threads, Knows (start poolSize n).shared p := by
  intro p hp
  obtain ⟨-, rfl⟩ := List.mem_replicate.mp hp
  exact ⟨trivial, nofun, nofun⟩

theorem knows (hr : machine.Reachable Ok (start poolSize n) c) :
    ∀ p ∈ c.threads, Knows c.shared p :=
  outline.holds lock start_oneInside start_knows hr

-- ---------------------------------------------------------------------------
-- Waking
-- ---------------------------------------------------------------------------

def count (q : Place → Bool) (c : Monitor Shared Place) : Nat := c.threads.countP q

theorem count_zero (hs : machine.Step c p p' c') (h : count q c = 0) (hq : q .getWake = false)
    (hp' : q p' = false) : count q c' = 0 :=
  hs.countP_zero (fun _ _ h => by cases hq.symm.trans h) h hp'

theorem count_before (hs : machine.Step c p p' c') (h : 0 < count q c') (hq : q .getWake = false)
    (hp : q p' = true → q p = true) : 0 < count q c :=
  hs.countP_pos (fun _ _ h => by cases hq.symm.trans h) h hp

/-- On the way to the first slot, or about to notify for a pushed stub. -/
@[simp] def Place.attends : Place → Bool
  | .getCheck | .getWake | .getRetest | .getFront | .retNotify _ => true
  | _ => false

def idle (s : Shared) : Nat := if s.running then s.slots.length else 0

theorem idle_stopped (h : s.running = false) : idle s = 0 := if_neg (by simp [h])

theorem Next.attends (hn : Next s p sig s' p') : idle s' = 0 ∨
    idle s' + p.attends.toNat ≤ idle s + p'.attends.toNat + sig.wakesOne () := by
  cases hn with
  | getEmpty hempty => exact .inl (by simp [idle, hempty])
  | getStopped hstop => exact .inl (idle_stopped hstop)
  | stopStore => exact .inl rfl
  | getFront hslots =>
    cases hrun : s.running with
    | false => exact .inl rfl
    | true => exact .inr (by simp [idle, hrun, hslots])
  | retPush =>
    cases hrun : s.running with
    | false => exact .inl rfl
    | true => exact .inr (by simp [idle, hrun])
  | stopPop =>
    cases hrun : s.running with
    | false => exact .inl rfl
    | true => exact .inr (by simp [idle, hrun])
  | _ => exact .inr (by simp [idle])

theorem attends : machine.Attends Knows () idle Place.attends where
  step hn _ := hn.attends
  waits := by
    rintro s p sig s' p' hn hknows hwaits
    cases parked_iff.mp hwaits
    cases hn with
    | getWait =>
      have hempty : s.slots = [] := hknows.place
      simp [idle, hempty]
  woken := by
    intro p hp
    cases parked_iff.mp hp
    exact ⟨rfl, rfl⟩
  kept := by
    intro p hp _
    rfl
  leaves := by
    intro p k hp
    simp [machine]

/-- While a thread waits without having been notified, the slots are at most as many as the
threads about to move out of one or to notify. -/
theorem waiter_not_overlooked (hr : machine.Reachable Machine.Any (start poolSize n) c)
    (hrun : c.shared.running = true) (hwaits : .getWait ∈ c.threads) :
    c.shared.slots.length ≤ count Place.attends c := by
  have hidle : idle c.shared = c.shared.slots.length := if_pos hrun
  rw [← hidle]
  refine attends.idle_le (fun c hr => knows hr) (fun p hp => ?_) hr hwaits (parked_iff.mpr rfl)
  obtain ⟨-, rfl⟩ := List.mem_replicate.mp hp
  nofun

theorem borrowed : machine.Reachable Machine.Any (start 1 2)
    ⟨⟨[], true, false, false⟩, [.out, .out]⟩ := by
  have hstart : machine.Reachable Machine.Any (start 1 2) _ := .start
  exact hstart.path [] [_] (.step .getCall (.step (.getLock rfl)
    (.step (.getReady (.inl (by decide))) (.step (.getRuns rfl) (.step (.getFront rfl)
    (.step .getUnlock (.step .getReturn .refl))))))) fun _ _ _ => trivial

theorem waiting : machine.Reachable Machine.Any (start 1 2)
    ⟨⟨[], true, false, false⟩, [.out, .getWait]⟩ :=
  borrowed.path [_] [] (.step .getCall (.step (.getLock rfl) (.step (.getEmpty rfl rfl)
    (.step .getWait .refl)))) fun _ _ _ => trivial

theorem waiter_not_overlooked_pushed :
    1 ≤ count Place.attends ⟨⟨[some 0], true, true, false⟩, [.retNotify 0, .getWait]⟩ := by
  have hpushed := waiting.path [] [_] (.step (show Next _ .out .quiet _ (.retLock 0) from .retCall)
    (.step (.retLock rfl) (.step (.retRuns rfl) (.step .retPush .refl)))) fun _ _ _ => trivial
  exact waiter_not_overlooked hpushed rfl (.tail _ (.head _))

-- ---------------------------------------------------------------------------
-- The destructor
-- ---------------------------------------------------------------------------

@[simp] def Place.stranded : Place → Bool
  | .getBlock | .getWait => true
  | _ => false

@[simp] def Place.told : Place → Bool
  | .stopDrain | .stopUnlock => true
  | _ => false

def Told (c : Monitor Shared Place) : Prop := c.shared.stopDone = true ∨ 0 < count Place.told c

theorem Next.tells (hn : Next s p sig s' p') (hp : p ≠ .stopNotify) (h : p'.told = true) :
    p.told = true := by
  cases hn <;> simp_all

theorem Next.ends (hn : Next s p sig s' p') (h : s'.stopDone = true) :
    s.stopDone = true ∨ p.told = true := by
  cases hn <;> simp_all

theorem Next.strands (hn : Next s p sig s' p') (hstop : s.running = false)
    (hp : p.stranded = false) : p'.stranded = false := by
  cases hn <;> simp_all

theorem Next.notifies (hn : Next s .stopNotify sig s' p') : sig = .all () ∧ p' = .stopDrain := by
  cases hn
  exact ⟨rfl, rfl⟩

theorem Told.stopped (hk : ∀ p ∈ c.threads, Knows c.shared p) (hp : p ∈ c.threads)
    (h : Told c) : c.shared.running = false := by
  rcases h with hdone | htold
  · exact (hk p hp).done hdone
  · obtain ⟨u, hu, hplace⟩ := List.countP_pos_iff.mp htold
    refine (hk u hu).stopping ?_
    cases u <;> simp_all

theorem Told.before (hs : machine.Step c p p' c') (hp : p ≠ .stopNotify) (h : Told c') :
    Told c := by
  obtain ⟨_, _, _, -, hn, -⟩ := hs.inv
  rcases h with hdone | htold
  · refine (hn.ends hdone).imp_right fun hplace => ?_
    exact List.countP_pos_iff.mpr ⟨p, hs.mover, hplace⟩
  · exact .inr (count_before hs htold rfl (hn.tells hp))

/-- The destructor notifies under the mutex, so no thread is about to wait. -/
theorem none_stranded (hx : Machine.OneInside (·.locked) Place.inside c)
    (hs : machine.Step c .stopNotify p' c') : count Place.stranded c' = 0 := by
  obtain ⟨ts, us, sig, hts, hn, hw⟩ := hs.inv
  obtain ⟨rfl, hp'⟩ := hn.notifies
  refine List.countP_eq_zero.mpr fun u' hu' hstranded => ?_
  have hwaits : u' ≠ .getWait := by
    refine fun h => hw.all_parked (fun u hu => ?_) u' hu' (parked_iff.mpr h)
    simp [machine]
  have hblocks : u' = .getBlock := by
    cases u' <;> simp_all
  obtain ⟨u, hu, rfl | ⟨hpark, rfl⟩⟩ := hw.mem hu'
  · have hother : u' ∈ ts ++ us := by
      rcases List.mem_append.mp hu with hu | hu
      · exact List.mem_append_left _ hu
      · rcases List.mem_cons.mp hu with rfl | hu
        · cases hp'.symm.trans hblocks
        · exact List.mem_append_right _ hu
    have hout := hx.alone (k := ()) hts rfl hother
    simp [hblocks] at hout
  · cases hblocks

theorem told_strands_nobody (hr : machine.Reachable Ok (start poolSize n) c) (h : Told c) :
    count Place.stranded c = 0 := by
  revert h
  refine hr.invariant (I := fun c => Told c → count Place.stranded c = 0) ?_ ?_
  · simp [Told, count, start]
  · intro c p p' c' hr _ hs ih htold
    by_cases hp : p = .stopNotify
    · subst hp
      exact none_stranded (lock.excludes start_oneInside hr) hs
    · have hbefore := htold.before hs hp
      have hzero := ih hbefore
      have hstop := hbefore.stopped (knows hr) hs.mover
      obtain ⟨_, _, _, -, hn, -⟩ := hs.inv
      have hmover : p.stranded = false :=
        Bool.eq_false_iff.mpr (List.countP_eq_zero.mp hzero p hs.mover)
      exact count_zero hs hzero rfl (hn.strands hstop hmover)

/-- After the destructor no thread waits. -/
theorem destructor_strands_nobody (hr : machine.Reachable Machine.Any (start poolSize n) c)
    (hdone : c.shared.stopDone = true) : .getWait ∉ c.threads := by
  intro hwaits
  have hzero := told_strands_nobody hr (.inl hdone)
  exact List.countP_eq_zero.mp hzero _ hwaits rfl

theorem destructor_strands_nobody_waiting : Place.getWait ∉ [Place.out, .getWake] := by
  have hlocked := waiting.path [] [_] (.step .stopCall (.step .stopStore
    (.step (.stopLock rfl) .refl))) fun _ _ _ => trivial
  have htold := hlocked.notify [] [_] .stopNotify trivial
  have hdone := htold.path [] [_] (.step (.stopEmpty rfl) (.step .stopUnlock .refl))
    fun _ _ _ => trivial
  exact destructor_strands_nobody hdone rfl

-- ---------------------------------------------------------------------------
-- Calls in one step
-- ---------------------------------------------------------------------------

@[simp] def Place.pending (slots : List (Option Conn)) : Place → List (Option Conn)
  | .getFront => (none :: slots.tail).dropLast
  | .retPush conn => slots ++ [some conn]
  | .stopNotify | .stopDrain | .stopUnlock => []
  | _ => slots

def shown (p : Place) (s : Shared) : RPConPool := ⟨p.pending s.slots, s.running⟩

def view (c : Monitor Shared Place) : RPConPool :=
  shown ((Machine.insider Place.inside c).getD .out) c.shared

theorem Next.effect_inside (hn : Next s p sig s' p') (hp : p.Knows s) (hin : p.inside = true)
    (hin' : p'.inside = true) : arena.Makes (effect s p p') (shown p s) (shown p' s') := by
  obtain ⟨slots, running, locked, done⟩ := s
  cases hn with
  | getStopped hstop =>
    cases hstop
    exact .get .stopped
  | getRuns hrun =>
    cases hrun
    obtain ⟨slot, rest, rfl⟩ := List.exists_cons_of_ne_nil (hp.resolve_right nofun)
    exact .get .moved
  | getFront hslots =>
    cases hslots
    rfl
  | retStopped hstop =>
    cases hstop
    exact .takeBack .destroyed
  | retRuns hrun =>
    cases hrun
    exact .takeBack .pushed
  | getReady | getEmpty | retPush | retNotify | stopNotify | stopPop | stopEmpty => rfl
  | _ => cases hin <;> cases hin'

theorem Next.effect_leave (hn : Next s p sig s' p') (hp : p.Knows s) (hin : p.inside = true)
    (hout' : p'.inside = false) : arena.Makes (effect s p p') (shown p s) (shown .out s') := by
  obtain ⟨slots, running, locked, done⟩ := s
  cases hn with
  | getWait | getUnlock | retUnlock => rfl
  | stopUnlock =>
    have hempty : slots = [] := hp
    cases hempty
    rfl
  | _ => cases hin <;> cases hout'

theorem Next.effect_enter (hn : Next s p sig s' p') (hstop : p.stopping = true → s.running = false)
    (hout : p.inside = false) (hin' : p'.inside = true) :
    arena.Makes (effect s p p') (shown .out s) (shown p' s') := by
  obtain ⟨slots, running, locked, done⟩ := s
  cases hn with
  | getLock | getWake | retLock => rfl
  | stopLock =>
    cases hstop rfl
    exact Stops.empty
  | _ => cases hout <;> cases hin'

theorem Next.effect_outside (hn : Next s p sig s' p') (hout : p.inside = false)
    (hout' : p'.inside = false) (q : Place) :
    arena.Makes (effect s p p') (shown q s) (shown q s') := by
  obtain ⟨slots, running, locked, done⟩ := s
  cases hn with
  | getCall | getSpurious | getReturn | retCall | stopCall => rfl
  | stopStore => exact Stops.store
  | _ => cases hout <;> cases hout'

theorem parked_of_inside (p : Place) (h : p.inside = true) : machine.parked p = none := by
  cases p <;> first | rfl | cases h

theorem shows : machine.Shows arena effect Place.inside Knows
    fun who s => shown (who.getD .out) s where
  stays hp hn hin hin' := hn.effect_inside hp.place hin hin'
  leaves hp hn hin hout' := hn.effect_leave hp.place hin hout'
  enters hp hn hout hin' := hn.effect_enter hp.stopping hout hin'
  passes _ hn hout hout' _ := hn.effect_outside hout hout' _

theorem refines : machine.Refines arena Ok effect view (start poolSize n) :=
  lock.refines parked_of_inside start_oneInside (fun _ hr => knows hr) shows

@[simp] def Place.idle : Place → Bool
  | .out => true
  | _ => false

@[simp] def Place.Records (s : Shared) : Place → List Ev → Prop
  | .out, _ => True
  | .getFront, since => since = [⟨.acquire .varify, s.slots.head?.join⟩]
  | .getUnlock res, since | .got res, since => since = [⟨.acquire .varify, res⟩]
  | .retPush conn, since | .retNotify conn, since | .retUnlock conn, since =>
    since = [⟨.release .varify conn, ()⟩]
  | _, since => since = []

theorem records : machine.Records effect Place.idle (fun p (_ : Unit) => p.inside) Knows
    fun s p since => p.Records s since where
  own := by
    rintro s p sig s' p' since hn - h
    cases hn <;> simp_all [effect, Effect.events]
  others := by
    rintro s p sig s' p' u since hn h hapart
    cases u with
    | getFront =>
      have hslots := hn.slots_outside (hapart () rfl).1
      simpa [hslots] using h
    | _ => exact h
  woken := by
    intro p s since hpark h
    cases parked_isSome.mp hpark
    exact h

/-- Each call takes effect in one step with the answer that it gives. -/
structure InOneStep (poolSize : Nat) (tr : List Ev) (c : Monitor Shared (Recorded Ans Place)) :
    Prop where
  run : arena.Run (create poolSize) tr (view (Machine.forget c))
  calls : ∀ t ∈ c.threads, t.thread.Records c.shared t.since

theorem view_start : view (start poolSize n) = create poolSize := by
  rw [view, Machine.insider_none start_oneInside rfl]
  rfl

theorem calls_in_one_step (ht : machine.Remembers effect Place.idle (start poolSize n) tr c) :
    InOneStep poolSize tr c where
  run := by
    have hrun := refines.traced ht.forget
    rwa [view_start] at hrun
  calls := by
    refine records.holds outline lock start_oneInside start_knows (fun p hp => ?_) ht
    obtain ⟨-, rfl⟩ := List.mem_replicate.mp hp
    trivial

theorem calls_in_one_step_taken : InOneStep 2 [⟨.acquire .varify, some 0⟩]
    ⟨⟨[none], true, false, false⟩, [⟨.got (some 0), [⟨.acquire .varify, some 0⟩]⟩]⟩ := by
  have hstart : machine.Remembers effect Place.idle (start 2 1) [] _ := .start
  have hasked := (hstart.moves [] [] .getCall).moves [] [] (.getLock rfl)
  have hruns := (hasked.moves [] [] (.getReady (.inl (by decide)))).moves [] [] (.getRuns rfl)
  exact calls_in_one_step ((hruns.moves [] [] (.getFront rfl)).moves [] [] .getUnlock)

end GateServer.RPConPool
