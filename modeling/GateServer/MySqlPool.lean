import GateServer.Operations
import GateServer.Interact.Monitor

/-!
# The MySQL pool, step by step

`close` sets a flag that neither of the other methods reads: `getConnection` waits only
for a connection, and `releaseConnection` always pushes.
-/

namespace GateServer.MySqlPool

open Interact

/-- `closeDone` is a ghost field: some call of `close` has returned. -/
structure Shared where
  conns : List Conn
  closed : Bool
  locked : Bool
  closeDone : Bool

inductive Place
  | out
  | getLock
  | getCheck
  | getBlock
  | getWait
  | getWake
  | getUnlock (conn : Conn)
  | got (conn : Conn)
  | relLock (conn : Conn)
  | relPush (conn : Conn)
  | relNotify (conn : Conn)
  | relUnlock (conn : Conn)
  | closeLock
  | closeStore
  | closeNotify
  | closeDrain
  | closeUnlock

inductive Next : Shared → Place → Signal Unit → Shared → Place → Prop
  | getCall : Next s .out .quiet s .getLock
  | getLock : s.locked = false → Next s .getLock .quiet { s with locked := true } .getCheck
  | getFront : s.conns = conn :: rest →
      Next s .getCheck .quiet { s with conns := rest } (.getUnlock conn)
  | getEmpty : s.conns = [] → Next s .getCheck .quiet s .getBlock
  | getWait : Next s .getBlock .quiet { s with locked := false } .getWait
  | getSpurious : Next s .getWait .quiet s .getWake
  | getWake : s.locked = false → Next s .getWake .quiet { s with locked := true } .getCheck
  | getUnlock : Next s (.getUnlock conn) .quiet { s with locked := false } (.got conn)
  | getReturn : Next s (.got conn) .quiet s .out
  | relCall : Next s .out .quiet s (.relLock conn)
  | relLock : s.locked = false →
      Next s (.relLock conn) .quiet { s with locked := true } (.relPush conn)
  | relPush : Next s (.relPush conn) .quiet { s with conns := s.conns ++ [conn] } (.relNotify conn)
  | relNotify : Next s (.relNotify conn) (.one ()) s (.relUnlock conn)
  | relUnlock : Next s (.relUnlock conn) .quiet { s with locked := false } .out
  | closeCall : Next s .out .quiet s .closeLock
  | closeLock : s.locked = false → Next s .closeLock .quiet { s with locked := true } .closeStore
  | closeStore : Next s .closeStore .quiet { s with closed := true } .closeNotify
  | closeNotify : Next s .closeNotify (.all ()) s .closeDrain
  | closePop : s.conns = conn :: rest →
      Next s .closeDrain .quiet { s with conns := rest } .closeDrain
  | closeEmpty : s.conns = [] → Next s .closeDrain .quiet s .closeUnlock
  | closeUnlock :
      Next s .closeUnlock .quiet { s with locked := false, closeDone := true } .out

def machine : Machine Shared Place Unit where
  next := Next
  parked p := match p with
    | .getWait => some ()
    | _ => none
  woken _ := .getWake

def start (conns : List Conn) (n : Nat) : Monitor Shared Place :=
  ⟨⟨conns, false, false, false⟩, List.replicate n .out⟩

-- ---------------------------------------------------------------------------
-- The mutex
-- ---------------------------------------------------------------------------

@[simp] def Place.inside : Place → Bool
  | .getCheck | .getBlock | .getUnlock _ | .relPush _ | .relNotify _ | .relUnlock _ | .closeStore
  | .closeNotify | .closeDrain | .closeUnlock => true
  | _ => false

theorem parked_iff {p : Place} {cv : Unit} : machine.parked p = some cv ↔ p = .getWait := by
  cases p <;> simp [machine]

theorem parked_isSome {p : Place} : (machine.parked p).isSome ↔ p = .getWait := by
  rw [Option.isSome_iff_exists]
  simp [parked_iff]

theorem lock : machine.Lock (K := Unit) (fun s _ => s.locked) fun p _ => p.inside where
  balance := by
    rintro s p sig s' p' hn - hflag
    cases hn <;> simp_all
  woken := by
    intro p hp
    simp [parked_isSome.mp hp, machine]

abbrev OneInside : Monitor Shared Place → Prop :=
  Machine.Excludes (K := Unit) (fun s _ => s.locked) fun p _ => p.inside

theorem start_oneInside : OneInside (start conns n) := by
  intro
  simp [start]

def Place.Knows (s : Shared) (p : Place) : Prop := p = .closeUnlock → s.conns = []

theorem outline : machine.Outline (K := Unit) Ok (fun p _ => p.inside) fun s p => p.Knows s where
  own := by
    rintro s _ p p' sig s' - hn -
    cases hn <;> simp_all [Place.Knows]
  others := by
    rintro s p sig s' p' u hn - hu hapart rfl
    have hout := (hapart () rfl).1
    have hempty := hu rfl
    cases hn <;> simp_all
  woken := by
    rintro s p - -
    nofun

theorem knows (hr : machine.Reachable Ok (start conns n) c) :
    ∀ p ∈ c.threads, p.Knows c.shared := by
  refine outline.holds lock start_oneInside (fun p hp => ?_) hr
  obtain ⟨-, rfl⟩ := List.mem_replicate.mp hp
  nofun

-- ---------------------------------------------------------------------------
-- Closing
-- ---------------------------------------------------------------------------

structure Final (c : Monitor Shared Place) : Prop where
  empty : c.shared.closeDone = true → c.shared.conns = []
  freed : c.shared.closeDone = true → ∀ p ∈ c.threads, p ≠ .getWait
  null : c.shared.closeDone = true → ∀ p ∈ c.threads, ∀ conn, p ≠ .got conn

@[simp] def Place.taking : Place → Bool
  | .getLock | .getWake | .relLock _ => true
  | _ => false

/-- After a `close` has returned, no `getConnection` and no `releaseConnection` acquires the
mutex, and no call is about to return a connection when a `close` returns. -/
structure NoneTaking (c : Monitor Shared Place) (p _ : Place) : Prop where
  after : c.shared.closeDone = true → p.taking = false
  at_return : p = .closeUnlock → ∀ u ∈ c.threads, ∀ conn, u ≠ .got conn

/-- On the way to a wait, to a push or to a returned connection. -/
@[simp] def Place.busy : Place → Bool
  | .getCheck | .getBlock | .getWait | .getUnlock _ | .got _ | .relPush _ => true
  | _ => false

@[simp] def Place.waiting : Place → Bool
  | .getWait => true
  | _ => false

@[simp] def Place.told : Place → Bool
  | .closeDrain | .closeUnlock => true
  | _ => false

def count (p : Place → Bool) (c : Monitor Shared Place) : Nat := c.threads.countP p

structure Settled (c : Monitor Shared Place) : Prop where
  empty : c.shared.closeDone = true → c.shared.conns = []
  busy : c.shared.closeDone = true → count Place.busy c = 0
  waiting : 0 < count Place.told c → count Place.waiting c = 0

theorem count_zero (hs : machine.Step c p p' c') (h : count q c = 0) (hq : q .getWake = false)
    (hp' : q p' = false) : count q c' = 0 :=
  hs.countP_zero (fun _ _ h => by cases hq.symm.trans h) h hp'

theorem count_pos (hs : machine.Step c p p' c') (h : 0 < count q c') (hq : q .getWake = false)
    (hp : q p' = true → q p = true) : 0 < count q c :=
  hs.countP_pos (fun _ _ h => by cases hq.symm.trans h) h hp

theorem told_zero (hx : OneInside c) (hts : c.threads = ts ++ p :: us)
    (hin : p.inside = true) (hp : p.told = false) :
    count Place.told c = 0 := by
  have htold (u : Place) (hu : u.told = true) : u.inside = true := by
    cases u <;> simp_all
  rw [count, hx.countP (k := ()) hts hin htold, hp, Bool.toNat_false]

/-- A busy thread is inside, waits, or is about to return when a `close` returns. -/
theorem busy_zero (hx : OneInside c) (hts : c.threads = ts ++ .closeUnlock :: us)
    (hwaiting : count Place.waiting c = 0)
    (hgot : ∀ u ∈ c.threads, ∀ conn, u ≠ .got conn) : count Place.busy c = 0 := by
  refine List.countP_eq_zero.mpr fun u hu h => ?_
  cases hin : u.inside with
  | true =>
    rw [hx.only (k := ()) hts rfl hu hin] at h
    cases h
  | false =>
    have hnone := List.countP_eq_zero.mp hwaiting u hu
    have hret := hgot u hu
    clear hts hgot hwaiting
    cases u <;> simp_all

theorem Next.closes (hn : Next s p sig s' p') (hdone : s'.closeDone = true) :
    s.closeDone = true ∨ p = .closeUnlock := by
  cases hn <;> simp_all

theorem Next.drained (hn : Next s p sig s' p') (hidle : p.busy = false) (hempty : s.conns = []) :
    s'.conns = [] := by
  cases hn <;> simp_all

theorem Next.idle (hn : Next s p sig s' p') (hidle : p.busy = false) (htakes : p.taking = false) :
    p'.busy = false := by
  cases hn <;> simp_all

theorem Next.tells (hn : Next s p sig s' p') (hp : p ≠ .closeNotify) (h : p'.told = true) :
    p.told = true := by
  cases hn <;> simp_all

theorem Next.waits (hn : Next s p sig s' p') (h : p'.waiting = true) : p = .getBlock := by
  cases hn <;> simp_all

theorem Next.notifies (hn : Next s .closeNotify sig s' p') : sig = .all () := by
  cases hn
  rfl

/-- No thread waits after a `close` has notified, since a thread about to wait is inside. -/
theorem Settled.no_wait (hr : machine.Reachable NoneTaking (start conns n) c)
    (hs : machine.Step c p p' c') (h : Settled c) (htold : 0 < count Place.told c') :
    count Place.waiting c' = 0 := by
  have hx := lock.excludes start_oneInside hr
  obtain ⟨ts, us, sig, hts, hn, hw⟩ := hs.inv
  by_cases hp : p = .closeNotify
  · subst hp
    obtain rfl := hn.notifies
    have hnone := hw.all_parked fun u hu => by simp [machine]
    refine List.countP_eq_zero.mpr fun u hu hwait => hnone u hu (parked_iff.mpr ?_)
    cases u <;> simp_all
  · have hbefore := count_pos hs htold rfl (hn.tells hp)
    refine count_zero hs (h.waiting hbefore) rfl (Bool.eq_false_iff.mpr fun hwait => ?_)
    obtain rfl := hn.waits hwait
    rw [told_zero hx hts rfl rfl] at hbefore
    cases hbefore

theorem Settled.step (hr : machine.Reachable NoneTaking (start conns n) c)
    (hok : NoneTaking c p p') (hs : machine.Step c p p' c') (h : Settled c) : Settled c' := by
  have hx := lock.excludes start_oneInside hr
  have hknows := knows hr p hs.mover
  have hidle (hdone : c.shared.closeDone = true) : p.busy = false :=
    Bool.eq_false_iff.mpr (List.countP_eq_zero.mp (h.busy hdone) p hs.mover)
  obtain ⟨ts, us, sig, hts, hn, hw⟩ := hs.inv
  constructor
  case empty =>
    intro hdone
    rcases hn.closes hdone with hdone | rfl
    · exact hn.drained (hidle hdone) (h.empty hdone)
    · exact hn.drained rfl (hknows rfl)
  case busy =>
    intro hdone
    rcases hn.closes hdone with hdone | rfl
    · exact count_zero hs (h.busy hdone) rfl (hn.idle (hidle hdone) (hok.after hdone))
    · have htold : 0 < count Place.told c := List.countP_pos_iff.mpr ⟨_, hs.mover, rfl⟩
      have hnone := busy_zero hx hts (h.waiting htold) (hok.at_return rfl)
      exact count_zero hs hnone rfl (hn.idle rfl rfl)
  case waiting => exact h.no_wait hr hs

theorem settled (hr : machine.Reachable NoneTaking (start conns n) c) : Settled c := by
  refine hr.invariant ⟨nofun, nofun, fun _ => ?_⟩ fun _ _ _ _ hr hok hs h => h.step hr hok hs
  simp [count, start]

/-- If nobody enters a pool after its `close`, it stays empty and no thread waits at it. -/
theorem closed_is_final (hr : machine.Reachable NoneTaking (start conns n) c) : Final c := by
  have none_at (hdone : c.shared.closeDone = true) (p : Place) (hp : p ∈ c.threads) :
      ¬p.busy = true := List.countP_eq_zero.mp ((settled hr).busy hdone) p hp
  exact {
    empty := (settled hr).empty
    freed := fun hdone p hp hwait => none_at hdone p hp (by simp [hwait])
    null := fun hdone p hp conn hgot => none_at hdone p hp (by simp [hgot]) }

theorem closed_is_final_borrowed : Final ⟨⟨[], true, false, true⟩, [.out, .getWake, .out]⟩ := by
  have quiet (ts us : List Place) {s s' : Shared} {p p' : Place}
      (hr : machine.Reachable NoneTaking (start [0] 3) ⟨s, ts ++ p :: us⟩)
      (hn : Next s p .quiet s' p') (hopen : s.closeDone = false)
      (hret : p = .closeUnlock → ∀ u ∈ ts ++ p :: us, ∀ conn, u ≠ .got conn) :
      machine.Reachable NoneTaking (start [0] 3) ⟨s', ts ++ p' :: us⟩ :=
    hr.quiet ts us hn ⟨fun hdone => (nomatch (hopen.symm.trans hdone : false = true)), hret⟩
  have hcalled := quiet [] [_, _] .start .getCall rfl nofun
  have hentered := quiet [] [_, _] hcalled (.getLock rfl) rfl nofun
  have htaken := quiet [] [_, _] hentered (.getFront rfl) rfl nofun
  have hout := quiet [] [_, _] (quiet [] [_, _] htaken .getUnlock rfl nofun) .getReturn rfl nofun
  have hasked := quiet [_] [_] (quiet [_] [_] hout .getCall rfl nofun) (.getLock rfl) rfl nofun
  have hempty := quiet [_] [_] hasked (.getEmpty rfl) rfl nofun
  have hwaits := quiet [_] [_] hempty .getWait rfl nofun
  have hclosing := quiet [_, _] [] hwaits .closeCall rfl nofun
  have hlocked := quiet [_, _] [] hclosing (.closeLock rfl) rfl nofun
  have hstored := quiet [_, _] [] hlocked .closeStore rfl nofun
  have htold : machine.Reachable NoneTaking (start [0] 3)
      ⟨⟨[], true, true, false⟩, [.out, .getWake, .closeDrain]⟩ :=
    hstored.notify [_, _] [] .closeNotify ⟨nofun, nofun⟩
  have hdrained := quiet [_, _] [] htold (.closeEmpty rfl) rfl nofun
  exact closed_is_final (quiet [_, _] [] hdrained .closeUnlock rfl (by simp))

theorem borrowed : machine.Reachable Machine.Any (start [0] 2)
    ⟨⟨[], false, false, false⟩, [.out, .out]⟩ :=
  Machine.Reachable.start.path [] [_] (.step .getCall (.step (.getLock rfl)
    (.step (.getFront rfl) (.step .getUnlock (.step .getReturn .refl))))) fun _ _ _ => trivial

theorem emptied (hr : machine.Reachable Machine.Any c ⟨⟨[], false, false, false⟩, [p, .out]⟩) :
    machine.Reachable Machine.Any c ⟨⟨[], true, false, true⟩, [machine.wake () p, .out]⟩ := by
  have hstored := hr.path [_] []
    (.step .closeCall (.step (.closeLock rfl) (.step .closeStore .refl)))
    fun _ _ _ => trivial
  have htold := hstored.notify [_] [] .closeNotify trivial
  exact htold.path [_] [] (.step (.closeEmpty rfl) (.step .closeUnlock .refl)) fun _ _ _ => trivial

/-- A borrowed connection comes back into the closed pool, and a thread that waited waits
again. -/
theorem close_not_final :
    (∃ c, machine.Reachable Machine.Any (start [0] 2) c ∧
      c.shared.closeDone = true ∧ c.shared.conns = [0]) ∧
    ∃ c, machine.Reachable Machine.Any (start [0] 2) c ∧
      c.shared.closeDone = true ∧ .getWait ∈ c.threads := by
  constructor
  · have hclosed := emptied borrowed
    have hback := hclosed.path [] [_]
      (.step (show Next _ .out .quiet _ (.relLock 0) from .relCall) (.step (.relLock rfl)
      (.step .relPush .refl))) fun _ _ _ => trivial
    exact ⟨_, hback, rfl, rfl⟩
  · have hwaits := borrowed.path [] [_] (.step .getCall (.step (.getLock rfl)
      (.step (.getEmpty rfl) (.step .getWait .refl)))) fun _ _ _ => trivial
    have hclosed := emptied hwaits
    have hagain := hclosed.path [] [_] (.step (.getWake rfl) (.step (.getEmpty rfl)
      (.step .getWait .refl))) fun _ _ _ => trivial
    exact ⟨_, hagain, rfl, .head _⟩

end GateServer.MySqlPool
