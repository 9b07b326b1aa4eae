import GateServer.Operations
import GateServer.Interact.Monitor

/-!
# The Redis pool, step by step

Any number of threads call the three methods of the pool. A method's statements under the
mutex are split where another thread could interfere, and outside the mutex each load and
store is a step.
-/

namespace GateServer.RedisPool

open Interact

/-- `closeDone` is a ghost field: some call of `close` has returned. -/
structure Shared where
  conns : List Conn
  closed : Bool
  locked : Bool
  closeDone : Bool

/-- `notified` distinguishes a thread that was woken by a notification from one that tests the
predicate first or after a spurious wakeup. -/
inductive Place
  | out
  | getLock
  | getCheck (notified : Bool)
  | getBlock
  | getWait
  | getWake (notified : Bool)
  | getUnlock (res : Option Conn)
  | got (res : Option Conn)
  | retTest (conn : Option Conn)
  | retLock (conn : Conn)
  | retPush (conn : Conn)
  | retNotify (conn : Conn)
  | retUnlock (conn : Conn)
  | closeStore
  | closeLock
  | closeDrain
  | closeNotify
  | closeUnlock

/-- `getConnection` loads `closed_` in the predicate and again after it. Both loads are under
the mutex, and a store between them acts like one before the first, so the predicate, the test
and the `pop` are one step. -/
inductive Next : Shared → Place → Signal Unit → Shared → Place → Prop
  | getCall : Next s .out .quiet s .getLock
  | getLock : s.locked = false →
      Next s .getLock .quiet { s with locked := true } (.getCheck false)
  | getClosed : s.closed = true → Next s (.getCheck n) .quiet s (.getUnlock none)
  | getFront : s.closed = false → s.conns = conn :: rest →
      Next s (.getCheck n) .quiet { s with conns := rest } (.getUnlock (some conn))
  | getEmpty : s.closed = false → s.conns = [] → Next s (.getCheck n) .quiet s .getBlock
  | getWait : Next s .getBlock .quiet { s with locked := false } .getWait
  | getSpurious : Next s .getWait .quiet s (.getWake false)
  | getWake : s.locked = false →
      Next s (.getWake n) .quiet { s with locked := true } (.getCheck n)
  | getUnlock : Next s (.getUnlock res) .quiet { s with locked := false } (.got res)
  | getReturn : Next s (.got res) .quiet s .out
  | retCall : Next s .out .quiet s (.retTest conn)
  | retNull : Next s (.retTest none) .quiet s .out
  | retClosed : s.closed = true → Next s (.retTest (some conn)) .quiet s .out
  | retOpen : s.closed = false → Next s (.retTest (some conn)) .quiet s (.retLock conn)
  | retLock : s.locked = false →
      Next s (.retLock conn) .quiet { s with locked := true } (.retPush conn)
  | retPush : Next s (.retPush conn) .quiet { s with conns := s.conns ++ [conn] } (.retNotify conn)
  | retNotify : Next s (.retNotify conn) (.one ()) s (.retUnlock conn)
  | retUnlock : Next s (.retUnlock conn) .quiet { s with locked := false } .out
  | closeCall : Next s .out .quiet s .closeStore
  | closeStore : Next s .closeStore .quiet { s with closed := true } .closeLock
  | closeLock : s.locked = false →
      Next s .closeLock .quiet { s with locked := true } .closeDrain
  | closePop : s.conns = conn :: rest →
      Next s .closeDrain .quiet { s with conns := rest } .closeDrain
  | closeEmpty : s.conns = [] → Next s .closeDrain .quiet s .closeNotify
  | closeNotify : Next s .closeNotify (.all ()) s .closeUnlock
  | closeUnlock :
      Next s .closeUnlock .quiet { s with locked := false, closeDone := true } .out

/-- `late` is a ghost field: a `close` had returned when the call began. -/
structure Thread where
  place : Place
  late : Bool

inductive Does : Shared → Thread → Signal Unit → Shared → Thread → Prop
  | mk : Next s p sig s' p' → Does s ⟨p, late⟩ sig s' ⟨p', match p with
    | .out => s.closeDone
    | _ => late⟩

def machine : Machine Shared Thread Unit where
  next := Does
  parked t := match t.place with
    | .getWait => some ()
    | _ => none
  woken t := { t with place := .getWake true }

def start (conns : List Conn) (n : Nat) : Monitor Shared Thread :=
  ⟨⟨conns, false, false, false⟩, List.replicate n ⟨.out, false⟩⟩

-- ---------------------------------------------------------------------------
-- The mutex
-- ---------------------------------------------------------------------------

@[simp] def Place.inside : Place → Bool
  | .getCheck _ | .getBlock | .getUnlock _ | .retPush _ | .retNotify _ | .retUnlock _
  | .closeDrain | .closeNotify | .closeUnlock => true
  | _ => false

theorem parked_iff {t : Thread} {cv : Unit} :
    machine.parked t = some cv ↔ t.place = .getWait := by
  obtain ⟨place, late⟩ := t
  cases place <;> simp [machine]

theorem parked_isSome {t : Thread} : (machine.parked t).isSome ↔ t.place = .getWait := by
  rw [Option.isSome_iff_exists]
  simp [parked_iff]

theorem lock : machine.Lock (K := Unit) (fun s _ => s.locked) fun t _ => t.place.inside where
  balance := by
    rintro s t sig s' t' ⟨hn⟩ - hflag
    cases hn <;> simp_all
  woken := by
    intro t ht
    simp [parked_isSome.mp ht, machine]

def count (p : Place → Bool) (c : Monitor Shared Thread) : Nat := c.threads.countP (p ·.place)

theorem count_step (hs : machine.Step c t t' c') (p : Place → Bool)
    (hp : p (.getWake true) = p .getWait) :
    count p c' + (p t.place).toNat = count p c + (p t'.place).toNat := by
  refine hs.countP (p := (p ·.place)) fun u hu => ?_
  rw [parked_isSome.mp hu]
  exact hp

theorem count_pos (ht : t ∈ c.threads) {p : Place → Bool} (hp : p t.place = true) :
    0 < count p c :=
  List.countP_pos_iff.mpr ⟨t, ht, hp⟩

theorem count_zero (hs : machine.Step c t t' c') (h : count p c = 0)
    (hp : p (.getWake true) = false) (ht' : p t'.place = false) : count p c' = 0 :=
  hs.countP_zero (fun _ _ h => by cases hp.symm.trans h) h ht'

theorem count_before (hs : machine.Step c t t' c') (h : 0 < count p c')
    (hp : p (.getWake true) = false) (ht : p t'.place = true → p t.place = true) : 0 < count p c :=
  hs.countP_pos (fun _ _ h => by cases hp.symm.trans h) h ht

theorem count_start (p : Place → Bool) (hp : p .out = false) : count p (start conns n) = 0 := by
  simp [count, start, hp]

theorem start_excludes : Machine.Excludes (K := Unit) (fun s _ => s.locked)
    (fun t _ => t.place.inside) (start conns n) := by
  intro
  simp [start]

-- ---------------------------------------------------------------------------
-- What a thread knows at its place
-- ---------------------------------------------------------------------------

@[simp] def Place.Knows (s : Shared) : Place → Prop
  | .getBlock => s.conns = []
  | .closeLock | .closeDrain | .closeNotify | .closeUnlock => s.closed = true
  | _ => True

structure Knows (s : Shared) (t : Thread) : Prop where
  place : t.place.Knows s
  done : s.closeDone = true → s.closed = true
  late : t.late = true → s.closed = true ∧
    ∀ conn, t.place ≠ .getUnlock (some conn) ∧ t.place ≠ .got (some conn)

theorem Next.closed_mono (hn : Next s p sig s' p') (h : s.closed = true) : s'.closed = true := by
  cases hn <;> first | exact h | rfl

theorem Next.conns_outside (hn : Next s p sig s' p') (h : p.inside = false) :
    s'.conns = s.conns := by
  cases hn <;> first | rfl | cases h

theorem Next.done (hn : Next s p sig s' p') (hp : p.Knows s)
    (hdone : s.closeDone = true → s.closed = true) (h : s'.closeDone = true) :
    s'.closed = true := by
  cases hn with
  | closeUnlock => exact hp
  | closeStore => rfl
  | _ => exact hdone h

theorem Place.Knows.stable {p : Place} (hp : p.Knows s)
    (hclosed : s.closed = true → s'.closed = true)
    (hconns : p.inside = true → s'.conns = s.conns) : p.Knows s' := by
  cases p with
  | getBlock => exact (hconns rfl).trans hp
  | closeLock | closeDrain | closeNotify | closeUnlock => exact hclosed hp
  | _ => trivial

theorem outline : machine.Outline (K := Unit) Ok (fun t _ => t.place.inside) Knows where
  own := by
    rintro s _ t t' sig s' - ⟨hn⟩ ⟨hplace, hdone, hk⟩
    refine ⟨?_, hn.done hplace hdone, ?_⟩
    · cases hn <;> simp_all
    · cases hn <;> simp_all
  others := by
    rintro s l sig s' l' u ⟨hn⟩ hl hu hapart
    refine ⟨hu.place.stable hn.closed_mono fun hin => hn.conns_outside (hapart () hin).1,
      hn.done hl.place hu.done, fun h => ⟨hn.closed_mono (hu.late h).1, (hu.late h).2⟩⟩
  woken := by
    rintro s t - ⟨-, hdone, hk⟩
    exact ⟨trivial, hdone, fun h => ⟨(hk h).1, by simp [machine]⟩⟩

theorem knows (hr : machine.Reachable Ok (start conns n) c) :
    ∀ t ∈ c.threads, Knows c.shared t := by
  refine outline.holds lock start_excludes (fun t ht => ?_) hr
  obtain ⟨-, rfl⟩ := List.mem_replicate.mp ht
  exact ⟨trivial, nofun, nofun⟩

-- ---------------------------------------------------------------------------
-- Closing
-- ---------------------------------------------------------------------------

@[simp] def Place.shutting : Place → Bool
  | .closeDrain | .closeNotify | .closeUnlock => true
  | _ => false

@[simp] def Place.drained : Place → Bool
  | .closeNotify | .closeUnlock => true
  | _ => false

/-- A `returnConnection` that found the pool open and has not pushed yet. -/
@[simp] def Place.pushing : Place → Bool
  | .retLock _ | .retPush _ => true
  | _ => false

structure StaysEmpty (c : Monitor Shared Thread) : Prop where
  empty : c.shared.closeDone = true → c.shared.conns = []
  null : ∀ t ∈ c.threads, t.late = true → ∀ conn, t.place ≠ .got (some conn)

/-- No `returnConnection` that found the pool open is waiting for the mutex when a `close`
acquires it. -/
def NoneReturning (c : Monitor Shared Thread) (t _ : Thread) : Prop :=
  t.place = .closeLock → ∀ u ∈ c.threads, ∀ conn, u.place ≠ .retLock conn

structure Shut (c : Monitor Shared Thread) : Prop where
  closed : c.shared.closeDone = true ∨ 0 < count Place.shutting c → c.shared.closed = true
  swept : c.shared.closeDone = true ∨ 0 < count Place.shutting c → count Place.pushing c = 0
  empty : c.shared.closeDone = true ∨ 0 < count Place.drained c → c.shared.conns = []

theorem drained_le (c : Monitor Shared Thread) :
    count Place.drained c ≤ count Place.shutting c := by
  refine List.countP_mono_left fun t _ h => ?_
  obtain ⟨place, late⟩ := t
  cases place <;> simp_all

theorem none_pushing (hx : Machine.Excludes (K := Unit) (fun s _ => s.locked)
    (fun t _ => t.place.inside) c) (hfree : c.shared.locked = false)
    (hnone : ∀ u ∈ c.threads, ∀ conn, u.place ≠ .retLock conn) : count Place.pushing c = 0 := by
  refine List.countP_eq_zero.mpr fun u hu h => ?_
  have hin : u.place.inside = false := by
    cases h : u.place.inside with
    | false => rfl
    | true => cases hfree.symm.trans (hx.flag (k := ()) hu h)
  have hret := hnone u hu
  obtain ⟨place, late⟩ := u
  cases place <;> simp_all

theorem Does.next (h : Does s t sig s' t') : Next s t.place sig s' t'.place := by
  obtain ⟨hn⟩ := h
  exact hn

theorem Next.closes (hn : Next s p sig s' p') (h : s'.closeDone = true) :
    s.closeDone = true ∨ p = .closeUnlock := by
  cases hn <;> simp_all

theorem Next.shuts (hn : Next s p sig s' p') (hp : p ≠ .closeLock) (h : p'.shutting = true) :
    p.shutting = true := by
  cases hn <;> simp_all

theorem Next.drains (hn : Next s p sig s' p') (h : p'.drained = true) :
    p.drained = true ∨ s'.conns = [] := by
  cases hn <;> simp_all

theorem Next.free (hn : Next s .closeLock sig s' p') : s.locked = false := by
  cases hn
  assumption

theorem Next.pushes (hn : Next s p sig s' p') (hclosed : s.closed = true)
    (hp : p.pushing = false) : p'.pushing = false := by
  cases hn <;> simp_all

theorem Next.leaves_empty (hn : Next s p sig s' p') (hp : p.pushing = false)
    (hempty : s.conns = []) : s'.conns = [] := by
  cases hn <;> simp_all

/-- A `close` that acquires the mutex finds no thread inside, and by assumption none waiting to
push. -/
theorem Shut.swept_before (hr : machine.Reachable NoneReturning (start conns n) c)
    (hok : NoneReturning c t t') (hs : machine.Step c t t' c') (h : Shut c)
    (hafter : c'.shared.closeDone = true ∨ 0 < count Place.shutting c') :
    c.shared.closed = true ∧ count Place.pushing c = 0 := by
  obtain ⟨_, _, _, -, hact, -⟩ := hs.inv
  have hn := hact.next
  by_cases hplace : t.place = .closeLock
  · have hknows := (knows hr t hs.mover).place
    rw [hplace] at hn hknows
    exact ⟨hknows, none_pushing (lock.excludes start_excludes hr) hn.free (hok hplace)⟩
  · have hbefore : c.shared.closeDone = true ∨ 0 < count Place.shutting c := by
      rcases hafter with hdone | hshut
      · exact (hn.closes hdone).imp_right fun h => count_pos hs.mover (by rw [h]; rfl)
      · exact .inr (count_before hs hshut rfl (hn.shuts hplace))
    exact ⟨h.closed hbefore, h.swept hbefore⟩

theorem Shut.step (hr : machine.Reachable NoneReturning (start conns n) c)
    (hok : NoneReturning c t t') (hs : machine.Step c t t' c') (h : Shut c) : Shut c' := by
  have hx := h.swept_before hr hok hs
  obtain ⟨_, _, _, -, hact, -⟩ := hs.inv
  have hn := hact.next
  have hmover (hnone : count Place.pushing c = 0) : t.place.pushing = false :=
    Bool.eq_false_iff.mpr (List.countP_eq_zero.mp hnone t hs.mover)
  constructor
  case closed =>
    intro hafter
    exact hn.closed_mono (hx hafter).1
  case swept =>
    intro hafter
    obtain ⟨hclosed, hnone⟩ := hx hafter
    exact count_zero hs hnone rfl (hn.pushes hclosed (hmover hnone))
  case empty =>
    intro hafter
    have hbefore (hd : c.shared.closeDone = true ∨ 0 < count Place.drained c) :
        c'.shared.conns = [] := by
      have hnone := h.swept (hd.imp_right fun hd => Nat.lt_of_lt_of_le hd (drained_le c))
      exact hn.leaves_empty (hmover hnone) (h.empty hd)
    rcases hafter with hdone | hdrained
    · rcases hn.closes hdone with hdone | hplace
      · exact hbefore (.inl hdone)
      · exact hbefore (.inr (count_pos hs.mover (by rw [hplace]; rfl)))
    · cases hd : t'.place.drained with
      | false =>
        exact hbefore (.inr (count_before hs hdrained rfl fun h => nomatch hd.symm.trans h))
      | true =>
        rcases hn.drains hd with hd | hempty
        · exact hbefore (.inr (count_pos hs.mover hd))
        · exact hempty

theorem shut (hr : machine.Reachable NoneReturning (start conns n) c) : Shut c := by
  refine hr.invariant ⟨?_, ?_, ?_⟩ fun _ _ _ _ hr hok hs h => h.step hr hok hs
  all_goals simp [count, start]

/-- A pool that is closed while no thread is about to push stays empty, and later calls get
null. -/
theorem closed_stays_empty (hr : machine.Reachable NoneReturning (start conns n) c) :
    StaysEmpty c where
  empty h := (shut hr).empty (.inl h)
  null t ht hlate conn := ((knows hr t ht).late hlate).2 conn |>.2

theorem noneReturning_of_others {ts us : List Thread}
    (h : ∀ u ∈ ts ++ us, ∀ conn, u.place ≠ .retLock conn) (s : Shared) (t t' : Thread) :
    NoneReturning ⟨s, ts ++ t :: us⟩ t t' := by
  intro hplace u hu conn
  rcases List.mem_append.mp hu with hu | hu
  · exact h u (List.mem_append_left us hu) conn
  · rcases List.mem_cons.mp hu with rfl | hu
    · simp [hplace]
    · exact h u (List.mem_append_right ts hu) conn

theorem closed_stays_empty_asked : StaysEmpty ⟨⟨[], true, false, true⟩,
    [⟨.got none, true⟩, ⟨.got none, false⟩, ⟨.out, false⟩]⟩ := by
  have hborrowed : machine.Reachable NoneReturning (start [0] 3)
      ⟨⟨[], false, false, false⟩, [⟨.out, false⟩, ⟨.out, false⟩, ⟨.out, false⟩]⟩ :=
    Machine.Reachable.start.path [] [_, _] (.step (.mk .getCall) (.step (.mk (.getLock rfl))
      (.step (.mk (.getFront rfl rfl)) (.step (.mk .getUnlock) (.step (.mk .getReturn) .refl)))))
      (noneReturning_of_others (by simp))
  have hwaits : machine.Reachable NoneReturning (start [0] 3)
      ⟨⟨[], false, false, false⟩, [⟨.out, false⟩, ⟨.getWait, false⟩, ⟨.out, false⟩]⟩ :=
    hborrowed.path [_] [_] (.step (.mk .getCall) (.step (.mk (.getLock rfl))
      (.step (.mk (.getEmpty rfl rfl)) (.step (.mk .getWait) .refl))))
      (noneReturning_of_others (by simp))
  have hdrained : machine.Reachable NoneReturning (start [0] 3)
      ⟨⟨[], true, true, false⟩, [⟨.out, false⟩, ⟨.getWait, false⟩, ⟨.closeNotify, false⟩]⟩ :=
    hwaits.path [_, _] [] (.step (.mk .closeCall) (.step (.mk .closeStore)
      (.step (.mk (.closeLock rfl)) (.step (.mk (.closeEmpty rfl)) .refl))))
      (noneReturning_of_others (by simp))
  have htold : machine.Reachable NoneReturning (start [0] 3)
      ⟨⟨[], true, true, false⟩, [⟨.out, false⟩, ⟨.getWake true, false⟩, ⟨.closeUnlock, false⟩]⟩ :=
    hdrained.notify [_, _] [] (.mk .closeNotify) (noneReturning_of_others (by simp) _ _ _)
  have hclosed : machine.Reachable NoneReturning (start [0] 3)
      ⟨⟨[], true, false, true⟩, [⟨.out, false⟩, ⟨.getWake true, false⟩, ⟨.out, false⟩]⟩ :=
    htold.path [_, _] [] (.step (.mk .closeUnlock) .refl) (noneReturning_of_others (by simp))
  have hnull : machine.Reachable NoneReturning (start [0] 3)
      ⟨⟨[], true, false, true⟩, [⟨.out, false⟩, ⟨.got none, false⟩, ⟨.out, false⟩]⟩ :=
    hclosed.path [_] [_] (.step (.mk (.getWake rfl)) (.step (.mk (.getClosed rfl))
      (.step (.mk .getUnlock) .refl))) (noneReturning_of_others (by simp))
  have hlate : machine.Reachable NoneReturning (start [0] 3)
      ⟨⟨[], true, false, true⟩, [⟨.got none, true⟩, ⟨.got none, false⟩, ⟨.out, false⟩]⟩ :=
    hnull.path [] [_, _] (.step (.mk (show Next _ .out .quiet _ (.retTest (some 0)) from .retCall))
      (.step (.mk (.retClosed rfl)) (.step (.mk .getCall) (.step (.mk (.getLock rfl))
      (.step (.mk (.getClosed rfl)) (.step (.mk .getUnlock) .refl))))))
      (noneReturning_of_others (by simp))
  exact closed_stays_empty hlate

/-- A `returnConnection` that found the pool open pushes after the `close`. -/
theorem late_return_refills : ∃ c,
    machine.Reachable Machine.Any (start [0] 2) c ∧ ¬ StaysEmpty c := by
  have hopen : machine.Reachable Machine.Any (start [0] 2)
      ⟨⟨[], false, false, false⟩, [⟨.retLock 0, false⟩, ⟨.out, false⟩]⟩ :=
    Machine.Reachable.start.path [] [_] (.step (.mk .getCall) (.step (.mk (.getLock rfl))
      (.step (.mk (.getFront rfl rfl)) (.step (.mk .getUnlock) (.step (.mk .getReturn)
      (.step (.mk .retCall) (.step (.mk (.retOpen rfl)) .refl))))))) fun _ _ _ => trivial
  have hdrained : machine.Reachable Machine.Any (start [0] 2)
      ⟨⟨[], true, true, false⟩, [⟨.retLock 0, false⟩, ⟨.closeNotify, false⟩]⟩ :=
    hopen.path [_] [] (.step (.mk .closeCall) (.step (.mk .closeStore)
      (.step (.mk (.closeLock rfl)) (.step (.mk (.closeEmpty rfl)) .refl)))) fun _ _ _ => trivial
  have hclosed : machine.Reachable Machine.Any (start [0] 2)
      ⟨⟨[], true, false, true⟩, [⟨.retLock 0, false⟩, ⟨.out, false⟩]⟩ :=
    (hdrained.notify [_] [] (.mk .closeNotify) trivial).path [_] []
      (.step (.mk .closeUnlock) .refl) fun _ _ _ => trivial
  refine ⟨_, hclosed.path [] [_] (.step (.mk (.retLock rfl)) (.step (.mk .retPush) .refl))
    fun _ _ _ => trivial, fun h => ?_⟩
  cases h.empty rfl

-- ---------------------------------------------------------------------------
-- Waking
-- ---------------------------------------------------------------------------

@[simp] def Place.waiting : Place → Bool
  | .getWait => true
  | _ => false

/-- Woken by a notification, and the predicate not tested since. -/
@[simp] def Place.notified : Place → Bool
  | .getWake true | .getCheck true => true
  | _ => false

@[simp] def Place.blocking : Place → Bool
  | .getBlock => true
  | _ => false

@[simp] def Place.notifying : Place → Bool
  | .retNotify _ => true
  | _ => false

@[simp] def Place.closing : Place → Bool
  | .closeLock | .closeDrain | .closeNotify => true
  | _ => false

@[simp] def Place.inReturn : Place → Bool
  | .retTest _ | .retLock _ | .retPush _ | .retNotify _ | .retUnlock _ => true
  | _ => false

@[simp] def Place.inClose : Place → Bool
  | .closeStore | .closeLock | .closeDrain | .closeNotify | .closeUnlock => true
  | _ => false

structure Counted (c : Monitor Shared Thread) : Prop where
  shut : c.shared.closed = true → 0 < count Place.waiting c + count Place.blocking c →
    0 < count Place.closing c
  idle : c.shared.closed = false → count Place.waiting c = 0 ∨
    c.shared.conns.length ≤ count Place.notified c + count Place.notifying c

/-- Only the thread that holds the mutex can be about to wait. -/
theorem blocking_zero (hx : Machine.Excludes (K := Unit) (fun s _ => s.locked)
    (fun t _ => t.place.inside) c) (hts : c.threads = ts ++ t :: us)
    (hin : t.place.inside = true) (ht : t.place.blocking = false) :
    count Place.blocking c = 0 := by
  have hblocking (u : Thread) (hu : u.place.blocking = true) : u.place.inside = true := by
    obtain ⟨place, late⟩ := u
    cases place <;> simp_all
  rw [count, hx.countP (k := ()) hts hin hblocking, ht, Bool.toNat_false]

/-- How a step from `p` to `p'` changes the counts. -/
@[simp] def Moved (c c' : Monitor Shared Thread) (p p' : Place) : Signal Unit → Prop
  | .quiet => ∀ q : Place → Bool, count q c' + (q p).toNat = count q c + (q p').toNat
  | .one _ =>
    (count Place.waiting c' = 0 ∧
      ∀ q : Place → Bool, count q c' + (q p).toNat = count q c + (q p').toNat) ∨
    ∀ q : Place → Bool, count q c' + (q p).toNat + (q .getWait).toNat =
      count q c + (q p').toNat + (q (.getWake true)).toNat
  | .all _ => count Place.waiting c' = 0

theorem waiting_zero (h : ∀ t ∈ c.threads, machine.parked t ≠ some ()) :
    count Place.waiting c = 0 := by
  refine List.countP_eq_zero.mpr fun t ht hwait => h t ht (parked_iff.mpr ?_)
  obtain ⟨place, late⟩ := t
  cases place <;> simp_all

theorem moved (hs : machine.Step c t t' c') :
    ∃ sig, Next c.shared t.place sig c'.shared t'.place ∧ Moved c c' t.place t'.place sig := by
  obtain ⟨ts, us, sig, hts, hact, hw⟩ := hs.inv
  have hmove (q : Place → Bool) := Machine.countP_move hts (q ·.place) t'
  refine ⟨sig, by obtain ⟨hn⟩ := hact; exact hn, ?_⟩
  cases sig with
  | quiet =>
    intro q
    rw [count, hw.quiet_eq]
    exact hmove q
  | one cv =>
    rcases hw.one_cases with ⟨heq, hnone⟩ | ⟨u, hu, hcount⟩
    · refine .inl ⟨waiting_zero (heq ▸ hnone), fun q => ?_⟩
      rw [count, heq]
      exact hmove q
    · refine .inr fun q => ?_
      have hcount := hcount (q ·.place)
      have hmove := hmove q
      rw [parked_iff.mp hu] at hcount
      simp only [count, machine] at *
      omega
  | all cv =>
    refine waiting_zero (hw.all_parked fun u hu => ?_)
    simp [machine]

theorem Next.seals (hn : Next s p sig s' p') (h : s'.closed = true) :
    s.closed = true ∨ p.closing.toNat < p'.closing.toNat := by
  cases hn <;> simp_all

theorem Next.closing_le (hn : Next s p sig s' p') (hp : p ≠ .closeNotify) :
    p.closing.toNat ≤ p'.closing.toNat := by
  cases hn <;> simp_all

theorem Next.waits_open (hn : Next s p sig s' p') (hclosed : s.closed = true) :
    p'.waiting.toNat + p'.blocking.toNat ≤ p.waiting.toNat + p.blocking.toNat := by
  cases hn <;> simp_all

theorem Next.waits_empty (hn : Next s p sig s' p') (hp : p.Knows s) (h : p'.waiting = true) :
    s'.conns = [] := by
  cases hn <;> simp_all

/-- Each added connection is notified of, and a notified thread that takes none has found the
queue empty. -/
theorem Next.covers (hn : Next s p .quiet s' p') (hopen : s.closed = false) :
    s'.conns = [] ∨ s'.conns.length + p.notified.toNat + p.notifying.toNat ≤
      s.conns.length + p'.notified.toNat + p'.notifying.toNat := by
  cases hn <;> simp_all
  all_goals split <;> simp_all

theorem Next.notifies (hn : Next s p (.one cv) s' p') :
    ∃ conn, p = .retNotify conn ∧ s' = s ∧ p' = .retUnlock conn := by
  cases hn
  exact ⟨_, rfl, rfl, rfl⟩

theorem Next.notifies_all (hn : Next s .closeNotify sig s' p') :
    sig = .all () ∧ p' = .closeUnlock := by
  cases hn
  exact ⟨rfl, rfl⟩

theorem Counted.shut_after (hr : machine.Reachable Ok (start conns n) c)
    (hs : machine.Step c t t' c') (h : Counted c) (hclosed' : c'.shared.closed = true)
    (hpos : 0 < count Place.waiting c' + count Place.blocking c') :
    0 < count Place.closing c' := by
  have hblocking := count_step hs Place.blocking rfl
  have hclosing := count_step hs Place.closing rfl
  have hx := lock.excludes start_excludes hr
  obtain ⟨ts, us, -, hts, -, -⟩ := hs.inv
  obtain ⟨sig, hn, hm⟩ := moved hs
  rcases hn.seals hclosed' with hclosed | hlt
  · by_cases hplace : t.place = .closeNotify
    · -- everybody is notified, and the thread that holds the mutex is not about to wait
      have hnone := blocking_zero hx hts (by rw [hplace]; rfl) (by rw [hplace]; rfl)
      rw [hplace] at hn hblocking
      obtain ⟨rfl, hplace'⟩ := hn.notifies_all
      have hwaiting : count Place.waiting c' = 0 := hm
      simp only [hplace', Place.blocking, Bool.toNat_false] at hblocking
      omega
    · have hle : count Place.waiting c' + _ ≤ count Place.waiting c + _ :=
        hs.countP_le fun _ _ h => by cases h
      have hwaits := hn.waits_open hclosed
      have hkept := hn.closing_le hplace
      have hbefore := h.shut hclosed (by omega)
      omega
  · omega

theorem Counted.idle_after (hr : machine.Reachable Ok (start conns n) c)
    (hs : machine.Step c t t' c') (h : Counted c) (hopen' : c'.shared.closed = false) :
    count Place.waiting c' = 0 ∨
      c'.shared.conns.length ≤ count Place.notified c' + count Place.notifying c' := by
  have hknows := (knows hr t hs.mover).place
  obtain ⟨sig, hn, hm⟩ := moved hs
  have hopen : c.shared.closed = false :=
    Bool.eq_false_iff.mpr fun h => nomatch hopen'.symm.trans (hn.closed_mono h)
  cases sig with
  | all => exact .inl hm
  | one =>
    obtain ⟨conn, hplace, hsame, hplace'⟩ := hn.notifies
    simp only [hplace, hplace'] at hm
    rcases hm with ⟨hnone, -⟩ | hm
    · exact .inl hnone
    · have hwaiting := hm Place.waiting
      have hnotified := hm Place.notified
      have hnotifying := hm Place.notifying
      simp only [Place.waiting, Place.notified, Place.notifying, Bool.toNat_true,
        Bool.toNat_false] at hwaiting hnotified hnotifying
      have hle := (h.idle hopen).resolve_left (by omega)
      rw [hsame]
      omega
  | quiet =>
    have hwaiting := hm Place.waiting
    cases hwait : t'.place.waiting with
    | true =>
      rw [hn.waits_empty hknows hwait]
      exact .inr (Nat.zero_le _)
    | false =>
      rw [hwait, Bool.toNat_false] at hwaiting
      refine (h.idle hopen).imp (fun hnone => by omega) fun hle => ?_
      have hnotified := hm Place.notified
      have hnotifying := hm Place.notifying
      rcases hn.covers hopen with hempty | hcovers
      · rw [hempty]
        exact Nat.zero_le _
      · omega

theorem Counted.step (hr : machine.Reachable Ok (start conns n) c)
    (hs : machine.Step c t t' c') (h : Counted c) : Counted c' where
  shut := h.shut_after hr hs
  idle := h.idle_after hr hs

theorem counted (hr : machine.Reachable Ok (start conns n) c) : Counted c := by
  refine hr.invariant ⟨?_, ?_⟩ fun _ _ _ _ hr _ hs h => h.step hr hs
  · exact fun h => nomatch h
  · exact fun _ => .inl (count_start _ rfl)

/-- While no call returns a connection or closes the pool, a thread that waits without having
been notified waits at an open pool, with no more connections in it than notified threads. -/
theorem no_lost_wakeup (hr : machine.Reachable Machine.Any (start conns n) c)
    (hquiet : ∀ t ∈ c.threads, t.place.inReturn = false ∧ t.place.inClose = false)
    (hwait : ∃ t ∈ c.threads, t.place = .getWait) :
    c.shared.closed = false ∧ c.shared.conns.length ≤ count Place.notified c := by
  obtain ⟨t, ht, hplace⟩ := hwait
  have hpos : 0 < count Place.waiting c := count_pos ht (by rw [hplace]; rfl)
  have hclosing : count Place.closing c = 0 := by
    refine List.countP_eq_zero.mpr fun u hu h => ?_
    have hnone := (hquiet u hu).2
    obtain ⟨place, late⟩ := u
    cases place <;> simp_all
  have hnotifying : count Place.notifying c = 0 := by
    refine List.countP_eq_zero.mpr fun u hu h => ?_
    have hnone := (hquiet u hu).1
    obtain ⟨place, late⟩ := u
    cases place <;> simp_all
  obtain ⟨shut, idle⟩ := counted hr
  have hopen : c.shared.closed = false := by
    cases hclosed : c.shared.closed with
    | false => rfl
    | true =>
      have := shut hclosed (by omega)
      omega
  exact ⟨hopen, by rcases idle hopen with h | h <;> omega⟩

theorem no_lost_wakeup_waiting : false = false ∧ 0 ≤ count Place.notified
    ⟨⟨[], false, false, false⟩, [⟨.out, false⟩, ⟨.getWait, false⟩]⟩ := by
  have htaken : machine.Reachable Machine.Any (start [0] 2)
      ⟨⟨[], false, false, false⟩, [⟨.out, false⟩, ⟨.out, false⟩]⟩ :=
    Machine.Reachable.start.path [] [_] (.step (.mk .getCall) (.step (.mk (.getLock rfl))
      (.step (.mk (.getFront rfl rfl)) (.step (.mk .getUnlock) (.step (.mk .getReturn) .refl)))))
      fun _ _ _ => trivial
  refine no_lost_wakeup (htaken.path [_] [] (.step (.mk .getCall) (.step (.mk (.getLock rfl))
    (.step (.mk (.getEmpty rfl rfl)) (.step (.mk .getWait) .refl)))) fun _ _ _ => trivial) ?_ ?_
  · simp
  · exact ⟨_, .tail _ (.head _), rfl⟩

end GateServer.RedisPool
