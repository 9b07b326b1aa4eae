import GateServer.Const
import GateServer.Interact.Monitor

/-!
# The log queue, step by step

Any number of threads push, the thread that `run` starts pops and logs, and `stop` logs
what is left after it has joined that thread. Both consumers release the mutex around
every call of the logger, so a message can be neither queued nor logged.
-/

namespace GateServer.LogQueue

open Interact

abbrev LogMessage := LogLevel × String

/-- `log_thread`: not started, running, ended or joined. -/
inductive LogThread
  | unborn
  | runs
  | ended
  | joined
  deriving DecidableEq

/-- `entered`, `logged` and `due` are ghost fields: what was pushed, what was logged, and what
had been pushed when `stop` was called. -/
structure Shared where
  queue : List LogMessage
  running : Bool
  locked : Bool
  logThread : LogThread
  entered : List LogMessage
  logged : List LogMessage
  due : List LogMessage

/-- One thread calls `run` and later `stop`, one is the log thread, and the others push. -/
inductive Place
  | runStore
  | runSpawn
  | started
  | stopStore
  | stopLock
  | stopNotify
  | stopUnlock
  | stopJoin
  | drainLock
  | drainTest
  | drainUnlock (message : LogMessage)
  | drainLog (message : LogMessage)
  | drainEnd
  | stopped
  | unborn
  | loopTest
  | bodyLock
  | check
  | block
  | wait
  | wake
  | innerTest
  | innerUnlock (message : LogMessage)
  | innerLog (message : LogMessage)
  | innerRelock
  | bodyUnlock
  | ended
  | out
  | pushLock (message : LogMessage)
  | pushQueue (message : LogMessage)
  | pushNotify
  | pushUnlock

/-- `pop` is called under the mutex, after the test that the queue is not empty. `stop` finds
the thread joinable because `run` has returned. -/
inductive Next : Shared → Place → Signal Unit → Shared → Place → Prop
  | runStore : Next s .runStore .quiet { s with running := true } .runSpawn
  | runSpawn : s.logThread = .unborn →
      Next s .runSpawn .quiet { s with logThread := .runs } .started
  | stopCall : Next s .started .quiet { s with due := s.entered } .stopStore
  | stopStore : Next s .stopStore .quiet { s with running := false } .stopLock
  | stopLock : s.locked = false → Next s .stopLock .quiet { s with locked := true } .stopNotify
  | stopNotify : Next s .stopNotify (.all ()) s .stopUnlock
  | stopUnlock : Next s .stopUnlock .quiet { s with locked := false } .stopJoin
  | stopJoin : s.logThread = .ended →
      Next s .stopJoin .quiet { s with logThread := .joined } .drainLock
  | drainLock : s.locked = false → Next s .drainLock .quiet { s with locked := true } .drainTest
  | drainPop : s.queue = message :: rest →
      Next s .drainTest .quiet { s with queue := rest } (.drainUnlock message)
  | drainUnlock :
      Next s (.drainUnlock message) .quiet { s with locked := false } (.drainLog message)
  | drainLog :
      Next s (.drainLog message) .quiet { s with logged := s.logged ++ [message] } .drainLock
  | drainEmpty : s.queue = [] → Next s .drainTest .quiet s .drainEnd
  | drainEnd : Next s .drainEnd .quiet { s with locked := false } .stopped
  | born : s.logThread = .runs → Next s .unborn .quiet s .loopTest
  | loopRuns : s.running = true → Next s .loopTest .quiet s .bodyLock
  | loopEnds : s.running = false → Next s .loopTest .quiet { s with logThread := .ended } .ended
  | bodyLock : s.locked = false → Next s .bodyLock .quiet { s with locked := true } .check
  | ready : s.queue ≠ [] ∨ s.running = false → Next s .check .quiet s .innerTest
  | idle : s.queue = [] → s.running = true → Next s .check .quiet s .block
  | wait : Next s .block .quiet { s with locked := false } .wait
  | spurious : Next s .wait .quiet s .wake
  | wake : s.locked = false → Next s .wake .quiet { s with locked := true } .check
  | innerPop : s.queue = message :: rest → s.running = true →
      Next s .innerTest .quiet { s with queue := rest } (.innerUnlock message)
  | innerUnlock :
      Next s (.innerUnlock message) .quiet { s with locked := false } (.innerLog message)
  | innerLog :
      Next s (.innerLog message) .quiet { s with logged := s.logged ++ [message] } .innerRelock
  | innerRelock : s.locked = false →
      Next s .innerRelock .quiet { s with locked := true } .innerTest
  | innerLeave : s.queue = [] ∨ s.running = false → Next s .innerTest .quiet s .bodyUnlock
  | bodyUnlock : Next s .bodyUnlock .quiet { s with locked := false } .loopTest
  | pushCall : Next s .out .quiet s (.pushLock message)
  | pushLock : s.locked = false →
      Next s (.pushLock message) .quiet { s with locked := true } (.pushQueue message)
  | pushQueue : Next s (.pushQueue message) .quiet
      { s with queue := s.queue ++ [message], entered := s.entered ++ [message] } .pushNotify
  | pushNotify : Next s .pushNotify (.one ()) s .pushUnlock
  | pushUnlock : Next s .pushUnlock .quiet { s with locked := false } .out

def machine : Machine Shared Place Unit where
  next := Next
  parked p := match p with
    | .wait => some ()
    | _ => none
  woken _ := .wake

def start (n : Nat) : Monitor Shared Place :=
  ⟨⟨[], false, false, .unborn, [], [], []⟩, .runStore :: .unborn :: List.replicate n .out⟩

-- ---------------------------------------------------------------------------
-- The mutex, and two roles that one thread has at a time
-- ---------------------------------------------------------------------------

/-- The log thread may pop until it ends, and `stop` after its join. -/
inductive Part
  | mutex
  | popping
  | main

@[simp] def Shared.held (s : Shared) : Part → Bool
  | .mutex => s.locked
  | .popping => decide (s.logThread ≠ .ended)
  | .main => true

@[simp] def Place.locks : Place → Bool
  | .stopNotify | .stopUnlock | .drainTest | .drainUnlock _ | .drainEnd | .check | .block
  | .innerTest | .innerUnlock _ | .bodyUnlock | .pushQueue _ | .pushNotify | .pushUnlock => true
  | _ => false

@[simp] def Place.pops : Place → Bool
  | .drainLock | .drainTest | .drainUnlock _ | .drainLog _ | .drainEnd | .stopped | .unborn
  | .loopTest | .bodyLock | .check | .block | .wait | .wake | .innerTest | .innerUnlock _
  | .innerLog _ | .innerRelock | .bodyUnlock => true
  | _ => false

@[simp] def Place.isMain : Place → Bool
  | .runStore | .runSpawn | .started | .stopStore | .stopLock | .stopNotify | .stopUnlock
  | .stopJoin | .drainLock | .drainTest | .drainUnlock _ | .drainLog _ | .drainEnd
  | .stopped => true
  | _ => false

@[simp] def Place.inside (p : Place) : Part → Bool
  | .mutex => p.locks
  | .popping => p.pops
  | .main => p.isMain

theorem parked_iff {p : Place} {cv : Unit} : machine.parked p = some cv ↔ p = .wait := by
  cases p <;> simp [machine]

theorem parked_isSome {p : Place} : (machine.parked p).isSome ↔ p = .wait := by
  rw [Option.isSome_iff_exists]
  simp [parked_iff]

theorem lock : machine.Lock Shared.held Place.inside where
  balance := by
    rintro s p sig s' p' hn k hflag
    cases hn <;> cases k <;> simp_all
  woken := by
    intro p hp
    funext k
    cases k <;> simp [parked_isSome.mp hp, machine]

theorem start_excludes : Machine.Excludes Shared.held Place.inside (start n) := by
  intro k
  cases k <;> simp [start, List.countP_replicate]

structure Begins (n : Nat) (c : Monitor Shared Place) : Prop where
  shared : c.shared = (start n).shared
  threads : c.threads.Perm (start n).threads

theorem start_begins : Begins n (start n) := ⟨rfl, .rfl⟩

theorem Begins.excludes (h : Begins n c) : Machine.Excludes Shared.held Place.inside c := by
  intro k
  rw [h.shared, h.threads.countP_eq]
  exact start_excludes k

-- ---------------------------------------------------------------------------
-- Where the messages are
-- ---------------------------------------------------------------------------

/-- What was popped and is not logged yet. -/
@[simp] def Place.carried : Place → List LogMessage
  | .drainUnlock message | .drainLog message | .innerUnlock message | .innerLog message => [message]
  | _ => []

@[simp] def Place.drained : Place → Bool
  | .drainEnd | .stopped => true
  | _ => false

/-- A thread that may pop accounts for every message that was pushed, and after the log thread
has ended the queue does. -/
structure Knows (s : Shared) (p : Place) : Prop where
  alive : p.pops = true → s.logThread ≠ .ended
  pops : p.pops = true → s.entered = s.logged ++ p.carried ++ s.queue
  ended : s.logThread = .ended → s.entered = s.logged ++ s.queue
  due : s.due <+: s.entered
  drained : p.drained = true → s.due <+: s.logged

theorem Next.due (hn : Next s p sig s' p') (h : s.due <+: s.entered) : s'.due <+: s'.entered := by
  cases hn with
  | stopCall => exact List.prefix_rfl
  | pushQueue => exact h.trans (List.prefix_append ..)
  | _ => exact h

theorem Next.due_outside (hn : Next s p sig s' p') (hp : p.isMain = false) : s'.due = s.due := by
  cases hn <;> first | rfl | cases hp

theorem Next.queue_outside (hn : Next s p sig s' p') (hp : p.pops = false) :
    s'.logged = s.logged ∧
      ∃ new, s'.entered = s.entered ++ new ∧ s'.queue = s.queue ++ new := by
  have hsame (l : List LogMessage) : l = l ++ [] := (List.append_nil l).symm
  cases hn with
  | @pushQueue _ message => exact ⟨rfl, [message], rfl, rfl⟩
  | _ => first | exact ⟨rfl, [], hsame _, hsame _⟩ | cases hp

theorem Next.alive_outside (hn : Next s p sig s' p') (hp : p.pops = false)
    (h : s.logThread ≠ .ended) : s'.logThread ≠ .ended := by
  cases hn with
  | runSpawn => exact nofun
  | stopJoin => exact nofun
  | loopEnds => cases hp
  | _ => exact h

theorem Knows.own (hn : Next s p sig s' p') (h : Knows s p) : Knows s' p' := by
  obtain ⟨halive, hpops, hended, hdue, hdrained⟩ := h
  refine ⟨?_, ?_, ?_, hn.due hdue, ?_⟩
  · cases hn <;> simp_all
  · cases hn <;> simp_all
  · cases hn <;> simp_all
  · cases hn <;> simp_all

theorem Knows.others (hn : Next s p sig s' p') (hp : Knows s p) (hu : Knows s u)
    (hapart : ∀ k, u.inside k = true → p.inside k = false ∧ p'.inside k = false) : Knows s' u where
  alive h := hn.alive_outside (hapart .popping h).1 (hu.alive h)
  pops h := by
    obtain ⟨hlogged, new, hentered, hqueue⟩ := hn.queue_outside (hapart .popping h).1
    rw [hlogged, hentered, hqueue, hu.pops h]
    simp
  ended := (hp.own hn).ended
  due := (hp.own hn).due
  drained h := by
    have hpops : u.pops = true := by cases u <;> first | rfl | cases h
    have hmain : u.isMain = true := by cases u <;> first | rfl | cases h
    rw [hn.due_outside (hapart .main hmain).1, (hn.queue_outside (hapart .popping hpops).1).1]
    exact hu.drained h

theorem outline : machine.Outline Ok Place.inside Knows where
  own _ hn h := h.own hn
  others hn hp hu hapart := hp.others hn hu hapart
  woken := by
    rintro s p hp ⟨halive, hpops, hended, hdue, -⟩
    rw [parked_isSome.mp hp] at halive hpops
    exact ⟨halive, hpops, hended, hdue, nofun⟩

theorem knows (h0 : Begins n c₀) (hr : machine.Reachable Ok c₀ c) :
    ∀ p ∈ c.threads, Knows c.shared p := by
  refine outline.holds lock h0.excludes (fun p hp => ?_) hr
  rw [h0.threads.mem_iff] at hp
  rw [h0.shared]
  have hpops : p.carried = [] ∧ p.drained = false := by
    rcases hp with _ | ⟨_, _ | ⟨_, hp⟩⟩
    · exact ⟨rfl, rfl⟩
    · exact ⟨rfl, rfl⟩
    · obtain ⟨-, rfl⟩ := List.mem_replicate.mp hp
      exact ⟨rfl, rfl⟩
  exact {
    alive := nofun
    pops := fun _ => by rw [hpops.1]; rfl
    ended := nofun
    due := List.prefix_rfl
    drained := fun h => by cases hpops.2.symm.trans h }

structure Delivers (c : Monitor Shared Place) : Prop where
  order : c.shared.logged <+: c.shared.entered
  once : c.shared.entered.Nodup → c.shared.logged.Nodup
  complete : .stopped ∈ c.threads → c.shared.due <+: c.shared.logged

/-- Every message that was pushed is logged, carried by the consumer, or queued. -/
theorem account (h0 : Begins n c₀) (hr : machine.Reachable Ok c₀ c) :
    ∃ carried, c.shared.entered = c.shared.logged ++ carried ++ c.shared.queue ∧
      (carried ≠ [] → ∃ p ∈ c.threads, p.carried = carried) := by
  have hx := lock.excludes h0.excludes hr
  by_cases hended : c.shared.logThread = .ended
  · have hmain : 0 < c.threads.countP (·.inside .main) := hx .main ▸ Nat.one_pos
    obtain ⟨p, hp, -⟩ := List.countP_pos_iff.mp hmain
    exact ⟨[], by simpa using (knows h0 hr p hp).ended hended, absurd rfl⟩
  · have hpops : 0 < c.threads.countP (·.inside .popping) := by
      rw [hx .popping]
      simp [hended]
    obtain ⟨p, hp, hpop⟩ := List.countP_pos_iff.mp hpops
    exact ⟨p.carried, (knows h0 hr p hp).pops hpop, fun _ => ⟨p, hp, rfl⟩⟩

/-- The log is a prefix of what was pushed, and contains everything due when `stop` is done. -/
theorem delivers (hr : machine.Reachable Machine.Any (start n) c) : Delivers c := by
  obtain ⟨carried, haccount, -⟩ := account start_begins hr
  have horder : c.shared.logged <+: c.shared.entered := by
    rw [haccount, List.append_assoc]
    exact List.prefix_append ..
  exact {
    order := horder
    once := fun h => h.sublist horder.sublist
    complete := fun h => (knows start_begins hr _ h).drained rfl }

theorem delivers_drained : Delivers ⟨⟨[], false, false, .joined, [(.info, "")], [(.info, "")],
    [(.info, "")]⟩, [.stopped, .ended, .out]⟩ := by
  have hqueued : machine.Reachable Machine.Any (start 1)
      ⟨⟨[(.info, "")], false, true, .unborn, [(.info, "")], [], []⟩,
        [.runStore, .unborn, .pushNotify]⟩ :=
    Machine.Reachable.start.path [_, _] [] (.step .pushCall (.step (.pushLock rfl)
      (.step .pushQueue .refl))) fun _ _ _ => trivial
  have hpushed := (hqueued.notify_nobody [_, _] [] .pushNotify trivial (by simp [parked_iff])).path
    [_, _] [] (.step .pushUnlock .refl) fun _ _ _ => trivial
  have hstops := hpushed.path [] [_, _] (.step .runStore (.step (.runSpawn rfl) (.step .stopCall
    (.step .stopStore (.step (.stopLock rfl) .refl))))) fun _ _ _ => trivial
  have hjoins := (hstops.notify [] [_, _] .stopNotify trivial).path [] [_, _]
    (.step .stopUnlock .refl) fun _ _ _ => trivial
  have hended := hjoins.path [_] [_] (.step (.born rfl) (.step (.loopEnds rfl) .refl))
    fun _ _ _ => trivial
  exact delivers (hended.path [] [_, _] (.step (.stopJoin rfl) (.step (.drainLock rfl)
    (.step (.drainPop rfl) (.step .drainUnlock (.step .drainLog (.step (.drainLock rfl)
    (.step (.drainEmpty rfl) (.step .drainEnd .refl)))))))) fun _ _ _ => trivial)

end GateServer.LogQueue
