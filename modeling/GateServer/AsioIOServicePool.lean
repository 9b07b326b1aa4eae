import GateServer.Interact.Program
import GateServer.Interact.RoundRobin

/-!
# The pool of io_contexts

Every io_context is run by a thread of its own and kept running by a work guard.
`GetIOService` gives the io_contexts out round robin. `Stop` stops them and joins their
threads; the destructor calls it again.
-/

namespace GateServer

open Interact Interact.RoundRobin

structure IOService where
  stopped : Bool := false
  deriving DecidableEq, Repr

def IOService.stop (service : IOService) : IOService := { service with stopped := true }

/-- A thread in the `run` of one io_context, with the number of times it was joined. -/
structure PoolThread where
  service : Nat
  joinable : Bool := true
  joins : Nat := 0
  deriving DecidableEq, Repr

inductive Halt
  | undef (why : Fault)
  | threw (what : String)
  | blocked
  deriving DecidableEq, Repr

/-- `run` returns when its io_context is stopped, and `join` when `run` has. -/
def PoolThread.join (services : List IOService) (t : PoolThread) : Except Halt PoolThread :=
  if !t.joinable then .error (.threw "Invalid argument")
  else if services[t.service]?.any IOService.stopped then
    .ok { t with joinable := false, joins := t.joins + 1 }
  else .error .blocked

/-- A guard is the index of the io_context that it keeps running, or `none` after `reset`. -/
structure AsioIOServicePool where
  ioServices : List IOService
  works : List (Option Nat)
  threads : List PoolThread
  nextIOService : Nat
  deriving DecidableEq, Repr

namespace AsioIOServicePool

def ofSize (size : Nat) : AsioIOServicePool where
  ioServices := List.replicate size {}
  works := (List.range size).map some
  threads := (List.range size).map fun i => { service := i }
  nextIOService := 0

def getIOService (pool : AsioIOServicePool) : Nat × AsioIOServicePool :=
  let service := pool.nextIOService
  let next := pool.nextIOService + 1
  (service, { pool with nextIOService := if next = pool.ioServices.length then 0 else next })

/-- The loop over the guards: each is asked for its io_context and then reset. -/
def stopWorks (services : List IOService) :
    List (Option Nat) → Except Halt (List IOService × List (Option Nat))
  | [] => .ok (services, [])
  | none :: _ => .error (.undef .nullPointer)
  | some service :: works => do
    let (services, works) ← stopWorks (services.modify service IOService.stop) works
    return (services, none :: works)

def stop (pool : AsioIOServicePool) : Except Halt AsioIOServicePool := do
  let (ioServices, works) ← stopWorks pool.ioServices pool.works
  let threads ← pool.threads.mapM (PoolThread.join ioServices)
  return { pool with ioServices, works, threads }

inductive Call
  | getIOService
  | stop
  deriving DecidableEq, Repr

def call (pool : AsioIOServicePool) : Call → Except Halt AsioIOServicePool
  | .getIOService => .ok pool.getIOService.2
  | .stop => pool.stop

/-- A sequence of calls, then the destructor. -/
def run (pool : AsioIOServicePool) : List Call → Except Halt AsioIOServicePool
  | [] => pool.stop
  | c :: calls => do (← pool.call c).run calls

def given (pool : AsioIOServicePool) : Nat → List Nat
  | 0 => []
  | m + 1 => pool.getIOService.1 :: pool.getIOService.2.given m

-- ---------------------------------------------------------------------------
-- Giving out
-- ---------------------------------------------------------------------------

def fresh (n next : Nat) : AsioIOServicePool := { ofSize n with nextIOService := next }

theorem getIOService_fresh (h : next < n) :
    (fresh n next).getIOService = (next, fresh n ((next + 1) % n)) := by
  unfold getIOService fresh ofSize
  simp only [List.length_replicate]
  split
  next hwrap => rw [hwrap, Nat.mod_self]
  next hwrap => rw [Nat.mod_eq_of_lt (by omega)]

theorem given_fresh (h : next < n) (m : Nat) : (fresh n next).given m = turns n next m := by
  induction m generalizing next with
  | zero => rfl
  | succ m ih =>
    have hnext : (next + 1) % n < n := Nat.mod_lt _ (Nat.zero_lt_of_lt h)
    rw [given, getIOService_fresh h, ih hnext, turns_mod, turns_succ, Nat.mod_eq_of_lt h]

/-- Every index is in range, and in any window of the calls no io_context was given out two
times more often than another. -/
theorem given_balanced (n m : Nat) (hn : 1 ≤ n) :
    (∀ i ∈ (ofSize n).given m, i < n) ∧
    ∀ window, window <:+: (ofSize n).given m →
      ∀ i < n, ∀ j < n, window.count i ≤ window.count j + 1 := by
  have hgiven : (ofSize n).given m = turns n 0 m := given_fresh hn m
  rw [hgiven]
  refine ⟨fun i hi => lt_of_mem_turns hn hi, ?_⟩
  intro window hwindow i hi j hj
  exact balanced hwindow hi hj

theorem given_balanced_seven : [1, 2, 0, 1, 2].count 1 ≤ [1, 2, 0, 1, 2].count 0 + 1 :=
  (given_balanced 3 7 (by decide)).2 [1, 2, 0, 1, 2] ⟨[0], [0], by decide⟩ 1 (by decide) 0
    (by decide)

-- ---------------------------------------------------------------------------
-- Stopping
-- ---------------------------------------------------------------------------

def halted (n next : Nat) : AsioIOServicePool where
  ioServices := List.replicate n { stopped := true }
  works := List.replicate n none
  threads := (List.range n).map fun i => { service := i, joinable := false, joins := 1 }
  nextIOService := next

theorem stopWorks_guards (services : List IOService) (guards : List Nat) :
    stopWorks services (guards.map some) =
      .ok (guards.foldl (fun services i => services.modify i IOService.stop) services,
        List.replicate guards.length none) := by
  induction guards generalizing services with
  | nil => rfl
  | cons i guards ih =>
    rw [List.map_cons, stopWorks, ih]
    rfl

theorem getElem?_stopped (services : List IOService) (guards : List Nat) (j : Nat) :
    (guards.foldl (fun services i => services.modify i IOService.stop) services)[j]? =
      services[j]?.map fun service => if j ∈ guards then service.stop else service := by
  induction guards generalizing services with
  | nil => simp
  | cons i guards ih =>
    rw [List.foldl_cons, ih, List.getElem?_modify, Option.map_eq_map, Option.map_map]
    by_cases hj : i = j
    · by_cases hmem : j ∈ guards <;> simp [hj, hmem, Function.comp_def, IOService.stop]
    · simp [hj, Ne.symm hj, Function.comp_def]

theorem stopWorks_fresh (n : Nat) :
    stopWorks (List.replicate n {}) ((List.range n).map some) =
      .ok (List.replicate n { stopped := true }, List.replicate n none) := by
  rw [stopWorks_guards, List.length_range]
  congr 2
  apply List.ext_getElem?
  intro j
  rw [getElem?_stopped, List.getElem?_replicate, List.getElem?_replicate]
  by_cases hj : j < n <;> simp [hj, IOService.stop]

theorem join_all {services : List IOService} {ids : List Nat}
    (h : ∀ i ∈ ids, services[i]? = some { stopped := true }) :
    (ids.map fun i => ({ service := i } : PoolThread)).mapM (PoolThread.join services) =
      .ok (ids.map fun i => { service := i, joinable := false, joins := 1 }) := by
  induction ids with
  | nil => rfl
  | cons i ids ih =>
    have hfirst : PoolThread.join services { service := i } =
        .ok { service := i, joinable := false, joins := 1 } := by
      simp [PoolThread.join, h i List.mem_cons_self]
    rw [List.map_cons, List.mapM_cons, hfirst, ih fun j hj => h j (List.mem_cons_of_mem i hj)]
    rfl

theorem stop_fresh (n next : Nat) : (fresh n next).stop = .ok (halted n next) := by
  have hstopped : ∀ i ∈ List.range n,
      (List.replicate n ({ stopped := true } : IOService))[i]? = some { stopped := true } := by
    intro i hi
    rw [List.getElem?_replicate, if_pos (List.mem_range.mp hi)]
  have hjoin := join_all hstopped
  unfold stop fresh ofSize
  simp only [stopWorks_fresh, bind, Except.bind, hjoin]
  rfl

theorem stop_halted (hn : 1 ≤ n) (next : Nat) :
    (halted n next).stop = .error (.undef .nullPointer) := by
  cases n with
  | zero => exact absurd hn (by decide)
  | succ n => rfl

theorem run_halted (hn : 1 ≤ n) (next : Nat) (calls : List Call) :
    (halted n next).run calls = .error (.undef .nullPointer) := by
  induction calls generalizing next with
  | nil => exact stop_halted hn next
  | cons c calls ih =>
    cases c with
    | getIOService => exact ih _
    | stop =>
      rw [run, call, stop_halted hn]
      rfl

/-- All io_contexts are stopped, and each thread was joined exactly once. -/
def ShutDown (n : Nat) : Except Halt AsioIOServicePool → Prop
  | .error _ => False
  | .ok pool => pool.ioServices.length = n ∧ (∀ service ∈ pool.ioServices, service.stopped) ∧
      pool.threads.length = n ∧ ∀ t ∈ pool.threads, t.joins = 1

theorem shutDown_halted (n next : Nat) : ShutDown n (.ok (halted n next)) := by
  refine ⟨List.length_replicate, ?_, by simp [halted], ?_⟩
  · intro service hservice
    rw [List.eq_of_mem_replicate hservice]
  · intro t ht
    obtain ⟨i, -, rfl⟩ := List.mem_map.mp ht
    rfl

/-- Until the first `Stop` the pool is as it was made, and any call after it fails. -/
theorem run_fresh (hn : 1 ≤ n) (next : Nat) (calls : List Call) :
    (Call.stop ∈ calls ∧ (fresh n next).run calls = .error (.undef .nullPointer)) ∨
      Call.stop ∉ calls ∧ ∃ next', (fresh n next).run calls = .ok (halted n next') := by
  induction calls generalizing next with
  | nil => exact .inr ⟨List.not_mem_nil, next, stop_fresh n next⟩
  | cons c calls ih =>
    cases c with
    | stop =>
      refine .inl ⟨List.mem_cons_self, ?_⟩
      rw [run, call, stop_fresh]
      exact run_halted hn next calls
    | getIOService =>
      have hnot : Call.stop ≠ Call.getIOService := by decide
      rw [List.mem_cons, or_iff_right hnot]
      exact ih _

/-- The pool shuts down exactly when no call before the destructor is `Stop`. -/
theorem run_shutDown_iff (n : Nat) (hn : 1 ≤ n) (calls : List Call) :
    ShutDown n ((ofSize n).run calls) ↔ Call.stop ∉ calls := by
  obtain ⟨hstop, hrun⟩ | ⟨hstop, next, hrun⟩ := run_fresh hn 0 calls
  · have hbad : ¬ ShutDown n ((ofSize n).run calls) := by
      rw [show (ofSize n).run calls = _ from hrun]
      exact id
    exact iff_of_false hbad (not_not_intro hstop)
  · have hgood : ShutDown n ((ofSize n).run calls) := by
      rw [show (ofSize n).run calls = _ from hrun]
      exact shutDown_halted n next
    exact iff_of_true hgood hstop

theorem run_shutDown_iff_used : ShutDown 2 ((ofSize 2).run [.getIOService, .getIOService]) :=
  (run_shutDown_iff 2 (by decide) [.getIOService, .getIOService]).mpr (by decide)

theorem run_stop_nullPointer :
    (ofSize 2).run [.stop] = .error (.undef .nullPointer) ∧ ¬ ShutDown 2 ((ofSize 2).run [.stop]) :=
  ⟨rfl, id⟩

end AsioIOServicePool

end GateServer
