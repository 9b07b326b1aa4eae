import GateServer.Interact.Insider
import GateServer.Interact.Recording
import GateServer.LogSystem

/-!
# Threads that log

`log` is called by the thread of the log queue, by `stop`, and by the handlers of the
verification code. A line is written to the file in pieces while the mutex is held; its
timestamp is taken when the file is open.
-/

namespace GateServer.LogSystem

open Interact

inductive LogOp
  | log (level : LogLevel) (message : String)

/-- The timestamp of the line, if the file could be opened. -/
abbrev LogAns : LogOp → Type
  | .log .. => Option Timestamp

abbrev LogEv := Event LogAns

inductive Acts : String → LogEv → String → Prop
  | opened : Acts file ⟨.log level message, some timestamp⟩
      (log true file ⟨timestamp, level, message⟩)
  | refused : Acts file ⟨.log level message, none⟩ file

def arena : Arena LogAns String where
  act := Acts
  env _ _ := False

-- ---------------------------------------------------------------------------
-- log, step by step
-- ---------------------------------------------------------------------------

structure Shared where
  file : String
  locked : Bool

inductive Place
  | out
  | lock (level : LogLevel) (message : String)
  | openFile (level : LogLevel) (message : String)
  | stamp (level : LogLevel) (message : String)
  | write (call : LogCall) (rest : List Char)
  | unlock (level : LogLevel) (message : String) (answer : Option Timestamp)

/-- The stream flushes at any time, and at the latest for `std::endl`. -/
inductive Next : Shared → Place → Signal Unit → Shared → Place → Prop
  | call : Next s .out .quiet s (.lock level message)
  | lock : s.locked = false →
      Next s (.lock level message) .quiet { s with locked := true } (.openFile level message)
  | opened : Next s (.openFile level message) .quiet s (.stamp level message)
  | refused : Next s (.openFile level message) .quiet s (.unlock level message none)
  | stamp (timestamp : Timestamp) : Next s (.stamp level message) .quiet s
      (.write ⟨timestamp, level, message⟩ (LogCall.line ⟨timestamp, level, message⟩ ++ ['\n']))
  | put (piece : List Char) : Next s (.write call (piece ++ rest)) .quiet
      { s with file := s.file ++ .ofList piece } (.write call rest)
  | close : Next s (.write call []) .quiet s
      (.unlock call.level call.message (some call.timestamp))
  | unlock : Next s (.unlock level message answer) .quiet { s with locked := false } .out

/-- A call takes effect when it is known whether there is a line and what is in it. -/
def effect : Place → Place → Effect LogAns
  | .openFile level message, .unlock .. => .act ⟨.log level message, none⟩
  | .stamp level message, .write call _ => .act ⟨.log level message, some call.timestamp⟩
  | _, _ => .none

def machine : Machine Shared Place Unit where
  next := Next
  parked _ := none
  woken := id

def start (file : String) (n : Nat) : Monitor Shared Place :=
  ⟨⟨file, false⟩, List.replicate n .out⟩

-- ---------------------------------------------------------------------------
-- The mutex
-- ---------------------------------------------------------------------------

@[simp] def Place.inside : Place → Bool
  | .openFile .. | .stamp .. | .write .. | .unlock .. => true
  | .out | .lock .. => false

theorem lock : machine.Guarded (·.locked) Place.inside where
  balance := by
    rintro s p sig s' p' hn - hflag
    cases hn <;> simp_all
  woken := nofun

theorem start_oneInside : Machine.OneInside (·.locked) Place.inside (start file n) := by
  intro
  simp [start]

theorem outline : machine.Outline (K := Unit) Ok (fun p _ => p.inside) fun _ _ => True where
  own _ _ _ := trivial
  others _ _ _ _ := trivial
  woken := nofun

@[simp] def Place.idle : Place → Bool
  | .out => true
  | _ => false

@[simp] def Place.Records : Place → List LogEv → Prop
  | .out, _ => True
  | .write call _, since => since = [⟨.log call.level call.message, some call.timestamp⟩]
  | .unlock level message answer, since => since = [⟨.log level message, answer⟩]
  | _, since => since = []

theorem records : machine.Records (fun _ => effect) Place.idle (fun p (_ : Unit) => p.inside)
    (fun _ _ => True) fun _ => Place.Records where
  own := by
    rintro s p sig s' p' since hn - h
    cases hn <;> simp_all [effect, Effect.events]
  others _ h _ := h
  woken := nofun

-- ---------------------------------------------------------------------------
-- Calls in one step
-- ---------------------------------------------------------------------------

@[simp] def Place.rest : Place → List Char
  | .write _ rest => rest
  | _ => []

def shown (who : Option Place) (s : Shared) : String := s.file ++ .ofList (who.elim [] Place.rest)

/-- The file with the rest of the line that is being written. -/
def view (c : Monitor Shared Place) : String := shown (Machine.insider Place.inside c) c.shared

theorem Next.makes (hn : Next s p sig s' p') : arena.Makes (effect p p')
    (s.file ++ .ofList p.rest) (s'.file ++ .ofList p'.rest) := by
  cases hn with
  | stamp timestamp =>
    have hline (file : String) (call : LogCall) :
        file ++ .ofList (call.line ++ ['\n']) = log true file call := by
      rw [← String.toList_inj, toList_log, String.toList_append, String.toList_ofList]
    simp only [Place.rest, hline, String.ofList_nil, String.append_empty]
    exact .opened
  | refused => exact .refused
  | put => simp [effect, Arena.Makes, String.append_assoc]
  | _ => rfl

theorem Place.rest_outside {p : Place} (h : p.inside = false) : p.rest = [] := by
  cases p <;> first | rfl | cases h

theorem shows : machine.Shows arena (fun _ => effect) Place.inside (fun _ _ => True) shown where
  stays _ hn _ _ := hn.makes
  leaves _ hn _ hout' := by
    have hmakes := hn.makes
    rwa [Place.rest_outside hout'] at hmakes
  enters _ hn hout _ := by
    have hmakes := hn.makes
    rwa [Place.rest_outside hout] at hmakes
  passes _ hn hout hout' who := by
    cases hn with
    | call => rfl
    | _ => cases hout <;> cases hout'

theorem refines : machine.Refines arena Ok (fun _ => effect) view (start file n) :=
  lock.refines (fun _ _ => rfl) start_oneInside (fun _ _ _ _ => trivial) shows

def calls (tr : List LogEv) : List LogCall := tr.filterMap fun
  | ⟨.log level message, timestamp⟩ => timestamp.map (⟨·, level, message⟩)

theorem run_file (hr : arena.Run file tr file') : file' = logAll file (calls tr) := by
  induction hr with
  | start => rfl
  | env _ henv => exact henv.elim
  | act _ hact ih =>
    rw [calls, List.filterMap_append, logAll, List.foldl_append]
    cases hact with
    | opened => rw [ih]; rfl
    | refused => exact ih

theorem traced_file (ht : machine.Traced (fun _ => effect) Machine.Any (start file n) tr c) :
    view c = logAll file (calls tr) := by
  have hrun := refines.traced ht
  have hstart : view (start file n) = file := by
    rw [view, Machine.insider_none start_oneInside rfl]
    exact String.append_empty
  rw [hstart] at hrun
  exact run_file hrun

/-- The threads' statements write what a sequence of calls writes, each of which is the call of
one thread. -/
structure InOneStep (file : String) (tr : List LogEv) (c : Monitor Shared (Recorded LogAns Place)) :
    Prop where
  file : view (Machine.forget c) = logAll file (calls tr)
  calls : ∀ t ∈ c.threads, t.thread.Records t.since

/-- Lines are never mixed: the file is what the calls write in sequence, up to the end of the
line that is being written. -/
theorem log_in_one_step (ht : machine.Remembers (fun _ => effect) Place.idle (start file n) tr c) :
    InOneStep file tr c where
  file := traced_file ht.forget
  calls := by
    refine records.holds outline lock start_oneInside (fun _ _ => trivial) (fun p hp => ?_) ht
    obtain ⟨-, rfl⟩ := List.mem_replicate.mp hp
    trivial

theorem read_appended (file : String) {calls : List LogCall}
    (hplain : ∀ call ∈ calls, '\n' ∉ call.message.toList) :
    (lines (appended file calls)).map readEntry = calls.map fun call => some call.entry := by
  rw [lines_plain file hplain, List.map_map]
  exact List.map_congr_left fun call _ => readEntry_line call

/-- When no thread is writing, the file can be read back as the calls that found it open. -/
theorem threads_readBack (ht : machine.Traced (fun _ => effect) Machine.Any (start file n) tr c)
    (hfree : c.shared.locked = false) (hplain : ∀ call ∈ calls tr, '\n' ∉ call.message.toList) :
    (lines (c.shared.file.toList.drop file.length)).map readEntry =
      (calls tr).map fun call => some call.entry := by
  have hfile : c.shared.file = logAll file (calls tr) := by
    rw [← traced_file ht, view, Machine.insider_none (lock.excludes start_oneInside ht.reachable)
      hfree]
    exact String.append_empty.symm
  rw [hfile]
  exact read_appended file hplain

-- ---------------------------------------------------------------------------
-- Two threads
-- ---------------------------------------------------------------------------

def noonCall : LogCall := ⟨noon, .info, "a"⟩

def noonEv : LogEv := ⟨.log .info "a", some noon⟩

theorem noon_begun : machine.Remembers (fun _ => effect) Place.idle (start "" 2) [noonEv]
    ⟨⟨"" ++ .ofList noonCall.line, true⟩, [⟨.write noonCall ['\n'], [noonEv]⟩, ⟨.out, []⟩]⟩ := by
  have hstart : machine.Remembers (fun _ => effect) Place.idle (start "" 2) [] _ := .start
  have hcall : Next ⟨"", false⟩ .out .quiet ⟨"", false⟩ (.lock .info "a") := .call
  have hopened := ((hstart.moves [] [_] hcall).moves [] [_] (.lock rfl)).moves [] [_] .opened
  have hstamp : Next ⟨"", true⟩ (.stamp .info "a") .quiet ⟨"", true⟩
    (.write noonCall (noonCall.line ++ ['\n'])) := .stamp noon
  exact (hopened.moves [] [_] hstamp).moves [] [_] (.put _)

theorem log_in_one_step_begun : InOneStep "" [noonEv] ⟨⟨"" ++ .ofList noonCall.line, true⟩,
    [⟨.write noonCall ['\n'], [noonEv]⟩, ⟨.lock .warn "b", []⟩]⟩ :=
  log_in_one_step (noon_begun.moves [_] [] .call)

theorem threads_readBack_noon :
    (lines (("" ++ .ofList noonCall.line ++ .ofList ['\n']).toList.drop 0)).map readEntry =
      [some (.info, "a")] := by
  have hput : machine.Remembers (fun _ => effect) Place.idle (start "" 2) [noonEv]
      ⟨⟨"" ++ .ofList noonCall.line ++ .ofList ['\n'], true⟩,
        [⟨.write noonCall [], [noonEv]⟩, ⟨.out, []⟩]⟩ := noon_begun.moves [] [_] (.put ['\n'])
  have hdone : machine.Remembers (fun _ => effect) Place.idle (start "" 2) [noonEv]
      ⟨⟨"" ++ .ofList noonCall.line ++ .ofList ['\n'], false⟩,
        [⟨.out, [noonEv]⟩, ⟨.out, []⟩]⟩ := (hput.moves [] [_] .close).moves [] [_] .unlock
  exact threads_readBack hdone.forget rfl (by simp [calls, noonEv])

end GateServer.LogSystem
