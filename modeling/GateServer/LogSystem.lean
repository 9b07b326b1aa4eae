import GateServer.Interact.Pieces
import GateServer.LogQueue
import GateServer.LogicalSystem

/-!
# The log file

A call of `log` appends a line to the file. The lines can be read back as long as no
message contains a newline; a message with one cannot be distinguished from two calls.
-/

namespace GateServer.LogSystem

open Interact

def getLevelString : LogLevel → String
  | .debug => "DEBUG"
  | .info => "INFO"
  | .warn => "WARN"
  | .error => "ERROR"

/-- `to_simple_string` of the local time, such as `2025-Jul-01 12:00:00`. -/
structure Timestamp where
  text : String
  noBracket : ']' ∉ text.toList
  noNewline : '\n' ∉ text.toList

structure LogCall where
  timestamp : Timestamp
  level : LogLevel
  message : String

def LogCall.entry (call : LogCall) : LogQueue.LogMessage := (call.level, call.message)

/-- The file after a call of `log`; a file that cannot be opened is left as it is. -/
def log (isOpen : Bool) (file : String) (call : LogCall) : String :=
  if isOpen then
    file ++ ("[" ++ call.timestamp.text ++ "] [" ++ getLevelString call.level ++ "] " ++
      call.message ++ "\n")
  else file

/-- Calls in sequence, each of which finds the file open. -/
def logAll (file : String) (calls : List LogCall) : String := calls.foldl (log true) file

def appended (file : String) (calls : List LogCall) : List Char :=
  (logAll file calls).toList.drop file.length

-- ---------------------------------------------------------------------------
-- Reading
-- ---------------------------------------------------------------------------

/-- Every line ends with a newline. -/
def lines (text : List Char) : List (List Char) := (text.splitOn '\n').dropLast

def readLevel (text : List Char) : Option LogLevel :=
  [.debug, .info, .warn, .error].find? fun level => (getLevelString level).toList = text

/-- The level is in the second pair of brackets, and a space precedes the message. -/
def readEntry (line : List Char) : Option LogQueue.LogMessage :=
  let rest := (line.dropWhile (· != ']')).drop 3
  (readLevel (rest.takeWhile (· != ']'))).map fun level =>
    (level, .ofList ((rest.dropWhile (· != ']')).drop 2))

/-- Line by line, `read` gives the calls in their order. -/
def ReadsBack (read : List Char → Option LogQueue.LogMessage) (file : String)
    (calls : List LogCall) : Prop :=
  (lines (appended file calls)).map read = calls.map fun call => some call.entry

-- ---------------------------------------------------------------------------
-- The lines of a call
-- ---------------------------------------------------------------------------

def LogCall.line (call : LogCall) : List Char :=
  '[' :: (call.timestamp.text.toList ++ ']' :: ' ' :: '[' ::
    ((getLevelString call.level).toList ++ ']' :: ' ' :: call.message.toList))

theorem level_plain (level : LogLevel) :
    ']' ∉ (getLevelString level).toList ∧ '\n' ∉ (getLevelString level).toList := by
  cases level <;> simp [getLevelString]

theorem toList_log (file : String) (call : LogCall) :
    (log true file call).toList = file.toList ++ (call.line ++ ['\n']) := by
  simp [log, LogCall.line]

theorem toList_logAll (file : String) (calls : List LogCall) :
    (logAll file calls).toList = file.toList ++ calls.flatMap fun call => call.line ++ ['\n'] := by
  induction calls generalizing file with
  | nil => simp [logAll]
  | cons call calls ih =>
    have hrest := ih (log true file call)
    rw [toList_log, List.append_assoc] at hrest
    exact hrest

theorem lines_cons (line rest : List Char) :
    lines (line ++ '\n' :: rest) = line.splitOn '\n' ++ lines rest := by
  rw [lines, List.splitOn_append_cons_self,
    List.dropLast_append_of_ne_nil (List.splitOn_ne_nil _ _)]
  rfl

theorem lines_appended (file : String) (calls : List LogCall) :
    lines (appended file calls) = calls.flatMap fun call => call.line.splitOn '\n' := by
  rw [appended, toList_logAll, ← String.length_toList, List.drop_left]
  induction calls with
  | nil => rfl
  | cons call calls ih =>
    rw [List.flatMap_cons, List.append_assoc, List.singleton_append, lines_cons, ih]
    rfl

theorem count_line (call : LogCall) : call.line.count '\n' = call.message.toList.count '\n' := by
  simp [LogCall.line, List.count_eq_zero.mpr call.timestamp.noNewline,
    List.count_eq_zero.mpr (level_plain call.level).2]

theorem line_plain (call : LogCall) : '\n' ∉ call.line ↔ '\n' ∉ call.message.toList := by
  rw [← List.count_eq_zero, ← List.count_eq_zero, count_line]

theorem readLevel_getLevelString (level : LogLevel) :
    readLevel (getLevelString level).toList = some level := by
  cases level <;> decide

theorem readEntry_line (call : LogCall) : readEntry call.line = some call.entry := by
  have hstamp : ']' ∉ '[' :: call.timestamp.text.toList := by simp [call.timestamp.noBracket]
  have hfirst : call.line.dropWhile (· != ']') = ']' :: ' ' :: '[' ::
      ((getLevelString call.level).toList ++ ']' :: ' ' :: call.message.toList) :=
    (Pieces.span_cons hstamp).2
  obtain ⟨hlevel, hmessage⟩ :=
    Pieces.span_cons (y := ' ' :: call.message.toList) (level_plain call.level).1
  simp only [readEntry, hfirst, List.drop_succ_cons, List.drop_zero, hlevel, hmessage,
    readLevel_getLevelString, Option.map_some, String.ofList_toList, LogCall.entry]

-- ---------------------------------------------------------------------------
-- What can be read back
-- ---------------------------------------------------------------------------

theorem length_lines (file : String) (calls : List LogCall) :
    (lines (appended file calls)).length =
      calls.length + (calls.map fun call => call.message.toList.count '\n').sum := by
  rw [lines_appended]
  induction calls with
  | nil => rfl
  | cons call calls ih =>
    rw [List.flatMap_cons, List.length_append, Pieces.length_splitOn, count_line, ih,
      List.map_cons, List.sum_cons, List.length_cons]
    omega

/-- There are more lines than calls, however a line is read. -/
theorem newline_hides {read : List Char → Option LogQueue.LogMessage}
    (h : ReadsBack read file calls) (hcall : call ∈ calls) : '\n' ∉ call.message.toList := by
  have hlength := congrArg List.length h
  rw [List.length_map, List.length_map, length_lines] at hlength
  have hsum : (calls.map fun call => call.message.toList.count '\n').sum = 0 := by omega
  rw [← List.count_eq_zero]
  exact List.sum_eq_zero_iff_forall_eq_nat.mp hsum _ (List.mem_map_of_mem hcall)

theorem lines_plain (file : String) {calls : List LogCall}
    (h : ∀ call ∈ calls, '\n' ∉ call.message.toList) :
    lines (appended file calls) = calls.map LogCall.line := by
  rw [lines_appended]
  induction calls with
  | nil => rfl
  | cons call calls ih =>
    have hline : call.line.splitOn '\n' = [call.line] :=
      List.splitOn_eq_singleton ((line_plain call).mpr (h call List.mem_cons_self))
    rw [List.flatMap_cons, hline, ih fun c hc => h c (List.mem_cons_of_mem call hc)]
    rfl

/-- The calls can be read back from the file iff no message contains a newline. -/
theorem readsBack_iff (file : String) (calls : List LogCall) :
    ReadsBack readEntry file calls ↔ ∀ call ∈ calls, '\n' ∉ call.message.toList := by
  constructor
  · intro h call hcall
    exact newline_hides h hcall
  · intro h
    rw [ReadsBack, lines_plain file h, List.map_map]
    exact List.map_congr_left fun call _ => readEntry_line call

/-- A body that is not JSON and contains a line in the format of the log. -/
def forgedBody : String := "x\n[2025-Jul-01 12:00:00] [INFO] Redis connection closed"

def noon : Timestamp := ⟨"2025-Jul-01 12:00:00", by simp, by simp⟩

/-- The handler pushes the body verbatim, and what is logged reads as two calls. -/
theorem forged_entry :
    (∃ tr e, Runs (LogicalSystem.submitForgetPasswd (.ofBodies []) (.ofDao (.ofBodies []))
        forgedBody) tr e ∧
      ⟨.push .error ("Failed to parse JSON request body: " ++ forgedBody), ()⟩ ∈ tr) ∧
    logAll "" [⟨noon, .error, "Failed to parse JSON request body: " ++ forgedBody⟩] =
      logAll "" [⟨noon, .error, "Failed to parse JSON request body: x"⟩,
        ⟨noon, .info, "Redis connection closed"⟩] ∧
    ∀ read, ¬ ReadsBack read ""
      [⟨noon, .error, "Failed to parse JSON request body: " ++ forgedBody⟩] := by
  refine ⟨⟨_, _, .call () (.call () .refl), by simp⟩, ?_, ?_⟩
  · rfl
  · intro read h
    exact newline_hides h List.mem_cons_self (by simp [forgedBody])

end GateServer.LogSystem
