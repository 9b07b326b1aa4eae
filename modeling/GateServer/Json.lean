import Mathlib.Data.Rat.Defs
import GateServer.Const

/-!
# JSON values as the handlers use them

Parsing and printing belong to the JSON library and are not modelled. A `double` is kept
with the text that the library prints for it.
-/

namespace GateServer.Json

inductive Value
  | null
  | boolean (b : Bool)
  | integer (n : Int)
  | real (text : String) (value : Rat)
  | string (s : String)
  | array (elements : List Value)
  | object (members : List (String × Value))

def Value.asString : Value → Except String String
  | .null => .ok ""
  | .boolean b => .ok (if b then "true" else "false")
  | .integer n => .ok (toString n)
  | .real text _ => .ok text
  | .string s => .ok s
  | .array _ | .object _ => .error "Type is not convertible to string"

/-- Values outside the range of an `int` are refused, not wrapped. A `double` is compared with
the bounds before it is truncated. -/
def Value.asInt : Value → Except String Int
  | .null => .ok 0
  | .boolean b => .ok (if b then 1 else 0)
  | .integer n =>
    if -2 ^ 31 ≤ n ∧ n < 2 ^ 31 then .ok n
    else .error (if n < 0 then "LargestInt out of Int range" else "LargestUInt out of Int range")
  | .real _ value =>
    if -2 ^ 31 ≤ value ∧ value ≤ 2 ^ 31 - 1 then .ok (value.num.tdiv value.den)
    else .error "double out of Int range"
  | .string _ | .array _ | .object _ => .error "Value is not convertible to Int."

/-- `operator[]`: a missing member reads as null, and so does any member of null. -/
def Value.get (v : Value) (key : String) : Except String Value :=
  match v with
  | .null => .ok .null
  | .object members => .ok ((members.lookup key).getD .null)
  | _ => .error "in Json::Value::resolveReference(key, end): requires objectValue"

def Value.isMember (v : Value) (key : String) : Except String Bool :=
  match v with
  | .null => .ok false
  | .object members => .ok (members.lookup key).isSome
  | _ => .error "in Json::Value::find(begin, end): requires objectValue or nullValue"

def Value.text (v : Value) (key : String) : Except String String := v.get key >>= Value.asString

abbrev Object := List (String × Value)

def Object.set (root : Object) (key : String) (v : Value) : Object :=
  (key, v) :: root.filter (·.1 != key)

def Object.member (root : Object) (key : String) : Option Value := root.lookup key

@[simp] theorem Object.member_nil (key : String) : Object.member [] key = none := rfl

@[simp] theorem Object.member_set_self (root : Object) (key : String) (v : Value) :
    (root.set key v).member key = some v := by
  simp [Object.member, Object.set]

theorem Object.member_set_ne (root : Object) {key other : String} (v : Value) (h : other ≠ key) :
    (root.set key v).member other = root.member other := by
  have hb : (other == key) = false := by simpa using h
  simp only [Object.member, Object.set, List.lookup_cons, hb]
  induction root with
  | nil => rfl
  | cons m ms ih =>
    obtain ⟨k, x⟩ := m
    by_cases hk : k = key
    · subst hk
      simpa [List.lookup_cons, hb] using ih
    · cases ho : other == k <;> simp [List.lookup_cons, hk, ho, ih]

def Object.error (root : Object) : Option Int :=
  match root.member "error" with
  | some (.integer n) => some n
  | _ => none

theorem Object.member_of_error {root : Object} (h : root.error = some n) :
    ∃ v, root.member "error" = some v := by
  unfold Object.error at h
  split at h
  · exact ⟨_, by assumption⟩
  · cases h

def Object.ofError (e : ErrorCodes) : Object := Object.set [] "error" (.integer e)

def Object.Succeeds (root : Object) : Prop := root.error = some ErrorCodes.success

def Object.Fails (root : Object) : Prop := ∃ n, root.error = some n ∧ n ≠ ErrorCodes.success

theorem Object.Fails.not_succeeds {root : Object} (h : root.Fails) : ¬ root.Succeeds := by
  obtain ⟨n, hn, hne⟩ := h
  intro hs
  exact hne (Option.some.inj (hn.symm.trans hs))

@[simp] theorem Object.error_set_self (root : Object) (n : Int) :
    (root.set "error" (.integer n)).error = some n := by
  simp [Object.error]

theorem Object.error_set_ne (root : Object) {key : String} (v : Value) (h : "error" ≠ key) :
    (root.set key v).error = root.error := by
  simp only [Object.error, root.member_set_ne v h]

@[simp] theorem Object.error_ofError (e : ErrorCodes) : (Object.ofError e).error = some e.toInt :=
  Object.error_set_self _ _

theorem Object.fails_ofError {e : ErrorCodes} (h : e ≠ .success) : (Object.ofError e).Fails :=
  ⟨e, Object.error_ofError e, fun h' => h (ErrorCodes.toInt_injective h')⟩

theorem Object.Fails.set {root : Object} (h : root.Fails) {key : String} (v : Value)
    (hk : "error" ≠ key) : (root.set key v).Fails := by
  simpa only [Object.Fails, root.error_set_ne v hk] using h

theorem Value.get_of_text {v : Value} {key s : String} (h : v.text key = .ok s) :
    ∃ x, v.get key = .ok x := by
  unfold Value.text at h
  cases hg : v.get key with
  | ok x => exact ⟨x, rfl⟩
  | error w =>
    rw [hg] at h
    cases h

end GateServer.Json
