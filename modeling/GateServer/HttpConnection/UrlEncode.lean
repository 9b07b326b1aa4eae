import GateServer.HttpConnection.Params

/-!
# The code of `UrlEncode`

The output is a sequence of code words: a kept byte, `+` for a space, or an escape. The
code is injective.
-/

namespace GateServer.HttpConnection

def isUpperHex (b : UInt8) : Bool := (48 ≤ b && b ≤ 57) || (65 ≤ b && b ≤ 70)

/-- Concatenations of code words: unreserved bytes, `+`, and `%` with two hexadecimal digits.
-/
inductive Encoded : Bytes → Prop
  | nil : Encoded []
  | kept {b rest} : unreserved b = true → Encoded rest → Encoded (b :: rest)
  | plus {rest} : Encoded rest → Encoded (43 :: rest)
  | escape {high low rest} : isUpperHex high = true → isUpperHex low = true → Encoded rest →
      Encoded (37 :: high :: low :: rest)

theorem toHex_isUpperHex : ∀ b : UInt8,
    isUpperHex (toHex (b >>> 4)) = true ∧ isUpperHex (toHex (b &&& 15)) = true :=
  forall_byte (by decide +kernel)

theorem Encoded.byte (h : Encoded rest) (b : UInt8) : Encoded (urlEncodeByte b ++ rest) := by
  obtain ⟨hkept, hb⟩ | ⟨-, hb⟩ | ⟨-, hb⟩ := urlEncodeByte_cases b <;> rw [hb]
  · exact .kept hkept h
  · exact .plus h
  · exact .escape (toHex_isUpperHex b).1 (toHex_isUpperHex b).2 h

theorem encoded (str : Bytes) : Encoded (urlEncode str) := by
  induction str with
  | nil => exact .nil
  | cons b str ih => exact ih.byte b

theorem separator_not_encoded (str : Bytes) :
    38 ∉ urlEncode str ∧ 61 ∉ urlEncode str ∧ 63 ∉ urlEncode str ∧ 32 ∉ urlEncode str := by
  refine ⟨?_, ?_, ?_, ?_⟩ <;>
    exact not_mem_urlEncode (by decide) (by decide) (by decide) str

/-- `UrlEncode` is injective, and its output is made of the code words above. -/
theorem urlEncode_lossless :
    Function.Injective urlEncode ∧
    ∀ str, Encoded (urlEncode str) ∧
      38 ∉ urlEncode str ∧ 61 ∉ urlEncode str ∧ 63 ∉ urlEncode str ∧ 32 ∉ urlEncode str :=
  ⟨fun _ _ => urlEncode_inj, fun str => ⟨encoded str, separator_not_encoded str⟩⟩

end GateServer.HttpConnection
