import Mathlib.Algebra.Ring.Int.Defs
import Mathlib.Algebra.Ring.Nat
import Mathlib.Data.List.TakeWhile

/-!
# Constants, integers and C strings

A `std::string` is a `String` with one character for each byte. The fixed-width
integers are `Int` and `Nat` with the narrowing written out where the code
converts between widths.
-/

namespace GateServer

inductive ErrorCodes
  | success
  | errorJosn
  | rpcFail
  | varifyEXpired
  | varifyError
  | uerExist
  | mySqlError
  | redisError
  | emailIsRegister
  | userNotExist
  | userPasswdError
  | emailIsNotMatch
  deriving DecidableEq, Repr

/-- The enumerators are unscoped: the code stores and compares them as integers. -/
@[coe, simp] def ErrorCodes.toInt : ErrorCodes → Int
  | .success => 0
  | .errorJosn => 1001
  | .rpcFail => 1002
  | .varifyEXpired => 1003
  | .varifyError => 1004
  | .uerExist => 1005
  | .mySqlError => 1006
  | .redisError => 1007
  | .emailIsRegister => 1008
  | .userNotExist => 1009
  | .userPasswdError => 1010
  | .emailIsNotMatch => 1011

instance : Coe ErrorCodes Int := ⟨ErrorCodes.toInt⟩

theorem ErrorCodes.toInt_injective {a b : ErrorCodes} (h : a.toInt = b.toInt) : a = b := by
  cases a <;> cases b <;> first | rfl | simp at h

inductive LogLevel
  | debug
  | info
  | warn
  | error
  deriving DecidableEq, Repr

structure UserInfo where
  uid : Nat
  email : String
  passwd : String
  deriving DecidableEq, Repr

-- ---------------------------------------------------------------------------
-- Integer conversions
-- ---------------------------------------------------------------------------

def toInt32 (n : Int) : Int := n.bmod (2 ^ 32)

def toUInt64 (n : Int) : Nat := (n % 2 ^ 64).toNat

theorem toInt32_of_small {n : Int} (h : -2 ^ 31 ≤ n) (h' : n < 2 ^ 31) : toInt32 n = n := by
  unfold toInt32
  rw [Int.bmod_def]
  omega

theorem toUInt64_of_small {n : Nat} (h : n < 2 ^ 64) : toUInt64 n = n := by
  unfold toUInt64
  omega

theorem toInt32_toInt32 (n : Int) : toInt32 (toInt32 n) = toInt32 n := Int.bmod_bmod

theorem toInt32_toUInt64 (n : Int) : toInt32 (toUInt64 n) = toInt32 n := by
  have hmod : ((toUInt64 n : Nat) : Int) = n % 2 ^ 64 := by
    unfold toUInt64
    exact Int.toNat_of_nonneg (Int.emod_nonneg _ (by decide))
  unfold toInt32
  rw [hmod, Int.bmod_def, Int.bmod_def, Int.emod_emod_of_dvd n (by decide)]

theorem toInt32_lt (n : Int) : toInt32 n < 2 ^ 31 := Int.bmod_lt (by decide)

-- ---------------------------------------------------------------------------
-- Decimal text
-- ---------------------------------------------------------------------------

def isSpace (c : Char) : Bool :=
  c == ' ' || (9 ≤ c.toNat && c.toNat ≤ 13)

def longMax : Int := 2 ^ 63 - 1
def longMin : Int := -2 ^ 63

/-- Base 10: blanks, one sign, the digits up to the first other character,
clamped to a 64-bit `long`. -/
def strtol (s : String) : Int :=
  let digits (cs : List Char) : Int := (Nat.ofDigitChars 10 (cs.takeWhile Char.isDigit) 0 : Nat)
  let value : Int := match s.toList.dropWhile isSpace with
    | '-' :: cs => -digits cs
    | '+' :: cs => digits cs
    | cs => digits cs
  max longMin (min longMax value)

def atol (s : String) : Int := strtol s

def atoi (s : String) : Int := toInt32 (strtol s)

theorem isSpace_of_isDigit {c : Char} (h : c.isDigit = true) : isSpace c = false := by
  simp only [Char.isDigit, Bool.and_eq_true, decide_eq_true_eq, UInt32.le_iff_toNat_le] at h
  have hc : c.toNat = c.val.toNat := rfl
  have hne : c ≠ ' ' := by
    rintro rfl
    simp at h
  simp only [isSpace, Bool.or_eq_false_iff, beq_eq_false_iff_ne, Bool.and_eq_false_iff,
    decide_eq_false_iff_not]
  refine ⟨hne, .inr ?_⟩
  simp at h
  omega

theorem strtol_toString_min (n : Nat) : strtol (toString n) = min longMax n := by
  have hd : ∀ c ∈ Nat.toDigits 10 n, c.isDigit := fun c hc =>
    Nat.isDigit_of_mem_toDigits (by decide) (by decide) hc
  obtain ⟨c, cs, hcs⟩ := List.exists_cons_of_ne_nil (Nat.toDigits_ne_nil (n := n) (b := 10))
  have hc : c.isDigit = true := hd c (by simp [hcs])
  have hall : (c :: cs).takeWhile Char.isDigit = c :: cs := by
    rw [← hcs]
    exact List.takeWhile_eq_self_iff.mpr hd
  have hval : Nat.ofDigitChars 10 (c :: cs) 0 = n := by
    rw [← hcs]
    exact Nat.ofDigitChars_ten_toDigits
  have hlist : (toString n).toList = c :: cs := by
    rw [← hcs]
    exact Nat.toList_repr
  have hdrop : (c :: cs).dropWhile isSpace = c :: cs := by
    simp [isSpace_of_isDigit hc]
  have hminus : c ≠ '-' := by rintro rfl; simp at hc
  have hplus : c ≠ '+' := by rintro rfl; simp at hc
  simp only [strtol, hlist, hdrop]
  split
  · rename_i heq; cases heq; exact absurd rfl hminus
  · rename_i heq; cases heq; exact absurd rfl hplus
  · rw [hall, hval]
    simp only [longMin, longMax]
    omega

theorem strtol_toString {n : Nat} (h : n < 2 ^ 63) : strtol (toString n) = n := by
  rw [strtol_toString_min]
  simp only [longMax]
  omega

/-- Numbers below `2 ^ 31` are read back by `atoi`. -/
theorem atoi_toString {n : Nat} (h : n < 2 ^ 31) : atoi (toString n) = n := by
  unfold atoi
  rw [strtol_toString (by omega)]
  exact toInt32_of_small (by omega) (by omega)

theorem toInt32_strtol_iff (n : Nat) : toInt32 (strtol (toString n)) = n ↔ n < 2 ^ 31 := by
  constructor
  · intro h
    have hlt := toInt32_lt (strtol (toString n))
    omega
  · intro h
    exact atoi_toString h

/-- Negative `int`s become the largest values of `uint64_t`. A text that does not fit a `long`
is read as `-1`, so one such number is converted correctly. -/
theorem toUInt64_atoi_iff {n : Nat} (h : n < 2 ^ 64) :
    toUInt64 (atoi (toString n)) = n ↔ n < 2 ^ 31 ∨ n = 2 ^ 64 - 1 := by
  by_cases hsmall : n < 2 ^ 31
  · rw [atoi_toString hsmall]
    exact iff_of_true (toUInt64_of_small h) (.inl hsmall)
  unfold atoi
  rw [strtol_toString_min]
  by_cases hlong : n < 2 ^ 63
  · -- what is left of it is below `2 ^ 31`, or at least `2 ^ 64 - 2 ^ 31`
    have hmin : min longMax (n : Int) = n := by
      simp only [longMax]
      omega
    rw [hmin]
    have hlow : -2 ^ 31 ≤ toInt32 n := Int.le_bmod (by decide)
    have hhigh := toInt32_lt n
    unfold toUInt64
    omega
  · have hmin : min longMax (n : Int) = longMax := by
      simp only [longMax]
      omega
    have hmax : toUInt64 (toInt32 longMax) = 2 ^ 64 - 1 := by decide
    rw [hmin, hmax]
    omega

theorem atol_toString {n : Nat} (h : n < 2 ^ 63) : atol (toString n) = n := strtol_toString h

end GateServer
