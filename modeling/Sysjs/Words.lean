import Mathlib.Tactic.Common
import Mathlib.Algebra.Order.Ring.Int

/-!
# Words

The C `int`, which wraps at 32 bits, and the `jsval`, whose tag says what its payload is and whose
integers have 31 bits.
-/

set_option autoImplicit false

namespace Sysjs

/-- What an `int` keeps of a result. -/
def toInt32 (n : ℤ) : ℤ := Int.bmod n (2 ^ 32)

/-- What an `unsigned` keeps of an `int`. -/
def toUint32 (n : ℤ) : ℕ := (n % 2 ^ 32).toNat

/-- The integer that `INT_TO_JSVAL` makes. -/
def intToJsval (n : ℤ) : ℤ := Int.bmod n (2 ^ 31)

/-- A `jsval` with its tag.  `word` is what `JSVAL_TO_INT` makes of a value that is no integer. -/
inductive TaggedValue where
  | int (n : ℤ)
  | string (text : String) (word : ℤ)
  | other (word : ℤ)
  deriving DecidableEq

namespace TaggedValue

/-- `JSVAL_IS_INT`. -/
def isInt : TaggedValue → Bool
  | .int _ => true
  | _ => false

/-- `JSVAL_IS_STRING`. -/
def isString : TaggedValue → Bool
  | .string _ _ => true
  | _ => false

/-- `JSVAL_TO_INT`, which does not look at the tag. -/
def toInt : TaggedValue → ℤ
  | .int n => n
  | .string _ word => word
  | .other word => word

end TaggedValue

theorem toInt32_of_fits {n : ℤ} (low : -2 ^ 31 ≤ n) (high : n < 2 ^ 31) : toInt32 n = n :=
  Int.bmod_eq_of_le (by omega) (by omega)

theorem toInt32_of_above {n : ℤ} (low : 2 ^ 31 ≤ n) (high : n < 2 ^ 31 + 2 ^ 32) :
    toInt32 n = n - 2 ^ 32 := by
  have turn : Int.bmod (n - 2 ^ 32) (2 ^ 32) = Int.bmod n (2 ^ 32) :=
    Int.add_neg_bmod_self n (2 ^ 32)
  rw [toInt32, ← turn]
  exact toInt32_of_fits (by omega) (by omega)

theorem toInt32_range (n : ℤ) : -2 ^ 31 ≤ toInt32 n ∧ toInt32 n < 2 ^ 31 := by
  constructor
  · exact Int.le_bmod (by omega)
  · exact Int.bmod_lt (by omega)

theorem toInt32_eq_iff (n : ℤ) : toInt32 n = n ↔ -2 ^ 31 ≤ n ∧ n < 2 ^ 31 := by
  constructor
  · intro kept
    rw [← kept]
    exact toInt32_range n
  · rintro ⟨low, high⟩
    exact toInt32_of_fits low high

theorem toInt32_add (a b : ℤ) : toInt32 (toInt32 a + b) = toInt32 (a + b) := Int.bmod_add_bmod

theorem intToJsval_toInt32 (n : ℤ) : intToJsval (toInt32 n) = intToJsval n :=
  Int.bmod_bmod_of_dvd (by decide)

/-- A length comes out of a jsval as it was if it has at most 30 bits. -/
theorem intToJsval_natCast_eq_iff (n : ℕ) : intToJsval n = n ↔ n < 2 ^ 30 := by
  constructor
  · intro kept
    have bound : intToJsval n < 2 ^ 30 := Int.bmod_lt (by omega)
    omega
  · intro small
    exact Int.bmod_eq_of_le (by omega) (by omega)

end Sysjs
