import Sysjs.Foundation.Block
import Mathlib.Algebra.Order.Ring.Int

/-!
# Formatted text

The decimal text of an integer, its length, and a text put with its terminator at the start of a
block, as `sprintf` does without asking for the block's size.
-/

set_option autoImplicit false

namespace Sysjs

/-- `%d`. -/
def decimal (n : ℤ) : List Char :=
  if n < 0 then '-' :: Nat.toDigits 10 n.natAbs else Nat.toDigits 10 n.natAbs

/-- The text of an integer has at most `k + 1` characters when it has at most `k + 1` digits, or a
sign and at most `k`. -/
theorem length_decimal_le_iff (n : ℤ) {k : ℕ} (pos : 0 < k) :
    (decimal n).length ≤ k + 1 ↔ -(10 ^ k : ℕ) < n ∧ n < (10 ^ (k + 1) : ℕ) := by
  unfold decimal
  split
  · next neg =>
    rw [List.length_cons, Nat.succ_le_succ_iff, Nat.length_toDigits_le_iff (by decide) pos]
    omega
  · next nonneg =>
    rw [Nat.length_toDigits_le_iff (by decide) k.succ_pos]
    omega

namespace Block

/-- The text and its terminator at the start of the block. -/
def sprintf (b : Block Char) (text : List Char) : Block Char :=
  (b.touch 0 (text.length + 1)).blit 0 (text ++ ['\x00'])

theorem sprintf_safe (b : Block Char) (text : List Char) :
    (b.sprintf text).safe = true ↔ b.safe = true ∧ text.length < b.size := by
  rw [sprintf, blit_safe, touch_safe]
  refine and_congr_right fun _ => ?_
  simp only [Inside]
  omega

end Block

end Sysjs
