import Mathlib.Tactic.Common
import Mathlib.Algebra.Order.Ring.Int

/-!
# Clocks that wrap around

A clock of `w` bits shows the time modulo `2 ^ w`.  Two readings are compared by the sign of their
difference, which is right as long as the two times are less than half a turn apart.
-/

set_option autoImplicit false

namespace Sysjs.Serial

/-- The first reading comes strictly before the second one, by the sign of the difference. -/
def before {w : ℕ} (a b : BitVec w) : Bool := (a - b).toInt < 0

variable {n a b : ℕ}

theorem before_ofNat_iff (ahead : a < b + 2 ^ n) (behind : b ≤ a + 2 ^ n) :
    before (BitVec.ofNat (n + 1) a) (BitVec.ofNat (n + 1) b) = true ↔ a < b := by
  have turn : (2 : ℤ) ^ (n + 1) = 2 ^ n + 2 ^ n := by rw [pow_succ, mul_two]
  have ahead : (a : ℤ) < b + 2 ^ n := by exact_mod_cast ahead
  have behind : (b : ℤ) ≤ a + 2 ^ n := by exact_mod_cast behind
  have difference : (BitVec.ofNat (n + 1) a - BitVec.ofNat (n + 1) b).toInt = (a : ℤ) - b := by
    rw [BitVec.toInt_sub, BitVec.toInt_ofNat', BitVec.toInt_ofNat', Int.sub_bmod_bmod,
      Int.bmod_sub_bmod]
    apply Int.bmod_eq_of_le
    · push_cast
      omega
    · push_cast
      omega
  rw [before, difference, decide_eq_true_eq]
  omega

theorem ofNat_add_ofNat {w : ℕ} (a b : ℕ) :
    BitVec.ofNat w a + BitVec.ofNat w b = BitVec.ofNat w (a + b) :=
  (BitVec.ofNat_add a b).symm

theorem toNat_ofNat_sub_ofNat {w : ℕ} (later : a ≤ b) (near : b < a + 2 ^ w) :
    (BitVec.ofNat w b - BitVec.ofNat w a).toNat = b - a := by
  obtain ⟨d, rfl⟩ := Nat.exists_eq_add_of_le later
  rw [BitVec.ofNat_add, BitVec.add_comm, BitVec.add_sub_cancel, BitVec.toNat_ofNat,
    Nat.mod_eq_of_lt (by omega), Nat.add_sub_cancel_left]

end Sysjs.Serial
