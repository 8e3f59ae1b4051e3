import Sysjs.Foundation.Block

/-!
# Accesses to a block

A log of what a program does with one block: it offers a range of cells to its environment, which
fills the front part of it, or reads a single cell.  A log is sound when all of this stays inside
the block and only cells that were filled before are read.
-/

set_option autoImplicit false

namespace Sysjs

/-- The offer of `count` cells from `lo` on, of which the first `stored` get filled, or the read of
the cell `i`. -/
inductive Access where
  | fill (lo : ℤ) (count stored : ℕ)
  | index (i : ℤ)
  deriving DecidableEq

namespace Access

/-- The access fills the cell `i`. -/
def Fills (i : ℤ) : Access → Prop
  | .fill lo _ stored => lo ≤ i ∧ i < lo + stored
  | .index _ => False

/-- What an access to a block of `size` cells should be, behind the accesses `before`. -/
def Good (size : ℕ) (before : List Access) : Access → Prop
  | .fill lo count _ => Block.Inside size lo count
  | .index i => Block.Inside size i 1 ∧ ∃ a ∈ before, a.Fills i

/-- Every access of the log is good, behind the accesses `before` and the earlier ones. -/
def Sound (size : ℕ) : List Access → List Access → Prop
  | _, [] => True
  | before, a :: log => a.Good size before ∧ Sound size (before ++ [a]) log

theorem sound_append (size : ℕ) (before log log' : List Access) :
    Sound size before (log ++ log') ↔ Sound size before log ∧ Sound size (before ++ log) log' := by
  induction log generalizing before with
  | nil => simp [Sound]
  | cons a log ih => simp [Sound, ih, and_assoc]

theorem sound_fills (size : ℕ) (before : List Access) {log : List Access}
    (fills : ∀ a ∈ log, ∃ lo count stored, a = .fill lo count stored) :
    Sound size before log ↔ ∀ a ∈ log, a.Good size [] := by
  induction log generalizing before with
  | nil => simp [Sound]
  | cons a log ih =>
    obtain ⟨lo, count, stored, rfl⟩ := fills a List.mem_cons_self
    rw [Sound, ih _ fun b later => fills b (List.mem_cons_of_mem _ later), List.forall_mem_cons]
    rfl

theorem sound_indices (size : ℕ) (before : List Access) (is : List ℕ) :
    Sound size before (is.map fun i : ℕ => .index (i : ℤ)) ↔
      ∀ i ∈ is, Block.Inside size i 1 ∧ ∃ a ∈ before, a.Fills i := by
  induction is generalizing before with
  | nil => simp [Sound]
  | cons i is ih =>
    rw [List.map_cons, Sound, ih, List.forall_mem_cons]
    simp [Good, Fills]

end Access

end Sysjs
