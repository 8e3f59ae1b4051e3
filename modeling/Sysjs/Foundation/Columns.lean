import Mathlib.Tactic.Common
import Mathlib.Algebra.Order.Ring.Nat
import Mathlib.Data.Nat.ModEq

/-!
# Columns of a text on a screen

A tab goes on to the next multiple of the tab width, a line break to the start of a line, and
anything else takes one column.
-/

set_option autoImplicit false

namespace Sysjs.Columns

/-- What a character does to the column. -/
inductive Glyph where
  | plain
  | tab
  | newline
  deriving DecidableEq

def next (width col : ℕ) : Glyph → ℕ
  | .plain => col + 1
  | .tab => (col / width + 1) * width
  | .newline => 0

/-- The column behind a text that starts in column `col`. -/
def column {α : Type*} (glyph : α → Glyph) (width : ℕ) : ℕ → List α → ℕ
  | col, [] => col
  | col, c :: text => column glyph width (next width col (glyph c)) text

section Column

variable {α : Type*} (glyph : α → Glyph) {width : ℕ}

theorem column_append (col : ℕ) (front back : List α) :
    column glyph width col (front ++ back) =
      column glyph width (column glyph width col front) back := by
  induction front generalizing col with
  | nil => rfl
  | cons c front ih => exact ih _

variable {glyph}

theorem column_newline (col : ℕ) (front back : List α) {c : α} (here : glyph c = .newline) :
    column glyph width col (front ++ c :: back) = column glyph width 0 back := by
  rw [column_append, column, here, next]

theorem column_plain (col : ℕ) {text : List α} (plain : ∀ c ∈ text, glyph c = .plain) :
    column glyph width col text = col + text.length := by
  induction text generalizing col with
  | nil => rfl
  | cons c text ih =>
    obtain ⟨here, later⟩ := List.forall_mem_cons.1 plain
    rw [column, here, next, ih _ later, List.length_cons]
    omega

/-- A text on one line may be shifted by a multiple of the tab width. -/
theorem column_add (pos : 0 < width) (k col : ℕ) {text : List α}
    (line : ∀ c ∈ text, glyph c ≠ .newline) :
    column glyph width (width * k + col) text = width * k + column glyph width col text := by
  induction text generalizing col with
  | nil => rfl
  | cons c text ih =>
    obtain ⟨here, later⟩ := List.forall_mem_cons.1 line
    cases kind : glyph c with
    | newline => exact absurd kind here
    | plain =>
      rw [column, column, kind, next, next, Nat.add_assoc, ih _ later]
    | tab =>
      have shift : ((width * k + col) / width + 1) * width =
          width * k + (col / width + 1) * width := by
        rw [Nat.mul_add_div pos, Nat.add_assoc, Nat.add_mul, Nat.mul_comm k]
      rw [column, column, kind, next, next, shift, ih _ later]

/-- Behind a tab the column is known up to the tab width. -/
theorem column_modEq {text : List α} (line : ∀ c ∈ text, glyph c ≠ .newline)
    (tab : ∃ c ∈ text, glyph c = .tab) (col col' : ℕ) :
    column glyph width col text ≡ column glyph width col' text [MOD width] := by
  have kept (col col' : ℕ) (same : col ≡ col' [MOD width]) (text : List α)
      (plain : ∀ c ∈ text, glyph c = .plain) :
      column glyph width col text ≡ column glyph width col' text [MOD width] := by
    rw [column_plain col plain, column_plain col' plain]
    exact same.add_right _
  induction text generalizing col col' with
  | nil =>
    obtain ⟨c, hc, -⟩ := tab
    cases hc
  | cons c text ih =>
    obtain ⟨here, later⟩ := List.forall_mem_cons.1 line
    rw [column, column]
    by_cases more : ∃ c ∈ text, glyph c = .tab
    · exact ih later more _ _
    · have plain : ∀ c ∈ text, glyph c = .plain := by
        intro c hc
        cases kind : glyph c with
        | plain => rfl
        | tab => exact absurd ⟨c, hc, kind⟩ more
        | newline => exact absurd kind (later c hc)
      have last : glyph c = .tab := by
        obtain ⟨c', hc', kind⟩ := tab
        rcases List.mem_cons.1 hc' with rfl | hc'
        · exact kind
        · exact absurd ⟨c', hc', kind⟩ more
      rw [last, next, next]
      exact kept _ _ (((Nat.modEq_zero_iff_dvd).2 (Nat.dvd_mul_left _ _)).trans
        (Nat.modEq_zero_iff_dvd.2 (Nat.dvd_mul_left _ _)).symm) text plain

/-- A text on one line is as wide behind `col` as it is at the start of a line if and only if it has
no tab or `col` is a multiple of the tab width. -/
theorem column_eq_add_iff (pos : 0 < width) (col : ℕ) {text : List α}
    (line : ∀ c ∈ text, glyph c ≠ .newline) :
    column glyph width col text = col + column glyph width 0 text ↔
      (∀ c ∈ text, glyph c ≠ .tab) ∨ width ∣ col := by
  constructor
  · intro same
    by_contra neither
    obtain ⟨tabs, off⟩ := not_or.1 neither
    have tab : ∃ c ∈ text, glyph c = .tab := by simpa using tabs
    have mod : column glyph width col text ≡ column glyph width 0 text [MOD width] :=
      column_modEq line tab col 0
    rw [same] at mod
    have zero : col ≡ 0 [MOD width] :=
      Nat.ModEq.add_right_cancel' (column glyph width 0 text) (by rwa [Nat.zero_add])
    exact off ((Nat.modEq_zero_iff_dvd).1 zero)
  · rintro (plain | ⟨k, rfl⟩)
    · have all : ∀ c ∈ text, glyph c = .plain := by
        intro c hc
        cases kind : glyph c with
        | plain => rfl
        | tab => exact absurd kind (plain c hc)
        | newline => exact absurd kind (line c hc)
      rw [column_plain _ all, column_plain _ all, Nat.zero_add]
    · exact column_add pos k 0 line

end Column

end Sysjs.Columns
