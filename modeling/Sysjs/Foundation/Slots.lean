import Mathlib.Tactic.Common
import Mathlib.Data.List.Basic
import Mathlib.Data.List.Range
import Mathlib.Data.Set.Basic
import Mathlib.Logic.Function.Basic
import Mathlib.Order.Nat

/-!
# Tables of slots

A table of `n` slots, each of which is free or holds a value.  `free` is the set of the free ones
and `occupied` lists the values that the others hold; writing one slot exchanges the old content of
that slot for the new one and leaves every other value where it is.
-/

set_option autoImplicit false

namespace Sysjs.Slots

variable {β : Type*}

/-- The free ones of the first `n` slots. -/
def free (t : ℕ → Option β) (n : ℕ) : Set ℕ := {i | i < n ∧ t i = none}

theorem free_congr {t u : ℕ → Option β} {n : ℕ} (same : ∀ i < n, u i = t i) :
    free u n = free t n := by
  ext i
  exact and_congr_right fun inside => by rw [same i inside]

theorem isLeast_or_full (t : ℕ → Option β) (n : ℕ) :
    (∃ i, IsLeast (free t n) i) ∨ free t n = ∅ := by
  classical
  rcases (free t n).eq_empty_or_nonempty with full | nonempty
  · exact Or.inr full
  · exact Or.inl ⟨Nat.find nonempty, nonempty.isLeast_natFind⟩

theorem held_of_full {t : ℕ → Option β} {n : ℕ} (full : free t n = ∅) {i : ℕ} (inside : i < n) :
    t i ≠ none :=
  fun empty => (Set.eq_empty_iff_forall_notMem.1 full) i ⟨inside, empty⟩

theorem held_of_lt_least {t : ℕ → Option β} {n i j : ℕ} (least : IsLeast (free t n) i)
    (before : j < i) : t j ≠ none :=
  fun empty => absurd (least.2 ⟨before.trans least.1.1, empty⟩) (not_le.2 before)

/-- The values held by the first `n` slots. -/
def occupied (t : ℕ → Option β) (n : ℕ) : List β := (List.range n).filterMap t

theorem occupied_succ (t : ℕ → Option β) (n : ℕ) :
    occupied t (n + 1) = occupied t n ++ (t n).toList := by
  rw [occupied, List.range_succ, List.filterMap_append, occupied]
  cases h : t n <;> simp [h]

theorem occupied_free {t : ℕ → Option β} {n : ℕ} (free : ∀ i < n, t i = none) :
    occupied t n = [] :=
  List.filterMap_eq_nil_iff.2 fun i hi => free i (List.mem_range.1 hi)

theorem occupied_update_of_le (t : ℕ → Option β) {n i : ℕ} (h : n ≤ i) (v : Option β) :
    occupied (Function.update t i v) n = occupied t n := by
  apply List.filterMap_congr
  intro j hj
  have := List.mem_range.1 hj
  rw [Function.update_of_ne (by omega)]

variable [BEq β]

/-- A write to a slot exchanges its content. -/
theorem count_occupied_update (t : ℕ → Option β) {n i : ℕ} (h : i < n) (v : Option β) (b : β) :
    (occupied (Function.update t i v) n).count b + (t i).toList.count b =
      (occupied t n).count b + v.toList.count b := by
  induction n with
  | zero => omega
  | succ n ih =>
    rw [occupied_succ, occupied_succ, List.count_append, List.count_append]
    rcases Nat.lt_succ_iff_lt_or_eq.1 h with before | rfl
    · have := ih before
      rw [Function.update_of_ne (by omega)]
      omega
    · rw [occupied_update_of_le t le_rfl, Function.update_self]
      omega

theorem count_occupied_put {t : ℕ → Option β} {n i : ℕ} (h : i < n) (free : t i = none) (b c : β) :
    (occupied (Function.update t i (some b)) n).count c =
      (occupied t n).count c + [b].count c := by
  have := count_occupied_update t h (some b) c
  rwa [free] at this

theorem count_occupied_clear {t : ℕ → Option β} {n i : ℕ} {b : β} (h : i < n) (held : t i = some b)
    (c : β) : (occupied (Function.update t i none) n).count c + [b].count c =
      (occupied t n).count c := by
  have := count_occupied_update t h none c
  rwa [held] at this

end Sysjs.Slots
