import Mathlib.Logic.Function.Basic
import Mathlib.Data.List.Basic

/-!
# Storing a list of items in a map

The items are stored one after the other under their keys, so the last item of a key stays.
-/

set_option autoImplicit false

namespace Sysjs

variable {ι κ ν : Type*} [DecidableEq κ] (key : ι → κ) (val : ι → ν)

/-- The map after each item has been stored under its key. -/
def updates (f : κ → ν) : List ι → κ → ν
  | [] => f
  | x :: items => updates (Function.update f (key x) (val x)) items

theorem updates_append (f : κ → ν) (before after : List ι) :
    updates key val f (before ++ after) = updates key val (updates key val f before) after := by
  induction before generalizing f with
  | nil => rfl
  | cons x before ih => exact ih _

theorem updates_of_forall_ne (f : κ → ν) {items : List ι} {k : κ}
    (absent : ∀ x ∈ items, key x ≠ k) : updates key val f items k = f k := by
  induction items generalizing f with
  | nil => rfl
  | cons x items ih =>
    have kept := ih (Function.update f (key x) (val x))
      fun y later => absent y (List.mem_cons_of_mem _ later)
    exact kept.trans (Function.update_of_ne (absent x List.mem_cons_self).symm _ _)

theorem updates_last (f : κ → ν) (before : List ι) {x : ι} {after : List ι}
    (last : ∀ y ∈ after, key y ≠ key x) :
    updates key val f (before ++ x :: after) (key x) = val x := by
  rw [updates_append, updates, updates_of_forall_ne key val _ last]
  exact Function.update_self _ _ _

/-- A key is that of no item, or of a last one. -/
theorem absent_or_last (items : List ι) (k : κ) :
    (∀ x ∈ items, key x ≠ k) ∨
      ∃ before x after, items = before ++ x :: after ∧ key x = k ∧ ∀ y ∈ after, key y ≠ k := by
  induction items with
  | nil => exact Or.inl fun x among => absurd among List.not_mem_nil
  | cons first items ih =>
    rcases ih with absent | ⟨before, x, after, rfl, found, last⟩
    · by_cases here : key first = k
      · exact Or.inr ⟨[], first, items, rfl, here, absent⟩
      · exact Or.inl (List.forall_mem_cons.2 ⟨here, absent⟩)
    · exact Or.inr ⟨first :: before, x, after, rfl, found, last⟩

end Sysjs
