import Mathlib.Data.Finset.Insert
import Mathlib.Data.Set.Card

/-!
# Marking with a list of things to do

Everything that can be reached from some roots is found by keeping the things seen and a list of
those whose successors are still to be visited.  A thing is put on the list when it is first seen.
-/

set_option autoImplicit false

namespace Sysjs.Worklist

variable {α : Type*}

/-- What can be reached from the roots. -/
inductive Reach (next : α → List α) (roots : List α) : α → Prop where
  | root {x : α} (among : x ∈ roots) : Reach next roots x
  | next {x y : α} (from_x : Reach next roots x) (child : y ∈ next x) : Reach next roots y

variable [DecidableEq α]

/-- The things seen, those still on the list, and those that were taken from it. -/
structure Marks (α : Type*) where
  seen : Finset α
  todo : List α
  done : List α

namespace Marks

/-- Nothing is seen yet. -/
def start : Marks α := { seen := ∅, todo := [], done := [] }

/-- A thing is put on the list if it was not seen before. -/
def visit (m : Marks α) (x : α) : Marks α :=
  if x ∈ m.seen then m else { m with seen := insert x m.seen, todo := x :: m.todo }

/-- The first thing of the list is done: its successors are visited. -/
def advance (next : α → List α) (m : Marks α) : Marks α :=
  match m.todo with
  | [] => m
  | x :: todo => (next x).foldl visit { m with todo := todo, done := x :: m.done }

/-- What holds of the marks when the things of `due` have yet to be visited. -/
structure Sound (next : α → List α) (roots due : List α) (m : Marks α) : Prop where
  parts : ∀ x, x ∈ m.seen ↔ x ∈ m.todo ∨ x ∈ m.done
  nodup : (m.todo ++ m.done).Nodup
  reach : ∀ x ∈ m.seen, Reach next roots x
  closed : ∀ x ∈ m.done, ∀ y ∈ next x, y ∈ m.seen ∨ y ∈ due
  rooted : ∀ x ∈ roots, x ∈ m.seen ∨ x ∈ due

variable {next : α → List α} {roots due : List α} {m : Marks α} {x : α}

omit [DecidableEq α] in
theorem start_sound (next : α → List α) (roots : List α) :
    (start : Marks α).Sound next roots roots where
  parts x := by simp [start]
  nodup := List.nodup_nil
  reach x h := absurd h (Finset.notMem_empty x)
  closed x h := absurd h List.not_mem_nil
  rooted x h := Or.inr h

theorem visit_sound (s : m.Sound next roots (x :: due)) (from_root : Reach next roots x) :
    (m.visit x).Sound next roots due := by
  have settle {y : α} (h : y ∈ m.seen ∨ y ∈ x :: due) : y ∈ insert x m.seen ∨ y ∈ due := by
    rw [Finset.mem_insert]
    rcases h with seen | among
    · exact Or.inl (Or.inr seen)
    · exact (List.mem_cons.1 among).imp Or.inl id
  unfold visit
  split
  · next seen =>
    have same : insert x m.seen = m.seen := Finset.insert_eq_self.2 seen
    rw [same] at settle
    exact ⟨s.parts, s.nodup, s.reach, fun y h z child => settle (s.closed y h z child),
      fun y h => settle (s.rooted y h)⟩
  · next new =>
    have absent : x ∉ m.todo ++ m.done := by
      rw [List.mem_append, ← s.parts]
      exact new
    refine ⟨fun y => ?_, List.nodup_cons.2 ⟨absent, s.nodup⟩, fun y h => ?_,
      fun y h z child => settle (s.closed y h z child), fun y h => settle (s.rooted y h)⟩
    · rw [Finset.mem_insert, s.parts, List.mem_cons, or_assoc]
    · rcases Finset.mem_insert.1 h with rfl | old
      · exact from_root
      · exact s.reach y old

theorem visitAll_done (m : Marks α) (xs : List α) : (xs.foldl visit m).done = m.done := by
  induction xs generalizing m with
  | nil => rfl
  | cons x xs ih =>
    rw [List.foldl_cons, ih, visit]
    split <;> rfl

theorem visitAll_sound {xs : List α} (s : m.Sound next roots xs)
    (from_root : ∀ x ∈ xs, Reach next roots x) : (xs.foldl visit m).Sound next roots [] := by
  induction xs generalizing m with
  | nil => exact s
  | cons x xs ih =>
    obtain ⟨first, later⟩ := List.forall_mem_cons.1 from_root
    exact ih (visit_sound s first) later

theorem advance_sound (s : m.Sound next roots []) : (m.advance next).Sound next roots [] := by
  unfold advance
  split
  · exact s
  · next x todo here =>
    have reached : Reach next roots x := s.reach x ((s.parts x).2 (Or.inl (by simp [here])))
    have nodup := s.nodup
    rw [here] at nodup
    refine visitAll_sound ⟨fun y => ?_, ?_, s.reach, fun y h z child => ?_, fun y h => ?_⟩
      fun y child => reached.next child
    · rw [s.parts, here, List.mem_cons, List.mem_cons]
      tauto
    · exact (List.perm_middle.nodup_iff).2 nodup
    · rcases List.mem_cons.1 h with rfl | old
      · exact Or.inr child
      · exact (s.closed y old z child).imp id (absurd · List.not_mem_nil)
    · exact (s.rooted y h).imp id (absurd · List.not_mem_nil)

omit [DecidableEq α] in
/-- When the list is empty, what was taken from it is what can be reached, each thing once. -/
theorem Sound.ended (s : m.Sound next roots []) (empty : m.todo = []) :
    m.done.Nodup ∧ ∀ x, x ∈ m.done ↔ Reach next roots x := by
  have nodup := s.nodup
  rw [empty, List.nil_append] at nodup
  have seen (x : α) : x ∈ m.seen ↔ x ∈ m.done := by
    rw [s.parts, empty]
    simp
  refine ⟨nodup, fun x => ⟨fun h => s.reach x ((seen x).2 h), fun h => ?_⟩⟩
  induction h with
  | root among => exact (seen _).1 ((s.rooted _ among).resolve_right List.not_mem_nil)
  | next _ child ih => exact (seen _).1 ((s.closed _ ih _ child).resolve_right List.not_mem_nil)

theorem Sound.count (s : m.Sound next roots []) (empty : m.todo = []) (p : α → Bool) :
    m.done.countP p = {x | Reach next roots x ∧ p x = true}.ncard := by
  obtain ⟨nodup, same⟩ := s.ended empty
  have listed : {x | Reach next roots x ∧ p x = true} = ↑(m.done.filter p).toFinset := by
    ext x
    simp [same]
  rw [listed, Set.ncard_coe_finset, List.toFinset_card_of_nodup (nodup.filter _),
    List.countP_eq_length_filter]

end Marks

end Sysjs.Worklist
