import Mathlib.Tactic.Common
import Mathlib.Logic.Function.Basic

/-!
# Who holds which resource

Holders hold at most one resource each.  `Sole`: what is held is open, and held once.  `Custody`:
also, whatever is open is held, so that nothing has leaked.  A holder gives a resource up when it is
closed, or takes one that was just opened.
-/

set_option autoImplicit false

namespace Sysjs

variable {ι κ : Type*}

/-- Every held resource is open and has one holder. -/
structure Sole (holds : ι → Option κ) (isOpen : κ → Prop) : Prop where
  opened : ∀ i r, holds i = some r → isOpen r
  alone : ∀ i j r, holds i = some r → holds j = some r → i = j

/-- The open resources are the held ones, and each has one holder. -/
structure Custody (holds : ι → Option κ) (isOpen : κ → Prop) : Prop extends Sole holds isOpen where
  held : ∀ r, isOpen r → ∃ i, holds i = some r

variable {holds : ι → Option κ} {isOpen isOpen' : κ → Prop}

theorem Sole.none (isOpen : κ → Prop) : Sole (fun _ : ι => Option.none) isOpen where
  opened i r h := by cases h
  alone i j r h := by cases h

theorem Custody.none {isOpen : κ → Prop} (closed : ∀ r, ¬ isOpen r) :
    Custody (fun _ : ι => Option.none) isOpen where
  toSole := Sole.none isOpen
  held r h := absurd h (closed r)

theorem Sole.mono (c : Sole holds isOpen) (more : ∀ r, isOpen r → isOpen' r) :
    Sole holds isOpen' where
  opened i r h := more r (c.opened i r h)
  alone := c.alone

variable [DecidableEq ι]

/-- A holder gives up what it holds. -/
theorem Sole.drop (c : Sole holds isOpen) (i : ι)
    (keeps : ∀ r, isOpen r → holds i ≠ some r → isOpen' r) :
    Sole (Function.update holds i Option.none) isOpen' where
  opened j r h := by
    by_cases same : j = i
    · rw [same, Function.update_self] at h
      cases h
    · rw [Function.update_of_ne same] at h
      exact keeps r (c.opened j r h) fun here => same (c.alone j i r h here)
  alone j j' r h h' := by
    by_cases same : j = i
    · rw [same, Function.update_self] at h
      cases h
    · by_cases same' : j' = i
      · rw [same', Function.update_self] at h'
        cases h'
      · rw [Function.update_of_ne same] at h
        rw [Function.update_of_ne same'] at h'
        exact c.alone j j' r h h'

/-- A holder may hold a resource in place of what it held if and only if that one is open and nobody
else holds it. -/
theorem Sole.put_iff (c : Sole holds isOpen) (i : ι) (r : κ) :
    Sole (Function.update holds i (some r)) isOpen ↔ isOpen r ∧ ∀ j, j ≠ i → holds j ≠ some r := by
  constructor
  · intro after
    have here : Function.update holds i (some r) i = some r := Function.update_self _ _ _
    refine ⟨after.opened i r here, fun j other holder => other (after.alone j i r ?_ here)⟩
    rwa [Function.update_of_ne other]
  · rintro ⟨opened, only⟩
    refine ⟨fun j r' h => ?_, fun j j' r' h h' => ?_⟩
    · by_cases same : j = i
      · rw [same, Function.update_self] at h
        rwa [← Option.some.inj h]
      · rw [Function.update_of_ne same] at h
        exact c.opened j r' h
    · by_cases same : j = i
      · by_cases same' : j' = i
        · rw [same, same']
        · rw [same, Function.update_self] at h
          rw [Function.update_of_ne same', ← h] at h'
          exact absurd h' (only j' same')
      · rw [Function.update_of_ne same] at h
        by_cases same' : j' = i
        · rw [same', Function.update_self] at h'
          rw [← h'] at h
          exact absurd h (only j same)
        · rw [Function.update_of_ne same'] at h'
          exact c.alone j j' r' h h'

theorem Sole.take (c : Sole holds isOpen) (i : ι) {r : κ} (fresh : ¬ isOpen r) (opened : isOpen' r)
    (keeps : ∀ r', isOpen r' → isOpen' r') :
    Sole (Function.update holds i (some r)) isOpen' :=
  ((c.mono keeps).put_iff i r).2 ⟨opened, fun j _ holder => fresh (c.opened j r holder)⟩

theorem Custody.drop (c : Custody holds isOpen) (i : ι)
    (left : ∀ r, isOpen' r ↔ isOpen r ∧ holds i ≠ some r) :
    Custody (Function.update holds i Option.none) isOpen' where
  toSole := c.toSole.drop i fun r here other => (left r).2 ⟨here, other⟩
  held r h := by
    obtain ⟨here, other⟩ := (left r).1 h
    obtain ⟨j, holder⟩ := c.held r here
    have ne : j ≠ i := fun same => other (same ▸ holder)
    exact ⟨j, by rwa [Function.update_of_ne ne]⟩

/-- Taking a new resource keeps everything in custody if and only if the holder had none. -/
theorem Custody.take_iff (c : Custody holds isOpen) (i : ι) {r : κ} (fresh : ¬ isOpen r)
    (opened : ∀ r', isOpen' r' ↔ r' = r ∨ isOpen r') :
    Custody (Function.update holds i (some r)) isOpen' ↔ holds i = Option.none := by
  constructor
  · intro after
    by_contra idle
    obtain ⟨old, here⟩ := Option.ne_none_iff_exists'.1 idle
    obtain ⟨j, holder⟩ := after.held old ((opened old).2 (Or.inr (c.opened i old here)))
    by_cases same : j = i
    · rw [same, Function.update_self] at holder
      rw [Option.some.inj holder] at fresh
      exact fresh (c.opened i old here)
    · rw [Function.update_of_ne same] at holder
      exact same (c.alone j i old holder here)
  · intro idle
    refine ⟨c.toSole.take i fresh ((opened r).2 (Or.inl rfl)) fun r' here =>
      (opened r').2 (Or.inr here), fun r' here => ?_⟩
    rcases (opened r').1 here with rfl | old
    · exact ⟨i, Function.update_self _ _ _⟩
    · obtain ⟨j, holder⟩ := c.held r' old
      have ne : j ≠ i := by
        rintro rfl
        rw [idle] at holder
        cases holder
      exact ⟨j, by rwa [Function.update_of_ne ne]⟩

omit [DecidableEq ι] in
theorem Custody.not_leaked (c : Custody holds isOpen) {r : κ} (fresh : ¬ isOpen r)
    (opened : isOpen' r) : ¬ Custody holds isOpen' := by
  intro after
  obtain ⟨i, holder⟩ := after.held r opened
  exact fresh (c.opened i r holder)

end Sysjs
