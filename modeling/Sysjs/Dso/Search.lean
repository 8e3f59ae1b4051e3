import Sysjs.Dso.Handles
import Sysjs.Foundation.Runs
import Sysjs.Foundation.Slots

/-!
# The search for a free slot

The loop of `JS_DSOLoad` tests the entry before the bound.  What it finds is right for every table,
but in a full one it looks at the entry behind the end.
-/

set_option autoImplicit false

namespace Sysjs.Dso

open Runs

variable {H : Type}

/-- `for (id = 0; dso_handle[id] != NULL && id < n; id++)` as it is written, from `id` on: where it
stops and the indices it looks at. -/
def slotLoop (dsoHandle : ℕ → Option H) (n id : ℕ) : ℕ × List ℕ :=
  if (dsoHandle id).isSome ∧ id < n then
    ((slotLoop dsoHandle n (id + 1)).1, id :: (slotLoop dsoHandle n (id + 1)).2)
  else (id, [id])
termination_by n - id

/-- The search in a table of `n` entries, with the test behind it, and the indices it looks at. -/
def searchSlot (dsoHandle : ℕ → Option H) (n : ℕ) : Except String ℕ × List ℕ :=
  let loop := slotLoop dsoHandle n 0
  if loop.1 = n then (.error "no more free DSO handle slots available", loop.2)
  else (.ok loop.1, loop.2)

/-- What the search should do: look only at entries of the table, end with the least free one or
with the error, and not depend on the memory behind the table. -/
structure Searches (dsoHandle : ℕ → Option H) (n : ℕ) : Prop where
  inside : ∀ i ∈ (searchSlot dsoHandle n).2, i < n
  least : ∀ i, IsLeast (Slots.free dsoHandle n) i → (searchSlot dsoHandle n).1 = .ok i
  full : Slots.free dsoHandle n = ∅ →
    (searchSlot dsoHandle n).1 = .error "no more free DSO handle slots available"
  apart : ∀ other : ℕ → Option H, (∀ i < n, other i = dsoHandle i) →
    (searchSlot other n).1 = (searchSlot dsoHandle n).1

/-! ### The loop -/

section Loop

variable {t : ℕ → Option H} {n id : ℕ}

theorem slotLoop_of_held (held : t id ≠ none) (inside : id < n) :
    slotLoop t n id = ((slotLoop t n (id + 1)).1, id :: (slotLoop t n (id + 1)).2) := by
  rw [slotLoop, if_pos ⟨Option.isSome_iff_ne_none.2 held, inside⟩]

theorem slotLoop_of_free (empty : t id = none) : slotLoop t n id = (id, [id]) := by
  rw [slotLoop, if_neg (by simp [empty])]

theorem slotLoop_end (t : ℕ → Option H) (n : ℕ) : slotLoop t n n = (n, [n]) := by
  rw [slotLoop, if_neg (by simp)]

/-- `findSlot` is the loop with `n - id` counted down. -/
theorem slotLoop_eq_findSlot (t : ℕ → Option H) (left id : ℕ) :
    slotLoop t (id + left) id = findSlot t left id := by
  induction left generalizing id with
  | zero => exact slotLoop_end t id
  | succ left ih =>
    have later := ih (id + 1)
    rw [Nat.add_right_comm, Nat.add_assoc] at later
    rw [findSlot]
    cases here : t id with
    | none => rw [slotLoop_of_free here, Option.isSome_none, if_neg Bool.false_ne_true]
    | some h =>
      rw [slotLoop_of_held (by simp [here]) (by omega), later, Option.isSome_some, if_pos rfl]

/-- The loop stops at the first place `i` that is free or the bound, and has looked at every index
up to there. -/
theorem slotLoop_eq {i : ℕ} (low : id ≤ i) (high : i ≤ n)
    (held : ∀ j, id ≤ j → j < i → t j ≠ none) (stops : i < n → t i = none) :
    slotLoop t n id = (i, List.range' id (i + 1 - id)) := by
  obtain ⟨k, rfl⟩ := Nat.exists_eq_add_of_le low
  induction k generalizing id with
  | zero =>
    rw [Nat.add_zero] at high stops ⊢
    rw [Nat.add_sub_cancel_left, List.range'_one]
    rcases high.lt_or_eq with inside | rfl
    · exact slotLoop_of_free (stops inside)
    · exact slotLoop_end t id
  | succ k ih =>
    have next : id + 1 + k = id + (k + 1) := by omega
    have later : slotLoop t n (id + 1) =
        (id + 1 + k, List.range' (id + 1) (id + 1 + k + 1 - (id + 1))) :=
      ih (by omega) (by omega) (fun j after before => held j (by omega) (by omega))
        fun inside => next ▸ stops (by omega)
    have count : id + (k + 1) + 1 - id = (id + 1 + k + 1 - (id + 1)) + 1 := by omega
    rw [slotLoop_of_held (held id le_rfl (by omega)) (by omega), later, count, List.range'_succ,
      next]

theorem slotLoop_of_least {i : ℕ} (least : IsLeast (Slots.free t n) i) :
    slotLoop t n 0 = (i, List.range (i + 1)) := by
  obtain ⟨inside, empty⟩ := least.1
  rw [List.range_eq_range']
  exact slotLoop_eq (Nat.zero_le i) inside.le
    (fun j _ before => Slots.held_of_lt_least least before) fun _ => empty

theorem slotLoop_of_full (full : Slots.free t n = ∅) :
    slotLoop t n 0 = (n, List.range (n + 1)) := by
  rw [List.range_eq_range']
  exact slotLoop_eq (Nat.zero_le n) le_rfl
    (fun j _ before => Slots.held_of_full full before) fun inside => absurd inside (lt_irrefl n)

end Loop

/-! ### The search -/

section Search

variable {t : ℕ → Option H} {n : ℕ}

theorem searchSlot_of_least {i : ℕ} (least : IsLeast (Slots.free t n) i) :
    searchSlot t n = (.ok i, List.range (i + 1)) := by
  rw [searchSlot, slotLoop_of_least least]
  exact if_neg least.1.1.ne

theorem searchSlot_of_full (full : Slots.free t n = ∅) :
    searchSlot t n =
      (.error "no more free DSO handle slots available", List.range (n + 1)) := by
  rw [searchSlot, slotLoop_of_full full]
  exact if_pos rfl

/-- The search does not depend on the memory behind the table. -/
theorem searchSlot_congr {other : ℕ → Option H} (same : ∀ i < n, other i = t i) :
    searchSlot other n = searchSlot t n := by
  have free := Slots.free_congr same
  rcases Slots.isLeast_or_full t n with ⟨i, least⟩ | full
  · rw [searchSlot_of_least least, searchSlot_of_least (free ▸ least)]
  · rw [searchSlot_of_full full, searchSlot_of_full (free.trans full)]

end Search

/-! ### The search in `JS_DSOLoad` -/

section Load

variable {s : State H} {filename : String} {dlopen : String → Option H}

theorem findSlot_eq_slotLoop (t : ℕ → Option H) (n : ℕ) : findSlot t n 0 = slotLoop t n 0 := by
  rw [← slotLoop_eq_findSlot, Nat.zero_add]

theorem jsDSOLoad_of_full (full : Slots.free s.dsoHandle tableSize = ∅) (hasHook : Bool) :
    jsDSOLoad s filename dlopen hasHook =
      (.error "no more free DSO handle slots available", s) := by
  rw [jsDSOLoad, findSlot_eq_slotLoop, slotLoop_of_full full]
  exact if_pos rfl

/-- The hook runs with the least free slot chosen. -/
theorem jsDSOLoad_of_least {i : ℕ} (least : IsLeast (Slots.free s.dsoHandle tableSize) i)
    {handle : H} (opens : openLibrary filename dlopen = some handle) :
    jsDSOLoad s filename dlopen true =
      (.hook, { s with opened := handle :: s.opened, frames := .load i handle :: s.frames }) := by
  rw [jsDSOLoad, findSlot_eq_slotLoop, slotLoop_of_least least, opens]
  exact if_neg least.1.1.ne

theorem final_load {i : ℕ} (least : IsLeast (Slots.free s.dsoHandle tableSize) i) {handle : H}
    (opens : openLibrary filename dlopen = some handle) (es : List (Event H)) :
    final step s (.load filename dlopen true :: .hookReturns true :: es) =
      final step { s with
        opened := handle :: s.opened
        dsoHandle := Function.update s.dsoHandle i (some handle)
        live := (i, handle) :: s.live } es := by
  have chosen := congrArg some (jsDSOLoad_of_least least opens)
  rw [final_cons_of_some _ chosen, final_cons_of_some _ rfl]

end Load

/-! ### A full table -/

/-- Loads one after another, none of them from the hook of another one. -/
def loadAll (libs : List (String × H)) : List (Event H) :=
  libs.flatMap fun lib => [.load lib.1 (fun _ => some lib.2) true, .hookReturns true]

/-- They fill the table from the front. -/
theorem loadAll_fills {s : State H} {held : List H} (libs : List (String × H))
    (filled : ∀ i < tableSize, s.dsoHandle i = held[i]?)
    (room : held.length + libs.length ≤ tableSize) :
    ∀ i < tableSize,
      (final step s (loadAll libs)).dsoHandle i = (held ++ libs.map Prod.snd)[i]? := by
  induction libs generalizing s held with
  | nil =>
    intro i inside
    rw [List.map_nil, List.append_nil]
    exact filled i inside
  | cons lib libs ih =>
    rw [List.length_cons] at room
    have least : IsLeast (Slots.free s.dsoHandle tableSize) held.length := by
      refine ⟨⟨by omega, ?_⟩, ?_⟩
      · rw [filled _ (by omega), List.getElem?_eq_none le_rfl]
      · rintro j ⟨inside, empty⟩
        rwa [filled j inside, List.getElem?_eq_none_iff] at empty
    have events : loadAll (lib :: libs) =
        .load lib.1 (fun _ => some lib.2) true :: .hookReturns true :: loadAll libs := rfl
    have next : ∀ i < tableSize,
        Function.update s.dsoHandle held.length (some lib.2) i = (held ++ [lib.2])[i]? := by
      intro i inside
      rcases lt_trichotomy i held.length with before | rfl | behind
      · rw [Function.update_of_ne before.ne, filled i inside, List.getElem?_append_left before]
      · rw [Function.update_self, List.getElem?_concat_length]
      · rw [Function.update_of_ne behind.ne', filled i inside, List.getElem?_eq_none behind.le,
          List.getElem?_eq_none (by rw [List.length_append]; exact behind)]
    rw [events, final_load least rfl, List.map_cons, List.append_cons]
    apply ih next
    rw [List.length_append, List.length_singleton]
    omega

/-- As many loads as there are entries leave no slot free. -/
theorem loadAll_full (behind : ℕ → Option H) {libs : List (String × H)}
    (count : libs.length = tableSize) :
    Slots.free (final step (start behind) (loadAll libs)).dsoHandle tableSize = ∅ := by
  have filled : ∀ i < tableSize,
      (final step (start behind) (loadAll libs)).dsoHandle i = ([] ++ libs.map Prod.snd)[i]? :=
    loadAll_fills libs (fun i inside => if_pos inside)
      (by rw [count, List.length_nil, Nat.zero_add])
  refine Set.eq_empty_of_forall_notMem ?_
  rintro i ⟨inside, empty⟩
  rw [filled i inside, List.nil_append, List.getElem?_eq_none_iff, List.length_map, count] at empty
  exact absurd inside (not_lt.2 empty)

/-- In a full table it looks at the entry behind the end. -/
theorem not_searches_of_full {t : ℕ → Option H} {n : ℕ} (full : Slots.free t n = ∅) :
    ¬ Searches t n := by
  intro searches
  have looked : n ∈ (searchSlot t n).2 := by
    rw [searchSlot_of_full full]
    exact List.self_mem_range_succ
  exact absurd (searches.inside n looked) (lt_irrefl n)

/-- The search does what it should exactly when a slot is free. -/
theorem searchSlot_sound_iff (dsoHandle : ℕ → Option H) (n : ℕ) :
    Searches dsoHandle n ↔ ∃ i < n, dsoHandle i = none := by
  constructor
  · intro searches
    rcases Slots.isLeast_or_full dsoHandle n with ⟨i, ⟨inside, empty⟩, -⟩ | full
    · exact ⟨i, inside, empty⟩
    · exact absurd searches (not_searches_of_full full)
  · rintro ⟨i, inside, empty⟩
    refine ⟨?_, ?_, ?_, fun other same => by rw [searchSlot_congr same]⟩
    · rcases Slots.isLeast_or_full dsoHandle n with ⟨j, least⟩ | full
      · intro k looked
        rw [searchSlot_of_least least, List.mem_range] at looked
        exact (Nat.lt_succ_iff.1 looked).trans_lt least.1.1
      · exact absurd empty (Slots.held_of_full full inside)
    · intro j least
      rw [searchSlot_of_least least]
    · intro full
      rw [searchSlot_of_full full]

/-- Behind 10000 loads the next one looks at the entry 10000. -/
theorem searchSlot_sound_not_full :
    ¬ Searches (final step (start fun _ => none)
      (loadAll (List.replicate tableSize ("a", 1)))).dsoHandle tableSize :=
  not_searches_of_full (loadAll_full (fun _ => none) List.length_replicate)

end Sysjs.Dso
