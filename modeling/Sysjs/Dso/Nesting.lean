import Sysjs.Foundation.Runs
import Sysjs.Foundation.Slots
import Sysjs.Dso.Handles

/-!
# The handle table under nested calls

A load chooses its slot before the hook of the library runs and writes it afterwards; an unload
looks its handle up before the hook and releases it afterwards.  The table stays consistent as long
as the calls that a hook makes leave that one slot alone.
-/

set_option autoImplicit false

namespace Sysjs.Dso

open Runs Slots

variable {H : Type} [DecidableEq H]

/-- The reference that a load in progress has of its own. -/
def Frame.loading : Frame H → Option H
  | .load _ handle => some handle
  | .unload _ _ => none

def Frame.id : Frame H → ℕ
  | .load id _ => id
  | .unload id _ => id

/-- The references of the loads in progress. -/
def State.loading (s : State H) : List H := s.frames.filterMap Frame.loading

def State.occupied (s : State H) : List H := Slots.occupied s.dsoHandle tableSize

/-- The references to `h` that are not released and do not belong to a load in progress. -/
def State.settled (s : State H) (h : H) : ℤ :=
  s.opened.count h - s.released.count h - s.loading.count h

/-- The loaded DSOs have different ids and their handles are in the table; the references to each
handle that are not released are those of the table and of the loads in progress. -/
structure Consistent (s : State H) : Prop where
  distinct : (s.live.map Prod.fst).Nodup
  recorded : ∀ l ∈ s.live, s.dsoHandle l.1 = some l.2
  references : ∀ h, s.opened.count h =
    s.released.count h + (s.occupied.count h + s.loading.count h)

/-- What an event with the result `r` is to leave behind. -/
structure Safe (s : State H) (r : Result) (s' : State H) : Prop where
  consistent : Consistent s'
  number : s'.opened.length = s'.released.length + (s'.occupied.length + s'.loading.length)
  once : ∀ h, s'.released.count h ≤ s'.opened.count h
  failed : ∀ format, r = .error format →
    s'.dsoHandle = s.dsoHandle ∧ ∀ h, s'.settled h = s.settled h

/-- When a hook returns true, the slot of its call is as the call found it before the hook. -/
def Undisturbed (s : State H) : Event H → Prop
  | .hookReturns true => match s.frames with
    | .load id _ :: _ => s.dsoHandle id = none
    | .unload id handle :: _ => s.dsoHandle id = some handle
    | [] => True
  | _ => True

/-- What every event preserves: handles in the table belong to loaded DSOs, and the calls in
progress have slots of the table. -/
structure Tracked (s : State H) : Prop where
  known : ∀ id < tableSize, ∀ h, s.dsoHandle id = some h → (id, h) ∈ s.live
  inside : ∀ f ∈ s.frames, f.id < tableSize

omit [DecidableEq H] in
theorem undisturbed_load {s : State H} {id : ℕ} {handle : H} {frames : List (Frame H)}
    (innermost : s.frames = .load id handle :: frames) :
    Undisturbed s (.hookReturns true) ↔ s.dsoHandle id = none := by
  simp [Undisturbed, innermost]

omit [DecidableEq H] in
theorem undisturbed_unload {s : State H} {id : ℕ} {handle : H} {frames : List (Frame H)}
    (innermost : s.frames = .unload id handle :: frames) :
    Undisturbed s (.hookReturns true) ↔ s.dsoHandle id = some handle := by
  simp [Undisturbed, innermost]

/-! ### The numbers -/

theorem Consistent.number {s : State H} (ok : Consistent s) :
    s.opened.length = s.released.length + (s.occupied.length + s.loading.length) := by
  have same : s.opened.Perm (s.released ++ (s.occupied ++ s.loading)) := by
    apply List.perm_iff_count.2
    intro h
    rw [List.count_append, List.count_append]
    exact ok.references h
  rw [same.length_eq, List.length_append, List.length_append]

theorem Consistent.once {s : State H} (ok : Consistent s) (h : H) :
    s.released.count h ≤ s.opened.count h := by
  have := ok.references h
  omega

/-! ### The two ends of a call -/

omit [DecidableEq H] in
theorem loading_load {s : State H} {id : ℕ} {handle : H} {frames : List (Frame H)}
    (innermost : s.frames = .load id handle :: frames) :
    s.loading = handle :: frames.filterMap Frame.loading := by
  rw [State.loading, innermost]
  rfl

omit [DecidableEq H] in
theorem loading_unload {s : State H} {id : ℕ} {handle : H} {frames : List (Frame H)}
    (innermost : s.frames = .unload id handle :: frames) :
    s.loading = frames.filterMap Frame.loading := by
  rw [State.loading, innermost]
  rfl

/-- Recording a load keeps the table consistent if and only if the slot is free. -/
theorem consistent_store_iff {s : State H} (ok : Consistent s) (tracked : Tracked s) {id : ℕ}
    {handle : H} {frames : List (Frame H)} (innermost : s.frames = .load id handle :: frames) :
    Consistent { s with
      frames := frames
      dsoHandle := Function.update s.dsoHandle id (some handle)
      live := (id, handle) :: s.live } ↔ s.dsoHandle id = none := by
  have inside : id < tableSize :=
    tracked.inside (.load id handle) (innermost ▸ List.mem_cons_self)
  constructor
  · intro after
    by_contra taken
    obtain ⟨h, held⟩ := Option.ne_none_iff_exists'.1 taken
    have twice := (List.nodup_cons.1 after.distinct).1
    exact twice (List.mem_map.2 ⟨(id, h), tracked.known id inside h held, rfl⟩)
  · intro free
    have fresh : ∀ l ∈ s.live, l.1 ≠ id := by
      intro l hl same
      have := ok.recorded l hl
      rw [same, free] at this
      cases this
    refine ⟨List.nodup_cons.2 ⟨?_, ok.distinct⟩, ?_, ?_⟩
    · intro again
      obtain ⟨l, hl, same⟩ := List.mem_map.1 again
      exact fresh l hl same
    · intro l hl
      rcases List.mem_cons.1 hl with rfl | old
      · exact Function.update_self _ _ _
      · show Function.update s.dsoHandle id (some handle) l.1 = some l.2
        rw [Function.update_of_ne (fresh l old)]
        exact ok.recorded l old
    · intro h
      have before := ok.references h
      have put := count_occupied_put inside free handle h
      rw [loading_load innermost, List.count_cons] at before
      rw [List.count_singleton] at put
      show s.opened.count h = s.released.count h +
        ((Slots.occupied _ tableSize).count h + (frames.filterMap Frame.loading).count h)
      rw [put]
      unfold State.occupied at before
      omega

/-- Releasing a handle and clearing a slot keeps the table consistent if and only if the slot holds
that handle. -/
theorem consistent_release_iff {s : State H} (ok : Consistent s) {id : ℕ} (inside : id < tableSize)
    (handle : H) : Consistent (release s id handle).2 ↔ s.dsoHandle id = some handle := by
  constructor
  · intro after
    by_contra other
    have before := ok.references handle
    have balance := after.references handle
    have cleared := count_occupied_update s.dsoHandle inside none handle
    have different : (s.dsoHandle id).toList.count handle = 0 := by
      cases held : s.dsoHandle id with
      | none => rfl
      | some h =>
        refine List.count_eq_zero.2 fun mem => other ?_
        rw [held, List.mem_singleton.1 mem]
    unfold State.occupied at before
    simp only [release, State.occupied, List.count_cons_self] at balance
    rw [different] at cleared
    simp only [Option.toList_none, List.count_nil] at cleared
    unfold State.loading at before balance
    dsimp only at balance
    omega
  · intro held
    refine ⟨ok.distinct.sublist (List.filter_sublist.map _), ?_, ?_⟩
    · intro l hl
      obtain ⟨old, other⟩ := List.mem_filter.1 hl
      show Function.update s.dsoHandle id none l.1 = some l.2
      rw [Function.update_of_ne (by simpa using other)]
      exact ok.recorded l old
    · intro h
      have before := ok.references h
      have cleared := count_occupied_clear inside held h
      rw [List.count_singleton] at cleared
      show s.opened.count h = (handle :: s.released).count h +
        ((Slots.occupied (Function.update s.dsoHandle id none) tableSize).count h +
          s.loading.count h)
      rw [List.count_cons]
      unfold State.occupied at before
      omega

/-! ### Every event -/

omit [DecidableEq H] in
theorem start_tracked (behind : ℕ → Option H) : Tracked (start behind) where
  known id inside h held := by
    have free : (start behind).dsoHandle id = none := if_pos inside
    rw [free] at held
    cases held
  inside f hf := by cases hf

theorem start_consistent (behind : ℕ → Option H) : Consistent (start behind) where
  distinct := List.nodup_nil
  recorded l hl := by cases hl
  references h := by
    have empty : (start behind).occupied = [] := occupied_free fun i inside => if_pos inside
    rw [empty]
    rfl

omit [DecidableEq H] in
theorem release_tracked {s : State H} (tracked : Tracked s) (id : ℕ) (handle : H) :
    Tracked (release s id handle).2 where
  known i inside h held := by
    have held : Function.update s.dsoHandle id none i = some h := held
    by_cases same : i = id
    · rw [same, Function.update_self] at held
      cases held
    · rw [Function.update_of_ne same] at held
      exact List.mem_filter.2 ⟨tracked.known i inside h held, by simpa using same⟩
  inside := tracked.inside

omit [DecidableEq H] in
theorem Tracked.pop {s : State H} {f : Frame H} {frames : List (Frame H)} (tracked : Tracked s)
    (innermost : s.frames = f :: frames) : Tracked { s with frames := frames } where
  known := tracked.known
  inside g hg := tracked.inside g (innermost ▸ List.mem_cons_of_mem _ hg)

omit [DecidableEq H] in
theorem Tracked.push {s : State H} {f : Frame H} (tracked : Tracked s) (inside : f.id < tableSize) :
    Tracked { s with frames := f :: s.frames } where
  known := tracked.known
  inside g hg := by
    rcases List.mem_cons.1 hg with rfl | old
    · exact inside
    · exact tracked.inside g old

omit [DecidableEq H] in
theorem step_tracked {s s' : State H} {e : Event H} {r : Result} (tracked : Tracked s)
    (h : step s e = some (r, s')) : Tracked s' := by
  have spec := step_spec h
  cases spec with
  | refused begins format => exact tracked
  | unresolved format handle => exact ⟨tracked.known, tracked.inside⟩
  | loading id handle inside =>
    have pushed := tracked.push (f := .load id handle) inside
    exact ⟨pushed.known, pushed.inside⟩
  | unloading handle inside held => exact tracked.push inside
  | dropped handle inside held => exact release_tracked tracked _ _
  | stored id handle frames innermost =>
    refine ⟨fun i inside h held => ?_, (tracked.pop innermost).inside⟩
    have held : Function.update s.dsoHandle id (some handle) i = some h := held
    by_cases same : i = id
    · rw [same, Function.update_self] at held
      rw [same, Option.some.inj held]
      exact List.mem_cons_self
    · rw [Function.update_of_ne same] at held
      exact List.mem_cons_of_mem _ (tracked.known i inside h held)
  | undone format id handle frames innermost =>
    exact ⟨tracked.known, (tracked.pop innermost).inside⟩
  | unloaded id handle frames innermost =>
    exact release_tracked (tracked.pop innermost) id handle
  | kept format id handle frames innermost => exact tracked.pop innermost

omit [DecidableEq H] in
theorem undisturbed_of_ne {s : State H} {e : Event H} (h : e ≠ .hookReturns true) :
    Undisturbed s e := by
  unfold Undisturbed
  split
  · exact absurd rfl h
  · trivial

/-- An event leaves the table consistent if and only if it meets the condition. -/
theorem step_consistent_iff {s s' : State H} {e : Event H} {r : Result} (ok : Consistent s)
    (tracked : Tracked s) (h : step s e = some (r, s')) : Consistent s' ↔ Undisturbed s e := by
  have spec := step_spec h
  cases spec with
  | refused begins format => exact iff_of_true ok (undisturbed_of_ne (begins true))
  | unresolved format handle =>
    refine iff_of_true ⟨ok.distinct, ok.recorded, fun h => ?_⟩ (undisturbed_of_ne (by simp))
    have := ok.references h
    show (handle :: s.opened).count h = (handle :: s.released).count h +
      (s.occupied.count h + s.loading.count h)
    rw [List.count_cons, List.count_cons]
    omega
  | loading id handle inside =>
    refine iff_of_true ⟨ok.distinct, ok.recorded, fun h => ?_⟩ (undisturbed_of_ne (by simp))
    have := ok.references h
    show (handle :: s.opened).count h = s.released.count h +
      (s.occupied.count h + (handle :: s.loading).count h)
    rw [List.count_cons, List.count_cons]
    omega
  | unloading handle inside held =>
    exact iff_of_true ⟨ok.distinct, ok.recorded, ok.references⟩ (undisturbed_of_ne (by simp))
  | dropped handle inside held =>
    exact iff_of_true ((consistent_release_iff ok inside handle).2 held)
      (undisturbed_of_ne (by simp))
  | stored id handle frames innermost =>
    exact (consistent_store_iff ok tracked innermost).trans (undisturbed_load innermost).symm
  | undone format id handle frames innermost =>
    refine iff_of_true ⟨ok.distinct, ok.recorded, fun h => ?_⟩ (undisturbed_of_ne (by simp))
    have before := ok.references h
    rw [loading_load innermost, List.count_cons] at before
    show s.opened.count h = (handle :: s.released).count h +
      (s.occupied.count h + (frames.filterMap Frame.loading).count h)
    rw [List.count_cons]
    omega
  | unloaded id handle frames innermost =>
    have popped : Consistent { s with frames := frames } := by
      refine ⟨ok.distinct, ok.recorded, fun h => ?_⟩
      have before := ok.references h
      rwa [loading_unload innermost] at before
    have inside : id < tableSize :=
      tracked.inside (.unload id handle) (innermost ▸ List.mem_cons_self)
    exact (consistent_release_iff popped inside handle).trans (undisturbed_unload innermost).symm
  | kept format id handle frames innermost =>
    refine iff_of_true ⟨ok.distinct, ok.recorded, fun h => ?_⟩ (undisturbed_of_ne (by simp))
    have before := ok.references h
    rwa [loading_unload innermost] at before

/-- A call that fails leaves the table alone, and releases no reference but its own. -/
theorem step_failed {s s' : State H} {e : Event H} {format : String}
    (h : step s e = some (.error format, s')) :
    s'.dsoHandle = s.dsoHandle ∧ ∀ h, s'.settled h = s.settled h := by
  have spec := step_spec h
  cases spec with
  | refused begins => exact ⟨rfl, fun h => rfl⟩
  | unresolved format handle =>
    refine ⟨rfl, fun h => ?_⟩
    show ((handle :: s.opened).count h : ℤ) - (handle :: s.released).count h - s.loading.count h =
      s.opened.count h - s.released.count h - s.loading.count h
    rw [List.count_cons, List.count_cons]
    omega
  | undone format id handle frames innermost =>
    refine ⟨rfl, fun h => ?_⟩
    show (s.opened.count h : ℤ) - (handle :: s.released).count h -
      (frames.filterMap Frame.loading).count h =
      s.opened.count h - s.released.count h - s.loading.count h
    rw [loading_load innermost, List.count_cons, List.count_cons]
    omega
  | kept format id handle frames innermost =>
    refine ⟨rfl, fun h => ?_⟩
    show (s.opened.count h : ℤ) - s.released.count h - (frames.filterMap Frame.loading).count h =
      s.opened.count h - s.released.count h - s.loading.count h
    rw [loading_unload innermost]

/-- In every run, with calls nested to any depth, the table is consistent after every event if and
only if every hook that returns true has left the slot of its call alone. -/
theorem nested_calls_consistent_iff (behind : ℕ → Option H) (es : List (Event H)) :
    Along step (fun s _ r s' => Safe s r s') (start behind) es ↔
      Guarded step Undisturbed (start behind) es := by
  refine along_iff_guarded (fun s => Consistent s ∧ Tracked s) ?_ ?_ es
    ⟨start_consistent behind, start_tracked behind⟩
  · rintro s e r s' ⟨ok, tracked⟩ h
    rw [← step_consistent_iff ok tracked h]
    constructor
    · exact fun safe => safe.consistent
    · intro ok'
      refine ⟨ok', ok'.number, ok'.once, ?_⟩
      rintro format rfl
      exact step_failed h
  · rintro s e r s' ⟨-, tracked⟩ h safe
    exact ⟨safe.consistent, step_tracked tracked h⟩

/-- A library whose unload hook loads another one. -/
theorem nested_calls_consistent_iff_load_in_unload :
    Along step (fun s _ r s' => Safe s r s') (start fun _ => some 7)
      [.load "a" (fun _ => some 1) true, .hookReturns true, .unload 0 true,
        .load "b" (fun _ => some 2) true, .hookReturns true, .hookReturns true] := by
  apply (nested_calls_consistent_iff _ _).2
  refine guarded_cons trivial (guarded_cons ?_ (guarded_cons trivial (guarded_cons trivial
    (guarded_cons ?_ (guarded_cons ?_ trivial)))))
  · exact (undisturbed_load rfl).2 (by decide +kernel)
  · exact (undisturbed_load rfl).2 (by decide +kernel)
  · exact (undisturbed_unload rfl).2 (by decide +kernel)

/-- The hook of a library that is being loaded loads another one: both get the id 0. -/
theorem nested_calls_consistent_iff_not_load_in_load :
    ¬ Along step (fun s _ r s' => Safe s r s') (start fun _ => none)
      [.load "a" (fun _ => some 1) true, .load "b" (fun _ => some 2) true,
        .hookReturns true, .hookReturns true] :=
  not_along_of_last
    (fun _ _ (x : Result × State ℕ) => decide (x.2.live.map Prod.fst).Nodup)
    (fun (s : State ℕ) (_ : Event ℕ) r s' (safe : Safe s r s') =>
      decide_eq_true safe.consistent.distinct)
    [.load "a" (fun _ => some 1) true, .load "b" (fun _ => some 2) true, .hookReturns true]
    (.hookReturns true) (by decide +kernel) (by decide +kernel)

end Sysjs.Dso
