import Sysjs.Foundation.Custody
import Sysjs.Foundation.Runs
import Sysjs.Socket.World

/-!
# The descriptors of the module

Which descriptors the module has obtained and not closed, against the `sock` fields of the live
Sockets.  `bind` does not close the descriptor that it replaces, nor the one on which `listen`
fails.
-/

set_option autoImplicit false

namespace Sysjs

open Runs

variable {α : Type*}

/-- The descriptor in `sock`; `-1` is none. -/
def SockObj.descriptor (o : SockObj α) : Option ℤ := if o.sock = -1 then none else some o.sock

/-- A descriptor that the module obtained and has not closed. -/
def Kernel.Ours (k : Kernel α) (fd : ℤ) : Prop := k.Has fd fun d => d.ours = true

/-- The descriptors of the module are those in `sock` of the live Sockets, each in one of them, and
no descriptor was closed while it was not open. -/
structure Accounted (w : World α) : Prop where
  custody : Custody (w.holds SockObj.descriptor) w.kernel.Ours
  stray : w.kernel.stray = 0

/-- A call that does not build a Socket from a descriptor number. -/
def Call.Internal (c : Call α) : Prop := ∀ id heap n, c ≠ .construct id heap [.int n]

/-- The condition on a call: a `bind` for which an address works is called on a Socket without a
descriptor, and its `listen` succeeds. -/
def KeepsAccount (w : World α) : Call α → Prop
  | .bind id [.int _] found listens => found.works = true →
      listens = true ∧ ∀ o, w.objs id = some o → o.sock = -1
  | _ => True

/-- A system in which the module has obtained nothing yet. -/
def Kernel.external (fds : ℕ → Option (Desc α)) : Kernel α where
  fds n := (fds n).map fun d => { d with ours := false }
  stray := 0

/-! ### One call -/

theorem Kernel.ours_fresh_iff (k : Kernel α) {fd : ℤ} (low : 0 ≤ fd) (kind : FdKind)
    (stream : List α) (fd' : ℤ) :
    (k.fresh fd kind stream).Ours fd' ↔ fd' = fd ∨ k.Ours fd' := by
  by_cases same : fd' = fd
  · rw [same]
    exact iff_of_true (Kernel.has_fresh_self low rfl) (Or.inl rfl)
  · exact (Kernel.has_fresh_of_ne same kind stream).trans (or_iff_right same).symm

theorem Kernel.external_not_ours (fds : ℕ → Option (Desc α)) (fd : ℤ) :
    ¬ (Kernel.external fds).Ours fd := by
  rintro ⟨d, opened, ours⟩
  unfold Kernel.desc Kernel.external at opened
  split at opened
  · obtain ⟨d', -, rfl⟩ := Option.map_eq_some_iff.1 opened
    cases ours
  · cases opened

theorem descriptor_of_sock {o : SockObj α} (h : o.sock = -1) : o.descriptor = none := if_pos h

theorem descriptor_of_ne {o : SockObj α} (h : o.sock ≠ -1) : o.descriptor = some o.sock := if_neg h

theorem descriptor_none_iff {o : SockObj α} : o.descriptor = none ↔ o.sock = -1 := by
  unfold SockObj.descriptor
  split <;> simp_all

/-- The account after the descriptor of one Socket was closed. -/
theorem Accounted.close {w : World α} (a : Accounted w) {id : ℕ} {o : SockObj α}
    (held : w.objs id = some o) :
    Custody (Function.update (w.holds SockObj.descriptor) id none) (w.kernel.close o.sock).Ours ∧
      (w.kernel.close o.sock).stray = 0 := by
  have here := holds_of_held (f := SockObj.descriptor) held
  constructor
  · apply a.custody.drop id
    intro fd
    rw [here]
    apply (Kernel.has_close_iff fd).trans
    refine and_congr_right fun opened => not_congr ?_
    by_cases none : o.sock = -1
    · have := Kernel.Has.nonneg opened
      rw [descriptor_of_sock none]
      exact iff_of_false (by omega) (by simp)
    · rw [descriptor_of_ne none, Option.some.injEq, eq_comm]
  · rw [Kernel.close_stray, a.stray]
    intro low closed
    have holder : w.holds SockObj.descriptor id = some o.sock := by
      rw [here, descriptor_of_ne (by omega)]
    exact Kernel.not_has_of_unused closed (a.custody.opened id o.sock holder)

theorem accounted_put_iff (w : World α) (id : ℕ) (v : Option (SockObj α)) (k : Kernel α)
    (requests : List Request) :
    Accounted { objs := Function.update w.objs id v, kernel := k, requests := requests } ↔
      Custody (Function.update (w.holds SockObj.descriptor) id (v.bind SockObj.descriptor)) k.Ours ∧
        k.stray = 0 := by
  rw [← holds_update SockObj.descriptor w id v k requests]
  exact ⟨fun a => ⟨a.custody, a.stray⟩, fun a => ⟨a.1, a.2⟩⟩

/-- A new descriptor in place of what a Socket had keeps the account if and only if it had none. -/
theorem accounted_take_iff {holds : ℕ → Option ℤ} {k : Kernel α}
    (custody : Custody holds k.Ours) (stray : k.stray = 0) (id : ℕ) {fd : ℤ} (low : 0 ≤ fd)
    (unused : k.desc fd = none) (kind : FdKind) (stream : List α) :
    (Custody (Function.update holds id (some fd)) (k.fresh fd kind stream).Ours ∧
      (k.fresh fd kind stream).stray = 0) ↔ holds id = none := by
  have kept : (k.fresh fd kind stream).stray = 0 := by rw [Kernel.fresh, Kernel.set_stray, stray]
  rw [and_iff_left kept]
  exact custody.take_iff id (Kernel.not_has_of_unused unused)
    (Kernel.ours_fresh_iff k low kind stream)

/-- A new Socket that is not built from a descriptor number has no descriptor. -/
theorem accounted_constructed {w : World α} (a : Accounted w) {id : ℕ} {heap : ℕ → ℤ → α}
    {argv : List Jsval} (internal : Call.Internal (.construct id heap argv))
    (unused : w.objs id = none) :
    Accounted { w with objs := Function.update w.objs id (some (jsSockConstruct heap argv)) } := by
  apply (accounted_put_iff w id _ w.kernel w.requests).2
  have new : (jsSockConstruct heap argv).descriptor = none := by
    unfold jsSockConstruct
    split
    · next n => exact absurd rfl (internal id heap n)
    · exact descriptor_of_sock rfl
  rw [Option.bind_some, new, ← holds_of_unused (f := SockObj.descriptor) unused,
    Function.update_eq_self]
  exact ⟨a.custody, a.stray⟩

/-- A call keeps the account if and only if it meets the condition. -/
theorem accounted_step_iff {w w' : World α} {c : Call α} (a : Accounted w) (internal : c.Internal)
    (step : WorldStep w c w') : Accounted w' ↔ KeepsAccount w c := by
  cases step with
  | constructed id heap argv unused =>
    exact iff_of_true (accounted_constructed a internal unused) trivial
  | arguments id => exact iff_of_true a trivial
  | rejected id argv found listens works =>
    apply iff_of_true a
    unfold KeepsAccount
    split
    · next port found' listens' call =>
      cases call
      intro worked
      rw [works port rfl] at worked
      cases worked
    · trivial
  | unaccepted id answer newId heap => exact iff_of_true a trivial
  | unconnected id host works o held requests =>
    refine iff_of_true ((accounted_put_iff w id _ _ _).2 ?_) trivial
    rw [Option.bind_some, descriptor_of_sock rfl]
    exact a.close held
  | connected id host works o held fd stream low unused requests =>
    refine iff_of_true ((accounted_put_iff w id _ _ _).2 ?_) trivial
    obtain ⟨custody, stray⟩ := a.close held
    rw [Option.bind_some, descriptor_of_ne (by dsimp only; omega)]
    have taken := (accounted_take_iff custody stray id low unused .connected stream).2
      (Function.update_self _ _ _)
    rwa [Function.update_idem] at taken
  | leaked id port found works o held fd low unused =>
    refine iff_of_false (fun after => ?_) fun cond => ?_
    · exact a.custody.not_leaked (Kernel.not_has_of_unused unused)
        ((Kernel.ours_fresh_iff w.kernel low .idle [] fd).2 (Or.inl rfl)) after.custody
    · cases (cond works).1
  | listening id port found works o held fd low unused =>
    rw [accounted_put_iff, Option.bind_some, descriptor_of_ne (by dsimp only; omega)]
    apply (accounted_take_iff a.custody a.stray id low unused .listening []).trans
    rw [holds_of_held held, descriptor_none_iff]
    constructor
    · intro none _
      refine ⟨rfl, fun o' held' => ?_⟩
      rw [held] at held'
      rwa [← Option.some.inj held']
    · exact fun cond => (cond works).2 o held
  | accepted id answer newId heap unusedId fd stream low unused =>
    refine iff_of_true ((accounted_put_iff w newId _ _ _).2 ?_) trivial
    rw [Option.bind_some, descriptor_of_ne (by dsimp only; omega)]
    exact (accounted_take_iff a.custody a.stray newId low unused .connected stream).2
      (holds_of_unused unusedId)
  | closed id o held requests =>
    refine iff_of_true ((accounted_put_iff w id _ _ _).2 ?_) trivial
    rw [Option.bind_some, descriptor_of_sock rfl]
    exact a.close held
  | destroyed id o held =>
    exact iff_of_true ((accounted_put_iff w id _ _ _).2 (a.close held)) trivial

theorem start_accounted (fds : ℕ → Option (Desc α)) :
    Accounted (World.start (Kernel.external fds)) :=
  ⟨Custody.none (Kernel.external_not_ours fds), rfl⟩

theorem Accounted.along_iff {w : World α} (a : Accounted w) (calls : List (Call α))
    (internal : ∀ c ∈ calls, c.Internal) :
    Along World.step (fun _ _ _ w' => Accounted w') w calls ↔
      Guarded World.step KeepsAccount w calls :=
  along_iff_guarded_on Call.Internal Accounted
    (fun _ _ _ _ a inside h => accounted_step_iff a inside (World.step_spec h))
    (fun _ _ _ _ _ _ _ after => after) calls internal a

/-- In every run over any number of Sockets, none of them built from a descriptor number, the
descriptors of the module are accounted for after every call, if and only if every call meets the
condition. -/
theorem descriptors_accounted_iff (fds : ℕ → Option (Desc α)) (calls : List (Call α))
    (internal : ∀ c ∈ calls, c.Internal) :
    Along World.step (fun _ _ _ w' => Accounted w') (World.start (Kernel.external fds)) calls ↔
      Guarded World.step KeepsAccount (World.start (Kernel.external fds)) calls :=
  (start_accounted fds).along_iff calls internal

/-- A Socket that connects twice, one that listens and accepts, and the end of all three. -/
theorem descriptors_accounted_iff_reconnect :
    Along World.step (fun _ _ _ w' => Accounted w')
      (World.start (Kernel.external fun _ : ℕ => (none : Option (Desc UInt8))))
      [.construct 0 (fun _ _ => 0) [], .construct 1 (fun _ _ => 0) [],
        .connect 0 (some (.addresses [.refused 3, .success 3 []])),
        .connect 0 (some (.addresses [.success 4 []])),
        .bind 1 [.int 80] (.addresses [.success 3 []]) true,
        .accept 1 (some (5, [])) 2 (fun _ _ => 0), .close 0, .destroy 2, .destroy 1] := by
  refine (descriptors_accounted_iff _ _ ?_).2 (guarded_cons trivial (guarded_cons trivial
    (guarded_cons trivial (guarded_cons trivial (guarded_cons (fun _ => ⟨rfl, fun o held => ?_⟩)
      (guarded_cons trivial (guarded_cons trivial (guarded_cons trivial (guarded_cons trivial
        trivial)))))))))
  · intro c listed id heap n
    simp only [List.mem_cons, List.not_mem_nil, or_false] at listed
    rcases listed with rfl | rfl | rfl | rfl | rfl | rfl | rfl | rfl | rfl <;> simp
  · cases held
    rfl

/-- A `bind` on a Socket that listens already. -/
theorem descriptors_accounted_iff_not_rebind :
    ¬ Along World.step (fun _ _ _ w' => Accounted w')
      (World.start (Kernel.external fun _ : ℕ => (none : Option (Desc UInt8))))
      [.construct 0 (fun _ _ => 0) [], .bind 0 [.int 80] (.addresses [.success 3 []]) true,
        .bind 0 [.int 81] (.addresses [.success 4 []]) true] := by
  intro along
  have internal : ∀ c ∈ [Call.construct 0 (fun _ _ => (0 : UInt8)) [],
      .bind 0 [.int 80] (.addresses [.success 3 []]) true,
      .bind 0 [.int 81] (.addresses [.success 4 []]) true], c.Internal := by
    intro c listed id heap n
    simp only [List.mem_cons, List.not_mem_nil, or_false] at listed
    rcases listed with rfl | rfl | rfl <;> simp
  have cond := Guarded.last [Call.construct 0 (fun _ _ => (0 : UInt8)) [],
    .bind 0 [.int 80] (.addresses [.success 3 []]) true]
    (.bind 0 [.int 81] (.addresses [.success 4 []]) true)
    (((start_accounted _).along_iff _ internal).1 along) (by decide +kernel) (by decide +kernel)
  have taken : ((final World.step (World.start (Kernel.external fun _ => none))
      [Call.construct 0 (fun _ _ => (0 : UInt8)) [],
        .bind 0 [.int 80] (.addresses [.success 3 []]) true]).objs 0).map SockObj.sock =
      some 3 := by decide +kernel
  obtain ⟨o, held, sock⟩ := Option.map_eq_some_iff.1 taken
  have none := (cond rfl).2 o held
  rw [sock] at none
  cases none

end Sysjs
