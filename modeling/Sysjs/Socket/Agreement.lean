import Sysjs.Foundation.Custody
import Sysjs.Foundation.Runs
import Sysjs.Socket.World

/-!
# The state of a Socket and its descriptor

`state` says that a Socket is disconnected exactly when `sock` is `-1`, and otherwise what kind of
open descriptor `sock` is.  A `connect` that closes the old descriptor and then fails forgets the
first half.
-/

set_option autoImplicit false

namespace Sysjs

open Runs

variable {α : Type*}

/-- The descriptor a Socket has according to its state, and its kind. -/
def SockObj.claimed (o : SockObj α) : Option (ℤ × FdKind) :=
  match o.state with
  | .disconnected => none
  | .connected => some (o.sock, .connected)
  | .listening => some (o.sock, .listening)

/-- The descriptor is open and of that kind. -/
def Kernel.Is (k : Kernel α) (r : ℤ × FdKind) : Prop := k.Has r.1 fun d => d.kind = r.2

/-- Each live Socket is disconnected if and only if `sock` is `-1`, and `sock` of any other is an
open descriptor of the kind its state says, which is its own. -/
structure Agrees (w : World α) : Prop where
  disconnected : ∀ id o, w.objs id = some o → (o.state = .disconnected ↔ o.sock = -1)
  sole : Sole (w.holds SockObj.claimed) w.kernel.Is

/-- What a call is to leave behind: agreement, and after a `connect` that fails a disconnected
Socket. -/
structure LeavesAgreement (c : Call α) (w' : World α) : Prop where
  agrees : Agrees w'
  failed : ∀ id host, c = .connect id (some host) → host.works = false →
    ∀ o, w'.objs id = some o → o.state = .disconnected

/-- The condition on a call: an integer given to the constructor is a connected descriptor that no
Socket has, and a `connect` that finds no working address is called on a disconnected Socket. -/
def KeepsAgreement (w : World α) : Call α → Prop
  | .construct _ _ [.int n] => w.kernel.Is (n, .connected) ∧
      ∀ id o, w.objs id = some o → o.sock ≠ n
  | .connect id (some host) => host.works = false →
      ∀ o, w.objs id = some o → o.state = .disconnected
  | _ => True

/-! ### One call -/

theorem take_fresh {holds : ℕ → Option (ℤ × FdKind)} {k : Kernel α} (sole : Sole holds k.Is)
    (id : ℕ) {fd : ℤ} (low : 0 ≤ fd) (unused : k.desc fd = none) (kind : FdKind)
    (stream : List α) :
    Sole (Function.update holds id (some (fd, kind))) (k.fresh fd kind stream).Is := by
  have opened : (k.fresh fd kind stream).Is (fd, kind) := Kernel.has_fresh_self low rfl
  exact sole.take id (Kernel.not_has_of_unused unused) opened
    fun r here => here.fresh unused kind stream

theorem Kernel.Is.kind_eq {k : Kernel α} {fd : ℤ} {kind kind' : FdKind} (h : k.Is (fd, kind))
    (h' : k.Is (fd, kind')) : kind = kind' := by
  obtain ⟨d, opened, rfl⟩ := h
  obtain ⟨d', opened', rfl⟩ := h'
  rw [opened] at opened'
  exact congrArg Desc.kind (Option.some.inj opened')

theorem claimed_fst {o : SockObj α} {r : ℤ × FdKind} (h : o.claimed = some r) : r.1 = o.sock := by
  unfold SockObj.claimed at h
  split at h
  · cases h
  · rw [← Option.some.inj h]
  · rw [← Option.some.inj h]

theorem claimed_of_ne {o : SockObj α} (h : o.state ≠ .disconnected) :
    ∃ kind, o.claimed = some (o.sock, kind) := by
  unfold SockObj.claimed
  split
  · next same => exact absurd same h
  · exact ⟨_, rfl⟩
  · exact ⟨_, rfl⟩

theorem Agrees.claimed_none {w : World α} (a : Agrees w) {id : ℕ} {o : SockObj α}
    (held : w.objs id = some o) (h : o.claimed = none) : o.sock = -1 := by
  apply (a.disconnected id o held).1
  by_contra state
  obtain ⟨kind, some⟩ := claimed_of_ne state
  rw [h] at some
  cases some

/-- What the agreement says of one Socket that is not disconnected. -/
theorem Agrees.opened {w : World α} (a : Agrees w) {id : ℕ} {o : SockObj α}
    (held : w.objs id = some o) (state : o.state ≠ .disconnected) :
    0 ≤ o.sock ∧ ∃ d, w.kernel.desc o.sock = some d ∧
      (o.state = .connected → d.kind = .connected) ∧
      (o.state = .listening → d.kind = .listening) := by
  obtain ⟨kind, claim⟩ := claimed_of_ne state
  have is := a.sole.opened id _ ((holds_of_held held).trans claim)
  refine ⟨Kernel.Has.nonneg is, ?_⟩
  obtain ⟨d, here, same⟩ := is
  refine ⟨d, here, fun connected => ?_, fun listening => ?_⟩
  · simp only [SockObj.claimed, connected, Option.some.injEq, Prod.mk.injEq] at claim
    exact same.trans claim.2.symm
  · simp only [SockObj.claimed, listening, Option.some.injEq, Prod.mk.injEq] at claim
    exact same.trans claim.2.symm

/-- Closing the descriptor of one Socket leaves the others theirs. -/
theorem Agrees.close {w : World α} (a : Agrees w) {id : ℕ} {o : SockObj α}
    (held : w.objs id = some o) :
    Sole (Function.update (w.holds SockObj.claimed) id none) (w.kernel.close o.sock).Is := by
  have here : w.holds SockObj.claimed id = o.claimed := holds_of_held held
  refine a.sole.drop id fun r opened other => (Kernel.has_close_iff _).2 ⟨opened, fun same => ?_⟩
  cases claim : o.claimed with
  | none =>
    have := Kernel.Has.nonneg opened
    rw [same, a.claimed_none held claim] at this
    omega
  | some r' =>
    obtain ⟨fd, kind⟩ := r
    obtain ⟨fd', kind'⟩ := r'
    obtain rfl : fd = fd' := same.trans (claimed_fst claim).symm
    have opened' := a.sole.opened id (fd, kind') (here.trans claim)
    obtain rfl := opened.kind_eq opened'
    exact other (here.trans claim)

/-- The agreement after an object was replaced. -/
theorem Agrees.put_iff {w : World α} (a : Agrees w) (id : ℕ) (o : SockObj α) (k : Kernel α)
    (requests : List Request) :
    Agrees { objs := Function.update w.objs id (some o), kernel := k, requests := requests } ↔
      (o.state = .disconnected ↔ o.sock = -1) ∧
        Sole (Function.update (w.holds SockObj.claimed) id o.claimed) k.Is := by
  constructor
  · rintro ⟨disconnected, sole⟩
    rw [holds_update] at sole
    exact ⟨disconnected id o (Function.update_self _ _ _), sole⟩
  · rintro ⟨here, sole⟩
    refine ⟨fun id' o' held => ?_, by rwa [holds_update]⟩
    have held : Function.update w.objs id (some o) id' = some o' := held
    by_cases same : id' = id
    · rw [same, Function.update_self] at held
      rwa [← Option.some.inj held]
    · rw [Function.update_of_ne same] at held
      exact a.disconnected id' o' held

/-- An integer given to the constructor keeps the agreement if and only if it is a connected
descriptor that no Socket has. -/
theorem Agrees.adopt_iff {w : World α} (a : Agrees w) {id : ℕ} (unused : w.objs id = none) (n : ℤ) :
    Sole (Function.update (w.holds SockObj.claimed) id (some (n, .connected))) w.kernel.Is ↔
      w.kernel.Is (n, .connected) ∧ ∀ id o, w.objs id = some o → o.sock ≠ n := by
  refine (a.sole.put_iff id (n, .connected)).trans (and_congr_right fun opened => ?_)
  constructor
  · intro only id' o held same
    have state : o.state ≠ .disconnected := by
      intro state
      have low : 0 ≤ n := Kernel.Has.nonneg opened
      have := (a.disconnected id' o held).1 state
      omega
    obtain ⟨kind, claim⟩ := claimed_of_ne state
    have holder : w.holds SockObj.claimed id' = some (o.sock, kind) :=
      (holds_of_held held).trans claim
    have opened' := a.sole.opened id' _ holder
    rw [same] at opened' holder
    obtain rfl := opened'.kind_eq opened
    refine only id' ?_ holder
    rintro rfl
    rw [unused] at held
    cases held
  · intro only j other holder
    obtain ⟨o, held, claim⟩ := Option.bind_eq_some_iff.1 holder
    exact only j o held (claimed_fst claim).symm

theorem agrees_constructed_iff {w : World α} (a : Agrees w) {id : ℕ} (unused : w.objs id = none)
    (heap : ℕ → ℤ → α) (argv : List Jsval) :
    Agrees { w with objs := Function.update w.objs id (some (jsSockConstruct heap argv)) } ↔
      KeepsAgreement w (.construct id heap argv) := by
  have idle : Function.update (w.holds SockObj.claimed) id none = w.holds SockObj.claimed := by
    rw [← holds_of_unused (f := SockObj.claimed) unused, Function.update_eq_self]
  apply (a.put_iff id _ w.kernel w.requests).trans
  unfold jsSockConstruct KeepsAgreement
  split
  · next n =>
    refine Iff.trans (and_iff_right_of_imp fun sole => ?_) (a.adopt_iff unused n)
    have low := Kernel.Has.nonneg (sole.opened id (n, .connected) (Function.update_self _ _ _))
    apply iff_of_false (by simp)
    rintro rfl
    exact absurd low (by decide)
  · next other =>
    refine iff_of_true ⟨iff_of_true rfl rfl, ?_⟩ ?_
    · show Sole (Function.update (w.holds SockObj.claimed) id none) w.kernel.Is
      rw [idle]
      exact a.sole
    · split
      · next n call =>
        cases call
        exact (other n rfl).elim
      · next call => cases call
      · trivial

/-- A failed `connect` keeps the agreement if and only if the Socket was disconnected. -/
theorem Agrees.unconnected_iff {w : World α} (a : Agrees w) {id : ℕ} {o : SockObj α}
    (held : w.objs id = some o) (requests : List Request) :
    Agrees { objs := Function.update w.objs id (some { o with sock := -1 })
             kernel := w.kernel.close o.sock, requests := requests } ↔ o.state = .disconnected := by
  rw [a.put_iff]
  constructor
  · rintro ⟨state, -⟩
    exact state.2 rfl
  · intro state
    refine ⟨iff_of_true state rfl, ?_⟩
    have claim : SockObj.claimed { o with sock := -1 } = none := by
      simp only [SockObj.claimed, state]
    rw [claim]
    exact a.close held

theorem Agrees.destroyed {w : World α} (a : Agrees w) {id : ℕ} {o : SockObj α}
    (held : w.objs id = some o) :
    Agrees { w with objs := Function.update w.objs id none, kernel := w.kernel.close o.sock } := by
  refine ⟨fun id' o' held' => ?_, ?_⟩
  · have held' : Function.update w.objs id none id' = some o' := held'
    by_cases same : id' = id
    · rw [same, Function.update_self] at held'
      cases held'
    · rw [Function.update_of_ne same] at held'
      exact a.disconnected id' o' held'
  · rw [holds_update]
    exact a.close held

/-- A call keeps the agreement if and only if it meets the condition. -/
theorem agrees_step_iff {w w' : World α} {c : Call α} (a : Agrees w) (step : WorldStep w c w') :
    Agrees w' ↔ KeepsAgreement w c := by
  cases step with
  | constructed id heap argv unused => exact agrees_constructed_iff a unused heap argv
  | arguments id => exact iff_of_true a trivial
  | rejected id argv found listens works => exact iff_of_true a trivial
  | unaccepted id answer newId heap => exact iff_of_true a trivial
  | unconnected id host works o held requests =>
    apply (a.unconnected_iff held requests).trans
    constructor
    · intro state _ o' held'
      rw [held] at held'
      rwa [← Option.some.inj held']
    · exact fun cond => cond works o held
  | connected id host works o held fd stream low unused requests =>
    refine iff_of_true ?_ fun fails => ?_
    · rw [a.put_iff]
      refine ⟨iff_of_false (by simp) (by dsimp only; omega), ?_⟩
      have taken := take_fresh (a.close held) id low unused .connected stream
      rwa [Function.update_idem] at taken
    · rw [works] at fails
      cases fails
  | leaked id port found works o held fd low unused =>
    exact iff_of_true
      ⟨a.disconnected, a.sole.mono fun r here => here.fresh unused _ _⟩ trivial
  | listening id port found works o held fd low unused =>
    refine iff_of_true ?_ trivial
    rw [a.put_iff]
    exact ⟨iff_of_false (by simp) (by dsimp only; omega),
      take_fresh a.sole id low unused .listening []⟩
  | accepted id answer newId heap unusedId fd stream low unused =>
    refine iff_of_true ?_ trivial
    rw [a.put_iff]
    exact ⟨iff_of_false (by simp) (by dsimp only; omega),
      take_fresh a.sole newId low unused .connected stream⟩
  | closed id o held requests =>
    refine iff_of_true ?_ trivial
    rw [a.put_iff]
    exact ⟨iff_of_true rfl rfl, a.close held⟩
  | destroyed id o held => exact iff_of_true (a.destroyed held) trivial

/-- A `connect` without a working address leaves no descriptor behind. -/
theorem step_failed_connect {w w' : World α} {id : ℕ} {host : Resolve α}
    (step : WorldStep w (.connect id (some host)) w') (fails : host.works = false) {o : SockObj α}
    (held : w'.objs id = some o) : o.sock = -1 := by
  generalize call : Call.connect id (some host) = c at step
  cases step with
  | unconnected id' host' works o' held' requests =>
    cases call
    have held : Function.update w.objs id (some { o' with sock := -1 }) id = some o := held
    rw [Function.update_self] at held
    rw [← Option.some.inj held]
  | connected id' host' works o' held' fd stream low unused requests =>
    cases call
    rw [works] at fails
    cases fails
  | _ => cases call

/-- In every run the state of every Socket agrees with its descriptor after every call, if and only
if every call meets the condition. -/
theorem state_agrees_iff (k : Kernel α) (calls : List (Call α)) :
    Along World.step (fun _ c _ w' => LeavesAgreement c w') (World.start k) calls ↔
      Guarded World.step KeepsAgreement (World.start k) calls := by
  have started : Agrees (World.start k) :=
    ⟨fun id o held => (by cases held), Sole.none _⟩
  refine along_iff_guarded Agrees ?_ (fun _ _ _ _ _ _ left => left.agrees) calls started
  intro w c r w' a h
  have step := World.step_spec h
  rw [← agrees_step_iff a step]
  constructor
  · exact fun left => left.agrees
  · intro agrees
    refine ⟨agrees, ?_⟩
    rintro id host rfl fails o held
    exact (agrees.disconnected id o held).2 (step_failed_connect step fails held)

/-- A Socket on an open connection, one that listens, and the connection it accepts; a `connect`
that fails on a Socket that was closed. -/
theorem state_agrees_iff_accept :
    Along World.step (fun _ c _ w' => LeavesAgreement c w')
      (World.start (Kernel.fresh { fds := fun _ => none, stray := 0 } 3 .connected []))
      [.construct 0 (fun _ _ => (0 : UInt8)) [.int 3], .construct 1 (fun _ _ => 0) [],
        .bind 1 [.int 80] (.addresses [.success 4 []]) true,
        .accept 1 (some (5, [])) 2 fun _ _ => 0,
        .close 0, .connect 0 (some .failed)] := by
  refine (state_agrees_iff _ _).2 (guarded_cons ⟨⟨_, rfl, rfl⟩, fun id o held => by cases held⟩
    (guarded_cons trivial (guarded_cons trivial (guarded_cons trivial (guarded_cons trivial
      (guarded_cons (fun fails o held => ?_) trivial))))))
  cases held
  rfl

/-- A `connect` that fails on a Socket that was connected. -/
theorem state_agrees_iff_not_reconnect :
    ¬ Along World.step (fun _ c _ w' => LeavesAgreement c w')
      (World.start (α := UInt8) { fds := fun _ => none, stray := 0 })
      [.construct 0 (fun _ _ => 0) [], .connect 0 (some (.addresses [.success 3 []])),
        .connect 0 (some .failed)] := by
  refine not_along_of_last (fun _ _ x => (x.2.objs 0).all fun o =>
      decide (o.state = .disconnected ↔ o.sock = -1))
    (fun w c r w' left => ?_)
    [Call.construct 0 (fun _ _ => 0) [], .connect 0 (some (.addresses [.success 3 []]))]
    (.connect 0 (some .failed)) (by decide +kernel) (by decide +kernel)
  cases held : w'.objs 0 with
  | none => rfl
  | some o => simpa [held] using left.agrees.disconnected 0 o held

end Sysjs
