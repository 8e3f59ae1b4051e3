import Sysjs.Foundation.Runs
import Sysjs.Words
import Mathlib.Data.Finset.Basic

/-!
# SysUtil.open and SysUtil.close

A run of the two calls over the open descriptors of the process.  The state also remembers which
values `open` has returned and for which descriptors, as long as these are open.
-/

set_option autoImplicit false

namespace Sysjs.SysUtil

open Runs

/-- The open descriptors, and the values that `open` returned with the descriptors they are for. -/
structure State where
  fds : Finset ℕ
  returned : List (ℤ × ℕ)

/-- A call with its arguments; `answer` is what `open(2)` returns, `none` for `-1`. -/
inductive Call where
  | sysOpen (argv : List TaggedValue) (answer : Option ℕ)
  | sysClose (argv : List TaggedValue)
  deriving DecidableEq

inductive Result where
  | error (text : String)
  | int (n : ℤ)
  deriving DecidableEq

/-- `SysUtil_s_open`. -/
def sysUtilOpen (s : State) (argv : List TaggedValue) (answer : Option ℕ) : Result × State :=
  match argv with
  | [file, flags] =>
    if !file.isString then (.error "arg0 must be a string (path)!", s)
    else if !flags.isInt then (.error "arg1 must be a int (flags)!", s)
    else match answer with
      | none => (.error "open failed: %s", s)
      | some fd =>
        (.int (intToJsval fd),
          { fds := insert fd s.fds, returned := (intToJsval fd, fd) :: s.returned })
  | _ => (.error "pass the (file,flags)", s)

/-- `close(2)`. -/
def closeFd (s : State) (fd : ℤ) : ℤ × State :=
  if 0 ≤ fd ∧ fd.toNat ∈ s.fds then
    (0, { fds := s.fds.erase fd.toNat, returned := s.returned.filter fun v => v.2 ≠ fd.toNat })
  else (-1, s)

/-- `SysUtil_s_close`; its second test is for a string. -/
def sysUtilClose (s : State) (argv : List TaggedValue) : Result × State :=
  match argv with
  | [v] =>
    if !v.isString then (.error "arg must be a int!", s)
    else (.int (intToJsval (closeFd s v.toInt).1), (closeFd s v.toInt).2)
  | _ => (.error "pass the fd you want to close!\n", s)

/-- One call; `open(2)` does not answer with a descriptor that is open. -/
def step (s : State) : Call → Option (Result × State)
  | .sysOpen argv answer =>
    if answer.any fun fd => fd ∈ s.fds then none else some (sysUtilOpen s argv answer)
  | .sysClose argv => some (sysUtilClose s argv)

/-- The process with the descriptors it has before the first call. -/
def start (fds : Finset ℕ) : State := { fds, returned := [] }

/-- What a call of `close` should do: it closes the descriptor whose number it is given and no
other; it takes back what `open` has returned; it refuses what is no integer. -/
structure Closes (s : State) (argv : List TaggedValue) (r : Result) (s' : State) : Prop where
  only : ∀ fd ∈ s.fds, fd ∉ s'.fds → argv = [.int fd]
  accepts : ∀ n fd, argv = [.int n] → (n, fd) ∈ s.returned →
    r = .int 0 ∧ s'.fds = s.fds.erase fd
  refuses : (∀ n, argv ≠ [.int n]) → (∃ text, r = .error text) ∧ s'.fds = s.fds

/-- What a call should do; a call of `open` takes no descriptor away. -/
def Undoes (s : State) (call : Call) (r : Result) (s' : State) : Prop :=
  match call with
  | .sysOpen _ _ => s.fds ⊆ s'.fds
  | .sysClose argv => Closes s argv r s'

/-- A call that gives `close` neither a string nor a value that stands for an open descriptor. -/
def Unserved (s : State) : Call → Prop
  | .sysOpen _ _ => True
  | .sysClose [v] => v.isString = false ∧ ∀ n fd, v = .int n → (n, fd) ∉ s.returned
  | .sysClose _ => True

theorem sysUtilOpen_subset (s : State) (argv : List TaggedValue) (answer : Option ℕ) :
    s.fds ⊆ (sysUtilOpen s argv answer).2.fds := by
  unfold sysUtilOpen
  split
  · split_ifs
    · exact Finset.Subset.refl _
    · exact Finset.Subset.refl _
    · split
      · exact Finset.Subset.refl _
      · exact Finset.subset_insert _ _
  · exact Finset.Subset.refl _

/-- A call that is refused is as it should be unless its argument stands for a descriptor. -/
theorem closes_refused (s : State) (argv : List TaggedValue) (text : String) :
    Closes s argv (.error text) s ↔ ∀ n fd, argv = [.int n] → (n, fd) ∉ s.returned := by
  constructor
  · intro h n fd given held
    cases (h.accepts n fd given held).1
  · intro h
    exact {
      only := fun fd inside gone => absurd inside gone
      accepts := fun n fd given held => absurd held (h n fd given)
      refuses := fun _ => ⟨⟨text, rfl⟩, rfl⟩ }

/-- The call does what it should if and only if it is given neither a string nor the value of an
open descriptor. -/
theorem closes_iff (s : State) (argv : List TaggedValue) :
    Closes s argv (sysUtilClose s argv).1 (sysUtilClose s argv).2 ↔
      Unserved s (.sysClose argv) := by
  match argv with
  | [] => exact iff_of_true ((closes_refused s [] _).2 (by simp)) trivial
  | [v] =>
    cases v with
    | int n =>
      refine (closes_refused s [.int n] _).trans ?_
      simp [Unserved, TaggedValue.isString]
    | string text toInt =>
      have taken : ¬ ∃ t, (sysUtilClose s [.string text toInt]).1 = .error t := by
        simp [sysUtilClose, TaggedValue.isString]
      exact iff_of_false (fun h => taken (h.refuses (by simp)).1)
        (by simp [Unserved, TaggedValue.isString])
    | other toInt =>
      refine (closes_refused s [.other toInt] _).trans ?_
      simp [Unserved, TaggedValue.isString]
  | v :: w :: rest => exact iff_of_true ((closes_refused s (v :: w :: rest) _).2 (by simp)) trivial

theorem undoes_iff {s s' : State} {call : Call} {r : Result} (h : step s call = some (r, s')) :
    Undoes s call r s' ↔ Unserved s call := by
  cases call with
  | sysOpen argv answer =>
    simp only [step, Option.ite_none_left_eq_some, Option.some.injEq] at h
    have kept := sysUtilOpen_subset s argv answer
    rw [h.2] at kept
    exact iff_of_true kept trivial
  | sysClose argv =>
    have here := closes_iff s argv
    rwa [Option.some.inj h] at here

/-- In every run the calls do what they should if and only if `close` is never given a string or a
value that stands for an open descriptor. -/
theorem run_undoes_iff (fds : Finset ℕ) (calls : List Call) :
    Along step Undoes (start fds) calls ↔ Guarded step Unserved (start fds) calls := by
  refine along_iff_guarded (fun _ => True) ?_ (fun _ _ _ _ _ _ _ => trivial) calls trivial
  intro s call r s' _ h
  exact undoes_iff h

/-- A file is opened, and `close` refuses the value that `open` returned. -/
theorem run_undoes_open_close :
    ¬ Along step Undoes (start {0, 1, 2})
      [.sysOpen [.string "f" 0, .int 0] (some 3), .sysClose [.int 3]] := by
  refine not_along_of_last
    (fun (s : State) (call : Call) (x : Result × State) =>
      !decide (call = .sysClose [.int 3] ∧ (3, 3) ∈ s.returned) || decide (x.1 = .int 0)) ?_
    [.sysOpen [.string "f" 0, .int 0] (some 3)] (.sysClose [.int 3]) (by decide) (by decide)
  intro s call r s' undoes
  by_cases here : call = .sysClose [.int 3] ∧ (3, 3) ∈ s.returned
  · obtain ⟨rfl, held⟩ := here
    simp [(undoes.accepts 3 3 rfl held).1]
  · simp [here]

end Sysjs.SysUtil
