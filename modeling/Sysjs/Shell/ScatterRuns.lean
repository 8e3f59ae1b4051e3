import Sysjs.Shell.ScatterCrew

/-!
# What a scatter does

In every interleaving, nothing is used after it is given back.  When `scatter` returns, everything
is given back; all functions were called, once each, or none was; and the array it returns holds
what they answered.
-/

set_option autoImplicit false

namespace Sysjs.Scatter

open Interleaving

variable {V : Type*} {n i : ℕ} {s t : State V} {r : Reply V}

/-! ### Which functions were called -/

namespace State

/-- What the array holds for a function: what its call left, or `undefined` if there was none. -/
def answer (s : State V) (i : ℕ) : Cell V := (s.reply i).elim .void Reply.rval

/-- No function was called. -/
def Nobody (s : State V) : Prop := ∀ i, s.called i = 0

/-- Each function was called once and the call came back, except in a thread that could not set its
stack base. -/
def Everyone (n : ℕ) (s : State V) : Prop :=
  ∀ i < n, (s.called i = 1 ∧ (s.reply i).isSome = true) ∨
    (i ≠ 0 ∧ s.phase i = .exited .unstarted ∧ s.called i = 0 ∧ s.reply i = none)

/-- The outcome of the call. -/
def Settled (n : ℕ) (s : State V) : Prop :=
  if s.ok then s.vp = some ((List.range n).map s.answer) ∧ s.Everyone n
  else s.vp = none ∧ (s.Nobody ∨ s.Everyone n)

end State

namespace Pc

/-- After the label `out`. -/
@[simp] def ended : Pc → Bool
  | .out | .outFn _ | .outResults | .outResult _ | .outCvar | .outLock | .returned => true
  | _ => false

/-- Where the thread that called `scatter` is with its own function. -/
@[simp] def own (n : ℕ) : Pc → Phase
  | .ownRunning => .running
  | .join _ => .exited .finished
  | .newArray => if n = 0 then .ready else .exited .finished
  | _ => .ready

/-- The cells that are written. -/
@[simp] def written (n : ℕ) : Pc → ℕ → Bool
  | .rootResult i, j => j < i
  | .unrootResult _, _ => false
  | _, j => j < n

end Pc

theorem Pc.not_ended_of_live {n j : ℕ} {p : Pc} {st : Status} (live : p.stage n j = .live st) :
    p.ended = false := by
  cases p with
  | out | outFn i | outResults | outResult i | outCvar | outLock | returned => cases live
  | _ => rfl

theorem Phase.calls_of_cancelled {p : Phase} (exited : p.isExited = true)
    (fits : p.fits .cancel = true) : p.calls = 0 := by
  cases p with
  | exited how =>
    cases how with
    | unstarted | cancelled => rfl
    | finished => cases fits
  | _ => cases exited

theorem Phase.not_inContext_of_exited {p : Phase} (exited : p.isExited = true) :
    p.inContext = false := by
  cases p with
  | exited how => rfl
  | _ => cases exited

/-- Which functions were called, and what came back. -/
structure Tally (n : ℕ) (s : State V) : Prop where
  called : ∀ j, j ≠ 0 → s.called j = (s.phase j).calls
  reply : ∀ j, j ≠ 0 → (s.reply j).isSome = (s.phase j).replied
  own : s.pc.ended = false →
    s.called 0 = (s.pc.own n).calls ∧ (s.reply 0).isSome = (s.pc.own n).replied
  cells : s.pc.ended = false → s.results.isSome = true →
    ∀ j, s.pc.written n j = true → s.cell j = s.answer j
  vp : s.pc.ended = false → s.vp = none
  settled : s.pc.ended = true → s.Settled n

theorem Tally.init (n : ℕ) : Tally n (State.init : State V) := by
  constructor <;> simp [State.init, Phase.calls, Phase.replied]

/-- A step that calls no function before `out`. -/
theorem Tally.quiet (y : Tally n s) (before : s.pc.ended = false)
    (same : (t.called, t.reply, t.vp) = (s.called, s.reply, s.vp))
    (calls : ∀ j, (t.phase j).calls = (s.phase j).calls)
    (replied : ∀ j, (t.phase j).replied = (s.phase j).replied)
    (next : t.pc.ended = false ∧ t.pc.own n = s.pc.own n ∨
      t.pc.ended = true ∧ t.ok = false ∧ (t.Nobody ∨ t.Everyone n))
    (cells : t.pc.ended = false → t.results.isSome = true →
      ∀ j, t.pc.written n j = true → t.cell j = s.answer j) : Tally n t := by
  simp only [Prod.mk.injEq] at same
  obtain ⟨called, reply, vp⟩ := same
  constructor
  · intro j created
    rw [called, calls, y.called j created]
  · intro j created
    rw [reply, replied, y.reply j created]
  · intro inside
    rcases next with ⟨-, own⟩ | ⟨ended, -⟩
    · rw [called, reply, own]
      exact y.own before
    · rw [ended] at inside
      cases inside
  · intro inside there j written
    rw [cells inside there j written, State.answer, State.answer, reply]
  · intro inside
    rw [vp, y.vp before]
  · intro ended
    rcases next with ⟨inside, -⟩ | ⟨-, failed, outcome⟩
    · rw [ended] at inside
      cases inside
    · rw [State.Settled, failed, if_neg Bool.false_ne_true, vp, y.vp before]
      exact ⟨rfl, outcome⟩

/-- A step after `out`. -/
theorem Tally.past (y : Tally n s) (ended : s.pc.ended = true) (later : t.pc.ended = true)
    (same : (t.called, t.reply, t.vp, t.ok, t.phase) = (s.called, s.reply, s.vp, s.ok, s.phase)) :
    Tally n t := by
  simp only [Prod.mk.injEq] at same
  obtain ⟨called, reply, vp, ok, phase⟩ := same
  constructor
  · rw [called, phase]
    exact y.called
  · rw [reply, phase]
    exact y.reply
  · intro inside
    rw [later] at inside
    cases inside
  · intro inside
    rw [later] at inside
    cases inside
  · intro inside
    rw [later] at inside
    cases inside
  · intro _
    have settled := y.settled ended
    have answer : t.answer = s.answer := by
      funext j
      rw [State.answer, State.answer, reply]
    rwa [State.Settled, ok, vp, answer, State.Everyone, State.Nobody, called, reply, phase]

theorem Tally.nobody (y : Tally n s) (before : s.pc.ended = false) (own : s.pc.own n = .ready)
    (idle : ∀ j, (s.phase j).calls = 0) : s.Nobody := by
  intro j
  by_cases zero : j = 0
  · rw [zero, (y.own before).1, own]
    rfl
  · rw [y.called j zero, idle]

/-- The functions that were called when all threads are joined. -/
theorem Tally.everyone (y : Tally n s) (c : Crew n s) (pc : s.pc = .newArray) : s.Everyone n := by
  intro j inside
  by_cases zero : j = 0
  · have own := y.own (by simp [pc])
    rw [pc, Pc.own, if_neg (by omega)] at own
    exact Or.inl (zero ▸ own)
  · have joined := c.stage j
    rw [pc, Pc.stage, if_pos ⟨by omega, inside⟩] at joined
    have called := y.called j zero
    have reply := y.reply j zero
    cases ph : s.phase j with
    | exited how =>
      rw [ph] at joined called reply
      cases how with
      | unstarted => exact Or.inr ⟨zero, rfl, called, by simpa [Phase.replied] using reply⟩
      | cancelled => simp [Stage.Allows, Phase.fits] at joined
      | finished => exact Or.inl ⟨called, reply⟩
    | _ => simp [Stage.Allows, Phase.isExited, ph] at joined

/-- Before there are threads no function was called, and none has an answer. -/
theorem Tally.unheard (y : Tally n s) (c : Crew n s) {p : Pc} (pc : s.pc = p)
    (before : p.ended = false) (own : p.own n = .ready) (absent : ∀ j, p.stage n j = .absent) :
    s.Nobody ∧ ∀ j, s.answer j = .void := by
  subst pc
  have absent (j : ℕ) : s.phase j = .absent := by
    have stage := c.stage j
    rwa [absent] at stage
  refine ⟨y.nobody before own fun j => by rw [absent]; rfl, fun j => ?_⟩
  have none : (s.reply j).isSome = false := by
    by_cases zero : j = 0
    · rw [zero, (y.own before).2, own]
      rfl
    · rw [y.reply j zero, absent]
      rfl
  rw [Option.isSome_eq_false_iff, Option.isNone_iff_eq_none] at none
  rw [State.answer, none]
  rfl

section
variable (y : Tally n s) {p : Pc} (pc : s.pc = p) (before : p.ended = false)
include y pc before

/-- A step that calls no function and leaves the threads and the results alone. -/
theorem Tally.next (next : t.pc.ended = false) (own : t.pc.own n = p.own n)
    (same : (t.called, t.reply, t.vp, t.phase, t.results) =
      (s.called, s.reply, s.vp, s.phase, s.results))
    (written : ∀ j, t.pc.written n j = true → p.written n j = true) : Tally n t := by
  subst pc
  simp only [Prod.mk.injEq] at same
  obtain ⟨called, reply, vp, phase, results⟩ := same
  refine y.quiet before (by rw [called, reply, vp]) (by simp [phase]) (by simp [phase])
    (Or.inl ⟨next, own⟩) fun _ there j h => ?_
  rw [results] at there
  rw [State.cell, results]
  exact y.cells before there j (written j h)

/-- A jump to `fail`. -/
theorem Tally.failed (out : t.pc.ended = true) (ok : t.ok = false)
    (same : (t.called, t.reply, t.vp, t.phase) = (s.called, s.reply, s.vp, s.phase))
    (outcome : s.Nobody ∨ s.Everyone n) : Tally n t := by
  subst pc
  simp only [Prod.mk.injEq] at same
  obtain ⟨called, reply, vp, phase⟩ := same
  refine y.quiet before (by rw [called, reply, vp]) (by simp [phase]) (by simp [phase])
    (Or.inr ⟨out, ok, ?_⟩) fun inside => ?_
  · rwa [State.Nobody, State.Everyone, called, reply, phase]
  · rw [out] at inside
    cases inside

end

/-! ### Steps before there are threads -/

theorem tally_start (y : Tally n s) (c : Crew n s) (pc : s.pc = .start)
    (h : mainStep n s r = some t) : Tally n t := by
  obtain ⟨nobody, -⟩ := y.unheard c pc rfl rfl fun _ => rfl
  simp only [mainStep, pc, Option.some.injEq] at h
  split at h <;> subst h
  case isTrue =>
    by_cases zero : n = 0
    · rw [if_pos zero]
      exact y.next pc rfl rfl (if_pos zero) rfl fun _ known => known
    · rw [if_neg zero]
      exact y.next pc rfl rfl rfl rfl fun _ known => known
  case isFalse => exact y.failed pc rfl rfl rfl rfl (Or.inl nobody)

theorem tally_newLock (y : Tally n s) (c : Crew n s) (pc : s.pc = .newLock)
    (h : mainStep n s r = some t) : Tally n t := by
  obtain ⟨nobody, -⟩ := y.unheard c pc rfl rfl fun _ => rfl
  simp only [mainStep, pc, Option.some.injEq] at h
  split at h <;> subst h
  case isTrue => exact y.next pc rfl rfl rfl rfl fun _ known => known
  case isFalse => exact y.failed pc rfl rfl rfl rfl (Or.inl nobody)

theorem tally_newCvar (y : Tally n s) (c : Crew n s) (pc : s.pc = .newCvar)
    (h : mainStep n s r = some t) : Tally n t := by
  obtain ⟨nobody, -⟩ := y.unheard c pc rfl rfl fun _ => rfl
  simp only [mainStep, pc, Option.some.injEq] at h
  split at h <;> subst h
  case isTrue => exact y.next pc rfl rfl rfl rfl fun _ known => known
  case isFalse => exact y.failed pc rfl rfl rfl rfl (Or.inl nobody)

theorem tally_mallocResults (y : Tally n s) (c : Crew n s) (pc : s.pc = .mallocResults)
    (h : mainStep n s r = some t) : Tally n t := by
  obtain ⟨nobody, -⟩ := y.unheard c pc rfl rfl fun _ => rfl
  have before : s.pc.ended = false := by rw [pc]; rfl
  simp only [mainStep, pc, Option.some.injEq] at h
  split at h <;> subst h
  case isTrue =>
    refine y.quiet before rfl (fun _ => rfl) (fun _ => rfl) (Or.inl ⟨rfl, by rw [pc]; rfl⟩)
      fun _ _ j known => ?_
    have low : j < 0 := of_decide_eq_true known
    exact absurd low (Nat.not_lt_zero j)
  case isFalse => exact y.failed pc rfl rfl rfl rfl (Or.inl nobody)

theorem tally_rootResult (y : Tally n s) (c : Crew n s) (l : Layout n s)
    (pc : s.pc = .rootResult i) (h : mainStep n s r = some t) : Tally n t := by
  obtain ⟨-, silent⟩ := y.unheard c pc rfl rfl fun _ => rfl
  have before : s.pc.ended = false := by rw [pc]; rfl
  have own : s.pc.own n = .ready := by rw [pc]; rfl
  obtain ⟨cells, there⟩ := Option.isSome_iff_exists.1
    (show s.results.isSome = true from congrArg View.results (l.seen pc))
  obtain ⟨-, inside⟩ := l.within pc
  simp only [mainStep, pc, Option.some.injEq] at h
  split at h
  case isTrue more =>
    split at h <;> subst h
    case isTrue =>
      refine y.quiet before rfl (fun _ => rfl) (fun _ => rfl) (Or.inl ⟨rfl, own.symm⟩)
        fun _ _ j known => ?_
      have low : j < i + 1 := of_decide_eq_true known
      by_cases last : j = i
      · simp [State.cell, there, last, silent]
      · have written := y.cells before (by rw [there]; rfl) j
          (by rw [pc]; exact decide_eq_true (by omega))
        simpa [State.cell, there, last] using written
    case isFalse =>
      exact y.quiet before rfl (fun _ => rfl) (fun _ => rfl) (Or.inl ⟨rfl, own.symm⟩)
        fun _ _ j known => absurd known Bool.false_ne_true
  case isFalse done =>
    subst h
    obtain rfl : i = n := Nat.le_antisymm inside (not_lt.1 done)
    exact y.next pc rfl rfl rfl rfl fun _ known => known

theorem tally_unrootResult (y : Tally n s) (c : Crew n s) (pc : s.pc = .unrootResult i)
    (h : mainStep n s r = some t) : Tally n t := by
  obtain ⟨nobody, -⟩ := y.unheard c pc rfl rfl fun _ => rfl
  cases i with
  | zero =>
    simp only [mainStep, pc, Option.some.injEq] at h
    subst h
    exact y.failed pc rfl rfl rfl rfl (Or.inl nobody)
  | succ i =>
    simp only [mainStep, pc, Option.some.injEq] at h
    subst h
    exact y.next pc rfl rfl rfl rfl fun _ known => known

theorem tally_mallocThreads (y : Tally n s) (c : Crew n s) (pc : s.pc = .mallocThreads)
    (h : mainStep n s r = some t) : Tally n t := by
  obtain ⟨nobody, -⟩ := y.unheard c pc rfl rfl fun _ => rfl
  simp only [mainStep, pc, Option.some.injEq] at h
  split at h <;> subst h
  case isTrue => exact y.next pc rfl rfl rfl rfl fun _ known => known
  case isFalse => exact y.failed pc rfl rfl rfl rfl (Or.inl nobody)

theorem tally_rootFn (y : Tally n s) (pc : s.pc = .rootFn i) (h : mainStep n s r = some t) :
    Tally n t := by
  simp only [mainStep, pc, Option.some.injEq] at h
  split at h
  case isTrue =>
    split at h <;> subst h <;> exact y.next pc rfl rfl rfl rfl fun _ known => known
  case isFalse =>
    subst h
    exact y.next pc rfl rfl rfl rfl fun _ known => known

theorem tally_getElement (y : Tally n s) (pc : s.pc = .getElement i)
    (h : mainStep n s r = some t) : Tally n t := by
  simp only [mainStep, pc] at h
  split at h <;> rw [Option.some.injEq] at h <;> subst h <;>
    exact y.next pc rfl rfl rfl rfl fun _ known => known

theorem tally_unrootFn (y : Tally n s) (c : Crew n s) (pc : s.pc = .unrootFn i)
    (h : mainStep n s r = some t) : Tally n t := by
  obtain ⟨nobody, -⟩ := y.unheard c pc rfl rfl fun _ => rfl
  cases i with
  | zero =>
    simp only [mainStep, pc, Option.some.injEq] at h
    subst h
    exact y.failed pc rfl rfl rfl rfl (Or.inl nobody)
  | succ i =>
    simp only [mainStep, pc, Option.some.injEq] at h
    subst h
    exact y.next pc rfl rfl rfl rfl fun _ known => known

theorem tally_newContext (y : Tally n s) (c : Crew n s) (pc : s.pc = .newContext i)
    (h : mainStep n s r = some t) : Tally n t := by
  obtain ⟨nobody, -⟩ := y.unheard c pc rfl rfl fun _ => rfl
  simp only [mainStep, pc, Option.some.injEq] at h
  split at h
  case isTrue =>
    split at h
    case isTrue =>
      split at h <;> subst h <;> exact y.next pc rfl rfl rfl rfl fun _ known => known
    case isFalse =>
      subst h
      exact y.failed pc rfl rfl rfl rfl (Or.inl nobody)
  case isFalse =>
    subst h
    exact y.next pc rfl rfl rfl rfl fun _ known => known

/-! ### The threads are created and told to go on, or joined when one cannot be created -/

theorem tally_createThread (y : Tally n s) (c : Crew n s) (pc : s.pc = .createThread i)
    (h : mainStep n s r = some t) : Tally n t := by
  have before : s.pc.ended = false := by rw [pc]; rfl
  have fresh : s.phase i = .absent := by simpa [pc] using c.stage i
  simp only [mainStep, pc, Option.some.injEq] at h
  split at h
  case isTrue =>
    split at h
    case isTrue =>
      split at h <;> subst h
      case h_1 =>
        refine y.quiet before rfl (fun j => ?_) (fun j => ?_) (Or.inl ⟨rfl, by rw [pc]; rfl⟩)
          fun _ there j known => ?_
        · by_cases new : j = i <;> simp [new, fresh, Phase.calls]
        · by_cases new : j = i <;> simp [new, fresh, Phase.replied]
        · exact y.cells before there j (by rw [pc]; exact known)
      case h_2 => exact y.next pc rfl rfl rfl rfl fun _ known => known
    case isFalse =>
      subst h
      exact y.next pc rfl rfl rfl rfl fun _ known => known
  case isFalse =>
    subst h
    exact y.next pc rfl rfl rfl rfl fun _ known => known

theorem tally_lockFor {g : Status} (y : Tally n s) (pc : s.pc = .lockFor g i)
    (h : mainStep n s r = some t) : Tally n t := by
  simp only [mainStep, pc] at h
  split at h <;> cases h
  exact y.next pc rfl rfl rfl rfl fun _ known => known

theorem tally_notify {g : Status} (y : Tally n s) (pc : s.pc = .notify g i)
    (h : mainStep n s r = some t) : Tally n t := by
  have before : s.pc.ended = false := by rw [pc]; rfl
  have own : s.pc.own n = .ready := by rw [pc]; rfl
  have written : s.pc.written n = fun j => decide (j < n) := by rw [pc]; rfl
  simp only [mainStep, pc, Option.some.injEq] at h
  subst h
  refine y.quiet before rfl (fun j => ?_) (fun j => ?_) (Or.inl ⟨rfl, own.symm⟩)
    fun _ there j known => ?_
  · cases ph : s.phase j <;> simp [ph, Phase.calls]
  · cases ph : s.phase j <;> simp [ph, Phase.replied]
  · exact y.cells before there j (by rw [written]; exact known)

theorem tally_unlockFor {g : Status} (y : Tally n s) (pc : s.pc = .unlockFor g i)
    (h : mainStep n s r = some t) : Tally n t := by
  simp only [mainStep, pc, Option.some.injEq] at h
  subst h
  cases g <;> exact y.next pc rfl rfl rfl rfl fun _ known => known

theorem tally_joinBack (y : Tally n s) (c : Crew n s) (pc : s.pc = .joinBack i)
    (h : mainStep n s r = some t) : Tally n t := by
  have before : s.pc.ended = false := by rw [pc]; rfl
  have own : s.pc.own n = .ready := by rw [pc]; rfl
  simp only [mainStep, pc] at h
  split at h
  case isTrue =>
    split at h <;> cases h
    exact y.next pc rfl rfl rfl rfl fun _ known => known
  case isFalse =>
    cases h
    refine y.failed pc rfl rfl rfl rfl (Or.inl (y.nobody before own fun j => ?_))
    have stage := c.stage j
    rw [pc, Pc.stage, if_neg (by omega)] at stage
    rcases stage with absent | ⟨exited, fits⟩
    · rw [absent]
      rfl
    · exact Phase.calls_of_cancelled exited fits

/-! ### The own function is called, the threads are joined, and the array is made -/

theorem tally_callOwn (y : Tally n s) (pc : s.pc = .callOwn) (h : mainStep n s r = some t) :
    Tally n t := by
  have before : s.pc.ended = false := by rw [pc]; rfl
  have written : s.pc.written n = fun j => decide (j < n) := by rw [pc]; rfl
  obtain ⟨called, reply⟩ : s.called 0 = 0 ∧ (s.reply 0).isSome = false := by
    simpa [pc, Phase.calls, Phase.replied] using y.own before
  simp only [mainStep, pc, Option.some.injEq] at h
  subst h
  constructor
  case called =>
    intro j created
    simpa [created] using y.called j created
  case reply => exact y.reply
  case own => simp [called, reply, Phase.calls, Phase.replied]
  case cells =>
    intro _ there j known
    exact y.cells before there j (by rw [written]; exact known)
  case vp =>
    intro _
    exact y.vp before
  case settled => simp

theorem tally_ownRunning (y : Tally n s) (l : Layout n s) (pc : s.pc = .ownRunning)
    (h : mainStep n s r = some t) : Tally n t := by
  have before : s.pc.ended = false := by rw [pc]; rfl
  have written : s.pc.written n = fun j => decide (j < n) := by rw [pc]; rfl
  have called : s.called 0 = 1 := by simpa [pc, Phase.calls] using (y.own before).1
  obtain ⟨cells, there⟩ := Option.isSome_iff_exists.1
    (show s.results.isSome = true from congrArg View.results (l.seen pc))
  simp only [mainStep, pc, Option.some.injEq] at h
  subst h
  constructor
  case called => exact y.called
  case reply =>
    intro j created
    simpa [created] using y.reply j created
  case own => simp [called, Phase.calls, Phase.replied]
  case cells =>
    intro _ _ j known
    have known := y.cells before (by rw [there]; rfl) j (by rw [written]; exact known)
    by_cases zero : j = 0
    · simp [State.cell, State.answer, there, zero]
    · simpa [State.cell, State.answer, there, zero] using known
  case vp =>
    intro _
    exact y.vp before
  case settled => simp

theorem tally_join (y : Tally n s) (l : Layout n s) (pc : s.pc = .join i)
    (h : mainStep n s r = some t) : Tally n t := by
  obtain ⟨one, inside⟩ := l.within pc
  simp only [mainStep, pc] at h
  split at h
  case isTrue =>
    split at h <;> cases h
    exact y.next pc rfl rfl rfl rfl fun _ known => known
  case isFalse =>
    cases h
    exact y.next pc rfl rfl (if_neg (by omega)) rfl fun _ known => known

theorem tally_newArray (y : Tally n s) (c : Crew n s) (l : Layout n s) (pc : s.pc = .newArray)
    (h : mainStep n s r = some t) : Tally n t := by
  have before : s.pc.ended = false := by rw [pc]; rfl
  have written : s.pc.written n = fun j => decide (j < n) := by rw [pc]; rfl
  have there : s.results.isSome = decide (n ≠ 0) := congrArg View.results (l.seen pc)
  have everyone := y.everyone c pc
  simp only [mainStep, pc, Option.some.injEq] at h
  split at h <;> subst h
  case isTrue =>
    constructor
    case called => exact y.called
    case reply => exact y.reply
    case own => simp
    case cells => simp
    case vp => simp
    case settled =>
      intro _
      rw [State.Settled, if_pos rfl]
      refine ⟨?_, everyone⟩
      rw [Option.some.injEq]
      apply List.map_congr_left
      intro j inside
      rw [List.mem_range] at inside
      refine y.cells before ?_ j (by rw [written]; exact decide_eq_true inside)
      rw [there]
      exact decide_eq_true (by omega)
  case isFalse => exact y.failed pc rfl rfl rfl rfl (Or.inr everyone)

/-- Behind `out` nothing is called any more. -/
theorem tally_out (y : Tally n s)
    (pc : s.pc ∈ [.out, .outFn i, .outResults, .outResult i, .outCvar, .outLock])
    (h : mainStep n s r = some t) : Tally n t := by
  simp only [List.mem_cons, List.not_mem_nil, or_false] at pc
  rcases pc with pc | pc | pc | pc | pc | pc <;>
    simp only [mainStep, pc, Option.some.injEq] at h <;>
    (repeat' split at h) <;> cases h <;> apply y.past <;> simp [pc]

theorem main_tally (y : Tally n s) (c : Crew n s) (l : Layout n s) (h : mainStep n s r = some t) :
    Tally n t := by
  cases pc : s.pc with
  | start => exact tally_start y c pc h
  | newLock => exact tally_newLock y c pc h
  | newCvar => exact tally_newCvar y c pc h
  | mallocResults => exact tally_mallocResults y c pc h
  | rootResult i => exact tally_rootResult y c l pc h
  | unrootResult i => exact tally_unrootResult y c pc h
  | mallocThreads => exact tally_mallocThreads y c pc h
  | rootFn i => exact tally_rootFn y pc h
  | getElement i => exact tally_getElement y pc h
  | unrootFn i => exact tally_unrootFn y c pc h
  | newContext i => exact tally_newContext y c pc h
  | createThread i => exact tally_createThread y c pc h
  | lockFor st i => exact tally_lockFor y pc h
  | notify st i => exact tally_notify y pc h
  | unlockFor st i => exact tally_unlockFor y pc h
  | joinBack i => exact tally_joinBack y c pc h
  | callOwn => exact tally_callOwn y pc h
  | ownRunning => exact tally_ownRunning y l pc h
  | join i => exact tally_join y l pc h
  | newArray => exact tally_newArray y c l pc h
  | outFn i | outResult i => exact tally_out (i := i) y (by simp [pc]) h
  | out | outResults | outCvar | outLock => exact tally_out (i := 0) y (by simp [pc]) h
  | returned => simp [mainStep, pc] at h

theorem worker_tally (y : Tally n s) (c : Crew n s) (l : Layout n s)
    (h : workerStep s i r = some t) : Tally n t := by
  have alive := workerStep_alive h
  obtain ⟨st, live, fits⟩ := c.live alive
  obtain ⟨known, low, high, -⟩ := Pc.of_live l.bound live
  have before := Pc.not_ended_of_live live
  have quiet {p : Phase} (same : (t.called, t.reply, t.vp, t.pc, t.results) =
      (s.called, s.reply, s.vp, s.pc, s.results))
      (phase : t.phase = Function.update s.phase i p) (calls : p.calls = (s.phase i).calls)
      (replied : p.replied = (s.phase i).replied) : Tally n t := by
    simp only [Prod.mk.injEq] at same
    obtain ⟨called, reply, vp, pc, results⟩ := same
    refine y.quiet before (by rw [called, reply, vp]) (fun j => ?_) (fun j => ?_)
      (Or.inl ⟨by rw [pc, before], by rw [pc]⟩) fun _ there j inside => ?_
    · rw [phase]
      by_cases here : j = i
      · rw [here, Function.update_self, calls]
      · rw [Function.update_of_ne here]
    · rw [phase]
      by_cases here : j = i
      · rw [here, Function.update_self, replied]
      · rw [Function.update_of_ne here]
    · rw [results] at there
      rw [pc] at inside
      rw [State.cell, results]
      exact y.cells before there j inside
  have created : i ≠ 0 := by omega
  cases ph : s.phase i with
  | started =>
    simp only [workerStep, ph, Option.some.injEq] at h
    cases h
    apply quiet (p := if r.ok then .locking else .exited .unstarted) <;> cases r.ok <;>
      simp [ph, Phase.calls, Phase.replied]
  | locking | waking =>
    simp only [workerStep, ph] at h
    split at h <;> cases h
    apply quiet (p := .testing) <;> simp [ph, Phase.calls, Phase.replied]
  | testing =>
    simp only [workerStep, ph, Option.some.injEq] at h
    cases h
    apply quiet (p := if s.status = .wait then .entering else .unlocking s.status) <;>
      cases s.status <;> simp [ph, Phase.calls, Phase.replied]
  | entering =>
    simp only [workerStep, ph, Option.some.injEq] at h
    cases h
    apply quiet (p := .sleeping) <;> simp [ph, Phase.calls, Phase.replied]
  | unlocking st' =>
    simp only [workerStep, ph, Option.some.injEq] at h
    cases h
    apply quiet (p := if st' = .cancel then .exited .cancelled else .ready) <;> cases st' <;>
      simp [ph, Phase.calls, Phase.replied]
  | ready =>
    simp only [workerStep, ph, Option.some.injEq] at h
    cases h
    constructor
    · intro j other
      by_cases here : j = i
      · have := y.called i created
        rw [ph] at this
        simp [here, this, Phase.calls]
      · simpa [here] using y.called j other
    · intro j other
      by_cases here : j = i
      · have := y.reply i created
        rw [ph] at this
        simp [here, this, Phase.replied]
      · simpa [here] using y.reply j other
    · intro _
      simpa [created.symm] using y.own before
    · intro _ there j inside
      have := y.cells before (by simpa using there) j (by simpa using inside)
      simpa [State.cell, State.answer] using this
    · intro _
      exact y.vp before
    · intro ended
      exact absurd (before.symm.trans ended) Bool.false_ne_true
  | running =>
    simp only [workerStep, ph, Option.some.injEq] at h
    cases h
    constructor
    · intro j other
      by_cases here : j = i
      · have := y.called i created
        rw [ph] at this
        simp [here, this, Phase.calls]
      · simpa [here] using y.called j other
    · intro j other
      by_cases here : j = i
      · simp [here, Phase.replied]
      · simpa [here] using y.reply j other
    · intro _
      simpa [created.symm] using y.own before
    · intro _ there j inside
      have there : s.results.isSome = true := by simpa using there
      have same := y.cells before there j (by simpa using inside)
      obtain ⟨cells, there⟩ := Option.isSome_iff_exists.1 there
      by_cases here : j = i
      · simp [State.cell, State.answer, there, here]
      · simpa [State.cell, State.answer, there, here] using same
    · intro _
      exact y.vp before
    · intro ended
      exact absurd (before.symm.trans ended) Bool.false_ne_true
  | leaving =>
    simp only [workerStep, ph, Option.some.injEq] at h
    cases h
    apply quiet (p := .exited .finished) <;> simp [ph, Phase.calls, Phase.replied]
  | absent | sleeping | exited how => simp [workerStep, ph] at h

theorem spurious_tally (y : Tally n s) (c : Crew n s)
    (asleep : s.phase i = .sleeping) : Tally n (s.setPhase i .waking) := by
  obtain ⟨st, live, -⟩ := c.live (j := i) (by rw [asleep]; rfl)
  have before := Pc.not_ended_of_live live
  apply y.quiet before
  · simp
  · intro j
    by_cases here : j = i <;> simp [here, asleep, Phase.calls]
  · intro j
    by_cases here : j = i <;> simp [here, asleep, Phase.replied]
  · exact Or.inl ⟨before, rfl⟩
  · intro _ there j inside
    have := y.cells before (by simpa using there) j (by simpa using inside)
    simpa [State.cell] using this

/-! ### Nothing is used that is not there -/

theorem main_fault (c : Crew n s) (l : Layout n s) (sound : s.fault = false)
    (h : mainStep n s r = some t) : t.fault = false := by
  have within := l.bound
  have view := l.view
  cases pc : s.pc with
  | start | newLock | newCvar | mallocResults | mallocThreads | out | outResults | outCvar
  | outLock =>
    simp only [mainStep, pc, Option.some.injEq] at h
    (try split at h) <;> cases h <;> simp [sound]
  | rootResult i =>
    simp only [mainStep, pc, Option.some.injEq] at h
    simp only [pc, State.view, Pc.view, View.mk.injEq] at view
    (repeat' split at h) <;> cases h <;> simp [sound, view]
  | unrootResult i =>
    simp only [pc, State.view, Pc.view, View.mk.injEq, funext_iff] at view
    cases i <;> simp only [mainStep, pc, Option.some.injEq] at h <;> cases h <;>
      simp [sound, view]
  | rootFn i =>
    simp only [mainStep, pc, Option.some.injEq] at h
    simp only [pc, State.view, Pc.view, View.mk.injEq] at view
    (repeat' split at h) <;> cases h <;> simp [sound, view]
  | getElement i =>
    simp only [mainStep, pc] at h
    simp only [pc, State.view, Pc.view, View.mk.injEq, funext_iff] at view
    split at h <;> cases h <;> simp [sound, view]
  | unrootFn i =>
    simp only [pc, State.view, Pc.view, View.mk.injEq, funext_iff] at view
    cases i <;> simp only [mainStep, pc, Option.some.injEq] at h <;> cases h <;>
      simp [sound, view]
  | newContext i | createThread i =>
    simp only [mainStep, pc, Option.some.injEq] at h
    simp only [pc, State.view, Pc.view, View.mk.injEq] at view
    have filled (inside : i < n) : (s.datum i).isSome = true := by
      simpa [pc, view, inside] using l.filled (by simp [pc]) i
    split at h
    case isTrue more =>
      obtain ⟨d, here⟩ := Option.isSome_iff_exists.1 (filled more)
      rw [here] at h
      split at h <;> cases h <;> simp [sound, view]
    case isFalse =>
      cases h
      simp [sound]
  | lockFor st i =>
    simp only [mainStep, pc] at h
    simp only [pc, State.view, Pc.view, View.mk.injEq] at view
    split at h <;> cases h
    simp [sound, view]
  | notify st i =>
    have mine : s.owner = some 0 := (c.owner 0).2 (Or.inl (by simp [pc]))
    simp only [mainStep, pc, Option.some.injEq] at h
    simp only [pc, State.view, Pc.view, View.mk.injEq] at view
    cases h
    simp [sound, view, mine]
  | unlockFor st i =>
    have mine : s.owner = some 0 := (c.owner 0).2 (Or.inl (by simp [pc]))
    simp only [mainStep, pc, Option.some.injEq] at h
    cases h
    simp [sound, mine]
  | joinBack i =>
    simp only [mainStep, pc] at h
    (repeat' split at h) <;> cases h
    · have := l.joinable (i - 1) (by simp [pc]; omega)
      simp [sound, this]
    · simp [sound]
  | callOwn =>
    simp only [mainStep, pc, Option.some.injEq] at h
    simp only [pc, Pc.Bound] at within
    have := l.armed 0 (by simp [pc]; omega)
    cases h
    simp [sound, this]
  | ownRunning =>
    simp only [mainStep, pc, Option.some.injEq] at h
    simp only [pc, State.view, Pc.view, View.mk.injEq] at view
    cases h
    simp [sound, view]
  | join i =>
    simp only [mainStep, pc] at h
    (repeat' split at h) <;> cases h
    · have := l.joinable i (by simp [pc]; omega)
      simp [sound, this]
    · simp [sound]
  | newArray =>
    simp only [mainStep, pc, Option.some.injEq] at h
    simp only [pc, State.view, Pc.view, View.mk.injEq] at view
    split at h <;> cases h
    · by_cases zero : n = 0 <;> simp [sound, view, zero]
    · simp [sound]
  | outFn i =>
    simp only [mainStep, pc, Option.some.injEq] at h
    simp only [pc, State.view, Pc.view, View.mk.injEq, funext_iff] at view
    obtain ⟨-, -, -, threads, -, fns, -⟩ := view
    (repeat' split at h) <;> cases h
    · rename_i inside cx
      have context := c.contexts i
      have past := c.stage i
      have out : (s.phase i).inContext = false := by
        rw [pc] at past
        rcases past with absent | exited
        · rw [absent]
          rfl
        · exact Phase.not_inContext_of_exited exited
      simp [cx, pc, out] at context
      simp [sound, fns, inside, context]
    · rename_i inside cx
      have filled := l.filled (by simp [pc]) i
      simp [pc, threads, inside] at filled
      simp [sound, fns, inside, filled]
    · exact sound
  | outResult i =>
    simp only [mainStep, pc, Option.some.injEq] at h
    simp only [pc, State.view, Pc.view, View.mk.injEq, funext_iff] at view
    obtain ⟨-, -, -, -, rooted, -, -⟩ := view
    split at h <;> subst h
    case isTrue more => simp [sound, rooted, more]
    case isFalse => exact sound
  | returned => simp [mainStep, pc] at h

theorem worker_fault (c : Crew n s) (l : Layout n s) (sound : s.fault = false)
    (h : workerStep s i r = some t) : t.fault = false := by
  have alive := workerStep_alive h
  obtain ⟨st, live, -⟩ := c.live alive
  obtain ⟨-, low, -⟩ := Pc.of_live l.bound live
  obtain ⟨shared, fn, context⟩ := c.relies l alive
  have results : s.results.isSome = true := by
    simp only [State.shared, Bool.and_eq_true] at shared
    exact shared.1.2
  cases ph : s.phase i with
  | testing | entering | unlocking st' =>
    have mine : s.owner = some i := (c.owner i).2 (Or.inr (by rw [ph]; rfl))
    simp only [workerStep, ph, Option.some.injEq] at h
    cases h
    simp [sound, shared, mine]
  | ready =>
    simp only [workerStep, ph, Option.some.injEq] at h
    rw [ph] at context
    cases h
    simpa [sound, shared, context, Phase.inContext, State.datum] using fn
  | leaving =>
    simp only [workerStep, ph, Option.some.injEq] at h
    rw [ph] at context
    cases h
    simp [sound, shared, context, Phase.inContext]
  | started | locking | waking | running =>
    simp only [workerStep, ph] at h
    (try split at h) <;> cases h
    all_goals simp [sound, shared, results]
  | absent | sleeping | exited how => simp [workerStep, ph] at h

/-! ### Every interleaving -/

/-- What holds in every state. -/
structure Sound (n : ℕ) (s : State V) : Prop where
  layout : Layout n s
  crew : Crew n s
  tally : Tally n s
  fault : s.fault = false

theorem step_sound {m : Move V} (sound : Sound n s) (h : step n s m = some t) : Sound n t := by
  obtain ⟨layout, crew, tally, fault⟩ := sound
  cases m with
  | main r =>
    exact ⟨main_layout layout h, main_crew crew layout h, main_tally tally crew layout h,
      main_fault crew layout fault h⟩
  | worker i r =>
    exact ⟨worker_layout layout h, worker_crew crew layout h, worker_tally tally crew layout h,
      worker_fault crew layout fault h⟩
  | spurious i =>
    simp only [step] at h
    split at h <;> cases h
    exact ⟨layout.congr rfl rfl rfl, spurious_crew crew layout ‹_›, spurious_tally tally crew ‹_›,
      fault⟩

theorem reached_sound {moves : List (Move V)} (run : exec (step n) .init moves = some s) :
    Sound n s :=
  exec_inv (Sound n) (fun _ _ _ => step_sound)
    ⟨Layout.init n, Crew.init n, Tally.init n, rfl⟩ run

/-- Nothing is left of the call: no lock, no condition variable, no array, no root, no context, and
no thread. -/
structure State.Released (s : State V) : Prop where
  lock : s.lock = false
  cvar : s.cvar = false
  results : s.results = none
  threads : s.threads = none
  roots : ∀ r, s.roots r = false
  contexts : ∀ i, s.contexts i = .gone
  joined : ∀ i, (s.phase i).alive = false

theorem Sound.released (sound : Sound n s) (returned : s.pc = .returned) : s.Released := by
  have view := sound.layout.view
  simp only [returned, State.view, Pc.view, View.mk.injEq, funext_iff, Option.isSome_eq_false_iff,
    Option.isNone_iff_eq_none] at view
  obtain ⟨lock, cvar, results, threads, rootedResult, rootedFn, cx⟩ := view
  refine ⟨lock, cvar, results, threads, fun r => ?_, fun i => ?_, fun i => ?_⟩
  · cases r with
    | result i => exact rootedResult i
    | fn i => exact rootedFn i
  · rw [sound.crew.contexts i, cx i]
    simp
  · by_contra alive
    obtain ⟨st, live, -⟩ := sound.crew.live (Bool.not_eq_false _ ▸ alive)
    simp [returned] at live

/-- Two functions: the created thread sleeps before it is told to go. -/
def twoThreads : List (Move ℕ) :=
  let main := Move.main (.done 1)
  let worker := Move.worker 1 (.done 2)
  List.replicate 16 main ++ List.replicate 4 worker ++ List.replicate 4 main ++
    List.replicate 4 worker ++ List.replicate 2 main ++ List.replicate 2 worker ++
    List.replicate 13 main

/-- In no interleaving does `scatter` use what is not there: no root is taken back twice, no context
is set while another thread has it, the lock, the condition variable and the two arrays are there
whenever a thread turns to them, and the status is read and set, and the condition variable waited
for and notified, by the thread that holds the lock.  No function is called twice. -/
theorem scatter_sound (n : ℕ) (moves : List (Move V)) (s : State V)
    (run : exec (step n) .init moves = some s) : s.fault = false ∧ ∀ i < n, s.called i ≤ 1 := by
  have sound := reached_sound run
  refine ⟨sound.fault, fun i inside => ?_⟩
  by_cases zero : i = 0
  · cases ended : s.pc.ended with
    | false =>
      rw [zero, (sound.tally.own ended).1]
      cases Pc.own n s.pc with
      | exited how => cases how <;> simp [Phase.calls]
      | _ => simp [Phase.calls]
    | true =>
      have settled := sound.tally.settled ended
      rw [State.Settled] at settled
      split at settled
      · rcases settled.2 i inside with ⟨once, -⟩ | ⟨created, -⟩
        · exact once.le
        · exact absurd zero created
      · rcases settled.2 with nobody | everyone
        · exact (nobody i).trans_le (Nat.zero_le 1)
        · rcases everyone i inside with ⟨once, -⟩ | ⟨created, -⟩
          · exact once.le
          · exact absurd zero created
  · rw [sound.tally.called i zero]
    cases s.phase i with
    | exited how => cases how <;> simp [Phase.calls]
    | _ => simp [Phase.calls]

theorem scatter_sound_two : ∃ s, exec (step 2) .init twoThreads = some s ∧ s.fault = false ∧
    ∀ i < 2, s.called i ≤ 1 :=
  ⟨_, rfl, scatter_sound 2 twoThreads _ rfl⟩

/-- When `scatter` returns, in whatever order the threads ran and whichever calls failed, everything
is given back and no thread runs on.  If it succeeds, each function was called once and its cell of
the array is what its call left, except that a thread that could not set its stack base leaves
`undefined`; if it fails, either no function was called or all were. -/
theorem scatter_returned (n : ℕ) (moves : List (Move V)) (s : State V)
    (run : exec (step n) .init moves = some s) (returned : s.pc = .returned) :
    s.Released ∧ s.Settled n :=
  ⟨(reached_sound run).released returned, (reached_sound run).tally.settled (by simp [returned])⟩

theorem scatter_returned_two : ∃ s, exec (step 2) .init twoThreads = some s ∧
    s.vp = some [.value 1, .value 2] ∧ s.Released ∧ s.Settled 2 :=
  ⟨_, rfl, rfl, scatter_returned 2 twoThreads _ rfl rfl⟩

end Sysjs.Scatter
