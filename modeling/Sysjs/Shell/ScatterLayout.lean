import Sysjs.Shell.Scatter

/-!
# The memory of a scatter

What is allocated, rooted and filled in at each step of the thread that called `scatter`.
-/

set_option autoImplicit false

namespace Sysjs.Scatter

variable {V : Type*}

/-- What is there: the lock, the condition variable and the two arrays, the rooted results and
functions, and the threads that have a context. -/
@[ext] structure View where
  lock : Bool
  cvar : Bool
  results : Bool
  threads : Bool
  rootedResult : ℕ → Bool
  rootedFn : ℕ → Bool
  cx : ℕ → Bool

@[simp] def State.view (s : State V) : View where
  lock := s.lock
  cvar := s.cvar
  results := s.results.isSome
  threads := s.threads.isSome
  rootedResult j := s.roots (.result j)
  rootedFn j := s.roots (.fn j)
  cx := s.hasCx

namespace Pc

/-- The range of the loop counters, and the status that is going to be set. -/
@[simp] def Bound (n : ℕ) : Pc → Prop
  | .newLock | .newCvar | .mallocResults | .mallocThreads | .callOwn | .ownRunning => 1 ≤ n
  | .rootResult i | .rootFn i => 1 ≤ n ∧ i ≤ n
  | .unrootResult i | .getElement i | .unrootFn i => i < n
  | .newContext i | .createThread i | .join i => 1 ≤ i ∧ i ≤ n
  | .lockFor st i | .notify st i | .unlockFor st i =>
    1 ≤ i ∧ ((st = .go ∧ i = n) ∨ (st = .cancel ∧ i < n))
  | .joinBack i => 1 ≤ i ∧ i < n
  | .outFn i | .outResult i => i ≤ n
  | .start | .newArray | .out | .outResults | .outCvar | .outLock | .returned => True

/-- What is there at each step; from `out` on, it depends on what was there before. -/
@[simp] def view (n : ℕ) (v : View) : Pc → View
  | .start | .newLock =>
    ⟨false, false, false, false, fun _ => false, fun _ => false, fun _ => false⟩
  | .newCvar => ⟨true, false, false, false, fun _ => false, fun _ => false, fun _ => false⟩
  | .mallocResults => ⟨true, true, false, false, fun _ => false, fun _ => false, fun _ => false⟩
  | .rootResult i | .unrootResult i =>
    ⟨true, true, true, false, fun j => j < i, fun _ => false, fun _ => false⟩
  | .mallocThreads =>
    ⟨true, true, true, false, fun j => j < n, fun _ => false, fun _ => false⟩
  | .rootFn i | .unrootFn i =>
    ⟨true, true, true, true, fun j => j < n, fun j => j < i, fun _ => false⟩
  | .getElement i =>
    ⟨true, true, true, true, fun j => j < n, fun j => j < i + 1, fun _ => false⟩
  | .newContext i =>
    ⟨true, true, true, true, fun j => j < n, fun j => j < n, fun j => 1 ≤ j && j < i⟩
  | .newArray =>
    ⟨n ≠ 0, n ≠ 0, n ≠ 0, n ≠ 0, fun j => j < n, fun j => j < n, fun j => 1 ≤ j && j < n⟩
  | .out =>
    { v with
      rootedResult := fun j => v.results && j < n
      rootedFn := fun j => v.threads && j < n }
  | .outFn i =>
    { v with
      threads := true
      rootedResult := fun j => v.results && j < n
      rootedFn := fun j => i ≤ j && j < n }
  | .outResults =>
    { v with
      threads := false
      rootedResult := fun j => v.results && j < n
      rootedFn := fun _ => false
      cx := fun _ => false }
  | .outResult i =>
    ⟨v.lock, v.cvar, true, false, fun j => i ≤ j && j < n, fun _ => false, fun _ => false⟩
  | .outCvar =>
    ⟨v.lock, v.cvar, false, false, fun _ => false, fun _ => false, fun _ => false⟩
  | .outLock => ⟨v.lock, false, false, false, fun _ => false, fun _ => false, fun _ => false⟩
  | .returned => ⟨false, false, false, false, fun _ => false, fun _ => false, fun _ => false⟩
  | _ => ⟨true, true, true, true, fun j => j < n, fun j => j < n, fun j => 1 ≤ j && j < n⟩

/-- The threads whose data is filled in, if there is data of threads. -/
@[simp] def filled (n : ℕ) : Pc → ℕ → Bool
  | .rootFn i, j => j < i
  | .getElement i, j => j ≤ i
  | _, j => j < n

/-- The threads whose function is known to be set. -/
@[simp] def armed (n : ℕ) : Pc → ℕ → Bool
  | .rootFn i, j | .getElement i, j => j < i
  | .newContext _, j | .createThread _, j | .lockFor _ _, j | .notify _ _, j | .unlockFor _ _, j
  | .joinBack _, j | .callOwn, j | .ownRunning, j | .join _, j => j < n
  | _, _ => false

/-- The threads that are going to be joined. -/
@[simp] def joinable (n : ℕ) : Pc → ℕ → Bool
  | .createThread i, j | .lockFor _ i, j | .notify _ i, j | .unlockFor _ i, j
  | .joinBack i, j => 1 ≤ j && j < i
  | .callOwn, j | .ownRunning, j => 1 ≤ j && j < n
  | .join i, j => i ≤ j && j < n
  | _, _ => false

end Pc

/-- What is allocated, rooted and filled in at each step. -/
structure Layout (n : ℕ) (s : State V) : Prop where
  bound : s.pc.Bound n
  view : s.view = s.pc.view n s.view
  filled : (∀ i, s.pc ≠ .unrootFn i) →
    ∀ j, (s.datum j).isSome = (s.threads.isSome && s.pc.filled n j)
  armed : ∀ j, s.pc.armed n j = true → ((s.datum j).any fun d => d.fn.isSome) = true
  joinable : ∀ j, s.pc.joinable n j = true → ((s.datum j).any fun d => d.thr) = true

theorem Layout.init (n : ℕ) : Layout n (State.init : State V) := by
  constructor <;>
    simp [State.init, Pc.Bound, Pc.view, State.view, State.datum, Pc.armed, Pc.joinable,
      funext_iff, State.hasCx]

/-- `Layout` is about the memory only. -/
theorem Layout.congr {n : ℕ} {s t : State V} (l : Layout n s) (pc : t.pc = s.pc)
    (view : t.view = s.view) (threads : t.threads = s.threads) : Layout n t := by
  obtain ⟨bound, same, filled, armed, joinable⟩ := l
  have datum : t.datum = s.datum := by
    funext j
    rw [State.datum, State.datum, threads]
  constructor
  · rwa [pc]
  · rwa [pc, view]
  · rwa [pc, threads, datum]
  · rwa [pc, datum]
  · rwa [pc, datum]

section
variable {n i : ℕ} {s t : State V} {r : Reply V}

theorem Layout.seen (l : Layout n s) {p : Pc} (pc : s.pc = p) : s.view = p.view n s.view :=
  pc ▸ l.view

theorem Layout.within (l : Layout n s) {p : Pc} (pc : s.pc = p) : p.Bound n := pc ▸ l.bound

/-! ### What an operation changes -/

theorem view_goto (s : State V) (pc : Pc) : (s.goto pc).view = s.view := rfl

theorem view_addRoot_result (s : State V) (i : ℕ) : (s.addRoot (.result i)).view =
    { s.view with rootedResult := Function.update s.view.rootedResult i true } := by
  simp [funext_iff, State.hasCx, State.datum, Function.update_apply]

theorem view_addRoot_fn (s : State V) (i : ℕ) : (s.addRoot (.fn i)).view =
    { s.view with rootedFn := Function.update s.view.rootedFn i true } := by
  simp [funext_iff, State.hasCx, State.datum, Function.update_apply]

theorem view_removeRoot_result (s : State V) (i : ℕ) : (s.removeRoot (.result i)).view =
    { s.view with rootedResult := Function.update s.view.rootedResult i false } := by
  simp [funext_iff, State.hasCx, State.datum, Function.update_apply]

theorem view_removeRoot_fn (s : State V) (i : ℕ) : (s.removeRoot (.fn i)).view =
    { s.view with rootedFn := Function.update s.view.rootedFn i false } := by
  simp [funext_iff, State.hasCx, State.datum, Function.update_apply]

theorem view_setResult (s : State V) (i : ℕ) (c : Cell V) : (s.setResult i c).view = s.view := by
  simp [funext_iff, State.hasCx, State.datum]

theorem datum_setDatum (there : s.threads.isSome = true) (i : ℕ) (d : ThreadData V) (j : ℕ) :
    (s.setDatum i d).datum j = if j = i then some d else s.datum j := by
  obtain ⟨td, there⟩ := Option.isSome_iff_exists.1 there
  simp [State.datum, there, Function.update_apply]

theorem view_setDatum (there : s.threads.isSome = true) (i : ℕ) (d : ThreadData V) :
    (s.setDatum i d).view = { s.view with cx := Function.update s.view.cx i d.cx } := by
  have cx (j : ℕ) : (s.setDatum i d).hasCx j = Function.update s.hasCx i d.cx j := by
    rw [State.hasCx, datum_setDatum there, Function.update_apply]
    by_cases here : j = i
    · rw [if_pos here, if_pos here, Option.any_some]
    · rw [if_neg here, if_neg here, State.hasCx]
  exact View.ext rfl rfl rfl (by simp) rfl rfl (funext cx)

theorem view_setDatum_same (there : s.threads.isSome = true) {d : ThreadData V}
    (same : s.view.cx i = d.cx) : (s.setDatum i d).view = s.view := by
  rw [view_setDatum there, ← same, Function.update_eq_self]

theorem update_below (i : ℕ) :
    Function.update (fun j => decide (j < i)) i true = fun j => decide (j < i + 1) := by
  funext j
  rw [Function.update_apply]
  split <;> simp only [decide_eq_decide, eq_comm (a := true), decide_eq_true_eq] <;> omega

theorem update_between {a i : ℕ} (low : a ≤ i) :
    Function.update (fun j => decide (a ≤ j) && decide (j < i)) i true =
      fun j => decide (a ≤ j) && decide (j < i + 1) := by
  funext j
  rw [Function.update_apply]
  split <;> simp only [← Bool.decide_and, decide_eq_decide, eq_comm (a := true),
    decide_eq_true_eq] <;> omega

theorem update_back (i : ℕ) :
    Function.update (fun j => decide (j < i + 1)) i false = fun j => decide (j < i) := by
  funext j
  rw [Function.update_apply]
  split <;> simp only [decide_eq_decide, eq_comm (a := false), decide_eq_false_iff_not] <;> omega

theorem between_empty (a : ℕ) : (fun j => decide (a ≤ j) && decide (j < a)) = fun _ => false := by
  funext j
  rw [← Bool.decide_and, decide_eq_false_iff_not]
  omega

theorem update_front (i n : ℕ) :
    Function.update (fun j => decide (i ≤ j) && decide (j < n)) i false =
      fun j => decide (i + 1 ≤ j) && decide (j < n) := by
  funext j
  rw [Function.update_apply]
  split <;> simp only [← Bool.decide_and, decide_eq_decide, eq_comm (a := false),
    decide_eq_false_iff_not] <;> omega

/-! ### Steps, by what they leave of the data of the threads -/

/-- There is no data of threads. -/
theorem Layout.bare (bound : t.pc.Bound n) (view : t.view = t.pc.view n t.view)
    (none : t.threads.isSome = false) (unarmed : ∀ j, t.pc.armed n j = false)
    (unjoined : ∀ j, t.pc.joinable n j = false) : Layout n t where
  bound := bound
  view := view
  filled _ j := by
    rw [Option.isSome_eq_false_iff, Option.isNone_iff_eq_none] at none
    rw [State.datum, none]
    rfl
  armed j h := absurd h (by rw [unarmed]; decide)
  joinable j h := absurd h (by rw [unjoined]; decide)

/-- The data of the threads is left as it is. -/
theorem Layout.next (l : Layout n s) {p : Pc} (pc : s.pc = p) (bound : t.pc.Bound n)
    (view : t.view = t.pc.view n t.view) (threads : t.threads = s.threads)
    (whole : ∀ i, p ≠ .unrootFn i) (filled : t.pc.filled n = p.filled n)
    (armed : ∀ j, t.pc.armed n j = true → p.armed n j = true)
    (joinable : ∀ j, t.pc.joinable n j = true → p.joinable n j = true) : Layout n t := by
  subst pc
  have datum : t.datum = s.datum := by
    funext j
    rw [State.datum, State.datum, threads]
  constructor
  case bound => exact bound
  case view => exact view
  case filled =>
    intro _ j
    rw [datum, threads, filled]
    exact l.filled whole j
  case armed =>
    intro j h
    rw [datum]
    exact l.armed j (armed j h)
  case joinable =>
    intro j h
    rw [datum]
    exact l.joinable j (joinable j h)

/-- The label `fail` is reached with all the results and all the functions rooted that there are. -/
theorem Layout.fail (l : Layout n s) {p : Pc} (pc : s.pc = p) (whole : ∀ i, p ≠ .unrootFn i)
    (filled : p.filled n = fun j => decide (j < n))
    (results : (p.view n s.view).rootedResult =
      fun j => (p.view n s.view).results && decide (j < n))
    (fns : (p.view n s.view).rootedFn = fun j => (p.view n s.view).threads && decide (j < n)) :
    Layout n s.fail := by
  rw [← l.seen pc] at results fns
  refine l.next pc trivial ?_ rfl whole filled.symm (fun _ h => by cases h) fun _ h => by cases h
  exact View.ext rfl rfl rfl rfl results fns rfl

/-- The data of one thread is written. -/
theorem Layout.write (l : Layout n s) {p : Pc} {d : ThreadData V} (pc : s.pc = p)
    (bound : t.pc.Bound n) (view : t.view = t.pc.view n t.view)
    (there : s.threads.isSome = true) (threads : t.threads = (s.setDatum i d).threads)
    (whole : ∀ j, p ≠ .unrootFn j)
    (filled : (∀ j, t.pc ≠ .unrootFn j) →
      ∀ j, t.pc.filled n j = if j = i then true else p.filled n j)
    (armed : ∀ j, t.pc.armed n j = true →
      if j = i then d.fn.isSome = true else p.armed n j = true)
    (joinable : ∀ j, t.pc.joinable n j = true →
      if j = i then d.thr = true else p.joinable n j = true) : Layout n t := by
  subst pc
  have datum (j : ℕ) : t.datum j = if j = i then some d else s.datum j := by
    rw [← datum_setDatum there, State.datum, State.datum, threads]
  constructor
  case bound => exact bound
  case view => exact view
  case filled =>
    intro rooted j
    have still : t.threads.isSome = true := by simp [threads, there]
    have all := l.filled whole j
    rw [there, Bool.true_and] at all
    rw [still, Bool.true_and, filled rooted, datum]
    split
    · rfl
    · exact all
  case armed =>
    intro j h
    have known := armed j h
    rw [datum]
    split at known
    · rwa [if_pos ‹_›]
    · rw [if_neg ‹_›]
      exact l.armed j known
  case joinable =>
    intro j h
    have known := joinable j h
    rw [datum]
    split at known
    · rwa [if_pos ‹_›]
    · rw [if_neg ‹_›]
      exact l.joinable j known

/-! ### The steps of the thread that called `scatter` -/

theorem layout_start (l : Layout n s) (pc : s.pc = .start) (h : mainStep n s r = some t) :
    Layout n t := by
  have view := l.seen pc
  have bare : s.threads.isSome = false := congrArg View.threads view
  simp only [mainStep, pc, Option.some.injEq] at h
  split at h <;> subst h
  case isTrue =>
    by_cases zero : n = 0
    · subst zero
      refine .bare trivial (view.trans ?_) bare (fun _ => rfl) fun _ => rfl
      simp
    · rw [if_neg zero]
      exact .bare (Nat.one_le_iff_ne_zero.2 zero) view bare (fun _ => rfl) fun _ => rfl
  case isFalse => exact l.fail pc (by simp) rfl rfl rfl

theorem layout_newLock (l : Layout n s) (pc : s.pc = .newLock) (h : mainStep n s r = some t) :
    Layout n t := by
  have view := l.seen pc
  have bare : s.threads.isSome = false := congrArg View.threads view
  have one : 1 ≤ n := l.within pc
  simp only [mainStep, pc, Option.some.injEq] at h
  split at h <;> subst h
  case isTrue =>
    exact .bare one (congrArg (fun v : View => { v with lock := true }) view) bare (fun _ => rfl)
      fun _ => rfl
  case isFalse => exact l.fail pc (by simp) rfl rfl rfl

theorem layout_newCvar (l : Layout n s) (pc : s.pc = .newCvar) (h : mainStep n s r = some t) :
    Layout n t := by
  have view := l.seen pc
  have bare : s.threads.isSome = false := congrArg View.threads view
  have one : 1 ≤ n := l.within pc
  simp only [mainStep, pc, Option.some.injEq] at h
  split at h <;> subst h
  case isTrue =>
    exact .bare one (congrArg (fun v : View => { v with cvar := true }) view) bare (fun _ => rfl)
      fun _ => rfl
  case isFalse => exact l.fail pc (by simp) rfl rfl rfl

theorem layout_mallocResults (l : Layout n s) (pc : s.pc = .mallocResults)
    (h : mainStep n s r = some t) : Layout n t := by
  have view := l.seen pc
  have bare : s.threads.isSome = false := congrArg View.threads view
  have one : 1 ≤ n := l.within pc
  simp only [mainStep, pc, Option.some.injEq] at h
  split at h <;> subst h
  case isTrue =>
    exact .bare ⟨one, Nat.zero_le n⟩
      ((congrArg (fun v : View => { v with results := true }) view).trans (by simp)) bare
      (fun _ => rfl) fun _ => rfl
  case isFalse => exact l.fail pc (by simp) rfl rfl rfl

theorem layout_rootResult (l : Layout n s) (pc : s.pc = .rootResult i)
    (h : mainStep n s r = some t) : Layout n t := by
  have view := l.seen pc
  have bare : s.threads.isSome = false := congrArg View.threads view
  obtain ⟨one, inside⟩ := l.within pc
  simp only [mainStep, pc, Option.some.injEq] at h
  split at h
  case isTrue more =>
    split at h <;> subst h
    case isTrue =>
      refine .bare ⟨one, more⟩ ?_ bare (fun _ => rfl) fun _ => rfl
      rw [view_goto, view_addRoot_result, view_setResult, view]
      exact congrArg (fun f => (⟨true, true, true, false, f, _, _⟩ : View)) (update_below i)
    case isFalse =>
      exact .bare more ((view_setResult s i .void).trans view) bare (fun _ => rfl) fun _ => rfl
  case isFalse done =>
    subst h
    obtain rfl : i = n := Nat.le_antisymm inside (not_lt.1 done)
    exact .bare one view bare (fun _ => rfl) fun _ => rfl

theorem layout_unrootResult (l : Layout n s) (pc : s.pc = .unrootResult i)
    (h : mainStep n s r = some t) : Layout n t := by
  have view := l.seen pc
  have bare : s.threads.isSome = false := congrArg View.threads view
  have inside := l.within pc
  cases i with
  | zero =>
    simp only [mainStep, pc, Option.some.injEq] at h
    subst h
    refine .bare trivial (View.ext rfl rfl rfl rfl ?_ ?_ rfl) bare (fun _ => rfl) fun _ => rfl
    · simpa using congrArg View.rootedResult view
    · simpa [bare] using congrArg View.rootedFn view
  | succ i =>
    simp only [mainStep, pc, Option.some.injEq] at h
    subst h
    refine .bare (Nat.lt_of_succ_lt inside) ?_ bare (fun _ => rfl) fun _ => rfl
    rw [view_goto, view_removeRoot_result, view]
    exact congrArg (fun f => (⟨true, true, true, false, f, _, _⟩ : View)) (update_back i)

theorem layout_mallocThreads (l : Layout n s) (pc : s.pc = .mallocThreads)
    (h : mainStep n s r = some t) : Layout n t := by
  have view := l.seen pc
  have one : 1 ≤ n := l.within pc
  simp only [mainStep, pc, Option.some.injEq] at h
  split at h <;> subst h
  case isTrue =>
    constructor
    case bound => exact ⟨one, Nat.zero_le n⟩
    case view =>
      obtain ⟨lock, cvar, results, -, rootedResult, rootedFn, -⟩ := View.ext_iff.1 view
      exact View.ext lock cvar results rfl rootedResult (by simpa using rootedFn) rfl
    case filled => simp [State.datum]
    case armed => simp
    case joinable => simp
  case isFalse => exact l.fail pc (by simp) rfl rfl rfl

theorem layout_rootFn (l : Layout n s) (pc : s.pc = .rootFn i) (h : mainStep n s r = some t) :
    Layout n t := by
  have view := l.seen pc
  have there : s.threads.isSome = true := congrArg View.threads view
  have unset : s.view.cx i = false := congrFun (congrArg View.cx view) i
  obtain ⟨one, inside⟩ := l.within pc
  simp only [mainStep, pc, Option.some.injEq] at h
  split at h
  case isTrue more =>
    split at h <;> subst h
    case isTrue =>
      refine l.write pc more ?_ there rfl (by simp) (fun _ j => ?_) (fun j known => ?_)
        fun j known => absurd known (by simp)
      · rw [view_goto, view_addRoot_fn, view_setDatum_same there unset, view]
        exact congrArg (fun f => (⟨true, true, true, true, _, f, _⟩ : View)) (update_below i)
      · by_cases here : j = i <;> simp [here, Nat.le_iff_lt_or_eq]
      · rw [if_neg (by simpa using Nat.ne_of_lt (of_decide_eq_true known))]
        exact known
    case isFalse =>
      refine l.write pc more ?_ there rfl (by simp) (fun rooted => absurd rfl (rooted i))
        (fun j known => absurd known (by simp)) fun j known => absurd known (by simp)
      rw [view_goto, view_setDatum_same there unset]
      exact view
  case isFalse done =>
    subst h
    obtain rfl : i = n := Nat.le_antisymm inside (not_lt.1 done)
    refine l.next pc ⟨le_refl 1, one⟩ (view.trans ?_) rfl (by simp) rfl (fun _ known => known)
      fun _ known => absurd known (by simp)
    exact congrArg (fun f => (⟨true, true, true, true, _, _, f⟩ : View)) (between_empty 1).symm

theorem layout_getElement (l : Layout n s) (pc : s.pc = .getElement i)
    (h : mainStep n s r = some t) : Layout n t := by
  have view := l.seen pc
  have there : s.threads.isSome = true := congrArg View.threads view
  have unset : s.view.cx i = false := congrFun (congrArg View.cx view) i
  have inside : i < n := l.within pc
  simp only [mainStep, pc] at h
  split at h <;> rw [Option.some.injEq] at h <;> subst h
  case h_1 v =>
    refine l.write pc ⟨Nat.one_le_of_lt inside, inside⟩ ?_ there rfl (by simp) (fun _ j => ?_)
      (fun j known => ?_) fun j known => absurd known (by simp)
    · rw [view_goto, view_setDatum_same there unset]
      exact view
    · by_cases here : j = i
      · simp [here]
      · rw [if_neg here]
        exact decide_eq_decide.2 Nat.lt_succ_iff
    · have low : j < i + 1 := of_decide_eq_true known
      split
      · rfl
      · exact decide_eq_true (by omega)
  case h_2 =>
    refine ⟨inside, ?_, fun rooted => absurd rfl (rooted i), fun j known => absurd known (by simp),
      fun j known => absurd known (by simp)⟩
    rw [view_goto, view_removeRoot_fn, view]
    exact congrArg (fun f => (⟨true, true, true, true, _, f, _⟩ : View)) (update_back i)

theorem layout_unrootFn (l : Layout n s) (pc : s.pc = .unrootFn i)
    (h : mainStep n s r = some t) : Layout n t := by
  have view := l.seen pc
  have inside : i < n := l.within pc
  cases i with
  | zero =>
    simp only [mainStep, pc, Option.some.injEq] at h
    subst h
    obtain ⟨lock, cvar, results, -, rootedResult, rootedFn, -⟩ := View.ext_iff.1 view
    refine .bare trivial (View.ext rfl rfl rfl rfl ?_ ?_ rfl) rfl (fun _ => rfl) fun _ => rfl
    · change s.view.rootedResult = fun j => s.view.results && decide (j < n)
      rw [rootedResult, results]
      rfl
    · simpa using rootedFn
  | succ i =>
    simp only [mainStep, pc, Option.some.injEq] at h
    subst h
    refine ⟨Nat.lt_of_succ_lt inside, ?_, fun rooted => absurd rfl (rooted i),
      fun j known => absurd known (by simp), fun j known => absurd known (by simp)⟩
    rw [view_goto, view_removeRoot_fn, view]
    exact congrArg (fun f => (⟨true, true, true, true, _, f, _⟩ : View)) (update_back i)

theorem layout_newContext (l : Layout n s) (pc : s.pc = .newContext i)
    (h : mainStep n s r = some t) : Layout n t := by
  have view := l.seen pc
  have there : s.threads.isSome = true := congrArg View.threads view
  obtain ⟨one, inside⟩ := l.within pc
  simp only [mainStep, pc, Option.some.injEq] at h
  split at h
  case isTrue more =>
    obtain ⟨d, here, fn⟩ := (Option.any_eq_true _ _).1
      (l.armed i (by rw [pc]; exact decide_eq_true more))
    rw [here] at h
    split at h <;> subst h
    case isTrue =>
      refine l.write pc ⟨Nat.le_add_left 1 i, more⟩ ?_ there rfl (by simp) (fun _ j => ?_)
        (fun j known => ?_) fun j known => absurd known (by simp)
      · rw [view_goto, view_setDatum (s := s.setContext i .idle) there]
        change { s.view with cx := Function.update s.view.cx i true } = _
        rw [view]
        exact congrArg (fun f => (⟨true, true, true, true, _, _, f⟩ : View)) (update_between one)
      · by_cases same : j = i <;> simp [same, more]
      · split
        · exact fn
        · exact known
    case isFalse => exact l.fail pc (by simp) rfl rfl rfl
  case isFalse done =>
    subst h
    obtain rfl : i = n := Nat.le_antisymm inside (not_lt.1 done)
    refine l.next pc ⟨le_refl 1, one⟩ view rfl (by simp) rfl (fun _ known => known)
      fun j known => ?_
    simp only [Pc.joinable, State.goto, ← Bool.decide_and, decide_eq_true_eq] at known
    omega

theorem layout_createThread (l : Layout n s) (pc : s.pc = .createThread i)
    (h : mainStep n s r = some t) : Layout n t := by
  have view := l.seen pc
  have there : s.threads.isSome = true := congrArg View.threads view
  obtain ⟨one, inside⟩ := l.within pc
  simp only [mainStep, pc, Option.some.injEq] at h
  split at h
  case isTrue more =>
    obtain ⟨d, here, fn⟩ := (Option.any_eq_true _ _).1
      (l.armed i (by rw [pc]; exact decide_eq_true more))
    rw [here] at h
    split at h <;> subst h
    case isTrue =>
      have same : s.view.cx i = ({ d with thr := true } : ThreadData V).cx := by
        change (s.datum i).any (fun d => d.cx) = d.cx
        rw [here, Option.any_some]
      refine l.write pc ⟨Nat.le_add_left 1 i, more⟩ ?_ there rfl (by simp) (fun _ j => ?_)
        (fun j known => ?_) fun j known => ?_
      · rw [view_goto, view_setDatum_same (s := s.setPhase i .started) there same]
        exact view
      · by_cases same : j = i <;> simp [same, more]
      · split
        · exact fn
        · exact known
      · split
        · rfl
        · simp only [Pc.joinable, State.goto, ← Bool.decide_and, decide_eq_true_eq] at known ⊢
          omega
    case isFalse =>
      exact l.next pc ⟨one, Or.inr ⟨rfl, more⟩⟩ view rfl (by simp) rfl (fun _ known => known)
        fun _ known => known
  case isFalse done =>
    subst h
    obtain rfl : i = n := Nat.le_antisymm inside (not_lt.1 done)
    exact l.next pc ⟨one, Or.inl ⟨rfl, rfl⟩⟩ view rfl (by simp) rfl (fun _ known => known)
      fun _ known => known

theorem layout_lockFor {g : Status} (l : Layout n s) (pc : s.pc = .lockFor g i)
    (h : mainStep n s r = some t) : Layout n t := by
  have within := l.within pc
  have view := l.seen pc
  simp only [mainStep, pc] at h
  split at h <;> cases h
  exact l.next pc within view rfl (by simp) rfl (fun _ known => known)
    fun _ known => known

theorem layout_notify {g : Status} (l : Layout n s) (pc : s.pc = .notify g i)
    (h : mainStep n s r = some t) : Layout n t := by
  have within := l.within pc
  have view := l.seen pc
  simp only [mainStep, pc, Option.some.injEq] at h
  subst h
  exact l.next pc within view rfl (by simp) rfl (fun _ known => known)
    fun _ known => known

theorem layout_unlockFor {g : Status} (l : Layout n s) (pc : s.pc = .unlockFor g i)
    (h : mainStep n s r = some t) : Layout n t := by
  simp only [mainStep, pc, Option.some.injEq] at h
  subst h
  have view := l.seen pc
  obtain ⟨one, ⟨rfl, rfl⟩ | ⟨rfl, more⟩⟩ := l.within pc
  · exact l.next pc one view rfl (by simp) rfl (fun _ known => known)
      fun _ known => known
  · exact l.next pc ⟨one, more⟩ view rfl (by simp) rfl (fun _ known => known)
      fun _ known => known

theorem layout_joinBack (l : Layout n s) (pc : s.pc = .joinBack i)
    (h : mainStep n s r = some t) : Layout n t := by
  obtain ⟨one, inside⟩ := l.within pc
  have view := l.seen pc
  simp only [mainStep, pc] at h
  split at h
  case isTrue more =>
    split at h <;> cases h
    refine l.next pc ⟨Nat.le_sub_one_of_lt more, Nat.lt_of_le_of_lt (Nat.sub_le i 1) inside⟩
      view rfl (by simp) rfl (fun _ known => known) fun j known => ?_
    simp only [Pc.joinable, State.goto, ← Bool.decide_and, decide_eq_true_eq] at known ⊢
    omega
  case isFalse =>
    cases h
    exact l.fail pc (by simp) rfl rfl rfl

theorem layout_callOwn (l : Layout n s) (pc : s.pc = .callOwn) (h : mainStep n s r = some t) :
    Layout n t := by
  have within : 1 ≤ n := l.within pc
  have view := l.seen pc
  simp only [mainStep, pc, Option.some.injEq] at h
  subst h
  exact l.next pc within view rfl (by simp) rfl (fun _ known => known)
    fun _ known => known

theorem layout_ownRunning (l : Layout n s) (pc : s.pc = .ownRunning)
    (h : mainStep n s r = some t) : Layout n t := by
  have within : 1 ≤ n := l.within pc
  have view := l.seen pc
  simp only [mainStep, pc, Option.some.injEq] at h
  subst h
  exact l.next pc ⟨le_refl 1, within⟩ ((view_setResult s 0 r.rval).trans view) rfl
    (by simp) rfl (fun _ known => known) fun _ known => known

theorem layout_join (l : Layout n s) (pc : s.pc = .join i) (h : mainStep n s r = some t) :
    Layout n t := by
  have view := l.seen pc
  obtain ⟨one, inside⟩ := l.within pc
  simp only [mainStep, pc] at h
  split at h
  case isTrue more =>
    split at h <;> cases h
    refine l.next pc ⟨Nat.le_add_left 1 i, more⟩ view rfl (by simp) rfl (fun _ known => known)
      fun j known => ?_
    simp only [Pc.joinable, State.goto, State.need, ← Bool.decide_and, decide_eq_true_eq]
      at known ⊢
    omega
  case isFalse =>
    cases h
    have some : n ≠ 0 := by omega
    refine l.next pc trivial (view.trans ?_) rfl (by simp) rfl
      (fun _ known => absurd known (by simp)) fun _ known => absurd known (by simp)
    simp [some]

theorem layout_newArray (l : Layout n s) (pc : s.pc = .newArray) (h : mainStep n s r = some t) :
    Layout n t := by
  have view := l.seen pc
  have within : (fun j => decide (j < n)) = fun j => decide (n ≠ 0) && decide (j < n) := by
    funext j
    rw [← Bool.decide_and, decide_eq_decide]
    omega
  simp only [mainStep, pc, Option.some.injEq] at h
  split at h <;> subst h
  case isTrue =>
    refine l.next pc trivial (View.ext rfl rfl rfl rfl ?_ ?_ rfl) rfl (by simp) rfl
      (fun _ known => absurd known (by simp)) fun _ known => absurd known (by simp)
    · change s.view.rootedResult = fun j => s.view.results && decide (j < n)
      rw [view]
      exact within
    · change s.view.rootedFn = fun j => s.view.threads && decide (j < n)
      rw [view]
      exact within
  case isFalse => exact l.fail pc (by simp) rfl within within

theorem layout_out (l : Layout n s) (pc : s.pc = .out) (h : mainStep n s r = some t) :
    Layout n t := by
  obtain ⟨-, -, -, -, rootedResult, rootedFn, -⟩ := View.ext_iff.1 (l.seen pc)
  simp only [mainStep, pc, Option.some.injEq] at h
  subst h
  cases there : s.threads.isSome with
  | true =>
    refine l.next pc (Nat.zero_le n) (View.ext rfl rfl rfl there rootedResult ?_ rfl) rfl (by simp)
      rfl (fun _ known => absurd known (by simp)) fun _ known => absurd known (by simp)
    refine rootedFn.trans (funext fun j => ?_)
    simp [there]
  | false =>
    have empty (j : ℕ) : s.hasCx j = false := by
      rw [Option.isSome_eq_false_iff, Option.isNone_iff_eq_none] at there
      rw [State.hasCx, State.datum, there]
      rfl
    refine .bare trivial (View.ext rfl rfl rfl there rootedResult ?_ (funext empty)) there
      (fun _ => rfl) fun _ => rfl
    refine rootedFn.trans (funext fun j => ?_)
    simp [there]

theorem layout_outFn (l : Layout n s) (pc : s.pc = .outFn i) (h : mainStep n s r = some t) :
    Layout n t := by
  obtain ⟨-, -, -, there, rootedResult, rootedFn, -⟩ := View.ext_iff.1 (l.seen pc)
  have inside : i ≤ n := l.within pc
  simp only [mainStep, pc, Option.some.injEq] at h
  split at h
  case isTrue more =>
    have rootedFn' : (s.removeRoot (.fn i)).view.rootedFn =
        fun j => decide (i + 1 ≤ j) && decide (j < n) := by
      rw [view_removeRoot_fn, rootedFn]
      exact update_front i n
    have view : (s.removeRoot (.fn i)).view =
        (Pc.outFn (i + 1)).view n (s.removeRoot (.fn i)).view :=
      View.ext rfl rfl rfl there rootedResult rootedFn' rfl
    split at h <;> subst h <;>
      exact l.next pc more view rfl (by simp) rfl (fun _ known => absurd known (by simp))
        fun _ known => absurd known (by simp)
  case isFalse done =>
    subst h
    obtain rfl : i = n := Nat.le_antisymm inside (not_lt.1 done)
    have unrooted := rootedFn.trans (between_empty i)
    exact .bare trivial (View.ext rfl rfl rfl rfl rootedResult unrooted rfl) rfl (fun _ => rfl)
      fun _ => rfl

theorem layout_outResults (l : Layout n s) (pc : s.pc = .outResults)
    (h : mainStep n s r = some t) : Layout n t := by
  obtain ⟨-, -, -, bare, rootedResult, rootedFn, cx⟩ := View.ext_iff.1 (l.seen pc)
  simp only [mainStep, pc, Option.some.injEq] at h
  subst h
  cases there : s.results.isSome with
  | true =>
    refine .bare (Nat.zero_le n) (View.ext rfl rfl there bare ?_ rootedFn cx) bare (fun _ => rfl)
      fun _ => rfl
    refine rootedResult.trans (funext fun j => ?_)
    simp [there]
  | false =>
    refine .bare trivial (View.ext rfl rfl there bare ?_ rootedFn cx) bare (fun _ => rfl)
      fun _ => rfl
    refine rootedResult.trans (funext fun j => ?_)
    simp [there]

theorem layout_outResult (l : Layout n s) (pc : s.pc = .outResult i)
    (h : mainStep n s r = some t) : Layout n t := by
  obtain ⟨-, -, there, bare, rootedResult, rootedFn, cx⟩ := View.ext_iff.1 (l.seen pc)
  have inside : i ≤ n := l.within pc
  simp only [mainStep, pc, Option.some.injEq] at h
  split at h <;> subst h
  case isTrue more =>
    have rootedResult' : (s.removeRoot (.result i)).view.rootedResult =
        fun j => decide (i + 1 ≤ j) && decide (j < n) := by
      rw [view_removeRoot_result, rootedResult]
      exact update_front i n
    exact .bare more (View.ext rfl rfl there bare rootedResult' rootedFn cx) bare (fun _ => rfl)
      fun _ => rfl
  case isFalse done =>
    obtain rfl : i = n := Nat.le_antisymm inside (not_lt.1 done)
    have unrooted := rootedResult.trans (between_empty i)
    exact .bare trivial (View.ext rfl rfl rfl bare unrooted rootedFn cx) bare (fun _ => rfl)
      fun _ => rfl

theorem layout_outCvar (l : Layout n s) (pc : s.pc = .outCvar) (h : mainStep n s r = some t) :
    Layout n t := by
  obtain ⟨-, -, results, bare, rootedResult, rootedFn, cx⟩ := View.ext_iff.1 (l.seen pc)
  simp only [mainStep, pc, Option.some.injEq] at h
  subst h
  exact .bare trivial (View.ext rfl rfl results bare rootedResult rootedFn cx) bare (fun _ => rfl)
    fun _ => rfl

theorem layout_outLock (l : Layout n s) (pc : s.pc = .outLock) (h : mainStep n s r = some t) :
    Layout n t := by
  obtain ⟨-, cvar, results, bare, rootedResult, rootedFn, cx⟩ := View.ext_iff.1 (l.seen pc)
  simp only [mainStep, pc, Option.some.injEq] at h
  subst h
  exact .bare trivial (View.ext rfl cvar results bare rootedResult rootedFn cx) bare
    (fun _ => rfl) fun _ => rfl

theorem main_layout (l : Layout n s) (h : mainStep n s r = some t) : Layout n t := by
  cases pc : s.pc with
  | start => exact layout_start l pc h
  | newLock => exact layout_newLock l pc h
  | newCvar => exact layout_newCvar l pc h
  | mallocResults => exact layout_mallocResults l pc h
  | rootResult i => exact layout_rootResult l pc h
  | unrootResult i => exact layout_unrootResult l pc h
  | mallocThreads => exact layout_mallocThreads l pc h
  | rootFn i => exact layout_rootFn l pc h
  | getElement i => exact layout_getElement l pc h
  | unrootFn i => exact layout_unrootFn l pc h
  | newContext i => exact layout_newContext l pc h
  | createThread i => exact layout_createThread l pc h
  | lockFor st i => exact layout_lockFor l pc h
  | notify st i => exact layout_notify l pc h
  | unlockFor st i => exact layout_unlockFor l pc h
  | joinBack i => exact layout_joinBack l pc h
  | callOwn => exact layout_callOwn l pc h
  | ownRunning => exact layout_ownRunning l pc h
  | join i => exact layout_join l pc h
  | newArray => exact layout_newArray l pc h
  | out => exact layout_out l pc h
  | outFn i => exact layout_outFn l pc h
  | outResults => exact layout_outResults l pc h
  | outResult i => exact layout_outResult l pc h
  | outCvar => exact layout_outCvar l pc h
  | outLock => exact layout_outLock l pc h
  | returned => simp [mainStep, pc] at h

end

end Sysjs.Scatter
