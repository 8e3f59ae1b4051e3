import Sysjs.Shell.ScatterLayout

/-!
# The threads of a scatter

`Crew` says where each created thread can be at each step of the thread that called `scatter`, who
holds the lock, and whose contexts are set.
-/

set_option autoImplicit false

namespace Sysjs.Scatter

variable {V : Type*}

namespace Phase

/-- A thread can be here while the status is the given one. -/
def fits : Phase → Status → Bool
  | .absent, _ => false
  | .entering, st | .sleeping, st => st = .wait
  | .unlocking st', st => st' = st && st ≠ .wait
  | .ready, st | .running, st | .leaving, st | .exited .finished, st => st = .go
  | .exited .cancelled, st => st = .cancel
  | _, _ => true

/-- The thread holds the lock. -/
def locks : Phase → Bool
  | .testing | .entering | .unlocking _ => true
  | _ => false

/-- The context of the thread is set to it. -/
def inContext : Phase → Bool
  | .running | .leaving => true
  | _ => false

/-- How often its function was called. -/
def calls : Phase → ℕ
  | .running | .leaving | .exited .finished => 1
  | _ => 0

/-- The call of its function has come back. -/
def replied : Phase → Bool
  | .leaving | .exited .finished => true
  | _ => false

/-- A thread that is notified, and does not hold the lock, can be where it is under any new
status. -/
theorem fits_notified {p : Phase} {st : Status} (h : p.fits .wait = true)
    (unlocked : p.locks = false) : (if p = .sleeping then waking else p).fits st = true := by
  cases p with
  | testing | entering => cases unlocked
  | exited how => cases how <;> first | rfl | cases h
  | absent | unlocking | ready | running | leaving => simp [fits] at h
  | started | locking | sleeping | waking => rfl

theorem locks_notified (p : Phase) : (if p = .sleeping then waking else p).locks = p.locks := by
  cases p <;> rfl

theorem inContext_notified (p : Phase) :
    (if p = .sleeping then waking else p).inContext = p.inContext := by
  cases p <;> rfl

end Phase

/-- What is known of a created thread. -/
inductive Stage where
  | absent
  | live (st : Status)
  | joined (st : Status)
  | cancelled
  | past

@[simp] def Stage.Allows : Stage → Phase → Prop
  | .absent, p => p = .absent
  | .live st, p => p.fits st = true
  | .joined st, p => p.isExited = true ∧ p.fits st = true
  | .cancelled, p => p = .absent ∨ (p.isExited = true ∧ p.fits .cancel = true)
  | .past, p => p = .absent ∨ p.isExited = true

namespace Pc

/-- The status at each step, where it is known. -/
@[simp] def status : Pc → Option Status
  | .unlockFor st _ => some st
  | .joinBack _ => some .cancel
  | .callOwn | .ownRunning | .join _ => some .go
  | .newArray | .out | .outFn _ | .outResults | .outResult _ | .outCvar | .outLock | .returned =>
    none
  | _ => some .wait

/-- Where the created thread of an index can be at each step. -/
@[simp] def stage (n : ℕ) : Pc → ℕ → Stage
  | .createThread i, j | .lockFor _ i, j | .notify _ i, j =>
    if 1 ≤ j ∧ j < i then .live .wait else .absent
  | .unlockFor st i, j => if 1 ≤ j ∧ j < i then .live st else .absent
  | .joinBack i, j => if 1 ≤ j ∧ j < i then .live .cancel else .cancelled
  | .callOwn, j | .ownRunning, j => if 1 ≤ j ∧ j < n then .live .go else .absent
  | .join i, j =>
    if 1 ≤ j ∧ j < i then .joined .go else if i ≤ j ∧ j < n then .live .go else .absent
  | .newArray, j => if 1 ≤ j ∧ j < n then .joined .go else .absent
  | .out, _ | .outFn _, _ | .outResults, _ | .outResult _, _ | .outCvar, _
  | .outLock, _ | .returned, _ => .past
  | _, _ => .absent

/-- The thread that called `scatter` holds the lock. -/
@[simp] def locks : Pc → Bool
  | .notify _ _ | .unlockFor _ _ => true
  | _ => false

/-- The contexts that are not destroyed yet. -/
@[simp] def undestroyed : Pc → ℕ → Bool
  | .outFn i, j => i ≤ j
  | _, _ => true

end Pc

/-- Where the created threads are, who holds the lock, and whose contexts are set. -/
structure Crew (n : ℕ) (s : State V) : Prop where
  status : ∀ st, s.pc.status = some st → s.status = st
  stage : ∀ j, (s.pc.stage n j).Allows (s.phase j)
  zero : s.phase 0 = .absent
  owner : ∀ j, s.owner = some j ↔ (j = 0 ∧ s.pc.locks = true) ∨ (s.phase j).locks = true
  contexts : ∀ j, s.contexts j = if s.hasCx j = true ∧ s.pc.undestroyed j = true then
    if (s.phase j).inContext then .held else .idle else .gone

theorem Crew.init (n : ℕ) : Crew n (State.init : State V) := by
  constructor <;> simp [State.init, State.hasCx, State.datum, Phase.locks]

/-- Whatever is known of the threads at one step is known at another. -/
def Pc.Keeps (n : ℕ) (p q : Pc) : Prop :=
  (∀ st, q.status = some st → p.status = some st) ∧
  (∀ j ph, (p.stage n j).Allows ph → (q.stage n j).Allows ph) ∧ q.locks = p.locks ∧
  ∀ j, q.undestroyed j = p.undestroyed j

/-- A step that does not concern the threads. -/
theorem Crew.keep {n : ℕ} {s t : State V} (c : Crew n s) (keeps : s.pc.Keeps n t.pc)
    (same : (t.phase, t.owner, t.status, t.contexts) = (s.phase, s.owner, s.status, s.contexts))
    (hasCx : ∀ j, t.hasCx j = s.hasCx j) : Crew n t := by
  simp only [Prod.mk.injEq] at same
  obtain ⟨phase, owner, status, contexts⟩ := same
  obtain ⟨fewer, allows, locks, undestroyed⟩ := keeps
  constructor
  · intro st h
    exact status.trans (c.status st (fewer st h))
  · intro j
    rw [phase]
    exact allows j _ (c.stage j)
  · rw [phase, c.zero]
  · intro j
    rw [owner, phase, locks, c.owner j]
  · intro j
    rw [contexts, hasCx, phase, undestroyed, c.contexts j]

section
variable {n i : ℕ} {s t : State V} {r : Reply V}

theorem State.hasCx_congr (threads : t.threads = s.threads) : t.hasCx = s.hasCx := by
  funext j
  rw [State.hasCx, State.datum, threads, State.hasCx, State.datum]

theorem Crew.keep_contexts (c : Crew n s) (contexts : t.contexts = s.contexts)
    (hasCx : ∀ j, t.hasCx j = s.hasCx j)
    (inContext : ∀ j, (t.phase j).inContext = (s.phase j).inContext)
    (undestroyed : ∀ j, t.pc.undestroyed j = s.pc.undestroyed j) (j : ℕ) :
    t.contexts j = if t.hasCx j = true ∧ t.pc.undestroyed j = true then
      if (t.phase j).inContext then .held else .idle else .gone := by
  rw [contexts, hasCx, inContext, undestroyed, c.contexts j]

/-- The lookup of a context in the data of a thread that has none. -/
theorem hasCx_setDatum (d : ThreadData V) (unset : d.cx = false)
    (none : ∀ j, s.hasCx j = false) (j : ℕ) : (s.setDatum i d).hasCx j = s.hasCx j := by
  rw [none j]
  cases there : s.threads with
  | none => simp [State.hasCx, State.datum, there]
  | some td =>
    have here := none j
    simp only [State.hasCx, State.datum, there, Option.bind_some] at here
    by_cases same : j = i <;>
      simp [State.hasCx, State.datum, there, same, unset, here]

theorem hasCx_write (there : s.threads.isSome = true) (i : ℕ) (d : ThreadData V) (j : ℕ) :
    (s.setDatum i d).hasCx j = if j = i then d.cx else s.hasCx j := by
  have view := congrFun (congrArg View.cx (view_setDatum there i d)) j
  exact view.trans (Function.update_apply _ _ _ _)

theorem hasCx_none (none : s.threads = none) (j : ℕ) : s.hasCx j = false := by
  rw [State.hasCx, State.datum, none]
  rfl

theorem Layout.unset (l : Layout n s) {p : Pc} (pc : s.pc = p)
    (none : (p.view n s.view).cx = fun _ => false) (j : ℕ) : s.hasCx j = false :=
  congrFun ((congrArg View.cx (l.seen pc)).trans none) j

/-! ### Steps before there are threads -/

theorem crew_start (c : Crew n s) (pc : s.pc = .start) (h : mainStep n s r = some t) :
    Crew n t := by
  simp only [mainStep, pc, Option.some.injEq] at h
  split at h <;> subst h
  case isTrue =>
    by_cases zero : n = 0 <;> exact c.keep (by simp [pc, zero, Pc.Keeps]) rfl fun _ => rfl
  case isFalse => exact c.keep (by simp [pc, Pc.Keeps]) rfl fun _ => rfl

theorem crew_alloc (c : Crew n s) (pc : s.pc = .newLock ∨ s.pc = .newCvar ∨ s.pc = .mallocResults)
    (h : mainStep n s r = some t) : Crew n t := by
  rcases pc with pc | pc | pc <;> simp only [mainStep, pc, Option.some.injEq] at h <;>
    split at h <;> subst h <;> exact c.keep (by simp [pc, Pc.Keeps]) rfl fun _ => rfl

theorem crew_rootResult (c : Crew n s) (pc : s.pc = .rootResult i)
    (h : mainStep n s r = some t) : Crew n t := by
  simp only [mainStep, pc, Option.some.injEq] at h
  split at h
  case isTrue =>
    split at h <;> subst h <;> exact c.keep (by simp [pc, Pc.Keeps]) rfl fun _ => rfl
  case isFalse =>
    subst h
    exact c.keep (by simp [pc, Pc.Keeps]) rfl fun _ => rfl

theorem crew_unrootResult (c : Crew n s) (pc : s.pc = .unrootResult i)
    (h : mainStep n s r = some t) : Crew n t := by
  cases i <;> simp only [mainStep, pc, Option.some.injEq] at h <;> subst h <;>
    exact c.keep (by simp [pc, Pc.Keeps]) rfl fun _ => rfl

theorem crew_mallocThreads (c : Crew n s) (l : Layout n s) (pc : s.pc = .mallocThreads)
    (h : mainStep n s r = some t) : Crew n t := by
  simp only [mainStep, pc, Option.some.injEq] at h
  split at h <;> subst h
  case isTrue => exact c.keep (by simp [pc, Pc.Keeps]) rfl fun j => (l.unset pc rfl j).symm
  case isFalse => exact c.keep (by simp [pc, Pc.Keeps]) rfl fun _ => rfl

theorem crew_rootFn (c : Crew n s) (l : Layout n s) (pc : s.pc = .rootFn i)
    (h : mainStep n s r = some t) : Crew n t := by
  have none := l.unset pc rfl
  simp only [mainStep, pc, Option.some.injEq] at h
  split at h
  case isTrue =>
    split at h <;> subst h <;>
      exact c.keep (by simp [pc, Pc.Keeps]) rfl (hasCx_setDatum _ rfl none)
  case isFalse =>
    subst h
    exact c.keep (by simp [pc, Pc.Keeps]) rfl fun _ => rfl

theorem crew_getElement (c : Crew n s) (l : Layout n s) (pc : s.pc = .getElement i)
    (h : mainStep n s r = some t) : Crew n t := by
  have none := l.unset pc rfl
  simp only [mainStep, pc] at h
  split at h <;> rw [Option.some.injEq] at h <;> subst h
  case h_1 => exact c.keep (by simp [pc, Pc.Keeps]) rfl (hasCx_setDatum _ rfl none)
  case h_2 => exact c.keep (by simp [pc, Pc.Keeps]) rfl fun _ => rfl

theorem crew_unrootFn (c : Crew n s) (l : Layout n s) (pc : s.pc = .unrootFn i)
    (h : mainStep n s r = some t) : Crew n t := by
  have none := l.unset pc rfl
  cases i with
  | zero =>
    simp only [mainStep, pc, Option.some.injEq] at h
    subst h
    exact c.keep (by simp [pc, Pc.Keeps]) rfl fun j => (hasCx_none rfl j).trans (none j).symm
  | succ i =>
    simp only [mainStep, pc, Option.some.injEq] at h
    subst h
    exact c.keep (by simp [pc, Pc.Keeps]) rfl fun _ => rfl

/-! ### A context is made for each thread, and then the thread -/

theorem crew_newContext (c : Crew n s) (l : Layout n s) (pc : s.pc = .newContext i)
    (h : mainStep n s r = some t) : Crew n t := by
  have there : s.threads.isSome = true := congrArg View.threads (l.seen pc)
  have low : 1 ≤ i := (l.within pc).1
  simp only [mainStep, pc, Option.some.injEq] at h
  split at h
  case isTrue more =>
    have armed := l.armed i (by rw [pc]; exact decide_eq_true more)
    obtain ⟨d, here, -⟩ := (Option.any_eq_true _ _).1 armed
    rw [here] at h
    split at h <;> subst h
    case isTrue =>
      have absent : s.phase i = .absent := by simpa [pc] using c.stage i
      constructor
      case status => simpa [pc] using c.status
      case stage => simpa [pc] using c.stage
      case zero => exact c.zero
      case owner => simpa [pc] using c.owner
      case contexts =>
        intro j
        have hasCx := hasCx_write (s := s.setContext i .idle) there i { d with cx := true } j
        by_cases same : j = i
        · rw [if_pos same] at hasCx
          refine .trans ?_ (if_pos ⟨hasCx, rfl⟩).symm
          simp [same, absent, Phase.inContext]
        · rw [if_neg same] at hasCx
          have contexts := c.contexts j
          rw [pc] at contexts
          refine (Function.update_of_ne same _ _).trans (contexts.trans ?_)
          rw [← show _ = s.hasCx j from hasCx]
          rfl
    case isFalse => exact c.keep (by simp [pc, Pc.Keeps]) rfl fun _ => rfl
  case isFalse =>
    subst h
    refine c.keep ⟨by simp [pc], fun j ph absent => ?_, by simp [pc], by simp [pc]⟩ rfl
      fun _ => rfl
    simp only [pc, Pc.stage, State.goto] at absent ⊢
    rwa [if_neg (by omega)]

theorem crew_createThread (c : Crew n s) (l : Layout n s) (pc : s.pc = .createThread i)
    (h : mainStep n s r = some t) : Crew n t := by
  have there : s.threads.isSome = true := congrArg View.threads (l.seen pc)
  have low : 1 ≤ i := (l.within pc).1
  simp only [mainStep, pc, Option.some.injEq] at h
  split at h
  case isTrue more =>
    have armed := l.armed i (by rw [pc]; exact decide_eq_true more)
    obtain ⟨d, here, -⟩ := (Option.any_eq_true _ _).1 armed
    rw [here] at h
    split at h <;> subst h
    case isTrue =>
      have fresh : s.phase i = .absent := by simpa [pc] using c.stage i
      constructor
      case status => simpa [pc] using c.status
      case stage =>
        intro j
        have stage := c.stage j
        by_cases same : j = i
        · simp [same, low, Phase.fits]
        · simpa [pc, Function.update_apply, same, show j < i + 1 ↔ j < i by omega] using stage
      case zero => simp [c.zero, Nat.ne_of_lt low]
      case owner =>
        intro j
        by_cases same : j = i <;> simp [pc, c.owner, same, fresh, Phase.locks]
      case contexts =>
        refine c.keep_contexts rfl (fun j => ?_) (fun j => ?_) (by simp [pc])
        · have unchanged : s.view.cx i = ({ d with thr := true } : ThreadData V).cx := by
            change (s.datum i).any (fun d => d.cx) = d.cx
            rw [here, Option.any_some]
          exact congrFun (congrArg View.cx
            (view_setDatum_same (s := s.setPhase i .started) there unchanged)) j
        · by_cases same : j = i <;> simp [same, fresh, Phase.inContext]
    case isFalse => exact c.keep (by simp [pc, Pc.Keeps]) rfl fun _ => rfl
  case isFalse =>
    subst h
    exact c.keep (by simp [pc, Pc.Keeps]) rfl fun _ => rfl

/-- While the thread that called `scatter` holds the lock no created thread does. -/
theorem Crew.unlocked (c : Crew n s) (mine : s.pc.locks = true) (j : ℕ) :
    (s.phase j).locks = false := by
  have owner : s.owner = some 0 := (c.owner 0).2 (Or.inl ⟨rfl, mine⟩)
  by_contra locked
  have same := (c.owner j).2 (Or.inr (by simpa using locked))
  rw [owner, Option.some.injEq] at same
  simp [← same, c.zero, Phase.locks] at locked

/-! ### The status is set under the lock, and everyone is woken -/

theorem crew_lockFor {g : Status} (c : Crew n s) (pc : s.pc = .lockFor g i)
    (h : mainStep n s r = some t) : Crew n t := by
  simp only [mainStep, pc] at h
  split at h
  case isFalse => cases h
  case isTrue free =>
    cases h
    constructor
    case status => simpa [pc] using c.status
    case stage => simpa [pc] using c.stage
    case zero => exact c.zero
    case owner =>
      intro j
      have unlocked : (s.phase j).locks = false := by simpa [pc, free] using c.owner j
      simp [unlocked, eq_comm]
    case contexts => exact c.keep_contexts rfl (fun _ => rfl) (fun _ => rfl) (by simp [pc])

theorem crew_notify {g : Status} (c : Crew n s) (pc : s.pc = .notify g i)
    (h : mainStep n s r = some t) : Crew n t := by
  have unlocked := c.unlocked (by simp [pc])
  simp only [mainStep, pc, Option.some.injEq] at h
  subst h
  constructor
  case status => simp
  case stage =>
    intro j
    have stage := c.stage j
    by_cases created : 1 ≤ j ∧ j < i
    · simp only [pc, Pc.stage, if_pos created, Stage.Allows] at stage ⊢
      exact Phase.fits_notified stage (unlocked j)
    · simp only [pc, Pc.stage, if_neg created, Stage.Allows] at stage ⊢
      simp [stage]
  case zero => simp [c.zero]
  case owner =>
    intro j
    simpa [pc, Phase.locks_notified] using c.owner j
  case contexts =>
    exact c.keep_contexts rfl (fun _ => rfl) (fun _ => Phase.inContext_notified _) (by simp [pc])

theorem crew_unlockFor {g : Status} (c : Crew n s) (l : Layout n s) (pc : s.pc = .unlockFor g i)
    (h : mainStep n s r = some t) : Crew n t := by
  have unlocked := c.unlocked (by simp [pc])
  have status := c.status
  simp only [mainStep, pc, Option.some.injEq] at h
  subst h
  rcases (l.within pc).2 with ⟨rfl, rfl⟩ | ⟨rfl, -⟩
  · constructor
    case status => simpa [pc] using status
    case stage => simpa [pc] using c.stage
    case zero => exact c.zero
    case owner => simp [unlocked]
    case contexts => exact c.keep_contexts rfl (fun _ => rfl) (fun _ => rfl) (by simp [pc])
  · constructor
    case status => simpa [pc] using status
    case stage =>
      intro j
      have stage := c.stage j
      by_cases created : 1 ≤ j ∧ j < i
      · simpa [pc, created] using stage
      · simp only [pc, Pc.stage, if_neg created, Stage.Allows] at stage
        simp [created, stage]
    case zero => exact c.zero
    case owner => simp [unlocked]
    case contexts => exact c.keep_contexts rfl (fun _ => rfl) (fun _ => rfl) (by simp [pc])

/-! ### The threads are joined, one by one -/

theorem crew_joinBack (c : Crew n s) (pc : s.pc = .joinBack i) (h : mainStep n s r = some t) :
    Crew n t := by
  simp only [mainStep, pc] at h
  split at h
  case isTrue more =>
    split at h
    case isFalse => cases h
    case isTrue left =>
      cases h
      constructor
      case status => simpa [pc] using c.status
      case stage =>
        intro j
        have stage := c.stage j
        simp only [pc, Pc.stage, State.goto, State.need] at stage ⊢
        by_cases last : j = i - 1
        · rw [if_pos (by omega)] at stage
          rw [if_neg (by omega), last]
          exact Or.inr ⟨left, last ▸ stage⟩
        · simpa only [show j < i - 1 ↔ j < i by omega] using stage
      case zero => exact c.zero
      case owner => simpa [pc] using c.owner
      case contexts => exact c.keep_contexts rfl (fun _ => rfl) (fun _ => rfl) (by simp [pc])
  case isFalse =>
    cases h
    refine c.keep ⟨by simp, fun j ph allowed => ?_, by simp [pc], by simp [pc]⟩ rfl fun _ => rfl
    simp only [pc, Pc.stage, State.fail] at allowed ⊢
    rw [if_neg (by omega)] at allowed
    exact allowed.imp_right And.left

theorem crew_callOwn (c : Crew n s) (pc : s.pc = .callOwn) (h : mainStep n s r = some t) :
    Crew n t := by
  simp only [mainStep, pc, Option.some.injEq] at h
  subst h
  exact c.keep (by simp [pc, Pc.Keeps]) rfl fun _ => rfl

theorem crew_ownRunning (c : Crew n s) (pc : s.pc = .ownRunning) (h : mainStep n s r = some t) :
    Crew n t := by
  simp only [mainStep, pc, Option.some.injEq] at h
  subst h
  refine c.keep ⟨by simp [pc], fun j ph allowed => ?_, by simp [pc], by simp [pc]⟩ rfl
    fun _ => rfl
  simp only [pc, Pc.stage, State.goto] at allowed ⊢
  rwa [if_neg (by omega)]

theorem crew_join (c : Crew n s) (l : Layout n s) (pc : s.pc = .join i)
    (h : mainStep n s r = some t) : Crew n t := by
  obtain ⟨low, inside⟩ := l.within pc
  simp only [mainStep, pc] at h
  split at h
  case isTrue more =>
    split at h
    case isFalse => cases h
    case isTrue left =>
      cases h
      constructor
      case status => simpa [pc] using c.status
      case stage =>
        intro j
        have stage := c.stage j
        simp only [pc, Pc.stage, State.goto, State.need] at stage ⊢
        by_cases last : j = i
        · rw [if_neg (by omega), if_pos (by omega)] at stage
          rw [if_pos (by omega), last]
          exact ⟨left, last ▸ stage⟩
        · simpa only [show j < i + 1 ↔ j < i by omega, show i + 1 ≤ j ↔ i ≤ j by omega] using stage
      case zero => exact c.zero
      case owner => simpa [pc] using c.owner
      case contexts => exact c.keep_contexts rfl (fun _ => rfl) (fun _ => rfl) (by simp [pc])
  case isFalse done =>
    cases h
    obtain rfl : i = n := Nat.le_antisymm inside (not_lt.1 done)
    refine c.keep ⟨by simp, fun j ph allowed => ?_, by simp [pc], by simp [pc]⟩ rfl fun _ => rfl
    simp only [pc, Pc.stage, State.goto] at allowed ⊢
    rwa [if_neg (show ¬ (i ≤ j ∧ j < i) by omega)] at allowed

theorem crew_newArray (c : Crew n s) (pc : s.pc = .newArray) (h : mainStep n s r = some t) :
    Crew n t := by
  have past (j : ℕ) (ph : Phase) (allowed : (s.pc.stage n j).Allows ph) :
      Stage.past.Allows ph := by
    simp only [pc, Pc.stage] at allowed
    split at allowed
    · exact Or.inr allowed.1
    · exact Or.inl allowed
  simp only [mainStep, pc, Option.some.injEq] at h
  split at h <;> subst h <;>
    exact c.keep ⟨by simp, past, by simp [pc], by simp [pc]⟩ rfl fun _ => rfl

/-! ### The contexts are destroyed, one by one -/

theorem crew_out (c : Crew n s) (pc : s.pc = .out) (h : mainStep n s r = some t) :
    Crew n t := by
  simp only [mainStep, pc, Option.some.injEq] at h
  subst h
  cases there : s.threads.isSome <;> exact c.keep (by simp [pc, Pc.Keeps]) rfl fun _ => rfl

theorem crew_outFn (c : Crew n s) (l : Layout n s) (pc : s.pc = .outFn i)
    (h : mainStep n s r = some t) : Crew n t := by
  have inside : i ≤ n := l.within pc
  have filled := l.filled (by simp [pc])
  simp only [mainStep, pc, Option.some.injEq] at h
  split at h
  case isTrue more =>
    split at h <;> subst h
    case isTrue =>
      constructor
      case status => simp
      case stage => simpa [pc] using c.stage
      case zero => exact c.zero
      case owner => simpa [pc] using c.owner
      case contexts =>
        intro j
        by_cases here : j = i
        · simp [here]
        · simp [pc, State.hasCx_congr (s := s), Function.update_of_ne here, c.contexts j,
            show i + 1 ≤ j ↔ i ≤ j by omega]
    case isFalse unset =>
      constructor
      case status => simp
      case stage => simpa [pc] using c.stage
      case zero => exact c.zero
      case owner => simpa [pc] using c.owner
      case contexts =>
        intro j
        by_cases here : j = i
        · simp [State.hasCx_congr (s := s), here, unset, c.contexts i]
        · simp [pc, State.hasCx_congr (s := s), c.contexts j, show i + 1 ≤ j ↔ i ≤ j by omega]
  case isFalse done =>
    subst h
    obtain rfl : i = n := Nat.le_antisymm inside (not_lt.1 done)
    constructor
    case status => simp
    case stage => simpa [pc] using c.stage
    case zero => exact c.zero
    case owner => simpa [pc] using c.owner
    case contexts =>
      intro j
      have contexts := c.contexts j
      simp only [pc, Pc.undestroyed, decide_eq_true_eq] at contexts
      by_cases behind : i ≤ j
      · have outside : s.hasCx j = false := by
          have none := filled j
          simp only [pc, Pc.filled, decide_eq_false (not_lt.2 behind), Bool.and_false,
            Option.isSome_eq_false_iff, Option.isNone_iff_eq_none] at none
          rw [State.hasCx, none]
          rfl
        rw [outside] at contexts
        simpa [State.hasCx, State.datum] using contexts
      · simp [contexts, behind, State.hasCx, State.datum]

theorem crew_outResults (c : Crew n s) (pc : s.pc = .outResults) (h : mainStep n s r = some t) :
    Crew n t := by
  simp only [mainStep, pc, Option.some.injEq] at h
  subst h
  cases there : s.results.isSome <;> exact c.keep (by simp [pc, Pc.Keeps]) rfl fun _ => rfl

theorem crew_outResult (c : Crew n s) (pc : s.pc = .outResult i) (h : mainStep n s r = some t) :
    Crew n t := by
  simp only [mainStep, pc, Option.some.injEq] at h
  split at h <;> subst h <;> exact c.keep (by simp [pc, Pc.Keeps]) rfl fun _ => rfl

theorem crew_destroy (c : Crew n s) (pc : s.pc = .outCvar ∨ s.pc = .outLock)
    (h : mainStep n s r = some t) : Crew n t := by
  rcases pc with pc | pc <;> simp only [mainStep, pc, Option.some.injEq] at h <;> subst h <;>
    exact c.keep (by simp [pc, Pc.Keeps]) rfl fun _ => rfl

theorem main_crew (c : Crew n s) (l : Layout n s) (h : mainStep n s r = some t) : Crew n t := by
  cases pc : s.pc with
  | start => exact crew_start c pc h
  | newLock | newCvar | mallocResults => exact crew_alloc c (by simp [pc]) h
  | rootResult i => exact crew_rootResult c pc h
  | unrootResult i => exact crew_unrootResult c pc h
  | mallocThreads => exact crew_mallocThreads c l pc h
  | rootFn i => exact crew_rootFn c l pc h
  | getElement i => exact crew_getElement c l pc h
  | unrootFn i => exact crew_unrootFn c l pc h
  | newContext i => exact crew_newContext c l pc h
  | createThread i => exact crew_createThread c l pc h
  | lockFor st i => exact crew_lockFor c pc h
  | notify st i => exact crew_notify c pc h
  | unlockFor st i => exact crew_unlockFor c l pc h
  | joinBack i => exact crew_joinBack c pc h
  | callOwn => exact crew_callOwn c pc h
  | ownRunning => exact crew_ownRunning c pc h
  | join i => exact crew_join c l pc h
  | newArray => exact crew_newArray c pc h
  | out => exact crew_out c pc h
  | outFn i => exact crew_outFn c l pc h
  | outResults => exact crew_outResults c pc h
  | outResult i => exact crew_outResult c pc h
  | outCvar | outLock => exact crew_destroy c (by simp [pc]) h
  | returned => simp [mainStep, pc] at h

/-! ### Steps of the created threads -/

/-- A created thread that has not returned. -/
def Phase.alive : Phase → Bool
  | .absent | .exited _ => false
  | _ => true

theorem Phase.not_alive_of_exited {p : Phase} (exited : p.isExited = true) : p.alive = false := by
  cases p with
  | exited how => rfl
  | _ => cases exited

theorem Phase.alive_of_fits {p : Phase} {st : Status} (fits : p.fits st = true)
    (inside : p.isExited = false) : p.alive = true := by
  cases p with
  | absent => cases fits
  | exited how => cases inside
  | _ => rfl

theorem workerStep_alive (h : workerStep s i r = some t) : (s.phase i).alive = true := by
  cases ph : s.phase i with
  | absent | exited how => simp [workerStep, ph] at h
  | _ => rfl

/-- While the thread of an index can be inside `RunScatterThread`, the status is known, and
everything is there. -/
theorem Pc.of_live {p : Pc} {j : ℕ} {st : Status} (within : p.Bound n)
    (h : p.stage n j = .live st) :
    p.status = some st ∧ 1 ≤ j ∧ j < n ∧ p.armed n j = true ∧ p.undestroyed j = true ∧
      ∀ v, p.view n v =
        ⟨true, true, true, true, fun j => j < n, fun j => j < n, fun j => 1 ≤ j && j < n⟩ := by
  cases p <;> simp only [Pc.stage, reduceCtorEq] at h <;> (repeat' split at h) <;>
    simp only [Stage.live.injEq, reduceCtorEq] at h <;> subst h <;>
    simp only [Pc.Bound] at within <;>
    exact ⟨rfl, by omega, by omega, decide_eq_true (by omega), rfl, fun v => rfl⟩

/-- A created thread that has not returned is one of those that run. -/
theorem Crew.live (c : Crew n s) {j : ℕ} (alive : (s.phase j).alive = true) :
    ∃ st, s.pc.stage n j = .live st ∧ (s.phase j).fits st = true := by
  have stage := c.stage j
  have present : s.phase j ≠ .absent := by
    intro absent
    rw [absent] at alive
    cases alive
  have inside : (s.phase j).isExited ≠ true := by
    intro exited
    rw [Phase.not_alive_of_exited exited] at alive
    cases alive
  cases h : s.pc.stage n j with
  | live st =>
    rw [h] at stage
    exact ⟨st, rfl, stage⟩
  | absent =>
    rw [h] at stage
    exact absurd stage present
  | joined st =>
    rw [h] at stage
    exact absurd stage.1 inside
  | cancelled =>
    rw [h] at stage
    exact (stage.elim present fun exited => inside exited.1).elim
  | past =>
    rw [h] at stage
    exact (stage.elim present inside).elim

/-- What a created thread that has not returned relies on is there. -/
theorem Crew.relies (c : Crew n s) (l : Layout n s) {j : ℕ} (alive : (s.phase j).alive = true) :
    s.shared j = true ∧ ((s.datum j).any fun d => d.fn.isSome) = true ∧
      s.contexts j = if (s.phase j).inContext then .held else .idle := by
  obtain ⟨st, live, -⟩ := c.live alive
  obtain ⟨-, low, high, armed, undestroyed, full⟩ := Pc.of_live l.bound live
  have view := l.view
  rw [full] at view
  simp only [State.view, View.mk.injEq, funext_iff] at view
  obtain ⟨lock, cvar, results, threads, -, -, cx⟩ := view
  have fn := l.armed j armed
  have filled : (s.datum j).isSome = true := by
    obtain ⟨d, here, -⟩ := (Option.any_eq_true _ _).1 fn
    rw [here, Option.isSome_some]
  refine ⟨by simp [State.shared, lock, cvar, results, filled], fn, ?_⟩
  rw [c.contexts j, if_pos ⟨by simp [cx, low, high], undestroyed⟩]

/-- A created thread goes on to where the status lets it. -/
theorem Crew.move (c : Crew n s) (l : Layout n s) {p : Phase} {st : Status}
    (live : s.pc.stage n i = .live st) (fits : p.fits st = true)
    (same : (t.pc, t.status, t.threads) = (s.pc, s.status, s.threads))
    (phase : t.phase = Function.update s.phase i p)
    (owner : ∀ j, t.owner = some j ↔ if j = i then p.locks = true else s.owner = some j)
    (contexts : ∀ j, t.contexts j = if j = i then if p.inContext then .held else .idle
      else s.contexts j) : Crew n t := by
  simp only [Prod.mk.injEq] at same
  obtain ⟨pc, status, threads⟩ := same
  obtain ⟨known, low, high, armed, undestroyed, full⟩ := Pc.of_live l.bound live
  have view := l.view
  rw [full] at view
  simp only [State.view, View.mk.injEq, funext_iff] at view
  have cx : s.hasCx i = true := by simp [view, low, high]
  constructor
  · rw [pc, status]
    exact c.status
  · intro j
    rw [pc, phase]
    by_cases here : j = i
    · rwa [here, Function.update_self, live]
    · rw [Function.update_of_ne here]
      exact c.stage j
  · rw [phase, Function.update_of_ne (by omega), c.zero]
  · intro j
    rw [owner, phase, pc]
    by_cases here : j = i
    · simp [here, show i ≠ 0 by omega]
    · rw [if_neg here, Function.update_of_ne here, c.owner j]
  · intro j
    rw [contexts, phase, pc, State.hasCx_congr threads]
    by_cases here : j = i
    · rw [if_pos here, here, Function.update_self, if_pos (And.intro cx undestroyed)]
    · rw [if_neg here, Function.update_of_ne here, c.contexts j]

/-- A created thread that goes on with or without the lock, as it was. -/
theorem Crew.keep_owner (c : Crew n s) (created : 1 ≤ i) {p : Phase}
    (locks : p.locks = (s.phase i).locks) (j : ℕ) :
    s.owner = some j ↔ if j = i then p.locks = true else s.owner = some j := by
  by_cases here : j = i
  · rw [if_pos here, locks, here, c.owner i]
    simp [show i ≠ 0 by omega]
  · rw [if_neg here]

theorem worker_crew (c : Crew n s) (l : Layout n s) (h : workerStep s i r = some t) :
    Crew n t := by
  have alive := workerStep_alive h
  obtain ⟨st, live, fits⟩ := c.live alive
  obtain ⟨known, low, -⟩ := Pc.of_live l.bound live
  obtain ⟨-, -, context⟩ := c.relies l alive
  have status := c.status st known
  cases ph : s.phase i with
  | started =>
    simp only [workerStep, ph, Option.some.injEq] at h
    cases h
    refine c.move l (p := if r.ok then .locking else .exited .unstarted) live ?_ (by simp) (by simp)
      (c.keep_owner low ?_) fun j => ?_
    · cases r.ok <;> rfl
    · cases r.ok <;> rw [ph] <;> rfl
    · by_cases here : j = i <;> cases r.ok <;> simp [here, context, ph, Phase.inContext]
  | locking | waking =>
    simp only [workerStep, ph] at h
    split at h <;> cases h
    rename_i free
    refine c.move l (p := .testing) live rfl (by simp) (by simp) (fun j => ?_) fun j => ?_
    · by_cases here : j = i <;> simp [here, eq_comm (a := i), free, Phase.locks]
    · by_cases here : j = i <;> simp [here, context, ph, Phase.inContext]
  | testing =>
    simp only [workerStep, ph, status, Option.some.injEq] at h
    cases h
    refine c.move l (p := if st = .wait then .entering else .unlocking st) live ?_ (by simp)
      (by simp) (c.keep_owner low ?_) fun j => ?_
    · cases st <;> rfl
    · cases st <;> rw [ph] <;> rfl
    · by_cases here : j = i <;> cases st <;> simp [here, context, ph, Phase.inContext]
  | entering =>
    simp only [workerStep, ph, Option.some.injEq] at h
    have mine : s.owner = some i := (c.owner i).2 (Or.inr (by rw [ph]; rfl))
    cases h
    rw [ph] at fits
    refine c.move l (p := .sleeping) live fits (by simp) (by simp) (fun j => ?_) fun j => ?_
    · by_cases here : j = i <;> simp [here, eq_comm (a := i), mine, Phase.locks]
    · by_cases here : j = i <;> simp [here, context, ph, Phase.inContext]
  | unlocking st' =>
    simp only [workerStep, ph, Option.some.injEq] at h
    have mine : s.owner = some i := (c.owner i).2 (Or.inr (by rw [ph]; rfl))
    cases h
    refine c.move l (p := if st' = .cancel then .exited .cancelled else .ready) live ?_ (by simp)
      (by simp) (fun j => ?_) fun j => ?_
    · rw [ph] at fits
      cases st' <;> cases st <;> first | rfl | cases fits
    · by_cases here : j = i <;> cases st' <;> simp [here, eq_comm (a := i), mine, Phase.locks]
    · by_cases here : j = i <;> cases st' <;> simp [here, context, ph, Phase.inContext]
  | ready =>
    simp only [workerStep, ph, Option.some.injEq] at h
    cases h
    rw [ph] at fits
    refine c.move l (p := .running) live fits (by simp) (by simp)
      (c.keep_owner low (by rw [ph]; rfl)) fun j => ?_
    by_cases here : j = i <;> simp [here, Phase.inContext]
  | running =>
    simp only [workerStep, ph, Option.some.injEq] at h
    cases h
    rw [ph] at fits
    refine c.move l (p := .leaving) live fits (by simp) (by simp)
      (c.keep_owner low (by rw [ph]; rfl)) fun j => ?_
    by_cases here : j = i <;> simp [here, context, ph, Phase.inContext]
  | leaving =>
    simp only [workerStep, ph, Option.some.injEq] at h
    cases h
    rw [ph] at fits
    refine c.move l (p := .exited .finished) live fits (by simp) (by simp)
      (c.keep_owner low (by rw [ph]; rfl)) fun j => ?_
    by_cases here : j = i <;> simp [here, Phase.inContext]
  | absent | sleeping | exited how => simp [workerStep, ph] at h

theorem spurious_crew (c : Crew n s) (l : Layout n s) (asleep : s.phase i = .sleeping) :
    Crew n (s.setPhase i .waking) := by
  have alive : (s.phase i).alive = true := by rw [asleep]; rfl
  obtain ⟨st, live, -⟩ := c.live alive
  obtain ⟨-, low, -⟩ := Pc.of_live l.bound live
  obtain ⟨-, -, context⟩ := c.relies l alive
  refine c.move l (p := .waking) live rfl (by simp) (by simp)
    (c.keep_owner low (by rw [asleep]; rfl)) fun j => ?_
  by_cases here : j = i <;> simp [here, context, asleep, Phase.inContext]

theorem worker_layout (l : Layout n s) (h : workerStep s i r = some t) : Layout n t := by
  cases ph : s.phase i with
  | started | locking | waking | testing | entering | unlocking st | ready | running | leaving =>
    simp only [workerStep, ph] at h
    (try split at h) <;> cases h
    all_goals exact l.congr (by simp) (by simp [State.hasCx_congr (s := s)]) (by simp)
  | absent | sleeping | exited how => simp [workerStep, ph] at h

end

end Sysjs.Scatter
