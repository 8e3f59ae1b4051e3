import Mathlib.Algebra.BigOperators.Group.Finset.Basic
import Mathlib.Algebra.Order.BigOperators.Group.Finset
import Sysjs.Shell.ScatterRuns

/-!
# A scatter comes to its end

No wakeup is lost: until `scatter` has returned some thread can go on, whatever the calls it makes
reply.  And the threads cannot go on for ever, but for wakeups out of nowhere.
-/

set_option autoImplicit false

namespace Sysjs.Scatter

open Interleaving Finset

variable {V : Type*} {n i : ℕ} {s t : State V} {r : Reply V}

/-- The steps that are left to a created thread. -/
def Phase.left : Phase → ℕ
  | .absent | .started => 7
  | .locking | .waking => 6
  | .testing => 5
  | .entering | .unlocking _ => 4
  | .sleeping | .ready => 3
  | .running => 2
  | .leaving => 1
  | .exited _ => 0

/-- The steps that are left to the thread that called `scatter`; three more for each thread that
it wakes. -/
@[simp] def Pc.left (n : ℕ) : Pc → ℕ
  | .start => 11 * n + 22
  | .newLock => 11 * n + 21
  | .newCvar => 11 * n + 20
  | .mallocResults => 11 * n + 19
  | .rootResult i => 10 * n + 18 + (n - i)
  | .mallocThreads => 10 * n + 17
  | .rootFn i => 8 * n + 16 + 2 * (n - i)
  | .getElement i => 8 * n + 15 + 2 * (n - i)
  | .newContext i => 7 * n + 15 + (n - i)
  | .createThread i => 6 * n + 14 + (n - i)
  | .lockFor _ _ => 6 * n + 13
  | .notify _ _ => 6 * n + 12
  | .unlockFor _ _ => 3 * n + 11
  | .callOwn => 3 * n + 10
  | .ownRunning => 3 * n + 9
  | .join i => 2 * n + 8 + (n - i)
  | .unrootResult i | .unrootFn i | .joinBack i => 2 * n + 7 + i
  | .newArray => 2 * n + 7
  | .out => 2 * n + 6
  | .outFn i => n + 5 + (n - i)
  | .outResults => n + 4
  | .outResult i => 3 + (n - i)
  | .outCvar => 2
  | .outLock => 1
  | .returned => 0

/-- The steps that are left to all threads. -/
def State.left (n : ℕ) (s : State V) : ℕ := s.pc.left n + ∑ j ∈ range n, (s.phase j).left

def Move.idle : Move V → Bool
  | .spurious _ => true
  | _ => false

/-- Waking a thread puts it back by three steps at most. -/
theorem sum_left_notified (phase : ℕ → Phase) :
    ∑ j ∈ range n, (if phase j = .sleeping then Phase.waking else phase j).left ≤
      ∑ j ∈ range n, (phase j).left + 3 * n := by
  have each : ∀ j ∈ range n, (if phase j = .sleeping then Phase.waking else phase j).left ≤
      (phase j).left + 3 := by
    intro j _
    cases phase j <;> simp [Phase.left]
  have all := sum_le_sum each
  rw [sum_add_distrib, sum_const, card_range, nsmul_eq_mul, Nat.cast_id] at all
  omega

/-- A step of one thread. -/
theorem sum_left_update (phase : ℕ → Phase) (inside : i < n) (p : Phase) :
    ∑ j ∈ range n, (Function.update phase i p j).left + (phase i).left =
      ∑ j ∈ range n, (phase j).left + p.left := by
  have mem := mem_range.2 inside
  rw [← add_sum_erase _ _ mem, ← add_sum_erase (range n) (fun j => (phase j).left) mem,
    Function.update_self]
  have same : ∑ j ∈ (range n).erase i, (Function.update phase i p j).left =
      ∑ j ∈ (range n).erase i, (phase j).left := by
    apply sum_congr rfl
    intro j other
    rw [Function.update_of_ne (ne_of_mem_erase other)]
  omega

theorem main_left (l : Layout n s) (c : Crew n s) (h : mainStep n s r = some t) :
    t.left n < s.left n := by
  have within := l.bound
  have woken := sum_left_notified (n := n) s.phase
  cases pc : s.pc with
  | createThread i =>
    simp only [pc, Pc.Bound] at within
    have absent : s.phase i = .absent := by simpa [pc, Stage.Allows] using c.stage i
    simp only [mainStep, pc, Option.some.injEq] at h
    (repeat' split at h) <;> cases h
    · have := sum_left_update s.phase ‹i < n› .started
      simp [State.left, pc, absent, Phase.left] at this ⊢
      omega
    all_goals
      simp [State.left, pc]
      try omega
  | unrootResult i | unrootFn i =>
    cases i <;> simp only [mainStep, pc, Option.some.injEq] at h <;> cases h <;>
      simp [State.left, pc]
  | unlockFor st i =>
    simp only [pc, Pc.Bound] at within
    simp only [mainStep, pc, Option.some.injEq] at h
    cases h
    cases st <;> simp [State.left, pc]
    all_goals omega
  | _ =>
    simp only [pc, Pc.Bound] at within
    simp only [mainStep, pc, Option.some.injEq] at h
    (repeat' split at h) <;> cases h <;> simp [State.left, pc] <;> omega

theorem worker_left (l : Layout n s) (c : Crew n s) (h : workerStep s i r = some t) :
    t.left n < s.left n := by
  have alive := workerStep_alive h
  obtain ⟨st, live, -⟩ := c.live alive
  obtain ⟨-, -, inside, -⟩ := Pc.of_live l.bound live
  have less {p : Phase} (later : p.left < (s.phase i).left) (pc : t.pc = s.pc)
      (phase : t.phase = Function.update s.phase i p) : t.left n < s.left n := by
    have := sum_left_update s.phase inside p
    rw [State.left, State.left, pc, phase]
    omega
  cases ph : s.phase i with
  | started =>
    simp only [workerStep, ph, Option.some.injEq] at h
    cases h
    apply less (p := if r.ok then .locking else .exited .unstarted) <;> cases r.ok <;>
      simp [ph, Phase.left]
  | locking | waking =>
    simp only [workerStep, ph] at h
    split at h <;> cases h
    apply less (p := .testing) <;> simp [ph, Phase.left]
  | testing =>
    simp only [workerStep, ph, Option.some.injEq] at h
    cases h
    apply less (p := if s.status = .wait then .entering else .unlocking s.status) <;>
      cases s.status <;> simp [ph, Phase.left]
  | entering =>
    simp only [workerStep, ph, Option.some.injEq] at h
    cases h
    apply less (p := .sleeping) <;> simp [ph, Phase.left]
  | unlocking st' =>
    simp only [workerStep, ph, Option.some.injEq] at h
    cases h
    apply less (p := if st' = .cancel then .exited .cancelled else .ready) <;> cases st' <;>
      simp [ph, Phase.left]
  | ready =>
    simp only [workerStep, ph, Option.some.injEq] at h
    cases h
    apply less (p := .running) <;> simp [ph, Phase.left]
  | running =>
    simp only [workerStep, ph, Option.some.injEq] at h
    cases h
    apply less (p := .leaving) <;> simp [ph, Phase.left]
  | leaving =>
    simp only [workerStep, ph, Option.some.injEq] at h
    cases h
    apply less (p := .exited .finished) <;> simp [ph, Phase.left]
  | absent | sleeping | exited how => simp [workerStep, ph] at h

theorem moves_of_locks (locks : (s.phase i).locks = true) (r : Reply V) :
    (workerStep s i r).isSome = true := by
  cases ph : s.phase i with
  | testing | entering | unlocking st => simp [workerStep, ph]
  | _ => simp [ph, Phase.locks] at locks

/-- Whoever waits for a thread that was told to go on, or to give up, does not wait in vain. -/
theorem Crew.moves (c : Crew n s) (l : Layout n s) (unlocked : s.pc.locks = false)
    (alive : (s.phase i).alive = true) (told : s.status ≠ .wait) :
    ∃ j, ∀ r, (workerStep s j r).isSome = true := by
  obtain ⟨st, live, fits⟩ := c.live alive
  obtain ⟨known, -⟩ := Pc.of_live l.bound live
  rw [c.status st known] at told
  cases holder : s.owner with
  | some j =>
    rcases (c.owner j).1 holder with ⟨-, main⟩ | locks
    · rw [unlocked] at main
      cases main
    · exact ⟨j, moves_of_locks locks⟩
  | none =>
    refine ⟨i, fun r => ?_⟩
    cases ph : s.phase i with
    | testing | entering => exact moves_of_locks (by rw [ph]; rfl) r
    | sleeping =>
      rw [ph] at fits
      simp [Phase.fits, told] at fits
    | absent | exited how => simp [ph, Phase.alive] at alive
    | _ => simp [workerStep, ph, holder]

/-- Until `scatter` has returned, some thread can go on. -/
theorem Sound.moves (sound : Sound n s) (going : s.pc ≠ .returned) :
    (∀ r, (mainStep n s r).isSome = true) ∨ ∃ i, ∀ r, (workerStep s i r).isSome = true := by
  obtain ⟨l, c, -, -⟩ := sound
  cases pc : s.pc with
  | lockFor st i =>
    cases holder : s.owner with
    | none => exact Or.inl fun r => by simp [mainStep, pc, holder]
    | some j =>
      rcases (c.owner j).1 holder with ⟨-, main⟩ | locks
      · simp [pc] at main
      · exact Or.inr ⟨j, moves_of_locks locks⟩
  | joinBack i =>
    by_cases wait : 1 < i ∧ (s.phase (i - 1)).isExited = false
    · have stage := c.stage (i - 1)
      rw [pc, Pc.stage, if_pos (by omega)] at stage
      apply Or.inr
      apply c.moves l (i := i - 1) (by simp [pc])
      · exact Phase.alive_of_fits stage wait.2
      · rw [c.status .cancel (by simp [pc])]
        decide
    · refine Or.inl fun r => ?_
      simp only [mainStep, pc]
      split
      · rw [if_pos (by simpa [‹1 < i›] using wait)]
        rfl
      · rfl
  | join i =>
    by_cases wait : i < n ∧ (s.phase i).isExited = false
    · have stage := c.stage i
      have low := l.bound
      simp only [pc, Pc.Bound] at low
      rw [pc, Pc.stage, if_neg (by omega), if_pos (by omega)] at stage
      apply Or.inr
      apply c.moves l (i := i) (by simp [pc])
      · exact Phase.alive_of_fits stage wait.2
      · rw [c.status .go (by simp [pc])]
        decide
    · refine Or.inl fun r => ?_
      simp only [mainStep, pc]
      split
      · rw [if_pos (by simpa [‹i < n›] using wait)]
        rfl
      · rfl
  | getElement i => exact Or.inl fun r => by cases r <;> simp [mainStep, pc]
  | unrootResult i | unrootFn i => exact Or.inl fun r => by cases i <;> simp [mainStep, pc]
  | returned => exact absurd pc going
  | _ => exact Or.inl fun r => by simp [mainStep, pc]

theorem step_left {m : Move V} (sound : Sound n s) (h : step n s m = some t)
    (busy : m.idle = false) : t.left n < s.left n := by
  cases m with
  | main r => exact main_left sound.layout sound.crew h
  | worker i r => exact worker_left sound.layout sound.crew h
  | spurious i => cases busy

theorem spurious_left {m : Move V} (sound : Sound n s) (h : step n s m = some t)
    (idle : m.idle = true) : t.left n ≤ s.left n + 3 := by
  cases m with
  | main r => cases idle
  | worker i r => cases idle
  | spurious i =>
    simp only [step] at h
    split at h <;> cases h
    rename_i asleep
    obtain ⟨st, live, -⟩ := sound.crew.live (j := i) (by rw [asleep]; rfl)
    obtain ⟨-, -, inside, -⟩ := Pc.of_live sound.layout.bound live
    have := sum_left_update s.phase inside .waking
    rw [asleep] at this
    simp only [State.left, State.setPhase]
    change _ + 3 = _ + 6 at this
    omega

/-- In every state that can be reached, `scatter` has returned or some thread can take its next
step, whatever the calls of that step reply: no wakeup is lost and nobody waits for ever. -/
theorem scatter_moves (n : ℕ) (moves : List (Move V)) (s : State V)
    (run : exec (step n) .init moves = some s) (going : s.pc ≠ .returned) :
    (∀ r, (step n s (.main r)).isSome = true) ∨
      ∃ i, ∀ r, (step n s (.worker i r)).isSome = true :=
  (reached_sound run).moves going

theorem scatter_moves_two : ∃ s, exec (step 2) .init (twoThreads.take 25) = some s ∧
    ((∀ r, (step 2 s (.main r)).isSome = true) ∨
      ∃ i, ∀ r, (step 2 s (.worker i r)).isSome = true) :=
  ⟨_, rfl, scatter_moves 2 (twoThreads.take 25) _ rfl nofun⟩

/-- The threads take at most `18 n + 22` steps for `n` functions in all, and four more for each
wakeup out of nowhere, whatever happens; and from every state that can be reached they can bring the
call to its end. -/
theorem scatter_ends (n : ℕ) (moves : List (Move V)) (s : State V)
    (run : exec (step n) .init moves = some s) :
    moves.length ≤ 18 * n + 22 + 4 * moves.countP Move.idle ∧
      ∃ more t, (∀ m ∈ more, m.idle = false) ∧ exec (step n) s more = some t ∧
        t.pc = .returned := by
  constructor
  · have start : (State.init : State V).left n = 18 * n + 22 := by
      simp [State.left, State.init, Phase.left]
      omega
    have := length_le (Sound n) (fun _ _ _ => step_sound) (State.left n) Move.idle 3
      (fun _ _ _ sound => step_left sound) (fun _ _ _ sound => spurious_left sound)
      ⟨Layout.init n, Crew.init n, Tally.init n, rfl⟩ run
    omega
  · have moves (s : State V) (sound : Sound n s) (going : s.pc ≠ .returned) :
        ∃ e t, e.idle = false ∧ step n s e = some t := by
      rcases sound.moves going with main | ⟨i, worker⟩
      · obtain ⟨t, h⟩ := Option.isSome_iff_exists.1 (main (.failed none))
        exact ⟨.main (.failed none), t, rfl, h⟩
      · obtain ⟨t, h⟩ := Option.isSome_iff_exists.1 (worker (.failed none))
        exact ⟨.worker i (.failed none), t, rfl, h⟩
    obtain ⟨more, t, busy, run', finish⟩ := exists_finish (Sound n)
      (fun e : Move V => e.idle = false) (fun _ _ _ sound _ => step_sound sound) (State.left n)
      (fun _ _ _ sound kind h => step_left sound h kind) (fun s => s.pc = .returned) moves
      (reached_sound run)
    exact ⟨more, t, busy, run', finish⟩

theorem scatter_ends_two : ∃ s, exec (step 2) .init (twoThreads.take 25) = some s ∧
    25 ≤ 18 * 2 + 22 + 4 * (twoThreads.take 25).countP Move.idle ∧
      ∃ more t, (∀ m ∈ more, m.idle = false) ∧ exec (step 2) s more = some t ∧
        t.pc = .returned :=
  ⟨_, rfl, scatter_ends 2 (twoThreads.take 25) _ rfl⟩

end Sysjs.Scatter
