import Sysjs.Shell.Watchdog

/-!
# The watchdog is in time

As long as nobody is held up for so long that the clock turns round, a timeout that is set expires
in time and not before, sleepers sleep as long as they asked to, and the watchdog ends when it is
told.
-/

set_option autoImplicit false

namespace Sysjs.Watchdog

open Interleaving Serial

variable {limit : ℕ} {s t : State} {i : ℕ}

/-- The clock has not turned too far since an instant that is still waited for. -/
def Near (limit : ℕ) (s : State) (instant : ℕ) : Prop := s.time + limit < instant + 2 ^ 31

/-- What is still waited for is near: the timeout that is set, those that are going to be set, and
the end of each sleep. -/
structure InRange (limit : ℕ) (s : State) : Prop where
  timeout : s.hasTimeout = true → Near limit s s.due
  prepared : ∀ i b, s.prepared i = some b → Near limit s (s.preparedDue i)
  sleepers : ∀ i w, (∃ u, s.sleepers i = .waiting w u) ∨ s.sleepers i = .woken w →
    Near limit s (s.wakeAt i)

/-- What is known of a thread in `Sleep_fn`. -/
def SleeperOk (limit time : ℕ) (canceled : Bool) (wakeAt : ℕ) : Sleeper → Prop
  | .off => True
  | .waiting w u => w = BitVec.ofNat 32 wakeAt ∧ wakeAt ≤ time + limit ∧ u = some wakeAt
  | .woken w => w = BitVec.ofNat 32 wakeAt ∧ wakeAt ≤ time + limit
  | .leaving => canceled = true ∨ wakeAt ≤ time
  | .returned ok => if ok then wakeAt ≤ time else canceled = true

/-- What holds in every state. -/
structure Inv (limit : ℕ) (s : State) : Prop where
  timeout : s.hasTimeout = true → s.timeout = BitVec.ofNat 32 s.due ∧ s.due ≤ s.time + limit ∧
    s.due ∈ s.scheduled
  prepared : ∀ i b, s.prepared i = some b →
    b = BitVec.ofNat 32 (s.preparedDue i) ∧ s.preparedDue i ≤ s.time + limit
  waiting : ∀ u, s.dog = .waiting u →
    s.thread = true ∧ (s.hasTimeout = true → ∃ d, u = some d ∧ d ≤ s.due)
  idle : s.thread = false → s.killed = false → s.dog = .absent ∧ s.hasTimeout = false
  running : s.thread = true → s.dog ≠ .absent ∧ s.dog ≠ .exited ∧ s.killed = false
  cause : s.canceled = true ∨ s.dog = .cancelling →
    ∃ d ∈ s.scheduled, s.cause = some d ∧ d ≤ s.time
  sleepers : ∀ i, SleeperOk limit s.time s.canceled (s.wakeAt i) (s.sleepers i)

theorem Inv.init (limit time : ℕ) : Inv limit (State.init time) := by
  constructor <;> simp [State.init, SleeperOk]

/-! ### The clock -/

/-- The test for the end of a wait is right for what is near. -/
theorem before_now_iff (ahead : i ≤ s.time + limit) (near : Near limit s i)
    (small : limit < 2 ^ 31) :
    before s.now (BitVec.ofNat 32 i) = true ↔ s.time < i := by
  apply before_ofNat_iff (n := 31)
  · rw [Near] at near
    omega
  · omega

/-- A wait for the rest of the time lasts until the instant. -/
theorem waitUntil_sub_now (ahead : i ≤ s.time + limit) (later : s.time ≤ i)
    (small : limit < 2 ^ 31) : s.waitUntil (BitVec.ofNat 32 i - s.now) = some i := by
  have rest : (BitVec.ofNat 32 i - s.now).toNat = i - s.time :=
    toNat_ofNat_sub_ofNat later (by omega)
  have finite : BitVec.ofNat 32 i - s.now ≠ noTimeout := by
    intro same
    rw [same] at rest
    simp only [noTimeout, BitVec.toNat_allOnes] at rest
    omega
  rw [State.waitUntil, if_neg finite, rest, Nat.add_sub_cancel' later]

/-- A first wait lasts as long as it was asked to. -/
theorem waitUntil_ofNat {ticks : ℕ} (small : ticks < 2 ^ 31) :
    s.waitUntil (BitVec.ofNat 32 ticks) = some (s.time + ticks) := by
  have rest : (BitVec.ofNat 32 ticks).toNat = ticks := by
    rw [BitVec.toNat_ofNat, Nat.mod_eq_of_lt (by omega)]
  have finite : BitVec.ofNat 32 ticks ≠ noTimeout := by
    intro same
    rw [same] at rest
    simp only [noTimeout, BitVec.toNat_allOnes] at rest
    omega
  rw [State.waitUntil, if_neg finite, rest]

/-! ### One move -/

/-- What is known of a sleeper stays true. -/
theorem SleeperOk.mono {wakeAt : ℕ} {sleeper : Sleeper}
    (h : SleeperOk limit s.time s.canceled wakeAt sleeper)
    (time : s.time ≤ t.time) (canceled : s.canceled = true → t.canceled = true) :
    SleeperOk limit t.time t.canceled wakeAt sleeper := by
  cases sleeper with
  | off => trivial
  | waiting w u => exact ⟨h.1, h.2.1.trans (Nat.add_le_add_right time limit), h.2.2⟩
  | woken w => exact ⟨h.1, h.2.trans (Nat.add_le_add_right time limit)⟩
  | leaving => exact h.imp canceled fun past => past.trans time
  | returned ok =>
    cases ok with
    | false => exact canceled h
    | true => exact Nat.le_trans h time

theorem tick_inv (inv : Inv limit s) (n : ℕ) : Inv limit { s with time := s.time + n } := by
  have later : s.time ≤ s.time + n := Nat.le_add_right _ n
  constructor
  · intro set
    obtain ⟨shown, bound, mem⟩ := inv.timeout set
    exact ⟨shown, bound.trans (by dsimp only; omega), mem⟩
  · intro i b h
    obtain ⟨shown, bound⟩ := inv.prepared i b h
    exact ⟨shown, bound.trans (by dsimp only; omega)⟩
  · exact inv.waiting
  · exact inv.idle
  · exact inv.running
  · intro h
    obtain ⟨d, mem, cause, past⟩ := inv.cause h
    exact ⟨d, mem, cause, past.trans later⟩
  · intro i
    exact (inv.sleepers i).mono (t := { s with time := s.time + n }) later id

/-- The sleepers are notified. -/
theorem notifySleepers_inv (inv : Inv limit s) : Inv limit s.notifySleepers := by
  constructor
  · exact inv.timeout
  · exact inv.prepared
  · exact inv.waiting
  · exact inv.idle
  · exact inv.running
  · exact inv.cause
  · intro i
    have known := inv.sleepers i
    cases h : s.sleepers i with
    | waiting w u =>
      rw [h] at known
      simp only [State.notifySleepers, h]
      exact ⟨known.1, known.2.1⟩
    | _ =>
      rw [h] at known
      simp only [State.notifySleepers, h]
      exact known

theorem InRange.notifySleepers (range : InRange limit s) : InRange limit s.notifySleepers where
  timeout := range.timeout
  prepared := range.prepared
  sleepers i w h := by
    apply range.sleepers i w
    cases sleeper : s.sleepers i with
    | waiting w' u =>
      simp only [State.notifySleepers, sleeper, reduceCtorEq, exists_false, false_or,
        Sleeper.woken.injEq] at h
      exact Or.inl ⟨u, by rw [h]⟩
    | _ => simp [State.notifySleepers, sleeper] at h ⊢ <;> exact h

/-- The watchdog is somewhere else in its loop. -/
theorem setDog_inv (inv : Inv limit s) (thread : s.thread = true) {dog : Dog}
    (inside : dog ≠ .absent ∧ dog ≠ .exited ∧ dog ≠ .cancelling)
    (waiting : ∀ u, dog = .waiting u → s.hasTimeout = true → ∃ d, u = some d ∧ d ≤ s.due) :
    Inv limit { s with dog := dog } where
  timeout := inv.timeout
  prepared := inv.prepared
  waiting u h := ⟨thread, waiting u h⟩
  idle none := by
    rw [show s.thread = true from thread] at none
    cases none
  running _ := ⟨inside.1, inside.2.1, (inv.running thread).2.2⟩
  cause h := inv.cause (h.imp_right fun cancelling => absurd cancelling inside.2.2)
  sleepers := inv.sleepers

theorem notifyDog_inv (inv : Inv limit s) : Inv limit s.notifyDog := by
  cases h : s.dog with
  | waiting u =>
    simp only [State.notifyDog, h]
    exact setDog_inv inv (inv.waiting u h).1 (by simp) nofun
  | _ =>
    simp only [State.notifyDog, h]
    convert inv
    exact h.symm

theorem watch_inv (inv : Inv limit s) (range : InRange limit s) (small : limit < 2 ^ 31)
    (ready : ∃ notify, s.dog = .ready notify) : Inv limit s.watch := by
  obtain ⟨notify, ready⟩ := ready
  cases thread : s.thread with
  | false =>
    have killed : s.killed = true := by
      by_contra alive
      have := (inv.idle thread (by simpa using alive)).1
      simp [ready] at this
    rw [State.watch, if_neg (by simp [thread])]
    exact {
      timeout := inv.timeout
      prepared := inv.prepared
      waiting := nofun
      idle := fun _ alive => absurd (killed.symm.trans alive) nofun
      running := fun h => absurd (thread.symm.trans h) nofun
      cause := fun h => inv.cause (h.imp_right nofun)
      sleepers := inv.sleepers }
  | true =>
    rw [State.watch, if_pos thread]
    split
    · rename_i expired
      simp only [Bool.and_eq_true, Bool.not_eq_true'] at expired
      obtain ⟨set, expired⟩ := expired
      obtain ⟨shown, bound, mem⟩ := inv.timeout set
      have past : s.due ≤ s.time := by
        by_contra early
        rw [shown, (before_now_iff bound (range.timeout set) small).2 (by omega)] at expired
        cases expired
      exact {
        timeout := nofun
        prepared := inv.prepared
        waiting := nofun
        idle := fun h => absurd (thread.symm.trans h) nofun
        running := fun _ => ⟨nofun, nofun, (inv.running thread).2.2⟩
        cause := fun _ => ⟨s.due, mem, rfl, past⟩
        sleepers := inv.sleepers }
    · rename_i waits
      apply setDog_inv inv thread (by simp)
      intro u h set
      simp only [Dog.waiting.injEq] at h
      obtain ⟨shown, bound, mem⟩ := inv.timeout set
      simp only [set, Bool.true_and, Bool.not_eq_true', Bool.not_eq_false] at waits
      rw [shown, before_now_iff bound (range.timeout set) small] at waits
      rw [set, if_pos rfl, shown, waitUntil_sub_now bound waits.le small] at h
      exact ⟨s.due, h.symm, le_rfl⟩

theorem dog_inv (inv : Inv limit s) (range : InRange limit s) (small : limit < 2 ^ 31)
    (h : dogStep s = some t) : Inv limit t := by
  cases dog : s.dog with
  | ready notify =>
    simp only [dogStep, dog, Option.some.injEq] at h
    subst h
    split
    · exact watch_inv (notifySleepers_inv inv) range.notifySleepers small ⟨notify, dog⟩
    · exact watch_inv inv range small ⟨notify, dog⟩
  | cancelling =>
    simp only [dogStep, dog, Option.some.injEq] at h
    subst h
    exact {
      timeout := inv.timeout
      prepared := inv.prepared
      waiting := nofun
      idle := fun none alive => by
        have := (inv.idle none alive).1
        simp [dog] at this
      running := fun thread => ⟨nofun, nofun, (inv.running thread).2.2⟩
      cause := fun _ => inv.cause (Or.inr dog)
      sleepers := fun i =>
        (inv.sleepers i).mono (t := { s with canceled := true }) le_rfl fun _ => rfl }
  | waiting u =>
    cases u with
    | none => simp [dogStep, dog] at h
    | some d =>
      simp only [dogStep, dog] at h
      split at h <;> cases h
      exact setDog_inv inv (inv.waiting _ dog).1 (by simp) nofun
  | absent | exited => simp [dogStep, dog] at h

/-- A timeout is set while the watchdog runs, and it is notified if it is to look earlier. -/
theorem setTimeout_inv (inv : Inv limit s) (thread : s.thread = true) {timeout : Interval}
    {due : ℕ} (shown : timeout = BitVec.ofNat 32 due) (bound : due ≤ s.time + limit)
    (looks : ∀ u, s.dog = .waiting u → ∃ d, u = some d ∧ d ≤ due) :
    Inv limit (s.setTimeout timeout due) where
  timeout _ := ⟨shown, bound, List.mem_cons_self⟩
  prepared := inv.prepared
  waiting u h := ⟨thread, fun _ => looks u h⟩
  idle none := absurd (thread.symm.trans none) nofun
  running := inv.running
  cause h := by
    obtain ⟨d, mem, rest⟩ := inv.cause h
    exact ⟨d, List.mem_cons_of_mem _ mem, rest⟩
  sleepers := inv.sleepers

theorem commit_inv (inv : Inv limit s) (range : InRange limit s)
    {timeout : Interval} (prepared : s.prepared i = some timeout) (alive : s.killed = false)
    (created : Bool) : Inv limit (commit s i timeout created) := by
  obtain ⟨shown, bound⟩ := inv.prepared i timeout prepared
  have near := range.prepared i timeout prepared
  have taken : Inv limit { s with prepared := Function.update s.prepared i none } := {
    timeout := inv.timeout
    prepared := fun j b h => by
      by_cases same : j = i
      · simp [same] at h
      · exact inv.prepared j b (by simpa [same] using h)
    waiting := inv.waiting
    idle := inv.idle
    running := inv.running
    cause := inv.cause
    sleepers := inv.sleepers }
  cases thread : s.thread with
  | true =>
    simp only [commit]
    rw [if_pos thread]
    split
    · apply setTimeout_inv (notifyDog_inv taken) thread shown bound
      intro u h
      cases dog : s.dog <;> simp [State.notifyDog, dog] at h
    · rename_i later
      apply setTimeout_inv taken thread shown bound
      intro u h
      simp only [Bool.or_eq_true, Bool.not_eq_true', not_or, Bool.not_eq_false] at later
      obtain ⟨set, later⟩ := later
      obtain ⟨d, here, early⟩ := (inv.waiting u h).2 set
      refine ⟨d, here, ?_⟩
      obtain ⟨shown', bound', -⟩ := inv.timeout set
      have near' := range.timeout set
      by_contra earlier
      apply later
      rw [shown, shown', before_ofNat_iff (n := 31)]
      all_goals
        rw [Near] at near near'
        omega
  | false =>
    have idle := inv.idle thread alive
    simp only [commit]
    rw [if_neg (by simp [thread])]
    split
    · refine setTimeout_inv (s := { s with
        prepared := Function.update s.prepared i none, thread := true, dog := .ready false })
        ?_ rfl shown bound nofun
      exact {
        timeout := fun set => absurd (idle.2.symm.trans set) nofun
        prepared := taken.prepared
        waiting := nofun
        idle := nofun
        running := fun _ => ⟨nofun, nofun, alive⟩
        cause := fun h => inv.cause (h.imp_right nofun)
        sleepers := inv.sleepers }
    · exact taken

theorem prepare_inv (inv : Inv limit s) {ticks : ℕ} (small : ticks ≤ limit) :
    Inv limit { s with
      prepared := Function.update s.prepared i (some (s.now + BitVec.ofNat 32 ticks))
      preparedDue := Function.update s.preparedDue i (s.time + ticks) } where
  timeout := inv.timeout
  prepared j b h := by
    by_cases same : j = i
    · simp only [same, Function.update_self, Option.some.injEq] at h ⊢
      rw [← h, State.now, ofNat_add_ofNat]
      exact ⟨rfl, by omega⟩
    · simp only [same, Function.update_of_ne, ne_eq, not_false_eq_true] at h ⊢
      exact inv.prepared j b h
  waiting := inv.waiting
  idle := inv.idle
  running := inv.running
  cause := inv.cause
  sleepers := inv.sleepers

theorem withdraw_inv (inv : Inv limit s) : Inv limit { s with hasTimeout := false } where
  timeout := nofun
  prepared := inv.prepared
  waiting u h := ⟨(inv.waiting u h).1, nofun⟩
  idle none alive := ⟨(inv.idle none alive).1, rfl⟩
  running := inv.running
  cause := inv.cause
  sleepers := inv.sleepers

theorem kill_inv (inv : Inv limit s) : Inv limit (kill s) := by
  rw [kill]
  split
  · have notified := notifyDog_inv inv
    exact {
      timeout := notified.timeout
      prepared := inv.prepared
      waiting := fun u h => by cases dog : s.dog <;> simp [State.notifyDog, dog] at h
      idle := fun _ => nofun
      running := nofun
      cause := notified.cause
      sleepers := inv.sleepers }
  · rename_i none
    exact {
      timeout := inv.timeout
      prepared := inv.prepared
      waiting := inv.waiting
      idle := fun _ => nofun
      running := fun thread => absurd thread none
      cause := inv.cause
      sleepers := inv.sleepers }

/-- A thread is somewhere else in `Sleep_fn`. -/
theorem setSleeper_inv (inv : Inv limit s) {sleeper : Sleeper}
    (known : SleeperOk limit s.time s.canceled (s.wakeAt i) sleeper) :
    Inv limit (s.setSleeper i sleeper) where
  timeout := inv.timeout
  prepared := inv.prepared
  waiting := inv.waiting
  idle := inv.idle
  running := inv.running
  cause := inv.cause
  sleepers j := by
    by_cases same : j = i
    · simpa only [same, State.setSleeper, Function.update_self] using known
    · simpa only [State.setSleeper, Function.update_of_ne same] using inv.sleepers j

theorem sleeper_inv (inv : Inv limit s) (range : InRange limit s) (small : limit < 2 ^ 31)
    (h : sleeperStep s i = some t) : Inv limit t := by
  have known := inv.sleepers i
  cases sleeper : s.sleepers i with
  | waiting w u =>
    rw [sleeper] at known
    cases u with
    | none => simp [sleeperStep, sleeper] at h
    | some d =>
      simp only [sleeperStep, sleeper] at h
      split at h <;> cases h
      exact setSleeper_inv inv ⟨known.1, known.2.1⟩
  | woken w =>
    rw [sleeper] at known
    obtain ⟨shown, bound⟩ := known
    have near := range.sleepers i w (Or.inr sleeper)
    simp only [sleeperStep, sleeper, Option.some.injEq] at h
    subst h
    rw [shown]
    split
    · exact setSleeper_inv inv (Or.inl ‹_›)
    · split
      · rename_i past
        simp only [Bool.not_eq_true'] at past
        apply setSleeper_inv inv
        refine Or.inr ?_
        by_contra early
        rw [(before_now_iff bound near small).2 (by omega)] at past
        cases past
      · rename_i early
        simp only [Bool.not_eq_true', Bool.not_eq_false] at early
        have early := (before_now_iff bound near small).1 early
        exact setSleeper_inv inv ⟨rfl, bound, waitUntil_sub_now bound early.le small⟩
  | leaving =>
    rw [sleeper] at known
    simp only [sleeperStep, sleeper, Option.some.injEq] at h
    subst h
    apply setSleeper_inv inv
    cases canceled : s.canceled with
    | true => simp [SleeperOk]
    | false => simpa [SleeperOk, canceled] using known
  | off | returned ok => simp [sleeperStep, sleeper] at h

theorem sleep_inv (inv : Inv limit s) (small : limit < 2 ^ 31) {ticks : ℕ}
    (bound : ticks ≤ limit) : Inv limit (sleep s i ticks) := by
  have known : SleeperOk limit s.time s.canceled (s.time + ticks)
      (if ticks = 0 then .returned !s.canceled
        else .waiting (s.now + BitVec.ofNat 32 ticks) (s.waitUntil (BitVec.ofNat 32 ticks))) := by
    split
    · cases h : s.canceled <;> simp_all [SleeperOk]
    · rw [State.now, ofNat_add_ofNat, waitUntil_ofNat (by omega)]
      exact ⟨rfl, by omega, rfl⟩
  have same : sleep s i ticks = { s with
      wakeAt := Function.update s.wakeAt i (s.time + ticks)
      sleepers := Function.update s.sleepers i (if ticks = 0 then .returned !s.canceled
        else .waiting (s.now + BitVec.ofNat 32 ticks) (s.waitUntil (BitVec.ofNat 32 ticks))) } := by
    rw [sleep]
    split <;> rfl
  rw [same]
  exact {
    timeout := inv.timeout
    prepared := inv.prepared
    waiting := inv.waiting
    idle := inv.idle
    running := inv.running
    cause := inv.cause
    sleepers := fun j => by
      by_cases here : j = i
      · simpa only [here, Function.update_self] using known
      · simpa only [Function.update_of_ne here] using inv.sleepers j }

theorem step_inv {m : Move} (inv : Inv limit s) (range : InRange limit s) (small : limit < 2 ^ 31)
    (h : step limit s m = some t) : Inv limit t := by
  cases m with
  | tick n =>
    simp only [step, Option.some.injEq] at h
    exact h ▸ tick_inv inv n
  | dog => exact dog_inv inv range small h
  | sleeper i => exact sleeper_inv inv range small h
  | strayDog =>
    simp only [step] at h
    split at h <;> cases h
    rename_i u dog
    exact setDog_inv inv (inv.waiting u dog).1 (by simp) nofun
  | straySleeper i =>
    simp only [step] at h
    split at h <;> cases h
    rename_i w u sleeper
    have known := inv.sleepers i
    rw [sleeper] at known
    exact setSleeper_inv inv ⟨known.1, known.2.1⟩
  | prepare i ticks =>
    simp only [step] at h
    split at h <;> cases h
    rename_i allowed
    simp only [Bool.and_eq_true, decide_eq_true_eq] at allowed
    exact prepare_inv inv allowed.2
  | commit i created =>
    simp only [step] at h
    split at h
    · split at h <;> cases h
      exact commit_inv inv range ‹_› (by simpa using ‹¬ s.killed = true›) created
    · cases h
  | withdraw =>
    simp only [step] at h
    split at h <;> cases h
    exact withdraw_inv inv
  | sleep i ticks =>
    simp only [step] at h
    split at h
    case h_3 => cases h
    all_goals
      split at h <;> cases h
      rename_i allowed
      simp only [Bool.and_eq_true, decide_eq_true_eq] at allowed
      exact sleep_inv inv small allowed.2
  | kill =>
    simp only [step] at h
    split at h <;> cases h
    exact kill_inv inv

/-! ### What is due happens -/

/-- `CancelExecution` has just been called for a timeout. -/
structure Fired (due : ℕ) (s : State) : Prop where
  canceled : s.canceled = true
  dog : s.dog = .ready true
  cause : s.cause = some due

theorem watch_of_due (inv : Inv limit s) (range : InRange limit s) (small : limit < 2 ^ 31)
    (thread : s.thread = true) (set : s.hasTimeout = true) (past : s.due ≤ s.time) :
    s.watch.dog = .cancelling ∧ s.watch.cause = some s.due := by
  obtain ⟨shown, bound, -⟩ := inv.timeout set
  have expired : before s.now s.timeout = false := by
    rw [shown, Bool.eq_false_iff, ne_eq, before_now_iff bound (range.timeout set) small]
    omega
  rw [State.watch, if_pos thread, set, expired]
  exact ⟨rfl, rfl⟩

theorem dogStep_cancelling (dog : s.dog = .cancelling) :
    dogStep s = some { s with canceled := true, dog := .ready true } := by
  simp only [dogStep, dog]

theorem dogStep_ready (inv : Inv limit s) (range : InRange limit s) (small : limit < 2 ^ 31)
    (thread : s.thread = true) (set : s.hasTimeout = true) (past : s.due ≤ s.time) {notify : Bool}
    (dog : s.dog = .ready notify) :
    ∃ t, dogStep s = some t ∧ t.dog = .cancelling ∧ t.cause = some s.due := by
  simp only [dogStep, dog]
  cases notify with
  | true =>
    exact ⟨_, rfl, watch_of_due (notifySleepers_inv inv) range.notifySleepers small thread set past⟩
  | false => exact ⟨_, rfl, watch_of_due inv range small thread set past⟩

/-- The steps of the watchdog alone. -/
abbrev dogSteps (limit : ℕ) (s : State) (k : ℕ) : Option State :=
  exec (step limit) s (List.replicate k .dog)

theorem dogSteps_succ_of_some {k : ℕ} (h : dogStep s = some t) :
    dogSteps limit s (k + 1) = dogSteps limit t k := by
  simp only [dogSteps, List.replicate_succ, exec, step, h, Option.bind_some]

/-- When a timeout is due, the watchdog is about to cancel the scripts, and nobody has to help. -/
theorem fires (inv : Inv limit s) (range : InRange limit s) (small : limit < 2 ^ 31)
    (alive : s.killed = false) (set : s.hasTimeout = true) (past : s.due ≤ s.time) :
    ∃ k ≤ 3, ∃ t, dogSteps limit s k = some t ∧ Fired s.due t := by
  have thread : s.thread = true := by
    by_contra none
    have := (inv.idle (by simpa using none) alive).2
    simp [set] at this
  have cancels (u : State) (expired : u.dog = .cancelling ∧ u.cause = some s.due) :
      ∃ t, dogSteps limit u 1 = some t ∧ Fired s.due t :=
    ⟨_, dogSteps_succ_of_some (dogStep_cancelling expired.1), rfl, rfl, expired.2⟩
  cases dog : s.dog with
  | cancelling =>
    -- the call that lies ahead is for an earlier timeout
    have first := dogStep_cancelling dog
    have canceled := dog_inv inv range small first
    obtain ⟨u, second, expired⟩ := dogStep_ready canceled
      ⟨range.timeout, range.prepared, range.sleepers⟩ small thread set past rfl
    refine ⟨3, le_rfl, ?_⟩
    rw [dogSteps_succ_of_some first, dogSteps_succ_of_some second]
    exact cancels u expired
  | ready notify =>
    obtain ⟨u, first, expired⟩ := dogStep_ready inv range small thread set past dog
    refine ⟨2, by omega, ?_⟩
    rw [dogSteps_succ_of_some first]
    exact cancels u expired
  | waiting wakes =>
    obtain ⟨d, rfl, early⟩ := (inv.waiting wakes dog).2 set
    have first : dogStep s = some { s with dog := .ready false } := by
      simp only [dogStep, dog, if_pos (early.trans past)]
    have woken : Inv limit { s with dog := .ready false } :=
      setDog_inv inv thread (by simp) nofun
    obtain ⟨u, second, expired⟩ := dogStep_ready woken
      ⟨range.timeout, range.prepared, range.sleepers⟩ small thread set past rfl
    refine ⟨3, le_rfl, ?_⟩
    rw [dogSteps_succ_of_some first, dogSteps_succ_of_some second]
    exact cancels u expired
  | absent => exact absurd dog (inv.running thread).1
  | exited => exact absurd dog (inv.running thread).2.1

/-- When it is told to end, the watchdog is about to, and does not wait for anything. -/
theorem ends (inv : Inv limit s) (killed : s.killed = true) :
    s.dog = .absent ∨ ∃ k ≤ 2, ∃ t, dogSteps limit s k = some t ∧ t.dog = .exited := by
  have none : s.thread = false := by
    by_contra thread
    have := (inv.running (by simpa using thread)).2.2
    simp [killed] at this
  have exits (u : State) (thread : u.thread = false) {notify : Bool}
      (dog : u.dog = .ready notify) : ∃ t, dogSteps limit u 1 = some t ∧ t.dog = .exited := by
    have first : dogStep u = some (if notify then u.notifySleepers.watch else u.watch) := by
      simp only [dogStep, dog]
    refine ⟨_, dogSteps_succ_of_some first, ?_⟩
    split <;> rw [State.watch, if_neg (by simp [State.notifySleepers, thread])]
  cases dog : s.dog with
  | absent => exact Or.inl rfl
  | exited => exact Or.inr ⟨0, by omega, s, rfl, dog⟩
  | ready notify => exact Or.inr ⟨1, by omega, exits s none dog⟩
  | cancelling =>
    have first : dogStep s = some { s with canceled := true, dog := .ready true } := by
      simp only [dogStep, dog]
    refine Or.inr ⟨2, le_rfl, ?_⟩
    rw [dogSteps_succ_of_some first]
    exact exits _ none rfl
  | waiting wakes => simp [(inv.waiting wakes dog).1] at none

/-- The step that follows `CancelExecution` leaves nobody asleep. -/
theorem awake_of_notify (dog : s.dog = .ready true) :
    ∃ t, dogStep s = some t ∧ ∀ w u, t.sleepers i ≠ .waiting w u := by
  refine ⟨s.notifySleepers.watch, by simp only [dogStep, dog, if_true], fun w u => ?_⟩
  have same : s.notifySleepers.watch.sleepers = s.notifySleepers.sleepers := by
    rw [State.watch]
    split
    · split <;> rfl
    · rfl
  rw [same]
  cases asleep : s.sleepers i <;> simp [State.notifySleepers, asleep]

/-- A sleeper whose time has come is about to return. -/
theorem wakes (inv : Inv limit s) (range : InRange limit s) (small : limit < 2 ^ 31)
    (asleep : ∃ w u, s.sleepers i = .waiting w u) (past : s.wakeAt i ≤ s.time) :
    ∃ t ok, exec (step limit) s (List.replicate 3 (.sleeper i)) = some t ∧
      t.sleepers i = .returned ok := by
  obtain ⟨w, u, asleep⟩ := asleep
  have known := inv.sleepers i
  rw [asleep] at known
  obtain ⟨shown, bound, rfl⟩ := known
  have near := range.sleepers i w (Or.inl ⟨_, asleep⟩)
  have passed : before s.now w = false := by
    rw [shown, Bool.eq_false_iff, ne_eq, before_now_iff bound near small]
    omega
  have first : sleeperStep s i = some (s.setSleeper i (.woken w)) := by
    simp only [sleeperStep, asleep, if_pos past]
  have second : sleeperStep (s.setSleeper i (.woken w)) i =
      some ((s.setSleeper i (.woken w)).setSleeper i .leaving) := by
    have same : (s.setSleeper i (.woken w)).now = s.now := rfl
    simp only [sleeperStep, State.setSleeper, Function.update_self]
    simp [State.now] at passed ⊢
    simp [passed]
  have third : sleeperStep ((s.setSleeper i (.woken w)).setSleeper i .leaving) i =
      some (((s.setSleeper i (.woken w)).setSleeper i .leaving).setSleeper i
        (.returned !s.canceled)) := by
    simp [sleeperStep, State.setSleeper]
  have run : exec (step limit) s (List.replicate 3 (.sleeper i)) =
      some (((s.setSleeper i (.woken w)).setSleeper i .leaving).setSleeper i
        (.returned !s.canceled)) := by
    simp only [List.replicate, exec, step, first, second, third, Option.bind_some]
  exact ⟨_, !s.canceled, run, by simp [State.setSleeper]⟩

/-! ### Short runs stay in range -/

/-- A sleeper has not returned. -/
def Sleeper.asleep : Sleeper → Bool
  | .waiting _ _ | .woken _ => true
  | _ => false

/-- Everything that is waited for lies after an instant. -/
structure Since (start : ℕ) (s : State) : Prop where
  time : start ≤ s.time
  timeout : s.hasTimeout = true → start ≤ s.due
  prepared : ∀ i, (s.prepared i).isSome = true → start ≤ s.preparedDue i
  sleepers : ∀ i, (s.sleepers i).asleep = true → start ≤ s.wakeAt i

theorem Since.inRange {start : ℕ} (since : Since start s)
    (short : s.time + limit < start + 2 ^ 31) : InRange limit s where
  timeout set := short.trans_le (Nat.add_le_add_right (since.timeout set) _)
  prepared i b h := short.trans_le
    (Nat.add_le_add_right (since.prepared i (by rw [h, Option.isSome_some])) _)
  sleepers i w h := by
    apply short.trans_le (Nat.add_le_add_right (since.sleepers i _) _)
    rcases h with ⟨u, h⟩ | h <;> rw [h] <;> rfl

theorem Since.watch {start : ℕ} (since : Since start s) : Since start s.watch := by
  rw [State.watch]
  split
  · split
    · exact ⟨since.time, nofun, since.prepared, since.sleepers⟩
    · exact ⟨since.time, since.timeout, since.prepared, since.sleepers⟩
  · exact ⟨since.time, since.timeout, since.prepared, since.sleepers⟩

theorem Since.notifySleepers {start : ℕ} (since : Since start s) :
    Since start s.notifySleepers := by
  refine ⟨since.time, since.timeout, since.prepared, fun i asleep => since.sleepers i ?_⟩
  cases h : s.sleepers i <;> simp_all [State.notifySleepers, Sleeper.asleep]

theorem Since.setSleeper {start : ℕ} (since : Since start s) {sleeper : Sleeper}
    (same : sleeper.asleep = true → (s.sleepers i).asleep = true) :
    Since start (s.setSleeper i sleeper) := by
  refine ⟨since.time, since.timeout, since.prepared, fun j asleep => since.sleepers j ?_⟩
  by_cases here : j = i
  · rw [here] at asleep ⊢
    exact same (by simpa [State.setSleeper] using asleep)
  · simpa [State.setSleeper, here] using asleep

theorem Since.commit {start : ℕ} (since : Since start s)
    (prepared : (s.prepared i).isSome = true) {timeout : Interval} {created : Bool} :
    Since start (commit s i timeout created) := by
  have due := since.prepared i prepared
  have left (j : ℕ) (h : (Function.update s.prepared i none j).isSome = true) :
      start ≤ s.preparedDue j := by
    by_cases here : j = i
    · simp [here] at h
    · exact since.prepared j (by simpa [here] using h)
  rw [Watchdog.commit]
  split
  · split <;> exact ⟨since.time, fun _ => due, left, since.sleepers⟩
  · split
    · exact ⟨since.time, fun _ => due, left, since.sleepers⟩
    · exact ⟨since.time, since.timeout, left, since.sleepers⟩

theorem Since.sleep {start ticks : ℕ} (since : Since start s) :
    Since start (sleep s i ticks) := by
  have wakeAt (j : ℕ) (h : j ≠ i → (s.sleepers j).asleep = true) :
      start ≤ Function.update s.wakeAt i (s.time + ticks) j := by
    by_cases here : j = i
    · rw [here, Function.update_self]
      exact since.time.trans (Nat.le_add_right _ _)
    · rw [Function.update_of_ne here]
      exact since.sleepers j (h here)
  rw [Watchdog.sleep]
  split
  all_goals
    refine ⟨since.time, since.timeout, since.prepared, fun j h => wakeAt j fun other => ?_⟩
    simpa [State.setSleeper, other] using h

theorem step_since {start : ℕ} {m : Move} (since : Since start s) (h : step limit s m = some t) :
    Since start t := by
  cases m with
  | tick n =>
    simp only [step, Option.some.injEq] at h
    exact h ▸ ⟨since.time.trans (Nat.le_add_right _ _), since.timeout, since.prepared,
      since.sleepers⟩
  | dog =>
    simp only [step, dogStep] at h
    split at h
    · cases h
      split
      · exact since.notifySleepers.watch
      · exact since.watch
    · cases h
      exact ⟨since.time, since.timeout, since.prepared, since.sleepers⟩
    · split at h <;> cases h
      exact ⟨since.time, since.timeout, since.prepared, since.sleepers⟩
    all_goals cases h
  | sleeper i =>
    simp only [step, sleeperStep] at h
    split at h
    · split at h <;> cases h
      rename_i sleeper _
      exact since.setSleeper fun _ => by rw [sleeper]; rfl
    · rename_i w sleeper
      cases h
      (repeat' split) <;> exact since.setSleeper fun _ => by rw [sleeper]; rfl
    · cases h
      exact since.setSleeper nofun
    all_goals cases h
  | strayDog =>
    simp only [step] at h
    split at h <;> cases h
    exact ⟨since.time, since.timeout, since.prepared, since.sleepers⟩
  | straySleeper i =>
    simp only [step] at h
    split at h <;> cases h
    rename_i w u sleeper
    exact since.setSleeper fun _ => by rw [sleeper]; rfl
  | prepare i ticks =>
    simp only [step] at h
    split at h <;> cases h
    refine ⟨since.time, since.timeout, fun j prepared => ?_, since.sleepers⟩
    by_cases here : j = i
    · simp only [here, Function.update_self]
      exact since.time.trans (Nat.le_add_right _ _)
    · simp only [Function.update_of_ne here] at prepared ⊢
      exact since.prepared j prepared
  | commit i created =>
    simp only [step] at h
    split at h
    · split at h <;> cases h
      rename_i prepared _
      exact since.commit (by rw [prepared, Option.isSome_some])
    · cases h
  | withdraw =>
    simp only [step] at h
    split at h <;> cases h
    exact ⟨since.time, nofun, since.prepared, since.sleepers⟩
  | sleep i ticks =>
    simp only [step] at h
    split at h
    case h_3 => cases h
    all_goals
      split at h <;> cases h
      exact since.sleep
  | kill =>
    simp only [step] at h
    split at h <;> cases h
    rw [kill]
    split <;> exact ⟨since.time, since.timeout, since.prepared, since.sleepers⟩

/-- The ticks that pass in a run. -/
def elapsed : List Move → ℕ
  | [] => 0
  | .tick n :: moves => n + elapsed moves
  | _ :: moves => elapsed moves

theorem watch_time : s.watch.time = s.time := by
  rw [State.watch]
  split
  · split <;> rfl
  · rfl

theorem commit_time (timeout : Interval) (created : Bool) :
    (commit s i timeout created).time = s.time := by
  rw [commit]
  split
  · split <;> rfl
  · split <;> rfl

/-- Only time itself makes the time pass. -/
theorem step_time {m : Move} (h : step limit s m = some t) : t.time = s.time + elapsed [m] := by
  cases m with
  | tick n =>
    simp only [step, Option.some.injEq] at h
    simp [← h, elapsed]
  | dog =>
    simp only [step, dogStep] at h
    split at h
    · cases h
      split <;> exact watch_time
    · cases h
      rfl
    · split at h <;> cases h
      rfl
    all_goals cases h
  | sleeper i =>
    simp only [step, sleeperStep] at h
    split at h
    · split at h <;> cases h
      rfl
    · cases h
      (repeat' split) <;> rfl
    · cases h
      rfl
    all_goals cases h
  | commit i created =>
    simp only [step] at h
    split at h
    · split at h <;> cases h
      exact commit_time _ _
    · cases h
  | sleep i ticks =>
    simp only [step] at h
    split at h
    case h_3 => cases h
    all_goals
      split at h <;> cases h
      rw [sleep]
      split <;> rfl
  | kill =>
    simp only [step] at h
    split at h <;> cases h
    rw [kill]
    split <;> rfl
  | strayDog | straySleeper i | prepare i ticks | withdraw =>
    simp only [step] at h
    split at h <;> cases h
    rfl

theorem Since.throughout {start : ℕ} {moves : List Move} (since : Since start s)
    (short : s.time + elapsed moves + limit < start + 2 ^ 31) :
    Throughout (step limit) (InRange limit) s moves := by
  induction moves generalizing s with
  | nil => exact since.inRange (by simpa [elapsed] using short)
  | cons m moves ih =>
    refine ⟨since.inRange (by omega), fun t h => ih (step_since since h) ?_⟩
    have := step_time h
    cases m <;> simp only [elapsed] at this short ⊢ <;> omega

/-- As long as no more than the rest of half a turn passes, the clock stays in range. -/
theorem inRange_of_short {time : ℕ} {moves : List Move} (short : elapsed moves + limit < 2 ^ 31) :
    Throughout (step limit) (InRange limit) (.init time) moves := by
  have since : Since time (State.init time) := ⟨le_rfl, nofun, nofun, nofun⟩
  refine since.throughout ?_
  simp only [State.init]
  omega

/-! ### Every run -/

theorem reached_inv {time : ℕ} {moves : List Move} (small : limit < 2 ^ 31)
    (range : Throughout (step limit) (InRange limit) (.init time) moves)
    (run : exec (step limit) (.init time) moves = some s) : Inv limit s ∧ InRange limit s :=
  exec_inv_throughout (Inv limit) (InRange limit)
    (fun _ _ _ inv here _ h => step_inv inv here small h) (Inv.init limit time) range run

/-- `MAX_TIMEOUT_INTERVAL` in ticks. -/
def maxTimeout (ticksPerSecond : ℕ) : ℕ := 1800 * ticksPerSecond

theorem maxTimeout_small {ticksPerSecond : ℕ} (documented : ticksPerSecond ≤ 100000) :
    maxTimeout ticksPerSecond < 2 ^ 31 := by
  rw [maxTimeout]
  omega

/-- In every interleaving in which the clock stays in range: scripts are cancelled only after a
timeout that was set has passed; and when the timeout that is set has passed, the watchdog calls
`CancelExecution` for it within three steps of its own, without help, wherever it is in its loop.
Nothing clears `gCanceled` here, as the prompt does for its next line. -/
theorem watchdog_in_time (ticksPerSecond : ℕ) (documented : ticksPerSecond ≤ 100000) (time : ℕ)
    (moves : List Move) (s : State)
    (range : Throughout (step (maxTimeout ticksPerSecond)) (InRange (maxTimeout ticksPerSecond))
      (.init time) moves)
    (run : exec (step (maxTimeout ticksPerSecond)) (.init time) moves = some s) :
    (s.canceled = true → ∃ d ∈ s.scheduled, d ≤ s.time) ∧
      (s.killed = false → s.hasTimeout = true → s.due ≤ s.time →
        ∃ k ≤ 3, ∃ t, dogSteps (maxTimeout ticksPerSecond) s k = some t ∧
          t.canceled = true ∧ Fired s.due t) := by
  have small := maxTimeout_small documented
  obtain ⟨inv, here⟩ := reached_inv small range run
  constructor
  · intro canceled
    obtain ⟨d, mem, -, past⟩ := inv.cause (Or.inl canceled)
    exact ⟨d, mem, past⟩
  · intro alive set past
    obtain ⟨k, few, t, steps, fired⟩ := fires inv here small alive set past
    exact ⟨k, few, t, steps, fired.canceled, fired⟩

/-- The clock turns round between the call and the timeout. -/
def overTheTurn : List Move := [.prepare 0 5, .commit 0 true, .sleep 1 4, .dog, .tick 5]

theorem watchdog_in_time_overTheTurn :
    ∃ s, exec (step (maxTimeout 1000)) (.init (2 ^ 32 - 2)) overTheTurn = some s ∧
      ∃ k ≤ 3, ∃ t, dogSteps (maxTimeout 1000) s k = some t ∧ t.canceled = true ∧
        Fired s.due t :=
  ⟨_, rfl, (watchdog_in_time 1000 (by decide) (2 ^ 32 - 2) overTheTurn _
    (inRange_of_short (by decide)) rfl).2 rfl rfl (by decide)⟩

/-- In every interleaving in which the clock stays in range, `Sleep_fn` returns `true` only when its
time has come and `false` only when scripts are cancelled; it never sets out to sleep longer, and
when its time has come it returns within three steps of its own.  A watchdog that has cancelled the
scripts leaves nobody asleep. -/
theorem sleep_lasts (ticksPerSecond : ℕ) (documented : ticksPerSecond ≤ 100000) (time : ℕ)
    (moves : List Move) (s : State)
    (range : Throughout (step (maxTimeout ticksPerSecond)) (InRange (maxTimeout ticksPerSecond))
      (.init time) moves)
    (run : exec (step (maxTimeout ticksPerSecond)) (.init time) moves = some s) (i : ℕ) :
    (s.sleepers i = .returned true → s.wakeAt i ≤ s.time) ∧
      (s.sleepers i = .returned false → s.canceled = true) ∧
      (∀ w u, s.sleepers i = .waiting w u → u = some (s.wakeAt i) ∧ (s.wakeAt i ≤ s.time →
        ∃ t ok, exec (step (maxTimeout ticksPerSecond)) s (List.replicate 3 (.sleeper i)) = some t ∧
          t.sleepers i = .returned ok)) ∧
      (s.dog = .ready true → ∃ t, dogStep s = some t ∧ ∀ w u, t.sleepers i ≠ .waiting w u) := by
  have small := maxTimeout_small documented
  obtain ⟨inv, here⟩ := reached_inv small range run
  have known := inv.sleepers i
  refine ⟨fun back => ?_, fun back => ?_, fun w u asleep => ⟨?_, fun past => ?_⟩,
    awake_of_notify⟩
  · rwa [back] at known
  · rwa [back] at known
  · rw [asleep] at known
    exact known.2.2
  · exact wakes inv here small ⟨w, u, asleep⟩ past

theorem sleep_lasts_overTheTurn :
    ∃ s, exec (step (maxTimeout 1000)) (.init (2 ^ 32 - 2)) overTheTurn = some s ∧
      ∃ t ok, exec (step (maxTimeout 1000)) s (List.replicate 3 (.sleeper 1)) = some t ∧
        t.sleepers 1 = .returned ok :=
  ⟨_, rfl, ((sleep_lasts 1000 (by decide) (2 ^ 32 - 2) overTheTurn _
    (inRange_of_short (by decide)) rfl 1).2.2.1 _ _ rfl).2 (by decide)⟩

/-- In every interleaving in which the clock stays in range, once `KillWatchdog` has told the
watchdog to end, the watchdog returns within two steps of its own, so that the join comes back; and
it is not created again, as `KillWatchdog` is called last. -/
theorem killWatchdog_joins (ticksPerSecond : ℕ) (documented : ticksPerSecond ≤ 100000) (time : ℕ)
    (moves : List Move) (s : State)
    (range : Throughout (step (maxTimeout ticksPerSecond)) (InRange (maxTimeout ticksPerSecond))
      (.init time) moves)
    (run : exec (step (maxTimeout ticksPerSecond)) (.init time) moves = some s)
    (killed : s.killed = true) :
    s.thread = false ∧ (s.dog = .absent ∨ ∃ k ≤ 2, ∃ t,
      dogSteps (maxTimeout ticksPerSecond) s k = some t ∧ t.dog = .exited) := by
  obtain ⟨inv, -⟩ := reached_inv (maxTimeout_small documented) range run
  refine ⟨?_, ends inv killed⟩
  by_contra thread
  have := (inv.running (by simpa using thread)).2.2
  simp [killed] at this

theorem killWatchdog_joins_overTheTurn :
    ∃ s, exec (step (maxTimeout 1000)) (.init (2 ^ 32 - 2)) (overTheTurn ++ [.kill]) = some s ∧
      s.thread = false ∧ (s.dog = .absent ∨ ∃ k ≤ 2, ∃ t,
        dogSteps (maxTimeout 1000) s k = some t ∧ t.dog = .exited) :=
  ⟨_, rfl, killWatchdog_joins 1000 (by decide) (2 ^ 32 - 2) (overTheTurn ++ [.kill]) _
    (inRange_of_short (by decide)) rfl rfl⟩

end Sysjs.Watchdog
