import Mathlib.Logic.Function.Basic
import Mathlib.Data.List.Basic
import Sysjs.Foundation.Interleaving
import Sysjs.Foundation.Serial

/-!
# The watchdog

A thread of its own cancels the scripts when a timeout expires.  `ScheduleWatchdog` sets the timeout
and wakes the watchdog if it has to look earlier, `Sleep_fn` sleeps on the same lock, and
`KillWatchdog` ends the thread.  `PR_IntervalNow` shows the time modulo `2 ^ 32`; what happens under
`gWatchdogLock` is one step, in which no time passes: a thread that has read the clock there is in
its wait at once.  Once set, `gCanceled` stays set; that the prompt clears it for its next line is
not part of this.  Next to the variables of the shell, the state keeps the true times.
-/

set_option autoImplicit false

namespace Sysjs.Watchdog

open Interleaving Serial

/-- `PRIntervalTime`. -/
abbrev Interval := BitVec 32

/-- `PR_INTERVAL_NO_TIMEOUT`. -/
def noTimeout : Interval := BitVec.allOnes 32

/-- Where the watchdog thread is: not created; about to take the lock, to notify the sleepers if
`CancelExecution` lies behind it; about to call `CancelExecution`; in `PR_WaitCondVar` until a time;
or returned. -/
inductive Dog where
  | absent
  | ready (notify : Bool)
  | cancelling
  | waiting (wakes : Option ℕ)
  | exited
  deriving DecidableEq

/-- Where a thread is in `Sleep_fn`, with its `to_wakeup`. -/
inductive Sleeper where
  | off
  | waiting (wakeup : Interval) (wakes : Option ℕ)
  | woken (wakeup : Interval)
  | leaving
  | returned (ok : Bool)
  deriving DecidableEq

/-- The state of the watchdog.  `prepared` are the timeouts that `ScheduleWatchdog` has computed but
not set yet, by thread.  The true times: `due` of the timeout that is set, `preparedDue` of those
that are computed, `wakeAt` of the sleepers, `scheduled` of all timeouts that were set, and `cause`
of the last one that expired. -/
structure State where
  time : ℕ
  canceled : Bool
  thread : Bool
  killed : Bool
  hasTimeout : Bool
  timeout : Interval
  dog : Dog
  prepared : ℕ → Option Interval
  sleepers : ℕ → Sleeper
  due : ℕ
  preparedDue : ℕ → ℕ
  wakeAt : ℕ → ℕ
  scheduled : List ℕ
  cause : Option ℕ

def State.init (time : ℕ) : State where
  time := time
  canceled := false
  thread := false
  killed := false
  hasTimeout := false
  timeout := 0
  dog := .absent
  prepared _ := none
  sleepers _ := .off
  due := 0
  preparedDue _ := 0
  wakeAt _ := 0
  scheduled := []
  cause := none

namespace State

/-- `PR_IntervalNow`. -/
def now (s : State) : Interval := BitVec.ofNat 32 s.time

/-- When a wait of a duration is over. -/
def waitUntil (s : State) (d : Interval) : Option ℕ :=
  if d = noTimeout then none else some (s.time + d.toNat)

/-- `PR_NotifyAllCondVar(gSleepWakeup)`. -/
def notifySleepers (s : State) : State :=
  { s with sleepers := fun i => match s.sleepers i with
      | .waiting w _ => .woken w
      | sleeper => sleeper }

/-- `PR_NotifyCondVar(gWatchdogWakeup)`. -/
def notifyDog (s : State) : State :=
  { s with dog := match s.dog with
      | .waiting _ => .ready false
      | dog => dog }

/-- The loop of `WatchdogMain` from the lock to the next wait or unlock. -/
def watch (s : State) : State :=
  if s.thread then
    if s.hasTimeout && !before s.now s.timeout then
      { s with hasTimeout := false, dog := .cancelling, cause := some s.due }
    else
      { s with dog := .waiting (s.waitUntil (if s.hasTimeout then s.timeout - s.now
          else noTimeout)) }
  else { s with dog := .exited }

/-- The end of `ScheduleWatchdog`. -/
def setTimeout (s : State) (timeout : Interval) (due : ℕ) : State :=
  { s with
    hasTimeout := true
    timeout := timeout
    due := due
    scheduled := due :: s.scheduled }

end State

/-- The next step of the watchdog thread. -/
def dogStep (s : State) : Option State :=
  match s.dog with
  | .ready notify => some (if notify then s.notifySleepers.watch else s.watch)
  | .cancelling => some { s with canceled := true, dog := .ready true }
  | .waiting (some u) => if u ≤ s.time then some { s with dog := .ready false } else none
  | .absent | .waiting none | .exited => none

/-- `ScheduleWatchdog` under the lock, with a timeout it has computed; `created` is what comes of
`PR_CreateThread`. -/
def commit (s : State) (i : ℕ) (timeout : Interval) (created : Bool) : State :=
  let s := { s with prepared := Function.update s.prepared i none }
  if s.thread then
    if !s.hasTimeout || before timeout s.timeout then
      s.notifyDog.setTimeout timeout (s.preparedDue i)
    else s.setTimeout timeout (s.preparedDue i)
  else if created then
    { s with thread := true, dog := .ready false }.setTimeout timeout (s.preparedDue i)
  else s

def State.setSleeper (s : State) (i : ℕ) (sleeper : Sleeper) : State :=
  { s with sleepers := Function.update s.sleepers i sleeper }

/-- The next step of `Sleep_fn` in a thread. -/
def sleeperStep (s : State) (i : ℕ) : Option State :=
  match s.sleepers i with
  | .waiting w (some u) => if u ≤ s.time then some (s.setSleeper i (.woken w)) else none
  | .woken w =>
    some (if s.canceled then s.setSleeper i .leaving
      else if !before s.now w then s.setSleeper i .leaving
      else s.setSleeper i (.waiting w (s.waitUntil (w - s.now))))
  | .leaving => some (s.setSleeper i (.returned !s.canceled))
  | .off | .waiting _ none | .returned _ => none

/-- `Sleep_fn` is called for a number of ticks, up to its first wait. -/
def sleep (s : State) (i : ℕ) (ticks : ℕ) : State :=
  let s := { s with wakeAt := Function.update s.wakeAt i (s.time + ticks) }
  if ticks = 0 then s.setSleeper i (.returned !s.canceled)
  else s.setSleeper i (.waiting (s.now + BitVec.ofNat 32 ticks)
    (s.waitUntil (BitVec.ofNat 32 ticks)))

/-- `KillWatchdog` up to the join. -/
def kill (s : State) : State :=
  if s.thread then { s.notifyDog with thread := false, killed := true }
  else { s with killed := true }

/-- What happens next: time passes; the watchdog or a sleeper takes a step, or its `PR_WaitCondVar`
returns out of nowhere; `ScheduleWatchdog` computes a timeout, sets it, or withdraws the one that is
set; `Sleep_fn` or `KillWatchdog` is called. -/
inductive Move where
  | tick (n : ℕ)
  | dog
  | sleeper (i : ℕ)
  | strayDog
  | straySleeper (i : ℕ)
  | prepare (i ticks : ℕ)
  | commit (i : ℕ) (created : Bool)
  | withdraw
  | sleep (i ticks : ℕ)
  | kill

/-- One move, for a bound `limit` on timeouts and sleeps, which is `MAX_TIMEOUT_INTERVAL` in ticks.
`KillWatchdog` is called last, when no script is left to set a timeout or to sleep. -/
def step (limit : ℕ) (s : State) : Move → Option State
  | .tick n => some { s with time := s.time + n }
  | .dog => dogStep s
  | .sleeper i => sleeperStep s i
  | .strayDog =>
    match s.dog with
    | .waiting _ => some { s with dog := .ready false }
    | _ => none
  | .straySleeper i =>
    match s.sleepers i with
    | .waiting w _ => some (s.setSleeper i (.woken w))
    | _ => none
  | .prepare i ticks =>
    if !s.killed && 0 < ticks && ticks ≤ limit then
      some { s with
        prepared := Function.update s.prepared i (some (s.now + BitVec.ofNat 32 ticks))
        preparedDue := Function.update s.preparedDue i (s.time + ticks) }
    else none
  | .commit i created =>
    match s.prepared i with
    | some timeout => if s.killed then none else some (commit s i timeout created)
    | none => none
  | .withdraw => if s.killed then none else some { s with hasTimeout := false }
  | .sleep i ticks =>
    match s.sleepers i with
    | .off | .returned _ =>
      if !s.killed && ticks ≤ limit then some (sleep s i ticks) else none
    | _ => none
  | .kill => if s.killed then none else some (kill s)

end Sysjs.Watchdog
