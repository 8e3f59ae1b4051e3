import Mathlib.Tactic.Common
import Mathlib.Logic.Function.Basic
import Sysjs.Foundation.Interleaving

/-!
# Functions called in threads of their own

`scatter(fnArray)` calls each function of an array in a thread of its own, the first one in its own
thread, and returns the array of the results.  The threads wait on a condition variable for the word
to go, or to give up when one of them cannot be created.  A move is one step of the thread that
called `scatter`, of one of the created threads, or a wakeup out of nowhere; the calls a step makes
turn out as its `Reply` says.
-/

set_option autoImplicit false

namespace Sysjs.Scatter

variable {V : Type*}

/-- How a call turns out: it fails, with an exception pending or none, or it returns a value. -/
inductive Reply (V : Type*) where
  | done (v : V)
  | failed (pending : Option V)
  deriving DecidableEq

def Reply.ok : Reply V → Bool
  | .done _ => true
  | .failed _ => false

/-- A cell of `sd.results`: not written yet, `JSVAL_VOID`, or another value. -/
inductive Cell (V : Type*) where
  | garbage
  | void
  | value (v : V)
  deriving DecidableEq

/-- What `DoScatteredWork` leaves in its cell: what the function returned, or else the exception
that is pending, or else `undefined`. -/
def Reply.rval : Reply V → Cell V
  | .done v => .value v
  | .failed (some e) => .value e
  | .failed none => .void

/-- `ScatterStatus`. -/
inductive Status where
  | wait
  | go
  | cancel
  deriving DecidableEq

/-- How `RunScatterThread` returns: its stack base could not be set, it was told to give up, or its
function was called. -/
inductive Exit where
  | unstarted
  | cancelled
  | finished
  deriving DecidableEq

/-- Where a created thread is in `RunScatterThread`. -/
inductive Phase where
  | absent
  | started
  /-- before `PR_Lock` -/
  | locking
  /-- at the test of the loop, with the lock -/
  | testing
  /-- in the body of the loop, with the lock -/
  | entering
  /-- in `PR_WaitCondVar`, not notified yet -/
  | sleeping
  /-- in `PR_WaitCondVar`, about to take the lock back -/
  | waking
  /-- before `PR_Unlock`, with the status it has read -/
  | unlocking (st : Status)
  | ready
  /-- inside the function it calls -/
  | running
  | leaving
  | exited (how : Exit)
  deriving DecidableEq

/-- A context of the engine: not there, of no thread, or set to a thread. -/
inductive Context where
  | gone
  | idle
  | held
  deriving DecidableEq

/-- `ScatterThreadData`: whether `thr` and `cx` are set, and the function. -/
structure ThreadData (V : Type*) where
  thr : Bool
  cx : Bool
  fn : Option V

/-- The addresses rooted for the collector. -/
inductive Root where
  | result (i : ℕ)
  | fn (i : ℕ)
  deriving DecidableEq

/-- Where the thread that called `scatter` is. -/
inductive Pc where
  | start
  | newLock
  | newCvar
  | mallocResults
  | rootResult (i : ℕ)
  | unrootResult (i : ℕ)
  | mallocThreads
  | rootFn (i : ℕ)
  | getElement (i : ℕ)
  | unrootFn (i : ℕ)
  | newContext (i : ℕ)
  | createThread (i : ℕ)
  /-- before `PR_Lock`, to set the status when threads before `i` are created -/
  | lockFor (st : Status) (i : ℕ)
  | notify (st : Status) (i : ℕ)
  | unlockFor (st : Status) (i : ℕ)
  /-- the loop that joins the created threads from the last one -/
  | joinBack (i : ℕ)
  | callOwn
  | ownRunning
  | join (i : ℕ)
  | newArray
  | out
  | outFn (i : ℕ)
  | outResults
  | outResult (i : ℕ)
  | outCvar
  | outLock
  | returned
  deriving DecidableEq

/-- The state of a call of `scatter`.  The lock, the condition variable and the two arrays are there
or not; `owner` holds the lock, 0 being the thread that called `scatter`; `called` counts how often
a function was called, and `reply` is how its call turned out; `fault` says that the code has used
something that is not there. -/
structure State (V : Type*) where
  pc : Pc
  ok : Bool
  lock : Bool
  cvar : Bool
  results : Option (ℕ → Cell V)
  threads : Option (ℕ → Option (ThreadData V))
  roots : Root → Bool
  contexts : ℕ → Context
  status : Status
  owner : Option ℕ
  phase : ℕ → Phase
  called : ℕ → ℕ
  reply : ℕ → Option (Reply V)
  vp : Option (List (Cell V))
  fault : Bool

/-- `scatter` is called. -/
def State.init : State V where
  pc := .start
  ok := false
  lock := false
  cvar := false
  results := none
  threads := none
  roots _ := false
  contexts _ := .gone
  status := .wait
  owner := none
  phase _ := .absent
  called _ := 0
  reply _ := none
  vp := none
  fault := false

namespace State

/-- `sd.threads[i]`, when it is there and filled in. -/
def datum (s : State V) (i : ℕ) : Option (ThreadData V) := s.threads.bind fun td => td i

def cell (s : State V) (i : ℕ) : Cell V := s.results.elim .garbage fun cells => cells i

/-- A context was made for the thread, and `sd.threads[i].cx` points to it. -/
def hasCx (s : State V) (i : ℕ) : Bool := (s.datum i).any fun d => d.cx

/-- The code relies on a condition here. -/
@[simp] def need (s : State V) (b : Bool) : State V := { s with fault := s.fault || !b }

@[simp] def goto (s : State V) (pc : Pc) : State V := { s with pc := pc }

/-- The label `fail`. -/
@[simp] def fail (s : State V) : State V := { s with ok := false, pc := .out }

@[simp] def addRoot (s : State V) (r : Root) : State V :=
  { s with roots := Function.update s.roots r true }

@[simp] def removeRoot (s : State V) (r : Root) : State V :=
  { s.need (s.roots r) with roots := Function.update s.roots r false }

@[simp] def setResult (s : State V) (i : ℕ) (c : Cell V) : State V :=
  { s.need s.results.isSome with
    results := s.results.map fun cells => Function.update cells i c }

@[simp] def setDatum (s : State V) (i : ℕ) (d : ThreadData V) : State V :=
  { s.need s.threads.isSome with
    threads := s.threads.map fun td => Function.update td i (some d) }

@[simp] def setPhase (s : State V) (i : ℕ) (p : Phase) : State V :=
  { s with phase := Function.update s.phase i p }

@[simp] def setContext (s : State V) (i : ℕ) (c : Context) : State V :=
  { s with contexts := Function.update s.contexts i c }

/-- `JS_CallFunctionValue` is entered. -/
@[simp] def call (s : State V) (i : ℕ) : State V :=
  { s.need ((s.datum i).any fun d => d.fn.isSome) with
    called := Function.update s.called i (s.called i + 1) }

/-- `JS_CallFunctionValue` has returned, and the rest of `DoScatteredWork`. -/
@[simp] def work (s : State V) (i : ℕ) (r : Reply V) : State V :=
  { s.setResult i r.rval with reply := Function.update s.reply i (some r) }

/-- `PR_NotifyAllCondVar`. -/
@[simp] def notifyAll (s : State V) : State V :=
  { s with phase := fun j => if s.phase j = .sleeping then .waking else s.phase j }

/-- A created thread can use what it shares with the others. -/
def shared (s : State V) (i : ℕ) : Bool :=
  s.lock && s.cvar && s.results.isSome && (s.datum i).isSome

end State

def Phase.isExited : Phase → Bool
  | .exited _ => true
  | _ => false

/-- The next step of `Scatter` for an array of `n` functions. -/
def mainStep (n : ℕ) (s : State V) (r : Reply V) : Option (State V) :=
  match s.pc with
  | .start => some (if r.ok then s.goto (if n = 0 then .newArray else .newLock) else s.fail)
  | .newLock => some (if r.ok then { s with lock := true, pc := .newCvar } else s.fail)
  | .newCvar => some (if r.ok then { s with cvar := true, pc := .mallocResults } else s.fail)
  | .mallocResults =>
    some (if r.ok then { s with results := some fun _ => .garbage, pc := .rootResult 0 }
      else s.fail)
  | .rootResult i =>
    some (if i < n then
        if r.ok then ((s.setResult i .void).addRoot (.result i)).goto (.rootResult (i + 1))
        else (s.setResult i .void).goto (.unrootResult i)
      else s.goto .mallocThreads)
  | .unrootResult 0 => some { s with results := none, ok := false, pc := .out }
  | .unrootResult (i + 1) => some ((s.removeRoot (.result i)).goto (.unrootResult i))
  | .mallocThreads =>
    some (if r.ok then { s with threads := some fun _ => none, pc := .rootFn 0 } else s.fail)
  | .rootFn i =>
    some (if i < n then
        if r.ok then
          ((s.setDatum i ⟨false, false, none⟩).addRoot (.fn i)).goto (.getElement i)
        else (s.setDatum i ⟨false, false, none⟩).goto (.unrootFn i)
      else s.goto (.newContext 1))
  | .getElement i =>
    match r with
    | .done v => some ((s.setDatum i ⟨false, false, some v⟩).goto (.rootFn (i + 1)))
    | .failed _ => some ((s.removeRoot (.fn i)).goto (.unrootFn i))
  | .unrootFn 0 => some { s with threads := none, ok := false, pc := .out }
  | .unrootFn (i + 1) => some ((s.removeRoot (.fn i)).goto (.unrootFn i))
  | .newContext i =>
    some (if i < n then
        if r.ok then
          match s.datum i with
          | some d =>
            ((s.setContext i .idle).setDatum i { d with cx := true }).goto (.newContext (i + 1))
          | none => (s.need false).goto (.newContext (i + 1))
        else s.fail
      else s.goto (.createThread 1))
  | .createThread i =>
    some (if i < n then
        if r.ok then
          match s.datum i with
          | some d =>
            ((s.setPhase i .started).setDatum i { d with thr := true }).goto (.createThread (i + 1))
          | none => (s.need false).goto (.createThread (i + 1))
        else s.goto (.lockFor .cancel i)
      else s.goto (.lockFor .go i))
  | .lockFor st i =>
    if s.owner = none then some { s.need s.lock with owner := some 0, pc := .notify st i }
    else none
  | .notify st i =>
    some { (s.need (s.cvar && s.owner = some 0)).notifyAll with
      status := st, pc := .unlockFor st i }
  | .unlockFor st i =>
    some { s.need (s.owner = some 0) with
      owner := none, pc := if st = Status.cancel then .joinBack i else .callOwn }
  | .joinBack i =>
    if 1 < i then
      if (s.phase (i - 1)).isExited then
        some ((s.need ((s.datum (i - 1)).any fun d => d.thr)).goto (.joinBack (i - 1)))
      else none
    else some s.fail
  | .callOwn => some ((s.call 0).goto .ownRunning)
  | .ownRunning => some ((s.work 0 r).goto (.join 1))
  | .join i =>
    if i < n then
      if (s.phase i).isExited then
        some ((s.need ((s.datum i).any fun d => d.thr)).goto (.join (i + 1)))
      else none
    else some (s.goto .newArray)
  | .newArray =>
    some (if r.ok then
        { s.need (n = 0 || s.results.isSome) with
          vp := some ((List.range n).map s.cell), ok := true, pc := .out }
      else s.fail)
  | .out => some (s.goto (if s.threads.isSome then .outFn 0 else .outResults))
  | .outFn i =>
    some (if i < n then
        if s.hasCx i then
          (((s.removeRoot (.fn i)).need (s.contexts i = .idle)).setContext i .gone).goto
            (.outFn (i + 1))
        else ((s.removeRoot (.fn i)).need (s.datum i).isSome).goto (.outFn (i + 1))
      else { s with threads := none, pc := .outResults })
  | .outResults => some (s.goto (if s.results.isSome then .outResult 0 else .outCvar))
  | .outResult i =>
    some (if i < n then (s.removeRoot (.result i)).goto (.outResult (i + 1))
      else { s with results := none, pc := .outCvar })
  | .outCvar => some { s with cvar := false, pc := .outLock }
  | .outLock => some { s with lock := false, pc := .returned }
  | .returned => none

/-- The next step of `RunScatterThread` in the thread of index `i`. -/
def workerStep (s : State V) (i : ℕ) (r : Reply V) : Option (State V) :=
  match s.phase i with
  | .absent => none
  | .started => some (s.setPhase i (if r.ok then .locking else .exited .unstarted))
  | .locking | .waking =>
    if s.owner = none then
      some ({ s.need (s.shared i) with owner := some i }.setPhase i .testing)
    else none
  | .testing =>
    some ((s.need (s.shared i && s.owner = some i)).setPhase i
      (if s.status = .wait then .entering else .unlocking s.status))
  | .entering =>
    some ({ s.need (s.shared i && s.owner = some i) with owner := none }.setPhase i .sleeping)
  | .sleeping => none
  | .unlocking st =>
    some ({ s.need (s.shared i && s.owner = some i) with owner := none }.setPhase i
      (if st = Status.cancel then .exited .cancelled else .ready))
  | .ready =>
    some ((((s.need (s.shared i && s.contexts i = .idle)).setContext i .held).call i).setPhase i
      .running)
  | .running => some (((s.need (s.shared i)).work i r).setPhase i .leaving)
  | .leaving =>
    some (((s.need (s.shared i && s.contexts i = .held)).setContext i .idle).setPhase i
      (.exited .finished))
  | .exited _ => none

/-- Who moves: the thread that called `scatter`, the created thread of an index, or nobody, when
`PR_WaitCondVar` returns in a thread that was not notified. -/
inductive Move (V : Type*) where
  | main (r : Reply V)
  | worker (i : ℕ) (r : Reply V)
  | spurious (i : ℕ)

def step (n : ℕ) (s : State V) : Move V → Option (State V)
  | .main r => mainStep n s r
  | .worker i r => workerStep s i r
  | .spurious i => if s.phase i = .sleeping then some (s.setPhase i .waking) else none

end Sysjs.Scatter
