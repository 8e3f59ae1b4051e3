import Sysjs.Foundation.Runs
import Sysjs.Socket.Lifecycle
import Sysjs.Socket.Packets
import Sysjs.Socket.ReadBytes
import Sysjs.Socket.ReadLine

/-!
# Calls of the methods of one Socket

A call is a method with its arguments and the answers of the system calls it makes.  A run is a
list of calls on a Socket that was just constructed.
-/

set_option autoImplicit false

namespace Sysjs

open Feed Runs

variable {α : Type*}

/-- The four methods that take bytes from the stream. -/
inductive Reader (α : Type*) where
  | read
  | readBytes (n : ℤ)
  | readWsPacket
  | readEatonPacket (stack : ℕ → ℤ → α)

/-- The calls on one Socket. -/
inductive Op (α : Type*) where
  | connect (host : Option (Resolve α))
  | bind (argv : List Jsval) (found : Resolve α) (listens : Bool)
  | accept (answer : Option (ℤ × List α)) (newId : ℕ) (heap : ℕ → ℤ → α)
  | close
  | write (argv : List (List UInt16)) (answers : List Answer)
  | writeWsPacket (argv : List (List UInt16)) (answers : List Answer)
  | reader (r : Reader α) (answers : List Answer)

/-- A Socket that was just constructed, in a system with the descriptors of `k`. -/
def St.start (heap : ℕ → ℤ → α) (argv : List Jsval) (k : Kernel α) : St α where
  obj := jsSockConstruct heap argv
  kernel := k
  requests := []

/-- A system in which one descriptor is open, a stream that will deliver `bytes`. -/
def Kernel.stream (fd : ℕ) (bytes : List α) : Kernel α where
  fds n := if n = fd then some { kind := .connected, ours := false, pending := bytes, sent := [] }
    else none
  stray := 0

/-- The buffer is as it was. -/
structure SameBuffer (o o' : SockObj α) : Prop where
  readBuffer : o'.readBuffer = o.readBuffer
  bufferSize : o'.bufferSize = o.bufferSize
  bufferPos : o'.bufferPos = o.bufferPos

theorem SameBuffer.fits {o o' : SockObj α} (same : SameBuffer o o') (fits : o.Fits) : o'.Fits := by
  refine ⟨?_, ?_, ?_⟩
  · rw [same.bufferPos]
    exact fits.low
  · rw [same.bufferPos, same.bufferSize]
    exact fits.high
  · rw [same.readBuffer, same.bufferSize]
    exact fits.block

/-! ### Calls that leave the buffer alone -/

theorem connect_sameBuffer {s s' : St α} {host : Option (Resolve α)} {r : Ret α}
    (h : jsSockConnect s host = some (r, s')) : SameBuffer s.obj s'.obj := by
  have step := jsSockConnect_spec h
  cases step with
  | arguments => exact ⟨rfl, rfl, rfl⟩
  | unresolved =>
    rw [closeOld_obj]
    exact ⟨rfl, rfl, rfl⟩
  | noAddress attempts works =>
    rw [St.suspend_obj, closeOld_obj]
    exact ⟨rfl, rfl, rfl⟩
  | connected attempts works fd stream chosen low fresh => exact ⟨rfl, rfl, rfl⟩

theorem bind_sameBuffer {s s' : St α} {argv : List Jsval} {found : Resolve α} {listens : Bool}
    {r : Ret α} (h : jsSockBind s argv found listens = some (r, s')) :
    SameBuffer s.obj s'.obj := by
  have step := jsSockBind_spec h
  cases step with
  | rejected argv found listens format works => exact ⟨rfl, rfl, rfl⟩
  | leaked port attempts works fd low fresh => exact ⟨rfl, rfl, rfl⟩
  | listening port attempts works fd low fresh => exact ⟨rfl, rfl, rfl⟩

theorem writeStep_sameBuffer {s s' : St α} {r : Ret α} (step : WriteStep s r s') :
    SameBuffer s.obj s'.obj := by
  cases step with
  | arguments => exact ⟨rfl, rfl, rfl⟩
  | wrote r k same => exact ⟨rfl, rfl, rfl⟩

theorem eatonStep_sameBuffer {s s' : St α} {r : Ret α} (step : EatonStep s r s') :
    SameBuffer s.obj s'.obj := by
  cases step with
  | error format k less => exact ⟨rfl, rfl, rfl⟩
  | packet elems k less => exact ⟨rfl, rfl, rfl⟩

variable [Octet α]

/-- A call of one of the readers. -/
def Reader.call (s : St α) (e : Reader α × List Answer) : Option (Ret α × St α) :=
  match e.1 with
  | .read => jsSockRead s e.2
  | .readBytes n => jsSockReadBytes s [n] e.2
  | .readWsPacket => jsSockReadWsPacket s e.2
  | .readEatonPacket stack => jsSockReadEatonPacket s stack e.2

/-- A call of one of the methods; the object that `accept` makes is another Socket. -/
def Op.call (s : St α) : Op α → Option (Ret α × St α)
  | .connect host => jsSockConnect s host
  | .bind argv found listens => jsSockBind s argv found listens
  | .accept answer newId heap => (jsSockAccept s answer newId heap).map fun r => (r.1, r.2.1)
  | .close => some (jsSockClose s)
  | .write argv answers => jsSockSend s argv answers
  | .writeWsPacket argv answers => jsSockWriteWsPacket s argv answers
  | .reader r answers => Reader.call s (r, answers)

/-- A new Socket on a descriptor that has `bytes` to deliver. -/
def St.opened (fd : ℕ) (bytes : List UInt8) : St UInt8 :=
  .start (fun _ _ => 0) [.int fd] (.stream fd bytes)

theorem opened_fits (fd : ℕ) (bytes : List UInt8) : (St.opened fd bytes).obj.Fits :=
  jsSockConstruct_fits (fun _ _ => 0) [.int fd]

/-- A Socket that has returned the line "a" and keeps what came with it; the descriptor has `later`
to deliver. -/
def St.holding (kept later : List UInt8) : St UInt8 :=
  final Reader.call (.opened 5 (97 :: 10 :: (kept ++ later))) [(.read, [.upTo (kept.length + 2)])]

/-- The states that some run reaches. -/
def St.Reachable (s : St α) : Prop :=
  ∃ heap argv k calls, s = final Op.call (St.start heap argv k) calls

/-- The calls that work on the read buffer. -/
def Op.TouchesBuffer : Op α → Prop
  | .reader (.readEatonPacket _) _ => False
  | .reader _ _ => True
  | _ => False

/-- Every other call leaves the buffer as it was. -/
theorem call_sameBuffer {s s' : St α} {op : Op α} {r : Ret α} (other : ¬ op.TouchesBuffer)
    (h : op.call s = some (r, s')) : SameBuffer s.obj s'.obj := by
  cases op with
  | connect host => exact connect_sameBuffer h
  | bind argv found listens => exact bind_sameBuffer h
  | accept answer newId heap =>
    obtain ⟨⟨r', t, made⟩, accepted, eq⟩ := Option.map_eq_some_iff.1 h
    cases eq
    have step := jsSockAccept_spec accepted
    cases step with
    | failed => exact ⟨rfl, rfl, rfl⟩
    | accepted fd stream low fresh listening => exact ⟨rfl, rfl, rfl⟩
  | close =>
    cases h
    exact ⟨rfl, rfl, rfl⟩
  | write argv answers => exact writeStep_sameBuffer (jsSockSend_spec h)
  | writeWsPacket argv answers => exact writeStep_sameBuffer (jsSockWriteWsPacket_spec h)
  | reader reader answers =>
    cases reader with
    | readEatonPacket stack =>
      exact eatonStep_sameBuffer (s := s.suspend) (jsSockReadEatonPacket_spec h)
    | read => exact absurd trivial other
    | readBytes n => exact absurd trivial other
    | readWsPacket => exact absurd trivial other

end Sysjs
