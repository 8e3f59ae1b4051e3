import Sysjs.Foundation.Delimited
import Sysjs.Foundation.Interleaving
import Sysjs.Socket.Framing

/-!
# Two scripts on one connection

Two processes hold the ends of a connection and exchange strings with `write_ws_packet` and
`read_ws_packet`.  The system carries the bytes in pieces of any size; a `read` waits until there
are some, or until the other process is gone and all it wrote has been read.
-/

set_option autoImplicit false

namespace Sysjs

open Feed

/-- How `read_ws_packet` returns once its loop is left. -/
def WsExit.finish {α : Type*} [Octet α] : WsExit α → Ret α × St α
  | .failed s => (.error "read failed: %s", s)
  | .stopped s total =>
    let b := s.obj.readBuffer.store total nul
    let text := cString b
    (.done (.string text), s.resume.withBuffer (b.touch 0 (text.length + 1)))

theorem jsSockReadWsPacket_eq {α : Type*} [Octet α] (s : St α) (answers : List Answer) :
    jsSockReadWsPacket s answers =
      (feed wsBody { st := s.suspend, synced := false, total := 0 } answers).map
        fun left => left.1.finish := by
  unfold jsSockReadWsPacket
  rcases feed wsBody { st := s.suspend, synced := false, total := 0 } answers with
    _ | ⟨⟨t⟩ | ⟨t, total⟩, rest⟩
  · rfl
  · rfl
  · rfl

namespace Channel

/-- One process: its Socket, the loop variables of the `read_ws_packet` it is in, how many of the
other's bytes have come, the strings it has written and read, and whether it has exited. -/
structure End where
  st : St UInt8
  reading : Option (Bool × ℕ)
  arrived : ℕ
  wrote : List (List UInt16)
  got : List (List UInt16)
  gone : Bool

/-- A process that was given the connection under the number `fd`. -/
def End.start (heap : ℕ → ℤ → UInt8) (fd : ℕ) : End where
  st := St.start heap [.int fd] (.stream fd [])
  reading := none
  arrived := 0
  wrote := []
  got := []
  gone := false

/-- The two ends. -/
abbrev Link := Bool → End

def Link.start (heap : Bool → ℕ → ℤ → UInt8) (fd : Bool → ℕ) : Link :=
  fun p => End.start (heap p) (fd p)

/-- What can happen next at the end `p`: a string is written; `read_ws_packet` is called; its
`read` comes back with a byte, or with the end of the stream; more bytes come in; the process
exits. -/
inductive Move where
  | write (p : Bool) (chars : List UInt16) (answers : List Answer)
  | call (p : Bool)
  | read (p : Bool) (a : Answer)
  | ended (p : Bool) (a : Answer)
  | deliver (p : Bool) (n : ℕ)
  | exit (p : Bool)

/-- The bytes of `snd` that have not come to `rcv` yet. -/
def flight (snd rcv : End) : List UInt8 := snd.st.sent.drop rcv.arrived

/-- The system has more bytes for the descriptor. -/
def deliver (s : St UInt8) (data : List UInt8) : St UInt8 :=
  match s.kernel.desc s.obj.sock with
  | some d => s.withKernel (s.kernel.set s.obj.sock (some { d with pending := d.pending ++ data }))
  | none => s

namespace End

/-- A string is written; a script sees no string written when the call fails. -/
def write (e : End) (chars : List UInt16) (answers : List Answer) : Option End :=
  match jsSockWriteWsPacket e.st [chars] answers with
  | none => none
  | some (.done _, t) => some { e with st := t, wrote := e.wrote ++ [chars] }
  | some (.error _, t) => some { e with st := t }

/-- `read_ws_packet` is called. -/
def called (e : End) : End := { e with st := e.st.suspend, reading := some (false, 0) }

/-- `read_ws_packet` has returned; the script sees no string when it has failed. -/
def returned (e : End) : Ret UInt8 × St UInt8 → End
  | (.done (.string text), t) => { e with st := t, reading := none, got := e.got ++ [ofBytes text] }
  | (_, t) => { e with st := t, reading := none }

/-- One round of the loop of `read_ws_packet`. -/
def round (e : End) (synced : Bool) (total : ℕ) (a : Answer) : End :=
  match wsBody { st := e.st, synced := synced, total := total } a with
  | .inr l => { e with st := l.st, reading := some (l.synced, l.total) }
  | .inl left => e.returned left.finish

/-- Rounds with nothing between them, until the loop is left. -/
def rounds (e : End) : List Answer → End
  | [] => e
  | a :: answers => match e.reading with
    | some (synced, total) => (e.round synced total a).rounds answers
    | none => e

@[simp] theorem returned_reading (e : End) (r : Ret UInt8 × St UInt8) :
    (e.returned r).reading = none := by
  unfold returned
  split <;> rfl

theorem rounds_of_feed (e : End) {l : WsLoop UInt8} {answers rest : List Answer}
    {left : WsExit UInt8} (h : feed wsBody l answers = some (left, rest)) :
    rounds { e with st := l.st, reading := some (l.synced, l.total) } answers =
      e.returned left.finish := by
  induction answers generalizing l with
  | nil => cases h
  | cons a answers ih =>
    simp only [rounds, round]
    cases body : wsBody l a with
    | inr l' =>
      rw [feed_cons_inr answers body] at h
      exact ih h
    | inl exit =>
      rw [feed_cons_inl answers body, Option.some.injEq, Prod.mk.injEq] at h
      obtain ⟨rfl, rfl⟩ := h
      have same : returned { e with st := l.st, reading := some (l.synced, l.total) } exit.finish =
          e.returned exit.finish := by
        unfold returned
        split <;> rfl
      simp only [same]
      cases answers with
      | nil => rfl
      | cons a' answers => simp only [rounds, returned_reading]

/-- Rounds with nothing between them are the method. -/
theorem rounds_eq_call (e : End) {answers : List Answer} {r : Ret UInt8 × St UInt8}
    (h : jsSockReadWsPacket e.st answers = some r) : e.called.rounds answers = e.returned r := by
  rw [jsSockReadWsPacket_eq] at h
  obtain ⟨⟨left, rest⟩, loop, rfl⟩ := Option.map_eq_some_iff.1 h
  exact rounds_of_feed e loop

end End

/-- One move, if it is possible. -/
def step (link : Link) : Move → Option Link
  | .write p chars answers =>
    if (link p).gone then none
    else ((link p).write chars answers).map fun e => Function.update link p e
  | .call p =>
    if (link p).gone ∨ (link p).reading.isSome then none
    else some (Function.update link p (link p).called)
  | .read p a => match (link p).reading with
    | some (synced, total) =>
      if (link p).gone ∨ (link p).st.pending = [] then none
      else some (Function.update link p ((link p).round synced total a))
    | none => none
  | .ended p a => match (link p).reading with
    | some (synced, total) =>
      if (link p).gone ∨ ¬ (link !p).gone ∨ (link p).st.pending ≠ [] ∨
        flight (link !p) (link p) ≠ [] then none
      else some (Function.update link p ((link p).round synced total a))
    | none => none
  | .deliver p n =>
    let data := (flight (link !p) (link p)).take (n + 1)
    if data = [] then none
    else some (Function.update link p
      { link p with
        st := deliver (link p).st data, arrived := (link p).arrived + data.length })
  | .exit p => some (Function.update link p { link p with gone := true })

/-- No call fails, and each packet is written whole. -/
def Move.Fair : Move → Prop
  | .write _ chars answers => CompleteWrites chars answers
  | .read _ a => a ≠ .fail
  | .ended _ a => a ≠ .fail
  | _ => True

end Channel

end Sysjs
