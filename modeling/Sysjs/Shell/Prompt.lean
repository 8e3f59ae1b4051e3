import Sysjs.Foundation.Interleaving
import Sysjs.Shell.Input

/-!
# The prompt

The interactive part of `Process`: lines are put together in one buffer until they make a unit that
compiles, which is then run; a script may read from the same input.
-/

set_option autoImplicit false

namespace Sysjs.Prompt

open Chunks Input Interleaving

/-- What is given to `JS_CompileScript`, and what the script itself reads from the input. -/
structure Script where
  text : List UInt8
  startline : ℕ
  eaten : List UInt8
  deriving DecidableEq, Repr

/-- Where `Process` is: at the head of the inner loop, behind it, at its end, or returned after an
error. -/
inductive Place where
  | reading
  | compiling
  | finished
  | failed
  deriving DecidableEq, Repr

/-- The variables of `Process` with `gQuitting`; whether the watchdog could not be scheduled; the
scripts so far, and whether every access was inside its buffer. -/
structure State where
  place : Place
  file : File
  buffer : Option (Block UInt8)
  len : ℕ
  size : ℕ
  lineno : ℕ
  startline : ℕ
  hitEOF : Bool
  quitting : Bool
  unwatched : Bool
  compiled : List Script
  safe : Bool

def State.init (file : File) : State where
  place := .reading
  file := file
  buffer := none
  len := 0
  size := 0
  lineno := 1
  startline := 1
  hitEOF := false
  quitting := false
  unwatched := false
  compiled := []
  safe := true

/-- A round of the inner loop, with what the allocator and `ScheduleWatchdog` answer; a script that
is compiled and run, with how much of the input it reads and whether it calls `quit`. -/
inductive Move where
  | line (grants : ℕ → Bool) (heap : ℕ → ℤ → UInt8) (room watched : Bool)
  | script (eaten : ℕ) (quits : Bool)

/-- `strcpy(b + p, line)`. -/
def strcpy (b : Block UInt8) (p : ℕ) (line : Block UInt8) : Block UInt8 :=
  let n := strlen line 0
  (b.touch p (n + 1)).blit p (line.slice 0 n ++ [0])

namespace State

/-- `free(buffer)` and out of the loops. -/
def leave (s : State) (place : Place) : State :=
  { s with place := place, buffer := none, safe := s.safe && s.buffer.all Block.safe }

/-- The line becomes the buffer or is put behind what it holds, `none` when there is no room. -/
def addLine (s : State) (line : Block UInt8) (room : Bool) : Option State :=
  let n := strlen line 0
  match s.buffer with
  | none => some { s with buffer := some line, len := n, size := n + 1 }
  | some buffer =>
    let newlen := n + if s.len ≠ 0 then s.len + 1 else 0
    let grow : Bool := s.size < newlen + 1
    let size := if s.size * 2 < newlen + 1 then newlen + 1 else s.size * 2
    if grow ∧ ¬ room then none
    else
      let buffer := if grow then buffer.realloc size else buffer
      let first : Bool := s.startline = s.lineno
      let buffer := if first then buffer else buffer.store s.len 10
      let current := if first then s.len else s.len + 1
      some
        { s with
          buffer := some (strcpy buffer current line)
          len := newlen
          size := if grow then size else s.size
          safe := s.safe && (line.touch 0 (n + 1)).safe }

/-- The first `len` bytes of the buffer. -/
def text (s : State) : List UInt8 := (s.buffer.map fun b => b.slice 0 s.len).getD []

/-- `JS_BufferIsCompilableUnit` and `JS_CompileScript` look at those bytes. -/
def examine (s : State) : State := { s with buffer := s.buffer.map fun b => b.touch 0 s.len }

/-- What follows `GetLine`. -/
def line (compilable : List UInt8 → Bool) (s : State) (g : Got) (room watched : Bool) : State :=
  let s := { s with file := g.file, safe := s.safe && g.safe }
  match g.line with
  | none =>
    if g.errno then s.leave .failed
    else
      let s := { s with hitEOF := true }
      if s.buffer.isNone then s.leave .finished else { s with place := .compiling }
  | some line =>
    match s.addLine line room with
    | none => s.leave .failed
    | some s =>
      let s := { s with lineno := s.lineno + 1 }
      if watched then
        let s := s.examine
        if compilable s.text then { s with place := .compiling } else s
      else { s with hitEOF := true, unwatched := true, place := .compiling }

/-- The script is compiled and run, the buffer emptied. -/
def script (s : State) (eaten : ℕ) (quits : Bool) : State :=
  let s := s.examine
  let unit : Script :=
    { text := s.text, startline := s.startline, eaten := s.file.bytes.take eaten }
  let s : State :=
    { s with
      compiled := s.compiled ++ [unit]
      file := { s.file with bytes := s.file.bytes.drop eaten }
      quitting := quits
      buffer := s.buffer.map fun b : Block UInt8 => b.store 0 0 }
  if s.hitEOF ∨ quits then s.leave .finished
  else { s with place := .reading, startline := s.lineno, len := 0 }

end State

/-- `compilable` is `JS_BufferIsCompilableUnit`. -/
def step (compilable : List UInt8 → Bool) (s : State) : Move → Option State
  | .line grants heap room watched =>
    if s.place = .reading then
      (getLine grants heap s.file).map fun g => s.line compilable g room watched
    else none
  | .script eaten quits => if s.place = .compiling then some (s.script eaten quits) else none

/-- Whatever the move asks the allocator for is granted. -/
def Move.Granted : Move → Prop
  | .line grants _ room _ => (∀ n, grants n = true) ∧ room = true
  | .script _ _ => True

/-- Every line end of the rows but the last one comes too early. -/
def Open (compilable : List UInt8 → Bool) (rows : List (List UInt8)) : Prop :=
  ∀ front, front ≠ [] → front <+: rows → front ≠ rows → compilable (joined 10 front) = false

/-- The scripts that a session at the prompt is made of: each is the shortest run of lines from
where the one before left the input that compiles, under the number of its first line.  `rest` is
left of the input, and the next line has the number `lineno`. -/
inductive Session (compilable : List UInt8 → Bool) (input : List UInt8) :
    List Script → List UInt8 → ℕ → Prop where
  | start : Session compilable input [] input 1
  | script {scripts : List Script} {stream eaten rest : List UInt8} {lineno : ℕ}
      {rows : List (List UInt8)} (before : Session compilable input scripts stream lineno)
      (some_row : rows ≠ []) (lines : Rows isNl stream rows (eaten ++ rest))
      (first : Open compilable rows) (whole : compilable (joined 10 rows) = true) :
      Session compilable input (scripts ++ [⟨joined 10 rows, lineno, eaten⟩]) rest
        (lineno + rows.length)

end Sysjs.Prompt
