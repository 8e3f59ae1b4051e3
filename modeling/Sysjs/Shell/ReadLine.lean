import Sysjs.Shell.Input

/-!
# `readline`

`ReadLine` reads a line for a script, through the engine's `js_fgets` into a buffer that doubles.
-/

set_option autoImplicit false

namespace Sysjs.ReadLine

open Chunks Input

/-- What a call of `readline` returns: an exception, `null`, or a string. -/
inductive Answer where
  | exception
  | null
  | string (text : List UInt8)
  deriving DecidableEq, Repr

/-- What is left of a call: its answer, whether every access was inside the buffer, and the file. -/
structure Reply where
  answer : Answer
  safe : Bool
  file : File

/-- What the engine answers to the requests of a call: whether it grants a block of a size, what
memory holds, whether it makes the string. -/
structure Grants where
  granted : ℕ → Bool
  heap : ℕ → ℤ → UInt8
  shrunk : Bool
  made : Bool

/-- How the loop is left: by a `return`, or with the buffer. -/
inductive Left where
  | failed (safe : Bool) (file : File)
  | ended (buf : Block UInt8) (buflength : ℕ) (sawNewline : Bool) (file : File)

/-- `js_fgets(buf, size, from)` as the engine has it: the bytes that it takes from those to come. -/
abbrev Fgets := ℕ → List UInt8 → List UInt8

/-- The loop of `ReadLine`. -/
def readLoop (jsFgets : Fgets) (granted : ℕ → Bool) :
    ℕ → Block UInt8 → ℕ → File → Option Left
  | 0, _, _, _ => none
  | fuel + 1, buf, buflength, file =>
    let data := jsFgets (buf.size - buflength) file.bytes
    let buf := put buf buflength data
    let file := { file with bytes := file.bytes.drop data.length }
    if data.length = 0 then some (.ended buf buflength false file)
    else
      let buflength := buflength + data.length
      let last : ℤ := buflength - 1
      let buf := buf.touch last 1
      if buf.cells last = 10 then some (.ended (buf.store last 0) buflength true file)
      else if buflength < buf.size - 1 then some (.ended buf buflength false file)
      else if granted (buf.size * 2) then
        readLoop jsFgets granted fuel (buf.realloc (buf.size * 2)) buflength file
      else some (.failed buf.safe file)

/-- What `ReadLine` makes of the buffer. -/
def finish (o : Grants) (buf : Block UInt8) (buflength : ℕ) (sawNewline : Bool) (file : File) :
    Reply :=
  if buflength = 0 then
    { answer := if file.broken then .string [] else .null, safe := buf.safe, file := file }
  else if o.shrunk ∧ o.made then
    let buf := buf.realloc buflength
    let length := if sawNewline then buflength - 1 else buflength
    let buf := buf.touch 0 length
    { answer := .string (buf.slice 0 length), safe := buf.safe, file := file }
  else { answer := .exception, safe := buf.safe, file := file }

/-- `ReadLine`; each round but the last takes a byte. -/
def readLine (jsFgets : Fgets) (o : Grants) (file : File) : Option Reply :=
  if o.granted 256 then
    (readLoop jsFgets o.granted (file.bytes.length + 1) (.malloc 256 o.heap) 0 file).map fun
      | .failed safe file => { answer := .exception, safe := safe, file := file }
      | .ended buf buflength sawNewline file => finish o buf buflength sawNewline file
  else some { answer := .exception, safe := true, file := file }

/-- Calls one after the other. -/
def readLines (jsFgets : Fgets) : List Grants → File → Option (List Answer × Bool × File)
  | [], file => some ([], true, file)
  | o :: calls, file =>
    (readLine jsFgets o file).bind fun r =>
      (readLines jsFgets calls r.file).map fun (answers, safe, file) =>
        (r.answer :: answers, r.safe && safe, file)

/-- The answers that belong to a stream: each string is the line that comes next, and there is
none at the end, where a broken stream gives the empty string.  A call that fails loses some of the
stream. -/
inductive Lines (broken : Bool) : List UInt8 → List Answer → List UInt8 → Prop where
  | none (stream : List UInt8) : Lines broken stream [] stream
  | ended {answers : List Answer} {rest : List UInt8} (later : Lines broken [] answers rest) :
      Lines broken [] ((if broken then .string [] else .null) :: answers) rest
  | string {stream behind rest l : List UInt8} {answers : List Answer} (some_left : stream ≠ [])
      (first : firstLine isNl stream = (l, behind)) (later : Lines broken behind answers rest) :
      Lines broken stream (.string l :: answers) rest
  | exception {stream behind rest : List UInt8} {answers : List Answer} (lost : behind <:+ stream)
      (later : Lines broken behind answers rest) : Lines broken stream (.exception :: answers) rest

/-- Nothing is refused. -/
def Grants.Granted (o : Grants) : Prop :=
  (∀ n, o.granted n = true) ∧ o.shrunk = true ∧ o.made = true

/-- What is relied on of `js_fgets`: on a text without carriage returns it takes what `fgets` would
take. -/
def Conforms (jsFgets : Fgets) : Prop :=
  ∀ n bytes, (∀ x ∈ bytes, isCr x = false) → jsFgets n bytes = chunk isNl (n - 1) bytes

/-- How the loop is left when `stream` was to come: memory ran out, or the buffer holds the first
line, with or without its newline. -/
inductive Leaves (granted : ℕ → Bool) (stream : List UInt8) : Left → Prop where
  | failed {file : File} (refused : ∃ n, granted n = false) (lost : file.bytes <:+ stream) :
      Leaves granted stream (.failed true file)
  | line {buf : Block UInt8} {l : List UInt8} {file : File} (some_left : stream ≠ [])
      (first : firstLine isNl stream = (l, file.bytes)) (held : buf.slice 0 l.length = l)
      (room : l.length + 1 ≤ buf.size) (safe : buf.safe = true) :
      Leaves granted stream (.ended buf (l.length + 1) true file)
  | rest {buf : Block UInt8} {file : File} (first : firstLine isNl stream = (stream, []))
      (nothing : file.bytes = []) (held : buf.slice 0 stream.length = stream)
      (room : stream.length ≤ buf.size) (safe : buf.safe = true) :
      Leaves granted stream (.ended buf stream.length false file)

/-- The file when the loop is left. -/
def Left.file : Left → File
  | .failed _ file => file
  | .ended _ _ _ file => file

theorem readLoop_leaves {jsFgets : Fgets} (reads : Conforms jsFgets) (granted : ℕ → Bool)
    {fuel : ℕ} {buf : Block UInt8} {len : ℕ} {got : List UInt8} {file : File}
    (f : Filling buf len got) (own : ∀ x ∈ got, isNl x = false)
    (clear : ∀ x ∈ file.bytes, isCr x = false) (enough : file.bytes.length < fuel) :
    ∃ left, readLoop jsFgets granted fuel buf len file = some left ∧
      Leaves granted (got ++ file.bytes) left ∧ left.file.broken = file.broken := by
  induction fuel generalizing buf len got file with
  | zero => omega
  | succ fuel ih =>
    have room := f.room
    have length := f.length
    have read := reads (buf.size - len) file.bytes clear
    rcases chunk_cases isNl (show 0 < buf.size - len - 1 by omega) file.bytes with
      ⟨front, c, rest, split, before, here, short, taken⟩ |
      ⟨data, rest, split, before, some_data, short, full, taken⟩ | ⟨nothing, taken⟩
    · obtain rfl := eq_newline here
      rw [taken] at read
      have fits : front.length + 1 < buf.size - len := by omega
      obtain ⟨newline, looked, safe, held⟩ := f.line fits
      have all : (got ++ front).length = len + front.length := by rw [List.length_append, length]
      have place : ((len + (front.length + 1) : ℕ) : ℤ) - 1 = (len + front.length : ℕ) := by omega
      simp only [readLoop, read, List.length_append, List.length_singleton, Nat.add_one_ne_zero,
        if_false, place, Block.touch_cells, newline, if_true]
      refine ⟨_, rfl, ?_, rfl⟩
      have line : firstLine isNl (got ++ file.bytes) = (got ++ front, rest) := by
        rw [split, ← List.append_assoc]
        exact firstLine_of_hit rest (fun x hx => (List.mem_append.1 hx).elim (own x) (before x)) rfl
      have behind : file.bytes.drop (front.length + 1) = rest := by
        rw [split]
        simp
      rw [behind, ← Nat.add_assoc, ← all]
      refine .line (by simp [split]) line ?_ ?_ (by rwa [all])
      · rw [all, held]
      · rw [all, Block.store_size, Block.touch_size, (f.put _).1]
        omega
    · rw [taken] at read
      have pos := List.length_pos_iff.2 some_data
      obtain ⟨inside, last⟩ := f.last data some_data (by omega)
      have open_end : (put buf len data).cells ((len + data.length : ℕ) - 1) ≠ 10 := by
        intro newline
        rw [newline] at last
        exact absurd (before 10 last) (by decide)
      have behind : file.bytes.drop data.length = rest := by rw [split, List.drop_left]
      have own' : ∀ x ∈ got ++ data, isNl x = false :=
        fun x hx => (List.mem_append.1 hx).elim (own x) (before x)
      simp only [readLoop, read, if_neg pos.ne', Block.touch_cells, if_neg open_end,
        Block.touch_size, (f.put data).1, behind]
      by_cases whole : data.length = buf.size - len - 1
      · rw [if_neg (by omega)]
        by_cases allowed : granted (buf.size * 2) = true
        · rw [if_pos allowed, split, ← List.append_assoc]
          rw [split, List.length_append] at enough
          refine ih (f.doubled some_data (by omega)) own' (fun x hx => clear x ?_) ?_
          · rw [split]
            exact List.mem_append_right _ hx
          · dsimp only
            omega
        · rw [if_neg allowed, inside]
          refine ⟨_, rfl, .failed ⟨_, by simpa using allowed⟩ ?_, rfl⟩
          rw [split, ← List.append_assoc]
          exact List.suffix_append _ _
      · obtain rfl := full.resolve_left whole
        rw [if_pos (by omega)]
        have next := f.next some_data (by omega)
        have stream : got ++ file.bytes = got ++ data := by rw [split, List.append_nil]
        have count : (got ++ data).length = len + data.length := by
          rw [List.length_append, length]
        refine ⟨_, rfl, ?_, rfl⟩
        rw [stream, ← count]
        refine .rest (firstLine_of_end own') rfl ?_ ?_ (by rwa [count])
        · rw [count, next.held]
        · rw [count]
          exact Nat.le_of_succ_le next.room.le
    · rw [taken] at read
      obtain ⟨size, safe, whole, -, -⟩ := f.put []
      simp only [readLoop, read, List.length_nil, if_true]
      refine ⟨_, rfl, ?_, rfl⟩
      rw [nothing, List.append_nil, ← length]
      refine .rest (firstLine_of_end own) ?_ ?_ ?_ (by rwa [length])
      · simp
      · rw [length]
        simpa using whole
      · rw [length, size]
        omega

/-- What is made of a buffer that holds `l`: that string, unless the engine refuses. -/
theorem finish_string (o : Grants) {buf : Block UInt8} {l : List UInt8} {n : ℕ} (saw : Bool)
    (file : File) (pos : n ≠ 0) (length : (if saw then n - 1 else n) = l.length)
    (held : buf.slice 0 l.length = l) (room : n ≤ buf.size) (safe : buf.safe = true) :
    (finish o buf n saw file).safe = true ∧ (finish o buf n saw file).file = file ∧
      ((finish o buf n saw file).answer = .string l ∨
        (finish o buf n saw file).answer = .exception ∧ ¬ (o.shrunk = true ∧ o.made = true)) := by
  have short : l.length ≤ n := by
    rw [← length]
    split <;> omega
  unfold finish
  rw [if_neg pos]
  split
  · refine ⟨?_, rfl, Or.inl ?_⟩
    · rw [Block.touch_safe, length]
      exact ⟨safe, Block.inside_of_le le_rfl (by rw [Block.realloc_size]; omega)⟩
    · dsimp only
      rw [length, Block.slice_touch]
      refine congrArg Answer.string (Eq.trans ?_ held)
      exact Block.slice_eq_of_cells fun i hi =>
        Block.realloc_cells _ (by omega) (by omega) (by omega)
  · next refused => exact ⟨safe, rfl, Or.inr ⟨rfl, refused⟩⟩

/-- What a call makes of a stream: a reply that belongs to it, an exception only when something is
refused. -/
structure Serves (o : Grants) (file : File) (r : Reply) : Prop where
  safe : r.safe = true
  broken : r.file.broken = file.broken
  suffix : r.file.bytes <:+ file.bytes
  granted : o.Granted → r.answer ≠ .exception
  lines : ∀ answers rest, Lines file.broken r.file.bytes answers rest →
    Lines file.broken file.bytes (r.answer :: answers) rest

/-- A buffer with the first line serves the stream. -/
theorem serves_of_held (o : Grants) {buf : Block UInt8} {l : List UInt8} {n : ℕ} (saw : Bool)
    {file behind : File} (pos : n ≠ 0) (length : (if saw then n - 1 else n) = l.length)
    (held : buf.slice 0 l.length = l) (room : n ≤ buf.size) (safe : buf.safe = true)
    (broken : behind.broken = file.broken) (some_left : file.bytes ≠ [])
    (first : firstLine isNl file.bytes = (l, behind.bytes)) :
    Serves o file (finish o buf n saw behind) := by
  have suffix := (firstLine_parts isNl file.bytes).2
  rw [first] at suffix
  obtain ⟨kept, same, answer⟩ := finish_string o saw behind pos length held room safe
  refine ⟨kept, by rwa [same], by rwa [same], fun all => ?_, fun answers rest later => ?_⟩
  · rcases answer with string | ⟨-, refused⟩
    · rw [string]
      exact nofun
    · exact absurd all.2 refused
  · rw [same] at later
    rcases answer with string | ⟨exception, -⟩
    · rw [string]
      exact .string some_left first later
    · rw [exception]
      exact .exception suffix later

theorem readLine_serves {jsFgets : Fgets} (reads : Conforms jsFgets) (o : Grants) {file : File}
    (clear : ∀ x ∈ file.bytes, isCr x = false) :
    ∃ r, readLine jsFgets o file = some r ∧ Serves o file r := by
  unfold readLine
  split
  · have start : Filling (Block.malloc 256 o.heap) 0 [] :=
      ⟨rfl, by simp [Block.malloc], fun pos => absurd pos (Nat.lt_irrefl 0), rfl⟩
    obtain ⟨left, loop, leaves, broken⟩ :=
      readLoop_leaves reads o.granted start (fun _ hx => absurd hx List.not_mem_nil) clear
        (Nat.lt_succ_self _)
    rw [loop, Option.map_some]
    refine ⟨_, rfl, ?_⟩
    rw [List.nil_append] at leaves
    cases leaves with
    | failed refused lost =>
      refine ⟨rfl, broken, lost, fun all _ => ?_, fun _ _ later => .exception lost later⟩
      obtain ⟨n, refused⟩ := refused
      rw [all.1 n] at refused
      cases refused
    | line some_left first held room safe =>
      exact serves_of_held o true (Nat.succ_ne_zero _) rfl held room safe broken some_left first
    | rest first nothing held room safe =>
      by_cases some_left : file.bytes = []
      · simp only [finish, some_left, List.length_nil, if_true]
        refine ⟨safe, broken, ?_, fun _ => ?_, fun answers rest later => ?_⟩
        · rw [nothing]
          exact List.nil_suffix
        · dsimp only
          split
          all_goals
            intro same
            cases same
        · dsimp only [Left.file] at later broken
          rw [nothing] at later
          rw [some_left, broken]
          exact .ended later
      · have pos : file.bytes.length ≠ 0 := mt List.length_eq_zero_iff.1 some_left
        refine serves_of_held o false pos rfl held room safe broken some_left ?_
        rw [nothing]
        exact first
  · next refused =>
    refine ⟨_, rfl, rfl, rfl, List.suffix_refl _, fun all => absurd (all.1 256) refused, ?_⟩
    exact fun _ _ later => .exception (List.suffix_refl _) later

/-- Any number of calls of `readline` on an input without carriage returns return its lines one
after the other, with NULs and however long they are, and then `null`, or the empty string if
reading fails; only a call that is refused memory loses something. -/
theorem readline_returns_lines (jsFgets : Fgets) (reads : Conforms jsFgets) (calls : List Grants)
    (file : File) (clear : ∀ x ∈ file.bytes, isCr x = false) :
    ∃ answers rest, readLines jsFgets calls file = some (answers, true, rest) ∧
      Lines file.broken file.bytes answers rest.bytes ∧
      ((∀ o ∈ calls, o.Granted) → .exception ∉ answers) := by
  induction calls generalizing file with
  | nil => exact ⟨[], file, rfl, .none _, fun _ => nofun⟩
  | cons o calls ih =>
    obtain ⟨r, call, serves⟩ := readLine_serves reads o clear
    obtain ⟨answers, rest, run, lines, granted⟩ :=
      ih r.file fun x hx => clear x (serves.suffix.subset hx)
    refine ⟨r.answer :: answers, rest, ?_, ?_, fun all => ?_⟩
    · simp only [readLines, call, Option.bind_some, run, Option.map_some, serves.safe,
        Bool.and_self]
    · rw [serves.broken] at lines
      exact serves.lines answers rest.bytes lines
    · obtain ⟨here, later⟩ := List.forall_mem_cons.1 all
      rw [List.mem_cons, not_or]
      exact ⟨(serves.granted here).symm, granted later⟩

/-- `fgets` itself. -/
def plainFgets : Fgets := fun n bytes => chunk isNl (n - 1) bytes

def grantAll : Grants where
  granted _ := true
  heap _ _ := 0
  shrunk := true
  made := true

theorem readline_returns_lines_three :
    ∃ answers rest, readLines plainFgets (List.replicate 4 grantAll) ⟨[97, 10, 10, 98], false⟩ =
        some (answers, true, rest) ∧ Lines false [97, 10, 10, 98] answers rest.bytes ∧
      ((∀ o ∈ List.replicate 4 grantAll, o.Granted) → .exception ∉ answers) :=
  readline_returns_lines plainFgets (fun _ _ _ => rfl) _ ⟨[97, 10, 10, 98], false⟩ (by simp [isCr])

example : (readLines plainFgets (List.replicate 4 grantAll) ⟨[97, 10, 10, 98], false⟩).map
    Prod.fst = some [.string [97], .string [], .string [98], .null] := by
  rfl

end Sysjs.ReadLine
