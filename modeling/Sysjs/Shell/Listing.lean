import Sysjs.Shell.Input

/-!
# `dissrc`

`DisassWithSrc` shows the instructions of scripts, each script's under the lines of its source file.
-/

set_option autoImplicit false

namespace Sysjs.Listing

open Chunks Input

/-- What is read of a `JSScript`: its length, the line of an offset, and how long the instruction
at an offset is, `0` when it cannot be shown. -/
structure JSScript where
  length : ℕ
  jsPCToLineNumber : ℕ → ℕ
  jsDisassemble1 : ℕ → ℕ
  small : ∀ pc, jsPCToLineNumber pc < 2 ^ 32

/-- What is printed: a line of the source file, the two marks, and an instruction. -/
inductive Item where
  | source (n : ℕ) (text : List UInt8)
  | backup (n : ℕ)
  | restore (n : ℕ)
  | instr (pc : ℕ)
  deriving DecidableEq

/-- How a call fails: in `ValueToScript`, with one of its own messages, or in `js_Disassemble1`. -/
inductive Failure where
  | valueToScript
  | fileScriptsOnly
  | cantOpen
  | unexpectedEof
  | disassemble
  deriving DecidableEq

/-- The variables of the loop over a script, and what has been printed. -/
structure State where
  line1 : ℕ
  bupline : ℕ
  file : File
  out : List Item
  deriving DecidableEq

/-- An argument: its script, the script's `filename`, and the file that `fopen` finds. -/
structure Arg where
  script : Option JSScript
  filename : Option (List UInt8)
  file : Option File

/-- "burn the leading lines". -/
def burn : ℕ → File → File
  | 0, file => file
  | n + 1, file => burn n (fgets 512 file).2

/-- What `%s` prints of a buffer with these bytes. -/
def printed (data : List UInt8) : List UInt8 := data.takeWhile fun c => !isNul c

/-- `while (line1 < line2)`, for as many rounds as are left. -/
def showLines : ℕ → State → Option Failure × State
  | 0, s => (none, s)
  | k + 1, s => match fgets 512 s.file with
    | (none, rest) => (some .unexpectedEof, { s with file := rest })
    | (some linebuf, rest) => showLines k
        { s with
          line1 := s.line1 + 1, file := rest,
          out := s.out ++ [.source (s.line1 + 1) (printed linebuf)] }

/-- What is printed ahead of an instruction of the line `line2`. -/
def ahead (s : State) (line2 : ℕ) : Option Failure × State :=
  if line2 < s.line1 then
    if s.bupline ≠ line2 then
      (none, { s with bupline := line2, out := s.out ++ [.backup line2] })
    else (none, s)
  else
    let s' := if s.bupline ≠ 0 ∧ s.line1 = line2 then { s with out := s.out ++ [.restore line2] }
      else s
    showLines (line2 - s.line1) { s' with bupline := 0 }

namespace JSScript

variable (script : JSScript)

/-- `while (pc < end)`; each round but the last passes a byte of the code. -/
def loop : ℕ → ℕ → State → Option Failure × State
  | 0, _, s => (none, s)
  | fuel + 1, pc, s =>
    if pc < script.length then
      match ahead s (script.jsPCToLineNumber pc) with
      | (some failure, s) => (some failure, s)
      | (none, s) =>
        if script.jsDisassemble1 pc = 0 then (some .disassemble, s)
        else loop fuel (pc + script.jsDisassemble1 pc) { s with out := s.out ++ [.instr pc] }
    else (none, s)

/-- What `line1` starts at: the number of the first line less one, which is unsigned. -/
def leading : ℕ := (script.jsPCToLineNumber 0 + (2 ^ 32 - 1)) % 2 ^ 32

/-- The listing of one script. -/
def listing (file : File) : Option Failure × List Item :=
  let done := script.loop script.length 0 ⟨script.leading, 0, burn script.leading file, []⟩
  (done.1, done.2.out)

end JSScript

/-- `DisassWithSrc`. -/
def disassWithSrc : List Arg → Option Failure × List Item
  | [] => (none, [])
  | arg :: args => match arg.script with
    | none => (some .valueToScript, [])
    | some script => match arg.filename with
      | none => (some .fileScriptsOnly, [])
      | some _ => match arg.file with
        | none => (some .cantOpen, [])
        | some file => match script.listing file with
          | (some failure, out) => (some failure, out)
          | (none, out) => ((disassWithSrc args).1, out ++ (disassWithSrc args).2)

/-! ### What a listing should be -/

/-- What follows the first `n` lines of a text. -/
def skip : ℕ → List UInt8 → List UInt8
  | 0, bytes => bytes
  | n + 1, bytes => skip n (firstLine isNl bytes).2

/-- The `n`-th line of a file with its newline, where lines are counted from one; there is none
behind its end, nor when reading fails within the line. -/
def lineAt (file : File) (n : ℕ) : Option (List UInt8) :=
  let bytes := skip (n - 1) file.bytes
  let line := chunk isNl bytes.length bytes
  if line = [] ∨ (file.broken ∧ line.getLast? ≠ some 10) then none else some line

/-- Every line has room in `linebuf` with its newline and a NUL. -/
def Fits (file : File) : Prop := ∀ n, (firstLine isNl (skip n file.bytes)).1.length < 511

/-- The line that a printed item names. -/
def Item.number : Item → Option ℕ
  | .source n _ => some n
  | .backup n => some n
  | .restore n => some n
  | .instr _ => none

def Item.text : Item → Option (ℕ × List UInt8)
  | .source n text => some (n, text)
  | _ => none

def Item.offset : Item → Option ℕ
  | .instr pc => some pc
  | _ => none

/-- The line that the last item with a number names. -/
def under (out : List Item) : Option ℕ := (out.filterMap Item.number).getLast?

/-- The offsets of the instructions, up to one that cannot be shown. -/
def JSScript.offsets (script : JSScript) : ℕ → ℕ → List ℕ
  | 0, _ => []
  | fuel + 1, pc =>
    if pc < script.length then
      pc :: if script.jsDisassemble1 pc = 0 then []
        else offsets script fuel (pc + script.jsDisassemble1 pc)
    else []

/-- A listing of the instructions at these offsets: each is under the number of its line, and the
source lines are the given ones, one after the other from the first one of the script on. -/
structure Headed (script : JSScript) (source : ℕ → Option (List UInt8)) (offsets : List ℕ)
    (out : List Item) : Prop where
  instrs : out.filterMap Item.offset = offsets
  under : ∀ before pc after, out = before ++ .instr pc :: after →
    under before = some (script.jsPCToLineNumber pc)
  lines : (out.filterMap Item.text).map Prod.fst =
    List.range' (script.jsPCToLineNumber 0) (out.filterMap Item.text).length
  texts : ∀ x ∈ out.filterMap Item.text, (source x.1).map printed = some x.2

/-! ### Reading the file -/

/-- What the `n`-th reading of the file gives. -/
def fetched (file : File) (n : ℕ) : Option (List UInt8) := (fgets 512 (burn (n - 1) file)).1

theorem burn_succ (n : ℕ) (file : File) : burn (n + 1) file = (fgets 512 (burn n file)).2 := by
  induction n generalizing file with
  | zero => rfl
  | succ n ih => exact ih (fgets 512 file).2

theorem fgets_of_empty {file : File} (empty : file.bytes = []) :
    fgets 512 file = (none, file) := by
  obtain ⟨bytes, broken⟩ := file
  obtain rfl : bytes = [] := empty
  simp [fgets, chunk]

/-- A reading that gives nothing has come to the end. -/
theorem fgets_rest_of_none {file : File} (nothing : (fgets 512 file).1 = none) :
    (fgets 512 file).2.bytes = [] := by
  have rest : (fgets 512 file).2.bytes = file.bytes.drop (chunk isNl 511 file.bytes).length := by
    simp only [fgets]
    split <;> rfl
  have short : (chunk isNl 511 file.bytes).length < 511 ∧
      (chunk isNl 511 file.bytes).getLast? ≠ some 10 := by
    by_contra full
    simp [fgets, full] at nothing
  rw [rest]
  rcases chunk_cases isNl (m := 511) (by decide) file.bytes with
    ⟨front, c, behind, -, -, here, -, got⟩ | ⟨data, behind, split, -, -, -, stop, got⟩ |
      ⟨empty, -⟩
  · have newline : c = 10 := by simpa [isNl] using here
    rw [got, newline] at short
    exact absurd (List.getLast?_concat) short.2
  · rw [got] at short ⊢
    rcases stop with full | last
    · exact absurd full (Nat.ne_of_lt short.1)
    · rw [split, last, List.append_nil, List.drop_length]
  · rw [empty, List.drop_nil]

theorem burn_of_empty {file : File} (empty : file.bytes = []) (n : ℕ) : burn n file = file := by
  induction n with
  | zero => rfl
  | succ n ih => rw [burn_succ, ih, fgets_of_empty empty]

theorem burn_add (m n : ℕ) (file : File) : burn (m + n) file = burn n (burn m file) := by
  induction m generalizing file with
  | zero => rw [Nat.zero_add]; rfl
  | succ m ih =>
    rw [Nat.add_right_comm]
    exact ih _

/-- When a line can be read, so can all before it. -/
theorem fetched_mono {file : File} {m n : ℕ} (pos : 0 < m) (le : m ≤ n)
    (later : (fetched file n).isSome) : (fetched file m).isSome := by
  cases nothing : fetched file m with
  | some text => rfl
  | none =>
    rcases Nat.eq_or_lt_of_le le with rfl | less
    · rw [nothing] at later
      exact later
    · have empty := fgets_rest_of_none nothing
      rw [← burn_succ, Nat.sub_add_cancel pos] at empty
      have stuck : burn (n - 1) file = burn m file := by
        have apart : n - 1 = m + (n - 1 - m) := by omega
        rw [apart, burn_add, burn_of_empty empty]
      rw [fetched, stuck, fgets_of_empty empty] at later
      exact later

/-! ### Printing one item more -/

theorem under_concat (out : List Item) (x : Item) :
    under (out ++ [x]) = x.number.or (under out) := by
  unfold under
  rw [List.filterMap_append]
  cases found : x.number with
  | none => simp [found]
  | some n => simp [found]

namespace Headed

variable {script : JSScript} {source : ℕ → Option (List UInt8)} {offsets : List ℕ}
  {out : List Item}

/-- The instructions of a longer listing. -/
theorem under_snoc (headed : Headed script source offsets out) {x : Item}
    (last : ∀ pc, x = .instr pc → Listing.under out = some (script.jsPCToLineNumber pc)) :
    ∀ before pc after, out ++ [x] = before ++ .instr pc :: after →
      Listing.under before = some (script.jsPCToLineNumber pc) := by
  intro before pc after split
  rcases List.eq_nil_or_concat after with rfl | ⟨after', y, rfl⟩
  · obtain ⟨rfl, same⟩ := List.append_inj' split rfl
    exact last pc (List.singleton_inj.1 same)
  · rw [List.concat_eq_append, ← List.cons_append, ← List.append_assoc] at split
    exact headed.under before pc after' (List.append_inj' split rfl).1

/-- A mark. -/
theorem snoc_mark (headed : Headed script source offsets out) {x : Item} (mark : x.offset = none)
    (textless : x.text = none) : Headed script source offsets (out ++ [x]) := by
  refine ⟨?_, headed.under_snoc fun pc same => ?_, ?_, ?_⟩
  · rw [List.filterMap_append, headed.instrs]
    simp [mark]
  · rw [same] at mark
    cases mark
  · rw [List.filterMap_append]
    simpa [textless] using headed.lines
  · rw [List.filterMap_append]
    simpa [textless] using headed.texts

/-- The next line. -/
theorem snoc_source (headed : Headed script source offsets out) {n : ℕ} {data : List UInt8}
    (next : n = script.jsPCToLineNumber 0 + (out.filterMap Item.text).length)
    (read : source n = some data) :
    Headed script source offsets (out ++ [.source n (printed data)]) := by
  have more : (out ++ [Item.source n (printed data)]).filterMap Item.text =
      out.filterMap Item.text ++ [(n, printed data)] := by
    rw [List.filterMap_append]
    rfl
  refine ⟨?_, headed.under_snoc fun pc same => ?_, ?_, ?_⟩
  · rw [List.filterMap_append, headed.instrs]
    exact List.append_nil _
  · cases same
  · rw [more, List.map_append, headed.lines, List.length_append, List.length_singleton,
      List.range'_concat, next, Nat.one_mul]
    rfl
  · rw [more]
    intro x among
    rcases List.mem_append.1 among with among | last
    · exact headed.texts x among
    · obtain rfl := List.mem_singleton.1 last
      exact (congrArg (Option.map printed) read).trans (Option.map_some ..)

/-- An instruction under the number of its line. -/
theorem snoc_instr (headed : Headed script source offsets out) {pc : ℕ}
    (here : Listing.under out = some (script.jsPCToLineNumber pc)) :
    Headed script source (offsets ++ [pc]) (out ++ [.instr pc]) := by
  have same : (out ++ [Item.instr pc]).filterMap Item.text = out.filterMap Item.text := by
    rw [List.filterMap_append]
    exact List.append_nil _
  refine ⟨?_, headed.under_snoc fun pc' same => ?_, ?_, ?_⟩
  · rw [List.filterMap_append, headed.instrs]
    rfl
  · obtain rfl := Item.instr.inj same
    exact here
  · rw [same]
    exact headed.lines
  · rw [same]
    exact headed.texts

end Headed

/-- What has been read and printed. -/
structure Reading (script : JSScript) (file : File) (offsets : List ℕ) (s : State) : Prop where
  headed : Headed script (fetched file) offsets s.out
  place : s.file = burn s.line1 file
  next : s.line1 + 1 = script.jsPCToLineNumber 0 + (s.out.filterMap Item.text).length
  read : s.out ≠ [] → (fetched file s.line1).isSome

/-- The state between two instructions: a mark is the last item with a number, or it is the line
that was read last. -/
structure Going (script : JSScript) (file : File) (offsets : List ℕ) (s : State) : Prop
    extends Reading script file offsets s where
  marked : s.bupline ≠ 0 → s.bupline < s.line1 ∧ under s.out = some s.bupline
  plain : s.bupline = 0 → s.out ≠ [] → under s.out = some s.line1

section Rounds

variable {script : JSScript} {file : File} {offsets : List ℕ} {s s' : State}

theorem Reading.mark (reading : Reading script file offsets s) {x : Item} (bupline : ℕ)
    (mark : x.offset = none) (textless : x.text = none) (some_out : s.out ≠ []) :
    Reading script file offsets { s with bupline := bupline, out := s.out ++ [x] } := by
  refine ⟨reading.headed.snoc_mark mark textless, reading.place, ?_, fun _ => reading.read some_out⟩
  rw [List.filterMap_append]
  simpa [textless] using reading.next

/-- The next line of the file. -/
theorem Reading.source (reading : Reading script file offsets s) {data : List UInt8} {rest : File}
    (given : fgets 512 s.file = (some data, rest)) :
    Reading script file offsets
      { s with
        line1 := s.line1 + 1, file := rest,
        out := s.out ++ [.source (s.line1 + 1) (printed data)] } := by
  have read : fetched file (s.line1 + 1) = some data := by
    rw [fetched, Nat.add_sub_cancel, ← reading.place, given]
  refine ⟨reading.headed.snoc_source reading.next read, ?_, ?_, fun _ => ?_⟩
  · rw [burn_succ, ← reading.place, given]
  · rw [List.filterMap_append, List.length_append, ← Nat.add_assoc, ← reading.next]
    rfl
  · exact Option.isSome_of_eq_some read

/-- The lines shown ahead of an instruction are the next of the file, as far as it goes. -/
theorem showLines_reading {k : ℕ} (reading : Reading script file offsets s) :
    Headed script (fetched file) offsets (showLines k s).2.out ∧
      ((showLines k s).1 = none ↔ k = 0 ∨ (fetched file (s.line1 + k)).isSome) ∧
      ((showLines k s).1 = none → Reading script file offsets (showLines k s).2 ∧
        (showLines k s).2.line1 = s.line1 + k ∧ (showLines k s).2.bupline = s.bupline ∧
        (0 < k → under (showLines k s).2.out = some (s.line1 + k))) := by
  induction k generalizing s with
  | zero =>
    exact ⟨reading.headed, by simp [showLines],
      fun _ => ⟨reading, rfl, rfl, fun pos => absurd pos (Nat.lt_irrefl 0)⟩⟩
  | succ k ih =>
    have read : fetched file (s.line1 + 1) = (fgets 512 s.file).1 := by
      rw [fetched, Nat.add_sub_cancel, reading.place]
    have count : s.line1 + 1 + k = s.line1 + (k + 1) := by omega
    cases given : fgets 512 s.file with
    | mk line rest =>
      rw [given] at read
      cases line with
      | none =>
        have stop : showLines (k + 1) s = (some .unexpectedEof, { s with file := rest }) := by
          rw [showLines, given]
        have dry : ¬ (k + 1 = 0 ∨ (fetched file (s.line1 + (k + 1))).isSome) := by
          rintro (zero | some_line)
          · cases zero
          · have first := fetched_mono (Nat.succ_pos s.line1) (by omega) some_line
            rw [read] at first
            cases first
        rw [stop]
        exact ⟨reading.headed, iff_of_false (Option.some_ne_none _) dry,
          fun same => absurd same (Option.some_ne_none _)⟩
      | some data =>
        have go : showLines (k + 1) s = showLines k
            { s with
              line1 := s.line1 + 1, file := rest,
              out := s.out ++ [.source (s.line1 + 1) (printed data)] } := by
          rw [showLines, given]
        obtain ⟨headed, returns, later⟩ := ih (reading.source given)
        rw [go]
        refine ⟨headed, ?_, fun ok => ?_⟩
        · rw [returns, count]
          constructor
          · rintro (rfl | some_line)
            · right
              rw [read]
              rfl
            · exact Or.inr some_line
          · rintro (zero | some_line)
            · cases zero
            · exact Or.inr some_line
        · obtain ⟨reading', line, bupline, printed⟩ := later ok
          refine ⟨reading', line.trans count, bupline, fun _ => ?_⟩
          by_cases more : 0 < k
          · exact (printed more).trans (congrArg some count)
          · obtain rfl : k = 0 := by omega
            exact under_concat _ _

/-- Ahead of an instruction its line comes last, if the file has it. -/
theorem ahead_going {line2 : ℕ} (going : Going script file offsets s) (pos : 0 < line2)
    (first : s.out = [] → line2 = script.jsPCToLineNumber 0) :
    Headed script (fetched file) offsets (ahead s line2).2.out ∧
      ((ahead s line2).1 = none ↔ (fetched file line2).isSome) ∧
      ((ahead s line2).1 = none → Going script file offsets (ahead s line2).2 ∧
        (ahead s line2).2.line1 = max s.line1 line2 ∧
        under (ahead s line2).2.out = some line2) := by
  have new (fresh : s.out = []) : line2 = s.line1 + 1 := by
    rw [first fresh, going.next, fresh]
    rfl
  by_cases back : line2 < s.line1
  · have some_out : s.out ≠ [] := fun fresh => by
      have := new fresh
      omega
    have there : (fetched file line2).isSome := fetched_mono pos (by omega) (going.read some_out)
    by_cases marked : s.bupline = line2
    · have stay : ahead s line2 = (none, s) := by simp [ahead, back, marked]
      have here := (going.marked (by omega)).2
      rw [stay]
      exact ⟨going.headed, iff_of_true rfl there,
        fun _ => ⟨going, (Nat.max_eq_left back.le).symm, marked ▸ here⟩⟩
    · have mark : ahead s line2 =
          (none, { s with bupline := line2, out := s.out ++ [.backup line2] }) := by
        simp [ahead, back, marked]
      have reading := going.toReading.mark line2 (x := .backup line2) rfl rfl some_out
      have here : under (s.out ++ [.backup line2]) = some line2 := under_concat _ _
      rw [mark]
      refine ⟨reading.headed, iff_of_true rfl there,
        fun _ => ⟨⟨reading, ?_, ?_⟩, (Nat.max_eq_left back.le).symm, here⟩⟩
      · exact fun _ => ⟨back, here⟩
      · exact fun zero => absurd zero (Nat.ne_of_gt pos)
  · rcases Nat.eq_or_lt_of_le (Nat.le_of_not_lt back) with same | on
    · have some_out : s.out ≠ [] := fun fresh => by
        have := new fresh
        omega
      have there : (fetched file line2).isSome := same ▸ going.read some_out
      by_cases marked : s.bupline = 0
      · have stay : ahead s line2 = (none, { s with bupline := 0 }) := by
          simp [ahead, marked, same, showLines]
        have here := (going.plain marked some_out).trans (congrArg some same)
        rw [stay]
        refine ⟨going.headed, iff_of_true rfl there,
          fun _ => ⟨⟨?_, ?_, ?_⟩, (Nat.max_eq_left same.ge).symm, here⟩⟩
        · exact ⟨going.headed, going.place, going.next, going.read⟩
        · exact fun marked => absurd rfl marked
        · exact fun _ => going.plain marked
      · have restore : ahead s line2 =
            (none, { s with bupline := 0, out := s.out ++ [.restore line2] }) := by
          simp [ahead, marked, same, showLines]
        have reading := going.toReading.mark 0 (x := .restore line2) rfl rfl some_out
        have here : under (s.out ++ [.restore line2]) = some line2 := under_concat _ _
        rw [restore]
        refine ⟨reading.headed, iff_of_true rfl there,
          fun _ => ⟨⟨reading, ?_, ?_⟩, (Nat.max_eq_left same.ge).symm, here⟩⟩
        · exact fun marked => absurd rfl marked
        · exact fun _ _ => here.trans (congrArg some same.symm)
    · have go : ahead s line2 = showLines (line2 - s.line1) { s with bupline := 0 } := by
        simp [ahead, back, Nat.ne_of_lt on]
      have reading : Reading script file offsets { s with bupline := 0 } :=
        ⟨going.headed, going.place, going.next, going.read⟩
      obtain ⟨headed, returns, later⟩ := showLines_reading (k := line2 - s.line1) reading
      have reached : s.line1 + (line2 - s.line1) = line2 := by omega
      rw [go]
      refine ⟨headed, ?_, fun ok => ?_⟩
      · rw [returns, reached]
        exact or_iff_right (by omega)
      · obtain ⟨reading', line, unmarked, printed⟩ := later ok
        have here := printed (by omega)
        rw [reached] at line here
        refine ⟨⟨reading', ?_, ?_⟩, line.trans (Nat.max_eq_right on.le).symm, here⟩
        · exact fun marked => absurd unmarked marked
        · exact fun _ _ => here.trans (congrArg some line.symm)

/-- An instruction behind its line. -/
theorem Going.instr (going : Going script file offsets s) {pc : ℕ}
    (here : under s.out = some (script.jsPCToLineNumber pc)) :
    Going script file (offsets ++ [pc]) { s with out := s.out ++ [.instr pc] } := by
  have some_out : s.out ≠ [] := fun fresh => by
    rw [fresh] at here
    cases here
  have same : under (s.out ++ [.instr pc]) = under s.out := under_concat _ _
  refine ⟨⟨going.headed.snoc_instr here, going.place, ?_, fun _ => going.read some_out⟩, ?_, ?_⟩
  · rw [List.filterMap_append, List.length_append]
    exact going.next
  · rw [same]
    exact going.marked
  · rw [same]
    exact fun unmarked _ => going.plain unmarked some_out

theorem loop_of_failed {fuel pc : ℕ} {failure : Failure} (inside : pc < script.length)
    (shown : ahead s (script.jsPCToLineNumber pc) = (some failure, s')) :
    script.loop (fuel + 1) pc s = (some failure, s') := by
  simp only [JSScript.loop, if_pos inside, shown]

theorem loop_of_last {fuel pc : ℕ} (inside : pc < script.length)
    (shown : ahead s (script.jsPCToLineNumber pc) = (none, s'))
    (last : script.jsDisassemble1 pc = 0) :
    script.loop (fuel + 1) pc s = (some .disassemble, s') := by
  simp only [JSScript.loop, if_pos inside, shown, if_pos last]

theorem loop_of_next {fuel pc : ℕ} (inside : pc < script.length)
    (shown : ahead s (script.jsPCToLineNumber pc) = (none, s'))
    (more : script.jsDisassemble1 pc ≠ 0) :
    script.loop (fuel + 1) pc s = script.loop fuel (pc + script.jsDisassemble1 pc)
      { s' with out := s'.out ++ [.instr pc] } := by
  simp only [JSScript.loop, if_pos inside, shown, if_neg more]

/-- The loop from one instruction on. -/
theorem loop_headed (positive : ∀ pc, 0 < script.jsPCToLineNumber pc) {fuel pc : ℕ}
    (going : Going script file offsets s) (first : s.out = [] → pc = 0) :
    ((script.loop fuel pc s).1 = none ↔ ∀ pc' ∈ script.offsets fuel pc,
      script.jsDisassemble1 pc' ≠ 0 ∧ (fetched file (script.jsPCToLineNumber pc')).isSome) ∧
      (∃ shown, shown <+: script.offsets fuel pc ∧
        Headed script (fetched file) (offsets ++ shown) (script.loop fuel pc s).2.out) ∧
      ((script.loop fuel pc s).1 = none →
        Going script file (offsets ++ script.offsets fuel pc) (script.loop fuel pc s).2 ∧
        (script.loop fuel pc s).2.line1 =
          ((script.offsets fuel pc).map script.jsPCToLineNumber).foldl max s.line1) := by
  induction fuel generalizing pc s offsets with
  | zero =>
    have none_left : offsets ++ script.offsets 0 pc = offsets := List.append_nil _
    refine ⟨iff_of_true rfl (List.forall_mem_nil _), ⟨[], List.nil_prefix, ?_⟩, fun _ => ?_⟩
    · rw [List.append_nil]
      exact going.headed
    · rw [none_left]
      exact ⟨going, rfl⟩
  | succ fuel ih =>
    by_cases inside : pc < script.length
    · obtain ⟨headed, returns, later⟩ :=
        ahead_going going (positive pc) fun fresh => congrArg _ (first fresh)
      cases shown : ahead s (script.jsPCToLineNumber pc) with
      | mk failed t =>
        rw [shown] at headed returns later
        cases failed with
        | some failure =>
          rw [loop_of_failed inside shown]
          refine ⟨iff_of_false (Option.some_ne_none _) fun all => ?_,
            ⟨[], List.nil_prefix, by rwa [List.append_nil]⟩,
            fun same => absurd same (Option.some_ne_none _)⟩
          have here := all pc (by rw [JSScript.offsets, if_pos inside]; exact List.mem_cons_self)
          exact absurd (returns.2 here.2) (Option.some_ne_none _)
        | none =>
          obtain ⟨going', line, here⟩ := later rfl
          have read := returns.1 rfl
          by_cases last : script.jsDisassemble1 pc = 0
          · rw [loop_of_last inside shown last]
            refine ⟨iff_of_false (Option.some_ne_none _) fun all => ?_,
              ⟨[], List.nil_prefix, by rwa [List.append_nil]⟩,
              fun same => absurd same (Option.some_ne_none _)⟩
            exact (all pc
              (by rw [JSScript.offsets, if_pos inside]; exact List.mem_cons_self)).1 last
          · have next : script.offsets (fuel + 1) pc =
                pc :: script.offsets fuel (pc + script.jsDisassemble1 pc) := by
              rw [JSScript.offsets, if_pos inside, if_neg last]
            obtain ⟨returns', ⟨rest, front, headed'⟩, later'⟩ :=
              @ih _ _ (pc + script.jsDisassemble1 pc) (going'.instr here)
                fun fresh => absurd fresh (List.concat_ne_nil _ _)
            rw [loop_of_next inside shown last, next]
            refine ⟨?_, ⟨pc :: rest, (List.prefix_cons_inj pc).2 front, ?_⟩, fun ok => ?_⟩
            · rw [returns', List.forall_mem_cons]
              exact (and_iff_right ⟨last, read⟩).symm
            · rwa [List.append_cons]
            · obtain ⟨going'', line'⟩ := later' ok
              rw [List.append_cons]
              refine ⟨going'', line'.trans ?_⟩
              rw [List.map_cons, List.foldl_cons]
              exact congrArg (fun m => List.foldl max m _) line
    · have stop : script.loop (fuel + 1) pc s = (none, s) := by
        rw [JSScript.loop, if_neg inside]
      have none_left : script.offsets (fuel + 1) pc = [] := by
        rw [JSScript.offsets, if_neg inside]
      rw [stop, none_left, List.append_nil]
      exact ⟨iff_of_true rfl (List.forall_mem_nil _),
        ⟨[], List.prefix_rfl, by rw [List.append_nil]; exact going.headed⟩, fun _ => ⟨going, rfl⟩⟩

end Rounds

/-! ### Whole listings -/

section Whole

variable (script : JSScript) (source : ℕ → Option (List UInt8)) (out : List Item)

/-- The lines of all instructions are there, and each instruction can be shown. -/
def JSScript.Ready : Prop :=
  ∀ pc ∈ script.offsets script.length 0,
    script.jsDisassemble1 pc ≠ 0 ∧ (source (script.jsPCToLineNumber pc)).isSome

/-- A listing of some of the first instructions. -/
def JSScript.Listed : Prop :=
  ∃ shown, shown <+: script.offsets script.length 0 ∧ Headed script source shown out

/-- A listing of all instructions, and of all lines from the first one of the script to the last. -/
structure JSScript.Whole : Prop where
  headed : Headed script source (script.offsets script.length 0) out
  covered : ∀ n, n ∈ (out.filterMap Item.text).map Prod.fst ↔ script.jsPCToLineNumber 0 ≤ n ∧
    ∃ pc ∈ script.offsets script.length 0, n ≤ script.jsPCToLineNumber pc

end Whole

theorem le_foldl_max (n a : ℕ) (l : List ℕ) : n ≤ l.foldl max a ↔ n ≤ a ∨ ∃ x ∈ l, n ≤ x := by
  induction l generalizing a with
  | nil => simp
  | cons x l ih => simp [ih, or_assoc]

theorem listing_headed (script : JSScript) (file : File)
    (positive : ∀ pc, 0 < script.jsPCToLineNumber pc) :
    ((script.listing file).1 = none ↔ script.Ready (fetched file)) ∧
      script.Listed (fetched file) (script.listing file).2 ∧
      ((script.listing file).1 = none → script.Whole (fetched file) (script.listing file).2) := by
  have pos := positive 0
  have small := script.small 0
  have leading : script.leading = script.jsPCToLineNumber 0 - 1 := by
    unfold JSScript.leading
    omega
  have empty : Headed script (fetched file) [] [] := by
    refine ⟨rfl, fun before pc after split => ?_, rfl, fun x among => ?_⟩
    · exact absurd split.symm (List.append_ne_nil_of_right_ne_nil before (List.cons_ne_nil _ _))
    · cases among
  have start (n : ℕ) (before : n + 1 = script.jsPCToLineNumber 0) :
      Going script file [] ⟨n, 0, burn n file, []⟩ :=
    ⟨⟨empty, rfl, before, fun none => absurd rfl none⟩, fun none => absurd rfl none,
      fun _ none => absurd rfl none⟩
  have before : script.leading + 1 = script.jsPCToLineNumber 0 := by
    rw [leading]
    exact Nat.sub_add_cancel pos
  have listing : script.listing file = ((script.loop script.length 0
      ⟨script.leading, 0, burn script.leading file, []⟩).1, (script.loop script.length 0
      ⟨script.leading, 0, burn script.leading file, []⟩).2.out) := rfl
  obtain ⟨returns, listed, whole⟩ := @loop_headed script file [] _ positive script.length 0
    (start _ before) fun _ => rfl
  rw [listing]
  refine ⟨returns, listed, fun ok => ?_⟩
  obtain ⟨going, last⟩ := whole ok
  refine ⟨going.headed, fun n => ?_⟩
  have next := going.next
  rw [going.headed.lines, List.mem_range'_1]
  have below := le_foldl_max n script.leading
    ((script.offsets script.length 0).map script.jsPCToLineNumber)
  rw [← last] at below
  simp only [List.mem_map, exists_exists_and_eq_and] at below
  constructor
  · rintro ⟨low, high⟩
    exact ⟨low, (below.1 (by omega)).resolve_left (by omega)⟩
  · rintro ⟨low, high⟩
    have := below.2 (Or.inr high)
    exact ⟨low, by omega⟩

/-- A line that has room is read whole. -/
theorem fgets_line {file : File} (short : (firstLine isNl file.bytes).1.length < 511) :
    fgets 512 file = (lineAt file 1, { file with bytes := (firstLine isNl file.bytes).2 }) := by
  obtain ⟨bytes, broken⟩ := file
  dsimp only at short ⊢
  rcases clear_or_split isNl bytes with clear | ⟨front, c, rest, rfl, before, here⟩
  · rw [firstLine_of_end clear] at short ⊢
    have read : chunk isNl 511 bytes = bytes := chunk_of_end clear short.le
    have line : chunk isNl bytes.length bytes = bytes := chunk_of_end clear le_rfl
    have unended : bytes.getLast? ≠ some 10 := fun last =>
      absurd (clear 10 (List.mem_of_getLast? last)) (by decide)
    simp [fgets, lineAt, skip, read, line, short, unended, or_comm]
  · rw [firstLine_of_hit rest before here] at short ⊢
    obtain rfl := eq_newline here
    have read : chunk isNl 511 (front ++ 10 :: rest) = front ++ [10] :=
      chunk_of_hit rest before here short
    have line : chunk isNl (front ++ 10 :: rest).length (front ++ 10 :: rest) = front ++ [10] :=
      chunk_of_hit rest before here (by simp)
    simp only [fgets, lineAt, skip, read, line, Nat.sub_self, Nat.add_one_sub_one]
    simp

theorem skip_succ (n : ℕ) (bytes : List UInt8) :
    skip (n + 1) bytes = (firstLine isNl (skip n bytes)).2 := by
  induction n generalizing bytes with
  | zero => rfl
  | succ n ih => exact ih (firstLine isNl bytes).2

theorem burn_of_fits {file : File} (fits : Fits file) (n : ℕ) :
    burn n file = { file with bytes := skip n file.bytes } := by
  induction n with
  | zero => rfl
  | succ n ih => rw [burn_succ, ih, fgets_line (fits n), skip_succ]

/-- When every line has room, the `n`-th reading gives the `n`-th line. -/
theorem fetched_eq {file : File} (fits : Fits file) : fetched file = lineAt file := by
  funext n
  rw [fetched, burn_of_fits fits, fgets_line (fits (n - 1))]
  rfl

/-- The argument has a script with a source file, and the part of the output is its listing. -/
def Arg.Has (arg : Arg) (listing : JSScript → File → Prop) : Prop :=
  ∃ script file, arg.script = some script ∧ arg.filename.isSome ∧ arg.file = some file ∧
    listing script file

/-- An argument that fails. -/
theorem disassWithSrc_stop {arg : Arg} {args : List Arg}
    (unready : ¬ arg.Has fun script file => (script.listing file).1 = none) :
    (disassWithSrc (arg :: args)).1 ≠ none ∧ ((disassWithSrc (arg :: args)).2 = [] ∨
      arg.Has fun script file =>
        (disassWithSrc (arg :: args)).2 = (script.listing file).2) := by
  obtain ⟨script, filename, file⟩ := arg
  cases script with
  | none => exact ⟨Option.some_ne_none _, Or.inl rfl⟩
  | some script =>
    cases filename with
    | none => exact ⟨Option.some_ne_none _, Or.inl rfl⟩
    | some name =>
      cases file with
      | none => exact ⟨Option.some_ne_none _, Or.inl rfl⟩
      | some file =>
        cases listed : script.listing file with
        | mk failed out =>
          cases failed with
          | none =>
            exact absurd ⟨script, file, rfl, rfl, rfl, congrArg Prod.fst listed⟩ unready
          | some failure =>
            have stop : disassWithSrc (⟨some script, some name, some file⟩ :: args) =
                (some failure, out) := by simp only [disassWithSrc, listed]
            rw [stop]
            exact ⟨Option.some_ne_none _,
              Or.inr ⟨script, file, rfl, rfl, rfl, (congrArg Prod.snd listed).symm⟩⟩

/-- One that does not. -/
theorem disassWithSrc_next {arg : Arg} {args : List Arg} {script : JSScript} {file : File}
    (known : arg.script = some script) (named : arg.filename.isSome)
    (found : arg.file = some file) (ok : (script.listing file).1 = none) :
    disassWithSrc (arg :: args) =
      ((disassWithSrc args).1, (script.listing file).2 ++ (disassWithSrc args).2) := by
  obtain ⟨name, named⟩ := Option.isSome_iff_exists.1 named
  have listed : script.listing file = (none, (script.listing file).2) := Prod.ext ok rfl
  rw [listed]
  simp only [disassWithSrc, known, named, found]
  rw [listed]

/-- In the output, each instruction stands under the number of its line, and what the readings of
the source file give comes one after the other, each once; a call that does not fail shows all
scripts with all their instructions, and the readings from the first line of a script to its last.
It fails if and only if some argument is not a script with a file that gives so many.  When no line
is too long for the buffer, the readings give the lines of the file. -/
theorem disassWithSrc_listed (args : List Arg) (positive : ∀ arg ∈ args, ∀ script ∈ arg.script,
    ∀ pc, 0 < script.jsPCToLineNumber pc) :
    ((disassWithSrc args).1 = none ↔
        ∀ arg ∈ args, arg.Has fun script file => script.Ready (fetched file)) ∧
      (∃ shown : List (Arg × List Item),
        (disassWithSrc args).2 = (shown.map Prod.snd).flatten ∧ shown.map Prod.fst <+: args ∧
        (∀ x ∈ shown, x.1.Has fun script file => script.Listed (fetched file) x.2) ∧
        ((disassWithSrc args).1 = none → shown.map Prod.fst = args ∧
          ∀ x ∈ shown, x.1.Has fun script file => script.Whole (fetched file) x.2)) ∧
      ∀ arg ∈ args, ∀ file ∈ arg.file, Fits file → fetched file = lineAt file := by
  rw [← and_assoc]
  refine ⟨?_, fun _ _ _ _ fits => fetched_eq fits⟩
  induction args with
  | nil =>
    exact ⟨iff_of_true rfl (List.forall_mem_nil _), [], rfl, List.nil_prefix, List.forall_mem_nil _,
      fun _ => ⟨rfl, List.forall_mem_nil _⟩⟩
  | cons arg args ih =>
    obtain ⟨here, later⟩ := List.forall_mem_cons.1 positive
    by_cases ready : arg.Has fun script file => (script.listing file).1 = none
    · obtain ⟨script, file, known, named, found, ok⟩ := ready
      obtain ⟨returns, listed, whole⟩ := listing_headed script file (here script known)
      obtain ⟨returns', shown, out, front, some_listed, all⟩ := ih later
      rw [disassWithSrc_next known named found ok]
      refine ⟨?_, (arg, (script.listing file).2) :: shown, ?_, ?_, ?_, fun ok' => ?_⟩
      · rw [returns', List.forall_mem_cons]
        exact (and_iff_right ⟨script, file, known, named, found, returns.1 ok⟩).symm
      · rw [out]
        rfl
      · exact (List.prefix_cons_inj arg).2 front
      · exact List.forall_mem_cons.2 ⟨⟨script, file, known, named, found, listed⟩, some_listed⟩
      · obtain ⟨same, all⟩ := all ok'
        exact ⟨congrArg (arg :: ·) same,
          List.forall_mem_cons.2 ⟨⟨script, file, known, named, found, whole ok⟩, all⟩⟩
    · obtain ⟨failed, part⟩ := @disassWithSrc_stop arg args ready
      have unready : ¬ ∀ arg' ∈ arg :: args,
          arg'.Has fun script file => script.Ready (fetched file) := fun all => by
        obtain ⟨script, file, known, named, found, complete⟩ := all arg List.mem_cons_self
        exact ready ⟨script, file, known, named, found,
          (listing_headed script file (here script known)).1.2 complete⟩
      rcases part with nothing | ⟨script, file, known, named, found, part⟩
      · refine ⟨iff_of_false failed unready, [], nothing, List.nil_prefix, List.forall_mem_nil _,
          fun ok => absurd ok failed⟩
      · refine ⟨iff_of_false failed unready, [(arg, (script.listing file).2)], ?_, ?_, ?_,
          fun ok => absurd ok failed⟩
        · rw [part]
          exact (List.append_nil _).symm
        · exact (List.prefix_cons_inj arg).2 List.nil_prefix
        · exact List.forall_mem_singleton.2 ⟨script, file, known, named, found,
            (listing_headed script file (here script known)).2.1⟩

/-- A loop: its instructions are on the lines 2, 3, 2 and 3 of a file with three lines. -/
def looped : Arg where
  script := some
    { length := 4
      jsPCToLineNumber := fun pc => if pc % 2 = 0 then 2 else 3
      jsDisassemble1 := fun _ => 1
      small := fun pc => by split <;> decide }
  filename := some [97]
  file := some ⟨[10, 120, 10, 121, 10], false⟩

theorem disassWithSrc_listed_looped :
    (disassWithSrc [looped]).2 =
        [.source 2 [120, 10], .instr 0, .source 3 [121, 10], .instr 1, .backup 2, .instr 2,
          .restore 3, .instr 3] ∧
      ∀ arg ∈ [looped], arg.Has fun script file => script.Ready (fetched file) := by
  refine ⟨by decide, (disassWithSrc_listed [looped] fun arg among script known pc => ?_).1.1 rfl⟩
  obtain rfl := List.mem_singleton.1 among
  obtain rfl := Option.some.inj known
  dsimp only
  split <;> decide

end Sysjs.Listing
