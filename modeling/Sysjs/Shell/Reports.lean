import Sysjs.Foundation.Columns
import Sysjs.Shell.Output

/-!
# Error reports

`my_ErrorReporter` writes a message line by line behind the place it is about, then the source line
and a caret, and keeps the exit code.
-/

set_option autoImplicit false

namespace Sysjs.Reports

open Columns Shell

/-- `JSShellExitCode`, as far as reports set it. -/
inductive JSShellExitCode where
  | runtimeError
  | outOfMemory
  deriving DecidableEq

def JSShellExitCode.val : JSShellExitCode → ℤ
  | .runtimeError => 3
  | .outOfMemory => 5

/-- A `JSErrorReport`: `token` is the distance of `tokenptr` from `linebuf`, which is one line. -/
structure JSErrorReport where
  filename : Option (List UInt8)
  lineno : ℕ
  linebuf : Option (List UInt8)
  token : ℕ
  warning : Bool
  strict : Bool
  outOfMemory : Bool
  inLine : ∀ line ∈ linebuf, token ≤ line.length ∧ 10 ∉ line.take token

/-- A call of the reporter; `granted` says which `JS_smprintf` gets its memory. -/
structure Call where
  granted : ℕ → Bool
  message : List UInt8
  report : Option JSErrorReport

/-- What was written to `gErrFile`, `gExitCode`, and `reportWarnings`. -/
structure State where
  err : List UInt8
  exitCode : ℤ
  reportWarnings : Bool

/-- `prefix`: `none` is the null pointer. -/
def JSErrorReport.pre (report : JSErrorReport) (granted : ℕ → Bool) : Option (List UInt8) :=
  let pre := match report.filename with
    | some filename => if granted 0 then some (filename ++ ascii [':']) else none
    | none => none
  let pre :=
    if report.lineno ≠ 0 then
      if granted 1 then some (pre.getD [] ++ ascii (Nat.toDigits 10 report.lineno ++ [':', ' ']))
      else none
    else pre
  if report.warning then
    if granted 2 then
      some (pre.getD [] ++ ascii ((if report.strict then "strict " else "").toList ++
        "warning: ".toList))
    else none
  else pre

/-- The loop over "embedded newlines -- argh!" and the rest of the message; `line` is what `strchr`
has passed since the last newline. -/
def putMessage (pre line : List UInt8) : List UInt8 → List UInt8
  | [] => pre ++ line
  | c :: message =>
    if c = 10 then pre ++ (line ++ [c]) ++ putMessage pre [] message
    else putMessage pre (line ++ [c]) message

/-- The loop that puts dots below the source line: `j`, which is also how many it has put. -/
def dots (j : ℕ) : List UInt8 → ℕ
  | [] => j
  | c :: line => dots (if c = 9 then (j + 8) / 8 * 8 else j + 1) line

/-- The dots and the caret. -/
def caret (line : List UInt8) (token : ℕ) : List UInt8 :=
  List.replicate (dots 0 (line.take token)) 46 ++ [94, 10]

/-- What `%s` prints. -/
def percentS (string : Option (List UInt8)) : List UInt8 := string.getD (ascii "(null)".toList)

/-- `my_ErrorReporter`: `fputs` is not given a null prefix, `fprintf` is. -/
def myErrorReporter (s : State) (call : Call) : State :=
  match call.report with
  | none => { s with err := s.err ++ call.message ++ [10] }
  | some report =>
    if report.warning && !s.reportWarnings then s
    else
      let pre := report.pre call.granted
      let err := s.err ++ putMessage (pre.getD []) [] call.message
      let exitCode :=
        if report.warning then s.exitCode
        else if report.outOfMemory then JSShellExitCode.outOfMemory.val
        else JSShellExitCode.runtimeError.val
      match report.linebuf with
      | none => { s with err := err ++ [10], exitCode := exitCode }
      | some line =>
        let newline := if line.getLast? = some 10 then [] else [10]
        { s with
          err := err ++ ([58, 10] ++ percentS pre ++ line ++ newline ++ percentS pre) ++
            caret line report.token,
          exitCode := exitCode }

/-! ### What is written -/

/-- The lines of a text. -/
def textLines (text : List UInt8) : List (List UInt8) := text.splitOn 10

/-- Lines on the screen. -/
def shown (lines : List (List UInt8)) : List UInt8 := lines.flatMap (· ++ [10])

/-- The source line without its newline. -/
def bare (line : List UInt8) : List UInt8 :=
  if line.getLast? = some 10 then line.dropLast else line

/-- The lines of a call: only the source line and the caret show that a prefix is null. -/
def Call.lines (call : Call) (reportWarnings : Bool) : List (List UInt8) :=
  match call.report with
  | none => textLines call.message
  | some report =>
    if report.warning && !reportWarnings then []
    else
      let pre := report.pre call.granted
      match report.linebuf with
      | none => (textLines call.message).map (pre.getD [] ++ ·)
      | some line => (textLines (call.message ++ [58])).map (pre.getD [] ++ ·) ++
          [percentS pre ++ bare line,
            percentS pre ++ List.replicate (dots 0 (line.take report.token)) 46 ++ [94]]

/-- The exit code that a call sets. -/
def Call.exitCode (call : Call) : Option ℤ :=
  match call.report with
  | none => none
  | some report =>
    if report.warning then none
    else if report.outOfMemory then some JSShellExitCode.outOfMemory.val
    else some JSShellExitCode.runtimeError.val

/-- What a call leaves. -/
def State.written (s : State) (call : Call) : State :=
  { s with
    err := s.err ++ shown (call.lines s.reportWarnings),
    exitCode := call.exitCode.getD s.exitCode }

theorem textLines_singleton {text : List UInt8} (single : 10 ∉ text) : textLines text = [text] := by
  rw [textLines, List.splitOn_eq_splitOnP]
  exact List.splitOnP_eq_singleton fun c hc => beq_eq_false_iff_ne.2 fun same => single (same ▸ hc)

theorem textLines_cons {line : List UInt8} (single : 10 ∉ line) (rest : List UInt8) :
    textLines (line ++ 10 :: rest) = line :: textLines rest := by
  have clear : ∀ c ∈ line, (c == (10 : UInt8)) = false :=
    fun c hc => beq_eq_false_iff_ne.2 fun same => single (same ▸ hc)
  rw [textLines, textLines, List.splitOn_eq_splitOnP, List.splitOn_eq_splitOnP]
  exact List.splitOnP_append_cons_of_forall_mem clear 10 (beq_self_eq_true _) rest

/-- The loop puts the prefix before every line. -/
theorem putMessage_eq (pre message : List UInt8) {line : List UInt8} (single : 10 ∉ line) :
    putMessage pre line message ++ [10] = shown ((textLines (line ++ message)).map (pre ++ ·)) := by
  induction message generalizing line with
  | nil =>
    rw [List.append_nil, textLines_singleton single]
    simp [putMessage, shown]
  | cons c message ih =>
    by_cases here : c = 10
    · subst here
      have later := @ih [] List.not_mem_nil
      rw [List.nil_append] at later
      rw [putMessage, if_pos rfl, textLines_cons single, List.map_cons, shown, List.flatMap_cons,
        ← shown, ← later]
      simp
    · have longer : 10 ∉ line ++ [c] := by
        rw [List.mem_append, List.mem_singleton]
        exact not_or.2 ⟨single, fun same => here same.symm⟩
      rw [putMessage, if_neg here, ih longer]
      simp

theorem putMessage_append (pre line message : List UInt8) {c : UInt8} (more : c ≠ 10) :
    putMessage pre line (message ++ [c]) = putMessage pre line message ++ [c] := by
  induction message generalizing line with
  | nil => simp [putMessage, more]
  | cons d message ih =>
    rw [List.cons_append, putMessage, putMessage, ih, ih]
    split
    · simp only [List.append_assoc]
    · rfl

theorem putMessage_nil (line message : List UInt8) :
    putMessage [] line message = line ++ message := by
  induction message generalizing line with
  | nil => simp [putMessage]
  | cons c message ih => simp [putMessage, ih]

theorem shown_textLines (text : List UInt8) : shown (textLines text) = text ++ [10] := by
  have put := putMessage_eq [] text List.not_mem_nil
  rw [putMessage_nil, List.nil_append] at put
  rw [put]
  simp

theorem bare_append (line : List UInt8) :
    line ++ (if line.getLast? = some 10 then [] else [10]) = bare line ++ [10] := by
  unfold bare
  split
  · next last =>
    rw [List.append_nil]
    exact (List.dropLast_append_getLast? 10 last).symm
  · rfl

theorem shown_append (lines lines' : List (List UInt8)) :
    shown (lines ++ lines') = shown lines ++ shown lines' :=
  List.flatMap_append

/-- The message, the source line and the caret. -/
theorem shown_source (pre place message line : List UInt8) (token : ℕ) :
    putMessage pre [] message ++ ([58, 10] ++ place ++ line ++
      (if line.getLast? = some 10 then [] else [10]) ++ place) ++ caret line token =
    shown ((textLines (message ++ [58])).map (pre ++ ·) ++
      [place ++ bare line, place ++ List.replicate (dots 0 (line.take token)) 46 ++ [94]]) := by
  have put := putMessage_eq pre (message ++ [58]) List.not_mem_nil
  rw [putMessage_append pre [] message (by decide), List.nil_append] at put
  have source := bare_append line
  rw [shown_append, ← put, shown, List.flatMap_cons, List.flatMap_cons, List.flatMap_nil, caret]
  simp only [List.append_assoc, List.append_nil] at source ⊢
  rw [← List.append_assoc line, source]
  simp

/-- What one call does. -/
theorem myErrorReporter_eq (s : State) (call : Call) : myErrorReporter s call = s.written call := by
  obtain ⟨granted, message, report⟩ := call
  cases report with
  | none => simp [myErrorReporter, State.written, Call.lines, Call.exitCode, shown_textLines]
  | some report =>
    cases quiet : report.warning && !s.reportWarnings with
    | true =>
      obtain ⟨warning, off⟩ := Bool.and_eq_true_iff.1 quiet
      have off : s.reportWarnings = false := by simpa using off
      simp [myErrorReporter, State.written, Call.lines, Call.exitCode, warning, off, shown]
      rw [← off]
    | false =>
      have exit : (if report.warning then s.exitCode
          else if report.outOfMemory then JSShellExitCode.outOfMemory.val
          else JSShellExitCode.runtimeError.val) =
          (Call.exitCode ⟨granted, message, some report⟩).getD s.exitCode := by
        simp only [Call.exitCode]
        cases report.warning <;> cases report.outOfMemory <;> rfl
      have put := putMessage_eq ((report.pre granted).getD []) message List.not_mem_nil
      rw [List.nil_append] at put
      simp only [myErrorReporter, State.written, Call.lines, quiet, exit, Bool.false_eq_true,
        if_false]
      cases source : report.linebuf with
      | none => simp only [List.append_assoc, put]
      | some line =>
        dsimp only
        rw [List.append_assoc, List.append_assoc, ← List.append_assoc (putMessage _ _ _),
          shown_source]

/-! ### Runs of reports -/

/-- When memory is there, the prefix is null for a report without a file name and a line number
that is no warning. -/
theorem pre_isSome_iff (report : JSErrorReport) {granted : ℕ → Bool}
    (all : ∀ n, granted n = true) : (report.pre granted).isSome ↔
      report.filename.isSome ∨ report.lineno ≠ 0 ∨ report.warning = true := by
  unfold JSErrorReport.pre
  cases report.filename <;> cases report.warning <;> by_cases lineno : report.lineno = 0 <;>
    simp [all, lineno]

/-- A call with all its memory. -/
def reported (message : List UInt8) (report : JSErrorReport) : Call :=
  ⟨fun _ => true, message, some report⟩

/-- An error in a line that has no place. -/
def nowhere : JSErrorReport where
  filename := none
  lineno := 0
  linebuf := some (ascii ['x'])
  token := 0
  warning := false
  strict := false
  outOfMemory := false
  inLine := by decide

/-- How a terminal moves on: tabs stop at every eighth column. -/
def glyph (c : UInt8) : Glyph :=
  if c = 9 then .tab else if c = 10 then .newline else .plain

/-- The column behind a text. -/
def screenColumn (text : List UInt8) : ℕ := column glyph 8 0 text

theorem dots_eq (col : ℕ) {line : List UInt8} (single : 10 ∉ line) :
    dots col line = column glyph 8 col line := by
  induction line generalizing col with
  | nil => rfl
  | cons c line ih =>
    obtain ⟨here, later⟩ : 10 ≠ c ∧ 10 ∉ line := by simpa using single
    have next : (if c = 9 then (col + 8) / 8 * 8 else col + 1) = Columns.next 8 col (glyph c) := by
      unfold glyph Columns.next
      split
      · rw [Nat.add_div_right col (by decide)]
      · rw [if_neg (fun same => here same.symm)]
    rw [dots, column, next]
    exact ih _ later

theorem glyph_eq_tab {c : UInt8} : glyph c = .tab ↔ c = 9 := by
  unfold glyph
  split
  · simp [*]
  · split <;> simp [*]

theorem glyph_eq_newline {c : UInt8} : glyph c = .newline ↔ c = 10 := by
  unfold glyph
  split
  · next tab => simp [tab]
  · split <;> simp [*]

theorem screenColumn_line (before pre text : List UInt8) :
    screenColumn (before ++ 10 :: (pre ++ text)) = column glyph 8 (screenColumn pre) text := by
  rw [screenColumn, column_newline 0 before _ rfl, column_append]
  rfl

/-- The caret stands below the token, wherever it is and whatever stands before it on the terminal,
if and only if no tab comes before the token on its line or the prefix ends at a tab stop. -/
theorem caret_below_token_iff {s : State} {call : Call} {report : JSErrorReport}
    {line : List UInt8} (given : call.report = some report) (source : report.linebuf = some line)
    (loud : report.warning = true → s.reportWarnings = true) :
    ∃ pre before newline n, percentS (report.pre call.granted) = pre ∧
      let token := before ++ 10 :: (pre ++ line.take report.token)
      let caret := token ++ line.drop report.token ++ newline ++ pre ++ List.replicate n 46
      (myErrorReporter s call).err = caret ++ [94, 10] ∧
        (screenColumn caret = screenColumn token ↔
          9 ∉ line.take report.token ∨ 8 ∣ screenColumn pre) := by
  obtain ⟨pre, place⟩ : ∃ pre, percentS (report.pre call.granted) = pre := ⟨_, rfl⟩
  obtain ⟨-, single⟩ := report.inLine line source
  have clear : ∀ c ∈ line.take report.token, glyph c ≠ .newline := fun c hc newline =>
    single (glyph_eq_newline.1 newline ▸ hc)
  have quiet : (report.warning && !s.reportWarnings) = false := by
    cases warning : report.warning with
    | false => rfl
    | true => simp [loud warning]
  have split := List.take_append_drop report.token line
  refine ⟨pre, s.err ++ putMessage ((report.pre call.granted).getD []) [] call.message ++ [58],
    if line.getLast? = some 10 then [] else [10], dots 0 (line.take report.token), place, ?_, ?_⟩
  · simp only [myErrorReporter, given, quiet, source, place, Bool.false_eq_true, if_false]
    conv_lhs => rw [← split]
    simp only [caret, List.append_assoc, List.cons_append, List.nil_append, split]
  · have whole : ∀ front : List UInt8, front ++ 10 :: (pre ++ line.take report.token) ++
        line.drop report.token ++ (if line.getLast? = some 10 then [] else [10]) ++ pre ++
        List.replicate (dots 0 (line.take report.token)) 46 =
        (front ++ 10 :: (pre ++ bare line)) ++
          10 :: (pre ++ List.replicate (dots 0 (line.take report.token)) 46) := by
      intro front
      have newline : line.take report.token ++ (line.drop report.token ++
          if line.getLast? = some 10 then [] else [10]) = bare line ++ [10] := by
        rw [← List.append_assoc, split, bare_append]
      simp only [List.append_assoc, List.cons_append]
      rw [← List.append_assoc (line.drop _), ← List.append_assoc (line.take _), newline]
      simp
    have plain : ∀ c ∈ List.replicate (dots 0 (line.take report.token)) (46 : UInt8),
        glyph c = .plain := by
      intro c hc
      rw [List.eq_of_mem_replicate hc]
      rfl
    rw [whole, screenColumn_line, screenColumn_line, column_plain _ plain, List.length_replicate,
      dots_eq 0 single, eq_comm, column_eq_add_iff (by decide) (screenColumn pre) clear]
    have tabs : (∀ c ∈ line.take report.token, glyph c ≠ .tab) ↔ 9 ∉ line.take report.token :=
      ⟨fun none tab => none 9 tab rfl, fun none c hc tab => none (glyph_eq_tab.1 tab ▸ hc)⟩
    rw [tabs]

/-- A source line that begins with a tab. -/
def tabbed : List UInt8 := 9 :: ascii ['f', '(', ')', '\n']

/-- An error at its second character, `f`. -/
def behindTab : JSErrorReport where
  filename := some (ascii ['a', '.', 'j', 's'])
  lineno := 12
  linebuf := some tabbed
  token := 1
  warning := false
  strict := false
  outOfMemory := false
  inLine := by decide

theorem caret_below_token_iff_behindTab :
    ∃ pre before newline n, percentS (behindTab.pre (reported [33] behindTab).granted) = pre ∧
      let token := before ++ 10 :: (pre ++ tabbed.take behindTab.token)
      let caret := token ++ tabbed.drop behindTab.token ++ newline ++ pre ++ List.replicate n 46
      (myErrorReporter ⟨[], 0, true⟩ (reported [33] behindTab)).err = caret ++ [94, 10] ∧
        (screenColumn caret = screenColumn token ↔
          9 ∉ tabbed.take behindTab.token ∨ 8 ∣ screenColumn pre) :=
  caret_below_token_iff rfl rfl fun warning => absurd warning Bool.false_ne_true

end Sysjs.Reports
