import Sysjs.Shell.Prompt

/-!
# Sessions at the prompt

What the prompt compiles is the input, cut into the shortest runs of lines that compile.  The
invariant says where each piece of the input is: compiled, in the buffer, or still to come.
-/

set_option autoImplicit false

namespace Sysjs.Prompt

open Chunks Input Interleaving

variable {compilable : List UInt8 → Bool} {s t : State} {rows : List (List UInt8)}

/-- The buffer holds the rows, with room for their end. -/
structure Holds (s : State) (rows : List (List UInt8)) : Prop where
  empty : s.buffer = none → rows = [] ∧ s.len = 0
  held : ∀ b, s.buffer = some b → b.slice 0 s.len = joined 10 rows
  room : ∀ b, s.buffer = some b → s.len < s.size ∧ s.size ≤ b.size
  safe : ∀ b, s.buffer = some b → b.safe = true

namespace Holds

theorem text (h : Holds s rows) : s.text = joined 10 rows := by
  unfold State.text
  cases buffer : s.buffer with
  | none =>
    rw [(h.empty buffer).1]
    rfl
  | some b => exact h.held b buffer

theorem length (h : Holds s rows) : (joined 10 rows).length = s.len := by
  cases buffer : s.buffer with
  | none =>
    obtain ⟨rfl, len⟩ := h.empty buffer
    exact len.symm
  | some b => rw [← h.held b buffer, Block.slice_length]

/-- Nothing but the variables of the buffer matters. -/
theorem congr (h : Holds s rows) (buffer : t.buffer = s.buffer) (len : t.len = s.len)
    (size : t.size = s.size) : Holds t rows := by
  obtain ⟨empty, held, room, safe⟩ := h
  constructor
  · rwa [buffer, len]
  · rwa [buffer, len]
  · rwa [buffer, len, size]
  · rwa [buffer]

theorem examine (h : Holds s rows) : Holds s.examine rows := by
  constructor
  · intro none
    exact h.empty (by simpa [State.examine] using none)
  all_goals
    intro b some_b
    obtain ⟨old, buffer, rfl⟩ := Option.map_eq_some_iff.1 some_b
  · exact h.held old buffer
  · exact h.room old buffer
  · obtain ⟨inside, size⟩ := h.room old buffer
    rw [Block.touch_safe]
    refine ⟨h.safe old buffer, Block.inside_of_le le_rfl ?_⟩
    have : s.examine.len = s.len := rfl
    omega

/-- `*buffer = '\0'`, and nothing of it counts. -/
theorem emptied (h : Holds s rows) :
    Holds { s with buffer := s.buffer.map fun b : Block UInt8 => b.store 0 0, len := 0 } [] := by
  constructor
  · exact fun _ => ⟨rfl, rfl⟩
  all_goals
    intro b some_b
    obtain ⟨old, buffer, rfl⟩ := Option.map_eq_some_iff.1 some_b
    obtain ⟨inside, size⟩ := h.room old buffer
  · rfl
  · exact ⟨by dsimp only; omega, size⟩
  · rw [Block.store_safe]
    exact ⟨h.safe old buffer, Block.inside_of_le le_rfl (by omega)⟩

end Holds

/-- `strcpy` behind `p` bytes. -/
theorem strcpy_slice {b line : Block UInt8} {p : ℕ} {l : List UInt8} (clean : Clean l)
    (held : line.slice 0 l.length = l) (stop : line.cells l.length = 0)
    (inside : l.length < line.size) :
    (strcpy b p line).slice 0 (p + l.length) = b.slice 0 p ++ l ∧
      (strcpy b p line).size = b.size ∧
      ((strcpy b p line).safe = true ↔ b.safe = true ∧ Block.Inside b.size p (l.length + 1)) := by
  have count : strlen line 0 = l.length :=
    strlen_of_slice clean (by exact_mod_cast held) (by omega) (by rwa [Nat.zero_add])
  simp only [strcpy, count, held]
  refine ⟨?_, rfl, ?_⟩
  · rw [Block.slice_add, Block.slice_blit_before _ _ (by omega), Block.slice_touch, Int.zero_add]
    congr 1
    have written := Block.slice_blit_self (b.touch p (l.length + 1)) p (l ++ [0])
    rw [List.length_append, List.length_singleton, Block.slice_succ] at written
    exact (List.append_inj written (by simp)).1
  · rw [Block.blit_safe, Block.touch_safe]

/-- The buffer that `realloc` makes out of one that is too small holds the same. -/
theorem grown_holds {b : Block UInt8} {len size : ℕ} (need : ℕ)
    (room : len < size ∧ size ≤ b.size) :
    ∃ b' size',
      (if size < need then b.realloc (if size * 2 < need then need else size * 2) else b) = b' ∧
      (if size < need then (if size * 2 < need then need else size * 2) else size) = size' ∧
      b'.slice 0 len = b.slice 0 len ∧ need ≤ size' ∧ size' ≤ b'.size ∧ b'.safe = b.safe := by
  obtain ⟨inside, fits⟩ := room
  refine ⟨_, _, rfl, rfl, ?_⟩
  split
  · refine ⟨?_, ?_, le_rfl, rfl⟩
    · refine Block.slice_eq_of_cells fun i hi => Block.realloc_cells _ (by omega) (by omega) ?_
      split <;> omega
    · split <;> omega
  · exact ⟨rfl, by omega, fits, rfl⟩

/-- A line is put behind the rows of the buffer, or there is no room for it. -/
theorem addLine_holds (h : Holds s rows) (numbered : s.lineno = s.startline + rows.length)
    (open_row : rows ≠ [[]]) {line : Block UInt8} {l : List UInt8} (clean : Clean l)
    (held : line.slice 0 l.length = l) (stop : line.cells l.length = 0)
    (inside : l.length < line.size) (safe : line.safe = true) (room : Bool) :
    (s.addLine line room = none ∧ room = false) ∨
    ∃ b len size, s.addLine line room =
        some { s with buffer := some b, len := len, size := size } ∧
      Holds { s with buffer := some b, len := len, size := size } (rows ++ [l]) := by
  have count : strlen line 0 = l.length :=
    strlen_of_slice clean (by exact_mod_cast held) (by omega) (by rwa [Nat.zero_add])
  have length := h.length
  cases buffer : s.buffer with
  | none =>
    obtain ⟨rfl, -⟩ := h.empty buffer
    refine Or.inr ⟨line, l.length, l.length + 1, ?_,
      fun none => absurd none (Option.some_ne_none _), ?_, ?_, ?_⟩
    · simp only [State.addLine, buffer, count]
    all_goals
      intro b same
      obtain rfl := Option.some.inj same
    · exact held
    · exact ⟨Nat.lt_succ_self _, inside⟩
    · exact safe
  | some b =>
    have newline : (s.startline = s.lineno ∧ rows = [] ∧ s.len = 0) ∨
        (s.startline ≠ s.lineno ∧ rows ≠ [] ∧ s.len ≠ 0) := by
      by_cases none : rows = []
      · subst none
        exact Or.inl ⟨numbered.symm, rfl, length.symm⟩
      · have := List.length_pos_iff.2 none
        refine Or.inr ⟨by omega, none, fun empty => ?_⟩
        rcases joined_eq_nil (List.eq_nil_of_length_eq_zero (length.trans empty)) with h | h
        · exact none h
        · exact open_row h
    have read : (line.touch 0 (l.length + 1)).safe = true := by
      rw [Block.touch_safe]
      exact ⟨safe, Block.inside_of_le le_rfl (by omega)⟩
    rcases newline with ⟨first, rfl, empty⟩ | ⟨later, some_row, more⟩
    · have newlen : (if s.len ≠ 0 then s.len + 1 else 0) = 0 := if_neg (not_not.2 empty)
      obtain ⟨b', size', grow_b, grow_size, same, enough, fits, still⟩ :=
        grown_holds (l.length + 0 + 1) (h.room b buffer)
      simp only [State.addLine, buffer, count, decide_eq_true_eq, read, Bool.and_true, newlen,
        if_pos first, grow_b, grow_size]
      split
      · next refused => exact Or.inl ⟨rfl, by simpa using refused.2⟩
      · obtain ⟨text, size, accesses⟩ := strcpy_slice (b := b') (p := s.len) clean held stop inside
        refine Or.inr ⟨_, _, _, rfl, fun none => absurd none (Option.some_ne_none _), ?_, ?_, ?_⟩
        all_goals
          intro c made
          obtain rfl := Option.some.inj made
        · rw [empty] at text ⊢
          simpa [joined] using text
        · rw [size]
          exact ⟨enough, fits⟩
        · refine accesses.2 ⟨still.trans (h.safe b buffer), Block.inside_of_le (by omega) ?_⟩
          omega
    · have newlen : (if s.len ≠ 0 then s.len + 1 else 0) = s.len + 1 := if_pos more
      obtain ⟨b', size', grow_b, grow_size, same, enough, fits, still⟩ :=
        grown_holds (l.length + (s.len + 1) + 1) (h.room b buffer)
      simp only [State.addLine, buffer, count, decide_eq_true_eq, read, Bool.and_true, newlen,
        if_neg later, grow_b, grow_size]
      split
      · next refused => exact Or.inl ⟨rfl, by simpa using refused.2⟩
      · obtain ⟨text, size, accesses⟩ :=
          strcpy_slice (b := b'.store s.len 10) (p := s.len + 1) clean held stop inside
        refine Or.inr ⟨_, _, _, rfl, fun none => absurd none (Option.some_ne_none _), ?_, ?_, ?_⟩
        all_goals
          intro c made
          obtain rfl := Option.some.inj made
        · rw [Nat.add_comm l.length, text, Block.slice_succ, Int.zero_add, Block.store_cells_self,
            Block.slice_store_ne _ _ (by omega), same, h.held b buffer, joined_concat 10 some_row,
            List.append_assoc, List.singleton_append]
        · rw [size]
          exact ⟨enough, fits⟩
        · rw [accesses, Block.store_safe, Block.store_size]
          exact ⟨⟨still.trans (h.safe b buffer), Block.inside_of_le (by omega) (by omega)⟩,
            Block.inside_of_le (by omega) (by omega)⟩

/-- What is known of the lines that the buffer holds: they come behind the scripts so far, and the
rest of the input behind them. -/
structure Pending (compilable : List UInt8 → Bool) (input : List UInt8) (s : State)
    (stream : List UInt8) (rows : List (List UInt8)) : Prop where
  session : Session compilable input s.compiled stream s.startline
  lines : Rows isNl stream rows s.file.bytes
  numbered : s.lineno = s.startline + rows.length
  holds : Holds s rows
  first : Open compilable rows
  clean : Clean s.file.bytes

/-- What the scripts compiled so far have to do with the input: all of them are units of it and the
buffer holds what comes next; or the last one was cut off. -/
inductive Account (compilable : List UInt8 → Bool) (input : List UInt8) (s : State) : Prop where
  | whole {stream : List UInt8} {lineno : ℕ}
      (session : Session compilable input s.compiled stream lineno)
      (kept : s.place ≠ .failed →
        ∃ rows, Rows isNl stream rows s.file.bytes ∧ s.text = joined 10 rows)
  | cut {scripts : List Script} {stream : List UInt8} {lineno : ℕ} {rows : List (List UInt8)}
      {last : Script} (session : Session compilable input scripts stream lineno)
      (all : s.compiled = scripts ++ [last]) (text : last.text = joined 10 rows)
      (number : last.startline = lineno)
      (lines : Rows isNl stream rows (last.eaten ++ s.file.bytes))
      (first : Open compilable rows)

def Inv (compilable : List UInt8 → Bool) (input : List UInt8) (s : State) : Prop :=
  s.safe = true ∧ match s.place with
  | .reading => s.hitEOF = false ∧ ∃ stream rows, Pending compilable input s stream rows ∧
      (rows ≠ [] → compilable (joined 10 rows) = false)
  | .compiling => ∃ stream rows, Pending compilable input s stream rows ∧
      (s.hitEOF = false → rows ≠ [] ∧ compilable (joined 10 rows) = true) ∧
      (s.hitEOF = true → s.unwatched = true ∨ s.file.bytes = [])
  | .finished => s.buffer = none ∧ Account compilable input s ∧
      (s.quitting = true ∨ s.unwatched = true ∨ s.file.bytes = [])
  | .failed => s.buffer = none ∧ ∃ stream lineno, Session compilable input s.compiled stream lineno

theorem open_concat (first : Open compilable rows)
    (short : rows ≠ [] → compilable (joined 10 rows) = false) (l : List UInt8) :
    Open compilable (rows ++ [l]) := by
  intro front some_row early less
  rcases List.prefix_concat_iff.1 early with all | within
  · exact absurd all less
  · by_cases same : front = rows
    · subst same
      exact short some_row
    · exact first front some_row within same

theorem open_nil : Open compilable [] :=
  fun _ some_row early _ => absurd (List.prefix_nil.1 early) some_row

variable {input : List UInt8}

theorem Inv.init (compilable : List UInt8 → Bool) {file : File} (clean : Clean file.bytes) :
    Inv compilable file.bytes (.init file) :=
  ⟨rfl, rfl, file.bytes, [],
    ⟨.start, .none _, rfl, ⟨fun _ => ⟨rfl, rfl⟩, nofun, nofun, nofun⟩, open_nil, clean⟩,
    fun some_row => absurd rfl some_row⟩

theorem leave_safe (own : ∀ b, s.buffer = some b → b.safe = true) (safe : s.safe = true)
    (place : Place) : (s.leave place).safe = true := by
  cases buffer : s.buffer with
  | none => simp [State.leave, safe, buffer]
  | some b => simp [State.leave, safe, buffer, own b buffer]

theorem line_inv (blank : compilable [] = true) (inv : Inv compilable input s)
    (place : s.place = .reading) {grants : ℕ → Bool} {g : Got}
    (call : Fulfils grants s.file.bytes s.file.broken g) (room watched : Bool) :
    Inv compilable input (s.line compilable g room watched) := by
  obtain ⟨safe, body⟩ := inv
  rw [place] at body
  obtain ⟨unended, stream, rows, pending, short⟩ := body
  have safe : (s.safe && g.safe) = true := by rw [safe, call.safe, Bool.and_self]
  have holds : Holds { s with file := g.file, safe := s.safe && g.safe } rows :=
    pending.holds.congr rfl rfl rfl
  cases call.served with
  | failed line errno =>
    simp only [State.line, line, errno, if_true]
    exact ⟨leave_safe holds.safe safe _, rfl, stream, _, pending.session⟩
  | ended line errno nothing left =>
    have same : g.file.bytes = s.file.bytes := left.trans nothing.symm
    have lines : Rows isNl stream rows g.file.bytes := by
      rw [same]
      exact pending.lines
    simp only [State.line, line, errno, Bool.false_eq_true, if_false]
    cases buffer : s.buffer with
    | none =>
      obtain ⟨rfl, -⟩ := pending.holds.empty buffer
      refine ⟨by simp [State.leave, safe], rfl, ?_, Or.inr (Or.inr left)⟩
      exact .whole pending.session fun _ => ⟨[], lines, rfl⟩
    | some b =>
      refine ⟨safe, stream, rows, ⟨pending.session, lines, pending.numbered, ?_, pending.first, ?_⟩,
        nofun, fun _ => Or.inr left⟩
      · exact pending.holds.congr buffer.symm rfl rfl
      · rw [Option.isNone_some, if_neg Bool.false_ne_true]
        exact left ▸ nofun
  | line b l line some_left first held stop inside own =>
    obtain ⟨front, behind⟩ := firstLine_parts isNl s.file.bytes
    rw [first] at front behind
    have open_row : rows ≠ [[]] := by
      rintro rfl
      have := short nofun
      rw [show joined 10 [([] : List UInt8)] = [] from rfl, blank] at this
      cases this
    simp only [State.line, line]
    have clear : Clean l := fun x hx => pending.clean x (front.subset hx)
    rcases addLine_holds holds pending.numbered open_row clear held stop inside own room with
      ⟨full, -⟩ | ⟨c, len, size, added, holds⟩
    · rw [full]
      exact ⟨leave_safe holds.safe safe _, rfl, stream, _, pending.session⟩
    · rw [added]
      have next {t : State} (compiled : t.compiled = s.compiled)
          (startline : t.startline = s.startline) (lineno : t.lineno = s.lineno + 1)
          (file : t.file = g.file) (holds : Holds t (rows ++ [l])) :
          Pending compilable input t stream (rows ++ [l]) := by
        refine ⟨?_, ?_, ?_, holds, open_concat pending.first short l, ?_⟩
        · rw [compiled, startline]
          exact pending.session
        · rw [file]
          exact pending.lines.next some_left first
        · rw [lineno, startline, pending.numbered, List.length_append]
          rfl
        · rw [file]
          exact fun x hx => pending.clean x (behind.subset hx)
      cases watched with
      | false =>
        exact ⟨safe, stream, _, next rfl rfl rfl rfl (holds.congr rfl rfl rfl), nofun,
          fun _ => Or.inl rfl⟩
      | true =>
        have examined := (holds.congr rfl rfl rfl : Holds
          { s with
            file := g.file, safe := s.safe && g.safe, buffer := some c, len := len, size := size,
            lineno := s.lineno + 1 } (rows ++ [l])).examine
        simp only [if_true, examined.text]
        split
        · next whole =>
          exact ⟨safe, stream, _, next rfl rfl rfl rfl (examined.congr rfl rfl rfl),
            fun _ => ⟨by simp, whole⟩, fun ended => absurd (unended.symm.trans ended) nofun⟩
        · next part =>
          refine ⟨safe, ?_⟩
          simp only [State.examine, place]
          exact ⟨unended, stream, _, next rfl rfl rfl rfl (examined.congr rfl rfl rfl),
            fun _ => by simpa using part⟩

theorem script_inv (inv : Inv compilable input s) (place : s.place = .compiling) (eaten : ℕ)
    (quits : Bool) : Inv compilable input (s.script eaten quits) := by
  obtain ⟨safe, body⟩ := inv
  rw [place] at body
  obtain ⟨stream, rows, pending, unended, ended⟩ := body
  have examined := pending.holds.examine
  have taken : Rows isNl stream rows (s.file.bytes.take eaten ++ s.file.bytes.drop eaten) := by
    rw [List.take_append_drop]
    exact pending.lines
  simp only [State.script, examined.text]
  cases hitEOF : s.examine.hitEOF with
  | true =>
    rw [if_pos (Or.inl rfl)]
    refine ⟨leave_safe examined.emptied.safe safe .finished, rfl, ?_, Or.inr ?_⟩
    · exact .cut pending.session rfl rfl rfl taken pending.first
    · refine (ended hitEOF).imp id fun none_left => ?_
      simp [State.leave, State.examine, none_left]
  | false =>
    obtain ⟨some_row, whole⟩ := unended hitEOF
    have session := Session.script pending.session some_row taken pending.first whole
    cases quits with
    | true =>
      rw [if_pos (Or.inr rfl)]
      refine ⟨leave_safe examined.emptied.safe safe .finished, rfl, ?_, Or.inl rfl⟩
      exact .whole session fun _ => ⟨[], .none _, rfl⟩
    | false =>
      rw [if_neg (by simp)]
      refine ⟨safe, rfl, _, [], ⟨?_, .none _, rfl, ?_, open_nil, ?_⟩, fun h => absurd rfl h⟩
      · rw [State.examine, pending.numbered]
        exact session
      · exact examined.emptied.congr rfl rfl rfl
      · exact fun x hx => pending.clean x (List.drop_subset _ _ hx)

theorem step_inv (blank : compilable [] = true) {m : Move} (inv : Inv compilable input s)
    (h : step compilable s m = some t) : Inv compilable input t := by
  cases m with
  | line grants heap room watched =>
    simp only [step] at h
    split at h
    · next place =>
      have body := inv.2
      rw [place] at body
      obtain ⟨-, stream, rows, pending, -⟩ := body
      obtain ⟨g, got, call⟩ := getLine_fulfils grants heap pending.clean
      rw [got, Option.map_some, Option.some.injEq] at h
      rw [← h]
      exact line_inv blank inv place call room watched
    · cases h
  | script eaten quits =>
    simp only [step] at h
    split at h
    · next place =>
      rw [← Option.some.inj h]
      exact script_inv inv place eaten quits
    · cases h

theorem Inv.account (inv : Inv compilable input s) : Account compilable input s := by
  obtain ⟨-, body⟩ := inv
  cases place : s.place with
  | reading =>
    rw [place] at body
    obtain ⟨-, stream, rows, pending, -⟩ := body
    exact .whole pending.session fun _ => ⟨rows, pending.lines, pending.holds.text⟩
  | compiling =>
    rw [place] at body
    obtain ⟨stream, rows, pending, -⟩ := body
    exact .whole pending.session fun _ => ⟨rows, pending.lines, pending.holds.text⟩
  | finished =>
    rw [place] at body
    exact body.2.1
  | failed =>
    rw [place] at body
    obtain ⟨-, stream, lineno, session⟩ := body
    exact .whole session fun other => absurd place other

theorem Inv.buffer_safe (inv : Inv compilable input s) (b : Block UInt8)
    (buffer : s.buffer = some b) : b.safe = true := by
  obtain ⟨-, body⟩ := inv
  cases place : s.place with
  | reading =>
    rw [place] at body
    obtain ⟨-, stream, rows, pending, -⟩ := body
    exact pending.holds.safe b buffer
  | compiling =>
    rw [place] at body
    obtain ⟨stream, rows, pending, -⟩ := body
    exact pending.holds.safe b buffer
  | finished | failed =>
    rw [place] at body
    rw [body.1] at buffer
    cases buffer

/-- A text compiles when its parentheses match in number. -/
def balanced (text : List UInt8) : Bool := text.count 40 == text.count 41

/-- A line at the prompt, with nothing refused. -/
def typed : Move := .line (fun _ => true) (fun _ _ => 0) true true

/-- A script of two lines, and one that calls `quit`. -/
def twoScripts : List Move := [typed, typed, .script 0 false, typed, .script 0 true]

/-- What can still be read and compiled. -/
def State.left (s : State) : ℕ :=
  match s.place with
  | .reading => 2 * s.file.bytes.length + 2
  | .compiling => 2 * s.file.bytes.length + if s.hitEOF then 1 else 3
  | .finished | .failed => 0

theorem addLine_file {line : Block UInt8} {room : Bool} (added : s.addLine line room = some t) :
    t.file = s.file ∧ t.hitEOF = s.hitEOF ∧ t.place = s.place := by
  cases buffer : s.buffer with
  | none =>
    simp only [State.addLine, buffer, Option.some.injEq] at added
    obtain rfl := added
    exact ⟨rfl, rfl, rfl⟩
  | some b =>
    simp only [State.addLine, buffer, Option.ite_none_left_eq_some, Option.some.injEq] at added
    obtain ⟨-, rfl⟩ := added
    exact ⟨rfl, rfl, rfl⟩

theorem addLine_granted (s : State) (line : Block UInt8) : s.addLine line true ≠ none := by
  cases buffer : s.buffer <;> simp [State.addLine, buffer]

theorem line_left (place : s.place = .reading) (unended : s.hitEOF = false) {grants : ℕ → Bool}
    {g : Got} (call : Fulfils grants s.file.bytes s.file.broken g) (room watched : Bool) :
    (s.line compilable g room watched).left < s.left := by
  have start : s.left = 2 * s.file.bytes.length + 2 := by simp only [State.left, place]
  rw [start]
  cases call.served with
  | failed line errno =>
    simp only [State.line, line, errno, if_true, State.leave, State.left]
    omega
  | ended line errno nothing left =>
    simp only [State.line, line, errno, Bool.false_eq_true, if_false]
    split
    · simp only [State.leave, State.left]
      omega
    · simp only [State.left, left, if_true]
      simp
  | line b l line some_left first =>
    have less := length_firstLine_lt isNl some_left
    rw [first] at less
    simp only [State.line, line]
    split
    · simp only [State.leave, State.left]
      omega
    · next t added =>
      obtain ⟨file, ended, kept⟩ := addLine_file added
      dsimp only at less file ended kept
      split
      · split
        · simp only [State.left, State.examine, file, ended, unended, Bool.false_eq_true, if_false]
          omega
        · simp only [State.left, State.examine, file, kept, place]
          omega
      · simp only [State.left, file, if_true]
        omega

theorem script_left (place : s.place = .compiling) (eaten : ℕ) (quits : Bool) :
    (s.script eaten quits).left < s.left := by
  have dropped := List.length_drop (i := eaten) (l := s.file.bytes)
  simp only [State.script]
  split
  · simp only [State.leave, State.left, place]
    split <;> omega
  · next on =>
    have unended : s.hitEOF = false := by simpa [State.examine] using (not_or.1 on).1
    simp only [State.left, State.examine, place, unended, Bool.false_eq_true, if_false]
    omega

theorem step_left (inv : Inv compilable input s) {m : Move} (h : step compilable s m = some t) :
    t.left < s.left := by
  have body := inv.2
  cases m with
  | line grants heap room watched =>
    simp only [step] at h
    split at h
    · next place =>
      rw [place] at body
      obtain ⟨unended, stream, rows, pending, -⟩ := body
      obtain ⟨g, got, call⟩ := getLine_fulfils grants heap pending.clean
      rw [got, Option.map_some, Option.some.injEq] at h
      rw [← h]
      exact line_left place unended call room watched
    · cases h
  | script eaten quits =>
    simp only [step] at h
    split at h
    · next place =>
      rw [← Option.some.inj h]
      exact script_left place eaten quits
    · cases h

/-- Only an allocation or the file itself makes the prompt fail. -/
theorem step_granted (blank : compilable [] = true)
    (known : Inv compilable input s ∧ s.place ≠ .failed ∧ s.file.broken = false) {m : Move}
    (granted : m.Granted) (h : step compilable s m = some t) :
    Inv compilable input t ∧ t.place ≠ .failed ∧ t.file.broken = false := by
  obtain ⟨inv, unfailed, whole⟩ := known
  refine ⟨step_inv blank inv h, ?_⟩
  have body := inv.2
  cases m with
  | line grants heap room watched =>
    obtain ⟨all, rfl⟩ := granted
    simp only [step] at h
    split at h
    · next place =>
      rw [place] at body
      obtain ⟨unended, stream, rows, pending, -⟩ := body
      obtain ⟨g, got, call⟩ := getLine_fulfils grants heap pending.clean
      rw [got, Option.map_some, Option.some.injEq] at h
      have fine := call.sound all whole
      have file := call.broken.trans whole
      rw [← h]
      cases call.served with
      | failed line errno => exact absurd (fine.symm.trans errno) Bool.false_ne_true
      | ended line errno nothing left =>
        simp only [State.line, line, errno, Bool.false_eq_true, if_false]
        split
        · exact ⟨nofun, file⟩
        · exact ⟨nofun, file⟩
      | line b l line =>
        simp only [State.line, line]
        split
        · next refused => exact absurd refused (addLine_granted _ b)
        · next u added =>
          obtain ⟨same, -, kept⟩ := addLine_file added
          dsimp only at same kept
          rw [← same] at file
          rw [← kept] at unfailed
          split
          · split
            · exact ⟨nofun, file⟩
            · exact ⟨unfailed, file⟩
          · exact ⟨nofun, file⟩
    · cases h
  | script eaten quits =>
    simp only [step] at h
    split at h
    · next place =>
      rw [← Option.some.inj h, State.script]
      dsimp only
      split
      · exact ⟨nofun, whole⟩
      · exact ⟨nofun, whole⟩
    · cases h

/-- A session comes to its end, after at most two moves for each byte of the input and two more;
until then the prompt reads a line or compiles a script.  When memory and the file are there, it
does not fail.  Input and engine are as above. -/
theorem prompt_ends (compilable : List UInt8 → Bool) (blank : compilable [] = true) (file : File)
    (clean : Clean file.bytes) (moves : List Move) (s : State)
    (run : exec (step compilable) (.init file) moves = some s) :
    moves.length ≤ 2 * file.bytes.length + 2 ∧
      (s.place = .reading → ∀ grants heap room watched,
        (step compilable s (.line grants heap room watched)).isSome = true) ∧
      (s.place = .compiling → ∀ eaten quits,
        (step compilable s (.script eaten quits)).isSome = true) ∧
      ((∀ m ∈ moves, m.Granted) → file.broken = false → s.place ≠ .failed) := by
  have start := Inv.init compilable clean
  have inv : Inv compilable file.bytes s :=
    exec_inv (Inv compilable file.bytes) (fun _ _ _ => step_inv blank) start run
  refine ⟨?_, fun place grants heap room watched => ?_, fun place eaten quits => ?_,
    fun granted whole => ?_⟩
  · have short := length_le (Inv compilable file.bytes) (fun _ _ _ => step_inv blank) State.left
      (fun _ => false) 0 (fun _ _ _ inv h _ => step_left inv h)
      (fun _ _ _ _ _ idle => absurd idle Bool.false_ne_true) start run
    have none_idle : moves.countP (fun _ => false) = 0 := List.countP_eq_zero.2 nofun
    have all : (State.init file).left = 2 * file.bytes.length + 2 := rfl
    omega
  · have body := inv.2
    rw [place] at body
    obtain ⟨-, stream, rows, pending, -⟩ := body
    obtain ⟨g, got, -⟩ := getLine_fulfils grants heap pending.clean
    simp [step, place, got]
  · simp [step, place]
  · have known := exec_inv_of_forall
      (fun s => Inv compilable file.bytes s ∧ s.place ≠ .failed ∧ s.file.broken = false)
      Move.Granted (fun _ _ _ known granted h => step_granted blank known granted h)
      ⟨start, nofun, whole⟩ granted run
    exact known.2.1

theorem prompt_ends_two_scripts :
    ∃ s, exec (step balanced) (.init ⟨[40, 10, 41, 10, 65], false⟩) twoScripts = some s ∧
      twoScripts.length ≤ 2 * 5 + 2 ∧
      (s.place = .reading → ∀ grants heap room watched,
        (step balanced s (.line grants heap room watched)).isSome = true) ∧
      (s.place = .compiling → ∀ eaten quits,
        (step balanced s (.script eaten quits)).isSome = true) ∧
      ((∀ m ∈ twoScripts, m.Granted) → false = false → s.place ≠ .failed) :=
  ⟨_, rfl, prompt_ends balanced rfl ⟨[40, 10, 41, 10, 65], false⟩ (by simp [Clean, isNul])
    twoScripts _ rfl⟩

end Sysjs.Prompt
