import Sysjs.Ape.Handshake
import Sysjs.Socket.Lines
import Mathlib.Algebra.BigOperators.Group.List.Basic
import Mathlib.Algebra.Order.Ring.Int
import Mathlib.Tactic.Ring

/-!
# The HTTP client

`request` of `test_http_client.js` reads a response line by line and counts two bytes for the end of
every line.  `read` is taken to return the lines of the response, and `false` where the connection
ends, be it within a line.
-/

set_option autoImplicit false

namespace Sysjs.Http

open Ape

/-- What a call of `read` comes to: a line, `false` where the connection ends, or an exception. -/
inductive Read where
  | line (l : Str)
  | ended
  | throws

/-- The fields of a `Get` that `request` changes. -/
structure Get where
  inHeader : Bool
  headers : Strings
  body : Str

/-- A new `Get`. -/
def Get.start : Get := ⟨true, fun _ => none, []⟩

/-- How `request` ends: it waits for more, it has closed the Socket, or it has caught an
exception. -/
inductive End where
  | waiting
  | closed
  | caught
  deriving DecidableEq

/-- How `request` ends, what it leaves, and what it has not read. -/
structure Result where
  how : End
  get : Get
  unread : List Read

/-- `len > 0`, where `none` is `NaN`. -/
def more (len : Option ℤ) : Bool := len.any (0 < ·)

/-- `while (len>0 && this.connected)`; nothing clears `connected`.  A `false` has no length. -/
def bodyLoop : Get → Option ℤ → List Read → Result
  | g, len, [] => ⟨if more len then .waiting else .closed, g, []⟩
  | g, len, r :: reads =>
    if more len then
      match r with
      | .line l =>
        bodyLoop { g with body := g.body ++ l } (len.map (· - (l.length + 2))) reads
      | .ended => bodyLoop { g with body := g.body ++ "false".toList } none reads
      | .throws => ⟨.caught, g, reads⟩
    else ⟨.closed, g, r :: reads⟩

variable (o : Setters) (parseInt : Option Str → Option ℤ)

/-- `parseInt(this.headers['Content-Length'])`. -/
def Get.contentLength (g : Get) : Option ℤ := parseInt (g.headers "Content-Length".toList)

/-- `while (this.connected && this.inHeader)`, and what follows it. -/
def headerLoop : Get → List Read → Result
  | g, [] => if g.inHeader then ⟨.waiting, g, []⟩ else bodyLoop g (g.contentLength parseInt) []
  | g, r :: reads =>
    if g.inHeader then
      match r with
      | .line l =>
        if l.length = 0 then headerLoop { g with inHeader := false } reads
        else
          let h := (l.splitOn ':').take 2
          headerLoop { g with headers := o.put g.headers (h[0]?.getD []) h[1]? } reads
      | .ended => ⟨.caught, g, reads⟩
      | .throws => ⟨.caught, g, reads⟩
    else bodyLoop g (g.contentLength parseInt) (r :: reads)

/-- `request`; `sent` says whether it gets as far as the first `read`. -/
def request (g : Get) (sent : Bool) (reads : List Read) : Result :=
  if sent then headerLoop o parseInt g reads else ⟨.caught, g, reads⟩

/-! ### Responses -/

/-- The string that is made of some bytes. -/
def chars (bytes : List UInt8) : Str := bytes.map fun b => Char.ofNat b.toNat

/-- A line with its end: a carriage return and a newline, or a newline alone. -/
structure Line where
  text : List UInt8
  crlf : Bool
  clear : ∀ c ∈ text, isNl c = false
  bare : crlf = false → chomp text = text

/-- Its bytes. -/
def Line.bytes (l : Line) : List UInt8 := l.text ++ if l.crlf then [13, 10] else [10]

def Line.read (l : Line) : Read := .line (chars l.text)

/-- What the lines take of `len`. -/
def spent (lines : List Line) : ℕ := (lines.map fun l => l.text.length + 2).sum

def texts (lines : List Line) : Str := lines.flatMap fun l => chars l.text

/-- How many lines end with a newline alone. -/
def bareEnds (lines : List Line) : ℕ := lines.countP fun l => !l.crlf

/-- The headers that these lines leave. -/
def collected (kept : Strings) : List Line → Strings
  | [] => kept
  | l :: headers =>
    let h := ((chars l.text).splitOn ':').take 2
    collected (o.put kept (h[0]?.getD []) h[1]?) headers

/-- A body: whole lines, and what stands behind the last one. -/
def body (lines : List Line) (tail : List UInt8) : List UInt8 := lines.flatMap Line.bytes ++ tail

/-- A response: the lines of its header, an empty one, and its body. -/
def response (headers : List Line) (blank : Line) (lines : List Line) (tail : List UInt8) :
    List UInt8 :=
  headers.flatMap Line.bytes ++ (blank.bytes ++ body lines tail)

/-- What `read` returns of a stream, and then `later`. -/
def received (stream : List UInt8) (later : List Read) : List Read :=
  (Sysjs.lines stream).map (fun l => Read.line (chars l)) ++ later

/-- Fewer of the lines before the last one end with a newline alone than the last one and what
stands behind it have bytes. -/
def Counted (lines : List Line) (tail : List UInt8) : Prop :=
  ∀ front last, lines = front ++ [last] → bareEnds front < last.bytes.length + tail.length

/-! ### The lines that come -/

theorem lines_bytes (l : Line) (rest : List UInt8) :
    Sysjs.lines (l.bytes ++ rest) = l.text :: Sysjs.lines rest := by
  rw [Line.bytes]
  cases crlf : l.crlf with
  | false =>
    have cut : Sysjs.lines (l.text ++ 10 :: rest) = _ := lines_append_cons l.clear rfl
    rw [l.bare crlf] at cut
    rw [if_neg Bool.false_ne_true, List.append_assoc]
    exact cut
  | true =>
    have clear : ∀ c ∈ l.text ++ [13], isNl c = false := fun c hc =>
      (List.mem_append.1 hc).elim (l.clear c) fun last => by
        rw [List.mem_singleton.1 last]
        rfl
    have cut : Sysjs.lines ((l.text ++ [13]) ++ 10 :: rest) = _ := lines_append_cons clear rfl
    rw [chomp_append_singleton, if_pos (show isCr (13 : UInt8) = true from rfl)] at cut
    rw [if_pos rfl, ← cut]
    simp

theorem lines_flatMap (ls : List Line) (rest : List UInt8) :
    Sysjs.lines (ls.flatMap Line.bytes ++ rest) = ls.map Line.text ++ Sysjs.lines rest := by
  induction ls with
  | nil => rfl
  | cons l ls ih => rw [List.flatMap_cons, List.append_assoc, lines_bytes, ih, List.map_cons,
      List.cons_append]

theorem lines_of_clear {tail : List UInt8} (clear : ∀ c ∈ tail, isNl c = false) :
    Sysjs.lines tail = [] := by
  rw [Sysjs.lines, List.splitOnP_eq_singleton clear]
  rfl

/-- An unfinished line is never returned. -/
theorem received_response (headers : List Line) {blank : Line} (empty : blank.text = [])
    (lines : List Line) {tail : List UInt8} (clear : ∀ c ∈ tail, isNl c = false)
    (later : List Read) : received (response headers blank lines tail) later =
      headers.map Line.read ++ .line [] :: (lines.map Line.read ++ later) := by
  rw [received, response, lines_flatMap, lines_bytes, body, lines_flatMap, lines_of_clear clear,
    empty, List.append_nil, List.map_append, List.map_cons, List.map_map, List.map_map,
    List.append_assoc]
  rfl

/-- The strings that `read` returns on a new Socket are the first of those lines, as long as each
call finds its line. -/
theorem reads_received (heap : ℕ → ℤ → UInt8) (fd : ℤ) (k : Kernel UInt8)
    (clean : ∀ c ∈ k.pending fd, isNul c = false) (calls : List (List Answer))
    (reads : Runs.Guarded jsSockRead ReadsLine (St.start heap [.int fd] k) calls) :
    (strings (Runs.results jsSockRead (St.start heap [.int fd] k) calls)).map
        (fun l => Read.line (chars l)) <+: received (k.pending fd) [] := by
  rw [received, List.append_nil]
  exact ((AtLine.start heap fd clean).run reads).map _

/-! ### The body -/

@[simp] theorem more_some (len : ℤ) : more (some len) = decide (0 < len) := rfl

@[simp] theorem more_none : more none = false := rfl

theorem bodyLoop_stop (g : Get) {len : Option ℤ} (enough : more len = false)
    (reads : List Read) : bodyLoop g len reads = ⟨.closed, g, reads⟩ := by
  cases reads <;> simp [bodyLoop, enough]

theorem bodyLoop_line (g : Get) {len : ℤ} (wants : 0 < len) (l : Str) (reads : List Read) :
    bodyLoop g (some len) (.line l :: reads) =
      bodyLoop { g with body := g.body ++ l } (some (len - (l.length + 2))) reads := by
  rw [bodyLoop, if_pos (by simpa using wants)]
  rfl

@[simp] theorem length_chars (bytes : List UInt8) : (chars bytes).length = bytes.length :=
  List.length_map _

theorem spent_cons (l : Line) (lines : List Line) :
    spent (l :: lines) = l.text.length + 2 + spent lines := List.sum_cons

theorem spent_append (front back : List Line) :
    spent (front ++ back) = spent front + spent back := by
  rw [spent, List.map_append, List.sum_append]
  rfl

/-- The loop takes lines until they have used up `len`, or there are no more. -/
theorem bodyLoop_lines (g : Get) (len : ℤ) (lines : List Line) (later : List Read) :
    ∃ k ≤ lines.length, (∀ j < k, (spent (lines.take j) : ℤ) < len) ∧
      (k < lines.length → len ≤ spent (lines.take k)) ∧
      bodyLoop g (some len) (lines.map Line.read ++ later) =
        bodyLoop { g with body := g.body ++ texts (lines.take k) }
          (some (len - spent (lines.take k))) ((lines.drop k).map Line.read ++ later) := by
  induction lines generalizing g len with
  | nil =>
    exact ⟨0, le_rfl, fun j less => absurd less (Nat.not_lt_zero j),
      fun less => absurd less (Nat.lt_irrefl 0), by simp [texts, spent]⟩
  | cons l lines ih =>
    by_cases wants : 0 < len
    · obtain ⟨k, le, before, enough, taken⟩ :=
        ih { g with body := g.body ++ chars l.text } (len - (l.text.length + 2))
      refine ⟨k + 1, Nat.succ_le_succ le, fun j less => ?_, fun less => ?_, ?_⟩
      · cases j with
        | zero => simpa [spent] using wants
        | succ j =>
          have := before j (Nat.lt_of_succ_lt_succ less)
          rw [List.take_succ_cons, spent_cons]
          push_cast
          omega
      · have := enough (Nat.lt_of_succ_lt_succ less)
        rw [List.take_succ_cons, spent_cons]
        push_cast
        omega
      · rw [List.map_cons, List.cons_append, Line.read, bodyLoop_line g wants, length_chars, taken,
          List.take_succ_cons, List.drop_succ_cons, spent_cons, texts, texts, List.flatMap_cons,
          List.append_assoc]
        congr 2
        push_cast
        ring
    · exact ⟨0, Nat.zero_le _, fun j less => absurd less (Nat.not_lt_zero j),
        fun _ => by simpa [spent] using wants, by simp [texts, spent]⟩

theorem length_body (lines : List Line) (tail : List UInt8) :
    (body lines tail).length = (body lines []).length + tail.length := by
  rw [body, body, List.append_nil, List.length_append]

theorem length_body_append (front back : List Line) :
    (body (front ++ back) []).length = (body front []).length + (body back []).length := by
  simp [body]

theorem bareEnds_append (front back : List Line) :
    bareEnds (front ++ back) = bareEnds front + bareEnds back := List.countP_append

theorem spent_eq (lines : List Line) : spent lines = (body lines []).length + bareEnds lines := by
  induction lines with
  | nil => rfl
  | cons l lines ih =>
    have single : l.text.length + 2 = (body [l] []).length + bareEnds [l] := by
      cases crlf : l.crlf <;> simp [body, Line.bytes, bareEnds, crlf]
    rw [spent_cons, ih, single, ← List.singleton_append (l := lines), length_body_append,
      bareEnds_append]
    omega

theorem spent_take_mono (lines : List Line) {j k : ℕ} (le : j ≤ k) :
    spent (lines.take j) ≤ spent (lines.take k) := by
  obtain ⟨rest, split⟩ := List.take_prefix_take_left (l := lines) le
  rw [← split, spent_append]
  exact Nat.le_add_right _ _

/-- The end of the connection ends the loop, with the text "false" for a line. -/
theorem bodyLoop_short (g : Get) {len : ℤ} {lines : List Line} (short : (spent lines : ℤ) < len)
    (later : List Read) : bodyLoop g (some len) (lines.map Line.read ++ .ended :: later) =
      ⟨.closed, { g with body := g.body ++ texts lines ++ "false".toList }, later⟩ := by
  obtain ⟨k, le, -, enough, taken⟩ := bodyLoop_lines g len lines (.ended :: later)
  have all : k = lines.length := by
    by_contra less
    have := enough (by omega)
    have part := spent_take_mono lines le
    rw [List.take_length] at part
    omega
  subst all
  rw [taken, List.take_length, List.drop_length, List.map_nil, List.nil_append, bodyLoop,
    if_pos (by simpa using short)]
  exact bodyLoop_stop _ rfl later

/-- All lines are taken before the last byte is counted. -/
theorem counted_iff (lines : List Line) (tail : List UInt8) : Counted lines tail ↔
    ∀ j < lines.length, spent (lines.take j) < (body lines tail).length := by
  rcases List.eq_nil_or_concat lines with rfl | ⟨front, last, rfl⟩
  · exact iff_of_true (fun front last same => absurd same.symm (List.concat_ne_nil last front))
      (fun j less => absurd less (Nat.not_lt_zero j))
  · rw [List.concat_eq_append]
    have single : Counted (front ++ [last]) tail ↔
        bareEnds front < last.bytes.length + tail.length := by
      constructor
      · exact fun counted => counted front last rfl
      · rintro less front' last' same
        obtain ⟨rfl, rfl⟩ := List.append_inj' same rfl |>.imp id List.singleton_inj.1
        exact less
    have one : (body [last] []).length = last.bytes.length := by simp [body]
    have whole := spent_eq front
    rw [single, length_body, length_body_append, one]
    constructor
    · intro less j inside
      rw [List.length_append, List.length_singleton] at inside
      have part := spent_take_mono (front ++ [last]) (Nat.le_of_lt_succ inside)
      rw [List.take_left' rfl] at part
      omega
    · intro all
      have part := all front.length (by simp)
      rw [List.take_left' rfl] at part
      omega

/-! ### A whole request -/

theorem headerLoop_body (g : Get) (done : g.inHeader = false) (reads : List Read) :
    headerLoop o parseInt g reads = bodyLoop g (g.contentLength parseInt) reads := by
  cases reads <;> simp [headerLoop, done]

theorem headerLoop_headers {g : Get} (open_ : g.inHeader = true) {headers : List Line}
    (filled : ∀ l ∈ headers, l.text ≠ []) (reads : List Read) :
    headerLoop o parseInt g (headers.map Line.read ++ .line [] :: reads) =
      bodyLoop { g with inHeader := false, headers := collected o g.headers headers }
        (parseInt (collected o g.headers headers "Content-Length".toList)) reads := by
  induction headers generalizing g with
  | nil =>
    rw [List.map_nil, List.nil_append, headerLoop, if_pos open_]
    exact headerLoop_body o parseInt { g with inHeader := false } rfl reads
  | cons l headers ih =>
    obtain ⟨here, later⟩ := List.forall_mem_cons.1 filled
    have some_text : ¬ (chars l.text).length = 0 := by
      rw [length_chars]
      exact fun none => here (List.length_eq_zero_iff.1 none)
    rw [List.map_cons, List.cons_append, Line.read, headerLoop, if_pos open_]
    simp only [if_neg some_text]
    exact @ih { g with headers := _ } open_ later

section Response

variable {headers : List Line} (filled : ∀ l ∈ headers, l.text ≠ []) {blank : Line}
  (empty : blank.text = []) (lines : List Line) {tail : List UInt8}
  (clear : ∀ c ∈ tail, isNl c = false)
include filled empty clear

theorem request_response (later : List Read) {len : ℤ}
    (announced : parseInt (collected o (fun _ => none) headers "Content-Length".toList) =
      some len) :
    request o parseInt .start true (received (response headers blank lines tail) later) =
      bodyLoop ⟨false, collected o (fun _ => none) headers, []⟩ (some len)
        (lines.map Line.read ++ later) := by
  rw [request, if_pos rfl, received_response headers empty lines clear,
    headerLoop_headers o parseInt rfl filled]
  exact congrArg (fun len => bodyLoop _ len _) announced

/-- The client reads the lines of a body until it has counted its length, and never beyond it.  All
of them are read if and only if fewer of those before the last one end with a newline alone than the
last one and what stands behind it have bytes.  What stands behind it is not read: if that has more
bytes than there are lines with a newline alone, the text "false" comes in its place. -/
theorem request_reads_body (later : List Read) (ends : tail ≠ [] → later.head? = some .ended)
    (announced : parseInt (collected o (fun _ => none) headers "Content-Length".toList) =
      some ((body lines tail).length : ℕ)) :
    ∃ k ≤ lines.length, (k = lines.length ↔ Counted lines tail) ∧
      request o parseInt .start true (received (response headers blank lines tail) later) =
        if bareEnds lines < tail.length then
          ⟨.closed, ⟨false, collected o (fun _ => none) headers,
            texts lines ++ "false".toList⟩, later.tail⟩
        else
          ⟨.closed, ⟨false, collected o (fun _ => none) headers, texts (lines.take k)⟩,
            (lines.drop k).map Line.read ++ later⟩ := by
  have total := length_body lines tail
  have whole := spent_eq lines
  rw [request_response o parseInt filled empty lines clear _ announced]
  by_cases short : bareEnds lines < tail.length
  · obtain ⟨later, rfl⟩ : ∃ rest, later = .ended :: rest :=
      List.head?_eq_some_iff.1 (ends (List.ne_nil_of_length_pos (by omega)))
    refine ⟨lines.length, le_rfl, iff_of_true rfl ?_, ?_⟩
    · rw [counted_iff]
      intro j inside
      have part := spent_take_mono lines inside.le
      rw [List.take_length] at part
      omega
    · rw [if_pos short, bodyLoop_short _ (by omega)]
      rfl
  · obtain ⟨k, le, before, enough, taken⟩ := bodyLoop_lines
      ⟨false, collected o (fun _ => none) headers, []⟩ (body lines tail).length lines later
    have done : ((body lines tail).length : ℤ) ≤ spent (lines.take k) := by
      rcases Nat.eq_or_lt_of_le le with rfl | less
      · rw [List.take_length]
        omega
      · exact enough less
    refine ⟨k, le, ?_, ?_⟩
    · rw [counted_iff]
      constructor
      · rintro rfl j less
        exact_mod_cast before j less
      · intro all
        by_contra part
        have := all k (by omega)
        omega
    · rw [if_neg short, taken, bodyLoop_stop]
      · rfl
      · simpa using done

/-- When the connection ends before the length is counted, the client closes the Socket as it does
after a whole body, and the body it has then is the whole lines that came with the text "false"
behind them. -/
theorem request_cut_short (later : List Read) {len : ℤ}
    (announced : parseInt (collected o (fun _ => none) headers "Content-Length".toList) = some len)
    (short : (spent lines : ℤ) < len) :
    request o parseInt .start true
        (received (response headers blank lines tail) (.ended :: later)) =
      ⟨.closed, ⟨false, collected o (fun _ => none) headers, texts lines ++ "false".toList⟩,
        later⟩ := by
  rw [request_response o parseInt filled empty lines clear _ announced, bodyLoop_short _ short]
  rfl

end Response

/-- `parseInt` on blanks and decimal digits. -/
def parseDigits (value : Option Str) : Option ℤ :=
  value.bind fun s =>
    let digits := (s.dropWhile (· = ' ')).takeWhile Char.isDigit
    if digits = [] then none else some (digits.foldl (fun n c => 10 * n + (c.toNat - 48 : ℤ)) 0)

def plainSetters : Setters := ⟨fun name => name = "__proto__".toList, by decide⟩

set_option maxRecDepth 4000 in
/-- The line "Content-Length: 3". -/
def threeBytes : Line where
  text := [67, 111, 110, 116, 101, 110, 116, 45, 76, 101, 110, 103, 116, 104, 58, 32, 51]
  crlf := true
  clear := by decide
  bare := nofun

/-- An empty line. -/
def emptyLine (crlf : Bool) : Line := ⟨[], crlf, nofun, fun _ => rfl⟩

/-- The third of three empty lines stays unread. -/
theorem request_reads_body_three : ∃ k ≤ 3,
    (k = 3 ↔ Counted (List.replicate 3 (emptyLine false)) []) ∧
      request plainSetters parseDigits .start true
          (received (response [threeBytes] (emptyLine true)
            (List.replicate 3 (emptyLine false)) []) []) =
        if bareEnds (List.replicate 3 (emptyLine false)) < 0 then
          ⟨.closed, ⟨false, collected plainSetters (fun _ => none) [threeBytes],
            texts (List.replicate 3 (emptyLine false)) ++ "false".toList⟩, []⟩
        else
          ⟨.closed, ⟨false, collected plainSetters (fun _ => none) [threeBytes],
            texts ((List.replicate 3 (emptyLine false)).take k)⟩,
            ((List.replicate 3 (emptyLine false)).drop k).map Line.read ++ []⟩ :=
  request_reads_body plainSetters parseDigits (by decide) rfl (List.replicate 3 (emptyLine false))
    (List.forall_mem_nil _) [] (fun some_tail => absurd rfl some_tail) (by decide)

set_option maxRecDepth 4000 in
/-- Three bytes are announced, and the connection ends within the first line. -/
theorem request_cut_short_one :
    request plainSetters parseDigits .start true
        (received (response [threeBytes] (emptyLine true) [] [97]) [.ended]) =
      ⟨.closed, ⟨false, collected plainSetters (fun _ => none) [threeBytes],
        texts [] ++ "false".toList⟩, []⟩ :=
  request_cut_short plainSetters parseDigits (by decide) rfl [] (by decide) []
    (show _ = some (3 : ℤ) by decide) (by decide)

end Sysjs.Http
