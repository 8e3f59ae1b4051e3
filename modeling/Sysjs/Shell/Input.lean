import Sysjs.Foundation.Chunks
import Sysjs.Socket.Object

/-!
# Lines of standard input

`GetLine` reads the lines the prompt asks for, through `fgets` into a buffer that doubles.  The
accesses to the buffer are those of the code.
-/

set_option autoImplicit false

namespace Sysjs.Input

open Chunks

/-- What a `FILE` has still to deliver, and whether reading fails behind it. -/
structure File where
  bytes : List UInt8
  broken : Bool
  deriving DecidableEq, Repr

/-- `fgets` with the size `n`: the bytes of a line or part of one, `none` when none came before the
end, or when reading fails. -/
def fgets (n : ℕ) (f : File) : Option (List UInt8) × File :=
  let data := chunk isNl (n - 1) f.bytes
  let rest := { f with bytes := f.bytes.drop data.length }
  if data.length < n - 1 ∧ data.getLast? ≠ some 10 then
    (if f.broken ∨ data = [] then none else some data, rest)
  else (some data, rest)

/-- `strlen(p)` for a `p` inside the block. -/
def strlen (b : Block UInt8) (p : ℕ) : ℕ := (Block.upTo isNul b.cells p (b.size - p)).length

/-- What `GetLine` returns: the buffer or `NULL`, whether `errno` is set, whether every access was
inside the buffer, and the file. -/
structure Got where
  line : Option (Block UInt8)
  errno : Bool
  safe : Bool
  file : File

/-- `data` and a NUL are put at `buffer + len`, where the free part of the buffer was offered. -/
def put (buffer : Block UInt8) (len : ℕ) (data : List UInt8) : Block UInt8 :=
  (buffer.touch len (buffer.size - len)).blit len (data ++ [0])

/-- The loop of `GetLine`, `current` being `buffer + len`. -/
def getLineLoop (grants : ℕ → Bool) : ℕ → Block UInt8 → ℕ → File → Option Got
  | 0, _, _, _ => none
  | fuel + 1, buffer, len, file =>
    match fgets (buffer.size - len) file with
    | (none, rest) =>
      let buffer := buffer.touch len (buffer.size - len)
      some
        { line := if 0 < len ∧ ¬ file.broken then some buffer else none
          errno := file.broken
          safe := buffer.safe
          file := rest }
    | (some data, rest) =>
      let buffer := put buffer len data
      let len := len + strlen buffer len
      let t : ℤ := len - 1
      let buffer := buffer.touch t 1
      if buffer.cells t = 10 then
        some { line := some (buffer.store t 0), errno := false, safe := buffer.safe, file := rest }
      else if len + 1 = buffer.size then
        if grants (buffer.size * 2) then
          getLineLoop grants fuel (buffer.realloc (buffer.size * 2)) len rest
        else some { line := none, errno := true, safe := buffer.safe, file := rest }
      else getLineLoop grants fuel buffer len rest

/-- `GetLine`; each round but the last takes a byte. -/
def getLine (grants : ℕ → Bool) (heap : ℕ → ℤ → UInt8) (file : File) : Option Got :=
  if grants 80 then getLineLoop grants (file.bytes.length + 2) (Block.malloc 80 heap) 0 file
  else some { line := none, errno := true, safe := true, file := file }

/-- A text of lines: no NUL. -/
def Clean (l : List UInt8) : Prop := ∀ x ∈ l, isNul x = false

/-- What the loop has at its head: the bytes `got` of the line, with room behind them. -/
structure Filling (buffer : Block UInt8) (len : ℕ) (got : List UInt8) : Prop where
  held : buffer.slice 0 len = got
  room : len + 1 < buffer.size
  terminated : 0 < len → isNul (buffer.cells len) = true
  safe : buffer.safe = true

namespace Filling

variable {buffer : Block UInt8} {len : ℕ} {got : List UInt8}

theorem length (f : Filling buffer len got) : got.length = len := by
  rw [← f.held, Block.slice_length]

/-- What the buffer holds when `data` has been put behind the bytes it held. -/
theorem put (f : Filling buffer len got) (data : List UInt8) :
    (put buffer len data).size = buffer.size ∧ (put buffer len data).safe = true ∧
      (put buffer len data).slice 0 (len + data.length) = got ++ data ∧
      (put buffer len data).slice len data.length = data ∧
      (put buffer len data).cells (len + data.length : ℕ) = 0 := by
  have room := f.room
  have written : (Input.put buffer len data).slice len (data.length + 1) = data ++ [0] := by
    have := Block.slice_blit_self (buffer.touch len (buffer.size - len)) len (data ++ [0])
    rwa [List.length_append, List.length_singleton] at this
  rw [Block.slice_succ] at written
  obtain ⟨front, last⟩ := List.append_inj written (by simp)
  refine ⟨rfl, ?_, ?_, front, ?_⟩
  · rw [Input.put, Block.blit_safe, Block.touch_safe]
    exact ⟨f.safe, Block.inside_of_le (by omega) (by omega)⟩
  · rw [Block.slice_add, Int.zero_add, front, Input.put, Block.slice_blit_before _ _ (by omega),
      Block.slice_touch, f.held]
  · rw [Int.natCast_add]
    exact (List.cons.inj last).1

/-- The last byte that was put is looked at. -/
theorem last (f : Filling buffer len got) (data : List UInt8) (some_data : data ≠ [])
    (short : data.length < buffer.size - len) :
    ((Input.put buffer len data).touch ((len + data.length : ℕ) - 1) 1).safe = true ∧
      (Input.put buffer len data).cells ((len + data.length : ℕ) - 1) ∈ data := by
  have pos := List.length_pos_iff.2 some_data
  obtain ⟨size, safe, -, part, -⟩ := f.put data
  constructor
  · rw [Block.touch_safe]
    exact ⟨safe, Block.inside_of_le (by omega) (by omega)⟩
  · have among : (Input.put buffer len data).cells ((len + data.length : ℕ) - 1) ∈
        (Input.put buffer len data).slice len data.length := by
      refine Block.mem_slice.2 ⟨data.length - 1, by omega, ?_⟩
      congr 1
      omega
    rwa [part] at among

theorem next (f : Filling buffer len got) {data : List UInt8} (some_data : data ≠ [])
    (spare : len + data.length + 1 < buffer.size) :
    Filling ((Input.put buffer len data).touch ((len + data.length : ℕ) - 1) 1)
      (len + data.length) (got ++ data) := by
  obtain ⟨size, -, whole, -, stop⟩ := f.put data
  refine ⟨whole, ?_, fun _ => ?_, (f.last data some_data (by omega)).1⟩
  · rwa [Block.touch_size, size]
  · rw [Block.touch_cells, stop]
    rfl

/-- A full buffer is doubled for the next round. -/
theorem doubled (f : Filling buffer len got) {data : List UInt8} (some_data : data ≠ [])
    (full : len + data.length + 1 = buffer.size) :
    Filling (((Input.put buffer len data).touch ((len + data.length : ℕ) - 1) 1).realloc
      (buffer.size * 2)) (len + data.length) (got ++ data) := by
  have room := f.room
  obtain ⟨size, -, whole, -, stop⟩ := f.put data
  refine ⟨?_, ?_, fun _ => ?_, (f.last data some_data (by omega)).1⟩
  · rw [← whole]
    exact Block.slice_eq_of_cells fun i hi =>
      Block.realloc_cells _ (by omega) (by rw [Block.touch_size]; omega) (by omega)
  · rw [Block.realloc_size]
    omega
  · rw [Block.realloc_cells _ (by omega) (by rw [Block.touch_size]; omega) (by omega),
      Block.touch_cells, stop]
    rfl

/-- The newline that ends a line is overwritten. -/
theorem line (f : Filling buffer len got) {front : List UInt8}
    (short : front.length + 1 < buffer.size - len) :
    let b := Input.put buffer len (front ++ [10])
    let t := ((len + front.length : ℕ) : ℤ)
    b.cells t = 10 ∧ (b.touch t 1).safe = true ∧ ((b.touch t 1).store t 0).safe = true ∧
      ((b.touch t 1).store t 0).slice 0 (len + front.length) = got ++ front := by
  obtain ⟨size, safe, whole, -, -⟩ := f.put (front ++ [10])
  rw [List.length_append, List.length_singleton, ← Nat.add_assoc, Block.slice_succ,
    ← List.append_assoc, Int.zero_add] at whole
  obtain ⟨line, newline⟩ := List.append_inj whole
    (by rw [Block.slice_length, List.length_append, f.length])
  have inside : Block.Inside (Input.put buffer len (front ++ [10])).size
      ((len + front.length : ℕ) : ℤ) 1 := Block.inside_of_le (by omega) (by omega)
  have looked := (Block.touch_safe (Input.put buffer len (front ++ [10])) _ _).2 ⟨safe, inside⟩
  refine ⟨(List.cons.inj newline).1, looked, ?_, ?_⟩
  · exact (Block.store_safe _ _ _).2 ⟨looked, inside⟩
  · rw [Block.slice_store_ne _ _ (by omega), Block.slice_touch, line]

end Filling

theorem strlen_of_slice {b : Block UInt8} {p : ℕ} {data : List UInt8} (clean : Clean data)
    (held : b.slice p data.length = data) (inside : p + data.length < b.size)
    (stop : b.cells (p + data.length : ℕ) = 0) : strlen b p = data.length := by
  have here : isNul (b.cells (p + data.length)) = true := by
    rw [← Int.natCast_add, stop]
    rfl
  rw [strlen, Block.upTo_of_stop (by omega) here, held]
  congr 1
  exact List.takeWhile_eq_self_iff.2 fun x hx => by simpa using clean x hx

theorem eq_newline {c : UInt8} (here : isNl c = true) : c = 10 := by
  simpa [isNl] using here

/-- How a call of `fgets` that may take a byte turns out: it takes the rest of a line with its
newline, or some bytes of a line, or none. -/
theorem fgets_cases {n : ℕ} (asks : 1 < n) (f : File) :
    (∃ front rest, f.bytes = front ++ 10 :: rest ∧ (∀ x ∈ front, isNl x = false) ∧
      front.length + 1 < n ∧ fgets n f = (some (front ++ [10]), { f with bytes := rest })) ∨
    (∃ data rest, f.bytes = data ++ rest ∧ (∀ x ∈ data, isNl x = false) ∧ data ≠ [] ∧
      data.length < n ∧ fgets n f = (some data, { f with bytes := rest })) ∨
    (f.broken = true ∨ f.bytes = []) ∧ fgets n f = (none, { f with bytes := [] }) := by
  obtain ⟨m, rfl⟩ : ∃ m, n = m + 1 := ⟨n - 1, by omega⟩
  rcases chunk_cases isNl (show 0 < m by omega) f.bytes with
    ⟨front, c, rest, split, before, here, short, got⟩ |
    ⟨data, rest, split, clear, some_data, short, full, got⟩ | ⟨nothing, got⟩
  · obtain rfl := eq_newline here
    refine Or.inl ⟨front, rest, split, before, by omega, ?_⟩
    simp only [fgets, Nat.add_sub_cancel, got, List.getLast?_append, List.getLast?_singleton,
      Option.some_or, ne_eq, not_true_eq_false, and_false, if_false]
    rw [split]
    simp
  · have behind : f.bytes.drop data.length = rest := by rw [split, List.drop_left]
    by_cases whole : data.length = m
    · refine Or.inr (Or.inl ⟨data, rest, split, clear, some_data, by omega, ?_⟩)
      simp only [fgets, Nat.add_sub_cancel, got, behind]
      rw [if_neg (by omega)]
    · obtain rfl := full.resolve_left whole
      have open_end : data.getLast? ≠ some 10 := by
        intro last
        exact absurd (clear 10 (List.mem_of_getLast? last)) (by decide)
      have done : fgets (m + 1) f =
          (if f.broken ∨ data = [] then none else some data, { f with bytes := [] }) := by
        simp only [fgets, Nat.add_sub_cancel, got, behind]
        rw [if_pos ⟨by omega, open_end⟩]
      by_cases broken : f.broken = true
      · rw [if_pos (Or.inl broken)] at done
        exact Or.inr (Or.inr ⟨Or.inl broken, done⟩)
      · rw [if_neg (not_or.2 ⟨broken, some_data⟩)] at done
        exact Or.inr (Or.inl ⟨data, [], split, clear, some_data, by omega, done⟩)
  · refine Or.inr (Or.inr ⟨Or.inr nothing, ?_⟩)
    simp only [fgets, Nat.add_sub_cancel, got, List.length_nil, List.drop_zero]
    rw [if_pos ⟨by omega, nofun⟩, if_pos (Or.inr trivial), nothing]

/-- What `GetLine` makes of a stream: memory or the file fails; nothing is left; or the buffer holds
the first line as a C string, and the file has what follows that line. -/
inductive Served (stream : List UInt8) (g : Got) : Prop where
  | failed (line : g.line = none) (errno : g.errno = true)
  | ended (line : g.line = none) (errno : g.errno = false) (nothing : stream = [])
      (left : g.file.bytes = [])
  | line (b : Block UInt8) (l : List UInt8) (line : g.line = some b) (some_left : stream ≠ [])
      (first : firstLine isNl stream = (l, g.file.bytes)) (held : b.slice 0 l.length = l)
      (stop : b.cells l.length = 0) (room : l.length < b.size) (safe : b.safe = true)

/-- A call without a failure of its own is served by the stream. -/
structure Fulfils (grants : ℕ → Bool) (stream : List UInt8) (broken : Bool) (g : Got) : Prop where
  served : Served stream g
  safe : g.safe = true
  sound : (∀ n, grants n = true) → broken = false → g.errno = false
  broken : g.file.broken = broken

/-- A round that gets part of a line: the next one has it in the buffer, unless memory runs out. -/
theorem getLineLoop_of_part (grants : ℕ → Bool) (fuel : ℕ) {buffer : Block UInt8} {len : ℕ}
    {got data : List UInt8} {file rest : File} (f : Filling buffer len got)
    (clean : Clean data) (clear : ∀ x ∈ data, isNl x = false) (some_data : data ≠ [])
    (short : data.length < buffer.size - len)
    (read : fgets (buffer.size - len) file = (some data, rest)) :
    (∃ b, Filling b (len + data.length) (got ++ data) ∧
      getLineLoop grants (fuel + 1) buffer len file =
        getLineLoop grants fuel b (len + data.length) rest) ∨
    (∃ n, grants n = false) ∧ getLineLoop grants (fuel + 1) buffer len file =
      some { line := none, errno := true, safe := true, file := rest } := by
  have room := f.room
  obtain ⟨size, safe, whole, part, stop⟩ := f.put data
  have count : strlen (put buffer len data) len = data.length :=
    strlen_of_slice clean part (by omega) stop
  obtain ⟨inside, last⟩ := f.last data some_data short
  have open_end : (put buffer len data).cells ((len + data.length : ℕ) - 1) ≠ 10 := by
    intro newline
    rw [newline] at last
    exact absurd (clear 10 last) (by decide)
  simp only [getLineLoop, read, count, Block.touch_cells, if_neg open_end, Block.touch_size, size]
  split
  · next full =>
    by_cases granted : grants (buffer.size * 2) = true
    · rw [if_pos granted]
      exact Or.inl ⟨_, f.doubled some_data full, rfl⟩
    · rw [if_neg granted, inside]
      exact Or.inr ⟨⟨_, by simpa using granted⟩, rfl⟩
  · next spare => exact Or.inl ⟨_, f.next some_data (by omega), rfl⟩

/-- A round that gets the rest of the line. -/
theorem getLineLoop_of_newline {grants : ℕ → Bool} (fuel : ℕ) {buffer : Block UInt8} {len : ℕ}
    {got front rest : List UInt8} {file : File} (f : Filling buffer len got)
    (clean : Clean front) (own : ∀ x ∈ got, isNl x = false) (clear : ∀ x ∈ front, isNl x = false)
    (short : front.length + 1 < buffer.size - len)
    (read : fgets (buffer.size - len) file = (some (front ++ [10]), { file with bytes := rest })) :
    ∃ g, getLineLoop grants (fuel + 1) buffer len file = some g ∧
      Fulfils grants (got ++ front ++ 10 :: rest) file.broken g := by
  have length := f.length
  obtain ⟨size, -, -, part, stop⟩ := f.put (front ++ [10])
  obtain ⟨newline, looked, safe, held⟩ := f.line short
  have clean_end : Clean (front ++ [10]) := by
    intro x hx
    rcases List.mem_append.1 hx with old | last
    · exact clean x old
    · obtain rfl := List.mem_singleton.1 last
      rfl
  have count : strlen (put buffer len (front ++ [10])) len = front.length + 1 := by
    rw [strlen_of_slice clean_end part (by rw [List.length_append, List.length_singleton]; omega)
      stop, List.length_append, List.length_singleton]
  have place : ((len + (front.length + 1) : ℕ) : ℤ) - 1 = (len + front.length : ℕ) := by omega
  simp only [getLineLoop, read, count, Block.touch_cells, place, newline, if_true]
  refine ⟨_, rfl, ⟨?_, looked, fun _ _ => rfl, rfl⟩⟩
  have first : firstLine isNl (got ++ front ++ 10 :: rest) = (got ++ front, rest) :=
    firstLine_of_hit rest (fun x hx => (List.mem_append.1 hx).elim (own x) (clear x)) rfl
  have all : (got ++ front).length = len + front.length := by rw [List.length_append, length]
  refine .line _ (got ++ front) rfl (by simp) first ?_ ?_ ?_ safe
  · rw [all, held]
  · rw [all, Block.store_cells_self]
  · rw [all, Block.store_size, Block.touch_size]
    omega

/-- The loop of `GetLine` on a text without NULs. -/
theorem getLineLoop_fulfils (grants : ℕ → Bool) {fuel : ℕ} {buffer : Block UInt8} {len : ℕ}
    {got : List UInt8} {file : File} (f : Filling buffer len got) (clean : Clean file.bytes)
    (own : ∀ x ∈ got, isNl x = false) (enough : file.bytes.length + 1 < fuel) :
    ∃ g, getLineLoop grants fuel buffer len file = some g ∧
      Fulfils grants (got ++ file.bytes) file.broken g := by
  induction fuel generalizing buffer len got file with
  | zero => omega
  | succ fuel ih =>
    have room := f.room
    rcases fgets_cases (n := buffer.size - len) (by omega) file with
      ⟨front, rest, split, clear, short, read⟩ |
      ⟨data, rest, split, clear, some_data, short, read⟩ | ⟨stuck, read⟩
    · rw [split, ← List.append_assoc]
      rw [split] at clean
      exact getLineLoop_of_newline fuel f (fun x hx => clean x (List.mem_append_left _ hx)) own
        clear short read
    · rw [split] at clean enough
      have pos := List.length_pos_iff.2 some_data
      rw [List.length_append] at enough
      rcases getLineLoop_of_part grants fuel f
          (fun x hx => clean x (List.mem_append_left _ hx)) clear some_data short read with
        ⟨b, next, same⟩ | ⟨⟨n, refused⟩, same⟩
      · rw [same, split, ← List.append_assoc]
        exact ih next (fun x hx => clean x (List.mem_append_right _ hx))
          (fun x hx => (List.mem_append.1 hx).elim (own x) (clear x)) (by dsimp only; omega)
      · refine ⟨_, same, .failed rfl rfl, rfl, fun all _ => ?_, rfl⟩
        rw [all n] at refused
        cases refused
    · have safe : (buffer.touch len (buffer.size - len)).safe = true := by
        rw [Block.touch_safe]
        exact ⟨f.safe, Block.inside_of_le (by omega) (by omega)⟩
      simp only [getLineLoop, read]
      refine ⟨_, rfl, ?_, safe, fun _ whole => whole, rfl⟩
      cases whole : file.broken with
      | true => exact .failed (by simp) rfl
      | false =>
        have none_left : file.bytes = [] := by simpa [whole] using stuck
        rw [none_left, List.append_nil]
        cases len with
        | zero => exact .ended (by simp) rfl (List.eq_nil_of_length_eq_zero f.length) rfl
        | succ len =>
          have length := f.length
          refine .line _ got (by simp) ?_ (firstLine_of_end own) ?_ ?_ ?_ safe
          · rw [← List.length_pos_iff]
            omega
          · rw [length, Block.slice_touch, f.held]
          · rw [length, Block.touch_cells]
            simpa [isNul] using f.terminated (by omega)
          · rw [length, Block.touch_size]
            omega

/-- `GetLine` returns the first line of a text without NULs, or says why it does not. -/
theorem getLine_fulfils (grants : ℕ → Bool) (heap : ℕ → ℤ → UInt8) {file : File}
    (clean : Clean file.bytes) :
    ∃ g, getLine grants heap file = some g ∧ Fulfils grants file.bytes file.broken g := by
  unfold getLine
  split
  · have start : Filling (Block.malloc 80 heap) 0 [] :=
      ⟨rfl, by simp [Block.malloc], fun pos => absurd pos (Nat.lt_irrefl 0), rfl⟩
    exact getLineLoop_fulfils grants start clean nofun (by omega)
  · next refused =>
    exact ⟨_, rfl, .failed rfl rfl, rfl, fun all _ => absurd (all 80) refused, rfl⟩

end Sysjs.Input
