import Sysjs.Foundation.Feed
import Sysjs.Socket.Object

/-!
# `read`: one line

`js_sock_read` first looks for a line among the bytes kept from earlier calls and otherwise
receives until a newline comes.  Pointers into `read_buffer` are indices here.
-/

set_option autoImplicit false

namespace Sysjs

open Feed

variable {α : Type*} [Octet α]

/-- Put a NUL in place of the newline at `p`, and of a carriage return right before it. -/
def terminateLine (b : Block α) (p : ℤ) : Block α :=
  let b := b.store p nul
  if 0 < p then
    let b := b.touch (p - 1) 1
    if isCr (b.cells (p - 1)) then b.store (p - 1) nul else b
  else b

/-- Cut the line before the newline at `p` off: the string made of it, and the block. -/
def cutLine (b : Block α) (p : ℤ) : List α × Block α :=
  let b := terminateLine b p
  let line := cString b
  (line, b.touch 0 (line.length + 1))

/-- The first branch: "maybe we've got some old lines...".  The scan tests `ret >= 0`, so it
passes over `buffer_pos + 1` bytes before it gives up. -/
def bufferedLine (o : SockObj α) : Option (List α) × SockObj α :=
  if 0 < o.bufferPos then
    let walk := Block.seek isNl o.readBuffer.cells 0 (o.bufferPos + 1).toNat
    let p := walk.1
    let ret : ℤ := walk.2 - 1
    let b := o.readBuffer.touch 0 (p + 1)
    if isNl (b.cells p) then
      let (line, b) := cutLine b p
      if 0 < ret then
        (some line, { o with readBuffer := b.move 0 (p + 1) ret, bufferPos := ret })
      else (some line, { o with readBuffer := b, bufferPos := 0 })
    else (none, { o with readBuffer := b })
  else (none, o)

/-- How the receive loop is left: by the error return, or by a `break` with `read_buffer` at index
`p` and `ret` bytes left from there. -/
inductive RecvExit (α : Type*) where
  | failed (s : St α)
  | stopped (s : St α) (p : ℤ) (ret : ℕ)

/-- The state in which the loop is left. -/
def RecvExit.st : RecvExit α → St α
  | .failed s => s
  | .stopped s _ _ => s

/-- The count given to `read`: `read_size`, the free part of the buffer. -/
def St.readSize (s : St α) : ℕ := sizeT (s.obj.bufferSize - s.obj.bufferPos)

/-- The buffer with that part handed to `read`. -/
def St.offered (s : St α) : Block α := s.obj.readBuffer.touch s.obj.bufferPos s.readSize

/-- One round of `while (can_run)`. -/
def recvBody (s : St α) (a : Answer) : RecvExit α ⊕ St α :=
  let p := s.obj.bufferPos
  let readSize : ℤ := s.obj.bufferSize - p
  match s.kernel.read s.obj.sock s.readSize a with
  | (none, k) => .inl (.failed ((s.withKernel k).withBuffer s.offered))
  | (some [], k) => .inl (.stopped ((s.withKernel k).withBuffer s.offered) p 0)
  | (some (c :: cs), k) =>
    let b := s.offered.blit p (c :: cs)
    let walk := Block.seek isNl b.cells p (c :: cs).length
    let b := b.touch p (walk.1 + 1 - p)
    let s := (s.withKernel k).withBuffer b
    if isNl (b.cells walk.1) then .inl (.stopped s walk.1 walk.2)
    else if walk.2 ≤ 8 then  -- "realloc early"
      .inr { s with obj := { s.obj.grow 1024 1024 with bufferPos := readSize } }
    else .inr s

/-- What follows the loop: cut the line off and keep the rest, or give up. -/
def finishLine (s : St α) (p : ℤ) (ret : ℕ) : Ret α × St α :=
  let b := s.obj.readBuffer.touch p 1
  if isNl (b.cells p) then
    let (line, b) := cutLine b p
    let ret : ℤ := ret - 1
    let b := if 0 < ret then b.move 0 (p + 1) ret else b
    let b := b.store ret nul
    (.done (.string line), { s with obj := { s.obj with readBuffer := b, bufferPos := ret } })
  else (.done (.bool false), s.withBuffer b)

/-- `js_sock_read`. -/
def jsSockRead (s : St α) (answers : List Answer) : Option (Ret α × St α) :=
  match bufferedLine s.obj with
  | (some line, o) => some (.done (.string line), { s with obj := o })
  | (none, o) =>
    match feed recvBody { s with obj := o }.suspend answers with
    | none => none
    | some (.failed s, _) => some (.error "read failed: %s", s)
    | some (.stopped s p ret, _) => some (finishLine s.resume p ret)

/-! ### Cutting a line off -/

/-- A line without one carriage return at its end. -/
def chomp (l : List α) : List α :=
  match l.getLast? with
  | some c => if isCr c then l.dropLast else l
  | none => l

theorem chomp_append_singleton (l : List α) (c : α) :
    chomp (l ++ [c]) = if isCr c then l else l ++ [c] := by
  simp [chomp]

theorem chomp_subset {l : List α} {c : α} (h : c ∈ chomp l) : c ∈ l := by
  unfold chomp at h
  split at h
  · split at h
    · exact List.dropLast_subset l h
    · exact h
  · exact h

@[simp] theorem terminateLine_size (b : Block α) (p : ℤ) : (terminateLine b p).size = b.size := by
  unfold terminateLine
  dsimp only
  split_ifs <;> rfl

theorem terminateLine_cells_self (b : Block α) (p : ℤ) :
    isNul ((terminateLine b p).cells p) = true := by
  unfold terminateLine
  dsimp only
  split_ifs
  · rw [Block.store_cells_ne _ _ (by omega)]
    simp
  · simp
  · simp

theorem terminateLine_cells_ne (b : Block α) {p i : ℤ} (here : i ≠ p) (before : i ≠ p - 1) :
    (terminateLine b p).cells i = b.cells i := by
  unfold terminateLine
  dsimp only
  split_ifs
  · rw [Block.store_cells_ne _ _ before, Block.touch_cells, Block.store_cells_ne _ _ here]
  · rw [Block.touch_cells, Block.store_cells_ne _ _ here]
  · rw [Block.store_cells_ne _ _ here]

/-- The cell before the terminator is overwritten only when it is a carriage return. -/
theorem terminateLine_cells_pred (b : Block α) (p : ℤ) :
    (terminateLine b p).cells (p - 1) =
      if 0 < p ∧ isCr (b.cells (p - 1)) = true then nul else b.cells (p - 1) := by
  unfold terminateLine
  have other : (b.store p nul).cells (p - 1) = b.cells (p - 1) :=
    Block.store_cells_ne _ _ (by omega)
  by_cases hp : 0 < p <;> by_cases hc : isCr (b.cells (p - 1)) = true <;> simp [hp, hc, other]

theorem terminateLine_safe (b : Block α) {p : ℤ} (low : 0 ≤ p) :
    (terminateLine b p).safe = true ↔ b.safe = true ∧ p < b.size := by
  have here : Block.Inside b.size p 1 ↔ p < b.size := by
    unfold Block.Inside
    omega
  have pred : 0 < p → p < b.size → Block.Inside b.size (p - 1) 1 := by
    intro pos high
    exact Block.inside_of_le (by omega) (by omega)
  unfold terminateLine
  dsimp only
  split_ifs <;>
    simp only [Block.store_safe, Block.touch_safe, Block.store_size, Block.touch_size, here] <;>
    tauto

/-- The string made of a line cut off at `p`. -/
theorem cString_terminateLine (b : Block α) {p : ℕ} (inside : p < b.size) :
    cString (terminateLine b p) = cut (chomp (b.slice 0 p)) := by
  have stop := terminateLine_cells_self b p
  rw [cString_of_nul (by simpa using inside) stop]
  cases p with
  | zero => simp [chomp]
  | succ q =>
    have pred := terminateLine_cells_pred b (q + 1 : ℕ)
    have at_q : ((q + 1 : ℕ) : ℤ) - 1 = q := by omega
    rw [at_q] at pred
    have front : (terminateLine b (q + 1 : ℕ)).slice 0 q = b.slice 0 q :=
      Block.slice_eq_of_cells fun i hi => terminateLine_cells_ne b (by omega) (by omega)
    rw [Block.slice_succ, Block.slice_succ, front, Int.zero_add, pred, chomp_append_singleton]
    by_cases hc : isCr (b.cells q) = true
    · rw [if_pos ⟨by omega, hc⟩, if_pos hc, cut_append_nul _ isNul_nul]
    · rw [if_neg (fun h => hc h.2), if_neg hc]

theorem cutLine_fst (b : Block α) {p : ℕ} (inside : p < b.size) :
    (cutLine b p).1 = cut (chomp (b.slice 0 p)) :=
  cString_terminateLine b inside

@[simp] theorem cutLine_size (b : Block α) (p : ℤ) : (cutLine b p).2.size = b.size := by
  simp [cutLine]

theorem cutLine_cells_ne (b : Block α) {p i : ℤ} (here : i ≠ p) (before : i ≠ p - 1) :
    (cutLine b p).2.cells i = b.cells i :=
  terminateLine_cells_ne b here before

theorem length_cut_chomp_le (l : List α) : (cut (chomp l)).length ≤ l.length := by
  have first : (cut (chomp l)).length ≤ (chomp l).length := (List.takeWhile_sublist _).length_le
  have second : (chomp l).length ≤ l.length := by
    unfold chomp
    split
    · split
      · simp
      · exact le_rfl
    · exact le_rfl
  exact first.trans second

/-- Cutting a line off stays inside the block exactly when the newline was inside. -/
theorem cutLine_safe (b : Block α) {p : ℤ} (low : 0 ≤ p) :
    (cutLine b p).2.safe = true ↔ b.safe = true ∧ p < b.size := by
  unfold cutLine
  rw [Block.touch_safe, terminateLine_safe b low]
  constructor
  · exact fun h => h.1
  · rintro ⟨safe, high⟩
    refine ⟨⟨safe, high⟩, Block.inside_of_le le_rfl ?_⟩
    obtain ⟨q, rfl⟩ := Int.eq_ofNat_of_zero_le low
    have text := cString_terminateLine b (p := q) (by omega)
    have short := length_cut_chomp_le (b.slice 0 q)
    rw [Block.slice_length] at short
    rw [text, terminateLine_size]
    omega

/-! ### What the pieces can do -/

/-- The outcomes of looking for a buffered line. -/
inductive BufferedStep (o : SockObj α) : Option (List α) × SockObj α → Prop where
  | empty (nothing : o.bufferPos ≤ 0) : BufferedStep o (none, o)
  /-- No newline up to the last byte the scan looks at, the second behind the buffered ones. -/
  | absent (kept : 0 < o.bufferPos)
      (clear : ∀ i, 0 ≤ i → i ≤ o.bufferPos + 1 → isNl (o.readBuffer.cells i) = false) :
      BufferedStep o (none, { o with readBuffer := o.readBuffer.touch 0 (o.bufferPos + 2) })
  /-- The first newline is a buffered byte; one byte too many is kept. -/
  | found (p : ℕ) (low : p < o.bufferPos)
      (first : ∀ i : ℤ, 0 ≤ i → i < p → isNl (o.readBuffer.cells i) = false)
      (here : isNl (o.readBuffer.cells p) = true) :
      BufferedStep o (some (cutLine (o.readBuffer.touch 0 (p + 1)) p).1,
        { o with
          readBuffer := (cutLine (o.readBuffer.touch 0 (p + 1)) p).2.move 0 (p + 1)
            (o.bufferPos - p)
          bufferPos := o.bufferPos - p })
  /-- The first newline is one of the two bytes behind the buffered ones. -/
  | stray (p : ℕ) (kept : 0 < o.bufferPos) (low : o.bufferPos ≤ p) (high : p ≤ o.bufferPos + 1)
      (first : ∀ i : ℤ, 0 ≤ i → i < p → isNl (o.readBuffer.cells i) = false)
      (here : isNl (o.readBuffer.cells p) = true) :
      BufferedStep o (some (cutLine (o.readBuffer.touch 0 (p + 1)) p).1,
        { o with
          readBuffer := (cutLine (o.readBuffer.touch 0 (p + 1)) p).2
          bufferPos := 0 })

theorem bufferedLine_spec (o : SockObj α) : BufferedStep o (bufferedLine o) := by
  by_cases hpos : 0 < o.bufferPos
  · obtain ⟨bound, place, before, behind⟩ :=
      Block.seek_spec isNl o.readBuffer.cells 0 (o.bufferPos + 1).toNat
    generalize walk : Block.seek isNl o.readBuffer.cells 0 (o.bufferPos + 1).toNat = w at *
    obtain ⟨q, left⟩ := w
    dsimp only at bound place before behind
    obtain ⟨p, rfl⟩ := Int.eq_ofNat_of_zero_le (show 0 ≤ q by omega)
    by_cases here : isNl (o.readBuffer.cells p) = true
    · by_cases hp : (p : ℤ) < o.bufferPos
      · have ret : ((left : ℕ) : ℤ) - 1 = o.bufferPos - p := by omega
        have some_left : 0 < o.bufferPos - p := by omega
        have eval := BufferedStep.found p hp before here
        simpa only [bufferedLine, if_pos hpos, walk, Block.touch_cells, here, if_true, ret,
          if_pos some_left] using eval
      · have none_left : ¬ 0 < ((left : ℕ) : ℤ) - 1 := by omega
        have eval := BufferedStep.stray p hpos (by omega) (by omega) before here
        simpa only [bufferedLine, if_pos hpos, walk, Block.touch_cells, here, if_true,
          if_neg none_left] using eval
    · have empty : left = 0 := by
        by_contra some_left
        exact here (behind (by omega))
      have clear : ∀ i, 0 ≤ i → i ≤ o.bufferPos + 1 → isNl (o.readBuffer.cells i) = false := by
        intro i low high
        by_cases last : i = p
        · simpa [last] using here
        · exact before i low (by omega)
      have eval := BufferedStep.absent hpos clear
      have touched : (p : ℤ) + 1 = o.bufferPos + 2 := by omega
      simpa only [bufferedLine, if_pos hpos, walk, Block.touch_cells, if_neg here, touched]
        using eval
  · have eval := BufferedStep.empty (o := o) (by omega)
    simpa only [bufferedLine, if_neg hpos] using eval

/-- The state after `read` put `data` behind the buffered bytes and `scanned` of them were passed
over. -/
def St.landed (s : St α) (data : List α) (k : Kernel α) (scanned : ℕ) : St α :=
  (s.withKernel k).withBuffer
    ((s.offered.blit s.obj.bufferPos data).touch s.obj.bufferPos (scanned + 1))

/-- The outcomes of one round of the receive loop. -/
inductive RecvStep (s : St α) (a : Answer) : RecvExit α ⊕ St α → Prop where
  | failed (h : s.kernel.read s.obj.sock s.readSize a = (none, s.kernel)) :
      RecvStep s a (.inl (.failed (s.withBuffer s.offered)))
  | ended (k : Kernel α) (h : s.kernel.read s.obj.sock s.readSize a = (some [], k)) :
      RecvStep s a (.inl (.stopped ((s.withKernel k).withBuffer s.offered) s.obj.bufferPos 0))
  /-- A newline arrived. -/
  | line (k : Kernel α) (l : List α) (c : α) (r : List α)
      (h : s.kernel.read s.obj.sock s.readSize a = (some (l ++ c :: r), k))
      (before : ∀ x ∈ l, isNl x = false) (here : isNl c = true) :
      RecvStep s a (.inl (.stopped (s.landed (l ++ c :: r) k l.length)
        (s.obj.bufferPos + l.length) (r.length + 1)))
  /-- No newline arrived, but the byte behind the received ones happens to be one. -/
  | stale (k : Kernel α) (data : List α)
      (h : s.kernel.read s.obj.sock s.readSize a = (some data, k)) (came : data ≠ [])
      (clear : ∀ x ∈ data, isNl x = false)
      (behind : isNl (s.obj.readBuffer.cells (s.obj.bufferPos + data.length)) = true) :
      RecvStep s a (.inl (.stopped (s.landed data k data.length)
        (s.obj.bufferPos + data.length) 0))
  /-- No newline arrived: the buffer grows, and the write position moves to `read_size`. -/
  | grown (k : Kernel α) (data : List α)
      (h : s.kernel.read s.obj.sock s.readSize a = (some data, k)) (came : data ≠ [])
      (clear : ∀ x ∈ data, isNl x = false)
      (behind : isNl (s.obj.readBuffer.cells (s.obj.bufferPos + data.length)) = false) :
      RecvStep s a (.inr { s.landed data k data.length with
        obj := { (s.landed data k data.length).obj.grow 1024 1024 with
          bufferPos := s.obj.bufferSize - s.obj.bufferPos } })

/-- A round in which a newline comes. -/
theorem recvBody_of_line {s : St α} {a : Answer} {k : Kernel α} {l r : List α} {c : α}
    (got : s.kernel.read s.obj.sock s.readSize a = (some (l ++ c :: r), k))
    (before : ∀ x ∈ l, isNl x = false) (here : isNl c = true) :
    recvBody s a = .inl (.stopped (s.landed (l ++ c :: r) k l.length)
      (s.obj.bufferPos + l.length) (r.length + 1)) := by
  obtain ⟨x, xs, split⟩ := List.exists_cons_of_ne_nil (l := l ++ c :: r) (by simp)
  have walk := Block.seek_blit_hit s.offered s.obj.bufferPos (r := r) before here
  have at_c : (s.offered.blit s.obj.bufferPos (l ++ c :: r)).cells
      (s.obj.bufferPos + l.length) = c := by
    rw [Block.blit_getElem _ _ _ (by simp)]
    simp
  have scanned : s.obj.bufferPos + l.length + 1 - s.obj.bufferPos = (l.length : ℤ) + 1 := by
    omega
  rw [split] at got walk at_c ⊢
  simp only [recvBody, got, St.landed, walk, Block.touch_cells, at_c, here, if_true, scanned]

theorem recvBody_of_fail {s : St α} {a : Answer} {k : Kernel α}
    (got : s.kernel.read s.obj.sock s.readSize a = (none, k)) :
    recvBody s a = .inl (.failed (s.withBuffer s.offered)) := by
  obtain rfl := Kernel.read_none got
  simp only [recvBody, got, St.withKernel_self]

theorem recvBody_of_eof {s : St α} {a : Answer} {k : Kernel α}
    (got : s.kernel.read s.obj.sock s.readSize a = (some [], k)) :
    recvBody s a =
      .inl (.stopped ((s.withKernel k).withBuffer s.offered) s.obj.bufferPos 0) := by
  simp only [recvBody, got]

/-- The state after the growth behind a chunk without a newline. -/
def St.grown (s : St α) (data : List α) (k : Kernel α) : St α :=
  { s.landed data k data.length with
    obj := { (s.landed data k data.length).obj.grow 1024 1024 with
      bufferPos := s.obj.bufferSize - s.obj.bufferPos } }

/-- A round in which bytes come, but no newline: the byte behind them decides. -/
theorem recvBody_of_chunk {s : St α} {a : Answer} {k : Kernel α} {data : List α}
    (got : s.kernel.read s.obj.sock s.readSize a = (some data, k)) (came : data ≠ [])
    (clear : ∀ x ∈ data, isNl x = false) :
    recvBody s a =
      if isNl (s.obj.readBuffer.cells (s.obj.bufferPos + data.length)) then
        .inl (.stopped (s.landed data k data.length) (s.obj.bufferPos + data.length) 0)
      else .inr (s.grown data k) := by
  obtain ⟨x, xs, rfl⟩ := List.exists_cons_of_ne_nil came
  have walk := Block.seek_blit_clear s.offered s.obj.bufferPos clear
  have at_end : (s.offered.blit s.obj.bufferPos (x :: xs)).cells
      (s.obj.bufferPos + (x :: xs).length) = s.obj.readBuffer.cells
        (s.obj.bufferPos + (x :: xs).length) := Block.blit_cells_after _ _ le_rfl
  have scanned : s.obj.bufferPos + (x :: xs).length + 1 - s.obj.bufferPos =
      ((x :: xs).length : ℤ) + 1 := by omega
  simp only [recvBody, got, St.landed, St.grown, walk, Block.touch_cells, at_end, scanned,
    if_pos (Nat.zero_le 8)]

theorem recvBody_spec (s : St α) (a : Answer) : RecvStep s a (recvBody s a) := by
  rcases got : s.kernel.read s.obj.sock s.readSize a with ⟨_ | data, k⟩
  · rw [recvBody_of_fail got]
    obtain rfl := Kernel.read_none got
    exact .failed got
  · by_cases came : data = []
    · subst came
      rw [recvBody_of_eof got]
      exact .ended k got
    · by_cases hnl : ∃ c ∈ data, isNl c = true
      · obtain ⟨l, c, r, rfl, before, here⟩ := Block.split_at_first isNl hnl
        rw [recvBody_of_line got before here]
        exact .line k l c r got before here
      · have clear : ∀ c ∈ data, isNl c = false := by simpa using hnl
        rw [recvBody_of_chunk got came clear]
        split
        · next behind => exact .stale k data got came clear behind
        · next behind => exact .grown k data got came clear (by simpa using behind)

theorem finishLine_of_not {s : St α} {p : ℤ} {ret : ℕ}
    (h : isNl (s.obj.readBuffer.cells p) = false) :
    finishLine s p ret = (.done (.bool false), s.withBuffer (s.obj.readBuffer.touch p 1)) := by
  simp [finishLine, h]

/-- With a newline at `p`, and `rest` more bytes received behind it, the line is cut off and the
rest moved to the front. -/
theorem finishLine_of_nl {s : St α} {p : ℤ} {rest : ℕ}
    (h : isNl (s.obj.readBuffer.cells p) = true) :
    finishLine s p (rest + 1) =
      (.done (.string (cutLine (s.obj.readBuffer.touch p 1) p).1),
        { s with obj := { s.obj with
          readBuffer := (if 0 < rest then
              (cutLine (s.obj.readBuffer.touch p 1) p).2.move 0 (p + 1) rest
            else (cutLine (s.obj.readBuffer.touch p 1) p).2).store rest nul
          bufferPos := rest } }) := by
  have ret : ((rest + 1 : ℕ) : ℤ) - 1 = rest := by omega
  have some_left : (0 : ℤ) < rest ↔ 0 < rest := by omega
  simp only [finishLine, Block.touch_cells, h, if_true, ret, some_left]

/-- A newline where nothing was received: `ret` becomes `-1`. -/
theorem finishLine_of_stale {s : St α} {p : ℤ} (h : isNl (s.obj.readBuffer.cells p) = true) :
    finishLine s p 0 =
      (.done (.string (cutLine (s.obj.readBuffer.touch p 1) p).1),
        { s with obj := { s.obj with
          readBuffer := (cutLine (s.obj.readBuffer.touch p 1) p).2.store (-1) nul
          bufferPos := -1 } }) := by
  simp [finishLine, h]

/-! ### The call -/

namespace SockObj

/-- The scan for a buffered line meets no newline. -/
def NoLine (o : SockObj α) : Prop :=
  0 < o.bufferPos → ∀ i, 0 ≤ i → i ≤ o.bufferPos + 1 → isNl (o.readBuffer.cells i) = false

theorem bufferedLine_of_noLine {o : SockObj α} (fresh : o.NoLine) :
    ∃ len, bufferedLine o = (none, { o with readBuffer := o.readBuffer.touch 0 len }) := by
  have step := bufferedLine_spec o
  generalize bufferedLine o = result at step ⊢
  cases step with
  | empty nothing => exact ⟨0, by rw [Block.touch_of_nonpos _ _ le_rfl]⟩
  | absent kept clear => exact ⟨_, rfl⟩
  | found p low first here =>
    have := fresh (by omega) p (by omega) (by omega)
    simp [here] at this
  | stray p kept low high first here =>
    have := fresh kept p (by omega) (by omega)
    simp [here] at this

/-- A newline among the buffered bytes is found. -/
theorem bufferedLine_of_complete {o : SockObj α} (complete : ∃ c ∈ o.buffered, isNl c = true) :
    ∃ line o', bufferedLine o = (some line, o') := by
  obtain ⟨c, held, nl⟩ := complete
  obtain ⟨i, inside, rfl⟩ := Block.mem_slice.1 held
  have step := bufferedLine_spec o
  generalize bufferedLine o = result at step ⊢
  cases step with
  | empty nothing => omega
  | absent kept clear =>
    rw [clear _ (by omega) (by omega)] at nl
    cases nl
  | found p low first here => exact ⟨_, _, rfl⟩
  | stray p kept low high first here => exact ⟨_, _, rfl⟩

theorem noLine_of_bufferedLine {o : SockObj α} (h : (bufferedLine o).1 = none) : o.NoLine := by
  have step := bufferedLine_spec o
  generalize bufferedLine o = result at step h
  intro pos
  cases step with
  | empty nothing => omega
  | absent kept clear => exact clear
  | found p low first here => cases h
  | stray p kept low high first here => cases h

end SockObj

/-- The state in which the receive loop starts. -/
def St.receiving (s : St α) : St α := { s with obj := (bufferedLine s.obj).2 }.suspend

theorem jsSockRead_of_buffered {s : St α} {line : List α} {o : SockObj α} (answers : List Answer)
    (found : bufferedLine s.obj = (some line, o)) :
    jsSockRead s answers = some (.done (.string line), { s with obj := o }) := by
  simp only [jsSockRead, found]

/-- The states in which the rounds of its receive loop start; none with a buffered line. -/
def St.readHeads (s : St α) (answers : List Answer) : List (St α) :=
  match (bufferedLine s.obj).1 with
  | some _ => []
  | none => heads recvBody s.receiving answers

theorem readHeads_of_complete {s : St α} (complete : ∃ c ∈ s.obj.buffered, isNl c = true)
    (answers : List Answer) : s.readHeads answers = [] := by
  obtain ⟨line, o, found⟩ := SockObj.bufferedLine_of_complete complete
  rw [St.readHeads, found]

/-- What follows the loop: the error return, or `finishLine`. -/
def RecvExit.finish : RecvExit α → Ret α × St α
  | .failed s => (.error "read failed: %s", s)
  | .stopped s p ret => finishLine s.resume p ret

section NoLine

variable {s : St α} (answers : List Answer) (fresh : s.obj.NoLine)

include fresh

theorem readHeads_of_noLine : s.readHeads answers = heads recvBody s.receiving answers := by
  obtain ⟨len, scan⟩ := SockObj.bufferedLine_of_noLine fresh
  rw [St.readHeads, scan]

theorem jsSockRead_of_noLine :
    jsSockRead s answers = (feed recvBody s.receiving answers).map fun e => e.1.finish := by
  obtain ⟨len, scan⟩ := SockObj.bufferedLine_of_noLine fresh
  have receiving : s.receiving =
      { s with obj := { s.obj with readBuffer := s.obj.readBuffer.touch 0 len } }.suspend := by
    rw [St.receiving, scan]
  simp only [jsSockRead, scan, ← receiving]
  rcases feed recvBody s.receiving answers with _ | ⟨_ | ⟨t, p, ret⟩, rest⟩ <;> rfl

end NoLine

/-- The outcomes of `read`. -/
inductive ReadStep (s : St α) (answers : List Answer) : Ret α → St α → Prop where
  | served (line : List α) (o : SockObj α) (found : bufferedLine s.obj = (some line, o)) :
      ReadStep s answers (.done (.string line)) { s with obj := o }
  | failed (nothing : (bufferedLine s.obj).1 = none) (t : St α) (rest : List Answer)
      (done : feed recvBody s.receiving answers = some (.failed t, rest)) :
      ReadStep s answers (.error "read failed: %s") t
  | stopped (nothing : (bufferedLine s.obj).1 = none) (t : St α) (p : ℤ) (ret : ℕ)
      (rest : List Answer) {r : Ret α} {s' : St α} (finish : finishLine t.resume p ret = (r, s'))
      (done : feed recvBody s.receiving answers = some (.stopped t p ret, rest)) :
      ReadStep s answers r s'

theorem jsSockRead_spec {s s' : St α} {answers : List Answer} {r : Ret α}
    (h : jsSockRead s answers = some (r, s')) : ReadStep s answers r s' := by
  unfold jsSockRead at h
  split at h
  · next line o found =>
    rw [Option.some.injEq, Prod.mk.injEq] at h
    obtain ⟨rfl, rfl⟩ := h
    exact .served line o found
  · next o nothing =>
    have receiving : s.receiving = { s with obj := o }.suspend := by
      rw [St.receiving, nothing]
    have none : (bufferedLine s.obj).1 = none := by rw [nothing]
    rw [← receiving] at h
    split at h
    · cases h
    · next t rest done =>
      rw [Option.some.injEq, Prod.mk.injEq] at h
      obtain ⟨rfl, rfl⟩ := h
      exact .failed none t rest done
    · next t p ret rest done => exact .stopped none t p ret rest (Option.some.inj h) done

end Sysjs
