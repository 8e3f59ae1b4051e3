import Sysjs.Socket.ReadLine

/-!
# `read` on a stream

What `read` does when it takes its line from the bytes it receives: no newline lies where its scan
looks, and the first chunk brings one.
-/

set_option autoImplicit false

namespace Sysjs

open Feed

variable {α : Type*} [Octet α]

/-- A round of the receive loop loses nothing: `read` fails, or nothing comes while no newline lies
at the write position, or a newline comes, or the chunk ends where the next one will be put and no
newline lies there. -/
def RoundKeeps (s : St α) (a : Answer) : Prop :=
  match (s.kernel.read s.obj.sock s.readSize a).1 with
  | none => True
  | some [] => isNl (s.obj.readBuffer.cells s.obj.bufferPos) = false
  | some (c :: cs) => (∃ x ∈ c :: cs, isNl x = true) ∨
      (isNl (s.obj.readBuffer.cells (s.obj.bufferPos + (c :: cs).length)) = false ∧
        s.obj.bufferSize - s.obj.bufferPos = s.obj.bufferPos + ((c :: cs).length : ℤ))

/-- The outcomes of a call whose rounds lose nothing, with `stream` unconsumed before it. -/
inductive LineRead (stream : List α) : Ret α → St α → Prop where
  /-- No line is complete; what came is kept. -/
  | waiting (r : Ret α) (s : St α) (value : r = .error "read failed: %s" ∨ r = .done (.bool false))
      (same : s.unconsumed = stream) (clear : ∀ x ∈ s.obj.buffered, isNl x = false) :
      LineRead stream r s
  | line (l : List α) (c : α) (s : St α) (before : ∀ x ∈ l, isNl x = false) (here : isNl c = true)
      (split : stream = l ++ c :: s.unconsumed)
      (terminated : isNul (s.obj.readBuffer.cells s.obj.bufferPos) = true) :
      LineRead stream (.done (.string (cut (chomp l)))) s

/-- What is left when a line has been cut off the bytes received, and `r` came behind it. -/
structure LineCut (s s' : St α) (k : Kernel α) (r : List α) : Prop where
  buffered : s'.obj.buffered = r
  terminated : isNul (s'.obj.readBuffer.cells s'.obj.bufferPos) = true
  fits : s'.obj.Fits
  sock : s'.obj.sock = s.obj.sock
  bufferSize : s'.obj.bufferSize = s.obj.bufferSize
  kernel : s'.kernel = k
  safe : s.obj.readBuffer.safe = true → s'.obj.readBuffer.safe = true

theorem LineCut.bufferPos {s s' : St α} {k : Kernel α} {r : List α} (left : LineCut s s' k r) :
    s'.obj.bufferPos = r.length := by
  rw [← SockObj.length_buffered left.fits, left.buffered]

theorem LineCut.pending {s s' : St α} {k : Kernel α} {r : List α} (left : LineCut s s' k r) :
    s'.pending = k.pending s.obj.sock := by
  rw [St.pending, left.kernel, left.sock]

omit [Octet α] in
/-- What came stands behind what was buffered. -/
theorem landed_slice {s : St α} (fits : s.obj.Fits) (data : List α) (k : Kernel α) (scanned : ℕ) :
    (s.landed data k scanned).obj.readBuffer.slice 0 (s.obj.buffered ++ data).length =
      s.obj.buffered ++ data := by
  have count := SockObj.length_buffered fits
  rw [List.length_append, Block.slice_add]
  simp only [St.landed, St.withBuffer_obj, Block.slice_touch, Int.zero_add, count,
    Block.slice_blit_self]
  rw [Block.slice_blit_before _ _ (by omega)]
  congr 1
  rw [SockObj.buffered, Block.slice_length]
  rfl

omit [Octet α] in
theorem length_le_of_read {s : St α} {a : Answer} {k : Kernel α} {data : List α}
    (fits : s.obj.Fits) (got : s.kernel.read s.obj.sock s.readSize a = (some data, k)) :
    s.obj.bufferPos + data.length ≤ s.obj.bufferSize := by
  obtain ⟨d, rest, -, -, bound, -, -⟩ := Kernel.read_some got
  have high := fits.high
  have ask := sizeT_le (show 0 ≤ (s.obj.bufferSize : ℤ) - s.obj.bufferPos by omega)
  unfold St.readSize at bound
  omega

/-- The bytes of the line stay inside the block when it is cut off. -/
theorem landed_cut_safe {s : St α} {k : Kernel α} {l r : List α} {c : α} (fits : s.obj.Fits)
    (room : s.obj.bufferPos + (l ++ c :: r).length ≤ s.obj.bufferSize)
    (safe : s.obj.readBuffer.safe = true) :
    (cutLine ((s.landed (l ++ c :: r) k l.length).obj.readBuffer.touch
      (s.obj.bufferPos + l.length) 1) (s.obj.bufferPos + l.length)).2.safe = true := by
  have low := fits.low
  have block := fits.block
  have free := sizeT_le (show 0 ≤ (s.obj.bufferSize : ℤ) - s.obj.bufferPos by omega)
  rw [List.length_append, List.length_cons] at room
  rw [cutLine_safe _ (by omega)]
  simp only [St.landed, St.offered, St.readSize, St.withBuffer_obj, Block.touch_safe,
    Block.touch_size, Block.blit_safe, Block.blit_size]
  exact ⟨⟨⟨⟨safe, Block.inside_of_le low (by omega)⟩, Block.inside_of_le low (by omega)⟩,
    Block.inside_of_le (by omega) (by omega)⟩, by omega⟩

/-- What follows the loop when a newline has come: the line is cut off, the bytes behind it stay. -/
theorem finishLine_of_line {s : St α} {a : Answer} {k : Kernel α} {l r : List α} {c : α}
    (fits : s.obj.Fits) (got : s.kernel.read s.obj.sock s.readSize a = (some (l ++ c :: r), k))
    (here : isNl c = true) :
    ∃ s', finishLine (s.landed (l ++ c :: r) k l.length).resume (s.obj.bufferPos + l.length)
        (r.length + 1) = (.done (.string (cut (chomp (s.obj.buffered ++ l)))), s') ∧
      LineCut s s' k r := by
  have room := length_le_of_read fits got
  have block := fits.block
  have count := SockObj.length_buffered fits
  have cut_safe := landed_cut_safe (k := k) fits room
  have place : s.obj.bufferPos + l.length = ((s.obj.buffered ++ l).length : ℤ) := by
    rw [List.length_append, Int.natCast_add, count]
  have landed := landed_slice fits (l ++ c :: r) k l.length
  rw [← List.append_assoc] at landed
  obtain ⟨front, at_c, rest⟩ := Block.slice_split landed
  have size : (s.landed (l ++ c :: r) k l.length).obj.readBuffer.size = s.obj.readBuffer.size :=
    rfl
  have capacity : (s.landed (l ++ c :: r) k l.length).obj.bufferSize = s.obj.bufferSize := rfl
  rw [List.length_append, List.length_cons] at room
  rw [Int.zero_add] at at_c rest
  rw [place] at cut_safe ⊢
  generalize (s.obj.buffered ++ l).length = p at place front at_c rest cut_safe ⊢
  have nl : isNl ((s.landed (l ++ c :: r) k l.length).resume.obj.readBuffer.cells p) = true := by
    rw [St.resume_obj, at_c]
    exact here
  rw [finishLine_of_nl nl, cutLine_fst _ (by rw [Block.touch_size, St.resume_obj, size]; omega),
    Block.slice_touch, St.resume_obj, front]
  refine ⟨_, rfl, ?_, by simp, ⟨?_, ?_, ?_⟩, rfl, rfl, rfl, fun safe => ?_⟩
  · rw [SockObj.buffered, Int.toNat_natCast, Block.slice_store_ne _ _ (Or.inr (by omega))]
    have behind : (cutLine ((s.landed (l ++ c :: r) k l.length).obj.readBuffer.touch p 1)
        p).2.slice (p + 1) r.length = r :=
      (Block.slice_eq_of_cells fun i hi => cutLine_cells_ne _ (by omega) (by omega)).trans rest
    split
    · rw [Block.slice_move_self, behind]
    · have none_left : r = [] := List.eq_nil_of_length_eq_zero (by omega)
      simp [none_left]
  · dsimp only
    omega
  · dsimp only
    omega
  · dsimp only
    rw [Block.store_size]
    split <;> simpa [size, capacity] using block
  · have cut_safe := cut_safe safe
    dsimp only
    rw [Block.store_safe]
    split
    · rw [Block.move_safe, Block.move_size, cutLine_size, Block.touch_size, size]
      exact ⟨⟨cut_safe, Block.inside_of_le (by omega) (by omega),
        Block.inside_of_le (by omega) (by omega)⟩, Block.inside_of_le (by omega) (by omega)⟩
    · rw [cutLine_size, Block.touch_size, size]
      exact ⟨cut_safe, Block.inside_of_le (by omega) (by omega)⟩

theorem RoundKeeps.eof {s : St α} {a : Answer} {k : Kernel α} (h : RoundKeeps s a)
    (got : s.kernel.read s.obj.sock s.readSize a = (some [], k)) :
    isNl (s.obj.readBuffer.cells s.obj.bufferPos) = false := by
  simpa only [RoundKeeps, got] using h

theorem RoundKeeps.chunk {s : St α} {a : Answer} {k : Kernel α} {data : List α}
    (h : RoundKeeps s a) (got : s.kernel.read s.obj.sock s.readSize a = (some data, k))
    (came : data ≠ []) : (∃ x ∈ data, isNl x = true) ∨
      (isNl (s.obj.readBuffer.cells (s.obj.bufferPos + data.length)) = false ∧
        s.obj.bufferSize - s.obj.bufferPos = s.obj.bufferPos + (data.length : ℤ)) := by
  cases data with
  | nil => exact absurd rfl came
  | cons x xs => simpa only [RoundKeeps, got] using h

/-- What holds at the head of the receive loop. -/
structure Receiving (stream : List α) (fd : ℤ) (s : St α) : Prop where
  fits : s.obj.Fits
  sock : s.obj.sock = fd
  same : s.unconsumed = stream
  clear : ∀ x ∈ s.obj.buffered, isNl x = false

omit [Octet α] in
theorem grown_fits {s : St α} (fits : s.obj.Fits) (data : List α) (k : Kernel α) :
    (s.grown data k).obj.Fits := by
  have low := fits.low
  have high := fits.high
  refine ⟨?_, ?_, le_rfl⟩
  · simp only [St.grown]
    omega
  · simp only [St.grown, SockObj.grow, St.landed, St.withBuffer_obj, St.withKernel_obj]
    omega

omit [Octet α] in
/-- The bytes of the grown buffer. -/
theorem grown_cells {s : St α} (fits : s.obj.Fits) (data : List α) (k : Kernel α) {i : ℤ}
    (low : 0 ≤ i) (high : i < s.obj.bufferSize) :
    (s.grown data k).obj.readBuffer.cells i =
      (s.offered.blit s.obj.bufferPos data).cells i := by
  have block := fits.block
  apply Block.realloc_cells _ low
  · simp only [St.landed, St.offered, St.withBuffer_obj, Block.touch_size, Block.blit_size]
    omega
  · simp only [St.landed, St.withBuffer_obj, St.withKernel_obj]
    omega

/-- A chunk without a newline that ends at the new write position is kept whole. -/
theorem Receiving.grown {stream data : List α} {fd : ℤ} {s : St α} {k : Kernel α} {a : Answer}
    (h : Receiving stream fd s) (got : s.kernel.read s.obj.sock s.readSize a = (some data, k))
    (clear : ∀ x ∈ data, isNl x = false)
    (place : s.obj.bufferSize - s.obj.bufferPos = s.obj.bufferPos + (data.length : ℤ)) :
    Receiving stream fd (s.grown data k) := by
  have old := SockObj.length_buffered h.fits
  have pos : (s.grown data k).obj.bufferPos = ((s.obj.buffered ++ data).length : ℤ) := by
    rw [List.length_append, Int.natCast_add, old, ← place]
    rfl
  have kept : (s.grown data k).obj.buffered = s.obj.buffered ++ data := by
    rw [SockObj.buffered, pos, Int.toNat_natCast]
    rw [List.length_append, Int.natCast_add, old] at pos
    refine (Block.slice_eq_of_cells fun i hi => ?_).trans (landed_slice h.fits data k 0)
    rw [List.length_append] at hi
    rw [grown_cells h.fits data k (by omega) (by omega)]
    rfl
  refine ⟨grown_fits h.fits data k, h.sock, ?_, fun x hx => ?_⟩
  · rw [← h.same, St.unconsumed, kept, List.append_assoc]
    exact congrArg (s.obj.buffered ++ ·) (Kernel.read_pending got).symm
  · rw [kept] at hx
    rcases List.mem_append.1 hx with old | new
    · exact h.clear x old
    · exact clear x new

/-- Where the receive loop ends when its rounds lose nothing. -/
def ReceiveEnds (stream : List α) (fd : ℤ) : RecvExit α → Prop
  | .failed s => s.obj.Fits ∧ s.obj.sock = fd ∧ s.unconsumed = stream ∧
      ∀ x ∈ s.obj.buffered, isNl x = false
  | .stopped s p ret => ∀ r s', finishLine s.resume p ret = (r, s') →
      LineRead stream r s' ∧ s'.obj.Fits ∧ s'.obj.sock = fd

theorem Receiving.quiet {stream : List α} {fd : ℤ} {t : St α} (h : Receiving stream fd t)
    {l : List α} (before : ∀ x ∈ l, isNl x = false) :
    ∀ x ∈ t.obj.buffered ++ l, isNl x = false := by
  intro x hx
  rcases List.mem_append.1 hx with old | new
  · exact h.clear x old
  · exact before x new

/-- Behind the line that is cut off, the rest of the stream is left. -/
theorem Receiving.split {stream : List α} {fd : ℤ} {t u : St α} (h : Receiving stream fd t)
    {a : Answer} {k : Kernel α} {l r : List α} {c : α}
    (got : t.kernel.read t.obj.sock t.readSize a = (some (l ++ c :: r), k))
    (left : LineCut t u k r) :
    stream = (t.obj.buffered ++ l) ++ c :: u.unconsumed := by
  rw [← h.same, St.unconsumed, St.unconsumed, left.buffered, left.pending]
  have came := Kernel.read_pending got
  simp only [St.pending, came, List.append_assoc, List.cons_append]

theorem receive_ends {stream : List α} {fd : ℤ} {s : St α} {answers rest : List Answer}
    {e : RecvExit α} (start : Receiving stream fd s) (keeps : FeedAll recvBody RoundKeeps s answers)
    (done : feed recvBody s answers = some (e, rest)) : ReceiveEnds stream fd e := by
  refine feed_rule (Receiving stream fd) (ReceiveEnds stream fd) ?_ ?_ start keeps done
  · intro t a e h hkeeps hbody
    have step := recvBody_spec t a
    rw [hbody] at step
    cases step with
    | failed got => exact ⟨⟨h.fits.low, h.fits.high, h.fits.block⟩, h.sock, h.same, h.clear⟩
    | ended k got =>
      intro r s' finish
      have clear : isNl (((t.withKernel k).withBuffer t.offered).resume.obj.readBuffer.cells
          t.obj.bufferPos) = false := hkeeps.eof got
      rw [finishLine_of_not clear, Prod.mk.injEq] at finish
      obtain ⟨rfl, rfl⟩ := finish
      refine ⟨.waiting _ _ (Or.inr rfl) ?_ h.clear, ⟨h.fits.low, h.fits.high, h.fits.block⟩, h.sock⟩
      rw [← h.same]
      exact congrArg (t.obj.buffered ++ ·) (Kernel.read_pending got).symm
    | line k l c rest got before nl =>
      intro r s' finish
      obtain ⟨u, value, left⟩ := finishLine_of_line h.fits got nl
      rw [value, Prod.mk.injEq] at finish
      obtain ⟨rfl, rfl⟩ := finish
      exact ⟨.line _ c u (h.quiet before) nl (h.split got left) left.terminated, left.fits,
        left.sock.trans h.sock⟩
    | stale k data got came clear behind =>
      rcases hkeeps.chunk got came with ⟨c, hc, nl⟩ | ⟨not_nl, -⟩
      · simp [clear c hc] at nl
      · simp [behind] at not_nl
  · intro t a t' h hkeeps hbody
    have step := recvBody_spec t a
    rw [hbody] at step
    cases step with
    | grown k data got came clear behind =>
      rcases hkeeps.chunk got came with ⟨c, hc, nl⟩ | ⟨-, place⟩
      · simp [clear c hc] at nl
      · exact h.grown got clear place

theorem receiving_start {s : St α} (fits : s.obj.Fits) (fresh : s.obj.NoLine) :
    Receiving s.unconsumed s.obj.sock s.receiving := by
  obtain ⟨len, buffered⟩ := SockObj.bufferedLine_of_noLine fresh
  rw [St.receiving, buffered]
  refine ⟨⟨fits.low, fits.high, fits.block⟩, rfl, rfl, fun x hx => ?_⟩
  obtain ⟨i, bound, rfl⟩ := Block.mem_slice.1 hx
  exact fresh (by dsimp only [St.suspend_obj] at bound; omega) _ (by omega)
    (by dsimp only [St.suspend_obj] at bound; omega)

/-- A call of `read` that finds no newline in the buffer and whose rounds lose nothing. -/
theorem jsSockRead_of_keeps {s s' : St α} {answers : List Answer} {r : Ret α} (fits : s.obj.Fits)
    (fresh : s.obj.NoLine) (keeps : FeedAll recvBody RoundKeeps s.receiving answers)
    (h : jsSockRead s answers = some (r, s')) :
    LineRead s.unconsumed r s' ∧ s'.obj.Fits ∧ s'.obj.sock = s.obj.sock := by
  obtain ⟨len, buffered⟩ := SockObj.bufferedLine_of_noLine fresh
  have start := receiving_start fits fresh
  have step := jsSockRead_spec h
  cases step with
  | served line o found => simp [buffered] at found
  | failed nothing t rest done =>
    obtain ⟨tfits, tsock, same, clear⟩ := receive_ends start keeps done
    exact ⟨.waiting _ _ (Or.inl rfl) same clear, tfits, tsock⟩
  | stopped nothing t p ret rest finish done => exact receive_ends start keeps done r s' finish

end Sysjs
