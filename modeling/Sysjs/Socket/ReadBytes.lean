import Sysjs.Socket.Object

/-!
# `readBytes`: a number of bytes
-/

set_option autoImplicit false

namespace Sysjs

variable {α : Type*} [Octet α]

/-- Make the buffer larger when it is smaller than the request: the block by 1024 bytes more than
the request, `buffer_size` by one more. -/
def growFor (s : St α) (n : ℤ) : St α :=
  if s.obj.bufferSize < n then
    { s with obj := s.obj.grow (n.toNat + 1024) (n.toNat + 1) }
  else s

/-- The count given to `read`: the request without what is buffered, as a `size_t`. -/
def St.missing (s : St α) (n : ℤ) : ℕ :=
  sizeT (if 0 < s.obj.bufferPos then n - s.obj.bufferPos else n)

/-- The buffer with so many bytes behind the buffered ones handed to `read`. -/
def St.offeredFor (s : St α) (n : ℤ) : Block α :=
  s.obj.readBuffer.touch s.obj.bufferPos (s.missing n)

/-- The value of `ret`: the request itself when enough is buffered, else the result of one
`read` behind the buffered bytes. -/
def fetchBytes (s : St α) (n : ℤ) (answers : List Answer) : Option (ℤ × St α) :=
  if n ≤ s.obj.bufferPos then some (n, s)
  else match answers with
    | [] => none
    | a :: _ =>
      match s.kernel.read s.obj.sock (s.missing n) a with
      | (none, k) => some (-1, (s.withKernel k).withBuffer (s.offeredFor n))
      | (some data, k) =>
        some (data.length,
          (s.withKernel k).withBuffer ((s.offeredFor n).blit s.obj.bufferPos data))

/-- The success branch: terminate, copy the bytes out, move the rest to the front.  A negative `n`
makes an array of no elements here; in C its length is out of range as well. -/
def takeBytes (s : St α) (n : ℤ) : Ret α × St α :=
  let b := s.obj.readBuffer.store n nul
  let b := b.touch 0 n
  let vec := b.slice 0 n.toNat
  let p := s.obj.bufferPos
  if 0 < p then
    (.done (.array vec),
      { s with obj := { s.obj with readBuffer := b.move 0 n (p - n), bufferPos := p - n } })
  else (.done (.array vec), s.withBuffer b)

/-- `js_sock_read_bytes`; the arguments are given as `JS_ValueToInt32` converts them. -/
def jsSockReadBytes (s : St α) (argv : List ℤ) (answers : List Answer) : Option (Ret α × St α) :=
  match argv with
  | [n] =>
    match fetchBytes (growFor s n).suspend n answers with
    | none => none
    | some (ret, s) =>
      if ret < n then some (.done (.bool false), s.resume)  -- "read_bytes failed: %d %s.\n"
      else some (takeBytes s.resume n)
  | _ => some (.done .void, s)

/-! ### What a call can do -/

section Growing

omit [Octet α]

@[simp] theorem growFor_kernel (s : St α) (n : ℤ) : (growFor s n).kernel = s.kernel := by
  unfold growFor
  split <;> rfl

@[simp] theorem growFor_requests (s : St α) (n : ℤ) : (growFor s n).requests = s.requests := by
  unfold growFor
  split <;> rfl

@[simp] theorem growFor_sock (s : St α) (n : ℤ) : (growFor s n).obj.sock = s.obj.sock := by
  unfold growFor
  split <;> rfl

@[simp] theorem growFor_state (s : St α) (n : ℤ) : (growFor s n).obj.state = s.obj.state := by
  unfold growFor
  split <;> rfl

@[simp] theorem growFor_bufferPos (s : St α) (n : ℤ) :
    (growFor s n).obj.bufferPos = s.obj.bufferPos := by
  unfold growFor
  split <;> rfl

theorem growFor_fits {s : St α} {n : ℤ} (fits : s.obj.bufferSize ≤ s.obj.readBuffer.size) :
    n ≤ (growFor s n).obj.bufferSize ∧ s.obj.bufferSize ≤ (growFor s n).obj.bufferSize ∧
      (growFor s n).obj.bufferSize ≤ (growFor s n).obj.readBuffer.size := by
  unfold growFor
  split
  · simp only [SockObj.grow, Block.realloc_size]
    omega
  · omega

theorem growFor_cells {s : St α} (n : ℤ) (fits : s.obj.bufferSize ≤ s.obj.readBuffer.size) {i : ℤ}
    (low : 0 ≤ i) (high : i < s.obj.bufferSize) :
    (growFor s n).obj.readBuffer.cells i = s.obj.readBuffer.cells i := by
  unfold growFor
  split
  · exact Block.realloc_cells _ low (by omega) (by omega)
  · rfl

@[simp] theorem growFor_safe (s : St α) (n : ℤ) :
    (growFor s n).obj.readBuffer.safe = s.obj.readBuffer.safe := by
  unfold growFor
  split <;> rfl

theorem growFor_Fits {s : St α} (n : ℤ) (fits : s.obj.Fits) : (growFor s n).obj.Fits := by
  obtain ⟨-, larger, block⟩ := growFor_fits (n := n) fits.block
  refine ⟨?_, ?_, block⟩
  · simpa using fits.low
  · have high := fits.high
    rw [growFor_bufferPos]
    omega

theorem growFor_buffered {s : St α} (n : ℤ) (fits : s.obj.Fits) :
    (growFor s n).obj.buffered = s.obj.buffered := by
  have high := fits.high
  rw [SockObj.buffered, growFor_bufferPos]
  exact Block.slice_eq_of_cells fun i hi => growFor_cells n fits.block (by omega) (by omega)

@[simp] theorem growFor_missing (s : St α) (n : ℤ) : (growFor s n).missing n = s.missing n := by
  rw [St.missing, growFor_bufferPos, St.missing]

end Growing

theorem takeBytes_bufferSize (s : St α) (n : ℤ) :
    (takeBytes s n).2.obj.bufferSize = s.obj.bufferSize := by
  unfold takeBytes
  dsimp only
  split <;> rfl

/-- What serving `n` bytes does: the byte behind them is overwritten by the terminator. -/
theorem takeBytes_served {s : St α} {n : ℕ} (fits : s.obj.Fits) (enough : n ≤ s.obj.bufferPos) :
    ∃ t, takeBytes s n = (.done (.array (s.obj.buffered.take n)), t) ∧
      t.obj.buffered = (s.obj.buffered.set n nul).drop n ∧
      t.obj.bufferPos = s.obj.bufferPos - n ∧ t.obj.Fits ∧ t.obj.sock = s.obj.sock ∧
      t.kernel = s.kernel := by
  have low := fits.low
  have high := fits.high
  have front : ((s.obj.readBuffer.store n nul).touch 0 n).slice 0 n = s.obj.buffered.take n := by
    rw [Block.slice_touch, Block.slice_store_ne _ _ (Or.inr (by omega)), SockObj.buffered,
      Block.slice_take _ _ (by omega)]
  by_cases pos : 0 < s.obj.bufferPos
  · simp only [takeBytes, Int.toNat_natCast, front, if_pos pos]
    refine ⟨_, rfl, ?_, rfl, ⟨?_, ?_, fits.block⟩, rfl, rfl⟩
    · apply List.ext_getElem (by simp [SockObj.buffered])
      intro i hi hi'
      simp only [List.length_drop, List.length_set, SockObj.buffered, Block.slice_length] at hi hi'
      rw [List.getElem_drop, List.getElem_set]
      simp only [SockObj.buffered, Block.slice_getElem, Block.move_cells, Block.touch_cells]
      rw [if_pos (by omega), Block.store_cells]
      by_cases first : n = n + i
      · rw [if_pos first, if_pos (by omega)]
      · rw [if_neg first, if_neg (by omega)]
        congr 1
        push_cast
        omega
    · dsimp only
      omega
    · dsimp only
      omega
  · have empty : s.obj.bufferPos = 0 := by omega
    have none_left : s.obj.buffered = [] := SockObj.buffered_of_zero empty
    simp only [takeBytes, Int.toNat_natCast, front, if_neg pos]
    refine ⟨_, rfl, ?_, ?_, ⟨low, high, fits.block⟩, rfl, rfl⟩
    · rw [none_left, List.set_nil, List.drop_nil]
      exact SockObj.buffered_of_zero empty
    · dsimp only [St.withBuffer_obj]
      omega

omit [Octet α] in
/-- The bytes behind the ones taken survive the terminator if there are none or the first of them
is NUL. -/
theorem drop_set_iff {l : List α} {n : ℕ} {c : α} (bound : n ≤ l.length) :
    (l.set n c).drop n = l.drop n ↔ n = l.length ∨ l[n]? = some c := by
  rcases Nat.lt_or_eq_of_le bound with inside | all
  · have old : l.drop n = l[n] :: l.drop (n + 1) := List.drop_eq_getElem_cons inside
    have new : (l.set n c).drop n = c :: l.drop (n + 1) := by
      rw [List.drop_eq_getElem_cons (by simpa using inside), List.getElem_set_self,
        List.drop_set_of_lt (by omega)]
    rw [old, new, List.cons.injEq, and_iff_left rfl, List.getElem?_eq_getElem inside,
      Option.some.injEq, eq_comm]
    exact ⟨Or.inr, fun h => h.resolve_left (by omega)⟩
  · simp [all]

theorem buffered_drop_iff {s : St α} {n : ℕ} (fits : s.obj.Fits) (enough : n ≤ s.obj.bufferPos) :
    (s.obj.buffered.set n nul).drop n = s.obj.buffered.drop n ↔
      n = s.obj.bufferPos ∨ s.obj.readBuffer.cells n = nul := by
  have count := SockObj.length_buffered fits
  rw [drop_set_iff (by omega)]
  by_cases inside : n < s.obj.buffered.length
  · rw [List.getElem?_eq_getElem inside, Option.some.injEq, SockObj.cells_buffered inside]
    exact or_congr_left (by omega)
  · exact iff_of_true (Or.inl (by omega)) (Or.inl (by omega))

theorem takeBytes_of_empty {s : St α} {n : ℕ} (fits : s.obj.Fits) (empty : s.obj.bufferPos = 0) :
    ∃ t, takeBytes s n = (.done (.array (s.obj.readBuffer.slice 0 n)), t) ∧
      t.obj.buffered = [] ∧ t.obj.Fits ∧ t.obj.sock = s.obj.sock ∧ t.kernel = s.kernel := by
  have front : ((s.obj.readBuffer.store n nul).touch 0 n).slice 0 n =
      s.obj.readBuffer.slice 0 n := by
    rw [Block.slice_touch, Block.slice_store_ne _ _ (Or.inr (by omega))]
  have none_kept : ¬ 0 < s.obj.bufferPos := by omega
  simp only [takeBytes, Int.toNat_natCast, front, if_neg none_kept]
  exact ⟨_, rfl, SockObj.buffered_of_zero empty, ⟨fits.low, fits.high, fits.block⟩, rfl, rfl⟩

/-- The outcomes of `readBytes(n)`; `t` is the state after growing the buffer. -/
inductive BytesStep (s : St α) (n : ℤ) (answers : List Answer) (t : St α) :
    Ret α × St α → Prop where
  /-- Enough is buffered. -/
  | served (h : n ≤ s.obj.bufferPos) : BytesStep s n answers t (takeBytes t.suspend.resume n)
  | failed (a : Answer) (asked : answers.head? = some a) (h : s.obj.bufferPos < n)
      (got : s.kernel.read s.obj.sock (t.missing n) a = (none, s.kernel)) :
      BytesStep s n answers t
        (if -1 < n then
          (.done (.bool false),
            ((t.suspend.withKernel s.kernel).withBuffer (t.offeredFor n)).resume)
        else takeBytes ((t.suspend.withKernel s.kernel).withBuffer (t.offeredFor n)).resume n)
  | short (a : Answer) (asked : answers.head? = some a) (h : s.obj.bufferPos < n) (k : Kernel α)
      (data : List α) (got : s.kernel.read s.obj.sock (t.missing n) a = (some data, k))
      (few : data.length < n) :
      BytesStep s n answers t (.done (.bool false),
        ((t.suspend.withKernel k).withBuffer
          ((t.offeredFor n).blit s.obj.bufferPos data)).resume)
  | filled (a : Answer) (asked : answers.head? = some a) (h : s.obj.bufferPos < n) (k : Kernel α)
      (data : List α) (got : s.kernel.read s.obj.sock (t.missing n) a = (some data, k))
      (enough : n ≤ data.length) :
      BytesStep s n answers t
        (takeBytes ((t.suspend.withKernel k).withBuffer
          ((t.offeredFor n).blit s.obj.bufferPos data)).resume n)

/-- The state after the `read` of a request has put `data` behind the buffered bytes. -/
def St.toppedWith (s : St α) (n : ℤ) (k : Kernel α) (data : List α) : St α :=
  (((growFor s n).suspend.withKernel k).withBuffer
    (((growFor s n).offeredFor n).blit s.obj.bufferPos data)).resume

theorem jsSockReadBytes_of_le {s : St α} {n : ℤ} (answers : List Answer)
    (enough : n ≤ s.obj.bufferPos) :
    jsSockReadBytes s [n] answers = some (takeBytes (growFor s n).suspend.resume n) := by
  have pos : (growFor s n).suspend.obj.bufferPos = s.obj.bufferPos := by simp
  simp only [jsSockReadBytes, fetchBytes, pos, if_pos enough, lt_irrefl, if_false]

section Asking

variable {s : St α} {n : ℤ} {a : Answer} {k : Kernel α} (rest : List Answer)
  (more : s.obj.bufferPos < n)

include more

theorem jsSockReadBytes_of_nil : jsSockReadBytes s [n] [] = none := by
  have pos : (growFor s n).suspend.obj.bufferPos = s.obj.bufferPos := by simp
  have served : ¬ n ≤ s.obj.bufferPos := by omega
  simp only [jsSockReadBytes, fetchBytes, pos, if_neg served]

omit [Octet α] in
/-- The one `read` of a larger request: its count, or -1, and the bytes behind the buffered ones. -/
theorem fetchBytes_of_read {came : Option (List α)}
    (got : s.kernel.read s.obj.sock (s.missing n) a = (came, k)) :
    fetchBytes (growFor s n).suspend n (a :: rest) =
      some (came.elim (-1) fun data => (data.length : ℤ),
        ((growFor s n).suspend.withKernel k).withBuffer
          (((growFor s n).offeredFor n).blit s.obj.bufferPos (came.getD []))) := by
  have pos : (growFor s n).suspend.obj.bufferPos = s.obj.bufferPos := by simp
  have kernel : (growFor s n).suspend.kernel = s.kernel := by simp
  have sock : (growFor s n).suspend.obj.sock = s.obj.sock := by simp
  have missing : (growFor s n).suspend.missing n = s.missing n := growFor_missing s n
  have offered : (growFor s n).suspend.offeredFor n = (growFor s n).offeredFor n := rfl
  have served : ¬ n ≤ s.obj.bufferPos := by omega
  simp only [fetchBytes, pos, if_neg served, kernel, sock, missing, offered, got]
  cases came with
  | none => rw [Option.getD_none, Block.blit_nil, Option.elim_none]
  | some data => rw [Option.getD_some, Option.elim_some]

theorem jsSockReadBytes_of_fail
    (got : s.kernel.read s.obj.sock (s.missing n) a = (none, k)) :
    jsSockReadBytes s [n] (a :: rest) = some (if -1 < n then
      (.done (.bool false), s.toppedWith n k []) else takeBytes (s.toppedWith n k []) n) := by
  simp only [jsSockReadBytes, fetchBytes_of_read rest more got, Option.elim_none, Option.getD_none,
    St.toppedWith]
  split <;> rfl

theorem jsSockReadBytes_of_read {data : List α}
    (got : s.kernel.read s.obj.sock (s.missing n) a = (some data, k)) :
    jsSockReadBytes s [n] (a :: rest) = some (if data.length < n then
      (.done (.bool false), s.toppedWith n k data) else takeBytes (s.toppedWith n k data) n) := by
  simp only [jsSockReadBytes, fetchBytes_of_read rest more got, Option.elim_some, Option.getD_some,
    St.toppedWith]
  split <;> rfl

end Asking

theorem jsSockReadBytes_spec {s s' : St α} {n : ℤ} {answers : List Answer} {r : Ret α}
    (h : jsSockReadBytes s [n] answers = some (r, s')) :
    BytesStep s n answers (growFor s n) (r, s') := by
  by_cases served : n ≤ s.obj.bufferPos
  · rw [jsSockReadBytes_of_le answers served, Option.some.injEq] at h
    rw [← h]
    exact .served served
  · cases answers with
    | nil =>
      rw [jsSockReadBytes_of_nil (by omega)] at h
      cases h
    | cons a rest =>
      have missing := growFor_missing s n
      rcases got : s.kernel.read s.obj.sock (s.missing n) a with ⟨_ | data, k⟩
      · rw [jsSockReadBytes_of_fail rest (by omega) got, Option.some.injEq, St.toppedWith,
          Block.blit_nil] at h
        rw [← h]
        rw [← missing] at got
        obtain rfl := Kernel.read_none got
        exact .failed a rfl (by omega) got
      · rw [jsSockReadBytes_of_read rest (by omega) got, Option.some.injEq] at h
        rw [← h]
        rw [← missing] at got
        split
        · next few => exact .short a rfl (by omega) k data got few
        · next enough => exact .filled a rfl (by omega) k data got (by omega)

/-! ### Requests for bytes -/

/-- What a request leaves: these bytes, in a buffer that was grown for it. -/
structure Leaves (s t : St α) (n : ℤ) (rest : List α) : Prop where
  buffered : t.obj.buffered = rest
  fits : t.obj.Fits
  sock : t.obj.sock = s.obj.sock
  bufferSize : t.obj.bufferSize = (growFor s n).obj.bufferSize

omit [Octet α] in
theorem Leaves.bufferPos {s t : St α} {n : ℤ} {rest : List α} (left : Leaves s t n rest) :
    t.obj.bufferPos = rest.length := by
  rw [← SockObj.length_buffered left.fits, left.buffered]

omit [Octet α] in
theorem Leaves.pending {s t : St α} {n : ℤ} {rest : List α} (left : Leaves s t n rest) {a : Answer}
    {count : ℕ} {came : Option (List α)}
    (got : s.kernel.read s.obj.sock count a = (came, t.kernel)) :
    s.pending = came.getD [] ++ t.pending := by
  rw [St.pending, St.pending, left.sock]
  cases came with
  | none => rw [Kernel.read_none got, Option.getD_none, List.nil_append]
  | some data => exact Kernel.read_pending got

omit [Octet α] in
theorem toppedWith_leaves {s : St α} (fits : s.obj.Fits) (n : ℤ) (k : Kernel α) (data : List α) :
    Leaves s (s.toppedWith n k data) n s.obj.buffered := by
  have low := fits.low
  have pos : (s.toppedWith n k data).obj.bufferPos = s.obj.bufferPos := by simp [St.toppedWith]
  have fits' := growFor_Fits n fits
  refine ⟨?_, ⟨fits'.low, fits'.high, fits'.block⟩, growFor_sock s n, rfl⟩
  rw [← growFor_buffered n fits]
  exact Block.slice_blit_before _ _ (by omega)

/-- A request that the buffer can serve: the byte behind it is overwritten by the terminator. -/
theorem readBytes_served {s : St α} {n : ℕ} (answers : List Answer) (fits : s.obj.Fits)
    (enough : n ≤ s.obj.bufferPos) :
    ∃ t, jsSockReadBytes s [n] answers = some (.done (.array (s.obj.buffered.take n)), t) ∧
      Leaves s t n ((s.obj.buffered.set n nul).drop n) ∧ t.kernel = s.kernel := by
  have buffered := growFor_buffered (n : ℤ) fits
  have size := takeBytes_bufferSize (growFor s n).suspend.resume n
  obtain ⟨t, value, left, -, fits', sock, kernel⟩ :=
    takeBytes_served (s := (growFor s n).suspend.resume) (n := n) (growFor_Fits (n : ℤ) fits)
      (by simpa using enough)
  rw [value] at size
  simp only [St.resume_obj, St.suspend_obj, buffered] at value left
  exact ⟨t, by rw [jsSockReadBytes_of_le answers enough, value],
    ⟨left, fits', sock.trans (growFor_sock s n), size⟩, kernel.trans (growFor_kernel s n)⟩

omit [Octet α] in
theorem missing_le {s : St α} {n : ℤ} (low : 0 ≤ s.obj.bufferPos) (more : s.obj.bufferPos < n) :
    s.obj.bufferPos + s.missing n ≤ n := by
  unfold St.missing
  split
  · have ask := sizeT_le (show 0 ≤ n - s.obj.bufferPos by omega)
    omega
  · have ask := sizeT_le (show 0 ≤ n by omega)
    omega

omit [Octet α] in
theorem length_le_missing {s : St α} {n : ℤ} {a : Answer} {k : Kernel α} {data : List α}
    (low : 0 ≤ s.obj.bufferPos) (more : s.obj.bufferPos < n)
    (got : s.kernel.read s.obj.sock (s.missing n) a = (some data, k)) :
    s.obj.bufferPos + data.length ≤ n := by
  obtain ⟨d, rest, -, -, bound, -, -⟩ := Kernel.read_some got
  have ask := missing_le low more
  omega

/-- A request whose `read` delivers as many bytes as it is for: nothing was buffered. -/
theorem readBytes_whole {s : St α} {n : ℕ} {a : Answer} {k : Kernel α} {data : List α}
    (rest : List Answer) (fits : s.obj.Fits) (more : s.obj.bufferPos < n)
    (got : s.kernel.read s.obj.sock (s.missing n) a = (some data, k)) (enough : n ≤ data.length) :
    s.obj.bufferPos = 0 ∧ data.length = n ∧
      ∃ t, jsSockReadBytes s [n] (a :: rest) = some (.done (.array data), t) ∧
        Leaves s t n [] ∧ t.kernel = k := by
  have low := fits.low
  have bound := length_le_missing low more got
  have empty : s.obj.bufferPos = 0 := by omega
  obtain rfl : data.length = n := by omega
  have topped := toppedWith_leaves fits data.length k data
  have size := takeBytes_bufferSize (s.toppedWith data.length k data) data.length
  obtain ⟨t, value, left, fits', sock, kernel⟩ := takeBytes_of_empty (n := data.length) topped.fits
    (by simp [St.toppedWith, empty])
  have taken : (s.toppedWith data.length k data).obj.readBuffer.slice 0 data.length = data := by
    unfold St.toppedWith
    rw [empty]
    exact Block.slice_blit_self _ _ _
  rw [taken] at value
  rw [value] at size
  refine ⟨empty, rfl, t, ?_, ⟨left, fits', sock.trans topped.sock, size⟩, kernel⟩
  rw [jsSockReadBytes_of_read rest more got, if_neg (by omega), value]

/-- The outcomes of a request, and what it leaves. -/
inductive RequestStep (s : St α) (n : ℕ) (answers : List Answer) : Ret α → St α → Prop where
  | served (t : St α) (enough : n ≤ s.obj.bufferPos)
      (left : Leaves s t n ((s.obj.buffered.set n nul).drop n)) (kernel : t.kernel = s.kernel) :
      RequestStep s n answers (.done (.array (s.obj.buffered.take n))) t
  /-- Fewer bytes come than the request is for. -/
  | short (t : St α) (a : Answer) (asked : answers.head? = some a) (more : s.obj.bufferPos < n)
      (came : Option (List α)) (few : (came.getD []).length < n)
      (got : s.kernel.read s.obj.sock (s.missing n) a = (came, t.kernel))
      (left : Leaves s t n s.obj.buffered) : RequestStep s n answers (.done (.bool false)) t
  | whole (t : St α) (a : Answer) (asked : answers.head? = some a) (data : List α)
      (empty : s.obj.bufferPos = 0) (all : data.length = n)
      (got : s.kernel.read s.obj.sock (s.missing n) a = (some data, t.kernel))
      (left : Leaves s t n []) : RequestStep s n answers (.done (.array data)) t

theorem readBytes_step {s s' : St α} {n : ℕ} {answers : List Answer} {r : Ret α}
    (fits : s.obj.Fits) (h : jsSockReadBytes s [n] answers = some (r, s')) :
    RequestStep s n answers r s' := by
  have low := fits.low
  by_cases enough : n ≤ s.obj.bufferPos
  · obtain ⟨t, value, left, kernel⟩ := readBytes_served answers fits enough
    rw [value, Option.some.injEq, Prod.mk.injEq] at h
    obtain ⟨rfl, rfl⟩ := h
    exact .served _ enough left kernel
  · have more : s.obj.bufferPos < n := by omega
    cases answers with
    | nil =>
      rw [jsSockReadBytes_of_nil more] at h
      cases h
    | cons a rest =>
      rcases got : s.kernel.read s.obj.sock (s.missing n) a with ⟨_ | data, k⟩
      · rw [jsSockReadBytes_of_fail rest more got, if_pos (by omega), Option.some.injEq,
          Prod.mk.injEq] at h
        obtain ⟨rfl, rfl⟩ := h
        exact .short _ a rfl more none (by simpa using low.trans_lt more) got
          (toppedWith_leaves fits n k [])
      · by_cases few : data.length < n
        · rw [jsSockReadBytes_of_read rest more got, if_pos (by omega), Option.some.injEq,
            Prod.mk.injEq] at h
          obtain ⟨rfl, rfl⟩ := h
          exact .short _ a rfl more (some data) few got (toppedWith_leaves fits n k data)
        · obtain ⟨empty, all, t, value, left, rfl⟩ :=
            readBytes_whole rest fits more got (by omega)
          rw [value, Option.some.injEq, Prod.mk.injEq] at h
          obtain ⟨rfl, rfl⟩ := h
          exact .whole _ a rfl data empty all got left

end Sysjs
