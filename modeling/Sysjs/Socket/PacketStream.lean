import Sysjs.Socket.Packets

/-!
# The packet readers on a stream

What `read_ws_packet` and `readEatonPacket` do when a whole packet comes: each read delivers, and
the packet stands at the front of what the descriptor has to deliver.
-/

set_option autoImplicit false

namespace Sysjs

open Feed

variable {α : Type*}

/-- The object's descriptor is an open stream that has exactly `bytes` to deliver. -/
def St.Delivers (s : St α) (bytes : List α) : Prop :=
  ∃ d, s.kernel.desc s.obj.sock = some d ∧ d.kind ≠ .listening ∧ d.pending = bytes

/-- No answer is a failure. -/
def NoFail (answers : List Answer) : Prop := ∀ a ∈ answers, a ≠ .fail

theorem NoFail.head {a : Answer} {as : List Answer} (h : NoFail (a :: as)) : a ≠ .fail :=
  h a List.mem_cons_self

theorem NoFail.tail {a : Answer} {as : List Answer} (h : NoFail (a :: as)) : NoFail as :=
  fun b hb => h b (List.mem_cons_of_mem _ hb)

theorem NoFail.cons {a : Answer} {as : List Answer} (here : a ≠ .fail) (h : NoFail as) :
    NoFail (a :: as) := by
  intro b hb
  rcases List.mem_cons.1 hb with rfl | hb
  · exact here
  · exact h b hb

theorem NoFail.front {as bs : List Answer} (h : NoFail (as ++ bs)) : NoFail as :=
  fun b hb => h b (List.mem_append_left _ hb)

theorem NoFail.back {as bs : List Answer} (h : NoFail (as ++ bs)) : NoFail bs :=
  fun b hb => h b (List.mem_append_right _ hb)

theorem answers_split (answers : List Answer) {n : ℕ} (enough : n < answers.length) :
    ∃ front a more, answers = front ++ a :: more ∧ front.length = n := by
  refine ⟨answers.take n, answers[n], answers.drop (n + 1), ?_, ?_⟩
  · rw [List.getElem_cons_drop, List.take_append_drop]
  · rw [List.length_take]
    omega

theorem St.Delivers.pending {s : St α} {bytes : List α} (h : s.Delivers bytes) :
    s.pending = bytes := by
  obtain ⟨d, opened, -, rfl⟩ := h
  exact Kernel.pending_of_desc opened

theorem St.Delivers.congr {s t : St α} {bytes : List α} (h : s.Delivers bytes)
    (kernel : t.kernel = s.kernel) (sock : t.obj.sock = s.obj.sock) : t.Delivers bytes := by
  unfold St.Delivers
  rw [kernel, sock]
  exact h

theorem St.Delivers.read {s : St α} {bytes : List α} (h : s.Delivers bytes) {count : ℕ}
    (small : count < 2 ^ 63) (n : ℕ) :
    ∃ k, s.kernel.read s.obj.sock count (.upTo n) =
        (some (bytes.take (min (max n 1) (min count bytes.length))), k) ∧
      (s.withKernel k).Delivers (bytes.drop (min (max n 1) (min count bytes.length))) := by
  obtain ⟨d, opened, stream, rfl⟩ := h
  exact ⟨_, Kernel.read_of_stream opened stream small n,
    _, Kernel.desc_set_self (Kernel.nonneg_of_desc opened) _, stream, rfl⟩

/-- One `read` for one byte delivers the next byte, if there is one. -/
theorem St.Delivers.read_one {s : St α} {bytes : List α} (h : s.Delivers bytes) {a : Answer}
    (answered : a ≠ .fail) :
    ∃ k, s.kernel.read s.obj.sock 1 a = (some (bytes.take 1), k) ∧
      (s.withKernel k).Delivers (bytes.drop 1) := by
  cases a with
  | fail => exact absurd rfl answered
  | upTo n =>
    obtain ⟨k, got, after⟩ := h.read (show 1 < 2 ^ 63 by omega) n
    cases bytes with
    | nil => exact ⟨k, by simpa using got, by simpa using after⟩
    | cons c rest =>
      have one : min (max n 1) (min 1 (c :: rest).length) = 1 := by simp
      rw [one] at got after
      exact ⟨k, got, after⟩

theorem St.Delivers.read_byte {s : St α} {c : α} {rest : List α} (h : s.Delivers (c :: rest))
    {a : Answer} (answered : a ≠ .fail) :
    ∃ k, s.kernel.read s.obj.sock 1 a = (some [c], k) ∧ (s.withKernel k).Delivers rest :=
  h.read_one answered

variable [Octet α]

/-! ### `read_ws_packet` -/

/-- Bytes before the opening byte are passed over. -/
theorem ws_skip {l : WsLoop α} {g r : List α} {as : List Answer} (more : List Answer)
    (waiting : l.synced = false) (stream : l.st.Delivers (g ++ r))
    (garbage : ∀ x ∈ g, isNul x = false) (count : as.length = g.length) (answered : NoFail as) :
    ∃ k, feed wsBody l (as ++ more) = feed wsBody { l with st := l.st.withKernel k } more ∧
      (l.st.withKernel k).Delivers r := by
  induction g generalizing l as with
  | nil =>
    obtain rfl : as = [] := List.eq_nil_of_length_eq_zero (by simpa using count)
    exact ⟨l.st.kernel, rfl, stream⟩
  | cons x g ih =>
    cases as with
    | nil => simp at count
    | cons a as =>
      obtain ⟨k, got, after⟩ := stream.read_byte answered.head
      have skip : isNul x = false := garbage x List.mem_cons_self
      have body : wsBody l a = .inr { l with st := l.st.withKernel k } := by
        rw [wsBody_of_waiting got waiting, skip, ← waiting]
      rw [List.cons_append, feed_cons_inr _ body]
      exact ih waiting after (fun y hy => garbage y (List.mem_cons_of_mem _ hy))
        (by simpa using count) answered.tail

/-- Garbage before a frame is passed over up to the opening byte. -/
theorem ws_sync {l : WsLoop α} {g rest : List α} {z : α} {as : List Answer} (more : List Answer)
    (waiting : l.synced = false) (stream : l.st.Delivers (g ++ z :: rest))
    (garbage : ∀ x ∈ g, isNul x = false) (opening : isNul z = true)
    (count : as.length = g.length + 1) (answered : NoFail as) :
    ∃ k, feed wsBody l (as ++ more) =
        feed wsBody { l with st := l.st.withKernel k, synced := true } more ∧
      (l.st.withKernel k).Delivers rest := by
  obtain ⟨front, a, last, rfl, first⟩ := answers_split as (n := g.length) (by omega)
  rw [List.length_append, List.length_cons, first] at count
  obtain rfl := List.eq_nil_of_length_eq_zero (show last.length = 0 by omega)
  obtain ⟨k, skipped, before⟩ := ws_skip (a :: more) waiting stream garbage first answered.front
  obtain ⟨k', got, after⟩ := before.read_byte answered.back.head
  have body : wsBody { l with st := l.st.withKernel k } a =
      .inr { l with st := l.st.withKernel k', synced := true } := by
    have step := wsBody_of_waiting (l := { l with st := l.st.withKernel k }) got waiting
    rw [opening, St.withKernel_withKernel] at step
    exact step
  refine ⟨k', ?_, after⟩
  rw [List.append_assoc, List.singleton_append, skipped, feed_cons_inr _ body]

/-- What reading a payload leaves alone. -/
structure SameBut (s t : St α) : Prop where
  sock : t.obj.sock = s.obj.sock
  state : t.obj.state = s.obj.state
  bufferPos : t.obj.bufferPos = s.obj.bufferPos
  requests : t.requests = s.requests
  safe : t.obj.readBuffer.safe = s.obj.readBuffer.safe
  fits : t.obj.bufferSize ≤ t.obj.readBuffer.size
  size : s.obj.bufferSize ≤ t.obj.bufferSize

omit [Octet α] in
theorem SameBut.trans {s t u : St α} (h : SameBut s t) (h' : SameBut t u) : SameBut s u where
  sock := h'.sock.trans h.sock
  state := h'.state.trans h.state
  bufferPos := h'.bufferPos.trans h.bufferPos
  requests := h'.requests.trans h.requests
  safe := h'.safe.trans h.safe
  fits := h'.fits
  size := h.size.trans h'.size

omit [Octet α] in
/-- A stored byte changes only the buffer. -/
theorem putByte_sameBut {s : St α} {k : Kernel α} {total : ℕ} {c : α}
    (room : total < s.obj.bufferSize) (fits : s.obj.bufferSize ≤ s.obj.readBuffer.size) :
    SameBut s (putByte (s.withKernel k) total c) where
  sock := by simp
  state := by simp
  bufferPos := by simp
  requests := by simp
  safe := putByte_safe (s := s.withKernel k) room fits
  fits := (putByte_room (s := s.withKernel k) room fits).2.2
  size := (putByte_room (s := s.withKernel k) room fits).2.1

/-- Payload bytes are stored one behind the other; a terminator fits behind them. -/
theorem ws_store {l : WsLoop α} {p r : List α} {as : List Answer} (more : List Answer)
    (inside : l.synced = true) (stream : l.st.Delivers (p ++ r))
    (payload : ∀ x ∈ p, Octet.val x ≠ 0xff) (room : l.total < l.st.obj.bufferSize)
    (fits : l.st.obj.bufferSize ≤ l.st.obj.readBuffer.size) (count : as.length = p.length)
    (answered : NoFail as) :
    ∃ t, feed wsBody l (as ++ more) =
        feed wsBody { st := t, synced := true, total := l.total + p.length } more ∧
      t.Delivers r ∧ SameBut l.st t ∧ l.total + p.length < t.obj.bufferSize ∧
      t.obj.readBuffer.slice 0 (l.total + p.length) =
        l.st.obj.readBuffer.slice 0 l.total ++ p := by
  induction p generalizing l as with
  | nil =>
    obtain rfl : as = [] := List.eq_nil_of_length_eq_zero (by simpa using count)
    refine ⟨l.st, ?_, stream, ⟨rfl, rfl, rfl, rfl, rfl, fits, le_rfl⟩, room, ?_⟩
    · rw [← inside]
      rfl
    · simp
  | cons x p ih =>
    cases as with
    | nil => simp at count
    | cons a as =>
      obtain ⟨k, got, after⟩ := stream.read_byte answered.head
      have more_to_come : Octet.val x ≠ 0xff := payload x List.mem_cons_self
      have here : SameBut l.st (putByte (l.st.withKernel k) l.total x) := putByte_sameBut room fits
      have roomy := (putByte_room (s := l.st.withKernel k) (c := x) room fits).1
      have slice := putByte_slice (s := l.st.withKernel k) (c := x) room fits
      rw [List.cons_append, feed_cons_inr _ (wsBody_of_payload got inside more_to_come)]
      obtain ⟨t, loop, later, same, roomy', slice'⟩ := ih
        (l := { l with st := putByte (l.st.withKernel k) l.total x, total := l.total + 1 })
        inside (after.congr (by simp) (by simp)) (fun y hy => payload y (List.mem_cons_of_mem _ hy))
        roomy here.fits (by simpa using count) answered.tail
      have total : l.total + 1 + p.length = l.total + (x :: p).length := by
        simp only [List.length_cons]
        omega
      rw [total] at loop roomy' slice'
      refine ⟨t, loop, later, here.trans same, roomy', ?_⟩
      rw [slice', slice]
      simp

/-- The payload is stored byte by byte until the closing byte; a terminator fits behind it. -/
theorem ws_payload {l : WsLoop α} {p rest : List α} {e : α} {as : List Answer} (more : List Answer)
    (inside : l.synced = true) (stream : l.st.Delivers (p ++ e :: rest))
    (payload : ∀ x ∈ p, Octet.val x ≠ 0xff) (closing : Octet.val e = 0xff)
    (room : l.total < l.st.obj.bufferSize)
    (fits : l.st.obj.bufferSize ≤ l.st.obj.readBuffer.size)
    (count : as.length = p.length + 1) (answered : NoFail as) :
    ∃ t, feed wsBody l (as ++ more) = some (.stopped t (l.total + p.length), more) ∧
      t.Delivers rest ∧ SameBut l.st t ∧ l.total + p.length + 1 < t.obj.bufferSize ∧
      t.obj.readBuffer.slice 0 (l.total + p.length) =
        l.st.obj.readBuffer.slice 0 l.total ++ p := by
  obtain ⟨front, a, last, rfl, first⟩ := answers_split as (n := p.length) (by omega)
  rw [List.length_append, List.length_cons, first] at count
  obtain rfl := List.eq_nil_of_length_eq_zero (show last.length = 0 by omega)
  obtain ⟨t, stored, before, same, roomy, slice⟩ := ws_store (a :: more) inside stream payload
    room fits first answered.front
  obtain ⟨k, got, after⟩ := before.read_byte answered.back.head
  have body := wsBody_of_closing (l := { st := t, synced := true, total := l.total + p.length })
    got rfl closing
  refine ⟨putByte (t.withKernel k) (l.total + p.length) e, ?_, after.congr (by simp) (by simp),
    same.trans (putByte_sameBut roomy same.fits),
    (putByte_room (s := t.withKernel k) roomy same.fits).1, ?_⟩
  · rw [List.append_assoc, List.singleton_append, stored, feed_cons_inl _ body]
  · have kept := putByte_slice (s := t.withKernel k) (c := e) roomy same.fits
    rw [Block.slice_succ] at kept
    rw [List.append_inj_left' kept rfl]
    exact slice

/-- The string of a call is what its loop has stored, up to the first NUL. -/
theorem readWsPacket_of_stopped {s t : St α} {total : ℕ} {p : List α} {answers more : List Answer}
    (loop : feed wsBody { st := s.suspend, synced := false, total := 0 } answers =
      some (.stopped t total, more))
    (inside : total < t.obj.readBuffer.size) (stored : t.obj.readBuffer.slice 0 total = p) :
    jsSockReadWsPacket s answers = some (.done (.string (cut p)), t.resume.withBuffer
      ((t.obj.readBuffer.store total nul).touch 0 ((cut p).length + 1))) := by
  have text : cString (t.obj.readBuffer.store total nul) = cut p := by
    rw [cString_of_nul (by rwa [Block.store_size]) (by simp),
      Block.slice_store_ne _ _ (Or.inr (by omega)), stored]
  simp only [jsSockReadWsPacket, loop, text]

/-- A whole frame at the front of the stream is read as one packet: garbage, the opening byte, the
payload and the closing byte are consumed, and the payload up to its first NUL is the string. -/
theorem readWsPacket_of_frame {s : St α} {g p rest : List α} {z e : α} {as : List Answer}
    (more : List Answer)
    (stream : s.Delivers (g ++ z :: (p ++ e :: rest))) (garbage : ∀ x ∈ g, isNul x = false)
    (opening : isNul z = true) (payload : ∀ x ∈ p, Octet.val x ≠ 0xff)
    (closing : Octet.val e = 0xff) (fits : s.obj.bufferSize ≤ s.obj.readBuffer.size)
    (count : as.length = g.length + p.length + 2) (answered : NoFail as) :
    ∃ t, jsSockReadWsPacket s (as ++ more) = some (.done (.string (cut p)), t) ∧
      t.Delivers rest ∧ t.obj.sock = s.obj.sock ∧ t.obj.bufferPos = s.obj.bufferPos ∧
      s.obj.bufferSize ≤ t.obj.bufferSize ∧ t.obj.bufferSize ≤ t.obj.readBuffer.size := by
  have two := s.obj.room
  have halves : as = as.take (g.length + 1) ++ as.drop (g.length + 1) :=
    (List.take_append_drop _ _).symm
  have first : NoFail (as.take (g.length + 1)) := fun a ha => answered a (List.mem_of_mem_take ha)
  have second : NoFail (as.drop (g.length + 1)) := fun a ha => answered a (List.mem_of_mem_drop ha)
  obtain ⟨k, synced, after⟩ := ws_sync (l := { st := s.suspend, synced := false, total := 0 })
    (as.drop (g.length + 1) ++ more) rfl (stream.congr rfl rfl) garbage opening
    (by rw [List.length_take]; omega) first
  obtain ⟨t, ends, later, same, roomy, slice⟩ := ws_payload
    (l := { st := s.suspend.withKernel k, synced := true, total := 0 }) more
    rfl after payload closing (by dsimp only [St.withKernel_obj, St.suspend_obj]; omega) fits
    (by rw [List.length_drop]; omega) second
  have loop : feed wsBody { st := s.suspend, synced := false, total := 0 } (as ++ more) =
      some (.stopped t p.length, more) := by
    rw [halves, List.append_assoc, synced, ends]
    simp
  simp only [Nat.zero_add, Block.slice_zero, List.nil_append] at roomy slice
  have inside : p.length < t.obj.readBuffer.size := by
    have := same.fits
    omega
  refine ⟨_, readWsPacket_of_stopped loop inside slice, later.congr rfl rfl, same.sock,
    same.bufferPos, same.size, ?_⟩
  simpa using same.fits

/-! ### `readEatonPacket` -/

/-- Bytes that are no header byte are passed over; the last one stays in the buffer. -/
theorem eaton_skip {s : St α} (buf : Block α) {g r : List α} {as : List Answer}
    (more : List Answer) (stream : s.Delivers (g ++ r)) (garbage : ∀ x ∈ g, Octet.val x ≠ 0x5a)
    (count : as.length = g.length) (answered : NoFail as) :
    ∃ k buf', feed eatonBody (s, buf) (as ++ more) = feed eatonBody (s.withKernel k, buf') more ∧
      (s.withKernel k).Delivers r ∧ buf'.cells 0 = g.getLast?.getD (buf.cells 0) := by
  induction g generalizing s buf as with
  | nil =>
    obtain rfl : as = [] := List.eq_nil_of_length_eq_zero (by simpa using count)
    exact ⟨s.kernel, buf, rfl, stream, rfl⟩
  | cons x g ih =>
    cases as with
    | nil => simp at count
    | cons a as =>
      obtain ⟨k, got, after⟩ := stream.read_byte answered.head
      have skip : Octet.val x ≠ 0x5a := garbage x List.mem_cons_self
      obtain ⟨k', buf', loop, after', last⟩ := ih (buf.store 0 x) after
        (fun y hy => garbage y (List.mem_cons_of_mem _ hy)) (by simpa using count) answered.tail
      refine ⟨k', buf', ?_, after', ?_⟩
      · rw [List.cons_append, feed_cons_inr _ (eatonBody_of_garbage got skip), loop,
          St.withKernel_withKernel]
      · rw [last, Block.store_cells_self, List.getLast?_cons, Option.getD_some]

/-- Bytes before the header byte are passed over. -/
theorem eaton_sync {s : St α} (buf : Block α) {g rest : List α} {h : α} {as : List Answer}
    (more : List Answer)
    (stream : s.Delivers (g ++ h :: rest)) (garbage : ∀ x ∈ g, Octet.val x ≠ 0x5a)
    (header : Octet.val h = 0x5a) (count : as.length = g.length + 1) (answered : NoFail as) :
    ∃ k buf', feed eatonBody (s, buf) (as ++ more) = some (.stopped (s.withKernel k) buf', more) ∧
      (s.withKernel k).Delivers rest ∧ buf'.cells 0 = h := by
  obtain ⟨front, a, last, rfl, first⟩ := answers_split as (n := g.length) (by omega)
  rw [List.length_append, List.length_cons, first] at count
  obtain rfl := List.eq_nil_of_length_eq_zero (show last.length = 0 by omega)
  obtain ⟨k, buf', skipped, before, -⟩ := eaton_skip buf (a :: more) stream garbage first
    answered.front
  obtain ⟨k', got, after⟩ := before.read_byte answered.back.head
  have body : eatonBody (s.withKernel k, buf') a =
      .inl (.stopped (s.withKernel k') (buf'.store 0 h)) := by
    rw [eatonBody_of_header got header, St.withKernel_withKernel]
  refine ⟨k', buf'.store 0 h, ?_, after, Block.store_cells_self _ _ _⟩
  rw [List.append_assoc, List.singleton_append, skipped, feed_cons_inl _ body]

/-- A stream that ends without a header byte. -/
theorem eaton_unsynced {s : St α} (buf : Block α) {g : List α} {as : List Answer}
    (more : List Answer) (stream : s.Delivers g) (garbage : ∀ x ∈ g, Octet.val x ≠ 0x5a)
    (count : as.length = g.length + 1) (answered : NoFail as) :
    ∃ k buf', feed eatonBody (s, buf) (as ++ more) = some (.stopped (s.withKernel k) buf', more) ∧
      (s.withKernel k).Delivers [] ∧ buf'.cells 0 = g.getLast?.getD (buf.cells 0) := by
  obtain ⟨front, a, last, rfl, first⟩ := answers_split as (n := g.length) (by omega)
  rw [List.length_append, List.length_cons, first] at count
  obtain rfl := List.eq_nil_of_length_eq_zero (show last.length = 0 by omega)
  obtain ⟨k, buf', skipped, before, stale⟩ := eaton_skip buf (r := []) (a :: more)
    (by rwa [List.append_nil]) garbage first answered.front
  obtain ⟨k', got, after⟩ := before.read_one answered.back.head
  have body : eatonBody (s.withKernel k, buf') a =
      .inl (.stopped (s.withKernel k') (buf'.touch 0 1)) := by
    rw [eatonBody_of_ended got, St.withKernel_withKernel]
  refine ⟨k', buf'.touch 0 1, ?_, after, stale⟩
  rw [List.append_assoc, List.singleton_append, skipped, feed_cons_inl _ body]

omit [Octet α] in
theorem cells_blit_take_one (b : Block α) (bytes : List α) :
    (b.blit 0 (bytes.take 1)).cells 0 = bytes.head?.getD (b.cells 0) := by
  cases bytes with
  | nil => simp
  | cons c rest =>
    have first := Block.blit_getElem b 0 [c] (i := 0) (by simp)
    simpa using first

theorem eatonFrame_large {s : St α} {bytes : List α} {buf : Block α} (trailer : Block α)
    {a : Answer} (more : List Answer) (stream : s.Delivers bytes) (answered : a ≠ .fail)
    (large : 32 < (Octet.val (bytes.head?.getD (buf.cells 0))).toNat) :
    ∃ k, eatonFrame s buf trailer (a :: more) =
      some (.error "buffer too small - need %d bytes!", s.withKernel k) := by
  obtain ⟨k, got, -⟩ := stream.read_one answered
  refine ⟨k, ?_⟩
  simp only [eatonFrame, readInto, got, cells_blit_take_one, Block.touch_cells, if_pos large]

theorem sizeT_payload {len : ℕ} (low : len ≠ 0) (small : len < 2 ^ 63) :
    sizeT ((len : ℤ) - 1) = len - 1 := by
  rw [sizeT_of_nonneg (by omega) (by omega)]
  omega

/-- A length byte of 0 asks for more bytes than any `read` delivers. -/
theorem eatonFrame_zero {s : St α} {bytes : List α} {buf : Block α} (trailer : Block α)
    {a₁ : Answer} (a₂ : Answer) (more : List Answer) (stream : s.Delivers bytes)
    (first : a₁ ≠ .fail) (zero : (Octet.val (bytes.head?.getD (buf.cells 0))).toNat = 0) :
    ∃ k, eatonFrame s buf trailer (a₁ :: a₂ :: more) =
      some (.error "read failed: %s", s.withKernel k) := by
  obtain ⟨k, got, -⟩ := stream.read_one first
  have refused := (s.withKernel k).kernel.read_refused s.obj.sock
    (show 2 ^ 63 ≤ sizeT (((0 : ℕ) : ℤ) - 1) by decide) a₂
  have not_large : ¬ 32 < 0 := by omega
  rw [St.withKernel_kernel] at refused
  refine ⟨k, ?_⟩
  simp only [eatonFrame, readInto, got, cells_blit_take_one, Block.touch_cells, zero,
    if_neg not_large, St.withKernel_kernel, St.withKernel_obj, refused, St.withKernel_withKernel]

/-- The reads behind the header byte, when they get a length byte `len` (it may be an old one), with
`body` behind it: `m` payload bytes come, and the next byte, or an old one, is the trailer. -/
theorem eatonFrame_small {s : St α} {bytes body : List α} {len t : α} {buf trailer : Block α}
    {a₁ a₃ : Answer} {n m : ℕ} (more : List Answer) (stream : s.Delivers bytes)
    (first : a₁ ≠ .fail) (third : a₃ ≠ .fail) (length : bytes.head?.getD (buf.cells 0) = len)
    (behind : bytes.tail = body) (low : (Octet.val len).toNat ≠ 0)
    (small : (Octet.val len).toNat ≤ 32)
    (part : min (max n 1) (min (sizeT ((Octet.val len).toNat - 1)) body.length) = m)
    (last : (body.drop m).head?.getD (trailer.cells 0) = t) :
    ∃ k elems, eatonFrame s buf trailer (a₁ :: .upTo n :: a₃ :: more) =
        (if Octet.val t ≠ 0xa5 then some (.error "illegal trailer byte: %d 0x%02x", s.withKernel k)
          else some (.done (.array elems), (s.withKernel k).resume)) ∧
      (s.withKernel k).Delivers (body.drop (m + 1)) ∧
      (m + 1 = (Octet.val len).toNat → elems = len :: body.take m) := by
  obtain ⟨k₁, got₁, after₁⟩ := stream.read_one first
  rw [List.drop_one, behind] at after₁
  have ask : sizeT ((Octet.val len).toNat - 1) < 2 ^ 63 := by
    rw [sizeT_payload low (by omega)]
    omega
  obtain ⟨k₂, got₂, after₂⟩ := after₁.read ask n
  rw [part] at got₂ after₂
  obtain ⟨k₃, got₃, after₃⟩ := after₂.read_one third
  rw [List.drop_drop] at after₃
  have not_large : ¬ 32 < (Octet.val len).toNat := by omega
  have kept (b : Block α) (c : ℤ) : ((b.touch 1 c).blit 1 (body.take m)).cells 0 = b.cells 0 := by
    rw [Block.blit_cells_before _ _ (by omega), Block.touch_cells]
  have array (b : Block α) (c : ℤ) (at_len : b.cells 0 = len) :
      ((b.touch 1 c).blit 1 (body.take m)).slice 0 (m + 1) = len :: body.take m := by
    have count : (body.take m).length = m := by
      rw [← part, List.length_take]
      omega
    have tail := Block.slice_blit_self (b.touch 1 c) 1 (body.take m)
    rw [count] at tail
    rw [Block.slice_cons, kept, at_len, Int.zero_add, tail]
  refine ⟨k₃, ((((buf.touch 0 1).blit 0 (bytes.take 1)).touch 1
    (sizeT ((Octet.val len).toNat - 1))).blit 1 (body.take m)).slice 0 (Octet.val len).toNat,
    ?_, after₃, fun whole => ?_⟩
  · simp only [eatonFrame, readInto, got₁, cells_blit_take_one, Block.touch_cells, length,
      if_neg not_large, got₂, got₃, kept, last]
    rfl
  · rw [show (Octet.val len).toNat = m + 1 from whole.symm]
    exact array _ _ (by rw [cells_blit_take_one, Block.touch_cells, length])

/-- A whole packet whose payload comes in one `read` is returned with its length byte in front. -/
theorem readEatonPacket_of_frame {s : St α} (stack : ℕ → ℤ → α) {g d rest : List α} {h len e : α}
    {as : List Answer} (more : List Answer) {a₁ a₃ : Answer} {n : ℕ}
    (stream : s.Delivers (g ++ h :: len :: (d ++ e :: rest)))
    (garbage : ∀ x ∈ g, Octet.val x ≠ 0x5a) (header : Octet.val h = 0x5a)
    (length : (Octet.val len).toNat = d.length + 1) (small : (Octet.val len).toNat ≤ 32)
    (trailer : Octet.val e = 0xa5) (count : as.length = g.length + 1) (answered : NoFail as)
    (first : a₁ ≠ .fail) (whole : d.length ≤ max n 1) (third : a₃ ≠ .fail) :
    ∃ t, jsSockReadEatonPacket s stack (as ++ a₁ :: .upTo n :: a₃ :: more) =
        some (.done (.array (len :: d)), t) ∧
      t.Delivers rest ∧ t.obj = s.obj := by
  obtain ⟨k, buf, synced, after, -⟩ := eaton_sync (s := s.suspend) (Block.malloc 32 stack)
    (a₁ :: .upTo n :: a₃ :: more) (stream.congr rfl rfl) garbage header count answered
  have ask : sizeT (((Octet.val len).toNat : ℤ) - 1) = d.length := by
    rw [length, sizeT_payload (by omega) (by omega), Nat.add_sub_cancel]
  have all : min (max n 1) (min (sizeT (((Octet.val len).toNat : ℤ) - 1))
      (d ++ e :: rest).length) = d.length := by
    rw [ask, List.length_append]
    omega
  have lengthByte : (len :: (d ++ e :: rest)).head?.getD (buf.cells 0) = len := rfl
  have behind : (len :: (d ++ e :: rest)).tail = d ++ e :: rest := rfl
  have last (b : Block α) : ((d ++ e :: rest).drop d.length).head?.getD (b.cells 0) = e := by simp
  obtain ⟨k', elems, frame, later, array⟩ := eatonFrame_small more after first third lengthByte
    behind (by omega) small all (last (Block.malloc 1 fun k => stack (k + 1)))
  rw [if_neg (by simp [trailer]), array length.symm, List.take_left] at frame
  refine ⟨((s.suspend.withKernel k).withKernel k').resume, ?_, ?_, rfl⟩
  · simp only [jsSockReadEatonPacket, synced, frame]
  · have left : (d ++ e :: rest).drop (d.length + 1) = rest := by simp
    exact left ▸ later

/-! ### The end of the stream -/

omit [Octet α] in
theorem read_of_ended {s : St α} {k : Kernel α} {count : ℕ} {a : Answer} {data : List α}
    (ended : s.pending = []) (got : s.kernel.read s.obj.sock count a = (some data, k)) :
    data = [] ∧ (s.withKernel k).pending = [] ∧ a ≠ .fail := by
  have split := Kernel.read_pending got
  rw [← St.pending, ended, eq_comm, List.append_eq_nil_iff] at split
  refine ⟨split.1, split.2, ?_⟩
  rintro rfl
  simp [Kernel.read] at got

omit [Octet α] in
theorem readInto_of_ended {s s' : St α} {buf buf' : Block α} {lo : ℤ} {count : ℕ}
    {answers rest : List Answer} (ended : s.pending = [])
    (h : readInto s buf lo count answers = some (true, buf', s', rest)) :
    s'.pending = [] ∧ buf'.cells = buf.cells ∧ ∃ a, a ≠ .fail ∧ answers = a :: rest := by
  unfold readInto at h
  split at h
  · cases h
  · next a as =>
    split at h
    · simp at h
    · next data k got =>
      simp only [Option.some.injEq, Prod.mk.injEq, true_and] at h
      obtain ⟨rfl, rfl, rfl⟩ := h
      obtain ⟨rfl, later, answered⟩ := read_of_ended ended got
      exact ⟨later, by rw [Block.blit_nil, Block.touch_cells], a, answered, rfl⟩

omit [Octet α] in
theorem readInto_granted {s s' : St α} {buf buf' : Block α} {lo : ℤ} {count : ℕ}
    {answers rest : List Answer}
    (h : readInto s buf lo count answers = some (true, buf', s', rest)) : count < 2 ^ 63 := by
  by_contra large
  cases answers with
  | nil => cases h
  | cons a as =>
    rw [readInto, s.kernel.read_refused s.obj.sock (by omega) a] at h
    simp at h

theorem eaton_sync_of_ended {s t : St α} {buf buf' : Block α} {answers rest : List Answer}
    (ended : s.pending = [])
    (done : feed eatonBody (s, buf) answers = some (.stopped t buf', rest)) :
    t.pending = [] ∧ buf'.cells = buf.cells ∧ ∃ a, a ≠ .fail ∧ answers = a :: rest := by
  cases answers with
  | nil => simp [feed] at done
  | cons a as =>
    rcases got : s.kernel.read s.obj.sock 1 a with ⟨_ | data, k⟩
    · rw [feed_cons_inl as (eatonBody_of_failed got)] at done
      cases done
    · obtain ⟨rfl, later, answered⟩ := read_of_ended ended got
      rw [feed_cons_inl as (eatonBody_of_ended got), Option.some.injEq, Prod.mk.injEq] at done
      obtain ⟨stopped, rfl⟩ := done
      cases stopped
      exact ⟨later, rfl, a, answered, rfl⟩

/-- At the end of the stream `readEatonPacket` returns a packet only when no `read` fails and its
local arrays happen to hold a length byte and a trailer byte. -/
theorem readEatonPacket_of_ended {s s' : St α} {stack : ℕ → ℤ → α} {answers : List Answer}
    {v : Rval α} (ended : s.pending = [])
    (h : jsSockReadEatonPacket s stack answers = some (.done v, s')) :
    NoFail (answers.take 4) ∧ (Octet.val (stack 0 0)).toNat ≠ 0 ∧
      (Octet.val (stack 0 0)).toNat ≤ 32 ∧ Octet.val (stack 1 0) = 0xa5 := by
  rcases jsSockReadEatonPacket_cases h with ⟨failed, -⟩ | ⟨t, buf₀, rest₀, stopped, frame⟩
  · cases failed
  · obtain ⟨ended₀, cells₀, a₀, answered₀, rfl⟩ :=
      eaton_sync_of_ended (s := s.suspend) ended stopped
    cases eatonFrame_run frame with
    | packet buf₁ buf₂ tail t₁ t₂ t₃ rest₁ rest₂ rest₃ first small second third closing =>
      have granted := readInto_granted second
      obtain ⟨ended₁, cells₁, a₁, answered₁, rfl⟩ := readInto_of_ended ended₀ first
      obtain ⟨ended₂, -, a₂, answered₂, rfl⟩ := readInto_of_ended ended₁ second
      obtain ⟨-, cells₃, a₃, answered₃, rfl⟩ := readInto_of_ended ended₂ third
      rw [cells₁, cells₀] at small granted
      rw [cells₃] at closing
      refine ⟨by simp [NoFail, answered₀, answered₁, answered₂, answered₃], fun zero => ?_, small,
        closing⟩
      rw [show Octet.val ((Block.malloc 32 stack).cells 0) = Octet.val (stack 0 0) from rfl, zero]
        at granted
      exact absurd granted (by decide)

end Sysjs
