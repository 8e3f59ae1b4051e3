import Sysjs.Socket.Framing
import Sysjs.Socket.Sizes

/-!
# The frames of a stream

`read_ws_packet` on a stream of whole frames, one call for each, and on a stream that ends within
a frame.
-/

set_option autoImplicit false

namespace Sysjs

open Feed Runs

variable {α : Type*} [Octet α]

/-- Garbage without a NUL, and a frame: an opening `00`, a payload of bytes `01` to `fe`, and a
closing `ff`. -/
structure WsFrame (α : Type*) [Octet α] where
  garbage : List α
  opening : α
  payload : List α
  closing : α
  skipped : ∀ x ∈ garbage, isNul x = false
  opens : isNul opening = true
  text : ∀ x ∈ payload, isNul x = false ∧ Octet.val x ≠ 0xff
  closes : Octet.val closing = 0xff

/-- The bytes of a frame with the garbage before it. -/
def WsFrame.bytes (f : WsFrame α) : List α := f.garbage ++ f.opening :: (f.payload ++ [f.closing])

/-- The same Socket with a buffer of just `buffer_size` bytes, so that every index from there on is
outside its block. -/
def St.tight (s : St α) : St α :=
  s.withBuffer { s.obj.readBuffer with size := s.obj.bufferSize, safe := true }

/-- A call that leaves `s'` stores no byte, the terminator among them, at or beyond `buffer_size` as
it is at the time: with a buffer of just `buffer_size` bytes the call enlarges it in the same way,
its block has `buffer_size` bytes to the end, and every access is inside. -/
def StoresInside (s : St α) (answers : List Answer) (s' : St α) : Prop :=
  ∃ r t, jsSockReadWsPacket s.tight answers = some (r, t) ∧
    t.obj.bufferSize = s'.obj.bufferSize ∧ t.obj.readBuffer.size = t.obj.bufferSize ∧
    t.obj.readBuffer.safe = true

/-- Successive calls of `read_ws_packet`, each with its answers, take the frames one by one; the
sizes they compute for the buffer stay in the range of an `int`. -/
inductive Decodes : St α → List (WsFrame α × List Answer) → St α → Prop
  | nil (s : St α) : Decodes s [] s
  | cons {s s' t : St α} {f : WsFrame α} {answers : List Answer}
      {later : List (WsFrame α × List Answer)}
      (returned : jsSockReadWsPacket s answers = some (.done (.string f.payload), s'))
      (consumed : s.pending = f.bytes ++ s'.pending) (inside : StoresInside s answers s')
      (inRange : s'.obj.inRange = true) (rest : Decodes s' later t) :
      Decodes s ((f, answers) :: later) t

/-- `JS_realloc` succeeds in every call: it can grant each size it is asked for. -/
def ReallocSucceeds (s : St α) (frames : List (WsFrame α × List Answer)) : Prop :=
  Guarded jsSockReadWsPacket (fun s answers => FeedAll wsBody WsGrants s.wsLoop answers) s
    (frames.map Prod.snd)

/-! ### Stores -/

/-- The block has just `buffer_size` bytes, no access was outside, and there is room for a
terminator. -/
structure TightRoom (l : WsLoop α) : Prop where
  size : l.st.obj.readBuffer.size = l.st.obj.bufferSize
  safe : l.st.obj.readBuffer.safe = true
  room : l.total < l.st.obj.bufferSize

omit [Octet α] in
theorem putByte_tight {s : St α} {total : ℕ} (c : α)
    (size : s.obj.readBuffer.size = s.obj.bufferSize) :
    (putByte s total c).obj.readBuffer.size = (putByte s total c).obj.bufferSize := by
  unfold putByte
  dsimp only
  split
  · rfl
  · exact size

omit [Octet α] in
theorem TightRoom.stored {l : WsLoop α} (tight : TightRoom l) (k : Kernel α) (c : α) :
    (putByte (l.st.withKernel k) l.total c).obj.readBuffer.size =
        (putByte (l.st.withKernel k) l.total c).obj.bufferSize ∧
      (putByte (l.st.withKernel k) l.total c).obj.readBuffer.safe = true ∧
      l.total + 1 < (putByte (l.st.withKernel k) l.total c).obj.bufferSize := by
  have fits : l.st.obj.bufferSize ≤ l.st.obj.readBuffer.size := tight.size.ge
  refine ⟨putByte_tight (s := l.st.withKernel k) c tight.size, ?_,
    (putByte_room (s := l.st.withKernel k) tight.room fits).1⟩
  rw [putByte_safe (s := l.st.withKernel k) tight.room fits]
  exact tight.safe

/-- What is left of that when the loop ends: the terminator is inside. -/
structure TightEnd (e : WsExit α) : Prop where
  size : e.st.obj.readBuffer.size = e.st.obj.bufferSize
  safe : e.st.obj.readBuffer.safe = true
  room : ∀ t total, e = .stopped t total → total < t.obj.bufferSize

theorem tight_ends {l : WsLoop α} {answers rest : List Answer} {e : WsExit α}
    (tight : TightRoom l) (done : feed wsBody l answers = some (e, rest)) : TightEnd e := by
  refine feed_inv TightRoom TightEnd ?_ ?_ tight done
  · intro l a e tight body
    have step := wsBody_spec l a
    rw [body] at step
    cases step with
    | failed got => exact ⟨tight.size, tight.safe, fun t total left => by cases left⟩
    | ended k got =>
      refine ⟨tight.size, tight.safe, fun t total left => ?_⟩
      cases left
      exact tight.room
    | closed k c got inside last =>
      obtain ⟨size, safe, room⟩ := tight.stored k c
      refine ⟨size, safe, fun t total left => ?_⟩
      cases left
      omega
  · intro l a l' tight body
    have step := wsBody_spec l a
    rw [body] at step
    cases step with
    | sync k c got waiting => exact ⟨tight.size, tight.safe, tight.room⟩
    | stored k c got inside more =>
      obtain ⟨size, safe, room⟩ := tight.stored k c
      exact ⟨size, safe, room⟩

/-- A call on a Socket with a tight buffer stays inside it. -/
theorem readWsPacket_tight {s s' : St α} {answers : List Answer} {r : Ret α}
    (size : s.obj.readBuffer.size = s.obj.bufferSize) (safe : s.obj.readBuffer.safe = true)
    (h : jsSockReadWsPacket s answers = some (r, s')) :
    s'.obj.readBuffer.size = s'.obj.bufferSize ∧ s'.obj.readBuffer.safe = true := by
  have start : TightRoom s.wsLoop :=
    ⟨size, safe, Nat.lt_of_lt_of_le Nat.zero_lt_two s.obj.room⟩
  have step := jsSockReadWsPacket_spec h
  cases step with
  | failed t rest done =>
    have ends := tight_ends start done
    exact ⟨ends.size, ends.safe⟩
  | stopped t total rest done =>
    have ends := tight_ends start done
    have size : t.obj.readBuffer.size = t.obj.bufferSize := ends.size
    have room := ends.room t total rfl
    have text : (cString (t.obj.readBuffer.store total nul)).length ≤ total := by
      rw [cString_of_nul (p := total) (by rw [Block.store_size]; omega) (by simp)]
      exact (List.takeWhile_sublist _).length_le.trans (by rw [Block.slice_length])
    refine ⟨size, ?_⟩
    dsimp only [St.withBuffer_obj]
    rw [Block.touch_safe, Block.store_safe, Block.store_size]
    exact ⟨⟨ends.safe, Block.inside_of_le (by omega) (by omega)⟩,
      Block.inside_of_le le_rfl (by omega)⟩

/-- Two packet loops that differ in what their buffers hold at most. -/
structure Alongside (l l' : WsLoop α) : Prop where
  kernel : l'.st.kernel = l.st.kernel
  sock : l'.st.obj.sock = l.st.obj.sock
  bufferSize : l'.st.obj.bufferSize = l.st.obj.bufferSize
  synced : l'.synced = l.synced
  total : l'.total = l.total

omit [Octet α] in
theorem putByte_bufferSize (s : St α) (total : ℕ) (c : α) :
    (putByte s total c).obj.bufferSize =
      if total = s.obj.bufferSize - 1 then s.obj.bufferSize + 1024 else s.obj.bufferSize := by
  unfold putByte
  dsimp only
  split <;> rfl

omit [Octet α] in
theorem Alongside.stored {l l' : WsLoop α} (same : Alongside l l') (k : Kernel α) (c : α) :
    (putByte (l'.st.withKernel k) l'.total c).obj.bufferSize =
      (putByte (l.st.withKernel k) l.total c).obj.bufferSize := by
  rw [putByte_bufferSize, putByte_bufferSize, St.withKernel_obj, St.withKernel_obj,
    same.bufferSize, same.total]

/-- They end with buffers of the same size. -/
theorem Alongside.ends {l l' : WsLoop α} (same : Alongside l l') {answers rest rest' : List Answer}
    {e e' : WsExit α} (done : feed wsBody l answers = some (e, rest))
    (done' : feed wsBody l' answers = some (e', rest')) :
    e'.st.obj.bufferSize = e.st.obj.bufferSize := by
  induction answers generalizing l l' with
  | nil => cases done
  | cons a answers ih =>
    rcases got : l.st.kernel.read l.st.obj.sock 1 a with ⟨_ | data, k⟩
    · have got' := got
      rw [← same.kernel, ← same.sock] at got'
      rw [feed_cons_inl answers (wsBody_of_failed got)] at done
      rw [feed_cons_inl answers (wsBody_of_failed got')] at done'
      cases done
      cases done'
      exact same.bufferSize
    have got' := got
    rw [← same.kernel, ← same.sock] at got'
    cases data with
    | nil =>
      rw [feed_cons_inl answers (wsBody_of_ended got)] at done
      rw [feed_cons_inl answers (wsBody_of_ended got')] at done'
      cases done
      cases done'
      exact same.bufferSize
    | cons c cs =>
      cases synced : l.synced with
      | false =>
        rw [feed_cons_inr answers (wsBody_of_waiting got synced)] at done
        rw [feed_cons_inr answers (wsBody_of_waiting got' (same.synced.trans synced))] at done'
        have again : Alongside { l with st := l.st.withKernel k, synced := isNul c }
            { l' with st := l'.st.withKernel k, synced := isNul c } :=
          ⟨rfl, same.sock, same.bufferSize, rfl, same.total⟩
        exact ih again done done'
      | true =>
        have synced' := same.synced.trans synced
        by_cases closing : Octet.val c = 0xff
        · rw [feed_cons_inl answers (wsBody_of_closing got synced closing)] at done
          rw [feed_cons_inl answers (wsBody_of_closing got' synced' closing)] at done'
          cases done
          cases done'
          exact same.stored k c
        · rw [feed_cons_inr answers (wsBody_of_payload got synced closing)] at done
          rw [feed_cons_inr answers (wsBody_of_payload got' synced' closing)] at done'
          have again : Alongside
              { l with st := putByte (l.st.withKernel k) l.total c, total := l.total + 1 }
              { l' with st := putByte (l'.st.withKernel k) l'.total c, total := l'.total + 1 } :=
            ⟨by simp, by simpa using same.sock, same.stored k c, same.synced,
              congrArg (· + 1) same.total⟩
          exact ih again done done'

theorem readWsPacket_bufferSize {s t s' t' : St α} {answers : List Answer} {r r' : Ret α}
    (same : Alongside s.wsLoop t.wsLoop) (h : jsSockReadWsPacket s answers = some (r, s'))
    (h' : jsSockReadWsPacket t answers = some (r', t')) :
    t'.obj.bufferSize = s'.obj.bufferSize := by
  have step := jsSockReadWsPacket_spec h
  have step' := jsSockReadWsPacket_spec h'
  cases step <;> cases step' <;> exact same.ends ‹_› ‹_›

/-! ### Whole frames -/

/-- One call takes one frame. -/
theorem decode_frame {s : St α} (f : WsFrame α) {answers : List Answer} {more : List α}
    (stream : s.Delivers (f.bytes ++ more)) (backed : s.obj.bufferSize ≤ s.obj.readBuffer.size)
    (answered : NoFail answers) (enough : f.bytes.length ≤ answers.length) :
    ∃ s', jsSockReadWsPacket s answers = some (.done (.string f.payload), s') ∧
      s'.Delivers more ∧ s'.obj.bufferSize ≤ s'.obj.readBuffer.size := by
  have halves := List.take_append_drop f.bytes.length answers
  have first : NoFail (answers.take f.bytes.length) := fun a ha =>
    answered a (List.mem_of_mem_take ha)
  have packet : f.bytes ++ more =
      f.garbage ++ f.opening :: (f.payload ++ f.closing :: more) := by
    simp [WsFrame.bytes]
  have long : f.bytes.length = f.garbage.length + f.payload.length + 2 := by
    simp only [WsFrame.bytes, List.length_append, List.length_cons, List.length_nil]
    omega
  rw [packet] at stream
  obtain ⟨s', value, after, -, -, -, backed'⟩ := readWsPacket_of_frame
    (answers.drop f.bytes.length) stream f.skipped f.opens (fun x hx => (f.text x hx).2) f.closes
    backed (by rw [List.length_take]; omega) first
  rw [halves, cut_of_not_isNul fun x hx => (f.text x hx).1] at value
  exact ⟨s', value, after, backed'⟩

theorem decode_storesInside {s s' : St α} (f : WsFrame α) {answers : List Answer} {more : List α}
    {r : Ret α} (stream : s.Delivers (f.bytes ++ more)) (answered : NoFail answers)
    (enough : f.bytes.length ≤ answers.length)
    (returned : jsSockReadWsPacket s answers = some (r, s')) : StoresInside s answers s' := by
  obtain ⟨t, value, -⟩ := decode_frame (s := s.tight) f (stream.congr rfl rfl) le_rfl answered
    enough
  obtain ⟨size, safe⟩ := readWsPacket_tight rfl rfl value
  have same : Alongside s.wsLoop s.tight.wsLoop := ⟨rfl, rfl, rfl, rfl, rfl⟩
  exact ⟨_, t, value, readWsPacket_bufferSize same returned value, size, safe⟩

/-- On a stream of frames, continued arbitrarily, as many calls of `read_ws_packet` return their
payloads in order, take exactly their bytes, and store only below `buffer_size`, which stays in the
range of an `int`; provided that `JS_realloc` succeeds. -/
theorem frames_decoded {s : St α} (frames : List (WsFrame α × List Answer)) {more : List α}
    (stream : s.Delivers ((frames.flatMap fun f => f.1.bytes) ++ more))
    (backed : s.obj.bufferSize ≤ s.obj.readBuffer.size) (inRange : s.obj.inRange = true)
    (answered : ∀ f ∈ frames, NoFail f.2 ∧ f.1.bytes.length ≤ f.2.length)
    (succeeds : ReallocSucceeds s frames) : ∃ t, Decodes s frames t ∧ t.Delivers more := by
  induction frames generalizing s with
  | nil => exact ⟨s, .nil s, stream⟩
  | cons f frames ih =>
    obtain ⟨f, answers⟩ := f
    rw [List.flatMap_cons, List.append_assoc] at stream
    obtain ⟨nofail, enough⟩ := answered (f, answers) List.mem_cons_self
    obtain ⟨s', returned, after, backed'⟩ := decode_frame f stream backed nofail enough
    unfold ReallocSucceeds Guarded at succeeds ih
    rw [List.map_cons, along_cons_of_some _ returned] at succeeds
    obtain ⟨grants, later⟩ := succeeds
    have inRange' := readWsPacket_inRange inRange grants returned
    obtain ⟨t, rest, left⟩ := ih after backed' inRange'
      (fun g hg => answered g (List.mem_cons_of_mem _ hg)) later
    have consumed : s.pending = f.bytes ++ s'.pending := by
      rw [stream.pending, after.pending]
    exact ⟨t, .cons returned consumed (decode_storesInside f stream nofail enough returned) inRange'
      rest, left⟩

/-- The packet of "hi" behind a byte of garbage. -/
def WsFrame.hi : WsFrame UInt8 :=
  ⟨[7], 0, [104, 105], 255, by decide +kernel, by decide +kernel, by decide +kernel,
    by decide +kernel⟩

def WsFrame.empty : WsFrame UInt8 :=
  ⟨[], 0, [], 255, by simp, by decide +kernel, by simp, by decide +kernel⟩

/-- Garbage, the packet of "hi", and an empty one. -/
theorem frames_decoded_two :
    ∃ t, Decodes (.opened 5 [7, 0, 104, 105, 255, 0, 255])
      [(.hi, List.replicate 5 (.upTo 1)), (.empty, List.replicate 2 (.upTo 1))] t ∧
      t.Delivers [] := by
  refine frames_decoded _ ⟨_, rfl, by decide, rfl⟩ le_rfl rfl ?_ ?_
  · intro f hf
    rcases List.mem_cons.1 hf with rfl | hf
    · exact ⟨by unfold NoFail; decide, by decide⟩
    · obtain rfl := List.mem_singleton.1 hf
      exact ⟨by unfold NoFail; decide, by decide⟩
  · exact guarded_cons (wsGrants_of_few (by decide)) (guarded_cons (wsGrants_of_few (by decide))
      trivial)

/-! ### Open connections -/

/-- The bytes before a closing one: payload when a frame has been opened, else garbage, the opening
byte and payload. -/
def Unclosed (synced : Bool) (q : List α) : Prop :=
  match synced with
  | true => ∀ x ∈ q, Octet.val x ≠ 0xff
  | false => ∃ g z p, q = g ++ z :: p ∧ (∀ x ∈ g, isNul x = false) ∧ isNul z = true ∧
      ∀ x ∈ p, Octet.val x ≠ 0xff

theorem unclosed_cons {q : List α} {c : α} (h : Unclosed (isNul c) q) :
    Unclosed false (c :: q) := by
  cases opening : isNul c with
  | true =>
    rw [opening] at h
    exact ⟨[], c, q, rfl, fun x hx => absurd hx List.not_mem_nil, opening, h⟩
  | false =>
    rw [opening] at h
    obtain ⟨g, z, p, rfl, garbage, here, payload⟩ := h
    refine ⟨c :: g, z, p, rfl, fun x hx => ?_, here, payload⟩
    rcases List.mem_cons.1 hx with rfl | hx
    · exact opening
    · exact garbage x hx

/-- As long as the stream has a byte for each answer, the loop is left by a `break` only behind a
closing byte. -/
theorem ws_stopped {l : WsLoop α} {answers more : List Answer} {bytes : List α} {t : St α}
    {total : ℕ} (stream : l.st.Delivers bytes) (running : answers.length ≤ bytes.length)
    (done : feed wsBody l answers = some (.stopped t total, more)) :
    ∃ front q e rest, answers = front ++ more ∧ NoFail front ∧ front.length = q.length + 1 ∧
      bytes = q ++ e :: rest ∧ Octet.val e = 0xff ∧ Unclosed l.synced q := by
  induction answers generalizing l bytes with
  | nil => simp [feed] at done
  | cons a answers ih =>
    cases bytes with
    | nil => simp at running
    | cons c bytes =>
      by_cases answered : a = .fail
      · have body : wsBody l a = .inl (.failed l.st) := by
          simp [wsBody, answered, Kernel.read]
        rw [feed_cons_inl answers body] at done
        cases done
      · obtain ⟨k, got, after⟩ := stream.read_byte answered
        have running : answers.length ≤ bytes.length := by simpa using running
        cases synced : l.synced with
        | false =>
          rw [feed_cons_inr answers (wsBody_of_waiting got synced)] at done
          obtain ⟨front, q, e, rest, rfl, nofail, count, rfl, closing, passed⟩ :=
            ih after running done
          exact ⟨a :: front, c :: q, e, rest, rfl, nofail.cons answered, by simp [count], rfl,
            closing, unclosed_cons passed⟩
        | true =>
          by_cases closing : Octet.val c = 0xff
          · rw [feed_cons_inl answers (wsBody_of_closing got synced closing),
              Option.some.injEq, Prod.mk.injEq] at done
            exact ⟨[a], [], c, bytes, by rw [done.2]; rfl,
              NoFail.cons answered fun b hb => absurd hb List.not_mem_nil, rfl, rfl, closing,
              fun x hx => absurd hx List.not_mem_nil⟩
          · rw [feed_cons_inr answers (wsBody_of_payload got synced closing)] at done
            obtain ⟨front, q, e, rest, rfl, nofail, count, rfl, last, passed⟩ :=
              ih (after.congr (by simp) (by simp)) running done
            refine ⟨a :: front, c :: q, e, rest, rfl, nofail.cons answered, by simp [count], rfl,
              last, fun x hx => ?_⟩
            rcases List.mem_cons.1 hx with rfl | hx
            · exact closing
            · rw [synced] at passed
              exact passed x hx

/-- On a connection that stays open, `read_ws_packet` returns a string only when a frame is complete
among the bytes it gets; the string is the payload of the first one. -/
theorem framed_of_string {s s' : St α} {answers : List Answer} {text bytes : List α}
    (stream : s.Delivers bytes) (backed : s.obj.bufferSize ≤ s.obj.readBuffer.size)
    (running : answers.length ≤ bytes.length)
    (returned : jsSockReadWsPacket s answers = some (.done (.string text), s')) :
    ∃ g z p e rest, bytes = g ++ z :: (p ++ e :: rest) ∧ (∀ x ∈ g, isNul x = false) ∧
      isNul z = true ∧ (∀ x ∈ p, Octet.val x ≠ 0xff) ∧ Octet.val e = 0xff ∧ text = cut p := by
  have step := jsSockReadWsPacket_spec returned
  cases step with
  | stopped t total more done =>
    obtain ⟨front, q, e, rest, rfl, answered, count, rfl, closing, g, z, p, rfl, garbage, opening,
      payload⟩ := ws_stopped (l := s.wsLoop) (stream.congr rfl rfl) running done
    rw [List.append_assoc, List.cons_append] at stream
    rw [List.length_append, List.length_cons] at count
    obtain ⟨u, value, -⟩ := readWsPacket_of_frame more stream garbage opening payload closing backed
      (by omega) answered
    rw [value, Option.some.injEq, Prod.mk.injEq, Ret.done.injEq, Rval.string.injEq] at returned
    exact ⟨g, z, p, e, rest, by simp, garbage, opening, payload, closing, returned.1.symm⟩

/-! ### Cut frames -/

/-- No complete frame is among the bytes: behind no `00` comes an `ff`. -/
def Truncated (bytes : List α) : Prop :=
  ∀ g z p e rest, bytes = g ++ z :: (p ++ e :: rest) → isNul z = true → Octet.val e ≠ 0xff

/-- The call returns `false`. -/
def ReturnsFalse (s : St α) (answers : List Answer) : Prop :=
  ∃ s', jsSockReadWsPacket s answers = some (.done (.bool false), s')

/-- The two kinds of stream without a complete frame. -/
theorem Truncated.cases {bytes : List α} (cut_ : Truncated bytes) :
    (∀ x ∈ bytes, isNul x = false) ∨
      ∃ g z p, bytes = g ++ z :: p ∧ (∀ x ∈ g, isNul x = false) ∧ isNul z = true ∧
        ∀ x ∈ p, Octet.val x ≠ 0xff := by
  by_cases opened : ∃ x ∈ bytes, isNul x = true
  · obtain ⟨g, z, p, rfl, before, here⟩ := Block.split_at_first isNul opened
    refine Or.inr ⟨g, z, p, rfl, before, here, fun x hx => ?_⟩
    obtain ⟨q, rest, rfl⟩ := List.append_of_mem hx
    exact cut_ g z q x rest rfl here
  · simp only [not_exists, not_and, Bool.not_eq_true] at opened
    exact Or.inl opened

theorem ws_ended {l : WsLoop α} {a : Answer} (more : List Answer) (stream : l.st.Delivers [])
    (answered : a ≠ .fail) :
    ∃ k, feed wsBody l (a :: more) = some (.stopped (l.st.withKernel k) l.total, more) := by
  obtain ⟨k, got, -⟩ := stream.read_one answered
  exact ⟨k, feed_cons_inl more (wsBody_of_ended got)⟩

/-- A stream that ends before a frame is complete: the call returns the part of the payload that
came, as a string. -/
theorem readWsPacket_of_truncated {s : St α} {bytes : List α} {answers : List Answer}
    (stream : s.Delivers bytes) (cut_ : Truncated bytes)
    (backed : s.obj.bufferSize ≤ s.obj.readBuffer.size) (answered : NoFail answers)
    (enough : bytes.length < answers.length) :
    ∃ p s', p <:+ bytes ∧ jsSockReadWsPacket s answers = some (.done (.string (cut p)), s') := by
  have two := s.obj.room
  have room : s.wsLoop.total < s.wsLoop.st.obj.bufferSize := Nat.lt_of_lt_of_le Nat.zero_lt_two two
  have start : s.wsLoop.st.Delivers bytes := stream.congr rfl rfl
  rcases cut_.cases with quiet | ⟨g, z, p, rfl, garbage, opening, payload⟩
  · obtain ⟨as, a, more, rfl, count⟩ := answers_split answers enough
    obtain ⟨k, skipped, after⟩ := ws_skip (l := s.wsLoop) (r := []) (a :: more) rfl
      (by rwa [List.append_nil]) quiet count answered.front
    obtain ⟨k', ends⟩ := ws_ended (l := { s.wsLoop with st := s.wsLoop.st.withKernel k }) more after
      answered.back.head
    exact ⟨[], _, List.nil_suffix, readWsPacket_of_stopped (skipped.trans ends)
      (Nat.lt_of_lt_of_le room backed) (Block.slice_zero _ _)⟩
  · simp only [List.length_append, List.length_cons] at enough
    obtain ⟨as, b, later, rfl, first⟩ := answers_split answers (n := g.length + 1) (by omega)
    simp only [List.length_append, first] at enough
    generalize b :: later = later at *
    obtain ⟨bs, a, more, rfl, second⟩ := answers_split later (n := p.length) (by omega)
    obtain ⟨k, synced, after⟩ := ws_sync (l := s.wsLoop) (bs ++ a :: more) rfl start garbage opening
      first answered.front
    obtain ⟨t, stored, later, same, roomy, slice⟩ := ws_store (r := [])
      (l := { st := s.wsLoop.st.withKernel k, synced := true, total := 0 }) (a :: more) rfl
      (by rwa [List.append_nil]) payload room backed second answered.back.front
    obtain ⟨k', ends⟩ := ws_ended (l := { st := t, synced := true, total := 0 + p.length }) more
      later answered.back.back.head
    have fits := same.fits
    refine ⟨p, _, ⟨g ++ [z], by simp⟩, readWsPacket_of_stopped
      (synced.trans (stored.trans ends)) (Nat.lt_of_lt_of_le roomy fits) ?_⟩
    simpa using slice

/-- On a stream that ends before a frame is complete no call returns `false`. -/
theorem truncated_never_false {s : St α} {bytes : List α} {answers : List Answer}
    (stream : s.Delivers bytes) (cut_ : Truncated bytes)
    (backed : s.obj.bufferSize ≤ s.obj.readBuffer.size) (answered : NoFail answers)
    (enough : bytes.length < answers.length) : ¬ ReturnsFalse s answers := by
  rintro ⟨s', value⟩
  obtain ⟨p, t, -, text⟩ := readWsPacket_of_truncated stream cut_ backed answered enough
  rw [text] at value
  cases value

/-- A stream that ends behind the opening byte. -/
theorem truncated_never_false_opened :
    ¬ ReturnsFalse (.opened 5 [7, 0]) (List.replicate 3 (.upTo 1)) := by
  refine truncated_never_false ⟨_, rfl, by decide, rfl⟩ ?_ le_rfl (by unfold NoFail; decide)
    (by decide)
  intro g z p e rest split _
  have split : ([7, 0] : List UInt8) = g ++ z :: (p ++ e :: rest) := split
  have inside : e ∈ ([7, 0] : List UInt8) := by rw [split]; simp
  rcases List.mem_cons.1 inside with rfl | inside
  · decide
  · rw [List.mem_singleton.1 inside]
    decide

/-- A stream that ends within the payload "hi": the part that came is returned as a packet. -/
theorem truncated_not_false_within :
    ¬ ReturnsFalse (.opened 5 [0, 104, 105]) (List.replicate 4 (.upTo 1)) := by
  rintro ⟨s', value⟩
  have text : (jsSockReadWsPacket (.opened 5 [0, 104, 105])
      (List.replicate 4 (.upTo 1))).map (fun x => x.1) = some (.done (.string [104, 105])) := by
    decide +kernel
  rw [value] at text
  cases text

end Sysjs
