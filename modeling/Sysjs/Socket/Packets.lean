import Sysjs.Foundation.Feed
import Sysjs.Socket.Object

/-!
# Packets and plain writes

The WebSocket frames `00 .. ff`, the length-prefixed frames `5a .. a5` of the serial protocol, and
the two methods that write strings.
-/

set_option autoImplicit false

namespace Sysjs

open Feed

variable {α : Type*} [Octet α]

/-- One `read` into a block that is not the read buffer: whether it succeeded, the block, the
state, and the answers left. -/
def readInto (s : St α) (buf : Block α) (lo : ℤ) (count : ℕ) :
    List Answer → Option (Bool × Block α × St α × List Answer)
  | [] => none
  | a :: rest => match s.kernel.read s.obj.sock count a with
    | (none, k) => some (false, buf.touch lo count, s.withKernel k, rest)
    | (some data, k) => some (true, (buf.touch lo count).blit lo data, s.withKernel k, rest)

/-! ### `read_ws_packet` -/

/-- The loop variables of `read_ws_packet`: `read_state` and `total_length`. -/
structure WsLoop (α : Type*) where
  st : St α
  synced : Bool
  total : ℕ

/-- How its loop is left: by the error return, or by a `break` with `total_length`. -/
inductive WsExit (α : Type*) where
  | failed (s : St α)
  | stopped (s : St α) (total : ℕ)

/-- The state in which the loop is left. -/
def WsExit.st : WsExit α → St α
  | .failed s => s
  | .stopped s _ => s

/-- Store a payload byte at `total`, growing a buffer that has no room for it and a terminator. -/
def putByte (s : St α) (total : ℕ) (c : α) : St α :=
  let s := if total = s.obj.bufferSize - 1 then { s with obj := s.obj.grow 1024 1024 } else s
  s.withBuffer (s.obj.readBuffer.store total c)

/-- One round of its loop: `tempbuf` is one byte long. -/
def wsBody (l : WsLoop α) (a : Answer) : WsExit α ⊕ WsLoop α :=
  match l.st.kernel.read l.st.obj.sock 1 a with
  | (none, k) => .inl (.failed (l.st.withKernel k))
  | (some [], k) => .inl (.stopped (l.st.withKernel k) l.total)
  | (some (c :: _), k) =>
    let s := l.st.withKernel k
    if !l.synced then  -- "try to sync to next frame"
      .inr { l with st := s, synced := isNul c }
    else
      let s := putByte s l.total c
      if Octet.val c = 0xff then .inl (.stopped s l.total)
      else .inr { l with st := s, total := l.total + 1 }

/-- `js_sock_read_ws_packet`.  `ret` is never negative behind the loop. -/
def jsSockReadWsPacket (s : St α) (answers : List Answer) : Option (Ret α × St α) :=
  match feed wsBody { st := s.suspend, synced := false, total := 0 } answers with
  | none => none
  | some (.failed s, _) => some (.error "read failed: %s", s)
  | some (.stopped s total, _) =>
    let b := s.obj.readBuffer.store total nul
    let text := cString b
    some (.done (.string text), s.resume.withBuffer (b.touch 0 (text.length + 1)))

/-! ### `readEatonPacket` -/

/-- How the wait for the header byte ends: by the error return, or by a `break`. -/
inductive EatonExit (α : Type*) where
  | failed (s : St α)
  | stopped (s : St α) (packetbuf : Block α)

/-- One round of "wait for header byte". -/
def eatonBody (l : St α × Block α) (a : Answer) : EatonExit α ⊕ (St α × Block α) :=
  match l.1.kernel.read l.1.obj.sock 1 a with
  | (none, k) => .inl (.failed (l.1.withKernel k))
  | (some [], k) => .inl (.stopped (l.1.withKernel k) (l.2.touch 0 1))
  | (some (c :: _), k) =>
    let buf := l.2.store 0 c
    if Octet.val c = 0x5a then .inl (.stopped (l.1.withKernel k) buf)
    else .inr (l.1.withKernel k, buf)

/-- Length, payload and trailer, each by one `read`. -/
def eatonFrame (s : St α) (packetbuf trailer : Block α) (answers : List Answer) :
    Option (Ret α × St α) :=
  match readInto s packetbuf 0 1 answers with
  | none => none
  | some (false, _, s, _) => some (.error "read failed: %s", s)
  | some (true, buf, s, answers) =>
    let len := (Octet.val (buf.cells 0)).toNat
    if 32 < len then some (.error "buffer too small - need %d bytes!", s)
    else match readInto s buf 1 (sizeT (len - 1)) answers with
      | none => none
      | some (false, _, s, _) => some (.error "read failed: %s", s)
      | some (true, buf, s, answers) => match readInto s trailer 0 1 answers with
        | none => none
        | some (false, _, s, _) => some (.error "trailer byte read failed: %s", s)
        | some (true, trailer, s, _) =>
          if Octet.val (trailer.cells 0) ≠ 0xa5 then
            some (.error "illegal trailer byte: %d 0x%02x", s)
          else
            let len := (Octet.val (buf.cells 0)).toNat
            some (.done (.array (buf.slice 0 len)), s.resume)

/-- `js_sock_read_eaton_packet`; `stack` is what the two local arrays hold at the start. -/
def jsSockReadEatonPacket (s : St α) (stack : ℕ → ℤ → α) (answers : List Answer) :
    Option (Ret α × St α) :=
  match feed eatonBody (s.suspend, Block.malloc 32 stack) answers with
  | none => none
  | some (.failed s, _) => some (.error "read failed: %s", s)
  | some (.stopped s packetbuf, rest) =>
    eatonFrame s packetbuf (Block.malloc 1 fun k => stack (k + 1)) rest

/-! ### `write` and `write_ws_packet` -/

/-- `JS_GetStringBytes` and `strlen`: the low bytes of the characters, up to the first NUL. -/
def getStringBytes (chars : List UInt16) : List α :=
  cut (chars.map fun c => Octet.lit c.toUInt8)

/-- `js_sock_send`. -/
def jsSockSend (s : St α) (argv : List (List UInt16)) (answers : List Answer) :
    Option (Ret α × St α) :=
  match argv with
  | [chars] =>
    let buffer : List α := getStringBytes chars
    match answers with
    | [] => none
    | a :: _ => match s.kernel.write s.obj.sock buffer a with
      | (none, k) => some (.error "send failed: %d %s.\n", (s.suspend.withKernel k).resume)
      | (some ret, k) =>
        some (.done (.bool (ret == buffer.length)), (s.suspend.withKernel k).resume)
  | _ => some (.done .void, s)

/-- `js_sock_write_ws_packet`: three writes, of which the result of the second is looked at. -/
def jsSockWriteWsPacket (s : St α) (argv : List (List UInt16)) (answers : List Answer) :
    Option (Ret α × St α) :=
  match argv with
  | [chars] =>
    let buffer : List α := getStringBytes chars
    match answers with
    | a₀ :: a₁ :: a₂ :: _ =>
      let (_, k) := s.kernel.write s.obj.sock [nul] a₀
      let (ret, k) := k.write s.obj.sock buffer a₁
      let (_, k) := k.write s.obj.sock [Octet.lit 0xff] a₂
      let s := (s.suspend.withKernel k).resume
      if ret ≠ some buffer.length then some (.error "switch_js_sock_send failed: %d %s.\n", s)
      else some (.done .void, s)
    | _ => none
  | _ => some (.done .void, s)

/-! ### What the pieces can do -/

section PutByte

omit [Octet α]

variable (s : St α) (total : ℕ) (c : α)

@[simp] theorem putByte_kernel : (putByte s total c).kernel = s.kernel := by
  unfold putByte
  dsimp only
  split <;> rfl

@[simp] theorem putByte_requests : (putByte s total c).requests = s.requests := by
  unfold putByte
  dsimp only
  split <;> rfl

@[simp] theorem putByte_sock : (putByte s total c).obj.sock = s.obj.sock := by
  unfold putByte
  dsimp only
  split <;> rfl

@[simp] theorem putByte_state : (putByte s total c).obj.state = s.obj.state := by
  unfold putByte
  dsimp only
  split <;> rfl

@[simp] theorem putByte_bufferPos : (putByte s total c).obj.bufferPos = s.obj.bufferPos := by
  unfold putByte
  dsimp only
  split <;> rfl

variable {s total c}

/-- A byte stored in a buffer with room for a terminator leaves room for the next terminator. -/
theorem putByte_room (room : total < s.obj.bufferSize)
    (fits : s.obj.bufferSize ≤ s.obj.readBuffer.size) :
    total + 1 < (putByte s total c).obj.bufferSize ∧
      s.obj.bufferSize ≤ (putByte s total c).obj.bufferSize ∧
      (putByte s total c).obj.bufferSize ≤ (putByte s total c).obj.readBuffer.size := by
  unfold putByte
  dsimp only
  split
  · simp only [St.withBuffer_obj, SockObj.grow, Block.store_size, Block.realloc_size]
    omega
  · simp only [St.withBuffer_obj, Block.store_size]
    omega

theorem putByte_size (fits : s.obj.bufferSize ≤ s.obj.readBuffer.size) :
    (putByte s total c).obj.bufferSize ≤ (putByte s total c).obj.readBuffer.size := by
  unfold putByte
  dsimp only
  split
  · exact le_rfl
  · exact fits

theorem putByte_cells (fits : s.obj.bufferSize ≤ s.obj.readBuffer.size) {i : ℤ} (low : 0 ≤ i)
    (high : i < s.obj.bufferSize) :
    (putByte s total c).obj.readBuffer.cells i =
      if i = total then c else s.obj.readBuffer.cells i := by
  unfold putByte
  dsimp only
  split
  · simp only [St.withBuffer_obj, SockObj.grow, Block.store_cells]
    rw [Block.realloc_cells _ low (by omega) (by omega)]
  · simp only [St.withBuffer_obj, Block.store_cells]

theorem putByte_slice (room : total < s.obj.bufferSize)
    (fits : s.obj.bufferSize ≤ s.obj.readBuffer.size) :
    (putByte s total c).obj.readBuffer.slice 0 (total + 1) =
      s.obj.readBuffer.slice 0 total ++ [c] := by
  rw [Block.slice_succ]
  congr 1
  · apply Block.slice_eq_of_cells
    intro i hi
    rw [putByte_cells fits (by omega) (by omega), if_neg (by omega)]
  · rw [putByte_cells fits (by omega) (by omega), if_pos (by omega)]

theorem putByte_safe (room : total < s.obj.bufferSize)
    (fits : s.obj.bufferSize ≤ s.obj.readBuffer.size) :
    (putByte s total c).obj.readBuffer.safe = s.obj.readBuffer.safe := by
  rw [Bool.eq_iff_iff]
  unfold putByte
  dsimp only
  split
  · simp only [St.withBuffer_obj, SockObj.grow, Block.store_safe, Block.realloc_safe,
      Block.realloc_size]
    exact and_iff_left (Block.inside_of_le (by omega) (by omega))
  · simp only [St.withBuffer_obj, Block.store_safe]
    exact and_iff_left (Block.inside_of_le (by omega) (by omega))

end PutByte

/-! ### One round of the loops -/

section Rounds

variable {a : Answer} {k : Kernel α} {c : α} {cs : List α}

theorem wsBody_of_failed {l : WsLoop α} (got : l.st.kernel.read l.st.obj.sock 1 a = (none, k)) :
    wsBody l a = .inl (.failed (l.st.withKernel k)) := by
  simp only [wsBody, got]

theorem wsBody_of_ended {l : WsLoop α}
    (got : l.st.kernel.read l.st.obj.sock 1 a = (some [], k)) :
    wsBody l a = .inl (.stopped (l.st.withKernel k) l.total) := by
  simp only [wsBody, got]

theorem wsBody_of_waiting {l : WsLoop α}
    (got : l.st.kernel.read l.st.obj.sock 1 a = (some (c :: cs), k)) (waiting : l.synced = false) :
    wsBody l a = .inr { l with st := l.st.withKernel k, synced := isNul c } := by
  simp only [wsBody, got, waiting, Bool.not_false, if_true]

theorem wsBody_of_closing {l : WsLoop α}
    (got : l.st.kernel.read l.st.obj.sock 1 a = (some (c :: cs), k)) (inside : l.synced = true)
    (closing : Octet.val c = 0xff) :
    wsBody l a = .inl (.stopped (putByte (l.st.withKernel k) l.total c) l.total) := by
  simp only [wsBody, got, inside, Bool.not_true, Bool.false_eq_true, if_false, if_pos closing]

theorem wsBody_of_payload {l : WsLoop α}
    (got : l.st.kernel.read l.st.obj.sock 1 a = (some (c :: cs), k)) (inside : l.synced = true)
    (payload : Octet.val c ≠ 0xff) :
    wsBody l a =
      .inr { l with st := putByte (l.st.withKernel k) l.total c, total := l.total + 1 } := by
  simp only [wsBody, got, inside, Bool.not_true, Bool.false_eq_true, if_false, if_neg payload]

variable {s : St α} {buf : Block α}

theorem eatonBody_of_failed (got : s.kernel.read s.obj.sock 1 a = (none, k)) :
    eatonBody (s, buf) a = .inl (.failed (s.withKernel k)) := by
  simp only [eatonBody, got]

theorem eatonBody_of_ended (got : s.kernel.read s.obj.sock 1 a = (some [], k)) :
    eatonBody (s, buf) a = .inl (.stopped (s.withKernel k) (buf.touch 0 1)) := by
  simp only [eatonBody, got]

theorem eatonBody_of_header (got : s.kernel.read s.obj.sock 1 a = (some (c :: cs), k))
    (header : Octet.val c = 0x5a) :
    eatonBody (s, buf) a = .inl (.stopped (s.withKernel k) (buf.store 0 c)) := by
  simp only [eatonBody, got, if_pos header]

theorem eatonBody_of_garbage (got : s.kernel.read s.obj.sock 1 a = (some (c :: cs), k))
    (garbage : Octet.val c ≠ 0x5a) :
    eatonBody (s, buf) a = .inr (s.withKernel k, buf.store 0 c) := by
  simp only [eatonBody, got, if_neg garbage]

end Rounds

/-- The outcomes of one round of the packet loop. -/
inductive WsStep (l : WsLoop α) (a : Answer) : WsExit α ⊕ WsLoop α → Prop where
  | failed (h : l.st.kernel.read l.st.obj.sock 1 a = (none, l.st.kernel)) :
      WsStep l a (.inl (.failed l.st))
  | ended (k : Kernel α) (h : l.st.kernel.read l.st.obj.sock 1 a = (some [], k)) :
      WsStep l a (.inl (.stopped (l.st.withKernel k) l.total))
  | sync (k : Kernel α) (c : α) (h : l.st.kernel.read l.st.obj.sock 1 a = (some [c], k))
      (open_ : l.synced = false) :
      WsStep l a (.inr { l with st := l.st.withKernel k, synced := isNul c })
  | closed (k : Kernel α) (c : α) (h : l.st.kernel.read l.st.obj.sock 1 a = (some [c], k))
      (inside : l.synced = true) (last : Octet.val c = 0xff) :
      WsStep l a (.inl (.stopped (putByte (l.st.withKernel k) l.total c) l.total))
  | stored (k : Kernel α) (c : α) (h : l.st.kernel.read l.st.obj.sock 1 a = (some [c], k))
      (inside : l.synced = true) (more : Octet.val c ≠ 0xff) :
      WsStep l a (.inr
        { l with st := putByte (l.st.withKernel k) l.total c, total := l.total + 1 })

omit [Octet α] in
theorem read_one {k k' : Kernel α} {fd : ℤ} {a : Answer} {c : α} {cs : List α}
    (h : k.read fd 1 a = (some (c :: cs), k')) : cs = [] := by
  obtain ⟨d, rest, -, -, bound, -, -⟩ := Kernel.read_some h
  apply List.eq_nil_of_length_eq_zero
  simp only [List.length_cons] at bound
  omega

theorem wsBody_spec (l : WsLoop α) (a : Answer) : WsStep l a (wsBody l a) := by
  rcases hread : l.st.kernel.read l.st.obj.sock 1 a with ⟨_ | _ | ⟨c, cs⟩, k⟩
  · obtain rfl := Kernel.read_none hread
    rw [wsBody_of_failed hread, St.withKernel_self]
    exact .failed hread
  · rw [wsBody_of_ended hread]
    exact .ended k hread
  · obtain rfl := read_one hread
    cases synced : l.synced with
    | false =>
      rw [wsBody_of_waiting hread synced]
      exact .sync k c hread synced
    | true =>
      by_cases last : Octet.val c = 0xff
      · rw [wsBody_of_closing hread synced last]
        exact .closed k c hread synced last
      · rw [wsBody_of_payload hread synced last]
        exact .stored k c hread synced last

/-- The outcomes of `read_ws_packet`. -/
inductive PacketStep (s : St α) (answers : List Answer) : Ret α → St α → Prop where
  | failed (t : St α) (rest : List Answer)
      (done : feed wsBody { st := s.suspend, synced := false, total := 0 } answers =
        some (.failed t, rest)) :
      PacketStep s answers (.error "read failed: %s") t
  | stopped (t : St α) (total : ℕ) (rest : List Answer)
      (done : feed wsBody { st := s.suspend, synced := false, total := 0 } answers =
        some (.stopped t total, rest)) :
      PacketStep s answers (.done (.string (cString (t.obj.readBuffer.store total nul))))
        (t.resume.withBuffer ((t.obj.readBuffer.store total nul).touch 0
          ((cString (t.obj.readBuffer.store total nul)).length + 1)))

theorem jsSockReadWsPacket_spec {s s' : St α} {answers : List Answer} {r : Ret α}
    (h : jsSockReadWsPacket s answers = some (r, s')) : PacketStep s answers r s' := by
  unfold jsSockReadWsPacket at h
  split at h
  · cases h
  · next t rest done =>
    rw [Option.some.injEq, Prod.mk.injEq] at h
    obtain ⟨rfl, rfl⟩ := h
    exact .failed t rest done
  · next t total rest done =>
    rw [Option.some.injEq, Prod.mk.injEq] at h
    obtain ⟨rfl, rfl⟩ := h
    exact .stopped t total rest done

/-- The outcomes of `readEatonPacket`, and of the reads behind its header byte: an error, or a
packet.  Only the system's side of the state changes, and only a packet resumes the request. -/
inductive EatonStep (s : St α) : Ret α → St α → Prop where
  | error (format : String) (k : Kernel α) (less : (s.withKernel k).pending <:+ s.pending) :
      EatonStep s (.error format) (s.withKernel k)
  | packet (elems : List α) (k : Kernel α) (less : (s.withKernel k).pending <:+ s.pending) :
      EatonStep s (.done (.array elems)) (s.withKernel k).resume

omit [Octet α] in
theorem EatonStep.of_withKernel {s s' : St α} {k : Kernel α} {r : Ret α}
    (less : (s.withKernel k).pending <:+ s.pending) (h : EatonStep (s.withKernel k) r s') :
    EatonStep s r s' := by
  cases h with
  | error format k' less' => exact .error format k' (less'.trans less)
  | packet elems k' less' => exact .packet elems k' (less'.trans less)

omit [Octet α] in
theorem readInto_spec {s s' : St α} {buf buf' : Block α} {lo : ℤ} {count : ℕ}
    {answers rest : List Answer} {ok : Bool}
    (h : readInto s buf lo count answers = some (ok, buf', s', rest)) :
    ∃ k, s' = s.withKernel k ∧ (s.withKernel k).pending <:+ s.pending := by
  unfold readInto at h
  split at h
  · cases h
  · split at h <;>
    · next k got =>
      simp only [Option.some.injEq, Prod.mk.injEq] at h
      exact ⟨k, h.2.2.1.symm, Kernel.read_suffix got⟩

/-- How the reads behind the header byte go, with what each of them leaves. -/
inductive FrameRun (s : St α) (packetbuf trailer : Block α) (answers : List Answer) :
    Ret α → St α → Prop where
  | lengthFailed (buf : Block α) (t : St α) (as : List Answer)
      (first : readInto s packetbuf 0 1 answers = some (false, buf, t, as)) :
      FrameRun s packetbuf trailer answers (.error "read failed: %s") t
  | large (buf : Block α) (t : St α) (as : List Answer)
      (first : readInto s packetbuf 0 1 answers = some (true, buf, t, as))
      (large : 32 < (Octet.val (buf.cells 0)).toNat) :
      FrameRun s packetbuf trailer answers (.error "buffer too small - need %d bytes!") t
  | payloadFailed (buf buf' : Block α) (t t' : St α) (as as' : List Answer)
      (first : readInto s packetbuf 0 1 answers = some (true, buf, t, as))
      (second : readInto t buf 1 (sizeT ((Octet.val (buf.cells 0)).toNat - 1)) as =
        some (false, buf', t', as')) :
      FrameRun s packetbuf trailer answers (.error "read failed: %s") t'
  | trailerFailed (buf buf' tail : Block α) (t t' t'' : St α) (as as' as'' : List Answer)
      (first : readInto s packetbuf 0 1 answers = some (true, buf, t, as))
      (second : readInto t buf 1 (sizeT ((Octet.val (buf.cells 0)).toNat - 1)) as =
        some (true, buf', t', as'))
      (third : readInto t' trailer 0 1 as' = some (false, tail, t'', as'')) :
      FrameRun s packetbuf trailer answers (.error "trailer byte read failed: %s") t''
  | refused (buf buf' tail : Block α) (t t' t'' : St α) (as as' as'' : List Answer)
      (first : readInto s packetbuf 0 1 answers = some (true, buf, t, as))
      (second : readInto t buf 1 (sizeT ((Octet.val (buf.cells 0)).toNat - 1)) as =
        some (true, buf', t', as'))
      (third : readInto t' trailer 0 1 as' = some (true, tail, t'', as''))
      (wrong : Octet.val (tail.cells 0) ≠ 0xa5) :
      FrameRun s packetbuf trailer answers (.error "illegal trailer byte: %d 0x%02x") t''
  | packet (buf buf' tail : Block α) (t t' t'' : St α) (as as' as'' : List Answer)
      (first : readInto s packetbuf 0 1 answers = some (true, buf, t, as))
      (small : (Octet.val (buf.cells 0)).toNat ≤ 32)
      (second : readInto t buf 1 (sizeT ((Octet.val (buf.cells 0)).toNat - 1)) as =
        some (true, buf', t', as'))
      (third : readInto t' trailer 0 1 as' = some (true, tail, t'', as''))
      (closing : Octet.val (tail.cells 0) = 0xa5) :
      FrameRun s packetbuf trailer answers
        (.done (.array (buf'.slice 0 (Octet.val (buf'.cells 0)).toNat))) t''.resume

theorem eatonFrame_run {s s' : St α} {packetbuf trailer : Block α} {answers : List Answer}
    {r : Ret α} (h : eatonFrame s packetbuf trailer answers = some (r, s')) :
    FrameRun s packetbuf trailer answers r s' := by
  unfold eatonFrame at h
  split at h
  · cases h
  · next buf t as first =>
    cases h
    exact .lengthFailed buf _ as first
  · next buf t as first =>
    dsimp only at h
    split at h
    · next large =>
      cases h
      exact .large buf _ as first large
    · next small =>
      split at h
      · cases h
      · next buf' t' as' second =>
        cases h
        exact .payloadFailed buf buf' t _ as as' first second
      · next buf' t' as' second =>
        split at h
        · cases h
        · next tail t'' as'' third =>
          cases h
          exact .trailerFailed buf buf' tail t t' _ as as' as'' first second third
        · next tail t'' as'' third =>
          split at h
          · next wrong =>
            cases h
            exact .refused buf buf' tail t t' _ as as' as'' first second third wrong
          · next closing =>
            cases h
            exact .packet buf buf' tail t t' t'' as as' as'' first (not_lt.1 small) second third
              (not_not.1 closing)

theorem eatonFrame_spec {s s' : St α} {packetbuf trailer : Block α} {answers : List Answer}
    {r : Ret α} (h : eatonFrame s packetbuf trailer answers = some (r, s')) : EatonStep s r s' := by
  cases eatonFrame_run h with
  | lengthFailed buf t as first =>
    obtain ⟨k, rfl, less⟩ := readInto_spec first
    exact .error _ k less
  | large buf t as first large =>
    obtain ⟨k, rfl, less⟩ := readInto_spec first
    exact .error _ k less
  | payloadFailed buf buf' t t' as as' first second =>
    obtain ⟨k, rfl, less⟩ := readInto_spec first
    obtain ⟨k', rfl, less'⟩ := readInto_spec second
    exact .error _ k' (less'.trans less)
  | trailerFailed buf buf' tail t t' t'' as as' as'' first second third =>
    obtain ⟨k, rfl, less⟩ := readInto_spec first
    obtain ⟨k', rfl, less'⟩ := readInto_spec second
    obtain ⟨k'', rfl, less''⟩ := readInto_spec third
    exact .error _ k'' (less''.trans (less'.trans less))
  | refused buf buf' tail t t' t'' as as' as'' first second third wrong =>
    obtain ⟨k, rfl, less⟩ := readInto_spec first
    obtain ⟨k', rfl, less'⟩ := readInto_spec second
    obtain ⟨k'', rfl, less''⟩ := readInto_spec third
    exact .error _ k'' (less''.trans (less'.trans less))
  | packet buf buf' tail t t' t'' as as' as'' first small second third closing =>
    obtain ⟨k, rfl, less⟩ := readInto_spec first
    obtain ⟨k', rfl, less'⟩ := readInto_spec second
    obtain ⟨k'', rfl, less''⟩ := readInto_spec third
    exact .packet _ k'' (less''.trans (less'.trans less))

/-- Waiting for the header byte changes only the system's side of the state. -/
theorem eatonBody_spec {s : St α} {packetbuf : Block α} {answers rest : List Answer}
    {e : EatonExit α} (done : feed eatonBody (s, packetbuf) answers = some (e, rest)) :
    ∃ k, (s.withKernel k).pending <:+ s.pending ∧
      (e = .failed (s.withKernel k) ∨ ∃ buf, e = .stopped (s.withKernel k) buf) := by
  refine feed_inv (fun l => ∃ k, (s.withKernel k).pending <:+ s.pending ∧ l.1 = s.withKernel k)
    (fun e => ∃ k, (s.withKernel k).pending <:+ s.pending ∧
      (e = .failed (s.withKernel k) ∨ ∃ buf, e = .stopped (s.withKernel k) buf))
    ?_ ?_ ⟨s.kernel, List.suffix_rfl, rfl⟩ done
  · rintro ⟨t, buf⟩ a e ⟨k, less, rfl⟩ body
    unfold eatonBody at body
    split at body
    · next k' got =>
      cases body
      exact ⟨k', (Kernel.read_suffix got).trans less, Or.inl rfl⟩
    · next k' got =>
      cases body
      exact ⟨k', (Kernel.read_suffix got).trans less, Or.inr ⟨_, rfl⟩⟩
    · next c cs k' got =>
      dsimp only at body
      split at body
      · cases body
        exact ⟨k', (Kernel.read_suffix got).trans less, Or.inr ⟨_, rfl⟩⟩
      · cases body
  · rintro ⟨t, buf⟩ a l ⟨k, less, rfl⟩ body
    unfold eatonBody at body
    split at body
    · cases body
    · cases body
    · next c cs k' got =>
      dsimp only at body
      split at body
      · cases body
      · cases body
        exact ⟨k', (Kernel.read_suffix got).trans less, rfl⟩

/-- A call fails while it waits for the header byte, or goes on behind it. -/
theorem jsSockReadEatonPacket_cases {s s' : St α} {stack : ℕ → ℤ → α} {answers : List Answer}
    {r : Ret α} (h : jsSockReadEatonPacket s stack answers = some (r, s')) :
    (r = .error "read failed: %s" ∧ ∃ rest,
      feed eatonBody (s.suspend, Block.malloc 32 stack) answers = some (.failed s', rest)) ∨
    ∃ t packetbuf rest,
      feed eatonBody (s.suspend, Block.malloc 32 stack) answers =
        some (.stopped t packetbuf, rest) ∧
      eatonFrame t packetbuf (Block.malloc 1 fun k => stack (k + 1)) rest = some (r, s') := by
  unfold jsSockReadEatonPacket at h
  split at h
  · cases h
  · next t rest failed =>
    cases h
    exact Or.inl ⟨rfl, rest, failed⟩
  · next t packetbuf rest stopped => exact Or.inr ⟨t, packetbuf, rest, stopped, h⟩

theorem jsSockReadEatonPacket_spec {s s' : St α} {stack : ℕ → ℤ → α} {answers : List Answer}
    {r : Ret α} (h : jsSockReadEatonPacket s stack answers = some (r, s')) :
    EatonStep s.suspend r s' := by
  rcases jsSockReadEatonPacket_cases h with
    ⟨rfl, rest, failed⟩ | ⟨t, packetbuf, rest, stopped, frame⟩
  · obtain ⟨k, less, eq | ⟨buf, eq⟩⟩ := eatonBody_spec failed
    · cases eq
      exact .error _ k less
    · cases eq
  · obtain ⟨k, less, eq | ⟨buf, eq⟩⟩ := eatonBody_spec stopped
    · cases eq
    · cases eq
      exact (eatonFrame_spec frame).of_withKernel less

/-- The outcomes of the two writing methods; only the system's side of the state changes. -/
inductive WriteStep (s : St α) : Ret α → St α → Prop where
  | arguments : WriteStep s (.done .void) s
  | wrote (r : Ret α) (k : Kernel α) (same : (s.withKernel k).pending = s.pending) :
      WriteStep s r (s.suspend.withKernel k).resume

theorem jsSockSend_spec {s s' : St α} {argv : List (List UInt16)} {answers : List Answer}
    {r : Ret α} (h : jsSockSend s argv answers = some (r, s')) : WriteStep s r s' := by
  unfold jsSockSend at h
  split at h
  · next chars =>
    dsimp only at h
    split at h
    · cases h
    · next a rest =>
      have same := Kernel.write_pending s.kernel s.obj.sock (getStringBytes chars) a
      split at h <;>
      · next k wrote =>
        rw [wrote] at same
        rw [Option.some.injEq, Prod.mk.injEq] at h
        obtain ⟨rfl, rfl⟩ := h
        exact .wrote _ _ same
  · rw [Option.some.injEq, Prod.mk.injEq] at h
    obtain ⟨rfl, rfl⟩ := h
    exact .arguments

theorem jsSockWriteWsPacket_spec {s s' : St α} {argv : List (List UInt16)} {answers : List Answer}
    {r : Ret α} (h : jsSockWriteWsPacket s argv answers = some (r, s')) : WriteStep s r s' := by
  unfold jsSockWriteWsPacket at h
  split at h
  · dsimp only at h
    split at h
    · split at h <;>
      · rw [Option.some.injEq, Prod.mk.injEq] at h
        obtain ⟨rfl, rfl⟩ := h
        refine .wrote _ _ ?_
        simp only [St.pending, St.withKernel_kernel, St.withKernel_obj, Kernel.write_pending]
    · cases h
  · rw [Option.some.injEq, Prod.mk.injEq] at h
    obtain ⟨rfl, rfl⟩ := h
    exact .arguments

end Sysjs
