import Sysjs.Socket.LineStream
import Sysjs.Socket.PacketStream
import Sysjs.Socket.Sizes

/-!
# No byte is lost between the readers

The four readers share one buffer and one descriptor.  A call conserves the stream when what it
returns stands at the front of the unconsumed bytes and everything behind stays unconsumed.
-/

set_option autoImplicit false

namespace Sysjs

open Feed Runs

variable {α : Type*} [Octet α]

/-- What a successful call takes from the stream, and the value it makes of it. -/
inductive Consumes : Reader α → List α → Rval α → Prop where
  | line (l : List α) (c : α) (before : ∀ x ∈ l, isNl x = false) (here : isNl c = true) :
      Consumes .read (l ++ [c]) (.string (cut (chomp l)))
  | bytes (taken : List α) : Consumes (.readBytes taken.length) taken (.array taken)
  | frame (g p : List α) (z e : α) (garbage : ∀ x ∈ g, isNul x = false) (opening : isNul z = true)
      (payload : ∀ x ∈ p, Octet.val x ≠ 0xff) (closing : Octet.val e = 0xff) :
      Consumes .readWsPacket (g ++ z :: (p ++ [e])) (.string (cut p))
  | packet (stack : ℕ → ℤ → α) (g d : List α) (h len e : α) (garbage : ∀ x ∈ g, Octet.val x ≠ 0x5a)
      (header : Octet.val h = 0x5a) (length : (Octet.val len).toNat = d.length + 1)
      (trailer : Octet.val e = 0xa5) :
      Consumes (.readEatonPacket stack) (g ++ h :: len :: (d ++ [e])) (.array (len :: d))

/-- The value of a call comes from the front of the unconsumed bytes, and the rest stays. -/
def Takes (s : St α) (reader : Reader α) (v : Rval α) (s' : St α) : Prop :=
  ∃ consumed, s.unconsumed = consumed ++ s'.unconsumed ∧ Consumes reader consumed v

/-- A successful call consumes from the front; any other call consumes nothing. -/
def Accounts (s : St α) (e : Reader α × List Answer) (r : Ret α) (s' : St α) : Prop :=
  match r with
  | .done (.string chars) => Takes s e.1 (.string chars) s'
  | .done (.array elems) => Takes s e.1 (.array elems) s'
  | _ => s'.unconsumed = s.unconsumed

/-- A call does so, and no size it computes for the buffer leaves the range of an `int`. -/
def Conserves (s : St α) (e : Reader α × List Answer) (r : Ret α) (s' : St α) : Prop :=
  Accounts s e r s' ∧ s'.obj.inRange = true

/-! ### When a call conserves the stream -/

/-- The first `read` of a packet reader fails. -/
def FirstFails (s : St α) (answers : List Answer) : Prop :=
  ∀ a ∈ answers.head?, (s.kernel.read s.obj.sock 1 a).1 = none

/-- `readBytes(n)` takes exactly the buffered bytes; or fewer, and the one behind them is NUL
already; or, of an empty buffer, as many as one `read` delivers at once; or nothing comes. -/
def BytesKeep (s : St α) (n : ℤ) (answers : List Answer) : Prop :=
  n = s.obj.bufferPos ∨
  (n < s.obj.bufferPos ∧ s.obj.readBuffer.cells n = nul) ∨
  (s.obj.bufferPos < n ∧ ∀ a ∈ answers.head?,
    match (s.kernel.read s.obj.sock (s.missing n) a).1 with
    | none => True
    | some data => data = [] ∨ (s.obj.bufferPos = 0 ∧ (data.length : ℤ) = n))

/-- A whole WebSocket frame is what the descriptor delivers next. -/
def FrameAhead (s : St α) (answers : List Answer) : Prop :=
  ∃ (g p rest : List α) (z e : α) (as more : List Answer),
    s.Delivers (g ++ z :: (p ++ e :: rest)) ∧ (∀ x ∈ g, isNul x = false) ∧ isNul z = true ∧
    (∀ x ∈ p, Octet.val x ≠ 0xff) ∧ Octet.val e = 0xff ∧
    answers = as ++ more ∧ as.length = g.length + p.length + 2 ∧ NoFail as

/-- A whole packet of the serial protocol is what the descriptor delivers next, its payload by one
`read`. -/
def PacketAhead (s : St α) (answers : List Answer) : Prop :=
  ∃ (g d rest : List α) (h len e : α) (as more : List Answer) (a₁ a₃ : Answer) (n : ℕ),
    s.Delivers (g ++ h :: len :: (d ++ e :: rest)) ∧ (∀ x ∈ g, Octet.val x ≠ 0x5a) ∧
    Octet.val h = 0x5a ∧ (Octet.val len).toNat = d.length + 1 ∧ (Octet.val len).toNat ≤ 32 ∧
    Octet.val e = 0xa5 ∧ answers = as ++ a₁ :: .upTo n :: a₃ :: more ∧ as.length = g.length + 1 ∧
    NoFail as ∧ a₁ ≠ .fail ∧ d.length ≤ max n 1 ∧ a₃ ≠ .fail

/-- The stream is over, and `readEatonPacket` does not take what its local arrays happen to hold for
a packet. -/
def StreamOver (s : St α) (stack : ℕ → ℤ → α) (answers : List Answer) : Prop :=
  s.pending = [] ∧
    (¬ NoFail (answers.take 4) ∨ (Octet.val (stack 0 0)).toNat = 0 ∨
      32 < (Octet.val (stack 0 0)).toNat ∨ Octet.val (stack 1 0) ≠ 0xa5)

/-- The condition on the state and the call under which the call accounts for every byte.  For
`read` no newline is where it looks for buffered lines, and its receive rounds lose nothing; the
packet readers find the buffer empty and a whole packet, or get nothing. -/
def LosesNothing (s : St α) (e : Reader α × List Answer) : Prop :=
  match e.1 with
  | .read => s.obj.NoLine ∧ FeedAll recvBody RoundKeeps s.receiving e.2
  | .readBytes n => 0 ≤ n ∧ BytesKeep s n e.2
  | .readWsPacket => FirstFails s e.2 ∨ (s.obj.bufferPos = 0 ∧ FrameAhead s e.2)
  | .readEatonPacket stack =>
    FirstFails s e.2 ∨ StreamOver s stack e.2 ∨ (s.obj.bufferPos = 0 ∧ PacketAhead s e.2)

/-- The condition under which it conserves the stream: `JS_realloc` can grant the larger buffers it
asks for besides. -/
def Keeps (s : St α) (e : Reader α × List Answer) : Prop := LosesNothing s e ∧ Grants s e

/-! ### One call -/

omit [Octet α] in
theorem unconsumed_of_eq {s s' : St α} (buffered : s'.obj.buffered = s.obj.buffered)
    (pending : s'.pending = s.pending) : s'.unconsumed = s.unconsumed := by
  rw [St.unconsumed, buffered, pending, St.unconsumed]

omit [Octet α] in
theorem unconsumed_of_empty {s : St α} (h : s.obj.bufferPos = 0) : s.unconsumed = s.pending := by
  rw [St.unconsumed, SockObj.buffered_of_zero h, List.nil_append]

theorem read_accounts {s s' : St α} {answers : List Answer} {r : Ret α} (fits : s.obj.Fits)
    (keeps : LosesNothing s (.read, answers)) (h : jsSockRead s answers = some (r, s')) :
    Accounts s (.read, answers) r s' ∧ s'.obj.Fits := by
  obtain ⟨fresh, rounds⟩ := keeps
  obtain ⟨outcome, fits', -⟩ := jsSockRead_of_keeps fits fresh rounds h
  refine ⟨?_, fits'⟩
  cases outcome with
  | waiting r s' value same clear =>
    rcases value with rfl | rfl
    · exact same
    · exact same
  | line l c s' before here split terminated =>
    exact ⟨l ++ [c], by rw [split, List.append_assoc, List.singleton_append],
      .line l c before here⟩

theorem readBytes_accounts {s s' : St α} {n : ℤ} {answers : List Answer} {r : Ret α}
    (fits : s.obj.Fits) (keeps : LosesNothing s (.readBytes n, answers))
    (h : jsSockReadBytes s [n] answers = some (r, s')) :
    Accounts s (.readBytes n, answers) r s' ∧ s'.obj.Fits := by
  obtain ⟨low, keeps⟩ := keeps
  obtain ⟨n, rfl⟩ := Int.eq_ofNat_of_zero_le low
  have bound := SockObj.length_buffered fits
  have step := readBytes_step fits h
  cases step with
  | served t enough left kernel =>
    have kept : (n : ℤ) = s.obj.bufferPos ∨ s.obj.readBuffer.cells n = nul := by
      rcases keeps with all | ⟨-, zero⟩ | ⟨above, -⟩
      · exact Or.inl all
      · exact Or.inr zero
      · omega
    have behind := left.buffered.trans ((buffered_drop_iff fits enough).2 kept)
    have takes := Consumes.bytes (s.obj.buffered.take n)
    rw [List.length_take, Nat.min_eq_left (by omega)] at takes
    refine ⟨⟨s.obj.buffered.take n, ?_, takes⟩, left.fits⟩
    rw [St.unconsumed, St.unconsumed, behind, ← List.append_assoc, List.take_append_drop,
      St.pending, St.pending, kernel, left.sock]
  | short t a asked more came few got left =>
    have nothing : came.getD [] = [] := by
      rcases keeps with all | ⟨below, -⟩ | ⟨-, come⟩
      · omega
      · omega
      · have come := come a asked
        rw [got] at come
        cases came with
        | none => rfl
        | some data =>
          rcases come with none_came | ⟨-, whole⟩
          · exact none_came
          · rw [Option.getD_some] at few
            omega
    have pending := left.pending got
    rw [nothing, List.nil_append] at pending
    exact ⟨unconsumed_of_eq left.buffered pending.symm, left.fits⟩
  | whole t a asked data empty all got left =>
    obtain rfl := all
    refine ⟨⟨data, ?_, .bytes data⟩, left.fits⟩
    rw [unconsumed_of_empty empty, St.unconsumed, left.buffered, left.pending got, List.nil_append,
      Option.getD_some]

/-- A packet reader whose first `read` fails. -/
theorem readWsPacket_of_firstFails {s s' : St α} {answers : List Answer} {r : Ret α}
    (fails : FirstFails s answers) (h : jsSockReadWsPacket s answers = some (r, s')) :
    r = .error "read failed: %s" ∧ s' = s.suspend := by
  cases answers with
  | nil => simp [jsSockReadWsPacket, feed] at h
  | cons a as =>
    rcases got : s.kernel.read s.obj.sock 1 a with ⟨_ | data, k⟩
    · obtain rfl := Kernel.read_none got
      have body : wsBody { st := s.suspend, synced := false, total := 0 } a =
          .inl (.failed s.suspend) :=
        wsBody_of_failed (l := { st := s.suspend, synced := false, total := 0 }) got
      rw [jsSockReadWsPacket, feed_cons_inl as body] at h
      simpa [eq_comm] using h
    · have := fails a rfl
      simp [got] at this

theorem readEatonPacket_of_firstFails {s s' : St α} {stack : ℕ → ℤ → α} {answers : List Answer}
    {r : Ret α} (fails : FirstFails s answers)
    (h : jsSockReadEatonPacket s stack answers = some (r, s')) :
    r = .error "read failed: %s" ∧ s' = s.suspend := by
  cases answers with
  | nil => simp [jsSockReadEatonPacket, feed] at h
  | cons a as =>
    rcases got : s.kernel.read s.obj.sock 1 a with ⟨_ | data, k⟩
    · obtain rfl := Kernel.read_none got
      have body : eatonBody (s.suspend, Block.malloc 32 stack) a = .inl (.failed s.suspend) :=
        eatonBody_of_failed (s := s.suspend) got
      rw [jsSockReadEatonPacket, feed_cons_inl as body] at h
      simpa [eq_comm] using h
    · have := fails a rfl
      simp [got] at this

theorem readWsPacket_accounts {s s' : St α} {answers : List Answer} {r : Ret α}
    (fits : s.obj.Fits) (keeps : LosesNothing s (.readWsPacket, answers))
    (h : jsSockReadWsPacket s answers = some (r, s')) :
    Accounts s (.readWsPacket, answers) r s' ∧ s'.obj.Fits := by
  rcases keeps with fails | ⟨empty, g, p, rest, z, e, as, more, stream, garbage, opening, payload,
    closing, rfl, count, answered⟩
  · obtain ⟨rfl, rfl⟩ := readWsPacket_of_firstFails fails h
    exact ⟨rfl, fits⟩
  · obtain ⟨t, value, after, sock, pos, larger, block⟩ := readWsPacket_of_frame more
      stream garbage opening payload closing fits.block count answered
    rw [value, Option.some.injEq, Prod.mk.injEq] at h
    obtain ⟨rfl, rfl⟩ := h
    refine ⟨⟨g ++ z :: (p ++ [e]), ?_, .frame g p z e garbage opening payload closing⟩,
      ⟨by omega, by omega, block⟩⟩
    rw [unconsumed_of_empty empty, unconsumed_of_empty (pos.trans empty), stream.pending,
      after.pending]
    simp

theorem readEatonPacket_accounts {s s' : St α} {stack : ℕ → ℤ → α} {answers : List Answer}
    {r : Ret α} (fits : s.obj.Fits) (keeps : LosesNothing s (.readEatonPacket stack, answers))
    (h : jsSockReadEatonPacket s stack answers = some (r, s')) :
    Accounts s (.readEatonPacket stack, answers) r s' ∧ s'.obj.Fits := by
  rcases keeps with fails | ⟨ended, refused⟩ | ⟨empty, g, d, rest, header, len, e, as, more, a₁, a₃,
    n, stream, garbage, opening, length, small, trailer, rfl, count, answered, first, whole, third⟩
  · obtain ⟨rfl, rfl⟩ := readEatonPacket_of_firstFails fails h
    exact ⟨rfl, fits⟩
  · have step := jsSockReadEatonPacket_spec h
    cases step with
    | error format k less =>
      have none_left : s.suspend.pending = [] := ended
      rw [none_left, List.suffix_nil] at less
      exact ⟨unconsumed_of_eq rfl (less.trans ended.symm), fits⟩
    | packet elems k less =>
      obtain ⟨answered, low, small, trailer⟩ := readEatonPacket_of_ended ended h
      rcases refused with fails | zero | large | other
      · exact absurd answered fails
      · exact absurd zero low
      · omega
      · exact absurd trailer other
  · obtain ⟨t, value, after, obj⟩ := readEatonPacket_of_frame stack more
      stream garbage opening length small trailer count answered first whole third
    rw [value, Option.some.injEq, Prod.mk.injEq] at h
    obtain ⟨rfl, rfl⟩ := h
    refine ⟨⟨g ++ header :: len :: (d ++ [e]), ?_,
      .packet stack g d header len e garbage opening length trailer⟩, by rw [obj]; exact fits⟩
    rw [unconsumed_of_empty empty, unconsumed_of_empty (by rw [obj]; exact empty), stream.pending,
      after.pending]
    simp

/-- Every call that meets the condition accounts for every byte. -/
theorem call_accounts {s s' : St α} {e : Reader α × List Answer} {r : Ret α} (fits : s.obj.Fits)
    (keeps : LosesNothing s e) (h : Reader.call s e = some (r, s')) :
    Accounts s e r s' ∧ s'.obj.Fits := by
  obtain ⟨reader, answers⟩ := e
  cases reader with
  | read => exact read_accounts fits keeps h
  | readBytes n => exact readBytes_accounts fits keeps h
  | readWsPacket => exact readWsPacket_accounts fits keeps h
  | readEatonPacket stack => exact readEatonPacket_accounts fits keeps h

/-- What holds between the calls of a run that conserves the stream. -/
structure Steady (s : St α) : Prop where
  fits : s.obj.Fits
  inRange : s.obj.inRange = true

theorem call_conserves {s s' : St α} {e : Reader α × List Answer} {r : Ret α} (steady : Steady s)
    (keeps : Keeps s e) (h : Reader.call s e = some (r, s')) :
    Conserves s e r s' ∧ Steady s' := by
  obtain ⟨accounts, fits⟩ := call_accounts steady.fits keeps.1 h
  have inRange := call_inRange steady.inRange keeps.2 h
  exact ⟨⟨accounts, inRange⟩, ⟨fits, inRange⟩⟩

/-- From a new Socket, every run whose calls meet the condition conserves the stream: each call
consumes from where the last one stopped. -/
theorem readers_conserve_stream (heap : ℕ → ℤ → α) (argv : List Jsval) (k : Kernel α)
    (calls : List (Reader α × List Answer))
    (keeps : Guarded Reader.call Keeps (St.start heap argv k) calls) :
    Along Reader.call Conserves (St.start heap argv k) calls :=
  Guarded.along Steady (fun _ _ _ _ steady hkeeps h => call_conserves steady hkeeps h)
    ⟨jsSockConstruct_fits heap argv, jsSockConstruct_inRange heap argv⟩ keeps

/-- What a conserving call leaves is an end of what was there. -/
theorem Conserves.suffix {s s' : St α} {e : Reader α × List Answer} {r : Ret α}
    (h : Conserves s e r s') : s'.unconsumed <:+ s.unconsumed := by
  have h := h.1
  unfold Accounts at h
  split at h
  · obtain ⟨consumed, split, -⟩ := h
    exact ⟨consumed, split.symm⟩
  · obtain ⟨consumed, split, -⟩ := h
    exact ⟨consumed, split.symm⟩
  · exact h ▸ List.suffix_rfl

/-- A line, then two bytes. -/
theorem readers_conserve_line_and_bytes :
    Along Reader.call Conserves
      (St.start (fun _ _ => (0 : UInt8)) [.int 5] (.stream 5 [97, 10, 98, 99]))
      [(.read, [.upTo 2]), (.readBytes 2, [.upTo 2])] := by
  refine readers_conserve_stream _ _ _ _ (guarded_cons
    ⟨⟨?_, feedAll_singleton.2 ?_⟩, fun _ => feedAll_singleton.2 ?_⟩ (guarded_cons
    ⟨⟨by decide, Or.inr (Or.inr ⟨by decide +kernel, fun a asked => ?_⟩)⟩, Or.inl ?_⟩ trivial))
  · intro kept
    exact absurd kept (by decide)
  · exact Or.inl ⟨10, by decide +kernel, by decide⟩
  · intro data k got _ clear
    have came : data = [97, 10] := by
      have answer := congrArg Prod.fst got
      exact (Option.some.inj answer).symm
    have newline := clear 10 (by rw [came]; decide)
    exact absurd newline (by decide)
  · obtain rfl : Answer.upTo 2 = a := by simpa using asked
    exact Or.inr (by decide +kernel)
  · decide +kernel

/-- Two lines in one chunk: after the second `read` a byte that was never received is kept. -/
theorem read_conserves_not_two_lines :
    ¬ Along Reader.call Conserves
      (St.start (fun _ _ => (0 : UInt8)) [.int 5] (.stream 5 [97, 10, 98, 10]))
      [(.read, [.upTo 4]), (.read, [])] :=
  not_along_of_last (fun s _ x => decide (x.2.unconsumed <:+ s.unconsumed))
    (fun _ _ _ _ h => decide_eq_true (Conserves.suffix h)) [(Reader.read, [Answer.upTo 4])]
    (Reader.read, []) (by decide +kernel) (by decide +kernel)

end Sysjs
