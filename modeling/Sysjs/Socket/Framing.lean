import Sysjs.Socket.Capacity
import Sysjs.Socket.PacketStream

/-!
# WebSocket frames, written and read

`write_ws_packet` puts a string between the bytes `00` and `ff` without escaping anything, and
`read_ws_packet` on the other side takes such a frame apart.
-/

set_option autoImplicit false

namespace Sysjs

/-- The bytes `write` has taken on this object's descriptor. -/
def St.sent (s : St UInt8) : List UInt8 :=
  match s.kernel.desc s.obj.sock with
  | some d => d.sent
  | none => []

/-- The string that `JS_NewStringCopyZ` makes of bytes without a NUL. -/
def ofBytes (text : List UInt8) : List UInt16 := text.map UInt8.toUInt16

/-- The bytes of a packet. -/
def frame (chars : List UInt16) : List UInt8 := 0 :: (getStringBytes chars ++ [0xff])

/-- The answers let each of the three writes of a packet take all its bytes. -/
def CompleteWrites (chars : List UInt16) (answers : List Answer) : Prop :=
  ∃ n₀ n₁ n₂ rest, answers = .upTo n₀ :: .upTo n₁ :: .upTo n₂ :: rest ∧ 1 ≤ n₀ ∧
    (getStringBytes chars : List UInt8).length ≤ n₁ ∧ 1 ≤ n₂

/-- The peer's `read_ws_packet` returns the string and leaves exactly `more`. -/
def Receives (peer : St UInt8) (answers : List Answer) (chars : List UInt16) (more : List UInt8) :
    Prop :=
  ∃ text t, jsSockReadWsPacket peer answers = some (.done (.string text), t) ∧
    ofBytes text = chars ∧ t.Delivers more

/-! ### The bytes on the stream -/

theorem Kernel.write_complete {k : Kernel UInt8} {fd : ℤ} {d : Desc UInt8} (data : List UInt8)
    {n : ℕ} (opened : k.desc fd = some d) (stream : d.kind ≠ .listening) (all : data.length ≤ n) :
    ∃ k', k.write fd data (.upTo n) = (some data.length, k') ∧
      k'.desc fd = some { d with sent := d.sent ++ data } :=
  ⟨k.set fd (some { d with sent := d.sent ++ data }),
    by simp [Kernel.write, opened, stream, Nat.min_eq_right all],
    Kernel.desc_set_self (Kernel.nonneg_of_desc opened) _⟩

theorem Kernel.write_of_not {k : Kernel UInt8} {fd : ℤ} (data : List UInt8) (a : Answer)
    (closed : ∀ d, k.desc fd = some d → d.kind = .listening) : k.write fd data a = (none, k) := by
  cases opened : k.desc fd with
  | none => simp [Kernel.write, opened]
  | some d => cases a <;> simp [Kernel.write, opened, closed d opened]

/-- A packet whose writes are complete is on the stream when the call returns without an error. -/
theorem sent_of_writeWsPacket {s s' : St UInt8} {chars : List UInt16} {answers : List Answer}
    {v : Rval UInt8} (complete : CompleteWrites chars answers)
    (h : jsSockWriteWsPacket s [chars] answers = some (.done v, s')) :
    s'.sent = s.sent ++ frame chars := by
  obtain ⟨n₀, n₁, n₂, rest, rfl, first, second, third⟩ := complete
  by_cases opened : ∃ d, s.kernel.desc s.obj.sock = some d ∧ d.kind ≠ .listening
  · obtain ⟨d, opened, stream⟩ := opened
    obtain ⟨k₀, write₀, opened₀⟩ := Kernel.write_complete [nul] opened stream first
    obtain ⟨k₁, write₁, opened₁⟩ :=
      Kernel.write_complete (getStringBytes chars) opened₀ stream second
    obtain ⟨k₂, write₂, opened₂⟩ := Kernel.write_complete [Octet.lit 0xff] opened₁ stream third
    simp only [jsSockWriteWsPacket, write₀, write₁, write₂, ne_eq, not_true_eq_false, if_false,
      Option.some.injEq, Prod.mk.injEq] at h
    obtain ⟨-, rfl⟩ := h
    simp only [St.sent, St.resume_kernel, St.withKernel_kernel, St.resume_obj, St.withKernel_obj,
      St.suspend_obj, opened₂, opened, frame, List.append_assoc]
    rfl
  · have closed : ∀ d, s.kernel.desc s.obj.sock = some d → d.kind = .listening := by
      intro d hd
      by_contra stream
      exact opened ⟨d, hd, stream⟩
    simp [jsSockWriteWsPacket, Kernel.write_of_not _ _ closed] at h

/-! ### Characters and bytes -/

theorem toUInt16_toUInt8_of_le {c : UInt16} (small : c ≤ 255) : c.toUInt8.toUInt16 = c := by
  have small : c.toNat ≤ 255 := small
  rw [UInt16.toUInt16_toUInt8, ← UInt16.toNat_inj]
  simp only [UInt16.toNat_mod, UInt16.reduceToNat]
  omega

theorem ofBytes_map {chars : List UInt16} (small : ∀ c ∈ chars, c ≤ 255) :
    ofBytes (chars.map UInt16.toUInt8) = chars := by
  rw [ofBytes, List.map_map]
  exact (List.map_congr_left fun c hc => toUInt16_toUInt8_of_le (small c hc)).trans
    (List.map_id chars)

/-- Without U+0000 all characters become bytes. -/
theorem getStringBytes_of_not_mem {chars : List UInt16} (small : ∀ c ∈ chars, c ≤ 255)
    (zero : 0 ∉ chars) : (getStringBytes chars : List UInt8) = chars.map UInt16.toUInt8 := by
  apply cut_of_not_isNul
  intro x hx
  obtain ⟨c, hc, rfl⟩ := List.mem_map.1 hx
  rw [isNul, beq_eq_false_iff_ne]
  intro null
  have back := toUInt16_toUInt8_of_le (small c hc)
  rw [show c.toUInt8 = 0 from null] at back
  exact zero ((show (0 : UInt16) = c from back) ▸ hc)

theorem ne_closing_of_mem_getStringBytes {chars : List UInt16} (small : ∀ c ∈ chars, c ≤ 255)
    (zero : 0 ∉ chars) (delimiter : 255 ∉ chars) :
    ∀ x ∈ (getStringBytes chars : List UInt8), x ≠ 0xff := by
  rintro x hx rfl
  rw [getStringBytes_of_not_mem small zero] at hx
  obtain ⟨c, hc, eq⟩ := List.mem_map.1 hx
  have back := toUInt16_toUInt8_of_le (small c hc)
  rw [eq] at back
  exact delimiter ((show (255 : UInt16) = c from back) ▸ hc)

theorem not_isNul_of_mem_getStringBytes {chars : List UInt16} {x : UInt8}
    (h : x ∈ (getStringBytes chars : List UInt8)) : isNul x = false := by
  simpa using List.mem_takeWhile_imp h

theorem mem_ofBytes {text : List UInt8} {b : UInt8} (h : b.toUInt16 ∈ ofBytes text) : b ∈ text := by
  obtain ⟨c, hc, eq⟩ := List.mem_map.1 h
  rwa [← UInt8.toUInt16_inj.1 eq]

/-! ### The round trip -/

/-- A peer whose stream begins with `l` and a closing byte behind an opening one. -/
theorem receives_iff {peer : St UInt8} {l rest : List UInt8} {answers : List Answer}
    {chars : List UInt16} {more : List UInt8} (stream : peer.Delivers (0 :: (l ++ 0xff :: rest)))
    (payload : ∀ x ∈ l, x ≠ 0xff) (clean : ∀ x ∈ l, isNul x = false)
    (fits : peer.obj.bufferSize ≤ peer.obj.readBuffer.size) (answered : NoFail answers)
    (enough : l.length + 2 ≤ answers.length) :
    Receives peer answers chars more ↔ ofBytes l = chars ∧ rest = more := by
  have halves := List.take_append_drop (l.length + 2) answers
  have first : NoFail (answers.take (l.length + 2)) := fun a ha =>
    answered a (List.mem_of_mem_take ha)
  obtain ⟨t, value, after, -⟩ := readWsPacket_of_frame (g := []) (p := l)
    (answers.drop (l.length + 2)) stream (fun x hx => absurd hx List.not_mem_nil) (by decide)
    payload (by decide) fits (by rw [List.length_take]; simp only [List.length_nil]; omega)
    first
  rw [halves, cut_of_not_isNul clean] at value
  constructor
  · rintro ⟨text, u, got, same, left⟩
    rw [value, Option.some.injEq, Prod.mk.injEq, Ret.done.injEq, Rval.string.injEq] at got
    obtain ⟨rfl, rfl⟩ := got
    exact ⟨same, after.pending.symm.trans left.pending⟩
  · rintro ⟨same, rfl⟩
    exact ⟨l, t, value, same, after⟩

/-- A peer at the start of a packet gets exactly its string, and the packet is used up, if and only
if the string has neither of the two characters that delimit packets. -/
theorem receives_frame_iff {peer : St UInt8} {chars : List UInt16} {more : List UInt8}
    {answers : List Answer} (small : ∀ c ∈ chars, c ≤ 255)
    (stream : peer.Delivers (frame chars ++ more))
    (fits : peer.obj.bufferSize ≤ peer.obj.readBuffer.size) (answered : NoFail answers)
    (enough : (frame chars).length ≤ answers.length) :
    Receives peer answers chars more ↔ 0 ∉ chars ∧ 255 ∉ chars := by
  have closed : ∃ c ∈ getStringBytes chars ++ [0xff], (c == (0xff : UInt8)) = true :=
    ⟨0xff, by simp, by simp⟩
  obtain ⟨l, e, rest, split, before, closing⟩ :=
    Block.split_at_first (· == (0xff : UInt8)) closed
  obtain rfl : e = 0xff := by simpa using closing
  have payload : ∀ x ∈ l, x ≠ 0xff := fun x hx => by simpa using before x hx
  have clean : ∀ x ∈ l, isNul x = false := by
    intro x hx
    have whole : x ∈ getStringBytes chars ++ [0xff] := by
      rw [split]
      exact List.mem_append_left _ hx
    rcases List.mem_append.1 whole with text | last
    · exact not_isNul_of_mem_getStringBytes text
    · exact absurd (List.mem_singleton.1 last) (payload x hx)
  have packet : frame chars ++ more = 0 :: (l ++ 0xff :: (rest ++ more)) := by
    rw [frame, split]
    simp
  rw [packet] at stream
  have long : l.length + 2 ≤ (frame chars).length := by
    rw [frame, split]
    simp only [List.length_cons, List.length_append]
    omega
  rw [receives_iff stream payload clean fits answered (long.trans enough)]
  constructor
  · rintro ⟨rfl, -⟩
    refine ⟨fun zero => ?_, fun delimiter => ?_⟩
    · exact absurd (clean 0 (mem_ofBytes zero)) (by decide)
    · exact payload 0xff (mem_ofBytes delimiter) rfl
  · rintro ⟨zero, delimiter⟩
    have none := ne_closing_of_mem_getStringBytes small zero delimiter
    obtain ⟨same, -, none_left⟩ := Block.split_unique (· == (0xff : UInt8)) (by simpa using none)
      (by decide) (by simpa using payload) (by decide) split
    rw [← same, getStringBytes_of_not_mem small zero, ofBytes_map small, ← none_left]
    exact ⟨rfl, rfl⟩

/-- When `write_ws_packet` returns without an error and every write was complete, a peer at the
start of the bytes written gets exactly the string and uses them up, if and only if the string has
neither U+0000 nor U+00FF. -/
theorem ws_round_trip_iff {s s' peer : St UInt8} {chars : List UInt16} {v : Rval UInt8}
    {written more : List UInt8} {answers peerAnswers : List Answer}
    (small : ∀ c ∈ chars, c ≤ 255) (complete : CompleteWrites chars answers)
    (wrote : jsSockWriteWsPacket s [chars] answers = some (.done v, s'))
    (bytes : s'.sent = s.sent ++ written) (reached : peer.Reachable)
    (stream : peer.Delivers (written ++ more)) (answered : NoFail peerAnswers)
    (enough : written.length ≤ peerAnswers.length) :
    Receives peer peerAnswers chars more ↔ 0 ∉ chars ∧ 255 ∉ chars := by
  obtain rfl : written = frame chars :=
    List.append_cancel_left (bytes.symm.trans (sent_of_writeWsPacket complete wrote))
  exact receives_frame_iff small stream reached.backed answered enough

/-- The packet of "hi". -/
theorem ws_round_trip_hi :
    Receives (St.start (fun _ _ => (0 : UInt8)) [.int 6] (.stream 6 [0, 104, 105, 255]))
      [.upTo 1, .upTo 1, .upTo 1, .upTo 1] [104, 105] [] := by
  have returned : ((jsSockWriteWsPacket (St.start (fun _ _ => (0 : UInt8)) [.int 5] (.stream 5 []))
      [[104, 105]] [.upTo 1, .upTo 2, .upTo 1]).map fun x => (x.1, x.2.sent)) =
      some (.done .void, [0, 104, 105, 255]) := by decide +kernel
  obtain ⟨⟨r, s'⟩, wrote, eq⟩ := Option.map_eq_some_iff.1 returned
  obtain ⟨rfl, sent⟩ := Prod.mk.inj eq
  have bytes : s'.sent =
      (St.start (fun _ _ => (0 : UInt8)) [.int 5] (.stream 5 [])).sent ++ [0, 104, 105, 255] := sent
  have small : ∀ c ∈ [104, 105], c ≤ (255 : UInt16) := by
    rintro c (_ | ⟨_, _ | ⟨_, none⟩⟩)
    · decide
    · decide
    · cases none
  refine (ws_round_trip_iff small ⟨1, 2, 1, [], rfl, le_rfl, by decide +kernel, le_rfl⟩ wrote
    bytes ⟨_, _, _, [], rfl⟩ ⟨_, rfl, by decide, rfl⟩ ?_ ?_).2 (by decide)
  · unfold NoFail
    decide
  · decide

/-- The packet of a string with U+00FF in it: the peer gets the part before. -/
theorem ws_round_trip_not_delimiter :
    ((jsSockWriteWsPacket (St.start (fun _ _ => (0 : UInt8)) [.int 5] (.stream 5 []))
      [[97, 255, 98]] [.upTo 1, .upTo 3, .upTo 1]).map fun x => (x.1, x.2.sent)) =
      some (.done .void, [0, 97, 255, 98, 255]) ∧
    ¬ Receives (St.start (fun _ _ => (0 : UInt8)) [.int 6] (.stream 6 [0, 97, 255, 98, 255]))
      [.upTo 1, .upTo 1, .upTo 1, .upTo 1, .upTo 1] [97, 255, 98] [] := by
  refine ⟨by decide +kernel, ?_⟩
  rintro ⟨text, t, got, same, -⟩
  have value : (jsSockReadWsPacket
      (St.start (fun _ _ => (0 : UInt8)) [.int 6] (.stream 6 [0, 97, 255, 98, 255]))
      [.upTo 1, .upTo 1, .upTo 1, .upTo 1, .upTo 1]).map (fun x => x.1) =
      some (.done (.string [97])) := by decide +kernel
  rw [got] at value
  obtain rfl : text = [97] := by simpa using value
  exact absurd same (by decide)

end Sysjs
