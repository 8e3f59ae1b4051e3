import Sysjs.Socket.Frames

/-!
# Packets whose writes fail

`write_ws_packet` makes three writes and looks at the result of the second one, after the third.
What reaches the stream is followed through a peer that reads packets from it.
-/

set_option autoImplicit false

namespace Sysjs

open Feed

/-- A `write` of these bytes with this answer would take them all. -/
def St.Takes (s : St UInt8) (data : List UInt8) (a : Answer) : Prop :=
  (s.kernel.write s.obj.sock data a).1 = some data.length

/-- A peer that has exactly these bytes to read, on a connection that stays open, gets no string
other than `text`: every `read` of its call finds a byte, or the call is still waiting. -/
def NoOtherPacket (text reached : List UInt8) : Prop :=
  ∀ (peer t : St UInt8) answers text', peer.Reachable → peer.Delivers reached →
    answers.length ≤ reached.length →
    jsSockReadWsPacket peer answers = some (.done (.string text'), t) → text' = text

/-- What the bytes that reached the stream should be: the packet when the call returns, and nothing
that is taken for another one when it raises an error. -/
def Honest (text reached : List UInt8) : Ret UInt8 → Prop
  | .done _ => reached = 0 :: (text ++ [0xff])
  | .error _ => NoOtherPacket text reached

/-- A call of `write_ws_packet` with the outcomes of its three writes. -/
def WritesHonestly (s : St UInt8) (text : List UInt8) (a₀ a₁ a₂ : Answer) : Prop :=
  ∃ r s' reached, jsSockWriteWsPacket s [ofBytes text] [a₀, a₁, a₂] = some (r, s') ∧
    s'.sent = s.sent ++ reached ∧ Honest text reached r

/-! ### The three writes -/

/-- The part of the bytes that a `write` takes. -/
def St.taken (s : St UInt8) (data : List UInt8) (a : Answer) : List UInt8 :=
  data.take ((s.kernel.write s.obj.sock data a).1.getD 0)

theorem Kernel.write_write {α : Type*} (k : Kernel α) (fd : ℤ) (data data' : List α)
    (a a' : Answer) : ((k.write fd data a).2.write fd data' a').1 = (k.write fd data' a').1 := by
  rcases k.write_cases fd data a with failed | ⟨d, m, opened, stream, -, wrote⟩
  · rw [failed]
  · rw [wrote]
    have opened' := Kernel.desc_set_self (Kernel.nonneg_of_desc opened)
      (some { d with sent := d.sent ++ data.take m }) (k := k)
    cases a' <;> simp [Kernel.write, opened, opened', stream]

theorem sent_write (s : St UInt8) (data : List UInt8) (a : Answer) :
    (s.withKernel (s.kernel.write s.obj.sock data a).2).sent = s.sent ++ s.taken data a := by
  rw [St.taken]
  rcases s.kernel.write_cases s.obj.sock data a with failed | ⟨d, m, opened, stream, -, wrote⟩
  · simp [failed]
  · rw [wrote]
    simp [St.sent, opened, Kernel.desc_set_self (Kernel.nonneg_of_desc opened)]

theorem taken_of_takes {s : St UInt8} {data : List UInt8} {a : Answer} (all : s.Takes data a) :
    s.taken data a = data := by
  rw [St.taken, show (s.kernel.write s.obj.sock data a).1 = some data.length from all,
    Option.getD_some, List.take_length]

/-- A single byte is taken or nothing is. -/
theorem taken_singleton {s : St UInt8} {c : UInt8} {a : Answer} (short : ¬ s.Takes [c] a) :
    s.taken [c] a = [] := by
  unfold St.Takes at short
  rw [St.taken]
  rcases s.kernel.write_cases s.obj.sock [c] a with failed | ⟨d, m, -, -, bound, wrote⟩
  · simp [failed]
  · rw [wrote] at short ⊢
    rw [List.length_singleton] at bound short
    obtain rfl : m = 0 := by
      have other : m ≠ 1 := fun one => short (congrArg some one)
      omega
    rfl

/-- A part that was not taken whole is shorter. -/
theorem length_taken_lt {s : St UInt8} {data : List UInt8} {a : Answer} (short : ¬ s.Takes data a)
    (some_ : data ≠ []) : (s.taken data a).length < data.length := by
  have pos := List.length_pos_iff.2 some_
  unfold St.Takes at short
  rw [St.taken, List.length_take]
  rcases s.kernel.write_cases s.obj.sock data a with failed | ⟨d, m, -, -, bound, wrote⟩
  · rw [failed]
    exact Nat.lt_of_le_of_lt (Nat.min_le_left _ _) pos
  · rw [wrote] at short ⊢
    have other : m ≠ data.length := fun all => short (congrArg some all)
    dsimp only [Option.getD_some]
    omega

theorem getStringBytes_ofBytes {text : List UInt8} (clean : ∀ x ∈ text, isNul x = false) :
    (getStringBytes (ofBytes text) : List UInt8) = text := by
  have back : (ofBytes text).map (fun c => (Octet.lit c.toUInt8 : UInt8)) = text := by
    rw [ofBytes, List.map_map]
    exact (List.map_congr_left fun c _ => UInt8.toUInt8_toUInt16 c).trans (List.map_id text)
  rw [getStringBytes, back]
  exact cut_of_not_isNul clean

/-- What a call returns, and what it puts on the stream. -/
theorem writeWsPacket_sent (s : St UInt8) {text : List UInt8} (clean : ∀ x ∈ text, isNul x = false)
    (a₀ a₁ a₂ : Answer) :
    ∃ r s', jsSockWriteWsPacket s [ofBytes text] [a₀, a₁, a₂] = some (r, s') ∧
      s'.sent = s.sent ++ (s.taken [0] a₀ ++ s.taken text a₁ ++ s.taken [0xff] a₂) ∧
      ((s.Takes text a₁ ∧ r = .done .void) ∨
        (¬ s.Takes text a₁ ∧ r = .error "switch_js_sock_send failed: %d %s.\n")) := by
  let s₀ := s.withKernel (s.kernel.write s.obj.sock [0] a₀).2
  let s₁ := s₀.withKernel (s₀.kernel.write s.obj.sock text a₁).2
  let s₂ := s₁.withKernel (s₁.kernel.write s.obj.sock [0xff] a₂).2
  have ret : (s₀.kernel.write s.obj.sock text a₁).1 = (s.kernel.write s.obj.sock text a₁).1 :=
    s.kernel.write_write s.obj.sock [0] text a₀ a₁
  have last : (s₁.kernel.write s.obj.sock [0xff] a₂).1 =
      (s.kernel.write s.obj.sock [0xff] a₂).1 :=
    (s₀.kernel.write_write s.obj.sock text [0xff] a₁ a₂).trans
      (s.kernel.write_write s.obj.sock [0] [0xff] a₀ a₂)
  have sent : s₂.sent =
      s.sent ++ (s.taken [0] a₀ ++ s.taken text a₁ ++ s.taken [0xff] a₂) := by
    have second : s₀.taken text a₁ = s.taken text a₁ := by
      rw [St.taken, St.taken, ← ret]
      rfl
    have third : s₁.taken [0xff] a₂ = s.taken [0xff] a₂ := by
      rw [St.taken, St.taken, ← last]
      rfl
    calc s₂.sent = s₁.sent ++ s₁.taken [0xff] a₂ := sent_write s₁ [0xff] a₂
      _ = s₀.sent ++ s₀.taken text a₁ ++ s₁.taken [0xff] a₂ :=
        congrArg (· ++ s₁.taken [0xff] a₂) (sent_write s₀ text a₁)
      _ = s.sent ++ s.taken [0] a₀ ++ s₀.taken text a₁ ++ s₁.taken [0xff] a₂ :=
        congrArg (· ++ s₀.taken text a₁ ++ s₁.taken [0xff] a₂) (sent_write s [0] a₀)
      _ = _ := by rw [second, third]; simp only [List.append_assoc]
  have call : jsSockWriteWsPacket s [ofBytes text] [a₀, a₁, a₂] =
      if (s₀.kernel.write s.obj.sock text a₁).1 ≠ some text.length then
        some (.error "switch_js_sock_send failed: %d %s.\n",
          (s.suspend.withKernel s₂.kernel).resume)
      else some (.done .void, (s.suspend.withKernel s₂.kernel).resume) := by
    simp only [jsSockWriteWsPacket, getStringBytes_ofBytes clean]
    rfl
  rw [call, ret]
  by_cases all : (s.kernel.write s.obj.sock text a₁).1 = some text.length
  · rw [if_neg (not_not.2 all)]
    exact ⟨_, _, rfl, sent, Or.inl ⟨all, rfl⟩⟩
  · rw [if_pos all]
    exact ⟨_, _, rfl, sent, Or.inr ⟨all, rfl⟩⟩

/-! ### The peer -/

theorem mem_of_mem_taken {s : St UInt8} {data : List UInt8} {a : Answer} {x : UInt8}
    (h : x ∈ s.taken data a) : x ∈ data :=
  List.mem_of_mem_take h

/-- Without the opening or the closing byte no frame is complete. -/
theorem noOtherPacket_of_missing {s : St UInt8} {text part : List UInt8} {a₀ a₂ : Answer}
    (bytes : ∀ x ∈ part, isNul x = false ∧ x ≠ 0xff)
    (missing : ¬ (s.Takes [0] a₀ ∧ s.Takes [0xff] a₂)) :
    NoOtherPacket text (s.taken [0] a₀ ++ part ++ s.taken [0xff] a₂) := by
  intro peer t answers text' reached stream running returned
  obtain ⟨g, z, p, e, rest, split, -, opening, -, closing, -⟩ :=
    framed_of_string stream reached.backed running returned
  have first : z ∈ s.taken [0] a₀ ++ part ++ s.taken [0xff] a₂ := by rw [split]; simp
  have last : e ∈ s.taken [0] a₀ ++ part ++ s.taken [0xff] a₂ := by rw [split]; simp
  simp only [List.mem_append] at first last
  rcases not_and_or.1 missing with lost | lost
  · rw [taken_singleton lost] at first
    rcases first with (none | inside) | behind
    · cases none
    · simp [(bytes z inside).1] at opening
    · rw [List.mem_singleton.1 (mem_of_mem_taken behind)] at opening
      exact absurd opening (by decide)
  · rw [taken_singleton lost] at last
    rcases last with (before | inside) | none
    · rw [List.mem_singleton.1 (mem_of_mem_taken before)] at closing
      exact absurd closing (by decide)
    · exact absurd closing (bytes e inside).2
    · cases none

/-- A peer of a closed frame gets its payload. -/
theorem exists_peer {p : List UInt8} (bytes : ∀ x ∈ p, isNul x = false ∧ x ≠ 0xff) :
    ∃ (peer t : St UInt8) (answers : List Answer), peer.Reachable ∧
      peer.Delivers (0 :: (p ++ [0xff])) ∧ answers.length ≤ (0 :: (p ++ [0xff])).length ∧
      jsSockReadWsPacket peer answers = some (.done (.string p), t) := by
  have stream : (St.opened 6 (0 :: (p ++ [0xff]))).Delivers (0 :: (p ++ [0xff])) :=
    ⟨_, rfl, by simp, rfl⟩
  have answered : NoFail (List.replicate (p.length + 2) (.upTo 1)) := fun a ha => by
    rw [List.eq_of_mem_replicate ha]
    exact nofun
  obtain ⟨t, value, -⟩ := readWsPacket_of_frame (g := []) (p := p) [] stream
    (fun x hx => absurd hx List.not_mem_nil) (by decide) (fun x hx => (bytes x hx).2) (by decide)
    le_rfl (by simp) answered
  rw [cut_of_not_isNul fun x hx => (bytes x hx).1] at value
  exact ⟨_, t, _, ⟨_, _, _, [], rfl⟩, stream, by simp, value⟩

/-- A closed frame is taken for its payload and nothing else. -/
theorem noOtherPacket_frame_iff {text p : List UInt8}
    (bytes : ∀ x ∈ p, isNul x = false ∧ x ≠ 0xff) :
    NoOtherPacket text ([0] ++ p ++ [0xff]) ↔ p = text := by
  constructor
  · intro honest
    obtain ⟨peer, t, answers, reached, stream, running, returned⟩ := exists_peer bytes
    exact honest peer t answers p reached stream running returned
  · rintro rfl peer t answers text' reached stream running returned
    obtain ⟨g, z, q, e, rest, split, garbage, opening, payload, closing, rfl⟩ :=
      framed_of_string stream reached.backed running returned
    obtain ⟨rfl, -, rest_eq⟩ := Block.split_unique isNul (l := []) (by simp) (by decide)
      garbage opening split
    obtain ⟨rfl, -⟩ := Block.split_unique (· == (0xff : UInt8))
      (fun x hx => by simpa using (bytes x hx).2) (by decide)
      (fun x hx => by simpa using payload x hx) (by simpa using closing) rest_eq
    exact cut_of_not_isNul fun x hx => (bytes x hx).1

/-- The frame bytes stand around a payload that was taken whole if and only if both were taken. -/
theorem packet_iff {s : St UInt8} (text : List UInt8) {a₀ a₂ : Answer} :
    s.taken [0] a₀ ++ text ++ s.taken [0xff] a₂ = 0 :: (text ++ [0xff]) ↔
      s.Takes [0] a₀ ∧ s.Takes [0xff] a₂ := by
  constructor
  · intro whole
    have count := congrArg List.length whole
    simp only [List.length_append, List.length_cons, List.length_nil] at count
    have first : (s.taken [0] a₀).length ≤ 1 := List.length_take_le' _ _
    have last : (s.taken [0xff] a₂).length ≤ 1 := List.length_take_le' _ _
    constructor <;> by_contra lost
    · rw [taken_singleton lost, List.length_nil] at count
      omega
    · rw [taken_singleton lost, List.length_nil] at count
      omega
  · rintro ⟨first, last⟩
    rw [taken_of_takes first, taken_of_takes last]
    rfl

/-- A call is never taken for another packet if and only if the payload is taken whole exactly when
the opening and the closing byte are taken, or the payload is empty and its write fails. -/
theorem writes_honestly_iff {s : St UInt8} {text : List UInt8}
    (bytes : ∀ x ∈ text, isNul x = false ∧ x ≠ 0xff) (a₀ a₁ a₂ : Answer) :
    WritesHonestly s text a₀ a₁ a₂ ↔
      (s.Takes text a₁ ↔ s.Takes [0] a₀ ∧ s.Takes [0xff] a₂) ∨
        (text = [] ∧ ¬ s.Takes text a₁) := by
  obtain ⟨r, s', call, sent, value⟩ := writeWsPacket_sent s (fun x hx => (bytes x hx).1) a₀ a₁ a₂
  have outcome : WritesHonestly s text a₀ a₁ a₂ ↔
      Honest text (s.taken [0] a₀ ++ s.taken text a₁ ++ s.taken [0xff] a₂) r := by
    constructor
    · rintro ⟨r', t, reached, called, put, honest⟩
      rw [call, Option.some.injEq, Prod.mk.injEq] at called
      rw [← called.2, sent] at put
      rwa [called.1, List.append_cancel_left put]
    · exact fun honest => ⟨r, s', _, call, sent, honest⟩
  have part : ∀ x ∈ s.taken text a₁, isNul x = false ∧ x ≠ 0xff :=
    fun x hx => bytes x (mem_of_mem_taken hx)
  rw [outcome]
  rcases value with ⟨whole, rfl⟩ | ⟨short, rfl⟩
  · rw [taken_of_takes whole]
    exact (packet_iff text).trans ⟨fun framed => Or.inl (iff_of_true whole framed),
      fun h => (h.resolve_right fun empty => empty.2 whole).1 whole⟩
  · by_cases framed : s.Takes [0] a₀ ∧ s.Takes [0xff] a₂
    · rw [taken_of_takes framed.1, taken_of_takes framed.2]
      refine (noOtherPacket_frame_iff part).trans ⟨fun same => ?_, fun h => ?_⟩
      · refine Or.inr ⟨by_contra fun some_ => ?_, short⟩
        exact absurd (congrArg List.length same) (length_taken_lt short some_).ne
      · rcases h with all | ⟨rfl, -⟩
        · exact absurd (all.2 framed) short
        · exact List.take_nil
    · exact iff_of_true (noOtherPacket_of_missing part framed)
        (Or.inl (iff_of_false short framed))

/-- The packet of "hi" with complete writes. -/
theorem writes_honestly_iff_hi :
    WritesHonestly (.opened 5 []) [104, 105] (.upTo 1) (.upTo 2) (.upTo 1) := by
  refine (writes_honestly_iff (by decide +kernel) _ _ _).2 (Or.inl (iff_of_true ?_ ⟨?_, ?_⟩))
  · unfold St.Takes
    decide +kernel
  · unfold St.Takes
    decide +kernel
  · unfold St.Takes
    decide +kernel

/-- The payload of "hi" is cut behind its first byte: the call raises an error, but it has closed
the frame, and the peer gets the packet "h". -/
theorem writes_honestly_not_cut :
    ¬ WritesHonestly (.opened 5 []) [104, 105] (.upTo 1) (.upTo 1) (.upTo 1) := by
  rintro ⟨r, s', reached, call, put, honest⟩
  have value : (jsSockWriteWsPacket (.opened 5 []) [ofBytes [104, 105]]
      [.upTo 1, .upTo 1, .upTo 1]).map (fun x => (x.1, x.2.sent)) =
      some (.error "switch_js_sock_send failed: %d %s.\n", [0, 104, 255]) := by decide +kernel
  have none_before : (St.opened 5 []).sent = [] := rfl
  rw [call, Option.map_some, Option.some.injEq, Prod.mk.injEq, put, none_before,
    List.nil_append] at value
  obtain ⟨rfl, rfl⟩ := value
  have packet : ((jsSockReadWsPacket (.opened 6 [0, 104, 255])
      (List.replicate 3 (.upTo 1))).map fun x => x.1) = some (.done (.string [104])) := by
    decide +kernel
  obtain ⟨⟨r, t⟩, returned, rfl⟩ := Option.map_eq_some_iff.1 packet
  have same := honest _ t _ [104] ⟨_, _, _, [], rfl⟩ ⟨_, rfl, by simp, rfl⟩ le_rfl returned
  exact absurd same (by decide)

end Sysjs
