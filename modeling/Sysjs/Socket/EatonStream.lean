import Sysjs.Socket.Methods
import Sysjs.Socket.PacketStream

/-!
# The packets of the serial protocol

`readEatonPacket` on every kind of stream: with a whole packet at its front, and one that ends
before.  Behind the header byte each stage makes one `read`, and the counts these return are not
looked at.
-/

set_option autoImplicit false

namespace Sysjs

variable {α : Type*} [Octet α]

/-- What stands at the front of a stream, behind bytes that are no header byte. -/
inductive EatonFront (α : Type*) [Octet α] where
  /-- Nothing: the stream ends without a header byte. -/
  | silent (g : List α) (garbage : ∀ x ∈ g, Octet.val x ≠ 0x5a)
  /-- The stream ends behind the header byte. -/
  | headed (g : List α) (h : α) (garbage : ∀ x ∈ g, Octet.val x ≠ 0x5a)
      (header : Octet.val h = 0x5a)
  /-- A length byte of 0: it does not even count itself, and no frame has it. -/
  | empty (g : List α) (h len : α) (rest : List α) (garbage : ∀ x ∈ g, Octet.val x ≠ 0x5a)
      (header : Octet.val h = 0x5a) (zero : (Octet.val len).toNat = 0)
  /-- The stream ends before the trailer, for which the length byte counts one; or the length byte
  is too large. -/
  | cut (g : List α) (h len : α) (d : List α) (garbage : ∀ x ∈ g, Octet.val x ≠ 0x5a)
      (header : Octet.val h = 0x5a)
      (short : d.length < (Octet.val len).toNat ∨ 32 < (Octet.val len).toNat)
  /-- A packet with its trailer `t`. -/
  | packet (g : List α) (h len : α) (d : List α) (t : α) (rest : List α)
      (garbage : ∀ x ∈ g, Octet.val x ≠ 0x5a) (header : Octet.val h = 0x5a)
      (length : (Octet.val len).toNat = d.length + 1) (small : (Octet.val len).toNat ≤ 32)

namespace EatonFront

/-- The bytes before the header byte. -/
def skipped : EatonFront α → List α
  | .silent g _ => g
  | .headed g _ _ _ => g
  | .empty g _ _ _ _ _ _ => g
  | .cut g _ _ _ _ _ _ => g
  | .packet g _ _ _ _ _ _ _ _ _ => g

/-- The whole stream. -/
def bytes : EatonFront α → List α
  | .silent g _ => g
  | .headed g h _ _ => g ++ [h]
  | .empty g h len rest _ _ _ => g ++ h :: len :: rest
  | .cut g h len d _ _ _ => g ++ h :: len :: d
  | .packet g h len d t rest _ _ _ _ => g ++ h :: len :: (d ++ t :: rest)

/-- What a call should do: return a packet with a proper trailer and take just that, and return no
packet otherwise; a wrong trailer is an error. -/
def Judged (f : EatonFront α) (call : Option (Ret α × St α)) : Prop :=
  match f with
  | .packet _ _ len d t rest _ _ _ _ =>
    (Octet.val t = 0xa5 → ∃ s', call = some (.done (.array (len :: d)), s') ∧ s'.Delivers rest) ∧
      (Octet.val t ≠ 0xa5 → ∃ format s', call = some (.error format, s'))
  | _ => ∀ elems s', call ≠ some (.done (.array elems), s')

/-- When a call does it, with `stack` in its local arrays and at most `max n 1` bytes from the
`read` of the payload: the payload comes whole; or, without a proper trailer, what is taken for the
trailer is none either, be it a payload byte or, at the end of the stream, the old content of the
local array; or the length byte is 0 or too large. -/
def Clear (f : EatonFront α) (stack : ℕ → ℤ → α) (n : ℕ) : Prop :=
  match f with
  | .silent g _ => (Octet.val (g.getLast?.getD (stack 0 0))).toNat = 0 ∨
      32 < (Octet.val (g.getLast?.getD (stack 0 0))).toNat ∨ Octet.val (stack 1 0) ≠ 0xa5
  | .headed _ _ _ _ => True
  | .empty _ _ _ _ _ _ _ => True
  | .cut _ _ len d _ _ _ => 32 < (Octet.val len).toNat ∨
      Octet.val ((d.drop (max n 1)).head?.getD (stack 1 0)) ≠ 0xa5
  | .packet _ _ _ d t _ _ _ _ _ =>
    if Octet.val t = 0xa5 then d.length ≤ max n 1
    else Octet.val ((d.drop (max n 1)).head?.getD t) ≠ 0xa5

/-- Every stream has one of these fronts. -/
theorem exists_bytes_eq (bytes : List α) : ∃ f : EatonFront α, f.bytes = bytes := by
  by_cases synced : ∃ x ∈ bytes, (Octet.val x == 0x5a) = true
  · obtain ⟨g, h, behind, rfl, garbage, header⟩ :=
      Block.split_at_first (fun x => Octet.val x == 0x5a) synced
    have garbage : ∀ x ∈ g, Octet.val x ≠ 0x5a := fun x hx => by simpa using garbage x hx
    have header : Octet.val h = 0x5a := by simpa using header
    cases behind with
    | nil => exact ⟨.headed g h garbage header, rfl⟩
    | cons len d =>
      by_cases zero : (Octet.val len).toNat = 0
      · exact ⟨.empty g h len d garbage header zero, rfl⟩
      by_cases short : d.length < (Octet.val len).toNat ∨ 32 < (Octet.val len).toNat
      · exact ⟨.cut g h len d garbage header short, rfl⟩
      have inside : (Octet.val len).toNat - 1 < d.length := by omega
      refine ⟨.packet g h len (d.take ((Octet.val len).toNat - 1)) d[(Octet.val len).toNat - 1]
        (d.drop ((Octet.val len).toNat - 1 + 1)) garbage header ?_ (by omega), ?_⟩
      · rw [List.length_take]
        omega
      · rw [EatonFront.bytes, List.getElem_cons_drop, List.take_append_drop]
  · simp only [not_exists, not_and, beq_iff_eq] at synced
    exact ⟨.silent bytes synced, rfl⟩

end EatonFront

/-- Behind the trailer test there is no packet if and only if the trailer is none. -/
theorem not_array_iff {t : α} {format : String} {l : List α} {u v : St α} :
    (∀ elems s', (if Octet.val t ≠ 0xa5 then some (Ret.error format, u)
      else some (.done (.array l), v)) ≠ some (.done (.array elems), s')) ↔ Octet.val t ≠ 0xa5 := by
  by_cases trailer : Octet.val t = 0xa5
  · simp [trailer]
  · simp [trailer]

variable {s : St α} {as more : List Answer} {a₁ a₃ : Answer} {n : ℕ}

/-- At the end of the stream without a header byte. -/
theorem silent_iff (stack : ℕ → ℤ → α) {g : List α} (garbage : ∀ x ∈ g, Octet.val x ≠ 0x5a)
    (stream : s.Delivers g) (count : as.length = g.length + 1) (answered : NoFail as)
    (first : a₁ ≠ .fail) (third : a₃ ≠ .fail) :
    (∀ elems s', jsSockReadEatonPacket s stack (as ++ a₁ :: .upTo n :: a₃ :: more) ≠
      some (.done (.array elems), s')) ↔ (Octet.val (g.getLast?.getD (stack 0 0))).toNat = 0 ∨
        32 < (Octet.val (g.getLast?.getD (stack 0 0))).toNat ∨ Octet.val (stack 1 0) ≠ 0xa5 := by
  obtain ⟨k, buf, synced, after, old⟩ := eaton_unsynced (s := s.suspend) (Block.malloc 32 stack)
    (a₁ :: .upTo n :: a₃ :: more) (stream.congr rfl rfl) garbage count answered
  have length : ([] : List α).head?.getD (buf.cells 0) = g.getLast?.getD (stack 0 0) := old
  simp only [jsSockReadEatonPacket, synced]
  by_cases zero : (Octet.val (g.getLast?.getD (stack 0 0))).toNat = 0
  · obtain ⟨k', frame⟩ := eatonFrame_zero (Block.malloc 1 fun k => stack (k + 1)) (.upTo n)
      (a₃ :: more) after first (by rwa [length])
    rw [frame]
    exact iff_of_true (by simp) (Or.inl zero)
  rw [or_iff_right zero]
  by_cases large : 32 < (Octet.val (g.getLast?.getD (stack 0 0))).toNat
  · obtain ⟨k', frame⟩ := eatonFrame_large (Block.malloc 1 fun k => stack (k + 1))
      (.upTo n :: a₃ :: more) after first (by rwa [length])
    rw [frame]
    exact iff_of_true (by simp) (Or.inl large)
  · have part (c : ℕ) : min (max n 1) (min c ([] : List α).length) = 0 := by simp
    have last : (([] : List α).drop 0).head?.getD
        ((Block.malloc 1 fun k => stack (k + 1)).cells 0) = stack 1 0 := rfl
    obtain ⟨k', elems, frame, -⟩ := eatonFrame_small more after first third length rfl zero
      (by omega) (part _) last
    rw [frame, not_array_iff, or_iff_right large]

/-- At the end of the stream behind the header byte: its value is taken for the length byte. -/
theorem headed_error (stack : ℕ → ℤ → α) {g : List α} {h : α}
    (garbage : ∀ x ∈ g, Octet.val x ≠ 0x5a) (header : Octet.val h = 0x5a)
    (stream : s.Delivers (g ++ [h])) (count : as.length = g.length + 1) (answered : NoFail as)
    (first : a₁ ≠ .fail) :
    ∃ s', jsSockReadEatonPacket s stack (as ++ a₁ :: .upTo n :: a₃ :: more) =
      some (.error "buffer too small - need %d bytes!", s') := by
  obtain ⟨k, buf, synced, after, old⟩ := eaton_sync (s := s.suspend) (Block.malloc 32 stack)
    (a₁ :: .upTo n :: a₃ :: more) (stream.congr rfl rfl) garbage header count answered
  have length : ([] : List α).head?.getD (buf.cells 0) = h := old
  obtain ⟨k', frame⟩ := eatonFrame_large (Block.malloc 1 fun k => stack (k + 1))
    (.upTo n :: a₃ :: more) after first (by rw [length, header]; decide)
  refine ⟨(s.suspend.withKernel k).withKernel k', ?_⟩
  simp only [jsSockReadEatonPacket, synced, frame]

/-- With a length byte of 0: the `read` of the payload is refused. -/
theorem empty_error (stack : ℕ → ℤ → α) {g rest : List α} {h len : α}
    (garbage : ∀ x ∈ g, Octet.val x ≠ 0x5a) (header : Octet.val h = 0x5a)
    (zero : (Octet.val len).toNat = 0) (stream : s.Delivers (g ++ h :: len :: rest))
    (count : as.length = g.length + 1) (answered : NoFail as) (first : a₁ ≠ .fail) :
    ∃ s', jsSockReadEatonPacket s stack (as ++ a₁ :: .upTo n :: a₃ :: more) =
      some (.error "read failed: %s", s') := by
  obtain ⟨k, buf, synced, after, -⟩ := eaton_sync (s := s.suspend) (Block.malloc 32 stack)
    (a₁ :: .upTo n :: a₃ :: more) (stream.congr rfl rfl) garbage header count answered
  have length : (Octet.val ((len :: rest).head?.getD (buf.cells 0))).toNat = 0 := zero
  obtain ⟨k', frame⟩ := eatonFrame_zero (Block.malloc 1 fun k => stack (k + 1)) (.upTo n)
    (a₃ :: more) after first length
  refine ⟨(s.suspend.withKernel k).withKernel k', ?_⟩
  simp only [jsSockReadEatonPacket, synced, frame]

omit [Octet α] in
theorem drop_min_length (l : List α) (n : ℕ) : l.drop (min n l.length) = l.drop n := by
  rcases Nat.le_total n l.length with inside | behind
  · rw [Nat.min_eq_left inside]
  · rw [Nat.min_eq_right behind, List.drop_length, List.drop_eq_nil_of_le behind]

/-- At the end of the stream before the trailer. -/
theorem cut_iff (stack : ℕ → ℤ → α) {g d : List α} {h len : α}
    (garbage : ∀ x ∈ g, Octet.val x ≠ 0x5a) (header : Octet.val h = 0x5a)
    (short : d.length < (Octet.val len).toNat ∨ 32 < (Octet.val len).toNat)
    (stream : s.Delivers (g ++ h :: len :: d))
    (count : as.length = g.length + 1) (answered : NoFail as) (first : a₁ ≠ .fail)
    (third : a₃ ≠ .fail) :
    (∀ elems s', jsSockReadEatonPacket s stack (as ++ a₁ :: .upTo n :: a₃ :: more) ≠
      some (.done (.array elems), s')) ↔ 32 < (Octet.val len).toNat ∨
        Octet.val ((d.drop (max n 1)).head?.getD (stack 1 0)) ≠ 0xa5 := by
  obtain ⟨k, buf, synced, after, -⟩ := eaton_sync (s := s.suspend) (Block.malloc 32 stack)
    (a₁ :: .upTo n :: a₃ :: more) (stream.congr rfl rfl) garbage header count answered
  have length : (len :: d).head?.getD (buf.cells 0) = len := rfl
  simp only [jsSockReadEatonPacket, synced]
  by_cases large : 32 < (Octet.val len).toNat
  · obtain ⟨k', frame⟩ := eatonFrame_large (Block.malloc 1 fun k => stack (k + 1))
      (.upTo n :: a₃ :: more) after first (by rwa [length])
    rw [frame]
    exact iff_of_true (by simp) (Or.inl large)
  · have short := short.resolve_right large
    have ask : sizeT (((Octet.val len).toNat : ℤ) - 1) = (Octet.val len).toNat - 1 :=
      sizeT_payload (by omega) (by omega)
    have part : min (max n 1) (min (sizeT (((Octet.val len).toNat : ℤ) - 1)) d.length) =
        min (max n 1) d.length := by
      rw [ask]
      omega
    have last : (d.drop (min (max n 1) d.length)).head?.getD
        ((Block.malloc 1 fun k => stack (k + 1)).cells 0) =
        (d.drop (max n 1)).head?.getD (stack 1 0) := by
      rw [drop_min_length]
      rfl
    obtain ⟨k', elems, frame, -⟩ := eatonFrame_small more after first third length rfl (by omega)
      (by omega) part last
    rw [frame, not_array_iff, or_iff_right large]

/-- With a whole packet on the stream. -/
theorem packet_read (stack : ℕ → ℤ → α) (n : ℕ) (more : List Answer) {g d rest : List α}
    {h len t : α}
    (garbage : ∀ x ∈ g, Octet.val x ≠ 0x5a) (header : Octet.val h = 0x5a)
    (length : (Octet.val len).toNat = d.length + 1) (small : (Octet.val len).toNat ≤ 32)
    (stream : s.Delivers (g ++ h :: len :: (d ++ t :: rest)))
    (count : as.length = g.length + 1) (answered : NoFail as) (first : a₁ ≠ .fail)
    (third : a₃ ≠ .fail) :
    ∃ s' elems, jsSockReadEatonPacket s stack (as ++ a₁ :: .upTo n :: a₃ :: more) =
      (if Octet.val ((d.drop (max n 1)).head?.getD t) ≠ 0xa5 then
          some (.error "illegal trailer byte: %d 0x%02x", s')
        else some (.done (.array elems), s'.resume)) ∧
      s'.Delivers ((d ++ t :: rest).drop (min (max n 1) d.length + 1)) ∧
      (d.length ≤ max n 1 → elems = len :: d) := by
  obtain ⟨k, buf, synced, after, -⟩ := eaton_sync (s := s.suspend) (Block.malloc 32 stack)
    (a₁ :: .upTo n :: a₃ :: more) (stream.congr rfl rfl) garbage header count answered
  have lengthByte : (len :: (d ++ t :: rest)).head?.getD (buf.cells 0) = len := rfl
  have behind : (len :: (d ++ t :: rest)).tail = d ++ t :: rest := rfl
  have ask : sizeT (((Octet.val len).toNat : ℤ) - 1) = d.length := by
    rw [length, sizeT_payload (by omega) (by omega), Nat.add_sub_cancel]
  have part : min (max n 1) (min (sizeT (((Octet.val len).toNat : ℤ) - 1))
      (d ++ t :: rest).length) = min (max n 1) d.length := by
    rw [ask, List.length_append]
    omega
  have last (b : Block α) : ((d ++ t :: rest).drop (min (max n 1) d.length)).head?.getD
      (b.cells 0) = (d.drop (max n 1)).head?.getD t := by
    rw [List.drop_append_of_le_length (Nat.min_le_right _ _), drop_min_length]
    cases d.drop (max n 1) <;> rfl
  obtain ⟨k', elems, frame, later, array⟩ := eatonFrame_small more after first third lengthByte
    behind (by omega) small part (last (Block.malloc 1 fun k => stack (k + 1)))
  refine ⟨(s.suspend.withKernel k).withKernel k', elems, ?_, later, fun whole => ?_⟩
  · simp only [jsSockReadEatonPacket, synced, frame]
  · rw [Nat.min_eq_right whole, List.take_left] at array
    exact array length.symm

/-- A packet with a proper trailer is returned, and just that taken, when its payload comes in one
`read`. -/
theorem proper_iff (stack : ℕ → ℤ → α) {g d rest : List α} {h len t : α}
    (garbage : ∀ x ∈ g, Octet.val x ≠ 0x5a) (header : Octet.val h = 0x5a)
    (length : (Octet.val len).toNat = d.length + 1) (small : (Octet.val len).toNat ≤ 32)
    (stream : s.Delivers (g ++ h :: len :: (d ++ t :: rest)))
    (count : as.length = g.length + 1) (answered : NoFail as) (first : a₁ ≠ .fail)
    (third : a₃ ≠ .fail) (trailer : Octet.val t = 0xa5) :
    (∃ s', jsSockReadEatonPacket s stack (as ++ a₁ :: .upTo n :: a₃ :: more) =
      some (.done (.array (len :: d)), s') ∧ s'.Delivers rest) ↔ d.length ≤ max n 1 := by
  obtain ⟨s', elems, value, left, array⟩ := packet_read stack n more garbage header length small
    stream count answered first third
  rw [value]
  constructor
  · rintro ⟨u, called, after⟩
    split at called
    · cases called
    · rw [Option.some.injEq, Prod.mk.injEq] at called
      have same := left.pending.symm.trans
        ((after.congr (t := s') (by rw [← called.2]; rfl) (by rw [← called.2]; rfl)).pending)
      have lengths := congrArg List.length same
      simp only [List.length_drop, List.length_append, List.length_cons] at lengths
      omega
  · intro whole
    have none_left : d.drop (max n 1) = [] := List.drop_eq_nil_of_le whole
    refine ⟨s'.resume, ?_, ?_⟩
    · simp [none_left, trailer, array whole]
    · rw [Nat.min_eq_right whole] at left
      have rest_left : (d ++ t :: rest).drop (d.length + 1) = rest := by simp
      exact (rest_left ▸ left).congr rfl rfl

/-- A packet without one is an error when the byte in the trailer's place is no trailer either. -/
theorem broken_iff (stack : ℕ → ℤ → α) {g d rest : List α} {h len t : α}
    (garbage : ∀ x ∈ g, Octet.val x ≠ 0x5a) (header : Octet.val h = 0x5a)
    (length : (Octet.val len).toNat = d.length + 1) (small : (Octet.val len).toNat ≤ 32)
    (stream : s.Delivers (g ++ h :: len :: (d ++ t :: rest)))
    (count : as.length = g.length + 1) (answered : NoFail as) (first : a₁ ≠ .fail)
    (third : a₃ ≠ .fail) :
    (∃ format s', jsSockReadEatonPacket s stack (as ++ a₁ :: .upTo n :: a₃ :: more) =
      some (.error format, s')) ↔ Octet.val ((d.drop (max n 1)).head?.getD t) ≠ 0xa5 := by
  obtain ⟨s', elems, value, -⟩ := packet_read stack n more garbage header length small
    stream count answered first third
  rw [value]
  constructor
  · rintro ⟨format, u, called⟩ taken
    rw [if_neg (not_not.2 taken)] at called
    cases called
  · intro refused
    exact ⟨_, _, if_pos refused⟩

/-- `readEatonPacket` returns the packet at the front of the stream, however the reads split it, and
nothing but errors in place of a broken or incomplete one, if and only if the payload of a proper
packet comes in one `read`, and otherwise the length byte is 0 or too large or the byte in the
trailer's place is not `a5`. -/
theorem readEatonPacket_judged_iff (f : EatonFront α) (stack : ℕ → ℤ → α) (n : ℕ)
    (more : List Answer) (stream : s.Delivers f.bytes)
    (count : as.length = f.skipped.length + 1) (answered : NoFail as) (first : a₁ ≠ .fail)
    (third : a₃ ≠ .fail) :
    f.Judged (jsSockReadEatonPacket s stack (as ++ a₁ :: .upTo n :: a₃ :: more)) ↔
      f.Clear stack n := by
  cases f with
  | silent g garbage => exact silent_iff stack garbage stream count answered first third
  | headed g h garbage header =>
    obtain ⟨s', value⟩ := headed_error stack garbage header stream count answered first
    refine iff_of_true (fun elems t called => ?_) trivial
    rw [value] at called
    cases called
  | empty g h len rest garbage header zero =>
    obtain ⟨s', value⟩ := empty_error stack garbage header zero stream count answered first
    refine iff_of_true (fun elems t called => ?_) trivial
    rw [value] at called
    cases called
  | cut g h len d garbage header short =>
    exact cut_iff stack garbage header short stream count answered first third
  | packet g h len d t rest garbage header length small =>
    by_cases trailer : Octet.val t = 0xa5
    · simp only [EatonFront.Judged, EatonFront.Clear, trailer, if_true, forall_const,
        ne_eq, not_true_eq_false, false_implies, and_true]
      exact proper_iff stack garbage header length small stream count answered first third trailer
    · simp only [EatonFront.Judged, EatonFront.Clear, trailer, if_false, false_implies,
        true_and, ne_eq, not_false_eq_true, forall_const]
      exact broken_iff stack garbage header length small stream count answered first third

/-- A packet with two bytes of payload. -/
def EatonFront.two : EatonFront UInt8 :=
  .packet [] 0x5a 3 [1, 2] 0xa5 [] (by simp) (by decide +kernel) (by decide +kernel)
    (by decide +kernel)

/-- The payload comes in one `read`. -/
theorem readEatonPacket_judged_iff_whole :
    EatonFront.two.Judged (jsSockReadEatonPacket (.opened 5 [0x5a, 3, 1, 2, 0xa5])
      (fun _ _ => 0) ([.upTo 1] ++ [.upTo 1, .upTo 2, .upTo 1])) :=
  (readEatonPacket_judged_iff _ _ 2 [] ⟨_, rfl, by decide, rfl⟩ rfl (by unfold NoFail; decide)
    (by decide) (by decide)).2 (by simp [EatonFront.two, EatonFront.Clear])

/-- The payload comes in two pieces: its second byte is taken for the trailer. -/
theorem readEatonPacket_judged_not_split :
    ¬ EatonFront.two.Judged (jsSockReadEatonPacket (.opened 5 [0x5a, 3, 1, 2, 0xa5])
      (fun _ _ => 0) ([.upTo 1] ++ [.upTo 1, .upTo 1, .upTo 1])) := by
  intro judged
  obtain ⟨s', value, -⟩ := judged.1 rfl
  have refused : (jsSockReadEatonPacket (.opened 5 [0x5a, 3, 1, 2, 0xa5]) (fun _ _ => 0)
      ([.upTo 1] ++ [.upTo 1, .upTo 1, .upTo 1])).map (fun x => x.1) =
      some (.error "illegal trailer byte: %d 0x%02x") := by decide +kernel
  rw [value] at refused
  cases refused

end Sysjs
