import Sysjs.Foundation.Access
import Sysjs.Socket.Methods
import Sysjs.Socket.PacketStream

/-!
# The packet buffer of the serial protocol

What `readEatonPacket` does with `packetbuf`: the ranges it offers to `read`, and the indices it
reads when it builds the result.
-/

set_option autoImplicit false

namespace Sysjs

open Feed

variable {α : Type*}

theorem read_fail (k : Kernel α) (fd : ℤ) (count : ℕ) : k.read fd count .fail = (none, k) := by
  unfold Kernel.read
  split
  · next wrong => cases wrong
  · rfl

/-- A `read` into the buffer; without an answer it is still waiting. -/
def readAccess (s : St α) (lo : ℤ) (count : ℕ) : List Answer → Access
  | [] => .fill lo count 0
  | a :: _ => .fill lo count ((s.kernel.read s.obj.sock count a).1.getD []).length

/-- It fills no more than it offers. -/
theorem readAccess_eq (s : St α) (lo : ℤ) (count : ℕ) (answers : List Answer) :
    ∃ n ≤ count, readAccess s lo count answers = .fill lo count n := by
  cases answers with
  | nil => exact ⟨0, Nat.zero_le count, rfl⟩
  | cons a rest =>
    refine ⟨_, ?_, rfl⟩
    rcases got : s.kernel.read s.obj.sock count a with ⟨_ | data, k⟩
    · exact Nat.zero_le count
    · obtain ⟨d, rest, -, -, bound, -, -⟩ := Kernel.read_some got
      exact bound

variable [Octet α]

/-- The accesses to `packetbuf` of the wait for the header byte. -/
def eatonSyncAccesses : St α × Block α → List Answer → List Access
  | l, [] => [readAccess l.1 0 1 []]
  | l, a :: rest => readAccess l.1 0 1 [a] :: match eatonBody l a with
    | .inl _ => []
    | .inr l => eatonSyncAccesses l rest

/-- Those of the reads of the payload and the trailer, and of the loop that builds the array of
`packetbuf[0]` elements. -/
def eatonPayloadAccesses (s : St α) (packetbuf trailer : Block α) (answers : List Answer) :
    List Access :=
  let len := (Octet.val (packetbuf.cells 0)).toNat
  readAccess s 1 (sizeT (len - 1)) answers ::
    match readInto s packetbuf 1 (sizeT (len - 1)) answers with
    | some (true, buf, s, answers) => match readInto s trailer 0 1 answers with
      | some (true, trailer, _, _) =>
        if Octet.val (trailer.cells 0) ≠ 0xa5 then []
        else
          let len := (Octet.val (buf.cells 0)).toNat
          (0 :: List.range len).map fun i : ℕ => .index (i : ℤ)
      | _ => []
    | _ => []

/-- Those of all that is behind the header byte. -/
def eatonFrameAccesses (s : St α) (packetbuf trailer : Block α) (answers : List Answer) :
    List Access :=
  readAccess s 0 1 answers :: match readInto s packetbuf 0 1 answers with
    | some (true, buf, s, answers) =>
      if 32 < (Octet.val (buf.cells 0)).toNat then []
      else eatonPayloadAccesses s buf trailer answers
    | _ => []

/-- Those of `js_sock_read_eaton_packet`. -/
def eatonAccesses (s : St α) (stack : ℕ → ℤ → α) (answers : List Answer) : List Access :=
  eatonSyncAccesses (s.suspend, Block.malloc 32 stack) answers ++
    match feed eatonBody (s.suspend, Block.malloc 32 stack) answers with
    | some (.stopped s packetbuf, rest) =>
      eatonFrameAccesses s packetbuf (Block.malloc 1 fun k => stack (k + 1)) rest
    | _ => []

/-! ### The bytes and answers that a call gets -/

/-- The bytes before the header byte. -/
def eatonSkipped (p : List α) : List α := p.takeWhile fun x => Octet.val x ≠ 0x5a

/-- The bytes behind the header byte. -/
def eatonBytes (p : List α) : List α := p.drop ((eatonSkipped p).length + 1)

/-- The length byte: the one behind the header byte, or at the end of the stream what the first
cell holds then. -/
def eatonLength (p : List α) (stack : ℕ → ℤ → α) : ℕ :=
  (Octet.val ((eatonBytes p).head?.getD
    ((p.take ((eatonSkipped p).length + 1)).getLast?.getD (stack 0 0)))).toNat

/-- How many payload bytes come when the `read` of the payload gets at most `max n 1`. -/
def eatonPayload (p : List α) (stack : ℕ → ℤ → α) (n : ℕ) : ℕ :=
  min (max n 1) (min (eatonLength p stack - 1) (eatonBytes p).tail.length)

/-- The byte behind the payload, or at the end of the stream what the local array holds. -/
def eatonTrailer (p : List α) (stack : ℕ → ℤ → α) (n : ℕ) : α :=
  ((eatonBytes p).tail.drop (eatonPayload p stack n)).head?.getD (stack 1 0)

/-- The condition on a length byte of at most 32, with the answers behind that of its `read`: it is
not 0; and when what is taken for the trailer is one, the stream was not empty and the payload came
whole. -/
structure EatonFits (p : List α) (stack : ℕ → ℤ → α) (answers : List Answer) : Prop where
  length : eatonLength p stack ≠ 0
  payload : ∀ n a more, answers = .upTo n :: a :: more → a ≠ .fail →
    Octet.val (eatonTrailer p stack n) = 0xa5 →
    p ≠ [] ∧ eatonLength p stack = eatonPayload p stack n + 1

/-! ### The wait for the header byte -/

variable {s : St α} {p : List α}

theorem eaton_front {h : α} {rest : List α} (split : eatonSkipped p ++ h :: rest = p) :
    p.take ((eatonSkipped p).length + 1) = eatonSkipped p ++ [h] ∧ eatonBytes p = rest := by
  unfold eatonBytes
  generalize eatonSkipped p = g at split ⊢
  subst split
  exact ⟨List.take_length_add_append 1, List.drop_length_add_append 1⟩

/-- Behind the answers of the wait, the descriptor delivers what stands behind the header byte. -/
theorem eaton_waited (buf : Block α) {as : List Answer} (more : List Answer)
    (stream : s.Delivers p) (count : as.length = (eatonSkipped p).length + 1)
    (answered : NoFail as) :
    ∃ k buf', feed eatonBody (s, buf) (as ++ more) = some (.stopped (s.withKernel k) buf', more) ∧
      (s.withKernel k).Delivers (eatonBytes p) ∧
      buf'.cells 0 = (p.take ((eatonSkipped p).length + 1)).getLast?.getD (buf.cells 0) := by
  have garbage : ∀ x ∈ eatonSkipped p, Octet.val x ≠ 0x5a := fun x among => by
    simpa using List.mem_takeWhile_imp among
  have split : eatonSkipped p ++ p.dropWhile (fun x => Octet.val x ≠ 0x5a) = p :=
    List.takeWhile_append_dropWhile
  cases behind : p.dropWhile fun x => Octet.val x ≠ 0x5a with
  | nil =>
    rw [behind, List.append_nil] at split
    obtain ⟨k, buf', stopped, after, stale⟩ :=
      eaton_unsynced buf more (split.symm ▸ stream) garbage count answered
    refine ⟨k, buf', stopped, ?_, ?_⟩
    · rw [eatonBytes, List.drop_eq_nil_of_le (by rw [split]; omega)]
      exact after
    · rw [stale, List.take_of_length_le (by rw [split]; omega), split]
  | cons h rest =>
    have header : Octet.val h = 0x5a := by
      have first := List.head?_dropWhile_not (fun x => decide (Octet.val x ≠ 0x5a)) p
      rw [behind] at first
      simpa using first
    rw [behind] at split
    obtain ⟨k, buf', stopped, after, stale⟩ :=
      eaton_sync buf more (split.symm ▸ stream) garbage header count answered
    obtain ⟨front, bytes⟩ := eaton_front split
    exact ⟨k, buf', stopped, bytes ▸ after, by rw [stale, front, List.getLast?_concat]; rfl⟩

/-- The wait ends behind as many answers, none of them a failure. -/
theorem answers_of_stopped {t : St α} {buf buf' : Block α} {answers more : List Answer}
    (stream : s.Delivers p)
    (stopped : feed eatonBody (s, buf) answers = some (.stopped t buf', more)) :
    ∃ as, answers = as ++ more ∧ as.length = (eatonSkipped p).length + 1 ∧ NoFail as := by
  induction answers generalizing s p buf with
  | nil => simp [feed] at stopped
  | cons a rest ih =>
    cases a with
    | fail =>
      rw [feed_cons_inl rest (eatonBody_of_failed (read_fail _ _ _))] at stopped
      cases stopped
    | upTo n =>
      have answered : Answer.upTo n ≠ .fail := Answer.noConfusion
      cases p with
      | nil =>
        obtain ⟨k, got, -⟩ := stream.read_one answered
        rw [feed_cons_inl rest (eatonBody_of_ended got), Option.some.injEq, Prod.mk.injEq]
          at stopped
        obtain ⟨-, rfl⟩ := stopped
        exact ⟨[.upTo n], rfl, rfl, by simp [NoFail]⟩
      | cons x p =>
        obtain ⟨k, got, after⟩ := stream.read_byte answered
        by_cases header : Octet.val x = 0x5a
        · rw [feed_cons_inl rest (eatonBody_of_header got header), Option.some.injEq,
            Prod.mk.injEq] at stopped
          obtain ⟨-, rfl⟩ := stopped
          exact ⟨[.upTo n], rfl, by simp [eatonSkipped, header], by simp [NoFail]⟩
        · rw [feed_cons_inr rest (eatonBody_of_garbage got header)] at stopped
          obtain ⟨as, rfl, count, noFail⟩ := ih after stopped
          have skipped : eatonSkipped (x :: p) = x :: eatonSkipped p := by
            simp [eatonSkipped, header]
          exact ⟨.upTo n :: as, rfl, by rw [skipped, List.length_cons, count, List.length_cons],
            noFail.cons answered⟩

/-- The wait offers the first cell again and again. -/
theorem eatonSyncAccesses_fill {buf : Block α} {answers : List Answer} {x : Access}
    (among : x ∈ eatonSyncAccesses (s, buf) answers) : ∃ n ≤ 1, x = .fill 0 1 n := by
  induction answers generalizing s buf with
  | nil =>
    obtain rfl := List.mem_singleton.1 among
    exact readAccess_eq s 0 1 []
  | cons a rest ih =>
    rw [eatonSyncAccesses, List.mem_cons] at among
    rcases among with rfl | later
    · exact readAccess_eq s 0 1 [a]
    · cases body : eatonBody (s, buf) a with
      | inl e => simp [body] at later
      | inr l =>
        rw [body] at later
        exact ih later

/-- It fills the cell when the stream is not empty. -/
theorem eatonSyncAccesses_fills_iff {buf : Block α} {a : Answer} {answers : List Answer}
    (stream : s.Delivers p) (answered : a ≠ .fail) :
    (∃ x ∈ eatonSyncAccesses (s, buf) (a :: answers), x.Fills 0) ↔ p ≠ [] := by
  cases p with
  | nil =>
    obtain ⟨k, got, -⟩ := stream.read_one answered
    have body : eatonBody (s, buf) a = .inl (.stopped (s.withKernel k) (buf.touch 0 1)) :=
      eatonBody_of_ended got
    simp [eatonSyncAccesses, body, readAccess, got, Access.Fills]
  | cons x p =>
    obtain ⟨k, got, -⟩ := stream.read_byte answered
    refine iff_of_true ⟨readAccess s 0 1 [a], List.mem_cons_self, ?_⟩ (List.cons_ne_nil x p)
    simp [readAccess, got, Access.Fills]

/-! ### The reads behind the header byte -/

theorem eatonFrameAccesses_of_fail {buf trailer : Block α} {answers : List Answer}
    (failed : ∀ a more, answers = a :: more → a = .fail) :
    eatonFrameAccesses s buf trailer answers = [readAccess s 0 1 answers] := by
  cases answers with
  | nil => rfl
  | cons a more =>
    obtain rfl := failed a more rfl
    simp [eatonFrameAccesses, readInto, read_fail]

theorem eatonFrameAccesses_large {bytes : List α} {buf trailer : Block α} {a : Answer}
    (more : List Answer) (stream : s.Delivers bytes) (answered : a ≠ .fail)
    (large : 32 < (Octet.val (bytes.head?.getD (buf.cells 0))).toNat) :
    eatonFrameAccesses s buf trailer (a :: more) = [readAccess s 0 1 [a]] := by
  obtain ⟨k, got, -⟩ := stream.read_one answered
  simp only [eatonFrameAccesses, readInto, got, cells_blit_take_one, Block.touch_cells,
    if_pos large]
  rfl

/-- With a proper one the payload is read. -/
theorem eatonFrameAccesses_small {bytes : List α} {len : α} {buf : Block α} (trailer : Block α)
    {a : Answer} (more : List Answer) (stream : s.Delivers bytes) (answered : a ≠ .fail)
    (length : bytes.head?.getD (buf.cells 0) = len) (small : (Octet.val len).toNat ≤ 32) :
    ∃ k buf', (s.withKernel k).Delivers bytes.tail ∧ buf'.cells 0 = len ∧
      eatonFrameAccesses s buf trailer (a :: more) =
        readAccess s 0 1 [a] :: eatonPayloadAccesses (s.withKernel k) buf' trailer more := by
  obtain ⟨k, got, after⟩ := stream.read_one answered
  rw [List.drop_one] at after
  have found (c : ℤ) : ((buf.touch 0 c).blit 0 (bytes.take 1)).cells 0 = len := by
    rw [cells_blit_take_one, Block.touch_cells, length]
  refine ⟨k, _, after, found 1, ?_⟩
  simp only [eatonFrameAccesses, readInto, got, found, if_neg (not_lt.2 small)]
  rfl

/-- Unless a trailer comes, nothing else happens. -/
theorem eatonPayloadAccesses_of_rejected {body : List α} {len : α} {buf trailer : Block α}
    {answers : List Answer} (stream : s.Delivers body) (length : buf.cells 0 = len)
    (rejected : ∀ n b rest, answers = .upTo n :: b :: rest → b ≠ .fail →
      Octet.val ((body.drop (min (max n 1) (min (sizeT ((Octet.val len).toNat - 1))
        body.length))).head?.getD (trailer.cells 0)) ≠ 0xa5) :
    eatonPayloadAccesses s buf trailer answers =
      [readAccess s 1 (sizeT ((Octet.val len).toNat - 1)) answers] := by
  rcases answers with _ | ⟨_ | n, _ | ⟨b, rest⟩⟩
  · simp [eatonPayloadAccesses, readInto, length]
  · simp [eatonPayloadAccesses, readInto, length, read_fail]
  · simp [eatonPayloadAccesses, readInto, length, read_fail]
  · by_cases large : 2 ^ 63 ≤ sizeT ((Octet.val len).toNat - 1)
    · simp [eatonPayloadAccesses, readInto, length, Kernel.read_refused _ _ large]
    · obtain ⟨k, got, after⟩ := stream.read (not_le.1 large) n
      simp [eatonPayloadAccesses, readInto, length, got]
  · by_cases large : 2 ^ 63 ≤ sizeT ((Octet.val len).toNat - 1)
    · simp [eatonPayloadAccesses, readInto, length, Kernel.read_refused _ _ large]
    obtain ⟨k, got, after⟩ := stream.read (not_le.1 large) n
    by_cases failed : b = .fail
    · subst failed
      simp [eatonPayloadAccesses, readInto, length, got, read_fail]
    · obtain ⟨k', got', -⟩ := after.read_one failed
      have wrong := rejected n b rest rfl failed
      simp only [eatonPayloadAccesses, readInto, length, got, got', cells_blit_take_one,
        Block.touch_cells, if_pos wrong]

/-- With one, the array is built. -/
theorem eatonPayloadAccesses_of_accepted {body : List α} {len : α} {buf trailer : Block α}
    {b : Answer} {n m : ℕ} (rest : List Answer) (stream : s.Delivers body) (third : b ≠ .fail)
    (length : buf.cells 0 = len) (ask : sizeT ((Octet.val len).toNat - 1) < 2 ^ 63)
    (part : min (max n 1) (min (sizeT ((Octet.val len).toNat - 1)) body.length) = m)
    (accepted : Octet.val ((body.drop m).head?.getD (trailer.cells 0)) = 0xa5) :
    eatonPayloadAccesses s buf trailer (.upTo n :: b :: rest) =
      .fill 1 (sizeT ((Octet.val len).toNat - 1)) m ::
        (0 :: List.range (Octet.val len).toNat).map fun i : ℕ => .index (i : ℤ) := by
  obtain ⟨k, got, after⟩ := stream.read ask n
  rw [part] at got after
  obtain ⟨k', got', -⟩ := after.read_one third
  have kept (c : ℤ) : ((buf.touch 1 c).blit 1 (body.take m)).cells 0 = len := by
    rw [Block.blit_cells_before _ _ (by omega), Block.touch_cells, length]
  have stored : (body.take m).length = m := by
    rw [List.length_take]
    omega
  simp only [eatonPayloadAccesses, readInto, readAccess, length, got, got', cells_blit_take_one,
    Block.touch_cells, accepted, kept, Option.getD_some, stored]
  rfl

/-! ### When the accesses are sound -/

/-- A payload request fits the buffer unless the length byte is 0. -/
theorem inside_payload_iff {len : ℕ} (small : len ≤ 32) :
    Block.Inside 32 1 (sizeT (len - 1)) ↔ len ≠ 0 := by
  cases len with
  | zero => exact iff_of_false (by decide) (fun ne => ne rfl)
  | succ n =>
    have ask : sizeT (((n + 1 : ℕ) : ℤ) - 1) = n := by
      rw [sizeT_of_nonneg (by omega) (by omega)]
      omega
    rw [ask]
    exact iff_of_true (Block.inside_of_le (by omega) (by omega)) (Nat.succ_ne_zero n)

/-- Accesses to the first cell, as they stand before the payload is read. -/
def FirstCell (before : List Access) : Prop := ∀ x ∈ before, ∃ n ≤ 1, x = .fill 0 1 n

theorem FirstCell.sound {before : List Access} (first : FirstCell before) (pre : List Access) :
    Access.Sound 32 pre before := by
  have fills : ∀ x ∈ before, ∃ lo count stored, x = Access.fill lo count stored := by
    intro x among
    obtain ⟨n, -, rfl⟩ := first x among
    exact ⟨0, 1, n, rfl⟩
  rw [Access.sound_fills 32 pre fills]
  intro x among
  obtain ⟨n, -, rfl⟩ := first x among
  exact Block.inside_of_le (by omega) (by omega)

/-- The array of `len` elements is built of cells filled before exactly when the first cell was and
the payload came whole. -/
theorem sound_array_iff {before : List Access} (first : FirstCell before) {len m : ℕ} (c : ℕ)
    (low : len ≠ 0) (small : len ≤ 32) (part : m ≤ len - 1) :
    Access.Sound 32 (before ++ [.fill 1 c m])
        ((0 :: List.range len).map fun i : ℕ => .index (i : ℤ)) ↔
      (∃ x ∈ before, x.Fills 0) ∧ len = m + 1 := by
  rw [Access.sound_indices]
  constructor
  · intro all
    constructor
    · obtain ⟨-, x, among, fills⟩ := all 0 List.mem_cons_self
      rcases List.mem_append.1 among with among | among
      · exact ⟨x, among, fills⟩
      · obtain rfl := List.mem_singleton.1 among
        exact absurd fills.1 (by decide)
    · by_contra short
      obtain ⟨-, x, among, fills⟩ := all (m + 1) (by simp; omega)
      rcases List.mem_append.1 among with among | among
      · obtain ⟨n, one, rfl⟩ := first x among
        have := fills.2
        omega
      · obtain rfl := List.mem_singleton.1 among
        have := fills.2
        omega
  · rintro ⟨⟨x, among, fills⟩, whole⟩ i listed
    have bound : i < len := by
      rcases List.mem_cons.1 listed with rfl | listed
      · omega
      · exact List.mem_range.1 listed
    refine ⟨Block.inside_of_le (by omega) (by omega), ?_⟩
    by_cases front : i = 0
    · subst front
      exact ⟨x, List.mem_append_left _ among, fills⟩
    · exact ⟨_, List.mem_append_right _ List.mem_cons_self, by omega, by omega⟩

omit [Octet α] in
theorem sound_readAccess_iff (before : List Access) {len : ℕ} (small : len ≤ 32)
    (answers : List Answer) :
    Access.Sound 32 before [readAccess s 1 (sizeT (len - 1)) answers] ↔ len ≠ 0 := by
  obtain ⟨n, -, offer⟩ := readAccess_eq s 1 (sizeT (len - 1)) answers
  rw [offer, ← inside_payload_iff small]
  exact and_iff_left trivial

theorem sizeT_eatonLength {stack : ℕ → ℤ → α} (zero : eatonLength p stack ≠ 0)
    (small : eatonLength p stack ≤ 32) :
    sizeT ((eatonLength p stack : ℤ) - 1) = eatonLength p stack - 1 :=
  sizeT_payload zero (by omega)

/-- Of an accepted packet, the accesses are sound exactly when the payload comes whole. -/
theorem payload_sound_iff_of_accepted {buf : Block α} (stack : ℕ → ℤ → α) {before : List Access}
    {n : ℕ} {b : Answer} (rest : List Answer) (stream : s.Delivers (eatonBytes p).tail)
    (length : (Octet.val (buf.cells 0)).toNat = eatonLength p stack)
    (zero : eatonLength p stack ≠ 0) (small : eatonLength p stack ≤ 32)
    (first : FirstCell before) (filled : (∃ x ∈ before, x.Fills 0) ↔ p ≠ [])
    (third : b ≠ .fail) (trailer : Octet.val (eatonTrailer p stack n) = 0xa5) :
    Access.Sound 32 before (eatonPayloadAccesses s buf
      (Block.malloc 1 fun k => stack (k + 1)) (.upTo n :: b :: rest)) ↔
        p ≠ [] ∧ eatonLength p stack = eatonPayload p stack n + 1 := by
  have ask := sizeT_eatonLength zero small
  have part : min (max n 1) (min (sizeT ((Octet.val (buf.cells 0)).toNat - 1))
      (eatonBytes p).tail.length) = eatonPayload p stack n := by
    rw [length, ask]
    rfl
  have granted : sizeT ((Octet.val (buf.cells 0)).toNat - 1) < 2 ^ 63 := by
    rw [length, ask]
    omega
  have taken : Octet.val (((eatonBytes p).tail.drop (eatonPayload p stack n)).head?.getD
      ((Block.malloc 1 fun k => stack (k + 1)).cells 0)) = 0xa5 := trailer
  have bound : eatonPayload p stack n ≤ eatonLength p stack - 1 := by
    unfold eatonPayload
    omega
  rw [eatonPayloadAccesses_of_accepted rest stream third rfl granted part taken, length,
    ← List.singleton_append, Access.sound_append, sound_array_iff first _ zero small bound,
    filled]
  exact and_iff_right ⟨(inside_payload_iff small).2 zero, trivial⟩

/-- Behind a length byte of at most 32 the accesses are sound exactly when the condition holds. -/
theorem payload_sound_iff {buf : Block α} (stack : ℕ → ℤ → α) {before : List Access}
    {more : List Answer} (stream : s.Delivers (eatonBytes p).tail)
    (length : (Octet.val (buf.cells 0)).toNat = eatonLength p stack)
    (small : eatonLength p stack ≤ 32) (first : FirstCell before)
    (filled : (∃ x ∈ before, x.Fills 0) ↔ p ≠ []) :
    Access.Sound 32 before (eatonPayloadAccesses s buf
      (Block.malloc 1 fun k => stack (k + 1)) more) ↔ EatonFits p stack more := by
  by_cases zero : eatonLength p stack = 0
  · refine iff_of_false (fun sound => ?_) fun fits => fits.length zero
    have asked := (sound_readAccess_iff (s := s) before small more).1
      ⟨length ▸ sound.1, trivial⟩
    exact asked zero
  by_cases accepted : ∃ n b rest, more = .upTo n :: b :: rest ∧ b ≠ .fail ∧
      Octet.val (eatonTrailer p stack n) = 0xa5
  · obtain ⟨n, b, rest, rfl, third, trailer⟩ := accepted
    rw [payload_sound_iff_of_accepted stack rest stream length zero small first filled third
      trailer]
    constructor
    · intro whole
      refine ⟨zero, ?_⟩
      rintro n' b' rest' same - -
      obtain ⟨same, -⟩ := List.cons.inj same
      cases same
      exact whole
    · intro fits
      exact fits.payload n b rest rfl third trailer
  · have rejected : ∀ n b rest, more = .upTo n :: b :: rest → b ≠ .fail →
        Octet.val (((eatonBytes p).tail.drop (min (max n 1) (min
          (sizeT ((Octet.val (buf.cells 0)).toNat - 1)) (eatonBytes p).tail.length))).head?.getD
            ((Block.malloc 1 fun k => stack (k + 1)).cells 0)) ≠ 0xa5 := by
      intro n b rest listed third trailer
      rw [length, sizeT_eatonLength zero small] at trailer
      exact accepted ⟨n, b, rest, listed, third, trailer⟩
    rw [eatonPayloadAccesses_of_rejected stream rfl rejected, length,
      sound_readAccess_iff before small]
    refine ⟨fun low => ⟨low, ?_⟩, EatonFits.length⟩
    intro n b rest listed third trailer
    exact absurd ⟨n, b, rest, listed, third, trailer⟩ accepted

/-- The same with the read of the length byte. -/
theorem frame_sound_iff {buf : Block α} (stack : ℕ → ℤ → α) {before : List Access}
    {a : Answer} (more : List Answer) (stream : s.Delivers (eatonBytes p))
    (answered : a ≠ .fail) (first : FirstCell before)
    (filled : (∃ x ∈ before, x.Fills 0) ↔ p ≠ [])
    (stale : buf.cells 0 = (p.take ((eatonSkipped p).length + 1)).getLast?.getD (stack 0 0)) :
    Access.Sound 32 before (eatonFrameAccesses s buf
        (Block.malloc 1 fun k => stack (k + 1)) (a :: more)) ↔
      (eatonLength p stack ≤ 32 → EatonFits p stack more) := by
  have offered : FirstCell [readAccess s 0 1 [a]] := by
    intro x among
    obtain rfl := List.mem_singleton.1 among
    exact readAccess_eq s 0 1 [a]
  have length : (Octet.val ((eatonBytes p).head?.getD (buf.cells 0))).toNat =
      eatonLength p stack := by
    rw [stale]
    rfl
  by_cases large : 32 < eatonLength p stack
  · rw [eatonFrameAccesses_large more stream answered (length.symm ▸ large)]
    exact iff_of_true (offered.sound before) fun small => absurd large (not_lt.2 small)
  · rw [not_lt] at large
    obtain ⟨k, buf', after, here, opened⟩ := eatonFrameAccesses_small
      (Block.malloc 1 fun k => stack (k + 1)) more stream answered rfl (length.symm ▸ large)
    rw [opened, ← List.singleton_append, Access.sound_append, and_iff_right (offered.sound before),
      payload_sound_iff stack after (here ▸ length) large]
    · exact (imp_iff_right large).symm
    · intro x among
      rcases List.mem_append.1 among with among | among
      · exact first x among
      · exact offered x among
    · refine Iff.trans (Iff.intro ?_ fun ⟨x, among, fills⟩ =>
        ⟨x, List.mem_append_left _ among, fills⟩) filled
      rintro ⟨x, among, fills⟩
      rcases List.mem_append.1 among with among | among
      · exact ⟨x, among, fills⟩
      · obtain rfl := List.mem_singleton.1 among
        refine filled.2 ?_
        rintro rfl
        -- an empty stream fills nothing
        obtain ⟨k', got, -⟩ := stream.read_one answered
        simp [readAccess, got, eatonBytes, Access.Fills] at fills

/-- A call that does not get past the length byte makes sound accesses: all of them are reads into
the first cell. -/
theorem sound_of_unreached {stack : ℕ → ℤ → α} {answers : List Answer} {before : List Access}
    (start : s.Delivers p)
    (unreached : ∀ as a more, answers = as ++ a :: more →
      as.length = (eatonSkipped p).length + 1 → NoFail as → a = .fail) :
    Access.Sound 32 before
      (match feed eatonBody (s, Block.malloc 32 stack) answers with
        | some (.stopped t buf, rest) =>
          eatonFrameAccesses t buf (Block.malloc 1 fun k => stack (k + 1)) rest
        | _ => []) := by
  split
  · next t buf rest stopped =>
    obtain ⟨as, rfl, count, noFail⟩ := answers_of_stopped start stopped
    rw [eatonFrameAccesses_of_fail fun a more listed => unreached as a more (by rw [listed]) count
      noFail]
    refine FirstCell.sound (fun x among => ?_) _
    obtain rfl := List.mem_singleton.1 among
    exact readAccess_eq t 0 1 rest
  · trivial

/-- `readEatonPacket` stays inside its buffer and builds its result of bytes of the same call if and
only if the condition holds at the length byte, where the call gets that far. -/
theorem eatonAccesses_sound_iff (stream : s.Delivers p) (stack : ℕ → ℤ → α)
    (answers : List Answer) :
    Access.Sound 32 [] (eatonAccesses s stack answers) ↔
      ∀ front more, answers = front ++ more → front.length = (eatonSkipped p).length + 2 →
        NoFail front → eatonLength p stack ≤ 32 → EatonFits p stack more := by
  have first : FirstCell (eatonSyncAccesses (s.suspend, Block.malloc 32 stack) answers) :=
    fun x among => eatonSyncAccesses_fill among
  have start : s.suspend.Delivers p := stream.congr rfl rfl
  unfold eatonAccesses
  rw [Access.sound_append, and_iff_right (first.sound []), List.nil_append]
  by_cases reached : ∃ as a more, answers = as ++ a :: more ∧
      as.length = (eatonSkipped p).length + 1 ∧ NoFail as ∧ a ≠ .fail
  · obtain ⟨as, a, more, rfl, count, noFail, answered⟩ := reached
    obtain ⟨k, buf, stopped, after, stale⟩ :=
      eaton_waited (Block.malloc 32 stack) (a :: more) start count noFail
    rw [stopped]
    have filled : (∃ x ∈ eatonSyncAccesses (s.suspend, Block.malloc 32 stack) (as ++ a :: more),
        x.Fills 0) ↔ p ≠ [] := by
      cases as with
      | nil => simp at count
      | cons b as => exact eatonSyncAccesses_fills_iff start noFail.head
    refine (frame_sound_iff stack more after answered first filled stale).trans ?_
    constructor
    · intro fits front more' split length _ small
      rw [← List.singleton_append, ← List.append_assoc] at split
      obtain ⟨-, rfl⟩ := List.append_inj split (by simp [length, count])
      exact fits small
    · intro fits small
      refine fits (as ++ [a]) more (by simp) (by simp [count]) ?_ small
      exact List.forall_mem_append.2 ⟨noFail, List.forall_mem_singleton.2 answered⟩
  · refine iff_of_true ?_ ?_
    · apply sound_of_unreached start
      intro as a more split count noFail
      by_contra answered
      exact reached ⟨as, a, more, split, count, noFail, answered⟩
    · rintro front more rfl length noFail
      obtain ⟨as, a, last, rfl, count⟩ := answers_split front
        (n := (eatonSkipped p).length + 1) (by omega)
      rw [List.length_append, List.length_cons, count] at length
      obtain rfl := List.eq_nil_of_length_eq_zero (show last.length = 0 by omega)
      exact absurd ⟨as, a, more, by simp, count, noFail.front, noFail.back.head⟩ reached

/-- The array of a returned packet is built of the indices that the log ends with. -/
theorem eatonAccesses_of_array {s' : St α} {stack : ℕ → ℤ → α} {answers : List Answer}
    {elems : List α} (h : jsSockReadEatonPacket s stack answers = some (.done (.array elems), s')) :
    ∃ front, (∀ x ∈ front, ∃ lo count n, x = .fill lo count n) ∧ eatonAccesses s stack answers =
      front ++ (0 :: List.range elems.length).map fun i : ℕ => .index (i : ℤ) := by
  have reads (t : St α) (lo : ℤ) (count : ℕ) (answers : List Answer) :
      ∃ lo' count' n, readAccess t lo count answers = .fill lo' count' n := by
    obtain ⟨n, -, offer⟩ := readAccess_eq t lo count answers
    exact ⟨lo, count, n, offer⟩
  rcases jsSockReadEatonPacket_cases h with ⟨failed, -⟩ | ⟨t, buf, rest, stopped, frame⟩
  · cases failed
  · cases eatonFrame_run frame with
    | packet buf₁ buf₂ tail t₁ t₂ t₃ rest₁ rest₂ rest₃ first small second third closing =>
      refine ⟨eatonSyncAccesses (s.suspend, Block.malloc 32 stack) answers ++
        [readAccess t 0 1 rest, readAccess t₁ 1
          (sizeT ((Octet.val (buf₁.cells 0)).toNat - 1)) rest₁], ?_, ?_⟩
      · intro x among
        rcases List.mem_append.1 among with among | among
        · obtain ⟨n, -, rfl⟩ := eatonSyncAccesses_fill among
          exact ⟨0, 1, n, rfl⟩
        · rcases List.mem_cons.1 among with rfl | among
          · exact reads _ _ _ _
          · obtain rfl := List.mem_singleton.1 among
            exact reads _ _ _ _
      · simp only [eatonAccesses, stopped, eatonFrameAccesses, first, if_neg (not_lt.2 small),
          eatonPayloadAccesses, second, third, closing, Block.slice_length, List.append_assoc,
          List.cons_append, List.nil_append]
        rfl

/-- A packet that comes whole. -/
theorem eatonAccesses_sound_whole : Access.Sound 32 [] (eatonAccesses
    (.opened 5 [0x5a, 3, 1, 2, 0xa5]) (fun _ _ => (0 : UInt8))
    [.upTo 1, .upTo 1, .upTo 2, .upTo 1]) := by
  refine (eatonAccesses_sound_iff (p := [0x5a, 3, 1, 2, 0xa5]) ⟨_, rfl, by decide, rfl⟩ _ _).2 ?_
  intro front more split length _ _
  have parts : [Answer.upTo 1, .upTo 1] ++ [.upTo 2, .upTo 1] = front ++ more := split
  obtain ⟨-, rfl⟩ := List.append_inj parts length.symm
  refine ⟨by decide +kernel, ?_⟩
  rintro n a rest same - -
  cases same
  decide +kernel

/-- A length byte of 0: the payload is read with a size of 2^64 - 1. -/
theorem eatonAccesses_sound_not_zero : ¬ Access.Sound 32 [] (eatonAccesses
    (.opened 5 [0x5a, 0, 0xa5]) (fun _ _ => (0 : UInt8)) [.upTo 1, .upTo 1, .upTo 1, .upTo 1]) :=
  fun sound =>
    have asked : Block.Inside 32 1 (sizeT (0 - 1)) := sound.2.2.1
    absurd asked (by decide)

end Sysjs
