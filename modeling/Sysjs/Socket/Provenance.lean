import Sysjs.Socket.Capacity

/-!
# Bytes of the current connection

Cells that remember where their byte came from.  `Clean own s` says that everything a reader can
still deliver is accepted by `own`; with `own` the bytes of the last connection, it is what a
`connect` that returns `true` has to establish and the readers have to keep.
-/

set_option autoImplicit false

namespace Sysjs

open Feed Runs

variable {α : Type*}

/-- The bytes kept and the bytes still to come are all of one's own. -/
structure Clean (own : α → Prop) (s : St α) : Prop where
  fits : s.obj.Fits
  kept : ∀ i : ℤ, 0 ≤ i → i < s.obj.bufferPos → own (s.obj.readBuffer.cells i)
  pending : ∀ c ∈ s.pending, own c

/-- The bytes a call delivers. -/
def Ret.bytes : Ret α → List α
  | .done (.string chars) => chars
  | .done (.array elems) => elems
  | _ => []

theorem Clean.of_sameBuffer {own : α → Prop} {s s' : St α} (clean : Clean own s)
    (same : SameBuffer s.obj s'.obj) (pending : ∀ c ∈ s'.pending, own c) : Clean own s' := by
  refine ⟨same.fits clean.fits, fun i low high => ?_, pending⟩
  rw [same.readBuffer]
  exact clean.kept i low (by rwa [same.bufferPos] at high)

/-- The buffered bytes, as a list. -/
theorem own_buffered_iff {own : α → Prop} {o : SockObj α} :
    (∀ c ∈ o.buffered, own c) ↔
      ∀ i : ℤ, 0 ≤ i → i < o.bufferPos → own (o.readBuffer.cells i) := by
  constructor
  · intro all i low high
    obtain ⟨i, rfl⟩ := Int.eq_ofNat_of_zero_le low
    have bound : i < o.buffered.length := by
      rw [SockObj.buffered, Block.slice_length]
      omega
    rw [SockObj.cells_buffered bound]
    exact all _ (List.getElem_mem bound)
  · intro all c hc
    obtain ⟨i, bound, rfl⟩ := Block.mem_slice.1 hc
    exact all _ (by omega) (by omega)

theorem Clean.of_read {own : α → Prop} {s : St α} (clean : Clean own s) {k : Kernel α} {count : ℕ}
    {a : Answer} {data : List α} (got : s.kernel.read s.obj.sock count a = (some data, k)) :
    (∀ c ∈ data, own c) ∧ ∀ c ∈ k.pending s.obj.sock, own c := by
  have split : s.pending = data ++ k.pending s.obj.sock := Kernel.read_pending got
  refine ⟨fun c hc => clean.pending c ?_, fun c hc => clean.pending c ?_⟩
  · rw [split]
    exact List.mem_append_left _ hc
  · rw [split]
    exact List.mem_append_right _ hc

variable [Octet α]

/-! ### When the readers deliver bytes of one's own -/

/-- The byte behind the buffered ones, which is kept with them or read with them when a newline is
found anywhere but right there, is one's own. -/
def ScanOwn (own : α → Prop) (o : SockObj α) : Prop :=
  ∀ p : ℤ, 0 < o.bufferPos → 0 ≤ p → p ≤ o.bufferPos + 1 → p ≠ o.bufferPos →
    isNl (o.readBuffer.cells p) = true →
    (∀ i, 0 ≤ i → i < p → isNl (o.readBuffer.cells i) = false) →
    own (o.readBuffer.cells o.bufferPos)

/-- A receive round takes no newline for received that lies behind the received bytes, and moves
the write position no further than they reach. -/
def RoundOwn (s : St α) (a : Answer) : Prop :=
  match (s.kernel.read s.obj.sock s.readSize a).1 with
  | none => True
  | some data => (∃ x ∈ data, isNl x = true) ∨
      (isNl (s.obj.readBuffer.cells (s.obj.bufferPos + data.length)) = false ∧
        (data = [] ∨ s.obj.bufferSize - s.obj.bufferPos ≤ s.obj.bufferPos + (data.length : ℤ)))

/-- The condition on the state and the call under which a reader delivers bytes of one's own and
keeps no others. -/
def ReadsOwn (own : α → Prop) (s : St α) (r : Reader α) (answers : List Answer) : Prop :=
  match r with
  | .read => ScanOwn own s.obj ∧ (s.obj.NoLine → FeedAll recvBody RoundOwn s.receiving answers)
  | .readBytes n => s.obj.bufferPos ≤ n
  | .readWsPacket => s.obj.bufferPos = 0
  | .readEatonPacket _ => True

/-! ### `read` -/

/-- A line is made of bytes before its newline. -/
theorem mem_cutLine {b : Block α} {p : ℤ} {c : α} (low : 0 ≤ p) (h : c ∈ (cutLine b p).1) :
    ∃ i, 0 ≤ i ∧ i < p ∧ b.cells i = c := by
  obtain ⟨i, here, before⟩ := Block.mem_upTo (show c ∈ cString (terminateLine b p) from h)
  rw [Int.zero_add] at here before
  have below : (i : ℤ) < p := by
    by_contra above
    have := before p low (by omega)
    rw [terminateLine_cells_self] at this
    cases this
  refine ⟨i, by omega, below, ?_⟩
  by_cases pred : (i : ℤ) = p - 1
  · have text := before i (by omega) le_rfl
    rw [pred, terminateLine_cells_pred] at text here
    split at text
    · simp at text
    · next not_cr =>
      rwa [if_neg not_cr, ← pred] at here
  · rwa [terminateLine_cells_ne _ (by omega) pred] at here

/-- A buffered line is one's own, and so is what stays behind it. -/
theorem Clean.scanned {own : α → Prop} {s : St α} (clean : Clean own s)
    (scan : ScanOwn own s.obj) :
    (∀ line, (bufferedLine s.obj).1 = some line → ∀ c ∈ line, own c) ∧
      Clean own { s with obj := (bufferedLine s.obj).2 } := by
  obtain ⟨⟨start, high, block⟩, kept, pending⟩ := clean
  have step := bufferedLine_spec s.obj
  generalize bufferedLine s.obj = result at step ⊢
  cases step with
  | empty nothing =>
    refine ⟨fun line h => ?_, ⟨start, high, block⟩, kept, pending⟩
    cases h
  | absent some_kept clear =>
    refine ⟨fun line h => ?_, ⟨start, high, block⟩, kept, pending⟩
    cases h
  | found p below first here =>
    have last := scan p (by omega) (by omega) (by omega) (by omega) here first
    refine ⟨?_, ⟨?_, ?_, ?_⟩, ?_, pending⟩
    · rintro line ⟨⟩ c hc
      obtain ⟨i, low, lt, rfl⟩ := mem_cutLine (by omega) hc
      exact kept i low (by omega)
    · dsimp only
      omega
    · dsimp only
      omega
    · simpa using block
    · intro i low lt
      dsimp only at lt ⊢
      rw [Block.move_cells, if_pos (by omega), cutLine_cells_ne _ (by omega) (by omega),
        Block.touch_cells]
      by_cases end_ : (p : ℤ) + 1 + (i - 0) = s.obj.bufferPos
      · rwa [end_]
      · exact kept _ (by omega) (by omega)
  | stray p some_kept above near first here =>
    refine ⟨?_, ⟨le_rfl, Int.natCast_nonneg _, ?_⟩, fun i low lt => ?_, pending⟩
    · rintro line ⟨⟩ c hc
      obtain ⟨i, low, lt, rfl⟩ := mem_cutLine (by omega) hc
      by_cases behind : i = s.obj.bufferPos
      · rw [Block.touch_cells, behind]
        exact scan p some_kept (by omega) (by omega) (by omega) here first
      · exact kept i low (by omega)
    · simpa using block
    · dsimp only at lt
      omega

/-- Where the receive loop ends when its rounds keep to one's own. -/
def EndsOwn (own : α → Prop) : RecvExit α → Prop
  | .failed s => Clean own s
  | .stopped s p ret => (∀ c ∈ (finishLine s.resume p ret).1.bytes, own c) ∧
      Clean own (finishLine s.resume p ret).2

theorem RoundOwn.quiet {s : St α} {a : Answer} {k : Kernel α} {data : List α}
    (h : RoundOwn s a) (got : s.kernel.read s.obj.sock s.readSize a = (some data, k))
    (clear : ∀ x ∈ data, isNl x = false) :
    isNl (s.obj.readBuffer.cells (s.obj.bufferPos + data.length)) = false ∧
      (data = [] ∨ s.obj.bufferSize - s.obj.bufferPos ≤ s.obj.bufferPos + (data.length : ℤ)) := by
  rw [RoundOwn, got] at h
  rcases h with ⟨x, hx, nl⟩ | quiet
  · simp [clear x hx] at nl
  · exact quiet

omit [Octet α] in
/-- A chunk that reaches the next write position is kept, perhaps not to its end. -/
theorem Clean.grown {own : α → Prop} {s : St α} {a : Answer} {k : Kernel α} {data : List α}
    (h : Clean own s) (got : s.kernel.read s.obj.sock s.readSize a = (some data, k))
    (reach : s.obj.bufferSize - s.obj.bufferPos ≤ s.obj.bufferPos + (data.length : ℤ)) :
    Clean own (s.grown data k) := by
  obtain ⟨come, later⟩ := h.of_read got
  have low := h.fits.low
  refine ⟨grown_fits h.fits data k, fun i start lt => ?_, later⟩
  have pos : (s.grown data k).obj.bufferPos = s.obj.bufferSize - s.obj.bufferPos := rfl
  rw [grown_cells h.fits data k start (by omega)]
  by_cases old : i < s.obj.bufferPos
  · rw [Block.blit_cells_before _ _ old]
    exact h.kept i start old
  · rw [Block.blit_cells_inside _ _ (by omega) (by omega)]
    exact come _ (List.getElem_mem _)

theorem receive_own {own : α → Prop} {s : St α} {answers rest : List Answer} {e : RecvExit α}
    (clean : Clean own s) (rounds : FeedAll recvBody RoundOwn s answers)
    (done : feed recvBody s answers = some (e, rest)) : EndsOwn own e := by
  refine feed_rule (Clean own) (EndsOwn own) ?_ ?_ clean rounds done
  · intro t a e h hown hbody
    have step := recvBody_spec t a
    rw [hbody] at step
    cases step with
    | failed got => exact ⟨⟨h.fits.low, h.fits.high, h.fits.block⟩, h.kept, h.pending⟩
    | ended k got =>
      have not_nl := (hown.quiet got fun x hx => absurd hx List.not_mem_nil).1
      simp only [List.length_nil, Nat.cast_zero, Int.add_zero] at not_nl
      have clear : isNl (((t.withKernel k).withBuffer t.offered).resume.obj.readBuffer.cells
          t.obj.bufferPos) = false := not_nl
      rw [EndsOwn, finishLine_of_not clear]
      exact ⟨fun c hc => absurd hc List.not_mem_nil, ⟨h.fits.low, h.fits.high, h.fits.block⟩,
        h.kept, (h.of_read got).2⟩
    | line k l c r got before nl =>
      obtain ⟨data, later⟩ := h.of_read got
      obtain ⟨u, value, left⟩ := finishLine_of_line h.fits got nl
      rw [EndsOwn, value]
      refine ⟨fun x hx => ?_, left.fits, own_buffered_iff.1 fun x hx => ?_, fun x hx => ?_⟩
      · rcases List.mem_append.1 (chomp_subset (cut_subset hx)) with old | new
        · exact own_buffered_iff.2 h.kept x old
        · exact data x (List.mem_append_left _ new)
      · rw [left.buffered] at hx
        exact data x (List.mem_append_right _ (List.mem_cons_of_mem _ hx))
      · rw [left.pending] at hx
        exact later x hx
    | stale k data got came clear behind =>
      have := (hown.quiet got clear).1
      simp [behind] at this
  · intro t a t' h hown hbody
    have step := recvBody_spec t a
    rw [hbody] at step
    cases step with
    | grown k data got came clear behind =>
      obtain ⟨-, rfl | reach⟩ := hown.quiet got clear
      · exact absurd rfl came
      · exact h.grown got reach

theorem read_own {own : α → Prop} {s s' : St α} {answers : List Answer} {r : Ret α}
    (clean : Clean own s) (scan : ScanOwn own s.obj)
    (rounds : s.obj.NoLine → FeedAll recvBody RoundOwn s.receiving answers)
    (h : jsSockRead s answers = some (r, s')) : (∀ c ∈ r.bytes, own c) ∧ Clean own s' := by
  obtain ⟨line_own, scanned⟩ := clean.scanned scan
  have start : Clean own s.receiving := ⟨scanned.fits, scanned.kept, scanned.pending⟩
  have step := jsSockRead_spec h
  cases step with
  | served line o found =>
    rw [found] at line_own scanned
    exact ⟨line_own line rfl, scanned⟩
  | failed nothing t rest done =>
    exact ⟨fun c hc => absurd hc List.not_mem_nil,
      receive_own start (rounds (SockObj.noLine_of_bufferedLine nothing)) done⟩
  | stopped nothing t p ret rest finish done =>
    have ends := receive_own start (rounds (SockObj.noLine_of_bufferedLine nothing)) done
    rwa [EndsOwn, finish] at ends

/-! ### `readBytes` -/

/-- Bytes taken out when nothing stays behind them. -/
theorem takeBytes_own {own : α → Prop} {s : St α} {n : ℤ} (clean : Clean own s)
    (whole : s.obj.bufferPos = n ∨ s.obj.bufferPos = 0)
    (front : ∀ i : ℤ, 0 ≤ i → i < n → own (s.obj.readBuffer.cells i)) :
    (∀ c ∈ (takeBytes s n).1.bytes, own c) ∧ Clean own (takeBytes s n).2 := by
  have taken : ∀ c ∈ ((s.obj.readBuffer.store n nul).touch 0 n).slice 0 n.toNat, own c := by
    intro c hc
    obtain ⟨i, bound, rfl⟩ := Block.mem_slice.1 hc
    rw [Block.touch_cells, Block.store_cells_ne _ _ (by omega)]
    exact front _ (by omega) (by omega)
  have low := clean.fits.low
  unfold takeBytes
  dsimp only
  split
  · refine ⟨taken, ⟨?_, ?_, clean.fits.block⟩, fun i start lt => ?_, clean.pending⟩
    · dsimp only
      omega
    · dsimp only
      omega
    · dsimp only at lt
      omega
  · refine ⟨taken, ⟨low, clean.fits.high, clean.fits.block⟩, fun i start lt => ?_, clean.pending⟩
    have lt : i < s.obj.bufferPos := lt
    omega

omit [Octet α] in
theorem growFor_own {own : α → Prop} {s : St α} (n : ℤ) (clean : Clean own s) :
    Clean own (growFor s n) := by
  refine ⟨growFor_Fits n clean.fits, fun i start lt => ?_, fun c hc => clean.pending c ?_⟩
  · rw [growFor_bufferPos] at lt
    rw [growFor_cells n clean.fits.block start (lt.trans_le clean.fits.high)]
    exact clean.kept i start lt
  · rwa [St.pending, growFor_kernel, growFor_sock] at hc

omit [Octet α] in
/-- Behind the buffered bytes there are now those that came. -/
theorem filled_own {own : α → Prop} {s : St α} {n : ℤ} {a : Answer} {k : Kernel α}
    {data : List α} (clean : Clean own s)
    (got : s.kernel.read s.obj.sock ((growFor s n).missing n) a = (some data, k)) :
    Clean own (((growFor s n).suspend.withKernel k).withBuffer
      (((growFor s n).offeredFor n).blit s.obj.bufferPos data)).resume := by
  have grown := growFor_own n clean
  have pos := growFor_bufferPos s n
  refine ⟨⟨grown.fits.low, grown.fits.high, grown.fits.block⟩, fun i low lt => ?_, ?_⟩
  · have lt : i < (growFor s n).obj.bufferPos := lt
    change own ((((growFor s n).offeredFor n).blit s.obj.bufferPos data).cells i)
    rw [Block.blit_cells_before _ _ (by omega)]
    exact grown.kept i low lt
  · have later := (clean.of_read got).2
    rw [← growFor_sock s n] at later
    exact later

theorem readBytes_own {own : α → Prop} {s s' : St α} {n : ℤ} {answers : List Answer} {r : Ret α}
    (clean : Clean own s) (all : s.obj.bufferPos ≤ n)
    (h : jsSockReadBytes s [n] answers = some (r, s')) :
    (∀ c ∈ r.bytes, own c) ∧ Clean own s' := by
  have start := clean.fits.low
  have grown := growFor_own n clean
  have pos := growFor_bufferPos s n
  have kernel := growFor_kernel s n
  have missing := growFor_missing s n
  have filled (k : Kernel α) (data : List α) (a : Answer)
      (got : s.kernel.read s.obj.sock ((growFor s n).missing n) a = (some data, k)) :=
    filled_own clean got
  have step := jsSockReadBytes_spec h
  generalize growFor s n = t at step grown pos kernel missing filled
  generalize result : (r, s') = out at step
  obtain ⟨rfl, rfl⟩ : out.1 = r ∧ out.2 = s' := by rw [← result]; exact ⟨rfl, rfl⟩
  cases step with
  | served enough =>
    exact takeBytes_own (s := t.suspend.resume) ⟨grown.fits, grown.kept, grown.pending⟩
      (Or.inl (by dsimp; omega)) fun i low lt => grown.kept i low (by omega)
  | failed a asked above got =>
    rw [if_pos (by omega)]
    refine ⟨fun c hc => absurd hc List.not_mem_nil,
      ⟨grown.fits.low, grown.fits.high, grown.fits.block⟩, grown.kept, ?_⟩
    have pending := grown.pending
    rw [St.pending, kernel] at pending
    exact pending
  | short a asked above k data got few =>
    exact ⟨fun c hc => absurd hc List.not_mem_nil, filled k data a got⟩
  | filled a asked above k data got enough =>
    obtain ⟨come, -⟩ := clean.of_read got
    have bound := length_le_missing start above (missing ▸ got)
    have empty : s.obj.bufferPos = 0 := by omega
    apply takeBytes_own (filled k data a got) (Or.inr (pos.trans empty))
    intro i low lt
    change own (((t.offeredFor n).blit s.obj.bufferPos data).cells i)
    rw [Block.blit_cells_inside _ _ (by omega) (by omega)]
    exact come _ (List.getElem_mem _)

/-! ### The other methods -/

/-- The packet loop keeps `buffer_pos` and brings nothing that was not pending. -/
theorem wsLoop_own {own : α → Prop} {l : WsLoop α} {answers rest : List Answer} {e : WsExit α}
    (empty : l.st.obj.bufferPos = 0) (pending : ∀ c ∈ l.st.pending, own c)
    (done : feed wsBody l answers = some (e, rest)) :
    e.st.obj.bufferPos = 0 ∧ ∀ c ∈ e.st.pending, own c := by
  refine feed_inv (fun l => l.st.obj.bufferPos = 0 ∧ ∀ c ∈ l.st.pending, own c)
    (fun e => e.st.obj.bufferPos = 0 ∧ ∀ c ∈ e.st.pending, own c) ?_ ?_ ⟨empty, pending⟩ done
  · intro l a e h body
    have step := wsBody_spec l a
    rw [body] at step
    cases step with
    | failed got => exact h
    | ended k got => exact ⟨h.1, fun c hc => h.2 c ((Kernel.read_suffix got).subset hc)⟩
    | closed k c got inside last =>
      refine ⟨by simpa [WsExit.st] using h.1, fun x hx => h.2 x ?_⟩
      have hx : x ∈ k.pending l.st.obj.sock := by simpa [WsExit.st, St.pending] using hx
      exact (Kernel.read_suffix got).subset hx
  · intro l a l' h body
    have step := wsBody_spec l a
    rw [body] at step
    cases step with
    | sync k c got waiting => exact ⟨h.1, fun x hx => h.2 x ((Kernel.read_suffix got).subset hx)⟩
    | stored k c got inside more =>
      refine ⟨by simpa using h.1, fun x hx => h.2 x ?_⟩
      have hx : x ∈ k.pending l.st.obj.sock := by simpa [St.pending] using hx
      exact (Kernel.read_suffix got).subset hx

theorem readWsPacket_own {own : α → Prop} {s s' : St α} {answers : List Answer} {r : Ret α}
    (clean : Clean own s) (empty : s.obj.bufferPos = 0)
    (h : jsSockReadWsPacket s answers = some (r, s')) : Clean own s' := by
  have backed := readWsPacket_backed clean.fits.block h
  have done : s'.obj.bufferPos = 0 ∧ ∀ c ∈ s'.pending, own c := by
    have step := jsSockReadWsPacket_spec h
    cases step with
    | failed t rest done => exact wsLoop_own empty clean.pending done
    | stopped t total rest done => exact wsLoop_own empty clean.pending done
  refine ⟨⟨done.1.ge, ?_, backed⟩, fun i low lt => ?_, done.2⟩
  · rw [done.1]
    exact Int.natCast_nonneg _
  · rw [done.1] at lt
    omega

/-- No other call brings bytes that were not pending, except a `connect` that returns `true`. -/
theorem call_pending {s s' : St α} {op : Op α} {r : Ret α} (other : ¬ op.TouchesBuffer)
    (stays : ∀ host, op = .connect host → r ≠ .done (.bool true)) (h : op.call s = some (r, s')) :
    ∀ c ∈ s'.pending, c ∈ s.pending := by
  have closed (t : St α) (sock : t.obj.sock = -1) (c : α) (hc : c ∈ t.pending) : c ∈ s.pending := by
    rw [St.pending, sock, Kernel.pending_of_desc_none (Kernel.desc_of_neg _ (by decide))] at hc
    cases hc
  intro c hc
  cases op with
  | connect host =>
    have step := jsSockConnect_spec h
    cases step with
    | arguments => exact hc
    | unresolved => exact closed _ (by rw [closeOld_obj]) c hc
    | noAddress attempts works => exact closed _ (by rw [St.suspend_obj, closeOld_obj]) c hc
    | connected attempts works fd stream chosen low fresh => exact absurd rfl (stays _ rfl)
  | bind argv found listens =>
    have step := jsSockBind_spec h
    cases step with
    | rejected argv found listens format works => exact hc
    | leaked port attempts works fd low fresh => exact Kernel.mem_pending_set (fun _ => rfl) hc
    | listening port attempts works fd low fresh =>
      rw [St.pending, Kernel.pending_set_self _ low] at hc
      cases hc
  | accept answer newId heap =>
    obtain ⟨⟨r', t, made⟩, accepted, eq⟩ := Option.map_eq_some_iff.1 h
    cases eq
    have step := jsSockAccept_spec accepted
    cases step with
    | failed => exact hc
    | accepted fd stream low fresh listening =>
      refine Kernel.mem_pending_set (fun same => ?_) hc
      rw [same, fresh] at listening
      cases listening
  | close =>
    cases h
    exact closed _ rfl c hc
  | write argv answers =>
    have step := jsSockSend_spec h
    cases step with
    | arguments => exact hc
    | wrote r k same => exact same ▸ hc
  | writeWsPacket argv answers =>
    have step := jsSockWriteWsPacket_spec h
    cases step with
    | arguments => exact hc
    | wrote r k same => exact same ▸ hc
  | reader reader answers =>
    cases reader with
    | readEatonPacket stack =>
      have step := jsSockReadEatonPacket_spec h
      cases step with
      | error format k less => exact less.subset hc
      | packet elems k less => exact less.subset hc
    | _ => exact absurd trivial other

/-- A call that meets the condition delivers bytes of one's own and keeps no others, unless it is a
`connect` that returns `true`. -/
theorem call_own {own : α → Prop} {s s' : St α} {op : Op α} {r : Ret α} (clean : Clean own s)
    (reads : ∀ reader answers, op = .reader reader answers → ReadsOwn own s reader answers)
    (stays : ∀ host, op = .connect host → r ≠ .done (.bool true)) (h : op.call s = some (r, s')) :
    (∀ answers, op = .reader .read answers → ∀ c ∈ r.bytes, own c) ∧
    (∀ n answers, op = .reader (.readBytes n) answers → ∀ c ∈ r.bytes, own c) ∧ Clean own s' := by
  by_cases touches : op.TouchesBuffer
  · cases op with
    | reader reader answers =>
      have cond := reads _ _ rfl
      cases reader with
      | read =>
        obtain ⟨delivered, clean'⟩ := read_own clean cond.1 cond.2 h
        exact ⟨fun _ _ => delivered, fun _ _ _ => delivered, clean'⟩
      | readBytes n =>
        obtain ⟨delivered, clean'⟩ := readBytes_own clean cond h
        exact ⟨fun _ _ => delivered, fun _ _ _ => delivered, clean'⟩
      | readWsPacket =>
        refine ⟨fun _ eq => ?_, fun _ _ eq => ?_, readWsPacket_own clean cond h⟩
        · cases eq
        · cases eq
      | readEatonPacket stack => exact touches.elim
    | _ => exact touches.elim
  · refine ⟨fun answers eq => ?_, fun n answers eq => ?_,
      clean.of_sameBuffer (call_sameBuffer touches h) fun c hc =>
        clean.pending c (call_pending touches stays h c hc)⟩
    · subst eq
      exact absurd trivial touches
    · subst eq
      exact absurd trivial touches

/-! ### Connections -/

/-- A byte and the number of the connection it was received on, if it was received at all. -/
structure Tagged where
  byte : UInt8
  origin : Option ℕ
  deriving DecidableEq

instance : Octet Tagged where
  val := Tagged.byte
  lit b := { byte := b, origin := none }
  val_lit _ := rfl

/-- Bytes of the connection `n`. -/
def received (n : ℕ) (bytes : List UInt8) : List Tagged :=
  bytes.map fun b => { byte := b, origin := some n }

/-- Memory that nothing was received into yet. -/
def untouched (heap : ℕ → ℤ → UInt8) : ℕ → ℤ → Tagged :=
  fun k i => { byte := heap k i, origin := none }

def Attempt.tag (n : ℕ) : Attempt UInt8 → Attempt Tagged
  | .noSocket => .noSocket
  | .refused fd => .refused fd
  | .success fd stream => .success fd (received n stream)

def Resolve.tag (n : ℕ) : Resolve UInt8 → Resolve Tagged
  | .failed => .failed
  | .addresses attempts => .addresses (attempts.map (Attempt.tag n))

def Reader.tag : Reader UInt8 → Reader Tagged
  | .read => .read
  | .readBytes n => .readBytes n
  | .readWsPacket => .readWsPacket
  | .readEatonPacket stack => .readEatonPacket (untouched stack)

/-- The call, when a connection it makes is the connection `n`. -/
def Op.tag (n : ℕ) : Op UInt8 → Op Tagged
  | .connect host => .connect (host.map (Resolve.tag n))
  | .bind argv found listens => .bind argv (found.tag 0) listens
  | .accept answer newId heap =>
    .accept (answer.map fun a => (a.1, received 0 a.2)) newId (untouched heap)
  | .close => .close
  | .write argv answers => .write argv answers
  | .writeWsPacket argv answers => .writeWsPacket argv answers
  | .reader r answers => .reader r.tag answers

/-- A Socket and the number of `connect` calls that have returned `true`. -/
structure Conn where
  st : St Tagged
  count : ℕ

/-- The number of connections after a call with the result `r`. -/
def countAfter (n : ℕ) (op : Op UInt8) (r : Ret Tagged) : ℕ :=
  match op, r with
  | .connect _, .done (.bool true) => n + 1
  | _, _ => n

/-- A call, with its connection numbered. -/
def Conn.call (c : Conn) (op : Op UInt8) : Option (Ret Tagged × Conn) :=
  match (op.tag (c.count + 1)).call c.st with
  | none => none
  | some (r, s) => some (r, { st := s, count := countAfter c.count op r })

/-- What `read` and `readBytes` return is received on the last connection. -/
def DeliversOwn (c : Conn) (op : Op UInt8) (r : Ret Tagged) (_ : Conn) : Prop :=
  match op with
  | .reader .read _ | .reader (.readBytes _) _ =>
    1 ≤ c.count → ∀ x ∈ r.bytes, x.origin = some c.count
  | _ => True

/-- The condition on the state and the call: a `connect` that finds an address finds the buffer
empty, and from the first connection on the readers deliver bytes of the connection and keep no
others. -/
def Separate (c : Conn) : Op UInt8 → Prop
  | .connect (some (.addresses attempts)) => someWorks attempts = true → c.st.obj.bufferPos = 0
  | .reader r answers =>
    1 ≤ c.count → ReadsOwn (fun x => x.origin = some c.count) c.st r.tag answers
  | _ => True

theorem someWorks_tag (n : ℕ) (attempts : List (Attempt UInt8)) :
    someWorks (attempts.map (Attempt.tag n)) = someWorks attempts := by
  induction attempts with
  | nil => rfl
  | cons attempt rest ih => cases attempt <;> simp [someWorks, Attempt.tag, ih]

/-- What holds between the calls of a run. -/
structure ConnInv (c : Conn) : Prop where
  backed : c.st.obj.Backed
  clean : 1 ≤ c.count → Clean (fun x => x.origin = some c.count) c.st

/-- A connection starts clean when nothing is buffered. -/
theorem connect_clean {c : Conn} {host : Option (Resolve UInt8)} {s : St Tagged}
    (backed : c.st.obj.Backed) (cond : Separate c (.connect host))
    (h : jsSockConnect c.st (host.map (Resolve.tag (c.count + 1))) = some (.done (.bool true), s)) :
    Clean (fun x => x.origin = some (c.count + 1)) s := by
  have step := jsSockConnect_spec h
  generalize tagged : host.map (Resolve.tag (c.count + 1)) = host' at step
  cases step with
  | connected attempts works fd stream chosen low fresh =>
    obtain ⟨found, rfl, eq⟩ := Option.map_eq_some_iff.1 tagged
    cases found with
    | failed => cases eq
    | addresses plain =>
      obtain rfl : plain.map (Attempt.tag (c.count + 1)) = attempts := by
        simpa [Resolve.tag] using eq
      rw [someWorks_tag] at works
      have empty := cond works
      refine ⟨⟨empty.ge, ?_, backed⟩, fun i start lt => ?_, fun x hx => ?_⟩
      · dsimp only
        rw [empty]
        exact Int.natCast_nonneg _
      · dsimp only at lt
        omega
      · rw [St.pending, Kernel.pending_set_self _ low] at hx
        obtain ⟨attempt, -, eq⟩ := List.mem_map.1 chosen
        cases attempt with
        | noSocket => cases eq
        | refused fd' => cases eq
        | success fd' bytes =>
          obtain ⟨rfl, rfl⟩ : fd' = fd ∧ received (c.count + 1) bytes = stream := by
            simpa [Attempt.tag] using eq
          obtain ⟨b, -, rfl⟩ := List.mem_map.1 hx
          rfl

theorem call_separate {c c' : Conn} {op : Op UInt8} {r : Ret Tagged} (inv : ConnInv c)
    (cond : Separate c op) (h : c.call op = some (r, c')) : DeliversOwn c op r c' ∧ ConnInv c' := by
  unfold Conn.call at h
  split at h
  · cases h
  · next r' s called =>
    rw [Option.some.injEq, Prod.mk.injEq] at h
    obtain ⟨rfl, rfl⟩ := h
    have backed := call_backed inv.backed called
    by_cases connected : ∃ host, op = .connect host ∧ r' = .done (.bool true)
    · obtain ⟨host, rfl, rfl⟩ := connected
      exact ⟨trivial, backed, fun _ => connect_clean inv.backed cond called⟩
    · have count : countAfter c.count op r' = c.count := by
        unfold countAfter
        split
        · exact absurd ⟨_, rfl, rfl⟩ connected
        · rfl
      rw [count]
      have stays : ∀ host, op.tag (c.count + 1) = .connect host → r' ≠ .done (.bool true) := by
        intro host eq value
        cases op with
        | connect host' => exact connected ⟨host', rfl, value⟩
        | _ => cases eq
      have reads (made : 1 ≤ c.count) (reader : Reader Tagged) (answers : List Answer)
          (eq : op.tag (c.count + 1) = .reader reader answers) :
          ReadsOwn (fun x => x.origin = some c.count) c.st reader answers := by
        cases op with
        | reader plain answers' =>
          cases eq
          exact cond made
        | _ => cases eq
      refine ⟨?_, backed, fun made => (call_own (inv.clean made) (reads made) stays called).2.2⟩
      unfold DeliversOwn
      split
      · exact fun made => (call_own (inv.clean made) (reads made) stays called).1 _ rfl
      · exact fun made => (call_own (inv.clean made) (reads made) stays called).2.1 _ _ rfl
      · trivial

/-- Into an empty buffer a chunk with a line in it comes. -/
theorem readsOwn_of_line {own : α → Prop} {s : St α} {a : Answer} (data : List α)
    (empty : s.obj.bufferPos = 0)
    (come : (s.kernel.read s.obj.sock s.readSize a).1 = some data)
    (line : ∃ x ∈ data, isNl x = true) : ReadsOwn own s .read [a] := by
  have receiving : s.receiving = s.suspend := by
    simp [St.receiving, bufferedLine, empty]
  refine ⟨fun p some_kept => absurd some_kept (by omega), fun _ => feedAll_singleton.2 ?_⟩
  rw [receiving, RoundOwn]
  change match (s.kernel.read s.obj.sock s.readSize a).1 with
    | none => True
    | some data => (∃ x ∈ data, isNl x = true) ∨ _
  rw [come]
  exact Or.inl line

/-- From construction, in every run whose calls meet the condition, what `read` and `readBytes`
return after a `connect` that returned `true` was received on the last such connection. -/
theorem connections_start_clean (heap : ℕ → ℤ → UInt8) (argv : List Jsval) (k : Kernel Tagged)
    (calls : List (Op UInt8))
    (cond : Guarded Conn.call Separate { st := St.start (untouched heap) argv k, count := 0 }
      calls) :
    Along Conn.call DeliversOwn { st := St.start (untouched heap) argv k, count := 0 } calls := by
  have preserved (c : Conn) (op : Op UInt8) (r : Ret Tagged) (c' : Conn) (inv : ConnInv c)
      (hcond : Separate c op) (h : c.call op = some (r, c')) : DeliversOwn c op r c' ∧ ConnInv c' :=
    call_separate inv hcond h
  refine Guarded.along ConnInv preserved ⟨?_, ?_⟩ cond
  · exact (jsSockConstruct_fits (untouched heap) argv).block
  · exact fun made => absurd made (Nat.not_succ_le_zero 0)

/-- A line on a first connection, and a line on a second one. -/
theorem connections_start_clean_two :
    Along Conn.call DeliversOwn
      { st := St.start (untouched fun _ _ => 0) [] (.stream 9 []), count := 0 }
      [.connect (some (.addresses [.success 5 [97, 10]])), .reader .read [.upTo 2],
        .connect (some (.addresses [.success 5 [98, 10]])), .reader .read [.upTo 2]] := by
  refine connections_start_clean _ _ _ _ (guarded_cons (fun _ => rfl)
    (guarded_cons (fun _ => ?_) (guarded_cons (fun _ => ?_) (guarded_cons (fun _ => ?_) trivial))))
  · exact readsOwn_of_line (received 1 [97, 10]) (by decide +kernel) (by decide +kernel)
      (by decide)
  · decide +kernel
  · exact readsOwn_of_line (received 2 [98, 10]) (by decide +kernel) (by decide +kernel)
      (by decide)

/-- Two lines on a first connection of which one is read: the second connection delivers the
other. -/
theorem connections_start_clean_not_leftover :
    ¬ Along Conn.call DeliversOwn
      { st := St.start (untouched fun _ _ => 0) [] (.stream 9 []), count := 0 }
      [.connect (some (.addresses [.success 5 [97, 10, 98, 10]])), .reader .read [.upTo 4], .close,
        .connect (some (.addresses [.success 5 []])), .reader .read []] := by
  intro along
  have fails : ((Conn.call (final Conn.call
      { st := St.start (untouched fun _ _ => 0) [] (.stream 9 []), count := 0 }
      [.connect (some (.addresses [.success 5 [97, 10, 98, 10]])), .reader .read [.upTo 4], .close,
        .connect (some (.addresses [.success 5 []]))]) (.reader .read [])).map
        fun x => x.1.bytes.all fun t => t.origin == some 2) = some false := by decide +kernel
  obtain ⟨⟨r, c'⟩, last, wrong⟩ := Option.map_eq_some_iff.1 fails
  have own := Along.last along (by decide +kernel) last (by decide +kernel)
  simp only [List.all_eq_false] at wrong
  obtain ⟨x, here, other⟩ := wrong
  exact other (beq_iff_eq.2 (own x here))

end Sysjs
