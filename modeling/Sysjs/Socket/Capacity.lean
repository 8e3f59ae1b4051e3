import Sysjs.Socket.LineStream
import Sysjs.Socket.Methods

/-!
# Every access stays inside the read buffer

The flag of the block records whether every index used so far was inside.  The conditions below name
the accesses that can leave it: behind a full buffer, in front of the buffer, and at a request that
is negative or as long as the whole block.
-/

set_option autoImplicit false

namespace Sysjs

open Feed Runs

variable {α : Type*}

/-- The bookkeeping agrees with the allocation, and no access has been outside. -/
structure SockObj.Sound (o : SockObj α) : Prop where
  fits : o.Fits
  safe : o.readBuffer.safe = true

theorem SameBuffer.sound {o o' : SockObj α} (same : SameBuffer o o') (sound : o.Sound) :
    o'.Sound := by
  refine ⟨same.fits sound.fits, ?_⟩
  rw [same.readBuffer]
  exact sound.safe

variable [Octet α]

/-! ### Where an access can leave the buffer -/

/-- The scan for a buffered line ends inside the block. -/
def SockObj.ScanInside (o : SockObj α) : Prop :=
  0 < o.bufferPos → o.bufferPos < o.readBuffer.size ∧
    (o.bufferPos + 1 < o.readBuffer.size ∨
      ∃ i, 0 ≤ i ∧ i ≤ o.bufferPos ∧ isNl (o.readBuffer.cells i) = true)

/-- A receive round looks at no byte behind the block, and takes no newline for received that lies
behind the received bytes. -/
def RoundInside (s : St α) (a : Answer) : Prop :=
  match (s.kernel.read s.obj.sock s.readSize a).1 with
  | none => True
  | some data => (∃ x ∈ data, isNl x = true) ∨
      (s.obj.bufferPos + data.length < s.obj.readBuffer.size ∧
        isNl (s.obj.readBuffer.cells (s.obj.bufferPos + data.length)) = false)

/-- The terminator of `readBytes(n)` is inside the block, or the call does not get that far. -/
def BytesInside (s : St α) (n : ℤ) (answers : List Answer) : Prop :=
  0 ≤ n ∧ (n = s.obj.bufferSize ∧ n = s.obj.readBuffer.size → s.obj.bufferPos < n ∧
    ∀ a ∈ answers.head?, ∀ data ∈ (s.kernel.read s.obj.sock (s.missing n) a).1,
      (data.length : ℤ) < n)

/-- The condition on the state and the call under which every access stays inside. -/
def StaysInside (s : St α) : Op α → Prop
  | .reader .read answers => s.obj.ScanInside ∧
      (s.obj.NoLine → FeedAll recvBody RoundInside s.receiving answers)
  | .reader (.readBytes n) answers => BytesInside s n answers
  | _ => True

/-! ### `read` -/

theorem bufferedLine_sound {o : SockObj α} (sound : o.Sound) (inside : o.ScanInside) :
    (bufferedLine o).2.Sound := by
  obtain ⟨⟨low, high, block⟩, safe⟩ := sound
  have step := bufferedLine_spec o
  generalize bufferedLine o = result at step ⊢
  cases step with
  | empty nothing => exact ⟨⟨low, high, block⟩, safe⟩
  | absent kept clear =>
    obtain ⟨behind, ahead | ⟨i, lo, hi, nl⟩⟩ := inside kept
    · refine ⟨⟨low, high, block⟩, ?_⟩
      rw [Block.touch_safe]
      exact ⟨safe, Block.inside_of_le le_rfl (by omega)⟩
    · have := clear i lo (by omega)
      simp [nl] at this
  | found p below first here =>
    obtain ⟨behind, -⟩ := inside (by omega)
    refine ⟨⟨?_, ?_, ?_⟩, ?_⟩
    · dsimp only
      omega
    · dsimp only
      omega
    · simpa using block
    · rw [Block.move_safe, cutLine_safe _ (by omega), cutLine_size, Block.touch_safe,
        Block.touch_size]
      exact ⟨⟨⟨safe, Block.inside_of_le le_rfl (by omega)⟩, by omega⟩,
        Block.inside_of_le (by omega) (by omega), Block.inside_of_le le_rfl (by omega)⟩
  | stray p kept above near first here =>
    obtain ⟨behind, ahead⟩ := inside kept
    have reach : (p : ℤ) < o.readBuffer.size := by
      rcases ahead with ahead | ⟨i, lo, hi, nl⟩
      · omega
      · by_contra outside
        have := first i lo (by omega)
        simp [nl] at this
    refine ⟨⟨le_rfl, Int.natCast_nonneg _, ?_⟩, ?_⟩
    · simpa using block
    · rw [cutLine_safe _ (by omega), Block.touch_safe, Block.touch_size]
      exact ⟨⟨safe, Block.inside_of_le le_rfl (by omega)⟩, reach⟩

/-- Where the receive loop ends when its rounds stay inside. -/
def EndsSound : RecvExit α → Prop
  | .failed s => s.obj.Sound
  | .stopped s p ret => (finishLine s.resume p ret).2.obj.Sound

omit [Octet α] in
theorem SockObj.Sound.offered {s : St α} (sound : s.obj.Sound) : s.offered.safe = true := by
  have free := sizeT_le (show 0 ≤ (s.obj.bufferSize : ℤ) - s.obj.bufferPos by
    have := sound.fits.high
    omega)
  have block := sound.fits.block
  rw [St.offered, Block.touch_safe]
  exact ⟨sound.safe, Block.inside_of_le sound.fits.low (by rw [St.readSize]; omega)⟩

theorem RoundInside.quiet {s : St α} {a : Answer} {k : Kernel α} {data : List α}
    (h : RoundInside s a) (got : s.kernel.read s.obj.sock s.readSize a = (some data, k))
    (clear : ∀ x ∈ data, isNl x = false) :
    s.obj.bufferPos + data.length < s.obj.readBuffer.size ∧
      isNl (s.obj.readBuffer.cells (s.obj.bufferPos + data.length)) = false := by
  rw [RoundInside, got] at h
  rcases h with ⟨x, hx, nl⟩ | quiet
  · simp [clear x hx] at nl
  · exact quiet

theorem receive_sound {s : St α} {answers rest : List Answer} {e : RecvExit α}
    (sound : s.obj.Sound) (inside : FeedAll recvBody RoundInside s answers)
    (done : feed recvBody s answers = some (e, rest)) : EndsSound e := by
  refine feed_rule (fun t => t.obj.Sound) EndsSound ?_ ?_ sound inside done
  · intro t a e h hinside hbody
    have step := recvBody_spec t a
    rw [hbody] at step
    cases step with
    | failed got => exact ⟨⟨h.fits.low, h.fits.high, h.fits.block⟩, h.offered⟩
    | ended k got =>
      obtain ⟨reach, not_nl⟩ := hinside.quiet got (fun x hx => absurd hx List.not_mem_nil)
      simp only [List.length_nil, Nat.cast_zero, Int.add_zero] at reach not_nl
      have clear : isNl (((t.withKernel k).withBuffer t.offered).resume.obj.readBuffer.cells
          t.obj.bufferPos) = false := not_nl
      rw [EndsSound, finishLine_of_not clear]
      refine ⟨⟨h.fits.low, h.fits.high, h.fits.block⟩, ?_⟩
      exact (Block.touch_safe _ _ _).2 ⟨h.offered, Block.inside_of_le h.fits.low (by
        change t.obj.bufferPos + 1 ≤ t.obj.readBuffer.size
        omega)⟩
    | line k l c r got before nl =>
      obtain ⟨u, value, left⟩ := finishLine_of_line h.fits got nl
      rw [EndsSound, value]
      exact ⟨left.fits, left.safe h.safe⟩
    | stale k data got came clear behind =>
      have := (hinside.quiet got clear).2
      simp [behind] at this
  · intro t a t' h hinside hbody
    have step := recvBody_spec t a
    rw [hbody] at step
    cases step with
    | grown k data got came clear behind =>
      obtain ⟨reach, -⟩ := hinside.quiet got clear
      refine ⟨grown_fits h.fits data k, ?_⟩
      simp only [SockObj.grow, St.landed, St.withBuffer_obj, Block.realloc_safe,
        Block.touch_safe, Block.blit_safe, Block.blit_size]
      exact ⟨h.offered, Block.inside_of_le h.fits.low (by
        change t.obj.bufferPos + (data.length + 1) ≤ t.obj.readBuffer.size
        omega)⟩

theorem read_sound {s s' : St α} {answers : List Answer} {r : Ret α} (sound : s.obj.Sound)
    (scan : s.obj.ScanInside)
    (inside : s.obj.NoLine → FeedAll recvBody RoundInside s.receiving answers)
    (h : jsSockRead s answers = some (r, s')) : s'.obj.Sound := by
  have scanned := bufferedLine_sound sound scan
  have step := jsSockRead_spec h
  cases step with
  | served line o found =>
    rw [found] at scanned
    exact scanned
  | failed nothing t rest done =>
    exact receive_sound (s := s.receiving) scanned
      (inside (SockObj.noLine_of_bufferedLine nothing)) done
  | stopped nothing t p ret rest finish done =>
    have ends := receive_sound (s := s.receiving) scanned
      (inside (SockObj.noLine_of_bufferedLine nothing)) done
    rwa [EndsSound, finish] at ends

/-! ### `readBytes` -/

theorem takeBytes_sound {s : St α} {n : ℤ} (sound : s.obj.Sound) (low : 0 ≤ n)
    (reach : n < s.obj.readBuffer.size) (enough : 0 < s.obj.bufferPos → n ≤ s.obj.bufferPos) :
    (takeBytes s n).2.obj.Sound := by
  obtain ⟨⟨start, high, block⟩, safe⟩ := sound
  have taken : ((s.obj.readBuffer.store n nul).touch 0 n).safe = true := by
    rw [Block.touch_safe, Block.store_safe, Block.store_size]
    exact ⟨⟨safe, Block.inside_of_le low (by omega)⟩, Block.inside_of_le le_rfl (by omega)⟩
  unfold takeBytes
  dsimp only
  split
  · next some_kept =>
    refine ⟨⟨?_, ?_, block⟩, ?_⟩
    · dsimp only
      omega
    · dsimp only
      omega
    · rw [Block.move_safe, Block.touch_size, Block.store_size]
      exact ⟨taken, Block.inside_of_le low (by omega), Block.inside_of_le le_rfl (by omega)⟩
  · exact ⟨⟨start, high, block⟩, taken⟩

omit [Octet α] in
theorem growFor_sound {s : St α} (n : ℤ) (sound : s.obj.Sound) : (growFor s n).obj.Sound :=
  ⟨growFor_Fits n sound.fits, by rw [growFor_safe]; exact sound.safe⟩

omit [Octet α] in
/-- After growing, a request reaches the end of the block only when it is as long as the block was
before. -/
theorem lt_size_growFor {s : St α} {n : ℤ} (fits : s.obj.Fits)
    (ne : ¬ (n = s.obj.bufferSize ∧ n = s.obj.readBuffer.size)) :
    n < (growFor s n).obj.readBuffer.size := by
  have block := fits.block
  unfold growFor
  split
  · simp only [SockObj.grow, Block.realloc_size]
    omega
  · omega

theorem readBytes_sound {s s' : St α} {n : ℤ} {answers : List Answer} {r : Ret α}
    (sound : s.obj.Sound) (inside : BytesInside s n answers)
    (h : jsSockReadBytes s [n] answers = some (r, s')) : s'.obj.Sound := by
  obtain ⟨low, full⟩ := inside
  have step := jsSockReadBytes_spec h
  have grown := growFor_sound n sound
  have pos := growFor_bufferPos s n
  have reach := lt_size_growFor (n := n) sound.fits
  obtain ⟨request, -, block⟩ := growFor_fits (n := n) sound.fits.block
  have missing := growFor_missing s n
  have start := sound.fits.low
  have ask : s.obj.bufferPos < n → s.obj.bufferPos + (growFor s n).missing n ≤ n := fun above => by
    rw [missing]
    exact missing_le start above
  generalize growFor s n = t at step grown pos reach request block missing ask
  have offered : s.obj.bufferPos < n → (t.offeredFor n).safe = true := by
    intro above
    rw [St.offeredFor, Block.touch_safe, pos]
    exact ⟨grown.safe, Block.inside_of_le start (by omega)⟩
  generalize result : (r, s') = out at step
  cases step with
  | served enough =>
    have sound' := takeBytes_sound (s := t.suspend.resume) grown low
      (reach fun all => by have := (full all).1; omega) (fun _ => by dsimp; omega)
    rwa [← result] at sound'
  | failed a asked above got =>
    rw [if_pos (by omega), Prod.mk.injEq] at result
    obtain ⟨rfl, rfl⟩ := result
    exact ⟨⟨grown.fits.low, grown.fits.high, grown.fits.block⟩, offered above⟩
  | short a asked above k data got few =>
    rw [Prod.mk.injEq] at result
    obtain ⟨rfl, rfl⟩ := result
    exact ⟨⟨grown.fits.low, grown.fits.high, grown.fits.block⟩, offered above⟩
  | filled a asked above k data got enough =>
    obtain ⟨-, -, -, -, bound, -, -⟩ := Kernel.read_some got
    have sound' := takeBytes_sound (n := n) (s := ((t.suspend.withKernel k).withBuffer
        ((t.offeredFor n).blit s.obj.bufferPos data)).resume)
      ⟨⟨grown.fits.low, grown.fits.high, grown.fits.block⟩, offered above⟩ low
      (reach fun all => ?_) (fun kept => ?_)
    · rwa [← result] at sound'
    · have few := (full all).2 a asked data (by rw [← missing, got]; rfl)
      omega
    · have kept : 0 < t.obj.bufferPos := kept
      omega

/-! ### `read_ws_packet` -/

/-- What holds at the head of the packet loop. -/
structure PacketRoom (l : WsLoop α) : Prop where
  sound : l.st.obj.Sound
  room : l.total < l.st.obj.bufferSize

omit [Octet α] in
theorem putByte_sound {s : St α} {total : ℕ} {c : α} (sound : s.obj.Sound)
    (room : total < s.obj.bufferSize) :
    (putByte s total c).obj.Sound ∧ total + 1 < (putByte s total c).obj.bufferSize := by
  obtain ⟨roomy, larger, block⟩ := putByte_room (c := c) room sound.fits.block
  have low := sound.fits.low
  have high := sound.fits.high
  refine ⟨⟨⟨?_, ?_, block⟩, ?_⟩, roomy⟩
  · rwa [putByte_bufferPos]
  · rw [putByte_bufferPos]
    omega
  · rw [putByte_safe room sound.fits.block]
    exact sound.safe

/-- Where the packet loop ends: with room for the terminator. -/
def PacketEndsSound : WsExit α → Prop
  | .failed s => s.obj.Sound
  | .stopped s total => s.obj.Sound ∧ total < s.obj.bufferSize

theorem packet_ends_sound {l : WsLoop α} {answers rest : List Answer} {e : WsExit α}
    (start : PacketRoom l) (done : feed wsBody l answers = some (e, rest)) : PacketEndsSound e := by
  refine feed_inv PacketRoom PacketEndsSound ?_ ?_ start done
  · intro l a e h hbody
    have step := wsBody_spec l a
    rw [hbody] at step
    cases step with
    | failed got => exact h.sound
    | ended k got => exact ⟨h.sound, h.room⟩
    | closed k c got inside last =>
      obtain ⟨sound, roomy⟩ := putByte_sound (s := l.st.withKernel k) (c := c) h.sound h.room
      exact ⟨sound, by omega⟩
  · intro l a l' h hbody
    have step := wsBody_spec l a
    rw [hbody] at step
    cases step with
    | sync k c got waiting => exact ⟨h.sound, h.room⟩
    | stored k c got inside more =>
      obtain ⟨sound, roomy⟩ := putByte_sound (s := l.st.withKernel k) (c := c) h.sound h.room
      exact ⟨sound, roomy⟩

theorem readWsPacket_sound {s s' : St α} {answers : List Answer} {r : Ret α} (sound : s.obj.Sound)
    (h : jsSockReadWsPacket s answers = some (r, s')) : s'.obj.Sound := by
  have two := s.obj.room
  have start : PacketRoom { st := s.suspend, synced := false, total := 0 } :=
    ⟨sound, by dsimp only [St.suspend_obj]; omega⟩
  have step := jsSockReadWsPacket_spec h
  cases step with
  | failed t rest done => exact packet_ends_sound start done
  | stopped t total rest done =>
    obtain ⟨sound', roomy⟩ := packet_ends_sound start done
    have block := sound'.fits.block
    have text : (cString (t.obj.readBuffer.store total nul)).length ≤ total := by
      rw [cString_of_nul (p := total) (by rw [Block.store_size]; omega) (by simp)]
      exact (List.takeWhile_sublist _).length_le.trans (by rw [Block.slice_length])
    refine ⟨⟨sound'.fits.low, sound'.fits.high, sound'.fits.block⟩, ?_⟩
    dsimp only [St.withBuffer_obj]
    rw [Block.touch_safe, Block.store_safe, Block.store_size]
    exact ⟨⟨sound'.safe, Block.inside_of_le (by omega) (by omega)⟩,
      Block.inside_of_le le_rfl (by omega)⟩

/-! ### Runs -/

theorem call_sound {s s' : St α} {op : Op α} {r : Ret α} (sound : s.obj.Sound)
    (inside : StaysInside s op) (h : op.call s = some (r, s')) : s'.obj.Sound := by
  by_cases touches : op.TouchesBuffer
  · cases op with
    | reader reader answers =>
      cases reader with
      | read => exact read_sound sound inside.1 inside.2 h
      | readBytes n => exact readBytes_sound sound inside h
      | readWsPacket => exact readWsPacket_sound sound h
      | readEatonPacket stack => exact touches.elim
    | _ => exact touches.elim
  · exact (call_sameBuffer touches h).sound sound

omit [Octet α] in
theorem start_sound (heap : ℕ → ℤ → α) (argv : List Jsval) (k : Kernel α) :
    (St.start heap argv k).obj.Sound :=
  ⟨jsSockConstruct_fits heap argv, jsSockConstruct_safe heap argv⟩

/-- In every run of methods whose calls meet the condition, the buffer's bookkeeping agrees with
its allocation after every call, and every access has been inside. -/
theorem calls_stay_inside (heap : ℕ → ℤ → α) (argv : List Jsval) (k : Kernel α)
    (calls : List (Op α)) (inside : Guarded Op.call StaysInside (St.start heap argv k) calls) :
    Along Op.call (fun _ _ _ s' => s'.obj.Sound) (St.start heap argv k) calls :=
  Guarded.along (fun s => s.obj.Sound)
    (fun _ _ _ _ sound hinside h => ⟨call_sound sound hinside h, call_sound sound hinside h⟩)
    (start_sound heap argv k) inside

/-- A line, a byte, and the end of the connection. -/
theorem calls_stay_inside_line_and_byte :
    Along Op.call (fun _ _ _ s' => s'.obj.Sound)
      (St.start (fun _ _ => (0 : UInt8)) [.int 5] (.stream 5 [97, 10, 98]))
      [.reader .read [.upTo 2], .reader (.readBytes 1) [.upTo 1], .close] := by
  refine calls_stay_inside _ _ _ _ (guarded_cons ⟨?_, fun _ => feedAll_singleton.2 ?_⟩
    (guarded_cons ⟨by decide, fun full => ?_⟩ (guarded_cons trivial trivial)))
  · intro kept
    exact absurd kept (by decide)
  · exact Or.inl ⟨10, by decide +kernel, by decide⟩
  · exact absurd full (by decide +kernel)

/-- `readBytes(-1)` stores a byte in front of the buffer. -/
theorem calls_stay_inside_not_negative :
    ¬ Along Op.call (fun _ _ _ s' => s'.obj.Sound)
      (St.start (fun _ _ => (0 : UInt8)) [] (.stream 5 [])) [.reader (.readBytes (-1)) []] :=
  not_along_of_last (fun _ _ x => x.2.obj.readBuffer.safe) (fun _ _ _ _ h => h.safe) []
    (Op.reader (.readBytes (-1)) []) rfl (by decide +kernel)

/-! ### The block is never smaller than `buffer_size` says -/

/-- The allocation of the buffer is at least what is recorded. -/
def SockObj.Backed (o : SockObj α) : Prop := o.bufferSize ≤ o.readBuffer.size

omit [Octet α] in
theorem SameBuffer.backed {o o' : SockObj α} (same : SameBuffer o o') (backed : o.Backed) :
    o'.Backed := by
  unfold SockObj.Backed
  rw [same.readBuffer, same.bufferSize]
  exact backed

theorem bufferedLine_backed {o : SockObj α} (backed : o.Backed) : (bufferedLine o).2.Backed := by
  have step := bufferedLine_spec o
  generalize bufferedLine o = result at step ⊢
  cases step <;> simpa [SockObj.Backed] using backed

theorem finishLine_backed {s : St α} (p : ℤ) (ret : ℕ) (backed : s.obj.Backed) :
    (finishLine s p ret).2.obj.Backed := by
  unfold finishLine
  dsimp only
  split
  · split <;> simpa [SockObj.Backed] using backed
  · exact backed

theorem read_backed {s s' : St α} {answers : List Answer} {r : Ret α} (backed : s.obj.Backed)
    (h : jsSockRead s answers = some (r, s')) : s'.obj.Backed := by
  have scanned := bufferedLine_backed backed
  have ends : ∀ e rest, feed recvBody s.receiving answers = some (e, rest) → e.st.obj.Backed := by
    intro e rest done
    refine feed_inv (fun t => t.obj.Backed) (fun e => e.st.obj.Backed) ?_ ?_ scanned done
    · intro t a e h body
      have step := recvBody_spec t a
      rw [body] at step
      cases step <;> exact h
    · intro t a t' h body
      have step := recvBody_spec t a
      rw [body] at step
      cases step
      exact le_rfl
  have step := jsSockRead_spec h
  cases step with
  | served line o found =>
    rw [found] at scanned
    exact scanned
  | failed nothing t rest done => exact ends _ _ done
  | stopped nothing t p ret rest finish done =>
    have finished := finishLine_backed (s := t.resume) p ret (ends _ _ done)
    rwa [finish] at finished

theorem takeBytes_backed {s : St α} (n : ℤ) (backed : s.obj.Backed) :
    (takeBytes s n).2.obj.Backed := by
  unfold takeBytes
  dsimp only
  split <;> simpa [SockObj.Backed] using backed

theorem readBytes_backed {s s' : St α} {n : ℤ} {answers : List Answer} {r : Ret α}
    (backed : s.obj.Backed) (h : jsSockReadBytes s [n] answers = some (r, s')) :
    s'.obj.Backed := by
  have grown : (growFor s n).obj.Backed := (growFor_fits (n := n) backed).2.2
  have step := jsSockReadBytes_spec h
  generalize growFor s n = t at step grown
  generalize result : (r, s') = out at step
  have eq : s' = out.2 := by rw [← result]
  rw [eq]
  cases step with
  | served enough => exact takeBytes_backed n grown
  | failed a asked above got =>
    split
    · exact grown
    · exact takeBytes_backed n grown
  | short a asked above k data got few => exact grown
  | filled a asked above k data got enough => exact takeBytes_backed n grown

theorem readWsPacket_backed {s s' : St α} {answers : List Answer} {r : Ret α}
    (backed : s.obj.Backed) (h : jsSockReadWsPacket s answers = some (r, s')) :
    s'.obj.Backed := by
  have ends : ∀ e rest, feed wsBody { st := s.suspend, synced := false, total := 0 } answers =
      some (e, rest) → e.st.obj.Backed := by
    intro e rest done
    refine feed_inv (fun l => l.st.obj.Backed) (fun e => e.st.obj.Backed) ?_ ?_ backed done
    · intro l a e h body
      have step := wsBody_spec l a
      rw [body] at step
      cases step with
      | failed got => exact h
      | ended k got => exact h
      | closed k c got inside last => exact putByte_size (s := l.st.withKernel k) h
    · intro l a l' h body
      have step := wsBody_spec l a
      rw [body] at step
      cases step with
      | sync k c got waiting => exact h
      | stored k c got inside more => exact putByte_size (s := l.st.withKernel k) h
  have step := jsSockReadWsPacket_spec h
  cases step with
  | failed t rest done => exact ends _ _ done
  | stopped t total rest done => exact ends _ _ done

/-- Every call keeps the allocation of the buffer at least as large as recorded. -/
theorem call_backed {s s' : St α} {op : Op α} {r : Ret α} (backed : s.obj.Backed)
    (h : op.call s = some (r, s')) : s'.obj.Backed := by
  by_cases touches : op.TouchesBuffer
  · cases op with
    | reader reader answers =>
      cases reader with
      | read => exact read_backed backed h
      | readBytes n => exact readBytes_backed backed h
      | readWsPacket => exact readWsPacket_backed backed h
      | readEatonPacket stack => exact touches.elim
    | _ => exact touches.elim
  · exact (call_sameBuffer touches h).backed backed

theorem St.Reachable.backed {s : St α} (reached : s.Reachable) : s.obj.Backed := by
  obtain ⟨heap, argv, k, calls, rfl⟩ := reached
  exact final_inv (fun s : St α => s.obj.Backed) (fun _ _ _ _ backed h => call_backed backed h)
    calls (jsSockConstruct_fits heap argv).block

end Sysjs
