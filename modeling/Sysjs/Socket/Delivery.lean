import Sysjs.Socket.Channel

/-!
# What arrives on a connection

The invariant follows the bytes: what one script has written is what the other has read, then what
its descriptor has pending, then what is still on its way.  What it has read is where a receiver of
packets is after those bytes.
-/

set_option autoImplicit false

namespace Sysjs.Channel

open Interleaving Delimited Receiver

/-- The byte behind a packet. -/
def isEnd (x : UInt8) : Bool := x == 0xff

/-- A receiver of WebSocket packets behind these bytes. -/
def decoded (taken : List UInt8) : Receiver UInt8 :=
  Receiver.start.decode isNul isEnd taken

/-- The string a script gets for a payload. -/
def text (payload : List UInt8) : List UInt16 := ofBytes (cut payload)

/-- The string a script gets for one that was written. -/
def received (chars : List UInt16) : List UInt16 :=
  ofBytes (Receiver.received isEnd (getStringBytes chars))

/-- A string comes through as it was when its characters are bytes other than the delimiters. -/
theorem received_eq_iff (chars : List UInt16) :
    received chars = chars ↔ ∀ c ∈ chars, c ≤ 255 ∧ c ≠ 0 ∧ c ≠ 255 := by
  constructor
  · intro same c hc
    rw [← same] at hc
    obtain ⟨b, hb, rfl⟩ := List.mem_map.1 hc
    have payload : b ≠ 0xff := by simpa [isEnd] using List.mem_takeWhile_imp hb
    have clean : isNul b = false :=
      not_isNul_of_mem_getStringBytes ((List.takeWhile_sublist _).subset hb)
    refine ⟨?_, ?_, ?_⟩
    · have := b.toNat_lt
      rw [UInt16.le_iff_toNat_le, UInt8.toNat_toUInt16]
      exact Nat.le_of_lt_succ this
    · rintro zero
      obtain rfl : b = 0 := UInt8.toUInt16_inj.1 zero
      cases clean
    · exact fun closing => payload (UInt8.toUInt16_inj.1 closing)
  · intro plain
    have small : ∀ c ∈ chars, c ≤ 255 := fun c hc => (plain c hc).1
    have zero : 0 ∉ chars := fun mem => (plain 0 mem).2.1 rfl
    have delimiter : 255 ∉ chars := fun mem => (plain 255 mem).2.2 rfl
    have whole : Receiver.received isEnd (getStringBytes chars) =
        (getStringBytes chars : List UInt8) :=
      List.takeWhile_eq_self_iff.2 fun x hx => by
        simpa [isEnd] using ne_closing_of_mem_getStringBytes small zero delimiter x hx
    rw [received, whole, getStringBytes_of_not_mem small zero, ofBytes_map small]

/-- What a receiver makes of whole packets. -/
theorem decoded_frames (wrote : List (List UInt16)) :
    (decoded (wrote.map frame).flatten).holds = none ∧
      (decoded (wrote.map frame).flatten).packets.map text = wrote.map received := by
  have stream : wrote.map frame =
      (wrote.map fun chars => (getStringBytes chars : List UInt8)).map
        fun body => 0 :: (body ++ [0xff]) := by
    rw [List.map_map]
    rfl
  have plain : ∀ body ∈ wrote.map fun chars => (getStringBytes chars : List UInt8),
      ∀ x ∈ body, isNul x = false := by
    intro body mem x hx
    obtain ⟨chars, -, rfl⟩ := List.mem_map.1 mem
    exact not_isNul_of_mem_getStringBytes hx
  rw [stream, decoded, decode_packets rfl rfl (by decide) (by decide) plain]
  refine ⟨rfl, ?_⟩
  rw [start, List.nil_append, List.map_map, List.map_map]
  refine List.map_congr_left fun chars _ => ?_
  have clean : ∀ x ∈ Receiver.received isEnd (getStringBytes chars),
      isNul x = false := fun x hx =>
    not_isNul_of_mem_getStringBytes ((List.takeWhile_sublist _).subset hx)
  change ofBytes (cut (Receiver.received isEnd (getStringBytes chars))) = _
  rw [cut_of_not_isNul clean, received]

/-! ### One end -/

/-- The bytes of the packet the script is in. -/
def End.holds (e : End) : Option (List UInt8) :=
  match e.reading with
  | some (true, total) => some (e.st.obj.readBuffer.slice 0 total)
  | _ => none

/-- The descriptor is open, and the read buffer has room for the next byte and a terminator. -/
structure Sane (e : End) : Prop where
  opened : ∃ d, e.st.kernel.desc e.st.obj.sock = some d ∧ d.kind ≠ .listening
  fits : e.st.obj.bufferSize ≤ e.st.obj.readBuffer.size
  safe : e.st.obj.readBuffer.safe = true
  room : ∀ synced total, e.reading = some (synced, total) → total < e.st.obj.bufferSize

/-- The script has read the bytes `taken`, and then the end of the stream `ends` times. -/
structure Reads (e : End) (taken : List UInt8) (ends : ℕ) : Prop where
  holds : (decoded taken).holds = e.holds
  between : ∀ total, e.reading = some (false, total) → total = 0
  got : e.got = (decoded taken).packets.map text ++ List.replicate ends []

/-- Nothing has changed for the other end. -/
structure Same (e e' : End) : Prop where
  sent : e'.st.sent = e.st.sent
  wrote : e'.wrote = e.wrote
  gone : e'.gone = e.gone

theorem sent_of_desc {s : St UInt8} {d : Desc UInt8} (opened : s.kernel.desc s.obj.sock = some d) :
    s.sent = d.sent := by
  simp [St.sent, opened]

theorem pending_of_desc {s : St UInt8} {d : Desc UInt8}
    (opened : s.kernel.desc s.obj.sock = some d) : s.pending = d.pending :=
  Kernel.pending_of_desc opened

/-- A `read` of one byte takes the next pending byte, if there is one. -/
theorem read_next {s : St UInt8} {d : Desc UInt8} (opened : s.kernel.desc s.obj.sock = some d)
    (stream : d.kind ≠ .listening) {a : Answer} (answered : a ≠ .fail) :
    ∃ k, s.kernel.read s.obj.sock 1 a = (some (d.pending.take 1), k) ∧
      k.desc s.obj.sock = some { d with pending := d.pending.drop 1 } := by
  cases a with
  | fail => exact absurd rfl answered
  | upTo n =>
    have one : d.pending.take (min (max n 1) (min 1 d.pending.length)) = d.pending.take 1 ∧
        d.pending.drop (min (max n 1) (min 1 d.pending.length)) = d.pending.drop 1 := by
      cases d.pending with
      | nil => simp
      | cons c rest =>
        rw [show min (max n 1) (min 1 (c :: rest).length) = 1 by simp]
        exact ⟨rfl, rfl⟩
    refine ⟨_, one.1 ▸ Kernel.read_of_stream opened stream (by omega) n, ?_⟩
    rw [Kernel.desc_set_self (Kernel.nonneg_of_desc opened), one.2]

theorem sent_of_desc_eq {s t : St UInt8} {d : Desc UInt8} {bytes : List UInt8}
    (before : s.kernel.desc s.obj.sock = some d)
    (after : t.kernel.desc t.obj.sock = some { d with pending := bytes }) : t.sent = s.sent := by
  rw [sent_of_desc before, sent_of_desc after]

@[simp] theorem round_arrived (e : End) (synced : Bool) (total : ℕ) (a : Answer) :
    (e.round synced total a).arrived = e.arrived := by
  unfold End.round
  split
  · rfl
  · unfold End.returned
    split <;> rfl

section Rounds

variable {e : End} {synced : Bool} {total ends : ℕ} {taken : List UInt8} {a : Answer}

/-- What `read_ws_packet` returns when its loop stops behind a payload that is stored. -/
theorem finish_stopped (t : St UInt8) (total : ℕ) (payload : List UInt8)
    (inside : total < t.obj.readBuffer.size)
    (stored : t.obj.readBuffer.slice 0 total = payload)
    (safe : t.obj.readBuffer.safe = true) :
    ∃ u, WsExit.finish (.stopped t total) = (.done (.string (cut payload)), u) ∧
      u.kernel = t.kernel ∧ u.obj.sock = t.obj.sock ∧ u.obj.bufferSize = t.obj.bufferSize ∧
      u.obj.readBuffer.size = t.obj.readBuffer.size ∧ u.obj.readBuffer.safe = true := by
  have string : cString (t.obj.readBuffer.store total nul) = cut payload := by
    rw [cString_of_nul (by rwa [Block.store_size]) (by simp),
      Block.slice_store_ne _ _ (Or.inr (by omega)), stored]
  have short : (cut payload).length ≤ total := by
    have part : (cut payload).length ≤ payload.length := (List.takeWhile_sublist _).length_le
    rwa [← stored, Block.slice_length, stored] at part
  refine ⟨t.resume.withBuffer ((t.obj.readBuffer.store total nul).touch 0
    ((cut payload).length + 1)), by rw [WsExit.finish, string], rfl, rfl, rfl, rfl, ?_⟩
  simp only [St.withBuffer_obj, Block.touch_safe, Block.store_safe, Block.store_size]
  exact ⟨⟨safe, Block.inside_of_le (by omega) (by omega)⟩,
    Block.inside_of_le le_rfl (by omega)⟩

/-- A round that is given the next pending byte. -/
theorem round_of_byte (sane : Sane e) (reading : e.reading = some (synced, total)) {c : UInt8}
    {rest : List UInt8} (next : e.st.pending = c :: rest) (answered : a ≠ .fail)
    (reads : Reads e taken 0) :
    Sane (e.round synced total a) ∧ Reads (e.round synced total a) (taken ++ [c]) 0 ∧
      (e.round synced total a).st.pending = rest ∧ Same e (e.round synced total a) := by
  obtain ⟨d, opened, stream⟩ := sane.opened
  rw [pending_of_desc opened] at next
  obtain ⟨k, got, after⟩ := read_next opened stream answered
  rw [next, List.take_succ_cons, List.take_zero] at got
  rw [next, List.drop_succ_cons, List.drop_zero] at after
  have room := sane.room synced total reading
  have held := reads.holds
  have behind : decoded (taken ++ [c]) = (decoded taken).take isNul isEnd c := decode_concat _ _ _
  cases synced with
  | false =>
    have between : (decoded taken).holds = none := by rw [held, End.holds, reading]
    have round : e.round false total a =
        { e with st := e.st.withKernel k, reading := some (isNul c, total) } := by
      rw [End.round, wsBody_of_waiting got rfl]
    rw [round]
    refine ⟨⟨⟨_, after, stream⟩, sane.fits, sane.safe, ?_⟩, ?_,
      pending_of_desc (s := e.st.withKernel k) after,
      ⟨sent_of_desc_eq opened after, rfl, rfl⟩⟩
    · rintro _ _ same
      obtain ⟨-, rfl⟩ := Prod.mk.inj (Option.some.inj same)
      exact room
    · obtain rfl := reads.between total reading
      cases opening : isNul c with
      | false =>
        rw [take_of_between between opening] at behind
        refine ⟨by rw [behind, between]; rfl, fun _ same => ?_, by rw [behind]; exact reads.got⟩
        exact (Prod.mk.inj (Option.some.inj same)).2.symm
      | true =>
        rw [take_of_open between opening] at behind
        refine ⟨by rw [behind]; rfl, fun _ same => ?_, by rw [behind]; exact reads.got⟩
        cases same
  | true =>
    have inside : (decoded taken).holds = some (e.st.obj.readBuffer.slice 0 total) := by
      rw [held, End.holds, reading]
    obtain ⟨roomy, -, fits⟩ := putByte_room (s := e.st.withKernel k) (c := c) room sane.fits
    have safe := (putByte_safe (s := e.st.withKernel k) (c := c) room sane.fits).trans sane.safe
    have slice := putByte_slice (s := e.st.withKernel k) (c := c) room sane.fits
    have kernel : (putByte (e.st.withKernel k) total c).kernel.desc
        (putByte (e.st.withKernel k) total c).obj.sock = some { d with pending := rest } := by
      rw [putByte_kernel, putByte_sock]
      exact after
    by_cases last : c = 0xff
    · have stored : (putByte (e.st.withKernel k) total c).obj.readBuffer.slice 0 total =
          e.st.obj.readBuffer.slice 0 total := by
        rw [Block.slice_succ] at slice
        exact (List.append_inj_left' slice rfl)
      obtain ⟨u, finish, kernel_u, sock_u, size_u, block_u, safe_u⟩ :=
        finish_stopped _ total _ (by omega) stored safe
      have round : e.round true total a =
          { e with
            st := u, reading := none,
            got := e.got ++ [ofBytes (cut (e.st.obj.readBuffer.slice 0 total))] } := by
        simp only [End.round, wsBody_of_closing (l := ⟨e.st, true, total⟩) got rfl last, finish,
          End.returned]
      have after_u : u.kernel.desc u.obj.sock = some { d with pending := rest } := by
        rw [kernel_u, sock_u]
        exact kernel
      have closing : isEnd c = true := by simp [isEnd, last]
      rw [take_of_close inside closing] at behind
      rw [round]
      refine ⟨⟨⟨_, after_u, stream⟩, by rw [size_u, block_u]; exact fits, safe_u,
        fun _ _ same => absurd same.symm (Option.some_ne_none _)⟩,
        ⟨by rw [behind]; rfl, fun _ same => absurd same.symm (Option.some_ne_none _), ?_⟩,
        pending_of_desc after_u, ⟨sent_of_desc_eq opened after_u, rfl, rfl⟩⟩
      rw [behind]
      simp [reads.got, text]
    · have round : e.round true total a =
          { e with
            st := putByte (e.st.withKernel k) total c, reading := some (true, total + 1) } := by
        simp only [End.round, wsBody_of_payload (l := ⟨e.st, true, total⟩) got rfl last]
      have payload : isEnd c = false := by simpa [isEnd] using last
      rw [take_of_payload inside payload] at behind
      rw [round]
      refine ⟨⟨⟨_, kernel, stream⟩, fits, safe, ?_⟩, ⟨?_, fun _ same => ?_, ?_⟩,
        pending_of_desc kernel, ⟨sent_of_desc_eq opened kernel, rfl, rfl⟩⟩
      · rintro _ _ same
        obtain ⟨-, rfl⟩ := Prod.mk.inj (Option.some.inj same)
        exact roomy
      · rw [behind, End.holds]
        exact congrArg some slice.symm
      · cases same
      · rw [behind]
        exact reads.got

/-- A round at the end of the stream, between two packets. -/
theorem round_of_end (sane : Sane e) (reading : e.reading = some (synced, total))
    (next : e.st.pending = []) (answered : a ≠ .fail) (between : (decoded taken).holds = none)
    (reads : Reads e taken ends) :
    Sane (e.round synced total a) ∧ Reads (e.round synced total a) taken (ends + 1) ∧
      (e.round synced total a).st.pending = [] ∧ Same e (e.round synced total a) := by
  obtain ⟨d, opened, stream⟩ := sane.opened
  rw [pending_of_desc opened] at next
  obtain ⟨k, got, after⟩ := read_next opened stream answered
  rw [next] at got after
  have held := reads.holds
  rw [between, End.holds, reading] at held
  cases synced with
  | true => cases held
  | false =>
    obtain rfl := reads.between total reading
    have two := e.st.obj.room
    have fits := sane.fits
    obtain ⟨u, finish, kernel_u, sock_u, size_u, block_u, safe_u⟩ :=
      finish_stopped (e.st.withKernel k) 0 [] (by rw [St.withKernel_obj]; omega) rfl sane.safe
    have round : e.round false 0 a =
        { e with st := u, reading := none, got := e.got ++ [[]] } := by
      simp only [End.round, wsBody_of_ended (l := ⟨e.st, false, 0⟩) got, finish, End.returned]
      rfl
    have after_u : u.kernel.desc u.obj.sock = some { d with pending := [] } := by
      rw [kernel_u, sock_u]
      exact after
    rw [round]
    refine ⟨⟨⟨_, after_u, stream⟩, by rw [size_u, block_u]; exact fits, safe_u,
      fun _ _ same => absurd same.symm (Option.some_ne_none _)⟩,
      ⟨between, fun _ same => absurd same.symm (Option.some_ne_none _), ?_⟩,
      pending_of_desc after_u, ⟨sent_of_desc_eq opened after_u, rfl, rfl⟩⟩
    rw [reads.got, List.replicate_succ', ← List.append_assoc]

end Rounds

/-! ### Both ends -/

/-- What `snd` has written: the bytes `taken` that `rcv` has read, those its descriptor has
pending, and those on their way. -/
structure Way (snd rcv : End) (taken : List UInt8) (ends : ℕ) : Prop where
  frames : snd.st.sent = (snd.wrote.map frame).flatten
  carried : taken ++ rcv.st.pending ++ flight snd rcv = snd.st.sent
  arrived : rcv.arrived = (taken ++ rcv.st.pending).length
  reads : Reads rcv taken ends
  finished : ends = 0 ∨ snd.gone = true ∧ taken = snd.st.sent

/-- Both directions. -/
def Inv (link : Link) : Prop :=
  ∀ p, Sane (link p) ∧ ∃ taken ends, Way (link !p) (link p) taken ends

variable {snd snd' rcv rcv' : End} {taken : List UInt8} {ends : ℕ}

theorem Way.arrived_le (w : Way snd rcv taken ends) : rcv.arrived ≤ snd.st.sent.length := by
  rw [w.arrived, ← w.carried]
  exact (List.prefix_append _ _).length_le

theorem Way.of_same (w : Way snd rcv taken ends) (same : Same snd snd') :
    Way snd' rcv taken ends where
  frames := by rw [same.sent, same.wrote, w.frames]
  carried := by rw [flight, same.sent, ← flight, w.carried]
  arrived := w.arrived
  reads := w.reads
  finished := by rw [same.gone, same.sent]; exact w.finished

theorem Way.of_reads (w : Way snd rcv taken ends) (pending : rcv'.st.pending = rcv.st.pending)
    (arrived : rcv'.arrived = rcv.arrived) (reads : Reads rcv' taken ends) :
    Way snd rcv' taken ends where
  frames := w.frames
  carried := by rw [pending, flight, arrived, ← flight, w.carried]
  arrived := by rw [arrived, pending, w.arrived]
  reads := reads
  finished := w.finished

theorem Way.exit (w : Way snd rcv taken ends) (st : snd'.st = snd.st)
    (wrote : snd'.wrote = snd.wrote) (gone : snd'.gone = true) : Way snd' rcv taken ends where
  frames := by rw [st, wrote, w.frames]
  carried := by rw [flight, st, ← flight, w.carried]
  arrived := w.arrived
  reads := w.reads
  finished := by
    rw [gone, st]
    exact w.finished.imp_right fun all => ⟨rfl, all.2⟩

theorem Way.all (w : Way snd rcv taken ends) (pending : rcv.st.pending = [])
    (none : flight snd rcv = []) :
    taken = snd.st.sent ∧ (decoded taken).holds = Option.none ∧
      (decoded taken).packets.map text = snd.wrote.map received := by
  have whole : taken = snd.st.sent := by
    rw [← w.carried, pending, none, List.append_nil, List.append_nil]
  have frames := decoded_frames snd.wrote
  rw [← w.frames, ← whole] at frames
  exact ⟨whole, frames⟩

theorem Way.not_ended (w : Way snd rcv taken ends) {c : UInt8} {rest : List UInt8}
    (next : rcv.st.pending = c :: rest) : ends = 0 := by
  rcases w.finished with none | ⟨-, all⟩
  · exact none
  · have carried := congrArg List.length w.carried
    rw [← all, next, List.length_append, List.length_append, List.length_cons] at carried
    omega

theorem Way.read (w : Way snd rcv taken ends) {c : UInt8} {rest : List UInt8}
    (next : rcv.st.pending = c :: rest) (pending : rcv'.st.pending = rest)
    (arrived : rcv'.arrived = rcv.arrived) (reads : Reads rcv' (taken ++ [c]) 0) :
    Way snd rcv' (taken ++ [c]) 0 := by
  have same : taken ++ [c] ++ rest = taken ++ rcv.st.pending := by simp [next]
  refine ⟨w.frames, ?_, ?_, reads, Or.inl rfl⟩
  · rw [pending, same, flight, arrived, ← flight, w.carried]
  · rw [arrived, pending, same, w.arrived]

/-- An end has changed, and with it the two directions. -/
theorem Inv.update {link : Link} (inv : Inv link) {p : Bool} {e : End} (sane : Sane e)
    (into : ∃ taken ends, Way (link !p) e taken ends)
    (out : ∀ taken ends, Way (link p) (link !p) taken ends → Way e (link !p) taken ends) :
    Inv (Function.update link p e) := by
  have other : Function.update link p e (!p) = link !p :=
    Function.update_of_ne (by cases p <;> decide) _ _
  intro q
  by_cases here : q = p
  · subst here
    rw [Function.update_self, other]
    exact ⟨sane, into⟩
  · obtain rfl : q = !p := by cases p <;> cases q <;> simp_all
    obtain ⟨sane', taken, ends, way⟩ := inv (!p)
    rw [Bool.not_not] at way ⊢
    rw [other, Function.update_self]
    exact ⟨sane', taken, ends, out taken ends way⟩

/-! ### The moves -/

/-- A packet whose three writes are complete goes out. -/
theorem writeWsPacket_complete {s : St UInt8} {d : Desc UInt8} {chars : List UInt16}
    {answers : List Answer} (opened : s.kernel.desc s.obj.sock = some d)
    (stream : d.kind ≠ .listening) (complete : CompleteWrites chars answers) :
    ∃ k, jsSockWriteWsPacket s [chars] answers =
        some (.done .void, (s.suspend.withKernel k).resume) ∧
      k.desc s.obj.sock = some { d with sent := d.sent ++ frame chars } := by
  obtain ⟨n₀, n₁, n₂, rest, rfl, first, second, third⟩ := complete
  obtain ⟨k₀, write₀, opened₀⟩ := Kernel.write_complete [nul] opened stream first
  obtain ⟨k₁, write₁, opened₁⟩ :=
    Kernel.write_complete (getStringBytes chars) opened₀ stream second
  obtain ⟨k₂, write₂, opened₂⟩ := Kernel.write_complete [Octet.lit 0xff] opened₁ stream third
  refine ⟨k₂, ?_, ?_⟩
  · simp only [jsSockWriteWsPacket, write₀, write₁, write₂, ne_eq, not_true_eq_false, if_false]
  · rw [opened₂]
    simp only [List.append_assoc]
    rfl

/-- What is written is on its way behind everything before. -/
theorem write_sends {e : End} {chars : List UInt16} {answers : List Answer} (sane : Sane e)
    (complete : CompleteWrites chars answers) :
    ∃ t, e.write chars answers = some { e with st := t, wrote := e.wrote ++ [chars] } ∧
      Sane { e with st := t, wrote := e.wrote ++ [chars] } ∧ t.pending = e.st.pending ∧
      t.sent = e.st.sent ++ frame chars ∧ t.obj = e.st.obj := by
  obtain ⟨d, opened, stream⟩ := sane.opened
  obtain ⟨k, wrote, after⟩ := writeWsPacket_complete opened stream complete
  refine ⟨(e.st.suspend.withKernel k).resume, by simp only [End.write, wrote],
    ⟨⟨_, after, stream⟩, sane.fits, sane.safe, sane.room⟩, ?_, ?_, rfl⟩
  · have pending := pending_of_desc (s := (e.st.suspend.withKernel k).resume) after
    rw [pending_of_desc opened, pending]
  · rw [sent_of_desc opened]
    exact sent_of_desc (s := (e.st.suspend.withKernel k).resume) after

theorem Way.write (w : Way snd rcv taken ends) {chars : List UInt16}
    (sent : snd'.st.sent = snd.st.sent ++ frame chars) (wrote : snd'.wrote = snd.wrote ++ [chars])
    (here : snd.gone = false) : Way snd' rcv taken ends where
  frames := by simp [sent, wrote, w.frames]
  carried := by
    rw [flight, sent, List.drop_append_of_le_length w.arrived_le, ← flight, ← List.append_assoc,
      w.carried]
  arrived := w.arrived
  reads := w.reads
  finished := by
    rcases w.finished with none | ⟨gone, -⟩
    · exact Or.inl none
    · rw [here] at gone
      cases gone

/-- What the system delivers is pending behind everything before. -/
theorem deliver_opened {s : St UInt8} {d : Desc UInt8} (data : List UInt8)
    (opened : s.kernel.desc s.obj.sock = some d) :
    (deliver s data).obj = s.obj ∧
      (deliver s data).kernel.desc (deliver s data).obj.sock =
        some { d with pending := d.pending ++ data } ∧
      (deliver s data).pending = s.pending ++ data ∧ (deliver s data).sent = s.sent := by
  have obj : (deliver s data).obj = s.obj := by
    simp only [deliver, opened]
    rfl
  have after : (deliver s data).kernel.desc (deliver s data).obj.sock =
      some { d with pending := d.pending ++ data } := by
    rw [obj]
    simp only [deliver, opened]
    exact Kernel.desc_set_self (Kernel.nonneg_of_desc opened) _
  refine ⟨obj, after, ?_, sent_of_desc_eq opened after⟩
  rw [pending_of_desc after, pending_of_desc opened]

theorem flight_deliver {data more : List UInt8} (split : flight snd rcv = data ++ more)
    (arrived : rcv'.arrived = rcv.arrived + data.length) : flight snd rcv' = more := by
  rw [flight, arrived, ← List.drop_drop, ← flight, split, List.drop_left]

/-- More bytes come in. -/
theorem Way.deliver (w : Way snd rcv taken ends) {data more : List UInt8}
    (split : flight snd rcv = data ++ more) (pending : rcv'.st.pending = rcv.st.pending ++ data)
    (arrived : rcv'.arrived = rcv.arrived + data.length) (reads : Reads rcv' taken ends) :
    Way snd rcv' taken ends where
  frames := w.frames
  carried := by
    rw [pending, flight_deliver split arrived, ← w.carried, split]
    simp
  arrived := by
    rw [arrived, pending, w.arrived, ← List.length_append]
    simp
  reads := reads
  finished := w.finished

/-- Every move keeps the invariant. -/
theorem step_inv {link link' : Link} {m : Move} (inv : Inv link) (fair : m.Fair)
    (h : step link m = some link') : Inv link' := by
  cases m with
  | write p chars answers =>
    obtain ⟨sane, taken, ends, w⟩ := inv p
    obtain ⟨t, wrote, sane', pending, sent, obj⟩ := write_sends sane fair
    rw [step, wrote] at h
    split at h
    · cases h
    · next here =>
      rw [← Option.some.inj h]
      have reads : Reads { link p with st := t, wrote := (link p).wrote ++ [chars] } taken ends :=
        ⟨by rw [w.reads.holds, End.holds, End.holds, obj], w.reads.between, w.reads.got⟩
      exact inv.update sane' ⟨taken, ends, w.of_reads pending rfl reads⟩
        fun _ _ w => w.write sent rfl (by simpa using here)
  | call p =>
    obtain ⟨sane, taken, ends, w⟩ := inv p
    rw [step] at h
    split at h
    · cases h
    · next idle =>
      have none : (link p).reading = none := by
        cases reading : (link p).reading <;> simp_all
      have two := (link p).st.obj.room
      rw [← Option.some.inj h]
      refine inv.update ⟨sane.opened, sane.fits, sane.safe, ?_⟩
        ⟨taken, ends, w.of_reads rfl rfl ⟨?_, ?_, w.reads.got⟩⟩
        fun _ _ w => w.of_same ⟨rfl, rfl, rfl⟩
      · rintro _ _ same
        cases same
        exact Nat.lt_of_lt_of_le Nat.zero_lt_two two
      · rw [w.reads.holds, End.holds, none]
        rfl
      · rintro _ same
        cases same
        rfl
  | read p a =>
    obtain ⟨sane, taken, ends, w⟩ := inv p
    rw [step] at h
    split at h
    · next synced total reading =>
      split at h
      · cases h
      · next more =>
        obtain ⟨c, rest, next⟩ := List.exists_cons_of_ne_nil fun none => more (Or.inr none)
        have none := w.not_ended next
        obtain ⟨sane', reads, pending, same⟩ :=
          round_of_byte sane reading next fair (none ▸ w.reads)
        rw [← Option.some.inj h]
        exact inv.update sane' ⟨_, 0, w.read next pending (round_arrived _ _ _ _) reads⟩
          fun _ _ w => w.of_same same
    · cases h
  | ended p a =>
    obtain ⟨sane, taken, ends, w⟩ := inv p
    rw [step] at h
    split at h
    · next synced total reading =>
      split at h
      · cases h
      · next past =>
        simp only [not_or, not_not] at past
        obtain ⟨-, gone, pending, none⟩ := past
        obtain ⟨whole, between, -⟩ := w.all pending none
        obtain ⟨sane', reads, pending', same⟩ :=
          round_of_end sane reading pending fair between w.reads
        rw [← Option.some.inj h]
        refine inv.update sane' ⟨taken, ends + 1, w.frames, ?_, ?_, reads, Or.inr ⟨gone, whole⟩⟩
          fun _ _ w => w.of_same same
        · rw [pending', flight, round_arrived, ← flight, none, ← whole]
          simp
        · rw [round_arrived, pending', w.arrived, pending]
    · cases h
  | deliver p n =>
    obtain ⟨sane, taken, ends, w⟩ := inv p
    obtain ⟨d, opened, stream⟩ := sane.opened
    rw [step] at h
    dsimp only at h
    split at h
    · cases h
    · rw [← Option.some.inj h]
      generalize data_eq : (flight (link !p) (link p)).take (n + 1) = data
      obtain ⟨obj, after, pending, sent⟩ := deliver_opened data opened
      have split : flight (link !p) (link p) =
          data ++ (flight (link !p) (link p)).drop (n + 1) := by
        rw [← data_eq, List.take_append_drop]
      refine inv.update ⟨⟨_, after, stream⟩, ?_, ?_, ?_⟩
        ⟨taken, ends, w.deliver split pending rfl ⟨?_, w.reads.between, w.reads.got⟩⟩
        fun _ _ w => w.of_same ⟨sent, rfl, rfl⟩
      · rw [obj]
        exact sane.fits
      · rw [obj]
        exact sane.safe
      · rw [obj]
        exact sane.room
      · rw [w.reads.holds, End.holds, End.holds, obj]
  | exit p =>
    obtain ⟨sane, taken, ends, w⟩ := inv p
    rw [step] at h
    rw [← Option.some.inj h]
    exact inv.update ⟨sane.opened, sane.fits, sane.safe, sane.room⟩
      ⟨taken, ends, w.of_reads rfl rfl ⟨w.reads.holds, w.reads.between, w.reads.got⟩⟩
      fun _ _ w => w.exit rfl rfl rfl

theorem start_inv (heap : Bool → ℕ → ℤ → UInt8) (fd : Bool → ℕ) : Inv (Link.start heap fd) := by
  intro p
  have opened (p : Bool) :
      (Link.start heap fd p).st.kernel.desc (Link.start heap fd p).st.obj.sock =
      some { kind := .connected, ours := false, pending := [], sent := [] } := by
    simp [Link.start, End.start, St.start, jsSockConstruct, Kernel.desc, Kernel.stream]
  have sent := sent_of_desc (opened !p)
  have pending := pending_of_desc (opened p)
  have idle (loop : Bool × ℕ) : (Link.start heap fd p).reading ≠ some loop :=
    (Option.some_ne_none _).symm
  refine ⟨⟨⟨_, opened p, by decide⟩, le_rfl, rfl, fun _ _ same => absurd same (idle _)⟩, [], 0,
    sent, ?_, ?_, ⟨rfl, fun _ same => absurd same (idle _), rfl⟩, Or.inl rfl⟩
  · rw [pending, flight, sent]
    rfl
  · rw [pending]
    rfl

/-- In every order of writes, calls, reads and deliveries in which no call fails, each script reads
the strings the other wrote, in their order, none of them lost, doubled or mixed up with another;
empty strings follow when the other process is gone and all its strings have been read.  A string
comes through as it is if its characters are bytes other than the two that delimit packets. -/
theorem link_delivers (heap : Bool → ℕ → ℤ → UInt8) (fd : Bool → ℕ) (moves : List Move)
    (link : Link) (fair : ∀ m ∈ moves, m.Fair)
    (run : exec step (Link.start heap fd) moves = some link) (p : Bool) :
    (link p).st.obj.readBuffer.safe = true ∧
      (∃ strings ends, (link p).got = strings ++ List.replicate ends [] ∧
        strings <+: (link !p).wrote.map received ∧
        (ends ≠ 0 → (link !p).gone = true ∧ strings = (link !p).wrote.map received)) ∧
      ∀ chars, received chars = chars ↔ ∀ c ∈ chars, c ≤ 255 ∧ c ≠ 0 ∧ c ≠ 255 := by
  obtain ⟨sane, taken, ends, w⟩ :=
    exec_inv_of_forall Inv Move.Fair (fun _ _ _ inv fair => step_inv inv fair) (start_inv heap fd)
      fair run p
  have all := (decoded_frames (link !p).wrote).2
  rw [← w.frames] at all
  refine ⟨sane.safe, ⟨_, ends, w.reads.got, ?_, fun some_ends => ?_⟩, received_eq_iff⟩
  · have front : taken <+: (link !p).st.sent := by
      rw [← w.carried, List.append_assoc]
      exact List.prefix_append _ _
    rw [← all]
    exact (packets_of_part Receiver.start front).map text
  · rcases w.finished with none | ⟨gone, whole⟩
    · exact absurd none some_ends
    · exact ⟨gone, by rw [whole, all]⟩

/-- The numbers of the descriptors in the two processes. -/
def fds (p : Bool) : ℕ := if p then 5 else 6

/-- A string of two characters, written whole. -/
def written (p : Bool) (chars : List UInt16) : Move := .write p chars [.upTo 1, .upTo 2, .upTo 1]

theorem written_fair (p : Bool) (c₀ c₁ : UInt16) : (written p [c₀, c₁]).Fair := by
  refine ⟨1, 2, 1, [], rfl, le_rfl, ?_, le_rfl⟩
  exact (List.takeWhile_sublist _).length_le

/-- "hi" and its answer, in pieces; then the first process exits. -/
def greeting : List Move :=
  [written true [104, 105], .deliver false 1, .call false, .read false (.upTo 1),
    .read false (.upTo 1), written false [111, 107], .deliver false 5, .read false (.upTo 1),
    .read false (.upTo 1), .deliver true 9, .exit true, .call false, .ended false (.upTo 1)]

theorem greeting_fair : ∀ m ∈ greeting, m.Fair := by
  simp only [greeting, List.forall_mem_cons]
  exact ⟨written_fair true 104 105, trivial, trivial, nofun, nofun, written_fair false 111 107,
    trivial, nofun, nofun, trivial, trivial, trivial, nofun, List.forall_mem_nil _⟩

theorem link_delivers_hi :
    ∃ link, exec step (Link.start (fun _ _ _ => 0) fds) greeting = some link ∧
      (link false).got = [[104, 105], []] ∧
      (link false).st.obj.readBuffer.safe = true ∧
      (∃ strings ends, (link false).got = strings ++ List.replicate ends [] ∧
        strings <+: (link true).wrote.map received ∧
        (ends ≠ 0 → (link true).gone = true ∧ strings = (link true).wrote.map received)) ∧
      ∀ chars, received chars = chars ↔ ∀ c ∈ chars, c ≤ 255 ∧ c ≠ 0 ∧ c ≠ 255 :=
  ⟨_, rfl, rfl, link_delivers (fun _ _ _ => 0) fds greeting _ greeting_fair rfl false⟩

/-! ### Catching up -/

/-- The moves that bring bytes to a script: no one writes, exits or finds the end. -/
def Move.Onward : Move → Prop
  | .call _ => True
  | .read _ a => a ≠ .fail
  | .deliver _ _ => True
  | _ => False

theorem Move.Onward.fair {m : Move} (h : m.Onward) : m.Fair := by
  cases m with
  | write | ended | exit => exact absurd h id
  | call | deliver => trivial
  | read p a => exact h

/-- How far `rcv` is behind `snd`. -/
def behind (snd rcv : End) : ℕ :=
  3 * (flight snd rcv).length + 2 * rcv.st.pending.length + if rcv.reading.isNone then 1 else 0

def lag (link : Link) : ℕ := behind (link true) (link false) + behind (link false) (link true)

theorem lag_eq (link : Link) (p : Bool) :
    lag link = behind (link !p) (link p) + behind (link p) (link !p) := by
  cases p
  · rfl
  · exact Nat.add_comm _ _

theorem lag_update {link : Link} {p : Bool} {e : End} (sent : e.st.sent = (link p).st.sent)
    (closer : behind (link !p) e < behind (link !p) (link p)) :
    lag (Function.update link p e) < lag link := by
  have other : Function.update link p e (!p) = link !p :=
    Function.update_of_ne (by cases p <;> decide) _ _
  have same : behind e (link !p) = behind (link p) (link !p) := by
    rw [behind, behind, flight, sent, ← flight]
  rw [lag_eq _ p, lag_eq _ p, Function.update_self, other, same]
  omega

theorem step_closer {link link' : Link} {m : Move} (inv : Inv link) (onward : m.Onward)
    (h : step link m = some link') :
    lag link' < lag link ∧
      ∀ p, (link' p).wrote = (link p).wrote ∧ (link' p).gone = (link p).gone := by
  have kept {p : Bool} {e : End} (wrote : e.wrote = (link p).wrote) (gone : e.gone = (link p).gone)
      (q : Bool) : (Function.update link p e q).wrote = (link q).wrote ∧
        (Function.update link p e q).gone = (link q).gone := by
    by_cases here : q = p
    · subst here
      rw [Function.update_self]
      exact ⟨wrote, gone⟩
    · rw [Function.update_of_ne here]
      exact ⟨rfl, rfl⟩
  cases m with
  | write | ended | exit => exact absurd onward id
  | call p =>
    rw [step] at h
    split at h
    · cases h
    · next idle =>
      have none : (link p).reading = none := by
        cases reading : (link p).reading <;> simp_all
      rw [← Option.some.inj h]
      refine ⟨lag_update rfl ?_, kept rfl rfl⟩
      rw [behind, behind, none]
      exact Nat.lt_succ_self _
  | read p a =>
    obtain ⟨sane, taken, ends, w⟩ := inv p
    rw [step] at h
    split at h
    · next synced total reading =>
      split at h
      · cases h
      · next more =>
        obtain ⟨c, rest, next⟩ := List.exists_cons_of_ne_nil fun none => more (Or.inr none)
        have none := w.not_ended next
        obtain ⟨-, -, pending, same⟩ := round_of_byte sane reading next onward (none ▸ w.reads)
        rw [← Option.some.inj h]
        refine ⟨lag_update same.sent ?_, kept same.wrote same.gone⟩
        rw [behind, behind, pending, next, reading, flight, round_arrived, ← flight,
          List.length_cons]
        split
        all_goals
          dsimp only [Option.isNone_some, Bool.false_eq_true, if_false]
          omega
    · cases h
  | deliver p n =>
    obtain ⟨sane, taken, ends, w⟩ := inv p
    obtain ⟨d, opened, stream⟩ := sane.opened
    rw [step] at h
    dsimp only at h
    split at h
    · cases h
    · next some_data =>
      rw [← Option.some.inj h]
      generalize data_eq : (flight (link !p) (link p)).take (n + 1) = data at some_data
      obtain ⟨-, -, pending, sent⟩ := deliver_opened data opened
      have split : flight (link !p) (link p) =
          data ++ (flight (link !p) (link p)).drop (n + 1) := by
        rw [← data_eq, List.take_append_drop]
      have long := List.length_pos_iff.2 some_data
      refine ⟨lag_update sent ?_, kept rfl rfl⟩
      rw [behind, behind, flight_deliver split rfl, pending]
      have all := congrArg List.length split
      rw [List.length_append] at all ⊢
      dsimp only
      omega

/-- Nothing is on its way or pending for a script that has not exited. -/
def Quiet (link : Link) : Prop :=
  ∀ p, (link p).gone = false → (link p).st.pending = [] ∧ flight (link !p) (link p) = []

/-- Until the link is quiet, some byte can move on. -/
theorem moves_onward {link : Link} (busy : ¬ Quiet link) :
    ∃ m link', Move.Onward m ∧ step link m = some link' := by
  obtain ⟨p, waiting⟩ := not_forall.1 busy
  obtain ⟨here, more⟩ := Classical.not_imp.1 waiting
  by_cases pending : (link p).st.pending = []
  · have flying : flight (link !p) (link p) ≠ [] := fun none => more ⟨pending, none⟩
    have data : (flight (link !p) (link p)).take 1 ≠ [] := by
      obtain ⟨c, rest, split⟩ := List.exists_cons_of_ne_nil flying
      rw [split]
      exact List.cons_ne_nil _ _
    exact ⟨.deliver p 0, _, trivial, if_neg data⟩
  · cases reading : (link p).reading with
    | none =>
      exact ⟨.call p, _, trivial, if_neg (by simp [here, reading])⟩
    | some loop =>
      have possible : (step link (.read p (.upTo 1))).isSome = true := by
        simp [step, reading, here, pending]
      obtain ⟨link', h⟩ := Option.isSome_iff_exists.1 possible
      exact ⟨.read p (.upTo 1), link', nofun, h⟩

/-- Wherever such a run has come to, the scripts can go on to read all strings that were written, by
calling `read_ws_packet` whenever it returns: it never waits for ever while a string is missing. -/
theorem link_catches_up (heap : Bool → ℕ → ℤ → UInt8) (fd : Bool → ℕ) (moves : List Move)
    (link : Link) (fair : ∀ m ∈ moves, m.Fair)
    (run : exec step (Link.start heap fd) moves = some link) :
    ∃ more link', (∀ m ∈ more, m.Onward) ∧ exec step link more = some link' ∧
      ∀ p, (link p).gone = false → ∃ ends,
        (link' p).got = (link !p).wrote.map received ++ List.replicate ends [] := by
  have inv : Inv link :=
    exec_inv_of_forall Inv Move.Fair (fun _ _ _ inv fair => step_inv inv fair) (start_inv heap fd)
      fair run
  have onward (l : Link) (m : Move) (l' : Link) (inv : Inv l) (on : m.Onward)
      (h : step l m = some l') : Inv l' := step_inv inv on.fair h
  obtain ⟨more, link', all, run', quiet⟩ := exists_finish Inv Move.Onward onward lag
    (fun _ _ _ inv on h => (step_closer inv on h).1) Quiet (fun _ _ => moves_onward) inv
  have kept := exec_inv_of_forall
    (fun l => Inv l ∧ ∀ p, (l p).wrote = (link p).wrote ∧ (l p).gone = (link p).gone) Move.Onward
    (fun l m l' known on h => ⟨onward l m l' known.1 on h, fun p =>
      ⟨((step_closer known.1 on h).2 p).1.trans (known.2 p).1,
        ((step_closer known.1 on h).2 p).2.trans (known.2 p).2⟩⟩)
    ⟨inv, fun _ => ⟨rfl, rfl⟩⟩ all run'
  refine ⟨more, link', all, run', fun p here => ?_⟩
  obtain ⟨-, taken, ends, w⟩ := kept.1 p
  obtain ⟨pending, none⟩ := quiet p ((kept.2 p).2.trans here)
  obtain ⟨-, -, strings⟩ := w.all pending none
  exact ⟨ends, by rw [w.reads.got, strings, (kept.2 !p).1]⟩

theorem link_catches_up_hi :
    ∃ link, exec step (Link.start (fun _ _ _ => 0) fds) (greeting.take 6) = some link ∧
      ∃ more link', (∀ m ∈ more, m.Onward) ∧ exec step link more = some link' ∧
        ∀ p, (link p).gone = false → ∃ ends,
          (link' p).got = (link !p).wrote.map received ++ List.replicate ends [] :=
  ⟨_, rfl, link_catches_up (fun _ _ _ => 0) fds (greeting.take 6) _
    (fun m hm => greeting_fair m (List.mem_of_mem_take hm)) rfl⟩

end Sysjs.Channel
