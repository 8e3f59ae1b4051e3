import Sysjs.Socket.Bytes
import Sysjs.Socket.Paths

/-!
# Bytes behind the buffered ones

Two Sockets that keep the same bytes and differ in what lies behind them in the buffer: remains of
earlier lines, or what the allocator handed out.  The same calls are made on both, and the system
supplies the same to both.
-/

set_option autoImplicit false

namespace Sysjs

open Feed Runs

variable {α : Type*}

/-- A call of `read` or `readBytes`. -/
inductive ReadCall where
  | read
  | readBytes (n : ℕ)

/-- A call with what the system supplies to it: the descriptors at that time, and the answers. -/
structure Supplied (α : Type*) where
  call : ReadCall
  kernel : Kernel α
  answers : List Answer

/-- The same Socket as far as its methods are to tell: the same bytes are kept. -/
structure Alike (s t : St α) : Prop where
  sock : t.obj.sock = s.obj.sock
  bufferSize : t.obj.bufferSize = s.obj.bufferSize
  bufferPos : t.obj.bufferPos = s.obj.bufferPos
  buffered : t.obj.buffered = s.obj.buffered

/-- The `read` call at the head of a receive round. -/
def St.sysRead (s : St α) : SysRead :=
  { fd := s.obj.sock, offset := s.obj.bufferPos, count := s.readSize }

variable [Octet α]

def Supplied.run (s : St α) (e : Supplied α) : Option (Ret α × St α) :=
  match e.call with
  | .read => jsSockRead (s.withKernel e.kernel) e.answers
  | .readBytes n => jsSockReadBytes (s.withKernel e.kernel) [n] e.answers

/-- The `read` calls that a call makes. -/
def Supplied.reads (s : St α) (e : Supplied α) : List SysRead :=
  match e.call with
  | .read => ((s.withKernel e.kernel).readHeads e.answers).map St.sysRead
  | .readBytes n => (s.withKernel e.kernel).byteReads n

/-- A receive round looks at no byte behind the received ones that could differ: a newline comes, or
no newline lies there, and the bytes that the new write position takes in are the same. -/
def RoundClean (s t : St α) (a : Answer) : Prop :=
  ∀ data ∈ (s.kernel.read s.obj.sock s.readSize a).1, (∀ x ∈ data, isNl x = false) →
    isNl (s.obj.readBuffer.cells (s.obj.bufferPos + data.length)) = false ∧
    isNl (t.obj.readBuffer.cells (s.obj.bufferPos + data.length)) = false ∧
    (data ≠ [] → ∀ i, s.obj.bufferPos + data.length ≤ i →
      i < s.obj.bufferSize - s.obj.bufferPos →
      t.obj.readBuffer.cells i = s.obj.readBuffer.cells i)

/-- A `read` takes no byte behind the buffered ones: with a line buffered, the byte it keeps in
excess is the same; else no newline lies where its scan looks, and its rounds are clean. -/
structure ReadClean (s t : St α) (answers : List Answer) : Prop where
  excess : (∃ c ∈ s.obj.buffered, isNl c = true) →
    t.obj.readBuffer.cells s.obj.bufferPos = s.obj.readBuffer.cells s.obj.bufferPos
  rounds : (∀ c ∈ s.obj.buffered, isNl c = false) → s.obj.NoLine ∧ t.obj.NoLine ∧
    FeedBoth recvBody RoundClean s.receiving t.receiving answers

/-- A call takes no byte behind the buffered ones; `readBytes` never does. -/
def Supplied.Clean (s t : St α) (e : Supplied α) : Prop :=
  match e.call with
  | .read => ReadClean (s.withKernel e.kernel) (t.withKernel e.kernel) e.answers
  | .readBytes _ => True

/-! ### The receive loop -/

/-- Two states of the loop that differ only behind the buffered bytes. -/
structure Twin (s t : St α) : Prop extends Alike s t where
  fits : s.obj.Fits
  fits' : t.obj.Fits
  kernel : t.kernel = s.kernel

/-- The two calls end alike. -/
def ExitTwin (e e' : RecvExit α) : Prop :=
  ∃ r s' t', e.finish = (r, s') ∧ e'.finish = (r, t') ∧ Twin s' t'

omit [Octet α] in
theorem Twin.readSize {s t : St α} (twin : Twin s t) : t.readSize = s.readSize := by
  rw [St.readSize, St.readSize, twin.bufferSize, twin.bufferPos]

omit [Octet α] in
theorem Twin.read {s t : St α} (twin : Twin s t) (a : Answer) :
    t.kernel.read t.obj.sock t.readSize a = s.kernel.read s.obj.sock s.readSize a := by
  rw [twin.kernel, twin.sock, twin.readSize]

omit [Octet α] in
theorem Twin.cells {s t : St α} (twin : Twin s t) {i : ℤ} (low : 0 ≤ i)
    (kept : i < s.obj.bufferPos) : t.obj.readBuffer.cells i = s.obj.readBuffer.cells i := by
  obtain ⟨j, rfl⟩ := Int.eq_ofNat_of_zero_le low
  have count := SockObj.length_buffered twin.fits
  have inside : j < s.obj.buffered.length := by omega
  have inside' : j < t.obj.buffered.length := by rwa [twin.buffered]
  rw [SockObj.cells_buffered inside', SockObj.cells_buffered inside]
  simp only [twin.buffered]

omit [Octet α] in
theorem Twin.offered {s t : St α} (twin : Twin s t) (k : Kernel α) :
    Twin ((s.withKernel k).withBuffer s.offered) ((t.withKernel k).withBuffer t.offered) where
  sock := twin.sock
  bufferSize := twin.bufferSize
  bufferPos := twin.bufferPos
  buffered := twin.buffered
  fits := ⟨twin.fits.low, twin.fits.high, twin.fits.block⟩
  fits' := ⟨twin.fits'.low, twin.fits'.high, twin.fits'.block⟩
  kernel := rfl

omit [Octet α] in
/-- Growing behind a chunk leaves twins when the bytes that become buffered are the same. -/
theorem Twin.grown {s t : St α} (twin : Twin s t) {data : List α} (k : Kernel α)
    (fresh : ∀ i, s.obj.bufferPos + data.length ≤ i →
      i < s.obj.bufferSize - s.obj.bufferPos →
      t.obj.readBuffer.cells i = s.obj.readBuffer.cells i) :
    Twin (s.grown data k) (t.grown data k) where
  sock := twin.sock
  bufferSize := congrArg (· + 1024) twin.bufferSize
  bufferPos := by
    simp only [St.grown, twin.bufferSize, twin.bufferPos]
  buffered := by
    have low := twin.fits.low
    have place : (t.grown data k).obj.bufferPos = (s.grown data k).obj.bufferPos := by
      simp only [St.grown, twin.bufferSize, twin.bufferPos]
    have pos : (s.grown data k).obj.bufferPos = s.obj.bufferSize - s.obj.bufferPos := rfl
    rw [SockObj.buffered, SockObj.buffered, place]
    refine Block.slice_eq_of_cells fun i hi => ?_
    rw [grown_cells twin.fits' data k (by omega) (by rw [twin.bufferSize]; omega),
      grown_cells twin.fits data k (by omega) (by omega), twin.bufferPos]
    exact Block.blit_cells_congr (fun below => twin.cells (by omega) below)
      (fun behind => fresh _ behind (by omega))
  fits := grown_fits twin.fits data k
  fits' := grown_fits twin.fits' data k
  kernel := rfl

/-- The rounds in which a newline comes end the loop alike. -/
theorem Twin.line {s t : St α} (twin : Twin s t) {a : Answer} {k : Kernel α} {l r : List α} {c : α}
    (got : s.kernel.read s.obj.sock s.readSize a = (some (l ++ c :: r), k)) (here : isNl c = true) :
    ExitTwin (.stopped (s.landed (l ++ c :: r) k l.length) (s.obj.bufferPos + l.length)
        (r.length + 1))
      (.stopped (t.landed (l ++ c :: r) k l.length) (t.obj.bufferPos + l.length)
        (r.length + 1)) := by
  obtain ⟨s', value, left⟩ := finishLine_of_line twin.fits got here
  obtain ⟨t', value', left'⟩ := finishLine_of_line twin.fits' ((twin.read a).trans got) here
  rw [twin.buffered] at value'
  exact ⟨_, s', t', value, value', ⟨left'.sock.trans (twin.sock.trans left.sock.symm),
    left'.bufferSize.trans (twin.bufferSize.trans left.bufferSize.symm),
    left'.bufferPos.trans left.bufferPos.symm, left'.buffered.trans left.buffered.symm⟩,
    left.fits, left'.fits, left'.kernel.trans left.kernel.symm⟩

/-- A round that is clean ends the loop alike or goes on alike. -/
theorem Twin.round {s t : St α} {a : Answer} (twin : Twin s t) (clean : RoundClean s t a) :
    (∃ e e', recvBody s a = .inl e ∧ recvBody t a = .inl e' ∧ ExitTwin e e') ∨
      ∃ s' t', recvBody s a = .inr s' ∧ recvBody t a = .inr t' ∧ Twin s' t' := by
  rcases got : s.kernel.read s.obj.sock s.readSize a with ⟨_ | data, k⟩
  · have got' := (twin.read a).trans got
    refine Or.inl ⟨_, _, recvBody_of_fail got, recvBody_of_fail got', ?_⟩
    have left := twin.offered s.kernel
    rw [St.withKernel_self, ← twin.kernel, St.withKernel_self] at left
    exact ⟨_, _, _, rfl, rfl, left⟩
  · have got' := (twin.read a).trans got
    by_cases hnl : ∃ c ∈ data, isNl c = true
    · obtain ⟨l, c, r, rfl, before, here⟩ := Block.split_at_first isNl hnl
      exact Or.inl ⟨_, _, recvBody_of_line got before here, recvBody_of_line got' before here,
        twin.line got here⟩
    · have clear : ∀ x ∈ data, isNl x = false := by simpa using hnl
      obtain ⟨quiet, quiet', fresh⟩ := clean data (by rw [got]; rfl) clear
      by_cases came : data = []
      · subst came
        rw [List.length_nil, Int.natCast_zero, Int.add_zero] at quiet quiet'
        rw [← twin.bufferPos] at quiet'
        have left := twin.offered k
        exact Or.inl ⟨_, _, recvBody_of_eof got, recvBody_of_eof got', _, _, _,
          finishLine_of_not (s := ((s.withKernel k).withBuffer s.offered).resume) quiet,
          finishLine_of_not (s := ((t.withKernel k).withBuffer t.offered).resume) quiet',
          ⟨left.sock, left.bufferSize, left.bufferPos, left.buffered⟩,
          ⟨left.fits.low, left.fits.high, left.fits.block⟩,
          ⟨left.fits'.low, left.fits'.high, left.fits'.block⟩, rfl⟩
      · refine Or.inr ⟨s.grown data k, t.grown data k, ?_, ?_, twin.grown k (fresh came)⟩
        · rw [recvBody_of_chunk got came clear, quiet]
          rfl
        · rw [recvBody_of_chunk got' came clear, twin.bufferPos, quiet']
          rfl

omit [Octet α] in
theorem Twin.sysRead {s t : St α} (twin : Twin s t) : s.sysRead = t.sysRead := by
  rw [St.sysRead, St.sysRead, twin.sock, twin.bufferPos, twin.readSize]

theorem Twin.receiving {s t : St α} (twin : Twin s t) (fresh : s.obj.NoLine)
    (fresh' : t.obj.NoLine) : Twin s.receiving t.receiving := by
  obtain ⟨len, scan⟩ := SockObj.bufferedLine_of_noLine fresh
  obtain ⟨len', scan'⟩ := SockObj.bufferedLine_of_noLine fresh'
  rw [St.receiving, St.receiving, scan, scan']
  exact ⟨⟨twin.sock, twin.bufferSize, twin.bufferPos, twin.buffered⟩,
    ⟨twin.fits.low, twin.fits.high, twin.fits.block⟩,
    ⟨twin.fits'.low, twin.fits'.high, twin.fits'.block⟩, twin.kernel⟩

/-! ### The calls -/

/-- The same in both calls: the reads they make, and how they end. -/
def EndsTwin (reads reads' : List SysRead) (call call' : Option (Ret α × St α)) : Prop :=
  reads = reads' ∧ ((call = none ∧ call' = none) ∨
    ∃ r s' t', call = some (r, s') ∧ call' = some (r, t') ∧ Twin s' t')

/-- Calls of `read`. -/
theorem Twin.call_read {s t : St α} (twin : Twin s t) {answers : List Answer}
    (clean : ReadClean s t answers) :
    EndsTwin ((s.readHeads answers).map St.sysRead) ((t.readHeads answers).map St.sysRead)
      (jsSockRead s answers) (jsSockRead t answers) := by
  by_cases complete : ∃ c ∈ s.obj.buffered, isNl c = true
  · have complete' : ∃ c ∈ t.obj.buffered, isNl c = true := by rwa [twin.buffered]
    refine ⟨by rw [readHeads_of_complete complete, readHeads_of_complete complete'], Or.inr ?_⟩
    obtain ⟨l, c, rest, held, before, here⟩ := Block.split_at_first isNl complete
    obtain ⟨s', value, pos, kept, sfits, ssock, ssize, skernel⟩ :=
      read_of_held answers twin.fits held before here
    obtain ⟨t', value', pos', kept', tfits, tsock, tsize, tkernel⟩ :=
      read_of_held answers twin.fits' (twin.buffered.trans held) before here
    rw [twin.bufferPos, clean.excess complete] at kept'
    exact ⟨_, s', t', value, value', ⟨tsock.trans (twin.sock.trans ssock.symm),
      tsize.trans (twin.bufferSize.trans ssize.symm), pos'.trans pos.symm,
      kept'.trans kept.symm⟩, sfits, tfits, tkernel.trans (twin.kernel.trans skernel.symm)⟩
  · have clear : ∀ c ∈ s.obj.buffered, isNl c = false := by simpa using complete
    obtain ⟨fresh, fresh', rounds⟩ := clean.rounds clear
    obtain ⟨asked, ends⟩ := rounds.lockstep Twin ExitTwin St.sysRead (fun _ _ h => h.sysRead)
      (fun _ _ _ h clean => h.round clean) (twin.receiving fresh fresh')
    rw [readHeads_of_noLine answers fresh, readHeads_of_noLine answers fresh']
    refine ⟨asked, ?_⟩
    rw [jsSockRead_of_noLine answers fresh, jsSockRead_of_noLine answers fresh']
    rcases ends with ⟨left, right⟩ | ⟨e, e', rest, left, right, ⟨r, u, u', value, value', same⟩⟩
    · rw [left, right]
      exact Or.inl ⟨rfl, rfl⟩
    · rw [left, right]
      exact Or.inr ⟨r, u, u', congrArg some value, congrArg some value', same⟩

/-! ### Requests -/

omit [Octet α] in
theorem Twin.missing {s t : St α} (twin : Twin s t) (n : ℤ) : t.missing n = s.missing n := by
  rw [St.missing, St.missing, twin.bufferPos]

omit [Octet α] in
theorem Twin.grownFor {s t : St α} (twin : Twin s t) (n : ℤ) :
    (growFor t n).obj.bufferSize = (growFor s n).obj.bufferSize := by
  unfold growFor
  rw [twin.bufferSize]
  split
  · exact congrArg (· + (n.toNat + 1)) twin.bufferSize
  · exact twin.bufferSize

omit [Octet α] in
/-- Requests that leave the same bytes leave twins. -/
theorem Twin.leaves {s t s' t' : St α} (twin : Twin s t) {n : ℤ} {rest : List α}
    (left : Leaves s s' n rest) (left' : Leaves t t' n rest) (kernel : t'.kernel = s'.kernel) :
    Twin s' t' where
  sock := left'.sock.trans (twin.sock.trans left.sock.symm)
  bufferSize := left'.bufferSize.trans ((twin.grownFor n).trans left.bufferSize.symm)
  bufferPos := left'.bufferPos.trans left.bufferPos.symm
  buffered := left'.buffered.trans left.buffered.symm
  fits := left.fits
  fits' := left'.fits
  kernel := kernel

/-- Calls of `readBytes`. -/
theorem Twin.call_readBytes {s t : St α} (twin : Twin s t) (n : ℕ) (answers : List Answer) :
    EndsTwin (s.byteReads n) (t.byteReads n) (jsSockReadBytes s [n] answers)
      (jsSockReadBytes t [n] answers) := by
  have reads : s.byteReads n = t.byteReads n := by
    rw [St.byteReads, St.byteReads, twin.bufferPos, twin.sock, twin.missing]
  refine ⟨reads, ?_⟩
  by_cases enough : n ≤ s.obj.bufferPos
  · obtain ⟨s', value, left, kernel⟩ := readBytes_served answers twin.fits enough
    obtain ⟨t', value', left', kernel'⟩ := readBytes_served (n := n) answers twin.fits'
      (by rwa [twin.bufferPos])
    rw [twin.buffered] at value' left'
    exact Or.inr ⟨_, s', t', value, value',
      twin.leaves left left' (kernel'.trans (twin.kernel.trans kernel.symm))⟩
  · have more : s.obj.bufferPos < n := by omega
    have more' : t.obj.bufferPos < n := by rwa [twin.bufferPos]
    cases answers with
    | nil => exact Or.inl ⟨jsSockReadBytes_of_nil more, jsSockReadBytes_of_nil more'⟩
    | cons a rest =>
      right
      have same : t.kernel.read t.obj.sock (t.missing n) a =
          s.kernel.read s.obj.sock (s.missing n) a := by
        rw [twin.kernel, twin.sock, twin.missing]
      have short (k : Kernel α) (data : List α) :
          Twin (s.toppedWith n k data) (t.toppedWith n k data) :=
        twin.leaves (toppedWith_leaves twin.fits n k data)
          (twin.buffered ▸ toppedWith_leaves twin.fits' n k data) rfl
      rcases got : s.kernel.read s.obj.sock (s.missing n) a with ⟨_ | data, k⟩
      · rw [jsSockReadBytes_of_fail rest more got,
          jsSockReadBytes_of_fail rest more' (same.trans got), if_pos (by omega),
          if_pos (by omega)]
        exact ⟨_, _, _, rfl, rfl, short k []⟩
      · by_cases few : data.length < (n : ℤ)
        · rw [jsSockReadBytes_of_read rest more got,
            jsSockReadBytes_of_read rest more' (same.trans got), if_pos few, if_pos few]
          exact ⟨_, _, _, rfl, rfl, short k data⟩
        · obtain ⟨-, -, s', value, left, kernel⟩ :=
            readBytes_whole rest twin.fits more got (by omega)
          obtain ⟨-, -, t', value', left', kernel'⟩ :=
            readBytes_whole rest twin.fits' more' (same.trans got) (by omega)
          exact ⟨_, s', t', value, value', twin.leaves left left' (kernel'.trans kernel.symm)⟩

/-- On two Sockets that keep the same bytes, the same calls with the same supplied to them make the
same reads, return the same and keep the same, as long as no call takes a byte behind the buffered
ones. -/
theorem stale_bytes_unused {s t : St α} (alike : Alike s t) (fits : s.obj.Fits)
    (fits' : t.obj.Fits) {calls : List (Supplied α)}
    (clean : GuardedTwo Supplied.run Supplied.Clean s t calls) :
    Lockstep Supplied.run Supplied.reads Alike s t calls := by
  refine clean.lockstep (fun s t => Alike s t ∧ s.obj.Fits ∧ t.obj.Fits) (fun s t h => h.1) ?_
    ⟨alike, fits, fits'⟩
  rintro s t ⟨call, k, answers⟩ ⟨alike, fits, fits'⟩ here
  have twin : Twin (s.withKernel k) (t.withKernel k) :=
    ⟨⟨alike.sock, alike.bufferSize, alike.bufferPos, alike.buffered⟩, fits, fits', rfl⟩
  have ends : EndsTwin (Supplied.reads s ⟨call, k, answers⟩) (Supplied.reads t ⟨call, k, answers⟩)
      (Supplied.run s ⟨call, k, answers⟩) (Supplied.run t ⟨call, k, answers⟩) := by
    cases call with
    | read => exact twin.call_read here
    | readBytes n => exact twin.call_readBytes n answers
  refine ⟨ends.1, ends.2.imp_right ?_⟩
  rintro ⟨r, s', t', left, right, again⟩
  exact ⟨r, s', t', left, right, again.toAlike, again.fits, again.fits'⟩

/-- A Socket made of descriptor 5 when the allocator hands out a block with `c` at index 1. -/
def St.fresh (c : UInt8) : St UInt8 :=
  .start (fun _ i => if i = 1 then c else 0) [.int 5] (.stream 5 [])

theorem fresh_alike (c d : UInt8) : Alike (.fresh c) (.fresh d) := ⟨rfl, rfl, rfl, rfl⟩

theorem fresh_fits (c : UInt8) : (St.fresh c).obj.Fits :=
  jsSockConstruct_fits (fun _ i => if i = 1 then c else 0) [.int 5]

/-- A line and a request, whatever the allocator hands out. -/
theorem stale_bytes_unused_line_and_byte :
    Lockstep Supplied.run Supplied.reads Alike (.fresh 0) (.fresh 10)
      [⟨.read, .stream 5 [97, 10, 98], [.upTo 3]⟩, ⟨.readBytes 1, .stream 5 [], []⟩] := by
  refine stale_bytes_unused (fresh_alike 0 10) (fresh_fits 0) (fresh_fits 10)
    (guardedTwo_cons ⟨?_, ?_⟩ fun s t => guardedTwo_cons trivial fun _ _ => trivial)
  · rintro ⟨c, held, -⟩
    cases held
  · refine fun _ => ⟨fun pos => absurd pos (by decide), fun pos => absurd pos (by decide),
      feedBoth_singleton.2 fun data got clear => ?_⟩
    obtain rfl : [97, 10, 98] = data := Option.some.inj got
    have nl := clear 10 (by decide)
    cases nl

/-- The byte behind the one received makes it a line. -/
theorem stale_bytes_unused_not_newline :
    ¬ Lockstep Supplied.run Supplied.reads Alike (.fresh 0) (.fresh 10)
      [⟨.read, .stream 5 [97], [.upTo 1]⟩] := by
  intro same
  have waits : (Supplied.run (.fresh 0) ⟨.read, .stream 5 [97], [.upTo 1]⟩).isSome = false := by
    decide +kernel
  have returns : (Supplied.run (.fresh 10) ⟨.read, .stream 5 [97], [.upTo 1]⟩).isSome = true := by
    decide +kernel
  have both := same.isSome
  rw [waits, returns] at both
  cases both

end Sysjs
