import Sysjs.Socket.LineStream
import Sysjs.Socket.Methods

/-!
# The lines of a stream

A run of `read` calls against the lines of the stream.  `read` keeps one byte too many each time it
serves a line from the buffer, a NUL behind the bytes of the stream; a line is lost once such a NUL
stands before it.
-/

set_option autoImplicit false

namespace Sysjs

open Feed Runs

variable {α : Type*} [Octet α]

/-- The lines of a stream, each without its newline and one carriage return before it.  Bytes
behind the last newline are no line. -/
def lines (stream : List α) : List (List α) := (stream.splitOnP isNl).dropLast.map chomp

omit [Octet α] in
/-- The strings among the results of a run. -/
def strings (results : List (Ret α)) : List (List α) :=
  results.filterMap fun
    | .done (.string chars) => some chars
    | _ => none

omit [Octet α] in
theorem strings_cons (r : Ret α) (rs : List (Ret α)) :
    strings (r :: rs) = strings [r] ++ strings rs :=
  List.filterMap_append (l := [r])

theorem lines_append_cons {l rest : List α} {c : α} (before : ∀ x ∈ l, isNl x = false)
    (here : isNl c = true) : lines (l ++ c :: rest) = chomp l :: lines rest := by
  rw [lines, List.splitOnP_append_cons_of_forall_mem before c here,
    List.dropLast_cons_of_ne_nil (List.splitOnP_ne_nil _ _), List.map_cons, lines]

/-! ### When a call returns the next line or none -/

/-- The first newline in the buffer comes before any NUL. -/
def SockObj.ServesLine (o : SockObj α) : Prop :=
  ∃ p : ℕ, p < o.bufferPos ∧ isNl (o.readBuffer.cells p) = true ∧
    ∀ i : ℤ, 0 ≤ i → i < p →
      isNl (o.readBuffer.cells i) = false ∧ isNul (o.readBuffer.cells i) = false

/-- Nothing comes, and no newline lies at the write position. -/
def NothingComes (s : St α) (answers : List Answer) : Prop :=
  ∀ a ∈ answers.head?, match (s.kernel.read s.obj.sock s.readSize a).1 with
    | none => True
    | some data => data = [] ∧ isNl (s.obj.readBuffer.cells s.obj.bufferPos) = false

/-- The condition on the state and the answers under which `read` returns the next line or no
string.  Either it finds that line in the buffer; or it finds no newline where it looks, and nothing
comes or its receive rounds lose nothing behind a buffer without a NUL. -/
def ReadsLine (s : St α) (answers : List Answer) : Prop :=
  s.obj.ServesLine ∨ (s.obj.NoLine ∧ (NothingComes s answers ∨
    ((∀ x ∈ s.obj.buffered, isNul x = false) ∧ FeedAll recvBody RoundKeeps s.receiving answers)))

/-- The buffer holds the bytes `u` of the stream, and perhaps a NUL and more behind them. -/
def SockObj.Carries (o : SockObj α) (u : List α) : Prop :=
  ∃ tail, o.buffered = u ++ tail ∧
    ((tail = [] ∧ (isNul (o.readBuffer.cells o.bufferPos) = true ∨ ∀ x ∈ u, isNl x = false)) ∨
      ∃ c junk, tail = c :: junk ∧ isNul c = true)

/-- `stream` is what the stream has from the next line on. -/
structure AtLine (stream : List α) (s : St α) : Prop where
  fits : s.obj.Fits
  clean : ∀ x ∈ stream, isNul x = false
  holds : ∃ u, s.obj.Carries u ∧ stream = u ++ s.pending

/-! ### A line from the buffer -/

theorem bufferedLine_of_first {o : SockObj α} {p : ℕ} (low : p < o.bufferPos)
    (first : ∀ i : ℤ, 0 ≤ i → i < p → isNl (o.readBuffer.cells i) = false)
    (here : isNl (o.readBuffer.cells p) = true) :
    bufferedLine o = (some (cutLine (o.readBuffer.touch 0 (p + 1)) p).1,
      { o with
        readBuffer := (cutLine (o.readBuffer.touch 0 (p + 1)) p).2.move 0 (p + 1) (o.bufferPos - p)
        bufferPos := o.bufferPos - p }) := by
  have step := bufferedLine_spec o
  generalize bufferedLine o = result at step ⊢
  cases step with
  | empty nothing => omega
  | absent kept clear =>
    have := clear p (by omega) (by omega)
    simp [here] at this
  | found q below before hit =>
    rcases Nat.lt_trichotomy q p with lt | rfl | gt
    · have := first q (by omega) (by omega)
      simp [hit] at this
    · rfl
    · have := before p (by omega) (by omega)
      simp [here] at this
  | stray q kept above near before hit =>
    have := before p (by omega) (by omega)
    simp [here] at this

omit [Octet α] in
/-- The bytes kept behind a line that was served from the buffer: one too many. -/
theorem buffered_after_served {o : SockObj α} {p : ℕ} (low : p < o.bufferPos) (b : Block α)
    (cells : ∀ i : ℤ, p < i → b.cells i = o.readBuffer.cells i) :
    (b.move 0 (p + 1) (o.bufferPos - p)).slice 0 (o.bufferPos - p).toNat =
      o.readBuffer.slice (p + 1) (o.bufferPos - p).toNat := by
  have count : o.bufferPos - p = ((o.bufferPos - p).toNat : ℤ) := by omega
  rw [count, Int.toNat_natCast, Block.slice_move_self]
  exact Block.slice_eq_of_cells fun i hi => cells _ (by omega)

/-- A newline before which there is no NUL is a byte of the stream. -/
theorem SockObj.Carries.inside {o : SockObj α} {u : List α} {p : ℕ} (carries : o.Carries u)
    (fits : o.Fits) (low : p < o.bufferPos) (nl : isNl (o.readBuffer.cells p) = true)
    (clean : ∀ i : ℤ, 0 ≤ i → i < p → isNul (o.readBuffer.cells i) = false) : p < u.length := by
  obtain ⟨tail, kept, ⟨rfl, -⟩ | ⟨c, junk, rfl, zero⟩⟩ := carries
  · have total := SockObj.length_buffered fits
    rw [kept, List.append_nil] at total
    omega
  · by_contra outside
    have at_u : o.readBuffer.cells u.length = c := by
      rw [SockObj.cells_buffered (by rw [kept]; simp)]
      simp [kept]
    rcases Nat.lt_or_eq_of_le (Nat.le_of_not_lt outside) with lt | eq
    · have := clean u.length (by omega) (by omega)
      rw [at_u, zero] at this
      cases this
    · rw [← eq, at_u, not_isNl_of_isNul zero] at nl
      cases nl

theorem SockObj.Carries.length_le {o : SockObj α} {u : List α} (carries : o.Carries u) :
    u.length ≤ o.buffered.length := by
  obtain ⟨tail, kept, -⟩ := carries
  rw [kept]
  simp

theorem SockObj.Carries.slice {o : SockObj α} {u : List α} {p : ℕ} (carries : o.Carries u)
    (inside : p ≤ u.length) : o.readBuffer.slice 0 p = u.take p := by
  have bound := carries.length_le
  rw [SockObj.buffered, Block.slice_length] at bound
  rw [← Block.slice_take _ _ (inside.trans bound)]
  obtain ⟨tail, kept, -⟩ := carries
  change o.buffered.take p = u.take p
  rw [kept, List.take_append_of_le_length inside]

theorem SockObj.Carries.cell {o : SockObj α} {u : List α} {p : ℕ} (carries : o.Carries u)
    (inside : p < u.length) : o.readBuffer.cells p = u[p] := by
  rw [SockObj.cells_buffered (inside.trans_le carries.length_le)]
  obtain ⟨tail, kept, -⟩ := carries
  simp only [kept, List.getElem_append_left inside]

/-- Behind a line served from the buffer, the rest of the stream's bytes are kept, and a NUL
behind them. -/
theorem SockObj.Carries.drop {o o' : SockObj α} {u : List α} {p : ℕ} (carries : o.Carries u)
    (inside : p < u.length) (nl : isNl u[p] = true)
    (kept' : o'.buffered = o.readBuffer.slice (p + 1) (o.bufferPos - p).toNat) :
    o'.Carries (u.drop (p + 1)) := by
  have bound := carries.length_le
  rw [SockObj.buffered, Block.slice_length] at bound
  obtain ⟨tail, kept, shape⟩ := carries
  have count : (o.bufferPos - p).toNat = (o.bufferPos.toNat - (p + 1)) + 1 := by omega
  have last : ((p : ℤ) + 1) + (o.bufferPos.toNat - (p + 1) : ℕ) = o.bufferPos := by omega
  have drop : o.readBuffer.slice (p + 1) (o.bufferPos.toNat - (p + 1)) =
      o.buffered.drop (p + 1) := by
    rw [SockObj.buffered, Block.slice_drop _ _ (by omega)]
    simp
  refine ⟨tail ++ [o.readBuffer.cells o.bufferPos], ?_, Or.inr ?_⟩
  · rw [kept', count, Block.slice_succ, last, drop, kept,
      List.drop_append_of_le_length inside, List.append_assoc]
  · rcases shape with ⟨rfl, zero | clear⟩ | ⟨c, junk, rfl, zero⟩
    · exact ⟨_, [], rfl, zero⟩
    · have := clear u[p] (List.getElem_mem inside)
      simp [nl] at this
    · exact ⟨c, junk ++ [o.readBuffer.cells o.bufferPos], rfl, zero⟩

/-- A line is served from the buffer and is the next one of the stream. -/
theorem AtLine.served {stream : List α} {s s' : St α} {answers : List Answer} {r : Ret α}
    (here : AtLine stream s) (serves : s.obj.ServesLine)
    (h : jsSockRead s answers = some (r, s')) :
    ∃ l c rest, stream = l ++ c :: rest ∧ (∀ x ∈ l, isNl x = false) ∧ isNl c = true ∧
      r = .done (.string (chomp l)) ∧ AtLine rest s' := by
  obtain ⟨p, low, nl, first⟩ := serves
  obtain ⟨u, carries, split⟩ := here.holds
  have fits := here.fits
  have high := fits.high
  have block := fits.block
  have inside := carries.inside fits low nl fun i lo hi => (first i lo hi).2
  have before : ∀ x ∈ u.take p, isNl x = false := by
    rw [← carries.slice inside.le]
    intro x hx
    obtain ⟨i, hi, rfl⟩ := Block.mem_slice.1 hx
    exact (first _ (by omega) (by omega)).1
  have clean : ∀ x ∈ u.take p, isNul x = false := fun x hx =>
    here.clean x (by rw [split]; exact List.mem_append_left _ (List.mem_of_mem_take hx))
  have line : (cutLine (s.obj.readBuffer.touch 0 (p + 1)) p).1 = chomp (u.take p) := by
    rw [cutLine_fst _ (by rw [Block.touch_size]; omega), Block.slice_touch,
      carries.slice inside.le]
    exact cut_of_not_isNul fun x hx => clean x (chomp_subset hx)
  have nl' : isNl u[p] = true := by
    rw [← carries.cell inside]
    exact nl
  have halves : u = u.take p ++ u[p] :: u.drop (p + 1) := by simp
  rw [jsSockRead, bufferedLine_of_first low (fun i lo hi => (first i lo hi).1) nl,
    Option.some.injEq, Prod.mk.injEq, line] at h
  obtain ⟨rfl, rfl⟩ := h
  refine ⟨u.take p, u[p], u.drop (p + 1) ++ s.pending, ?_, before, nl', rfl,
    ⟨?_, ?_, ?_⟩, ?_, u.drop (p + 1), ?_, rfl⟩
  · rw [split, ← List.cons_append, ← List.append_assoc, ← halves]
  · dsimp only
    omega
  · dsimp only
    omega
  · simpa using block
  · intro x hx
    apply here.clean x
    rw [split]
    rcases List.mem_append.1 hx with old | new
    · exact List.mem_append_left _ (List.mem_of_mem_drop old)
    · exact List.mem_append_right _ new
  · apply carries.drop inside nl'
    exact buffered_after_served low _ fun i hi => cutLine_cells_ne _ (by omega) (by omega)

/-! ### A line from the descriptor -/

/-- A call during which nothing comes. -/
theorem jsSockRead_of_nothing {s s' : St α} {answers : List Answer} {r : Ret α}
    (fresh : s.obj.NoLine) (nothing : NothingComes s answers)
    (h : jsSockRead s answers = some (r, s')) :
    (r = .error "read failed: %s" ∨ r = .done (.bool false)) ∧
      (∃ b, s'.obj = { s.obj with readBuffer := b } ∧ b.cells = s.obj.readBuffer.cells ∧
        b.size = s.obj.readBuffer.size) ∧ s'.pending = s.pending := by
  obtain ⟨len, scan⟩ := SockObj.bufferedLine_of_noLine fresh
  have receiving : s.receiving =
      { s with obj := { s.obj with readBuffer := s.obj.readBuffer.touch 0 len } }.suspend := by
    rw [St.receiving, scan]
  rw [jsSockRead_of_noLine answers fresh] at h
  obtain ⟨⟨e, rest⟩, done, finish⟩ := Option.map_eq_some_iff.1 h
  dsimp only at finish
  cases answers with
  | nil => cases done
  | cons a as =>
    have come := nothing a rfl
    rcases got : s.kernel.read s.obj.sock s.readSize a with ⟨_ | data, k⟩
    · have body := recvBody_of_fail (s := s.receiving) (by rw [receiving]; exact got)
      rw [feed_cons_inl as body, Option.some.injEq, Prod.mk.injEq] at done
      rw [← done.1, RecvExit.finish, Prod.mk.injEq] at finish
      obtain ⟨rfl, rfl⟩ := finish
      rw [receiving]
      exact ⟨Or.inl rfl, ⟨_, rfl, rfl, rfl⟩, rfl⟩
    · rw [got] at come
      obtain ⟨rfl, clear⟩ := come
      have body := recvBody_of_eof (s := s.receiving) (by rw [receiving]; exact got)
      rw [feed_cons_inl as body, Option.some.injEq, Prod.mk.injEq] at done
      have behind : isNl (((s.receiving.withKernel k).withBuffer
          s.receiving.offered).resume.obj.readBuffer.cells s.receiving.obj.bufferPos) = false := by
        rw [receiving]
        exact clear
      rw [← done.1, RecvExit.finish, finishLine_of_not behind, Prod.mk.injEq] at finish
      obtain ⟨rfl, rfl⟩ := finish
      rw [receiving]
      refine ⟨Or.inr rfl, ⟨_, rfl, rfl, rfl⟩, ?_⟩
      exact (Kernel.read_pending got).symm

/-- A line from the descriptor is the next one of the stream. -/
theorem AtLine.received {stream : List α} {s s' : St α} {answers : List Answer} {r : Ret α}
    (here : AtLine stream s) (fresh : s.obj.NoLine)
    (clean : ∀ x ∈ s.obj.buffered, isNul x = false)
    (keeps : FeedAll recvBody RoundKeeps s.receiving answers)
    (h : jsSockRead s answers = some (r, s')) :
    (strings [r] = [] ∧ AtLine stream s') ∨
    ∃ l c rest, stream = l ++ c :: rest ∧ (∀ x ∈ l, isNl x = false) ∧ isNl c = true ∧
      r = .done (.string (chomp l)) ∧ AtLine rest s' := by
  have whole : s.unconsumed = stream := by
    obtain ⟨u, ⟨tail, kept, shape⟩, split⟩ := here.holds
    rcases shape with ⟨rfl, -⟩ | ⟨c, junk, rfl, zero⟩
    · rw [St.unconsumed, kept, split, List.append_nil]
    · have := clean c (by rw [kept]; simp)
      simp [zero] at this
  obtain ⟨outcome, fits', -⟩ := jsSockRead_of_keeps here.fits fresh keeps h
  rw [whole] at outcome
  cases outcome with
  | waiting r s' value same clear =>
    left
    refine ⟨?_, fits', here.clean, s'.obj.buffered, ⟨[], ?_, Or.inl ⟨rfl, Or.inr clear⟩⟩, same.symm⟩
    · rcases value with rfl | rfl <;> rfl
    · rw [List.append_nil]
  | line l c s' before nl split terminated =>
    right
    have text : cut (chomp l) = chomp l := cut_of_not_isNul fun x hx =>
      here.clean x (by rw [split]; exact List.mem_append_left _ (chomp_subset hx))
    refine ⟨l, c, s'.unconsumed, split, before, nl, by rw [text], fits', fun x hx => ?_,
      s'.obj.buffered, ⟨[], ?_, Or.inl ⟨rfl, Or.inl terminated⟩⟩, rfl⟩
    · exact here.clean x (by rw [split]; exact List.mem_append_right _ (List.mem_cons_of_mem _ hx))
    · rw [List.append_nil]

/-- A call that meets the condition returns the next line of the stream or no string. -/
theorem AtLine.step {stream : List α} {s s' : St α} {answers : List Answer} {r : Ret α}
    (here : AtLine stream s) (reads : ReadsLine s answers)
    (h : jsSockRead s answers = some (r, s')) :
    (strings [r] = [] ∧ AtLine stream s') ∨
    ∃ l c rest, stream = l ++ c :: rest ∧ (∀ x ∈ l, isNl x = false) ∧ isNl c = true ∧
      r = .done (.string (chomp l)) ∧ AtLine rest s' := by
  rcases reads with serves | ⟨fresh, nothing | ⟨clean, keeps⟩⟩
  · exact Or.inr (here.served serves h)
  · left
    obtain ⟨value, ⟨b, obj, cells, size⟩, pending⟩ := jsSockRead_of_nothing fresh nothing h
    refine ⟨by rcases value with rfl | rfl <;> rfl, ?_, here.clean, ?_⟩
    · rw [obj]
      exact ⟨here.fits.low, here.fits.high, size ▸ here.fits.block⟩
    · obtain ⟨u, ⟨tail, kept, shape⟩, split⟩ := here.holds
      refine ⟨u, ⟨tail, ?_, ?_⟩, by rw [pending, split]⟩
      · rw [← kept, obj]
        exact Block.slice_eq_of_cells fun i hi => by rw [cells]
      · rw [obj, cells]
        exact shape
  · exact here.received fresh clean keeps h

/-- Over a run of calls that meet the condition, the strings are the next lines of the stream. -/
theorem AtLine.run {stream : List α} {s : St α} {calls : List (List Answer)}
    (here : AtLine stream s) (reads : Guarded jsSockRead ReadsLine s calls) :
    strings (results jsSockRead s calls) <+: lines stream := by
  induction calls generalizing s stream with
  | nil => exact List.nil_prefix
  | cons answers calls ih =>
    cases h : jsSockRead s answers with
    | none =>
      rw [results_cons_of_none calls h]
      exact List.nil_prefix
    | some next =>
      obtain ⟨r, s'⟩ := next
      obtain ⟨now, later⟩ := (along_cons_of_some calls h).1 reads
      rw [results_cons_of_some calls h]
      rcases here.step now h with ⟨silent, here'⟩ | ⟨l, c, rest, split, before, nl, rfl, here'⟩
      · rw [strings_cons, silent, List.nil_append]
        exact ih here' later
      · rw [split, lines_append_cons before nl]
        exact (List.prefix_cons_inj _).2 (ih here' later)

theorem AtLine.start (heap : ℕ → ℤ → α) (fd : ℤ) {k : Kernel α}
    (clean : ∀ c ∈ k.pending fd, isNul c = false) :
    AtLine (k.pending fd) (St.start heap [.int fd] k) := by
  have carries : (St.start heap [.int fd] k).obj.Carries [] :=
    ⟨[], rfl, Or.inl ⟨rfl, Or.inr fun x hx => absurd hx List.not_mem_nil⟩⟩
  exact ⟨jsSockConstruct_fits heap [.int fd], clean, [], carries, rfl⟩

/-- The first calls of `read` on a new connected Socket that return strings return the first lines
of the stream, as long as each call meets the condition. -/
theorem reads_return_lines (heap : ℕ → ℤ → α) (fd : ℤ) (k : Kernel α)
    (clean : ∀ c ∈ k.pending fd, isNul c = false) (calls : List (List Answer))
    (reads : Guarded jsSockRead ReadsLine (St.start heap [.int fd] k) calls) :
    strings (results jsSockRead (St.start heap [.int fd] k) calls) <+: lines (k.pending fd) :=
  (AtLine.start heap fd clean).run reads

/-- Two lines in one chunk. -/
theorem reads_return_lines_two :
    strings (results jsSockRead
      (St.start (fun _ _ => (0 : UInt8)) [.int 5] (.stream 5 [97, 10, 98, 10])) [[.upTo 4], []]) <+:
      lines [97, 10, 98, 10] := by
  refine reads_return_lines _ _ _ (by decide +kernel) _
    (guarded_cons (Or.inr ⟨?_, Or.inr ⟨?_, feedAll_singleton.2 ?_⟩⟩)
      (guarded_cons (Or.inl ⟨1, ?_, ?_, ?_⟩) trivial))
  · intro kept
    exact absurd kept (by decide)
  · decide +kernel
  · exact Or.inl ⟨10, by decide +kernel, by decide⟩
  · decide +kernel
  · decide +kernel
  · intro i low high
    obtain rfl : i = 0 := by omega
    decide +kernel

/-- Two lines in one chunk and a third behind: the third comes back as an empty line. -/
theorem reads_return_lines_not_three :
    ¬ strings (results jsSockRead
      (St.start (fun _ _ => (0 : UInt8)) [.int 5] (.stream 5 [97, 10, 98, 10, 99, 10]))
      [[.upTo 4], [], [.upTo 2]]) <+: lines [97, 10, 98, 10, 99, 10] := by
  decide +kernel

end Sysjs
