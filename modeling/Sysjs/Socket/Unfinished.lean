import Sysjs.Socket.LineStream
import Sysjs.Socket.Methods

/-!
# A line that arrives in pieces

`read` on a Socket whose buffered bytes are the beginning of a line.  Each round of the receive
loop is to put what it receives behind what is buffered; the loop grows the buffer after every
piece and moves the write position to the size of the part that was free before.
-/

set_option autoImplicit false

namespace Sysjs

open Feed

variable {α : Type*}

/-- In the state `h` of a call that started in `s` all that has come since then is buffered behind
what was, and `buffer_pos` is the number of these bytes. -/
def HoldsAll (s h : St α) : Prop :=
  ∃ got, s.pending = got ++ h.pending ∧ h.obj.buffered = s.obj.buffered ++ got ∧
    h.obj.bufferPos = (s.obj.buffered ++ got).length

variable [Octet α]

/-- What a `read` that started in `s` is to do: keep an unfinished line, or return the whole line
and keep what comes behind it. -/
inductive Continued (s : St α) : Ret α → St α → Prop
  | waiting (r : Ret α) (s' : St α) (value : ∀ chars, r ≠ .done (.string chars))
      (holds : HoldsAll s s') (clear : ∀ x ∈ s'.obj.buffered, isNl x = false) : Continued s r s'
  | line (l : List α) (c : α) (s' : St α) (before : ∀ x ∈ l, isNl x = false) (here : isNl c = true)
      (split : s.unconsumed = l ++ c :: s'.unconsumed)
      (number : s'.obj.bufferPos = s'.obj.buffered.length) :
      Continued s (.done (.string (chomp l))) s'

/-- A call of `read` keeps an unfinished line: at the head of every round, and when it returns. -/
structure KeepsUnfinished (s : St α) (answers : List Answer) : Prop where
  rounds : ∀ h ∈ s.readHeads answers, HoldsAll s h
  result : ∀ r s', jsSockRead s answers = some (r, s') → Continued s r s'

/-- A round of the receive loop loses nothing, and a line that it completes contains no NUL. -/
def RoundWhole (s : St α) (a : Answer) : Prop :=
  RoundKeeps s a ∧ ∀ data ∈ (s.kernel.read s.obj.sock s.readSize a).1,
    (∃ x ∈ data, isNl x = true) →
      ∀ x ∈ s.obj.buffered ++ data.takeWhile (fun c => !isNl c), isNul x = false

/-! ### Lines and their first newline -/

theorem not_isNul_of_isCr {c : α} (h : isCr c = true) : isNul c = false := by
  simp only [isCr, beq_iff_eq] at h
  simp [isNul, h]

/-- The string made of a line is the whole line if and only if the line contains no NUL. -/
theorem cut_chomp_eq_iff (l : List α) :
    cut (chomp l) = chomp l ↔ ∀ x ∈ l, isNul x = false := by
  have clean (m : List α) : cut m = m ↔ ∀ x ∈ m, isNul x = false := by
    rw [cut, List.takeWhile_eq_self_iff]
    simp
  rcases List.eq_nil_or_concat l with rfl | ⟨m, c, rfl⟩
  · exact clean []
  · rw [List.concat_eq_append, chomp_append_singleton]
    by_cases cr : isCr c = true
    · rw [if_pos cr, clean]
      refine ⟨fun h x hx => ?_, fun h x hx => h x (List.mem_append_left _ hx)⟩
      rcases List.mem_append.1 hx with old | last
      · exact h x old
      · rw [List.mem_singleton.1 last]
        exact not_isNul_of_isCr cr
    · rw [if_neg cr, clean]

/-! ### The receive loop -/

/-- A call that started in `s` has lost nothing when it comes to a loop head in the state `t`. -/
structure Progress (s t : St α) : Prop extends Receiving s.unconsumed s.obj.sock t where
  came : ∃ got, s.pending = got ++ t.pending

theorem Progress.holds {s t : St α} (p : Progress s t) : HoldsAll s t := by
  obtain ⟨got, came⟩ := p.came
  have buffered : t.obj.buffered = s.obj.buffered ++ got := by
    have same := p.same
    rw [St.unconsumed, St.unconsumed, came, ← List.append_assoc] at same
    exact List.append_cancel_right same
  exact ⟨got, came, buffered, by rw [← buffered, SockObj.length_buffered p.fits]⟩

omit [Octet α] in
theorem HoldsAll.length {s h : St α} {got : List α} (holds : HoldsAll s h)
    (came : s.pending = got ++ h.pending) : h.obj.bufferPos = (s.obj.buffered ++ got).length := by
  obtain ⟨got', came', -, number⟩ := holds
  have same : got' = got := List.append_cancel_right (came'.symm.trans came)
  rwa [same] at number

omit [Octet α] in
theorem HoldsAll.congr {s h h' : St α} (holds : HoldsAll s h) (pending : h'.pending = h.pending)
    (buffered : h'.obj.buffered = h.obj.buffered) (number : h'.obj.bufferPos = h.obj.bufferPos) :
    HoldsAll s h' := by
  unfold HoldsAll
  rw [pending, buffered, number]
  exact holds

/-- A call that leaves `buffer_pos` negative has not kept the bytes behind its line. -/
theorem not_continued_of_neg {s s' : St α} {chars : List α} (neg : s'.obj.bufferPos < 0) :
    ¬ Continued s (.done (.string chars)) s' := by
  intro h
  cases h with
  | waiting r s' value holds clear => exact value chars rfl
  | line l c s' before here split number => omega

/-- How the receive loop of a call that started in `s` is to end. -/
def EndsContinued (s : St α) (e : RecvExit α) : Prop := Continued s e.finish.1 e.finish.2

/-- The round in which a newline comes: the call does what it should if and only if the line has no
NUL. -/
theorem Progress.line_iff {s t : St α} {a : Answer} {k : Kernel α} {l r : List α} {c : α}
    (p : Progress s t)
    (got : t.kernel.read t.obj.sock t.readSize a = (some (l ++ c :: r), k))
    (before : ∀ x ∈ l, isNl x = false) (here : isNl c = true) :
    EndsContinued s (.stopped (t.landed (l ++ c :: r) k l.length) (t.obj.bufferPos + l.length)
      (r.length + 1)) ↔ ∀ x ∈ t.obj.buffered ++ l, isNul x = false := by
  obtain ⟨u, value, left⟩ := finishLine_of_line p.fits got here
  have split := p.toReceiving.split got left
  have quiet := p.toReceiving.quiet before
  have number : u.obj.bufferPos = u.obj.buffered.length :=
    (SockObj.length_buffered left.fits).symm
  rw [EndsContinued, RecvExit.finish, value, ← cut_chomp_eq_iff]
  constructor
  · intro h
    generalize whole : (Ret.done (.string (cut (chomp (t.obj.buffered ++ l))))) = ret at h
    cases h with
    | waiting ret u chars holds clear => exact absurd whole.symm (chars _)
    | line l' c' u before' here' split' number =>
      have same := (Block.split_unique isNl quiet here before' here' (split.symm.trans split')).1
      rw [same] at whole ⊢
      simpa using whole
  · intro whole
    have done := Continued.line (t.obj.buffered ++ l) c u quiet here split number
    rwa [← whole] at done

/-- The end of the stream: the call does what it should if and only if the loop finds no old newline
there. -/
theorem Progress.eof_iff {s t : St α} {a : Answer} {k : Kernel α} (p : Progress s t)
    (got : t.kernel.read t.obj.sock t.readSize a = (some [], k)) :
    EndsContinued s (.stopped ((t.withKernel k).withBuffer t.offered) t.obj.bufferPos 0) ↔
      isNl (t.obj.readBuffer.cells t.obj.bufferPos) = false := by
  rw [EndsContinued, RecvExit.finish]
  by_cases nl : isNl (t.obj.readBuffer.cells t.obj.bufferPos) = true
  · rw [finishLine_of_stale (s := ((t.withKernel k).withBuffer t.offered).resume) nl]
    exact iff_of_false (not_continued_of_neg (show (-1 : ℤ) < 0 by decide)) (by simp [nl])
  · rw [Bool.not_eq_true] at nl
    rw [finishLine_of_not (s := ((t.withKernel k).withBuffer t.offered).resume) nl]
    have silent : k.pending t.obj.sock = t.pending := (Kernel.read_pending got).symm
    exact iff_of_true (.waiting _ _ (by simp) (p.holds.congr silent rfl rfl) p.clear) nl

/-- An old newline behind what came ends the loop, and `buffer_pos` is lost. -/
theorem not_endsContinued_of_stale {s t : St α} {k : Kernel α} {data : List α}
    (behind : isNl (t.obj.readBuffer.cells (t.obj.bufferPos + data.length)) = true) :
    ¬ EndsContinued s (.stopped (t.landed data k data.length)
      (t.obj.bufferPos + data.length) 0) := by
  have nl : isNl ((t.landed data k data.length).resume.obj.readBuffer.cells
      (t.obj.bufferPos + data.length)) = true := by
    rw [← behind]
    exact congrArg isNl (Block.blit_cells_after _ _ le_rfl)
  rw [EndsContinued, RecvExit.finish, finishLine_of_stale nl]
  exact not_continued_of_neg (show (-1 : ℤ) < 0 by decide)

theorem Progress.came_grown {s t : St α} {a : Answer} {k : Kernel α} {data : List α}
    (p : Progress s t) (got : t.kernel.read t.obj.sock t.readSize a = (some data, k)) :
    ∃ had, s.pending = had ++ t.pending ∧ s.pending = (had ++ data) ++ k.pending t.obj.sock := by
  obtain ⟨had, before⟩ := p.came
  refine ⟨had, before, ?_⟩
  rw [before, List.append_assoc]
  exact congrArg (had ++ ·) (Kernel.read_pending got)

section Rounds

variable {s : St α} {a : Answer} {k : Kernel α}

theorem roundWhole_of_fail (got : s.kernel.read s.obj.sock s.readSize a = (none, k)) :
    RoundWhole s a := by
  simp [RoundWhole, RoundKeeps, got]

theorem roundWhole_eof_iff (got : s.kernel.read s.obj.sock s.readSize a = (some [], k)) :
    RoundWhole s a ↔ isNl (s.obj.readBuffer.cells s.obj.bufferPos) = false := by
  simp [RoundWhole, RoundKeeps, got]

theorem roundWhole_line_iff {l r : List α} {c : α}
    (got : s.kernel.read s.obj.sock s.readSize a = (some (l ++ c :: r), k))
    (before : ∀ x ∈ l, isNl x = false) (here : isNl c = true) :
    RoundWhole s a ↔ ∀ x ∈ s.obj.buffered ++ l, isNul x = false := by
  have has : ∃ x ∈ l ++ c :: r, isNl x = true := ⟨c, by simp, here⟩
  have front : (l ++ c :: r).takeWhile (fun c => !isNl c) = l := by
    rw [List.takeWhile_append_of_pos (by simpa using before),
      List.takeWhile_cons_of_neg (by simp [here]), List.append_nil]
  have keeps : RoundKeeps s a := by
    rw [RoundKeeps, got]
    cases whole : l ++ c :: r with
    | nil => simp at whole
    | cons x xs => exact Or.inl (whole ▸ has)
  rw [RoundWhole, and_iff_right keeps, got]
  constructor
  · intro h
    have clean := h _ rfl has
    rwa [front] at clean
  · rintro h data hdata -
    obtain rfl := Option.some.inj hdata
    rwa [front]

theorem roundWhole_chunk_iff {data : List α}
    (got : s.kernel.read s.obj.sock s.readSize a = (some data, k)) (came : data ≠ [])
    (clear : ∀ x ∈ data, isNl x = false) :
    RoundWhole s a ↔ isNl (s.obj.readBuffer.cells (s.obj.bufferPos + data.length)) = false ∧
      s.obj.bufferSize - s.obj.bufferPos = s.obj.bufferPos + (data.length : ℤ) := by
  have none : ¬ ∃ x ∈ data, isNl x = true := by
    rintro ⟨x, hx, nl⟩
    simp [clear x hx] at nl
  constructor
  · exact fun h => (h.1.chunk got came).resolve_left none
  · intro h
    refine ⟨?_, fun data' hdata' has => ?_⟩
    · rw [RoundKeeps, got]
      cases data with
      | nil => exact absurd rfl came
      | cons x xs => exact Or.inr h
    · rw [got] at hdata'
      exact absurd (Option.some.inj hdata' ▸ has) none

end Rounds

/-- When the loop is left in a round, only its end counts. -/
theorem leaves_iff {s t : St α} {a : Answer} {e : RecvExit α} (answers : List Answer)
    (p : Progress s t) (body : recvBody t a = .inl e) :
    ((∀ h ∈ heads recvBody t (a :: answers), HoldsAll s h) ∧
      ∀ e rest, feed recvBody t (a :: answers) = some (e, rest) → EndsContinued s e) ↔
      EndsContinued s e := by
  rw [heads_cons_inl answers body, feed_cons_inl answers body]
  constructor
  · exact fun h => h.2 e answers rfl
  · rintro ends
    refine ⟨fun h hh => ?_, fun e' rest done => ?_⟩
    · rw [List.mem_singleton.1 hh]
      exact p.holds
    · rw [Option.some.injEq, Prod.mk.injEq] at done
      rwa [← done.1]

/-- From a loop head on, the call does what it should at every later head and at its end if and only
if every round it executes loses nothing and the line it completes contains no NUL. -/
theorem rounds_whole_iff {s t : St α} (answers : List Answer) (p : Progress s t) :
    ((∀ h ∈ heads recvBody t answers, HoldsAll s h) ∧
      ∀ e rest, feed recvBody t answers = some (e, rest) → EndsContinued s e) ↔
      FeedAll recvBody RoundWhole t answers := by
  induction answers generalizing t with
  | nil =>
    refine iff_of_true ⟨fun h hh => ?_, fun e rest done => ?_⟩ trivial
    · obtain rfl : h = t := by simpa [heads] using hh
      exact p.holds
    · simp [feed] at done
  | cons a answers ih =>
    have step := recvBody_spec t a
    generalize body : recvBody t a = next at step
    cases step with
    | failed got =>
      rw [leaves_iff answers p body, feedAll_cons_inl answers body]
      exact iff_of_true (.waiting _ _ (by simp [RecvExit.finish]) p.holds p.clear)
        (roundWhole_of_fail got)
    | ended k got =>
      rw [leaves_iff answers p body, feedAll_cons_inl answers body, roundWhole_eof_iff got,
        p.eof_iff got]
    | line k l c r got before here =>
      rw [leaves_iff answers p body, feedAll_cons_inl answers body, p.line_iff got before here,
        roundWhole_line_iff got before here]
    | stale k data got came clear behind =>
      rw [leaves_iff answers p body, feedAll_cons_inl answers body,
        roundWhole_chunk_iff got came clear]
      exact iff_of_false (not_endsContinued_of_stale behind) (by simp [behind])
    | grown k data got came clear behind =>
      rw [feedAll_cons_inr answers body, roundWhole_chunk_iff got came clear,
        heads_cons_inr answers body, feed_cons_inr answers body, and_iff_right behind]
      obtain ⟨had, before, now⟩ := p.came_grown got
      have next
          (place : t.obj.bufferSize - t.obj.bufferPos = t.obj.bufferPos + (data.length : ℤ)) :=
        ih ⟨p.toReceiving.grown got clear place, had ++ data, now⟩
      constructor
      · rintro ⟨rounds, ends⟩
        have number : t.obj.bufferSize - t.obj.bufferPos =
            ((s.obj.buffered ++ (had ++ data)).length : ℤ) :=
          (rounds _ (List.mem_cons_of_mem _ (head_mem_heads _ _ _))).length now
        have old := p.holds.length before
        have place : t.obj.bufferSize - t.obj.bufferPos = t.obj.bufferPos + (data.length : ℤ) := by
          simp only [List.length_append] at number old
          omega
        exact ⟨place, (next place).1
          ⟨fun h hh => rounds h (List.mem_cons_of_mem _ hh), ends⟩⟩
      · rintro ⟨place, later⟩
        obtain ⟨rounds, ends⟩ := (next place).2 later
        refine ⟨fun h hh => ?_, ends⟩
        rcases List.mem_cons.1 hh with rfl | hh
        · exact p.holds
        · exact rounds h hh

/-! ### The call -/

/-- Without a buffered line the call ends as its receive loop does. -/
theorem result_iff_of_noLine {s : St α} (answers : List Answer) (fresh : s.obj.NoLine) :
    (∀ r s', jsSockRead s answers = some (r, s') → Continued s r s') ↔
      ∀ e rest, feed recvBody s.receiving answers = some (e, rest) → EndsContinued s e := by
  rw [jsSockRead_of_noLine answers fresh]
  constructor
  · intro result e rest done
    exact result _ _ (by rw [done]; rfl)
  · intro ends r s' called
    obtain ⟨⟨e, rest⟩, done, finish⟩ := Option.map_eq_some_iff.1 called
    have continued := ends e rest done
    rwa [EndsContinued, show e.finish = (r, s') from finish] at continued

/-- A newline found behind the buffered bytes ends the line too early. -/
theorem noLine_of_result {s : St α} {answers : List Answer} (fits : s.obj.Fits)
    (clear : ∀ x ∈ s.obj.buffered, isNl x = false)
    (result : ∀ r s', jsSockRead s answers = some (r, s') → Continued s r s') : s.obj.NoLine := by
  have step := bufferedLine_spec s.obj
  have count := SockObj.length_buffered fits
  generalize found : bufferedLine s.obj = served at step
  cases step with
  | empty nothing => exact fun kept => absurd kept (by omega)
  | absent kept quiet => exact fun _ => quiet
  | found p low first here =>
    have inside : p < s.obj.buffered.length := by omega
    rw [SockObj.cells_buffered inside, clear _ (List.getElem_mem inside)] at here
    cases here
  | stray p kept low high first here =>
    have continued := result _ _ (jsSockRead_of_buffered answers found)
    generalize after : ({ s with obj := _ } : St α) = s' at continued
    generalize value : (Ret.done (.string _) : Ret α) = r at continued
    cases continued with
    | waiting r s' chars holds quiet => exact absurd value.symm (chars _)
    | line l c s' before nl split number =>
      have left : s'.unconsumed = s.pending := by
        rw [← after]
        exact (congrArg (· ++ s.pending) (SockObj.buffered_of_zero rfl)).trans (List.nil_append _)
      rw [left, St.unconsumed, ← List.singleton_append, ← List.append_assoc] at split
      have all := List.append_cancel_right split
      have quiet := clear c (by rw [all]; simp)
      simp [nl] at quiet

/-- With no newline buffered, the call does what it should if and only if its scan of the buffer
takes no newline for buffered that lies behind, and every receive round loses nothing and completes
no line with a NUL in it. -/
theorem unfinished_kept_iff {s : St α} (answers : List Answer) (fits : s.obj.Fits)
    (clear : ∀ x ∈ s.obj.buffered, isNl x = false) :
    KeepsUnfinished s answers ↔
      s.obj.NoLine ∧ FeedAll recvBody RoundWhole s.receiving answers := by
  have loop (fresh : s.obj.NoLine) : KeepsUnfinished s answers ↔
      FeedAll recvBody RoundWhole s.receiving answers := by
    obtain ⟨len, buffered⟩ := SockObj.bufferedLine_of_noLine fresh
    have start : Progress s s.receiving := ⟨receiving_start fits fresh, [], by
      rw [St.receiving, buffered]
      rfl⟩
    rw [← rounds_whole_iff answers start, ← result_iff_of_noLine answers fresh,
      ← readHeads_of_noLine answers fresh]
    exact ⟨fun h => ⟨h.rounds, h.result⟩, fun h => ⟨h.1, h.2⟩⟩
  constructor
  · intro h
    have fresh := noLine_of_result fits clear h.result
    exact ⟨fresh, (loop fresh).1 h⟩
  · rintro ⟨fresh, rounds⟩
    exact (loop fresh).2 rounds

/-- A line that comes at once. -/
theorem unfinished_kept_iff_at_once : KeepsUnfinished (.opened 5 [97, 98, 10]) [.upTo 3] := by
  have got : (St.opened 5 [97, 98, 10]).receiving.kernel.read 5
      (St.opened 5 [97, 98, 10]).receiving.readSize (.upTo 3) =
        (some ([97, 98] ++ 10 :: []), _) := rfl
  refine (unfinished_kept_iff _ (opened_fits 5 _) ?_).2 ⟨fun kept => absurd kept (by decide),
    feedAll_singleton.2 ((roundWhole_line_iff got ?_ ?_).2 ?_)⟩
  all_goals decide +kernel

/-- A line that comes in two pieces: the second one is put behind 32768 bytes. -/
theorem unfinished_kept_not_two_pieces :
    ¬ KeepsUnfinished (.opened 5 [97, 98, 10]) [.upTo 1, .upTo 2] := by
  intro h
  have places : ((St.opened 5 [97, 98, 10]).readHeads [.upTo 1, .upTo 2]).map
      (fun t => t.obj.bufferPos) = [0, 32768] := by decide +kernel
  have second : (32768 : ℤ) ∈ ((St.opened 5 [97, 98, 10]).readHeads [.upTo 1, .upTo 2]).map
      (fun t => t.obj.bufferPos) := by
    rw [places]
    decide
  obtain ⟨t, visited, place⟩ := List.mem_map.1 second
  obtain ⟨got, came, -, number⟩ := h.rounds t visited
  have total : (St.opened 5 [97, 98, 10]).pending.length = 3 := by decide +kernel
  rw [came, List.length_append] at total
  rw [place, List.length_append] at number
  have none : (St.opened 5 [97, 98, 10]).obj.buffered.length = 0 := by decide +kernel
  omega

end Sysjs
