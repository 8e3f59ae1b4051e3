import Sysjs.Socket.Lines

/-!
# The two ways to a line

The same bytes as buffered bytes and as received ones.  The search in the buffer counts down from
`buffer_pos` without the newline, the receive loop takes the newline off; so what is left behind the
line differs by one byte.
-/

set_option autoImplicit false

namespace Sysjs

open Feed

variable {α : Type*} [Octet α]

/-- A `read` that finds the bytes `b` in the buffer and one that receives them return the first line
and keep exactly what comes behind it. -/
def PathsAgree (s t : St α) (a : Answer) (b : List α) : Prop :=
  ∃ l c rest s' t', b = l ++ c :: rest ∧ (∀ x ∈ l, isNl x = false) ∧ isNl c = true ∧
    jsSockRead s [] = some (.done (.string (chomp l)), s') ∧
    jsSockRead t [a] = some (.done (.string (chomp l)), t') ∧
    s'.obj.bufferPos = rest.length ∧ s'.obj.buffered = rest ∧
    t'.obj.bufferPos = rest.length ∧ t'.obj.buffered = rest

/-- What a `read` does with a line in the buffer: it keeps the bytes behind the line and the one
behind the buffered bytes. -/
theorem read_of_held {s : St α} {l rest : List α} {c : α} (answers : List Answer)
    (fits : s.obj.Fits) (held : s.obj.buffered = l ++ c :: rest)
    (before : ∀ x ∈ l, isNl x = false) (here : isNl c = true) :
    ∃ s', jsSockRead s answers = some (.done (.string (cut (chomp l))), s') ∧
      s'.obj.bufferPos = rest.length + 1 ∧
      s'.obj.buffered = rest ++ [s.obj.readBuffer.cells s.obj.bufferPos] ∧
      s'.obj.Fits ∧ s'.obj.sock = s.obj.sock ∧ s'.obj.bufferSize = s.obj.bufferSize ∧
      s'.kernel = s.kernel := by
  have count := SockObj.length_buffered fits
  have high := fits.high
  have block := fits.block
  rw [held, List.length_append, List.length_cons] at count
  obtain ⟨front, at_c, behind⟩ := Block.slice_split held
  rw [Int.zero_add] at at_c behind
  have first : ∀ i : ℤ, 0 ≤ i → i < l.length → isNl (s.obj.readBuffer.cells i) = false := by
    intro i low below
    obtain ⟨j, rfl⟩ := Int.eq_ofNat_of_zero_le low
    refine before _ ?_
    rw [← front, Block.mem_slice]
    exact ⟨j, by omega, by rw [Int.zero_add]⟩
  have nl : isNl (s.obj.readBuffer.cells l.length) = true := by rwa [at_c]
  have line : (cutLine (s.obj.readBuffer.touch 0 (l.length + 1)) l.length).1 = cut (chomp l) := by
    rw [cutLine_fst _ (by rw [Block.touch_size]; omega), Block.slice_touch, front]
  have found := bufferedLine_of_first (p := l.length) (by omega) first nl
  rw [line] at found
  have left : (s.obj.bufferPos - l.length).toNat = rest.length + 1 := by omega
  refine ⟨_, jsSockRead_of_buffered answers found, ?_, ?_, ⟨?_, ?_, ?_⟩, rfl, rfl, rfl⟩
  · dsimp only
    omega
  · refine (buffered_after_served (by omega) _ fun i hi => ?_).trans ?_
    · exact cutLine_cells_ne _ (by omega) (by omega)
    · have last : (l.length : ℤ) + 1 + rest.length = s.obj.bufferPos := by omega
      rw [left, Block.slice_succ, behind, last]
  · dsimp only
    omega
  · dsimp only
    omega
  · simpa using block

/-- What a `read` with an empty buffer does with a line it receives: the bytes behind are kept. -/
theorem read_of_received {t : St α} {a : Answer} {k : Kernel α} {l rest : List α} {c : α}
    (fits : t.obj.Fits) (empty : t.obj.bufferPos = 0)
    (got : t.kernel.read t.obj.sock t.readSize a = (some (l ++ c :: rest), k))
    (before : ∀ x ∈ l, isNl x = false) (here : isNl c = true) :
    ∃ t', jsSockRead t [a] = some (.done (.string (cut (chomp l))), t') ∧
      t'.obj.bufferPos = rest.length ∧ t'.obj.buffered = rest ∧ t'.kernel = k := by
  have fresh : t.obj.NoLine := fun kept => absurd kept (by omega)
  have start := receiving_start fits fresh
  obtain ⟨len, scan⟩ := SockObj.bufferedLine_of_noLine fresh
  have none_kept : t.receiving.obj.buffered = [] := by
    rw [St.receiving, scan]
    exact SockObj.buffered_of_zero empty
  have got' : t.receiving.kernel.read t.receiving.obj.sock t.receiving.readSize a =
      (some (l ++ c :: rest), k) := by
    rw [St.receiving, scan]
    exact got
  obtain ⟨t', value, left⟩ := finishLine_of_line start.fits got' here
  rw [none_kept, List.nil_append] at value
  refine ⟨t', ?_, left.bufferPos, left.buffered, left.kernel⟩
  rw [jsSockRead_of_noLine [a] fresh, feed_cons_inl [] (recvBody_of_line got' before here)]
  exact congrArg some value

/-- On bytes without NUL the two ways return the same line and keep the same rest; the one through
the buffer keeps the byte behind the buffered ones as well. -/
theorem paths_differ {s t : St α} {a : Answer} {k : Kernel α} {b : List α} (answers : List Answer)
    (holds : s.obj.Fits) (fits : t.obj.Fits) (held : s.obj.buffered = b)
    (empty : t.obj.bufferPos = 0) (got : t.kernel.read t.obj.sock t.readSize a = (some b, k))
    (clean : ∀ x ∈ b, isNul x = false) (complete : ∃ x ∈ b, isNl x = true) :
    ∃ l c rest s' t', b = l ++ c :: rest ∧ (∀ x ∈ l, isNl x = false) ∧ isNl c = true ∧
      jsSockRead s answers = some (.done (.string (chomp l)), s') ∧
      jsSockRead t [a] = some (.done (.string (chomp l)), t') ∧
      s'.obj.bufferPos = rest.length + 1 ∧
      s'.obj.buffered = rest ++ [s.obj.readBuffer.cells b.length] ∧
      t'.obj.bufferPos = rest.length ∧ t'.obj.buffered = rest := by
  obtain ⟨l, c, rest, rfl, before, here⟩ := Block.split_at_first isNl complete
  have text : cut (chomp l) = chomp l :=
    cut_of_not_isNul fun x hx => clean x (List.mem_append_left _ (chomp_subset hx))
  have count := SockObj.length_buffered holds
  obtain ⟨s', value, pos, kept, -⟩ := read_of_held answers holds held before here
  obtain ⟨t', value', pos', kept', -⟩ := read_of_received fits empty got before here
  rw [text] at value value'
  rw [← count, held] at kept
  exact ⟨l, c, rest, s', t', rfl, before, here, value, value', pos, kept, pos', kept'⟩

/-- The two ways never agree. -/
theorem paths_never_agree {s t : St α} {a : Answer} {k : Kernel α} {b : List α}
    (holds : s.obj.Fits) (fits : t.obj.Fits) (held : s.obj.buffered = b)
    (empty : t.obj.bufferPos = 0) (got : t.kernel.read t.obj.sock t.readSize a = (some b, k))
    (clean : ∀ x ∈ b, isNul x = false) (complete : ∃ x ∈ b, isNl x = true) :
    ¬ PathsAgree s t a b := by
  rintro ⟨l', c', rest', s₁, t₁, split, before', here', value, value', pos, -, pos', -⟩
  obtain ⟨l, c, rest, s₂, t₂, -, -, -, served, received, number, -, number', -⟩ :=
    paths_differ [] holds fits held empty got clean complete
  rw [served, Option.some.injEq, Prod.mk.injEq] at value
  rw [received, Option.some.injEq, Prod.mk.injEq] at value'
  rw [← value.2, number] at pos
  rw [← value'.2, number'] at pos'
  omega

/-- One line, in the buffer and received. -/
theorem paths_never_agree_one_line :
    ¬ PathsAgree (.holding [98, 10] []) (.opened 5 [98, 10]) (.upTo 2) [98, 10] := by
  have got : ((St.opened 5 [98, 10]).kernel.read 5 (32 * 1024) (.upTo 2)) =
      (some [98, 10], _) := rfl
  exact paths_never_agree ⟨by decide +kernel, by decide +kernel, by decide +kernel⟩
    (opened_fits 5 _) (by decide +kernel) rfl got (by decide +kernel) (by decide +kernel)

/-- Two lines: behind the first one three bytes are kept when it was in the buffer, two when it was
received. -/
theorem paths_agree_not_two_lines :
    ¬ PathsAgree (.holding [98, 10, 99, 10] []) (.opened 5 [98, 10, 99, 10]) (.upTo 4)
      [98, 10, 99, 10] := by
  rintro ⟨l, c, rest, s', t', -, -, -, value, value', pos, -, pos', -⟩
  have served : (jsSockRead (.holding [98, 10, 99, 10] []) []).map (fun x => x.2.obj.bufferPos) =
      some 3 := by decide +kernel
  have received : (jsSockRead (.opened 5 [98, 10, 99, 10]) [.upTo 4]).map
      (fun x => x.2.obj.bufferPos) = some 2 := by decide +kernel
  rw [value, Option.map_some, Option.some.injEq] at served
  rw [value', Option.map_some, Option.some.injEq] at received
  dsimp only at served received
  omega

end Sysjs
