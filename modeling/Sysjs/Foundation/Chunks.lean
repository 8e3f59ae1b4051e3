import Sysjs.Foundation.Block

/-!
# Reading a stream piece by piece

`chunk hit n l` is what one bounded read of a line takes from `l`: at most `n` items, and none
behind the first that `hit` accepts.  The lines of a stream end with such an item, the last one
perhaps without it.
-/

set_option autoImplicit false

namespace Sysjs.Chunks

variable {α : Type*} (hit : α → Bool)

/-- At most `n` items, up to the first hit. -/
def chunk : ℕ → List α → List α
  | 0, _ => []
  | _ + 1, [] => []
  | n + 1, c :: l => if hit c then [c] else c :: chunk n l

/-- The first line without its end, and what follows it. -/
def firstLine : List α → List α × List α
  | [] => ([], [])
  | c :: l => if hit c then ([], l) else (c :: (firstLine l).1, (firstLine l).2)

variable {hit}

theorem chunk_of_hit {n : ℕ} {l : List α} {c : α} (rest : List α) (before : ∀ x ∈ l, hit x = false)
    (here : hit c = true) (short : l.length < n) : chunk hit n (l ++ c :: rest) = l ++ [c] := by
  induction l generalizing n with
  | nil =>
    cases n with
    | zero => cases short
    | succ n => simp [chunk, here]
  | cons x l ih =>
    cases n with
    | zero => cases short
    | succ n =>
      obtain ⟨first, before⟩ := List.forall_mem_cons.1 before
      simp [chunk, first, ih before (Nat.lt_of_succ_lt_succ short)]

/-- A read that meets no end of a line takes all it may. -/
theorem chunk_of_clear {n : ℕ} {l : List α} (tail : List α) (before : ∀ x ∈ l, hit x = false)
    (long : n ≤ l.length) : chunk hit n (l ++ tail) = l.take n := by
  induction l generalizing n with
  | nil =>
    obtain rfl := Nat.le_zero.1 long
    rfl
  | cons x l ih =>
    cases n with
    | zero => rfl
    | succ n =>
      obtain ⟨first, before⟩ := List.forall_mem_cons.1 before
      simp [chunk, first, ih before (Nat.le_of_succ_le_succ long)]

/-- At the end of a stream without an end of a line, a read takes what is left. -/
theorem chunk_of_end {n : ℕ} {l : List α} (before : ∀ x ∈ l, hit x = false) (short : l.length ≤ n) :
    chunk hit n l = l := by
  induction l generalizing n with
  | nil => cases n <;> rfl
  | cons x l ih =>
    cases n with
    | zero => cases short
    | succ n =>
      obtain ⟨first, before⟩ := List.forall_mem_cons.1 before
      simp [chunk, first, ih before (Nat.le_of_succ_le_succ short)]

theorem firstLine_of_hit {l : List α} {c : α} (rest : List α) (before : ∀ x ∈ l, hit x = false)
    (here : hit c = true) : firstLine hit (l ++ c :: rest) = (l, rest) := by
  induction l with
  | nil => simp [firstLine, here]
  | cons x l ih =>
    obtain ⟨first, before⟩ := List.forall_mem_cons.1 before
    simp [firstLine, first, ih before]

theorem firstLine_of_end {l : List α} (before : ∀ x ∈ l, hit x = false) :
    firstLine hit l = (l, []) := by
  induction l with
  | nil => rfl
  | cons x l ih =>
    obtain ⟨first, before⟩ := List.forall_mem_cons.1 before
    simp [firstLine, first, ih before]

theorem firstLine_parts (hit : α → Bool) (l : List α) :
    (firstLine hit l).1 <+: l ∧ (firstLine hit l).2 <:+ l := by
  induction l with
  | nil => exact ⟨List.prefix_refl _, List.suffix_refl _⟩
  | cons c l ih =>
    rw [firstLine]
    split
    · exact ⟨List.nil_prefix, List.suffix_cons _ _⟩
    · exact ⟨(List.prefix_cons_inj c).2 ih.1, ih.2.trans (List.suffix_cons _ _)⟩

/-- A line takes something of the stream, if only its end. -/
theorem length_firstLine_lt (hit : α → Bool) {l : List α} (some_left : l ≠ []) :
    (firstLine hit l).2.length < l.length := by
  induction l with
  | nil => exact absurd rfl some_left
  | cons c l ih =>
    rw [firstLine]
    split
    · exact Nat.lt_succ_self _
    · by_cases last : l = []
      · subst last
        exact Nat.succ_pos 0
      · exact Nat.lt_succ_of_lt (ih last)

theorem clear_or_split (hit : α → Bool) (l : List α) : (∀ x ∈ l, hit x = false) ∨
    ∃ front c rest, l = front ++ c :: rest ∧ (∀ x ∈ front, hit x = false) ∧ hit c = true := by
  by_cases some_hit : ∃ c ∈ l, hit c = true
  · exact Or.inr (Block.split_at_first hit some_hit)
  · exact Or.inl (by simpa using some_hit)

/-- What a read that may take an item takes: the rest of a line with its end; part of a line, as
much as it may or up to the end of the stream; or nothing, as nothing is left. -/
theorem chunk_cases (hit : α → Bool) {m : ℕ} (pos : 0 < m) (l : List α) :
    (∃ front c rest, l = front ++ c :: rest ∧ (∀ x ∈ front, hit x = false) ∧ hit c = true ∧
      front.length < m ∧ chunk hit m l = front ++ [c]) ∨
    (∃ data rest, l = data ++ rest ∧ (∀ x ∈ data, hit x = false) ∧ data ≠ [] ∧ data.length ≤ m ∧
      (data.length = m ∨ rest = []) ∧ chunk hit m l = data) ∨
    l = [] ∧ chunk hit m l = [] := by
  have take (data tail : List α) (split : l = data ++ tail) (clear : ∀ x ∈ data, hit x = false)
      (long : m ≤ data.length) : ∃ data rest, l = data ++ rest ∧ (∀ x ∈ data, hit x = false) ∧
        data ≠ [] ∧ data.length ≤ m ∧ (data.length = m ∨ rest = []) ∧ chunk hit m l = data := by
    have count : (data.take m).length = m := List.length_take_of_le long
    refine ⟨data.take m, data.drop m ++ tail, ?_, fun x hx => clear x (List.mem_of_mem_take hx), ?_,
      by omega, Or.inl count, ?_⟩
    · rw [← List.append_assoc, List.take_append_drop, split]
    · rw [← List.length_pos_iff]
      omega
    · rw [split, chunk_of_clear tail clear long]
  rcases clear_or_split hit l with clear | ⟨front, c, rest, split, before, here⟩
  · by_cases long : m ≤ l.length
    · exact Or.inr (Or.inl (take l [] (List.append_nil _).symm clear long))
    · have got : chunk hit m l = l := chunk_of_end clear (by omega)
      by_cases nothing : l = []
      · exact Or.inr (Or.inr ⟨nothing, got.trans nothing⟩)
      · exact Or.inr (Or.inl ⟨l, [], (List.append_nil _).symm, clear, nothing, by omega, Or.inr rfl,
          got⟩)
  · by_cases short : front.length < m
    · refine Or.inl ⟨front, c, rest, split, before, here, short, ?_⟩
      rw [split, chunk_of_hit rest before here short]
    · exact Or.inr (Or.inl (take front (c :: rest) split before (by omega)))

/-- The first lines of a stream, and what follows them. -/
inductive Rows (hit : α → Bool) : List α → List (List α) → List α → Prop where
  | none (stream : List α) : Rows hit stream [] stream
  | next {stream rest rest' l : List α} {rows : List (List α)} (before : Rows hit stream rows rest)
      (some_left : rest ≠ []) (first : firstLine hit rest = (l, rest')) :
      Rows hit stream (rows ++ [l]) rest'

/-- Rows in one text, with `sep` between them. -/
def joined (sep : α) : List (List α) → List α
  | [] => []
  | [l] => l
  | l :: l' :: rows => l ++ sep :: joined sep (l' :: rows)

theorem joined_concat (sep : α) {rows : List (List α)} (some_row : rows ≠ []) (l : List α) :
    joined sep (rows ++ [l]) = joined sep rows ++ sep :: l := by
  induction rows with
  | nil => exact absurd rfl some_row
  | cons first rows ih =>
    cases rows with
    | nil => rfl
    | cons second rows =>
      have later := ih nofun
      rw [List.cons_append] at later
      simp [joined, later]

theorem joined_eq_nil {sep : α} {rows : List (List α)} (nothing : joined sep rows = []) :
    rows = [] ∨ rows = [[]] := by
  match rows, nothing with
  | [], _ => exact Or.inl rfl
  | [l], nothing => exact Or.inr (congrArg (fun l => [l]) nothing)
  | l :: _ :: _, nothing => simp [joined] at nothing

end Sysjs.Chunks
