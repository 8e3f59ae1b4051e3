import Mathlib.Tactic.Common
import Mathlib.Logic.Function.Basic
import Mathlib.Data.Int.Basic
import Mathlib.Data.List.Basic

/-!
# Heap blocks

A block of a C heap: cells addressed by an integer index from the block's first cell, the
allocated size, and a flag that stays `true` as long as every access was inside the block.  Cells
outside the block have contents too: a program that strays reads whatever lies there.  `supply`
holds the contents of the memory that later reallocations hand out.
-/

set_option autoImplicit false

namespace Sysjs

structure Block (α : Type*) where
  cells : ℤ → α
  size : ℕ
  supply : ℕ → ℤ → α
  safe : Bool

namespace Block

variable {α : Type*}

/-- The `len` cells from `lo` on lie inside a block of `size` cells. -/
def Inside (size : ℕ) (lo len : ℤ) : Prop := len ≤ 0 ∨ (0 ≤ lo ∧ lo + len ≤ size)

instance (size : ℕ) (lo len : ℤ) : Decidable (Inside size lo len) :=
  inferInstanceAs (Decidable (_ ∨ _))

/-- `malloc`: a block with arbitrary contents. -/
def malloc (size : ℕ) (heap : ℕ → ℤ → α) : Block α where
  cells := heap 0
  size := size
  supply := fun k => heap (k + 1)
  safe := true

/-- Record an access to `len` cells from `lo` on. -/
def touch (b : Block α) (lo len : ℤ) : Block α :=
  { b with safe := b.safe && decide (Inside b.size lo len) }

/-- `p[i] = c`. -/
def store (b : Block α) (i : ℤ) (c : α) : Block α :=
  { b.touch i 1 with cells := Function.update b.cells i c }

/-- The environment puts `data` at `lo`; the access is that of the range it was offered. -/
def blit (b : Block α) (lo : ℤ) (data : List α) : Block α :=
  { b with cells := fun i =>
      if lo ≤ i then data.getD (i - lo).toNat (b.cells i) else b.cells i }

/-- `memmove(p + dst, p + src, len)`. -/
def move (b : Block α) (dst src len : ℤ) : Block α :=
  { (b.touch src len).touch dst len with cells := fun i =>
      if dst ≤ i ∧ i < dst + len then b.cells (src + (i - dst)) else b.cells i }

/-- `realloc(p, n)`: the common cells are kept, the others are whatever the allocator hands out. -/
def realloc (b : Block α) (n : ℕ) : Block α where
  cells := fun i => if 0 ≤ i ∧ i < b.size ∧ i < n then b.cells i else b.supply 0 i
  size := n
  supply := fun k => b.supply (k + 1)
  safe := b.safe

/-- The `n` cells from `lo` on. -/
def slice (b : Block α) (lo : ℤ) (n : ℕ) : List α :=
  (List.range n).map fun i : ℕ => b.cells (lo + (i : ℤ))

/-- Walk from `p` over at most `n` cells up to the first that `hit` accepts: where the walk
stops, and how many cells it had left. -/
def seek (hit : α → Bool) (cells : ℤ → α) (p : ℤ) : ℕ → ℤ × ℕ
  | 0 => (p, 0)
  | n + 1 => if hit (cells p) then (p, n + 1) else seek hit cells (p + 1) n

/-- The cells from `lo` on up to the first that `stop` accepts, at most `n` of them. -/
def upTo (stop : α → Bool) (cells : ℤ → α) (lo : ℤ) : ℕ → List α
  | 0 => []
  | n + 1 => if stop (cells lo) then [] else cells lo :: upTo stop cells (lo + 1) n

/-! ### Sizes and the access flag -/

@[simp] theorem touch_cells (b : Block α) (lo len : ℤ) : (b.touch lo len).cells = b.cells := rfl

@[simp] theorem touch_size (b : Block α) (lo len : ℤ) : (b.touch lo len).size = b.size := rfl

@[simp] theorem touch_safe (b : Block α) (lo len : ℤ) :
    (b.touch lo len).safe = true ↔ b.safe = true ∧ Inside b.size lo len := by
  simp [touch]

@[simp] theorem store_size (b : Block α) (i : ℤ) (c : α) : (b.store i c).size = b.size := rfl

@[simp] theorem store_safe (b : Block α) (i : ℤ) (c : α) :
    (b.store i c).safe = true ↔ b.safe = true ∧ Inside b.size i 1 := by
  simp [store]

@[simp] theorem blit_size (b : Block α) (lo : ℤ) (data : List α) :
    (b.blit lo data).size = b.size := rfl

@[simp] theorem blit_safe (b : Block α) (lo : ℤ) (data : List α) :
    (b.blit lo data).safe = b.safe := rfl

@[simp] theorem move_size (b : Block α) (dst src len : ℤ) :
    (b.move dst src len).size = b.size := rfl

@[simp] theorem move_safe (b : Block α) (dst src len : ℤ) :
    (b.move dst src len).safe = true ↔
      b.safe = true ∧ Inside b.size src len ∧ Inside b.size dst len := by
  simp [move, and_assoc]

@[simp] theorem realloc_size (b : Block α) (n : ℕ) : (b.realloc n).size = n := rfl

@[simp] theorem realloc_safe (b : Block α) (n : ℕ) : (b.realloc n).safe = b.safe := rfl

theorem touch_of_nonpos (b : Block α) (lo : ℤ) {len : ℤ} (h : len ≤ 0) : b.touch lo len = b := by
  simp [touch, Inside, h]

theorem inside_of_le {size : ℕ} {lo len : ℤ} (low : 0 ≤ lo) (high : lo + len ≤ size) :
    Inside size lo len := Or.inr ⟨low, high⟩

/-! ### Cells after an access -/

theorem store_cells (b : Block α) (i : ℤ) (c : α) (j : ℤ) :
    (b.store i c).cells j = if j = i then c else b.cells j := by
  simp [store, Function.update_apply]

@[simp] theorem store_cells_self (b : Block α) (i : ℤ) (c : α) : (b.store i c).cells i = c := by
  simp [store_cells]

theorem store_cells_ne (b : Block α) (c : α) {i j : ℤ} (h : j ≠ i) :
    (b.store i c).cells j = b.cells j := by
  simp [store_cells, h]

theorem move_cells (b : Block α) (dst src len i : ℤ) : (b.move dst src len).cells i =
    if dst ≤ i ∧ i < dst + len then b.cells (src + (i - dst)) else b.cells i := rfl

@[simp] theorem blit_nil (b : Block α) (lo : ℤ) : b.blit lo [] = b := by
  simp [blit]

theorem blit_cells_before (b : Block α) (data : List α) {lo i : ℤ} (h : i < lo) :
    (b.blit lo data).cells i = b.cells i := by
  simp [blit, Int.not_le.mpr h]

theorem blit_cells_after (b : Block α) (data : List α) {lo i : ℤ} (h : lo + data.length ≤ i) :
    (b.blit lo data).cells i = b.cells i := by
  have hlen : data.length ≤ (i - lo).toNat := by omega
  simp [blit, List.getElem?_eq_none hlen]

theorem blit_cells_inside (b : Block α) (data : List α) {lo i : ℤ} (low : lo ≤ i)
    (high : (i - lo).toNat < data.length) :
    (b.blit lo data).cells i = data[(i - lo).toNat] := by
  simp [blit, low, List.getElem?_eq_getElem high]

theorem blit_cells_congr {b b' : Block α} {data : List α} {lo i : ℤ}
    (before : i < lo → b'.cells i = b.cells i)
    (after : lo + data.length ≤ i → b'.cells i = b.cells i) :
    (b'.blit lo data).cells i = (b.blit lo data).cells i := by
  by_cases low : i < lo
  · rw [blit_cells_before _ _ low, blit_cells_before _ _ low, before low]
  · by_cases high : lo + data.length ≤ i
    · rw [blit_cells_after _ _ high, blit_cells_after _ _ high, after high]
    · rw [blit_cells_inside _ _ (by omega) (by omega), blit_cells_inside _ _ (by omega) (by omega)]

theorem realloc_cells (b : Block α) {n : ℕ} {i : ℤ} (low : 0 ≤ i) (old : i < b.size) (new : i < n) :
    (b.realloc n).cells i = b.cells i := by
  simp [realloc, low, old, new]

/-! ### Slices -/

@[simp] theorem slice_length (b : Block α) (lo : ℤ) (n : ℕ) : (b.slice lo n).length = n := by
  simp [slice]

@[simp] theorem slice_getElem (b : Block α) (lo : ℤ) (n i : ℕ) (h : i < (b.slice lo n).length) :
    (b.slice lo n)[i] = b.cells (lo + i) := by
  simp [slice]

@[simp] theorem slice_zero (b : Block α) (lo : ℤ) : b.slice lo 0 = [] := rfl

theorem slice_touch (b : Block α) (lo' len lo : ℤ) (n : ℕ) :
    (b.touch lo' len).slice lo n = b.slice lo n := rfl

theorem slice_eq_of_cells {b b' : Block α} {lo lo' : ℤ} {n : ℕ}
    (h : ∀ i : ℕ, i < n → b.cells (lo + i) = b'.cells (lo' + i)) :
    b.slice lo n = b'.slice lo' n := by
  unfold slice
  exact List.map_congr_left fun i hi => h i (List.mem_range.mp hi)

theorem slice_add (b : Block α) (lo : ℤ) (m n : ℕ) :
    b.slice lo (m + n) = b.slice lo m ++ b.slice (lo + m) n := by
  simp only [slice, List.range_add, List.map_append, List.map_map]
  congr 1
  apply List.map_congr_left
  intro i _
  simp only [Function.comp, Int.natCast_add]
  congr 1
  omega

theorem slice_succ (b : Block α) (lo : ℤ) (n : ℕ) :
    b.slice lo (n + 1) = b.slice lo n ++ [b.cells (lo + n)] := by
  rw [slice_add]
  simp [slice]

theorem slice_cons (b : Block α) (lo : ℤ) (n : ℕ) :
    b.slice lo (n + 1) = b.cells lo :: b.slice (lo + 1) n := by
  rw [Nat.add_comm, slice_add]
  simp [slice]

/-- The parts of a slice around one byte. -/
theorem slice_split {b : Block α} {lo : ℤ} {n : ℕ} {l r : List α} {c : α}
    (h : b.slice lo n = l ++ c :: r) :
    b.slice lo l.length = l ∧ b.cells (lo + l.length) = c ∧
      b.slice (lo + l.length + 1) r.length = r := by
  have count := congrArg List.length h
  rw [slice_length, List.length_append, List.length_cons] at count
  rw [count, slice_add, slice_cons] at h
  obtain ⟨front, behind⟩ := List.append_inj h (slice_length _ _ _)
  obtain ⟨at_c, rest⟩ := List.cons.inj behind
  exact ⟨front, at_c, rest⟩

theorem slice_take (b : Block α) (lo : ℤ) {m n : ℕ} (h : m ≤ n) :
    (b.slice lo n).take m = b.slice lo m := by
  obtain ⟨k, rfl⟩ := Nat.exists_eq_add_of_le h
  rw [slice_add, List.take_left' (slice_length b lo m)]

theorem slice_drop (b : Block α) (lo : ℤ) {m n : ℕ} (h : m ≤ n) :
    (b.slice lo n).drop m = b.slice (lo + m) (n - m) := by
  obtain ⟨k, rfl⟩ := Nat.exists_eq_add_of_le h
  rw [slice_add, List.drop_left' (slice_length b lo m), Nat.add_sub_cancel_left]

theorem mem_slice {b : Block α} {lo : ℤ} {n : ℕ} {c : α} :
    c ∈ b.slice lo n ↔ ∃ i : ℕ, i < n ∧ b.cells (lo + i) = c := by
  simp [slice]

theorem slice_blit_self (b : Block α) (lo : ℤ) (data : List α) :
    (b.blit lo data).slice lo data.length = data := by
  apply List.ext_getElem (slice_length _ _ _)
  intro i _ hi
  have hin : (lo + (i : ℤ) - lo).toNat = i := by omega
  rw [slice_getElem, blit_cells_inside b data (by omega) (by omega)]
  simp only [hin]

theorem slice_blit_before (b : Block α) (data : List α) {lo lo' : ℤ} {n : ℕ} (h : lo + n ≤ lo') :
    (b.blit lo' data).slice lo n = b.slice lo n :=
  slice_eq_of_cells fun i hi => blit_cells_before b data (by omega)

theorem slice_move_self (b : Block α) (dst src : ℤ) (n : ℕ) :
    (b.move dst src n).slice dst n = b.slice src n := by
  apply slice_eq_of_cells
  intro i hi
  rw [move_cells, if_pos (by omega)]
  congr 1
  omega

theorem slice_store_ne (b : Block α) (c : α) {i lo : ℤ} {n : ℕ} (h : i < lo ∨ lo + n ≤ i) :
    (b.store i c).slice lo n = b.slice lo n :=
  slice_eq_of_cells fun j hj => store_cells_ne b c (by omega)

/-! ### Walks -/

/-- Where a walk stops: nothing before was a hit, and cells are left only behind a hit. -/
theorem seek_spec (hit : α → Bool) (cells : ℤ → α) (p : ℤ) (n : ℕ) :
    (seek hit cells p n).2 ≤ n ∧
    (seek hit cells p n).1 = p + n - (seek hit cells p n).2 ∧
    (∀ i, p ≤ i → i < (seek hit cells p n).1 → hit (cells i) = false) ∧
    (0 < (seek hit cells p n).2 → hit (cells (seek hit cells p n).1) = true) := by
  induction n generalizing p with
  | zero =>
    refine ⟨le_rfl, by simp [seek], fun i hlo hhi => ?_, by simp [seek]⟩
    simp only [seek] at hhi
    omega
  | succ n ih =>
    by_cases h : hit (cells p) = true
    · have stop : seek hit cells p (n + 1) = (p, n + 1) := by simp [seek, h]
      rw [stop]
      exact ⟨le_rfl, by simp, fun i hlo hhi => by omega, fun _ => h⟩
    · have go : seek hit cells p (n + 1) = seek hit cells (p + 1) n := by simp [seek, h]
      rw [go]
      obtain ⟨bound, place, before, behind⟩ := ih (p + 1)
      refine ⟨by omega, by omega, fun i hlo hhi => ?_, behind⟩
      by_cases hi : i = p
      · simpa [hi] using h
      · exact before i (by omega) hhi

theorem seek_of_none {hit : α → Bool} {cells : ℤ → α} {p : ℤ} {n : ℕ}
    (none : ∀ i, p ≤ i → i < p + n → hit (cells i) = false) :
    seek hit cells p n = (p + n, 0) := by
  obtain ⟨bound, place, -, behind⟩ := seek_spec hit cells p n
  have empty : (seek hit cells p n).2 = 0 := by
    by_contra h
    have := none _ (by omega) (by omega : (seek hit cells p n).1 < p + n)
    simp [behind (by omega)] at this
  exact Prod.ext (by omega) empty

/-- A walk stops at the first hit. -/
theorem seek_of_first {hit : α → Bool} {cells : ℤ → α} {p q : ℤ} {n : ℕ} (low : p ≤ q)
    (high : q < p + n) (here : hit (cells q) = true)
    (first : ∀ i, p ≤ i → i < q → hit (cells i) = false) :
    seek hit cells p n = (q, (p + n - q).toNat) := by
  obtain ⟨bound, place, before, behind⟩ := seek_spec hit cells p n
  have stop : (seek hit cells p n).1 = q := by
    rcases Int.lt_trichotomy (seek hit cells p n).1 q with lt | eq | gt
    · have := first _ (by omega) lt
      simp [behind (by omega)] at this
    · exact eq
    · have := before q low gt
      simp [here] at this
  exact Prod.ext stop (by omega)

theorem blit_getElem (b : Block α) (p : ℤ) (data : List α) {i : ℕ} (h : i < data.length) :
    (b.blit p data).cells (p + i) = data[i] := by
  have hi : (p + (i : ℤ) - p).toNat = i := by omega
  rw [blit_cells_inside b data (by omega) (by omega)]
  simp only [hi]

/-- A walk over data with a hit stops there. -/
theorem seek_blit_hit {hit : α → Bool} (b : Block α) (p : ℤ) {l r : List α} {c : α}
    (before : ∀ x ∈ l, hit x = false) (here : hit c = true) :
    seek hit (b.blit p (l ++ c :: r)).cells p (l ++ c :: r).length =
      (p + l.length, r.length + 1) := by
  have long : (l ++ c :: r).length = l.length + (r.length + 1) := by simp
  have at_c : (b.blit p (l ++ c :: r)).cells (p + l.length) = c := by
    rw [blit_getElem b p _ (by omega)]
    simp
  have first : ∀ i, p ≤ i → i < p + l.length → hit ((b.blit p (l ++ c :: r)).cells i) = false := by
    intro i low high
    obtain ⟨j, hj⟩ := Int.eq_ofNat_of_zero_le (show 0 ≤ i - p by omega)
    obtain rfl : i = p + j := by omega
    have hj : j < l.length := by omega
    rw [blit_getElem b p _ (by omega), List.getElem_append_left hj]
    exact before _ (List.getElem_mem hj)
  rw [seek_of_first (by omega) (by omega) (by rw [at_c]; exact here) first]
  exact Prod.ext rfl (by dsimp only; omega)

/-- A walk over data without a hit goes to its end. -/
theorem seek_blit_clear {hit : α → Bool} (b : Block α) (p : ℤ) {data : List α}
    (clear : ∀ x ∈ data, hit x = false) :
    seek hit (b.blit p data).cells p data.length = (p + data.length, 0) := by
  apply seek_of_none
  intro i low high
  obtain ⟨j, hj⟩ := Int.eq_ofNat_of_zero_le (show 0 ≤ i - p by omega)
  obtain rfl : i = p + j := by omega
  have hj : j < data.length := by omega
  rw [blit_getElem b p _ hj]
  exact clear _ (List.getElem_mem hj)

theorem split_at_first (hit : α → Bool) {data : List α} (some_hit : ∃ c ∈ data, hit c = true) :
    ∃ l c r, data = l ++ c :: r ∧ (∀ x ∈ l, hit x = false) ∧ hit c = true := by
  obtain ⟨c, found⟩ := Option.isSome_iff_exists.1 (List.find?_isSome.2 some_hit)
  obtain ⟨here, l, r, split, before⟩ := List.find?_eq_some_iff_append.1 found
  exact ⟨l, c, r, split, fun x hx => by simpa using before x hx, here⟩

/-- A list splits at its first hit in one way. -/
theorem split_unique (hit : α → Bool) {l l' r r' : List α} {c c' : α}
    (before : ∀ x ∈ l, hit x = false) (here : hit c = true) (before' : ∀ x ∈ l', hit x = false)
    (here' : hit c' = true) (same : l ++ c :: r = l' ++ c' :: r') : l = l' ∧ c = c' ∧ r = r' := by
  have front := congrArg (List.takeWhile fun x => !hit x) same
  rw [List.takeWhile_append_of_pos (by simpa using before),
    List.takeWhile_append_of_pos (by simpa using before'),
    List.takeWhile_cons_of_neg (by simp [here]), List.takeWhile_cons_of_neg (by simp [here']),
    List.append_nil, List.append_nil] at front
  rw [front, List.append_cancel_left_eq, List.cons.injEq] at same
  exact ⟨front, same⟩

/-- A cell of the text lies before the first stop. -/
theorem mem_upTo {stop : α → Bool} {cells : ℤ → α} {lo : ℤ} {n : ℕ} {c : α}
    (h : c ∈ upTo stop cells lo n) :
    ∃ i : ℕ, cells (lo + i) = c ∧ ∀ j : ℤ, lo ≤ j → j ≤ lo + i → stop (cells j) = false := by
  induction n generalizing lo with
  | zero => simp [upTo] at h
  | succ n ih =>
    by_cases here : stop (cells lo) = true
    · simp [upTo, here] at h
    · rw [upTo, if_neg here, List.mem_cons] at h
      rcases h with rfl | later
      · refine ⟨0, by simp, fun j low high => ?_⟩
        obtain rfl : j = lo := by omega
        simpa using here
      · obtain ⟨i, rfl, before⟩ := ih later
        refine ⟨i + 1, by congr 1; push_cast; omega, fun j low high => ?_⟩
        by_cases first : j = lo
        · simpa [first] using here
        · exact before j (by omega) (by push_cast at high; omega)

/-- The text up to the first stop does not depend on the limit once a stop is in reach. -/
theorem upTo_of_stop {stop : α → Bool} {b : Block α} {lo : ℤ} {k n : ℕ} (reach : k < n)
    (here : stop (b.cells (lo + k)) = true) :
    upTo stop b.cells lo n = (b.slice lo k).takeWhile fun c => !stop c := by
  induction k generalizing lo n with
  | zero =>
    obtain ⟨n, rfl⟩ := Nat.exists_eq_add_of_lt reach
    have first : stop (b.cells lo) = true := by simpa using here
    simp [upTo, first]
  | succ k ih =>
    obtain ⟨n, rfl⟩ := Nat.exists_eq_add_of_lt reach
    have later : stop (b.cells (lo + 1 + k)) = true := by
      rw [← here]
      congr 2
      push_cast
      omega
    have front : b.slice lo (k + 1) = b.cells lo :: b.slice (lo + 1) k := by
      rw [Nat.add_comm, slice_add]
      simp [slice]
    rw [front, upTo, ih (by omega) later]
    by_cases h : stop (b.cells lo) = true <;> simp [h]

end Block

end Sysjs
