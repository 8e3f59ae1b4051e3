import Mathlib.Tactic.Common
import Mathlib.Logic.Function.Basic
import Mathlib.Algebra.Order.Ring.Int

/-!
# The system calls

The descriptors of the process and the system calls the modules make on them.  How a call turns out
is the environment's choice: an `Answer` for `read` and `write`, a descriptor number for `socket`
and `accept`.
-/

set_option autoImplicit false

namespace Sysjs

/-- A type of memory cells that carry a byte: `val` is the byte, `lit b` the cell that results
when the program itself stores `b`. -/
class Octet (α : Type*) where
  val : α → UInt8
  lit : UInt8 → α
  val_lit : ∀ b, val (lit b) = b

attribute [simp] Octet.val_lit

instance : Octet UInt8 where
  val := id
  lit := id
  val_lit _ := rfl

@[simp] theorem octet_val_uint8 (b : UInt8) : Octet.val b = b := rfl

@[simp] theorem octet_lit_uint8 (b : UInt8) : (Octet.lit b : UInt8) = b := rfl

/-- The conversion of a C integer to `size_t`. -/
def sizeT (n : ℤ) : ℕ := (n % 2 ^ 64).toNat

theorem sizeT_of_nonneg {n : ℤ} (low : 0 ≤ n) (high : n < 2 ^ 64) : sizeT n = n.toNat := by
  rw [sizeT, Int.emod_eq_of_lt low high]

theorem sizeT_le {n : ℤ} (low : 0 ≤ n) : (sizeT n : ℤ) ≤ n := by
  unfold sizeT
  omega

/-- How a `read` or `write` turns out: it fails, or moves at most `n` bytes. -/
inductive Answer where
  | fail
  | upTo (n : ℕ)
  deriving DecidableEq, Repr

/-- What a descriptor is: a stream that is connected, a listening socket, a socket that is neither
yet, or anything else the process has open. -/
inductive FdKind where
  | idle
  | connected
  | listening
  | other
  deriving DecidableEq, Repr

/-- An open descriptor: whether this module obtained it, the bytes `read` has yet to deliver, and
the bytes `write` has taken. -/
structure Desc (α : Type*) where
  kind : FdKind
  ours : Bool
  pending : List α
  sent : List α

/-- The open descriptors, which have numbers from 0 on, and how often `close` was called on such a
number while it was not open. -/
structure Kernel (α : Type*) where
  fds : ℕ → Option (Desc α)
  stray : ℕ

namespace Kernel

variable {α : Type*}

/-- The open descriptor with the number `fd`. -/
def desc (k : Kernel α) (fd : ℤ) : Option (Desc α) :=
  if 0 ≤ fd then k.fds fd.toNat else none

def set (k : Kernel α) (fd : ℤ) (d : Option (Desc α)) : Kernel α :=
  if 0 ≤ fd then { k with fds := Function.update k.fds fd.toNat d } else k

/-- The bytes that `fd` has yet to deliver. -/
def pending (k : Kernel α) (fd : ℤ) : List α :=
  match k.desc fd with
  | some d => d.pending
  | none => []

/-- `read(fd, buf, count)`: `none` is the result `-1`.  Any non-empty part of what is pending may
come; nothing comes at the end of the stream, or when nothing is asked for.  A count that no
`ssize_t` holds is refused. -/
def read (k : Kernel α) (fd : ℤ) (count : ℕ) (a : Answer) : Option (List α) × Kernel α :=
  match k.desc fd, a with
  | some d, .upTo n =>
    if d.kind = .listening ∨ 2 ^ 63 ≤ count then (none, k)
    else
      let m := min (max n 1) (min count d.pending.length)
      (some (d.pending.take m), k.set fd (some { d with pending := d.pending.drop m }))
  | _, _ => (none, k)

/-- `write(fd, data, data.length)`: `none` is the result `-1`. -/
def write (k : Kernel α) (fd : ℤ) (data : List α) (a : Answer) : Option ℕ × Kernel α :=
  match k.desc fd, a with
  | some d, .upTo n =>
    if d.kind = .listening then (none, k)
    else
      let m := min n data.length
      (some m, k.set fd (some { d with sent := d.sent ++ data.take m }))
  | _, _ => (none, k)

/-- `socket` answers with the number `fd`, which must not be open. -/
def socket (k : Kernel α) (fd : ℤ) : Option (Kernel α) :=
  if 0 ≤ fd ∧ (k.desc fd).isNone then
    some (k.set fd (some { kind := .idle, ours := true, pending := [], sent := [] }))
  else none

/-- `accept(lfd)` answers with the number `fd` of a stream that will deliver `stream`. -/
def accept (k : Kernel α) (lfd fd : ℤ) (stream : List α) : Option (Kernel α) :=
  if (k.desc lfd).map Desc.kind = some .listening ∧ 0 ≤ fd ∧ (k.desc fd).isNone then
    some (k.set fd (some { kind := .connected, ours := true, pending := stream, sent := [] }))
  else none

/-- `connect` or `listen` succeeds on a socket of ours. -/
def become (k : Kernel α) (fd : ℤ) (kind : FdKind) (stream : List α) : Kernel α :=
  k.set fd (some { kind := kind, ours := true, pending := stream, sent := [] })

/-- `close(fd)`. -/
def close (k : Kernel α) (fd : ℤ) : Kernel α :=
  match k.desc fd with
  | some _ => k.set fd none
  | none => if 0 ≤ fd then { k with stray := k.stray + 1 } else k

theorem desc_of_neg (k : Kernel α) {fd : ℤ} (h : fd < 0) : k.desc fd = none :=
  if_neg (by omega)

theorem nonneg_of_desc {k : Kernel α} {fd : ℤ} {d : Desc α} (h : k.desc fd = some d) : 0 ≤ fd := by
  by_contra neg
  rw [desc_of_neg k (by omega)] at h
  cases h

theorem desc_set (k : Kernel α) (fd fd' : ℤ) (d : Option (Desc α)) :
    (k.set fd d).desc fd' = if fd' = fd ∧ 0 ≤ fd then d else k.desc fd' := by
  by_cases hfd : 0 ≤ fd
  · by_cases hfd' : 0 ≤ fd'
    · have same : fd'.toNat = fd.toNat ↔ fd' = fd := by omega
      simp [set, desc, hfd, hfd', Function.update_apply, same]
    · have ne : fd' ≠ fd := by omega
      simp [desc, hfd, hfd', ne]
  · simp [set, hfd]

@[simp] theorem desc_set_self {k : Kernel α} {fd : ℤ} (h : 0 ≤ fd) (d : Option (Desc α)) :
    (k.set fd d).desc fd = d := by
  simp [desc_set, h]

theorem desc_set_ne (k : Kernel α) {fd fd' : ℤ} (h : fd' ≠ fd) (d : Option (Desc α)) :
    (k.set fd d).desc fd' = k.desc fd' := by
  simp [desc_set, h]

@[simp] theorem set_stray (k : Kernel α) (fd : ℤ) (d : Option (Desc α)) :
    (k.set fd d).stray = k.stray := by
  unfold set
  split <;> rfl

theorem set_none_of_desc {k : Kernel α} {fd : ℤ} (d : Option (Desc α)) (h : k.desc fd = none) :
    (k.set fd d).set fd none = k := by
  unfold set
  split
  · next low =>
    have closed : k.fds fd.toNat = none := by simpa [desc, low] using h
    simp [← closed]
  · rfl

theorem set_set (k : Kernel α) (fd : ℤ) (d d' : Option (Desc α)) :
    (k.set fd d).set fd d' = k.set fd d' := by
  unfold set
  split <;> simp

theorem socket_some {k k' : Kernel α} {fd : ℤ} (h : k.socket fd = some k') :
    0 ≤ fd ∧ k.desc fd = none ∧
      k' = k.set fd (some { kind := .idle, ours := true, pending := [], sent := [] }) := by
  unfold socket at h
  split at h
  · next fresh => exact ⟨fresh.1, Option.isNone_iff_eq_none.1 fresh.2, (Option.some.inj h).symm⟩
  · cases h

theorem close_of_desc {k : Kernel α} {fd : ℤ} {d : Desc α} (h : k.desc fd = some d) :
    k.close fd = k.set fd none := by
  simp [close, h]

/-- A descriptor that was closed is not open, whether it was before or not. -/
theorem desc_close (k : Kernel α) (fd fd' : ℤ) :
    (k.close fd).desc fd' = if fd' = fd then none else k.desc fd' := by
  cases h : k.desc fd with
  | some d =>
    rw [close_of_desc h, desc_set]
    simp [nonneg_of_desc h]
  | none =>
    have kept : (k.close fd).desc fd' = k.desc fd' := by
      simp only [close, h]
      split <;> rfl
    rw [kept]
    split
    · next same => rw [same, h]
    · rfl

theorem close_of_neg (k : Kernel α) {fd : ℤ} (h : fd < 0) : k.close fd = k := by
  simp only [close, desc_of_neg k h]
  exact if_neg (by omega)

/-- A `close` goes astray when the descriptor is not open. -/
theorem close_stray {k : Kernel α} {fd : ℤ} (h : 0 ≤ fd → k.desc fd ≠ none) :
    (k.close fd).stray = k.stray := by
  by_cases low : 0 ≤ fd
  · obtain ⟨d, opened⟩ := Option.ne_none_iff_exists'.1 (h low)
    rw [close_of_desc opened, set_stray]
  · rw [close_of_neg k (by omega)]

theorem close_socket {k k' : Kernel α} {fd : ℤ} (h : k.socket fd = some k') : k'.close fd = k := by
  obtain ⟨low, fresh, rfl⟩ := socket_some h
  rw [close_of_desc (desc_set_self low _), set_none_of_desc _ fresh]

theorem pending_of_desc {k : Kernel α} {fd : ℤ} {d : Desc α} (h : k.desc fd = some d) :
    k.pending fd = d.pending := by
  simp [pending, h]

theorem pending_set_self (k : Kernel α) {fd : ℤ} (h : 0 ≤ fd) (d : Desc α) :
    (k.set fd (some d)).pending fd = d.pending :=
  pending_of_desc (desc_set_self h _)

theorem pending_of_desc_none {k : Kernel α} {fd : ℤ} (h : k.desc fd = none) :
    k.pending fd = [] := by
  simp [pending, h]

theorem mem_pending_set {k : Kernel α} {fd fd' : ℤ} {d : Desc α} {c : α}
    (quiet : fd' = fd → d.pending = []) (h : c ∈ (k.set fd (some d)).pending fd') :
    c ∈ k.pending fd' := by
  by_cases same : fd' = fd ∧ 0 ≤ fd
  · rw [pending_of_desc (d := d) (by rw [desc_set, if_pos same]), quiet same.1] at h
    cases h
  · rw [pending, desc_set, if_neg same] at h
    exact h

/-- Everything a `read` can do: fail and change nothing, or deliver a first part of the pending
bytes that is empty only when nothing was asked for or nothing is left. -/
theorem read_cases (k : Kernel α) (fd : ℤ) (count : ℕ) (a : Answer) :
    k.read fd count a = (none, k) ∨
    ∃ d data rest, k.desc fd = some d ∧ d.pending = data ++ rest ∧ data.length ≤ count ∧
      (data = [] → count = 0 ∨ rest = []) ∧
      k.read fd count a = (some data, k.set fd (some { d with pending := rest })) := by
  cases hd : k.desc fd with
  | none => exact Or.inl (by simp [read, hd])
  | some d =>
    cases a with
    | fail => exact Or.inl (by simp [read, hd])
    | upTo n =>
      by_cases refused : d.kind = .listening ∨ 2 ^ 63 ≤ count
      · exact Or.inl (by simp only [read, hd, if_pos refused])
      · right
        refine ⟨d, d.pending.take (min (max n 1) (min count d.pending.length)),
          d.pending.drop (min (max n 1) (min count d.pending.length)), rfl,
          (List.take_append_drop _ _).symm, ?_, ?_, by simp only [read, hd, if_neg refused]⟩
        · rw [List.length_take]
          omega
        · intro empty
          have none := congrArg List.length empty
          rw [List.length_take, List.length_nil] at none
          by_cases hc : count = 0
          · exact Or.inl hc
          · refine Or.inr (List.eq_nil_of_length_eq_zero ?_)
            rw [List.length_drop]
            omega

theorem read_none {k k' : Kernel α} {fd : ℤ} {count : ℕ} {a : Answer}
    (h : k.read fd count a = (none, k')) : k' = k := by
  rcases read_cases k fd count a with failed | ⟨d, data, rest, -, -, -, -, got⟩
  · exact (Prod.ext_iff.1 (failed.symm.trans h)).2.symm
  · exact absurd (Prod.ext_iff.1 (got.symm.trans h)).1 (by simp)

theorem read_some {k k' : Kernel α} {fd : ℤ} {count : ℕ} {a : Answer} {data : List α}
    (h : k.read fd count a = (some data, k')) :
    ∃ d rest, k.desc fd = some d ∧ d.pending = data ++ rest ∧ data.length ≤ count ∧
      (data = [] → count = 0 ∨ rest = []) ∧ k' = k.set fd (some { d with pending := rest }) := by
  rcases read_cases k fd count a with failed | ⟨d, data', rest, opened, split, bound, empty, got⟩
  · exact absurd (Prod.ext_iff.1 (failed.symm.trans h)).1 (by simp)
  · obtain ⟨hdata, hk⟩ := Prod.ext_iff.1 (got.symm.trans h)
    obtain rfl : data' = data := Option.some.inj hdata
    exact ⟨d, rest, opened, split, bound, empty, hk.symm⟩

theorem read_pending {k k' : Kernel α} {fd : ℤ} {count : ℕ} {a : Answer} {data : List α}
    (h : k.read fd count a = (some data, k')) : k.pending fd = data ++ k'.pending fd := by
  obtain ⟨d, rest, opened, split, -, -, rfl⟩ := read_some h
  rw [pending_of_desc opened, split, pending_set_self k (nonneg_of_desc opened)]

theorem read_suffix {k k' : Kernel α} {fd : ℤ} {count : ℕ} {a : Answer} {got : Option (List α)}
    (h : k.read fd count a = (got, k')) : k'.pending fd <:+ k.pending fd := by
  cases got with
  | none =>
    obtain rfl := read_none h
    exact List.suffix_rfl
  | some data => exact ⟨data, (read_pending h).symm⟩

/-- Everything a `write` can do: fail and change nothing, or take a first part of the bytes. -/
theorem write_cases (k : Kernel α) (fd : ℤ) (data : List α) (a : Answer) :
    k.write fd data a = (none, k) ∨
    ∃ d m, k.desc fd = some d ∧ d.kind ≠ .listening ∧ m ≤ data.length ∧
      k.write fd data a = (some m, k.set fd (some { d with sent := d.sent ++ data.take m })) := by
  cases opened : k.desc fd with
  | none => exact Or.inl (by simp [write, opened])
  | some d =>
    cases a with
    | fail => exact Or.inl (by simp [write, opened])
    | upTo n =>
      by_cases stream : d.kind = .listening
      · exact Or.inl (by simp [write, opened, stream])
      · exact Or.inr ⟨d, min n data.length, rfl, stream, Nat.min_le_right _ _,
          by simp [write, opened, stream]⟩

theorem write_pending (k : Kernel α) (fd : ℤ) (data : List α) (a : Answer) :
    (k.write fd data a).2.pending fd = k.pending fd := by
  rcases k.write_cases fd data a with failed | ⟨d, m, opened, -, -, wrote⟩
  · rw [failed]
  · rw [wrote, pending_set_self k (nonneg_of_desc opened), pending_of_desc opened]

/-- No descriptor delivers into a range that no `ssize_t` measures. -/
theorem read_refused (k : Kernel α) (fd : ℤ) {count : ℕ} (large : 2 ^ 63 ≤ count) (a : Answer) :
    k.read fd count a = (none, k) := by
  cases opened : k.desc fd with
  | none => simp only [read, opened]
  | some d =>
    cases a with
    | fail => simp only [read, opened]
    | upTo n => simp only [read, opened, if_pos (Or.inr large : d.kind = .listening ∨ _)]

/-- A stream delivers a first part of what is pending unless `read` fails. -/
theorem read_of_stream {k : Kernel α} {fd : ℤ} {d : Desc α} (opened : k.desc fd = some d)
    (stream : d.kind ≠ .listening) {count : ℕ} (small : count < 2 ^ 63) (n : ℕ) :
    k.read fd count (.upTo n) =
      (some (d.pending.take (min (max n 1) (min count d.pending.length))),
        k.set fd (some { d with
          pending := d.pending.drop (min (max n 1) (min count d.pending.length)) })) := by
  have granted : ¬ (d.kind = .listening ∨ 2 ^ 63 ≤ count) := by
    rintro (listening | large)
    · exact stream listening
    · omega
  simp only [read, opened, if_neg granted]

end Kernel

end Sysjs
