import Sysjs.Socket.Sizes

/-!
# `readBytes` and the buffered bytes

A request that the buffer can serve takes a first part of it; a larger one is topped up by one
`read` and is to return either everything asked for or nothing.  The terminator that `readBytes`
stores lands on the byte behind the ones it returns, and a topped up request is compared with the
count of the one `read` alone.
-/

set_option autoImplicit false

namespace Sysjs

variable {α : Type*}

/-- The `read` call of `readBytes(n)`, if it makes one. -/
def St.byteReads (s : St α) (n : ℤ) : List SysRead :=
  if n ≤ s.obj.bufferPos then []
  else [{ fd := s.obj.sock, offset := s.obj.bufferPos, count := s.missing n }]

variable [Octet α]

/-! ### Served from the buffer -/

/-- `readBytes(n)` takes `n` bytes from the front of the buffer and touches nothing else. -/
structure TakesFront (s : St α) (n : ℕ) (answers : List Answer) : Prop where
  silent : s.byteReads n = []
  value : ∃ s', jsSockReadBytes s [n] answers = some (.done (.array (s.obj.buffered.take n)), s') ∧
    s'.obj.buffered = s.obj.buffered.drop n ∧ s'.obj.bufferPos = s.obj.bufferPos - n ∧
    s'.kernel = s.kernel

/-- `readBytes(n)` with `n` bytes buffered takes them and touches nothing else if and only if it
takes all, or the byte behind them is NUL already. -/
theorem readBytes_takes_front_iff {s : St α} {n : ℕ} (answers : List Answer) (fits : s.obj.Fits)
    (enough : n ≤ s.obj.bufferPos) :
    TakesFront s n answers ↔ n = s.obj.bufferPos ∨ s.obj.readBuffer.cells n = nul := by
  obtain ⟨t, call, left, kernel⟩ := readBytes_served answers fits enough
  rw [← buffered_drop_iff fits enough, ← left.buffered]
  constructor
  · rintro ⟨-, s', called, kept, -, -⟩
    rw [call, Option.some.injEq, Prod.mk.injEq] at called
    rw [called.2, kept]
  · intro kept
    have count := SockObj.length_buffered fits
    have place : t.obj.bufferPos = s.obj.bufferPos - n := by
      rw [left.bufferPos, List.length_drop, List.length_set]
      omega
    exact ⟨if_pos enough, t, call, kept, place, kernel⟩

/-- Both bytes of a buffer of two. -/
theorem readBytes_takes_front_iff_both : TakesFront (.holding [98, 99] []) 2 [] :=
  (readBytes_takes_front_iff [] ⟨by decide +kernel, by decide +kernel, by decide +kernel⟩
    (by decide +kernel)).2 (Or.inl (by decide +kernel))

/-- One byte of two: the other becomes NUL. -/
theorem readBytes_takes_front_not_one : ¬ TakesFront (.holding [98, 99] []) 1 [] := by
  rintro ⟨-, s', called, kept, -, -⟩
  have left : (jsSockReadBytes (.holding [98, 99] []) [(1 : ℕ)] []).map
      (fun x => x.2.obj.buffered) = some [0] := by decide +kernel
  have want : (St.holding [98, 99] []).obj.buffered.drop 1 = [99] := by decide +kernel
  rw [called, Option.map_some, kept, want] at left
  cases left

/-! ### Topped up from the descriptor -/

/-- The bytes that the `read` of `readBytes(n)` delivers; none when it fails. -/
def St.toppedUp (s : St α) (n : ℤ) (a : Answer) : List α :=
  (s.kernel.read s.obj.sock (s.missing n) a).1.getD []

/-- What `readBytes(n)` is to do when `total` are the bytes it has in the end: return `n` of them,
or give up and keep all. -/
inductive AllOrNothing (n : ℕ) (total : List α) : Ret α → St α → Prop
  | all (s : St α) (enough : n ≤ total.length) (left : s.obj.buffered = total.drop n) :
      AllOrNothing n total (.done (.array (total.take n))) s
  | nothing (r : Ret α) (s : St α) (few : total.length < n)
      (refused : r = .done (.bool false) ∨ ∃ format, r = .error format)
      (kept : s.obj.buffered = total) (number : s.obj.bufferPos = total.length) :
      AllOrNothing n total r s

/-- A call of `readBytes(n)` with one answer returns everything or nothing.  Its sums have to stay
in the range of an `int`: a call in which one overflows is undefined, and the buffer is lost with
whatever is in it. -/
def TopsUp (s : St α) (n : ℕ) (a : Answer) : Prop :=
  ∃ r s', jsSockReadBytes s [n] [a] = some (r, s') ∧ s'.obj.inRange = true ∧
    AllOrNothing n (s.obj.buffered ++ s.toppedUp n a) r s'

theorem jsSockReadBytes_of_lt {s : St α} {n : ℤ} (a : Answer) (more : s.obj.bufferPos < n) :
    ∃ r s', jsSockReadBytes s [n] [a] = some (r, s') := by
  rcases got : s.kernel.read s.obj.sock (s.missing n) a with ⟨_ | data, k⟩
  · exact ⟨_, _, jsSockReadBytes_of_fail [] more got⟩
  · exact ⟨_, _, jsSockReadBytes_of_read [] more got⟩

/-- Its outcome is all or nothing if and only if its `read` delivers nothing, or the buffer is empty
and all `n` bytes come at once. -/
theorem allOrNothing_iff {s s' : St α} {n : ℕ} {a : Answer} {r : Ret α} (fits : s.obj.Fits)
    (more : s.obj.bufferPos < n) (call : jsSockReadBytes s [n] [a] = some (r, s')) :
    AllOrNothing n (s.obj.buffered ++ s.toppedUp n a) r s' ↔ s.toppedUp n a = [] ∨
      (s.obj.bufferPos = 0 ∧ (s.toppedUp n a).length = n) := by
  have count := SockObj.length_buffered fits
  have step := readBytes_step fits call
  cases step with
  | served t enough left kernel => omega
  | short t a' asked more came few got left =>
    obtain rfl : a = a' := by simpa using asked
    have delivered : s.toppedUp n a = came.getD [] := by rw [St.toppedUp, got]
    rw [delivered]
    constructor
    · intro all
      cases all with
      | nothing r s few refused same number =>
        rw [left.buffered] at same
        exact Or.inl (List.append_cancel_left (same.symm.trans (List.append_nil _).symm))
    · rintro (none_came | ⟨-, whole⟩)
      · rw [none_came, List.append_nil]
        exact .nothing _ _ (by omega) (Or.inl rfl) left.buffered left.bufferPos
      · omega
  | whole t a' asked data empty all got left =>
    obtain rfl : a = a' := by simpa using asked
    have delivered : s.toppedUp n a = data := by rw [St.toppedUp, got, Option.getD_some]
    rw [delivered, SockObj.buffered_of_zero empty, List.nil_append]
    refine iff_of_true ?_ (Or.inr ⟨empty, all⟩)
    have whole := AllOrNothing.all s' all.ge (by rw [left.buffered, ← all, List.drop_length])
    rwa [List.take_of_length_le all.le] at whole

/-- `readBytes(n)` with fewer than `n` bytes buffered is all or nothing if and only if the size of a
larger buffer is in range, and its `read` delivers nothing, or the buffer is empty and all `n` bytes
come at once. -/
theorem readBytes_tops_up_iff {s : St α} {n : ℕ} (a : Answer) (fits : s.obj.Fits)
    (inRange : s.obj.inRange = true) (more : s.obj.bufferPos < n) :
    TopsUp s n a ↔ (n ≤ s.obj.bufferSize ∨ s.obj.bufferSize + n + 1024 < 2 ^ 31) ∧
      (s.toppedUp n a = [] ∨ (s.obj.bufferPos = 0 ∧ (s.toppedUp n a).length = n)) := by
  obtain ⟨r, s', call⟩ := jsSockReadBytes_of_lt a more
  have sums : s.GrantsBytes n ↔ n ≤ s.obj.bufferSize ∨ s.obj.bufferSize + n + 1024 < 2 ^ 31 := by
    unfold St.GrantsBytes SockObj.Enlarges
    omega
  have outcome := allOrNothing_iff fits more call
  have range := readBytes_inRange_iff call
  rw [and_iff_right inRange, sums] at range
  rw [← range, ← outcome]
  constructor
  · rintro ⟨r', t, called, kept, all⟩
    rw [call, Option.some.injEq, Prod.mk.injEq] at called
    rw [called.1, called.2]
    exact ⟨kept, all⟩
  · rintro ⟨kept, all⟩
    exact ⟨r, s', call, kept, all⟩

/-- Two bytes at once into an empty buffer. -/
theorem readBytes_tops_up_iff_two : TopsUp (.opened 5 [97, 98]) 2 (.upTo 2) :=
  (readBytes_tops_up_iff (.upTo 2) (opened_fits 5 _) rfl (by decide)).2
    ⟨Or.inl (by decide), Or.inr ⟨by decide, by decide +kernel⟩⟩

/-- One byte is buffered and the second one arrives: the call gives up and loses it. -/
theorem readBytes_tops_up_not_one_and_one : ¬ TopsUp (.holding [98] [99]) 2 (.upTo 1) := by
  rintro ⟨r, s', call, -, all⟩
  have value : (jsSockReadBytes (.holding [98] [99]) [(2 : ℕ)] [.upTo 1]).map (fun x => x.1) =
      some (.done (.bool false)) := by decide +kernel
  have total : (St.holding [98] [99]).obj.buffered ++
      (St.holding [98] [99]).toppedUp (2 : ℕ) (.upTo 1) = [98, 99] := by decide +kernel
  rw [call, Option.map_some, Option.some.injEq] at value
  rw [total] at all
  cases all with
  | all s enough left => cases value
  | nothing r s few refused kept number => exact absurd few (by decide)

end Sysjs
