import Mathlib.Data.List.TakeWhile
import Sysjs.Foundation.Block
import Sysjs.Kernel
import Sysjs.Words

/-!
# The Socket object

The private data of a `Socket` (`struct sock_obj`), the state a method call works on, and the
constructor.
-/

set_option autoImplicit false

namespace Sysjs

variable {α : Type*}

/-- `enum sockstate`. -/
inductive SockState where
  | disconnected
  | connected
  | listening
  deriving DecidableEq, Repr

/-- `struct sock_obj`.  The buffer has at least 32768 bytes from the start and only grows; `room`
keeps the part of this that the packet reader relies on.  `buffer_size` is an `int`: `inRange` says
that no sum computed from it for `JS_realloc` or for itself has left the range of an `int` so far.
`saveDepth` only carries a request depth from a suspension to the next resumption, which the request
log of `St` shows in order. -/
structure SockObj (α : Type*) where
  sock : ℤ
  readBuffer : Block α
  bufferSize : ℕ
  bufferPos : ℤ
  state : SockState
  inRange : Bool
  room : 2 ≤ bufferSize
  word : inRange = true → bufferSize < 2 ^ 31

/-- A call of `JS_SuspendRequest` or `JS_ResumeRequest`. -/
inductive Request where
  | suspend
  | resume
  deriving DecidableEq, Repr

/-- What a method call of one Socket sees: the object, the system, and the requests suspended and
resumed so far. -/
structure St (α : Type*) where
  obj : SockObj α
  kernel : Kernel α
  requests : List Request

/-- A call of `read`: the descriptor, the index in the read buffer, and the count. -/
structure SysRead where
  fd : ℤ
  offset : ℤ
  count : ℕ
  deriving DecidableEq

/-- The values a method puts in `*rval`; `void` when it leaves it alone. -/
inductive Rval (α : Type*) where
  | void
  | bool (b : Bool)
  | string (chars : List α)
  | array (elems : List α)
  | object (id : ℕ)
  deriving DecidableEq

/-- How a method returns: `JS_TRUE` with a value, or `JS_FALSE` with the format of its message. -/
inductive Ret (α : Type*) where
  | done (v : Rval α)
  | error (format : String)
  deriving DecidableEq

/-- The kinds of argument the module tells apart: integer jsvals and all others. -/
inductive Jsval where
  | int (n : ℤ)
  | other
  deriving DecidableEq, Repr

namespace St

def suspend (s : St α) : St α := { s with requests := s.requests ++ [.suspend] }

def resume (s : St α) : St α := { s with requests := s.requests ++ [.resume] }

/-- Another content of the read buffer. -/
def withBuffer (s : St α) (b : Block α) : St α := { s with obj := { s.obj with readBuffer := b } }

def withKernel (s : St α) (k : Kernel α) : St α := { s with kernel := k }

/-- The bytes this object's descriptor has yet to deliver. -/
def pending (s : St α) : List α := s.kernel.pending s.obj.sock

@[simp] theorem suspend_obj (s : St α) : s.suspend.obj = s.obj := rfl

@[simp] theorem suspend_kernel (s : St α) : s.suspend.kernel = s.kernel := rfl

@[simp] theorem suspend_requests (s : St α) :
    s.suspend.requests = s.requests ++ [.suspend] := rfl

@[simp] theorem resume_obj (s : St α) : s.resume.obj = s.obj := rfl

@[simp] theorem resume_kernel (s : St α) : s.resume.kernel = s.kernel := rfl

@[simp] theorem resume_requests (s : St α) :
    s.resume.requests = s.requests ++ [.resume] := rfl

@[simp] theorem withBuffer_obj (s : St α) (b : Block α) :
    (s.withBuffer b).obj = { s.obj with readBuffer := b } := rfl

@[simp] theorem withBuffer_kernel (s : St α) (b : Block α) :
    (s.withBuffer b).kernel = s.kernel := rfl

@[simp] theorem withBuffer_requests (s : St α) (b : Block α) :
    (s.withBuffer b).requests = s.requests := rfl

@[simp] theorem withKernel_obj (s : St α) (k : Kernel α) : (s.withKernel k).obj = s.obj := rfl

@[simp] theorem withKernel_self (s : St α) : s.withKernel s.kernel = s := rfl

@[simp] theorem withKernel_withKernel (s : St α) (k k' : Kernel α) :
    (s.withKernel k).withKernel k' = s.withKernel k' := rfl

@[simp] theorem withKernel_kernel (s : St α) (k : Kernel α) : (s.withKernel k).kernel = k := rfl

@[simp] theorem withKernel_requests (s : St α) (k : Kernel α) :
    (s.withKernel k).requests = s.requests := rfl

end St

namespace SockObj

/-- The bytes kept for later calls: `read_buffer[0 .. buffer_pos)`. -/
def buffered (o : SockObj α) : List α := o.readBuffer.slice 0 o.bufferPos.toNat

/-- The bookkeeping of the buffer agrees with its allocation. -/
structure Fits (o : SockObj α) : Prop where
  low : 0 ≤ o.bufferPos
  high : o.bufferPos ≤ o.bufferSize
  block : o.bufferSize ≤ o.readBuffer.size

theorem buffered_of_zero {o : SockObj α} (h : o.bufferPos = 0) : o.buffered = [] := by
  simp [buffered, h]

theorem length_buffered {o : SockObj α} (fits : o.Fits) :
    (o.buffered.length : ℤ) = o.bufferPos := by
  rw [buffered, Block.slice_length, Int.toNat_of_nonneg fits.low]

theorem cells_buffered {o : SockObj α} {i : ℕ} (h : i < o.buffered.length) :
    o.readBuffer.cells i = o.buffered[i] := by
  simp only [buffered, Block.slice_getElem, Int.zero_add]

/-- The sums of `int`s that an enlargement computes stay in the range of an `int`. -/
def Enlarges (o : SockObj α) (extra counted : ℕ) : Prop :=
  o.bufferSize + extra < 2 ^ 31 ∧ o.bufferSize + counted < 2 ^ 31

instance (o : SockObj α) (extra counted : ℕ) : Decidable (o.Enlarges extra counted) :=
  inferInstanceAs (Decidable (_ ∧ _))

/-- `JS_realloc` of the buffer by `extra` bytes of which `counted` are recorded in `buffer_size`.
Where a sum leaves the range of an `int` the program's wraps around and its buffer is lost; the
object then has the sizes that were meant and is marked as out of range: it says nothing of the
program any more. -/
def grow (o : SockObj α) (extra counted : ℕ) : SockObj α :=
  { o with
    readBuffer := o.readBuffer.realloc (o.bufferSize + extra)
    bufferSize := o.bufferSize + counted
    inRange := o.inRange && decide (o.Enlarges extra counted)
    room := Nat.le_add_right_of_le o.room
    word := fun h => (of_decide_eq_true (Bool.and_eq_true_iff.1 h).2).2 }

theorem grow_inRange {o : SockObj α} {extra counted : ℕ} :
    (o.grow extra counted).inRange = true ↔ o.inRange = true ∧ o.Enlarges extra counted := by
  rw [grow, Bool.and_eq_true, decide_eq_true_iff]

/-- `JS_realloc` may grant the size it is given, a sum of `int`s converted to `size_t`: no block is
larger than `2 ^ 63 - 1` bytes. -/
def Grantable (o : SockObj α) (extra : ℕ) : Prop :=
  sizeT (toInt32 (o.bufferSize + extra)) < 2 ^ 63

theorem grantable_of_lt {o : SockObj α} {extra : ℕ} (small : o.bufferSize + extra < 2 ^ 31) :
    o.Grantable extra := by
  rw [Grantable, toInt32_of_fits (by omega) (by omega), sizeT]
  omega

/-- A sum that wraps around makes a size that no allocator grants. -/
theorem enlarges_of_grantable {o : SockObj α} (inRange : o.inRange = true)
    (grantable : o.Grantable 1024) : o.Enlarges 1024 1024 := by
  have word := o.word inRange
  have sum : o.bufferSize + 1024 < 2 ^ 31 := by
    by_contra outside
    rw [Grantable, Nat.cast_ofNat, toInt32_of_above (by omega) (by omega), sizeT] at grantable
    omega
  exact ⟨sum, sum⟩

end SockObj

/-- The bytes no call has taken yet: those kept in the buffer, then those still to be delivered. -/
def St.unconsumed (s : St α) : List α := s.obj.buffered ++ s.pending

/-- `js_sock_construct`: `heap` is what the allocator hands out; an integer argument is taken as
an open descriptor. -/
def jsSockConstruct (heap : ℕ → ℤ → α) (argv : List Jsval) : SockObj α :=
  let o : SockObj α :=
    { sock := -1
      readBuffer := Block.malloc (32 * 1024) heap
      bufferSize := 32 * 1024
      bufferPos := 0
      state := .disconnected
      inRange := true
      room := by decide
      word := by decide }
  match argv with
  | [.int n] => { o with sock := n, state := .connected }
  | _ => o

theorem jsSockConstruct_fits (heap : ℕ → ℤ → α) (argv : List Jsval) :
    (jsSockConstruct heap argv).Fits := by
  unfold jsSockConstruct
  split <;> exact ⟨le_rfl, Int.natCast_nonneg _, le_rfl⟩

theorem jsSockConstruct_inRange (heap : ℕ → ℤ → α) (argv : List Jsval) :
    (jsSockConstruct heap argv).inRange = true := by
  unfold jsSockConstruct
  split <;> rfl

theorem jsSockConstruct_safe (heap : ℕ → ℤ → α) (argv : List Jsval) :
    (jsSockConstruct heap argv).readBuffer.safe = true := by
  unfold jsSockConstruct
  split <;> rfl

section Bytes

variable [Octet α]

/-- The byte the program stores as a string terminator. -/
def nul : α := Octet.lit 0

def isNul (c : α) : Bool := Octet.val c == 0

def isNl (c : α) : Bool := Octet.val c == 10

def isCr (c : α) : Bool := Octet.val c == 13

/-- The C string at the start of the block, as `JS_NewStringCopyZ` copies it. -/
def cString (b : Block α) : List α := Block.upTo isNul b.cells 0 b.size

/-- The part of a byte sequence before its first NUL. -/
def cut (l : List α) : List α := l.takeWhile fun c => !isNul c

@[simp] theorem isNul_nul : isNul (nul : α) = true := by simp [isNul, nul]

@[simp] theorem isNl_nul : isNl (nul : α) = false := by simp [isNl, nul]

@[simp] theorem isCr_nul : isCr (nul : α) = false := by simp [isCr, nul]

theorem not_isNl_of_isNul {c : α} (h : isNul c = true) : isNl c = false := by
  simp only [isNul, beq_iff_eq] at h
  simp [isNl, h]

theorem cut_append_nul (l : List α) {c : α} (h : isNul c = true) : cut (l ++ [c]) = cut l := by
  induction l with
  | nil => simp [cut, h]
  | cons x xs ih =>
    simp only [cut, List.cons_append, List.takeWhile_cons] at ih ⊢
    rw [ih]

theorem cut_of_not_isNul {l : List α} (h : ∀ c ∈ l, isNul c = false) : cut l = l := by
  apply List.takeWhile_eq_self_iff.2
  intro c hc
  simp [h c hc]

theorem cut_subset {l : List α} {c : α} (h : c ∈ cut l) : c ∈ l :=
  (List.takeWhile_sublist _).subset h

/-- With a terminator at `p` inside the block, the C string is the part before it up to its first
NUL. -/
theorem cString_of_nul {b : Block α} {p : ℕ} (inside : p < b.size)
    (terminated : isNul (b.cells p) = true) : cString b = cut (b.slice 0 p) := by
  exact Block.upTo_of_stop inside (by simpa using terminated)

end Bytes

end Sysjs
