import Mathlib.Data.Nat.Find
import Sysjs.Socket.Object
import Sysjs.Words

/-!
# write()

`Write` passes its arguments to `write(2)` one by one, with a space in front of every argument but
the first.  How each `write(2)` turns out, and what the conversion of an argument leaves in `errno`,
is the environment's choice.
-/

set_option autoImplicit false

namespace Sysjs.Shell

/-- An argument after its conversion: its encoded characters, and the value the conversion has given
`errno`, if any. -/
structure Text where
  bytes : List UInt8
  errno : Option ℤ

/-- A `write(2)` that was made: what it was given, and how many bytes it took, `none` for `-1`. -/
structure SysWrite where
  data : List UInt8
  taken : Option ℕ
  bound : ∀ m ∈ taken, m ≤ data.length

namespace SysWrite

/-- The bytes that reached the descriptor. -/
def sent (w : SysWrite) : List UInt8 :=
  match w.taken with
  | none => []
  | some m => w.data.take m

/-- It took all it was given. -/
def Full (w : SysWrite) : Prop := w.taken = some w.data.length

instance (w : SysWrite) : Decidable w.Full := inferInstanceAs (Decidable (_ = _))

end SysWrite

/-- The most bytes that one `write(2)` takes. -/
def maxCount : ℕ := 0x7ffff000

/-- `write(fd, data, strlen(data))`. -/
def sysWrite (data : List UInt8) : Answer → SysWrite
  | .fail => ⟨data, none, by simp⟩
  | .upTo n => ⟨data, some (min n (min data.length maxCount)), by simp⟩

/-- How far `Write` has come: `l`, and the calls of `write(2)` so far. -/
structure Progress where
  l : ℤ
  writes : List SysWrite

/-- The bytes that have reached the descriptor. -/
def Progress.emitted (p : Progress) : List UInt8 := p.writes.flatMap SysWrite.sent

/-- How the loop is left: by `return JS_FALSE` at an argument that cannot be converted, by
`goto err`, or at its end. -/
inductive Ending where
  | unconverted
  | err
  | finished
  deriving DecidableEq

/-- `ret = write(..); if (ret<0 || errno != 0) goto err; l+=ret;`, where `goto err` is
`Except.error`. -/
def writeOne (answers : ℕ → Answer) (data : List UInt8) (errno : ℤ) (p : Progress) :
    Except Progress Progress :=
  let w := sysWrite data (answers p.writes.length)
  let p := { p with writes := p.writes ++ [w] }
  match w.taken with
  | none => .error p
  | some ret => if errno ≠ 0 then .error p else .ok { p with l := toInt32 (p.l + ret) }

/-- The loop from the argument `i` on; `none` is an argument that cannot be converted.  Behind the
space only `ret` is tested, behind the argument also `errno`, which no `write(2)` that succeeds has
changed. -/
def writeArgs (answers : ℕ → Answer) :
    ℕ → ℤ → List (Option Text) → Progress → Ending × Progress
  | _, _, [], p => (.finished, p)
  | _, _, none :: _, p => (.unconverted, p)
  | i, errno, some arg :: rest, p =>
    let errno := arg.errno.getD errno
    match if i = 0 then .ok p else writeOne answers [32] 0 p with
    | .error p => (.err, p)
    | .ok p => match writeOne answers (cut arg.bytes) errno p with
      | .error p => (.err, p)
      | .ok p => writeArgs answers (i + 1) errno rest p

/-- `Write`; when the loop is finished the call returns `INT_TO_JSVAL(l)`. -/
def shellWrite (answers : ℕ → Answer) (argv : List (Option Text)) : Ending × Progress :=
  writeArgs answers 0 0 argv { l := 0, writes := [] }

/-- The arguments joined by single spaces. -/
def joined (args : List Text) : List UInt8 := [32].intercalate (args.map Text.bytes)

/-- What a call should do with arguments that can all be converted: emit a prefix of the text,
return normally only with all of it emitted, and then its length, and raise an error only if some
`write(2)` was short or failed. -/
structure Honest (text : List UInt8) (r : Ending × Progress) : Prop where
  front : r.2.emitted <+: text
  normal : r.1 = .finished → r.2.emitted = text ∧ intToJsval r.2.l = text.length
  error : r.1 ≠ .finished → ∃ w ∈ r.2.writes, ¬ w.Full

/-! ### The pieces of the text -/

/-- What one `write(2)` is given, and the value of `errno` that is looked at behind it, 0 where none
is. -/
structure Piece where
  data : List UInt8
  errno : ℤ

/-- The pieces of the arguments from the index `i` on. -/
def pieces : ℕ → ℤ → List Text → List Piece
  | _, _, [] => []
  | i, errno, arg :: rest =>
    let errno := arg.errno.getD errno
    (if i = 0 then [] else [⟨[32], 0⟩]) ++ ⟨cut arg.bytes, errno⟩ :: pieces (i + 1) errno rest

/-- The loop over the pieces. -/
def send (answers : ℕ → Answer) : List Piece → Progress → Ending × Progress
  | [], p => (.finished, p)
  | x :: rest, p => match writeOne answers x.data x.errno p with
    | .error p => (.err, p)
    | .ok p => send answers rest p

/-- The calls of `write(2)` for the pieces, the first of which is the `k`-th one. -/
def attempts (answers : ℕ → Answer) : ℕ → List Piece → List SysWrite
  | _, [] => []
  | k, x :: rest =>
    let w := sysWrite x.data (answers k)
    w :: if w.taken = none ∨ x.errno ≠ 0 then [] else attempts answers (k + 1) rest

/-- One of them fails, or `errno` is not 0 behind it. -/
def leaves (answers : ℕ → Answer) : ℕ → List Piece → Bool
  | _, [] => false
  | k, x :: rest => (sysWrite x.data (answers k)).taken = none ∨ x.errno ≠ 0 ∨
      leaves answers (k + 1) rest

/-! ### The condition on the arguments and the answers -/

/-- How many bytes of `data` a `write(2)` takes that turns out so. -/
def count (data : List UInt8) : Answer → ℕ
  | .fail => 0
  | .upTo n => min n (min data.length maxCount)

/-- It takes all of them. -/
def TakesAll (data : List UInt8) : Answer → Prop
  | .fail => False
  | .upTo n => data.length ≤ n ∧ data.length ≤ maxCount

/-- How many bytes are taken of the pieces before the `k`-th one, if all of them are written. -/
def place (answers : ℕ → Answer) (xs : List Piece) (k : ℕ) : ℕ :=
  ((xs.take k).mapIdx fun i x => count x.data (answers i)).sum

/-- The piece `m` is the first at which `write(2)` fails or `errno` is not 0. -/
structure StopsAt (answers : ℕ → Answer) (xs : List Piece) (m : ℕ) : Prop where
  inside : m < xs.length
  before : ∀ k (lt : k < m), answers k ≠ .fail ∧ xs[k].errno = 0
  here : answers m = .fail ∨ xs[m].errno ≠ 0

/-- The piece `j` is the first that is not taken whole, at the piece `m` or before, and each piece
from there to `m` is taken only as far as the text has the same bytes at its place. -/
structure RepeatsFrom (answers : ℕ → Answer) (xs : List Piece) (text : List UInt8) (j m : ℕ) :
    Prop where
  order : j ≤ m
  inside : m < xs.length
  before : ∀ k (lt : k < j), TakesAll xs[k].data (answers k)
  here : ¬ TakesAll xs[j].data (answers j)
  behind : ∀ k (_ : j < k) (le : k ≤ m),
    xs[k].data.take (count xs[k].data (answers k)) <+: text.drop (place answers xs k)

/-- The condition: every piece is taken whole with `errno` 0 behind it, and the length of the text
is an integer jsval; or `write(2)` fails or `errno` is not 0 at some piece, the first piece that is
not taken whole comes no later, and behind it nothing is taken but bytes that repeat the ones left
out. -/
def Orderly (answers : ℕ → Answer) (args : List Text) : Prop :=
  let xs := pieces 0 0 args
  ((∀ k (h : k < xs.length), TakesAll xs[k].data (answers k) ∧ xs[k].errno = 0) ∧
      (joined args).length < 2 ^ 30) ∨
    ∃ j m, StopsAt answers xs m ∧ RepeatsFrom answers xs (joined args) j m

theorem writeOne_error {answers : ℕ → Answer} {data : List UInt8} {errno : ℤ} {p : Progress}
    (h : (sysWrite data (answers p.writes.length)).taken = none ∨ errno ≠ 0) :
    writeOne answers data errno p =
      .error { p with writes := p.writes ++ [sysWrite data (answers p.writes.length)] } := by
  unfold writeOne
  dsimp only
  split
  · rfl
  · next taken =>
    rw [taken] at h
    rw [if_pos (h.resolve_left (by simp))]

theorem writeOne_ok {answers : ℕ → Answer} {data : List UInt8} {p : Progress} {m : ℕ}
    (taken : (sysWrite data (answers p.writes.length)).taken = some m) :
    writeOne answers data 0 p = .ok
      { l := toInt32 (p.l + m)
        writes := p.writes ++ [sysWrite data (answers p.writes.length)] } := by
  unfold writeOne
  simp only [taken]
  rfl

/-- The loop over the arguments is the loop over their pieces. -/
theorem writeArgs_eq_send (answers : ℕ → Answer) (i : ℕ) (errno : ℤ) (args : List Text)
    (p : Progress) :
    writeArgs answers i errno (args.map some) p = send answers (pieces i errno args) p := by
  induction args generalizing i errno p with
  | nil => rfl
  | cons arg rest ih =>
    have behind (p : Progress) (e : ℤ) :
        (match writeOne answers (cut arg.bytes) e p with
          | .error p => (Ending.err, p)
          | .ok p => writeArgs answers (i + 1) e (rest.map some) p) =
        send answers (⟨cut arg.bytes, e⟩ :: pieces (i + 1) e rest) p := by
      rw [send]
      split
      · next failed => rw [failed]
      · next wrote => rw [wrote, ih]
    rw [List.map_cons, writeArgs, pieces]
    by_cases first : i = 0
    · simp only [if_pos first, List.nil_append]
      exact behind p _
    · simp only [if_neg first, List.singleton_append]
      rw [send]
      split
      · next failed => rw [failed]
      · next wrote =>
        rw [wrote]
        exact behind _ _

/-- The pieces together are the text. -/
theorem pieces_data (i : ℕ) (errno : ℤ) (args : List Text)
    (plain : ∀ arg ∈ args, (0 : UInt8) ∉ arg.bytes) :
    (pieces i errno args).flatMap Piece.data =
      (if i = 0 ∨ args = [] then [] else [32]) ++ joined args := by
  induction args generalizing i errno with
  | nil => simp [pieces, joined]
  | cons arg rest ih =>
    have whole : cut arg.bytes = arg.bytes := by
      apply cut_of_not_isNul
      rintro c member
      have := plain arg List.mem_cons_self
      simp only [isNul, octet_val_uint8, beq_eq_false_iff_ne]
      rintro rfl
      exact this member
    have later := ih (i + 1) (arg.errno.getD errno)
      (fun a member => plain a (List.mem_cons_of_mem _ member))
    have joins : joined (arg :: rest) =
        arg.bytes ++ ((if rest = [] then [] else [32]) ++ joined rest) := by
      cases rest with
      | nil => simp [joined]
      | cons next rest => simp [joined, List.intercalate_cons_cons]
    rw [pieces, List.flatMap_append, List.flatMap_cons, later, whole, joins]
    by_cases first : i = 0 <;> simp [first]

/-! ### What the loop does -/

section OneWrite

variable (data : List UInt8) (a : Answer)

@[simp] theorem sysWrite_data : (sysWrite data a).data = data := by
  cases a <;> rfl

theorem sysWrite_taken_eq_none_iff : (sysWrite data a).taken = none ↔ a = .fail := by
  cases a <;> simp [sysWrite]

theorem sysWrite_full_iff : (sysWrite data a).Full ↔ TakesAll data a := by
  cases a with
  | fail => simp [SysWrite.Full, sysWrite, TakesAll]
  | upTo n =>
    simp only [SysWrite.Full, sysWrite, TakesAll, Option.some.injEq]
    omega

theorem sysWrite_sent : (sysWrite data a).sent = data.take (count data a) := by
  cases a <;> rfl

theorem count_le : count data a ≤ data.length := by
  cases a with
  | fail => exact Nat.zero_le _
  | upTo n => exact (Nat.min_le_right _ _).trans (Nat.min_le_left _ _)

end OneWrite

namespace SysWrite

theorem sent_front (w : SysWrite) : w.sent <+: w.data := by
  unfold sent
  split
  · exact List.nil_prefix
  · exact List.take_prefix _ _

theorem length_sent {w : SysWrite} {m : ℕ} (taken : w.taken = some m) : w.sent.length = m := by
  have bound := w.bound m taken
  simp only [sent, taken, List.length_take]
  omega

theorem full_iff {w : SysWrite} (succeeded : w.taken ≠ none) : w.Full ↔ w.sent = w.data := by
  obtain ⟨m, taken⟩ := Option.ne_none_iff_exists'.1 succeeded
  have length := length_sent taken
  constructor
  · intro full
    simp [sent, show w.taken = some w.data.length from full]
  · intro all
    rw [Full, taken, ← length, all]

theorem sent_length_le (ws : List SysWrite) :
    (ws.flatMap sent).length ≤ (ws.flatMap data).length := by
  induction ws with
  | nil => exact le_rfl
  | cons w ws ih =>
    have := (sent_front w).length_le
    simp only [List.flatMap_cons, List.length_append]
    omega

/-- Calls that have succeeded are all full when all they were given was sent. -/
theorem all_full_iff {ws : List SysWrite} (succeeded : ∀ w ∈ ws, w.taken ≠ none) :
    (∀ w ∈ ws, w.Full) ↔ ws.flatMap sent = ws.flatMap data := by
  induction ws with
  | nil => simp
  | cons w ws ih =>
    rw [List.forall_mem_cons] at succeeded
    rw [List.forall_mem_cons, full_iff succeeded.1, ih succeeded.2, List.flatMap_cons,
      List.flatMap_cons]
    constructor
    · rintro ⟨first, later⟩
      rw [first, later]
    · intro all
      obtain ⟨missing, split⟩ := sent_front w
      rw [← split, List.append_assoc, List.append_cancel_left_eq] at all
      have lengths := congrArg List.length all
      have := sent_length_le ws
      rw [List.length_append] at lengths
      obtain rfl := List.eq_nil_of_length_eq_zero (show missing.length = 0 by omega)
      exact ⟨by rw [← split, List.append_nil], all⟩

end SysWrite

theorem leaves_cons_eq_false {answers : ℕ → Answer} {k : ℕ} {x : Piece} {rest : List Piece} :
    leaves answers k (x :: rest) = false ↔
      (sysWrite x.data (answers k)).taken ≠ none ∧ x.errno = 0 ∧
        leaves answers (k + 1) rest = false := by
  simp [leaves]

/-- How the loop over the pieces ends, and the calls it has made. -/
theorem send_spec (answers : ℕ → Answer) (xs : List Piece) (p : Progress) :
    (send answers xs p).1 = (if leaves answers p.writes.length xs then .err else .finished) ∧
    (send answers xs p).2.writes = p.writes ++ attempts answers p.writes.length xs := by
  induction xs generalizing p with
  | nil => simp [send, leaves, attempts]
  | cons x rest ih =>
    by_cases stop : (sysWrite x.data (answers p.writes.length)).taken = none ∨ x.errno ≠ 0
    · have left : leaves answers p.writes.length (x :: rest) = true := by
        unfold leaves
        simp only [decide_eq_true_eq]
        exact stop.imp_right Or.inl
      rw [send, writeOne_error stop, left, attempts, if_pos stop]
      exact ⟨rfl, rfl⟩
    · obtain ⟨some_taken, errno⟩ := not_or.1 stop
      obtain ⟨m, taken⟩ := Option.ne_none_iff_exists'.1 some_taken
      rw [not_not] at errno
      rw [send, errno, writeOne_ok taken]
      obtain ⟨ending, writes⟩ := ih
        { l := toInt32 (p.l + m)
          writes := p.writes ++ [sysWrite x.data (answers p.writes.length)] }
      rw [List.length_append, List.length_singleton] at ending writes
      refine ⟨?_, ?_⟩
      · rw [ending]
        simp [leaves, taken, errno]
      · rw [writes, attempts, if_neg stop, List.append_assoc, List.singleton_append]

/-- The calls of `write(2)` for these pieces, one for each. -/
def writesFor (answers : ℕ → Answer) (xs : List Piece) : List SysWrite :=
  xs.mapIdx fun i x => sysWrite x.data (answers i)

theorem writesFor_cons (answers : ℕ → Answer) (x : Piece) (xs : List Piece) :
    writesFor answers (x :: xs) =
      sysWrite x.data (answers 0) :: writesFor (fun i => answers (i + 1)) xs := by
  rw [writesFor, List.mapIdx_cons]
  rfl

theorem StopsAt.succ {answers : ℕ → Answer} {x : Piece} {xs : List Piece} {m : ℕ}
    (stops : StopsAt answers (x :: xs) (m + 1)) : StopsAt (fun i => answers (i + 1)) xs m where
  inside := Nat.lt_of_succ_lt_succ stops.inside
  before k lt := by simpa using stops.before (k + 1) (Nat.succ_lt_succ lt)
  here := by simpa using stops.here

/-- A loop that is left has made a call for every piece up to the one at which it is left. -/
theorem attempts_of_stopsAt {answers : ℕ → Answer} {k m : ℕ} {xs : List Piece}
    (stops : StopsAt (fun i => answers (k + i)) xs m) :
    leaves answers k xs = true ∧
      attempts answers k xs = writesFor (fun i => answers (k + i)) (xs.take (m + 1)) := by
  induction xs generalizing k m with
  | nil => exact absurd stops.inside (Nat.not_lt_zero m)
  | cons x rest ih =>
    have dead := sysWrite_taken_eq_none_iff x.data (answers k)
    rw [List.take_succ_cons, writesFor_cons, Nat.add_zero, attempts, leaves, decide_eq_true_iff]
    cases m with
    | zero =>
      have here : answers k = .fail ∨ x.errno ≠ 0 := stops.here
      rw [if_pos (here.imp_left dead.2), List.take_zero]
      exact ⟨here.imp dead.2 Or.inl, rfl⟩
    | succ m =>
      have before : answers k ≠ .fail ∧ x.errno = 0 := stops.before 0 (Nat.succ_pos m)
      have shift : (fun i => answers (k + (i + 1))) = fun i => answers (k + 1 + i) := by
        funext i
        rw [Nat.add_right_comm, Nat.add_assoc]
      have later := stops.succ
      rw [shift] at later
      obtain ⟨left, calls⟩ := ih later
      have go : ¬ ((sysWrite x.data (answers k)).taken = none ∨ x.errno ≠ 0) := by
        simp [dead, before]
      rw [if_neg go, calls, shift]
      exact ⟨Or.inr (Or.inr left), rfl⟩

/-- It is left at the first piece where `write(2)` fails or `errno` is not 0. -/
theorem exists_stopsAt {answers : ℕ → Answer} {k : ℕ} {xs : List Piece}
    (left : leaves answers k xs = true) : ∃ m, StopsAt (fun i => answers (k + i)) xs m := by
  induction xs generalizing k with
  | nil => cases left
  | cons x rest ih =>
    by_cases here : answers k = .fail ∨ x.errno ≠ 0
    · exact ⟨0, Nat.succ_pos _, fun i lt => absurd lt (Nat.not_lt_zero i), here⟩
    · rw [leaves, decide_eq_true_iff, sysWrite_taken_eq_none_iff, ← or_assoc,
        or_iff_right here] at left
      obtain ⟨m, inside, before, stop⟩ := ih left
      have shift (i : ℕ) : k + (i + 1) = k + 1 + i := by omega
      refine ⟨m + 1, Nat.succ_lt_succ inside, fun i lt => ?_, ?_⟩
      · cases i with
        | zero => exact not_or.1 here |>.imp_right not_not.1
        | succ i =>
          rw [shift]
          exact before i (Nat.lt_of_succ_lt_succ lt)
      · rw [shift]
        exact stop

/-- A loop that finishes has made a call for every piece. -/
theorem attempts_of_finished {answers : ℕ → Answer} {k : ℕ} {xs : List Piece}
    (finished : leaves answers k xs = false) :
    attempts answers k xs = writesFor (fun i => answers (k + i)) xs ∧
      ∀ i (h : i < xs.length), answers (k + i) ≠ .fail ∧ xs[i].errno = 0 := by
  induction xs generalizing k with
  | nil => exact ⟨rfl, fun i h => absurd h (Nat.not_lt_zero i)⟩
  | cons x rest ih =>
    obtain ⟨succeeded, errno, later⟩ := leaves_cons_eq_false.1 finished
    obtain ⟨calls, all⟩ := ih later
    have shift : (fun i => answers (k + (i + 1))) = fun i => answers (k + 1 + i) := by
      funext i
      rw [Nat.add_right_comm, Nat.add_assoc]
    have go : ¬ ((sysWrite x.data (answers k)).taken = none ∨ x.errno ≠ 0) := by
      simp [succeeded, errno]
    rw [attempts, if_neg go, calls, writesFor_cons, Nat.add_zero, shift]
    refine ⟨rfl, fun i h => ?_⟩
    cases i with
    | zero => exact ⟨(sysWrite_taken_eq_none_iff _ _).not.1 succeeded, errno⟩
    | succ i =>
      have := all i (Nat.lt_of_succ_lt_succ h)
      rwa [Nat.add_right_comm, Nat.add_assoc] at this

/-- It has added up the counts. -/
theorem send_l {answers : ℕ → Answer} {xs : List Piece} {p : Progress}
    (finished : leaves answers p.writes.length xs = false) (start : toInt32 p.l = p.l) :
    (send answers xs p).2.l =
      toInt32 (p.l + ((attempts answers p.writes.length xs).flatMap SysWrite.sent).length) := by
  induction xs generalizing p with
  | nil => simp [send, attempts, start]
  | cons x rest ih =>
    obtain ⟨succeeded, errno, later⟩ := leaves_cons_eq_false.1 finished
    obtain ⟨m, taken⟩ := Option.ne_none_iff_exists'.1 succeeded
    have go : ¬ ((sysWrite x.data (answers p.writes.length)).taken = none ∨ x.errno ≠ 0) := by
      simp [succeeded, errno]
    have added := ih
      (p := { l := toInt32 (p.l + m)
              writes := p.writes ++ [sysWrite x.data (answers p.writes.length)] })
      (by simpa using later) (Int.bmod_bmod)
    rw [List.length_append, List.length_singleton] at added
    rw [send, errno, writeOne_ok taken, added, toInt32_add, attempts, if_neg go, List.flatMap_cons,
      List.length_append, SysWrite.length_sent taken, Int.natCast_add, Int.add_assoc]

/-! ### What is sent -/

theorem writesFor_data (answers : ℕ → Answer) (xs : List Piece) :
    (writesFor answers xs).flatMap SysWrite.data = xs.flatMap Piece.data := by
  induction xs generalizing answers with
  | nil => rfl
  | cons x xs ih => rw [writesFor_cons, List.flatMap_cons, List.flatMap_cons, ih, sysWrite_data]

theorem getElem_writesFor (answers : ℕ → Answer) (xs : List Piece) {i : ℕ}
    (h : i < (writesFor answers xs).length) (inside : i < xs.length) :
    (writesFor answers xs)[i] = sysWrite xs[i].data (answers i) := List.getElem_mapIdx

@[simp] theorem length_writesFor (answers : ℕ → Answer) (xs : List Piece) :
    (writesFor answers xs).length = xs.length := List.length_mapIdx

theorem take_writesFor (answers : ℕ → Answer) (xs : List Piece) (k : ℕ) :
    (writesFor answers xs).take k = writesFor answers (xs.take k) := by
  induction xs generalizing answers k with
  | nil => simp [writesFor]
  | cons x xs ih =>
    cases k with
    | zero => rfl
    | succ k => rw [writesFor_cons, List.take_succ_cons, ih, List.take_succ_cons, writesFor_cons]

theorem length_sent_writesFor (answers : ℕ → Answer) (xs : List Piece) :
    ((writesFor answers xs).flatMap SysWrite.sent).length =
      (xs.mapIdx fun i x => count x.data (answers i)).sum := by
  induction xs generalizing answers with
  | nil => rfl
  | cons x xs ih =>
    have front := Nat.min_eq_left (count_le x.data (answers 0))
    rw [writesFor_cons, List.flatMap_cons, List.length_append, ih, sysWrite_sent, List.length_take,
      front, List.mapIdx_cons, List.sum_cons]

/-- Parts together are the front of a text when each of them stands at its place. -/
theorem flatMap_prefix_iff {β γ : Type*} (f : β → List γ) (l : List β) (text : List γ) :
    l.flatMap f <+: text ↔
      ∀ k (h : k < l.length), f l[k] <+: text.drop ((l.take k).flatMap f).length := by
  induction l generalizing text with
  | nil => simp
  | cons x l ih =>
    rw [List.flatMap_cons]
    constructor
    · rintro ⟨rest, rfl⟩ k h
      cases k with
      | zero => exact ⟨l.flatMap f ++ rest, by simp⟩
      | succ k =>
        have later := (ih (l.flatMap f ++ rest)).1 (List.prefix_append _ _) k
          (Nat.lt_of_succ_lt_succ h)
        rw [List.take_succ_cons, List.flatMap_cons, List.length_append, List.append_assoc,
          ← List.drop_drop, List.drop_left]
        exact later
    · intro parts
      obtain ⟨rest, rfl⟩ : f x <+: text := by simpa using parts 0 (Nat.succ_pos _)
      rw [List.prefix_append_right_inj, ih]
      intro k h
      have later := parts (k + 1) (Nat.succ_lt_succ h)
      rwa [List.take_succ_cons, List.flatMap_cons, List.length_append, ← List.drop_drop,
        List.drop_left] at later

/-- Where all calls before took all they were given, what is sent stands at its place. -/
theorem prefix_of_full {answers : ℕ → Answer} {xs : List Piece} {k : ℕ} (inside : k < xs.length)
    (full : ∀ i (lt : i < k), TakesAll xs[i].data (answers i)) :
    xs[k].data.take (count xs[k].data (answers k)) <+:
      (xs.flatMap Piece.data).drop (place answers xs k) := by
  have all : ∀ w ∈ writesFor answers (xs.take k), w.Full := by
    intro w member
    obtain ⟨i, h, rfl⟩ := List.exists_of_mem_mapIdx member
    rw [List.length_take] at h
    rw [List.getElem_take, sysWrite_full_iff]
    exact full i (by omega)
  have sent := (SysWrite.all_full_iff fun w member => by
    rw [show w.taken = some w.data.length from all w member]
    simp).1 all
  have reached : place answers xs k = ((xs.take k).flatMap Piece.data).length := by
    rw [place, ← length_sent_writesFor, sent, writesFor_data]
  have split : xs = xs.take k ++ xs[k] :: xs.drop (k + 1) := by
    rw [List.getElem_cons_drop, List.take_append_drop]
  have text : (xs.flatMap Piece.data).drop (place answers xs k) =
      xs[k].data ++ (xs.drop (k + 1)).flatMap Piece.data := by
    have whole := congrArg (List.flatMap Piece.data) split
    rw [List.flatMap_append, List.flatMap_cons] at whole
    rw [reached, whole, List.drop_left]
  rw [text]
  exact (List.take_prefix _ _).trans (List.prefix_append _ _)

/-- When the piece `j` is the first that is not taken whole, the calls up to that for the piece `m`
send a front part of the text if and only if the pieces behind repeat what is left out. -/
theorem sent_front_iff {answers : ℕ → Answer} {xs : List Piece} {j m : ℕ} (order : j ≤ m)
    (inside : m < xs.length) (before : ∀ k (lt : k < j), TakesAll xs[k].data (answers k)) :
    (writesFor answers (xs.take (m + 1))).flatMap SysWrite.sent <+: xs.flatMap Piece.data ↔
      ∀ k (_ : j < k) (le : k ≤ m), xs[k].data.take (count xs[k].data (answers k)) <+:
        (xs.flatMap Piece.data).drop (place answers xs k) := by
  have length : (writesFor answers (xs.take (m + 1))).length = m + 1 := by
    rw [length_writesFor, List.length_take]
    omega
  have part (k : ℕ) (le : k ≤ m) (h : k < (writesFor answers (xs.take (m + 1))).length) :
      (writesFor answers (xs.take (m + 1)))[k].sent =
        xs[k].data.take (count xs[k].data (answers k)) := by
    rw [getElem_writesFor _ _ h (by rwa [length_writesFor] at h), sysWrite_sent,
      List.getElem_take]
  have reached (k : ℕ) (le : k ≤ m) :
      (((writesFor answers (xs.take (m + 1))).take k).flatMap SysWrite.sent).length =
        place answers xs k := by
    rw [take_writesFor, List.take_take, Nat.min_eq_left (by omega), length_sent_writesFor, place]
  rw [flatMap_prefix_iff]
  constructor
  · intro parts k _ le
    have := parts k (by omega)
    rwa [part k le, reached k le] at this
  · intro behind k h
    have le : k ≤ m := by omega
    rw [part k le, reached k le]
    by_cases front : j < k
    · exact behind k front le
    · exact prefix_of_full (by omega) fun i lt => before i (by omega)

theorem joined_pieces {args : List Text} (plain : ∀ arg ∈ args, (0 : UInt8) ∉ arg.bytes) :
    (pieces 0 0 args).flatMap Piece.data = joined args := by
  rw [pieces_data 0 0 args plain, if_pos (Or.inl rfl), List.nil_append]

/-- How the whole call ends, and the calls of `write(2)` it has made. -/
theorem shellWrite_spec (answers : ℕ → Answer) (args : List Text) :
    (shellWrite answers (args.map some)).1 =
        (if leaves answers 0 (pieces 0 0 args) then .err else .finished) ∧
      (shellWrite answers (args.map some)).2.writes = attempts answers 0 (pieces 0 0 args) := by
  rw [shellWrite, writeArgs_eq_send]
  exact send_spec answers (pieces 0 0 args) { l := 0, writes := [] }

/-- A call that leaves by `goto err` at the piece `m` is honest when some piece is the first that is
not taken whole, and those behind it repeat what is left out. -/
theorem honest_iff_of_stopsAt {answers : ℕ → Answer} {args : List Text} {m : ℕ}
    (plain : ∀ arg ∈ args, (0 : UInt8) ∉ arg.bytes)
    (stops : StopsAt answers (pieces 0 0 args) m) :
    Honest (joined args) (shellWrite answers (args.map some)) ↔
      ∃ j, RepeatsFrom answers (pieces 0 0 args) (joined args) j m := by
  obtain ⟨ending, writes⟩ := shellWrite_spec answers args
  have shifted : StopsAt (fun i => answers (0 + i)) (pieces 0 0 args) m := by
    simpa only [Nat.zero_add] using stops
  obtain ⟨left, calls⟩ := attempts_of_stopsAt shifted
  simp only [Nat.zero_add] at calls
  rw [if_pos left] at ending
  rw [calls] at writes
  have inside := stops.inside
  have text := joined_pieces plain
  constructor
  · intro honest
    have front := honest.front
    obtain ⟨w, member, short⟩ := honest.error (by rw [ending]; simp)
    rw [writes] at member
    rw [Progress.emitted, writes, ← text] at front
    obtain ⟨i, h, rfl⟩ := List.exists_of_mem_mapIdx member
    rw [List.length_take] at h
    rw [List.getElem_take, sysWrite_full_iff] at short
    -- the first of the pieces that are not taken whole
    have some_short : ∃ j, ∃ h : j < (pieces 0 0 args).length,
        ¬ TakesAll (pieces 0 0 args)[j].data (answers j) := ⟨i, by omega, short⟩
    classical
    obtain ⟨at_j, first⟩ := Nat.find_spec some_short
    have least (k : ℕ) (lt : k < Nat.find some_short) :
        TakesAll (pieces 0 0 args)[k].data (answers k) := by
      by_contra missing
      exact Nat.find_min some_short lt ⟨by omega, missing⟩
    have order : Nat.find some_short ≤ m :=
      (Nat.find_min' some_short ⟨by omega, short⟩).trans (by omega)
    have behind := (sent_front_iff order inside least).1 front
    rw [text] at behind
    exact ⟨_, order, inside, least, first, behind⟩
  · rintro ⟨j, order, _, least, first, behind⟩
    rw [← text] at behind
    refine ⟨?_, fun finished => ?_, fun _ => ?_⟩
    · rw [Progress.emitted, writes, ← text]
      exact (sent_front_iff order inside least).2 behind
    · rw [ending] at finished
      cases finished
    · have h : j < (writesFor answers ((pieces 0 0 args).take (m + 1))).length := by
        rw [length_writesFor, List.length_take]
        omega
      rw [writes]
      refine ⟨_, List.getElem_mem h, ?_⟩
      rw [getElem_writesFor _ _ h (by rwa [length_writesFor] at h), sysWrite_full_iff,
        List.getElem_take]
      exact first

/-- A call that comes to its end is honest when every piece is taken whole and the length is an
integer jsval. -/
theorem honest_iff_of_finished {answers : ℕ → Answer} {args : List Text}
    (plain : ∀ arg ∈ args, (0 : UInt8) ∉ arg.bytes)
    (finished : leaves answers 0 (pieces 0 0 args) = false) :
    Honest (joined args) (shellWrite answers (args.map some)) ↔
      (∀ k (h : k < (pieces 0 0 args).length),
        TakesAll (pieces 0 0 args)[k].data (answers k)) ∧ (joined args).length < 2 ^ 30 := by
  obtain ⟨ending, writes⟩ := shellWrite_spec answers args
  rw [if_neg (by simp [finished])] at ending
  obtain ⟨calls, succeeded⟩ := attempts_of_finished finished
  have data := writesFor_data answers (pieces 0 0 args)
  have l := send_l (p := { l := 0, writes := [] }) finished rfl
  simp only [Nat.zero_add] at calls succeeded
  rw [← writeArgs_eq_send, List.length_nil, Int.zero_add, calls] at l
  rw [calls] at writes
  rw [joined_pieces plain] at data
  have whole : (∀ k (h : k < (pieces 0 0 args).length),
      TakesAll (pieces 0 0 args)[k].data (answers k)) ↔
        (writesFor answers (pieces 0 0 args)).flatMap SysWrite.sent = joined args := by
    rw [← data, ← SysWrite.all_full_iff]
    · simp only [writesFor, List.mem_mapIdx, forall_exists_index, ← sysWrite_full_iff]
      exact ⟨fun all w i h same => same ▸ all i h, fun all i h => all _ i h rfl⟩
    · intro w member
      obtain ⟨i, h, rfl⟩ := List.exists_of_mem_mapIdx member
      exact (sysWrite_taken_eq_none_iff _ _).not.2 (succeeded i h).1
  have returned (all : (writesFor answers (pieces 0 0 args)).flatMap SysWrite.sent =
      joined args) : intToJsval (shellWrite answers (args.map some)).2.l = (joined args).length ↔
        (joined args).length < 2 ^ 30 := by
    rw [shellWrite, l, all, intToJsval_toInt32, intToJsval_natCast_eq_iff]
  rw [whole]
  constructor
  · intro honest
    have normal := honest.normal ending
    rw [Progress.emitted, writes] at normal
    exact ⟨normal.1, (returned normal.1).1 normal.2⟩
  · rintro ⟨all, small⟩
    have emitted : (shellWrite answers (args.map some)).2.emitted = joined args := by
      rw [Progress.emitted, writes, all]
    exact {
      front := emitted ▸ List.prefix_rfl
      normal := fun _ => ⟨emitted, (returned all).2 small⟩
      error := fun unfinished => absurd ending unfinished }

theorem StopsAt.not_all {answers : ℕ → Answer} {xs : List Piece} {m : ℕ}
    (stops : StopsAt answers xs m)
    (all : ∀ k (h : k < xs.length), TakesAll xs[k].data (answers k) ∧ xs[k].errno = 0) : False := by
  obtain ⟨taken, errno⟩ := all m stops.inside
  rcases stops.here with failed | left
  · rw [failed] at taken
    exact taken
  · exact left errno

theorem StopsAt.unique {answers : ℕ → Answer} {xs : List Piece} {m m' : ℕ}
    (stops : StopsAt answers xs m) (stops' : StopsAt answers xs m') : m = m' := by
  have le {a b : ℕ} (left : StopsAt answers xs a) (right : StopsAt answers xs b) : b ≤ a := by
    by_contra lt
    have passed := right.before a (by omega)
    rcases left.here with failed | errno
    · exact passed.1 failed
    · exact errno passed.2
  exact le_antisymm (le stops' stops) (le stops stops')

/-- A call is honest if and only if its arguments and the answers are orderly. -/
theorem shellWrite_honest_iff (answers : ℕ → Answer) (args : List Text)
    (plain : ∀ arg ∈ args, (0 : UInt8) ∉ arg.bytes) :
    Honest (joined args) (shellWrite answers (args.map some)) ↔ Orderly answers args := by
  unfold Orderly
  cases left : leaves answers 0 (pieces 0 0 args) with
  | true =>
    obtain ⟨m, stops⟩ := exists_stopsAt left
    simp only [Nat.zero_add] at stops
    rw [honest_iff_of_stopsAt plain stops]
    constructor
    · rintro ⟨j, repeats⟩
      exact Or.inr ⟨j, m, stops, repeats⟩
    · rintro (⟨all, -⟩ | ⟨j, m', stops', repeats⟩)
      · exact (stops.not_all all).elim
      · exact ⟨j, stops.unique stops' ▸ repeats⟩
  | false =>
    obtain ⟨-, succeeded⟩ := attempts_of_finished left
    simp only [Nat.zero_add] at succeeded
    rw [honest_iff_of_finished plain left]
    constructor
    · rintro ⟨all, small⟩
      exact Or.inl ⟨fun k h => ⟨all k h, (succeeded k h).2⟩, small⟩
    · rintro (⟨all, small⟩ | ⟨j, m, stops, -⟩)
      · exact ⟨fun k h => (all k h).1, small⟩
      · have stopped := (attempts_of_stopsAt (k := 0) (by simpa only [Nat.zero_add] using stops)).1
        rw [left] at stopped
        cases stopped

/-- `write("a", "b")` when every `write(2)` takes all it is given. -/
theorem shellWrite_honest_two :
    Honest [97, 32, 98] (shellWrite (fun _ => .upTo 1) [some ⟨[97], none⟩, some ⟨[98], none⟩]) := by
  refine (shellWrite_honest_iff (fun _ => .upTo 1) [⟨[97], none⟩, ⟨[98], none⟩] (by decide)).2
    (Or.inl ⟨fun k h => ?_, by decide⟩)
  have three : k = 0 ∨ k = 1 ∨ k = 2 := by
    have length : (pieces 0 0 [⟨[97], none⟩, ⟨[98], none⟩]).length = 3 := rfl
    omega
  have small : 1 ≤ maxCount := by decide
  rcases three with rfl | rfl | rfl
  · exact ⟨⟨le_rfl, small⟩, rfl⟩
  · exact ⟨⟨le_rfl, small⟩, rfl⟩
  · exact ⟨⟨le_rfl, small⟩, rfl⟩

/-- `write("ab", "c")` when the first `write(2)` takes one byte: "a c" is emitted. -/
theorem shellWrite_not_short :
    ¬ Honest [97, 98, 32, 99] (shellWrite (fun _ => .upTo 1)
      [some ⟨[97, 98], none⟩, some ⟨[99], none⟩]) := by
  intro honest
  have front := honest.front
  revert front
  decide

end Sysjs.Shell
