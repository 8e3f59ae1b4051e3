import Sysjs.Foundation.Format
import Sysjs.Foundation.Runs
import Sysjs.Shell.Write

/-!
# Standard output

`print` and the methods `connect` and `accept` put their text into the buffer of `stdout`, `write`
goes past it to the descriptor.  Every byte carries its number in the order in which the calls
produced them.
-/

set_option autoImplicit false

namespace Sysjs.Shell

open Runs

/-- What has reached the descriptor, what the buffer keeps, and how many bytes were produced. -/
structure Stdout where
  fd : List (UInt8 × ℕ)
  buffer : List (UInt8 × ℕ)
  produced : ℕ

/-- How a `printf` turns out: whether it succeeds, how much of its text is taken if it does not, how
many bytes of the buffer are passed on, and the value it has given `errno`, if any. -/
structure Printf where
  ok : Bool
  kept : ℕ
  passed : ℕ
  errno : Option ℤ

namespace Stdout

/-- A text is added to the buffer. -/
def add (s : Stdout) (text : List UInt8) : Stdout :=
  { s with
    buffer := s.buffer ++ text.zipIdx s.produced
    produced := s.produced + text.length }

/-- The first `n` bytes of the buffer are passed on. -/
def pass (s : Stdout) (n : ℕ) : Stdout :=
  { s with fd := s.fd ++ s.buffer.take n, buffer := s.buffer.drop n }

/-- `fprintf` or `fputc`. -/
def printf (s : Stdout) (text : List UInt8) (o : Printf) : Stdout :=
  (s.add (if o.ok then text else text.take o.kept)).pass o.passed

/-- `fflush`, which passes on the whole buffer unless it fails behind the first bytes. -/
def fflush (s : Stdout) (fails : Option ℕ) : Stdout := s.pass (fails.getD s.buffer.length)

/-- Bytes that `write(2)` takes. -/
def direct (s : Stdout) (bytes : List UInt8) : Stdout :=
  { s with
    fd := s.fd ++ bytes.zipIdx s.produced
    produced := s.produced + bytes.length }

/-- The bytes are at the descriptor, or will be when the buffer is flushed, in the order in which
they were produced. -/
def InOrder (s : Stdout) : Prop := (s.fd ++ s.buffer).map Prod.snd = List.range s.produced

end Stdout

/-- The loop of `Print` from the argument `i` on: whether it comes to its end. -/
def printArgs (outcome : ℕ → Printf) : ℕ → ℤ → List (Option Text) → Stdout → Bool × Stdout
  | _, _, [], s => (true, s)
  | _, _, none :: _, s => (false, s)
  | i, errno, some arg :: rest, s =>
    let o := outcome i
    let s := s.printf ((if i = 0 then [] else [32]) ++ cut arg.bytes) o
    let errno := o.errno.getD (arg.errno.getD errno)
    if !o.ok ∨ errno ≠ 0 then (false, s) else printArgs outcome (i + 1) errno rest s

/-- `Print`. -/
def shellPrint (s : Stdout) (argv : List (Option Text)) (outcome : ℕ → Printf)
    (flush : Option ℕ) : Stdout :=
  match printArgs outcome 0 0 argv s with
  | (false, s) => s
  | (true, s) => (s.printf [10] (outcome argv.length)).fflush flush

/-- The bytes of a text that is all ASCII. -/
def ascii (text : List Char) : List UInt8 := text.map fun c => c.toNat.toUInt8

/-- The calls that write to standard output, with the answers they get: `print`; `write`; `connect`
with its arguments and whether `getaddrinfo` finds the host, `none` when it does not have two
arguments; `accept` with the size of the address and the descriptor, `none` when it fails. -/
inductive OutCall where
  | print (argv : List (Option Text)) (outcome : ℕ → Printf) (flush : Option ℕ)
  | write (argv : List (Option Text)) (answers : ℕ → Answer) (flush : Option ℕ)
  | connect (argv : Option (List UInt8 × ℤ)) (found : Bool) (o : Printf)
  | accept (answer : Option (ℤ × ℤ)) (o : Printf)

/-- What a call does to standard output. -/
def OutCall.run (s : Stdout) : OutCall → Stdout
  | .print argv outcome flush => shellPrint s argv outcome flush
  | .write argv answers flush =>
    let r := shellWrite answers argv
    let s := s.direct r.2.emitted
    if r.1 = .finished then s.fflush flush else s
  | .connect (some (host, port)) true o =>
    s.printf (ascii "Connecting to: ".toList ++ host ++ ascii (":".toList ++ decimal port ++
      ".\n".toList)) o
  | .connect _ _ _ => s
  | .accept (some (size, cfd)) o =>
    s.printf (ascii ("addr sz ".toList ++ decimal size ++ " sid ".toList ++ decimal cfd ++
      "\n".toList)) o
  | .accept none _ => s

def step (s : Stdout) (call : OutCall) : Option (Unit × Stdout) := some ((), call.run s)

/-- Before the first call. -/
def Stdout.start : Stdout := { fd := [], buffer := [], produced := 0 }

/-- A call of `write` that passes bytes to the descriptor finds nothing in the buffer. -/
def Unbuffered (s : Stdout) : OutCall → Prop
  | .write argv answers _ => s.buffer = [] ∨ (shellWrite answers argv).2.emitted = []
  | _ => True

namespace Stdout

theorem range_append (k n : ℕ) : List.range k ++ List.range' k n = List.range (k + n) := by
  rw [List.range_eq_range', List.range_eq_range', ← List.range'_append_1, Nat.zero_add]

theorem InOrder.add {s : Stdout} (ordered : s.InOrder) (text : List UInt8) :
    (s.add text).InOrder := by
  unfold InOrder at ordered ⊢
  simp only [Stdout.add]
  rw [← List.append_assoc, List.map_append, ordered, List.zipIdx_map_snd, range_append]

theorem pass_inOrder_iff (s : Stdout) (n : ℕ) : (s.pass n).InOrder ↔ s.InOrder := by
  have same : (s.pass n).fd ++ (s.pass n).buffer = s.fd ++ s.buffer := by
    simp only [pass, List.append_assoc, List.take_append_drop]
  rw [InOrder, same]
  rfl

theorem InOrder.printf {s : Stdout} (ordered : s.InOrder) (text : List UInt8) (o : Printf) :
    (s.printf text o).InOrder := (pass_inOrder_iff _ _).2 (ordered.add _)

/-- What goes past the buffer is in order if and only if it is nothing or the buffer is empty. -/
theorem direct_inOrder_iff {s : Stdout} (ordered : s.InOrder) (bytes : List UInt8) :
    (s.direct bytes).InOrder ↔ s.buffer = [] ∨ bytes = [] := by
  have numbers : ((s.direct bytes).fd ++ (s.direct bytes).buffer).map Prod.snd =
      s.fd.map Prod.snd ++ (List.range' s.produced bytes.length ++ s.buffer.map Prod.snd) := by
    simp [direct, List.append_assoc]
  have length := congrArg List.length ordered
  simp only [List.length_map, List.length_append, List.length_range] at length
  unfold InOrder at ordered ⊢
  constructor
  · intro kept
    by_contra h
    obtain ⟨waiting, sent⟩ := not_or.1 h
    -- The first byte that goes past the buffer stands where the buffer's first byte belongs.
    have early : s.fd.length < s.produced := by
      have := List.length_pos_iff.2 waiting
      omega
    have some_sent := List.length_pos_iff.2 sent
    have here : (s.fd.map Prod.snd ++
        (List.range' s.produced bytes.length ++ s.buffer.map Prod.snd))[s.fd.length]? =
        (List.range (s.produced + bytes.length))[s.fd.length]? := by
      rw [← numbers, kept]
      rfl
    rw [List.getElem?_append_right (by simp), List.length_map, Nat.sub_self,
      List.getElem?_append_left (by simpa using some_sent), List.getElem?_range' some_sent,
      List.getElem?_range (by omega)] at here
    have := Option.some.inj here
    omega
  · rintro (waiting | rfl)
    · rw [waiting, List.append_nil] at ordered
      rw [numbers, waiting, ordered, List.map_nil, List.append_nil, range_append]
      rfl
    · rw [numbers, List.length_nil, List.range'_zero, List.nil_append, ← List.map_append]
      exact ordered

end Stdout

theorem printArgs_inOrder (outcome : ℕ → Printf) (i : ℕ) (errno : ℤ) (argv : List (Option Text))
    {s : Stdout} (ordered : s.InOrder) : (printArgs outcome i errno argv s).2.InOrder := by
  induction argv generalizing i errno s with
  | nil => exact ordered
  | cons arg rest ih =>
    cases arg with
    | none => exact ordered
    | some arg =>
      rw [printArgs]
      split
      · exact ordered.printf _ _
      · exact ih _ _ (ordered.printf _ _)

theorem shellPrint_inOrder {s : Stdout} (ordered : s.InOrder) (argv : List (Option Text))
    (outcome : ℕ → Printf) (flush : Option ℕ) : (shellPrint s argv outcome flush).InOrder := by
  have looped := printArgs_inOrder outcome 0 0 argv ordered
  unfold shellPrint
  split
  · next t stopped => rwa [stopped] at looped
  · next t finished =>
    rw [finished] at looped
    exact (Stdout.pass_inOrder_iff _ _).2 (looped.printf _ _)

/-- A call keeps the order if and only if it is not a `write` that overtakes the buffer. -/
theorem run_inOrder_iff {s : Stdout} (ordered : s.InOrder) (call : OutCall) :
    (call.run s).InOrder ↔ Unbuffered s call := by
  cases call with
  | print argv outcome flush =>
    exact iff_of_true (shellPrint_inOrder ordered argv outcome flush) trivial
  | write argv answers flush =>
    refine Iff.trans ?_ (Stdout.direct_inOrder_iff ordered (shellWrite answers argv).2.emitted)
    simp only [OutCall.run]
    split
    · exact Stdout.pass_inOrder_iff _ _
    · exact Iff.rfl
  | connect argv found o =>
    refine iff_of_true ?_ trivial
    rcases argv with _ | ⟨host, port⟩
    · exact ordered
    · cases found with
      | true => exact ordered.printf _ _
      | false => exact ordered
  | accept answer o =>
    refine iff_of_true ?_ trivial
    cases answer with
    | none => exact ordered
    | some answer => exact ordered.printf _ _

/-- In every run the bytes are in order after each call if and only if no call of `write` finds
text in the buffer when it passes bytes to the descriptor. -/
theorem output_ordered_iff (calls : List OutCall) :
    Along step (fun _ _ _ s' => s'.InOrder) Stdout.start calls ↔
      Guarded step Unbuffered Stdout.start calls := by
  refine along_iff_guarded Stdout.InOrder ?_ (fun _ _ _ _ _ _ after => after) calls rfl
  intro s call r s' ordered h
  obtain rfl := (Prod.ext_iff.1 (Option.some.inj h)).2
  exact run_inOrder_iff ordered call

/-- `accept` leaves its line in the buffer, and what `write` sends overtakes it. -/
theorem output_ordered_not_accept :
    ¬ Along step (fun _ _ _ s' => s'.InOrder) Stdout.start
      [.accept (some (16, 4)) ⟨true, 0, 0, none⟩,
        .write [some ⟨[97], none⟩] (fun _ => .upTo 1) none] := by
  refine not_along_of_last
    (fun _ _ (x : Unit × Stdout) =>
      decide ((x.2.fd ++ x.2.buffer).map Prod.snd = List.range x.2.produced))
    (fun (_ : Stdout) (_ : OutCall) _ s' (ordered : s'.InOrder) => decide_eq_true ordered)
    [.accept (some (16, 4)) ⟨true, 0, 0, none⟩] (.write [some ⟨[97], none⟩] (fun _ => .upTo 1) none)
    (by decide +kernel) (by decide +kernel)

end Sysjs.Shell
