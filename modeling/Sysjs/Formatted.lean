import Sysjs.Dso.Handles
import Sysjs.Foundation.Format
import Sysjs.Socket.Object

/-!
# Formatted arguments

`connect` and `bind` format the port, and `JS_DSOLoad` the names under which it looks for a library,
into local arrays of a fixed size.  A `Char` of these texts is a byte.
-/

set_option autoImplicit false

namespace Sysjs

open Dso

variable {H : Type}

/-- `PATH_MAX`. -/
def pathMax : ℕ := 4096

/-- The loop over `lib_pattern`: the handle, and the names it has formatted and tried. -/
def tryPatterns (filename : String) (dlopen : String → Option H) :
    List (String × String) → Option H × List String
  | [] => (none, [])
  | pattern :: rest =>
    let buf := pattern.1 ++ filename ++ pattern.2
    match dlopen buf with
    | some handle => (some handle, [buf])
    | none => ((tryPatterns filename dlopen rest).1, buf :: (tryPatterns filename dlopen rest).2)

/-- The calls that format an argument: `connect` with the port it was given, `none` when it does not
have two arguments, `bind`, and `JS_DSOLoad`. -/
inductive Formatting (H : Type) where
  | connect (port : Option ℤ)
  | bind (argv : List Jsval)
  | load (s : State H) (filename : String) (dlopen : String → Option H)

/-- The names that `JS_DSOLoad` tries; it tries none without a free slot. -/
def namesTried (s : State H) (filename : String) (dlopen : String → Option H) : List String :=
  if (findSlot s.dsoHandle tableSize 0).1 = tableSize then []
  else (tryPatterns filename dlopen libPattern).2

/-- The arrays into which a call formats, `portnum[8]`, `buf[8]` or `buf[PATH_MAX]`, after it has
done so; `stack` is what they hold at the start. -/
def Formatting.buffers (stack : ℕ → ℤ → Char) : Formatting H → List (Block Char)
  | .connect (some port) => [(Block.malloc 8 stack).sprintf (decimal port)]
  | .bind [.int port] => [(Block.malloc 8 stack).sprintf (decimal port)]
  | .load s filename dlopen => (namesTried s filename dlopen).map fun name =>
      (Block.malloc pathMax stack).sprintf name.toList
  | _ => []

/-- A port with at most seven digits, or a sign and at most six. -/
def ShortPort (port : ℤ) : Prop := -999999 ≤ port ∧ port ≤ 9999999

/-- The port is short; no name that is tried has `PATH_MAX` bytes. -/
def Formatting.Short : Formatting H → Prop
  | .connect (some port) => ShortPort port
  | .bind [.int port] => ShortPort port
  | .load s filename dlopen => ∀ name ∈ namesTried s filename dlopen, name.length < pathMax
  | _ => True

/-- The loop finds the handle of the first name that can be opened. -/
theorem tryPatterns_handle (filename : String) (dlopen : String → Option H)
    (patterns : List (String × String)) :
    (tryPatterns filename dlopen patterns).1 =
      patterns.findSome? fun pattern => dlopen (pattern.1 ++ filename ++ pattern.2) := by
  induction patterns with
  | nil => rfl
  | cons pattern rest ih =>
    rw [List.findSome?_cons, tryPatterns]
    cases dlopen (pattern.1 ++ filename ++ pattern.2) with
    | some handle => rfl
    | none => exact ih

theorem openLibrary_eq (filename : String) (dlopen : String → Option H) :
    openLibrary filename dlopen = (tryPatterns filename dlopen libPattern).1 :=
  (tryPatterns_handle filename dlopen libPattern).symm

theorem port_fits_iff (stack : ℕ → ℤ → Char) (port : ℤ) :
    ((Block.malloc 8 stack).sprintf (decimal port)).safe = true ↔ ShortPort port := by
  have text := length_decimal_le_iff port (show 0 < 6 by decide)
  rw [Block.sprintf_safe, ShortPort]
  simp only [Block.malloc, true_and]
  omega

theorem name_fits_iff (stack : ℕ → ℤ → Char) (name : String) :
    ((Block.malloc pathMax stack).sprintf name.toList).safe = true ↔ name.length < pathMax := by
  rw [Block.sprintf_safe, String.length_toList]
  exact and_iff_right rfl

/-- Every text fits its array if and only if the port is short and no name is too long. -/
theorem formatted_fits_iff (stack : ℕ → ℤ → Char) (call : Formatting H) :
    (∀ buf ∈ call.buffers stack, buf.safe = true) ↔ call.Short := by
  unfold Formatting.buffers Formatting.Short
  split
  · simp [port_fits_iff]
  · simp [port_fits_iff]
  · simp [name_fits_iff]
  · simp

/-- The port of the largest `int32`. -/
theorem formatted_fits_not_large_port :
    ¬ ∀ buf ∈ (Formatting.connect (H := ℕ) (some 2147483647)).buffers (fun _ _ => 'x'),
      buf.safe = true := by
  decide

end Sysjs
