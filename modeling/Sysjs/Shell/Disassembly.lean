import Sysjs.Shell.Output

/-!
# `dis`

`Disassemble` takes the options in front of its arguments and shows the functions behind them, each
with the functions inside it if it is asked to.
-/

set_option autoImplicit false

namespace Sysjs.Disassembly

open Shell

mutual

/-- An object of the classes that `ValueToScript` tells apart.  A script object has its script, if
it was given one; a function has one unless it is native; a generator has that of its function.
`made` is the script of the function that `JS_ValueToFunction` makes of an object that is none. -/
inductive Object where
  | script (priv made : Option Script)
  | generator (script made : Option Script)
  | function (script : Option Script)
  | other (made : Option Script)

/-- A `JSScript`: whether `js_Disassemble` shows it, and its objects. -/
inductive Script where
  | mk (id : ℕ) (shown : Bool) (objects : List Object)

end

/-- An argument: a string, as `JS_GetStringBytes` gives it, an object, or another primitive value;
no primitive value has a script. -/
inductive Value where
  | string (bytes : List UInt8)
  | object (o : Object)
  | other

/-- A script in the output: whose it is, and whether its lines are shown. -/
structure Listing where
  id : ℕ
  lines : Bool
  deriving DecidableEq

/-- `HAS_FUNCTION_CLASS`. -/
def Object.isFunction : Object → Bool
  | .function _ => true
  | _ => false

/-- `ValueToScript`. -/
def valueToScript : Value → Option Script
  | .object (.script priv made) => priv.or made
  | .object (.generator script made) => script.or made
  | .object (.function script) => script
  | .object (.other made) => made
  | .string _ | .other => none

/-- `while (argc > 0 && JSVAL_IS_STRING(argv[0]))`: `lines`, `recursive` and the arguments left. -/
def options (lines recursive : Bool) : List Value → Bool × Bool × List Value
  | [] => (lines, recursive, [])
  | .object o :: argv => (lines, recursive, .object o :: argv)
  | .other :: argv => (lines, recursive, .other :: argv)
  | .string bytes :: argv =>
    let lines := bytes == ascii ['-', 'l']
    let recursive := bytes == ascii ['-', 'r']
    if !lines && !recursive then (lines, recursive, .string bytes :: argv)
    else options lines recursive argv

variable (lines : Bool)

mutual

/-- `DisassembleValue`, once it has the script. -/
def Script.disassemble (recursive : Bool) : Script → Bool × List Listing
  | .mk id shown objects =>
    if shown then
      if recursive then
        let rest := disassembleObjects objects
        (rest.1, ⟨id, lines⟩ :: rest.2)
      else (true, [⟨id, lines⟩])
    else (false, [])

/-- Its loop over the objects of a script, of which only functions count. -/
def disassembleObjects : List Object → Bool × List Listing
  | [] => (true, [])
  | .function none :: _ => (false, [])
  | .function (some script) :: objects =>
    let first := script.disassemble true
    if first.1 then
      let rest := disassembleObjects objects
      (rest.1, first.2 ++ rest.2)
    else (false, first.2)
  | .script .. :: objects | .generator .. :: objects | .other _ :: objects =>
    disassembleObjects objects

end

/-- `DisassembleValue`. -/
def disassembleValue (recursive : Bool) (v : Value) : Bool × List Listing :=
  match valueToScript v with
  | some script => script.disassemble lines recursive
  | none => (false, [])

/-- The loop over the objects calls `DisassembleValue`. -/
theorem disassembleObjects_cons (o : Object) (objects : List Object) :
    disassembleObjects lines (o :: objects) =
      if o.isFunction then
        if (disassembleValue lines true (.object o)).1 then
          ((disassembleObjects lines objects).1,
            (disassembleValue lines true (.object o)).2 ++ (disassembleObjects lines objects).2)
        else (false, (disassembleValue lines true (.object o)).2)
      else disassembleObjects lines objects := by
  cases o with
  | function script =>
    cases script with
    | none => rfl
    | some script =>
      rw [disassembleObjects, Object.isFunction, if_pos rfl]
      rfl
  | script priv made | generator script made | other made => rfl

/-- The loop of `Disassemble`. -/
def disassembleValues (recursive : Bool) : List Value → Bool × List Listing
  | [] => (true, [])
  | v :: values =>
    let first := disassembleValue lines recursive v
    if first.1 then
      let rest := disassembleValues recursive values
      (rest.1, first.2 ++ rest.2)
    else (false, first.2)

/-- `Disassemble`. -/
def disassemble (argv : List Value) : Bool × List Listing :=
  let (lines, recursive, values) := options false false argv
  disassembleValues lines recursive values

/-! ### What is shown -/

/-- A script that is to be shown, and whether it can be. -/
structure Node where
  id : ℕ
  good : Bool

mutual

/-- A script and, if it is asked for, those of the functions inside it, in order. -/
def Script.order (recursive : Bool) : Script → List Node
  | .mk id shown objects => ⟨id, shown⟩ :: if recursive then orders objects else []

def orders : List Object → List Node
  | [] => []
  | .function none :: objects => ⟨0, false⟩ :: orders objects
  | .function (some script) :: objects => script.order true ++ orders objects
  | .script .. :: objects | .generator .. :: objects | .other _ :: objects => orders objects

end

/-- The scripts of a value; without one, there is nothing to show. -/
def Value.order (recursive : Bool) (v : Value) : List Node :=
  match valueToScript v with
  | some script => script.order recursive
  | none => [⟨0, false⟩]

/-- They are shown one after the other, up to one that cannot be. -/
def upToBad (nodes : List Node) : Bool × List Listing :=
  (nodes.all Node.good, (nodes.takeWhile Node.good).map fun n => ⟨n.id, lines⟩)

/-- The two options. -/
inductive Opt where
  | l
  | r
  deriving DecidableEq

def Opt.value : Opt → Value
  | .l => .string (ascii ['-', 'l'])
  | .r => .string (ascii ['-', 'r'])

/-- The option in force: the last one, if no string stands behind it. -/
def inForce (opts : List Opt) : List Value → Option Opt
  | .string _ :: _ => none
  | _ => opts.getLast?

theorem upToBad_good {n : Node} (good : n.good = true) (nodes : List Node) :
    upToBad lines (n :: nodes) =
      ((upToBad lines nodes).1, ⟨n.id, lines⟩ :: (upToBad lines nodes).2) := by
  simp [upToBad, good]

theorem upToBad_bad {n : Node} (bad : n.good = false) (nodes : List Node) :
    upToBad lines (n :: nodes) = (false, []) := by
  simp [upToBad, bad]

theorem upToBad_append (front back : List Node) :
    upToBad lines (front ++ back) =
      if (upToBad lines front).1 then
        ((upToBad lines back).1, (upToBad lines front).2 ++ (upToBad lines back).2)
      else (false, (upToBad lines front).2) := by
  induction front with
  | nil => rfl
  | cons n front ih =>
    rw [List.cons_append]
    cases good : n.good with
    | false =>
      rw [upToBad_bad lines good, upToBad_bad lines good]
      rfl
    | true =>
      rw [upToBad_good lines good, upToBad_good lines good, ih]
      dsimp only
      split <;> rfl

mutual

theorem Script.disassemble_eq (recursive : Bool) (script : Script) :
    script.disassemble lines recursive = upToBad lines (script.order recursive) := by
  cases script with
  | mk id shown objects =>
    rw [Script.disassemble, Script.order]
    cases shown with
    | false => rw [upToBad_bad lines rfl, if_neg Bool.false_ne_true]
    | true =>
      rw [upToBad_good lines rfl, if_pos rfl]
      cases recursive with
      | false => rfl
      | true =>
        rw [disassembleObjects_eq objects]
        rfl

theorem disassembleObjects_eq (objects : List Object) :
    disassembleObjects lines objects = upToBad lines (orders objects) := by
  cases objects with
  | nil => rfl
  | cons o objects =>
    cases o with
    | function script =>
      cases script with
      | none => rw [disassembleObjects, orders, upToBad_bad lines rfl]
      | some script =>
        rw [disassembleObjects, orders, upToBad_append, script.disassemble_eq true,
          disassembleObjects_eq objects]
    | script priv made => exact disassembleObjects_eq objects
    | generator script made => exact disassembleObjects_eq objects
    | other made => exact disassembleObjects_eq objects

end

theorem disassembleValue_eq (recursive : Bool) (v : Value) :
    disassembleValue lines recursive v = upToBad lines (v.order recursive) := by
  rw [disassembleValue, Value.order]
  cases valueToScript v with
  | none => rfl
  | some script => exact script.disassemble_eq lines recursive

theorem disassembleValues_eq (recursive : Bool) (values : List Value) :
    disassembleValues lines recursive values =
      upToBad lines (values.flatMap (Value.order recursive)) := by
  induction values with
  | nil => rfl
  | cons v values ih =>
    rw [List.flatMap_cons, disassembleValues, ih, disassembleValue_eq, upToBad_append]

/-- The two variables behind these options. -/
theorem options_opts (lines recursive : Bool) (opts : List Opt) (values : List Value) :
    options lines recursive (opts.map Opt.value ++ values) =
      options (opts.getLast?.elim lines (· = .l)) (opts.getLast?.elim recursive (· = .r))
        values := by
  induction opts generalizing lines recursive with
  | nil => rfl
  | cons opt opts ih =>
    rw [List.getLast?_cons]
    cases opt with
    | l =>
      refine (ih true false).trans ?_
      cases opts.getLast? <;> rfl
    | r =>
      refine (ih false true).trans ?_
      cases opts.getLast? <;> rfl

/-- A script with two functions inside, of which the first has one as well. -/
def nested : Script :=
  .mk 0 true
    [.other none, .function (some (.mk 1 true [.function (some (.mk 2 true []))])),
      .function (some (.mk 3 true []))]

end Sysjs.Disassembly
