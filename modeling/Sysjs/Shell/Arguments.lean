import Mathlib.Tactic.Common
import Mathlib.Algebra.Order.Ring.Int

/-!
# The command line

`ProcessArgs` goes over the words of the command line twice.  The first pass looks for the place
where the script's own arguments begin; the second one carries out the options.  What an option does
to the engine is a parameter.
-/

set_option autoImplicit false

namespace Sysjs.Shell

/-- A word of the command line, without its NUL. -/
abbrev Word := List Char

/-- `JS_GC_ZEAL`, `MOZ_TRACEVIS` and `MOZ_SHARK`: with what the shell was built. -/
structure Build where
  gcZeal : Bool
  traceVis : Bool
  shark : Bool
  deriving DecidableEq

/-- `JSOPTION_ANONFUNFIX` and so on. -/
inductive ContextOption where
  | anonfunfix
  | atline
  | jit
  | relimit
  | strict
  | werror
  | xml
  deriving DecidableEq

/-- `js_options`. -/
def jsOptions : List (Word × ContextOption) :=
  [(['a', 'n', 'o', 'n', 'f', 'u', 'n', 'f', 'i', 'x'], .anonfunfix),
    (['a', 't', 'l', 'i', 'n', 'e'], .atline),
    (['j', 'i', 't'], .jit),
    (['r', 'e', 'l', 'i', 'm', 'i', 't'], .relimit),
    (['s', 't', 'r', 'i', 'c', 't'], .strict),
    (['w', 'e', 'r', 'r', 'o', 'r'], .werror),
    (['x', 'm', 'l'], .xml)]

/-- `MapContextOptionNameToFlag`; with `none` it has reported "unknown option name". -/
def mapContextOptionNameToFlag (name : Word) : Option ContextOption :=
  (jsOptions.find? fun o => o.1 = name).map Prod.snd

/-- The letter of an option: `none` for a word that is no option, which begins otherwise than with
`-` or is `-` itself. -/
def optionLetter : Word → Option Char
  | '-' :: c :: _ => some c
  | _ => none

/-- The options whose operand the first pass skips. -/
def skipsOperand (b : Build) (c : Char) : Bool :=
  match c with
  | 'c' | 'f' | 'e' | 'v' | 'S' | 't' => true
  | 'Z' => b.gcZeal
  | 'T' => b.traceVis
  | _ => false

/-- The first pass: the words from its last `i` on, which become the elements of `arguments`. -/
def firstPass (b : Build) : List Word → List Word
  | [] => []
  | word :: rest => match optionLetter word with
    | none => rest
    | some c =>
      if skipsOperand b c then match rest with
        | [] => []
        | _ :: rest => firstPass b rest
      else firstPass b rest

/-- What the case of an option does. -/
inductive Act where
  | setVersion (operand : Word)
  | setGCZeal (operand : Word)
  | reportWarnings (on : Bool)
  | toggle (flag : ContextOption)
  | toggleNamed (operand : Word)
  | sealGlobal
  | setTimeout (operand : Word)
  | stackChunkSize (operand : Word)
  | file (operand : Word)
  | evaluate (operand : Word)
  | compileOnly
  | interactive
  | maxStackSize (operand : Word)
  | split
  | connectShark
  | startTraceVis (operand : Word)
  deriving DecidableEq

/-- How the case of an option begins: without an operand, with `if (++i == argc) return usage();`,
or, for `-c`, with `argv[++i]`. -/
inductive Case where
  | plain (act : Act)
  | operand (act : Word → Act)
  | unchecked (act : Word → Act)
  | unknown

/-- The `switch` of the second pass. -/
def optionCase (b : Build) (c : Char) : Case :=
  match c with
  | 'v' => .operand .setVersion
  | 'Z' => if b.gcZeal then .operand .setGCZeal else .unknown
  | 'w' => .plain (.reportWarnings true)
  | 'W' => .plain (.reportWarnings false)
  | 's' => .plain (.toggle .strict)
  | 'E' => .plain (.toggle .relimit)
  | 'x' => .plain (.toggle .xml)
  | 'j' => .plain (.toggle .jit)
  | 'o' => .operand .toggleNamed
  | 'P' => .plain .sealGlobal
  | 't' => .operand .setTimeout
  | 'c' => .unchecked .stackChunkSize
  | 'f' => .operand .file
  | 'e' => .operand .evaluate
  | 'C' => .plain .compileOnly
  | 'i' => .plain .interactive
  | 'S' => .operand .maxStackSize
  | 'z' => .plain .split
  | 'k' => if b.shark then .plain .connectShark else .unknown
  | 'T' => if b.traceVis then .operand .startTraceVis else .unknown
  | _ => .unknown

/-- The engine with the scripts it runs: how an act changes it and whether the calls an act makes
succeed, its `gExitCode`, and the definition of the property `arguments`. -/
structure Engine (σ : Type*) where
  act : σ → Act → σ
  succeeds : σ → Act → Bool
  exitCode : σ → ℤ
  defineArguments : σ → List Word → σ

variable {σ : Type*}

/-- The body of an option's case: the engine afterwards, or the value `ProcessArgs` returns. -/
def Engine.perform (e : Engine σ) (s : σ) : Act → Except ℤ σ
  | .toggleNamed name => match mapContextOptionNameToFlag name with
    | none => .error (e.exitCode s)
    | some flag => .ok (e.act s (.toggle flag))
  | .sealGlobal => if e.succeeds s .sealGlobal then .ok (e.act s .sealGlobal) else .error 0
  | .setTimeout operand =>
    if e.succeeds s (.setTimeout operand) then .ok (e.act s (.setTimeout operand)) else .error 0
  | .split =>
    if e.succeeds s .split then .ok (e.act s .split) else .error (e.exitCode (e.act s .split))
  | .file operand =>
    let s' := e.act s (.file operand)
    if e.exitCode s' ≠ 0 then .error (e.exitCode s') else .ok s'
  | a => .ok (e.act s a)

/-- The local variables `isInteractive` and `forceTTY`. -/
structure Mode where
  isInteractive : Bool
  forceTTY : Bool
  deriving DecidableEq

/-- What an act does to them. -/
def Mode.after (m : Mode) : Act → Mode
  | .file _ | .evaluate _ | .compileOnly => { m with isInteractive := false }
  | .interactive => { isInteractive := true, forceTTY := true }
  | _ => m

/-- Where the second pass ends: `usage` was printed, an option's case returned, `-c` read the null
pointer behind the words, a script was found with these words behind it, or the words are used
up. -/
inductive Pass (σ : Type*) where
  | usage
  | returns (code : ℤ)
  | noOperand
  | script (filename : Word) (rest : List Word) (forceTTY : Bool) (s : σ)
  | words (mode : Mode) (s : σ)

/-- The second pass. -/
def secondPass (b : Build) (e : Engine σ) : List Word → Mode → σ → Pass σ
  | [], m, s => .words m s
  | word :: rest, m, s => match optionLetter word with
    | none => .script word rest m.forceTTY s
    | some c => match optionCase b c with
      | .plain act => match e.perform s act with
        | .error code => .returns code
        | .ok s => secondPass b e rest (m.after act) s
      | .operand act => match rest with
        | [] => .usage
        | operand :: rest => match e.perform s (act operand) with
          | .error code => .returns code
          | .ok s => secondPass b e rest (m.after (act operand)) s
      | .unchecked act => match rest with
        | [] => .noOperand
        | operand :: rest => match e.perform s (act operand) with
          | .error code => .returns code
          | .ok s => secondPass b e rest (m.after (act operand)) s
      | .unknown => .usage

/-- `ProcessArgs` up to the end of its second pass: the elements of `arguments` and where that pass
ends. -/
def processArgs (b : Build) (e : Engine σ) (argv : List Word) (s : σ) : List Word × Pass σ :=
  (firstPass b argv,
    secondPass b e argv { isInteractive := true, forceTTY := false }
      (e.defineArguments s (firstPass b argv)))

/-- A case that takes the word behind its option. -/
def Case.takesOperand : Case → Bool
  | .operand _ | .unchecked _ => true
  | .plain _ | .unknown => false

/-- The letters of the options in front of the script's name. -/
def optionsBefore (b : Build) : List Word → List Char
  | [] => []
  | word :: rest => match optionLetter word with
    | none => []
    | some c =>
      if (optionCase b c).takesOperand then match rest with
        | [] => [c]
        | _ :: rest => c :: optionsBefore b rest
      else c :: optionsBefore b rest

/-- The words from which the second pass reaches a script's name, with `tail` behind it. -/
inductive Reaches (b : Build) : List Word → List Word → Prop
  | script {word : Word} {tail : List Word} (plain : optionLetter word = none) :
      Reaches b (word :: tail) tail
  | plain {word : Word} {rest tail : List Word} {c : Char} (letter : optionLetter word = some c)
      (alone : (optionCase b c).takesOperand = false) (later : Reaches b rest tail) :
      Reaches b (word :: rest) tail
  | operand {word operand : Word} {rest tail : List Word} {c : Char}
      (letter : optionLetter word = some c) (takes : (optionCase b c).takesOperand = true)
      (named : c = 'o' → optionLetter operand = none) (later : Reaches b rest tail) :
      Reaches b (word :: operand :: rest) tail

theorem firstPass_of_none (b : Build) {word : Word} (rest : List Word)
    (plain : optionLetter word = none) : firstPass b (word :: rest) = rest := by
  rw [firstPass.eq_def]
  simp [plain]

theorem firstPass_of_alone {b : Build} {word : Word} (rest : List Word) {c : Char}
    (letter : optionLetter word = some c) (alone : skipsOperand b c = false) :
    firstPass b (word :: rest) = firstPass b rest := by
  rw [firstPass.eq_def]
  simp [letter, alone]

theorem firstPass_of_operand {b : Build} {word : Word} (operand : Word) (rest : List Word)
    {c : Char} (letter : optionLetter word = some c) (skips : skipsOperand b c = true) :
    firstPass b (word :: operand :: rest) = firstPass b rest := by
  rw [firstPass.eq_def]
  simp [letter, skips]

/-- The passes know the same options with an operand, except for `-o`. -/
theorem takesOperand_eq (b : Build) (c : Char) :
    (optionCase b c).takesOperand = (skipsOperand b c || decide (c = 'o')) := by
  fun_cases optionCase b c <;> simp_all [skipsOperand, Case.takesOperand]

/-- The names of the context options are no options. -/
theorem optionLetter_of_named {name : Word} {flag : ContextOption}
    (found : mapContextOptionNameToFlag name = some flag) : optionLetter name = none := by
  have names : ∀ o ∈ jsOptions, optionLetter o.1 = none := by decide
  obtain ⟨o, here, -⟩ := Option.map_eq_some_iff.1 found
  have same := List.find?_some here
  simp only [decide_eq_true_eq] at same
  rw [← same]
  exact names o (List.mem_of_find?_eq_some here)

/-- The case of `-o` succeeds for the name of a context option only. -/
theorem perform_named {e : Engine σ} {s s' : σ} {c : Char} {b : Build} {act : Word → Act}
    {operand : Word} (case : optionCase b c = .operand act)
    (succeeds : e.perform s (act operand) = .ok s') (o : c = 'o') :
    optionLetter operand = none := by
  subst o
  cases case
  simp only [Engine.perform] at succeeds
  split at succeeds
  · cases succeeds
  · next found => exact optionLetter_of_named found

theorem reaches_of_secondPass {b : Build} {e : Engine σ} {argv rest : List Word} {m : Mode}
    {s s' : σ} {filename : Word} {forceTTY : Bool}
    (found : secondPass b e argv m s = .script filename rest forceTTY s') :
    Reaches b argv rest := by
  fun_induction secondPass b e argv m s with
  | case1 => cases found
  | case2 m s word rest plain =>
    cases found
    exact .script plain
  | case3 => cases found
  | case4 m s word rest c letter act case s'' performed ih =>
    exact .plain letter (by rw [case]; rfl) (ih found)
  | case5 => cases found
  | case6 => cases found
  | case7 m s word c letter act case operand rest s'' performed ih =>
    exact .operand letter (by rw [case]; rfl) (perform_named case performed) (ih found)
  | case8 => cases found
  | case9 => cases found
  | case10 m s word c letter act case operand rest s'' performed ih =>
    refine .operand letter (by rw [case]; rfl) ?_ (ih found)
    rintro rfl
    cases case
  | case11 => cases found

theorem Reaches.length_lt {b : Build} {argv rest : List Word} (h : Reaches b argv rest) :
    rest.length < argv.length := by
  induction h with
  | script _ => exact Nat.lt_succ_self _
  | plain _ _ _ ih => exact Nat.lt_succ_of_lt ih
  | operand _ _ _ _ ih => exact Nat.lt_succ_of_lt (Nat.lt_succ_of_lt ih)

/-- The first pass finds the same place if and only if no `-o` is in front of it. -/
theorem Reaches.firstPass_iff {b : Build} {argv rest : List Word} (h : Reaches b argv rest) :
    firstPass b argv = rest ↔ 'o' ∉ optionsBefore b argv := by
  induction h with
  | script plain => simp [firstPass_of_none b _ plain, optionsBefore, plain]
  | @plain word rest tail c letter alone later ih =>
    have both := takesOperand_eq b c
    rw [alone, eq_comm, Bool.or_eq_false_iff, decide_eq_false_iff_not] at both
    rw [firstPass_of_alone rest letter both.1, ih]
    simp [optionsBefore, letter, alone, Ne.symm both.2]
  | @operand word operand rest tail c letter takes named later ih =>
    by_cases o : c = 'o'
    · subst o
      -- The first pass takes the name of the context option for the script's.
      have stops : firstPass b (word :: operand :: rest) = rest := by
        rw [firstPass_of_alone _ letter rfl, firstPass_of_none b rest (named rfl)]
      have apart : rest ≠ tail := by
        rintro rfl
        exact lt_irrefl _ later.length_lt
      simp [stops, apart, optionsBefore, letter, takes]
    · have both := takesOperand_eq b c
      rw [takes, decide_eq_false o, Bool.or_false] at both
      rw [firstPass_of_operand operand rest letter both.symm, ih]
      simp [optionsBefore, letter, takes, Ne.symm o]

/-- When the second pass reaches a script, `arguments` has the words behind its name if and only if
there is no `-o` among the options in front of it. -/
theorem processArgs_agree (b : Build) (e : Engine σ) (argv : List Word) (s s' : σ)
    (filename : Word) (rest : List Word) (forceTTY : Bool)
    (found : (processArgs b e argv s).2 = .script filename rest forceTTY s') :
    (processArgs b e argv s).1 = rest ↔ 'o' ∉ optionsBefore b argv :=
  (reaches_of_secondPass found).firstPass_iff

/-- An engine on which every act succeeds. -/
def idleEngine : Engine Unit where
  act s _ := s
  succeeds _ _ := true
  exitCode _ := 0
  defineArguments s _ := s

/-- `-f lib -w script arg`. -/
theorem processArgs_agree_file :
    (processArgs ⟨false, false, false⟩ idleEngine
      [['-', 'f'], ['l', 'i', 'b'], ['-', 'w'], ['s'], ['a']] ()).1 = [['a']] :=
  (processArgs_agree _ _ _ () () ['s'] [['a']] false rfl).2 (by decide)

/-- `-o xml script arg`: `arguments` begins with the name of the script. -/
theorem processArgs_disagree :
    ¬ ((processArgs ⟨false, false, false⟩ idleEngine
        [['-', 'o'], ['x', 'm', 'l'], ['s'], ['a']] ()).2 = .script ['s'] [['a']] false () →
      (processArgs ⟨false, false, false⟩ idleEngine
        [['-', 'o'], ['x', 'm', 'l'], ['s'], ['a']] ()).1 = [['a']]) :=
  fun agree => absurd (agree rfl) (by decide)

end Sysjs.Shell
