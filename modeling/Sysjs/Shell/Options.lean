import Sysjs.Foundation.Runs
import Sysjs.Shell.Output
import Sysjs.Socket.Framing

/-!
# `options`

`Options` toggles the options a script names, and returns the names of those that were on.
-/

set_option autoImplicit false

namespace Sysjs.Options

open Runs Shell

/-- The options in the order of `js_options`. -/
def optionName (i : Fin 7) : List UInt8 :=
  match i with
  | 0 => ascii "anonfunfix".toList
  | 1 => ascii "atline".toList
  | 2 => ascii "jit".toList
  | 3 => ascii "relimit".toList
  | 4 => ascii "strict".toList
  | 5 => ascii "werror".toList
  | 6 => ascii "xml".toList

/-- The flags of the options in the engine's word: each is one bit, and no two are the same. -/
structure Flags where
  bit : Fin 7 → Fin 32
  distinct : Function.Injective bit

/-- The bits of `JSOPTION_ANONFUNFIX`, `JSOPTION_ATLINE`, `JSOPTION_JIT`, `JSOPTION_RELIMIT`,
`JSOPTION_STRICT`, `JSOPTION_WERROR` and `JSOPTION_XML`. -/
def engineBit (i : Fin 7) : Fin 32 :=
  match i with
  | 0 => 10
  | 1 => 5
  | 2 => 11
  | 3 => 9
  | 4 => 0
  | 5 => 1
  | 6 => 6

theorem engineBit_injective : Function.Injective engineBit := by
  unfold Function.Injective
  decide

/-- The engine's own numbering. -/
def Flags.engine : Flags := ⟨engineBit, engineBit_injective⟩

/-- How a call ends: with the names of the options that were on, with the message about a name it
does not know, which it hands to `JS_ReportError` as a format, without memory, or with an exception
that is pending already. -/
inductive Answer where
  | names (text : List UInt8)
  | unknown (format : List UInt8)
  | outOfMemory
  | failed
  deriving DecidableEq

/-- A call: its arguments, `none` for one that cannot be converted; for which options the list of
names gets its memory, and whether the list of none does; and whether the message and the string
get theirs. -/
structure Call where
  argv : List (Option (List UInt16))
  granted : ℕ → Bool
  spoken : Bool
  made : Bool

namespace Flags

variable (f : Flags)

def flag (i : Fin 7) : BitVec 32 := BitVec.twoPow 32 (f.bit i)

/-- `MapContextOptionNameToFlag` on a name in its table. -/
def mapContextOptionNameToFlag (name : List UInt8) : Option (BitVec 32) :=
  (List.finRange 7).findSome? fun i => if name = optionName i then some (f.flag i) else none

end Flags

/-- Its message about any other name. -/
def unknownOption (name : List UInt8) : List UInt8 :=
  ascii "unknown option name '".toList ++ name ++ ascii "'. The valid names are ".toList ++
    (List.finRange 7).flatMap fun i => optionName i ++
      ascii (if i.val + 2 < 7 then [',', ' '] else if i.val + 2 = 7 then " and ".toList else ['.'])

namespace Flags

variable (f : Flags)

/-- The loop over the arguments. -/
def gather (spoken : Bool) (optset : BitVec 32) :
    List (Option (List UInt16)) → Except Answer (BitVec 32)
  | [] => .ok optset
  | none :: _ => .error .failed
  | some opt :: argv => match f.mapContextOptionNameToFlag (getStringBytes opt) with
    | some flag => gather spoken (optset ||| flag) argv
    | none =>
      .error (if spoken then .unknown (unknownOption (getStringBytes opt)) else .outOfMemory)

/-- `JS_sprintf_append(names, "%s%s", names ? "," : "", name)`. -/
def appendName (names : Option (List UInt8)) (name : List UInt8) : List UInt8 :=
  match names with
  | some text => text ++ ascii [','] ++ name
  | none => name

/-- The loop that puts the names together: whether it found one, and the list, `none` for the null
pointer. -/
def listNames (granted : ℕ → Bool) (optset : BitVec 32) (names : Option (List UInt8)) :
    List (Fin 7) → Bool × Option (List UInt8)
  | [] => (names.isSome, names)
  | i :: rest =>
    if f.flag i &&& optset ≠ 0 then
      if granted i then listNames granted optset (some (appendName names (optionName i))) rest
      else (true, none)
    else listNames granted optset names rest

/-- `Options`, on the context's word of options. -/
def options (word : BitVec 32) (call : Call) : Answer × BitVec 32 :=
  match f.gather call.spoken 0 call.argv with
  | .error answer => (answer, word)
  | .ok optset =>
    let toggled := word ^^^ optset
    let (found, names) := f.listNames call.granted word none (List.finRange 7)
    let names := if found then names else if call.granted 7 then some [] else none
    match names with
    | none => (.outOfMemory, toggled)
    | some text => (if call.made then .names text else .failed, toggled)

/-! ### Options that are on -/

def on (word : BitVec 32) (i : Fin 7) : Bool := word.getLsbD (f.bit i)

/-- Their names. -/
def onNames (word : BitVec 32) : List (List UInt8) :=
  ((List.finRange 7).filter fun i => f.on word i).map optionName

def listed (word : BitVec 32) : List UInt8 := List.intercalate (ascii [',']) (f.onNames word)

end Flags

/-- The option an argument names. -/
def argOption (arg : Option (List UInt16)) : Option (Fin 7) :=
  arg.bind fun opt => (List.finRange 7).find? fun i => getStringBytes opt == optionName i

/-- All arguments name options. -/
def Call.good (call : Call) : Bool := call.argv.all fun arg => (argOption arg).isSome

/-- The call toggles the option. -/
def Call.toggles (call : Call) (i : Fin 7) : Bool :=
  call.good && call.argv.any fun arg => argOption arg == some i

/-- A call with these arguments, and with all its memory. -/
def given (args : List (List UInt16)) : Call := ⟨args.map some, fun _ => true, true, true⟩

theorem comma_not_mem_optionName : ∀ i, 44 ∉ optionName i := by decide

theorem clean_optionName (i : Fin 7) : ∀ c ∈ optionName i, isNul c = false := by
  have clean : ∀ i, (optionName i).all (fun c => !isNul c) = true := by decide
  simpa using clean i

namespace Flags

variable (f : Flags)

theorem mapContextOptionNameToFlag_eq (opt : List UInt16) :
    f.mapContextOptionNameToFlag (getStringBytes opt) = (argOption (some opt)).map f.flag := by
  unfold mapContextOptionNameToFlag argOption
  rw [Option.bind_some]
  induction List.finRange 7 with
  | nil => rfl
  | cons i rest ih =>
    rw [List.findSome?_cons, List.find?_cons]
    by_cases here : getStringBytes opt = optionName i
    · simp [here]
    · have miss : (getStringBytes opt == optionName i) = false := beq_eq_false_iff_ne.2 here
      simp only [if_neg here, miss, ih]

@[simp] theorem on_zero (i : Fin 7) : f.on 0 i = false := BitVec.getLsbD_zero

@[simp] theorem on_xor (w v : BitVec 32) (i : Fin 7) : f.on (w ^^^ v) i = (f.on w i ^^ f.on v i) :=
  BitVec.getLsbD_xor

@[simp] theorem on_or (w v : BitVec 32) (i : Fin 7) : f.on (w ||| v) i = (f.on w i || f.on v i) :=
  BitVec.getLsbD_or

@[simp] theorem on_flag (i j : Fin 7) : f.on (f.flag i) j = decide (i = j) := by
  rw [on, flag, BitVec.getLsbD_twoPow, Bool.eq_iff_iff]
  simp only [Bool.and_eq_true, decide_eq_true_eq]
  constructor
  · rintro ⟨-, same⟩
    exact f.distinct (Fin.ext same)
  · rintro rfl
    exact ⟨(f.bit i).isLt, rfl⟩

theorem flag_and_ne_zero_iff (word : BitVec 32) (i : Fin 7) :
    f.flag i &&& word ≠ 0 ↔ f.on word i = true := by
  rw [flag, BitVec.twoPow_and, on]
  cases word.getLsbD (f.bit i) with
  | false => simp
  | true =>
    have some_bit : BitVec.twoPow 32 (f.bit i) ≠ 0 := by
      intro none
      have bit := congrArg (fun w => BitVec.getLsbD w (f.bit i)) none
      simp [(f.bit i).isLt] at bit
    simpa using some_bit

/-- What the arguments set, when all of them are options. -/
theorem gather_good (spoken : Bool) (optset : BitVec 32) {argv : List (Option (List UInt16))}
    (good : ∀ arg ∈ argv, (argOption arg).isSome) :
    ∃ set, f.gather spoken optset argv = .ok set ∧
      (∀ i, f.on set i = (f.on optset i || argv.any fun arg => argOption arg == some i)) ∧
      ∀ b : ℕ, (∀ i, (f.bit i).val ≠ b) → set.getLsbD b = optset.getLsbD b := by
  induction argv generalizing optset with
  | nil => exact ⟨optset, rfl, fun i => by simp, fun _ _ => rfl⟩
  | cons arg argv ih =>
    obtain ⟨here, later⟩ := List.forall_mem_cons.1 good
    obtain ⟨j, named⟩ := Option.isSome_iff_exists.1 here
    cases arg with
    | none => cases named
    | some opt =>
      obtain ⟨set, rest, on, others⟩ := ih (optset ||| f.flag j) later
      refine ⟨set, ?_, fun i => ?_, fun b other => ?_⟩
      · rw [gather, mapContextOptionNameToFlag_eq, named]
        exact rest
      · rw [on, on_or, on_flag, List.any_cons, named, Bool.or_assoc]
        rfl
      · rw [others b other, BitVec.getLsbD_or, flag, BitVec.getLsbD_twoPow]
        simp [other j]

/-- One argument that is no option, and nothing is toggled. -/
theorem gather_bad (spoken : Bool) (optset : BitVec 32) {argv : List (Option (List UInt16))}
    (bad : ¬ ∀ arg ∈ argv, (argOption arg).isSome) :
    ∃ answer, f.gather spoken optset argv = .error answer ∧ ∀ text, answer ≠ .names text := by
  induction argv generalizing optset with
  | nil => exact absurd (List.forall_mem_nil _) bad
  | cons arg argv ih =>
    cases arg with
    | none => exact ⟨.failed, rfl, fun _ same => by cases same⟩
    | some opt =>
      cases named : argOption (some opt) with
      | none =>
        refine ⟨_, by rw [gather, mapContextOptionNameToFlag_eq, named]; rfl, fun text same => ?_⟩
        split at same <;> cases same
      | some j =>
        have later : ¬ ∀ arg ∈ argv, (argOption arg).isSome := fun all =>
          bad (List.forall_mem_cons.2 ⟨by rw [named]; rfl, all⟩)
        obtain ⟨answer, rest, kind⟩ := ih (optset ||| f.flag j) later
        exact ⟨answer, by rw [gather, mapContextOptionNameToFlag_eq, named]; exact rest, kind⟩

theorem intercalate_merge {α : Type} (sep front name : List α) (rest : List (List α)) :
    sep.intercalate ((front ++ sep ++ name) :: rest) = sep.intercalate (front :: name :: rest) := by
  cases rest <;> simp [List.intercalate]

/-- What the loop puts together, if nothing runs out. -/
theorem listNames_eq (granted : ℕ → Bool) (word : BitVec 32) (names : Option (List UInt8))
    (rest : List (Fin 7)) :
    (f.listNames granted word names rest).1 =
        (names.isSome || rest.any fun i => f.on word i) ∧
      (∀ text, (f.listNames granted word names rest).2 = some text → text =
        List.intercalate (ascii [','])
          (names.toList ++ (rest.filter fun i => f.on word i).map optionName)) ∧
      ((∀ i, granted i = true) → (f.listNames granted word names rest).2.isSome =
        (names.isSome || rest.any fun i => f.on word i)) := by
  induction rest generalizing names with
  | nil =>
    refine ⟨by simp [listNames], fun text same => ?_, fun _ => by simp [listNames]⟩
    obtain rfl : names = some text := same
    simp
  | cons i rest ih =>
    cases here : f.on word i with
    | false =>
      have off : ¬ f.flag i &&& word ≠ 0 := by rw [flag_and_ne_zero_iff, here]; exact nofun
      have skip : f.listNames granted word names (i :: rest) =
          f.listNames granted word names rest := if_neg off
      rw [skip]
      simpa [here] using ih names
    | true =>
      have set : f.flag i &&& word ≠ 0 := (f.flag_and_ne_zero_iff word i).2 here
      cases room : granted i with
      | false =>
        have stop : f.listNames granted word names (i :: rest) = (true, none) :=
          (if_pos set).trans (if_neg (by simp [room]))
        rw [stop]
        refine ⟨by simp [here], fun _ same => ?_, fun all => ?_⟩
        · cases same
        · rw [all i] at room
          cases room
      | true =>
        have append : f.listNames granted word names (i :: rest) =
            f.listNames granted word (some (appendName names (optionName i))) rest :=
          (if_pos set).trans (if_pos room)
        obtain ⟨found, text, all⟩ := ih (some (appendName names (optionName i)))
        rw [append]
        refine ⟨by simp [found, here], fun t same => ?_, fun granted => by simp [all granted, here]⟩
        rw [text t same, List.filter_cons, if_pos here]
        cases names with
        | none => rfl
        | some front => exact intercalate_merge _ _ _ _

/-- A call whose arguments are options. -/
theorem options_good (word : BitVec 32) {call : Call} (good : call.good = true) :
    (∀ i, f.on (f.options word call).2 i = (f.on word i ^^ call.toggles i)) ∧
      (∀ b : ℕ, (∀ i, (f.bit i).val ≠ b) →
        (f.options word call).2.getLsbD b = word.getLsbD b) ∧
      (∀ text, (f.options word call).1 = .names text → text = f.listed word) ∧
      ((∀ i, call.granted i = true) → call.made = true →
        (f.options word call).1 = .names (f.listed word)) := by
  obtain ⟨set, gathered, on, others⟩ :=
    f.gather_good call.spoken 0 (List.all_eq_true.1 good)
  obtain ⟨found, text, all⟩ := f.listNames_eq call.granted word none (List.finRange 7)
  have after : (f.options word call).2 = word ^^^ set := by
    simp only [options, gathered]
    split <;> rfl
  have toggles (i : Fin 7) : (call.argv.any fun arg => argOption arg == some i) =
      call.toggles i := by rw [Call.toggles, good, Bool.true_and]
  have right (t : List UInt8) (same : (f.options word call).1 = .names t) : t = f.listed word := by
    simp only [options, gathered] at same
    split at same
    · cases same
    · next names given =>
      split at same
      · obtain rfl := Answer.names.inj same
        split at given
        · exact text names given
        · next none =>
          have off : f.onNames word = [] := by
            rw [found] at none
            simpa [onNames] using none
          split at given
          · rw [← Option.some.inj given, listed, off]
            rfl
          · cases given
      · cases same
  refine ⟨fun i => ?_, fun b other => ?_, right, fun granted made => ?_⟩
  · rw [after, on_xor, on, on_zero, Bool.false_or, toggles]
  · rw [after, BitVec.getLsbD_xor, others b other]
    simp
  · obtain ⟨names, given⟩ : ∃ names,
        (if (f.listNames call.granted word none (List.finRange 7)).1 then
          (f.listNames call.granted word none (List.finRange 7)).2
        else if call.granted 7 then some [] else none) = some names := by
      split
      · next here =>
        rw [found] at here
        exact Option.isSome_iff_exists.1 ((all granted).trans here)
      · exact ⟨[], if_pos (granted 7)⟩
    have answer : (f.options word call).1 = .names names := by
      simp only [options, gathered, given, made, if_true]
    rw [answer, right names answer]

theorem options_bad (word : BitVec 32) {call : Call} (bad : call.good = false) :
    (f.options word call).2 = word ∧ ∀ text, (f.options word call).1 ≠ .names text := by
  have some_bad : ¬ ∀ arg ∈ call.argv, (argOption arg).isSome := fun all => by
    rw [Call.good, List.all_eq_true.2 all] at bad
    cases bad
  obtain ⟨answer, gathered, kind⟩ := f.gather_bad call.spoken 0 some_bad
  simp only [options, gathered]
  exact ⟨trivial, kind⟩

/-! ### Calls one after the other -/

def step (word : BitVec 32) (call : Call) : Option (Answer × BitVec 32) :=
  some (f.options word call)

/-- After any calls, an option is on if it was and an even number of calls have named it, or it was
not and an odd number have, where calls with an argument that is no option do not count; no other
bit of the word changes.  The names a call returns are those of the options that were on. -/
theorem options_toggle (word : BitVec 32) (calls : List Call) :
    (∀ i, f.on (final f.step word calls) i =
        (f.on word i ^^ decide (Odd (calls.countP fun call => call.toggles i)))) ∧
      (∀ b : ℕ, (∀ i, (f.bit i).val ≠ b) →
        (final f.step word calls).getLsbD b = word.getLsbD b) ∧
      Along f.step (fun w _ answer _ => ∀ text, answer = .names text → text = f.listed w)
        word calls := by
  induction calls generalizing word with
  | nil => exact ⟨fun i => by simp [final], fun _ _ => rfl, trivial⟩
  | cons call calls ih =>
    have first : f.step word call = some ((f.options word call).1, (f.options word call).2) := rfl
    obtain ⟨on, others, along⟩ := ih (f.options word call).2
    rw [final_cons_of_some calls first, along_cons_of_some calls first]
    cases good : call.good with
    | true =>
      obtain ⟨toggled, kept, names, -⟩ := f.options_good word good
      refine ⟨fun i => ?_, fun b other => (others b other).trans (kept b other), names, along⟩
      rw [on, toggled, List.countP_cons]
      cases call.toggles i with
      | false => simp
      | true =>
        have turned : decide (Odd (calls.countP (fun call => call.toggles i) + 1)) =
            !decide (Odd (calls.countP fun call => call.toggles i)) := by
          rw [← decide_not, decide_eq_decide]
          exact Nat.odd_add_one
        rw [if_pos rfl, turned]
        cases f.on word i <;> simp
    | false =>
      obtain ⟨same, names⟩ := f.options_bad word good
      rw [same] at on others along ⊢
      refine ⟨fun i => ?_, others, fun text named => absurd named (names text), along⟩
      have out : call.toggles i = false := by rw [Call.toggles, good, Bool.false_and]
      rw [on, List.countP_cons, out]
      rfl

/-- `options("strict", "strict")` and then `options("xml")`, from a word with `strict` on. -/
theorem options_toggle_engine :
    (∀ i, engine.on (final engine.step 1 [given [ofBytes (optionName 4), ofBytes (optionName 4)],
        given [ofBytes (optionName 6)]]) i = decide (i = 6)) ∧
      Along engine.step
        (fun w _ answer _ => ∀ text, answer = .names text → text = engine.listed w) 1
        [given [ofBytes (optionName 4), ofBytes (optionName 4)],
          given [ofBytes (optionName 6)]] := by
  obtain ⟨on, -, named⟩ := engine.options_toggle 1
    [given [ofBytes (optionName 4), ofBytes (optionName 4)], given [ofBytes (optionName 6)]]
  refine ⟨fun i => (on i).trans ?_, named⟩
  revert i
  decide +kernel

/-! ### The names handed back -/

end Flags

/-- `text.split(",")`. -/
def splitNames (text : List UInt8) : List (List UInt16) := (ofBytes text).splitOn 44

theorem getStringBytes_ofBytes {text : List UInt8} (clean : ∀ c ∈ text, isNul c = false) :
    (getStringBytes (ofBytes text) : List UInt8) = text := by
  have back : (ofBytes text).map (fun c => (Octet.lit c.toUInt8 : UInt8)) = text := by
    rw [ofBytes, List.map_map]
    exact (List.map_congr_left fun c _ => by simp).trans (List.map_id text)
  rw [getStringBytes, back, cut_of_not_isNul clean]

theorem argOption_name (i : Fin 7) : argOption (some (ofBytes (optionName i))) = some i := by
  rw [argOption, Option.bind_some, getStringBytes_ofBytes (clean_optionName i)]
  revert i
  decide

theorem splitNames_intercalate {names : List (List UInt8)} (some_names : names ≠ [])
    (single : ∀ name ∈ names, 44 ∉ name) :
    splitNames (List.intercalate (ascii [',']) names) = names.map ofBytes := by
  have wide (names : List (List UInt8)) : ofBytes (List.intercalate (ascii [',']) names) =
      List.intercalate [44] (names.map ofBytes) := by
    induction names with
    | nil => rfl
    | cons name names ih =>
      cases names with
      | nil => simp [ofBytes]
      | cons name' names =>
        simp only [List.intercalate, List.map_cons, List.intersperse_cons_cons, List.flatten_cons,
          ofBytes, List.map_append] at ih ⊢
        rw [ih]
        rfl
  rw [splitNames, wide, List.splitOn_intercalate]
  · intro name hname comma
    obtain ⟨name, among, rfl⟩ := List.mem_map.1 hname
    exact single name among (mem_ofBytes (b := 44) comma)
  · simpa using some_names

namespace Flags

variable (f : Flags)

/-- The names of the options that are on, handed back. -/
theorem given_listed {word : BitVec 32} (some_on : ∃ i, f.on word i = true) :
    (given (splitNames (f.listed word))).good = true ∧
      ∀ i, (given (splitNames (f.listed word))).toggles i = f.on word i := by
  have some_names : f.onNames word ≠ [] := by
    obtain ⟨i, on⟩ := some_on
    exact List.ne_nil_of_mem
      (List.mem_map_of_mem (List.mem_filter.2 ⟨List.mem_finRange i, on⟩))
  have single : ∀ name ∈ f.onNames word, 44 ∉ name := by
    intro name among
    obtain ⟨i, -, rfl⟩ := List.mem_map.1 among
    exact comma_not_mem_optionName i
  have argv : (given (splitNames (f.listed word))).argv =
      ((List.finRange 7).filter fun i => f.on word i).map
        fun i => some (ofBytes (optionName i)) := by
    rw [listed, given, splitNames_intercalate some_names single, onNames, List.map_map,
      List.map_map]
    rfl
  have good : (given (splitNames (f.listed word))).good = true := by
    rw [Call.good, argv, List.all_map, List.all_eq_true]
    intro i _
    rw [Function.comp_apply, argOption_name]
    rfl
  refine ⟨good, fun i => ?_⟩
  rw [Call.toggles, good, Bool.true_and, argv, List.any_map, Bool.eq_iff_iff, List.any_eq_true]
  constructor
  · rintro ⟨j, among, same⟩
    rw [Function.comp_apply, argOption_name, beq_iff_eq] at same
    obtain rfl := Option.some.inj same
    exact (List.mem_filter.1 among).2
  · intro on
    refine ⟨i, List.mem_filter.2 ⟨List.mem_finRange i, on⟩, ?_⟩
    rw [Function.comp_apply, argOption_name, beq_self_eq_true]

theorem listed_of_off {word : BitVec 32} (off : ∀ i, f.on word i = false) :
    f.listed word = [] := by
  simp [listed, onNames, off]

theorem word_ext {w v : BitVec 32} (options : ∀ i, f.on w i = f.on v i)
    (others : ∀ b : ℕ, (∀ i, (f.bit i).val ≠ b) → w.getLsbD b = v.getLsbD b) : w = v := by
  apply BitVec.eq_of_getLsbD_eq
  intro b _
  by_cases some_option : ∃ i, (f.bit i).val = b
  · obtain ⟨i, rfl⟩ := some_option
    exact options i
  · exact others b (not_exists.1 some_option)

/-- With no option on, what is handed back is the empty name, which no option has. -/
theorem options_listed_of_off {word : BitVec 32} (off : ∀ i, f.on word i = false) :
    f.options word (given (splitNames (f.listed word))) = (.unknown (unknownOption []), word) := by
  have none : f.mapContextOptionNameToFlag (getStringBytes []) = none := by
    rw [mapContextOptionNameToFlag_eq]
    rfl
  have argv : (given (splitNames (f.listed word))).argv = [some []] := by
    rw [f.listed_of_off off]
    rfl
  have gathered : f.gather true 0 [some []] = .error (.unknown (unknownOption [])) := by
    simp only [gather, none, if_true]
    rfl
  rw [options, argv]
  exact gathered ▸ rfl

/-- `options()` returns the names of the options that are on and changes nothing.  Handed back, they
turn all of these off, and handed back once more, they leave the word as it was; with no option on,
handing back the empty text is an error and changes nothing. -/
theorem options_restore (word : BitVec 32) :
    f.options word (given []) = (.names (f.listed word), word) ∧
      ((∃ i, f.on word i = true) →
        ∃ off, (f.options word (given (splitNames (f.listed word)))).2 = off ∧
          (∀ i, f.on off i = false) ∧
          f.options off (given (splitNames (f.listed word))) = (.names [], word)) ∧
      ((∀ i, f.on word i = false) → f.options word (given (splitNames (f.listed word))) =
        (.unknown (unknownOption []), word)) := by
  refine ⟨?_, fun some_on => ?_, f.options_listed_of_off⟩
  · have good : (given []).good = true := rfl
    obtain ⟨on, others, -, answer⟩ := f.options_good word good
    exact Prod.ext (answer (fun _ => rfl) rfl)
      (f.word_ext (fun i => (on i).trans (Bool.xor_false _)) others)
  · obtain ⟨good, toggles⟩ := f.given_listed some_on
    obtain ⟨on, others, -, -⟩ := f.options_good word good
    have off (i : Fin 7) :
        f.on (f.options word (given (splitNames (f.listed word)))).2 i = false := by
      rw [on, toggles, Bool.xor_self]
    refine ⟨_, rfl, off, ?_⟩
    obtain ⟨back, others', -, answer⟩ :=
      f.options_good (f.options word (given (splitNames (f.listed word)))).2 good
    refine Prod.ext ((answer (fun _ => rfl) rfl).trans (by rw [f.listed_of_off off]))
      (f.word_ext ?_ ?_)
    · intro i
      rw [back, off, toggles, Bool.false_xor]
    · exact fun b other => (others' b other).trans (others b other)

/-- The word with `strict` and `xml` on, as the engine numbers its options. -/
theorem options_restore_engine :
    (engine.options 0x41 (given [])).1 = .names (ascii "strict,xml".toList) ∧
      ∃ off, (engine.options 0x41 (given (splitNames (engine.listed 0x41)))).2 = off ∧
        (∀ i, engine.on off i = false) ∧
        engine.options off (given (splitNames (engine.listed 0x41))) = (.names [], 0x41) := by
  obtain ⟨first, restores, -⟩ := engine.options_restore 0x41
  exact ⟨(congrArg Prod.fst first).trans (by decide +kernel), restores ⟨4, by decide⟩⟩

end Flags

end Sysjs.Options
