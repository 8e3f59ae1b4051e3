import Mathlib.Data.List.TakeWhile
import Mathlib.Tactic.Common
import Mathlib.Logic.Function.Basic

/-!
# The WebSocket handshake

How `start_ws` takes the response of the server: the status line and the header lines go into one
object, and the decision is taken from that object.
-/

set_option autoImplicit false

namespace Sysjs.Ape

/-- A string of the script. -/
abbrev Str := List Char

/-- The key of `headers.response`. -/
def responseKey : Str := "response".toList

/-- `indexOf("HTTP/1.1 101")==0`. -/
def Switches (line : Str) : Prop := "HTTP/1.1 101".toList <+: line

instance (line : Str) : Decidable (Switches line) := inferInstanceAs (Decidable (_ <+: _))

/-- The names for which every object inherits a setter that ignores strings, such as `__proto__`. -/
structure Setters where
  has : Str → Bool
  response : has responseKey = false

/-- The strings that are properties of an object. -/
abbrev Strings := Str → Option Str

/-- `headers[name] = value`, where `none` is the value `undefined`. -/
def Setters.put (o : Setters) (headers : Strings) (name : Str) (value : Option Str) : Strings :=
  if o.has name then headers else Function.update headers name value

/-- The loop over the header lines; `none` when `read` has not returned an empty line yet. -/
def readHeaders (o : Setters) : Strings → List Str → Option Strings
  | _, [] => none
  | headers, line :: lines =>
    if line.length = 0 then some headers
    else
      let k := (line.splitOn ':').take 2
      readHeaders o (o.put headers (k[0]?.getD []) k[1]?) lines

/-- How `start_ws` takes the response: it waits for more lines; it sets `isWS`; it clears `isWS` and
throws "TRAMPOLINE FAILED! - need 101 response!"; or the call of `indexOf` throws. -/
inductive Handshake where
  | waiting
  | accepted (headers : Strings)
  | refused
  | typeError

/-- `start_ws` with the lines that `read` returns. -/
def startWs (o : Setters) : List Str → Handshake
  | [] => .waiting
  | line :: lines => match readHeaders o (o.put (fun _ => none) responseKey (some line)) lines with
    | none => .waiting
    | some headers => match headers responseKey with
      | none => .typeError
      | some response => if Switches response then .accepted headers else .refused

/-- A header line `name:value`. -/
structure Header where
  name : Str
  value : Str
  colonless : ':' ∉ name

namespace Header

def line (h : Header) : Str := h.name ++ ':' :: h.value

/-- The second piece of the line. -/
def piece (h : Header) : Str := h.value.takeWhile (· ≠ ':')

/-- The last of the lines with its name. -/
def LastIn (h : Header) (hs : List Header) : Prop :=
  ∃ before after, hs = before ++ h :: after ∧ ∀ x ∈ after, x.name ≠ h.name

end Header

/-- The lines of a response. -/
def response (status : Str) (hs : List Header) : List Str := status :: (hs.map Header.line ++ [[]])

/-- What `start_ws` should do: accept by the status line, and then know of every name the value in
the last line with that name. -/
structure Decided (status : Str) (hs : List Header) (r : Handshake) : Prop where
  decision : (∃ headers, r = .accepted headers) ↔ Switches status
  kept : ∀ headers, r = .accepted headers → ∀ h : Header, h.LastIn hs →
    headers h.name = some h.value

/-- What stands in `headers.response` in the end: the second piece of the last line with the name
"response", if there is one. -/
def answered (status : Str) (hs : List Header) : Str :=
  match hs.reverse.find? fun h => h.name = responseKey with
  | none => status
  | some h => h.piece

/-- No line with the name "response" turns the decision, and when the response is accepted, the last
line of each name has no further colon and its name no setter. -/
structure Unambiguous (o : Setters) (status : Str) (hs : List Header) : Prop where
  same : Switches (answered status hs) ↔ Switches status
  whole : Switches status → ∀ h : Header, h.LastIn hs → ':' ∉ h.value ∧ o.has h.name = false

theorem head_splitOn (l : Str) : (l.splitOn ':')[0]? = some (l.takeWhile (· ≠ ':')) := by
  induction l with
  | nil => rfl
  | cons c l ih =>
    rw [List.splitOn_cons_eq_if_modifyHead]
    by_cases colon : c = ':'
    · simp [colon]
    · simp [colon, ih]

theorem split_line (h : Header) : (h.line.splitOn ':').take 2 = [h.name, h.piece] := by
  rw [Header.line, List.splitOn_append_cons_self_of_not_mem h.colonless]
  have first := head_splitOn h.value
  cases pieces : h.value.splitOn ':' with
  | nil => simp [pieces] at first
  | cons p ps =>
    rw [pieces] at first
    obtain rfl := Option.some.inj first
    rfl

/-- The headers after the loop. -/
def collect (o : Setters) (headers : Strings) (hs : List Header) : Strings :=
  hs.foldl (fun headers h => o.put headers h.name (some h.piece)) headers

theorem readHeaders_eq (o : Setters) (headers : Strings) (hs : List Header) :
    readHeaders o headers (hs.map Header.line ++ [[]]) = some (collect o headers hs) := by
  induction hs generalizing headers with
  | nil => rfl
  | cons h hs ih =>
    have some_char : h.line.length ≠ 0 := by simp [Header.line]
    rw [List.map_cons, List.cons_append, readHeaders, if_neg some_char, split_line]
    exact ih _

variable {o : Setters}

theorem put_of_ne (headers : Strings) {name key : Str} (value : Option Str) (h : name ≠ key) :
    o.put headers name value key = headers key := by
  unfold Setters.put
  split
  · rfl
  · exact Function.update_of_ne h.symm _ _

theorem put_of_setter (headers : Strings) (name : Str) {key : Str} (value : Option Str)
    (h : o.has key = true) : o.put headers name value key = headers key := by
  by_cases same : name = key
  · rw [Setters.put, if_pos (by rw [same, h])]
  · exact put_of_ne headers value same

theorem put_self (headers : Strings) {key : Str} (value : Option Str) (h : o.has key = false) :
    o.put headers key value key = value := by
  rw [Setters.put, if_neg (by simp [h]), Function.update_self]

theorem collect_of_ne (headers : Strings) {hs : List Header} {key : Str}
    (other : ∀ h ∈ hs, h.name ≠ key) : collect o headers hs key = headers key := by
  induction hs generalizing headers with
  | nil => rfl
  | cons h hs ih =>
    rw [List.forall_mem_cons] at other
    exact (ih _ other.2).trans (put_of_ne _ _ other.1)

theorem collect_of_setter (headers : Strings) (hs : List Header) {key : Str}
    (setter : o.has key = true) : collect o headers hs key = headers key := by
  induction hs generalizing headers with
  | nil => rfl
  | cons h hs ih => exact (ih _).trans (put_of_setter _ _ _ setter)

/-- The last line with a name decides. -/
theorem collect_of_last (headers : Strings) {hs : List Header} {h : Header} (last : h.LastIn hs)
    (plain : o.has h.name = false) : collect o headers hs h.name = some h.piece := by
  obtain ⟨before, after, rfl, others⟩ := last
  have later := collect_of_ne (o := o)
    (o.put (collect o headers before) h.name (some h.piece)) others
  rw [put_self _ _ plain] at later
  rw [collect, List.foldl_append]
  exact later

theorem find_last {hs : List Header} {key : Str} {h : Header}
    (found : (hs.reverse.find? fun h => h.name = key) = some h) : h.name = key ∧ h.LastIn hs := by
  obtain ⟨here, before, after, split, others⟩ := List.find?_eq_some_iff_append.1 found
  rw [decide_eq_true_eq] at here
  refine ⟨here, after.reverse, before.reverse, ?_, fun x member => ?_⟩
  · rw [← List.reverse_reverse hs, split]
    simp
  · have other := others x (List.mem_reverse.1 member)
    rwa [Bool.not_eq_true', decide_eq_false_iff_not, ← here] at other

/-- What the decision is taken from. -/
theorem collect_response (status : Str) (hs : List Header) :
    collect o (o.put (fun _ => none) responseKey (some status)) hs responseKey =
      some (answered status hs) := by
  unfold answered
  split
  · next none_found =>
    have others : ∀ h ∈ hs, h.name ≠ responseKey := by
      intro h member
      simpa using List.find?_eq_none.1 none_found h (List.mem_reverse.2 member)
    rw [collect_of_ne _ others, put_self _ _ o.response]
  · next h found =>
    obtain ⟨named, last⟩ := find_last found
    have plain : o.has h.name = false := by rw [named, o.response]
    rw [← named]
    exact collect_of_last _ last plain

/-- The whole call: it is never left waiting, and decides by what stands in `headers.response`. -/
theorem startWs_response (o : Setters) (status : Str) (hs : List Header) :
    startWs o (response status hs) =
      if Switches (answered status hs) then
        .accepted (collect o (o.put (fun _ => none) responseKey (some status)) hs)
      else .refused := by
  simp only [startWs, response, readHeaders_eq, collect_response]

theorem piece_eq_iff (h : Header) : h.piece = h.value ↔ ':' ∉ h.value := by
  rw [Header.piece, List.takeWhile_eq_self_iff]
  constructor
  · intro all colon
    simpa using all _ colon
  · intro none c member
    simp only [decide_eq_true_eq]
    rintro rfl
    exact none member

/-- The value of a line is found if and only if it is the whole second piece and its name is
plain. -/
theorem collect_last_iff (status : Str) {hs : List Header} {h : Header} (last : h.LastIn hs) :
    collect o (o.put (fun _ => none) responseKey (some status)) hs h.name = some h.value ↔
      ':' ∉ h.value ∧ o.has h.name = false := by
  cases setter : o.has h.name with
  | true =>
    have other : responseKey ≠ h.name := by
      intro same
      rw [← same, o.response] at setter
      cases setter
    rw [collect_of_setter _ _ setter, put_of_ne _ _ other]
    simp
  | false =>
    rw [collect_of_last _ last setter, Option.some.injEq, piece_eq_iff]
    simp

/-- `start_ws` decides by the status line and keeps the values if and only if the header lines are
unambiguous. -/
theorem startWs_decided_iff (o : Setters) (status : Str) (hs : List Header) :
    Decided status hs (startWs o (response status hs)) ↔ Unambiguous o status hs := by
  rw [startWs_response]
  by_cases switches : Switches (answered status hs)
  · rw [if_pos switches]
    constructor
    · intro decided
      have status_switches := decided.decision.1 ⟨_, rfl⟩
      refine ⟨iff_of_true switches status_switches, fun _ h last => ?_⟩
      exact (collect_last_iff status last).1 (decided.kept _ rfl h last)
    · intro clear
      have status_switches := clear.same.1 switches
      refine ⟨iff_of_true ⟨_, rfl⟩ status_switches, ?_⟩
      rintro headers accepted h last
      obtain rfl := Handshake.accepted.inj accepted
      exact (collect_last_iff status last).2 (clear.whole status_switches h last)
  · rw [if_neg switches]
    have refused : ¬ ∃ headers, Handshake.refused = .accepted headers := by simp
    constructor
    · intro decided
      have status_fails : ¬ Switches status := fun h => refused (decided.decision.2 h)
      exact ⟨iff_of_false switches status_fails, fun h => absurd h status_fails⟩
    · intro clear
      have status_fails : ¬ Switches status := fun h => switches (clear.same.2 h)
      exact ⟨iff_of_false refused status_fails, fun headers h => absurd ⟨headers, h⟩ refused⟩

/-- A refusal with a header line "response:HTTP/1.1 101" is taken for an acceptance. -/
theorem startWs_decided_not_response :
    ¬ Decided "HTTP/1.1 404".toList
      [⟨responseKey, "HTTP/1.1 101".toList, by decide +kernel⟩]
      (startWs ⟨fun _ => false, rfl⟩ (response "HTTP/1.1 404".toList
        [⟨responseKey, "HTTP/1.1 101".toList, by decide +kernel⟩])) := by
  intro decided
  rw [startWs_response, if_pos (by decide +kernel)] at decided
  have switches := decided.decision.1 ⟨_, rfl⟩
  revert switches
  decide +kernel

end Sysjs.Ape
