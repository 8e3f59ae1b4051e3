import Sysjs.Foundation.Worklist

/-!
# `countHeap`

`CountHeap` counts the things of one kind that can be reached, with a list of nodes it allocates
itself and takes again.  The things, their kinds and what a thing refers to are the engine's.
-/

set_option autoImplicit false

namespace Sysjs.CountHeap

open Worklist

/-- `JSTRACE_OBJECT` and so on. -/
inductive TraceKind where
  | object
  | double
  | string
  | xml
  deriving DecidableEq, Repr

/-- A `JSCountHeapNode`, by the number of the `JS_malloc` that made it. -/
structure Node (α : Type*) where
  address : ℕ
  thing : α
  kind : TraceKind

/-- `JSCountHeapTracer`, with the number of nodes made and of requests for memory so far. -/
structure Tracer (α : Type*) where
  visited : Finset α
  ok : Bool
  traceList : List (Node α)
  recycleList : List ℕ
  made : ℕ
  asked : ℕ

/-- The engine: the kind of a thing, what `JS_TraceChildren` and `JS_TraceRuntime` report, and which
requests for memory are granted. -/
structure Engine (α : Type*) where
  kind : α → TraceKind
  children : α → List α
  runtime : List α
  granted : ℕ → Bool

variable {α : Type*}

def Tracer.init : Tracer α where
  visited := ∅
  ok := true
  traceList := []
  recycleList := []
  made := 0
  asked := 0

/-- The first node of the trace list goes to the recycle list. -/
def Tracer.pop (t : Tracer α) (node : Node α) (rest : List (Node α)) : Tracer α :=
  { t with traceList := rest, recycleList := node.address :: t.recycleList }

section Notify

variable [DecidableEq α]

/-- A node from the recycle list or from `JS_malloc`, put at the head of the trace list. -/
def Tracer.push (e : Engine α) (t : Tracer α) (thing : α) : Tracer α :=
  match t.recycleList with
  | address :: rest =>
    { t with
      recycleList := rest
      traceList := ⟨address, thing, e.kind thing⟩ :: t.traceList }
  | [] =>
    if e.granted t.asked then
      { t with
        traceList := ⟨t.made, thing, e.kind thing⟩ :: t.traceList
        made := t.made + 1
        asked := t.asked + 1 }
    else { t with ok := false, asked := t.asked + 1 }

/-- `CountHeapNotify`. -/
def countHeapNotify (e : Engine α) (t : Tracer α) (thing : α) : Tracer α :=
  if t.ok then
    if e.granted t.asked then
      let t := { t with asked := t.asked + 1 }
      if thing ∈ t.visited then t
      else ({ t with visited := insert thing t.visited }).push e thing
    else { t with ok := false, asked := t.asked + 1 }
  else t

/-- `traceKind == -1 || node->kind == traceKind`; `-1`, which stands for every kind, is `none`. -/
def wanted (traceKind : Option TraceKind) (kind : TraceKind) : Bool :=
  traceKind = none ∨ some kind = traceKind

/-- The counting loop: the tracer at its end and the counter. -/
def countLoop (e : Engine α) (traceKind : Option TraceKind) :
    ℕ → Tracer α → ℕ → Option (Tracer α × ℕ)
  | 0, _, _ => none
  | fuel + 1, t, counter =>
    match t.traceList with
    | [] => some (t, counter)
    | node :: rest =>
      let counter := if wanted traceKind node.kind then counter + 1 else counter
      let t := (e.children node.thing).foldl (countHeapNotify e) (t.pop node rest)
      countLoop e traceKind fuel t counter

def traceKindNames : List (String × Option TraceKind) :=
  [("all", none), ("object", some .object), ("double", some .double), ("string", some .string),
    ("xml", some .xml)]

/-- The first argument: it is missing or `null`, a thing of the heap, or something else. -/
inductive Start (α : Type*) where
  | runtime
  | thing (x : α)
  | other

def Start.proper : Start α → Bool
  | .other => false
  | _ => true

/-- What `JS_CallTracer` or `JS_TraceRuntime` reports first. -/
def Start.roots (e : Engine α) : Start α → List α
  | .thing x => [x]
  | _ => e.runtime

/-- The kind that the second argument asks for, if there is one of that name. -/
def kindNamed : Option String → Option (Option TraceKind)
  | none => some none
  | some bytes => (traceKindNames.find? fun entry => entry.1 = bytes).map Prod.snd

/-- What a call of `countHeap` makes: an error with its text, an error for want of memory, or a
number. -/
inductive Outcome where
  | error (text : String)
  | outOfMemory
  | number (n : ℕ)
  deriving DecidableEq, Repr

/-- The outcome of a call, the nodes it made and those it freed. -/
structure Result where
  outcome : Outcome
  made : ℕ
  freed : List ℕ

def Result.early (outcome : Outcome) : Result := { outcome := outcome, made := 0, freed := [] }

/-- The loops of `CountHeap`, from the initialised tracer on. -/
def count (e : Engine α) (start : List α) (traceKind : Option TraceKind) (fuel : ℕ) :
    Option Result :=
  (countLoop e traceKind fuel (start.foldl (countHeapNotify e) .init) 0).map fun (t, counter) =>
    { outcome := if t.ok then .number counter else .outOfMemory
      made := t.made
      freed := t.recycleList }

/-- `CountHeap`; `table` says whether `JS_DHashTableInit` succeeds. -/
def countHeap (e : Engine α) (start : Start α) (kindName : Option String) (table : Bool)
    (fuel : ℕ) : Option Result :=
  if start.proper then
    match kindNamed kindName with
    | none => some (.early (.error "trace kind name '%s' is unknown"))
    | some traceKind =>
      if table then count e (start.roots e) traceKind fuel else some (.early .outOfMemory)
  else some (.early (.error "the first argument is not null or a heap-allocated thing"))

/-! ### The nodes -/

/-- Every node is on one of the lists, once. -/
def Tracer.Owns (t : Tracer α) : Prop :=
  (t.traceList.map Node.address ++ t.recycleList).Perm (List.range t.made)

variable {e : Engine α} {t : Tracer α} {x : α}

omit [DecidableEq α] in
theorem push_owns (owns : t.Owns) : (t.push e x).Owns := by
  unfold Tracer.push
  split
  · next address rest recycled =>
    rw [Tracer.Owns, recycled] at owns
    exact List.perm_middle.symm.trans owns
  · split
    · rw [Tracer.Owns, List.range_succ]
      exact (owns.cons t.made).trans (List.perm_append_singleton _ _).symm
    · exact owns

theorem countHeapNotify_owns (owns : t.Owns) : (countHeapNotify e t x).Owns := by
  unfold countHeapNotify
  split
  · split
    · dsimp only
      split
      · exact owns
      · exact push_owns owns
    · exact owns
  · exact owns

theorem notifyAll_owns (xs : List α) (owns : t.Owns) : (xs.foldl (countHeapNotify e) t).Owns :=
  List.foldlRecOn xs (countHeapNotify e) owns fun _ owns _ _ => countHeapNotify_owns owns

theorem countLoop_owns {traceKind : Option TraceKind} {fuel counter n : ℕ} {u : Tracer α}
    (owns : t.Owns) (run : countLoop e traceKind fuel t counter = some (u, n)) :
    u.Owns ∧ u.traceList = [] := by
  induction fuel generalizing t counter with
  | zero => cases run
  | succ fuel ih =>
    rw [countLoop] at run
    split at run
    · next empty =>
      cases run
      exact ⟨owns, empty⟩
    · next node rest here =>
      rw [Tracer.Owns, here] at owns
      have popped : (t.pop node rest).Owns := List.perm_middle.trans owns
      exact ih (notifyAll_owns _ popped) run

/-! ### What is counted -/

/-- The tracer has seen what the marks have, and has the same list. -/
structure Follows (e : Engine α) (t : Tracer α) (m : Marks α) : Prop where
  seen : t.visited = m.seen
  todo : t.traceList.map Node.thing = m.todo
  kinds : ∀ node ∈ t.traceList, node.kind = e.kind node.thing

variable {m : Marks α}

omit [DecidableEq α] in
theorem push_ok (ok : (t.push e x).ok = true) : (t.push e x).visited = t.visited ∧
    ∃ address, (t.push e x).traceList = ⟨address, x, e.kind x⟩ :: t.traceList := by
  unfold Tracer.push at ok ⊢
  split at ok
  · next address rest recycled => exact ⟨rfl, address, rfl⟩
  · split at ok
    · next granted =>
      rw [if_pos granted]
      exact ⟨rfl, _, rfl⟩
    · cases ok

theorem countHeapNotify_ok (ok : (countHeapNotify e t x).ok = true) : t.ok = true := by
  by_contra failed
  rw [countHeapNotify, if_neg failed] at ok
  exact failed ok

theorem notifyAll_ok {xs : List α} (ok : (xs.foldl (countHeapNotify e) t).ok = true) :
    t.ok = true := by
  induction xs generalizing t with
  | nil => exact ok
  | cons x xs ih => exact countHeapNotify_ok (ih ok)

/-- As long as memory is granted, `CountHeapNotify` visits. -/
theorem countHeapNotify_follows (f : Follows e t m) (ok : (countHeapNotify e t x).ok = true) :
    Follows e (countHeapNotify e t x) (m.visit x) := by
  obtain ⟨seen, todo, kinds⟩ := f
  have fine := countHeapNotify_ok ok
  unfold countHeapNotify at ok ⊢
  unfold Marks.visit
  rw [if_pos fine] at ok ⊢
  split at ok
  · next granted =>
    rw [if_pos granted]
    dsimp only at ok ⊢
    rw [← seen]
    split at ok
    · next old =>
      rw [if_pos old, if_pos old]
      exact ⟨seen, todo, kinds⟩
    · next new =>
      rw [if_neg new, if_neg new]
      obtain ⟨visited, address, list⟩ := push_ok ok
      refine ⟨visited, ?_, ?_⟩
      · rw [list, List.map_cons]
        exact congrArg (x :: ·) todo
      · rw [list]
        exact List.forall_mem_cons.2 ⟨rfl, kinds⟩
  · cases ok

theorem notifyAll_follows {xs : List α} (f : Follows e t m)
    (ok : (xs.foldl (countHeapNotify e) t).ok = true) :
    Follows e (xs.foldl (countHeapNotify e) t) (xs.foldl Marks.visit m) := by
  induction xs generalizing t m with
  | nil => exact f
  | cons x xs ih => exact ih (countHeapNotify_follows f (notifyAll_ok ok)) ok

theorem countLoop_ok {traceKind : Option TraceKind} {fuel counter n : ℕ} {u : Tracer α}
    (run : countLoop e traceKind fuel t counter = some (u, n)) (ok : u.ok = true) :
    t.ok = true := by
  induction fuel generalizing t counter with
  | zero => cases run
  | succ fuel ih =>
    rw [countLoop] at run
    split at run
    · cases run
      exact ok
    · next node rest here =>
      have popped : (t.pop node rest).ok = true := notifyAll_ok (ih run)
      exact popped

/-- The loop counts the things of the kind among those that are done. -/
theorem countLoop_counts {traceKind : Option TraceKind} {roots : List α} {fuel counter n : ℕ}
    {u : Tracer α} (sound : m.Sound e.children roots []) (f : Follows e t m)
    (counted : counter = m.done.countP fun x => wanted traceKind (e.kind x))
    (run : countLoop e traceKind fuel t counter = some (u, n)) (ok : u.ok = true) :
    n = {x | Reach e.children roots x ∧ wanted traceKind (e.kind x) = true}.ncard := by
  induction fuel generalizing t m counter with
  | zero => cases run
  | succ fuel ih =>
    obtain ⟨seen, todo, kinds⟩ := f
    rw [countLoop] at run
    split at run
    · next empty =>
      cases run
      rw [empty] at todo
      exact counted.trans (sound.count todo.symm _)
    · next node rest here =>
      rw [here, List.map_cons] at todo
      rw [here] at kinds
      obtain ⟨kind, kinds⟩ := List.forall_mem_cons.1 kinds
      have advanced : m.advance e.children = (e.children node.thing).foldl Marks.visit
          { m with todo := rest.map Node.thing, done := node.thing :: m.done } := by
        simp only [Marks.advance, ← todo]
      have popped : Follows e (t.pop node rest)
          { m with todo := rest.map Node.thing, done := node.thing :: m.done } := ⟨seen, rfl, kinds⟩
      refine ih (Marks.advance_sound sound) ?_ ?_ run
      · rw [advanced]
        exact notifyAll_follows popped (countLoop_ok run ok)
      · rw [advanced, Marks.visitAll_done, List.countP_cons, ← counted, kind]
        split <;> rfl

/-! ### The end of the count -/

/-- The things of the heap that can still be put on the list, and those that are on it. -/
def Tracer.work (heap : Finset α) (t : Tracer α) : ℕ :=
  (heap \ t.visited).card + t.traceList.length

variable {heap : Finset α}

omit [DecidableEq α] in
theorem push_list (e : Engine α) (t : Tracer α) (x : α) : (t.push e x).visited = t.visited ∧
    ((t.push e x).traceList = t.traceList ∨
      ∃ address, (t.push e x).traceList = ⟨address, x, e.kind x⟩ :: t.traceList) := by
  unfold Tracer.push
  split
  · exact ⟨rfl, Or.inr ⟨_, rfl⟩⟩
  · split
    · exact ⟨rfl, Or.inr ⟨_, rfl⟩⟩
    · exact ⟨rfl, Or.inl rfl⟩

/-- What is put on the list can not be put there again. -/
theorem countHeapNotify_work (e : Engine α) (x_in : x ∈ heap)
    (listed : ∀ node ∈ t.traceList, node.thing ∈ heap) :
    (countHeapNotify e t x).work heap ≤ t.work heap ∧
      ∀ node ∈ (countHeapNotify e t x).traceList, node.thing ∈ heap := by
  unfold countHeapNotify
  split
  · split
    · dsimp only
      split
      · exact ⟨le_rfl, listed⟩
      · next new =>
        have among : x ∈ heap \ t.visited := Finset.mem_sdiff.2 ⟨x_in, new⟩
        have pos := Finset.card_pos.2 ⟨x, among⟩
        have less := Finset.card_erase_of_mem among
        obtain ⟨visited, list | ⟨address, list⟩⟩ := push_list e
          { t with asked := t.asked + 1, visited := insert x t.visited } x
        · rw [Tracer.work, Tracer.work, visited, list, Finset.sdiff_insert, less]
          dsimp only
          exact ⟨by omega, listed⟩
        · rw [Tracer.work, Tracer.work, visited, list, Finset.sdiff_insert, less, List.length_cons]
          dsimp only
          exact ⟨by omega, List.forall_mem_cons.2 ⟨x_in, listed⟩⟩
    · exact ⟨le_rfl, listed⟩
  · exact ⟨le_rfl, listed⟩

theorem notifyAll_work {xs : List α} (e : Engine α) (within : ∀ x ∈ xs, x ∈ heap)
    (listed : ∀ node ∈ t.traceList, node.thing ∈ heap) :
    (xs.foldl (countHeapNotify e) t).work heap ≤ t.work heap ∧
      ∀ node ∈ (xs.foldl (countHeapNotify e) t).traceList, node.thing ∈ heap := by
  induction xs generalizing t with
  | nil => exact ⟨le_rfl, listed⟩
  | cons x xs ih =>
    obtain ⟨first, later⟩ := List.forall_mem_cons.1 within
    obtain ⟨less, listed⟩ := countHeapNotify_work e first listed
    obtain ⟨less', listed⟩ := ih later listed
    exact ⟨less'.trans less, listed⟩

/-- The loop comes to its end when nothing leads out of the heap. -/
theorem countLoop_ends {traceKind : Option TraceKind} {fuel : ℕ} (counter : ℕ)
    (closed : ∀ x ∈ heap, ∀ y ∈ e.children x, y ∈ heap)
    (listed : ∀ node ∈ t.traceList, node.thing ∈ heap) (enough : t.work heap < fuel) :
    (countLoop e traceKind fuel t counter).isSome = true := by
  induction fuel generalizing t counter with
  | zero => omega
  | succ fuel ih =>
    rw [countLoop]
    split
    · rfl
    · next node rest here =>
      rw [here] at listed
      obtain ⟨thing, listed⟩ := List.forall_mem_cons.1 listed
      have popped : (t.pop node rest).work heap + 1 = t.work heap := by
        rw [Tracer.work, Tracer.work, here, List.length_cons]
        rfl
      obtain ⟨less, listed⟩ := notifyAll_work (t := t.pop node rest) e
        (closed node.thing thing) listed
      exact ih _ listed (by omega)

theorem countHeapNotify_granted (all : ∀ i, e.granted i = true) (ok : t.ok = true) :
    (countHeapNotify e t x).ok = true := by
  unfold countHeapNotify Tracer.push
  simp only [ok, all, if_true]
  split
  · rfl
  · split <;> rfl

theorem notifyAll_granted {xs : List α} (all : ∀ i, e.granted i = true) (ok : t.ok = true) :
    (xs.foldl (countHeapNotify e) t).ok = true := by
  induction xs generalizing t with
  | nil => exact ok
  | cons x xs ih => exact ih (countHeapNotify_granted all ok)

theorem countLoop_granted {traceKind : Option TraceKind} {fuel counter n : ℕ} {u : Tracer α}
    (all : ∀ i, e.granted i = true) (ok : t.ok = true)
    (run : countLoop e traceKind fuel t counter = some (u, n)) : u.ok = true := by
  induction fuel generalizing t counter with
  | zero => cases run
  | succ fuel ih =>
    rw [countLoop] at run
    split at run
    · cases run
      exact ok
    · next node rest here =>
      have popped : (t.pop node rest).ok = true := ok
      exact ih (notifyAll_granted all popped) run

theorem count_counts (e : Engine α) (heap : Finset α) (roots : List α)
    (traceKind : Option TraceKind) {fuel : ℕ} (closed : ∀ x ∈ heap, ∀ y ∈ e.children x, y ∈ heap)
    (within : ∀ x ∈ roots, x ∈ heap) (enough : heap.card < fuel) :
    ∃ r, count e roots traceKind fuel = some r ∧ r.freed.Perm (List.range r.made) ∧
      (∀ n, r.outcome = .number n →
        n = {x | Reach e.children roots x ∧ wanted traceKind (e.kind x) = true}.ncard) ∧
      ((∀ i, e.granted i = true) → ∃ n, r.outcome = .number n) := by
  have begun : (Tracer.init : Tracer α).work heap = heap.card := by
    simp [Tracer.work, Tracer.init]
  obtain ⟨less, listed⟩ := notifyAll_work (t := .init) e within nofun
  obtain ⟨⟨u, n⟩, run⟩ : ∃ last,
      countLoop e traceKind fuel (roots.foldl (countHeapNotify e) .init) 0 = some last :=
    Option.isSome_iff_exists.1 (countLoop_ends 0 closed listed (by omega))
  have owns := notifyAll_owns (e := e) roots (t := .init) (List.Perm.refl _)
  obtain ⟨owns, empty⟩ := countLoop_owns owns run
  rw [Tracer.Owns, empty] at owns
  refine ⟨_, by rw [count, run, Option.map_some], owns, fun k number => ?_, fun all => ?_⟩
  · dsimp only at number
    split at number
    · next ok =>
      have sound := Marks.visitAll_sound (Marks.start_sound e.children roots)
        fun x among => Reach.root among
      have follows : Follows e .init .start := ⟨rfl, rfl, nofun⟩
      have counted := countLoop_counts sound (notifyAll_follows follows (countLoop_ok run ok))
        (by rw [Marks.visitAll_done]; rfl) run ok
      exact (Outcome.number.inj number).symm.trans counted
    · cases number
  · have ok : u.ok = true := countLoop_granted all (notifyAll_granted all rfl) run
    exact ⟨n, by simp [ok]⟩

end Notify

/-- Two objects that refer to each other, a string both refer to, and an object out of reach. -/
def cycle : Engine ℕ where
  kind x := if x = 2 then .string else .object
  children x := if x = 0 then [1, 2] else if x = 1 then [0, 2] else if x = 3 then [0] else []
  runtime := []
  granted _ := true

example : (countHeap cycle (.thing 0) (some "object") true 5).map Result.outcome =
    some (.number 2) := by
  decide

end Sysjs.CountHeap
