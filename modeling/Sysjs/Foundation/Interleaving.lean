import Mathlib.Tactic.Common
import Mathlib.Algebra.Order.Ring.Nat

/-!
# Interleavings of several parties

A step takes a state and a move of one of the parties, and is `none` when the move is not possible
in that state: the party waits.  `exec step s es` is the state a whole run of moves leaves, when
each of them is possible at its turn.  Some moves are idle: they come from outside and may undo a
bounded part of the progress made.
-/

set_option autoImplicit false

namespace Sysjs.Interleaving

variable {σ ε : Type*}

/-- A run of moves, each possible in the state the moves before it leave. -/
def exec (step : σ → ε → Option σ) : σ → List ε → Option σ
  | s, [] => some s
  | s, e :: es => (step s e).bind fun t => exec step t es

/-- Every state of a run satisfies `P`, as far as the run goes. -/
def Throughout (step : σ → ε → Option σ) (P : σ → Prop) : σ → List ε → Prop
  | s, [] => P s
  | s, e :: es => P s ∧ ∀ t, step s e = some t → Throughout step P t es

variable {step : σ → ε → Option σ}

@[simp] theorem exec_nil (s : σ) : exec step s [] = some s := rfl

theorem exec_cons_eq_some {s u : σ} {e : ε} {es : List ε} :
    exec step s (e :: es) = some u ↔ ∃ t, step s e = some t ∧ exec step t es = some u :=
  Option.bind_eq_some_iff

theorem exec_append (s : σ) (es fs : List ε) :
    exec step s (es ++ fs) = (exec step s es).bind fun t => exec step t fs := by
  induction es generalizing s with
  | nil => rfl
  | cons e es ih =>
    rw [List.cons_append, exec, exec, Option.bind_assoc]
    exact congrArg _ (funext ih)

/-- The invariant rule for runs whose moves all satisfy `P`. -/
theorem exec_inv_of_forall (Inv : σ → Prop) (P : ε → Prop)
    (preserved : ∀ s e t, Inv s → P e → step s e = some t → Inv t)
    {s u : σ} {es : List ε} (start : Inv s) (all : ∀ e ∈ es, P e)
    (run : exec step s es = some u) : Inv u := by
  induction es generalizing s with
  | nil =>
    rw [exec_nil, Option.some.injEq] at run
    rwa [← run]
  | cons e es ih =>
    obtain ⟨t, first, later⟩ := exec_cons_eq_some.1 run
    obtain ⟨here, rest⟩ := List.forall_mem_cons.1 all
    exact ih (preserved s e t start here first) rest later

/-- The invariant rule: what every move preserves holds after every run. -/
theorem exec_inv (Inv : σ → Prop) (preserved : ∀ s e t, Inv s → step s e = some t → Inv t)
    {s u : σ} {es : List ε} (start : Inv s) (run : exec step s es = some u) : Inv u :=
  exec_inv_of_forall Inv (fun _ => True) (fun s e t inv _ => preserved s e t inv) start
    (fun _ _ => trivial) run

theorem Throughout.start {P : σ → Prop} {s : σ} {es : List ε} (h : Throughout step P s es) :
    P s := by
  cases es with
  | nil => exact h
  | cons e es => exact h.1

/-- The invariant rule for runs whose states all satisfy `P`. -/
theorem exec_inv_throughout (Inv P : σ → Prop)
    (preserved : ∀ s e t, Inv s → P s → P t → step s e = some t → Inv t)
    {s u : σ} {es : List ε} (start : Inv s) (all : Throughout step P s es)
    (run : exec step s es = some u) : Inv u ∧ P u := by
  induction es generalizing s with
  | nil =>
    rw [exec_nil, Option.some.injEq] at run
    rw [← run]
    exact ⟨start, all⟩
  | cons e es ih =>
    obtain ⟨t, first, later⟩ := exec_cons_eq_some.1 run
    have rest := all.2 t first
    exact ih (preserved s e t start all.1 rest.start first) rest later

/-- The measure rule: when each move lowers the measure, and an idle one raises it by at most `k`,
the length of a run is bounded by the measure at its start and by its idle moves. -/
theorem length_le (Inv : σ → Prop) (preserved : ∀ s e t, Inv s → step s e = some t → Inv t)
    (measure : σ → ℕ) (idle : ε → Bool) (k : ℕ)
    (busy : ∀ s e t, Inv s → step s e = some t → idle e = false → measure t < measure s)
    (raise : ∀ s e t, Inv s → step s e = some t → idle e = true → measure t ≤ measure s + k)
    {s u : σ} {es : List ε} (start : Inv s) (run : exec step s es = some u) :
    es.length + measure u ≤ measure s + (k + 1) * es.countP idle := by
  induction es generalizing s with
  | nil =>
    rw [exec_nil, Option.some.injEq] at run
    simp [run]
  | cons e es ih =>
    obtain ⟨t, first, later⟩ := exec_cons_eq_some.1 run
    have rest := ih (preserved s e t start first) later
    cases kind : idle e with
    | false =>
      have := busy s e t start first kind
      rw [List.countP_cons_of_neg (by simp [kind]), List.length_cons]
      omega
    | true =>
      have := raise s e t start first kind
      rw [List.countP_cons_of_pos kind, List.length_cons, Nat.mul_succ]
      omega

/-- When some move of the kind `P` is possible until the end, and all of them lower the measure, the
end can be reached from everywhere with such moves. -/
theorem exists_finish (Inv : σ → Prop) (P : ε → Prop)
    (preserved : ∀ s e t, Inv s → P e → step s e = some t → Inv t) (measure : σ → ℕ)
    (busy : ∀ s e t, Inv s → P e → step s e = some t → measure t < measure s)
    (done : σ → Prop) (moves : ∀ s, Inv s → ¬ done s → ∃ e t, P e ∧ step s e = some t)
    {s : σ} (start : Inv s) : ∃ es u, (∀ e ∈ es, P e) ∧ exec step s es = some u ∧ done u := by
  induction bound : measure s using Nat.strong_induction_on generalizing s with
  | _ m ih =>
    by_cases finished : done s
    · exact ⟨[], s, List.forall_mem_nil _, rfl, finished⟩
    · obtain ⟨e, t, kind, first⟩ := moves s start finished
      have less := busy s e t start kind first
      obtain ⟨es, u, all, run, finish⟩ :=
        ih _ (bound ▸ less) (preserved s e t start kind first) rfl
      exact ⟨e :: es, u, List.forall_mem_cons.2 ⟨kind, all⟩, exec_cons_eq_some.2 ⟨t, first, run⟩,
        finish⟩

end Sysjs.Interleaving
