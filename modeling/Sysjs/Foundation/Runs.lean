import Mathlib.Tactic.Common

/-!
# Runs of a step function

A step takes a state and a call to the result of the call and the next state, or to `none` when
the call does not return.  `Along step Q` says that every call of a run that returns satisfies
`Q`; `Guarded step G` is the same for a condition on the state before the call and the call.
-/

set_option autoImplicit false

namespace Sysjs.Runs

variable {σ ε ρ : Type*}

/-- Every call of the run that returns satisfies `Q`: state before, call, result, state after. -/
def Along (step : σ → ε → Option (ρ × σ)) (Q : σ → ε → ρ → σ → Prop) : σ → List ε → Prop
  | _, [] => True
  | s, e :: es => match step s e with
    | none => True
    | some (r, s') => Q s e r s' ∧ Along step Q s' es

/-- Every call of the run that returns meets the condition `G` on its input. -/
def Guarded (step : σ → ε → Option (ρ × σ)) (G : σ → ε → Prop) (s : σ) (es : List ε) : Prop :=
  Along step (fun s e _ _ => G s e) s es

/-- The results of the calls of a run, up to the first call that does not return. -/
def results (step : σ → ε → Option (ρ × σ)) : σ → List ε → List ρ
  | _, [] => []
  | s, e :: es => match step s e with
    | none => []
    | some (r, s') => r :: results step s' es

/-- The state left by the calls of a run that return. -/
def final (step : σ → ε → Option (ρ × σ)) : σ → List ε → σ
  | s, [] => s
  | s, e :: es => match step s e with
    | none => s
    | some (_, s') => final step s' es

/-- Two runs of the same calls: in both, each call asks its environment for the same, returns the
same, and leaves states related by `Same`; or it does not return. -/
def Lockstep {β : Type*} (step : σ → ε → Option (ρ × σ)) (ask : σ → ε → β)
    (Same : σ → σ → Prop) : σ → σ → List ε → Prop
  | _, _, [] => True
  | s, t, e :: es => ask s e = ask t e ∧ match step s e, step t e with
    | some (r, s'), some (r', t') => r = r' ∧ Same s' t' ∧ Lockstep step ask Same s' t' es
    | none, none => True
    | _, _ => False

/-- Each call of two runs meets the condition `G` on the two states before it, as long as it returns
in both. -/
def GuardedTwo (step : σ → ε → Option (ρ × σ)) (G : σ → σ → ε → Prop) : σ → σ → List ε → Prop
  | _, _, [] => True
  | s, t, e :: es => G s t e ∧ match step s e, step t e with
    | some (_, s'), some (_, t') => GuardedTwo step G s' t' es
    | _, _ => True

variable {step : σ → ε → Option (ρ × σ)} {Q : σ → ε → ρ → σ → Prop} {G : σ → ε → Prop}

theorem along_cons_of_none {s : σ} {e : ε} (es : List ε) (h : step s e = none) :
    Along step Q s (e :: es) := by
  simp [Along, h]

theorem along_cons_of_some {s s' : σ} {e : ε} {r : ρ} (es : List ε)
    (h : step s e = some (r, s')) :
    Along step Q s (e :: es) ↔ Q s e r s' ∧ Along step Q s' es := by
  simp [Along, h]

theorem results_cons_of_none {s : σ} {e : ε} (es : List ε) (h : step s e = none) :
    results step s (e :: es) = [] := by
  simp [results, h]

theorem results_cons_of_some {s s' : σ} {e : ε} {r : ρ} (es : List ε)
    (h : step s e = some (r, s')) :
    results step s (e :: es) = r :: results step s' es := by
  simp [results, h]

theorem final_cons_of_none {s : σ} {e : ε} (es : List ε) (h : step s e = none) :
    final step s (e :: es) = s := by
  simp [final, h]

theorem final_cons_of_some {s s' : σ} {e : ε} {r : ρ} (es : List ε)
    (h : step s e = some (r, s')) :
    final step s (e :: es) = final step s' es := by
  simp [final, h]

/-- What holds along a run holds of its last call, when the calls before it return. -/
theorem Along.last {s : σ} {es : List ε} {e : ε} (h : Along step Q s (es ++ [e]))
    (returned : (results step s es).length = es.length) {r : ρ} {s' : σ}
    (last : step (final step s es) e = some (r, s')) : Q (final step s es) e r s' := by
  induction es generalizing s with
  | nil => exact ((along_cons_of_some [] last).1 h).1
  | cons e' es ih =>
    cases here : step s e' with
    | none => simp [results, here] at returned
    | some next =>
      obtain ⟨r', t⟩ := next
      rw [results_cons_of_some es here, List.length_cons, List.length_cons] at returned
      rw [final_cons_of_some es here] at last ⊢
      exact ih ((along_cons_of_some _ here).1 h).2 (Nat.succ.inj returned) last

/-- A run whose last call fails a test that `Q` implies. -/
theorem not_along_of_last (test : σ → ε → ρ × σ → Bool)
    (implied : ∀ s e r s', Q s e r s' → test s e (r, s') = true) {s : σ} (es : List ε) (e : ε)
    (returned : (results step s es).length = es.length)
    (fails : (step (final step s es) e).any (fun x => !test (final step s es) e x) = true) :
    ¬ Along step Q s (es ++ [e]) := by
  intro h
  obtain ⟨⟨r, s'⟩, last, bad⟩ := (Option.any_eq_true _ _).1 fails
  simp [implied _ _ _ _ (h.last returned last)] at bad

theorem Guarded.last {s : σ} (es : List ε) (e : ε) (h : Guarded step G s (es ++ [e]))
    (returned : (results step s es).length = es.length)
    (called : (step (final step s es) e).isSome = true) : G (final step s es) e := by
  obtain ⟨⟨r, s'⟩, last⟩ := Option.isSome_iff_exists.1 called
  exact Along.last h returned last

theorem guarded_cons {s : σ} {e : ε} {es : List ε} (here : G s e)
    (rest : Guarded step G (final step s [e]) es) : Guarded step G s (e :: es) := by
  cases h : step s e with
  | none => exact along_cons_of_none es h
  | some next =>
    rw [final_cons_of_some [] h] at rest
    exact (along_cons_of_some es h).2 ⟨here, rest⟩

/-- An invariant that guarded steps preserve turns a guard along the run into `Q` along it. -/
theorem Guarded.along (Inv : σ → Prop)
    (preserved : ∀ s e r s', Inv s → G s e → step s e = some (r, s') → Q s e r s' ∧ Inv s')
    {s : σ} {es : List ε} (start : Inv s) (guarded : Guarded step G s es) : Along step Q s es := by
  induction es generalizing s with
  | nil => trivial
  | cons e es ih =>
    cases h : step s e with
    | none => exact along_cons_of_none es h
    | some next =>
      obtain ⟨r, s'⟩ := next
      obtain ⟨hg, rest⟩ := (along_cons_of_some es h).1 guarded
      obtain ⟨hq, hi⟩ := preserved s e r s' start hg h
      exact (along_cons_of_some es h).2 ⟨hq, ih hi rest⟩

/-- When the guard decides `Q` at every step from the invariant, it decides `Q` along every run: the
first call outside the guard is the first one that breaks `Q`.  The invariant may speak of the calls
still to come. -/
theorem along_iff_guarded_ahead (Inv : σ → List ε → Prop)
    (decides : ∀ s e es r s', Inv s (e :: es) → step s e = some (r, s') → (Q s e r s' ↔ G s e))
    (preserved : ∀ s e es r s', Inv s (e :: es) → step s e = some (r, s') → Q s e r s' → Inv s' es)
    {s : σ} (es : List ε) (start : Inv s es) : Along step Q s es ↔ Guarded step G s es := by
  induction es generalizing s with
  | nil => exact Iff.rfl
  | cons e es ih =>
    cases h : step s e with
    | none => exact iff_of_true (along_cons_of_none es h) (along_cons_of_none es h)
    | some next =>
      obtain ⟨r, s'⟩ := next
      rw [along_cons_of_some es h, Guarded, along_cons_of_some es h]
      have here := decides s e es r s' start h
      have later (hq : Q s e r s') := ih (preserved s e es r s' start h hq)
      constructor
      · rintro ⟨hq, rest⟩
        exact ⟨here.1 hq, (later hq).1 rest⟩
      · rintro ⟨hg, rest⟩
        have hq := here.2 hg
        exact ⟨hq, (later hq).2 rest⟩

/-- The guard decides `Q` along runs of calls from a domain, with an invariant of the state. -/
theorem along_iff_guarded_on (domain : ε → Prop) (Inv : σ → Prop)
    (decides : ∀ s e r s', Inv s → domain e → step s e = some (r, s') → (Q s e r s' ↔ G s e))
    (preserved : ∀ s e r s', Inv s → domain e → step s e = some (r, s') → Q s e r s' → Inv s')
    {s : σ} (es : List ε) (all : ∀ e ∈ es, domain e) (start : Inv s) :
    Along step Q s es ↔ Guarded step G s es := by
  refine along_iff_guarded_ahead (fun s es => Inv s ∧ ∀ e ∈ es, domain e) ?_ ?_ es ⟨start, all⟩
  · rintro s e es r s' ⟨inv, all⟩ h
    exact decides s e r s' inv (all e List.mem_cons_self) h
  · rintro s e es r s' ⟨inv, all⟩ h hq
    exact ⟨preserved s e r s' inv (all e List.mem_cons_self) h hq,
      fun e' later => all e' (List.mem_cons_of_mem _ later)⟩

theorem along_iff_guarded (Inv : σ → Prop)
    (decides : ∀ s e r s', Inv s → step s e = some (r, s') → (Q s e r s' ↔ G s e))
    (preserved : ∀ s e r s', Inv s → step s e = some (r, s') → Q s e r s' → Inv s')
    {s : σ} (es : List ε) (start : Inv s) : Along step Q s es ↔ Guarded step G s es :=
  along_iff_guarded_on (fun _ => True) Inv (fun s e r s' inv _ => decides s e r s' inv)
    (fun s e r s' inv _ => preserved s e r s' inv) es (fun _ _ => trivial) start

/-- The invariant rule for the final state: what every call preserves holds at the end. -/
theorem final_inv (Inv : σ → Prop)
    (preserved : ∀ s e r s', Inv s → step s e = some (r, s') → Inv s') {s : σ} (es : List ε)
    (start : Inv s) : Inv (final step s es) := by
  induction es generalizing s with
  | nil => exact start
  | cons e es ih =>
    cases h : step s e with
    | none => rwa [final_cons_of_none es h]
    | some next =>
      obtain ⟨r, s'⟩ := next
      rw [final_cons_of_some es h]
      exact ih (preserved s e r s' start h)

theorem guardedTwo_cons {G : σ → σ → ε → Prop} {s t : σ} {e : ε} {es : List ε} (here : G s t e)
    (rest : ∀ s' t', GuardedTwo step G s' t' es) : GuardedTwo step G s t (e :: es) := by
  refine ⟨here, ?_⟩
  rcases step s e with _ | ⟨r, s'⟩ <;> rcases step t e with _ | ⟨r', t'⟩
  · trivial
  · trivial
  · trivial
  · exact rest s' t'

/-- In step, a call returns in both runs or in none. -/
theorem Lockstep.isSome {β : Type*} {ask : σ → ε → β} {Same : σ → σ → Prop} {s t : σ} {e : ε}
    {es : List ε} (h : Lockstep step ask Same s t (e :: es)) :
    (step s e).isSome = (step t e).isSome := by
  have call := h.2
  rcases left : step s e with _ | ⟨r, s'⟩ <;> rcases right : step t e with _ | ⟨r', t'⟩
  · rfl
  · rw [left, right] at call
    exact call.elim
  · rw [left, right] at call
    exact call.elim
  · rfl

/-- The rule for two runs: a relation that guarded calls preserve, with the same results, keeps the
runs in step. -/
theorem GuardedTwo.lockstep {β : Type*} {ask : σ → ε → β} {G : σ → σ → ε → Prop}
    {Same : σ → σ → Prop} (R : σ → σ → Prop) (same : ∀ s t, R s t → Same s t)
    (call : ∀ s t e, R s t → G s t e → ask s e = ask t e ∧
      ((step s e = none ∧ step t e = none) ∨
        ∃ r s' t', step s e = some (r, s') ∧ step t e = some (r, t') ∧ R s' t'))
    {s t : σ} {es : List ε} (start : R s t) (guarded : GuardedTwo step G s t es) :
    Lockstep step ask Same s t es := by
  induction es generalizing s t with
  | nil => trivial
  | cons e es ih =>
    obtain ⟨here, later⟩ := guarded
    obtain ⟨asked, ⟨left, right⟩ | ⟨r, s', t', left, right, again⟩⟩ := call s t e start here
    · refine ⟨asked, ?_⟩
      rw [left, right]
      trivial
    · rw [left, right] at later
      refine ⟨asked, ?_⟩
      rw [left, right]
      exact ⟨rfl, same s' t' again, ih again later⟩

end Sysjs.Runs
