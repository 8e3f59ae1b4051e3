import Mathlib.Tactic.Common

/-!
# Loops fed with answers

A loop whose every iteration asks its environment for one answer, for instance a system call.
`body s a` leaves the loop with a result (`Sum.inl`) or goes round again (`Sum.inr`).  A loop that
runs out of answers is still waiting.
-/

set_option autoImplicit false

namespace Sysjs.Feed

variable {σ ι ρ : Type*}

/-- Run the loop: its result and the answers it did not ask for. -/
def feed (body : σ → ι → ρ ⊕ σ) : σ → List ι → Option (ρ × List ι)
  | _, [] => none
  | s, a :: rest => match body s a with
    | .inl r => some (r, rest)
    | .inr s' => feed body s' rest

/-- Every iteration the loop executes starts with a state and an answer that meet `G`. -/
def FeedAll (body : σ → ι → ρ ⊕ σ) (G : σ → ι → Prop) : σ → List ι → Prop
  | _, [] => True
  | s, a :: rest => G s a ∧ match body s a with
    | .inl _ => True
    | .inr s' => FeedAll body G s' rest

/-- The states at the head of every iteration the loop enters; in the last one it may be waiting for
its answer. -/
def heads (body : σ → ι → ρ ⊕ σ) : σ → List ι → List σ
  | s, [] => [s]
  | s, a :: rest => s :: match body s a with
    | .inl _ => []
    | .inr s' => heads body s' rest

/-- Two loops that are given the same answers: every iteration that both execute starts with states
and an answer that meet `G`. -/
def FeedBoth (body : σ → ι → ρ ⊕ σ) (G : σ → σ → ι → Prop) : σ → σ → List ι → Prop
  | _, _, [] => True
  | s, t, a :: rest => G s t a ∧ match body s a, body t a with
    | .inr s', .inr t' => FeedBoth body G s' t' rest
    | _, _ => True

variable {body : σ → ι → ρ ⊕ σ} {G : σ → ι → Prop}

theorem feed_cons_inl {s : σ} {a : ι} {r : ρ} (rest : List ι) (h : body s a = .inl r) :
    feed body s (a :: rest) = some (r, rest) := by
  simp [feed, h]

theorem feed_cons_inr {s s' : σ} {a : ι} (rest : List ι) (h : body s a = .inr s') :
    feed body s (a :: rest) = feed body s' rest := by
  simp [feed, h]

theorem feedAll_cons_inl {s : σ} {a : ι} {r : ρ} (rest : List ι) (h : body s a = .inl r) :
    FeedAll body G s (a :: rest) ↔ G s a := by
  simp [FeedAll, h]

theorem feedAll_cons_inr {s s' : σ} {a : ι} (rest : List ι) (h : body s a = .inr s') :
    FeedAll body G s (a :: rest) ↔ G s a ∧ FeedAll body G s' rest := by
  simp [FeedAll, h]

theorem heads_cons_inl {s : σ} {a : ι} {r : ρ} (rest : List ι) (h : body s a = .inl r) :
    heads body s (a :: rest) = [s] := by
  simp [heads, h]

theorem heads_cons_inr {s s' : σ} {a : ι} (rest : List ι) (h : body s a = .inr s') :
    heads body s (a :: rest) = s :: heads body s' rest := by
  simp [heads, h]

theorem head_mem_heads (body : σ → ι → ρ ⊕ σ) (s : σ) (as : List ι) : s ∈ heads body s as := by
  cases as <;> exact List.mem_cons_self

theorem feedBoth_singleton {G : σ → σ → ι → Prop} {s t : σ} {a : ι} :
    FeedBoth body G s t [a] ↔ G s t a := by
  cases left : body s a <;> cases right : body t a <;> simp [FeedBoth, left, right]

theorem feedAll_singleton {s : σ} {a : ι} : FeedAll body G s [a] ↔ G s a := by
  cases h : body s a with
  | inl r => exact feedAll_cons_inl [] h
  | inr s' => exact (feedAll_cons_inr [] h).trans (and_iff_left trivial)

/-- An invariant at the loop head that implies the guard. -/
theorem feedAll_inv (Inv : σ → Prop) (here : ∀ s a, Inv s → G s a)
    (again : ∀ s a s', Inv s → body s a = .inr s' → Inv s') {s : σ} (as : List ι) (start : Inv s) :
    FeedAll body G s as := by
  induction as generalizing s with
  | nil => trivial
  | cons a rest ih =>
    cases h : body s a with
    | inl r => exact (feedAll_cons_inl rest h).2 (here s a start)
    | inr s' => exact (feedAll_cons_inr rest h).2 ⟨here s a start, ih (again s a s' start h)⟩

theorem feedAll_true (body : σ → ι → ρ ⊕ σ) (s : σ) (as : List ι) :
    FeedAll body (fun _ _ => True) s as :=
  feedAll_inv (fun _ => True) (fun _ _ _ => trivial) (fun _ _ _ _ _ => trivial) as trivial

/-- The loop rule: an invariant at the loop head, under the guard, gives the postcondition. -/
theorem feed_rule (Inv : σ → Prop) (Post : ρ → Prop)
    (leave : ∀ s a r, Inv s → G s a → body s a = .inl r → Post r)
    (again : ∀ s a s', Inv s → G s a → body s a = .inr s' → Inv s')
    {s : σ} {as rest : List ι} {r : ρ} (start : Inv s) (guarded : FeedAll body G s as)
    (done : feed body s as = some (r, rest)) : Post r := by
  induction as generalizing s with
  | nil => simp [feed] at done
  | cons a as ih =>
    cases h : body s a with
    | inl r' =>
      rw [feed_cons_inl as h, Option.some.injEq, Prod.mk.injEq] at done
      obtain ⟨rfl, -⟩ := done
      exact leave s a r' start ((feedAll_cons_inl as h).1 guarded) h
    | inr s' =>
      rw [feed_cons_inr as h] at done
      obtain ⟨hg, later⟩ := (feedAll_cons_inr as h).1 guarded
      exact ih (again s a s' start hg h) later done

/-- The loop rule without a guard. -/
theorem feed_inv (Inv : σ → Prop) (Post : ρ → Prop)
    (leave : ∀ s a r, Inv s → body s a = .inl r → Post r)
    (again : ∀ s a s', Inv s → body s a = .inr s' → Inv s')
    {s : σ} {as rest : List ι} {r : ρ} (start : Inv s)
    (done : feed body s as = some (r, rest)) : Post r :=
  feed_rule Inv Post (fun s a r hi _ h => leave s a r hi h) (fun s a s' hi _ h => again s a s' hi h)
    start (feedAll_true body s as) done

/-- When only the iteration that leaves can be outside the guard, the guard along the loop is the
postcondition of its result. -/
theorem feedAll_iff (Inv : σ → Prop) (Post : ρ → Prop)
    (leave : ∀ s a r, Inv s → body s a = .inl r → (G s a ↔ Post r))
    (again : ∀ s a s', Inv s → body s a = .inr s' → G s a ∧ Inv s')
    {s : σ} {as rest : List ι} {r : ρ} (start : Inv s)
    (done : feed body s as = some (r, rest)) : FeedAll body G s as ↔ Post r := by
  induction as generalizing s with
  | nil => simp [feed] at done
  | cons a as ih =>
    cases h : body s a with
    | inl r' =>
      rw [feed_cons_inl as h, Option.some.injEq, Prod.mk.injEq] at done
      obtain ⟨rfl, -⟩ := done
      rw [feedAll_cons_inl as h]
      exact leave s a r' start h
    | inr s' =>
      rw [feed_cons_inr as h] at done
      obtain ⟨hg, hi⟩ := again s a s' start h
      rw [feedAll_cons_inr as h]
      exact (and_iff_right hg).trans (ih hi done)

/-- The rule for two loops with the same answers: a relation between their states at the loop heads,
under the guard, makes them ask the same and end together with related results. -/
theorem FeedBoth.lockstep {β : Type*} {G : σ → σ → ι → Prop} {s t : σ} {as : List ι}
    (guarded : FeedBoth body G s t as) (R : σ → σ → Prop) (Post : ρ → ρ → Prop) (ask : σ → β)
    (same : ∀ s t, R s t → ask s = ask t)
    (round : ∀ s t a, R s t → G s t a →
      (∃ r r', body s a = .inl r ∧ body t a = .inl r' ∧ Post r r') ∨
      ∃ s' t', body s a = .inr s' ∧ body t a = .inr t' ∧ R s' t')
    (start : R s t) :
    (heads body s as).map ask = (heads body t as).map ask ∧
    ((feed body s as = none ∧ feed body t as = none) ∨
      ∃ r r' rest, feed body s as = some (r, rest) ∧ feed body t as = some (r', rest) ∧
        Post r r') := by
  induction as generalizing s t with
  | nil => exact ⟨by simp [heads, same s t start], Or.inl ⟨rfl, rfl⟩⟩
  | cons a as ih =>
    obtain ⟨here, later⟩ := guarded
    rcases round s t a start here with ⟨r, r', left, right, post⟩ | ⟨s', t', left, right, again⟩
    · rw [heads_cons_inl as left, heads_cons_inl as right, feed_cons_inl as left,
        feed_cons_inl as right]
      exact ⟨by simp [same s t start], Or.inr ⟨r, r', as, rfl, rfl, post⟩⟩
    · rw [left, right] at later
      rw [heads_cons_inr as left, heads_cons_inr as right, feed_cons_inr as left,
        feed_cons_inr as right, List.map_cons, List.map_cons, same s t start]
      obtain ⟨asked, ends⟩ := ih later again
      exact ⟨by rw [asked], ends⟩

end Sysjs.Feed
