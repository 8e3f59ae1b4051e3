import Sysjs.Ape.Handlers

/-!
# Malformed messages

What a message that is not well formed does to the others of its array and to the state.
-/

set_option autoImplicit false

namespace Sysjs.Ape

open Runs

variable (e : Engine)

/-- The state before an array: its pipes were made for none of the messages. -/
def State.settle (s : State) : State :=
  { s with
    pipes := fun k => (s.pipes k).map fun pp => { pp with created := none }
    names := fun k => (s.names k).map fun pp => { pp with created := none } }

/-- The messages for which a handler is called, in order. -/
def handled : State → List (Json × ℕ) → List (Json × ℕ)
  | _, [] => []
  | s, raw :: rest => match handleMsg e s raw with
    | none => []
    | some (none, s) => handled s rest
    | some (some _, s) => raw :: handled s rest

/-- What `handle` should do: call the handler of each well formed message once and in order, leave
the state as it was at every other message, and end as if these were not in the array. -/
structure Isolated (s : State) (raws : List (Json × ℕ)) : Prop where
  handled : (handled e s raws).filter (fun raw => wellFormed e raw.1) =
    raws.filter fun raw => wellFormed e raw.1
  idle : Along (handleMsg e) (fun s raw _ s' => wellFormed e raw.1 = false → s' = s) s raws
  final : final (handleMsg e) s raws =
    final (handleMsg e) s (raws.filter fun raw => wellFormed e raw.1)

/-- The handler finds nothing to assign to the state, or what it assigns is there already. -/
def Handler.Quiet (s : State) (raw : Json) : Handler → Prop
  | .login => ∀ v, dataField raw "sessid" = some v → s.sessid = v ∧ s.connected = true
  | .ident => ∀ v, dataField raw "user" = some v → s.user = v
  | .channel => (dataField raw "pipe").bind (pipeKey e) = none
  | _ => True

/-- The condition on the array: no well formed message stands behind one whose `raw` is no string,
and the handler of a malformed message has nothing to assign. -/
structure Harmless (s : State) (raws : List (Json × ℕ)) : Prop where
  reached : ∀ before raw after, raws = before ++ raw :: after → rawText raw.1 = none →
    ∀ later ∈ after, wellFormed e later.1 = false
  quiet : Guarded (handleMsg e) (fun s raw => wellFormed e raw.1 = false →
    ∀ handler, handlerOf e raw.1 = some handler → handler.Quiet e s raw.1) s raws

/-! ### Which messages are handled -/

theorem wellFormed_of_rawText_none {raw : Json} (textless : rawText raw = none) :
    wellFormed e raw = false := by
  simp [wellFormed, handlerOf, textless]

/-- The condition that no well formed message stands behind one that ends the array. -/
def Reached (raws : List (Json × ℕ)) : Prop :=
  ∀ before raw after, raws = before ++ raw :: after → rawText raw.1 = none →
    ∀ later ∈ after, wellFormed e later.1 = false

theorem reached_cons (raw : Json × ℕ) (rest : List (Json × ℕ)) :
    Reached e (raw :: rest) ↔
      (rawText raw.1 = none → ∀ later ∈ rest, wellFormed e later.1 = false) ∧ Reached e rest := by
  constructor
  · intro reached
    refine ⟨reached [] raw rest rfl, fun before raw' after split => ?_⟩
    exact reached (raw :: before) raw' after (congrArg (raw :: ·) split)
  · rintro ⟨here, later⟩ before raw' after split
    cases before with
    | nil =>
      obtain ⟨rfl, rfl⟩ := List.cons.inj split
      exact here
    | cons first before =>
      exact later before raw' after (List.cons.inj split).2

/-- The well formed messages are all handled exactly when `handle` reaches them. -/
theorem handled_iff_reached (s : State) (raws : List (Json × ℕ)) :
    (handled e s raws).filter (fun raw => wellFormed e raw.1) =
      raws.filter (fun raw => wellFormed e raw.1) ↔ Reached e raws := by
  induction raws generalizing s with
  | nil => simp [handled, Reached]
  | cons raw rest ih =>
    rw [reached_cons]
    cases here : handleMsg e s raw with
    | none =>
      have textless := (handleMsg_eq_none_iff e s raw).1 here
      have bad := wellFormed_of_rawText_none e textless
      have skipped : (raw :: rest).filter (fun raw => wellFormed e raw.1) =
          rest.filter fun raw => wellFormed e raw.1 := List.filter_cons_of_neg (by simp [bad])
      have stopped : handled e s (raw :: rest) = [] := by
        simp [handled, here]
      have none_left : ([] = rest.filter fun raw => wellFormed e raw.1) ↔
          ∀ later ∈ rest, wellFormed e later.1 = false := by
        rw [eq_comm, List.filter_eq_nil_iff]
        simp only [Bool.not_eq_true]
      rw [stopped, skipped, List.filter_nil, none_left]
      refine ⟨fun all => ⟨fun _ => all, ?_⟩, fun both => both.1 textless⟩
      rintro before raw' after rfl _ later among
      exact all later (List.mem_append_right _ (List.mem_cons_of_mem _ among))
    | some next =>
      obtain ⟨called, s'⟩ := next
      have texted : rawText raw.1 ≠ none := fun textless => by
        simp [(handleMsg_eq_none_iff e s raw).2 textless] at here
      rw [← ih s']
      cases called with
      | none =>
        have bad : wellFormed e raw.1 = false := by
          simp [wellFormed, (handleMsg_eq_some e here).1]
        simp [handled, here, bad, texted]
      | some handler =>
        simp only [handled, here, List.filter_cons, texted, false_implies, true_and]
        cases wellFormed e raw.1 with
        | true => simp
        | false => simp

/-! ### Which messages change the state -/

/-- The state holds no pipe of the messages to come, and these have different numbers. -/
structure State.Fresh (s : State) (raws : List (Json × ℕ)) : Prop where
  unowned : ∀ raw ∈ raws, ∀ key, ¬ s.OwnedBy raw.2 key
  apart : (raws.map Prod.snd).Nodup

/-- One message leaves the state fresh for the next ones. -/
theorem State.Fresh.next {s s' : State} {raw : Json × ℕ} {rest : List (Json × ℕ)}
    {called : Option Handler} (fresh : s.Fresh (raw :: rest))
    (returned : handleMsg e s raw = some (called, s')) : s'.Fresh rest := by
  have apart := List.nodup_cons.1 fresh.apart
  have pipes (key : Str) : s'.pipes key = s.pipes key ∨ s'.OwnedBy raw.2 key := by
    rw [(handleMsg_eq_some e returned).2]
    cases called with
    | none => exact Or.inl rfl
    | some handler => exact run_pipes e s raw.2 raw.1 handler key
  refine ⟨fun raw' later key owned => ?_, apart.2⟩
  obtain ⟨pp, i, found, made⟩ := owned
  rcases pipes key with same | ⟨pp', i', found', made'⟩
  · exact fresh.unowned raw' (List.mem_cons_of_mem _ later) key ⟨pp, i, same ▸ found, made⟩
  · rw [found, Option.some.injEq] at found'
    rw [← found', made, Option.some.injEq, Prod.mk.injEq] at made'
    exact apart.1 (made'.1 ▸ List.mem_map_of_mem later)

theorem State.settle_fresh (s : State) (rawArr : List Json) : s.settle.Fresh rawArr.zipIdx := by
  refine ⟨fun raw _ key owned => ?_, ?_⟩
  · obtain ⟨pp, i, found, made⟩ := owned
    obtain ⟨pp', -, rfl⟩ := Option.map_eq_some_iff.1 found
    exact Option.some_ne_none _ made.symm
  · rw [List.zipIdx_map_snd]
    exact List.nodup_range'

theorem login_idle_iff (s : State) (id : ℕ) (raw : Json) :
    caught (Handler.login.run e s id (some raw)) = s ↔ Handler.login.Quiet e s raw := by
  rw [login_caught]
  unfold Handler.Quiet
  cases dataField raw "sessid" with
  | none => simp
  | some v =>
    simp only [Option.elim_some, Option.some.injEq, forall_eq']
    constructor
    · intro same
      exact ⟨(congrArg State.sessid same).symm, (congrArg State.connected same).symm⟩
    · rintro ⟨rfl, connected⟩
      rw [← connected]

theorem ident_idle_iff (s : State) (id : ℕ) (raw : Json) :
    caught (Handler.ident.run e s id (some raw)) = s ↔ Handler.ident.Quiet e s raw := by
  rw [ident_caught]
  unfold Handler.Quiet
  cases dataField raw "user" with
  | none => simp
  | some v =>
    simp only [Option.elim_some, Option.some.injEq, forall_eq']
    constructor
    · intro same
      exact (congrArg State.user same).symm
    · rintro rfl
      rfl

/-- A channel whose pipe has a key is entered, under a pipe that was not there before. -/
theorem channel_idle_iff {s : State} {id : ℕ} (fresh : ∀ key, ¬ s.OwnedBy id key) (raw : Json) :
    caught (Handler.channel.run e s id (some raw)) = s ↔ Handler.channel.Quiet e s raw := by
  unfold Handler.Quiet
  cases keyed : (dataField raw "pipe").bind (pipeKey e) with
  | none => exact iff_of_true (channel_caught_of_none e s id keyed) rfl
  | some key =>
    refine iff_of_false (fun same => ?_) (Option.some_ne_none key)
    have owned := channel_ownedBy e s id keyed
    rw [same] at owned
    exact fresh key owned

/-- When the state holds no pipe of the message yet, its handler leaves the state as it was exactly
when it finds nothing to assign. -/
theorem run_idle_iff {s : State} {id : ℕ} (fresh : ∀ key, ¬ s.OwnedBy id key) (raw : Json)
    (handler : Handler) :
    caught (handler.run e s id (some raw)) = s ↔ handler.Quiet e s raw := by
  have reads (writes : handler ≠ .login ∧ handler ≠ .ident ∧ handler ≠ .channel) :=
    run_caught_of_reads e s id (some raw) writes.1 writes.2.1 writes.2.2
  cases handler with
  | login => exact login_idle_iff e s id raw
  | ident => exact ident_idle_iff e s id raw
  | channel => exact channel_idle_iff e fresh raw
  | err => exact iff_of_true (reads (by decide)) trivial
  | data => exact iff_of_true (reads (by decide)) trivial
  | join => exact iff_of_true (reads (by decide)) trivial
  | left => exact iff_of_true (reads (by decide)) trivial

/-- The malformed messages leave the state alone exactly when none has anything to assign. -/
theorem idle_iff_quiet {s : State} (raws : List (Json × ℕ)) (fresh : s.Fresh raws) :
    Along (handleMsg e) (fun s raw _ s' => wellFormed e raw.1 = false → s' = s) s raws ↔
      Guarded (handleMsg e) (fun s raw => wellFormed e raw.1 = false →
        ∀ handler, handlerOf e raw.1 = some handler → handler.Quiet e s raw.1) s raws := by
  refine along_iff_guarded_ahead State.Fresh ?_ ?_ raws fresh
  · intro s raw rest called s' fresh returned
    refine imp_congr_right fun _ => ?_
    obtain ⟨named, rfl⟩ := handleMsg_eq_some e returned
    rw [named]
    cases called with
    | none => simp
    | some handler =>
      simp only [Option.elim_some, Option.some.injEq, forall_eq']
      exact run_idle_iff e (fresh.unowned raw List.mem_cons_self) raw.1 handler
  · intro s raw rest called s' fresh returned _
    exact fresh.next e returned

/-- When all are reached and the malformed ones leave the state alone, the final state is that of
the well formed ones. -/
theorem final_eq_of_idle {s : State} {raws : List (Json × ℕ)} (reached : Reached e raws)
    (idle : Along (handleMsg e) (fun s raw _ s' => wellFormed e raw.1 = false → s' = s) s raws) :
    final (handleMsg e) s raws =
      final (handleMsg e) s (raws.filter fun raw => wellFormed e raw.1) := by
  induction raws generalizing s with
  | nil => rfl
  | cons raw rest ih =>
    obtain ⟨behind, reached⟩ := (reached_cons e raw rest).1 reached
    cases here : handleMsg e s raw with
    | none =>
      have textless := (handleMsg_eq_none_iff e s raw).1 here
      have empty : (rest.filter fun raw => wellFormed e raw.1) = [] :=
        List.filter_eq_nil_iff.2 fun later among => by simp [behind textless later among]
      rw [final_cons_of_none rest here]
      simp only [List.filter_cons, wellFormed_of_rawText_none e textless, empty]
      rfl
    | some next =>
      obtain ⟨called, s'⟩ := next
      obtain ⟨same, idle⟩ := (along_cons_of_some rest here).1 idle
      rw [final_cons_of_some rest here, ih reached idle]
      cases good : wellFormed e raw.1 with
      | true =>
        have kept : (raw :: rest).filter (fun raw => wellFormed e raw.1) =
            raw :: rest.filter fun raw => wellFormed e raw.1 := List.filter_cons_of_pos good
        rw [kept, final_cons_of_some _ here]
      | false =>
        have skipped : (raw :: rest).filter (fun raw => wellFormed e raw.1) =
            rest.filter fun raw => wellFormed e raw.1 := List.filter_cons_of_neg (by simp [good])
        rw [skipped, same good]

/-- A malformed message does no harm exactly when no well formed one stands behind a message whose
`raw` is no string, and no handler of a malformed one has anything to assign. -/
theorem handle_isolated_iff (s : State) (rawArr : List Json) :
    Isolated e s.settle rawArr.zipIdx ↔ Harmless e s.settle rawArr.zipIdx := by
  have reached := handled_iff_reached e s.settle rawArr.zipIdx
  have quiet := idle_iff_quiet e rawArr.zipIdx (s.settle_fresh rawArr)
  constructor
  · intro isolated
    exact ⟨reached.1 isolated.handled, quiet.1 isolated.idle⟩
  · intro harmless
    have idle := quiet.2 harmless.quiet
    exact ⟨reached.2 harmless.reached, idle, final_eq_of_idle e harmless.reached idle⟩

/-- An array of `null` and a login: the login is never handled. -/
theorem handle_isolated_not_null :
    ¬ Isolated Engine.ascii State.start.settle
      [.null, .obj [("raw".toList, .str "LOGIN".toList),
        ("data".toList, .obj [("sessid".toList, .str "1".toList)])]].zipIdx :=
  fun isolated => absurd (congrArg List.length isolated.handled) (by decide)

end Sysjs.Ape
