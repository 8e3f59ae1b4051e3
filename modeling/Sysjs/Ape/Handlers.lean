import Sysjs.Ape.Proto

/-!
# What one message does

Handlers read and enter pipes; whether they throw or not, what they leave of the state they found
is told here once, for single messages.
-/

set_option autoImplicit false

namespace Sysjs.Ape

variable (e : Engine)

/-- The value of `data` under a name, `none` for an exception. -/
def dataField (raw : Json) (name : String) : Option Value :=
  (prop (some raw) "data").bind fun data => prop data name

/-- The key under which a pipe is entered, `none` for an exception. -/
def pipeKey (p : Value) : Option Str := (prop p "pubid").bind e.key

theorem caught_orThrow_bind {P : State → Prop} {α : Type} {s : State} {o : Option α}
    {f : α → Except State State} (throws : P s) (goes : ∀ x, o = some x → P (caught (f x))) :
    P (caught (orThrow s o >>= f)) := by
  cases o with
  | none => exact throws
  | some x => exact goes x rfl

theorem orThrow_bind_of_some {α : Type} {s : State} {o : Option α} {x : α}
    (present : o = some x) (f : α → Except State State) : orThrow s o >>= f = f x := by
  rw [present]
  rfl

theorem caught_bind {P : State → Prop} {m : Except State State} {f : State → Except State State}
    (first : P (caught m)) (later : ∀ s, P s → P (caught (f s))) : P (caught (m >>= f)) := by
  cases m with
  | error s => exact first
  | ok s => exact later s first

/-- A pipe that was made for the message `id` is stored under the key. -/
def State.OwnedBy (id : ℕ) (key : Str) (s : State) : Prop :=
  ∃ pp i, s.pipes key = some pp ∧ pp.created = some (id, i)

/-- The message `id` has only put pipes of its own into the two maps. -/
structure Entered (id : ℕ) (s s' : State) : Prop where
  connected : s'.connected = s.connected
  sessid : s'.sessid = s.sessid
  user : s'.user = s.user
  pipes : ∀ key, s'.pipes key = s.pipes key ∨ s'.OwnedBy id key
  kept : ∀ key, s.OwnedBy id key → s'.OwnedBy id key

theorem Entered.refl (id : ℕ) (s : State) : Entered id s s :=
  ⟨rfl, rfl, rfl, fun _ => Or.inl rfl, fun _ owned => owned⟩

theorem Entered.trans {id : ℕ} {s t u : State} (first : Entered id s t) (second : Entered id t u) :
    Entered id s u where
  connected := second.connected.trans first.connected
  sessid := second.sessid.trans first.sessid
  user := second.user.trans first.user
  pipes key := by
    rcases second.pipes key with same | owned
    · rcases first.pipes key with same' | owned
      · exact Or.inl (same.trans same')
      · exact Or.inr (second.kept key owned)
    · exact Or.inr owned
  kept key owned := second.kept key (first.kept key owned)

theorem setPipe_ownedBy (s : State) (id i : ℕ) (key : Str) (p : Value) :
    (s.setPipe key ⟨some (id, i), p⟩).OwnedBy id key :=
  ⟨⟨some (id, i), p⟩, i, Function.update_self _ _ _, rfl⟩

theorem setPipe_entered (s : State) (id i : ℕ) (key : Str) (p : Value) :
    Entered id s (s.setPipe key ⟨some (id, i), p⟩) := by
  have here := setPipe_ownedBy s id i key p
  refine ⟨rfl, rfl, rfl, fun key' => ?_, fun key' owned => ?_⟩
  · by_cases same : key' = key
    · exact Or.inr (same ▸ here)
    · exact Or.inl (Function.update_of_ne same _ _)
  · by_cases same : key' = key
    · exact same ▸ here
    · obtain ⟨pp, j, found, made⟩ := owned
      exact ⟨pp, j, (Function.update_of_ne same _ _).trans found, made⟩

theorem setName_entered (s : State) (id : ℕ) (key : Str) (pp : Pipe) :
    Entered id s (s.setName key pp) :=
  ⟨rfl, rfl, rfl, fun _ => Or.inl rfl, fun _ owned => owned⟩

theorem enter_entered (s : State) (id i : ℕ) (p : Value) :
    Entered id s (caught (enter e s (id, i) p)) := by
  unfold enter
  refine caught_orThrow_bind (.refl id s) fun pubid _ => ?_
  refine caught_orThrow_bind (.refl id s) fun key _ => ?_
  have stored := setPipe_entered s id i key p
  refine caught_orThrow_bind stored fun properties _ => ?_
  refine caught_orThrow_bind stored fun name _ => ?_
  refine caught_orThrow_bind stored fun nameKey _ => ?_
  exact stored.trans (setName_entered _ id nameKey _)

theorem enterUsers_entered (s : State) (id i : ℕ) (users : List Value) :
    Entered id s (caught (enterUsers e id s i users)) := by
  induction users generalizing s i with
  | nil => exact .refl id s
  | cons user users ih =>
    unfold enterUsers
    exact caught_bind (enter_entered e s id (i + 1) user)
      fun s' entered => entered.trans (ih s' (i + 1))

/-- A pipe without a key changes nothing. -/
theorem enter_of_pipeKey_none (s : State) (created : ℕ × ℕ) {p : Value}
    (keyless : pipeKey e p = none) : enter e s created p = .error s := by
  unfold pipeKey at keyless
  unfold enter
  cases found : prop p "pubid" with
  | none => rfl
  | some pubid =>
    rw [found, Option.bind_some] at keyless
    rw [orThrow_bind_of_some rfl, keyless]
    rfl

/-- One with a key is stored, whatever happens next. -/
theorem enter_ownedBy (s : State) (id i : ℕ) {p : Value} {key : Str}
    (keyed : pipeKey e p = some key) : (caught (enter e s (id, i) p)).OwnedBy id key := by
  obtain ⟨pubid, found, spelled⟩ := Option.bind_eq_some_iff.1 keyed
  have stored := setPipe_ownedBy s id i key p
  unfold enter
  rw [orThrow_bind_of_some found, orThrow_bind_of_some spelled]
  refine caught_orThrow_bind stored fun properties _ => ?_
  refine caught_orThrow_bind stored fun name _ => ?_
  refine caught_orThrow_bind stored fun nameKey _ => ?_
  exact (setName_entered _ id nameKey _).kept key stored

/-- What is left of `handleChannel` behind the first `enter`. -/
theorem handleChannel_later (s : State) (id : ℕ) (chnl p : Value) :
    Entered id s (caught (do
      let casttype ← orThrow s (prop p "casttype")
      let multi ← orThrow s (e.isMulti casttype)
      if multi then
        let users ← orThrow s (prop chnl "users")
        let users ← orThrow s (e.elements users)
        enterUsers e id s 0 users
      else .ok s)) := by
  refine caught_orThrow_bind (.refl id s) fun casttype _ => ?_
  refine caught_orThrow_bind (.refl id s) fun multi _ => ?_
  cases multi with
  | false => exact .refl id s
  | true =>
    refine caught_orThrow_bind (.refl id s) fun users _ => ?_
    refine caught_orThrow_bind (.refl id s) fun elems _ => ?_
    exact enterUsers_entered e s id 0 elems

theorem handleChannel_entered (s : State) (id : ℕ) (chnl : Value) :
    Entered id s (caught (handleChannel e s id chnl)) := by
  unfold handleChannel
  refine caught_orThrow_bind (.refl id s) fun p _ => ?_
  exact caught_bind (enter_entered e s id 0 p)
    fun s' entered => entered.trans (handleChannel_later e s' id chnl p)

theorem forward_caught (s : State) (msg : Value) (text : Value → Option Value) :
    caught (forward e s msg text) = s := by
  unfold forward
  refine caught_orThrow_bind (P := (· = s)) rfl fun pipe _ => ?_
  refine caught_orThrow_bind (P := (· = s)) rfl fun pid _ => ?_
  refine caught_orThrow_bind (P := (· = s)) rfl fun key _ => ?_
  cases s.pipes key with
  | none => rfl
  | some pp => exact caught_orThrow_bind (P := (· = s)) rfl fun _ _ => rfl

/-- The handlers that assign nothing. -/
theorem run_caught_of_reads (s : State) (id : ℕ) (msg : Value) {handler : Handler}
    (login : handler ≠ .login) (ident : handler ≠ .ident) (channel : handler ≠ .channel) :
    caught (handler.run e s id msg) = s := by
  unfold Handler.run
  cases handler with
  | login => exact absurd rfl login
  | ident => exact absurd rfl ident
  | channel => exact absurd rfl channel
  | err =>
    refine caught_orThrow_bind (P := (· = s)) rfl fun data _ => ?_
    refine caught_orThrow_bind (P := (· = s)) rfl fun _ _ => ?_
    exact caught_orThrow_bind (P := (· = s)) rfl fun _ _ => rfl
  | data => exact caught_orThrow_bind (P := (· = s)) rfl fun data _ => forward_caught e s data _
  | join => exact caught_orThrow_bind (P := (· = s)) rfl fun data _ => forward_caught e s data _
  | left => exact caught_orThrow_bind (P := (· = s)) rfl fun data _ => forward_caught e s data _

theorem login_caught (s : State) (id : ℕ) (raw : Json) :
    caught (Handler.login.run e s id (some raw)) =
      (dataField raw "sessid").elim s fun v => { s with sessid := v, connected := true } := by
  unfold Handler.run dataField
  cases prop (some raw) "data" with
  | none => rfl
  | some data =>
    change caught (orThrow s (prop data "sessid") >>= _) = (prop data "sessid").elim s _
    cases prop data "sessid" with
    | none => rfl
    | some v => rfl

theorem ident_caught (s : State) (id : ℕ) (raw : Json) :
    caught (Handler.ident.run e s id (some raw)) =
      (dataField raw "user").elim s fun v => { s with user := v } := by
  unfold Handler.run dataField
  cases prop (some raw) "data" with
  | none => rfl
  | some data =>
    change caught (orThrow s (prop data "user") >>= _) = (prop data "user").elim s _
    cases prop data "user" with
    | none => rfl
    | some v => rfl

theorem channel_run (s : State) (id : ℕ) (msg : Value) : Handler.channel.run e s id msg =
    orThrow s (prop msg "data") >>= fun data => handleChannel e s id data := rfl

/-- A channel without a key changes nothing. -/
theorem channel_caught_of_none (s : State) (id : ℕ) {raw : Json}
    (keyless : (dataField raw "pipe").bind (pipeKey e) = none) :
    caught (Handler.channel.run e s id (some raw)) = s := by
  rw [channel_run]
  refine caught_orThrow_bind (P := (· = s)) rfl fun data found => ?_
  refine caught_orThrow_bind (P := (· = s)) rfl fun p here => ?_
  rw [dataField, found, Option.bind_some, here, Option.bind_some] at keyless
  rw [enter_of_pipeKey_none e s (id, 0) keyless]
  rfl

/-- One with a key is stored. -/
theorem channel_ownedBy (s : State) (id : ℕ) {raw : Json} {key : Str}
    (keyed : (dataField raw "pipe").bind (pipeKey e) = some key) :
    (caught (Handler.channel.run e s id (some raw))).OwnedBy id key := by
  obtain ⟨p, found, keyed⟩ := Option.bind_eq_some_iff.1 keyed
  obtain ⟨data, first, second⟩ := Option.bind_eq_some_iff.1 found
  rw [channel_run, orThrow_bind_of_some first]
  unfold handleChannel
  rw [orThrow_bind_of_some second]
  exact caught_bind (enter_ownedBy e s id 0 keyed)
    fun s' owned => (handleChannel_later e s' id data p).kept key owned

/-- The pipes in the state of a handler are those before it and its own. -/
theorem run_pipes (s : State) (id : ℕ) (raw : Json) (handler : Handler) (key : Str) :
    (caught (handler.run e s id (some raw))).pipes key = s.pipes key ∨
      (caught (handler.run e s id (some raw))).OwnedBy id key := by
  by_cases login : handler = .login
  · rw [login, login_caught]
    cases dataField raw "sessid" <;> exact Or.inl rfl
  by_cases ident : handler = .ident
  · rw [ident, ident_caught]
    cases dataField raw "user" <;> exact Or.inl rfl
  by_cases channel : handler = .channel
  · rw [channel]
    refine Entered.pipes ?_ key
    exact caught_orThrow_bind (.refl id s) fun data _ => handleChannel_entered e s id data
  · rw [run_caught_of_reads e s id _ login ident channel]
    exact Or.inl rfl

theorem handleMsg_eq_none_iff (s : State) (raw : Json × ℕ) :
    handleMsg e s raw = none ↔ rawText raw.1 = none := by
  unfold handleMsg
  cases rawText raw.1 with
  | none => exact iff_of_true rfl rfl
  | some text =>
    refine iff_of_false ?_ (Option.some_ne_none text)
    cases found : serverFuncs (e.lower text) <;> simp [found]

/-- Otherwise it runs the handler, if there is one. -/
theorem handleMsg_eq_some {s s' : State} {raw : Json × ℕ} {called : Option Handler}
    (returned : handleMsg e s raw = some (called, s')) :
    handlerOf e raw.1 = called ∧
      s' = called.elim s fun handler => caught (handler.run e s raw.2 (some raw.1)) := by
  unfold handleMsg at returned
  unfold handlerOf
  cases spelled : rawText raw.1 with
  | none => simp [spelled] at returned
  | some text =>
    cases found : serverFuncs (e.lower text) with
    | none =>
      simp only [spelled, found, Option.some.injEq, Prod.mk.injEq] at returned
      obtain ⟨rfl, rfl⟩ := returned
      exact ⟨found, rfl⟩
    | some handler =>
      simp only [spelled, found, Option.some.injEq, Prod.mk.injEq] at returned
      obtain ⟨rfl, rfl⟩ := returned
      exact ⟨found, rfl⟩

theorem handlerOf_of_wellFormed {raw : Json} (good : wellFormed e raw = true) :
    ∃ handler, handlerOf e raw = some handler := by
  unfold wellFormed at good
  cases found : handlerOf e raw with
  | none => simp [found] at good
  | some handler => exact ⟨handler, rfl⟩

end Sysjs.Ape
