import Sysjs.Ape.Handlers
import Sysjs.Foundation.Updates

/-!
# The names of channels

Channels and users are entered in the same two maps.  Which names still find their channel after
each message of a run.
-/

set_option autoImplicit false

namespace Sysjs.Ape

open Runs

variable (e : Engine)

/-- The pipes that a well formed message enters, those of a channel message. -/
def entries (raw : Json) : List Entry :=
  if handlerOf e raw = some .channel then
    (channelEntries e (at? (some raw) ["data"])).getD []
  else []

/-- The latest channel announced under each name, once the message is handled. -/
def announce (raw : Json) (latest : Str → Option Entry) : Str → Option Entry :=
  match entries e raw with
  | [] => latest
  | channel :: _ => Function.update latest channel.name (some channel)

/-- A state of a run, with the latest channel announced under each name. -/
structure Tracked where
  state : State
  latest : Str → Option Entry

/-- `handleMsg`, keeping track of the announcements. -/
def track (t : Tracked) (raw : Json × ℕ) : Option (Option Handler × Tracked) :=
  (handleMsg e t.state raw).map fun next => (next.1, ⟨next.2, announce e raw.1 t.latest⟩)

/-- The name of each announced channel finds a pipe with the `pubid` of the latest one, and each
name finds the pipe that is also stored under its `pubid`. -/
structure Addressed (t : Tracked) : Prop where
  channels : ∀ name channel, t.latest name = some channel →
    ∃ pp, t.state.names name = some pp ∧ pp.target = prop channel.pipe "pubid"
  paired : ∀ name pp, t.state.names name = some pp →
    ∃ pubid, pp.target.bind e.key = some pubid ∧ t.state.pipes pubid = some pp

/-- The condition on a message: of the pipes it enters, the last one of a name keeps its `pubid` and
has that of the latest channel, if there is one; and no pipe takes the `pubid` of one that keeps its
name from earlier messages. -/
structure Addressable (t : Tracked) (raw : Json) : Prop where
  apart : ∀ before x after, entries e raw = before ++ x :: after →
    (∀ y ∈ after, y.name ≠ x.name) → ∀ y ∈ after, y.pubid ≠ x.pubid
  channels : ∀ before x after, entries e raw = before ++ x :: after →
    (∀ y ∈ after, y.name ≠ x.name) → ∀ channel, announce e raw t.latest x.name = some channel →
      prop x.pipe "pubid" = prop channel.pipe "pubid"
  stays : ∀ name pp, t.state.names name = some pp → (∀ x ∈ entries e raw, x.name ≠ name) →
    ∀ x ∈ entries e raw, pp.target.bind e.key ≠ some x.pubid

/-! ### What a well formed message enters -/

/-- Entries with the pipes made for them, from the number `i` on. -/
def made (id i : ℕ) (entries : List Entry) : List (Entry × Pipe) :=
  (entries.zipIdx i).map fun x => (x.1, ⟨some (id, x.2), x.1.pipe⟩)

def State.enterAll : State → List (Entry × Pipe) → State
  | s, [] => s
  | s, x :: pairs => ((s.setPipe x.1.pubid x.2).setName x.1.name x.2).enterAll pairs

theorem enterAll_pipes (s : State) (pairs : List (Entry × Pipe)) :
    (s.enterAll pairs).pipes = updates (·.1.pubid) (fun x => some x.2) s.pipes pairs := by
  induction pairs generalizing s with
  | nil => rfl
  | cons x pairs ih => exact ih _

theorem enterAll_names (s : State) (pairs : List (Entry × Pipe)) :
    (s.enterAll pairs).names = updates (·.1.name) (fun x => some x.2) s.names pairs := by
  induction pairs generalizing s with
  | nil => rfl
  | cons x pairs ih => exact ih _

theorem prop_of_at? {v w : Value} {name : String} {path : List String}
    (found : at? v (name :: path) = w) (defined : w ≠ none) :
    ∃ u, prop v name = some u ∧ at? u path = w := by
  unfold at? at found
  cases here : prop v name with
  | none => simp [here, defined.symm] at found
  | some u => exact ⟨u, rfl, by simpa [here] using found⟩

theorem keyAt_eq_some {v : Value} {path : List String} {k : Str}
    (spelled : keyAt e v path = some k) : ∃ w, at? v path = some w ∧ e.key (some w) = some k := by
  unfold keyAt at spelled
  cases found : at? v path with
  | none => simp [found] at spelled
  | some w => exact ⟨w, rfl, by simpa [found] using spelled⟩

/-- What an entry says of its pipe. -/
theorem entryOf_eq_some {p : Value} {x : Entry} (known : entryOf e p = some x) :
    x.pipe = p ∧ pipeKey e p = some x.pubid ∧ ∃ properties name,
      prop p "properties" = some properties ∧ prop properties "name" = some name ∧
        e.key name = some x.name := by
  obtain ⟨pubid, first, known⟩ := Option.bind_eq_some_iff.1 known
  obtain ⟨name, second, known⟩ := Option.bind_eq_some_iff.1 known
  obtain rfl := Option.some.inj known
  obtain ⟨w, found, spelled⟩ := keyAt_eq_some e first
  obtain ⟨w', found', spelled'⟩ := keyAt_eq_some e second
  obtain ⟨u, here, rfl⟩ := prop_of_at? found (Option.some_ne_none w)
  obtain ⟨properties, outer, found'⟩ := prop_of_at? found' (Option.some_ne_none w')
  obtain ⟨u', inner, rfl⟩ := prop_of_at? found' (Option.some_ne_none w')
  refine ⟨rfl, ?_, properties, _, outer, inner, spelled'⟩
  rw [pipeKey, here]
  exact spelled

theorem enter_of_entryOf (s : State) (created : ℕ × ℕ) {p : Value} {x : Entry}
    (known : entryOf e p = some x) : enter e s created p =
      .ok ((s.setPipe x.pubid ⟨some created, x.pipe⟩).setName x.name ⟨some created, x.pipe⟩) := by
  obtain ⟨rfl, keyed, properties, name, outer, inner, spelled⟩ := entryOf_eq_some e known
  obtain ⟨pubid, here, keyed⟩ := Option.bind_eq_some_iff.1 keyed
  rw [enter, orThrow_bind_of_some here, orThrow_bind_of_some keyed, orThrow_bind_of_some outer,
    orThrow_bind_of_some inner, orThrow_bind_of_some spelled]

/-- A list of users with their keys is entered from the number `i + 1` on. -/
theorem enterUsers_of_entries (s : State) (id i : ℕ) {users : List Json} {xs : List Entry}
    (known : users.mapM (fun user => entryOf e (some user)) = some xs) :
    enterUsers e id s i (users.map some) = .ok (s.enterAll (made id (i + 1) xs)) := by
  induction users generalizing s i xs with
  | nil =>
    obtain rfl := Option.some.inj known
    rfl
  | cons user users ih =>
    rw [List.mapM_cons] at known
    obtain ⟨x, first, known⟩ := Option.bind_eq_some_iff.1 known
    obtain ⟨rest, later, known⟩ := Option.bind_eq_some_iff.1 known
    obtain rfl := Option.some.inj known
    rw [List.map_cons, enterUsers, enter_of_entryOf e s _ first]
    exact ih _ (i + 1) later

theorem userEntries_eq_some {data : Value} {xs : List Entry}
    (known : userEntries e data = some xs) :
    ∃ users, at? data ["users"] = some (.arr users) ∧
      users.mapM (fun user => entryOf e (some user)) = some xs := by
  unfold userEntries at known
  split at known
  · next users found => exact ⟨users, found, known⟩
  · exact absurd known.symm (Option.some_ne_none xs)

/-- `handleChannel` enters the channel and, for "multi", its users. -/
theorem handleChannel_of_entries (s : State) (id : ℕ) {chnl : Value} {xs : List Entry}
    (known : channelEntries e chnl = some xs) :
    handleChannel e s id chnl = .ok (s.enterAll (made id 0 xs)) := by
  obtain ⟨channel, first, known⟩ := Option.bind_eq_some_iff.1 known
  obtain ⟨casttype, cast, known⟩ := Option.bind_eq_some_iff.1 known
  obtain ⟨multi, decided, known⟩ := Option.bind_eq_some_iff.1 known
  obtain ⟨p, here, inner⟩ := prop_of_at? cast (Option.some_ne_none casttype)
  obtain ⟨u, there, rfl⟩ := prop_of_at? inner (Option.some_ne_none casttype)
  have atPipe : at? chnl ["pipe"] = p := by simp [at?, here]
  rw [atPipe] at first
  have entered (s : State) : enter e s (id, 0) p = .ok (s.enterAll (made id 0 [channel])) :=
    enter_of_entryOf e s (id, 0) first
  rw [handleChannel, orThrow_bind_of_some here, entered]
  change (orThrow _ (prop p "casttype") >>= _) = _
  rw [orThrow_bind_of_some there, orThrow_bind_of_some decided]
  cases multi with
  | false =>
    obtain rfl := Option.some.inj known
    rfl
  | true =>
    obtain ⟨rest, second, known⟩ := Option.bind_eq_some_iff.1 known
    obtain rfl := Option.some.inj known
    obtain ⟨users, found, known⟩ := userEntries_eq_some e second
    obtain ⟨u', listed, rfl⟩ := prop_of_at? found (Option.some_ne_none _)
    rw [if_pos rfl, orThrow_bind_of_some listed]
    exact enterUsers_of_entries e _ id 0 known

/-- After a well formed message, the maps are those before it with its entries. -/
theorem handleMsg_maps {s s' : State} {raw : Json × ℕ} {called : Option Handler}
    (formed : wellFormed e raw.1 = true) (returned : handleMsg e s raw = some (called, s')) :
    s'.pipes = (s.enterAll (made raw.2 0 (entries e raw.1))).pipes ∧
      s'.names = (s.enterAll (made raw.2 0 (entries e raw.1))).names := by
  obtain ⟨handler, named⟩ := handlerOf_of_wellFormed e formed
  obtain ⟨called_eq, rfl⟩ := handleMsg_eq_some e returned
  rw [named] at called_eq
  subst called_eq
  rw [Option.elim_some]
  by_cases channel : handler = .channel
  · subst channel
    obtain ⟨xs, known⟩ : ∃ xs, channelEntries e (at? (some raw.1) ["data"]) = some xs := by
      simpa [wellFormed, named, Handler.hasFields, Option.isSome_iff_exists] using formed
    have listed : entries e raw.1 = xs := by simp [entries, named, known]
    rw [listed, channel_run]
    cases found : prop (some raw.1) "data" with
    | none =>
      have missing : at? (some raw.1) ["data"] = none := by simp [at?, found]
      rw [missing] at known
      exact absurd known.symm (Option.some_ne_none xs)
    | some data =>
      have here : at? (some raw.1) ["data"] = data := by simp [at?, found]
      rw [here] at known
      rw [orThrow_bind_of_some rfl, handleChannel_of_entries e s raw.2 known]
      exact ⟨rfl, rfl⟩
  · have empty : entries e raw.1 = [] := by simp [entries, named, channel]
    rw [empty]
    by_cases login : handler = .login
    · rw [login, login_caught]
      cases dataField raw.1 "sessid" <;> exact ⟨rfl, rfl⟩
    by_cases ident : handler = .ident
    · rw [ident, ident_caught]
      cases dataField raw.1 "user" <;> exact ⟨rfl, rfl⟩
    · rw [run_caught_of_reads e s raw.2 _ login ident channel]
      exact ⟨rfl, rfl⟩

/-! ### Which pipe a key finds -/

theorem made_append (id i : ℕ) (before after : List Entry) :
    made id i (before ++ after) = made id i before ++ made id (i + before.length) after := by
  simp [made, List.zipIdx_append]

/-- The last entry of a key is found under it, with its number. -/
theorem entered_last (key : Entry → Str) (f : Str → Option Pipe) (id : ℕ) (before : List Entry)
    {x : Entry} {after : List Entry} (last : ∀ y ∈ after, key y ≠ key x) :
    updates (fun y => key y.1) (fun y : Entry × Pipe => some y.2) f
        (made id 0 (before ++ x :: after)) (key x) = some ⟨some (id, before.length), x.pipe⟩ := by
  have later : ∀ y ∈ made id (before.length + 1) after, key y.1 ≠ key x := by
    rintro _ among
    obtain ⟨y, listed, rfl⟩ := List.mem_map.1 among
    exact last y.1 (List.fst_mem_of_mem_zipIdx listed)
  rw [made_append, Nat.zero_add]
  exact updates_last (fun y => key y.1) (fun y : Entry × Pipe => some y.2) f _
    (x := (x, ⟨some (id, before.length), x.pipe⟩)) later

theorem entered_absent (key : Entry → Str) (f : Str → Option Pipe) (id : ℕ) {xs : List Entry}
    {k : Str} (absent : ∀ x ∈ xs, key x ≠ k) :
    updates (fun y => key y.1) (fun y : Entry × Pipe => some y.2) f (made id 0 xs) k = f k := by
  refine updates_of_forall_ne _ _ f ?_
  rintro _ among
  obtain ⟨y, listed, rfl⟩ := List.mem_map.1 among
  exact absent y.1 (List.fst_mem_of_mem_zipIdx listed)

theorem exists_of_mem_mapM {α β : Type} {f : α → Option β} {l : List α} {ys : List β}
    (mapped : l.mapM f = some ys) {y : β} (among : y ∈ ys) : ∃ x, f x = some y := by
  induction l generalizing ys with
  | nil =>
    obtain rfl := Option.some.inj mapped
    exact absurd among List.not_mem_nil
  | cons x l ih =>
    rw [List.mapM_cons] at mapped
    obtain ⟨z, first, mapped⟩ := Option.bind_eq_some_iff.1 mapped
    obtain ⟨zs, later, mapped⟩ := Option.bind_eq_some_iff.1 mapped
    obtain rfl := Option.some.inj mapped
    rcases List.mem_cons.1 among with rfl | among
    · exact ⟨x, first⟩
    · exact ih later among

/-- An entry's pipe has the `pubid` that it is entered under. -/
theorem entries_pubid {raw : Json} {x : Entry} (among : x ∈ entries e raw) :
    (prop x.pipe "pubid").bind e.key = some x.pubid := by
  suffices known : ∃ p, entryOf e p = some x by
    obtain ⟨p, known⟩ := known
    obtain ⟨rfl, keyed, -⟩ := entryOf_eq_some e known
    exact keyed
  unfold entries at among
  split at among
  · cases known : channelEntries e (at? (some raw) ["data"]) with
    | none => simp [known] at among
    | some xs =>
      rw [known, Option.getD_some] at among
      obtain ⟨channel, first, known⟩ := Option.bind_eq_some_iff.1 known
      obtain ⟨casttype, -, known⟩ := Option.bind_eq_some_iff.1 known
      obtain ⟨multi, -, known⟩ := Option.bind_eq_some_iff.1 known
      cases multi with
      | false =>
        obtain rfl := Option.some.inj known
        obtain rfl := List.mem_singleton.1 among
        exact ⟨_, first⟩
      | true =>
        obtain ⟨rest, second, known⟩ := Option.bind_eq_some_iff.1 known
        obtain rfl := Option.some.inj known
        obtain ⟨users, -, known⟩ := userEntries_eq_some e second
        rcases List.mem_cons.1 among with rfl | among
        · exact ⟨_, first⟩
        · obtain ⟨user, found⟩ := exists_of_mem_mapM known among
          exact ⟨_, found⟩
  · exact absurd among List.not_mem_nil

theorem announce_cons {raw : Json} {channel : Entry} {users : List Entry}
    (listed : entries e raw = channel :: users) (latest : Str → Option Entry) :
    announce e raw latest = Function.update latest channel.name (some channel) := by
  rw [announce, listed]

theorem announce_absent {raw : Json} {name : Str} (latest : Str → Option Entry)
    (absent : ∀ x ∈ entries e raw, x.name ≠ name) : announce e raw latest name = latest name := by
  cases listed : entries e raw with
  | nil => rw [announce, listed]
  | cons channel users =>
    rw [announce_cons e listed]
    rw [listed] at absent
    exact Function.update_of_ne (absent channel List.mem_cons_self).symm _ _

/-! ### One message and a run -/

/-- No name finds a pipe that was made for one of the messages to come, and these have different
numbers. -/
structure Tracked.Fresh (t : Tracked) (raws : List (Json × ℕ)) : Prop where
  unowned : ∀ raw ∈ raws, ∀ name pp i, t.state.names name = some pp →
    pp.created ≠ some (raw.2, i)
  apart : (raws.map Prod.snd).Nodup

section Step

variable {e} {t t' : Tracked} {raw : Json × ℕ} {called : Option Handler}

/-- The two maps and the announcements after a well formed message. -/
theorem track_eq (formed : wellFormed e raw.1 = true)
    (returned : track e t raw = some (called, t')) :
    t'.state.pipes = updates (fun y : Entry × Pipe => y.1.pubid) (fun y => some y.2) t.state.pipes
        (made raw.2 0 (entries e raw.1)) ∧
      t'.state.names = updates (fun y : Entry × Pipe => y.1.name) (fun y => some y.2) t.state.names
        (made raw.2 0 (entries e raw.1)) ∧
      t'.latest = announce e raw.1 t.latest := by
  obtain ⟨⟨called', s'⟩, stepped, same⟩ := Option.map_eq_some_iff.1 returned
  obtain ⟨rfl, rfl⟩ := Prod.mk.inj same
  obtain ⟨pipes, names⟩ := handleMsg_maps e formed stepped
  exact ⟨pipes.trans (enterAll_pipes _ _), names.trans (enterAll_names _ _), rfl⟩

theorem name_last (formed : wellFormed e raw.1 = true)
    (returned : track e t raw = some (called, t')) {before after : List Entry} {x : Entry}
    (listed : entries e raw.1 = before ++ x :: after) (last : ∀ y ∈ after, y.name ≠ x.name) :
    t'.state.names x.name = some ⟨some (raw.2, before.length), x.pipe⟩ := by
  rw [(track_eq formed returned).2.1, listed]
  exact entered_last Entry.name _ raw.2 before last

theorem name_absent (formed : wellFormed e raw.1 = true)
    (returned : track e t raw = some (called, t')) {name : Str}
    (absent : ∀ x ∈ entries e raw.1, x.name ≠ name) :
    t'.state.names name = t.state.names name := by
  rw [(track_eq formed returned).2.1]
  exact entered_absent Entry.name _ raw.2 absent

theorem pubid_last (formed : wellFormed e raw.1 = true)
    (returned : track e t raw = some (called, t')) {before after : List Entry} {x : Entry}
    (listed : entries e raw.1 = before ++ x :: after) (last : ∀ y ∈ after, y.pubid ≠ x.pubid) :
    t'.state.pipes x.pubid = some ⟨some (raw.2, before.length), x.pipe⟩ := by
  rw [(track_eq formed returned).1, listed]
  exact entered_last Entry.pubid _ raw.2 before last

theorem pubid_absent (formed : wellFormed e raw.1 = true)
    (returned : track e t raw = some (called, t')) {pubid : Str}
    (absent : ∀ x ∈ entries e raw.1, x.pubid ≠ pubid) :
    t'.state.pipes pubid = t.state.pipes pubid := by
  rw [(track_eq formed returned).1]
  exact entered_absent Entry.pubid _ raw.2 absent

/-- The `pubid` of an entry finds a pipe of the message, made no sooner than that entry's list. -/
theorem pubid_taken (formed : wellFormed e raw.1 = true)
    (returned : track e t raw = some (called, t')) {before rest : List Entry}
    (listed : entries e raw.1 = before ++ rest) {x : Entry} (among : x ∈ rest) :
    ∃ i p, before.length ≤ i ∧ t'.state.pipes x.pubid = some ⟨some (raw.2, i), p⟩ := by
  rcases absent_or_last Entry.pubid rest x.pubid with absent | ⟨front, y, after, rfl, same, last⟩
  · exact absurd rfl (absent x among)
  · rw [← List.append_assoc] at listed
    rw [← same] at last ⊢
    refine ⟨(before ++ front).length, y.pipe, ?_, pubid_last formed returned listed last⟩
    rw [List.length_append]
    exact Nat.le_add_right _ _

/-- A message that keeps the names addressed meets the condition. -/
theorem addressable_of_addressed (formed : wellFormed e raw.1 = true)
    (unowned : ∀ name pp i, t.state.names name = some pp → pp.created ≠ some (raw.2, i))
    (returned : track e t raw = some (called, t')) (addressed : Addressed e t') :
    Addressable e t raw.1 where
  apart before x after listed last y later same := by
    obtain ⟨pubid, keyed, stored⟩ := addressed.paired _ _ (name_last formed returned listed last)
    have among : x ∈ entries e raw.1 := by simp [listed]
    obtain rfl : x.pubid = pubid := Option.some.inj ((entries_pubid e among).symm.trans keyed)
    -- `y` comes after `x`, so what its `pubid` finds was made after the pipe of `x`
    have split : entries e raw.1 = (before ++ [x]) ++ after := by simp [listed]
    obtain ⟨i, p, behind, taken⟩ := pubid_taken formed returned split later
    rw [same, stored] at taken
    simp at taken behind
    omega
  channels before x after listed last channel announced := by
    have latest := (track_eq formed returned).2.2
    obtain ⟨pp, found, target⟩ := addressed.channels x.name channel (latest ▸ announced)
    rw [name_last formed returned listed last] at found
    exact (congrArg Pipe.target (Option.some.inj found)).trans target
  stays name pp found kept x among same := by
    have found' := (name_absent formed returned kept).trans found
    obtain ⟨pubid, keyed, stored⟩ := addressed.paired name pp found'
    obtain rfl : x.pubid = pubid := Option.some.inj (same.symm.trans keyed)
    have listed : entries e raw.1 = [] ++ entries e raw.1 := rfl
    obtain ⟨i, p, -, taken⟩ := pubid_taken formed returned listed among
    rw [stored] at taken
    exact unowned name pp i found (congrArg Pipe.created (Option.some.inj taken))

/-- A message that meets the condition keeps the names addressed. -/
theorem Addressed.next (formed : wellFormed e raw.1 = true) (addressed : Addressed e t)
    (returned : track e t raw = some (called, t')) (addressable : Addressable e t raw.1) :
    Addressed e t' where
  channels name channel announced := by
    rw [(track_eq formed returned).2.2] at announced
    rcases absent_or_last Entry.name (entries e raw.1) name with
      absent | ⟨before, x, after, listed, rfl, last⟩
    · rw [announce_absent e t.latest absent] at announced
      obtain ⟨pp, found, target⟩ := addressed.channels name channel announced
      exact ⟨pp, (name_absent formed returned absent).trans found, target⟩
    · exact ⟨_, name_last formed returned listed last,
        addressable.channels before x after listed last channel announced⟩
  paired name pp found := by
    rcases absent_or_last Entry.name (entries e raw.1) name with
      absent | ⟨before, x, after, listed, rfl, last⟩
    · rw [name_absent formed returned absent] at found
      obtain ⟨pubid, keyed, stored⟩ := addressed.paired name pp found
      refine ⟨pubid, keyed, (pubid_absent formed returned fun x among same => ?_).trans stored⟩
      exact addressable.stays name pp found absent x among (same ▸ keyed)
    · rw [name_last formed returned listed last, Option.some.injEq] at found
      subst found
      have among : x ∈ entries e raw.1 := by simp [listed]
      exact ⟨x.pubid, entries_pubid e among, pubid_last formed returned listed
        (addressable.apart before x after listed last)⟩

/-- Pipes with `pubid`s that no other has and users with names that no channel has do no harm. -/
theorem addressable_of_nodup (pubids : ((entries e raw.1).map Entry.pubid).Nodup)
    (names : ((entries e raw.1).map Entry.name).Nodup)
    (unannounced : ∀ x ∈ (entries e raw.1).tail, t.latest x.name = none)
    (unused : ∀ x ∈ entries e raw.1, ∀ name pp, t.state.names name = some pp →
      pp.target.bind e.key ≠ some x.pubid) : Addressable e t raw.1 := by
  refine ⟨fun before x after listed _ y later same => ?_,
    fun before x after listed _ channel announced => ?_,
    fun name pp found _ x among => unused x among name pp found⟩
  · rw [listed, List.map_append, List.map_cons] at pubids
    have different := (List.nodup_cons.1 (List.nodup_append.1 pubids).2.1).1
    exact different (same ▸ List.mem_map_of_mem later)
  · cases before with
    | nil =>
      rw [announce_cons e listed, Function.update_self, Option.some.injEq] at announced
      rw [announced]
    | cons first before =>
      have user : x ∈ (entries e raw.1).tail := by simp [listed]
      rw [listed, List.cons_append, List.map_cons] at names
      have different : x.name ≠ first.name := fun same =>
        (List.nodup_cons.1 names).1 (same ▸ List.mem_map_of_mem (by simp))
      rw [announce_cons e listed, Function.update_of_ne different, unannounced x user] at announced
      exact absurd announced.symm (Option.some_ne_none channel)

/-- One message leaves the names fresh for the next ones. -/
theorem Tracked.Fresh.next {rest : List (Json × ℕ)} (formed : wellFormed e raw.1 = true)
    (fresh : t.Fresh (raw :: rest)) (returned : track e t raw = some (called, t')) :
    t'.Fresh rest := by
  have apart := List.nodup_cons.1 fresh.apart
  refine ⟨fun raw' later name pp i found made => ?_, apart.2⟩
  rcases absent_or_last Entry.name (entries e raw.1) name with
    absent | ⟨before, x, after, listed, rfl, last⟩
  · rw [name_absent formed returned absent] at found
    exact fresh.unowned raw' (List.mem_cons_of_mem _ later) name pp i found made
  · rw [name_last formed returned listed last, Option.some.injEq] at found
    rw [← found, Option.some.injEq, Prod.mk.injEq] at made
    exact apart.1 (made.1 ▸ List.mem_map_of_mem later)

end Step

/-- A new `APE_Proto`, with no channel announced. -/
def Tracked.start : Tracked := ⟨.start, fun _ => none⟩

theorem Tracked.start_fresh (raws : List Json) : Tracked.start.Fresh raws.zipIdx := by
  refine ⟨fun raw _ name pp i found => absurd found.symm (Option.some_ne_none pp), ?_⟩
  rw [List.zipIdx_map_snd]
  exact List.nodup_range'

theorem start_addressed : Addressed e Tracked.start :=
  ⟨fun _ channel announced => absurd announced.symm (Option.some_ne_none channel),
    fun _ pp found => absurd found.symm (Option.some_ne_none pp)⟩

/-- After each of the well formed messages of a run the names address the channels exactly when
every message meets the condition. -/
theorem names_address_channels_iff (raws : List Json)
    (formed : ∀ raw ∈ raws, wellFormed e raw = true) :
    Along (track e) (fun _ _ _ t' => Addressed e t') Tracked.start raws.zipIdx ↔
      Guarded (track e) (fun t raw => Addressable e t raw.1) Tracked.start raws.zipIdx := by
  refine along_iff_guarded_ahead
    (fun t raws => Addressed e t ∧ t.Fresh raws ∧ ∀ raw ∈ raws, wellFormed e raw.1 = true)
    ?_ ?_ raws.zipIdx ⟨start_addressed e, Tracked.start_fresh raws, fun raw among => ?_⟩
  · rintro t raw rest called t' ⟨addressed, fresh, formed⟩ returned
    have formed := formed raw List.mem_cons_self
    exact ⟨addressable_of_addressed formed (fresh.unowned raw List.mem_cons_self) returned,
      addressed.next formed returned⟩
  · rintro t raw rest called t' ⟨addressed, fresh, formed⟩ returned addressed'
    exact ⟨addressed', fresh.next (formed raw List.mem_cons_self) returned,
      fun raw' later => formed raw' (List.mem_cons_of_mem _ later)⟩
  · exact formed raw.1 (List.fst_mem_of_mem_zipIdx among)

/-- A message for the channel "test" with one user. -/
def channelTest (user : String) : Json :=
  .obj [("raw".toList, .str "CHANNEL".toList), ("data".toList, .obj [
    ("pipe".toList, .obj [("casttype".toList, .str "multi".toList), ("pubid".toList, .str ['c']),
      ("properties".toList, .obj [("name".toList, .str "test".toList)])]),
    ("users".toList, .arr [.obj [("pubid".toList, .str ['u']),
      ("properties".toList, .obj [("name".toList, .str user.toList)])]])])]

/-- With a user of another name, the channel is found. -/
theorem names_address_channels_ann : Along (track .ascii) (fun _ _ _ t' => Addressed .ascii t')
    Tracked.start [channelTest "ann"].zipIdx := by
  refine (names_address_channels_iff .ascii [channelTest "ann"] (by decide)).2 ?_
  refine guarded_cons (addressable_of_nodup (by decide) (by decide) (fun _ _ => rfl) ?_) trivial
  exact fun _ _ _ pp found => absurd found.symm (Option.some_ne_none pp)

/-- A user with the name of the channel takes its place. -/
theorem names_address_channels_not_namesake :
    ¬ Along (track .ascii) (fun _ _ _ t' => Addressed .ascii t') Tracked.start
      [channelTest "test"].zipIdx := by
  refine not_along_of_last (fun _ _ x => (x.2.latest "test".toList).all fun channel =>
    ((x.2.state.names "test".toList).bind fun pp => pp.target.bind Engine.ascii.key) =
      (prop channel.pipe "pubid").bind Engine.ascii.key) (fun _ _ _ t' addressed => ?_)
    [] (channelTest "test", 0) rfl (by decide)
  rw [Option.all_eq_true]
  intro channel announced
  obtain ⟨pp, found, target⟩ := addressed.channels _ channel announced
  rw [found, Option.bind_some, target]
  exact decide_eq_true rfl

end Sysjs.Ape
