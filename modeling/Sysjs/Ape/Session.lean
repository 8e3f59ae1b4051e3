import Sysjs.Ape.Handlers
import Sysjs.Foundation.Interleaving
import Mathlib.Data.List.Find
import Mathlib.Data.List.Induction

/-!
# A session with the server

The program of `ape_conn.js` connects, joins the channel "test", and then waits in a loop for
packets, which it evaluates and handles.  At every sixth round it looks for the channel and sends
something to it.
-/

set_option autoImplicit false

namespace Sysjs.Ape

open Interleaving

/-- The parameters of the commands it makes. -/
inductive Params where
  | connect (name : Str)
  | join (channels : Str)
  | send (msg : Str) (pipe : Value)

/-- What `newCmd` makes; `sessid` is `none` when the command has none. -/
structure Cmd where
  cmd : Str
  chl : ℕ
  params : Params
  sessid : Value

/-- The program: its `proto`, its variables `channel` and `ctr`, the arrays it has sent, and whether
an exception has ended it. -/
structure Client where
  state : State
  chl : ℕ
  channel : Option Pipe
  ctr : ℕ
  sent : List (List Cmd)
  ended : Bool

/-- One round of the loop: whether `poll` returns, the packet that is read, if any, and whether a
packet can be written. -/
structure Round where
  polled : Bool
  packet : Option Str
  wrote : Bool

/-- What a session leaves to the engine besides: which numbers are, and what the text of a
packet evaluates to, `none` being an exception.  The text does nothing else when it is evaluated. -/
structure Evaluator extends Engine where
  zero : Str → Bool
  eval : Str → Option Value

section Program

variable (e : Evaluator)

/-- `if (v)`. -/
def Evaluator.truthy : Value → Bool
  | none => false
  | some .null => false
  | some (.bool b) => b
  | some (.num text) => !e.zero text
  | some (.str s) => !s.isEmpty
  | some (.arr _) => true
  | some (.obj _) => true

/-- The session number that a command takes along. -/
def carried (s : State) : Value := if e.truthy s.sessid then s.sessid else none

/-- `handle` of what a packet evaluates to, where an `undefined` element ends it as `null` does. -/
def handleValue (s : State) (rawArr : Value) : State :=
  if e.truthy rawArr then
    match e.elements rawArr with
    | some elems => handle e.toEngine s (elems.map fun raw => raw.getD .null)
    | none => s
  else s

/-- `data` of the `WS_Socket`, which prints its exceptions. -/
def data (s : State) (l : Str) : State :=
  if l.isEmpty then s
  else match e.eval l with
    | some x => handleValue e s x
    | none => s

namespace Client

/-- `newCmd`. -/
def newCmd (c : Client) (type : Str) (params : Params) : Cmd × Client :=
  (⟨type, c.chl, params, carried e c.state⟩, { c with chl := c.chl + 1 })

/-- `sock.send`: the program ends when the packet cannot be written. -/
def send (c : Client) (cmds : List Cmd) (wrote : Bool) : Client :=
  if wrote then { c with sent := c.sent ++ [cmds] } else { c with ended := true }

/-- The program up to its loop: `opened` says whether `proto.start` returns. -/
def start (name : Str) (opened wrote : Bool) : Client :=
  let c : Client := ⟨.start, 0, none, 0, [], false⟩
  let (cc, c) := c.newCmd e "CONNECT".toList (.connect name)
  let (cj, c) := c.newCmd e "JOIN".toList (.join "test".toList)
  if opened then c.send [cc, cj] wrote else { c with ended := true }

/-- `channel.send`: the pipe's `pubid` is read before the command is made. -/
def sendChannel (c : Client) (channel : Pipe) (msg : Str) (wrote : Bool) : Client :=
  match channel.target with
  | none => { c with ended := true }
  | some pubid =>
    let (cmd, c) := c.newCmd e "SEND".toList (.send msg pubid)
    c.send [cmd] wrote

/-- `"Testing... " + ctr`. -/
def testing (ctr : ℕ) : Str := "Testing... ".toList ++ Nat.toDigits 10 ctr

/-- One round, as long as the program runs. -/
def round (c : Client) (r : Round) : Option Client :=
  if c.ended then none
  else if !r.polled then some { c with ended := true }
  else
    let c := match r.packet with
      | some l => { c with state := data e c.state l }
      | none => c
    let c := { c with ctr := c.ctr + 1 }
    if c.ctr % 6 = 0 then
      let c := match c.channel with
        | some _ => c
        | none => { c with channel := c.state.names "test".toList }
      some (match c.channel with
        | some channel => c.sendChannel e channel (testing c.ctr) r.wrote
        | none => c)
    else some c

end Client

/-! ### What it should send -/

/-- The state of the protocol after these rounds. -/
def stateAfter (rounds : List Round) : State :=
  (rounds.filterMap Round.packet).foldl (data e) .start

/-- The state of the protocol in the sixth round with the number `k`. -/
def stateAt (rounds : List Round) (k : ℕ) : State := stateAfter e (rounds.take (6 * k))

/-- The channel "test" in that round. -/
def testAt (rounds : List Round) (k : ℕ) : Option Pipe := (stateAt e rounds k).names "test".toList

/-- The first sixth round in which the channel is known. -/
def firstKnown (rounds : List Round) : Option ℕ :=
  (List.range' 1 (rounds.length / 6)).find? fun k => (testAt e rounds k).isSome

/-- The command of the sixth round with the number `k`, where `first` is the one with the first. -/
def sendAt (rounds : List Round) (first k : ℕ) : Cmd where
  cmd := "SEND".toList
  chl := 2 + (k - first)
  params := .send (Client.testing (6 * k)) (((testAt e rounds first).bind Pipe.target).getD none)
  sessid := carried e (stateAt e rounds k)

/-- The arrays behind the opening: one command in every sixth round since the channel is known, to
the pipe that had its name at first. -/
def sends (rounds : List Round) : List (List Cmd) :=
  match firstKnown e rounds with
  | none => []
  | some first => (List.range' first (rounds.length / 6 + 1 - first)).map
      fun k => [sendAt e rounds first k]

/-- The array that opens a session. -/
def opening (name : Str) : List Cmd :=
  [⟨"CONNECT".toList, 0, .connect name, none⟩, ⟨"JOIN".toList, 1, .join "test".toList, none⟩]

end Program

/-! ### Every pipe can be sent to -/

section Aimed

variable (e : Engine)

/-- The `pubid` of every pipe that has a name can be read. -/
def State.Aimed (s : State) : Prop :=
  ∀ name pp, s.names name = some pp → pp.target.isSome

theorem start_aimed : State.start.Aimed := fun _ _ found => nomatch found

theorem setName_aimed {s : State} (aimed : s.Aimed) (key : Str) {pp : Pipe}
    (readable : pp.target.isSome) : (s.setName key pp).Aimed := by
  intro name pp' found
  change Function.update s.names key (some pp) name = some pp' at found
  by_cases same : name = key
  · rw [same, Function.update_self] at found
    rwa [← Option.some.inj found]
  · rw [Function.update_of_ne same] at found
    exact aimed name pp' found

theorem enter_aimed {s : State} (aimed : s.Aimed) (created : ℕ × ℕ) (p : Value) :
    (caught (enter e s created p)).Aimed := by
  unfold enter
  refine caught_orThrow_bind aimed fun pubid found => ?_
  refine caught_orThrow_bind aimed fun key _ => ?_
  refine caught_orThrow_bind (s := s.setPipe key _) aimed fun properties _ => ?_
  refine caught_orThrow_bind (s := s.setPipe key _) aimed fun name _ => ?_
  refine caught_orThrow_bind (s := s.setPipe key _) aimed fun nameKey _ => ?_
  exact setName_aimed (s := s.setPipe key _) aimed nameKey (Option.isSome_of_eq_some found)

theorem enterUsers_aimed {s : State} (aimed : s.Aimed) (id i : ℕ) (users : List Value) :
    (caught (enterUsers e id s i users)).Aimed := by
  induction users generalizing s i with
  | nil => exact aimed
  | cons user users ih =>
    unfold enterUsers
    exact caught_bind (enter_aimed e aimed (id, i + 1) user) fun s' aimed' => ih aimed' (i + 1)

theorem handleChannel_aimed {s : State} (aimed : s.Aimed) (id : ℕ) (chnl : Value) :
    (caught (handleChannel e s id chnl)).Aimed := by
  unfold handleChannel
  refine caught_orThrow_bind aimed fun p _ => ?_
  refine caught_bind (enter_aimed e aimed (id, 0) p) fun s' aimed' => ?_
  refine caught_orThrow_bind aimed' fun casttype _ => ?_
  refine caught_orThrow_bind aimed' fun multi _ => ?_
  cases multi with
  | false => exact aimed'
  | true =>
    refine caught_orThrow_bind aimed' fun users _ => ?_
    refine caught_orThrow_bind aimed' fun elems _ => ?_
    exact enterUsers_aimed e aimed' id 0 elems

theorem run_aimed {s : State} (aimed : s.Aimed) (id : ℕ) (raw : Json) (handler : Handler) :
    (caught (handler.run e s id (some raw))).Aimed := by
  by_cases login : handler = .login
  · rw [login, login_caught]
    cases dataField raw "sessid" <;> exact aimed
  by_cases ident : handler = .ident
  · rw [ident, ident_caught]
    cases dataField raw "user" <;> exact aimed
  by_cases channel : handler = .channel
  · rw [channel, channel_run]
    exact caught_orThrow_bind aimed fun data _ => handleChannel_aimed e aimed id data
  · rwa [run_caught_of_reads e s id _ login ident channel]

/-- Whatever the array of messages, also when it ends with an exception. -/
theorem handle_aimed {s : State} (aimed : s.Aimed) (rawArr : List Json) :
    (handle e s rawArr).Aimed := by
  refine Runs.final_inv State.Aimed (fun s raw called s' aimed returned => ?_) _ aimed
  obtain ⟨-, rfl⟩ := handleMsg_eq_some e returned
  cases called with
  | none => exact aimed
  | some handler => exact run_aimed e aimed raw.2 raw.1 handler

end Aimed

variable (e : Evaluator)

/-- Whatever the packet. -/
theorem data_aimed {s : State} (aimed : s.Aimed) (l : Str) : (data e s l).Aimed := by
  unfold data
  split
  · exact aimed
  · split
    · unfold handleValue
      split
      · split
        · exact handle_aimed e.toEngine aimed _
        · exact aimed
      · exact aimed
    · exact aimed

theorem stateAfter_snoc (rounds : List Round) (r : Round) : stateAfter e (rounds ++ [r]) =
    match r.packet with
    | some l => data e (stateAfter e rounds) l
    | none => stateAfter e rounds := by
  unfold stateAfter
  cases found : r.packet with
  | none => simp [found]
  | some l => simp [found]

theorem stateAfter_aimed (rounds : List Round) : (stateAfter e rounds).Aimed := by
  induction rounds using List.reverseRecOn with
  | nil => exact start_aimed
  | append_singleton rounds r ih =>
    rw [stateAfter_snoc]
    cases r.packet with
    | none => exact ih
    | some l => exact data_aimed e ih l

/-! ### One more round -/

theorem stateAt_snoc {rounds : List Round} {k : ℕ} (early : k ≤ rounds.length / 6) (r : Round) :
    stateAt e (rounds ++ [r]) k = stateAt e rounds k := by
  unfold stateAt
  rw [List.take_append_of_le_length (by omega)]

theorem testAt_snoc {rounds : List Round} {k : ℕ} (early : k ≤ rounds.length / 6) (r : Round) :
    testAt e (rounds ++ [r]) k = testAt e rounds k := by
  unfold testAt
  rw [stateAt_snoc e early]

theorem find?_snoc (rounds : List Round) (r : Round) :
    (List.range' 1 (rounds.length / 6)).find? (fun k => (testAt e (rounds ++ [r]) k).isSome) =
      firstKnown e rounds := by
  refine List.find?_congr fun k among => ?_
  rw [testAt_snoc e (by simp at among; omega)]

theorem firstKnown_snoc {rounds : List Round} (quiet : (rounds.length + 1) % 6 ≠ 0) (r : Round) :
    firstKnown e (rounds ++ [r]) = firstKnown e rounds := by
  have same : (rounds ++ [r]).length / 6 = rounds.length / 6 := by
    rw [List.length_append, List.length_singleton]
    omega
  rw [firstKnown, same, find?_snoc]

theorem firstKnown_sixth {rounds : List Round} (sixth : (rounds.length + 1) % 6 = 0) (r : Round) :
    firstKnown e (rounds ++ [r]) = (firstKnown e rounds).or
      (if (testAt e (rounds ++ [r]) (rounds.length / 6 + 1)).isSome then
        some (rounds.length / 6 + 1) else none) := by
  have one : (rounds ++ [r]).length / 6 = rounds.length / 6 + 1 := by
    rw [List.length_append, List.length_singleton]
    omega
  rw [firstKnown, one, List.range'_concat, List.find?_append, find?_snoc, Nat.one_mul,
    Nat.add_comm 1, List.find?_singleton]

theorem firstKnown_bounds {rounds : List Round} {first : ℕ}
    (known : firstKnown e rounds = some first) :
    (testAt e rounds first).isSome ∧ first ≤ rounds.length / 6 := by
  obtain ⟨found, among, -⟩ := List.find?_range'_eq_some.1 known
  rw [List.mem_range'_1] at among
  exact ⟨found, by omega⟩

theorem sendAt_snoc {rounds : List Round} {first k : ℕ} (here : first ≤ rounds.length / 6)
    (early : k ≤ rounds.length / 6) (r : Round) :
    sendAt e (rounds ++ [r]) first k = sendAt e rounds first k := by
  unfold sendAt
  rw [testAt_snoc e here, stateAt_snoc e early]

theorem map_sendAt_snoc {rounds : List Round} {first : ℕ} (here : first ≤ rounds.length / 6)
    (r : Round) :
    (List.range' first (rounds.length / 6 + 1 - first)).map
        (fun k => [sendAt e (rounds ++ [r]) first k]) =
      (List.range' first (rounds.length / 6 + 1 - first)).map
        fun k => [sendAt e rounds first k] := by
  refine List.map_congr_left fun k among => ?_
  rw [List.mem_range'_1] at among
  rw [sendAt_snoc e here (by omega)]

theorem sends_of_firstKnown {rounds : List Round} {first : ℕ}
    (known : firstKnown e rounds = some first) : sends e rounds =
      (List.range' first (rounds.length / 6 + 1 - first)).map
        fun k => [sendAt e rounds first k] := by
  rw [sends, known]

theorem sends_of_none {rounds : List Round} (unknown : firstKnown e rounds = none) :
    sends e rounds = [] := by
  rw [sends, unknown]

theorem sends_quiet {rounds : List Round} (quiet : (rounds.length + 1) % 6 ≠ 0) (r : Round) :
    sends e (rounds ++ [r]) = sends e rounds := by
  have same := firstKnown_snoc e quiet r
  cases known : firstKnown e rounds with
  | none => rw [sends_of_none e known, sends_of_none e (same.trans known)]
  | some first =>
    have length : (rounds ++ [r]).length / 6 = rounds.length / 6 := by
      rw [List.length_append, List.length_singleton]
      omega
    rw [sends_of_firstKnown e known, sends_of_firstKnown e (same.trans known), length,
      map_sendAt_snoc e (firstKnown_bounds e known).2]

/-- A sixth round in which the channel is known, now or before, adds one command. -/
theorem sends_sixth {rounds : List Round} (sixth : (rounds.length + 1) % 6 = 0) {r : Round}
    {first : ℕ} (known : firstKnown e (rounds ++ [r]) = some first) :
    sends e (rounds ++ [r]) = sends e rounds ++
        [[sendAt e (rounds ++ [r]) first (rounds.length / 6 + 1)]] ∧
      (sends e rounds).length = rounds.length / 6 + 1 - first := by
  have length : (rounds ++ [r]).length / 6 = rounds.length / 6 + 1 := by
    rw [List.length_append, List.length_singleton]
    omega
  have all := sends_of_firstKnown e known
  rw [length] at all
  have grown := firstKnown_sixth e sixth r
  rw [known] at grown
  cases old : firstKnown e rounds with
  | some earlier =>
    rw [old, Option.some_or] at grown
    obtain rfl := Option.some.inj grown
    have here := (firstKnown_bounds e old).2
    have more : rounds.length / 6 + 1 + 1 - first = rounds.length / 6 + 1 - first + 1 := by omega
    have last : first + 1 * (rounds.length / 6 + 1 - first) = rounds.length / 6 + 1 := by omega
    rw [all, sends_of_firstKnown e old, more, List.range'_concat, List.map_append,
      map_sendAt_snoc e here, last]
    exact ⟨rfl, by rw [List.length_map, List.length_range']⟩
  | none =>
    rw [old, Option.none_or] at grown
    obtain ⟨-, new⟩ := Option.ite_none_right_eq_some.1 grown.symm
    obtain rfl := Option.some.inj new
    have single : rounds.length / 6 + 1 + 1 - (rounds.length / 6 + 1) = 1 := by omega
    rw [all, sends_of_none e old, single]
    exact ⟨rfl, by simp⟩

theorem sends_unknown {rounds : List Round} {r : Round} (sixth : (rounds.length + 1) % 6 = 0)
    (unknown : firstKnown e (rounds ++ [r]) = none) :
    sends e (rounds ++ [r]) = sends e rounds := by
  have grown := firstKnown_sixth e sixth r
  rw [unknown] at grown
  rw [sends_of_none e unknown, sends_of_none e (Option.or_eq_none_iff.1 grown.symm).1]

/-- The program between two rounds, as long as it runs. -/
structure Kept (name : Str) (rounds : List Round) (c : Client) : Prop where
  state : c.state = stateAfter e rounds
  ctr : c.ctr = rounds.length
  channel : c.channel = (firstKnown e rounds).bind (testAt e rounds)
  chl : c.chl = 2 + (sends e rounds).length
  sent : c.sent = opening name :: sends e rounds

section Step

variable {e} {name : Str} {rounds : List Round} {c c' : Client} {r : Round}

theorem stateAt_sixth (sixth : (rounds.length + 1) % 6 = 0) :
    stateAt e (rounds ++ [r]) (rounds.length / 6 + 1) = stateAfter e (rounds ++ [r]) := by
  have all : (rounds ++ [r]).length ≤ 6 * (rounds.length / 6 + 1) := by
    rw [List.length_append, List.length_singleton]
    omega
  rw [stateAt, List.take_of_length_le all]

/-- The variable `channel` once it has been looked for. -/
theorem channel_sixth (sixth : (rounds.length + 1) % 6 = 0)
    (before : c.channel = (firstKnown e rounds).bind (testAt e rounds)) :
    (match c.channel with
      | some channel => some channel
      | none => (stateAfter e (rounds ++ [r])).names "test".toList) =
      (firstKnown e (rounds ++ [r])).bind (testAt e (rounds ++ [r])) := by
  have grown := firstKnown_sixth e sixth r
  cases old : firstKnown e rounds with
  | some first =>
    obtain ⟨found, here⟩ := firstKnown_bounds e old
    obtain ⟨pp, found⟩ := Option.isSome_iff_exists.1 found
    rw [old, Option.some_or] at grown
    rw [before, old, grown, Option.bind_some, Option.bind_some, found, testAt_snoc e here, found]
  | none =>
    rw [old, Option.none_or] at grown
    rw [before, old, grown, Option.bind_none]
    have now : (stateAfter e (rounds ++ [r])).names "test".toList =
        testAt e (rounds ++ [r]) (rounds.length / 6 + 1) := by
      rw [testAt, stateAt_sixth sixth]
    rw [now]
    cases found : testAt e (rounds ++ [r]) (rounds.length / 6 + 1) with
    | none => rfl
    | some pp => exact found.symm

theorem round_quiet (kept : Kept e name rounds c) (running : c.ended = false)
    (polled : r.polled = true) (quiet : (rounds.length + 1) % 6 ≠ 0) :
    c.round e r =
      some { c with state := stateAfter e (rounds ++ [r]), ctr := rounds.length + 1 } := by
  rw [stateAfter_snoc, ← kept.state, ← kept.ctr]
  rw [← kept.ctr] at quiet
  unfold Client.round
  cases r.packet <;> simp [running, polled, quiet]

/-- In a sixth one, the channel is looked for and sent to. -/
theorem round_sixth (kept : Kept e name rounds c) (running : c.ended = false)
    (polled : r.polled = true) (sixth : (rounds.length + 1) % 6 = 0) :
    c.round e r = some (
      let c : Client := { c with
        state := stateAfter e (rounds ++ [r]), ctr := rounds.length + 1,
        channel := (firstKnown e (rounds ++ [r])).bind (testAt e (rounds ++ [r])) }
      match c.channel with
      | some channel => c.sendChannel e channel (Client.testing (rounds.length + 1)) r.wrote
      | none => c) := by
  rw [← channel_sixth sixth kept.channel]
  rw [stateAfter_snoc, ← kept.state, ← kept.ctr]
  rw [← kept.ctr] at sixth
  unfold Client.round
  cases r.packet <;> cases found : c.channel <;> simp [running, polled, sixth, found]

/-- A round that lets the program run keeps what is known; one that ends it has sent nothing. -/
theorem round_kept (kept : Kept e name rounds c) (running : c.ended = false)
    (stepped : c.round e r = some c') :
    (c'.ended = false → Kept e name (rounds ++ [r]) c') ∧
      (c'.ended = true → c'.sent = c.sent) := by
  have count : rounds.length + 1 = (rounds ++ [r]).length := by simp
  cases polled : r.polled with
  | false =>
    rw [Client.round, running, polled] at stepped
    obtain rfl := Option.some.inj stepped
    exact ⟨fun running => absurd running.symm Bool.false_ne_true, fun _ => rfl⟩
  | true =>
    by_cases sixth : (rounds.length + 1) % 6 = 0
    · rw [round_sixth kept running polled sixth, Option.some.injEq] at stepped
      cases known : firstKnown e (rounds ++ [r]) with
      | none =>
        rw [known] at stepped
        subst stepped
        have same := sends_unknown e sixth known
        refine ⟨fun _ => ⟨rfl, count, ?_, ?_, ?_⟩,
          fun ended => absurd (running.symm.trans ended) Bool.false_ne_true⟩
        · rw [known]
          rfl
        · rw [same]
          exact kept.chl
        · rw [same]
          exact kept.sent
      | some first =>
        obtain ⟨found, here⟩ := firstKnown_bounds e known
        obtain ⟨pp, found⟩ := Option.isSome_iff_exists.1 found
        obtain ⟨pubid, aimed⟩ := Option.isSome_iff_exists.1
          (stateAfter_aimed e ((rounds ++ [r]).take (6 * first)) _ pp found)
        obtain ⟨added, length⟩ := sends_sixth e sixth known
        have sixfold : 6 * (rounds.length / 6 + 1) = rounds.length + 1 := by omega
        have command : sendAt e (rounds ++ [r]) first (rounds.length / 6 + 1) =
            ⟨"SEND".toList, c.chl, .send (Client.testing (rounds.length + 1)) pubid,
              carried e (stateAfter e (rounds ++ [r]))⟩ := by
          rw [sendAt, sixfold, kept.chl, length, found, stateAt_sixth sixth, Option.bind_some,
            aimed, Option.getD_some]
        rw [command] at added
        simp only [known, Option.bind_some, found, Client.sendChannel, aimed, Client.newCmd,
          Client.send] at stepped
        cases wrote : r.wrote with
        | false =>
          rw [wrote] at stepped
          subst stepped
          exact ⟨fun running => absurd running.symm Bool.false_ne_true, fun _ => rfl⟩
        | true =>
          rw [wrote, if_pos rfl] at stepped
          subst stepped
          refine ⟨fun _ => ⟨rfl, count, ?_, ?_, ?_⟩,
            fun ended => absurd (running.symm.trans ended) Bool.false_ne_true⟩
          · rw [known, Option.bind_some, found]
          · rw [added, List.length_append, List.length_singleton, kept.chl, Nat.add_assoc]
          · rw [added, kept.sent, List.cons_append]
    · rw [round_quiet kept running polled sixth, Option.some.injEq] at stepped
      subst stepped
      have same := sends_quiet e sixth r
      have known := firstKnown_snoc e sixth r
      refine ⟨fun _ => ⟨rfl, count, ?_, ?_, ?_⟩,
        fun ended => absurd (running.symm.trans ended) Bool.false_ne_true⟩
      · rw [known, kept.channel]
        cases found : firstKnown e rounds with
        | none => rfl
        | some first => exact (testAt_snoc e (firstKnown_bounds e found).2 r).symm
      · rw [same]
        exact kept.chl
      · rw [same]
        exact kept.sent

end Step

/-! ### A whole session -/

theorem start_kept (name : Str) (opened wrote : Bool)
    (running : (Client.start e name opened wrote).ended = false) :
    Kept e name [] (Client.start e name opened wrote) := by
  cases opened with
  | false => exact absurd running.symm Bool.false_ne_true
  | true =>
    cases wrote with
    | false => exact absurd running.symm Bool.false_ne_true
    | true => exact ⟨rfl, rfl, rfl, rfl, rfl⟩

theorem sends_prefix_snoc (rounds : List Round) (r : Round) :
    sends e rounds <+: sends e (rounds ++ [r]) := by
  by_cases sixth : (rounds.length + 1) % 6 = 0
  · cases known : firstKnown e (rounds ++ [r]) with
    | none => exact ⟨[], by rw [List.append_nil, sends_unknown e sixth known]⟩
    | some first =>
      rw [(sends_sixth e sixth known).1]
      exact List.prefix_append _ _
  · exact ⟨[], by rw [List.append_nil, sends_quiet e sixth]⟩

/-- The commands are numbered in the order of sending. -/
theorem sends_chl (rounds : List Round) : (sends e rounds).flatten.map Cmd.chl =
    List.range' 2 (sends e rounds).flatten.length := by
  cases known : firstKnown e rounds with
  | none =>
    rw [sends_of_none e known]
    rfl
  | some first =>
    rw [sends_of_firstKnown e known, ← List.flatMap_def, ← List.map_eq_flatMap, List.map_map,
      List.length_map, List.length_range', List.range'_eq_map_range, List.range'_eq_map_range,
      List.map_map]
    refine List.map_congr_left fun i _ => ?_
    change 2 + (first + i - first) = 2 + i
    rw [Nat.add_sub_cancel_left]

/-- The messages of a login and of the channel. -/
def login : Json := .obj [("raw".toList, .str "LOGIN".toList),
  ("data".toList, .obj [("sessid".toList, .str "abc".toList)])]

def testChannel : Json := .obj [("raw".toList, .str "CHANNEL".toList),
  ("data".toList, .obj [("pipe".toList, .obj [("pubid".toList, .str "7f".toList),
    ("properties".toList, .obj [("name".toList, .str "test".toList)])])])]

/-- The texts of two packets. -/
def loginText : Str :=
  "[\x7b\"raw\":\"LOGIN\",\"data\":\x7b\"sessid\":\"abc\"\x7d\x7d]".toList

def channelText : Str :=
  "[\x7b\"raw\":\"CHANNEL\",\"data\":\x7b\"pipe\":\x7b\"pubid\":\"7f\",".toList ++
    "\"properties\":\x7b\"name\":\"test\"\x7d\x7d\x7d\x7d]".toList

/-- An engine that knows the two packets. -/
def asciiEvaluator : Evaluator where
  toEngine := .ascii
  zero _ := false
  eval l := if l = loginText then some (some (.arr [login]))
    else if l = channelText then some (some (.arr [testChannel])) else none

/-- A login, then the channel; everything else is silence. -/
def quietRounds : List Round :=
  [⟨true, some loginText, true⟩, ⟨true, none, true⟩, ⟨true, some channelText, true⟩] ++
    List.replicate 10 ⟨true, none, true⟩

end Sysjs.Ape
