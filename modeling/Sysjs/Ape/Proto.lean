import Sysjs.Ape.Handshake
import Sysjs.Foundation.Runs

/-!
# The APE protocol

`APE_Proto` handles the messages of the server one after the other.  A handler that throws leaves
the state as it was at that point; an exception outside of `try` ends the whole array.
-/

set_option autoImplicit false

namespace Sysjs.Ape

/-- A JSON value; a number is given by its text. -/
inductive Json where
  | null
  | bool (b : Bool)
  | num (text : Str)
  | str (s : Str)
  | arr (elems : List Json)
  | obj (fields : List (Str × Json))

/-- A value of the script; `none` is `undefined`. -/
abbrev Value := Option Json

/-- What is left to the engine: `toLowerCase`; the text under which a value that is no string
becomes a key, and whether it is `==` to "multi", where `none` is an exception; and the elements of
an object that is used as an array. -/
structure Engine where
  lower : Str → Str
  keyText : Value → Option Str
  likeMulti : Value → Option Bool
  arrayLike : List (Str × Json) → List Value

/-- `v.name`; `none` is the exception for `undefined` and `null`. -/
def prop (v : Value) (name : String) : Option Value :=
  match v with
  | none => none
  | some .null => none
  | some (.obj fields) => some (fields.lookup name.toList)
  | some _ => some none

namespace Engine

variable (e : Engine)

/-- A value as the key of a property. -/
def key : Value → Option Str
  | some (.str s) => some s
  | v => e.keyText v

/-- `v == "multi"`. -/
def isMulti : Value → Option Bool
  | some (.str s) => some (s = "multi".toList)
  | v => e.likeMulti v

/-- `v[0], .., v[v.length - 1]`; `none` is the exception for `undefined` and `null`. -/
def elements : Value → Option (List Value)
  | none => none
  | some .null => none
  | some (.arr elems) => some (elems.map some)
  | some (.str s) => some (s.map fun c => some (.str [c]))
  | some (.obj fields) => some (e.arrayLike fields)
  | some _ => some []

/-- An engine for ASCII messages, with no array for a key and nothing else for an array. -/
def ascii : Engine where
  lower := List.map Char.toLower
  keyText
    | none => some "undefined".toList
    | some .null => some "null".toList
    | some (.bool b) => some (if b then "true".toList else "false".toList)
    | some (.num text) => some text
    | some _ => some "[object Object]".toList
  likeMulti _ := some false
  arrayLike _ := []

end Engine

/-- An `APE_Pipe`: its `pipe`, and which message it was made for and as which of its pipes, `none`
for one that was there before. -/
structure Pipe where
  created : Option (ℕ × ℕ)
  pipe : Value

/-- The `pipe` of the message that `send` makes. -/
def Pipe.target (pp : Pipe) : Option Value := prop pp.pipe "pubid"

/-- `proto.state`. -/
structure State where
  connected : Bool
  sessid : Value
  user : Value
  pipes : Str → Option Pipe
  names : Str → Option Pipe

namespace State

def setPipe (s : State) (key : Str) (pp : Pipe) : State :=
  { s with pipes := Function.update s.pipes key (some pp) }

def setName (s : State) (key : Str) (pp : Pipe) : State :=
  { s with names := Function.update s.names key (some pp) }

/-- The state of a new `APE_Proto`. -/
def start : State where
  connected := false
  sessid := none
  user := none
  pipes _ := none
  names _ := none

end State

/-- A computation that may throw, and the state in which it does. -/
def orThrow {α : Type} (s : State) : Option α → Except State α
  | none => .error s
  | some x => .ok x

variable (e : Engine)

/-- `pp = new APE_Pipe(this, p); state.pipes[p.pubid] = pp; state.names[p.properties.name] = pp;` -/
def enter (s : State) (created : ℕ × ℕ) (p : Value) : Except State State := do
  let pubid ← orThrow s (prop p "pubid")
  let pipeKey ← orThrow s (e.key pubid)
  let s := s.setPipe pipeKey ⟨some created, p⟩
  let properties ← orThrow s (prop p "properties")
  let name ← orThrow s (prop properties "name")
  let nameKey ← orThrow s (e.key name)
  .ok (s.setName nameKey ⟨some created, p⟩)

/-- `for (i=0;i<len;i++)` over the users of the message `id`. -/
def enterUsers (id : ℕ) : State → ℕ → List Value → Except State State
  | s, _, [] => .ok s
  | s, i, user :: users => do
    let s ← enter e s (id, i + 1) user
    enterUsers id s (i + 1) users

/-- `handleChannel`. -/
def handleChannel (s : State) (id : ℕ) (chnl : Value) : Except State State := do
  let p ← orThrow s (prop chnl "pipe")
  let s ← enter e s (id, 0) p
  let casttype ← orThrow s (prop p "casttype")
  let multi ← orThrow s (e.isMulti casttype)
  if multi then
    let users ← orThrow s (prop chnl "users")
    let users ← orThrow s (e.elements users)
    enterUsers e id s 0 users
  else .ok s

/-- `handleData`, `handleJoin` and `handleLeft`: they look up the pipe and have it print what `text`
reads of the message. -/
def forward (s : State) (msg : Value) (text : Value → Option Value) : Except State State := do
  let pipe ← orThrow s (prop msg "pipe")
  let pid ← orThrow s (prop pipe "pubid")
  let key ← orThrow s (e.key pid)
  match s.pipes key with
  | none => .ok s
  | some _ => do
    let _ ← orThrow s (text msg)
    .ok s

/-- What `APE_Pipe.handleData` reads. -/
def dataText (msg : Value) : Option Value := do
  let _ ← prop msg "msg"
  let sender ← prop msg "from"
  let properties ← prop sender "properties"
  prop properties "name"

/-- What `APE_Pipe.handleJoin` and `handleLeft` read. -/
def userText (msg : Value) : Option Value := do
  let user ← prop msg "user"
  let properties ← prop user "properties"
  prop properties "name"

/-- The properties of `serverFuncs`. -/
inductive Handler where
  | err
  | login
  | ident
  | channel
  | data
  | join
  | left
  deriving DecidableEq

/-- `serverFuncs[t]`; a name that only `Object.prototype` has changes nothing either. -/
def serverFuncs (t : Str) : Option Handler :=
  if t = "err".toList then some .err
  else if t = "login".toList then some .login
  else if t = "ident".toList then some .ident
  else if t = "channel".toList then some .channel
  else if t = "data".toList then some .data
  else if t = "join".toList then some .join
  else if t = "left".toList then some .left
  else none

/-- The handlers. -/
def Handler.run (s : State) (id : ℕ) (msg : Value) : Handler → Except State State
  | .err => do
    let data ← orThrow s (prop msg "data")
    let _ ← orThrow s (prop data "code")
    let _ ← orThrow s (prop data "value")
    .ok s
  | .login => do
    let data ← orThrow s (prop msg "data")
    let sessid ← orThrow s (prop data "sessid")
    .ok { s with sessid, connected := true }
  | .ident => do
    let data ← orThrow s (prop msg "data")
    let user ← orThrow s (prop data "user")
    .ok { s with user }
  | .channel => do
    let data ← orThrow s (prop msg "data")
    handleChannel e s id data
  | .data => do
    let data ← orThrow s (prop msg "data")
    forward e s data dataText
  | .join => do
    let data ← orThrow s (prop msg "data")
    forward e s data userText
  | .left => do
    let data ← orThrow s (prop msg "data")
    forward e s data userText

/-- The state in which a computation ends, whether it throws or not. -/
def caught : Except State State → State
  | .error s => s
  | .ok s => s

/-- `raw.raw`, when it is a string. -/
def rawText (raw : Json) : Option Str :=
  match prop (some raw) "raw" with
  | some (some (.str s)) => some s
  | _ => none

/-- `handleMsg` for the message with the number `id`: the handler that is called, if there is one,
and the state it leaves.  The call of `toLowerCase` is not inside `try`. -/
def handleMsg (s : State) (raw : Json × ℕ) : Option (Option Handler × State) :=
  match rawText raw.1 with
  | none => none
  | some text => match serverFuncs (e.lower text) with
    | none => some (none, s)
    | some handler => some (some handler, caught (handler.run e s raw.2 (some raw.1)))

/-- The state after `handle`, which numbers the messages of its array. -/
def handle (s : State) (rawArr : List Json) : State := Runs.final (handleMsg e) s rawArr.zipIdx

/-! ### Well formed messages -/

/-- The value under a path of names, if there is one. -/
def at? (v : Value) : List String → Value
  | [] => v
  | name :: path => match prop v name with
    | none => none
    | some w => at? w path

/-- The value under the path can be the key of a property. -/
def keyAt (v : Value) (path : List String) : Option Str :=
  match at? v path with
  | none => none
  | some w => e.key (some w)

/-- A pipe with its two keys: its `pubid` and its name. -/
structure Entry where
  pipe : Value
  pubid : Str
  name : Str

def entryOf (p : Value) : Option Entry := do
  let pubid ← keyAt e p ["pubid"]
  let name ← keyAt e p ["properties", "name"]
  some ⟨p, pubid, name⟩

/-- The users of a channel, when all have their keys. -/
def userEntries (data : Value) : Option (List Entry) :=
  match at? data ["users"] with
  | some (.arr users) => users.mapM fun user => entryOf e (some user)
  | _ => none

/-- A channel and the users that are entered with it, when no field is missing. -/
def channelEntries (data : Value) : Option (List Entry) := do
  let channel ← entryOf e (at? data ["pipe"])
  let casttype ← at? data ["pipe", "casttype"]
  let multi ← e.isMulti (some casttype)
  let users ← if multi then userEntries e data else some []
  some (channel :: users)

/-- The data has the fields that the handler reads. -/
def Handler.hasFields (data : Value) : Handler → Bool
  | .err => (at? data ["code"]).isSome && (at? data ["value"]).isSome
  | .login => (at? data ["sessid"]).isSome
  | .ident => (at? data ["user"]).isSome
  | .channel => (channelEntries e data).isSome
  | .data => (keyAt e data ["pipe", "pubid"]).isSome && (at? data ["msg"]).isSome &&
      (at? data ["from", "properties", "name"]).isSome
  | .join => (keyAt e data ["pipe", "pubid"]).isSome &&
      (at? data ["user", "properties", "name"]).isSome
  | .left => (keyAt e data ["pipe", "pubid"]).isSome &&
      (at? data ["user", "properties", "name"]).isSome

/-- The handler of a message, when its `raw` is a string and names one. -/
def handlerOf (raw : Json) : Option Handler := do
  let text ← rawText raw
  serverFuncs (e.lower text)

/-- A well formed message. -/
def wellFormed (raw : Json) : Bool :=
  match handlerOf e raw with
  | none => false
  | some handler => handler.hasFields e (at? (some raw) ["data"])

end Sysjs.Ape
