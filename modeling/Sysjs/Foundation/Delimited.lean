import Sysjs.Foundation.Block
import Mathlib.Data.List.TakeWhile

/-!
# Packets between delimiters

A receiver that takes a stream byte by byte: an opening byte starts a packet, a closing byte ends
it, and what stands between two packets is passed over.  How the stream is cut into pieces on its
way makes no difference to it.
-/

set_option autoImplicit false

namespace Sysjs.Delimited

variable {β : Type*}

/-- What a receiver has: the bytes of the packet it is in, and the packets it has completed. -/
structure Receiver (β : Type*) where
  holds : Option (List β)
  packets : List (List β)

namespace Receiver

def start : Receiver β := ⟨none, []⟩

variable (opens closes : β → Bool)

/-- The next byte of the stream. -/
def take (r : Receiver β) (b : β) : Receiver β :=
  match r.holds with
  | none => { r with holds := if opens b then some [] else none }
  | some l =>
    if closes b then ⟨none, r.packets ++ [l]⟩ else { r with holds := some (l ++ [b]) }

/-- All bytes of a stream. -/
def decode (r : Receiver β) (bytes : List β) : Receiver β := bytes.foldl (take opens closes) r

variable {opens closes} {r : Receiver β} {b : β}

theorem take_of_between (between : r.holds = none) (garbage : opens b = false) :
    take opens closes r b = r := by
  cases r
  subst between
  simp [take, garbage]

theorem take_of_open (between : r.holds = none) (opening : opens b = true) :
    take opens closes r b = ⟨some [], r.packets⟩ := by
  simp [take, between, opening]

theorem take_of_payload {l : List β} (inside : r.holds = some l) (payload : closes b = false) :
    take opens closes r b = ⟨some (l ++ [b]), r.packets⟩ := by
  simp [take, inside, payload]

theorem take_of_close {l : List β} (inside : r.holds = some l) (closing : closes b = true) :
    take opens closes r b = ⟨none, r.packets ++ [l]⟩ := by
  simp [take, inside, closing]

theorem decode_append (r : Receiver β) (front back : List β) :
    decode opens closes r (front ++ back) =
      decode opens closes (decode opens closes r front) back :=
  List.foldl_append

theorem decode_concat (r : Receiver β) (bytes : List β) (b : β) :
    decode opens closes r (bytes ++ [b]) = take opens closes (decode opens closes r bytes) b :=
  decode_append r bytes [b]

/-- Completed packets stay. -/
theorem packets_prefix (r : Receiver β) (bytes : List β) :
    r.packets <+: (decode opens closes r bytes).packets := by
  induction bytes generalizing r with
  | nil => exact List.prefix_rfl
  | cons b bytes ih =>
    refine List.IsPrefix.trans ?_ (ih (take opens closes r b))
    unfold take
    split
    · exact List.prefix_rfl
    · split
      · exact List.prefix_append _ _
      · exact List.prefix_rfl

theorem packets_of_part (r : Receiver β) {part whole : List β} (front : part <+: whole) :
    (decode opens closes r part).packets <+: (decode opens closes r whole).packets := by
  obtain ⟨rest, rfl⟩ := front
  rw [decode_append]
  exact packets_prefix _ _

theorem decode_of_between {bytes : List β} (between : r.holds = none)
    (garbage : ∀ x ∈ bytes, opens x = false) : decode opens closes r bytes = r := by
  induction bytes with
  | nil => rfl
  | cons b bytes ih =>
    obtain ⟨here, later⟩ := List.forall_mem_cons.1 garbage
    rw [decode, List.foldl_cons, take_of_between between here]
    exact ih later

theorem decode_of_payload {l bytes : List β} (inside : r.holds = some l)
    (payload : ∀ x ∈ bytes, closes x = false) :
    decode opens closes r bytes = ⟨some (l ++ bytes), r.packets⟩ := by
  induction bytes generalizing r l with
  | nil =>
    rw [List.append_nil, ← inside]
    rfl
  | cons b bytes ih =>
    obtain ⟨here, later⟩ := List.forall_mem_cons.1 payload
    rw [decode, List.foldl_cons, take_of_payload inside here]
    exact (ih rfl later).trans (by simp)

/-! ### What a sender puts on the stream -/

variable (closes) in
/-- What a receiver makes of a packet with this body: all before the first closing byte. -/
def received (body : List β) : List β := body.takeWhile fun x => !closes x

theorem received_of_split {body l rest : List β} {e c : β} (closing : closes e = true)
    (before : ∀ x ∈ l, closes x = false) (last : closes c = true)
    (split : body ++ [e] = l ++ c :: rest) : received closes body = l := by
  have front : ∀ m : List β, (m ++ [e]).takeWhile (fun x => !closes x) = received closes m := by
    intro m
    induction m with
    | nil => simp [received, closing]
    | cons x m ih => simp only [List.cons_append, List.takeWhile_cons, received, ih]
  rw [← front, split, List.takeWhile_append_of_pos (by simpa using before),
    List.takeWhile_cons_of_neg (by simp [last]), List.append_nil]

/-- A packet whose body has no opening byte is one packet to the receiver, and leaves it where it
was before. -/
theorem decode_packet {z e : β} {body : List β} (between : r.holds = none)
    (opening : opens z = true) (closing : closes e = true) (single : opens e = false)
    (plain : ∀ x ∈ body, opens x = false) :
    decode opens closes r (z :: (body ++ [e])) =
      ⟨none, r.packets ++ [received closes body]⟩ := by
  obtain ⟨l, c, rest, split, before, last⟩ := Block.split_at_first closes
    ⟨e, List.mem_append_right body (List.mem_singleton_self e), closing⟩
  have behind : ∀ x ∈ rest, opens x = false := by
    intro x hx
    have whole : x ∈ body ++ [e] := by
      rw [split]
      exact List.mem_append_right _ (List.mem_cons_of_mem _ hx)
    rcases List.mem_append.1 whole with text | last
    · exact plain x text
    · rwa [List.mem_singleton.1 last]
  rw [received_of_split closing before last split, decode, List.foldl_cons,
    take_of_open between opening, split, List.foldl_append]
  change decode opens closes (take opens closes (decode opens closes ⟨some [], r.packets⟩ l) c)
    rest = _
  rw [decode_of_payload rfl before, take_of_close rfl last, List.nil_append]
  exact decode_of_between rfl behind

/-- A stream of such packets. -/
theorem decode_packets {z e : β} {bodies : List (List β)} (between : r.holds = none)
    (opening : opens z = true) (closing : closes e = true) (single : opens e = false)
    (plain : ∀ body ∈ bodies, ∀ x ∈ body, opens x = false) :
    decode opens closes r (bodies.map fun body => z :: (body ++ [e])).flatten =
      ⟨none, r.packets ++ bodies.map (received closes)⟩ := by
  induction bodies generalizing r with
  | nil =>
    cases r
    subst between
    simp [decode]
  | cons body bodies ih =>
    obtain ⟨here, later⟩ := List.forall_mem_cons.1 plain
    rw [List.map_cons, List.flatten_cons, decode_append,
      decode_packet between opening closing single here, ih rfl later]
    simp

end Receiver

end Sysjs.Delimited
