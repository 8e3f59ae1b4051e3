import Sysjs.Socket.Object

/-!
# `poll`

`js_sock_poll` fills one entry for each element of an array of Sockets, hands the entries to
`poll(2)` and calls back the objects whose entries report something.  The loop that fills the
entries shortens its own bound when it skips a closed Socket, while its index goes on.
-/

set_option autoImplicit false

namespace Sysjs.Poll

/-- The events asked for: `POLLIN | POLLPRI | POLLRDHUP | POLLRDNORM`. -/
def watched : BitVec 16 := 0x2043

def pollin : BitVec 16 := 0x1

/-- `POLLERR | POLLHUP | POLLNVAL | POLLRDHUP`. -/
def failure : BitVec 16 := 0x2038

/-- An element of the array: no object, an object of another class, or a Socket with its `sock`. -/
inductive Elem where
  | primitive
  | foreign
  | socket (obj : ℕ) (sock : ℤ)

/-- `struct pollfd`. -/
structure PollFd where
  fd : ℤ
  events : BitVec 16
  revents : BitVec 16
  deriving DecidableEq

/-- What the loop leaves at one index: `sockArray[i]`, and `fds[i]` when it wrote it. -/
structure Slot where
  obj : ℕ
  entry : Option PollFd
  deriving DecidableEq

/-- A callback: the method `error` with the reported events, or the method `data`. -/
inductive Callback where
  | error (obj : ℕ) (revents : BitVec 16)
  | data (obj : ℕ)
  deriving DecidableEq

/-- The arguments: an array and a timeout, or anything else. -/
inductive Args where
  | array (elems : List Elem) (timeout : ℤ)
  | other

/-- What a call does: the entries given to `poll(2)`, the callbacks, and the return value. -/
structure Outcome where
  given : List Slot
  calls : List Callback
  ret : Ret UInt8

/-- The filling loop from index `i` on with the bound `len`: the final bound and the slots of the
indices it visits. -/
def fill (i len : ℕ) : List Elem → Except String (ℕ × List Slot)
  | [] => .ok (len, [])
  | e :: rest =>
    if i < len then
      match e with
      | .primitive => .error "array element %d is not an object!"
      | .foreign => .error "Works with socket elements only!"
      | .socket obj sock =>
        if sock = -1 then  -- "socket idx %d closed - IGNORING!\n"
          (fill (i + 1) (len - 1) rest).map fun r => (r.1, { obj := obj, entry := none } :: r.2)
        else
          (fill (i + 1) len rest).map fun r =>
            (r.1, { obj := obj, entry := some { fd := sock, events := watched, revents := 0 } } ::
              r.2)
    else .ok (len, [])

/-- What `poll(2)` reports in an entry: nothing new when it fails, and nothing for a negative
descriptor. -/
def report (outcome : Option (ℤ → BitVec 16)) (e : PollFd) : BitVec 16 :=
  match outcome with
  | none => e.revents
  | some ready => if e.fd < 0 then 0 else ready e.fd

/-- The dispatch loop over objects and reported events; `normal` says which callbacks return
normally. -/
def dispatch (normal : Callback → Bool) : List (ℕ × BitVec 16) → List Callback × Ret UInt8
  | [] => ([], .done .void)
  | (obj, revents) :: rest =>
    let failed := if revents &&& failure ≠ 0 then [.error obj revents] else []
    if revents &&& pollin ≠ 0 then
      if normal (.data obj) then
        let later := dispatch normal rest
        (failed ++ .data obj :: later.1, later.2)
      else (failed ++ [.data obj], .error "function call II returned false!")
    else
      let later := dispatch normal rest
      (failed ++ later.1, later.2)

/-- `js_sock_poll` on a Socket with the descriptor `self`; `stack` is what the local array holds
before it is written. -/
def jsSockPoll (self : ℤ) (args : Args) (stack : ℕ → PollFd) (outcome : Option (ℤ → BitVec 16))
    (normal : Callback → Bool) : Outcome :=
  if self < 0 then { given := [], calls := [], ret := .error "socket is closed!" }
  else match args with
    | .other =>
      { given := [], calls := [], ret := .error "pass an array of Sockets + timeout in ms!" }
    | .array elems _ => match fill 0 elems.length elems with
      | .error format => { given := [], calls := [], ret := .error format }
      | .ok (len, slots) =>
        let given := slots.take len
        let reported := given.mapIdx fun i slot =>
          (slot.obj, report outcome (slot.entry.getD (stack i)))
        let run := dispatch normal reported
        { given := given, calls := run.1, ret := run.2 }

/-! ### What a call should do -/

/-- The callbacks for one object and what its descriptor reported. -/
def notify (obj : ℕ) (revents : BitVec 16) : List Callback :=
  (if revents &&& failure ≠ 0 then [.error obj revents] else []) ++
    (if revents &&& pollin ≠ 0 then [.data obj] else [])

/-- A fresh entry for a descriptor. -/
def entryFor (sock : ℤ) : PollFd := { fd := sock, events := watched, revents := 0 }

/-- The callbacks for an array of objects and their descriptors: none for closed ones. -/
def expected (outcome : Option (ℤ → BitVec 16)) (socks : List (ℕ × ℤ)) : List Callback :=
  socks.flatMap fun s => if s.2 = -1 then [] else notify s.1 (report outcome (entryFor s.2))

/-- The open Sockets of the array are watched and notified, and nothing else is. -/
structure Exact (socks : List (ℕ × ℤ)) (outcome : Option (ℤ → BitVec 16)) (o : Outcome) : Prop where
  watched : ∀ s ∈ socks, s.2 ≠ -1 → ∃ slot ∈ o.given, slot.obj = s.1 ∧
    ∃ e, slot.entry = some e ∧ e.fd = s.2
  initialised : ∀ slot ∈ o.given, slot.entry.isSome
  notified : o.calls = expected outcome socks

/-- Every element but the last is open. -/
def OpenButLast (socks : List (ℕ × ℤ)) : Prop := ∀ s ∈ socks.dropLast, s.2 ≠ -1

/-- The array elements for objects and their descriptors. -/
def elems (socks : List (ℕ × ℤ)) : List Elem := socks.map fun s => .socket s.1 s.2

/-- The slot of an open Socket. -/
def slotFor (s : ℕ × ℤ) : Slot := { obj := s.1, entry := some (entryFor s.2) }

/-! ### The filling loop -/

theorem fill_closed {i len obj : ℕ} {rest : List Elem} (more : i < len) :
    fill i len (.socket obj (-1) :: rest) =
      (fill (i + 1) (len - 1) rest).map fun r => (r.1, { obj := obj, entry := none } :: r.2) := by
  rw [fill, if_pos more]
  rfl

/-- Over open Sockets the loop fills one entry each and keeps its bound. -/
theorem fill_open (i len : ℕ) {socks : List (ℕ × ℤ)} (rest : List Elem)
    (all : ∀ s ∈ socks, s.2 ≠ -1) (more : i + socks.length ≤ len) :
    fill i len (elems socks ++ rest) =
      (fill (i + socks.length) len rest).map fun r => (r.1, socks.map slotFor ++ r.2) := by
  induction socks generalizing i with
  | nil =>
    cases h : fill i len rest <;> simp [elems, Except.map, h]
  | cons s socks ih =>
    rw [List.length_cons] at more
    have tail := ih (i + 1) (fun t ht => all t (List.mem_cons_of_mem _ ht)) (by omega)
    have shift : i + 1 + socks.length = i + (socks.length + 1) := by omega
    have here : s.2 ≠ -1 := all s List.mem_cons_self
    rw [elems, List.map_cons, List.cons_append, fill, if_pos (by omega)]
    simp only [if_neg here]
    rw [← elems, tail, shift, List.length_cons]
    cases fill (i + (socks.length + 1)) len rest <;> rfl

/-- Over Sockets the loop meets no error. -/
theorem fill_ok (i len : ℕ) (socks : List (ℕ × ℤ)) : ∃ r, fill i len (elems socks) = .ok r := by
  induction socks generalizing i len with
  | nil => exact ⟨_, rfl⟩
  | cons s socks ih =>
    by_cases more : i < len
    · rw [elems, List.map_cons, fill, if_pos more]
      split
      · obtain ⟨r, eq⟩ := ih (i + 1) (len - 1)
        rw [← elems, eq]
        exact ⟨_, rfl⟩
      · obtain ⟨r, eq⟩ := ih (i + 1) len
        rw [← elems, eq]
        exact ⟨_, rfl⟩
    · rw [elems, List.map_cons, fill, if_neg more]
      exact ⟨_, rfl⟩

/-- The bound does not fall below the index. -/
theorem le_of_fill {i len len' : ℕ} {es : List Elem} {slots : List Slot}
    (h : fill i len es = .ok (len', slots)) : min i len ≤ len' := by
  induction es generalizing i len slots with
  | nil =>
    simp only [fill, Except.ok.injEq, Prod.mk.injEq] at h
    omega
  | cons e rest ih =>
    unfold fill at h
    split at h
    · next more =>
      cases e with
      | primitive => cases h
      | foreign => cases h
      | socket obj sock =>
        dsimp only at h
        split at h
        · cases hr : fill (i + 1) (len - 1) rest with
          | error format => simp [hr, Except.map] at h
          | ok r =>
            obtain ⟨bound', slots'⟩ := r
            simp only [hr, Except.map, Except.ok.injEq, Prod.mk.injEq] at h
            obtain ⟨rfl, -⟩ := h
            have bound := ih hr
            omega
        · cases hr : fill (i + 1) len rest with
          | error format => simp [hr, Except.map] at h
          | ok r =>
            obtain ⟨bound', slots'⟩ := r
            simp only [hr, Except.map, Except.ok.injEq, Prod.mk.injEq] at h
            obtain ⟨rfl, -⟩ := h
            have bound := ih hr
            omega
    · simp only [Except.ok.injEq, Prod.mk.injEq] at h
      omega

/-- When every element but the last is open, exactly the open ones are given. -/
theorem fill_of_openButLast {socks : List (ℕ × ℤ)} (most : OpenButLast socks) :
    ∃ len slots, fill 0 socks.length (elems socks) = .ok (len, slots) ∧
      slots.take len = (socks.filter fun s => s.2 ≠ -1).map slotFor := by
  rcases List.eq_nil_or_concat socks with rfl | ⟨pre, last, rfl⟩
  · exact ⟨0, [], rfl, rfl⟩
  · rw [OpenButLast, List.concat_eq_append, List.dropLast_concat] at most
    have kept : (pre.filter fun s => s.2 ≠ -1) = pre := List.filter_eq_self.2 (by simpa using most)
    have walk := fill_open 0 (pre ++ [last]).length (elems [last]) most (by simp)
    rw [← show elems (pre ++ [last]) = elems pre ++ elems [last] from List.map_append] at walk
    rw [List.concat_eq_append, walk]
    by_cases closed : last.2 = -1
    · refine ⟨pre.length, pre.map slotFor ++ [{ obj := last.1, entry := none }], ?_, ?_⟩
      · have last_closed : elems [last] = [.socket last.1 (-1)] := by simp [elems, closed]
        rw [last_closed, fill_closed (by simp)]
        simp [fill, Except.map]
      · rw [List.take_left' (by simp), List.filter_append, kept]
        simp [closed]
    · refine ⟨(pre ++ [last]).length, pre.map slotFor ++ [slotFor last], ?_, ?_⟩
      · have room : 0 + pre.length < (pre ++ [last]).length := by simp
        simp only [elems, List.map_cons, List.map_nil, fill, if_pos room, if_neg closed, Except.map]
        rfl
      · rw [List.take_of_length_le (by simp), List.filter_append, kept]
        simp [closed]

/-- When a closed element stands before the last, an entry that was never written is given. -/
theorem fill_of_closed {socks : List (ℕ × ℤ)} (some_closed : ¬ OpenButLast socks) :
    ∃ len slots, fill 0 socks.length (elems socks) = .ok (len, slots) ∧
      ∃ slot ∈ slots.take len, slot.entry = none := by
  unfold OpenButLast at some_closed
  simp only [not_forall, not_not] at some_closed
  obtain ⟨s, hs, closed⟩ := some_closed
  obtain ⟨pre, c, post, split, before, here⟩ := Block.split_at_first
    (fun s : ℕ × ℤ => s.2 == -1) ⟨s, hs, by simpa using closed⟩
  obtain rfl | ⟨front, last, rfl⟩ := List.eq_nil_or_concat socks
  · cases hs
  rw [List.concat_eq_append, List.dropLast_concat] at split
  have all : ∀ t ∈ pre, t.2 ≠ -1 := fun t ht => by simpa using before t ht
  have shut : c.2 = -1 := by simpa using here
  have count : (front.concat last).length = pre.length + post.length + 2 := by
    rw [List.concat_eq_append, split]
    simp only [List.length_append, List.length_cons, List.length_nil]
    omega
  have walk := fill_open 0 (front.concat last).length
    (.socket c.1 (-1) :: elems (post ++ [last])) all (by omega)
  have whole : elems (front.concat last) =
      elems pre ++ .socket c.1 (-1) :: elems (post ++ [last]) := by
    rw [List.concat_eq_append, split, elems, List.append_assoc, List.map_append,
      List.cons_append, List.map_cons, shut]
    rfl
  obtain ⟨⟨len, slots⟩, tail⟩ := fill_ok (0 + pre.length + 1) ((front.concat last).length - 1)
    (post ++ [last])
  have bound := le_of_fill tail
  refine ⟨len, pre.map slotFor ++ { obj := c.1, entry := none } :: slots, ?_,
    { obj := c.1, entry := none }, ?_, rfl⟩
  · rw [whole, walk, fill_closed (by omega), tail]
    rfl
  · have left : len - (pre.map slotFor).length = len - pre.length - 1 + 1 := by
      rw [List.length_map]
      omega
    rw [List.take_append, left, List.take_succ_cons]
    exact List.mem_append_right _ List.mem_cons_self

/-! ### The dispatch loop -/

theorem dispatch_normal (reported : List (ℕ × BitVec 16)) :
    (dispatch (fun _ => true) reported).1 = reported.flatMap fun r => notify r.1 r.2 := by
  induction reported with
  | nil => rfl
  | cons r rest ih =>
    obtain ⟨obj, revents⟩ := r
    rw [List.flatMap_cons, ← ih, notify, dispatch]
    split <;> simp

theorem flatMap_filter_open {β : Type*} (f : ℕ × ℤ → List β) (socks : List (ℕ × ℤ)) :
    (socks.filter fun s => s.2 ≠ -1).flatMap f =
      socks.flatMap fun s => if s.2 = -1 then [] else f s := by
  induction socks with
  | nil => rfl
  | cons s rest ih =>
    by_cases closed : s.2 = -1
    · rw [List.filter_cons_of_neg (by simp [closed]), List.flatMap_cons, if_pos closed, ih,
        List.nil_append]
    · rw [List.filter_cons_of_pos (by simp [closed]), List.flatMap_cons, List.flatMap_cons,
        if_neg closed, ih]

/-- `poll` watches and notifies exactly the open Sockets of the array if and only if every element
but the last is open. -/
theorem poll_exact_iff (self : ℤ) (running : 0 ≤ self) (socks : List (ℕ × ℤ)) (timeout : ℤ)
    (stack : ℕ → PollFd) (outcome : Option (ℤ → BitVec 16)) :
    Exact socks outcome
      (jsSockPoll self (.array (elems socks) timeout) stack outcome fun _ => true) ↔
      OpenButLast socks := by
  have long : (elems socks).length = socks.length := List.length_map _
  have live : ¬ self < 0 := by omega
  constructor
  · intro exact_
    by_contra some_closed
    obtain ⟨len, slots, filled, slot, given, unset⟩ := fill_of_closed some_closed
    have initialised := exact_.initialised slot
    simp only [jsSockPoll, if_neg live, long, filled] at initialised
    simpa [unset] using initialised given
  · intro most
    obtain ⟨len, slots, filled, given⟩ := fill_of_openButLast most
    have reported : (((socks.filter fun s => s.2 ≠ -1).map slotFor).mapIdx fun i slot =>
        (slot.obj, report outcome (slot.entry.getD (stack i)))) =
        (socks.filter fun s => s.2 ≠ -1).map fun s => (s.1, report outcome (entryFor s.2)) :=
      List.ext_getElem (by simp) fun i hi hi' => by simp [slotFor]
    simp only [jsSockPoll, if_neg live, long, filled, given, reported]
    refine ⟨fun s hs open_ => ⟨slotFor s, ?_, rfl, entryFor s.2, rfl, rfl⟩,
      fun slot hslot => ?_, ?_⟩
    · exact List.mem_map_of_mem (List.mem_filter.2 ⟨hs, by simpa using open_⟩)
    · obtain ⟨s, -, rfl⟩ := List.mem_map.1 hslot
      rfl
    · rw [dispatch_normal, List.flatMap_map, expected, flatMap_filter_open]

/-- An open Socket with data, an open one that hung up, and a closed one at the end. -/
theorem poll_exact_iff_closed_last :
    Exact [(1, 5), (2, 6), (3, -1)] (some fun fd => if fd = 5 then 0x1 else 0x10)
      (jsSockPoll 5 (.array (elems [(1, 5), (2, 6), (3, -1)]) 100)
        (fun _ => { fd := 7, events := 0, revents := 0 })
        (some fun fd => if fd = 5 then 0x1 else 0x10) fun _ => true) :=
  (poll_exact_iff 5 (by decide) _ _ _ _).2 (by unfold OpenButLast; decide)

/-- A closed Socket in front of an open one: the open one is not given to `poll(2)`. -/
theorem poll_exact_iff_not_closed_first :
    ¬ Exact [(1, -1), (2, 5)] (some fun _ => 0x1)
      (jsSockPoll 5 (.array (elems [(1, -1), (2, 5)]) 100)
        (fun _ => { fd := 7, events := 0, revents := 0 }) (some fun _ => 0x1) fun _ => true) := by
  intro h
  exact absurd h.notified (by decide)

end Sysjs.Poll
