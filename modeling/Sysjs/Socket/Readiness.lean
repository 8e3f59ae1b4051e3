import Sysjs.Socket.Methods
import Sysjs.Socket.Poll

/-!
# Readiness

`waitForInput` and `poll` ask the system whether a descriptor has input.  A line that is kept in the
buffer is not asked for.
-/

set_option autoImplicit false

namespace Sysjs

variable {α : Type*}

/-- `struct timeval`. -/
structure Timeval where
  sec : ℤ
  usec : ℤ
  deriving DecidableEq

/-- The time to wait for a timeout in milliseconds. -/
def timevalOf (timeout : ℤ) : Timeval :=
  { sec := timeout / 1000, usec := (timeout - timeout / 1000 * 1000) * 1000 }

/-- `js_sock_wait_for_input`: `select` says for a descriptor and a time how the call turns out,
`none` for `-1` and else whether the descriptor is left in the set. -/
def jsSockWaitForInput (s : St α) (argv : List Jsval) (select : ℤ → Timeval → Option Bool) :
    Ret α :=
  if s.obj.sock < 0 then .error "socket is closed!"
  else match argv with
    | [arg] =>
      let timeout := match arg with
        | .int n => n
        | .other => -1
      if 0 < timeout then match select s.obj.sock (timevalOf timeout) with
        | none => .error "select failed code: %s"
        | some isset => .done (.bool isset)
      else .done .void
    | _ => .error "pass an argument to wait_for_input!"

namespace Poll

/-- What the entry with the index `i` reports in the end; a closed Socket's entry is not written. -/
def reportAt (outcome : Option (ℤ → BitVec 16)) (stack : ℕ → PollFd) (i : ℕ) (s : ℕ × ℤ) :
    BitVec 16 :=
  report outcome (if s.2 = -1 then stack i else entryFor s.2)

/-- The slot of an open or a closed Socket. -/
def slotOf (s : ℕ × ℤ) : Slot :=
  { obj := s.1, entry := if s.2 = -1 then none else some (entryFor s.2) }

/-- How many of the Sockets are closed. -/
def closed (socks : List (ℕ × ℤ)) : ℕ := socks.countP fun s => s.2 = -1

/-- The elements of an array of objects with the descriptors they have. -/
def socketsOf (sockOf : ℕ → ℤ) (ids : List ℕ) : List (ℕ × ℤ) := ids.map fun o => (o, sockOf o)

/-- An entry of the open object `id` is among those given to `poll(2)`, input is reported in it, and
no callback for an earlier entry fails. -/
def Heard (sockOf : ℕ → ℤ) (ids : List ℕ) (stack : ℕ → PollFd)
    (outcome : Option (ℤ → BitVec 16)) (normal : Callback → Bool) (id : ℕ) : Prop :=
  ∃ j, ids[j]? = some id ∧ j + closed (socketsOf sockOf (ids.take j)) < ids.length ∧
    report outcome (entryFor (sockOf id)) &&& pollin ≠ 0 ∧
    ∀ i < j, ∀ o, ids[i]? = some o → reportAt outcome stack i (o, sockOf o) &&& pollin ≠ 0 →
      normal (.data o) = true

/-- The dispatch loop calls `data` for each entry with input up to the first call that fails. -/
theorem data_mem_dispatch {normal : Callback → Bool} {reported : List (ℕ × BitVec 16)} {id : ℕ} :
    .data id ∈ (dispatch normal reported).1 ↔
      ∃ (j : ℕ) (r : BitVec 16), reported[j]? = some (id, r) ∧ r &&& pollin ≠ 0 ∧
        ∀ i < j, ∀ o r', reported[i]? = some (o, r') → r' &&& pollin ≠ 0 →
          normal (.data o) = true := by
  induction reported with
  | nil => simp [dispatch]
  | cons head rest ih =>
    obtain ⟨o, r⟩ := head
    have quiet : Callback.data id ∉ if r &&& failure ≠ 0 then [Callback.error o r] else [] := by
      split <;> simp
    rw [← Nat.or_exists_add_one]
    simp only [List.getElem?_cons_zero, List.getElem?_cons_succ, Nat.forall_lt_succ_left,
      Option.some.injEq, Prod.mk.injEq, Nat.not_lt_zero, false_implies, implies_true, and_true]
    rw [dispatch]
    by_cases input : r &&& pollin ≠ 0
    · by_cases returns : normal (.data o) = true
      · simp only [if_pos input, if_pos returns, List.mem_append, List.mem_cons, quiet, false_or,
          Callback.data.injEq, ih]
        constructor
        · rintro (rfl | ⟨j, r', found, reported, earlier⟩)
          · exact Or.inl ⟨r, ⟨rfl, rfl⟩, input⟩
          · refine Or.inr ⟨j, r', found, reported, ?_, earlier⟩
            rintro o' r'' ⟨rfl, rfl⟩ _
            exact returns
        · rintro (⟨r', ⟨rfl, rfl⟩, -⟩ | ⟨j, r', found, reported, -, earlier⟩)
          · exact Or.inl rfl
          · exact Or.inr ⟨j, r', found, reported, earlier⟩
      · simp only [if_pos input, if_neg returns, List.mem_append, List.mem_singleton, quiet,
          false_or, Callback.data.injEq]
        constructor
        · rintro rfl
          exact Or.inl ⟨r, ⟨rfl, rfl⟩, input⟩
        · rintro (⟨r', ⟨rfl, rfl⟩, -⟩ | ⟨j, r', -, -, here, -⟩)
          · rfl
          · exact absurd (here o r ⟨rfl, rfl⟩ input) returns
    · simp only [if_neg input, List.mem_append, quiet, false_or, ih]
      constructor
      · rintro ⟨j, r', found, reported, earlier⟩
        refine Or.inr ⟨j, r', found, reported, ?_, earlier⟩
        rintro o' r'' ⟨rfl, rfl⟩ reported'
        exact absurd reported' input
      · rintro (⟨r', ⟨rfl, rfl⟩, reported⟩ | ⟨j, r', found, reported, -, earlier⟩)
        · exact absurd reported input
        · exact ⟨j, r', found, reported, earlier⟩

theorem closed_cons (x : ℕ × ℤ) (rest : List (ℕ × ℤ)) :
    closed (x :: rest) = closed [x] + closed rest := by
  rw [closed, ← List.singleton_append, List.countP_append]
  rfl

/-- One round of the filling loop over a Socket. -/
theorem fill_socket {i len len' : ℕ} {x : ℕ × ℤ} {rest : List (ℕ × ℤ)} {slots : List Slot}
    (more : i < len) (filled : fill i len (elems (x :: rest)) = .ok (len', slots)) :
    ∃ slots', slots = slotOf x :: slots' ∧
      fill (i + 1) (len - closed [x]) (elems rest) = .ok (len', slots') := by
  have step : fill i len (elems (x :: rest)) =
      (fill (i + 1) (len - closed [x]) (elems rest)).map fun r => (r.1, slotOf x :: r.2) := by
    rw [elems, List.map_cons, fill, if_pos more]
    by_cases shut : x.2 = -1
    · simp [closed, slotOf, shut, elems]
    · simp [closed, slotOf, shut, elems, entryFor]
  rw [step] at filled
  cases later : fill (i + 1) (len - closed [x]) (elems rest) with
  | error format => simp [later, Except.map] at filled
  | ok r =>
    obtain ⟨bound, slots'⟩ := r
    simp only [later, Except.map, Except.ok.injEq, Prod.mk.injEq] at filled
    exact ⟨slots', filled.2.symm, by rw [filled.1]⟩

theorem fill_over {i len : ℕ} (es : List Elem) (over_ : ¬ i < len) :
    fill i len es = .ok (len, []) := by
  cases es with
  | nil => rfl
  | cons e rest =>
    unfold fill
    exact if_neg over_

/-- The filling loop passes an open Socket in time if and only if not too many closed ones stand
before it. -/
theorem lt_bound_iff {i len len' : ℕ} {pre post : List (ℕ × ℤ)} {x : ℕ × ℤ} {slots : List Slot}
    (open_ : x.2 ≠ -1) (filled : fill i len (elems (pre ++ x :: post)) = .ok (len', slots)) :
    i + pre.length < len' ↔ i + pre.length + closed pre < len := by
  by_cases more : i < len
  · induction pre generalizing i len slots with
    | nil =>
      obtain ⟨slots', -, later⟩ := fill_socket more filled
      have none_closed : closed [x] = 0 := by simp [closed, open_]
      have bound := le_of_fill later
      have empty : closed [] = 0 := rfl
      rw [List.length_nil, empty]
      omega
    | cons y pre ih =>
      obtain ⟨slots', -, later⟩ := fill_socket more filled
      rw [List.length_cons, closed_cons]
      by_cases again : i + 1 < len - closed [y]
      · have next := ih later again
        omega
      · rw [fill_over _ again, Except.ok.injEq, Prod.mk.injEq] at later
        omega
  · rw [fill_over _ more, Except.ok.injEq, Prod.mk.injEq] at filled
    omega

/-- The slots that the filling loop has visited are those of the first Sockets of the array. -/
theorem take_of_fill {i len len' : ℕ} {socks : List (ℕ × ℤ)} {slots : List Slot}
    (bound : len ≤ i + socks.length) (filled : fill i len (elems socks) = .ok (len', slots)) :
    ∃ v, slots = (socks.map slotOf).take v ∧ len' ≤ i + v := by
  induction socks generalizing i len slots with
  | nil =>
    simp only [elems, List.map_nil, fill, Except.ok.injEq, Prod.mk.injEq, List.length_nil]
      at filled bound
    exact ⟨0, by simp [filled.2], by omega⟩
  | cons x rest ih =>
    by_cases more : i < len
    · obtain ⟨slots', rfl, later⟩ := fill_socket more filled
      obtain ⟨v, rfl, high⟩ := ih (by rw [List.length_cons] at bound; omega) later
      exact ⟨v + 1, by simp, by omega⟩
    · rw [fill_over _ more, Except.ok.injEq, Prod.mk.injEq] at filled
      exact ⟨0, by simp [filled.2], by omega⟩

/-- The entry with the index `j` is given to `poll(2)` if and only if not too many closed Sockets
stand before it. -/
theorem lt_bound_of_getElem {sockOf : ℕ → ℤ} {ids : List ℕ} {id j len' : ℕ} {slots : List Slot}
    (open_ : sockOf id ≠ -1) (here : ids[j]? = some id)
    (filled : fill 0 ids.length (elems (socketsOf sockOf ids)) = .ok (len', slots)) :
    j < len' ↔ j + closed (socketsOf sockOf (ids.take j)) < ids.length := by
  obtain ⟨inside, at_j⟩ := List.getElem?_eq_some_iff.1 here
  have split : socketsOf sockOf ids = socketsOf sockOf (ids.take j) ++
      (id, sockOf id) :: socketsOf sockOf (ids.drop (j + 1)) := by
    rw [← at_j, socketsOf, socketsOf, socketsOf, ← List.map_cons (f := fun o => (o, sockOf o)),
      ← List.map_append, List.getElem_cons_drop, List.take_append_drop]
  rw [split] at filled
  have bound := lt_bound_iff (x := (id, sockOf id)) open_ filled
  rw [socketsOf, List.length_map, List.length_take, Nat.min_eq_left inside.le] at bound
  rw [Nat.zero_add] at bound
  exact bound

/-- The entries given to `poll(2)`, with what they report in the end. -/
theorem given_getElem {sockOf : ℕ → ℤ} {ids : List ℕ} {len' : ℕ} {slots : List Slot}
    (filled : fill 0 ids.length (elems (socketsOf sockOf ids)) = .ok (len', slots))
    (stack : ℕ → PollFd) (outcome : Option (ℤ → BitVec 16)) (j : ℕ) :
    ((slots.take len').mapIdx fun i slot =>
      (slot.obj, report outcome (slot.entry.getD (stack i))))[j]? =
      if j < len' then (ids[j]?).map fun o => (o, reportAt outcome stack j (o, sockOf o))
      else none := by
  obtain ⟨v, visited, high⟩ := take_of_fill (by simp [socketsOf]) filled
  have given : slots.take len' = ((socketsOf sockOf ids).map slotOf).take len' := by
    rw [visited, List.take_take, Nat.min_eq_left (by omega)]
  rw [List.getElem?_mapIdx, given, List.getElem?_take]
  split
  · simp only [socketsOf, List.getElem?_map, Option.map_map]
    congr 1
    funext o
    by_cases shut : sockOf o = -1 <;> simp [slotOf, reportAt, shut]
  · rfl

/-- `poll` calls the `data` method of an open Socket of the array if and only if one of its entries
is heard. -/
theorem data_mem_poll_iff {self : ℤ} (running : 0 ≤ self) {sockOf : ℕ → ℤ} (ids : List ℕ)
    (timeout : ℤ) (stack : ℕ → PollFd) (outcome : Option (ℤ → BitVec 16))
    (normal : Callback → Bool) {id : ℕ} (open_ : sockOf id ≠ -1) :
    .data id ∈ (jsSockPoll self (.array (elems (socketsOf sockOf ids)) timeout) stack outcome
      normal).calls ↔ Heard sockOf ids stack outcome normal id := by
  have live : ¬ self < 0 := by omega
  have long : (elems (socketsOf sockOf ids)).length = ids.length := by simp [elems, socketsOf]
  obtain ⟨⟨len', slots⟩, filled⟩ := fill_ok 0 ids.length (socketsOf sockOf ids)
  have entry := given_getElem filled stack outcome
  simp only [jsSockPoll, if_neg live, long, filled, data_mem_dispatch]
  have own : ∀ j, reportAt outcome stack j (id, sockOf id) =
      report outcome (entryFor (sockOf id)) := fun j => by rw [reportAt, if_neg open_]
  constructor
  · rintro ⟨j, r, found, input, earlier⟩
    rw [entry] at found
    split at found
    · next inside =>
      obtain ⟨o, here, eq⟩ := Option.map_eq_some_iff.1 found
      obtain ⟨rfl, rfl⟩ := Prod.mk.inj eq
      refine ⟨j, here, (lt_bound_of_getElem open_ here filled).1 inside, own j ▸ input, ?_⟩
      intro i before o' there reported
      refine earlier i before o' _ ?_ reported
      rw [entry, if_pos (before.trans inside), there, Option.map_some]
    · cases found
  · rintro ⟨j, here, few, input, earlier⟩
    have inside := (lt_bound_of_getElem open_ here filled).2 few
    refine ⟨j, reportAt outcome stack j (id, sockOf id), ?_, own j ▸ input, ?_⟩
    · rw [entry, if_pos inside, here, Option.map_some]
    · intro i before o' r' there reported
      rw [entry, if_pos (before.trans inside)] at there
      obtain ⟨o, at_i, eq⟩ := Option.map_eq_some_iff.1 there
      obtain ⟨rfl, rfl⟩ := Prod.mk.inj eq
      exact earlier i before o at_i reported

end Poll

open Poll

/-- The two questions for readiness of a Socket: `waitForInput` with a timeout, and a `poll`, called
on an open Socket, with an array that contains the object; and what the system answers. -/
structure Inquiry (s : St α) where
  timeout : ℤ
  waits : 0 < timeout
  select : ℤ → Timeval → Option Bool
  self : ℤ
  running : 0 ≤ self
  id : ℕ
  ids : List ℕ
  listed : id ∈ ids
  sockOf : ℕ → ℤ
  own : sockOf id = s.obj.sock
  pollTimeout : ℤ
  stack : ℕ → PollFd
  outcome : Option (ℤ → BitVec 16)
  normal : Callback → Bool

variable [Octet α]

/-- The next `read` returns a line that is kept, without a system call; `waitForInput` says so, and
`poll` calls `data`. -/
structure ReadinessAgrees (s : St α) (q : Inquiry s) : Prop where
  served : ∀ answers, ∃ line s', jsSockRead s answers = some (.done (.string line), s') ∧
    s'.kernel = s.kernel
  waits : jsSockWaitForInput s [.int q.timeout] q.select = .done (.bool true)
  polled : .data q.id ∈ (jsSockPoll q.self
    (.array (elems (socketsOf q.sockOf q.ids)) q.pollTimeout) q.stack q.outcome q.normal).calls

theorem read_served {s : St α} (complete : ∃ c ∈ s.obj.buffered, isNl c = true)
    (answers : List Answer) :
    ∃ line s', jsSockRead s answers = some (.done (.string line), s') ∧ s'.kernel = s.kernel := by
  obtain ⟨line, o, found⟩ := SockObj.bufferedLine_of_complete complete
  exact ⟨line, _, jsSockRead_of_buffered answers found, rfl⟩

/-- With a complete line in the buffer of an open Socket, both questions are answered as they should
be if and only if the system itself reports input on the descriptor, in an entry that `poll(2)` is
given and the dispatch loop reaches. -/
theorem readiness_agrees_iff {s : St α} (open_ : 0 ≤ s.obj.sock)
    (complete : ∃ c ∈ s.obj.buffered, isNl c = true) (q : Inquiry s) :
    ReadinessAgrees s q ↔ q.select s.obj.sock (timevalOf q.timeout) = some true ∧
      Heard q.sockOf q.ids q.stack q.outcome q.normal q.id := by
  have live : ¬ s.obj.sock < 0 := by omega
  have polled := data_mem_poll_iff q.running q.ids q.pollTimeout q.stack q.outcome q.normal
    (show q.sockOf q.id ≠ -1 by rw [q.own]; omega)
  have waits : jsSockWaitForInput s [.int q.timeout] q.select = .done (.bool true) ↔
      q.select s.obj.sock (timevalOf q.timeout) = some true := by
    simp only [jsSockWaitForInput, if_neg live, if_pos q.waits]
    rcases q.select s.obj.sock (timevalOf q.timeout) with _ | isset <;> simp
  rw [← polled, ← waits]
  exact ⟨fun h => ⟨h.waits, h.polled⟩, fun h => ⟨read_served complete, h.1, h.2⟩⟩

/-- The two questions, when the system answers them alike: `isset` says whether it reports input. -/
def inquire (s : St α) (isset : Bool) (open_ : 0 ≤ s.obj.sock) : Inquiry s where
  timeout := 100
  waits := by decide
  select _ _ := some isset
  self := s.obj.sock
  running := open_
  id := 1
  ids := [1]
  listed := List.mem_cons_self
  sockOf _ := s.obj.sock
  own := rfl
  pollTimeout := 100
  stack _ := { fd := 0, events := 0, revents := 0 }
  outcome := some fun _ => if isset then pollin else 0
  normal _ := true

/-- A line is kept and more input has come. -/
theorem readiness_agrees_iff_more :
    ReadinessAgrees (.holding [98, 10] [99])
      (inquire (.holding [98, 10] [99]) true (by decide +kernel)) :=
  (readiness_agrees_iff (by decide +kernel) (by decide +kernel) _).2
    ⟨rfl, 0, rfl, by decide, by decide +kernel, fun i before => absurd before (Nat.not_lt_zero i)⟩

/-- A line is kept and no more input comes: neither question finds it. -/
theorem readiness_agrees_not_quiet :
    ¬ ReadinessAgrees (.holding [98, 10] [])
      (inquire (.holding [98, 10] []) false (by decide +kernel)) := by
  intro agrees
  have waited : jsSockWaitForInput (St.holding [98, 10] []) [.int 100]
      (fun _ _ => some false) = .done (.bool false) := by decide +kernel
  have waits : jsSockWaitForInput (St.holding [98, 10] []) [.int 100]
      (fun _ _ => some false) = .done (.bool true) := agrees.waits
  rw [waited] at waits
  cases waits

end Sysjs
