import Sysjs.Socket.Object

/-!
# Connecting, listening, closing

The methods that change which descriptor a Socket holds.  `connect` and `bind` walk the address
list that `getaddrinfo` returns; `Attempt` says what the system does at one address.
-/

set_option autoImplicit false

namespace Sysjs

variable {α : Type*}

/-- One address: no socket, a socket on which `connect` or `bind` fails, or one on which it
succeeds; a connection will deliver `stream`. -/
inductive Attempt (α : Type*) where
  | noSocket
  | refused (fd : ℤ)
  | success (fd : ℤ) (stream : List α)

/-- What `getaddrinfo` returns. -/
inductive Resolve (α : Type*) where
  | failed
  | addresses (attempts : List (Attempt α))

/-- `for (rp = result; rp != NULL; rp = rp->ai_next)`: the descriptor of the first address that
works, if any.  `none` when the system cannot answer with these numbers. -/
def tryAddresses (k : Kernel α) : List (Attempt α) → Option (Kernel α × Option (ℤ × List α))
  | [] => some (k, none)
  | .noSocket :: rest => tryAddresses k rest
  | .refused fd :: rest => match k.socket fd with
    | none => none
    | some k => tryAddresses (k.close fd) rest
  | .success fd stream :: _ => match k.socket fd with
    | none => none
    | some k => some (k, some (fd, stream))

/-- Some address of the list works. -/
def someWorks : List (Attempt α) → Bool
  | [] => false
  | .success _ _ :: _ => true
  | _ :: rest => someWorks rest

/-- `if (js_sock->sock != -1) { close(js_sock->sock); js_sock->sock=-1; }`. -/
def closeOld (s : St α) : St α :=
  if s.obj.sock ≠ -1 then
    { s with obj := { s.obj with sock := -1 }, kernel := s.kernel.close s.obj.sock }
  else s

/-- `js_sock_connect`; `none` stands for a call without exactly two arguments. -/
def jsSockConnect (s : St α) (host : Option (Resolve α)) : Option (Ret α × St α) :=
  match host with
  | none => some (.done (.bool false), s)
  | some .failed => some (.done (.bool false), closeOld s)  -- "getaddrinfo failed\n"
  | some (.addresses attempts) =>
    let s := (closeOld s).suspend
    match tryAddresses s.kernel attempts with
    | none => none
    | some (k, none) => some (.error "Could not connect - no address found.\n", s.withKernel k)
    | some (k, some (fd, stream)) =>
      some (.done (.bool true),
        { s with
          obj := { s.obj with sock := fd, state := .connected }
          kernel := k.become fd .connected stream }.resume)

/-- `js_sock_bind`; `listens` is whether `listen` succeeds. -/
def jsSockBind (s : St α) (argv : List Jsval) (found : Resolve α) (listens : Bool) :
    Option (Ret α × St α) :=
  match argv, found with
  | [.int _], .failed => some (.error "getaddrinfo: %s\n", s)
  | [.int _], .addresses attempts => match tryAddresses s.kernel attempts with
    | none => none
    | some (k, none) => some (.error "Could not bind\n", s.withKernel k)
    | some (k, some (fd, _)) =>
      if listens then
        some (.done .void,
          { s with
            obj := { s.obj with sock := fd, state := .listening }
            kernel := k.become fd .listening [] })
      else some (.error "Could not listen %s\n", s.withKernel k)
  | _, _ => some (.error "pass the port# to listen on!\n", s)

/-- `js_sock_accept`: the state after the call and the new object, if there is one.  `answer` is
the number `accept` returns and what that stream will deliver, `newId` the new object. -/
def jsSockAccept (s : St α) (answer : Option (ℤ × List α)) (newId : ℕ) (heap : ℕ → ℤ → α) :
    Option (Ret α × St α × Option (SockObj α)) :=
  match answer with
  | none => some (.error "accept failed: %d.\n", s, none)
  | some (cfd, stream) => match s.kernel.accept s.obj.sock cfd stream with
    | none => none
    | some k => some (.done (.object newId), s.withKernel k,
        some { jsSockConstruct heap [] with sock := cfd, state := .connected })

/-- `js_sock_close`. -/
def jsSockClose (s : St α) : Ret α × St α :=
  let s := s.suspend
  (.done .void,
    { s with
      obj := { s.obj with sock := -1, state := .disconnected }
      kernel := s.kernel.close s.obj.sock }.resume)

/-- `js_sock_destroy`: the descriptor is closed with the object. -/
def jsSockDestroy (o : SockObj α) (k : Kernel α) : Kernel α :=
  if 0 ≤ o.sock then k.close o.sock else k

/-! ### What the calls can do -/

/-- The walk over the addresses leaves no descriptor open but the one it returns. -/
theorem tryAddresses_spec {k k' : Kernel α} {attempts : List (Attempt α)}
    {found : Option (ℤ × List α)} (h : tryAddresses k attempts = some (k', found)) :
    (found = none ∧ k' = k ∧ someWorks attempts = false) ∨
    ∃ fd stream, found = some (fd, stream) ∧ k.socket fd = some k' ∧ someWorks attempts = true ∧
      .success fd stream ∈ attempts := by
  induction attempts with
  | nil =>
    simp only [tryAddresses, Option.some.injEq, Prod.mk.injEq] at h
    exact Or.inl ⟨h.2.symm, h.1.symm, rfl⟩
  | cons attempt rest ih =>
    cases attempt with
    | noSocket =>
      rcases ih h with none_found | ⟨fd, stream, found, opened, works, chosen⟩
      · exact Or.inl none_found
      · exact Or.inr ⟨fd, stream, found, opened, works, List.mem_cons_of_mem _ chosen⟩
    | refused fd =>
      cases opened : k.socket fd with
      | none => simp [tryAddresses, opened] at h
      | some k₁ =>
        simp only [tryAddresses, opened, Kernel.close_socket opened] at h
        rcases ih h with none_found | ⟨fd, stream, found, opened, works, chosen⟩
        · exact Or.inl none_found
        · exact Or.inr ⟨fd, stream, found, opened, works, List.mem_cons_of_mem _ chosen⟩
    | success fd stream =>
      cases opened : k.socket fd with
      | none => simp [tryAddresses, opened] at h
      | some k₁ =>
        simp only [tryAddresses, opened, Option.some.injEq, Prod.mk.injEq] at h
        obtain ⟨rfl, rfl⟩ := h
        exact Or.inr ⟨fd, stream, rfl, opened, rfl, List.mem_cons_self⟩

@[simp] theorem closeOld_requests (s : St α) : (closeOld s).requests = s.requests := by
  unfold closeOld
  split <;> rfl

/-- `closeOld` leaves the object without a descriptor. -/
theorem closeOld_obj (s : St α) : (closeOld s).obj = { s.obj with sock := -1 } := by
  unfold closeOld
  split
  · rfl
  · next h =>
    rw [not_not] at h
    rw [← h]

/-- The outcomes of `connect`. -/
inductive ConnectStep (s : St α) : Option (Resolve α) → Ret α → St α → Prop where
  | arguments : ConnectStep s none (.done (.bool false)) s
  | unresolved : ConnectStep s (some .failed) (.done (.bool false)) (closeOld s)
  | noAddress (attempts : List (Attempt α)) (works : someWorks attempts = false) :
      ConnectStep s (some (.addresses attempts))
        (.error "Could not connect - no address found.\n") (closeOld s).suspend
  | connected (attempts : List (Attempt α)) (works : someWorks attempts = true) (fd : ℤ)
      (stream : List α) (chosen : .success fd stream ∈ attempts) (low : 0 ≤ fd)
      (fresh : (closeOld s).kernel.desc fd = none) :
      ConnectStep s (some (.addresses attempts)) (.done (.bool true))
        { obj := { s.obj with sock := fd, state := .connected }
          kernel := (closeOld s).kernel.set fd
            (some { kind := .connected, ours := true, pending := stream, sent := [] })
          requests := s.requests ++ [.suspend] ++ [.resume] }

theorem jsSockConnect_spec {s s' : St α} {host : Option (Resolve α)} {r : Ret α}
    (h : jsSockConnect s host = some (r, s')) : ConnectStep s host r s' := by
  unfold jsSockConnect at h
  split at h
  · rw [Option.some.injEq, Prod.mk.injEq] at h
    obtain ⟨rfl, rfl⟩ := h
    exact .arguments
  · rw [Option.some.injEq, Prod.mk.injEq] at h
    obtain ⟨rfl, rfl⟩ := h
    exact .unresolved
  · next attempts =>
    dsimp only at h
    split at h
    · cases h
    · next k walk =>
      rw [Option.some.injEq, Prod.mk.injEq] at h
      obtain ⟨rfl, rfl⟩ := h
      rcases tryAddresses_spec walk with ⟨-, rfl, works⟩ | ⟨fd, stream, none_found, -⟩
      · exact .noAddress attempts works
      · cases none_found
    · next k fd stream walk =>
      rw [Option.some.injEq, Prod.mk.injEq] at h
      obtain ⟨rfl, rfl⟩ := h
      rcases tryAddresses_spec walk with ⟨none_found, -⟩ |
        ⟨fd', stream', found, opened, works, chosen⟩
      · cases none_found
      · obtain ⟨rfl, rfl⟩ : fd = fd' ∧ stream = stream' := by simpa using found
        obtain ⟨low, fresh, rfl⟩ := Kernel.socket_some opened
        have step := ConnectStep.connected (s := s) attempts works fd stream chosen low fresh
        simpa only [St.resume, St.suspend, Kernel.become, Kernel.set_set, closeOld_obj,
          closeOld_requests, St.suspend_kernel] using step

/-- The outcomes of `bind`. -/
inductive BindStep (s : St α) : List Jsval → Resolve α → Bool → Ret α → St α → Prop where
  /-- Wrong arguments, no addresses, or none that works. -/
  | rejected (argv : List Jsval) (found : Resolve α) (listens : Bool) (format : String)
      (works : ∀ port attempts, argv = [.int port] → found = .addresses attempts →
        someWorks attempts = false) :
      BindStep s argv found listens (.error format) s
  /-- `listen` fails: the descriptor stays open. -/
  | leaked (port : ℤ) (attempts : List (Attempt α)) (works : someWorks attempts = true) (fd : ℤ)
      (low : 0 ≤ fd) (fresh : s.kernel.desc fd = none) :
      BindStep s [.int port] (.addresses attempts) false (.error "Could not listen %s\n")
        (s.withKernel (s.kernel.set fd
          (some { kind := .idle, ours := true, pending := [], sent := [] })))
  | listening (port : ℤ) (attempts : List (Attempt α)) (works : someWorks attempts = true) (fd : ℤ)
      (low : 0 ≤ fd) (fresh : s.kernel.desc fd = none) :
      BindStep s [.int port] (.addresses attempts) true (.done .void)
        { s with
          obj := { s.obj with sock := fd, state := .listening }
          kernel := s.kernel.set fd
            (some { kind := .listening, ours := true, pending := [], sent := [] }) }

theorem jsSockBind_spec {s s' : St α} {argv : List Jsval} {found : Resolve α} {listens : Bool}
    {r : Ret α} (h : jsSockBind s argv found listens = some (r, s')) :
    BindStep s argv found listens r s' := by
  unfold jsSockBind at h
  split at h
  · rw [Option.some.injEq, Prod.mk.injEq] at h
    obtain ⟨rfl, rfl⟩ := h
    exact .rejected _ _ _ _ fun _ _ _ none_found => by cases none_found
  · next port attempts =>
    split at h
    · cases h
    · next k walk =>
      rw [Option.some.injEq, Prod.mk.injEq] at h
      obtain ⟨rfl, rfl⟩ := h
      rcases tryAddresses_spec walk with ⟨-, rfl, works⟩ | ⟨fd, stream, none_found, -⟩
      · exact .rejected _ _ _ _ fun _ _ _ same => by cases same; exact works
      · cases none_found
    · next k fd stream walk =>
      rcases tryAddresses_spec walk with ⟨none_found, -⟩ | ⟨fd', stream', found, opened, works, -⟩
      · cases none_found
      · obtain ⟨rfl, rfl⟩ : fd = fd' ∧ stream = stream' := by simpa using found
        obtain ⟨low, fresh, rfl⟩ := Kernel.socket_some opened
        cases listens with
        | true =>
          simp only [if_true, Kernel.become, Kernel.set_set, Option.some.injEq, Prod.mk.injEq] at h
          obtain ⟨rfl, rfl⟩ := h
          exact .listening port attempts works fd low fresh
        | false =>
          simp only [Bool.false_eq_true, if_false, Option.some.injEq, Prod.mk.injEq] at h
          obtain ⟨rfl, rfl⟩ := h
          exact .leaked port attempts works fd low fresh
  · next _ other =>
    rw [Option.some.injEq, Prod.mk.injEq] at h
    obtain ⟨rfl, rfl⟩ := h
    exact .rejected _ _ _ _ fun port attempts args addresses =>
      (other port attempts args addresses).elim

/-- The outcomes of `accept`; a new object comes with a new descriptor. -/
inductive AcceptStep (s : St α) (newId : ℕ) (heap : ℕ → ℤ → α) :
    Ret α → St α → Option (SockObj α) → Prop where
  | failed : AcceptStep s newId heap (.error "accept failed: %d.\n") s none
  | accepted (fd : ℤ) (stream : List α) (low : 0 ≤ fd) (fresh : s.kernel.desc fd = none)
      (listening : (s.kernel.desc s.obj.sock).map Desc.kind = some .listening) :
      AcceptStep s newId heap (.done (.object newId))
        (s.withKernel (s.kernel.set fd
          (some { kind := .connected, ours := true, pending := stream, sent := [] })))
        (some { jsSockConstruct heap [] with sock := fd, state := .connected })

theorem jsSockAccept_spec {s s' : St α} {answer : Option (ℤ × List α)} {newId : ℕ}
    {heap : ℕ → ℤ → α} {r : Ret α} {made : Option (SockObj α)}
    (h : jsSockAccept s answer newId heap = some (r, s', made)) :
    AcceptStep s newId heap r s' made := by
  unfold jsSockAccept at h
  split at h
  · simp only [Option.some.injEq, Prod.mk.injEq] at h
    obtain ⟨rfl, rfl, rfl⟩ := h
    exact .failed
  · next cfd stream =>
    split at h
    · cases h
    · next k opened =>
      simp only [Option.some.injEq, Prod.mk.injEq] at h
      obtain ⟨rfl, rfl, rfl⟩ := h
      unfold Kernel.accept at opened
      split at opened
      · next fresh =>
        obtain rfl := Option.some.inj opened
        exact .accepted cfd stream fresh.2.1 (Option.isNone_iff_eq_none.1 fresh.2.2) fresh.1
      · cases opened

end Sysjs
