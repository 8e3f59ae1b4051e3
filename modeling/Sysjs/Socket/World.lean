import Sysjs.Socket.Lifecycle

/-!
# Many Sockets

The live Socket objects of a process over the descriptors they share, and the calls that create,
connect and drop them.
-/

set_option autoImplicit false

namespace Sysjs

variable {α : Type*}

/-- The live objects, the system, and the requests suspended and resumed so far. -/
structure World (α : Type*) where
  objs : ℕ → Option (SockObj α)
  kernel : Kernel α
  requests : List Request

/-- `new Socket(...)`, the methods that change which descriptor a Socket holds, and the finaliser of
an object that is no longer used. -/
inductive Call (α : Type*) where
  | construct (id : ℕ) (heap : ℕ → ℤ → α) (argv : List Jsval)
  | connect (id : ℕ) (host : Option (Resolve α))
  | bind (id : ℕ) (argv : List Jsval) (found : Resolve α) (listens : Bool)
  | accept (id : ℕ) (answer : Option (ℤ × List α)) (newId : ℕ) (heap : ℕ → ℤ → α)
  | close (id : ℕ)
  | destroy (id : ℕ)

namespace World

/-- No objects yet, in a system with the descriptors of `k`. -/
def start (k : Kernel α) : World α where
  objs _ := none
  kernel := k
  requests := []

/-- What a method of the object `o` sees. -/
def view (w : World α) (o : SockObj α) : St α where
  obj := o
  kernel := w.kernel
  requests := w.requests

/-- The world after a method call on the object `id`. -/
def put (w : World α) (id : ℕ) (s : St α) : World α where
  objs := Function.update w.objs id (some s.obj)
  kernel := s.kernel
  requests := s.requests

/-- A method call on the object `id`, which has to be live. -/
def method (w : World α) (id : ℕ) (f : St α → Option (Ret α × St α)) : Option (Ret α × World α) :=
  match w.objs id with
  | none => none
  | some o => (f (w.view o)).map fun r => (r.1, w.put id r.2)

/-- One call.  A new object gets an id that no live object has. -/
def step (w : World α) : Call α → Option (Ret α × World α)
  | .construct id heap argv => match w.objs id with
    | none => some (.done (.object id),
        { w with objs := Function.update w.objs id (some (jsSockConstruct heap argv)) })
    | some _ => none
  | .connect id host => w.method id fun s => jsSockConnect s host
  | .bind id argv found listens => w.method id fun s => jsSockBind s argv found listens
  | .accept id answer newId heap => match w.objs id, w.objs newId with
    | some o, none => (jsSockAccept (w.view o) answer newId heap).map fun r =>
        (r.1, { w.put id r.2.1 with
          objs := Function.update (w.put id r.2.1).objs newId r.2.2 })
    | _, _ => none
  | .close id => w.method id fun s => some (jsSockClose s)
  | .destroy id => match w.objs id with
    | none => none
    | some o => some (.done .void,
        { w with objs := Function.update w.objs id none, kernel := jsSockDestroy o w.kernel })

theorem method_some {w w' : World α} {id : ℕ} {f : St α → Option (Ret α × St α)} {r : Ret α}
    (h : w.method id f = some (r, w')) :
    ∃ o s', w.objs id = some o ∧ f (w.view o) = some (r, s') ∧ w' = w.put id s' := by
  unfold method at h
  split at h
  · cases h
  · next o held =>
    obtain ⟨⟨r', s'⟩, did, eq⟩ := Option.map_eq_some_iff.1 h
    cases eq
    exact ⟨o, s', held, did, rfl⟩

end World

/-! ### Descriptors that open and close -/

namespace Kernel

/-- A new descriptor with the number `fd`. -/
def fresh (k : Kernel α) (fd : ℤ) (kind : FdKind) (stream : List α) : Kernel α :=
  k.set fd (some { kind := kind, ours := true, pending := stream, sent := [] })

/-- The descriptor `fd` is open and meets `P`. -/
def Has (k : Kernel α) (fd : ℤ) (P : Desc α → Prop) : Prop := ∃ d, k.desc fd = some d ∧ P d

variable {P : Desc α → Prop} {k : Kernel α} {fd : ℤ}

theorem Has.nonneg (h : k.Has fd P) : 0 ≤ fd := by
  obtain ⟨d, opened, -⟩ := h
  exact nonneg_of_desc opened

theorem not_has_of_unused (unused : k.desc fd = none) : ¬ k.Has fd P := by
  rintro ⟨d, opened, -⟩
  rw [unused] at opened
  cases opened

theorem has_close_iff (fd' : ℤ) : (k.close fd).Has fd' P ↔ k.Has fd' P ∧ fd' ≠ fd := by
  unfold Has
  rw [desc_close]
  split
  · next same => simp [same]
  · next other => simp [other]

theorem has_fresh_self (low : 0 ≤ fd) {kind : FdKind} {stream : List α}
    (new : P { kind := kind, ours := true, pending := stream, sent := [] }) :
    (k.fresh fd kind stream).Has fd P :=
  ⟨_, desc_set_self low _, new⟩

theorem has_fresh_of_ne {fd' : ℤ} (other : fd' ≠ fd) (kind : FdKind) (stream : List α) :
    (k.fresh fd kind stream).Has fd' P ↔ k.Has fd' P := by
  rw [Has, fresh, desc_set_ne k other, Has]

theorem Has.fresh {fd' : ℤ} (h : k.Has fd' P) (unused : k.desc fd = none) (kind : FdKind)
    (stream : List α) : (k.fresh fd kind stream).Has fd' P := by
  refine (has_fresh_of_ne ?_ kind stream).2 h
  rintro rfl
  exact not_has_of_unused unused h

end Kernel

/-! ### What one call can do -/

/-- What the live objects hold, `f` of each. -/
def World.holds {κ : Type*} (w : World α) (f : SockObj α → Option κ) : ℕ → Option κ :=
  fun id => (w.objs id).bind f

theorem holds_update {κ : Type*} (f : SockObj α → Option κ) (w : World α) (id : ℕ)
    (v : Option (SockObj α)) (k : Kernel α) (requests : List Request) :
    World.holds { objs := Function.update w.objs id v, kernel := k, requests := requests } f =
      Function.update (w.holds f) id (v.bind f) :=
  Function.comp_update (fun o : Option (SockObj α) => o.bind f) w.objs id v

theorem holds_of_held {κ : Type*} {f : SockObj α → Option κ} {w : World α} {id : ℕ} {o : SockObj α}
    (held : w.objs id = some o) : w.holds f id = f o := by
  rw [World.holds, held, Option.bind_some]

theorem holds_of_unused {κ : Type*} {f : SockObj α → Option κ} {w : World α} {id : ℕ}
    (unused : w.objs id = none) : w.holds f id = none := by
  rw [World.holds, unused, Option.bind_none]

/-- Some address of the list works. -/
def Resolve.works : Resolve α → Bool
  | .failed => false
  | .addresses attempts => someWorks attempts

/-- `closeOld` closes the descriptor the object has; `-1` is none. -/
theorem closeOld_kernel (s : St α) : (closeOld s).kernel = s.kernel.close s.obj.sock := by
  unfold closeOld
  split
  · rfl
  · next h =>
    rw [not_not] at h
    rw [h, Kernel.close_of_neg _ (by decide)]

theorem jsSockDestroy_eq (o : SockObj α) (k : Kernel α) : jsSockDestroy o k = k.close o.sock := by
  unfold jsSockDestroy
  split
  · rfl
  · rw [Kernel.close_of_neg _ (by omega)]

/-- What one call can do. -/
inductive WorldStep (w : World α) : Call α → World α → Prop where
  | constructed (id : ℕ) (heap : ℕ → ℤ → α) (argv : List Jsval) (unused : w.objs id = none) :
      WorldStep w (.construct id heap argv)
        { w with objs := Function.update w.objs id (some (jsSockConstruct heap argv)) }
  | arguments (id : ℕ) : WorldStep w (.connect id none) w
  /-- Wrong arguments, no addresses, or none that works. -/
  | rejected (id : ℕ) (argv : List Jsval) (found : Resolve α) (listens : Bool)
      (works : ∀ port, argv = [.int port] → found.works = false) :
      WorldStep w (.bind id argv found listens) w
  | unaccepted (id : ℕ) (answer : Option (ℤ × List α)) (newId : ℕ) (heap : ℕ → ℤ → α) :
      WorldStep w (.accept id answer newId heap) w
  /-- `connect` has closed the old descriptor and got no new one. -/
  | unconnected (id : ℕ) (host : Resolve α) (works : host.works = false) (o : SockObj α)
      (held : w.objs id = some o) (requests : List Request) :
      WorldStep w (.connect id (some host))
        { objs := Function.update w.objs id (some { o with sock := -1 })
          kernel := w.kernel.close o.sock
          requests := requests }
  | connected (id : ℕ) (host : Resolve α) (works : host.works = true) (o : SockObj α)
      (held : w.objs id = some o) (fd : ℤ) (stream : List α) (low : 0 ≤ fd)
      (unused : (w.kernel.close o.sock).desc fd = none) (requests : List Request) :
      WorldStep w (.connect id (some host))
        { objs := Function.update w.objs id (some { o with sock := fd, state := .connected })
          kernel := (w.kernel.close o.sock).fresh fd .connected stream
          requests := requests }
  /-- `listen` fails: the descriptor stays open. -/
  | leaked (id : ℕ) (port : ℤ) (found : Resolve α) (works : found.works = true) (o : SockObj α)
      (held : w.objs id = some o) (fd : ℤ) (low : 0 ≤ fd) (unused : w.kernel.desc fd = none) :
      WorldStep w (.bind id [.int port] found false)
        { w with kernel := w.kernel.fresh fd .idle [] }
  | listening (id : ℕ) (port : ℤ) (found : Resolve α) (works : found.works = true) (o : SockObj α)
      (held : w.objs id = some o) (fd : ℤ) (low : 0 ≤ fd) (unused : w.kernel.desc fd = none) :
      WorldStep w (.bind id [.int port] found true)
        { w with
          objs := Function.update w.objs id (some { o with sock := fd, state := .listening })
          kernel := w.kernel.fresh fd .listening [] }
  | accepted (id : ℕ) (answer : Option (ℤ × List α)) (newId : ℕ) (heap : ℕ → ℤ → α)
      (unusedId : w.objs newId = none) (fd : ℤ) (stream : List α) (low : 0 ≤ fd)
      (unused : w.kernel.desc fd = none) :
      WorldStep w (.accept id answer newId heap)
        { w with
          objs := Function.update w.objs newId
            (some { jsSockConstruct heap [] with sock := fd, state := .connected })
          kernel := w.kernel.fresh fd .connected stream }
  | closed (id : ℕ) (o : SockObj α) (held : w.objs id = some o) (requests : List Request) :
      WorldStep w (.close id)
        { objs := Function.update w.objs id (some { o with sock := -1, state := .disconnected })
          kernel := w.kernel.close o.sock
          requests := requests }
  | destroyed (id : ℕ) (o : SockObj α) (held : w.objs id = some o) :
      WorldStep w (.destroy id)
        { w with objs := Function.update w.objs id none, kernel := w.kernel.close o.sock }

theorem World.put_view {w : World α} {id : ℕ} {o : SockObj α} (held : w.objs id = some o)
    (k : Kernel α) : w.put id ((w.view o).withKernel k) = { w with kernel := k } := by
  have same : Function.update w.objs id (some o) = w.objs := by
    rw [← held, Function.update_eq_self]
  show { w with objs := Function.update w.objs id (some o), kernel := k } = { w with kernel := k }
  rw [same]

theorem World.put_self {w : World α} {id : ℕ} {o : SockObj α} (held : w.objs id = some o) :
    w.put id (w.view o) = w :=
  World.put_view held w.kernel

theorem World.step_connect {w w' : World α} {id : ℕ} {host : Option (Resolve α)} {r : Ret α}
    (h : w.step (.connect id host) = some (r, w')) : WorldStep w (.connect id host) w' := by
  obtain ⟨o, s', held, did, rfl⟩ :=
    World.method_some (f := fun s => jsSockConnect s host) h
  have step := jsSockConnect_spec did
  cases step with
  | arguments =>
    rw [World.put_self held]
    exact .arguments id
  | unresolved =>
    have step := WorldStep.unconnected id .failed rfl o held w.requests
    simpa only [World.put, World.view, closeOld_obj, closeOld_kernel, closeOld_requests] using step
  | noAddress attempts works =>
    have step := WorldStep.unconnected id (.addresses attempts) works o held
      (w.requests ++ [.suspend])
    simpa only [World.put, World.view, St.suspend, closeOld_obj, closeOld_kernel,
      closeOld_requests] using step
  | connected attempts works fd stream chosen low fresh =>
    rw [closeOld_kernel] at fresh
    have step := WorldStep.connected id (.addresses attempts) works o held fd stream low fresh
      (w.requests ++ [.suspend] ++ [.resume])
    simpa only [World.put, World.view, Kernel.fresh, closeOld_kernel] using step

theorem World.step_bind {w w' : World α} {id : ℕ} {argv : List Jsval} {found : Resolve α}
    {listens : Bool} {r : Ret α} (h : w.step (.bind id argv found listens) = some (r, w')) :
    WorldStep w (.bind id argv found listens) w' := by
  obtain ⟨o, s', held, did, rfl⟩ :=
    World.method_some (f := fun s => jsSockBind s argv found listens) h
  have step := jsSockBind_spec did
  cases step with
  | rejected argv found listens format works =>
    rw [World.put_self held]
    refine .rejected id argv found listens fun port args => ?_
    cases found with
    | failed => rfl
    | addresses attempts => exact works port attempts args rfl
  | leaked port attempts works fd low fresh =>
    rw [World.put_view held]
    exact .leaked id port (.addresses attempts) works o held fd low fresh
  | listening port attempts works fd low fresh =>
    exact .listening id port (.addresses attempts) works o held fd low fresh

theorem World.step_accept {w w' : World α} {id newId : ℕ} {answer : Option (ℤ × List α)}
    {heap : ℕ → ℤ → α} {r : Ret α} (h : w.step (.accept id answer newId heap) = some (r, w')) :
    WorldStep w (.accept id answer newId heap) w' := by
  unfold World.step at h
  cases held : w.objs id with
  | none => simp [held] at h
  | some o =>
    cases unused : w.objs newId with
    | some o' => simp [held, unused] at h
    | none =>
      simp only [held, unused] at h
      obtain ⟨⟨r', s', made⟩, did, eq⟩ := Option.map_eq_some_iff.1 h
      cases eq
      have step := jsSockAccept_spec did
      cases step with
      | failed =>
        rw [World.put_self held]
        have untouched : Function.update w.objs newId none = w.objs := by
          rw [← unused, Function.update_eq_self]
        rw [untouched]
        exact .unaccepted id answer newId heap
      | accepted fd stream low fresh listening =>
        rw [World.put_view held]
        exact .accepted id answer newId heap unused fd stream low fresh

theorem World.step_spec {w w' : World α} {c : Call α} {r : Ret α} (h : w.step c = some (r, w')) :
    WorldStep w c w' := by
  cases c with
  | construct id heap argv =>
    unfold World.step at h
    cases unused : w.objs id with
    | some o => simp [unused] at h
    | none =>
      simp only [unused, Option.some.injEq, Prod.mk.injEq] at h
      obtain ⟨-, rfl⟩ := h
      exact .constructed id heap argv unused
  | connect id host => exact World.step_connect h
  | bind id argv found listens => exact World.step_bind h
  | accept id answer newId heap => exact World.step_accept h
  | close id =>
    obtain ⟨o, s', held, did, rfl⟩ := World.method_some (f := fun s => some (jsSockClose s)) h
    cases did
    exact .closed id o held _
  | destroy id =>
    unfold World.step at h
    cases held : w.objs id with
    | none => simp [held] at h
    | some o =>
      simp only [held, Option.some.injEq, Prod.mk.injEq, jsSockDestroy_eq] at h
      obtain ⟨-, rfl⟩ := h
      exact .destroyed id o held

end Sysjs
