import Mathlib.Tactic.Common
import Mathlib.Logic.Function.Basic
import Mathlib.Algebra.Order.Ring.Int

/-!
# DSO handles

`JS_DSOLoad` and `JS_DSOUnload` call a hook of the library in the middle of their work, and the hook
may call them again.  A run is therefore a sequence of events: a call begins, or the hook of the
innermost call in progress returns.  Next to the handle table the state keeps which `dlopen`
references were obtained and released, and which loads have succeeded.
-/

set_option autoImplicit false

namespace Sysjs.Dso

variable {H : Type}

/-- The number of entries of `dso_handle`. -/
def tableSize : ℕ := 10000

/-- `lib_pattern`: what stands before and behind the file name. -/
def libPattern : List (String × String) :=
  [("", ""), ("lib", ".so"), ("lib", ".so.0"), ("lib", "_js.so"), ("lib", "_js.so.0"),
    ("lib/lib", ".so"), ("lib/lib", "_js.so"), (".libs/lib", "_js.so.0")]

/-- A call whose hook is running: the slot chosen by a load and the handle it got, or the slot an
unload was called for and the handle found there. -/
inductive Frame (H : Type) where
  | load (id : ℕ) (handle : H)
  | unload (id : ℕ) (handle : H)

/-- The state: `dsoHandle` (with whatever lies in memory behind the table), the calls in progress
from the innermost on, the references `dlopen` gave and `dlclose` took back, and the successful
loads that no later call has unloaded. -/
structure State (H : Type) where
  dsoHandle : ℕ → Option H
  frames : List (Frame H)
  opened : List H
  released : List H
  live : List (ℕ × H)

/-- A call of `JS_DSOLoad` or `JS_DSOUnload` begins, with the answers of `dlopen` and `dlsym`, or a
hook returns. -/
inductive Event (H : Type) where
  | load (filename : String) (dlopen : String → Option H) (hasHook : Bool)
  | unload (id : ℤ) (hasHook : Bool)
  | hookReturns (rc : Bool)

/-- After an event a hook runs, or a call has returned. -/
inductive Result where
  | hook
  | loaded (id : ℕ)
  | unloaded
  | error (format : String)
  deriving DecidableEq

/-- `for (id = 0; dso_handle[id] != NULL && id < n; id++)` from `id` on, with `left = n - id`: where
it stops and the indices it looked at.  At `id = n` it stops whatever it finds there. -/
def findSlot (dsoHandle : ℕ → Option H) : ℕ → ℕ → ℕ × List ℕ
  | 0, id => (id, [id])
  | left + 1, id =>
    if (dsoHandle id).isSome then
      ((findSlot dsoHandle left (id + 1)).1, id :: (findSlot dsoHandle left (id + 1)).2)
    else (id, [id])

/-- The handle of the first pattern for which `dlopen` succeeds. -/
def openLibrary (filename : String) (dlopen : String → Option H) : Option H :=
  libPattern.findSome? fun pattern => dlopen (pattern.1 ++ filename ++ pattern.2)

/-- `JS_DSOLoad` up to the call of the hook. -/
def jsDSOLoad (s : State H) (filename : String) (dlopen : String → Option H) (hasHook : Bool) :
    Result × State H :=
  let id := (findSlot s.dsoHandle tableSize 0).1
  if id = tableSize then (.error "no more free DSO handle slots available", s)
  else match openLibrary filename dlopen with
    | none => (.error "unable to load DSO \"%s\": %s", s)
    | some handle =>
      if hasHook then
        (.hook, { s with opened := handle :: s.opened, frames := .load id handle :: s.frames })
      else
        (.error "unable to resolve symbol \"js_DSO_load\" in DSO \"%s\"",
          { s with opened := handle :: s.opened, released := handle :: s.released })

/-- `JS_DSOLoad` from the return of the hook on. -/
def finishLoad (s : State H) (id : ℕ) (handle : H) (rc : Bool) : Result × State H :=
  if rc then
    (.loaded id, { s with
      dsoHandle := Function.update s.dsoHandle id (some handle)
      live := (id, handle) :: s.live })
  else
    (.error "function \"js_DSO_load\" in DSO \"%s\" returned error",
      { s with released := handle :: s.released })

/-- The end of a successful `JS_DSOUnload`. -/
def release (s : State H) (id : ℕ) (handle : H) : Result × State H :=
  (.unloaded, { s with
    released := handle :: s.released
    dsoHandle := Function.update s.dsoHandle id none
    live := s.live.filter fun l => l.1 ≠ id })

/-- `JS_DSOUnload` up to the call of the hook; without a hook, all of it. -/
def jsDSOUnload (s : State H) (id : ℤ) (hasHook : Bool) : Result × State H :=
  if id < 0 ∨ tableSize ≤ id then (.error "invalid argument: DSO id #%d out of range", s)
  else match s.dsoHandle id.toNat with
    | none => (.error "invalid argument: DSO id #%d currently unused", s)
    | some handle =>
      if hasHook then (.hook, { s with frames := .unload id.toNat handle :: s.frames })
      else release s id.toNat handle

/-- `JS_DSOUnload` from the return of the hook on. -/
def finishUnload (s : State H) (id : ℕ) (handle : H) (rc : Bool) : Result × State H :=
  if rc then release s id handle
  else (.error "function \"js_DSO_unload\" in DSO with id #%d returned error", s)

/-- One event. -/
def step (s : State H) : Event H → Option (Result × State H)
  | .load filename dlopen hasHook => some (jsDSOLoad s filename dlopen hasHook)
  | .unload id hasHook => some (jsDSOUnload s id hasHook)
  | .hookReturns rc => match s.frames with
    | [] => none
    | .load id handle :: frames => some (finishLoad { s with frames := frames } id handle rc)
    | .unload id handle :: frames => some (finishUnload { s with frames := frames } id handle rc)

/-- The state in which the process starts: the table is empty. -/
def start (behind : ℕ → Option H) : State H where
  dsoHandle i := if i < tableSize then none else behind i
  frames := []
  opened := []
  released := []
  live := []

theorem findSlot_le (dsoHandle : ℕ → Option H) (left id : ℕ) :
    (findSlot dsoHandle left id).1 ≤ id + left := by
  induction left generalizing id with
  | zero => exact le_rfl
  | succ left ih =>
    unfold findSlot
    split
    · have := ih (id + 1)
      show (findSlot dsoHandle left (id + 1)).1 ≤ id + (left + 1)
      omega
    · exact Nat.le_add_right _ _

/-- What one event can do. -/
inductive Step (s : State H) : Event H → Result → State H → Prop
  /-- A call is rejected before it has opened or released anything. -/
  | refused {e : Event H} (begins : ∀ rc, e ≠ .hookReturns rc) (format : String) :
      Step s e (.error format) s
  /-- The library of a load has no hook. -/
  | unresolved {filename : String} {dlopen : String → Option H} {hasHook : Bool} (format : String)
      (handle : H) :
      Step s (.load filename dlopen hasHook) (.error format)
        { s with opened := handle :: s.opened, released := handle :: s.released }
  | loading {filename : String} {dlopen : String → Option H} {hasHook : Bool} (id : ℕ) (handle : H)
      (inside : id < tableSize) :
      Step s (.load filename dlopen hasHook) .hook
        { s with opened := handle :: s.opened, frames := .load id handle :: s.frames }
  | unloading {id : ℤ} {hasHook : Bool} (handle : H) (inside : id.toNat < tableSize)
      (held : s.dsoHandle id.toNat = some handle) :
      Step s (.unload id hasHook) .hook { s with frames := .unload id.toNat handle :: s.frames }
  /-- An unload of a library without a hook. -/
  | dropped {id : ℤ} {hasHook : Bool} (handle : H) (inside : id.toNat < tableSize)
      (held : s.dsoHandle id.toNat = some handle) :
      Step s (.unload id hasHook) .unloaded (release s id.toNat handle).2
  | stored (id : ℕ) (handle : H) (frames : List (Frame H))
      (innermost : s.frames = .load id handle :: frames) :
      Step s (.hookReturns true) (.loaded id) { s with
        frames := frames
        dsoHandle := Function.update s.dsoHandle id (some handle)
        live := (id, handle) :: s.live }
  /-- The hook of a load fails. -/
  | undone (format : String) (id : ℕ) (handle : H) (frames : List (Frame H))
      (innermost : s.frames = .load id handle :: frames) :
      Step s (.hookReturns false) (.error format)
        { s with frames := frames, released := handle :: s.released }
  | unloaded (id : ℕ) (handle : H) (frames : List (Frame H))
      (innermost : s.frames = .unload id handle :: frames) :
      Step s (.hookReturns true) .unloaded (release { s with frames := frames } id handle).2
  /-- The hook of an unload fails. -/
  | kept (format : String) (id : ℕ) (handle : H) (frames : List (Frame H))
      (innermost : s.frames = .unload id handle :: frames) :
      Step s (.hookReturns false) (.error format) { s with frames := frames }

theorem jsDSOLoad_spec (s : State H) (filename : String) (dlopen : String → Option H)
    (hasHook : Bool) :
    Step s (.load filename dlopen hasHook) (jsDSOLoad s filename dlopen hasHook).1
      (jsDSOLoad s filename dlopen hasHook).2 := by
  have bound := findSlot_le s.dsoHandle tableSize 0
  unfold jsDSOLoad
  dsimp only
  split
  · exact .refused (by simp) _
  · split
    · exact .refused (by simp) _
    · split
      · exact .loading _ _ (by omega)
      · exact .unresolved _ _

theorem jsDSOUnload_spec (s : State H) (id : ℤ) (hasHook : Bool) :
    Step s (.unload id hasHook) (jsDSOUnload s id hasHook).1 (jsDSOUnload s id hasHook).2 := by
  unfold jsDSOUnload
  split
  · exact .refused (by simp) _
  · split
    · exact .refused (by simp) _
    · next range handle held =>
      have inside : id.toNat < tableSize := by omega
      split
      · exact .unloading handle inside held
      · exact .dropped handle inside held

theorem step_spec {s s' : State H} {e : Event H} {r : Result} (h : step s e = some (r, s')) :
    Step s e r s' := by
  cases e with
  | load filename dlopen hasHook =>
    have spec := jsDSOLoad_spec s filename dlopen hasHook
    rwa [Option.some.inj h] at spec
  | unload id hasHook =>
    have spec := jsDSOUnload_spec s id hasHook
    rwa [Option.some.inj h] at spec
  | hookReturns rc =>
    simp only [step] at h
    split at h
    · cases h
    · next id handle frames innermost =>
      cases rc with
      | true => cases h; exact .stored id handle frames innermost
      | false => cases h; exact .undone _ id handle frames innermost
    · next id handle frames innermost =>
      cases rc with
      | true => cases h; exact .unloaded id handle frames innermost
      | false => cases h; exact .kept _ id handle frames innermost

end Sysjs.Dso
