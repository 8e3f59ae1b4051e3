import Sysjs.Socket.Readiness
import Sysjs.SysUtil.Files

/-!
# Milliseconds

`setTimeouts` and `waitForInput` split a number of milliseconds into the two fields of a `timeval`;
`SysUtil.sleep` multiplies it.
-/

set_option autoImplicit false

namespace Sysjs

variable {α : Type*}

/-- The options that `setTimeouts` sets. -/
inductive SockOpt where
  | sndtimeo
  | rcvtimeo
  deriving DecidableEq

/-- `tv.tv_sec = t/1000; t -= tv.tv_sec*1000; tv.tv_usec = t*1000;` for an `int` `t`. -/
def splitMillis (t : ℤ) : Timeval :=
  let sec := t.tdiv 1000
  let t := toInt32 (t - sec * 1000)
  { sec, usec := toInt32 (t * 1000) }

/-- `js_sock_set_timeout` and the options it sets.  `!js_sock->state == connected` compares the
negated state, which is 1 for `disconnected` only. -/
def jsSockSetTimeout (s : St α) (argv : List TaggedValue)
    (setsockopt : ℤ → SockOpt → Timeval → Bool) :
    Ret α × List (SockOpt × Timeval) :=
  if s.obj.state = .disconnected then (.error "Socket closed!", [])
  else match argv with
    | [ts, tr] =>
      let sto := splitMillis ts.toInt
      let rto := splitMillis tr.toInt
      let ret := if setsockopt s.obj.sock .sndtimeo sto && setsockopt s.obj.sock .rcvtimeo rto
        then .done .void else .error "SetSock error %d: %s"
      (ret, [(.sndtimeo, sto), (.rcvtimeo, rto)])
    | _ => (.error "provide send and receive timeouts (ms)!", [])

/-- The times for which `waitForInput` calls `select`. -/
def selectTimes (s : St α) (argv : List Jsval) : List Timeval :=
  if s.obj.sock < 0 then []
  else match argv with
    | [.int timeout] => if 0 < timeout then [timevalOf timeout] else []
    | _ => []

/-- A call of `usleep`: the product, an `int`, and the argument made of it. -/
structure Usleep where
  product : ℤ
  argument : ℕ

/-- `SysUtil_s_sleep` and the call it makes. -/
def sysUtilSleep (argv : List TaggedValue) (usleep : ℕ → ℤ) : SysUtil.Result × List Usleep :=
  match argv with
  | [v] =>
    if !v.isInt then (.error "arg must be a int!", [])
    else
      let product := toInt32 (v.toInt * 1000)
      (.int (intToJsval (usleep (toUint32 product))), [⟨product, toUint32 product⟩])
  | _ => (.error "pass the milliseconds you want to sleep!\n", [])

/-- The calls that take a number of milliseconds. -/
inductive MillisCall where
  | setTimeouts (argv : List TaggedValue)
  | waitForInput (argv : List Jsval)
  | sleep (argv : List TaggedValue)

/-- A number of milliseconds that an integer jsval can hold. -/
def IsDelay (m : ℤ) : Prop := 0 ≤ m ∧ m < 2 ^ 30

/-- The time is `m` milliseconds. -/
structure Timeval.Millis (tv : Timeval) (m : ℤ) : Prop where
  sum : tv.sec * 1000000 + tv.usec = 1000 * m
  low : 0 ≤ tv.usec
  high : tv.usec < 1000000

/-- Every interval the call hands to the system is the number of milliseconds it was given. -/
def MillisCall.Exact (s : St α) : MillisCall → Prop
  | .setTimeouts argv => ∀ setsockopt m tv, IsDelay m →
      (argv[0]? = some (.int m) → (.sndtimeo, tv) ∈ (jsSockSetTimeout s argv setsockopt).2 →
        tv.Millis m) ∧
      (argv[1]? = some (.int m) → (.rcvtimeo, tv) ∈ (jsSockSetTimeout s argv setsockopt).2 →
        tv.Millis m)
  | .waitForInput argv => ∀ m tv, IsDelay m → argv = [.int m] → tv ∈ selectTimes s argv →
      tv.Millis m
  | .sleep argv => ∀ usleep m call, IsDelay m → argv = [.int m] →
      call ∈ (sysUtilSleep argv usleep).2 →
        call.product = 1000 * m ∧ (call.argument : ℤ) = 1000 * m

/-- `sleep` is given at most 2147483 milliseconds. -/
def MillisCall.Moderate : MillisCall → Prop
  | .sleep argv => ∀ m, IsDelay m → argv = [.int m] → m ≤ 2147483
  | _ => True

/-- `waitForInput` asks for no other time. -/
theorem jsSockWaitForInput_congr {s : St α} {argv : List Jsval}
    {select select' : ℤ → Timeval → Option Bool}
    (same : ∀ tv ∈ selectTimes s argv, select s.obj.sock tv = select' s.obj.sock tv) :
    jsSockWaitForInput s argv select = jsSockWaitForInput s argv select' := by
  unfold selectTimes at same
  unfold jsSockWaitForInput
  split
  · rfl
  · next opened =>
    rw [if_neg opened] at same
    split
    · next arg =>
      cases arg with
      | int n =>
        dsimp only at same ⊢
        split
        · next waits =>
          rw [if_pos waits] at same
          rw [same _ (List.mem_singleton_self _)]
        · rfl
      | other => rfl
    · rfl

theorem timevalOf_millis (m : ℤ) : (timevalOf m).Millis m where
  sum := by
    simp only [timevalOf]
    omega
  low := by
    simp only [timevalOf]
    omega
  high := by
    simp only [timevalOf]
    omega

theorem splitMillis_of_delay {m : ℤ} (delay : IsDelay m) : splitMillis m = timevalOf m := by
  obtain ⟨low, high⟩ := delay
  have sec : m.tdiv 1000 = m / 1000 := Int.tdiv_eq_ediv_of_nonneg low
  have rest : toInt32 (m - m / 1000 * 1000) = m - m / 1000 * 1000 :=
    toInt32_of_fits (by omega) (by omega)
  have usec : toInt32 ((m - m / 1000 * 1000) * 1000) = (m - m / 1000 * 1000) * 1000 :=
    toInt32_of_fits (by omega) (by omega)
  simp only [splitMillis, timevalOf, sec, rest, usec]

theorem setTimeouts_exact (s : St α) (argv : List TaggedValue) :
    (MillisCall.setTimeouts argv).Exact s := by
  intro setsockopt m tv delay
  unfold jsSockSetTimeout
  split
  · simp
  · split
    · next ts tr =>
      constructor
      · intro given set
        obtain rfl : ts = .int m := by simpa using given
        obtain rfl : tv = splitMillis m := by simpa [TaggedValue.toInt] using set
        rw [splitMillis_of_delay delay]
        exact timevalOf_millis m
      · intro given set
        obtain rfl : tr = .int m := by simpa using given
        obtain rfl : tv = splitMillis m := by simpa [TaggedValue.toInt] using set
        rw [splitMillis_of_delay delay]
        exact timevalOf_millis m
    · simp

theorem waitForInput_exact (s : St α) (argv : List Jsval) :
    (MillisCall.waitForInput argv).Exact s := by
  rintro m tv delay rfl asked
  have time : tv = timevalOf m := by
    unfold selectTimes at asked
    split at asked
    · cases asked
    · exact (by simpa using asked : 0 < m ∧ tv = timevalOf m).2
  rw [time]
  exact timevalOf_millis m

theorem product_eq_iff {m : ℤ} (delay : IsDelay m) :
    toInt32 (m * 1000) = 1000 * m ↔ m ≤ 2147483 := by
  obtain ⟨low, high⟩ := delay
  rw [Int.mul_comm, toInt32_eq_iff]
  omega

/-- Up to 4294967 the argument of `usleep` is right although the product has wrapped around: the
conversion to `unsigned` undoes that. -/
theorem argument_eq_iff {m : ℤ} (delay : IsDelay m) :
    (toUint32 (toInt32 (m * 1000)) : ℤ) = 1000 * m ↔ m ≤ 4294967 := by
  obtain ⟨low, high⟩ := delay
  have turns : toInt32 (m * 1000) + 4294967296 * Int.bdiv (m * 1000) (2 ^ 32) = m * 1000 :=
    Int.bmod_add_bdiv (m * 1000) (2 ^ 32)
  generalize toInt32 (m * 1000) = product at turns ⊢
  unfold toUint32
  omega

theorem sleep_exact_iff (s : St α) (argv : List TaggedValue) :
    (MillisCall.sleep argv).Exact s ↔ (MillisCall.sleep argv).Moderate := by
  constructor
  · rintro exact m delay rfl
    exact (product_eq_iff delay).1 (exact (fun _ => 0) m _ delay rfl (List.mem_singleton_self _)).1
  · rintro moderate usleep m call delay rfl made
    have product := (product_eq_iff delay).2 (moderate m delay rfl)
    obtain rfl : call = ⟨1000 * m, toUint32 (1000 * m)⟩ := by
      simpa [sysUtilSleep, TaggedValue.isInt, TaggedValue.toInt, product] using made
    refine ⟨rfl, ?_⟩
    have := moderate m delay rfl
    have := delay.1
    simp only [toUint32]
    omega

end Sysjs
