import Sysjs.Socket.Methods

/-!
# Suspended requests

A method suspends the request around its system calls and resumes it before it returns.  The error
returns inside the loops, and those of `connect` and `readEatonPacket`, leave it suspended.
-/

set_option autoImplicit false

namespace Sysjs

open Feed Runs

variable {α : Type*}

/-- The request depth and the depth saved at the last suspension. -/
def account (d : ℕ × ℕ) : Request → ℕ × ℕ
  | .suspend => (0, d.1)
  | .resume => (d.1 + d.2, d.2)

/-- The request depth after the calls of a log, from `depth` on. -/
def depthAfter (depth : ℕ) (log : List Request) : ℕ := (log.foldl account (depth, 0)).1

/-- A call resumes as often as it suspends, and the request depth is what it was before the run. -/
structure Balanced (s s' : St α) : Prop where
  calls : ∃ log, s'.requests = s.requests ++ log ∧ log.count .suspend = log.count .resume
  depth : ∀ depth, depthAfter depth s'.requests = depth

/-- A `read` of `count` bytes is answered, if only by the end of the stream. -/
def St.Answered (s : St α) (count : ℕ) (a : Answer) : Prop :=
  (s.kernel.read s.obj.sock count a).1 ≠ none

/-- The call of the request, if any, is resumed exactly when `P` holds. -/
inductive ResumedWhen (P : Prop) (s s' : St α) : Prop where
  | untouched (holds : P) (log : s'.requests = s.requests)
  | resumed (holds : P) (log : s'.requests = s.requests ++ [.suspend] ++ [.resume])
  | suspended (fails : ¬ P) (log : s'.requests = s.requests ++ [.suspend])

/-- A call is balanced if and only if its suspension, if any, is followed by a resumption. -/
theorem ResumedWhen.balanced_iff {P : Prop} {s s' : St α} (h : ResumedWhen P s s')
    (before : ∀ depth, depthAfter depth s.requests = depth) : Balanced s s' ↔ P := by
  cases h with
  | untouched holds log =>
    refine iff_of_true ⟨⟨[], by rw [log, List.append_nil], rfl⟩, ?_⟩ holds
    rwa [log]
  | resumed holds log =>
    refine iff_of_true ⟨⟨[.suspend, .resume], by rw [log, List.append_assoc]; rfl, rfl⟩, ?_⟩ holds
    intro depth
    have here := before depth
    unfold depthAfter at here ⊢
    rw [log, List.foldl_append, List.foldl_append]
    show 0 + (s.requests.foldl account (depth, 0)).1 = depth
    rw [here, Nat.zero_add]
  | suspended fails log =>
    refine iff_of_false ?_ fails
    rintro ⟨⟨log', eq, same⟩, -⟩
    obtain rfl : [Request.suspend] = log' := List.append_cancel_left (log.symm.trans eq)
    exact absurd same (by decide)

/-! ### The loops -/

section Loops

variable [Octet α]

@[simp] theorem takeBytes_requests (s : St α) (n : ℤ) :
    (takeBytes s n).2.requests = s.requests := by
  unfold takeBytes
  dsimp only
  split <;> rfl

@[simp] theorem finishLine_requests (s : St α) (p : ℤ) (ret : ℕ) :
    (finishLine s p ret).2.requests = s.requests := by
  unfold finishLine
  dsimp only
  split <;> rfl

theorem recv_requests {s : St α} {answers rest : List Answer} {e : RecvExit α}
    (done : feed recvBody s answers = some (e, rest)) : e.st.requests = s.requests := by
  refine feed_inv (fun t => t.requests = s.requests) (fun e => e.st.requests = s.requests) ?_ ?_ rfl
    done
  · intro t a e same body
    have step := recvBody_spec t a
    rw [body] at step
    cases step <;> exact same
  · intro t a t' same body
    have step := recvBody_spec t a
    rw [body] at step
    cases step with
    | grown k data h came clear behind => exact same

theorem ws_requests {l : WsLoop α} {answers rest : List Answer} {e : WsExit α}
    (done : feed wsBody l answers = some (e, rest)) : e.st.requests = l.st.requests := by
  refine feed_inv (fun l' => l'.st.requests = l.st.requests)
    (fun e => e.st.requests = l.st.requests) ?_ ?_ rfl done
  · intro l' a e same body
    have step := wsBody_spec l' a
    rw [body] at step
    cases step with
    | failed h => exact same
    | ended k h => exact same
    | closed k c h inside last => exact (putByte_requests _ _ _).trans same
  · intro l' a l'' same body
    have step := wsBody_spec l' a
    rw [body] at step
    cases step with
    | sync k c h waiting => exact same
    | stored k c h inside more => exact (putByte_requests _ _ _).trans same

/-- The receive loop is left by the error return if and only if a `read` fails. -/
theorem recv_answered_iff {s : St α} {answers rest : List Answer} {e : RecvExit α}
    (done : feed recvBody s answers = some (e, rest)) :
    FeedAll recvBody (fun t a => t.Answered t.readSize a) s answers ↔ ∀ t, e ≠ .failed t := by
  refine feedAll_iff (fun _ => True) (fun e => ∀ t, e ≠ .failed t) ?_ ?_ trivial done
  · intro t a e _ body
    have step := recvBody_spec t a
    rw [body] at step
    cases step with
    | failed h => simp [St.Answered, h]
    | ended k h => simp [St.Answered, h]
    | line k l c r h before here => simp [St.Answered, h]
    | stale k data h came clear behind => simp [St.Answered, h]
  · intro t a t' _ body
    have step := recvBody_spec t a
    rw [body] at step
    cases step with
    | grown k data h came clear behind => simp [St.Answered, h]

/-- The same for the packet loop. -/
theorem ws_answered_iff {l : WsLoop α} {answers rest : List Answer} {e : WsExit α}
    (done : feed wsBody l answers = some (e, rest)) :
    FeedAll wsBody (fun l a => l.st.Answered 1 a) l answers ↔ ∀ t, e ≠ .failed t := by
  refine feedAll_iff (fun _ => True) (fun e => ∀ t, e ≠ .failed t) ?_ ?_ trivial done
  · intro l a e _ body
    have step := wsBody_spec l a
    rw [body] at step
    cases step with
    | failed h => simp [St.Answered, h]
    | ended k h => simp [St.Answered, h]
    | closed k c h inside last => simp [St.Answered, h]
  · intro l a l' _ body
    have step := wsBody_spec l a
    rw [body] at step
    cases step with
    | sync k c h waiting => simp [St.Answered, h]
    | stored k c h inside more => simp [St.Answered, h]

end Loops

/-! ### The packets of `readEatonPacket` -/

section Eaton

variable [Octet α]

/-- Behind the header byte every `read` succeeds, the length byte is at most 32 and the trailer byte
is `0xa5`, as far as the two local arrays show after the `read`s. -/
def FrameIntact (s : St α) (packetbuf trailer : Block α) (answers : List Answer) : Prop :=
  ∃ buf t as, readInto s packetbuf 0 1 answers = some (true, buf, t, as) ∧
    (Octet.val (buf.cells 0)).toNat ≤ 32 ∧
    ∃ buf' t' as', readInto t buf 1 (sizeT ((Octet.val (buf.cells 0)).toNat - 1)) as =
      some (true, buf', t', as') ∧
    ∃ tail t'' as'', readInto t' trailer 0 1 as' = some (true, tail, t'', as'') ∧
      Octet.val (tail.cells 0) = 0xa5

/-- No `read` of the call fails, and the frame behind the header byte is intact. -/
def PacketIntact (s : St α) (stack : ℕ → ℤ → α) (answers : List Answer) : Prop :=
  ∃ t packetbuf rest, feed eatonBody (s.suspend, Block.malloc 32 stack) answers =
      some (.stopped t packetbuf, rest) ∧
    FrameIntact t packetbuf (Block.malloc 1 fun k => stack (k + 1)) rest

theorem eatonFrame_of_intact {s : St α} {packetbuf trailer : Block α} {answers : List Answer}
    (intact : FrameIntact s packetbuf trailer answers) :
    ∃ elems t, eatonFrame s packetbuf trailer answers = some (.done (.array elems), t) := by
  obtain ⟨buf, t, as, first, short, buf', t', as', second, tail, t'', as'', third, closing⟩ :=
    intact
  have fits : ¬ 32 < (Octet.val (buf.cells 0)).toNat := by omega
  simp only [eatonFrame, first, if_neg fits, second, third, closing, ne_eq, not_true_eq_false,
    if_false]
  exact ⟨_, _, rfl⟩

theorem intact_of_eatonFrame {s t : St α} {packetbuf trailer : Block α} {answers : List Answer}
    {v : Rval α} (h : eatonFrame s packetbuf trailer answers = some (.done v, t)) :
    FrameIntact s packetbuf trailer answers := by
  cases eatonFrame_run h with
  | packet buf buf' tail t t' t'' as as' as'' first small second third closing =>
    exact ⟨buf, t, as, first, small, buf', t', as', second, tail, t'', as'', third, closing⟩

/-- `readEatonPacket` returns a packet if and only if it is intact. -/
theorem done_iff_intact {s s' : St α} {stack : ℕ → ℤ → α} {answers : List Answer} {r : Ret α}
    (h : jsSockReadEatonPacket s stack answers = some (r, s')) :
    (∃ v, r = .done v) ↔ PacketIntact s stack answers := by
  unfold PacketIntact
  rcases jsSockReadEatonPacket_cases h with
    ⟨rfl, rest, failed⟩ | ⟨t, packetbuf, rest, stopped, frame⟩
  · rw [failed]
    simp
  · rw [stopped]
    constructor
    · rintro ⟨v, rfl⟩
      exact ⟨t, packetbuf, rest, rfl, intact_of_eatonFrame frame⟩
    · rintro ⟨_, _, _, same, intact⟩
      cases same
      obtain ⟨elems, t', eq⟩ := eatonFrame_of_intact intact
      rw [eq] at frame
      cases frame
      exact ⟨_, rfl⟩

end Eaton

/-! ### Every call -/

theorem connect_resumed {s s' : St α} {host : Option (Resolve α)} {r : Ret α}
    (h : jsSockConnect s host = some (r, s')) :
    ResumedWhen (∀ attempts, host = some (.addresses attempts) → someWorks attempts = true)
      s s' := by
  have step := jsSockConnect_spec h
  cases step with
  | arguments => exact .untouched (fun _ eq => by cases eq) rfl
  | unresolved => exact .untouched (fun _ eq => by cases eq) (closeOld_requests s)
  | noAddress attempts works =>
    refine .suspended (fun all => ?_) (congrArg (· ++ [Request.suspend]) (closeOld_requests s))
    rw [all attempts rfl] at works
    cases works
  | connected attempts works fd stream chosen low fresh =>
    refine .resumed (fun attempts' eq => ?_) rfl
    cases eq
    exact works

theorem writeStep_resumed {s s' : St α} {r : Ret α} (step : WriteStep s r s') :
    ResumedWhen True s s' := by
  cases step with
  | arguments => exact .untouched trivial rfl
  | wrote r k same => exact .resumed trivial rfl

variable [Octet α]

theorem read_resumed {s s' : St α} {answers : List Answer} {r : Ret α}
    (h : jsSockRead s answers = some (r, s')) :
    ResumedWhen (s.obj.NoLine →
      FeedAll recvBody (fun t a => t.Answered t.readSize a) s.receiving answers) s s' := by
  have step := jsSockRead_spec h
  cases step with
  | served line o found =>
    refine .untouched (fun nothing => ?_) rfl
    obtain ⟨len, none⟩ := SockObj.bufferedLine_of_noLine nothing
    rw [found] at none
    cases none
  | failed nothing t rest done =>
    refine .suspended (fun all => ?_) (recv_requests done)
    exact (recv_answered_iff done).1 (all (SockObj.noLine_of_bufferedLine nothing)) _ rfl
  | stopped nothing t p ret rest finish done =>
    refine .resumed (fun _ => (recv_answered_iff done).2 fun _ eq => by cases eq) ?_
    have kept : s'.requests = t.resume.requests := by
      rw [← finishLine_requests t.resume p ret, finish]
    have looped : t.requests = s.receiving.requests := recv_requests done
    rw [kept, St.resume_requests, looped]
    rfl

theorem readBytes_resumed {s s' : St α} {n : ℤ} {answers : List Answer} {r : Ret α}
    (h : jsSockReadBytes s [n] answers = some (r, s')) : ResumedWhen True s s' := by
  have step := jsSockReadBytes_spec h
  have grown : (growFor s n).requests = s.requests := growFor_requests s n
  generalize growFor s n = t at step grown
  generalize result : (r, s') = out at step
  have log : out.2.requests = t.requests ++ [.suspend] ++ [.resume] := by
    cases step with
    | served enough => exact takeBytes_requests _ n
    | failed a asked above got =>
      split
      · rfl
      · exact takeBytes_requests _ n
    | short a asked above k data got few => rfl
    | filled a asked above k data got enough => exact takeBytes_requests _ n
  rw [← result, grown] at log
  exact .resumed trivial log

theorem readWsPacket_resumed {s s' : St α} {answers : List Answer} {r : Ret α}
    (h : jsSockReadWsPacket s answers = some (r, s')) :
    ResumedWhen (FeedAll wsBody (fun l a => l.st.Answered 1 a)
      { st := s.suspend, synced := false, total := 0 } answers) s s' := by
  have step := jsSockReadWsPacket_spec h
  cases step with
  | failed t rest done =>
    exact .suspended (fun all => (ws_answered_iff done).1 all _ rfl) (ws_requests done)
  | stopped t total rest done =>
    refine .resumed ((ws_answered_iff done).2 fun _ eq => by cases eq) ?_
    have looped : t.requests = s.suspend.requests := ws_requests done
    show t.requests ++ [.resume] = s.requests ++ [.suspend] ++ [.resume]
    rw [looped, St.suspend_requests]

theorem readEatonPacket_resumed {s s' : St α} {stack : ℕ → ℤ → α} {answers : List Answer}
    {r : Ret α} (h : jsSockReadEatonPacket s stack answers = some (r, s')) :
    ResumedWhen (PacketIntact s stack answers) s s' := by
  have intact := done_iff_intact h
  have step := jsSockReadEatonPacket_spec h
  generalize before : s.suspend = t at step
  have log : t.requests = s.requests ++ [.suspend] := by rw [← before, St.suspend_requests]
  cases step with
  | error format k less =>
    refine .suspended (fun whole => ?_) log
    obtain ⟨v, eq⟩ := intact.2 whole
    cases eq
  | packet elems k less =>
    exact .resumed (intact.1 ⟨_, rfl⟩) (congrArg (· ++ [Request.resume]) log)

/-- The condition on the state and the call: `connect` finds an address that works, the `read`s of
the readers succeed unless a buffered line is served, and `readEatonPacket` finds an intact packet.
`readBytes` and the other methods need nothing. -/
def Resumes (s : St α) : Op α → Prop
  | .connect host => ∀ attempts, host = some (.addresses attempts) → someWorks attempts = true
  | .reader .read answers => s.obj.NoLine →
      FeedAll recvBody (fun t a => t.Answered t.readSize a) s.receiving answers
  | .reader .readWsPacket answers => FeedAll wsBody (fun l a => l.st.Answered 1 a)
      { st := s.suspend, synced := false, total := 0 } answers
  | .reader (.readEatonPacket stack) answers => PacketIntact s stack answers
  | _ => True

theorem call_resumed {s s' : St α} {op : Op α} {r : Ret α} (h : op.call s = some (r, s')) :
    ResumedWhen (Resumes s op) s s' := by
  cases op with
  | connect host => exact connect_resumed h
  | bind argv found listens =>
    refine .untouched trivial ?_
    have step := jsSockBind_spec h
    cases step <;> rfl
  | accept answer newId heap =>
    refine .untouched trivial ?_
    obtain ⟨⟨r', t, made⟩, accepted, eq⟩ := Option.map_eq_some_iff.1 h
    cases eq
    have step := jsSockAccept_spec accepted
    cases step <;> rfl
  | close =>
    cases h
    exact .resumed trivial rfl
  | write argv answers => exact writeStep_resumed (jsSockSend_spec h)
  | writeWsPacket argv answers => exact writeStep_resumed (jsSockWriteWsPacket_spec h)
  | reader reader answers =>
    cases reader with
    | read => exact read_resumed h
    | readBytes n => exact readBytes_resumed h
    | readWsPacket => exact readWsPacket_resumed h
    | readEatonPacket stack => exact readEatonPacket_resumed h

/-- In every run from any state, every call is balanced and leaves the request depth as it was
before the run, if and only if every call meets the condition. -/
theorem requests_balanced_iff (s : St α) (calls : List (Op α)) :
    Along Op.call (fun s _ _ s' => Balanced s s') { s with requests := [] } calls ↔
      Guarded Op.call Resumes { s with requests := [] } calls :=
  along_iff_guarded (fun s => ∀ depth, depthAfter depth s.requests = depth)
    (fun _ _ _ _ before h => (call_resumed h).balanced_iff before)
    (fun _ _ _ _ _ _ balanced => balanced.depth) calls fun _ => rfl

/-- A packet, a line and a byte. -/
theorem requests_balanced_iff_packet :
    Along Op.call (fun s _ _ s' => Balanced s s')
      { St.start (fun _ _ => (0 : UInt8)) [.int 5] (.stream 5 [0, 104, 255, 97, 10, 98]) with
        requests := [] }
      [.reader .readWsPacket [.upTo 1, .upTo 1, .upTo 1], .reader .read [.upTo 2],
        .reader (.readBytes 1) [.upTo 1], .connect none, .close] := by
  refine (requests_balanced_iff _ _).2 (guarded_cons ⟨?_, ?_, ?_, trivial⟩
    (guarded_cons (fun _ => feedAll_singleton.2 ?_) (guarded_cons trivial
      (guarded_cons (fun _ eq => by cases eq) (guarded_cons trivial trivial)))))
  all_goals unfold St.Answered; decide +kernel

/-- A `read` that fails. -/
theorem requests_balanced_iff_not_failing :
    ¬ Along Op.call (fun s _ _ s' => Balanced s s')
      { St.start (fun _ _ => (0 : UInt8)) [.int 5] (.stream 5 []) with requests := [] }
      [.reader .read [.fail]] :=
  not_along_of_last (fun _ _ (x : Ret UInt8 × St UInt8) => depthAfter 1 x.2.requests == 1)
    (fun (s : St UInt8) _ _ s' (balanced : Balanced s s') => by simpa using balanced.depth 1) []
    (Op.reader .read [.fail]) rfl (by decide +kernel)

end Sysjs
