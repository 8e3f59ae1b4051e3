import Sysjs.Socket.Methods

/-!
# The sizes of the read buffer

`buffer_size` is an `int`, and each of three methods computes the size of a larger buffer from it.
The conditions below name the enlargements that a call makes; when `JS_realloc` can grant each of
them, no sum has left the range of an `int` after the call either.
-/

set_option autoImplicit false

namespace Sysjs

open Feed

variable {α : Type*} [Octet α]

/-- The loop of `read_ws_packet` at the start of a call. -/
def St.wsLoop (s : St α) : WsLoop α := { st := s.suspend, synced := false, total := 0 }

/-- A receive round of `read` in which bytes come without a newline enlarges the buffer by 1024
bytes; `JS_realloc` can grant them. -/
def RecvGrants (s : St α) (a : Answer) : Prop :=
  ∀ data k, s.kernel.read s.obj.sock s.readSize a = (some data, k) → data ≠ [] →
    (∀ x ∈ data, isNl x = false) → s.obj.Grantable 1024

/-- So does a round of `read_ws_packet` that stores a byte in the last cell. -/
def WsGrants (l : WsLoop α) (a : Answer) : Prop :=
  ∀ c rest k, l.st.kernel.read l.st.obj.sock 1 a = (some (c :: rest), k) → l.synced = true →
    l.total = l.st.obj.bufferSize - 1 → l.st.obj.Grantable 1024

/-- `readBytes(n)` needs no larger buffer, or the sums it computes for one stay in range. -/
def St.GrantsBytes (s : St α) (n : ℤ) : Prop :=
  n ≤ s.obj.bufferSize ∨ s.obj.Enlarges (n.toNat + 1024) (n.toNat + 1)

/-! ### `read` -/

theorem bufferedLine_inRange (o : SockObj α) : (bufferedLine o).2.inRange = o.inRange := by
  have step := bufferedLine_spec o
  generalize bufferedLine o = result at step ⊢
  cases step <;> rfl

theorem finishLine_inRange (s : St α) (p : ℤ) (ret : ℕ) :
    (finishLine s p ret).2.obj.inRange = s.obj.inRange := by
  unfold finishLine
  dsimp only
  split <;> rfl

theorem receive_inRange {s : St α} {answers rest : List Answer} {e : RecvExit α}
    (inRange : s.obj.inRange = true) (grants : FeedAll recvBody RecvGrants s answers)
    (done : feed recvBody s answers = some (e, rest)) : e.st.obj.inRange = true := by
  refine feed_rule (fun t => t.obj.inRange = true) (fun e => e.st.obj.inRange = true) ?_ ?_ inRange
    grants done
  · intro t a e h _ body
    have step := recvBody_spec t a
    rw [body] at step
    cases step <;> exact h
  · intro t a t' h granted body
    have step := recvBody_spec t a
    rw [body] at step
    cases step with
    | grown k data got came clear behind =>
      exact SockObj.grow_inRange.2 ⟨h, SockObj.enlarges_of_grantable h
        (granted data k got came clear)⟩

theorem read_inRange {s s' : St α} {answers : List Answer} {r : Ret α}
    (inRange : s.obj.inRange = true)
    (grants : s.obj.NoLine → FeedAll recvBody RecvGrants s.receiving answers)
    (h : jsSockRead s answers = some (r, s')) : s'.obj.inRange = true := by
  have scanned := (bufferedLine_inRange s.obj).trans inRange
  have step := jsSockRead_spec h
  cases step with
  | served line o found =>
    rw [found] at scanned
    exact scanned
  | failed nothing t rest done =>
    exact receive_inRange (s := s.receiving) scanned
      (grants (SockObj.noLine_of_bufferedLine nothing)) done
  | stopped nothing t p ret rest finish done =>
    have ends := receive_inRange (s := s.receiving) scanned
      (grants (SockObj.noLine_of_bufferedLine nothing)) done
    have finished := finishLine_inRange t.resume p ret
    rw [finish] at finished
    exact finished.trans ends

/-! ### `readBytes` -/

omit [Octet α] in
/-- The flag after growing says whether the sums stayed in range. -/
theorem growFor_inRange (s : St α) (n : ℤ) :
    (growFor s n).obj.inRange = true ↔ s.obj.inRange = true ∧ s.GrantsBytes n := by
  unfold growFor St.GrantsBytes
  split
  · next small =>
    rw [SockObj.grow_inRange, or_iff_right (not_le.2 small)]
  · next large => exact (and_iff_left (Or.inl (not_lt.1 large))).symm

theorem takeBytes_inRange (s : St α) (n : ℤ) :
    (takeBytes s n).2.obj.inRange = s.obj.inRange := by
  unfold takeBytes
  dsimp only
  split <;> rfl

/-- Nothing else of a call changes the flag. -/
theorem readBytes_inRange_iff {s s' : St α} {n : ℤ} {answers : List Answer} {r : Ret α}
    (h : jsSockReadBytes s [n] answers = some (r, s')) :
    s'.obj.inRange = true ↔ s.obj.inRange = true ∧ s.GrantsBytes n := by
  have step := jsSockReadBytes_spec h
  rw [← growFor_inRange]
  generalize growFor s n = t at step
  generalize result : (r, s') = out at step
  have left : s' = out.2 := by rw [← result]
  rw [left]
  cases step with
  | served enough => rw [takeBytes_inRange]; rfl
  | failed a asked above got =>
    split
    · exact Iff.rfl
    · rw [takeBytes_inRange]; rfl
  | short a asked above k data got few => exact Iff.rfl
  | filled a asked above k data got enough => rw [takeBytes_inRange]; rfl

/-! ### `read_ws_packet` -/

omit [Octet α] in
theorem putByte_inRange {s : St α} {total : ℕ} (c : α) (inRange : s.obj.inRange = true)
    (granted : total = s.obj.bufferSize - 1 → s.obj.Grantable 1024) :
    (putByte s total c).obj.inRange = true := by
  unfold putByte
  dsimp only
  split
  · next last =>
    exact SockObj.grow_inRange.2 ⟨inRange, SockObj.enlarges_of_grantable inRange (granted last)⟩
  · exact inRange

theorem readWsPacket_inRange {s s' : St α} {answers : List Answer} {r : Ret α}
    (inRange : s.obj.inRange = true) (grants : FeedAll wsBody WsGrants s.wsLoop answers)
    (h : jsSockReadWsPacket s answers = some (r, s')) : s'.obj.inRange = true := by
  have ends : ∀ e rest, feed wsBody s.wsLoop answers = some (e, rest) →
      e.st.obj.inRange = true := by
    intro e rest done
    refine feed_rule (fun l => l.st.obj.inRange = true) (fun e => e.st.obj.inRange = true) ?_ ?_
      inRange grants done
    · intro l a e h granted body
      have step := wsBody_spec l a
      rw [body] at step
      cases step with
      | failed got => exact h
      | ended k got => exact h
      | closed k c got inside last =>
        exact putByte_inRange (s := l.st.withKernel k) c h (granted c [] k got inside)
    · intro l a l' h granted body
      have step := wsBody_spec l a
      rw [body] at step
      cases step with
      | sync k c got waiting => exact h
      | stored k c got inside more =>
        exact putByte_inRange (s := l.st.withKernel k) c h (granted c [] k got inside)
  have step := jsSockReadWsPacket_spec h
  cases step with
  | failed t rest done => exact ends _ _ done
  | stopped t total rest done => exact ends _ _ done

/-- As many answers as fit an `int` with the next enlargement fill no buffer that `JS_realloc` could
not enlarge. -/
theorem wsGrants_of_few {l : WsLoop α} {answers : List Answer}
    (few : l.total + answers.length + 1024 < 2 ^ 31) : FeedAll wsBody WsGrants l answers := by
  induction answers generalizing l with
  | nil => trivial
  | cons a answers ih =>
    rw [List.length_cons] at few
    have here : WsGrants l a := by
      intro c rest k _ _ last
      have room := l.st.obj.room
      exact SockObj.grantable_of_lt (by omega)
    have step := wsBody_spec l a
    cases body : wsBody l a with
    | inl e => exact (feedAll_cons_inl answers body).2 here
    | inr l' =>
      refine (feedAll_cons_inr answers body).2 ⟨here, ih ?_⟩
      rw [body] at step
      cases step <;> dsimp only <;> omega

/-! ### Any reader -/

/-- `JS_realloc` can grant every enlargement of a call. -/
def Grants (s : St α) (e : Reader α × List Answer) : Prop :=
  match e.1 with
  | .read => s.obj.NoLine → FeedAll recvBody RecvGrants s.receiving e.2
  | .readBytes n => s.GrantsBytes n
  | .readWsPacket => FeedAll wsBody WsGrants s.wsLoop e.2
  | .readEatonPacket _ => True

/-- Such a call keeps the sums in range. -/
theorem call_inRange {s s' : St α} {e : Reader α × List Answer} {r : Ret α}
    (inRange : s.obj.inRange = true) (grants : Grants s e)
    (h : Reader.call s e = some (r, s')) : s'.obj.inRange = true := by
  obtain ⟨reader, answers⟩ := e
  cases reader with
  | read => exact read_inRange inRange grants h
  | readBytes n => exact (readBytes_inRange_iff h).2 ⟨inRange, grants⟩
  | readWsPacket => exact readWsPacket_inRange inRange grants h
  | readEatonPacket stack =>
    have step := jsSockReadEatonPacket_spec h
    cases step with
    | error format k less => exact inRange
    | packet elems k less => exact inRange

end Sysjs
