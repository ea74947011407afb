import Runas.Kernel
import Runas.Topics

/-! The barrier between the two sides of a fork: what a side knows of the other when
`ready_and_wait` has decided, whatever the interleaving and wherever either dies. -/
namespace Runas
open Interaction Text

namespace ForkSync

def into (s : Side) (sync : ForkSync) : Calls ForkEndpoint :=
  match s with
  | .parent => sync.intoParent
  | .child => sync.intoChild

end ForkSync

def endpointOf (s : Side) : ForkEndpoint where
  write := some (.pipe (.status s) .write)
  read := some (.pipe (.status s.peer) .read)
  statusSent := false

/-- A side has let go of the ends that are the other's. -/
def Pipes.Converted (pipes : Pipes) (s : Side) : Prop :=
  pipes.holds s s.peer .write = false ∧ pipes.holds s s .read = false

/-- What a side that obeys may do to the status pipes. -/
inductive Pipes.Turn (s : Side) (pipes : Pipes) : Pipes → Prop
  | stay : Turn s pipes pipes
  | send (bytes : Bytes) (unsent : pipes.sent s = [])
      (status : bytes = [] ∨ bytes = [statusReady] ∨ bytes = [statusFailed])
      (held : pipes.holds s s .write = true) : Turn s pipes (pipes.push s bytes)
  | take (count : Nat) : Turn s pipes (pipes.pull s.peer count)
  | close (sender : Side) (half : PipeEnd) : Turn s pipes (pipes.close s sender half)

/-- The calls the barrier makes on the status pipes: one byte on the own pipe at most,
and reads of the other's only once its ends are let go of. -/
def Obeys (s : Side) (k : Kernel) : Call → Prop
  | .write (.pipe (.status sender) .write) bytes =>
    sender = s ∧ k.pipes.sent s = [] ∧ (bytes = [statusReady] ∨ bytes = [statusFailed])
  | .read (.pipe (.status sender) .read) _ =>
    sender = s.peer ∧ (k.alive s = true → k.pipes.Converted s ∧ k.pipes.holds s s.peer .read = true)
  | _ => True

/-- What a side has sent is a status byte at most. -/
def SentOnce (k : Kernel) : Prop :=
  ∀ s, k.pipes.sent s = [] ∨ k.pipes.sent s = [statusReady] ∨ k.pipes.sent s = [statusFailed]

@[simp] theorem Side.peer_peer (s : Side) : s.peer.peer = s := by cases s <;> rfl

theorem Side.peer_ne (s : Side) : s.peer ≠ s := by cases s <;> decide

namespace Kernel
variable (supervisor : Pid)

/-- One side, beside another that obeys the protocol. -/
def side (s : Side) : Setting Call Answer Kernel where
  step := step supervisor s
  rely k k' := Happens k k' ∨ ∃ event answer, Obeys s.peer k event ∧ step supervisor s.peer k event answer k'
  guard := Obeys s

variable {supervisor : Pid} {s : Side} {k k' : Kernel}

theorem happens_traffic (happened : Happens k k') :
    k'.pipes.sent = k.pipes.sent ∧ k'.pipes.buffer = k.pipes.buffer := by
  cases happened <;> exact ⟨rfl,rfl⟩

/-- A call that obeys sends at most its byte on the own pipe, takes from the other's, or
closes a descriptor. -/
theorem obeys_turn {event : Call} {answer : Answer event} (obeys : Obeys s k event)
    (taken : step supervisor s k event answer k') : k.pipes.Turn s k'.pipes := by
  rw [step_pipes taken]
  obtain ⟨_,permits,-⟩ := taken
  unfold after
  split
  · next sender bytes count =>
    obtain ⟨rfl,unsent,byte⟩ := obeys
    obtain ⟨held,_,_⟩ := permits
    refine .send _ unsent ?_ held
    rcases byte with rfl | rfl <;> rcases count with _ | count <;> simp
  · obtain ⟨rfl,_⟩ := obeys
    exact .take _
  · exact .close _ _
  all_goals (try split) <;> exact .stay

end Kernel

/-! What stays true for a side while the other takes its turns. -/

section stable
variable {pipes pipes' : Pipes} {s : Side}

theorem Pipes.Turn.own (turn : pipes.Turn s.peer pipes') : pipes'.sent s = pipes.sent s := by
  have other := s.peer_ne
  cases turn with
  | send => simp [Pipes.push,other.symm]
  | _ => rfl

/-- What the other has sent and this side has not read stays there, and the byte of the
other is sent once. -/
theorem Pipes.Turn.unread (turn : pipes.Turn s.peer pipes')
    (unread : pipes.buffer s.peer = pipes.sent s.peer) : pipes'.buffer s.peer = pipes'.sent s.peer := by
  have other := s.peer_ne
  cases turn with
  | stay => exact unread
  | send => simp [Pipes.push,unread]
  | take => simpa [Pipes.pull,other] using unread
  | close => exact unread

theorem Pipes.Turn.once (turn : pipes.Turn s.peer pipes') (sent : pipes.sent s.peer ≠ []) :
    pipes'.sent s.peer = pipes.sent s.peer := by
  cases turn with
  | send _ unsent => exact absurd unsent sent
  | _ => rfl

theorem Pipes.open?_eq_false {sender : Side} {half : PipeEnd} :
    pipes.open? sender half = false ↔ ∀ q, pipes.holds q sender half = false := by
  constructor
  · intro closed q
    have both := Bool.or_eq_false_iff.mp closed
    cases q with
    | parent => exact both.1
    | child => exact both.2
  · exact fun closed => Bool.or_eq_false_iff.mpr ⟨closed _,closed _⟩

/-- A pipe that nobody can write to any more stays so, and nothing is sent on it. -/
theorem Pipes.Turn.silent {q sender : Side} (turn : pipes.Turn q pipes')
    (closed : pipes.open? sender .write = false) :
    pipes'.sent sender = pipes.sent sender ∧ pipes'.open? sender .write = false := by
  have shut := open?_eq_false.mp closed
  cases turn with
  | stay => exact ⟨rfl,closed⟩
  | send bytes unsent status held =>
    have other : sender ≠ q := fun same => by simp [← same,shut] at held
    exact ⟨by simp [Pipes.push,other],closed⟩
  | take => exact ⟨rfl,closed⟩
  | close => exact ⟨rfl,open?_eq_false.mpr fun q => by simp [Pipes.close,shut q]⟩

theorem Pipes.Turn.valid (turn : pipes.Turn s pipes')
    (valid : pipes.sent s = [] ∨ pipes.sent s = [statusReady] ∨ pipes.sent s = [statusFailed]) :
    pipes'.sent s = [] ∨ pipes'.sent s = [statusReady] ∨ pipes'.sent s = [statusFailed] := by
  cases turn with
  | send bytes unsent status => simpa [Pipes.push,unsent] using status
  | _ => exact valid

end stable

/-- What a side knows before it has read: its descriptors, what it has sent, and that
nothing of what the other has sent, a status byte at most, is lost. -/
structure Knows (s : Side) (own : Side → PipeEnd → Bool) (status : Bytes) (k : Kernel) : Prop where
  holds : k.alive s = true → ∀ sender half, k.pipes.holds s sender half = own sender half
  sent : k.pipes.sent s = status
  unread : k.pipes.buffer s.peer = k.pipes.sent s.peer
  valid : k.pipes.sent s.peer = [] ∨ k.pipes.sent s.peer = [statusReady] ∨ k.pipes.sent s.peer = [statusFailed]

section
variable {supervisor : Pid} {s : Side}

theorem Knows.stable (own : Side → PipeEnd → Bool) (status : Bytes) :
    (Kernel.side supervisor s).Stable (Knows s own status) := by
  rintro k k' knows (happened | ⟨event,answer,obeys,taken⟩)
  · obtain ⟨sent,buffer⟩ := Kernel.happens_traffic happened
    have frame := Kernel.happens_frame happened s
    refine ⟨fun lives sender half => ?_,by rw [sent]; exact knows.sent,by rw [sent,buffer]; exact knows.unread,
      by rw [sent]; exact knows.valid⟩
    rw [frame.own lives]
    exact knows.holds (frame.alive s lives) sender half
  · have turn := Kernel.obeys_turn obeys taken
    have frame := Kernel.step_frame taken s.peer_ne.symm
    refine ⟨fun lives sender half => ?_,turn.own.trans knows.sent,turn.unread knows.unread,turn.valid knows.valid⟩
    rw [frame.own lives]
    exact knows.holds (frame.alive s lives) sender half

theorem stable_heard (status : UInt8) :
    (Kernel.side supervisor s).Stable fun k => k.pipes.sent s.peer = [status] := by
  rintro k k' heard (happened | ⟨event,answer,obeys,taken⟩)
  · rw [(Kernel.happens_traffic happened).1]
    exact heard
  · rw [(Kernel.obeys_turn obeys taken).once (by simp [heard])]
    exact heard

/-- The other side has sent nothing, and nobody can send for it. -/
def Silent (s : Side) (k : Kernel) : Prop :=
  k.pipes.sent s.peer = [] ∧ k.pipes.open? s.peer .write = false

theorem stable_silent : (Kernel.side supervisor s).Stable (Silent s) := by
  rintro k k' ⟨unsent,closed⟩ (happened | ⟨event,answer,obeys,taken⟩)
  · refine ⟨(congrFun (Kernel.happens_traffic happened).1 _).trans unsent,?_⟩
    refine Pipes.open?_eq_false.mpr fun q => ?_
    have shut := Pipes.open?_eq_false.mp closed q
    rw [Bool.eq_false_iff] at shut ⊢
    exact fun held => shut ((Kernel.happens_frame happened q).less q _ _ held)
  · obtain ⟨same,shut⟩ := (Kernel.obeys_turn obeys taken).silent closed
    exact ⟨same.trans unsent,shut⟩

def without (own : Side → PipeEnd → Bool) (sender : Side) (half : PipeEnd) : Side → PipeEnd → Bool :=
  fun sender' half' => own sender' half' && !(sender' = sender && half' = half)

theorem Knows.same {own : Side → PipeEnd → Bool} {status : Bytes} {k k' : Kernel}
    (knows : Knows s own status k) (pipes : k'.pipes = k.pipes) (alive : k'.alive = k.alive) :
    Knows s own status k' := by
  obtain ⟨holds,sent,unread,valid⟩ := knows
  exact ⟨by rw [pipes,alive]; exact holds,by rw [pipes]; exact sent,by rw [pipes]; exact unread,
    by rw [pipes]; exact valid⟩

theorem obeys_other {event : Call} {k : Kernel} (other : Kernel.onStatus event = false) : Obeys s k event := by
  unfold Obeys
  split
  · cases other
  · cases other
  · trivial

theorem safe_quiet_side {α : Type} {p : Calls α} {own : Side → PipeEnd → Bool} {status : Bytes} {k : Kernel}
    (used : p.Uses fun event => Kernel.onStatus event = false) (knows : Knows s own status k) :
    (Kernel.side supervisor s).Safe p (fun _ => Knows s own status) k := by
  refine Setting.Safe.uses used (Knows.stable own status) knows ?_ ?_
  · exact fun k event _ other => obeys_other other
  · intro k event answer k' knows other taken
    exact knows.same ((Kernel.step_pipes taken).trans (Kernel.after_pipes other)) (Kernel.step_alive taken)

private theorem safe_close {own : Side → PipeEnd → Bool} {status : Bytes} {k : Kernel} {sender : Side}
    {half : PipeEnd} (knows : Knows s own status k) : (Kernel.side supervisor s).Safe
      (Descriptor.drop (some (.pipe (.status sender) half))) (fun _ => Knows s (without own sender half) status) k := by
  refine .call (Knows.stable own status) knows (fun _ _ => trivial) fun k answer k' knows taken => ?_
  refine .done (Knows.stable _ status) ?_
  have pipes : k'.pipes = k.pipes.close s sender half := Kernel.step_pipes taken
  refine ⟨fun lives sender' half' => ?_,by rw [pipes]; exact knows.sent,by rw [pipes]; exact knows.unread,
    by rw [pipes]; exact knows.valid⟩
  rw [Kernel.step_alive taken] at lives
  rw [pipes]
  simp [Pipes.close,without,knows.holds lives]

def kept (s : Side) : Side → PipeEnd → Bool
  | sender,.write => sender = s
  | sender,.read => sender = s.peer

private theorem safe_into {k : Kernel} (knows : Knows s (fun _ _ => true) [] k) :
    (Kernel.side supervisor s).Safe (ForkSync.fresh.into s) (fun endpoint k =>
      endpoint = endpointOf s ∧ Knows s (kept s) [] k) k := by
  have done (own : Side → PipeEnd → Bool) (same : own = kept s) {k : Kernel} (knows : Knows s own [] k)
      {endpoint : ForkEndpoint} (isEndpoint : endpoint = endpointOf s) : (Kernel.side supervisor s).Safe
      (.done endpoint) (fun endpoint k => endpoint = endpointOf s ∧ Knows s (kept s) [] k) k := by
    refine .done (fun k k' held moved => ⟨held.1,Knows.stable _ _ k k' held.2 moved⟩) ⟨isEndpoint,same ▸ knows⟩
  cases s with
  | parent | child =>
    refine .bind ((safe_close knows).mono fun _ k knows => ?_)
    refine .bind ((safe_close knows).mono fun _ k knows => ?_)
    refine done _ ?_ knows rfl
    funext sender half
    cases sender <;> cases half <;> rfl

private theorem safe_writeByte {own : Side → PipeEnd → Bool} {k : Kernel} {value : UInt8}
    (known : value = statusReady ∨ value = statusFailed) (knows : Knows s own [] k) :
    (Kernel.side supervisor s).Safe (Descriptor.writeByte (.pipe (.status s) .write) value).run (fun
      | .ok () => Knows s own [value]
      | .error _ => Knows s own []) k := by
  refine Fallible.safe_iterate (I := fun _ => Knows s own []) (fun _ => Knows.stable own []) ?_ knows ?_
  · rintro (error | ⟨⟩)
    · exact Knows.stable own []
    · exact Knows.stable own [value]
  intro _ k knows
  have unsent : (Kernel.side supervisor s).Stable (Knows s own []) := Knows.stable own []
  refine .call unsent knows (fun k knows => ⟨rfl,knows.sent,?_⟩) fun k answer k' knows taken => ?_
  · rcases known with rfl | rfl
    · exact .inl rfl
    · exact .inr rfl
  cases answer with
  | error error =>
    have after := knows.same (Kernel.step_pipes taken) (Kernel.step_alive taken)
    cases error <;> exact .done (Knows.stable own []) after
  | ok count =>
    have pipes : k'.pipes = k.pipes.push s ([value].take count) := Kernel.step_pipes taken
    have sends (own : Side → PipeEnd → Bool) {status : Bytes} (sent : [value].take count = status)
        (knows : Knows s own [] k) : Knows s own status k' := by
      have other := s.peer_ne
      refine ⟨?_,?_,?_,?_⟩
      · rw [Kernel.step_alive taken,pipes]
        exact knows.holds
      · simpa [pipes,Pipes.push,knows.sent] using sent
      · simpa [pipes,Pipes.push,other] using knows.unread
      · simpa [pipes,Pipes.push,other] using knows.valid
    rcases count with _ | _ | count
    · exact .done (Knows.stable own []) (sends own rfl knows)
    · exact .done (Knows.stable own [value]) (sends own rfl knows)
    · have bound : count + 2 ≤ 1 := taken.2.1.2.1
      omega

def sentEndpoint (s : Side) : ForkEndpoint where
  write := none
  read := some (.pipe (.status s.peer) .read)
  statusSent := true

def reading (s : Side) : Side → PipeEnd → Bool := without (kept s) s .write

private theorem safe_sendStatus {k : Kernel} {value : UInt8}
    (known : value = statusReady ∨ value = statusFailed) (knows : Knows s (kept s) [] k) :
    (Kernel.side supervisor s).Safe ((endpointOf s).sendStatus value).run (fun
      | .ok endpoint => fun k => endpoint = sentEndpoint s ∧ Knows s (reading s) [value] k
      | .error _ => Knows s (kept s) []) k := by
  have ends (endpoint : ForkEndpoint) : (Kernel.side supervisor s).Stable fun k =>
      endpoint = sentEndpoint s ∧ Knows s (reading s) [value] k :=
    fun k k' held moved => ⟨held.1,Knows.stable _ _ k k' held.2 moved⟩
  refine Fallible.safe_bind (fun _ => Knows.stable (kept s) []) ((safe_writeByte known knows).mono ?_)
  intro result k knows
  cases result with
  | error error => exact knows
  | ok =>
    refine Fallible.safe_lift ((safe_close knows).mono fun _ k knows => ?_)
    exact .done (ends _) ⟨rfl,knows⟩

/-- What a side has learnt of the other when it has decided. -/
def Decided (s : Side) : Option SyncDecision → Kernel → Prop
  | some .continue,k => k.pipes.sent s = [statusReady] ∧ k.pipes.sent s.peer = [statusReady]
  | some .abort,k => k.pipes.sent s.peer = [statusFailed] ∨ Silent s k
  | none,_ => True

def Holds (s : Side) (own : Side → PipeEnd → Bool) (k : Kernel) : Prop :=
  k.alive s = true → ∀ sender half, k.pipes.holds s sender half = own sender half

theorem Holds.stable (own : Side → PipeEnd → Bool) : (Kernel.side supervisor s).Stable (Holds s own) := by
  have keeps {k k' : Kernel} (frame : Kernel.Frame s k k') (holds : Holds s own k) : Holds s own k' := by
    intro lives sender half
    rw [frame.own lives]
    exact holds (frame.alive s lives) sender half
  rintro k k' holds (happened | ⟨event,answer,obeys,taken⟩)
  · exact keeps (Kernel.happens_frame happened s) holds
  · exact keeps (Kernel.step_frame taken s.peer_ne.symm) holds

private theorem stable_own (status : Bytes) :
    (Kernel.side supervisor s).Stable fun k => k.pipes.sent s = status := by
  rintro k k' sent (happened | ⟨event,answer,obeys,taken⟩)
  · rw [(Kernel.happens_traffic happened).1]
    exact sent
  · exact (Kernel.obeys_turn obeys taken).own.trans sent

theorem Decided.stable (decision : Option SyncDecision) :
    (Kernel.side supervisor s).Stable (Decided s decision) := by
  rcases decision with _ | _ | _
  · exact Setting.Stable.true
  · exact (stable_own _).and (stable_heard _)
  · intro k k' held moved
    rcases held with heard | silent
    · exact .inl (stable_heard _ k k' heard moved)
    · exact .inr (stable_silent k k' silent moved)

/-- What the read of the other's byte tells: its byte, or that there will be none. -/
private def Heard (s : Side) : Option UInt8 → Kernel → Prop
  | some status,k => k.pipes.sent s.peer = [status]
  | none,k => Silent s k

private theorem heard_stable (heard : Option UInt8) : (Kernel.side supervisor s).Stable (Heard s heard) := by
  cases heard with
  | none => exact stable_silent
  | some status => exact stable_heard status

private theorem safe_readByte {k : Kernel} {status : Bytes} (knows : Knows s (reading s) status k) :
    (Kernel.side supervisor s).Safe (Descriptor.readByte (.pipe (.status s.peer) .read)).run (fun
      | .ok heard => fun k => Holds s (reading s) k ∧ k.pipes.sent s = status ∧ Heard s heard k
      | .error _ => Holds s (reading s)) k := by
  have stable : (Kernel.side supervisor s).Stable (Knows s (reading s) status) := Knows.stable _ _
  have ends (heard : Option UInt8) : (Kernel.side supervisor s).Stable fun k =>
      Holds s (reading s) k ∧ k.pipes.sent s = status ∧ Heard s heard k :=
    (Holds.stable _).and ((stable_own _).and (heard_stable heard))
  refine Fallible.safe_iterate (I := fun _ => Knows s (reading s) status) (fun _ => stable) ?_ knows ?_
  · rintro (error | heard)
    · exact Holds.stable _
    · exact ends heard
  intro _ k knows
  refine .call stable knows (fun k knows => ⟨rfl,fun lives => ?_⟩) fun k answer k' knows taken => ?_
  · refine ⟨⟨?_,?_⟩,?_⟩ <;> rw [knows.holds lives] <;> cases s <;> rfl
  have alive : k'.alive = k.alive := Kernel.step_alive taken
  cases answer with
  | error error =>
    have after := knows.same (Kernel.step_pipes taken) alive
    cases error with
    | eintr => exact .done stable after
    | _ => exact .done (Holds.stable _) after.holds
  | ok bytes =>
    have pipes : k'.pipes = k.pipes.pull s.peer bytes.length := Kernel.step_pipes taken
    have holds : Holds s (reading s) k' := by
      intro lives sender half
      rw [alive] at lives
      rw [pipes]
      exact knows.holds lives sender half
    have sent : k'.pipes.sent s = status := by
      rw [pipes]
      exact knows.sent
    obtain ⟨_,permits,-⟩ := taken
    rcases bytes with _ | ⟨value,_ | ⟨other,rest⟩⟩
    · obtain ⟨_,empty,closed⟩ := permits
      refine .done (ends none) ⟨holds,sent,?_,?_⟩
      · rw [pipes]
        exact knows.unread.symm.trans empty
      · rw [pipes]
        exact closed
    · obtain ⟨_,read,_⟩ := permits
      refine .done (ends (some value)) ⟨holds,sent,?_⟩
      have all : k.pipes.sent s.peer = [value] := by
        rw [knows.unread] at read
        rcases knows.valid with sent | sent | sent <;> rw [sent] at read ⊢ <;> simp_all
      rw [Heard,pipes]
      exact all
    · exact .done (Holds.stable _) holds

private theorem safe_awaitStatus {k : Kernel} (knows : Knows s (reading s) [statusReady] k) :
    (Kernel.side supervisor s).Safe (sentEndpoint s).awaitStatus.run (fun
      | .ok decision => fun k => Holds s (reading s) k ∧ Decided s (some decision) k
      | .error _ => Holds s (reading s)) k := by
  have ends (decision : SyncDecision) : (Kernel.side supervisor s).Stable fun k =>
      Holds s (reading s) k ∧ Decided s (some decision) k := (Holds.stable _).and (Decided.stable _)
  refine Fallible.safe_bind (fun _ => Holds.stable _) ((safe_readByte knows).mono ?_)
  intro result k reached
  match result with
  | .error error => exact reached
  | .ok none =>
    obtain ⟨holds,_,silent⟩ := reached
    exact .done (ends .abort) ⟨holds,.inr silent⟩
  | .ok (some status) =>
    obtain ⟨holds,sent,heard⟩ := reached
    by_cases ready : status = statusReady
    · subst ready
      exact .done (ends .continue) ⟨holds,sent,heard⟩
    by_cases failed : status = statusFailed
    · subst failed
      exact .done (ends .abort) ⟨holds,.inl heard⟩
    · simp only [ready,failed,if_false]
      exact .done (Holds.stable _) holds

private theorem safe_closeDecided {own : Side → PipeEnd → Bool} (decision : Option SyncDecision) {k : Kernel}
    {sender : Side} {half : PipeEnd} (holds : Holds s own k) (decided : Decided s decision k) :
    (Kernel.side supervisor s).Safe (Descriptor.drop (some (.pipe (.status sender) half)))
      (fun _ k => Holds s (without own sender half) k ∧ Decided s decision k) k := by
  refine .call ((Holds.stable own).and (Decided.stable decision)) ⟨holds,decided⟩ (fun _ _ => trivial) ?_
  intro k answer k' known taken
  obtain ⟨holds,decided⟩ := known
  refine .done ((Holds.stable _).and (Decided.stable decision)) ⟨?_,?_⟩
  · have pipes : k'.pipes = k.pipes.close s sender half := Kernel.step_pipes taken
    intro lives sender' half'
    rw [Kernel.step_alive taken] at lives
    rw [pipes]
    simp [Pipes.close,without,holds lives]
  · have pipes : k'.pipes = k.pipes.close s sender half := Kernel.step_pipes taken
    rcases decision with _ | _ | _
    · trivial
    · rw [Decided,pipes]
      exact decided
    · rw [Decided,Silent,pipes]
      rcases decided with heard | ⟨unsent,closed⟩
      · exact .inl heard
      · refine .inr ⟨unsent,Pipes.open?_eq_false.mpr fun q => ?_⟩
        simp [Pipes.close,Pipes.open?_eq_false.mp closed q]

/-- No descriptor of the pipes is left, and the decision is known. -/
def Over (s : Side) (decision : Option SyncDecision) (k : Kernel) : Prop :=
  Holds s (fun _ _ => false) k ∧ Decided s decision k

theorem Over.stable (decision : Option SyncDecision) : (Kernel.side supervisor s).Stable (Over s decision) :=
  (Holds.stable _).and (Decided.stable decision)

private theorem none_left {own : Side → PipeEnd → Bool} {k : Kernel} (holds : Holds s own k)
    (none : ∀ sender half, own sender half = false) : Holds s (fun _ _ => false) k :=
  fun lives sender half => (holds lives sender half).trans (none sender half)

private theorem safe_dropRead {decision : Option SyncDecision} {k : Kernel} (holds : Holds s (reading s) k)
    (decided : Decided s decision k) : (Kernel.side supervisor s).Safe
      (Descriptor.drop (some (.pipe (.status s.peer) .read))) (fun _ => Over s decision) k := by
  refine (safe_closeDecided _ holds decided).mono fun _ k known => ⟨none_left known.1 ?_,known.2⟩
  intro sender half
  cases s <;> cases sender <;> cases half <;> rfl

private theorem safe_dropEndpoint {k : Kernel} (holds : Holds s (kept s) k) :
    (Kernel.side supervisor s).Safe (endpointOf s).drop (fun _ => Over s none) k := by
  refine .bind ((safe_closeDecided none holds trivial).mono fun _ k known => ?_)
  exact safe_dropRead known.1 trivial

private theorem safe_dropSent {k : Kernel} (holds : Holds s (reading s) k) :
    (Kernel.side supervisor s).Safe (sentEndpoint s).drop (fun _ => Over s none) k :=
  safe_dropRead holds trivial

private theorem safe_dropSync {k : Kernel} (holds : Holds s (fun _ _ => true) k) :
    (Kernel.side supervisor s).Safe ForkSync.fresh.drop (fun _ => Over s none) k := by
  refine .bind ((safe_closeDecided none holds trivial).mono fun _ k known => ?_)
  refine .bind ((safe_closeDecided none known.1 known.2).mono fun _ k known => ?_)
  refine .bind ((safe_closeDecided none known.1 known.2).mono fun _ k known => ?_)
  refine (safe_closeDecided none known.1 known.2).mono fun _ k known => ⟨none_left known.1 ?_,known.2⟩
  intro sender half
  cases sender <;> cases half <;> rfl

def decisionOf : Except Error (Option SyncDecision) → Option SyncDecision
  | .ok decision => decision
  | .error _ => none

private theorem safe_readyAndWait {k : Kernel} (knows : Knows s (kept s) [] k) :
    (Kernel.side supervisor s).Safe (endpointOf s).readyAndWait.run
      (fun result => Over s (decisionOf (result.map some))) k := by
  refine Fallible.safe_bind (fun _ => Over.stable none) (Fallible.safe_releasingOnError ?_ ?_)
  · rintro (error | endpoint)
    · exact Over.stable none
    · exact Setting.Safe.stable _ _
  refine (safe_sendStatus (.inl rfl) knows).mono fun result k sent => ?_
  cases result with
  | error error => exact safe_dropEndpoint sent.holds
  | ok endpoint =>
    obtain ⟨rfl,knows⟩ := sent
    refine Fallible.safe_bind (fun _ => Over.stable none) (Fallible.safe_releasingOnError ?_ ?_)
    · rintro (error | decision)
      · exact Over.stable none
      · exact Setting.Safe.stable _ _
    refine (safe_awaitStatus knows).mono fun result k reached => ?_
    cases result with
    | error error => exact safe_dropSent reached
    | ok decision =>
      refine Fallible.safe_lift ((safe_dropRead reached.1 reached.2).mono fun _ k ended => ?_)
      exact .done (Over.stable _) ended

private theorem safe_reportFailure {k : Kernel} (knows : Knows s (kept s) [] k) :
    (Kernel.side supervisor s).Safe (endpointOf s).reportFailure.run (fun _ => Over s none) k := by
  refine Fallible.safe_bind (fun _ => Over.stable none) (Fallible.safe_releasingOnError ?_ ?_)
  · rintro (error | endpoint)
    · exact Over.stable none
    · exact Setting.Safe.stable _ _
  refine (safe_sendStatus (.inr rfl) knows).mono fun result k sent => ?_
  cases result with
  | error error => exact safe_dropEndpoint sent.holds
  | ok endpoint =>
    obtain ⟨rfl,knows⟩ := sent
    refine Setting.Safe.bind ((safe_dropSent knows.holds).mono fun _ k ended => ?_)
    exact .done (Over.stable none) ended

/-- What a side does with its endpoint. -/
inductive EndpointUse
  | ready | report | drop

/-- One side of a fork: whatever it does before it converts and before it uses its
endpoint, a failure there drops what it has. -/
def barrierSide (s : Side) (before : M Unit) (setup : M EndpointUse) : M (Option SyncDecision) := do
  Fallible.releasingOnError ForkSync.fresh.drop before
  let endpoint ← ForkSync.fresh.into s
  match ← Fallible.releasingOnError endpoint.drop setup with
  | .ready => return some (← endpoint.readyAndWait)
  | .report => do
    endpoint.reportFailure
    return none
  | .drop => do
    endpoint.drop
    return none

abbrev Quiet {α : Type} (x : M α) : Prop := Fallible.Uses (fun event => Kernel.onStatus event = false) x

theorem safe_barrierSide {before : M Unit} {setup : M EndpointUse} (quietBefore : Quiet before)
    (quietSetup : Quiet setup) {k : Kernel} (knows : Knows s (fun _ _ => true) [] k) :
    (Kernel.side supervisor s).Safe (barrierSide s before setup).run (fun result => Over s (decisionOf result)) k := by
  refine Fallible.safe_bind (fun _ => Over.stable none) (Fallible.safe_releasingOnError ?_ ?_)
  · rintro (error | value)
    · exact Over.stable none
    · exact Setting.Safe.stable _ _
  refine (safe_quiet_side quietBefore knows).mono fun result k knows => ?_
  cases result with
  | error error => exact safe_dropSync knows.holds
  | ok value =>
    refine Fallible.safe_lift ((safe_into knows).mono fun endpoint k converted => ?_)
    obtain ⟨rfl,knows⟩ := converted
    refine Fallible.safe_bind (fun _ => Over.stable none) (Fallible.safe_releasingOnError ?_ ?_)
    · rintro (error | use)
      · exact Over.stable none
      · exact Setting.Safe.stable _ _
    refine (safe_quiet_side quietSetup knows).mono fun result k knows => ?_
    cases result with
    | error error => exact safe_dropEndpoint knows.holds
    | ok use =>
      cases use with
      | ready =>
        refine Fallible.safe_bind (fun _ => Over.stable none) ((safe_readyAndWait knows).mono fun result k ended => ?_)
        cases result with
        | error error => exact ended
        | ok decision => exact .done (Over.stable _) ended
      | report =>
        refine Fallible.safe_bind (fun _ => Over.stable none) ((safe_reportFailure knows).mono fun result k ended => ?_)
        cases result with
        | error error => exact ended
        | ok value => exact .done (Over.stable _) ended
      | drop =>
        refine Fallible.safe_lift ((safe_dropEndpoint knows.holds).mono fun _ k ended => ?_)
        exact .done (Over.stable _) ended

end

theorem knows_forked (s : Side) (blocked : Bool) : Knows s (fun _ _ => true) [] (Kernel.forked blocked) :=
  ⟨fun _ _ _ => rfl,rfl,rfl,.inl rfl⟩

abbrev SideProgram := Program Call Answer (Except Error (Option SyncDecision))

abbrev BarrierConfig := Config Call Answer (Except Error (Option SyncDecision)) (Except Error (Option SyncDecision)) Kernel

namespace BarrierConfig

def program (c : BarrierConfig) : Side → SideProgram
  | .parent => c.left
  | .child => c.right

def Obtained (c : BarrierConfig) (s : Side) (decision : SyncDecision) : Prop :=
  (c.program s).result? = some (.ok (some decision))

/-- The side has ended, its endpoint used or dropped, or it has died. -/
def Gone (c : BarrierConfig) (s : Side) : Prop :=
  (c.program s).result?.isSome = true ∨ c.state.alive s = false

def Waits (c : BarrierConfig) (s : Side) : Prop :=
  c.state.alive s = true ∧ (c.program s).pending = some (.read (.pipe (.status s.peer) .read) 1)

end BarrierConfig

/-- A read of the other's status can end now, and only as the end of file. -/
def Kernel.EndOfFile (supervisor : Pid) (s : Side) (k : Kernel) : Prop :=
  (∃ k', step supervisor s k (.read (.pipe (.status s.peer) .read) 1) (.ok []) k') ∧
  ∀ bytes k', step supervisor s k (.read (.pipe (.status s.peer) .read) 1) (.ok bytes) k' → bytes = []

private theorem SentOnce.turn {s : Side} {k k' : Kernel} (once : SentOnce k) (turn : k.pipes.Turn s k'.pipes) :
    SentOnce k' := by
  intro sender
  by_cases own : sender = s
  · subst own
    exact turn.valid (once sender)
  · have same : k'.pipes.sent sender = k.pipes.sent sender := by
      refine Pipes.Turn.own (s := sender) ?_
      have peer : s = sender.peer := by cases s <;> cases sender <;> simp_all [Side.peer]
      exact peer ▸ turn
    rw [same]
    exact once sender

private theorem SentOnce.happens {k k' : Kernel} (once : SentOnce k) (happened : Kernel.Happens k k') : SentOnce k' := by
  intro sender
  rw [(Kernel.happens_traffic happened).1]
  exact once sender

private theorem awaitStatus_endOfFile {s : Side} {t : List (Exchange Call Answer)} {result : Except Error SyncDecision}
    (trace : Trace (sentEndpoint s).awaitStatus.run
      (t ++ [⟨.read (.pipe (.status s.peer) .read) 1,.ok []⟩]) result) : result = .ok .abort := by
  obtain ⟨first,heard,second,split,read,rest⟩ := (trace_bind _ _ _ _).mp trace
  have last : second = [] := by
    rcases heard with error | (- | status)
    · exact ((trace_done _ _ _).mp rest).2
    · exact ((trace_done _ _ _).mp rest).2
    · by_cases ready : status = statusReady
      · subst ready
        exact ((trace_done _ _ _).mp rest).2
      by_cases failed : status = statusFailed
      · subst failed
        exact ((trace_done _ _ _).mp rest).2
      · change Trace (ite _ _ _ : M SyncDecision).run _ _ at rest
        rw [if_neg ready,if_neg failed] at rest
        exact ((trace_done _ _ _).mp rest).2
  subst last
  have ended : heard = .ok none := by
    refine read.iterate (I := fun _ _ => True) (Q := fun heard t' => ∀ t, t' = t ++ [_] → heard = .ok none)
      trivial (fun _ _ _ _ _ _ => trivial) ?_ t (by simpa using split.symm)
    intro _ before exchanges heard _ round t same
    obtain ⟨answer,rest,rfl,ended⟩ := (trace_call _ _ _ _).mp round
    have only : rest = [] := by
      rcases answer with error | (- | ⟨value,- | more⟩)
      · cases error <;> exact ((trace_done _ _ _).mp ended).2
      all_goals exact ((trace_done _ _ _).mp ended).2
    subst only
    obtain ⟨_,exchange⟩ := List.append_inj' same rfl
    cases (List.cons.inj exchange).1
    cases ((trace_done _ _ _).mp ended).1
    rfl
  subst ended
  exact ((trace_done _ _ _).mp rest).1.symm

section agreement
variable {supervisor : Pid} {before : Side → M Unit} {setup : Side → M EndpointUse} {blocked : Bool}

def barrier (before : Side → M Unit) (setup : Side → M EndpointUse) (blocked : Bool) : BarrierConfig :=
  ⟨barrierSide .parent (before .parent) (setup .parent),barrierSide .child (before .child) (setup .child),
    .forked blocked⟩

private theorem barrier_safe (quietBefore : ∀ s, Quiet (before s)) (quietSetup : ∀ s, Quiet (setup s)) (s : Side) :
    (Kernel.side supervisor s).Safe ((barrier before setup blocked).program s)
      (fun result => Over s (decisionOf result)) (barrier before setup blocked).state := by
  cases s with
  | parent => exact safe_barrierSide (quietBefore .parent) (quietSetup .parent) (knows_forked .parent blocked)
  | child => exact safe_barrierSide (quietBefore .child) (quietSetup .child) (knows_forked .child blocked)

private theorem reached_safe (quietBefore : ∀ s, Quiet (before s)) (quietSetup : ∀ s, Quiet (setup s))
    {c : BarrierConfig} (reached : (Kernel.system supervisor).Reaches (barrier before setup blocked) c) (s : Side) :
    (Kernel.side supervisor s).Safe (c.program s) (fun result => Over s (decisionOf result)) c.state := by
  have both := reached.safe (L := Obeys .parent) (M := Obeys .child)
    (barrier_safe quietBefore quietSetup .parent) (barrier_safe quietBefore quietSetup .child)
  cases s with
  | parent => exact both.1
  | child => exact both.2

/-- What each turn of either side and each event keeps stays true while both are safe. -/
private theorem turns_keep (kept : Kernel → Prop)
    (turns : ∀ s k k', kept k → k.pipes.Turn s k'.pipes → kept k')
    (events : ∀ k k', kept k → Kernel.Happens k k' → kept k') {c d : BarrierConfig}
    (reached : (Kernel.system supervisor).Reaches c d)
    (safe : ∀ s, (Kernel.side supervisor s).Safe (c.program s) (fun result => Over s (decisionOf result)) c.state)
    (holds : kept c.state) : kept d.state :=
  reached.guarded (L := Obeys .parent) (M := Obeys .child)
    (fun _ _ _ _ held obeys taken => turns _ _ _ held (Kernel.obeys_turn obeys taken))
    (fun _ _ _ _ held obeys taken => turns _ _ _ held (Kernel.obeys_turn obeys taken))
    events (safe .parent) (safe .child) holds

private theorem reached_wellFormed {c : BarrierConfig}
    (reached : (Kernel.system supervisor).Reaches (barrier before setup blocked) c) : c.state.WellFormed :=
  reached.invariant (fun _ _ _ _ wf taken => wf.step taken) (fun _ _ _ _ wf taken => wf.step taken)
    (fun _ _ wf happened => wf.happens happened) (Kernel.wellFormed_forked blocked)

private theorem reached_once (quietBefore : ∀ s, Quiet (before s)) (quietSetup : ∀ s, Quiet (setup s))
    {c : BarrierConfig} (reached : (Kernel.system supervisor).Reaches (barrier before setup blocked) c) :
    SentOnce c.state :=
  turns_keep SentOnce (fun _ _ _ once turn => once.turn turn) (fun _ _ once happened => once.happens happened) reached
    (barrier_safe quietBefore quietSetup) fun _ => .inl rfl

private theorem obtained_decided {c : BarrierConfig} {s : Side} {decision : SyncDecision}
    (safe : (Kernel.side supervisor s).Safe (c.program s) (fun result => Over s (decisionOf result)) c.state)
    (obtained : c.Obtained s decision) : Decided s (some decision) c.state := by
  have ended := Program.result?_eq_some obtained
  rw [ended] at safe
  exact safe.now.2

private theorem gone_holds {c : BarrierConfig} {s : Side} (wf : c.state.WellFormed)
    (safe : (Kernel.side supervisor s).Safe (c.program s) (fun result => Over s (decisionOf result)) c.state)
    (gone : c.Gone s) (sender : Side) (half : PipeEnd) : c.state.pipes.holds s sender half = false := by
  by_cases lives : c.state.alive s = true
  · rcases gone with ended | dead
    · obtain ⟨result,value⟩ := Option.isSome_iff_exists.mp ended
      rw [Program.result?_eq_some value] at safe
      exact safe.now.1 lives sender half
    · rw [lives] at dead
      cases dead
  · exact wf.gone s (by simpa using lives) sender half

private theorem waits_endOfFile {c : BarrierConfig} {s : Side} (wf : c.state.WellFormed)
    (safe : (Kernel.side supervisor s).Safe (c.program s) (fun result => Over s (decisionOf result)) c.state)
    (waits : c.Waits s) (unsent : c.state.pipes.sent s.peer = [])
    (gone : ∀ sender half, c.state.pipes.holds s.peer sender half = false) :
    c.state.pipes.open? s.peer .write = false ∧ c.state.EndOfFile supervisor s := by
  obtain ⟨lives,pending⟩ := waits
  have obeys : Obeys s c.state (.read (.pipe (.status s.peer) .read) 1) := by
    have now := safe.now
    generalize c.program s = p at now pending
    cases p with
    | call event next =>
      cases pending
      exact now
    | done _ | loop _ _ _ => cases pending
  obtain ⟨converted,held⟩ := obeys.2 lives
  have closed : c.state.pipes.open? s.peer .write = false := by
    refine Pipes.open?_eq_false.mpr fun q => ?_
    by_cases same : q = s
    · subst same
      exact converted.1
    · have peer : q = s.peer := by cases s <;> cases q <;> simp_all [Side.peer]
      exact peer ▸ gone _ _
  have empty : c.state.pipes.buffer s.peer = [] := by
    have suffix := wf.buffered s.peer
    rw [unsent] at suffix
    exact List.suffix_nil.mp suffix
  refine ⟨closed,⟨_,lives,⟨held,empty,closed⟩,.inl rfl⟩,?_⟩
  intro bytes k' taken
  cases bytes with
  | nil => rfl
  | cons value more =>
    obtain ⟨_,read,_⟩ := taken.2.1
    rw [empty] at read
    cases List.prefix_nil.mp read

/-- The barrier agrees, in every interleaving: a side that goes on has been told to by
the other, no side goes on where the other aborts, each sends one byte at most, and one
that is gone without a word is seen as the end of file, which decides for abort. -/
theorem barrier_agreement (supervisor : Pid) (before : Side → M Unit) (setup : Side → M EndpointUse)
    (blocked : Bool) (quietBefore : ∀ s, Quiet (before s)) (quietSetup : ∀ s, Quiet (setup s)) {c : BarrierConfig}
    (reached : (Kernel.system supervisor).Reaches (barrier before setup blocked) c) :
    (∀ s, c.Obtained s .continue → c.state.pipes.sent s.peer = [statusReady]) ∧
    (∀ s, c.Obtained s .continue → ¬ c.Obtained s.peer .abort) ∧
    (∀ s, (c.state.pipes.sent s).length ≤ 1) ∧
    (∀ s, c.Gone s → c.state.pipes.sent s = [] → c.state.pipes.Converted s.peer →
      c.state.pipes.open? s .write = false) ∧
    (∀ s, c.Gone s.peer → c.state.pipes.sent s.peer = [] → c.Waits s →
      c.state.pipes.open? s.peer .write = false ∧ c.state.EndOfFile supervisor s ∧
      (∀ t result, Trace (sentEndpoint s).awaitStatus.run
        (t ++ [⟨.read (.pipe (.status s.peer) .read) 1,.ok []⟩]) result → result = .ok .abort) ∧
      ∀ d, (Kernel.system supervisor).Reaches c d → ¬ BarrierConfig.Obtained d s .continue) := by
  have safe := reached_safe quietBefore quietSetup reached
  have wf := reached_wellFormed reached
  have once := reached_once quietBefore quietSetup reached
  refine ⟨fun s goes => (obtained_decided (safe s) goes).2,fun s goes aborts => ?_,fun s => ?_,?_,?_⟩
  · obtain ⟨ready,_⟩ := obtained_decided (safe s) goes
    have aborted := obtained_decided (safe s.peer) aborts
    rw [Decided,Silent,Side.peer_peer] at aborted
    rcases aborted with failed | ⟨unsent,_⟩
    · rw [ready] at failed
      cases failed
    · rw [ready] at unsent
      cases unsent
  · rcases once s with sent | sent | sent <;> simp [sent]
  · intro s gone unsent converted
    refine Pipes.open?_eq_false.mpr fun q => ?_
    by_cases same : q = s
    · exact same ▸ gone_holds wf (safe s) gone s .write
    · have peer : q = s.peer := by cases s <;> cases q <;> simp_all [Side.peer]
      have let_go := converted.1
      rw [Side.peer_peer] at let_go
      exact peer ▸ let_go
  · intro s gone unsent waits
    obtain ⟨closed,ends⟩ := waits_endOfFile wf (safe s) waits unsent (gone_holds wf (safe s.peer) gone)
    refine ⟨closed,ends,fun t result => awaitStatus_endOfFile,fun d later goes => ?_⟩
    have silent : d.state.pipes.sent s.peer = [] ∧ d.state.pipes.open? s.peer .write = false := by
      refine turns_keep (fun k => k.pipes.sent s.peer = [] ∧ k.pipes.open? s.peer .write = false) ?_ ?_ later
        safe ⟨unsent,closed⟩
      · intro q k k' held turn
        obtain ⟨same,shut⟩ := turn.silent held.2
        exact ⟨same.trans held.1,shut⟩
      · intro k k' held happened
        exact (stable_silent : (Kernel.side supervisor s).Stable (Silent s)) k k' held (.inl happened)
    have heard := (obtained_decided (reached_safe quietBefore quietSetup (reached.trans later) s) goes).2
    rw [silent.1] at heard
    cases heard

/-- A barrier that both sides pass: the child writes before the parent has converted,
and its read is interrupted. -/
private def passed : List (Turn Call Answer Kernel.Occurrence) :=
  [.right ⟨.close (.pipe (.status .child) .read),.ok ()⟩,.right ⟨.close (.pipe (.status .parent) .write),.ok ()⟩,
    .right ⟨.write (.pipe (.status .child) .write) [statusReady],.ok 1⟩,
    .right ⟨.close (.pipe (.status .child) .write),.ok ()⟩,
    .right ⟨.read (.pipe (.status .parent) .read) 1,.error .eintr⟩,
    .left ⟨.close (.pipe (.status .child) .write),.ok ()⟩,.left ⟨.close (.pipe (.status .parent) .read),.ok ()⟩,
    .left ⟨.write (.pipe (.status .parent) .write) [statusReady],.ok 1⟩,
    .left ⟨.close (.pipe (.status .parent) .write),.ok ()⟩,
    .left ⟨.read (.pipe (.status .child) .read) 1,.ok [statusReady]⟩,
    .left ⟨.close (.pipe (.status .child) .read),.ok ()⟩,
    .right ⟨.read (.pipe (.status .parent) .read) 1,.ok [statusReady]⟩,
    .right ⟨.close (.pipe (.status .parent) .read),.ok ()⟩]

theorem barrier_agreement_passed : ∃ c : BarrierConfig, c.Obtained .parent .continue ∧
    c.Obtained .child .continue ∧ c.state.pipes.sent .child = [statusReady] ∧ ¬ c.Obtained .child .abort := by
  have played : ∃ c : BarrierConfig, play (Kernel.player 7) 10
      (barrier (fun _ => pure ()) (fun _ => pure .ready) false) passed = some c ∧
      c.Obtained .parent .continue ∧ c.Obtained .child .continue := ⟨_,rfl,rfl,rfl⟩
  obtain ⟨c,played,parent,child⟩ := played
  have agreement := barrier_agreement 7 (fun _ => pure ()) (fun _ => pure .ready) false (fun _ => trivial)
    (fun _ => trivial) (play_sound _ _ played)
  exact ⟨c,parent,child,agreement.1 .parent parent,agreement.2.1 .parent parent⟩

end agreement

end Runas
