import Runas.Command

/-! The PAM session outlives the command: the parent alone closes it, and only when no
command can run any more, as long as its event loop is not left by a failing call. -/
namespace Runas
open Interaction Text

/-- A call that ends the session or withdraws its credentials. -/
def endsSession : Call → Bool
  | .pam (.closeSession _) => true
  | .pam (.setcred flags) => flags == Pam.deleteCred
  | _ => false

def isPam : Call → Bool
  | .pam _ | .pamReply _ _ => true
  | _ => false

def loopFails : (event : Call) → Answer event → Bool
  | .readSignal _,.error _ => true
  | .poll _,.error error => error ≠ .eintr
  | .poll fds,.ok events => (List.finRange fds.length).any fun i =>
    (events i).all fun flags => flags.pollerr || flags.pollhup || flags.pollnval
  | .waitpid _,.error error => error ≠ .eintr && error ≠ .echild
  | _,_ => false

namespace Kernel

/-- The child has not been told to go on, and the parent cannot tell it any more. -/
def Untold (k : Kernel) : Prop :=
  k.pipes.sent .parent = [] ∧ k.pipes.holds .parent .parent .write = false

/-- No command can run any more. -/
def Settled (k : Kernel) : Prop := k.ending.isSome = true ∨ k.Untold

/-- The system in which the event loop of the supervisor does not fail while a command
may run. -/
def steady (supervisor : Pid) : Environment Call Answer Kernel where
  left k event answer k' := step supervisor .parent k event answer k' ∧ (loopFails event answer = true → k.Settled)
  right := step supervisor .child
  event := Happens

/-- What the child may do: it sends on its own pipe only, leaves the PAM session alone
and comes to exec only once the parent has sent that it is ready. -/
def Follows (k : Kernel) : Call → Prop
  | .write (.pipe (.status sender) .write) _ => sender = .child
  | event => isPam event = false ∧ (isExec event = true → statusReady ∈ k.pipes.sent .parent)

section
variable {supervisor : Pid} {s : Side} {k k' : Kernel} {event : Call} {answer : Answer event}

theorem follows_unsent (follows : Follows k event) (taken : step supervisor .child k event answer k') :
    k'.pipes.sent .parent = k.pipes.sent .parent := by
  rw [step_pipes taken]
  unfold after
  split
  · obtain rfl : _ = Side.child := follows
    simp [Pipes.push]
  · rfl
  · rfl
  all_goals (try split) <;> rfl

private theorem shut_after (shut : k.pipes.holds .parent .parent .write = false)
    (less : k'.pipes.holds .parent .parent .write = true → k.pipes.holds .parent .parent .write = true) :
    k'.pipes.holds .parent .parent .write = false := by
  rw [Bool.eq_false_iff] at shut ⊢
  exact fun held => shut (less held)

theorem Untold.parent (untold : k.Untold) (taken : step supervisor .parent k event answer k') : k'.Untold := by
  obtain ⟨unsent,shut⟩ := untold
  refine ⟨?_,shut_after shut (step_moves taken).less⟩
  have moves := step_moves taken
  generalize k'.pipes = pipes' at moves
  cases moves with
  | push sender bytes held =>
    have other : Side.parent ≠ sender := by
      intro same
      rw [← same,shut] at held
      cases held
    simpa [Pipes.push,other] using unsent
  | _ => exact unsent

theorem Untold.child (untold : k.Untold) (follows : Follows k event)
    (taken : step supervisor .child k event answer k') : k'.Untold :=
  ⟨(follows_unsent follows taken).trans untold.1,shut_after untold.2 (step_moves taken).less⟩

theorem Untold.happens (untold : k.Untold) (happened : Happens k k') : k'.Untold := by
  refine ⟨?_,shut_after untold.2 ((happens_frame happened .parent).less _ _ _)⟩
  cases happened <;> exact untold.1

theorem Settled.parent (settled : k.Settled) (taken : step supervisor .parent k event answer k') : k'.Settled :=
  settled.imp (fun ended => by rw [step_ending taken]; exact ended) fun untold => untold.parent taken

theorem Settled.child (settled : k.Settled) (follows : Follows k event)
    (taken : step supervisor .child k event answer k') : k'.Settled :=
  settled.imp (fun ended => by rw [step_ending taken]; exact ended) fun untold => untold.child follows taken

theorem Settled.happens (settled : k.Settled) (happened : Happens k k') : k'.Settled := by
  refine settled.imp (fun ended => ?_) fun untold => untold.happens happened
  cases happened with
  | childEnds ending => rfl
  | _ => exact ended

end

/-- The child, beside a parent that may do anything. -/
def follower (supervisor : Pid) : Setting Call Answer Kernel := (system supervisor).rightSetting Follows fun _ _ => True

/-- The parent, beside a child that follows it, where the event loop does not fail. -/
def keeper (supervisor : Pid) : Setting Call Answer Kernel :=
  (steady supervisor).leftSetting (fun k event => endsSession event = true → k.Settled) Follows

end Kernel

section
variable {supervisor : Pid}

theorem stable_follower {P : Kernel → Prop} (events : ∀ k k', P k → Kernel.Happens k k' → P k')
    (calls : ∀ s k event answer k', P k → Kernel.step supervisor s k event answer k' → P k') :
    (Kernel.follower supervisor).Stable P := by
  intro k k' holds moved
  rcases moved with happened | ⟨event,answer,_,taken⟩
  · exact events k k' holds happened
  · exact calls .parent k event answer k' holds taken

theorem wellFormed_follower : (Kernel.follower supervisor).Stable Kernel.WellFormed :=
  stable_follower (fun _ _ wf happened => wf.happens happened) fun _ _ _ _ _ wf taken => wf.step taken

/-- The parent has sent this byte. -/
def Sent (value : UInt8) (k : Kernel) : Prop := value ∈ k.pipes.sent .parent

/-- The parent has sent that it is ready. -/
def Informed (k : Kernel) : Prop := Sent statusReady k

theorem Sent.call {s : Side} {value : UInt8} {k k' : Kernel} {event : Call} {answer : Answer event} (told : Sent value k)
    (taken : Kernel.step supervisor s k event answer k') : Sent value k' :=
  ((Kernel.step_moves taken).sent .parent).subset told

theorem Informed.unsilent {k : Kernel} (told : Informed k) : k.pipes.sent .parent ≠ [] := List.ne_nil_of_mem told

theorem told_follower (value : UInt8) : (Kernel.follower supervisor).Stable (Sent value) := by
  refine stable_follower (fun k k' told happened => ?_) fun _ _ _ _ _ told taken => told.call taken
  cases happened <;> exact told

def isPlain : Call → Bool
  | .write _ _ => false
  | event => !isPam event && !isExec event

theorem plain_follows {event : Call} (plain : isPlain event = true) (k : Kernel) : Kernel.Follows k event := by
  cases event <;> first | simp [isPlain,isPam,isExec] at plain; done | exact ⟨rfl,fun is => nomatch is⟩

theorem about_isPlain {topics : List Topic} (noPam : .pam ∉ topics) (noExec : .replace ∉ topics)
    (noPipes : .pipes ∉ topics) {event : Call} (about : About topics event) : isPlain event = true := by
  cases event <;> first | rfl | exact absurd about noPam | exact absurd about noExec | exact absurd about noPipes

theorem follower_plain {α : Type} {p : Calls α} {P : Kernel → Prop}
    (used : p.Uses fun event => isPlain event = true) (stable : (Kernel.follower supervisor).Stable P)
    (calls : ∀ k event answer k', P k → Kernel.step supervisor .child k event answer k' → P k') {k : Kernel}
    (holds : P k) : (Kernel.follower supervisor).Safe p (fun _ => P) k :=
  Setting.Safe.uses used stable holds (fun k _ _ plain => plain_follows plain k)
    fun k event answer k' holds _ taken => calls k event answer k' holds taken

theorem plain_drop (fd : Option Fd) : (Descriptor.drop fd).Uses fun event => isPlain event = true := by
  cases fd with
  | none => trivial
  | some fd => exact uses_discard rfl

theorem follower_drop (endpoint : ForkEndpoint) (k : Kernel) :
    (Kernel.follower supervisor).Safe endpoint.drop (fun _ _ => True) k :=
  follower_plain (Program.Uses.bind (plain_drop _) fun _ => plain_drop _) Setting.Stable.true
    (fun _ _ _ _ _ _ => trivial) trivial

private theorem follower_writeByte {k : Kernel} {value : UInt8} (wf : k.WellFormed) :
    (Kernel.follower supervisor).Safe (Descriptor.writeByte (.pipe (.status .child) .write) value).run
      (fun _ => Kernel.WellFormed) k := by
  have writes : Fallible.Uses (fun event => ∃ bytes, event = .write (.pipe (.status .child) .write) bytes)
      (Descriptor.writeByte (.pipe (.status .child) .write) value) := by
    refine .iterate fun _ => .bind (.ask ⟨_,rfl⟩) fun answer => ?_
    split <;> trivial
  refine Setting.Safe.uses writes wellFormed_follower wf ?_ fun _ _ _ _ wf _ taken => wf.step taken
  rintro k event _ ⟨bytes,rfl⟩
  rfl

private theorem follower_readByte {k : Kernel} (wf : k.WellFormed) :
    (Kernel.follower supervisor).Safe (Descriptor.readByte (.pipe (.status .parent) .read)).run (fun
      | .ok (some value) => Sent value
      | _ => fun _ => True) k := by
  refine Fallible.safe_iterate (I := fun _ => Kernel.WellFormed) (fun _ => wellFormed_follower) ?_ wf ?_
  · rintro (error | (- | value))
    · exact Setting.Stable.true
    · exact Setting.Stable.true
    · exact told_follower value
  intro _ k wf
  refine .call wellFormed_follower wf (fun k _ => ⟨rfl,fun is => nomatch is⟩) fun k answer k' wf taken => ?_
  match answer with
  | .error error => cases error with
    | eintr => exact .done wellFormed_follower (wf.step taken)
    | _ => exact .done Setting.Stable.true trivial
  | .ok [] => exact .done Setting.Stable.true trivial
  | .ok [value] =>
    -- What is read has been in the pipe, and what is in the pipe has been sent.
    obtain ⟨_,read,_⟩ := taken.2.1
    have sent : Sent value k := (wf.buffered .parent).subset (read.subset List.mem_cons_self)
    exact .done (told_follower value) (sent.call taken)
  | .ok (_ :: _ :: _) => exact .done Setting.Stable.true trivial

theorem follower_readyAndWait {k : Kernel} (wf : k.WellFormed) :
    (Kernel.follower supervisor).Safe (ForkEndpoint.mk ForkSync.fresh.childWrite ForkSync.fresh.childRead
      false).readyAndWait.run (fun
        | .ok .continue => Informed
        | _ => fun _ => True) k := by
  have ends (result : Except Error SyncDecision) : (Kernel.follower supervisor).Stable ((fun
      | .ok .continue => Informed
      | _ => fun _ => True : Except Error SyncDecision → Kernel → Prop) result) := by
    rcases result with error | (- | -)
    · exact Setting.Stable.true
    · exact told_follower statusReady
    · exact Setting.Stable.true
  refine Fallible.safe_bind (fun error => ends (.error error)) (Fallible.safe_releasingOnError ?_ ?_)
  · rintro (error | endpoint)
    · exact Setting.Stable.true
    · exact Setting.Safe.stable _ _
  refine Fallible.safe_bind (fun _ => Setting.Safe.stable _ _) ((follower_writeByte wf).mono fun result k wf => ?_)
  cases result with
  | error error => exact follower_drop _ k
  | ok =>
    refine Fallible.safe_lift ((follower_plain (plain_drop _) wellFormed_follower
      (fun _ _ _ _ wf taken => wf.step taken) wf).mono fun _ k wf => ?_)
    refine .done (Setting.Safe.stable _ _) ?_
    refine Fallible.safe_bind (fun error => ends (.error error)) (Fallible.safe_releasingOnError ?_ ?_)
    · rintro (error | decision)
      · exact Setting.Stable.true
      · exact Setting.Safe.stable _ _
    have closing (decision : SyncDecision) {k : Kernel} (known : decision = .continue → Informed k) :
        (Kernel.follower supervisor).Safe (do
          Descriptor.drop ForkSync.fresh.childRead
          return decision : M SyncDecision).run (fun
            | .ok .continue => Informed
            | _ => fun _ => True) k := by
      refine Fallible.safe_lift ((follower_plain (plain_drop _) (P := fun k => decision = .continue → Informed k)
        (fun k k' known moved is => told_follower statusReady k k' (known is) moved)
        (fun _ _ _ _ known taken is => (known is).call taken) known).mono fun _ k known => ?_)
      cases decision with
      | «continue» => exact .done (told_follower statusReady) (known rfl)
      | abort => exact .done Setting.Stable.true trivial
    refine Fallible.safe_bind (fun _ => Setting.Safe.stable _ _) ((follower_readByte wf).mono fun result k heard => ?_)
    match result with
    | .error error => exact follower_drop _ k
    | .ok none => exact .done (Setting.Safe.stable _ _) (closing .abort (fun is => nomatch is))
    | .ok (some status) =>
      by_cases ready : status = statusReady
      · subst ready
        exact .done (Setting.Safe.stable _ _) (closing .continue fun _ => heard)
      by_cases failed : status = statusFailed
      · subst failed
        exact .done (Setting.Safe.stable _ _) (closing .abort (fun is => nomatch is))
      · simp only [ready,failed,if_false]
        exact .done (Setting.Safe.stable _ _) (follower_drop _ k)

/-- The child comes to exec only when it has been told to go on, and never calls PAM. -/
theorem follower_commandSide {run : Invocation} (supervised : run.build.supervised = true)
    (prepared : Prepared) (pamEnv : EnvMap) {k : Kernel} (wf : k.WellFormed) :
    (Kernel.follower supervisor).Safe (commandSide run prepared pamEnv).run (fun _ _ => True) k := by
  have goes {α : Type} {p : Calls α} (used : p.Uses fun event => isPlain event = true) {k : Kernel}
      (wf : k.WellFormed) : (Kernel.follower supervisor).Safe p (fun _ => Kernel.WellFormed) k :=
    follower_plain used wellFormed_follower (fun _ _ _ _ wf taken => wf.step taken) wf
  refine Fallible.safe_bind (Q := fun _ _ => True) (fun _ => Setting.Stable.true) ?_
  refine Fallible.safe_lift (.bind ((goes (plain_drop _) wf).mono fun _ k wf => ?_))
  refine .bind ((goes (plain_drop _) wf).mono fun _ k wf => .done (Setting.Safe.stable _ _) ?_)
  refine Fallible.safe_bind (fun _ => Setting.Stable.true) (Fallible.safe_releasingOnError ?_ ?_)
  · rintro (error | value)
    · exact Setting.Stable.true
    · exact Setting.Safe.stable _ _
  refine (goes (Fallible.Uses.bind (uses_setParentExitSignal rfl) fun _ => .bind (.ask rfl) fun _ => uses_orFail _)
    wf).mono fun result k wf => ?_
  cases result with
  | error error => exact follower_drop _ k
  | ok =>
    refine Fallible.safe_bind (fun _ => Setting.Stable.true) ((follower_readyAndWait wf).mono fun result k told => ?_)
    match result with
    | .error error => trivial
    | .ok .abort => exact .done Setting.Stable.true trivial
    | .ok .continue =>
      refine .done (Setting.Safe.stable _ _) ?_
      refine Setting.Safe.mono (Setting.Safe.uses (uses_command supervised prepared pamEnv) (told_follower statusReady) told ?_
        fun _ _ _ _ told _ taken => told.call taken) fun _ _ _ => trivial
      intro k event told about
      cases event <;> first | exact ⟨rfl,fun _ => told⟩ | simp [About,Call.topic,commandTopics] at about

/-! The parent. -/

private theorem stable_keeper {P : Kernel → Prop} (events : ∀ k k', P k → Kernel.Happens k k' → P k')
    (calls : ∀ k event answer k', P k → Kernel.Follows k event →
      Kernel.step supervisor .child k event answer k' → P k') : (Kernel.keeper supervisor).Stable P := by
  intro k k' holds moved
  rcases moved with happened | ⟨event,answer,follows,taken⟩
  · exact events k k' holds happened
  · exact calls k event answer k' holds follows taken

theorem settled_keeper : (Kernel.keeper supervisor).Stable Kernel.Settled :=
  stable_keeper (fun _ _ settled happened => settled.happens happened)
    fun _ _ _ _ settled follows taken => settled.child follows taken

private theorem wellFormed_keeper : (Kernel.keeper supervisor).Stable Kernel.WellFormed :=
  stable_keeper (fun _ _ wf happened => wf.happens happened) fun _ _ _ _ wf _ taken => wf.step taken

private theorem lasting {P : Kernel → Prop} {event : Call} (other : endsSession event = false) (k : Kernel) (_ : P k) :
    (Kernel.keeper supervisor).guard k event :=
  fun ends => Bool.false_ne_true.elim (other.symm.trans ends)

private theorem keeper_settled {α : Type} (p : Calls α) {k : Kernel} (settled : k.Settled) :
    (Kernel.keeper supervisor).Safe p (fun _ => Kernel.Settled) k := by
  exact Setting.Safe.uses (.any p) settled_keeper settled (fun _ _ settled _ _ => settled)
    fun _ _ _ _ settled _ taken => settled.parent taken.1

private theorem keeper_plain {α : Type} {p : Calls α} (used : p.Uses fun event => endsSession event = false)
    {k : Kernel} (wf : k.WellFormed) : (Kernel.keeper supervisor).Safe p (fun _ => Kernel.WellFormed) k := by
  exact Setting.Safe.uses used wellFormed_keeper wf (fun k _ wf other => lasting other k wf)
    fun _ _ _ _ wf _ taken => wf.step taken.1

private theorem terminal_keeps {event : Call} (about : About [.terminal] event) : endsSession event = false := by
  cases event <;> first | rfl | simp [About,Call.topic] at about

private theorem keeper_reap {pid : Pid} {handler : ForegroundHandler} {k : Kernel} (wf : k.WellFormed) :
    (Kernel.keeper supervisor).Safe (reap pid handler).run (fun
      | .ok none => Kernel.WellFormed
      | _ => Kernel.Settled) k := by
  have ends (result : Except Error (Option Int)) : (Kernel.keeper supervisor).Stable ((fun
      | .ok none => Kernel.WellFormed
      | _ => Kernel.Settled : Except Error (Option Int) → Kernel → Prop) result) := by
    rcases result with error | (- | status)
    · exact settled_keeper
    · exact wellFormed_keeper
    · exact settled_keeper
  refine Fallible.safe_iterate (I := fun _ => Kernel.WellFormed) (fun _ => wellFormed_keeper) ends wf ?_
  intro _ k wf
  refine Fallible.safe_ask wellFormed_keeper wf (lasting rfl) fun k answer k' wf taken => ?_
  obtain ⟨taken,fails⟩ := taken
  have stays : k'.WellFormed := wf.step taken
  have permits := taken.2.1 rfl
  have ended (known : k.ending.isSome = true) : k'.Settled := .inl (by rw [Kernel.step_ending taken]; exact known)
  match answer with
  | .ok (.exited code) => exact .done settled_keeper (ended (by rw [permits.1]; rfl))
  | .ok (.signaled signal) => exact .done settled_keeper (ended (by rw [permits.1]; rfl))
  | .ok (.stopped signal) =>
    have quiet : (suspend pid handler signal).Uses fun event => endsSession event = false :=
      uses_suspend ((uses_transferToParent handler).mono fun _ => terminal_keeps)
        ((uses_transferToChild handler).mono fun _ => terminal_keeps) (fun _ => rfl) rfl rfl signal
    exact Fallible.safe_lift ((keeper_plain quiet stays).mono fun _ k wf => .done wellFormed_keeper wf)
  | .ok .continued => exact .done wellFormed_keeper stays
  | .ok .stillAlive => exact .done wellFormed_keeper stays
  | .error error =>
    by_cases interrupted : error = .eintr
    · subst interrupted
      exact .done wellFormed_keeper stays
    by_cases none : error = .echild
    · subst none
      exact .done settled_keeper (ended (wf.reaped permits))
    · have settled : k'.Settled := (fails (by simp [loopFails,interrupted,none])).parent taken
      cases error <;> first | contradiction | exact .done settled_keeper settled

private theorem keeper_react {pid : Pid} {handler : ForegroundHandler} (signal : Option Signal) {k : Kernel}
    (wf : k.WellFormed) : (Kernel.keeper supervisor).Safe (react pid handler signal).run (fun
      | .ok (.inl _) => Kernel.WellFormed
      | _ => Kernel.Settled) k := by
  have passes (signal : Signal) : (Kernel.keeper supervisor).Safe (do
      discard (.kill (-pid) signal)
      return .inl false : M (Bool ⊕ Int)).run (fun
        | .ok (.inl _) => Kernel.WellFormed
        | _ => Kernel.Settled) k :=
    Fallible.safe_lift ((keeper_plain (uses_discard rfl) wf).mono fun _ k wf => .done wellFormed_keeper wf)
  match signal with
  | none => exact .done wellFormed_keeper wf
  | some signal =>
    by_cases chld : signal = .sigchld
    · subst chld
      refine Fallible.safe_bind (fun _ => settled_keeper) ((keeper_reap wf).mono fun result k reached => ?_)
      match result with
      | .error error => exact reached
      | .ok none => exact .done wellFormed_keeper reached
      | .ok (some code) => exact .done settled_keeper reached
    · cases signal <;> first | contradiction | exact passes _

private theorem keeper_wait {signals : SignalReceiver} {k : Kernel} (wf : k.WellFormed) :
    (Kernel.keeper supervisor).Safe signals.wait.run (fun
      | .ok _ => Kernel.WellFormed
      | .error _ => Kernel.Settled) k := by
  refine Fallible.safe_iterate (I := fun _ => Kernel.WellFormed) (fun _ => wellFormed_keeper) ?_ wf ?_
  · rintro (error | event)
    · exact settled_keeper
    · exact wellFormed_keeper
  intro _ k wf
  have read : (Kernel.keeper supervisor).Safe signals.read.run (fun
      | .ok _ => Kernel.WellFormed
      | .error _ => Kernel.Settled) k := by
    refine Fallible.safe_ask wellFormed_keeper wf (lasting rfl) fun k answer k' wf taken => ?_
    cases answer with
    | ok number => exact .done wellFormed_keeper (wf.step taken.1)
    | error error => exact .done settled_keeper ((taken.2 rfl).parent taken.1)
  refine Fallible.safe_bind (fun _ => settled_keeper) (read.mono fun result k reached => ?_)
  match result with
  | .error error => exact reached
  | .ok (some event) => exact .done wellFormed_keeper reached
  | .ok none =>
    refine Fallible.safe_ask wellFormed_keeper reached (lasting rfl) fun k answer k' wf taken => ?_
    obtain ⟨taken,fails⟩ := taken
    cases answer with
    | error error =>
      by_cases interrupted : error = .eintr
      · subst interrupted
        exact .done wellFormed_keeper (wf.step taken)
      · have settled : k'.Settled := (fails (by simp [loopFails,interrupted])).parent taken
        cases error <;> first | contradiction | exact .done settled_keeper settled
    | ok events =>
      have broken {first : Option PollFlags} (polled : events 0 = first)
          (bad : first.all (fun flags => flags.pollerr || flags.pollhup || flags.pollnval) = true) : k'.Settled :=
        (fails (List.any_eq_true.mpr ⟨0,List.mem_finRange 0,polled ▸ bad⟩)).parent taken
      dsimp only
      split
      · next polled => exact .done settled_keeper (broken polled rfl)
      · next flags polled =>
        split
        · next bad => exact .done settled_keeper (broken polled (by simp [bad]))
        · split
          · next bad => exact .done settled_keeper (broken polled (by simp [bad]))
          · exact .done wellFormed_keeper (wf.step taken)

private theorem keeper_watch {pid : Pid} {signals : SignalReceiver} {handler : ForegroundHandler} {k : Kernel}
    (wf : k.WellFormed) : (Kernel.keeper supervisor).Safe (watch pid signals handler).run
      (fun _ => Kernel.Settled) k := by
  refine Fallible.safe_iterate (I := fun _ => Kernel.WellFormed) (fun _ => wellFormed_keeper)
    (fun _ => settled_keeper) wf ?_
  intro initiate k wf
  cases initiate with
  | true =>
    refine (keeper_react (some .sigchld) wf).mono fun result k reached => ?_
    rcases result with error | again | code <;> exact reached
  | false =>
    refine Fallible.safe_bind (fun _ => settled_keeper) ((keeper_wait wf).mono fun result k reached => ?_)
    cases result with
    | error error => exact reached
    | ok event =>
      refine (keeper_react event.signal reached).mono fun result k reached => ?_
      rcases result with error | again | code <;> exact reached

def Unsent (k : Kernel) : Prop := k.WellFormed ∧ k.pipes.sent .parent = []

theorem Unsent.call {k k' : Kernel} {event : Call} {answer : Answer event} (unsent : Unsent k)
    (plain : isPlain event = true) (taken : Kernel.step supervisor .parent k event answer k') : Unsent k' := by
  refine ⟨unsent.1.step taken,?_⟩
  rw [Kernel.step_pipes taken]
  unfold Kernel.after
  split
  · simp [isPlain] at plain
  · exact unsent.2
  · exact unsent.2
  all_goals (try split) <;> exact unsent.2

theorem unsent_keeper : (Kernel.keeper supervisor).Stable Unsent := by
  refine stable_keeper (fun k k' unsent happened => ⟨unsent.1.happens happened,?_⟩) ?_
  · cases happened <;> exact unsent.2
  · exact fun k event answer k' unsent follows taken =>
      ⟨unsent.1.step taken,(Kernel.follows_unsent follows taken).trans unsent.2⟩

private theorem keeper_unsent {α : Type} {p : Calls α} (used : p.Uses fun event => isPlain event = true) {k : Kernel}
    (unsent : Unsent k) : (Kernel.keeper supervisor).Safe p (fun _ => Unsent) k := by
  refine Setting.Safe.uses used unsent_keeper unsent ?_ ?_
  · intro k event _ plain is
    cases event <;> simp_all [isPlain,isPam,endsSession]
  · exact fun k event answer k' unsent plain taken => unsent.call plain taken.1

theorem keeper_dropUnsent {k : Kernel} (unsent : Unsent k) : (Kernel.keeper supervisor).Safe
    (ForkEndpoint.mk ForkSync.fresh.parentWrite ForkSync.fresh.parentRead false).drop (fun _ => Kernel.Settled) k := by
  refine .call unsent_keeper unsent (lasting rfl) fun k answer k' unsent taken => ?_
  refine keeper_settled _ (.inr ?_)
  rw [Kernel.Untold,Kernel.step_pipes taken.1]
  exact ⟨unsent.2,by simp [Kernel.after,Pipes.close]⟩

/-- From the barrier on the loop is left only when nothing can run any more. -/
theorem keeper_supervise {pid : Pid} {signals : SignalReceiver} {handler : ForegroundHandler} {k : Kernel}
    (wf : k.WellFormed) : (Kernel.keeper supervisor).Safe (do
      ignoring (ForkEndpoint.mk ForkSync.fresh.parentWrite ForkSync.fresh.parentRead false).readyAndWait
      watch pid signals handler : M Int).run (fun _ => Kernel.Settled) k := by
  have quiet (event : Call) (about : About [.pipes] event) : endsSession event = false := by
    cases event <;> first | rfl | simp [About,Call.topic] at about
  have ready : (Kernel.keeper supervisor).Safe (ignoring (ForkEndpoint.mk ForkSync.fresh.parentWrite
      ForkSync.fresh.parentRead false).readyAndWait) (fun _ => Kernel.WellFormed) k :=
    keeper_plain (uses_ignoring ((uses_readyAndWait _).mono quiet)) wf
  exact Fallible.safe_lift (ready.mono fun _ _ wf => keeper_watch wf)

private theorem keeper_watchProcess {pid : Pid} {k : Kernel} (unsent : Unsent k) :
    (Kernel.keeper supervisor).Safe (watchProcess pid ⟨ForkSync.fresh.parentWrite,ForkSync.fresh.parentRead,false⟩).run
      (fun _ => Kernel.Settled) k := by
  have plain (event : Call) (about : About watchTopics event) : isPlain event = true :=
    about_isPlain (by decide) (by decide) (by decide) about
  refine Fallible.safe_bind (fun _ => settled_keeper) (Fallible.safe_releasingOnError ?_ ?_)
  · rintro (error | installed)
    · exact settled_keeper
    · exact Setting.Safe.stable _ _
  refine (keeper_unsent (uses_watchInstall plain (fun _ => rfl) pid) unsent).mono fun result k unsent => ?_
  cases result with
  | error error => exact keeper_dropUnsent unsent
  | ok installed =>
    obtain ⟨signals,handler⟩ := installed
    refine Fallible.safe_releasing (fun _ => settled_keeper) ?_
    exact (keeper_supervise unsent.1).mono fun _ k settled => keeper_settled _ settled

private theorem keeper_supervisorSide {run : Invocation} {prepared : Prepared} {handle : PamHandle} {child : Pid}
    {k : Kernel} (wf : k.WellFormed) (unsent : k.pipes.sent .parent = []) :
    (Kernel.keeper supervisor).Safe (supervisorSide run prepared handle child).run (fun _ _ => True) k := by
  unfold supervisorSide authParent
  simp only [bind_assoc]
  refine Fallible.safe_lift (.bind ((keeper_unsent (plain_drop _) ⟨wf,unsent⟩).mono fun _ k unsent => ?_))
  refine .bind ((keeper_unsent (plain_drop _) unsent).mono fun _ k unsent => .done (Setting.Safe.stable _ _) ?_)
  have watched : (Kernel.keeper supervisor).Safe (watchProcess child ⟨ForkSync.fresh.parentWrite,
      ForkSync.fresh.parentRead,false⟩).run (fun _ => Kernel.Settled) k := keeper_watchProcess unsent
  refine Fallible.safe_lift (watched.mono fun result k settled => ?_)
  exact (keeper_settled _ settled).mono fun _ _ _ => trivial

end

/-- The child has ended, or it never comes to exec from here. -/
def CommandOver (supervisor : Pid) (c : CommandConfig) : Prop :=
  c.state.ending.isSome = true ∨ ∀ d, (Kernel.system supervisor).Reaches c d →
    ∀ event, d.right.pending = some event → isExec event = false

/-- The parent alone ends the session, and only once the command is over. -/
def SessionKept (supervisor : Pid) (c : CommandConfig) : Prop :=
  (∀ event, c.right.pending = some event → isPam event = false) ∧
  ∀ event, c.left.pending = some event → endsSession event = true → CommandOver supervisor c

section
variable {supervisor : Pid}

theorem steady_reaches {c d : CommandConfig} (reached : (Kernel.steady supervisor).Reaches c d) :
    (Kernel.system supervisor).Reaches c d := by
  refine Relation.ReflTransGen.mono (fun a b moved => ?_) _ _ reached
  cases moved with
  | left taken =>
    refine .left ?_
    cases taken with
    | call taken => exact .call taken.1
    | loop => exact .loop _ _ _ _
  | right taken => exact .right taken
  | event happened => exact .event happened

/-- Whatever the parent does, a child that is not told to go on never comes to exec. -/
private theorem settled_over {c : CommandConfig} (settled : c.state.Settled)
    (safe : (Kernel.follower supervisor).Safe c.right (fun _ _ => True) c.state) : CommandOver supervisor c := by
  refine settled.imp_right fun untold d reached event pending => ?_
  have still : d.state.Untold :=
    reached.guarded (L := fun _ _ => True) (M := Kernel.Follows) (fun _ _ _ _ held _ taken => held.parent taken)
      (fun _ _ _ _ held follows taken => held.child follows taken) (fun _ _ held happened => held.happens happened)
      (.free fun _ _ => trivial) safe untold
  have follows : Kernel.Follows d.state event := (reached.safe_right safe).pending pending
  rw [Bool.eq_false_iff]
  intro replaces
  cases event with
  | execve _ _ _ | execvp _ _ | execv _ _ => exact Informed.unsilent (follows.2 rfl) still.1
  | _ => cases replaces

/-- Where the event loop does not fail while a command may run, the session outlives
the command. -/
theorem session_kept (supervisor : Pid) (blocked : Bool) (run : Invocation) (build : run.build.supervised = true)
    (prepared : Prepared) (pamEnv : EnvMap) (handle : PamHandle) (child : Pid) {c : CommandConfig}
    (reached : (Kernel.steady supervisor).Reaches (supervised run prepared pamEnv handle child blocked) c) :
    SessionKept supervisor c := by
  have wf := Kernel.wellFormed_forked blocked
  have follows : (Kernel.follower supervisor).Safe (commandSide run prepared pamEnv).run (fun _ _ => True)
      (.forked blocked) := follower_commandSide build prepared pamEnv wf
  have keeps : (Kernel.keeper supervisor).Safe (supervisorSide run prepared handle child).run (fun _ _ => True)
      (.forked blocked) := keeper_supervisorSide wf rfl
  have still : (Kernel.follower supervisor).Safe c.right (fun _ _ => True) c.state :=
    (steady_reaches reached).safe_right follows
  refine ⟨fun event pending => ?_,fun event pending ends => settled_over ?_ still⟩
  · have guarded : Kernel.Follows c.state event := still.pending pending
    cases event <;> first | rfl | cases guarded.1
  · have both := reached.safe (L := fun k event => endsSession event = true → Kernel.Settled k)
      (M := Kernel.Follows) keeps (follows.under (fun _ _ _ _ taken => taken) ?_ fun _ _ guarded => guarded)
    · exact both.1.pending pending ends
    · rintro k k' (happened | ⟨event,answer,_,taken⟩)
      · exact .inl happened
      · exact .inr ⟨event,answer,trivial,taken.1⟩

end

/-! Runs of root's command up to the end of the session. -/

def steadyPlayer (supervisor : Pid) : Player (Kernel.steady supervisor) Kernel.Occurrence where
  left k event answer := if loopFails event answer then none else Kernel.perform supervisor .parent k event answer
  right := Kernel.perform supervisor .child
  event := Kernel.occur
  left_sound := by
    intro k event answer k' performed
    split at performed
    · contradiction
    · next sound => exact ⟨Kernel.perform_sound performed,fun fails => absurd fails sound⟩
  right_sound := Kernel.perform_sound
  event_sound := Kernel.occur_sound

private def tearDown : List CommandTurn :=
  [.left ⟨.sigaction .sigttou .default,.ok .ignore⟩,.left ⟨.sigmask .setMask [],.ok receivedSignals⟩,
    .left ⟨.close .signal,.ok ()⟩]

/-- The command has run and ended. -/
theorem session_kept_exited : ∃ c : CommandConfig, c.left.pending = some (.pam (.closeSession 0)) ∧
    c.state.ending = some (.exited 3) ∧ SessionKept 7 c := by
  have played : ∃ c : CommandConfig, play (steadyPlayer 7) 10
      (supervised supervisedRun preparedId ∅ ⟨.none,0,true⟩ 42 false)
      (setUp ++ passBarrier ++ prepareExec ++ becomeRoot 7 ++ [.event (.childEnds (.exited 3)),
        .left ⟨.waitpid 42,.ok (.exited 3)⟩] ++ tearDown) = some c ∧
      c.left.pending = some (.pam (.closeSession 0)) ∧ c.state.ending = some (.exited 3) := ⟨_,rfl,rfl,rfl⟩
  obtain ⟨c,played,closes,ended⟩ := played
  exact ⟨c,closes,ended,session_kept 7 false supervisedRun rfl preparedId ∅ ⟨.none,0,true⟩ 42 (play_sound _ _ played)⟩

/-- The poll of the supervisor fails while the command runs. -/
theorem session_closed_early : ¬ ∀ (supervisor : Pid) (blocked : Bool) (run : Invocation) (prepared : Prepared)
    (pamEnv : EnvMap) (handle : PamHandle) (child : Pid) (c : CommandConfig), run.build.supervised = true →
      (Kernel.system supervisor).Reaches (supervised run prepared pamEnv handle child blocked) c →
      SessionKept supervisor c := by
  intro claimed
  have played : ∃ (c : CommandConfig) (event : Call), play (Kernel.player 7) 10
      (supervised supervisedRun preparedId ∅ ⟨.none,0,true⟩ 42 false)
      (setUp ++ passBarrier ++ prepareExec ++ becomeRoot 7 ++ [.left ⟨.waitpid 42,.ok .stillAlive⟩,
        .left ⟨.readSignal .signal,.ok none⟩,.left ⟨.poll [some .signal],.error (.other 12)⟩] ++ tearDown ++
        [.left ⟨.report "" (.errno (.other 12)),()⟩]) = some c ∧
      c.left.pending = some (.pam (.closeSession 0)) ∧ c.right.pending = some event ∧ isExec event = true ∧
      c.state.ending = none := ⟨_,_,rfl,rfl,rfl,rfl,rfl⟩
  obtain ⟨c,event,played,closes,pending,replaces,lives⟩ := played
  have kept := claimed 7 false supervisedRun preparedId ∅ ⟨.none,0,true⟩ 42 c rfl (play_sound _ _ played)
  rcases kept.2 _ closes rfl with ended | never
  · rw [lives] at ended
    cases ended
  · rw [never c .refl event pending] at replaces
    cases replaces

end Runas
