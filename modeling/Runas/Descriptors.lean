import Runas.Phases
import Runas.Interaction.View
import Mathlib.Data.Finset.Basic

/-! The descriptors the program opens. Each is used and closed only while it is open, no
descriptor is closed that the program has not opened, and what it becomes is given none. -/
namespace Runas
open Interaction Text

/-- The descriptors the program is started with. -/
def Fd.standard : Fd → Bool
  | .stdin | .stdout | .stderr => true
  | _ => false

namespace Opened

def both (name : Pipe) : Finset Fd := {.pipe name .write,.pipe name .read}

/-- The descriptors the program has opened, after a call. One that is closed is gone
whatever the answer is. -/
def after (k : Finset Fd) : (event : Call) → Answer event → Finset Fd
  | .pipe name _,.ok () => k ∪ both name
  | .openFd fd,.ok () => insert fd k
  | .signalfd _,.ok () => insert .signal k
  | .close fd,_ => k.erase fd
  | _,_ => k

/-- The descriptors a record leaves open. -/
def left (t : List (Exchange Call Answer)) : Finset Fd := comesTo after ∅ t

def Usable (k : Finset Fd) (fd : Fd) : Prop := fd.standard = true ∨ fd ∈ k

/-- What holds of the open descriptors when a call is made. -/
def Proper (k : Finset Fd) : Call → Prop
  | .pipe name _ => Disjoint k (both name)
  | .openFd fd => fd ∉ k
  | .signalfd _ => .signal ∉ k
  | .close fd => fd ∈ k
  | .dup2 source target => Usable k source ∧ target.standard = true
  | .read fd _ | .write fd _ | .isTerminal fd | .ttyname fd | .tcgetattr fd | .tcsetattr fd _ | .tcgetpgrp fd
  | .tcsetpgrp fd _ | .readSignal fd => Usable k fd
  | .poll fds => ∀ fd,some fd ∈ fds → Usable k fd
  | .execve _ _ _ | .execvp _ _ | .execv _ _ => k = ∅
  | _ => True

/-- A proper call that leaves the descriptors as they are. -/
def Idle (k : Finset Fd) (event : Call) : Prop := Proper k event ∧ ∀ answer,after k event answer = k

abbrev opening : Setting Call Answer (Finset Fd) := alone (tracks after) Proper

variable {k : Finset Fd} {α β : Type}

def idleTopics : List Topic := [.process,.finish,.identity,.lookup,.pam,.talk,.environment,.files]

theorem idle_topic {event : Call} (idle : event.topic ∈ idleTopics) : Idle k event := by
  cases event <;> first | exact ⟨trivial,fun _ => rfl⟩ | simp [Call.topic,idleTopics] at idle

theorem idle_about {topics : List Topic} {p : Calls α} (used : p.Uses (About topics)) (idle : topics ⊆ idleTopics) :
    p.Uses (Idle k) := used.mono fun _ about => idle_topic (idle about)

theorem idle_settles {event : Call} (settling : settles event = true) : Idle k event := by
  cases event with
  | isTerminal fd => cases fd <;> first | exact ⟨.inl rfl,fun _ => rfl⟩ | cases settling
  | _ => first | exact ⟨trivial,fun _ => rfl⟩ | cases settling

theorem safe_idle {p : Calls α} (used : p.Uses (Idle k)) : opening.Safe p (fun _ k' => k' = k) k := by
  refine Setting.Safe.uses used (stable_alone _) rfl ?_ ?_
  · rintro _ event rfl idle
    exact idle.1
  · rintro _ event answer k' rfl idle taken
    exact (taken : k' = _).trans (idle.2 answer)

/-- A part that leaves the descriptors as they are comes first. -/
theorem safe_then {x : M α} {f : α → M β} {Q : Except Error β → Finset Fd → Prop} (used : Fallible.Uses (Idle k) x)
    (ends : ∀ value,opening.Safe (f value).run Q k) (fails : ∀ error,Q (.error error) k) :
    opening.Safe (x >>= f).run Q k := by
  refine Fallible.safe_bind_alone ((safe_idle used).mono ?_)
  rintro result _ rfl
  cases result with
  | ok value => exact ends value
  | error error => exact fails error

theorem safe_called {event : Call} {next : Answer event → Calls β} {Q : β → Finset Fd → Prop} (idle : Idle k event)
    (ends : ∀ answer,opening.Safe (next answer) Q k) : opening.Safe (.call event next) Q k := by
  refine .call_alone idle.1 fun answer k' taken => ?_
  cases (taken : k' = _).trans (idle.2 answer)
  exact ends answer

theorem safe_asks {event : Call} {f : Answer event → M β} {Q : Except Error β → Finset Fd → Prop} (idle : Idle k event)
    (ends : ∀ answer,opening.Safe (f answer).run Q k) : opening.Safe (Fallible.ask event >>= f).run Q k :=
  safe_called idle ends

theorem safe_close {fd : Fd} (isOpen : fd ∈ k) : opening.Safe (discard (.close fd)) (fun _ k' => k' = k.erase fd) k :=
  .call_alone isOpen fun _ _ taken => .done_alone taken

/-! The barrier. -/

/-- What one side of the barrier keeps: the end it writes to, and the end it reads from. -/
def endpoint (side : Side) : ForkEndpoint :=
  ⟨some (.pipe (.status side) .write),some (.pipe (.status side.peer) .read),false⟩

def ends (side : Side) : Finset Fd := {.pipe (.status side) .write,.pipe (.status side.peer) .read}

def allEnds : Finset Fd := ends .child ∪ ends .parent

theorem mem_ends {side : Side} (held : ends side ⊆ k) :
    .pipe (.status side) .write ∈ k ∧ .pipe (.status side.peer) .read ∈ k :=
  ⟨held (Finset.mem_insert_self _ _),held (Finset.mem_insert_of_mem (Finset.mem_singleton_self _))⟩

theorem erase_pair (k : Finset Fd) (first second : Fd) : (k.erase first).erase second = k \ {first,second} := by
  ext fd
  simp only [Finset.mem_erase,Finset.mem_sdiff,Finset.mem_insert,Finset.mem_singleton]
  tauto

/-- The end that is read from stays when the other is closed. -/
theorem mem_erase_write {side : Side} (held : ends side ⊆ k) :
    .pipe (.status side.peer) .read ∈ k.erase (.pipe (.status side) .write) :=
  Finset.mem_erase.mpr ⟨by simp,(mem_ends held).2⟩

theorem safe_endpointDrop {side : Side} (held : ends side ⊆ k) :
    opening.Safe (endpoint side).drop (fun _ k' => k' = k \ ends side) k := by
  refine Setting.Safe.bind ((safe_close (mem_ends held).1).mono ?_)
  rintro _ _ rfl
  refine (safe_close (mem_erase_write held)).mono ?_
  rintro _ _ rfl
  exact erase_pair ..

theorem safe_readyAndWait {side : Side} (held : ends side ⊆ k) :
    opening.Safe (endpoint side).readyAndWait.run (fun _ k' => k' = k \ ends side) k := by
  obtain ⟨writable,readable⟩ := mem_ends held
  have sends : opening.Safe (Fallible.releasingOnError (endpoint side).drop ((endpoint side).sendStatus statusReady)).run
      (fun result k' => (∀ sent,result = .ok sent → sent = ⟨none,some (.pipe (.status side.peer) .read),true⟩ ∧
        k' = k.erase (.pipe (.status side) .write)) ∧ ∀ error,result = .error error → k' = k \ ends side) k := by
    refine Fallible.safe_releasingOnError (fun _ => stable_alone _) (safe_then
      (uses_writeByte ⟨.inr writable,fun _ => rfl⟩) (fun _ => ?_) fun error => ?_)
    · refine Fallible.safe_lift ((safe_close writable).mono ?_)
      rintro _ _ rfl
      refine .done_alone ⟨fun sent same => ?_,fun _ same => (by cases same)⟩
      cases same
      exact ⟨rfl,rfl⟩
    · exact (safe_endpointDrop held).mono fun _ _ same => ⟨fun _ other => (by cases other),fun _ _ => same⟩
  refine Fallible.safe_bind_alone (sends.mono fun result k' after => ?_)
  cases result with
  | error error => exact after.2 error rfl
  | ok sent =>
    obtain ⟨rfl,rfl⟩ := after.1 sent rfl
    have last : opening.Safe (Descriptor.drop (some (.pipe (.status side.peer) .read))) (fun _ k' => k' = k \ ends side)
        (k.erase (.pipe (.status side) .write)) := by
      refine (safe_close (mem_erase_write held)).mono ?_
      rintro _ _ rfl
      exact erase_pair ..
    have waits : Fallible.Uses (Idle (k.erase (.pipe (.status side) .write)))
        (⟨none,some (.pipe (.status side.peer) .read),true⟩ : ForkEndpoint).awaitStatus := by
      refine .bind (uses_readByte ⟨.inr (mem_erase_write held),fun _ => rfl⟩) fun status => ?_
      cases status with
      | none => trivial
      | some status =>
        dsimp only
        split
        · trivial
        · split <;> trivial
    refine Fallible.safe_bind_alone (Fallible.safe_releasingOnError (fun _ => stable_alone _) ((safe_idle waits).mono ?_))
    rintro result _ rfl
    cases result with
    | ok decision => exact Fallible.safe_lift (last.mono fun _ _ same => .done_alone same)
    | error error => exact Setting.Safe.bind (.done_alone (last.mono fun _ _ same => same))

theorem ends_subset (side : Side) : ends side ⊆ allEnds := by
  cases side with
  | child => exact Finset.subset_union_left
  | parent => exact Finset.subset_union_right

theorem ends_apart (side : Side) (held : allEnds ⊆ k) : ends side ⊆ k \ ends side.peer := by
  refine fun fd member => Finset.mem_sdiff.mpr ⟨held (ends_subset side member),?_⟩
  revert fd
  cases side <;> decide

theorem safe_syncDrop (held : allEnds ⊆ k) : opening.Safe ForkSync.fresh.drop (fun _ k' => k' = k \ allEnds) k := by
  have drops : ForkSync.fresh.drop = (endpoint .child).drop.bind fun _ => (endpoint .parent).drop := rfl
  rw [drops]
  refine Setting.Safe.bind ((safe_endpointDrop ((ends_subset .child).trans held)).mono ?_)
  rintro _ _ rfl
  refine (safe_endpointDrop (ends_apart .parent held)).mono ?_
  rintro _ _ rfl
  exact sdiff_sdiff_left

/-- A side lets go of the other's ends. -/
theorem safe_intoChild (held : allEnds ⊆ k) : opening.Safe ForkSync.fresh.intoChild
    (fun pipe k' => pipe = endpoint .child ∧ k' = k \ ends .parent) k := by
  have readable : .pipe (.status .child) .read ∈ k := (mem_ends ((ends_subset .parent).trans held)).2
  have writable : .pipe (.status .parent) .write ∈ k.erase (.pipe (.status .child) .read) :=
    Finset.mem_erase.mpr ⟨by simp,(mem_ends ((ends_subset .parent).trans held)).1⟩
  refine Setting.Safe.bind ((safe_close readable).mono ?_)
  rintro _ _ rfl
  refine Setting.Safe.bind ((safe_close writable).mono ?_)
  rintro _ _ rfl
  refine .done_alone ⟨rfl,?_⟩
  rw [Finset.erase_right_comm]
  exact erase_pair ..

theorem safe_intoParent (held : allEnds ⊆ k) : opening.Safe ForkSync.fresh.intoParent
    (fun pipe k' => pipe = endpoint .parent ∧ k' = k \ ends .child) k := by
  refine Setting.Safe.bind (p := Descriptor.drop (some (.pipe (.status .child) .write)))
    ((safe_close (mem_ends ((ends_subset .child).trans held)).1).mono ?_)
  rintro _ _ rfl
  refine Setting.Safe.bind ((safe_close (mem_erase_write ((ends_subset .child).trans held))).mono ?_)
  rintro _ _ rfl
  exact .done_alone ⟨rfl,erase_pair ..⟩

theorem safe_pipe {name : Pipe} (apart : Disjoint k (both name)) : opening.Safe (Descriptor.pipe name).run (fun result k' =>
    (∀ pair,result = .ok pair → pair = (.pipe name .read,.pipe name .write) ∧ k' = k ∪ both name) ∧
      ∀ error,result = .error error → k' = k) k := by
  refine Fallible.safe_ask_alone apart fun answer k' taken => ?_
  cases answer with
  | error error =>
    cases taken
    exact .done_alone ⟨fun _ same => (by cases same),fun _ _ => rfl⟩
  | ok =>
    cases taken
    refine .done_alone ⟨fun pair same => ?_,fun _ same => (by cases same)⟩
    cases same
    exact ⟨rfl,rfl⟩

/-- All four ends are open, or none. -/
theorem safe_syncNew (apart : Disjoint k allEnds) : opening.Safe ForkSync.new.run (fun result k' =>
    (∀ sync,result = .ok sync → sync = ForkSync.fresh ∧ k' = k ∪ allEnds) ∧
      ∀ error,result = .error error → k' = k) k := by
  have parts : both (.status .child) ∪ both (.status .parent) = allEnds := by decide
  have fromChild : Disjoint k (both (.status .child)) := apart.mono_right (parts ▸ Finset.subset_union_left)
  have fromParent : Disjoint k (both (.status .parent)) := apart.mono_right (parts ▸ Finset.subset_union_right)
  refine Fallible.safe_bind_alone ((safe_pipe fromChild).mono fun result k' first => ?_)
  cases result with
  | error error => exact ⟨fun _ same => (by cases same),fun _ _ => first.2 error rfl⟩
  | ok pair =>
    obtain ⟨rfl,rfl⟩ := first.1 pair rfl
    have disjoint : Disjoint (k ∪ both (.status .child)) (both (.status .parent)) :=
      Finset.disjoint_union_left.mpr ⟨fromParent,by decide⟩
    refine Fallible.safe_bind_alone (Fallible.safe_releasingOnError (fun _ => stable_alone _)
      ((safe_pipe disjoint).mono fun result k' second => ?_))
    cases result with
    | ok pair =>
      obtain ⟨rfl,rfl⟩ := second.1 pair rfl
      refine .done_alone ⟨fun sync same => ?_,fun _ same => (by cases same)⟩
      cases same
      exact ⟨rfl,by rw [Finset.union_assoc,parts]⟩
    | error error =>
      obtain rfl := second.2 error rfl
      refine Setting.Safe.bind ((safe_close (by simp [both])).mono ?_)
      rintro _ _ rfl
      refine (safe_close (by simp [both])).mono ?_
      rintro _ _ rfl
      refine ⟨fun _ same => (by cases same),fun _ _ => ?_⟩
      rw [erase_pair]
      exact Finset.union_sdiff_cancel_right fromChild

/-! The supervisor. -/

theorem safe_receiverInstall {signals : List Signal} (apart : .signal ∉ k) :
    opening.Safe (SignalReceiver.install signals).run (fun result k' =>
      (∀ receiver,result = .ok receiver → receiver.fd = .signal ∧ k' = insert .signal k) ∧
        ∀ error,result = .error error → k' = k) k := by
  have fails (error : Error) : (∀ receiver,(.error error : Except Error SignalReceiver) = .ok receiver →
      receiver.fd = .signal ∧ k = insert .signal k) ∧ ∀ other,(.error error : Except Error SignalReceiver) = .error other → k = k :=
    ⟨fun _ same => (by cases same),fun _ _ => rfl⟩
  unfold SignalReceiver.install
  split
  · exact .done_alone (fails _)
  · refine safe_asks ⟨trivial,fun _ => rfl⟩ fun answer => safe_then (uses_orFail answer) (fun mask => ?_) fails
    refine Fallible.safe_ask_alone apart fun answer k' taken => ?_
    cases answer with
    | ok =>
      cases taken
      refine .done_alone ⟨fun receiver same => ?_,fun _ same => (by cases same)⟩
      cases same
      exact ⟨rfl,rfl⟩
    | error error =>
      cases taken
      have restores : Idle k (.sigmask .setMask mask) := ⟨trivial,fun _ => rfl⟩
      refine Fallible.safe_lift ((safe_idle (uses_discard restores)).mono ?_)
      rintro _ _ rfl
      exact .done_alone (fails _)

theorem safe_receiverDrop {receiver : SignalReceiver} (known : receiver.fd = .signal) (isOpen : .signal ∈ k) :
    opening.Safe receiver.drop (fun _ k' => k' = k.erase .signal) k := by
  have restores : Idle k (.sigmask .setMask receiver.prevMask) := ⟨trivial,fun _ => rfl⟩
  refine Setting.Safe.bind ((safe_idle (uses_discard restores)).mono ?_)
  rintro _ _ rfl
  rw [← known]
  exact safe_close (known ▸ isOpen)

/-- The terminal a handler hands over is standard input. -/
def OnStdin (handler : ForegroundHandler) : Prop :=
  ∀ terminal original child,handler.foregroundGroup = some (terminal,original,child) → terminal = .stdin

theorem safe_handlerInstall (child : Pid) : opening.Safe (ForegroundHandler.install child).run (fun result k' =>
    k' = k ∧ ∀ handler,result = .ok handler → OnStdin handler) k := by
  have fails (error : Error) : k = k ∧ ∀ handler,(.error error : Except Error ForegroundHandler) = .ok handler →
      OnStdin handler := ⟨rfl,fun _ same => (by cases same)⟩
  have none (previous : SigHandler) : k = k ∧ ∀ handler,(.ok ⟨previous,.none⟩ : Except Error ForegroundHandler) = .ok handler →
      OnStdin handler := by
    refine ⟨rfl,?_⟩
    rintro _ same _ _ _ given
    cases same
    cases given
  refine safe_asks ⟨trivial,fun _ => rfl⟩ fun answer => safe_then (uses_orFail answer) (fun previous => ?_) fails
  refine safe_asks ⟨.inl rfl,fun _ => rfl⟩ fun group => ?_
  cases group with
  | error error => exact .done_alone (none previous)
  | ok original =>
    refine safe_asks ⟨.inl rfl,fun _ => rfl⟩ fun given => ?_
    cases given with
    | error error => exact .done_alone (none previous)
    | ok =>
      refine .done_alone ⟨rfl,?_⟩
      rintro _ same _ _ _ given
      cases same
      cases given
      rfl

theorem idle_transfer {handler : ForegroundHandler} (onStdin : OnStdin handler) :
    handler.transferToParent.Uses (Idle k) ∧ handler.transferToChild.Uses (Idle k) := by
  unfold ForegroundHandler.transferToParent ForegroundHandler.transferToChild
  cases given : handler.foregroundGroup with
  | none => exact ⟨trivial,trivial⟩
  | some group =>
    obtain ⟨terminal,original,child⟩ := group
    cases onStdin _ _ _ given
    exact ⟨uses_discard ⟨.inl rfl,fun _ => rfl⟩,uses_discard ⟨.inl rfl,fun _ => rfl⟩⟩

theorem idle_handlerDrop {handler : ForegroundHandler} (onStdin : OnStdin handler) : handler.drop.Uses (Idle k) :=
  Program.Uses.bind (idle_transfer onStdin).1 fun _ => uses_discard ⟨trivial,fun _ => rfl⟩

theorem safe_watchInstall (pid : Pid) (apart : .signal ∉ k) : opening.Safe (watchInstall pid).run (fun result k' =>
    (∀ pair,result = .ok pair → pair.1.fd = .signal ∧ OnStdin pair.2 ∧ k' = insert .signal k) ∧
      ∀ error,result = .error error → k' = k) k := by
  have closed : (insert .signal k).erase .signal = k := Finset.erase_insert apart
  refine Fallible.safe_bind_alone ((safe_receiverInstall apart).mono fun result k' installed => ?_)
  cases result with
  | error error => exact ⟨fun _ same => (by cases same),fun _ _ => installed.2 error rfl⟩
  | ok signals =>
    obtain ⟨known,rfl⟩ := installed.1 signals rfl
    have drops : opening.Safe signals.drop (fun _ k' => k' = k) (insert .signal k) := by
      refine (safe_receiverDrop known (Finset.mem_insert_self _ _)).mono ?_
      rintro _ _ rfl
      exact closed
    have failed (error : Error) {k' : Finset Fd} (same : k' = k) :
        (∀ pair,(.error error : Except Error (SignalReceiver × ForegroundHandler)) = .ok pair →
          pair.1.fd = .signal ∧ OnStdin pair.2 ∧ k' = insert .signal k) ∧
        ∀ other,(.error error : Except Error (SignalReceiver × ForegroundHandler)) = .error other → k' = k :=
      ⟨fun _ other => (by cases other),fun _ _ => same⟩
    refine Fallible.safe_releasingOnError (fun _ => stable_alone _) (Fallible.safe_bind_alone ((safe_handlerInstall pid).mono ?_))
    rintro result _ ⟨rfl,onStdin⟩
    cases result with
    | error error => exact drops.mono fun _ _ same => failed error same
    | ok handler =>
      have onStdin := onStdin handler rfl
      have groups : Idle (insert .signal k) (.setpgid pid pid) := ⟨trivial,fun _ => rfl⟩
      refine Fallible.safe_releasingOnError (fun _ => stable_alone _) (safe_asks groups fun set => ?_)
      cases set with
      | ok =>
        refine .done_alone ⟨fun pair same => ?_,fun _ same => (by cases same)⟩
        cases same
        exact ⟨known,onStdin,rfl⟩
      | error error =>
        refine .done_alone ((safe_idle (idle_handlerDrop onStdin)).mono ?_)
        rintro _ _ rfl
        exact drops.mono fun _ _ same => failed _ same

/-- Everything of the barrier and the receiver is closed when the watch ends, however it ends. -/
theorem safe_watchProcess (pid : Pid) : opening.Safe (watchProcess pid (endpoint .parent)).run (fun _ k' => k' = ∅)
    (ends .parent) := by
  have apart : .signal ∉ ends .parent := by decide
  have empty : ends .parent \ ends .parent = ∅ := Finset.sdiff_self _
  refine Fallible.safe_bind_alone (Fallible.safe_releasingOnError (fun _ => stable_alone _)
    ((safe_watchInstall pid apart).mono fun result k' installed => ?_))
  cases result with
  | error error =>
    cases installed.2 error rfl
    refine (safe_endpointDrop (Finset.Subset.refl _)).mono ?_
    rintro _ _ rfl
    exact empty
  | ok pair =>
    obtain ⟨signals,handler⟩ := pair
    obtain ⟨known,onStdin,rfl⟩ := installed.1 _ rfl
    have only : insert .signal (ends .parent) \ ends .parent = {.signal} := by decide
    have receives : Usable {.signal} signals.fd := .inr (Finset.mem_singleton.mpr known)
    have waits : Fallible.Uses (Idle {.signal}) signals.wait := by
      refine within_receiverWait ⟨receives,fun _ => rfl⟩ ⟨fun fd member => ?_,fun _ => rfl⟩
      cases List.mem_singleton.mp member
      exact receives
    have watches : Fallible.Uses (Idle {.signal}) (watch pid signals handler) :=
      uses_watch ⟨trivial,fun _ => rfl⟩ (idle_transfer onStdin).1 (idle_transfer onStdin).2 (fun _ => ⟨trivial,fun _ => rfl⟩)
        ⟨trivial,fun _ => rfl⟩ (fun _ => ⟨trivial,fun _ => rfl⟩) waits
    refine Fallible.safe_releasing (fun _ => stable_alone _) (Fallible.safe_lift (Setting.Safe.bind
      ((safe_readyAndWait (Finset.subset_insert _ _)).mono ?_)))
    rintro _ _ rfl
    rw [only]
    refine .done_alone ((safe_idle watches).mono ?_)
    rintro result _ rfl
    refine Setting.Safe.bind ((safe_idle (idle_handlerDrop onStdin)).mono ?_)
    rintro _ _ rfl
    refine (safe_receiverDrop known (Finset.mem_singleton_self _)).mono ?_
    rintro _ _ rfl
    rfl

/-! Authentication, in both processes it may go on in. -/

theorem idle_pam (event : Call) (about : About [.pam,.talk] event) : Idle k event :=
  idle_topic ((by decide : [Topic.pam,.talk] ⊆ idleTopics) about)

theorem idle_handleDrop (handle : PamHandle) : handle.drop.Uses (Idle k) := PamHandle.within_drop idle_pam handle

theorem safe_authChild (pamEnv : EnvMap) :
    opening.Safe (authChild ForkSync.fresh pamEnv).run (fun _ k' => k' = ∅) allEnds := by
  have rest : allEnds \ ends .parent = ends .child := by decide
  have empty : ends .child \ ends .child = ∅ := by decide
  have armed : Fallible.Uses (Idle (ends .child)) (do
      setParentExitSignal .sigkill
      orFail (← ask (.setpgid 0 0)) : M Unit) :=
    .bind (uses_setParentExitSignal ⟨trivial,fun _ => rfl⟩) fun _ => .bind (.ask ⟨trivial,fun _ => rfl⟩) fun answer =>
      uses_orFail answer
  refine Fallible.safe_lift ((safe_intoChild (Finset.Subset.refl _)).mono ?_)
  rintro pipe _ ⟨rfl,rfl⟩
  rw [rest]
  refine Fallible.safe_bind_alone (Fallible.safe_releasingOnError (fun _ => stable_alone _) ((safe_idle armed).mono ?_))
  rintro result _ rfl
  cases result with
  | error error =>
    refine (safe_endpointDrop (Finset.Subset.refl _)).mono ?_
    rintro _ _ rfl
    exact empty
  | ok =>
    refine Fallible.safe_bind_alone ((safe_readyAndWait (Finset.Subset.refl _)).mono ?_)
    rintro result _ rfl
    rw [empty]
    cases result with
    | error error => rfl
    | ok decision =>
      dsimp only
      split
      · exact .done_alone rfl
      · exact .done_alone rfl

theorem safe_authParent (handle : PamHandle) (child : Pid) :
    opening.Safe (authParent handle ForkSync.fresh child).run (fun _ k' => k' = ∅) allEnds := by
  have rest : allEnds \ ends .child = ends .parent := by decide
  have leaves (code : Int) : opening.Safe (do handle.drop; exit code : M EnvMap).run (fun _ k' => k' = ∅) ∅ := by
    refine Fallible.safe_lift ((safe_idle (idle_handleDrop handle)).mono ?_)
    rintro _ _ rfl
    exact .call_alone trivial fun never => nomatch never
  refine Fallible.safe_lift ((safe_intoParent (Finset.Subset.refl _)).mono ?_)
  rintro pipe _ ⟨rfl,rfl⟩
  rw [rest]
  refine Fallible.safe_lift ((safe_watchProcess child).mono ?_)
  rintro result _ rfl
  cases result with
  | ok code => exact leaves code
  | error error => exact safe_asks ⟨trivial,fun _ => rfl⟩ fun _ => leaves 1

theorem safe_authFork (handle : PamHandle) (pamEnv : EnvMap) :
    opening.Safe (authFork handle ForkSync.fresh pamEnv).run (fun _ k' => k' = ∅) allEnds := by
  refine safe_asks ⟨trivial,fun _ => rfl⟩ fun forked => ?_
  split
  · exact safe_authChild pamEnv
  · exact safe_authParent handle _
  · refine Fallible.safe_lift ((safe_idle (idle_handleDrop handle)).mono ?_)
    rintro _ _ rfl
    refine Fallible.safe_lift ((safe_syncDrop (Finset.Subset.refl _)).mono ?_)
    rintro _ _ rfl
    exact .done_alone (Finset.sdiff_self _)

theorem safe_authSession (handle : PamHandle) :
    opening.Safe (authSession handle).run (fun _ k' => k' = ∅) ∅ := by
  refine Fallible.safe_bind_alone (Fallible.safe_releasingOnError (fun _ => stable_alone _)
    ((safe_syncNew (Finset.disjoint_empty_left _)).mono fun result k' made => ?_))
  cases result with
  | error error =>
    cases made.2 error rfl
    exact safe_idle (idle_handleDrop handle)
  | ok sync =>
    obtain ⟨rfl,rfl⟩ := made.1 sync rfl
    rw [show ∅ ∪ allEnds = allEnds by decide]
    refine Fallible.safe_lift ((safe_idle (PamHandle.within_getenvlist idle_pam handle)).mono ?_)
    rintro ⟨listed,handle⟩ _ rfl
    cases listed with
    | ok pamEnv => exact safe_authFork handle pamEnv
    | error error =>
      refine Fallible.safe_lift ((safe_syncDrop (Finset.Subset.refl _)).mono ?_)
      rintro _ _ rfl
      rw [Finset.sdiff_self]
      refine Fallible.safe_lift ((safe_idle (idle_handleDrop handle)).mono ?_)
      rintro _ _ rfl
      exact .done_alone rfl

theorem safe_authenticate (numeric : Char → Bool) (build : Build) (user target : Account) (flags : RunFlags) :
    opening.Safe (authenticate numeric build user target flags).run (fun _ k' => k' = ∅) ∅ := by
  have pam (user : Account) (disableAuth : Bool) :
      opening.Safe (pamAuth build user target flags disableAuth).run (fun _ k' => k' = ∅) ∅ := by
    unfold pamAuth
    refine safe_then (idle_about (uses_pamStart _ _ _) (by decide)) (fun handle => ?_) fun _ => rfl
    refine Fallible.safe_lift ((safe_idle (within_pamLogin idle_pam ⟨.inl rfl,fun _ => rfl⟩ ⟨.inl rfl,fun _ => rfl⟩
      build user target flags _ handle)).mono ?_)
    rintro ⟨result,handle⟩ _ rfl
    cases result with
    | error error =>
      refine Fallible.safe_lift ((safe_idle (idle_handleDrop handle)).mono ?_)
      rintro _ _ rfl
      exact .done_alone rfl
    | ok =>
      dsimp only
      split
      · exact safe_authSession handle
      · refine Fallible.safe_lift ((safe_idle (idle_handleDrop handle)).mono ?_)
        rintro _ _ rfl
        exact .done_alone rfl
  have enters (user : Account) (disableAuth : Bool) :
      opening.Safe (auth build user target flags disableAuth).run (fun _ k' => k' = ∅) ∅ := by
    unfold auth
    split
    · exact pam user disableAuth
    · exact safe_then (idle_about (uses_shadowAuth user flags) (by decide)) (fun _ => .done_alone rfl) fun _ => rfl
  refine safe_then (idle_about (uses_hasTargetGroup user target) (by decide)) (fun pair => ?_) fun _ => rfl
  obtain ⟨has,user⟩ := pair
  dsimp only
  split
  · split
    · exact enters user true
    · exact .done_alone rfl
  · exact .done_alone rfl
  · refine safe_then (idle_about (uses_isWheelMember numeric user) (by decide)) (fun wheel => ?_) fun _ => rfl
    split
    · exact enters user false
    · exact .done_alone rfl

/-! The run as a whole. -/

/-- Nothing is open on the way to exec, and so it may come there. -/
theorem idle_launch (run : Invocation) (prepared : Prepared) (pamEnv : EnvMap) :
    Fallible.Uses (Idle ∅) (run.launch prepared pamEnv) := by
  refine (launching_launch run prepared pamEnv).mono fun event known => ?_
  cases event <;> first | exact ⟨trivial,fun _ => rfl⟩ | exact ⟨rfl,fun _ => rfl⟩ | cases known

theorem safe_start (run : Invocation) (targetArgs : List Bytes) :
    opening.Safe (run.start targetArgs).run (fun _ k' => k' = ∅) ∅ := by
  refine safe_then ((run.settling_prepare targetArgs).mono fun _ => idle_settles) (fun outcome => ?_) fun _ => rfl
  cases outcome with
  | inr => exact .done_alone rfl
  | inl prepared =>
    refine Fallible.safe_bind_alone ((safe_authenticate _ _ _ _ _).mono ?_)
    rintro result _ rfl
    cases result with
    | error error => rfl
    | ok pamEnv => exact safe_idle (idle_launch run prepared pamEnv)

theorem safe_main (library : Library) (build : Build) (words : List Bytes) :
    opening.Safe (main library build words) (fun _ k' => k' = ∅) ∅ := by
  have stops : opening.Safe (panic : M Unit).run (fun _ k' => k' = ∅) ∅ :=
    .call_alone trivial fun never => nomatch never
  have runs : opening.Safe (run library build words).run (fun _ k' => k' = ∅) ∅ := by
    cases words with
    | nil => exact stops
    | cons program rest =>
      refine safe_then ((silent_utf8Words _).mono fun _ absurd => absurd.elim) (fun texts => ?_) fun _ => rfl
      cases texts with
      | nil => exact stops
      | cons name own =>
        dsimp only
        split
        · exact safe_asks ⟨trivial,fun _ => rfl⟩ fun _ => .done_alone rfl
        · exact safe_then ((silent_checkCommand _ _).mono fun _ absurd => absurd.elim) (fun _ => safe_start _ _) fun _ => rfl
  refine Setting.Safe.bind (runs.mono ?_)
  rintro result _ rfl
  cases result with
  | ok => exact .done_alone rfl
  | error error =>
    refine .call_alone trivial fun _ k' taken => ?_
    cases (taken : k' = ∅)
    exact .done_alone rfl

end Opened

/-- In every run, in both processes it may go on in, each descriptor the program opens is used
and closed only while it is open, an exec is tried only when all of them are closed, and
they are when the run ends. -/
theorem main_descriptors (library : Library) (build : Build) (words : List Bytes) :
    (∀ q t event,Steps record (main library build words) [] q t → q.pending = some event →
      Opened.Proper (Opened.left t) event) ∧
    ∀ t code,Trace (main library build words) t code → Opened.left t = ∅ :=
  ⟨fun _ _ _ reached pending => (Opened.safe_main library build words).calls reached pending,
    fun _ _ trace => (Opened.safe_main library build words).ends trace⟩

end Runas
