import Runas.Command

/-! No lost end of a child: whenever an event loop polls, a child that has ended and has
not been reaped has left a SIGCHLD to be read. -/
namespace Runas
open Interaction Text

def isPoll : Call → Bool
  | .poll _ => true
  | _ => false

namespace Kernel

/-- A child that has ended and has not been reaped has left its signal. -/
def Noticed (k : Kernel) : Prop := k.ending.isSome = true → k.reaped = false → k.pending = true

def watcher (supervisor : Pid) : Setting Call Answer Kernel :=
  (system supervisor).leftSetting (fun k event => isPoll event = true → k.Noticed) fun _ _ => True

/-- A call that may change what the parent has blocked, pending or reaped. -/
def touchesSignals : Call → Bool
  | .sigmask _ _ | .waitpid _ | .readSignal _ => true
  | _ => false

def Masked (k : Kernel) : Prop := k.WellFormed ∧ k.blocked = true

/-- SIGCHLD is blocked, and none is lost. -/
def Alert (k : Kernel) : Prop := k.Masked ∧ k.Noticed

section
variable {supervisor : Pid} {s : Side} {k k' : Kernel} {event : Call} {answer : Answer event}

theorem step_signals (quiet : s = .child ∨ touchesSignals event = false) (taken : step supervisor s k event answer k') :
    k'.blocked = k.blocked ∧ k'.pending = k.pending ∧ k'.reaped = k.reaped := by
  have same : (k.after s event answer).blocked = k.blocked ∧ (k.after s event answer).pending = k.pending ∧
      (k.after s event answer).reaped = k.reaped := by
    rcases quiet with child | other
    · exact after_signals child
    · unfold after
      split <;> (try split) <;> first | exact ⟨rfl,rfl,rfl⟩ | simp [touchesSignals] at other
  obtain ⟨_,_,rfl | ⟨_,_,rfl⟩⟩ := taken
  · exact same
  · exact same

theorem Masked.quiet (masked : k.Masked) (quiet : s = .child ∨ touchesSignals event = false)
    (taken : step supervisor s k event answer k') : k'.Masked :=
  ⟨masked.1.step taken,(step_signals quiet taken).1.trans masked.2⟩

theorem Alert.quiet (alert : k.Alert) (quiet : s = .child ∨ touchesSignals event = false)
    (taken : step supervisor s k event answer k') : k'.Alert := by
  refine ⟨alert.1.quiet quiet taken,?_⟩
  obtain ⟨_,pending,reaped⟩ := step_signals quiet taken
  rw [Noticed,step_ending taken,pending,reaped]
  exact alert.2

theorem Masked.happens (masked : k.Masked) (happened : Happens k k') : k'.Masked := by
  refine ⟨masked.1.happens happened,?_⟩
  cases happened <;> exact masked.2

/-- The end of the child is signalled while SIGCHLD is blocked, and so stays. -/
theorem Alert.happens (alert : k.Alert) (happened : Happens k k') : k'.Alert := by
  refine ⟨alert.1.happens happened,?_⟩
  obtain ⟨⟨_,blocked⟩,noticed⟩ := alert
  cases happened with
  | parentDies => exact noticed
  | childEnds ending => exact fun _ _ => by simp [childEnds,raiseChld,blocked]
  | childStops _ | childContinues => exact fun _ _ => by simp [childChanges,raiseChld,blocked]

/-- After the last of the reports nothing is left to be noticed. -/
theorem Masked.waited {pid : Pid} {result : Except Errno WaitStatus} (masked : k.Masked)
    (taken : step supervisor .parent k (.waitpid pid) result k') : k'.Masked ∧ match result with
      | .ok .stillAlive | .ok (.exited _) | .ok (.signaled _) => k'.Alert
      | _ => True := by
  have wf := masked.1.step taken
  obtain ⟨_,permits,rfl | ⟨never,_⟩⟩ := taken
  · have permits := permits rfl
    match result with
    | .ok .stillAlive =>
      have alert : k.Alert := ⟨masked,fun ended => by rw [permits.1] at ended; cases ended⟩
      exact ⟨masked,alert⟩
    | .ok (.exited code) => exact ⟨⟨wf,masked.2⟩,⟨wf,masked.2⟩,fun _ unreaped => nomatch unreaped⟩
    | .ok (.signaled signal) => exact ⟨⟨wf,masked.2⟩,⟨wf,masked.2⟩,fun _ unreaped => nomatch unreaped⟩
    | .ok (.stopped signal) => exact ⟨⟨wf,masked.2⟩,trivial⟩
    | .ok .continued => exact ⟨⟨wf,masked.2⟩,trivial⟩
    | .error error => exact ⟨masked,trivial⟩
  · cases never

/-- Reading a signal loses a SIGCHLD at most. -/
theorem Alert.dequeued {fd : Fd} {result : Except Errno (Option Nat)} (alert : k.Alert)
    (taken : step supervisor .parent k (.readSignal fd) result k') :
    k'.Masked ∧ (result ≠ .ok (some Signal.sigchld.number) → k'.Alert) := by
  have wf := alert.1.1.step taken
  obtain ⟨_,_,rfl | ⟨never,_⟩⟩ := taken
  · match result with
    | .error error => exact ⟨alert.1,fun _ => alert⟩
    | .ok none => exact ⟨alert.1,fun _ => alert⟩
    | .ok (some number) =>
      refine ⟨⟨wf,alert.1.2⟩,fun other => ⟨⟨wf,alert.1.2⟩,fun ended unreaped => ?_⟩⟩
      have differs : number ≠ Signal.sigchld.number := fun same => other (by rw [same])
      have pending := alert.2 ended unreaped
      simp [after,pending,differs]
  · cases never

end

end Kernel

section
variable {supervisor : Pid}

private theorem polls_not {P : Kernel → Prop} {event : Call} (other : isPoll event = false) (k : Kernel) (_ : P k) :
    (Kernel.watcher supervisor).guard k event :=
  fun polls => Bool.false_ne_true.elim (other.symm.trans polls)

private theorem stable_watcher {P : Kernel → Prop} (events : ∀ k k', P k → Kernel.Happens k k' → P k')
    (calls : ∀ k event answer k', P k → Kernel.step supervisor .child k event answer k' → P k') :
    (Kernel.watcher supervisor).Stable P := by
  intro k k' holds moved
  rcases moved with happened | ⟨event,answer,_,taken⟩
  · exact events k k' holds happened
  · exact calls k event answer k' holds taken

private theorem stable_masked : (Kernel.watcher supervisor).Stable Kernel.Masked :=
  stable_watcher (fun _ _ masked happened => masked.happens happened) fun _ _ _ _ masked taken => masked.quiet (.inl rfl) taken

private theorem stable_alert : (Kernel.watcher supervisor).Stable Kernel.Alert :=
  stable_watcher (fun _ _ alert happened => alert.happens happened) fun _ _ _ _ alert taken => alert.quiet (.inl rfl) taken

private theorem watcher_any {α : Type} {p : Calls α} (used : p.Uses fun event => isPoll event = false) (k : Kernel) :
    (Kernel.watcher supervisor).Safe p (fun _ _ => True) k := by
  refine Setting.Safe.uses used Setting.Stable.true trivial ?_ fun _ _ _ _ _ _ _ => trivial
  intro k event _ other is
  rw [other] at is
  cases is

private theorem watcher_masked {α : Type} {p : Calls α}
    (used : p.Uses fun event => isPoll event = false ∧ Kernel.touchesSignals event = false) {k : Kernel}
    (masked : k.Masked) : (Kernel.watcher supervisor).Safe p (fun _ => Kernel.Masked) k := by
  refine Setting.Safe.uses used stable_masked masked ?_ fun _ _ _ _ masked quiet taken => masked.quiet (.inr quiet.2) taken
  intro k event _ other is
  rw [other.1] at is
  cases is

private theorem watcher_alert {α : Type} {p : Calls α} (used : p.Uses fun event => Kernel.touchesSignals event = false)
    {k : Kernel} (alert : k.Alert) : (Kernel.watcher supervisor).Safe p (fun _ => Kernel.Alert) k :=
  Setting.Safe.uses used stable_alert alert (fun _ _ alert _ _ => alert.2)
    fun _ _ _ _ alert quiet taken => alert.quiet (.inr quiet) taken

private theorem terminal_quiet {event : Call} (about : About [.terminal] event) :
    isPoll event = false ∧ Kernel.touchesSignals event = false := by
  cases event <;> first | exact ⟨rfl,rfl⟩ | simp [About,Call.topic] at about

private theorem pipes_quiet {event : Call} (about : About [.pipes] event) :
    isPoll event = false ∧ Kernel.touchesSignals event = false := by
  cases event <;> first | exact ⟨rfl,rfl⟩ | simp [About,Call.topic] at about

private theorem watcher_install {signals : List Signal} (chld : .sigchld ∈ signals) {k : Kernel} (wf : k.WellFormed) :
    (Kernel.watcher supervisor).Safe (SignalReceiver.install signals).run (fun
      | .ok _ => Kernel.Masked
      | .error _ => fun _ => True) k := by
  have initial : (Kernel.watcher supervisor).Stable Kernel.WellFormed :=
    stable_watcher (fun _ _ wf happened => wf.happens happened) fun _ _ _ _ wf taken => wf.step taken
  unfold SignalReceiver.install
  split
  · exact .done Setting.Stable.true trivial
  refine Fallible.safe_ask initial wf (polls_not rfl) fun k answer k' wf taken => ?_
  cases answer with
  | error error => exact .done Setting.Stable.true trivial
  | ok previous =>
    have masked : k'.Masked := by
      refine ⟨wf.step taken,?_⟩
      obtain ⟨_,_,rfl | ⟨never,_⟩⟩ := taken
      · simp [Kernel.after,chld]
      · cases never
    refine Fallible.safe_ask stable_masked masked (polls_not rfl) fun k answer k' masked taken => ?_
    cases answer with
    | ok => exact .done stable_masked (masked.quiet (.inr rfl) taken)
    | error error =>
      exact Fallible.safe_lift ((watcher_any (uses_discard rfl) k').mono fun _ _ _ => .done Setting.Stable.true trivial)

/-- What is known when a signal has been read: all is well, unless it is a SIGCHLD. -/
private def Dequeued (event : SignalEvent) (k : Kernel) : Prop :=
  k.Masked ∧ (event.signal ≠ some .sigchld → k.Alert)

private theorem stable_dequeued (event : SignalEvent) : (Kernel.watcher supervisor).Stable (Dequeued event) :=
  fun k k' known moved => ⟨stable_masked k k' known.1 moved,fun other => stable_alert k k' (known.2 other) moved⟩

private theorem watcher_read {receiver : SignalReceiver} {k : Kernel} (alert : k.Alert) :
    (Kernel.watcher supervisor).Safe receiver.read.run (fun
      | .ok none => Kernel.Alert
      | .ok (some event) => Dequeued event
      | .error _ => fun _ => True) k := by
  refine Fallible.safe_ask stable_alert alert (polls_not rfl) fun k answer k' alert taken => ?_
  obtain ⟨masked,others⟩ := alert.dequeued taken
  match answer with
  | .error error => exact .done Setting.Stable.true trivial
  | .ok none => exact .done stable_alert (others (by simp))
  | .ok (some number) =>
    refine .done (stable_dequeued _) ⟨masked,fun other => others fun same => other ?_⟩
    cases same
    exact Signal.ofNumber?_number .sigchld

private theorem watcher_wait {receiver : SignalReceiver} {k : Kernel} (alert : k.Alert) :
    (Kernel.watcher supervisor).Safe receiver.wait.run (fun
      | .ok event => Dequeued event
      | .error _ => fun _ => True) k := by
  refine Fallible.safe_iterate (I := fun _ => Kernel.Alert) (fun _ => stable_alert) ?_ alert ?_
  · rintro (error | event)
    · exact Setting.Stable.true
    · exact stable_dequeued event
  intro _ k alert
  refine Fallible.safe_bind (fun _ => Setting.Stable.true) ((watcher_read alert).mono fun result k reached => ?_)
  match result with
  | .error error => trivial
  | .ok (some event) => exact .done (stable_dequeued event) reached
  | .ok none =>
    refine Fallible.safe_ask stable_alert reached (fun _ alert _ => alert.2) fun k answer k' alert taken => ?_
    have stays : k'.Alert := alert.quiet (.inr rfl) taken
    cases answer with
    | error error => cases error with
      | eintr => exact .done stable_alert stays
      | _ => exact .done Setting.Stable.true trivial
    | ok events =>
      dsimp only
      split
      · exact .done Setting.Stable.true trivial
      · split
        · exact .done Setting.Stable.true trivial
        · split
          · exact .done Setting.Stable.true trivial
          · exact .done stable_alert stays

private theorem watcher_reap {pid : Pid} {handler : ForegroundHandler} {k : Kernel} (masked : k.Masked) :
    (Kernel.watcher supervisor).Safe (reap pid handler).run (fun
      | .ok none => Kernel.Alert
      | _ => fun _ => True) k := by
  have ends (result : Except Error (Option Int)) : (Kernel.watcher supervisor).Stable ((fun
      | .ok none => Kernel.Alert
      | _ => fun _ => True : Except Error (Option Int) → Kernel → Prop) result) := by
    rcases result with error | (- | status)
    · exact Setting.Stable.true
    · exact stable_alert
    · exact Setting.Stable.true
  refine Fallible.safe_iterate (I := fun _ => Kernel.Masked) (fun _ => stable_masked) ends masked ?_
  intro _ k masked
  refine Fallible.safe_ask stable_masked masked (polls_not rfl) fun k answer k' masked taken => ?_
  obtain ⟨masked,alert⟩ := masked.waited taken
  match answer with
  | .ok (.exited code) => exact .done Setting.Stable.true trivial
  | .ok (.signaled signal) => exact .done Setting.Stable.true trivial
  | .ok (.stopped signal) =>
    have quiet : (suspend pid handler signal).Uses fun event =>
        isPoll event = false ∧ Kernel.touchesSignals event = false :=
      uses_suspend ((uses_transferToParent handler).mono fun _ => terminal_quiet)
        ((uses_transferToChild handler).mono fun _ => terminal_quiet) (fun _ => ⟨rfl,rfl⟩) ⟨rfl,rfl⟩ ⟨rfl,rfl⟩ signal
    exact Fallible.safe_lift ((watcher_masked quiet masked).mono fun _ k masked => .done stable_masked masked)
  | .ok .continued => exact .done stable_masked masked
  | .ok .stillAlive => exact .done stable_alert alert
  | .error error => cases error with
    | eintr => exact .done stable_masked masked
    | _ => exact .done Setting.Stable.true trivial

private theorem watcher_react {pid : Pid} {handler : ForegroundHandler} {signal : Option Signal} {k : Kernel}
    (masked : k.Masked) (known : signal ≠ some .sigchld → k.Alert) :
    (Kernel.watcher supervisor).Safe (react pid handler signal).run (fun
      | .ok (.inl again) => fun k => again = false ∧ k.Alert
      | _ => fun _ => True) k := by
  have again : (Kernel.watcher supervisor).Stable fun k => false = false ∧ k.Alert :=
    fun k k' held moved => ⟨rfl,stable_alert k k' held.2 moved⟩
  have passes (signal : Signal) (alert : k.Alert) : (Kernel.watcher supervisor).Safe (do
      discard (.kill (-pid) signal)
      return .inl false : M (Bool ⊕ Int)).run (fun
        | .ok (.inl again) => fun k => again = false ∧ k.Alert
        | _ => fun _ => True) k :=
    Fallible.safe_lift ((watcher_alert (uses_discard rfl) alert).mono fun _ k alert => .done again ⟨rfl,alert⟩)
  match signal with
  | none => exact .done again ⟨rfl,known (by simp)⟩
  | some signal =>
    by_cases chld : signal = .sigchld
    · subst chld
      refine Fallible.safe_bind (fun _ => Setting.Stable.true) ((watcher_reap masked).mono fun result k reached => ?_)
      match result with
      | .error error => trivial
      | .ok none => exact .done again ⟨rfl,reached⟩
      | .ok (some code) => exact .done Setting.Stable.true trivial
    · have alert : k.Alert := known (by simp [chld])
      cases signal <;> first | contradiction | exact passes _ alert

/-- The first round needs no signal to ask for the reports on the child. -/
private theorem watcher_watch {pid : Pid} {signals : SignalReceiver} {handler : ForegroundHandler} {k : Kernel}
    (masked : k.Masked) : (Kernel.watcher supervisor).Safe (watch pid signals handler).run (fun _ _ => True) k := by
  have initial (initiate : Bool) : (Kernel.watcher supervisor).Stable
      fun k => k.Masked ∧ (initiate = false → k.Alert) :=
    fun k k' held moved => ⟨stable_masked k k' held.1 moved,fun is => stable_alert k k' (held.2 is) moved⟩
  refine Fallible.safe_iterate initial (fun _ => Setting.Stable.true) ⟨masked,fun is => nomatch is⟩ ?_
  intro initiate k held
  cases initiate with
  | true =>
    refine (watcher_react held.1 (fun other => absurd rfl other)).mono fun result k reached => ?_
    rcases result with error | again | code
    · trivial
    · exact ⟨reached.2.1,fun _ => reached.2⟩
    · trivial
  | false =>
    refine Fallible.safe_bind (fun _ => Setting.Stable.true) ((watcher_wait (held.2 rfl)).mono fun result k read => ?_)
    cases result with
    | error error => trivial
    | ok event =>
      refine (watcher_react read.1 read.2).mono fun result k reached => ?_
      rcases result with error | again | code
      · trivial
      · exact ⟨reached.2.1,fun _ => reached.2⟩
      · trivial

private theorem stable_wellFormed : (Kernel.watcher supervisor).Stable Kernel.WellFormed :=
  stable_watcher (fun _ _ wf happened => wf.happens happened) fun _ _ _ _ wf taken => wf.step taken

private theorem watcher_wellFormed {α : Type} {p : Calls α} (used : p.Uses fun event => isPoll event = false)
    {k : Kernel} (wf : k.WellFormed) : (Kernel.watcher supervisor).Safe p (fun _ => Kernel.WellFormed) k := by
  refine Setting.Safe.uses used stable_wellFormed wf ?_ fun _ _ _ _ wf _ taken => wf.step taken
  intro k event _ other is
  rw [other] at is
  cases is

private theorem watcher_receiverDrop (receiver : SignalReceiver) (k : Kernel) :
    (Kernel.watcher supervisor).Safe receiver.drop (fun _ _ => True) k := by
  refine watcher_any (uses_receiverDrop (fun event about => ?_) (fun _ => rfl) receiver) k
  cases event <;> first | rfl | simp [About,Call.topic,watchTopics] at about

private theorem watcher_watchProcess {pid : Pid} {endpoint : ForkEndpoint} {k : Kernel} (wf : k.WellFormed) :
    (Kernel.watcher supervisor).Safe (watchProcess pid endpoint).run (fun _ _ => True) k := by
  have pipes (event : Call) (about : About [.pipes] event) : isPoll event = false := (pipes_quiet about).1
  have installed : (Kernel.watcher supervisor).Safe (watchInstall pid).run (fun
      | .ok _ => Kernel.Masked
      | .error _ => fun _ => True) k := by
    refine Fallible.safe_bind (fun _ => Setting.Stable.true) ((watcher_install (by decide) wf).mono ?_)
    intro result k masked
    cases result with
    | error error => trivial
    | ok signals =>
      have rest : (Kernel.watcher supervisor).Safe (do
          let handler ← ForegroundHandler.install pid
          Fallible.releasingOnError handler.drop do
            orFail (← ask (.setpgid pid pid))
            return (signals,handler) : M (SignalReceiver × ForegroundHandler)).run (fun _ => Kernel.Masked) k := by
        refine watcher_masked (Fallible.Uses.bind (uses_handlerInstall (fun _ => terminal_quiet)
          (fun _ => ⟨rfl,rfl⟩) pid) fun handler => ?_) masked
        refine .releasingOnError (uses_handlerDrop (fun _ => terminal_quiet) (fun _ => ⟨rfl,rfl⟩) handler) ?_
        exact .bind (.ask ⟨rfl,rfl⟩) fun set => .bind (uses_orFail set) fun _ => trivial
      refine Fallible.safe_releasingOnError ?_ (rest.mono fun result k masked => ?_)
      · rintro (error | installed)
        · exact Setting.Stable.true
        · exact stable_masked
      cases result with
      | error error => exact watcher_receiverDrop signals k
      | ok installed => exact masked
  refine Fallible.safe_bind (fun _ => Setting.Stable.true) (Fallible.safe_releasingOnError ?_ (installed.mono ?_))
  · rintro (error | installed)
    · exact Setting.Stable.true
    · exact Setting.Safe.stable _ _
  intro result k masked
  cases result with
  | error error => exact watcher_any ((uses_endpointDrop endpoint).mono pipes) k
  | ok installed =>
    obtain ⟨signals,handler⟩ := installed
    refine Fallible.safe_releasing (fun _ => Setting.Stable.true) ?_
    refine Fallible.safe_lift ((watcher_masked (uses_ignoring ((uses_readyAndWait endpoint).mono
      fun _ => pipes_quiet)) masked).mono fun _ k masked => ?_)
    refine (watcher_watch masked).mono fun _ k _ => ?_
    refine .bind ((watcher_any (uses_handlerDrop (fun _ about => (terminal_quiet about).1) (fun _ => rfl) handler)
      k).mono fun _ k _ => watcher_receiverDrop signals k)

private theorem watcher_supervisorSide {run : Invocation} {prepared : Prepared} {handle : PamHandle} {child : Pid}
    {k : Kernel} (wf : k.WellFormed) :
    (Kernel.watcher supervisor).Safe (supervisorSide run prepared handle child).run (fun _ _ => True) k := by
  have drops (fd : Option Fd) : (Descriptor.drop fd).Uses fun event => isPoll event = false :=
    (uses_descriptorDrop fd).mono fun _ about => (pipes_quiet about).1
  have ends (code : Int) (k : Kernel) : (Kernel.watcher supervisor).Safe (do
      handle.drop
      run.launch prepared (← exit code) : M Unit).run (fun _ _ => True) k := by
    refine Fallible.safe_lift ((watcher_any ((PamHandle.uses_drop handle).mono fun event about => ?_) k).mono ?_)
    · cases event <;> first | rfl | simp [About,Call.topic,PamHandle.pamTopics] at about
    · exact fun _ k _ => .call Setting.Stable.true trivial (polls_not rfl) fun _ never => never.elim
  unfold supervisorSide authParent
  simp only [bind_assoc]
  refine Fallible.safe_lift (.bind ((watcher_wellFormed (drops _) wf).mono fun _ k wf => ?_))
  refine .bind ((watcher_wellFormed (drops _) wf).mono fun _ k wf => .done (Setting.Safe.stable _ _) ?_)
  have watched : (Kernel.watcher supervisor).Safe (watchProcess child ⟨ForkSync.fresh.parentWrite,
      ForkSync.fresh.parentRead,false⟩).run (fun _ _ => True) k := watcher_watchProcess wf
  refine Fallible.safe_lift (watched.mono fun result k _ => ?_)
  cases result with
  | ok code =>
    simp only [bind_assoc,pure_bind]
    exact ends code k
  | error error =>
    simp only [bind_assoc,pure_bind]
    refine Fallible.safe_ask Setting.Stable.true trivial ?_ fun _ _ k _ _ => ends 1 k
    exact polls_not rfl

/-! The askpass helper. -/

private theorem watcher_helperReap {child : Pid} {state : HelperState} {k : Kernel} (masked : k.Masked) :
    (Kernel.watcher supervisor).Safe (Fallible.iterate (helperReapRound child) state).run (fun
      | .ok _ => Kernel.Alert
      | .error _ => fun _ => True) k := by
  refine Fallible.safe_iterate (I := fun _ => Kernel.Masked) (fun _ => stable_masked) ?_ masked ?_
  · rintro (error | state)
    · exact Setting.Stable.true
    · exact stable_alert
  intro state k masked
  refine Fallible.safe_ask stable_masked masked (polls_not rfl) fun k answer k' masked taken => ?_
  obtain ⟨masked,alert⟩ := masked.waited taken
  match answer with
  | .ok (.exited code) => exact .done stable_alert alert
  | .ok (.signaled signal) => exact .done stable_alert alert
  | .ok (.stopped signal) => exact .done stable_masked masked
  | .ok .continued => exact .done stable_masked masked
  | .ok .stillAlive => exact .done stable_alert alert
  | .error error => cases error with
    | eintr => exact .done stable_masked masked
    | _ => exact .done Setting.Stable.true trivial

private theorem watcher_helperReact {child : Pid} {state : HelperState} {event : SignalEvent} {k : Kernel}
    (read : Dequeued event k) : (Kernel.watcher supervisor).Safe (helperReact child state event).run (fun
      | .ok _ => Kernel.Alert
      | .error _ => fun _ => True) k := by
  unfold helperReact
  cases known : event.signal with
  | none => exact .done Setting.Stable.true trivial
  | some signal =>
    by_cases chld : signal = .sigchld
    · subst chld
      exact watcher_helperReap read.1
    · have alert : k.Alert := read.2 (by simp [known,chld])
      have passes (signal : Signal) : (Kernel.watcher supervisor).Safe (do
          discard (.kill (-child) signal)
          return state : M HelperState).run (fun
            | .ok _ => Kernel.Alert
            | .error _ => fun _ => True) k :=
        Fallible.safe_lift ((watcher_alert (uses_discard rfl) alert).mono fun _ k alert => .done stable_alert alert)
      cases signal <;> first | contradiction | exact passes _

private theorem prompt_quiet (prompt : Prompt) (count : Nat) :
    Fallible.Uses (fun event => Kernel.touchesSignals event = false) (prompt.read count) := by
  refine .iterate fun _ => .bind (.ask rfl) fun answer => ?_
  split
  · trivial
  · trivial
  · dsimp only
    split
    · trivial
    · split
      · trivial
      · split
        · trivial
        · split
          · refine .bind (.ask rfl) fun answer => ?_
            split <;> trivial
          · split <;> trivial

private theorem watcher_helperLoop {child : Pid} {signals : SignalReceiver} {prompt : Prompt} {k : Kernel}
    (alert : k.Alert) : (Kernel.watcher supervisor).Safe (helperLoop child signals prompt).run (fun _ _ => True) k := by
  refine Fallible.safe_iterate (I := fun _ => Kernel.Alert) (fun _ => stable_alert) (fun _ => Setting.Stable.true) alert ?_
  intro state k alert
  refine Fallible.safe_bind (fun _ => Setting.Stable.true)
    ((watcher_alert (prompt_quiet state.prompt 128) alert).mono fun result k alert => ?_)
  rcases result with error | ⟨chunk,prompt⟩
  · trivial
  cases chunk with
  | some chunk =>
    dsimp only
    split
    · exact .done Setting.Stable.true trivial
    · exact .done stable_alert alert
  | none =>
    refine Fallible.safe_bind (fun _ => Setting.Stable.true) ((watcher_read alert).mono fun result k read => ?_)
    match result with
    | .error error => trivial
    | .ok none => exact .done stable_alert read
    | .ok (some event) =>
      refine Fallible.safe_bind (fun _ => Setting.Stable.true) ((watcher_helperReact read).mono fun result k alert => ?_)
      cases result with
      | error error => trivial
      | ok state =>
        dsimp only
        split
        · exact .done Setting.Stable.true trivial
        · exact .done stable_alert alert

/-- The parent has let go of the read end of its own pipe: only the child can still
read from it. -/
private def Alone (k : Kernel) : Prop := k.Masked ∧ k.pipes.holds .parent .parent .read = false

private theorem Alone.quiet {s : Side} {k k' : Kernel} {event : Call} {answer : Answer event} (alone : Alone k)
    (quiet : s = .child ∨ Kernel.touchesSignals event = false) (taken : Kernel.step supervisor s k event answer k') :
    Alone k' := by
  refine ⟨alone.1.quiet quiet taken,?_⟩
  have shut := alone.2
  rw [Bool.eq_false_iff] at shut ⊢
  exact fun held => shut ((Kernel.step_moves taken).less held)

private theorem stable_alone_reader : (Kernel.watcher supervisor).Stable Alone := by
  refine stable_watcher (fun k k' alone happened => ⟨alone.1.happens happened,?_⟩)
    fun _ _ _ _ alone taken => alone.quiet (.inl rfl) taken
  have shut := alone.2
  rw [Bool.eq_false_iff] at shut ⊢
  exact fun held => shut ((Kernel.happens_frame happened .parent).less _ _ _ held)

/-- A byte that is written is one the child can still read, so it has not ended. -/
private theorem watcher_writeByte {k : Kernel} {value : UInt8} (alone : Alone k) :
    (Kernel.watcher supervisor).Safe (Descriptor.writeByte (.pipe (.status .parent) .write) value).run (fun
      | .ok () => Kernel.Alert
      | .error _ => fun _ => True) k := by
  refine Fallible.safe_iterate (I := fun _ => Alone) (fun _ => stable_alone_reader) ?_ alone ?_
  · rintro (error | ⟨⟩)
    · exact Setting.Stable.true
    · exact stable_alert
  intro _ k alone
  refine .call stable_alone_reader alone (polls_not rfl) fun k answer k' alone taken => ?_
  have stays : Alone k' := alone.quiet (.inr rfl) taken
  cases answer with
  | error error => cases error with
    | eintr => exact .done stable_alone_reader stays
    | _ => exact .done Setting.Stable.true trivial
  | ok count =>
    have alert : k'.Alert := by
      obtain ⟨_,_,reads⟩ := taken.2.1
      refine ⟨stays.1,fun ended => ?_⟩
      rw [Kernel.step_ending taken] at ended
      have held := alone.1.1.gone .child (alone.1.1.ended.mpr ended) .parent .read
      rw [Pipes.open?,held,alone.2] at reads
      cases reads
    match count with
    | 0 => exact .done Setting.Stable.true trivial
    | 1 => exact .done stable_alert alert
    | count+2 => exact .done Setting.Stable.true trivial

private theorem watcher_intoParent {k : Kernel} (masked : k.Masked) :
    (Kernel.watcher supervisor).Safe ForkSync.fresh.intoParent (fun endpoint k =>
      endpoint = ⟨ForkSync.fresh.parentWrite,ForkSync.fresh.parentRead,false⟩ ∧ Alone k) k := by
  have ends : (Kernel.watcher supervisor).Stable fun k =>
      ForkEndpoint.mk ForkSync.fresh.parentWrite ForkSync.fresh.parentRead false =
        ⟨ForkSync.fresh.parentWrite,ForkSync.fresh.parentRead,false⟩ ∧ Alone k :=
    fun k k' held moved => ⟨rfl,stable_alone_reader k k' held.2 moved⟩
  refine .call stable_masked masked (polls_not rfl) fun k answer k' masked taken => ?_
  have masked : k'.Masked := masked.quiet (.inr rfl) taken
  refine .call stable_masked masked (polls_not rfl) fun k answer k' masked taken => ?_
  refine .done ends ⟨rfl,masked.quiet (.inr rfl) taken,?_⟩
  rw [Kernel.step_pipes taken]
  simp [Kernel.after,Pipes.close]

private theorem watcher_readyAndWait {k : Kernel} (alone : Alone k) :
    (Kernel.watcher supervisor).Safe (ForkEndpoint.mk ForkSync.fresh.parentWrite ForkSync.fresh.parentRead
      false).readyAndWait.run (fun
        | .ok _ => Kernel.Alert
        | .error _ => fun _ => True) k := by
  have quiet (event : Call) (about : About [.pipes] event) : Kernel.touchesSignals event = false := (pipes_quiet about).2
  have dropped (endpoint : ForkEndpoint) (k : Kernel) :
      (Kernel.watcher supervisor).Safe endpoint.drop (fun _ _ => True) k :=
    watcher_any ((uses_endpointDrop endpoint).mono fun _ about => (pipes_quiet about).1) k
  refine Fallible.safe_bind (fun _ => Setting.Stable.true) (Fallible.safe_releasingOnError ?_ ?_)
  · rintro (error | endpoint)
    · exact Setting.Stable.true
    · exact Setting.Safe.stable _ _
  refine Fallible.safe_bind (fun _ => Setting.Safe.stable _ _) ((watcher_writeByte alone).mono fun result k sent => ?_)
  cases result with
  | error error => exact dropped _ k
  | ok =>
    refine Fallible.safe_lift ((watcher_alert ((uses_descriptorDrop _).mono quiet) sent).mono fun _ k alert => ?_)
    refine .done (Setting.Safe.stable _ _) ?_
    refine (watcher_alert (Fallible.Uses.bind (.releasingOnError ((uses_endpointDrop _).mono quiet)
      ((uses_awaitStatus _).mono quiet)) fun decision => .bind (.lift ((uses_descriptorDrop _).mono quiet))
        fun _ => .pure decision) alert).mono fun result k alert => ?_
    cases result with
    | error error => trivial
    | ok decision => exact alert

private theorem helperResult_silent (state : HelperState) :
    Fallible.Uses (fun event => isPoll event = false) (helperResult state) := by
  unfold helperResult
  split
  · trivial
  · dsimp only
    split
    · trivial
    · split
      · trivial
      · split <;> trivial

private theorem watcher_helperParent {child : Pid} {k : Kernel} (wf : k.WellFormed) :
    (Kernel.watcher supervisor).Safe (helperParent child ForkSync.fresh).run (fun _ _ => True) k := by
  have installed : (Kernel.watcher supervisor).Safe (helperInstall child).run (fun
      | .ok _ => Kernel.Masked
      | .error _ => fun _ => True) k := by
    refine Fallible.safe_ask stable_wellFormed wf (polls_not rfl) fun k answer k' wf taken => ?_
    cases answer with
    | error error => exact .done Setting.Stable.true trivial
    | ok =>
      refine Fallible.safe_ask stable_wellFormed (wf.step taken) (polls_not rfl) fun k answer k' wf taken => ?_
      cases answer with
      | error error => exact .done Setting.Stable.true trivial
      | ok =>
        have chld : Signal.sigchld ∈ helperSignals := by decide
        exact watcher_install chld (wf.step taken)
  have drops (fd : Option Fd) : (Descriptor.drop fd).Uses fun event => isPoll event = false :=
    (uses_descriptorDrop fd).mono fun _ about => (pipes_quiet about).1
  refine Fallible.safe_bind (Q := fun _ _ => True) (fun _ => Setting.Stable.true) (Fallible.safe_releasingOnError ?_ ?_)
  · rintro (error | signals)
    · exact Setting.Stable.true
    · exact Setting.Safe.stable _ _
  refine installed.mono fun result k masked => ?_
  cases result with
  | error error =>
    exact watcher_any (Program.Uses.bind (drops _) fun _ => Program.Uses.bind (drops _) fun _ =>
      Program.Uses.bind (drops _) fun _ => drops _) k
  | ok signals =>
    refine Fallible.safe_releasing (fun _ => Setting.Stable.true) ?_
    have released (prompt : Prompt) (k : Kernel) :
        (Kernel.watcher supervisor).Safe (do prompt.drop; signals.drop) (fun _ _ => True) k :=
      .bind ((watcher_any (uses_promptDrop rfl (fun _ => rfl) fun _ => rfl) k).mono fun _ k _ => watcher_receiverDrop signals k)
    have ends : (Kernel.watcher supervisor).Stable ((Kernel.watcher supervisor).Safe (do
        (Prompt.new (.pipe .passwd .read) (.pipe .passwd .read) signals.fd true).drop
        signals.drop) fun _ _ => True) := Setting.Safe.stable _ _
    refine Fallible.safe_lift ((watcher_intoParent masked).mono fun endpoint k held => ?_)
    obtain ⟨rfl,alone⟩ := held
    refine Fallible.safe_bind (fun _ => ends) ((watcher_readyAndWait alone).mono fun result k alert => ?_)
    cases result with
    | error error => exact released _ k
    | ok decision =>
      cases decision with
      | abort => exact .done ends (released _ k)
      | «continue» =>
        refine Fallible.safe_bind (fun _ => ends) ((watcher_helperLoop alert).mono fun result k _ => ?_)
        cases result with
        | error error => exact released _ k
        | ok state =>
          exact (watcher_any (helperResult_silent state) k).mono fun _ k _ => released _ k

end

/-- While the parent polls, no end of the child goes unnoticed. -/
def PollsNoticed {α β : Type} (c : Config Call Answer α β Kernel) : Prop :=
  ∀ fds, c.left.pending = some (.poll fds) → c.state.Noticed

/-- What a fork leaves, with a SIGCHLD of another child that may be pending. -/
def forkedBeside (blocked pending : Bool) : Kernel := { Kernel.forked blocked with pending := pending }

/-- Both event loops notice the end of the child, whatever it does and whenever it ends. -/
theorem child_exit_noticed (supervisor : Pid) (blocked pending : Bool) {β : Type} (child : Calls β) :
    (∀ (run : Invocation) (prepared : Prepared) (handle : PamHandle) (pid : Pid)
      (c : Config Call Answer (Except Error Unit) β Kernel), (Kernel.system supervisor).Reaches
        ⟨(supervisorSide run prepared handle pid).run,child,forkedBeside blocked pending⟩ c → PollsNoticed c) ∧
    ∀ (pid : Pid) (c : Config Call Answer (Except Error String) β Kernel), (Kernel.system supervisor).Reaches
      ⟨(helperParent pid ForkSync.fresh).run,child,forkedBeside blocked pending⟩ c → PollsNoticed c := by
  have forked := Kernel.wellFormed_forked blocked
  have wf : (forkedBeside blocked pending).WellFormed := ⟨forked.gone,forked.ended,forked.reaped,forked.buffered⟩
  constructor
  · intro run prepared handle pid c reached fds polls
    exact (reached.safe_left (watcher_supervisorSide wf)).pending polls rfl
  · intro pid c reached fds polls
    exact (reached.safe_left (watcher_helperParent wf)).pending polls rfl

private def waits : List CommandTurn :=
  [.left ⟨.waitpid 42,.ok .stillAlive⟩,.left ⟨.readSignal .signal,.ok none⟩,.event (.childEnds (.exited 3))]

private def helperWaits : List CommandTurn :=
  [.left ⟨.close (.pipe .passwd .write),.ok ()⟩,.left ⟨.setpgid 42 42,.ok ()⟩,
    .left ⟨.sigmask .block helperSignals,.ok []⟩,.left ⟨.signalfd helperSignals,.ok ()⟩,
    .left ⟨.close (.pipe (.status .child) .write),.ok ()⟩,.left ⟨.close (.pipe (.status .parent) .read),.ok ()⟩,
    .left ⟨.write (.pipe (.status .parent) .write) [statusReady],.ok 1⟩,
    .left ⟨.close (.pipe (.status .parent) .write),.ok ()⟩,
    .right ⟨.write (.pipe (.status .child) .write) [statusReady],.ok 1⟩,
    .left ⟨.read (.pipe (.status .child) .read) 1,.ok [statusReady]⟩,
    .left ⟨.close (.pipe (.status .child) .read),.ok ()⟩,.event (.childEnds (.exited 0))]

theorem child_exit_noticed_polling :
    (∃ c : CommandConfig, c.left.pending = some (.poll [some .signal]) ∧ c.state.ending = some (.exited 3) ∧
      PollsNoticed c) ∧
    ∃ c : Config Call Answer (Except Error String) Unit Kernel, c.left.pending =
      some (.poll [some .signal,some (.pipe .passwd .read)]) ∧ c.state.ending = some (.exited 0) ∧ PollsNoticed c := by
  constructor
  · have played : ∃ c : CommandConfig, play (Kernel.player 7) 10
        ⟨supervisorSide supervisedRun preparedId ⟨.none,0,true⟩ 42,commandSide supervisedRun preparedId ∅,
          forkedBeside false false⟩ (setUp ++ passBarrier ++ waits) = some c ∧
        c.left.pending = some (.poll [some .signal]) ∧ c.state.ending = some (.exited 3) := ⟨_,rfl,rfl,rfl⟩
    obtain ⟨c,played,polls,ended⟩ := played
    exact ⟨c,polls,ended,(child_exit_noticed 7 false false _).1 supervisedRun preparedId ⟨.none,0,true⟩ 42 c
      (play_sound _ _ played)⟩
  · have played : ∃ c : Config Call Answer (Except Error String) Unit Kernel, play (Kernel.player 7) 10
        ⟨helperParent 42 ForkSync.fresh,discard (.write (.pipe (.status .child) .write) [statusReady]),
          forkedBeside false false⟩ helperWaits = some c ∧
        (ahead 10 c.left).pending = some (.poll [some .signal,some (.pipe .passwd .read)]) ∧
        c.state.ending = some (.exited 0) := ⟨_,rfl,rfl,rfl⟩
    obtain ⟨c,played,polls,ended⟩ := played
    exact ⟨⟨ahead 10 c.left,c.right,c.state⟩,polls,ended,(child_exit_noticed 7 false false _).2 42 _
      ((play_sound _ _ played).trans (ahead_steps 10 c.left c.state).left)⟩

end Runas
