import Runas.Topics
import Runas.Interaction.Play

/-! The terminal between the shell and the supervised command: whom the supervisor takes
it from, whatever the shell does with the job meanwhile. -/
namespace Runas
open Interaction Text

/-- The foreground group of the terminal, and whether the supervisor is stopped. Kept beside
them is the group the supervisor found in front, and whether somebody else has put
one there since it last asked or changed it, and no resume in the foreground came after. -/
structure Job where
  front : Pid
  stopped : Bool
  found : Option Pid
  away : Bool
  deriving DecidableEq

/-- What happens to the job between two calls. A group is put in front by the shell, once the
supervisor has stopped or is in the background, or by the command for a job of its own. -/
inductive Act
  | stop
  | fg
  | bg
  | take (group : Pid)

namespace Job

def happen (own : Pid) (k : Job) : Act → Job
  | .stop => { k with stopped := true }
  | .fg => { k with front := own,stopped := false,away := false }
  | .bg => { k with stopped := false }
  | .take group => { k with front := group,away := true }

def after (k : Job) : (event : Call) → Answer event → Option Job
  | .tcgetpgrp _,.ok group => if group = k.front then some { k with found := some group,away := false } else none
  | .tcsetpgrp _ group,.ok () => some { k with front := group,away := false }
  | .raise .sigstop,.ok () => some { k with stopped := true }
  | _,_ => some k

/-- A stopped supervisor makes no call. -/
def perform (k : Job) (event : Call) (answer : Answer event) : Option Job :=
  if k.stopped then none else k.after event answer

def shell (own : Pid) : Environment Call Answer Job where
  left k event answer k' := k.perform event answer = some k'
  right _ _ _ _ := False
  event k k' := ∃ act,k.happen own act = k'

def player (own : Pid) : Player (shell own) Act where
  left := perform
  right _ _ _ := none
  event k act := some (k.happen own act)
  left_sound performed := performed
  right_sound performed := by cases performed
  event_sound happened := ⟨_,Option.some.inj happened⟩

/-- The terminal is with the supervisor, with its child, or where the supervisor found it,
unless somebody else has it. -/
def Near (own pid : Pid) (k : Job) : Prop :=
  k.away = false → k.front = own ∨ k.front = pid ∨ k.found = some k.front

def Guarded (own pid : Pid) (k : Job) : Call → Prop
  | .tcsetpgrp _ _ => k.Near own pid
  | _ => True

/-- What the handler gives and gives back is the child's group and the one it found. -/
def Held (own pid : Pid) (owned : Option (Fd × Pid × Pid)) (k : Job) : Prop :=
  ∀ terminal original child,owned = some (terminal,original,child) →
    child = pid ∧ k.found = some original ∧ k.Near own pid

/-- The calls of a supervisor that has its handler. -/
def Lends (owned : Option (Fd × Pid × Pid)) : Call → Prop
  | .tcgetpgrp _ => False
  | .tcsetpgrp _ group => ∃ terminal original child,owned = some (terminal,original,child) ∧
    (group = original ∨ group = child)
  | _ => True

section
variable {own pid : Pid} {owned : Option (Fd × Pid × Pid)} {k : Job}

private abbrev jobSetting (own pid : Pid) : Setting Call Answer Job :=
  (shell own).leftSetting (Guarded own pid) fun _ _ => True

theorem near_happen (near : k.Near own pid) (act : Act) : (k.happen own act).Near own pid := by
  intro still
  cases act with
  | stop | bg => exact near still
  | fg => exact .inl rfl
  | take group => cases still

theorem found_happen (act : Act) : (k.happen own act).found = k.found := by
  cases act <;> rfl

private theorem stable_job {P : Job → Prop} (keeps : ∀ k act,P k → P (k.happen own act)) :
    (jobSetting own pid).Stable P := by
  intro k k' holds moved
  rcases moved with happened | allowed
  · obtain ⟨act,rfl⟩ := happened
    exact keeps k act holds
  · obtain ⟨_,_,_,never⟩ := allowed
    exact never.elim

theorem held_none (k : Job) : k.Held own pid none := fun _ _ _ same => by cases same

private theorem stable_held : (jobSetting own pid).Stable (Held own pid owned) := by
  refine stable_job fun k act held terminal original child same => ?_
  obtain ⟨given,found,near⟩ := held terminal original child same
  exact ⟨given,(found_happen act).trans found,near_happen near act⟩

theorem perform_eq_some {event : Call} {answer : Answer event} {k' : Job}
    (performed : k.perform event answer = some k') : k.after event answer = some k' := by
  unfold perform at performed
  split at performed
  · cases performed
  · exact performed

/-- A call of the supervisor takes the terminal to where it knows it to be. -/
theorem held_after {event : Call} {answer : Answer event} {k' : Job} (held : k.Held own pid owned)
    (lends : Lends owned event) (taken : k.after event answer = some k') : k'.Held own pid owned := by
  intro terminal original child same
  obtain ⟨given,found,near⟩ := held terminal original child same
  cases event with
  | tcgetpgrp fd => exact lends.elim
  | tcsetpgrp fd group =>
    cases answer with
    | error error => cases taken; exact ⟨given,found,near⟩
    | ok =>
      cases taken
      refine ⟨given,found,fun _ => ?_⟩
      obtain ⟨_,_,_,known,lent⟩ := lends
      cases known.symm.trans same
      rcases lent with rfl | rfl
      · exact .inr (.inr found)
      · exact .inr (.inl given)
  | raise signal =>
    cases signal with
    | sigstop => cases answer <;> cases taken <;> exact ⟨given,found,near⟩
    | _ => cases taken; exact ⟨given,found,near⟩
  | _ => cases taken; exact ⟨given,found,near⟩

theorem guarded_lends {event : Call} (held : k.Held own pid owned) (lends : Lends owned event) :
    Guarded own pid k event := by
  cases event with
  | tcsetpgrp fd group =>
    obtain ⟨terminal,original,child,same,_⟩ := lends
    exact (held terminal original child same).2.2
  | _ => trivial

private theorem safe_held {α : Type} {p : Calls α} (used : p.Uses (Lends owned)) (held : k.Held own pid owned) :
    (jobSetting own pid).Safe p (fun _ => Held own pid owned) k :=
  Setting.Safe.uses used stable_held held (fun _ _ held lends => guarded_lends held lends)
    fun _ _ _ _ held lends taken => held_after held lends (perform_eq_some taken)

/-! What the supervisor calls once it has its handler. -/

theorem lends_about {event : Call} (other : event.topic ≠ .terminal) : Lends owned event := by
  cases event <;> trivial

theorem lends_within {topics : List Topic} (apart : Topic.terminal ∉ topics) {event : Call}
    (about : About topics event) : Lends owned event :=
  lends_about fun same => apart (same ▸ about)

section
variable {handler : ForegroundHandler}

theorem lends_toParent : handler.transferToParent.Uses (Lends handler.foregroundGroup) := by
  unfold ForegroundHandler.transferToParent
  split
  · trivial
  · next terminal original child known => exact uses_discard ⟨terminal,original,child,known,.inl rfl⟩

theorem lends_toChild : handler.transferToChild.Uses (Lends handler.foregroundGroup) := by
  unfold ForegroundHandler.transferToChild
  split
  · trivial
  · next terminal original child known => exact uses_discard ⟨terminal,original,child,known,.inr rfl⟩

theorem lends_handlerDrop : handler.drop.Uses (Lends handler.foregroundGroup) :=
  Program.Uses.bind lends_toParent fun _ => uses_discard trivial

theorem lends_receiverDrop (signals : SignalReceiver) : signals.drop.Uses (Lends owned) :=
  Program.Uses.bind (uses_discard trivial) fun _ => uses_discard trivial

theorem lends_reapRound (pid : Pid) : Fallible.Uses (Lends handler.foregroundGroup) (reapRound pid handler) := by
  refine .bind (.ask trivial) fun answer => ?_
  split
  · trivial
  · trivial
  · next signal =>
    exact .bind (.lift (uses_suspend lends_toParent lends_toChild (fun _ => trivial) trivial trivial signal))
      fun _ => trivial
  all_goals trivial

theorem lends_react (pid : Pid) (signal : Option Signal) :
    Fallible.Uses (Lends handler.foregroundGroup) (react pid handler signal) := by
  unfold react
  split
  · trivial
  · refine .bind (.iterate fun _ => lends_reapRound pid) fun code => ?_
    cases code <;> trivial
  · exact .bind (.lift (uses_discard trivial)) fun _ => trivial

theorem lends_watch (pid : Pid) (signals : SignalReceiver) :
    Fallible.Uses (Lends handler.foregroundGroup) (watch pid signals handler) := by
  refine .iterate fun initiate => ?_
  unfold watchRound
  split
  · exact lends_react pid _
  · refine .bind ((uses_receiverWait signals).mono fun _ => lends_within (by decide)) fun event => ?_
    exact lends_react pid _

end

/-! The supervisor from its start. -/

/-- The result of a part that sets the handler up. -/
def HeldBy {α : Type} (own pid : Pid) (handler : α → ForegroundHandler) : Except Error α → Job → Prop
  | .ok value => Held own pid (handler value).foregroundGroup
  | .error _ => fun _ => True

private theorem stable_any : (jobSetting own pid).Stable fun _ => True := Setting.Stable.true

private theorem stable_heldBy {α : Type} (handler : α → ForegroundHandler) (result : Except Error α) :
    (jobSetting own pid).Stable (HeldBy own pid handler result) := by
  cases result with
  | ok value => exact stable_held
  | error error => exact stable_any

private theorem safe_apart {α : Type} {p : Calls α} {topics : List Topic} (used : p.Uses (About topics))
    (apart : Topic.terminal ∉ topics) : (jobSetting own pid).Safe p (fun _ _ => True) k := by
  refine Setting.Safe.uses used stable_any trivial ?_ fun _ _ _ _ _ _ _ => trivial
  intro k event _ about
  cases event with
  | tcsetpgrp fd group => exact absurd about apart
  | _ => trivial

private theorem safe_handlerInstall :
    (jobSetting own pid).Safe (ForegroundHandler.install pid).run (HeldBy own pid id) k := by
  refine Fallible.safe_ask stable_any trivial (fun _ _ => trivial) fun k answer k' _ _ => ?_
  cases answer with
  | error error => exact .done stable_any trivial
  | ok previous =>
    refine Fallible.safe_ask stable_any trivial (fun _ _ => trivial) fun k answer k' _ taken => ?_
    cases answer with
    | error error => exact .done stable_held (held_none _)
    | ok original =>
      have taken := perform_eq_some taken
      simp only [after,Option.ite_none_right_eq_some,Option.some.injEq] at taken
      obtain ⟨rfl,rfl⟩ := taken
      -- The group in front is known from here on, before the handler has changed it.
      have found : Held own pid (some (.stdin,k.front,pid)) { k with found := some k.front,away := false } := by
        intro terminal original child same
        cases same
        exact ⟨rfl,rfl,fun _ => .inr (.inr rfl)⟩
      refine Fallible.safe_ask stable_held found (fun k held => (held _ _ _ rfl).2.2) fun _ answer _ held taken => ?_
      cases answer with
      | error error => exact .done stable_held (held_none _)
      | ok =>
        have lends : Lends (some (.stdin,k.front,pid)) (.tcsetpgrp .stdin pid) := ⟨_,_,_,rfl,.inr rfl⟩
        exact .done stable_held (held_after held lends (perform_eq_some taken))

private theorem safe_watchInstall :
    (jobSetting own pid).Safe (watchInstall pid).run (HeldBy own pid Prod.snd) k := by
  have ends : ∀ result : Except Error (SignalReceiver × ForegroundHandler),
      (jobSetting own pid).Stable (HeldBy own pid Prod.snd result) := stable_heldBy Prod.snd
  refine Fallible.safe_bind (fun _ => stable_any)
    ((safe_apart (uses_receiverInstall _) (by decide)).mono fun result k _ => ?_)
  cases result with
  | error error => trivial
  | ok signals =>
    have released (k : Job) : (jobSetting own pid).Safe signals.drop (fun _ _ => True) k :=
      (safe_held (lends_receiverDrop signals) (held_none k)).mono fun _ _ _ => trivial
    refine Fallible.safe_releasingOnError ends ?_
    refine Fallible.safe_bind (fun _ => Setting.Safe.stable _ _) (safe_handlerInstall.mono fun result k held => ?_)
    cases result with
    | error error => exact released k
    | ok handler =>
      refine Fallible.safe_releasingOnError (fun result => ?_) ?_
      · cases result with
        | ok installed => exact ends (.ok installed)
        | error error => exact Setting.Safe.stable _ _
      · refine Fallible.safe_ask stable_held held (fun _ _ => trivial) fun k answer k' held taken => ?_
        have lends : Lends handler.foregroundGroup (.setpgid pid pid) := trivial
        have held := held_after held lends (perform_eq_some taken)
        cases answer with
        | ok => exact .done stable_held held
        | error error =>
          exact .done (Setting.Safe.stable _ _) ((safe_held lends_handlerDrop held).mono fun _ k _ => released k)

private theorem safe_watchProcess (endpoint : ForkEndpoint) :
    (jobSetting own pid).Safe (watchProcess pid endpoint).run (fun _ _ => True) k := by
  have installed : (jobSetting own pid).Safe (Fallible.releasingOnError endpoint.drop (watchInstall pid)).run
      (HeldBy own pid Prod.snd) k := by
    refine Fallible.safe_releasingOnError (stable_heldBy Prod.snd) (safe_watchInstall.mono fun result k held => ?_)
    cases result with
    | ok installed => exact held
    | error error => exact safe_apart (uses_endpointDrop endpoint) (by decide)
  refine Fallible.safe_bind (fun _ => stable_any) (installed.mono fun result k held => ?_)
  cases result with
  | error error => trivial
  | ok installed =>
    obtain ⟨signals,handler⟩ := installed
    have barrier : Program.Uses (Lends handler.foregroundGroup) (ignoring endpoint.readyAndWait) :=
      uses_ignoring ((uses_readyAndWait endpoint).mono fun _ => lends_within (by decide))
    refine Fallible.safe_releasing (fun _ => stable_any) ?_
    refine (safe_held (Fallible.Uses.bind (.lift barrier) fun _ => lends_watch pid signals) held).mono fun _ k held => ?_
    exact (safe_held (.bind lends_handlerDrop fun _ => lends_receiverDrop signals) held).mono fun _ _ _ => trivial

end

/-- The terminal is taken only from the supervisor, from its child, or from where the handler
found it, unless somebody else has put a group in front since. -/
theorem terminal_taken (own pid : Pid) (endpoint : ForkEndpoint) (start : Job)
    {c : Config Call Answer (Except Error Int) Unit Job}
    (reached : (shell own).Reaches ⟨(watchProcess pid endpoint).run,.done (),start⟩ c) {fd : Fd} {group : Pid}
    (changes : c.left.pending = some (.tcsetpgrp fd group)) (still : c.state.away = false) :
    c.state.front = own ∨ c.state.front = pid ∨ c.state.found = some c.state.front :=
  (reached.safe_left (safe_watchProcess endpoint)).pending changes still

private abbrev WatchConfig := Config Call Answer (Except Error Int) Unit Job

private def startedIn (front : Pid) : WatchConfig :=
  ⟨(watchProcess 42 ⟨ForkSync.fresh.parentWrite,ForkSync.fresh.parentRead,false⟩).run,.done (),⟨front,false,none,false⟩⟩

private abbrev JobTurn := Turn Call Answer Act

private def findsFront (front : Pid) : List JobTurn :=
  [.left ⟨.sigmask .block receivedSignals,.ok []⟩,.left ⟨.signalfd receivedSignals,.ok ()⟩,
    .left ⟨.sigaction .sigttou .ignore,.ok .default⟩,.left ⟨.tcgetpgrp .stdin,.ok front⟩]

private def childStops : List JobTurn :=
  [.left ⟨.tcsetpgrp .stdin 42,.ok ()⟩,.left ⟨.setpgid 42 42,.ok ()⟩,
    .left ⟨.write (.pipe (.status .parent) .write) [statusReady],.ok 1⟩,
    .left ⟨.close (.pipe (.status .parent) .write),.ok ()⟩,
    .left ⟨.read (.pipe (.status .child) .read) 1,.ok [statusReady]⟩,
    .left ⟨.close (.pipe (.status .child) .read),.ok ()⟩,.left ⟨.waitpid 42,.ok (.stopped .sigtstp)⟩,
    .left ⟨.eprint "child stopped by SIGTSTP",()⟩,.left ⟨.tcsetpgrp .stdin 10,.ok ()⟩,
    .left ⟨.raise .sigstop,.ok ()⟩,.event (.take 7)]

theorem terminal_taken_resumed : ∃ c : WatchConfig, c.left.pending = some (.tcsetpgrp .stdin 42) ∧
    (c.state.front = 10 ∨ c.state.front = 42 ∨ c.state.found = some c.state.front) := by
  have played : ∃ c : WatchConfig, play (player 10) 10 (startedIn 10)
      (findsFront 10 ++ childStops ++ [.event .fg]) = some c ∧
      c.left.pending = some (.tcsetpgrp .stdin 42) ∧ c.state.away = false := ⟨_,rfl,rfl,rfl⟩
  obtain ⟨c,played,changes,still⟩ := played
  exact ⟨c,changes,terminal_taken 10 42 _ _ (play_sound _ _ played) changes still⟩

/-- Started in the background, or resumed there after a stop, it takes the terminal from the shell. -/
theorem background_takes : ∃ c d : WatchConfig,
    ((shell 10).Reaches (startedIn 7) c ∧ c.left.pending = some (.tcsetpgrp .stdin 42) ∧ c.state.front = 7) ∧
    (shell 10).Reaches (startedIn 10) d ∧ d.left.pending = some (.tcsetpgrp .stdin 42) ∧ d.state.front = 7 := by
  have started : ∃ c : WatchConfig, play (player 10) 10 (startedIn 7) (findsFront 7) = some c ∧
      c.left.pending = some (.tcsetpgrp .stdin 42) ∧ c.state.front = 7 := ⟨_,rfl,rfl,rfl⟩
  have resumed : ∃ d : WatchConfig, play (player 10) 10 (startedIn 10)
      (findsFront 10 ++ childStops ++ [.event .bg]) = some d ∧
      d.left.pending = some (.tcsetpgrp .stdin 42) ∧ d.state.front = 7 := ⟨_,rfl,rfl,rfl⟩
  obtain ⟨c,started,first⟩ := started
  obtain ⟨d,resumed,second⟩ := resumed
  exact ⟨c,d,⟨play_sound _ _ started,first⟩,play_sound _ _ resumed,second⟩

end Job

end Runas
