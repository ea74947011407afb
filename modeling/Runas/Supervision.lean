import Runas.Session

/-! The watch over the command as a process that answers: each signal it is given and
each report on the child calls for certain actions, and it does these and no others,
in the order asked for. -/
namespace Runas
open Interaction Text

abbrev History := List (Exchange Call Answer)

def passes (group : Pid) : Exchange Call Answer → Pid
  | ⟨.tcsetpgrp _ given,.ok ()⟩ => given
  | _ => group

def owner (original : Pid) (h : History) : Pid := h.foldl passes original

def lends : Exchange Call Answer → Bool
  | ⟨.tcsetpgrp _ _,.ok ()⟩ => true
  | _ => false

def lent (h : History) : Bool := h.any lends

/-- No call of the supervisor fails, but for an interruption; that there is no terminal
to take is no failure, and neither is one of the barrier, which is passed over. -/
def Faultless (original : Pid) (h : History) : (event : Call) → Answer event → Prop
  | .tcgetpgrp _,.ok group => group = owner original h
  | .tcsetpgrp _ _,.error _ => lent h = false
  | .waitpid _,.error error => error = .eintr
  | .sigmask _ _,.error _ | .signalfd _,.error _ | .sigaction _ _,.error _ | .setpgid _ _,.error _
  | .kill _ _,.error _ | .raise _,.error _ => False
  | event,answer => loopFails event answer = false

def acts : Call → Bool
  | .kill _ _ | .raise _ => true
  | _ => false

def forward (pid : Pid) : Option Signal → List Call
  | none => []
  | some .sigchld => []
  | some signal => [.kill (-pid) signal]

/-- What an answer calls for: a signal is passed on, and a stop of the child is followed
by one of the supervisor, after which the child goes on. -/
def demand (pid : Pid) : Exchange Call Answer → List Call
  | ⟨.readSignal _,.ok (some number)⟩ => forward pid (Signal.ofNumber? number)
  | ⟨.waitpid child,.ok (.stopped _)⟩ => if child = pid then [.raise .sigstop,.kill (-pid) .sigcont] else []
  | _ => []

def WaitStatus.termination : WaitStatus → Option Int
  | .exited code => some code
  | .signaled signal => some (128 + signal.number)
  | _ => none

def termination (pid : Pid) : Exchange Call Answer → Option Int
  | ⟨.waitpid child,.ok status⟩ => if child = pid then status.termination else none
  | _ => none

def inquires : Call → Bool
  | .readSignal _ | .waitpid _ | .poll _ => true
  | _ => false

def actions (h : History) : List Call := (h.map Sigma.fst).filter acts

/-- The owner of the terminal while the child runs. -/
def holder (original pid : Pid) (h : History) : Pid := if lent h then pid else original

/-- What holds whenever the supervisor makes a call: it only does what is called for and
has not been done yet, and all of that before it asks again, which it does only while
the child has not terminated. -/
structure Supervised (original pid : Pid) (h : History) (event : Call) : Prop where
  acts : acts event = true → actions h ++ [event] <+: h.flatMap (demand pid)
  prompt : inquires event = true → actions h = h.flatMap (demand pid)
  lives : inquires event = true → h.filterMap (termination pid) = []
  given : inquires event = true → owner original h = holder original pid h
  stops : event = .raise .sigstop → owner original h = original
  sends : ∀ group signal, event = .kill group signal → owner original h = holder original pid h

/-- What holds when the watch has ended. -/
structure Concluded (original pid : Pid) (h : History) (result : Except Error Int) : Prop where
  code : ∃ code, result = .ok code ∧ h.filterMap (termination pid) = [code]
  done : actions h = h.flatMap (demand pid)
  returned : owner original h = original

/-- The state of the watch: the actions that are due, the codes that have been reported,
and whether the terminal is back with its owner while the child stands still. -/
structure Watching (original pid : Pid) (group : Option (Fd × Pid × Pid)) (away : Bool) (due : List Call)
    (codes : List Int) (h : History) : Prop where
  taken : group = if lent h then some (.stdin,original,pid) else none
  acted : actions h ++ due = h.flatMap (demand pid)
  reported : h.filterMap (termination pid) = codes
  owned : owner original h = if away then original else holder original pid h

/-- A call that the watch need not account for. -/
def still : Call → Bool
  | .kill _ _ | .raise _ | .tcsetpgrp _ _ | .readSignal _ | .waitpid _ => false
  | _ => true

theorem lent_snoc (h : History) (x : Exchange Call Answer) : lent (h ++ [x]) = (lent h || lends x) := by
  rw [lent,List.any_append]
  simp [lent]

section
variable {original pid : Pid} {group : Option (Fd × Pid × Pid)} {away : Bool} {due : List Call}
  {codes : List Int} {h : History} {event : Call} {answer : Answer event}

private theorem passes_steady {x : Exchange Call Answer} (steady : lends x = false) (owned : Pid) :
    passes owned x = owned := by
  unfold passes
  split
  · cases steady
  · rfl

/-- An exchange that leaves the terminal alone: what was due and is done is due no
longer, and what it calls for is. -/
private theorem Watching.snoc {x : Exchange Call Answer} (steady : lends x = false)
    (watching : Watching original pid group away (actions [x] ++ due) codes h) :
    Watching original pid group away (due ++ demand pid x) (codes ++ (termination pid x).toList) (h ++ [x]) := by
  have lent : lent (h ++ [x]) = lent h := by rw [lent_snoc,steady,Bool.or_false]
  obtain ⟨taken,acted,reported,owned⟩ := watching
  refine ⟨?_,?_,?_,?_⟩
  · rw [lent]
    exact taken
  · have both : actions (h ++ [x]) = actions h ++ actions [x] := by simp [actions]
    rw [both,List.flatMap_append,← acted]
    simp
  · rw [List.filterMap_append,reported]
    cases known : termination pid x <;> simp [known]
  · rw [holder,lent,owner,List.foldl_append]
    exact (passes_steady steady _).trans owned

private theorem Watching.still (watching : Watching original pid group away due codes h) (quiet : still event = true) :
    Watching original pid group away due codes (h ++ [⟨event,answer⟩]) := by
  have lends : lends ⟨event,answer⟩ = false := by cases event <;> first | rfl | cases quiet
  have acts : actions [⟨event,answer⟩] = [] := by cases event <;> first | rfl | cases quiet
  have demand : demand pid ⟨event,answer⟩ = [] := by cases event <;> first | rfl | cases quiet
  have termination : termination pid ⟨event,answer⟩ = none := by cases event <;> first | rfl | cases quiet
  rw [← List.nil_append due,← acts] at watching
  simpa [demand,termination] using watching.snoc lends

private theorem Watching.act (watching : Watching original pid group away (event :: due) codes h)
    (active : acts event = true) : Watching original pid group away due codes (h ++ [⟨event,answer⟩]) := by
  have lends : lends ⟨event,answer⟩ = false := by cases event <;> first | rfl | cases active
  have acts : [event] = actions [⟨event,answer⟩] := by simp [actions,active]
  have demand : demand pid ⟨event,answer⟩ = [] := by cases event <;> first | rfl | cases active
  have termination : termination pid ⟨event,answer⟩ = none := by cases event <;> first | rfl | cases active
  rw [← List.singleton_append,acts] at watching
  simpa [demand,termination] using watching.snoc lends

private theorem Watching.pass {fd : Fd} {given : Pid} (back : Bool) (known : given = if back then original else pid)
    (watching : Watching original pid group away due codes h) :
    Watching original pid (some (.stdin,original,pid)) back due codes (h ++ [⟨.tcsetpgrp fd given,.ok ()⟩]) := by
  have lent : lent (h ++ [⟨.tcsetpgrp fd given,.ok ()⟩]) = true := by rw [lent_snoc,lends,Bool.or_true]
  obtain ⟨_,acted,reported,_⟩ := watching
  refine ⟨?_,?_,?_,?_⟩
  · rw [lent]
    rfl
  · simpa [actions,acts,demand] using acted
  · rw [List.filterMap_append,reported]
    exact List.append_nil _
  · rw [holder,lent]
    simp [owner,passes,known]

private theorem Watching.report (watching : Watching original pid group away [] [] h) (result : WaitStatus) :
    Watching original pid group away (demand pid ⟨.waitpid pid,.ok result⟩) result.termination.toList
      (h ++ [⟨.waitpid pid,.ok result⟩]) := by
  have ended : termination pid ⟨.waitpid pid,.ok result⟩ = result.termination := if_pos rfl
  rw [← ended]
  exact watching.snoc (x := ⟨.waitpid pid,.ok result⟩) rfl

private theorem Watching.dequeue (watching : Watching original pid group away [] codes h) (fd : Fd) (result : Option Nat) :
    Watching original pid group away (forward pid (result.bind Signal.ofNumber?)) codes
      (h ++ [⟨.readSignal fd,.ok result⟩]) := by
  have called : forward pid (result.bind Signal.ofNumber?) = demand pid ⟨.readSignal fd,.ok result⟩ := by
    cases result <;> rfl
  have reached := watching.snoc (x := ⟨.readSignal fd,.ok result⟩) rfl
  rw [called]
  exact (List.append_nil codes) ▸ reached

end

private def watcher (original pid : Pid) : Setting Call Answer History :=
  alone (recordIf (Faultless original)) (Supervised original pid)

section
variable {original pid : Pid} {group : Option (Fd × Pid × Pid)} {away : Bool} {due : List Call}
  {codes : List Int} {h : History}

private theorem inquires_of_acts {event : Call} (active : acts event = true) : inquires event = false := by
  cases event <;> first | rfl | cases active

private theorem supervised_plain {event : Call} (passive : acts event = false) (silent : inquires event = false) :
    Supervised original pid h event where
  acts active := by rw [passive] at active; cases active
  prompt asks := by rw [silent] at asks; cases asks
  lives asks := by rw [silent] at asks; cases asks
  given asks := by rw [silent] at asks; cases asks
  stops is := by rw [is] at passive; cases passive
  sends group signal is := by rw [is] at passive; cases passive

private theorem supervised_inquiry {event : Call} (asks : inquires event = true)
    (watching : Watching original pid group false [] [] h) : Supervised original pid h event where
  acts active := by rw [inquires_of_acts active] at asks; cases asks
  prompt _ := by simpa using watching.acted
  lives _ := watching.reported
  given _ := watching.owned
  stops is := by rw [is] at asks; cases asks
  sends group signal is := by rw [is] at asks; cases asks

private theorem watched_still {α : Type} {p : Calls α} (used : p.Uses fun event => still event = true ∧ inquires event = false)
    (watching : Watching original pid group away due codes h) :
    (watcher original pid).Safe p (fun _ => Watching original pid group away due codes) h := by
  refine Setting.Safe.uses used (stable_alone _) watching ?_ ?_
  · intro h event _ quiet
    have passive : acts event = false := by cases event <;> first | rfl | cases quiet.1
    exact supervised_plain passive quiet.2
  · intro h event answer h' watching quiet taken
    obtain ⟨_,rfl⟩ := taken
    exact watching.still quiet.1

/-- Where the handler has taken the terminal it changes hands, and otherwise there is
nothing to give. -/
private theorem watched_transfer (back : Bool) {handler : ForegroundHandler} {transfer : Calls Unit}
    (transfers : transfer = match handler.foregroundGroup with
      | none => .done ()
      | some (terminal,original,child) => discard (.tcsetpgrp terminal (if back then original else child)))
    (watching : Watching original pid handler.foregroundGroup away due codes h) :
    (watcher original pid).Safe transfer
      (fun _ => Watching original pid handler.foregroundGroup back due codes) h := by
  have taken := watching.taken
  subst transfers
  cases lent : lent h with
  | false =>
    rw [lent] at taken
    rw [taken] at watching ⊢
    refine .done_alone ⟨watching.taken,watching.acted,watching.reported,?_⟩
    have owned := watching.owned
    rw [holder,lent] at owned ⊢
    simpa using owned
  | true =>
    rw [lent] at taken
    rw [taken] at watching ⊢
    refine .call_alone (supervised_plain rfl rfl) fun answer h' given => .done_alone ?_
    obtain ⟨fine,rfl⟩ := given
    match answer with
    | .ok () => exact watching.pass back rfl
    | .error error =>
      rw [show Runas.lent h = false from fine] at lent
      cases lent

private theorem watched_toParent {handler : ForegroundHandler}
    (watching : Watching original pid handler.foregroundGroup away due codes h) :
    (watcher original pid).Safe handler.transferToParent
      (fun _ => Watching original pid handler.foregroundGroup true due codes) h :=
  watched_transfer true rfl watching

private theorem watched_toChild {handler : ForegroundHandler}
    (watching : Watching original pid handler.foregroundGroup away due codes h) :
    (watcher original pid).Safe handler.transferToChild
      (fun _ => Watching original pid handler.foregroundGroup false due codes) h :=
  watched_transfer false rfl watching

private theorem watched_act {event : Call} (watching : Watching original pid group away (event :: due) codes h)
    (active : acts event = true) (stops : event = .raise .sigstop → away = true)
    (sends : ∀ group signal, event = .kill group signal → away = false) :
    (watcher original pid).Safe (discard event) (fun _ => Watching original pid group away due codes) h := by
  refine .call_alone ?_ fun answer h' taken => .done_alone ?_
  · have silent := inquires_of_acts active
    refine ⟨fun _ => ?_,fun asks => ?_,fun asks => ?_,fun asks => ?_,fun is => ?_,fun other signal is => ?_⟩
    · exact ⟨due,by rw [← watching.acted,List.append_assoc,List.singleton_append]⟩
    · rw [silent] at asks; cases asks
    · rw [silent] at asks; cases asks
    · rw [silent] at asks; cases asks
    · simpa [stops is] using watching.owned
    · simpa [sends other signal is] using watching.owned
  · obtain ⟨_,rfl⟩ := taken
    exact watching.act active

private theorem watched_suspend {handler : ForegroundHandler} (signal : Signal)
    (watching : Watching original pid handler.foregroundGroup false [.raise .sigstop,.kill (-pid) .sigcont] codes h) :
    (watcher original pid).Safe (suspend pid handler signal)
      (fun _ => Watching original pid handler.foregroundGroup false [] codes) h := by
  refine .bind ((watched_still (uses_discard ⟨rfl,rfl⟩) watching).mono fun _ h watching => ?_)
  refine .bind ((watched_toParent watching).mono fun _ h watching => ?_)
  refine .bind ((watched_act watching rfl (fun _ => rfl) fun _ _ is => nomatch is).mono fun _ h watching => ?_)
  refine .bind ((watched_toChild watching).mono fun _ h watching => ?_)
  exact watched_act watching rfl (fun is => nomatch is) fun _ _ _ => rfl

private theorem watched_read (receiver : SignalReceiver) (watching : Watching original pid group false [] [] h) :
    (watcher original pid).Safe receiver.read.run (fun
      | .ok none => Watching original pid group false [] []
      | .ok (some event) => Watching original pid group false (forward pid event.signal) []
      | .error _ => fun _ => False) h := by
  refine Fallible.safe_ask_alone (supervised_inquiry rfl watching) fun answer h' taken => ?_
  obtain ⟨fine,rfl⟩ := taken
  match answer with
  | .error error => cases fine
  | .ok none => exact .done_alone (watching.dequeue receiver.fd none)
  | .ok (some number) => exact .done_alone (watching.dequeue receiver.fd (some number))

private theorem watched_wait (receiver : SignalReceiver) (watching : Watching original pid group false [] [] h) :
    (watcher original pid).Safe receiver.wait.run (fun
      | .ok event => Watching original pid group false (forward pid event.signal) []
      | .error _ => fun _ => False) h := by
  refine Fallible.safe_iterate (I := fun _ => Watching original pid group false [] []) (fun _ => stable_alone _)
    (fun _ => stable_alone _) watching fun _ h watching => ?_
  refine Fallible.safe_bind_alone ((watched_read receiver watching).mono fun result h read => ?_)
  match result with
  | .error error => exact read
  | .ok (some event) => exact .done_alone read
  | .ok none =>
    refine Fallible.safe_ask_alone (supervised_inquiry rfl read) fun answer h' taken => ?_
    obtain ⟨fine,rfl⟩ := taken
    cases answer with
    | error error =>
      cases error with
      | eintr => exact .done_alone (read.still rfl)
      | _ => cases fine
    | ok events =>
      have sound {first : Option PollFlags} (polled : events 0 = first)
          (bad : first.all (fun flags => flags.pollerr || flags.pollhup || flags.pollnval) = true) : False :=
        List.any_eq_false.mp fine 0 (List.mem_finRange 0) (polled ▸ bad)
      dsimp only
      split
      · next polled => exact (sound polled rfl).elim
      · next flags polled =>
        split
        · next bad => exact (sound polled (by simp [bad])).elim
        · split
          · next bad => exact (sound polled (by simp [bad])).elim
          · exact .done_alone (read.still rfl)

private theorem watched_reap {handler : ForegroundHandler}
    (watching : Watching original pid handler.foregroundGroup false [] [] h) :
    (watcher original pid).Safe (reap pid handler).run (fun
      | .ok none => Watching original pid handler.foregroundGroup false [] []
      | .ok (some code) => Watching original pid handler.foregroundGroup false [] [code]
      | .error _ => fun _ => False) h := by
  refine Fallible.safe_iterate (I := fun _ => Watching original pid handler.foregroundGroup false [] [])
    (fun _ => stable_alone _) (fun _ => stable_alone _) watching fun _ h watching => ?_
  refine Fallible.safe_ask_alone (supervised_inquiry rfl watching) fun answer h' taken => ?_
  obtain ⟨fine,rfl⟩ := taken
  match answer with
  | .ok (.exited code) => exact .done_alone (watching.report (.exited code))
  | .ok (.signaled signal) => exact .done_alone (watching.report (.signaled signal))
  | .ok .stillAlive => exact .done_alone (watching.report .stillAlive)
  | .ok .continued => exact .done_alone (watching.report .continued)
  | .ok (.stopped signal) =>
    have reported := watching.report (.stopped signal)
    rw [demand,if_pos rfl] at reported
    exact Fallible.safe_lift ((watched_suspend signal reported).mono fun _ h watching => .done_alone watching)
  | .error error =>
    cases error with
    | eintr => exact .done_alone (watching.snoc (x := ⟨.waitpid pid,.error .eintr⟩) rfl)
    | _ => cases fine

private theorem watched_react {handler : ForegroundHandler} (signal : Option Signal)
    (watching : Watching original pid handler.foregroundGroup false (forward pid signal) [] h) :
    (watcher original pid).Safe (react pid handler signal).run (fun
      | .ok (.inl again) => fun h => again = false ∧ Watching original pid handler.foregroundGroup false [] [] h
      | .ok (.inr code) => Watching original pid handler.foregroundGroup false [] [code]
      | .error _ => fun _ => False) h := by
  have passes (signal : Signal)
      (watching : Watching original pid handler.foregroundGroup false [.kill (-pid) signal] [] h) :
      (watcher original pid).Safe (do
        discard (.kill (-pid) signal)
        return .inl false : M (Bool ⊕ Int)).run (fun
          | .ok (.inl again) => fun h => again = false ∧ Watching original pid handler.foregroundGroup false [] [] h
          | .ok (.inr code) => Watching original pid handler.foregroundGroup false [] [code]
          | .error _ => fun _ => False) h :=
    Fallible.safe_lift ((watched_act watching rfl (fun is => nomatch is) fun _ _ _ => rfl).mono
      fun _ h watching => .done_alone ⟨rfl,watching⟩)
  match signal with
  | none => exact .done_alone ⟨rfl,watching⟩
  | some signal =>
    by_cases chld : signal = .sigchld
    · subst chld
      refine Fallible.safe_bind_alone ((watched_reap watching).mono fun result h reached => ?_)
      match result with
      | .error error => exact reached
      | .ok none => exact .done_alone ⟨rfl,reached⟩
      | .ok (some code) => exact .done_alone reached
    · cases signal <;> first | contradiction | exact passes _ watching

private theorem watched_watch (signals : SignalReceiver) {handler : ForegroundHandler}
    (watching : Watching original pid handler.foregroundGroup false [] [] h) :
    (watcher original pid).Safe (watch pid signals handler).run (fun
      | .ok code => Watching original pid handler.foregroundGroup false [] [code]
      | .error _ => fun _ => False) h := by
  refine Fallible.safe_iterate (I := fun _ => Watching original pid handler.foregroundGroup false [] [])
    (fun _ => stable_alone _) (fun _ => stable_alone _) watching fun initiate h watching => ?_
  cases initiate with
  | true =>
    refine (watched_react (some .sigchld) watching).mono fun result h reached => ?_
    rcases result with error | again | code
    · exact reached
    · exact reached.2
    · exact reached
  | false =>
    refine Fallible.safe_bind_alone ((watched_wait signals watching).mono fun result h read => ?_)
    cases result with
    | error error => exact read
    | ok event =>
      refine (watched_react event.signal read).mono fun result h reached => ?_
      rcases result with error | again | code
      · exact reached
      · exact reached.2
      · exact reached

private theorem watched_receiver (watching : Watching original pid group away due codes h) :
    (watcher original pid).Safe (SignalReceiver.install receivedSignals).run (fun
      | .ok _ => Watching original pid group away due codes
      | .error _ => fun _ => False) h := by
  have blockable : ¬(Signal.sigkill ∈ receivedSignals ∨ Signal.sigstop ∈ receivedSignals) := by decide
  unfold SignalReceiver.install
  rw [if_neg blockable]
  refine Fallible.safe_ask_alone (supervised_plain rfl rfl) fun answer h' taken => ?_
  obtain ⟨fine,rfl⟩ := taken
  cases answer with
  | error error => cases fine
  | ok previous =>
    refine Fallible.safe_ask_alone (supervised_plain rfl rfl) fun answer h' taken => ?_
    obtain ⟨fine,rfl⟩ := taken
    cases answer with
    | error error => cases fine
    | ok => exact .done_alone ((watching.still rfl).still rfl)

private theorem watched_handler (watching : Watching original pid none false [] [] h) :
    (watcher original pid).Safe (ForegroundHandler.install pid).run (fun
      | .ok handler => Watching original pid handler.foregroundGroup false [] []
      | .error _ => fun _ => False) h := by
  refine Fallible.safe_ask_alone (supervised_plain rfl rfl) fun answer h' taken => ?_
  obtain ⟨fine,rfl⟩ := taken
  cases answer with
  | error error => cases fine
  | ok previous =>
    refine Fallible.safe_ask_alone (supervised_plain rfl rfl) fun answer h' taken => ?_
    obtain ⟨fine,rfl⟩ := taken
    cases answer with
    | error error => exact .done_alone ((watching.still rfl).still rfl)
    | ok found =>
      have unlent : lent h = false := by
        have taken := watching.taken
        split at taken
        · cases taken
        · next free => exact Bool.eq_false_iff.mpr free
      have known : found = original := by
        have owned := (watching.still rfl : Watching original pid none false [] []
          (h ++ [⟨.sigaction .sigttou .ignore,.ok previous⟩])).owned
        rw [holder,lent_snoc,unlent] at owned
        exact (show found = _ from fine).trans owned
      subst known
      refine Fallible.safe_ask_alone (supervised_plain rfl rfl) fun answer h' taken => ?_
      obtain ⟨_,rfl⟩ := taken
      match answer with
      | .ok () => exact .done_alone (((watching.still rfl).still rfl).pass false rfl)
      | .error error =>
        exact .done_alone (((watching.still rfl).still rfl).snoc (x := ⟨.tcsetpgrp .stdin pid,.error error⟩) rfl)

private theorem watched_install (watching : Watching original pid none false [] [] h) :
    (watcher original pid).Safe (watchInstall pid).run (fun
      | .ok installed => Watching original pid installed.2.foregroundGroup false [] []
      | .error _ => fun _ => False) h := by
  refine Fallible.safe_bind_alone ((watched_receiver watching).mono fun result h watching => ?_)
  cases result with
  | error error => exact watching
  | ok signals =>
    refine Fallible.safe_releasingOnError (fun _ => stable_alone _) ?_
    refine Fallible.safe_bind_alone ((watched_handler watching).mono fun result h watching => ?_)
    cases result with
    | error error => exact watching.elim
    | ok handler =>
      refine Fallible.safe_releasingOnError (fun _ => stable_alone _) ?_
      refine Fallible.safe_ask_alone (supervised_plain rfl rfl) fun answer h' taken => ?_
      obtain ⟨fine,rfl⟩ := taken
      cases answer with
      | error error => cases fine
      | ok => exact .done_alone (watching.still rfl)

private theorem watched_watchProcess (endpoint : ForkEndpoint) :
    (watcher original pid).Safe (watchProcess pid endpoint).run (fun result h => Concluded original pid h result) [] := by
  have quiet (event : Call) (about : About [.pipes] event) : still event = true ∧ inquires event = false := by
    cases event <;> first | exact ⟨rfl,rfl⟩ | simp [About,Call.topic] at about
  have fresh : Watching original pid none false [] [] [] := ⟨rfl,rfl,rfl,rfl⟩
  refine Fallible.safe_bind_alone (Fallible.safe_releasingOnError (fun _ => stable_alone _)
    ((watched_install fresh).mono fun result h watching => ?_))
  cases result with
  | error error => exact watching.elim
  | ok installed =>
    obtain ⟨signals,handler⟩ := installed
    refine Fallible.safe_releasing (fun _ => stable_alone _) ?_
    refine Fallible.safe_lift ((watched_still (uses_ignoring ((uses_readyAndWait endpoint).mono quiet))
      watching).mono fun _ h watching => ?_)
    refine (watched_watch signals watching).mono fun result h watching => ?_
    cases result with
    | error error => exact watching.elim
    | ok code =>
      refine .bind (.bind ((watched_toParent watching).mono fun _ h watching => ?_))
      refine (watched_still (uses_discard ⟨rfl,rfl⟩) watching).mono fun _ h watching => ?_
      have closes : signals.drop.Uses fun event => still event = true ∧ inquires event = false :=
        .bind (uses_discard ⟨rfl,rfl⟩) fun _ => uses_discard ⟨rfl,rfl⟩
      refine (watched_still closes watching).mono fun _ h watching => ?_
      exact ⟨⟨code,rfl,watching.reported⟩,by simpa using watching.acted,watching.owned⟩

end

/-- While no call fails, the supervisor answers every signal and every report as it
should, and it ends with the child's status when the child has terminated. -/
theorem watch_supervised (original pid : Pid) (endpoint : ForkEndpoint) {p : Calls (Except Error Int)} {h : History}
    (reached : Steps (recordIf (Faultless original)) (watchProcess pid endpoint).run [] p h) :
    (∀ event, p.pending = some event → Supervised original pid h event) ∧
      ∀ result, p.result? = some result → Concluded original pid h result := by
  have safe : (watcher original pid).Safe p (fun result h => Concluded original pid h result) h :=
    (watched_watchProcess endpoint).steps reached
  constructor
  · intro event pending
    exact safe.pending pending
  · intro result ended
    obtain rfl := Program.result?_eq_some ended
    exact safe.now

private def stoppedRun : History :=
  [⟨.sigmask .block receivedSignals,.ok []⟩,⟨.signalfd receivedSignals,.ok ()⟩,⟨.sigaction .sigttou .ignore,.ok .default⟩,
    ⟨.tcgetpgrp .stdin,.ok 10⟩,⟨.tcsetpgrp .stdin 42,.ok ()⟩,⟨.setpgid 42 42,.ok ()⟩,
    ⟨.write (.pipe (.status .parent) .write) [statusReady],.ok 1⟩,⟨.close (.pipe (.status .parent) .write),.ok ()⟩,
    ⟨.read (.pipe (.status .child) .read) 1,.ok [statusReady]⟩,⟨.close (.pipe (.status .child) .read),.ok ()⟩,
    ⟨.waitpid 42,.ok .stillAlive⟩,⟨.readSignal .signal,.ok (some 2)⟩,⟨.kill (-42) .sigint,.ok ()⟩,
    ⟨.readSignal .signal,.ok (some 17)⟩,⟨.waitpid 42,.ok (.stopped .sigtstp)⟩,⟨.eprint "child stopped by SIGTSTP",()⟩,
    ⟨.tcsetpgrp .stdin 10,.ok ()⟩,⟨.raise .sigstop,.ok ()⟩,⟨.tcsetpgrp .stdin 42,.ok ()⟩,⟨.kill (-42) .sigcont,.ok ()⟩,
    ⟨.waitpid 42,.ok (.exited 3)⟩,⟨.tcsetpgrp .stdin 10,.ok ()⟩,⟨.sigaction .sigttou .default,.ok .ignore⟩,
    ⟨.sigmask .setMask [],.ok receivedSignals⟩,⟨.close .signal,.ok ()⟩]

theorem watch_supervised_stopped : Concluded 10 42 stoppedRun (.ok 3) := by
  have trace : Trace (watchProcess 42 ⟨ForkSync.fresh.parentWrite,ForkSync.fresh.parentRead,false⟩).run stoppedRun
      (.ok 3) := replay_sound 60 rfl
  have allowed : Allowed (Faultless 10) [] stoppedRun := by
    simp [stoppedRun,Allowed,Faultless,loopFails,owner,passes]
  exact (watch_supervised 10 42 _ (trace.steps allowed)).2 _ rfl

end Runas
