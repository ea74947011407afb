import Runas.Command
import Runas.Settling
import Runas.Interaction.View

/-! What the later phases of a run call: the supervision of the command, and the launch from
the credentials to exec. -/
namespace Runas
open Interaction Text

variable {α : Type}

/-- The calls of the supervisor, from the set-up to the end of the command. -/
def supervises : Call → Bool
  | .close _ | .read _ _ | .write _ _ | .poll _ | .waitpid _ | .setpgid _ _ | .kill _ _ | .raise _ | .sigmask _ _
  | .signalfd _ | .readSignal _ | .sigaction _ _ | .tcgetpgrp _ | .tcsetpgrp _ _ | .eprint _ => true
  | _ => false

abbrev Supervising (p : Calls α) : Prop := p.Uses fun event => supervises event = true

theorem supervising_descriptor (fd : Option Fd) : Supervising (Descriptor.drop fd) := by
  cases fd with
  | none => trivial
  | some fd => exact uses_discard rfl

theorem supervising_endpoint (endpoint : ForkEndpoint) : Supervising endpoint.drop :=
  Program.Uses.bind (supervising_descriptor _) fun _ => supervising_descriptor _

theorem supervising_readyAndWait (endpoint : ForkEndpoint) : Supervising endpoint.readyAndWait.run := by
  have sends : Supervising (endpoint.sendStatus statusReady).run := by
    obtain ⟨write,read,sent⟩ := endpoint
    cases sent with
    | true => trivial
    | false =>
      cases write with
      | none => trivial
      | some fd =>
        exact Fallible.Uses.bind (uses_writeByte rfl) fun _ => .bind (.lift (supervising_descriptor _)) fun _ => trivial
  refine Fallible.Uses.bind (.releasingOnError (supervising_endpoint _) sends) fun endpoint => ?_
  refine .bind (.releasingOnError (supervising_endpoint _) (within_awaitStatus fun _ _ => rfl)) fun decision => ?_
  exact .bind (.lift (supervising_descriptor _)) fun _ => trivial

theorem supervising_transfers (handler : ForegroundHandler) : Supervising handler.transferToParent ∧
    Supervising handler.transferToChild := by
  unfold ForegroundHandler.transferToParent ForegroundHandler.transferToChild
  cases handler.foregroundGroup with
  | none => exact ⟨trivial,trivial⟩
  | some held => exact ⟨uses_discard rfl,uses_discard rfl⟩

theorem supervising_handlerDrop (handler : ForegroundHandler) : Supervising handler.drop :=
  Program.Uses.bind (supervising_transfers handler).1 fun _ => uses_discard rfl

theorem supervising_receiverDrop (signals : SignalReceiver) : Supervising signals.drop :=
  Program.Uses.bind (uses_discard rfl) fun _ => uses_discard rfl

theorem supervising_receiverInstall (signals : List Signal) : Supervising (SignalReceiver.install signals).run := by
  unfold SignalReceiver.install
  split
  · trivial
  · refine Fallible.Uses.bind (.ask rfl) fun set => .bind (uses_orFail set) fun previous => .bind (.ask rfl) fun opened => ?_
    cases opened with
    | ok => trivial
    | error error => exact .bind (.lift (uses_discard rfl)) fun _ => trivial

theorem supervising_handlerInstall (child : Pid) : Supervising (ForegroundHandler.install child).run := by
  refine Fallible.Uses.bind (.ask rfl) fun set => .bind (uses_orFail set) fun previous => .bind (.ask rfl) fun group => ?_
  cases group with
  | error error => trivial
  | ok original =>
    refine .bind (.ask rfl) fun taken => ?_
    cases taken <;> trivial

theorem supervising_watchInstall (pid : Pid) : Supervising (watchInstall pid).run := by
  refine Fallible.Uses.bind (supervising_receiverInstall _) fun signals => ?_
  refine .releasingOnError (supervising_receiverDrop signals) (.bind (supervising_handlerInstall pid) fun handler => ?_)
  refine .releasingOnError (supervising_handlerDrop handler) (.bind (.ask rfl) fun set => ?_)
  exact .bind (uses_orFail set) fun _ => trivial

theorem supervising_watchProcess (pid : Pid) (pipe : ForkEndpoint) : Supervising (watchProcess pid pipe).run := by
  refine Fallible.Uses.bind (.releasingOnError (supervising_endpoint pipe) (supervising_watchInstall pid)) fun pair => ?_
  obtain ⟨signals,handler⟩ := pair
  have watches : Supervising (watch pid signals handler).run :=
    uses_watch rfl (supervising_transfers handler).1 (supervising_transfers handler).2 (fun _ => rfl) rfl (fun _ => rfl)
      (within_receiverWait rfl rfl)
  have releases : Supervising (do handler.drop; signals.drop) :=
    Program.Uses.bind (supervising_handlerDrop handler) fun _ => supervising_receiverDrop signals
  exact .releasing releases (.bind (.lift (uses_ignoring (supervising_readyAndWait pipe))) fun _ => watches)

/-! The pipes of the barrier. -/

theorem uses_intoParent (sync : ForkSync) : sync.intoParent.Uses (About [.pipes]) :=
  Program.Uses.bind (uses_descriptorDrop _) fun _ => Program.Uses.bind (uses_descriptorDrop _) fun _ => trivial

theorem uses_intoChild (sync : ForkSync) : sync.intoChild.Uses (About [.pipes]) :=
  Program.Uses.bind (uses_descriptorDrop _) fun _ => Program.Uses.bind (uses_descriptorDrop _) fun _ => trivial

theorem uses_syncDrop (sync : ForkSync) : sync.drop.Uses (About [.pipes]) :=
  Program.Uses.bind (uses_descriptorDrop _) fun _ => Program.Uses.bind (uses_descriptorDrop _) fun _ =>
    Program.Uses.bind (uses_descriptorDrop _) fun _ => uses_descriptorDrop _

theorem uses_syncNew : Fallible.Uses (About [.pipes]) ForkSync.new := by
  have pipes (name : Pipe) : Fallible.Uses (About [.pipes]) (Descriptor.pipe name) :=
    .bind (.ask (by simp [About,Call.topic])) fun answer => .bind (uses_orFail answer) fun _ => trivial
  refine .bind (pipes _) fun first => .bind (.releasingOnError ?_ (pipes _)) fun _ => trivial
  exact Program.Uses.bind (uses_descriptorDrop _) fun _ => uses_descriptorDrop _

section
variable {allowed : Call → Prop} {send hear : Fd}

theorem only_drop {fd : Fd} (closes : allowed (.close fd)) :
    (Descriptor.drop (some fd)).Only allowed fun _ => True :=
  Program.Uses.only (uses_discard closes)

theorem only_endpointDrop {endpoint : ForkEndpoint} (closesSend : allowed (.close send)) (closesHear : allowed (.close hear))
    (sends : endpoint.write = none ∨ endpoint.write = some send) (hears : endpoint.read = some hear) :
    endpoint.drop.Only allowed fun _ => True := by
  unfold ForkEndpoint.drop
  rw [hears]
  rcases sends with gone | there
  · rw [gone]
    exact only_drop closesHear
  · rw [there]
    exact .bind ((only_drop closesSend).mono fun _ _ _ => only_drop closesHear)

/-- Both pipes are there, or neither is. -/
def MadeFresh : Except Error ForkSync → Prop
  | .ok sync => sync = .fresh
  | .error _ => True

theorem only_syncNew (makesChild : allowed (.pipe (.status .child) true)) (makesParent : allowed (.pipe (.status .parent) true))
    (closesWrite : allowed (.close (.pipe (.status .child) .write)))
    (closesRead : allowed (.close (.pipe (.status .child) .read))) : ForkSync.new.run.Only allowed MadeFresh := by
  refine Fallible.safe_bind_alone (.call_alone makesChild fun answer _ _ => ?_)
  rcases answer with error | _
  · exact .done_alone trivial
  refine .done_alone (Fallible.safe_bind_alone (Fallible.safe_releasingOnError (fun _ => stable_alone _) ?_))
  refine .call_alone makesParent fun answer _ _ => ?_
  rcases answer with error | _
  · exact .done_alone (.bind ((only_drop closesWrite).mono fun _ _ _ => (only_drop closesRead).mono fun _ _ _ => trivial))
  · exact .done_alone (.done_alone rfl)

/-- The barrier, with the two descriptors it is about. -/
theorem only_readyAndWait (sends : allowed (.write send [statusReady])) (hears : allowed (.read hear 1))
    (closesSend : allowed (.close send)) (closesHear : allowed (.close hear)) :
    Program.Only allowed (ForkEndpoint.mk (some send) (some hear) false).readyAndWait.run fun _ => True := by
  refine Fallible.safe_bind_alone (Fallible.safe_releasingOnError (fun _ => stable_alone _) ?_)
  have sent : Fallible.Uses allowed (Descriptor.writeByte send statusReady) := uses_writeByte sends
  refine Fallible.safe_bind_alone (sent.only.mono fun result _ _ => ?_)
  cases result with
  | error error => exact only_endpointDrop closesSend closesHear (.inr rfl) rfl
  | ok =>
    refine Fallible.safe_lift ((only_drop closesSend).mono fun _ _ _ => .done_alone ?_)
    refine Fallible.safe_bind_alone (Fallible.safe_releasingOnError (fun _ => stable_alone _) ?_)
    have heard : Fallible.Uses allowed (ForkEndpoint.mk none (some hear) true).awaitStatus := by
      refine within_awaitStatus fun fd same => ?_
      cases same
      exact hears
    refine heard.only.mono fun result _ _ => ?_
    cases result with
    | error error => exact only_endpointDrop closesSend closesHear (.inl rfl) rfl
    | ok decision => exact Fallible.safe_lift ((only_drop closesHear).mono fun _ _ _ => .done_alone trivial)

end

/-! The launch. -/

def launchTopics : List Topic := [.identity,.replace,.files,.environment,.talk]

/-- The calls on the way from a grant to exec. -/
def launches : Call → Bool
  | .getppid | .setParentDeathSignal _ | .raise _ | .panic => true
  | .exit code => code = 1
  | event => event.topic ∈ launchTopics

theorem launches_topic {event : Call} (about : event.topic ∈ launchTopics) : launches event = true := by
  cases event <;> first | rfl | simp [Call.topic,launchTopics] at about

abbrev Launching (p : Calls α) : Prop := p.Uses fun event => launches event = true

theorem launching_about {topics : List Topic} {p : Calls α} (used : p.Uses (About topics)) (part : topics ⊆ launchTopics) :
    Launching p := used.mono fun _ about => launches_topic (part about)

theorem launching_exec (build : Build) (user target : Account) (cmd : CString) (argv envp : List CString)
    (cwd : Option String) : Launching (exec build user target cmd argv envp cwd).run := by
  have starts : Launching (do setCwd cwd; execvpe cmd argv envp : M Empty).run :=
    Fallible.Uses.bind (uses_setCwd (fun _ => rfl) cwd) fun _ => uses_execvpe (fun _ _ => rfl) fun _ => rfl
  have rearms (supervisor : Pid) : Launching (rearm supervisor).run := by
    refine Fallible.Uses.bind (uses_setParentExitSignal rfl) fun _ => .bind (.ask rfl) fun parent => ?_
    split
    · exact .lift (uses_discard rfl)
    · trivial
  have rest (supervisor : Option Pid) : Launching (execFrom build user target cmd argv envp cwd supervisor).run := by
    refine Fallible.Uses.bind (uses_cleanEnvironment rfl (fun _ => rfl) rfl) fun _ =>
      .bind (launching_about (uses_setCredentials build user target) (by decide)) fun _ => ?_
    split
    · cases supervisor with
      | none => exact starts
      | some supervisor => exact .bind (rearms supervisor) fun _ => starts
    · exact .bind (.ask rfl) fun _ => trivial
  rw [exec_from]
  refine Fallible.Uses.bind ?_ rest
  split
  · exact .bind (.ask rfl) fun _ => trivial
  · trivial

theorem launching_launch (run : Invocation) (prepared : Prepared) (pamEnv : EnvMap) :
    Launching (run.launch prepared pamEnv).run := by
  have words (env : EnvMap) : Launching (run.words prepared env).run := by
    unfold Invocation.words
    split
    · exact Fallible.Uses.bind (@fails_cstrings (fun event => launches event = true) (fun _ _ => rfl) rfl _) fun _ => trivial
    · exact Fallible.Uses.bind (@fails_finishArgv (fun event => launches event = true) (fun _ _ => rfl) rfl _ _) fun _ => trivial
  have overrides (env : EnvMap) :
      Launching (loadOverwriteVars envFile prepared.targetUser (placeholders prepared.targetUser) env) :=
    launching_about (uses_loadOverwriteVars _ _ _ _) (by decide)
  have assembles : Launching (run.assemble prepared pamEnv).run :=
    @uses_assembled (fun event => launches event = true) rfl rfl run prepared overrides (fun _ => rfl) pamEnv
  rw [launch_handOver]
  refine Fallible.Uses.bind (.bind assembles words) fun out => ?_
  obtain ⟨_ | ⟨cmd,argv⟩,envp⟩ := out
  · exact .bind (.ask rfl) fun never => nomatch never
  · exact .bind (launching_exec _ _ _ _ _ _ _) fun never => never.elim

end Runas
