import Runas.Kernel
import Runas.Topics

/-! The two processes a supervised command begins as, and what the command's own
process calls on its way to exec. -/
namespace Runas
open Interaction Text

/-- The child of the fork in `auth`: it waits at the barrier, and the run goes on there. -/
def commandSide (run : Invocation) (prepared : Prepared) (pamEnv : EnvMap) : M Unit := do
  run.launch prepared (← authChild ForkSync.fresh pamEnv)

/-- The parent: it never comes to the rest of the run. -/
def supervisorSide (run : Invocation) (prepared : Prepared) (handle : PamHandle) (child : Pid) : M Unit := do
  run.launch prepared (← authParent handle ForkSync.fresh child)

theorem authFork_forks (handle : PamHandle) (run : Invocation) (prepared : Prepared) (pamEnv : EnvMap) :
    ∃ next, (authFork handle ForkSync.fresh pamEnv >>= run.launch prepared).run = .call .fork next ∧
      next (.ok .child) = (commandSide run prepared pamEnv).run ∧
      ∀ child, next (.ok (.parent child)) = (supervisorSide run prepared handle child).run :=
  ⟨_,rfl,rfl,fun _ => rfl⟩

abbrev CommandConfig := Config Call Answer (Except Error Unit) (Except Error Unit) Kernel

def supervised (run : Invocation) (prepared : Prepared) (pamEnv : EnvMap) (handle : PamHandle) (child : Pid)
    (blocked : Bool) : CommandConfig :=
  ⟨supervisorSide run prepared handle child,commandSide run prepared pamEnv,.forked blocked⟩

theorem uses_setParentExitSignal {allowed : Call → Prop} {signal : Signal}
    (sets : allowed (.setParentDeathSignal signal)) : Fallible.Uses allowed (setParentExitSignal signal) :=
  .bind (.ask sets) fun answer => uses_orFail answer

theorem uses_setCredentials (build : Build) (user target : Account) :
    Fallible.Uses (About [.identity]) (setCredentials build user target) := by
  have ids (gid : Gid) (uid : Uid) : Fallible.Uses (About [.identity]) (do
      orFail (← ask (.setresgid gid gid user.gid))
      orFail (← ask (.setresuid uid uid user.uid)) : M Unit) := by
    refine .bind (.ask (by simp [About,Call.topic])) fun answer => .bind (uses_orFail answer) fun _ => ?_
    exact .bind (.ask (by simp [About,Call.topic])) fun answer => uses_orFail answer
  have groups (gid : Gid) : Fallible.Uses (About [.identity]) (initgroups target.name gid) := by
    refine .bind (uses_cstr _) fun name => .bind (.ask (by simp [About,Call.topic])) fun answer => ?_
    cases answer <;> trivial
  unfold setCredentials
  cases targetIds build target with | mk gid uid => ?_
  refine .bind (.ask (by simp [About,Call.topic])) fun answer => .bind (uses_orFail answer) fun _ => ?_
  by_cases scopex : build.backend = .scopex
  · simp only [if_pos scopex]
    exact .bind (groups gid) fun _ => ids gid uid
  · simp only [if_neg scopex]
    exact ids gid uid

def commandTopics : List Topic := [.process,.identity,.replace,.files,.environment,.talk,.finish]

private theorem about_command {topics : List Topic} (part : topics ⊆ commandTopics) (event : Call)
    (about : About topics event) : About commandTopics event := part about

def execTopics : List Topic := [.process,.identity,.files,.environment,.finish]

theorem uses_exec {allowed : Call → Prop} {build : Build} (scopex : build.backend = .scopex) {cmd : CString}
    {argv envp : List CString} (others : ∀ event,About execTopics event → allowed event)
    (attempt : ∀ path,Located cmd path → allowed (.execve path argv envp)) (user target : Account)
    (cwd : Option String) : Fallible.Uses allowed (exec build user target cmd argv envp cwd) := by
  have known {event : Call} (about : About execTopics event) : allowed event := others event about
  have identity (event : Call) (about : About [.identity] event) : allowed event :=
    others event ((by decide : [Topic.identity] ⊆ execTopics) about)
  have rearming (supervisor : Pid) : Fallible.Uses allowed (rearm supervisor) := by
    unfold rearm
    refine .bind (uses_setParentExitSignal (known (by simp [About,Call.topic,execTopics]))) fun _ => ?_
    refine .bind (.ask (known (by simp [About,Call.topic,execTopics]))) fun parent => ?_
    split
    · exact .lift (uses_discard (known (by simp [About,Call.topic,execTopics])))
    · trivial
  have running : Fallible.Uses allowed (do setCwd cwd; execvpe cmd argv envp : M Empty) := by
    refine .bind (uses_setCwd (fun _ => known ?_) cwd) fun _ => uses_execvpe attempt fun _ => known ?_
    · simp [About,Call.topic,execTopics]
    · simp [About,Call.topic,execTopics]
  have rest (supervisor : Option Pid) : Fallible.Uses allowed
      (execFrom build user target cmd argv envp cwd supervisor) := by
    unfold execFrom
    simp only [if_pos scopex]
    refine .bind (uses_cleanEnvironment (known ?_) (fun _ => known ?_) (known ?_)) fun _ => ?_
    · simp [About,Call.topic,execTopics]
    · simp [About,Call.topic,execTopics]
    · simp [About,Call.topic,execTopics]
    refine .bind ((uses_setCredentials build user target).mono identity) fun _ => ?_
    cases supervisor with
    | none => exact running
    | some supervisor => exact .bind (rearming supervisor) fun _ => running
  rw [exec_from]
  split
  · simp only [map_eq_pure_bind,bind_assoc,pure_bind]
    exact .bind (.ask (known (by simp [About,Call.topic,execTopics]))) fun supervisor => rest (some supervisor)
  · exact rest none

theorem uses_launch {allowed : Call → Prop} {run : Invocation} (scopex : run.build.backend = .scopex)
    {prepared : Prepared} (others : ∀ event,About execTopics event → allowed event)
    (talks : ∀ event,About environmentTopics event → allowed event)
    (attempt : ∀ cmd argv,prepared.argv = cmd :: argv → ∀ path envp,Located cmd path → allowed (.execve path argv envp))
    (pamEnv : EnvMap) : Fallible.Uses allowed (run.launch prepared pamEnv) := by
  unfold Invocation.launch
  refine .bind ((uses_assemble run prepared pamEnv).mono talks) fun env => ?_
  simp only [if_pos scopex,pure_bind]
  refine .bind ((uses_cstrings _).mono talks) fun envp => ?_
  split
  · exact .bind (.ask (others _ (by simp [About,Call.topic,execTopics]))) fun never => never.elim
  · next cmd argv same =>
    exact .bind (uses_exec scopex others (fun path => attempt cmd argv same path envp) _ _ _) fun never => never.elim

theorem uses_command {run : Invocation} (supervised : run.build.supervised = true) (prepared : Prepared)
    (pamEnv : EnvMap) : Fallible.Uses (About commandTopics) (run.launch prepared pamEnv) := by
  have scopex : run.build.backend = .scopex := by simpa using (Bool.and_eq_true_iff.mp supervised).1
  refine uses_launch scopex (about_command (by decide)) (about_command (by decide)) ?_ pamEnv
  intro cmd argv _ path envp _
  simp [About,Call.topic,commandTopics]

/-! A run: root's `/bin/id`, from the fork to exec. -/

def supervisedRun : Invocation := ⟨⟨fun _ _ => .error "",fun _ _ => "",fun _ => false⟩,
  ⟨.scopex,true,false,false,none,by decide⟩,"runas",⟨["/bin/id"],fun _ => false,fun _ => none⟩⟩

def preparedId : Prepared :=
  ⟨alice,root,[encode "/bin/id"],.none,∅,[word "/bin/id",word "/bin/id"],none⟩

abbrev CommandTurn := Turn Call Answer Kernel.Occurrence

def setUp : List CommandTurn :=
  [.left ⟨.close (.pipe (.status .child) .write),.ok ()⟩,.left ⟨.close (.pipe (.status .parent) .read),.ok ()⟩,
    .left ⟨.sigmask .block receivedSignals,.ok []⟩,.left ⟨.signalfd receivedSignals,.ok ()⟩,
    .left ⟨.sigaction .sigttou .ignore,.ok .default⟩,.left ⟨.tcgetpgrp .stdin,.error .eio⟩,
    .left ⟨.setpgid 42 42,.ok ()⟩,
    .right ⟨.close (.pipe (.status .child) .read),.ok ()⟩,.right ⟨.close (.pipe (.status .parent) .write),.ok ()⟩,
    .right ⟨.setParentDeathSignal .sigkill,.ok ()⟩,.right ⟨.setpgid 0 0,.ok ()⟩]

def passBarrier : List CommandTurn :=
  [.left ⟨.write (.pipe (.status .parent) .write) [statusReady],.ok 1⟩,
    .left ⟨.close (.pipe (.status .parent) .write),.ok ()⟩,
    .right ⟨.write (.pipe (.status .child) .write) [statusReady],.ok 1⟩,
    .right ⟨.close (.pipe (.status .child) .write),.ok ()⟩,
    .left ⟨.read (.pipe (.status .child) .read) 1,.ok [statusReady]⟩,
    .left ⟨.close (.pipe (.status .child) .read),.ok ()⟩,
    .right ⟨.read (.pipe (.status .parent) .read) 1,.ok [statusReady]⟩,
    .right ⟨.close (.pipe (.status .parent) .read),.ok ()⟩]

def prepareExec : List CommandTurn :=
  [.right ⟨.openFile envFile,.error .enoent⟩,.right ⟨.environ,[]⟩,.right ⟨.getppid,(7 : Pid)⟩,.right ⟨.environ,[]⟩]

def becomeRoot (parent : Pid) : List CommandTurn :=
  [.right ⟨.setgroups [],.ok ()⟩,.right ⟨.initgroups (word "root") 0,.ok ()⟩,.right ⟨.setresgid 0 0 1000,.ok ()⟩,
    .right ⟨.setresuid 0 0 1000,.ok ()⟩,.right ⟨.setParentDeathSignal .sigkill,.ok ()⟩,.right ⟨.getppid,parent⟩]

end Runas
