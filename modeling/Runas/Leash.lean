import Runas.HelperChild
import Runas.Orphan
import Runas.Session

/-! No helper without the program that asked: wherever that program dies, the helper's process
only reaches exec once it has been told to go on, and while the program lives with the death
signal set against it, or with a SIGKILL pending. -/
namespace Runas
open Interaction Text

section
variable {supervisor : Pid} {k : Kernel}

/-! The death signal. The credentials are given up before it is set, so that nothing clears it
again, and the barrier that follows shows that the parent is still there. -/

/-- The death signal is set, for whatever parent there is. -/
private def Tied (k : Kernel) : Prop := k.WellFormed ∧ k.armed = true

private theorem stable_tied : (Kernel.orphan supervisor).Stable Tied := by
  refine stable_orphan (fun k k' tied happened => ?_) fun k event answer k' tied taken => ?_
  · exact ⟨tied.1.happens happened,(Kernel.happens_armed happened).trans tied.2⟩
  · exact ⟨tied.1.step taken,(Kernel.parent_death taken).1.trans tied.2⟩

private theorem wellFormed_orphan : (Kernel.orphan supervisor).Stable Kernel.WellFormed :=
  stable_orphan (fun _ _ wf happened => wf.happens happened) fun _ _ _ _ wf taken => wf.step taken

private theorem orphan_helperSetup (wf : k.WellFormed) :
    (Kernel.orphan supervisor).Safe helperSetup.run (unlessFails Tied) k := by
  have lowered : Fallible.Uses (fun event => isExec event = false) helperLower := by
    refine uses_helperLower fun event known => ?_
    cases event <;> first | rfl | cases known
  have keeps : (Kernel.orphan supervisor).Safe helperLower.run (fun _ => Kernel.WellFormed) k :=
    Setting.Safe.uses lowered wellFormed_orphan wf (fun k _ wf other => permits other k wf)
      fun _ _ _ _ wf _ taken => wf.step taken
  rw [helperSetup_lowers]
  refine Fallible.safe_bind (fun _ => Setting.Stable.true) (keeps.mono fun result k wf => ?_)
  cases result with
  | error error => trivial
  | ok =>
    refine .call wellFormed_orphan wf (permits rfl) fun k answer k' wf taken => ?_
    cases answer with
    | error error => exact .done Setting.Stable.true trivial
    | ok =>
      refine .done stable_tied ⟨wf.step taken,?_⟩
      obtain ⟨_,_,rfl | ⟨_,changes,_⟩⟩ := taken
      · rfl
      · cases changes

private theorem tied_intoChild (tied : Tied k) : (Kernel.orphan supervisor).Safe ForkSync.fresh.intoChild
    (fun endpoint k => endpoint = ⟨ForkSync.fresh.childWrite,ForkSync.fresh.childRead,false⟩ ∧ Armed k) k := by
  refine .call stable_tied tied (permits rfl) fun k answer k' tied taken => ?_
  have armed : Armed k' := by
    refine ⟨⟨tied.1.step taken,?_⟩,(Kernel.step_armed rfl taken).trans tied.2⟩
    rw [Kernel.step_pipes taken]
    simp [Kernel.after,Pipes.close]
  refine .call stable_armed armed (permits rfl) fun k answer k' armed taken => ?_
  exact .done (fun k k' held moved => ⟨held.1,stable_armed k k' held.2 moved⟩)
    ⟨rfl,armed.1.call taken,(Kernel.step_armed rfl taken).trans armed.2⟩

private theorem orphan_helperBody (msg : String) (wf : k.WellFormed) :
    (Kernel.orphan supervisor).Safe (helperBody msg .fresh).run (fun _ _ => True) k := by
  have ends (result : Except Error Empty) : (Kernel.orphan supervisor).Stable
      ((fun _ _ => True : Except Error Empty → Kernel → Prop) result) := Setting.Stable.true
  have lets (k : Kernel) : (Kernel.orphan supervisor).Safe ForkSync.fresh.drop (fun _ _ => True) k :=
    safe_plain ((uses_syncDrop _).mono fun _ about => about_plain (by decide) about) k
  have becomes : Fallible.Uses (fun event => Kernel.touchesDeath event = false) (helperExec msg) := by
    refine uses_helperExec (fun event known => ?_) msg
    cases event <;> first | rfl | cases known
  refine Fallible.safe_bind (fun error => ends (.error error)) (Fallible.safe_releasingOnError ?_
    ((orphan_helperSetup wf).mono fun result k tied => ?_))
  · rintro (error | value)
    · exact Setting.Stable.true
    · exact Setting.Safe.stable _ _
  cases result with
  | error error => exact lets k
  | ok =>
    refine Fallible.safe_lift ((tied_intoChild tied).mono fun endpoint k converted => ?_)
    obtain ⟨rfl,armed⟩ := converted
    refine Fallible.safe_bind (fun error => ends (.error error)) ((orphan_readyAndWait armed).mono fun result k covered => ?_)
    cases result with
    | error error => trivial
    | ok decision =>
      dsimp only
      split
      · exact .done Setting.Stable.true trivial
      · exact (safe_covered becomes covered).mono fun _ _ _ => trivial

/-! The word to go on. -/

private theorem follower_helperBody (msg : String) (wf : k.WellFormed) :
    (Kernel.follower supervisor).Safe (helperBody msg .fresh).run (fun _ _ => True) k := by
  have goes {α : Type} {p : Calls α} (used : p.Uses fun event => isPlain event = true) {k : Kernel}
      (wf : k.WellFormed) : (Kernel.follower supervisor).Safe p (fun _ => Kernel.WellFormed) k :=
    follower_plain used wellFormed_follower (fun _ _ _ _ wf taken => wf.step taken) wf
  have setUp : Fallible.Uses (fun event => isPlain event = true) helperSetup := by
    refine uses_helperSetup fun event known => ?_
    cases event <;> first | rfl | cases known
  have lets : ForkSync.fresh.drop.Uses fun event => isPlain event = true :=
    Program.Uses.bind (plain_drop _) fun _ => Program.Uses.bind (plain_drop _) fun _ =>
      Program.Uses.bind (plain_drop _) fun _ => plain_drop _
  refine Fallible.safe_bind (Q := fun _ _ => True) (fun _ => Setting.Stable.true)
    ((goes (Fallible.Uses.releasingOnError lets setUp) wf).mono fun result k wf => ?_)
  cases result with
  | error error => trivial
  | ok =>
    refine Fallible.safe_lift (.bind ((goes (plain_drop _) wf).mono fun _ k wf => ?_))
    refine .bind ((goes (plain_drop _) wf).mono fun _ k wf => .done (Setting.Safe.stable _ _) ?_)
    refine Fallible.safe_bind (fun _ => Setting.Stable.true) ((follower_readyAndWait wf).mono fun result k told => ?_)
    match result with
    | .error error => trivial
    | .ok .abort => exact .done Setting.Stable.true trivial
    | .ok .continue =>
      refine Setting.Safe.mono (Setting.Safe.uses (uses_helperExec (fun _ known => known) msg) (told_follower statusReady) told ?_
        fun _ _ _ _ told _ taken => told.call taken) fun _ _ _ => trivial
      intro k event told known
      cases event <;> first | exact ⟨rfl,fun _ => told⟩ | cases known

/-- What is left when the helper's process fails is a report and the end. -/
private theorem safe_whenFailed {S : Setting Call Answer Kernel} {msg : String}
    (body : S.Safe (helperBody msg .fresh).run (fun _ _ => True) k) (free : ∀ k event,isPlain event = true → S.guard k event) :
    S.Safe (helperChild msg .fresh).run (fun _ _ => True) k := by
  refine Fallible.safe_lift (body.mono fun result k _ => ?_)
  cases result with
  | ok never => exact never.elim
  | error error =>
    refine .call Setting.Stable.true trivial (fun k _ => free k _ rfl) fun _ _ _ _ _ => ?_
    exact .call Setting.Stable.true trivial (fun k _ => free k _ rfl) fun _ never => nomatch never

end

/-- The helper's process comes to exec only when it has been told to go on, and only while the
program that asked lives with the death signal set against it, or when it is to be killed:
whatever that program does, and wherever it dies. -/
theorem helper_leashed (supervisor : Pid) (blocked : Bool) (msg : String) (parent : Calls (Except Error String))
    {c : Config Call Answer (Except Error String) (Except Error String) Kernel}
    (reached : (Kernel.system supervisor).Reaches ⟨parent,helperChild msg .fresh,.forked blocked⟩ c)
    {event : Call} (pending : c.right.pending = some event) (replaces : isExec event = true) :
    Informed c.state ∧ c.state.Covered := by
  have wf := Kernel.wellFormed_forked blocked
  have covers : (Kernel.orphan supervisor).Safe (helperChild msg .fresh).run (fun _ _ => True) (.forked blocked) :=
    safe_whenFailed (orphan_helperBody msg wf) fun k event plain replaces => by cases event <;> cases plain <;> cases replaces
  have follows : (Kernel.follower supervisor).Safe (helperChild msg .fresh).run (fun _ _ => True) (.forked blocked) :=
    safe_whenFailed (follower_helperBody msg wf) fun k event plain => plain_follows plain k
  have covered := (reached.safe_right covers).pending pending replaces
  have guarded : Kernel.Follows c.state event := (reached.safe_right follows).pending pending
  refine ⟨?_,covered⟩
  cases event with
  | execve _ _ _ | execvp _ _ | execv _ _ => exact guarded.2 rfl
  | _ => cases replaces

/-! A run. -/

private def helperStarts : List CommandTurn :=
  [.left ⟨.close (.pipe .passwd .write),.ok ()⟩,.left ⟨.setpgid 42 42,.ok ()⟩,
    .left ⟨.sigmask .block helperSignals,.ok []⟩,.left ⟨.signalfd helperSignals,.ok ()⟩,
    .left ⟨.close (.pipe (.status .child) .write),.ok ()⟩,.left ⟨.close (.pipe (.status .parent) .read),.ok ()⟩,
    .right ⟨.close (.pipe .passwd .read),.ok ()⟩,.right ⟨.dup2 (.pipe .passwd .write) .stdout,.ok ()⟩,
    .right ⟨.close (.pipe .passwd .write),.ok ()⟩,.right ⟨.openFd .devNull,.ok ()⟩,.right ⟨.dup2 .devNull .stdin,.ok ()⟩,
    .right ⟨.close .devNull,.ok ()⟩,.right ⟨.getuid,(1000 : Uid)⟩,.right ⟨.getgid,(1000 : Gid)⟩,
    .right ⟨.setresgid 1000 1000 1000,.ok ()⟩,.right ⟨.setresuid 1000 1000 1000,.ok ()⟩,
    .right ⟨.setParentDeathSignal .sigkill,.ok ()⟩,.right ⟨.close (.pipe (.status .child) .read),.ok ()⟩,
    .right ⟨.close (.pipe (.status .parent) .write),.ok ()⟩]

private def helperGoes : List CommandTurn :=
  [.right ⟨.setNoNewPrivs,.ok ()⟩,.right ⟨.getenv "RUNAS_ASKPASS",some (encode "/bin/ask")⟩,.right ⟨.environ,[]⟩]

/-- The program dies after it has told the helper to go on. -/
theorem helper_leashed_dead : ∃ c : Config Call Answer (Except Error String) (Except Error String) Kernel,
    ∃ event,c.right.pending = some event ∧ isExec event = true ∧ c.state.alive .parent = false ∧ Informed c.state ∧
      c.state.Covered := by
  have played : ∃ (c : Config Call Answer (Except Error String) (Except Error String) Kernel) (event : Call),
      play (Kernel.player 7) 10 ⟨(helperParent 42 .fresh).run,helperChild "Password:" .fresh,.forked false⟩
        (helperStarts ++ passBarrier ++ [.event .parentDies] ++ helperGoes) = some c ∧
      c.right.pending = some event ∧ isExec event = true ∧ c.state.alive .parent = false :=
    ⟨_,_,rfl,rfl,rfl,rfl⟩
  obtain ⟨c,event,played,pending,replaces,dead⟩ := played
  exact ⟨c,event,pending,replaces,dead,helper_leashed 7 false "Password:" _ (play_sound _ _ played) pending replaces⟩

end Runas
