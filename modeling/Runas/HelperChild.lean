import Runas.Passwd
import Runas.Phases

/-! The helper's process on its way to exec. -/
namespace Runas
open Interaction Text

/-- The helper's process once it may go on. -/
def helperExec (msg : String) : M Empty := do
  orFail (← ask .setNoNewPrivs)
  let helper ← helperPath
  cleanEnvironment
  if helper.head? ≠ some 47 then
    throw (.staticMessage "RUNAS_ASKPASS must contain an absolute path")
  let some path := CString.new helper | throw (.nul (nulError helper))
  let prompt ← cstr msg
  throw (.errno (← ask (.execv path [path,prompt])))

/-- What it does before it sets its death signal. -/
def helperLower : M Unit := do
  orFail (← ask (.close (.pipe .passwd .read)))
  orFail (← ask (.dup2 (.pipe .passwd .write) .stdout))
  orFail (← ask (.close (.pipe .passwd .write)))
  orFail (← ask (.openFd .devNull))
  orFail (← ask (.dup2 .devNull .stdin))
  orFail (← ask (.close .devNull))
  let uid ← ask .getuid
  let gid ← ask .getgid
  orFail (← ask (.setresgid gid gid gid))
  orFail (← ask (.setresuid uid uid uid))

theorem helperSetup_lowers : helperSetup = helperLower >>= fun _ => setParentExitSignal .sigkill := by
  simp only [helperSetup,helperLower,bind_assoc]

/-- What comes after the helper's pipe. -/
def helperFork (msg : String) (sync : ForkSync) : M String := do
  match ← ask .fork with
  | .ok .child => helperChild msg sync
  | .ok (.parent child) => helperParent child sync
  | .error error =>
    sync.drop
    throw (.errno error)

/-- It begins in the child, beside the program that waits for its answer. -/
theorem helperFork_forks (msg : String) : ∃ next,(helperFork msg .fresh).run = .call .fork next ∧
    next (.ok .child) = (helperChild msg .fresh).run ∧ ∀ child,next (.ok (.parent child)) = (helperParent child .fresh).run :=
  ⟨_,rfl,rfl,fun _ => rfl⟩

/-! What it calls. -/

section
variable {allowed : Call → Prop}

theorem uses_helperPath (getenv : ∀ name,allowed (.getenv name)) : Fallible.Uses allowed helperPath := by
  refine .bind (.ask (getenv _)) fun first => ?_
  split
  · trivial
  · refine .bind (.ask (getenv _)) fun second => ?_
    split <;> trivial

/-- The calls before the barrier. -/
def lowers : Call → Bool
  | .close _ | .dup2 _ _ | .openFd _ | .getuid | .getgid | .setresgid _ _ _ | .setresuid _ _ _ | .setParentDeathSignal _ => true
  | _ => false

theorem uses_helperLower (known : ∀ event,lowers event = true → allowed event) : Fallible.Uses allowed helperLower := by
  refine .bind (.ask (known _ rfl)) fun closed => .bind (uses_orFail closed) fun _ => ?_
  refine .bind (.ask (known _ rfl)) fun moved => .bind (uses_orFail moved) fun _ => ?_
  refine .bind (.ask (known _ rfl)) fun closed => .bind (uses_orFail closed) fun _ => ?_
  refine .bind (.ask (known _ rfl)) fun opened => .bind (uses_orFail opened) fun _ => ?_
  refine .bind (.ask (known _ rfl)) fun moved => .bind (uses_orFail moved) fun _ => ?_
  refine .bind (.ask (known _ rfl)) fun closed => .bind (uses_orFail closed) fun _ => ?_
  refine .bind (.ask (known _ rfl)) fun uid => .bind (.ask (known _ rfl)) fun gid => ?_
  refine .bind (.ask (known _ rfl)) fun set => .bind (uses_orFail set) fun _ => ?_
  exact .bind (.ask (known _ rfl)) fun set => uses_orFail set

theorem uses_helperSetup (known : ∀ event,lowers event = true → allowed event) : Fallible.Uses allowed helperSetup := by
  rw [helperSetup_lowers]
  exact .bind (uses_helperLower known) fun _ => uses_setParentExitSignal (known _ rfl)

/-- The calls after it. -/
def replaces : Call → Bool
  | .setNoNewPrivs | .getenv _ | .environ | .unsetenv _ | .panic | .execv _ _ => true
  | _ => false

theorem uses_helperExec (known : ∀ event,replaces event = true → allowed event) (msg : String) :
    Fallible.Uses allowed (helperExec msg) := by
  refine .bind (.ask (known _ rfl)) fun answer => .bind (uses_orFail answer) fun _ => ?_
  refine .bind (uses_helperPath fun _ => known _ rfl) fun helper => ?_
  refine .bind (uses_cleanEnvironment (known _ rfl) (fun _ => known _ rfl) (known _ rfl)) fun _ => ?_
  dsimp only
  split
  · trivial
  · split
    · exact .bind (uses_cstr _) fun prompt => .bind (.ask (known _ rfl)) fun _ => trivial
    · trivial

/-- All that the helper's process calls, where the barrier is the one of the fork. -/
def assists : Call → Bool
  | .write (.pipe (.status .child) .write) _ | .read (.pipe (.status .parent) .read) _ | .report _ _ | .exit _ => true
  | event => lowers event || replaces event

theorem only_helperBody (msg : String) :
    (helperBody msg ForkSync.fresh).run.Only (fun event => assists event = true) fun _ => True := by
  have early : Fallible.Uses (fun event => assists event = true) helperSetup := by
    refine uses_helperSetup fun event known => ?_
    cases event <;> first | rfl | cases known
  have late : Fallible.Uses (fun event => assists event = true) (helperExec msg) := by
    refine uses_helperExec (fun event known => ?_) msg
    cases event <;> first | rfl | cases known
  have drops (fd : Option Fd) : (Descriptor.drop fd).Uses fun event => assists event = true := by
    cases fd with
    | none => trivial
    | some fd => exact uses_discard rfl
  have lets : ForkSync.fresh.drop.Uses fun event => assists event = true :=
    Program.Uses.bind (drops _) fun _ => Program.Uses.bind (drops _) fun _ => Program.Uses.bind (drops _) fun _ => drops _
  have setUp : Fallible.Uses (fun event => assists event = true) (Fallible.releasingOnError ForkSync.fresh.drop helperSetup) :=
    .releasingOnError lets early
  refine Fallible.safe_bind_alone (setUp.only.mono fun result _ _ => ?_)
  cases result with
  | error error => trivial
  | ok =>
    refine Fallible.safe_lift (.bind ((drops _).only.mono fun _ _ _ => .bind ((drops _).only.mono fun _ _ _ => .done_alone ?_)))
    have waits : Program.Only (fun event => assists event = true) (ForkEndpoint.mk ForkSync.fresh.childWrite
        ForkSync.fresh.childRead false).readyAndWait.run fun _ => True := only_readyAndWait rfl rfl rfl rfl
    refine Fallible.safe_bind_alone (waits.mono fun result _ _ => ?_)
    cases result with
    | error error => trivial
    | ok decision =>
      dsimp only
      split
      · exact .done_alone trivial
      · exact late.only

theorem only_helperChild (msg : String) :
    (helperChild msg ForkSync.fresh).run.Only (fun event => assists event = true) fun _ => False := by
  refine Fallible.safe_lift ((only_helperBody msg).mono fun result _ _ => ?_)
  cases result with
  | ok never => exact never.elim
  | error error => exact .call_alone rfl fun _ _ _ => .call_alone rfl fun never => nomatch never

end

/-! The program that waits for it. -/

theorem silent_helperResult (state : HelperState) : Fallible.Uses (fun _ => False) (helperResult state) := by
  unfold helperResult
  split
  · trivial
  · dsimp only
    split
    · trivial
    · split
      · trivial
      · split <;> trivial

theorem supervising_helperRound (child : Pid) (signals : SignalReceiver) (state : HelperState) :
    Supervising (helperRound child signals state).run := by
  have reacts (event : SignalEvent) (state : HelperState) : Supervising (helperReact child state event).run := by
    unfold helperReact
    split
    · trivial
    · refine Fallible.Uses.iterate fun state => Fallible.Uses.bind (.ask rfl) fun answer => ?_
      rcases answer with error | status
      · cases error <;> trivial
      · cases status <;> trivial
    · exact Fallible.Uses.bind (.lift (uses_discard rfl)) fun _ => trivial
  have reads : Supervising (state.prompt.read 128).run := uses_promptRead (fun _ _ => rfl) (fun _ => rfl) 128
  refine Fallible.Uses.bind reads fun found => ?_
  rcases found with ⟨_ | chunk,prompt⟩
  · refine Fallible.Uses.bind (uses_receiverRead rfl) fun event => ?_
    cases event with
    | none => trivial
    | some event => exact Fallible.Uses.bind (reacts event _) fun _ => trivial
  · trivial

theorem supervising_helperParent (child : Pid) (sync : ForkSync) : Supervising (helperParent child sync).run := by
  have drops : Supervising sync.drop :=
    Program.Uses.bind (supervising_descriptor _) fun _ => Program.Uses.bind (supervising_descriptor _) fun _ =>
      Program.Uses.bind (supervising_descriptor _) fun _ => supervising_descriptor _
  have installs : Supervising (helperInstall child).run :=
    Fallible.Uses.bind (.ask rfl) fun closed => .bind (uses_orFail closed) fun _ => .bind (.ask rfl) fun joined =>
      .bind (uses_orFail joined) fun _ => supervising_receiverInstall _
  have takes : Supervising sync.intoParent :=
    Program.Uses.bind (supervising_descriptor _) fun _ => Program.Uses.bind (supervising_descriptor _) fun _ => trivial
  refine Fallible.Uses.bind (.releasingOnError drops installs) fun signals => ?_
  -- The prompt has only a pipe, whose settings are never changed.
  have closes : Supervising (Prompt.new (.pipe .passwd .read) (.pipe .passwd .read) signals.fd true).drop := uses_discard rfl
  refine .releasing (Program.Uses.bind closes fun _ => supervising_receiverDrop signals) (.bind (.lift takes) fun endpoint => .bind (supervising_readyAndWait endpoint) fun decision => ?_)
  dsimp only
  split
  · trivial
  · refine Fallible.Uses.bind (.iterate (supervising_helperRound child signals)) fun state => ?_
    exact (silent_helperResult state).mono fun _ absurd => absurd.elim

end Runas
