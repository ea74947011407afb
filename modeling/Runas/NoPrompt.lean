import Runas.PamGate

/-! Non-interactive runs. The decision about the caller keeps them from authenticating, but a
caller who need not authenticate is still taken into the PAM library where a session is
opened, and its modules may ask. -/
namespace Runas
open Interaction Text

/-- The caller's groups, as they are known or can be asked for, may include the target's. -/
def MayBelong (user target : Account) : Prop :=
  target.gid = user.gid ∨ match user.groupList with
    | some groups => target.gid ∈ groups
    | none => 0 ∉ encode user.name

/-- The PAM library is started without authentication: in a build that opens a session, for
root or for the caller's own uid. -/
def EntersPam (build : Build) (user target : Account) : Prop :=
  build.supervised = true ∧ 0 ∉ encode target.name ∧
    (user.isRoot = true ∨ target.uid = user.uid ∧ MayBelong user target)

def Unasked (event : Call) : Prop := ∀ message flags,event ≠ .askPassword message flags

section
variable {numeric : Char → Bool} {build : Build} {user target : Account} {flags : RunFlags}

private theorem decision_silent (silent : nonInteractive flags = true) (root same group : Bool) :
    authDecision root same group (nonInteractive flags) ≠ .authenticate := by
  rw [silent,Ne,authDecision_eq_authenticate]
  simp

private theorem cstr_nul {text : String} (nul : 0 ∈ encode text) : cstr text = throw (.nul (nulError (encode text))) := by
  rw [cstr,CString.new,dif_pos nul]

private theorem cstr_text {text : String} (plain : 0 ∉ encode text) : cstr text = pure ⟨encode text,plain⟩ := by
  rw [cstr,CString.new,dif_neg plain]

private theorem auth_session (supervised : build.supervised = true) : ∃ rest : PamHandle → M EnvMap,
    auth build user target flags true = pamStart "runas" target.name flags >>= rest := by
  obtain ⟨scopex,usePam⟩ := Bool.and_eq_true_iff.mp supervised
  rw [beq_iff_eq] at scopex
  unfold auth pamAuth
  rw [if_pos usePam,scopex]
  exact ⟨_,rfl⟩

private def decided (numeric : Char → Bool) (build : Build) (user target : Account) (flags : RunFlags)
    (has : Bool) : M EnvMap := do
  match authDecision user.isRoot (target.uid == user.uid) has (nonInteractive flags) with
  | .allow => if build.supervised then auth build user target flags true else return ∅
  | .deny => throw authFailed
  | .authenticate =>
    if ← isWheelMember numeric user then auth build user target flags false
    else throw authFailed

private theorem decided_quiet (silent : nonInteractive flags = true) (has : Bool)
    (kept : build.supervised = true → (user.isRoot = true ∨ (target.uid == user.uid) = true ∧ has = true) →
      0 ∈ encode target.name) : Fallible.Uses Unasked (decided numeric build user target flags has) := by
  unfold decided
  cases decision : authDecision user.isRoot (target.uid == user.uid) has (nonInteractive flags) with
  | deny => trivial
  | authenticate => exact absurd decision (decision_silent silent _ _ _)
  | allow =>
    dsimp only
    split
    · next supervised =>
      have nul := kept supervised (authDecision_eq_allow.mp decision)
      obtain ⟨rest,same⟩ := @auth_session build user target flags supervised
      have unstarted : auth build user target flags true = throw (.nul (nulError (encode target.name))) := by
        rw [same,pamStart,cstr_text (by decide : 0 ∉ encode "runas"),cstr_nul nul]
        rfl
      rw [unstarted]
      trivial
    · trivial

private theorem authenticate_quiet (silent : nonInteractive flags = true) (enters : ¬ EntersPam build user target) :
    Fallible.Uses Unasked (authenticate numeric build user target flags) := by
  unfold authenticate hasTargetGroup
  by_cases gid : target.gid = user.gid
  · rw [if_pos gid,pure_bind]
    refine decided_quiet silent true fun supervised allowed => ?_
    by_contra plain
    refine enters ⟨supervised,plain,allowed.imp_right fun same => ⟨by simpa using same.1,.inl gid⟩⟩
  rw [if_neg gid]
  unfold Account.isMember
  by_cases isRoot : user.isRoot = true
  · rw [if_pos isRoot,pure_bind]
    refine decided_quiet silent true fun supervised _ => ?_
    by_contra plain
    exact enters ⟨supervised,plain,.inl isRoot⟩
  rw [if_neg isRoot]
  have listed (groups : List Gid) (account : Account) (root : account.isRoot = user.isRoot) (uid : account.uid = user.uid)
      (may : target.gid ∈ groups → MayBelong user target) :
      Fallible.Uses Unasked (decided numeric build account target flags (groups.any (· == target.group.gid))) := by
    refine decided_quiet silent _ fun supervised allowed => ?_
    by_contra plain
    rw [root,uid] at allowed
    refine enters ⟨supervised,plain,allowed.imp_right fun same => ⟨by simpa using same.1,may ?_⟩⟩
    simpa [Account.gid] using same.2
  unfold Account.getGroupList
  cases known : user.groupList with
  | some groups =>
    refine listed groups user rfl rfl fun member => .inr ?_
    rw [known]
    exact member
  | none =>
    by_cases nul : 0 ∈ encode user.user.name
    · rw [cstr_nul nul]
      trivial
    · rw [cstr_text nul]
      dsimp only
      simp only [pure_bind,bind_assoc]
      refine .bind (.ask fun _ _ same => (by cases same)) fun answer => ?_
      cases answer with
      | error error => trivial
      | ok groups =>
        refine listed groups { user with groupList := some groups } rfl rfl fun _ => .inr ?_
        rw [known]
        exact nul

def question : PamRequest := ⟨1,some [some ⟨Pam.promptEchoOff,some []⟩],true⟩

private theorem question_asked (flags : RunFlags) :
    (Pam.convProcess (Conv flags) question).Makes (.askPassword "" (flags.union .promptHide)) :=
  Program.callAfter_sound 10 [⟨.calloc 1,.ok ()⟩] rfl

private theorem call_asks (flags : RunFlags) (function : PamFunction) :
    (Pam.call (Conv flags) function).Makes (.askPassword "" (flags.union .promptHide)) := by
  refine Program.Makes.later (.converse question) ?_
  change (Program.iterate (Pam.converse (Conv flags)) _).Makes _
  exact .loop (((question_asked flags).first _).first _)

private theorem pamStart_asks (plain : 0 ∉ encode target.name) :
    (pamStart "runas" target.name flags).run.Makes (.askPassword "" (flags.union .promptHide)) := by
  unfold pamStart
  rw [cstr_text (by decide : 0 ∉ encode "runas"),cstr_text plain,pure_bind,pure_bind]
  exact Fallible.Makes.first ((call_asks flags _).first _) _

private theorem group_granted (may : user.isRoot = true ∨ target.uid = user.uid ∧ MayBelong user target) :
    ∃ t has after,Trace (hasTargetGroup user target).run t (.ok (has,after)) ∧
      authDecision after.isRoot (target.uid == after.uid) has (nonInteractive flags) = .allow := by
  unfold hasTargetGroup
  by_cases gid : target.gid = user.gid
  · refine ⟨[],true,user,?_,authDecision_eq_allow.mpr (may.imp_right fun same => ⟨by simp [same.1],rfl⟩)⟩
    rw [if_pos gid]
    exact .done _
  rw [if_neg gid]
  unfold Account.isMember
  by_cases isRoot : user.isRoot = true
  · refine ⟨[],true,user,?_,authDecision_eq_allow.mpr (.inl isRoot)⟩
    rw [if_pos isRoot]
    exact .done _
  rw [if_neg isRoot]
  obtain ⟨uid,belongs⟩ := may.resolve_left isRoot
  have listed := belongs.resolve_left gid
  unfold Account.getGroupList
  cases known : user.groupList with
  | some groups =>
    rw [known] at listed
    refine ⟨[],_,user,.done _,authDecision_eq_allow.mpr (.inr ⟨by simp [uid],?_⟩)⟩
    exact List.any_eq_true.mpr ⟨target.gid,listed,by simp [Account.gid]⟩
  | none =>
    rw [known] at listed
    change 0 ∉ encode user.user.name at listed
    dsimp only
    rw [cstr_text listed]
    refine ⟨[⟨.getgrouplist ⟨encode user.user.name,listed⟩ user.user.gid,.ok [target.gid]⟩],_,
      { user with groupList := some [target.gid] },.call (.done _),authDecision_eq_allow.mpr (.inr ⟨?_,?_⟩)⟩
    · exact beq_iff_eq.mpr uid
    · simp [Account.gid]

end

/-- A non-interactive run asks for no password just when the caller is not let through into
the PAM library. -/
theorem noninteractive_silent_iff (numeric : Char → Bool) (build : Build) (user target : Account) (flags : RunFlags)
    (noPrompt : flags.contains .authNoPrompt = true) (unset : flags.contains .authStdin = false) :
    (∀ message given,¬ (authenticate numeric build user target flags).run.Makes (.askPassword message given)) ↔
      ¬ EntersPam build user target := by
  have silent : nonInteractive flags = true := by simp [nonInteractive,noPrompt,unset]
  constructor
  · intro never enters
    obtain ⟨supervised,plain,may⟩ := enters
    obtain ⟨t,has,after,told,decided⟩ := @group_granted user target flags may
    refine never "" (flags.union .promptHide) ?_
    unfold authenticate
    refine Fallible.Makes.after told ?_
    dsimp only
    rw [decided]
    simp only [if_pos supervised]
    obtain ⟨rest,same⟩ := @auth_session build after target flags supervised
    rw [same]
    exact Fallible.Makes.first (pamStart_asks plain) rest
  · intro outside message given makes
    exact (authenticate_quiet silent outside).made makes message given rfl

theorem noninteractive_silent_alice :
    ¬ (authenticate (fun _ => false) supervisedBuild alice root .authNoPrompt).run.Makes
      (.askPassword promptText (RunFlags.authNoPrompt.union .promptHide)) := by
  refine (noninteractive_silent_iff (fun _ => false) supervisedBuild alice root .authNoPrompt rfl rfl).mpr ?_ _ _
  rintro ⟨_,_,isRoot | ⟨same,_⟩⟩
  · exact absurd isRoot (by decide)
  · exact absurd same (by decide)

/-- Account management asks alice, who runs a command as herself and is not to be prompted. -/
theorem noninteractive_asks :
    RunFlags.authNoPrompt.contains .authNoPrompt = true ∧ RunFlags.authNoPrompt.contains .authStdin = false ∧
      (authenticate (fun _ => false) supervisedBuild alice alice .authNoPrompt).run.Makes
        (.askPassword "Password: " (RunFlags.authNoPrompt.union .promptHide)) := by
  let name text := CString.ofBuffer (encode text)
  refine ⟨rfl,rfl,Program.callAfter_sound 60 ?_ ?_⟩
  · exact [⟨.pam (.start (name "runas") (name "alice")),.returned (Pam.success,true)⟩,⟨.isTerminal .stdin,false⟩,
      ⟨.pam (.setItem .tty (name "/runas")),.returned Pam.success⟩,
      ⟨.pam (.setItem .ruser (name "alice")),.returned Pam.success⟩,
      ⟨.pam (.acctMgmt 0),.converse ⟨1,some [some ⟨Pam.promptEchoOff,some (encode "Password: ")⟩],true⟩⟩,
      ⟨.calloc 1,.ok ()⟩]
  · rfl

end Runas
