import Runas.Interaction.Past
import Runas.Phases

/-! What a run does with its rights. The calls that change what the process is, or read the
file that has a say in it, come after the command line has been settled and the caller has
been let through, and they are about the account and the command that were settled. -/
namespace Runas
open Interaction Text

/-- What such a call is about, when it is about what was settled. -/
def Concerns (build : Build) (prepared : Prepared) : Call → Prop
  | .setgroups groups => groups = []
  | .initgroups name gid => build.backend = .scopex ∧ name.bytes = encode prepared.targetUser.name ∧
      gid = prepared.targetUser.gid
  | .setresgid real effective saved => real = (targetIds build prepared.targetUser).1 ∧
      effective = (targetIds build prepared.targetUser).1 ∧ saved = prepared.currentUser.gid
  | .setresuid real effective saved => real = (targetIds build prepared.targetUser).2 ∧
      effective = (targetIds build prepared.targetUser).2 ∧ saved = prepared.currentUser.uid
  | .chdir directory => build.backend = .scopex ∧ prepared.targetDir = some directory
  | .openFile path => path = envFile
  | .execve path argv _ => build.backend = .scopex ∧ ∃ cmd,prepared.argv = cmd :: argv ∧ Located cmd path
  | .execvp file argv => build.backend ≠ .scopex ∧ ∃ settings command,
      file :: argv = prepared.argv ++ settings ++ command ∧ command.map CString.bytes =
        if prepared.flags.meets .shell then [] else encode "--" :: prepared.targetArgs
  | .execv _ _ => False
  | _ => True

/-- The record so far holds a preparation and, after it, an authentication of what was
prepared, both complete and successful, and the call concerns what was prepared. -/
def Mediated (library : Library) (build : Build) (words : List Bytes) (t : List (Exchange Call Answer)) (event : Call) : Prop :=
  ∃ run targetArgs prepared pamEnv asked granted more,Begins library build words run targetArgs ∧
    t = asked ++ granted ++ more ∧ Trace (run.prepare targetArgs).run asked (.ok (.inl prepared)) ∧
    Trace (authenticate run.library.numeric build prepared.currentUser prepared.targetUser prepared.flags).run granted
      (.ok pamEnv) ∧ Concerns build prepared event

/-! Authentication, in both processes it may go on in. -/

abbrev Uncommitted {α : Type} (x : M α) : Prop := Fallible.Uses (fun event => commits event = false) x

theorem uncommitted_about {topics : List Topic} {α : Type} {p : Calls α} (used : p.Uses (About topics))
    (apart : ∀ topic ∈ topics,topic ∉ [.replace,.identity,.environment,.files]) :
    p.Uses fun event => commits event = false :=
  used.mono fun _ about => commits_topic (apart _ about)

theorem uncommitted_barrier (endpoint : ForkEndpoint) : Uncommitted endpoint.readyAndWait :=
  uncommitted_about (uses_readyAndWait endpoint) (by decide)

theorem uncommitted_watchProcess (pid : Pid) (pipe : ForkEndpoint) : Uncommitted (watchProcess pid pipe) := by
  refine (supervising_watchProcess pid pipe).mono fun event known => ?_
  cases event <;> first | rfl | cases known

theorem uncommitted_handleDrop (handle : PamHandle) : handle.drop.Uses fun event => commits event = false :=
  uncommitted_about (PamHandle.uses_drop handle) (by decide)

theorem uncommitted_authFork (handle : PamHandle) (sync : ForkSync) (pamEnv : EnvMap) :
    Uncommitted (authFork handle sync pamEnv) := by
  have child : Uncommitted (authChild sync pamEnv) := by
    have taken : Uncommitted (sync.intoChild : M ForkEndpoint) :=
      .lift (uncommitted_about (uses_intoChild sync) (by decide))
    refine .bind taken fun pipe => ?_
    refine .bind (.releasingOnError (uncommitted_about (uses_endpointDrop pipe) (by decide)) ?_) fun _ => ?_
    · exact .bind (uses_setParentExitSignal rfl) fun _ => .bind (.ask rfl) fun answer => uses_orFail answer
    · refine .bind (uncommitted_barrier pipe) fun decision => ?_
      split <;> trivial
  have parent (pid : Pid) : Uncommitted (authParent handle sync pid) := by
    have taken : Uncommitted (sync.intoParent : M ForkEndpoint) :=
      .lift (uncommitted_about (uses_intoParent sync) (by decide))
    have leaves (code : Int) : Uncommitted (do handle.drop; exit code : M EnvMap) :=
      .bind (.lift (uncommitted_handleDrop handle)) fun _ => .bind (.ask rfl) fun never => nomatch never
    refine .bind taken fun pipe => .bind (Program.Uses.bind (uncommitted_watchProcess pid pipe) fun _ => trivial) fun result => ?_
    cases result with
    | ok code => exact leaves code
    | error error => exact .bind (.ask rfl) fun _ => leaves 1
  refine .bind (.ask rfl) fun forked => ?_
  split
  · exact child
  · exact parent _
  · refine .bind (.lift (uncommitted_handleDrop handle)) fun _ => .bind (.lift ?_) fun _ => trivial
    exact uncommitted_about (uses_syncDrop sync) (by decide)

theorem uncommitted_pamAuth (build : Build) (user target : Account) (flags : RunFlags) (disableAuth : Bool) :
    Uncommitted (pamAuth build user target flags disableAuth) := by
  have sync (handle : PamHandle) : Uncommitted (Fallible.releasingOnError handle.drop ForkSync.new) :=
    .releasingOnError (uncommitted_handleDrop handle) (uncommitted_about uses_syncNew (by decide))
  have session (handle : PamHandle) : Uncommitted (authSession handle) := by
    refine .bind (sync handle) fun sync => .bind (.lift (uncommitted_about (PamHandle.uses_getenvlist handle) (by decide))) ?_
    rintro ⟨listed,handle⟩
    cases listed with
    | ok pamEnv => exact uncommitted_authFork handle sync pamEnv
    | error error =>
      refine .bind (.lift ?_) fun _ => .bind (.lift (uncommitted_handleDrop handle)) fun _ => trivial
      exact uncommitted_about (uses_syncDrop sync) (by decide)
  unfold pamAuth
  refine .bind (uncommitted_about (uses_pamStart _ _ _) (by decide)) fun handle => ?_
  refine .bind (.lift (uncommitted_about (uses_pamLogin build user target flags _ handle) (by decide))) ?_
  rintro ⟨result,handle⟩
  cases result with
  | error error => exact .bind (.lift (uncommitted_handleDrop handle)) fun _ => trivial
  | ok =>
    dsimp only
    split
    · exact session handle
    · exact .bind (.lift (uncommitted_handleDrop handle)) fun _ => trivial

theorem uncommitted_authenticate (numeric : Char → Bool) (build : Build) (user target : Account) (flags : RunFlags) :
    Uncommitted (authenticate numeric build user target flags) := by
  have enters (user : Account) (disableAuth : Bool) : Uncommitted (auth build user target flags disableAuth) := by
    unfold auth
    split
    · exact uncommitted_pamAuth _ _ _ _ _
    · exact .bind (uncommitted_about (uses_shadowAuth user flags) (by decide)) fun _ => trivial
  refine .bind (uncommitted_about (uses_hasTargetGroup user target) (by decide)) ?_
  rintro ⟨has,user⟩
  dsimp only
  split
  · split
    · exact enters user true
    · trivial
  · trivial
  · refine .bind (uncommitted_about (uses_isWheelMember numeric user) (by decide)) fun wheel => ?_
    split
    · exact enters user false
    · trivial

/-! From there on to exec. -/

section concerned
variable {run : Invocation} {prepared : Prepared}

theorem concerns_setCredentials : Fallible.Uses (Concerns run.build prepared)
    (setCredentials run.build prepared.currentUser prepared.targetUser) := by
  unfold setCredentials
  cases pair : targetIds run.build prepared.targetUser with | mk gid uid => ?_
  have known : gid = (targetIds run.build prepared.targetUser).1 ∧ uid = (targetIds run.build prepared.targetUser).2 := by
    rw [pair]
    exact ⟨rfl,rfl⟩
  have ids : Fallible.Uses (Concerns run.build prepared) (do
      orFail (← ask (.setresgid gid gid prepared.currentUser.gid))
      orFail (← ask (.setresuid uid uid prepared.currentUser.uid)) : M Unit) := by
    refine .bind (.ask ⟨known.1,known.1,rfl⟩) fun answer => .bind (uses_orFail answer) fun _ => ?_
    exact .bind (.ask ⟨known.2,known.2,rfl⟩) fun answer => uses_orFail answer
  refine .bind (.ask rfl) fun answer => .bind (uses_orFail answer) fun _ => ?_
  by_cases scopex : run.build.backend = .scopex
  · simp only [if_pos scopex]
    have same : gid = prepared.targetUser.gid := by rw [known.1,targetIds,if_pos scopex]
    have groups : Fallible.Uses (Concerns run.build prepared) (initgroups prepared.targetUser.name gid) := by
      unfold initgroups cstr
      cases named : CString.new (encode prepared.targetUser.name) with
      | none => trivial
      | some name =>
        have concerns : Concerns run.build prepared (.initgroups name gid) := ⟨scopex,CString.new_eq_some named,same⟩
        dsimp only
        rw [pure_bind]
        refine .bind (.ask concerns) fun answer => ?_
        cases answer <;> trivial
    exact .bind groups fun _ => ids
  · simp only [if_neg scopex]
    exact ids

/-- What is handed over to exec: the vector that was prepared, with the settings and the command behind it. -/
def Handed (run : Invocation) (prepared : Prepared) (argv : List CString) : Prop :=
  (run.build.backend = .scopex → argv = prepared.argv) ∧ (run.build.backend ≠ .scopex → ∃ settings command,
    argv = prepared.argv ++ settings ++ command ∧ command.map CString.bytes =
      if prepared.flags.meets .shell then [] else encode "--" :: prepared.targetArgs)

theorem concerns_exec {cmd : CString} {argv envp : List CString} (handed : Handed run prepared (cmd :: argv)) :
    Fallible.Uses (Concerns run.build prepared)
      (exec run.build prepared.currentUser prepared.targetUser cmd argv envp prepared.targetDir) := by
  have cleans : Fallible.Uses (Concerns run.build prepared) cleanEnvironment :=
    uses_cleanEnvironment trivial (fun _ => trivial) trivial
  have rearms (supervisor : Pid) : Fallible.Uses (Concerns run.build prepared) (rearm supervisor) := by
    refine .bind (uses_setParentExitSignal trivial) fun _ => .bind (.ask trivial) fun parent => ?_
    split
    · exact .lift (uses_discard trivial)
    · trivial
  have starts (scopex : run.build.backend = .scopex) : Fallible.Uses (Concerns run.build prepared) (do
      setCwd prepared.targetDir
      execvpe cmd argv envp : M Empty) := by
    have moves : Fallible.Uses (Concerns run.build prepared) (setCwd prepared.targetDir) := by
      unfold setCwd
      split
      · trivial
      · next directory wanted =>
        refine .bind (.ask ⟨scopex,wanted⟩) fun answer => ?_
        cases answer <;> trivial
    refine .bind moves fun _ => uses_execvpe (fun path located => ?_) fun _ => trivial
    exact ⟨scopex,cmd,(handed.1 scopex).symm,located⟩
  have rest (supervisor : Option Pid) : Fallible.Uses (Concerns run.build prepared)
      (execFrom run.build prepared.currentUser prepared.targetUser cmd argv envp prepared.targetDir supervisor) := by
    refine .bind cleans fun _ => .bind concerns_setCredentials fun _ => ?_
    by_cases scopex : run.build.backend = .scopex
    · simp only [if_pos scopex]
      cases supervisor with
      | none => exact starts scopex
      | some supervisor => exact .bind (rearms supervisor) fun _ => starts scopex
    · simp only [if_neg scopex]
      exact .bind (.ask ⟨scopex,handed.2 scopex⟩) fun _ => trivial
  rw [exec_from]
  refine .bind ?_ rest
  split
  · exact .bind (.ask trivial) fun _ => trivial
  · trivial

theorem concerns_execute {out : List CString × List CString} (handed : Handed run prepared out.1) :
    Fallible.Uses (Concerns run.build prepared) (run.execute prepared out) := by
  obtain ⟨argv,envp⟩ := out
  cases argv with
  | nil => exact .bind (.ask trivial) fun never => nomatch never
  | cons cmd argv => exact .bind (concerns_exec handed) fun never => never.elim

theorem concerns_assemble (pamEnv : EnvMap) :
    Fallible.Uses (Concerns run.build prepared) (run.assemble prepared pamEnv) :=
  uses_assembled trivial trivial (fun env => @uses_overrides (Concerns run.build prepared) envFile rfl trivial trivial
    (fun _ => trivial) _ _ env) (fun _ => trivial) pamEnv

theorem uncommitted_words (env : EnvMap) : Uncommitted (run.words prepared env) := by
  have settings (entries : List (Sigma fun _ : String => String)) : Uncommitted (setenvWords entries) := by
    induction entries with
    | nil => trivial
    | cons entry entries ih => exact .bind ((settling_cstring _).mono fun _ => settles_plain) fun _ => .bind ih fun _ => trivial
  have finishes : Uncommitted (finishArgv prepared env) := by
    refine .bind (settings env.entries) fun words => ?_
    split
    · trivial
    · exact .bind ((settling_cstrings _).mono fun _ => settles_plain) fun command => trivial
  unfold Invocation.words
  split
  · exact .bind ((settling_cstrings _).mono fun _ => settles_plain) fun _ => trivial
  · exact .bind finishes fun _ => trivial

open Fallible in
theorem words_handed {A : Exchange Call Answer → Prop} (env : EnvMap) :
    Fallible.Yields A (run.words prepared env) fun out => Handed run prepared out.1 := by
  unfold Invocation.words
  by_cases scopex : run.build.backend = .scopex
  · simp only [if_pos scopex,yields_bind,yields_pure]
    exact (Fallible.Yields.true _).mono fun _ _ => ⟨fun _ => rfl,fun other => absurd scopex other⟩
  · simp only [if_neg scopex,yields_bind,yields_pure]
    have finished : Fallible.Yields A (finishArgv prepared env) (Handed run prepared) := by
      unfold finishArgv
      simp only [yields_bind]
      refine (Fallible.Yields.true _).mono fun settings _ => ?_
      by_cases shell : prepared.flags.meets .shell = true
      · rw [if_pos shell,yields_pure]
        refine ⟨fun other => absurd other scopex,fun _ => ⟨settings,[],by simp,?_⟩⟩
        rw [if_pos shell]
        rfl
      · simp only [if_neg shell,yields_bind,yields_pure]
        refine (yields_cstrings _).mono fun command same => ?_
        refine ⟨fun other => absurd other scopex,fun _ => ⟨settings,word "--" :: command,by simp,?_⟩⟩
        rw [if_neg shell,List.map_cons,same]
        rfl
    exact finished.mono fun argv handed => handed

end concerned

/-! The run as a whole. -/

section mediated
variable {library : Library} {build : Build} {words : List Bytes}

private abbrev mediating (library : Library) (build : Build) (words : List Bytes) :=
  alone (record (E := Call) (R := Answer)) fun t event => commits event = true → Mediated library build words t event

private theorem free_uncommitted (t : List (Exchange Call Answer)) (event : Call) (plain : commits event = false)
    (committed : commits event = true) : Mediated library build words t event := by
  rw [plain] at committed
  cases committed

private theorem safe_launched {run : Invocation} {targetArgs : List Bytes} {prepared : Prepared} {pamEnv : EnvMap}
    {asked granted : List (Exchange Call Answer)} (begins : Begins library build words run targetArgs)
    (prepares : Trace (run.prepare targetArgs).run asked (.ok (.inl prepared)))
    (grants : Trace (authenticate run.library.numeric build prepared.currentUser prepared.targetUser prepared.flags).run
      granted (.ok pamEnv)) (same : run.build = build) :
    (mediating library build words).Safe (run.launch prepared pamEnv).run (fun _ _ => True) (asked ++ granted) := by
  have mediated (more : List (Exchange Call Answer)) (event : Call) (concerns : Concerns run.build prepared event)
      (_ : commits event = true) : Mediated library build words (asked ++ granted ++ more) event :=
    ⟨run,targetArgs,prepared,pamEnv,asked,granted,more,begins,rfl,prepares,grants,same ▸ concerns⟩
  rw [launch_handOver,Invocation.handOver,bind_assoc]
  refine Fallible.safe_bind_alone ((Setting.Safe.onceThere (concerns_assemble pamEnv) mediated).mono ?_)
  rintro result _ ⟨more,rfl⟩
  cases result with
  | error error => trivial
  | ok env =>
    refine Fallible.safe_traced (uncommitted_words env) free_uncommitted ?_ fun _ _ _ => trivial
    intro out own finishes
    have handed := @words_handed run prepared (fun _ => True) env own out finishes fun _ _ => trivial
    rw [List.append_assoc]
    refine (Setting.Safe.onceThere (concerns_execute handed) ?_).mono fun _ _ _ => trivial
    intro later event concerns committed
    rw [List.append_assoc]
    exact mediated _ event concerns committed

private theorem safe_started {run : Invocation} {targetArgs : List Bytes} (begins : Begins library build words run targetArgs)
    (same : run.build = build) : (mediating library build words).Safe (run.start targetArgs).run (fun _ _ => True) [] := by
  refine Fallible.safe_traced ((run.settling_prepare targetArgs).mono fun _ => settles_plain) free_uncommitted ?_ fun _ _ _ => trivial
  intro outcome asked prepares
  cases outcome with
  | inr => exact .done_alone trivial
  | inl prepared =>
    refine Fallible.safe_traced (uncommitted_authenticate _ _ _ _ _) free_uncommitted ?_ fun _ _ _ => trivial
    intro pamEnv granted grants
    rw [same] at grants
    exact safe_launched begins prepares grants same

private theorem safe_run (library : Library) (build : Build) (words : List Bytes) :
    (mediating library build words).Safe (run library build words).run (fun _ _ => True) [] := by
  have stops : (mediating library build words).Safe (panic : M Unit).run (fun _ _ => True) [] :=
    .call_alone (free_uncommitted _ _ rfl) fun never => nomatch never
  cases words with
  | nil => exact stops
  | cons program rest =>
    refine Fallible.safe_silent (silent_utf8Words _) (fun texts reads => ?_) fun _ _ => trivial
    have decoded := @utf8Words_decodes (fun _ => True) _ _ _ reads fun _ _ => trivial
    cases texts with
    | nil => exact stops
    | cons name own =>
      dsimp only
      split
      · exact .call_alone (free_uncommitted _ _ rfl) fun _ _ _ => .done_alone trivial
      · next args parsed =>
        refine Fallible.safe_silent (silent_checkCommand _ _) (fun _ _ => ?_) fun _ _ => trivial
        exact safe_started ⟨program,rest,name,own,args,rfl,decoded,parsed,rfl,rfl⟩ rfl

/-- Whatever happens in a run, it comes to a call that needs its rights only with a record
that mediates it: the command line has been settled, the caller has been let through as that
account to run as the one that was settled, and the call is about what was settled. -/
theorem privileges_mediated (library : Library) (build : Build) (words : List Bytes) {q : Calls Int}
    {t : List (Exchange Call Answer)} {event : Call} (reached : Steps record (main library build words) [] q t)
    (pending : q.pending = some event) (committed : commits event = true) : Mediated library build words t event := by
  have safe : (mediating library build words).Safe (main library build words) (fun _ _ => True) [] := by
    refine Setting.Safe.bind ((safe_run library build words).mono ?_)
    rintro result t -
    cases result with
    | ok => exact .done_alone trivial
    | error error => exact .call_alone (free_uncommitted _ _ rfl) fun _ _ _ => .done_alone trivial
  exact safe_alone_iff.mp safe q t event reached pending committed

end mediated

private def wheelLibrary : Library := ⟨fun _ _ => .ok ⟨[],fun _ => false,fun _ => none⟩,fun _ _ => "",fun _ => false⟩

private def wheelRecord : List (Exchange Call Answer) :=
  [⟨.getuid,(1000 : UInt32)⟩,⟨.userFromUid 1000,.ok (some ⟨"alice",1000,1000,encode "/home/alice",encode "/bin/sh"⟩)⟩,
    ⟨.groupFromGid 1000,.ok (some ⟨"alice",1000⟩)⟩,⟨.userFromUid 0,.ok (some ⟨"root",0,0,encode "/root",encode "/bin/sh"⟩)⟩,
    ⟨.groupFromGid 0,.ok (some ⟨"root",0⟩)⟩,⟨.isTerminal .stdout,false⟩,
    ⟨.getgrouplist (word "alice") 1000,.ok [1000,10]⟩,⟨.groupFromName "wheel",.ok (some ⟨"wheel",10⟩)⟩,
    ⟨.getspnam (word "alice"),.ok (some ⟨"$6$hash",19000,99999,-1,-1⟩)⟩,⟨.now,some 1700000000⟩,
    ⟨.askPassword promptText (RunFlags.none.union .promptHide),.ok "secret"⟩,
    ⟨.crypt (word "secret") (word "$6$hash"),.ok "$6$hash"⟩,⟨.openFile envFile,.error .enoent⟩,⟨.environ,[]⟩,
    ⟨.setgroups [],.ok ()⟩,⟨.setresgid 0 0 1000,.ok ()⟩,⟨.setresuid 0 0 1000,.ok ()⟩]

/-- A member of the wheel group gives the password, and `id` is handed to the backend. -/
theorem privileges_mediated_id : Mediated wheelLibrary ⟨.systemdRun,false,false,false,none,Build.kept⟩
    [encode "runas",encode "--",encode "id"] wheelRecord (.execvp (word "/usr/bin/systemd-run")
      (["systemd-run","--uid","0","--quiet","-G","--send-sighup","--expand-environment=false","--same-dir","--pipe",
        "--service-type=exec","--wait","--","id"].map word)) := by
  obtain ⟨q,steps,pending⟩ := callAfter_steps 100 (p := main wheelLibrary ⟨.systemdRun,false,false,false,none,Build.kept⟩
    [encode "runas",encode "--",encode "id"]) wheelRecord [] rfl
  exact privileges_mediated wheelLibrary _ _ steps pending rfl

end Runas
