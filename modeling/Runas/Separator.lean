import Runas.BackendVector

/-! The words behind the first `--`. Whatever they are, everything before the command is
started goes as it would go with any others, and they are the end of the command. -/
namespace Runas
open Interaction Text Getopt Fallible

/-- What is settled for a command whose last words are yet to come. -/
def Prepared.handed (prepared : Prepared) (backend : Backend) (command : List CString) : Prepared := { prepared with
  targetArgs := prepared.targetArgs ++ command.map CString.bytes
  argv := prepared.argv ++ if backend = .scopex then
    if prepared.targetArgs = [] then command.take 1 ++ command else command else [] }

namespace Invocation
variable (run : Invocation)

def commandMode (free : List Bytes) (flags : RunFlags) (argv : List CString) : M (List CString) := do
  if flags.meets .shell then throw (.staticMessage "Not expecting arguments with the --shell option")
  if run.build.withAskpassSupport && flags.contains .authStdin && flags.contains .authAskpass then
    throw (.staticMessage "The --stdin option is not allowed combined with the --askpass option")
  match run.build.backend with
  | .scopex => return argv ++ (← cstrings (free.take 1 ++ free))
  | backend => do
    let io := if ← isInteractive then word "--pty" else word "--pipe"
    return argv ++ [io] ++ if backend = .run0 then [] else [word "--service-type=exec",word "--wait"]

def settleFrom (free : List Bytes) (first : List CString) : M (Prepared ⊕ Unit) := do
  match ← run.applyOptions ⟨∅,none,none,.none,first,none⟩ (argvScheme run.build) with
  | .inr () => return .inr ()
  | .inl request =>
    let some currentUser ← Account.current
      | throw (.staticMessage "Failed to initialize current user")
    let targetUser ← targetOf request
    let argv ← run.addDirectory request.argv
    let argv ← run.commandMode free request.flags argv
    return .inl ⟨currentUser,targetUser,free,request.flags,request.env,argv,request.targetDir⟩

/-- `prepare` up to the last words of the command. -/
def settle : M (Prepared ⊕ Unit) :=
  (if run.build.backend = .scopex then pure [] else buildArgv run.build) >>= run.settleFrom (run.args.free.map encode)

end Invocation

/-- `run` up to authentication, on the program and the words before the first `--`. -/
def settleWords (library : Library) (build : Build) (words : List Bytes) : M ((Invocation × Prepared) ⊕ Unit) := do
  match ← utf8Words words with
  | [] => panic
  | program :: own =>
    match library.parse (argvScheme build) own with
    | .error error => do
      ask (.print (library.usage (argvScheme build) ("Usage: " ++ program ++ " [options] -- CMD")))
      throw (.message error)
    | .ok args =>
      checkCommand args [[]]
      match ← Invocation.settle ⟨library,build,program,args⟩ with
      | .inr () => return .inr ()
      | .inl prepared => return .inl (⟨library,build,program,args⟩,prepared)

def carryOut (command : List CString) : (Invocation × Prepared) ⊕ Unit → M Unit
  | .inr () => return ()
  | .inl (run,prepared) => do
    let pamEnv ← authenticate run.library.numeric run.build prepared.currentUser prepared.targetUser prepared.flags
    run.launch (prepared.handed run.build.backend command) pamEnv

private theorem panic_bind {α β : Type} (f : α → M β) : (panic >>= f : M β) = panic := by
  unfold panic
  rw [bind_assoc]
  congr 1
  funext never
  cases never

private theorem cstrings_append (a b : List Bytes) :
    cstrings (a ++ b) = do return (← cstrings a) ++ (← cstrings b) := by
  induction a with
  | nil => simp [cstrings]
  | cons bytes a ih => simp [cstrings,ih]

section
namespace Invocation
variable {run : Invocation} {free : List Bytes} {command : List CString}

private theorem cstrings_words : cstrings ((free ++ command.map CString.bytes).take 1 ++ (free ++ command.map CString.bytes)) =
    (fun words => words ++ if free = [] then command.take 1 ++ command else command) <$>
      cstrings (free.take 1 ++ free) := by
  cases free with
  | nil =>
    have both : (command.map CString.bytes).take 1 ++ command.map CString.bytes =
        (command.take 1 ++ command).map CString.bytes := by simp
    rw [List.nil_append,both,cstrings_command]
    rfl
  | cons bytes free =>
    have whole : (bytes :: free ++ command.map CString.bytes).take 1 ++ (bytes :: free ++ command.map CString.bytes) =
        ((bytes :: free).take 1 ++ (bytes :: free)) ++ command.map CString.bytes := by simp
    rw [whole,cstrings_append,cstrings_command]
    simp

private theorem throw_bind {α β : Type} (error : Error) (f : α → M β) : (throw error >>= f : M β) = throw error := rfl

private theorem argvFor_command (some : command ≠ []) (target : Account) (flags : RunFlags) (argv : List CString) :
    run.argvFor target (free ++ command.map CString.bytes) flags argv =
      (fun argv => argv ++ if run.build.backend = .scopex then
        if free = [] then command.take 1 ++ command else command else []) <$> run.commandMode free flags argv := by
  unfold argvFor commandMode
  by_cases shell : flags.meets .shell = true
  · have extra : free ++ command.map CString.bytes ≠ [] := by simp [some]
    rw [if_pos shell,if_pos shell,shellArgv,if_pos extra,throw_bind,throw_bind]
    rfl
  rw [if_neg shell,if_neg shell,commandArgv]
  dsimp only
  by_cases both : (run.build.withAskpassSupport && flags.contains .authStdin && flags.contains .authAskpass) = true
  · rw [if_pos both,if_pos both,throw_bind,throw_bind]
    rfl
  rw [if_neg both,if_neg both]
  cases backend : run.build.backend with
  | scopex => simp [cstrings_words,List.append_assoc]
  | run0 | systemdRun => simp

theorem prepare_command (some : command ≠ []) :
    run.prepare (run.args.free.map encode ++ command.map CString.bytes) =
      (Sum.map (fun prepared => prepared.handed run.build.backend command) id) <$> run.settle := by
  rw [prepare_eq,settle,map_bind]
  congr 1
  funext first
  rw [prepareFrom,settleFrom,map_bind]
  congr 1
  funext out
  cases out with
  | inr done => rfl
  | inl request =>
    dsimp only
    simp only [map_bind]
    congr 1
    funext current
    cases current with
    | none => rfl
    | some current =>
      dsimp only
      simp only [map_bind,argvFor_command some,bind_map_left,map_pure]
      rfl

theorem settles_command (some : command ≠ []) {t : List (Exchange Call Answer)} {prepared : Prepared}
    (settles : Trace run.settle.run t (.ok (.inl prepared))) :
    Trace (run.prepare (run.args.free.map encode ++ command.map CString.bytes)).run t
      (.ok (.inl (prepared.handed run.build.backend command))) := by
  rw [prepare_command some,map_eq_pure_bind]
  exact (trace_bind_ok _ _ _ _).mpr ⟨t,_,[],(List.append_nil t).symm,settles,.done _⟩

private theorem Effect.argv {A : Exchange Call Answer → Prop} (scopex : run.build.backend = .scopex)
    {request after : Request} {opt : CliOption} (effect : run.Effect A request after opt) : after.argv = request.argv := by
  cases opt with
  | help | version => exact effect.elim
  | user =>
    obtain ⟨text,account,argv,_,_,takes,rfl⟩ := effect
    rwa [Takes,if_pos scopex] at takes
  | group =>
    obtain ⟨text,group,argv,_,_,takes,rfl⟩ := effect
    rwa [Takes,if_pos scopex] at takes
  | chdir =>
    obtain ⟨text,argv,_,takes,rfl⟩ := effect
    rwa [Takes,if_pos scopex] at takes
  | env =>
    obtain ⟨text,name,value,_,_,rfl⟩ := effect
    rfl
  | preserve =>
    obtain ⟨list,env,_,_,rfl⟩ := effect
    rfl
  | shell | stdin | nonint | askpass => exact effect ▸ rfl

private theorem prepare_shell {targetArgs : List Bytes} (some : targetArgs ≠ []) {t : List (Exchange Call Answer)}
    {prepared : Prepared} (prepares : Trace (run.prepare targetArgs).run t (.ok (.inl prepared))) :
    run.args.optPresent "shell" = false := by
  obtain ⟨start,request,argv,settles⟩ :=
    @yields_prepare run (fun _ => True) targetArgs t _ prepares (fun _ _ => trivial) prepared rfl
  rw [← settles.shell,Bool.eq_false_iff]
  intro shell
  have refused : Yields (fun _ => True) (run.argvFor prepared.targetUser targetArgs request.flags argv) (fun _ => False) := by
    rw [argvFor,if_pos shell,shellArgv,if_pos some]
    exact yields_throw_bind _ _ _
  exact settles.mode.meets refused

theorem prepare_scopex (scopex : run.build.backend = .scopex) {targetArgs : List Bytes} (some : targetArgs ≠ [])
    {t : List (Exchange Call Answer)} {prepared : Prepared}
    (prepares : Trace (run.prepare targetArgs).run t (.ok (.inl prepared))) :
    prepared.argv.map CString.bytes = targetArgs.take 1 ++ targetArgs := by
  obtain ⟨start,request,argv,settles⟩ :=
    @yields_prepare run (fun _ => True) targetArgs t _ prepares (fun _ _ => trivial) prepared rfl
  have started : start = [] := by
    have first := settles.first
    rw [if_pos scopex] at first
    exact first.meets ((yields_pure _ (fun start => start = [])).mpr rfl)
  have chosen : request.argv = [] := by
    have same := settles.options.fold (fun request => request.argv) (fun argv _ => argv)
      fun opt request after _ effect => effect.argv scopex
    rw [same,List.foldl_fixed]
    exact started
  have placed : argv = [] := by
    have left : Yields (fun _ => True) (run.addDirectory request.argv) (fun argv => argv = []) := by
      rw [addDirectory,scopex]
      exact (yields_pure _ _).mpr chosen
    exact settles.directory.meets left
  subst placed
  have mode : Yields (fun _ => True) (run.argvFor prepared.targetUser targetArgs request.flags [])
      (fun argv => argv.map CString.bytes = targetArgs.take 1 ++ targetArgs) := by
    have plain : ¬ request.flags.meets .shell = true := by
      rw [settles.shell,prepare_shell some prepares]
      exact Bool.false_ne_true
    rw [argvFor,if_neg plain,commandArgv]
    by_cases both : (run.build.withAskpassSupport && request.flags.contains .authStdin &&
        request.flags.contains .authAskpass) = true
    · rw [if_pos both]
      exact yields_throw_bind _ _ _
    simp only [if_neg both,scopex,yields_bind,yields_pure,List.nil_append]
    exact yields_cstrings _
  exact settles.mode.meets mode

end Invocation
end

/-- Words before the first `--`, and others behind it. -/
theorem run_separated (library : Library) (build : Build) (program : Bytes) {own : List Bytes}
    (plain : encode "--" ∉ own) {command : List CString} (some : command ≠ []) :
    run library build (program :: (own ++ encode "--" :: command.map CString.bytes)) =
      settleWords library build (program :: own) >>= carryOut command := by
  have split : splitArgs (own ++ encode "--" :: command.map CString.bytes) = (own,command.map CString.bytes) := by
    have other : ∀ bytes ∈ own,(bytes != encode "--") = true := by
      intro bytes member
      rw [bne_iff_ne]
      exact fun same => plain (same ▸ member)
    simp [splitArgs,List.takeWhile_append_of_pos other,List.dropWhile_append_of_pos other]
  unfold run settleWords
  dsimp only
  rw [split,bind_assoc]
  congr 1
  funext words
  cases words with
  | nil => exact (panic_bind _).symm
  | cons program own =>
    dsimp only
    cases library.parse (argvScheme build) own with
    | error error =>
      dsimp only
      rw [bind_assoc]
      rfl
    | ok args =>
      have checked : checkCommand args (args.free.map encode ++ command.map CString.bytes) = checkCommand args [[]] := by
        have nonempty : (args.free.map encode ++ command.map CString.bytes).isEmpty = false := by simp [some]
        unfold checkCommand
        rw [nonempty]
        rfl
      dsimp only
      rw [checked,bind_assoc]
      congr 1
      funext _
      rw [Invocation.start,Invocation.prepare_command some,bind_map_left,bind_assoc]
      congr 1
      funext out
      cases out <;> rfl

/-- A call that turns the process into another program is for the command of these words. -/
def Hands (backend : Backend) (words : List Bytes) : Call → Prop
  | .execvp _ argv => ∃ opts,backendReads backend argv = some (opts,words)
  | .execve path argv _ => argv.map CString.bytes = words ∧ ∃ cmd : CString,words.head? = some cmd.bytes ∧ Located cmd path
  | _ => True

private theorem hands_other {backend : Backend} {words : List Bytes} {event : Call} (other : event.topic ≠ .replace) :
    Hands backend words event := by
  cases event <;> trivial

private theorem launch_hands {run : Invocation} {prepared : Prepared} {command : List CString} (some : command ≠ [])
    {t u : List (Exchange Call Answer)} (settles : Trace run.settle.run t (.ok (.inl prepared))) {pamEnv : EnvMap}
    {out : Except Error Unit} (launches : Trace (run.launch (prepared.handed run.build.backend command) pamEnv).run u out)
    {x : Exchange Call Answer} (made : x ∈ u) :
    Hands run.build.backend (run.args.free.map encode ++ command.map CString.bytes) x.1 := by
  have prepares := Invocation.settles_command some settles
  have nonempty : run.args.free.map encode ++ command.map CString.bytes ≠ [] := by simp [some]
  by_cases scopex : run.build.backend = .scopex
  · have words := Invocation.prepare_scopex scopex nonempty prepares
    rw [List.take_one,List.head?_eq_some_head nonempty] at words
    have others (event : Call) (about : event.topic ≠ .replace) :
        Hands run.build.backend (run.args.free.map encode ++ command.map CString.bytes) event := hands_other about
    refine launches.uses (uses_launch scopex (fun event about => others event ?_) (fun event about => others event ?_)
      ?_ pamEnv) x made
    · intro replaces
      simp [About,execTopics,replaces] at about
    · intro replaces
      simp [About,environmentTopics,replaces] at about
    · intro cmd argv same path envp located
      rw [same] at words
      obtain ⟨first,rest⟩ := List.cons.inj words
      exact ⟨rest,cmd,first ▸ List.head?_eq_some_head nonempty,located⟩
  · by_cases replaces : x.1.topic = .replace
    · obtain ⟨file,argv,env,v,_,directory,interactive,same,_,_,_,_,_,_,reads⟩ :=
        Invocation.launched_vector scopex prepares (fun _ _ => trivial : ∀ x ∈ t,(fun _ => True) x) launches made replaces
      rw [Invocation.prepare_shell nonempty prepares,if_neg Bool.false_ne_true] at reads
      rw [same]
      exact ⟨_,reads⟩
    · exact hands_other replaces

private theorem yields_utf8Words {A : Exchange Call Answer → Prop} (words : List Bytes) :
    Yields A (utf8Words words) (fun texts => words = texts.map encode) := by
  induction words with
  | nil => exact (yields_pure _ _).mpr rfl
  | cons bytes words ih =>
    unfold utf8Words
    cases decoded : decode bytes with
    | none => exact (yields_throw _ _).mpr trivial
    | some text =>
      simp only [yields_bind,yields_pure]
      refine ih.mono fun texts same => ?_
      rw [List.map_cons,encode_decode decoded,same]

private theorem settleWords_ok {library : Library} {build : Build} {program : Bytes} {own : List Bytes}
    {t : List (Exchange Call Answer)} {run : Invocation} {prepared : Prepared}
    (settles : Trace (settleWords library build (program :: own)).run t (.ok (.inl (run,prepared)))) :
    run.build = build ∧ (∃ words,own = words.map encode ∧ library.parse (argvScheme build) words = .ok run.args) ∧
      ∃ u,Trace run.settle.run u (.ok (.inl prepared)) := by
  unfold settleWords at settles
  obtain ⟨_,texts,_,rfl,read,settles⟩ := (trace_bind_ok _ _ _ _).mp settles
  have same := @yields_utf8Words (fun _ => True) _ _ _ read fun _ _ => trivial
  cases texts with
  | nil => cases same
  | cons text words =>
    have own := (List.cons.inj same).2
    dsimp only at settles
    cases parsed : library.parse (argvScheme build) words with
    | error error =>
      rw [parsed] at settles
      obtain ⟨_,_,_,_,_,thrown⟩ := (trace_bind_ok _ _ _ _).mp settles
      cases thrown
    | ok args =>
      rw [parsed] at settles
      obtain ⟨_,_,_,rfl,_,settles⟩ := (trace_bind_ok _ _ _ _).mp settles
      obtain ⟨u,out,_,rfl,settled,ended⟩ := (trace_bind_ok _ _ _ _).mp settles
      cases out with
      | inr done => cases ended
      | inl other =>
        cases ended
        exact ⟨rfl,⟨words,own,parsed⟩,u,settled⟩

/-- The words behind the first `--` are opaque: up to authentication, and for its arguments,
a run with any is the same program, and every call that starts a command is for the free
words before it and for these. -/
theorem separator_transparent (library : Library) (build : Build) (program : Bytes) (own : List Bytes)
    (plain : encode "--" ∉ own) :
    (∀ command : List CString,command ≠ [] →
      run library build (program :: (own ++ encode "--" :: command.map CString.bytes)) =
        settleWords library build (program :: own) >>= carryOut command) ∧
    ∀ t run prepared,Trace (settleWords library build (program :: own)).run t (.ok (.inl (run,prepared))) →
      (∃ words,own = words.map encode ∧ library.parse (argvScheme build) words = .ok run.args) ∧
      ∀ command : List CString,command ≠ [] → ∀ pamEnv u out,
        Trace (run.launch (prepared.handed build.backend command) pamEnv).run u out →
        ∀ x ∈ u,Hands build.backend (run.args.free.map encode ++ command.map CString.bytes) x.1 := by
  refine ⟨fun command some => run_separated library build program plain some,fun t run prepared settles => ?_⟩
  obtain ⟨rfl,parsed,u,settled⟩ := settleWords_ok settles
  exact ⟨parsed,fun command some pamEnv u out launches x made => launch_hands some settled launches made⟩

private def optionLike : List CString := [word "--",word "-u"]

private def plainLibrary : Library := ⟨fun _ _ => .ok ⟨[],fun _ => false,fun _ => none⟩,fun _ _ => "",fun _ => false⟩

private def plainBuild : Build := ⟨.scopex,false,false,false,none,Build.kept⟩

private def settling : List (Exchange Call Answer) :=
  [⟨.getuid,(1000 : UInt32)⟩,⟨.userFromUid 1000,.ok (numericNames.userByUid 1000)⟩,
    ⟨.groupFromGid 1000,.ok (numericNames.groupByGid 1000)⟩,⟨.userFromUid 0,.ok (numericNames.userByUid 0)⟩,
    ⟨.groupFromGid 0,.ok (numericNames.groupByGid 0)⟩]

private def starting : List (Exchange Call Answer) :=
  [⟨.openFile envFile,.error .enoent⟩,⟨.environ,[]⟩,⟨.environ,[]⟩,⟨.setgroups [],.ok ()⟩,
    ⟨.initgroups (word "root") 0,.ok ()⟩,⟨.setresgid 0 0 1000,.ok ()⟩,⟨.setresuid 0 0 1000,.ok ()⟩,
    ⟨.getenv "PATH",some (encode "/bin")⟩,⟨.execve (word "/bin/--") optionLike
      (["SHELL=/bin/sh","LOGNAME=root","USER=root","HOME=/root"].map word),Errno.enoent⟩]

theorem separator_transparent_options : Hands .scopex [encode "--",encode "-u"]
    (.execve (word "/bin/--") optionLike (["SHELL=/bin/sh","LOGNAME=root","USER=root","HOME=/root"].map word)) := by
  have settles : ∃ run prepared,
      replay 60 (settleWords plainLibrary plainBuild [encode "runas"]).run settling = some (.ok (.inl (run,prepared))) ∧
      run.args.free = [] ∧
      replay 60 (run.launch (prepared.handed .scopex optionLike) ∅).run starting = some (.error (.errno .enoent)) :=
    ⟨_,_,rfl,rfl,rfl⟩
  obtain ⟨run,prepared,settles,free,launches⟩ := settles
  have hands := ((separator_transparent plainLibrary plainBuild (encode "runas") [] (by simp)).2 settling run prepared
    (replay_sound 60 settles)).2 optionLike (by simp [optionLike]) ∅ starting _ (replay_sound 60 launches) _
    (List.mem_of_getLast? rfl)
  rw [free] at hands
  exact hands

end Runas
