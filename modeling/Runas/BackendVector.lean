import Runas.BackendIdentity
import Runas.Command

/-! The vector a systemd backend is run with, read by the backend's rules: what was asked
for and nothing else, whatever the words that were given look like. -/
namespace Runas
open Interaction Text Getopt Fallible

def backendName (backend : Backend) : String := if backend = .run0 then "run0" else "systemd-run"

def ownFlags (build : Build) : List String :=
  if build.backend = .run0 then ["--shell-prompt-prefix=","--background="]
  else ["--quiet","-G","--send-sighup"] ++ if build.withoutExpandEnv then [] else ["--expand-environment=false"]

def modeFlags (backend : Backend) (shell interactive : Bool) : List String :=
  if shell then if backend = .run0 then [] else ["--shell","--scope"]
  else (if interactive then "--pty" else "--pipe") ::
    if backend = .run0 then [] else ["--service-type=exec","--wait"]

def flagWords (names : List String) : List (Opt Bytes) := names.map fun name => .flag (encode name)

def setenvs (env : EnvMap) : List (Opt Bytes) :=
  env.entries.map fun entry => .valued (encode "--setenv") (encode (entry.1 ++ "=" ++ entry.2))

namespace Invocation
variable (run : Invocation)

def optionWords : CliOption → List (Opt Bytes)
  | .group => (run.given .group).toList.map fun name => .valued (groupFlag run.build.backend).bytes (encode name)
  | .chdir => (run.given .chdir).toList.map fun path => .valued (directoryFlag run.build.backend).bytes (encode path)
  | _ => []

def optionUser (user : Bytes) : CliOption → Bytes
  | .user => (run.given .user).elim user encode
  | _ => user

def ordered : List (Opt Bytes) :=
  flagWords (ownFlags run.build) ++ (run.optionWords .group ++ run.optionWords .chdir)

def asked (directory : List (Opt Bytes)) (interactive : Bool) (env : EnvMap) : List (Opt Bytes) :=
  .valued (userFlag run.build.backend).bytes (encode ((run.given .user).getD "0")) ::
    (run.ordered ++ directory ++ flagWords (modeFlags run.build.backend (run.args.optPresent "shell") interactive) ++
      setenvs env)

end Invocation

/-- What may stand for the directory. -/
inductive DirectoryWords : List (Opt Bytes) → Prop
  | settled : DirectoryWords []
  | same : DirectoryWords [.flag (encode "--same-dir")]
  | current (cwd : Bytes) : DirectoryWords [.valued (encode "--chdir") cwd]

/-- A vector with its words spelled out: the program, its name, the user, and options
that read back as they are. -/
def Vector (build : Build) (user : Bytes) (words : List (Opt Bytes)) (argv : List CString) : Prop :=
  ∃ path name opts,argv = path :: word (backendName build.backend) ::
      write (.valued (userFlag build.backend) name :: opts) ∧
    path.bytes = encode (build.systemdPath.getD "/usr/bin/systemd-run") ∧ name.bytes = user ∧
    opts.map (Opt.map CString.bytes) = words ∧ ∀ opt ∈ opts,(backendGrammar build.backend).WellFormed opt

section
variable {build : Build} {user : Bytes} {words : List (Opt Bytes)} {argv : List CString}

theorem Vector.append (vector : Vector build user words argv) {more : List (Opt CString)}
    (fine : ∀ opt ∈ more,(backendGrammar build.backend).WellFormed opt) :
    Vector build user (words ++ more.map (Opt.map CString.bytes)) (argv ++ write more) := by
  obtain ⟨path,name,opts,rfl,file,named,rfl,earlier⟩ := vector
  refine ⟨path,name,opts ++ more,by simp,file,named,List.map_append,fun opt member => ?_⟩
  rcases List.mem_append.mp member with before | after
  · exact earlier opt before
  · exact fine opt after

theorem Vector.setUser (vector : Vector build user words argv) (c : CString) :
    Vector build c.bytes words (argv.set 3 c) := by
  obtain ⟨path,name,opts,rfl,file,_,spelled,fine⟩ := vector
  exact ⟨path,c,opts,rfl,file,rfl,spelled,fine⟩

theorem vector_buildArgv {A : Exchange Call Answer → Prop} (systemd : build.backend ≠ .scopex) :
    Yields A (buildArgv build) (Vector build (encode "0") (flagWords (ownFlags build))) := by
  unfold buildArgv
  rw [yields_bind]
  refine (yields_cstring _).mono fun path file => ?_
  cases backend : build.backend with
  | scopex => exact absurd backend systemd
  | run0 =>
    rw [yields_pure]
    refine ⟨path,word "0",[.flag (word "--shell-prompt-prefix="),.flag (word "--background=")],?_,file,by decide,?_,?_⟩
    · rw [backend]
      rfl
    · rw [ownFlags,if_pos backend]
      decide
    · rw [backend]
      decide
  | systemdRun =>
    rw [yields_pure]
    have other : ¬ build.backend = .run0 := by simp [backend]
    cases expands : build.withoutExpandEnv with
    | true =>
      refine ⟨path,word "0",[.flag (word "--quiet"),.flag (word "-G"),.flag (word "--send-sighup")],?_,file,
        by decide,?_,?_⟩
      · rw [backend]
        rfl
      · rw [ownFlags,if_neg other,expands]
        decide
      · rw [backend]
        decide
    | false =>
      refine ⟨path,word "0",[.flag (word "--quiet"),.flag (word "-G"),.flag (word "--send-sighup"),
        .flag (word "--expand-environment=false")],?_,file,by decide,?_,?_⟩
      · rw [backend]
        rfl
      · rw [ownFlags,if_neg other,expands]
        decide
      · rw [backend]
        decide

end

namespace Invocation
variable {run : Invocation} {A : Exchange Call Answer → Prop} {request : Request} {user : Bytes}
  {words : List (Opt Bytes)}

private theorem Effect.vector (systemd : run.build.backend ≠ .scopex) {opt : CliOption} {after : Request}
    (present : run.args.optPresent opt.name = true) (effect : run.Effect A request after opt)
    (vector : Vector run.build user words request.argv) :
    Vector run.build (run.optionUser user opt) (words ++ run.optionWords opt) after.argv := by
  have valued (flag : CString) (fine : ∀ c,(backendGrammar run.build.backend).WellFormed (.valued flag c)) (c : CString) :
      ∀ opt ∈ [Opt.valued flag c],(backendGrammar run.build.backend).WellFormed opt := by
    intro opt member
    rw [List.mem_singleton.mp member]
    exact fine c
  cases opt with
  | help | version => exact effect.elim
  | user =>
    obtain ⟨text,account,argv,spelled,_,takes,rfl⟩ := effect
    rw [Takes,if_neg systemd] at takes
    obtain ⟨c,same,rfl⟩ := takes
    have named : run.optionUser user .user = c.bytes := by
      rw [optionUser,given_some present spelled,Option.elim_some,same]
    have unsaid : run.optionWords .user = [] := rfl
    rw [named,unsaid,List.append_nil]
    exact vector.setUser c
  | group =>
    obtain ⟨text,group,argv,spelled,_,takes,rfl⟩ := effect
    rw [Takes,if_neg systemd] at takes
    obtain ⟨c,same,rfl⟩ := takes
    have unnamed : run.optionUser user .group = user := rfl
    rw [unnamed,optionWords,given_some present spelled,Option.toList_some,List.map_singleton,← same]
    exact vector.append (valued _ (fun c => (groupFlag_fine run.build.backend c).1) c)
  | chdir =>
    obtain ⟨text,argv,spelled,takes,rfl⟩ := effect
    rw [Takes,if_neg systemd] at takes
    obtain ⟨c,same,rfl⟩ := takes
    have unnamed : run.optionUser user .chdir = user := rfl
    rw [unnamed,optionWords,given_some present spelled,Option.toList_some,List.map_singleton,← same]
    refine vector.append (valued _ (fun c => ?_) c)
    cases run.build.backend <;> exact ⟨by decide,by decide,by decide⟩
  | env =>
    obtain ⟨text,name,value,_,_,rfl⟩ := effect
    simpa [optionUser,optionWords] using vector
  | preserve =>
    obtain ⟨list,env,_,_,rfl⟩ := effect
    simpa [optionUser,optionWords] using vector
  | shell | stdin | nonint | askpass => simpa [optionUser,optionWords] using effect ▸ vector

private theorem option_absent {opt : CliOption} (user : Bytes) (absent : ¬ run.args.optPresent opt.name = true) :
    run.optionUser user opt = user ∧ run.optionWords opt = [] := by
  cases opt with
  | user => exact ⟨by rw [optionUser,given_none absent]; rfl,rfl⟩
  | group | chdir => exact ⟨rfl,by rw [optionWords,given_none absent]; rfl⟩
  | _ => exact ⟨rfl,rfl⟩

private theorem Effects.vector (systemd : run.build.backend ≠ .scopex) {opts : List CliOption} {after : Request}
    (effects : run.Effects A opts request after) (vector : Vector run.build user words request.argv) :
    Vector run.build (opts.foldl run.optionUser user) (words ++ opts.flatMap run.optionWords) after.argv := by
  induction opts generalizing request user words with
  | nil =>
    cases effects
    simpa using vector
  | cons opt opts ih =>
    unfold Effects at effects
    rw [List.foldl_cons,List.flatMap_cons,← List.append_assoc]
    by_cases present : run.args.optPresent opt.name = true
    · rw [if_pos present] at effects
      obtain ⟨middle,effect,rest⟩ := effects
      exact ih rest (effect.vector systemd present vector)
    · rw [if_neg present] at effects
      rw [(option_absent user present).1,(option_absent user present).2,List.append_nil]
      exact ih effects vector

def Placed (run : Invocation) (A : Exchange Call Answer → Prop) (settled : Bool) (directory : List (Opt Bytes)) : Prop :=
  if settled then directory = []
  else if run.build.backend = .run0 then ∃ answer,A ⟨.currentDir,answer⟩ ∧ directory = match answer with
    | .ok cwd => [.valued (encode "--chdir") cwd]
    | .error _ => []
  else directory = [.flag (encode "--same-dir")]

theorem Placed.directoryWords {settled : Bool} {directory : List (Opt Bytes)} (placed : run.Placed A settled directory) :
    DirectoryWords directory := by
  unfold Placed at placed
  split at placed
  · exact placed ▸ .settled
  · split at placed
    · obtain ⟨answer,_,rfl⟩ := placed
      cases answer with
      | ok cwd => exact .current cwd
      | error error => exact .settled
    · exact placed ▸ .same

private theorem vector_addDirectory (systemd : run.build.backend ≠ .scopex) {argv : List CString}
    (vector : Vector run.build user words argv) : Yields A (run.addDirectory argv) (fun after =>
      ∃ directory,run.Placed A (hasChdir argv) directory ∧ Vector run.build user (words ++ directory) after) := by
  unfold addDirectory Placed
  cases settled : hasChdir argv with
  | true =>
    simp only [Bool.or_true,if_true,yields_pure]
    exact ⟨[],rfl,by simpa using vector⟩
  | false =>
    simp only [systemd,decide_false,Bool.or_false,Bool.false_eq_true,if_false]
    cases backend : run.build.backend with
    | scopex => exact absurd backend systemd
    | run0 =>
      simp only [if_true,yields_bind,yields_ask]
      intro answer allowed
      cases answer with
      | error error => exact (yields_pure _ _).mpr ⟨[],⟨.error error,allowed,rfl⟩,by simpa using vector⟩
      | ok cwd =>
        simp only [yields_bind,yields_pure]
        refine (yields_cstring cwd).mono fun c same => ⟨_,⟨.ok cwd,allowed,rfl⟩,?_⟩
        rw [← same]
        have fine : ∀ opt ∈ [Opt.valued (word "--chdir") c],(backendGrammar run.build.backend).WellFormed opt := by
          intro opt member
          rw [List.mem_singleton.mp member,backend]
          exact ⟨by decide,by decide,by decide⟩
        exact vector.append fine
    | systemdRun =>
      have fine : ∀ opt ∈ [Opt.flag (word "--same-dir")],(backendGrammar run.build.backend).WellFormed opt := by
        rw [backend]
        decide
      exact (yields_pure _ _).mpr ⟨_,rfl,vector.append fine⟩

private theorem vector_flags {names : List String} {argv : List CString} (vector : Vector run.build user words argv)
    (fine : ∀ name ∈ names,(backendGrammar run.build.backend).WellFormed (.flag (word name)) ∧
      (word name).bytes = encode name) :
    Vector run.build user (words ++ flagWords names) (argv ++ names.map word) := by
  have wellFormed : ∀ opt ∈ names.map (fun name => Opt.flag (word name)),
      (backendGrammar run.build.backend).WellFormed opt := by
    intro opt member
    obtain ⟨name,named,rfl⟩ := List.mem_map.mp member
    exact (fine name named).1
  have spelled : (names.map fun name => Opt.flag (word name)).map (Opt.map CString.bytes) = flagWords names := by
    rw [List.map_map]
    exact List.map_congr_left fun name member => congrArg Opt.flag (fine name member).2
  rw [← write_flags word,← spelled]
  exact vector.append wellFormed

private theorem vector_argvFor (systemd : run.build.backend ≠ .scopex) {target : Account} {targetArgs : List Bytes}
    {raised : RunFlags} {argv : List CString} (vector : Vector run.build user words argv) :
    Yields A (run.argvFor target targetArgs raised argv) (fun after => ∃ interactive,
      Vector run.build user (words ++ flagWords (modeFlags run.build.backend (raised.meets .shell) interactive)) after) := by
  unfold argvFor
  cases shell : raised.meets .shell with
  | true =>
    rw [if_pos rfl]
    unfold shellArgv
    by_cases extra : targetArgs ≠ []
    · simp [extra]
    by_cases stdin : raised.meets .authStdin = true
    · rw [if_neg extra,if_pos stdin]
      exact yields_throw_bind _ _ _
    simp only [if_neg extra,if_neg stdin]
    cases backend : run.build.backend with
    | scopex => exact absurd backend systemd
    | run0 => exact (yields_pure _ _).mpr ⟨true,by simpa [modeFlags,flagWords] using vector⟩
    | systemdRun =>
      refine (yields_pure _ _).mpr ⟨true,vector_flags vector ?_⟩
      rw [backend]
      decide
  | false =>
    rw [if_neg Bool.false_ne_true]
    unfold commandArgv
    by_cases both : (run.build.withAskpassSupport && raised.contains .authStdin && raised.contains .authAskpass) = true
    · rw [if_pos both]
      exact yields_throw_bind _ _ _
    simp only [if_neg both]
    cases backend : run.build.backend with
    | scopex => exact absurd backend systemd
    | run0 =>
      simp only [yields_bind,yields_pure]
      refine (Yields.true _).mono fun (interactive : Bool) _ => ⟨interactive,?_⟩
      have fine : ∀ name ∈ modeFlags .run0 false interactive,
          (backendGrammar run.build.backend).WellFormed (.flag (word name)) ∧ (word name).bytes = encode name := by
        rw [backend]
        cases interactive <;> decide
      cases interactive <;> simpa [modeFlags] using vector_flags vector fine
    | systemdRun =>
      simp only [yields_bind,yields_pure]
      refine (Yields.true _).mono fun (interactive : Bool) _ => ⟨interactive,?_⟩
      have fine : ∀ name ∈ modeFlags .systemdRun false interactive,
          (backendGrammar run.build.backend).WellFormed (.flag (word name)) ∧ (word name).bytes = encode name := by
        rw [backend]
        cases interactive <;> decide
      cases interactive <;> simpa [modeFlags] using vector_flags vector fine

private theorem Effect.flags {opt : CliOption} {after : Request} (effect : run.Effect A request after opt) :
    after.flags = request.flags.union opt.raises := by
  cases opt with
  | help | version => exact effect.elim
  | user =>
    obtain ⟨text,account,argv,_,_,_,rfl⟩ := effect
    exact (RunFlags.union_none _).symm
  | group =>
    obtain ⟨text,group,argv,_,_,_,rfl⟩ := effect
    exact (RunFlags.union_none _).symm
  | env =>
    obtain ⟨text,name,value,_,_,rfl⟩ := effect
    exact (RunFlags.union_none _).symm
  | preserve =>
    obtain ⟨list,env,_,_,rfl⟩ := effect
    exact (RunFlags.union_none _).symm
  | chdir =>
    obtain ⟨text,argv,_,_,rfl⟩ := effect
    exact (RunFlags.union_none _).symm
  | shell | stdin | nonint | askpass => exact effect ▸ rfl

private theorem foldl_or (present raises : CliOption → Bool) (opts : List CliOption) (value : Bool) :
    opts.foldl (fun value opt => if present opt = true then value || raises opt else value) value =
      (value || opts.any fun opt => present opt && raises opt) := by
  induction opts generalizing value with
  | nil => simp
  | cons opt opts ih =>
    rw [List.foldl_cons,ih,List.any_cons]
    cases present opt <;> simp [Bool.or_assoc]

theorem Effects.meets {opts : List CliOption} {after : Request} (effects : run.Effects A opts request after)
    (flag : RunFlags) : after.flags.meets flag = (request.flags.meets flag ||
      opts.any fun opt => run.args.optPresent opt.name && opt.raises.meets flag) := by
  have raised := effects.fold (fun request => request.flags.meets flag) (fun value opt => value || opt.raises.meets flag)
    fun opt request after _ effect => by rw [effect.flags,RunFlags.meets_union]
  rw [List.foldl_filter] at raised
  rw [raised]
  exact foldl_or (fun opt => run.args.optPresent opt.name) (fun opt => opt.raises.meets flag) opts _

theorem Settles.shell {targetArgs : List Bytes} {prepared : Prepared} {start argv : List CString}
    (settles : run.Settles A targetArgs prepared start request argv) :
    request.flags.meets .shell = run.args.optPresent "shell" := by
  have initial : RunFlags.none.meets .shell = false := by decide
  have raises (opt : CliOption) : opt.raises.meets .shell = decide (opt = .shell) := by
    cases opt <;> decide
  rw [settles.options.meets,initial]
  simp only [raises]
  cases support : run.build.withAskpassSupport <;> simp [argvScheme,support,CliOption.name]

theorem Settles.vector (systemd : run.build.backend ≠ .scopex) {targetArgs : List Bytes} {prepared : Prepared}
    {start argv : List CString} (settles : run.Settles A targetArgs prepared start request argv) :
    ∃ directory interactive,run.Placed A (hasChdir request.argv) directory ∧
      Vector run.build (encode ((run.given .user).getD "0")) run.ordered request.argv ∧
      Vector run.build (encode ((run.given .user).getD "0")) (run.ordered ++ directory ++
        flagWords (modeFlags run.build.backend (run.args.optPresent "shell") interactive)) prepared.argv := by
  have first := settles.first
  rw [if_neg systemd] at first
  have named : (argvScheme run.build).foldl run.optionUser (encode "0") = encode ((run.given .user).getD "0") := by
    have chosen : (argvScheme run.build).foldl run.optionUser (encode "0") = run.optionUser (encode "0") .user := by
      cases support : run.build.withAskpassSupport <;> simp [argvScheme,support,optionUser]
    rw [chosen,optionUser]
    cases run.given .user <;> rfl
  have said : flagWords (ownFlags run.build) ++ (argvScheme run.build).flatMap run.optionWords = run.ordered := by
    cases support : run.build.withAskpassSupport <;> simp [argvScheme,support,ordered,optionWords]
  have vector := settles.options.vector systemd (first.meets (vector_buildArgv systemd))
  rw [named,said] at vector
  obtain ⟨directory,placed,moved⟩ := settles.directory.meets (vector_addDirectory systemd vector)
  obtain ⟨interactive,final⟩ := settles.mode.meets (vector_argvFor systemd moved)
  rw [settles.shell] at final
  exact ⟨directory,interactive,placed,vector,final⟩

end Invocation

private theorem assignment_spelled (entry : Sigma fun _ : String => String) :
    assignment entry = encode (entry.1 ++ "=" ++ entry.2) := by
  simp [assignment,encode]

private theorem setenvs_spelled {env : EnvMap} {values : List CString}
    (same : values.map CString.bytes = env.entries.map assignment) :
    (values.map fun value => Opt.valued (word "--setenv") value).map (Opt.map CString.bytes) = setenvs env := by
  have literal : (word "--setenv").bytes = encode "--setenv" := rfl
  rw [List.map_map]
  calc values.map (fun value => Opt.valued (word "--setenv").bytes value.bytes)
      = (values.map CString.bytes).map (Opt.valued (encode "--setenv")) := by rw [List.map_map,literal]; rfl
    _ = env.entries.map fun entry => .valued (encode "--setenv") (assignment entry) := by rw [same,List.map_map]; rfl
    _ = setenvs env := by simp only [assignment_spelled,setenvs]

/-- What a backend makes of the vector it is run with: its options, and the command. -/
def backendReads (backend : Backend) (argv : List CString) : Option (List (Opt Bytes) × List Bytes) :=
  ((backendGrammar backend).read (argv.drop 1)).map fun (opts,command) =>
    (opts.map (Opt.map CString.bytes),command.map CString.bytes)

private theorem Vector.reads {build : Build} {user : Bytes} {words : List (Opt Bytes)} {argv : List CString}
    (vector : Vector build user words argv) {more : List (Opt CString)} {tail command : List CString}
    (fine : ∀ opt ∈ more,(backendGrammar build.backend).WellFormed opt)
    (ends : (backendGrammar build.backend).read tail = some ([],command)) :
    ∃ path rest,argv ++ write more ++ tail = path :: word (backendName build.backend) :: rest ∧
      path.bytes = encode (build.systemdPath.getD "/usr/bin/systemd-run") ∧
      backendReads build.backend (word (backendName build.backend) :: rest) =
        some (.valued (userFlag build.backend).bytes user :: (words ++ more.map (Opt.map CString.bytes)),
          command.map CString.bytes) := by
  obtain ⟨path,name,opts,same,file,named,spelled,wellFormed⟩ := vector.append fine
  have all : ∀ opt ∈ .valued (userFlag build.backend) name :: opts,(backendGrammar build.backend).WellFormed opt := by
    intro opt member
    rcases List.mem_cons.mp member with rfl | later
    · exact userFlag_wellFormed build.backend name
    · exact wellFormed opt later
  refine ⟨path,write (.valued (userFlag build.backend) name :: opts) ++ tail,?_,file,?_⟩
  · rw [same]
    rfl
  · unfold backendReads
    rw [List.drop_succ_cons,List.drop_zero,Grammar.read_write all,ends]
    simp only [Option.map_some,List.append_nil,List.map_cons,Option.some.injEq,Prod.mk.injEq,and_true]
    rw [spelled,← named]
    rfl

private theorem vector_finishArgv {A : Exchange Call Answer → Prop} {build : Build} {user : Bytes}
    {words : List (Opt Bytes)} {prepared : Prepared} (vector : Vector build user words prepared.argv) (env : EnvMap) :
    Yields A (finishArgv prepared env) (fun argv => ∃ path rest,
      argv = path :: word (backendName build.backend) :: rest ∧
      path.bytes = encode (build.systemdPath.getD "/usr/bin/systemd-run") ∧
      backendReads build.backend (word (backendName build.backend) :: rest) =
        some (.valued (userFlag build.backend).bytes user :: (words ++ setenvs env),
          if prepared.flags.meets .shell then [] else prepared.targetArgs)) := by
  unfold finishArgv
  rw [yields_bind]
  refine (yields_setenvWords env.entries).mono fun words made => ?_
  obtain ⟨values,bindings,rfl⟩ := made
  have spelled := setenvs_spelled bindings
  have fine := fun opt member => (fine_setenvs build.backend values opt member).1
  by_cases shell : prepared.flags.meets .shell = true
  · rw [if_pos shell,if_pos shell,yields_pure]
    have reads := vector.reads fine (Grammar.read_nil (backendGrammar build.backend))
    rwa [spelled,List.append_nil] at reads
  · rw [if_neg shell,if_neg shell]
    simp only [yields_bind,yields_pure]
    refine (yields_cstrings _).mono fun command same => ?_
    have reads := vector.reads fine ((backendGrammar build.backend).read_terminator command)
    rw [spelled,same] at reads
    rwa [← List.singleton_append,← List.append_assoc] at reads

private theorem exec_replaces {build : Build} (systemd : build.backend ≠ .scopex) {user target : Account} {cmd : CString}
    {argv envp : List CString} {cwd : Option String} {u : List (Exchange Call Answer)} {out : Except Error Empty}
    (execs : Trace (exec build user target cmd argv envp cwd).run u out) {x : Exchange Call Answer} (made : x ∈ u)
    (replaces : x.1.topic = .replace) : x.1 = .execvp cmd argv := by
  have alone : build.supervised = false := by simp [Build.supervised,systemd]
  unfold exec at execs
  rw [alone,if_neg Bool.false_ne_true,pure_bind] at execs
  simp only [if_neg systemd] at execs
  have cleans : Fallible.Uses (About [.environment,.finish]) cleanEnvironment := by
    refine uses_cleanEnvironment ?_ (fun _ => ?_) ?_ <;> simp [About,Call.topic]
  obtain ⟨_,_,_,rfl,_,rest,made⟩ := cleans.passed execs made (by simp [About,replaces])
  obtain ⟨_,_,_,rfl,_,rest,made⟩ := (uses_setCredentials build user target).passed rest made (by simp [About,replaces])
  obtain ⟨answer,_,rfl,ended⟩ := (trace_call _ _ _ _).mp rest
  obtain ⟨_,rfl⟩ := (trace_done _ _ _).mp ended
  rw [List.mem_singleton.mp made]

namespace Invocation

/-- Before it execs, `launch` has the environment, and with a systemd backend it has then
put the vector together that it execs with. -/
theorem launch_replaces {run : Invocation} (systemd : run.build.backend ≠ .scopex) {prepared : Prepared}
    {pamEnv : EnvMap} {u : List (Exchange Call Answer)} {out : Except Error Unit}
    (launches : Trace (run.launch prepared pamEnv).run u out) {x : Exchange Call Answer} (made : x ∈ u)
    (replaces : x.1.topic = .replace) : ∃ env v w file argv,x.1 = .execvp file argv ∧ v <+: u ∧
      Trace (run.assemble prepared pamEnv).run v (.ok env) ∧ Trace (finishArgv prepared env).run w (.ok (file :: argv)) := by
  unfold launch at launches
  obtain ⟨v,env,rest,rfl,assembles,launches,made⟩ := (uses_assemble run prepared pamEnv).passed launches made
    (by simp [About,replaces,environmentTopics])
  simp only [if_neg systemd,pure_bind] at launches
  obtain ⟨w,words,last,rfl,finishes,launches,made⟩ := (uses_finishArgv prepared env).passed launches made
    (by simp [About,replaces,environmentTopics])
  cases words with
  | nil =>
    obtain ⟨never,_⟩ := (trace_call _ _ _ _).mp launches
    cases never
  | cons cmd words =>
    have execs : ∃ out,Trace (exec run.build prepared.currentUser prepared.targetUser cmd words []
        prepared.targetDir).run last out := by
      dsimp only at launches
      rw [run_bind,trace_bind] at launches
      obtain ⟨first,result,second,rfl,execs,ended⟩ := launches
      cases result with
      | ok never => cases never
      | error error =>
        obtain ⟨_,rfl⟩ := (trace_done _ _ _).mp ended
        exact ⟨.error error,by rwa [List.append_nil]⟩
    obtain ⟨out,execs⟩ := execs
    exact ⟨env,v,w,cmd,words,exec_replaces systemd execs made replaces,List.prefix_append _ _,assembles,finishes⟩

theorem launched_vector {A : Exchange Call Answer → Prop} {run : Invocation} (systemd : run.build.backend ≠ .scopex)
    {targetArgs : List Bytes} {prepared : Prepared} {t u : List (Exchange Call Answer)}
    (prepares : Trace (run.prepare targetArgs).run t (.ok (.inl prepared))) (allowed : ∀ x ∈ t,A x) {pamEnv : EnvMap}
    {out : Except Error Unit} (launches : Trace (run.launch prepared pamEnv).run u out) {x : Exchange Call Answer}
    (made : x ∈ u) (replaces : x.1.topic = .replace) :
    ∃ file argv env v words directory interactive,x.1 = .execvp file argv ∧ v <+: u ∧
      Trace (run.assemble prepared pamEnv).run v (.ok env) ∧
      Vector run.build (encode ((run.given .user).getD "0")) run.ordered words ∧
      run.Placed A (hasChdir words) directory ∧
      file.bytes = encode (run.build.systemdPath.getD "/usr/bin/systemd-run") ∧
      argv.head? = some (word (backendName run.build.backend)) ∧ backendReads run.build.backend argv =
        some (run.asked directory interactive env,if run.args.optPresent "shell" then [] else targetArgs) := by
  obtain ⟨start,request,_,settles⟩ := yields_prepare targetArgs t _ prepares allowed prepared rfl
  obtain ⟨directory,interactive,placed,earlier,vector⟩ := settles.vector systemd
  obtain ⟨env,v,w,file,argv,executed,early,assembles,finishes⟩ := launch_replaces systemd launches made replaces
  obtain ⟨path,rest,same,located,reads⟩ :=
    @vector_finishArgv (fun _ => True) _ _ _ _ vector env w _ finishes fun _ _ => trivial
  obtain ⟨rfl,rfl⟩ := List.cons.inj same
  refine ⟨_,_,env,v,request.argv,directory,interactive,executed,early,assembles,earlier,placed,located,rfl,?_⟩
  rw [reads,settles.flags,settles.args,settles.shell]
  rfl

end Invocation

/-- For every accepted command line and every way a run of it goes, the vector a systemd
backend is run with reads as the options that were asked for, one for each variable of the
environment, and the command. -/
theorem backend_vector_asked (run : Invocation) (systemd : run.build.backend ≠ .scopex) (targetArgs : List Bytes)
    (prepared : Prepared) (t : List (Exchange Call Answer))
    (prepares : Trace (run.prepare targetArgs).run t (.ok (.inl prepared))) (pamEnv : EnvMap)
    (u : List (Exchange Call Answer)) (out : Except Error Unit)
    (launches : Trace (run.launch prepared pamEnv).run u out) (file : CString) (argv : List CString) (error : Errno)
    (executed : ⟨.execvp file argv,error⟩ ∈ u) :
    file.bytes = encode (run.build.systemdPath.getD "/usr/bin/systemd-run") ∧
      argv.head? = some (word (backendName run.build.backend)) ∧
      ∃ env v directory interactive,v <+: u ∧ Trace (run.assemble prepared pamEnv).run v (.ok env) ∧
        DirectoryWords directory ∧ backendReads run.build.backend argv =
          some (run.asked directory interactive env,if run.args.optPresent "shell" then [] else targetArgs) := by
  obtain ⟨_,_,env,v,words,directory,interactive,same,early,assembles,_,placed,located,named,reads⟩ :=
    Invocation.launched_vector systemd prepares (fun _ _ => trivial : ∀ x ∈ t,(fun _ => True) x) launches executed rfl
  cases same
  exact ⟨located,named,env,v,directory,interactive,early,assembles,placed.directoryWords,reads⟩

private def launching : List (Exchange Call Answer) :=
  [⟨.openFile envFile,.error .enoent⟩,⟨.environ,[]⟩,⟨.setgroups [],.ok ()⟩,⟨.setresgid 0 0 1000,.ok ()⟩,
    ⟨.setresuid 0 0 1000,.ok ()⟩,⟨.execvp (word "/usr/bin/systemd-run")
      ((preparedAs "root" root).argv.drop 1 ++ [word "--",word "id"]),Errno.enoent⟩]

theorem backend_vector_asked_root : ∃ env directory interactive,DirectoryWords directory ∧
    backendReads .systemdRun ((preparedAs "root" root).argv.drop 1 ++ [word "--",word "id"]) =
      some ((asking "root").asked directory interactive env,[encode "id"]) := by
  have prepares : Trace ((asking "root").prepare [encode "id"]).run (answersFor "root" 0 0)
      (.ok (.inl (preparedAs "root" root))) := replay_sound 60 rfl
  have launches : Trace ((asking "root").launch (preparedAs "root" root) ∅).run launching
      (.error (.errno .enoent)) := replay_sound 60 rfl
  obtain ⟨_,_,env,_,directory,interactive,_,_,placed,reads⟩ := backend_vector_asked (asking "root") (by decide)
    [encode "id"] _ _ prepares ∅ launching _ launches (word "/usr/bin/systemd-run") _ Errno.enoent
    (List.mem_of_getLast? rfl)
  exact ⟨env,directory,interactive,placed,reads⟩

end Runas
