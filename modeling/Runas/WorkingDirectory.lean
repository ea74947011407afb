import Runas.BackendVector

/-! The directory a systemd backend is told to start the command in. Whether one was asked
for is found out again from the vector, by a word that only one of the two backends is
given for it, and that a value may be as well. -/
namespace Runas
open Interaction Text Getopt

inductive Directive
  | path (dir : Bytes)
  | same
  deriving DecidableEq

def directive? : Opt Bytes → Option Directive
  | .valued name dir =>
    if name = encode "--working-directory" || name = encode "--chdir" then some (.path dir) else none
  | .flag name => if name = encode "--same-dir" then some .same else none

/-- What the options say of the working directory, the last one being obeyed. -/
def directives (opts : List (Opt Bytes)) : List Directive := opts.filterMap directive?

def Standing (cwd : Except Errno Bytes) : Exchange Call Answer → Prop
  | ⟨.currentDir,answer⟩ => answer = cwd
  | _ => True

namespace Invocation
variable (run : Invocation)

/-- The one directive there should be, or none where the directory cannot be told. -/
def wanted (cwd : Except Errno Bytes) : List Directive :=
  match run.given .chdir,run.build.backend,cwd with
  | some dir,_,_ => [.path (encode dir)]
  | none,.run0,.ok dir => [.path dir]
  | none,.run0,.error _ => []
  | none,_,_ => [.same]

/-- A word that is not the program's own is the one that is looked for. -/
def Spelled : Prop :=
  run.build.systemdPath = some "--chdir" ∨ run.given .user = some "--chdir" ∨ run.given .group = some "--chdir" ∨
    run.given .chdir = some "--chdir"

instance : Decidable run.Spelled := inferInstanceAs (Decidable (_ ∨ _ ∨ _ ∨ _))

/-- The word that is looked for tells whether a directory was asked for, or does not matter. -/
def Detected (cwd : Except Errno Bytes) : Prop :=
  if run.build.backend = .run0 then (run.given .chdir).isSome = true ∨ ¬ run.Spelled ∨ cwd.toOption = none
  else ((run.given .chdir).isSome = true ↔ run.Spelled)

instance (cwd : Except Errno Bytes) : Decidable (run.Detected cwd) :=
  inferInstanceAs (Decidable (if run.build.backend = .run0 then _ ∨ _ ∨ _ else (_ ↔ _)))

variable {run}

private theorem getD_encode {given : Option String} {default text : String} (other : default ≠ text) :
    encode text = encode (given.getD default) ↔ given = some text := by
  rw [encode_injective.eq_iff]
  cases given with
  | none => simpa using other.symm
  | some value => simp [eq_comm]

private theorem mem_valued {flag text : Bytes} {given : Option String} :
    text ∈ write (given.toList.map fun value => .valued flag (encode value)) ↔
      ∃ value,given = some value ∧ (text = flag ∨ text = encode value) := by
  cases given <;> simp [Opt.words]

private theorem regroup (a b c d e : Prop) : a ∨ b ∨ c ∨ (e ∨ d) ↔ (a ∨ b ∨ c ∨ d) ∨ e := by tauto

private theorem hasChdir_iff {words : List CString}
    (vector : Vector run.build (encode ((run.given .user).getD "0")) run.ordered words) : hasChdir words = true ↔
      run.Spelled ∨ (run.build.backend = .run0 ∧ (run.given .chdir).isSome = true) := by
  have scanned : hasChdir words = true ↔ encode "--chdir" ∈ words.map CString.bytes := by
    have literal : (word "--chdir").bytes = encode "--chdir" := by decide
    simp only [hasChdir,List.any_eq_true,decide_eq_true_eq,exists_eq_right,List.mem_map]
    constructor
    · intro member
      exact ⟨word "--chdir",member,literal⟩
    · rintro ⟨c,member,same⟩
      have equal : c = word "--chdir" := by
        cases c
        cases same.trans literal.symm
        rfl
      exact equal ▸ member
  obtain ⟨path,name,opts,rfl,file,named,spelled,_⟩ := vector
  have own : encode "--chdir" ≠ (word (backendName run.build.backend)).bytes ∧
      encode "--chdir" ≠ (userFlag run.build.backend).bytes ∧ encode "--chdir" ≠ (groupFlag run.build.backend).bytes ∧
      encode "--chdir" ∉ (ownFlags run.build).map encode := by
    unfold ownFlags
    cases run.build.backend <;> cases run.build.withoutExpandEnv <;> decide
  obtain ⟨ownName,ownUser,ownGroup,ownFlags⟩ := own
  have flag : encode "--chdir" = (directoryFlag run.build.backend).bytes ↔ run.build.backend = .run0 := by
    cases run.build.backend <;> decide
  rw [scanned,List.map_cons,List.map_cons,map_write,List.map_cons,spelled,write_cons,ordered,write_append,write_append,
    flagWords,write_flags]
  simp only [List.mem_cons,List.mem_append,Opt.map,Opt.words,List.not_mem_nil,or_false,ownName,ownUser,ownFlags,
    false_or,file,named,optionWords,mem_valued,ownGroup,flag,
    getD_encode (by decide : "/usr/bin/systemd-run" ≠ "--chdir"),getD_encode (by decide : "0" ≠ "--chdir")]
  have given (opt : CliOption) : (∃ value,run.given opt = some value ∧ encode "--chdir" = encode value) ↔
      run.given opt = some "--chdir" := by
    simp only [encode_injective.eq_iff]
    constructor
    · rintro ⟨value,there,same⟩
      exact same ▸ there
    · exact fun there => ⟨_,there,rfl⟩
  have moved : (∃ value,run.given .chdir = some value ∧ (run.build.backend = .run0 ∨ encode "--chdir" = encode value)) ↔
      (run.build.backend = .run0 ∧ (run.given .chdir).isSome = true) ∨ run.given .chdir = some "--chdir" := by
    rw [← given .chdir,Option.isSome_iff_exists]
    constructor
    · rintro ⟨value,there,either⟩
      exact either.imp (fun run0 => ⟨run0,value,there⟩) fun same => ⟨value,there,same⟩
    · intro either
      rcases either with ⟨run0,value,there⟩ | ⟨value,there,same⟩
      · exact ⟨value,there,.inl run0⟩
      · exact ⟨value,there,.inr same⟩
  rw [given .group,moved,Spelled]
  exact regroup _ _ _ _ _

private theorem directive?_valued {name : Bytes} (dir : Bytes) :
    directive? (.valued name dir) =
      if name = encode "--working-directory" ∨ name = encode "--chdir" then some (.path dir) else none := by
  simp [directive?]

private theorem directives_append (a b : List (Opt Bytes)) : directives (a ++ b) = directives a ++ directives b :=
  List.filterMap_append

private theorem directives_none {opts : List (Opt Bytes)} (other : ∀ opt ∈ opts,directive? opt = none) :
    directives opts = [] := List.filterMap_eq_nil_iff.mpr other

private theorem directives_flagWords {names : List String} (other : "--same-dir" ∉ names) :
    directives (flagWords names) = [] := by
  refine directives_none fun opt member => ?_
  obtain ⟨name,named,rfl⟩ := List.mem_map.mp member
  refine if_neg fun same => other ?_
  rwa [← encode_injective same]

private theorem directives_asked (directory : List (Opt Bytes)) (interactive : Bool) (env : EnvMap) :
    directives (run.asked directory interactive env) =
      (run.given .chdir).toList.map (fun dir => .path (encode dir)) ++ directives directory := by
  have user : directive? (.valued (userFlag run.build.backend).bytes (encode ((run.given .user).getD "0"))) = none := by
    rw [directive?_valued]
    cases run.build.backend <;> exact if_neg (by decide)
  have own : directives (flagWords (ownFlags run.build)) = [] := directives_flagWords (by
    unfold ownFlags
    cases run.build.backend <;> cases run.build.withoutExpandEnv <;> decide)
  have mode (shell : Bool) : directives (flagWords (modeFlags run.build.backend shell interactive)) = [] :=
    directives_flagWords (by cases run.build.backend <;> cases shell <;> cases interactive <;> decide)
  have group : directives (run.optionWords .group) = [] := directives_none fun opt member => by
    obtain ⟨name,_,rfl⟩ := List.mem_map.mp member
    rw [directive?_valued]
    cases run.build.backend <;> exact if_neg (by decide)
  have setenv : directives (setenvs env) = [] := directives_none fun opt member => by
    obtain ⟨entry,_,rfl⟩ := List.mem_map.mp member
    rw [directive?_valued]
    exact if_neg (by decide)
  have chdir : directives (run.optionWords .chdir) =
      (run.given .chdir).toList.map fun dir => .path (encode dir) := by
    have flag (dir : Bytes) : directive? (.valued (directoryFlag run.build.backend).bytes dir) = some (.path dir) := by
      rw [directive?_valued]
      cases run.build.backend <;> exact if_pos (by decide)
    unfold optionWords directives
    rw [List.filterMap_map]
    exact List.filterMap_eq_map_iff_forall_eq_some.mpr fun dir _ => flag (encode dir)
  rw [asked,directives,List.filterMap_cons_none user,← directives]
  simp only [directives_append,ordered,own,mode,group,setenv,chdir,List.nil_append,List.append_nil]

private theorem directives_placed {cwd : Except Errno Bytes} {settled : Bool} {directory : List (Opt Bytes)}
    (placed : run.Placed (Standing cwd) settled directory) : directives directory =
      if settled then [] else if run.build.backend = .run0 then cwd.toOption.toList.map .path else [.same] := by
  unfold Placed at placed
  split at placed
  · next known =>
    rw [placed,if_pos known]
    rfl
  · next unknown =>
    rw [if_neg unknown]
    split at placed
    · next run0 =>
      obtain ⟨answer,allowed,rfl⟩ := placed
      have same : answer = cwd := allowed
      subst same
      rw [if_pos run0]
      cases answer with
      | ok dir =>
        rw [directives,List.filterMap_cons_some ((directive?_valued dir).trans (if_pos (by decide)))]
        rfl
      | error error => rfl
    · next other =>
      rw [if_neg other,placed]
      rfl

private theorem wanted_iff {cwd : Except Errno Bytes} {settled : Bool} (found : settled = true ↔
    run.Spelled ∨ (run.build.backend = .run0 ∧ (run.given .chdir).isSome = true)) :
    (run.given .chdir).toList.map (fun dir => Directive.path (encode dir)) ++ (if settled then []
      else if run.build.backend = .run0 then cwd.toOption.toList.map .path else [.same]) = run.wanted cwd ↔
      run.Detected cwd := by
  unfold wanted Detected
  generalize run.Spelled = spelled at *
  generalize run.given .chdir = asked at *
  cases asked with
  | none =>
    by_cases said : spelled
    · rw [found.mpr (.inl said)]
      cases run.build.backend <;> cases cwd <;> simp [said,Except.toOption]
    · have unsettled : settled = false := by simpa [said] using found
      rw [unsettled]
      cases run.build.backend <;> cases cwd <;> simp [said,Except.toOption]
  | some dir =>
    by_cases said : spelled
    · rw [found.mpr (.inl said)]
      cases run.build.backend <;> simp [said]
    · cases backend : run.build.backend with
      | run0 =>
        rw [found.mpr (.inr ⟨backend,rfl⟩)]
        simp
      | systemdRun | scopex =>
        have unsettled : settled = false := by simpa [said,backend] using found
        simp [unsettled,said]

end Invocation

/-- The directives of the vector are the one that is wanted exactly when the word that is
looked for tells whether a directory was asked for. -/
theorem directory_wanted_iff (run : Invocation) (systemd : run.build.backend ≠ .scopex) (cwd : Except Errno Bytes)
    (targetArgs : List Bytes) (prepared : Prepared) (t : List (Exchange Call Answer))
    (prepares : Trace (run.prepare targetArgs).run t (.ok (.inl prepared))) (standing : ∀ x ∈ t,Standing cwd x)
    (pamEnv : EnvMap) (u : List (Exchange Call Answer)) (out : Except Error Unit)
    (launches : Trace (run.launch prepared pamEnv).run u out) (file : CString) (argv : List CString) (error : Errno)
    (executed : ⟨.execvp file argv,error⟩ ∈ u) :
    (backendReads run.build.backend argv).map (fun read => directives read.1) = some (run.wanted cwd) ↔
      run.Detected cwd := by
  obtain ⟨_,_,env,v,words,directory,interactive,same,_,_,vector,placed,_,_,reads⟩ :=
    Invocation.launched_vector systemd prepares standing launches executed rfl
  cases same
  rw [reads,Option.map_some,Option.some.injEq,Invocation.directives_asked,Invocation.directives_placed placed]
  exact Invocation.wanted_iff (Invocation.hasChdir_iff vector)

def moving (dir : String) : Invocation := { asking "root" with
  args := ⟨["id"],fun name => name == "chdir",fun name => if name = "chdir" then some dir else none⟩ }

private def movingArgv (rest : List String) : List CString :=
  (["systemd-run","--uid","0","--quiet","-G","--send-sighup","--expand-environment=false"] ++ rest ++
    ["--pipe","--service-type=exec","--wait"]).map word

private def preparedIn (rest : List String) : Prepared where
  currentUser := zeroAccount
  targetUser := root
  targetArgs := [encode "id"]
  flags := .none
  env := ∅
  argv := word "/usr/bin/systemd-run" :: movingArgv rest
  targetDir := none

private def movingAnswers : List (Exchange Call Answer) :=
  [⟨.getuid,(1000 : UInt32)⟩,⟨.userFromUid 1000,.ok (numericNames.userByUid 1000)⟩,
    ⟨.groupFromGid 1000,.ok (numericNames.groupByGid 1000)⟩,⟨.userFromUid 0,.ok (numericNames.userByUid 0)⟩,
    ⟨.groupFromGid 0,.ok (numericNames.groupByGid 0)⟩,⟨.isTerminal .stdout,false⟩]

private def movingLaunch (rest : List String) : List (Exchange Call Answer) :=
  [⟨.openFile envFile,.error .enoent⟩,⟨.environ,[]⟩,⟨.setgroups [],.ok ()⟩,⟨.setresgid 0 0 1000,.ok ()⟩,
    ⟨.setresuid 0 0 1000,.ok ()⟩,
    ⟨.execvp (word "/usr/bin/systemd-run") (movingArgv rest ++ [word "--",word "id"]),Errno.enoent⟩]

/-- A directory is asked for, and the vector ends up with the one the caller is in. -/
theorem directory_overridden : ¬ ∀ (run : Invocation) (cwd : Except Errno Bytes) (targetArgs : List Bytes)
    (prepared : Prepared) (t : List (Exchange Call Answer)) (pamEnv : EnvMap) (u : List (Exchange Call Answer))
    (out : Except Error Unit) (file : CString) (argv : List CString) (error : Errno),run.build.backend ≠ .scopex →
      Trace (run.prepare targetArgs).run t (.ok (.inl prepared)) → (∀ x ∈ t,Standing cwd x) →
      Trace (run.launch prepared pamEnv).run u out → ⟨.execvp file argv,error⟩ ∈ u →
      (backendReads run.build.backend argv).map (fun read => directives read.1) = some (run.wanted cwd) := by
  intro claimed
  have prepares : Trace ((moving "/srv").prepare [encode "id"]).run movingAnswers
      (.ok (.inl (preparedIn ["--working-directory","/srv","--same-dir"]))) := replay_sound 60 rfl
  have launches : Trace ((moving "/srv").launch (preparedIn ["--working-directory","/srv","--same-dir"]) ∅).run
      (movingLaunch ["--working-directory","/srv","--same-dir"]) (.error (.errno .enoent)) := replay_sound 60 rfl
  have standing : ∀ x ∈ movingAnswers,Standing (.ok (encode "/")) x := by simp [movingAnswers,Standing]
  have told := claimed _ _ _ _ _ ∅ _ _ (word "/usr/bin/systemd-run") _ Errno.enoent (by decide) prepares standing
    launches (List.mem_of_getLast? rfl)
  have both : (backendReads .systemdRun (movingArgv ["--working-directory","/srv","--same-dir"] ++
      [word "--",word "id"])).map (fun read => directives read.1) = some [.path (encode "/srv"),.same] := rfl
  cases both.symm.trans told

/-- The directory whose name is the word that is looked for. -/
theorem directory_wanted_chdir : (backendReads .systemdRun (movingArgv ["--working-directory","--chdir"] ++
    [word "--",word "id"])).map (fun read => directives read.1) = some ((moving "--chdir").wanted (.ok (encode "/"))) := by
  have prepares : Trace ((moving "--chdir").prepare [encode "id"]).run movingAnswers
      (.ok (.inl (preparedIn ["--working-directory","--chdir"]))) := replay_sound 60 rfl
  have launches : Trace ((moving "--chdir").launch (preparedIn ["--working-directory","--chdir"]) ∅).run
      (movingLaunch ["--working-directory","--chdir"]) (.error (.errno .enoent)) := replay_sound 60 rfl
  have standing : ∀ x ∈ movingAnswers,Standing (.ok (encode "/")) x := by simp [movingAnswers,Standing]
  exact (directory_wanted_iff (moving "--chdir") (by decide) (.ok (encode "/")) [encode "id"] _ _ prepares standing ∅ _
    _ launches (word "/usr/bin/systemd-run") _ Errno.enoent (List.mem_of_getLast? rfl)).mpr (by decide)

end Runas
