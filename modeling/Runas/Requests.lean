import Runas.Main
import Runas.Interaction.Trace

/-! What the options that are there make of the request, one after the other in the order
of the scheme, and what is settled before the caller is authenticated. -/
namespace Runas
open Interaction Text Fallible

theorem yields_exit {A : Exchange Call Answer → Prop} {α : Type} (code : Int) (Q : α → Prop) :
    Yields A (exit code : M α) Q := by
  unfold exit
  simp only [yields_bind,yields_ask]
  intro answer
  cases answer

theorem yields_cstring {A : Exchange Call Answer → Prop} (bytes : Bytes) :
    Yields A (cstring bytes) (fun c => c.bytes = bytes) := by
  unfold cstring
  cases made : CString.new bytes with
  | none =>
    simp only [yields_bind]
    exact (yields_ask _ _).mpr fun _ _ => yields_exit _ _
  | some c => simpa using CString.new_eq_some made

theorem yields_cstrings {A : Exchange Call Answer → Prop} (words : List Bytes) :
    Yields A (cstrings words) (fun made => made.map CString.bytes = words) := by
  induction words with
  | nil => exact (yields_pure _ _).mpr rfl
  | cons bytes words ih =>
    unfold cstrings
    simp only [yields_bind,yields_pure]
    exact (yields_cstring _).mono fun c same => ih.mono fun made rest => by rw [List.map_cons,same,rest]

/-- Every binding is made a C string first, so the words fail to be made together. -/
theorem setenvWords_eq (entries : List (Sigma fun _ : String => String)) : setenvWords entries =
    (fun values => values.flatMap fun value => [word "--setenv",value]) <$> cstrings (entries.map assignment) := by
  induction entries with
  | nil => rfl
  | cons entry entries ih => simp [setenvWords,cstrings,ih]

theorem cstrings_command (command : List CString) : cstrings (command.map CString.bytes) = pure command := by
  induction command with
  | nil => rfl
  | cons c command ih =>
    have made : cstring c.bytes = pure c := by
      unfold cstring CString.new
      rw [dif_neg c.noNul]
    simp [cstrings,made,ih]

def userFlag (backend : Backend) : CString := word (if backend = .run0 then "--user" else "--uid")

def groupFlag (backend : Backend) : CString := word (if backend = .run0 then "--group" else "--gid")

def directoryFlag (backend : Backend) : CString :=
  word (if backend = .run0 then "--chdir" else "--working-directory")

def CliOption.raises : CliOption → RunFlags
  | .shell => .shell
  | .stdin => .authStdin
  | .nonint => .authNoPrompt
  | .askpass => .authAskpass
  | _ => .none

namespace Invocation
variable (run : Invocation) (A : Exchange Call Answer → Prop)

def given (opt : CliOption) : Option String :=
  if run.args.optPresent opt.name then run.args.optStr opt.name else none

/-- A word that the vector of a systemd backend takes, at its place. -/
def Takes (text : String) (place : CString → List CString) (before after : List CString) : Prop :=
  if run.build.backend = .scopex then after = before
  else ∃ c : CString,c.bytes = encode text ∧ after = place c

/-- What an option that is there makes of the request. -/
def Effect (request after : Request) : CliOption → Prop
  | .help | .version => False
  | .user => ∃ text account argv,run.args.optStr CliOption.user.name = some text ∧
      Gives A (Account.fromStr run.library.numeric text) (some account) ∧
      run.Takes text (request.argv.set 3) request.argv argv ∧
      after = { request with targetAccount := some account, argv := argv }
  | .group => ∃ text group argv,run.args.optStr CliOption.group.name = some text ∧
      Gives A (Group.fromStr run.library.numeric text) (some group) ∧
      run.Takes text (fun c => request.argv ++ [groupFlag run.build.backend,c]) request.argv argv ∧
      after = { request with targetGroup := some group, argv := argv }
  | .env => ∃ text name value,run.args.optStr CliOption.env.name = some text ∧
      splitOnce (· == '=') text.toList = some (name,value) ∧
      after = { request with env := request.env.insert (String.ofList name) (String.ofList value) }
  | .preserve => ∃ list env,run.args.optStr CliOption.preserve.name = some list ∧
      Gives A (liftM ((split (· == ',') list.toList).foldlM preserveName request.env : Calls EnvMap) : M EnvMap) env ∧
      after = { request with env := env }
  | .chdir => ∃ text argv,run.args.optStr CliOption.chdir.name = some text ∧
      run.Takes text (fun c => request.argv ++ [directoryFlag run.build.backend,c]) request.argv argv ∧
      after = { request with
        argv := argv
        targetDir := if run.build.backend = .scopex then some text else request.targetDir }
  | opt => after = request.raise opt.raises

/-- What the options of a list that are there make of it. -/
def Effects : List CliOption → Request → Request → Prop
  | [],request,after => after = request
  | opt :: opts,request,after =>
    if run.args.optPresent opt.name then ∃ middle,run.Effect A request middle opt ∧ Effects opts middle after
    else Effects opts request after

variable {run A} {request : Request}

theorem given_some {opt : CliOption} {value : String} (present : run.args.optPresent opt.name = true)
    (text : run.args.optStr opt.name = some value) : run.given opt = some value := by
  rw [given,if_pos present,text]

theorem given_none {opt : CliOption} (absent : ¬ run.args.optPresent opt.name = true) :
    run.given opt = none := if_neg absent

private theorem Takes.scopex {text : String} {place : CString → List CString} {argv : List CString}
    (scopex : run.build.backend = .scopex) : run.Takes text place argv argv := by
  rw [Takes,if_pos scopex]

private theorem Takes.systemd {text : String} {place : CString → List CString} {argv : List CString} {c : CString}
    (systemd : run.build.backend ≠ .scopex) (same : c.bytes = encode text) : run.Takes text place argv (place c) := by
  rw [Takes,if_neg systemd]
  exact ⟨c,same,rfl⟩

private theorem yields_setUser : Yields A (run.setUser request) (run.Effect A request · .user) := by
  unfold setUser value
  cases spelled : run.args.optStr CliOption.user.name with
  | none => simp
  | some text =>
    simp only [pure_bind,yields_bind]
    refine (yields_gives _).mono fun found gives => ?_
    cases found with
    | none => simp
    | some account =>
      by_cases scopex : run.build.backend = .scopex
      · simp only [if_pos scopex,yields_pure]
        exact ⟨text,account,request.argv,spelled,gives,.scopex scopex,rfl⟩
      · simp only [if_neg scopex,yields_bind,yields_pure]
        exact (yields_cstring _).mono fun c same => ⟨text,account,_,spelled,gives,.systemd scopex same,rfl⟩

private theorem yields_setGroup : Yields A (run.setGroup request) (run.Effect A request · .group) := by
  unfold setGroup value
  cases spelled : run.args.optStr CliOption.group.name with
  | none => simp
  | some text =>
    simp only [pure_bind,yields_bind]
    refine (yields_gives _).mono fun found gives => ?_
    cases found with
    | none => simp
    | some group =>
      by_cases scopex : run.build.backend = .scopex
      · simp only [if_pos scopex,yields_pure]
        exact ⟨text,group,request.argv,spelled,gives,.scopex scopex,rfl⟩
      · simp only [if_neg scopex,yields_bind,yields_pure]
        have flag : (if run.build.backend = .run0 then word "--group" else word "--gid") =
            groupFlag run.build.backend := by
          unfold groupFlag
          split <;> rfl
        rw [flag]
        exact (yields_cstring _).mono fun c same => ⟨text,group,_,spelled,gives,.systemd scopex same,rfl⟩

private theorem yields_setEnv : Yields A (run.setEnv request) (run.Effect A request · .env) := by
  unfold setEnv value
  cases spelled : run.args.optStr CliOption.env.name with
  | none => simp
  | some text =>
    simp only [pure_bind]
    cases parts : splitOnce (· == '=') text.toList with
    | none => simp
    | some pair =>
      obtain ⟨name,value⟩ := pair
      rw [yields_pure]
      exact ⟨text,name,value,spelled,parts,rfl⟩

private theorem yields_setPreserve : Yields A (run.setPreserve request) (run.Effect A request · .preserve) := by
  unfold setPreserve value
  cases spelled : run.args.optStr CliOption.preserve.name with
  | none => simp
  | some list =>
    simp only [pure_bind,yields_bind,yields_pure]
    exact (yields_gives _).mono fun env gives => ⟨list,env,spelled,gives,rfl⟩

private theorem yields_setChdir : Yields A (run.setChdir request) (run.Effect A request · .chdir) := by
  unfold setChdir value
  cases spelled : run.args.optStr CliOption.chdir.name with
  | none => simp
  | some text =>
    simp only [pure_bind]
    cases backend : run.build.backend with
    | scopex =>
      rw [yields_pure]
      exact ⟨text,request.argv,spelled,.scopex backend,by rw [if_pos backend]⟩
    | run0 | systemdRun =>
      simp only [yields_bind,yields_pure]
      refine (yields_cstring _).mono fun c same => ⟨text,_,spelled,.systemd (by simp [backend]) same,?_⟩
      rw [backend]
      rfl

theorem yields_applyOption (opt : CliOption) : Yields A (run.applyOption request opt) (fun out =>
    ∀ after,out = .inl after → run.Effect A request after opt) := by
  cases opt with
  | help | version => simp [applyOption]
  | user => simpa [applyOption] using yields_setUser
  | group => simpa [applyOption] using yields_setGroup
  | env => simpa [applyOption] using yields_setEnv
  | preserve => simpa [applyOption] using yields_setPreserve
  | chdir => simpa [applyOption] using yields_setChdir
  | shell | stdin | nonint | askpass => simp [applyOption,Effect,CliOption.raises]

theorem yields_applyOptions (opts : List CliOption) : ∀ request : Request,
    Yields A (run.applyOptions request opts) (fun out =>
      ∀ after,out = .inl after → run.Effects A opts request after) := by
  induction opts with
  | nil =>
    intro request
    simp [applyOptions,Effects]
  | cons opt opts ih =>
    intro request
    unfold applyOptions Effects
    by_cases present : run.args.optPresent opt.name = true
    · rw [if_pos present,yields_bind]
      refine (yields_applyOption opt).mono fun out effect => ?_
      cases out with
      | inr done => simp
      | inl middle =>
        refine (ih middle).mono fun out rest after same => ?_
        rw [if_pos present]
        exact ⟨middle,effect middle rfl,rest after same⟩
    · rw [if_neg present]
      simp only [if_neg present]
      exact ih request

/-- What one option does to a part of the request, in terms of that part alone, the options
do in turn. -/
theorem Effects.fold {β : Type} (part : Request → β) (change : β → CliOption → β)
    (changes : ∀ opt request after,run.args.optPresent opt.name = true →
      run.Effect A request after opt → part after = change (part request) opt)
    {opts : List CliOption} {after : Request} (effects : run.Effects A opts request after) :
    part after = (opts.filter fun opt => run.args.optPresent opt.name).foldl change (part request) := by
  induction opts generalizing request with
  | nil => exact congrArg part effects
  | cons opt opts ih =>
    unfold Effects at effects
    by_cases present : run.args.optPresent opt.name = true
    · rw [if_pos present] at effects
      obtain ⟨middle,effect,rest⟩ := effects
      rw [ih rest,changes opt request middle present effect]
      simp [present]
    · rw [if_neg present] at effects
      rw [ih effects]
      simp [present]

def prepareFrom (run : Invocation) (targetArgs : List Bytes) (argv : List CString) : M (Prepared ⊕ Unit) := do
  match ← run.applyOptions ⟨∅,none,none,.none,argv,none⟩ (argvScheme run.build) with
  | .inr () => return .inr ()
  | .inl request =>
    let some currentUser ← Account.current
      | throw (.staticMessage "Failed to initialize current user")
    let targetUser ← targetOf request
    let argv ← run.addDirectory request.argv
    let argv ← run.argvFor targetUser targetArgs request.flags argv
    return .inl ⟨currentUser,targetUser,targetArgs,request.flags,request.env,argv,request.targetDir⟩

theorem prepare_eq (targetArgs : List Bytes) : run.prepare targetArgs =
    ((if run.build.backend = .scopex then pure [] else buildArgv run.build) >>= run.prepareFrom targetArgs) := by
  unfold prepare
  split <;> rfl

/-- How what is settled comes about: from the first words, by the options, and with the
words of the directory and of the mode. -/
structure Settles (run : Invocation) (A : Exchange Call Answer → Prop) (targetArgs : List Bytes) (prepared : Prepared)
    (start : List CString) (request : Request) (argv : List CString) : Prop where
  first : Gives A (if run.build.backend = .scopex then pure [] else buildArgv run.build) start
  options : run.Effects A (argvScheme run.build) ⟨∅,none,none,.none,start,none⟩ request
  user : Gives A Account.current (some prepared.currentUser)
  target : Gives A (targetOf request) prepared.targetUser
  directory : Gives A (run.addDirectory request.argv) argv
  mode : Gives A (run.argvFor prepared.targetUser targetArgs request.flags argv) prepared.argv
  args : prepared.targetArgs = targetArgs
  flags : prepared.flags = request.flags
  env : prepared.env = request.env
  targetDir : prepared.targetDir = request.targetDir

theorem yields_prepare (targetArgs : List Bytes) : Yields A (run.prepare targetArgs) (fun out =>
    ∀ prepared,out = .inl prepared → ∃ start request argv,run.Settles A targetArgs prepared start request argv) := by
  rw [prepare_eq,yields_bind]
  refine (yields_gives _).mono fun first starts => ?_
  unfold prepareFrom
  rw [yields_bind]
  refine (yields_applyOptions (argvScheme run.build) _).mono fun out options => ?_
  cases out with
  | inr done => simp
  | inl request =>
    simp only [yields_bind]
    refine (yields_gives _).mono fun current user => ?_
    cases current with
    | none => simp
    | some current =>
      simp only [yields_bind,yields_pure]
      refine (yields_gives _).mono fun target targeted => ?_
      refine (yields_gives _).mono fun argv directory => ?_
      refine (yields_gives _).mono fun argv' mode prepared same => ?_
      cases same
      exact ⟨first,request,argv,⟨starts,options request rfl,user,targeted,directory,mode,rfl,rfl,rfl,rfl⟩⟩

end Invocation

end Runas
