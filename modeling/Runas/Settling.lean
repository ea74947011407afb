import Runas.Launchable

/-! What a run calls before the caller is authenticated: it looks things up and tells the
caller about them, and its rights it leaves alone. -/
namespace Runas
open Interaction Text

/-- The calls that need the rights the program was started with. -/
def commits : Call → Bool
  | .execve _ _ _ | .execvp _ _ | .execv _ _ | .setgroups _ | .initgroups _ _ | .setresgid _ _ _ | .setresuid _ _ _
  | .chdir _ | .unsetenv _ | .openFile _ => true
  | _ => false

/-- The parser's invocation and the words of the command, as the words of the command line give them. -/
def Begins (library : Library) (build : Build) (words : List Bytes) (run : Invocation) (targetArgs : List Bytes) : Prop :=
  ∃ program rest name own args,words = program :: rest ∧ (program :: (splitArgs rest).1).mapM decode = some (name :: own) ∧
    library.parse (argvScheme build) own = .ok args ∧ run = ⟨library,build,name,args⟩ ∧
    targetArgs = args.free.map encode ++ (splitArgs rest).2

theorem commits_topic {event : Call} (other : event.topic ∉ [.replace,.identity,.environment,.files]) :
    commits event = false := by
  cases event <;> first | rfl | simp [Call.topic] at other

/-- The calls that look things up or tell the caller about them, also that this has failed. -/
def settles : Call → Bool
  | .getuid | .userFromName _ | .userFromUid _ | .groupFromName _ | .groupFromGid _ | .getenv _ | .isTerminal .stdin
  | .isTerminal .stdout | .isTerminal .stderr | .metadata _ | .currentDir | .print _ | .report _ _ | .panic => true
  | .exit code => code = 1
  | _ => false

theorem settles_plain {event : Call} (known : settles event = true) : commits event = false := by
  cases event <;> first | rfl | cases known

abbrev Settling {α : Type} (x : M α) : Prop := Fallible.Uses (fun event => settles event = true) x

section lookups
variable {allowed : Call → Prop}

theorem uses_lookupWord {α : Type} {numeric : Char → Bool} {byName : M (Option α)} {byId : UInt32 → M (Option α)}
    (name : Fallible.Uses allowed byName) (id : ∀ number,Fallible.Uses allowed (byId number)) (word : String) :
    Fallible.Uses allowed (lookupWord numeric byName byId word) := by
  have lookup (letters : List Char) : Fallible.Uses allowed (lookupId byId letters) := by
    unfold lookupId
    split
    · trivial
    · exact id _
  unfold lookupWord
  split
  · exact lookup _
  · split
    · refine .bind name fun found => ?_
      cases found with
      | some info => trivial
      | none => exact lookup _
    · exact name

end lookups

theorem settling_userFromUid (uid : Uid) : Settling (User.fromUid uid) := by
  unfold User.fromUid
  refine .bind (.ask rfl) fun given => .bind (uses_orFail given) fun found => ?_
  cases found with
  | none => trivial
  | some info =>
    dsimp only
    split
    · split <;> trivial
    · trivial

theorem settling_accountOf (user : Option User) : Settling (Account.ofUser user) := by
  cases user with
  | none => trivial
  | some user =>
    refine .bind (.bind (.ask rfl) fun given => .bind (uses_orFail given) fun _ => trivial) fun group => ?_
    cases group <;> trivial

theorem settling_accountFromUid (uid : Uid) : Settling (Account.fromUid uid) :=
  .bind (settling_userFromUid uid) fun user => settling_accountOf user

theorem settling_accountFromStr (numeric : Char → Bool) (user : String) : Settling (Account.fromStr numeric user) := by
  have found : Settling (User.fromStr numeric user) := by
    have looked : Settling (User.lookup numeric user) := by
      refine uses_lookupWord ?_ (fun _ => ?_) user
      · exact .bind (.ask rfl) fun given => uses_orFail given
      · exact .bind (.ask rfl) fun given => uses_orFail given
    refine .bind looked fun info => ?_
    cases info with
    | none => trivial
    | some info => exact settling_userFromUid info.uid
  exact .bind found fun user => settling_accountOf user

theorem settling_groupFromStr (numeric : Char → Bool) (group : String) : Settling (Group.fromStr numeric group) := by
  have looked : Settling (Group.lookup numeric group) := by
    refine uses_lookupWord ?_ (fun _ => ?_) group
    · exact .bind (.ask rfl) fun given => uses_orFail given
    · exact .bind (.ask rfl) fun given => uses_orFail given
  exact .bind looked fun _ => trivial

theorem settling_cstring (bytes : Bytes) : Settling (cstring bytes) :=
  @fails_cstring (fun event => settles event = true) (fun _ _ => rfl) rfl bytes

theorem settling_cstrings (words : List Bytes) : Settling (cstrings words) :=
  @fails_cstrings (fun event => settles event = true) (fun _ _ => rfl) rfl words

theorem settling_buildArgv (build : Build) : Settling (buildArgv build) := by
  refine .bind (settling_cstring _) fun path => ?_
  split <;> trivial

namespace Invocation
variable (run : Invocation)

theorem settling_value (opt : CliOption) (missing : String) : Settling (run.value opt missing) := by
  unfold value
  split <;> trivial

theorem settling_setUser (request : Request) : Settling (run.setUser request) := by
  refine .bind (run.settling_value _ _) fun value => .bind (settling_accountFromStr _ _) fun account => ?_
  cases account with
  | none => trivial
  | some account =>
    dsimp only
    split
    · trivial
    · exact .bind (settling_cstring _) fun _ => trivial

theorem settling_setGroup (request : Request) : Settling (run.setGroup request) := by
  refine .bind (run.settling_value _ _) fun value => .bind (settling_groupFromStr _ _) fun group => ?_
  cases group with
  | none => trivial
  | some group =>
    dsimp only
    split
    · trivial
    · exact .bind (settling_cstring _) fun _ => trivial

theorem settling_setEnv (request : Request) : Settling (run.setEnv request) := by
  refine .bind (run.settling_value _ _) fun value => ?_
  split <;> trivial

theorem settling_setPreserve (request : Request) : Settling (run.setPreserve request) := by
  refine .bind (run.settling_value _ _) fun value => .bind (.lift ?_) fun _ => trivial
  generalize request.env = env
  induction split (· == ',') value.toList generalizing env with
  | nil => trivial
  | cons name names ih =>
    refine Program.Uses.bind ?_ ih
    unfold preserveName
    dsimp only
    split
    · trivial
    · exact Program.Uses.bind (uses_envVar _ rfl) fun _ => trivial

theorem settling_setChdir (request : Request) : Settling (run.setChdir request) := by
  refine .bind (run.settling_value _ _) fun value => ?_
  split
  · trivial
  · exact .bind (settling_cstring _) fun _ => trivial
  · exact .bind (settling_cstring _) fun _ => trivial

theorem settling_applyOption (request : Request) (opt : CliOption) : Settling (run.applyOption request opt) := by
  cases opt with
  | help | version => exact .bind (.ask rfl) fun _ => trivial
  | user => exact .bind (run.settling_setUser request) fun _ => trivial
  | group => exact .bind (run.settling_setGroup request) fun _ => trivial
  | env => exact .bind (run.settling_setEnv request) fun _ => trivial
  | preserve => exact .bind (run.settling_setPreserve request) fun _ => trivial
  | chdir => exact .bind (run.settling_setChdir request) fun _ => trivial
  | shell | stdin | nonint | askpass => trivial

theorem settling_applyOptions (request : Request) (opts : List CliOption) :
    Settling (run.applyOptions request opts) := by
  induction opts generalizing request with
  | nil => trivial
  | cons opt opts ih =>
    unfold applyOptions
    split
    · refine .bind (run.settling_applyOption request opt) fun outcome => ?_
      cases outcome with
      | inl request => exact ih request
      | inr => trivial
    · exact ih request

theorem settling_targetOf (request : Request) : Settling (targetOf request) := by
  unfold targetOf
  cases request.targetAccount with
  | some account => cases request.targetGroup <;> trivial
  | none =>
    dsimp only
    refine .bind (settling_accountFromUid 0) fun account => ?_
    cases account with
    | none => trivial
    | some account => cases request.targetGroup <;> trivial

theorem settling_addDirectory (argv : List CString) : Settling (run.addDirectory argv) := by
  unfold addDirectory
  split
  · trivial
  · split
    · refine .bind (.ask rfl) fun cwd => ?_
      cases cwd with
      | ok cwd => exact .bind (settling_cstring cwd) fun _ => trivial
      | error error => trivial
    · trivial

theorem settling_shellArgv (target : Account) (targetArgs : List Bytes) (flags : RunFlags) (argv : List CString) :
    Settling (run.shellArgv target targetArgs flags argv) := by
  have shell : Settling (targetShell target) :=
    .bind (.lift (uses_envVar _ rfl)) fun _ => .bind (.ask rfl) fun _ => trivial
  unfold shellArgv
  dsimp only
  split
  · trivial
  · split
    · trivial
    · split
      · refine .bind shell fun text => ?_
        split
        · exact .bind (.ask rfl) fun never => nomatch never
        · exact .bind (settling_cstring _) fun _ => .bind (settling_cstring _) fun _ => trivial
      · trivial
      · trivial

theorem settling_commandArgv (targetArgs : List Bytes) (flags : RunFlags) (argv : List CString) :
    Settling (run.commandArgv targetArgs flags argv) := by
  have interactive : Settling isInteractive := by
    refine .bind (.ask rfl) fun out => ?_
    split
    · refine .bind (.ask rfl) fun err => ?_
      split
      · exact .ask rfl
      · trivial
    · trivial
  unfold commandArgv
  dsimp only
  split
  · trivial
  · split
    · exact .bind (settling_cstrings _) fun _ => trivial
    · exact .bind interactive fun _ => trivial

theorem settling_prepare (targetArgs : List Bytes) : Settling (run.prepare targetArgs) := by
  have argv (target : Account) (flags : RunFlags) (first : List CString) :
      Settling (run.argvFor target targetArgs flags first) := by
    unfold argvFor
    split
    · exact run.settling_shellArgv _ _ _ _
    · exact run.settling_commandArgv _ _ _
  have rest (first : List CString) : Settling (run.prepareFrom targetArgs first) := by
    refine .bind (run.settling_applyOptions _ _) fun outcome => ?_
    cases outcome with
    | inr => trivial
    | inl request =>
      refine .bind (.bind (.ask rfl) fun uid => settling_accountFromUid uid) fun caller => ?_
      cases caller with
      | none => trivial
      | some caller =>
        exact .bind (settling_targetOf request) fun target => .bind (run.settling_addDirectory _) fun first =>
          .bind (argv target _ first) fun _ => trivial
  rw [prepare_eq]
  refine .bind ?_ rest
  split
  · trivial
  · exact settling_buildArgv _

end Invocation

/-! The words of the command line. -/

theorem silent_utf8Words (words : List Bytes) : Fallible.Uses (fun _ => False) (utf8Words words) := by
  induction words with
  | nil => trivial
  | cons bytes words ih =>
    unfold utf8Words
    split
    · exact .bind ih fun _ => trivial
    · trivial

theorem silent_checkCommand (args : Matches) (targetArgs : List Bytes) :
    Fallible.Uses (fun _ => False) (checkCommand args targetArgs) := by
  unfold checkCommand
  dsimp only
  split
  · trivial
  · split
    · trivial
    · split <;> trivial

open Fallible in
theorem utf8Words_decodes {A : Exchange Call Answer → Prop} (words : List Bytes) :
    Fallible.Yields A (utf8Words words) fun texts => words.mapM decode = some texts := by
  induction words with
  | nil => exact (yields_pure _ _).mpr rfl
  | cons bytes words ih =>
    unfold utf8Words
    cases text : decode bytes with
    | none => exact (yields_throw _ _).mpr trivial
    | some word =>
      simp only [yields_bind,yields_pure]
      exact ih.mono fun texts same => by simp [text,same]

end Runas
