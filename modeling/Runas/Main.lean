import Runas.Auth

/-! The run of the program: the command line, the identities and the argument vector,
then authentication, then the environment and exec. The option parser is the one
of a library; what it makes of the words is a parameter. -/
namespace Runas
open Interaction Text

inductive CliOption
  | user | group | shell | help | nonint | stdin | askpass | version | env | preserve | chdir
  deriving DecidableEq

def CliOption.name : CliOption → String
  | .user => "user"
  | .group => "group"
  | .shell => "shell"
  | .help => "help"
  | .nonint => "non-interactive"
  | .stdin => "stdin"
  | .askpass => "askpass"
  | .version => "version"
  | .env => "env"
  | .preserve => "preserve-env"
  | .chdir => "chdir"

def argvScheme (build : Build) : List CliOption :=
  [.user,.group,.shell,.help,.nonint,.stdin] ++ (if build.withAskpassSupport then [.askpass] else []) ++
    [.version,.env,.preserve,.chdir]

/-- What the option parser finds in the words: the free ones, which options are
there, under either of their names, and their values. -/
structure Matches where
  free : List String
  optPresent : String → Bool
  optStr : String → Option String

/-- What the program takes from libraries: the option parser for a scheme, with the
text of its errors, the usage text, and the characters beyond ASCII that are numbers. -/
structure Library where
  parse : List CliOption → List String → Except String Matches
  usage : List CliOption → String → String
  numeric : Char → Bool

/-- A binary and the words it was started with, as its parser reads them. -/
structure Invocation where
  library : Library
  build : Build
  program : String
  args : Matches

/-- The `cstring!` macro, which ends the process on a NUL. -/
def cstring (bytes : Bytes) : M CString :=
  match CString.new bytes with
  | some c => pure c
  | none => do
    ask (.report "CString: " (.nul (nulError bytes)))
    exit 1

def cstrings : List Bytes → M (List CString)
  | [] => return []
  | bytes :: rest => return (← cstring bytes) :: (← cstrings rest)

def word (text : String) : CString := CString.ofBuffer (encode text)

def buildArgv (build : Build) : M (List CString) := do
  let path ← cstring (encode (build.systemdPath.getD "/usr/bin/systemd-run"))
  match build.backend with
  | .run0 => return [path,word "run0",word "--user",word "0",word "--shell-prompt-prefix=",
      word "--background="]
  | _ => return [path,word "systemd-run",word "--uid",word "0",word "--quiet",word "-G",
      word "--send-sighup"] ++ if build.withoutExpandEnv then [] else [word "--expand-environment=false"]

/-- The words for the program itself and those of the command, split at the first `--`. -/
def splitArgs (words : List Bytes) : List Bytes × List Bytes :=
  (words.takeWhile (· != encode "--"),(words.dropWhile (· != encode "--")).drop 1)

def utf8Words : List Bytes → M (List String)
  | [] => return []
  | bytes :: rest => do
    let some word := decode bytes
      | throw (.staticMessage "command-line argument is not valid UTF-8")
    return word :: (← utf8Words rest)

/-- What the options have said so far. -/
structure Request where
  env : EnvMap
  targetGroup : Option Group
  targetAccount : Option Account
  flags : RunFlags
  argv : List CString
  targetDir : Option String

def versionText (build : Build) : String :=
  let features := (if build.usePam then ["PAM"] else []) ++
    (if build.backend = .scopex then ["SCOPEX"] else []) ++ if build.backend = .run0 then ["RUN0"] else []
  if features = [] then "runas 1.6.1" else "runas 1.6.1 " ++ String.intercalate "," features

def Request.raise (request : Request) (flag : RunFlags) : Request :=
  { request with flags := request.flags.union flag }

/-- One name of the list, kept with the caller's value when it has one. -/
def preserveName (env : EnvMap) (raw : List Char) : Calls EnvMap := do
  let name := String.ofList (trim raw)
  if name = "" then return env
  return match ← envVar name with
    | some value => env.insert name value
    | none => env

namespace Invocation
variable (run : Invocation)

def value (opt : CliOption) (missing : String) : M String :=
  match run.args.optStr opt.name with
  | some value => pure value
  | none => throw (.staticMessage missing)

def setUser (request : Request) : M Request := do
  let value ← run.value .user "User was not supplied"
  match ← Account.fromStr run.library.numeric value with
  | none => throw (.message ("User " ++ value ++ " is not valid"))
  | some account =>
    let request := { request with targetAccount := some account }
    if run.build.backend = .scopex then return request
    return { request with argv := request.argv.set 3 (← cstring (encode value)) }

def setGroup (request : Request) : M Request := do
  let value ← run.value .group "Group was not supplied"
  match ← Group.fromStr run.library.numeric value with
  | none => throw (.message ("Group " ++ value ++ " is not valid"))
  | some group =>
    let request := { request with targetGroup := some group }
    if run.build.backend = .scopex then return request
    let name := if run.build.backend = .run0 then word "--group" else word "--gid"
    return { request with argv := request.argv ++ [name,← cstring (encode value)] }

def setEnv (request : Request) : M Request := do
  let value ← run.value .env "Missing environment variable"
  match splitOnce (· == '=') value.toList with
  | none => throw (.staticMessage "Missing environment list")
  | some (name,value) =>
    return { request with env := request.env.insert (String.ofList name) (String.ofList value) }

def setPreserve (request : Request) : M Request := do
  let value ← run.value .preserve "Missing environment list"
  let env ← ((split (· == ',') value.toList).foldlM preserveName request.env : Calls EnvMap)
  return { request with env := env }

def setChdir (request : Request) : M Request := do
  let value ← run.value .chdir "No path was defined for working directory"
  match run.build.backend with
  | .scopex => return { request with targetDir := some value }
  | .run0 => return { request with argv := request.argv ++ [word "--chdir",← cstring (encode value)] }
  | .systemdRun =>
    return { request with argv := request.argv ++ [word "--working-directory",← cstring (encode value)] }

/-- One option of the scheme; the help and version options end the run. -/
def applyOption (request : Request) : CliOption → M (Request ⊕ Unit)
  | .help => do
    ask (.print (run.library.usage (argvScheme run.build) ("Usage: " ++ run.program ++ " [options] -- CMD")))
    return .inr ()
  | .version => do
    ask (.print (versionText run.build))
    return .inr ()
  | .user => return .inl (← run.setUser request)
  | .group => return .inl (← run.setGroup request)
  | .env => return .inl (← run.setEnv request)
  | .preserve => return .inl (← run.setPreserve request)
  | .chdir => return .inl (← run.setChdir request)
  | .shell => return .inl (request.raise .shell)
  | .stdin => return .inl (request.raise .authStdin)
  | .nonint => return .inl (request.raise .authNoPrompt)
  | .askpass => return .inl (request.raise .authAskpass)

def applyOptions : Request → List CliOption → M (Request ⊕ Unit)
  | request,[] => return .inl request
  | request,opt :: rest => do
    if run.args.optPresent opt.name then
      match ← run.applyOption request opt with
      | .inl request => applyOptions request rest
      | .inr () => return .inr ()
    else applyOptions request rest

/-- The account the command is to run as: the named one or root, with the named group. -/
def targetOf (request : Request) : M Account := do
  let account ← match request.targetAccount with
    | some account => pure account
    | none => do
      match ← Account.fromUid 0 with
      | some account => pure account
      | none => throw (.staticMessage "Failed to initialize default user")
  match request.targetGroup with
  | some group => return account.setGroup group
  | none => return account

def hasChdir (argv : List CString) : Bool := argv.any fun arg => decide (arg = word "--chdir")

def addDirectory (argv : List CString) : M (List CString) := do
  if run.build.backend = .scopex || hasChdir argv then return argv
  if run.build.backend = .run0 then
    match ← ask .currentDir with
    | .ok cwd => return argv ++ [word "--chdir",← cstring cwd]
    | .error _ => return argv
  else return argv ++ [word "--same-dir"]

def isBlank (text : String) : Bool := (trim text.toList).isEmpty

def isExecutable : Except Errno FileMetadata → Bool
  | .ok found => found.isFile && found.mode &&& 0o111 != 0
  | .error _ => false

/-- `Path::file_name`: the last component, unless it is `..`. -/
def fileName (path : String) : Option String :=
  match ((split (· == '/') path.toList).filter fun part => part != [] && part != ['.']).getLast? with
  | some part => if part = ['.','.'] then none else some (String.ofList part)
  | none => none

def targetShell (target : Account) : M String := do
  let shell := match (← envVar "SHELL").filter (fun text => !isBlank text) with
    | some text => text
    | none => if isBlank target.shell then "/bin/sh" else target.shell
  return if isExecutable (← ask (.metadata shell)) then shell else "/bin/sh"

def shellArgv (target : Account) (targetArgs : List Bytes) (flags : RunFlags) (argv : List CString) :
    M (List CString) := do
  if targetArgs ≠ [] then
    throw (.staticMessage "Not expecting arguments with the --shell option")
  if flags.meets .authStdin then
    throw (.staticMessage "The --stdin option is not allowed combined with the --shell option")
  match run.build.backend with
  | .scopex => do
    let shell ← targetShell target
    match fileName shell with
    | none => panic
    | some name => return argv ++ [← cstring (encode shell),← cstring (encode ("-" ++ name))]
  | .run0 => return argv
  | .systemdRun => return argv ++ [word "--shell",word "--scope"]

def isInteractive : M Bool := do
  if ← ask (.isTerminal .stdout) then
    if ← ask (.isTerminal .stderr) then ask (.isTerminal .stdin) else return false
  else return false

def commandArgv (targetArgs : List Bytes) (flags : RunFlags) (argv : List CString) :
    M (List CString) := do
  if run.build.withAskpassSupport && flags.contains .authStdin && flags.contains .authAskpass then
    throw (.staticMessage "The --stdin option is not allowed combined with the --askpass option")
  match run.build.backend with
  | .scopex => return argv ++ (← cstrings (targetArgs.take 1 ++ targetArgs))
  | backend => do
    let io := if ← isInteractive then word "--pty" else word "--pipe"
    return argv ++ [io] ++ if backend = .run0 then [] else [word "--service-type=exec",word "--wait"]

def argvFor (target : Account) (targetArgs : List Bytes) (flags : RunFlags) (argv : List CString) :
    M (List CString) :=
  if flags.meets .shell then run.shellArgv target targetArgs flags argv
  else run.commandArgv targetArgs flags argv

end Invocation

/-- What is settled before the caller is authenticated. -/
structure Prepared where
  currentUser : Account
  targetUser : Account
  targetArgs : List Bytes
  flags : RunFlags
  env : EnvMap
  argv : List CString
  targetDir : Option String

def placeholders (target : Account) : List (String × String) :=
  [("USER",target.name),("GROUP",target.group.name),("UID",toString target.uid.toNat),
    ("GID",toString target.gid.toNat),("HOME",target.home)]

def assignment (entry : Sigma fun _ : String => String) : Bytes :=
  encode entry.1 ++ encode "=" ++ encode entry.2

def setenvWords : List (Sigma fun _ : String => String) → M (List CString)
  | [] => return []
  | entry :: rest => return word "--setenv" :: (← cstring (assignment entry)) :: (← setenvWords rest)

/-- The argument vector for a systemd backend, with the environment and the command. -/
def finishArgv (prepared : Prepared) (env : EnvMap) : M (List CString) := do
  let argv := prepared.argv ++ (← setenvWords env.entries)
  if prepared.flags.meets .shell then return argv
  return argv ++ [word "--"] ++ (← cstrings prepared.targetArgs)

namespace Invocation
variable (run : Invocation)

/-- From the words to the point where authentication starts, unless the run ends
with the usage or the version. -/
def prepare (targetArgs : List Bytes) : M (Prepared ⊕ Unit) := do
  let argv ← if run.build.backend = .scopex then pure [] else buildArgv run.build
  match ← run.applyOptions ⟨∅,none,none,.none,argv,none⟩ (argvScheme run.build) with
  | .inr () => return .inr ()
  | .inl request =>
    let some currentUser ← Account.current
      | throw (.staticMessage "Failed to initialize current user")
    let targetUser ← targetOf request
    let argv ← run.addDirectory request.argv
    let argv ← run.argvFor targetUser targetArgs request.flags argv
    return .inl ⟨currentUser,targetUser,targetArgs,request.flags,request.env,argv,request.targetDir⟩

def assemble (prepared : Prepared) (pamEnv : EnvMap) : M EnvMap := do
  let (result,env) ← loadOverwriteVars envFile prepared.targetUser
    (placeholders prepared.targetUser) prepared.env
  if let .error error := result then ask (.report "" error)
  let env := if run.build.supervised then
      pamEnv.entries.foldl (fun env entry => env.orInsert entry.1 entry.2) env
    else env
  if run.build.backend = .scopex then setEnvironment prepared.targetUser env else return env

def launch (prepared : Prepared) (pamEnv : EnvMap) : M Unit := do
  let env ← run.assemble prepared pamEnv
  let (argv,envp) ← if run.build.backend = .scopex then do
      pure (prepared.argv,← cstrings (env.entries.map assignment))
    else do pure (← finishArgv prepared env,[])
  match argv with
  | [] => panic
  | cmd :: argv =>
    nomatch ← exec run.build prepared.currentUser prepared.targetUser cmd argv envp prepared.targetDir

def start (targetArgs : List Bytes) : M Unit := do
  match ← run.prepare targetArgs with
  | .inr () => return ()
  | .inl prepared =>
    let pamEnv ← authenticate run.library.numeric run.build prepared.currentUser prepared.targetUser
      prepared.flags
    run.launch prepared pamEnv

end Invocation

def checkCommand (args : Matches) (targetArgs : List Bytes) : M Unit := do
  let shell := args.optPresent "s"
  let help := args.optPresent "h"
  let version := args.optPresent "v"
  if 1 < shell.toNat + help.toNat + version.toNat then
    throw (.staticMessage "Options -s, -h and -v are mutually exclusive")
  else if (help || version || shell) && !targetArgs.isEmpty then
    throw (.staticMessage "This option does not accept command arguments")
  else if !shell && !help && !version && targetArgs.isEmpty then
    throw (.staticMessage "No command specified")

/-- `run` on the words of the command line, the program's name first. -/
def run (library : Library) (build : Build) : List Bytes → M Unit
  | [] => panic
  | program :: words => do
    let (own,command) := splitArgs words
    match ← utf8Words (program :: own) with
    | [] => panic
    | program :: own =>
      match library.parse (argvScheme build) own with
      | .error error => do
        ask (.print (library.usage (argvScheme build) ("Usage: " ++ program ++ " [options] -- CMD")))
        throw (.message error)
      | .ok args =>
        let targetArgs := args.free.map encode ++ command
        checkCommand args targetArgs
        Invocation.start ⟨library,build,program,args⟩ targetArgs

def main (library : Library) (build : Build) (words : List Bytes) : Calls Int := do
  match ← (run library build words).run with
  | .ok () => return 0
  | .error error =>
    query (.report "" error)
    return 1

end Runas
