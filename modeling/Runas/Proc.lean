import Runas.Env
import Runas.FgHandler
import Runas.ForkSync
import Runas.SignalRecv

/-! Processes: the supervisor's watch over the command, and the change of
credentials and the exec that starts it. -/
namespace Runas
open Interaction Text

def receivedSignals : List Signal :=
  [.sigchld,.sighup,.sigint,.sigquit,.sigterm,.sigalrm,.sigtstp,.sigcont,.sigwinch]

/-- What the supervisor sets up before the barrier, undone in reverse when a part fails. -/
def watchInstall (pid : Pid) : M (SignalReceiver × ForegroundHandler) := do
  let signals ← SignalReceiver.install receivedSignals
  Fallible.releasingOnError signals.drop do
    let handler ← ForegroundHandler.install pid
    Fallible.releasingOnError handler.drop do
      orFail (← ask (.setpgid pid pid))
      return (signals,handler)

/-- A stop of the child: the supervisor gives the terminal back and stops as well. -/
def suspend (pid : Pid) (handler : ForegroundHandler) (signal : Signal) : Calls Unit := do
  discard (.eprint ("child stopped by " ++ signal.name))
  handler.transferToParent
  discard (.raise .sigstop)
  handler.transferToChild
  discard (.kill (-pid) .sigcont)

/-- One `waitpid`: on with the next, no more reports, or the end with a status. -/
def reapRound (pid : Pid) (handler : ForegroundHandler) : M (Unit ⊕ Option Int) := do
  match ← ask (.waitpid pid) with
  | .ok (.exited code) => return .inr (some code)
  | .ok (.signaled signal) => return .inr (some (128 + signal.number))
  | .ok (.stopped signal) =>
    suspend pid handler signal
    return .inl ()
  | .ok .stillAlive => return .inr none
  | .ok .continued => return .inl ()
  | .error .eintr => return .inl ()
  | .error .echild => return .inr (some 1)
  | .error error => throw (.errno error)

def reap (pid : Pid) (handler : ForegroundHandler) : M (Option Int) :=
  Fallible.iterate (fun () => reapRound pid handler) ()

def react (pid : Pid) (handler : ForegroundHandler) : Option Signal → M (Bool ⊕ Int)
  | none => return .inl false
  | some .sigchld => do
    match ← reap pid handler with
    | some code => return .inr code
    | none => return .inl false
  | some signal => do
    discard (.kill (-pid) signal)
    return .inl false

/-- One round of the event loop; the first acts as if a SIGCHLD had come. -/
def watchRound (pid : Pid) (signals : SignalReceiver) (handler : ForegroundHandler)
    (initiate : Bool) : M (Bool ⊕ Int) := do
  if initiate then react pid handler (some .sigchld)
  else react pid handler (← signals.wait).signal

def watch (pid : Pid) (signals : SignalReceiver) (handler : ForegroundHandler) : M Int :=
  Fallible.iterate (watchRound pid signals handler) true

def watchProcess (pid : Pid) (pipe : ForkEndpoint) : M Int := do
  let (signals,handler) ← Fallible.releasingOnError pipe.drop (watchInstall pid)
  Fallible.releasing (do handler.drop; signals.drop) do
    ignoring pipe.readyAndWait
    watch pid signals handler

def setParentExitSignal (signal : Signal) : M Unit := do
  orFail (← ask (.setParentDeathSignal signal))

def initgroups (username : String) (gid : Gid) : M Unit := do
  let cUser ← cstr username
  match ← ask (.initgroups cUser gid) with
  | .ok () => return ()
  | .error error => throw (.io (.os error))

/-- `Path::new(directory).join(command)` for a command without a slash. -/
def joinPath (directory command : List Char) : List Char :=
  if directory.getLast? == some '/' then directory ++ command else directory ++ '/' :: command

/-- The paths of one search list that a command may be at. -/
def candidates (command : String) (path : String) : List (List Char) :=
  ((split (· == ':') path.toList).filter (fun directory => !directory.isEmpty)).map
    fun directory => joinPath directory command.toList

def pathEntry (entry : CString) : Option String := do
  let text ← decode entry.bytes
  if "PATH=".toList.isPrefixOf text.toList then some (String.ofList (text.toList.drop 5)) else none

def tryCandidates (argv envp : List CString) : Bool → List (List Char) → M Empty
  | permissionDenied,[] => throw (.errno (if permissionDenied then .eacces else .enoent))
  | permissionDenied,candidate :: rest => do
    let path ← cstr (String.ofList candidate)
    match ← ask (.execve path argv envp) with
    | .enoent => tryCandidates argv envp permissionDenied rest
    | .enotdir => tryCandidates argv envp permissionDenied rest
    | .eacces => tryCandidates argv envp true rest
    | error => throw (.errno error)

def execvpe (cmd : CString) (argv envp : List CString) : M Empty := do
  match decode cmd.bytes with
  | none => throw (.invalidUtf8 (utf8Error cmd.bytes))
  | some command =>
    if '/' ∈ command.toList then throw (.errno (← ask (.execve cmd argv envp)))
    let callerPath ← envVar "PATH"
    let paths := callerPath.toList ++ envp.filterMap pathEntry
    tryCandidates argv envp false (paths.flatMap (candidates command))

def setCwd : Option String → M Unit
  | none => return ()
  | some dir => do
    match ← ask (.chdir dir) with
    | .ok () => return ()
    | .error error => throw (.io (.os error))

/-- The death signal armed again, and the check that it is armed against the supervisor. -/
def rearm (supervisor : Pid) : M Unit := do
  setParentExitSignal .sigkill
  if (← ask .getppid) ≠ supervisor then discard (.raise .sigkill)

/-- The ids the command is given. -/
def targetIds (build : Build) (target : Account) : Gid × Uid :=
  if build.backend = .scopex then (target.gid,target.uid) else (0,0)

def setCredentials (build : Build) (user target : Account) : M Unit := do
  let (targetGid,targetUid) := targetIds build target
  orFail (← ask (.setgroups []))
  if build.backend = .scopex then initgroups target.name targetGid
  orFail (← ask (.setresgid targetGid targetGid user.gid))
  orFail (← ask (.setresuid targetUid targetUid user.uid))

def exec (build : Build) (user target : Account) (cmd : CString) (argv envp : List CString)
    (cwd : Option String) : M Empty := do
  let supervisor ← if build.supervised then some <$> ask .getppid else pure none
  cleanEnvironment
  setCredentials build user target
  if build.backend = .scopex then
    if let some supervisor := supervisor then rearm supervisor
    setCwd cwd
    execvpe cmd argv envp
  else throw (.errno (← ask (.execvp cmd argv)))

end Runas
