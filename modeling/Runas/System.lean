import Runas.Interaction.Program
import Runas.Shared

/-! What the program asks of the system: one call for each function of libc, of the
PAM library and of the standard library that it relies on, with the type of its
answer. A call that never returns has no answer; one that may fail answers with
a value or an `Errno`. A text that is read lossily is answered as the text. -/
namespace Runas
open Interaction Text

/-- The two processes a fork leaves. -/
inductive Side
  | parent | child
  deriving DecidableEq

def Side.peer : Side → Side
  | .parent => .child
  | .child => .parent

/-- The pipes the program creates: one for the status each side of a fork sends,
and the one the askpass helper writes to. -/
inductive Pipe
  | status (sender : Side)
  | passwd
  deriving DecidableEq

inductive PipeEnd
  | read | write
  deriving DecidableEq

/-- Descriptors by what they were opened for. -/
inductive Fd
  | stdin | stdout | stderr | tty | devNull | signal
  | pipe (pipe : Pipe) (half : PipeEnd)
  deriving DecidableEq

inductive ForkResult
  | child
  | parent (child : Pid)
  deriving DecidableEq

inductive WaitStatus
  | exited (code : Int)
  | signaled (signal : Signal)
  | stopped (signal : Signal)
  | continued
  | stillAlive
  deriving DecidableEq

structure PollFlags where
  pollin : Bool
  pollerr : Bool
  pollhup : Bool
  pollnval : Bool
  deriving DecidableEq

inductive SigmaskHow
  | block | setMask
  deriving DecidableEq

inductive SigHandler
  | default | ignore | handler (address : Nat)
  deriving DecidableEq

/-- The terminal settings the program changes, and the rest of them. -/
structure Termios where
  icanon : Bool
  echo : Bool
  rest : Nat
  deriving DecidableEq

/-- An entry of the user database. -/
structure UserEntry where
  name : String
  uid : Uid
  gid : Gid
  dir : Bytes
  shell : Bytes
  deriving DecidableEq

structure GroupEntry where
  name : String
  gid : Gid
  deriving DecidableEq

structure FileMetadata where
  isFile : Bool
  uid : Uid
  mode : Nat
  deriving DecidableEq

inductive PamItem
  | user | ruser | tty
  deriving DecidableEq

/-- The functions of the PAM library. -/
inductive PamFunction
  | start (service user : CString)
  | authenticate (flags : UInt32)
  | acctMgmt (flags : UInt32)
  | chauthtok (flags : UInt32)
  | setcred (flags : UInt32)
  | openSession (flags : UInt32)
  | closeSession (flags : UInt32)
  | setItem (item : PamItem) (value : CString)
  | getenvlist
  | strerror (code : UInt32)
  | finish (status : UInt32)
  deriving DecidableEq

/-- What a PAM function returns: its code, for `start` with whether it set the
handle; a list or a text, where a null pointer is `none`. -/
abbrev PamReturn : PamFunction → Type
  | .start _ _ => UInt32 × Bool
  | .getenvlist => Option (List Bytes)
  | .strerror _ => Option String
  | _ => UInt32

structure PamMessage where
  style : UInt32
  text : Option Bytes
  deriving DecidableEq

/-- A call of the conversation callback. A null pointer is `none`. -/
structure PamRequest where
  numMsg : Int
  messages : Option (List (Option PamMessage))
  hasResp : Bool
  deriving DecidableEq

structure PamReply where
  code : UInt32
  responses : Option (List (Option Bytes))
  deriving DecidableEq

/-- A PAM function returns, or calls the conversation first. -/
inductive PamAnswer (function : PamFunction)
  | returned (value : PamReturn function)
  | converse (request : PamRequest)

inductive Call
  | fork
  | waitpid (pid : Pid)
  | setpgid (pid group : Pid)
  | getppid
  | setParentDeathSignal (signal : Signal)
  | setNoNewPrivs
  | kill (pid : Pid) (signal : Signal)
  | raise (signal : Signal)
  | exit (code : Int)
  | panic
  | abort
  | execve (path : CString) (argv envp : List CString)
  | execvp (file : CString) (argv : List CString)
  | execv (path : CString) (argv : List CString)
  | pipe (pipe : Pipe) (cloexec : Bool)
  | openFd (fd : Fd)
  | close (fd : Fd)
  | dup2 (source target : Fd)
  | read (fd : Fd) (count : Nat)
  | write (fd : Fd) (bytes : Bytes)
  | poll (fds : List (Option Fd))
  | isTerminal (fd : Fd)
  | ttyname (fd : Fd)
  | tcgetattr (fd : Fd)
  | tcsetattr (fd : Fd) (termios : Termios)
  | tcgetpgrp (fd : Fd)
  | tcsetpgrp (fd : Fd) (group : Pid)
  | sigmask (how : SigmaskHow) (signals : List Signal)
  | signalfd (signals : List Signal)
  | readSignal (fd : Fd)
  | sigaction (signal : Signal) (handler : SigHandler)
  | getuid
  | getgid
  | setgroups (groups : List Gid)
  | initgroups (name : CString) (gid : Gid)
  | setresgid (real effective saved : Gid)
  | setresuid (real effective saved : Uid)
  | chdir (path : String)
  | currentDir
  | userFromName (name : String)
  | userFromUid (uid : Uid)
  | groupFromName (name : String)
  | groupFromGid (gid : Gid)
  | getgrouplist (name : CString) (gid : Gid)
  | getspnam (name : CString)
  | crypt (key salt : CString)
  | now
  | askPassword (message : String) (flags : RunFlags)
  | pam (function : PamFunction)
  | pamReply (function : PamFunction) (reply : PamReply)
  | calloc (count : Nat)
  | strdup (text : Bytes)
  | environ
  | getenv (name : String)
  | unsetenv (name : String)
  | metadata (path : String)
  | openFile (path : String)
  | fileMetadata
  | readLine
  | print (text : String)
  | eprint (text : String)
  | report (context : String) (error : Error)
  deriving DecidableEq

/-- A shadow entry: the text and the four numbers the program reads. -/
structure Spwd where
  passwd : String
  lastChange : Int
  max : Int
  inactive : Int
  expire : Int
  deriving DecidableEq

abbrev Answer : Call → Type
  | .exit _ | .panic | .abort => Empty
  | .execve .. | .execvp .. | .execv .. => Errno
  | .fork => Except Errno ForkResult
  | .waitpid _ => Except Errno WaitStatus
  | .getppid => Pid
  | .read _ _ => Except Errno Bytes
  | .write _ _ => Except Errno Nat
  | .poll fds => Except Errno (Fin fds.length → Option PollFlags)
  | .isTerminal _ => Bool
  | .ttyname _ => Except Errno String
  | .tcgetattr _ => Except Errno Termios
  | .tcgetpgrp _ => Except Errno Pid
  | .sigmask _ _ => Except Errno (List Signal)
  | .readSignal _ => Except Errno (Option Nat)
  | .sigaction _ _ => Except Errno SigHandler
  | .getuid => Uid
  | .getgid => Gid
  | .currentDir => Except Errno Bytes
  | .userFromName _ | .userFromUid _ => Except Errno (Option UserEntry)
  | .groupFromName _ | .groupFromGid _ => Except Errno (Option GroupEntry)
  | .getgrouplist _ _ => Except Errno (List Gid)
  | .getspnam _ => Except Errno (Option Spwd)
  | .crypt _ _ => Except Errno String
  | .now => Option Nat
  | .askPassword _ _ => Except Error String
  | .pam function | .pamReply function _ => PamAnswer function
  | .environ => List Bytes
  | .getenv _ => Option Bytes
  | .metadata _ | .fileMetadata => Except Errno FileMetadata
  | .readLine => Except Errno (Option Bytes)
  | .print _ | .eprint _ | .report _ _ => Unit
  | _ => Except Errno Unit

/-- A computation that makes calls. -/
abbrev Calls := Program Call Answer

/-- One that ends with a value or an `Error`. -/
abbrev M := Fallible Error Call Answer

abbrev query (event : Call) : Calls (Answer event) := Program.ask event

abbrev ask (event : Call) : M (Answer event) := Fallible.ask event

/-- The `?` after a call. -/
def orFail {α : Type} : Except Errno α → M α
  | .ok value => pure value
  | .error error => throw (.errno error)

@[simp] theorem orFail_ok {α : Type} (value : α) : orFail (.ok value) = pure value := rfl

@[simp] theorem orFail_error {α : Type} (error : Errno) :
    (orFail (.error error) : M α) = throw (.errno error) := rfl

def exit {α : Type} (code : Int) : M α := do nomatch ← ask (.exit code)

def panic {α : Type} : M α := do nomatch ← ask .panic

/-- A panic in a function that none may leave ends the process there. -/
def abort {α : Type} : Calls α := do nomatch ← query .abort

/-- The result itself, to be matched on. -/
def outcome {α : Type} (x : M α) : M (Except Error α) := ExceptT.lift x.run

/-- `let _ =`: the calls are made, the result is dropped. -/
def ignoring {α : Type} (x : M α) : Calls Unit := x.run.bind fun _ => .done ()

/-- `let _ =` on a single call, as the destructors have it. -/
def discard (event : Call) : Calls Unit := .call event fun _ => .done ()

end Runas
