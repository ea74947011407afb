import Runas.Text

/-! The constants and flag words every part of the program shares, the errors it
reports and the error and signal numbers of the system. -/
namespace Runas

abbrev Uid := UInt32
abbrev Gid := UInt32
abbrev Pid := Int

/-- The `errno` values the program tells apart; every other one by its number. -/
inductive Errno
  | eperm | enoent | eintr | eio | ebadf | echild | eacces | enotdir | einval | epipe | eproto
  | ealready
  | other (number : Nat)
  deriving DecidableEq

inductive Signal
  | sighup | sigint | sigquit | sigill | sigtrap | sigabrt | sigbus | sigfpe | sigkill | sigusr1
  | sigsegv | sigusr2 | sigpipe | sigalrm | sigterm | sigstkflt | sigchld | sigcont | sigstop
  | sigtstp | sigttin | sigttou | sigurg | sigxcpu | sigxfsz | sigvtalrm | sigprof | sigwinch
  | sigio | sigpwr | sigsys
  deriving DecidableEq

namespace Signal

def all : List Signal :=
  [.sighup,.sigint,.sigquit,.sigill,.sigtrap,.sigabrt,.sigbus,.sigfpe,.sigkill,.sigusr1,.sigsegv,
    .sigusr2,.sigpipe,.sigalrm,.sigterm,.sigstkflt,.sigchld,.sigcont,.sigstop,.sigtstp,.sigttin,
    .sigttou,.sigurg,.sigxcpu,.sigxfsz,.sigvtalrm,.sigprof,.sigwinch,.sigio,.sigpwr,.sigsys]

/-- The signals are numbered in this order, from one. -/
def number (signal : Signal) : Nat := all.idxOf signal + 1

/-- `Signal::try_from`. -/
def ofNumber? (number : Nat) : Option Signal := all.find? (fun signal => signal.number == number)

def names : List String :=
  ["SIGHUP","SIGINT","SIGQUIT","SIGILL","SIGTRAP","SIGABRT","SIGBUS","SIGFPE","SIGKILL","SIGUSR1",
    "SIGSEGV","SIGUSR2","SIGPIPE","SIGALRM","SIGTERM","SIGSTKFLT","SIGCHLD","SIGCONT","SIGSTOP",
    "SIGTSTP","SIGTTIN","SIGTTOU","SIGURG","SIGXCPU","SIGXFSZ","SIGVTALRM","SIGPROF","SIGWINCH",
    "SIGIO","SIGPWR","SIGSYS"]

def name (signal : Signal) : String := names.getD (all.idxOf signal) ""

theorem ofNumber?_number (signal : Signal) : ofNumber? signal.number = some signal := by
  cases signal <;> rfl

end Signal

structure PamError where
  code : UInt32
  message : String
  deriving DecidableEq

/-- An I/O error: one of the system, or the `InvalidData` of a line that is no UTF-8. -/
inductive IOError
  | os (error : Errno)
  | invalidData
  deriving DecidableEq

inductive Error
  | unknown
  | message (text : String)
  | staticMessage (text : String)
  | errno (error : Errno)
  | io (error : IOError)
  | nul (error : Text.NulError)
  | invalidUtf8 (error : Text.Utf8Error)
  | interrupted (signal : Signal)
  | parseInt (kind : Text.IntErrorKind)
  | pam (error : PamError)
  | pamActionRequired (error : PamError)
  deriving DecidableEq

def authGroup : String := "wheel"
def pathTty : String := "/dev/tty"
def promptText : String := "Password: "
def envFile : String := "/etc/runas.env"

/-- The flag word of a run. -/
structure RunFlags where
  bits : UInt32
  deriving DecidableEq

namespace RunFlags

def none : RunFlags := ⟨0x000⟩
def shell : RunFlags := ⟨0x001⟩
def authStdin : RunFlags := ⟨0x020⟩
def authNoPrompt : RunFlags := ⟨0x040⟩
def promptHide : RunFlags := ⟨0x080⟩
def authAskpass : RunFlags := ⟨0x100⟩

def union (flags other : RunFlags) : RunFlags := ⟨flags.bits ||| other.bits⟩

def contains (flags other : RunFlags) : Bool := flags.bits &&& other.bits == other.bits

/-- `flags & other != NONE`. -/
def meets (flags other : RunFlags) : Bool := flags.bits &&& other.bits != 0

theorem union_none (flags : RunFlags) : flags.union .none = flags :=
  congrArg RunFlags.mk UInt32.or_zero

theorem meets_union (flags other flag : RunFlags) :
    (flags.union other).meets flag = (flags.meets flag || other.meets flag) := by
  rw [Bool.eq_iff_iff]
  simp only [meets,union,bne_iff_ne,ne_eq,Bool.or_eq_true,← UInt32.toBitVec_inj,UInt32.toBitVec_and,
    UInt32.toBitVec_or,BitVec.and_or_distrib_right]
  rw [← not_and_or]
  exact not_congr BitVec.or_eq_zero_iff

end RunFlags

inductive Backend
  | systemdRun | run0 | scopex
  deriving DecidableEq

/-- The features a binary is built with and the path it is told of. `without_expand_env`
compiles with the `systemd-run` backend only. -/
structure Build where
  backend : Backend
  usePam : Bool
  withAskpassSupport : Bool
  withoutExpandEnv : Bool
  systemdPath : Option String
  expandEnvKept : withoutExpandEnv = true → backend = .systemdRun
  deriving DecidableEq

namespace Build

theorem kept {backend : Backend} : false = true → backend = .systemdRun := nofun

def supervised (build : Build) : Bool := build.backend == .scopex && build.usePam

end Build

end Runas
