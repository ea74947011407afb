import Runas.Proc
import Mathlib.Data.LawfulXor.Basic

/-! Reading a password, from the terminal, from standard input or from a helper
program, and comparing it. -/
namespace Runas
open Interaction Text

def maxInputLen : Nat := 1024

def promptSignals : List Signal := [.sighup,.sigint,.sigquit,.sigterm,.sigtstp]

def helperSignals : List Signal := [.sigchld,.sighup,.sigint,.sigquit,.sigterm,.sigtstp,.sigcont]

structure Prompt where
  input : Fd
  output : Fd
  interrupt : Fd
  owned : Bool
  termios : Option Termios
  inputEof : Bool
  deriving DecidableEq

namespace Prompt

def new (input output interrupt : Fd) (owned : Bool) : Prompt :=
  ⟨input,output,interrupt,owned,none,false⟩

/-- The state found is kept before the change is tried, and so also when it fails. -/
def hideInput (prompt : Prompt) : Calls (Except Error Unit × Prompt) := do
  match ← query (.tcgetattr prompt.input) with
  | .error error => return (.error (.errno error),prompt)
  | .ok original =>
    let prompt := { prompt with termios := some original }
    match ← query (.tcsetattr prompt.input { original with icanon := false,echo := false }) with
    | .error error => return (.error (.errno error),prompt)
    | .ok () => return (.ok (),prompt)

def writeRound (prompt : Prompt) : Bytes → M (Bytes ⊕ Unit)
  | [] => return .inr ()
  | bytes => do
    match ← ask (.write prompt.output bytes) with
    | .ok 0 => throw (.staticMessage "failed to write prompt")
    | .ok written => return .inl (bytes.drop written)
    | .error .eintr => return .inl bytes
    | .error error => throw (.errno error)

def write (prompt : Prompt) (bytes : Bytes) : M Unit := Fallible.iterate prompt.writeRound bytes

/-- Up to `count` bytes of input; `none` when a signal can be read instead. At the
end of the input only the signals are watched. -/
def readRound (prompt : Prompt) (count : Nat) : M (Unit ⊕ Option Bytes × Prompt) := do
  let input := if prompt.inputEof then none else some prompt.input
  match ← ask (.poll [some prompt.interrupt,input]) with
  | .error .eintr => return .inl ()
  | .error error => throw (.errno error)
  | .ok events =>
    let interruptEvents := (events 0).getD ⟨false,false,false,false⟩
    if interruptEvents.pollin then return .inr (none,prompt)
    else if interruptEvents.pollerr || interruptEvents.pollhup || interruptEvents.pollnval then
      throw (.errno .eio)
    else if prompt.inputEof then return .inl ()
    else
      let inputEvents := (events 1).getD ⟨false,false,false,false⟩
      if inputEvents.pollin || inputEvents.pollhup then
        match ← ask (.read prompt.input count) with
        | .error .eintr => return .inr (none,prompt)
        | .error error => throw (.errno error)
        | .ok bytes => return .inr (some bytes,{ prompt with inputEof := prompt.inputEof || bytes.isEmpty })
      else if inputEvents.pollerr || inputEvents.pollnval then throw (.errno .eio)
      else return .inl ()

def read (prompt : Prompt) (count : Nat) : M (Option Bytes × Prompt) :=
  Fallible.iterate (fun () => prompt.readRound count) ()

def drop (prompt : Prompt) : Calls Unit := do
  if let some original := prompt.termios then
    discard (.write prompt.output [10])
    discard (.tcsetattr prompt.input original)
  if prompt.owned then
    if prompt.input ≠ prompt.output then discard (.close prompt.output)
    discard (.close prompt.input)

end Prompt

/-- The text typed so far, and how many bytes beyond the limit were left out. -/
structure Line where
  buffer : Bytes
  overflow : Nat
  deriving DecidableEq

def Line.push (line : Line) (ch : UInt8) : Line :=
  if line.buffer.length < maxInputLen then { line with buffer := line.buffer ++ [ch] }
  else if line.overflow < 2^64 - 1 then { line with overflow := line.overflow + 1 }
  else line

def erase : Bytes := [8,32,8]

def editRound (prompt : Prompt) (signals : SignalReceiver) (useStdin hide : Bool) (line : Line) :
    M (Line ⊕ Line) := do
  match (← prompt.read 1).1 with
  | some [] => return .inr line
  | some (ch :: _) =>
    if ch = 13 || ch = 10 then return .inr line
    else if !useStdin && hide && (ch = 127 || ch = 8) then
      if line.overflow ≠ 0 then
        ignoring (prompt.write erase)
        return .inl { line with overflow := line.overflow - 1 }
      else if line.buffer ≠ [] then
        ignoring (prompt.write erase)
        return .inl { line with buffer := line.buffer.dropLast }
      else return .inl line
    else
      if !useStdin && hide then ignoring (prompt.write [42])
      return .inl (line.push ch)
  | none =>
    match ← signals.read with
    | none => return .inl line
    | some event =>
      match event.signal with
      | none => throw (.message "invalid signal number EINVAL: Invalid argument")
      | some signal => throw (.interrupted signal)

def tooLong : Error := .message "input exceeds the maximum length of 1024 bytes"

def launchPrompt (msg : String) (flags : RunFlags) : M String := do
  let signals ← SignalReceiver.install promptSignals
  Fallible.releasing signals.drop do
    let useStdin := flags.meets .authStdin
    let hide := flags.meets .promptHide
    let (input,output,owned) ← if useStdin then pure (Fd.stdin,Fd.stderr,false) else do
      match ← ask (.openFd .tty) with
      | .ok () => pure (Fd.tty,Fd.tty,true)
      | .error _ => pure (Fd.stdin,Fd.stderr,false)
    let prompt := Prompt.new input output signals.fd owned
    let (hidden,prompt) ← if !useStdin && hide then prompt.hideInput else pure (.ok (),prompt)
    Fallible.releasing prompt.drop do
      if let .error error := hidden then throw error
      if !useStdin then
        prompt.write (encode msg)
        if msg.toList.getLast? ≠ some ' ' then prompt.write [32]
      let line ← Fallible.iterate (editRound prompt signals useStdin hide) ⟨[],0⟩
      if line.overflow ≠ 0 then throw tooLong
      match decode line.buffer with
      | some password => return password
      | none => throw (.invalidUtf8 (utf8Error line.buffer))

/-! The parts of `launchPrompt`. -/

/-- What the destructor does once the terminal is restored. -/
def Prompt.closeOwned (prompt : Prompt) : Calls Unit := do
  if prompt.owned then
    if prompt.input ≠ prompt.output then discard (.close prompt.output)
    discard (.close prompt.input)

/-- The end of `launchPrompt`: the line is read and has to be a text. -/
def takeLine (prompt : Prompt) (signals : SignalReceiver) (useStdin hide : Bool) : M String := do
  let line ← Fallible.iterate (editRound prompt signals useStdin hide) ⟨[],0⟩
  if line.overflow ≠ 0 then throw tooLong
  match decode line.buffer with
  | some password => return password
  | none => throw (.invalidUtf8 (utf8Error line.buffer))

def promptBody (msg : String) (signals : SignalReceiver) (useStdin hide : Bool) (hidden : Except Error Unit)
    (prompt : Prompt) : M String := do
  if let .error error := hidden then throw error
  if !useStdin then
    prompt.write (encode msg)
    if msg.toList.getLast? ≠ some ' ' then prompt.write [32]
  takeLine prompt signals useStdin hide

/-- What `launchPrompt` does once the descriptors are chosen. -/
def promptOn (msg : String) (signals : SignalReceiver) (useStdin hide : Bool) (place : Fd × Fd × Bool) : M String := do
  let (input,output,owned) := place
  let prompt := Prompt.new input output signals.fd owned
  let (hidden,prompt) ← if !useStdin && hide then prompt.hideInput else pure (.ok (),prompt)
  Fallible.releasing prompt.drop (promptBody msg signals useStdin hide hidden prompt)

def promptPlace (useStdin : Bool) : M (Fd × Fd × Bool) :=
  if useStdin then pure (.stdin,.stderr,false) else do
    match ← ask (.openFd .tty) with
    | .ok () => pure (.tty,.tty,true)
    | .error _ => pure (.stdin,.stderr,false)

theorem launchPrompt_parts (msg : String) (flags : RunFlags) : launchPrompt msg flags =
    SignalReceiver.install promptSignals >>= fun signals => Fallible.releasing signals.drop
      (promptPlace (flags.meets .authStdin) >>= promptOn msg signals (flags.meets .authStdin) (flags.meets .promptHide)) := by
  unfold launchPrompt promptPlace
  congr 1
  funext signals
  congr 1
  cases flags.meets .authStdin with
  | true => rfl
  | false =>
    simp only [Bool.false_eq_true,if_false,bind_assoc]
    congr 1
    funext answer
    cases answer <;> rfl

/-- The helper's path, from the first of two variables that is set and not empty. -/
def helperPath : M Bytes := do
  if let some path := (← ask (.getenv "RUNAS_ASKPASS")).filter (· ≠ []) then return path
  if let some path := (← ask (.getenv "SUDO_ASKPASS")).filter (· ≠ []) then return path
  throw (.staticMessage "RUNAS_ASKPASS is configured")

def helperSetup : M Unit := do
  orFail (← ask (.close (.pipe .passwd .read)))
  orFail (← ask (.dup2 (.pipe .passwd .write) .stdout))
  orFail (← ask (.close (.pipe .passwd .write)))
  orFail (← ask (.openFd .devNull))
  orFail (← ask (.dup2 .devNull .stdin))
  orFail (← ask (.close .devNull))
  let uid ← ask .getuid
  let gid ← ask .getgid
  orFail (← ask (.setresgid gid gid gid))
  orFail (← ask (.setresuid uid uid uid))
  setParentExitSignal .sigkill

def helperBody (msg : String) (sync : ForkSync) : M Empty := do
  Fallible.releasingOnError sync.drop helperSetup
  let endpoint ← sync.intoChild
  if (← endpoint.readyAndWait) ≠ .continue then throw .unknown
  orFail (← ask .setNoNewPrivs)
  let helper ← helperPath
  cleanEnvironment
  if helper.head? ≠ some 47 then
    throw (.staticMessage "RUNAS_ASKPASS must contain an absolute path")
  let some path := CString.new helper | throw (.nul (nulError helper))
  let prompt ← cstr msg
  throw (.errno (← ask (.execv path [path,prompt])))

def helperChild (msg : String) (sync : ForkSync) : M String := do
  match ← outcome (helperBody msg sync) with
  | .ok never => nomatch never
  | .error error =>
    ask (.report "" error)
    exit 1

/-- What the parent has read of the helper's output, and the helper's status once
it is known. -/
structure HelperState where
  prompt : Prompt
  buffer : Bytes
  overflow : Bool
  childStatus : Option Int
  deriving DecidableEq

def HelperState.accept (state : HelperState) (chunk : Bytes) : HelperState :=
  let accepted := min chunk.length (maxInputLen + 1 - state.buffer.length)
  { state with
    buffer := state.buffer ++ chunk.take accepted
    overflow := state.overflow || accepted != chunk.length }

def HelperState.finished (state : HelperState) : Bool :=
  state.prompt.inputEof && state.childStatus.isSome

/-- One `waitpid`: the status of a child that has ended is kept. -/
def helperReapRound (child : Pid) (state : HelperState) : M (HelperState ⊕ HelperState) := do
  match ← ask (.waitpid child) with
  | .ok (.exited code) => return .inr { state with childStatus := some code }
  | .ok (.signaled signal) => return .inr { state with childStatus := some (128 + signal.number) }
  | .ok .stillAlive => return .inr state
  | .ok (.stopped _) => return .inl state
  | .ok .continued => return .inl state
  | .error .eintr => return .inl state
  | .error error => throw (.errno error)

def helperReact (child : Pid) (state : HelperState) (event : SignalEvent) : M HelperState := do
  match event.signal with
  | none => throw (.message s!"invalid signal number {event.rawSignal}")
  | some .sigchld => Fallible.iterate (helperReapRound child) state
  | some signal =>
    discard (.kill (-child) signal)
    return state

def helperRound (child : Pid) (signals : SignalReceiver) (state : HelperState) :
    M (HelperState ⊕ HelperState) := do
  let (chunk,prompt) ← state.prompt.read 128
  let state := { state with prompt := prompt }
  match chunk with
  | some chunk =>
    let state := state.accept chunk
    return if state.finished then .inr state else .inl state
  | none =>
    match ← signals.read with
    | none => return .inl state
    | some event =>
      let state ← helperReact child state event
      return if state.finished then .inr state else .inl state

/-- One trailing line ending is not part of the password. -/
def stripNewline (buffer : Bytes) : Bytes :=
  if buffer.getLast? = some 10 then
    let buffer := buffer.dropLast
    if buffer.getLast? = some 13 then buffer.dropLast else buffer
  else buffer

def helperResult (state : HelperState) : M String := do
  match state.childStatus with
  | none => throw (.staticMessage "askpass helper status is unavailable")
  | some status =>
    if status ≠ 0 then throw (.message s!"askpass helper exited with status {status}")
    let buffer := stripNewline state.buffer
    if state.overflow || maxInputLen < buffer.length then throw tooLong
    match decode buffer with
    | some password => return password
    | none => throw (.invalidUtf8 (utf8Error buffer))

def helperInstall (child : Pid) : M SignalReceiver := do
  orFail (← ask (.close (.pipe .passwd .write)))
  orFail (← ask (.setpgid child child))
  SignalReceiver.install helperSignals

def helperLoop (child : Pid) (signals : SignalReceiver) (prompt : Prompt) : M HelperState :=
  Fallible.iterate (helperRound child signals) ⟨prompt,[],false,none⟩

def helperParent (child : Pid) (sync : ForkSync) : M String := do
  let signals ← Fallible.releasingOnError sync.drop (helperInstall child)
  let prompt := Prompt.new (.pipe .passwd .read) (.pipe .passwd .read) signals.fd true
  Fallible.releasing (do prompt.drop; signals.drop) do
    let endpoint ← sync.intoParent
    if (← endpoint.readyAndWait) ≠ .continue then
      throw (.staticMessage "askpass helper failed during startup")
    helperResult (← helperLoop child signals prompt)

def launchHelper (msg : String) : M String := do
  orFail (← ask (.pipe .passwd false))
  let sync ← ForkSync.new
  match ← ask .fork with
  | .ok .child => helperChild msg sync
  | .ok (.parent child) => helperParent child sync
  | .error error =>
    sync.drop
    throw (.errno error)

/-- One byte compared: beyond the end of the secret the known byte is compared with
its inverse. -/
def compareStep (known secret : Bytes) (result i : Nat) : Option Nat := do
  let inverted := known.map (~~~ ·)
  let other ← if secret.length ≤ i then inverted[i]? else secret[i]?
  return result ||| ((← known[i]?) ^^^ other).toNat

/-- The comparison goes through every byte of the known text. It fails only on an
index out of bounds. -/
def timeCompare (known secret : String) : Option Bool := do
  let known := encode known
  let secret := encode secret
  let result ← (List.range known.length).foldlM (compareStep known secret) (known.length ^^^ secret.length)
  return result == 0

def askPasswordRound (msg : String) (flags : RunFlags) : M (Unit ⊕ String) := do
  match ← outcome (launchPrompt msg flags) with
  | .ok password => return .inr password
  | .error (.interrupted signal) =>
    discard (.raise signal)
    return .inl ()
  | .error error => throw error

def askPassword (build : Build) (msg : String) (flags : RunFlags) : M String :=
  if build.withAskpassSupport && flags.contains .authAskpass then launchHelper msg
  else Fallible.iterate (fun () => askPasswordRound msg flags) ()

/-- The loop of the comparison after `n` of its steps, and what it has gathered. -/
inductive Compared (known secret : Bytes) : Nat → Nat → Prop
  | start : Compared known secret 0 (known.length ^^^ secret.length)
  | step {n result next : Nat} (earlier : Compared known secret n result)
      (taken : compareStep known secret result n = some next) : Compared known secret (n+1) next

private theorem compareStep_inside (known secret : Bytes) (result : Nat) {i : Nat} (inside : i < known.length) :
    ∃ other,compareStep known secret result i = some (result ||| (known[i] ^^^ other).toNat) ∧
      (secret.length ≤ i ∨ some other = secret[i]?) := by
  have here : known[i]? = some known[i] := List.getElem?_eq_getElem inside
  by_cases short : secret.length ≤ i
  · exact ⟨~~~ known[i],by simp [compareStep,short,here],.inl short⟩
  · have there : secret[i]? = some secret[i] := List.getElem?_eq_getElem (by omega)
    exact ⟨secret[i],by simp [compareStep,short,here,there],.inr there.symm⟩

/-- After `n` bytes the result is still zero only if the lengths and all those bytes agree. -/
private theorem compared (known secret : Bytes) {n : Nat} (bound : n ≤ known.length) :
    ∃ result,Compared known secret n result ∧
      (List.range n).foldlM (compareStep known secret) (known.length ^^^ secret.length) = some result ∧
      (result = 0 ↔ known.length = secret.length ∧ ∀ i < n,known[i]? = secret[i]?) := by
  induction n with
  | zero => exact ⟨_,.start,rfl,by simp⟩
  | succ n ih =>
    obtain ⟨result,run,same,zero⟩ := ih (by omega)
    obtain ⟨other,taken,which⟩ := compareStep_inside known secret result (i := n) (by omega)
    refine ⟨_,run.step taken,?_,?_⟩
    · rw [List.range_succ,List.foldlM_append,same]
      simp [taken]
    · rw [Nat.or_eq_zero_iff,zero,Nat.forall_lt_succ_right,and_assoc]
      refine and_congr_right fun lengths => and_congr_right fun _ => ?_
      rcases which with short | there
      · omega
      · rw [← there,List.getElem?_eq_getElem (by omega),Option.some.injEq,← UInt8.toNat_zero,UInt8.toNat_inj,
          UInt8.xor_eq_zero_iff]

/-- With equal lengths and equal bytes up to the end the texts are equal. -/
private theorem agree_iff (known secret : Bytes) :
    known.length = secret.length ∧ (∀ i < known.length,known[i]? = secret[i]?) ↔ known = secret := by
  constructor
  · rintro ⟨lengths,bytes⟩
    refine List.ext_getElem? fun i => ?_
    by_cases inside : i < known.length
    · exact bytes i inside
    · rw [List.getElem?_eq_none (by omega),List.getElem?_eq_none (by omega)]
  · intro equal
    exact ⟨by rw [equal],fun i _ => by rw [equal]⟩

private theorem timeCompare_result (known secret : String) :
    ∃ result,Compared (encode known) (encode secret) (encode known).length result ∧
      timeCompare known secret = some (result == 0) ∧ (result = 0 ↔ encode known = encode secret) := by
  obtain ⟨result,run,same,zero⟩ := compared (encode known) (encode secret) le_rfl
  refine ⟨result,run,?_,zero.trans (agree_iff _ _)⟩
  rw [timeCompare,same]
  rfl

theorem timeCompare_eq (known secret : String) : timeCompare known secret = some (decide (known = secret)) := by
  obtain ⟨result,_,reached,zero⟩ := timeCompare_result known secret
  rw [reached,Option.some.injEq,beq_eq_decide]
  exact decide_eq_decide.mpr (zero.trans encode_injective.eq_iff)

/-- The comparison takes one step for each byte of the known text, none of them out of
bounds, and ends with whether the bytes are the same. -/
theorem timeCompare_exact (known secret : String) :
    (∃ result,Compared (encode known) (encode secret) (encode known).length result ∧
      timeCompare known secret = some (result == 0)) ∧
    (∀ i < (encode known).length,∀ result,compareStep (encode known) (encode secret) result i ≠ none) ∧
    (timeCompare known secret = some true ↔ encode known = encode secret) := by
  obtain ⟨result,run,reached,zero⟩ := timeCompare_result known secret
  refine ⟨⟨result,run,reached⟩,fun i inside result outside => ?_,?_⟩
  · obtain ⟨other,taken,_⟩ := compareStep_inside (encode known) (encode secret) result inside
    rw [taken] at outside
    cases outside
  · rw [reached,Option.some.injEq,beq_iff_eq]
    exact zero

end Runas
