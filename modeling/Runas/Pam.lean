import Runas.Env

/-! The PAM library behind its handle. Any of its functions may call the conversation
before it returns. The handle carries the last status and whether a session is
open; both outlive a failed call, so a method keeps the handle beside its result. -/
namespace Runas
open Interaction Text

namespace Pam

def success : UInt32 := 0
def systemErr : UInt32 := 4
def bufErr : UInt32 := 5
def newAuthtokReqd : UInt32 := 12
def convErr : UInt32 := 19
def establishCred : UInt32 := 0x2
def deleteCred : UInt32 := 0x4
def changeExpiredAuthtok : UInt32 := 0x20
def maxNumMsg : Int := 32
def promptEchoOff : UInt32 := 1
def promptEchoOn : UInt32 := 2
def errorMsg : UInt32 := 3
def textInfo : UInt32 := 4

end Pam

inductive PromptMode
  | visible | hidden
  deriving DecidableEq

/-- What a callback does; without a result it has panicked. -/
structure Conversation where
  prompt : String → PromptMode → Calls (Option (Except Error String))
  info : String → Calls (Option (Except Error Unit))
  error : String → Calls (Option (Except Error Unit))

def Conv (flags : RunFlags) : Conversation where
  prompt message mode := do
    let flags := if mode = .hidden then flags.union .promptHide else flags
    return some (← query (.askPassword message flags))
  info message := do
    query (.print ("PAM info: " ++ message))
    return some (.ok ())
  error message := do
    query (.eprint ("PAM error: " ++ message))
    return some (.ok ())

namespace Pam

/-- The code a failed callback makes the conversation return. -/
def callbackError : Error → Calls UInt32
  | .pam error => return error.code
  | error => do
    query (.report "PAM conversation error: " error)
    return convErr

def isPassword (message : String) : Bool :=
  decide ("password".toList <:+: message.toList.map Char.toLower)

/-- The bytes `strdup` copies: those before the first NUL. -/
def cText (text : String) : Bytes := (encode text).takeWhile (· != 0)

/-- How one message ends: in a panic, with the code to return, or with what answers it. -/
abbrev Replied := Option (Except UInt32 (Option Bytes))

def convPrompt (callback : Conversation) (style : UInt32) (message : String) : Calls Replied := do
  let mode := if style = promptEchoOn && !isPassword message then PromptMode.visible else .hidden
  match ← callback.prompt message mode with
  | none => return none
  | some (.error error) => return some (.error (← callbackError error))
  | some (.ok answer) =>
    match ← query (.strdup (cText answer)) with
    | .ok () => return some (.ok (some (cText answer)))
    | .error error =>
      query (.report "PAM allocation error: " (.errno error))
      return some (.error bufErr)

def convText (shown : Calls (Option (Except Error Unit))) : Calls Replied := do
  match ← shown with
  | none => return none
  | some (.error error) => return some (.error (← callbackError error))
  | some (.ok ()) => return some (.ok none)

def convFailure (text : String) : Calls Replied := do
  query (.eprint ("PAM conversation error: " ++ text))
  return some (.error convErr)

def convMessage (callback : Conversation) : Option PamMessage → Calls Replied
  | none => convFailure "null request pointer"
  | some ⟨_,none⟩ => convFailure "null message pointer"
  | some ⟨style,some bytes⟩ =>
    match decode bytes with
    | none => do
      query (.report "PAM conversation error: " (.invalidUtf8 (utf8Error bytes)))
      return some (.error convErr)
    | some message =>
      if style = promptEchoOn ∨ style = promptEchoOff then convPrompt callback style message
      else if style = errorMsg then convText (callback.error message)
      else if style = textInfo then convText (callback.info message)
      else convFailure s!"unknown message style ({style.toInt32})"

def convMessages (callback : Conversation) :
    List (Option PamMessage) → List (Option Bytes) → Calls (Option PamReply)
  | [],answers => return some ⟨success,some answers⟩
  | message :: rest,answers => do
    match ← convMessage callback message with
    | none => return none
    | some (.error code) => return some ⟨code,none⟩
    | some (.ok answer) => convMessages callback rest (answers ++ [answer])

/-- The conversation callback; without a reply one of its own callbacks has panicked. -/
def convProcess (callback : Conversation) (request : PamRequest) : Calls (Option PamReply) :=
  match request.messages with
  | none => return some ⟨convErr,none⟩
  | some messages =>
    if request.numMsg ≤ 0 ∨ maxNumMsg < request.numMsg ∨ !request.hasResp then return some ⟨convErr,none⟩
    else do
      let count := request.numMsg.toNat
      match ← query (.calloc count) with
      | .error error =>
        query (.report "PAM allocation error: " (.io (.os error)))
        return some ⟨bufErr,none⟩
      | .ok () => convMessages callback ((List.range count).map fun i => (messages[i]?).join) []

/-- What comes of one answer of the library: its result, or a conversation and the next answer.
The conversation is an `extern "C"` function, out of which no panic gets. -/
def converse (callback : Conversation) {function : PamFunction} :
    PamAnswer function → Calls (PamAnswer function ⊕ PamReturn function)
  | .returned value => return .inr value
  | .converse request => do
    match ← convProcess callback request with
    | none => abort
    | some reply => return .inl (← query (.pamReply function reply))

def call (callback : Conversation) (function : PamFunction) : Calls (PamReturn function) := do
  Program.iterate (converse callback) (← query (.pam function))

/-- The error of a code, with the text the library has for it. -/
def errorOf (callback : Conversation) (code : UInt32) : Calls PamError := do
  match ← call callback (.strerror code) with
  | none => return ⟨systemErr,s!"Unknown error ({code.toInt32})"⟩
  | some message => return ⟨code,message⟩

end Pam

structure PamHandle where
  flags : RunFlags
  lastStatus : UInt32
  session : Bool
  deriving DecidableEq

/-- A method of the handle: its result, and the handle after it in either case. -/
abbrev PamM := ExceptT Error (StateT PamHandle Calls)

namespace PamHandle

def perform {α : Type} (handle : PamHandle) (method : PamM α) : Calls (Except Error α × PamHandle) :=
  (method.run).run handle

def call (function : PamFunction) : PamM (PamReturn function) := do
  let handle ← get
  (Pam.call (Conv handle.flags) function : Calls _)

def fail {α : Type} (wrap : PamError → Error) (code : UInt32) : PamM α := do
  let handle ← get
  let error ← (Pam.errorOf (Conv handle.flags) code : Calls _)
  throw (wrap error)

def check (result : UInt32) : PamM Unit := do
  modify fun handle => { handle with lastStatus := result }
  if result ≠ Pam.success then fail .pam result

section perform
variable {α β : Type}

theorem perform_bind (x : PamM α) (f : α → PamM β) (handle : PamHandle) :
    handle.perform (x >>= f) = (handle.perform x).bind fun
      | (.ok value,handle) => handle.perform (f value)
      | (.error error,handle) => .done (.error error,handle) := by
  change Program.bind (handle.perform x) _ = _
  congr 1
  funext pair
  obtain ⟨result,handle⟩ := pair
  cases result <;> rfl

theorem perform_catch (x : PamM α) (f : Error → PamM α) (handle : PamHandle) :
    handle.perform (tryCatch x f) = (handle.perform x).bind fun
      | (.ok value,handle) => .done (.ok value,handle)
      | (.error error,handle) => handle.perform (f error) := by
  change Program.bind (handle.perform x) _ = _
  congr 1
  funext pair
  obtain ⟨result,handle⟩ := pair
  cases result <;> rfl

theorem perform_lift (p : Calls α) (handle : PamHandle) :
    handle.perform (liftM p : PamM α) = p.bind fun value => .done (.ok value,handle) := by
  change (Program.bind p _).bind _ = _
  rw [Program.bind_assoc]
  rfl

theorem perform_call (function : PamFunction) (handle : PamHandle) :
    handle.perform (call function) =
      (Pam.call (Conv handle.flags) function).bind fun value => .done (.ok value,handle) := by
  unfold call
  rw [perform_bind]
  exact perform_lift _ handle

end perform

def authenticate (flags : UInt32) : PamM Unit := do check (← call (.authenticate flags))

def acctMgmt (flags : UInt32) : PamM Unit := do
  let result : UInt32 ← call (.acctMgmt flags)
  modify fun handle => { handle with lastStatus := result }
  if result = Pam.success then return ()
  else if result = Pam.newAuthtokReqd then fail .pamActionRequired Pam.newAuthtokReqd
  else fail .pam result

def chauthtok (flags : UInt32) : PamM Unit := do check (← call (.chauthtok flags))

/-- `Ok` or the error of a check, after whose failure the credentials are deleted. -/
def checkOrDelete (result : UInt32) : PamM Unit := do
  try check result
  catch error =>
    let _ ← call (.setcred Pam.deleteCred)
    throw error

def openSession (flags : UInt32) : PamM Unit := do
  if (← get).session then return ()
  check (← call (.setcred Pam.establishCred))
  checkOrDelete (← call (.openSession flags))
  modify fun handle => { handle with session := true }

def closeSession (flags : UInt32) : PamM Unit := do
  if !(← get).session then return ()
  checkOrDelete (← call (.closeSession flags))
  modify fun handle => { handle with session := false }
  check (← call (.setcred Pam.deleteCred))

def setItem (item : PamItem) (value : String) : PamM Unit := do
  match CString.new (encode value) with
  | none => throw (.nul (nulError (encode value)))
  | some value => check (← call (.setItem item value))

def envEntry (env : EnvMap) (entry : Bytes) : Except Error EnvMap :=
  match decode entry with
  | none => .error (.invalidUtf8 (utf8Error entry))
  | some text =>
    match splitOnce (· == '=') text.toList with
    | none => .error (.staticMessage "invalid environment variable returned by PAM")
    | some (key,value) => .ok (env.insert (String.ofList key) (String.ofList value))

def getenvlist : PamM EnvMap := do
  match ← call .getenvlist with
  | none => return ∅
  | some entries =>
    match entries.foldlM envEntry ∅ with
    | .ok env => return env
    | .error error => throw error

def drop (handle : PamHandle) : Calls Unit := do
  let (_,handle) ← if handle.session then handle.perform (closeSession 0) else pure (.ok (),handle)
  let _ ← Pam.call (Conv handle.flags) (.finish handle.lastStatus)

end PamHandle

def pamStart (service username : String) (flags : RunFlags) : M PamHandle := do
  let cService ← cstr service
  let cUsername ← cstr username
  let (result,set) ← Pam.call (Conv flags) (.start cService cUsername)
  if result ≠ Pam.success then throw (.pam (← Pam.errorOf (Conv flags) result))
  else if !set then throw (.staticMessage "returned null pointer PAM handle")
  else return ⟨flags,Pam.success,false⟩

end Runas
