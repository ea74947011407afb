import Runas.Interaction.Memory
import Runas.Pam

/-! The memory that passes between the program and the PAM library: the responses of a
conversation, which the program allocates and the library frees, and the list of
environment entries, which the library allocates and the program frees. -/
namespace Runas
open Interaction Text

/-- What a block of the C heap holds: the bytes of a text, or pointers, a null one being `none`. -/
inductive CData
  | text (bytes : Bytes)
  | pointers (entries : List (Option Address))
  deriving DecidableEq

abbrev CBlocks := Blocks CData

abbrev WithHeap := Managed CData Call Answer

namespace WithHeap
open Managed

/-- The bytes before the first NUL. A text that has none is read beyond its end. -/
def cString? (bytes : Bytes) : Option Bytes := if 0 ∈ bytes then some (bytes.takeWhile (· != 0)) else none

def readText (address : Address) : WithHeap Bytes := do
  match ← read address with
  | .text bytes =>
    match cString? bytes with
    | some text => return text
    | none => undefined
  | .pointers _ => undefined

def readPointer (array : Address) (index : Nat) : WithHeap (Option Address) := do
  match ← read array with
  | .pointers entries =>
    match entries[index]? with
    | some entry => return entry
    | none => undefined
  | .text _ => undefined

def writePointer (array : Address) (index : Nat) (value : Option Address) : WithHeap Unit := do
  match ← read array with
  | .pointers entries =>
    if index < entries.length then write array (.pointers (entries.set index value)) else undefined
  | .text _ => undefined

def strdup (bytes : Bytes) : WithHeap (Except Errno Address) := do
  match cString? bytes with
  | none => undefined
  | some text =>
    match ← call (query (.strdup text)) with
    | .error error => return .error error
    | .ok () => return .ok (← alloc (.text (text ++ [0])))

/-- The bytes of a C string and its NUL overwritten. -/
def zeroize (address : Address) : WithHeap Unit := do
  match ← read address with
  | .text bytes =>
    match cString? bytes with
    | some text => write address (.text (List.replicate (text.length + 1) 0 ++ bytes.drop (text.length + 1)))
    | none => undefined
  | .pointers _ => undefined

end WithHeap

open Managed WithHeap

structure PamResponses where
  ptr : Option Address
  count : Nat
  deriving DecidableEq

namespace PamResponses

def new (count : Nat) : WithHeap (Except Errno PamResponses) := do
  match ← call (query (.calloc count)) with
  | .error error => return .error error
  | .ok () => return .ok ⟨some (← alloc (.pointers (List.replicate count none))),count⟩

/-- The response at an index gets its text. -/
def setResp (replies : PamResponses) (index : Nat) (resp : Address) : WithHeap Unit :=
  match replies.ptr with
  | none => undefined
  | some ptr => writePointer ptr index (some resp)

def clearResponse (ptr : Address) (index : Nat) : WithHeap Unit := do
  match ← readPointer ptr index with
  | none => return ()
  | some resp => do
    zeroize resp
    free resp
    writePointer ptr index none

def clearResponses (ptr : Address) : List Nat → WithHeap Unit
  | [] => return ()
  | index :: rest => do
    clearResponse ptr index
    clearResponses ptr rest

def drop (replies : PamResponses) : WithHeap Unit :=
  match replies.ptr with
  | none => return ()
  | some ptr => do
    clearResponses ptr (List.range replies.count)
    free ptr

/-- The array becomes the library's: what is dropped here no longer points to it. -/
def transferTo (replies : PamResponses) (output : Address) : WithHeap Unit := do
  writePointer output 0 replies.ptr
  drop { replies with ptr := none }

end PamResponses

namespace WithHeap
open Pam

/-- How one message ends: in a panic, with the code to return, or with the conversation going on. -/
abbrev Ended := Option (Except UInt32 Unit)

def convPrompt (callback : Conversation) (replies : PamResponses) (index : Nat) (style : UInt32) (message : String) :
    WithHeap Ended := do
  let mode := if style = promptEchoOn && !isPassword message then PromptMode.visible else .hidden
  match ← call (callback.prompt message mode) with
  | none => return none
  | some (.error error) => return some (.error (← call (callbackError error)))
  | some (.ok answer) =>
    match ← strdup (encode answer ++ [0]) with
    | .error error => do
      call (query (.report "PAM allocation error: " (.errno error)))
      return some (.error bufErr)
    | .ok dup => do
      replies.setResp index dup
      return some (.ok ())

def convText (shown : Calls (Option (Except Error Unit))) : WithHeap Ended := do
  match ← call shown with
  | none => return none
  | some (.error error) => return some (.error (← call (callbackError error)))
  | some (.ok ()) => return some (.ok ())

def convFailure (text : String) : WithHeap Ended := do
  call (query (.eprint ("PAM conversation error: " ++ text)))
  return some (.error convErr)

def convMessage (callback : Conversation) (replies : PamResponses) (index : Nat) : Option PamMessage → WithHeap Ended
  | none => convFailure "null request pointer"
  | some ⟨_,none⟩ => convFailure "null message pointer"
  | some ⟨style,some bytes⟩ =>
    match decode bytes with
    | none => do
      call (query (.report "PAM conversation error: " (.invalidUtf8 (utf8Error bytes))))
      return some (.error convErr)
    | some message =>
      if style = promptEchoOn ∨ style = promptEchoOff then convPrompt callback replies index style message
      else if style = errorMsg then convText (callback.error message)
      else if style = textInfo then convText (callback.info message)
      else convFailure s!"unknown message style ({style.toInt32})"

def convMessages (callback : Conversation) (replies : PamResponses) : Nat → List (Option PamMessage) → WithHeap Ended
  | _,[] => return some (.ok ())
  | index,message :: rest => do
    match ← convMessage callback replies index message with
    | some (.ok ()) => convMessages callback replies (index + 1) rest
    | ended => return ended

/-- The conversation, with `resp` the place for the array of responses. A panic stops
in it and aborts the process, with the responses not dropped. -/
def convProcess (callback : Conversation) (request : PamRequest) (resp : Address) : WithHeap (Option UInt32) :=
  match request.messages with
  | none => return some convErr
  | some messages =>
    if request.numMsg ≤ 0 ∨ maxNumMsg < request.numMsg ∨ !request.hasResp then return some convErr
    else do
      let count := request.numMsg.toNat
      writePointer resp 0 none
      match ← PamResponses.new count with
      | .error error => do
        call (query (.report "PAM allocation error: " (.io (.os error))))
        return some bufErr
      | .ok replies => do
        match ← convMessages callback replies 0 ((List.range count).map fun i => (messages[i]?).join) with
        | none => return none
        | some (.error code) => do
          replies.drop
          return some code
        | some (.ok ()) => do
          replies.transferTo resp
          return some success

/-- `catch_unwind` around the conversation, which no panic leaves. -/
def convWrap (callback : Conversation) (request : PamRequest) (resp : Address) : WithHeap (Option UInt32) :=
  convProcess callback request resp

def readEntry (list : Address) : Nat × EnvMap → WithHeap (Nat × EnvMap ⊕ Except Error EnvMap)
  | (i,envs) => do
    match ← readPointer list i with
    | none => return .inr (.ok envs)
    | some entry =>
      match PamHandle.envEntry envs (← readText entry) with
      | .ok envs => return .inl (i + 1,envs)
      | .error error => return .inr (.error error)

def freeEntry (list : Address) (j : Nat) : WithHeap (Nat ⊕ Unit) := do
  match ← readPointer list j with
  | none => return .inr ()
  | some entry => do
    free entry
    return .inl (j + 1)

/-- The texts the library allocates, and the null behind them. -/
def allocEntries : List Bytes → WithHeap (List (Option Address))
  | [] => return [none]
  | entry :: rest => return some (← alloc (.text (entry ++ [0]))) :: (← allocEntries rest)

/-- The list as the library returns it. -/
def returnList : Option (List Bytes) → WithHeap (Option Address)
  | none => return none
  | some entries => return some (← alloc (.pointers (← allocEntries entries)))

/-- The entries are read up to the null at the end, or to one that is no assignment; then
all of them are freed, and the list. -/
def takeList : Option Address → WithHeap (Except Error EnvMap)
  | none => return .ok ∅
  | some list => do
    let result ← iterate (readEntry list) (0,∅)
    iterate (freeEntry list) 0
    free list
    return result

def getenvlist (handle : PamHandle) : WithHeap (Except Error EnvMap) := do
  takeList (← returnList (← call (Pam.call (Conv handle.flags) .getenvlist)))

end WithHeap

end Runas
