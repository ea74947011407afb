import Runas.User
import Mathlib.Data.List.AList

/-! The environment of the process and the one built for the command: cleaning
before exec, the defaults for the target, and the overrides of the administrator's
file. -/
namespace Runas
open Interaction Text

abbrev EnvMap := AList (fun _ : String => String)

/-- `entry(name).or_insert(value)`. -/
def EnvMap.orInsert (env : EnvMap) (name value : String) : EnvMap :=
  if name ∈ env then env else env.insert name value

def envVars : List String :=
  ["PATH","LANG","PWD","TERM","COLORTERM","DISPLAY","WAYLAND_DISPLAY","XAUTHORITY",
    "DBUS_SESSION_BUS_ADDRESS","SSH_AUTH_SOCK"]

def splitEntryFrom : Bytes → Option (Bytes × Bytes)
  | [] => none
  | b :: rest =>
    if b = 61 then some ([],rest)
    else (splitEntryFrom rest).map fun (name,value) => (b :: name,value)

/-- An entry of the environment block: its name ends at the first `=` that is not
its first byte. -/
def splitEntry : Bytes → Option (Bytes × Bytes)
  | [] => none
  | b :: rest => (splitEntryFrom rest).map fun (name,value) => (b :: name,value)

def varsOs : Calls (List (Bytes × Bytes)) := do return (← query .environ).filterMap splitEntry

/-- One item of `env::vars`, which panics on what is not Unicode. -/
def unicodeVar (item : Bytes × Bytes) : M (String × String) :=
  match decode item.1,decode item.2 with
  | some name,some value => pure (name,value)
  | _,_ => panic

def Unicode (item : Bytes × Bytes) : Prop :=
  ∃ name value,decode item.1 = some name ∧ decode item.2 = some value

/-- `env::var` with its error dropped. -/
def envVar (name : String) : Calls (Option String) := do
  return (← query (.getenv name)).bind decode

/-- `env::remove_var`. -/
def removeVar (name : String) : M Unit := do
  match ← ask (.unsetenv name) with
  | .ok () => return ()
  | .error _ => panic

def isKept (name : String) : Bool := envVars.contains name || "LC_".toList.isPrefixOf name.toList

def cleanItem (item : Bytes × Bytes) : M Unit := do
  let (name,_) ← unicodeVar item
  if isKept name || "XDG_".toList.isPrefixOf name.toList then return ()
  removeVar name

def cleanEnvironment : M Unit := do
  (← varsOs).forM cleanItem

def setDefaults (target : Account) (env : EnvMap) : EnvMap :=
  (((env.orInsert "HOME" target.home).orInsert "USER" target.name).orInsert "LOGNAME"
    target.name).orInsert "SHELL" target.shell

def keepItem (env : EnvMap) (item : Bytes × Bytes) : M EnvMap := do
  let (name,value) ← unicodeVar item
  return if isKept name then env.orInsert name value else env

def setEnvironment (target : Account) (env : EnvMap) : M EnvMap := do
  (← varsOs).foldlM keepItem (setDefaults target env)

/-- A line of a `BufReader`, without its line ending. -/
def stripLineEnding (raw : Bytes) : Bytes :=
  match raw.reverse with
  | 10 :: 13 :: rest => rest.reverse
  | 10 :: rest => rest.reverse
  | _ => raw

def isNameStart (c : Char) : Bool := ('A' ≤ c && c ≤ 'Z') || ('a' ≤ c && c ≤ 'z') || c == '_'

def isName (key : List Char) : Bool :=
  match key with
  | [] => false
  | c :: rest => isNameStart c && rest.all fun c => isNameStart c || isDigit c

def expand (placeholders : List (String × String)) (value : List Char) : List Char :=
  placeholders.foldl (fun value (name,replacement) =>
    replace (['$','\x7b'] ++ name.toList ++ ['\x7d']) replacement.toList value) value

/-- The assignment a line makes for a target of this name: a key, and the value
unless it is to be taken from the caller. -/
def parseLine (target : String) (line : List Char) : Option (List Char × Option (List Char)) := do
  let line := trim line
  if line.isEmpty || line.head? == some '#' then none
  let (name,rest) := match splitOnce isWhitespace line with
    | some (name,rest) => (name,some rest)
    | none => (line,none)
  if name != ['*'] && name != target.toList then none
  let val := trimStart (← rest)
  let (key,value) := match splitOnce (· == '=') val with
    | some (key,value) => (trim key,some (trim value))
    | none => (trim val,none)
  if isName key then some (key,value) else none

def overwriteLine (target : Account) (placeholders : List (String × String)) (env : EnvMap)
    (line : String) : Calls EnvMap :=
  match parseLine target.name line.toList with
  | none => .done env
  | some (key,value) => do
    let key := String.ofList key
    if key ∈ env then return env
    match value with
    | some value => return env.insert key (String.ofList (expand placeholders value))
    | none => return match ← envVar key with
      | some value => env.insert key value
      | none => env

/-- One line of the file, or its end. -/
def overwriteRound (target : Account) (placeholders : List (String × String)) (env : EnvMap) :
    Calls (EnvMap ⊕ Except Error Unit × EnvMap) := do
  match ← query .readLine with
  | .error error => return .inr (.error (.io (.os error)),env)
  | .ok none => return .inr (.ok (),env)
  | .ok (some raw) =>
    match decode (stripLineEnding raw) with
    | none => return .inr (.error (.io .invalidData),env)
    | some line => return .inl (← overwriteLine target placeholders env line)

/-- The map that is left goes with the result, whether it is an error or not. -/
def loadOverwriteVars (path : String) (target : Account) (placeholders : List (String × String))
    (env : EnvMap) : Calls (Except Error Unit × EnvMap) := do
  match ← query (.openFile path) with
  | .error .enoent => return (.ok (),env)
  | .error error => return (.error (.io (.os error)),env)
  | .ok () =>
    match ← query .fileMetadata with
    | .error error => return (.error (.io (.os error)),env)
    | .ok found =>
      if found.uid != 0 then
        return (.error (.staticMessage
          "ignoring environment override file: not owned by root"),env)
      else if found.mode &&& 0o022 != 0 then
        return (.error (.staticMessage
          "ignoring environment override file: writable by group or others"),env)
      else Program.iterate (overwriteRound target placeholders) env

end Runas
