import Runas.Pam
import Runas.Passwd
import Runas.Shadow

/-! Authentication: who may run as the target at once, who must authenticate first,
and how, against the shadow database or through PAM. In the supervised builds the
PAM session stays open around the command, in a parent that never returns. -/
namespace Runas
open Interaction

def authFailed : Error := .staticMessage "authentication failed"

def askPasswordFor (message : String) (flags : RunFlags) : M String := do
  match ← ask (.askPassword message flags) with
  | .ok password => return password
  | .error error => throw error

def checkedAdd (a b : Int) : Option Int :=
  if -2^63 ≤ a + b ∧ a + b < 2^63 then some (a + b) else none

def passwdExpiry (entry : ShadowEntry) : Except Error (Option Int) :=
  if entry.lastChange = 0 then .error (.staticMessage "password has expired")
  else if 0 < entry.lastChange ∧ 0 ≤ entry.maxAge then
    match checkedAdd entry.lastChange entry.maxAge with
    | some expiry => .ok (some expiry)
    | none => .error (.staticMessage "invalid shadow data")
  else .ok none

/-- The checks of the shadow entry made before the password is asked for. -/
def checkAging (entry : ShadowEntry) (today : Int) : Except Error Unit := do
  let passwdExpiry ← passwdExpiry entry
  let accntExpired := 0 ≤ entry.expiry ∧ entry.expiry < today
  let passwdExpired := passwdExpiry.any fun expiry => decide (expiry < today)
  let inactive := decide (0 ≤ entry.inactive) &&
    (passwdExpiry.bind fun expiry => checkedAdd expiry entry.inactive).any fun expiry =>
      decide (expiry < today)
  if accntExpired then throw (.staticMessage "account has expired")
  else if passwdExpired then throw (.staticMessage "password has expired")
  else if inactive then
    throw (.staticMessage "account has been disabled due to password inactivity")

/-- Days since the epoch, or the last day there is for a clock before it. -/
def dayOf : Option Nat → Int
  | some seconds => seconds / 86400
  | none => 2^63 - 1

def orThrow {α : Type} : Except Error α → M α
  | .ok value => pure value
  | .error error => throw error

def verifyPassword (entry : ShadowEntry) (flags : RunFlags) : M Unit := do
  let pwd ← askPasswordFor promptText (flags.union .promptHide)
  let userHash ← crypt pwd entry.passwdHash
  match timeCompare userHash entry.passwdHash with
  | none => panic
  | some true => return ()
  | some false => throw authFailed

def shadowAuth (user : Account) (flags : RunFlags) : M Unit := do
  match ← getspnam user.name with
  | none => throw authFailed
  | some entry =>
    let today := dayOf (← ask .now)
    orThrow (checkAging entry today)
    verifyPassword entry flags

def ttyItem : PamM Unit := do
  if ← (query (.isTerminal .stdin) : Calls Bool) then
    match ← (query (.ttyname .stdin) : Calls (Except Errno String)) with
    | .ok tty => PamHandle.setItem .tty tty
    | .error _ => PamHandle.setItem .tty "/runas"
  else PamHandle.setItem .tty "/runas"

/-- Account management, with a change of the password when it is due and may be prompted for. -/
def accountCheck (flags : RunFlags) : PamM Unit := do
  try PamHandle.acctMgmt 0
  catch
    | .pamActionRequired error =>
      if flags.contains .authNoPrompt then throw (.pamActionRequired error)
      else PamHandle.chauthtok Pam.changeExpiredAuthtok
    | error => throw error

/-- The PAM steps of `auth` up to the session. -/
def pamLogin (build : Build) (user target : Account) (flags : RunFlags) (disableAuth : Bool) :
    PamM Unit := do
  ttyItem
  if !disableAuth then PamHandle.authenticate 0
  PamHandle.setItem .ruser user.name
  accountCheck flags
  if build.backend = .scopex then
    PamHandle.setItem .user target.name
    PamHandle.openSession 0

def authChild (sync : ForkSync) (pamEnv : EnvMap) : M EnvMap := do
  let pipe ← sync.intoChild
  Fallible.releasingOnError pipe.drop do
    setParentExitSignal .sigkill
    orFail (← ask (.setpgid 0 0))
  if (← pipe.readyAndWait) ≠ .continue then throw .unknown
  return pamEnv

/-- The parent's side: it keeps the session around the command and never returns. -/
def authParent (handle : PamHandle) (sync : ForkSync) (child : Pid) : M EnvMap := do
  let pipe ← sync.intoParent
  let statusCode ← match ← outcome (watchProcess child pipe) with
    | .ok code => pure code
    | .error error => do
      ask (.report "" error)
      pure 1
  handle.drop
  exit statusCode

def authFork (handle : PamHandle) (sync : ForkSync) (pamEnv : EnvMap) : M EnvMap := do
  match ← ask .fork with
  | .ok .child => authChild sync pamEnv
  | .ok (.parent child) => authParent handle sync child
  | .error error =>
    handle.drop
    sync.drop
    throw (.errno error)

/-- The rest of `auth` in a scopex build: the session is open. -/
def authSession (handle : PamHandle) : M EnvMap := do
  let sync ← Fallible.releasingOnError handle.drop ForkSync.new
  let (listed,handle) ← handle.perform PamHandle.getenvlist
  match listed with
  | .ok pamEnv => authFork handle sync pamEnv
  | .error error =>
    sync.drop
    handle.drop
    throw error

def pamAuth (build : Build) (user target : Account) (flags : RunFlags) (disableAuth : Bool) :
    M EnvMap := do
  let disableAuth := decide (build.backend = .scopex) && disableAuth
  let pamUser := if disableAuth then target.name else user.name
  let handle ← pamStart "runas" pamUser flags
  let (result,handle) ← handle.perform (pamLogin build user target flags disableAuth)
  match result with
  | .error error =>
    handle.drop
    throw error
  | .ok () =>
    if build.backend = .scopex then authSession handle
    else
      handle.drop
      return ∅

inductive AuthDecision
  | allow | deny | authenticate
  deriving DecidableEq

def authDecision (isRoot sameUid hasTargetGroup nonInteractive : Bool) : AuthDecision :=
  if isRoot || (sameUid && hasTargetGroup) then .allow
  else if !nonInteractive then .authenticate
  else .deny

theorem authDecision_eq_allow {isRoot sameUid hasTargetGroup nonInteractive : Bool} :
    authDecision isRoot sameUid hasTargetGroup nonInteractive = .allow ↔
      isRoot = true ∨ (sameUid = true ∧ hasTargetGroup = true) := by
  cases isRoot <;> cases sameUid <;> cases hasTargetGroup <;> cases nonInteractive <;> decide

theorem authDecision_eq_authenticate {isRoot sameUid hasTargetGroup nonInteractive : Bool} :
    authDecision isRoot sameUid hasTargetGroup nonInteractive = .authenticate ↔
      nonInteractive = false ∧ ¬ (isRoot = true ∨ (sameUid = true ∧ hasTargetGroup = true)) := by
  cases isRoot <;> cases sameUid <;> cases hasTargetGroup <;> cases nonInteractive <;> decide

theorem authDecision_eq_deny {isRoot sameUid hasTargetGroup nonInteractive : Bool} :
    authDecision isRoot sameUid hasTargetGroup nonInteractive = .deny ↔
      nonInteractive = true ∧ ¬ (isRoot = true ∨ (sameUid = true ∧ hasTargetGroup = true)) := by
  cases isRoot <;> cases sameUid <;> cases hasTargetGroup <;> cases nonInteractive <;> decide

def nonInteractive (flags : RunFlags) : Bool :=
  flags.contains .authNoPrompt && !flags.contains .authStdin

def auth (build : Build) (user target : Account) (flags : RunFlags) (disableAuth : Bool) :
    M EnvMap := do
  if build.usePam then pamAuth build user target flags disableAuth
  else
    shadowAuth user flags
    return ∅

def isWheelMember (numeric : Char → Bool) (user : Account) : M Bool := do
  match ← Group.fromStr numeric authGroup with
  | some wheel => return (← user.isMember wheel).1
  | none => return false

/-- Whether the caller has the target's group, with the caller's account after the question. -/
def hasTargetGroup (user target : Account) : M (Bool × Account) := do
  if target.gid = user.gid then return (true,user) else user.isMember target.group

/-- The map is the PAM environment; only the supervised builds have one. -/
def authenticate (numeric : Char → Bool) (build : Build) (user target : Account)
    (flags : RunFlags) : M EnvMap := do
  let (hasTargetGroup,user) ← hasTargetGroup user target
  match authDecision user.isRoot (target.uid == user.uid) hasTargetGroup (nonInteractive flags) with
  | .allow => if build.supervised then auth build user target flags true else return ∅
  | .deny => throw authFailed
  | .authenticate =>
    if ← isWheelMember numeric user then auth build user target flags false
    else throw authFailed

end Runas
