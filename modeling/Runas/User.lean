import Runas.System

/-! Users, groups and accounts, as the program reads them from the databases. An
account is a user with a group, which `-g` may replace, and the group list it has
asked for, once it has. -/
namespace Runas
open Text

structure Group where
  gid : Gid
  name : String
  deriving DecidableEq

structure User where
  uid : Uid
  gid : Gid
  name : String
  home : String
  shell : String
  deriving DecidableEq

structure Account where
  user : User
  group : Group
  groupList : Option (List Gid)
  deriving DecidableEq

/-- `char::is_numeric`, given which characters beyond ASCII are numbers. -/
def isNumeric (numeric : Char → Bool) (c : Char) : Bool := isDigit c || (127 < c.val && numeric c)

def cstr (text : String) : M CString :=
  match CString.new (encode text) with
  | some c => pure c
  | none => throw (.nul (nulError (encode text)))

section lookup
variable {α : Type}

/-- The `lookup_uid` and `lookup_gid` closures. -/
def lookupId (byId : UInt32 → M (Option α)) (word : List Char) : M (Option α) :=
  match parseU32 word with
  | none => throw (.parseInt (parseU32Error word))
  | some id => byId id

/-- A word as an id when it is marked so, as a name and then as an id when it is a
number, as a name otherwise. -/
def lookupWord (numeric : Char → Bool) (byName : M (Option α)) (byId : UInt32 → M (Option α))
    (word : String) : M (Option α) :=
  match word.toList with
  | '#' :: rest => lookupId byId rest
  | letters => do
    if letters.all (isNumeric numeric) then
      match ← byName with
      | some info => return some info
      | none => lookupId byId letters
    else byName

theorem lookupWord_name {numeric : Char → Bool} {byName : M (Option α)} {byId : UInt32 → M (Option α)}
    {word : String} (plain : word.toList.head? ≠ some '#')
    (name : word.toList.all (isNumeric numeric) = false) :
    lookupWord numeric byName byId word = byName := by
  unfold lookupWord
  split
  · next rest spelled => simp [spelled] at plain
  · rw [name]; rfl

end lookup

namespace User

def fromUid (uid : Uid) : M (Option User) := do
  match ← orFail (← ask (.userFromUid uid)) with
  | none => return none
  | some info =>
    let some home := decode info.dir
      | throw (.staticMessage "user home path is not valid UTF-8")
    let some shell := decode info.shell
      | throw (.staticMessage "user shell path is not valid UTF-8")
    return some ⟨info.uid,info.gid,info.name,home,shell⟩

def lookup (numeric : Char → Bool) (user : String) : M (Option UserEntry) :=
  lookupWord numeric (do orFail (← ask (.userFromName user)))
    (fun uid => do orFail (← ask (.userFromUid uid))) user

def fromStr (numeric : Char → Bool) (user : String) : M (Option User) := do
  match ← lookup numeric user with
  | some info => fromUid info.uid
  | none => return none

end User

namespace Group

def lookup (numeric : Char → Bool) (group : String) : M (Option GroupEntry) :=
  lookupWord numeric (do orFail (← ask (.groupFromName group)))
    (fun gid => do orFail (← ask (.groupFromGid gid))) group

def fromStr (numeric : Char → Bool) (group : String) : M (Option Group) := do
  return (← lookup numeric group).map fun info => ⟨info.gid,info.name⟩

def fromGid (gid : Gid) : M (Option Group) := do
  return (← orFail (← ask (.groupFromGid gid))).map fun info => ⟨info.gid,info.name⟩

end Group

namespace Account

def isRoot (account : Account) : Bool := account.user.uid == 0
def shell (account : Account) : String := account.user.shell
def home (account : Account) : String := account.user.home
def name (account : Account) : String := account.user.name
def uid (account : Account) : Uid := account.user.uid
def gid (account : Account) : Gid := account.group.gid

def setUser (account : Account) (user : User) : Account := { account with user := user }
def setGroup (account : Account) (group : Group) : Account := { account with group := group }

@[simp] theorem isRoot_eq_true (account : Account) : account.isRoot = true ↔ account.uid = 0 := by
  simp [isRoot,uid]

def ofUser : Option User → M (Option Account)
  | none => return none
  | some user => do
    match ← Group.fromGid user.gid with
    | none => return none
    | some group => return some ⟨user,group,none⟩

def fromStr (numeric : Char → Bool) (user : String) : M (Option Account) := do
  ofUser (← User.fromStr numeric user)

def fromUid (uid : Uid) : M (Option Account) := do ofUser (← User.fromUid uid)

def current : M (Option Account) := do fromUid (← ask .getuid)

/-- The group list, asked for at the first call and kept in the account. -/
def getGroupList (account : Account) : M (List Gid × Account) := do
  match account.groupList with
  | some groups => return (groups,account)
  | none =>
    let username ← cstr account.user.name
    let groups ← orFail (← ask (.getgrouplist username account.user.gid))
    return (groups,{ account with groupList := some groups })

def isMember (account : Account) (group : Group) : M (Bool × Account) := do
  if account.isRoot then return (true,account)
  let (list,account) ← account.getGroupList
  return (list.any (· == group.gid),account)

end Account

/-! Two accounts for runs on fixed inputs. -/

def alice : Account := ⟨⟨1000,1000,"alice","/home/alice","/bin/sh"⟩,⟨1000,"alice"⟩,none⟩

def root : Account := ⟨⟨0,0,"root","/root","/bin/sh"⟩,⟨0,"root"⟩,none⟩

end Runas
