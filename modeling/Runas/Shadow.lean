import Runas.User

/-! The shadow database and `crypt`. -/
namespace Runas
open Text

structure ShadowEntry where
  passwdHash : String
  lastChange : Int
  maxAge : Int
  inactive : Int
  expiry : Int
  deriving DecidableEq

def crypt (passwd salt : String) : M String := do
  let cSalt ← cstr salt
  match ← ask (.crypt (CString.ofBuffer (encode passwd)) cSalt) with
  | .ok hash => return hash
  | .error error => throw (.io (.os error))

def getspnam (username : String) : M (Option ShadowEntry) := do
  let cUsername ← cstr username
  match ← ask (.getspnam cUsername) with
  | .ok entry => return entry.map fun entry =>
      ⟨entry.passwd,entry.lastChange,entry.max,entry.inactive,entry.expire⟩
  | .error error => throw (.io (.os error))

end Runas
