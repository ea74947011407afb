import Runas.System

/-! Foreground ownership of the terminal for a supervised process group. SIGTTOU is
ignored while the handler lives; dropping it gives the terminal back first. -/
namespace Runas
open Interaction

structure ForegroundHandler where
  prevSigttou : SigHandler
  foregroundGroup : Option (Fd × Pid × Pid)
  deriving DecidableEq

namespace ForegroundHandler

def install (child : Pid) : M ForegroundHandler := do
  let prevSigttou ← orFail (← ask (.sigaction .sigttou .ignore))
  match ← ask (.tcgetpgrp .stdin) with
  | .error _ => return ⟨prevSigttou,none⟩
  | .ok original =>
    match ← ask (.tcsetpgrp .stdin child) with
    | .error _ => return ⟨prevSigttou,none⟩
    | .ok () => return ⟨prevSigttou,some (.stdin,original,child)⟩

def transferToParent (handler : ForegroundHandler) : Calls Unit :=
  match handler.foregroundGroup with
  | none => .done ()
  | some (terminal,original,_) => discard (.tcsetpgrp terminal original)

def transferToChild (handler : ForegroundHandler) : Calls Unit :=
  match handler.foregroundGroup with
  | none => .done ()
  | some (terminal,_,child) => discard (.tcsetpgrp terminal child)

def drop (handler : ForegroundHandler) : Calls Unit := do
  handler.transferToParent
  discard (.sigaction .sigttou handler.prevSigttou)

end ForegroundHandler

end Runas
