import Runas.System

/-! The barrier between the two sides of a fork: two pipes made before it, one for
the status each side sends. A side reports that it is ready and waits for the
other, or lets go of its descriptors, which the other sees as the end of file. -/
namespace Runas
open Interaction

def statusReady : UInt8 := 1
def statusFailed : UInt8 := 2

namespace Descriptor

def pipe (name : Pipe) : M (Fd × Fd) := do
  orFail (← ask (.pipe name true))
  return (.pipe name .read,.pipe name .write)

def writeByte (fd : Fd) (value : UInt8) : M Unit :=
  Fallible.iterate (fun () => do
    match ← ask (.write fd [value]) with
    | .ok 1 => return .inr ()
    | .ok _ => throw (.errno .eio)
    | .error .eintr => return .inl ()
    | .error error => throw (.errno error)) ()

def readByte (fd : Fd) : M (Option UInt8) :=
  Fallible.iterate (fun () => do
    match ← ask (.read fd 1) with
    | .ok [] => return .inr none
    | .ok [value] => return .inr (some value)
    | .ok _ => throw (.errno .eio)
    | .error .eintr => return .inl ()
    | .error error => throw (.errno error)) ()

def drop : Option Fd → Calls Unit
  | none => .done ()
  | some fd => discard (.close fd)

end Descriptor

inductive SyncDecision
  | «continue» | abort
  deriving DecidableEq

structure ForkEndpoint where
  write : Option Fd
  read : Option Fd
  statusSent : Bool
  deriving DecidableEq

namespace ForkEndpoint

def drop (endpoint : ForkEndpoint) : Calls Unit := do
  Descriptor.drop endpoint.write
  Descriptor.drop endpoint.read

/-- The endpoint is left as it was when this fails. -/
def sendStatus (endpoint : ForkEndpoint) (status : UInt8) : M ForkEndpoint := do
  if endpoint.statusSent then throw (.errno .ealready)
  match endpoint.write with
  | none => throw (.errno .ebadf)
  | some fd => Descriptor.writeByte fd status
  Descriptor.drop endpoint.write
  return { endpoint with write := none,statusSent := true }

def awaitStatus (endpoint : ForkEndpoint) : M SyncDecision := do
  match endpoint.read with
  | none => throw (.errno .ebadf)
  | some fd =>
    match ← Descriptor.readByte fd with
    | none => return .abort
    | some status =>
      if status = statusReady then return .continue
      else if status = statusFailed then return .abort
      else throw (.errno .eproto)

def readyAndWait (endpoint : ForkEndpoint) : M SyncDecision := do
  let endpoint ← Fallible.releasingOnError endpoint.drop (endpoint.sendStatus statusReady)
  let decision ← Fallible.releasingOnError endpoint.drop endpoint.awaitStatus
  Descriptor.drop endpoint.read
  return decision

def reportFailure (endpoint : ForkEndpoint) : M Unit := do
  let endpoint ← Fallible.releasingOnError endpoint.drop (endpoint.sendStatus statusFailed)
  endpoint.drop

end ForkEndpoint

structure ForkSync where
  childWrite : Option Fd
  childRead : Option Fd
  parentWrite : Option Fd
  parentRead : Option Fd
  deriving DecidableEq

namespace ForkSync

def new : M ForkSync := do
  let (parentRead,childWrite) ← Descriptor.pipe (.status .child)
  let (childRead,parentWrite) ← Fallible.releasingOnError
    (do Descriptor.drop childWrite; Descriptor.drop parentRead) (Descriptor.pipe (.status .parent))
  return ⟨childWrite,childRead,parentWrite,parentRead⟩

/-- The descriptors of a new pair of pipes. -/
def fresh : ForkSync where
  childWrite := some (.pipe (.status .child) .write)
  childRead := some (.pipe (.status .parent) .read)
  parentWrite := some (.pipe (.status .parent) .write)
  parentRead := some (.pipe (.status .child) .read)

def drop (sync : ForkSync) : Calls Unit := do
  Descriptor.drop sync.childWrite
  Descriptor.drop sync.childRead
  Descriptor.drop sync.parentWrite
  Descriptor.drop sync.parentRead

def intoChild (sync : ForkSync) : Calls ForkEndpoint := do
  Descriptor.drop sync.parentRead
  Descriptor.drop sync.parentWrite
  return ⟨sync.childWrite,sync.childRead,false⟩

def intoParent (sync : ForkSync) : Calls ForkEndpoint := do
  Descriptor.drop sync.childWrite
  Descriptor.drop sync.childRead
  return ⟨sync.parentWrite,sync.parentRead,false⟩

end ForkSync

end Runas
