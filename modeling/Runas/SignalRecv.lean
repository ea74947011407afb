import Runas.System

/-! Signals received through a signalfd: they are blocked on the thread while the
receiver lives and the previous mask is restored when it is dropped. -/
namespace Runas
open Interaction

/-- One record read from the kernel, by its signal number. -/
structure SignalEvent where
  rawSignal : Nat
  deriving DecidableEq

def SignalEvent.signal (event : SignalEvent) : Option Signal := Signal.ofNumber? event.rawSignal

structure SignalReceiver where
  fd : Fd
  prevMask : List Signal
  deriving DecidableEq

namespace SignalReceiver

def install (signals : List Signal) : M SignalReceiver := do
  if .sigkill ∈ signals ∨ .sigstop ∈ signals then throw (.errno .einval)
  let prevMask ← orFail (← ask (.sigmask .block signals))
  match ← ask (.signalfd signals) with
  | .ok () => return ⟨.signal,prevMask⟩
  | .error error =>
    discard (.sigmask .setMask prevMask)
    throw (.errno error)

def read (receiver : SignalReceiver) : M (Option SignalEvent) := do
  return (← orFail (← ask (.readSignal receiver.fd))).map SignalEvent.mk

def waitRound (receiver : SignalReceiver) : M (Unit ⊕ SignalEvent) := do
  if let some event ← receiver.read then return .inr event
  match ← ask (.poll [some receiver.fd]) with
  | .error .eintr => return .inl ()
  | .error error => throw (.errno error)
  | .ok events =>
    match events 0 with
    | none => throw (.errno .eio)
    | some events =>
      if events.pollerr || events.pollhup then throw (.errno .eio)
      else if events.pollnval then throw (.errno .ebadf)
      else return .inl ()

def wait (receiver : SignalReceiver) : M SignalEvent :=
  Fallible.iterate (fun () => receiver.waitRound) ()

def drop (receiver : SignalReceiver) : Calls Unit := do
  discard (.sigmask .setMask receiver.prevMask)
  discard (.close receiver.fd)

end SignalReceiver

end Runas
