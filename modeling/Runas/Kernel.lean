import Runas.System
import Runas.Interaction.Play

/-! The part of the system that the two sides of a fork share: the status pipes with
every open copy of their ends, what the parent can see of its child, the SIGCHLD
that is blocked or pending in the parent, and the death signal of the child. Any
call may fail; only what a success means is fixed. -/
namespace Runas
open Interaction Text

/-- The status pipes, by the side that sends on them: which process still has which
end, the bytes not read yet, and all the bytes written so far. -/
structure Pipes where
  holds : Side → Side → PipeEnd → Bool
  buffer : Side → Bytes
  sent : Side → Bytes

namespace Pipes

def fresh : Pipes := ⟨fun _ _ _ => true,fun _ => [],fun _ => []⟩

def close (pipes : Pipes) (s sender : Side) (half : PipeEnd) : Pipes where
  holds s' sender' half' := pipes.holds s' sender' half' && !(s' = s && sender' = sender && half' = half)
  buffer := pipes.buffer
  sent := pipes.sent

def release (pipes : Pipes) (s : Side) : Pipes where
  holds s' sender half := pipes.holds s' sender half && s' ≠ s
  buffer := pipes.buffer
  sent := pipes.sent

def push (pipes : Pipes) (sender : Side) (bytes : Bytes) : Pipes where
  holds := pipes.holds
  buffer sender' := if sender' = sender then pipes.buffer sender ++ bytes else pipes.buffer sender'
  sent sender' := if sender' = sender then pipes.sent sender ++ bytes else pipes.sent sender'

def pull (pipes : Pipes) (sender : Side) (count : Nat) : Pipes where
  holds := pipes.holds
  buffer sender' := if sender' = sender then (pipes.buffer sender).drop count else pipes.buffer sender'
  sent := pipes.sent

def open? (pipes : Pipes) (sender : Side) (half : PipeEnd) : Bool :=
  pipes.holds .parent sender half || pipes.holds .child sender half

/-- The moves of one side on the status pipes. -/
inductive Moves (s : Side) (pipes : Pipes) : Pipes → Prop
  | stay : Moves s pipes pipes
  | push (sender : Side) (bytes : Bytes) (held : pipes.holds s sender .write = true)
      (read : pipes.open? sender .read = true) : Moves s pipes (pipes.push sender bytes)
  | pull (sender : Side) (count : Nat) (held : pipes.holds s sender .read = true) :
      Moves s pipes (pipes.pull sender count)
  | close (sender : Side) (half : PipeEnd) : Moves s pipes (pipes.close s sender half)


section
variable {pipes pipes' : Pipes} {s : Side}

theorem Moves.less (moves : pipes.Moves s pipes') {q sender : Side} {half : PipeEnd}
    (held : pipes'.holds q sender half = true) : pipes.holds q sender half = true := by
  cases moves with
  | stay | push | pull => exact held
  | close =>
    simp only [Pipes.close,Bool.and_eq_true] at held
    exact held.1

theorem Moves.sent (moves : pipes.Moves s pipes') (sender : Side) : pipes.sent sender <+: pipes'.sent sender := by
  cases moves with
  | push other bytes =>
    by_cases same : sender = other
    · subst same
      simp [Pipes.push]
    · simp [Pipes.push,same]
  | _ => exact List.prefix_rfl

theorem Moves.buffered (moves : pipes.Moves s pipes')
    (buffered : ∀ sender, pipes.buffer sender <:+ pipes.sent sender) (sender : Side) :
    pipes'.buffer sender <:+ pipes'.sent sender := by
  cases moves with
  | stay | close => exact buffered sender
  | push other bytes =>
    by_cases same : sender = other
    · subst same
      obtain ⟨read,all⟩ := buffered sender
      exact ⟨read,by simp [Pipes.push,← all]⟩
    · simpa [Pipes.push,same] using buffered sender
  | pull other count =>
    by_cases same : sender = other
    · subst same
      simpa [Pipes.pull] using (List.drop_suffix count _).trans (buffered sender)
    · simpa [Pipes.pull,same] using buffered sender

theorem Moves.other (moves : pipes.Moves s pipes') {q sender : Side} {half : PipeEnd} (other : q ≠ s) :
    pipes'.holds q sender half = pipes.holds q sender half := by
  cases moves with
  | close => simp [Pipes.close,other]
  | _ => rfl

end

end Pipes

/-- How a process has ended. -/
inductive Ending
  | exited (code : Int)
  | killed (signal : Signal)
  deriving DecidableEq

def Ending.status : Ending → WaitStatus
  | .exited code => .exited code
  | .killed signal => .signaled signal

structure Kernel where
  pipes : Pipes
  alive : Side → Bool
  /-- How the child has ended, once it has. -/
  ending : Option Ending
  reaped : Bool
  /-- A stop or continuation of the child that has not been reported. -/
  change : Option WaitStatus
  /-- SIGCHLD is blocked in the parent, and one is pending there. -/
  blocked : Bool
  pending : Bool
  /-- The child's death signal is set, and a SIGKILL is pending for it. -/
  armed : Bool
  doomed : Bool

namespace Kernel

def forked (blocked : Bool) : Kernel where
  pipes := .fresh
  alive _ := true
  ending := none
  reaped := false
  change := none
  blocked := blocked
  pending := false
  armed := false
  doomed := false

/-- SIGCHLD reaches the parent: it stays pending where it is blocked and is lost otherwise. -/
def raiseChld (k : Kernel) : Kernel := { k with pending := k.pending || k.blocked }

variable (supervisor : Pid)

/-- What a call of one side may be answered, where that is not free. The supervisor's
pid is what `getppid` gives while it lives. -/
def Permits (s : Side) (k : Kernel) : (event : Call) → Answer event → Prop
  | .write (.pipe (.status sender) .write) bytes,.ok count =>
    k.pipes.holds s sender .write = true ∧ count ≤ bytes.length ∧ k.pipes.open? sender .read = true
  | .read (.pipe (.status sender) .read) _,.ok [] =>
    k.pipes.holds s sender .read = true ∧ k.pipes.buffer sender = [] ∧ k.pipes.open? sender .write = false
  | .read (.pipe (.status sender) .read) count,.ok bytes =>
    k.pipes.holds s sender .read = true ∧ bytes <+: k.pipes.buffer sender ∧ bytes.length ≤ count
  | .waitpid _,result => s = .parent → match result with
    | .ok .stillAlive => k.ending = none ∧ k.change = none
    | .ok (.exited code) => k.ending = some (.exited code) ∧ k.reaped = false
    | .ok (.signaled signal) => k.ending = some (.killed signal) ∧ k.reaped = false
    | .ok status => k.change = some status
    | .error .echild => k.reaped = true
    | .error _ => True
  | .readSignal _,result => s = .parent → match result with
    | .ok none => k.pending = false
    | .ok (some number) => number = Signal.sigchld.number → k.pending = true
    | .error _ => True
  | .getppid,answer => s = .child → (answer = supervisor ↔ k.alive .parent = true)
  | .raise .sigkill,answer => answer = .ok ()
  | _,_ => True

def after (s : Side) (k : Kernel) : (event : Call) → Answer event → Kernel
  | .write (.pipe (.status sender) .write) bytes,.ok count =>
    { k with pipes := k.pipes.push sender (bytes.take count) }
  | .read (.pipe (.status sender) .read) _,.ok bytes => { k with pipes := k.pipes.pull sender bytes.length }
  | .close (.pipe (.status sender) half),_ => { k with pipes := k.pipes.close s sender half }
  | .waitpid _,.ok (.exited _) | .waitpid _,.ok (.signaled _) =>
    if s = .parent then { k with reaped := true } else k
  | .waitpid _,.ok (.stopped _) | .waitpid _,.ok .continued =>
    if s = .parent then { k with change := none } else k
  | .readSignal _,.ok (some number) =>
    if s = .parent then { k with pending := k.pending && number ≠ Signal.sigchld.number } else k
  | .sigmask .block signals,.ok _ =>
    if s = .parent then { k with blocked := k.blocked || signals.contains .sigchld } else k
  | .sigmask .setMask signals,.ok _ =>
    if s = .parent then
      { k with blocked := signals.contains .sigchld,pending := k.pending && signals.contains .sigchld }
    else k
  | .setParentDeathSignal signal,.ok () => if s = .child then { k with armed := signal = .sigkill } else k
  | .raise .sigkill,_ => if s = .child then { k with doomed := true } else k
  | _,_ => k

def changesCredentials : Call → Bool
  | .setgroups _ | .initgroups _ _ | .setresgid _ _ _ | .setresuid _ _ _ => true
  | _ => false

def step (s : Side) (k : Kernel) (event : Call) (answer : Answer event) (k' : Kernel) : Prop :=
  k.alive s = true ∧ k.Permits supervisor s event answer ∧
    (k' = k.after s event answer ∨
      (s = .child ∧ changesCredentials event = true ∧ k' = { k.after s event answer with armed := false }))

/-- The parent is gone, by a signal or by its own exit; a death signal that is set fires. -/
def parentDies (k : Kernel) : Kernel :=
  { k with
    pipes := k.pipes.release .parent
    alive := fun s => k.alive s && s ≠ .parent
    doomed := k.doomed || k.armed }

def childEnds (ending : Ending) (k : Kernel) : Kernel :=
  { k.raiseChld with
    pipes := k.pipes.release .child
    alive := fun s => k.alive s && s ≠ .child
    ending := some ending }

def childChanges (status : WaitStatus) (k : Kernel) : Kernel := { k.raiseChld with change := some status }

/-- What happens without a call of either side. -/
inductive Happens : Kernel → Kernel → Prop
  | parentDies {k : Kernel} (alive : k.alive .parent = true) : Happens k k.parentDies
  | childEnds {k : Kernel} (ending : Ending) (alive : k.alive .child = true) : Happens k (k.childEnds ending)
  | childStops {k : Kernel} (signal : Signal) (alive : k.alive .child = true) :
      Happens k (k.childChanges (.stopped signal))
  | childContinues {k : Kernel} (alive : k.alive .child = true) : Happens k (k.childChanges .continued)

def system : Environment Call Answer Kernel where
  left := step supervisor .parent
  right := step supervisor .child
  event := Happens

/-! Concrete runs. -/

instance (s : Side) (k : Kernel) (event : Call) (answer : Answer event) :
    Decidable (k.Permits supervisor s event answer) := by
  unfold Permits
  split <;> (try split) <;> infer_instance

inductive Occurrence
  | parentDies | childEnds (ending : Ending) | childStops (signal : Signal) | childContinues

def occur (k : Kernel) : Occurrence → Option Kernel
  | .parentDies => if k.alive .parent then some k.parentDies else none
  | .childEnds ending => if k.alive .child then some (k.childEnds ending) else none
  | .childStops signal => if k.alive .child then some (k.childChanges (.stopped signal)) else none
  | .childContinues => if k.alive .child then some (k.childChanges .continued) else none

def perform (s : Side) (k : Kernel) (event : Call) (answer : Answer event) : Option Kernel :=
  if k.alive s = true ∧ k.Permits supervisor s event answer then some (k.after s event answer) else none

theorem perform_sound {supervisor : Pid} {s : Side} {k k' : Kernel} {event : Call} {answer : Answer event}
    (performed : perform supervisor s k event answer = some k') : step supervisor s k event answer k' := by
  unfold perform at performed
  split at performed
  · next allowed =>
    cases performed
    exact ⟨allowed.1,allowed.2,.inl rfl⟩
  · contradiction

theorem occur_sound {k k' : Kernel} {v : Occurrence} (occurred : occur k v = some k') : Happens k k' := by
  cases v with
  | parentDies =>
    simp only [occur,Option.ite_none_right_eq_some,Option.some.injEq] at occurred
    exact occurred.2 ▸ .parentDies occurred.1
  | childEnds ending =>
    simp only [occur,Option.ite_none_right_eq_some,Option.some.injEq] at occurred
    exact occurred.2 ▸ .childEnds ending occurred.1
  | childStops signal =>
    simp only [occur,Option.ite_none_right_eq_some,Option.some.injEq] at occurred
    exact occurred.2 ▸ .childStops signal occurred.1
  | childContinues =>
    simp only [occur,Option.ite_none_right_eq_some,Option.some.injEq] at occurred
    exact occurred.2 ▸ .childContinues occurred.1

/-- Runs of the two processes in which no credential change clears the death signal. -/
def player : Player (system supervisor) Occurrence where
  left := perform supervisor .parent
  right := perform supervisor .child
  event := occur
  left_sound := perform_sound
  right_sound := perform_sound
  event_sound := occur_sound

/-! What calls and events leave alone. -/

section frame
variable {supervisor : Pid} {s : Side} {k k' : Kernel} {event : Call} {answer : Answer event}

def onStatus : Call → Bool
  | .write (.pipe (.status _) _) _ | .read (.pipe (.status _) _) _ | .close (.pipe (.status _) _) => true
  | _ => false

@[simp] theorem after_alive : (k.after s event answer).alive = k.alive := by
  unfold after
  split <;> (try split) <;> rfl

@[simp] theorem after_ending : (k.after s event answer).ending = k.ending := by
  unfold after
  split <;> (try split) <;> rfl

theorem after_pipes (other : onStatus event = false) : (k.after s event answer).pipes = k.pipes := by
  unfold after
  split <;> (try split) <;> first | rfl | simp [onStatus] at other

theorem after_signals (child : s = .child) : (k.after s event answer).blocked = k.blocked ∧
    (k.after s event answer).pending = k.pending ∧ (k.after s event answer).reaped = k.reaped := by
  subst child
  unfold after
  split <;> (try split) <;> first | exact ⟨rfl,rfl,rfl⟩ | contradiction

theorem after_death (parent : s = .parent) :
    (k.after s event answer).armed = k.armed ∧ (k.after s event answer).doomed = k.doomed := by
  subst parent
  unfold after
  split <;> (try split) <;> first | exact ⟨rfl,rfl⟩ | contradiction

/-- What a side keeps of its descriptors, and of what it knows, while the others move. -/
structure Frame (s : Side) (k k' : Kernel) : Prop where
  own : k'.alive s = true → ∀ sender half, k'.pipes.holds s sender half = k.pipes.holds s sender half
  less : ∀ q sender half, k'.pipes.holds q sender half = true → k.pipes.holds q sender half = true
  alive : ∀ q, k'.alive q = true → k.alive q = true

theorem step_alive (taken : step supervisor s k event answer k') : k'.alive = k.alive := by
  rcases taken.2.2 with rfl | ⟨_,_,rfl⟩ <;> simp

theorem step_ending (taken : step supervisor s k event answer k') : k'.ending = k.ending := by
  rcases taken.2.2 with rfl | ⟨_,_,rfl⟩ <;> simp

theorem step_pipes (taken : step supervisor s k event answer k') :
    k'.pipes = (k.after s event answer).pipes := by
  rcases taken.2.2 with rfl | ⟨_,_,rfl⟩ <;> rfl

theorem step_moves (taken : step supervisor s k event answer k') : k.pipes.Moves s k'.pipes := by
  rw [step_pipes taken]
  obtain ⟨_,permits,-⟩ := taken
  unfold after
  split
  · obtain ⟨held,_,read⟩ := permits
    exact .push _ _ held read
  · next bytes =>
    cases bytes with
    | nil | cons => exact .pull _ _ permits.1
  · exact .close _ _
  all_goals (try split) <;> exact .stay

theorem step_frame (taken : step supervisor s k event answer k') {q : Side} (other : q ≠ s) : Frame q k k' where
  own _ sender half := (step_moves taken).other other
  less q sender half := (step_moves taken).less
  alive q := by simp [step_alive taken]

theorem happens_frame (happened : Happens k k') (q : Side) : Frame q k k' := by
  cases happened with
  | parentDies =>
    refine ⟨fun lives sender half => ?_,fun q sender half held => ?_,fun q lives => ?_⟩
    · have other : q ≠ .parent := by simpa using (Bool.and_eq_true_iff.mp lives).2
      simp [parentDies,Pipes.release,other]
    · exact (Bool.and_eq_true_iff.mp held).1
    · exact (Bool.and_eq_true_iff.mp lives).1
  | childEnds ending =>
    refine ⟨fun lives sender half => ?_,fun q sender half held => ?_,fun q lives => ?_⟩
    · have other : q ≠ .child := by simpa using (Bool.and_eq_true_iff.mp lives).2
      simp [childEnds,Pipes.release,other]
    · exact (Bool.and_eq_true_iff.mp held).1
    · exact (Bool.and_eq_true_iff.mp lives).1
  | childStops _ | childContinues => exact ⟨fun _ _ _ => rfl,fun _ _ _ held => held,fun _ held => held⟩

theorem after_reaped (unreaped : k.reaped = false) (permits : k.Permits supervisor s event answer)
    (reaped : (k.after s event answer).reaped = true) : k.ending.isSome = true := by
  unfold after at reaped
  split at reaped
  case h_4 =>
    split at reaped
    · next parent => rw [(permits parent).1]; rfl
    · rw [unreaped] at reaped; cases reaped
  case h_5 =>
    split at reaped
    · next parent => rw [(permits parent).1]; rfl
    · rw [unreaped] at reaped; cases reaped
  all_goals (try split at reaped) <;> (change k.reaped = true at reaped; rw [unreaped] at reaped; cases reaped)

/-- A process that is gone holds nothing, the child is gone exactly when it has ended,
only a child that has ended is reaped, and what a pipe holds was the last to be sent. -/
structure WellFormed (k : Kernel) : Prop where
  gone : ∀ s, k.alive s = false → ∀ sender half, k.pipes.holds s sender half = false
  ended : k.alive .child = false ↔ k.ending.isSome = true
  reaped : k.reaped = true → k.ending.isSome = true
  buffered : ∀ sender, k.pipes.buffer sender <:+ k.pipes.sent sender

theorem WellFormed.step (wf : k.WellFormed) (taken : step supervisor s k event answer k') : k'.WellFormed := by
  refine ⟨fun q gone sender half => ?_,?_,fun reaped => ?_,(step_moves taken).buffered wf.buffered⟩
  · rw [step_alive taken] at gone
    have before := wf.gone q gone sender half
    rw [Bool.eq_false_iff] at before ⊢
    exact fun held => before ((step_moves taken).less held)
  · rw [step_alive taken,step_ending taken]
    exact wf.ended
  · rw [step_ending taken]
    cases before : k.reaped with
    | true => exact wf.reaped before
    | false =>
      refine after_reaped before taken.2.1 ?_
      obtain ⟨_,_,rfl | ⟨_,_,rfl⟩⟩ := taken <;> exact reaped

theorem WellFormed.happens (wf : k.WellFormed) (happened : Happens k k') : k'.WellFormed := by
  refine ⟨fun q gone sender half => ?_,?_,?_,?_⟩
  · cases happened with
    | parentDies =>
      cases q with
      | parent => simp [parentDies,Pipes.release]
      | child =>
        have before := wf.gone .child (by simpa [parentDies] using gone) sender half
        simp [parentDies,Pipes.release,before]
    | childEnds ending =>
      cases q with
      | parent =>
        have before := wf.gone .parent (by simpa [childEnds] using gone) sender half
        simp [childEnds,Pipes.release,before]
      | child => simp [childEnds,Pipes.release]
    | childStops _ | childContinues => exact wf.gone q gone sender half
  · cases happened with
    | parentDies => simpa [parentDies] using wf.ended
    | childEnds ending => simp [childEnds]
    | childStops _ | childContinues => exact wf.ended
  · cases happened with
    | childEnds ending => exact fun _ => rfl
    | _ => exact wf.reaped
  · cases happened <;> exact wf.buffered

theorem wellFormed_forked (blocked : Bool) : (forked blocked).WellFormed :=
  ⟨by simp [forked],by simp [forked],by simp [forked],fun _ => List.suffix_rfl⟩

end frame

end Kernel

end Runas
