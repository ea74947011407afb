import Runas.Passwd
import Runas.Interaction.Rounds
import Mathlib.Data.List.Nodup

/-! The askpass helper as the parent can see it: what the helper writes and when, its stops and
its end, and the signals, which are one for several changes. All of it goes on while the
parent makes its calls. -/
namespace Runas
open Interaction Text

/-- What goes on beside the parent: the helper writes, its output is closed, it is stopped,
continued or exits, or a signal for the parent comes, a SIGCHLD of another child among them. -/
inductive Happening
  | write (bytes : Bytes)
  | close
  | stop (signal : Signal)
  | resume
  | exit (code : Int)
  | signal (signal : Signal)
  deriving DecidableEq

/-- What `waitpid` has to tell of the helper: nothing, its last change, its end, or that there
is no such child any more. -/
inductive HelperStatus
  | settled
  | stopped (signal : Signal)
  | continued
  | zombie (code : Int)
  | reaped
  deriving DecidableEq

def HelperStatus.ended : HelperStatus → Bool
  | .zombie _ | .reaped => true
  | _ => false

/-- The state of the kernel about the helper: what is still to happen, what is in the pipe, the
pending signals of the parent, whether these are blocked and whether the parent has read the
end of the output. `spoiled` is set when the parent looks at its signals and one is overdue. -/
structure HelperRun where
  script : List Happening
  pipe : Bytes
  closed : Bool
  status : HelperStatus
  pending : List Signal
  blocked : Bool
  eof : Bool
  spoiled : Bool
  deriving DecidableEq

def written : List Happening → Bytes
  | [] => []
  | .write bytes :: rest => bytes ++ written rest
  | _ :: rest => written rest

/-- What a helper can do that exits with the code: nothing is written once the output is closed,
nothing changes once it has exited, and both come in the end. Signals come at any time. -/
def proper (code : Int) : Bool → Bool → List Happening → Bool
  | closed,ended,[] => closed && ended
  | closed,ended,.write _ :: rest => !closed && proper code closed ended rest
  | closed,ended,.close :: rest => !closed && proper code true ended rest
  | closed,ended,.stop _ :: rest => !ended && proper code closed ended rest
  | closed,ended,.resume :: rest => !ended && proper code closed ended rest
  | closed,ended,.exit other :: rest => !ended && other = code && proper code closed true rest
  | closed,ended,.signal _ :: rest => proper code closed ended rest

/-- The helper is never stopped, and no SIGCHLD comes but the one of its exit. -/
def exitOnly : List Happening → Bool
  | [] => true
  | .stop _ :: _ | .resume :: _ => false
  | .signal signal :: rest => signal != .sigchld && exitOnly rest
  | _ :: rest => exitOnly rest

namespace HelperRun

/-- A run of the helper before any of it has happened. -/
def start (script : List Happening) (blocked : Bool) : HelperRun :=
  ⟨script,[],false,.settled,[],blocked,false,false⟩

def happen (k : HelperRun) : Happening → HelperRun
  | .write bytes => { k with pipe := k.pipe ++ bytes }
  | .close => { k with closed := true }
  | .stop signal => { k with status := .stopped signal,pending := k.pending.insert .sigchld }
  | .resume => { k with status := .continued,pending := k.pending.insert .sigchld }
  | .exit code => { k with status := .zombie code,pending := k.pending.insert .sigchld }
  | .signal signal => { k with pending := k.pending.insert signal }

/-- Some of what is to happen has happened. Signals count from when they are blocked. -/
inductive Later : HelperRun → HelperRun → Prop
  | now (k : HelperRun) : Later k k
  | next {k k' : HelperRun} {happening : Happening} {rest : List Happening} (blocked : k.blocked = true)
      (script : k.script = happening :: rest) (later : Later ({ k with script := rest }.happen happening) k') : Later k k'

/-- The exit has been taken and there is output left to read, but first a SIGCHLD is to be served. -/
def overdue (k : HelperRun) : Bool := k.status = .reaped && !k.eof && k.pending.contains .sigchld

/-- The parent looks at its signals. -/
def look (k : HelperRun) : HelperRun := { k with spoiled := k.spoiled || k.overdue }

/-- It reads one of them. -/
def serve (k : HelperRun) (signal : Signal) : HelperRun := { k.look with pending := k.pending.erase signal }

/-- A read of the output does not wait. -/
def readable (k : HelperRun) : Bool := !k.pipe.isEmpty || k.closed

def Polled (k : HelperRun) (fds : List (Option Fd)) (events : Fin fds.length → Option PollFlags) : Prop :=
  ∀ i,(fds.get i = some .signal → events i = some ⟨!k.pending.isEmpty,false,false,false⟩) ∧
    (fds.get i = some (.pipe .passwd .read) → ∃ flags,events i = some flags ∧
      (flags.pollin || flags.pollhup) = k.readable ∧ flags.pollerr = false ∧ flags.pollnval = false)

theorem polls (m : HelperRun) (fds : List (Option Fd)) : m.Polled fds fun i =>
    some ⟨if fds.get i = some .signal then !m.pending.isEmpty else m.readable,false,false,false⟩ := by
  intro i
  constructor
  · intro interrupts
    simp only [interrupts,if_true]
  · intro reads
    have other : fds.get i ≠ some .signal := by
      rw [reads]
      simp
    exact ⟨_,rfl,by simp only [if_neg other,Bool.or_false],rfl,rfl⟩

/-- The answers of the kernel to the parent, with the state after each. A `poll` waits for a signal
or for the output, a read of the output gives some of what is in the pipe or its end, and
`waitpid` tells a change once. -/
def answers (child : Pid) (k : HelperRun) : (event : Call) → Answer event → HelperRun → Prop
  | .fork,answer,k' => answer = .ok (.parent child) ∧ k' = k
  | .sigmask how _,answer,k' => (∃ mask,answer = .ok mask) ∧ k' = { k with blocked := decide (how = .block) }
  | .signalfd _,answer,k' => answer = .ok () ∧ k' = k
  | .pipe _ _,answer,k' => answer = .ok () ∧ k' = k
  | .close _,answer,k' => answer = .ok () ∧ k' = k
  | .setpgid _ _,answer,k' => answer = .ok () ∧ k' = k
  | .write _ bytes,answer,k' => answer = .ok bytes.length ∧ k' = k
  | .poll fds,answer,k' => ((∃ events,answer = .ok events ∧ k.Polled fds events) ∧
      (k.pending ≠ [] ∨ some (.pipe .passwd .read) ∈ fds ∧ k.readable = true)) ∧ k' = k.look
  | .read fd count,answer,k' =>
    if fd = .pipe .passwd .read then ∃ bytes rest,answer = .ok bytes ∧ k.pipe = bytes ++ rest ∧ bytes.length ≤ count ∧
      (bytes = [] → k.pipe = [] ∧ k.closed = true) ∧ k' = { k with pipe := rest,eof := k.eof || bytes.isEmpty }
    else answer = .ok [statusReady] ∧ k' = k
  | .readSignal _,answer,k' => (∃ signal ∈ k.pending,answer = .ok (some signal.number) ∧
      k' = k.serve signal) ∨ k.pending = [] ∧ answer = .ok none ∧ k' = k
  | .waitpid _,answer,k' => match k.status with
    | .settled => answer = .ok .stillAlive ∧ k' = k
    | .stopped signal => answer = .ok (.stopped signal) ∧ k' = { k with status := .settled }
    | .continued => answer = .ok .continued ∧ k' = { k with status := .settled }
    | .zombie code => answer = .ok (.exited code) ∧ k' = { k with status := .reaped }
    | .reaped => answer = .error .echild ∧ k' = k
  | _,_,k' => k' = k

end HelperRun

/-- Things go on before each call of the parent. -/
def helperKernel (child : Pid) (k : HelperRun) (event : Call) (answer : Answer event) (k' : HelperRun) : Prop :=
  ∃ m,k.Later m ∧ m.answers child event answer k'

namespace HelperRun

theorem Later.keeps {P : HelperRun → Prop}
    (each : ∀ k happening rest,P k → k.script = happening :: rest → P ({ k with script := rest }.happen happening))
    {k k' : HelperRun} (later : k.Later k') (holds : P k) : P k' := by
  induction later with
  | now k => exact holds
  | next blocked script later ih => exact ih (each _ _ _ holds script)

section happen
variable (k : HelperRun) (happening : Happening)

@[simp] theorem script_happen : (k.happen happening).script = k.script := by cases happening <;> rfl

@[simp] theorem blocked_happen : (k.happen happening).blocked = k.blocked := by cases happening <;> rfl

@[simp] theorem eof_happen : (k.happen happening).eof = k.eof := by cases happening <;> rfl

@[simp] theorem spoiled_happen : (k.happen happening).spoiled = k.spoiled := by cases happening <;> rfl

@[simp] theorem status_look : k.look.status = k.status := rfl

@[simp] theorem eof_look : k.look.eof = k.eof := rfl

@[simp] theorem status_serve (signal : Signal) : (k.serve signal).status = k.status := rfl

@[simp] theorem eof_serve (signal : Signal) : (k.serve signal).eof = k.eof := rfl

end happen

theorem Later.exhaust {k : HelperRun} (blocked : k.blocked = true) : ∃ k',k.Later k' ∧ k'.script = [] := by
  generalize script : k.script = happenings
  induction happenings generalizing k with
  | nil => exact ⟨k,.now k,script⟩
  | cons happening rest ih =>
    obtain ⟨k',later,done⟩ := @ih ({ k with script := rest }.happen happening) (by simp [blocked]) (by simp)
    exact ⟨k',.next blocked script later,done⟩

/-- The work that is left at most: what can be read, signals and changes, and what leads to them. -/
def cost : Happening → Nat
  | .write bytes => bytes.length
  | .close => 0
  | .stop _ | .resume => 3
  | .exit _ | .signal _ => 2

def news : HelperStatus → Nat
  | .stopped _ | .continued => 1
  | _ => 0

def weight (k : HelperRun) : Nat :=
  (k.script.map cost).sum + k.pipe.length + 2*k.pending.length + news k.status + (!k.eof).toNat

theorem Later.weight_le {k k' : HelperRun} (later : k.Later k') : k'.weight ≤ k.weight := by
  induction later with
  | now k => exact le_rfl
  | @next k k' happening rest blocked script later ih =>
    refine ih.trans ?_
    have inserts (signal : Signal) : (k.pending.insert signal).length ≤ k.pending.length + 1 := by
      rw [List.length_insert]
      split <;> omega
    unfold weight
    rw [script]
    cases happening with
    | write bytes =>
      simp only [happen,List.map_cons,List.sum_cons,cost,List.length_append]
      omega
    | close =>
      simp only [happen,List.map_cons,List.sum_cons,cost]
      omega
    | stop _ | resume | exit _ =>
      have one := inserts .sigchld
      simp only [happen,List.map_cons,List.sum_cons,cost,news]
      omega
    | signal signal =>
      have one := inserts signal
      simp only [happen,List.map_cons,List.sum_cons,cost]
      omega

/-- What holds of every run of a helper that exits with the code and writes `w`, of which the
parent has read `got`. -/
structure Going (code : Int) (w got : Bytes) (k : HelperRun) : Prop where
  blocked : k.blocked = true
  whole : got ++ k.pipe ++ written k.script = w
  proper : proper code k.closed k.status.ended k.script = true
  exits : ∀ other,k.status = .zombie other → other = code
  nodup : k.pending.Nodup
  ended : k.eof = true → k.closed = true ∧ k.pipe = []

/-- At the head of a round an exit that is not taken yet is announced, and where a signal was
overdue it still is. In a calm run nothing but the exit is announced. -/
structure Head (calm : Prop) (code : Int) (w got : Bytes) (k : HelperRun) : Prop extends Going code w got k where
  announced : ∀ other,k.status = .zombie other → .sigchld ∈ k.pending
  misled : k.spoiled = true → k.overdue = true
  undisturbed : calm → exitOnly k.script = true ∧ (k.status.ended = false → k.status = .settled) ∧
    (.sigchld ∈ k.pending → ∃ other,k.status = .zombie other)

/-- Between the SIGCHLD and what `waitpid` tells then. -/
structure Reaping (calm : Prop) (code : Int) (w got : Bytes) (k : HelperRun) : Prop extends Going code w got k where
  present : k.status ≠ .reaped
  clean : k.spoiled = false
  undisturbed : calm → exitOnly k.script = true ∧ k.status.ended = true ∧ .sigchld ∉ k.pending

theorem overdue_iff {k : HelperRun} : k.overdue = true ↔ k.status = .reaped ∧ k.eof = false ∧ .sigchld ∈ k.pending := by
  simp [overdue,and_assoc]

private theorem not_reaped {status : HelperStatus} (alive : status.ended = false) : status ≠ .reaped := by
  rintro rfl
  cases alive

theorem Going.later {code : Int} {w got : Bytes} {k k' : HelperRun} (going : Going code w got k) (later : k.Later k') :
    Going code w got k' := by
  refine later.keeps (fun k happening rest held script => ?_) going
  obtain ⟨blocked,whole,fits,exits,nodup,ended⟩ := held
  rw [script] at whole fits
  cases happening with
  | write bytes =>
    simp only [HelperStatus.ended,Runas.proper,Bool.and_eq_true,Bool.not_eq_true'] at fits
    refine ⟨blocked,?_,fits.2,exits,nodup,fun read => ?_⟩
    · rw [← whole]
      simp [happen,written]
    · rw [(ended read).1] at fits
      cases fits.1
  | close =>
    simp only [Runas.proper,Bool.and_eq_true,Bool.not_eq_true'] at fits
    exact ⟨blocked,whole,fits.2,exits,nodup,fun read => ⟨rfl,(ended read).2⟩⟩
  | stop _ | resume =>
    simp only [Runas.proper,Bool.and_eq_true,Bool.not_eq_true'] at fits
    obtain ⟨alive,fits⟩ := fits
    rw [alive] at fits
    exact ⟨blocked,whole,fits,by simp [happen],nodup.insert,ended⟩
  | exit other =>
    simp only [Runas.proper,Bool.and_eq_true,Bool.not_eq_true',decide_eq_true_eq] at fits
    obtain ⟨⟨_,same⟩,fits⟩ := fits
    refine ⟨blocked,whole,fits,?_,nodup.insert,ended⟩
    rintro _ ⟨⟩
    exact same
  | signal signal => exact ⟨blocked,whole,fits,exits,nodup.insert,ended⟩

/-- What goes on does not take the end of the helper, and reads nothing. -/
theorem Later.taken {code : Int} {w got : Bytes} {k k' : HelperRun} (later : k.Later k') (going : Going code w got k) :
    (k'.status = .reaped ↔ k.status = .reaped) ∧ k'.eof = k.eof ∧ k'.spoiled = k.spoiled := by
  induction later with
  | now k => exact ⟨Iff.rfl,rfl,rfl⟩
  | @next k k' happening rest blocked script later ih =>
    have fits := going.proper
    obtain ⟨reaped,eof,spoiled⟩ := ih (going.later (.next blocked script (.now _)))
    rw [script] at fits
    rw [reaped,eof,spoiled,eof_happen,spoiled_happen]
    refine ⟨?_,rfl,rfl⟩
    cases happening with
    | write _ | close | signal _ => exact Iff.rfl
    | stop _ | resume =>
      simp only [Runas.proper,Bool.and_eq_true,Bool.not_eq_true'] at fits
      simp [happen,not_reaped fits.1]
    | exit other =>
      simp only [Runas.proper,Bool.and_eq_true,Bool.not_eq_true'] at fits
      simp [happen,not_reaped fits.1.1]

theorem Head.later {calm : Prop} {code : Int} {w got : Bytes} {k k' : HelperRun} (head : Head calm code w got k)
    (later : k.Later k') : Head calm code w got k' := by
  refine later.keeps (fun k happening rest held script => ?_) head
  obtain ⟨going,announced,misled,undisturbed⟩ := held
  have next : k.Later ({ k with script := rest }.happen happening) := .next going.blocked script (.now _)
  have after := going.later next
  obtain ⟨reaped,eof,spoiled⟩ := next.taken going
  rw [script] at undisturbed
  have overdue (grows : .sigchld ∈ k.pending → .sigchld ∈ ({ k with script := rest }.happen happening).pending)
      (past : ({ k with script := rest }.happen happening).spoiled = true) :
      ({ k with script := rest }.happen happening).overdue = true := by
    obtain ⟨ended,open',inside⟩ := overdue_iff.mp (misled (spoiled.symm.trans past))
    exact overdue_iff.mpr ⟨reaped.mpr ended,eof.trans open',grows inside⟩
  cases happening with
  | write _ | close => exact ⟨after,announced,misled,undisturbed⟩
  | stop _ | resume =>
    refine ⟨after,by simp [happen],overdue List.mem_insert_of_mem,fun still => ?_⟩
    cases (undisturbed still).1
  | exit other =>
    refine ⟨after,fun _ _ => List.mem_insert_self,overdue List.mem_insert_of_mem,fun still => ?_⟩
    exact ⟨(undisturbed still).1,nofun,fun _ => ⟨other,rfl⟩⟩
  | signal signal =>
    refine ⟨after,fun other zombie => List.mem_insert_of_mem (announced other zombie),overdue List.mem_insert_of_mem,
      fun still => ?_⟩
    obtain ⟨only,quiet,exit⟩ := undisturbed still
    simp only [exitOnly,Bool.and_eq_true,bne_iff_ne] at only
    exact ⟨only.2,quiet,fun inside => exit (by simpa [happen,List.mem_insert_iff,only.1.symm] using inside)⟩

theorem Reaping.later {calm : Prop} {code : Int} {w got : Bytes} {k k' : HelperRun} (reaping : Reaping calm code w got k)
    (later : k.Later k') : Reaping calm code w got k' := by
  refine later.keeps (fun k happening rest held script => ?_) reaping
  obtain ⟨going,present,clean,undisturbed⟩ := held
  have next : k.Later ({ k with script := rest }.happen happening) := .next going.blocked script (.now _)
  obtain ⟨reaped,_,spoiled⟩ := next.taken going
  refine ⟨going.later next,fun past => present (reaped.mp past),spoiled.trans clean,fun still => ?_⟩
  obtain ⟨only,ended,none⟩ := undisturbed still
  have fits := going.proper
  rw [script] at only fits
  cases happening with
  | write _ | close => exact ⟨only,ended,none⟩
  | stop _ | resume => cases only
  | exit other => simp [Runas.proper,ended] at fits
  | signal signal =>
    simp only [exitOnly,Bool.and_eq_true,bne_iff_ne] at only
    exact ⟨only.2,ended,by simpa [happen,List.mem_insert_iff,only.1.symm] using none⟩

theorem Head.start {code : Int} {script : List Happening} (fits : Runas.proper code false false script = true) :
    Head (exitOnly script = true) code (written script) [] (start script true) :=
  ⟨⟨rfl,rfl,fits,by simp [HelperRun.start],List.nodup_nil,by simp [HelperRun.start]⟩,by simp [HelperRun.start],
    by simp [HelperRun.start],fun still => ⟨still,fun _ => rfl,by simp [HelperRun.start]⟩⟩

section calls
variable {calm : Prop} {code : Int} {w got : Bytes} {k : HelperRun}

/-- In a calm run no signal is overdue. -/
theorem Head.timely (head : Head calm code w got k) (still : calm) : k.overdue = false := by
  rw [Bool.eq_false_iff]
  intro late
  obtain ⟨reaped,_,inside⟩ := overdue_iff.mp late
  obtain ⟨other,zombie⟩ := (head.undisturbed still).2.2 inside
  rw [reaped] at zombie
  cases zombie

theorem Head.look (head : Head calm code w got k) : Head calm code w got k.look := by
  refine ⟨⟨head.blocked,head.whole,head.proper,head.exits,head.nodup,head.ended⟩,head.announced,fun spoiled => ?_,head.undisturbed⟩
  exact (Bool.or_eq_true_iff.mp spoiled).elim head.misled id

/-- A read of the output where there is something, or its end. -/
theorem Head.read (head : Head calm code w got k) (still : k.eof = false) (clean : k.spoiled = false) {bytes rest : Bytes}
    (split : k.pipe = bytes ++ rest) (ended : bytes = [] → k.pipe = [] ∧ k.closed = true) :
    Head calm code w (got ++ bytes) { k with pipe := rest,eof := k.eof || bytes.isEmpty } ∧
      weight { k with pipe := rest,eof := k.eof || bytes.isEmpty } < k.weight := by
  obtain ⟨⟨blocked,whole,proper,exits,nodup,_⟩,announced,_,undisturbed⟩ := head
  refine ⟨⟨⟨blocked,?_,proper,exits,nodup,?_⟩,announced,fun spoiled => ?_,undisturbed⟩,?_⟩
  · rw [← whole,split]
    simp
  · intro past
    rw [still,Bool.false_or,List.isEmpty_iff] at past
    obtain ⟨empty,closed⟩ := ended past
    rw [split,past,List.nil_append] at empty
    exact ⟨closed,empty⟩
  · exact absurd (clean.symm.trans spoiled) Bool.false_ne_true
  · simp only [weight,still,split,List.length_append]
    cases bytes <;> simp

theorem serve_weight {signal : Signal} (inside : signal ∈ k.pending) :
    (k.serve signal).weight < k.weight := by
  have fewer := List.length_erase_of_mem inside
  have pos := List.length_pos_of_mem inside
  simp only [weight,serve,look,fewer]
  omega

theorem Going.serve (going : Going code w got k) (signal : Signal) : Going code w got (k.serve signal) :=
  ⟨going.blocked,going.whole,going.proper,going.exits,going.nodup.erase signal,going.ended⟩

theorem Head.forwarded (head : Head calm code w got k) {signal : Signal} (other : signal ≠ .sigchld) :
    Head calm code w got (k.serve signal) := by
  have stays : .sigchld ∈ k.pending.erase signal ↔ .sigchld ∈ k.pending := List.mem_erase_of_ne other.symm
  refine ⟨head.toGoing.serve signal,fun code zombie => stays.mpr (head.announced code zombie),fun spoiled => ?_,fun still => ?_⟩
  · obtain ⟨reaped,open',inside⟩ := overdue_iff.mp (head.look.misled spoiled)
    exact overdue_iff.mpr ⟨reaped,open',stays.mpr inside⟩
  · obtain ⟨only,quiet,exit⟩ := head.undisturbed still
    exact ⟨only,quiet,fun inside => exit (stays.mp inside)⟩

/-- The SIGCHLD has been read, and `waitpid` is to follow. -/
theorem Head.served (head : Head calm code w got k) (inside : .sigchld ∈ k.pending) (present : k.status ≠ .reaped) :
    Reaping calm code w got (k.serve .sigchld) := by
  refine ⟨head.toGoing.serve .sigchld,present,?_,fun still => ?_⟩
  · rw [Bool.eq_false_iff]
    exact fun spoiled => present (overdue_iff.mp (head.look.misled spoiled)).1
  · obtain ⟨only,_,exit⟩ := head.undisturbed still
    obtain ⟨other,zombie⟩ := exit inside
    exact ⟨only,by rw [status_serve,zombie]; rfl,head.nodup.not_mem_erase⟩

theorem Reaping.settled (reaping : Reaping calm code w got k) (status : k.status = .settled) : Head calm code w got k := by
  refine ⟨reaping.toGoing,by simp [status],by simp [reaping.clean],fun still => ?_⟩
  have past := (reaping.undisturbed still).2.1
  simp [status,HelperStatus.ended] at past

/-- A stop or a continuation is told, and that was all of it. -/
theorem Reaping.told (reaping : Reaping calm code w got k) (told : news k.status = 1) :
    Reaping calm code w got { k with status := .settled } ∧ weight { k with status := .settled } < k.weight := by
  obtain ⟨⟨blocked,whole,proper,exits,nodup,ended⟩,present,clean,undisturbed⟩ := reaping
  have alive : k.status.ended = false := by
    cases status : k.status <;> simp_all [news,HelperStatus.ended]
  rw [alive] at proper undisturbed
  refine ⟨⟨⟨blocked,whole,proper,by simp,nodup,ended⟩,by simp,clean,fun still => ?_⟩,?_⟩
  · cases (undisturbed still).2.1
  · simp only [weight,told]
    simp [news]

/-- The exit is taken, and a SIGCHLD may be pending once more. -/
theorem Reaping.exit (reaping : Reaping calm code w got k) (zombie : k.status = .zombie code) :
    Head calm code w got { k with status := .reaped } := by
  obtain ⟨⟨blocked,whole,proper,exits,nodup,ended⟩,_,clean,undisturbed⟩ := reaping
  rw [zombie] at proper
  refine ⟨⟨blocked,whole,proper,by simp,nodup,ended⟩,by simp,by simp [clean],fun still => ?_⟩
  obtain ⟨only,_,none⟩ := undisturbed still
  exact ⟨only,by simp [HelperStatus.ended],fun inside => absurd inside none⟩

end calls

end HelperRun

/-- What the loop has got in a state of the helper: as much of the output as it takes, whether
there was more, and the status once it is taken. -/
def HelperState.of (prompt : Prompt) (code : Int) (got : Bytes) (k : HelperRun) : HelperState where
  prompt := { prompt with inputEof := k.eof }
  buffer := got.take (maxInputLen + 1)
  overflow := decide (maxInputLen + 1 < got.length)
  childStatus := if k.status = .reaped then some code else none

/-- A chunk that is taken in is the next part of the output, wherever it is cut. -/
theorem HelperState.of_accept (prompt : Prompt) (code : Int) (got chunk : Bytes) {k k' : HelperRun}
    (same : k'.status = .reaped ↔ k.status = .reaped) :
    HelperState.accept { HelperState.of prompt code got k with prompt := { prompt with inputEof := k'.eof } } chunk =
      HelperState.of prompt code (got ++ chunk) k' := by
  have room : maxInputLen + 1 - (got.take (maxInputLen + 1)).length = maxInputLen + 1 - got.length := by
    rw [List.length_take]
    omega
  simp only [HelperState.accept,HelperState.of,HelperState.mk.injEq,true_and,room,same,and_true]
  constructor
  · rw [List.take_append,Nat.min_comm,← List.take_eq_take_min]
  · rw [Bool.eq_iff_iff]
    simp only [Bool.or_eq_true,decide_eq_true_eq,bne_iff_ne,List.length_append]
    omega

end Runas
