import Runas.Session
import Runas.Phases

/-! The supervisor at its station: before the child is told to go on, the signals are
received, SIGTTOU is ignored and the child leads a group of its own, and as long as
the event loop does not fail all of it stays until the child has ended. -/
namespace Runas
open Interaction Text

/-- What the supervisor has set up so far. -/
structure Station where
  /-- The received signals are blocked, and read from a signalfd. -/
  blocks : Bool
  receives : Bool
  /-- A change of the terminal does not stop the supervisor. -/
  ignores : Bool
  /-- The child leads a process group of its own. -/
  grouped : Bool
  deriving DecidableEq

namespace Station

def bare : Station := ⟨false,false,false,false⟩

def manned : Station := ⟨true,true,true,true⟩

variable (child : Pid)

def after (st : Station) : (event : Call) → Answer event → Station
  | .sigmask .block signals,.ok _ => if signals = receivedSignals then { st with blocks := true } else st
  | .sigmask .setMask _,_ => { st with blocks := false }
  | .signalfd signals,.ok () => if signals = receivedSignals then { st with receives := true } else st
  | .close .signal,_ => { st with receives := false }
  | .sigaction .sigttou handler,.ok _ => { st with ignores := handler = .ignore }
  | .setpgid pid group,.ok () => if pid = child ∧ group = child then { st with grouped := true } else st
  | _,_ => st

/-- A call that gives up a part of the station. -/
def undoes : Call → Bool
  | .sigmask .setMask _ | .close .signal => true
  | .sigaction .sigttou handler => handler ≠ .ignore
  | _ => false

theorem after_manned {child : Pid} {event : Call} (stays : undoes event = false) (answer : Answer event) :
    manned.after child event answer = manned := by
  unfold after
  split <;> (try split) <;> first | rfl | simp_all [undoes,manned]

end Station

/-! The calls of the supervisor from the barrier on, by themselves. -/

section
variable {child : Pid}

/-- The setting of a supervisor at its station that gives up no part of it. -/
private def standing (child : Pid) : Setting Call Answer Station :=
  alone (tracks (Station.after child)) fun st event => Station.undoes event = false ∧ st = .manned

private theorem standing_only {α : Type} {p : Calls α} {Q : α → Prop} (known : p.Only (fun event =>
    Station.undoes event = false) Q) : (standing child).Safe p (fun value st => Q value ∧ st = .manned) .manned := by
  refine Setting.Safe.only known (stable_alone _) rfl (fun _ _ there stays => ⟨stays,there⟩) ?_
  rintro st event answer _ rfl stays rfl
  exact Station.after_manned stays answer

/-- Neither the barrier nor the event loop gives up a part of the station. -/
private theorem standing_supervise {pid : Pid} {signals : SignalReceiver} {handler : ForegroundHandler} {st : Station}
    (there : st = .manned) : (standing child).Safe (do
      ignoring (ForkEndpoint.mk ForkSync.fresh.parentWrite ForkSync.fresh.parentRead false).readyAndWait
      watch pid signals handler : M Int).run (fun _ st => st = .manned) st := by
  subst there
  have stays (topics : List Topic) (others : .pipes ∉ topics ∧ .signals ∉ topics) (event : Call)
      (about : About topics event) : Station.undoes event = false := by
    cases event <;> first | rfl | exact absurd about others.1 | exact absurd about others.2
  have loops : Fallible.Uses (fun event => Station.undoes event = false) (watch pid signals handler) :=
    uses_watch rfl ((uses_transferToParent handler).mono (stays _ (by decide)))
      ((uses_transferToChild handler).mono (stays _ (by decide))) (fun _ => rfl) rfl (fun _ => rfl)
      (within_receiverWait rfl rfl)
  have ready : Program.Only (fun event => Station.undoes event = false) (ForkEndpoint.mk ForkSync.fresh.parentWrite
      ForkSync.fresh.parentRead false).readyAndWait.run fun _ => True := only_readyAndWait rfl rfl rfl rfl
  refine Fallible.safe_lift (.bind ((standing_only ready).mono fun _ _ there => .done_alone ?_))
  obtain ⟨_,rfl⟩ := there
  exact (standing_only loops.only).mono fun _ _ there => there.2

/-- The environment that keeps the station up to date. -/
private def stationing (child : Pid) : Setting Call Answer Station := alone (tracks (Station.after child)) fun _ _ => True

private theorem bare_drop {fd : Option Fd} (other : fd ≠ some .signal) {st : Station} (bare : st = .bare) :
    (stationing child).Safe (Descriptor.drop fd) (fun _ st => st = .bare) st := by
  cases fd with
  | none => exact .done_alone bare
  | some fd =>
    refine .call_alone trivial fun answer st' taken => .done_alone ?_
    rw [(taken : st' = _)]
    cases fd <;> first | exact bare | exact absurd rfl other

private def whenSetUp : Except Error (SignalReceiver × ForegroundHandler) → Station → Prop
  | .ok _ => fun st => st = .manned
  | .error _ => fun _ => True

private theorem manned_group {signals : SignalReceiver} (handler : ForegroundHandler) {st : Station}
    (rest : st = ⟨true,true,true,false⟩) : (stationing child).Safe (Fallible.releasingOnError handler.drop (do
      orFail (← ask (.setpgid child child))
      return (signals,handler) : M (SignalReceiver × ForegroundHandler))).run (fun
        | .ok installed => whenSetUp (.ok installed)
        | .error error => (stationing child).Safe signals.drop fun _ => whenSetUp (.error error)) st := by
  refine Fallible.safe_releasingOnError (fun _ => stable_alone _) (.call_alone trivial fun answer st' taken => ?_)
  rcases answer with error | _
  · exact .done_alone ((Setting.Safe.free fun _ _ => trivial).mono fun _ _ _ => .free fun _ _ => trivial)
  · refine .done_alone ?_
    change st' = .manned
    rw [(taken : st' = _),rest]
    simp [Station.after,Station.manned]

/-- What is set up before the barrier is the whole station. -/
private theorem manned_install : (stationing child).Safe (watchInstall child).run whenSetUp .bare := by
  refine Fallible.safe_bind_alone (.call_alone trivial fun answer st taken => ?_)
  rcases answer with error | previous
  · exact .done_alone trivial
  cases taken
  refine .call_alone trivial fun answer st taken => ?_
  rcases answer with error | _
  · exact .call_alone trivial fun _ _ _ => .done_alone trivial
  cases taken
  refine .done_alone (Fallible.safe_releasingOnError (fun _ => stable_alone _) ?_)
  refine Fallible.safe_bind_alone (.call_alone trivial fun answer st taken => ?_)
  rcases answer with error | old
  · exact .done_alone (.free fun _ _ => trivial)
  have set : st = ⟨true,true,true,false⟩ := by
    rw [(taken : st = _)]
    simp [Station.after,Station.bare]
  refine .call_alone trivial fun answer st' same => ?_
  replace set : st' = ⟨true,true,true,false⟩ := Eq.trans same set
  rcases answer with error | original
  · refine .done_alone ((manned_group _ set).mono fun result _ reached => ?_)
    cases result <;> exact reached
  refine .call_alone trivial fun answer st'' same => ?_
  replace set : st'' = ⟨true,true,true,false⟩ := Eq.trans same set
  rcases answer with error | _
  all_goals
    refine .done_alone ((manned_group _ set).mono fun result _ reached => ?_)
    cases result <;> exact reached

end

/-- The kernel, and beside it the supervisor's station. -/
structure Post where
  kernel : Kernel
  station : Station

namespace Post

def environment (supervisor child : Pid) : Environment Call Answer Post where
  left m event answer m' := (Kernel.steady supervisor).left m.kernel event answer m'.kernel ∧
    m'.station = m.station.after child event answer
  right m event answer m' := (Kernel.steady supervisor).right m.kernel event answer m'.kernel ∧ m'.station = m.station
  event m m' := Kernel.Happens m.kernel m'.kernel ∧ m'.station = m.station

/-- As long as nothing is settled the supervisor tells the child only from its station, and
gives up a part of it only where the child has not been told. -/
def Guarded (m : Post) (event : Call) : Prop :=
  m.kernel.Settled ∨ ((Station.undoes event = true → m.kernel.pipes.sent .parent = []) ∧
    ((∃ bytes,event = .write (.pipe (.status .parent) .write) bytes) → m.station = .manned))

/-- The parent at its station, beside a child that follows it. -/
def manning (supervisor child : Pid) : Setting Call Answer Post :=
  (environment supervisor child).leftSetting Guarded fun m => Kernel.Follows m.kernel

section
variable {supervisor child : Pid} {α : Type} {p : Calls α} {m : Post}

private theorem rely_kernel {m m' : Post} (moved : (manning supervisor child).rely m m') :
    (Kernel.keeper supervisor).rely m.kernel m'.kernel := by
  rcases moved with happened | ⟨event,answer,follows,taken⟩
  · exact .inl happened.1
  · exact .inr ⟨event,answer,follows,taken.1⟩

private theorem rely_station {m m' : Post} (moved : (manning supervisor child).rely m m') : m'.station = m.station := by
  rcases moved with happened | ⟨_,_,_,taken⟩
  · exact happened.2
  · exact taken.2

private theorem stable_kernel {P : Kernel → Prop} (stable : (Kernel.keeper supervisor).Stable P) :
    (manning supervisor child).Stable fun m => P m.kernel :=
  fun _ _ holds moved => stable _ _ holds (rely_kernel moved)

/-- What is shown of the kernel and what is shown of the calls is true together. -/
private theorem manning_both {P : α → Kernel → Prop} {Q : α → Post → Prop}
    (known : (Kernel.keeper supervisor).Safe p P m.kernel) (calls : (manning supervisor child).Safe p Q m) :
    (manning supervisor child).Safe p (fun value m => P value m.kernel ∧ Q value m) m := by
  have seen : (Setting.mk (manning supervisor child).step (manning supervisor child).rely fun m =>
      (Kernel.keeper supervisor).guard m.kernel).Safe p (fun value m => P value m.kernel) m :=
    Setting.Safe.seen Post.kernel known (fun _ _ _ _ taken => taken.1) (fun _ _ moved => rely_kernel moved)
      fun _ _ guarded => guarded
  exact Setting.Safe.under (Setting.Safe.both seen calls) (fun _ _ _ _ taken => taken) (fun _ _ moved => moved)
    fun _ _ guarded => guarded.2

/-- What is shown of the supervisor's calls by themselves, among all the others. -/
private theorem manning_alone {guard : Station → Call → Prop} {Q : α → Station → Prop}
    (calls : (alone (tracks (Station.after child)) guard).Safe p Q m.station) :
    (Setting.mk (manning supervisor child).step (manning supervisor child).rely fun m => guard m.station).Safe p
      (fun value m => Q value m.station) m :=
  Setting.Safe.seen Post.station calls (fun _ _ _ _ taken => taken.2) (fun _ _ moved => rely_station moved)
    fun _ _ guarded => guarded

private theorem manning_settled (p : Calls α) (settled : m.kernel.Settled) :
    (manning supervisor child).Safe p (fun _ m => m.kernel.Settled) m := by
  refine Setting.Safe.uses (P := fun m : Post => m.kernel.Settled) (.any p) (stable_kernel settled_keeper) settled ?_ ?_
  · exact fun m event settled _ => .inl settled
  · exact fun m event answer m' settled _ taken => settled.parent taken.1.1

private theorem manning_unsent (used : p.Uses fun event => isPlain event = true) (unsent : Unsent m.kernel) :
    (manning supervisor child).Safe p (fun _ m => Unsent m.kernel) m := by
  refine Setting.Safe.uses (P := fun m : Post => Unsent m.kernel) used (stable_kernel unsent_keeper) unsent ?_ ?_
  · intro m event unsent plain
    refine .inr ⟨fun _ => unsent.2,?_⟩
    rintro ⟨bytes,rfl⟩
    cases plain
  · exact fun m event answer m' unsent plain taken => unsent.call plain taken.1.1

private theorem manning_watchProcess (unsent : Unsent m.kernel) (bare : m.station = .bare) :
    (manning supervisor child).Safe (watchProcess child ⟨ForkSync.fresh.parentWrite,ForkSync.fresh.parentRead,false⟩).run
      (fun _ m => m.kernel.Settled) m := by
  have plain (event : Call) (about : About watchTopics event) : isPlain event = true :=
    about_isPlain (by decide) (by decide) (by decide) about
  have settles : (manning supervisor child).Stable fun m => m.kernel.Settled := stable_kernel settled_keeper
  refine Fallible.safe_bind (fun _ => settles) (Fallible.safe_releasingOnError ?_ ?_)
  · rintro (error | installed)
    · exact settles
    · exact Setting.Safe.stable _ _
  have installs : (manning supervisor child).Safe (watchInstall child).run (fun result m =>
      whenSetUp result m.station ∧ Unsent m.kernel) m :=
    .under (.both (manning_alone (bare ▸ manned_install))
      (manning_unsent (uses_watchInstall plain (fun _ => rfl) child) unsent)) (fun _ _ _ _ taken => taken)
      (fun _ _ moved => moved) fun _ _ guarded => guarded.2
  refine installs.mono fun result m reached => ?_
  obtain ⟨set,unsent⟩ := reached
  cases result with
  | error error =>
    have drops : (manning supervisor child).Safe (ForkEndpoint.mk ForkSync.fresh.parentWrite ForkSync.fresh.parentRead
        false).drop (fun _ m => Unsent m.kernel) m :=
      manning_unsent (Program.Uses.bind (plain_drop _) fun _ => plain_drop _) unsent
    exact (manning_both (keeper_dropUnsent unsent) drops).mono fun _ _ reached => reached.1
  | ok installed =>
    obtain ⟨signals,handler⟩ := installed
    refine Fallible.safe_releasing (fun _ => settles) ?_
    have stands : (manning supervisor child).Safe (do
        ignoring (ForkEndpoint.mk ForkSync.fresh.parentWrite ForkSync.fresh.parentRead false).readyAndWait
        watch child signals handler : M Int).run (fun _ m => m.station = .manned) m := by
      refine Setting.Safe.under (manning_alone (standing_supervise set)) (fun _ _ _ _ taken => taken)
        (fun _ _ moved => moved) ?_
      exact fun m event guarded => .inr ⟨fun undone => absurd undone (by simp [guarded.1]),fun _ => guarded.2⟩
    refine (manning_both (keeper_supervise unsent.1) stands).mono fun _ m reached => manning_settled _ reached.1

private theorem manning_supervisorSide {run : Invocation} {prepared : Prepared} {handle : PamHandle}
    (unsent : Unsent m.kernel) (bare : m.station = .bare) :
    (manning supervisor child).Safe (supervisorSide run prepared handle child).run (fun _ _ => True) m := by
  have drops {fd : Option Fd} (other : fd ≠ some .signal) {m : Post} (unsent : Unsent m.kernel) (bare : m.station = .bare) :
      (manning supervisor child).Safe (Descriptor.drop fd) (fun _ m => m.station = .bare ∧ Unsent m.kernel) m := by
    exact .under (.both (manning_alone (bare_drop other bare)) (manning_unsent (plain_drop _) unsent))
      (fun _ _ _ _ taken => taken) (fun _ _ moved => moved) fun _ _ guarded => guarded.2
  unfold supervisorSide authParent
  simp only [bind_assoc]
  refine Fallible.safe_lift (.bind ((drops (by simp [ForkSync.fresh]) unsent bare).mono fun _ m reached => ?_))
  refine .bind ((drops (by simp [ForkSync.fresh]) reached.2 reached.1).mono fun _ m reached => ?_)
  refine .done (Setting.Safe.stable _ _) ?_
  refine Fallible.safe_lift ((manning_watchProcess reached.2 reached.1).mono fun result m settled => ?_)
  exact (manning_settled _ settled).mono fun _ _ _ => trivial

end

/-- A child that has been told anything and has not ended has its supervisor at its station. -/
def Stationed (m : Post) : Prop := m.kernel.pipes.sent .parent ≠ [] → m.kernel.ending = none → m.station = .manned

section
variable {supervisor child : Pid} {m m' : Post} {event : Call} {answer : Answer event}

private theorem sent_parent {k k' : Kernel} (taken : Kernel.step supervisor .parent k event answer k')
    (other : ∀ bytes,event ≠ .write (.pipe (.status .parent) .write) bytes) :
    k'.pipes.sent .parent = k.pipes.sent .parent := by
  rw [Kernel.step_pipes taken]
  unfold Kernel.after
  split
  · next sender bytes count =>
    cases sender with
    | parent => exact absurd rfl (other bytes)
    | child => simp [Pipes.push]
  · rfl
  · rfl
  all_goals (try split) <;> rfl

theorem Stationed.left (stationed : m.Stationed) (guarded : m.Guarded event)
    (taken : (environment supervisor child).left m event answer m') : m'.Stationed := by
  obtain ⟨⟨taken,_⟩,set⟩ := taken
  intro told lives
  rw [Kernel.step_ending taken] at lives
  rcases guarded with (ended | untold) | ⟨undone,told'⟩
  · rw [lives] at ended
    cases ended
  · exact absurd (untold.parent taken).1 told
  · have there : Station.undoes event = false ∧ m.station = .manned := by
      by_cases tells : ∃ bytes,event = .write (.pipe (.status .parent) .write) bytes
      · refine ⟨?_,told' tells⟩
        obtain ⟨bytes,rfl⟩ := tells
        rfl
      · have before : m.kernel.pipes.sent .parent ≠ [] := by
          rw [← sent_parent taken fun bytes same => tells ⟨bytes,same⟩]
          exact told
        exact ⟨Bool.eq_false_iff.mpr fun undoes => before (undone undoes),stationed before lives⟩
    rw [set,there.2]
    exact Station.after_manned there.1 answer

theorem Stationed.right (stationed : m.Stationed) (follows : m.kernel.Follows event)
    (taken : (environment supervisor child).right m event answer m') : m'.Stationed := by
  obtain ⟨taken,same⟩ := taken
  intro told lives
  rw [Kernel.follows_unsent follows taken] at told
  rw [Kernel.step_ending taken] at lives
  rw [same]
  exact stationed told lives

theorem Stationed.happens (stationed : m.Stationed) (happened : (environment supervisor child).event m m') :
    m'.Stationed := by
  obtain ⟨happened,same⟩ := happened
  intro told lives
  rw [same]
  refine stationed ?_ ?_
  all_goals generalize m'.kernel = k at *
  · cases happened <;> exact told
  · cases happened with
    | childEnds ending => cases lives
    | _ => exact lives

end

def supervised (run : Invocation) (prepared : Prepared) (pamEnv : EnvMap) (handle : PamHandle) (child : Pid)
    (blocked : Bool) : Config Call Answer (Except Error Unit) (Except Error Unit) Post :=
  ⟨supervisorSide run prepared handle child,commandSide run prepared pamEnv,⟨.forked blocked,.bare⟩⟩

end Post

/-- The command comes to exec only when it has been told to go on, and from then until it
has ended the supervisor is at its station, where the event loop does not fail. -/
theorem command_stationed (supervisor : Pid) (blocked : Bool) (run : Invocation) (build : run.build.supervised = true)
    (prepared : Prepared) (pamEnv : EnvMap) (handle : PamHandle) (child : Pid)
    {c : Config Call Answer (Except Error Unit) (Except Error Unit) Post}
    (reached : (Post.environment supervisor child).Reaches (Post.supervised run prepared pamEnv handle child blocked) c) :
    c.state.Stationed ∧ ∀ event, c.right.pending = some event → isExec event = true → Informed c.state.kernel := by
  have wf := Kernel.wellFormed_forked blocked
  have keeps : (Post.manning supervisor child).Safe (supervisorSide run prepared handle child).run (fun _ _ => True)
      ⟨.forked blocked,.bare⟩ := Post.manning_supervisorSide ⟨wf,rfl⟩ rfl
  have follows : ((Post.environment supervisor child).rightSetting (fun m => Kernel.Follows m.kernel) Post.Guarded).Safe
      (commandSide run prepared pamEnv).run (fun _ _ => True) ⟨.forked blocked,.bare⟩ := by
    have follower : (Kernel.follower supervisor).Safe (commandSide run prepared pamEnv).run (fun _ _ => True)
        (Post.kernel ⟨.forked blocked,.bare⟩) := follower_commandSide build prepared pamEnv wf
    refine Setting.Safe.seen Post.kernel follower (fun _ _ _ _ taken => taken.1) ?_ fun _ _ guarded => guarded
    rintro m m' (happened | ⟨event,answer,_,taken⟩)
    · exact .inl happened.1
    · exact .inr ⟨event,answer,trivial,taken.1.1⟩
  refine ⟨?_,fun event pending replaces => ?_⟩
  · refine reached.guarded (fun _ _ _ _ stationed guarded taken => stationed.left guarded taken)
      (fun _ _ _ _ stationed follows taken => stationed.right follows taken)
      (fun _ _ stationed happened => stationed.happens happened) keeps follows ?_
    exact fun told => absurd rfl told
  · have guarded := (reached.safe keeps follows).2.pending pending
    cases event with
    | execve _ _ _ | execvp _ _ | execv _ _ => exact guarded.2 rfl
    | _ => cases replaces

private def postPlayer (supervisor child : Pid) : Player (Post.environment supervisor child) Kernel.Occurrence where
  left m event answer := ((steadyPlayer supervisor).left m.kernel event answer).map fun k =>
    ⟨k,m.station.after child event answer⟩
  right m event answer := ((steadyPlayer supervisor).right m.kernel event answer).map fun k => ⟨k,m.station⟩
  event m occurrence := ((steadyPlayer supervisor).event m.kernel occurrence).map fun k => ⟨k,m.station⟩
  left_sound := by
    intro m event answer m' performed
    obtain ⟨k,known,rfl⟩ := Option.map_eq_some_iff.mp performed
    exact ⟨(steadyPlayer supervisor).left_sound known,rfl⟩
  right_sound := by
    intro m event answer m' performed
    obtain ⟨k,known,rfl⟩ := Option.map_eq_some_iff.mp performed
    exact ⟨(steadyPlayer supervisor).right_sound known,rfl⟩
  event_sound := by
    intro m occurrence m' occurred
    obtain ⟨k,known,rfl⟩ := Option.map_eq_some_iff.mp occurred
    exact ⟨(steadyPlayer supervisor).event_sound known,rfl⟩

/-- Root's command is about to be executed. -/
theorem command_stationed_root : ∃ (c : Config Call Answer (Except Error Unit) (Except Error Unit) Post) (event : Call),
    c.right.pending = some event ∧ isExec event = true ∧ c.state.station = .manned := by
  have played : ∃ (c : Config Call Answer (Except Error Unit) (Except Error Unit) Post) (event : Call),
      play (postPlayer 7 42) 10 (Post.supervised supervisedRun preparedId ∅ ⟨.none,0,true⟩ 42 false)
        (setUp ++ passBarrier ++ prepareExec ++ becomeRoot 7) = some c ∧
      c.right.pending = some event ∧ isExec event = true ∧ c.state.kernel.ending = none := ⟨_,_,rfl,rfl,rfl,rfl⟩
  obtain ⟨c,event,played,pending,replaces,lives⟩ := played
  obtain ⟨stationed,told⟩ := command_stationed 7 false supervisedRun rfl preparedId ∅ ⟨.none,0,true⟩ 42 (play_sound _ _ played)
  exact ⟨c,event,pending,replaces,stationed (told event pending replaces).unsilent lives⟩

end Runas
