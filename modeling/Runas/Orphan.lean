import Runas.Command

/-! No command without its supervisor: wherever the supervisor dies, the child only
reaches exec while it lives with the death signal armed, or with a SIGKILL pending. -/
namespace Runas
open Interaction Text

namespace Kernel

/-- The supervisor lives and its death will kill the child, or the kill is under way. -/
def Covered (k : Kernel) : Prop := (k.alive .parent = true ∧ k.armed = true) ∨ k.doomed = true

def touchesDeath : Call → Bool
  | .setParentDeathSignal _ => true
  | event => changesCredentials event

section
variable {supervisor : Pid} {s : Side} {k k' : Kernel} {event : Call} {answer : Answer event}

theorem step_armed (other : touchesDeath event = false) (taken : step supervisor s k event answer k') :
    k'.armed = k.armed := by
  have same : (k.after s event answer).armed = k.armed := by
    unfold after
    split <;> (try split) <;> first | rfl | simp [touchesDeath] at other
  obtain ⟨_,_,rfl | ⟨_,changes,_⟩⟩ := taken
  · exact same
  · have plain : changesCredentials event = false := by
      cases event <;> first | rfl | simp [touchesDeath,changesCredentials] at other
    rw [plain] at changes
    cases changes

theorem step_doomed (taken : step supervisor s k event answer k') (doomed : k.doomed = true) : k'.doomed = true := by
  have kept : (k.after s event answer).doomed = true := by
    unfold after
    split <;> (try split) <;> first | exact doomed | rfl
  obtain ⟨_,_,rfl | ⟨_,_,rfl⟩⟩ := taken
  · exact kept
  · exact kept

theorem parent_death (taken : step supervisor .parent k event answer k') :
    k'.armed = k.armed ∧ k'.doomed = k.doomed := by
  obtain ⟨_,_,rfl | ⟨parent,_⟩⟩ := taken
  · exact after_death rfl
  · cases parent

theorem happens_armed (happened : Happens k k') : k'.armed = k.armed := by
  cases happened <;> rfl

theorem happens_doomed (happened : Happens k k') (doomed : k.doomed = true) : k'.doomed = true := by
  cases happened with
  | parentDies => simp [parentDies,doomed]
  | _ => exact doomed

theorem Covered.happens (covered : k.Covered) (happened : Happens k k') : k'.Covered := by
  rcases covered with ⟨lives,armed⟩ | doomed
  · cases happened with
    | parentDies => exact .inr (by simp [parentDies,armed])
    | childEnds ending => exact .inl ⟨by simp [childEnds,lives],armed⟩
    | childStops _ | childContinues => exact .inl ⟨lives,armed⟩
  · exact .inr (happens_doomed happened doomed)

def orphan (supervisor : Pid) : Setting Call Answer Kernel :=
  (system supervisor).rightSetting (fun k event => isExec event = true → k.Covered) fun _ _ => True

end

end Kernel

section
variable {supervisor : Pid}

def unlessFails {α : Type} (P : Kernel → Prop) : Except Error α → Kernel → Prop
  | .ok _ => P
  | .error _ => fun _ => True

theorem permits {P : Kernel → Prop} {event : Call} (other : isExec event = false) (k : Kernel) (_ : P k) :
    (Kernel.orphan supervisor).guard k event :=
  fun replaces => Bool.false_ne_true.elim (other.symm.trans replaces)

theorem stable_orphan {P : Kernel → Prop} (events : ∀ k k', P k → Kernel.Happens k k' → P k')
    (calls : ∀ k event answer k', P k → Kernel.step supervisor .parent k event answer k' → P k') :
    (Kernel.orphan supervisor).Stable P := by
  intro k k' holds moved
  rcases moved with happened | ⟨event,answer,_,taken⟩
  · exact events k k' holds happened
  · exact calls k event answer k' holds taken

theorem stable_covered : (Kernel.orphan supervisor).Stable Kernel.Covered := by
  refine stable_orphan (fun _ _ covered happened => covered.happens happened) fun k event answer k' covered taken => ?_
  obtain ⟨armed,doomed⟩ := Kernel.parent_death taken
  rw [Kernel.Covered,armed,doomed,Kernel.step_alive taken]
  exact covered

private theorem stable_doomed : (Kernel.orphan supervisor).Stable fun k => k.doomed = true :=
  stable_orphan (fun _ _ doomed happened => Kernel.happens_doomed happened doomed)
    fun _ _ _ _ doomed taken => Kernel.step_doomed taken doomed

/-- The child has let go of the read end of its own pipe: only the parent can still
read from it. -/
def Barred (k : Kernel) : Prop := k.WellFormed ∧ k.pipes.holds .child .child .read = false

theorem Barred.call {s : Side} {k k' : Kernel} {event : Call} {answer : Answer event} (barred : Barred k)
    (taken : Kernel.step supervisor s k event answer k') : Barred k' := by
  refine ⟨barred.1.step taken,?_⟩
  have shut := barred.2
  rw [Bool.eq_false_iff] at shut ⊢
  exact fun held => shut ((Kernel.step_moves taken).less held)

theorem Barred.happens {k k' : Kernel} (barred : Barred k) (happened : Kernel.Happens k k') : Barred k' := by
  refine ⟨barred.1.happens happened,?_⟩
  have shut := barred.2
  rw [Bool.eq_false_iff] at shut ⊢
  exact fun held => shut ((Kernel.happens_frame happened .child).less _ _ _ held)

theorem stable_barred : (Kernel.orphan supervisor).Stable Barred :=
  stable_orphan (fun _ _ barred happened => barred.happens happened) fun _ _ _ _ barred taken => barred.call taken

/-- The death signal is set as well, for whatever parent there is now. -/
def Armed (k : Kernel) : Prop := Barred k ∧ k.armed = true

theorem stable_armed : (Kernel.orphan supervisor).Stable Armed := by
  refine stable_orphan (fun k k' armed happened => ?_) fun k event answer k' armed taken => ?_
  · exact ⟨armed.1.happens happened,(Kernel.happens_armed happened).trans armed.2⟩
  · exact ⟨armed.1.call taken,(Kernel.parent_death taken).1.trans armed.2⟩

theorem safe_plain {α : Type} {p : Calls α} (used : p.Uses fun event => isExec event = false) (k : Kernel) :
    (Kernel.orphan supervisor).Safe p (fun _ _ => True) k := by
  refine Setting.Safe.uses used Setting.Stable.true trivial ?_ fun _ _ _ _ _ _ _ => trivial
  intro k event _ plain is
  rw [plain] at is
  cases is

theorem safe_covered {α : Type} {p : Calls α} (used : p.Uses fun event => Kernel.touchesDeath event = false)
    {k : Kernel} (covered : k.Covered) : (Kernel.orphan supervisor).Safe p (fun _ => Kernel.Covered) k := by
  refine Setting.Safe.uses used stable_covered covered (fun _ _ covered _ _ => covered) ?_
  intro k event answer k' covered quiet taken
  rcases covered with ⟨lives,armed⟩ | doomed
  · exact .inl ⟨by rw [Kernel.step_alive taken]; exact lives,(Kernel.step_armed quiet taken).trans armed⟩
  · exact .inr (Kernel.step_doomed taken doomed)

theorem about_plain {topics : List Topic} (others : .replace ∉ topics) {event : Call}
    (about : About topics event) : isExec event = false := by
  cases event <;> first | rfl | exact absurd about others

theorem about_quiet {topics : List Topic} (noProcess : .process ∉ topics) (noIdentity : .identity ∉ topics)
    {event : Call} (about : About topics event) : Kernel.touchesDeath event = false := by
  cases event <;> first | rfl | exact absurd about noProcess | exact absurd about noIdentity

/-- A byte that is written is one the parent can still read, so it lives. -/
private theorem orphan_writeByte {k : Kernel} {value : UInt8} (armed : Armed k) :
    (Kernel.orphan supervisor).Safe (Descriptor.writeByte (.pipe (.status .child) .write) value).run (unlessFails Kernel.Covered) k := by
  refine Fallible.safe_iterate (I := fun _ => Armed) (fun _ => stable_armed) ?_ armed ?_
  · rintro (error | ⟨⟩)
    · exact Setting.Stable.true
    · exact stable_covered
  intro _ k armed
  refine .call stable_armed armed (permits rfl) fun k answer k' armed taken => ?_
  have stays : Armed k' := ⟨armed.1.call taken,(Kernel.step_armed rfl taken).trans armed.2⟩
  cases answer with
  | error error => cases error with
    | eintr => exact .done stable_armed stays
    | _ => exact .done Setting.Stable.true trivial
  | ok count =>
    have covered : k'.Covered := by
      obtain ⟨_,_,reads⟩ := taken.2.1
      refine .inl ⟨?_,stays.2⟩
      rw [Kernel.step_alive taken]
      by_contra gone
      have held := armed.1.1.gone .parent (by simpa using gone) .child .read
      rw [Pipes.open?,held,armed.1.2] at reads
      cases reads
    rcases count with _ | _ | count
    · exact .done Setting.Stable.true trivial
    · exact .done stable_covered covered
    · exact .done Setting.Stable.true trivial

theorem orphan_drop (endpoint : ForkEndpoint) (k : Kernel) :
    (Kernel.orphan supervisor).Safe endpoint.drop (fun _ _ => True) k :=
  safe_plain ((uses_endpointDrop endpoint).mono fun _ about => about_plain (by decide) about) k

/-- The conversion leaves the parent as the only reader. -/
private theorem orphan_intoChild {k : Kernel} (wf : k.WellFormed) :
    (Kernel.orphan supervisor).Safe ForkSync.fresh.intoChild (fun endpoint k =>
      endpoint = ⟨ForkSync.fresh.childWrite,ForkSync.fresh.childRead,false⟩ ∧ Barred k) k := by
  refine .call (stable_orphan (fun _ _ wf happened => wf.happens happened)
    fun _ _ _ _ wf taken => wf.step taken) wf (permits rfl) fun k answer k' wf taken => ?_
  have barred : Barred k' := by
    refine ⟨wf.step taken,?_⟩
    rw [Kernel.step_pipes taken]
    simp [Kernel.after,Pipes.close]
  refine .call stable_barred barred (permits rfl) fun k answer k' barred taken => ?_
  exact .done (fun k k' held moved => ⟨held.1,stable_barred k k' held.2 moved⟩) ⟨rfl,barred.call taken⟩

/-- The death signal is set before the barrier. -/
private theorem orphan_setup {k : Kernel} (barred : Barred k) : (Kernel.orphan supervisor).Safe (do
    setParentExitSignal .sigkill
    orFail (← ask (.setpgid 0 0)) : M Unit).run (unlessFails Armed) k := by
  refine .call stable_barred barred (permits rfl) fun k answer k' barred taken => ?_
  cases answer with
  | error error => exact .done Setting.Stable.true trivial
  | ok =>
    have armed : Armed k' := by
      refine ⟨barred.call taken,?_⟩
      obtain ⟨_,_,rfl | ⟨_,changes,_⟩⟩ := taken
      · rfl
      · cases changes
    refine .call stable_armed armed (permits rfl) fun k answer k' armed taken => ?_
    have stays : Armed k' := ⟨armed.1.call taken,(Kernel.step_armed rfl taken).trans armed.2⟩
    cases answer with
    | error error => exact .done Setting.Stable.true trivial
    | ok => exact .done stable_armed stays

theorem orphan_readyAndWait {k : Kernel} (armed : Armed k) :
    (Kernel.orphan supervisor).Safe (ForkEndpoint.mk ForkSync.fresh.childWrite
      ForkSync.fresh.childRead false).readyAndWait.run (unlessFails Kernel.Covered) k := by
  have quiet (event : Call) (about : About [.pipes] event) : Kernel.touchesDeath event = false :=
    about_quiet (by decide) (by decide) about
  refine Fallible.safe_bind (fun _ => Setting.Stable.true) (Fallible.safe_releasingOnError ?_ ?_)
  · rintro (error | endpoint)
    · exact Setting.Stable.true
    · exact Setting.Safe.stable _ _
  refine Fallible.safe_bind (fun _ => Setting.Safe.stable _ _) ((orphan_writeByte armed).mono fun result k sent => ?_)
  cases result with
  | error error => exact orphan_drop _ k
  | ok =>
    refine Fallible.safe_lift ((safe_covered ((uses_descriptorDrop _).mono quiet) sent).mono fun _ k covered => ?_)
    refine .done (Setting.Safe.stable _ _) ?_
    refine (safe_covered (Fallible.Uses.bind (.releasingOnError ((uses_endpointDrop _).mono quiet)
      ((uses_awaitStatus _).mono quiet)) fun decision => .bind (.lift ((uses_descriptorDrop _).mono quiet))
        fun _ => .pure decision) covered).mono fun result k covered => ?_
    cases result with
    | error error => trivial
    | ok decision => exact covered

private theorem orphan_authChild {k : Kernel} (wf : k.WellFormed) (pamEnv : EnvMap) :
    (Kernel.orphan supervisor).Safe (authChild ForkSync.fresh pamEnv).run (unlessFails Kernel.Covered) k := by
  have fails (error : Error) : (Kernel.orphan supervisor).Stable
      (unlessFails Kernel.Covered (.error error : Except Error EnvMap)) := Setting.Stable.true
  refine Fallible.safe_lift ((orphan_intoChild wf).mono fun endpoint k converted => ?_)
  obtain ⟨rfl,barred⟩ := converted
  refine Fallible.safe_bind fails (Fallible.safe_releasingOnError ?_ ((orphan_setup barred).mono fun result k armed => ?_))
  · rintro (error | value)
    · exact Setting.Stable.true
    · exact Setting.Safe.stable _ _
  cases result with
  | error error => exact orphan_drop _ k
  | ok =>
    refine Fallible.safe_bind fails ((orphan_readyAndWait armed).mono fun result k covered => ?_)
    cases result with
    | error error => trivial
    | ok decision => cases decision with
      | abort => exact .done Setting.Stable.true trivial
      | «continue» => exact .done stable_covered covered

/-- The pid that was taken for the supervisor's is, or the child is doomed. -/
private def Watched (supervisor watched : Pid) (k : Kernel) : Prop := k.doomed = true ∨ watched = supervisor

private theorem stable_watched {watched : Pid} :
    (Kernel.orphan supervisor).Stable (Watched supervisor watched) := by
  intro k k' held moved
  exact held.imp_left fun doomed => stable_doomed k k' doomed moved

private theorem safe_watched {α : Type} {p : Calls α} {watched : Pid}
    (used : p.Uses fun event => isExec event = false) {k : Kernel} (held : Watched supervisor watched k) :
    (Kernel.orphan supervisor).Safe p (fun _ => Watched supervisor watched) k := by
  refine Setting.Safe.uses used stable_watched held ?_ ?_
  · intro k event _ plain is
    rw [plain] at is
    cases is
  · intro k event answer k' held _ taken
    exact held.imp_left (Kernel.step_doomed taken)

/-- The signal is set again, and the parent asked for again: it is the same, or the
child is made to end. -/
private theorem orphan_rearm {watched : Pid} {k : Kernel} (held : Watched supervisor watched k) :
    (Kernel.orphan supervisor).Safe (rearm watched).run (unlessFails Kernel.Covered) k := by
  unfold rearm setParentExitSignal
  simp only [bind_assoc]
  refine Fallible.safe_ask stable_watched held (permits rfl) fun k answer k' held taken => ?_
  cases answer with
  | error error => exact .done Setting.Stable.true trivial
  | ok =>
    have armed : k'.armed = true := by
      obtain ⟨_,_,rfl | ⟨_,changes,_⟩⟩ := taken
      · rfl
      · cases changes
    have again : Watched supervisor watched k' := held.imp_left (Kernel.step_doomed taken)
    have stable : (Kernel.orphan supervisor).Stable fun k => Watched supervisor watched k ∧ k.armed = true :=
      stable_watched.and (stable_orphan (fun _ _ armed happened => (Kernel.happens_armed happened).trans armed)
        fun _ _ _ _ armed taken => (Kernel.parent_death taken).1.trans armed)
    refine Fallible.safe_ask stable ⟨again,armed⟩ (permits rfl) fun k answer k' held taken => ?_
    obtain ⟨again,armed⟩ := held
    by_cases changed : answer ≠ watched
    · rw [if_pos changed]
      refine .call Setting.Stable.true trivial (permits rfl) fun k answer k' _ taken => ?_
      refine .done stable_covered (.inr ?_)
      obtain ⟨_,_,rfl | ⟨_,changes,_⟩⟩ := taken
      · rfl
      · cases changes
    · rw [if_neg changed]
      refine .done stable_covered ?_
      rcases again with doomed | same
      · exact .inr (Kernel.step_doomed taken doomed)
      · have lives : k.alive .parent = true := (taken.2.1 rfl).mp ((not_not.mp changed).trans same)
        exact .inl ⟨by rw [Kernel.step_alive taken]; exact lives,(Kernel.step_armed rfl taken).trans armed⟩

private theorem orphan_exec {build : Build} (supervised : build.supervised = true) {user target : Account}
    {cmd : CString} {argv envp : List CString} {cwd : Option String} {k : Kernel} (covered : k.Covered) :
    (Kernel.orphan supervisor).Safe (exec build user target cmd argv envp cwd).run (fun _ _ => True) k := by
  have scopex : build.backend = .scopex := by simpa using (Bool.and_eq_true_iff.mp supervised).1
  rw [exec_from,if_pos supervised]
  simp only [map_eq_pure_bind,bind_assoc,pure_bind]
  refine Fallible.safe_ask stable_covered covered (permits rfl) fun k watched k' covered taken => ?_
  have held : Watched supervisor watched k' := by
    rcases covered with ⟨lives,_⟩ | doomed
    · exact .inr ((taken.2.1 rfl).mpr lives)
    · exact .inl (Kernel.step_doomed taken doomed)
  unfold execFrom
  simp only [if_pos scopex]
  refine Fallible.safe_bind (Q := fun _ _ => True) (fun _ => Setting.Stable.true)
    ((safe_watched (uses_cleanEnvironment rfl (fun _ => rfl) rfl) held).mono ?_)
  intro result k held
  cases result with
  | error error => trivial
  | ok =>
    refine Fallible.safe_bind (Q := fun _ _ => True) (fun _ => Setting.Stable.true)
      ((safe_watched ((uses_setCredentials build user target).mono fun _ about => about_plain (by decide) about)
        held).mono ?_)
    intro result k held
    cases result with
    | error error => trivial
    | ok =>
      refine Fallible.safe_bind (Q := fun _ _ => True) (fun _ => Setting.Stable.true) ((orphan_rearm held).mono fun result k covered => ?_)
      cases result with
      | error error => trivial
      | ok =>
        refine (safe_covered ?_ covered).mono fun _ _ _ => trivial
        exact Fallible.Uses.bind (uses_setCwd (fun _ => rfl) cwd) fun _ =>
          uses_execvpe (fun _ _ => rfl) fun _ => rfl

private theorem orphan_commandSide {run : Invocation} (supervised : run.build.supervised = true)
    (prepared : Prepared) (pamEnv : EnvMap) {k : Kernel} (wf : k.WellFormed) :
    (Kernel.orphan supervisor).Safe (commandSide run prepared pamEnv).run (fun _ _ => True) k := by
  have scopex : run.build.backend = .scopex := by simpa using (Bool.and_eq_true_iff.mp supervised).1
  have quiet (event : Call) (about : About environmentTopics event) : Kernel.touchesDeath event = false :=
    about_quiet (by decide) (by decide) about
  refine Fallible.safe_bind (Q := fun _ _ => True) (fun _ => Setting.Stable.true)
    ((orphan_authChild wf pamEnv).mono fun result k covered => ?_)
  cases result with
  | error error => trivial
  | ok pamEnv =>
    refine Fallible.safe_bind (Q := fun _ _ => True) (fun _ => Setting.Stable.true)
      ((safe_covered ((uses_assemble run prepared pamEnv).mono quiet) covered).mono ?_)
    intro result k covered
    cases result with
    | error error => trivial
    | ok env =>
      simp only [if_pos scopex,pure_bind]
      refine Fallible.safe_bind (Q := fun _ _ => True) (fun _ => Setting.Stable.true)
        ((safe_covered ((uses_cstrings _).mono quiet) covered).mono fun result k covered => ?_)
      cases result with
      | error error => trivial
      | ok envp =>
        cases words : prepared.argv with
        | nil => exact .call Setting.Stable.true trivial (permits rfl) fun _ never => never.elim
        | cons cmd argv =>
          refine Fallible.safe_bind (Q := fun _ _ => True) (fun _ => Setting.Stable.true)
            ((orphan_exec supervised covered).mono fun result k _ => ?_)
          cases result with
          | error error => trivial
          | ok never => cases never

end

/-- In a supervised build the child reaches exec only while the supervisor lives with
the death signal set against it, or when the child is to be killed: whatever the
supervisor does, and wherever it dies. -/
theorem exec_supervised (supervisor : Pid) (blocked : Bool) (run : Invocation)
    (build : run.build.supervised = true) (prepared : Prepared) (pamEnv : EnvMap) (handle : PamHandle) (child : Pid)
    {c : CommandConfig} (reached : (Kernel.system supervisor).Reaches
      (supervised run prepared pamEnv handle child blocked) c)
    {event : Call} (pending : c.right.pending = some event) (replaces : isExec event = true) : c.state.Covered := by
  have safe := reached.safe_right (orphan_commandSide build prepared pamEnv (Kernel.wellFormed_forked blocked))
  exact safe.pending pending replaces

/-- The supervisor dies after the child has asked for its pid. -/
theorem exec_supervised_dead : ∃ c : CommandConfig, ∃ event, c.right.pending = some event ∧ isExec event = true ∧
    c.state.alive .parent = false ∧ c.state.Covered := by
  have played : ∃ (c : CommandConfig) (event : Call), play (Kernel.player 7) 10
      (supervised supervisedRun preparedId ∅ ⟨.none,0,true⟩ 42 false)
      (setUp ++ passBarrier ++ prepareExec ++ [.event .parentDies] ++ becomeRoot 1 ++
        [.right ⟨.raise .sigkill,.ok ()⟩]) = some c ∧
      c.right.pending = some event ∧ isExec event = true ∧ c.state.alive .parent = false :=
    ⟨_,_,rfl,rfl,rfl,rfl⟩
  obtain ⟨c,event,played,pending,replaces,dead⟩ := played
  exact ⟨c,event,pending,replaces,dead,exec_supervised 7 false supervisedRun rfl preparedId ∅ ⟨.none,0,true⟩ 42
    (play_sound _ _ played) pending replaces⟩

end Runas
