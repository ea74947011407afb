import Runas.Supervision
import Runas.Transaction

/-! The status a run ends with. A command that is started replaces the program, so a run
that returns has either shown a text or failed; its supervisor exits with its status. -/
namespace Runas
open Interaction Text

/-! A launch does not come back with success. -/

theorem panic_fails {α : Type} {A : Exchange Call Answer → Prop} {Q : α → Prop} : Fallible.Yields A (panic : M α) Q := by
  intro t value trace
  obtain ⟨_,never,_,_,_,_⟩ := (Fallible.trace_bind_ok _ _ _ _).mp trace
  exact never.elim

theorem launch_fails {A : Exchange Call Answer → Prop} (run : Invocation) (prepared : Prepared) (pamEnv : EnvMap) :
    Fallible.Yields A (run.launch prepared pamEnv) fun _ => False := by
  rw [launch_handOver,Fallible.yields_bind]
  refine (Fallible.Yields.true _).mono ?_
  rintro ⟨argv,envp⟩ -
  cases argv with
  | nil => exact panic_fails
  | cons cmd argv =>
    intro t value trace
    obtain ⟨_,never,_,_,_,_⟩ := (Fallible.trace_bind_ok _ _ _ _).mp trace
    exact never.elim

namespace Invocation
variable {run : Invocation}

/-- The text that an option shows which ends the run. -/
def shows (run : Invocation) : CliOption → Option String
  | .help => some (run.library.usage (argvScheme run.build) ("Usage: " ++ run.program ++ " [options] -- CMD"))
  | .version => some (versionText run.build)
  | _ => none

/-- The first of the options given that ends the run, by the text it shows. -/
def shown (run : Invocation) (opts : List CliOption) : Option String :=
  (opts.filter fun opt => run.args.optPresent opt.name).findSome? run.shows

theorem applyOption_ends {request : Request} {opt : CliOption} {t : List (Exchange Call Answer)}
    {outcome : Request ⊕ Unit} (trace : Trace (run.applyOption request opt).run t (.ok outcome)) :
    (outcome = .inr () ∧ ∃ text,run.shows opt = some text ∧ t = [⟨.print text,()⟩]) ∨
      (∃ request,outcome = .inl request) ∧ run.shows opt = none := by
  cases opt with
  | help | version =>
    obtain ⟨_,_,_,rfl,asked,rest⟩ := (Fallible.trace_bind_ok _ _ _ _).mp trace
    obtain ⟨_,rfl,_⟩ := (Fallible.trace_ask _ _ _).mp asked
    obtain ⟨same,rfl⟩ := (trace_done _ _ _).mp rest
    cases same
    exact .inl ⟨rfl,_,rfl,rfl⟩
  | user | group | env | preserve | chdir =>
    obtain ⟨_,request,_,_,_,rest⟩ := (Fallible.trace_bind_ok _ _ _ _).mp trace
    obtain ⟨same,_⟩ := (trace_done _ _ _).mp rest
    cases same
    exact .inr ⟨⟨request,rfl⟩,rfl⟩
  | shell | stdin | nonint | askpass =>
    obtain ⟨same,_⟩ := (trace_done _ _ _).mp trace
    cases same
    exact .inr ⟨⟨_,rfl⟩,rfl⟩

theorem applyOptions_ends {request : Request} {opts : List CliOption} {t : List (Exchange Call Answer)}
    (trace : Trace (run.applyOptions request opts).run t (.ok (.inr ()))) :
    ∃ before text,t = before ++ [⟨.print text,()⟩] ∧ run.shown opts = some text := by
  induction opts generalizing request t with
  | nil =>
    obtain ⟨same,_⟩ := (trace_done _ _ _).mp trace
    cases same
  | cons opt opts ih =>
    unfold applyOptions at trace
    by_cases present : run.args.optPresent opt.name = true
    · rw [if_pos present] at trace
      obtain ⟨early,outcome,late,rfl,applied,rest⟩ := (Fallible.trace_bind_ok _ _ _ _).mp trace
      have first : run.shown (opt :: opts) = ((opt :: opts.filter fun opt => run.args.optPresent opt.name).findSome? run.shows) := by
        rw [shown,List.filter_cons,if_pos present]
      rw [first,List.findSome?_cons]
      rcases applyOption_ends applied with ⟨rfl,text,shows,rfl⟩ | ⟨⟨request,rfl⟩,silent⟩
      · obtain ⟨_,rfl⟩ := (trace_done _ _ _).mp rest
        exact ⟨[],text,rfl,by rw [shows]⟩
      · obtain ⟨before,text,rfl,shown⟩ := ih rest
        exact ⟨early ++ before,text,(List.append_assoc _ _ _).symm,by rw [silent]; exact shown⟩
    · rw [if_neg present] at trace
      have skipped : run.shown (opt :: opts) = run.shown opts := by
        rw [shown,List.filter_cons,if_neg present]
        rfl
      rw [skipped]
      exact ih trace

theorem start_ends {targetArgs : List Bytes} {t : List (Exchange Call Answer)}
    (trace : Trace (run.start targetArgs).run t (.ok ())) : (∀ x ∈ t,settles x.1 = true) ∧
      ∃ before text,t = before ++ [⟨.print text,()⟩] ∧ run.shown (argvScheme run.build) = some text := by
  obtain ⟨first,outcome,second,rfl,prepares,rest⟩ := (Fallible.trace_bind_ok _ _ _ _).mp trace
  cases outcome with
  | inl prepared =>
    obtain ⟨_,pamEnv,_,_,_,launches⟩ := (Fallible.trace_bind_ok _ _ _ _).mp rest
    exact (@launch_fails (fun _ => True) run prepared pamEnv _ _ launches fun _ _ => trivial).elim
  | inr =>
    obtain ⟨_,rfl⟩ := (trace_done _ _ _).mp rest
    rw [List.append_nil]
    refine ⟨prepares.uses (run.settling_prepare targetArgs),?_⟩
    rw [prepare_eq] at prepares
    obtain ⟨early,argv,late,rfl,_,prepares⟩ := (Fallible.trace_bind_ok _ _ _ _).mp prepares
    obtain ⟨applying,outcome,after,rfl,applied,settling⟩ := (Fallible.trace_bind_ok _ _ _ _).mp prepares
    cases outcome with
    | inr =>
      obtain ⟨_,rfl⟩ := (trace_done _ _ _).mp settling
      obtain ⟨before,text,rfl,shown⟩ := applyOptions_ends applied
      exact ⟨early ++ before,text,by simp,shown⟩
    | inl request =>
      obtain ⟨_,caller,_,_,_,settling⟩ := (Fallible.trace_bind_ok _ _ _ _).mp settling
      cases caller with
      | none =>
        obtain ⟨same,_⟩ := (trace_done _ _ _).mp settling
        cases same
      | some caller =>
        obtain ⟨_,_,_,_,_,settling⟩ := (Fallible.trace_bind_ok _ _ _ _).mp settling
        obtain ⟨_,_,_,_,_,settling⟩ := (Fallible.trace_bind_ok _ _ _ _).mp settling
        obtain ⟨_,_,_,_,_,settling⟩ := (Fallible.trace_bind_ok _ _ _ _).mp settling
        obtain ⟨same,_⟩ := (trace_done _ _ _).mp settling
        cases same

end Invocation

theorem run_ends {library : Library} {build : Build} {words : List Bytes} {t : List (Exchange Call Answer)}
    (trace : Trace (run library build words).run t (.ok ())) : (∀ x ∈ t,settles x.1 = true) ∧
      ∃ before text invocation targetArgs,t = before ++ [⟨.print text,()⟩] ∧ Begins library build words invocation targetArgs ∧
        invocation.shown (argvScheme build) = some text := by
  cases words with
  | nil => exact (@panic_fails Unit (fun _ => True) (fun _ => False) _ _ trace fun _ _ => trivial).elim
  | cons program rest =>
    obtain ⟨first,texts,second,rfl,reads,trace⟩ := (Fallible.trace_bind_ok _ _ _ _).mp trace
    have decoded := @utf8Words_decodes (fun _ => True) _ _ _ reads fun _ _ => trivial
    obtain rfl := List.eq_nil_iff_forall_not_mem.mpr (reads.uses (silent_utf8Words _))
    cases texts with
    | nil => exact (@panic_fails Unit (fun _ => True) (fun _ => False) _ _ trace fun _ _ => trivial).elim
    | cons name own =>
      dsimp only at trace
      split at trace
      · obtain ⟨_,_,_,_,_,thrown⟩ := (Fallible.trace_bind_ok _ _ _ _).mp trace
        obtain ⟨same,_⟩ := (trace_done _ _ _).mp thrown
        cases same
      · next args parsed =>
        obtain ⟨checking,_,third,rfl,checks,starts⟩ := (Fallible.trace_bind_ok _ _ _ _).mp trace
        obtain rfl := List.eq_nil_iff_forall_not_mem.mpr (checks.uses (silent_checkCommand _ _))
        obtain ⟨settled,before,text,same,shown⟩ := Invocation.start_ends starts
        exact ⟨settled,before,text,_,_,same,⟨program,rest,name,own,args,rfl,decoded,parsed,rfl,rfl⟩,shown⟩

/-! The status of a run that exits before it returns. -/

/-- Where the program exits of itself it has failed. -/
def Failing (event : Call) : Prop := ∀ code,event = .exit code → code = 1

/-- `waitpid` has told the status of the child, or could not. -/
def Reported (child : Pid) (code : Int) (t : History) : Prop := code = 1 ∨ ∃ x ∈ t,termination child x = some code

/-- A run exits with the status of a failure, or as the supervisor of a child with the status of that. -/
def Leaving (build : Build) (t : History) (event : Call) : Prop :=
  ∀ code,event = .exit code → code = 1 ∨ build.supervised = true ∧
    ∃ child,⟨.fork,.ok (.parent child)⟩ ∈ t ∧ ∃ x ∈ t,termination child x = some code

namespace Leaving
variable {build : Build} {child : Pid} {t : History} {α : Type}

abbrev leaving (build : Build) : Setting Call Answer History := alone record (Leaving build)

theorem reported_grows {code : Int} (t : History) (x : Exchange Call Answer) (told : Reported child code t) :
    Reported child code (t ++ [x]) :=
  told.imp_right fun ⟨y,member,same⟩ => ⟨y,List.mem_append_left _ member,same⟩

theorem failing_topic {event : Call} (other : event.topic ≠ .finish) : Failing event := by
  rintro code rfl
  exact absurd rfl other

theorem failing_panic : Failing .panic := fun _ never => nomatch never

theorem failing_about {topics : List Topic} {p : Calls α} (used : p.Uses (About topics)) (others : .finish ∉ topics) :
    p.Uses Failing :=
  used.mono fun _ about => failing_topic fun same => others (same ▸ about)

theorem failing_silent {p : Calls α} (silent : p.Uses fun _ => False) : p.Uses Failing :=
  silent.mono fun _ absurd => absurd.elim

theorem failing_supervising {p : Calls α} (used : Supervising p) : p.Uses Failing := by
  refine used.mono fun event known => ?_
  rintro code rfl
  cases known

/-- What the record is to hold from now on is kept by a part that exits with a failure at most. -/
theorem keeps {p : Calls α} {P : History → Prop} (used : p.Uses Failing) (grows : ∀ t x,P t → P (t ++ [x])) (holds : P t) :
    (leaving build).Safe p (fun _ => P) t := by
  refine Setting.Safe.uses used (stable_alone _) holds (fun _ _ _ known code same => .inl (known code same)) ?_
  rintro t event answer _ held _ rfl
  exact grows t ⟨event,answer⟩ held

theorem free {p : Calls α} (used : p.Uses Failing) : (leaving build).Safe p (fun _ _ => True) t :=
  keeps used (fun _ _ _ => trivial) trivial

theorem safe_reap (handler : ForegroundHandler) : (leaving build).Safe (reap child handler).run
    (fun result t => ∀ code,result = .ok (some code) → Reported child code t) t := by
  refine Fallible.safe_iterate (I := fun _ _ => True) (fun _ => stable_alone _) (fun _ => stable_alone _) trivial fun _ t _ => ?_
  refine .call_alone (fun _ never => nomatch never) fun answer t' taken => ?_
  obtain rfl : t' = t ++ [(⟨.waitpid child,answer⟩ : Exchange Call Answer)] := taken
  have ends {status : WaitStatus} {code : Int} (told : status.termination = some code) :
      Reported child code (t ++ [⟨.waitpid child,.ok status⟩]) :=
    .inr ⟨_,List.mem_append_right _ List.mem_cons_self,by rw [termination,if_pos rfl,told]⟩
  rcases answer with error | status
  · cases error with
    | eintr => exact .done_alone trivial
    | echild =>
      refine .done_alone fun code same => ?_
      cases same
      exact .inl rfl
    | _ => exact .done_alone nofun
  · cases status with
    | exited _ | signaled _ =>
      refine .done_alone fun code same => ?_
      cases same
      exact ends rfl
    | stopped signal =>
      have suspends : Supervising (suspend child handler signal) :=
        uses_suspend (supervising_transfers handler).1 (supervising_transfers handler).2 (fun _ => rfl) rfl rfl signal
      exact Fallible.safe_lift ((free (failing_supervising suspends)).mono fun _ _ _ => .done_alone trivial)
    | stillAlive => exact .done_alone nofun
    | continued => exact .done_alone trivial

/-- The watch over a child ends with the status of it. -/
def Tells (child : Pid) : Except Error Int → History → Prop
  | .ok code => Reported child code
  | .error _ => fun _ => True

theorem tells_grows {result : Except Error Int} (t : History) (x : Exchange Call Answer) (tells : Tells child result t) :
    Tells child result (t ++ [x]) := by
  cases result with
  | ok code => exact reported_grows t x tells
  | error error => trivial

theorem safe_react (handler : ForegroundHandler) (signal : Option Signal) :
    (leaving build).Safe (react child handler signal).run (fun
      | .ok (.inl _) => fun _ => True
      | .ok (.inr code) => Reported child code
      | .error _ => fun _ => True) t := by
  unfold react
  split
  · exact .done_alone trivial
  · refine Fallible.safe_bind_alone ((safe_reap handler).mono fun result t told => ?_)
    rcases result with error | _ | code
    · trivial
    · exact .done_alone trivial
    · exact .done_alone (told code rfl)
  · exact Fallible.safe_lift ((free (failing_supervising (uses_discard rfl))).mono fun _ _ _ => .done_alone trivial)

theorem safe_watch (signals : SignalReceiver) (handler : ForegroundHandler) :
    (leaving build).Safe (watch child signals handler).run (Tells child) t := by
  refine Fallible.safe_iterate (I := fun _ _ => True) (fun _ => stable_alone _) (fun _ => stable_alone _) trivial fun initiate t _ => ?_
  unfold watchRound
  split
  · refine (safe_react handler _).mono fun result t told => ?_
    rcases result with error | again | code <;> exact told
  · refine Fallible.safe_bind_alone ((free (failing_supervising (within_receiverWait rfl rfl))).mono fun result t _ => ?_)
    cases result with
    | error error => trivial
    | ok event =>
      refine (safe_react handler _).mono fun result t told => ?_
      rcases result with error | again | code <;> exact told

theorem safe_watchProcess (pipe : ForkEndpoint) : (leaving build).Safe (watchProcess child pipe).run (Tells child) t := by
  have installs := Fallible.Uses.releasingOnError (supervising_endpoint pipe) (supervising_watchInstall child)
  refine Fallible.safe_bind_alone ((free (failing_supervising installs)).mono fun result t _ => ?_)
  rcases result with error | ⟨signals,handler⟩
  · trivial
  · have releases : Supervising (do handler.drop; signals.drop) :=
      Program.Uses.bind (supervising_handlerDrop handler) fun _ => supervising_receiverDrop signals
    have waits := uses_ignoring (supervising_readyAndWait pipe)
    refine Fallible.safe_releasing (fun _ => stable_alone _) (Fallible.safe_lift ?_)
    refine (free (failing_supervising waits)).mono fun _ t _ => (safe_watch signals handler).mono fun result t tells => ?_
    exact keeps (failing_supervising releases) tells_grows tells

/-! Authentication, in which alone a run comes to watch over a child. -/

theorem drop_failing (handle : PamHandle) : handle.drop.Uses Failing :=
  PamHandle.within_drop (fun event about => failing_topic fun same => by simp [About,same] at about) handle

theorem safe_authParent (supervised : build.supervised = true) (handle : PamHandle) (sync : ForkSync)
    (forked : ⟨.fork,.ok (.parent child)⟩ ∈ t) :
    (leaving build).Safe (authParent handle sync child).run (fun _ _ => True) t := by
  have grows (t : History) (x : Exchange Call Answer) (forked : ⟨.fork,.ok (.parent child)⟩ ∈ t) :
      ⟨.fork,.ok (.parent child)⟩ ∈ t ++ [x] := List.mem_append_left _ forked
  have leaves {code : Int} {t : History} (told : ⟨.fork,.ok (.parent child)⟩ ∈ t ∧ Reported child code t) :
      (leaving build).Safe (do handle.drop; exit code : M EnvMap).run (fun _ _ => True) t := by
    have both (t : History) (x : Exchange Call Answer) := And.imp (grows t x) (@reported_grows child code t x)
    refine Fallible.safe_lift ((keeps (drop_failing handle) both told).mono fun _ t told => ?_)
    refine .call_alone ?_ fun never => nomatch never
    rintro _ ⟨⟩
    exact told.2.imp_right fun status => ⟨supervised,child,told.1,status⟩
  refine Fallible.safe_lift ((keeps (failing_about (uses_intoParent sync) (by decide)) grows forked).mono fun pipe t forked => ?_)
  have watches := failing_supervising (supervising_watchProcess child pipe)
  refine Fallible.safe_lift (((keeps watches grows forked).and (safe_watchProcess pipe)).mono fun result t held => ?_)
  cases result with
  | ok code => exact leaves held
  | error error =>
    refine .call_alone (fun _ never => nomatch never) fun _ t' taken => ?_
    obtain rfl : t' = t ++ [(⟨.report "" error,()⟩ : Exchange Call Answer)] := taken
    exact leaves ⟨grows _ _ held.1,.inl rfl⟩

theorem safe_authFork (supervised : build.supervised = true) (handle : PamHandle) (sync : ForkSync) (pamEnv : EnvMap) :
    (leaving build).Safe (authFork handle sync pamEnv).run (fun _ _ => True) t := by
  refine .call_alone (fun _ never => nomatch never) fun forked t' taken => ?_
  rcases forked with error | (_ | child)
  · have drops := failing_about (uses_syncDrop sync) (by decide)
    exact free (Fallible.Uses.bind (.lift (drop_failing handle)) fun _ => .bind (.lift drops) fun _ => trivial)
  · refine free ((Transaction.apart_authChild sync pamEnv).mono fun event known => ?_)
    rintro code rfl
    cases known
  · cases (taken : t' = t ++ [(⟨.fork,.ok (.parent child)⟩ : Exchange Call Answer)])
    exact safe_authParent supervised handle sync (List.mem_append_right _ List.mem_cons_self)

theorem safe_authSession (supervised : build.supervised = true) (handle : PamHandle) :
    (leaving build).Safe (authSession handle).run (fun _ _ => True) t := by
  have makes := Fallible.Uses.releasingOnError (drop_failing handle) (failing_about uses_syncNew (by decide))
  refine Fallible.safe_bind_alone ((free makes).mono fun made t _ => ?_)
  cases made with
  | error error => trivial
  | ok sync =>
    refine Fallible.safe_lift ((free (failing_about (PamHandle.uses_getenvlist handle) (by decide))).mono fun pair t _ => ?_)
    obtain ⟨listed,handle⟩ := pair
    cases listed with
    | ok pamEnv => exact safe_authFork supervised handle sync pamEnv
    | error error =>
      have drops := failing_about (uses_syncDrop sync) (by decide)
      exact free (Fallible.Uses.bind (.lift drops) fun _ => .bind (.lift (drop_failing handle)) fun _ => trivial)

theorem safe_pamAuth (pam : build.usePam = true) (user target : Account) (flags : RunFlags) (disableAuth : Bool) :
    (leaving build).Safe (pamAuth build user target flags disableAuth).run (fun _ _ => True) t := by
  have dropped (handle : PamHandle) {x : M EnvMap} (ends : Fallible.Uses Failing x) :
      Fallible.Uses Failing (do handle.drop; x : M EnvMap) := .bind (.lift (drop_failing handle)) fun _ => ends
  refine Fallible.safe_bind_alone ((free (failing_about (uses_pamStart _ _ _) (by decide))).mono fun started t _ => ?_)
  cases started with
  | error error => trivial
  | ok handle =>
    have logs (disableAuth : Bool) := failing_about (uses_pamLogin build user target flags disableAuth handle) (by decide)
    refine Fallible.safe_lift ((free (logs _)).mono fun pair t _ => ?_)
    obtain ⟨result,handle⟩ := pair
    cases result with
    | error error => exact free (dropped handle trivial)
    | ok =>
      dsimp only
      split
      · next scopex => exact safe_authSession (by simp [Build.supervised,scopex,pam]) handle
      · exact free (dropped handle trivial)

theorem safe_authenticate (numeric : Char → Bool) (user target : Account) (flags : RunFlags) :
    (leaving build).Safe (authenticate numeric build user target flags).run (fun _ _ => True) t := by
  have enters (user : Account) (disableAuth : Bool) (t : History) :
      (leaving build).Safe (auth build user target flags disableAuth).run (fun _ _ => True) t := by
    unfold auth
    split
    · next pam => exact safe_pamAuth pam _ _ _ _
    · have looks (event : Call) (about : About [.lookup,.talk] event) : Failing event :=
        failing_topic fun same => by simp [About,same] at about
      have checks := within_shadowAuth looks failing_panic user flags
      exact free (Fallible.Uses.bind checks fun _ => trivial)
  refine Fallible.safe_bind_alone ((free (failing_about (uses_hasTargetGroup user target) (by decide))).mono fun found t _ => ?_)
  rcases found with error | ⟨has,user⟩
  · trivial
  dsimp only
  cases authDecision user.isRoot (target.uid == user.uid) has (nonInteractive flags) with
  | allow =>
    by_cases supervised : build.supervised = true
    · simp only [if_pos supervised]
      exact enters user true t
    · simp only [if_neg supervised]
      exact .done_alone trivial
  | deny => exact .done_alone trivial
  | authenticate =>
    have asks := failing_about (uses_isWheelMember numeric user) (by decide)
    refine Fallible.safe_bind_alone ((free asks).mono fun wheel t _ => ?_)
    rcases wheel with error | wheel
    · trivial
    dsimp only
    cases wheel with
    | true => exact enters user false t
    | false => exact .done_alone trivial

/-! The run as a whole. -/

theorem safe_start (run : Invocation) (targetArgs : List Bytes) :
    (leaving run.build).Safe (run.start targetArgs).run (fun _ _ => True) t := by
  have prepares : Fallible.Uses Failing (run.prepare targetArgs) := by
    refine (run.settling_prepare targetArgs).mono fun event known => ?_
    rintro code rfl
    exact of_decide_eq_true known
  have launch (prepared : Prepared) (pamEnv : EnvMap) : Fallible.Uses Failing (run.launch prepared pamEnv) := by
    refine (launching_launch run prepared pamEnv).mono fun event known => ?_
    rintro code rfl
    exact of_decide_eq_true known
  refine Fallible.safe_bind_alone ((free prepares).mono fun outcome t _ => ?_)
  rcases outcome with error | prepared | _
  · trivial
  · refine Fallible.safe_bind_alone ((safe_authenticate _ _ _ _).mono fun result t _ => ?_)
    cases result with
    | error error => trivial
    | ok pamEnv => exact free (launch prepared pamEnv)
  · exact .done_alone trivial

theorem safe_main (library : Library) (words : List Bytes) :
    (leaving build).Safe (main library build words) (fun _ _ => True) t := by
  have stops {t : History} : (leaving build).Safe (panic : M Unit).run (fun _ _ => True) t :=
    free ⟨failing_panic,fun never => nomatch never⟩
  have runs : (leaving build).Safe (run library build words).run (fun _ _ => True) t := by
    cases words with
    | nil => exact stops
    | cons program rest =>
      refine Fallible.safe_bind_alone ((free (failing_silent (silent_utf8Words _))).mono fun texts t _ => ?_)
      rcases texts with error | (_ | ⟨name,own⟩)
      · trivial
      · exact stops
      · dsimp only
        split
        · exact free ⟨nofun,fun _ => trivial⟩
        · refine Fallible.safe_bind_alone ((free (failing_silent (silent_checkCommand _ _))).mono fun checked t _ => ?_)
          cases checked with
          | error error => trivial
          | ok => exact safe_start ⟨library,build,name,_⟩ _
  refine Setting.Safe.bind (runs.mono fun result t _ => ?_)
  cases result with
  | ok => exact .done_alone trivial
  | error error => exact free ⟨nofun,fun _ => trivial⟩

end Leaving

theorem returned_status {library : Library} {build : Build} {words : List Bytes} {t : History} {code : Int}
    (ended : Trace (main library build words) t code) :
    (code = 0 ∧ (∀ x ∈ t,settles x.1 = true) ∧ ∃ before text invocation targetArgs,t = before ++ [⟨.print text,()⟩] ∧
      Begins library build words invocation targetArgs ∧ invocation.shown (argvScheme build) = some text) ∨
    (code = 1 ∧ ∃ before error,t = before ++ [⟨.report "" error,()⟩] ∧
      Trace (run library build words).run before (.error error)) := by
  obtain ⟨before,result,after,rfl,runs,last⟩ := (trace_bind _ _ _ _).mp ended
  cases result with
  | ok =>
    obtain ⟨rfl,rfl⟩ := (trace_done _ _ _).mp last
    rw [List.append_nil]
    exact .inl ⟨rfl,run_ends runs⟩
  | error error =>
    obtain ⟨_,rest,rfl,returns⟩ := (trace_call _ _ _ _).mp last
    obtain ⟨rfl,rfl⟩ := (trace_done _ _ _).mp returns
    exact .inr ⟨rfl,before,error,rfl,runs⟩

/-- A run that returns gives one of two statuses. It is 0 when it has shown the text that was asked
for, the last thing it does, and has looked things up before that, but asked nobody for a
password, opened no session and started nothing. It is 1 when the run has failed, and the report
of its error is the last thing it does. A run that exits instead does so with status 1 or, as
the supervisor of the child it has forked, with the status that `waitpid` has told of that. -/
theorem main_status (library : Library) (build : Build) (words : List Bytes) :
    (∀ t code,Trace (main library build words) t code →
      (code = 0 ∧ (∀ x ∈ t,settles x.1 = true) ∧ ∃ before text invocation targetArgs,t = before ++ [⟨.print text,()⟩] ∧
        Begins library build words invocation targetArgs ∧ invocation.shown (argvScheme build) = some text) ∨
      (code = 1 ∧ ∃ before error,t = before ++ [⟨.report "" error,()⟩] ∧
        Trace (run library build words).run before (.error error))) ∧
    ∀ q t code,Steps record (main library build words) [] q t → q.pending = some (.exit code) →
      code = 1 ∨ build.supervised = true ∧ ∃ child,⟨.fork,.ok (.parent child)⟩ ∈ t ∧ ∃ x ∈ t,termination child x = some code :=
  ⟨fun _ _ ended => returned_status ended,fun _ _ code reached pending =>
    ((Leaving.safe_main library words).steps reached).pending pending code rfl⟩

private def versionLibrary : Library :=
  ⟨fun _ _ => .ok ⟨[],fun name => name == "v" || name == "version",fun _ => none⟩,fun _ _ => "",fun _ => false⟩

/-- The version of a scopex build with PAM. -/
theorem main_status_version : ∃ text,[⟨.print "runas 1.6.1 PAM,SCOPEX",()⟩] =
    [(⟨.print text,()⟩ : Exchange Call Answer)] ∧ ∃ invocation targetArgs,
    Begins versionLibrary ⟨.scopex,true,false,false,none,Build.kept⟩ [encode "runas",encode "-v"] invocation targetArgs ∧
      invocation.shown (argvScheme ⟨.scopex,true,false,false,none,Build.kept⟩) = some text := by
  have ended : Trace (main versionLibrary ⟨.scopex,true,false,false,none,Build.kept⟩ [encode "runas",encode "-v"])
      [⟨.print "runas 1.6.1 PAM,SCOPEX",()⟩] 0 := replay_sound 20 rfl
  rcases (main_status versionLibrary _ _).1 _ _ ended with ⟨_,_,before,text,invocation,targetArgs,same,begins,shown⟩ | ⟨one,_⟩
  · refine ⟨text,?_,invocation,targetArgs,begins,shown⟩
    cases before with
    | nil => exact same
    | cons head tail => simp at same
  · cases one

end Runas
