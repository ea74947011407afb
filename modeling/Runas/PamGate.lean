import Runas.Topics
import Runas.Interaction.Alone

/-! The gate of the PAM builds: what the functions of the PAM library have returned when
`authenticate` lets a caller through, and which process it is that goes on. -/
namespace Runas
open Interaction

abbrev PamResult := (function : PamFunction) × PamReturn function

def pamResult : Exchange Call Answer → Option PamResult
  | ⟨.pam function,.returned value⟩ => some ⟨function,value⟩
  | ⟨.pamReply function _,.returned value⟩ => some ⟨function,value⟩
  | _ => none

def decisive : PamFunction → Bool
  | .start _ _ | .authenticate _ | .acctMgmt _ | .chauthtok _ | .setcred _ | .openSession _ => true
  | _ => false

def pamResults (t : List (Exchange Call Answer)) : List PamResult := t.filterMap pamResult

def verdicts (t : List (Exchange Call Answer)) : List PamResult :=
  (pamResults t).filter fun result => decisive result.1

@[simp] theorem pamResults_append (a b : List (Exchange Call Answer)) :
    pamResults (a ++ b) = pamResults a ++ pamResults b := List.filterMap_append

@[simp] theorem verdicts_nil : verdicts [] = [] := rfl

@[simp] theorem verdicts_append (a b : List (Exchange Call Answer)) :
    verdicts (a ++ b) = verdicts a ++ verdicts b := by simp [verdicts]

theorem pamResults_other {t : List (Exchange Call Answer)} (other : ∀ x ∈ t, x.1.topic ≠ .pam) :
    pamResults t = [] := by
  refine List.filterMap_eq_nil_iff.mpr fun x member => ?_
  have topic := other x member
  obtain ⟨event,answer⟩ := x
  cases event <;> first | rfl | exact absurd rfl topic

theorem verdicts_other {t : List (Exchange Call Answer)} (other : ∀ x ∈ t, x.1.topic ≠ .pam) :
    verdicts t = [] := by rw [verdicts,pamResults_other other]; rfl

def forkAnswers (t : List (Exchange Call Answer)) : List (Except Errno ForkResult) :=
  t.filterMap fun
    | ⟨.fork,answer⟩ => some answer
    | _ => none

@[simp] theorem forkAnswers_nil : forkAnswers [] = [] := rfl

@[simp] theorem forkAnswers_append (a b : List (Exchange Call Answer)) :
    forkAnswers (a ++ b) = forkAnswers a ++ forkAnswers b := List.filterMap_append

theorem forkAnswers_other {t : List (Exchange Call Answer)} (other : ∀ x ∈ t, x.1 ≠ .fork) :
    forkAnswers t = [] := by
  refine List.filterMap_eq_nil_iff.mpr fun x member => ?_
  have noFork := other x member
  obtain ⟨event,answer⟩ := x
  cases event <;> first | rfl | exact absurd rfl noFork

section
variable {α : Type} {p : Calls α} {t : List (Exchange Call Answer)} {value : α} {topics : List Topic}

private theorem no_verdicts (trace : Trace p t value) (used : p.Uses (About topics)) (other : .pam ∉ topics) :
    verdicts t = [] := by
  refine verdicts_other fun x member topic => ?_
  have about := trace.uses used x member
  rw [About,topic] at about
  exact other about

private theorem no_forks (trace : Trace p t value) (used : p.Uses (About topics)) (other : .process ∉ topics) :
    forkAnswers t = [] := by
  refine forkAnswers_other fun x member fork => ?_
  have about := trace.uses used x member
  rw [fork] at about
  exact other about

end

private def returnedBy {function : PamFunction} : PamAnswer function → List PamResult
  | .returned value => [⟨function,value⟩]
  | .converse _ => []

/-- A conversation is followed by the reply to it, which brings the next answer. -/
private theorem converse_replies {flags : RunFlags} {function : PamFunction} {request : PamRequest}
    {t : List (Exchange Call Answer)} {outcome : PamAnswer function ⊕ PamReturn function}
    (round : Trace (Pam.converse (Conv flags) (.converse request)) t outcome) : ∃ talk reply next,
      t = talk ++ [⟨.pamReply function reply,next⟩] ∧ (∀ x ∈ talk,About [.talk] x.1) ∧ outcome = .inl next := by
  obtain ⟨talk,reply,rest,rfl,processed,asked⟩ := (trace_bind _ _ _ _).mp round
  obtain ⟨reply,rfl⟩ := Option.isSome_iff_exists.mp (processed.gives (convProcess_gives flags request))
  obtain ⟨replied,next,last,rfl,asked,same⟩ := (trace_bind _ _ _ _).mp asked
  obtain rfl := (trace_ask _ _ _).mp asked
  obtain ⟨rfl,rfl⟩ := (trace_done _ _ _).mp same
  exact ⟨talk,reply,next,rfl,processed.uses (uses_convProcess flags request),rfl⟩

/-- A call of a PAM function returns once, whatever conversations come before. -/
theorem call_results {flags : RunFlags} {function : PamFunction} {t : List (Exchange Call Answer)}
    {value : PamReturn function} (trace : Trace (Pam.call (Conv flags) function) t value) :
    pamResults t = [⟨function,value⟩] := by
  obtain ⟨first,answer,rest,rfl,asked,rounds⟩ := (trace_bind _ _ _ _).mp trace
  obtain rfl := (trace_ask _ _ _).mp asked
  refine rounds.iterate (fun answer' before => pamResults (⟨.pam function,answer⟩ :: before) = returnedBy answer')
    (fun value before => pamResults (⟨.pam function,answer⟩ :: before) = [⟨function,value⟩]) ?_ ?_ ?_
  · cases answer <;> rfl
  · intro answer' before t next held round
    cases answer' with
    | returned value => simp [Pam.converse] at round
    | converse request =>
      obtain ⟨talk,reply,_,rfl,about,same⟩ := converse_replies round
      cases same
      have quiet : pamResults talk = [] := pamResults_other fun x member => by
        rw [List.mem_singleton.mp (about x member)]
        decide
      rw [← List.cons_append,pamResults_append,held,pamResults_append,quiet]
      cases next <;> rfl
  · intro answer' before t result held round
    cases answer' with
    | returned value =>
      obtain ⟨same,rfl⟩ := (trace_done _ _ _).mp round
      cases same
      simpa [returnedBy] using held
    | converse request =>
      obtain ⟨_,_,_,_,_,same⟩ := converse_replies round
      cases same

/-! The methods of the handle. -/

private theorem call_verdicts {flags : RunFlags} {function : PamFunction} {t : List (Exchange Call Answer)}
    {value : PamReturn function} (trace : Trace (Pam.call (Conv flags) function) t value) :
    verdicts t = if decisive function then [⟨function,value⟩] else [] := by
  rw [verdicts,call_results trace,List.filter_singleton,cond_eq_ite]

namespace PamHandle
variable {α β : Type}

/-- A method that succeeds has left the session as it was, and what the deciding
functions have returned in it meets `Q`. -/
def Succeeds (x : PamM α) (Q : α → List PamResult → Prop) : Prop :=
  ∀ (handle : PamHandle) t value (after : PamHandle), Trace (handle.perform x) t (.ok value,after) →
    after.session = handle.session ∧ Q value (verdicts t)

namespace Succeeds
variable {P : α → List PamResult → Prop} {Q : β → List PamResult → Prop}

theorem pure {value : β} (holds : Q value []) : Succeeds (Pure.pure value) Q := by
  intro handle t result after trace
  obtain ⟨same,rfl⟩ := (trace_done _ _ _).mp trace
  cases same
  exact ⟨rfl,holds⟩

theorem throw (error : Error) : Succeeds (MonadExcept.throw error) Q := by
  intro handle t result after trace
  obtain ⟨same,_⟩ := (trace_done _ _ _).mp trace
  cases same

theorem peel {x : PamM α} {f : α → PamM β} {handle after : PamHandle} {t : List (Exchange Call Answer)}
    {value : β} (first : Succeeds x P) (trace : Trace (handle.perform (x >>= f)) t (.ok value,after)) :
    ∃ before later middle, ∃ between : PamHandle, t = before ++ later ∧ between.session = handle.session ∧
      P middle (verdicts before) ∧ Trace (between.perform (f middle)) later (.ok value,after) := by
  rw [perform_bind] at trace
  obtain ⟨before,⟨result,between⟩,later,rfl,run,rest⟩ := (trace_bind _ _ _ _).mp trace
  cases result with
  | error error => simp at rest
  | ok middle =>
    obtain ⟨kept,held⟩ := first handle before middle between run
    exact ⟨before,later,middle,between,rfl,kept,held,rest⟩

theorem bind {x : PamM α} {f : α → PamM β} (first : Succeeds x P)
    (rest : ∀ value results, P value results → Succeeds (f value) fun result more => Q result (results ++ more)) :
    Succeeds (x >>= f) Q := by
  intro handle t value after trace
  obtain ⟨before,later,middle,between,rfl,kept,held,run⟩ := first.peel trace
  obtain ⟨kept',held'⟩ := rest middle _ held between later value after run
  rw [verdicts_append]
  exact ⟨kept'.trans kept,held'⟩

theorem mono {x : PamM α} {P' : α → List PamResult → Prop} (succeeds : Succeeds x P)
    (weaker : ∀ value results, P value results → P' value results) : Succeeds x P' := by
  intro handle t value after trace
  obtain ⟨kept,held⟩ := succeeds handle t value after trace
  exact ⟨kept,weaker _ _ held⟩

theorem lift {p : Calls α} {topics : List Topic} (used : p.Uses (About topics)) (other : .pam ∉ topics) :
    Succeeds (liftM p : PamM α) fun _ results => results = [] := by
  intro handle t value after trace
  rw [perform_lift] at trace
  obtain ⟨first,middle,last,rfl,run,ended⟩ := (trace_bind _ _ _ _).mp trace
  obtain ⟨same,rfl⟩ := (trace_done _ _ _).mp ended
  cases same
  refine ⟨rfl,?_⟩
  rw [List.append_nil]
  exact no_verdicts run used other

theorem call (function : PamFunction) : Succeeds (PamHandle.call function) fun result results =>
    results = if decisive function then [⟨function,result⟩] else [] := by
  intro handle t value after trace
  rw [perform_call] at trace
  obtain ⟨first,middle,last,rfl,run,ended⟩ := (trace_bind _ _ _ _).mp trace
  obtain ⟨same,rfl⟩ := (trace_done _ _ _).mp ended
  cases same
  rw [List.append_nil]
  exact ⟨rfl,call_verdicts run⟩

end Succeeds

theorem errorOf_results {flags : RunFlags} {code : UInt32} {t : List (Exchange Call Answer)}
    {error : PamError} (trace : Trace (Pam.errorOf (Conv flags) code) t error) :
    ∃ text,pamResults t = [⟨.strerror code,text⟩] := by
  obtain ⟨first,text,last,rfl,run,ended⟩ := (trace_bind _ _ _ _).mp trace
  refine ⟨text,?_⟩
  rw [pamResults_append,call_results run]
  cases text <;> simp_all [pamResults]

theorem fail_results {wrap : PamError → Error} {code : UInt32} {handle after : PamHandle}
    {t : List (Exchange Call Answer)} {result : Except Error α}
    (trace : Trace (handle.perform (fail wrap code)) t (result,after)) :
    (∃ error, result = .error (wrap error)) ∧ after = handle ∧ ∃ text,pamResults t = [⟨.strerror code,text⟩] := by
  have shape : handle.perform (fail wrap code : PamM α) =
      (Pam.errorOf (Conv handle.flags) code).bind fun error => .done (.error (wrap error),handle) := by
    unfold fail
    rw [perform_bind]
    change handle.perform (liftM (Pam.errorOf (Conv handle.flags) code) >>= fun error =>
      MonadExcept.throw (wrap error)) = _
    rw [perform_bind,perform_lift,Program.bind_assoc]
    rfl
  rw [shape] at trace
  obtain ⟨first,error,last,rfl,run,ended⟩ := (trace_bind _ _ _ _).mp trace
  obtain ⟨same,rfl⟩ := (trace_done _ _ _).mp ended
  cases same
  refine ⟨⟨error,rfl⟩,rfl,?_⟩
  rw [List.append_nil]
  exact errorOf_results run

private theorem Succeeds.fail (wrap : PamError → Error) (code : UInt32) (Q : α → List PamResult → Prop) :
    Succeeds (PamHandle.fail wrap code) Q := by
  intro handle t value after trace
  obtain ⟨⟨error,same⟩,_⟩ := fail_results trace
  cases same

private theorem Succeeds.note (status : UInt32) :
    Succeeds (modify fun handle => { handle with lastStatus := status }) fun _ results => results = [] := by
  intro handle t value after trace
  obtain ⟨same,rfl⟩ := (trace_done _ _ _).mp trace
  cases same
  exact ⟨rfl,rfl⟩

private theorem Succeeds.check (result : UInt32) :
    Succeeds (PamHandle.check result) fun _ results => result = Pam.success ∧ results = [] := by
  unfold PamHandle.check
  refine (Succeeds.note result).bind fun _ results quiet => ?_
  cases quiet
  by_cases failed : result ≠ Pam.success
  · rw [if_pos failed]
    exact .fail _ _ _
  · rw [if_neg failed]
    exact .pure ⟨not_not.mp failed,rfl⟩

private theorem Succeeds.authenticate :
    Succeeds (PamHandle.authenticate 0) fun _ results => results = [⟨.authenticate 0,Pam.success⟩] := by
  unfold PamHandle.authenticate
  refine (Succeeds.call (.authenticate 0)).bind fun result results called => ?_
  refine (Succeeds.check result).mono fun _ more checked => ?_
  obtain ⟨rfl,rfl⟩ := checked
  rw [called,List.append_nil]
  rfl

private theorem Succeeds.chauthtok (flags : UInt32) :
    Succeeds (PamHandle.chauthtok flags) fun _ results => results = [⟨.chauthtok flags,Pam.success⟩] := by
  unfold PamHandle.chauthtok
  refine (Succeeds.call (.chauthtok flags)).bind fun result results called => ?_
  refine (Succeeds.check result).mono fun _ more checked => ?_
  obtain ⟨rfl,rfl⟩ := checked
  rw [called,List.append_nil]
  rfl

private theorem Succeeds.setItem (item : PamItem) (text : String) :
    Succeeds (PamHandle.setItem item text) fun _ results => results = [] := by
  unfold PamHandle.setItem
  split
  · exact .throw _
  · refine (Succeeds.call (.setItem item _)).bind fun result results called => ?_
    refine (Succeeds.check result).mono fun _ more checked => ?_
    obtain ⟨_,rfl⟩ := checked
    rw [called]
    rfl

/-- What account management has said, and the change of a password that was due. -/
def AccountPassed (flags : RunFlags) (results : List PamResult) : Prop :=
  results = [⟨.acctMgmt 0,Pam.success⟩] ∨ (flags.contains .authNoPrompt = false ∧
    results = [⟨.acctMgmt 0,Pam.newAuthtokReqd⟩,⟨.chauthtok Pam.changeExpiredAuthtok,Pam.success⟩])

/-- What account management has said, by how the method ended. -/
private def AccountSaid : Except Error Unit → List PamResult → Prop
  | .ok (),results => results = [⟨.acctMgmt 0,Pam.success⟩]
  | .error (.pamActionRequired _),results => results = [⟨.acctMgmt 0,Pam.newAuthtokReqd⟩]
  | .error _,_ => True

private theorem acctMgmt_results {handle after : PamHandle} {t : List (Exchange Call Answer)}
    {result : Except Error Unit} (trace : Trace (handle.perform (acctMgmt 0)) t (result,after)) :
    after.session = handle.session ∧ AccountSaid result (verdicts t) := by
  have shape : handle.perform (acctMgmt 0) = (Pam.call (Conv handle.flags) (.acctMgmt 0)).bind
      fun result : UInt32 => { handle with lastStatus := result }.perform
        (if result = Pam.success then pure ()
        else if result = Pam.newAuthtokReqd then fail .pamActionRequired Pam.newAuthtokReqd
        else fail .pam result) := by
    unfold acctMgmt
    rw [perform_bind,perform_call,Program.bind_assoc]
    rfl
  rw [shape] at trace
  obtain ⟨first,code,second,rfl,called,rest⟩ := (trace_bind _ _ _ _).mp trace
  have said := call_verdicts called
  rw [verdicts_append,said]
  change UInt32 at code
  by_cases passed : code = Pam.success
  · rw [if_pos passed] at rest
    obtain ⟨same,rfl⟩ := (trace_done _ _ _).mp rest
    cases same
    cases passed
    exact ⟨rfl,rfl⟩
  rw [if_neg passed] at rest
  by_cases due : code = Pam.newAuthtokReqd
  · rw [if_pos due] at rest
    obtain ⟨⟨error,rfl⟩,rfl,text,described⟩ := fail_results rest
    have quiet : verdicts second = [] := by
      rw [verdicts,described]
      rfl
    rw [quiet,due]
    exact ⟨rfl,rfl⟩
  · rw [if_neg due] at rest
    obtain ⟨⟨error,rfl⟩,rfl,_⟩ := fail_results rest
    exact ⟨rfl,trivial⟩

private theorem Succeeds.accountCheck (flags : RunFlags) :
    Succeeds (Runas.accountCheck flags) fun _ results => AccountPassed flags results := by
  intro handle t value after trace
  unfold Runas.accountCheck at trace
  rw [perform_catch] at trace
  obtain ⟨first,⟨result,between⟩,second,rfl,run,rest⟩ := (trace_bind _ _ _ _).mp trace
  obtain ⟨kept,said⟩ := acctMgmt_results run
  cases result with
  | ok =>
    obtain ⟨same,rfl⟩ := (trace_done _ _ _).mp rest
    cases same
    rw [List.append_nil]
    exact ⟨kept,.inl said⟩
  | error error =>
    by_cases due : ∃ reason, error = .pamActionRequired reason
    · obtain ⟨reason,rfl⟩ := due
      by_cases silent : flags.contains .authNoPrompt = true
      · simp only [if_pos silent] at rest
        exact absurd rest (by simp [perform])
      · simp only [if_neg silent] at rest
        obtain ⟨kept',changed⟩ := Succeeds.chauthtok _ between second value after rest
        refine ⟨kept'.trans kept,.inr ⟨by simpa using silent,?_⟩⟩
        rw [verdicts_append,said,changed]
        rfl
    · cases error <;> first
        | exact absurd ⟨_,rfl⟩ due
        | obtain ⟨same,_⟩ := (trace_done _ _ _).mp rest
          cases same

private theorem Succeeds.checkOrDelete (result : UInt32) :
    Succeeds (PamHandle.checkOrDelete result) fun _ results => result = Pam.success ∧ results = [] := by
  intro handle t value after trace
  unfold PamHandle.checkOrDelete at trace
  rw [perform_catch] at trace
  obtain ⟨first,⟨outcome,between⟩,second,rfl,run,rest⟩ := (trace_bind _ _ _ _).mp trace
  cases outcome with
  | ok =>
    obtain ⟨same,rfl⟩ := (trace_done _ _ _).mp rest
    cases same
    rw [List.append_nil]
    exact Succeeds.check result handle first () _ run
  | error error =>
    obtain ⟨_,later,_,_,_,_,_,thrown⟩ := (Succeeds.call (.setcred Pam.deleteCred)).peel rest
    obtain ⟨same,_⟩ := (trace_done _ _ _).mp thrown
    cases same

private theorem openSession_results {handle after : PamHandle} {t : List (Exchange Call Answer)}
    (closed : handle.session = false) (trace : Trace (handle.perform (openSession 0)) t (.ok (),after)) :
    verdicts t = [⟨.setcred Pam.establishCred,Pam.success⟩,⟨.openSession 0,Pam.success⟩] := by
  have shape : handle.perform (openSession 0) = handle.perform (do
      check (← call (.setcred Pam.establishCred))
      checkOrDelete (← call (.openSession 0))
      modify fun handle => { handle with session := true }) := by
    unfold openSession
    rw [perform_bind]
    change handle.perform (if handle.session then _ else _) = _
    rw [closed]
    rfl
  rw [shape] at trace
  obtain ⟨t₁,_,code,_,rfl,_,established,run₁⟩ := (Succeeds.call _).peel trace
  obtain ⟨t₂,_,_,_,rfl,_,⟨rfl,quiet₂⟩,run₂⟩ := (Succeeds.check code).peel run₁
  obtain ⟨t₃,_,code,_,rfl,_,opened,run₃⟩ := (Succeeds.call _).peel run₂
  obtain ⟨t₄,_,_,_,rfl,_,⟨rfl,quiet₄⟩,run₄⟩ := (Succeeds.checkOrDelete code).peel run₃
  obtain ⟨_,rfl⟩ := (trace_done _ _ _).mp run₄
  simp only [verdicts_append,established,quiet₂,opened,quiet₄,verdicts_nil]
  rfl

private theorem Succeeds.ttyItem : Succeeds Runas.ttyItem fun _ results => results = [] := by
  have terminal (event : Call) (about : About [.terminal] event) : Succeeds
      (liftM (query event) : PamM (Answer event)) fun _ results => results = [] :=
    .lift (Program.Uses.ask about) (by decide)
  unfold Runas.ttyItem
  refine (terminal (.isTerminal .stdin) (by simp [About,Call.topic])).bind fun isTerminal _ quiet => ?_
  cases quiet
  split
  · refine (terminal (.ttyname .stdin) (by simp [About,Call.topic])).bind fun name _ quiet => ?_
    cases quiet
    cases name <;> exact .setItem _ _
  · exact .setItem _ _

private theorem Succeeds.getenvlist : Succeeds PamHandle.getenvlist fun _ results => results = [] := by
  unfold PamHandle.getenvlist
  refine (Succeeds.call .getenvlist).bind fun entries results quiet => ?_
  rw [quiet]
  split
  · exact .pure rfl
  · split
    · exact .pure rfl
    · exact .throw _

private theorem drop_verdicts {handle : PamHandle} {t : List (Exchange Call Answer)}
    (closed : handle.session = false) (trace : Trace handle.drop t ()) : verdicts t = [] := by
  have shape : handle.drop = (do
      let _ ← Pam.call (Conv handle.flags) (.finish handle.lastStatus)
      pure () : Calls Unit) := by
    unfold drop
    rw [closed]
    rfl
  rw [shape] at trace
  obtain ⟨_,_,_,rfl,finished,last⟩ := (trace_bind _ _ _ _).mp trace
  obtain ⟨_,rfl⟩ := (trace_done _ _ _).mp last
  rw [List.append_nil]
  exact call_verdicts finished

end PamHandle

open PamHandle

def sessionResults : List PamResult :=
  [⟨.setcred Pam.establishCred,Pam.success⟩,⟨.openSession 0,Pam.success⟩]

/-- What the deciding functions have returned in a login that passed. -/
def LoginPassed (build : Build) (flags : RunFlags) (disableAuth : Bool) (results : List PamResult) : Prop :=
  ∃ account, AccountPassed flags account ∧
    results = (if disableAuth then [] else [⟨.authenticate 0,Pam.success⟩]) ++ account ++
      if build.backend = .scopex then sessionResults else []

private theorem pamLogin_results {build : Build} {user target : Account} {flags : RunFlags}
    {disableAuth : Bool} {handle after : PamHandle} {t : List (Exchange Call Answer)}
    (closed : handle.session = false)
    (trace : Trace (handle.perform (pamLogin build user target flags disableAuth)) t (.ok (),after)) :
    LoginPassed build flags disableAuth (verdicts t) ∧
      (build.backend ≠ .scopex → after.session = false) := by
  have account {before after : PamHandle} {t : List (Exchange Call Answer)}
      (closed : before.session = false) (trace : Trace (before.perform (do
        setItem .ruser user.name
        accountCheck flags
        if build.backend = .scopex then
          setItem .user target.name
          openSession 0)) t (.ok (),after)) :
      (∃ account, AccountPassed flags account ∧
        verdicts t = account ++ if build.backend = .scopex then sessionResults else []) ∧
      (build.backend ≠ .scopex → after.session = false) := by
    obtain ⟨t₁,_,_,_,rfl,kept₁,quiet₁,run₁⟩ := (Succeeds.setItem _ _).peel trace
    obtain ⟨t₂,t₃,_,_,rfl,kept₂,passed,run₂⟩ := (Succeeds.accountCheck flags).peel run₁
    rw [verdicts_append,verdicts_append,quiet₁]
    have closed := kept₂.trans (kept₁.trans closed)
    by_cases scopex : build.backend = .scopex
    · rw [if_pos scopex] at run₂
      obtain ⟨t₄,_,_,_,rfl,kept₄,quiet₄,run₄⟩ := (Succeeds.setItem _ _).peel run₂
      refine ⟨⟨verdicts t₂,passed,?_⟩,fun other => absurd scopex other⟩
      rw [verdicts_append,quiet₄,openSession_results (kept₄.trans closed) run₄,if_pos scopex]
      rfl
    · rw [if_neg scopex] at run₂
      obtain ⟨same,rfl⟩ := (trace_done _ _ _).mp run₂
      cases same
      refine ⟨⟨verdicts t₂,passed,?_⟩,fun _ => closed⟩
      rw [if_neg scopex]
      simp
  unfold pamLogin at trace
  obtain ⟨t₁,t₂,_,_,rfl,kept₁,quiet₁,run₁⟩ := Succeeds.ttyItem.peel trace
  rw [verdicts_append,quiet₁]
  cases disableAuth with
  | true =>
    obtain ⟨⟨results,passed,same⟩,rest⟩ := account (kept₁.trans closed) run₁
    exact ⟨⟨results,passed,by simpa using same⟩,rest⟩
  | false =>
    obtain ⟨t₃,t₄,_,_,rfl,kept₃,authenticated,run₃⟩ := Succeeds.authenticate.peel run₁
    obtain ⟨⟨results,passed,same⟩,rest⟩ := account (kept₃.trans (kept₁.trans closed)) run₃
    refine ⟨⟨results,passed,?_⟩,rest⟩
    rw [verdicts_append,authenticated,same]
    simp

private theorem trace_cstr {text : String} {t : List (Exchange Call Answer)} {c : Text.CString}
    (trace : Trace (cstr text).run t (.ok c)) : t = [] ∧ c.bytes = Text.encode text := by
  unfold cstr at trace
  cases named : Text.CString.new (Text.encode text) with
  | none =>
    rw [named] at trace
    obtain ⟨same,_⟩ := (trace_done _ _ _).mp trace
    cases same
  | some name =>
    rw [named] at trace
    obtain ⟨same,rfl⟩ := (trace_done _ _ _).mp trace
    cases same
    exact ⟨rfl,Text.CString.new_eq_some named⟩

theorem pamStart_results {service username : String} {flags : RunFlags}
    {t : List (Exchange Call Answer)} {handle : PamHandle}
    (trace : Trace (pamStart service username flags).run t (.ok handle)) : handle.session = false ∧
      ∃ cService cUsername : Text.CString, cService.bytes = Text.encode service ∧
        cUsername.bytes = Text.encode username ∧
        pamResults t = [⟨.start cService cUsername,(Pam.success,true)⟩] := by
  unfold pamStart at trace
  obtain ⟨_,cService,_,rfl,named,run₁⟩ := (Fallible.trace_bind_ok _ _ _ _).mp trace
  obtain ⟨_,cUsername,_,rfl,named',run₂⟩ := (Fallible.trace_bind_ok _ _ _ _).mp run₁
  obtain ⟨t₃,⟨result,set⟩,t₄,rfl,called,run₃⟩ := (Fallible.trace_bind_ok _ _ _ _).mp run₂
  obtain ⟨rfl,service⟩ := trace_cstr named
  obtain ⟨rfl,username⟩ := trace_cstr named'
  have said := call_results ((Fallible.trace_lift_ok _ _ _).mp called)
  dsimp only at run₃
  by_cases failed : result ≠ Pam.success
  · rw [if_pos failed] at run₃
    obtain ⟨_,_,_,_,_,thrown⟩ := (Fallible.trace_bind_ok _ _ _ _).mp run₃
    obtain ⟨same,_⟩ := (trace_done _ _ _).mp thrown
    cases same
  rw [if_neg failed] at run₃
  cases set with
  | false =>
    obtain ⟨same,_⟩ := (trace_done _ _ _).mp run₃
    cases same
  | true =>
    obtain ⟨same,rfl⟩ := (trace_done _ _ _).mp run₃
    cases same
    refine ⟨rfl,cService,cUsername,service,username,?_⟩
    rw [← not_not.mp failed,List.append_nil]
    exact said

/-! The fork around the session. -/

section
variable {t : List (Exchange Call Answer)}

private theorem exit_never {α : Type} {code : Int} {result : Except Error α} :
    ¬ Trace (exit code : M α).run t result := by
  intro trace
  cases trace with
  | @call _ _ _ answer => exact nomatch answer

theorem authParent_never {handle : PamHandle} {sync : ForkSync} {child : Pid} {env : EnvMap} :
    ¬ Trace (authParent handle sync child).run t (.ok env) := by
  intro trace
  unfold authParent at trace
  obtain ⟨_,pipe,_,_,_,run₁⟩ := (Fallible.trace_bind_ok _ _ _ _).mp trace
  obtain ⟨_,watched,_,_,_,run₂⟩ := (Fallible.trace_bind_ok _ _ _ _).mp run₁
  have ends {code : Int} {t : List (Exchange Call Answer)}
      (run : Trace (do handle.drop; exit code : M EnvMap).run t (.ok env)) : False := by
    obtain ⟨_,_,_,_,_,exits⟩ := (Fallible.trace_bind_ok _ _ _ _).mp run
    exact exit_never exits
  cases watched with
  | ok code => exact ends run₂
  | error error =>
    obtain ⟨_,_,_,_,_,run₃⟩ := (Fallible.trace_bind_ok _ _ _ _).mp run₂
    exact ends run₃

/-- The process that goes on is the child of the fork, past the barrier. -/
def ChildContinues (t : List (Exchange Call Answer)) : Prop :=
  ∃ before barrier, t = before ++ barrier ∧ forkAnswers before = [.ok .child] ∧
    Trace (ForkEndpoint.mk ForkSync.fresh.childWrite ForkSync.fresh.childRead false).readyAndWait.run barrier
      (.ok .continue)

private theorem new_results {sync : ForkSync} (trace : Trace ForkSync.new.run t (.ok sync)) :
    sync = ForkSync.fresh ∧ verdicts t = [] ∧ forkAnswers t = [] := by
  have pipe {name : Pipe} {t : List (Exchange Call Answer)} {fds : Fd × Fd}
      (trace : Trace (Descriptor.pipe name).run t (.ok fds)) :
      fds = (.pipe name .read,.pipe name .write) ∧ verdicts t = [] ∧ forkAnswers t = [] := by
    obtain ⟨_,answer,_,rfl,asked,run⟩ := (Fallible.trace_bind_ok _ _ _ _).mp trace
    obtain ⟨_,rfl,_⟩ := (Fallible.trace_ask _ _ _).mp asked
    cases answer with
    | error error =>
      obtain ⟨same,_⟩ := (trace_done _ _ _).mp run
      cases same
    | ok =>
      obtain ⟨same,rfl⟩ := (trace_done _ _ _).mp run
      cases same
      exact ⟨rfl,rfl,rfl⟩
  unfold ForkSync.new at trace
  obtain ⟨_,fds,_,rfl,first,run⟩ := (Fallible.trace_bind_ok _ _ _ _).mp trace
  obtain ⟨rfl,quiet,noFork⟩ := pipe first
  obtain ⟨_,fds,_,rfl,second,last⟩ := (Fallible.trace_bind_ok _ _ _ _).mp run
  obtain ⟨rfl,quiet',noFork'⟩ := pipe (Fallible.trace_releasingOnError_ok second)
  obtain ⟨same,rfl⟩ := (trace_done _ _ _).mp last
  cases same
  exact ⟨rfl,by simp [quiet,quiet'],by simp [noFork,noFork']⟩

private theorem authChild_results {env result : EnvMap}
    (trace : Trace (authChild ForkSync.fresh env).run t (.ok result)) : verdicts t = [] ∧
      ∃ before barrier, t = before ++ barrier ∧ forkAnswers before = [] ∧ forkAnswers barrier = [] ∧
        Trace (ForkEndpoint.mk ForkSync.fresh.childWrite ForkSync.fresh.childRead false).readyAndWait.run barrier
          (.ok .continue) := by
  unfold authChild at trace
  obtain ⟨t₁,pipe,_,rfl,converted,run₁⟩ := (Fallible.trace_bind_ok _ _ _ _).mp trace
  obtain ⟨t₂,_,_,rfl,armed,run₂⟩ := (Fallible.trace_bind_ok _ _ _ _).mp run₁
  obtain ⟨t₃,decision,last,rfl,waited,run₃⟩ := (Fallible.trace_bind_ok _ _ _ _).mp run₂
  have closing := (Fallible.trace_lift_ok _ _ _).mp converted
  have closes : ForkSync.fresh.intoChild.Uses (About [.pipes]) :=
    Program.Uses.bind (uses_descriptorDrop _) fun _ => .bind (uses_descriptorDrop _) fun _ => trivial
  have isEndpoint : pipe = ⟨ForkSync.fresh.childWrite,ForkSync.fresh.childRead,false⟩ := by
    obtain ⟨_,_,_,_,_,run⟩ := (trace_bind _ _ _ _).mp closing
    obtain ⟨_,_,_,_,_,last⟩ := (trace_bind _ _ _ _).mp run
    exact ((trace_done _ _ _).mp last).1.symm
  have arms : Fallible.Uses (fun event => event.topic ≠ .pam ∧ event ≠ .fork) (do
      setParentExitSignal .sigkill
      orFail (← ask (.setpgid 0 0)) : M Unit) :=
    .bind (.bind (.ask (by simp [Call.topic])) fun _ => uses_orFail _) fun _ =>
      .bind (.ask (by simp [Call.topic])) fun _ => uses_orFail _
  have arming := (Fallible.trace_releasingOnError_ok armed).uses arms
  have waits := uses_readyAndWait pipe
  have goes : decision = .continue ∧ last = [] := by
    by_cases aborted : decision ≠ .continue
    · rw [if_pos aborted] at run₃
      obtain ⟨same,_⟩ := (trace_done _ _ _).mp run₃
      cases same
    · rw [if_neg aborted] at run₃
      exact ⟨not_not.mp aborted,((trace_done _ _ _).mp run₃).2⟩
  obtain ⟨rfl,rfl⟩ := goes
  refine ⟨?_,t₁ ++ t₂,t₃,by simp,?_,no_forks waited waits (by decide),isEndpoint ▸ waited⟩
  · simp only [verdicts_append,no_verdicts closing closes (by decide),no_verdicts waited waits (by decide),
      verdicts_other fun x member => (arming x member).1,List.append_nil]
  · simp only [forkAnswers_append,no_forks closing closes (by decide),
      forkAnswers_other fun x member => (arming x member).2,List.append_nil]

private theorem authSession_results {handle : PamHandle} {env : EnvMap}
    (trace : Trace (authSession handle).run t (.ok env)) : verdicts t = [] ∧ ChildContinues t := by
  unfold authSession at trace
  obtain ⟨t₁,sync,_,rfl,made,run₁⟩ := (Fallible.trace_bind_ok _ _ _ _).mp trace
  obtain ⟨t₂,⟨listed,handle⟩,_,rfl,asked,run₂⟩ := (Fallible.trace_bind_ok _ _ _ _).mp run₁
  obtain ⟨isFresh,quiet₁,noFork₁⟩ := new_results (Fallible.trace_releasingOnError_ok made)
  cases isFresh
  have listing := (Fallible.trace_lift_ok _ _ _).mp asked
  have noFork₂ := no_forks listing (PamHandle.uses_getenvlist _) (by decide)
  cases listed with
  | error error =>
    obtain ⟨_,_,_,_,_,run₃⟩ := (Fallible.trace_bind_ok _ _ _ _).mp run₂
    obtain ⟨_,_,_,_,_,thrown⟩ := (Fallible.trace_bind_ok _ _ _ _).mp run₃
    obtain ⟨same,_⟩ := (trace_done _ _ _).mp thrown
    cases same
  | ok pamEnv =>
    have quiet₂ := (Succeeds.getenvlist _ _ _ _ listing).2
    unfold authFork at run₂
    obtain ⟨_,answer,t₃,rfl,forked,run₃⟩ := (Fallible.trace_bind_ok _ _ _ _).mp run₂
    obtain ⟨_,rfl,same⟩ := (Fallible.trace_ask _ _ _).mp forked
    cases same
    match answer with
    | .ok .child =>
      obtain ⟨quiet₃,before,barrier,rfl,noFork₃,_,waited⟩ := authChild_results run₃
      have forked : verdicts [(⟨.fork,.ok .child⟩ : Exchange Call Answer)] = [] := rfl
      have once : forkAnswers [(⟨.fork,.ok .child⟩ : Exchange Call Answer)] = [.ok .child] := rfl
      refine ⟨by simp only [verdicts_append,quiet₁,quiet₂,forked,List.nil_append] at quiet₃ ⊢; exact quiet₃,?_⟩
      refine ⟨t₁ ++ (t₂ ++ ([⟨.fork,.ok .child⟩] ++ before)),barrier,by simp,?_,waited⟩
      simp only [forkAnswers_append,noFork₁,noFork₂,noFork₃,once,List.nil_append,List.append_nil]
    | .ok (.parent child) => exact absurd run₃ authParent_never
    | .error error =>
      obtain ⟨_,_,_,_,_,run₄⟩ := (Fallible.trace_bind_ok _ _ _ _).mp run₃
      obtain ⟨_,_,_,_,_,thrown⟩ := (Fallible.trace_bind_ok _ _ _ _).mp run₄
      obtain ⟨same,_⟩ := (trace_done _ _ _).mp thrown
      cases same

/-- What `auth` has done when it comes back: the deciding functions have said that the
login passed, and in a scopex build the process is the child of the only fork. -/
def Entered (build : Build) (user target : Account) (flags : RunFlags) (disableAuth : Bool)
    (t : List (Exchange Call Answer)) : Prop :=
  (∃ (cService cUsername : Text.CString) (login : List PamResult),
    cUsername.bytes = Text.encode (if disableAuth then target.name else user.name) ∧
    verdicts t = ⟨.start cService cUsername,(Pam.success,true)⟩ :: login ∧
    LoginPassed build flags disableAuth login) ∧
  if build.backend = .scopex then ChildContinues t else forkAnswers t = []

private theorem pamAuth_results {build : Build} {user target : Account} {flags : RunFlags}
    {disableAuth : Bool} {env : EnvMap}
    (trace : Trace (pamAuth build user target flags disableAuth).run t (.ok env)) :
    Entered build user target flags (decide (build.backend = .scopex) && disableAuth) t := by
  unfold pamAuth at trace
  obtain ⟨t₁,handle,_,rfl,started,run₁⟩ := (Fallible.trace_bind_ok _ _ _ _).mp trace
  obtain ⟨t₂,⟨result,after⟩,t₃,rfl,login,run₂⟩ := (Fallible.trace_bind_ok _ _ _ _).mp run₁
  obtain ⟨closed,cService,cUsername,_,named,begun⟩ := pamStart_results started
  have start : verdicts t₁ = [⟨.start cService cUsername,(Pam.success,true)⟩] := by
    rw [verdicts,begun]
    rfl
  have noFork₁ := no_forks started (uses_pamStart _ _ _) (by decide)
  have logging := (Fallible.trace_lift_ok _ _ _).mp login
  have noFork₂ := no_forks logging (uses_pamLogin _ _ _ _ _ _) (by decide)
  cases result with
  | error error =>
    obtain ⟨_,_,_,_,_,thrown⟩ := (Fallible.trace_bind_ok _ _ _ _).mp run₂
    obtain ⟨same,_⟩ := (trace_done _ _ _).mp thrown
    cases same
  | ok =>
    obtain ⟨passed,kept⟩ := pamLogin_results closed logging
    dsimp only at run₂
    by_cases scopex : build.backend = .scopex
    · rw [if_pos scopex] at run₂
      obtain ⟨quiet,before,barrier,rfl,once,waited⟩ := authSession_results run₂
      refine ⟨⟨cService,cUsername,verdicts t₂,named,?_,passed⟩,?_⟩
      · rw [verdicts_append,verdicts_append,start,quiet,List.append_nil]
        rfl
      · rw [if_pos scopex]
        refine ⟨t₁ ++ (t₂ ++ before),barrier,by simp,?_,waited⟩
        simp only [forkAnswers_append,noFork₁,noFork₂,once,List.nil_append]
    · rw [if_neg scopex] at run₂
      obtain ⟨t₄,_,_,rfl,dropped,last⟩ := (Fallible.trace_bind_ok _ _ _ _).mp run₂
      obtain ⟨_,rfl⟩ := (trace_done _ _ _).mp last
      have dropping := (Fallible.trace_lift_ok _ _ _).mp dropped
      refine ⟨⟨cService,cUsername,verdicts t₂,named,?_,passed⟩,?_⟩
      · rw [verdicts_append,verdicts_append,verdicts_append,start,drop_verdicts (kept scopex) dropping]
        simp
      · rw [if_neg scopex]
        simp only [forkAnswers_append,noFork₁,noFork₂,no_forks dropping (uses_drop after) (by decide),
          List.append_nil]

/-- The caller's group list, as it was known or as the run has been told it, has the group. -/
def Listed (t : List (Exchange Call Answer)) (user : Account) (gid : Gid) : Prop :=
  (∃ groups, user.groupList = some groups ∧ gid ∈ groups) ∨
    ∃ (name : Text.CString) (groups : List Gid), name.bytes = Text.encode user.name ∧
      (⟨.getgrouplist name user.user.gid,.ok groups⟩ : Exchange Call Answer) ∈ t ∧ gid ∈ groups

def MayRun (t : List (Exchange Call Answer)) (user target : Account) : Prop :=
  user.uid = 0 ∨ (target.uid = user.uid ∧ (target.gid = user.gid ∨ Listed t user target.gid))

def MayAuthenticate (t : List (Exchange Call Answer)) (user : Account) : Prop :=
  ∃ wheel : GroupEntry, (⟨.groupFromName authGroup,.ok (some wheel)⟩ : Exchange Call Answer) ∈ t ∧
    Listed t user wheel.gid

/-- What the question about a group has told of the caller. -/
private def Told (t : List (Exchange Call Answer)) (user after : Account) : Prop :=
  after.user = user.user ∧ after.group = user.group ∧
    ∀ groups, after.groupList = some groups → ∀ gid ∈ groups, Listed t user gid

private theorem Listed.later {user after : Account} {gid : Gid} {before : List (Exchange Call Answer)}
    (told : Told before user after) (listed : Listed t after gid) : Listed (before ++ t) user gid := by
  obtain ⟨same,_,cached⟩ := told
  rcases listed with ⟨groups,known,member⟩ | ⟨name,groups,named,asked,member⟩
  · rcases cached groups known gid member with early | ⟨name,groups,named,asked,member⟩
    · exact .inl early
    · exact .inr ⟨name,groups,named,List.mem_append_left _ asked,member⟩
  · rw [same] at asked
    refine .inr ⟨name,groups,?_,List.mem_append_right _ asked,member⟩
    rw [named,Account.name,same]
    rfl

private theorem groupList_results {user after : Account} {groups : List Gid}
    (trace : Trace user.getGroupList.run t (.ok (groups,after))) :
    Told t user after ∧ ∀ gid ∈ groups, Listed t user gid := by
  unfold Account.getGroupList at trace
  cases known : user.groupList with
  | some cached =>
    rw [known] at trace
    obtain ⟨same,rfl⟩ := (trace_done _ _ _).mp trace
    cases same
    refine ⟨⟨rfl,rfl,fun groups other gid member => .inl ⟨groups,other,member⟩⟩,?_⟩
    exact fun gid member => .inl ⟨groups,known,member⟩
  | none =>
    rw [known] at trace
    obtain ⟨_,name,_,rfl,named,run₁⟩ := (Fallible.trace_bind_ok _ _ _ _).mp trace
    obtain ⟨rfl,bytes⟩ := trace_cstr named
    obtain ⟨_,answer,_,rfl,asked,run₂⟩ := (Fallible.trace_bind_ok _ _ _ _).mp run₁
    obtain ⟨_,rfl,same⟩ := (Fallible.trace_ask _ _ _).mp asked
    cases same
    cases answer with
    | error error =>
      obtain ⟨same,_⟩ := (trace_done _ _ _).mp run₂
      cases same
    | ok list =>
      obtain ⟨same,rfl⟩ := (trace_done _ _ _).mp run₂
      cases same
      have listed (gid : Gid) (member : gid ∈ groups) : Listed ([] ++
          ([⟨.getgrouplist name user.user.gid,.ok groups⟩] ++ [])) user gid :=
        .inr ⟨name,groups,bytes,by simp,member⟩
      refine ⟨⟨rfl,rfl,fun other same => ?_⟩,listed⟩
      cases same
      exact listed

private theorem isMember_results {user after : Account} {group : Group} {member : Bool}
    (trace : Trace (user.isMember group).run t (.ok (member,after))) :
    Told t user after ∧ (member = true → user.uid = 0 ∨ Listed t user group.gid) := by
  unfold Account.isMember at trace
  by_cases root : user.isRoot = true
  · rw [if_pos root] at trace
    obtain ⟨same,rfl⟩ := (trace_done _ _ _).mp trace
    cases same
    refine ⟨⟨rfl,rfl,fun groups other gid member => .inl ⟨groups,other,member⟩⟩,fun _ => .inl ?_⟩
    exact user.isRoot_eq_true.mp root
  · rw [if_neg root] at trace
    obtain ⟨_,⟨groups,between⟩,_,rfl,listing,last⟩ := (Fallible.trace_bind_ok _ _ _ _).mp trace
    obtain ⟨same,rfl⟩ := (trace_done _ _ _).mp last
    cases same
    rw [List.append_nil]
    obtain ⟨told,listed⟩ := groupList_results listing
    refine ⟨told,fun found => .inr ?_⟩
    obtain ⟨gid,member,same⟩ := List.any_eq_true.mp found
    rw [← eq_of_beq same]
    exact listed gid member

private theorem isWheelMember_results {numeric : Char → Bool} {user : Account}
    (trace : Trace (isWheelMember numeric user).run t (.ok true)) :
    user.uid = 0 ∨ MayAuthenticate t user := by
  have byName : Group.lookup numeric authGroup = (do orFail (← ask (.groupFromName authGroup))) :=
    lookupWord_name (by decide) (by simp [authGroup,isNumeric,Text.isDigit])
  unfold isWheelMember Group.fromStr at trace
  rw [byName] at trace
  obtain ⟨t₁,found,t₂,rfl,looked,run⟩ := (Fallible.trace_bind_ok _ _ _ _).mp trace
  obtain ⟨_,entry,_,rfl,named,last⟩ := (Fallible.trace_bind_ok _ _ _ _).mp looked
  obtain ⟨same,rfl⟩ := (trace_done _ _ _).mp last
  cases same
  obtain ⟨_,answer,_,rfl,asked,last⟩ := (Fallible.trace_bind_ok _ _ _ _).mp named
  obtain ⟨_,rfl,same⟩ := (Fallible.trace_ask _ _ _).mp asked
  cases same
  cases answer with
  | error error =>
    obtain ⟨same,_⟩ := (trace_done _ _ _).mp last
    cases same
  | ok answer =>
    obtain ⟨same,rfl⟩ := (trace_done _ _ _).mp last
    cases same
    cases entry with
    | none =>
      obtain ⟨same,_⟩ := (trace_done _ _ _).mp run
      cases same
    | some wheel =>
      obtain ⟨_,⟨member,after⟩,_,rfl,asks,last⟩ := (Fallible.trace_bind_ok _ _ _ _).mp run
      obtain ⟨same,rfl⟩ := (trace_done _ _ _).mp last
      cases same
      rcases (isMember_results asks).2 rfl with root | listed
      · exact .inl root
      · refine .inr ⟨wheel,by simp,?_⟩
        rcases listed with known | ⟨name,groups,named,told,member⟩
        · exact .inl known
        · exact .inr ⟨name,groups,named,by simp [told],member⟩

private theorem hasTargetGroup_results {user target after : Account} {has : Bool}
    (trace : Trace (hasTargetGroup user target).run t (.ok (has,after))) : Told t user after ∧
      (has = true → user.uid = 0 ∨ target.gid = user.gid ∨ Listed t user target.gid) := by
  unfold hasTargetGroup at trace
  by_cases same : target.gid = user.gid
  · rw [if_pos same] at trace
    obtain ⟨ends,rfl⟩ := (trace_done _ _ _).mp trace
    cases ends
    exact ⟨⟨rfl,rfl,fun groups known gid member => .inl ⟨groups,known,member⟩⟩,fun _ => .inr (.inl same)⟩
  · rw [if_neg same] at trace
    obtain ⟨told,listed⟩ := isMember_results trace
    refine ⟨told,fun found => ?_⟩
    rcases listed found with root | listed
    · exact .inl root
    · exact .inr (.inr listed)

private theorem Entered.later {build : Build} {user after target : Account} {flags : RunFlags}
    {disableAuth : Bool} {before : List (Exchange Call Answer)} (same : after.name = user.name)
    (quiet : verdicts before = [] ∧ forkAnswers before = [])
    (entered : Entered build after target flags disableAuth t) :
    Entered build user target flags disableAuth (before ++ t) := by
  obtain ⟨⟨cService,cUsername,login,named,said,passed⟩,process⟩ := entered
  rw [same] at named
  refine ⟨⟨cService,cUsername,login,named,?_,passed⟩,?_⟩
  · rw [verdicts_append,quiet.1,said]
    rfl
  · split at process
    · next scopex =>
      obtain ⟨first,barrier,rfl,once,waited⟩ := process
      rw [if_pos scopex]
      exact ⟨before ++ first,barrier,by simp,by simp [quiet.2,once],waited⟩
    · next other =>
      rw [if_neg other,forkAnswers_append,quiet.2,process]
      rfl

private theorem auth_results {build : Build} (usePam : build.usePam = true) {user target : Account}
    {flags : RunFlags} {disableAuth : Bool} {env : EnvMap}
    (trace : Trace (auth build user target flags disableAuth).run t (.ok env)) :
    Entered build user target flags (decide (build.backend = .scopex) && disableAuth) t := by
  unfold auth at trace
  rw [if_pos usePam] at trace
  exact pamAuth_results trace

private theorem lookup_quiet {α : Type} {x : M α} {value : α} (trace : Trace x.run t (.ok value))
    (used : Fallible.Uses (About [.lookup]) x) : verdicts t = [] ∧ forkAnswers t = [] :=
  ⟨no_verdicts trace used (by decide),no_forks trace used (by decide)⟩

end

private theorem mayRun_of_granted {user target after : Account} {has : Bool} {t : List (Exchange Call Answer)}
    (asked : Trace (hasTargetGroup user target).run t (.ok (has,after)))
    (granted : after.isRoot = true ∨ ((target.uid == after.uid) = true ∧ has = true)) (rest : List (Exchange Call Answer)) :
    MayRun (t ++ rest) user target := by
  obtain ⟨told,belongs⟩ := hasTargetGroup_results asked
  have sameUid : after.uid = user.uid := congrArg User.uid told.1
  rcases granted with root | ⟨identity,member⟩
  · exact .inl (sameUid ▸ after.isRoot_eq_true.mp root)
  · rcases belongs member with root | group | listed
    · exact .inl root
    · exact .inr ⟨(eq_of_beq identity).trans sameUid,.inl group⟩
    · refine .inr ⟨(eq_of_beq identity).trans sameUid,.inr ?_⟩
      rcases listed with known | ⟨name,groups,named,asked,member⟩
      · exact .inl known
      · exact .inr ⟨name,groups,named,List.mem_append_left _ asked,member⟩

/-- The PAM builds let a caller through only after a decision to allow or a login that
passed, with the caller in the wheel group; wherever PAM was entered, account management
and the session have passed; and the only process that comes back is the child. -/
theorem authenticate_pam (numeric : Char → Bool) (build : Build) (usePam : build.usePam = true)
    (user target : Account) (flags : RunFlags) (t : List (Exchange Call Answer)) (env : EnvMap)
    (passed : Trace (authenticate numeric build user target flags).run t (.ok env)) :
    (MayRun t user target ∧
      if build.backend = .scopex then Entered build user target flags true t
      else verdicts t = [] ∧ forkAnswers t = []) ∨
    (nonInteractive flags = false ∧ MayAuthenticate t user ∧ Entered build user target flags false t) := by
  unfold authenticate at passed
  obtain ⟨t₁,⟨has,after⟩,t₂,rfl,asked,run₁⟩ := (Fallible.trace_bind_ok _ _ _ _).mp passed
  have told := (hasTargetGroup_results asked).1
  have quiet := lookup_quiet asked (uses_hasTargetGroup _ _)
  have sameName : after.name = user.name := congrArg User.name told.1
  dsimp only at run₁
  cases decided : authDecision after.isRoot (target.uid == after.uid) has (nonInteractive flags) with
  | deny =>
    rw [decided] at run₁
    obtain ⟨same,_⟩ := (trace_done _ _ _).mp run₁
    cases same
  | allow =>
    rw [decided] at run₁
    have mayRun := mayRun_of_granted asked (authDecision_eq_allow.mp decided) t₂
    refine .inl ⟨mayRun,?_⟩
    by_cases scopex : build.backend = .scopex
    · have supervised : build.supervised = true := by simp [Build.supervised,scopex,usePam]
      simp only [if_pos supervised] at run₁
      rw [if_pos scopex]
      have entered := (auth_results usePam run₁).later sameName quiet
      simpa [scopex] using entered
    · have unsupervised : ¬ build.supervised = true := by simp [Build.supervised,scopex]
      simp only [if_neg unsupervised] at run₁
      obtain ⟨_,rfl⟩ := (trace_done _ _ _).mp run₁
      rw [if_neg scopex,List.append_nil]
      exact quiet
  | authenticate =>
    rw [decided] at run₁
    obtain ⟨interactive,notGranted⟩ := authDecision_eq_authenticate.mp decided
    obtain ⟨t₃,wheel,t₄,rfl,members,run₂⟩ := (Fallible.trace_bind_ok _ _ _ _).mp run₁
    cases wheel with
    | false =>
      obtain ⟨same,_⟩ := (trace_done _ _ _).mp run₂
      cases same
    | true =>
      have quiet' := lookup_quiet members (uses_isWheelMember _ _)
      have entered := ((auth_results usePam run₂).later rfl quiet').later sameName quiet
      rw [Bool.and_false] at entered
      refine .inr ⟨interactive,?_,entered⟩
      rcases isWheelMember_results members with root | ⟨group,looked,listed⟩
      · exact absurd (.inl (after.isRoot_eq_true.mpr root)) notGranted
      · refine ⟨group,by simp [looked],?_⟩
        rcases listed.later told with known | ⟨name,groups,named,asked,member⟩
        · exact .inl known
        · exact .inr ⟨name,groups,named,by simpa using Or.imp_right .inl (List.mem_append.mp asked),member⟩

def supervisedBuild : Build := ⟨.scopex,true,false,false,none,Build.kept⟩

def aliceLogin : List (Exchange Call Answer) :=
  let name text := Text.CString.ofBuffer (Text.encode text)
  [⟨.getgrouplist (name "alice") 1000,.ok [1000,10]⟩,⟨.groupFromName "wheel",.ok (some ⟨"wheel",10⟩)⟩,
    ⟨.pam (.start (name "runas") (name "alice")),.returned (Pam.success,true)⟩,⟨.isTerminal .stdin,false⟩,
    ⟨.pam (.setItem .tty (name "/runas")),.returned Pam.success⟩,
    ⟨.pam (.authenticate 0),.converse ⟨1,some [some ⟨Pam.promptEchoOff,some (Text.encode "Password: ")⟩],true⟩⟩,
    ⟨.calloc 1,.ok ()⟩,⟨.askPassword "Password: " .promptHide,.ok "secret"⟩,⟨.strdup (Text.encode "secret"),.ok ()⟩,
    ⟨.pamReply (.authenticate 0) ⟨Pam.success,some [some (Text.encode "secret")]⟩,.returned Pam.success⟩,
    ⟨.pam (.setItem .ruser (name "alice")),.returned Pam.success⟩,⟨.pam (.acctMgmt 0),.returned Pam.success⟩,
    ⟨.pam (.setItem .user (name "root")),.returned Pam.success⟩,
    ⟨.pam (.setcred Pam.establishCred),.returned Pam.success⟩,⟨.pam (.openSession 0),.returned Pam.success⟩,
    ⟨.pipe (.status .child) true,.ok ()⟩,⟨.pipe (.status .parent) true,.ok ()⟩,⟨.pam .getenvlist,.returned none⟩,
    ⟨.fork,.ok .child⟩,⟨.close (.pipe (.status .child) .read),.ok ()⟩,
    ⟨.close (.pipe (.status .parent) .write),.ok ()⟩,⟨.setParentDeathSignal .sigkill,.ok ()⟩,
    ⟨.setpgid 0 0,.ok ()⟩,⟨.write (.pipe (.status .child) .write) [statusReady],.ok 1⟩,
    ⟨.close (.pipe (.status .child) .write),.ok ()⟩,⟨.read (.pipe (.status .parent) .read) 1,.ok [statusReady]⟩,
    ⟨.close (.pipe (.status .parent) .read),.ok ()⟩]

theorem authenticate_pam_alice :
    MayAuthenticate aliceLogin alice ∧ Entered supervisedBuild alice root .none false aliceLogin := by
  have passed : Trace (authenticate (fun _ => false) supervisedBuild alice root .none).run aliceLogin
      (.ok ∅) := replay_sound 200 rfl
  rcases authenticate_pam (fun _ => false) supervisedBuild rfl alice root .none aliceLogin ∅ passed with
    ⟨root | ⟨identity,_⟩,_⟩ | ⟨_,member,entered⟩
  · exact absurd root (by decide)
  · exact absurd identity (by decide)
  · exact ⟨member,entered⟩

end Runas
