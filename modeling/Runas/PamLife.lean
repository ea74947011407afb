import Runas.PamGate

/-! The life of a PAM handle: any calls of its methods, in any order and with any results,
and then its drop. What it has done to the credentials and to the session is read off the
functions of the library it has called. -/
namespace Runas
open Interaction

/-- What a call of the library does to the credentials, the session and the transaction. -/
inductive Deed
  | established (granted : Bool)
  | deleted
  | opened (granted : Bool)
  | closed (granted : Bool)
  | ended
  deriving DecidableEq

def deed : PamResult → Option Deed
  | ⟨.setcred flags,code⟩ =>
    if flags = Pam.establishCred then some (.established (code == Pam.success))
    else if flags = Pam.deleteCred then some .deleted
    else none
  | ⟨.openSession _,code⟩ => some (.opened (code == Pam.success))
  | ⟨.closeSession _,code⟩ => some (.closed (code == Pam.success))
  | ⟨.finish _,_⟩ => some .ended
  | _ => none

def deeds (t : List (Exchange Call Answer)) : List Deed := (pamResults t).filterMap deed

@[simp] theorem deeds_nil : deeds [] = [] := rfl

@[simp] theorem deeds_append (a b : List (Exchange Call Answer)) : deeds (a ++ b) = deeds a ++ deeds b := by
  simp [deeds]

namespace Deed

def credential : Deed → Bool
  | established _ | deleted => true
  | _ => false

def session : Deed → Bool
  | opened _ | closed _ => true
  | _ => false

/-- The deeds before which established credentials must be deleted. -/
def boundary : Deed → Bool
  | established _ | ended => true
  | _ => false

end Deed

/-- Credentials are established and not deleted since, and a session is open. -/
def InSession (done : List Deed) : Prop :=
  (done.filter Deed.credential).getLast? = some (.established true) ∧
    (done.filter Deed.session).getLast? = some (.opened true)

/-- Credentials that were established are deleted once before the next are, or the end. -/
def Paired (done : List Deed) : Prop :=
  ∀ before after,done = before ++ .established true :: after →
    (after.takeWhile fun next => !next.boundary).count .deleted = 1

/-- The transaction is ended once, and last. -/
def EndedOnce (results : List PamResult) : Prop :=
  ∃ before status code,results = before ++ [⟨.finish status,code⟩] ∧
    ∀ result ∈ before,∀ status,result.1 ≠ .finish status

/-- The methods of the handle that a program can call. -/
inductive Method
  | authenticate (flags : UInt32)
  | acctMgmt (flags : UInt32)
  | chauthtok (flags : UInt32)
  | openSession (flags : UInt32)
  | closeSession (flags : UInt32)
  | setItem (item : PamItem) (value : String)
  | getenvlist
  | error (code : UInt32)

namespace Method

def call : Method → PamM Unit
  | authenticate flags => PamHandle.authenticate flags
  | acctMgmt flags => PamHandle.acctMgmt flags
  | chauthtok flags => PamHandle.chauthtok flags
  | openSession flags => PamHandle.openSession flags
  | closeSession flags => PamHandle.closeSession flags
  | setItem item value => PamHandle.setItem item value
  | getenvlist => do
    let _ ← PamHandle.getenvlist
  | error code => do
    let handle ← get
    let _ ← (Pam.errorOf (Conv handle.flags) code : Calls PamError)

end Method

/-- A call of a method that has returned. -/
structure Returned where
  method : Method
  trace : List (Exchange Call Answer)
  result : Except Error Unit

/-- The calls are made one after the other, each on the handle the one before has left. -/
inductive Lived : PamHandle → List Returned → PamHandle → Prop
  | nil (handle : PamHandle) : Lived handle [] handle
  | cons {handle between after : PamHandle} {call : Returned} {rest : List Returned}
      (run : Trace (handle.perform call.method.call) call.trace (call.result,between))
      (lived : Lived between rest after) : Lived handle (call :: rest) after

def traceOf (calls : List Returned) : List (Exchange Call Answer) := calls.flatMap Returned.trace

namespace PamHandle
variable {α β : Type} {handle after : PamHandle} {t : List (Exchange Call Answer)}

theorem perform_get (f : PamHandle → PamM α) (handle : PamHandle) :
    handle.perform (get >>= f) = handle.perform (f handle) := by
  rw [perform_bind]
  rfl

theorem trace_called {function : PamFunction} {f : PamReturn function → PamM α} {out : Except Error α × PamHandle}
    (trace : Trace (handle.perform (call function >>= f)) t out) : ∃ value first second,t = first ++ second ∧
      pamResults first = [⟨function,value⟩] ∧ Trace (handle.perform (f value)) second out := by
  rw [perform_bind,perform_call,Program.bind_assoc] at trace
  obtain ⟨first,value,second,rfl,called,rest⟩ := (trace_bind _ _ _ _).mp trace
  exact ⟨value,first,second,rfl,call_results called,rest⟩

/-- A method that leaves the session and the credentials alone, however it ends. -/
def Idle (x : PamM α) : Prop := ∀ (handle : PamHandle) t result (after : PamHandle),
  Trace (handle.perform x) t (result,after) → after.session = handle.session ∧ deeds t = []

namespace Idle

theorem pure (value : α) : Idle (Pure.pure value) := by
  intro handle t result after trace
  obtain ⟨same,rfl⟩ := (trace_done _ _ _).mp trace
  cases same
  exact ⟨rfl,rfl⟩

theorem throw (error : Error) : Idle (MonadExcept.throw error : PamM α) := by
  intro handle t result after trace
  obtain ⟨same,rfl⟩ := (trace_done _ _ _).mp trace
  cases same
  exact ⟨rfl,rfl⟩

theorem note (status : UInt32) : Idle (modify fun handle => { handle with lastStatus := status }) := by
  intro handle t result after trace
  obtain ⟨same,rfl⟩ := (trace_done _ _ _).mp trace
  cases same
  exact ⟨rfl,rfl⟩

theorem bind {x : PamM α} {f : α → PamM β} (first : Idle x) (rest : ∀ value,Idle (f value)) : Idle (x >>= f) := by
  intro handle t result after trace
  rw [perform_bind] at trace
  obtain ⟨early,⟨ended,between⟩,late,rfl,run,last⟩ := (trace_bind _ _ _ _).mp trace
  obtain ⟨kept,quiet⟩ := first handle early ended between run
  cases ended with
  | error error =>
    obtain ⟨same,rfl⟩ := (trace_done _ _ _).mp last
    cases same
    rw [List.append_nil]
    exact ⟨kept,quiet⟩
  | ok value =>
    obtain ⟨kept',quiet'⟩ := rest value between late result after last
    rw [deeds_append,quiet,quiet']
    exact ⟨kept'.trans kept,rfl⟩

theorem call {function : PamFunction} (other : ∀ value,deed ⟨function,value⟩ = none) :
    Idle (PamHandle.call function) := by
  intro handle t result after trace
  rw [perform_call] at trace
  obtain ⟨first,value,last,rfl,run,ended⟩ := (trace_bind _ _ _ _).mp trace
  obtain ⟨same,rfl⟩ := (trace_done _ _ _).mp ended
  cases same
  rw [List.append_nil,deeds,call_results run]
  exact ⟨rfl,by simp [other]⟩

theorem fail (wrap : PamError → Error) (code : UInt32) : Idle (PamHandle.fail wrap code : PamM α) := by
  intro handle t result after trace
  obtain ⟨_,rfl,text,described⟩ := fail_results trace
  rw [deeds,described]
  exact ⟨rfl,rfl⟩

theorem check (code : UInt32) : Idle (PamHandle.check code) := by
  unfold PamHandle.check
  refine (Idle.note code).bind fun _ => ?_
  split
  · exact .fail _ _
  · exact .pure _

end Idle

theorem deeds_called {function : PamFunction} {value : PamReturn function} (called : pamResults t = [⟨function,value⟩]) :
    deeds t = (deed ⟨function,value⟩).toList := by
  rw [deeds,called]
  cases known : deed ⟨function,value⟩ <;> simp [known]

/-- A check of a code: it fails when the code is not success, after the cleanup, and leaves
the session as it was. -/
def Checks (x : PamM Unit) (code : UInt32) (cleanup : List Deed) : Prop :=
  ∀ (handle : PamHandle) t result (after : PamHandle),Trace (handle.perform x) t (result,after) →
    after.session = handle.session ∧ if code = Pam.success then result = .ok () ∧ deeds t = []
      else (∃ error,result = .error error) ∧ deeds t = cleanup

theorem checks_check (code : UInt32) : Checks (check code) code [] := by
  intro handle t result after trace
  obtain ⟨kept,quiet⟩ := Idle.check code handle t result after trace
  refine ⟨kept,?_⟩
  unfold check at trace
  rw [perform_bind] at trace
  change Trace ({ handle with lastStatus := code }.perform (if code ≠ Pam.success then fail .pam code else pure ())) _ _ at trace
  by_cases passed : code = Pam.success
  · rw [if_neg (not_not.mpr passed)] at trace
    obtain ⟨same,_⟩ := (trace_done _ _ _).mp trace
    cases same
    rw [if_pos passed]
    exact ⟨rfl,quiet⟩
  · rw [if_pos passed] at trace
    obtain ⟨⟨error,rfl⟩,_⟩ := fail_results trace
    rw [if_neg passed]
    exact ⟨⟨_,rfl⟩,quiet⟩

theorem checks_checkOrDelete (code : UInt32) : Checks (checkOrDelete code) code [.deleted] := by
  intro handle t result after trace
  unfold checkOrDelete at trace
  rw [perform_catch] at trace
  obtain ⟨first,⟨checked,between⟩,second,rfl,run,rest⟩ := (trace_bind _ _ _ _).mp trace
  obtain ⟨kept,ends⟩ := checks_check code handle first checked between run
  by_cases passed : code = Pam.success
  · rw [if_pos passed] at ends ⊢
    obtain ⟨rfl,quiet⟩ := ends
    obtain ⟨same,rfl⟩ := (trace_done _ _ _).mp rest
    cases same
    exact ⟨kept,rfl,by simpa using quiet⟩
  · rw [if_neg passed] at ends ⊢
    obtain ⟨⟨error,rfl⟩,quiet⟩ := ends
    obtain ⟨value,deletion,last,rfl,called,thrown⟩ := trace_called rest
    obtain ⟨same,rfl⟩ := (trace_done _ _ _).mp thrown
    cases same
    refine ⟨kept,⟨error,rfl⟩,?_⟩
    rw [deeds_append,quiet,deeds_append,deeds_called called]
    rfl

theorem Checks.trace {x : PamM Unit} {code : UInt32} {cleanup : List Deed} (checks : Checks x code cleanup)
    {f : Unit → PamM α} {result : Except Error α} (trace : Trace (handle.perform (x >>= f)) t (result,after)) :
    (code ≠ Pam.success ∧ (∃ error,result = .error error) ∧ after.session = handle.session ∧ deeds t = cleanup) ∨
      code = Pam.success ∧ ∃ (between : PamHandle) (second : List (Exchange Call Answer)),between.session = handle.session ∧ deeds t = deeds second ∧
        Trace (between.perform (f ())) second (result,after) := by
  rw [perform_bind] at trace
  obtain ⟨first,⟨checked,between⟩,second,rfl,run,rest⟩ := (trace_bind _ _ _ _).mp trace
  obtain ⟨kept,ends⟩ := checks handle first checked between run
  by_cases passed : code = Pam.success
  · rw [if_pos passed] at ends
    obtain ⟨rfl,quiet⟩ := ends
    exact .inr ⟨passed,between,second,kept,by simp [quiet],rest⟩
  · rw [if_neg passed] at ends
    obtain ⟨⟨error,rfl⟩,done⟩ := ends
    obtain ⟨same,rfl⟩ := (trace_done _ _ _).mp rest
    cases same
    exact .inl ⟨passed,⟨error,rfl⟩,kept,by simpa using done⟩

end PamHandle

open PamHandle

/-- Every way a call can end: by the session flag it finds, what it has done, its result, and
the flag it leaves. -/
inductive Does : Method → Bool → List Deed → Except Error Unit → Bool → Prop
  | idle {method : Method} (session : Bool) (result : Except Error Unit) (opens : ∀ flags,method ≠ .openSession flags)
      (closes : ∀ flags,method ≠ .closeSession flags) : Does method session [] result session
  | standing (flags : UInt32) : Does (.openSession flags) true [] (.ok ()) true
  | refused (flags : UInt32) (error : Error) : Does (.openSession flags) false [.established false] (.error error) false
  | unopened (flags : UInt32) (error : Error) :
      Does (.openSession flags) false [.established true,.opened false,.deleted] (.error error) false
  | opened (flags : UInt32) : Does (.openSession flags) false [.established true,.opened true] (.ok ()) true
  | absent (flags : UInt32) : Does (.closeSession flags) false [] (.ok ()) false
  | stuck (flags : UInt32) (error : Error) : Does (.closeSession flags) true [.closed false,.deleted] (.error error) true
  | closed (flags : UInt32) (result : Except Error Unit) :
      Does (.closeSession flags) true [.closed true,.deleted] result false

/-- What the drop of a handle does before the end of the transaction. -/
def Closes (session : Bool) (closing : List Deed) : Prop :=
  if session = true then ∃ granted,closing = [.closed granted,.deleted] else closing = []

section
variable {handle after : PamHandle} {t : List (Exchange Call Answer)} {result : Except Error Unit}

private theorem idle_setItem (item : PamItem) (value : String) : Idle (setItem item value) := by
  unfold setItem
  split
  · exact .throw _
  · exact .bind (.call fun _ => rfl) fun _ => .check _

private theorem idle_acctMgmt (flags : UInt32) : Idle (acctMgmt flags) := by
  unfold acctMgmt
  refine .bind (.call fun _ => rfl) fun result => .bind (.note _) fun _ => ?_
  split
  · exact .pure _
  · split
    · exact .fail _ _
    · exact .fail _ _

private theorem idle_getenvlist : Idle getenvlist := by
  unfold getenvlist
  refine .bind (.call fun _ => rfl) fun entries => ?_
  split
  · exact .pure _
  · split
    · exact .pure _
    · exact .throw _

private theorem idle_error (code : UInt32) : Idle (Method.error code).call := by
  intro handle t result after trace
  change Trace (handle.perform (get >>= fun handle => _)) t (result,after) at trace
  rw [perform_get,perform_bind,perform_lift,Program.bind_assoc] at trace
  obtain ⟨first,described,last,rfl,run,ended⟩ := (trace_bind _ _ _ _).mp trace
  obtain ⟨same,rfl⟩ := (trace_done _ _ _).mp ended
  cases same
  obtain ⟨text,said⟩ := errorOf_results run
  rw [List.append_nil,deeds,said]
  exact ⟨rfl,rfl⟩

private theorem openSession_does {flags : UInt32} (trace : Trace (handle.perform (openSession flags)) t (result,after)) :
    Does (.openSession flags) handle.session (deeds t) result after.session := by
  unfold openSession at trace
  rw [perform_get] at trace
  cases found : handle.session with
  | true =>
    rw [found] at trace
    obtain ⟨same,rfl⟩ := (trace_done _ _ _).mp trace
    cases same
    rw [found]
    exact .standing flags
  | false =>
    rw [found] at trace
    obtain ⟨code,asked,_,rfl,called,run⟩ := trace_called trace
    rw [deeds_append,deeds_called called]
    change UInt32 at code
    rcases (checks_check code).trace run with ⟨failed,⟨error,rfl⟩,kept,quiet⟩ | ⟨passed,between,_,kept,same,run⟩
    · rw [kept,found,quiet]
      simpa [deed,beq_eq_false_iff_ne.mpr failed] using Does.refused flags error
    obtain ⟨code',asked',_,rfl,called',run⟩ := trace_called run
    rw [same,deeds_append,deeds_called called']
    change UInt32 at code'
    rcases (checks_checkOrDelete code').trace run with ⟨failed,⟨error,rfl⟩,kept',cleaned⟩ | ⟨passed',_,_,_,same',run⟩
    · rw [kept',kept,found,cleaned]
      simpa [deed,passed,beq_eq_false_iff_ne.mpr failed] using Does.unopened flags error
    · obtain ⟨ended,rfl⟩ := (trace_done _ _ _).mp run
      cases ended
      rw [same']
      simpa [deed,passed,passed'] using Does.opened flags

private theorem closeSession_does {flags : UInt32} (trace : Trace (handle.perform (closeSession flags)) t (result,after)) :
    Does (.closeSession flags) handle.session (deeds t) result after.session := by
  unfold closeSession at trace
  rw [perform_get] at trace
  cases found : handle.session with
  | false =>
    rw [found] at trace
    obtain ⟨same,rfl⟩ := (trace_done _ _ _).mp trace
    cases same
    rw [found]
    exact .absent flags
  | true =>
    rw [found] at trace
    obtain ⟨code,asked,_,rfl,called,run⟩ := trace_called trace
    rw [deeds_append,deeds_called called]
    change UInt32 at code
    rcases (checks_checkOrDelete code).trace run with ⟨failed,⟨error,rfl⟩,kept,cleaned⟩ | ⟨passed,between,_,_,same,run⟩
    · rw [kept,found,cleaned]
      simpa [deed,beq_eq_false_iff_ne.mpr failed] using Does.stuck flags error
    rw [same]
    obtain ⟨code',asked',last,rfl,called',run⟩ := trace_called
      (show Trace ({ between with session := false }.perform (call (.setcred Pam.deleteCred) >>= check)) _ _ from run)
    obtain ⟨kept,quiet⟩ := Idle.check _ _ _ _ _ run
    rw [kept,deeds_append,deeds_called called',quiet]
    simpa [deed,passed,Pam.deleteCred,Pam.establishCred] using Does.closed flags result

theorem call_does {method : Method} (trace : Trace (handle.perform method.call) t (result,after)) :
    Does method handle.session (deeds t) result after.session := by
  have idles (opens : ∀ flags,method ≠ .openSession flags) (closes : ∀ flags,method ≠ .closeSession flags)
      (idle : Idle method.call) : Does method handle.session (deeds t) result after.session := by
    obtain ⟨kept,quiet⟩ := idle handle t result after trace
    rw [kept,quiet]
    exact .idle _ _ opens closes
  cases method with
  | openSession flags => exact openSession_does trace
  | closeSession flags => exact closeSession_does trace
  | authenticate _ | chauthtok _ => exact idles nofun nofun (.bind (.call fun _ => rfl) fun _ => .check _)
  | acctMgmt flags => exact idles nofun nofun (idle_acctMgmt flags)
  | setItem item value => exact idles nofun nofun (idle_setItem item value)
  | getenvlist => exact idles nofun nofun (.bind idle_getenvlist fun _ => .pure _)
  | error code => exact idles nofun nofun (idle_error code)

private theorem drop_does (trace : Trace handle.drop t ()) : ∃ closing status code,
    pamResults t = pamResults closing ++ [⟨.finish status,code⟩] ∧
      Closes handle.session (deeds closing) := by
  have finishes {handle : PamHandle} {t : List (Exchange Call Answer)} (trace : Trace (do
      let _ ← Pam.call (Conv handle.flags) (.finish handle.lastStatus)
      pure () : Calls Unit) t ()) : ∃ status code,pamResults t = [⟨.finish status,code⟩] := by
    obtain ⟨first,code,last,rfl,run,ended⟩ := (trace_bind _ _ _ _).mp trace
    obtain ⟨_,rfl⟩ := (trace_done _ _ _).mp ended
    rw [List.append_nil]
    exact ⟨_,code,call_results run⟩
  unfold drop at trace
  cases found : handle.session with
  | false =>
    rw [found] at trace
    obtain ⟨status,code,ended⟩ := @finishes handle t trace
    exact ⟨[],status,code,ended,rfl⟩
  | true =>
    rw [found] at trace
    obtain ⟨closing,⟨result,between⟩,last,rfl,closed,ending⟩ := (trace_bind _ _ _ _).mp trace
    obtain ⟨status,code,ended⟩ := @finishes between last ending
    refine ⟨closing,status,code,by rw [pamResults_append,ended],?_⟩
    have does := closeSession_does closed
    rw [found] at does
    generalize deeds closing = done at does ⊢
    generalize between.session = left at does
    cases does with
    | idle _ _ _ closes => exact absurd rfl (closes 0)
    | stuck _ error => exact ⟨false,rfl⟩
    | closed _ result => exact ⟨true,rfl⟩

private theorem finish_ended {status : UInt32} {code : PamReturn (.finish status)}
    (member : (⟨.finish status,code⟩ : PamResult) ∈ pamResults t) : .ended ∈ deeds t :=
  List.mem_filterMap.mpr ⟨_,member,rfl⟩

theorem closed_refused : .closed false ∉ deeds t ↔ ∀ (flags code : UInt32),
    (⟨.closeSession flags,code⟩ : PamResult) ∈ pamResults t → code = Pam.success := by
  constructor
  · intro absent flags code member
    by_contra failed
    refine absent (List.mem_filterMap.mpr ⟨_,member,?_⟩)
    simp [deed,beq_eq_false_iff_ne.mpr failed]
  · intro closes member
    obtain ⟨⟨function,code⟩,member,same⟩ := List.mem_filterMap.mp member
    cases function with
    | closeSession flags =>
      change some (Deed.closed _) = _ at same
      rw [closes flags code member] at same
      cases same
    | setcred flags =>
      change (if _ then _ else if _ then _ else _) = _ at same
      split at same
      · cases same
      · split at same <;> cases same
    | _ => cases same

end

/-! The credentials alone: how often those that are pending have been deleted. -/

/-- The next deed, when it may come: nothing pending, or pending and deleted as often as counted. -/
def tally : Option Nat → Deed → Option (Option Nat)
  | pending,.established granted =>
    if pending = none ∨ pending = some 1 then some (if granted then some 0 else none) else none
  | pending,.ended => if pending = none ∨ pending = some 1 then some none else none
  | pending,.deleted => some (pending.map (· + 1))
  | pending,_ => some pending

def audit (done : List Deed) : Option (Option Nat) := done.foldlM tally none

theorem audit_append (done more : List Deed) : audit (done ++ more) = (audit done).bind (more.foldlM tally) :=
  List.foldlM_append

private theorem paired_cons (next : Deed) (done : List Deed) : Paired (next :: done) ↔
    (next = .established true → (done.takeWhile fun next => !next.boundary).count .deleted = 1) ∧ Paired done := by
  constructor
  · intro paired
    refine ⟨fun same => paired [] done (by rw [same]; rfl),fun before after split => ?_⟩
    exact paired (next :: before) after (by rw [split]; rfl)
  · rintro ⟨first,rest⟩ before after split
    cases before with
    | nil =>
      cases split
      exact first rfl
    | cons head before =>
      cases split
      exact rest before after rfl

private def Clear (pending : Option Nat) : Prop := pending = none ∨ pending = some 1

private theorem clear_iff (pending : Option Nat) : Clear pending ↔ ∀ n,pending = some n → n = 1 := by
  cases pending <;> simp [Clear]

private theorem tally_paired (done : List Deed) (pending : Option Nat) :
    (∃ rest,done.foldlM tally pending = some rest ∧ Clear rest) ↔
      (∀ n,pending = some n → n + (done.takeWhile fun next => !next.boundary).count .deleted = 1) ∧ Paired done := by
  induction done generalizing pending with
  | nil =>
    have paired : Paired [] := by simp [Paired]
    simpa [paired] using clear_iff pending
  | cons next done ih =>
    rw [paired_cons,List.foldlM_cons]
    have boundary (rest : Option Nat) (clear : Clear pending → (tally pending next) = some rest)
        (blocked : ¬ Clear pending → tally pending next = none) :
        (∃ rest,(tally pending next >>= fun s => done.foldlM tally s) = some rest ∧ Clear rest) ↔
          Clear pending ∧ (∀ n,rest = some n → n + (done.takeWhile fun next => !next.boundary).count .deleted = 1) ∧
            Paired done := by
      by_cases may : Clear pending
      · rw [clear may]
        simpa [may] using ih rest
      · rw [blocked may]
        simp [may]
    cases next with
    | established granted =>
      rw [boundary (if granted then some 0 else none) (fun may => if_pos may) (fun may => if_neg may),clear_iff]
      cases granted <;> simp [Deed.boundary]
    | ended =>
      rw [boundary none (fun may => if_pos may) (fun may => if_neg may),clear_iff]
      simp [Deed.boundary]
    | deleted =>
      have counted := ih (pending.map (· + 1))
      cases pending with
      | none => simpa [tally,Deed.boundary] using counted
      | some n => simpa [tally,Deed.boundary,Nat.add_assoc,Nat.add_comm 1] using counted
    | opened _ | closed _ => simpa [tally,Deed.boundary] using ih pending

/-- The credentials are paired just when the audit passes and ends with nothing left to delete. -/
theorem paired_iff (done : List Deed) : Paired done ↔ ∃ rest,audit done = some rest ∧ Clear rest := by
  rw [audit,tally_paired]
  simp

/-! What the session flag says of the credentials, over the life of the handle. -/

/-- The flag describes the library: a session is open and its credentials stand, or nothing
is left to delete. -/
def Sound (session : Bool) (done : List Deed) : Prop :=
  if session = true then audit done = some (some 0) ∧ InSession done else Paired done

/-- The credentials have been deleted once too often, or will be. -/
def Spoiled (session : Bool) (done : List Deed) : Prop :=
  ∀ pending,audit done = some pending → ∃ n,pending = some n ∧ (if session = true then 1 else 2) ≤ n

section
variable {method : Method} {session after : Bool} {done more : List Deed} {result : Except Error Unit}

private theorem Closes.unended (closes : Closes session more) : .ended ∉ more := by
  cases session with
  | true =>
    obtain ⟨granted,rfl⟩ := closes
    simp
  | false =>
    obtain rfl : more = [] := closes
    simp

private theorem InSession.opened : InSession (done ++ [.established true,.opened true]) := by
  simp [InSession,List.filter_append,Deed.credential,Deed.session]

private theorem audit_of_paired (paired : Paired done) :
    audit (done ++ more) = more.foldlM tally none ∨ audit (done ++ more) = more.foldlM tally (some 1) := by
  obtain ⟨rest,audited,rfl | rfl⟩ := (paired_iff done).mp paired
  · exact .inl (by rw [audit_append,audited]; rfl)
  · exact .inr (by rw [audit_append,audited]; rfl)

private theorem Does.unended (does : Does method session more result after) : .ended ∉ more := by
  cases does <;> simp

private theorem Does.opens {flags : UInt32} (does : Does (.openSession flags) session more (.ok ()) after) :
    after = true ∧ .closed false ∉ more := by
  cases does with
  | idle _ _ opens => exact absurd rfl (opens flags)
  | standing | opened => exact ⟨rfl,by simp⟩

theorem Sound.step (sound : Sound session done) (does : Does method session more result after)
    (closes : .closed false ∉ more) : Sound after (done ++ more) := by
  cases does with
  | idle | standing | absent => simpa using sound
  | refused =>
    rcases @audit_of_paired done [.established false] sound with audited | audited
    · exact (paired_iff _).mpr ⟨none,audited,.inl rfl⟩
    · exact (paired_iff _).mpr ⟨none,audited,.inl rfl⟩
  | unopened =>
    rcases @audit_of_paired done [.established true,.opened false,.deleted] sound with audited | audited
    · exact (paired_iff _).mpr ⟨some 1,audited,.inr rfl⟩
    · exact (paired_iff _).mpr ⟨some 1,audited,.inr rfl⟩
  | opened =>
    rcases @audit_of_paired done [.established true,.opened true] sound with audited | audited
    · exact ⟨audited,.opened⟩
    · exact ⟨audited,.opened⟩
  | stuck => simp at closes
  | closed =>
    refine (paired_iff _).mpr ⟨some 1,?_,.inr rfl⟩
    rw [audit_append,sound.1]
    rfl

/-- A session that could not be closed leaves its flag, and its credentials have been deleted. -/
theorem Sound.spoil (sound : Sound session done) (does : Does method session more result after)
    (stuck : .closed false ∈ more) : Spoiled after (done ++ more) := by
  cases does with
  | stuck =>
    intro pending audited
    rw [audit_append,sound.1] at audited
    cases audited
    exact ⟨1,rfl,le_rfl⟩
  | _ => simp at stuck

private theorem late_blocked {n : Nat} {next : Deed} (late : 2 ≤ n) (boundary : next.boundary = true) :
    tally (some n) next = none := by
  have blocked : ¬ ((some n : Option Nat) = none ∨ some n = some 1) := by
    simp only [Option.some.injEq,reduceCtorEq,false_or]
    omega
  cases next with
  | established _ | ended => exact if_neg blocked
  | _ => cases boundary

theorem Spoiled.step (spoiled : Spoiled session done) (does : Does method session more result after) :
    Spoiled after (done ++ more) := by
  intro pending audited
  rw [audit_append] at audited
  obtain ⟨before,audited,tallied⟩ := Option.bind_eq_some_iff.mp audited
  obtain ⟨n,rfl,bound⟩ := spoiled before audited
  have again (granted : Bool) (next : List Deed) (late : 2 ≤ n)
      (tallied : (Deed.established granted :: next).foldlM tally (some n) = some pending) : False := by
    rw [List.foldlM_cons,late_blocked late rfl] at tallied
    cases tallied
  cases does with
  | idle | standing | absent =>
    cases tallied
    exact ⟨n,rfl,bound⟩
  | refused | unopened | opened => exact (again _ _ bound tallied).elim
  | stuck =>
    cases tallied
    exact ⟨n + 1,rfl,Nat.le_add_left 1 n⟩
  | closed =>
    cases tallied
    exact ⟨n + 1,rfl,Nat.succ_le_succ bound⟩

theorem Sound.ends (sound : Sound session done) (closes : Closes session more) :
    Paired (done ++ (more ++ [.ended])) := by
  refine (paired_iff _).mpr ⟨none,?_,.inl rfl⟩
  cases session with
  | true =>
    obtain ⟨granted,rfl⟩ := closes
    rw [audit_append,sound.1]
    rfl
  | false =>
    obtain rfl : more = [] := closes
    rcases @audit_of_paired done [.ended] sound with audited | audited <;> exact audited

theorem Spoiled.ends (spoiled : Spoiled session done) (closes : Closes session more) :
    ¬ Paired (done ++ (more ++ [.ended])) := by
  intro paired
  obtain ⟨rest,audited,_⟩ := (paired_iff _).mp paired
  rw [audit_append] at audited
  obtain ⟨before,audited,tallied⟩ := Option.bind_eq_some_iff.mp audited
  obtain ⟨n,rfl,bound⟩ := spoiled before audited
  cases session with
  | true =>
    obtain ⟨granted,rfl⟩ := closes
    change (do let s ← tally (some (n + 1)) .ended; some s) = some rest at tallied
    rw [late_blocked (by simpa using bound) rfl] at tallied
    cases tallied
  | false =>
    obtain rfl : more = [] := closes
    change (do let s ← tally (some n) .ended; some s) = some rest at tallied
    rw [late_blocked bound rfl] at tallied
    cases tallied

end

def NoneStuck (calls : List Returned) : Prop := ∀ call ∈ calls,∀ flags code : UInt32,
  (⟨.closeSession flags,code⟩ : PamResult) ∈ pamResults call.trace → code = Pam.success

private theorem lived_spoiled {handle after : PamHandle} {calls : List Returned} {done : List Deed}
    (lived : Lived handle calls after) (spoiled : Spoiled handle.session done) :
    Spoiled after.session (done ++ deeds (traceOf calls)) := by
  induction lived generalizing done with
  | nil handle => simpa [traceOf] using spoiled
  | cons run lived ih =>
    have later := ih (spoiled.step (call_does run))
    simpa [traceOf] using later

/-- Over any calls the flag stays sound until a session cannot be closed, and no longer. -/
private theorem lived_sound {handle after : PamHandle} {calls : List Returned} {done : List Deed}
    (lived : Lived handle calls after) (sound : Sound handle.session done) :
    (NoneStuck calls → Sound after.session (done ++ deeds (traceOf calls))) ∧
      (¬ NoneStuck calls → Spoiled after.session (done ++ deeds (traceOf calls))) := by
  induction lived generalizing done with
  | nil handle =>
    refine ⟨fun _ => by simpa [traceOf] using sound,fun stuck => ?_⟩
    exact absurd (fun call member => nomatch member) stuck
  | @cons handle between after call rest run lived ih =>
    have split : NoneStuck (call :: rest) ↔ .closed false ∉ deeds call.trace ∧ NoneStuck rest := by
      simp [NoneStuck,closed_refused]
    have joined : done ++ deeds (traceOf (call :: rest)) = done ++ deeds call.trace ++ deeds (traceOf rest) := by
      simp [traceOf]
    rw [split,joined]
    by_cases closes : .closed false ∉ deeds call.trace
    · obtain ⟨goes,fails⟩ := ih (sound.step (call_does run) closes)
      exact ⟨fun none => goes none.2,fun stuck => fails fun none => stuck ⟨closes,none⟩⟩
    · refine ⟨fun none => absurd none.1 closes,fun _ => ?_⟩
      exact lived_spoiled lived (sound.spoil (call_does run) (not_not.mp closes))

private theorem lived_split {handle after : PamHandle} {before later : List Returned} {call : Returned}
    (lived : Lived handle (before ++ call :: later) after) : ∃ between left,Lived handle before between ∧
      Trace (between.perform call.method.call) call.trace (call.result,left) := by
  induction before generalizing handle with
  | nil =>
    cases lived with
    | cons run rest => exact ⟨handle,_,.nil handle,run⟩
  | cons head before ih =>
    cases lived with
    | cons run rest =>
      obtain ⟨between,left,lived,last⟩ := ih rest
      exact ⟨between,left,.cons run lived,last⟩

private theorem lived_unended {handle after : PamHandle} {calls : List Returned}
    (lived : Lived handle calls after) : .ended ∉ deeds (traceOf calls) := by
  induction lived with
  | nil handle => simp [traceOf]
  | @cons handle between after call rest run lived ih =>
    have unended := (call_does run).unended
    simpa [traceOf,unended] using ih

/-- The life of a handle keeps the credentials and the session in balance: an `open_session`
that returns `Ok` has left them standing, what was established is deleted once, and the
transaction is ended once, and last. -/
structure Balanced (first : List (Exchange Call Answer)) (calls : List Returned)
    (last : List (Exchange Call Answer)) : Prop where
  standing : ∀ before call later flags,calls = before ++ call :: later → call.method = .openSession flags →
    call.result = .ok () → InSession (deeds (first ++ traceOf (before ++ [call])))
  paired : Paired (deeds (first ++ traceOf calls ++ last))
  ended : EndedOnce (pamResults (first ++ traceOf calls ++ last))

/-- A life is balanced just when no `close_session` before the drop has had the session refused. -/
theorem session_balanced_iff (service username : String) (flags : RunFlags) (first last : List (Exchange Call Answer))
    (calls : List Returned) (handle after : PamHandle)
    (started : Trace (pamStart service username flags).run first (.ok handle))
    (lived : Lived handle calls after) (dropped : Trace after.drop last ()) :
    Balanced first calls last ↔ NoneStuck calls := by
  obtain ⟨unopened,cService,cUsername,_,_,begun⟩ := pamStart_results started
  have begins : deeds first = [] := by
    rw [deeds,begun]
    rfl
  have initial : Sound handle.session [] := by
    rw [unopened]
    exact (paired_iff []).mpr ⟨none,rfl,.inl rfl⟩
  obtain ⟨closing,status,code,ends,closes⟩ := drop_does dropped
  have done : deeds (first ++ traceOf calls ++ last) = deeds (traceOf calls) ++ (deeds closing ++ [.ended]) := by
    have ending : deeds last = deeds closing ++ [.ended] := by
      rw [deeds,ends,List.filterMap_append]
      rfl
    rw [deeds_append,deeds_append,begins,ending]
    rfl
  constructor
  · intro balanced
    by_contra stuck
    refine ((lived_sound lived initial).2 stuck).ends closes ?_
    rw [List.nil_append,← done]
    exact balanced.paired
  · intro none
    refine ⟨?_,?_,?_⟩
    · intro before call later asked split opens ok
      subst split
      obtain ⟨between,left,early,run⟩ := lived_split lived
      have sound := (lived_sound early initial).1 fun call member => none call (List.mem_append_left _ member)
      have does := call_does run
      rw [opens,ok] at does
      obtain ⟨held,closed⟩ := does.opens
      have standing := sound.step does closed
      rw [held] at standing
      simpa [traceOf,begins] using standing.2
    · rw [done]
      simpa using ((lived_sound lived initial).1 none).ends closes
    · refine ⟨pamResults (first ++ traceOf calls ++ closing),status,code,by simp [ends],?_⟩
      intro result member other finished
      obtain ⟨function,value⟩ := result
      cases finished
      have early := finish_ended member
      rw [deeds_append,deeds_append,begins,List.nil_append] at early
      rcases List.mem_append.mp early with early | late
      · exact lived_unended lived early
      · exact closes.unended late

/-! A session is opened for alice, and `close_session` is called. -/

def aliceHandle : List (Exchange Call Answer) :=
  let name text := Text.CString.ofBuffer (Text.encode text)
  [⟨.pam (.start (name "runas") (name "alice")),.returned (Pam.success,true)⟩]

def opening : Returned :=
  ⟨.openSession 0,[⟨.pam (.setcred Pam.establishCred),.returned Pam.success⟩,
    ⟨.pam (.openSession 0),.returned Pam.success⟩],.ok ()⟩

def closing : Returned :=
  ⟨.closeSession 0,[⟨.pam (.closeSession 0),.returned Pam.success⟩,
    ⟨.pam (.setcred Pam.deleteCred),.returned Pam.success⟩],.ok ()⟩

theorem session_balanced_closed : Balanced aliceHandle [opening,closing] [⟨.pam (.finish Pam.success),.returned Pam.success⟩] := by
  refine (session_balanced_iff "runas" "alice" .none aliceHandle _ [opening,closing] ⟨.none,Pam.success,false⟩
    ⟨.none,Pam.success,false⟩ (replay_sound 20 rfl) ?_ (replay_sound 20 rfl)).mpr ?_
  · exact .cons (replay_sound 20 rfl) (.cons (replay_sound 20 rfl) (.nil _))
  · intro call member flags code returned
    rcases List.mem_pair.mp member with rfl | rfl <;> simp_all [opening,closing,pamResults,pamResult]

def sessionErr : UInt32 := 14

def refusal : Returned :=
  ⟨.closeSession 0,[⟨.pam (.closeSession 0),.returned sessionErr⟩,⟨.pam (.strerror sessionErr),.returned (some "refused")⟩,
    ⟨.pam (.setcred Pam.deleteCred),.returned Pam.success⟩],.error (.pam ⟨sessionErr,"refused"⟩)⟩

/-- It is asked for again, without a call of the library. -/
def reopening : Returned := ⟨.openSession 0,[],.ok ()⟩

/-- The session is said to be open after its credentials have been deleted, and the drop deletes them again. -/
theorem session_unbalanced_refusal : ∃ last,
    Trace (pamStart "runas" "alice" .none).run aliceHandle (.ok ⟨.none,Pam.success,false⟩) ∧
      Lived ⟨.none,Pam.success,false⟩ [opening,refusal,reopening] ⟨.none,sessionErr,true⟩ ∧
      Trace (PamHandle.drop ⟨.none,sessionErr,true⟩) last () ∧ ¬ Balanced aliceHandle [opening,refusal,reopening] last := by
  refine ⟨[⟨.pam (.closeSession 0),.returned Pam.success⟩,⟨.pam (.setcred Pam.deleteCred),.returned Pam.success⟩,
    ⟨.pam (.finish Pam.success),.returned Pam.success⟩],replay_sound 20 rfl,?_,replay_sound 20 rfl,?_⟩
  · exact .cons (replay_sound 20 rfl) (.cons (replay_sound 20 rfl) (.cons (replay_sound 20 rfl) (.nil _)))
  · intro balanced
    have open' := balanced.standing [opening,refusal] reopening [] 0 rfl rfl rfl
    exact absurd open'.1 (by decide)

end Runas
