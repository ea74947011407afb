import Runas.Phases
import Runas.Interaction.View

/-! The PAM transaction of a run. The library is called only on a transaction that has begun
and has not ended, by the process that began it, one function at a time; whatever the
run comes to, that process has ended it first. -/
namespace Runas
open Interaction Text

/-- Where the transaction stands, in the process at hand. -/
inductive Phase
  | unbegun | held | over
  /-- Left to the process that was forked from. -/
  | inherited
  deriving DecidableEq

/-- The transaction, and the function that waits for an answer from the conversation. -/
structure Transaction where
  phase : Phase
  running : Option PamFunction
  deriving DecidableEq

namespace Transaction

def unbegun : Transaction := ⟨.unbegun,none⟩

def held : Transaction := ⟨.held,none⟩

/-- The function has returned. -/
def settle (l : Transaction) : (function : PamFunction) → PamReturn function → Transaction
  | .start _ _,(code,set) => if code = Pam.success ∧ set = true then held else ⟨l.phase,none⟩
  | .finish _,_ => ⟨.over,none⟩
  | _,_ => ⟨l.phase,none⟩

def heard (l : Transaction) (function : PamFunction) : PamAnswer function → Transaction
  | .returned value => l.settle function value
  | .converse _ => ⟨l.phase,some function⟩

def after (l : Transaction) : (event : Call) → Answer event → Transaction
  | .pam function,answer => l.heard function answer
  | .pamReply function _,answer => l.heard function answer
  | .fork,.ok .child => if l.phase = .held then ⟨.inherited,none⟩ else l
  | _,_ => l

/-- The transaction a record leads to. -/
def left (t : List (Exchange Call Answer)) : Transaction := comesTo after unbegun t

/-- This process has nothing to end. -/
def Free (l : Transaction) : Prop := l.running = none ∧ l.phase ≠ .held

/-- What holds of the transaction when a call is made. -/
def Proper (l : Transaction) : Call → Prop
  | .pam (.start _ _) => l = unbegun
  | .pam (.strerror _) => l = unbegun ∨ l = held
  | .pam _ => l = held
  | .pamReply function _ => l.running = some function
  | .fork => l = held
  | .execve _ _ _ | .execvp _ _ | .execv _ _ | .exit _ | .panic | .abort => l.Free
  | _ => True

/-- A call that has nothing to do with the transaction. -/
def apart : Call → Bool
  | .pam _ | .pamReply _ _ | .fork | .execve _ _ _ | .execvp _ _ | .execv _ _ | .exit _ | .panic | .abort => false
  | _ => true

abbrev transacting : Setting Call Answer Transaction := alone (tracks after) Proper

section
variable {l : Transaction} {α β : Type}

theorem after_apart {event : Call} (known : apart event = true) (answer : Answer event) : l.after event answer = l := by
  cases event <;> first | rfl | cases known

theorem proper_apart {event : Call} (known : apart event = true) : l.Proper event := by
  cases event <;> first | exact True.intro | cases known

theorem apart_topic {event : Call} (other : event.topic ∉ [.pam,.process,.replace,.finish]) : apart event = true := by
  cases event <;> first | rfl | simp [Call.topic] at other

theorem safe_apart {p : Calls α} (used : p.Uses fun event => apart event = true) :
    transacting.Safe p (fun _ l' => l' = l) l := by
  refine Setting.Safe.uses used (stable_alone _) rfl (fun _ _ _ known => proper_apart known) ?_
  rintro _ event answer l' rfl known taken
  exact (taken : l' = _).trans (after_apart known answer)

theorem apart_about {topics : List Topic} {p : Calls α} (used : p.Uses (About topics))
    (others : ∀ topic ∈ topics,topic ∉ [.pam,.process,.replace,.finish]) : p.Uses fun event => apart event = true :=
  used.mono fun _ about => apart_topic (others _ about)

/-- A part that leaves the transaction alone comes first. -/
theorem safe_past {x : M α} {f : α → M β} {Q : Except Error β → Transaction → Prop}
    (used : Fallible.Uses (fun event => apart event = true) x) (ends : ∀ value,transacting.Safe (f value).run Q l)
    (fails : ∀ error,Q (.error error) l) : transacting.Safe (x >>= f).run Q l := by
  refine Fallible.safe_bind_alone ((safe_apart used).mono ?_)
  rintro result _ rfl
  cases result with
  | ok value => exact ends value
  | error error => exact fails error

theorem free_unbegun : unbegun.Free := ⟨rfl,Phase.noConfusion⟩

theorem free_topic {event : Call} (free : l.Free) (other : event.topic ∉ [.pam,.process]) :
    l.Proper event ∧ ∀ answer,l.after event answer = l := by
  cases event <;> first | exact ⟨trivial,fun _ => rfl⟩ | exact ⟨free,fun _ => rfl⟩ | simp [Call.topic] at other

/-- A part that neither forks nor calls the library, where this process has nothing to end. -/
theorem safe_still {p : Calls α} {other : Call → Prop} (used : p.Uses other)
    (kept : ∀ {event},l.Free → other event → l.Proper event ∧ ∀ answer,l.after event answer = l) (free : l.Free) :
    transacting.Safe p (fun _ l' => l' = l) l := by
  refine Setting.Safe.uses used (stable_alone _) rfl ?_ ?_
  · rintro _ event rfl known
    exact (kept free known).1
  · rintro _ event answer l' rfl known taken
    exact (taken : l' = _).trans ((kept free known).2 answer)

theorem free_launches {event : Call} (free : l.Free) (known : launches event = true) :
    l.Proper event ∧ ∀ answer,l.after event answer = l := by
  cases event <;> first | exact ⟨trivial,fun _ => rfl⟩ | exact ⟨free,fun _ => rfl⟩ | cases known

theorem free_settles {event : Call} (free : l.Free) (known : settles event = true) :
    l.Proper event ∧ ∀ answer,l.after event answer = l := by
  cases event <;> first | exact ⟨trivial,fun _ => rfl⟩ | exact ⟨free,fun _ => rfl⟩ | cases known

/-! The functions of the library. -/

theorem heard_phase (function : PamFunction) (answer : PamAnswer function) :
    heard ⟨l.phase,some function⟩ function answer = l.heard function answer := by
  cases answer with
  | converse request => rfl
  | returned value => cases function <;> rfl

/-- A function that may be called runs to its end, whatever it asks the conversation. -/
theorem safe_pamCall {flags : RunFlags} {function : PamFunction} (may : l.Proper (.pam function)) :
    transacting.Safe (Pam.call (Conv flags) function) (fun value l' => l' = l.settle function value) l := by
  refine .call_alone may fun answer l' taken => ?_
  refine .iterate (I := fun answer l' => l' = l.heard function answer) (fun _ => stable_alone _) (fun _ => stable_alone _)
    taken fun answer l' heard => ?_
  subst heard
  cases answer with
  | returned value => exact .done_alone rfl
  | converse request =>
    refine .bind (((safe_apart (apart_about (uses_convProcess flags request) (by decide))).gives
      (convProcess_gives flags request)).mono fun reply l' same => ?_)
    obtain ⟨given,rfl⟩ := same
    obtain ⟨reply,rfl⟩ := Option.isSome_iff_exists.mp given
    refine .call_alone rfl fun answer l' taken => .done_alone ?_
    exact (taken : l' = _).trans (heard_phase function answer)

theorem safe_works {flags : RunFlags} {function : PamFunction} (works : PamHandle.works function = true) :
    transacting.Safe (Pam.call (Conv flags) function) (fun _ l => l = held) held := by
  have may : held.Proper (.pam function) := by
    cases function <;> first | rfl | exact .inr rfl | cases works
  refine (safe_pamCall may).mono fun value l same => same.trans ?_
  cases function <;> first | rfl | cases works

/-- The methods of a handle keep its transaction. -/
theorem closed_held : Program.Closed fun _ (p : Calls _) => ∀ l,l = held → transacting.Safe p (fun _ l => l = held) l :=
  Setting.closed_safe (stable_alone _)

theorem calls_held (flags : RunFlags) (function : PamFunction) (works : PamHandle.works function = true) :
    ∀ l,l = held → transacting.Safe (Pam.call (Conv flags) function) (fun _ l => l = held) l := by
  rintro _ rfl
  exact safe_works works

theorem safe_drop (handle : PamHandle) : transacting.Safe handle.drop (fun _ l => l = ⟨.over,none⟩) held := by
  rw [PamHandle.drop_closing]
  refine .bind ((PamHandle.in_closing closed_held calls_held handle _ rfl).mono ?_)
  rintro pair _ rfl
  exact .bind ((@safe_pamCall held _ (.finish _) rfl).mono fun _ _ ended => .done_alone ended)

theorem safe_pamStart (service username : String) (flags : RunFlags) :
    transacting.Safe (pamStart service username flags).run (fun
      | .ok _ => fun l => l = held
      | .error _ => fun l => l = unbegun) unbegun := by
  refine safe_past (uses_cstr _) (fun cService => ?_) fun _ => rfl
  refine safe_past (uses_cstr _) (fun cUsername => ?_) fun _ => rfl
  refine Fallible.safe_lift ((@safe_pamCall unbegun _ (.start _ _) rfl).mono fun pair l' begun => ?_)
  obtain ⟨code,set⟩ := pair
  by_cases failed : code ≠ Pam.success
  · have still : l' = unbegun := begun.trans (if_neg fun granted => failed granted.1)
    subst still
    simp only [if_pos failed]
    refine Fallible.safe_lift (.bind ((@safe_pamCall unbegun _ (.strerror _) (.inl rfl)).mono fun text l' same => ?_))
    cases text <;> exact .done_alone (.done_alone same)
  · simp only [if_neg failed]
    cases set with
    | false => exact .done_alone (begun.trans (if_neg fun granted => nomatch granted.2))
    | true => exact .done_alone (begun.trans (if_pos ⟨not_not.mp failed,rfl⟩))

/-! Authentication, in both processes it may go on in. -/

theorem apart_pipes {p : Calls α} (used : p.Uses (About [.pipes])) : p.Uses fun event => apart event = true :=
  apart_about used (by decide)

theorem apart_authChild (sync : ForkSync) (pamEnv : EnvMap) :
    Fallible.Uses (fun event => apart event = true) (authChild sync pamEnv) := by
  have armed : Fallible.Uses (fun event => apart event = true) (do
      setParentExitSignal .sigkill
      orFail (← ask (.setpgid 0 0)) : M Unit) :=
    .bind (uses_setParentExitSignal rfl) fun _ => .bind (.ask rfl) fun answer => uses_orFail answer
  refine .bind (.lift (apart_pipes (uses_intoChild sync))) fun pipe => ?_
  refine .bind (.releasingOnError (apart_pipes (uses_endpointDrop pipe)) armed) fun _ => ?_
  refine .bind (apart_pipes (uses_readyAndWait pipe)) fun decision => ?_
  split <;> trivial

theorem safe_authParent (handle : PamHandle) (sync : ForkSync) (child : Pid) :
    transacting.Safe (authParent handle sync child).run (fun _ l => l.Free) held := by
  have leaves (code : Int) : transacting.Safe (do handle.drop; exit code : M EnvMap).run (fun _ l => l.Free) held := by
    refine Fallible.safe_lift ((safe_drop handle).mono ?_)
    rintro _ _ rfl
    exact .call_alone ⟨rfl,Phase.noConfusion⟩ fun never => nomatch never
  have watches (pipe : ForkEndpoint) : Fallible.Uses (fun event => apart event = true) (watchProcess child pipe) := by
    refine (supervising_watchProcess child pipe).mono fun event known => ?_
    cases event <;> first | rfl | cases known
  refine Fallible.safe_lift ((safe_apart (apart_pipes (uses_intoParent sync))).mono ?_)
  rintro pipe _ rfl
  refine Fallible.safe_lift ((safe_apart (watches pipe)).mono ?_)
  rintro result _ rfl
  cases result with
  | ok code => exact leaves code
  | error error =>
    refine .call_alone trivial fun _ l' taken => ?_
    cases (taken : l' = held)
    exact leaves 1

theorem safe_dropped {handle : PamHandle} {error : Error} :
    transacting.Safe (do handle.drop; throw error : M α).run (fun _ l => l.Free) held := by
  refine Fallible.safe_lift ((safe_drop handle).mono ?_)
  rintro _ _ rfl
  exact .done_alone ⟨rfl,Phase.noConfusion⟩

theorem safe_authFork (handle : PamHandle) (sync : ForkSync) (pamEnv : EnvMap) :
    transacting.Safe (authFork handle sync pamEnv).run (fun _ l => l.Free) held := by
  refine .call_alone rfl fun forked l' taken => ?_
  rcases forked with error | (_ | child)
  · cases (taken : l' = held)
    refine Fallible.safe_lift ((safe_drop handle).mono ?_)
    rintro _ _ rfl
    refine Fallible.safe_lift ((safe_apart (apart_pipes (uses_syncDrop sync))).mono ?_)
    rintro _ _ rfl
    exact .done_alone ⟨rfl,Phase.noConfusion⟩
  · cases (taken : l' = ⟨.inherited,none⟩)
    refine (safe_apart (apart_authChild sync pamEnv)).mono ?_
    rintro _ _ rfl
    exact ⟨rfl,Phase.noConfusion⟩
  · cases (taken : l' = held)
    exact safe_authParent handle sync child

theorem safe_authSession (handle : PamHandle) :
    transacting.Safe (authSession handle).run (fun _ l => l.Free) held := by
  refine Fallible.safe_bind_alone (Fallible.safe_releasingOnError (fun _ => stable_alone _)
    ((safe_apart (apart_pipes uses_syncNew)).mono ?_))
  rintro made _ rfl
  cases made with
  | error error =>
    refine (safe_drop handle).mono ?_
    rintro _ _ rfl
    exact ⟨rfl,Phase.noConfusion⟩
  | ok sync =>
    refine Fallible.safe_lift ((PamHandle.in_getenvlist closed_held calls_held handle _ rfl).mono ?_)
    rintro ⟨listed,handle⟩ _ rfl
    cases listed with
    | ok pamEnv => exact safe_authFork handle sync pamEnv
    | error error =>
      refine Fallible.safe_lift ((safe_apart (apart_pipes (uses_syncDrop sync))).mono ?_)
      rintro _ _ rfl
      exact safe_dropped

theorem safe_pamAuth (build : Build) (user target : Account) (flags : RunFlags) (disableAuth : Bool) :
    transacting.Safe (pamAuth build user target flags disableAuth).run (fun _ l => l.Free) unbegun := by
  refine Fallible.safe_bind_alone ((safe_pamStart _ _ _).mono fun started l begun => ?_)
  cases started with
  | error error =>
    cases begun
    exact ⟨rfl,Phase.noConfusion⟩
  | ok handle =>
    cases begun
    have looks {event : Call} (known : apart event = true) : ∀ l,l = held →
        transacting.Safe (query event) (fun _ l => l = held) l := by
      rintro _ rfl
      exact safe_apart (.ask known)
    refine Fallible.safe_lift ((in_pamLogin closed_held calls_held (looks rfl) (looks rfl) build user target flags _
      handle _ rfl).mono ?_)
    rintro ⟨result,handle⟩ _ rfl
    cases result with
    | error error => exact safe_dropped
    | ok =>
      dsimp only
      split
      · exact safe_authSession handle
      · refine Fallible.safe_lift ((safe_drop handle).mono ?_)
        rintro _ _ rfl
        exact .done_alone ⟨rfl,Phase.noConfusion⟩

theorem safe_authenticate (numeric : Char → Bool) (build : Build) (user target : Account) (flags : RunFlags) :
    transacting.Safe (authenticate numeric build user target flags).run (fun _ l => l.Free) unbegun := by
  have enters (user : Account) (disableAuth : Bool) :
      transacting.Safe (auth build user target flags disableAuth).run (fun _ l => l.Free) unbegun := by
    unfold auth
    split
    · exact safe_pamAuth _ _ _ _ _
    · have other : ∀ topic ∈ shadowTopics,topic ∉ [Topic.pam,.process] := by decide
      refine Fallible.safe_bind_alone ((safe_still (uses_shadowAuth user flags)
        (fun free about => free_topic free (other _ about)) free_unbegun).mono ?_)
      rintro result _ rfl
      cases result with
      | ok => exact .done_alone free_unbegun
      | error error => exact free_unbegun
  refine safe_past (apart_about (uses_hasTargetGroup user target) (by decide)) (fun pair => ?_) fun _ => free_unbegun
  obtain ⟨has,user⟩ := pair
  dsimp only
  split
  · split
    · exact enters user true
    · exact .done_alone free_unbegun
  · exact .done_alone free_unbegun
  · refine safe_past (apart_about (uses_isWheelMember numeric user) (by decide)) (fun wheel => ?_) fun _ => free_unbegun
    split
    · exact enters user false
    · exact .done_alone free_unbegun

/-! The run as a whole. -/

theorem safe_start (run : Invocation) (targetArgs : List Bytes) :
    transacting.Safe (run.start targetArgs).run (fun _ l => l.Free) unbegun := by
  refine Fallible.safe_bind_alone ((safe_still (run.settling_prepare targetArgs) free_settles free_unbegun).mono ?_)
  rintro outcome _ rfl
  rcases outcome with error | prepared | _
  · exact free_unbegun
  · refine Fallible.safe_bind_alone ((safe_authenticate _ _ _ _ _).mono fun result l free => ?_)
    cases result with
    | error error => exact free
    | ok pamEnv =>
      refine (safe_still (launching_launch run prepared pamEnv) free_launches free).mono ?_
      rintro _ _ rfl
      exact free
  · exact .done_alone free_unbegun

theorem safe_main (library : Library) (build : Build) (words : List Bytes) :
    transacting.Safe (main library build words) (fun _ l => l.Free) unbegun := by
  have stops : transacting.Safe (panic : M Unit).run (fun _ l => l.Free) unbegun :=
    .call_alone free_unbegun fun never => nomatch never
  have runs : transacting.Safe (run library build words).run (fun _ l => l.Free) unbegun := by
    cases words with
    | nil => exact stops
    | cons program rest =>
      refine safe_past ((silent_utf8Words _).mono fun _ absurd => absurd.elim) (fun texts => ?_) fun _ => free_unbegun
      cases texts with
      | nil => exact stops
      | cons name own =>
        dsimp only
        split
        · refine .call_alone trivial fun _ l taken => .done_alone ?_
          cases (taken : l = unbegun)
          exact free_unbegun
        · exact safe_past ((silent_checkCommand _ _).mono fun _ absurd => absurd.elim) (fun _ => safe_start _ _)
            fun _ => free_unbegun
  refine Setting.Safe.bind (runs.mono fun result l free => ?_)
  cases result with
  | ok => exact .done_alone free
  | error error =>
    refine .call_alone trivial fun _ l' taken => .done_alone ?_
    cases (taken : l' = l)
    exact free

end

end Transaction

/-- In every run the library is called on a transaction only between its beginning and its end,
one function at a time, and by the process that has begun it; that process has ended it
before it becomes another, exits, or comes to the end of its run. -/
theorem main_transaction (library : Library) (build : Build) (words : List Bytes) :
    (∀ q t event,Steps record (main library build words) [] q t → q.pending = some event →
      (Transaction.left t).Proper event) ∧
    ∀ t code,Trace (main library build words) t code → (Transaction.left t).Free :=
  ⟨fun _ _ _ reached pending => (Transaction.safe_main library build words).calls reached pending,
    fun _ _ trace => (Transaction.safe_main library build words).ends trace⟩

end Runas
