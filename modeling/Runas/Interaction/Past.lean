import Runas.Interaction.Alone
import Runas.Interaction.Footprint

/-! What has happened before a call. A program that runs alone keeps its record, and a part
whose calls may come at any time leaves its own trace there, also for the guard of what
comes after it. -/
namespace Runas.Interaction
open Program

variable {E : Type} {R : E → Type} {α β ε : Type} {allowed : E → Prop} {guard : List (Exchange E R) → E → Prop}

/-- What holds of every trace of such a part holds when it ends. -/
private theorem Setting.Safe.ofTraces {p : Program E R α} {Q : α → List (Exchange E R) → Prop} {before : List (Exchange E R)}
    (used : p.Uses allowed) (free : ∀ t event, allowed event → guard t event)
    (traces : ∀ t value, Trace p t value → Q value (before ++ t)) : (alone record guard).Safe p Q before := by
  intro n
  induction n generalizing p before with
  | zero => trivial
  | succ n ih =>
    refine ⟨?_,?_,?_⟩
    · cases p with
      | done value =>
        have now := traces [] value (.done value)
        rw [List.append_nil] at now
        exact now
      | call event next => exact free before event used.1
      | loop body start next => trivial
    · intro after same
      cases (same : after = before)
      exact ih used traces
    · intro p' after taken
      cases taken with
      | @call _ event next _ _ answer taken =>
        cases (taken : after = before ++ [⟨event,answer⟩])
        refine ih (used.2 answer) fun t value trace => ?_
        rw [List.append_assoc]
        exact traces _ value (.call trace)
      | loop body start next =>
        refine ih ((used.1 start).bind fun outcome => ?_) fun t value trace => traces t value (.loop trace)
        cases outcome with
        | inl again => exact used
        | inr result => exact used.2 result

theorem Setting.Safe.traced {p : Program E R α} {before : List (Exchange E R)} (used : p.Uses allowed)
    (free : ∀ t event, allowed event → guard t event) :
    (alone record guard).Safe p (fun value t => ∃ own, t = before ++ own ∧ Trace p own value) before :=
  .ofTraces used free fun own _ trace => ⟨own,rfl,trace⟩

/-- A part comes first, and what comes after it knows the trace it has left. -/
theorem Fallible.safe_traced {x : Fallible ε E R α} {f : α → Fallible ε E R β} {Q : Except ε β → List (Exchange E R) → Prop}
    {before : List (Exchange E R)} (used : Fallible.Uses allowed x) (free : ∀ t event, allowed event → guard t event)
    (ends : ∀ value own, Trace x.run own (.ok value) → (alone record guard).Safe (f value).run Q (before ++ own))
    (fails : ∀ error own, Trace x.run own (.error error) → Q (.error error) (before ++ own)) :
    (alone record guard).Safe (x >>= f).run Q before := by
  refine Fallible.safe_bind_alone ((Setting.Safe.traced used free).mono ?_)
  rintro result _ ⟨own,rfl,trace⟩
  cases result with
  | ok value => exact ends value own trace
  | error error => exact fails error own trace

/-- A part all of whose calls meet the guard once a prefix of the record is there. -/
theorem Setting.Safe.onceThere {p : Program E R α} {before : List (Exchange E R)} (used : p.Uses allowed)
    (free : ∀ more event, allowed event → guard (before ++ more) event) :
    (alone record guard).Safe p (fun _ t => ∃ more, t = before ++ more) before := by
  refine @Setting.Safe.uses _ _ _ _ _ _ (fun t => ∃ more, t = before ++ more) _ _ used (stable_alone _) ⟨[],by simp⟩ ?_ ?_
  · rintro _ event ⟨more,rfl⟩ known
    exact free more event known
  · rintro _ event answer t ⟨more,rfl⟩ _ taken
    exact ⟨more ++ [⟨event,answer⟩],by rw [← List.append_assoc]; exact taken⟩

/-- A part without calls leaves the record as it is. -/
theorem Fallible.safe_silent {x : Fallible ε E R α} {f : α → Fallible ε E R β} {Q : Except ε β → List (Exchange E R) → Prop}
    {before : List (Exchange E R)} (silent : Fallible.Uses (fun _ => False) x)
    (ends : ∀ value, Trace x.run [] (.ok value) → (alone record guard).Safe (f value).run Q before)
    (fails : ∀ error, Trace x.run [] (.error error) → Q (.error error) before) :
    (alone record guard).Safe (x >>= f).run Q before := by
  refine Fallible.safe_traced silent (fun _ _ absurd => absurd.elim) (fun value own trace => ?_) fun error own trace => ?_
  · obtain rfl := List.eq_nil_iff_forall_not_mem.mpr (trace.uses silent)
    rw [List.append_nil]
    exact ends value trace
  · obtain rfl := List.eq_nil_iff_forall_not_mem.mpr (trace.uses silent)
    rw [List.append_nil]
    exact fails error trace

/-- The call that a program comes to on the answers given is one it makes with that record. -/
theorem callAfter_steps [DecidableEq E] (fuel : Nat) {p : Program E R α} (t before : List (Exchange E R)) {event : E}
    (reached : callAfter fuel p t = some event) : ∃ q,Steps record p before q (before ++ t) ∧ q.pending = some event := by
  induction fuel generalizing p t before with
  | zero => cases reached
  | succ fuel ih =>
    cases p with
    | done value => cases reached
    | loop body start next =>
      obtain ⟨q,steps,pending⟩ := ih t before reached
      exact ⟨q,.head (.loop _ _ _ _) steps,pending⟩
    | call first next =>
      cases t with
      | nil =>
        cases reached
        refine ⟨.call event next,?_,rfl⟩
        rw [List.append_nil]
        exact .refl
      | cons x t =>
        obtain ⟨other,answer⟩ := x
        simp only [callAfter] at reached
        split at reached
        · next same =>
          subst same
          obtain ⟨q,steps,pending⟩ := ih t (before ++ [⟨other,answer⟩]) reached
          rw [List.append_assoc] at steps
          exact ⟨q,.head (Step.call (rfl : record before other answer _)) steps,pending⟩
        · cases reached

end Runas.Interaction
