import Runas.Interaction.Trace

/-! The course of a program where each call has one answer or none. It is one list of
calls, and it ends with a value or at a call that is never answered. -/
namespace Runas.Interaction

variable {E : Type} {R : E → Type} {σ α β ε : Type}

inductive Course (reply : (event : E) → Option (R event)) : {α : Type} → Program E R α → List E → α ⊕ E → Prop
  | done {α : Type} (value : α) : Course reply (.done value) [] (.inl value)
  | answered {α : Type} {event : E} {next : R event → Program E R α} {answer : R event} {made : List E} {last : α ⊕ E}
      (known : reply event = some answer) (rest : Course reply (next answer) made last) :
      Course reply (.call event next) (event :: made) last
  | unanswered {α : Type} {event : E} {next : R event → Program E R α} (silent : reply event = none) :
      Course reply (.call event next) [event] (.inr event)
  | loop {σ β α : Type} {body : σ → Program E R (σ ⊕ β)} {start : σ} {next : β → Program E R α} {made : List E}
      {last : α ⊕ E} (rest : Course reply ((body start).bind (Program.unroll body next)) made last) :
      Course reply (.loop body start next) made last

namespace Course
variable {reply : (event : E) → Option (R event)}

/-- A program has one course. -/
theorem unique {p : Program E R α} {made other : List E} {last final : α ⊕ E} (course : Course reply p made last)
    (second : Course reply p other final) : other = made ∧ final = last := by
  induction course generalizing other with
  | done value =>
    cases second
    exact ⟨rfl,rfl⟩
  | answered known rest ih =>
    cases second with
    | answered again later =>
      cases known.symm.trans again
      obtain ⟨rfl,same⟩ := ih later
      exact ⟨rfl,same⟩
    | unanswered silent => cases known.symm.trans silent
  | unanswered silent =>
    cases second with
    | answered known later => cases known.symm.trans silent
    | unanswered again => exact ⟨rfl,rfl⟩
  | loop rest ih =>
    cases second with
    | loop later => exact ih later

theorem fallible_answered {event : E} {f : R event → Fallible ε E R α} {answer : R event} {made : List E}
    {last : Except ε α ⊕ E} (known : reply event = some answer) (rest : Course reply (f answer).run made last) :
    Course reply (Fallible.ask event >>= f).run (event :: made) last := .answered known rest

theorem fallible_unanswered {event : E} {f : R event → Fallible ε E R α} (silent : reply event = none) :
    Course reply (Fallible.ask event >>= f).run [event] (.inr event) := .unanswered silent

end Course

end Runas.Interaction
