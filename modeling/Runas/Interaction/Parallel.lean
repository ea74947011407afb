import Runas.Interaction.Safety

/-! Two programs over one environment. Their steps interleave in every order, and
events that are no call of either may come between. Each is proved safe against
what the other's guard lets it do; together they are safe. -/
namespace Runas.Interaction

/-- The two programs and the state of the environment they share. -/
structure Config (E : Type) (R : E → Type) (α β K : Type) where
  left : Program E R α
  right : Program E R β
  state : K

/-- What a call of either program, and an event of neither, does to the environment. -/
structure Environment (E : Type) (R : E → Type) (K : Type) where
  left : K → (event : E) → R event → K → Prop
  right : K → (event : E) → R event → K → Prop
  event : K → K → Prop

variable {E : Type} {R : E → Type} {K α β : Type}

namespace Environment
variable (env : Environment E R K)

inductive Moves : Config E R α β K → Config E R α β K → Prop
  | left {p p' : Program E R α} {q : Program E R β} {k k' : K} (taken : Step env.left p k p' k') :
      Moves ⟨p,q,k⟩ ⟨p',q,k'⟩
  | right {p : Program E R α} {q q' : Program E R β} {k k' : K} (taken : Step env.right q k q' k') :
      Moves ⟨p,q,k⟩ ⟨p,q',k'⟩
  | event {p : Program E R α} {q : Program E R β} {k k' : K} (happened : env.event k k') :
      Moves ⟨p,q,k⟩ ⟨p,q,k'⟩

def Reaches : Config E R α β K → Config E R α β K → Prop := Relation.ReflTransGen env.Moves

/-- What a program that keeps its guard, and the events, may do to the state. -/
def Guarded (step : K → (event : E) → R event → K → Prop) (guard : K → E → Prop) (k k' : K) : Prop :=
  env.event k k' ∨ ∃ event answer, guard k event ∧ step k event answer k'

def leftSetting (guard other : K → E → Prop) : Setting E R K :=
  ⟨env.left,env.Guarded env.right other,guard⟩

def rightSetting (guard other : K → E → Prop) : Setting E R K :=
  ⟨env.right,env.Guarded env.left other,guard⟩

variable {env}

private theorem step_guarded {S : Setting E R K} {step : K → (event : E) → R event → K → Prop}
    {p p' : Program E R α} {Q : α → K → Prop} {k k' : K} (safe : S.Safe p Q k)
    (taken : Step step p k p' k') : k' = k ∨ ∃ event answer, S.guard k event ∧ step k event answer k' := by
  cases taken with
  | call taken => exact .inr ⟨_,_,safe.now,taken⟩
  | loop => exact .inl rfl

/-- Safety of both, each under what the other's guard allows, holds along every
interleaving. -/
theorem Reaches.safe {L M : K → E → Prop} {P : α → K → Prop} {Q : β → K → Prop}
    {c d : Config E R α β K} (reached : env.Reaches c d)
    (left : (env.leftSetting L M).Safe c.left P c.state)
    (right : (env.rightSetting M L).Safe c.right Q c.state) :
    (env.leftSetting L M).Safe d.left P d.state ∧ (env.rightSetting M L).Safe d.right Q d.state := by
  induction reached with
  | refl => exact ⟨left,right⟩
  | tail _ moved ih =>
    obtain ⟨left,right⟩ := ih
    cases moved with
    | left taken =>
      refine ⟨left.step taken,?_⟩
      rcases step_guarded left taken with same | allowed
      · rw [same]; exact right
      · exact right.rely (.inr allowed)
    | right taken =>
      refine ⟨?_,right.step taken⟩
      rcases step_guarded right taken with same | allowed
      · rw [same]; exact left
      · exact left.rely (.inr allowed)
    | event happened => exact ⟨left.rely (.inl happened),right.rely (.inl happened)⟩

theorem Reaches.safe_left {L : K → E → Prop} {P : α → K → Prop} {c d : Config E R α β K}
    (reached : env.Reaches c d) (left : (env.leftSetting L fun _ _ => True).Safe c.left P c.state) :
    (env.leftSetting L fun _ _ => True).Safe d.left P d.state :=
  (reached.safe left (.free fun _ _ => trivial)).1

theorem Reaches.safe_right {M : K → E → Prop} {Q : β → K → Prop} {c d : Config E R α β K}
    (reached : env.Reaches c d) (right : (env.rightSetting M fun _ _ => True).Safe c.right Q c.state) :
    (env.rightSetting M fun _ _ => True).Safe d.right Q d.state :=
  (reached.safe (.free fun _ _ => trivial) right).2

theorem Reaches.trans {c d e : Config E R α β K} (first : env.Reaches c d)
    (second : env.Reaches d e) : env.Reaches c e := Relation.ReflTransGen.trans first second

/-- What every call and every event keeps, every reachable configuration keeps. -/
theorem Reaches.invariant {kept : K → Prop}
    (left : ∀ k event answer k', kept k → env.left k event answer k' → kept k')
    (right : ∀ k event answer k', kept k → env.right k event answer k' → kept k')
    (event : ∀ k k', kept k → env.event k k' → kept k')
    {c d : Config E R α β K} (reached : env.Reaches c d) (initial : kept c.state) : kept d.state := by
  induction reached with
  | refl => exact initial
  | tail _ moved ih =>
    cases moved with
    | left taken => cases taken with
      | call taken => exact left _ _ _ _ ih taken
      | loop => exact ih
    | right taken => cases taken with
      | call taken => exact right _ _ _ _ ih taken
      | loop => exact ih
    | event happened => exact event _ _ ih happened

/-- What guarded calls and every event keep, every reachable configuration keeps when
both programs are safe. -/
theorem Reaches.guarded {L M : K → E → Prop} {P : α → K → Prop} {Q : β → K → Prop} {kept : K → Prop}
    (leftKeeps : ∀ k event answer k', kept k → L k event → env.left k event answer k' → kept k')
    (rightKeeps : ∀ k event answer k', kept k → M k event → env.right k event answer k' → kept k')
    (eventKeeps : ∀ k k', kept k → env.event k k' → kept k')
    {c d : Config E R α β K} (reached : env.Reaches c d)
    (left : (env.leftSetting L M).Safe c.left P c.state)
    (right : (env.rightSetting M L).Safe c.right Q c.state) (initial : kept c.state) : kept d.state := by
  induction reached with
  | refl => exact initial
  | @tail d e earlier moved ih =>
    obtain ⟨left,right⟩ := Reaches.safe earlier left right
    cases moved with
    | left taken => cases taken with
      | call taken => exact leftKeeps _ _ _ _ ih left.now taken
      | loop => exact ih
    | right taken => cases taken with
      | call taken => exact rightKeeps _ _ _ _ ih right.now taken
      | loop => exact ih
    | event happened => exact eventKeeps _ _ ih happened

end Environment

end Runas.Interaction
