import Runas.Interaction.Alone

/-! Concrete runs of two programs. Where the steps of an environment can be
computed, a list of turns is played, and what it leads to is reached. -/
namespace Runas.Interaction

variable {E : Type} {R : E → Type} {K V α β : Type}

/-- Steps of an environment that can be computed. -/
structure Player (env : Environment E R K) (V : Type) where
  left : K → (event : E) → R event → Option K
  right : K → (event : E) → R event → Option K
  event : K → V → Option K
  left_sound : ∀ {k event answer k'}, left k event answer = some k' → env.left k event answer k'
  right_sound : ∀ {k event answer k'}, right k event answer = some k' → env.right k event answer k'
  event_sound : ∀ {k v k'}, event k v = some k' → env.event k k'

/-- A call of either program with its answer, or an event. -/
inductive Turn (E : Type) (R : E → Type) (V : Type)
  | left (x : Exchange E R)
  | right (x : Exchange E R)
  | event (v : V)

/-- The program after its next call, if that is the one given; loops are unrolled
on the way, at most `fuel` of them. -/
def take [DecidableEq E] (step : K → (event : E) → R event → Option K) :
    Nat → Program E R α → K → Exchange E R → Option (Program E R α × K)
  | 0,_,_,_ => none
  | _+1,.done _,_,_ => none
  | _+1,.call event next,k,⟨other,answer⟩ =>
    if same : other = event then
      match step k event (same ▸ answer) with
      | some k' => some (next (same ▸ answer),k')
      | none => none
    else none
  | fuel+1,.loop body start next,k,x => take step fuel ((body start).bind (Program.unroll body next)) k x

theorem take_sound [DecidableEq E] {step : K → (event : E) → R event → Option K}
    {relation : K → (event : E) → R event → K → Prop}
    (sound : ∀ {k event answer k'}, step k event answer = some k' → relation k event answer k')
    {fuel : Nat} {p p' : Program E R α} {k k' : K} {x : Exchange E R}
    (taken : take step fuel p k x = some (p',k')) : Steps relation p k p' k' := by
  induction fuel generalizing p with
  | zero => simp [take] at taken
  | succ fuel ih =>
    cases p with
    | done value => simp [take] at taken
    | call event next =>
      obtain ⟨other,answer⟩ := x
      simp only [take] at taken
      split at taken
      · next same =>
        subst same
        split at taken
        · next stepped =>
          cases taken
          exact .single (.call (sound stepped))
        · contradiction
      · contradiction
    | loop body start next => exact .head (.loop _ _ _ _) (ih taken)

def takes [DecidableEq E] (step : K → (event : E) → R event → Option K) (fuel : Nat) :
    Program E R α → K → List (Exchange E R) → Option (Program E R α × K)
  | p,k,[] => some (p,k)
  | p,k,x :: t =>
    match take step fuel p k x with
    | some (p',k') => takes step fuel p' k' t
    | none => none

theorem takes_sound [DecidableEq E] {step : K → (event : E) → R event → Option K}
    {relation : K → (event : E) → R event → K → Prop}
    (sound : ∀ {k event answer k'}, step k event answer = some k' → relation k event answer k')
    {fuel : Nat} {p p' : Program E R α} {k k' : K} {t : List (Exchange E R)}
    (taken : takes step fuel p k t = some (p',k')) : Steps relation p k p' k' := by
  induction t generalizing p k with
  | nil =>
    cases taken
    exact .refl
  | cons x t ih =>
    simp only [takes] at taken
    split at taken
    · next first => exact (take_sound sound first).trans (ih taken)
    · contradiction

def ahead : Nat → Program E R α → Program E R α
  | fuel+1,.loop body start next => ahead fuel ((body start).bind (Program.unroll body next))
  | _,p => p

theorem ahead_steps {step : K → (event : E) → R event → K → Prop} (fuel : Nat) (p : Program E R α) (k : K) :
    Steps step p k (ahead fuel p) k := by
  induction fuel generalizing p with
  | zero => exact .refl
  | succ fuel ih =>
    cases p with
    | done _ | call _ _ => exact .refl
    | loop body start next => exact .head (.loop _ _ _ _) (ih _)

variable {env : Environment E R K}

theorem Steps.left {p p' : Program E R α} {q : Program E R β} {k k' : K}
    (steps : Steps env.left p k p' k') : env.Reaches ⟨p,q,k⟩ ⟨p',q,k'⟩ :=
  Relation.ReflTransGen.lift (fun a : Program E R α × K => (⟨a.1,q,a.2⟩ : Config E R α β K))
    (fun _ _ taken => Environment.Moves.left taken) _ _ steps

theorem Steps.right {p : Program E R α} {q q' : Program E R β} {k k' : K}
    (steps : Steps env.right q k q' k') : env.Reaches ⟨p,q,k⟩ ⟨p,q',k'⟩ :=
  Relation.ReflTransGen.lift (fun a : Program E R β × K => (⟨p,a.1,a.2⟩ : Config E R α β K))
    (fun _ _ taken => Environment.Moves.right taken) _ _ steps

def play [DecidableEq E] (player : Player env V) (fuel : Nat) :
    Config E R α β K → List (Turn E R V) → Option (Config E R α β K)
  | c,[] => some c
  | ⟨p,q,k⟩,.left x :: turns =>
    match take player.left fuel p k x with
    | some (p',k') => play player fuel ⟨p',q,k'⟩ turns
    | none => none
  | ⟨p,q,k⟩,.right x :: turns =>
    match take player.right fuel q k x with
    | some (q',k') => play player fuel ⟨p,q',k'⟩ turns
    | none => none
  | ⟨p,q,k⟩,.event v :: turns =>
    match player.event k v with
    | some k' => play player fuel ⟨p,q,k'⟩ turns
    | none => none

theorem play_sound [DecidableEq E] (player : Player env V) (fuel : Nat) {c d : Config E R α β K}
    {turns : List (Turn E R V)} (played : play player fuel c turns = some d) : env.Reaches c d := by
  induction turns generalizing c with
  | nil =>
    cases played
    exact .refl
  | cons turn turns ih =>
    cases turn with
    | left x =>
      simp only [play] at played
      split at played
      · next taken => exact (Steps.left (take_sound player.left_sound taken)).trans (ih played)
      · contradiction
    | right x =>
      simp only [play] at played
      split at played
      · next taken => exact (Steps.right (take_sound player.right_sound taken)).trans (ih played)
      · contradiction
    | event v =>
      simp only [play] at played
      split at played
      · next happened =>
        exact Relation.ReflTransGen.head (.event (player.event_sound happened)) (ih played)
      · contradiction

end Runas.Interaction
