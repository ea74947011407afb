import Runas.Interaction.Total

/-! The rounds of a loop: the states it is in whenever its body starts again, in any run. -/
namespace Runas.Interaction

variable {E : Type} {R : E → Type} {K σ β ε : Type}

/-- The loop, begun in `start`, comes to the head of a round in some state. -/
inductive Rounds (step : K → (event : E) → R event → K → Prop) (body : σ → Fallible ε E R (σ ⊕ β))
    (start : σ) (k : K) : σ → K → Prop
  | start : Rounds step body start k start k
  | again {state next : σ} {between k' : K} (earlier : Rounds step body start k state between)
      (round : Runs step (body state).run between (.ok (.inl next)) k') : Rounds step body start k next k'

theorem Runs.yields {step : K → (event : E) → R event → K → Prop} {x : Fallible ε E R β} {k k' : K} {value : β}
    (run : Runs step x.run k (.ok value) k') {Q : β → Prop} (yields : Fallible.Yields (fun _ => True) x Q) : Q value := by
  obtain ⟨t,trace,all⟩ := run.traced (A := fun _ => True) fun _ _ _ _ _ => trivial
  exact yields t value trace all

theorem Rounds.invariant {step : K → (event : E) → R event → K → Prop} {body : σ → Fallible ε E R (σ ⊕ β)}
    {start : σ} {k : K} {I : σ → Prop} {Q : β → Prop} (initial : I start)
    (keeps : ∀ state,I state → Fallible.Yields (fun _ => True) (body state) (Sum.elim I Q))
    {state : σ} {k' : K} (rounds : Rounds step body start k state k') : I state := by
  induction rounds with
  | start => exact initial
  | again earlier round ih => exact round.yields (keeps _ ih)

/-- What each round keeps of the state and of the environment's, when no round goes wrong. -/
theorem Rounds.kept {step : K → (event : E) → R event → K → Prop} {body : σ → Fallible ε E R (σ ⊕ β)}
    {start : σ} {k : K} {I : σ → K → Prop} (initial : I start k)
    (round : ∀ state k,I state k → Total step (fun
      | .ok (.inl next),k' => I next k'
      | _,_ => True) (body state).run k)
    {state : σ} {k' : K} (rounds : Rounds step body start k state k') : I state k' := by
  induction rounds with
  | start => exact initial
  | again earlier taken ih => exact (round _ _ ih).sound.2 _ _ taken

/-- A loop that always goes on well comes to a last round. -/
theorem Rounds.finish {step : K → (event : E) → R event → K → Prop} {body : σ → Fallible ε E R (σ ⊕ β)}
    {start : σ} {k : K} (I : σ → K → Prop) (measure : σ → K → Nat) {Q : β → K → Prop}
    (round : ∀ state k,I state k → Total step (fun
      | .ok (.inl next),k' => I next k' ∧ measure next k' < measure state k
      | .ok (.inr result),k' => Q result k'
      | .error _,_ => False) (body state).run k)
    {state : σ} {between : K} (rounds : Rounds step body start k state between) (held : I state between) :
    ∃ last before result k',Rounds step body start k last before ∧ Runs step (body last).run before (.ok (.inr result)) k' ∧
      Q result k' := by
  induction size : measure state between using Nat.strongRecOn generalizing state between with
  | _ n ih =>
    obtain ⟨⟨out,k',taken⟩,holds⟩ := (round state between held).sound
    have left := holds out k' taken
    rcases out with error | next | result
    · exact left.elim
    · obtain ⟨kept,less⟩ := left
      exact ih _ (size ▸ less) (rounds.again taken) kept rfl
    · exact ⟨state,between,result,k',rounds,taken,left⟩

/-- In any run the loop has the property at the head of every round and in what the last one leaves. -/
def Throughout (step : K → (event : E) → R event → K → Prop) (body : σ → Fallible ε E R (σ ⊕ σ)) (start : σ) (k : K)
    (P : σ → Prop) : Prop :=
  ∀ state between,Rounds step body start k state between →
    P state ∧ ∀ result k',Runs step (body state).run between (.ok (.inr result)) k' → P result

end Runas.Interaction
