import Runas.Interaction.Trace

/-! Total correctness against an environment with a state: every run comes to an end, however
the environment answers among what it may answer, and the end meets a postcondition. -/
namespace Runas.Interaction

variable {E : Type} {R : E → Type} {K σ α β ε : Type}

/-- From the state the program ends in every run, in a value and a state that meet `Q`. -/
inductive Total {α : Type} (step : K → (event : E) → R event → K → Prop) (Q : α → K → Prop) :
    Program E R α → K → Prop
  | done {value : α} {k : K} (holds : Q value k) : Total step Q (.done value) k
  | call {event : E} {next : R event → Program E R α} {k : K} (answered : ∃ answer k',step k event answer k')
      (rest : ∀ answer k',step k event answer k' → Total step Q (next answer) k') : Total step Q (.call event next) k
  | loop {σ β : Type} {body : σ → Program E R (σ ⊕ β)} {start : σ} {next : β → Program E R α} {k : K}
      (rest : Total step Q ((body start).bind (Program.unroll body next)) k) : Total step Q (.loop body start next) k

namespace Total
variable {step : K → (event : E) → R event → K → Prop}

theorem mono {P Q : α → K → Prop} {p : Program E R α} {k : K} (total : Total step P p k)
    (weaker : ∀ value k,P value k → Q value k) : Total step Q p k := by
  induction total with
  | done holds => exact .done (weaker _ _ holds)
  | call answered rest ih => exact .call answered ih
  | loop rest ih => exact .loop ih

theorem bind {Q : β → K → Prop} {p : Program E R α} {f : α → Program E R β} {k : K}
    (first : Total step (fun value => Total step Q (f value)) p k) : Total step Q (p.bind f) k := by
  induction first with
  | done holds => exact holds
  | call answered rest ih => exact .call answered ih
  | loop rest ih =>
    refine .loop ?_
    rw [Program.bind_assoc] at ih
    simpa only [Program.unroll_bind] using ih

theorem ask {Q : β → K → Prop} {event : E} {f : R event → Program E R β} {k : K}
    (answered : ∃ answer k',step k event answer k') (rest : ∀ answer k',step k event answer k' → Total step Q (f answer) k') :
    Total step Q ((Program.ask event).bind f) k := .call answered rest

theorem iterate {Q : β → K → Prop} {body : σ → Program E R (σ ⊕ β)} {start : σ} {k : K} (I : σ → K → Prop)
    (measure : σ → K → Nat) (initial : I start k)
    (round : ∀ state k,I state k → Total step (fun
      | .inl next,k' => I next k' ∧ measure next k' < measure state k
      | .inr result,k' => Q result k') (body state) k) : Total step Q (Program.iterate body start) k := by
  induction size : measure start k using Nat.strongRecOn generalizing start k with
  | _ n ih =>
    refine .loop (.bind ((round start k initial).mono ?_))
    intro outcome k' held
    cases outcome with
    | inr result => exact .done held
    | inl next =>
      obtain ⟨kept,less⟩ := held
      exact ih (measure next k') (size ▸ less) kept rfl

/-- Every complete run from the state meets the postcondition, and there is one. -/
theorem sound {Q : α → K → Prop} {p : Program E R α} {k : K} (total : Total step Q p k) :
    (∃ value k',Runs step p k value k') ∧ ∀ value k',Runs step p k value k' → Q value k' := by
  induction total with
  | done holds =>
    refine ⟨⟨_,_,.done _ _⟩,fun value k' run => ?_⟩
    obtain ⟨rfl,rfl⟩ := (runs_done _ _ _ _).mp run
    exact holds
  | call answered rest ih =>
    obtain ⟨answer,k',taken⟩ := answered
    obtain ⟨⟨value,final,run⟩,_⟩ := ih answer k' taken
    refine ⟨⟨value,final,.call taken run⟩,fun value final run => ?_⟩
    obtain ⟨answer,k',taken,later⟩ := (runs_call _ _ _ _ _).mp run
    exact (ih answer k' taken).2 value final later
  | loop rest ih =>
    obtain ⟨⟨value,final,run⟩,holds⟩ := ih
    exact ⟨⟨value,final,.loop run⟩,fun value final run => holds value final ((runs_loop _ _ _ _ _ _).mp run)⟩

theorem meets {P Q : α → K → Prop} {p : Program E R α} {k : K} (first : Total step P p k) (second : Total step Q p k) :
    ∃ value k',P value k' ∧ Q value k' := by
  obtain ⟨⟨value,k',run⟩,holds⟩ := first.sound
  exact ⟨value,k',holds value k' run,second.sound.2 value k' run⟩

theorem after {Q : β → K → Prop} {p : Program E R α} {f : α → Program E R β} {k k' : K} {value : α}
    (total : Total step Q (p.bind f) k) (run : Runs step p k value k') : Total step Q (f value) k' := by
  induction run with
  | done value k => exact total
  | call taken rest ih =>
    cases total with
    | call _ later => exact ih (later _ _ taken)
  | loop rest ih =>
    cases total with
    | loop later =>
      refine ih ?_
      rw [Program.bind_assoc]
      simpa only [Program.unroll_bind] using later

/-- What holds of every trace of allowed exchanges holds at the end. -/
theorem traced {A : Exchange E R → Prop} (allowed : ∀ k event answer k',step k event answer k' → A ⟨event,answer⟩)
    {P : α → Prop} {Q : α → K → Prop} {p : Program E R α} {k : K} (total : Total step Q p k)
    (holds : ∀ t value,Trace p t value → (∀ x ∈ t,A x) → P value) : Total step (fun value k => P value ∧ Q value k) p k := by
  induction total with
  | done ends => exact .done ⟨holds [] _ (.done _) (fun _ none => nomatch none),ends⟩
  | call answered rest ih =>
    refine .call answered fun answer k' taken => ih answer k' taken fun t value trace all => ?_
    refine holds (_ :: t) value (.call trace) fun x member => ?_
    rcases List.mem_cons.mp member with rfl | later
    · exact allowed _ _ _ _ taken
    · exact all x later
  | loop rest ih => exact .loop (ih fun t value trace => holds t value (.loop trace))

theorem fallible_bind {Q : Except ε β → K → Prop} {x : Fallible ε E R α} {f : α → Fallible ε E R β} {k : K}
    (first : Total step (fun
      | .ok value,k' => Total step Q (f value).run k'
      | .error error,k' => Q (.error error) k') x.run k) : Total step Q (x >>= f).run k := by
  rw [Fallible.run_bind]
  refine .bind (first.mono fun result k' held => ?_)
  cases result with
  | ok value => exact held
  | error error => exact .done held

theorem fallible_ask {Q : Except ε β → K → Prop} {event : E} {f : R event → Fallible ε E R β} {k : K}
    (answered : ∃ answer k',step k event answer k') (rest : ∀ answer k',step k event answer k' → Total step Q (f answer).run k') :
    Total step Q (Fallible.ask event >>= f).run k := .call answered rest

theorem fallible_iterate {Q : Except ε β → K → Prop} {body : σ → Fallible ε E R (σ ⊕ β)} {start : σ} {k : K}
    (I : σ → K → Prop) (measure : σ → K → Nat) (initial : I start k)
    (round : ∀ state k,I state k → Total step (fun
      | .ok (.inl next),k' => I next k' ∧ measure next k' < measure state k
      | .ok (.inr result),k' => Q (.ok result) k'
      | .error error,k' => Q (.error error) k') (body state).run k) : Total step Q (Fallible.iterate body start).run k := by
  refine iterate I measure initial fun state k kept => .bind ((round state k kept).mono ?_)
  intro outcome k' held
  rcases outcome with error | next | result
  · exact .done held
  · exact .done held
  · exact .done held

theorem releasing {Q : Except ε α → K → Prop} {release : Program E R Unit} {body : Fallible ε E R α} {k : K}
    (total : Total step (fun result => Total step (fun _ => Q result) release) body.run k) :
    Total step Q (Fallible.releasing release body).run k :=
  .bind (total.mono fun _ _ released => .bind (released.mono fun _ _ held => .done held))

theorem lift {Q : Except ε α → K → Prop} {p : Program E R α} {k : K}
    (total : Total step (fun value => Q (.ok value)) p k) : Total step Q (liftM p : Fallible ε E R α).run k :=
  .bind (total.mono fun _ _ held => .done held)

end Total

/-- A run against an environment is a trace of exchanges that the environment makes. -/
theorem Runs.traced {step : K → (event : E) → R event → K → Prop} {A : Exchange E R → Prop}
    (allowed : ∀ k event answer k',step k event answer k' → A ⟨event,answer⟩) {p : Program E R α} {k final : K} {value : α}
    (run : Runs step p k value final) : ∃ t,Trace p t value ∧ ∀ x ∈ t,A x := by
  induction run with
  | done value k => exact ⟨[],.done value,fun _ none => nomatch none⟩
  | call taken rest ih =>
    obtain ⟨t,trace,all⟩ := ih
    refine ⟨_ :: t,.call trace,fun x member => ?_⟩
    rcases List.mem_cons.mp member with rfl | later
    · exact allowed _ _ _ _ taken
    · exact all x later
  | loop rest ih =>
    obtain ⟨t,trace,all⟩ := ih
    exact ⟨t,.loop trace,all⟩

end Runas.Interaction
