import Runas.Interaction.Program

/-! Safety of a program among others. A setting says what a call may do to the
state of the environment, what the others may do to it between two calls, and
what must hold whenever a call is made. Safety is stated step by step, so that
it speaks of every state a run passes through and of runs that never end. -/
namespace Runas.Interaction

structure Setting (E : Type) (R : E → Type) (K : Type) where
  step : K → (event : E) → R event → K → Prop
  rely : K → K → Prop
  guard : K → E → Prop

/-- One step of a program that runs alone. -/
inductive Step {E : Type} {R : E → Type} {K : Type}
    (step : K → (event : E) → R event → K → Prop) :
    {α : Type} → Program E R α → K → Program E R α → K → Prop
  | call {α : Type} {event : E} {next : R event → Program E R α} {k k' : K} {answer : R event}
      (taken : step k event answer k') : Step step (.call event next) k (next answer) k'
  | loop {σ β α : Type} (body : σ → Program E R (σ ⊕ β)) (start : σ) (next : β → Program E R α)
      (k : K) : Step step (.loop body start next) k ((body start).bind (Program.unroll body next)) k

variable {E : Type} {R : E → Type} {K σ α β γ ε : Type}

namespace Setting
variable (S : Setting E R K)

/-- What must hold of the state a program is in now. -/
def Now (Q : α → K → Prop) : Program E R α → K → Prop
  | .done value,k => Q value k
  | .call event _,k => S.guard k event
  | .loop _ _ _,_ => True

def SafeFor : Nat → Program E R α → (α → K → Prop) → K → Prop
  | 0,_,_,_ => True
  | n+1,p,Q,k => S.Now Q p k ∧ (∀ k', S.rely k k' → SafeFor n p Q k') ∧
      ∀ p' k', Step S.step p k p' k' → SafeFor n p' Q k'

/-- Every call made from here on meets the guard, and if the program ends its
result meets `Q`, whatever the others do meanwhile. -/
def Safe (p : Program E R α) (Q : α → K → Prop) (k : K) : Prop := ∀ n, S.SafeFor n p Q k

/-- What the others cannot make false. -/
def Stable (P : K → Prop) : Prop := ∀ k k', P k → S.rely k k' → P k'

variable {S}

theorem Stable.and {P Q : K → Prop} (first : S.Stable P) (second : S.Stable Q) :
    S.Stable (fun k => P k ∧ Q k) :=
  fun k k' holds moved => ⟨first k k' holds.1 moved,second k k' holds.2 moved⟩

theorem Stable.true : S.Stable (fun _ => True) := fun _ _ _ _ => trivial

theorem Safe.now {p : Program E R α} {Q : α → K → Prop} {k : K} (safe : S.Safe p Q k) :
    S.Now Q p k := (safe 1).1

theorem Safe.pending {p : Program E R α} {Q : α → K → Prop} {k : K} {event : E} (safe : S.Safe p Q k)
    (pending : p.pending = some event) : S.guard k event := by
  have now := safe.now
  cases p with
  | call other next =>
    cases pending
    exact now
  | done _ | loop _ _ _ => cases pending

theorem Safe.rely {p : Program E R α} {Q : α → K → Prop} {k k' : K} (safe : S.Safe p Q k)
    (moved : S.rely k k') : S.Safe p Q k' := fun n => (safe (n+1)).2.1 k' moved

theorem Safe.step {p p' : Program E R α} {Q : α → K → Prop} {k k' : K} (safe : S.Safe p Q k)
    (taken : Step S.step p k p' k') : S.Safe p' Q k' := fun n => (safe (n+1)).2.2 p' k' taken

theorem Safe.stable (p : Program E R α) (Q : α → K → Prop) : S.Stable (S.Safe p Q) :=
  fun _ _ safe moved => safe.rely moved

theorem SafeFor.less {p : Program E R α} {Q : α → K → Prop} {n : Nat} {k : K}
    (safe : S.SafeFor (n+1) p Q k) : S.SafeFor n p Q k := by
  induction n generalizing p k with
  | zero => trivial
  | succ n ih =>
    exact ⟨safe.1,fun k' moved => ih (safe.2.1 k' moved),fun p' k' taken => ih (safe.2.2 p' k' taken)⟩

theorem SafeFor.mono {p : Program E R α} {P Q : α → K → Prop} {n : Nat} {k : K}
    (weaker : ∀ value k, P value k → Q value k) (safe : S.SafeFor n p P k) : S.SafeFor n p Q k := by
  induction n generalizing p k with
  | zero => trivial
  | succ n ih =>
    refine ⟨?_,fun k' moved => ih (safe.2.1 k' moved),fun p' k' taken => ih (safe.2.2 p' k' taken)⟩
    cases p with
    | done value => exact weaker value k safe.1
    | call event next => exact safe.1
    | loop body start next => trivial

theorem Safe.mono {p : Program E R α} {P Q : α → K → Prop} {k : K}
    (safe : S.Safe p P k) (weaker : ∀ value k, P value k → Q value k) : S.Safe p Q k :=
  fun n => (safe n).mono weaker

theorem Safe.done {Q : α → K → Prop} {value : α} {k : K} (stable : S.Stable (Q value))
    (holds : Q value k) : S.Safe (.done value) Q k := by
  intro n
  induction n generalizing k with
  | zero => trivial
  | succ n ih =>
    refine ⟨holds,fun k' moved => ih (stable k k' holds moved),?_⟩
    intro p' k' taken
    cases taken

/-- Safety carries over to a setting that allows less and asks for less. -/
theorem Safe.under {T : Setting E R K} {p : Program E R α} {Q : α → K → Prop} {k : K} (safe : S.Safe p Q k)
    (steps : ∀ k event answer k', T.step k event answer k' → S.step k event answer k')
    (others : ∀ k k', T.rely k k' → S.rely k k') (guards : ∀ k event, S.guard k event → T.guard k event) :
    T.Safe p Q k := by
  intro n
  induction n generalizing p k with
  | zero => trivial
  | succ n ih =>
    refine ⟨?_,fun k' moved => ih (safe.rely (others k k' moved)),fun p' k' taken => ?_⟩
    · have now := safe.now
      cases p with
      | done value => exact now
      | call event next => exact guards k event now
      | loop body start next => trivial
    · cases taken with
      | call taken => exact ih (safe.step (.call (steps _ _ _ _ taken)))
      | loop => exact ih (safe.step (.loop _ _ _ _))

theorem Safe.free {p : Program E R α} {k : K} (free : ∀ k event, S.guard k event) :
    S.Safe p (fun _ _ => True) k := by
  intro n
  induction n generalizing p k with
  | zero => trivial
  | succ n ih =>
    refine ⟨?_,fun _ _ => ih,fun _ _ _ => ih⟩
    cases p with
    | done value => trivial
    | call event next => exact free k event
    | loop body start next => trivial

theorem Safe.call {event : E} {next : R event → Program E R α} {Q : α → K → Prop} {P : K → Prop}
    {k : K} (stable : S.Stable P) (holds : P k) (allowed : ∀ k, P k → S.guard k event)
    (after : ∀ k answer k', P k → S.step k event answer k' → S.Safe (next answer) Q k') :
    S.Safe (.call event next) Q k := by
  intro n
  induction n generalizing k with
  | zero => trivial
  | succ n ih =>
    refine ⟨allowed k holds,fun k' moved => ih (stable k k' holds moved),?_⟩
    intro p' k' taken
    cases taken with
    | call taken => exact after k _ k' holds taken n

private theorem SafeFor.bind {p : Program E R α} {f : α → Program E R β} {Q : β → K → Prop} {n : Nat}
    {k : K} (first : S.SafeFor n p (fun value => S.SafeFor n (f value) Q) k) :
    S.SafeFor n (p.bind f) Q k := by
  induction n generalizing α p k with
  | zero => trivial
  | succ n ih =>
    have next {p' : Program E R α} {k' : K}
        (safe : S.SafeFor n p' (fun value => S.SafeFor (n+1) (f value) Q) k') :
        S.SafeFor n (p'.bind f) Q k' := ih (safe.mono fun _ _ holds => holds.less)
    cases p with
    | done value => exact first.1
    | call event next' =>
      refine ⟨first.1,fun k' moved => next (first.2.1 k' moved),?_⟩
      intro p' k' taken
      cases taken with
      | call taken => exact next (first.2.2 _ k' (.call taken))
    | loop body start next' =>
      refine ⟨trivial,fun k' moved => next (first.2.1 k' moved),?_⟩
      intro p' k' taken
      cases taken with
      | loop =>
        have unrolled := next (first.2.2 _ k (.loop body start next' k))
        rw [Program.bind_assoc] at unrolled
        simpa only [Program.unroll_bind] using unrolled

theorem Safe.bind {p : Program E R α} {f : α → Program E R β} {Q : β → K → Prop} {k : K}
    (first : S.Safe p (fun value => S.Safe (f value) Q) k) : S.Safe (p.bind f) Q k :=
  fun n => ((first n).mono fun _ _ holds => holds n).bind

/-- A loop keeps a stable invariant of its state through every round. -/
theorem Safe.loop {body : σ → Program E R (σ ⊕ β)} {start : σ} {next : β → Program E R α}
    {Q : α → K → Prop} {I : σ → K → Prop} {k : K} (stable : ∀ state, S.Stable (I state))
    (holds : I start k)
    (round : ∀ state k, I state k → S.Safe (body state) (fun
      | .inl again => I again
      | .inr result => S.Safe (next result) Q) k) :
    S.Safe (.loop body start next) Q k := by
  intro n
  induction n generalizing start k with
  | zero => trivial
  | succ n ih =>
    refine ⟨trivial,fun k' moved => ih (stable start k k' holds moved),?_⟩
    intro p' k' taken
    cases taken with
    | loop =>
      apply SafeFor.bind
      refine (round start k holds n).mono ?_
      intro outcome k' reached
      cases outcome with
      | inl again => exact ih reached
      | inr result => exact reached n

theorem Safe.iterate {body : σ → Program E R (σ ⊕ β)} {start : σ} {Q : β → K → Prop}
    {I : σ → K → Prop} {k : K} (stable : ∀ state, S.Stable (I state))
    (ends : ∀ result, S.Stable (Q result)) (holds : I start k)
    (round : ∀ state k, I state k → S.Safe (body state) (fun
      | .inl again => I again
      | .inr result => Q result) k) :
    S.Safe (Program.iterate body start) Q k := by
  refine Safe.loop stable holds fun state k kept => (round state k kept).mono ?_
  intro outcome k' reached
  cases outcome with
  | inl again => exact reached
  | inr result => exact .done (ends result) reached

theorem Safe.runs {p : Program E R α} {Q : α → K → Prop} {k final : K} {value : α}
    (safe : S.Safe p Q k) (run : Runs S.step p k value final) : Q value final := by
  induction run with
  | done value k => exact safe.now
  | call taken rest ih => exact ih (safe.step (.call taken))
  | loop rest ih => exact ih (safe.step (.loop _ _ _ _))

end Setting

namespace Fallible
variable {S : Setting E R K}

/-- `?` passes the error on, so a postcondition on errors must be stable. -/
theorem safe_bind {x : Fallible ε E R α} {f : α → Fallible ε E R β} {Q : Except ε β → K → Prop} {k : K}
    (errors : ∀ error, S.Stable (Q (.error error)))
    (first : S.Safe x.run (fun
      | .ok value => S.Safe (f value).run Q
      | .error error => Q (.error error)) k) :
    S.Safe (x >>= f).run Q k := by
  rw [run_bind]
  refine Setting.Safe.bind (first.mono ?_)
  intro result k' reached
  cases result with
  | ok value => exact reached
  | error error => exact .done (errors error) reached

theorem safe_ask {event : E} {f : R event → Fallible ε E R α} {Q : Except ε α → K → Prop} {P : K → Prop}
    {k : K} (stable : S.Stable P) (holds : P k) (allowed : ∀ k, P k → S.guard k event)
    (after : ∀ k answer k', P k → S.step k event answer k' → S.Safe (f answer).run Q k') :
    S.Safe (Fallible.ask event >>= f).run Q k := Setting.Safe.call stable holds allowed after

/-- A part that cannot fail comes first. -/
theorem safe_lift {p : Program E R α} {f : α → Fallible ε E R β} {Q : Except ε β → K → Prop} {k : K}
    (first : S.Safe p (fun value => S.Safe (f value).run Q) k) :
    S.Safe ((liftM p : Fallible ε E R α) >>= f).run Q k := by
  have split : ((liftM p : Fallible ε E R α) >>= f).run = p.bind fun value => (f value).run := by
    change (p.bind fun value => .done (Except.ok value)).bind (ExceptT.bindCont f) = _
    rw [Program.bind_assoc]
    rfl
  rw [split]
  exact Setting.Safe.bind first

theorem safe_releasing {release : Program E R Unit} {body : Fallible ε E R α}
    {Q : Except ε α → K → Prop} {k : K} (ends : ∀ result, S.Stable (Q result))
    (held : S.Safe body.run (fun result => S.Safe release (fun _ => Q result)) k) :
    S.Safe (releasing release body).run Q k :=
  Setting.Safe.bind (held.mono fun result _ released =>
    Setting.Safe.bind (released.mono fun _ _ reached => .done (ends result) reached))

theorem safe_releasingOnError {release : Program E R Unit} {body : Fallible ε E R α}
    {Q : Except ε α → K → Prop} {k : K} (ends : ∀ result, S.Stable (Q result))
    (held : S.Safe body.run (fun
      | .ok value => Q (.ok value)
      | .error error => S.Safe release (fun _ => Q (.error error))) k) :
    S.Safe (releasingOnError release body).run Q k := by
  refine Setting.Safe.bind (held.mono ?_)
  intro result k reached
  cases result with
  | ok value => exact .done (ends _) reached
  | error error => exact Setting.Safe.bind (reached.mono fun _ _ reached => .done (ends _) reached)

theorem safe_iterate {body : σ → Fallible ε E R (σ ⊕ β)} {start : σ} {Q : Except ε β → K → Prop}
    {I : σ → K → Prop} {k : K} (stable : ∀ state, S.Stable (I state))
    (ends : ∀ result, S.Stable (Q result)) (holds : I start k)
    (round : ∀ state k, I state k → S.Safe (body state).run (fun
      | .ok (.inl again) => I again
      | .ok (.inr result) => Q (.ok result)
      | .error error => Q (.error error)) k) :
    S.Safe (iterate body start).run Q k := by
  refine Setting.Safe.iterate stable ends holds fun state k kept =>
    Setting.Safe.bind ((round state k kept).mono ?_)
  intro outcome k' reached
  rcases outcome with error | again | result
  · exact .done (ends _) reached
  · exact .done (stable again) reached
  · exact .done (ends _) reached

end Fallible

end Runas.Interaction
