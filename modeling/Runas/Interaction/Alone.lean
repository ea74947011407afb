import Runas.Interaction.Parallel
import Runas.Interaction.Trace

/-! A program that nothing else runs beside. Its safety is about the states it can
reach, and a loop of it keeps an invariant of the exchanges made so far. -/
namespace Runas.Interaction

variable {E : Type} {R : E → Type} {K σ α β γ ε : Type}

def alone (step : K → (event : E) → R event → K → Prop) (guard : K → E → Prop) : Setting E R K :=
  ⟨step,fun k k' => k' = k,guard⟩

def Steps (step : K → (event : E) → R event → K → Prop) (p : Program E R α) (k : K)
    (p' : Program E R α) (k' : K) : Prop :=
  Relation.ReflTransGen (fun a b : Program E R α × K => Step step a.1 a.2 b.1 b.2) (p,k) (p',k')

section alone
variable {step : K → (event : E) → R event → K → Prop} {guard : K → E → Prop}

theorem stable_alone (P : K → Prop) : (alone step guard).Stable P := fun _ _ holds same => same ▸ holds

theorem Setting.Safe.steps {S : Setting E R K} {p p' : Program E R α} {Q : α → K → Prop} {k k' : K}
    (safe : S.Safe p Q k) (steps : Steps S.step p k p' k') : S.Safe p' Q k' := by
  unfold Steps at steps
  generalize start : (p,k) = a at steps
  generalize finish : (p',k') = b at steps
  induction steps generalizing p' k' with
  | refl => cases start; cases finish; exact safe
  | tail _ taken ih => cases finish; exact (ih rfl).step taken

/-- A program that runs alone is safe when no state it reaches is one where it makes
a call out of guard. -/
theorem safe_alone_iff {p : Program E R α} {k : K} : (alone step guard).Safe p (fun _ _ => True) k ↔
    ∀ p' k' event, Steps step p k p' k' → p'.pending = some event → guard k' event := by
  constructor
  · intro safe p' k' event steps pending
    have now := (safe.steps steps).now
    cases p' with
    | call other next => cases pending; exact now
    | done _ | loop _ _ _ => cases pending
  · intro reached n
    induction n generalizing p k with
    | zero => trivial
    | succ n ih =>
      refine ⟨?_,?_,?_⟩
      · cases p with
        | done value => trivial
        | call event next => exact reached _ _ event .refl rfl
        | loop body start next => trivial
      · intro k' same
        cases (same : k' = k)
        exact ih reached
      · intro p' k' taken
        have first : Steps step p k p' k' := .single taken
        exact ih fun p'' k'' event steps => reached p'' k'' event (first.trans steps)

theorem Setting.Safe.after {S : Setting E R K} {p : Program E R α} {f : α → Program E R β}
    {Q : β → K → Prop} {k k' : K} {value : α} (safe : S.Safe (p.bind f) Q k)
    (run : Runs S.step p k value k') : S.Safe (f value) Q k' := by
  induction run with
  | done value k => exact safe
  | call taken rest ih => exact ih (safe.step (.call taken))
  | loop rest ih =>
    have unrolled := safe.step (.loop _ _ _ _)
    refine ih ?_
    rw [Program.bind_assoc]
    simpa only [Program.unroll_bind] using unrolled

theorem Setting.Safe.done_alone {Q : α → K → Prop} {value : α} {k : K} (holds : Q value k) :
    (alone step guard).Safe (.done value) Q k := .done (stable_alone _) holds

theorem Setting.Safe.call_alone {event : E} {next : R event → Program E R α} {Q : α → K → Prop} {k : K}
    (allowed : guard k event)
    (after : ∀ answer k', step k event answer k' → (alone step guard).Safe (next answer) Q k') :
    (alone step guard).Safe (.call event next) Q k := by
  refine .call (stable_alone (· = k)) rfl ?_ ?_
  · intro other same
    exact same ▸ allowed
  · intro other answer k' same taken
    cases same
    exact after answer k' taken

theorem Fallible.safe_ask_alone {event : E} {f : R event → Fallible ε E R α} {Q : Except ε α → K → Prop}
    {k : K} (allowed : guard k event)
    (after : ∀ answer k', step k event answer k' → (alone step guard).Safe (f answer).run Q k') :
    (alone step guard).Safe (Fallible.ask event >>= f).run Q k :=
  Setting.Safe.call_alone allowed after

theorem Fallible.safe_bind_alone {x : Fallible ε E R α} {f : α → Fallible ε E R β}
    {Q : Except ε β → K → Prop} {k : K} (first : (alone step guard).Safe x.run (fun
      | .ok value => (alone step guard).Safe (f value).run Q
      | .error error => Q (.error error)) k) : (alone step guard).Safe (x >>= f).run Q k :=
  Fallible.safe_bind (fun _ => stable_alone _) first

end alone

theorem Runs.steps {step : K → (event : E) → R event → K → Prop} {p : Program E R α} {k final : K} {value : α}
    (run : Runs step p k value final) : Steps step p k (.done value) final := by
  induction run with
  | done value k => exact .refl
  | call taken rest ih => exact .head (.call taken) ih
  | loop rest ih => exact .head (.loop _ _ _ _) ih

theorem Runs.answered {step : K → (event : E) → R event → K → Prop} {event : E}
    {next : R event → Program E R α} {k k' final : K} {value : α} (answer : R event)
    (taken : step k event answer k') (rest : Runs step (next answer) k' value final) :
    Runs step (.call event next) k value final := .call taken rest

theorem Fallible.runs_ask {step : K → (event : E) → R event → K → Prop} {event : E}
    {f : R event → Fallible ε E R α} {k k' final : K} {result : Except ε α} (answer : R event)
    (taken : step k event answer k') (rest : Runs step (f answer).run k' result final) :
    Runs step (Fallible.ask event >>= f).run k result final := .call taken rest

theorem Fallible.safe_after {S : Setting E R K} {x : Fallible ε E R α} {f : α → Fallible ε E R β}
    {Q : Except ε β → K → Prop} {k k' : K} {value : α} (safe : S.Safe (x >>= f).run Q k)
    (run : Runs S.step x.run k (.ok value) k') : S.Safe (f value).run Q k' := by
  rw [run_bind] at safe
  exact safe.after run

/-- The environment that keeps the record and gives only the answers allowed after it. -/
def recordIf (allowed : List (Exchange E R) → (event : E) → R event → Prop) (t : List (Exchange E R))
    (event : E) (answer : R event) (t' : List (Exchange E R)) : Prop :=
  allowed t event answer ∧ t' = t ++ [⟨event,answer⟩]

/-- Every exchange of the trace is allowed after the ones before it. -/
def Allowed (allowed : List (Exchange E R) → (event : E) → R event → Prop) :
    List (Exchange E R) → List (Exchange E R) → Prop
  | _,[] => True
  | before,x :: t => allowed before x.1 x.2 ∧ Allowed allowed (before ++ [x]) t

/-- A trace all of whose exchanges are allowed is a run to its end. -/
theorem Trace.steps {allowed : List (Exchange E R) → (event : E) → R event → Prop} {p : Program E R α}
    {t before : List (Exchange E R)} {value : α} (trace : Trace p t value) (all : Allowed allowed before t) :
    Steps (recordIf allowed) p before (.done value) (before ++ t) := by
  induction trace generalizing before with
  | done value =>
    rw [List.append_nil]
    exact .refl
  | @call _ event next answer t value rest ih =>
    have later := ih all.2
    rw [List.append_assoc] at later
    exact .head (.call ⟨all.1,rfl⟩) later
  | loop rest ih => exact .head (.loop _ _ _ _) (ih all)

/-- What holds of every trace of a program holds when it ends, in the environment that
keeps the record. -/
private theorem safe_record {p : Program E R α} {Q : α → List (Exchange E R) → Prop}
    {before : List (Exchange E R)} (traces : ∀ t value, Trace p t value → Q value (before ++ t)) :
    (alone record fun _ _ => True).Safe p Q before := by
  intro n
  induction n generalizing p before with
  | zero => trivial
  | succ n ih =>
    refine ⟨?_,?_,?_⟩
    · cases p with
      | done value =>
        have now := traces [] value (.done value)
        rw [List.append_nil] at now
        exact now
      | call _ _ | loop _ _ _ => trivial
    · intro after same
      cases (same : after = before)
      exact ih traces
    · intro p' after taken
      cases taken with
      | @call _ event next _ _ answer taken =>
        cases (taken : after = before ++ [⟨event,answer⟩])
        refine ih fun t value trace => ?_
        simpa using traces _ value (.call trace)
      | loop body start next => exact ih fun t value trace => traces t value (.loop trace)

/-- An invariant of the state of a loop and of the exchanges made so far. -/
theorem Trace.iterate {body : σ → Program E R (σ ⊕ β)} {start : σ} {t : List (Exchange E R)} {value : β}
    (trace : Trace (Program.iterate body start) t value) (I : σ → List (Exchange E R) → Prop)
    (Q : β → List (Exchange E R) → Prop) (initial : I start [])
    (again : ∀ state before t next, I state before → Trace (body state) t (.inl next) → I next (before ++ t))
    (ends : ∀ state before t result, I state before → Trace (body state) t (.inr result) →
      Q result (before ++ t)) : Q value t := by
  have safe : (alone record fun _ _ => True).Safe (Program.iterate body start) Q [] := by
    refine .iterate (fun state => stable_alone (I state)) (fun result => stable_alone (Q result)) initial ?_
    intro state before held
    refine safe_record fun t outcome trace => ?_
    cases outcome with
    | inl next => exact again state before t next held trace
    | inr result => exact ends state before t result held trace
  have run := safe.runs (trace.runs [])
  rwa [List.nil_append] at run

end Runas.Interaction
