import Runas.Interaction.Program

/-! Complete runs by their exchanges: a call with the answer it got. A program is
deterministic in the answers, so a run is the list of its exchanges and the value
they lead to, and a given list can be replayed. -/
namespace Runas.Interaction

abbrev Exchange (E : Type) (R : E → Type) := (event : E) × R event

/-- The environment that answers in any way and only keeps the record. -/
def record {E : Type} {R : E → Type} (t : List (Exchange E R)) (event : E) (answer : R event)
    (t' : List (Exchange E R)) : Prop := t' = t ++ [⟨event,answer⟩]

variable {E : Type} {R : E → Type} {α β ε σ : Type}

/-- The program makes these exchanges, in this order and no others, and ends with the value. -/
inductive Trace : {α : Type} → Program E R α → List (Exchange E R) → α → Prop
  | done {α : Type} (value : α) : Trace (.done value) [] value
  | call {α : Type} {event : E} {next : R event → Program E R α} {answer : R event}
      {t : List (Exchange E R)} {value : α} (rest : Trace (next answer) t value) :
      Trace (.call event next) (⟨event,answer⟩ :: t) value
  | loop {σ β α : Type} {body : σ → Program E R (σ ⊕ β)} {start : σ} {next : β → Program E R α}
      {t : List (Exchange E R)} {value : α}
      (rest : Trace ((body start).bind (Program.unroll body next)) t value) :
      Trace (.loop body start next) t value

namespace Trace

theorem runs {p : Program E R α} {t : List (Exchange E R)} {value : α} (trace : Trace p t value)
    (before : List (Exchange E R)) : Runs record p before value (before ++ t) := by
  induction trace generalizing before with
  | done value => simp
  | @call _ event next answer t value rest ih =>
    have rest := ih (before ++ [⟨event,answer⟩])
    rw [List.append_assoc] at rest
    exact .call rfl rest
  | loop rest ih => exact .loop (ih before)

theorem of_runs {p : Program E R α} {before after : List (Exchange E R)} {value : α}
    (run : Runs record p before value after) : ∃ t, after = before ++ t ∧ Trace p t value := by
  induction run with
  | done value k => exact ⟨[],by simp,.done value⟩
  | @call _ event next k k' final answer value taken rest ih =>
    obtain ⟨t,rfl,trace⟩ := ih
    rw [show k' = k ++ [⟨event,answer⟩] from taken,List.append_assoc]
    exact ⟨⟨event,answer⟩ :: t,rfl,.call trace⟩
  | loop rest ih =>
    obtain ⟨t,rfl,trace⟩ := ih
    exact ⟨t,rfl,.loop trace⟩

end Trace

@[simp] theorem trace_done (value result : α) (t : List (Exchange E R)) :
    Trace (.done value) t result ↔ value = result ∧ t = [] :=
  ⟨fun h => by cases h; exact ⟨rfl,rfl⟩,fun ⟨same,empty⟩ => same ▸ empty ▸ .done _⟩

@[simp] theorem trace_pure (value result : α) (t : List (Exchange E R)) :
    Trace (pure value : Program E R α) t result ↔ value = result ∧ t = [] := trace_done value result t

@[simp] theorem trace_call (event : E) (next : R event → Program E R α) (t : List (Exchange E R))
    (value : α) : Trace (.call event next) t value ↔
      ∃ answer rest, t = ⟨event,answer⟩ :: rest ∧ Trace (next answer) rest value :=
  ⟨fun h => by cases h with | call rest => exact ⟨_,_,rfl,rest⟩,
    fun ⟨_,_,same,rest⟩ => same ▸ .call rest⟩

@[simp] theorem trace_ask (event : E) (t : List (Exchange E R)) (answer : R event) :
    Trace (Program.ask event) t answer ↔ t = [⟨event,answer⟩] := by
  simp [Program.ask]

@[simp] theorem trace_loop (body : σ → Program E R (σ ⊕ β)) (start : σ) (next : β → Program E R α)
    (t : List (Exchange E R)) (value : α) : Trace (.loop body start next) t value ↔
      Trace ((body start).bind (Program.unroll body next)) t value :=
  ⟨fun h => by cases h with | loop rest => exact rest,.loop⟩

@[simp] theorem trace_bind (p : Program E R α) (f : α → Program E R β) (t : List (Exchange E R))
    (value : β) : Trace (p.bind f) t value ↔
      ∃ first middle second, t = first ++ second ∧ Trace p first middle ∧
        Trace (f middle) second value := by
  constructor
  · intro trace
    have run := trace.runs []
    rw [List.nil_append,runs_bind] at run
    obtain ⟨middle,between,first,second⟩ := run
    obtain ⟨u,same,second⟩ := Trace.of_runs second
    obtain ⟨s,rest,first⟩ := Trace.of_runs first
    rw [List.nil_append] at rest
    exact ⟨s,middle,u,rest ▸ same,first,second⟩
  · rintro ⟨s,middle,u,rfl,first,second⟩
    have run : Runs record (p.bind f) [] value (s ++ u) :=
      (runs_bind p f [] (s ++ u) value).mpr ⟨middle,s,by simpa using first.runs [],second.runs s⟩
    obtain ⟨t,same,trace⟩ := Trace.of_runs run
    rw [List.nil_append] at same
    exact same ▸ trace

namespace Fallible

theorem trace_bind_ok (x : Fallible ε E R α) (f : α → Fallible ε E R β) (t : List (Exchange E R))
    (value : β) : Trace (x >>= f).run t (.ok value) ↔
      ∃ first middle second, t = first ++ second ∧ Trace x.run first (.ok middle) ∧
        Trace (f middle).run second (.ok value) := by
  rw [run_bind,trace_bind]
  constructor
  · rintro ⟨first,middle | middle,second,rfl,run,rest⟩
    · simp at rest
    · exact ⟨first,middle,second,rfl,run,rest⟩
  · rintro ⟨first,middle,second,rfl,run,rest⟩
    exact ⟨first,.ok middle,second,rfl,run,rest⟩

@[simp] theorem trace_ask (event : E) (t : List (Exchange E R)) (result : Except ε (R event)) :
    Trace (Fallible.ask event : Fallible ε E R (R event)).run t result ↔
      ∃ answer, t = [⟨event,answer⟩] ∧ result = .ok answer := by
  constructor
  · intro trace
    cases trace with | call rest => cases rest; exact ⟨_,rfl,rfl⟩
  · rintro ⟨answer,rfl,rfl⟩
    exact .call (.done _)

@[simp] theorem trace_lift_ok (p : Program E R α) (t : List (Exchange E R)) (value : α) :
    Trace (liftM p : Fallible ε E R α).run t (.ok value) ↔ Trace p t value := by
  change Trace (p.bind fun value => .done (Except.ok value : Except ε α)) t (.ok value) ↔ _
  simp

/-- A success has released nothing. -/
theorem trace_releasingOnError_ok {release : Program E R Unit} {body : Fallible ε E R α}
    {t : List (Exchange E R)} {value : α}
    (trace : Trace (releasingOnError release body).run t (.ok value)) : Trace body.run t (.ok value) := by
  obtain ⟨first,result,second,rfl,run,rest⟩ := (trace_bind _ _ _ _).mp trace
  cases result with
  | ok value =>
    obtain ⟨same,rfl⟩ := (trace_done _ _ _).mp rest
    cases same
    rwa [List.append_nil]
  | error error =>
    obtain ⟨_,_,_,_,_,thrown⟩ := (trace_bind _ _ _ _).mp rest
    obtain ⟨same,_⟩ := (trace_done _ _ _).mp thrown
    cases same

end Fallible

/-- Where only exchanges that `A` allows happen, the program ends, with a value and a
record that meet `Q`. It says so of programs without loops. -/
def Ensures (A : Exchange E R → Prop) :
    {α : Type} → Program E R α → (α → List (Exchange E R) → Prop) → List (Exchange E R) → Prop
  | _,.done value,Q,t => Q value t
  | _,.call event next,Q,t => (∃ answer, A ⟨event,answer⟩) ∧
      ∀ answer, A ⟨event,answer⟩ → Ensures A (next answer) Q (t ++ [⟨event,answer⟩])
  | _,.loop _ _ _,_,_ => False

section ensures
variable {A : Exchange E R → Prop}

theorem Ensures.mono {p : Program E R α} {P Q : α → List (Exchange E R) → Prop}
    {t : List (Exchange E R)} (ensured : Ensures A p P t) (weaker : ∀ value t, P value t → Q value t) :
    Ensures A p Q t := by
  induction p generalizing t with
  | done value => exact weaker _ _ ensured
  | call event next ih => exact ⟨ensured.1,fun answer allowed => ih answer (ensured.2 answer allowed) weaker⟩
  | loop => exact ensured

theorem Ensures.bind {p : Program E R α} {f : α → Program E R β}
    {Q : β → List (Exchange E R) → Prop} {t : List (Exchange E R)}
    (first : Ensures A p (fun value t => Ensures A (f value) Q t) t) : Ensures A (p.bind f) Q t := by
  induction p generalizing t with
  | done value => exact first
  | call event next ih => exact ⟨first.1,fun answer allowed => ih answer (first.2 answer allowed)⟩
  | loop => exact first.elim

theorem Ensures.call {event : E} {next : R event → Program E R α}
    {Q : α → List (Exchange E R) → Prop} {t : List (Exchange E R)} (known : R event)
    (allowed : ∀ answer, A ⟨event,answer⟩ ↔ answer = known)
    (rest : Ensures A (next known) Q (t ++ [⟨event,known⟩])) : Ensures A (.call event next) Q t :=
  ⟨⟨known,(allowed known).mpr rfl⟩,fun answer given => (allowed answer).mp given ▸ rest⟩

theorem Ensures.sound {p : Program E R α} {Q : α → List (Exchange E R) → Prop}
    {before : List (Exchange E R)} (ensured : Ensures A p Q before) :
    (∃ t value, Trace p t value ∧ ∀ x ∈ t, A x) ∧
      ∀ t value, Trace p t value → (∀ x ∈ t, A x) → Q value (before ++ t) := by
  induction p generalizing before with
  | done value =>
    refine ⟨⟨[],value,.done value,by simp⟩,?_⟩
    rintro t result ended -
    obtain ⟨rfl,rfl⟩ := (trace_done _ _ _).mp ended
    rw [List.append_nil]
    exact ensured
  | call event next ih =>
    obtain ⟨⟨answer,allowed⟩,rest⟩ := ensured
    refine ⟨?_,?_⟩
    · obtain ⟨t,value,trace,all⟩ := (ih answer (rest answer allowed)).1
      exact ⟨⟨event,answer⟩ :: t,value,.call trace,by simpa using ⟨allowed,all⟩⟩
    · intro t value whole all
      obtain ⟨given,t,rfl,trace⟩ := (trace_call _ _ _ _).mp whole
      have permitted : A ⟨event,given⟩ := all _ List.mem_cons_self
      have held := (ih given (rest given permitted)).2 t value trace
        fun x member => all x (List.mem_cons_of_mem _ member)
      simpa using held
  | loop => exact ensured.elim

theorem Fallible.ensures_bind {x : Fallible ε E R α} {f : α → Fallible ε E R β}
    {Q : Except ε β → List (Exchange E R) → Prop} {t : List (Exchange E R)}
    (first : Ensures A x.run (fun
      | .ok value => Ensures A (f value).run Q
      | .error error => Q (.error error)) t) : Ensures A (x >>= f).run Q t := by
  rw [run_bind]
  refine Ensures.bind (first.mono ?_)
  intro result t held
  cases result with
  | ok _ | error _ => exact held

@[simp] theorem ensures_done (value : α) (Q : α → List (Exchange E R) → Prop)
    (t : List (Exchange E R)) : Ensures A (.done value) Q t ↔ Q value t := Iff.rfl

@[simp] theorem ensures_pure (value : α) (Q : α → List (Exchange E R) → Prop)
    (t : List (Exchange E R)) : Ensures A (pure value) Q t ↔ Q value t := Iff.rfl

theorem Fallible.ensures_ask {event : E} {Q : Except ε (R event) → List (Exchange E R) → Prop}
    {t : List (Exchange E R)} (known : R event) (allowed : ∀ answer, A ⟨event,answer⟩ ↔ answer = known)
    (holds : Q (.ok known) (t ++ [⟨event,known⟩])) :
    Ensures A (Fallible.ask event : Fallible ε E R (R event)).run Q t :=
  Ensures.call known allowed holds

end ensures

/-- Where only exchanges that `A` allows happen, every value the computation ends with
meets `Q`. Nothing is said of its errors. -/
def Fallible.Yields (A : Exchange E R → Prop) (x : Fallible ε E R α) (Q : α → Prop) : Prop :=
  ∀ t value, Trace x.run t (.ok value) → (∀ exchange ∈ t, A exchange) → Q value

namespace Fallible
variable {A : Exchange E R → Prop}

@[simp] theorem yields_pure (value : α) (Q : α → Prop) :
    Yields A (pure value : Fallible ε E R α) Q ↔ Q value := by
  constructor
  · intro yields
    exact yields [] value (.done _) (by simp)
  · intro holds t result trace _
    obtain ⟨same,_⟩ := (trace_done _ _ _).mp trace
    cases same
    exact holds

@[simp] theorem yields_throw (error : ε) (Q : α → Prop) :
    Yields A (throw error : Fallible ε E R α) Q ↔ True := by
  refine ⟨fun _ => trivial,fun _ t value trace _ => ?_⟩
  obtain ⟨same,_⟩ := (trace_done _ _ _).mp trace
  cases same

theorem yields_throw_bind (error : ε) (f : α → Fallible ε E R β) (Q : β → Prop) :
    Yields A ((throw error : Fallible ε E R α) >>= f) Q := (yields_throw error Q).mpr trivial

@[simp] theorem yields_bind (x : Fallible ε E R α) (f : α → Fallible ε E R β) (Q : β → Prop) :
    Yields A (x >>= f) Q ↔ Yields A x (fun value => Yields A (f value) Q) := by
  constructor
  · intro yields first middle run allowed second value rest permitted
    refine yields (first ++ second) value ?_ ?_
    · exact (trace_bind_ok x f _ value).mpr ⟨first,middle,second,rfl,run,rest⟩
    · intro exchange member
      rcases List.mem_append.mp member with early | late
      · exact allowed exchange early
      · exact permitted exchange late
  · intro yields t value trace allowed
    obtain ⟨first,middle,second,rfl,run,rest⟩ := (trace_bind_ok x f t value).mp trace
    have earlier : ∀ exchange ∈ first, A exchange :=
      fun exchange member => allowed exchange (List.mem_append_left _ member)
    have later : ∀ exchange ∈ second, A exchange :=
      fun exchange member => allowed exchange (List.mem_append_right _ member)
    exact yields first middle run earlier second value rest later

@[simp] theorem yields_map (x : Fallible ε E R α) (f : α → β) (Q : β → Prop) :
    Yields A (f <$> x) Q ↔ Yields A x (fun value => Q (f value)) := by
  rw [map_eq_pure_bind,yields_bind]
  simp only [yields_pure]

@[simp] theorem yields_ask (event : E) (Q : R event → Prop) :
    Yields A (Fallible.ask event : Fallible ε E R (R event)) Q ↔ ∀ answer, A ⟨event,answer⟩ → Q answer := by
  constructor
  · intro yields answer allowed
    exact yields [⟨event,answer⟩] answer ((trace_ask event _ _).mpr ⟨answer,rfl,rfl⟩) (by simpa using allowed)
  · intro holds t value trace allowed
    obtain ⟨answer,rfl,same⟩ := (trace_ask event t _).mp trace
    cases same
    exact holds _ (allowed _ List.mem_cons_self)

@[simp] theorem yields_lift (p : Program E R α) (Q : α → Prop) :
    Yields A (liftM p : Fallible ε E R α) Q ↔
      ∀ t value, Trace p t value → (∀ exchange ∈ t, A exchange) → Q value := by
  constructor
  · exact fun yields t value trace => yields t value ((trace_lift_ok p t value).mpr trace)
  · exact fun holds t value trace => holds t value ((trace_lift_ok p t value).mp trace)

theorem Yields.true (x : Fallible ε E R α) : Yields A x (fun _ => True) := fun _ _ _ _ => trivial

theorem Yields.mono {x : Fallible ε E R α} {P Q : α → Prop} (yields : Yields A x P)
    (weaker : ∀ value, P value → Q value) : Yields A x Q :=
  fun t value trace allowed => weaker value (yields t value trace allowed)

theorem Yields.and {x : Fallible ε E R α} {P Q : α → Prop} (first : Yields A x P)
    (second : Yields A x Q) : Yields A x (fun value => P value ∧ Q value) :=
  fun t value trace allowed => ⟨first t value trace allowed,second t value trace allowed⟩

/-- On answers that `A` allows, the computation can end with the value. -/
def Gives (A : Exchange E R → Prop) (x : Fallible ε E R α) (value : α) : Prop :=
  ∃ t, Trace x.run t (.ok value) ∧ ∀ exchange ∈ t, A exchange

theorem Gives.meets {x : Fallible ε E R α} {Q : α → Prop} {value : α} (gives : Gives A x value)
    (yields : Yields A x Q) : Q value := by
  obtain ⟨t,trace,allowed⟩ := gives
  exact yields t value trace allowed

theorem yields_gives (x : Fallible ε E R α) : Yields A x (Gives A x) :=
  fun t _ trace allowed => ⟨t,trace,allowed⟩

end Fallible

/-- Runs a program on the answers given, for at most `fuel` steps, if its calls are
the ones recorded. -/
def replay [DecidableEq E] : Nat → {α : Type} → Program E R α → List (Exchange E R) → Option α
  | 0,_,_,_ => none
  | _+1,_,.done value,[] => some value
  | _+1,_,.done _,_ :: _ => none
  | _+1,_,.call _ _,[] => none
  | fuel+1,_,.call event next,⟨other,answer⟩ :: t =>
    if same : other = event then replay fuel (next (same ▸ answer)) t else none
  | fuel+1,_,.loop body start next,t => replay fuel ((body start).bind (Program.unroll body next)) t

theorem replay_sound [DecidableEq E] (fuel : Nat) {p : Program E R α} {t : List (Exchange E R)}
    {value : α} (replayed : replay fuel p t = some value) : Trace p t value := by
  induction fuel generalizing p t with
  | zero => simp [replay] at replayed
  | succ fuel ih =>
    cases p with
    | done result =>
      cases t with
      | nil => simp only [replay,Option.some.injEq] at replayed; exact replayed ▸ .done _
      | cons head t => simp [replay] at replayed
    | call event next =>
      cases t with
      | nil => simp [replay] at replayed
      | cons head t =>
        obtain ⟨other,answer⟩ := head
        simp only [replay] at replayed
        split at replayed
        · next same => subst same; exact .call (ih replayed)
        · contradiction
    | loop body start next => exact .loop (ih replayed)

end Runas.Interaction
