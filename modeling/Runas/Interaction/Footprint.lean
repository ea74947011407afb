import Runas.Interaction.Parallel
import Runas.Interaction.Trace

/-! What calls a program can make at all, whatever the answers. A part whose calls
leave an assertion alone keeps it, without a look at the order of its calls. -/
namespace Runas.Interaction

variable {E : Type} {R : E → Type} {K σ α β γ ε : Type}

namespace Program

/-- Every call of the program is one that `allowed` names. -/
def Uses (allowed : E → Prop) : {α : Type} → Program E R α → Prop
  | _,.done _ => True
  | _,.call event next => allowed event ∧ ∀ answer, Uses allowed (next answer)
  | _,.loop body _ next => (∀ state, Uses allowed (body state)) ∧ ∀ result, Uses allowed (next result)

variable {allowed : E → Prop}

theorem Uses.bind {p : Program E R α} {f : α → Program E R β} (first : p.Uses allowed)
    (rest : ∀ value, (f value).Uses allowed) : (p.bind f).Uses allowed := by
  induction p with
  | done value => exact rest value
  | call event next ih => exact ⟨first.1,fun answer => ih answer (first.2 answer) rest⟩
  | loop body start next _ ih => exact ⟨first.1,fun result => ih result (first.2 result) rest⟩

theorem Uses.any (p : Program E R α) : p.Uses fun _ => True := by
  induction p with
  | done value => trivial
  | call event next ih => exact ⟨trivial,ih⟩
  | loop body start next first second => exact ⟨first,second⟩

theorem Uses.mono {other : E → Prop} (weaker : ∀ event, allowed event → other event)
    {p : Program E R α} (uses : p.Uses allowed) : p.Uses other := by
  induction p with
  | done value => trivial
  | call event next ih => exact ⟨weaker _ uses.1,fun answer => ih answer (uses.2 answer)⟩
  | loop body start next first second =>
    exact ⟨fun state => first state (uses.1 state),fun result => second result (uses.2 result)⟩

theorem Uses.ask {event : E} (known : allowed event) : (Program.ask event : Program E R _).Uses allowed :=
  ⟨known,fun _ => trivial⟩

theorem Uses.iterate {body : σ → Program E R (σ ⊕ β)} {start : σ}
    (round : ∀ state, (body state).Uses allowed) : (Program.iterate body start).Uses allowed :=
  ⟨round,fun _ => trivial⟩

/-- What the program ends with meets `Q`, whatever the answers. -/
def Gives : {α : Type} → (α → Prop) → Program E R α → Prop
  | _,Q,.done value => Q value
  | _,Q,.call _ next => ∀ answer, Gives Q (next answer)
  | _,Q,.loop _ _ next => ∀ result, Gives Q (next result)

theorem Gives.bind {P : α → Prop} {Q : β → Prop} {p : Program E R α} {f : α → Program E R β} (first : p.Gives P)
    (rest : ∀ value, P value → (f value).Gives Q) : (p.bind f).Gives Q := by
  induction p with
  | done value => exact rest value first
  | call event next ih => exact fun answer => ih answer (first answer) rest
  | loop body start next _ ih => exact fun result => ih result (first result) rest

theorem Gives.any (p : Program E R α) : p.Gives fun _ => True := by
  induction p with
  | done value => trivial
  | call event next ih => exact ih
  | loop body start next _ ih => exact ih

/-- After the first part of a sequence the second one begins with what that gives. -/
theorem Uses.bind_given {P : α → Prop} {p : Program E R α} {f : α → Program E R β} (first : p.Uses allowed)
    (gives : p.Gives P) (rest : ∀ value, P value → (f value).Uses allowed) : (p.bind f).Uses allowed := by
  induction p with
  | done value => exact rest value gives
  | call event next ih => exact ⟨first.1,fun answer => ih answer (first.2 answer) (gives answer) rest⟩
  | loop body start next _ ih => exact ⟨first.1,fun result => ih result (first.2 result) (gives result) rest⟩

/-- A kind of program that holds of what ends at once, and of a sequence when it does of
the parts. -/
structure Closed (C : (α : Type) → Program E R α → Prop) : Prop where
  done : ∀ {α : Type} (value : α),C α (.done value)
  bind : ∀ {α β : Type} {p : Program E R α} {f : α → Program E R β},C α p → (∀ value,C β (f value)) → C β (p.bind f)

theorem closed_uses (allowed : E → Prop) : Closed fun _ (p : Program E R _) => p.Uses allowed :=
  ⟨fun _ => trivial,.bind⟩

/-- Some run of the program makes the call. -/
inductive Makes : {α : Type} → Program E R α → E → Prop
  | now {α : Type} (event : E) (next : R event → Program E R α) : Makes (.call event next) event
  | later {α : Type} {event : E} {next : R event → Program E R α} (answer : R event) {made : E}
      (rest : Makes (next answer) made) : Makes (.call event next) made
  | loop {σ β α : Type} {body : σ → Program E R (σ ⊕ β)} {start : σ} {next : β → Program E R α} {made : E}
      (rest : Makes ((body start).bind (Program.unroll body next)) made) : Makes (.loop body start next) made

theorem Uses.made {p : Program E R α} (used : p.Uses allowed) {event : E} (makes : p.Makes event) : allowed event := by
  induction makes with
  | now event next => exact used.1
  | later answer rest ih => exact ih (used.2 answer)
  | @loop σ β α body start next made rest ih =>
    refine ih ((used.1 start).bind fun outcome => ?_)
    cases outcome with
    | inl again => exact used
    | inr result => exact used.2 result

theorem Makes.first {p : Program E R α} {event : E} (makes : p.Makes event) (f : α → Program E R β) :
    (p.bind f).Makes event := by
  induction makes generalizing β with
  | now event next => exact .now event _
  | later answer rest ih => exact .later answer (ih f)
  | loop rest ih =>
    refine .loop ?_
    have unrolled := ih f
    rw [Program.bind_assoc] at unrolled
    simpa only [Program.unroll_bind] using unrolled

/-- After a run of its first part a sequence makes the calls of the second. -/
theorem Makes.after {p : Program E R α} {t : List (Exchange E R)} {value : α} (trace : Trace p t value)
    {f : α → Program E R β} {event : E} (makes : (f value).Makes event) : (p.bind f).Makes event := by
  induction trace generalizing β with
  | done value => exact makes
  | call rest ih => exact .later _ (ih makes)
  | loop rest ih =>
    refine .loop ?_
    have unrolled := ih makes
    rw [Program.bind_assoc] at unrolled
    simpa only [Program.unroll_bind] using unrolled

/-- The call a program comes to on the answers given. -/
def callAfter [DecidableEq E] : Nat → Program E R α → List (Exchange E R) → Option E
  | 0,_,_ => none
  | _+1,.done _,_ => none
  | _+1,.call event _,[] => some event
  | fuel+1,.call event next,⟨other,answer⟩ :: t =>
    if same : other = event then callAfter fuel (next (same ▸ answer)) t else none
  | fuel+1,.loop body start next,t => callAfter fuel ((body start).bind (Program.unroll body next)) t

theorem callAfter_sound [DecidableEq E] (fuel : Nat) {p : Program E R α} (t : List (Exchange E R)) {event : E}
    (reached : callAfter fuel p t = some event) : p.Makes event := by
  induction fuel generalizing p t with
  | zero => cases reached
  | succ fuel ih =>
    cases p with
    | done value => cases reached
    | loop body start next => exact .loop (ih _ reached)
    | call first next =>
      cases t with
      | nil =>
        cases reached
        exact .now _ _
      | cons x t =>
        obtain ⟨other,answer⟩ := x
        simp only [callAfter] at reached
        split at reached
        · next same =>
          subst same
          exact .later answer (ih _ reached)
        · cases reached

end Program

open Program

/-- What the calls of a program keep holds when it ends, and every call meets the guard. -/
theorem Setting.Safe.uses {S : Setting E R K} {allowed : E → Prop} {P : K → Prop} {p : Program E R α}
    {k : K} (used : p.Uses allowed) (stable : S.Stable P) (holds : P k)
    (guarded : ∀ k event, P k → allowed event → S.guard k event)
    (keeps : ∀ k event answer k', P k → allowed event → S.step k event answer k' → P k') :
    S.Safe p (fun _ => P) k := by
  induction p generalizing k with
  | done value => exact .done stable holds
  | call event next ih =>
    refine .call stable holds (fun k held => guarded k event held used.1) ?_
    exact fun k answer k' held taken => ih answer (used.2 answer) (keeps k event answer k' held used.1 taken)
  | loop body start next first second =>
    refine .loop (I := fun _ => P) (fun _ => stable) holds ?_
    intro state k held
    refine (first state (used.1 state) held).mono ?_
    intro outcome k' held
    cases outcome with
    | inl again => exact held
    | inr result => exact second result (used.2 result) held

theorem Setting.Safe.gives {S : Setting E R K} {P : K → Prop} {Q : α → Prop} {p : Program E R α} {k : K}
    (safe : S.Safe p (fun _ => P) k) (gives : p.Gives Q) : S.Safe p (fun value k => Q value ∧ P k) k := by
  intro n
  induction n generalizing p k with
  | zero => trivial
  | succ n ih =>
    refine ⟨?_,fun k' moved => ih (safe.rely moved) gives,fun p' k' taken => ?_⟩
    · have now := safe.now
      cases p with
      | done value => exact ⟨gives,now⟩
      | call event next => exact now
      | loop body start next => trivial
    · cases taken with
      | call taken => exact ih (safe.step (.call taken)) (gives _)
      | loop =>
        refine ih (safe.step (.loop _ _ _ _)) ((Gives.any _).bind fun outcome _ => ?_)
        cases outcome with
        | inl again => exact gives
        | inr result => exact gives result

/-- The programs that keep an assertion. -/
theorem Setting.closed_safe {S : Setting E R K} {P : K → Prop} (stable : S.Stable P) :
    Closed fun _ (p : Program E R _) => ∀ k,P k → S.Safe p (fun _ => P) k :=
  ⟨fun _ _ holds => .done stable holds,fun first rest k holds =>
    .bind ((first k holds).mono fun value k holds => rest value k holds)⟩

theorem Trace.uses {allowed : E → Prop} {p : Program E R α} {t : List (Exchange E R)} {value : α}
    (trace : Trace p t value) (used : p.Uses allowed) : ∀ x ∈ t, allowed x.1 := by
  induction trace with
  | done value => simp
  | call rest ih =>
    intro x member
    rcases List.mem_cons.mp member with rfl | later
    · exact used.1
    · exact ih (used.2 _) x later
  | loop rest ih =>
    refine ih ((used.1 _).bind fun outcome => ?_)
    cases outcome with
    | inl again => exact used
    | inr result => exact used.2 result

theorem Trace.gives {Q : α → Prop} {p : Program E R α} {t : List (Exchange E R)} {value : α} (trace : Trace p t value)
    (gives : p.Gives Q) : Q value := by
  induction trace with
  | done value => exact gives
  | call rest ih => exact ih (gives _)
  | loop rest ih =>
    refine ih ((Gives.any _).bind fun outcome _ => ?_)
    cases outcome with
    | inl again => exact gives
    | inr result => exact gives result

namespace Fallible

abbrev Uses (allowed : E → Prop) (x : Fallible ε E R α) : Prop := Program.Uses allowed x.run

variable {allowed : E → Prop}

theorem Uses.pure (value : α) : Fallible.Uses allowed (Pure.pure value : Fallible ε E R α) := trivial

theorem Uses.bind {x : Fallible ε E R α} {f : α → Fallible ε E R β} (first : Fallible.Uses allowed x)
    (rest : ∀ value, Fallible.Uses allowed (f value)) : Fallible.Uses allowed (x >>= f) := by
  unfold Uses
  rw [run_bind]
  refine Program.Uses.bind first fun result => ?_
  cases result with
  | ok value => exact rest value
  | error error => trivial

theorem Uses.ask {event : E} (known : allowed event) :
    Fallible.Uses allowed (Fallible.ask event : Fallible ε E R _) := ⟨known,fun _ => trivial⟩

theorem Uses.lift {p : Program E R α} (used : p.Uses allowed) :
    Fallible.Uses allowed (liftM p : Fallible ε E R α) := Program.Uses.bind used fun _ => trivial

theorem Uses.iterate {body : σ → Fallible ε E R (σ ⊕ β)} {start : σ}
    (round : ∀ state, Fallible.Uses allowed (body state)) :
    Fallible.Uses allowed (Fallible.iterate body start) := by
  refine Program.Uses.iterate fun state => Program.Uses.bind (round state) fun outcome => ?_
  cases outcome with
  | error error => trivial
  | ok outcome => cases outcome <;> trivial

theorem Uses.releasingOnError {release : Program E R Unit} {body : Fallible ε E R α}
    (released : release.Uses allowed) (used : Fallible.Uses allowed body) :
    Fallible.Uses allowed (Fallible.releasingOnError release body) := by
  refine Program.Uses.bind used fun result => ?_
  cases result with
  | ok value => trivial
  | error error => exact Program.Uses.bind released fun _ => trivial

theorem Uses.releasing {release : Program E R Unit} {body : Fallible ε E R α}
    (released : release.Uses allowed) (used : Fallible.Uses allowed body) :
    Fallible.Uses allowed (Fallible.releasing release body) :=
  Program.Uses.bind used fun _ => Program.Uses.bind released fun _ => trivial

theorem Makes.first {x : Fallible ε E R α} {event : E} (makes : x.run.Makes event) (f : α → Fallible ε E R β) :
    (x >>= f).run.Makes event := by
  rw [run_bind]
  exact Program.Makes.first makes _

theorem Makes.after {x : Fallible ε E R α} {t : List (Exchange E R)} {value : α} (trace : Trace x.run t (.ok value))
    {f : α → Fallible ε E R β} {event : E} (makes : (f value).run.Makes event) : (x >>= f).run.Makes event := by
  rw [run_bind]
  exact Program.Makes.after trace makes

/-- A call that the first part does not make comes after it, when it has ended well. -/
theorem Uses.passed {x : Fallible ε E R α} {f : α → Fallible ε E R β} {t : List (Exchange E R)}
    {out : Except ε β} (used : Fallible.Uses allowed x) (trace : Trace (x >>= f).run t out) {made : Exchange E R}
    (member : made ∈ t) (other : ¬ allowed made.1) : ∃ first middle second,t = first ++ second ∧
      Trace x.run first (.ok middle) ∧ Trace (f middle).run second out ∧ made ∈ second := by
  rw [run_bind,trace_bind] at trace
  obtain ⟨first,result,second,rfl,run,rest⟩ := trace
  have late : made ∈ second := (List.mem_append.mp member).resolve_left fun early => other (run.uses used made early)
  cases result with
  | ok middle => exact ⟨first,middle,second,rfl,run,rest,late⟩
  | error error =>
    obtain ⟨_,rfl⟩ := (trace_done _ _ _).mp rest
    cases late

end Fallible

end Runas.Interaction
