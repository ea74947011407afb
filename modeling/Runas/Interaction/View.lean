import Runas.Interaction.Alone
import Runas.Interaction.Footprint

/-! A setting seen through a function of its state. The environment that keeps the record
is one that every other environment whose state the exchanges determine is a view of. -/
namespace Runas.Interaction

variable {E : Type} {R : E → Type} {K L α : Type}

/-- A program safe in the setting that is seen is safe in the one that is there. -/
theorem Setting.Safe.seen {S : Setting E R K} {T : Setting E R L} (view : L → K) {p : Program E R α}
    {Q : α → K → Prop} {l : L} (safe : S.Safe p Q (view l))
    (steps : ∀ l event answer l', T.step l event answer l' → S.step (view l) event answer (view l'))
    (others : ∀ l l', T.rely l l' → S.rely (view l) (view l'))
    (guards : ∀ l event, S.guard (view l) event → T.guard l event) :
    T.Safe p (fun value l => Q value (view l)) l := by
  intro n
  induction n generalizing p l with
  | zero => trivial
  | succ n ih =>
    refine ⟨?_,fun l' moved => ih (safe.rely (others l l' moved)),fun p' l' taken => ?_⟩
    · have now := safe.now
      cases p with
      | done value => exact now
      | call event next => exact guards l event now
      | loop body start next => trivial
    · cases taken with
      | call taken => exact ih (safe.step (.call (steps _ _ _ _ taken)))
      | loop => exact ih (safe.step (.loop _ _ _ _))

/-- Two proofs of safety of one program, each under a guard of its own. -/
theorem Setting.Safe.both {S : Setting E R K} {guard : K → E → Prop} {p : Program E R α} {P Q : α → K → Prop} {k : K}
    (first : S.Safe p P k) (second : (Setting.mk S.step S.rely guard).Safe p Q k) :
    (Setting.mk S.step S.rely fun k event => S.guard k event ∧ guard k event).Safe p
      (fun value k => P value k ∧ Q value k) k := by
  intro n
  induction n generalizing p k with
  | zero => trivial
  | succ n ih =>
    refine ⟨?_,fun k' moved => ih (first.rely moved) (second.rely moved),fun p' k' taken => ?_⟩
    · have here := first.now
      have there := second.now
      cases p with
      | done value => exact ⟨here,there⟩
      | call event next => exact ⟨here,there⟩
      | loop body start next => trivial
    · exact ih (first.step taken) (second.step taken)

theorem Setting.Safe.and {S : Setting E R K} {p : Program E R α} {P Q : α → K → Prop} {k : K} (first : S.Safe p P k)
    (second : S.Safe p Q k) : S.Safe p (fun value k => P value k ∧ Q value k) k :=
  (first.both second).under (fun _ _ _ _ taken => taken) (fun _ _ moved => moved) fun _ _ guarded => guarded.1

/-- The state that the exchanges of a record lead to. -/
def comesTo (after : K → (event : E) → R event → K) (k : K) (t : List (Exchange E R)) : K :=
  t.foldl (fun k x => after k x.1 x.2) k

/-- The environment that each exchange takes to one state. -/
def tracks (after : K → (event : E) → R event → K) (k : K) (event : E) (answer : R event) (k' : K) : Prop :=
  k' = after k event answer

section
variable {after : K → (event : E) → R event → K} {guard : K → E → Prop} {p q : Program E R α} {Q : α → K → Prop}
  {k : K} {t : List (Exchange E R)}

theorem Setting.Safe.recorded (safe : (alone (tracks after) guard).Safe p Q k) :
    (alone record fun t event => guard (comesTo after k t) event).Safe p (fun value t => Q value (comesTo after k t)) [] := by
  refine Setting.Safe.seen (comesTo after k) safe ?_ ?_ fun _ _ guarded => guarded
  · intro t event answer t' taken
    cases (taken : t' = t ++ [⟨event,answer⟩])
    exact List.foldl_concat _ _ _ _
  · rintro t _ rfl
    rfl

/-- What a complete run leads to. -/
theorem Setting.Safe.ends {value : α} (safe : (alone (tracks after) guard).Safe p Q k) (trace : Trace p t value) :
    Q value (comesTo after k t) := by
  have run := safe.recorded.runs (trace.runs [])
  rwa [List.nil_append] at run

/-- What holds of the state when a call is made. -/
theorem Setting.Safe.calls {event : E} (safe : (alone (tracks after) guard).Safe p Q k) (reached : Steps record p [] q t)
    (pending : q.pending = some event) : guard (comesTo after k t) event :=
  (safe.recorded.steps reached).pending pending

end

/-! What calls a program comes to, and what it ends with. -/

/-- The setting that only says which calls are made. -/
def among (allowed : E → Prop) : Setting E R Unit := alone (fun _ _ _ _ => True) fun _ event => allowed event

/-- Every call the program comes to is allowed, and what it ends with meets `Q`. -/
abbrev Program.Only (allowed : E → Prop) (p : Program E R α) (Q : α → Prop) : Prop :=
  (among allowed).Safe p (fun value _ => Q value) ()

variable {allowed : E → Prop}

theorem Program.Uses.only {p : Program E R α} (used : p.Uses allowed) : p.Only allowed fun _ => True :=
  Setting.Safe.uses used (stable_alone _) trivial (fun _ _ _ known => known) fun _ _ _ _ _ _ _ => trivial

/-- What the calls keep holds when the program ends. -/
theorem Setting.Safe.only {S : Setting E R K} {P : K → Prop} {p : Program E R α} {Q : α → Prop} {k : K}
    (only : p.Only allowed Q) (stable : S.Stable P) (holds : P k) (guarded : ∀ k event,P k → allowed event → S.guard k event)
    (keeps : ∀ k event answer k',P k → allowed event → S.step k event answer k' → P k') :
    S.Safe p (fun value k => Q value ∧ P k) k := by
  intro n
  induction n generalizing p k with
  | zero => trivial
  | succ n ih =>
    have now := only.now
    refine ⟨?_,fun k' moved => ih only (stable k k' holds moved),fun p' k' taken => ?_⟩
    · cases p with
      | done value => exact ⟨now,holds⟩
      | call event next => exact guarded k event holds now
      | loop body start next => trivial
    · cases taken with
      | call taken => exact ih (only.step (.call trivial)) (keeps _ _ _ _ holds now taken)
      | loop => exact ih (only.step (.loop _ _ _ _)) holds

/-- A sequence that is safe is safe in its first part, and from there in the second. -/
theorem Setting.Safe.unbind {S : Setting E R K} {β : Type} {p : Program E R α} {f : α → Program E R β} {Q : β → K → Prop}
    {k : K} (safe : S.Safe (p.bind f) Q k) : S.Safe p (fun value => S.Safe (f value) Q) k := by
  intro n
  induction n generalizing p k with
  | zero => trivial
  | succ n ih =>
    refine ⟨?_,fun k' moved => ih (safe.rely moved),fun p' k' taken => ?_⟩
    · cases p with
      | done value => exact safe
      | call event next => exact safe.now
      | loop body start next => trivial
    · cases taken with
      | call taken => exact ih (safe.step (.call taken))
      | loop =>
        have unrolled := safe.step (.loop _ _ _ _)
        refine ih ?_
        rw [Program.bind_assoc]
        simpa only [Program.unroll_bind] using unrolled

end Runas.Interaction
