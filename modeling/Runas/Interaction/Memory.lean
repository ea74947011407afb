import Runas.Interaction.Coupling

/-! Memory handed out in blocks, for programs that manage it by hand. An address is handed
out once, so a block that was given back stays known, with what it held last. To use such
a block, or to give it back again, has no meaning: the program goes on with nothing. -/
namespace Runas.Interaction

abbrev Address := Nat

inductive Block (C : Type)
  | held (content : C)
  | freed (last : C)
  deriving DecidableEq

/-- The blocks handed out so far, by their addresses. -/
abbrev Blocks (C : Type) := List (Block C)

variable {E : Type} {R : E → Type} {C α β σ : Type}

def Blocks.content? (blocks : Blocks C) (address : Address) : Option C :=
  match blocks[address]? with
  | some (.held content) => some content
  | _ => none

namespace Blocks
variable {blocks : Blocks C} {address : Address} {content : C}

theorem content?_lt (held : blocks.content? address = some content) : address < blocks.length := by
  by_contra outside
  rw [content?,List.getElem?_eq_none (Nat.le_of_not_lt outside)] at held
  cases held

theorem content?_set (inside : address < blocks.length) (content : C) :
    content? (blocks.set address (.held content)) address = some content := by
  rw [content?,List.getElem?_set_self inside]

theorem content?_append (inside : address < blocks.length) (more : Blocks C) :
    content? (blocks ++ more) address = blocks.content? address := by
  rw [content?,List.getElem?_append_left inside]
  rfl

theorem content?_middle (front back : Blocks C) (content : C) :
    content? (front ++ .held content :: back) front.length = some content := by
  simp [content?]

end Blocks

abbrev Managed (C E : Type) (R : E → Type) := StateT (Blocks C) (OptionT (Program E R))

namespace Managed

def on (x : Managed C E R α) (blocks : Blocks C) : Program E R (Option (α × Blocks C)) := (x.run blocks).run

/-- What follows a part that has ended, unless what it did has no meaning. -/
def andThen (f : α → Managed C E R β) : Option (α × Blocks C) → Program E R (Option (β × Blocks C))
  | some (value,blocks) => (f value).on blocks
  | none => .done none

def call (p : Program E R α) : Managed C E R α := fun blocks => OptionT.mk (p.bind fun value => .done (some (value,blocks)))

def alloc (content : C) : Managed C E R Address := fun blocks =>
  OptionT.mk (.done (some (blocks.length,blocks ++ [.held content])))

def read (address : Address) : Managed C E R C := fun blocks =>
  OptionT.mk (.done ((blocks.content? address).map fun content => (content,blocks)))

def write (address : Address) (content : C) : Managed C E R Unit := fun blocks =>
  OptionT.mk (.done ((blocks.content? address).map fun _ => ((),blocks.set address (.held content))))

def free (address : Address) : Managed C E R Unit := fun blocks =>
  OptionT.mk (.done ((blocks.content? address).map fun last => ((),blocks.set address (.freed last))))

/-- A use of memory that has no meaning. -/
def undefined : Managed C E R α := fun _ => OptionT.mk (.done none)

/-- What one round of a loop leaves: its next state, its result, or nothing that has a meaning. -/
def turn : Option ((σ ⊕ β) × Blocks C) → Program E R (σ × Blocks C ⊕ Option (β × Blocks C))
  | some (.inl again,blocks) => .done (.inl (again,blocks))
  | some (.inr result,blocks) => .done (.inr (some (result,blocks)))
  | none => .done (.inr none)

def iterate (body : σ → Managed C E R (σ ⊕ β)) (start : σ) : Managed C E R β := fun blocks =>
  OptionT.mk (Program.iterate (fun state => ((body state.1).on state.2).bind turn) (start,blocks))

theorem on_bind (x : Managed C E R α) (f : α → Managed C E R β) (blocks : Blocks C) :
    (x >>= f).on blocks = (x.on blocks).bind (andThen f) := by
  change (x.on blocks).bind _ = _
  congr 1
  funext outcome
  rcases outcome with _ | ⟨value,blocks⟩ <;> rfl

@[simp] theorem on_pure (value : α) (blocks : Blocks C) :
    (pure value : Managed C E R α).on blocks = .done (some (value,blocks)) := rfl

theorem on_call (p : Program E R α) (f : α → Managed C E R β) (blocks : Blocks C) :
    (call p >>= f).on blocks = p.bind fun value => (f value).on blocks := by
  rw [on_bind]
  change (Program.bind p _).bind _ = _
  rw [Program.bind_assoc]
  rfl

theorem on_alloc (content : C) (f : Address → Managed C E R β) (blocks : Blocks C) :
    (alloc content >>= f).on blocks = (f blocks.length).on (blocks ++ [.held content]) := rfl

theorem on_read {blocks : Blocks C} {address : Address} {content : C} (held : blocks.content? address = some content)
    (f : C → Managed C E R β) : (read address >>= f).on blocks = (f content).on blocks := by
  rw [on_bind]
  change (Program.done _).bind _ = _
  rw [held]
  rfl

theorem on_write {blocks : Blocks C} {address : Address} {old : C} (held : blocks.content? address = some old) (content : C)
    (f : Unit → Managed C E R β) :
    (write address content >>= f).on blocks = (f ()).on (blocks.set address (.held content)) := by
  rw [on_bind]
  change (Program.done _).bind _ = _
  rw [held]
  rfl

theorem on_free {blocks : Blocks C} {address : Address} {last : C} (held : blocks.content? address = some last)
    (f : Unit → Managed C E R β) : (free address >>= f).on blocks = (f ()).on (blocks.set address (.freed last)) := by
  rw [on_bind]
  change (Program.done _).bind _ = _
  rw [held]
  rfl

/-- The part makes no call: it comes to the value, with memory as it is then, and nothing else. -/
structure Computes (x : Managed C E R α) (blocks : Blocks C) (value : α) (after : Blocks C) : Prop where
  trace_iff : ∀ (γ : Type) (next : Option (α × Blocks C) → Program E R γ) (t : List (Exchange E R)) (out : γ),
    Trace ((x.on blocks).bind next) t out ↔ Trace (next (some (value,after))) t out

namespace Computes
variable {blocks between after : Blocks C}

theorem bind {x : Managed C E R α} {f : α → Managed C E R β} {value : α} {result : β} (first : Computes x blocks value between)
    (rest : Computes (f value) between result after) : Computes (x >>= f) blocks result after := by
  refine ⟨fun γ next t out => ?_⟩
  rw [on_bind,Program.bind_assoc,first.trace_iff]
  exact rest.trace_iff γ next t out

theorem ends {x : Managed C E R α} {value : α} (computes : Computes x blocks value after) (t : List (Exchange E R))
    (out : Option (α × Blocks C)) : Trace (x.on blocks) t out ↔ some (value,after) = out ∧ t = [] := by
  have whole := computes.trace_iff _ .done t out
  rwa [Program.bind_done,trace_done] at whole

theorem again {body : σ → Managed C E R (σ ⊕ β)} {start middle : σ} {result : β}
    (round : Computes (body start) blocks (.inl middle) between) (rest : Computes (iterate body middle) between result after) :
    Computes (iterate body start) blocks result after := by
  refine ⟨fun γ next t out => (trace_loop _ _ _ _ _).trans ?_⟩
  rw [Program.bind_assoc,round.trace_iff]
  exact rest.trace_iff γ next t out

theorem last {body : σ → Managed C E R (σ ⊕ β)} {start : σ} {result : β}
    (round : Computes (body start) blocks (.inr result) after) : Computes (iterate body start) blocks result after := by
  refine ⟨fun γ next t out => (trace_loop _ _ _ _ _).trans ?_⟩
  rw [Program.bind_assoc,round.trace_iff]
  rfl

theorem pure (value : α) (blocks : Blocks C) : Computes (Pure.pure value : Managed C E R α) blocks value blocks :=
  ⟨fun _ _ _ _ => Iff.rfl⟩

theorem alloc (content : C) (blocks : Blocks C) :
    Computes (Managed.alloc content : Managed C E R Address) blocks blocks.length (blocks ++ [.held content]) :=
  ⟨fun _ _ _ _ => Iff.rfl⟩

theorem read {address : Address} {content : C} (held : blocks.content? address = some content) :
    Computes (Managed.read address : Managed C E R C) blocks content blocks := by
  refine ⟨fun γ next t out => ?_⟩
  change Trace (next _) _ _ ↔ _
  rw [held]
  rfl

theorem free {address : Address} {last : C} (held : blocks.content? address = some last) :
    Computes (Managed.free address : Managed C E R Unit) blocks () (blocks.set address (.freed last)) := by
  refine ⟨fun γ next t out => ?_⟩
  change Trace (next _) _ _ ↔ _
  rw [held]
  rfl

end Computes

end Managed

end Runas.Interaction
