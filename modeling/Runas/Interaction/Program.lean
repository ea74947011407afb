import Mathlib.Algebra.Order.Ring.Int
import Mathlib.Data.List.Infix
import Mathlib.Logic.Relation

/-! Programs that interact with an environment. A program is a tree of calls, each
continued by the answer it gets, with a node for loops that need not end. A
semantics of the environment is a relation between its state before a call,
the call, the answer and its state after it. -/
namespace Runas.Interaction

inductive Program (E : Type) (R : E → Type) : Type → Type 1
  | done {α : Type} (value : α) : Program E R α
  | call {α : Type} (event : E) (next : R event → Program E R α) : Program E R α
  | loop {σ β α : Type} (body : σ → Program E R (σ ⊕ β)) (start : σ)
      (next : β → Program E R α) : Program E R α

variable {E : Type} {R : E → Type} {K σ α β γ ε : Type}

namespace Program

def bind {α β : Type} : Program E R α → (α → Program E R β) → Program E R β
  | .done value, f => f value
  | .call event next, f => .call event (fun answer => (next answer).bind f)
  | .loop body start next, f => .loop body start (fun result => (next result).bind f)

instance : Monad (Program E R) where
  pure := .done
  bind := bind

theorem bind_assoc (p : Program E R α) (f : α → Program E R β) (g : β → Program E R γ) :
    (p.bind f).bind g = p.bind (fun value => (f value).bind g) := by
  induction p with
  | done value => rfl
  | call event next ih => simp only [bind]; congr 1; funext answer; exact ih answer f
  | loop body start next _ ih => simp only [bind]; congr 1; funext result; exact ih result f

theorem bind_done (p : Program E R α) : p.bind .done = p := by
  induction p with
  | done value => rfl
  | call event next ih => simp only [bind]; congr 1; funext answer; exact ih answer
  | loop body start next _ ih => simp only [bind]; congr 1; funext result; exact ih result

instance : LawfulMonad (Program E R) :=
  LawfulMonad.mk' (Program E R) (fun p => bind_done p) (fun _ _ => rfl) (fun p f g => bind_assoc p f g)

def ask (event : E) : Program E R (R event) := .call event .done

/-- The body run again and again, from the state each round leaves, until it
gives a result. -/
def iterate (body : σ → Program E R (σ ⊕ β)) (start : σ) : Program E R β := .loop body start .done

/-- What is left of a loop after one more round of its body. -/
def unroll (body : σ → Program E R (σ ⊕ β)) (next : β → Program E R α) : σ ⊕ β → Program E R α
  | .inl again => .loop body again next
  | .inr result => next result

theorem unroll_bind (body : σ → Program E R (σ ⊕ β)) (next : β → Program E R α)
    (f : α → Program E R γ) (outcome : σ ⊕ β) :
    (unroll body next outcome).bind f = unroll body (fun result => (next result).bind f) outcome := by
  cases outcome <;> rfl

def pending : Program E R α → Option E
  | .call event _ => some event
  | _ => none

def result? : Program E R α → Option α
  | .done value => some value
  | _ => none

theorem result?_eq_some {p : Program E R α} {value : α} (h : p.result? = some value) :
    p = .done value := by
  cases p <;> simp_all [result?]

end Program

/-- Programs whose result is a value or an error, `?` being their bind. -/
abbrev Fallible (ε : Type) (E : Type) (R : E → Type) := ExceptT ε (Program E R)

namespace Fallible
open Program

def ask (event : E) : Fallible ε E R (R event) := ExceptT.lift (Program.ask event)

/-- The answer of a call that itself says whether it failed. -/
def attempt {event : E} (read : R event → Except ε α) : Fallible ε E R α :=
  ExceptT.mk (.call event (fun answer => .done (read answer)))

/-- A loop that also ends when its body fails. -/
def iterate (body : σ → Fallible ε E R (σ ⊕ β)) (start : σ) : Fallible ε E R β :=
  ExceptT.mk (Program.iterate (fun state => (body state).run.bind fun
    | .ok (.inl again) => .done (.inl again)
    | .ok (.inr result) => .done (.inr (.ok result))
    | .error error => .done (.inr (.error error))) start)

/-- Runs `release` when the body has ended, whether it failed or not. -/
def releasing (release : Program E R Unit) (body : Fallible ε E R α) : Fallible ε E R α :=
  ExceptT.mk (body.run.bind fun result => release.bind fun _ => .done result)

/-- Runs `release` only when the body has failed. -/
def releasingOnError (release : Program E R Unit) (body : Fallible ε E R α) : Fallible ε E R α :=
  ExceptT.mk (body.run.bind fun
    | .ok value => .done (.ok value)
    | .error error => release.bind fun _ => .done (.error error))

@[simp] theorem run_bind (x : Fallible ε E R α) (f : α → Fallible ε E R β) :
    (x >>= f).run = x.run.bind fun
      | .ok value => (f value).run
      | .error error => .done (.error error) := by
  change x.run.bind (ExceptT.bindCont f) = _
  congr 1
  funext result
  cases result <;> rfl

@[simp] theorem run_pure (value : α) : (pure value : Fallible ε E R α).run = .done (.ok value) := rfl

@[simp] theorem run_throw (error : ε) :
    (throw error : Fallible ε E R α).run = .done (.error error) := rfl

end Fallible

/-- Complete runs: the program, from one state of the environment, ends with a
value in another. -/
inductive Runs (step : K → (event : E) → R event → K → Prop) :
    {α : Type} → Program E R α → K → α → K → Prop
  | done {α : Type} (value : α) (k : K) : Runs step (.done value) k value k
  | call {α : Type} {event : E} {next : R event → Program E R α} {k k' final : K} {answer : R event}
      {value : α} (taken : step k event answer k') (rest : Runs step (next answer) k' value final) :
      Runs step (.call event next) k value final
  | loop {σ β α : Type} {body : σ → Program E R (σ ⊕ β)} {start : σ} {next : β → Program E R α}
      {k final : K} {value : α}
      (rest : Runs step ((body start).bind (Program.unroll body next)) k value final) :
      Runs step (.loop body start next) k value final

section runs
variable {step : K → (event : E) → R event → K → Prop}

@[simp] theorem runs_done (value result : α) (k final : K) :
    Runs step (.done value) k result final ↔ value = result ∧ k = final :=
  ⟨fun h => by cases h; exact ⟨rfl,rfl⟩,fun ⟨same,stays⟩ => same ▸ stays ▸ .done _ _⟩

@[simp] theorem runs_call (event : E) (next : R event → Program E R α) (k final : K) (value : α) :
    Runs step (.call event next) k value final ↔
      ∃ answer k', step k event answer k' ∧ Runs step (next answer) k' value final :=
  ⟨fun h => by cases h with | call taken rest => exact ⟨_,_,taken,rest⟩,
    fun ⟨_,_,taken,rest⟩ => .call taken rest⟩

@[simp] theorem runs_loop (body : σ → Program E R (σ ⊕ β)) (start : σ) (next : β → Program E R α)
    (k final : K) (value : α) :
    Runs step (.loop body start next) k value final ↔
      Runs step ((body start).bind (Program.unroll body next)) k value final :=
  ⟨fun h => by cases h with | loop rest => exact rest,fun h => .loop h⟩

private theorem runs_of_bind {p : Program E R β} {k final : K} {value : β}
    (run : Runs step p k value final) :
    ∀ {α : Type} (q : Program E R α) (f : α → Program E R β), p = q.bind f →
      ∃ middle k', Runs step q k middle k' ∧ Runs step (f middle) k' value final := by
  induction run with
  | done value k =>
    intro α q f split
    cases q with
    | done middle => exact ⟨middle,k,.done _ _,by rw [← show _ = f middle from split]; exact .done _ _⟩
    | call _ _ | loop _ _ _ => contradiction
  | @call _ event next k k' final answer value taken rest ih =>
    intro α q f split
    cases q with
    | done middle =>
      exact ⟨middle,k,.done _ _,by rw [← show _ = f middle from split]; exact .call taken rest⟩
    | call other next' =>
      simp only [Program.bind,Program.call.injEq] at split
      obtain ⟨rfl,same⟩ := split
      cases eq_of_heq same
      obtain ⟨middle,between,first,second⟩ := ih (next' answer) f rfl
      exact ⟨middle,between,.call taken first,second⟩
    | loop body start next' => contradiction
  | @loop σ τ α body start next k final value rest ih =>
    intro α' q f split
    cases q with
    | done middle =>
      exact ⟨middle,k,.done _ _,by rw [← show _ = f middle from split]; exact .loop rest⟩
    | call other next' => contradiction
    | @loop σ' τ' _ body' start' next' =>
      simp only [Program.bind,Program.loop.injEq] at split
      obtain ⟨rfl,rfl,sameBody,sameStart,sameNext⟩ := split
      cases eq_of_heq sameBody
      cases eq_of_heq sameStart
      cases eq_of_heq sameNext
      obtain ⟨middle,between,first,second⟩ := ih
        ((body start).bind (Program.unroll body next')) f (by
          rw [Program.bind_assoc]
          simp only [Program.unroll_bind])
      exact ⟨middle,between,.loop first,second⟩

private theorem runs_bind_of {p : Program E R α} {k between : K} {middle : α}
    (first : Runs step p k middle between) :
    ∀ {f : α → Program E R β} {value : β} {final : K},
      Runs step (f middle) between value final → Runs step (p.bind f) k value final := by
  induction first with
  | done value k => intro f value final second; exact second
  | call taken rest ih => intro f value final second; exact .call taken (ih second)
  | @loop σ τ α body start next k between middle rest ih =>
    intro f value final second
    refine .loop ?_
    have unrolled := ih second
    rw [Program.bind_assoc] at unrolled
    simpa only [Program.unroll_bind] using unrolled

/-- A run of a sequence is a run of its first part and then one of the second. -/
@[simp] theorem runs_bind (p : Program E R α) (f : α → Program E R β) (k final : K) (value : β) :
    Runs step (p.bind f) k value final ↔
      ∃ middle between, Runs step p k middle between ∧ Runs step (f middle) between value final :=
  ⟨fun run => runs_of_bind run p f rfl,fun ⟨_,_,first,second⟩ => runs_bind_of first second⟩

@[simp] theorem runs_ask (event : E) (k final : K) (answer : R event) :
    Runs step (Program.ask event) k answer final ↔ step k event answer final := by
  simp [Program.ask]

/-- What every call keeps, a complete run keeps. -/
theorem Runs.invariant {kept : K → Prop}
    (keeps : ∀ k event answer k', kept k → step k event answer k' → kept k')
    {p : Program E R α} {k final : K} {value : α} (run : Runs step p k value final)
    (initial : kept k) : kept final := by
  induction run with
  | done value k => exact initial
  | call taken rest ih => exact ih (keeps _ _ _ _ initial taken)
  | loop rest ih => exact ih initial

end runs

end Runas.Interaction
