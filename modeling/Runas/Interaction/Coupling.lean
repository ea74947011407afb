import Mathlib.Data.List.Forall2
import Mathlib.Data.Sum.Basic
import Runas.Interaction.View

/-! Two programs side by side, answered alike. They make the same calls, and what they end
with is related: what one of them keeps in its state the other need not know, and what
they are told apart by in their answers does not show in what they call. -/
namespace Runas.Interaction

inductive Coupled {E : Type} {R : E → Type} (alike : (event : E) → R event → R event → Prop) :
    {α β : Type} → (α → β → Prop) → Program E R α → Program E R β → Prop
  | done {α β : Type} {rel : α → β → Prop} {value : α} {other : β} (related : rel value other) :
      Coupled alike rel (.done value) (.done other)
  | call {α β : Type} {rel : α → β → Prop} {event : E} {next : R event → Program E R α} {next' : R event → Program E R β}
      (rest : ∀ answer answer', alike event answer answer' → Coupled alike rel (next answer) (next' answer')) :
      Coupled alike rel (.call event next) (.call event next')
  | loop {σ τ γ δ α β : Type} {rel : α → β → Prop} (I : σ → τ → Prop) (J : γ → δ → Prop)
      {body : σ → Program E R (σ ⊕ γ)} {body' : τ → Program E R (τ ⊕ δ)} {start : σ} {start' : τ}
      {next : γ → Program E R α} {next' : δ → Program E R β} (begins : I start start')
      (round : ∀ state state', I state state' → Coupled alike (Sum.LiftRel I J) (body state) (body' state'))
      (rest : ∀ result result', J result result' → Coupled alike rel (next result) (next' result')) :
      Coupled alike rel (.loop body start next) (.loop body' start' next')

/-- One call with two answers to it that are alike. -/
inductive Alike {E : Type} {R : E → Type} (alike : (event : E) → R event → R event → Prop) :
    Exchange E R → Exchange E R → Prop
  | mk {event : E} {answer answer' : R event} (same : alike event answer answer') :
      Alike alike ⟨event,answer⟩ ⟨event,answer'⟩

namespace Coupled

variable {E : Type} {R : E → Type} {alike : (event : E) → R event → R event → Prop} {α β γ δ ε σ τ : Type} {rel : α → β → Prop}

theorem bind {after : γ → δ → Prop} {p : Program E R α} {q : Program E R β} {f : α → Program E R γ}
    {g : β → Program E R δ} (first : Coupled alike rel p q)
    (rest : ∀ value other, rel value other → Coupled alike after (f value) (g other)) :
    Coupled alike after (p.bind f) (q.bind g) := by
  induction first with
  | done related => exact rest _ _ related
  | call _ ih => exact .call fun answer answer' same => ih answer answer' same rest
  | loop I J begins round _ _ ih => exact .loop I J begins round fun result result' related => ih result result' related rest

theorem mono {wider : α → β → Prop} {p : Program E R α} {q : Program E R β} (coupled : Coupled alike rel p q)
    (weaker : ∀ value other, rel value other → wider value other) : Coupled alike wider p q := by
  have ended : Coupled alike wider (p.bind .done) (q.bind .done) := coupled.bind fun _ _ related => .done (weaker _ _ related)
  rwa [Program.bind_done,Program.bind_done] at ended

/-- A program against itself, where the answers it gets are the same. -/
theorem refl {p : Program E R α} (plain : p.Uses fun event => ∀ answer answer', alike event answer answer' → answer = answer') :
    Coupled alike Eq p p := by
  induction p with
  | done value => exact .done rfl
  | call event next ih =>
    refine .call fun answer answer' same => ?_
    obtain rfl := plain.1 answer answer' same
    exact ih answer (plain.2 answer)
  | loop body start next first second =>
    refine .loop Eq Eq rfl ?_ fun result result' same => same ▸ second result (plain.2 result)
    rintro state _ rfl
    refine (first state (plain.1 state)).mono ?_
    rintro outcome _ rfl
    cases outcome with
    | inl again => exact .inl rfl
    | inr result => exact .inr rfl

/-- A program against itself, where the calls it comes to are answered the same. -/
theorem only {allowed : E → Prop} (plain : ∀ event answer answer', allowed event → alike event answer answer' → answer = answer')
    {Q : α → Prop} {p : Program E R α} (known : p.Only allowed Q) :
    Coupled alike (fun value other => value = other ∧ Q value) p p := by
  induction p with
  | done value => exact .done ⟨rfl,known.now⟩
  | call event next ih =>
    refine .call fun answer answer' same => ?_
    obtain rfl := plain event answer answer' known.now same
    exact ih answer (known.step (.call trivial))
  | loop body start next first second =>
    refine .loop (fun state other => state = other ∧ (Program.loop body state next).Only allowed Q)
      (fun result other => result = other ∧ (next result).Only allowed Q) ⟨rfl,known⟩ ?_ ?_
    · rintro state _ ⟨rfl,known⟩
      have round : (body state).Only allowed fun outcome => (Program.unroll body next outcome).Only allowed Q :=
        (known.step (.loop _ _ _ _)).unbind
      refine (first state round).mono ?_
      rintro outcome _ ⟨rfl,rest⟩
      cases outcome with
      | inl again => exact .inl ⟨rfl,rest⟩
      | inr result => exact .inr ⟨rfl,rest⟩
    · rintro result _ ⟨rfl,rest⟩
      exact second result rest

theorem symm {p : Program E R α} {q : Program E R β} (coupled : Coupled alike rel p q) :
    Coupled (fun event answer' answer => alike event answer answer') (fun other value => rel value other) q p := by
  induction coupled with
  | done related => exact .done related
  | call _ ih => exact .call fun answer' answer same => ih answer answer' same
  | loop I J begins _ _ first second =>
    refine .loop (fun state' state => I state state') (fun result' result => J result result') begins ?_ ?_
    · intro state' state kept
      refine (first state state' kept).mono fun outcome outcome' related => ?_
      cases related with
      | inl kept => exact .inl kept
      | inr kept => exact .inr kept
    · exact fun result' result related => second result result' related

private theorem unroll {I : σ → τ → Prop} {J : γ → δ → Prop} {body : σ → Program E R (σ ⊕ γ)}
    {body' : τ → Program E R (τ ⊕ δ)} {next : γ → Program E R α} {next' : δ → Program E R β}
    (round : ∀ state state', I state state' → Coupled alike (Sum.LiftRel I J) (body state) (body' state'))
    (rest : ∀ result result', J result result' → Coupled alike rel (next result) (next' result'))
    {outcome : σ ⊕ γ} {outcome' : τ ⊕ δ} (kept : Sum.LiftRel I J outcome outcome') :
    Coupled alike rel (Program.unroll body next outcome) (Program.unroll body' next' outcome') := by
  cases kept with
  | inl kept => exact .loop I J kept round rest
  | inr kept => exact rest _ _ kept

/-- A run of the one, with other answers that are alike, is a run of the other. -/
theorem trace {p : Program E R α} {q : Program E R β} {t t' : List (Exchange E R)} {value : α}
    (coupled : Coupled alike rel p q) (run : Trace p t value) (answered : List.Forall₂ (Alike alike) t t') :
    ∃ other, Trace q t' other ∧ rel value other := by
  induction run generalizing β t' with
  | done value =>
    cases coupled with
    | done related =>
      cases answered
      exact ⟨_,.done _,related⟩
  | call _ ih =>
    cases coupled with
    | call rest =>
      cases answered with
      | cons head tail =>
        cases head with
        | mk same =>
          obtain ⟨other,later,related⟩ := ih (rest _ _ same) tail
          exact ⟨other,.call later,related⟩
  | loop _ ih =>
    cases coupled with
    | loop I J begins round rest =>
      obtain ⟨other,later,related⟩ := ih ((round _ _ begins).bind fun _ _ kept => unroll round rest kept) answered
      exact ⟨other,.loop later,related⟩

/-- A run of the second is a run of the first. -/
theorem trace_back {p : Program E R α} {q : Program E R β} {t t' : List (Exchange E R)} {other : β}
    (coupled : Coupled alike rel p q) (run : Trace q t' other) (answered : List.Forall₂ (Alike alike) t t') :
    ∃ value, Trace p t value ∧ rel value other := by
  refine coupled.symm.trace run (answered.flip.imp ?_)
  rintro x y ⟨same⟩
  exact .mk same

/-- Both come to the same call. -/
theorem pending {p : Program E R α} {q : Program E R β} (coupled : Coupled alike rel p q) : p.pending = q.pending := by
  cases coupled <;> rfl

/-- As far as the one has come the other comes as well, with answers that are alike. -/
theorem steps {p p' : Program E R α} {q : Program E R β} {t t' : List (Exchange E R)} (coupled : Coupled alike rel p q)
    (reached : Steps record p [] p' t) (answered : List.Forall₂ (Alike alike) t t') :
    ∃ q', Steps record q [] q' t' ∧ Coupled alike rel p' q' := by
  unfold Steps at reached
  generalize finish : (p',t) = b at reached
  induction reached generalizing p' t t' with
  | refl =>
    cases finish
    cases answered
    exact ⟨q,.refl,coupled⟩
  | @tail a b _ taken ih =>
    obtain ⟨before,earlier⟩ := a
    cases finish
    generalize moved : t = later at taken
    cases taken with
    | @call _ event next _ _ answer taken =>
      cases (taken : later = earlier ++ [⟨event,answer⟩])
      subst moved
      have firsts := (List.forall₂_take_append _ _ _ answered.flip).flip
      have lasts := (List.forall₂_drop_append _ _ _ answered.flip).flip
      rw [← List.take_append_drop earlier.length t']
      generalize t'.take earlier.length = first at firsts
      generalize t'.drop earlier.length = last at lasts
      cases lasts with
      | cons head tail =>
        cases head with
        | mk same =>
          cases tail
          obtain ⟨q',reached,coupled⟩ := ih firsts rfl
          cases coupled with
          | call rest => exact ⟨_,reached.tail (.call rfl),rest _ _ same⟩
    | loop =>
      subst moved
      obtain ⟨q',reached,coupled⟩ := ih answered rfl
      cases coupled with
      | loop I J begins round rest =>
        exact ⟨_,reached.tail (.loop _ _ _ _),(round _ _ begins).bind fun _ _ kept => unroll round rest kept⟩

end Coupled

/-! Programs that may fail. -/

/-- Both end with values that are related, or with the same error. -/
inductive Endings {ε α β : Type} (rel : α → β → Prop) : Except ε α → Except ε β → Prop
  | ok {value : α} {other : β} (related : rel value other) : Endings rel (.ok value) (.ok other)
  | error (error : ε) : Endings rel (.error error) (.error error)

/-- Both go on with states that are related, or both end. -/
inductive Round {ε σ τ α β : Type} (I : σ → τ → Prop) (ended : Except ε α → Except ε β → Prop) :
    Except ε (σ ⊕ α) → Except ε (τ ⊕ β) → Prop
  | again {state : σ} {other : τ} (kept : I state other) : Round I ended (.ok (.inl state)) (.ok (.inl other))
  | ends {out : Except ε α} {other : Except ε β} (related : ended out other) :
      Round I ended (out.map .inr) (other.map .inr)

theorem Round.value {ε σ τ α β : Type} {I : σ → τ → Prop} {ended : Except ε α → Except ε β → Prop} {value : α} {other : β}
    (related : ended (.ok value) (.ok other)) : Round I ended (.ok (.inr value)) (.ok (.inr other)) := .ends related

theorem Round.failed {ε σ τ α β : Type} {I : σ → τ → Prop} {ended : Except ε α → Except ε β → Prop} {error other : ε}
    (related : ended (.error error) (.error other)) : Round I ended (.error error) (.error other) := .ends related

namespace Fallible

variable {E : Type} {R : E → Type} {alike : (event : E) → R event → R event → Prop} {α β γ δ ε σ τ : Type}
  {rel : α → β → Prop} {after : Except ε γ → Except ε δ → Prop}

theorem coupled_refl {x : Fallible ε E R α}
    (plain : Fallible.Uses (fun event => ∀ answer answer', alike event answer answer' → answer = answer') x) :
    Coupled alike (Endings Eq) x.run x.run := by
  refine (Coupled.refl plain).mono ?_
  rintro result _ rfl
  cases result with
  | ok value => exact .ok rfl
  | error error => exact .error error

theorem coupled_only {allowed : E → Prop}
    (plain : ∀ event answer answer', allowed event → alike event answer answer' → answer = answer')
    {x : Fallible ε E R α} {Q : Except ε α → Prop} (known : x.run.Only allowed Q) :
    Coupled alike (Endings fun value other => value = other ∧ Q (.ok value)) x.run x.run := by
  refine (Coupled.only plain known).mono ?_
  rintro result _ ⟨rfl,reached⟩
  cases result with
  | ok value => exact .ok ⟨rfl,reached⟩
  | error error => exact .error error

theorem coupled_bind {x : Fallible ε E R α} {y : Fallible ε E R β} {f : α → Fallible ε E R γ} {g : β → Fallible ε E R δ}
    (first : Coupled alike (Endings rel) x.run y.run) (fails : ∀ error, after (.error error) (.error error))
    (rest : ∀ value other, rel value other → Coupled alike after (f value).run (g other).run) :
    Coupled alike after (x >>= f).run (y >>= g).run := by
  rw [run_bind,run_bind]
  refine first.bind fun result other ended => ?_
  cases ended with
  | ok related => exact rest _ _ related
  | error error => exact .done (fails error)

theorem coupled_ask {event : E} {f : R event → Fallible ε E R γ} {g : R event → Fallible ε E R δ}
    (rest : ∀ answer answer', alike event answer answer' → Coupled alike after (f answer).run (g answer').run) :
    Coupled alike after (Fallible.ask event >>= f).run (Fallible.ask event >>= g).run := .call rest

/-- A part that cannot fail comes first. -/
theorem coupled_lift {p : Program E R α} {q : Program E R β} {f : α → Fallible ε E R γ} {g : β → Fallible ε E R δ}
    (first : Coupled alike rel p q) (rest : ∀ value other, rel value other → Coupled alike after (f value).run (g other).run) :
    Coupled alike after ((liftM p : Fallible ε E R α) >>= f).run ((liftM q : Fallible ε E R β) >>= g).run := by
  have split {η θ : Type} (p : Program E R η) (f : η → Fallible ε E R θ) :
      ((liftM p : Fallible ε E R η) >>= f).run = p.bind fun value => (f value).run := by
    change (p.bind fun value => .done (Except.ok value)).bind (ExceptT.bindCont f) = _
    rw [Program.bind_assoc]
    rfl
  rw [split,split]
  exact first.bind rest

theorem coupled_releasing {release release' : Program E R Unit} {x : Fallible ε E R γ} {y : Fallible ε E R δ}
    (body : Coupled alike after x.run y.run) (released : Coupled alike Eq release release') :
    Coupled alike after (releasing release x).run (releasing release' y).run :=
  body.bind fun _ _ related => released.bind fun _ _ _ => .done related

theorem coupled_iterate {body : σ → Fallible ε E R (σ ⊕ γ)} {body' : τ → Fallible ε E R (τ ⊕ δ)} {start : σ} {start' : τ}
    (I : σ → τ → Prop) (begins : I start start')
    (round : ∀ state state', I state state' → Coupled alike (Round I after) (body state).run (body' state').run) :
    Coupled alike after (iterate body start).run (iterate body' start').run := by
  refine .loop I after begins (fun state state' kept => (round state state' kept).bind fun out out' stepped => ?_)
    fun _ _ related => .done related
  cases stepped with
  | again kept => exact .done (.inl kept)
  | @ends out other related => cases out <;> cases other <;> exact .done (.inr related)

end Fallible

/-! Programs that get the same answers. -/

/-- The same answer. -/
def Same {E : Type} {R : E → Type} (event : E) (answer answer' : R event) : Prop := answer = answer'

namespace Coupled

variable {E : Type} {R : E → Type} {α β γ δ : Type} {rel : α → β → Prop}

theorem same_refl (t : List (Exchange E R)) : List.Forall₂ (Alike Same) t t :=
  List.forall₂_same.mpr fun x _ => Alike.mk (rfl : Same x.1 x.2 x.2)

/-- A program against itself, continued in two ways. -/
theorem same {after : γ → δ → Prop} (p : Program E R α) {f : α → Program E R γ} {g : α → Program E R δ}
    (rest : ∀ value, Coupled Same after (f value) (g value)) : Coupled Same after (p.bind f) (p.bind g) :=
  (refl ((Program.Uses.any p).mono fun _ _ _ _ equal => equal)).bind fun value _ same => same ▸ rest value

theorem answered {event : E} {next : R event → Program E R α} {next' : R event → Program E R β}
    (rest : ∀ answer, Coupled Same rel (next answer) (next' answer)) : Coupled Same rel (.call event next) (.call event next') :=
  .call fun answer _ same => same ▸ rest answer

end Coupled

end Runas.Interaction
