import Mathlib.Data.List.Basic

/-! Command lines as options. A grammar says which words are options, which of them
take the next word as their value whatever it looks like, and which word ends
them. Reading a command line inverts writing it. -/
namespace Runas.Getopt

/-- Which words are options, and how many words each takes. -/
structure Grammar (W : Type) where
  terminator : W
  isOption : W → Bool
  takesValue : W → Bool

/-- An option as it is written: alone or before its value. -/
inductive Opt (W : Type)
  | flag (name : W)
  | valued (name word : W)
  deriving DecidableEq

variable {W : Type}

namespace Opt

def words : Opt W → List W
  | .flag name => [name]
  | .valued name word => [name,word]

def name : Opt W → W
  | .flag name => name
  | .valued name _ => name

def map {V : Type} (spell : W → V) : Opt W → Opt V
  | .flag name => .flag (spell name)
  | .valued name word => .valued (spell name) (spell word)

end Opt

def write (opts : List (Opt W)) : List W := opts.flatMap Opt.words

@[simp] theorem write_nil : write ([] : List (Opt W)) = [] := rfl

@[simp] theorem write_cons (opt : Opt W) (opts : List (Opt W)) :
    write (opt :: opts) = opt.words ++ write opts := rfl

@[simp] theorem write_append (a b : List (Opt W)) : write (a ++ b) = write a ++ write b :=
  List.flatMap_append

theorem write_flags {α : Type} (spell : α → W) (names : List α) :
    write (names.map fun name => .flag (spell name)) = names.map spell := by
  induction names with
  | nil => rfl
  | cons name names ih =>
    rw [List.map_cons,write_cons,ih]
    rfl

theorem map_write {V : Type} (spell : W → V) (opts : List (Opt W)) :
    (write opts).map spell = write (opts.map (Opt.map spell)) := by
  induction opts with
  | nil => rfl
  | cons opt opts ih =>
    rw [write_cons,List.map_append,ih]
    cases opt <;> rfl

variable [DecidableEq W]

namespace Grammar
variable (g : Grammar W)

/-- The options up to the terminator or the first other word, and the words left;
`none` when the last option lacks its value. -/
def read : List W → Option (List (Opt W) × List W)
  | [] => some ([],[])
  | word :: rest =>
    if word = g.terminator then some ([],rest)
    else if !g.isOption word then some ([],word :: rest)
    else if g.takesValue word then
      match rest with
      | [] => none
      | value :: rest => (read rest).map fun (opts,left) => (.valued word value :: opts,left)
    else (read rest).map fun (opts,left) => (.flag word :: opts,left)

def WellFormed : Opt W → Prop
  | .flag name => name ≠ g.terminator ∧ g.isOption name = true ∧ g.takesValue name = false
  | .valued name _ => name ≠ g.terminator ∧ g.isOption name = true ∧ g.takesValue name = true

instance (opt : Opt W) : Decidable (g.WellFormed opt) := by
  cases opt <;> exact inferInstanceAs (Decidable (_ ∧ _ ∧ _))

@[simp] theorem read_nil : g.read [] = some ([],[]) := rfl

@[simp] theorem read_terminator (rest : List W) : g.read (g.terminator :: rest) = some ([],rest) := by
  cases rest <;> simp [read]

variable {g}

private theorem read_words {opt : Opt W} (wellFormed : g.WellFormed opt) (rest : List W) :
    g.read (opt.words ++ rest) = (g.read rest).map fun (opts,left) => (opt :: opts,left) := by
  cases opt with
  | flag name =>
    obtain ⟨other,isOption,alone⟩ := wellFormed
    cases rest <;> simp [Opt.words,read,other,isOption,alone]
  | valued name value =>
    obtain ⟨other,isOption,takes⟩ := wellFormed
    simp [Opt.words,read,other,isOption,takes]

theorem read_write {opts : List (Opt W)} (wellFormed : ∀ opt ∈ opts, g.WellFormed opt) (rest : List W) :
    g.read (write opts ++ rest) = (g.read rest).map fun (more,left) => (opts ++ more,left) := by
  induction opts with
  | nil => simp
  | cons opt opts ih =>
    have first := wellFormed opt List.mem_cons_self
    have others := ih fun other member => wellFormed other (List.mem_cons_of_mem _ member)
    rw [write_cons,List.append_assoc,read_words first,others,Option.map_map]
    rfl

end Grammar

/-- The value of the last option of a name, the later one winning. -/
def valueOf (name : W) (opts : List (Opt W)) : Option W :=
  opts.reverse.findSome? fun
    | .valued other value => if other = name then some value else none
    | .flag _ => none

@[simp] theorem valueOf_nil (name : W) : valueOf name [] = none := rfl

theorem valueOf_append (name : W) (a b : List (Opt W)) :
    valueOf name (a ++ b) = (valueOf name b).or (valueOf name a) := by
  simp [valueOf,List.reverse_append,List.findSome?_append]

theorem valueOf_eq_none {name : W} {opts : List (Opt W)} (other : ∀ opt ∈ opts, opt.name ≠ name) :
    valueOf name opts = none := by
  unfold valueOf
  rw [List.findSome?_eq_none_iff]
  intro opt member
  have differs := other opt (List.mem_reverse.mp member)
  cases opt with
  | flag word => rfl
  | valued word value => exact if_neg differs

end Runas.Getopt
