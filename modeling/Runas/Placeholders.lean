import Runas.OverrideFormat
import Runas.Substitution

/-! The placeholders of the administrator's file. They are replaced one after the other, and the
documentation says that this is literal: what is put in is text like any other. -/
namespace Runas
open Interaction Text Substitution

def patterns (placeholders : List (String × String)) : Table Char :=
  placeholders.map fun (name,replacement) => (['$','\x7b'] ++ name.toList ++ ['\x7d'],replacement.toList)

private theorem replaceFrom_pass (pattern replacement : List Char) (skip : Nat) (text : List Char) :
    replaceFrom pattern replacement skip text = passFrom [(pattern,replacement)] skip text := by
  fun_induction replaceFrom pattern replacement skip text with
  | case1 => rfl
  | case2 skip c rest ih => exact ih
  | case3 c rest starts ih => simp [passFrom,matched,starts,ih]
  | case4 c rest other ih => simp [passFrom,matched,other,ih]

theorem expand_sequential (placeholders : List (String × String)) (text : List Char) :
    expand placeholders text = sequential (patterns placeholders) text := by
  unfold expand sequential patterns
  rw [List.foldl_map]
  congr 1
  funext value entry
  exact replaceFrom_pass _ _ 0 value

private def Plain (placeholders : List (String × String)) : Prop :=
  ∀ entry ∈ placeholders,∀ c ∈ entry.1.toList,isWhitespace c = false ∧ c.isDigit = false ∧ c ∉ ['$','\x7b','\x7d','\x00']

section
variable {names : List (String × String)}

private theorem patterns_bracketed (plain : Plain names) : ∀ entry ∈ patterns names,Bracketed '$' '\x7d' entry.1 := by
  intro entry member
  obtain ⟨⟨name,replacement⟩,inside,rfl⟩ := List.mem_map.mp member
  have letter (c : Char) (bracket : c ∈ ['$','\x7b','\x7d','\x00']) : c ∉ name.toList := fun late =>
    (plain _ inside c late).2.2 bracket
  refine ⟨'\x7b' :: name.toList,by simp,?_,?_⟩
  · simpa using letter '$' (by simp)
  · simpa using letter '\x7d' (by simp)

private theorem patterns_distinct (distinct : (names.map Prod.fst).Nodup) : ((patterns names).map Prod.fst).Nodup := by
  have same : (patterns names).map Prod.fst =
      (names.map Prod.fst).map fun name => ['$','\x7b'] ++ name.toList ++ ['\x7d'] := by
    simp [patterns]
  rw [same]
  refine distinct.map fun one two same => ?_
  have letters := List.append_cancel_left (List.append_cancel_right same)
  exact String.toList_inj.mp letters

private theorem patterns_spelled (plain : Plain names) : ∀ entry ∈ patterns names,∀ c ∈ entry.1,isWhitespace c = false := by
  intro entry member c inside
  obtain ⟨⟨name,replacement⟩,listed,rfl⟩ := List.mem_map.mp member
  simp only [List.mem_append,List.mem_cons,List.not_mem_nil,or_false] at inside
  rcases inside with ((rfl | rfl) | letter) | rfl
  · rfl
  · rfl
  · exact (plain _ listed c letter).1
  · rfl

end

private theorem placeholders_plain (target : Account) : Plain (placeholders target) := by
  simp [Plain,placeholders,isWhitespace]

private theorem placeholders_distinct (target : Account) : ((placeholders target).map Prod.fst).Nodup := by
  simp [placeholders]

/-- A NUL in an expanded value has been in the text of the line, where the account has none. -/
theorem nul_expand {target : Account} (account : ∀ entry ∈ placeholders target,'\x00' ∉ entry.2.toList) (text : List Char) :
    '\x00' ∈ expand (placeholders target) text ↔ '\x00' ∈ text := by
  rw [expand_sequential]
  refine mem_sequential (fun entry member => ?_) (fun entry member => ?_) text
  · exact (patterns_bracketed (placeholders_plain target) entry member).ne_nil
  · obtain ⟨⟨name,replacement⟩,listed,rfl⟩ := List.mem_map.mp member
    have plain : '\x00' ∉ name.toList := fun inside => (placeholders_plain target _ listed _ inside).2.2 (by simp)
    exact ⟨by simpa using plain,account _ listed⟩

/-- What is stored for an assignment is its text, each placeholder replaced in a single pass. -/
def Literal (target : Account) (table : List (String × String)) : Prop :=
  ∀ (env : EnvMap) (line : String) (key text : List Char),'\n' ∉ line.toList →
    parseLine target.name line.toList = some (key,some text) → String.ofList key ∉ env →
    overwriteLine target table env line =
      .done (env.insert (String.ofList key) (String.ofList (pass (patterns (placeholders target)) text)))

section
variable {target : Account} {table : List (String × String)} {env : EnvMap} {line : String} {key text : List Char}

private theorem overwriteLine_stores (parsed : parseLine target.name line.toList = some (key,some text))
    (unset : String.ofList key ∉ env) : overwriteLine target table env line =
      .done (env.insert (String.ofList key) (String.ofList (sequential (patterns table) text))) := by
  unfold overwriteLine
  rw [parsed]
  dsimp only
  rw [if_neg unset,expand_sequential]
  rfl

private theorem parseLine_text (bare : ∀ c ∈ text,isWhitespace c = false) :
    parseLine target.name (['*',' ','A','='] ++ text) = some (['A'],some text) := by
  refine parseLine_eq_some_iff.mpr ⟨⟨['*'],[' ','A','='] ++ text,?_,by decide,.inl rfl,?_⟩,?_⟩
  · refine ⟨[],rfl,by simp [Blank],by simp,by simp [isWhitespace],fun c head => ?_⟩
    cases head
    rfl
  · refine ⟨[' ','A'],text,rfl,by decide,⟨[' '],[],rfl,?_,?_,?_,?_⟩,⟨[],[],?_,?_,?_,?_,?_⟩⟩
    · simp [Blank,isWhitespace]
    · simp [Blank]
    · simp [isWhitespace]
    · simp [isWhitespace]
    · simp
    · simp [Blank]
    · simp [Blank]
    · exact fun c head => bare c (List.mem_of_head? head)
    · exact fun c last => bare c (List.mem_of_getLast? last)
  · exact ⟨'A',[],rfl,.inl (by decide),by simp⟩

/-- In any order of the table, the values are literal just when no replacement can be disturbed. -/
private theorem literal_iff (order : table.Perm (placeholders target)) :
    Literal target table ↔ Undisturbed (patterns table) := by
  have plain : Plain table := fun entry member => placeholders_plain target entry (order.subset member)
  have distinct := patterns_distinct ((order.map Prod.fst).nodup_iff.mpr (placeholders_distinct target))
  have brackets := patterns_bracketed (placeholders_plain target)
  have once (text : List Char) : pass (patterns table) text = pass (patterns (placeholders target)) text :=
    pass_perm brackets (patterns_distinct (placeholders_distinct target)) (order.map _) text
  rw [← sequential_iff (patterns_bracketed plain) distinct (patterns_spelled plain)]
  constructor
  · intro literal text bare
    have unbroken : '\n' ∉ (String.ofList (['*',' ','A','='] ++ text)).toList := by
      rw [String.toList_ofList]
      intro member
      rcases List.mem_append.mp member with front | back
      · exact absurd front (by decide)
      · exact absurd (bare '\n' back) (by decide)
    have parsed : parseLine target.name (String.ofList (['*',' ','A','='] ++ text)).toList = some (['A'],some text) := by
      rw [String.toList_ofList]
      exact parseLine_text bare
    have stored := literal ∅ _ ['A'] text unbroken parsed (AList.notMem_empty _)
    rw [overwriteLine_stores parsed (AList.notMem_empty _)] at stored
    have maps := Program.done.inj stored
    have values := congrArg (AList.lookup (String.ofList ['A'])) maps
    rw [AList.lookup_insert,AList.lookup_insert] at values
    exact (String.ofList_injective (Option.some.inj values)).trans (once text).symm
  · intro same env line key text _ parsed unset
    have undisturbed := (sequential_iff (patterns_bracketed plain) distinct (patterns_spelled plain)).mp same
    rw [overwriteLine_stores parsed unset,sequential_pass (patterns_bracketed plain) distinct undisturbed,once]

end

private theorem digits (n : Nat) : (toString n).toList ≠ [] ∧ ∀ c ∈ (toString n).toList,c.isDigit = true := by
  rw [Nat.toString_eq_ofList_toDigits,String.toList_ofList]
  exact ⟨Nat.toDigits_ne_nil,fun c member => Nat.isDigit_of_mem_toDigits (by decide) (by decide) member⟩

private theorem number_inert (names : List (String × String)) (plain : Plain names) (n : Nat) :
    Inert (patterns names) (toString n).toList := by
  obtain ⟨some,digit⟩ := digits n
  refine inert_of_apart (patterns_bracketed plain) some (fun member => absurd (digit '$' member) (by decide)) ?_
  intro entry member c inside number
  have shown := digit c number
  obtain ⟨⟨name,replacement⟩,listed,rfl⟩ := List.mem_map.mp member
  simp only [List.mem_append,List.mem_cons,List.not_mem_nil,or_false] at inside
  rcases inside with ((rfl | rfl) | letter) | rfl
  · exact absurd shown (by decide)
  · exact absurd shown (by decide)
  · rw [(plain _ listed c letter).2.1] at shown
    cases shown
  · exact absurd shown (by decide)

/-- In whatever order the placeholders are taken, values are literal just when no text that is put
in is disturbed by the placeholders after it. In the order of the program the names of the user
and of the group are all that can be. -/
theorem placeholders_literal_iff (target : Account) :
    (∀ table : List (String × String),table.Perm (placeholders target) →
      (Literal target table ↔ Undisturbed (patterns table))) ∧
    (Literal target (placeholders target) ↔
      Inert (patterns ((placeholders target).drop 1)) target.name.toList ∧
        Inert (patterns ((placeholders target).drop 2)) target.group.name.toList) := by
  refine ⟨fun table order => literal_iff order,(literal_iff (List.Perm.refl _)).trans ?_⟩
  have plain (n : Nat) : Plain ((placeholders target).drop n) := fun entry member =>
    placeholders_plain target entry (List.mem_of_mem_drop member)
  constructor
  · intro ⟨user,group,_⟩
    exact ⟨user,group⟩
  · intro ⟨user,group⟩
    exact ⟨user,group,number_inert _ (plain 3) _,number_inert _ (plain 4) _,⟨pass_empty _,nofun⟩,trivial⟩

def pieceName : Account := { alice with user := { alice.user with name := "ID" } }

/-- The name and what is around it are taken for another placeholder. -/
theorem placeholder_formed :
    parseLine pieceName.name "* A=$\x7bU$\x7bUSER\x7d\x7d".toList = some (['A'],some "$\x7bU$\x7bUSER\x7d\x7d".toList) ∧
    overwriteLine pieceName (placeholders pieceName) ∅ "* A=$\x7bU$\x7bUSER\x7d\x7d" =
      .done ((∅ : EnvMap).insert "A" "1000") ∧
    pass (patterns (placeholders pieceName)) "$\x7bU$\x7bUSER\x7d\x7d".toList = "$\x7bUID\x7d".toList ∧
    ¬ Literal pieceName (placeholders pieceName) := by
  have parsed : parseLine pieceName.name "* A=$\x7bU$\x7bUSER\x7d\x7d".toList =
      some (['A'],some "$\x7bU$\x7bUSER\x7d\x7d".toList) := by decide
  have stored : overwriteLine pieceName (placeholders pieceName) ∅ "* A=$\x7bU$\x7bUSER\x7d\x7d" =
      .done ((∅ : EnvMap).insert "A" "1000") := rfl
  have once : pass (patterns (placeholders pieceName)) "$\x7bU$\x7bUSER\x7d\x7d".toList = "$\x7bUID\x7d".toList := by
    decide
  refine ⟨parsed,stored,once,fun literal => ?_⟩
  have values := literal ∅ "* A=$\x7bU$\x7bUSER\x7d\x7d" _ _ (by decide) parsed (AList.notMem_empty _)
  rw [stored,once] at values
  have other := congrArg (AList.lookup "A") (Program.done.inj values)
  exact absurd other (by decide)

end Runas
