import Mathlib.Data.List.Find
import Mathlib.Data.List.Infix
import Mathlib.Data.List.Nodup

/-! Replacing patterns in a text, all in one pass from the left or one after the other. For
patterns between brackets the two are compared: they agree on every text just when no text
that is put in can take part in a pattern that is still to come. -/
namespace Runas.Substitution

abbrev Table (α : Type) := List (List α × List α)

variable {α : Type}

/-- The opening bracket is the first character and no other one, the closing bracket the last. -/
def Bracketed (opening closing : α) (pattern : List α) : Prop :=
  ∃ inner,pattern = opening :: inner ++ [closing] ∧ opening ∉ inner ++ [closing] ∧ closing ∉ opening :: inner

section
variable {opening closing : α} {pattern other text before after : List α}

theorem Bracketed.ne_nil (bracketed : Bracketed opening closing pattern) : pattern ≠ [] := by
  obtain ⟨inner,rfl,_⟩ := bracketed
  simp

/-- Of two parts the first alone has the opening bracket, and the second the closing one. -/
theorem Bracketed.parts (bracketed : Bracketed opening closing pattern) (split : pattern = before ++ after)
    (first : before ≠ []) (last : after ≠ []) : opening ∉ after ∧ closing ∉ before ∧ before.head? = some opening := by
  obtain ⟨inner,same,once,never⟩ := bracketed
  rw [same] at split
  refine ⟨fun late => ?_,fun early => ?_,?_⟩
  · obtain ⟨c,before,rfl⟩ := List.exists_cons_of_ne_nil first
    have tail : inner ++ [closing] = before ++ after := (List.cons.inj split).2
    exact once (tail ▸ List.mem_append_right before late)
  · rcases List.eq_nil_or_concat after with rfl | ⟨middle,c,rfl⟩
    · exact last rfl
    · rw [List.concat_eq_append,← List.append_assoc] at split
      exact never ((List.append_inj_left' split rfl) ▸ List.mem_append_left middle early)
  · obtain ⟨c,before,rfl⟩ := List.exists_cons_of_ne_nil first
    rw [List.head?_cons,← (List.cons.inj split).1]

theorem Bracketed.closed (bracketed : Bracketed opening closing pattern) : closing ∈ pattern := by
  obtain ⟨inner,rfl,_⟩ := bracketed
  simp

private theorem Bracketed.whole (bracketed : Bracketed opening closing pattern) (closed : closing ∈ before)
    (starts : before <+: pattern) : before = pattern := by
  obtain ⟨after,rfl⟩ := starts
  by_cases all : after = []
  · rw [all,List.append_nil]
  · exact absurd closed (bracketed.parts rfl (List.ne_nil_of_mem closed) all).2.1

/-- A text starts with one of them at most. -/
theorem Bracketed.eq (bracketed : Bracketed opening closing pattern) (bracketed' : Bracketed opening closing other)
    (starts : pattern <+: other ++ text) : pattern = other := by
  rcases List.prefix_or_prefix_of_prefix starts (List.prefix_append other text) with inside | inside
  · exact bracketed'.whole bracketed.closed inside
  · exact (bracketed.whole bracketed'.closed inside).symm

end

variable [DecidableEq α]

def matched (table : Table α) (text : List α) : Option (List α × List α) :=
  table.find? fun entry => entry.1.isPrefixOf text

/-- One pass, with `skip` characters still to pass over. -/
def passFrom (table : Table α) : Nat → List α → List α
  | _,[] => []
  | skip+1,_ :: rest => passFrom table skip rest
  | 0,c :: rest => match matched table (c :: rest) with
    | some (pattern,replacement) => replacement ++ passFrom table (pattern.length - 1) rest
    | none => c :: passFrom table 0 rest

/-- Every occurrence of a pattern is replaced, and what is put in is not looked at again. -/
def pass (table : Table α) (text : List α) : List α := passFrom table 0 text

/-- The patterns are replaced in turn, each in all of the text that the earlier ones have left. -/
def sequential (table : Table α) (text : List α) : List α :=
  table.foldl (fun text entry => pass [entry] text) text

variable {table : Table α} {entry : List α × List α} {pattern replacement text left right before after : List α} {c : α}

private theorem passFrom_skip (skip : Nat) (text : List α) : passFrom table skip text = pass table (text.drop skip) := by
  induction skip generalizing text with
  | zero => rfl
  | succ skip ih =>
    cases text with
    | nil => rfl
    | cons c text => exact ih text

theorem pass_nil : pass table [] = [] := rfl

theorem pass_cons (unmatched : matched table (c :: text) = none) : pass table (c :: text) = c :: pass table text := by
  rw [pass,passFrom,unmatched]
  rfl

theorem pass_matched (nonempty : pattern ≠ []) (found : matched table (pattern ++ text) = some (pattern,replacement)) :
    pass table (pattern ++ text) = replacement ++ pass table text := by
  obtain ⟨c,tail,rfl⟩ := List.exists_cons_of_ne_nil nonempty
  rw [List.cons_append] at found ⊢
  rw [pass,passFrom,found]
  dsimp only
  rw [passFrom_skip]
  simp

theorem pass_empty (text : List α) : pass [] text = text := by
  induction text with
  | nil => rfl
  | cons c text ih => rw [pass_cons rfl,ih]

theorem matched_some (found : matched table text = some entry) : entry ∈ table ∧ ∃ after,text = entry.1 ++ after := by
  refine ⟨List.mem_of_find?_eq_some found,?_⟩
  have starts := List.find?_some found
  obtain ⟨after,same⟩ := List.isPrefixOf_iff_prefix.mp starts
  exact ⟨after,same.symm⟩

theorem matched_none : matched table text = none ↔ ∀ entry ∈ table,¬ entry.1 <+: text := by
  simp [matched,List.find?_eq_none]

/-- A text is empty, or starts with a pattern, or with a character that is kept. -/
theorem pass_induction (table : Table α) (filled : ∀ entry ∈ table,entry.1 ≠ []) {motive : List α → Prop}
    (nil : motive []) (replaced : ∀ entry after,matched table (entry.1 ++ after) = some entry → motive after →
      motive (entry.1 ++ after))
    (kept : ∀ c after,matched table (c :: after) = none → motive after → motive (c :: after)) (text : List α) :
    motive text := by
  induction size : text.length using Nat.strongRecOn generalizing text with
  | _ n ih =>
    cases text with
    | nil => exact nil
    | cons c after =>
      cases found : matched table (c :: after) with
      | none => exact kept c after found (ih after.length (by simp [← size]) after rfl)
      | some entry =>
        obtain ⟨member,rest,same⟩ := matched_some found
        have long := List.length_pos_of_ne_nil (filled entry member)
        rw [same] at found size ⊢
        rw [List.length_append] at size
        exact replaced entry rest found (ih rest.length (by omega) rest rfl)

/-- A character that is in no pattern and in nothing that is put in comes through. -/
theorem mem_pass (filled : ∀ entry ∈ table,entry.1 ≠ []) (foreign : ∀ entry ∈ table,c ∉ entry.1 ∧ c ∉ entry.2)
    (text : List α) : c ∈ pass table text ↔ c ∈ text := by
  induction text using pass_induction table filled with
  | nil => rfl
  | replaced entry after found ih =>
    have member := (matched_some found).1
    rw [pass_matched (filled entry member) found]
    simp [foreign entry member,ih]
  | kept d after found ih =>
    rw [pass_cons found]
    simp [ih]

theorem mem_sequential (filled : ∀ entry ∈ table,entry.1 ≠ []) (foreign : ∀ entry ∈ table,c ∉ entry.1 ∧ c ∉ entry.2)
    (text : List α) : c ∈ sequential table text ↔ c ∈ text := by
  induction table generalizing text with
  | nil => rfl
  | cons entry table ih =>
    have rest := ih (fun entry member => filled entry (List.mem_cons_of_mem _ member))
      (fun entry member => foreign entry (List.mem_cons_of_mem _ member)) (pass [entry] text)
    refine rest.trans (mem_pass ?_ ?_ text)
    · simpa using filled entry List.mem_cons_self
    · simpa using foreign entry List.mem_cons_self

/-- A pass over two parts is one over each, when no pattern lies across the border. -/
theorem pass_append (filled : ∀ entry ∈ table,entry.1 ≠ []) (left : List α) (apart : ∀ entry ∈ table,∀ before after,
      entry.1 = before ++ after → before ≠ [] → after ≠ [] → before <:+ left → ¬ after <+: right) :
    pass table (left ++ right) = pass table left ++ pass table right := by
  have same (left : List α) (apart : ∀ entry ∈ table,∀ before after,
      entry.1 = before ++ after → before ≠ [] → after ≠ [] → before <:+ left → ¬ after <+: right)
      (nonempty : left ≠ []) : matched table (left ++ right) = matched table left := by
    unfold matched
    refine List.find?_congr fun entry member => ?_
    rw [Bool.eq_iff_iff,List.isPrefixOf_iff_prefix,List.isPrefixOf_iff_prefix]
    refine ⟨fun starts => ?_,fun starts => starts.trans (List.prefix_append _ _)⟩
    rcases List.prefix_or_prefix_of_prefix starts (List.prefix_append left right) with inside | ⟨after,whole⟩
    · exact inside
    · by_cases all : after = []
      · rw [← whole,all,List.append_nil]
      · rw [← whole] at starts
        exact absurd ((List.prefix_append_right_inj left).mp starts)
          (apart entry member left after whole.symm nonempty all List.suffix_rfl)
  induction left using pass_induction table filled with
  | nil => rfl
  | replaced entry after found ih =>
    have long := filled entry (matched_some found).1
    have whole := same _ apart (List.append_ne_nil_of_left_ne_nil long after)
    rw [found,List.append_assoc] at whole
    rw [List.append_assoc,pass_matched long whole,pass_matched long found,List.append_assoc,ih]
    intro other member before rest split some more ends
    exact apart other member before rest split some more (ends.trans (List.suffix_append _ _))
  | kept c after found ih =>
    have whole := same _ apart (List.cons_ne_nil c after)
    rw [found,List.cons_append] at whole
    rw [List.cons_append,pass_cons whole,pass_cons found,List.cons_append,ih]
    intro other member before rest split some more ends
    exact apart other member before rest split some more (ends.trans (List.suffix_cons _ _))

section brackets
variable {opening closing : α} (brackets : ∀ entry ∈ table,Bracketed opening closing entry.1)
include brackets

omit [DecidableEq α] in
private theorem filled : ∀ entry ∈ table,entry.1 ≠ [] := fun entry member => (brackets entry member).ne_nil

private theorem unmatched (other : c ≠ opening) : matched table (c :: text) = none := by
  refine matched_none.mpr fun entry member starts => ?_
  obtain ⟨inner,same,_⟩ := brackets entry member
  rw [same] at starts
  exact other (List.cons_prefix_cons.mp starts).1.symm

/-- Where there is no opening bracket nothing is replaced. -/
theorem pass_plain (plain : opening ∉ left) : pass table (left ++ text) = left ++ pass table text := by
  induction left with
  | nil => rfl
  | cons c left ih =>
    have other : c ≠ opening := fun same => plain (same ▸ List.mem_cons_self)
    rw [List.cons_append,pass_cons (unmatched brackets other),ih fun late => plain (List.mem_cons_of_mem c late)]
    rfl

theorem pass_plain_self (plain : opening ∉ left) : pass table left = left := by
  have whole := @pass_plain _ _ table [] left _ _ brackets plain
  rwa [List.append_nil,pass_nil,List.append_nil] at whole

/-- Nor in a part of a pattern. -/
theorem pass_part (bracketed : Bracketed opening closing pattern) (split : pattern = before ++ after)
    (last : after ≠ []) : pass table before = before := by
  cases before with
  | nil => rfl
  | cons c before =>
    have plain : opening ∉ before := by
      obtain ⟨inner,same,once,_⟩ := bracketed
      have tail : inner ++ [closing] = before ++ after := (List.cons.inj (same.symm.trans split)).2
      exact fun member => once (tail ▸ List.mem_append_left after member)
    rw [pass_cons,pass_plain_self brackets plain]
    refine matched_none.mpr fun entry member starts => ?_
    have closed := (brackets entry member).closed
    exact (bracketed.parts split (List.cons_ne_nil c before) last).2.1 (starts.subset closed)

theorem pass_foreign (bracketed : Bracketed opening closing pattern) (foreign : ∀ entry ∈ table,entry.1 ≠ pattern) :
    pass table (pattern ++ text) = pattern ++ pass table text := by
  have start : matched table (pattern ++ text) = none := matched_none.mpr fun entry member starts =>
    foreign entry member ((brackets entry member).eq bracketed starts)
  obtain ⟨inner,rfl,once,_⟩ := bracketed
  rw [List.cons_append,List.cons_append] at start ⊢
  rw [pass_cons start,pass_plain brackets once]
  rfl

theorem pass_opened (left : List α) (opened : ∀ c,right.head? = some c → c = opening) :
    pass table (left ++ right) = pass table left ++ pass table right := by
  refine pass_append (filled brackets) left fun entry member before after split some more _ starts => ?_
  obtain ⟨c,after,rfl⟩ := List.exists_cons_of_ne_nil more
  obtain ⟨rest,rfl⟩ := starts
  exact ((brackets entry member).parts split some more).1 (opened c rfl ▸ List.mem_cons_self)

variable (distinct : (table.map Prod.fst).Nodup)
include distinct

theorem matched_iff : matched table text = some entry ↔ entry ∈ table ∧ entry.1 <+: text := by
  constructor
  · intro found
    obtain ⟨member,after,same⟩ := matched_some found
    exact ⟨member,after,same.symm⟩
  · intro ⟨member,starts⟩
    cases found : matched table text with
    | none => exact absurd starts (matched_none.mp found entry member)
    | some first =>
      obtain ⟨member',after,rfl⟩ := matched_some found
      rw [List.inj_on_of_nodup_map distinct member member' ((brackets entry member).eq (brackets first member') starts)]

theorem pass_entry (member : (pattern,replacement) ∈ table) :
    pass table (pattern ++ text) = replacement ++ pass table text :=
  pass_matched (brackets _ member).ne_nil
    ((matched_iff brackets distinct).mpr ⟨member,List.prefix_append pattern text⟩)

theorem pass_perm {order : Table α} (same : order.Perm table) (text : List α) : pass order text = pass table text := by
  have brackets' : ∀ entry ∈ order,Bracketed opening closing entry.1 := fun entry member =>
    brackets entry (same.subset member)
  have distinct' : (order.map Prod.fst).Nodup := (same.map Prod.fst).nodup_iff.mpr distinct
  induction text using pass_induction order (filled brackets') with
  | nil => rfl
  | replaced entry after found ih =>
    have member := (matched_some found).1
    rw [pass_entry brackets' distinct' member,pass_entry brackets distinct (same.subset member),ih]
  | kept c after found ih =>
    have none : matched table (c :: after) = none := matched_none.mpr fun entry member =>
      matched_none.mp found entry (same.symm.subset member)
    rw [pass_cons found,pass_cons none,ih]

/-- Nor do entries that put in their own pattern. -/
theorem pass_changing (text : List α) : pass (table.filter fun entry => entry.2 ≠ entry.1) text = pass table text := by
  have brackets' : ∀ entry ∈ table.filter fun entry => entry.2 ≠ entry.1,Bracketed opening closing entry.1 :=
    fun entry member => brackets entry (List.mem_of_mem_filter member)
  have distinct' : ((table.filter fun entry => entry.2 ≠ entry.1).map Prod.fst).Nodup :=
    distinct.sublist (List.filter_sublist.map Prod.fst)
  induction text using pass_induction table (filled brackets) with
  | nil => rfl
  | replaced entry after found ih =>
    obtain ⟨pattern,replacement⟩ := entry
    have member := (matched_some found).1
    rw [pass_entry brackets distinct member]
    by_cases changing : replacement = pattern
    · rw [pass_foreign brackets' (brackets _ member),ih,changing]
      intro other inside same
      obtain ⟨inside,changes⟩ := List.mem_filter.mp inside
      have equal := List.inj_on_of_nodup_map distinct inside member same
      rw [equal] at changes
      simp [changing] at changes
    · rw [pass_entry brackets' distinct' (List.mem_filter.mpr ⟨member,by simpa using changing⟩),ih]
  | kept c after found ih =>
    have none : matched (table.filter fun entry => entry.2 ≠ entry.1) (c :: after) = none :=
      matched_none.mpr fun entry member => matched_none.mp found entry (List.mem_of_mem_filter member)
    rw [pass_cons found,pass_cons none,ih]

end brackets

/-! What is put in, and the patterns that are still to come. -/

/-- Among other characters the text can make up the pattern: it has the end of it in front, or
the beginning of it at the back, or is a piece from within. -/
def Joins (text pattern : List α) : Prop :=
  ∃ before after,before ≠ [] ∧ after ≠ [] ∧ ((∃ more,pattern = before ++ after ∧ text = after ++ more) ∨
    (∃ more,pattern = before ++ after ∧ text = more ++ before) ∨ pattern = before ++ text ++ after)

/-- The patterns of the table change nothing in the text, nor with it. An entry that puts in its
own pattern changes nothing anywhere. -/
def Inert (table : Table α) (text : List α) : Prop :=
  pass table text = text ∧ ∀ entry ∈ table,entry.2 ≠ entry.1 → ¬ Joins text entry.1

/-- A text without any of the characters of the patterns is inert. -/
theorem inert_of_apart {opening closing : α} (brackets : ∀ entry ∈ table,Bracketed opening closing entry.1)
    (some : text ≠ []) (plain : opening ∉ text) (apart : ∀ entry ∈ table,∀ c ∈ entry.1,c ∉ text) : Inert table text := by
  refine ⟨pass_plain_self brackets plain,fun entry member _ joins => ?_⟩
  have other := apart entry member
  obtain ⟨before,after,first,last,⟨more,split,rfl⟩ | ⟨more,split,rfl⟩ | split⟩ := joins
  · obtain ⟨c,inside⟩ := List.exists_mem_of_ne_nil after last
    exact other c (split ▸ List.mem_append_right before inside) (List.mem_append_left more inside)
  · obtain ⟨c,inside⟩ := List.exists_mem_of_ne_nil before first
    exact other c (split ▸ List.mem_append_left after inside) (List.mem_append_right more inside)
  · obtain ⟨c,inside⟩ := List.exists_mem_of_ne_nil text some
    exact other c (split ▸ List.mem_append_left after (List.mem_append_right before inside)) inside

/-- No text that is put in is disturbed later on. -/
def Undisturbed : Table α → Prop
  | [] => True
  | entry :: rest => Inert rest entry.2 ∧ Undisturbed rest

/-- The start of a text in which a pattern has been replaced: it was there before, or runs into
what has been put in. -/
private theorem prefix_replaced (nonempty : pattern ≠ []) (text : List α) :
    ∀ start,start <+: pass [(pattern,replacement)] text → start <+: text ∨
      ∃ before after more,text = before ++ pattern ++ after ∧ more ≠ [] ∧ start = before ++ more ∧
        more <+: replacement ++ pass [(pattern,replacement)] after := by
  have filled : ∀ entry ∈ [(pattern,replacement)],entry.1 ≠ [] := by simpa using nonempty
  induction text using pass_induction [(pattern,replacement)] filled with
  | nil => exact fun start starts => .inl starts
  | replaced entry after found ih =>
    intro start starts
    obtain rfl : entry = (pattern,replacement) := by simpa using (matched_some found).1
    rw [pass_matched nonempty found] at starts
    by_cases empty : start = []
    · exact .inl (empty ▸ List.nil_prefix)
    · exact .inr ⟨[],after,start,rfl,empty,rfl,starts⟩
  | kept c after found ih =>
    intro start starts
    rw [pass_cons found] at starts
    cases start with
    | nil => exact .inl List.nil_prefix
    | cons d start =>
      obtain ⟨rfl,inside⟩ := List.cons_prefix_cons.mp starts
      rcases ih start inside with there | ⟨before,rest,more,rfl,some,rfl,runs⟩
      · exact .inl (List.cons_prefix_cons.mpr ⟨rfl,there⟩)
      · exact .inr ⟨d :: before,rest,more,rfl,some,rfl,runs⟩

section undisturbed
variable {opening closing : α}

omit [DecidableEq α] in
private theorem joins_of_runs {more : List α} (split : pattern = before ++ more) (first : before ≠ []) (some : more ≠ [])
    (runs : more <+: replacement ++ after) : Joins replacement pattern := by
  rcases List.prefix_or_prefix_of_prefix runs (List.prefix_append replacement after) with ⟨rest,rfl⟩ | ⟨rest,rfl⟩
  · exact ⟨before,more,first,some,.inl ⟨rest,split,rfl⟩⟩
  · by_cases all : rest = []
    · rw [all,List.append_nil] at split some
      exact ⟨before,replacement,first,some,.inl ⟨[],split,(List.append_nil _).symm⟩⟩
    · exact ⟨before,rest,first,all,.inr (.inr (by rw [split,List.append_assoc]))⟩

private theorem pass_before (brackets : ∀ entry ∈ (pattern,replacement) :: table,Bracketed opening closing entry.1)
    (distinct : (((pattern,replacement) :: table).map Prod.fst).Nodup) (still : pass table replacement = replacement)
    (apart : ∀ entry ∈ table,¬ Joins replacement entry.1) (text : List α) :
    pass table (pass [(pattern,replacement)] text) = pass ((pattern,replacement) :: table) text := by
  have mine : Bracketed opening closing pattern := brackets _ List.mem_cons_self
  have others : ∀ entry ∈ table,Bracketed opening closing entry.1 := fun entry member =>
    brackets entry (List.mem_cons_of_mem _ member)
  have alone : ∀ entry ∈ [(pattern,replacement)],Bracketed opening closing entry.1 := by simpa using mine
  obtain ⟨new,distinct'⟩ := List.nodup_cons.mp distinct
  have single : ([(pattern,replacement)].map Prod.fst).Nodup := List.nodup_singleton pattern
  induction text using pass_induction ((pattern,replacement) :: table) (filled brackets) with
  | nil => rfl
  | replaced entry after found ih =>
    rcases List.mem_cons.mp (matched_some found).1 with rfl | member
    · rw [pass_entry alone single List.mem_cons_self,pass_entry brackets distinct List.mem_cons_self,← ih]
      refine (pass_append (filled others) replacement fun entry member before after split some more ends => ?_).trans
        (by rw [still])
      obtain ⟨rest,rfl⟩ := ends
      exact fun _ => apart entry member ⟨before,after,some,more,.inr (.inl ⟨rest,split,rfl⟩)⟩
    · obtain ⟨other,text⟩ := entry
      have foreign : ∀ entry ∈ [(pattern,replacement)],entry.1 ≠ other := by
        rintro entry (_ | ⟨_,⟨⟩⟩) same
        exact new (same ▸ List.mem_map_of_mem (f := Prod.fst) member)
      rw [pass_foreign alone (others _ member) foreign,pass_entry others distinct' member,
        pass_entry brackets distinct (List.mem_cons_of_mem _ member),ih]
  | kept c after found ih =>
    have here : matched [(pattern,replacement)] (c :: after) = none := matched_none.mpr fun entry member =>
      matched_none.mp found entry (List.mem_singleton.mp member ▸ List.mem_cons_self)
    have none : matched table (c :: pass [(pattern,replacement)] after) = none := by
      refine matched_none.mpr fun entry member starts => ?_
      rw [← pass_cons here] at starts
      rcases prefix_replaced mine.ne_nil (c :: after) entry.1 starts with there | ⟨before,rest,more,same,some,split,runs⟩
      · exact matched_none.mp found entry (List.mem_cons_of_mem _ member) there
      · have first : before ≠ [] := by
          rintro rfl
          exact matched_none.mp found _ List.mem_cons_self (same ▸ List.prefix_append _ _)
        exact apart entry member (joins_of_runs split first some runs)
    rw [pass_cons here,pass_cons none,pass_cons found,ih]

private theorem pass_first (brackets : ∀ entry ∈ (pattern,replacement) :: table,Bracketed opening closing entry.1)
    (distinct : (((pattern,replacement) :: table).map Prod.fst).Nodup) (inert : Inert table replacement) (text : List α) :
    pass table (pass [(pattern,replacement)] text) = pass ((pattern,replacement) :: table) text := by
  obtain ⟨still,apart⟩ := inert
  have others : ∀ entry ∈ table,Bracketed opening closing entry.1 := fun entry member =>
    brackets entry (List.mem_cons_of_mem _ member)
  have distinct' := (List.nodup_cons.mp distinct).2
  let changing := table.filter fun entry => entry.2 ≠ entry.1
  have brackets' : ∀ entry ∈ (pattern,replacement) :: changing,Bracketed opening closing entry.1 := by
    intro entry member
    rcases List.mem_cons.mp member with rfl | member
    · exact brackets _ List.mem_cons_self
    · exact others entry (List.mem_of_mem_filter member)
  have fewer : ((pattern,replacement) :: changing).Sublist ((pattern,replacement) :: table) :=
    List.filter_sublist.cons_cons _
  rw [← pass_changing others distinct',pass_before brackets' (distinct.sublist (fewer.map Prod.fst))]
  · rw [← pass_changing brackets distinct,← pass_changing brackets' (distinct.sublist (fewer.map Prod.fst))]
    simp [changing,List.filter_cons,List.filter_filter]
  · rw [pass_changing others distinct',still]
  · intro entry member
    obtain ⟨member,changes⟩ := List.mem_filter.mp member
    exact apart entry member (by simpa using changes)

/-- Texts that are not disturbed may be put in one after the other. -/
theorem sequential_pass (brackets : ∀ entry ∈ table,Bracketed opening closing entry.1)
    (distinct : (table.map Prod.fst).Nodup) (undisturbed : Undisturbed table) (text : List α) :
    sequential table text = pass table text := by
  induction table generalizing text with
  | nil => exact (pass_empty text).symm
  | cons entry table ih =>
    obtain ⟨inert,later⟩ := undisturbed
    have rest := ih (fun entry member => brackets entry (List.mem_cons_of_mem _ member)) (List.nodup_cons.mp distinct).2
      later (pass [entry] text)
    exact rest.trans (pass_first brackets distinct inert text)

/-! And no others may. -/

private theorem pass_absent (filled : ∀ entry ∈ table,entry.1 ≠ []) (text : List α) (absent : ¬ pattern <:+: text) :
    pass ((pattern,replacement) :: table) text = pass table text := by
  have same {text : List α} (absent : ¬ pattern <:+: text) :
      matched ((pattern,replacement) :: table) text = matched table text := by
    refine List.find?_cons_of_neg ?_
    rw [List.isPrefixOf_iff_prefix]
    exact fun starts => absent starts.isInfix
  induction text using pass_induction table filled with
  | nil => rfl
  | replaced entry after found ih =>
    have some := filled entry (matched_some found).1
    rw [pass_matched some ((same absent).trans found),pass_matched some found,ih]
    exact fun inside => absent (inside.trans (List.suffix_append _ _).isInfix)
  | kept c after found ih =>
    rw [pass_cons ((same absent).trans found),pass_cons found,ih]
    exact fun inside => absent (inside.trans (List.suffix_cons _ _).isInfix)

private theorem absent_of_pass (bracketed : Bracketed opening closing pattern) (same : pass [(pattern,[])] text = text) :
    ¬ pattern <:+: text := by
  have brackets : ∀ entry ∈ [((pattern,[]) : List α × List α)],Bracketed opening closing entry.1 := by simpa using bracketed
  have shrinks (text : List α) : (pass [(pattern,[])] text).length ≤ text.length := by
    induction text using pass_induction [(pattern,[])] (filled brackets) with
    | nil => exact Nat.le_refl 0
    | replaced entry after found ih =>
      obtain rfl : entry = (pattern,[]) := by simpa using (matched_some found).1
      rw [pass_matched bracketed.ne_nil found,List.nil_append,List.length_append]
      omega
    | kept c after found ih =>
      rw [pass_cons found,List.length_cons,List.length_cons]
      omega
  rintro ⟨before,after,rfl⟩
  have opened : ∀ c,(pattern ++ after).head? = some c → c = opening := by
    obtain ⟨inner,rfl,_⟩ := bracketed
    simp
  rw [List.append_assoc,pass_opened brackets before opened,
    pass_entry brackets (List.nodup_singleton pattern) List.mem_cons_self] at same
  have lengths := congrArg List.length same
  have first := shrinks before
  have last := shrinks after
  have long := List.length_pos_of_ne_nil bracketed.ne_nil
  simp only [List.length_append,List.length_nil] at lengths
  omega

/-- A pattern among pieces of another one is all that can be found there. -/
private theorem pass_probe (brackets : ∀ entry ∈ table,Bracketed opening closing entry.1)
    (bracketed : Bracketed opening closing pattern) {other more : List α} (bracketed' : Bracketed opening closing other)
    (split : other = before ++ more) (last : more ≠ []) :
    pass table (before ++ pattern ++ after) = before ++ pass table (pattern ++ after) := by
  have opened : ∀ c,(pattern ++ after).head? = some c → c = opening := by
    obtain ⟨inner,rfl,_⟩ := bracketed
    simp
  rw [List.append_assoc,pass_opened brackets before opened,pass_part brackets bracketed' split last]

private theorem absent_probe {other more : List α} (bracketed : Bracketed opening closing pattern)
    (bracketed' : Bracketed opening closing other) (split : other = before ++ more) (last : more ≠ [])
    (plain : opening ∉ after) {earlier : List α} (mine : Bracketed opening closing earlier) (new : earlier ≠ pattern) :
    ¬ earlier <:+: before ++ pattern ++ after := by
  have brackets : ∀ entry ∈ [((earlier,[]) : List α × List α)],Bracketed opening closing entry.1 := by simpa using mine
  refine absent_of_pass mine ?_
  rw [pass_probe brackets bracketed bracketed' split last,pass_foreign brackets bracketed (by simpa using new),
    pass_plain_self brackets plain,List.append_assoc]

variable {letters : α → Prop}

/-- When what is put in for a pattern among pieces of later ones is never disturbed, it is inert. -/
private theorem inert_of_probes (brackets : ∀ entry ∈ table,Bracketed opening closing entry.1)
    (distinct : (table.map Prod.fst).Nodup) (spelled : ∀ entry ∈ table,∀ c ∈ entry.1,letters c)
    (probes : ∀ before after,(before = [] ∨ ∃ entry ∈ table,∃ more,more ≠ [] ∧ entry.1 = before ++ more) → opening ∉ after →
      (∀ c ∈ before ++ after,letters c) → pass table (before ++ replacement ++ after) = before ++ replacement ++ after) :
    Inert table replacement := by
  have still : pass table replacement = replacement := by simpa using probes [] [] (.inl rfl)
  refine ⟨still,fun entry member changes joins => changes ?_⟩
  obtain ⟨other,text⟩ := entry
  have mine := brackets _ member
  have known := spelled _ member
  obtain ⟨before,after,first,last,joins⟩ := joins
  dsimp only at joins mine known ⊢
  rcases joins with ⟨more,rfl,rfl⟩ | ⟨more,rfl,rfl⟩ | rfl
  · have kept := probes before [] (.inr ⟨_,member,after,last,rfl⟩) List.not_mem_nil fun c inside => known c (by
      rw [List.append_nil] at inside
      exact List.mem_append_left after inside)
    rw [pass_plain brackets (mine.parts rfl first last).1] at still
    rw [List.append_nil,← List.append_assoc,pass_entry brackets distinct member,List.append_cancel_left still] at kept
    exact List.append_cancel_right kept
  · obtain ⟨plain,_,opened⟩ := mine.parts rfl first last
    have kept := probes [] after (.inl rfl) plain fun c inside => known c (List.mem_append_right before inside)
    have starts : ∀ c,before.head? = some c → c = opening := fun c head => by simpa [opened,eq_comm] using head
    have starts' : ∀ c,(before ++ after).head? = some c → c = opening := fun c head => by
      rw [List.head?_append,opened] at head
      exact (Option.some.inj head).symm
    have found : pass table (before ++ after ++ []) = text ++ pass table [] := pass_entry brackets distinct member
    rw [pass_opened brackets more starts,pass_part brackets mine rfl last] at still
    rw [List.append_nil,pass_nil,List.append_nil] at found
    rw [List.nil_append,List.append_assoc,pass_opened brackets more starts',List.append_cancel_right still,found] at kept
    exact List.append_cancel_left kept
  · have split : before ++ replacement ++ after = before ++ (replacement ++ after) := List.append_assoc ..
    have plain := (mine.parts rfl (List.append_ne_nil_of_left_ne_nil first replacement) last).1
    have kept := probes before after (.inr ⟨_,member,replacement ++ after,by simp [last],split⟩) plain fun c inside =>
      known c (by simp only [List.mem_append] at inside ⊢; tauto)
    have found : pass table (before ++ replacement ++ after ++ []) = text ++ pass table [] :=
      pass_entry brackets distinct member
    rw [List.append_nil,pass_nil,List.append_nil] at found
    rw [← found,kept]

/-- If the replacing in turn is one pass, on texts that are spelled with the letters of the patterns,
no text that is put in is disturbed. -/
private theorem undisturbed_of_pass (brackets : ∀ entry ∈ table,Bracketed opening closing entry.1)
    (distinct : (table.map Prod.fst).Nodup) (spelled : ∀ entry ∈ table,∀ c ∈ entry.1,letters c)
    (earlier : List (List α)) (past : ∀ pattern ∈ earlier,Bracketed opening closing pattern ∧ pattern ∉ table.map Prod.fst)
    (same : ∀ text,(∀ c ∈ text,letters c) → (∀ pattern ∈ earlier,¬ pattern <:+: text) →
      sequential table text = pass table text) : Undisturbed table := by
  induction table generalizing earlier with
  | nil => trivial
  | cons entry table ih =>
    obtain ⟨pattern,replacement⟩ := entry
    obtain ⟨new,distinct'⟩ := List.nodup_cons.mp distinct
    have mine : Bracketed opening closing pattern := brackets _ List.mem_cons_self
    have others : ∀ entry ∈ table,Bracketed opening closing entry.1 := fun entry member =>
      brackets entry (List.mem_cons_of_mem _ member)
    have spelled' : ∀ entry ∈ table,∀ c ∈ entry.1,letters c := fun entry member =>
      spelled entry (List.mem_cons_of_mem _ member)
    have later : Undisturbed table := by
      refine ih others distinct' spelled' (pattern :: earlier) ?_ ?_
      · intro other member
        rcases List.mem_cons.mp member with rfl | member
        · exact ⟨mine,new⟩
        · exact ⟨(past other member).1,fun inside => (past other member).2 (List.mem_cons_of_mem _ inside)⟩
      · intro text known absent
        have gone := absent pattern List.mem_cons_self
        have whole := same text known fun other member => absent other (List.mem_cons_of_mem _ member)
        change sequential table (pass [(pattern,replacement)] text) = _ at whole
        rwa [pass_absent (filled others) text gone,pass_absent (by simp) text gone,pass_empty] at whole
    refine ⟨inert_of_probes others distinct' spelled' fun before after part plain known => ?_,later⟩
    obtain ⟨other,more,mine',last,split⟩ : ∃ other more,Bracketed opening closing other ∧ more ≠ [] ∧ other = before ++ more := by
      rcases part with rfl | ⟨entry,member,more,last,split⟩
      · exact ⟨pattern,pattern,mine,mine.ne_nil,rfl⟩
      · exact ⟨entry.1,more,others entry member,last,split⟩
    have alone : ∀ entry ∈ [(pattern,replacement)],Bracketed opening closing entry.1 := by simpa using mine
    have whole := same (before ++ pattern ++ after) (fun c inside => ?_) fun earlier member =>
      absent_probe mine mine' split last plain (past earlier member).1 fun equal => (past earlier member).2 (by simp [equal])
    · change sequential table (pass [(pattern,replacement)] (before ++ pattern ++ after)) = _ at whole
      rw [pass_probe alone mine mine' split last,pass_probe brackets mine mine' split last,
        pass_entry alone (List.nodup_singleton pattern) List.mem_cons_self,
        pass_entry brackets distinct List.mem_cons_self,pass_plain_self alone plain,pass_plain_self brackets plain,
        sequential_pass others distinct' later] at whole
      simpa only [List.append_assoc] using whole
    · simp only [List.mem_append] at inside known
      rcases inside with (front | middle) | back
      · exact known c (.inl front)
      · exact spelled _ List.mem_cons_self c middle
      · exact known c (.inr back)

end undisturbed

/-- On all texts, or on those spelled with the letters of the patterns, the replacing in turn is
one pass just when no text that is put in is disturbed. -/
theorem sequential_iff {opening closing : α} {letters : α → Prop} (brackets : ∀ entry ∈ table,Bracketed opening closing entry.1)
    (distinct : (table.map Prod.fst).Nodup) (spelled : ∀ entry ∈ table,∀ c ∈ entry.1,letters c) :
    (∀ text,(∀ c ∈ text,letters c) → sequential table text = pass table text) ↔ Undisturbed table := by
  constructor
  · exact fun same => undisturbed_of_pass brackets distinct spelled [] (by simp) fun text known _ => same text known
  · exact fun undisturbed text _ => sequential_pass brackets distinct undisturbed text

end Runas.Substitution
