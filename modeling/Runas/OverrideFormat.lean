import Runas.Overrides
import Runas.Words
import Runas.Interaction.Total

/-! The format of the administrator's file as it is documented, apart from the reader, and
the reader against it. -/
namespace Runas
open Interaction Text

def FirstWord (line word rest : List Char) : Prop :=
  ∃ lead,line = lead ++ word ++ rest ∧ Blank lead ∧ word ≠ [] ∧ (∀ c ∈ word,isWhitespace c = false) ∧
    ∀ c,rest.head? = some c → isWhitespace c = true

def Letter (c : Char) : Prop := ('A' ≤ c ∧ c ≤ 'Z') ∨ ('a' ≤ c ∧ c ≤ 'z') ∨ c = '_'

/-- `[A-Za-z_][A-Za-z0-9_]*`. -/
def VariableName (name : List Char) : Prop :=
  ∃ first rest,name = first :: rest ∧ Letter first ∧ ∀ c ∈ rest,Letter c ∨ ('0' ≤ c ∧ c ≤ '9')

def Sets (text key : List Char) : Option (List Char) → Prop
  | some value => ∃ name rest,text = name ++ '=' :: rest ∧ '=' ∉ name ∧ Trimmed name key ∧ Trimmed rest value
  | none => '=' ∉ text ∧ Trimmed text key

/-- A line that is neither blank nor a comment, for the target or for everyone. -/
def OverrideLine (target : String) (line key : List Char) (value : Option (List Char)) : Prop :=
  (∃ word rest,FirstWord line word rest ∧ word.head? ≠ some '#' ∧ (word = ['*'] ∨ word = target.toList) ∧
    Sets rest key value) ∧ VariableName key

section parse
variable {target : String} {line word rest text key : List Char} {value : Option (List Char)}

theorem isName_iff : isName key = true ↔ VariableName key := by
  cases key with
  | nil => simp [isName,VariableName]
  | cons first rest => simp [isName,VariableName,isNameStart,isDigit,Letter,or_assoc]

private def settings (text : List Char) : List Char × Option (List Char) :=
  match splitOnce (· == '=') text with
  | some (key,value) => (trim key,some (trim value))
  | none => (trim text,none)

private theorem settings_iff : settings text = (key,value) ↔ Sets text key value := by
  unfold settings
  cases parts : splitOnce (· == '=') text with
  | none =>
    have plain : '=' ∉ text := fun member => by
      have none := (splitOnce_eq_none_iff (· == '=')).mp parts '=' member
      simp at none
    cases value with
    | none => simpa [Sets,plain] using trim_eq_iff
    | some value =>
      refine iff_of_false (by simp) ?_
      rintro ⟨name,rest,rfl,_⟩
      simp at plain
  | some pair =>
    obtain ⟨name,rest⟩ := pair
    obtain ⟨c,rfl,separator,plain⟩ := (splitOnce_eq_some_iff (· == '=') name rest).mp parts
    obtain rfl : c = '=' := by simpa using separator
    have first : '=' ∉ name := fun member => by
      have other := plain '=' member
      simp at other
    cases value with
    | none => simp [Sets]
    | some value =>
      constructor
      · intro same
        cases same
        exact ⟨name,rest,rfl,first,trimmed_trim name,trimmed_trim rest⟩
      · rintro ⟨name',rest',split,first',trims,trims'⟩
        have found := (splitOnce_eq_some_iff (· == '=') name' rest').mpr ⟨'=',split,rfl,fun c member => by
          simpa using fun same : c = '=' => first' (same ▸ member)⟩
        rw [parts] at found
        cases found
        simp only [trims.eq,trims'.eq]

private theorem settings_blank {left right : List Char} (before : Blank left) (after : Blank right) :
    settings (left ++ text ++ right) = settings text := by
  have plain {blank : List Char} (whole : Blank blank) : ∀ c ∈ blank,(c == '=') = false := fun c member => by
    have white := whole c member
    by_contra same
    obtain rfl : c = '=' := by simpa using same
    exact absurd white (by decide)
  unfold settings
  cases parts : splitOnce (· == '=') text with
  | none =>
    have unset := (splitOnce_eq_none_iff (· == '=')).mp parts
    have still : splitOnce (· == '=') (left ++ text ++ right) = none := by
      refine (splitOnce_eq_none_iff _).mpr fun c member => ?_
      rcases List.mem_append.mp member with member | late
      · rcases List.mem_append.mp member with early | middle
        · exact plain before c early
        · exact unset c middle
      · exact plain after c late
    rw [still]
    simp only [trim_blank before after]
  | some pair =>
    obtain ⟨name,rest⟩ := pair
    obtain ⟨c,rfl,separator,first⟩ := (splitOnce_eq_some_iff (· == '=') name rest).mp parts
    have still : splitOnce (· == '=') (left ++ (name ++ c :: rest) ++ right) = some (left ++ name,rest ++ right) := by
      refine (splitOnce_eq_some_iff _ _ _).mpr ⟨c,by simp,separator,fun d member => ?_⟩
      rcases List.mem_append.mp member with early | late
      · exact plain before d early
      · exact first d late
    rw [still]
    simp only [trim_before before,trim_after after]

private theorem settings_of_blank (blank : Blank text) (named : settings text = (key,value)) : ¬ VariableName key := by
  have none := @settings_blank [] text [] blank fun _ none => nomatch none
  rw [List.append_nil,List.append_nil,named] at none
  cases none
  rintro ⟨first,rest,same,_⟩
  exact nomatch same

theorem firstWord_of_not_blank (some : ¬ Blank line) : ∃ word rest,FirstWord line word rest := by
  obtain ⟨left,split,blank,head⟩ := trimStart_split line
  have parts := @List.takeWhile_append_dropWhile _ (fun c => !isWhitespace c) (trimStart line)
  refine ⟨_,_,left,by rw [List.append_assoc,parts,← split],blank,?_,?_,?_⟩
  · intro none
    cases start : trimStart line with
    | nil =>
      rw [start,List.append_nil] at split
      exact some (split ▸ blank)
    | cons c rest =>
      rw [start,List.takeWhile_cons_of_pos (by simp [head c (by rw [start]; rfl)])] at none
      cases none
  · exact fun c member => by simpa using List.mem_takeWhile_imp member
  · intro c first
    have stops := List.head?_dropWhile_not (fun c => !isWhitespace c) (trimStart line)
    rw [first] at stops
    simpa using stops

private theorem parseLine_blank (blank : Blank line) : parseLine target line = none := by
  unfold parseLine
  rw [trim_of_blank blank]
  rfl

private theorem FirstWord.trim_eq (first : FirstWord line word rest) : trim line = word ++ trimEnd rest := by
  obtain ⟨lead,rfl,before,filled,whole,head⟩ := first
  obtain ⟨right,split,after,last⟩ := trimEnd_split rest
  refine Trimmed.eq ⟨lead,right,?_,before,after,?_,?_⟩
  · calc lead ++ word ++ rest = lead ++ word ++ (trimEnd rest ++ right) := by rw [← split]
      _ = lead ++ (word ++ trimEnd rest) ++ right := by simp only [List.append_assoc]
  · intro c first
    obtain ⟨d,word,rfl⟩ := List.exists_cons_of_ne_nil filled
    cases first
    exact whole c List.mem_cons_self
  · intro c final
    cases tail : trimEnd rest with
    | nil =>
      rw [tail,List.append_nil] at final
      exact whole c (List.mem_of_getLast? final)
    | cons d tail' =>
      rw [List.getLast?_append,tail,List.getLast?_cons] at final
      rw [tail,List.getLast?_cons] at last
      exact last c final

/-- The settings are those of what the reader has left when it has trimmed the line and cut it. -/
private theorem settings_trimmed {w : Char} {tail : List Char} (cut : trimEnd rest = w :: tail) (white : isWhitespace w = true) :
    settings rest = settings (trimStart tail) := by
  obtain ⟨right,split,after,_⟩ := trimEnd_split rest
  obtain ⟨left,parts,blank,_⟩ := trimStart_split tail
  have joined : rest = (w :: left) ++ trimStart tail ++ right := by
    rw [List.cons_append,List.cons_append,← parts]
    rw [← List.cons_append,← cut]
    exact split
  rw [joined]
  refine settings_blank (fun c member => ?_) after
  rcases List.mem_cons.mp member with rfl | member
  · exact white
  · exact blank c member

private theorem parseLine_word (first : FirstWord line word rest) : parseLine target line = some (key,value) ↔
    word.head? ≠ some '#' ∧ (word = ['*'] ∨ word = target.toList) ∧ settings rest = (key,value) ∧ isName key = true := by
  have trims := first.trim_eq
  obtain ⟨lead,rfl,before,filled,whole,head⟩ := first
  obtain ⟨right,split,after,_⟩ := trimEnd_split rest
  obtain ⟨d,word',rfl⟩ := List.exists_cons_of_ne_nil filled
  unfold parseLine
  rw [trims]
  cases tail : trimEnd rest with
  | nil =>
    have blank : Blank rest := by
      rw [split,tail,List.nil_append]
      exact after
    have once : splitOnce isWhitespace (d :: word') = none := (splitOnce_eq_none_iff _).mpr whole
    refine iff_of_false ?_ fun both => settings_of_blank blank both.2.2.1 (isName_iff.mp both.2.2.2)
    rw [List.append_nil]
    simp [once]
  | cons w tail' =>
    have white : isWhitespace w = true := head w (by rw [split,tail]; rfl)
    have once : splitOnce isWhitespace (d :: word' ++ w :: tail') = some (d :: word',tail') :=
      (splitOnce_eq_some_iff _ _ _).mpr ⟨w,rfl,white,whole⟩
    rw [settings_trimmed tail white]
    rw [List.cons_append] at once ⊢
    simp only [once,List.isEmpty_cons,List.head?_cons,Bool.false_or]
    by_cases comment : d = '#'
    · rw [if_pos (by simpa using comment)]
      exact iff_of_false (fun parsed => nomatch parsed) fun both => both.1 (congrArg some comment)
    rw [if_neg (by simpa using comment)]
    by_cases mine : d :: word' = ['*'] ∨ d :: word' = target.toList
    · rw [if_neg (by simpa [imp_iff_not_or] using mine)]
      change (if isName (settings (trimStart tail')).1 then some (settings (trimStart tail')) else none) =
        some (key,value) ↔ _
      by_cases named : isName (settings (trimStart tail')).1 = true
      · rw [if_pos named,Option.some.injEq]
        constructor
        · intro parsed
          rw [parsed] at named
          exact ⟨by simpa using comment,mine,parsed,named⟩
        · exact fun both => both.2.2.1
      · rw [if_neg named]
        refine iff_of_false (fun parsed => nomatch parsed) fun both => named ?_
        rw [both.2.2.1]
        exact both.2.2.2
    · rw [if_pos (by simpa [not_or] using mine)]
      exact iff_of_false (fun parsed => nomatch parsed) fun both => mine both.2.1

/-- The reader takes the documented lines, and no others. -/
theorem parseLine_eq_some_iff : parseLine target line = some (key,value) ↔ OverrideLine target line key value := by
  by_cases blank : Blank line
  · rw [parseLine_blank blank]
    refine iff_of_false (by simp) ?_
    rintro ⟨⟨word,rest,⟨lead,rfl,_,filled,whole,_⟩,_⟩,_⟩
    obtain ⟨c,word,rfl⟩ := List.exists_cons_of_ne_nil filled
    have white := blank c (by simp)
    rw [whole c List.mem_cons_self] at white
    cases white
  · constructor
    · intro parsed
      obtain ⟨word,rest,first⟩ := firstWord_of_not_blank blank
      obtain ⟨plain,mine,sets,named⟩ := (parseLine_word first).mp parsed
      exact ⟨⟨word,rest,first,plain,mine,settings_iff.mp sets⟩,isName_iff.mp named⟩
    · rintro ⟨⟨word,rest,first,plain,mine,sets⟩,named⟩
      exact (parseLine_word first).mpr ⟨plain,mine,settings_iff.mpr sets,isName_iff.mpr named⟩

end parse

/-- The file is root's and safe, and its lines are read in order; the environment of the caller
answers for the names that are to be taken from it. -/
def served (block : List Bytes) : List Bytes → (event : Call) → Answer event → List Bytes → Prop
  | lines,.openFile _,answer,left => answer = .ok () ∧ left = lines
  | lines,.fileMetadata,answer,left =>
    (∃ found,answer = .ok found ∧ found.uid = 0 ∧ found.mode &&& 0o022 = 0) ∧ left = lines
  | [],.readLine,answer,left => answer = .ok none ∧ left = []
  | raw :: lines,.readLine,answer,left => answer = .ok (some raw) ∧ left = lines
  | lines,.environ,answer,left => answer = block ∧ left = lines
  | lines,.getenv name,answer,left => answer = getenv block name ∧ left = lines
  | lines,_,_,left => left = lines

def textLines (lines : List Bytes) : List Bytes := lines.takeWhile fun raw => (decode (stripLineEnding raw)).isSome

/-- The places of a pattern, found from the left, filled with another text. -/
inductive Replaced (pattern replacement : List Char) : List Char → List Char → Prop
  | ended : Replaced pattern replacement [] []
  | found {rest after : List Char} (later : Replaced pattern replacement rest after) :
    Replaced pattern replacement (pattern ++ rest) (replacement ++ after)
  | passed {c : Char} {rest after : List Char} (other : ¬ pattern <+: c :: rest)
    (later : Replaced pattern replacement rest after) : Replaced pattern replacement (c :: rest) (c :: after)

/-- The placeholders are filled in turn, each in what the ones before it have left. -/
def Filled : List (String × String) → List Char → List Char → Prop
  | [],text,filled => filled = text
  | (name,value) :: others,text,filled =>
    ∃ middle,Replaced ('$' :: '\x7b' :: name.toList ++ ['\x7d']) value.toList text middle ∧ Filled others middle filled

section
variable {pattern replacement text after : List Char}

private theorem replaceFrom_past (before rest : List Char) :
    replaceFrom pattern replacement before.length (before ++ rest) = replaceFrom pattern replacement 0 rest := by
  induction before with
  | nil => rfl
  | cons c before ih => exact ih

private theorem replaced_replaceFrom (some : pattern ≠ []) (skip : Nat) (text : List Char) :
    Replaced pattern replacement (text.drop skip) (replaceFrom pattern replacement skip text) := by
  fun_induction replaceFrom pattern replacement skip text with
  | case1 skip =>
    rw [List.drop_nil]
    exact .ended
  | case2 skip c rest ih => exact ih
  | case3 c rest starts ih =>
    obtain ⟨later,same⟩ := List.isPrefixOf_iff_prefix.mp starts
    obtain ⟨d,inner,rfl⟩ := List.exists_cons_of_ne_nil some
    obtain ⟨rfl,rfl⟩ := List.cons.inj same
    have past : (inner ++ later).drop inner.length = later := List.drop_left
    rw [List.length_cons,Nat.add_sub_cancel,List.append_eq,past] at ih
    exact .found ih
  | case4 c rest other ih => exact .passed (fun starts => other (List.isPrefixOf_iff_prefix.mpr starts)) ih

theorem replaced_iff (some : pattern ≠ []) :
    Replaced pattern replacement text after ↔ after = replace pattern replacement text := by
  constructor
  · intro replaced
    induction replaced with
    | ended => rfl
    | @found rest after later ih =>
      obtain ⟨c,inner,rfl⟩ := List.exists_cons_of_ne_nil some
      have starts : (c :: inner).isPrefixOf (c :: (inner ++ rest)) = true :=
        List.isPrefixOf_iff_prefix.mpr (List.prefix_append _ _)
      rw [ih,replace,replace,List.cons_append,replaceFrom,if_pos starts,List.length_cons,Nat.add_sub_cancel,
        replaceFrom_past]
    | @passed c rest after other later ih =>
      rw [ih,replace,replace,replaceFrom,if_neg fun starts => other (List.isPrefixOf_iff_prefix.mp starts)]
  · rintro rfl
    exact replaced_replaceFrom some 0 text

theorem filled_iff {placeholders : List (String × String)} :
    Filled placeholders text after ↔ after = expand placeholders text := by
  induction placeholders generalizing text with
  | nil => rfl
  | cons entry others ih =>
    have some : '$' :: '\x7b' :: entry.1.toList ++ ['\x7d'] ≠ [] := List.cons_ne_nil _ _
    simp only [Filled,replaced_iff some,ih,exists_eq_left]
    rfl

end

/-- The line is one for the name, and yields the value. -/
def Yields (target : Account) (placeholders : List (String × String)) (caller : String → Option String)
    (line : List Char) (name value : String) : Prop :=
  ∃ assigned,OverrideLine target.name line name.toList assigned ∧ match assigned with
    | some text => Filled placeholders text value.toList
    | none => caller name = some value

/-- What the name is bound to: its value from before, else that of the first line that yields one. -/
def Binds (target : Account) (placeholders : List (String × String)) (caller : String → Option String)
    (env : EnvMap) (lines : List (List Char)) (name value : String) : Prop :=
  env.lookup name = some value ∨ env.lookup name = none ∧ ∃ before line after,lines = before ++ line :: after ∧
    Yields target placeholders caller line name value ∧
      ∀ earlier ∈ before,∀ other,¬ Yields target placeholders caller earlier name other

section
variable {target : Account} {placeholders : List (String × String)} {block : List Bytes} {env : EnvMap}
  {caller : String → Option String} {line : List Char} {name value : String}

private theorem lineAssigns_iff :
    lineAssigns target placeholders caller (String.ofList line) name = some value ↔
      Yields target placeholders caller line name value := by
  unfold lineAssigns Yields
  rw [String.toList_ofList]
  cases parsed : parseLine target.name line with
  | none =>
    refine iff_of_false (fun assigns => nomatch assigns) ?_
    rintro ⟨assigned,documented,_⟩
    rw [parseLine_eq_some_iff.mpr documented] at parsed
    cases parsed
  | some pair =>
    obtain ⟨key,found⟩ := pair
    have only (assigned : Option (List Char)) : OverrideLine target.name line name.toList assigned ↔
        String.ofList key = name ∧ found = assigned := by
      rw [← parseLine_eq_some_iff,parsed,Option.some.injEq,Prod.mk.injEq]
      refine and_congr_left fun _ => ⟨fun same => ?_,fun same => ?_⟩
      · rw [same,String.ofList_toList]
      · rw [← same,String.toList_ofList]
    simp only [Option.bind_eq_bind,Option.bind_some,only]
    by_cases mine : String.ofList key = name
    · rw [if_neg (not_not.mpr mine)]
      cases found with
      | none => simp [mine]
      | some text => simp [mine,filled_iff,← String.toList_inj,eq_comm]
    · simp [mine]

private theorem lineAssigns_trim {line other : String} (same : trim line.toList = trim other.toList) :
    lineAssigns target placeholders caller line name = lineAssigns target placeholders caller other name := by
  unfold lineAssigns parseLine
  rw [same]

private theorem decode_stripped (line : String) : ∃ shown,decode (stripLineEnding (encode line)) = some shown ∧
    trim shown.toList = trim line.toList := by
  have ended {text : String} {bytes : Bytes} {c : Char} (ascii : c.val.toNat < 128) (white : isWhitespace c = true)
      (same : encode text = bytes ++ [UInt8.ofNat c.val.toNat]) : ∃ before,encode before = bytes ∧
        trim before.toList = trim text.toList := by
    obtain ⟨before,split,rest⟩ := encode_eq_snoc ascii same
    refine ⟨String.ofList before,rest,?_⟩
    rw [String.toList_ofList,split]
    exact (trim_after fun d member => by rwa [List.mem_singleton.mp member]).symm
  unfold stripLineEnding
  split
  · next rest back =>
    have whole : encode line = rest.reverse ++ [13] ++ [10] := by
      rw [← List.reverse_reverse (encode line),back]
      simp
    obtain ⟨middle,same,trims⟩ := @ended line _ '\n' (by decide) (by decide) whole
    obtain ⟨shown,same',trims'⟩ := @ended middle _ '\r' (by decide) (by decide) same
    exact ⟨shown,by rw [← same']; exact decode_encode shown,trims'.trans trims⟩
  · next rest _ back =>
    have whole : encode line = rest.reverse ++ [10] := by
      rw [← List.reverse_reverse (encode line),back]
      simp
    obtain ⟨shown,same,trims⟩ := @ended line _ '\n' (by decide) (by decide) whole
    exact ⟨shown,by rw [← same]; exact decode_encode shown,trims⟩
  · exact ⟨line,decode_encode line,rfl⟩

private theorem rawAssigns_encode (line : String) : rawAssigns target placeholders caller name (encode line) =
    lineAssigns target placeholders caller line name := by
  obtain ⟨shown,decoded,trims⟩ := decode_stripped line
  unfold rawAssigns
  rw [decoded]
  exact lineAssigns_trim trims

private theorem assigned_lines (text : List Char) (name : String) :
    assigned target placeholders block (rawLines (encode (String.ofList text))) name =
      (text.splitOn '\n').findSome? fun line =>
        lineAssigns target placeholders (callerValue block) (String.ofList line) name := by
  obtain ⟨lines,read,same⟩ := rawLines_text text
  rw [← same]
  · rw [assigned,read,List.findSome?_map]
    congr 1
    funext line
    exact rawAssigns_encode _
  · intro line
    refine lineAssigns_trim ?_
    rw [String.toList_ofList,String.toList_ofList]
    refine trim_after fun c member => ?_
    rw [List.mem_singleton.mp member]
    rfl
  · rfl

private theorem lines_decoded (text : List Char) (raw : Bytes) (member : raw ∈ rawLines (encode (String.ofList text))) :
    ∃ line,decode (stripLineEnding raw) = some line := by
  obtain ⟨lines,read,_⟩ := rawLines_text text
  rw [read] at member
  obtain ⟨line,_,rfl⟩ := List.mem_map.mp member
  obtain ⟨shown,decoded,_⟩ := decode_stripped (String.ofList line)
  exact ⟨shown,decoded⟩

private theorem overwriteLine_ends (line : String) (lines : List Bytes) :
    Total (served block) (fun after left => left = lines ∧ ∀ name,after.lookup name =
      (env.lookup name).or (lineAssigns target placeholders (callerValue block) line name))
      (overwriteLine target placeholders env line) lines := by
  have adds {t : List (Exchange Call Answer)} {after : EnvMap} (trace : Trace (overwriteLine target placeholders env line) t after)
      (asked : ∀ x ∈ t,Caller block x) := overwriteLine_lookup trace asked
  unfold overwriteLine at adds ⊢
  cases parsed : parseLine target.name line.toList with
  | none =>
    rw [parsed] at adds
    exact .done ⟨rfl,adds (.done _) fun _ none => nomatch none⟩
  | some pair =>
    obtain ⟨key,value⟩ := pair
    rw [parsed] at adds
    dsimp only at adds ⊢
    by_cases there : String.ofList key ∈ env
    · rw [if_pos there] at adds ⊢
      exact .done ⟨rfl,adds (.done _) fun _ none => nomatch none⟩
    · rw [if_neg there] at adds ⊢
      cases value with
      | some value => exact .done ⟨rfl,adds (.done _) fun _ none => nomatch none⟩
      | none =>
        refine .call ⟨getenv block (String.ofList key),lines,rfl,rfl⟩ fun answer left taken => ?_
        obtain ⟨rfl,rfl⟩ := taken
        refine .done ⟨rfl,@adds [⟨.getenv (String.ofList key),getenv block (String.ofList key)⟩] _ ?_ ?_⟩
        · exact (trace_call _ _ _ _).mpr ⟨_,[],rfl,(trace_done _ _ _).mpr ⟨rfl,rfl⟩⟩
        · intro x member
          rw [List.mem_singleton.mp member]
          rfl

private theorem overwriteRound_ends (lines : List Bytes) : Total (served block) (fun
      | .inl after,left => ∃ raw line,lines = raw :: left ∧ decode (stripLineEnding raw) = some line ∧
        ∀ name,after.lookup name = (env.lookup name).or (rawAssigns target placeholders (callerValue block) name raw)
      | .inr out,_ => out.2 = env ∧ textLines lines = [] ∧ (textLines lines = lines → out.1 = .ok ()))
      (overwriteRound target placeholders env) lines := by
  unfold overwriteRound
  cases lines with
  | nil =>
    refine .ask ⟨.ok none,[],rfl,rfl⟩ fun answer left taken => ?_
    obtain ⟨rfl,rfl⟩ := taken
    exact .done ⟨rfl,rfl,fun _ => rfl⟩
  | cons raw lines =>
    refine .ask ⟨.ok (some raw),lines,rfl,rfl⟩ fun answer left taken => ?_
    obtain ⟨rfl,rfl⟩ := taken
    dsimp only
    cases decoded : decode (stripLineEnding raw) with
    | none =>
      have stops : textLines (raw :: left) = [] := List.takeWhile_cons_of_neg (by simp [decoded])
      refine .done ⟨rfl,stops,fun whole => ?_⟩
      rw [stops] at whole
      cases whole
    | some line =>
      refine .bind ((overwriteLine_ends line left).mono ?_)
      intro after left' held
      obtain ⟨rfl,adds⟩ := held
      refine .done ⟨raw,line,rfl,decoded,fun name => ?_⟩
      rw [adds name,rawAssigns,decoded]
      rfl

/-- The reader ends on any file of root's that is safe. It has added what the lines before the
first one that is not text yield, and without such a line there is no error. -/
theorem loadOverwriteVars_ends (path : String) (file : List Bytes) : Total (served block) (fun out _ =>
    (textLines file = file → out.1 = .ok ()) ∧ ∀ name,out.2.lookup name =
      (env.lookup name).or (assigned target placeholders block (textLines file) name))
    (loadOverwriteVars path target placeholders env) file := by
  let held (middle : EnvMap) (lines : List Bytes) : Prop := ∃ before,textLines file = before ++ textLines lines ∧
    (textLines file = file → textLines lines = lines) ∧
    ∀ name,middle.lookup name = (env.lookup name).or (assigned target placeholders block before name)
  have loop : Total (served block) (fun out _ => (textLines file = file → out.1 = .ok ()) ∧ ∀ name,out.2.lookup name =
      (env.lookup name).or (assigned target placeholders block (textLines file) name))
      (Program.iterate (overwriteRound target placeholders) env) file := by
    refine Total.iterate held (fun _ left => left.length) ⟨[],rfl,id,fun name => Option.or_none.symm⟩ fun middle lines kept => ?_
    obtain ⟨before,split,whole,bound⟩ := kept
    refine (overwriteRound_ends lines).mono fun outcome left ends => ?_
    cases outcome with
    | inl next =>
      obtain ⟨raw,line,rfl,decoded,adds⟩ := ends
      have first : textLines (raw :: left) = raw :: textLines left := List.takeWhile_cons_of_pos (by simp [decoded])
      rw [first] at split whole
      refine ⟨⟨before ++ [raw],by simpa using split,fun valid => (List.cons.inj (whole valid)).2,fun name => ?_⟩,
        Nat.lt_succ_self _⟩
      rw [adds name,bound name,assigned_append,Option.or_assoc]
      simp [assigned]
    | inr out =>
      obtain ⟨same,stops,ends⟩ := ends
      rw [stops,List.append_nil] at split
      refine ⟨fun valid => ends (whole valid),fun name => ?_⟩
      rw [same,bound name,split]
  unfold loadOverwriteVars
  refine .ask ⟨.ok (),file,rfl,rfl⟩ fun opened left taken => ?_
  obtain ⟨rfl,rfl⟩ := taken
  refine .ask ⟨.ok ⟨true,0,0⟩,left,⟨_,rfl,rfl,rfl⟩,rfl⟩ fun found left taken => ?_
  obtain ⟨⟨found,rfl,root,safe⟩,rfl⟩ := taken
  simpa [root,safe] using loop

private theorem binds_iff (lines : List (List Char)) : ((env.lookup name).or (lines.findSome? fun line =>
    lineAssigns target placeholders caller (String.ofList line) name)) = some value ↔
      Binds target placeholders caller env lines name value := by
  unfold Binds
  have first := @List.findSome?_eq_some_iff _ _
    (fun line => lineAssigns target placeholders caller (String.ofList line) name) lines value
  simp only [Option.eq_none_iff_forall_ne_some,Ne,lineAssigns_iff] at first
  rw [← first]
  cases env.lookup name <;> simp

end

/-- From any file of root that is safe and is text, whatever it holds, the reader ends without
an error, and leaves every name bound as the format says. -/
theorem overrides_documented (path : String) (target : Account) (placeholders : List (String × String))
    (block : List Bytes) (content : String) (env : EnvMap) :
    Total (served block) (fun out _ => out.1 = .ok () ∧ ∀ name value,out.2.lookup name = some value ↔
      Binds target placeholders (callerValue block) env (content.toList.splitOn '\n') name value)
      (loadOverwriteVars path target placeholders env) (rawLines (encode content)) := by
  have whole : textLines (rawLines (encode content)) = rawLines (encode content) := by
    refine List.takeWhile_eq_self_iff.mpr fun raw member => ?_
    rw [← @String.ofList_toList content] at member
    obtain ⟨line,decoded⟩ := lines_decoded content.toList raw member
    rw [decoded]
    rfl
  refine (loadOverwriteVars_ends path (rawLines (encode content))).mono fun out _ read => ?_
  obtain ⟨accepted,bound⟩ := read
  refine ⟨accepted whole,fun name value => ?_⟩
  have lines := @assigned_lines target placeholders block content.toList name
  rw [String.ofList_toList] at lines
  rw [bound name,whole,lines]
  exact binds_iff _

/-! A file that is rejected. -/

/-- A line that has been read is text, and yields the value. -/
def RawYields (target : Account) (placeholders : List (String × String)) (caller : String → Option String)
    (raw : Bytes) (name value : String) : Prop :=
  ∃ line,decode (stripLineEnding raw) = some line ∧ Yields target placeholders caller line.toList name value

theorem rawAssigns_iff {target : Account} {placeholders : List (String × String)} {caller : String → Option String}
    {raw : Bytes} {name value : String} : rawAssigns target placeholders caller name raw = some value ↔
      RawYields target placeholders caller raw name value := by
  unfold rawAssigns RawYields
  cases decoded : decode (stripLineEnding raw) with
  | none => simp
  | some line =>
    have assigns := @lineAssigns_iff target placeholders caller line.toList name value
    rw [String.ofList_toList] at assigns
    simpa using assigns

/-- An error leaves the map as it was just when no line read before it has yielded a value for
a name the map has not got. -/
theorem override_error_iff (path : String) (target : Account) (placeholders : List (String × String))
    (block : List Bytes) (env after : EnvMap) (error : Error) (t : List (Exchange Call Answer))
    (failed : Trace (loadOverwriteVars path target placeholders env) t (.error error,after))
    (asked : ∀ x ∈ t,Caller block x) : (∀ name,after.lookup name = env.lookup name) ↔
      ∀ raw ∈ readLines t,∀ name value,RawYields target placeholders (callerValue block) raw name value →
        env.lookup name ≠ none := by
  have filled := loadOverwriteVars_lookup failed asked
  constructor
  · intro same raw member name value yields unbound
    have found : assigned target placeholders block (readLines t) name ≠ none := by
      intro none
      have never := List.findSome?_eq_none_iff.mp none raw member
      rw [rawAssigns_iff.mpr yields] at never
      cases never
    have kept := filled name
    rw [same name,unbound,Option.none_or] at kept
    exact found kept.symm
  · intro bound name
    rw [filled name]
    cases known : env.lookup name with
    | some old => rfl
    | none =>
      rw [Option.none_or]
      refine List.findSome?_eq_none_iff.mpr fun raw member => ?_
      refine Option.eq_none_iff_forall_ne_some.mpr fun value yields => ?_
      exact bound raw member name value (rawAssigns_iff.mp yields) known

def tornFile : List (Exchange Call Answer) :=
  [⟨.openFile "/etc/runas.env",.ok ()⟩,⟨.fileMetadata,.ok ⟨true,0,0o644⟩⟩,
    ⟨.readLine,.ok (some (encode "* EDITOR=vi\n"))⟩,⟨.readLine,.ok (some [255,10])⟩]

/-- A map that has the name already is left as it was, and its name is all the file has set. -/
theorem override_error_bound : Trace (loadOverwriteVars "/etc/runas.env" alice [] ((∅ : EnvMap).insert "EDITOR" "ed"))
      tornFile (.error (.io .invalidData),(∅ : EnvMap).insert "EDITOR" "ed") ∧
    ∀ raw ∈ readLines tornFile,∀ name value,RawYields alice [] (callerValue []) raw name value →
      ((∅ : EnvMap).insert "EDITOR" "ed").lookup name ≠ none := by
  have failed : Trace (loadOverwriteVars "/etc/runas.env" alice [] ((∅ : EnvMap).insert "EDITOR" "ed")) tornFile
      (.error (.io .invalidData),(∅ : EnvMap).insert "EDITOR" "ed") := replay_sound 20 rfl
  refine ⟨failed,(override_error_iff "/etc/runas.env" alice [] [] _ _ _ tornFile failed ?_).mp fun name => rfl⟩
  intro x member
  simp only [tornFile,List.mem_cons,List.not_mem_nil,or_false] at member
  rcases member with rfl | rfl | rfl | rfl <;> trivial

/-- The reader has failed, and the good line is in the map. -/
theorem override_error_kept : Trace (loadOverwriteVars "/etc/runas.env" alice [] ∅) tornFile
      (.error (.io .invalidData),(∅ : EnvMap).insert "EDITOR" "vi") ∧
    ((∅ : EnvMap).insert "EDITOR" "vi").lookup "EDITOR" ≠ (∅ : EnvMap).lookup "EDITOR" :=
  ⟨replay_sound 20 rfl,by decide⟩

end Runas
