import Runas.Text

/-! Facts of text: the white space around a word, the first separator, and the lines of a
file, read with their endings. -/
namespace Runas.Text

def Blank (text : List Char) : Prop := ∀ c ∈ text,isWhitespace c = true

def Trimmed (text core : List Char) : Prop :=
  ∃ left right,text = left ++ core ++ right ∧ Blank left ∧ Blank right ∧
    (∀ c,core.head? = some c → isWhitespace c = false) ∧ ∀ c,core.getLast? = some c → isWhitespace c = false

section
variable {text core left right : List Char}

theorem Blank.append (first : Blank left) (second : Blank right) : Blank (left ++ right) := by
  intro c member
  rcases List.mem_append.mp member with early | late
  · exact first c early
  · exact second c late

private theorem dropWhile_blank (blank : Blank left) (text : List Char) :
    (left ++ text).dropWhile isWhitespace = text.dropWhile isWhitespace := by
  induction left with
  | nil => rfl
  | cons c left ih =>
    rw [List.cons_append,List.dropWhile_cons_of_pos (blank c List.mem_cons_self)]
    exact ih fun c member => blank c (List.mem_cons_of_mem _ member)

private theorem dropWhile_bare (bare : ∀ c,text.head? = some c → isWhitespace c = false) :
    text.dropWhile isWhitespace = text := by
  cases text with
  | nil => rfl
  | cons c text => exact List.dropWhile_cons_of_neg (by simp [bare c rfl])

private theorem blank_takeWhile (text : List Char) : Blank (text.takeWhile isWhitespace) :=
  fun _ member => List.mem_takeWhile_imp member

private theorem head_dropWhile (text : List Char) :
    ∀ c,(text.dropWhile isWhitespace).head? = some c → isWhitespace c = false := by
  intro c head
  have bare := List.head?_dropWhile_not isWhitespace text
  rw [head] at bare
  simpa using bare

theorem Trimmed.eq (trimmed : Trimmed text core) : trim text = core := by
  obtain ⟨left,right,rfl,before,after,head,last⟩ := trimmed
  unfold trim trimStart trimEnd
  rw [List.append_assoc,dropWhile_blank before]
  cases core with
  | nil =>
    have none : (right.dropWhile isWhitespace) = [] := List.dropWhile_eq_nil_iff.mpr after
    rw [List.nil_append,none]
    rfl
  | cons c core =>
    have front : (c :: core ++ right).dropWhile isWhitespace = c :: core ++ right := dropWhile_bare (by simpa using head)
    have back : (c :: core).reverse.dropWhile isWhitespace = (c :: core).reverse :=
      dropWhile_bare (by simpa only [List.head?_reverse] using last)
    rw [front,List.reverse_append,dropWhile_blank fun c member => after c (List.mem_reverse.mp member),back,
      List.reverse_reverse]

theorem trimStart_split (text : List Char) : ∃ left,text = left ++ trimStart text ∧ Blank left ∧
    ∀ c,(trimStart text).head? = some c → isWhitespace c = false :=
  ⟨text.takeWhile isWhitespace,List.takeWhile_append_dropWhile.symm,blank_takeWhile text,head_dropWhile text⟩

theorem trimEnd_split (text : List Char) : ∃ right,text = trimEnd text ++ right ∧ Blank right ∧
    ∀ c,(trimEnd text).getLast? = some c → isWhitespace c = false := by
  obtain ⟨left,split,blank,bare⟩ := trimStart_split text.reverse
  refine ⟨left.reverse,?_,fun c member => blank c (List.mem_reverse.mp member),?_⟩
  · have parts := congrArg List.reverse split
    rwa [List.reverse_append,List.reverse_reverse] at parts
  · intro c last
    exact bare c (by rwa [← List.getLast?_reverse])

theorem trimmed_trim (text : List Char) : Trimmed text (trim text) := by
  obtain ⟨left,front,before,head⟩ := trimStart_split text
  obtain ⟨right,back,after,last⟩ := trimEnd_split (trimStart text)
  refine ⟨left,right,?_,before,after,fun c first => head c ?_,last⟩
  · rw [List.append_assoc]
    exact front.trans (congrArg (left ++ ·) back)
  · rw [back,List.head?_append,show (trimEnd (trimStart text)).head? = some c from first]
    rfl

theorem trim_eq_iff : trim text = core ↔ Trimmed text core :=
  ⟨fun same => same ▸ trimmed_trim text,Trimmed.eq⟩

theorem trim_blank (before : Blank left) (after : Blank right) : trim (left ++ text ++ right) = trim text := by
  obtain ⟨more,rest,split,first,second,head,last⟩ := trimmed_trim text
  refine Trimmed.eq ⟨left ++ more,rest ++ right,?_,before.append first,second.append after,head,last⟩
  calc left ++ text ++ right = left ++ (more ++ trim text ++ rest) ++ right := by rw [← split]
    _ = left ++ more ++ trim text ++ (rest ++ right) := by simp only [List.append_assoc]

theorem trim_before (before : Blank left) : trim (left ++ text) = trim text := by
  have both := @trim_blank text left [] before fun _ none => nomatch none
  rwa [List.append_nil] at both

theorem trim_after (after : Blank right) : trim (text ++ right) = trim text :=
  @trim_blank text [] right (fun _ none => nomatch none) after

theorem trim_of_blank (blank : Blank text) : trim text = [] := by
  refine Trimmed.eq ⟨text,[],by simp,blank,?_,?_,?_⟩
  · exact fun c member => nomatch member
  · exact fun c none => nomatch none
  · exact fun c none => nomatch none

/-- The first separator of a text, with what is before and after it. -/
theorem splitOnce_eq_some_iff (separator : Char → Bool) (before after : List Char) :
    splitOnce separator text = some (before,after) ↔
      ∃ c,text = before ++ c :: after ∧ separator c = true ∧ ∀ c ∈ before,separator c = false := by
  induction text generalizing before with
  | nil => simp [splitOnce]
  | cons c text ih =>
    unfold splitOnce
    by_cases separates : separator c = true
    · rw [if_pos separates]
      constructor
      · intro same
        cases same
        exact ⟨c,rfl,separates,by simp⟩
      · rintro ⟨d,split,_,plain⟩
        cases before with
        | nil =>
          cases split
          rfl
        | cons d before =>
          cases split
          rw [plain c List.mem_cons_self] at separates
          cases separates
    · rw [if_neg separates]
      constructor
      · intro found
        obtain ⟨⟨first,last⟩,found,same⟩ := Option.map_eq_some_iff.mp found
        cases same
        obtain ⟨d,rfl,separator,plain⟩ := (ih first).mp found
        refine ⟨d,rfl,separator,fun e member => ?_⟩
        rcases List.mem_cons.mp member with rfl | member
        · exact Bool.eq_false_iff.mpr separates
        · exact plain e member
      · rintro ⟨d,split,separator,plain⟩
        cases before with
        | nil =>
          cases split
          exact absurd separator separates
        | cons e before =>
          cases split
          have found := (ih before).mpr ⟨d,rfl,separator,fun e member => plain e (List.mem_cons_of_mem _ member)⟩
          rw [found]
          rfl

theorem splitOnce_eq_none_iff (separator : Char → Bool) :
    splitOnce separator text = none ↔ ∀ c ∈ text,separator c = false := by
  induction text with
  | nil => simp [splitOnce]
  | cons c text ih =>
    unfold splitOnce
    by_cases separates : separator c = true
    · simp [separates]
    · simpa [separates] using ih

end

/-- The lines a buffered reader reads from a file, each with its ending if it has one. -/
def rawLines : Bytes → List Bytes
  | [] => []
  | b :: rest =>
    if b = 10 then [b] :: rawLines rest
    else match rawLines rest with
      | [] => [[b]]
      | line :: lines => (b :: line) :: lines

theorem rawLines_cons {line : Bytes} (whole : 10 ∉ line) (rest : Bytes) :
    rawLines (line ++ 10 :: rest) = (line ++ [10]) :: rawLines rest := by
  induction line with
  | nil => exact if_pos rfl
  | cons b line ih =>
    obtain ⟨other,whole⟩ := not_or.mp (mt List.mem_cons.mpr whole)
    rw [List.cons_append,rawLines,if_neg (Ne.symm other),ih whole]
    rfl

theorem rawLines_last {line : Bytes} (whole : 10 ∉ line) (some : line ≠ []) : rawLines line = [line] := by
  induction line with
  | nil => exact absurd rfl some
  | cons b line ih =>
    obtain ⟨other,whole⟩ := not_or.mp (mt List.mem_cons.mpr whole)
    rw [rawLines,if_neg (Ne.symm other)]
    cases line with
    | nil => rfl
    | cons c line => rw [ih whole (List.cons_ne_nil _ _)]

/-- The lines read from a text are texts, and what can be found in one of them, whatever the
endings, is found in the lines of the text. -/
theorem rawLines_text (text : List Char) : ∃ lines : List (List Char),
    rawLines (encode (String.ofList text)) = lines.map (fun line => encode (String.ofList line)) ∧
      ∀ {β : Type} (f : List Char → Option β),(∀ line,f (line ++ ['\n']) = f line) → f [] = none →
        lines.findSome? f = (text.splitOn '\n').findSome? f := by
  induction size : text.length using Nat.strongRecOn generalizing text with
  | _ n ih =>
    have newline (line : List Char) : 10 ∈ encode (String.ofList line) ↔ '\n' ∈ line := by
      have ascii := @mem_encode '\n' (by decide) (String.ofList line)
      rwa [String.toList_ofList] at ascii
    by_cases more : '\n' ∈ text
    · obtain ⟨first,rest,rfl,whole⟩ := List.eq_append_cons_of_mem more
      obtain ⟨lines,later,same⟩ := ih rest.length (by rw [← size,List.length_append,List.length_cons]; omega) rest rfl
      have bytes : encode (String.ofList (first ++ '\n' :: rest)) =
          encode (String.ofList first) ++ 10 :: encode (String.ofList rest) := by
        simp [encode,String.utf8EncodeChar]
      have ending : encode (String.ofList first) ++ [10] = encode (String.ofList (first ++ ['\n'])) := by
        simp [encode,String.utf8EncodeChar]
      refine ⟨(first ++ ['\n']) :: lines,?_,fun f ends blank => ?_⟩
      · rw [bytes,rawLines_cons (mt (newline first).mp whole),ending,later]
        rfl
      · rw [List.splitOn_append_cons_self_of_not_mem whole,List.findSome?_cons,List.findSome?_cons,ends,same f ends blank]
    · cases text with
      | nil => exact ⟨[],rfl,fun f _ blank => by rw [List.splitOn_eq_singleton more,List.findSome?_singleton,blank]; rfl⟩
      | cons c text =>
        have filled : encode (String.ofList (c :: text)) ≠ [] := by simp [encode,String.utf8EncodeChar_ne_nil]
        refine ⟨[c :: text],rawLines_last (mt (newline (c :: text)).mp more) filled,fun f _ _ => ?_⟩
        rw [List.splitOn_eq_singleton more]

end Runas.Text
