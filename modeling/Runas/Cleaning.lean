import Runas.Precedence
import Runas.Interaction.Total

/-! The cleaning of the process environment against libc's block of entries. Whoever starts the
program chooses the block, and any list of C strings can be one. -/
namespace Runas
open Interaction Text

/-- The block as libc keeps it: `unsetenv` takes no name that is empty or has an `=`, and removes
every entry of the name. -/
def environment : List CString → (event : Call) → Answer event → List CString → Prop
  | block,.environ,answer,after => answer = block.map CString.bytes ∧ after = block
  | block,.getenv name,answer,after => answer = getenv (block.map CString.bytes) name ∧ after = block
  | block,.unsetenv name,answer,after =>
    if name = "" ∨ '=' ∈ name.toList then answer = .error .einval ∧ after = block
    else answer = .ok () ∧ after = block.filter fun entry => !(encode name ++ [61]).isPrefixOf entry.bytes
  | block,_,_,after => after = block

def listed (name : Bytes) : Bool :=
  envVars.any (fun known => encode known == name) || (encode "LC_").isPrefixOf name || (encode "XDG_").isPrefixOf name

def leaves (entry : CString) : Bool := (splitEntry entry.bytes).any fun item => listed item.1

/-- The cleaning ends, with entries that are to be left alone and with all of those as they were. -/
def Cleans (block : List CString) : Prop :=
  Total environment (fun out after => out = .ok () ∧ (∀ entry ∈ after,leaves entry = true) ∧
    after.filter leaves = block.filter leaves) cleanEnvironment.run block

/-- `NAME=VALUE` in Unicode, with a name that has no `=`. -/
def Regular (entry : CString) : Prop :=
  ∃ name value,name ≠ "" ∧ '=' ∉ name.toList ∧ entry.bytes = encode name ++ 61 :: encode value

section
variable {block : List CString} {name : String} {items : List (Bytes × Bytes)}

private theorem listed_encode (name : String) :
    listed (encode name) = (isKept name || "XDG_".toList.isPrefixOf name.toList) := by
  have known : envVars.any (fun known => encode known == encode name) = envVars.contains name := by
    rw [Bool.eq_iff_iff]
    simp [encode_injective.eq_iff]
  have starts {start : String} (ascii : ∀ c ∈ start.toList,c.val.toNat < 128) :
      (encode start).isPrefixOf (encode name) = start.toList.isPrefixOf name.toList := by
    have same := prefix_encode ascii name.toList
    rw [String.ofList_toList,String.ofList_toList] at same
    rw [Bool.eq_iff_iff,List.isPrefixOf_iff_prefix,List.isPrefixOf_iff_prefix,same]
  rw [listed,known,@starts "LC_" (by simp),@starts "XDG_" (by simp),isKept]

theorem splitEntry_name (settable : name ≠ "" ∧ '=' ∉ name.toList) {entry value : Bytes} :
    splitEntry entry = some (encode name,value) ↔ entry = encode name ++ 61 :: value :=
  splitEntry_eq_some (fun empty => settable.1 (encode_injective empty))
    fun member => settable.2 ((mem_encode (c := '=') (by decide) name).mp member)

/-- What the cleaning can do with an item: leave it, or unset its name. -/
def Cleanable (item : Bytes × Bytes) : Prop :=
  ∃ name value,decode item.1 = some name ∧ decode item.2 = some value ∧
    (listed item.1 = true ∨ name ≠ "" ∧ '=' ∉ name.toList)

/-- The block without the entries of the items that are not left. -/
def swept (items : List (Bytes × Bytes)) (block : List CString) : List CString :=
  block.filter fun entry => items.all fun item => listed item.1 || !(item.1 ++ [61]).isPrefixOf entry.bytes

theorem cleanItem_eq {item : Bytes × Bytes} {value : String} (named : decode item.1 = some name)
    (valued : decode item.2 = some value) : cleanItem item = if listed item.1 then pure () else removeVar name := by
  unfold cleanItem unicodeVar
  rw [named,valued,← encode_decode named,listed_encode]
  rfl

theorem unsetenv_iff (settable : name ≠ "" ∧ '=' ∉ name.toList) {answer : Except Errno Unit}
    {after : List CString} : environment block (.unsetenv name) answer after ↔
      answer = .ok () ∧ after = block.filter fun entry => !(encode name ++ [61]).isPrefixOf entry.bytes := by
  change (if name = "" ∨ '=' ∈ name.toList then answer = .error .einval ∧ after = block
    else answer = .ok () ∧ after = block.filter fun entry => !(encode name ++ [61]).isPrefixOf entry.bytes) ↔ _
  rw [if_neg (not_or.mpr settable)]

private theorem cleanItem_ends {item : Bytes × Bytes} (cleanable : Cleanable item) (block : List CString) :
    Total environment (fun out after => out = .ok () ∧ after = swept [item] block) (cleanItem item).run block := by
  obtain ⟨name,value,named,valued,free⟩ := cleanable
  rw [cleanItem_eq named valued]
  by_cases kept : listed item.1 = true
  · rw [if_pos kept]
    exact .done ⟨rfl,by simp [swept,kept]⟩
  · rw [if_neg kept]
    have removes {answer : Except Errno Unit} {after : List CString} :=
      @unsetenv_iff block name (free.resolve_left kept) answer after
    unfold removeVar
    refine .fallible_bind (.ask ⟨.ok (),_,removes.mpr ⟨rfl,rfl⟩⟩ fun answer after taken => ?_)
    obtain ⟨rfl,rfl⟩ := removes.mp taken
    exact .done (.done ⟨rfl,by simp [swept,kept,encode_decode named]⟩)

private theorem cleanItems_ends (cleanable : ∀ item ∈ items,Cleanable item) : ∀ block : List CString,
    Total environment (fun out after => out = .ok () ∧ after = swept items block) (items.forM cleanItem).run block := by
  induction items with
  | nil => exact fun block => .done ⟨rfl,by simp [swept]⟩
  | cons item items ih =>
    intro block
    change Total environment _ (cleanItem item >>= fun _ => items.forM cleanItem).run block
    refine .fallible_bind ((cleanItem_ends (cleanable item List.mem_cons_self) block).mono ?_)
    rintro out after ⟨rfl,rfl⟩
    refine (ih (fun other member => cleanable other (List.mem_cons_of_mem _ member)) _).mono ?_
    rintro out after ⟨rfl,rfl⟩
    exact ⟨rfl,by simp [swept,List.filter_filter,Bool.and_comm]⟩

/-! What a cleaning that ends well has met. -/

/-- No name is unset that cannot be. -/
private def Honest : Exchange Call Answer → Prop
  | ⟨.unsetenv name,answer⟩ => answer = .ok () → name ≠ "" ∧ '=' ∉ name.toList
  | _ => True

private theorem environment_honest (k : List CString) (event : Call) (answer : Answer event) (k' : List CString)
    (taken : environment k event answer k') : Honest ⟨event,answer⟩ := by
  cases event with
  | unsetenv name =>
    intro done
    change if name = "" ∨ '=' ∈ name.toList then answer = .error .einval ∧ k' = k else answer = .ok () ∧ _ at taken
    split at taken
    · rw [taken.1] at done
      cases done
    · next settable => exact not_or.mp settable
  | _ => trivial

private theorem yields_cleanItems (items : List (Bytes × Bytes)) :
    Fallible.Yields Honest (items.forM cleanItem) (fun _ => ∀ item ∈ items,Cleanable item) := by
  induction items with
  | nil => simp
  | cons item items ih =>
    change Fallible.Yields Honest (cleanItem item >>= fun _ => items.forM cleanItem) _
    rw [Fallible.yields_bind]
    have first : Fallible.Yields Honest (cleanItem item) (fun _ => Cleanable item) := by
      by_cases text : Unicode item
      · obtain ⟨name,value,named,valued⟩ := text
        rw [cleanItem_eq named valued]
        split
        · next kept => exact (Fallible.yields_pure _ _).mpr ⟨name,value,named,valued,.inl kept⟩
        · unfold removeVar
          rw [Fallible.yields_bind,Fallible.yields_ask]
          intro answer honest
          cases answer with
          | ok => exact (Fallible.yields_pure _ _).mpr ⟨name,value,named,valued,.inr (honest rfl)⟩
          | error error => exact (Fallible.yields_bind _ _ _).mpr ((Fallible.yields_ask _ _).mpr fun never => nomatch never)
      · unfold cleanItem
        rw [Fallible.yields_bind]
        refine (yields_unicodeVar item).mono fun pair read => ?_
        exact absurd ⟨pair.1,pair.2,read.1 ▸ decode_encode pair.1,read.2⟩ text
    refine first.mono fun _ cleanable => ih.mono fun _ rest other member => ?_
    rcases List.mem_cons.mp member with rfl | late
    · exact cleanable
    · exact rest other late

private theorem runs_varsOs {result : Except Error (List (Bytes × Bytes))} {k : List CString}
    (run : Runs environment (liftM varsOs : M (List (Bytes × Bytes))).run block result k) :
    result = .ok ((block.map CString.bytes).filterMap splitEntry) ∧ k = block := by
  change Runs environment (varsOs.bind fun items => .done (.ok items)) block result k at run
  obtain ⟨items,between,listed,ended⟩ := (runs_bind _ _ _ _ _).mp run
  obtain ⟨answer,between',asked,rest⟩ := (runs_call _ _ _ _ _).mp listed
  obtain ⟨rfl,rfl⟩ := (runs_done _ _ _ _).mp rest
  obtain ⟨rfl,rfl⟩ := (runs_done _ _ _ _).mp ended
  obtain ⟨same,rfl⟩ : answer = block.map CString.bytes ∧ _ := asked
  exact ⟨by rw [same],rfl⟩

private theorem nameless_kept {entry : CString} (nameless : splitEntry entry.bytes = none) (k : List CString) (event : Call)
    (answer : Answer event) (k' : List CString) (inside : entry ∈ k) (taken : environment k event answer k') :
    entry ∈ k' := by
  cases event with
  | unsetenv name =>
    change if name = "" ∨ '=' ∈ name.toList then answer = .error .einval ∧ k' = k
      else answer = .ok () ∧ k' = k.filter fun entry => !(encode name ++ [61]).isPrefixOf entry.bytes at taken
    split at taken
    · exact taken.2 ▸ inside
    · next settable =>
      rw [taken.2]
      refine List.mem_filter.mpr ⟨inside,?_⟩
      rw [Bool.not_eq_true',Bool.eq_false_iff,Ne,List.isPrefixOf_iff_prefix]
      rintro ⟨value,whole⟩
      rw [List.append_assoc] at whole
      rw [(splitEntry_name (not_or.mp settable)).mpr whole.symm] at nameless
      cases nameless
  | environ | getenv _ => exact taken.2 ▸ inside
  | _ => exact (taken : k' = k) ▸ inside

private theorem cleans_regular (cleans : Cleans block) : ∀ entry ∈ block,Regular entry := by
  obtain ⟨⟨out,after,run⟩,ends⟩ := cleans.sound
  obtain ⟨rfl,left,_⟩ := ends out after run
  have whole := run
  unfold cleanEnvironment at run
  rw [Fallible.run_bind] at run
  obtain ⟨found,between,lists,removes⟩ := (runs_bind _ _ _ _ _).mp run
  obtain ⟨rfl,rfl⟩ := runs_varsOs lists
  obtain ⟨t,trace,honest⟩ := removes.traced environment_honest
  have cleanable := yields_cleanItems _ t () trace honest
  intro entry member
  cases split : splitEntry entry.bytes with
  | none =>
    have kept := left entry (whole.invariant (fun k event answer k' => nameless_kept split k event answer k') member)
    rw [leaves,split] at kept
    cases kept
  | some item =>
    obtain ⟨key,text⟩ := item
    obtain ⟨name,value,named,valued,free⟩ := cleanable (key,text)
      (List.mem_filterMap.mpr ⟨entry.bytes,List.mem_map_of_mem member,split⟩)
    dsimp only at named valued free
    cases bytes : entry.bytes with
    | nil =>
      rw [bytes] at split
      cases split
    | cons b rest =>
      rw [bytes,splitEntry,Option.map_eq_some_iff] at split
      obtain ⟨⟨before,after⟩,parts,same⟩ := split
      cases same
      obtain ⟨rfl,absent⟩ := splitEntryFrom_eq_some.mp parts
      have shown := encode_decode named
      have plain : '=' ∉ name.toList := by
        refine free.elim (fun kept member => ?_) And.right
        have equals := (mem_encode (c := '=') (by decide) name).mpr member
        rw [shown] at equals
        rcases List.mem_cons.mp equals with first | late
        · rw [← first] at kept
          cases kept
        · exact absent late
      refine ⟨name,value,?_,plain,?_⟩
      · rintro rfl
        cases shown
      · rw [bytes,shown,encode_decode valued]
        rfl

/-! Regular entries. -/

private theorem Regular.parts {entry : CString} (regular : Regular entry) : ∃ name value,(name ≠ "" ∧ '=' ∉ name.toList) ∧
    splitEntry entry.bytes = some (encode name,encode value) := by
  obtain ⟨name,value,some,plain,same⟩ := regular
  exact ⟨name,value,⟨some,plain⟩,(splitEntry_name ⟨some,plain⟩).mpr same⟩

private theorem item_regular (regular : ∀ entry ∈ block,Regular entry) {item : Bytes × Bytes}
    (member : item ∈ (block.map CString.bytes).filterMap splitEntry) :
    ∃ name value,(name ≠ "" ∧ '=' ∉ name.toList) ∧ item = (encode name,encode value) := by
  obtain ⟨bytes,inside,split⟩ := List.mem_filterMap.mp member
  obtain ⟨entry,known,rfl⟩ := List.mem_map.mp inside
  obtain ⟨name,value,settable,parts⟩ := (regular entry known).parts
  rw [parts] at split
  exact ⟨name,value,settable,(Option.some.inj split).symm⟩

private theorem swept_regular (regular : ∀ entry ∈ block,Regular entry) :
    swept ((block.map CString.bytes).filterMap splitEntry) block = block.filter leaves := by
  refine List.filter_congr fun entry member => ?_
  obtain ⟨name,value,settable,parts⟩ := (regular entry member).parts
  have mine : leaves entry = listed (encode name) := by simp [leaves,parts]
  rw [mine,Bool.eq_iff_iff,List.all_eq_true]
  constructor
  · intro all
    have inside : (encode name,encode value) ∈ (block.map CString.bytes).filterMap splitEntry :=
      List.mem_filterMap.mpr ⟨entry.bytes,List.mem_map_of_mem member,parts⟩
    have starts : (encode name ++ [61]).isPrefixOf entry.bytes = true := by
      rw [List.isPrefixOf_iff_prefix,(splitEntry_name settable).mp parts]
      exact ⟨encode value,by simp⟩
    simpa [starts] using all _ inside
  · intro kept item inside
    obtain ⟨other,text,settable',rfl⟩ := item_regular regular inside
    rw [Bool.or_eq_true,Bool.not_eq_true',Bool.eq_false_iff,Ne,List.isPrefixOf_iff_prefix,or_iff_not_imp_right,not_not]
    rintro ⟨rest,whole⟩
    rw [List.append_assoc] at whole
    have same := (splitEntry_name settable').mpr whole.symm
    rw [parts] at same
    have names : encode name = encode other := (Prod.mk.inj (Option.some.inj same)).1
    rwa [← names]

end

/-- The process environment is cleaned just when every entry is `NAME=VALUE` in Unicode. -/
theorem clean_environment_iff (block : List CString) : Cleans block ↔ ∀ entry ∈ block,Regular entry := by
  constructor
  · exact cleans_regular
  · intro regular
    have cleanable : ∀ item ∈ (block.map CString.bytes).filterMap splitEntry,Cleanable item := by
      intro item member
      obtain ⟨name,value,settable,rfl⟩ := item_regular regular member
      exact ⟨name,value,decode_encode name,decode_encode value,.inr settable⟩
    unfold Cleans cleanEnvironment
    refine .fallible_bind (.lift (.ask ⟨_,block,rfl,rfl⟩ fun found k taken => .done ?_))
    obtain ⟨rfl,rfl⟩ : found = block.map CString.bytes ∧ k = block := taken
    refine (cleanItems_ends cleanable k).mono fun out after ends => ?_
    obtain ⟨rfl,rfl⟩ := ends
    rw [swept_regular regular]
    exact ⟨rfl,fun entry member => (List.mem_filter.mp member).2,by simp⟩

/-- A name that starts with `=`, a byte that is not text, and an entry without a name. -/
theorem clean_environment_irregular : ¬ Cleans [⟨encode "=A=B",by decide⟩] ∧ ¬ Cleans [⟨[65,61,255],by decide⟩] ∧
    ¬ Cleans [⟨encode "A",by decide⟩] := by
  have parts {bytes : Bytes} {noNul : 0 ∉ bytes} (cleans : Cleans [⟨bytes,noNul⟩]) : ∃ name value,
      '=' ∉ name.toList ∧ splitEntry bytes = some (encode name,encode value) := by
    obtain ⟨name,value,settable,parts⟩ := (cleans_regular cleans _ List.mem_cons_self).parts
    exact ⟨name,value,settable.2,parts⟩
  refine ⟨fun cleans => ?_,fun cleans => ?_,fun cleans => ?_⟩
  · obtain ⟨name,value,plain,split⟩ := parts cleans
    have whole : splitEntry (encode "=A=B") = some (encode "=A",encode "B") := by decide
    rw [whole] at split
    obtain rfl : "=A" = name := encode_injective (Prod.mk.inj (Option.some.inj split)).1
    exact absurd plain (by decide)
  · obtain ⟨name,value,_,split⟩ := parts cleans
    have whole : splitEntry [65,61,255] = some ([65],[255]) := by decide
    rw [whole] at split
    have text := decode_encode value
    rw [← (Prod.mk.inj (Option.some.inj split)).2] at text
    have never : decode [255] = none := by decide
    rw [never] at text
    cases text
  · obtain ⟨name,value,_,split⟩ := parts cleans
    have whole : splitEntry (encode "A") = none := by decide
    rw [whole] at split
    cases split

end Runas
