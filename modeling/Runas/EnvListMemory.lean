import Runas.ResponseMemory

/-! Who owns the list of environment entries: the library has allocated it, and the
program gives every block of it back, also when an entry cannot be read. -/
namespace Runas
open Interaction Managed Blocks WithHeap Text

namespace WithHeap

def heldEntry (entry : Bytes) : Block CData := .held (.text (entry ++ [0]))

def freedEntry (entry : Bytes) : Block CData := .freed (.text (entry ++ [0]))

/-- Pointers to blocks that follow one another, and the null behind them. -/
def addresses (first : Address) (count : Nat) : List (Option Address) := (List.range' first count).map some ++ [none]

/-- Memory while the entries are given back: `gone` of them are. -/
def listing (blocks : CBlocks) (gone left : List Bytes) : CBlocks :=
  blocks ++ (gone.map freedEntry ++ (left.map heldEntry ++
    [.held (.pointers (addresses blocks.length (gone.length + left.length)))]))

/-- The bytes that are read of an entry. -/
def cut (entry : Bytes) : Bytes := entry.takeWhile (· != 0)

theorem cString?_entry (entry : Bytes) : cString? (entry ++ [0]) = some (cut entry) := by
  rw [cString?,if_pos (by simp),cut]
  congr 1
  induction entry with
  | nil => rfl
  | cons byte bytes ih => simp only [List.cons_append,List.takeWhile_cons,ih]

theorem cut_clean {entry : Bytes} (clean : 0 ∉ entry) : cut entry = entry :=
  List.takeWhile_eq_self_iff.mpr fun _ member => bne_iff_ne.mpr fun zero => clean (zero ▸ member)

theorem readPointer_computes {blocks : CBlocks} {array : Address} {entries : List (Option Address)} {index : Nat}
    {entry : Option Address} (held : blocks.content? array = some (.pointers entries)) (there : entries[index]? = some entry) :
    Computes (readPointer array index) blocks entry blocks := by
  refine (Computes.read held).bind ?_
  simp only [there]
  exact .pure _ _

theorem readText_computes {blocks : CBlocks} {address : Address} {entry : Bytes}
    (held : blocks.content? address = some (.text (entry ++ [0]))) : Computes (readText address) blocks (cut entry) blocks := by
  refine (Computes.read held).bind ?_
  simp only [cString?_entry]
  exact .pure _ _

theorem allocEntries_computes (blocks : CBlocks) (entries : List Bytes) :
    Computes (allocEntries entries) blocks (addresses blocks.length entries.length) (blocks ++ entries.map heldEntry) := by
  induction entries generalizing blocks with
  | nil =>
    rw [List.map_nil,List.append_nil]
    exact .pure _ _
  | cons entry rest ih =>
    refine (Computes.alloc _ _).bind (Computes.bind (ih _) ?_)
    rw [List.length_append,List.length_singleton,List.append_assoc]
    exact .pure _ _

/-- From one pointer on, each entry is there, and the null behind the last. -/
inductive Listed (blocks : CBlocks) : List (Option Address) → List Bytes → Prop
  | nil : Listed blocks [none] []
  | cons {address : Address} {pointers : List (Option Address)} {entry : Bytes} {entries : List Bytes}
      (held : blocks.content? address = some (.text (entry ++ [0]))) (rest : Listed blocks pointers entries) :
      Listed blocks (some address :: pointers) (entry :: entries)

theorem readEntries_computes {blocks : CBlocks} {list : Address} {front back : List (Option Address)} {entries : List Bytes}
    (listed : Listed blocks back entries) (held : blocks.content? list = some (.pointers (front ++ back))) (envs : EnvMap) :
    Computes (iterate (readEntry list) (front.length,envs)) blocks ((entries.map cut).foldlM PamHandle.envEntry envs) blocks := by
  induction listed generalizing front envs with
  | nil =>
    have pointer : Computes (readPointer list front.length) blocks none blocks := readPointer_computes held (by simp)
    refine .last (pointer.bind ?_)
    exact .pure _ _
  | @cons address pointers entry entries there rest ih =>
    have pointer : Computes (readPointer list front.length) blocks (some address) blocks := readPointer_computes held (by simp)
    rw [List.map_cons,List.foldlM_cons]
    cases parsed : PamHandle.envEntry envs (cut entry) with
    | error error =>
      refine .last (pointer.bind ((readText_computes there).bind ?_))
      rw [parsed]
      exact .pure _ _
    | ok next =>
      have round : Computes (readEntry list (front.length,envs)) blocks (.inl (front.length + 1,next)) blocks := by
        refine pointer.bind ((readText_computes there).bind ?_)
        rw [parsed]
        exact .pure _ _
      have whole : blocks.content? list = some (.pointers ((front ++ [some address]) ++ pointers)) := by rwa [List.append_assoc]
      have later := ih whole next
      rw [List.length_append,List.length_singleton] at later
      exact .again round later

theorem listed_addresses (front back : CBlocks) (entries : List Bytes) :
    Listed (front ++ (entries.map heldEntry ++ back)) (addresses front.length entries.length) entries := by
  induction entries generalizing front with
  | nil => exact .nil
  | cons entry entries ih =>
    have rest := ih (front ++ [heldEntry entry])
    rw [List.length_append,List.length_singleton,List.append_assoc,List.singleton_append] at rest
    exact .cons (content?_middle _ _ _) rest

theorem listing_pointers (blocks : CBlocks) (gone left : List Bytes) :
    Blocks.content? (listing blocks gone left) (blocks.length + (gone.length + left.length)) =
      some (.pointers (addresses blocks.length (gone.length + left.length))) := by
  have found := content?_middle (blocks ++ (gone.map freedEntry ++ left.map heldEntry)) []
    (.pointers (addresses blocks.length (gone.length + left.length)))
  rw [List.length_append,List.length_append,List.length_map,List.length_map,List.append_assoc,List.append_assoc] at found
  exact found

theorem freeEntries_computes (blocks : CBlocks) (gone left : List Bytes) :
    Computes (iterate (freeEntry (blocks.length + (gone.length + left.length))) gone.length) (listing blocks gone left) ()
      (listing blocks (gone ++ left) []) := by
  induction left generalizing gone with
  | nil =>
    have pointer : Computes (readPointer (blocks.length + (gone.length + 0)) gone.length) (listing blocks gone []) none
        (listing blocks gone []) := readPointer_computes (listing_pointers blocks gone []) (by simp [addresses])
    refine .last (pointer.bind ?_)
    rw [List.append_nil]
    exact .pure _ _
  | cons entry left ih =>
    have held : Blocks.content? (listing blocks gone (entry :: left)) (blocks.length + gone.length) =
        some (.text (entry ++ [0])) := by
      have found := content?_middle (blocks ++ gone.map freedEntry) (left.map heldEntry ++
        [.held (.pointers (addresses blocks.length (gone.length + (entry :: left).length)))]) (.text (entry ++ [0]))
      rw [List.length_append,List.length_map,List.append_assoc] at found
      exact found
    have count : (gone ++ [entry]).length + left.length = gone.length + (entry :: left).length := by
      rw [List.length_append,List.length_singleton,List.length_cons,Nat.add_assoc,Nat.add_comm 1]
    have given : (listing blocks gone (entry :: left)).set (blocks.length + gone.length) (freedEntry entry) =
        listing blocks (gone ++ [entry]) left := by
      rw [listing,List.set_append_right _ _ (Nat.le_add_right _ _),Nat.add_sub_cancel_left,
        List.set_append_right _ _ (by rw [List.length_map]),List.length_map,Nat.sub_self,List.map_cons,List.cons_append,
        List.set_cons_zero,listing,count,List.map_append,List.append_assoc]
      rfl
    have pointer : Computes (readPointer (blocks.length + (gone.length + (entry :: left).length)) gone.length)
        (listing blocks gone (entry :: left)) (some (blocks.length + gone.length)) (listing blocks gone (entry :: left)) := by
      refine readPointer_computes (listing_pointers blocks gone (entry :: left)) ?_
      rw [addresses,List.getElem?_append_left (by simp)]
      simp
    have freed : Computes (free (blocks.length + gone.length) : WithHeap Unit) _ () _ := .free held
    rw [← freedEntry,given] at freed
    have later := ih (gone ++ [entry])
    rw [count,List.length_append,List.length_singleton,List.append_assoc] at later
    exact .again (pointer.bind (freed.bind (.pure _ _))) later

/-- What there is to give back has been given back, and nothing else has changed. -/
def Returned (blocks : CBlocks) (count : Nat) (after : CBlocks) : Prop :=
  after.length = blocks.length + count ∧ (∀ address < blocks.length, after[address]? = blocks[address]?) ∧
    ∀ address, Fresh blocks after address → ∃ last, after[address]? = some (.freed last)

/-- The blocks of a list: one for each entry, and one for the list itself. -/
def listedBlocks : Option (List Bytes) → Nat
  | none => 0
  | some entries => entries.length + 1

/-- What the entries of a list come to. -/
def listedEnv : Option (List Bytes) → Except Error EnvMap
  | none => .ok ∅
  | some entries => entries.foldlM PamHandle.envEntry ∅

def released (blocks : CBlocks) (entries : List Bytes) : CBlocks :=
  blocks ++ (entries.map freedEntry ++ [.freed (.pointers (addresses blocks.length entries.length))])

theorem released_returned (blocks : CBlocks) (entries : List Bytes) :
    Returned blocks (entries.length + 1) (released blocks entries) := by
  refine ⟨by simp [released],fun address early => ?_,fun address new => ?_⟩
  · exact List.getElem?_append_left early
  · obtain ⟨late,early⟩ := new
    have freed : ∀ block ∈ entries.map freedEntry ++ [.freed (.pointers (addresses blocks.length entries.length))],
        ∃ last, block = .freed last := by
      intro block member
      rcases List.mem_append.mp member with member | member
      · obtain ⟨entry,_,rfl⟩ := List.mem_map.mp member
        exact ⟨_,rfl⟩
      · exact ⟨_,List.mem_singleton.mp member⟩
    rw [released,List.length_append] at early
    have there := Nat.sub_lt_left_of_lt_add late early
    obtain ⟨last,same⟩ := freed _ (List.getElem_mem there)
    exact ⟨last,by rw [released,List.getElem?_append_right late,List.getElem?_eq_getElem there,same]⟩

theorem takeList_computes (blocks : CBlocks) (listed : Option (List Bytes)) :
    Computes (returnList listed >>= takeList) blocks (listedEnv (listed.map (List.map cut)))
      ((listed.map (released blocks)).getD blocks) := by
  cases listed with
  | none => exact .bind (.pure _ _) (.pure _ _)
  | some entries =>
    have laidOut : (blocks ++ entries.map heldEntry) ++ [.held (.pointers (addresses blocks.length entries.length))] =
        listing blocks [] entries := by
      rw [listing,List.length_nil,Nat.zero_add,List.append_assoc]
      rfl
    have whole := listing_pointers blocks [] entries
    rw [List.length_nil,Nat.zero_add] at whole
    have given := freeEntries_computes blocks [] entries
    rw [List.length_nil,Nat.zero_add,List.nil_append] at given
    have last := listing_pointers blocks entries []
    rw [List.length_nil,Nat.add_zero] at last
    have emptied : (listing blocks entries []).set (blocks.length + entries.length)
        (.freed (.pointers (addresses blocks.length entries.length))) = released blocks entries := by
      rw [listing,List.set_append_right _ _ (Nat.le_add_right _ _),Nat.add_sub_cancel_left,
        List.set_append_right _ _ (by rw [List.length_map]),List.length_map,Nat.sub_self]
      rfl
    have returned : Computes (returnList (some entries)) blocks (some (blocks.length + entries.length))
        (listing blocks [] entries) := by
      refine (allocEntries_computes blocks entries).bind ((Computes.alloc _ _).bind ?_)
      rw [laidOut,List.length_append,List.length_map]
      exact .pure _ _
    have taken := @readEntries_computes _ _ [] _ _ (listed_addresses blocks _ entries) whole ∅
    have freed : Computes (free (blocks.length + entries.length) : WithHeap Unit) _ () _ := .free last
    rw [emptied] at freed
    exact returned.bind (taken.bind (given.bind (freed.bind (.pure _ _))))

theorem getenvlist_on (handle : PamHandle) (blocks : CBlocks) (t : List (Exchange Call Answer))
    (out : Option (Except Error EnvMap × CBlocks)) : Trace ((getenvlist handle).on blocks) t out ↔
      ∃ listed, Trace (Pam.call (Conv handle.flags) .getenvlist) t listed ∧
        some (listedEnv (listed.map (List.map cut)),(listed.map (released blocks)).getD blocks) = out := by
  rw [getenvlist,on_call,trace_bind]
  constructor
  · rintro ⟨first,listed,second,rfl,asked,rest⟩
    obtain ⟨same,rfl⟩ := ((takeList_computes blocks listed).ends _ _).mp rest
    exact ⟨listed,by rwa [List.append_nil],same⟩
  · rintro ⟨listed,asked,same⟩
    exact ⟨t,listed,[],by simp,asked,((takeList_computes blocks listed).ends _ _).mpr ⟨same,rfl⟩⟩

end WithHeap

/-- The environment that the model without memory reads. -/
theorem getenvlist_plain (handle : PamHandle) {t : List (Exchange Call Answer)} {listed : Option (List Bytes)}
    (asked : Trace (Pam.call (Conv handle.flags) .getenvlist) t listed) :
    Trace (handle.perform PamHandle.getenvlist) t (listedEnv listed,handle) := by
  rw [PamHandle.getenvlist,PamHandle.perform_bind,PamHandle.perform_call,Program.bind_assoc,trace_bind]
  refine ⟨t,listed,[],by simp,asked,?_⟩
  cases listed with
  | none => exact .done _
  | some entries =>
    rw [listedEnv]
    simp only [Program.bind]
    cases entries.foldlM PamHandle.envEntry ∅ with
    | ok env => exact .done _
    | error error => exact .done _

/-- However the list reads, each of its entries and the list itself are given back exactly once
and none is used after that; and the result is that of the model without memory. -/
theorem envlist_memory (handle : PamHandle) (blocks : CBlocks) (t : List (Exchange Call Answer)) :
    (∀ out, Trace ((WithHeap.getenvlist handle).on blocks) t out → ∃ listed result after, out = some (result,after) ∧
      Trace (Pam.call (Conv handle.flags) .getenvlist) t listed ∧ Returned blocks (listedBlocks listed) after ∧
      ((∀ entries, listed = some entries → ∀ entry ∈ entries, 0 ∉ entry) →
        Trace (handle.perform PamHandle.getenvlist) t (result,handle))) ∧
    ∀ listed, Trace (Pam.call (Conv handle.flags) .getenvlist) t listed →
      ∃ out, Trace ((WithHeap.getenvlist handle).on blocks) t out := by
  refine ⟨fun out run => ?_,fun listed asked => ⟨_,(getenvlist_on handle blocks t _).mpr ⟨listed,asked,rfl⟩⟩⟩
  obtain ⟨listed,asked,rfl⟩ := (getenvlist_on handle blocks t out).mp run
  refine ⟨listed,_,_,rfl,asked,?_,fun clean => ?_⟩
  · cases listed with
    | none => exact ⟨rfl,fun _ _ => rfl,fun address new => absurd new.2 (Nat.not_lt.mpr new.1)⟩
    | some entries => exact released_returned blocks entries
  · have uncut : listed.map (List.map cut) = listed := by
      cases listed with
      | none => rfl
      | some entries =>
        have same := List.map_congr_left fun entry member => cut_clean (clean entries rfl entry member)
        exact congrArg some (same.trans (List.map_id' _))
    rw [uncut]
    exact getenvlist_plain handle asked

/-- A list whose second entry is no assignment: all of it is given back all the same. -/
private def strayRecord : List (Exchange Call Answer) :=
  [⟨.pam .getenvlist,.returned (some [encode "A=1",encode "stray",encode "B=2"])⟩]

theorem envlist_memory_stray : ∃ listed result after, Trace ((WithHeap.getenvlist ⟨.none,0,true⟩).on []) strayRecord
      (some (result,after)) ∧ Trace (Pam.call (Conv .none) .getenvlist) strayRecord listed ∧
    Returned [] (listedBlocks listed) after ∧ after.length = 4 ∧
    result = .error (.staticMessage "invalid environment variable returned by PAM") := by
  have asked : Trace (Pam.call (Conv .none) .getenvlist) strayRecord
      (some [encode "A=1",encode "stray",encode "B=2"]) := .call (.loop (.done _))
  have run := (getenvlist_on ⟨.none,0,true⟩ [] strayRecord _).mpr ⟨_,asked,rfl⟩
  obtain ⟨listed,result,after,same,again,returned,_⟩ := (envlist_memory ⟨.none,0,true⟩ [] strayRecord).1 _ run
  obtain ⟨rfl,rfl⟩ := Prod.mk.inj (Option.some.inj same)
  exact ⟨listed,_,_,run,again,returned,by decide,by decide⟩

end Runas
