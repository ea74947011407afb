import Mathlib.Data.List.Infix

/-! Lines that are edited at their end only: a stroke puts something behind the line or takes
the last thing back. A line may have room for so many things only, and it may be spelled in
smaller things, of which a stroke takes back one at a time. -/
namespace Runas.Editing

inductive Stroke (α : Type)
  | put (a : α)
  | erase
  deriving DecidableEq

variable {α β : Type}

def press (line : List α) : Stroke α → List α
  | .put a => line ++ [a]
  | .erase => line.dropLast

/-- What is on the line after the strokes. -/
def pressed (strokes : List (Stroke α)) : List α := strokes.foldl press []

/-- A stroke on a line that has room for `limit` things: what is put behind a full line is lost. -/
def pressWithin (limit : Nat) (line : List α) : Stroke α → List α
  | .put a => if line.length < limit then line ++ [a] else line
  | .erase => line.dropLast

theorem pressed_append (strokes later : List (Stroke α)) :
    pressed (strokes ++ later) = later.foldl press (pressed strokes) := List.foldl_append

theorem length_press_le (line : List α) (stroke : Stroke α) : (press line stroke).length ≤ line.length + 1 := by
  cases stroke with
  | put a => simp [press]
  | erase => simp [press]; omega

theorem length_pressWithin {limit : Nat} {line : List α} (fits : line.length ≤ limit) (stroke : Stroke α) :
    (pressWithin limit line stroke).length ≤ limit := by
  cases stroke with
  | put a =>
    rw [pressWithin]
    split
    · simp; omega
    · exact fits
  | erase => simp [pressWithin]; omega

/-- As long as the room is not used up the limit makes no difference. -/
theorem foldl_pressWithin {limit : Nat} {line : List α} {strokes : List (Stroke α)}
    (few : line.length + strokes.length ≤ limit) : strokes.foldl (pressWithin limit) line = strokes.foldl press line := by
  induction strokes generalizing line with
  | nil => rfl
  | cons stroke strokes ih =>
    rw [List.length_cons] at few
    have room : line.length < limit := by omega
    have same : pressWithin limit line stroke = press line stroke := by
      cases stroke <;> simp [pressWithin,press,room]
    have longer := length_press_le line stroke
    rw [List.foldl_cons,List.foldl_cons,same,ih (by omega)]

theorem foldl_pressWithin_put {limit : Nat} {line : List α} (fits : line.length ≤ limit) (things : List α) :
    (things.map Stroke.put).foldl (pressWithin limit) line = (line ++ things).take limit := by
  induction things generalizing line with
  | nil => simp [List.take_of_length_le fits]
  | cons a things ih =>
    rw [List.map_cons,List.foldl_cons,ih (length_pressWithin fits _),pressWithin]
    split
    · simp
    · rw [List.take_append_of_le_length (by omega),List.take_append_of_le_length (by omega)]

/-- The strokes on the smaller things that a line is spelled in: all of a thing is put, but a
stroke takes back only the last of the smaller ones. -/
def spelled (spell : α → List β) : Stroke α → List (Stroke β)
  | .put a => (spell a).map .put
  | .erase => [.erase]

/-- A line and how many smaller things more there are than it is spelled in. -/
structure Draft (α : Type) where
  line : List α
  left : Nat
  deriving DecidableEq

/-- To take a thing back leaves all but one of those it is spelled in, to take nothing back
takes one of those left. There is room for `limit` of them. -/
def Draft.press (spell : α → List β) (limit : Nat) (draft : Draft α) : Stroke α → Draft α
  | .put a => ⟨draft.line ++ [a],min draft.left (limit - ((draft.line ++ [a]).flatMap spell).length)⟩
  | .erase => match draft.line.getLast? with
    | none => ⟨[],draft.left - 1⟩
    | some a => ⟨draft.line.dropLast,draft.left + ((spell a).length - 1)⟩

def drafted (spell : α → List β) (limit : Nat) (strokes : List (Stroke α)) : Draft α :=
  strokes.foldl (Draft.press spell limit) ⟨[],0⟩

section spelled
variable {spell : α → List β} {limit : Nat}

/-- The smaller things are as many as the draft says, and where none is left over they spell the line. -/
private structure Draft.Spelled (spell : α → List β) (draft : Draft α) (small : List β) : Prop where
  length : small.length = (draft.line.flatMap spell).length + draft.left
  exact : draft.left = 0 → small = draft.line.flatMap spell

private theorem Draft.Spelled.iff {draft : Draft α} {small : List β} (spelled : draft.Spelled spell small) :
    small = draft.line.flatMap spell ↔ draft.left = 0 := by
  constructor
  · intro same
    have length := spelled.length
    rw [same] at length
    omega
  · exact spelled.exact

private theorem Draft.Spelled.put {draft : Draft α} {small : List β} (spelled : draft.Spelled spell small)
    (fits : small.length ≤ limit) {a : α} (room : ((draft.line ++ [a]).flatMap spell).length < limit) :
    (draft.press spell limit (.put a)).Spelled spell
      (((spell a).map Stroke.put).foldl (pressWithin limit) small) := by
  have length := spelled.length
  have whole : (draft.line ++ [a]).flatMap spell = draft.line.flatMap spell ++ spell a := by simp
  rw [foldl_pressWithin_put fits]
  rw [whole] at room
  constructor
  · rw [Draft.press,whole]
    simp only [List.length_take,List.length_append] at room ⊢
    omega
  · intro none
    rw [Draft.press,whole] at none
    dsimp only at none
    have clean : draft.left = 0 := by omega
    rw [Draft.press,whole,spelled.exact clean,List.take_of_length_le room.le]

private theorem Draft.Spelled.erase (positive : ∀ a,spell a ≠ []) {draft : Draft α} {small : List β}
    (spelled : draft.Spelled spell small) : (draft.press spell limit .erase).Spelled spell small.dropLast := by
  have length := spelled.length
  rcases List.eq_nil_or_concat draft.line with empty | ⟨before,a,split⟩
  · have after : draft.press spell limit .erase = ⟨[],draft.left - 1⟩ := by simp [Draft.press,empty]
    rw [empty] at length
    simp only [List.flatMap_nil,List.length_nil,Nat.zero_add] at length
    rw [after]
    constructor
    · simp [length]
    · intro none
      apply List.eq_nil_of_length_eq_zero
      simp only [List.length_dropLast] at none ⊢
      omega
  · have after : draft.press spell limit .erase = ⟨before,draft.left + ((spell a).length - 1)⟩ := by
      simp [Draft.press,split]
    have nonempty := List.length_pos_iff.mpr (positive a)
    rw [split] at length
    simp only [List.concat_eq_append,List.flatMap_append,List.flatMap_singleton,List.length_append] at length
    rw [after]
    constructor
    · simp only [List.length_dropLast]
      omega
    · intro none
      dsimp only at none
      have single : (spell a).length = 1 := by omega
      obtain ⟨b,only⟩ := List.length_eq_one_iff.mp single
      rw [spelled.exact (by omega),split]
      simp [only]

/-- What the strokes leave spells the line they leave, if and only if nothing is left over. -/
theorem foldl_spelled_iff (positive : ∀ a,spell a ≠ []) {strokes : List (Stroke α)}
    (room : ∀ before,before <+: strokes → ((pressed before).flatMap spell).length < limit) :
    (strokes.flatMap (spelled spell)).foldl (pressWithin limit) [] = (pressed strokes).flatMap spell ↔
      (drafted spell limit strokes).left = 0 := by
  have held : (drafted spell limit strokes).line = pressed strokes ∧
      (drafted spell limit strokes).Spelled spell ((strokes.flatMap (spelled spell)).foldl (pressWithin limit) []) ∧
      ((strokes.flatMap (spelled spell)).foldl (pressWithin limit) []).length ≤ limit := by
    induction strokes using List.reverseRecOn with
    | nil => exact ⟨rfl,⟨rfl,fun _ => rfl⟩,Nat.zero_le _⟩
    | append_singleton strokes stroke ih =>
      obtain ⟨line,spells,fits⟩ := ih fun before start => room before (start.trans (List.prefix_append _ _))
      have now := room _ List.prefix_rfl
      rw [pressed_append] at now
      rw [pressed_append,List.flatMap_append,List.foldl_append,drafted,List.foldl_append,← drafted]
      simp only [List.foldl_cons,List.foldl_nil,List.flatMap_singleton] at now ⊢
      cases stroke with
      | put a =>
        refine ⟨congrArg (· ++ [a]) line,spells.put fits (by rw [line]; exact now),?_⟩
        rw [spelled,foldl_pressWithin_put fits]
        exact List.length_take_le _ _
      | erase =>
        refine ⟨?_,spells.erase positive,length_pressWithin fits .erase⟩
        rw [← line]
        rcases List.eq_nil_or_concat (drafted spell limit strokes).line with empty | ⟨before,a,split⟩
        · simp [Draft.press,Editing.press,empty]
        · simp [Draft.press,Editing.press,split]
  rw [← held.1]
  exact held.2.1.iff

end spelled

end Runas.Editing
