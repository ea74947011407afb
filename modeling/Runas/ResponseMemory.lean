import Mathlib.Data.List.ReduceOption
import Runas.PamMemory

/-! Who owns the memory of a conversation. The blocks it allocates are the array of responses
and the texts it points to; either all of them are the library's in the end, or all of
them have been given back, the texts overwritten before. -/
namespace Runas
open Interaction Managed Blocks WithHeap Text

namespace WithHeap

/-- The texts that an array of responses points to, each in the block after the one before. -/
def place (first : Address) : List (Option Bytes) → List (Option Address)
  | [] => []
  | none :: rest => none :: place first rest
  | some _ :: rest => some first :: place (first + 1) rest

def texts (answers : List (Option Bytes)) : CBlocks := answers.reduceOption.map fun text => .held (.text (text ++ [0]))

def wiped (answers : List (Option Bytes)) : CBlocks :=
  answers.reduceOption.map fun text => .freed (.text (List.replicate (text.length + 1) 0))

/-- What memory looks like while the responses are dropped: `gone` of them are. -/
def dropping (blocks : CBlocks) (gone left : List (Option Bytes)) : CBlocks :=
  blocks ++ .held (.pointers (List.replicate gone.length none ++ place (blocks.length + 1 + (wiped gone).length) left)) ::
    (wiped gone ++ texts left)

/-- What memory looks like during the conversation. -/
def laid (blocks : CBlocks) (answers : List (Option Bytes)) : CBlocks := dropping blocks [] answers

/-- What it looks like when the responses are dropped. -/
def cleared (blocks : CBlocks) (answers : List (Option Bytes)) : CBlocks :=
  blocks ++ .freed (.pointers (List.replicate answers.length none)) :: wiped answers

/-- No text goes on behind a NUL. -/
def CStrings (answers : List (Option Bytes)) : Prop := ∀ text, some text ∈ answers → 0 ∉ text

section operations
variable {β : Type}

theorem cString?_terminated {text : Bytes} (clean : 0 ∉ text) : cString? (text ++ [0]) = some text := by
  have plain : ∀ byte ∈ text,(byte != 0) = true := fun byte member => bne_iff_ne.mpr fun zero => clean (zero ▸ member)
  have ends : (text ++ [0]).takeWhile (· != 0) = text := by
    rw [List.takeWhile_append_of_pos plain]
    simp
  rw [cString?,if_pos (by simp),ends]

theorem readPointer_on {blocks : CBlocks} {array : Address} {entries : List (Option Address)} {index : Nat}
    {entry : Option Address} (held : blocks.content? array = some (.pointers entries)) (there : entries[index]? = some entry)
    (f : Option Address → WithHeap β) : (readPointer array index >>= f).on blocks = (f entry).on blocks := by
  rw [readPointer,bind_assoc,on_read held]
  simp only [there]
  rfl

theorem writePointer_on {blocks : CBlocks} {array : Address} {entries : List (Option Address)} {index : Nat}
    (held : blocks.content? array = some (.pointers entries)) (inside : index < entries.length) (value : Option Address)
    (f : Unit → WithHeap β) : (writePointer array index value >>= f).on blocks =
      (f ()).on (blocks.set array (.held (.pointers (entries.set index value)))) := by
  rw [writePointer,bind_assoc,on_read held]
  simp only [if_pos inside]
  rw [on_write held]

theorem zeroize_on {blocks : CBlocks} {address : Address} {text : Bytes} (clean : 0 ∉ text)
    (held : blocks.content? address = some (.text (text ++ [0]))) (f : Unit → WithHeap β) :
    (zeroize address >>= f).on blocks =
      (f ()).on (blocks.set address (.held (.text (List.replicate (text.length + 1) 0)))) := by
  rw [zeroize,bind_assoc,on_read held]
  simp only [cString?_terminated clean]
  rw [on_write held]
  congr 4
  simp

end operations

/-- A text is overwritten and given back. -/
theorem giveBack_on {β : Type} {front back : CBlocks} {address : Address} {text : Bytes} (here : address = front.length)
    (clean : 0 ∉ text) (f : Unit → WithHeap β) :
    (zeroize address >>= fun _ => free address >>= f).on (front ++ .held (.text (text ++ [0])) :: back) =
      (f ()).on (front ++ .freed (.text (List.replicate (text.length + 1) 0)) :: back) := by
  subst here
  rw [zeroize_on clean (content?_middle _ _ _),List.set_append_right _ _ le_rfl,Nat.sub_self,List.set_cons_zero,
    on_free (content?_middle _ _ _),List.set_append_right _ _ le_rfl,Nat.sub_self,List.set_cons_zero]

/-- A pointer of an array is set. -/
theorem setPointer_on {β : Type} {front back : CBlocks} {entries : List (Option Address)} {index : Nat}
    (inside : index < entries.length) (value : Option Address) (f : Unit → WithHeap β) :
    (writePointer front.length index value >>= f).on (front ++ .held (.pointers entries) :: back) =
      (f ()).on (front ++ .held (.pointers (entries.set index value)) :: back) := by
  rw [writePointer_on (content?_middle _ _ _) inside,List.set_append_right _ _ le_rfl,Nat.sub_self,List.set_cons_zero]

theorem wiped_snoc_none (gone : List (Option Bytes)) : wiped (gone ++ [none]) = wiped gone := by
  rw [wiped,List.reduceOption_append,List.reduceOption_cons_of_none,List.reduceOption_nil,List.append_nil]
  rfl

theorem wiped_snoc_some (gone : List (Option Bytes)) (text : Bytes) :
    wiped (gone ++ [some text]) = wiped gone ++ [.freed (.text (List.replicate (text.length + 1) 0))] := by
  rw [wiped,List.reduceOption_append,List.reduceOption_cons_of_some,List.reduceOption_nil,List.map_append]
  rfl

theorem texts_some (text : Bytes) (left : List (Option Bytes)) :
    texts (some text :: left) = .held (.text (text ++ [0])) :: texts left := by
  rw [texts,List.reduceOption_cons_of_some]
  rfl

theorem clearResponse_on {β : Type} (blocks : CBlocks) (gone left : List (Option Bytes)) {answer : Option Bytes}
    (clean : ∀ text, answer = some text → 0 ∉ text) (f : Unit → WithHeap β) :
    (PamResponses.clearResponse blocks.length gone.length >>= f).on (dropping blocks gone (answer :: left)) =
      (f ()).on (dropping blocks (gone ++ [answer]) left) := by
  rw [PamResponses.clearResponse,bind_assoc,dropping]
  cases answer with
  | none =>
    have here : (List.replicate gone.length none ++ place (blocks.length + 1 + (wiped gone).length) (none :: left))[gone.length]? =
        some none := by simp [place]
    rw [readPointer_on (content?_middle _ _ _) here]
    simp only [pure_bind]
    rw [dropping,wiped_snoc_none,List.length_append,List.length_singleton,List.replicate_succ']
    simp [place,texts]
  | some text =>
    have here : (List.replicate gone.length none ++
        place (blocks.length + 1 + (wiped gone).length) (some text :: left))[gone.length]? =
        some (some (blocks.length + 1 + (wiped gone).length)) := by simp [place]
    rw [readPointer_on (content?_middle _ _ _) here]
    simp only [bind_assoc]
    let before : CBlocks := blocks ++ .held (.pointers (List.replicate gone.length none ++
      place (blocks.length + 1 + (wiped gone).length) (some text :: left))) :: wiped gone
    have next : blocks.length + 1 + (wiped gone).length = before.length := by
      simp only [before,List.length_append,List.length_cons]
      rw [Nat.add_assoc,Nat.add_comm 1]
    have given := @giveBack_on β before (texts left) _ text next (clean text rfl) fun _ =>
      writePointer blocks.length gone.length none >>= f
    rw [List.append_assoc,List.append_assoc,List.cons_append,List.cons_append] at given
    rw [texts_some,given,setPointer_on (by simp [place]),dropping,wiped_snoc_some]
    congr 1
    simp [place,List.replicate_succ',Nat.add_assoc]

theorem clearResponses_on {β : Type} (blocks : CBlocks) (gone left : List (Option Bytes)) (clean : CStrings left)
    (f : Unit → WithHeap β) :
    (PamResponses.clearResponses blocks.length (List.range' gone.length left.length) >>= f).on (dropping blocks gone left) =
      (f ()).on (dropping blocks (gone ++ left) []) := by
  induction left generalizing gone with
  | nil => rw [List.append_nil]; rfl
  | cons answer left ih =>
    rw [List.length_cons,List.range'_succ,PamResponses.clearResponses,bind_assoc,
      clearResponse_on _ _ _ fun text same => clean text (by simp [same])]
    have later := ih (gone ++ [answer]) fun text member => clean text (List.mem_cons_of_mem _ member)
    rwa [List.length_append,List.length_singleton,List.append_assoc] at later

theorem drop_on {β : Type} (blocks : CBlocks) (answers : List (Option Bytes)) (clean : CStrings answers)
    (f : Unit → WithHeap β) :
    ((PamResponses.mk (some blocks.length) answers.length).drop >>= f).on (laid blocks answers) =
      (f ()).on (cleared blocks answers) := by
  have all := clearResponses_on blocks [] answers clean fun _ => free blocks.length >>= f
  rw [List.length_nil,← List.range_eq_range',List.nil_append] at all
  rw [PamResponses.drop,bind_assoc,laid,all,dropping,on_free (content?_middle _ _ _),List.set_append_right _ _ le_rfl,
    Nat.sub_self,List.set_cons_zero]
  simp [cleared,texts,place]

theorem place_append (first : Address) (answers more : List (Option Bytes)) :
    place first (answers ++ more) = place first answers ++ place (first + (texts answers).length) more := by
  induction answers generalizing first with
  | nil => rfl
  | cons answer answers ih =>
    cases answer with
    | none => exact congrArg (none :: ·) (ih first)
    | some text =>
      rw [texts_some,List.length_cons,Nat.add_comm _ 1,← Nat.add_assoc]
      exact congrArg (some first :: ·) (ih (first + 1))

theorem place_replicate (first : Address) (n : Nat) : place first (List.replicate n none) = List.replicate n none := by
  induction n with
  | zero => rfl
  | succ n ih => exact congrArg (none :: ·) ih

theorem place_length (first : Address) (answers : List (Option Bytes)) : (place first answers).length = answers.length := by
  induction answers generalizing first with
  | nil => rfl
  | cons answer answers ih => cases answer <;> simp [place,ih]

theorem laid_append (blocks : CBlocks) (answers : List (Option Bytes)) (n : Nat) :
    laid blocks (answers ++ List.replicate n none) = blocks ++
      .held (.pointers (place (blocks.length + 1) answers ++ List.replicate n none)) :: texts answers := by
  have same : texts (answers ++ List.replicate n none) = texts answers := by
    rw [texts,List.reduceOption_append,List.reduceOption_replicate_none,List.append_nil]
    rfl
  rw [laid,dropping,same,place_append,place_replicate]
  rfl

/-- A copied text becomes the next response. -/
theorem setResp_on {β : Type} (blocks : CBlocks) (answers : List (Option Bytes)) (left count : Nat) (text : Bytes)
    (f : Unit → WithHeap β) :
    ((PamResponses.mk (some blocks.length) count).setResp answers.length
        (laid blocks (answers ++ List.replicate (left+1) none)).length >>= f).on
        (laid blocks (answers ++ List.replicate (left+1) none) ++ [.held (.text (text ++ [0]))]) =
      (f ()).on (laid blocks ((answers ++ [some text]) ++ List.replicate left none)) := by
  rw [laid_append,laid_append,PamResponses.setResp]
  dsimp only
  rw [List.append_assoc,List.cons_append,setPointer_on (by simp [place_length])]
  have added : texts (answers ++ [some text]) = texts answers ++ [.held (.text (text ++ [0]))] := by
    rw [texts,List.reduceOption_append,List.reduceOption_cons_of_some,List.reduceOption_nil,List.map_append]
    rfl
  rw [added,place_append]
  congr 5
  rw [List.set_append_right _ _ (by simp [place_length]),place_length,Nat.sub_self,List.replicate_succ,List.set_cons_zero]
  simp [place,Nat.add_assoc,Nat.add_comm,Nat.add_left_comm]

section conversation
variable {callback : Conversation}

/-- How one message ends, seen in memory and without it: the next response is there, or the
conversation stops with those it has. -/
inductive Stepped (blocks : CBlocks) (answers : List (Option Bytes)) (left : Nat) :
    Option (Ended × CBlocks) → Pam.Replied → Prop
  | answered (answer : Option Bytes) (clean : ∀ text, answer = some text → 0 ∉ text) :
      Stepped blocks answers left (some (some (.ok ()),laid blocks ((answers ++ [answer]) ++ List.replicate left none)))
        (some (.ok answer))
  | returned (code : UInt32) :
      Stepped blocks answers left (some (some (.error code),laid blocks (answers ++ List.replicate (left+1) none)))
        (some (.error code))
  | panicked : Stepped blocks answers left (some (none,laid blocks (answers ++ List.replicate (left+1) none))) none

variable (blocks : CBlocks) (answers : List (Option Bytes)) (left : Nat)

theorem convFailure_stepped (text : String) : Coupled Same (Stepped blocks answers left)
    ((convFailure text).on (laid blocks (answers ++ List.replicate (left+1) none))) (Pam.convFailure text) := by
  rw [convFailure,on_call]
  exact .same _ fun _ => .done (.returned _)

theorem callbackError_stepped (error : Error) : Coupled Same (Stepped blocks answers left)
    ((do return some (.error (← call (Pam.callbackError error))) : WithHeap Ended).on
      (laid blocks (answers ++ List.replicate (left+1) none)))
    (do return some (.error (← Pam.callbackError error))) := by
  rw [on_call]
  exact .same _ fun code => .done (.returned code)

/-- With no response of its own a message leaves the array as it is. -/
theorem told_laid : laid blocks (answers ++ List.replicate (left+1) none) =
    laid blocks ((answers ++ [none]) ++ List.replicate left none) := by
  rw [List.replicate_succ,List.append_assoc]
  rfl

theorem convText_stepped (shown : Calls (Option (Except Error Unit))) : Coupled Same (Stepped blocks answers left)
    ((convText shown).on (laid blocks (answers ++ List.replicate (left+1) none))) (Pam.convText shown) := by
  rw [convText,on_call]
  refine .same _ fun result => ?_
  rcases result with _ | error | _
  · exact .done .panicked
  · exact callbackError_stepped blocks answers left error
  · rw [told_laid]
    exact .done (.answered none fun _ absurd => by cases absurd)

theorem cText_clean (answer : String) : 0 ∉ Pam.cText answer := by
  intro member
  have inside := List.mem_takeWhile_imp member
  simp at inside

theorem cString?_answer (answer : String) : cString? (encode answer ++ [0]) = some (Pam.cText answer) := by
  rw [cString?,if_pos (by simp),Pam.cText]
  congr 1
  induction encode answer with
  | nil => rfl
  | cons byte bytes ih => simp only [List.cons_append,List.takeWhile_cons,ih]

theorem convPrompt_stepped (style : UInt32) (message : String) : Coupled Same (Stepped blocks answers left)
    ((convPrompt callback ⟨some blocks.length,answers.length + (left+1)⟩ answers.length style message).on
      (laid blocks (answers ++ List.replicate (left+1) none)))
    (Pam.convPrompt callback style message) := by
  rw [convPrompt,on_call]
  refine .same _ fun result => ?_
  rcases result with _ | error | answer
  · exact .done .panicked
  · exact callbackError_stepped blocks answers left error
  · simp only [strdup,cString?_answer,bind_assoc]
    rw [on_call]
    refine .same _ fun copied => ?_
    cases copied with
    | error error => exact .answered fun _ => .done (.returned _)
    | ok =>
      simp only [bind_assoc,pure_bind]
      rw [on_alloc,setResp_on]
      exact .done (.answered (some (Pam.cText answer)) fun text same => by cases same; exact cText_clean answer)

theorem convMessage_stepped (message : Option PamMessage) : Coupled Same (Stepped blocks answers left)
    ((convMessage callback ⟨some blocks.length,answers.length + (left+1)⟩ answers.length message).on
      (laid blocks (answers ++ List.replicate (left+1) none)))
    (Pam.convMessage callback message) := by
  rcases message with _ | ⟨style,_ | bytes⟩
  · exact convFailure_stepped blocks answers left _
  · exact convFailure_stepped blocks answers left _
  · rw [convMessage,Pam.convMessage]
    cases decode bytes with
    | none =>
      dsimp only
      rw [on_call]
      exact .same _ fun _ => .done (.returned _)
    | some text =>
      dsimp only
      split
      · exact convPrompt_stepped blocks answers left style text
      · split
        · exact convText_stepped blocks answers left _
        · split
          · exact convText_stepped blocks answers left _
          · exact convFailure_stepped blocks answers left _

/-- How the messages end: with the array full, or before that with what it holds by then. -/
inductive Settled (blocks : CBlocks) (count : Nat) : Option (Ended × CBlocks) → Option PamReply → Prop
  | completed (answers : List (Option Bytes)) (size : answers.length = count) (clean : CStrings answers) :
      Settled blocks count (some (some (.ok ()),laid blocks answers)) (some ⟨Pam.success,some answers⟩)
  | returned (answers : List (Option Bytes)) (size : answers.length = count) (clean : CStrings answers) (code : UInt32) :
      Settled blocks count (some (some (.error code),laid blocks answers)) (some ⟨code,none⟩)
  | panicked (answers : List (Option Bytes)) : Settled blocks count (some (none,laid blocks answers)) none

theorem CStrings.replicate {answers : List (Option Bytes)} (clean : CStrings answers) (n : Nat) :
    CStrings (answers ++ List.replicate n none) := by
  intro text member
  rcases List.mem_append.mp member with early | late
  · exact clean text early
  · cases (List.mem_replicate.mp late).2

theorem CStrings.snoc {answers : List (Option Bytes)} (clean : CStrings answers) {answer : Option Bytes}
    (last : ∀ text, answer = some text → 0 ∉ text) : CStrings (answers ++ [answer]) := by
  intro text member
  rcases List.mem_append.mp member with early | late
  · exact clean text early
  · exact last text (List.mem_singleton.mp late).symm

theorem convMessages_settled (messages : List (Option PamMessage)) {answers : List (Option Bytes)} (clean : CStrings answers) :
    Coupled Same (Settled blocks (answers.length + messages.length))
      ((convMessages callback ⟨some blocks.length,answers.length + messages.length⟩ answers.length messages).on
        (laid blocks (answers ++ List.replicate messages.length none)))
      (Pam.convMessages callback messages answers) := by
  induction messages generalizing answers with
  | nil =>
    rw [List.length_nil,List.replicate_zero,List.append_nil]
    exact .done (.completed answers rfl clean)
  | cons message messages ih =>
    have size : (answers ++ List.replicate (messages.length + 1) none).length = answers.length + (messages.length + 1) := by simp
    rw [convMessages,on_bind]
    refine (convMessage_stepped blocks answers messages.length message).bind fun out result stepped => ?_
    cases stepped with
    | answered answer last =>
      have rest := ih (clean.snoc last)
      rw [List.length_append,List.length_singleton,Nat.add_assoc,Nat.add_comm 1] at rest
      exact rest
    | returned code => exact .done (.returned _ size (clean.replicate _) code)
    | panicked => exact .done (.panicked _)

/-- Memory with nothing yet in the place for the array. -/
def emptied (resp : Address) : CBlocks := blocks.set resp (.held (.pointers [none]))

/-- The ends of a conversation. -/
inductive Conversed (resp : Address) (count : Nat) : Option (Option UInt32 × CBlocks) → Option PamReply → Prop
  | rejected : Conversed resp count (some (some Pam.convErr,blocks)) (some ⟨Pam.convErr,none⟩)
  | unallocated (inside : resp < blocks.length) :
      Conversed resp count (some (some Pam.bufErr,emptied blocks resp)) (some ⟨Pam.bufErr,none⟩)
  | aborted (inside : resp < blocks.length) (answers : List (Option Bytes)) :
      Conversed resp count (some (none,laid (emptied blocks resp) answers)) none
  | handedOver (inside : resp < blocks.length) (answers : List (Option Bytes)) (size : answers.length = count)
      (clean : CStrings answers) : Conversed resp count (some (some Pam.success,(laid (emptied blocks resp) answers).set resp
        (.held (.pointers [some (emptied blocks resp).length])))) (some ⟨Pam.success,some answers⟩)
  | cleared (inside : resp < blocks.length) (answers : List (Option Bytes)) (size : answers.length = count) (code : UInt32) :
      Conversed resp count (some (some code,cleared (emptied blocks resp) answers)) (some ⟨code,none⟩)

variable {blocks}

theorem transferTo_on {resp : Address} (inside : resp < blocks.length) (answers : List (Option Bytes)) (count : Nat) :
    ((PamResponses.mk (some (emptied blocks resp).length) count).transferTo resp >>= fun _ => pure (some Pam.success)).on
        (laid (emptied blocks resp) answers) =
      .done (some (some Pam.success,(laid (emptied blocks resp) answers).set resp
        (.held (.pointers [some (emptied blocks resp).length])))) := by
  have inside' : resp < (emptied blocks resp).length := by rwa [emptied,List.length_set]
  have held : Blocks.content? (laid (emptied blocks resp) answers) resp = some (.pointers [none]) := by
    rw [laid,dropping,content?_append inside']
    exact content?_set inside _
  rw [PamResponses.transferTo,bind_assoc,writePointer_on held (by simp)]
  rfl

theorem convProcess_conversed (callback : Conversation) (request : PamRequest) {resp : Address}
    (room : request.hasResp = true → ∃ old, blocks.content? resp = some (.pointers [old])) :
    Coupled Same (Conversed blocks resp request.numMsg.toNat) ((convProcess callback request resp).on blocks)
      (Pam.convProcess callback request) := by
  rw [convProcess,Pam.convProcess]
  cases request.messages with
  | none => exact .done .rejected
  | some messages =>
    dsimp only
    split
    · exact .done .rejected
    · next fine =>
      obtain ⟨old,held⟩ := room (by by_contra absent; exact fine (.inr (.inr (by simpa using absent))))
      have inside := content?_lt held
      rw [writePointer_on held (by simp)]
      change Coupled _ _ (on _ (emptied blocks resp)) _
      rw [PamResponses.new,bind_assoc,on_call]
      refine .same _ fun allocated => ?_
      cases allocated with
      | error error => exact .answered fun _ => .done (.unallocated inside)
      | ok =>
        simp only [bind_assoc,pure_bind]
        rw [on_alloc,on_bind]
        have unanswered : CStrings [] := by simp [CStrings]
        have settled := @convMessages_settled callback (emptied blocks resp)
          ((List.range request.numMsg.toNat).map fun i => (messages[i]?).join) [] unanswered
        rw [laid_append,List.length_map,List.length_range,List.length_nil,Nat.zero_add] at settled
        rw [← Program.bind_done (Pam.convMessages _ _ _)]
        refine settled.bind fun out reply ended => ?_
        cases ended with
        | completed answers size clean =>
          dsimp only [andThen]
          rw [transferTo_on inside]
          exact .done (.handedOver inside answers size clean)
        | returned answers size clean code =>
          dsimp only [andThen]
          rw [← size,drop_on _ _ clean]
          exact .done (.cleared inside answers rfl code)
        | panicked answers => exact .done (.aborted inside answers)

end conversation

/-- The blocks handed out in the meantime. -/
def Fresh (blocks after : CBlocks) (address : Address) : Prop := blocks.length ≤ address ∧ address < after.length

/-- A response is null where there is no answer, and points to its text where there is one. -/
def Points (after : CBlocks) : Option Address → Option Bytes → Prop
  | none,none => True
  | some address,some text => after.content? address = some (.text (text ++ [0])) ∧ 0 ∉ text
  | _,_ => False

/-- The array and what it points to are all the memory there is anew. -/
structure Owns (blocks after : CBlocks) (array : Address) (entries : List (Option Address)) (answers : List (Option Bytes)) : Prop where
  held : after.content? array = some (.pointers entries)
  points : List.Forall₂ (Points after) entries answers
  distinct : (array :: entries.reduceOption).Nodup
  all : ∀ address, Fresh blocks after address ↔ address ∈ array :: entries.reduceOption

def Blank : CData → Prop
  | .text bytes => ∀ byte ∈ bytes, byte = 0
  | .pointers entries => ∀ entry ∈ entries, entry = none

/-- Whose the new memory is. The library owns what it got in `resp`; else all of it was
given back, with nothing left in it. -/
inductive Accounted (blocks : CBlocks) (resp : Address) (count : Nat) (after : CBlocks) : Option (List (Option Bytes)) → Prop
  | handedOver {array : Address} {entries : List (Option Address)} {answers : List (Option Bytes)}
      (owns : Owns blocks after array entries answers) (size : entries.length = count)
      (placed : after.content? resp = some (.pointers [some array])) : Accounted blocks resp count after (some answers)
  | givenBack (freed : ∀ address, Fresh blocks after address → ∃ last, after[address]? = some (.freed last) ∧ Blank last)
      (placed : after = blocks ∨ after.content? resp = some (.pointers [none])) : Accounted blocks resp count after none

def Untouched (blocks : CBlocks) (resp : Address) (after : CBlocks) : Prop :=
  ∀ address < blocks.length, address ≠ resp → after[address]? = blocks[address]?

theorem place_addresses (first : Address) (answers : List (Option Bytes)) :
    (place first answers).reduceOption = List.range' first (texts answers).length := by
  induction answers generalizing first with
  | nil => rfl
  | cons answer answers ih =>
    cases answer with
    | none => exact ih first
    | some text =>
      rw [texts_some,List.length_cons,List.range'_succ,place,List.reduceOption_cons_of_some,ih]

theorem place_points (front : CBlocks) {answers : List (Option Bytes)} (clean : CStrings answers) :
    List.Forall₂ (Points (front ++ texts answers)) (place front.length answers) answers := by
  induction answers generalizing front with
  | nil => exact .nil
  | cons answer answers ih =>
    have rest : CStrings answers := fun text member => clean text (List.mem_cons_of_mem _ member)
    cases answer with
    | none => exact .cons trivial (ih front rest)
    | some text =>
      have later := ih (front ++ [.held (.text (text ++ [0]))]) rest
      rw [List.length_append,List.length_singleton,List.append_assoc,List.singleton_append,← texts_some] at later
      refine .cons ⟨?_,clean text List.mem_cons_self⟩ later
      rw [texts_some]
      exact content?_middle _ _ _

section accounts
variable {blocks : CBlocks} {resp : Address} (inside : resp < blocks.length)
include inside

theorem handedOver_accounted {answers : List (Option Bytes)} (clean : CStrings answers) :
    Accounted blocks resp answers.length ((laid (emptied blocks resp) answers).set resp
      (.held (.pointers [some (emptied blocks resp).length]))) (some answers) := by
  have size : (emptied blocks resp).length = blocks.length := List.length_set
  have inside' : resp < (emptied blocks resp).length := size.symm ▸ inside
  generalize filled : (emptied blocks resp).set resp (.held (.pointers [some (emptied blocks resp).length])) = front
  have long : front.length = blocks.length := by rw [← filled,List.length_set,size]
  have same : (laid (emptied blocks resp) answers).set resp (.held (.pointers [some (emptied blocks resp).length])) =
      (front ++ [.held (.pointers (place (front.length + 1) answers))]) ++ texts answers := by
    rw [laid,dropping,List.set_append_left _ _ inside',filled,long,size,List.append_assoc]
    rfl
  have points := place_points (front ++ [.held (.pointers (place (front.length + 1) answers))]) clean
  rw [List.length_append,List.length_singleton] at points
  rw [same]
  refine @Accounted.handedOver _ _ _ _ front.length _ _ ⟨?_,points,?_,fun address => ?_⟩ (place_length _ _) ?_
  · rw [List.append_assoc]
    exact content?_middle _ _ _
  · rw [place_addresses,← List.range'_succ]
    exact List.nodup_range'
  · rw [place_addresses,← List.range'_succ,List.mem_range'_1,Fresh,List.length_append,List.length_append,long,
      List.length_singleton,Nat.add_assoc,Nat.add_comm 1]
  · rw [List.append_assoc,content?_append (long.symm ▸ inside),← filled,content?_set inside',filled,long,size]

theorem cleared_accounted (answers : List (Option Bytes)) :
    Accounted blocks resp answers.length (cleared (emptied blocks resp) answers) none := by
  have size : (emptied blocks resp).length = blocks.length := List.length_set
  refine .givenBack (fun address new => ?_) (.inr ?_)
  · have blank : ∀ block ∈ .freed (.pointers (List.replicate answers.length none)) :: wiped answers,
        ∃ last, block = .freed last ∧ Blank last := by
      intro block member
      rcases List.mem_cons.mp member with rfl | member
      · exact ⟨_,rfl,fun entry inside => (List.mem_replicate.mp inside).2⟩
      · obtain ⟨text,_,rfl⟩ := List.mem_map.mp member
        exact ⟨_,rfl,fun byte inside => (List.mem_replicate.mp inside).2⟩
    obtain ⟨late,early⟩ := new
    rw [cleared,List.length_append] at early
    have behind := @List.getElem?_append_right _ (emptied blocks resp)
      (.freed (.pointers (List.replicate answers.length none)) :: wiped answers) _ (size.symm ▸ late)
    have there : address - (emptied blocks resp).length <
        (.freed (.pointers (List.replicate answers.length none)) :: wiped answers).length :=
      Nat.sub_lt_left_of_lt_add (size.symm ▸ late) early
    obtain ⟨last,same,empty⟩ := blank _ (List.getElem_mem there)
    exact ⟨last,by rw [cleared,behind,List.getElem?_eq_getElem there,same],empty⟩
  · rw [cleared,content?_append (size.symm ▸ inside)]
    exact content?_set inside _

end accounts

theorem Conversed.accounted {blocks : CBlocks} {resp : Address} {count : Nat} {out : Option (Option UInt32 × CBlocks)}
    {outcome : Option PamReply} (ended : Conversed blocks resp count out outcome) :
    ∃ after, out = some (outcome.map PamReply.code,after) ∧ Untouched blocks resp after ∧
      ∀ reply, outcome = some reply → Accounted blocks resp count after reply.responses := by
  have size : (emptied blocks resp).length = blocks.length := List.length_set
  have kept : Untouched blocks resp (emptied blocks resp) := fun address _ other => List.getElem?_set_ne other.symm
  have grown (more : CBlocks) : Untouched blocks resp (emptied blocks resp ++ more) := fun address early other => by
    rw [List.getElem?_append_left (size.symm ▸ early),kept address early other]
  cases ended with
  | rejected =>
    refine ⟨_,rfl,fun _ _ _ => rfl,fun _ same => ?_⟩
    cases same
    exact .givenBack (fun address new => absurd new.2 (Nat.not_lt.mpr new.1)) (.inl rfl)
  | unallocated inside =>
    refine ⟨_,rfl,kept,fun _ same => ?_⟩
    cases same
    exact .givenBack (fun address new => absurd (size ▸ new.2) (Nat.not_lt.mpr new.1)) (.inr (content?_set inside _))
  | aborted inside answers => exact ⟨_,rfl,grown _,fun _ absurd => by cases absurd⟩
  | handedOver inside answers full clean =>
    refine ⟨_,rfl,fun address early other => ?_,fun _ same => ?_⟩
    · rw [List.getElem?_set_ne other.symm]
      exact grown _ address early other
    · cases same
      exact full ▸ handedOver_accounted inside clean
  | cleared inside answers full code =>
    refine ⟨_,rfl,grown _,fun _ same => ?_⟩
    cases same
    exact full ▸ cleared_accounted inside answers

end WithHeap

/-- In every run a conversation uses memory only as it may, and it is, call for call, the
conversation of the model without memory. Unless a callback panics, which aborts the process,
what it has allocated is in the end the library's, as the array and the texts it answers with,
or has been overwritten and given back. -/
theorem conversation_memory (callback : Conversation) (request : PamRequest) (blocks : CBlocks) (resp : Address)
    (room : request.hasResp = true → ∃ old, blocks.content? resp = some (.pointers [old])) :
    (∀ t out, Trace ((convWrap callback request resp).on blocks) t out →
      ∃ after outcome, out = some (outcome.map PamReply.code,after) ∧
        Trace (Pam.convProcess callback request) t outcome ∧ Untouched blocks resp after ∧
        ∀ reply, outcome = some reply → Accounted blocks resp request.numMsg.toNat after reply.responses) ∧
    ∀ t outcome, Trace (Pam.convProcess callback request) t outcome →
      ∃ out, Trace ((convWrap callback request resp).on blocks) t out := by
  have coupled := convProcess_conversed callback request room
  refine ⟨fun t out run => ?_,fun t outcome run => ?_⟩
  · obtain ⟨outcome,same,ended⟩ := coupled.trace run (Coupled.same_refl t)
    obtain ⟨after,rfl,kept,accounted⟩ := ended.accounted
    exact ⟨after,outcome,rfl,same,kept,accounted⟩
  · obtain ⟨out,same,_⟩ := coupled.trace_back run (Coupled.same_refl t)
    exact ⟨out,same⟩

private def passwordRequest : PamRequest :=
  ⟨2,some [some ⟨Pam.promptEchoOff,some (encode "Password: ")⟩,some ⟨Pam.textInfo,some (encode "hello")⟩],true⟩

private def passwordRecord : List (Exchange Call Answer) :=
  [⟨.calloc 2,.ok ()⟩,⟨.askPassword "Password: " (RunFlags.none.union .promptHide),.ok "pw"⟩,⟨.strdup (encode "pw"),.ok ()⟩,
    ⟨.print "PAM info: hello",()⟩]

private def answeredBlocks : CBlocks :=
  [.held (.pointers [some 1]),.held (.pointers [some 2,none]),.held (.text (encode "pw" ++ [0]))]

theorem conversation_memory_answered :
    Trace ((convWrap (Conv .none) passwordRequest 0).on [.held (.pointers [none])]) passwordRecord
      (some (some 0,answeredBlocks)) ∧
      ∃ reply, Trace (Pam.convProcess (Conv .none) passwordRequest) passwordRecord (some reply) ∧
        Accounted [.held (.pointers [none])] 0 2 answeredBlocks reply.responses := by
  have run : Trace ((convWrap (Conv .none) passwordRequest 0).on [.held (.pointers [none])]) passwordRecord
      (some (some 0,answeredBlocks)) := replay_sound 40 (by decide +kernel)
  obtain ⟨after,outcome,same,plain,_,accounted⟩ := (conversation_memory (Conv .none) passwordRequest
    [.held (.pointers [none])] 0 fun _ => ⟨none,rfl⟩).1 _ _ run
  obtain ⟨code,rfl⟩ := Prod.mk.inj (Option.some.inj same)
  obtain ⟨reply,rfl,_⟩ := Option.map_eq_some_iff.mp code.symm
  exact ⟨run,reply,plain,accounted reply rfl⟩

end Runas
