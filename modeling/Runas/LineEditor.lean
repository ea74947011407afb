import Runas.Console

/-! The line at the prompt as an editor without a limit has it, and as the one who types it
has it: character by character. -/
namespace Runas
open Interaction Text Editing

def edited (hidden : Bool) (keys : Bytes) : Bytes := pressed (keys.map (stroke hidden))

/-- The row of the display from where the echo begins: what is left of the cursor, from the
right, and what is at it and after it. -/
structure Row where
  before : Bytes
  after : Bytes

def Row.put (row : Row) (b : UInt8) : Row :=
  if b = 8 then match row.before with
    | [] => row
    | c :: before => ⟨before,c :: row.after⟩
  else ⟨b :: row.before,row.after.tail⟩

def stars (echo : Bytes) : Nat :=
  let row := echo.foldl Row.put ⟨[],[]⟩
  (row.before ++ row.after).count 42

section
variable {keys : Bytes}

private theorem struck_edited (hidden : Bool) (few : keys.length ≤ maxHeld) :
    (struck hidden keys).text = edited hidden keys := by
  rw [struck_text,foldl_pressWithin (by simpa using few)]
  rfl

/-- The echo leaves as many stars as the text has bytes, and blanks after them. -/
private theorem row_echo (few : keys.length ≤ maxHeld) : ∃ blanks,(struck true keys).echo.foldl Row.put ⟨[],[]⟩ =
    ⟨List.replicate (edited true keys).length 42,List.replicate blanks 32⟩ := by
  induction keys using List.reverseRecOn with
  | nil => exact ⟨0,rfl⟩
  | append_singleton keys b ih =>
    have fewer : keys.length ≤ maxHeld := by simp at few; omega
    obtain ⟨blanks,row⟩ := ih fewer
    have text : (struck true keys).text = edited true keys := struck_edited true fewer
    have next : edited true (keys ++ [b]) = press (edited true keys) (stroke true b) := by
      simp [edited,pressed_append]
    rw [struck_concat,Struck.key,text,next]
    cases stroke true b with
    | put a =>
      refine ⟨blanks - 1,?_⟩
      simp [row,Row.put,press,List.replicate_succ]
    | erase =>
      rcases List.eq_nil_or_concat (edited true keys) with empty | ⟨before,a,split⟩
      · exact ⟨blanks,by simp [row,empty,press]⟩
      · exact ⟨blanks + 1,by simp [row,split,press,erase,Row.put,List.replicate_succ]⟩

theorem stars_echo (few : keys.length ≤ maxHeld) : stars (struck true keys).echo = (edited true keys).length := by
  obtain ⟨blanks,row⟩ := row_echo few
  simp [stars,row,List.count_replicate]

end

theorem editRound_bound (prompt : Prompt) (signals : SignalReceiver) (useStdin hide : Bool) {line : Line}
    (fits : line.buffer.length ≤ maxInputLen) : Fallible.Yields (fun _ => True) (editRound prompt signals useStdin hide line)
      (Sum.elim (fun next => next.buffer.length ≤ maxInputLen) fun last => last.buffer.length ≤ maxInputLen) := by
  have pushed (b : UInt8) : (line.push b).buffer.length ≤ maxInputLen := by
    unfold Line.push
    split
    · simp; omega
    · split <;> exact fits
  have shorter : line.buffer.dropLast.length ≤ maxInputLen := by simp; omega
  have after (shows : Calls Unit) {next : Line} (small : next.buffer.length ≤ maxInputLen) :
      Fallible.Yields (fun _ => True) (liftM shows >>= fun _ : Unit => (pure (.inl next) : M (Line ⊕ Line)))
        (Sum.elim (fun next => next.buffer.length ≤ maxInputLen) fun last => last.buffer.length ≤ maxInputLen) := by
    rw [Fallible.yields_bind]
    exact (Fallible.Yields.true _).mono fun _ _ => (Fallible.yields_pure _ _).mpr small
  unfold editRound
  rw [Fallible.yields_bind]
  refine (Fallible.Yields.true _).mono fun read _ => ?_
  split
  · exact (Fallible.yields_pure _ _).mpr fits
  · split
    · exact (Fallible.yields_pure _ _).mpr fits
    · split
      · split
        · exact after _ fits
        · split
          · exact after _ shorter
          · exact (Fallible.yields_pure _ _).mpr fits
      · split
        · exact after _ (pushed _)
        · exact (Fallible.yields_pure _ _).mpr (pushed _)
  · rw [Fallible.yields_bind]
    refine (Fallible.Yields.true _).mono fun event _ => ?_
    split
    · exact (Fallible.yields_pure _ _).mpr fits
    · split
      · exact (Fallible.yields_throw _ _).mpr trivial
      · exact (Fallible.yields_throw _ _).mpr trivial

/-- At every point of the loop, whatever the system answers, the buffer is within its limit. -/
theorem edit_bounded {K : Type} (step : K → (event : Call) → Answer event → K → Prop) (prompt : Prompt)
    (signals : SignalReceiver) (useStdin hide : Bool) {k k' : K} {line : Line}
    (rounds : Rounds step (editRound prompt signals useStdin hide) ⟨[],0⟩ k line k') : line.buffer.length ≤ maxInputLen :=
  rounds.invariant (I := fun line => line.buffer.length ≤ maxInputLen) (Nat.zero_le _)
    fun _ fits => editRound_bound prompt signals useStdin hide fits

/-- With fewer than 2^64 bytes to come and no signals, the prompt is the unlimited editor: it takes
what comes up to the first line ending, returns the text when it is short enough and is UTF-8, and
has shown a star for each of its bytes by the time of each read. -/
theorem launchPrompt_refines (msg : String) (flags : RunFlags) (opens : Bool) (bytes shown : Bytes)
    (few : bytes.length < 2^64) :
    Total (console (inputFd flags opens) opens) (fun out k' =>
      (∀ password,out = .ok password ↔ (edited (hides flags) (bytes.takeWhile (!isEnter ·))).length ≤ maxInputLen ∧
        decode (edited (hides flags) (bytes.takeWhile (!isEnter ·))) = some password) ∧
      k'.input = ((bytes.dropWhile (!isEnter ·)).drop 1).map .byte ∧
      k'.screens.length = (bytes.takeWhile (!isEnter ·)).length + 1 ∧
      (hides flags = true → ∀ i ≤ (bytes.takeWhile (!isEnter ·)).length,∃ echo,
        k'.screens[i]? = some (shown ++ promptShown msg ++ echo) ∧
        stars echo = (edited true ((bytes.takeWhile (!isEnter ·)).take i)).length))
      (launchPrompt msg flags).run ⟨bytes.map .byte,shown,[]⟩ ∧
    ∀ (K : Type) (step : K → (event : Call) → Answer event → K → Prop) prompt signals k line k',
      Rounds step (editRound prompt signals (flags.meets .authStdin) (flags.meets .promptHide)) ⟨[],0⟩ k line k' →
        line.buffer.length ≤ maxInputLen := by
  refine ⟨(launchPrompt_ends msg flags opens _).mono ?_,fun K step prompt signals k line k' => edit_bounded step prompt signals _ _⟩
  rintro out k' ⟨rfl,rest,screens⟩
  rw [typing_bytes] at rest screens ⊢
  have fits : (bytes.takeWhile (!isEnter ·)).length ≤ maxHeld := by
    have shorter := (List.takeWhile_prefix (!isEnter ·) (l := bytes)).length_le
    have sizes : maxHeld = maxInputLen + (2^64 - 1) := rfl
    omega
  refine ⟨fun password => ?_,rest,?_,fun hidden i inside => ?_⟩
  · rw [promptResult,struck_edited _ fits]
    exact lineResult_eq_ok
  · simp [screens,views,Typing.reads]
  · refine ⟨(struck true ((bytes.takeWhile (!isEnter ·)).take i)).echo,?_,stars_echo (by simp; omega)⟩
    have asked : flags.meets .authStdin = false := by simpa using (Bool.and_eq_true_iff.mp hidden).1
    have early : i < (bytes.takeWhile (!isEnter ·)).length + 1 := Nat.lt_succ_of_le inside
    rw [screens,hidden,asked]
    simp [views,Typing.reads,List.getElem?_range early]

theorem launchPrompt_refines_line : Total (console .tty true) (fun out _ => out = .ok "b")
    (launchPrompt "Password: " .promptHide).run ⟨[.byte 97,.byte 127,.byte 98,.byte 13],[],[]⟩ :=
  (launchPrompt_refines "Password: " .promptHide true [97,127,98,13] [] (by decide)).1.mono
    fun _ _ follows => (follows.1 "b").mpr (by decide)

/-! Characters, of one to four bytes each, and the two keys that delete. -/

inductive Key
  | char (c : Char)
  | backspace
  | delete
  deriving DecidableEq

namespace Key

def bytes : Key → Bytes
  | .char c => String.utf8EncodeChar c
  | .backspace => [8]
  | .delete => [127]

def stroke : Key → Stroke Char
  | .char c => .put c
  | .backspace | .delete => .erase

def text (keys : List Key) : String := String.ofList (pressed (keys.map stroke))

/-- How many bytes more than the text has are on the line: each character that is deleted leaves
all its bytes but one, and a key that deletes on an empty line takes one of them. -/
def left (keys : List Key) : Nat := (drafted String.utf8EncodeChar maxHeld (keys.map stroke)).left

end Key

def isControl (c : Char) : Bool := c.val < 32 || (127 ≤ c.val && c.val ≤ 159)

private theorem plain_byte {c : Char} (plain : isControl c = false) {b : UInt8} (member : b ∈ String.utf8EncodeChar c) :
    isEnter b = false ∧ stroke true b = .put b := by
  have differs (n : Nat) (control : n < 32 ∨ n = 127) : b ≠ UInt8.ofNat n := by
    rintro rfl
    have same := (mem_utf8EncodeChar (by omega) c).mp member
    have holds : isControl c = true := by
      simp only [isControl,UInt32.lt_iff_toNat_lt,UInt32.le_iff_toNat_le,same,Bool.or_eq_true,Bool.and_eq_true,decide_eq_true_eq]
      rcases control with low | rfl
      · exact .inl low
      · exact .inr (by decide)
    rw [plain] at holds
    cases holds
  have enters : b ≠ 13 ∧ b ≠ 10 := ⟨differs 13 (by omega),differs 10 (by omega)⟩
  have erases : b ≠ 127 ∧ b ≠ 8 := ⟨differs 127 (by omega),differs 8 (by omega)⟩
  exact ⟨by simp [isEnter,enters],by simp [stroke,erases]⟩

private theorem key_bytes {key : Key} (plain : ∀ c,key = .char c → isControl c = false) :
    (∀ b ∈ key.bytes,isEnter b = false) ∧
      key.bytes.map (stroke true) = spelled String.utf8EncodeChar key.stroke := by
  cases key with
  | char c =>
    have puts (b : UInt8) (member : b ∈ String.utf8EncodeChar c) := plain_byte (plain c rfl) member
    exact ⟨fun b member => (puts b member).1,List.map_congr_left fun b member => (puts b member).2⟩
  | backspace | delete => exact ⟨by simp [Key.bytes,isEnter],rfl⟩

/-- The prompt returns the text that is edited by characters if and only if no bytes of the
deleted ones are left on the line. -/
theorem backspace_undoes_iff (msg : String) (flags : RunFlags) (opens : Bool) (hidden : hides flags = true) (keys : List Key)
    (plain : ∀ c,.char c ∈ keys → isControl c = false)
    (short : ∀ before,before <+: keys → (encode (Key.text before)).length ≤ maxInputLen)
    (enter : UInt8) (ends : isEnter enter = true) (rest : List Arrival) (shown : Bytes) (screens : List Bytes) :
    Total (console (inputFd flags opens) opens) (fun out _ => out = .ok (Key.text keys)) (launchPrompt msg flags).run
      ⟨(keys.flatMap Key.bytes).map .byte ++ .byte enter :: rest,shown,screens⟩ ↔ Key.left keys = 0 := by
  have each (key : Key) (member : key ∈ keys) := @key_bytes key fun c same => plain c (same ▸ member)
  have line : ∀ b ∈ keys.flatMap Key.bytes,isEnter b = false := by
    intro b member
    obtain ⟨key,pressed,inside⟩ := List.mem_flatMap.mp member
    exact (each key pressed).1 b inside
  have strokes : (keys.flatMap Key.bytes).map (stroke true) =
      (keys.map Key.stroke).flatMap (spelled String.utf8EncodeChar) := by
    rw [List.map_flatMap,List.flatMap_map]
    exact List.flatMap_congr fun key member => (each key member).2
  have spells (before : List Key) : (pressed (before.map Key.stroke)).flatMap String.utf8EncodeChar = encode (Key.text before) := by
    simp [encode,Key.text]
  rw [launchPrompt_result,typing_line line ends rest,hidden,promptResult]
  dsimp only
  rw [lineResult_eq_ok,struck_text,strokes,decode_eq_some_iff,Key.left,← foldl_spelled_iff (fun _ => String.utf8EncodeChar_ne_nil),
    spells]
  · constructor
    · rintro ⟨_,same⟩
      exact same.symm
    · intro same
      exact ⟨same ▸ short keys List.prefix_rfl,same.symm⟩
  · intro before start
    rw [List.prefix_iff_eq_take.mp start,← List.map_take,spells]
    exact Nat.lt_of_le_of_lt (short _ (List.take_prefix _ _)) (by decide)

private theorem short_take {keys : List Key} (short : ∀ n ≤ keys.length,(encode (Key.text (keys.take n))).length ≤ maxInputLen)
    (before : List Key) (start : before <+: keys) : (encode (Key.text before)).length ≤ maxInputLen := by
  rw [List.prefix_iff_eq_take.mp start]
  exact short _ start.length_le

theorem backspace_undoes_letter : Total (console .tty true) (fun out _ => out = .ok "a") (launchPrompt "Password: " .promptHide).run
    ⟨[.byte 97,.byte 98,.byte 127,.byte 13],[],[]⟩ :=
  (backspace_undoes_iff "Password: " .promptHide true rfl [.char 'a',.char 'b',.delete] (by simp [isControl])
    (short_take (by decide)) 13 rfl [] [] []).mpr (by decide)

/-- One backspace after a letter of two bytes leaves a byte that is no text. -/
theorem backspace_leaves_byte : ¬ ∀ keys : List Key,(∀ c,.char c ∈ keys → isControl c = false) →
    (∀ before,before <+: keys → (encode (Key.text before)).length ≤ maxInputLen) →
      Total (console .tty true) (fun out _ => out = .ok (Key.text keys)) (launchPrompt "Password: " .promptHide).run
        ⟨(keys.flatMap Key.bytes).map .byte ++ [.byte 13],[],[]⟩ := by
  intro claimed
  have returned := claimed [.char 'é',.delete] (by simp [isControl]) (short_take (by decide))
  have result := (@launchPrompt_result "Password: " .promptHide true _ (· = .ok (Key.text [.char 'é',.delete]))).mp returned
  revert result
  decide

end Runas
