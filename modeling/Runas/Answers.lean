import Runas.Console

/-! Passwords from standard input: one answer after another from the same stream, and one that
signals interrupt. -/
namespace Runas
open Interaction Text Editing

/-- What `ask_password` takes of the input: the bytes before the last signal that comes within
the line, those after it, and what is left behind the line. -/
structure Taken where
  lost : Bytes
  kept : Bytes
  rest : List Arrival
  deriving DecidableEq

def taken (lost kept : Bytes) : List Arrival → Taken
  | [] => ⟨lost,kept,[]⟩
  | .signal _ :: rest => taken (lost ++ kept) [] rest
  | .byte b :: rest => if isEnter b then ⟨lost,kept,rest⟩ else taken lost (kept ++ [b]) rest

def content : List Arrival → Bytes
  | [] => []
  | .signal _ :: rest => content rest
  | .byte b :: rest => b :: content rest

/-- The password is asked of the terminal or of standard input, and not of a helper. -/
def Prompts (build : Build) (flags : RunFlags) : Prop := (build.withAskpassSupport && flags.contains .authAskpass) = false

section
variable {source : Fd} {opens : Bool} {k : Console}

/-- A prompt on the input takes all of the line, or goes on behind the signal. -/
private theorem taken_typing (lost kept : Bytes) (input : List Arrival) : taken lost kept input =
    if (typing input).signal = none then ⟨lost,kept ++ (typing input).keys,(typing input).rest⟩
    else taken (lost ++ kept ++ (typing input).keys) [] (typing input).rest := by
  induction input generalizing kept with
  | nil => simp [taken,typing]
  | cons arrival input ih =>
    cases arrival with
    | signal signal => simp [taken,typing]
    | byte b =>
      rw [taken,typing,ih]
      cases enter : isEnter b <;> simp

private theorem length_typing_rest {input : List Arrival} (interrupted : (typing input).signal ≠ none) :
    (typing input).rest.length < input.length := by
  induction input with
  | nil => exact absurd rfl interrupted
  | cons arrival input ih =>
    cases arrival with
    | signal signal => exact Nat.lt_succ_self _
    | byte b =>
      rw [typing] at interrupted ⊢
      cases enter : isEnter b with
      | true => simp [enter] at interrupted
      | false =>
        simp only [enter,Bool.false_eq_true,if_false] at interrupted ⊢
        exact Nat.lt_succ_of_lt (ih interrupted)

private theorem taken_delivered (lost : Bytes) (delivered : List Signal) (rest : List Arrival) :
    taken lost [] (delivered.map .signal ++ rest) = taken lost [] rest := by
  induction delivered generalizing lost with
  | nil => rfl
  | cons signal delivered ih =>
    rw [List.map_cons,List.cons_append,taken,List.append_nil,ih]

/-- The answer is the line as it is after the last signal. -/
theorem askPassword_ends {build : Build} (msg : String) {flags : RunFlags} (prompts : Prompts build flags) :
    Total (console (inputFd flags opens) opens) (fun out k' =>
        out = lineResult (struck (hides flags) (taken [] [] k.input).kept).text ∧ k'.input = (taken [] [] k.input).rest)
      (askPassword build msg flags).run k := by
  unfold askPassword
  rw [prompts,if_neg Bool.false_ne_true]
  refine Total.fallible_iterate (fun _ now => ∃ lost,taken [] [] k.input = taken lost [] now.input)
    (fun _ now => now.input.length) ⟨[],rfl⟩ fun _ now same => ?_
  obtain ⟨lost,same⟩ := same
  rw [same,taken_typing]
  refine .fallible_bind (.lift ((launchPrompt_ends msg flags opens now).mono ?_))
  rintro out k' ⟨rfl,rest,_⟩
  unfold promptResult
  cases interrupted : (typing now.input).signal with
  | none =>
    rw [if_pos rfl,List.nil_append]
    dsimp only
    generalize (struck (hides flags) (typing now.input).keys).text = text
    unfold lineResult
    by_cases long : maxInputLen < text.length
    · rw [if_pos long]
      exact .done ⟨rfl,rest⟩
    · rw [if_neg long]
      cases decode text with
      | none | some _ => exact .done ⟨rfl,rest⟩
  | some signal =>
    refine .fallible_bind (.lift (.call ⟨.ok (),k',[],k'.input,rfl,rfl⟩ ?_))
    rintro answer after ⟨delivered,left,split,rfl⟩
    have shorter : (typing now.input).rest.length < now.input.length := length_typing_rest (by simp [interrupted])
    rw [split] at rest
    rw [← rest] at shorter
    refine .done (.done ⟨⟨lost ++ [] ++ (typing now.input).keys,?_⟩,?_⟩)
    · rw [if_neg (by simp),← rest,taken_delivered]
    · simp only [List.length_append] at shorter ⊢
      omega

private theorem stdin_fd {flags : RunFlags} (stdin : flags.meets .authStdin = true) :
    inputFd flags opens = .stdin ∧ hides flags = false := by
  simp [inputFd,hides,stdin]

private theorem struck_stdin (keys : Bytes) : lineResult (struck false keys).text = lineResult keys := by
  have sizes : maxHeld = maxInputLen + (2^64 - 1) := rfl
  have puts : keys.map (stroke false) = keys.map Stroke.put := List.map_congr_left fun _ _ => rfl
  rw [struck_text,puts,foldl_pressWithin_put (Nat.zero_le _),List.nil_append]
  unfold lineResult
  by_cases long : maxInputLen < keys.length
  · rw [if_pos long,if_pos (by simp; omega)]
  · rw [List.take_of_length_le (by omega)]

private theorem askPassword_stdin {build : Build} (msg : String) {flags : RunFlags} (prompts : Prompts build flags)
    (stdin : flags.meets .authStdin = true) : Total (console .stdin opens) (fun out k' =>
        out = lineResult (taken [] [] k.input).kept ∧ k'.input = (taken [] [] k.input).rest)
      (askPassword build msg flags).run k := by
  have ends := @askPassword_ends opens k build msg flags prompts
  rw [(@stdin_fd opens flags stdin).1,(@stdin_fd opens flags stdin).2] at ends
  simpa only [struck_stdin] using ends

end

/-! One answer after another. -/

/-- A line of the input, ended by LF or by CR LF. -/
structure Reply where
  line : String
  crlf : Bool
  deriving DecidableEq

def Reply.bytes (reply : Reply) : Bytes := encode reply.line ++ if reply.crlf then [13,10] else [10]

/-- A line that fits and has no line ending in it. -/
def Reply.Plain (reply : Reply) : Prop :=
  (encode reply.line).length ≤ maxInputLen ∧ '\r' ∉ reply.line.toList ∧ '\n' ∉ reply.line.toList

def askAll (build : Build) (prompts : List (String × RunFlags)) : M (List String) :=
  prompts.mapM fun (msg,flags) => askPassword build msg flags

def OnStdin (build : Build) (prompts : List (String × RunFlags)) : Prop :=
  ∀ prompt ∈ prompts,prompt.2.meets .authStdin = true ∧ Prompts build prompt.2

section
variable {opens : Bool} {build : Build}

@[simp] theorem content_map (bytes : Bytes) : content (bytes.map .byte) = bytes := by
  induction bytes with
  | nil => rfl
  | cons b bytes ih => rw [List.map_cons,content,ih]

private theorem taken_line {keys : Bytes} (line : ∀ b ∈ keys,isEnter b = false) {enter : UInt8} (ends : isEnter enter = true)
    (rest : List Arrival) : taken [] [] (keys.map .byte ++ .byte enter :: rest) = ⟨[],keys,rest⟩ := by
  rw [taken_typing,typing_line line ends]
  rfl

private theorem count_taken (lost kept : Bytes) (input : List Arrival) :
    (content input).countP isEnter ≤ (content (taken lost kept input).rest).countP isEnter + 1 := by
  induction input generalizing lost kept with
  | nil => exact Nat.zero_le _
  | cons arrival input ih =>
    cases arrival with
    | signal signal => exact ih _ _
    | byte b =>
      rw [taken,content]
      cases enter : isEnter b with
      | true => simp [enter]
      | false =>
        rw [List.countP_cons_of_neg (by simp [enter]),if_neg Bool.false_ne_true]
        exact ih _ _

private theorem Reply.Plain.line {reply : Reply} (plain : reply.Plain) : ∀ b ∈ encode reply.line,isEnter b = false := by
  intro b member
  have cr : b ≠ 13 := by
    rintro rfl
    exact plain.2.1 ((mem_encode (c := '\r') (by decide) reply.line).mp member)
  have lf : b ≠ 10 := by
    rintro rfl
    exact plain.2.2 ((mem_encode (c := '\n') (by decide) reply.line).mp member)
  simp [isEnter,cr,lf]

private theorem Reply.Plain.count {reply : Reply} (plain : reply.Plain) :
    reply.bytes.countP isEnter = if reply.crlf then 2 else 1 := by
  have none : (encode reply.line).countP isEnter = 0 := List.countP_eq_zero.mpr fun b member => by simp [plain.line b member]
  rw [Reply.bytes,List.countP_append,none]
  cases reply.crlf <;> rfl

private theorem count_replies {replies : List Reply} (plain : ∀ reply ∈ replies,reply.Plain) :
    (replies.flatMap Reply.bytes).countP isEnter = replies.length + replies.countP Reply.crlf := by
  induction replies with
  | nil => rfl
  | cons reply replies ih =>
    have first := (plain reply List.mem_cons_self).count
    have later := ih fun other member => plain other (List.mem_cons_of_mem _ member)
    rw [List.flatMap_cons,List.countP_append,first,later,List.countP_cons,List.length_cons]
    split <;> omega

private theorem askAll_cons (prompt : String × RunFlags) (prompts : List (String × RunFlags)) :
    askAll build (prompt :: prompts) = askPassword build prompt.1 prompt.2 >>= fun line =>
      askAll build prompts >>= fun lines => pure (line :: lines) := List.mapM_cons

private theorem askAll_lines {prompts : List (String × RunFlags)} (stdin : OnStdin build prompts) (rest : Bytes) :
    ∀ (replies : List Reply) (k : Console),(∀ reply ∈ replies,reply.Plain ∧ reply.crlf = false) →
      prompts.length = replies.length → k.input = (replies.flatMap Reply.bytes ++ rest).map .byte →
      Total (console .stdin opens) (fun out k' => out = .ok (replies.map Reply.line) ∧ k'.input = rest.map .byte)
        (askAll build prompts).run k := by
  induction prompts with
  | nil =>
    intro replies k plain asked input
    obtain rfl : replies = [] := List.eq_nil_of_length_eq_zero asked.symm
    exact .done ⟨rfl,input⟩
  | cons prompt prompts ih =>
    intro replies k plain asked input
    cases replies with
    | nil => cases asked
    | cons reply replies =>
      obtain ⟨fits,lf⟩ := plain reply List.mem_cons_self
      obtain ⟨flagged,prompted⟩ := stdin prompt List.mem_cons_self
      have split : k.input = (encode reply.line).map .byte ++ .byte 10 :: (replies.flatMap Reply.bytes ++ rest).map .byte := by
        simp [input,Reply.bytes,lf]
      have takes := @taken_line _ fits.line 10 rfl ((replies.flatMap Reply.bytes ++ rest).map .byte)
      have answer : lineResult (encode reply.line) = .ok reply.line := lineResult_eq_ok.mpr ⟨fits.1,decode_encode _⟩
      rw [askAll_cons]
      refine .fallible_bind ((askPassword_stdin prompt.1 prompted flagged).mono ?_)
      rintro out k' ⟨rfl,left⟩
      rw [split,takes] at left ⊢
      dsimp only
      rw [answer]
      refine .fallible_bind ((ih (fun other member => stdin other (List.mem_cons_of_mem _ member)) replies k'
        (fun other member => plain other (List.mem_cons_of_mem _ member)) (Nat.succ.inj asked) left).mono ?_)
      rintro out k'' ⟨rfl,last⟩
      exact .done ⟨rfl,last⟩

private theorem askAll_count {prompts : List (String × RunFlags)} (stdin : OnStdin build prompts) :
    ∀ k : Console,Total (console .stdin opens) (fun out k' => ∀ lines,out = .ok lines →
      (content k.input).countP isEnter ≤ (content k'.input).countP isEnter + prompts.length) (askAll build prompts).run k := by
  induction prompts with
  | nil => exact fun k => .done fun _ _ => le_rfl
  | cons prompt prompts ih =>
    intro k
    obtain ⟨flagged,prompted⟩ := stdin prompt List.mem_cons_self
    have once := count_taken [] [] k.input
    rw [askAll_cons]
    refine .fallible_bind ((askPassword_stdin prompt.1 prompted flagged).mono ?_)
    rintro out k' ⟨rfl,left⟩
    rw [← left] at once
    cases lineResult (taken [] [] k.input).kept with
    | error error =>
      intro lines none
      cases none
    | ok line =>
      refine .fallible_bind ((ih (fun other member => stdin other (List.mem_cons_of_mem _ member)) k').mono ?_)
      intro out k'' later
      cases out with
      | error error =>
        intro lines none
        cases none
      | ok rest =>
        have fewer := later rest rfl
        refine .done fun lines _ => ?_
        rw [List.length_cons]
        omega

private theorem lf_of_answers {replies : List Reply} (plain : ∀ reply ∈ replies,reply.Plain)
    {prompts : List (String × RunFlags)} (asked : prompts.length = replies.length) (stdin : OnStdin build prompts)
    {rest shown : Bytes} {screens : List Bytes}
    (answered : Total (console .stdin opens) (fun out k' => out = .ok (replies.map Reply.line) ∧ k'.input = rest.map .byte)
      (askAll build prompts).run ⟨(replies.flatMap Reply.bytes ++ rest).map .byte,shown,screens⟩) :
    ∀ reply ∈ replies,reply.crlf = false := by
  obtain ⟨out,k',⟨rfl,left⟩,counted⟩ := answered.meets (askAll_count stdin _)
  have few := counted _ rfl
  rw [left,content_map,content_map,List.countP_append,count_replies plain] at few
  have none : replies.countP Reply.crlf = 0 := by omega
  intro reply member
  simpa using List.countP_eq_zero.mp none reply member

/-- The answers are the lines, and just the rest is left, if and only if all lines end in LF alone. -/
theorem answers_line_up_iff (replies : List Reply) (plain : ∀ reply ∈ replies,reply.Plain) (prompts : List (String × RunFlags))
    (asked : prompts.length = replies.length) (stdin : OnStdin build prompts) (rest shown : Bytes) (screens : List Bytes) :
    Total (console .stdin opens) (fun out k' => out = .ok (replies.map Reply.line) ∧ k'.input = rest.map .byte)
        (askAll build prompts).run ⟨(replies.flatMap Reply.bytes ++ rest).map .byte,shown,screens⟩ ↔
      ∀ reply ∈ replies,reply.crlf = false :=
  ⟨lf_of_answers plain asked stdin,fun lf =>
    askAll_lines stdin rest replies _ (fun reply member => ⟨plain reply member,lf reply member⟩) asked rfl⟩

end

private def scopexBuild : Build := ⟨.scopex,true,false,false,none,Build.kept⟩

private theorem two_prompts : OnStdin scopexBuild [("Password: ",.authStdin),("Again: ",.authStdin)] := by
  simp [OnStdin,Prompts,scopexBuild,RunFlags.meets,RunFlags.authStdin]

private theorem plain_replies {crlf : Bool} : ∀ reply ∈ [⟨"a",crlf⟩,⟨"b",false⟩],Reply.Plain reply := by
  simp [Reply.Plain,encode,maxInputLen]
  decide

theorem answers_line_up_two : Total (console .stdin false) (fun out k' => out = .ok ["a","b"] ∧ k'.input = [.byte 99])
    (askAll scopexBuild [("Password: ",.authStdin),("Again: ",.authStdin)]).run
      ⟨[.byte 97,.byte 10,.byte 98,.byte 10,.byte 99],[],[]⟩ :=
  (answers_line_up_iff [⟨"a",false⟩,⟨"b",false⟩] plain_replies _ rfl two_prompts [99] [] []).mpr (by simp)

/-- Behind a line that ends in CR LF the next prompt finds the LF. -/
theorem crlf_answers_next : ¬ ∀ (replies : List Reply) (prompts : List (String × RunFlags)) (rest : Bytes),
    (∀ reply ∈ replies,reply.Plain) → prompts.length = replies.length → OnStdin scopexBuild prompts →
      Total (console .stdin false) (fun out k' => out = .ok (replies.map Reply.line) ∧ k'.input = rest.map .byte)
        (askAll scopexBuild prompts).run ⟨(replies.flatMap Reply.bytes ++ rest).map .byte,[],[]⟩ := by
  intro claimed
  have answered := claimed _ [("Password: ",.authStdin),("Again: ",.authStdin)] [] (@plain_replies true) rfl two_prompts
  have lf := lf_of_answers plain_replies rfl two_prompts answered ⟨"a",true⟩ List.mem_cons_self
  cases lf

/-! One answer, with signals between its bytes. -/

section
variable {opens : Bool}

private theorem content_taken (lost kept : Bytes) (input : List Arrival) : taken [] (lost ++ kept) ((content input).map .byte) =
    ⟨[],(taken lost kept input).lost ++ (taken lost kept input).kept,(content (taken lost kept input).rest).map .byte⟩ := by
  induction input generalizing lost kept with
  | nil => rfl
  | cons arrival input ih =>
    cases arrival with
    | signal signal =>
      have later := ih (lost ++ kept) []
      rw [List.append_nil] at later
      exact later
    | byte b =>
      rw [content,List.map_cons,taken,taken]
      cases enter : isEnter b with
      | true => rfl
      | false =>
        rw [if_neg Bool.false_ne_true,if_neg Bool.false_ne_true,← ih,List.append_assoc]

/-- Two lines, the second one what is left of the first when the front is lost, have the same result. -/
private theorem lineResult_lost (lost kept : Bytes) : lineResult kept = lineResult (lost ++ kept) ↔
    lost = [] ∨ maxInputLen < kept.length ∨
      (lost ++ kept).length ≤ maxInputLen ∧ decode kept = none ∧ decode (lost ++ kept) = none ∧
        utf8Error kept = utf8Error (lost ++ kept) := by
  have length : (lost ++ kept).length = lost.length + kept.length := List.length_append
  by_cases none : lost = []
  · simp [none]
  unfold lineResult
  by_cases long : maxInputLen < kept.length
  · rw [if_pos long,if_pos (by omega)]
    simp [long]
  rw [if_neg long]
  by_cases longer : maxInputLen < (lost ++ kept).length
  · rw [if_pos longer]
    have beyond : ¬ lost.length + kept.length ≤ maxInputLen := by omega
    cases decode kept <;> simp [none,long,tooLong,beyond]
  · rw [if_neg longer]
    have within : lost.length + kept.length ≤ maxInputLen := by omega
    cases first : decode kept with
    | none => cases decode (lost ++ kept) <;> simp [none,long,within]
    | some p =>
      cases second : decode (lost ++ kept) with
      | none => simp [none,long]
      | some q =>
        have differ : p ≠ q := by
          rintro rfl
          have same := (encode_decode first).symm.trans (encode_decode second)
          exact none (List.self_eq_append_left.mp same)
        simp [none,long,differ]

/-- The signals make no difference to the answer if and only if no byte of the line came before
one, or the line fails without them as it does with them, at the same place if it is no text. -/
theorem signals_harmless_iff (build : Build) (msg : String) (flags : RunFlags) (stdin : flags.meets .authStdin = true)
    (prompts : Prompts build flags) (script : List Arrival) (shown : Bytes) (screens : List Bytes) :
    (∃ result,Total (console .stdin opens) (fun out _ => out = result) (askPassword build msg flags).run ⟨script,shown,screens⟩ ∧
      Total (console .stdin opens) (fun out _ => out = result) (askPassword build msg flags).run
        ⟨(content script).map .byte,shown,screens⟩) ↔
      (taken [] [] script).lost = [] ∨ maxInputLen < (taken [] [] script).kept.length ∨
        ((taken [] [] script).lost ++ (taken [] [] script).kept).length ≤ maxInputLen ∧
          decode (taken [] [] script).kept = none ∧ decode ((taken [] [] script).lost ++ (taken [] [] script).kept) = none ∧
            utf8Error (taken [] [] script).kept = utf8Error ((taken [] [] script).lost ++ (taken [] [] script).kept) := by
  have known (script : List Arrival) := @askPassword_stdin opens ⟨script,shown,screens⟩ build msg flags prompts stdin
  have whole := content_taken [] [] script
  rw [List.append_nil] at whole
  rw [← lineResult_lost]
  constructor
  · rintro ⟨result,interrupted,alone⟩
    obtain ⟨_,_,rfl,first,_⟩ := interrupted.meets (known script)
    obtain ⟨_,_,rfl,second,_⟩ := alone.meets (known _)
    rw [whole] at second
    exact first.symm.trans second
  · intro same
    refine ⟨_,(known script).mono fun _ _ ends => ends.1,(known _).mono fun _ _ ends => ?_⟩
    rw [ends.1,whole]
    exact same.symm

theorem signals_harmless_first : ∃ result,
    Total (console .stdin false) (fun out _ => out = result) (askPassword scopexBuild "" .authStdin).run
      ⟨[.signal .sigtstp,.byte 97,.byte 10],[],[]⟩ ∧
    Total (console .stdin false) (fun out _ => out = result) (askPassword scopexBuild "" .authStdin).run
      ⟨[.byte 97,.byte 10],[],[]⟩ :=
  (signals_harmless_iff scopexBuild "" .authStdin (by decide) rfl [.signal .sigtstp,.byte 97,.byte 10] [] []).mpr (.inl rfl)

/-- A signal behind the first byte of the answer takes that byte away. -/
theorem signal_loses_byte : ¬ ∀ script : List Arrival,∃ result,
    Total (console .stdin false) (fun out _ => out = result) (askPassword scopexBuild "" .authStdin).run ⟨script,[],[]⟩ ∧
    Total (console .stdin false) (fun out _ => out = result) (askPassword scopexBuild "" .authStdin).run
      ⟨(content script).map .byte,[],[]⟩ := by
  intro claimed
  obtain ⟨result,interrupted,alone⟩ := claimed [.byte 97,.signal .sigtstp,.byte 98,.byte 10]
  have known (script : List Arrival) := @askPassword_stdin false ⟨script,[],[]⟩ scopexBuild "" .authStdin rfl rfl
  obtain ⟨_,_,rfl,first,_⟩ := interrupted.meets (known _)
  obtain ⟨_,_,rfl,second,_⟩ := alone.meets (known _)
  have same := first.symm.trans second
  revert same
  decide

end

end Runas
