import Runas.Pam
import Runas.Interaction.Trace

/-! What the PAM library gets from the conversation callback, against what the callbacks of
the program gave for each message. -/
namespace Runas.Pam
open Interaction Text

abbrev Record := List (Exchange Call Answer)

/-- What came of a message: its answer, where it asks for one, or what the conversation
stopped at. -/
inductive Heard
  | invalid
  | panicked
  | failed (error : Error)
  | unallocated
  | answered (answer : Option String)

def prompts (style : UInt32) : Bool := style == promptEchoOn || style == promptEchoOff

/-- The style and the text of a message that can be shown. -/
def valid : Option PamMessage → Option (UInt32 × String)
  | some ⟨style,some bytes⟩ =>
    if prompts style || style == errorMsg || style == textInfo then (decode bytes).map fun text => (style,text) else none
  | _ => none

def promptMode (style : UInt32) (text : String) : PromptMode :=
  if style = promptEchoOn && !isPassword text then .visible else .hidden

/-- The callback that a message is shown through, with the answer it gives to a prompt. -/
def consult (callback : Conversation) (style : UInt32) (text : String) : Calls (Option (Except Error (Option String))) :=
  if prompts style then do return (← callback.prompt text (promptMode style text)).map (Except.map some)
  else if style = errorMsg then do return (← callback.error text).map (Except.map fun _ => none)
  else do return (← callback.info text).map (Except.map fun _ => none)

def Reports (t : Record) : Prop := ∀ x ∈ t,(∃ text,x.1 = .eprint text) ∨ ∃ context error,x.1 = .report context error

section
variable (callback : Conversation)

/-- One message: a valid one is shown, and a text that answers it is copied for the library. -/
inductive Hears (message : Option PamMessage) : Record → Heard → Prop
  | invalid {said : Record} (bad : valid message = none) (only : Reports said) : Hears message said .invalid
  | panicked {style : UInt32} {text : String} {t : Record} (fine : valid message = some (style,text))
      (shown : Trace (consult callback style text) t none) : Hears message t .panicked
  | failed {style : UInt32} {text : String} {t said : Record} {error : Error} (fine : valid message = some (style,text))
      (shown : Trace (consult callback style text) t (some (.error error))) (only : Reports said) :
      Hears message (t ++ said) (.failed error)
  | unallocated {style : UInt32} {text answer : String} {t said : Record} {error : Errno}
      (fine : valid message = some (style,text)) (shown : Trace (consult callback style text) t (some (.ok (some answer))))
      (only : Reports said) : Hears message (t ++ ⟨.strdup (cText answer),.error error⟩ :: said) .unallocated
  | answered {style : UInt32} {text answer : String} {t : Record} (fine : valid message = some (style,text))
      (shown : Trace (consult callback style text) t (some (.ok (some answer)))) :
      Hears message (t ++ [⟨.strdup (cText answer),.ok ()⟩]) (.answered (some answer))
  | told {style : UInt32} {text : String} {t : Record} (fine : valid message = some (style,text))
      (shown : Trace (consult callback style text) t (some (.ok none))) : Hears message t (.answered none)

def Heard.succeeded : Heard → Prop
  | .answered _ => True
  | _ => False

/-- The messages in their order, up to the first that does not succeed. -/
inductive Converses : List (Option PamMessage) → Record → List Heard → Prop
  | nil : Converses [] [] []
  | stops {message : Option PamMessage} {rest : List (Option PamMessage)} {t : Record} {heard : Heard}
      (hears : Hears callback message t heard) (bad : ¬ heard.succeeded) : Converses (message :: rest) t [heard]
  | goes {message : Option PamMessage} {rest : List (Option PamMessage)} {t later : Record} {answer : Option String}
      {heard : List Heard} (hears : Hears callback message t (.answered answer)) (others : Converses rest later heard) :
      Converses (message :: rest) (t ++ later) (.answered answer :: heard)

/-- A whole conversation, for which the array of answers is allocated first. -/
inductive Conducts (messages : List (Option PamMessage)) : Record → List Heard → Prop
  | unallocated {said : Record} {error : Errno} (only : Reports said) :
      Conducts messages (⟨.calloc messages.length,.error error⟩ :: said) [.unallocated]
  | held {t : Record} {heard : List Heard} (converses : Converses callback messages t heard) :
      Conducts messages (⟨.calloc messages.length,.ok ()⟩ :: t) heard

end

/-- What the library relies on: success is reported when every message has succeeded and only
then, with one entry for each message, and otherwise no array is left. -/
structure LinesUp (messages : List (Option PamMessage)) (heard : List Heard) (reply : PamReply) : Prop where
  success : reply.code = success ↔ ∀ one ∈ heard,one.succeeded
  entries : reply.code = Pam.success → ∃ responses : List (Option Bytes),reply.responses = some responses ∧
    responses.length = messages.length ∧
    ∀ (i : Nat) (style : UInt32) (bytes : Option Bytes),messages[i]? = some (some ⟨style,bytes⟩) →
      if prompts style then ∃ text : String,heard[i]? = some (.answered (some text)) ∧ responses[i]? = some (some (encode text))
      else responses[i]? = some none
  null : reply.code ≠ Pam.success → reply.responses = none

def Heard.result : Heard → Replied
  | .invalid => some (.error convErr)
  | .panicked => none
  | .failed (.pam error) => some (.error error.code)
  | .failed _ => some (.error convErr)
  | .unallocated => some (.error bufErr)
  | .answered answer => some (.ok (answer.map cText))

section
variable {callback : Conversation} {t : Record}

private theorem consult_trace {α : Type} {p : Calls (Option (Except Error α))} {result : Option (Except Error α)}
    (f : α → Option String) (trace : Trace p t result) :
    Trace (do return (← p).map (Except.map f) : Calls (Option (Except Error (Option String)))) t
      (result.map (Except.map f)) := by
  have both := (trace_bind p (fun result => .done (result.map (Except.map f))) t _).mpr ⟨t,result,[],by simp,trace,.done _⟩
  exact both

private theorem callbackError_trace {error : Error} {code : UInt32} (trace : Trace (callbackError error) t code) :
    Heard.result (.failed error) = some (.error code) ∧ Reports t := by
  cases error with
  | pam error =>
    obtain ⟨rfl,rfl⟩ := (trace_done _ _ _).mp trace
    exact ⟨rfl,by simp [Reports]⟩
  | _ =>
    obtain ⟨_,_,rfl,rest⟩ := (trace_call _ _ _ _).mp trace
    obtain ⟨rfl,rfl⟩ := (trace_done _ _ _).mp rest
    exact ⟨rfl,by simp [Reports]⟩

private theorem convFailure_trace {text : String} {result : Replied} (trace : Trace (convFailure text) t result) :
    result = some (.error convErr) ∧ Reports t := by
  obtain ⟨_,_,rfl,rest⟩ := (trace_call _ _ _ _).mp trace
  obtain ⟨rfl,rfl⟩ := (trace_done _ _ _).mp rest
  exact ⟨rfl,by simp [Reports]⟩

/-- The error of a callback is sent back, after a report of it. -/
private theorem failed_hears {message : Option PamMessage} {style : UInt32} {text : String} {error : Error}
    {first second : Record} {result : Replied} (fine : valid message = some (style,text))
    (shown : Trace (consult callback style text) first (some (.error error)))
    (rest : Trace ((callbackError error).bind fun code => .done (some (.error code))) second result) :
    ∃ heard,Hears callback message (first ++ second) heard ∧ result = heard.result := by
  obtain ⟨said,code,last,rfl,reported,ended⟩ := (trace_bind _ _ _ _).mp rest
  obtain ⟨rfl,rfl⟩ := (trace_done _ _ _).mp ended
  obtain ⟨coded,only⟩ := callbackError_trace reported
  rw [List.append_nil]
  exact ⟨.failed error,.failed fine shown only,coded.symm⟩

private theorem convText_hears {message : Option PamMessage} {style : UInt32} {text : String}
    {shown : Calls (Option (Except Error Unit))} {result : Replied}
    (fine : valid message = some (style,text))
    (same : consult callback style text = do return (← shown).map (Except.map fun _ => none))
    (trace : Trace (convText shown) t result) : ∃ heard,Hears callback message t heard ∧ result = heard.result := by
  obtain ⟨first,answer,second,rfl,asked,rest⟩ := (trace_bind _ _ _ _).mp trace
  have consulted := consult_trace (fun _ => none) asked
  rw [← same] at consulted
  rcases answer with _ | error | _
  · obtain ⟨rfl,rfl⟩ := (trace_done _ _ _).mp rest
    rw [List.append_nil]
    exact ⟨.panicked,.panicked fine consulted,rfl⟩
  · exact failed_hears fine consulted rest
  · obtain ⟨rfl,rfl⟩ := (trace_done _ _ _).mp rest
    rw [List.append_nil]
    exact ⟨.answered none,.told fine consulted,rfl⟩

private theorem convPrompt_hears {message : Option PamMessage} {style : UInt32} {text : String}
    {result : Replied} (fine : valid message = some (style,text)) (asks : prompts style = true)
    (trace : Trace (convPrompt callback style text) t result) :
    ∃ heard,Hears callback message t heard ∧ result = heard.result := by
  obtain ⟨first,answer,second,rfl,asked,rest⟩ := (trace_bind _ _ _ _).mp trace
  have consulted := consult_trace some asked
  have same : consult callback style text =
      do return (← callback.prompt text (promptMode style text)).map (Except.map some) := if_pos asks
  have consulted : Trace (consult callback style text) first (answer.map (Except.map some)) := same ▸ consulted
  rcases answer with _ | error | answer
  · obtain ⟨rfl,rfl⟩ := (trace_done _ _ _).mp rest
    rw [List.append_nil]
    exact ⟨.panicked,.panicked fine consulted,rfl⟩
  · exact failed_hears fine consulted rest
  · obtain ⟨copied,later,rfl,continued⟩ := (trace_call _ _ _ _).mp rest
    clear rest trace
    rcases copied with error | _
    · obtain ⟨_,said,rfl,ended⟩ := (trace_call _ _ _ _).mp continued
      obtain ⟨rfl,rfl⟩ := (trace_done _ _ _).mp ended
      exact ⟨.unallocated,.unallocated fine consulted (by simp [Reports]),rfl⟩
    · obtain ⟨rfl,rfl⟩ := (trace_done _ _ _).mp continued
      exact ⟨.answered (some answer),.answered fine consulted,rfl⟩

private theorem convMessage_hears {message : Option PamMessage} {result : Replied} (trace : Trace (convMessage callback message) t result) :
    ∃ heard,Hears callback message t heard ∧ result = heard.result := by
  rcases message with _ | ⟨style,_ | bytes⟩
  · obtain ⟨rfl,only⟩ := convFailure_trace trace
    exact ⟨.invalid,.invalid rfl only,rfl⟩
  · obtain ⟨rfl,only⟩ := convFailure_trace trace
    exact ⟨.invalid,.invalid rfl only,rfl⟩
  · unfold convMessage at trace
    dsimp only at trace
    cases decoded : decode bytes with
    | none =>
      rw [decoded] at trace
      obtain ⟨_,_,rfl,rest⟩ := (trace_call _ _ _ _).mp trace
      obtain ⟨rfl,rfl⟩ := (trace_done _ _ _).mp rest
      exact ⟨.invalid,.invalid (by simp [valid,decoded]) (by simp [Reports]),rfl⟩
    | some text =>
      rw [decoded] at trace
      dsimp only at trace
      have fine (known : (prompts style || style == errorMsg || style == textInfo) = true) :
          valid (some ⟨style,some bytes⟩) = some (style,text) := by
        rw [valid,if_pos known,decoded]
        rfl
      by_cases asks : style = promptEchoOn ∨ style = promptEchoOff
      · rw [if_pos asks] at trace
        have asks : prompts style = true := by simpa [prompts] using asks
        exact convPrompt_hears (fine (by rw [asks]; rfl)) asks trace
      · rw [if_neg asks] at trace
        have silent : prompts style = false := by simpa [prompts] using asks
        by_cases wrong : style = errorMsg
        · rw [if_pos wrong] at trace
          exact convText_hears (fine (by simp [wrong])) (by rw [consult,silent,if_pos wrong]; rfl) trace
        · rw [if_neg wrong] at trace
          by_cases info : style = textInfo
          · rw [if_pos info] at trace
            exact convText_hears (fine (by simp [info])) (by rw [consult,silent,if_neg wrong]; rfl) trace
          · rw [if_neg info] at trace
            obtain ⟨rfl,only⟩ := convFailure_trace trace
            exact ⟨.invalid,.invalid (by simp [valid,silent,wrong,info]) only,rfl⟩

/-- A message that stops the conversation has not succeeded. -/
private theorem unsuccessful {one : Heard} (code : Option UInt32) (ended : one.result = code.map .error) : ¬ one.succeeded := by
  intro fine
  cases one with
  | answered answer => cases code <;> cases ended
  | _ => exact fine

private theorem convMessages_converses {messages : List (Option PamMessage)} {answers : List (Option Bytes)}
    {outcome : Option PamReply} (trace : Trace (convMessages callback messages answers) t outcome) :
    ∃ heard,Converses callback messages t heard ∧
      ((∃ given : List (Option String),heard = given.map .answered ∧
        outcome = some ⟨Pam.success,some (answers ++ given.map (Option.map cText))⟩) ∨
      ∃ (given : List (Option String)) (bad : Heard) (code : Option UInt32),heard = given.map .answered ++ [bad] ∧
        bad.result = code.map .error ∧ outcome = code.map (⟨·,none⟩)) := by
  induction messages generalizing answers t with
  | nil =>
    obtain ⟨rfl,rfl⟩ := (trace_done _ _ _).mp trace
    exact ⟨[],.nil,.inl ⟨[],rfl,by simp⟩⟩
  | cons message messages ih =>
    obtain ⟨first,result,later,rfl,shown,rest⟩ := (trace_bind _ _ _ _).mp trace
    obtain ⟨one,hears,rfl⟩ := convMessage_hears shown
    rcases ended : one.result with _ | code | entry
    · rw [ended] at rest
      obtain ⟨rfl,rfl⟩ := (trace_done _ _ _).mp rest
      rw [List.append_nil]
      exact ⟨[one],.stops hears (unsuccessful (none : Option UInt32) ended),.inr ⟨[],one,none,rfl,ended,rfl⟩⟩
    · rw [ended] at rest
      obtain ⟨rfl,rfl⟩ := (trace_done _ _ _).mp rest
      rw [List.append_nil]
      exact ⟨[one],.stops hears (unsuccessful (some code) ended),.inr ⟨[],one,some code,rfl,ended,rfl⟩⟩
    · rw [ended] at rest
      obtain ⟨answer,rfl⟩ : ∃ answer,one = .answered answer := by
        cases one with
        | answered answer => exact ⟨answer,rfl⟩
        | failed error => cases error <;> cases ended
        | _ => cases ended
      cases ended
      obtain ⟨heard,others,told⟩ := ih rest
      refine ⟨.answered answer :: heard,.goes hears others,?_⟩
      rcases told with ⟨given,rfl,rfl⟩ | ⟨given,bad,code,rfl,failed,rfl⟩
      · exact .inl ⟨answer :: given,rfl,by simp⟩
      · exact .inr ⟨answer :: given,bad,code,rfl,failed,rfl⟩

private theorem mapped_trace {α : Type} {p : Calls (Option (Except Error α))} {f : α → Option String}
    {answer : Option String} (trace : Trace (do
      return (← p).map (Except.map f) : Calls (Option (Except Error (Option String)))) t (some (.ok answer))) :
    ∃ value,f value = answer := by
  obtain ⟨_,result,_,_,_,ended⟩ := (trace_bind _ _ _ _).mp trace
  obtain ⟨same,_⟩ := (trace_done _ _ _).mp ended
  rcases result with _ | _ | value
  · cases same
  · cases same
  · cases same
    exact ⟨value,rfl⟩

/-- A message that succeeded has an answer if it is a prompt and none if it is not. -/
private theorem Hears.asks {style : UInt32} {bytes : Option Bytes} {answer : Option String}
    (hears : Hears callback (some ⟨style,bytes⟩) t (.answered answer)) : prompts style = answer.isSome := by
  have same {other : UInt32} {text : String} (fine : valid (some ⟨style,bytes⟩) = some (other,text)) : other = style := by
    cases bytes with
    | none => cases fine
    | some bytes =>
      rw [valid] at fine
      split at fine
      · cases decoded : decode bytes <;> rw [decoded] at fine <;> cases fine
        rfl
      · cases fine
  have kind {text : String} {t : Record} {answer : Option String}
      (shown : Trace (consult callback style text) t (some (.ok answer))) : prompts style = answer.isSome := by
    unfold consult at shown
    by_cases asks : prompts style = true
    · rw [if_pos asks] at shown
      obtain ⟨value,rfl⟩ := mapped_trace shown
      exact asks
    · rw [if_neg asks] at shown
      have silent : prompts style = false := by simpa using asks
      split at shown
      · obtain ⟨value,rfl⟩ := mapped_trace shown
        exact silent
      · obtain ⟨value,rfl⟩ := mapped_trace shown
        exact silent
  cases hears with
  | answered fine shown =>
    cases same fine
    exact kind shown
  | told fine shown =>
    cases same fine
    exact kind shown

/-- The answers given stand beside the messages, those of the prompts and no others. -/
private theorem Converses.beside {messages : List (Option PamMessage)} {heard : List Heard}
    (converses : Converses callback messages t heard) {given : List (Option String)} (all : heard = given.map .answered) :
    given.length = messages.length ∧ ∀ (i : Nat) (style : UInt32) (bytes : Option Bytes),
      messages[i]? = some (some ⟨style,bytes⟩) → ∃ answer,given[i]? = some answer ∧ prompts style = answer.isSome := by
  induction converses generalizing given with
  | nil =>
    cases given with
    | nil => exact ⟨rfl,fun i style bytes here => by cases here⟩
    | cons answer given => cases all
  | stops hears bad =>
    cases given with
    | nil => cases all
    | cons answer given =>
      rw [List.map_cons,List.cons.injEq] at all
      exact (bad (all.1 ▸ trivial)).elim
  | goes hears others ih =>
    cases given with
    | nil => cases all
    | cons answer given =>
      rw [List.map_cons,List.cons.injEq,Heard.answered.injEq] at all
      obtain ⟨rfl,all⟩ := all
      obtain ⟨sizes,later⟩ := ih all
      refine ⟨by simp [sizes],fun i style bytes here => ?_⟩
      cases i with
      | zero =>
        cases here
        exact ⟨_,rfl,hears.asks⟩
      | succ i => exact later i style bytes here

end

private theorem listed (messages : List (Option PamMessage)) :
    ((List.range messages.length).map fun i => (messages[i]?).join) = messages := by
  refine List.ext_getElem (by simp) fun i _ inside => ?_
  simp [inside]

private theorem convProcess_conducts {callback : Conversation} {messages : List (Option PamMessage)} {t : Record}
    {outcome : Option PamReply} (asked : 0 < messages.length) (few : messages.length ≤ maxNumMsg)
    (trace : Trace (convProcess callback ⟨messages.length,some messages,true⟩) t outcome) :
    ∃ heard,Conducts callback messages t heard ∧
      ((∃ given : List (Option String),heard = given.map .answered ∧ given.length = messages.length ∧
        (∀ (i : Nat) (style : UInt32) (bytes : Option Bytes),messages[i]? = some (some ⟨style,bytes⟩) →
          ∃ answer,given[i]? = some answer ∧ prompts style = answer.isSome) ∧
        outcome = some ⟨Pam.success,some (given.map (Option.map cText))⟩) ∨
      ∃ (given : List (Option String)) (bad : Heard) (code : Option UInt32),heard = given.map .answered ++ [bad] ∧
        bad.result = code.map .error ∧ outcome = code.map (⟨·,none⟩)) := by
  have inside : ¬ ((messages.length : Int) ≤ 0 ∨ maxNumMsg < (messages.length : Int) ∨ (!true) = true) := by
    simp only [Bool.not_true,Bool.false_eq_true,or_false]
    omega
  unfold convProcess at trace
  dsimp only at trace
  rw [if_neg inside,Int.toNat_natCast,listed] at trace
  obtain ⟨answer,rest,rfl,continued⟩ := (trace_call _ _ _ _).mp trace
  clear trace
  rcases answer with error | _
  · obtain ⟨_,said,rfl,ended⟩ := (trace_call _ _ _ _).mp continued
    obtain ⟨rfl,rfl⟩ := (trace_done _ _ _).mp ended
    exact ⟨[.unallocated],.unallocated (by simp [Reports]),.inr ⟨[],.unallocated,some bufErr,rfl,rfl,rfl⟩⟩
  · obtain ⟨heard,converses,replied⟩ := convMessages_converses continued
    refine ⟨heard,.held converses,replied.imp_left ?_⟩
    rintro ⟨given,rfl,rfl⟩
    obtain ⟨sizes,kinds⟩ := converses.beside rfl
    exact ⟨given,rfl,sizes,kinds,rfl⟩

private theorem result_success {bad : Heard} {code : UInt32} (failed : bad.result = some (.error code)) :
    code = Pam.success ↔ ∃ message,bad = .failed (.pam ⟨Pam.success,message⟩) := by
  constructor
  · rintro rfl
    cases bad with
    | failed error =>
      cases error with
      | pam error =>
        obtain ⟨code,message⟩ := error
        cases failed
        exact ⟨message,rfl⟩
      | _ => cases failed
    | _ => cases failed
  · rintro ⟨message,rfl⟩
    cases failed
    rfl

private theorem linesUp_answered {messages : List (Option PamMessage)} {given : List (Option String)}
    (sizes : given.length = messages.length) (kinds : ∀ (i : Nat) (style : UInt32) (bytes : Option Bytes),
      messages[i]? = some (some ⟨style,bytes⟩) → ∃ answer,given[i]? = some answer ∧ prompts style = answer.isSome)
    (plain : ∀ text,.answered (some text) ∈ given.map Heard.answered → 0 ∉ encode text) :
    LinesUp messages (given.map .answered) ⟨Pam.success,some (given.map (Option.map cText))⟩ where
  success := by
    refine iff_of_true rfl fun one member => ?_
    obtain ⟨_,_,rfl⟩ := List.mem_map.mp member
    trivial
  entries _ := by
    refine ⟨_,rfl,by rw [List.length_map,sizes],fun i style bytes here => ?_⟩
    obtain ⟨answer,found,kind⟩ := kinds i style bytes here
    rw [kind,List.getElem?_map,List.getElem?_map,found]
    cases answer with
    | none => rfl
    | some text =>
      have clean : 0 ∉ encode text := plain text (List.mem_map_of_mem (List.mem_of_getElem? found))
      have whole : cText text = encode text := by
        refine List.takeWhile_eq_self_iff.mpr fun byte member => ?_
        simpa using fun zero : byte = 0 => clean (zero ▸ member)
      refine ⟨text,rfl,?_⟩
      rw [Option.map_some,Option.map_some,whole]
  null unsuccessful := (unsuccessful rfl).elim

/-- What stops a conversation is reported to the library, if it is no panic and the code is an error. -/
private theorem linesUp_stopped {messages : List (Option PamMessage)} {given : List (Option String)} {bad : Heard}
    {code : Option UInt32} (failed : bad.result = code.map .error) :
    (∃ reply : PamReply,code.map (⟨·,none⟩) = some reply ∧ LinesUp messages (given.map .answered ++ [bad]) reply) ↔
      .panicked ∉ given.map Heard.answered ++ [bad] ∧
        ∀ message,.failed (.pam ⟨Pam.success,message⟩) ∉ given.map Heard.answered ++ [bad] := by
  have stopped : ¬ ∀ one ∈ given.map Heard.answered ++ [bad],one.succeeded :=
    fun all => unsuccessful code failed (all bad (by simp))
  cases code with
  | none =>
    have panics : bad = .panicked := by
      cases bad with
      | failed error => cases error <;> cases failed
      | panicked => rfl
      | _ => cases failed
    refine iff_of_false ?_ fun quiet => quiet.1 (by simp [panics])
    rintro ⟨reply,absent,_⟩
    cases absent
  | some code =>
    have calm : .panicked ∉ given.map Heard.answered ++ [bad] := by
      intro member
      have last : bad = .panicked := by simpa [eq_comm] using member
      rw [last] at failed
      cases failed
    have coded : code = Pam.success ↔ ∃ message,.failed (.pam ⟨Pam.success,message⟩) ∈ given.map Heard.answered ++ [bad] := by
      rw [result_success failed]
      simp [eq_comm]
    rw [← not_exists,← coded]
    constructor
    · rintro ⟨reply,same,linesUp⟩
      cases same
      exact ⟨calm,fun succeeds => stopped (linesUp.success.mp succeeds)⟩
    · rintro ⟨_,fails⟩
      exact ⟨_,rfl,iff_of_false fails stopped,fun succeeds => (fails succeeds).elim,fun _ => rfl⟩

/-- For the messages the library asks, with answers that hold no NUL: there is a reply that lines
up with what came of each message exactly when no callback panics or fails with the code of success. -/
theorem conversation_lines_up_iff (callback : Conversation) (messages : List (Option PamMessage))
    (asked : 0 < messages.length) (few : messages.length ≤ maxNumMsg) {t : Record} {outcome : Option PamReply}
    (trace : Trace (convProcess callback ⟨messages.length,some messages,true⟩) t outcome) :
    ∃ heard,Conducts callback messages t heard ∧
      ((∀ text,.answered (some text) ∈ heard → 0 ∉ encode text) →
        ((∃ reply,outcome = some reply ∧ LinesUp messages heard reply) ↔
          .panicked ∉ heard ∧ ∀ message,.failed (.pam ⟨Pam.success,message⟩) ∉ heard)) := by
  obtain ⟨heard,conducts,replied⟩ := convProcess_conducts asked few trace
  refine ⟨heard,conducts,fun plain => ?_⟩
  rcases replied with ⟨given,rfl,sizes,kinds,rfl⟩ | ⟨given,bad,code,rfl,failed,rfl⟩
  · exact iff_of_true ⟨_,rfl,linesUp_answered sizes kinds plain⟩ (by simp)
  · exact linesUp_stopped failed

private def terse : Conversation :=
  ⟨fun _ _ => .done (some (.ok "x")),fun _ => .done (some (.error (.pam ⟨Pam.success,"Success"⟩))),
    fun _ => .done (some (.ok ()))⟩

theorem conversation_lines_up_prompt : ∃ heard,
    Conducts terse [some ⟨promptEchoOn,some (encode "login: ")⟩]
      [⟨.calloc 1,.ok ()⟩,⟨.strdup (encode "x"),.ok ()⟩] heard ∧
    ((∀ text,.answered (some text) ∈ heard → 0 ∉ encode text) →
      ((∃ reply,some ⟨Pam.success,some [some (encode "x")]⟩ = some reply ∧
        LinesUp [some ⟨promptEchoOn,some (encode "login: ")⟩] heard reply) ↔
          .panicked ∉ heard ∧ ∀ message,.failed (.pam ⟨Pam.success,message⟩) ∉ heard)) :=
  conversation_lines_up_iff terse [some ⟨promptEchoOn,some (encode "login: ")⟩] (by decide) (by decide)
    (replay_sound 10 (by decide))

private def faulty : Conversation := ⟨fun _ _ => .done none,fun _ => .done none,fun _ => .done none⟩

/-- The second message is shown by a callback that fails with the code of success: the library
is told of a success, and has no array. One whose callback panics has no reply. -/
theorem failed_callback_succeeds :
    Trace (convProcess terse ⟨2,some [some ⟨errorMsg,some (encode "locked")⟩,some ⟨textInfo,some (encode "bye")⟩],true⟩)
      [⟨.calloc 2,.ok ()⟩] (some ⟨Pam.success,none⟩) ∧
    (∀ heard,¬ LinesUp [some ⟨errorMsg,some (encode "locked")⟩,some ⟨textInfo,some (encode "bye")⟩] heard
      ⟨Pam.success,none⟩) ∧
    Trace (convProcess faulty ⟨1,some [some ⟨errorMsg,some (encode "locked")⟩],true⟩) [⟨.calloc 1,.ok ()⟩] none := by
  refine ⟨replay_sound 10 (by decide),fun heard linesUp => ?_,replay_sound 10 (by decide)⟩
  obtain ⟨responses,none,_⟩ := linesUp.entries rfl
  cases none

end Runas.Pam
