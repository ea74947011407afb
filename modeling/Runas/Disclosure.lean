import Runas.HelperChild
import Runas.Interaction.Coupling

/-! What a password shows of itself while it is read. Everything the program calls, on the
terminal or elsewhere, depends on the bytes of the answer only through their number and
the keys that end or edit a line. -/
namespace Runas
open Interaction Text

/-- The keys that end a line or take back a byte. -/
def isKey (ch : UInt8) : Bool := ch = 8 || ch = 10 || ch = 13 || ch = 127

/-- The same key, or two bytes of text. -/
def Shape (ch other : UInt8) : Prop := ch = other ∨ (isKey ch = false ∧ isKey other = false)

/-- Where passwords come from. -/
def Fd.secret : Fd → Bool
  | .tty | .stdin | .pipe .passwd _ => true
  | _ => false

/-- Two answers that differ in the text of a password at most. -/
def disguised : (event : Call) → Answer event → Answer event → Prop
  | .read fd _,.ok bytes,.ok other => if fd.secret = true then List.Forall₂ Shape bytes other else bytes = other
  | _,answer,other => answer = other

/-- The error that says how far bytes are a text. -/
def notText (bytes : Bytes) : Error := .invalidUtf8 (utf8Error bytes)

/-- Two results that do not tell more of the password than its length in bytes, whether it is
a text and, of one that is none, where it ceases to be one. -/
inductive Veiled : Except Error String → Except Error String → Prop
  | password {text other : String} (length : (encode text).length = (encode other).length) : Veiled (.ok text) (.ok other)
  | error (error : Error) : Veiled (.error error) (.error error)
  | neither {bytes other : Bytes} (length : bytes.length = other.length) : Veiled (.error (notText bytes)) (.error (notText other))
  | first {text : String} {other : Bytes} (length : (encode text).length = other.length) : Veiled (.ok text) (.error (notText other))
  | second {bytes : Bytes} {other : String} (length : bytes.length = (encode other).length) : Veiled (.error (notText bytes)) (.ok other)

namespace Disclosure

/-- The calls whose answers hold nothing secret. -/
def clear : Call → Bool
  | .read fd _ => !fd.secret
  | _ => true

theorem disguised_clear {event : Call} {answer other : Answer event} (known : clear event = true)
    (same : disguised event answer other) : answer = other := by
  unfold disguised at same
  split at same
  · next fd count bytes other =>
    have open' : fd.secret = false := by simpa [clear] using known
    simpa [open'] using same
  · exact same

theorem disguised_refl (event : Call) (answer : Answer event) : disguised event answer answer := by
  unfold disguised
  split
  · split
    · exact List.forall₂_same.mpr fun _ _ => .inl rfl
    · rfl
  · rfl

theorem clear_uses {α : Type} {x : M α} (used : Fallible.Uses (fun event => clear event = true) x) :
    Coupled disguised (Endings Eq) x.run x.run :=
  Fallible.coupled_refl (used.mono fun _ known _ _ => disguised_clear known)

theorem clear_calls {α : Type} {p : Calls α} (used : p.Uses fun event => clear event = true) :
    Coupled disguised Eq p p :=
  .refl (used.mono fun _ known _ _ => disguised_clear known)

theorem clear_only {α : Type} {p : Calls α} {Q : α → Prop} (known : p.Only (fun event => clear event = true) Q) :
    Coupled disguised (fun value other => value = other ∧ Q value) p p :=
  .only (fun event _ _ known same => @disguised_clear event _ _ known same) known

theorem clear_value {α : Type} {x : M α} {Q : Except Error α → Prop} (known : x.run.Only (fun event => clear event = true) Q) :
    Coupled disguised (Endings fun value other => value = other ∧ Q (.ok value)) x.run x.run :=
  Fallible.coupled_only (fun event _ _ known same => @disguised_clear event _ _ known same) known

theorem clear_topic {event : Call} (other : event.topic ≠ .pipes) : clear event = true := by
  cases event <;> first | rfl | exact absurd rfl other

theorem clear_about {topics : List Topic} {α : Type} {p : Calls α} (used : p.Uses (About topics)) (others : .pipes ∉ topics) :
    p.Uses fun event => clear event = true :=
  used.mono fun _ about => clear_topic fun same => others (same ▸ about)

/-! One read of the prompt. -/

/-- Two pieces of a password, or no piece. -/
inductive Pieces : Option Bytes → Option Bytes → Prop
  | some {bytes other : Bytes} (shape : List.Forall₂ Shape bytes other) : Pieces (some bytes) (some other)
  | none : Pieces none none

/-- Two reads on one prompt, which stays on its input. -/
def Twin (input : Fd) (read other : Option Bytes × Prompt) : Prop :=
  Pieces read.1 other.1 ∧ read.2 = other.2 ∧ read.2.input = input

theorem read_twin {prompt : Prompt} (secret : prompt.input.secret = true) (count : Nat) :
    Coupled disguised (Endings (Twin prompt.input)) (prompt.read count).run (prompt.read count).run := by
  refine Fallible.coupled_iterate (fun _ _ => True) trivial fun _ _ _ => ?_
  refine Fallible.coupled_ask fun answer answer' same => ?_
  obtain rfl : answer = answer' := same
  rcases answer with error | events
  · cases error <;> first | exact .done (.again trivial) | exact .done (.failed (.error _))
  · dsimp only
    split
    · exact .done (.value (.ok ⟨.none,rfl,rfl⟩))
    · split
      · exact .done (.failed (.error _))
      · split
        · exact .done (.again trivial)
        · split
          · refine Fallible.coupled_ask fun answer answer' same => ?_
            rcases answer with error | bytes
            · obtain rfl : .error error = answer' := same
              cases error <;> first | exact .done (.value (.ok ⟨.none,rfl,rfl⟩)) | exact .done (.failed (.error _))
            · rcases answer' with error | other
              · cases same
              · have shape : List.Forall₂ Shape bytes other := by simpa [disguised,secret] using same
                have empty : bytes.isEmpty = other.isEmpty := by cases shape <;> rfl
                exact .done (.value (.ok ⟨.some shape,by simp [empty],rfl⟩))
          · split
            · exact .done (.failed (.error _))
            · exact .done (.again trivial)

theorem shape_ends {ch other : UInt8} (shape : Shape ch other) :
    (decide (ch = 13) || decide (ch = 10)) = (decide (other = 13) || decide (other = 10)) := by
  rcases shape with rfl | ⟨text,others⟩
  · rfl
  · simp only [isKey,Bool.or_eq_false_iff] at text others
    simp [text.1.2,text.1.1.2,others.1.2,others.1.1.2]

theorem shape_erases {ch other : UInt8} (shape : Shape ch other) :
    (decide (ch = 127) || decide (ch = 8)) = (decide (other = 127) || decide (other = 8)) := by
  rcases shape with rfl | ⟨text,others⟩
  · rfl
  · simp only [isKey,Bool.or_eq_false_iff] at text others
    simp [text.2,text.1.1.1,others.2,others.1.1.1]

/-- The bytes as a text. -/
def textOf (buffer : Bytes) : M String :=
  match decode buffer with
  | some password => return password
  | none => throw (notText buffer)

theorem textOf_veiled {buffer other : Bytes} (length : buffer.length = other.length) :
    Coupled disguised Veiled (textOf buffer).run (textOf other).run := by
  unfold textOf
  cases text : decode buffer with
  | none =>
    cases text' : decode other with
    | none => exact .done (.neither length)
    | some password => exact .done (.second (by rw [length,encode_decode text']))
  | some password =>
    cases text' : decode other with
    | none => exact .done (.first (by rw [encode_decode text,length]))
    | some password' =>
      refine .done (.password ?_)
      rw [encode_decode text,encode_decode text',length]

/-! The line that is typed. -/

/-- Two lines of the same length. -/
def Level (line other : Line) : Prop := line.buffer.length = other.buffer.length ∧ line.overflow = other.overflow

theorem Level.push {line other : Line} (level : Level line other) (ch ch' : UInt8) : Level (line.push ch) (other.push ch') := by
  obtain ⟨length,overflow⟩ := level
  unfold Line.push Level
  rw [← length,← overflow]
  split
  · simp [length,overflow]
  · split
    · exact ⟨length,rfl⟩
    · exact ⟨length,overflow⟩

section
variable {prompt : Prompt} {signals : SignalReceiver} {useStdin hide : Bool}

theorem clear_write (bytes : Bytes) : (ignoring (prompt.write bytes)).Uses fun event => clear event = true :=
  uses_ignoring (uses_promptWrite (fun _ => rfl) bytes)

theorem editRound_level (secret : prompt.input.secret = true) {line other : Line} (level : Level line other) :
    Coupled disguised (Round Level (Endings Level)) (editRound prompt signals useStdin hide line).run
      (editRound prompt signals useStdin hide other).run := by
  refine Fallible.coupled_bind (read_twin secret 1) (fun error => .failed (.error error)) ?_
  rintro ⟨chunk,after⟩ ⟨chunk',after'⟩ ⟨pieces,_,_⟩
  cases pieces with
  | none =>
    refine Fallible.coupled_bind (clear_uses (uses_receiverRead rfl)) (fun error => .failed (.error error)) ?_
    rintro event _ rfl
    cases event with
    | none => exact .done (.again level)
    | some event =>
      dsimp only
      cases event.signal with
      | none => exact .done (.failed (.error _))
      | some signal => exact .done (.failed (.error _))
  | some shape =>
    cases shape with
    | nil => exact .done (.value (.ok level))
    | @cons ch ch' _ _ shape _ =>
      dsimp only
      rw [shape_ends shape,shape_erases shape]
      by_cases ended : (decide (ch' = 13) || decide (ch' = 10)) = true
      · simp only [if_pos ended]
        exact .done (.value (.ok level))
      simp only [if_neg ended]
      by_cases erases : (!useStdin && hide && (decide (ch' = 127) || decide (ch' = 8))) = true
      · simp only [if_pos erases]
        rw [← level.2]
        by_cases beyond : line.overflow ≠ 0
        · simp only [if_pos beyond]
          refine Fallible.coupled_lift (clear_calls (clear_write erase)) fun _ _ _ => .done (.again ?_)
          exact ⟨level.1,rfl⟩
        simp only [if_neg beyond]
        have empty : line.buffer ≠ [] ↔ other.buffer ≠ [] := by
          rw [← List.length_pos_iff_ne_nil,← List.length_pos_iff_ne_nil,level.1]
        by_cases typed : line.buffer ≠ []
        · simp only [if_pos typed,if_pos (empty.mp typed)]
          refine Fallible.coupled_lift (clear_calls (clear_write erase)) fun _ _ _ => .done (.again ?_)
          exact ⟨by simp [level.1],rfl⟩
        · simp only [if_neg typed,if_neg (typed ∘ empty.mpr)]
          exact .done (.again level)
      simp only [if_neg erases]
      by_cases hidden : (!useStdin && hide) = true
      · simp only [if_pos hidden]
        exact Fallible.coupled_lift (clear_calls (clear_write [42])) fun _ _ _ => .done (.again (level.push ch ch'))
      · simp only [if_neg hidden]
        exact .done (.again (level.push ch ch'))

theorem takeLine_veiled (secret : prompt.input.secret = true) : Coupled disguised Veiled
    (takeLine prompt signals useStdin hide).run (takeLine prompt signals useStdin hide).run := by
  have typed : Coupled disguised (Endings Level) (Fallible.iterate (editRound prompt signals useStdin hide) ⟨[],0⟩).run
      (Fallible.iterate (editRound prompt signals useStdin hide) ⟨[],0⟩).run :=
    Fallible.coupled_iterate Level ⟨rfl,rfl⟩ fun _ _ level => editRound_level secret level
  refine Fallible.coupled_bind typed .error fun line other level => ?_
  dsimp only
  rw [level.2]
  by_cases beyond : other.overflow ≠ 0
  · simp only [if_pos beyond]
    exact .done (.error _)
  simp only [if_neg beyond]
  exact textOf_veiled level.1

theorem promptBody_veiled (secret : prompt.input.secret = true) (msg : String) (hidden : Except Error Unit) :
    Coupled disguised Veiled (promptBody msg signals useStdin hide hidden prompt).run
      (promptBody msg signals useStdin hide hidden prompt).run := by
  have writes (bytes : Bytes) : Coupled disguised (Endings Eq) (prompt.write bytes).run (prompt.write bytes).run :=
    clear_uses (uses_promptWrite (fun _ => rfl) bytes)
  unfold promptBody
  cases hidden with
  | error error => exact .done (.error error)
  | ok =>
    cases useStdin with
    | true => exact takeLine_veiled secret
    | false =>
      refine Fallible.coupled_bind (writes (encode msg)) .error fun _ _ _ => ?_
      dsimp only
      split
      · exact Fallible.coupled_bind (writes [32]) .error fun _ _ _ => takeLine_veiled secret
      · exact takeLine_veiled secret

end

theorem clear_receiverDrop (signals : SignalReceiver) : Coupled disguised Eq signals.drop signals.drop :=
  clear_calls (Program.Uses.bind (uses_discard rfl) fun _ => uses_discard rfl)

theorem clear_promptDrop (prompt : Prompt) : Coupled disguised Eq prompt.drop prompt.drop :=
  clear_calls (uses_promptDrop rfl (fun _ => rfl) fun _ => rfl)

theorem only_hideInput (prompt : Prompt) : prompt.hideInput.Only (fun event => clear event = true) fun out =>
    out.2.input = prompt.input := by
  refine .call_alone rfl fun answer _ _ => ?_
  rcases answer with error | original
  · exact .done_alone rfl
  · refine .call_alone rfl fun answer _ _ => ?_
    rcases answer with error | _ <;> exact .done_alone rfl

theorem promptOn_veiled (msg : String) (signals : SignalReceiver) (useStdin hide : Bool) (place : Fd × Fd × Bool)
    (secret : place.1.secret = true) : Coupled disguised Veiled (promptOn msg signals useStdin hide place).run
      (promptOn msg signals useStdin hide place).run := by
  obtain ⟨input,output,owned⟩ := place
  have body (hidden : Except Error Unit) (prompt : Prompt) (same : prompt.input = input) : Coupled disguised Veiled
      (Fallible.releasing prompt.drop (promptBody msg signals useStdin hide hidden prompt)).run
      (Fallible.releasing prompt.drop (promptBody msg signals useStdin hide hidden prompt)).run :=
    Fallible.coupled_releasing (promptBody_veiled (same ▸ secret) msg hidden) (clear_promptDrop prompt)
  unfold promptOn
  dsimp only
  by_cases hidden : (!useStdin && hide) = true
  · simp only [if_pos hidden]
    refine Fallible.coupled_lift (clear_only (only_hideInput _)) ?_
    rintro ⟨hidden,prompt⟩ _ ⟨rfl,same⟩
    exact body hidden prompt same
  · simp only [if_neg hidden]
    exact body (.ok ()) _ rfl

theorem launchPrompt_veiled (msg : String) (flags : RunFlags) :
    Coupled disguised Veiled (launchPrompt msg flags).run (launchPrompt msg flags).run := by
  rw [launchPrompt_parts]
  refine Fallible.coupled_bind (clear_uses (clear_about (uses_receiverInstall _) (by decide))) .error ?_
  rintro signals _ rfl
  refine Fallible.coupled_releasing ?_ (clear_receiverDrop signals)
  have place : (promptPlace (flags.meets .authStdin)).run.Only (fun event => clear event = true) fun
      | .ok place => place.1.secret = true
      | .error _ => True := by
    cases flags.meets .authStdin with
    | true => exact .done_alone rfl
    | false =>
      refine .call_alone rfl fun answer _ _ => ?_
      rcases answer with error | _ <;> exact .done_alone rfl
  refine Fallible.coupled_bind (clear_value place) .error ?_
  rintro place _ ⟨rfl,secret⟩
  exact promptOn_veiled _ _ _ _ _ secret

/-! The helper. -/

/-- Two states that differ in the text read so far at most. -/
def Abreast (state other : HelperState) : Prop :=
  state.prompt = other.prompt ∧ state.prompt.input.secret = true ∧ List.Forall₂ Shape state.buffer other.buffer ∧
    state.overflow = other.overflow ∧ state.childStatus = other.childStatus

theorem Abreast.accept {state other : HelperState} (abreast : Abreast state other) {chunk chunk' : Bytes}
    (shape : List.Forall₂ Shape chunk chunk') : Abreast (state.accept chunk) (other.accept chunk') := by
  obtain ⟨prompt,secret,buffer,overflow,status⟩ := abreast
  unfold HelperState.accept
  rw [shape.length_eq,buffer.length_eq,overflow]
  exact ⟨prompt,secret,List.rel_append buffer (List.forall₂_take _ shape),rfl,status⟩

theorem Abreast.finished {state other : HelperState} (abreast : Abreast state other) : state.finished = other.finished := by
  unfold HelperState.finished
  rw [abreast.1,abreast.2.2.2.2]

theorem Abreast.ended {state other : HelperState} (abreast : Abreast state other) (status : Option Int) :
    Abreast { state with childStatus := status } { other with childStatus := status } :=
  ⟨abreast.1,abreast.2.1,abreast.2.2.1,abreast.2.2.2.1,rfl⟩

theorem helperReact_abreast (child : Pid) {state other : HelperState} (abreast : Abreast state other) (event : SignalEvent) :
    Coupled disguised (Endings Abreast) (helperReact child state event).run (helperReact child other event).run := by
  have reaps : Coupled disguised (Endings Abreast) (Fallible.iterate (helperReapRound child) state).run
      (Fallible.iterate (helperReapRound child) other).run := by
    refine Fallible.coupled_iterate Abreast abreast fun state other abreast => ?_
    refine Fallible.coupled_ask fun answer answer' same => ?_
    obtain rfl : answer = answer' := same
    rcases answer with error | status
    · cases error <;> first | exact .done (.again abreast) | exact .done (.failed (.error _))
    · cases status <;> first | exact .done (.again abreast) | exact .done (.value (.ok (abreast.ended _))) |
        exact .done (.value (.ok abreast))
  have passes (signal : Signal) : Coupled disguised (Endings Abreast) (do
      discard (.kill (-child) signal)
      return state : M HelperState).run (do
      discard (.kill (-child) signal)
      return other : M HelperState).run :=
    Fallible.coupled_lift (clear_calls (uses_discard rfl)) fun _ _ _ => .done (.ok abreast)
  unfold helperReact
  cases event.signal with
  | none => exact .done (.error _)
  | some signal => cases signal <;> first | exact reaps | exact passes _

theorem helperRound_abreast (child : Pid) (signals : SignalReceiver) {state other : HelperState}
    (abreast : Abreast state other) : Coupled disguised (Round Abreast (Endings Abreast)) (helperRound child signals state).run
      (helperRound child signals other).run := by
  have goes {state other : HelperState} (abreast : Abreast state other) : Coupled disguised (Round Abreast (Endings Abreast))
      (pure (if state.finished then .inr state else .inl state) : M (HelperState ⊕ HelperState)).run
      (pure (if other.finished then .inr other else .inl other) : M (HelperState ⊕ HelperState)).run := by
    rw [abreast.finished]
    cases other.finished with
    | true => exact .done (.value (.ok abreast))
    | false => exact .done (.again abreast)
  obtain ⟨prompt,buffer,overflow,childStatus⟩ := state
  obtain ⟨prompt',buffer',overflow',childStatus'⟩ := other
  obtain ⟨rfl,secret,texts,rest⟩ := abreast
  refine Fallible.coupled_bind (read_twin secret 128) (fun error => .failed (.error error)) ?_
  rintro ⟨chunk,after⟩ ⟨chunk',_⟩ ⟨pieces,rfl,input⟩
  have still : Abreast ⟨after,buffer,overflow,childStatus⟩ ⟨after,buffer',overflow',childStatus'⟩ :=
    ⟨rfl,(congrArg Fd.secret input).trans secret,texts,rest⟩
  cases pieces with
  | some shape => exact goes (still.accept shape)
  | none =>
    refine Fallible.coupled_bind (clear_uses (uses_receiverRead rfl)) (fun error => .failed (.error error)) ?_
    rintro event _ rfl
    cases event with
    | none => exact .done (.again still)
    | some event =>
      refine Fallible.coupled_bind (helperReact_abreast child still event) (fun error => .failed (.error error)) ?_
      exact fun _ _ abreast => goes abreast

theorem shape_last {buffer other : Bytes} (shape : List.Forall₂ Shape buffer other) {key : UInt8} (known : isKey key = true) :
    buffer.getLast? = some key ↔ other.getLast? = some key := by
  rw [← List.head?_reverse,← List.head?_reverse]
  have turned : List.Forall₂ Shape buffer.reverse other.reverse := List.forall₂_reverse_iff.mpr shape
  generalize buffer.reverse = back at turned
  generalize other.reverse = back' at turned
  cases turned with
  | nil => exact .rfl
  | cons head tail =>
    simp only [List.head?_cons,Option.some.injEq]
    rcases head with rfl | ⟨text,text'⟩
    · exact .rfl
    · refine iff_of_false ?_ ?_
      · rintro rfl
        rw [known] at text
        cases text
      · rintro rfl
        rw [known] at text'
        cases text'

theorem shape_dropLast {buffer other : Bytes} (shape : List.Forall₂ Shape buffer other) :
    List.Forall₂ Shape buffer.dropLast other.dropLast := by
  rw [List.dropLast_eq_take,List.dropLast_eq_take,shape.length_eq]
  exact List.forall₂_take _ shape

theorem stripNewline_level {buffer other : Bytes} (shape : List.Forall₂ Shape buffer other) :
    (stripNewline buffer).length = (stripNewline other).length := by
  unfold stripNewline
  simp only [shape_last shape (by decide : isKey 10 = true),shape_last (shape_dropLast shape) (by decide : isKey 13 = true)]
  split
  · split
    · exact (shape_dropLast (shape_dropLast shape)).length_eq
    · exact (shape_dropLast shape).length_eq
  · exact shape.length_eq

theorem helperResult_veiled {state other : HelperState} (abreast : Abreast state other) :
    Coupled disguised Veiled (helperResult state).run (helperResult other).run := by
  obtain ⟨_,_,buffer,overflow,status⟩ := abreast
  unfold helperResult
  rw [overflow,status]
  cases other.childStatus with
  | none => exact .done (.error _)
  | some code =>
    dsimp only
    split
    · exact .done (.error _)
    · rw [stripNewline_level buffer]
      split
      · exact .done (.error _)
      · exact textOf_veiled (stripNewline_level buffer)

theorem clear_syncDrop (sync : ForkSync) : sync.drop.Uses fun event => clear event = true := by
  have drops (fd : Option Fd) : (Descriptor.drop fd).Uses fun event => clear event = true := by
    cases fd with
    | none => trivial
    | some fd => exact uses_discard rfl
  exact Program.Uses.bind (drops _) fun _ => Program.Uses.bind (drops _) fun _ => Program.Uses.bind (drops _) fun _ => drops _

theorem helperParent_veiled (child : Pid) : Coupled disguised Veiled (helperParent child .fresh).run
    (helperParent child .fresh).run := by
  have installs : Fallible.Uses (fun event => clear event = true) (helperInstall child) :=
    .bind (.ask rfl) fun closed => .bind (uses_orFail closed) fun _ => .bind (.ask rfl) fun joined =>
      .bind (uses_orFail joined) fun _ => clear_about (uses_receiverInstall _) (by decide)
  refine Fallible.coupled_bind (clear_uses (.releasingOnError (clear_syncDrop _) installs)) .error ?_
  rintro signals _ rfl
  refine Fallible.coupled_releasing ?_ ((clear_promptDrop _).bind fun _ _ _ => clear_receiverDrop signals)
  have drops {fd : Fd} : (Descriptor.drop (some fd)).Only (fun event => clear event = true) fun _ => True := only_drop rfl
  have taken : ForkSync.fresh.intoParent.Only (fun event => clear event = true) fun endpoint =>
      endpoint = ⟨some (.pipe (.status .parent) .write),some (.pipe (.status .child) .read),false⟩ :=
    Setting.Safe.bind (drops.mono fun _ _ _ => Setting.Safe.bind (drops.mono fun _ _ _ => .done_alone rfl))
  have waits : Program.Only (fun event => clear event = true) (ForkEndpoint.mk ForkSync.fresh.parentWrite
      ForkSync.fresh.parentRead false).readyAndWait.run fun _ => True := only_readyAndWait rfl rfl rfl rfl
  refine Fallible.coupled_lift (clear_only taken) ?_
  rintro endpoint _ ⟨rfl,rfl⟩
  refine Fallible.coupled_bind (clear_value waits) .error ?_
  rintro decision _ ⟨rfl,-⟩
  dsimp only
  split
  · exact .done (.error _)
  · refine Fallible.coupled_bind ?_ .error fun _ _ abreast => helperResult_veiled abreast
    exact Fallible.coupled_iterate Abreast ⟨rfl,rfl,.nil,rfl,rfl⟩ fun _ _ abreast => helperRound_abreast child signals abreast

theorem clear_assists {event : Call} (known : assists event = true) : clear event = true := by
  cases event with
  | read fd count =>
    cases fd with
    | pipe name half => cases name <;> cases half <;> first | rfl | cases known
    | _ => cases known
  | _ => rfl

theorem launchHelper_veiled (msg : String) : Coupled disguised Veiled (launchHelper msg).run (launchHelper msg).run := by
  refine Fallible.coupled_ask fun piped piped' same => ?_
  obtain rfl : piped = piped' := same
  refine Fallible.coupled_bind (clear_uses (uses_orFail piped)) .error fun _ _ _ => ?_
  have made : ForkSync.new.run.Only (fun event => clear event = true) MadeFresh := only_syncNew rfl rfl rfl rfl
  refine Fallible.coupled_bind (clear_value made) .error ?_
  rintro sync _ ⟨rfl,rfl⟩
  refine Fallible.coupled_ask fun forked forked' same => ?_
  obtain rfl : forked = forked' := same
  rcases forked with error | (_ | child)
  · exact Fallible.coupled_lift (clear_calls (clear_syncDrop _)) fun _ _ _ => .done (.error _)
  · have becomes : (helperChild msg .fresh).run.Only (fun event => clear event = true) fun _ => False :=
      (only_helperChild msg).under (fun _ _ _ _ taken => taken) (fun _ _ moved => moved) fun _ _ known => clear_assists known
    exact (clear_only becomes).mono fun _ _ absurd => absurd.2.elim
  · exact helperParent_veiled child

/-! All of it. -/

theorem askPassword_veiled (build : Build) (msg : String) (flags : RunFlags) :
    Coupled disguised Veiled (askPassword build msg flags).run (askPassword build msg flags).run := by
  unfold askPassword
  split
  · exact launchHelper_veiled msg
  refine Fallible.coupled_iterate (fun _ _ => True) trivial fun _ _ _ => ?_
  refine Fallible.coupled_lift (launchPrompt_veiled msg flags) fun out out' veiled => ?_
  cases veiled with
  | password length => exact .done (.value (.password length))
  | neither length => exact .done (.failed (.neither length))
  | first length => exact .done (Round.ends (Veiled.first length))
  | second length => exact .done (Round.ends (Veiled.second length))
  | error error =>
    cases error with
    | interrupted signal =>
      refine Fallible.coupled_lift (clear_calls (uses_discard rfl)) fun _ _ _ => .done (.again trivial)
    | _ => exact .done (.failed (.error _))

end Disclosure

/-- Up to any moment of a run that reads a password, from the terminal, standard input or a
helper: were the text of the answer another of the same length, with the same keys that end or
edit a line, the very same calls would be made; and what the run ends with tells of the
password no more than that. -/
theorem askPassword_discloses (build : Build) (msg : String) (flags : RunFlags) {t t' : List (Exchange Call Answer)}
    (answered : List.Forall₂ (Alike disguised) t t') :
    (∀ q event,Steps record (askPassword build msg flags).run [] q t → q.pending = some event →
      ∃ q',Steps record (askPassword build msg flags).run [] q' t' ∧ q'.pending = some event) ∧
    ∀ result,Trace (askPassword build msg flags).run t result →
      ∃ result',Trace (askPassword build msg flags).run t' result' ∧ Veiled result result' := by
  have coupled := Disclosure.askPassword_veiled build msg flags
  refine ⟨fun q event reached pending => ?_,fun result run => coupled.trace run answered⟩
  obtain ⟨q',reached',later⟩ := coupled.steps reached answered
  exact ⟨q',reached',later.pending ▸ pending⟩

private def readyInput : Fin 2 → Option PollFlags := fun i => if i = 1 then some ⟨true,false,false,false⟩ else none

/-- One byte is typed at a hidden prompt, and Enter. -/
private def typedOnce (ch : UInt8) : List (Exchange Call Answer) :=
  [⟨.sigmask .block promptSignals,.ok []⟩,⟨.signalfd promptSignals,.ok ()⟩,⟨.openFd .tty,.ok ()⟩,
    ⟨.tcgetattr .tty,.ok ⟨true,true,0⟩⟩,⟨.tcsetattr .tty ⟨false,false,0⟩,.ok ()⟩,⟨.write .tty [62,32],.ok 2⟩,
    ⟨.poll [some .signal,some .tty],.ok readyInput⟩,⟨.read .tty 1,.ok [ch]⟩,⟨.write .tty [42],.ok 1⟩,
    ⟨.poll [some .signal,some .tty],.ok readyInput⟩,⟨.read .tty 1,.ok [13]⟩,⟨.write .tty [10],.ok 1⟩,
    ⟨.tcsetattr .tty ⟨true,true,0⟩,.ok ()⟩,⟨.close .tty,.ok ()⟩,⟨.sigmask .setMask [],.ok promptSignals⟩,
    ⟨.close .signal,.ok ()⟩]

private theorem typedOnce_alike {ch other : UInt8} (shape : Shape ch other) :
    List.Forall₂ (Alike disguised) (typedOnce ch) (typedOnce other) := by
  have same (x : Exchange Call Answer) : Alike disguised x x := .mk (Disclosure.disguised_refl x.1 x.2)
  have typed : Alike disguised ⟨.read .tty 1,.ok [ch]⟩ ⟨.read .tty 1,.ok [other]⟩ :=
    .mk (by simpa [disguised,Fd.secret] using shape)
  unfold typedOnce
  repeat' first | exact .nil | exact same _ | exact typed | constructor

/-- An `x` in the place of an `a`. -/
theorem askPassword_discloses_typed : ∃ result',
    Trace (askPassword ⟨.scopex,false,false,false,none,Build.kept⟩ "> " .promptHide).run (typedOnce 120) result' ∧
      Veiled (.ok "a") result' :=
  (askPassword_discloses _ _ _ (@typedOnce_alike 97 120 (.inr ⟨rfl,rfl⟩))).2 _ (replay_sound 60 rfl)

end Runas
