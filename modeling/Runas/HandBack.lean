import Runas.Passwd
import Runas.Topics
import Runas.Interaction.Alone
import Mathlib.Logic.Function.Basic

/-! The terminal and the signal mask during a prompt, and that both are as they were
whenever the program signals itself and whenever it is done. -/
namespace Runas
open Interaction Text

/-- The terminals behind the descriptors, the thread's signal mask, and how many times the tty
has been opened and closed. Kept beside them is what an attempt found at its
beginning, and whether it has tried to change a terminal yet. -/
structure Desk where
  attributes : Nat → Termios
  mask : List Signal
  opened : Nat
  closed : Nat
  begun : Nat → Termios
  tried : Bool

namespace Desk

def start (attributes : Nat → Termios) (mask : List Signal) : Desk := ⟨attributes,mask,0,0,attributes,false⟩

/-- The first change of an attempt may fail half-way; what sets the attributes after that
restores them, and does not fail. While the program signals itself it can be stopped,
and comes back to terminals with any attributes. -/
def step (line : Fd → Nat) (k : Desk) : (event : Call) → Answer event → Desk → Prop
  | .tcgetattr fd,answer,k' => k' = k ∧ ∀ found,answer = .ok found → found = k.attributes (line fd)
  | .tcsetattr fd wanted,.ok (),k' =>
    k' = { k with attributes := Function.update k.attributes (line fd) wanted,tried := true }
  | .tcsetattr fd _,.error _,k' => k.tried = false ∧ ∃ partly,
    k' = { k with attributes := Function.update k.attributes (line fd) partly,tried := true }
  | .sigmask .block signals,.ok previous,k' => previous = k.mask ∧ k' = { k with mask := k.mask ++ signals }
  | .sigmask .block _,.error _,k' => k' = k
  | .sigmask .setMask wanted,.ok _,k' => k' = { k with mask := wanted }
  | .sigmask .setMask _,.error _,_ => False
  | .openFd .tty,.ok (),k' => k' = { k with opened := k.opened + 1 }
  | .close .tty,_,k' => k' = { k with closed := k.closed + 1 }
  | .raise _,_,k' => ∃ attributes,k' = { k with attributes := attributes,begun := attributes,tried := false }
  | _,_,k' => k' = k

/-- The terminals are as the attempt found them, with no tty left open. -/
def Restored (k : Desk) : Prop := k.attributes = k.begun ∧ k.opened = k.closed

def HandedBack (mask : List Signal) (k : Desk) : Prop := k.Restored ∧ k.mask = mask

/-- What holds when a call is made: everything is handed back before the program signals itself,
the terminals before the mask, and only an open tty is closed. -/
def Guarded (mask : List Signal) (k : Desk) : Call → Prop
  | .raise _ => k.HandedBack mask
  | .sigmask .setMask _ => k.Restored
  | .close .tty => k.opened = k.closed + 1
  | _ => True

/-- A call that leaves the terminals, the mask and the tty alone. -/
def quiet : Call → Bool
  | .tcsetattr _ _ | .sigmask _ _ | .raise _ => false
  | .openFd fd | .close fd => fd != .tty
  | _ => true

section
variable {line : Fd → Nat} {mask : List Signal} {k : Desk}

private abbrev prompting (line : Fd → Nat) (mask : List Signal) : Setting Call Answer Desk := alone (step line) (Guarded mask)

private theorem step_quiet {event : Call} {answer : Answer event} {k' : Desk} (silent : quiet event = true)
    (taken : step line k event answer k') : k' = k := by
  cases event with
  | tcgetattr fd => exact taken.1
  | tcsetattr _ _ | sigmask _ _ | raise _ => cases silent
  | openFd fd | close fd =>
    cases fd with
    | tty => cases silent
    | _ => exact taken
  | _ => exact taken

private theorem guarded_quiet {event : Call} (silent : quiet event = true) : Guarded mask k event := by
  cases event with
  | sigmask _ _ | raise _ => cases silent
  | close fd =>
    cases fd with
    | tty => cases silent
    | _ => trivial
  | _ => trivial

private theorem safe_quiet {α : Type} {p : Calls α} (used : p.Uses fun event => quiet event = true) :
    (prompting line mask).Safe p (fun _ k' => k' = k) k := by
  refine Setting.Safe.uses used (stable_alone _) rfl (fun _ _ _ silent => guarded_quiet silent) ?_
  intro k₁ event answer k₂ same silent taken
  exact (step_quiet silent taken).trans same

/-- What a prompt has to undo: the attributes it has kept restore the terminal it has changed,
and the tty it owns is open. -/
structure Held (line : Fd → Nat) (prompt : Prompt) (k : Desk) : Prop where
  shown : prompt.termios = none → k.attributes = k.begun
  hidden : ∀ original,prompt.termios = some original →
    k.tried = true ∧ Function.update k.attributes (line prompt.input) original = k.begun
  owned : prompt.owned = true → prompt.input = .tty ∧ prompt.output = .tty ∧ k.opened = k.closed + 1
  lent : prompt.owned = false → k.opened = k.closed

private theorem safe_closeOwned {prompt : Prompt} (attributes : k.attributes = k.begun)
    (owned : prompt.owned = true → prompt.input = .tty ∧ prompt.output = .tty ∧ k.opened = k.closed + 1)
    (lent : prompt.owned = false → k.opened = k.closed) :
    (prompting line mask).Safe prompt.closeOwned (fun _ => Restored) k := by
  unfold Prompt.closeOwned
  cases own : prompt.owned with
  | false => exact .done_alone ⟨attributes,lent own⟩
  | true =>
    obtain ⟨input,output,opened⟩ := owned own
    rw [input,output]
    refine .call_alone opened fun answer k' taken => .done_alone ?_
    cases (taken : k' = { k with closed := k.closed + 1 })
    exact ⟨attributes,opened⟩

private theorem safe_promptDrop {prompt : Prompt} (held : Held line prompt k) :
    (prompting line mask).Safe prompt.drop (fun _ => Restored) k := by
  unfold Prompt.drop
  cases kept : prompt.termios with
  | none => exact safe_closeOwned (held.shown kept) held.owned held.lent
  | some original =>
    obtain ⟨tried,back⟩ := held.hidden original kept
    refine .call_alone trivial fun answer k' same => ?_
    cases (same : k' = k)
    refine .call_alone trivial fun answer k' taken => ?_
    rcases answer with error | _
    · exact absurd (tried.symm.trans taken.1) (by decide)
    · cases (taken : k' = { k with attributes := Function.update k.attributes (line prompt.input) original,tried := true })
      exact safe_closeOwned back held.owned held.lent

private theorem safe_hideInput {prompt : Prompt} (held : Held line prompt k) (fresh : prompt.termios = none) :
    (prompting line mask).Safe prompt.hideInput (fun out => Held line out.2) k := by
  refine .call_alone trivial fun answer k' taken => ?_
  obtain ⟨same,found⟩ := taken
  cases same
  rcases answer with error | original
  · exact .done_alone held
  · have here := found original rfl
    have changes {k' : Desk} {now : Termios} (after : k' =
        { k with attributes := Function.update k.attributes (line prompt.input) now,tried := true }) :
        Held line { prompt with termios := some original } k' := by
      subst after
      refine ⟨fun absent => (by cases absent),fun other same => ?_,held.owned,held.lent⟩
      cases same
      refine ⟨rfl,?_⟩
      dsimp only
      rw [Function.update_idem,here,Function.update_eq_self]
      exact held.shown fresh
    refine .call_alone trivial fun answer k' taken => ?_
    rcases answer with error | _
    · obtain ⟨_,partly,after⟩ := taken
      exact .done_alone (changes after)
    · exact .done_alone (changes taken)

private theorem uses_promptQuiet (msg : String) (signals : SignalReceiver) (useStdin hide : Bool)
    (hidden : Except Error Unit) (prompt : Prompt) :
    Fallible.Uses (fun event => quiet event = true) (promptBody msg signals useStdin hide hidden prompt) :=
  @uses_promptBody (fun event => quiet event = true) prompt (fun _ => rfl) (fun _ _ => rfl) (fun _ => rfl) signals rfl
    msg useStdin hide hidden

private theorem safe_promptOn (msg : String) (signals : SignalReceiver) (useStdin hide : Bool) {input output : Fd}
    {owned : Bool} (held : Held line (Prompt.new input output signals.fd owned) k) :
    (prompting line mask).Safe (promptOn msg signals useStdin hide (input,output,owned)).run (fun _ => Restored) k := by
  have body (hidden : Except Error Unit) {prompt : Prompt} {k : Desk} (held : Held line prompt k) :
      (prompting line mask).Safe (Fallible.releasing prompt.drop (promptBody msg signals useStdin hide hidden prompt)).run
        (fun _ => Restored) k := by
    refine Fallible.safe_releasing (fun _ => stable_alone _) ?_
    refine (safe_quiet (uses_promptQuiet msg signals useStdin hide hidden prompt)).mono fun _ k' same => ?_
    cases same
    exact safe_promptDrop held
  unfold promptOn
  dsimp only
  by_cases hides : (!useStdin && hide) = true
  · rw [if_pos hides]
    exact Fallible.safe_lift ((safe_hideInput held rfl).mono fun out k' held => body out.1 held)
  · rw [if_neg hides]
    exact body _ held

private theorem safe_install (back : k.Restored) : (prompting line mask).Safe (SignalReceiver.install promptSignals).run
    (fun result k' => (∀ receiver,result = .ok receiver → receiver = ⟨.signal,k.mask⟩ ∧
      k' = { k with mask := k.mask ++ promptSignals }) ∧ ∀ error,result = .error error → k' = k) k := by
  unfold SignalReceiver.install
  refine Fallible.safe_ask_alone trivial fun answer k' taken => ?_
  rcases answer with error | previous
  · cases (taken : k' = k)
    exact .done_alone ⟨fun _ same => (by cases same),fun _ _ => rfl⟩
  · obtain ⟨rfl,rfl⟩ := taken
    refine Fallible.safe_ask_alone trivial fun answer k' same => ?_
    cases (same : k' = { k with mask := k.mask ++ promptSignals })
    rcases answer with error | _
    · refine .call_alone back fun answer k' taken => ?_
      rcases answer with failure | _
      · cases taken
      · cases (taken : k' = { k with mask := k.mask })
        exact .done_alone ⟨fun _ same => (by cases same),fun _ _ => rfl⟩
    · refine .done_alone ⟨fun receiver same => ?_,fun _ same => (by cases same)⟩
      cases same
      exact ⟨rfl,rfl⟩

private theorem safe_receiverDrop {signals : SignalReceiver} (receives : signals = ⟨.signal,mask⟩) (back : k.Restored) :
    (prompting line mask).Safe signals.drop (fun _ => HandedBack mask) k := by
  subst receives
  refine .call_alone back fun answer k' taken => ?_
  rcases answer with failure | _
  · cases taken
  · cases (taken : k' = { k with mask := mask })
    refine .call_alone trivial fun answer k' same => .done_alone ?_
    cases (same : k' = { k with mask := mask })
    exact ⟨back,rfl⟩

private theorem safe_launchPrompt (msg : String) (flags : RunFlags) (ready : k.HandedBack mask) :
    (prompting line mask).Safe (launchPrompt msg flags).run (fun _ => HandedBack mask) k := by
  obtain ⟨back,rfl⟩ := ready
  rw [launchPrompt_parts]
  refine Fallible.safe_bind_alone ((safe_install back).mono fun result k' installed => ?_)
  rcases result with error | signals
  · cases installed.2 error rfl
    exact ⟨back,rfl⟩
  · obtain ⟨receives,rfl⟩ := installed.1 signals rfl
    refine Fallible.safe_releasing (fun _ => stable_alone _) (Setting.Safe.mono ?_ fun _ k' restored =>
      safe_receiverDrop receives restored)
    cases flags.meets .authStdin with
    | true => exact safe_promptOn msg signals true _ ⟨fun _ => back.1,fun _ same => (by cases same),
        fun owned => (by cases owned),fun _ => back.2⟩
    | false =>
      refine .call_alone trivial fun answer k' taken => ?_
      rcases answer with error | _
      · cases (taken : k' = { k with mask := k.mask ++ promptSignals })
        exact safe_promptOn msg signals false _ ⟨fun _ => back.1,fun _ same => (by cases same),
          fun owned => (by cases owned),fun _ => back.2⟩
      · cases (taken : k' = { k with mask := k.mask ++ promptSignals,opened := k.opened + 1 })
        exact safe_promptOn msg signals false _ ⟨fun _ => back.1,fun _ same => (by cases same),
          fun _ => ⟨rfl,rfl,congrArg (· + 1) back.2⟩,fun lent => (by cases lent)⟩

private theorem safe_askPasswordRound (msg : String) (flags : RunFlags) (ready : k.HandedBack mask) :
    (prompting line mask).Safe (askPasswordRound msg flags).run (fun _ => HandedBack mask) k := by
  unfold askPasswordRound outcome
  refine Fallible.safe_lift ((safe_launchPrompt msg flags ready).mono fun result k' back => ?_)
  rcases result with error | password
  · cases error with
    | interrupted signal =>
      refine .call_alone back fun answer k'' taken => .done_alone ?_
      obtain ⟨attributes,rfl⟩ := taken
      exact ⟨⟨rfl,back.1.2⟩,back.2⟩
    | _ => exact .done_alone back
  · exact .done_alone back

end

/-- On the terminal path, whatever fails and however often a signal comes: at each call the
program makes what is due has been handed back, and everything has when it is done. -/
theorem askPassword_hands_back (line : Fd → Nat) (build : Build) (msg : String) (flags : RunFlags)
    (terminal : (build.withAskpassSupport && flags.contains .authAskpass) = false) (attributes : Nat → Termios)
    (mask : List Signal) (p : Calls (Except Error String)) (k : Desk)
    (reached : Steps (step line) (askPassword build msg flags).run (start attributes mask) p k) :
    (∀ event,p.pending = some event → Guarded mask k event) ∧
      ∀ result,p.result? = some result → k.HandedBack mask := by
  have safe : (prompting line mask).Safe (askPassword build msg flags).run (fun _ => HandedBack mask)
      (start attributes mask) := by
    unfold askPassword
    rw [terminal]
    refine Fallible.safe_iterate (I := fun _ => HandedBack mask) (fun _ => stable_alone _) (fun _ => stable_alone _)
      ⟨⟨rfl,rfl⟩,rfl⟩ fun _ k ready => (safe_askPasswordRound msg flags ready).mono fun result k' back => ?_
    rcases result with error | _ | password <;> exact back
  have there := safe.steps reached
  refine ⟨fun event pending => there.pending pending,fun result ended => ?_⟩
  cases Program.result?_eq_some ended
  exact there.now

private def seen : Nat → Termios := fun _ => ⟨true,true,0⟩

/-- The change of the tty fails when it has half been made. -/
private theorem half_hidden : ∃ k,Runs (step fun _ => 0)
    (askPassword ⟨.scopex,false,false,false,none,Build.kept⟩ "Password: " .promptHide).run (start seen [])
    (.error (.errno .eio)) k := by
  refine ⟨⟨Function.update (Function.update seen 0 ⟨true,false,0⟩) 0 ⟨true,true,0⟩,[],1,1,seen,true⟩,.loop ?_⟩
  refine .answered (.ok []) ⟨rfl,rfl⟩ (.answered (.ok ()) rfl (.answered (.ok ()) rfl ?_))
  refine .answered (.ok ⟨true,true,0⟩) ⟨rfl,fun _ same => (Except.ok.inj same).symm⟩ ?_
  refine .answered (.error .eio) ⟨rfl,⟨true,false,0⟩,rfl⟩ ?_
  refine .answered (.ok 1) rfl (.answered (.ok ()) rfl (.answered (.ok ()) rfl ?_))
  exact .answered (.ok []) rfl (.answered (.ok ()) rfl (.done _ _))

theorem askPassword_hands_back_half : ∃ k,Runs (step fun _ => 0)
    (askPassword ⟨.scopex,false,false,false,none,Build.kept⟩ "Password: " .promptHide).run (start seen [])
      (.error (.errno .eio)) k ∧
      k.HandedBack [] := by
  obtain ⟨k,run⟩ := half_hidden
  exact ⟨k,run,(askPassword_hands_back _ _ _ _ rfl _ _ _ _ run.steps).2 _ rfl⟩

end Desk

end Runas
