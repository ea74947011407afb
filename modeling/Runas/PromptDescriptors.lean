import Runas.Descriptors
import Runas.HelperChild

/-! The descriptors of a prompt, on the terminal or by the askpass helper. The terminal's
are closed again on every path; the helper's pipe is not on those that fail early. -/
namespace Runas
open Interaction Text

namespace Opened
variable {k : Finset Fd} {α β : Type}

/-! On the terminal. -/

/-- What a prompt reads and writes is open. -/
structure Placed (k : Finset Fd) (prompt : Prompt) : Prop where
  input : Usable k prompt.input
  output : Usable k prompt.output
  interrupt : Usable k prompt.interrupt

/-- A prompt that owns its descriptors has the tty. -/
def OwnsTty (k : Finset Fd) (prompt : Prompt) : Prop :=
  prompt.owned = true → prompt.input = .tty ∧ prompt.output = .tty ∧ .tty ∈ k

/-- What is open once the prompt is dropped. -/
def without (k : Finset Fd) (owned : Bool) : Finset Fd := if owned then k.erase .tty else k

theorem safe_promptDrop {prompt : Prompt} (placed : Placed k prompt) (owns : OwnsTty k prompt) :
    opening.Safe prompt.drop (fun _ k' => k' = without k prompt.owned) k := by
  have closes : opening.Safe prompt.closeOwned (fun _ k' => k' = without k prompt.owned) k := by
    unfold Prompt.closeOwned without
    cases owned : prompt.owned with
    | false => exact .done_alone rfl
    | true =>
      obtain ⟨input,output,isOpen⟩ := owns owned
      rw [input,output]
      exact safe_close isOpen
  unfold Prompt.drop
  cases prompt.termios with
  | none => exact closes
  | some original =>
    have restores : Program.Uses (Idle k) (do
        discard (.write prompt.output [10])
        discard (.tcsetattr prompt.input original) : Calls Unit) :=
      Program.Uses.bind (uses_discard ⟨placed.output,fun _ => rfl⟩) fun _ => uses_discard ⟨placed.input,fun _ => rfl⟩
    refine Setting.Safe.bind (f := fun _ => prompt.closeOwned) ((safe_idle restores).mono ?_)
    rintro _ _ rfl
    exact closes

theorem safe_hideInput {prompt : Prompt} (placed : Placed k prompt) (owns : OwnsTty k prompt) :
    opening.Safe prompt.hideInput (fun out k' => k' = k ∧ Placed k out.2 ∧ OwnsTty k out.2 ∧ out.2.owned = prompt.owned) k := by
  refine safe_called ⟨placed.input,fun _ => rfl⟩ fun found => ?_
  cases found with
  | error error => exact .done_alone ⟨rfl,placed,owns,rfl⟩
  | ok original =>
    refine safe_called ⟨placed.input,fun _ => rfl⟩ fun set => ?_
    cases set <;> exact .done_alone ⟨rfl,⟨placed.input,placed.output,placed.interrupt⟩,owns,rfl⟩

theorem polls_usable {first : Fd} {second : Option Fd} (usable : Usable k first)
    (other : ∀ fd,second = some fd → Usable k fd) : Idle k (.poll [some first,second]) := by
  refine ⟨fun fd member => ?_,fun _ => rfl⟩
  simp only [List.mem_cons,Option.some.injEq,List.not_mem_nil,or_false] at member
  rcases member with rfl | same
  · exact usable
  · exact other fd same.symm

theorem safe_promptOn (msg : String) {signals : SignalReceiver} (receives : Usable k signals.fd) (useStdin hide : Bool)
    {input output : Fd} {owned : Bool} (placed : Placed k (Prompt.new input output signals.fd owned))
    (owns : OwnsTty k (Prompt.new input output signals.fd owned)) :
    opening.Safe (promptOn msg signals useStdin hide (input,output,owned)).run (fun _ k' => k' = without k owned) k := by
  have body (hidden : Except Error Unit) {prompt : Prompt} (placed : Placed k prompt) (owns : OwnsTty k prompt)
      (same : prompt.owned = owned) :
      opening.Safe (Fallible.releasing prompt.drop (promptBody msg signals useStdin hide hidden prompt)).run
        (fun _ k' => k' = without k owned) k := by
    have used : Fallible.Uses (Idle k) (promptBody msg signals useStdin hide hidden prompt) := by
      refine uses_promptBody (fun _ => ⟨placed.output,fun _ => rfl⟩) (fun second which => ?_)
        (fun _ => ⟨placed.input,fun _ => rfl⟩) ⟨receives,fun _ => rfl⟩ msg useStdin hide hidden
      refine polls_usable placed.interrupt fun fd given => ?_
      rcases which with rfl | rfl
      · cases given
      · cases given
        exact placed.input
    refine Fallible.safe_releasing (fun _ => stable_alone _) ((safe_idle used).mono ?_)
    rintro result _ rfl
    rw [← same]
    exact safe_promptDrop placed owns
  unfold promptOn
  dsimp only
  by_cases hides : (!useStdin && hide) = true
  · rw [if_pos hides]
    refine Fallible.safe_lift ((safe_hideInput placed owns).mono ?_)
    rintro ⟨hidden,prompt⟩ _ ⟨rfl,placed,owns,same⟩
    exact body hidden placed owns same
  · rw [if_neg hides]
    exact body _ placed owns rfl

theorem safe_launchPrompt (msg : String) (flags : RunFlags) :
    opening.Safe (launchPrompt msg flags).run (fun _ k' => k' = ∅) ∅ := by
  rw [launchPrompt_parts]
  refine Fallible.safe_bind_alone ((safe_receiverInstall (Finset.notMem_empty _)).mono fun result k' installed => ?_)
  cases result with
  | error error => exact installed.2 error rfl
  | ok signals =>
    obtain ⟨known,rfl⟩ := installed.1 signals rfl
    have receives {k : Finset Fd} (isOpen : .signal ∈ k) : Usable k signals.fd := .inr (known ▸ isOpen)
    have drops : opening.Safe signals.drop (fun _ k' => k' = ∅) {.signal} := by
      refine (safe_receiverDrop known (Finset.mem_singleton_self _)).mono ?_
      rintro _ _ rfl
      rfl
    have onStandard (useStdin : Bool) : opening.Safe (promptOn msg signals useStdin (flags.meets .promptHide)
        (.stdin,.stderr,false)).run (fun _ k' => opening.Safe signals.drop (fun _ k' => k' = ∅) k') {.signal} := by
      refine (safe_promptOn msg (receives (Finset.mem_singleton_self _)) useStdin _ ⟨.inl rfl,.inl rfl,
        receives (Finset.mem_singleton_self _)⟩ fun owned => (by cases owned)).mono ?_
      rintro _ _ rfl
      exact drops
    refine Fallible.safe_releasing (fun _ => stable_alone _) ?_
    cases flags.meets .authStdin with
    | true => exact onStandard true
    | false =>
      have closed : .tty ∉ (insert .signal ∅ : Finset Fd) := by decide
      refine .call_alone closed fun answer k' taken => ?_
      cases answer with
      | error error =>
        cases taken
        exact onStandard false
      | ok =>
        cases (taken : k' = {.tty,.signal})
        have tty : Usable {.tty,.signal} .tty := .inr (by decide)
        have signal := receives (show .signal ∈ ({.tty,.signal} : Finset Fd) by decide)
        refine (safe_promptOn msg signal false _ ⟨tty,tty,signal⟩ fun _ => ⟨rfl,rfl,by decide⟩).mono ?_
        rintro _ _ rfl
        exact drops

/-! By the helper. -/

theorem safe_closing {fd : Fd} {f : Unit → M β} {Q : Except Error β → Finset Fd → Prop} (isOpen : fd ∈ k)
    (ends : opening.Safe (f ()).run Q (k.erase fd)) (fails : ∀ error,Q (.error error) (k.erase fd)) :
    opening.Safe (Fallible.ask (.close fd) >>= fun answer => orFail answer >>= f).run Q k := by
  refine Fallible.safe_ask_alone isOpen fun answer k' taken => ?_
  cases (taken : k' = k.erase fd)
  exact safe_then (uses_orFail answer) (fun _ => ends) fails

theorem safe_helperSetup : opening.Safe helperSetup.run (fun result k' => (∀ value,result = .ok value → k' = allEnds) ∧
    allEnds ⊆ k') (both .passwd ∪ allEnds) := by
  have failed {k : Finset Fd} (held : allEnds ⊆ k) (error : Error) :
      (∀ value,(.error error : Except Error Unit) = .ok value → k = allEnds) ∧ allEnds ⊆ k :=
    ⟨fun _ same => (by cases same),held⟩
  have first : (both .passwd ∪ allEnds).erase (.pipe .passwd .read) = insert (.pipe .passwd .write) allEnds := by decide
  have second : (insert (.pipe .passwd .write) allEnds).erase (.pipe .passwd .write) = allEnds := by decide
  have third : (insert .devNull allEnds).erase .devNull = allEnds := by decide
  have lowers : Fallible.Uses (Idle allEnds) (do
      let uid ← ask .getuid
      let gid ← ask .getgid
      orFail (← ask (.setresgid gid gid gid))
      orFail (← ask (.setresuid uid uid uid))
      setParentExitSignal .sigkill : M Unit) :=
    .bind (.ask ⟨trivial,fun _ => rfl⟩) fun uid => .bind (.ask ⟨trivial,fun _ => rfl⟩) fun gid =>
      .bind (.ask ⟨trivial,fun _ => rfl⟩) fun answer => .bind (uses_orFail answer) fun _ =>
      .bind (.ask ⟨trivial,fun _ => rfl⟩) fun answer => .bind (uses_orFail answer) fun _ =>
      uses_setParentExitSignal ⟨trivial,fun _ => rfl⟩
  refine safe_closing (show .pipe .passwd .read ∈ both .passwd ∪ allEnds by decide) ?_ (failed (by decide))
  rw [first]
  refine safe_asks ⟨⟨.inr (Finset.mem_insert_self _ _),rfl⟩,fun _ => rfl⟩ fun answer => safe_then (uses_orFail answer)
    (fun _ => ?_) (failed (Finset.subset_insert _ _))
  refine safe_closing (show .pipe .passwd .write ∈ insert (.pipe .passwd .write) allEnds by decide) ?_ (failed (by decide))
  rw [second]
  have closed : .devNull ∉ allEnds := by decide
  refine Fallible.safe_ask_alone closed fun answer k' taken => ?_
  cases answer with
  | error error =>
    cases taken
    exact .done_alone (failed (Finset.Subset.refl _) _)
  | ok =>
    obtain rfl : k' = insert .devNull allEnds := taken
    refine safe_asks ⟨⟨.inr (Finset.mem_insert_self _ _),rfl⟩,fun _ => rfl⟩ fun answer => safe_then (uses_orFail answer)
      (fun _ => ?_) (failed (Finset.subset_insert _ _))
    refine safe_closing (show .devNull ∈ insert .devNull allEnds by decide) ?_ (failed (by decide))
    rw [third]
    refine (safe_idle lowers).mono ?_
    rintro result _ rfl
    exact ⟨fun _ _ => rfl,Finset.Subset.refl _⟩

/-- The helper has nothing of the program open but the standard descriptors. -/
theorem safe_helperBody (msg : String) : opening.Safe (helperBody msg ForkSync.fresh).run (fun _ _ => True)
    (both .passwd ∪ allEnds) := by
  have rest : allEnds \ ends .parent = ends .child := by decide
  have empty : ends .child \ ends .child = ∅ := by decide
  have becomes : Fallible.Uses (Idle ∅) (helperExec msg) := by
    refine uses_helperExec (fun event known => ?_) msg
    cases event <;> first | exact ⟨trivial,fun _ => rfl⟩ | exact ⟨rfl,fun _ => rfl⟩ | cases known
  refine Fallible.safe_bind_alone (Fallible.safe_releasingOnError (fun _ => stable_alone _)
    (safe_helperSetup.mono fun result k' set => ?_))
  cases result with
  | error error => exact (safe_syncDrop set.2).mono fun _ _ _ => trivial
  | ok value =>
    cases set.1 value rfl
    refine Fallible.safe_lift ((safe_intoChild (Finset.Subset.refl _)).mono ?_)
    rintro pipe _ ⟨rfl,rfl⟩
    rw [rest]
    refine Fallible.safe_bind_alone ((safe_readyAndWait (Finset.Subset.refl _)).mono ?_)
    rintro result _ rfl
    rw [empty]
    cases result with
    | error error => trivial
    | ok decision =>
      dsimp only
      split
      · exact .done_alone trivial
      · exact (safe_idle becomes).mono fun _ _ _ => trivial

/-- The helper's process does not come back. -/
theorem safe_helperChild (msg : String) : opening.Safe (helperChild msg ForkSync.fresh).run (fun _ _ => False)
    (both .passwd ∪ allEnds) := by
  refine Fallible.safe_lift ((safe_helperBody msg).mono ?_)
  rintro result k -
  cases result with
  | ok never => exact never.elim
  | error error => exact safe_asks ⟨trivial,fun _ => rfl⟩ fun _ => .call_alone trivial fun never => nomatch never

theorem safe_helperInstall (child : Pid) : opening.Safe (helperInstall child).run (fun result k' =>
    (∀ receiver,result = .ok receiver → receiver.fd = .signal ∧ k' = insert .signal (insert (.pipe .passwd .read) allEnds)) ∧
      ∀ error,result = .error error → k' = insert (.pipe .passwd .read) allEnds) (both .passwd ∪ allEnds) := by
  have first : (both .passwd ∪ allEnds).erase (.pipe .passwd .write) = insert (.pipe .passwd .read) allEnds := by decide
  have failed (error : Error) : (∀ receiver,(.error error : Except Error SignalReceiver) = .ok receiver →
      receiver.fd = .signal ∧ insert (.pipe .passwd .read) allEnds = insert .signal (insert (.pipe .passwd .read) allEnds)) ∧
      ∀ other,(.error error : Except Error SignalReceiver) = .error other → insert (.pipe .passwd .read) allEnds = insert (.pipe .passwd .read) allEnds :=
    ⟨fun _ same => (by cases same),fun _ _ => rfl⟩
  refine safe_closing (show .pipe .passwd .write ∈ both .passwd ∪ allEnds by decide) ?_ (first ▸ failed)
  rw [first]
  exact safe_asks ⟨trivial,fun _ => rfl⟩ fun answer => safe_then (uses_orFail answer)
    (fun _ => safe_receiverInstall (by decide)) failed

/-- The prompt reads where it was placed, and stays there. -/
theorem safe_promptRead {prompt : Prompt} (placed : Placed k prompt) (count : Nat) :
    opening.Safe (prompt.read count).run (fun result k' => k' = k ∧ ∀ found,result = .ok found → Placed k found.2) k := by
  have fails (error : Error) : k = k ∧ ∀ found : Option Bytes × Prompt,
      (.error error : Except Error (Option Bytes × Prompt)) = .ok found → Placed k found.2 :=
    ⟨rfl,fun _ same => (by cases same)⟩
  have finds (bytes : Option Bytes) {after : Prompt} (there : Placed k after) : k = k ∧ ∀ found,
      (.ok (bytes,after) : Except Error (Option Bytes × Prompt)) = .ok found → Placed k found.2 := by
    refine ⟨rfl,?_⟩
    rintro _ same
    cases same
    exact there
  have polls : Idle k (.poll [some prompt.interrupt,if prompt.inputEof then none else some prompt.input]) := by
    refine polls_usable placed.interrupt fun fd given => ?_
    split at given
    · cases given
    · cases given
      exact placed.input
  refine Fallible.safe_iterate (fun _ => stable_alone (· = k)) (fun _ => stable_alone _) rfl ?_
  rintro _ _ rfl
  refine safe_asks polls fun answer => ?_
  rcases answer with error | events
  · cases error <;> first | exact .done_alone rfl | exact .done_alone (fails _)
  · dsimp only
    split
    · exact .done_alone (finds none placed)
    · split
      · exact .done_alone (fails _)
      · split
        · exact .done_alone rfl
        · split
          · refine safe_asks ⟨placed.input,fun _ => rfl⟩ fun answer => ?_
            rcases answer with error | bytes
            · cases error <;> first | exact .done_alone (finds none placed) | exact .done_alone (fails _)
            · exact .done_alone (finds _ ⟨placed.input,placed.output,placed.interrupt⟩)
          · split
            · exact .done_alone (fails _)
            · exact .done_alone rfl

theorem safe_helperReact (child : Pid) (state : HelperState) (event : SignalEvent) :
    opening.Safe (helperReact child state event).run (fun result k' => k' = k ∧
      ∀ next,result = .ok next → next.prompt = state.prompt) k := by
  have fails (error : Error) : k = k ∧ ∀ next,(.error error : Except Error HelperState) = .ok next →
      next.prompt = state.prompt := ⟨rfl,fun _ same => (by cases same)⟩
  have gives (next : HelperState) (same : next.prompt = state.prompt) : k = k ∧
      ∀ other,(.ok next : Except Error HelperState) = .ok other → other.prompt = state.prompt := by
    refine ⟨rfl,fun other given => ?_⟩
    cases given
    exact same
  unfold helperReact
  split
  · exact .done_alone (fails _)
  · refine Fallible.safe_iterate (I := fun next k' => k' = k ∧ next.prompt = state.prompt) (fun _ => stable_alone _)
      (fun _ => stable_alone _) ⟨rfl,rfl⟩ ?_
    rintro next _ ⟨rfl,same⟩
    refine safe_asks ⟨trivial,fun _ => rfl⟩ fun answer => ?_
    split
    · exact .done_alone (gives _ same)
    · exact .done_alone (gives _ same)
    · exact .done_alone (gives _ same)
    · exact .done_alone ⟨rfl,same⟩
    · exact .done_alone ⟨rfl,same⟩
    · exact .done_alone ⟨rfl,same⟩
    · exact .done_alone (fails _)
  · next signal _ _ =>
    have passes : Idle k (.kill (-child) signal) := ⟨trivial,fun _ => rfl⟩
    refine Fallible.safe_lift ((safe_idle (uses_discard passes)).mono ?_)
    rintro _ _ rfl
    exact .done_alone (gives _ rfl)

theorem safe_helperLoop {signals : SignalReceiver} {prompt : Prompt} (child : Pid) (placed : Placed k prompt)
    (receives : Usable k signals.fd) : opening.Safe (helperLoop child signals prompt).run (fun _ k' => k' = k) k := by
  refine Fallible.safe_iterate (I := fun state k' => k' = k ∧ Placed k state.prompt) (fun _ => stable_alone _)
    (fun _ => stable_alone _) ⟨rfl,placed⟩ ?_
  rintro state _ ⟨rfl,placed⟩
  refine Fallible.safe_bind_alone ((safe_promptRead placed 128).mono ?_)
  rintro result _ ⟨rfl,found⟩
  cases result with
  | error error => rfl
  | ok pair =>
    obtain ⟨chunk,prompt⟩ := pair
    have placed : Placed _ prompt := found _ rfl
    cases chunk with
    | some chunk =>
      dsimp only
      split
      · exact .done_alone rfl
      · exact .done_alone ⟨rfl,placed⟩
    | none =>
      refine safe_then (uses_receiverRead ⟨receives,fun _ => rfl⟩) (fun event => ?_) fun _ => rfl
      cases event with
      | none => exact .done_alone ⟨rfl,placed⟩
      | some event =>
        refine Fallible.safe_bind_alone ((safe_helperReact child { state with prompt := prompt } event).mono ?_)
        rintro result _ ⟨rfl,kept⟩
        cases result with
        | error error => rfl
        | ok next =>
          have same : next.prompt = prompt := kept next rfl
          rw [← same] at placed
          dsimp only
          split
          · exact .done_alone rfl
          · exact .done_alone ⟨rfl,placed⟩

/-- What the parent does with the helper once it can watch it. -/
def helperWatch (child : Pid) (sync : ForkSync) (signals : SignalReceiver) : M String := do
  let prompt := Prompt.new (.pipe .passwd .read) (.pipe .passwd .read) signals.fd true
  Fallible.releasing (do prompt.drop; signals.drop) do
    let endpoint ← sync.intoParent
    if (← endpoint.readyAndWait) ≠ .continue then
      throw (.staticMessage "askpass helper failed during startup")
    helperResult (← helperLoop child signals prompt)

theorem helperParent_watches (child : Pid) (sync : ForkSync) : helperParent child sync =
    Fallible.releasingOnError sync.drop (helperInstall child) >>= helperWatch child sync := rfl

theorem safe_helperWatch (child : Pid) {signals : SignalReceiver} (known : signals.fd = .signal) :
    opening.Safe (helperWatch child ForkSync.fresh signals).run (fun _ k' => k' = ∅)
      (insert .signal (insert (.pipe .passwd .read) allEnds)) := by
  have rest : insert .signal (insert (.pipe .passwd .read) allEnds) \ ends .child =
      insert .signal (insert (.pipe .passwd .read) (ends .parent)) := by decide
  have last : insert .signal (insert (.pipe .passwd .read) (ends .parent)) \ ends .parent =
      {.signal,.pipe .passwd .read} := by decide
  have receives : Usable {.signal,.pipe .passwd .read} signals.fd := .inr (by rw [known]; decide)
  have reads : Usable {.signal,.pipe .passwd .read} (.pipe .passwd .read) := .inr (by decide)
  have closes : opening.Safe (do
      discard (.close (.pipe .passwd .read))
      signals.drop : Calls Unit) (fun _ k' => k' = ∅) {.signal,.pipe .passwd .read} := by
    refine Setting.Safe.bind ((safe_close (by decide)).mono ?_)
    rintro _ _ rfl
    refine (safe_receiverDrop known (by decide)).mono ?_
    rintro _ _ rfl
    decide
  refine Fallible.safe_releasing (fun _ => stable_alone _) (Fallible.safe_lift ((safe_intoParent (by decide)).mono ?_))
  rintro pipe _ ⟨rfl,rfl⟩
  rw [rest]
  refine Fallible.safe_bind_alone ((safe_readyAndWait (by decide)).mono ?_)
  rintro result _ rfl
  rw [last]
  cases result with
  | error error => exact closes
  | ok decision =>
    dsimp only
    split
    · exact .done_alone closes
    · refine Fallible.safe_bind_alone ((safe_helperLoop child ⟨reads,reads,receives⟩ receives).mono ?_)
      rintro result _ rfl
      cases result with
      | error error => exact closes
      | ok state =>
        refine (safe_idle ((silent_helperResult state).mono fun _ absurd => absurd.elim)).mono ?_
        rintro _ _ rfl
        exact closes

theorem safe_helperInstalled (child : Pid) :
    opening.Safe (Fallible.releasingOnError ForkSync.fresh.drop (helperInstall child)).run (fun result k' =>
      (∀ receiver,result = .ok receiver → receiver.fd = .signal ∧ k' = insert .signal (insert (.pipe .passwd .read) allEnds)) ∧
        ∀ error,result = .error error → k' = {.pipe .passwd .read}) (both .passwd ∪ allEnds) := by
  have last : insert (.pipe .passwd .read) allEnds \ allEnds = {.pipe .passwd .read} := by decide
  refine Fallible.safe_releasingOnError (fun _ => stable_alone _) ((safe_helperInstall child).mono fun result k' installed => ?_)
  cases result with
  | ok receiver =>
    refine ⟨fun other same => ?_,fun _ same => (by cases same)⟩
    cases same
    exact installed.1 receiver rfl
  | error error =>
    obtain rfl := installed.2 error rfl
    refine (safe_syncDrop (Finset.subset_insert _ _)).mono ?_
    rintro _ _ rfl
    exact ⟨fun _ same => (by cases same),fun _ _ => last⟩

theorem safe_launchHelper (msg : String) : opening.Safe (launchHelper msg).run (fun _ _ => True) ∅ := by
  refine Fallible.safe_ask_alone (Finset.disjoint_empty_left _) fun answer k' taken => ?_
  cases answer with
  | error error => exact .done_alone trivial
  | ok =>
    obtain rfl : k' = both .passwd := taken.trans (by decide : ∅ ∪ both .passwd = both .passwd)
    rw [orFail_ok,pure_bind]
    refine Fallible.safe_bind_alone ((safe_syncNew (by decide)).mono fun result k' made => ?_)
    cases result with
    | error error => trivial
    | ok sync =>
      obtain ⟨rfl,rfl⟩ := made.1 sync rfl
      refine safe_asks ⟨trivial,fun _ => rfl⟩ fun forked => ?_
      split
      · exact (safe_helperChild msg).mono fun _ _ absurd => absurd.elim
      · next child =>
        rw [helperParent_watches]
        refine Fallible.safe_bind_alone ((safe_helperInstalled child).mono fun result k' installed => ?_)
        cases result with
        | error error => trivial
        | ok signals =>
          obtain ⟨known,rfl⟩ := installed.1 signals rfl
          exact (safe_helperWatch child known).mono fun _ _ _ => trivial
      · refine Fallible.safe_lift ((safe_syncDrop (by decide)).mono ?_)
        rintro _ _ rfl
        exact .done_alone trivial

theorem safe_askPassword (build : Build) (msg : String) (flags : RunFlags) :
    opening.Safe (askPassword build msg flags).run (fun _ k' =>
      (build.withAskpassSupport && flags.contains .authAskpass) = false → k' = ∅) ∅ := by
  unfold askPassword
  split
  · next asks => exact (safe_launchHelper msg).mono fun _ _ _ other => (by rw [asks] at other; cases other)
  · refine Setting.Safe.mono ?_ fun _ _ same _ => same
    refine Fallible.safe_iterate (I := fun _ k' => k' = ∅) (fun _ => stable_alone _) (fun _ => stable_alone _) rfl ?_
    rintro _ _ rfl
    refine Fallible.safe_lift ((safe_launchPrompt msg flags).mono ?_)
    rintro result _ rfl
    rcases result with error | password
    · cases error with
      | interrupted signal =>
        have raises : Idle ∅ (.raise signal) := ⟨trivial,fun _ => rfl⟩
        refine Fallible.safe_lift ((safe_idle (uses_discard raises)).mono ?_)
        rintro _ _ rfl
        exact .done_alone rfl
      | _ => exact .done_alone rfl
    · exact .done_alone rfl

/-! What the helper's launch leaves open, by what its record tells. -/

/-- The calls that tell how far the launch has come. -/
def tells : Call → Bool
  | .pipe .passwd _ | .fork | .signalfd _ => true
  | _ => false

theorem quiet_drop (fd : Option Fd) : (Descriptor.drop fd).Uses fun event => tells event = false := by
  cases fd with
  | none => trivial
  | some fd => exact uses_discard rfl

theorem quiet_syncDrop (sync : ForkSync) : sync.drop.Uses fun event => tells event = false :=
  Program.Uses.bind (quiet_drop _) fun _ => Program.Uses.bind (quiet_drop _) fun _ =>
    Program.Uses.bind (quiet_drop _) fun _ => quiet_drop _

theorem quiet_syncNew : Fallible.Uses (fun event => tells event = false) ForkSync.new := by
  have pipes (side : Side) : Fallible.Uses (fun event => tells event = false) (Descriptor.pipe (.status side)) :=
    .bind (.ask rfl) fun answer => .bind (uses_orFail answer) fun _ => trivial
  refine .bind (pipes .child) fun pair => ?_
  obtain ⟨parentRead,childWrite⟩ := pair
  exact .bind (.releasingOnError (Program.Uses.bind (quiet_drop (some childWrite)) fun _ => quiet_drop (some parentRead))
    (pipes .parent)) fun _ => trivial

/-- The helper's pipe is there, the parent has forked, and it has its receiver. -/
def Piped (t : List (Exchange Call Answer)) : Prop := ⟨.pipe .passwd false,.ok ()⟩ ∈ t

def Forked (t : List (Exchange Call Answer)) : Prop := ∃ child,⟨.fork,.ok (.parent child)⟩ ∈ t

def Installed (t : List (Exchange Call Answer)) : Prop := ⟨.signalfd helperSignals,.ok ()⟩ ∈ t

/-- The descriptor of the receiver is the last thing the set-up opens. -/
theorem helperInstall_installed {child : Pid} {t : List (Exchange Call Answer)} {result : Except Error SignalReceiver}
    (trace : Trace (helperInstall child).run t result) : Installed t ↔ ∃ signals,result = .ok signals := by
  obtain ⟨closed,t₁,rfl,afterClose⟩ := (trace_call _ _ _ _).mp trace
  cases closed with
  | error _ =>
    obtain ⟨rfl,rfl⟩ := (trace_done _ _ _).mp afterClose
    simp [Installed]
  | ok =>
    obtain ⟨grouped,t₂,rfl,afterGroup⟩ := (trace_call _ _ _ _).mp afterClose
    cases grouped with
    | error _ =>
      obtain ⟨rfl,rfl⟩ := (trace_done _ _ _).mp afterGroup
      simp [Installed]
    | ok =>
      obtain ⟨masked,t₃,rfl,afterMask⟩ := (trace_call _ _ _ _).mp afterGroup
      cases masked with
      | error _ =>
        obtain ⟨rfl,rfl⟩ := (trace_done _ _ _).mp afterMask
        simp [Installed]
      | ok previous =>
        obtain ⟨opened,t₄,rfl,afterOpen⟩ := (trace_call _ _ _ _).mp afterMask
        cases opened with
        | error _ =>
          obtain ⟨restored,t₅,rfl,afterRestore⟩ := (trace_call _ _ _ _).mp afterOpen
          obtain ⟨rfl,rfl⟩ := (trace_done _ _ _).mp afterRestore
          simp [Installed]
        | ok =>
          obtain ⟨rfl,rfl⟩ := (trace_done _ _ _).mp afterOpen
          simp [Installed]

theorem forked_append (t u : List (Exchange Call Answer)) : Forked (t ++ u) ↔ Forked t ∨ Forked u := by
  simp [Forked,exists_or]

theorem installed_append (t u : List (Exchange Call Answer)) : Installed (t ++ u) ↔ Installed t ∨ Installed u :=
  List.mem_append

theorem forked_cons (x : Exchange Call Answer) (t : List (Exchange Call Answer)) :
    Forked (x :: t) ↔ (∃ child,x = ⟨.fork,.ok (.parent child)⟩) ∨ Forked t := by
  simp only [Forked,List.mem_cons,exists_or,eq_comm]

theorem installed_cons (x : Exchange Call Answer) (t : List (Exchange Call Answer)) :
    Installed (x :: t) ↔ x = ⟨.signalfd helperSignals,.ok ()⟩ ∨ Installed t := by
  simp only [Installed,List.mem_cons,eq_comm]

theorem quiet_untold {t : List (Exchange Call Answer)} (quiet : ∀ x ∈ t,tells x.1 = false) : ¬ Forked t ∧ ¬ Installed t := by
  constructor
  · rintro ⟨child,member⟩
    cases quiet _ member
  · intro member
    cases quiet _ member

theorem comesTo_append (after : Finset Fd → (event : Call) → Answer event → Finset Fd) (k : Finset Fd)
    (t u : List (Exchange Call Answer)) : comesTo after k (t ++ u) = comesTo after (comesTo after k t) u :=
  List.foldl_append

theorem helperParent_left {child : Pid} {t : List (Exchange Call Answer)} {result : Except Error String}
    (trace : Trace (helperParent child ForkSync.fresh).run t result) :
    (Installed t ∧ comesTo after (both .passwd ∪ allEnds) t = ∅) ∨
      ¬ Installed t ∧ comesTo after (both .passwd ∪ allEnds) t = {.pipe .passwd .read} := by
  rw [helperParent_watches,Fallible.run_bind,trace_bind] at trace
  obtain ⟨u,installed,v,rfl,installs,rest⟩ := trace
  have reached := (safe_helperInstalled child).ends installs
  rw [comesTo_append,installed_append]
  cases installed with
  | ok signals =>
    obtain ⟨known,same⟩ := reached.1 signals rfl
    have told : Installed u := (helperInstall_installed (Fallible.trace_releasingOnError_ok installs)).mpr ⟨signals,rfl⟩
    rw [same]
    exact .inl ⟨.inl told,(safe_helperWatch child known).ends rest⟩
  | error error =>
    obtain ⟨_,rfl⟩ := (trace_done _ _ _).mp rest
    refine .inr ⟨?_,reached.2 error rfl⟩
    obtain ⟨w,failed,x,rfl,fails,drops⟩ := (trace_bind _ _ _ _).mp installs
    cases failed with
    | ok signals =>
      obtain ⟨same,_⟩ := (trace_done _ _ _).mp drops
      cases same
    | error error =>
      have before : ¬ Installed w := fun told => by
        obtain ⟨_,same⟩ := (helperInstall_installed fails).mp told
        cases same
      have after : ¬ Installed x :=
        (quiet_untold (drops.uses (Program.Uses.bind (quiet_syncDrop _) fun _ => trivial))).2
      rw [installed_append]
      rintro ((told | told) | told)
      · exact before told
      · exact after told
      · cases told

/-- The pipe's read end is left open when the launch fails before it has its receiver, the write
end when it fails before there is a child. -/
theorem launchHelper_left {msg : String} {t : List (Exchange Call Answer)} {result : Except Error String}
    (trace : Trace (launchHelper msg).run t result) (fd : Fd) : fd ∈ left t ↔
      fd = .pipe .passwd .read ∧ Piped t ∧ ¬ Installed t ∨ fd = .pipe .passwd .write ∧ Piped t ∧ ¬ Forked t := by
  obtain ⟨piped,t,rfl,afterPipe⟩ := (trace_call _ _ _ _).mp trace
  cases piped with
  | error _ =>
    obtain ⟨_,rfl⟩ := (trace_done _ _ _).mp afterPipe
    simp [Piped,left,comesTo,after]
  | ok =>
    have afterPipe : Trace (ForkSync.new >>= helperFork msg).run t result := afterPipe
    rw [Fallible.run_bind,trace_bind] at afterPipe
    obtain ⟨u,made,v,rfl,makes,rest⟩ := afterPipe
    have opened : left (⟨.pipe .passwd false,.ok ()⟩ :: (u ++ v)) = comesTo after (comesTo after (both .passwd) u) v :=
      comesTo_append ..
    have reached := (safe_syncNew (by decide : Disjoint (both .passwd) allEnds)).ends makes
    have quiet := quiet_untold (makes.uses quiet_syncNew)
    have piped : Piped (⟨.pipe .passwd false,.ok ()⟩ :: (u ++ v)) := List.mem_cons_self
    rw [opened]
    -- Both ends are open, and neither a child nor a receiver is told of.
    have early {t : List (Exchange Call Answer)} (told : Piped t) (alone : ¬ Forked t) (none : ¬ Installed t) :
        fd ∈ both .passwd ↔ fd = .pipe .passwd .read ∧ Piped t ∧ ¬ Installed t ∨
          fd = .pipe .passwd .write ∧ Piped t ∧ ¬ Forked t := by
      simp only [both,Finset.mem_insert,Finset.mem_singleton,told,alone,none]
      tauto
    cases made with
    | error error =>
      obtain ⟨_,rfl⟩ := (trace_done _ _ _).mp rest
      rw [reached.2 error rfl]
      exact early piped (by simp [forked_cons,quiet.1]) (by simp [installed_cons,quiet.2])
    | ok sync =>
      obtain ⟨rfl,same⟩ := reached.1 sync rfl
      rw [same]
      obtain ⟨forked,w,rfl,afterFork⟩ := (trace_call _ _ _ _).mp rest
      rcases forked with error | child | child
      · have afterDrop : Trace (ForkSync.fresh.drop.bind fun _ => .done (.error (.errno error))) w result := afterFork
        rw [trace_bind] at afterDrop
        obtain ⟨x,_,y,rfl,drops,thrown⟩ := afterDrop
        obtain ⟨_,rfl⟩ := (trace_done _ _ _).mp thrown
        have silent := quiet_untold (drops.uses (quiet_syncDrop _))
        have closed : comesTo after (both .passwd ∪ allEnds) x = both .passwd :=
          ((safe_syncDrop (by decide)).ends drops).trans (by decide)
        have all : comesTo after (both .passwd ∪ allEnds) (⟨.fork,.error error⟩ :: (x ++ [])) = both .passwd := by
          rw [List.append_nil]
          exact closed
        rw [all]
        exact early piped (by simp [forked_cons,forked_append,quiet.1,silent.1])
          (by simp [installed_cons,installed_append,quiet.2,silent.2])
      · exact ((safe_helperChild msg).ends afterFork).elim
      · have told : Forked (⟨.pipe .passwd false,.ok ()⟩ :: (u ++ ⟨.fork,.ok (.parent child)⟩ :: w)) := by
          simp [forked_cons,forked_append]
        have only : Installed (⟨.pipe .passwd false,.ok ()⟩ :: (u ++ ⟨.fork,.ok (.parent child)⟩ :: w)) ↔ Installed w := by
          simp [installed_cons,installed_append,quiet.2]
        have rest : comesTo after (both .passwd ∪ allEnds) (⟨.fork,.ok (.parent child)⟩ :: w) =
            comesTo after (both .passwd ∪ allEnds) w := rfl
        rw [rest,only]
        rcases helperParent_left afterFork with ⟨installed,same⟩ | ⟨none,same⟩
        · simp [same,installed,told]
        · simp [same,none,told,piped]

end Opened

/-- A prompt uses and closes each descriptor only while it is open, and a helper it starts is given
none but the standard ones. On the terminal all of them are closed again. With a helper two may
stay: the pipe's read end if the helper cannot be watched, its write end if there is no helper. -/
theorem askPassword_descriptors (build : Build) (msg : String) (flags : RunFlags) :
    (∀ q t event,Steps record (askPassword build msg flags).run [] q t → q.pending = some event →
      Opened.Proper (Opened.left t) event) ∧
    ∀ t result,Trace (askPassword build msg flags).run t result → ∀ fd,fd ∈ Opened.left t ↔
      (build.withAskpassSupport && flags.contains .authAskpass) = true ∧
        (fd = .pipe .passwd .read ∧ Opened.Piped t ∧ ¬ Opened.Installed t ∨
          fd = .pipe .passwd .write ∧ Opened.Piped t ∧ ¬ Opened.Forked t) := by
  have safe := Opened.safe_askPassword build msg flags
  refine ⟨fun _ _ _ reached pending => safe.calls reached pending,fun t result trace fd => ?_⟩
  by_cases asks : (build.withAskpassSupport && flags.contains .authAskpass) = true
  · rw [askPassword,if_pos asks] at trace
    exact (Opened.launchHelper_left trace fd).trans (and_iff_right asks).symm
  · rw [Opened.left,safe.ends trace (Bool.eq_false_iff.mpr asks)]
    simp [asks]

end Runas
