import Runas.HelperRun

/-! The parent's loop over the helper's output, its end and the signals, in every order in which
these can come. -/
namespace Runas
open Interaction Text HelperRun

/-- The prompt through which the parent reads the helper's output. -/
def helperPrompt : Prompt := Prompt.new (.pipe .passwd .read) (.pipe .passwd .read) .signal true

variable {child : Pid} {calm : Prop} {code : Int} {w got : Bytes} {k : HelperRun} {prompt : Prompt}

/-- A poll does not wait for ever: the output is readable, or a signal is to come. -/
private theorem ready (head : Head calm code w got k) (unfinished : ¬ (k.eof = true ∧ k.status = .reaped)) :
    ∃ m,k.Later m ∧ (m.pending ≠ [] ∨ k.eof = false ∧ m.readable = true) := by
  obtain ⟨m,later,done⟩ := Later.exhaust head.blocked
  have after := head.later later
  obtain ⟨reaped,eof,_⟩ := later.taken head.toGoing
  have past := after.proper
  rw [done] at past
  simp only [proper,Bool.and_eq_true] at past
  refine ⟨m,later,?_⟩
  cases read : k.eof with
  | false => exact .inr ⟨rfl,by simp [readable,past.1]⟩
  | true =>
    left
    have announced := after.announced
    cases status : m.status with
    | zombie other => exact List.ne_nil_of_mem (announced other status)
    | reaped => exact absurd ⟨read,reaped.mp status⟩ unfinished
    | settled | stopped _ | continued => simp [status,HelperStatus.ended] at past

private theorem read_answers (readable : k.readable = true) :
    ∃ answer k',helperKernel child k (.read (.pipe .passwd .read) 128) answer k' := by
  cases pipe : k.pipe with
  | nil =>
    have closed : k.closed = true := by simpa [HelperRun.readable,pipe] using readable
    exact ⟨_,_,k,.now k,[],[],rfl,pipe,Nat.zero_le _,fun _ => ⟨pipe,closed⟩,rfl⟩
  | cons b rest => exact ⟨_,_,k,.now k,[b],rest,rfl,pipe,by simp,by simp,rfl⟩

/-- What a read of the prompt finds: a signal, or the next part of the output. -/
private def Found (calm : Prop) (code : Int) (w got : Bytes) (k : HelperRun) (prompt : Prompt) (k' : HelperRun) :
    Except Error (Option Bytes × Prompt) → Prop
  | .ok (none,found) => found = { prompt with inputEof := k'.eof } ∧ Head calm code w got k' ∧ k'.pending ≠ [] ∧
      k'.weight ≤ k.weight ∧ k'.eof = k.eof ∧ (k'.status = .reaped ↔ k.status = .reaped)
  | .ok (some chunk,found) => found = { prompt with inputEof := k'.eof } ∧ Head calm code w (got ++ chunk) k' ∧
      k'.weight < k.weight ∧ (k'.status = .reaped ↔ k.status = .reaped)
  | .error _ => False

private theorem read_finds (reads : prompt.input = .pipe .passwd .read) (interrupts : prompt.interrupt = .signal)
    (head : Head calm code w got k) (unfinished : ¬ (k.eof = true ∧ k.status = .reaped)) : Total (helperKernel child)
      (fun out k' => Found calm code w got k prompt k' out) (Prompt.read { prompt with inputEof := k.eof } 128).run k := by
  refine Total.fallible_iterate (fun _ now => now = k) (fun _ _ => 0) rfl fun _ now same => ?_
  subst same
  obtain ⟨input,output,interrupt,owned,termios,_⟩ := prompt
  obtain rfl : input = _ := reads
  obtain rfl : interrupt = _ := interrupts
  unfold Prompt.readRound
  dsimp only
  obtain ⟨m,later,waits⟩ := ready head unfinished
  have going := head.toGoing
  refine .fallible_ask ⟨_,_,m,later,⟨⟨_,rfl,polls m _⟩,?_⟩,rfl⟩ fun answer after taken => ?_
  · refine waits.imp_right fun waits => ⟨?_,waits.2⟩
    simp [waits.1]
  · obtain ⟨m,later,⟨⟨events,rfl,polled⟩,waited⟩,rfl⟩ := taken
    have head := (head.later later).look
    have lighter : m.look.weight ≤ now.weight := later.weight_le
    obtain ⟨reaped,eof,_⟩ := later.taken going
    have first := (polled 0).1 rfl
    have second := (polled 1).2
    dsimp only
    simp only [first,Option.getD_some,Bool.or_self]
    cases none : m.pending.isEmpty with
    | false =>
      have some : m.pending ≠ [] := by simpa using none
      exact .done ⟨by rw [eof_look,eof],head,some,lighter,eof,reaped⟩
    | true =>
      have empty : m.pending = [] := List.isEmpty_iff.mp none
      have clean : m.look.spoiled = false := by
        rw [Bool.eq_false_iff]
        intro spoiled
        have inside : .sigchld ∈ m.pending := (overdue_iff.mp (head.misled spoiled)).2.2
        rw [empty] at inside
        cases inside
      obtain ⟨watched,readable⟩ := waited.resolve_left (not_not.mpr empty)
      have still : now.eof = false := by
        rw [Bool.eq_false_iff]
        intro past
        simp [past] at watched
      obtain ⟨flags,there,reads,_⟩ := second (by simp [still])
      simp only [still,Bool.false_eq_true,if_false]
      simp only [there,Option.getD_some,reads,readable,Bool.not_true,Bool.false_eq_true,if_false,if_true]
      refine .fallible_ask ?_ fun answer k' taken => ?_
      · exact read_answers readable
      · obtain ⟨m',later,bytes,rest,rfl,split,_,ended,rfl⟩ := taken
        obtain ⟨stays,open',same⟩ := later.taken head.toGoing
        have before : m'.eof = false := open'.trans (eof.trans still)
        obtain ⟨taken,less⟩ := (head.later later).read before (same.trans clean) split ended
        have heavier := later.weight_le
        refine .done ⟨?_,taken,by omega,stays.trans reaped⟩
        rw [before]

private theorem waitpid_answers (pid : Pid) : ∃ answer k',helperKernel child k (.waitpid pid) answer k' := by
  obtain ⟨script,pipe,closed,status,pending,blocked,eof,spoiled⟩ := k
  cases status with
  | settled => exact ⟨.ok .stillAlive,_,_,.now _,rfl,rfl⟩
  | stopped signal => exact ⟨.ok (.stopped signal),_,_,.now _,rfl,rfl⟩
  | continued => exact ⟨.ok .continued,_,_,.now _,rfl,rfl⟩
  | zombie code => exact ⟨.ok (.exited code),_,_,.now _,rfl,rfl⟩
  | reaped => exact ⟨.error .echild,_,_,.now _,rfl,rfl⟩

private theorem reap_ends {state : HelperState} (unknown : state.childStatus = none) (reaping : Reaping calm code w got k) :
    Total (helperKernel child) (fun out k' => Head calm code w got k' ∧ k'.weight ≤ k.weight ∧ k'.eof = k.eof ∧
        out = .ok { state with childStatus := if k'.status = .reaped then some code else none })
      (Fallible.iterate (helperReapRound child) state).run k := by
  refine Total.fallible_iterate (fun again now => again = state ∧ Reaping calm code w got now ∧ now.weight ≤ k.weight ∧
    now.eof = k.eof) (fun _ now => now.weight) ⟨rfl,reaping,le_rfl,rfl⟩ fun again now kept => ?_
  obtain ⟨rfl,reaping,lighter,eof⟩ := kept
  unfold helperReapRound
  refine .fallible_ask (waitpid_answers child) fun answer k' taken => ?_
  obtain ⟨m,later,taken⟩ := taken
  have weighs := later.weight_le
  obtain ⟨_,same,_⟩ := later.taken reaping.toGoing
  have reaping := reaping.later later
  cases status : m.status with
  | settled =>
    simp only [answers,status] at taken
    obtain ⟨rfl,rfl⟩ := taken
    exact .done ⟨reaping.settled status,weighs.trans lighter,same.trans eof,by simp [status,← unknown]⟩
  | stopped _ | continued =>
    simp only [answers,status] at taken
    obtain ⟨rfl,rfl⟩ := taken
    obtain ⟨again,less⟩ := reaping.told (by rw [status]; rfl)
    exact .done ⟨⟨rfl,again,(less.le.trans weighs).trans lighter,same.trans eof⟩,less.trans_le weighs⟩
  | zombie other =>
    simp only [answers,status] at taken
    obtain ⟨rfl,rfl⟩ := taken
    obtain rfl : other = code := reaping.exits other status
    refine .done ⟨reaping.exit status,?_,same.trans eof,by simp⟩
    simp only [weight,status] at weighs ⊢
    exact weighs.trans lighter
  | reaped => exact absurd status reaping.present

/-- What the loop ends with when nothing misleads it. -/
def HelperState.complete (prompt : Prompt) (code : Int) (w : Bytes) : HelperState where
  prompt := { prompt with inputEof := true }
  buffer := w.take (maxInputLen + 1)
  overflow := decide (maxInputLen + 1 < w.length)
  childStatus := some code

private theorem written_closed {ended : Bool} {script : List Happening} (fits : proper code true ended script = true) :
    written script = [] := by
  induction script generalizing ended with
  | nil => rfl
  | cons happening script ih =>
    cases happening with
    | write _ | close => simp [proper] at fits
    | stop _ | resume | exit _ => exact ih (Bool.and_eq_true_iff.mp fits).2
    | signal _ => exact ih fits

private theorem finished_iff : (HelperState.of prompt code got k).finished = true ↔ k.eof = true ∧ k.status = .reaped := by
  simp only [HelperState.finished,HelperState.of,Bool.and_eq_true]
  split <;> simp [*]

private theorem completes (head : Head calm code w got k) (past : k.eof = true) (reaped : k.status = .reaped) :
    HelperState.of prompt code got k = .complete prompt code w ∧ k.spoiled = false := by
  obtain ⟨closed,empty⟩ := head.ended past
  have whole := head.whole
  have fits := head.proper
  rw [closed] at fits
  rw [empty,written_closed fits,List.append_nil,List.append_nil] at whole
  constructor
  · simp [HelperState.of,HelperState.complete,past,reaped,whole]
  · rw [Bool.eq_false_iff]
    intro spoiled
    have open' := (overdue_iff.mp (head.misled spoiled)).2.1
    rw [past] at open'
    cases open'

/-- What a round leaves: a state to go on from, the complete one, or the error of a `waitpid` too many. -/
def RoundLeft (calm : Prop) (code : Int) (w : Bytes) (k : HelperRun) (prompt : Prompt) (k' : HelperRun) :
    Except Error (HelperState ⊕ HelperState) → Prop
  | .ok (.inl next) => ∃ got,next = .of prompt code got k' ∧ Head calm code w got k' ∧
      ¬ (k'.eof = true ∧ k'.status = .reaped) ∧ k'.weight < k.weight
  | .ok (.inr last) => last = .complete prompt code w ∧ k'.spoiled = false
  | .error error => error = .errno .echild ∧ k'.spoiled = true ∧ ¬ calm

private theorem leaves_round {m : HelperRun} (head : Head calm code w got m) {before : HelperRun} (less : m.weight < before.weight) :
    Total (helperKernel child) (fun out k' => RoundLeft calm code w before prompt k' out)
      (pure (if (HelperState.of prompt code got m).finished then .inr (.of prompt code got m)
        else .inl (.of prompt code got m)) : M (HelperState ⊕ HelperState)).run m := by
  by_cases past : (HelperState.of prompt code got m).finished = true
  · obtain ⟨eof,reaped⟩ := finished_iff.mp past
    rw [if_pos past]
    exact .done (completes head eof reaped)
  · rw [if_neg past]
    exact .done ⟨got,rfl,head,fun both => past (finished_iff.mpr both),less⟩

private theorem pending_later {k' : HelperRun} (later : k.Later k') (waits : k.pending ≠ []) : k'.pending ≠ [] := by
  refine later.keeps (P := fun k => k.pending ≠ []) (fun k happening rest held _ => ?_) waits
  have inserted (signal : Signal) : k.pending.insert signal ≠ [] := List.ne_nil_of_mem List.mem_insert_self
  cases happening with
  | write _ | close => exact held
  | stop _ | resume | exit _ => exact inserted .sigchld
  | signal signal => exact inserted signal

private theorem signal_read (receiver : SignalReceiver) (waits : k.pending ≠ []) : Total (helperKernel child)
    (fun out k' => ∃ signal m,out = .ok (some ⟨signal.number⟩) ∧ k.Later m ∧ signal ∈ m.pending ∧
      k' = m.serve signal) receiver.read.run k := by
  unfold SignalReceiver.read
  refine .fallible_ask ?_ fun answer k' taken => ?_
  · obtain ⟨signal,inside⟩ := List.exists_mem_of_ne_nil _ waits
    exact ⟨.ok (some signal.number),_,k,.now k,.inl ⟨signal,inside,rfl,rfl⟩⟩
  · obtain ⟨m,later,⟨signal,inside,rfl,rfl⟩ | ⟨empty,_,_⟩⟩ := taken
    · exact .done ⟨signal,m,rfl,later,inside,rfl⟩
    · exact absurd empty (pending_later later waits)

private theorem reap_fails (state : HelperState) (going : Going code w got k) (reaped : k.status = .reaped) :
    Total (helperKernel child) (fun out k' => out = .error (.errno .echild) ∧ k'.spoiled = k.spoiled)
      (Fallible.iterate (helperReapRound child) state).run k := by
  refine Total.fallible_iterate (fun _ now => now = k) (fun _ _ => 0) rfl fun again now same => ?_
  subst same
  unfold helperReapRound
  refine .fallible_ask (waitpid_answers child) fun answer k' taken => ?_
  obtain ⟨m,later,taken⟩ := taken
  obtain ⟨stays,_,spoiled⟩ := later.taken going
  have status := stays.mpr reaped
  simp only [answers,status] at taken
  obtain ⟨rfl,rfl⟩ := taken
  exact .done ⟨rfl,spoiled⟩

private theorem react_forwards (state : HelperState) {signal : Signal} (other : signal ≠ .sigchld) :
    helperReact child state ⟨signal.number⟩ = liftM (discard (.kill (-child) signal)) >>= fun _ : Unit => pure state := by
  cases signal with
  | sigchld => exact absurd rfl other
  | _ => rfl

private theorem react_ends {m : HelperRun} (head : Head calm code w got m) (unfinished : ¬ (m.eof = true ∧ m.status = .reaped))
    {signal : Signal} (inside : signal ∈ m.pending) : Total (helperKernel child) (fun out k' => match out with
      | .ok next => next = .of prompt code got k' ∧ Head calm code w got k' ∧ k'.weight < m.weight
      | .error error => error = .errno .echild ∧ k'.spoiled = true ∧ ¬ calm)
      (helperReact child (.of prompt code got m) ⟨signal.number⟩).run (m.serve signal) := by
  have lighter := serve_weight inside
  by_cases own : signal = .sigchld
  · subst own
    by_cases reaped : m.status = .reaped
    · have open' : m.eof = false := Bool.eq_false_iff.mpr fun past => unfinished ⟨past,reaped⟩
      have late : m.overdue = true := overdue_iff.mpr ⟨reaped,open',inside⟩
      refine (reap_fails _ (head.toGoing.serve .sigchld) reaped).mono ?_
      rintro out k' ⟨rfl,same⟩
      refine ⟨rfl,same.trans (Bool.or_eq_true_iff.mpr (.inr late)),fun still => ?_⟩
      exact absurd late (Bool.eq_false_iff.mp (head.timely still))
    · refine (reap_ends (by simp [HelperState.of,reaped]) (head.served inside reaped)).mono ?_
      rintro out k' ⟨head,less,eof,rfl⟩
      exact ⟨by simp [HelperState.of,eof],head,less.trans_lt lighter⟩
  · have after := head.forwarded own
    rw [react_forwards _ own]
    refine .fallible_bind (.lift (.call ⟨.ok (),_,_,.now _,rfl⟩ ?_))
    rintro answer k' ⟨m',later,same⟩
    obtain rfl : k' = m' := same
    obtain ⟨reaped,eof,_⟩ := later.taken after.toGoing
    exact .done (.done ⟨by simp only [HelperState.of,reaped,eof,status_serve,eof_serve],after.later later,later.weight_le.trans_lt lighter⟩)

theorem helperRound_ends (reads : prompt.input = .pipe .passwd .read) (interrupts : prompt.interrupt = .signal)
    (signals : SignalReceiver) (head : Head calm code w got k) (unfinished : ¬ (k.eof = true ∧ k.status = .reaped)) :
    Total (helperKernel child) (fun out k' => RoundLeft calm code w k prompt k' out)
      (helperRound child signals (.of prompt code got k)).run k := by
  unfold helperRound
  refine .fallible_bind ((read_finds reads interrupts head unfinished).mono ?_)
  intro out k' found
  rcases out with error | ⟨none | chunk,next⟩
  · exact found.elim
  · obtain ⟨rfl,head,waits,lighter,eof,reaped⟩ := found
    have same : { HelperState.of prompt code got k with prompt := { prompt with inputEof := k'.eof } } =
        HelperState.of prompt code got k' := by
      simp only [HelperState.of,reaped]
    dsimp only
    rw [same]
    refine .fallible_bind ((signal_read signals waits).mono ?_)
    rintro out k'' ⟨signal,m,rfl,later,inside,rfl⟩
    obtain ⟨stays,open',_⟩ := later.taken head.toGoing
    have moved : HelperState.of prompt code got k' = HelperState.of prompt code got m := by
      simp only [HelperState.of,stays,open']
    have unfinished : ¬ (m.eof = true ∧ m.status = .reaped) := by
      rwa [open',eof,stays,reaped]
    have less := later.weight_le
    dsimp only
    rw [moved]
    refine .fallible_bind ((react_ends (head.later later) unfinished inside).mono ?_)
    intro out after reacted
    cases out with
    | ok next =>
      obtain ⟨rfl,head,fewer⟩ := reacted
      exact leaves_round head (by omega)
    | error error => exact reacted
  · obtain ⟨rfl,head,lighter,reaped⟩ := found
    have same := HelperState.of_accept prompt code got chunk reaped
    dsimp only
    rw [same]
    exact leaves_round head lighter

/-- The whole loop: it comes to the complete state unless a signal was overdue. -/
theorem helperLoop_ends (reads : prompt.input = .pipe .passwd .read) (interrupts : prompt.interrupt = .signal)
    (opened : prompt.inputEof = false) (signals : SignalReceiver) (head : Head calm code w [] k) (eof : k.eof = false)
    (present : k.status ≠ .reaped) : Total (helperKernel child) (fun out k' =>
      out = (if k'.spoiled then .error (.errno .echild) else .ok (.complete prompt code w)) ∧ (calm → k'.spoiled = false))
      (helperLoop child signals prompt).run k := by
  have begins : ⟨prompt,[],false,none⟩ = HelperState.of prompt code [] k := by
    cases prompt
    simp_all [HelperState.of]
  unfold helperLoop
  rw [begins]
  refine Total.fallible_iterate (fun state now => ∃ got,state = .of prompt code got now ∧ Head calm code w got now ∧
      ¬ (now.eof = true ∧ now.status = .reaped)) (fun _ now => now.weight)
    ⟨[],rfl,head,fun both => present both.2⟩ fun state now kept => ?_
  obtain ⟨got,rfl,head,unfinished⟩ := kept
  refine (helperRound_ends reads interrupts signals head unfinished).mono ?_
  intro out k' left
  rcases out with error | next | last
  · obtain ⟨rfl,spoiled,disturbed⟩ := left
    exact ⟨by rw [spoiled]; rfl,fun still => absurd still disturbed⟩
  · obtain ⟨got',rfl,head,unfinished,less⟩ := left
    exact ⟨⟨got',rfl,head,unfinished⟩,less⟩
  · obtain ⟨rfl,clean⟩ := left
    exact ⟨by rw [clean]; rfl,fun _ => clean⟩

end Runas
