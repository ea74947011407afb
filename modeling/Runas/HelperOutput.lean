import Runas.HelperLoop

/-! The password from the askpass helper: what the whole of `launch_helper` makes of its output
and of its exit. -/
namespace Runas
open Interaction Text HelperRun

/-- What the parent makes of an output and a status. -/
def helperAnswer (code : Int) (w : Bytes) : Except Error String :=
  if code ≠ 0 then .error (.message s!"askpass helper exited with status {code}")
  else if maxInputLen + 1 < w.length ∨ maxInputLen < (stripNewline w).length then .error tooLong
  else match decode (stripNewline w) with
    | some password => .ok password
    | none => .error (.invalidUtf8 (utf8Error (stripNewline w)))

section
variable {child : Pid} {calm : Prop} {code : Int} {w : Bytes} {k : HelperRun} {prompt : Prompt} {α : Type}

/-- While nothing is expected a call is answered as it always is. -/
private theorem answered {P : HelperRun → Prop} (stable : ∀ k k',P k → k.Later k' → P k') (event : Call) (value : Answer event)
    (always : ∀ (m : HelperRun) answer k',m.answers child event answer k' ↔ answer = value ∧ k' = m)
    {next : Answer event → Program Call Answer α} {Q : α → HelperRun → Prop} (holds : P k)
    (rest : ∀ m,P m → Total (helperKernel child) Q (next value) m) : Total (helperKernel child) Q (.call event next) k := by
  refine .call ⟨value,k,k,.now k,(always k _ _).mpr ⟨rfl,rfl⟩⟩ fun answer k' taken => ?_
  obtain ⟨m,later,taken⟩ := taken
  obtain ⟨rfl,rfl⟩ := (always m _ _).mp taken
  exact rest _ (stable _ _ holds later)

private theorem result_complete : (helperResult (.complete prompt code w)).run = .done (helperAnswer code w) := by
  unfold helperResult helperAnswer HelperState.complete
  dsimp only
  by_cases failed : code ≠ 0
  · rw [if_pos failed,if_pos failed]
    rfl
  · rw [if_neg failed,if_neg failed]
    by_cases long : maxInputLen + 1 < w.length
    · simp only [long,decide_true,Bool.true_or,true_or,if_true]
      rfl
    · have all : w.take (maxInputLen + 1) = w := List.take_of_length_le (Nat.not_lt.mp long)
      rw [all]
      simp only [long,decide_false,Bool.false_or,false_or]
      by_cases past : maxInputLen < (stripNewline w).length
      · simp only [past,decide_true,if_true]
        rfl
      · simp only [past,decide_false,Bool.false_eq_true,if_false]
        cases decode (stripNewline w) <;> rfl

private theorem helperAnswer_ne_echild : helperAnswer code w ≠ .error (.errno .echild) := by
  unfold helperAnswer tooLong
  split
  · simp
  · split
    · simp
    · split <;> simp

/-- From the fork on, before the loop. -/
private def Waiting (calm : Prop) (code : Int) (w : Bytes) (k : HelperRun) : Prop :=
  Head calm code w [] k ∧ k.eof = false ∧ k.status ≠ .reaped

private theorem waiting_later (k k' : HelperRun) (waiting : Waiting calm code w k) (later : k.Later k') : Waiting calm code w k' := by
  obtain ⟨head,eof,present⟩ := waiting
  obtain ⟨reaped,same,_⟩ := later.taken head.toGoing
  exact ⟨head.later later,same.trans eof,fun past => present (reaped.mp past)⟩

private theorem unblocked_later {script : List Happening} (k k' : HelperRun) (same : k = start script false) (later : k.Later k') :
    k' = start script false := by
  subst same
  cases later with
  | now => rfl
  | next blocked => cases blocked

private theorem new_ends {script : List Happening} : Total (helperKernel child)
    (fun out k' => out = .ok ForkSync.fresh ∧ k' = start script false) ForkSync.new.run (start script false) := by
  refine answered unblocked_later (.pipe (.status .child) true) (.ok ()) (fun _ _ _ => Iff.rfl) rfl fun m same => ?_
  refine answered unblocked_later (.pipe (.status .parent) true) (.ok ()) (fun _ _ _ => Iff.rfl) same fun m same => ?_
  exact .done ⟨rfl,same⟩

/-- The signals are blocked with the receiver, and count from then on. -/
private theorem install_blocks {script : List Happening} (fits : proper code false false script = true) :
    Total (helperKernel child) (fun out k' => (∃ mask,out = .ok ⟨.signal,mask⟩) ∧
      Waiting (exitOnly script = true) code (written script) k') (helperInstall child).run (start script false) := by
  refine answered unblocked_later (.close (.pipe .passwd .write)) (.ok ()) (fun _ _ _ => Iff.rfl) rfl fun m same => ?_
  refine answered unblocked_later (.setpgid child child) (.ok ()) (fun _ _ _ => Iff.rfl) same fun m same => ?_
  subst same
  refine .call ⟨.ok [],_,_,.now _,⟨[],rfl⟩,rfl⟩ fun answer k' taken => ?_
  obtain ⟨m,later,⟨mask,rfl⟩,rfl⟩ := taken
  obtain rfl := unblocked_later _ _ rfl later
  refine answered waiting_later (.signalfd helperSignals) (.ok ()) (fun _ _ _ => Iff.rfl)
    ⟨.start fits,rfl,by simp [start]⟩ fun m waiting => ?_
  exact .done ⟨⟨mask,rfl⟩,waiting⟩

private theorem ready_ends (waiting : Waiting calm code w k) : Total (helperKernel child)
    (fun out k' => out = .ok .continue ∧ Waiting calm code w k')
    (ForkEndpoint.readyAndWait ⟨ForkSync.fresh.parentWrite,ForkSync.fresh.parentRead,false⟩).run k := by
  refine .loop (answered waiting_later (.write (.pipe (.status .parent) .write) [statusReady]) (.ok 1) (fun _ _ _ => Iff.rfl)
    waiting fun m waiting => ?_)
  refine answered waiting_later (.close (.pipe (.status .parent) .write)) (.ok ()) (fun _ _ _ => Iff.rfl) waiting fun m waiting => ?_
  refine .loop (answered waiting_later (.read (.pipe (.status .child) .read) 1) (.ok [statusReady]) (fun m answer k' => ?_)
    waiting fun m waiting => ?_)
  · simp [answers]
  · refine answered waiting_later (.close (.pipe (.status .child) .read)) (.ok ()) (fun _ _ _ => Iff.rfl) waiting fun m waiting => ?_
    exact .done ⟨rfl,waiting⟩

private theorem spoiled_later (spoiled : Bool) (k k' : HelperRun) (same : k.spoiled = spoiled) (later : k.Later k') :
    k'.spoiled = spoiled :=
  later.keeps (P := fun k => k.spoiled = spoiled) (fun _ happening _ held _ => (spoiled_happen _ happening).trans held) same

private theorem released_ends (mask : List Signal) (eof : Bool) : Total (helperKernel child) (fun _ k' => k'.spoiled = k.spoiled)
    (do ({ Prompt.new (.pipe .passwd .read) (.pipe .passwd .read) .signal true with inputEof := eof } : Prompt).drop
        (SignalReceiver.mk .signal mask).drop : Calls Unit) k := by
  refine answered (spoiled_later k.spoiled) (.close (.pipe .passwd .read)) (.ok ()) (fun _ _ _ => Iff.rfl) rfl fun m same => ?_
  refine .call ⟨.ok [],_,_,.now _,⟨[],rfl⟩,rfl⟩ fun answer k' taken => ?_
  obtain ⟨m',later,_,rfl⟩ := taken
  have same := spoiled_later _ _ _ same later
  refine answered (spoiled_later k.spoiled) (.close .signal) (.ok ()) (fun _ _ _ => Iff.rfl) same fun m same => ?_
  exact .done same

private theorem parent_ends {script : List Happening} (fits : proper code false false script = true) : Total (helperKernel child)
    (fun out k' => out = (if k'.spoiled then .error (.errno .echild) else helperAnswer code (written script)) ∧
      (exitOnly script = true → k'.spoiled = false)) (helperParent child ForkSync.fresh).run (start script false) := by
  refine .fallible_bind (.bind ((install_blocks fits).mono ?_))
  rintro out k' ⟨⟨mask,rfl⟩,waiting⟩
  refine .done (.releasing ?_)
  refine answered waiting_later (.close (.pipe (.status .child) .write)) (.ok ()) (fun _ _ _ => Iff.rfl) waiting fun m waiting => ?_
  refine answered waiting_later (.close (.pipe (.status .parent) .read)) (.ok ()) (fun _ _ _ => Iff.rfl) waiting fun m waiting => ?_
  refine .fallible_bind ((ready_ends waiting).mono ?_)
  rintro out k' ⟨rfl,head,eof,present⟩
  refine .fallible_bind ((helperLoop_ends rfl rfl rfl _ head eof present).mono ?_)
  rintro out k' ⟨rfl,calm⟩
  cases spoiled : k'.spoiled with
  | true =>
    refine (released_ends mask false).mono fun _ k'' same => ?_
    rw [same,spoiled]
    exact ⟨rfl,fun still => spoiled.symm.trans (calm still)⟩
  | false =>
    refine (?_ : Total _ _ (helperResult (.complete _ code (written script))).run k')
    rw [result_complete]
    refine .done ((released_ends mask false).mono fun _ k'' same => ?_)
    rw [same,spoiled]
    exact ⟨rfl,fun _ => rfl⟩

/-- What every run of the whole ends with. -/
theorem launchHelper_ends (child : Pid) (msg : String) {script : List Happening} (fits : proper code false false script = true) :
    Total (helperKernel child) (fun out k' => out = (if k'.spoiled then .error (.errno .echild) else helperAnswer code (written script)) ∧
      (exitOnly script = true → k'.spoiled = false)) (launchHelper msg).run (start script false) := by
  refine answered unblocked_later (.pipe .passwd false) (.ok ()) (fun _ _ _ => Iff.rfl) rfl fun m same => ?_
  subst same
  refine .fallible_bind (.done (.fallible_bind (new_ends.mono ?_)))
  rintro out k' ⟨rfl,rfl⟩
  refine answered unblocked_later .fork (.ok (.parent child)) (fun _ _ _ => Iff.rfl) rfl fun m same => ?_
  subst same
  exact parent_ends fits

end

/-- An output and what is left of it without one trailing line ending. -/
inductive Unended : Bytes → Bytes → Prop
  | crlf (body : Bytes) : Unended (body ++ [13,10]) body
  | lf (body : Bytes) (single : body.getLast? ≠ some 13) : Unended (body ++ [10]) body
  | none (body : Bytes) (plain : body.getLast? ≠ some 10) : Unended body body

private theorem Unended.strips {w body : Bytes} (unended : Unended w body) : stripNewline w = body := by
  cases unended with
  | crlf body => simp [stripNewline,List.getLast?_append]
  | lf body single => simp [stripNewline,single]
  | none body plain => simp [stripNewline,plain]

private theorem exists_unended (w : Bytes) : ∃ body,Unended w body := by
  by_cases ended : w.getLast? = some 10
  · obtain ⟨front,rfl⟩ := List.getLast?_eq_some_iff.mp ended
    by_cases double : front.getLast? = some 13
    · obtain ⟨body,rfl⟩ := List.getLast?_eq_some_iff.mp double
      exact ⟨body,by simpa using Unended.crlf body⟩
    · exact ⟨front,.lf front double⟩
  · exact ⟨w,.none w ended⟩

theorem stripNewline_eq_iff {w body : Bytes} : stripNewline w = body ↔ Unended w body := by
  constructor
  · rintro rfl
    obtain ⟨body,unended⟩ := exists_unended w
    rwa [unended.strips]
  · exact Unended.strips

/-- The password is what the helper has written, less a line ending, and within the limit; anything
else is an error. -/
def Exact (w : Bytes) (out : Except Error String) : Prop :=
  ∀ password,out = .ok password ↔ Unended w (encode password) ∧ (encode password).length ≤ maxInputLen

/-- A password of the full length and a line ending of two bytes. -/
def FullCrlf (w : Bytes) : Prop := ∃ password,w = encode password ++ [13,10] ∧ (encode password).length = maxInputLen

private theorem helperAnswer_eq_ok {w : Bytes} {password : String} : helperAnswer 0 w = .ok password ↔
    w.length ≤ maxInputLen + 1 ∧ Unended w (encode password) ∧ (encode password).length ≤ maxInputLen := by
  rw [← stripNewline_eq_iff,eq_comm (a := stripNewline w),← decode_eq_some_iff,helperAnswer,if_neg (by simp)]
  constructor
  · intro answered
    split at answered
    · cases answered
    · next fits =>
      obtain ⟨short,within⟩ := not_or.mp fits
      cases decoded : decode (stripNewline w) with
      | none => simp [decoded] at answered
      | some other =>
        simp only [decoded,Except.ok.injEq] at answered
        subst answered
        exact ⟨Nat.not_lt.mp short,rfl,by rw [decode_eq_some_iff.mp decoded]; exact Nat.not_lt.mp within⟩
  · rintro ⟨short,decoded,within⟩
    rw [decode_eq_some_iff.mp decoded] at within
    rw [if_neg (by omega),decoded]

/-- The answer is exact but for the outputs that are too long only by their line ending. -/
private theorem helperAnswer_exact_iff {w : Bytes} : Exact w (helperAnswer 0 w) ↔ ¬ FullCrlf w := by
  simp only [Exact,helperAnswer_eq_ok,FullCrlf,and_iff_right_iff_imp]
  constructor
  · rintro exact' ⟨password,rfl,full⟩
    have short := exact' password ⟨.crlf _,full.le⟩
    simp [full] at short
  · rintro other password ⟨unended,within⟩
    by_contra long
    generalize same : encode password = body at unended within
    cases unended with
    | crlf body =>
      rw [List.length_append] at long
      exact other ⟨password,by rw [same],by rw [same]; simp at long; omega⟩
    | lf body single =>
      rw [List.length_append] at long
      exact long (by simpa using within)
    | none body plain => omega

/-- A run in which no SIGCHLD is overdue has the answer of its output alone, which is exact but
for one kind of output; none is where nothing but the exit sends one. -/
theorem askpass_exact_iff (child : Pid) (msg : String) {script : List Happening} (fits : proper 0 false false script = true) :
    Total (helperKernel child) (fun out k' => k'.spoiled = false →
        out = helperAnswer 0 (written script) ∧ (Exact (written script) out ↔ ¬ FullCrlf (written script)))
      (launchHelper msg).run (start script false) ∧
    (exitOnly script = true → (Total (helperKernel child) (fun out _ => Exact (written script) out)
      (launchHelper msg).run (start script false) ↔ ¬ FullCrlf (written script))) := by
  have ends := launchHelper_ends child msg fits
  constructor
  · refine ends.mono fun out k' held clean => ?_
    rw [held.1,clean]
    exact ⟨rfl,helperAnswer_exact_iff⟩
  · intro still
    constructor
    · intro total
      obtain ⟨out,k',exact',rfl,clean⟩ := total.meets ends
      rw [clean still] at exact'
      exact helperAnswer_exact_iff.mp exact'
    · intro other
      refine ends.mono fun out k' held => ?_
      rw [held.1,held.2 still]
      exact helperAnswer_exact_iff.mpr other

theorem askpass_exact_letter : Total (helperKernel 7) (fun out _ => Exact [97,10] out) (launchHelper "Password: ").run
    (start [.write [97],.write [10],.close,.exit 0] false) := by
  have fits : proper 0 false false [.write [97],.write [10],.close,.exit 0] = true := by decide
  refine ((askpass_exact_iff 7 "Password: " fits).2 rfl).mpr ?_
  rintro ⟨password,same,full⟩
  have length := congrArg List.length same
  simp [written,full,maxInputLen] at length

/-- A password of 1024 letters is lost with CR LF behind it. -/
theorem full_crlf_refused : ¬ ∀ script,proper 0 false false script = true → exitOnly script = true →
    Total (helperKernel 7) (fun out _ => Exact (written script) out) (launchHelper "Password: ").run (start script false) := by
  intro claimed
  have fits : proper 0 false false [.write (List.replicate 1024 97 ++ [13,10]),.close,.exit 0] = true := rfl
  have letters : encode (String.ofList (List.replicate 1024 'a')) = List.replicate 1024 97 := by
    rw [encode,String.toList_ofList,List.flatMap_replicate]
    exact List.flatten_replicate_singleton
  obtain ⟨out,k',exact',rfl,clean⟩ := (claimed _ fits rfl).meets (launchHelper_ends 7 "Password: " fits)
  rw [clean rfl,if_neg Bool.false_ne_true] at exact'
  refine helperAnswer_exact_iff.mp exact' ⟨String.ofList (List.replicate 1024 'a'),?_,?_⟩
  · rw [letters]
    exact List.append_nil _
  · rw [letters,List.length_replicate]
    rfl

/-- The loop comes to all of the output and to the status, and the whole to the answer to these, if
and only if no SIGCHLD was overdue when the parent looked at its signals. -/
theorem outcome_settled_iff (child : Pid) (msg : String) (mask : List Signal) {code : Int} {script : List Happening}
    (fits : proper code false false script = true) :
    Total (helperKernel child) (fun out k' => (exitOnly script = true → k'.spoiled = false) ∧
        (out = .ok (.complete helperPrompt code (written script)) ↔ k'.spoiled = false))
      (helperLoop child ⟨.signal,mask⟩ helperPrompt).run (start script true) ∧
    Total (helperKernel child) (fun out k' => (exitOnly script = true → k'.spoiled = false) ∧
        (out = helperAnswer code (written script) ↔ k'.spoiled = false))
      (launchHelper msg).run (start script false) := by
  constructor
  · refine (helperLoop_ends rfl rfl rfl ⟨.signal,mask⟩ (.start fits) rfl (by simp [start])).mono ?_
    rintro out k' ⟨rfl,calm⟩
    refine ⟨calm,?_⟩
    cases k'.spoiled <;> simp
  · refine (launchHelper_ends child msg fits).mono ?_
    rintro out k' ⟨rfl,calm⟩
    refine ⟨calm,?_⟩
    cases k'.spoiled with
    | true => simpa using Ne.symm helperAnswer_ne_echild
    | false => simp

theorem outcome_settled_letter : Total (helperKernel 7) (fun out _ => out = .ok "a") (launchHelper "Password: ").run
    (start [.exit 0,.signal .sigterm,.write [97,10],.close] false) := by
  have fits : proper 0 false false [.exit 0,.signal .sigterm,.write [97,10],.close] = true := by decide
  refine (outcome_settled_iff 7 "Password: " [] fits).2.mono ?_
  rintro out k' ⟨calm,settled⟩
  rw [settled.mpr (calm rfl)]
  decide

/-- A helper that is stopped, and goes on and exits between the signal for that and its `waitpid`. -/
theorem late_signal_fails : ¬ ∀ script,proper 0 false false script = true → Total (helperKernel 7)
    (fun out _ => out = .ok (.complete helperPrompt 0 (written script)))
    (helperLoop 7 ⟨.signal,[]⟩ helperPrompt).run (start script true) := by
  intro claimed
  have fits : proper 0 false false [.stop .sigtstp,.resume,.write [97,10],.close,.exit 0] = true := by decide
  have run : Runs (helperKernel 7) (helperLoop 7 ⟨.signal,[]⟩ helperPrompt).run
      (start [.stop .sigtstp,.resume,.write [97,10],.close,.exit 0] true) (.error (.errno .echild))
      ⟨[],[97,10],true,.reaped,[],true,false,true⟩ := by
    -- the stop is announced and its signal read
    refine .loop (.loop ?_)
    refine (runs_call _ _ _ _ _).mpr ⟨_,_,⟨_,.next rfl rfl (.now _),⟨⟨_,rfl,polls _ _⟩,.inl (by decide)⟩,rfl⟩,?_⟩
    refine (runs_call _ _ _ _ _).mpr ⟨_,_,⟨_,.now _,.inl ⟨.sigchld,by decide,rfl,rfl⟩⟩,?_⟩
    -- all the rest happens before the call of `waitpid`, which takes the exit
    refine .loop ?_
    refine (runs_call _ _ _ _ _).mpr ⟨_,_,⟨_,.next rfl rfl (.next rfl rfl (.next rfl rfl (.next rfl rfl (.now _)))),rfl,rfl⟩,?_⟩
    -- the signal that announces the exit is served before the output
    refine .loop (.loop ?_)
    refine (runs_call _ _ _ _ _).mpr ⟨_,_,⟨_,.now _,⟨⟨_,rfl,polls _ _⟩,.inl (by decide)⟩,rfl⟩,?_⟩
    refine (runs_call _ _ _ _ _).mpr ⟨_,_,⟨_,.now _,.inl ⟨.sigchld,by decide,rfl,rfl⟩⟩,?_⟩
    refine .loop ?_
    exact (runs_call _ _ _ _ _).mpr ⟨_,_,⟨_,.now _,rfl,rfl⟩,.done _ _⟩
  cases (claimed _ fits).sound.2 _ _ run

end Runas
