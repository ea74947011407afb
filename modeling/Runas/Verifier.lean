import Runas.Topics

/-! What of a password reaches the verifier: the key of `crypt` in a shadow build, and the
answer to a PAM module. Both are C strings, made of a text that may have a NUL in it. -/
namespace Runas
open Interaction Text

/-- A text the prompt can return. -/
def Returnable (password : String) : Prop :=
  ∃ build msg flags t,Trace (askPassword build msg flags).run t (.ok password)

/-- The key that `crypt` gets in some run in which the prompt has returned the text. -/
def KeyOf (password : String) (key : CString) : Prop :=
  ∃ entry flags t out salt answer,Trace (verifyPassword entry flags).run t out ∧
    ⟨.askPassword promptText (flags.union .promptHide),.ok password⟩ ∈ t ∧ ⟨.crypt key salt,answer⟩ ∈ t

/-- The answer that a PAM module gets in some conversation in which the prompt has returned the text. -/
def ResponseOf (password : String) (response : Bytes) : Prop :=
  ∃ flags style message t asked,Trace (Pam.convPrompt (Conv flags) style message) t (some (.ok (some response))) ∧
    ⟨.askPassword message asked,.ok password⟩ ∈ t

/-- Where one of two texts is returned and the other one in another run, the verifiers get other strings. -/
def Distinguished (p q : String) : Prop :=
  (∀ key key',KeyOf p key → KeyOf q key' → key ≠ key') ∧
    ∀ response response',ResponseOf p response → ResponseOf q response' → response ≠ response'

/-- A text that is the bytes given, or goes on with a NUL behind them. -/
def StartsAs (start : Bytes) (text : String) : Prop := encode text = start ∨ start ++ [0] <+: encode text

private theorem takeWhile_iff {start : Bytes} (plain : 0 ∉ start) (text : Bytes) :
    text.takeWhile (· != 0) = start ↔ text = start ∨ start ++ [0] <+: text := by
  induction start generalizing text with
  | nil =>
    cases text with
    | nil => simp
    | cons b rest => by_cases nul : b = 0 <;> simp [nul,Ne.symm]
  | cons a start ih =>
    have later : 0 ∉ start := fun inside => plain (List.mem_cons_of_mem _ inside)
    have first : a ≠ 0 := fun same => plain (same ▸ List.mem_cons_self)
    cases text with
    | nil => simp
    | cons b rest =>
      by_cases same : b = a
      · subst same
        simp [first,ih later]
      · have other : ¬ a = b := fun equal => same equal.symm
        by_cases nul : b = 0
        · simp [nul,first,first.symm]
        · simp [nul,same,other]

/-- The calls that are made when the prompt has returned the password. -/
private def CryptsWith (password : String) (event : Call) : Prop :=
  (∀ key salt,event = .crypt key salt → key = CString.ofBuffer (encode password)) ∧
    ∀ message flags,event ≠ .askPassword message flags

private def compareHash (entry : ShadowEntry) (pwd : String) : M Unit := do
  let userHash ← crypt pwd entry.passwdHash
  match timeCompare userHash entry.passwdHash with
  | none => panic
  | some true => return ()
  | some false => throw authFailed

private theorem uses_compareHash (entry : ShadowEntry) (pwd : String) :
    Fallible.Uses (CryptsWith pwd) (compareHash entry pwd) := by
  have panics : Fallible.Uses (CryptsWith pwd) (panic : M Unit) := by
    apply Fallible.Uses.bind
    · apply Fallible.Uses.ask
      constructor <;> intros <;> simp_all
    · intro never
      exact never.elim
  apply Fallible.Uses.bind
  · unfold crypt
    refine .bind (uses_cstr _) fun salt => .bind (.ask ⟨?_,?_⟩) fun answer => ?_
    · intro key salt same
      cases same
      rfl
    · simp
    · cases answer <;> trivial
  · intro hash
    split
    · exact panics
    · trivial
    · trivial

theorem keyOf_iff (password : String) (key : CString) : KeyOf password key ↔ key = CString.ofBuffer (encode password) := by
  constructor
  · rintro ⟨entry,flags,t,out,salt,answer,trace,asked,handed⟩
    obtain ⟨first,rest,rfl,continued⟩ := (trace_call _ _ _ _).mp trace
    have late := (List.mem_cons.mp handed).resolve_left (by simp)
    cases first with
    | error error =>
      obtain ⟨_,rfl⟩ := (trace_done _ _ _).mp continued
      simp at late
    | ok pwd =>
      have used := Trace.uses (p := (compareHash entry pwd).run) continued (uses_compareHash entry pwd)
      rcases List.mem_cons.mp asked with same | later
      · cases same
        have hands : CryptsWith password (.crypt key salt) := used ⟨.crypt key salt,answer⟩ late
        exact hands.1 key salt rfl
      · exact absurd rfl ((used _ later).2 _ _)
  · rintro rfl
    refine ⟨⟨"",0,0,0,0⟩,.none,[⟨.askPassword promptText (RunFlags.none.union .promptHide),.ok password⟩,
      ⟨.crypt (CString.ofBuffer (encode password)) ⟨[],by decide⟩,.error .einval⟩],_,_,_,
      .call (.call (.done _)),List.mem_cons_self,List.mem_cons_of_mem _ List.mem_cons_self⟩

theorem responseOf_iff (password : String) (response : Bytes) : ResponseOf password response ↔ response = Pam.cText password := by
  constructor
  · rintro ⟨flags,style,message,t,asked,trace,member⟩
    obtain ⟨first,rest,rfl,continued⟩ := (trace_call _ _ _ _).mp trace
    cases first with
    | error error =>
      change Trace ((Pam.callbackError error).bind fun code =>
        .done (some (.error code) : Pam.Replied)) rest _ at continued
      obtain ⟨_,code,_,_,_,ended⟩ := (trace_bind _ _ _ _).mp continued
      obtain ⟨same,_⟩ := (trace_done _ _ _).mp ended
      cases same
    | ok pwd =>
      obtain ⟨copied,last,rfl,copies⟩ := (trace_call _ _ _ _).mp continued
      cases copied with
      | error error =>
        obtain ⟨_,_,_,reported⟩ := (trace_call _ _ _ _).mp copies
        obtain ⟨same,_⟩ := (trace_done _ _ _).mp reported
        cases same
      | ok =>
        obtain ⟨same,rfl⟩ := (trace_done _ _ _).mp copies
        cases same
        simp only [List.mem_cons,List.not_mem_nil,or_false] at member
        rcases member with same | other
        · cases same
          rfl
        · cases other
  · rintro rfl
    exact ⟨.none,0,"",[⟨.askPassword "" (RunFlags.none.union .promptHide),.ok password⟩,⟨.strdup (Pam.cText password),.ok ()⟩],
      _,.call (.call (.done _)),List.mem_cons_self⟩

private theorem cText_eq_iff {start : Bytes} (plain : 0 ∉ start) (text : String) : Pam.cText text = start ↔ StartsAs start text :=
  takeWhile_iff plain (encode text)

private theorem plain_cText (text : String) : 0 ∉ Pam.cText text := (CString.ofBuffer (encode text)).noNul

/-- The verifiers get the C strings of the texts, and nothing else of them. -/
private theorem distinguished_cText_iff {p q : String} : Distinguished p q ↔ Pam.cText p ≠ Pam.cText q := by
  unfold Distinguished
  simp only [keyOf_iff,responseOf_iff]
  constructor
  · rintro ⟨_,responses⟩ same
    exact responses _ _ rfl rfl same
  · intro differ
    constructor
    · rintro key key' rfl rfl same
      exact differ (congrArg CString.bytes same)
    · rintro response response' rfl rfl same
      exact differ same

/-- Two texts are told apart unless both are the same up to a NUL or their end. -/
theorem passwords_distinguished_iff (p q : String) :
    Distinguished p q ↔ ¬ ∃ start,0 ∉ start ∧ StartsAs start p ∧ StartsAs start q := by
  rw [distinguished_cText_iff]
  apply not_congr
  constructor
  · intro same
    have plain := plain_cText p
    exact ⟨Pam.cText p,plain,(cText_eq_iff plain p).mp rfl,(cText_eq_iff plain q).mp same.symm⟩
  · rintro ⟨start,plain,first,second⟩
    exact ((cText_eq_iff plain p).mpr first).trans ((cText_eq_iff plain q).mpr second).symm

private def stdinReady : Exchange Call Answer :=
  ⟨.poll [some .signal,some .stdin],.ok fun i => some ⟨i = 1,false,false,false⟩⟩

private def lineRead (line : Bytes) : List (Exchange Call Answer) :=
  [⟨.sigmask .block promptSignals,.ok []⟩,⟨.signalfd promptSignals,.ok ()⟩] ++
    line.flatMap (fun b => [stdinReady,⟨.read .stdin 1,.ok [b]⟩]) ++
    [⟨.sigmask .setMask [],.ok []⟩,⟨.close .signal,.ok ()⟩]

/-- A text with a NUL in it passes for the part before the NUL. -/
theorem passwords_confused : ¬ ∀ p q : String,p ≠ q → Returnable p → Returnable q → Distinguished p q := by
  intro claimed
  have short : Returnable "a" :=
    ⟨⟨.scopex,false,false,false,none,Build.kept⟩,"",.authStdin,lineRead [97,10],replay_sound 20 rfl⟩
  have long : Returnable "a\x00b" :=
    ⟨⟨.scopex,false,false,false,none,Build.kept⟩,"",.authStdin,lineRead [97,0,98,10],replay_sound 30 rfl⟩
  apply distinguished_cText_iff.mp (claimed _ _ (by decide) short long)
  decide

end Runas
