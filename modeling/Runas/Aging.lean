import Runas.ShadowGate

/-! What the fields of a shadow entry are to mean for a day, and what a run of `auth` that
has found the entry does on that day: it refuses before the prompt, and says why. -/
namespace Runas
open Interaction Text

/-- The password of the entry is refused on the day: it must be changed, the entry makes no
sense, or its last day is over. -/
def PasswordRefused (entry : Spwd) (today : Int) : Prop :=
  entry.lastChange = 0 ∨
    (0 < entry.lastChange ∧ 0 ≤ entry.max ∧ 2^63 ≤ entry.lastChange + entry.max) ∨
    (0 < entry.lastChange ∧ 0 ≤ entry.max ∧ entry.lastChange + entry.max < today)

/-- As shadow(5) has it, the account is no longer accessible on the day of its expiry. -/
def MustRefuse (entry : Spwd) (today : Int) : Prop :=
  PasswordRefused entry today ∨ (0 ≤ entry.expire ∧ entry.expire ≤ today)

def Prompted (t : List (Exchange Call Answer)) : Prop := ∃ message flags answer,⟨.askPassword message flags,answer⟩ ∈ t

/-- A run of `auth` that finds the entry and reads the clock. -/
def Consults (user : Account) (flags : RunFlags) (entry : Spwd) (clock : Option Nat) (t : List (Exchange Call Answer))
    (out : Except Error Unit) : Prop :=
  Trace (shadowAuth user flags).run t out ∧ ∃ name rest,t = ⟨.getspnam name,.ok (some entry)⟩ :: ⟨.now,clock⟩ :: rest

def Refused (t : List (Exchange Call Answer)) (out : Except Error Unit) : Prop :=
  (∃ error,out = .error error) ∧ ¬ Prompted t

section
variable {user : Account} {flags : RunFlags} {entry : Spwd} {clock : Option Nat} {t : List (Exchange Call Answer)}
  {out : Except Error Unit}

def shadowEntry (entry : Spwd) : ShadowEntry :=
  ⟨entry.passwd,entry.lastChange,entry.max,entry.inactive,entry.expire⟩

theorem verifyPassword_prompts {known : ShadowEntry} (trace : Trace (verifyPassword known flags).run t out) : Prompted t := by
  obtain ⟨answer,rest,rfl,_⟩ := (trace_call _ _ _ _).mp trace
  exact ⟨_,_,answer,List.mem_cons_self⟩

/-- Once the entry is known and the day, the checks decide whether the run ends or goes on to the prompt. -/
theorem Consults.decided (consults : Consults user flags entry clock t out) :
    (∃ error,checkAging (shadowEntry entry) (dayOf clock) = .error error ∧ out = .error error ∧ ¬ Prompted t) ∨
      checkAging (shadowEntry entry) (dayOf clock) = .ok () ∧ Prompted t := by
  obtain ⟨trace,name,rest,rfl⟩ := consults
  have decided : Trace (orThrow (checkAging (shadowEntry entry) (dayOf clock)) >>= fun _ =>
      verifyPassword (shadowEntry entry) flags).run rest out := by
    unfold shadowAuth getspnam cstr at trace
    cases made : CString.new (encode user.name) with
    | none =>
      rw [made] at trace
      obtain ⟨_,none⟩ := (trace_done _ _ _).mp trace
      cases none
    | some c =>
      rw [made] at trace
      obtain ⟨found,later,same,trace⟩ := (trace_call _ _ _ _).mp trace
      cases same
      obtain ⟨now,later,same,trace⟩ := (trace_call _ _ _ _).mp trace
      cases same
      exact trace
  cases checked : checkAging (shadowEntry entry) (dayOf clock) with
  | error error =>
    rw [checked] at decided
    obtain ⟨rfl,rfl⟩ := (trace_done _ _ _).mp decided
    refine .inl ⟨error,rfl,rfl,?_⟩
    rintro ⟨message,flags,answer,asked⟩
    simp at asked
  | ok =>
    rw [checked] at decided
    obtain ⟨message,flags,answer,asked⟩ := verifyPassword_prompts decided
    exact .inr ⟨rfl,message,flags,answer,List.mem_cons_of_mem _ (List.mem_cons_of_mem _ asked)⟩

theorem Consults.refused_iff (consults : Consults user flags entry clock t out) :
    Refused t out ↔ ¬ PassesAging entry (dayOf clock) := by
  have passes := @checkAging_ok (shadowEntry entry) (dayOf clock)
  rcases consults.decided with ⟨error,checked,rfl,silent⟩ | ⟨checked,prompted⟩
  · rw [checked] at passes
    apply iff_of_true ⟨⟨error,rfl⟩,silent⟩
    intro inDate
    cases passes.mpr inDate
  · apply iff_of_false (fun refused => refused.2 prompted)
    intro late
    exact late (passes.mp checked)

end

theorem passesAging_iff (entry : Spwd) (today : Int) : PassesAging entry today ↔
    ¬ PasswordRefused entry today ∧ (0 ≤ entry.expire → today ≤ entry.expire) := by
  unfold PassesAging PasswordRefused
  omega

theorem PasswordRefused.later {entry : Spwd} {today later : Int} (refused : PasswordRefused entry today)
    (order : today ≤ later) : PasswordRefused entry later := by
  unfold PasswordRefused at *
  omega

/-- A run refuses as the fields mean but on the very day of the expiry, where it goes on to the
prompt unless the password is refused as well. What is refused on a day is refused later on. -/
theorem shadow_aging_iff (user : Account) (flags : RunFlags) (entry : Spwd) (clock : Option Nat)
    (t : List (Exchange Call Answer)) (out : Except Error Unit) (consults : Consults user flags entry clock t out) :
    ((Refused t out ↔ MustRefuse entry (dayOf clock)) ↔
      (0 ≤ entry.expire → dayOf clock = entry.expire → PasswordRefused entry (dayOf clock))) ∧
    ∀ user' flags' clock' t' out',Consults user' flags' entry clock' t' out' → dayOf clock ≤ dayOf clock' →
      Refused t out → Refused t' out' := by
  constructor
  · rw [consults.refused_iff,passesAging_iff,MustRefuse]
    by_cases refused : PasswordRefused entry (dayOf clock)
    · simp [refused]
    · simp only [refused,not_false_eq_true,true_and,false_or,imp_false]
      omega
  · intro user' flags' clock' t' out' consults' order refused
    rw [consults.refused_iff,passesAging_iff] at refused
    rw [consults'.refused_iff,passesAging_iff]
    intro inDate
    apply refused
    refine ⟨fun early => inDate.1 (early.later order),fun given => ?_⟩
    exact order.trans (inDate.2 given)

/-- An account that ends on day 20000, with a password that is good for long. -/
def lastDay : Spwd := ⟨"$6$hash",19000,99999,30,20000⟩

/-- alice asks on the day, and is let in. -/
def admitted (entry : Spwd) (day : Nat) : List (Exchange Call Answer) :=
  [⟨.getspnam ⟨encode "alice",by decide⟩,.ok (some entry)⟩,⟨.now,some (day * 86400)⟩,
    ⟨.askPassword promptText (RunFlags.none.union .promptHide),.ok "secret"⟩,
    ⟨.crypt ⟨encode "secret",by decide⟩ ⟨encode "$6$hash",by decide⟩,.ok "$6$hash"⟩]

theorem shadow_aging_admitted : (Refused (admitted lastDay 19999) (.ok ()) ↔ MustRefuse lastDay 19999) := by
  have consults : Consults alice .none lastDay (some (19999 * 86400)) (admitted lastDay 19999) (.ok ()) :=
    ⟨replay_sound 10 rfl,_,_,rfl⟩
  exact (shadow_aging_iff alice .none lastDay _ _ _ consults).1.mpr fun _ same => absurd same (by decide)

/-- On the day of the expiry alice is still let in. -/
theorem shadow_aging_last_day : ¬ ∀ (user : Account) (flags : RunFlags) (entry : Spwd) (clock : Option Nat)
    (t : List (Exchange Call Answer)) (out : Except Error Unit),Consults user flags entry clock t out →
      (Refused t out ↔ MustRefuse entry (dayOf clock)) := by
  intro claimed
  have consults : Consults alice .none lastDay (some (20000 * 86400)) (admitted lastDay 20000) (.ok ()) :=
    ⟨replay_sound 10 rfl,_,_,rfl⟩
  obtain ⟨⟨error,failed⟩,_⟩ := (claimed _ _ _ _ _ _ consults).mpr (.inr (by decide))
  cases failed

/-- The stages of an entry whose password runs out: it is good, then it must be renewed, then the
account is disabled. -/
structure Staged (entry : Spwd) (today : Int) (t : List (Exchange Call Answer)) (out : Except Error Unit) : Prop where
  current : today ≤ entry.lastChange + entry.max → Prompted t
  expired : entry.lastChange + entry.max < today → today ≤ entry.lastChange + entry.max + entry.inactive →
    out = .error (.staticMessage "password has expired") ∧ ¬ Prompted t
  disabled : entry.lastChange + entry.max + entry.inactive < today →
    out = .error (.staticMessage "account has been disabled due to password inactivity") ∧ ¬ Prompted t

/-- For a password that runs out there is one refusal only: that of a password that has expired. -/
private theorem checkAging_stages {entry : Spwd} {today : Int} (changed : 0 < entry.lastChange) (aged : 0 ≤ entry.max)
    (fits : entry.lastChange + entry.max < 2^63) (lives : 0 ≤ entry.expire → today ≤ entry.expire)
    (late : entry.lastChange + entry.max < today) :
    checkAging (shadowEntry entry) today = .error (.staticMessage "password has expired") := by
  have expiry : passwdExpiry (shadowEntry entry) = .ok (some (entry.lastChange + entry.max)) := by
    have set : ¬ (shadowEntry entry).lastChange = 0 := by simp only [shadowEntry]; omega
    have ages : 0 < (shadowEntry entry).lastChange ∧ 0 ≤ (shadowEntry entry).maxAge := ⟨changed,aged⟩
    have range : -2^63 ≤ entry.lastChange + entry.max ∧ entry.lastChange + entry.max < 2^63 := by omega
    have sum : checkedAdd (shadowEntry entry).lastChange (shadowEntry entry).maxAge =
        some (entry.lastChange + entry.max) := if_pos range
    rw [passwdExpiry,if_neg set,if_pos ages,sum]
  have accessible : ¬ (0 ≤ (shadowEntry entry).expiry ∧ (shadowEntry entry).expiry < today) := by
    simp only [shadowEntry]
    omega
  unfold checkAging
  simp only [expiry,bind,Except.bind]
  rw [if_neg accessible,if_pos (by simpa using late)]
  rfl

/-- Where the account itself has not expired the stage that is reported matches the day as long as
the account is not disabled: a run never says that it is. -/
theorem shadow_stages_iff (user : Account) (flags : RunFlags) (entry : Spwd) (clock : Option Nat)
    (t : List (Exchange Call Answer)) (out : Except Error Unit) (consults : Consults user flags entry clock t out)
    (changed : 0 < entry.lastChange) (aged : 0 ≤ entry.max) (inactive : 0 ≤ entry.inactive)
    (fits : entry.lastChange + entry.max + entry.inactive < 2^63) (lives : 0 ≤ entry.expire → dayOf clock ≤ entry.expire) :
    Staged entry (dayOf clock) t out ↔ dayOf clock ≤ entry.lastChange + entry.max + entry.inactive := by
  have stages (late : entry.lastChange + entry.max < dayOf clock) :
      out = .error (.staticMessage "password has expired") ∧ ¬ Prompted t := by
    have checked := checkAging_stages changed aged (by omega) lives late
    rcases consults.decided with ⟨error,same,rfl,silent⟩ | ⟨passed,_⟩
    · rw [checked] at same
      cases same
      exact ⟨rfl,silent⟩
    · rw [checked] at passed
      cases passed
  constructor
  · intro staged
    by_contra late
    have disabled := staged.disabled (by omega)
    have expired := stages (by omega)
    rw [expired.1] at disabled
    simp at disabled
  · intro early
    refine ⟨fun current => ?_,fun late _ => stages late,fun late => ?_⟩
    · have inDate : PassesAging entry (dayOf clock) := by
        unfold PassesAging
        omega
      rcases consults.decided with ⟨error,checked,_⟩ | ⟨_,prompted⟩
      · have passes := @checkAging_ok (shadowEntry entry) (dayOf clock)
        rw [checked] at passes
        cases passes.mpr inDate
      · exact prompted
    · omega

theorem shadow_stages_current : Staged lastDay 19999 (admitted lastDay 19999) (.ok ()) := by
  have consults : Consults alice .none lastDay (some (19999 * 86400)) (admitted lastDay 19999) (.ok ()) :=
    ⟨replay_sound 10 rfl,_,_,rfl⟩
  exact (shadow_stages_iff alice .none lastDay _ _ _ consults (by decide) (by decide) (by decide) (by decide)
    (by decide)).mpr (by decide)

/-- A password that ran out long ago, with the refusal alice gets for it. -/
def neglected : Spwd := ⟨"$6$hash",19000,90,30,-1⟩

def neglectedRun : List (Exchange Call Answer) :=
  [⟨.getspnam ⟨encode "alice",by decide⟩,.ok (some neglected)⟩,⟨.now,some (20000 * 86400)⟩]

theorem shadow_stages_neglected : ¬ ∀ (user : Account) (flags : RunFlags) (entry : Spwd) (clock : Option Nat)
    (t : List (Exchange Call Answer)) (out : Except Error Unit),Consults user flags entry clock t out →
      0 < entry.lastChange → 0 ≤ entry.max → 0 ≤ entry.inactive →
      entry.lastChange + entry.max + entry.inactive < 2^63 → (0 ≤ entry.expire → dayOf clock < entry.expire) →
      Staged entry (dayOf clock) t out := by
  intro claimed
  have consults : Consults alice .none neglected (some (20000 * 86400)) neglectedRun
      (.error (.staticMessage "password has expired")) := ⟨replay_sound 10 rfl,_,_,rfl⟩
  have staged := claimed _ _ _ _ _ _ consults (by decide) (by decide) (by decide) (by decide) (by decide)
  obtain ⟨disabled,_⟩ := staged.disabled (by decide)
  simp at disabled

end Runas
