import Runas.Auth
import Runas.Interaction.Trace

/-! Who passes authentication in a shadow build. The databases, `crypt`, the clock and
the prompt are arbitrary; what they answer decides, together with the caller, the
target and the flags. -/
namespace Runas
open Interaction Text

/-- The answers of everything a shadow build consults. -/
structure Databases where
  getgrouplist : CString → Gid → Except Errno (List Gid)
  groupFromName : String → Except Errno (Option GroupEntry)
  getspnam : CString → Except Errno (Option Spwd)
  crypt : CString → CString → Except Errno String
  askPassword : String → RunFlags → Except Error String
  now : Option Nat

def lookupFailed : Exchange Call Answer → Bool
  | ⟨.getgrouplist _ _,.error _⟩ => true
  | ⟨.groupFromName _,.error _⟩ => true
  | ⟨.getspnam _,.error _⟩ => true
  | _ => false

def Clean (t : List (Exchange Call Answer)) : Prop := ∀ x ∈ t, lookupFailed x = false

theorem Clean.snoc {t : List (Exchange Call Answer)} {x : Exchange Call Answer} (clean : Clean t)
    (fine : lookupFailed x = false) : Clean (t ++ [x]) := by
  intro y member
  rcases List.mem_append.mp member with earlier | last
  · exact clean y earlier
  · rw [List.mem_singleton.mp last]; exact fine

/-- The checks of last change, maximal age and expiry, on the day given. -/
def PassesAging (entry : Spwd) (today : Int) : Prop :=
  entry.lastChange ≠ 0 ∧
    (0 < entry.lastChange → 0 ≤ entry.max →
      entry.lastChange + entry.max < 2^63 ∧ today ≤ entry.lastChange + entry.max) ∧
    (0 ≤ entry.expire → today ≤ entry.expire)

instance (entry : Spwd) (today : Int) : Decidable (PassesAging entry today) :=
  inferInstanceAs (Decidable (_ ∧ _ ∧ _))

/-- The day on which the clock shows these seconds since the epoch. A clock from before it shows
none, which counts as the last day there is. -/
inductive Today : Option Nat → Int → Prop
  | shown {seconds : Nat} {day : Int} (begun : day * 86400 ≤ seconds) (lasts : seconds < (day + 1) * 86400) :
    Today (some seconds) day
  | unshown : Today none (2^63 - 1)

theorem today_iff {now : Option Nat} {day : Int} : Today now day ↔ day = dayOf now := by
  constructor
  · intro today
    cases today with
    | shown begun lasts =>
      rw [dayOf]
      omega
    | unshown => rfl
  · rintro rfl
    cases now with
    | none => exact .unshown
    | some seconds => exact .shown (by rw [dayOf]; omega) (by rw [dayOf]; omega)

/-- Prompts are not forbidden, or the password is to come from standard input. -/
def Interactive (flags : RunFlags) : Prop := flags.contains .authNoPrompt = true → flags.contains .authStdin = true

theorem interactive_iff {flags : RunFlags} : Interactive flags ↔ nonInteractive flags = false := by
  simp [Interactive,nonInteractive]

namespace Databases
variable (d : Databases)

def Answers : Exchange Call Answer → Prop
  | ⟨.getgrouplist name gid,answer⟩ => answer = d.getgrouplist name gid
  | ⟨.groupFromName name,answer⟩ => answer = d.groupFromName name
  | ⟨.getspnam name,answer⟩ => answer = d.getspnam name
  | ⟨.crypt key salt,answer⟩ => answer = d.crypt key salt
  | ⟨.askPassword message flags,answer⟩ => answer = d.askPassword message flags
  | ⟨.now,answer⟩ => answer = d.now
  | _ => True

def groups (account : Account) : Option (List Gid) :=
  match account.groupList with
  | some groups => some groups
  | none => do (d.getgrouplist (← CString.new (encode account.name)) account.user.gid).toOption

def InGroup (account : Account) (gid : Gid) : Prop := ∃ groups, d.groups account = some groups ∧ gid ∈ groups

def InWheel (user : Account) : Prop :=
  ∃ wheel, d.groupFromName authGroup = .ok (some wheel) ∧ d.InGroup user wheel.gid

/-- The shadow entry is there and in date, the prompt gives a password, and `crypt`
makes of it the stored hash. -/
def Verifies (user : Account) (flags : RunFlags) : Prop :=
  ∃ name entry today password salt, CString.new (encode user.name) = some name ∧
    d.getspnam name = .ok (some entry) ∧ Today d.now today ∧ PassesAging entry today ∧
    d.askPassword promptText (flags.union .promptHide) = .ok password ∧
    CString.new (encode entry.passwd) = some salt ∧
    d.crypt (CString.ofBuffer (encode password)) salt = .ok entry.passwd

def Authorised (user target : Account) (flags : RunFlags) : Prop :=
  user.uid = 0 ∨ (target.uid = user.uid ∧ (target.gid = user.gid ∨ d.InGroup user target.gid)) ∨
    (Interactive flags ∧ d.InWheel user ∧ d.Verifies user flags)

end Databases

private theorem inactive_late {day inactive today : Int} (given : 0 ≤ inactive)
    (late : (checkedAdd day inactive).any (fun last => decide (last < today)) = true) : day < today := by
  unfold checkedAdd at late
  split at late
  · have after : day + inactive < today := by simpa using late
    omega
  · simp at late

private theorem checkAging_iff (entry : ShadowEntry) (today : Int) :
    checkAging entry today = .ok () ↔ ∃ expiry, passwdExpiry entry = .ok expiry ∧
      (0 ≤ entry.expiry → today ≤ entry.expiry) ∧ ∀ day, expiry = some day → today ≤ day := by
  unfold checkAging
  cases computed : passwdExpiry entry with
  | error error => simp [bind,Except.bind]
  | ok expiry =>
    simp only [bind,Except.bind,Except.ok.injEq,exists_eq_left']
    by_cases expired : 0 ≤ entry.expiry ∧ entry.expiry < today
    · rw [if_pos expired]
      exact ⟨fun passed => (by cases passed),fun ⟨inDate,_⟩ => by omega⟩
    rw [if_neg expired]
    by_cases late : expiry.any (fun day => decide (day < today)) = true
    · rw [if_pos late]
      refine ⟨fun passed => (by cases passed),fun ⟨_,inDate⟩ => ?_⟩
      obtain ⟨day,rfl,after⟩ := (Option.any_eq_true _ _).mp late
      have before := inDate day rfl
      have after : day < today := by simpa using after
      omega
    rw [if_neg late]
    have inDate : ∀ day, expiry = some day → today ≤ day := by
      rintro day rfl
      by_contra after
      exact late (by simpa using after)
    have active : ¬ (decide (0 ≤ entry.inactive) && (expiry.bind fun day =>
        checkedAdd day entry.inactive).any fun last => decide (last < today)) = true := by
      intro inactive
      obtain ⟨given,after⟩ := (Bool.and_eq_true _ _).mp inactive
      cases expiry with
      | none => simp at after
      | some day =>
        have early := inDate day rfl
        have dead := inactive_late (by simpa using given) after
        omega
    rw [if_neg active]
    exact ⟨fun _ => ⟨by omega,inDate⟩,fun _ => rfl⟩

theorem checkAging_ok {entry : ShadowEntry} {today : Int} :
    checkAging entry today = .ok () ↔
      PassesAging ⟨entry.passwdHash,entry.lastChange,entry.maxAge,entry.inactive,entry.expiry⟩ today := by
  rw [checkAging_iff]
  unfold PassesAging passwdExpiry checkedAdd
  by_cases zero : entry.lastChange = 0
  · simp [zero]
  by_cases aged : 0 < entry.lastChange ∧ 0 ≤ entry.maxAge
  · by_cases small : entry.lastChange + entry.maxAge < 2^63
    · have range : -2^63 ≤ entry.lastChange + entry.maxAge ∧ entry.lastChange + entry.maxAge < 2^63 := by omega
      simp only [if_neg zero,if_pos aged,if_pos range,Except.ok.injEq,exists_eq_left',Option.some.injEq,
        forall_eq']
      omega
    · have range : ¬ (-2^63 ≤ entry.lastChange + entry.maxAge ∧ entry.lastChange + entry.maxAge < 2^63) := by omega
      simp only [if_neg zero,if_pos aged,if_neg range,reduceCtorEq,false_and,exists_false,false_iff]
      omega
  · simp only [if_neg zero,if_neg aged,Except.ok.injEq,exists_eq_left',reduceCtorEq,false_implies,
      implies_true,and_true]
    omega

section
variable {d : Databases} {t : List (Exchange Call Answer)}

private theorem ensures_cstr (text : String) (t : List (Exchange Call Answer)) :
    Ensures d.Answers (cstr text).run (fun result t' => t' = t ∧ match result with
      | .ok c => CString.new (encode text) = some c
      | .error _ => CString.new (encode text) = none) t := by
  unfold cstr
  cases made : CString.new (encode text) with
  | none | some _ => exact ⟨rfl,rfl⟩

private theorem ensures_groupList (account : Account) (t : List (Exchange Call Answer)) :
    Ensures d.Answers account.getGroupList.run (fun result t' => match result with
      | .ok (groups,account') => d.groups account = some groups ∧
          account' = { account with groupList := some groups } ∧ (Clean t → Clean t')
      | .error _ => d.groups account = none) t := by
  unfold Account.getGroupList Databases.groups
  cases kept : account.groupList with
  | some groups => exact ⟨rfl,by cases account; cases kept; rfl,id⟩
  | none =>
    refine Fallible.ensures_bind ((ensures_cstr _ t).mono ?_)
    rintro (error | name) t' ⟨rfl,made⟩
    · simp [show CString.new (encode account.name) = none from made]
    simp only [show CString.new (encode account.name) = some name from made]
    refine Fallible.ensures_bind (Fallible.ensures_ask
      (d.getgrouplist name account.user.gid) (fun answer => Iff.rfl) ?_)
    cases found : d.getgrouplist name account.user.gid with
    | error error => simp [found,Except.toOption]
    | ok groups => exact ⟨by simp [found,Except.toOption],rfl,fun clean => clean.snoc rfl⟩

/-- What a question about a group keeps of the caller's account. -/
private def Kept (d : Databases) (before after : Account) : Prop :=
  after.user = before.user ∧ after.group = before.group ∧ d.groups after = d.groups before

private theorem Kept.refl (account : Account) : Kept d account account := ⟨rfl,rfl,rfl⟩

private theorem ensures_isMember (account : Account) (group : Group) (t : List (Exchange Call Answer)) :
    Ensures d.Answers (account.isMember group).run (fun result t' => match result with
      | .ok (member,account') => (member = true ↔ account.uid = 0 ∨ d.InGroup account group.gid) ∧
          Kept d account account' ∧ (Clean t → Clean t')
      | .error _ => account.uid ≠ 0 ∧ d.groups account = none) t := by
  unfold Account.isMember
  by_cases root : account.uid = 0
  · rw [if_pos ((account.isRoot_eq_true).mpr root)]
    exact ⟨by simp [root],Kept.refl account,id⟩
  · rw [if_neg (mt (account.isRoot_eq_true).mp root)]
    refine Fallible.ensures_bind ((ensures_groupList account t).mono ?_)
    rintro (error | ⟨groups,account'⟩) t' held
    · exact ⟨root,held⟩
    · obtain ⟨found,rfl,clean⟩ := held
      refine ⟨?_,⟨rfl,rfl,?_⟩,clean⟩
      · simp [root,Databases.InGroup,found]
      · rw [found]; rfl

private theorem ensures_hasTargetGroup (user target : Account) (t : List (Exchange Call Answer)) :
    Ensures d.Answers (hasTargetGroup user target).run (fun result t' => match result with
      | .ok (has,user') => (has = true ↔ target.gid = user.gid ∨ user.uid = 0 ∨ d.InGroup user target.gid) ∧
          Kept d user user' ∧ (Clean t → Clean t')
      | .error _ => target.gid ≠ user.gid ∧ user.uid ≠ 0 ∧ d.groups user = none) t := by
  unfold hasTargetGroup
  by_cases primary : target.gid = user.gid
  · rw [if_pos primary]
    exact ⟨by simp [primary],Kept.refl user,id⟩
  · rw [if_neg primary]
    refine (ensures_isMember user target.group t).mono ?_
    rintro (error | ⟨member,user'⟩) t' held
    · exact ⟨primary,held⟩
    · exact ⟨by simp only [primary,false_or]; exact held.1,held.2⟩

private theorem outside_groups {account : Account} {gid : Gid} (unknown : d.groups account = none) :
    ¬ d.InGroup account gid := by
  rintro ⟨groups,found,_⟩
  rw [unknown] at found
  cases found

private theorem kept_inGroup {account account' : Account} {gid : Gid} (kept : Kept d account account') :
    d.InGroup account' gid ↔ d.InGroup account gid := by
  rw [Databases.InGroup,Databases.InGroup,kept.2.2]

private theorem ensures_isWheelMember (numeric : Char → Bool) (user : Account) (notRoot : user.uid ≠ 0)
    (t : List (Exchange Call Answer)) :
    Ensures d.Answers (isWheelMember numeric user).run (fun result t' => match result with
      | .ok member => (member = true ↔ d.InWheel user) ∧ (Clean t → Clean t')
      | .error _ => ¬ d.InWheel user) t := by
  have named : authGroup.toList.all (isNumeric numeric) = false := by
    simp [authGroup,isNumeric,isDigit]
  unfold isWheelMember Group.fromStr Group.lookup
  rw [lookupWord_name (by decide) named]
  refine Fallible.ensures_bind (Fallible.ensures_bind (Fallible.ensures_bind (Fallible.ensures_ask
    (d.groupFromName authGroup) (fun answer => Iff.rfl) ?_)))
  unfold Databases.InWheel
  cases found : d.groupFromName authGroup with
  | error error => simp
  | ok entry =>
    have noted (clean : Clean t) : Clean (t ++ [⟨.groupFromName authGroup,.ok entry⟩]) := clean.snoc rfl
    cases entry with
    | none => exact ⟨by simp,noted⟩
    | some wheel =>
      refine Fallible.ensures_bind ((ensures_isMember user ⟨wheel.gid,wheel.name⟩ _).mono ?_)
      rintro (error | ⟨member,user'⟩) t' held
      · rintro ⟨other,same,inside⟩
        exact outside_groups held.2 inside
      · refine ⟨?_,fun clean => held.2.2 (noted clean)⟩
        rw [held.1]
        simp [notRoot]

private theorem ensures_getspnam (username : String) (t : List (Exchange Call Answer)) :
    Ensures d.Answers (getspnam username).run (fun result t' => match result with
      | .ok entry => ∃ name found, CString.new (encode username) = some name ∧
          d.getspnam name = .ok found ∧ (Clean t → Clean t') ∧ entry = found.map fun entry =>
            ⟨entry.passwd,entry.lastChange,entry.max,entry.inactive,entry.expire⟩
      | .error _ => ∀ name entry, CString.new (encode username) = some name →
          d.getspnam name ≠ .ok (some entry)) t := by
  unfold getspnam
  refine Fallible.ensures_bind ((ensures_cstr _ t).mono ?_)
  rintro (error | name) t' ⟨rfl,made⟩
  · simp [show CString.new (encode username) = none from made]
  refine Fallible.ensures_bind (Fallible.ensures_ask (d.getspnam name) (fun answer => Iff.rfl) ?_)
  cases found : d.getspnam name with
  | error error =>
    intro other entry same
    cases Option.some.inj (made.symm.trans same)
    rw [found]
    simp
  | ok entry => exact ⟨name,entry,made,found,fun clean => clean.snoc rfl,rfl⟩

private theorem ensures_crypt (password salt : String) (t : List (Exchange Call Answer)) :
    Ensures d.Answers (crypt password salt).run (fun result t' => match result with
      | .ok hash => (∃ cSalt, CString.new (encode salt) = some cSalt ∧
          d.crypt (CString.ofBuffer (encode password)) cSalt = .ok hash) ∧ (Clean t → Clean t')
      | .error _ => ∀ cSalt hash, CString.new (encode salt) = some cSalt →
          d.crypt (CString.ofBuffer (encode password)) cSalt ≠ .ok hash) t := by
  unfold crypt
  refine Fallible.ensures_bind ((ensures_cstr _ t).mono ?_)
  rintro (error | cSalt) t' ⟨rfl,made⟩
  · simp [show CString.new (encode salt) = none from made]
  refine Fallible.ensures_bind (Fallible.ensures_ask
    (d.crypt (CString.ofBuffer (encode password)) cSalt) (fun answer => Iff.rfl) ?_)
  cases hashed : d.crypt (CString.ofBuffer (encode password)) cSalt with
  | error error =>
    intro other hash same
    cases Option.some.inj (made.symm.trans same)
    rw [hashed]
    simp
  | ok hash => exact ⟨⟨cSalt,made,hashed⟩,fun clean => clean.snoc rfl⟩

private theorem ensures_verifyPassword (entry : ShadowEntry) (flags : RunFlags)
    (t : List (Exchange Call Answer)) :
    Ensures d.Answers (verifyPassword entry flags).run (fun result t' =>
      (result = .ok () ↔ ∃ password salt, d.askPassword promptText (flags.union .promptHide) = .ok password ∧
        CString.new (encode entry.passwdHash) = some salt ∧
        d.crypt (CString.ofBuffer (encode password)) salt = .ok entry.passwdHash) ∧
      (result = .ok () → Clean t → Clean t')) t := by
  unfold verifyPassword
  refine Fallible.ensures_bind (Fallible.ensures_bind (Fallible.ensures_ask
    (d.askPassword promptText (flags.union .promptHide)) (fun answer => Iff.rfl) ?_))
  cases asked : d.askPassword promptText (flags.union .promptHide) with
  | error error => simp
  | ok password =>
    refine Fallible.ensures_bind ((ensures_crypt password entry.passwdHash _).mono ?_)
    rintro (error | hash) t' held
    · simp only [reduceCtorEq,false_iff,false_implies,and_true]
      rintro ⟨other,salt,same,made,hashed⟩
      cases same
      exact held salt entry.passwdHash made hashed
    · obtain ⟨⟨salt,made,hashed⟩,clean⟩ := held
      have noted (before : Clean t) : Clean t' := clean (before.snoc rfl)
      simp only [timeCompare_eq]
      by_cases equal : hash = entry.passwdHash
      · rw [decide_eq_true equal]
        exact ⟨⟨fun _ => ⟨password,salt,rfl,made,equal ▸ hashed⟩,fun _ => rfl⟩,fun _ => noted⟩
      · rw [decide_eq_false equal]
        simp only [Fallible.run_throw,ensures_done,reduceCtorEq,false_iff,false_implies,and_true]
        rintro ⟨other,salt',same,made',hashed'⟩
        cases same
        cases Option.some.inj (made.symm.trans made')
        rw [hashed] at hashed'
        exact equal (Except.ok.inj hashed')

private theorem ensures_shadowAuth (user : Account) (flags : RunFlags) (t : List (Exchange Call Answer)) :
    Ensures d.Answers (shadowAuth user flags).run (fun result t' =>
      (result = .ok () ↔ d.Verifies user flags) ∧ (result = .ok () → Clean t → Clean t')) t := by
  unfold shadowAuth
  refine Fallible.ensures_bind ((ensures_getspnam user.name t).mono ?_)
  rintro (error | entry) t' held
  · simp only [reduceCtorEq,false_iff,false_implies,and_true]
    rintro ⟨name,entry,_,_,_,made,found,_⟩
    exact held name entry made found
  obtain ⟨name,found,made,answered,clean,rfl⟩ := held
  cases found with
  | none =>
    simp only [Option.map_none,Fallible.run_throw,ensures_done,reduceCtorEq,false_iff,false_implies,and_true]
    rintro ⟨other,entry,_,_,_,made',answered',_⟩
    cases Option.some.inj (made.symm.trans made')
    rw [answered] at answered'
    cases answered'
  | some entry =>
    have verifies : d.Verifies user flags ↔ PassesAging entry (dayOf d.now) ∧
        ∃ password salt, d.askPassword promptText (flags.union .promptHide) = .ok password ∧
          CString.new (encode entry.passwd) = some salt ∧
          d.crypt (CString.ofBuffer (encode password)) salt = .ok entry.passwd := by
      constructor
      · rintro ⟨other,entry',_,password,salt,made',answered',today,aged,rest⟩
        cases Option.some.inj (made.symm.trans made')
        cases Option.some.inj (Except.ok.inj (answered.symm.trans answered'))
        obtain rfl := today_iff.mp today
        exact ⟨aged,password,salt,rest⟩
      · rintro ⟨aged,password,salt,rest⟩
        exact ⟨name,entry,_,password,salt,made,answered,today_iff.mpr rfl,aged,rest⟩
    rw [verifies]
    refine Fallible.ensures_bind (Fallible.ensures_ask d.now (fun answer => Iff.rfl) ?_)
    have noted (before : Clean t) : Clean (t' ++ [⟨.now,d.now⟩]) := (clean before).snoc rfl
    have inDate : checkAging ⟨entry.passwd,entry.lastChange,entry.max,entry.inactive,entry.expire⟩
        (dayOf d.now) = .ok () ↔ PassesAging entry (dayOf d.now) := checkAging_ok
    rw [← inDate]
    refine Fallible.ensures_bind ?_
    cases checked : checkAging ⟨entry.passwd,entry.lastChange,entry.max,entry.inactive,entry.expire⟩
        (dayOf d.now) with
    | error error => simp [orThrow]
    | ok _ =>
      refine (ensures_verifyPassword _ flags _).mono fun result t'' held => ?_
      simp only [true_and]
      exact ⟨held.1,fun passed before => held.2 passed (noted before)⟩

private theorem ensures_wheel (numeric : Char → Bool) (build : Build) (noPam : build.usePam = false)
    (user target : Account) (flags : RunFlags) (notRoot : user.uid ≠ 0) (t : List (Exchange Call Answer)) :
    Ensures d.Answers (do
        if ← isWheelMember numeric user then auth build user target flags false
        else throw authFailed : M EnvMap).run (fun result t' =>
      ((∃ env, result = .ok env) ↔ d.InWheel user ∧ d.Verifies user flags) ∧
      ((∃ env, result = .ok env) → Clean t → Clean t')) t := by
  refine Fallible.ensures_bind ((ensures_isWheelMember numeric user notRoot t).mono ?_)
  rintro (error | member) t' held
  · simp [show ¬ d.InWheel user from held]
  obtain ⟨inWheel,clean⟩ := held
  dsimp only
  by_cases isMember : member = true
  · rw [if_pos isMember]
    unfold auth
    rw [noPam,if_neg (by simp)]
    refine Fallible.ensures_bind ((ensures_shadowAuth user flags t').mono ?_)
    rintro (error | _) t'' held
    · have refused : ¬ d.Verifies user flags := fun verifies => by cases held.1.mpr verifies
      simp [refused]
    · exact ⟨⟨fun _ => ⟨inWheel.mp isMember,held.1.mp rfl⟩,fun _ => ⟨_,rfl⟩⟩,
        fun _ before => held.2 rfl (clean before)⟩
  · rw [if_neg isMember]
    simp [← inWheel,isMember]

/-- Root needs no password, nor does who asks for nothing but one of the own groups. -/
private theorem granted_iff {user user' target : Account} {has : Bool} (kept : Kept d user user')
    (hasIff : has = true ↔ target.gid = user.gid ∨ user.uid = 0 ∨ d.InGroup user target.gid) :
    (user'.isRoot = true ∨ ((target.uid == user'.uid) = true ∧ has = true)) ↔
      user.uid = 0 ∨ (target.uid = user.uid ∧ (target.gid = user.gid ∨ d.InGroup user target.gid)) := by
  rw [Account.isRoot_eq_true,beq_iff_eq,hasIff,show user'.uid = user.uid from congrArg User.uid kept.1]
  constructor
  · rintro (root | ⟨same,primary | root | inside⟩)
    · exact .inl root
    · exact .inr ⟨same,.inl primary⟩
    · exact .inl root
    · exact .inr ⟨same,.inr inside⟩
  · rintro (root | ⟨same,primary | inside⟩)
    · exact .inl root
    · exact .inr ⟨same,.inl primary⟩
    · exact .inr ⟨same,.inr (.inr inside)⟩

private theorem ensures_authenticate (d : Databases) (numeric : Char → Bool) (build : Build)
    (noPam : build.usePam = false) (user target : Account) (flags : RunFlags)
    (t : List (Exchange Call Answer)) :
    Ensures d.Answers (authenticate numeric build user target flags).run (fun result t' =>
      ((∃ env, result = .ok env) ↔ d.Authorised user target flags) ∧
      ((∃ env, result = .ok env) → Clean t → Clean t')) t := by
  unfold authenticate
  refine Fallible.ensures_bind ((ensures_hasTargetGroup user target t).mono ?_)
  rintro (error | ⟨has,user'⟩) t' held
  · obtain ⟨other,notRoot,unknown⟩ := held
    have refused : ¬ d.Authorised user target flags := by
      rintro (root | ⟨_,primary | inside⟩ | ⟨_,⟨wheel,_,inside⟩,_⟩)
      · exact notRoot root
      · exact other primary
      · exact outside_groups unknown inside
      · exact outside_groups unknown inside
    simp [refused]
  obtain ⟨hasIff,kept,clean⟩ := held
  have sameUid : user'.uid = user.uid := congrArg User.uid kept.1
  have sameName : user'.name = user.name := congrArg User.name kept.1
  have supervised : build.supervised = false := by simp [Build.supervised,noPam]
  have allowed := granted_iff kept hasIff
  dsimp only
  cases decided : authDecision user'.isRoot (target.uid == user'.uid) has (nonInteractive flags) with
  | allow =>
    have granted := allowed.mp (authDecision_eq_allow.mp decided)
    have authorised : d.Authorised user target flags := by
      rcases granted with root | same
      · exact .inl root
      · exact .inr (.inl same)
    simp only [supervised]
    exact ⟨⟨fun _ => authorised,fun _ => ⟨_,rfl⟩⟩,fun _ => clean⟩
  | deny =>
    obtain ⟨silent,notGranted⟩ := authDecision_eq_deny.mp decided
    rw [allowed] at notGranted
    have refused : ¬ d.Authorised user target flags := by
      rintro (root | same | ⟨interactive,_⟩)
      · exact notGranted (.inl root)
      · exact notGranted (.inr same)
      · rw [interactive_iff,silent] at interactive
        cases interactive
    simp [refused]
  | authenticate =>
    obtain ⟨interactive,notGranted⟩ := authDecision_eq_authenticate.mp decided
    rw [allowed] at notGranted
    have notRoot : user'.uid ≠ 0 := fun root => notGranted (.inl (sameUid ▸ root))
    have wheel : d.InWheel user' ↔ d.InWheel user := by
      simp only [Databases.InWheel,kept_inGroup kept]
    have verifies : d.Verifies user' flags ↔ d.Verifies user flags := by
      rw [Databases.Verifies,Databases.Verifies,sameName]
    have authorised : d.Authorised user target flags ↔ d.InWheel user' ∧ d.Verifies user' flags := by
      rw [wheel,verifies]
      constructor
      · rintro (root | same | ⟨_,granted⟩)
        · exact absurd (.inl root) notGranted
        · exact absurd (.inr same) notGranted
        · exact granted
      · exact fun granted => .inr (.inr ⟨interactive_iff.mpr interactive,granted⟩)
    rw [authorised]
    refine (ensures_wheel numeric build noPam user' target flags notRoot t').mono fun result t'' held => ?_
    exact ⟨held.1,fun passed before => held.2 passed (clean before)⟩

end

/-- Whatever the databases and the prompt answer, `authenticate` ends, and it lets the
caller through exactly when no lookup it consulted failed and the caller is root, has
the target's identity already, or is in the wheel group and gives the password of an
entry in date. -/
theorem authenticate_shadow (numeric : Char → Bool) (build : Build) (noPam : build.usePam = false)
    (d : Databases) (user target : Account) (flags : RunFlags) :
    (∃ t result, Trace (authenticate numeric build user target flags).run t result ∧
      ∀ x ∈ t, d.Answers x) ∧
    ∀ t result, Trace (authenticate numeric build user target flags).run t result →
      (∀ x ∈ t, d.Answers x) →
      ((∃ env, result = .ok env) ↔ (∀ x ∈ t, lookupFailed x = false) ∧ d.Authorised user target flags) := by
  have ensured := (ensures_authenticate d numeric build noPam user target flags []).sound
  refine ⟨ensured.1,fun t result trace answered => ?_⟩
  obtain ⟨decided,clean⟩ := ensured.2 t result trace answered
  refine ⟨fun passed => ⟨?_,decided.mp passed⟩,fun granted => decided.mpr granted.2⟩
  exact clean passed (fun x member => by cases member)

def aliceDatabases : Databases where
  getgrouplist _ _ := .ok [1000,10]
  groupFromName _ := .ok (some ⟨"wheel",10⟩)
  getspnam _ := .ok (some ⟨"$6$hash",19000,99999,-1,-1⟩)
  crypt _ _ := .ok "$6$hash"
  askPassword _ _ := .ok "secret"
  now := some (20000 * 86400)

def shadowBuild : Build := ⟨.systemdRun,false,false,false,none,Build.kept⟩

theorem authenticate_shadow_alice :
    ∃ t env, Trace (authenticate (fun _ => false) shadowBuild alice root .none).run t (.ok env) := by
  obtain ⟨⟨t,result,trace,answered⟩,decided⟩ :=
    authenticate_shadow (fun _ => false) shadowBuild rfl aliceDatabases alice root .none
  have clean : ∀ x ∈ t, lookupFailed x = false := by
    intro x member
    have given := answered x member
    unfold lookupFailed
    split
    · cases given
    · cases given
    · cases given
    · rfl
  have granted : aliceDatabases.Authorised alice root .none := by
    refine .inr (.inr ⟨interactive_iff.mpr (by decide),⟨_,rfl,⟨_,rfl,by decide⟩⟩,?_⟩)
    exact ⟨_,_,20000,_,_,rfl,rfl,.shown (by decide) (by decide),by decide,rfl,rfl,rfl⟩
  obtain ⟨env,rfl⟩ := (decided t result trace answered).mpr ⟨clean,granted⟩
  exact ⟨t,env,trace⟩

end Runas
