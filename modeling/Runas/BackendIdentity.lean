import Runas.Requests
import Runas.Getopt

/-! The identity a systemd backend runs a command as, against the one the program has
authorised. The backend reads the words it is handed with rules of its own: digits
are an id, anything else is a name. -/
namespace Runas
open Interaction Text Getopt

/-- The user and group databases; the first entry that fits is the answer. -/
structure Database where
  users : List UserEntry
  groups : List GroupEntry

def isNumber (word : String) : Bool := word.toList != [] && word.toList.all isDigit

/-- The options of a backend: those that take a value, and any other word that starts
with a dash. -/
def backendGrammar (backend : Backend) : Grammar CString where
  terminator := word "--"
  isOption name := decide (name.bytes.head? = some 45) && decide (name.bytes ≠ [45])
  takesValue name := [userFlag backend,groupFlag backend,word "--working-directory",word "--chdir",
    word "--setenv"].contains name

def readId {α : Type} (id : α → UInt32) (byName : Option α) (word : String) : Option UInt32 :=
  if isNumber word then parseU32 word.toList else byName.map id

/-- A word that both rules take for the same id: no entry of another id has the number
for its name, and any other word is the name of an entry, with the id it spells. -/
def ReadsAlike {α : Type} (id : α → UInt32) (byName : Option α) (word : String) : Prop :=
  if isNumber word then ∀ entry, byName = some entry → parseU32 word.toList = some (id entry)
  else ∃ entry, byName = some entry ∧ ∀ rest, word.toList = '#' :: rest → parseU32 rest = some (id entry)

/-- The entry the program's own rules find for a word. -/
def findWord {α : Type} (numeric : Char → Bool) (byName : Option α) (byId : UInt32 → Option α)
    (word : String) : Option α :=
  match word.toList with
  | '#' :: rest => (parseU32 rest).bind byId
  | letters => if letters.all (isNumeric numeric) then byName.or ((parseU32 letters).bind byId) else byName

section
variable {α : Type} {numeric : Char → Bool} {byName : Option α} {byId : UInt32 → Option α} {word : String}

theorem findWord_hash {rest : List Char} (spelled : word.toList = '#' :: rest) :
    findWord numeric byName byId word = (parseU32 rest).bind byId := by
  simp only [findWord,spelled]

theorem findWord_plain (plain : ∀ rest, word.toList ≠ '#' :: rest) : findWord numeric byName byId word =
    if word.toList.all (isNumeric numeric) then byName.or ((parseU32 word.toList).bind byId) else byName := by
  unfold findWord
  split
  · next rest spelled => exact absurd spelled (plain rest)
  · rfl

private theorem isNumber_numeric (number : isNumber word = true) :
    word.toList.all (isNumeric numeric) = true := by
  unfold isNumber at number
  rw [Bool.and_eq_true] at number
  rw [List.all_eq_true] at number ⊢
  intro c member
  simp [isNumeric,number.2 c member]

private theorem isNumber_hash {rest : List Char} (spelled : word.toList = '#' :: rest) :
    isNumber word = false := by
  have digit : isDigit '#' = false := by decide
  simp [isNumber,spelled,digit]

private theorem parseU32_eq_none (numbers : word.toList.all (isNumeric numeric) = true)
    (other : isNumber word = false) : parseU32 word.toList = none := by
  unfold parseU32
  split
  · next rest spelled =>
    have plus : isNumeric numeric '+' = false := by simp [isNumeric,isDigit]
    simp [spelled,plus] at numbers
  · have odd : (word.toList.isEmpty || !word.toList.all isDigit) = true := by
      cases letters : word.toList with
      | nil => rfl
      | cons c rest =>
        have notAll : (c :: rest).all isDigit = false := by simpa [isNumber,letters] using other
        rw [notAll]
        rfl
    exact if_pos odd

/-- The two rules make the same id of a word exactly when they read it alike. -/
theorem readId_eq_some_iff {id : α → UInt32} {found : α} (ids : ∀ number entry,
    byId number = some entry → id entry = number) (looked : findWord numeric byName byId word = some found) :
    readId id byName word = some (id found) ↔ ReadsAlike id byName word := by
  unfold readId ReadsAlike
  by_cases marked : ∃ rest, word.toList = '#' :: rest
  · obtain ⟨rest,spelled⟩ := marked
    rw [findWord_hash spelled,Option.bind_eq_some_iff] at looked
    obtain ⟨number,parsed,entry⟩ := looked
    have same := ids number found entry
    rw [isNumber_hash spelled,if_neg Bool.false_ne_true,if_neg Bool.false_ne_true,Option.map_eq_some_iff]
    refine exists_congr fun named => and_congr_right fun _ => ?_
    constructor
    · intro agree rest' spelled'
      cases (List.cons.inj (spelled.symm.trans spelled')).2
      rw [parsed,agree,same]
    · intro agree
      have parsed' := agree rest spelled
      rw [parsed,Option.some.injEq] at parsed'
      rw [same,parsed']
  · have plain : ∀ rest, word.toList ≠ '#' :: rest := fun rest spelled => marked ⟨rest,spelled⟩
    rw [findWord_plain plain] at looked
    cases number : isNumber word with
    | true =>
      rw [if_pos (isNumber_numeric number)] at looked
      rw [if_pos rfl,if_pos rfl]
      cases byName with
      | some named =>
        cases looked
        simp
      | none =>
        rw [Option.none_or,Option.bind_eq_some_iff] at looked
        obtain ⟨value,parsed,entry⟩ := looked
        simp [parsed,ids value found entry]
    | false =>
      have named : byName = some found := by
        by_cases numbers : word.toList.all (isNumeric numeric) = true
        · rw [if_pos numbers,parseU32_eq_none numbers number] at looked
          simpa using looked
        · rw [if_neg numbers] at looked
          exact looked
      simp [named,plain]

theorem yields_lookupWord {A : Exchange Call Answer → Prop} {askName : M (Option α)}
    {askId : UInt32 → M (Option α)} (name : Fallible.Yields A askName (fun found => byName = found))
    (id : ∀ id, Fallible.Yields A (askId id) (fun found => byId id = found)) :
    Fallible.Yields A (lookupWord numeric askName askId word)
      (fun found => findWord numeric byName byId word = found) := by
  have read (letters : List Char) : Fallible.Yields A (lookupId askId letters)
      (fun found => (parseU32 letters).bind byId = found) := by
    unfold lookupId
    cases parseU32 letters with
    | none => simp
    | some number => exact id number
  unfold lookupWord
  split
  · next rest spelled => rw [findWord_hash spelled]; exact read rest
  · next plain =>
    rw [findWord_plain plain]
    split
    · rw [Fallible.yields_bind]
      refine name.mono fun found named => ?_
      rw [named]
      cases found with
      | none => exact read word.toList
      | some info => simp
    · exact name

end

namespace Database
variable (d : Database)

def userByName (name : String) : Option UserEntry := d.users.find? fun entry => entry.name == name
def userByUid (uid : Uid) : Option UserEntry := d.users.find? fun entry => entry.uid == uid
def groupByName (name : String) : Option GroupEntry := d.groups.find? fun entry => entry.name == name
def groupByGid (gid : Gid) : Option GroupEntry := d.groups.find? fun entry => entry.gid == gid

def Answers : Exchange Call Answer → Prop
  | ⟨.userFromName name,.ok found⟩ => found = d.userByName name
  | ⟨.userFromUid uid,.ok found⟩ => found = d.userByUid uid
  | ⟨.groupFromName name,.ok found⟩ => found = d.groupByName name
  | ⟨.groupFromGid gid,.ok found⟩ => found = d.groupByGid gid
  | _ => True

def backendUid (word : String) : Option Uid := readId UserEntry.uid (d.userByName word) word

def backendGid (word : String) : Option Gid := readId GroupEntry.gid (d.groupByName word) word

/-- The group id that goes with the user word when there is no group word. -/
def backendPrimaryGid (word : String) : Option Gid :=
  if isNumber word then (parseU32 word.toList).bind fun uid => (d.userByUid uid).map UserEntry.gid
  else (d.userByName word).map UserEntry.gid

/-- The ids the backend derives from the words after its own name. -/
def backendIds (backend : Backend) (words : List CString) : Option (Uid × Gid) := do
  let (opts,_) ← (backendGrammar backend).read words
  let user ← decode (← valueOf (userFlag backend) opts).bytes
  let uid ← d.backendUid user
  match valueOf (groupFlag backend) opts with
  | some group => return (uid,← d.backendGid (← decode group.bytes))
  | none => return (uid,← d.backendPrimaryGid user)

def find (numeric : Char → Bool) (word : String) : Option UserEntry :=
  findWord numeric (d.userByName word) d.userByUid word

def findGroup (numeric : Char → Bool) (word : String) : Option GroupEntry :=
  findWord numeric (d.groupByName word) d.groupByGid word

def Resolves (numeric : Char → Bool) (word : String) (account : Account) : Prop :=
  ∃ info first, d.find numeric word = some info ∧ d.userByUid info.uid = some first ∧
    account.uid = info.uid ∧ account.gid = first.gid

variable {d}

theorem userByUid_uid {uid : Uid} {entry : UserEntry} (found : d.userByUid uid = some entry) :
    entry.uid = uid := by
  simpa using List.find?_some found

theorem groupByGid_gid {gid : Gid} {entry : GroupEntry} (found : d.groupByGid gid = some entry) :
    entry.gid = gid := by
  simpa using List.find?_some found

end Database

section
variable {d : Database} {numeric : Char → Bool}

private theorem yields_fromUid (uid : Uid) : Fallible.Yields d.Answers (User.fromUid uid) (fun found =>
    ∀ user, found = some user → ∃ first, d.userByUid uid = some first ∧ user.uid = uid ∧ user.gid = first.gid) := by
  unfold User.fromUid
  simp only [Fallible.yields_bind,Fallible.yields_ask]
  intro answer allowed
  cases answer with
  | error error => simp
  | ok found =>
    have found : found = d.userByUid uid := allowed
    cases known : d.userByUid uid with
    | none => simp [found,known]
    | some first =>
      have same := Database.userByUid_uid known
      simp only [found,known,orFail_ok,Fallible.yields_pure]
      cases decode first.dir with
      | none => simp
      | some home =>
        cases decode first.shell with
        | none => simp
        | some shell => simp [same]

private theorem yields_userLookup (word : String) : Fallible.Yields d.Answers (User.lookup numeric word)
    (fun found => d.find numeric word = found) := by
  refine yields_lookupWord ?_ fun uid => ?_
  all_goals
    simp only [Fallible.yields_bind,Fallible.yields_ask]
    intro answer allowed
    cases answer with
    | error error => simp
    | ok found => simpa using Eq.symm allowed

private theorem yields_groupLookup (word : String) : Fallible.Yields d.Answers (Group.lookup numeric word)
    (fun found => d.findGroup numeric word = found) := by
  refine yields_lookupWord ?_ fun gid => ?_
  all_goals
    simp only [Fallible.yields_bind,Fallible.yields_ask]
    intro answer allowed
    cases answer with
    | error error => simp
    | ok found => simpa using Eq.symm allowed

private theorem yields_userFromStr (word : String) : Fallible.Yields d.Answers (User.fromStr numeric word)
    (fun found => ∀ user, found = some user → ∃ info first, d.find numeric word = some info ∧
      d.userByUid info.uid = some first ∧ user.uid = info.uid ∧ user.gid = first.gid) := by
  unfold User.fromStr
  rw [Fallible.yields_bind]
  refine (yields_userLookup word).mono ?_
  intro found looked
  cases found with
  | none => simp
  | some info =>
    refine (yields_fromUid info.uid).mono ?_
    intro answer read user same
    obtain ⟨first,found,uid,gid⟩ := read user same
    exact ⟨info,first,looked,found,uid,gid⟩

private theorem yields_ofUser (user : Option User) : Fallible.Yields d.Answers (Account.ofUser user)
    (fun found => ∀ account, found = some account → user = some account.user ∧ account.gid = account.user.gid) := by
  unfold Account.ofUser
  cases user with
  | none => simp
  | some user =>
    unfold Group.fromGid
    simp only [Fallible.yields_bind,Fallible.yields_ask]
    intro answer allowed
    cases answer with
    | error error => simp
    | ok found =>
      have found : found = d.groupByGid user.gid := allowed
      cases known : d.groupByGid user.gid with
      | none => simp [found,known]
      | some group => simpa [found,known,Account.gid] using Database.groupByGid_gid known

private theorem yields_accountFromStr (word : String) :
    Fallible.Yields d.Answers (Account.fromStr numeric word) (fun found =>
      ∀ account, found = some account → d.Resolves numeric word account) := by
  unfold Account.fromStr
  rw [Fallible.yields_bind]
  refine (yields_userFromStr word).mono fun user named => ?_
  refine (yields_ofUser user).mono fun found made account same => ?_
  obtain ⟨isUser,gid⟩ := made account same
  obtain ⟨info,first,looked,read,uid,primary⟩ := named account.user isUser
  exact ⟨info,first,looked,read,uid,gid.trans primary⟩

private theorem yields_accountFromUid (uid : Uid) :
    Fallible.Yields d.Answers (Account.fromUid uid) (fun found => ∀ account, found = some account →
      ∃ first, d.userByUid uid = some first ∧ account.uid = uid ∧ account.gid = first.gid) := by
  unfold Account.fromUid
  rw [Fallible.yields_bind]
  refine (yields_fromUid uid).mono fun user named => ?_
  refine (yields_ofUser user).mono fun found made account same => ?_
  obtain ⟨isUser,gid⟩ := made account same
  obtain ⟨first,read,known,primary⟩ := named account.user isUser
  exact ⟨first,read,known,gid.trans primary⟩

private theorem yields_groupFromStr (word : String) :
    Fallible.Yields d.Answers (Group.fromStr numeric word) (fun found => ∀ group, found = some group →
      ∃ info, d.findGroup numeric word = some info ∧ group.gid = info.gid) := by
  unfold Group.fromStr
  rw [Fallible.yields_bind]
  refine (yields_groupLookup word).mono fun found looked => ?_
  cases found with
  | none => simp
  | some info => simp [looked]

end

/-- A vector that starts with the user option, and goes on with options that are not
the user's again. -/
def Written (backend : Backend) (user : CString) (opts : List (Opt CString)) (argv : List CString) : Prop :=
  (∃ path name, argv = path :: name :: write (.valued (userFlag backend) user :: opts)) ∧
    ∀ opt ∈ opts, (backendGrammar backend).WellFormed opt ∧ opt.name ≠ userFlag backend

theorem Written.append {backend : Backend} {user : CString} {opts more : List (Opt CString)}
    {argv : List CString} (written : Written backend user opts argv)
    (fine : ∀ opt ∈ more, (backendGrammar backend).WellFormed opt ∧ opt.name ≠ userFlag backend) :
    Written backend user (opts ++ more) (argv ++ write more) := by
  obtain ⟨⟨path,name,rfl⟩,earlier⟩ := written
  refine ⟨⟨path,name,by simp⟩,fun opt member => ?_⟩
  rcases List.mem_append.mp member with before | after
  · exact earlier opt before
  · exact fine opt after

theorem Written.setUser {backend : Backend} {user other : CString} {opts : List (Opt CString)}
    {argv : List CString} (written : Written backend user opts argv) :
    Written backend other opts (argv.set 3 other) := by
  obtain ⟨⟨path,name,rfl⟩,fine⟩ := written
  exact ⟨⟨path,name,rfl⟩,fine⟩

theorem userFlag_wellFormed (backend : Backend) (c : CString) :
    (backendGrammar backend).WellFormed (.valued (userFlag backend) c) := by
  cases backend <;> exact ⟨by decide,by decide,by decide⟩

theorem groupFlag_fine (backend : Backend) (c : CString) :
    (backendGrammar backend).WellFormed (.valued (groupFlag backend) c) ∧
      (Opt.valued (groupFlag backend) c).name ≠ userFlag backend := by
  have other : groupFlag backend ≠ userFlag backend := by cases backend <;> decide
  refine ⟨?_,other⟩
  cases backend <;> exact ⟨by decide,by decide,by decide⟩

theorem yields_buildArgv {A : Exchange Call Answer → Prop} (build : Build) (systemd : build.backend ≠ .scopex) :
    Fallible.Yields A (buildArgv build) (fun argv => ∃ opts, Written build.backend (word "0") opts argv ∧
      valueOf (groupFlag build.backend) opts = none) := by
  unfold buildArgv
  rw [Fallible.yields_bind]
  refine (yields_cstring _).mono fun path _ => ?_
  cases backend : build.backend with
  | scopex => exact absurd backend systemd
  | run0 =>
    rw [Fallible.yields_pure]
    refine ⟨[.flag (word "--shell-prompt-prefix="),.flag (word "--background=")],⟨⟨path,word "run0",rfl⟩,?_⟩,rfl⟩
    decide
  | systemdRun =>
    rw [Fallible.yields_pure]
    cases build.withoutExpandEnv with
    | true =>
      refine ⟨[.flag (word "--quiet"),.flag (word "-G"),.flag (word "--send-sighup")],
        ⟨⟨path,word "systemd-run",rfl⟩,?_⟩,rfl⟩
      decide
    | false =>
      refine ⟨[.flag (word "--quiet"),.flag (word "-G"),.flag (word "--send-sighup"),
        .flag (word "--expand-environment=false")],⟨⟨path,word "systemd-run",rfl⟩,?_⟩,rfl⟩
      decide

def Fine (backend : Backend) (opts : List (Opt CString)) : Prop :=
  ∀ opt ∈ opts, (backendGrammar backend).WellFormed opt ∧ opt.name ≠ userFlag backend ∧
    opt.name ≠ groupFlag backend

instance (backend : Backend) (opts : List (Opt CString)) : Decidable (Fine backend opts) :=
  inferInstanceAs (Decidable (∀ opt ∈ opts, _))

private theorem fine_valued {backend : Backend} {name : CString} (value : CString)
    (fine : (backendGrammar backend).WellFormed (.valued name name) ∧ name ≠ userFlag backend ∧
      name ≠ groupFlag backend) : Fine backend [.valued name value] := by
  intro opt member
  rw [List.mem_singleton.mp member]
  exact fine

namespace Invocation
variable (run : Invocation) (d : Database)

/-- The word of the user option, and the account made of it. -/
def UserWord : Option Account → CString → Prop
  | none,user => user = word "0"
  | some account,user => ∃ value, run.args.optStr "user" = some value ∧ user.bytes = encode value ∧
      d.Resolves run.library.numeric value account

def GroupWord : Option Group → Option CString → Prop
  | none,written => written = none
  | some group,written => ∃ value name info, run.args.optStr "group" = some value ∧ written = some name ∧
      name.bytes = encode value ∧ d.findGroup run.library.numeric value = some info ∧ group.gid = info.gid

/-- The vector carries the words the identities of the request were made of. -/
def Shaped (request : Request) : Prop :=
  ∃ user opts, Written run.build.backend user opts request.argv ∧
    run.UserWord d request.targetAccount user ∧
    run.GroupWord d request.targetGroup (valueOf (groupFlag run.build.backend) opts)

def Keeps (request : Request) (opt : CliOption) (after : Request) : Prop :=
  run.Shaped d after ∧
    (after.targetAccount.isSome = true ↔ request.targetAccount.isSome = true ∨ opt = .user) ∧
    (after.targetGroup.isSome = true ↔ request.targetGroup.isSome = true ∨ opt = .group)

def Complete (opts : List CliOption) (before after : Request) : Prop :=
  run.Shaped d after ∧
    (after.targetAccount.isSome = true ↔ before.targetAccount.isSome = true ∨
      (.user ∈ opts ∧ run.args.optPresent "user" = true)) ∧
    (after.targetGroup.isSome = true ↔ before.targetGroup.isSome = true ∨
      (.group ∈ opts ∧ run.args.optPresent "group" = true))

variable {run d} {request : Request}

theorem Shaped.append (shaped : run.Shaped d request) (more : List (Opt CString))
    (fine : Fine run.build.backend more) : run.Shaped d { request with argv := request.argv ++ write more } := by
  obtain ⟨user,opts,written,account,group⟩ := shaped
  refine ⟨user,opts ++ more,written.append fun opt member => ?_,account,?_⟩
  · exact ⟨(fine opt member).1,(fine opt member).2.1⟩
  · rw [valueOf_append,valueOf_eq_none fun opt member => (fine opt member).2.2]
    exact group

private theorem Shaped.keeps {opt : CliOption} (shaped : run.Shaped d request) (after : Request)
    (argv : after.argv = request.argv) (account : after.targetAccount = request.targetAccount)
    (group : after.targetGroup = request.targetGroup) (other : opt ≠ .user ∧ opt ≠ .group) :
    run.Keeps d request opt after := by
  refine ⟨?_,by simp [account,other.1],by simp [group,other.2]⟩
  unfold Shaped
  rw [argv,account,group]
  exact shaped

private theorem Effect.keeps (systemd : run.build.backend ≠ .scopex) (shaped : run.Shaped d request)
    {opt : CliOption} {after : Request} (effect : run.Effect d.Answers request after opt) :
    run.Keeps d request opt after := by
  cases opt with
  | help | version => exact effect.elim
  | user =>
    obtain ⟨user,opts,written,_,grouped⟩ := shaped
    obtain ⟨text,account,argv,spelled,gives,takes,rfl⟩ := effect
    rw [Takes,if_neg systemd] at takes
    obtain ⟨c,same,rfl⟩ := takes
    have resolves := gives.meets (yields_accountFromStr text) account rfl
    exact ⟨⟨c,opts,written.setUser,⟨text,spelled,same,resolves⟩,grouped⟩,by simp,by simp⟩
  | group =>
    obtain ⟨user,opts,written,named,_⟩ := shaped
    obtain ⟨text,group,argv,spelled,gives,takes,rfl⟩ := effect
    rw [Takes,if_neg systemd] at takes
    obtain ⟨c,same,rfl⟩ := takes
    obtain ⟨info,looked,gid⟩ := gives.meets (yields_groupFromStr text) group rfl
    have fine : ∀ opt ∈ [Opt.valued (groupFlag run.build.backend) c],
        (backendGrammar run.build.backend).WellFormed opt ∧ opt.name ≠ userFlag run.build.backend := by
      intro opt member
      rw [List.mem_singleton.mp member]
      exact groupFlag_fine run.build.backend c
    refine ⟨⟨user,opts ++ [.valued (groupFlag run.build.backend) c],written.append fine,named,?_⟩,by simp,by simp⟩
    exact ⟨text,c,info,spelled,by simp [valueOf],same,looked,gid⟩
  | env =>
    obtain ⟨text,name,value,_,_,rfl⟩ := effect
    exact shaped.keeps _ rfl rfl rfl (by decide)
  | preserve =>
    obtain ⟨list,env,_,_,rfl⟩ := effect
    exact shaped.keeps _ rfl rfl rfl (by decide)
  | chdir =>
    obtain ⟨text,argv,_,takes,rfl⟩ := effect
    rw [Takes,if_neg systemd] at takes
    obtain ⟨c,_,rfl⟩ := takes
    have fine : Fine run.build.backend [.valued (directoryFlag run.build.backend) c] := by
      cases run.build.backend <;> exact fine_valued c (by decide)
    obtain ⟨user,opts,written,named,grouped⟩ := shaped.append _ fine
    exact ⟨⟨user,opts,written,named,grouped⟩,by simp,by simp⟩
  | shell | stdin | nonint | askpass => exact effect ▸ shaped.keeps _ rfl rfl rfl (by decide)

private theorem set_cons {before : Prop} {present : CliOption → Bool} (opt target : CliOption)
    (opts : List CliOption) : (if present opt = true then before ∨ opt = target else before) ∨
      (target ∈ opts ∧ present target = true) ↔
    before ∨ (target ∈ opt :: opts ∧ present target = true) := by
  by_cases same : opt = target
  · subst same
    by_cases there : present opt = true
    · simp [there]
    · simp [there]
  · have other : target ≠ opt := Ne.symm same
    simp [same,other]

private theorem Effects.complete (systemd : run.build.backend ≠ .scopex) {opts : List CliOption} {after : Request}
    (effects : run.Effects d.Answers opts request after) (shaped : run.Shaped d request) :
    run.Complete d opts request after := by
  induction opts generalizing request with
  | nil =>
    cases effects
    simpa [Complete] using shaped
  | cons opt opts ih =>
    unfold Effects at effects
    have set (target : CliOption) (before : Prop) :=
      @set_cons before (fun opt => run.args.optPresent opt.name) opt target opts
    by_cases present : run.args.optPresent opt.name = true
    · rw [if_pos present] at effects
      obtain ⟨middle,effect,rest⟩ := effects
      obtain ⟨shaped,account,group⟩ := effect.keeps systemd shaped
      obtain ⟨shaped,account',group'⟩ := ih rest shaped
      simp only [if_pos present] at set
      exact ⟨shaped,account'.trans ((or_congr_left account).trans (set .user _)),
        group'.trans ((or_congr_left group).trans (set .group _))⟩
    · rw [if_neg present] at effects
      obtain ⟨shaped,account,group⟩ := ih effects shaped
      simp only [if_neg present] at set
      exact ⟨shaped,account.trans (set .user _),group.trans (set .group _)⟩

private theorem yields_addDirectory (systemd : run.build.backend ≠ .scopex) (argv : List CString) :
    Fallible.Yields d.Answers (run.addDirectory argv) (fun after =>
      ∃ more, after = argv ++ write more ∧ Fine run.build.backend more) := by
  unfold addDirectory
  split
  · exact (Fallible.yields_pure _ _).mpr ⟨[],by simp,by simp [Fine]⟩
  · cases backend : run.build.backend with
    | scopex => exact absurd backend systemd
    | run0 =>
      simp only [if_true,Fallible.yields_bind,Fallible.yields_ask]
      intro answer _
      cases answer with
      | error error => exact (Fallible.yields_pure _ _).mpr ⟨[],by simp,by simp [Fine]⟩
      | ok cwd =>
        simp only [Fallible.yields_bind,Fallible.yields_pure]
        refine (yields_cstring cwd).mono fun c _ => ?_
        exact ⟨[.valued (word "--chdir") c],rfl,fine_valued c (by decide)⟩
    | systemdRun =>
      exact (Fallible.yields_pure _ _).mpr ⟨[.flag (word "--same-dir")],rfl,by decide⟩

private theorem yields_shellArgv (systemd : run.build.backend ≠ .scopex) (target : Account)
    (targetArgs : List Bytes) (flags : RunFlags) (argv : List CString) :
    Fallible.Yields d.Answers (run.shellArgv target targetArgs flags argv) (fun after =>
      ∃ more, after = argv ++ write more ∧ Fine run.build.backend more) := by
  unfold shellArgv
  by_cases extra : targetArgs ≠ []
  · simp [extra]
  by_cases stdin : flags.meets .authStdin = true
  · rw [if_neg extra,if_pos stdin]
    exact Fallible.yields_throw_bind _ _ _
  simp only [if_neg extra,if_neg stdin]
  cases backend : run.build.backend with
  | scopex => exact absurd backend systemd
  | run0 => exact (Fallible.yields_pure _ _).mpr ⟨[],by simp,by simp [Fine]⟩
  | systemdRun =>
    exact (Fallible.yields_pure _ _).mpr ⟨[.flag (word "--shell"),.flag (word "--scope")],rfl,by decide⟩

private theorem yields_commandArgv (systemd : run.build.backend ≠ .scopex) (targetArgs : List Bytes)
    (flags : RunFlags) (argv : List CString) :
    Fallible.Yields d.Answers (run.commandArgv targetArgs flags argv) (fun after =>
      ∃ more, after = argv ++ write more ∧ Fine run.build.backend more) := by
  unfold commandArgv
  by_cases both : (run.build.withAskpassSupport && flags.contains .authStdin &&
      flags.contains .authAskpass) = true
  · rw [if_pos both]
    exact Fallible.yields_throw_bind _ _ _
  simp only [if_neg both]
  cases backend : run.build.backend with
  | scopex => exact absurd backend systemd
  | run0 =>
    simp only [Fallible.yields_bind,Fallible.yields_pure]
    refine (Fallible.Yields.true _).mono fun (interactive : Bool) _ => ?_
    cases interactive
    · exact ⟨[.flag (word "--pipe")],by simp [Opt.words],by decide⟩
    · exact ⟨[.flag (word "--pty")],by simp [Opt.words],by decide⟩
  | systemdRun =>
    simp only [Fallible.yields_bind,Fallible.yields_pure]
    refine (Fallible.Yields.true _).mono fun (interactive : Bool) _ => ?_
    cases interactive
    · exact ⟨[.flag (word "--pipe"),.flag (word "--service-type=exec"),.flag (word "--wait")],
        by simp [Opt.words],by decide⟩
    · exact ⟨[.flag (word "--pty"),.flag (word "--service-type=exec"),.flag (word "--wait")],
        by simp [Opt.words],by decide⟩

private theorem yields_argvFor (systemd : run.build.backend ≠ .scopex) (target : Account)
    (targetArgs : List Bytes) (flags : RunFlags) (argv : List CString) :
    Fallible.Yields d.Answers (run.argvFor target targetArgs flags argv) (fun after =>
      ∃ more, after = argv ++ write more ∧ Fine run.build.backend more) := by
  unfold argvFor
  split
  · exact yields_shellArgv systemd target targetArgs flags argv
  · exact yields_commandArgv systemd targetArgs flags argv

/-- The identity of a request: that of the account it names, or of root, with the
group it names. -/
def Targets (d : Database) (request : Request) (target : Account) : Prop :=
  (match request.targetAccount with
    | some account => target.uid = account.uid
    | none => target.uid = 0) ∧
  match request.targetGroup, request.targetAccount with
    | some group,_ => target.gid = group.gid
    | none,some account => target.gid = account.gid
    | none,none => ∃ first, d.userByUid 0 = some first ∧ target.gid = first.gid

/-- The rest of `targetOf`, once there is an account. -/
private def inGroup (group : Option Group) (account : Account) : M Account :=
  match group with
  | some group => pure (account.setGroup group)
  | none => pure account

private theorem yields_targetOf (request : Request) :
    Fallible.Yields d.Answers (targetOf request) (Targets d request) := by
  unfold targetOf
  have grouped (account : Account) (targets : Targets d { request with targetGroup := none } account) :
      Fallible.Yields d.Answers (inGroup request.targetGroup account) (Targets d request) := by
    cases named : request.targetGroup with
    | none => simpa [Targets,inGroup,named] using targets
    | some group => simpa [Targets,inGroup,named,Account.setGroup,Account.uid,Account.gid] using targets.1
  cases named : request.targetAccount with
  | some account =>
    have targets : Targets d { request with targetGroup := none } account := by simp [Targets,named]
    exact grouped account targets
  | none =>
    simp only [Fallible.yields_bind]
    refine (yields_accountFromUid 0).mono fun found made => ?_
    cases found with
    | none => exact Fallible.yields_throw_bind _ _ _
    | some account =>
      obtain ⟨first,known,uid,gid⟩ := made account rfl
      have targets : Targets d { request with targetGroup := none } account := by
        simpa [Targets,named] using ⟨uid,first,known,gid⟩
      exact grouped account targets

def Prepares (run : Invocation) (d : Database) (prepared : Prepared) : Prop :=
  ∃ request, run.Shaped d request ∧ Targets d request prepared.targetUser ∧
    (request.targetAccount.isSome = true ↔ run.args.optPresent "user" = true) ∧
    (request.targetGroup.isSome = true ↔ run.args.optPresent "group" = true) ∧
    prepared.argv = request.argv

private theorem Settles.prepares (systemd : run.build.backend ≠ .scopex) {targetArgs : List Bytes}
    {prepared : Prepared} {start argv : List CString}
    (settles : run.Settles d.Answers targetArgs prepared start request argv) : Prepares run d prepared := by
  have first := settles.first
  rw [if_neg systemd] at first
  obtain ⟨opts,written,ungrouped⟩ := first.meets (yields_buildArgv run.build systemd)
  have shaped : run.Shaped d ⟨∅,none,none,.none,start,none⟩ := ⟨word "0",opts,written,rfl,ungrouped⟩
  obtain ⟨shaped,account,group⟩ := settles.options.complete systemd shaped
  obtain ⟨more,rfl,fine⟩ := settles.directory.meets (yields_addDirectory systemd _)
  obtain ⟨more',same,fine'⟩ := settles.mode.meets (yields_argvFor systemd _ _ _ _)
  have inScheme : CliOption.user ∈ argvScheme run.build ∧ CliOption.group ∈ argvScheme run.build := by
    simp [argvScheme]
  refine ⟨_,(shaped.append more fine).append more' fine',settles.target.meets (yields_targetOf request),?_,?_,same⟩
  · simpa [inScheme.1] using account
  · simpa [inScheme.2] using group

end Invocation

theorem yields_setenvWords {A : Exchange Call Answer → Prop} (entries : List (Sigma fun _ : String => String)) :
    Fallible.Yields A (setenvWords entries) (fun words => ∃ values : List CString,
      values.map CString.bytes = entries.map assignment ∧
        words = write (values.map fun value => .valued (word "--setenv") value)) := by
  rw [setenvWords_eq,Fallible.yields_map]
  refine (yields_cstrings _).mono fun values same => ⟨values,same,?_⟩
  rw [write,List.flatMap_map]
  rfl

theorem fine_setenvs (backend : Backend) (values : List CString) :
    Fine backend (values.map fun value => .valued (word "--setenv") value) := by
  intro opt member
  obtain ⟨value,_,rfl⟩ := List.mem_map.mp member
  cases backend <;> exact fine_valued value (by decide) _ (List.mem_singleton.mpr rfl)

private theorem yields_finishArgv {A : Exchange Call Answer → Prop} (backend : Backend)
    (prepared : Prepared) (env : EnvMap) : Fallible.Yields A (finishArgv prepared env) (fun argv =>
      ∃ opts tail, argv = prepared.argv ++ write opts ++ tail ∧ Fine backend opts ∧
        ∃ left, (backendGrammar backend).read tail = some ([],left)) := by
  unfold finishArgv
  rw [Fallible.yields_bind]
  refine (yields_setenvWords env.entries).mono fun words made => ?_
  obtain ⟨values,_,rfl⟩ := made
  have fine := fine_setenvs backend values
  split
  · exact (Fallible.yields_pure _ _).mpr ⟨_,[],by simp,fine,[],rfl⟩
  · simp only [Fallible.yields_bind,Fallible.yields_pure]
    refine (Fallible.Yields.true _).mono fun command _ => ?_
    exact ⟨_,word "--" :: command,by simp,fine,command,(backendGrammar backend).read_terminator command⟩

private theorem Written.backendIds {d : Database} {backend : Backend} {user : CString} {opts more : List (Opt CString)}
    {argv tail left : List CString} (written : Written backend user opts argv) (fine : Fine backend more)
    (ends : (backendGrammar backend).read tail = some ([],left)) :
    d.backendIds backend ((argv ++ write more ++ tail).drop 2) = (do
      let user ← decode user.bytes
      let uid ← d.backendUid user
      match valueOf (groupFlag backend) opts with
      | some group => return (uid,← d.backendGid (← decode group.bytes))
      | none => return (uid,← d.backendPrimaryGid user)) := by
  obtain ⟨⟨path,name,rfl⟩,others⟩ := written
  have wellFormed : ∀ opt ∈ .valued (userFlag backend) user :: (opts ++ more),
      (backendGrammar backend).WellFormed opt := by
    intro opt member
    rcases List.mem_cons.mp member with rfl | member
    · exact userFlag_wellFormed backend user
    rcases List.mem_append.mp member with early | late
    · exact (others opt early).1
    · exact (fine opt late).1
  have words : (path :: name :: write (.valued (userFlag backend) user :: opts) ++ write more ++ tail).drop 2 =
      write (.valued (userFlag backend) user :: (opts ++ more)) ++ tail := by
    simp
  have other : groupFlag backend ≠ userFlag backend := by cases backend <;> decide
  have noUser : valueOf (userFlag backend) (opts ++ more) = none := by
    refine valueOf_eq_none fun opt member => ?_
    rcases List.mem_append.mp member with early | late
    · exact (others opt early).2
    · exact (fine opt late).2.1
  have noGroup : valueOf (groupFlag backend) more = none := valueOf_eq_none fun opt member => (fine opt member).2.2
  have userValue : valueOf (userFlag backend) (.valued (userFlag backend) user :: (opts ++ more)) = some user := by
    rw [← List.singleton_append,valueOf_append,noUser]
    simp [valueOf]
  have groupValue : valueOf (groupFlag backend) (.valued (userFlag backend) user :: (opts ++ more)) =
      valueOf (groupFlag backend) opts := by
    rw [← List.singleton_append,valueOf_append,valueOf_append,noGroup]
    simp [valueOf,Ne.symm other]
  unfold Database.backendIds
  rw [words,Grammar.read_write wellFormed,ends]
  simp only [Option.map_some,List.append_nil,Option.bind_eq_bind,Option.bind_some]
  rw [userValue,groupValue]
  rfl

/-- The words of the two options name the same identity under both rules: each is read
alike, and a user that is named, with no group word, is the first entry of its uid. -/
def Database.Agrees (d : Database) (user group : Option String) : Prop :=
  (∀ word, user = some word → ReadsAlike UserEntry.uid (d.userByName word) word) ∧
  (∀ word, group = some word → ReadsAlike GroupEntry.gid (d.groupByName word) word) ∧
  (group = none → ∀ word named first, user = some word → isNumber word = false →
    d.userByName word = some named → d.userByUid named.uid = some first → first.gid = named.gid)

section
variable {d : Database} {numeric : Char → Bool}

private theorem backendUid_iff {word : String} {info : UserEntry} (looked : d.find numeric word = some info) :
    d.backendUid word = some info.uid ↔ ReadsAlike UserEntry.uid (d.userByName word) word :=
  readId_eq_some_iff (fun _ _ known => Database.userByUid_uid known) looked

private theorem backendGid_iff {word : String} {info : GroupEntry}
    (looked : d.findGroup numeric word = some info) :
    d.backendGid word = some info.gid ↔ ReadsAlike GroupEntry.gid (d.groupByName word) word :=
  readId_eq_some_iff (fun _ _ known => Database.groupByGid_gid known) looked

/-- A user word that is read alike has the primary group of the first entry of its uid
unless it names another entry. -/
private theorem backendPrimaryGid_iff {word : String} {uid : Uid} {first : UserEntry}
    (alike : d.backendUid word = some uid) (known : d.userByUid uid = some first) :
    d.backendPrimaryGid word = some first.gid ↔ (isNumber word = false → ∀ named,
      d.userByName word = some named → d.userByUid named.uid = some first → first.gid = named.gid) := by
  unfold Database.backendUid readId at alike
  unfold Database.backendPrimaryGid
  cases number : isNumber word with
  | true =>
    rw [number,if_pos rfl] at alike
    simp [alike,known]
  | false =>
    rw [number,if_neg Bool.false_ne_true,Option.map_eq_some_iff] at alike
    obtain ⟨named,byName,rfl⟩ := alike
    simp [byName,known,eq_comm]

end

private theorem pair_eq_some_iff {a b : Option UInt32} {uid gid : UInt32} :
    (do return (← a,← b)) = some (uid,gid) ↔ a = some uid ∧ b = some gid := by
  cases a <;> cases b <;> simp

section
variable {run : Invocation} {d : Database} {request : Request} {target : Account} {user : CString}

/-- The user word of the vector: it is read as the target's uid exactly when the word
given is read alike, and when it is no number it is the word given. -/
private theorem user_reads (word : run.UserWord d request.targetAccount user)
    (present : request.targetAccount.isSome = true ↔ run.args.optPresent "user" = true)
    (targets : Invocation.Targets d request target) : ∃ name, decode user.bytes = some name ∧
      (d.backendUid name = some target.uid ↔ ∀ word, run.given .user = some word →
        ReadsAlike UserEntry.uid (d.userByName word) word) ∧
      (request.targetGroup = none → ∃ first, d.userByUid target.uid = some first ∧ target.gid = first.gid) ∧
      (∀ word, run.given .user = some word → word = name) ∧
      (isNumber name = false → run.given .user = some name) := by
  obtain ⟨uid,gid⟩ := targets
  cases named : request.targetAccount with
  | none =>
    rw [named] at word uid gid present
    have absent : run.given .user = none := Invocation.given_none fun there => by simpa using present.mpr there
    have decoded : decode user.bytes = some "0" := decode_eq_some_iff.mpr (by rw [word]; decide)
    have number : isNumber "0" = true := by decide
    have zero : d.backendUid "0" = some 0 := by
      rw [Database.backendUid,readId,if_pos number]
      decide
    refine ⟨"0",decoded,?_,fun ungrouped => ?_,by simp [absent],by simp [number]⟩
    · rw [uid,absent]
      simp [zero]
    · rw [ungrouped] at gid
      rw [uid]
      exact gid
  | some account =>
    rw [named] at word uid gid present
    obtain ⟨value,text,same,info,first,looked,known,accountUid,accountGid⟩ := word
    have there : run.given .user = some value := Invocation.given_some (present.mp rfl) text
    have decoded : decode user.bytes = some value := decode_eq_some_iff.mpr same.symm
    have readUid : target.uid = info.uid := uid.trans accountUid
    refine ⟨value,decoded,?_,fun ungrouped => ⟨first,?_,?_⟩,by simp [there,eq_comm],fun _ => there⟩
    · rw [readUid,backendUid_iff looked,there]
      simp
    · rw [readUid]
      exact known
    · rw [ungrouped] at gid
      exact gid.trans accountGid

end

/-- For every database and every accepted command line, the ids the backend makes of
the vector that is run are those of the account that is authorised exactly when the
words given name the same identity under both rules. -/
theorem backendIds_iff (run : Invocation) (systemd : run.build.backend ≠ .scopex) (d : Database)
    (targetArgs : List Bytes) (prepared : Prepared) (t : List (Exchange Call Answer))
    (prepares : Trace (run.prepare targetArgs).run t (.ok (.inl prepared)))
    (answered : ∀ x ∈ t, d.Answers x) (env : EnvMap) (u : List (Exchange Call Answer))
    (argv : List CString) (finishes : Trace (finishArgv prepared env).run u (.ok argv)) :
    d.backendIds run.build.backend (argv.drop 2) = some (prepared.targetUser.uid,prepared.targetUser.gid) ↔
      d.Agrees (run.given .user) (run.given .group) := by
  obtain ⟨start,settled,words,settles⟩ :=
    Invocation.yields_prepare (A := d.Answers) targetArgs t _ prepares answered prepared rfl
  obtain ⟨request,shaped,targets,hasUser,hasGroup,same⟩ := settles.prepares systemd
  obtain ⟨opts,tail,rfl,fine,left,ends⟩ :=
    @yields_finishArgv (fun _ => True) run.build.backend prepared env u argv finishes fun _ _ => trivial
  obtain ⟨user,own,written,userWord,groupWord⟩ := shaped
  rw [same,written.backendIds fine ends]
  obtain ⟨name,decoded,uidIff,primary,only,plain⟩ := user_reads userWord hasUser targets
  rw [decoded]
  simp only [Option.bind_eq_bind,Option.bind_some]
  cases grouped : request.targetGroup with
  | none =>
    rw [grouped] at groupWord hasGroup
    have absent : run.given .group = none := Invocation.given_none fun there => by simpa using hasGroup.mpr there
    obtain ⟨first,known,gid⟩ := primary grouped
    rw [groupWord,absent]
    refine pair_eq_some_iff.trans ?_
    rw [gid,uidIff]
    refine and_congr_right fun alike => ?_
    rw [backendPrimaryGid_iff (uidIff.mpr alike) known]
    constructor
    · intro same
      refine ⟨by simp,fun _ word named other spelled letters byName byUid => ?_⟩
      cases only word spelled
      have sameUid : named.uid = prepared.targetUser.uid := by
        have reads := uidIff.mpr alike
        rw [Database.backendUid,readId,letters,if_neg Bool.false_ne_true,byName] at reads
        exact Option.some.inj reads
      rw [sameUid,known] at byUid
      cases byUid
      exact same letters named byName (sameUid ▸ known)
    · intro same letters named byName byUid
      exact same.2 rfl name named first (plain letters) letters byName byUid
  | some group =>
    rw [grouped] at groupWord hasGroup
    obtain ⟨value,c,info,text,written,bytes,looked,same⟩ := groupWord
    have there : run.given .group = some value := Invocation.given_some (hasGroup.mp rfl) text
    have gid : prepared.targetUser.gid = info.gid := by
      have identity := targets.2
      rw [grouped] at identity
      exact identity.trans same
    have decodedGroup : decode c.bytes = some value := decode_eq_some_iff.mpr bytes.symm
    rw [written,there,gid]
    simp only [decodedGroup,Option.bind_some]
    refine pair_eq_some_iff.trans ?_
    rw [uidIff,backendGid_iff looked]
    simp [Database.Agrees]

/-- A command line that asks for a user, and the databases it is read against: one of
the users has a number for its name. -/
def asking (user : String) : Invocation where
  library := ⟨fun _ _ => .error "",fun _ _ => "",fun _ => false⟩
  build := ⟨.systemdRun,false,false,false,none,by decide⟩
  program := "runas"
  args := ⟨["id"],fun name => name == "user",fun name => if name = "user" then some user else none⟩

def numericNames : Database where
  users := [⟨"root",0,0,encode "/root",encode "/bin/sh"⟩,⟨"0",1000,1000,encode "/home/0",encode "/bin/sh"⟩]
  groups := [⟨"root",0⟩,⟨"0",1000⟩]

def zeroAccount : Account := ⟨⟨1000,1000,"0","/home/0","/bin/sh"⟩,⟨1000,"0"⟩,none⟩

def preparedAs (user : String) (target : Account) : Prepared where
  currentUser := zeroAccount
  targetUser := target
  targetArgs := [encode "id"]
  flags := .none
  env := ∅
  argv := [word "/usr/bin/systemd-run",word "systemd-run",word "--uid",word user,word "--quiet",word "-G",
    word "--send-sighup",word "--expand-environment=false",word "--same-dir",word "--pipe",
    word "--service-type=exec",word "--wait"]
  targetDir := none

def answersFor (user : String) (uid gid : UInt32) : List (Exchange Call Answer) :=
  [⟨.userFromName user,.ok (numericNames.userByName user)⟩,
    ⟨.userFromUid uid,.ok (numericNames.userByUid uid)⟩,⟨.groupFromGid gid,.ok (numericNames.groupByGid gid)⟩,
    ⟨.getuid,(1000 : UInt32)⟩,⟨.userFromUid 1000,.ok (numericNames.userByUid 1000)⟩,
    ⟨.groupFromGid 1000,.ok (numericNames.groupByGid 1000)⟩,⟨.isTerminal .stdout,false⟩]

private theorem answersFor_answered (user : String) (uid gid : UInt32) :
    ∀ x ∈ answersFor user uid gid, numericNames.Answers x := by
  simp [answersFor,Database.Answers]

/-- The user whose name is `0` asks for itself, and the backend takes it for root. -/
theorem backendIds_numericName : ¬ ∀ (run : Invocation) (d : Database) (targetArgs : List Bytes)
    (prepared : Prepared) (t : List (Exchange Call Answer)) (env : EnvMap)
    (u : List (Exchange Call Answer)) (argv : List CString), run.build.backend ≠ .scopex →
      Trace (run.prepare targetArgs).run t (.ok (.inl prepared)) → (∀ x ∈ t, d.Answers x) →
      Trace (finishArgv prepared env).run u (.ok argv) →
      d.backendIds run.build.backend (argv.drop 2) =
        some (prepared.targetUser.uid,prepared.targetUser.gid) := by
  intro claimed
  have prepares : Trace ((asking "0").prepare [encode "id"]).run (answersFor "0" 1000 1000)
      (.ok (.inl (preparedAs "0" zeroAccount))) := replay_sound 60 rfl
  have finishes : Trace (finishArgv (preparedAs "0" zeroAccount) ∅).run []
      (.ok ((preparedAs "0" zeroAccount).argv ++ [word "--",word "id"])) := replay_sound 20 rfl
  have same := claimed _ numericNames _ _ _ ∅ _ _ (by decide) prepares (answersFor_answered "0" 1000 1000) finishes
  have root : numericNames.backendIds .systemdRun
      (((preparedAs "0" zeroAccount).argv ++ [word "--",word "id"]).drop 2) = some (0,0) := rfl
  cases root.symm.trans same

/-- The same user asks for root by its name. -/
theorem backendIds_root : numericNames.backendIds .systemdRun
    (((preparedAs "root" root).argv ++ [word "--",word "id"]).drop 2) = some (0,0) := by
  have prepares : Trace ((asking "root").prepare [encode "id"]).run (answersFor "root" 0 0)
      (.ok (.inl (preparedAs "root" root))) := replay_sound 60 rfl
  have finishes : Trace (finishArgv (preparedAs "root" root) ∅).run []
      (.ok ((preparedAs "root" root).argv ++ [word "--",word "id"])) := replay_sound 20 rfl
  refine (backendIds_iff (asking "root") (by decide) numericNames [encode "id"] _ _ prepares
    (answersFor_answered "root" 0 0) ∅ _ _ finishes).mpr ⟨?_,?_,?_⟩
  · intro word spelled
    cases spelled
    exact ⟨_,rfl,by simp⟩
  · intro word spelled
    cases spelled
  · intro _ word named first spelled letters byName byUid
    cases spelled
    cases byName
    cases byUid
    rfl

end Runas
