import Runas.Topics
import Runas.Interaction.Alone

/-! The credentials a command is started with: what each call does to the ids of the
process, and the states in which `exec` attempts to replace it. -/
namespace Runas
open Interaction Text

/-- The argument that leaves an id as it is. -/
def unchanged : UInt32 := 0xFFFFFFFF

structure Ids where
  real : UInt32
  effective : UInt32
  saved : UInt32

def Ids.set (ids : Ids) (real effective saved : UInt32) : Ids where
  real := if real = unchanged then ids.real else real
  effective := if effective = unchanged then ids.effective else effective
  saved := if saved = unchanged then ids.saved else saved

/-- The credentials of the process, and whether a step towards exec has failed. -/
structure Credentials where
  user : Ids
  group : Ids
  groups : List Gid
  failed : Bool

def isStep : Call → Bool
  | .setgroups _ | .initgroups _ _ | .setresgid _ _ _ | .setresuid _ _ _ | .setParentDeathSignal _
  | .chdir _ => true
  | _ => false

namespace Credentials
variable (computed : Bytes → Gid → List Gid)

/-- The effect of a call: `computed` is the group list of a user name and a group. -/
def after (k : Credentials) : (event : Call) → Answer event → Credentials
  | .setgroups groups,.ok () => { k with groups := groups }
  | .initgroups name gid,.ok () => { k with groups := computed name.bytes gid }
  | .setresgid real effective saved,.ok () => { k with group := k.group.set real effective saved }
  | .setresuid real effective saved,.ok () => { k with user := k.user.set real effective saved }
  | .setgroups _,.error _ | .initgroups _ _,.error _ | .setresgid _ _ _,.error _
  | .setresuid _ _ _,.error _ | .setParentDeathSignal _,.error _ | .chdir _,.error _ =>
    { k with failed := true }
  | _,_ => k

def step (k : Credentials) (event : Call) (answer : Answer event) (k' : Credentials) : Prop :=
  k' = k.after computed event answer

/-- A process that was started by a user and has root's rights. -/
def Privileged (user : Account) (k : Credentials) : Prop :=
  k.user = ⟨user.uid,0,0⟩ ∧ k.failed = false

/-- The credentials are those of the target, and no others. -/
def Dropped (build : Build) (target : Account) (k : Credentials) : Prop :=
  k.user.real = (targetIds build target).2 ∧ k.user.effective = (targetIds build target).2 ∧
    k.group.real = (targetIds build target).1 ∧ k.group.effective = (targetIds build target).1 ∧
    k.groups = if build.backend = .scopex then computed (encode target.name) target.gid else []

/-- After a failed step nothing more is called, and exec is attempted only with the
target's credentials. -/
def Sound (build : Build) (target : Account) (k : Credentials) (event : Call) : Prop :=
  k.failed = false ∧ (isExec event = true → k.Dropped computed build target)

variable {computed}

theorem after_other {event : Call} (other : isStep event = false) (k : Credentials) (answer : Answer event) :
    k.after computed event answer = k := by
  cases event <;> first | rfl | contradiction

end Credentials

section
variable {computed : Bytes → Gid → List Gid} {build : Build} {user target : Account}

private abbrev setting (computed : Bytes → Gid → List Gid) (build : Build) (target : Account) :=
  alone (Credentials.step computed) (Credentials.Sound computed build target)

/-- The ids of the target are ids that can be set, where they are the target's own. -/
def Settable (build : Build) (target : Account) : Prop :=
  build.backend = .scopex → target.uid ≠ unchanged ∧ target.gid ≠ unchanged

private theorem Settable.ids (settable : Settable build target) :
    (targetIds build target).1 ≠ unchanged ∧ (targetIds build target).2 ≠ unchanged := by
  unfold targetIds
  split
  · next scopex => exact (settable scopex).symm
  · exact ⟨by decide,by decide⟩

private theorem safe_quiet {α : Type} {p : Calls α} {k : Credentials} {P : Credentials → Prop}
    (used : p.Uses fun event => isStep event = false ∧ (isExec event = true → k.Dropped computed build target))
    (clean : k.failed = false) (holds : P k) :
    (setting computed build target).Safe p (fun _ => P) k := by
  have stays := Setting.Safe.uses (S := setting computed build target) (P := (· = k)) used
    (stable_alone _) rfl ?_ ?_
  · refine stays.mono fun _ k' same => same ▸ holds
  · intro k' event same allowed
    cases same
    exact ⟨clean,allowed.2⟩
  · intro k' event answer k'' same allowed taken
    cases same
    exact taken.trans (Credentials.after_other allowed.1 k answer)

private def CredentialsReady (computed : Bytes → Gid → List Gid) (build : Build) (target : Account)
    (k : Credentials) : Prop :=
  k.failed = false ∧ (Settable build target → k.Dropped computed build target) ∧
    (CString.new (encode target.name) = none → build.backend ≠ .scopex)

private theorem sound_plain {event : Call} (other : isExec event = false) {k : Credentials} (clean : k.failed = false) :
    Credentials.Sound computed build target k event := ⟨clean,fun is => by simp [other] at is⟩

/-- The ids are set last, from any credentials whose groups are the target's. -/
private theorem safe_setIds {k : Credentials} (clean : k.failed = false) (groups : k.groups =
      if build.backend = .scopex then computed (encode target.name) target.gid else [])
    (named : CString.new (encode target.name) = none → build.backend ≠ .scopex)
    {gid : Gid} {uid : Uid} (pair : targetIds build target = (gid,uid)) :
    (setting computed build target).Safe (do
      orFail (← ask (.setresgid gid gid user.gid))
      orFail (← ask (.setresuid uid uid user.uid)) : M Unit).run (fun
        | .ok () => CredentialsReady computed build target
        | .error _ => fun _ => True) k := by
  refine Fallible.safe_ask_alone (sound_plain rfl clean) fun answer k₁ taken => ?_
  cases answer with
  | error error => exact .done_alone trivial
  | ok =>
    cases taken
    refine Fallible.safe_ask_alone (sound_plain rfl clean) fun answer k₂ taken => ?_
    cases answer with
    | error error => exact .done_alone trivial
    | ok =>
      cases taken
      refine .done_alone ⟨clean,fun settable => ?_,named⟩
      have known := settable.ids
      unfold Credentials.Dropped
      rw [pair] at known ⊢
      exact ⟨if_neg known.2,if_neg known.2,if_neg known.1,if_neg known.1,groups⟩

private theorem safe_setCredentials {k : Credentials} (clean : k.failed = false) :
    (setting computed build target).Safe (setCredentials build user target).run (fun
      | .ok () => CredentialsReady computed build target
      | .error _ => fun _ => True) k := by
  unfold setCredentials
  cases pair : targetIds build target with | mk gid uid => ?_
  refine Fallible.safe_ask_alone (sound_plain rfl clean) fun answer k₁ taken => ?_
  cases answer with
  | error error => exact .done_alone trivial
  | ok =>
    cases taken
    by_cases scopex : build.backend = .scopex
    · simp only [if_pos scopex]
      have same : gid = target.gid := by
        rw [targetIds,if_pos scopex] at pair
        exact (congrArg Prod.fst pair).symm
      unfold initgroups cstr
      cases named : CString.new (encode target.name) with
      | none => exact .done_alone trivial
      | some c =>
        simp only [bind_assoc,pure_bind]
        refine Fallible.safe_ask_alone (sound_plain rfl clean) fun answer k₂ taken => ?_
        cases answer with
        | error error => exact .done_alone trivial
        | ok =>
          cases taken
          refine safe_setIds ?_ ?_ (by simp [named]) pair
          · exact clean
          · rw [if_pos scopex,← CString.new_eq_some named,← same]
            rfl
    · simp only [if_neg scopex]
      refine safe_setIds ?_ ?_ (fun _ => scopex) pair
      · exact clean
      · exact (if_neg scopex).symm

/-- The target's ids can be set, or its name or the command cannot be passed on. -/
def Transfers (build : Build) (target : Account) (cmd : CString) : Prop :=
  Settable build target ∨ CString.new (encode target.name) = none ∨
    (build.backend = .scopex ∧ decode cmd.bytes = none)

private theorem safe_execvpe {k : Credentials} (clean : k.failed = false) (cmd : CString)
    (argv envp : List CString) (ready : decode cmd.bytes ≠ none → k.Dropped computed build target) :
    (setting computed build target).Safe (execvpe cmd argv envp).run (fun _ _ => True) k := by
  by_cases text : decode cmd.bytes = none
  · unfold execvpe
    rw [text]
    exact .done_alone trivial
  · have dropped := ready text
    refine safe_quiet (uses_execvpe ?_ ?_) clean trivial
    · exact fun path _ => ⟨rfl,fun _ => dropped⟩
    · exact fun name => ⟨rfl,fun _ => dropped⟩

private theorem safe_rearm {k : Credentials} (clean : k.failed = false) (supervisor : Pid) :
    (setting computed build target).Safe (rearm supervisor).run (fun
      | .ok () => (· = k)
      | .error _ => fun _ => True) k := by
  have noExec {event : Call} (other : isExec event = false) :
      Credentials.Sound computed build target k event := ⟨clean,fun is => by simp [other] at is⟩
  unfold rearm setParentExitSignal
  simp only [bind_assoc]
  refine Fallible.safe_ask_alone (noExec rfl) fun answer k₁ taken => ?_
  cases answer with
  | error error => exact .done_alone trivial
  | ok =>
    cases taken
    refine Fallible.safe_ask_alone (noExec rfl) fun parent k₂ taken => ?_
    cases taken
    by_cases changed : parent ≠ supervisor
    · rw [if_pos changed]
      exact .call_alone (noExec rfl) fun _ _ taken => .done_alone taken
    · rw [if_neg changed]
      exact .done_alone rfl

private theorem safe_setCwd {k : Credentials} (clean : k.failed = false) (cwd : Option String) :
    (setting computed build target).Safe (setCwd cwd).run (fun
      | .ok () => (· = k)
      | .error _ => fun _ => True) k := by
  cases cwd with
  | none => exact .done_alone rfl
  | some dir =>
    refine Fallible.safe_ask_alone ⟨clean,by simp [isExec]⟩ fun answer k₁ taken => ?_
    cases answer with
    | error error => exact .done_alone trivial
    | ok =>
      cases taken
      exact .done_alone rfl

private theorem safe_toExec {k : Credentials} (clean : k.failed = false) (cmd : CString)
    (argv envp : List CString) (cwd : Option String) (ready : decode cmd.bytes ≠ none → k.Dropped computed build target) :
    (setting computed build target).Safe (do
      setCwd cwd
      execvpe cmd argv envp : M Empty).run (fun _ _ => True) k := by
  refine Fallible.safe_bind_alone ((safe_setCwd clean cwd).mono fun result k₁ same => ?_)
  cases result with
  | error error => trivial
  | ok =>
    cases same
    exact safe_execvpe clean cmd argv envp ready

private theorem safe_execFrom {k : Credentials} (clean : k.failed = false) (cmd : CString)
    (argv envp : List CString) (cwd : Option String) (transfers : Transfers build target cmd) (supervisor : Option Pid) :
    (setting computed build target).Safe (execFrom build user target cmd argv envp cwd supervisor).run (fun _ _ => True) k := by
  unfold execFrom
  have quiet {event : Call} (other : isStep event = false) (plain : isExec event = false) :
      isStep event = false ∧ (isExec event = true → k.Dropped computed build target) :=
    ⟨other,fun is => by simp [plain] at is⟩
  have cleaned := safe_quiet (uses_cleanEnvironment (quiet rfl rfl) (fun _ => quiet rfl rfl)
    (quiet rfl rfl)) clean rfl
  refine Fallible.safe_bind_alone (cleaned.mono fun result k₁ same => ?_)
  cases same
  cases result with
  | error error => trivial
  | ok =>
    refine Fallible.safe_bind_alone ((safe_setCredentials clean).mono fun result k₂ ready => ?_)
    cases result with
    | error error => trivial
    | ok =>
      obtain ⟨clean,dropped,named⟩ := ready
      by_cases scopex : build.backend = .scopex
      · simp only [if_pos scopex]
        have text : decode cmd.bytes ≠ none → k₂.Dropped computed build target := by
          intro text
          rcases transfers with settable | unnamed | ⟨_,untext⟩
          · exact dropped settable
          · exact absurd scopex (named unnamed)
          · exact absurd untext text
        cases supervisor with
        | none => exact safe_toExec clean cmd argv envp cwd text
        | some supervisor =>
          refine Fallible.safe_bind_alone ((safe_rearm clean supervisor).mono fun result k₃ same => ?_)
          cases result with
          | error error => trivial
          | ok =>
            cases same
            exact safe_toExec clean cmd argv envp cwd text
      · simp only [if_neg scopex]
        have settable : Settable build target := fun is => absurd is scopex
        exact Fallible.safe_ask_alone ⟨clean,fun _ => dropped settable⟩ fun _ _ _ => .done_alone trivial

private theorem safe_exec {k : Credentials} (clean : k.failed = false) (cmd : CString)
    (argv envp : List CString) (cwd : Option String) (transfers : Transfers build target cmd) :
    (setting computed build target).Safe (exec build user target cmd argv envp cwd).run (fun _ _ => True) k := by
  rw [exec_from]
  by_cases supervised : build.supervised = true
  · rw [if_pos supervised]
    simp only [map_eq_pure_bind,bind_assoc,pure_bind]
    refine Fallible.safe_ask_alone (sound_plain rfl clean) fun supervisor k₁ taken => ?_
    cases taken
    exact safe_execFrom clean cmd argv envp cwd transfers (some supervisor)
  · rw [if_neg supervised]
    exact safe_execFrom clean cmd argv envp cwd transfers none

private def transferred (computed : Bytes → Gid → List Gid) (user target : Account) (name : CString)
    (k : Credentials) : Credentials where
  user := k.user.set target.uid target.uid user.uid
  group := k.group.set target.gid target.gid user.gid
  groups := computed name.bytes target.gid
  failed := k.failed

private theorem runs_setCredentials (scopex : build.backend = .scopex) {name : CString}
    (named : CString.new (encode target.name) = some name) (k : Credentials) :
    Runs (Credentials.step computed) (setCredentials build user target).run k (.ok ())
      (transferred computed user target name k) := by
  unfold setCredentials initgroups cstr targetIds
  rw [if_pos scopex]
  simp only [if_pos scopex,named,bind_assoc,pure_bind]
  refine Fallible.runs_ask (.ok ()) rfl ?_
  refine Fallible.runs_ask (.ok ()) rfl ?_
  refine Fallible.runs_ask (.ok ()) rfl ?_
  exact Fallible.runs_ask (.ok ()) rfl (.done _ _)

private theorem runs_cleanEnvironment (k : Credentials) :
    Runs (Credentials.step computed) cleanEnvironment.run k (.ok ()) k := by
  exact Runs.answered ([] : List Bytes) rfl (.done _ _)

private theorem runs_rearm (supervisor : Pid) (k : Credentials) :
    Runs (Credentials.step computed) (rearm supervisor).run k (.ok ()) k := by
  unfold rearm setParentExitSignal
  simp only [bind_assoc]
  refine Fallible.runs_ask (.ok ()) rfl (Fallible.runs_ask supervisor rfl ?_)
  rw [if_neg (fun changed => changed rfl)]
  exact .done _ _

private theorem runs_setCwd (cwd : Option String) (k : Credentials) :
    Runs (Credentials.step computed) (setCwd cwd).run k (.ok ()) k := by
  cases cwd with
  | none => exact .done _ _
  | some dir => exact Fallible.runs_ask (.ok ()) rfl (.done _ _)

private theorem dropped_of_safe {k : Credentials} {cmd : CString} {argv envp : List CString} {command : String}
    (text : decode cmd.bytes = some command)
    (safe : (setting computed build target).Safe (execvpe cmd argv envp).run (fun _ _ => True) k) :
    k.Dropped computed build target := by
  unfold execvpe at safe
  rw [text] at safe
  by_cases slash : '/' ∈ command.toList
  · simp only [if_pos slash] at safe
    have attempted : Credentials.Sound computed build target k (.execve cmd argv envp) := safe.now
    exact attempted.2 rfl
  · simp only [if_neg slash] at safe
    have path : Runs (Credentials.step computed) (liftM (envVar "PATH") : M (Option String)).run k
        (.ok (some "/")) k := Runs.answered (some [47] : Option Bytes) rfl (.done _ _)
    have searched := Fallible.safe_after safe path
    have first : ((some "/").toList ++ envp.filterMap pathEntry).flatMap (candidates command) =
        ('/' :: command.toList) :: (envp.filterMap pathEntry).flatMap (candidates command) := rfl
    have bytes : encode (String.ofList ('/' :: command.toList)) = 47 :: cmd.bytes := by
      rw [← encode_decode text]
      simp [encode]
      rfl
    have named : ∃ c, CString.new (47 :: cmd.bytes) = some c := by
      refine ⟨⟨47 :: cmd.bytes,?_⟩,dif_neg _⟩
      simpa using cmd.noNul
    obtain ⟨c,named⟩ := named
    rw [first] at searched
    unfold tryCandidates cstr at searched
    simp only [bytes,named,pure_bind] at searched
    have attempted : Credentials.Sound computed build target k (.execve c argv envp) := searched.now
    exact attempted.2 rfl

private theorem transfers_of_safe (user : Account) (cmd : CString) (argv envp : List CString) (cwd : Option String)
    (safe : ∀ (computed : Bytes → Gid → List Gid) (k : Credentials), k.Privileged user →
      (setting computed build target).Safe (exec build user target cmd argv envp cwd).run (fun _ _ => True) k) :
    Transfers build target cmd := by
  by_contra stuck
  unfold Transfers Settable at stuck
  push Not at stuck
  obtain ⟨⟨scopex,unset⟩,named,text⟩ := stuck
  obtain ⟨name,named⟩ := Option.ne_none_iff_exists'.mp named
  obtain ⟨command,text⟩ := Option.ne_none_iff_exists'.mp (text scopex)
  let k : Credentials := ⟨⟨user.uid,0,0⟩,⟨0,0,0⟩,[],false⟩
  have start := safe (fun _ _ => []) k ⟨rfl,rfl⟩
  -- every call succeeds, and the supervisor stays
  have moved (after : (setting (fun _ _ => []) build target).Safe (do
      setCwd cwd
      execvpe cmd argv envp : M Empty).run (fun _ _ => True) (transferred (fun _ _ => []) user target name k)) :
      (setting (fun _ _ => []) build target).Safe (execvpe cmd argv envp).run (fun _ _ => True)
        (transferred (fun _ _ => []) user target name k) :=
    Fallible.safe_after (f := fun _ => execvpe cmd argv envp) after (runs_setCwd cwd _)
  have reached : (setting (fun _ _ => []) build target).Safe (execvpe cmd argv envp).run (fun _ _ => True)
      (transferred (fun _ _ => []) user target name k) := by
    unfold exec at start
    by_cases supervised : build.supervised = true
    · rw [if_pos supervised] at start
      have parent : Runs (Credentials.step fun _ _ => []) (some <$> ask .getppid : M (Option Pid)).run k
          (.ok (some 1)) k := Runs.answered (1 : Pid) rfl (.done _ _)
      have began := Fallible.safe_after start parent
      have cleaned := Fallible.safe_after began (runs_cleanEnvironment k)
      have changed := Fallible.safe_after cleaned (runs_setCredentials scopex named k)
      simp only [if_pos scopex] at changed
      exact moved (Fallible.safe_after changed (runs_rearm 1 _))
    · simp only [if_neg supervised,pure_bind] at start
      have cleaned := Fallible.safe_after start (runs_cleanEnvironment k)
      have changed := Fallible.safe_after cleaned (runs_setCredentials scopex named k)
      simp only [if_pos scopex] at changed
      exact moved changed
  obtain ⟨_,uid,_,gid,_⟩ := dropped_of_safe text reached
  simp only [targetIds,if_pos scopex,transferred,Ids.set,k] at uid gid
  by_cases same : target.uid = unchanged
  · rw [if_pos same,same] at uid
    exact absurd uid (by decide)
  · rw [if_pos (unset same),unset same] at gid
    exact absurd gid (by decide)

end

/-- `exec` attempts the command only with the target's credentials, and calls nothing
more once a step has failed, for exactly the targets whose ids the kernel can set:
and for those whose name or command it cannot pass on at all. -/
theorem exec_sound_iff (build : Build) (user target : Account) (cmd : CString) (argv envp : List CString)
    (cwd : Option String) :
    (∀ (computed : Bytes → Gid → List Gid) (k : Credentials), k.Privileged user →
      ∀ p' k' event, Steps (Credentials.step computed) (exec build user target cmd argv envp cwd).run k p' k' →
        p'.pending = some event → k'.Sound computed build target event) ↔ Transfers build target cmd := by
  constructor
  · intro sound
    refine transfers_of_safe user cmd argv envp cwd fun computed k privileged => safe_alone_iff.mpr ?_
    exact sound computed k privileged
  · intro transfers computed k privileged
    exact safe_alone_iff.mp (safe_exec privileged.2 cmd argv envp cwd transfers)

/-- An account with the uid that stands for no change: its command would keep root's. -/
def unsettable : Account := ⟨⟨unchanged,100,"nobody","/","/bin/sh"⟩,⟨100,"users"⟩,none⟩

theorem exec_unchanged_uid : ¬ ∀ (build : Build) (user target : Account) (cmd : CString)
    (argv envp : List CString) (cwd : Option String) (computed : Bytes → Gid → List Gid) (k : Credentials),
      k.Privileged user → ∀ p' k' event,
      Steps (Credentials.step computed) (exec build user target cmd argv envp cwd).run k p' k' →
        p'.pending = some event → k'.Sound computed build target event := by
  intro claimed
  have transfers : Transfers ⟨.scopex,true,false,false,none,by decide⟩ unsettable ⟨[47],by decide⟩ := by
    refine transfers_of_safe unsettable _ [] [] none fun computed k privileged => safe_alone_iff.mpr ?_
    exact claimed _ _ _ _ _ _ _ computed k privileged
  rcases transfers with settable | unnamed | ⟨_,untext⟩
  · exact (settable rfl).1 rfl
  · exact absurd unnamed (by decide)
  · have text : decode [47] = some "/" := rfl
    rw [text] at untext
    cases untext

end Runas
