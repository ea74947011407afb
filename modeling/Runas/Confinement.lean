import Runas.HelperChild
import Runas.Credentials
import Runas.Cleaning
import Runas.Interaction.View

/-! What the askpass helper starts with. The program may run with root's rights, and the helper
is a program that the caller chooses: none of these rights may reach it. -/
namespace Runas
open Interaction Text

/-- What a process takes along into the next program: its credentials, whether an exec may add to
them, the file behind each descriptor and the environment. -/
structure Process where
  credentials : Credentials
  noNewPrivs : Bool
  behind : Fd → Fd
  block : List CString

namespace Process

def seals : (event : Call) → Answer event → Bool
  | .setNoNewPrivs,.ok () => true
  | _,_ => false

def redirect (behind : Fd → Fd) : (event : Call) → Answer event → Fd → Fd
  | .dup2 source target,.ok () => Function.update behind target (behind source)
  | .openFd fd,.ok () => Function.update behind fd fd
  | .pipe pipe _,.ok () =>
    Function.update (Function.update behind (.pipe pipe .read) (.pipe pipe .read)) (.pipe pipe .write) (.pipe pipe .write)
  | _,_ => behind

/-- The real ids are what the process is told they are. -/
def Tells (k : Process) : (event : Call) → Answer event → Prop
  | .getuid,answer => answer = k.credentials.user.real
  | .getgid,answer => answer = k.credentials.group.real
  | _,_ => True

variable (computed : Bytes → Gid → List Gid)

structure Step (k : Process) (event : Call) (answer : Answer event) (k' : Process) : Prop where
  tells : k.Tells event answer
  credentials : k'.credentials = k.credentials.after computed event answer
  noNewPrivs : k'.noNewPrivs = (k.noNewPrivs || seals event answer)
  behind : k'.behind = redirect k.behind event answer
  block : environment k.block event answer k'.block

end Process

/-- The first of the two variables that is set and not empty. -/
def askpassOf (block : List CString) : Option Bytes :=
  ((getenv (block.map CString.bytes) "RUNAS_ASKPASS").filter (· ≠ [])).or
    ((getenv (block.map CString.bytes) "SUDO_ASKPASS").filter (· ≠ []))

/-- The program that a process of the caller's rights starts: the one the caller has named by an
absolute path, with the caller's ids only and no way to others, nothing to read, its output on the
password's pipe, and only the harmless part of the environment. -/
structure Confined (msg : String) (first k : Process) (path prompt : CString) : Prop where
  user : k.credentials.user = ⟨first.credentials.user.real,first.credentials.user.real,first.credentials.user.real⟩
  group : k.credentials.group = ⟨first.credentials.group.real,first.credentials.group.real,first.credentials.group.real⟩
  groups : k.credentials.groups = first.credentials.groups
  sealed : k.noNewPrivs = true
  input : k.behind .stdin = .devNull
  output : k.behind .stdout = .pipe .passwd .write
  cleaned : ∀ entry ∈ k.block,∀ item,splitEntry entry.bytes = some item → listed item.1 = true
  kept : k.block.filter leaves = first.block.filter leaves
  named : askpassOf first.block = some path.bytes
  absolute : path.bytes.head? = some 47
  prompts : prompt.bytes = encode msg

/-! The environment, cleaned. -/

section
variable {block : List CString}

theorem swept_clean (cleanable : ∀ item ∈ (block.map CString.bytes).filterMap splitEntry,Cleanable item) :
    (∀ entry ∈ swept ((block.map CString.bytes).filterMap splitEntry) block,∀ item,
      splitEntry entry.bytes = some item → listed item.1 = true) ∧
    (swept ((block.map CString.bytes).filterMap splitEntry) block).filter leaves = block.filter leaves := by
  have named {item : Bytes × Bytes} (member : item ∈ (block.map CString.bytes).filterMap splitEntry)
      (unlisted : listed item.1 = false) (entry value : Bytes) :
      splitEntry entry = some (item.1,value) ↔ entry = item.1 ++ 61 :: value := by
    obtain ⟨name,_,same,_,free⟩ := cleanable item member
    rw [← encode_decode same]
    exact splitEntry_name (free.resolve_left (by rw [unlisted]; decide))
  constructor
  · intro entry member item split
    obtain ⟨inside,kept⟩ := List.mem_filter.mp member
    have listedOr := List.all_eq_true.mp kept item
      (List.mem_filterMap.mpr ⟨entry.bytes,List.mem_map_of_mem inside,split⟩)
    by_contra unlisted
    rw [Bool.not_eq_true] at unlisted
    have whole := (named (List.mem_filterMap.mpr ⟨entry.bytes,List.mem_map_of_mem inside,split⟩) unlisted _ _).mp split
    rw [unlisted,whole,Bool.false_or,Bool.not_eq_true',Bool.eq_false_iff,Ne,List.isPrefixOf_iff_prefix] at listedOr
    exact listedOr ⟨item.2,by simp⟩
  · rw [swept,List.filter_filter]
    refine List.filter_congr fun entry _ => ?_
    rw [Bool.and_eq_left_iff_imp,List.all_eq_true]
    intro left item member
    by_contra removed
    simp only [Bool.or_eq_true,Bool.not_eq_true',not_or,Bool.not_eq_true,Bool.not_eq_false] at removed
    obtain ⟨unlisted,starts⟩ := removed
    obtain ⟨value,whole⟩ := List.isPrefixOf_iff_prefix.mp starts
    rw [List.append_assoc] at whole
    have split := (named member unlisted entry.bytes value).mpr whole.symm
    rw [leaves,split] at left
    exact Bool.false_ne_true (unlisted.symm.trans left)

abbrev cleaning : Setting Call Answer (List CString) := alone environment fun _ event => isExec event = false

/-- What an item meets that has been gone through, and the block after it. -/
def Gone (items : List (Bytes × Bytes)) (block : List CString) : Except Error Unit → List CString → Prop
  | .ok _,after => after = swept items block ∧ ∀ item ∈ items,Cleanable item
  | .error _,_ => True

theorem safe_cleanItem (item : Bytes × Bytes) (block : List CString) :
    cleaning.Safe (cleanItem item).run (Gone [item] block) block := by
  by_cases text : Unicode item
  · obtain ⟨name,value,named,valued⟩ := text
    rw [cleanItem_eq named valued]
    split
    · next kept => exact .done_alone ⟨by simp [swept,kept],by simpa using ⟨name,value,named,valued,.inl kept⟩⟩
    · next removed =>
      refine Fallible.safe_ask_alone rfl fun answer after taken => ?_
      cases answer with
      | error error => exact .call_alone rfl fun never => never.elim
      | ok =>
        change if name = "" ∨ '=' ∈ name.toList then _ else _ at taken
        split at taken
        · cases taken.1
        · next settable =>
          refine .done_alone ⟨?_,by simpa using ⟨name,value,named,valued,.inr (not_or.mp settable)⟩⟩
          rw [taken.2]
          simp [swept,removed,encode_decode named]
  · unfold cleanItem unicodeVar
    split
    · next named valued => exact absurd ⟨_,_,named,valued⟩ text
    · exact .call_alone rfl fun never => never.elim

theorem safe_cleanItems (items : List (Bytes × Bytes)) : ∀ block : List CString,
    cleaning.Safe (items.forM cleanItem).run (Gone items block) block := by
  induction items with
  | nil => exact fun block => .done_alone ⟨by simp [swept],by simp⟩
  | cons item items ih =>
    intro block
    change cleaning.Safe (cleanItem item >>= fun _ => items.forM cleanItem).run _ block
    refine Fallible.safe_bind_alone ((safe_cleanItem item block).mono fun result after first => ?_)
    cases result with
    | error error => trivial
    | ok =>
      obtain ⟨rfl,cleanable⟩ := first
      refine (ih _).mono fun result after rest => ?_
      cases result with
      | error error => trivial
      | ok =>
        obtain ⟨rfl,others⟩ := rest
        refine ⟨by simp [swept,List.filter_filter,Bool.and_comm],fun other member => ?_⟩
        rcases List.mem_cons.mp member with rfl | late
        · exact cleanable _ (List.mem_singleton_self _)
        · exact others other late

/-- What is left of the block when the cleaning is through. -/
def Cleaned (block : List CString) : Except Error Unit → List CString → Prop
  | .ok _,after => (∀ entry ∈ after,∀ item,splitEntry entry.bytes = some item → listed item.1 = true) ∧
      after.filter leaves = block.filter leaves
  | .error _,_ => True

theorem safe_cleanEnvironment (block : List CString) : cleaning.Safe cleanEnvironment.run (Cleaned block) block := by
  refine Fallible.safe_lift (.call_alone rfl fun answer after taken => .done_alone ?_)
  obtain ⟨rfl,rfl⟩ := taken
  refine (safe_cleanItems _ _).mono fun result after gone => ?_
  cases result with
  | error error => trivial
  | ok =>
    obtain ⟨rfl,cleanable⟩ := gone
    exact swept_clean cleanable

end

/-! The helper's process. -/

section
variable {computed : Bytes → Gid → List Gid} {msg : String} {first k k' : Process}

/-- The credentials and the descriptors stay as they are. -/
structure Process.Same (k k' : Process) : Prop where
  user : k'.credentials.user = k.credentials.user
  group : k'.credentials.group = k.credentials.group
  groups : k'.credentials.groups = k.credentials.groups
  noNewPrivs : k.noNewPrivs = true → k'.noNewPrivs = true
  behind : k'.behind = k.behind

def leavesProcess : Call → Bool
  | .setgroups _ | .initgroups _ _ | .setresgid _ _ _ | .setresuid _ _ _ | .dup2 _ _ | .openFd _ | .pipe _ _
  | .execve _ _ _ | .execvp _ _ | .execv _ _ => false
  | _ => true

def leavesBlock : Call → Bool
  | .unsetenv _ => false
  | _ => true

theorem Process.Step.same {event : Call} {answer : Answer event} (other : leavesProcess event = true)
    (taken : Process.Step computed k event answer k') : k.Same k' := by
  obtain ⟨_,credentials,noNewPrivs,behind,_⟩ := taken
  refine ⟨?_,?_,?_,fun isSealed => by rw [noNewPrivs,isSealed]; rfl,?_⟩
  · rw [credentials]
    unfold Credentials.after
    split <;> first | rfl | cases other
  · rw [credentials]
    unfold Credentials.after
    split <;> first | rfl | cases other
  · rw [credentials]
    unfold Credentials.after
    split <;> first | rfl | cases other
  · rw [behind]
    unfold Process.redirect
    split <;> first | rfl | cases other

theorem Process.Step.sameBlock {event : Call} {answer : Answer event} (other : leavesBlock event = true)
    (taken : Process.Step computed k event answer k') : k'.block = k.block := by
  have block := taken.block
  cases event <;> first | exact block | exact block.2 | cases other

abbrev confining (computed : Bytes → Gid → List Gid) (msg : String) (first : Process) : Setting Call Answer Process :=
  alone (Process.Step computed) fun k event => isExec event = true → ∃ path prompt,event = .execv path [path,prompt] ∧
    Confined msg first k path prompt

/-- The helper's process before it has done anything. -/
structure Begun (first k : Process) : Prop where
  user : k.credentials.user = first.credentials.user
  group : k.credentials.group = first.credentials.group
  groups : k.credentials.groups = first.credentials.groups
  pipe : k.behind (.pipe .passwd .write) = .pipe .passwd .write

/-- It has given up its rights, and has its input and output. -/
structure Lowered (first k : Process) : Prop where
  user : k.credentials.user = ⟨first.credentials.user.real,first.credentials.user.real,first.credentials.user.real⟩
  group : k.credentials.group = ⟨first.credentials.group.real,first.credentials.group.real,first.credentials.group.real⟩
  groups : k.credentials.groups = first.credentials.groups
  input : k.behind .stdin = .devNull
  output : k.behind .stdout = .pipe .passwd .write

theorem Begun.same (begun : Begun first k) (same : k.Same k') : Begun first k' :=
  ⟨same.user.trans begun.user,same.group.trans begun.group,same.groups.trans begun.groups,by rw [same.behind]; exact begun.pipe⟩

theorem Lowered.same (lowered : Lowered first k) (same : k.Same k') : Lowered first k' :=
  ⟨same.user.trans lowered.user,same.group.trans lowered.group,same.groups.trans lowered.groups,
    by rw [same.behind]; exact lowered.input,by rw [same.behind]; exact lowered.output⟩

theorem plain_confining {event : Call} {P : Prop} (plain : isExec event = false) : isExec event = true → P :=
  fun replaces => Bool.false_ne_true.elim (plain.symm.trans replaces)

theorem safe_orFail {β : Type} {answer : Except Errno Unit} {f : Unit → M β} {Q : Except Error β → Process → Prop}
    (goes : answer = .ok () → (confining computed msg first).Safe (f ()).run Q k) (fails : ∀ error,Q (.error error) k) :
    (confining computed msg first).Safe (orFail answer >>= f).run Q k := by
  cases answer with
  | ok => exact goes rfl
  | error error => exact .done_alone (fails _)

/-- `P` when it goes well. -/
def Unless (P : Process → Prop) {α : Type} : Except Error α → Process → Prop
  | .ok _ => P
  | .error _ => fun _ => True

theorem safe_helperLower (settable : first.credentials.user.real ≠ unchanged ∧ first.credentials.group.real ≠ unchanged)
    (begun : Begun first k) : (confining computed msg first).Safe helperLower.run (Unless (Lowered first)) k := by
  refine Fallible.safe_ask_alone (plain_confining rfl) fun _ k₁ taken₁ => safe_orFail (fun ok => ?_) fun _ => trivial
  have begun := begun.same (taken₁.same rfl)
  subst ok
  refine Fallible.safe_ask_alone (plain_confining rfl) fun _ k₂ taken₂ => safe_orFail (fun ok => ?_) fun _ => trivial
  subst ok
  refine Fallible.safe_ask_alone (plain_confining rfl) fun _ k₃ taken₃ => safe_orFail (fun ok => ?_) fun _ => trivial
  subst ok
  refine Fallible.safe_ask_alone (plain_confining rfl) fun _ k₄ taken₄ => safe_orFail (fun ok => ?_) fun _ => trivial
  subst ok
  refine Fallible.safe_ask_alone (plain_confining rfl) fun _ k₅ taken₅ => safe_orFail (fun ok => ?_) fun _ => trivial
  subst ok
  refine Fallible.safe_ask_alone (plain_confining rfl) fun _ k₆ taken₆ => safe_orFail (fun ok => ?_) fun _ => trivial
  subst ok
  have credentials : k₆.credentials = k₁.credentials := by
    rw [taken₆.credentials,taken₅.credentials,taken₄.credentials,taken₃.credentials,taken₂.credentials]
    rfl
  have behind : k₆.behind = Function.update (Function.update (Function.update k₁.behind .stdout (k₁.behind (.pipe .passwd .write)))
      .devNull .devNull) .stdin .devNull := by
    rw [taken₆.behind,taken₅.behind,taken₄.behind,taken₃.behind,taken₂.behind]
    simp [Process.redirect]
  refine Fallible.safe_ask_alone (plain_confining rfl) fun uid k₇ taken₇ => ?_
  refine Fallible.safe_ask_alone (plain_confining rfl) fun gid k₈ taken₈ => ?_
  have same₇ := taken₇.same rfl
  have same₈ := taken₈.same rfl
  obtain rfl : uid = first.credentials.user.real := taken₇.tells.trans (by rw [credentials,begun.user])
  obtain rfl : gid = first.credentials.group.real := taken₈.tells.trans (by rw [same₇.group,credentials,begun.group])
  refine Fallible.safe_ask_alone (plain_confining rfl) fun _ k₉ taken₉ => safe_orFail (fun ok => ?_) fun _ => trivial
  subst ok
  refine Fallible.safe_ask_alone (plain_confining rfl) fun answer k₁₀ taken₁₀ => ?_
  cases answer with
  | error error => exact .done_alone trivial
  | ok =>
    have table : k₁₀.behind = k₆.behind :=
      taken₁₀.behind.trans (taken₉.behind.trans (same₈.behind.trans same₇.behind))
    refine .done_alone ⟨?_,?_,?_,?_,?_⟩
    · rw [taken₁₀.credentials]
      simp [Credentials.after,Ids.set,settable.1]
    · rw [taken₁₀.credentials,taken₉.credentials]
      simp [Credentials.after,Ids.set,settable.2]
    · rw [taken₁₀.credentials,taken₉.credentials]
      exact same₈.groups.trans (same₇.groups.trans ((congrArg Credentials.groups credentials).trans begun.groups))
    · rw [table,behind]
      simp
    · rw [table,behind]
      simp [begun.pipe]

/-- Its rights are given up for good. -/
def Barricaded (first k : Process) : Prop := Lowered first k ∧ k.noNewPrivs = true

theorem Barricaded.same (barricaded : Barricaded first k) (same : k.Same k') : Barricaded first k' :=
  ⟨barricaded.1.same same,same.noNewPrivs barricaded.2⟩

/-- What a part keeps that neither touches the credentials nor opens anything. -/
theorem safe_leaving {α : Type} {p : Calls α} {P : Process → Prop} (keeps : ∀ {k k'},P k → k.Same k' → P k')
    (used : p.Uses fun event => leavesProcess event = true) (holds : P k) :
    (confining computed msg first).Safe p (fun _ => P) k := by
  refine Setting.Safe.uses used (stable_alone _) holds (fun k event _ other => plain_confining ?_) ?_
  · cases event <;> first | rfl | cases other
  · exact fun _ _ _ _ holds other taken => keeps holds (taken.same other)

theorem safe_sameBlock {α : Type} {p : Calls α} (used : p.Uses fun event => leavesBlock event = true ∧ isExec event = false) :
    (confining computed msg first).Safe p (fun _ k' => k'.block = k.block) k := by
  refine Setting.Safe.uses (P := fun k' : Process => k'.block = k.block) used (stable_alone _) rfl
    (fun _ _ _ known => plain_confining known.2) fun _ _ _ _ same known taken => (taken.sameBlock known.1).trans same

theorem safe_helperPath (barricaded : Barricaded first k) (same : k.block = first.block) :
    (confining computed msg first).Safe helperPath.run (fun
      | .ok path => fun k => (Barricaded first k ∧ k.block = first.block) ∧ askpassOf first.block = some path
      | .error _ => fun _ => True) k := by
  unfold askpassOf
  refine Fallible.safe_ask_alone (plain_confining rfl) fun found k₁ taken₁ => ?_
  have barricaded := barricaded.same (taken₁.same rfl)
  obtain rfl : found = getenv (first.block.map CString.bytes) "RUNAS_ASKPASS" := taken₁.block.1.trans (by rw [same])
  have same : k₁.block = first.block := (taken₁.sameBlock rfl).trans same
  cases named : (getenv (first.block.map CString.bytes) "RUNAS_ASKPASS").filter (· ≠ []) with
  | some path =>
    dsimp only
    exact .done_alone ⟨⟨barricaded,same⟩,rfl⟩
  | none =>
    dsimp only
    refine Fallible.safe_ask_alone (plain_confining rfl) fun found k₂ taken₂ => ?_
    obtain rfl : found = getenv (first.block.map CString.bytes) "SUDO_ASKPASS" := taken₂.block.1.trans (by rw [same])
    cases other : (getenv (first.block.map CString.bytes) "SUDO_ASKPASS").filter (· ≠ []) with
    | some path =>
      dsimp only
      exact .done_alone ⟨⟨barricaded.same (taken₂.same rfl),(taken₂.sameBlock rfl).trans same⟩,rfl⟩
    | none =>
      dsimp only
      exact .done_alone trivial

theorem safe_swept (barricaded : Barricaded first k) (same : k.block = first.block) :
    (confining computed msg first).Safe cleanEnvironment.run (fun result k =>
      Barricaded first k ∧ Cleaned first.block result k.block) k := by
  have cleans : (confining computed msg first).Safe cleanEnvironment.run (fun result k' => Cleaned k.block result k'.block) k := by
    refine Setting.Safe.seen Process.block (safe_cleanEnvironment k.block) (fun _ _ _ _ taken => taken.block) ?_
      fun _ _ plain => plain_confining plain
    rintro k _ rfl
    rfl
  rw [same] at cleans
  have holds : (confining computed msg first).Safe cleanEnvironment.run (fun _ => Barricaded first) k :=
    safe_leaving Barricaded.same (uses_cleanEnvironment rfl (fun _ => rfl) rfl) barricaded
  exact holds.and cleans

theorem safe_helperExec (lowered : Lowered first k) (same : k.block = first.block) :
    (confining computed msg first).Safe (helperExec msg).run (fun _ _ => True) k := by
  refine Fallible.safe_ask_alone (plain_confining rfl) fun answer k₁ taken₁ => safe_orFail (fun ok => ?_) fun _ => trivial
  subst ok
  have barricaded : Barricaded first k₁ :=
    ⟨lowered.same (taken₁.same rfl),taken₁.noNewPrivs.trans (Bool.or_true _)⟩
  refine Fallible.safe_bind_alone ((safe_helperPath barricaded ((taken₁.sameBlock rfl).trans same)).mono fun result k₂ found => ?_)
  cases result with
  | error error => trivial
  | ok path =>
    obtain ⟨⟨barricaded,same⟩,named⟩ := found
    refine Fallible.safe_bind_alone ((safe_swept barricaded same).mono fun result k₃ swept => ?_)
    cases result with
    | error error => trivial
    | ok =>
      obtain ⟨⟨lowered,isSealed⟩,cleaned,kept⟩ := swept
      dsimp only
      by_cases relative : path.head? ≠ some 47
      · rw [if_pos relative]
        exact .done_alone trivial
      rw [if_neg relative]
      cases word : CString.new path with
      | none => exact .done_alone trivial
      | some helper =>
        unfold cstr
        cases text : CString.new (encode msg) with
        | none => exact .done_alone trivial
        | some prompt =>
          refine .call_alone (fun _ => ⟨helper,prompt,rfl,?_⟩) fun _ _ _ => .done_alone trivial
          have bytes := CString.new_eq_some word
          exact ⟨lowered.user,lowered.group,lowered.groups,isSealed,lowered.input,lowered.output,cleaned,kept,
            by rw [named,bytes],by rw [bytes]; exact not_not.mp relative,CString.new_eq_some text⟩

def unmoved (event : Call) : Bool := leavesProcess event && leavesBlock event

/-- What a part keeps that has no hand in what the next program takes over. -/
theorem safe_unmoved {α : Type} {p : Calls α} {P : Process → Prop} {Q : α → Prop}
    (keeps : ∀ {k k'},P k → k.Same k' → k'.block = k.block → P k') (only : p.Only (fun event => unmoved event = true) Q)
    (holds : P k) : (confining computed msg first).Safe p (fun value k => Q value ∧ P k) k := by
  refine Setting.Safe.only only (stable_alone _) holds (fun k event _ known => plain_confining ?_) ?_
  · cases event <;> first | rfl | cases known
  · intro k event answer k' holds known taken
    obtain ⟨other,block⟩ := Bool.and_eq_true_iff.mp known
    exact keeps holds (taken.same other) (taken.sameBlock block)

theorem safe_helperSetup (settable : first.credentials.user.real ≠ unchanged ∧ first.credentials.group.real ≠ unchanged)
    (begun : Begun first k) : (confining computed msg first).Safe helperSetup.run (Unless (Lowered first)) k := by
  rw [helperSetup_lowers]
  refine Fallible.safe_bind_alone ((safe_helperLower settable begun).mono fun result k lowered => ?_)
  cases result with
  | error error => trivial
  | ok =>
    refine (safe_leaving Lowered.same (uses_setParentExitSignal rfl) lowered).mono fun result _ lowered => ?_
    cases result with
    | error error => trivial
    | ok => exact lowered

theorem safe_helperBody (settable : first.credentials.user.real ≠ unchanged ∧ first.credentials.group.real ≠ unchanged)
    (begun : Begun first k) (same : k.block = first.block) :
    (confining computed msg first).Safe (helperBody msg .fresh).run (fun _ _ => True) k := by
  have lets : ForkSync.fresh.drop.Uses fun event => unmoved event = true := by
    have drops (fd : Option Fd) : (Descriptor.drop fd).Uses fun event => unmoved event = true := by
      cases fd with
      | none => trivial
      | some fd => exact uses_discard rfl
    exact Program.Uses.bind (drops _) fun _ => Program.Uses.bind (drops _) fun _ => Program.Uses.bind (drops _) fun _ => drops _
  have lowers : (confining computed msg first).Safe (Fallible.releasingOnError ForkSync.fresh.drop helperSetup).run
      (Unless (Lowered first)) k := by
    refine Fallible.safe_releasingOnError (fun _ => stable_alone _) ((safe_helperSetup settable begun).mono fun result k lowered => ?_)
    cases result with
    | ok => exact lowered
    | error error =>
      exact (safe_unmoved (P := fun _ => True) (fun _ _ _ => trivial) lets.only trivial).mono fun _ _ _ => trivial
  have stays : (confining computed msg first).Safe (Fallible.releasingOnError ForkSync.fresh.drop helperSetup).run
      (fun _ k' => k'.block = k.block) k := by
    refine safe_sameBlock (Fallible.Uses.releasingOnError (lets.mono fun event known => ?_) (uses_helperSetup fun event known => ?_))
    · cases event <;> first | exact ⟨rfl,rfl⟩ | cases known
    · cases event <;> first | exact ⟨rfl,rfl⟩ | cases known
  have keeps {k k' : Process} (held : Lowered first k ∧ k.block = first.block) (unchanged : k.Same k')
      (block : k'.block = k.block) : Lowered first k' ∧ k'.block = first.block :=
    ⟨held.1.same unchanged,block.trans held.2⟩
  refine Fallible.safe_bind_alone ((lowers.and stays).mono fun result k lowered => ?_)
  cases result with
  | error error => trivial
  | ok =>
    have held : Lowered first k ∧ k.block = first.block := ⟨lowered.1,lowered.2.trans same⟩
    have drops {fd : Fd} : (Descriptor.drop (some fd)).Only (fun event => unmoved event = true) fun _ => True := only_drop rfl
    have taken : ForkSync.fresh.intoChild.Only (fun event => unmoved event = true) fun endpoint =>
        endpoint = ⟨ForkSync.fresh.childWrite,ForkSync.fresh.childRead,false⟩ :=
      Setting.Safe.bind (drops.mono fun _ _ _ => Setting.Safe.bind (drops.mono fun _ _ _ => .done_alone rfl))
    have waits : Program.Only (fun event => unmoved event = true) (ForkEndpoint.mk ForkSync.fresh.childWrite
        ForkSync.fresh.childRead false).readyAndWait.run fun _ => True := only_readyAndWait rfl rfl rfl rfl
    refine Fallible.safe_lift ((safe_unmoved keeps taken held).mono fun endpoint k held => ?_)
    obtain ⟨rfl,held⟩ := held
    refine Fallible.safe_bind_alone ((safe_unmoved keeps waits held).mono fun result k held => ?_)
    cases result with
    | error error => trivial
    | ok decision =>
      dsimp only
      split
      · exact .done_alone trivial
      · exact safe_helperExec held.2.1 held.2.2

theorem safe_helperChild (settable : first.credentials.user.real ≠ unchanged ∧ first.credentials.group.real ≠ unchanged)
    (begun : Begun first k) (same : k.block = first.block) :
    (confining computed msg first).Safe (helperChild msg .fresh).run (fun _ _ => True) k := by
  refine Fallible.safe_lift ((safe_helperBody settable begun same).mono fun result k _ => ?_)
  cases result with
  | ok never => exact never.elim
  | error error =>
    exact .call_alone (plain_confining rfl) fun _ _ _ => .call_alone (plain_confining rfl) fun never => nomatch never

/-- Another pipe leaves the one for the password. -/
theorem safe_syncNew (begun : Begun first k) (same : k.block = first.block) :
    (confining computed msg first).Safe ForkSync.new.run (fun result k =>
      MadeFresh result ∧ Begun first k ∧ k.block = first.block) k := by
  have made : ForkSync.new.run.Only (fun event => unmoved event = true ∨ ∃ side,event = .pipe (.status side) true) MadeFresh :=
    only_syncNew (.inr ⟨_,rfl⟩) (.inr ⟨_,rfl⟩) (.inl rfl) (.inl rfl)
  refine Setting.Safe.only (P := fun k => Begun first k ∧ k.block = first.block) made (stable_alone _) ⟨begun,same⟩ ?_ ?_
  · rintro k event _ (known | ⟨side,rfl⟩)
    · exact plain_confining (by cases event <;> first | rfl | cases known)
    · exact plain_confining rfl
  · rintro k event answer k' ⟨begun,same⟩ (known | ⟨side,rfl⟩) taken
    · obtain ⟨other,block⟩ := Bool.and_eq_true_iff.mp known
      exact ⟨begun.same (taken.same other),(taken.sameBlock block).trans same⟩
    · have credentials : k'.credentials = k.credentials := taken.credentials
      refine ⟨⟨?_,?_,?_,?_⟩,(taken.sameBlock rfl).trans same⟩
      · rw [credentials,begun.user]
      · rw [credentials,begun.group]
      · rw [credentials,begun.groups]
      · rw [taken.behind]
        cases answer <;> simp [Process.redirect,begun.pipe]

theorem safe_launchHelper (settable : first.credentials.user.real ≠ unchanged ∧ first.credentials.group.real ≠ unchanged) :
    (confining computed msg first).Safe (launchHelper msg).run (fun _ _ => True) first := by
  refine Fallible.safe_ask_alone (plain_confining rfl) fun _ k taken => safe_orFail (fun ok => ?_) fun _ => trivial
  subst ok
  have credentials : k.credentials = first.credentials := taken.credentials
  have begun : Begun first k := by
    refine ⟨?_,?_,?_,?_⟩
    · rw [credentials]
    · rw [credentials]
    · rw [credentials]
    · rw [taken.behind]
      simp [Process.redirect]
  refine Fallible.safe_bind_alone ((safe_syncNew begun (taken.sameBlock rfl)).mono fun result k made => ?_)
  cases result with
  | error error => trivial
  | ok sync =>
    obtain ⟨rfl,begun,same⟩ := made
    refine Fallible.safe_ask_alone (plain_confining rfl) fun answer k' taken => ?_
    have begun := begun.same (taken.same rfl)
    have same : k'.block = first.block := (taken.sameBlock rfl).trans same
    have free {p : Calls (Except Error String)} (used : Supervising p) :
        (confining computed msg first).Safe p (fun _ _ => True) k' :=
      safe_leaving (P := fun _ => True) (fun _ _ => trivial) (used.mono fun event known => by
        cases event <;> first | rfl | cases known) trivial
    rcases answer with error | (_ | child)
    · have drops : Supervising ForkSync.fresh.drop :=
        Program.Uses.bind (supervising_descriptor _) fun _ => Program.Uses.bind (supervising_descriptor _) fun _ =>
          Program.Uses.bind (supervising_descriptor _) fun _ => supervising_descriptor _
      exact free (Fallible.Uses.bind (.lift drops) fun _ => trivial)
    · exact safe_helperChild settable begun same
    · exact free (supervising_helperParent child _)

/-- On the terminal nothing is executed. -/
theorem plain_launchPrompt (msg : String) (flags : RunFlags) :
    Fallible.Uses (fun event => isExec event = false) (launchPrompt msg flags) := by
  have hides (prompt : Prompt) : prompt.hideInput.Uses fun event => isExec event = false := by
    refine Program.Uses.bind ⟨rfl,fun _ => trivial⟩ fun found => ?_
    cases found with
    | error error => trivial
    | ok original =>
      refine Program.Uses.bind ⟨rfl,fun _ => trivial⟩ fun set => ?_
      cases set <;> trivial
  have places (useStdin : Bool) : Fallible.Uses (fun event => isExec event = false) (promptPlace useStdin) := by
    cases useStdin with
    | true => trivial
    | false =>
      refine .bind (.ask rfl) fun answer => ?_
      cases answer <;> trivial
  rw [launchPrompt_parts]
  refine .bind ((uses_receiverInstall _).mono fun event about => ?_) fun signals => ?_
  · cases event <;> first | rfl | exact absurd about (by simp [About,Call.topic])
  refine .releasing (Program.Uses.bind (uses_discard rfl) fun _ => uses_discard rfl) (.bind (places _) ?_)
  rintro ⟨input,output,owned⟩
  have body (hidden : Except Error Unit) (prompt : Prompt) (useStdin hide : Bool) : Fallible.Uses
      (fun event => isExec event = false) (Fallible.releasing prompt.drop (promptBody msg signals useStdin hide hidden prompt)) := by
    refine .releasing (uses_promptDrop rfl (fun _ => rfl) fun _ => rfl) ?_
    refine uses_promptBody ?_ ?_ ?_ ?_ msg useStdin hide hidden
    · exact fun _ => rfl
    · exact fun _ _ => rfl
    · exact fun _ => rfl
    · rfl
  unfold promptOn
  dsimp only
  split
  · exact .bind (.lift (hides _)) fun out => body _ _ _ _
  · exact body _ _ _ _

theorem safe_askPassword (settable : first.credentials.user.real ≠ unchanged ∧ first.credentials.group.real ≠ unchanged)
    (build : Build) (flags : RunFlags) :
    (confining computed msg first).Safe (askPassword build msg flags).run (fun _ _ => True) first := by
  unfold askPassword
  split
  · exact safe_launchHelper settable
  · have rounds : Fallible.Uses (fun event => isExec event = false) (Fallible.iterate (fun () => askPasswordRound msg flags) ()) := by
      refine .iterate fun _ => .bind (.lift (plain_launchPrompt msg flags)) fun out => ?_
      rcases out with error | password
      · cases error with
        | interrupted signal => exact .bind (.lift (uses_discard rfl)) fun _ => trivial
        | _ => trivial
      · trivial
    exact Setting.Safe.uses (P := fun _ => True) rounds (stable_alone _) trivial (fun _ _ _ plain => plain_confining plain)
      fun _ _ _ _ _ _ _ => trivial

end

/-- Wherever a run that reads a password comes to replace the process, it is by the helper, and
the helper is confined. -/
theorem helper_confined (computed : Bytes → Gid → List Gid) (build : Build) (msg : String) (flags : RunFlags) (first : Process)
    (settable : first.credentials.user.real ≠ unchanged ∧ first.credentials.group.real ≠ unchanged)
    {q : Calls (Except Error String)} {k : Process}
    (reached : Interaction.Steps (Process.Step computed) (askPassword build msg flags).run first q k) {event : Call}
    (pending : q.pending = some event) (replaces : isExec event = true) :
    ∃ path prompt,event = .execv path [path,prompt] ∧ Confined msg first k path prompt :=
  ((safe_askPassword settable build flags).steps reached).pending pending replaces

/-! A run. -/

private def blockAfter (block : List CString) : (event : Call) → Answer event → Option (List CString)
  | .environ,answer => if answer = block.map CString.bytes then some block else none
  | .getenv name,answer => if answer = getenv (block.map CString.bytes) name then some block else none
  | .unsetenv name,answer =>
    if name = "" ∨ '=' ∈ name.toList then if answer = .error .einval then some block else none
    else if answer = .ok () then some (block.filter fun entry => !(encode name ++ [61]).isPrefixOf entry.bytes) else none
  | _,_ => some block

private theorem blockAfter_sound {block after : List CString} {event : Call} {answer : Answer event}
    (computed : blockAfter block event answer = some after) : environment block event answer after := by
  cases event with
  | environ =>
    obtain ⟨same,ends⟩ := Option.ite_none_right_eq_some.mp computed
    exact ⟨same,(Option.some.inj ends).symm⟩
  | getenv name =>
    obtain ⟨same,ends⟩ := Option.ite_none_right_eq_some.mp computed
    exact ⟨same,(Option.some.inj ends).symm⟩
  | unsetenv name =>
    change (if name = "" ∨ '=' ∈ name.toList then _ else _) = some after at computed
    change if name = "" ∨ '=' ∈ name.toList then _ else _
    split at computed
    · next unusable =>
      obtain ⟨same,ends⟩ := Option.ite_none_right_eq_some.mp computed
      rw [if_pos unusable]
      exact ⟨same,(Option.some.inj ends).symm⟩
    · next usable =>
      obtain ⟨same,ends⟩ := Option.ite_none_right_eq_some.mp computed
      rw [if_neg usable]
      exact ⟨same,(Option.some.inj ends).symm⟩
  | _ => exact (Option.some.inj computed).symm

private def told (k : Process) : (event : Call) → Answer event → Bool
  | .getuid,answer => decide (answer = k.credentials.user.real)
  | .getgid,answer => decide (answer = k.credentials.group.real)
  | _,_ => true

private def processAfter (k : Process) (event : Call) (answer : Answer event) : Option Process :=
  if told k event answer = true then (blockAfter k.block event answer).map fun block =>
    ⟨k.credentials.after (fun _ _ => []) event answer,k.noNewPrivs || Process.seals event answer,
      Process.redirect k.behind event answer,block⟩
  else none

private theorem processAfter_sound {k k' : Process} {event : Call} {answer : Answer event}
    (computed : processAfter k event answer = some k') : Process.Step (fun _ _ => []) k event answer k' := by
  obtain ⟨tells,computed⟩ := Option.ite_none_right_eq_some.mp computed
  obtain ⟨block,after,rfl⟩ := Option.map_eq_some_iff.mp computed
  refine ⟨?_,rfl,rfl,rfl,blockAfter_sound after⟩
  cases event with
  | getuid => exact of_decide_eq_true (p := answer = k.credentials.user.real) tells
  | getgid => exact of_decide_eq_true (p := answer = k.credentials.group.real) tells
  | _ => trivial

private def setuidProcess : Process where
  credentials := ⟨⟨1000,0,0⟩,⟨1000,0,0⟩,[1000],false⟩
  noNewPrivs := false
  behind fd := fd
  block := [⟨encode "RUNAS_ASKPASS=/bin/ask",by decide⟩,⟨encode "LANG=C",by decide⟩]

private def helperRun : List (Exchange Call Answer) :=
  [⟨.pipe .passwd false,.ok ()⟩,⟨.pipe (.status .child) true,.ok ()⟩,⟨.pipe (.status .parent) true,.ok ()⟩,
    ⟨.fork,.ok .child⟩,⟨.close (.pipe .passwd .read),.ok ()⟩,⟨.dup2 (.pipe .passwd .write) .stdout,.ok ()⟩,
    ⟨.close (.pipe .passwd .write),.ok ()⟩,⟨.openFd .devNull,.ok ()⟩,⟨.dup2 .devNull .stdin,.ok ()⟩,
    ⟨.close .devNull,.ok ()⟩,⟨.getuid,(1000 : Uid)⟩,⟨.getgid,(1000 : Gid)⟩,⟨.setresgid 1000 1000 1000,.ok ()⟩,
    ⟨.setresuid 1000 1000 1000,.ok ()⟩,⟨.setParentDeathSignal .sigkill,.ok ()⟩,
    ⟨.close (.pipe (.status .child) .read),.ok ()⟩,⟨.close (.pipe (.status .parent) .write),.ok ()⟩,
    ⟨.write (.pipe (.status .child) .write) [statusReady],.ok 1⟩,⟨.close (.pipe (.status .child) .write),.ok ()⟩,
    ⟨.read (.pipe (.status .parent) .read) 1,.ok [statusReady]⟩,⟨.close (.pipe (.status .parent) .read),.ok ()⟩,
    ⟨.setNoNewPrivs,.ok ()⟩,⟨.getenv "RUNAS_ASKPASS",some (encode "/bin/ask")⟩,
    ⟨.environ,[encode "RUNAS_ASKPASS=/bin/ask",encode "LANG=C"]⟩,⟨.unsetenv "RUNAS_ASKPASS",.ok ()⟩]

/-- Root's program starts the helper of user 1000. -/
theorem helper_confined_ask : ∃ k path prompt,Confined "Password:" setuidProcess k path prompt ∧
    path.bytes = encode "/bin/ask" := by
  have taken : ∃ (q : Calls (Except Error String)) (k : Process),takes processAfter 10
      (askPassword ⟨.scopex,false,true,false,none,Build.kept⟩ "Password:" .authAskpass).run setuidProcess helperRun = some (q,k) ∧
      ∃ event,q.pending = some event ∧ isExec event = true := ⟨_,_,rfl,_,rfl,rfl⟩
  obtain ⟨q,k,taken,event,pending,replaces⟩ := taken
  obtain ⟨path,prompt,_,confined⟩ := helper_confined (fun _ _ => []) _ "Password:" .authAskpass setuidProcess
    ⟨by decide,by decide⟩ (takes_sound processAfter_sound taken) pending replaces
  refine ⟨k,path,prompt,confined,?_⟩
  have named := confined.named
  have known : askpassOf setuidProcess.block = some (encode "/bin/ask") := by decide
  exact Option.some.inj (named.symm.trans known)

end Runas
