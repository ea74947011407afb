import Runas.Command
import Runas.Requests
import Runas.OverrideFormat

/-! Where the value of each variable of the command's environment comes from: the first
of six sources that has one. -/
namespace Runas
open Interaction Text

def preserveNames (list : String) : List String :=
  ((split (· == ',') list.toList).map fun raw => String.ofList (trim raw)).filter (· ≠ "")

def assignmentValue (text name : String) : Option String := do
  let (key,value) ← splitOnce (· == '=') text.toList
  if String.ofList key = name then some (String.ofList value) else none

namespace Invocation
variable (run : Invocation) (block : List Bytes)

def preserved (name : String) : Option String := do
  let list ← run.given .preserve
  if name ∈ preserveNames list then callerValue block name else none

def assignedOn (name : String) : Option String := do assignmentValue (← run.given .env) name

end Invocation

def defaultValue (target : Account) (name : String) : Option String :=
  if name = "HOME" then some target.home
  else if name = "USER" || name = "LOGNAME" then some target.name
  else if name = "SHELL" then some target.shell
  else none

def keptNames : List String :=
  ["PATH","LANG","PWD","TERM","COLORTERM","DISPLAY","WAYLAND_DISPLAY","XAUTHORITY","DBUS_SESSION_BUS_ADDRESS",
    "SSH_AUTH_SOCK"]

def keptValue (block : List Bytes) (name : String) : Option String :=
  if name ∈ keptNames ∨ "LC_".toList <+: name.toList then callerValue block name else none

theorem isKept_iff {name : String} : isKept name = true ↔ name ∈ keptNames ∨ "LC_".toList <+: name.toList := by
  simp [isKept,envVars,keptNames,List.isPrefixOf_iff_prefix]

/-- What a file gives a name: the value of the first line that yields one, or nothing. -/
inductive Supplies (target : Account) (placeholders : List (String × String)) (caller : String → Option String)
    (file : List Bytes) (name : String) : Option String → Prop
  | first {before after : List Bytes} {raw : Bytes} {value : String} (split : file = before ++ raw :: after)
    (yields : RawYields target placeholders caller raw name value)
    (earlier : ∀ raw ∈ before,∀ value,¬ RawYields target placeholders caller raw name value) :
    Supplies target placeholders caller file name (some value)
  | silent (never : ∀ raw ∈ file,∀ value,¬ RawYields target placeholders caller raw name value) :
    Supplies target placeholders caller file name none

theorem supplies_assigned (target : Account) (placeholders : List (String × String)) (block file : List Bytes)
    (name : String) : Supplies target placeholders (callerValue block) file name
      (assigned target placeholders block file name) := by
  have unassigned {raw : Bytes} (none : rawAssigns target placeholders (callerValue block) name raw = none)
      (value : String) : ¬ RawYields target placeholders (callerValue block) raw name value := by
    rw [← rawAssigns_iff,none]
    exact nofun
  cases found : assigned target placeholders block file name with
  | none => exact .silent fun raw member => unassigned (List.findSome?_eq_none_iff.mp found raw member)
  | some value =>
    obtain ⟨before,raw,after,split,yields,earlier⟩ := List.findSome?_eq_some_iff.mp found
    exact .first split (rawAssigns_iff.mp yields) fun raw member => unassigned (earlier raw member)

namespace Invocation
variable {run : Invocation} {block : List Bytes} {request : Request}

private theorem preserveName_lookup {env after : EnvMap} {raw : List Char} {t : List (Exchange Call Answer)}
    (trace : Trace (preserveName env raw) t after) (asked : ∀ x ∈ t, Caller block x) (name : String) :
    after.lookup name = (if name = String.ofList (trim raw) ∧ name ≠ "" then callerValue block name else none).or
      (env.lookup name) := by
  unfold preserveName at trace
  by_cases empty : String.ofList (trim raw) = ""
  · rw [if_pos empty] at trace
    obtain ⟨rfl,_⟩ := (trace_done _ _ _).mp trace
    have other : ¬(name = String.ofList (trim raw) ∧ name ≠ "") := fun both => both.2 (both.1.trans empty)
    rw [if_neg other,Option.none_or]
  · rw [if_neg empty] at trace
    obtain ⟨first,found,second,rfl,asks,ended⟩ := (trace_bind _ _ _ _).mp trace
    have known := envVar_caller asks fun x member => asked x (List.mem_append_left _ member)
    subst known
    obtain ⟨rfl,_⟩ := (trace_done _ _ _).mp ended
    by_cases same : name = String.ofList (trim raw)
    · subst same
      rw [if_pos ⟨rfl,empty⟩]
      cases callerValue block (String.ofList (trim raw)) with
      | none => rfl
      | some value => exact AList.lookup_insert env
    · rw [if_neg fun both => same both.1,Option.none_or]
      cases callerValue block (String.ofList (trim raw)) with
      | none => rfl
      | some value => exact AList.lookup_insert_ne same

private theorem preserveNames_lookup (parts : List (List Char)) {env after : EnvMap} {t : List (Exchange Call Answer)}
    (trace : Trace (parts.foldlM preserveName env : Calls EnvMap) t after) (asked : ∀ x ∈ t, Caller block x)
    (name : String) : after.lookup name =
      (if name ∈ (parts.map fun raw => String.ofList (trim raw)).filter (· ≠ "") then callerValue block name
        else none).or (env.lookup name) := by
  induction parts generalizing env t with
  | nil =>
    obtain ⟨rfl,_⟩ := (trace_done _ _ _).mp trace
    rfl
  | cons raw parts ih =>
    obtain ⟨first,middle,second,rfl,one,rest⟩ := (trace_bind _ _ _ _).mp trace
    have before := preserveName_lookup one (fun x member => asked x (List.mem_append_left _ member)) name
    have later := ih rest fun x member => asked x (List.mem_append_right _ member)
    have named : name ∈ ((raw :: parts).map fun raw => String.ofList (trim raw)).filter (· ≠ "") ↔
        (name = String.ofList (trim raw) ∧ name ≠ "") ∨
          name ∈ (parts.map fun raw => String.ofList (trim raw)).filter (· ≠ "") := by
      simp only [List.map_cons,List.mem_filter,List.mem_cons,decide_eq_true_eq,or_and_right]
    rw [later,before,← Option.or_assoc]
    congr 1
    by_cases last : name ∈ (parts.map fun raw => String.ofList (trim raw)).filter (· ≠ "")
    · rw [if_pos last,if_pos (named.mpr (.inr last))]
      cases callerValue block name <;> simp
    · rw [if_neg last,Option.none_or]
      exact if_congr ⟨fun here => named.mpr (.inl here),fun there => (named.mp there).resolve_right last⟩ rfl rfl

/-- What an option says of the value of a name, over what the earlier ones have said. -/
def optionValue (run : Invocation) (block : List Bytes) (name : String) (value : Option String) :
    CliOption → Option String
  | .env => (run.assignedOn name).or value
  | .preserve => (run.preserved block name).or value
  | _ => value

private theorem Effect.value {opt : CliOption} {after : Request} (effect : run.Effect (Caller block) request after opt)
    (present : run.args.optPresent opt.name = true) (name : String) :
    after.env.lookup name = optionValue run block name (request.env.lookup name) opt := by
  cases opt with
  | help | version => exact effect.elim
  | user =>
    obtain ⟨text,account,argv,_,_,_,rfl⟩ := effect
    rfl
  | group =>
    obtain ⟨text,group,argv,_,_,_,rfl⟩ := effect
    rfl
  | chdir =>
    obtain ⟨text,argv,_,_,rfl⟩ := effect
    rfl
  | env =>
    obtain ⟨text,key,value,spelled,parts,rfl⟩ := effect
    have said : run.assignedOn name = if String.ofList key = name then some (String.ofList value) else none := by
      simp [assignedOn,given_some present spelled,assignmentValue,parts]
    rw [EnvMap.lookup_insert_eq,optionValue,said]
    split <;> rfl
  | preserve =>
    obtain ⟨list,env,spelled,⟨t,trace,asked⟩,rfl⟩ := effect
    rw [preserveNames_lookup _ ((Fallible.trace_lift_ok _ _ _).mp trace) asked name]
    simp [optionValue,preserved,given_some present spelled,preserveNames]
  | shell | stdin | nonint | askpass => exact effect ▸ rfl

private theorem optionValue_absent {opt : CliOption} (absent : ¬ run.args.optPresent opt.name = true) (name : String)
    (value : Option String) : optionValue run block name value opt = value := by
  cases opt with
  | env => simp [optionValue,assignedOn,given_none absent]
  | preserve => simp [optionValue,preserved,given_none absent]
  | _ => rfl

private theorem Settles.value {targetArgs : List Bytes} {prepared : Prepared} {start argv : List CString}
    (settles : run.Settles (Caller block) targetArgs prepared start request argv) (name : String) :
    prepared.env.lookup name = (run.preserved block name).or (run.assignedOn name) := by
  have told := settles.options.fold (fun request => request.env.lookup name) (optionValue run block name)
    fun opt request after present effect => effect.value present name
  have every : (fun value opt => if run.args.optPresent opt.name = true then optionValue run block name value opt
      else value) = optionValue run block name := by
    funext value opt
    split
    · rfl
    · next absent => exact (optionValue_absent absent name value).symm
  rw [settles.env]
  rw [List.foldl_filter,every] at told
  rw [told]
  cases support : run.build.withAskpassSupport <;> simp [argvScheme,support,optionValue]

end Invocation

/-! The other sources, each put in where there is no value yet. -/

theorem lookup_merge (entries : List (Sigma fun _ : String => String)) (env : EnvMap) (name : String) :
    (entries.foldl (fun env entry => env.orInsert entry.1 entry.2) env).lookup name =
      (env.lookup name).or (entries.dlookup name) := by
  induction entries generalizing env with
  | nil => simp
  | cons entry entries ih =>
    obtain ⟨key,value⟩ := entry
    rw [List.foldl_cons,ih,EnvMap.lookup_orInsert,Option.or_assoc]
    congr 1
    by_cases same : key = name
    · subst same
      simp
    · rw [if_neg same,Option.none_or,List.dlookup_cons_ne _ _ (Ne.symm same)]

private theorem lookup_setDefaults (target : Account) (env : EnvMap) (name : String) :
    (setDefaults target env).lookup name = (env.lookup name).or (defaultValue target name) := by
  unfold setDefaults defaultValue
  simp only [EnvMap.lookup_orInsert,Option.or_assoc]
  congr 1
  by_cases home : name = "HOME"
  · subst home
    rfl
  by_cases user : name = "USER"
  · subst user
    rfl
  by_cases logname : name = "LOGNAME"
  · subst logname
    rfl
  by_cases shell : name = "SHELL"
  · subst shell
    rfl
  simp [home,user,logname,shell,eq_comm]

theorem splitEntryFrom_eq_some {entry name value : Bytes} :
    splitEntryFrom entry = some (name,value) ↔ entry = name ++ 61 :: value ∧ 61 ∉ name := by
  induction entry generalizing name with
  | nil => simp [splitEntryFrom]
  | cons b entry ih =>
    unfold splitEntryFrom
    by_cases ends : b = 61
    · subst ends
      rw [if_pos rfl]
      cases name with
      | nil => simp [eq_comm]
      | cons c name =>
        refine iff_of_false (by simp) fun both => ?_
        have first : (61 : UInt8) = c := (List.cons.inj both.1).1
        exact both.2 (first ▸ List.mem_cons_self)
    · rw [if_neg ends,Option.map_eq_some_iff]
      constructor
      · intro ⟨pair,split,same⟩
        cases same
        obtain ⟨rfl,absent⟩ := ih.mp split
        exact ⟨rfl,by simpa [Ne.symm ends] using absent⟩
      · intro ⟨same,absent⟩
        cases name with
        | nil => exact absurd (List.cons.inj same).1 ends
        | cons c name =>
          obtain ⟨rfl,rest⟩ := List.cons.inj same
          exact ⟨(name,value),ih.mpr ⟨rest,fun member => absent (List.mem_cons_of_mem _ member)⟩,rfl⟩

theorem splitEntry_eq_some {entry name value : Bytes} (named : name ≠ []) (plain : 61 ∉ name) :
    splitEntry entry = some (name,value) ↔ entry = name ++ 61 :: value := by
  obtain ⟨c,name,rfl⟩ := List.exists_cons_of_ne_nil named
  have rest : 61 ∉ name := fun member => plain (List.mem_cons_of_mem _ member)
  cases entry with
  | nil => simp [splitEntry]
  | cons b entry =>
    rw [splitEntry,Option.map_eq_some_iff]
    constructor
    · intro ⟨pair,split,same⟩
      cases same
      rw [(splitEntryFrom_eq_some.mp split).1]
      rfl
    · intro same
      obtain ⟨rfl,after⟩ := List.cons.inj same
      exact ⟨(name,value),splitEntryFrom_eq_some.mpr ⟨after,rest⟩,rfl⟩

/-- The variables of a block, as they are listed, give a name the value `getenv` does. -/
theorem getenv_listed {block : List Bytes} {name : String} (named : name ≠ "") (plain : '=' ∉ name.toList) :
    (block.filterMap splitEntry).findSome? (fun item => if item.1 = encode name then some item.2 else none) =
      getenv block name := by
  have bytes : encode name ≠ [] := fun empty => named (encode_injective empty)
  have absent : 61 ∉ encode name := fun member => plain ((mem_encode (c := '=') (by decide) name).mp member)
  rw [getenv,← List.head?_filterMap,List.filterMap_filterMap,List.head?_filterMap]
  congr 1
  funext entry
  by_cases starts : (encode name ++ [61]).isPrefixOf entry = true
  · obtain ⟨value,same⟩ := List.isPrefixOf_iff_prefix.mp starts
    have split : splitEntry entry = some (encode name,value) :=
      (splitEntry_eq_some bytes absent).mpr (by rw [← same,List.append_assoc]; rfl)
    rw [if_pos starts,split]
    simp [← same]
  · rw [if_neg starts]
    cases split : splitEntry entry with
    | none => rfl
    | some item =>
      obtain ⟨key,value⟩ := item
      by_cases same : key = encode name
      · subst same
        have whole := (splitEntry_eq_some bytes absent).mp split
        exact absurd (List.isPrefixOf_iff_prefix.mpr ⟨value,by rw [whole,List.append_assoc]; rfl⟩) starts
      · simp [same]

section
variable {block : List Bytes}

theorem yields_unicodeVar {A : Exchange Call Answer → Prop} (item : Bytes × Bytes) :
    Fallible.Yields A (unicodeVar item) (fun pair => item.1 = encode pair.1 ∧ decode item.2 = some pair.2) := by
  unfold unicodeVar
  split
  · next name value decoded text => simpa using ⟨(encode_decode decoded).symm,text⟩
  · unfold panic
    simp only [Fallible.yields_bind,Fallible.yields_ask]
    intro never
    cases never

private theorem yields_keepItems {A : Exchange Call Answer → Prop} (items : List (Bytes × Bytes)) : ∀ env : EnvMap,
    Fallible.Yields A (items.foldlM keepItem env) (fun after => ∀ name, after.lookup name =
      (env.lookup name).or (if isKept name then
        (items.findSome? fun item => if item.1 = encode name then some item.2 else none).bind decode
        else none)) := by
  induction items with
  | nil =>
    intro env
    simp
  | cons item items ih =>
    intro env
    rw [List.foldlM_cons,Fallible.yields_bind]
    have first : Fallible.Yields A (keepItem env item) (fun after => (∃ value, decode item.2 = some value) ∧
        ∀ name, after.lookup name =
          (env.lookup name).or (if isKept name ∧ item.1 = encode name then decode item.2 else none)) := by
      unfold keepItem
      rw [Fallible.yields_bind]
      refine (yields_unicodeVar item).mono fun pair read => ?_
      obtain ⟨key,value⟩ := pair
      rw [Fallible.yields_pure]
      refine ⟨⟨value,read.2⟩,fun name => ?_⟩
      rw [read.2]
      simp only [read.1,encode_injective.eq_iff]
      by_cases here : key = name
      · subst here
        by_cases kept : isKept key = true <;> simp [kept,EnvMap.lookup_orInsert]
      · by_cases kept : isKept key = true <;> simp [kept,here,EnvMap.lookup_orInsert]
    refine first.mono fun middle known => (ih middle).mono fun after rest name => ?_
    obtain ⟨⟨value,text⟩,known⟩ := known
    rw [rest name,known name,Option.or_assoc]
    congr 1
    by_cases kept : isKept name = true
    · by_cases here : item.1 = encode name <;> simp [kept,here,text]
    · simp [kept]

def supplied (block : List Bytes) (target : Account) (name : String) : Option String :=
  (defaultValue target name).or (if isKept name then
    ((block.filterMap splitEntry).findSome? fun item => if item.1 = encode name then some item.2 else none).bind decode
    else none)

theorem varsOs_listed {t : List (Exchange Call Answer)} {items : List (Bytes × Bytes)} (trace : Trace varsOs t items)
    (asked : ∀ x ∈ t,Caller block x) : items = block.filterMap splitEntry := by
  obtain ⟨found,rest,rfl,ended⟩ := (trace_call _ _ _ _).mp trace
  obtain ⟨rfl,_⟩ := (trace_done _ _ _).mp ended
  have same : found = block := asked _ List.mem_cons_self
  rw [same]

theorem yields_setEnvironment (target : Account) (env : EnvMap) : Fallible.Yields (Caller block) (setEnvironment target env)
    (fun after => ∀ name,after.lookup name = (env.lookup name).or (supplied block target name)) := by
  unfold setEnvironment
  rw [Fallible.yields_bind,Fallible.yields_lift]
  intro t items trace asked
  obtain rfl := varsOs_listed trace asked
  refine (yields_keepItems _ _).mono fun after known name => ?_
  rw [known name,lookup_setDefaults,Option.or_assoc]
  rfl

private theorem supplied_kept {target : Account} {name : String} (plain : '=' ∉ name.toList) :
    supplied block target name = (defaultValue target name).or (keptValue block name) := by
  unfold supplied keptValue callerValue
  simp only [← isKept_iff]
  by_cases kept : isKept name = true
  · have named : name ≠ "" := by
      intro empty
      rw [empty] at kept
      exact absurd kept (by decide)
    rw [if_pos kept,if_pos kept,getenv_listed named plain]
  · rw [if_neg kept,if_neg kept]

/-- The file is accepted: nothing is reported. -/
def Accepted (t : List (Exchange Call Answer)) : Prop := ∀ x ∈ t, ∀ context error, x.1 ≠ .report context error

end

private theorem assemble_parts {run : Invocation} (build : run.build.supervised = true) {prepared : Prepared}
    {pamEnv env : EnvMap} {u : List (Exchange Call Answer)} (assembles : Trace (run.assemble prepared pamEnv).run u (.ok env))
    (accepted : Accepted u) : ∃ loading loaded rest, u = loading ++ rest ∧
      Trace (loadOverwriteVars envFile prepared.targetUser (placeholders prepared.targetUser) prepared.env) loading
        (.ok (),loaded) ∧
      Trace (setEnvironment prepared.targetUser
        (pamEnv.entries.foldl (fun env entry => env.orInsert entry.1 entry.2) loaded)).run rest (.ok env) := by
  have scopex : run.build.backend = .scopex := by simpa using (Bool.and_eq_true_iff.mp build).1
  obtain ⟨loading,⟨result,loaded⟩,rest,rfl,loads,continued⟩ := (Fallible.trace_bind_ok _ _ _ _).mp assembles
  rw [Fallible.trace_lift_ok] at loads
  dsimp only at continued
  cases result with
  | error error =>
    obtain ⟨first,_,second,rfl,reports,_⟩ := (Fallible.trace_bind_ok _ _ _ _).mp continued
    obtain ⟨answer,rfl,_⟩ := (Fallible.trace_ask _ _ _).mp reports
    exact absurd rfl (accepted ⟨.report "" error,answer⟩ (by simp) "" error)
  | ok =>
    simp only [build,scopex,if_true] at continued
    exact ⟨loading,loaded,rest,rfl,loads,continued⟩

/-- The first source that has a value for a name gives it. -/
theorem environment_precedence (run : Invocation) (build : run.build.supervised = true) (block file : List Bytes)
    (targetArgs : List Bytes) (prepared : Prepared) (t : List (Exchange Call Answer))
    (prepares : Trace (run.prepare targetArgs).run t (.ok (.inl prepared))) (asked : ∀ x ∈ t, Caller block x)
    (pamEnv env : EnvMap) (u : List (Exchange Call Answer))
    (assembles : Trace (run.assemble prepared pamEnv).run u (.ok env)) (asked' : ∀ x ∈ u, Caller block x)
    (serves : Serves file u) (accepted : Accepted u) (name : String) (plain : '=' ∉ name.toList) :
    ∃ filed,Supplies prepared.targetUser (placeholders prepared.targetUser) (callerValue block) file name filed ∧
      env.lookup name = (run.preserved block name).or ((run.assignedOn name).or
        (filed.or ((pamEnv.lookup name).or ((defaultValue prepared.targetUser name).or (keptValue block name))))) := by
  obtain ⟨loading,loaded,rest,rfl,loads,last⟩ := assemble_parts build assembles accepted
  have early : ∀ x ∈ loading, Caller block x := fun x member => asked' x (List.mem_append_left _ member)
  have late : ∀ x ∈ rest, Caller block x := fun x member => asked' x (List.mem_append_right _ member)
  have lines : readLines loading = file := by
    refine loadOverwriteVars_accepted loads ⟨?_,fun path missing => serves.absent path (List.mem_append_left _ missing)⟩
    have both : readAnswers (loading ++ rest) = readAnswers loading ++ readAnswers rest := List.filterMap_append
    exact (List.prefix_append _ _).trans (both ▸ serves.reads)
  obtain ⟨start,request,argv,settles⟩ :=
    Invocation.yields_prepare (A := Caller block) targetArgs t _ prepares asked prepared rfl
  have said := settles.value name
  have added := loadOverwriteVars_lookup loads early name
  have merged := lookup_merge pamEnv.entries loaded name
  have final := yields_setEnvironment prepared.targetUser _ rest env last late name
  refine ⟨_,supplies_assigned _ _ block file name,?_⟩
  rw [final,supplied_kept plain,merged,added,said,lines]
  simp only [Option.or_assoc]
  rfl

private def preserving : Invocation := { supervisedRun with
  args := ⟨["id"],fun name => name == "preserve-env",fun name => if name = "preserve-env" then some "LANG" else none⟩ }

private def callerBlock : List Bytes := [encode "LANG=C",encode "PATH=/bin"]

private def preparing : List (Exchange Call Answer) :=
  [⟨.getenv "LANG",some (encode "C")⟩,⟨.getuid,(1000 : UInt32)⟩,
    ⟨.userFromUid 1000,.ok (some ⟨"alice",1000,1000,encode "/home/alice",encode "/bin/sh"⟩)⟩,
    ⟨.groupFromGid 1000,.ok (some ⟨"alice",1000⟩)⟩,
    ⟨.userFromUid 0,.ok (some ⟨"root",0,0,encode "/root",encode "/bin/sh"⟩)⟩,⟨.groupFromGid 0,.ok (some ⟨"root",0⟩)⟩]

private def assembling : List (Exchange Call Answer) :=
  [⟨.openFile envFile,.ok ()⟩,⟨.fileMetadata,.ok ⟨true,0,0o644⟩⟩,⟨.readLine,.ok (some (encode "* LANG=de\n"))⟩,
    ⟨.readLine,.ok none⟩,⟨.environ,callerBlock⟩]

theorem environment_precedence_preserved : ∃ prepared env, Trace (preserving.prepare [encode "id"]).run preparing
    (.ok (.inl prepared)) ∧ Trace (preserving.assemble prepared ∅).run assembling (.ok env) ∧
      env.lookup "LANG" = some "C" := by
  have runs : ∃ prepared env, replay 60 (preserving.prepare [encode "id"]).run preparing = some (.ok (.inl prepared)) ∧
      replay 60 (preserving.assemble prepared ∅).run assembling = some (.ok env) := ⟨_,_,rfl,rfl⟩
  obtain ⟨prepared,env,prepares,assembles⟩ := runs
  have prepares := replay_sound 60 prepares
  have assembles := replay_sound 60 assembles
  have asked : ∀ x ∈ preparing,Caller callerBlock x := by
    intro x member
    simp only [preparing,List.mem_cons,List.not_mem_nil,or_false] at member
    rcases member with rfl | rfl | rfl | rfl | rfl | rfl <;> trivial
  have asked' : ∀ x ∈ assembling,Caller callerBlock x := by
    intro x member
    simp only [assembling,List.mem_cons,List.not_mem_nil,or_false] at member
    rcases member with rfl | rfl | rfl | rfl | rfl <;> trivial
  have serves : Serves [encode "* LANG=de\n"] assembling :=
    ⟨⟨[],rfl⟩,fun path missing => by simp [assembling] at missing⟩
  have accepted : Accepted assembling := by
    intro x member context error same
    simp only [assembling,List.mem_cons,List.not_mem_nil,or_false] at member
    rcases member with rfl | rfl | rfl | rfl | rfl <;> cases same
  obtain ⟨_,_,same⟩ := environment_precedence preserving rfl callerBlock [encode "* LANG=de\n"] [encode "id"] prepared
    preparing prepares asked ∅ env assembling assembles asked' serves accepted "LANG" (by decide)
  exact ⟨prepared,env,prepares,assembles,same⟩

end Runas
