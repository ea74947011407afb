import Runas.Placeholders
import Runas.Precedence

/-! Whether a command that would be launched without the administrator's file is launched
with it. Every binding of the environment becomes a C string on the way to exec. -/
namespace Runas
open Interaction Text Fallible

namespace Invocation
variable (run : Invocation)

def words (prepared : Prepared) (env : EnvMap) : M (List CString × List CString) :=
  if run.build.backend = .scopex then do
    pure (prepared.argv,← cstrings (env.entries.map assignment))
  else do pure (← finishArgv prepared env,[])

/-- `launch` up to exec. -/
def handOver (prepared : Prepared) (pamEnv : EnvMap) : M (List CString × List CString) :=
  run.assemble prepared pamEnv >>= run.words prepared

def execute (prepared : Prepared) : List CString × List CString → M Unit
  | ([],_) => panic
  | (cmd :: argv,envp) => do
    nomatch ← exec run.build prepared.currentUser prepared.targetUser cmd argv envp prepared.targetDir

/-- In this environment the command is launched: every run comes to exec, with a program to run. -/
def Launches {K : Type} (step : K → (event : Call) → Answer event → K → Prop) (prepared : Prepared) (pamEnv : EnvMap)
    (k : K) : Prop :=
  Total step (fun out _ => ∃ cmd argv envp,out = .ok (cmd :: argv,envp)) (run.handOver prepared pamEnv).run k

end Invocation

def unserved (block : List Bytes) (_ : Unit) : (event : Call) → Answer event → Unit → Prop
  | .openFile _,answer,_ => answer = .error .enoent
  | .environ,answer,_ => answer = block
  | .getenv name,answer,_ => answer = getenv block name
  | _,_,_ => True

section
variable {run : Invocation} {prepared : Prepared} {pamEnv : EnvMap} {block : List Bytes}

theorem launch_handOver : run.launch prepared pamEnv = run.handOver prepared pamEnv >>= run.execute prepared := by
  unfold Invocation.launch Invocation.handOver
  rw [bind_assoc]
  congr 1
  funext env
  unfold Invocation.words
  by_cases scopex : run.build.backend = .scopex
  · simp only [if_pos scopex,bind_assoc,pure_bind]
    congr 1
    funext envp
    cases prepared.argv <;> rfl
  · simp only [if_neg scopex,bind_assoc,pure_bind]
    congr 1
    funext argv
    cases argv <;> rfl

/-! The parts of the hand-over. -/

/-- What becomes of the map when the file has been read: the PAM environment and the defaults
are put in where there is no value. -/
private def complete (run : Invocation) (prepared : Prepared) (pamEnv : EnvMap) (out : Except Error Unit × EnvMap) :
    M EnvMap := do
  if let .error error := out.1 then ask (.report "" error)
  let env := if run.build.supervised then
      pamEnv.entries.foldl (fun env entry => env.orInsert entry.1 entry.2) out.2
    else out.2
  if run.build.backend = .scopex then setEnvironment prepared.targetUser env else return env

private theorem handOver_complete : run.handOver prepared pamEnv =
    liftM (loadOverwriteVars envFile prepared.targetUser (placeholders prepared.targetUser) prepared.env) >>= fun out =>
      complete run prepared pamEnv out >>= run.words prepared := by
  rw [← bind_assoc]
  rfl

private def finish (run : Invocation) (prepared : Prepared) (values : List CString) : M (List CString × List CString) :=
  if run.build.backend = .scopex then return (prepared.argv,values)
  else do
    let argv := prepared.argv ++ values.flatMap fun value => [word "--setenv",value]
    if prepared.flags.meets .shell then return (argv,[])
    return (argv ++ [word "--"] ++ (← cstrings prepared.targetArgs),[])

private theorem words_finish (env : EnvMap) : run.words prepared env =
    cstrings (env.entries.map assignment) >>= finish run prepared := by
  unfold Invocation.words finish
  by_cases scopex : run.build.backend = .scopex
  · simp only [if_pos scopex]
  · simp only [if_neg scopex,finishArgv,setenvWords_eq,bind_map_left]
    rw [bind_assoc]
    congr 1
    funext values
    split
    · rfl
    · simp only [bind_assoc,pure_bind]

private def finalValue (run : Invocation) (prepared : Prepared) (pamEnv : EnvMap) (block : List Bytes)
    (found : String → Option String) (name : String) : Option String :=
  ((found name).or (if run.build.supervised then pamEnv.lookup name else none)).or
    (if run.build.backend = .scopex then supplied block prepared.targetUser name else none)

/-- What the hand-over needs to come to its end. -/
private structure Ready (run : Invocation) (prepared : Prepared) (pamEnv : EnvMap) (block : List Bytes)
    (found : String → Option String) : Prop where
  text : run.build.backend = .scopex → ∀ item ∈ block.filterMap splitEntry,Unicode item
  plain : ∀ name value,finalValue run prepared pamEnv block found name = some value → 0 ∉ encode name ∧ 0 ∉ encode value
  args : run.build.backend ≠ .scopex → ¬ prepared.flags.meets .shell → ∀ argument ∈ prepared.targetArgs,0 ∉ argument
  program : prepared.argv ≠ [] ∨ run.build.backend ≠ .scopex ∧ (¬ prepared.flags.meets .shell ∨
    ∃ name,finalValue run prepared pamEnv block found name ≠ none)

/-- What is known of the map when the PAM environment and the defaults are in. -/
private def Completed (run : Invocation) (prepared : Prepared) (pamEnv : EnvMap) (block : List Bytes)
    (found : String → Option String) (env : EnvMap) : Prop :=
  (∀ name,env.lookup name = finalValue run prepared pamEnv block found name) ∧
    (run.build.backend = .scopex → ∀ item ∈ block.filterMap splitEntry,Unicode item)

/-! What a hand-over that comes to its end has needed. -/

private theorem yields_decoded {A : Exchange Call Answer → Prop} (items : List (Bytes × Bytes)) : ∀ env : EnvMap,
    Fallible.Yields A (items.foldlM keepItem env) (fun _ => ∀ item ∈ items,Unicode item) := by
  induction items with
  | nil => simp
  | cons item items ih =>
    intro env
    unfold keepItem at ih ⊢
    simp only [List.foldlM_cons,Fallible.yields_bind,Fallible.yields_pure]
    refine (yields_unicodeVar item).mono fun pair read => (ih _).mono fun _ rest other member => ?_
    rcases List.mem_cons.mp member with rfl | late
    · exact ⟨pair.1,pair.2,read.1 ▸ decode_encode pair.1,read.2⟩
    · exact rest other late

private theorem yields_complete (out : Except Error Unit × EnvMap) : Fallible.Yields (Caller block)
    (complete run prepared pamEnv out) (Completed run prepared pamEnv block fun name => out.2.lookup name) := by
  have last : Fallible.Yields (Caller block) (do
      let env := if run.build.supervised then
          pamEnv.entries.foldl (fun env entry => env.orInsert entry.1 entry.2) out.2
        else out.2
      if run.build.backend = .scopex then setEnvironment prepared.targetUser env else return env)
      (Completed run prepared pamEnv block fun name => out.2.lookup name) := by
    have merged (name : String) : (if run.build.supervised then
        pamEnv.entries.foldl (fun env entry => env.orInsert entry.1 entry.2) out.2 else out.2).lookup name =
        (out.2.lookup name).or (if run.build.supervised then pamEnv.lookup name else none) := by
      split
      · exact lookup_merge _ _ _
      · exact Option.or_none.symm
    unfold Completed finalValue
    by_cases scopex : run.build.backend = .scopex
    · simp only [if_pos scopex]
      refine ((yields_setEnvironment prepared.targetUser _).and ?_).mono fun env both => ⟨fun name => ?_,fun _ => both.2⟩
      · unfold setEnvironment
        rw [Fallible.yields_bind,Fallible.yields_lift]
        intro t items trace asked
        obtain rfl := varsOs_listed trace asked
        exact yields_decoded _ _
      · rw [both.1 name,merged name]
    · simp only [if_neg scopex,Fallible.yields_pure,Option.or_none]
      exact ⟨merged,fun same => absurd same scopex⟩
  unfold complete
  cases out.1 with
  | ok => exact last
  | error error => exact (Fallible.yields_bind _ _ _).mpr ((Fallible.yields_ask _ _).mpr fun _ _ => last)

private theorem assignment_plain {entry : Sigma fun _ : String => String} :
    0 ∉ assignment entry ↔ 0 ∉ encode entry.1 ∧ 0 ∉ encode entry.2 := by
  have equals : (0 : UInt8) ∉ encode "=" := by decide
  simp [assignment,equals]

private theorem yields_finish {A : Exchange Call Answer → Prop} (values : List CString) :
    Fallible.Yields A (finish run prepared values) (fun words =>
      (run.build.backend ≠ .scopex → ¬ prepared.flags.meets .shell → ∀ argument ∈ prepared.targetArgs,0 ∉ argument) ∧
      (words.1 ≠ [] → prepared.argv ≠ [] ∨ run.build.backend ≠ .scopex ∧ (¬ prepared.flags.meets .shell ∨ values ≠ []))) := by
  unfold finish
  by_cases scopex : run.build.backend = .scopex
  · rw [if_pos scopex,Fallible.yields_pure]
    exact ⟨fun other => absurd scopex other,.inl⟩
  · rw [if_neg scopex]
    by_cases shell : prepared.flags.meets .shell
    · simp only [if_pos shell,Fallible.yields_pure]
      refine ⟨fun _ plain => absurd shell plain,fun launched => ?_⟩
      by_cases empty : values = []
      · subst empty
        simp only [List.flatMap_nil,List.append_nil] at launched
        exact .inl launched
      · exact .inr ⟨scopex,.inr empty⟩
    · simp only [if_neg shell,Fallible.yields_bind,Fallible.yields_pure]
      refine (yields_cstrings _).mono fun made same => ⟨fun _ _ argument member => ?_,fun _ => .inr ⟨scopex,.inl shell⟩⟩
      rw [← same] at member
      obtain ⟨c,_,rfl⟩ := List.mem_map.mp member
      exact c.noNul

private theorem yields_ready (out : Except Error Unit × EnvMap) : Fallible.Yields (Caller block)
    (complete run prepared pamEnv out >>= run.words prepared) (fun words => words.1 ≠ [] →
      Ready run prepared pamEnv block fun name => out.2.lookup name) := by
  rw [Fallible.yields_bind]
  refine (yields_complete out).mono fun env final => ?_
  obtain ⟨bound,text⟩ := final
  rw [words_finish,Fallible.yields_bind]
  refine (yields_cstrings _).mono fun values same => (yields_finish values).mono fun words ends launched => ?_
  obtain ⟨args,program⟩ := ends
  refine ⟨text,fun name value found => ?_,args,(program launched).imp_right fun other => ⟨other.1,other.2.imp_right ?_⟩⟩
  · rw [← bound name] at found
    have entry : assignment ⟨name,value⟩ ∈ env.entries.map assignment :=
      List.mem_map_of_mem (AList.mem_lookup_iff.mp found)
    rw [← same] at entry
    obtain ⟨c,_,bytes⟩ := List.mem_map.mp entry
    have plain := c.noNul
    rw [bytes] at plain
    exact assignment_plain.mp plain
  · intro nonempty
    have entries : env.entries ≠ [] := fun empty => nonempty (by simpa [empty] using same)
    obtain ⟨⟨name,value⟩,rest,first⟩ := List.exists_cons_of_ne_nil entries
    refine ⟨name,?_⟩
    have found : env.lookup name = some value := AList.mem_lookup_iff.mpr (by rw [first]; exact List.mem_cons_self)
    rw [← bound name,found]
    exact Option.some_ne_none value

/-! And what it needs is enough. -/

private theorem keepItems_pure (items : List (Bytes × Bytes)) (text : ∀ item ∈ items,Unicode item) : ∀ env : EnvMap,
    ∃ after,items.foldlM keepItem env = (pure after : M EnvMap) := by
  induction items with
  | nil => exact fun env => ⟨env,rfl⟩
  | cons item items ih =>
    intro env
    obtain ⟨name,value,named,valued⟩ := text item List.mem_cons_self
    have first : keepItem env item = pure (if isKept name then env.orInsert name value else env) := by
      unfold keepItem unicodeVar
      rw [named,valued]
      rfl
    rw [List.foldlM_cons,first,pure_bind]
    exact ih (fun item member => text item (List.mem_cons_of_mem _ member)) _

private theorem cstrings_plain {words : List Bytes} (plain : ∀ word ∈ words,0 ∉ word) :
    ∃ made,cstrings words = pure made ∧ made.map CString.bytes = words := by
  have same : (words.pmap CString.mk plain).map CString.bytes = words := by
    rw [List.map_pmap]
    exact (List.pmap_eq_map plain).trans (List.map_id words)
  refine ⟨words.pmap CString.mk plain,?_,same⟩
  rw [← cstrings_command,same]

section
variable {K : Type} {step : K → (event : Call) → Answer event → K → Prop} {k : K}

private theorem complete_ends (answers : ∀ k context error,
      (∃ answer k',step k .environ answer k') ∧ ∃ answer k',step k (.report context error) answer k')
    (asked : ∀ k event answer k',step k event answer k' → Caller block ⟨event,answer⟩)
    (out : Except Error Unit × EnvMap) (text : run.build.backend = .scopex →
      ∀ item ∈ block.filterMap splitEntry,Unicode item) :
    Total step (fun result _ => ∃ env,result = .ok env) (complete run prepared pamEnv out).run k := by
  have last (k : K) : Total step (fun result _ => ∃ env,result = .ok env) (do
      let env := if run.build.supervised then
          pamEnv.entries.foldl (fun env entry => env.orInsert entry.1 entry.2) out.2
        else out.2
      if run.build.backend = .scopex then setEnvironment prepared.targetUser env else return env : M EnvMap).run k := by
    by_cases scopex : run.build.backend = .scopex
    · simp only [if_pos scopex]
      unfold setEnvironment
      refine .fallible_bind (.lift (.ask (answers k "" .unknown).1 fun found k' taken => .done ?_))
      obtain rfl : found = block := asked _ _ _ _ taken
      obtain ⟨after,same⟩ := keepItems_pure _ (text scopex) (setDefaults prepared.targetUser
        (if run.build.supervised then pamEnv.entries.foldl (fun env entry => env.orInsert entry.1 entry.2) out.2
          else out.2))
      dsimp only
      rw [same]
      exact .done ⟨after,rfl⟩
    · simp only [if_neg scopex]
      exact .done ⟨_,rfl⟩
  unfold complete
  cases out.1 with
  | ok => exact last k
  | error error => exact .fallible_bind (.ask (answers k "" error).2 fun _ k' _ => .done (last k'))

/-- With all that is needed the vector has a program in it. -/
private theorem finish_ends {found : String → Option String} {env : EnvMap} {values : List CString}
    (ready : Ready run prepared pamEnv block found) (bound : ∀ name,env.lookup name = finalValue run prepared pamEnv block found name)
    (same : values.map CString.bytes = env.entries.map assignment) :
    Total step (fun result _ => ∃ cmd argv envp,result = .ok (cmd :: argv,envp)) (finish run prepared values).run k := by
  unfold finish
  by_cases scopex : run.build.backend = .scopex
  · rw [if_pos scopex]
    obtain ⟨cmd,argv,first⟩ := List.exists_cons_of_ne_nil
      (ready.program.resolve_right fun other => absurd scopex other.1)
    exact .done ⟨cmd,argv,values,by rw [first]⟩
  · rw [if_neg scopex]
    by_cases shell : prepared.flags.meets .shell
    · simp only [if_pos shell]
      have some : prepared.argv ++ values.flatMap (fun value => [word "--setenv",value]) ≠ [] := by
        rcases ready.program with vector | ⟨_,plain | ⟨name,found⟩⟩
        · exact List.append_ne_nil_of_left_ne_nil vector _
        · exact absurd shell plain
        · rw [← bound name] at found
          obtain ⟨value,known⟩ := Option.ne_none_iff_exists'.mp found
          have entry := List.mem_map_of_mem (f := assignment) (AList.mem_lookup_iff.mp known)
          rw [← same] at entry
          obtain ⟨c,member,_⟩ := List.mem_map.mp entry
          intro empty
          have none := (List.append_eq_nil_iff.mp empty).2
          rw [List.flatMap_eq_nil_iff] at none
          cases none c member
      obtain ⟨cmd,argv,first⟩ := List.exists_cons_of_ne_nil some
      exact .done ⟨cmd,argv,[],by rw [first]⟩
    · simp only [if_neg shell]
      obtain ⟨arguments,made,_⟩ := cstrings_plain (ready.args scopex shell)
      rw [made]
      obtain ⟨cmd,argv,first⟩ := List.exists_cons_of_ne_nil (List.append_ne_nil_of_left_ne_nil
        (List.append_ne_nil_of_right_ne_nil (prepared.argv ++ values.flatMap fun value => [word "--setenv",value])
          (List.cons_ne_nil (word "--") [])) arguments)
      exact .done ⟨cmd,argv,[],by rw [← first]⟩

private theorem launches_ready (answers : ∀ k context error,
      (∃ answer k',step k .environ answer k') ∧ ∃ answer k',step k (.report context error) answer k')
    (asked : ∀ k event answer k',step k event answer k' → Caller block ⟨event,answer⟩)
    (out : Except Error Unit × EnvMap) :
    Total step (fun result _ => ∃ cmd argv envp,result = .ok (cmd :: argv,envp))
      (complete run prepared pamEnv out >>= run.words prepared).run k ↔
    Ready run prepared pamEnv block fun name => out.2.lookup name := by
  constructor
  · intro total
    obtain ⟨⟨result,k',run⟩,ends⟩ := total.sound
    obtain ⟨cmd,argv,envp,rfl⟩ := ends _ _ run
    obtain ⟨t,trace,all⟩ := run.traced asked
    exact yields_ready out t _ trace all (List.cons_ne_nil _ _)
  · intro ready
    have known : ∀ t result,Trace (complete run prepared pamEnv out).run t result → (∀ x ∈ t,Caller block x) →
        ∀ env,result = .ok env → Completed run prepared pamEnv block (fun name => out.2.lookup name) env := by
      rintro t result trace all env rfl
      exact yields_complete out t env trace all
    refine .fallible_bind (((complete_ends answers asked out ready.text).traced asked known).mono ?_)
    rintro result k' ⟨completed,env,rfl⟩
    obtain ⟨bound,_⟩ := completed env rfl
    have plain : ∀ word ∈ env.entries.map assignment,0 ∉ word := by
      intro word member
      obtain ⟨entry,inside,rfl⟩ := List.mem_map.mp member
      have found := bound entry.1
      rw [AList.mem_lookup_iff.mpr inside] at found
      exact assignment_plain.mpr (ready.plain _ _ found.symm)
    obtain ⟨values,made,same⟩ := cstrings_plain plain
    dsimp only
    rw [words_finish,made,pure_bind]
    exact finish_ends ready bound same

private theorem launches_found (answers : ∀ k context error,
      (∃ answer k',step k .environ answer k') ∧ ∃ answer k',step k (.report context error) answer k')
    (asked : ∀ k event answer k',step k event answer k' → Caller block ⟨event,answer⟩) {found : String → Option String}
    (loads : Total step (fun out _ => ∀ name,out.2.lookup name = found name)
      (loadOverwriteVars envFile prepared.targetUser (placeholders prepared.targetUser) prepared.env) k) :
    run.Launches step prepared pamEnv k ↔ Ready run prepared pamEnv block found := by
  unfold Invocation.Launches
  rw [handOver_complete]
  constructor
  · intro total
    obtain ⟨⟨out,k',run⟩,known⟩ := loads.sound
    obtain rfl : (fun name => out.2.lookup name) = found := funext (known out k' run)
    rw [Fallible.run_bind] at total
    exact (launches_ready answers asked out).mp (total.after ((runs_bind _ _ _ _ _).mpr ⟨out,k',run,.done _ _⟩))
  · intro ready
    refine .fallible_bind (.lift (loads.mono fun out k' known => ?_))
    obtain rfl : (fun name => out.2.lookup name) = found := funext known
    exact (launches_ready answers asked out).mpr ready

end

private theorem launches_unserved : run.Launches (unserved block) prepared pamEnv () ↔
    Ready run prepared pamEnv block fun name => prepared.env.lookup name := by
  refine launches_found ?_ ?_ ?_
  · exact fun _ _ _ => ⟨⟨block,(),rfl⟩,⟨(),(),trivial⟩⟩
  · intro k event answer k' taken
    cases event <;> trivial
  · unfold loadOverwriteVars
    refine .ask ⟨.error .enoent,(),rfl⟩ fun opened k' missing => ?_
    obtain rfl : opened = .error .enoent := missing
    exact .done fun name => rfl

private theorem launches_served (file : List Bytes) : run.Launches (served block) prepared pamEnv file ↔
    Ready run prepared pamEnv block fun name => (prepared.env.lookup name).or
      (assigned prepared.targetUser (placeholders prepared.targetUser) block (textLines file) name) := by
  refine launches_found ?_ ?_ ((loadOverwriteVars_ends envFile file).mono fun out _ read => read.2)
  · exact fun lines _ _ => ⟨⟨block,lines,rfl,rfl⟩,⟨(),lines,rfl⟩⟩
  · intro lines event answer left taken
    cases event <;> first | trivial | exact taken.1

/-! Which values have a NUL. -/

/-- No line that is the first to set a name, where the name has no value yet, has a NUL in its text. -/
def PlainTexts (target : Account) (block : List Bytes) (env : EnvMap) (lines : List Bytes) : Prop :=
  ∀ (before : List Bytes) (raw : Bytes) (after : List Bytes) (line name : String) (text : List Char),
    lines = before ++ raw :: after → decode (stripLineEnding raw) = some line →
    OverrideLine target.name line.toList name.toList (some text) → env.lookup name = none →
    (∀ earlier ∈ before,∀ value,¬ RawYields target (placeholders target) (callerValue block) earlier name value) →
    '\x00' ∉ text

private theorem nul_encode (text : String) : 0 ∈ encode text ↔ '\x00' ∈ text.toList := mem_encode (c := '\x00') (by decide) text

private theorem callerValue_plain (entries : ∀ entry ∈ block,0 ∉ entry) {name value : String}
    (known : callerValue block name = some value) : 0 ∉ encode value := by
  obtain ⟨bytes,found,decoded⟩ := Option.bind_eq_some_iff.mp known
  obtain ⟨entry,member,read⟩ := List.exists_of_findSome?_eq_some found
  rw [encode_decode decoded]
  split at read
  · cases read
    exact fun inside => entries entry member (List.mem_of_mem_drop inside)
  · cases read

private theorem plainTexts_iff {target : Account} (account : ∀ entry ∈ placeholders target,'\x00' ∉ entry.2.toList)
    (entries : ∀ entry ∈ block,0 ∉ entry) {env : EnvMap} {lines : List Bytes} : PlainTexts target block env lines ↔
      ∀ name value,env.lookup name = none → assigned target (placeholders target) block lines name = some value →
        0 ∉ encode value := by
  have nul (text : List Char) : 0 ∈ encode (String.ofList (expand (placeholders target) text)) ↔ '\x00' ∈ text := by
    rw [nul_encode,String.toList_ofList,nul_expand account]
  constructor
  · intro plain name value unset found
    obtain ⟨before,raw,after,split,yields,none⟩ := List.findSome?_eq_some_iff.mp found
    obtain ⟨line,decoded,set,format,read⟩ := rawAssigns_iff.mp yields
    cases set with
    | none => exact callerValue_plain entries read
    | some text =>
      have filled := filled_iff.mp read
      rw [← @String.ofList_toList value,filled,nul]
      refine plain before raw after line name text split decoded format unset fun earlier member other yields => ?_
      rw [← rawAssigns_iff,none earlier member] at yields
      cases yields
  · intro plain before raw after line name text split decoded format unset first
    rw [← nul text]
    refine plain name _ unset (List.findSome?_eq_some_iff.mpr ⟨before,raw,after,split,?_,fun earlier member => ?_⟩)
    · exact rawAssigns_iff.mpr ⟨line,decoded,some text,format,filled_iff.mpr (String.toList_ofList ..)⟩
    · exact Option.eq_none_iff_forall_ne_some.mpr fun value yields => first earlier member value (rawAssigns_iff.mp yields)

private theorem assigned_named {target : Account} {lines : List Bytes} {name value : String}
    (found : assigned target (placeholders target) block lines name = some value) : 0 ∉ encode name := by
  obtain ⟨raw,_,yields⟩ := List.exists_of_findSome?_eq_some found
  obtain ⟨line,_,set,⟨_,first,rest,same,letter,rests⟩,_⟩ := rawAssigns_iff.mp yields
  rw [nul_encode,same]
  intro member
  rcases List.mem_cons.mp member with rfl | late
  · exact absurd letter (by simp [Letter])
  · exact absurd (rests _ late) (by simp [Letter])

private theorem ready_added {found added : String → Option String} (ready : Ready run prepared pamEnv block found)
    (named : ∀ name value,added name = some value → 0 ∉ encode name) :
    Ready run prepared pamEnv block (fun name => (found name).or (added name)) ↔
      ∀ name value,found name = none → added name = some value → 0 ∉ encode value := by
  have kept {name : String} (same : found name ≠ none ∨ added name = none) :
      finalValue run prepared pamEnv block (fun name => (found name).or (added name)) name =
        finalValue run prepared pamEnv block found name := by
    unfold finalValue
    rcases same with some | none
    · obtain ⟨value,known⟩ := Option.ne_none_iff_exists'.mp some
      simp [known]
    · simp [none]
  have new {name value : String} (unset : found name = none) (adds : added name = some value) :
      finalValue run prepared pamEnv block (fun name => (found name).or (added name)) name = some value := by
    simp [finalValue,unset,adds]
  constructor
  · intro filled name value unset adds
    exact (filled.plain name value (new unset adds)).2
  · intro plain
    refine ⟨ready.text,fun name value final => ?_,ready.args,ready.program.imp_right fun other =>
      ⟨other.1,other.2.imp_right fun ⟨name,bound⟩ => ⟨name,?_⟩⟩⟩
    · by_cases same : found name ≠ none ∨ added name = none
      · rw [kept same] at final
        exact ready.plain name value final
      · simp only [not_or,Ne,not_not] at same
        obtain ⟨text,adds⟩ := Option.ne_none_iff_exists'.mp same.2
        rw [new same.1 adds] at final
        cases final
        exact ⟨named name value adds,plain name value same.1 adds⟩
    · by_cases same : found name ≠ none ∨ added name = none
      · rwa [kept same]
      · simp only [not_or,Ne,not_not] at same
        obtain ⟨text,adds⟩ := Option.ne_none_iff_exists'.mp same.2
        rw [new same.1 adds]
        exact Option.some_ne_none text

private theorem launches_added {lines : List Bytes} (launches : run.Launches (unserved block) prepared pamEnv ()) :
    run.Launches (served block) prepared pamEnv lines ↔ ∀ name value,prepared.env.lookup name = none →
      assigned prepared.targetUser (placeholders prepared.targetUser) block (textLines lines) name = some value →
        0 ∉ encode value := by
  rw [launches_served]
  exact ready_added (launches_unserved.mp launches) fun name value => assigned_named

end

/-- A command that would be launched without the file is launched with it, whatever bytes the file
is made of, just when no text it is the first to set a name to has a NUL. -/
theorem override_launches_iff (run : Invocation) (prepared : Prepared) (pamEnv : EnvMap) (block : List Bytes)
    (content : Bytes) (account : ∀ entry ∈ placeholders prepared.targetUser,'\x00' ∉ entry.2.toList)
    (entries : ∀ entry ∈ block,0 ∉ entry) (launches : run.Launches (unserved block) prepared pamEnv ()) :
    run.launch prepared pamEnv = run.handOver prepared pamEnv >>= run.execute prepared ∧
      (run.Launches (served block) prepared pamEnv (rawLines content) ↔
        PlainTexts prepared.targetUser block prepared.env (textLines (rawLines content))) :=
  ⟨launch_handOver,(launches_added launches).trans (plainTexts_iff account entries).symm⟩

private theorem launches_id : supervisedRun.Launches (unserved []) preparedId ∅ () := by
  refine launches_unserved.mpr ⟨fun _ => by simp,?_,fun other => absurd rfl other,.inl (by decide)⟩
  intro name value final
  have default : defaultValue root name = some value := by
    simpa [finalValue,supplied,supervisedRun,Build.supervised,preparedId] using final
  unfold defaultValue at default
  simp only [Bool.or_eq_true,decide_eq_true_eq] at default
  split at default
  · next home => cases default; subst home; decide
  split at default
  · next user => cases default; rcases user with rfl | rfl <;> decide
  split at default
  · next shell => cases default; subst shell; decide
  · cases default

/-- A file of one line without a NUL. -/
theorem override_launches_plain :
    supervisedRun.Launches (served []) preparedId ∅ (rawLines (encode "* EDITOR=vi\n")) := by
  refine (override_launches_iff supervisedRun preparedId ∅ [] (encode "* EDITOR=vi\n") (by decide) (by simp)
    launches_id).2.mpr ?_
  intro before raw after line name text split decoded format _ _
  have one : textLines (rawLines (encode "* EDITOR=vi\n")) = [encode "* EDITOR=vi\n"] := by decide
  rw [one] at split
  obtain ⟨rfl,rest⟩ : before = [] ∧ raw :: after = [encode "* EDITOR=vi\n"] := by
    cases before with
    | nil => exact ⟨rfl,split.symm⟩
    | cons first before => simp at split
  obtain rfl := (List.cons.inj rest).1
  obtain rfl : "* EDITOR=vi" = line := Option.some.inj ((decode_encode "* EDITOR=vi").symm.trans decoded)
  have parsed := parseLine_eq_some_iff.mpr format
  have known : parseLine preparedId.targetUser.name "* EDITOR=vi".toList =
      some ("EDITOR".toList,some "vi".toList) := by decide
  rw [known] at parsed
  rw [← Option.some.inj (Prod.mk.inj (Option.some.inj parsed)).2]
  decide

/-- One byte of the file stops a command that is launched without it. -/
theorem override_launches_nul : supervisedRun.Launches (unserved []) preparedId ∅ () ∧
    ¬ supervisedRun.Launches (served []) preparedId ∅ (rawLines (encode "* EDITOR=v\x00i\n")) := by
  refine ⟨launches_id,fun launches => ?_⟩
  have plain := (launches_added launches_id).mp launches "EDITOR" "v\x00i" rfl (by decide)
  exact absurd plain (by decide)

end Runas
