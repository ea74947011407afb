import Runas.Main
import Runas.Interaction.Alone

/-! What the administrator's file adds to an environment map: for each name it has not
got, the value of the first line that yields one. -/
namespace Runas
open Interaction Text

/-- `getenv`: the value in the first entry of that name. -/
def getenv (block : List Bytes) (name : String) : Option Bytes :=
  block.findSome? fun entry =>
    if (encode name ++ [61]).isPrefixOf entry then some (entry.drop (encode name ++ [61]).length) else none

/-- The environment of the caller, as the calls that ask for it find it. -/
def Caller (block : List Bytes) : Exchange Call Answer → Prop
  | ⟨.environ,entries⟩ => entries = block
  | ⟨.getenv name,found⟩ => found = getenv block name
  | _ => True

def callerValue (block : List Bytes) (name : String) : Option String := (getenv block name).bind decode

def lineAssigns (target : Account) (placeholders : List (String × String)) (caller : String → Option String)
    (line name : String) : Option String := do
  let (key,value) ← parseLine target.name line.toList
  if String.ofList key ≠ name then none
  match value with
  | some value => some (String.ofList (expand placeholders value))
  | none => caller name

def rawAssigns (target : Account) (placeholders : List (String × String)) (caller : String → Option String)
    (name : String) (raw : Bytes) : Option String := do
  lineAssigns target placeholders caller (← decode (stripLineEnding raw)) name

def readLines (t : List (Exchange Call Answer)) : List Bytes :=
  t.filterMap fun
    | ⟨.readLine,.ok line⟩ => line
    | _ => none

def readAnswers (t : List (Exchange Call Answer)) : List (Except Errno (Option Bytes)) :=
  t.filterMap fun
    | ⟨.readLine,answer⟩ => some answer
    | _ => none

/-- A file with these lines is read: they come in order, then the end. A file that is
not there has no lines. -/
structure Serves (file : List Bytes) (t : List (Exchange Call Answer)) : Prop where
  reads : readAnswers t <+: file.map (fun raw => .ok (some raw)) ++ [.ok none]
  absent : ∀ path, ⟨.openFile path,.error .enoent⟩ ∈ t → file = []

namespace EnvMap

theorem lookup_insert_eq (env : EnvMap) (name key value : String) :
    AList.lookup name (AList.insert key value env) = if key = name then some value else env.lookup name := by
  by_cases same : key = name
  · subst same
    rw [if_pos rfl]
    exact AList.lookup_insert env
  · rw [if_neg same]
    exact AList.lookup_insert_ne (Ne.symm same)

theorem lookup_orInsert (env : EnvMap) (name key value : String) : (env.orInsert key value).lookup name =
    (env.lookup name).or (if key = name then some value else none) := by
  unfold orInsert
  by_cases there : key ∈ env
  · rw [if_pos there]
    by_cases same : key = name
    · subst same
      obtain ⟨old,known⟩ := Option.isSome_iff_exists.mp (AList.lookup_isSome.mpr there)
      rw [known,Option.some_or]
    · rw [if_neg same,Option.or_none]
  · rw [if_neg there,lookup_insert_eq]
    by_cases same : key = name
    · subst same
      rw [if_pos rfl,if_pos rfl,AList.lookup_eq_none.mpr there,Option.none_or]
    · rw [if_neg same,if_neg same,Option.or_none]

end EnvMap

section
variable {target : Account} {placeholders : List (String × String)} {block : List Bytes} {env after : EnvMap}
  {t : List (Exchange Call Answer)}

theorem envVar_caller {name : String} {value : Option String} (trace : Trace (envVar name) t value)
    (asked : ∀ x ∈ t, Caller block x) : value = callerValue block name := by
  obtain ⟨found,rest,rfl,ended⟩ := (trace_call _ _ _ _).mp trace
  obtain ⟨rfl,rfl⟩ := (trace_done _ _ _).mp ended
  have found : found = getenv block name := asked _ List.mem_cons_self
  rw [found]
  rfl

private theorem overwriteLine_result {line : String} {key : List Char} {value : Option (List Char)}
    (parsed : parseLine target.name line.toList = some (key,value))
    (trace : Trace (overwriteLine target placeholders env line) t after) (asked : ∀ x ∈ t, Caller block x) :
    after = match value with
      | some value => env.orInsert (String.ofList key) (String.ofList (expand placeholders value))
      | none => match callerValue block (String.ofList key) with
        | some value => env.orInsert (String.ofList key) value
        | none => env := by
  unfold overwriteLine at trace
  rw [parsed] at trace
  dsimp only at trace
  unfold EnvMap.orInsert
  by_cases there : String.ofList key ∈ env
  · rw [if_pos there] at trace
    obtain ⟨rfl,_⟩ := (trace_done _ _ _).mp trace
    cases value with
    | some value => exact (if_pos there).symm
    | none => cases callerValue block (String.ofList key) <;> simp [there]
  · rw [if_neg there] at trace
    cases value with
    | some value =>
      obtain ⟨rfl,_⟩ := (trace_done _ _ _).mp trace
      exact (if_neg there).symm
    | none =>
      obtain ⟨first,found,second,rfl,asks,ended⟩ := (trace_bind _ _ _ _).mp trace
      have known := envVar_caller asks fun x member => asked x (List.mem_append_left _ member)
      obtain ⟨rfl,_⟩ := (trace_done _ _ _).mp ended
      subst known
      cases callerValue block (String.ofList key) <;> simp [there]

theorem overwriteLine_lookup {line : String} (trace : Trace (overwriteLine target placeholders env line) t after)
    (asked : ∀ x ∈ t, Caller block x) (name : String) : after.lookup name =
      (env.lookup name).or (lineAssigns target placeholders (callerValue block) line name) := by
  unfold lineAssigns
  cases parsed : parseLine target.name line.toList with
  | none =>
    unfold overwriteLine at trace
    rw [parsed] at trace
    obtain ⟨rfl,_⟩ := (trace_done _ _ _).mp trace
    simp
  | some assignment =>
    obtain ⟨key,value⟩ := assignment
    rw [overwriteLine_result parsed trace asked]
    simp only [Option.bind_eq_bind,Option.bind_some]
    cases value with
    | some value =>
      rw [EnvMap.lookup_orInsert]
      by_cases same : String.ofList key = name <;> simp [same]
    | none =>
      dsimp only
      by_cases same : String.ofList key = name
      · subst same
        cases known : callerValue block (String.ofList key) with
        | some value => simp [EnvMap.lookup_orInsert]
        | none => simp
      · cases known : callerValue block (String.ofList key) with
        | some value => simp [EnvMap.lookup_orInsert,same]
        | none => simp [same]

/-- What the lines of a part of the file yield for a name: the first value. -/
def assigned (target : Account) (placeholders : List (String × String)) (block : List Bytes) (lines : List Bytes)
    (name : String) : Option String := lines.findSome? (rawAssigns target placeholders (callerValue block) name)

theorem assigned_append (lines more : List Bytes) (name : String) :
    assigned target placeholders block (lines ++ more) name =
      (assigned target placeholders block lines name).or (assigned target placeholders block more name) :=
  List.findSome?_append

theorem readLines_append (t u : List (Exchange Call Answer)) : readLines (t ++ u) = readLines t ++ readLines u :=
  List.filterMap_append

private theorem overwriteLine_reads {line : String}
    (trace : Trace (overwriteLine target placeholders env line) t after) : readLines t = [] := by
  unfold overwriteLine at trace
  split at trace
  · obtain ⟨_,rfl⟩ := (trace_done _ _ _).mp trace
    rfl
  · dsimp only at trace
    split at trace
    · obtain ⟨_,rfl⟩ := (trace_done _ _ _).mp trace
      rfl
    · split at trace
      · obtain ⟨_,rfl⟩ := (trace_done _ _ _).mp trace
        rfl
      · obtain ⟨first,found,second,rfl,asks,ended⟩ := (trace_bind _ _ _ _).mp trace
        obtain ⟨_,rfl⟩ := (trace_done _ _ _).mp ended
        obtain ⟨_,_,rfl,ended⟩ := (trace_call _ _ _ _).mp asks
        obtain ⟨_,rfl⟩ := (trace_done _ _ _).mp ended
        rfl

/-- The rest of a round that has read a line. -/
private def overwriteRead (target : Account) (placeholders : List (String × String)) (env : EnvMap) :
    Option String → Calls (EnvMap ⊕ Except Error Unit × EnvMap)
  | none => return .inr (.error (.io .invalidData),env)
  | some line => do return .inl (← overwriteLine target placeholders env line)

/-- A round fails, comes to the end, finds a line that is no text, or applies one. -/
theorem overwriteRound_cases {out : EnvMap ⊕ Except Error Unit × EnvMap}
    (trace : Trace (overwriteRound target placeholders env) t out) :
    (∃ error, t = [⟨.readLine,.error error⟩] ∧ out = .inr (.error (.io (.os error)),env)) ∨
    (t = [⟨.readLine,.ok none⟩] ∧ out = .inr (.ok (),env)) ∨
    (∃ raw, decode (stripLineEnding raw) = none ∧ t = [⟨.readLine,.ok (some raw)⟩] ∧
      out = .inr (.error (.io .invalidData),env)) ∨
    ∃ raw line u after, decode (stripLineEnding raw) = some line ∧ t = ⟨.readLine,.ok (some raw)⟩ :: u ∧
      out = .inl after ∧ Trace (overwriteLine target placeholders env line) u after := by
  obtain ⟨answer,rest,rfl,continued⟩ := (trace_call _ _ _ _).mp trace
  rcases answer with error | _ | raw
  · obtain ⟨rfl,rfl⟩ := (trace_done _ _ _).mp continued
    exact .inl ⟨error,rfl,rfl⟩
  · obtain ⟨rfl,rfl⟩ := (trace_done _ _ _).mp continued
    exact .inr (.inl ⟨rfl,rfl⟩)
  · have read : Trace (overwriteRead target placeholders env (decode (stripLineEnding raw))) rest out := continued
    cases decoded : decode (stripLineEnding raw) with
    | none =>
      rw [decoded] at read
      obtain ⟨rfl,rfl⟩ := (trace_done _ _ _).mp read
      exact .inr (.inr (.inl ⟨raw,decoded,rfl,rfl⟩))
    | some line =>
      rw [decoded] at read
      obtain ⟨first,after,second,rfl,assigns,ended⟩ := (trace_bind _ _ _ _).mp read
      obtain ⟨rfl,rfl⟩ := (trace_done _ _ _).mp ended
      rw [List.append_nil]
      exact .inr (.inr (.inr ⟨raw,line,first,after,decoded,rfl,rfl,assigns⟩))

private theorem overwriteRound_lookup {out : EnvMap ⊕ Except Error Unit × EnvMap}
    (trace : Trace (overwriteRound target placeholders env) t out) (asked : ∀ x ∈ t, Caller block x) (name : String) :
    (out.elim id Prod.snd).lookup name = (env.lookup name).or (assigned target placeholders block (readLines t) name) := by
  rcases overwriteRound_cases trace with ⟨error,rfl,rfl⟩ | ⟨rfl,rfl⟩ | ⟨raw,invalid,rfl,rfl⟩ |
    ⟨raw,line,u,after,decoded,rfl,rfl,assigns⟩
  · exact (Option.or_none).symm
  · exact (Option.or_none).symm
  · simp [assigned,rawAssigns,invalid,readLines]
  · have lines : readLines (⟨.readLine,.ok (some raw)⟩ :: u) = raw :: readLines u := rfl
    have found := overwriteLine_lookup assigns (fun x member => asked x (List.mem_cons_of_mem _ member)) name
    rw [lines,overwriteLine_reads assigns]
    simpa [assigned,rawAssigns,decoded] using found

/-- The file is left alone, without an error only when it is not there, or it is root's
and safe and its lines are read. -/
theorem loadOverwriteVars_cases {path : String} {out : Except Error Unit × EnvMap}
    (trace : Trace (loadOverwriteVars path target placeholders env) t out) : (out.2 = env ∧ readLines t = [] ∧
      (out.1 = .ok () → ⟨.openFile path,.error .enoent⟩ ∈ t)) ∨
      ∃ found lines, t = ⟨.openFile path,.ok ()⟩ :: ⟨.fileMetadata,.ok found⟩ :: lines ∧ found.uid = 0 ∧
        found.mode &&& 0o022 = 0 ∧ Trace (Program.iterate (overwriteRound target placeholders) env) lines out := by
  obtain ⟨opened,rest,rfl,continued⟩ := (trace_call _ _ _ _).mp trace
  cases opened with
  | error error =>
    have left : Trace (Program.done (if error = .enoent then (.ok (),env) else (.error (.io (.os error)),env)) :
        Calls (Except Error Unit × EnvMap)) rest out := by
      cases error <;> exact continued
    obtain ⟨rfl,rfl⟩ := (trace_done _ _ _).mp left
    split
    · next missing => exact .inl ⟨rfl,rfl,fun _ => missing ▸ List.mem_cons_self⟩
    · exact .inl ⟨rfl,rfl,nofun⟩
  | ok =>
    obtain ⟨found,rest,rfl,checked⟩ := (trace_call _ _ _ _).mp continued
    cases found with
    | error error =>
      obtain ⟨rfl,rfl⟩ := (trace_done _ _ _).mp checked
      exact .inl ⟨rfl,rfl,nofun⟩
    | ok found =>
      change Trace (if found.uid != 0 then Program.done (.error (.staticMessage
          "ignoring environment override file: not owned by root"),env)
        else if found.mode &&& 0o022 != 0 then .done (.error (.staticMessage
          "ignoring environment override file: writable by group or others"),env)
        else Program.iterate (overwriteRound target placeholders) env) rest out at checked
      split at checked
      · obtain ⟨rfl,rfl⟩ := (trace_done _ _ _).mp checked
        exact .inl ⟨rfl,rfl,nofun⟩
      · next root =>
        split at checked
        · obtain ⟨rfl,rfl⟩ := (trace_done _ _ _).mp checked
          exact .inl ⟨rfl,rfl,nofun⟩
        · next safe => exact .inr ⟨found,rest,rfl,by simpa using root,by simpa using safe,checked⟩

/-- Whatever the result, the lines read have added what the map had not got. -/
theorem loadOverwriteVars_lookup {path : String} {out : Except Error Unit × EnvMap}
    (trace : Trace (loadOverwriteVars path target placeholders env) t out)
    (asked : ∀ x ∈ t, Caller block x) (name : String) :
    out.2.lookup name = (env.lookup name).or (assigned target placeholders block (readLines t) name) := by
  rcases loadOverwriteVars_cases trace with ⟨same,unread,_⟩ | ⟨found,lines,rfl,_,_,loop⟩
  · rw [same,unread]
    exact (Option.or_none).symm
  · have late : ∀ x ∈ lines, Caller block x := fun x member =>
      asked x (List.mem_cons_of_mem _ (List.mem_cons_of_mem _ member))
    change out.2.lookup name = (env.lookup name).or (assigned target placeholders block (readLines lines) name)
    refine loop.iterate (fun middle before => (∀ x ∈ before, Caller block x) → middle.lookup name =
        (env.lookup name).or (assigned target placeholders block (readLines before) name))
      (fun out before => (∀ x ∈ before, Caller block x) → out.2.lookup name =
        (env.lookup name).or (assigned target placeholders block (readLines before) name)) ?_ ?_ ?_ late
    · exact fun _ => (Option.or_none).symm
    · intro middle before t next held trace asked
      have earlier := held fun x member => asked x (List.mem_append_left _ member)
      have later := overwriteRound_lookup trace (fun x member => asked x (List.mem_append_right _ member)) name
      rw [readLines_append,assigned_append,← Option.or_assoc,← earlier]
      exact later
    · intro middle before t out held trace asked
      have earlier := held fun x member => asked x (List.mem_append_left _ member)
      have later := overwriteRound_lookup trace (fun x member => asked x (List.mem_append_right _ member)) name
      rw [readLines_append,assigned_append,← Option.or_assoc,← earlier]
      exact later

theorem readLines_answers (t : List (Exchange Call Answer)) : readLines t = (readAnswers t).filterMap fun
    | .ok line => line
    | .error _ => none := by
  rw [readLines,readAnswers,List.filterMap_filterMap]
  congr 1
  funext x
  obtain ⟨event,answer⟩ := x
  cases event with
  | readLine => cases answer <;> rfl
  | _ => rfl

theorem Serves.all {file : List Bytes} (serves : Serves file t) (ended : .ok none ∈ readAnswers t) :
    readLines t = file := by
  obtain ⟨more,whole⟩ := serves.reads
  have every : readAnswers t = file.map (fun raw => .ok (some raw)) ++ [.ok none] := by
    have line : .ok none ∉ file.map (fun raw => (.ok (some raw) : Except Errno (Option Bytes))) := by simp
    rcases List.append_eq_append_iff.mp whole with ⟨rest,before,_⟩ | ⟨last,after,one⟩
    · exact absurd (before ▸ List.mem_append_left rest ended) line
    · rcases List.append_eq_singleton_iff.mp one.symm with ⟨rfl,_⟩ | ⟨rfl,_⟩
      · rw [after,List.append_nil] at ended
        exact absurd ended line
      · exact after
  rw [readLines_answers,every,List.filterMap_append,List.filterMap_map]
  simp

theorem loadOverwriteVars_accepted {path : String} {file : List Bytes}
    (trace : Trace (loadOverwriteVars path target placeholders env) t (.ok (),after)) (serves : Serves file t) :
    readLines t = file := by
  rcases loadOverwriteVars_cases trace with ⟨_,unread,missing⟩ | ⟨found,lines,rfl,_,_,loop⟩
  · rw [unread,serves.absent path (missing rfl)]
  · refine serves.all ?_
    change .ok none ∈ readAnswers lines
    refine loop.iterate (fun _ _ => True) (fun out before => out.1 = .ok () → .ok none ∈ readAnswers before)
      trivial (fun _ _ _ _ _ _ => trivial) ?_ rfl
    intro middle before u out _ trace accepted
    rcases overwriteRound_cases trace with ⟨error,rfl,same⟩ | ⟨rfl,same⟩ | ⟨raw,invalid,rfl,same⟩ |
      ⟨_,_,_,_,_,_,same,_⟩
    · cases same
      cases accepted
    · have split : readAnswers (before ++ [⟨.readLine,.ok none⟩]) = readAnswers before ++ [.ok none] :=
        List.filterMap_append
      rw [split]
      exact List.mem_append_right _ List.mem_cons_self
    · cases same
      cases accepted
    · cases same

end

end Runas
