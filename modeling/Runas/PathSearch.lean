import Runas.Proc
import Runas.Interaction.Course

/-! The search for a command on PATH, against every outcome that exec may have on a path.
The directories are those of the caller's PATH and then of the environment built for
the command, read as bytes. -/
namespace Runas
open Interaction Text

/-- A file of the directory; one slash stands between the two. -/
def inDirectory (directory command : Bytes) : Bytes :=
  if directory.getLast? = some 47 then directory ++ command else directory ++ 47 :: command

/-- The places of a command in the directories of a list, which colons separate; an empty
element is no directory. -/
def places (command path : Bytes) : List Bytes :=
  ((path.splitOn 58).filter fun directory => directory != []).map fun directory => inDirectory directory command

example : places (encode "ls") (encode "/bin::/usr/bin/:") = [encode "/bin/ls",encode "/usr/bin/ls"] := by decide

def entryPath (entry : CString) : Option Bytes :=
  if (encode "PATH=").isPrefixOf entry.bytes then some (entry.bytes.drop 5) else none

def searchPaths (callerPath : Option CString) (envp : List CString) : List Bytes :=
  (callerPath.map CString.bytes).toList ++ envp.filterMap entryPath

/-- Valid UTF-8. -/
def readable (text : CString) : Bool := (decode text.bytes).isSome

/-- The errors after which the search goes on. -/
def passedOver (error : Errno) : Bool := error == .enoent || error == .enotdir || error == .eacces

inductive Ended
  | runs (path : Bytes)
  | fails (error : Error)
  deriving DecidableEq

section
variable (outcome : Bytes → Option Errno)

def PassedOver (path : Bytes) : Prop := ∃ error,outcome path = some error ∧ passedOver error = true

/-- The first path that exec has not passed over decides; without one, whether
permission was denied at any of them does. A path without an error is run. -/
inductive Searched (candidates : List Bytes) : List Bytes → Ended → Prop
  | runs {before after : List Bytes} {path : Bytes} (split : candidates = before ++ path :: after)
      (earlier : ∀ path ∈ before,PassedOver outcome path) (success : outcome path = none) :
      Searched candidates (before ++ [path]) (.runs path)
  | stops {before after : List Bytes} {path : Bytes} {error : Errno} (split : candidates = before ++ path :: after)
      (earlier : ∀ path ∈ before,PassedOver outcome path) (failure : outcome path = some error)
      (grave : passedOver error = false) : Searched candidates (before ++ [path]) (.fails (.errno error))
  | denied (all : ∀ path ∈ candidates,PassedOver outcome path) (refused : ∃ path ∈ candidates,outcome path = some .eacces) :
      Searched candidates candidates (.fails (.errno .eacces))
  | absent (all : ∀ path ∈ candidates,PassedOver outcome path) (unrefused : ∀ path ∈ candidates,outcome path ≠ some .eacces) :
      Searched candidates candidates (.fails (.errno .enoent))

/-- Exec that has this outcome on each path, for a caller with this PATH. -/
def execSystem (callerPath : Option CString) : (event : Call) → Option (Answer event)
  | .execve path _ _ => outcome path.bytes
  | .getenv _ => some (callerPath.map CString.bytes)
  | _ => none

def Ended.At (argv envp : List CString) : Ended → Except Error Empty ⊕ Call → Prop
  | .runs path,last => ∃ file : CString,file.bytes = path ∧ last = .inr (.execve file argv envp)
  | .fails error,last => last = .inl (.error error)

/-- What comes of exec on one path. -/
def attempt (path : Bytes) : Ended := (outcome path).elim (.runs path) fun error => .fails (.errno error)

/-- The program makes no calls but to ask for PATH and to try these paths, in this order and
with the arguments given, and ends so. -/
def Tries (callerPath : Option CString) (argv envp : List CString) (program : M Empty) (tried : List Bytes)
    (ended : Ended) : Prop :=
  ∃ (asked : List Call) (files : List CString) (last : Except Error Empty ⊕ Call),asked <+: [.getenv "PATH"] ∧
    files.map CString.bytes = tried ∧ ended.At argv envp last ∧
    Course (execSystem outcome callerPath) program.run (asked ++ files.map fun file => .execve file argv envp) last

end

section text

private theorem encode_nil_iff (text : List Char) : encode (String.ofList text) = [] ↔ text = [] := by
  cases text <;> simp [encode]

private theorem colon_encode {c : Char} (other : c ≠ ':') : (58 : UInt8) ∉ String.utf8EncodeChar c := by
  intro member
  exact other (Char.ext (UInt32.toNat_inj.mp ((mem_utf8EncodeChar (by decide : 58 < 128) c).mp member)))

private theorem splitOn_append {bytes : Bytes} (plain : (58 : UInt8) ∉ bytes) (rest : Bytes) :
    (bytes ++ rest).splitOn 58 = (rest.splitOn 58).modifyHead (bytes ++ ·) := by
  induction bytes with
  | nil =>
    rw [List.nil_append]
    cases rest.splitOn 58 <;> rfl
  | cons b bytes ih =>
    have other : (b == 58) = false := by
      simpa using fun same : b = 58 => plain (same ▸ List.mem_cons_self)
    rw [List.cons_append,List.splitOn_cons_eq_if_modifyHead,other,
      ih fun member => plain (List.mem_cons_of_mem _ member)]
    cases rest.splitOn 58 <;> rfl

/-- Reading the elements of a list as text or as bytes is the same. -/
private theorem splitOn_encode (text : List Char) :
    (encode (String.ofList text)).splitOn 58 = (split (· == ':') text).map fun part => encode (String.ofList part) := by
  induction text with
  | nil => rfl
  | cons c text ih =>
    have first : encode (String.ofList (c :: text)) = String.utf8EncodeChar c ++ encode (String.ofList text) := by
      simp [encode]
    rw [first,split]
    by_cases colon : c = ':'
    · subst colon
      have here : String.utf8EncodeChar ':' = [58] := by decide
      rw [here,List.singleton_append,List.splitOn_cons_eq_if_modifyHead,ih]
      rfl
    · rw [splitOn_append (colon_encode colon),ih,if_neg (by simpa using colon)]
      cases parts : split (· == ':') text with
      | nil =>
        rw [parts] at ih
        exact (List.splitOn_ne_nil _ _ ih).elim
      | cons part parts => simp [encode]

private theorem inDirectory_encode (directory command : List Char) :
    encode (String.ofList (joinPath directory command)) =
      inDirectory (encode (String.ofList directory)) (encode (String.ofList command)) := by
  have slash : directory.getLast? = some '/' ↔ (encode (String.ofList directory)).getLast? = some 47 := by
    constructor
    · intro last
      obtain ⟨before,rfl⟩ := List.getLast?_eq_some_iff.mp last
      rw [encode_append]
      exact List.getLast?_concat
    · intro last
      obtain ⟨before,whole⟩ := List.getLast?_eq_some_iff.mp last
      obtain ⟨start,same,_⟩ := encode_eq_snoc (c := '/') (by decide) whole
      rw [String.toList_ofList] at same
      rw [same]
      exact List.getLast?_concat
  unfold joinPath inDirectory
  by_cases last : directory.getLast? = some '/'
  · rw [if_pos (by simpa using last),if_pos (slash.mp last),encode_append]
  · rw [if_neg (by simpa using last),if_neg fun ends => last (slash.mpr ends),encode_append]
    simp [encode]
    rfl

private theorem places_encode (command path : String) :
    (candidates command path).map (fun candidate => encode (String.ofList candidate)) = places (encode command) (encode path) := by
  have pieces := splitOn_encode path.toList
  rw [String.ofList_toList] at pieces
  unfold candidates places
  rw [pieces,List.filter_map,List.map_map,List.map_map]
  have kept : (fun part : List Char => !part.isEmpty) =
      (fun directory : Bytes => directory != []) ∘ fun part => encode (String.ofList part) := by
    funext part
    rw [Function.comp_apply,Bool.eq_iff_iff]
    simp [encode_nil_iff]
  rw [kept]
  refine List.map_congr_left fun part _ => ?_
  simpa using inDirectory_encode part command.toList

private theorem entryPath_decoded {entry : CString} {text : String} (decoded : decode entry.bytes = some text) :
    (pathEntry entry).map encode = entryPath entry := by
  have bytes := encode_decode decoded
  have start := @prefix_encode "PATH=".toList (by simp) text.toList
  rw [String.ofList_toList,String.ofList_toList,bytes] at start
  have read : pathEntry entry = if "PATH=".toList.isPrefixOf text.toList then
      some (String.ofList (text.toList.drop 5)) else none := by
    unfold pathEntry
    rw [decoded]
    rfl
  rw [read,entryPath]
  by_cases named : "PATH=".toList <+: text.toList
  · rw [if_pos (List.isPrefixOf_iff_prefix.mpr named),if_pos (List.isPrefixOf_iff_prefix.mpr (start.mpr named)),
      Option.map_some,Option.some.injEq]
    obtain ⟨rest,same⟩ := named
    have whole : entry.bytes = encode "PATH=" ++ encode (String.ofList rest) := by
      have parts := encode_append "PATH=".toList rest
      rwa [same,String.ofList_toList,String.ofList_toList,bytes] at parts
    rw [← same,whole]
    rfl
  · rw [if_neg fun head => named (List.isPrefixOf_iff_prefix.mp head),
      if_neg fun head => named (start.mp (List.isPrefixOf_iff_prefix.mp head))]
    rfl

/-- The paths that are searched are those of the readable entries. -/
private theorem entryPath_encode (envp : List CString) :
    (envp.filterMap pathEntry).map encode = (envp.filter readable).filterMap entryPath := by
  induction envp with
  | nil => rfl
  | cons entry envp ih =>
    cases decoded : decode entry.bytes with
    | none =>
      have unread : pathEntry entry = none := by rw [pathEntry,decoded]; rfl
      rw [List.filterMap_cons_none unread,List.filter_cons_of_neg (by simp [readable,decoded])]
      exact ih
    | some text =>
      rw [List.filter_cons_of_pos (by simp [readable,decoded]),List.filterMap_cons,List.filterMap_cons,
        ← entryPath_decoded decoded]
      cases pathEntry entry with
      | none => exact ih
      | some path => exact congrArg (encode path :: ·) ih

/-- The candidates of the program, as bytes. -/
private theorem candidates_encode (command : String) (callerPath : Option CString) (envp : List CString) :
    ((((callerPath.map CString.bytes).bind decode).toList ++ envp.filterMap pathEntry).flatMap (candidates command)).map
        (fun candidate => encode (String.ofList candidate)) =
      (searchPaths (callerPath.filter readable) (envp.filter readable)).flatMap (places (encode command)) := by
  have paths : (((callerPath.map CString.bytes).bind decode).toList ++ envp.filterMap pathEntry).map encode =
      searchPaths (callerPath.filter readable) (envp.filter readable) := by
    rw [List.map_append,entryPath_encode,searchPaths]
    congr 1
    cases callerPath with
    | none => rfl
    | some path =>
      cases decoded : decode path.bytes with
      | none => simp [Option.filter,readable,decoded]
      | some text => simp [Option.filter,readable,decoded,encode_decode decoded]
  rw [← paths,List.map_flatMap,List.flatMap_map]
  exact List.flatMap_congr fun path _ => places_encode command path

private theorem splitOn_subset {bytes piece : Bytes} (member : piece ∈ bytes.splitOn 58) : piece ⊆ bytes := by
  induction bytes generalizing piece with
  | nil => simp_all
  | cons b bytes ih =>
    rw [List.splitOn_cons_eq_if_modifyHead] at member
    split at member
    · rcases List.mem_cons.mp member with rfl | later
      · exact List.nil_subset _
      · exact List.subset_cons_of_subset b (ih later)
    · cases pieces : bytes.splitOn 58 with
      | nil => exact (List.splitOn_ne_nil _ _ pieces).elim
      | cons first pieces =>
        rw [pieces] at member ih
        rcases List.mem_cons.mp member with rfl | later
        · exact List.cons_subset_cons b (ih List.mem_cons_self)
        · exact List.subset_cons_of_subset b (ih (List.mem_cons_of_mem _ later))

private theorem places_plain {command path : Bytes} (plain : 0 ∉ command) (whole : 0 ∉ path) :
    ∀ place ∈ places command path,0 ∉ place := by
  intro place member
  obtain ⟨directory,inside,rfl⟩ := List.mem_map.mp member
  have clean : 0 ∉ directory := fun zero => whole (splitOn_subset (List.mem_filter.mp inside).1 zero)
  unfold inDirectory
  split <;> simp [plain,clean]

private theorem searchPaths_plain (callerPath : Option CString) (envp : List CString) :
    ∀ path ∈ searchPaths callerPath envp,0 ∉ path := by
  intro path member
  rcases List.mem_append.mp member with caller | entry
  · obtain ⟨found,_,rfl⟩ := Option.map_eq_some_iff.mp (Option.mem_toList.mp caller)
    exact found.noNul
  · obtain ⟨found,_,read⟩ := List.mem_filterMap.mp entry
    unfold entryPath at read
    split at read
    · cases read
      exact fun zero => found.noNul (List.mem_of_mem_drop zero)
    · cases read

end text

section
variable (outcome : Bytes → Option Errno) (callerPath : Option CString) (argv envp : List CString)

/-- What has been passed over, and whether permission was denied there, is all the search
knows of what came before. -/
private theorem tries_tryCandidates (rest : List (List Char)) : ∀ (before : List Bytes) (denied : Bool),
    (∀ candidate ∈ rest,0 ∉ encode (String.ofList candidate)) → (∀ path ∈ before,PassedOver outcome path) →
    (denied = true ↔ ∃ path ∈ before,outcome path = some .eacces) →
    ∃ (files : List CString) (ended : Ended) (last : Except Error Empty ⊕ Call),ended.At argv envp last ∧
      Searched outcome (before ++ rest.map fun candidate => encode (String.ofList candidate))
        (before ++ files.map CString.bytes) ended ∧
      Course (execSystem outcome callerPath) (tryCandidates argv envp denied rest).run
        (files.map fun file => .execve file argv envp) last := by
  induction rest with
  | nil =>
    intro before denied _ passed known
    refine ⟨[],.fails (.errno (if denied then .eacces else .enoent)),_,rfl,?_,.done _⟩
    rw [List.map_nil,List.map_nil,List.append_nil]
    cases denied with
    | true => exact .denied passed (known.mp rfl)
    | false => exact .absent passed fun path member refused => by simpa using known.mpr ⟨path,member,refused⟩
  | cons candidate rest ih =>
    intro before denied plain passed known
    have clean := plain candidate List.mem_cons_self
    have later := fun other member => plain other (List.mem_cons_of_mem candidate member)
    let file : CString := ⟨encode (String.ofList candidate),clean⟩
    have made : CString.new (encode (String.ofList candidate)) = some file := dif_neg clean
    unfold tryCandidates cstr
    rw [made]
    dsimp only
    rw [pure_bind,List.map_cons]
    cases result : outcome file.bytes with
    | none =>
      refine ⟨[file],.runs file.bytes,_,⟨file,rfl,rfl⟩,.runs rfl passed result,?_⟩
      exact .fallible_unanswered result
    | some error =>
      -- where it goes on, the search has one more path behind it
      have further (again : Bool) (soft : passedOver error = true) (known : again = true ↔
          (∃ path ∈ before,outcome path = some .eacces) ∨ error = .eacces) :
          ∃ (files : List CString) (ended : Ended) (last : Except Error Empty ⊕ Call),ended.At argv envp last ∧
            Searched outcome (before ++ file.bytes :: rest.map fun candidate => encode (String.ofList candidate))
              (before ++ (file :: files).map CString.bytes) ended ∧
            Course (execSystem outcome callerPath) (tryCandidates argv envp again rest).run
              (files.map fun file => .execve file argv envp) last := by
        have next := ih (before ++ [file.bytes]) again later (fun path member => by
          rcases List.mem_append.mp member with early | here
          · exact passed path early
          · exact List.mem_singleton.mp here ▸ ⟨error,result,soft⟩) (by
          rw [known]
          simp [or_and_right,exists_or,result])
        simpa only [List.append_assoc,List.singleton_append,List.map_cons] using next
      cases error with
      | enoent | enotdir =>
        obtain ⟨files,ended,last,ends,searched,course⟩ := further denied rfl (by simpa using known)
        exact ⟨file :: files,ended,last,ends,searched,.fallible_answered result course⟩
      | eacces =>
        obtain ⟨files,ended,last,ends,searched,course⟩ := further true rfl (by simp)
        exact ⟨file :: files,ended,last,ends,searched,.fallible_answered result course⟩
      | _ => exact ⟨[file],.fails (.errno _),_,rfl,.stops rfl passed result rfl,.fallible_answered result (.done _)⟩

/-- A command that is text and has no slash is searched for on the caller's PATH and then on
those of the environment, as far as they are text. One with a slash is tried as it is
given, and one that is not text not at all. -/
theorem execvpe_searches (cmd : CString) : ∃ tried ended,Tries outcome callerPath argv envp (execvpe cmd argv envp) tried ended ∧
      (readable cmd = false → tried = [] ∧ ended = .fails (.invalidUtf8 (utf8Error cmd.bytes))) ∧
      (readable cmd = true → 47 ∈ cmd.bytes → tried = [cmd.bytes] ∧ ended = attempt outcome cmd.bytes) ∧
      (readable cmd = true → 47 ∉ cmd.bytes → Searched outcome
        ((searchPaths (callerPath.filter readable) (envp.filter readable)).flatMap (places cmd.bytes)) tried ended) := by
  unfold execvpe
  cases decoded : decode cmd.bytes with
  | none =>
    have unread : readable cmd = false := by rw [readable,decoded]; rfl
    refine ⟨[],.fails (.invalidUtf8 _),⟨[],[],_,List.nil_prefix,rfl,rfl,.done _⟩,fun _ => ⟨rfl,rfl⟩,?_,?_⟩
    · intro read
      rw [unread] at read
      cases read
    · intro read
      rw [unread] at read
      cases read
  | some command =>
    have bytes := encode_decode decoded
    have read : readable cmd = true := by rw [readable,decoded]; rfl
    have slash : 47 ∈ cmd.bytes ↔ '/' ∈ command.toList := bytes ▸ mem_encode (c := '/') (by decide) command
    dsimp only
    rw [read]
    by_cases inside : '/' ∈ command.toList
    · refine ⟨[cmd.bytes],attempt outcome cmd.bytes,?_,by simp,fun _ _ => ⟨rfl,rfl⟩,
        fun _ plain => (plain (slash.mpr inside)).elim⟩
      simp only [if_pos inside]
      cases result : outcome cmd.bytes with
      | none =>
        refine ⟨[],[cmd],_,List.nil_prefix,rfl,?_,.fallible_unanswered result⟩
        rw [attempt,result]
        exact ⟨cmd,rfl,rfl⟩
      | some error =>
        refine ⟨[],[cmd],_,List.nil_prefix,rfl,?_,.fallible_answered result (.done _)⟩
        rw [attempt,result]
        rfl
    · simp only [if_neg inside]
      have plain : 0 ∉ encode command := bytes ▸ cmd.noNul
      have same := candidates_encode command callerPath envp
      have clean : ∀ place ∈ (searchPaths (callerPath.filter readable) (envp.filter readable)).flatMap
          (places (encode command)),0 ∉ place := by
        intro place member
        obtain ⟨path,found,here⟩ := List.mem_flatMap.mp member
        exact places_plain plain (searchPaths_plain _ _ path found) place here
      rw [← same] at clean
      obtain ⟨files,ended,last,ends,searched,course⟩ := tries_tryCandidates outcome callerPath argv envp _ [] false
        (fun candidate member => clean _ (List.mem_map_of_mem member)) (by simp) (by simp)
      refine ⟨files.map CString.bytes,ended,⟨[.getenv "PATH"],files,last,List.prefix_rfl,rfl,ends,?_⟩,by simp,
        fun _ member => (inside (slash.mp member)).elim,fun _ _ => ?_⟩
      · have asked : execSystem outcome callerPath (.getenv "PATH") = some (callerPath.map CString.bytes) := rfl
        exact .answered asked course
      · rw [List.nil_append,same,bytes] at searched
        exact searched

end

/-- Where exec succeeds on every path, all the search lists there are have been searched. -/
def SearchesAll (callerPath : Option CString) (envp : List CString) (cmd : CString) : Prop :=
  ∃ tried ended,Tries (fun _ => none) callerPath [] envp (execvpe cmd [] envp) tried ended ∧
    Searched (fun _ => none) ((searchPaths callerPath envp).flatMap (places cmd.bytes)) tried ended

/-- A run that fails has left a list out if there is a place for the command. -/
private theorem omits {callerPath : Option CString} {envp : List CString} {cmd : CString} {made : List Call} {error : Error}
    (course : Course (execSystem (fun _ => none) callerPath) (execvpe cmd [] envp).run made (.inl (.error error)))
    (place : Bytes) (there : place ∈ (searchPaths callerPath envp).flatMap (places cmd.bytes)) :
    ¬ SearchesAll callerPath envp cmd := by
  rintro ⟨tried,ended,⟨asked,files,last,_,_,ends,other⟩,searched⟩
  obtain ⟨_,rfl⟩ := course.unique other
  cases searched with
  | runs =>
    obtain ⟨_,_,same⟩ := ends
    cases same
  | stops _ _ failure => cases failure
  | denied all | absent all =>
    obtain ⟨_,failure,_⟩ := all place there
    cases failure

private def listing : CString := ⟨encode "ls",by decide⟩

private def programs : CString := ⟨encode "/bin",by decide⟩

private def bytePath : CString := ⟨[47,255],by decide⟩

private def byteEntry : CString := ⟨encode "PATH=" ++ bytePath.bytes,by decide⟩

/-- A command of one byte that is no text is not tried in the one directory there is, and a
directory that is no text is searched neither in the caller's list nor in that of an entry. -/
theorem execvpe_unreadable : 47 ∉ [(255 : UInt8)] ∧ ¬ SearchesAll (some programs) [] ⟨[255],by decide⟩ ∧
    47 ∉ listing.bytes ∧ ¬ SearchesAll (some bytePath) [] listing ∧ ¬ SearchesAll none [byteEntry] listing := by
  have refused : Course (execSystem (fun _ => none) (some programs)) (execvpe ⟨[255],by decide⟩ [] []).run []
      (.inl (.error (.invalidUtf8 (utf8Error [255])))) := by
    have unread : decode [255] = none := by decide
    unfold execvpe
    rw [unread]
    exact .done _
  have command : decode listing.bytes = some "ls" := decode_encode "ls"
  have unheard : Course (execSystem (fun _ => none) (some bytePath)) (execvpe listing [] []).run [.getenv "PATH"]
      (.inl (.error (.errno .enoent))) := by
    unfold execvpe
    rw [command]
    have asked : execSystem (fun _ => none) (some bytePath) (.getenv "PATH") = some (some bytePath.bytes) := rfl
    exact .answered asked (.done _)
  have unlisted : Course (execSystem (fun _ => none) none) (execvpe listing [] [byteEntry]).run [.getenv "PATH"]
      (.inl (.error (.errno .enoent))) := by
    unfold execvpe
    rw [command]
    have asked : execSystem (fun _ => none) none (.getenv "PATH") = some none := rfl
    exact .answered asked (.done _)
  refine ⟨by decide,omits refused [47,98,105,110,47,255] (by decide),by decide,
    omits unheard [47,255,47,108,115] (by decide),omits unlisted [47,255,47,108,115] (by decide)⟩

end Runas
