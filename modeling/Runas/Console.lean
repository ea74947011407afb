import Runas.Passwd
import Runas.Editing
import Runas.Interaction.Total
import Runas.Interaction.Rounds

/-! The prompt against a terminal or a standard input: the bytes that arrive, the signals that
come between them, and what has been shown by the time of each read. -/
namespace Runas
open Interaction Text Editing

inductive Arrival
  | byte (b : UInt8)
  | signal (signal : Signal)
  deriving DecidableEq

/-- What is still to arrive, what has been written to the display, and what that was at each
read. The end of the input follows the last arrival. -/
structure Console where
  input : List Arrival
  shown : Bytes
  screens : List Bytes
  deriving DecidableEq

namespace Console

def signalled (k : Console) : Bool :=
  match k.input with
  | .signal _ :: _ => true
  | _ => false

/-- A signal that has arrived can be read from the signalfd. Otherwise the input has something
to read, or is at its end. -/
def Ready (source : Fd) (k : Console) (fds : List (Option Fd)) (events : Fin fds.length → Option PollFlags) : Prop :=
  ∀ i,(fds.get i = some .signal → events i = some ⟨k.signalled,false,false,false⟩) ∧
    (fds.get i = some source → k.signalled = false → ∃ flags,events i = some flags ∧ (flags.pollin || flags.pollhup) = true)

end Console

/-- The system around a prompt that reads from `source`; the terminal can be opened or not. A
read takes some of the bytes that have arrived, a write some of those given. Signals that come
while none is blocked are delivered when the program raises one. -/
def console (source : Fd) (opens : Bool) (k : Console) : (event : Call) → Answer event → Console → Prop
  | .openFd _,answer,k' => (answer = .ok () ↔ opens = true) ∧ k' = k
  | .sigmask _ _,answer,k' => (∃ mask,answer = .ok mask) ∧ k' = k
  | .signalfd _,answer,k' => answer = .ok () ∧ k' = k
  | .tcgetattr _,answer,k' => (∃ termios,answer = .ok termios) ∧ k' = k
  | .tcsetattr _ _,answer,k' => answer = .ok () ∧ k' = k
  | .poll fds,answer,k' => (∃ events,answer = .ok events ∧ k.Ready source fds events) ∧ k' = k
  | .read _ count,answer,k' => ∃ bytes : Bytes,∃ rest,answer = .ok bytes ∧ k.input = bytes.map .byte ++ rest ∧
      bytes.length ≤ count ∧ (bytes = [] → k.input = []) ∧ k' = ⟨rest,k.shown,k.screens ++ [k.shown]⟩
  | .write _ bytes,answer,k' => ∃ n,answer = .ok n ∧ 0 < n ∧ n ≤ bytes.length ∧ k' = { k with shown := k.shown ++ bytes.take n }
  | .readSignal _,answer,k' => ∃ signal rest,k.input = .signal signal :: rest ∧ answer = .ok (some signal.number) ∧
      k' = { k with input := rest }
  | .raise _,_,k' => ∃ delivered : List Signal,∃ rest,k.input = delivered.map .signal ++ rest ∧ k' = { k with input := rest }
  | _,_,k' => k' = k

/-- What a line in a prompt ends with. -/
def isEnter (b : UInt8) : Bool := b = 13 || b = 10

/-- What is typed up to the first line ending, signal or end of the input, the signal if it is
one, and what is left of the input then. -/
structure Typing where
  keys : Bytes
  signal : Option Signal
  rest : List Arrival
  deriving DecidableEq

def typing : List Arrival → Typing
  | [] => ⟨[],none,[]⟩
  | .signal signal :: rest => ⟨[],some signal,rest⟩
  | .byte b :: rest => if isEnter b then ⟨[],none,rest⟩ else { typing rest with keys := b :: (typing rest).keys }

/-- How often the prompt reads: once for each key, and once for what ends the line. -/
def Typing.reads (typing : Typing) : Nat := typing.keys.length + if typing.signal = none then 1 else 0

def inputFd (flags : RunFlags) (opens : Bool) : Fd :=
  if !flags.meets .authStdin && opens then .tty else .stdin

/-- The line is hidden: stars are shown for it, and backspaces delete. -/
def hides (flags : RunFlags) : Bool := !flags.meets .authStdin && flags.meets .promptHide

def stroke (hidden : Bool) (b : UInt8) : Stroke UInt8 := if hidden && (b = 127 || b = 8) then .erase else .put b

/-- As many bytes as the buffer and the count of those left out can stand for. -/
def maxHeld : Nat := maxInputLen + (2^64 - 1)

def Line.of (text : Bytes) : Line := ⟨text.take maxInputLen,text.length - maxInputLen⟩

def lineResult (text : Bytes) : Except Error String :=
  if maxInputLen < text.length then .error tooLong
  else match decode text with
    | some password => .ok password
    | none => .error (.invalidUtf8 (utf8Error text))

/-- A text and what has been shown for it. -/
structure Struck where
  text : Bytes
  echo : Bytes
  deriving DecidableEq

def Struck.key (hidden : Bool) (struck : Struck) (b : UInt8) : Struck where
  text := pressWithin maxHeld struck.text (stroke hidden b)
  echo := struck.echo ++ (if !hidden then [] else if stroke hidden b ≠ .erase then [42]
    else if struck.text ≠ [] then erase else [])

def struck (hidden : Bool) (keys : Bytes) : Struck := keys.foldl (Struck.key hidden) ⟨[],[]⟩

def promptResult (hidden : Bool) (typing : Typing) : Except Error String :=
  match typing.signal with
  | some signal => .error (.interrupted signal)
  | none => lineResult (struck hidden typing.keys).text

/-- What is on display at the first reads of a line. -/
def views (hidden : Bool) (shown keys : Bytes) (reads : Nat) : List Bytes :=
  (List.range reads).map fun i => shown ++ (struck hidden (keys.take i)).echo

def promptShown (msg : String) : Bytes := encode msg ++ (if msg.toList.getLast? ≠ some ' ' then [32] else [])

section
variable {source : Fd} {opens : Bool} {k : Console}

@[simp] theorem Line.buffer_of (text : Bytes) : (Line.of text).buffer = text.take maxInputLen := rfl

@[simp] theorem Line.overflow_of (text : Bytes) : (Line.of text).overflow = text.length - maxInputLen := rfl

private theorem Line.of_append {text : Bytes} (fits : text.length ≤ maxHeld) (b : UInt8) :
    (Line.of text).push b = Line.of (pressWithin maxHeld text (.put b)) := by
  have sizes : maxHeld = maxInputLen + (2^64 - 1) := rfl
  have lands : pressWithin maxHeld text (.put b) = if text.length < maxHeld then text ++ [b] else text := rfl
  unfold Line.push
  rw [lands]
  by_cases room : text.length < maxInputLen
  · have whole : (text ++ [b]).length ≤ maxInputLen := by simp; omega
    rw [if_pos (by simp; omega),if_pos (by omega)]
    simp only [Line.of,List.take_of_length_le room.le,List.take_of_length_le whole,Line.mk.injEq,true_and]
    omega
  · rw [if_neg (by simp; omega)]
    by_cases counts : text.length < maxHeld
    · rw [if_pos (by simp; omega),if_pos counts]
      simp only [Line.of,List.take_append_of_le_length (Nat.not_lt.mp room),Line.mk.injEq,true_and,List.length_append,
        List.length_singleton]
      omega
    · rw [if_neg (by simp; omega),if_neg counts]

private theorem Line.of_dropLast {text : Bytes} (beyond : maxInputLen < text.length) :
    { Line.of text with overflow := (Line.of text).overflow - 1 } = Line.of text.dropLast := by
  unfold Line.of
  rw [List.dropLast_eq_take,List.take_take,Nat.min_eq_left (by omega)]
  simp only [List.length_take,Line.mk.injEq,true_and]
  omega

private theorem Line.of_dropLast_buffer {text : Bytes} (within : text.length ≤ maxInputLen) :
    { Line.of text with buffer := (Line.of text).buffer.dropLast } = Line.of text.dropLast := by
  have shorter : text.dropLast.length ≤ maxInputLen := by simp; omega
  unfold Line.of
  rw [List.take_of_length_le within,List.take_of_length_le shorter]
  simp only [List.length_dropLast,Line.mk.injEq,true_and]
  omega

theorem Prompt.write_ends (prompt : Prompt) (bytes : Bytes) : Total (console source opens)
    (fun out k' => out = .ok () ∧ k' = { k with shown := k.shown ++ bytes }) (prompt.write bytes).run k := by
  refine Total.fallible_iterate (fun left now => { now with shown := now.shown ++ left } = { k with shown := k.shown ++ bytes })
    (fun left _ => left.length) rfl fun left now kept => ?_
  cases left with
  | nil =>
    rw [List.append_nil] at kept
    exact .done ⟨rfl,kept⟩
  | cons b left =>
    refine .call ⟨.ok 1,_,1,rfl,by simp,by simp,rfl⟩ fun answer after taken => ?_
    obtain ⟨n,rfl,some,short,rfl⟩ := taken
    obtain ⟨n,rfl⟩ := Nat.exists_eq_succ_of_ne_zero some.ne'
    refine .done ⟨?_,?_⟩
    · rw [← kept]
      simp
    · rw [List.length_drop,List.length_cons]
      omega

/-- What a read of one byte gives, `none` for a signal, and how it leaves the console. -/
def Console.next (k : Console) : Option Bytes × Console :=
  match k.input with
  | [] => (some [],⟨[],k.shown,k.screens ++ [k.shown]⟩)
  | .byte b :: rest => (some [b],⟨rest,k.shown,k.screens ++ [k.shown]⟩)
  | .signal _ :: _ => (none,k)

private theorem Console.ready (k : Console) (other : source ≠ .signal) (fds : List (Option Fd)) :
    k.Ready source fds fun i => some ⟨fds.get i != some .signal || k.signalled,false,false,false⟩ := by
  intro i
  constructor
  · intro interrupts
    simp only [interrupts,bne_self_eq_false,Bool.false_or]
  · intro reads still
    exact ⟨_,rfl,by simp only [reads,Bool.or_false,Bool.or_eq_true,bne_iff_ne]; exact .inl (by simpa using other)⟩

private theorem Console.read_one {fd : Fd} (still : k.signalled = false) :
    (∃ answer k',console source opens k (.read fd 1) answer k') ∧ ∀ answer k',console source opens k (.read fd 1) answer k' →
      ∃ bytes,answer = .ok bytes ∧ k.next = (some bytes,k') := by
  obtain ⟨input,shown,screens⟩ := k
  rcases input with _ | ⟨b | signal,rest⟩
  · refine ⟨⟨_,_,[],[],rfl,rfl,Nat.zero_le _,fun _ => rfl,rfl⟩,?_⟩
    rintro answer k' ⟨bytes,rest,rfl,split,_,_,rfl⟩
    obtain ⟨none,rfl⟩ := List.append_eq_nil_iff.mp split.symm
    rw [List.map_eq_nil_iff.mp none]
    exact ⟨[],rfl,rfl⟩
  · refine ⟨⟨_,_,[b],rest,rfl,rfl,le_rfl,by simp,rfl⟩,?_⟩
    rintro answer k' ⟨bytes,left,rfl,split,short,ended,rfl⟩
    rcases bytes with _ | ⟨c,bytes⟩
    · cases ended rfl
    · obtain rfl : bytes = [] := List.eq_nil_of_length_eq_zero (by simpa using short)
      cases split
      exact ⟨[b],rfl,rfl⟩
  · cases still

private theorem ignoring_write (prompt : Prompt) (bytes : Bytes) : Total (console source opens)
    (fun _ k' => k' = { k with shown := k.shown ++ bytes }) (ignoring (prompt.write bytes)) k :=
  .bind ((prompt.write_ends bytes).mono fun _ _ ends => .done ends.2)

private theorem receiver_read (receiver : SignalReceiver) {signal : Signal} {rest : List Arrival}
    (arrives : k.input = .signal signal :: rest) : Total (console source opens)
      (fun out k' => out = .ok (some ⟨signal.number⟩) ∧ k' = { k with input := rest }) receiver.read.run k := by
  unfold SignalReceiver.read
  refine .fallible_ask ⟨.ok (some signal.number),_,signal,rest,arrives,rfl,rfl⟩ fun answer k' taken => ?_
  obtain ⟨other,left,same,rfl,rfl⟩ := taken
  rw [arrives] at same
  cases same
  exact .done ⟨rfl,rfl⟩

theorem struck_concat (hidden : Bool) (keys : Bytes) (b : UInt8) :
    struck hidden (keys ++ [b]) = (struck hidden keys).key hidden b := by
  simp [struck,List.foldl_append]

private theorem length_struck_le (hidden : Bool) (keys : Bytes) : (struck hidden keys).text.length ≤ maxHeld := by
  induction keys using List.reverseRecOn with
  | nil => exact Nat.zero_le _
  | append_singleton keys b ih =>
    rw [struck_concat]
    exact length_pressWithin ih _

private theorem views_concat {hidden : Bool} {shown keys : Bytes} (b : UInt8) {reads : Nat} (few : reads ≤ keys.length + 1) :
    views hidden shown (keys ++ [b]) reads = views hidden shown keys reads := by
  apply List.map_congr_left
  intro i inside
  have early : i ≤ keys.length := by
    have small := List.mem_range.mp inside
    omega
  rw [List.take_append_of_le_length early]

private theorem views_succ (hidden : Bool) (shown keys : Bytes) :
    views hidden shown keys (keys.length + 1) = views hidden shown keys keys.length ++ [shown ++ (struck hidden keys).echo] := by
  simp [views,List.range_succ]

/-- A prompt that reads from the source and has not met its end, with its receiver of signals. -/
structure Attached (prompt : Prompt) (signals : SignalReceiver) (source : Fd) : Prop where
  reads : prompt.input = source
  opened : prompt.inputEof = false
  interrupts : prompt.interrupt = .signal
  receives : signals.fd = .signal
  other : source ≠ .signal

section attached
variable {prompt : Prompt} {signals : SignalReceiver} (attached : Attached prompt signals source)
include attached

private theorem read_ends : Total (console source opens)
    (fun out k' => (∃ prompt',out = .ok (k.next.1,prompt')) ∧ k' = k.next.2) (prompt.read 1).run k := by
  obtain ⟨reads,opened,interrupts,_,other⟩ := attached
  refine Total.fallible_iterate (fun _ now => now = k) (fun _ _ => 0) rfl fun _ now same => ?_
  subst same
  unfold Prompt.readRound
  rw [reads,opened,interrupts]
  refine .fallible_ask ⟨_,now,⟨_,rfl,now.ready other _⟩,rfl⟩ fun answer after taken => ?_
  obtain ⟨⟨events,rfl,ready⟩,rfl⟩ := taken
  have first := (ready 0).1 rfl
  have second := (ready 1).2 rfl
  dsimp only
  simp only [first,Option.getD_some,Bool.or_self]
  cases waits : after.signalled with
  | true =>
    obtain ⟨input,shown,screens⟩ := after
    rcases input with _ | ⟨b | signal,rest⟩
    · cases waits
    · cases waits
    · exact .done ⟨⟨_,rfl⟩,rfl⟩
  | false =>
    obtain ⟨flags,there,readable⟩ := second waits
    obtain ⟨reads,taken⟩ := Console.read_one waits
    simp only [there,Option.getD_some,readable,Bool.false_eq_true,if_false,if_true]
    refine .fallible_ask reads fun answer k' read => ?_
    obtain ⟨bytes,rfl,next⟩ := taken answer k' read
    rw [next]
    exact .done ⟨⟨_,rfl⟩,rfl⟩

variable {useStdin hide : Bool} {line : Struck}

theorem editRound_ended (ended : k.input = [] ∨ ∃ b rest,k.input = .byte b :: rest ∧ isEnter b = true) :
    Total (console source opens) (fun out k' => out = .ok (.inr (Line.of line.text)) ∧ k' = k.next.2)
      (editRound prompt signals useStdin hide (Line.of line.text)).run k := by
  unfold editRound
  refine .fallible_bind ((read_ends attached).mono ?_)
  rintro out k' ⟨⟨prompt',rfl⟩,rfl⟩
  obtain ⟨input,shown,screens⟩ := k
  rcases ended with rfl | ⟨b,rest,rfl,enter⟩
  · exact .done ⟨rfl,rfl⟩
  · have ends : (b = 13 || b = 10) = true := enter
    dsimp only [Console.next]
    rw [if_pos ends]
    exact .done ⟨rfl,rfl⟩

theorem editRound_signal {signal : Signal} {rest : List Arrival} (arrives : k.input = .signal signal :: rest) :
    Total (console source opens) (fun out k' => out = .error (.interrupted signal) ∧ k' = { k with input := rest })
      (editRound prompt signals useStdin hide (Line.of line.text)).run k := by
  unfold editRound
  refine .fallible_bind ((read_ends attached).mono ?_)
  rintro out k' ⟨⟨prompt',rfl⟩,rfl⟩
  obtain ⟨input,shown,screens⟩ := k
  obtain rfl : input = _ := arrives
  refine .fallible_bind ((receiver_read signals rfl).mono ?_)
  rintro out k' ⟨rfl,rfl⟩
  dsimp only [SignalEvent.signal]
  rw [Signal.ofNumber?_number]
  exact .done ⟨rfl,rfl⟩

private def backOver (prompt : Prompt) (line : Line) : M (Line ⊕ Line) := do
  if line.overflow ≠ 0 then
    ignoring (prompt.write erase)
    return .inl { line with overflow := line.overflow - 1 }
  else if line.buffer ≠ [] then
    ignoring (prompt.write erase)
    return .inl { line with buffer := line.buffer.dropLast }
  else return .inl line

omit attached in
/-- The count of what was left out is taken back first, then the buffer. -/
private theorem backOver_ends (text : Bytes) : Total (console source opens) (fun out k' =>
      out = .ok (.inl (Line.of text.dropLast)) ∧ k' = { k with shown := k.shown ++ if text ≠ [] then erase else [] })
    (backOver prompt (Line.of text)).run k := by
  unfold backOver
  by_cases beyond : maxInputLen < text.length
  · have overflows : (Line.of text).overflow ≠ 0 := by simp; omega
    have nonempty : text ≠ [] := List.ne_nil_of_length_pos (by omega)
    rw [if_pos overflows,if_pos nonempty]
    refine .fallible_bind (.lift ((ignoring_write prompt erase).mono ?_))
    rintro _ _ rfl
    exact .done ⟨by rw [← Line.of_dropLast beyond],rfl⟩
  · have within : ¬ (Line.of text).overflow ≠ 0 := by simp; omega
    rw [if_neg within]
    by_cases empty : text = []
    · rw [if_neg (not_not.mpr empty),if_neg (by simp [empty])]
      exact .done ⟨by rw [empty]; rfl,by simp⟩
    · have holds : (Line.of text).buffer ≠ [] := by simp [empty,maxInputLen]
      rw [if_pos holds,if_pos empty]
      refine .fallible_bind (.lift ((ignoring_write prompt erase).mono ?_))
      rintro _ _ rfl
      exact .done ⟨by rw [← Line.of_dropLast_buffer (Nat.not_lt.mp beyond)],rfl⟩

theorem editRound_key (fits : line.text.length ≤ maxHeld) {before : Bytes} (shows : k.shown = before ++ line.echo)
    {b : UInt8} {rest : List Arrival} (arrives : k.input = .byte b :: rest) (key : isEnter b = false) :
    Total (console source opens) (fun out k' => out = .ok (.inl (Line.of (line.key (!useStdin && hide) b).text)) ∧
        k' = { k.next.2 with shown := before ++ (line.key (!useStdin && hide) b).echo })
      (editRound prompt signals useStdin hide (Line.of line.text)).run k := by
  unfold editRound
  refine .fallible_bind ((read_ends attached).mono ?_)
  rintro out k' ⟨⟨prompt',rfl⟩,rfl⟩
  obtain ⟨input,shown,screens⟩ := k
  obtain rfl : input = _ := arrives
  obtain rfl : shown = _ := shows
  have goes : ¬ (b = 13 || b = 10) = true := by rw [← isEnter,key]; exact Bool.false_ne_true
  dsimp only [Console.next]
  rw [if_neg goes]
  generalize (!useStdin && hide) = hidden
  by_cases erases : (hidden && (b = 127 || b = 8)) = true
  · obtain rfl : hidden = true := (Bool.and_eq_true_iff.mp erases).1
    have back : stroke true b = .erase := if_pos erases
    have after : line.key true b = ⟨line.text.dropLast,line.echo ++ if line.text ≠ [] then erase else []⟩ := by
      rw [Struck.key,back]
      simp [pressWithin]
    rw [if_pos erases,after]
    refine (backOver_ends line.text).mono ?_
    rintro out k' ⟨rfl,rfl⟩
    exact ⟨rfl,by simp⟩
  · have puts : stroke hidden b = .put b := if_neg erases
    have pushed := Line.of_append fits b
    rw [if_neg erases]
    cases hidden with
    | true =>
      refine .fallible_bind (.lift ((ignoring_write prompt [42]).mono ?_))
      rintro _ _ rfl
      refine .done ⟨?_,?_⟩
      · simp only [pushed,Struck.key,puts]
      · simp [Struck.key,puts]
    | false =>
      refine .done ⟨?_,?_⟩
      · simp only [pushed,Struck.key,puts]
      · simp [Struck.key]

/-- The whole loop follows what is typed. -/
theorem editing_ends : Total (console source opens) (fun out k' =>
      out = (match (typing k.input).signal with
        | none => .ok (Line.of (struck (!useStdin && hide) (typing k.input).keys).text)
        | some signal => .error (.interrupted signal)) ∧
      k'.input = (typing k.input).rest ∧
      k'.screens = k.screens ++ views (!useStdin && hide) k.shown (typing k.input).keys (typing k.input).reads)
    (Fallible.iterate (editRound prompt signals useStdin hide) ⟨[],0⟩).run k := by
  refine Total.fallible_iterate (fun line now => ∃ keys,line = Line.of (struck (!useStdin && hide) keys).text ∧
      now.shown = k.shown ++ (struck (!useStdin && hide) keys).echo ∧
      now.screens = k.screens ++ views (!useStdin && hide) k.shown keys keys.length ∧
      typing k.input = { typing now.input with keys := keys ++ (typing now.input).keys })
    (fun _ now => now.input.length) ⟨[],by simp [struck,Line.of],by simp [struck],by simp [views],rfl⟩ fun line now kept => ?_
  obtain ⟨keys,rfl,shows,screens,types⟩ := kept
  have seen := views_succ (!useStdin && hide) k.shown keys
  rw [← shows] at seen
  rcases input : now.input with _ | ⟨b | signal,rest⟩
  · refine (editRound_ended attached (.inl input)).mono ?_
    rintro _ _ ⟨rfl,rfl⟩
    rw [input,typing] at types
    simp only [Console.next,input,types,List.append_nil,Typing.reads,if_true,seen,screens,List.append_assoc,
      and_self]
  · cases enter : isEnter b with
    | true =>
      refine (editRound_ended attached (.inr ⟨b,rest,input,enter⟩)).mono ?_
      rintro _ _ ⟨rfl,rfl⟩
      rw [input,typing,if_pos enter] at types
      simp only [Console.next,input,types,List.append_nil,Typing.reads,if_true,seen,screens,List.append_assoc,
        and_self]
    | false =>
      refine (editRound_key attached (length_struck_le _ keys) shows input enter).mono ?_
      rintro _ _ ⟨rfl,rfl⟩
      rw [← struck_concat]
      refine ⟨⟨keys ++ [b],rfl,rfl,?_,?_⟩,?_⟩
      · simp [Console.next,input,screens,views_concat,seen]
      · rw [types,input,typing,if_neg (by simp [enter])]
        simp [Console.next,input]
      · simp [Console.next,input]
  · refine (editRound_signal attached input).mono ?_
    rintro _ _ ⟨rfl,rfl⟩
    rw [input,typing] at types
    simp [types,Typing.reads,screens]

end attached

private theorem install_ends : Total (console source opens)
    (fun out k' => (∃ mask,out = .ok ⟨.signal,mask⟩) ∧ k' = k) (SignalReceiver.install promptSignals).run k := by
  unfold SignalReceiver.install
  rw [if_neg (by decide)]
  refine .fallible_ask ⟨.ok [],k,⟨_,rfl⟩,rfl⟩ fun answer after taken => ?_
  obtain ⟨⟨mask,rfl⟩,rfl⟩ := taken
  refine .fallible_ask ⟨.ok (),after,rfl,rfl⟩ fun answer after taken => ?_
  obtain ⟨rfl,rfl⟩ := taken
  exact .done ⟨⟨mask,rfl⟩,rfl⟩

private theorem receiver_drop (receiver : SignalReceiver) :
    Total (console source opens) (fun _ k' => k' = k) receiver.drop k := by
  unfold SignalReceiver.drop
  refine .call ⟨.ok [],k,⟨[],rfl⟩,rfl⟩ fun answer after taken => ?_
  obtain ⟨_,rfl⟩ := taken
  refine .call ⟨.ok (),after,rfl⟩ fun answer after taken => ?_
  obtain rfl : after = _ := taken
  exact .done rfl

private theorem closeOwned_ends (prompt : Prompt) :
    Total (console source opens) (fun _ k' => k' = k) prompt.closeOwned k := by
  have closes (fd : Fd) (next : Unit → Calls Unit) (rest : Total (console source opens) (fun _ k' => k' = k) (next ()) k) :
      Total (console source opens) (fun _ k' => k' = k) ((discard (.close fd)).bind next) k := by
    refine .call ⟨.ok (),k,rfl⟩ fun answer after taken => ?_
    obtain rfl : after = _ := taken
    exact rest
  have last : Total (console source opens) (fun _ k' => k' = k) (discard (.close prompt.input)) k :=
    closes prompt.input (fun _ => .done ()) (.done rfl)
  unfold Prompt.closeOwned
  split
  · split
    · exact closes prompt.output _ last
    · exact last
  · exact .done rfl

private theorem prompt_drop (prompt : Prompt) :
    Total (console source opens) (fun _ k' => k'.input = k.input ∧ k'.screens = k.screens) prompt.drop k := by
  unfold Prompt.drop
  cases prompt.termios with
  | none => exact (closeOwned_ends prompt).mono fun _ _ same => same ▸ ⟨rfl,rfl⟩
  | some original =>
    refine .call ⟨.ok 1,_,1,rfl,by simp,by simp,rfl⟩ fun answer after taken => ?_
    obtain ⟨n,rfl,_,_,rfl⟩ := taken
    refine .call ⟨.ok (),_,rfl,rfl⟩ fun answer after taken => ?_
    obtain ⟨rfl,rfl⟩ := taken
    exact (closeOwned_ends prompt).mono fun _ _ same => same ▸ ⟨rfl,rfl⟩

private theorem hideInput_ends (prompt : Prompt) : Total (console source opens)
    (fun out k' => (∃ termios,out = (.ok (),{ prompt with termios := some termios })) ∧ k' = k) prompt.hideInput k := by
  unfold Prompt.hideInput
  refine .ask ⟨.ok ⟨true,true,0⟩,k,⟨_,rfl⟩,rfl⟩ fun answer after taken => ?_
  obtain ⟨⟨termios,rfl⟩,rfl⟩ := taken
  refine .ask ⟨.ok (),after,rfl,rfl⟩ fun answer after taken => ?_
  obtain ⟨rfl,rfl⟩ := taken
  exact .done ⟨⟨termios,rfl⟩,rfl⟩

/-- What a prompt ends with, and how it leaves the console. -/
private def Follows (k : Console) (hidden : Bool) (shown : Bytes) (out : Except Error String) (k' : Console) : Prop :=
  out = promptResult hidden (typing k.input) ∧ k'.input = (typing k.input).rest ∧
    k'.screens = k.screens ++ views hidden shown (typing k.input).keys (typing k.input).reads

private theorem takeLine_ends {prompt : Prompt} {signals : SignalReceiver} (attached : Attached prompt signals source)
    (useStdin hide : Bool) : Total (console source opens) (Follows k (!useStdin && hide) k.shown)
      (takeLine prompt signals useStdin hide).run k := by
  unfold takeLine
  refine .fallible_bind ((editing_ends attached).mono ?_)
  rintro out k' ⟨rfl,rest,screens⟩
  unfold Follows promptResult lineResult
  cases (typing k.input).signal with
  | some signal => exact ⟨rfl,rest,screens⟩
  | none =>
    dsimp only
    generalize (struck (!useStdin && hide) (typing k.input).keys).text = text
    by_cases long : maxInputLen < text.length
    · rw [if_pos long,if_pos (by simp; omega)]
      exact .done ⟨rfl,rest,screens⟩
    · rw [if_neg long,if_neg (by simp; omega)]
      simp only [Line.buffer_of,List.take_of_length_le (Nat.not_lt.mp long)]
      cases decode text with
      | none | some _ => exact .done ⟨rfl,rest,screens⟩

private theorem released {release : Calls Unit} {body : M String} {hidden : Bool} {shown : Bytes} {before : Console}
    (quiet : ∀ k,Total (console source opens) (fun _ k' => k'.input = k.input ∧ k'.screens = k.screens) release k)
    (ends : Total (console source opens) (Follows before hidden shown) body.run k) :
    Total (console source opens) (Follows before hidden shown) (Fallible.releasing release body).run k := by
  refine .releasing (ends.mono fun out k' held => (quiet k').mono ?_)
  rintro _ after ⟨input,screens⟩
  exact ⟨held.1,input.trans held.2.1,screens.trans held.2.2⟩

private theorem promptBody_ends (msg : String) {prompt : Prompt} {signals : SignalReceiver}
    (attached : Attached prompt signals source) (useStdin hide : Bool) : Total (console source opens)
      (Follows k (!useStdin && hide) (k.shown ++ if useStdin then [] else promptShown msg))
      (promptBody msg signals useStdin hide (.ok ()) prompt).run k := by
  have typed (shown : Bytes) : Total (console source opens) (Follows k (!useStdin && hide) shown)
      (takeLine prompt signals useStdin hide).run { k with shown := shown } :=
    @takeLine_ends source opens { k with shown := shown } prompt signals attached useStdin hide
  unfold promptBody promptShown
  cases useStdin with
  | true =>
    rw [if_pos rfl,List.append_nil]
    exact typed _
  | false =>
    rw [if_neg Bool.false_ne_true]
    refine .fallible_bind ((prompt.write_ends _).mono ?_)
    rintro out k' ⟨rfl,rfl⟩
    by_cases blank : msg.toList.getLast? ≠ some ' '
    · rw [if_pos blank,if_pos blank,← List.append_assoc]
      refine .fallible_bind ((prompt.write_ends _).mono ?_)
      rintro out k' ⟨rfl,rfl⟩
      exact typed _
    · rw [if_neg blank,if_neg blank,List.append_nil]
      exact typed _

private theorem promptOn_ends (msg : String) {signals : SignalReceiver} (receives : signals.fd = .signal)
    (useStdin hide : Bool) {input output : Fd} (other : input ≠ .signal) (owned : Bool) : Total (console input opens)
      (Follows k (!useStdin && hide) (k.shown ++ if useStdin then [] else promptShown msg))
      (promptOn msg signals useStdin hide (input,output,owned)).run k := by
  have attached (termios : Option Termios) : Attached ⟨input,output,signals.fd,owned,termios,false⟩ signals input :=
    ⟨rfl,rfl,receives,receives,other⟩
  have body (termios : Option Termios) : Total (console input opens)
      (Follows k (!useStdin && hide) (k.shown ++ if useStdin then [] else promptShown msg))
      (promptBody msg signals useStdin hide (.ok ()) ⟨input,output,signals.fd,owned,termios,false⟩).run k :=
    promptBody_ends msg (attached termios) useStdin hide
  unfold promptOn
  dsimp only
  by_cases hidden : (!useStdin && hide) = true
  · rw [if_pos hidden]
    refine .fallible_bind (.lift ((hideInput_ends _).mono ?_))
    rintro out k' ⟨⟨termios,rfl⟩,rfl⟩
    exact released (fun _ => prompt_drop _) (body (some termios))
  · rw [if_neg hidden]
    exact released (fun _ => prompt_drop _) (body none)

/-- The prompt follows what is typed: it ends with the line, or with the signal that came first. -/
theorem launchPrompt_ends (msg : String) (flags : RunFlags) (opens : Bool) (k : Console) :
    Total (console (inputFd flags opens) opens) (fun out k' => out = promptResult (hides flags) (typing k.input) ∧
        k'.input = (typing k.input).rest ∧
        k'.screens = k.screens ++ views (hides flags)
          (k.shown ++ if flags.meets .authStdin then [] else promptShown msg) (typing k.input).keys (typing k.input).reads)
      (launchPrompt msg flags).run k := by
  rw [launchPrompt_parts]
  refine .fallible_bind (install_ends.mono ?_)
  rintro out k' ⟨⟨mask,rfl⟩,same⟩
  rw [same]
  refine released (fun k => (receiver_drop _).mono fun _ _ same => same ▸ ⟨rfl,rfl⟩) ?_
  unfold inputFd hides
  cases flags.meets .authStdin with
  | true => exact promptOn_ends msg rfl true _ (show Fd.stdin ≠ .signal by decide) false
  | false =>
    rw [Bool.not_false,Bool.true_and,Bool.true_and]
    refine .call ?_ fun answer k' taken => ?_
    · cases opens with
      | true => exact ⟨.ok (),k,by simp,rfl⟩
      | false => exact ⟨.error .enoent,k,by simp,rfl⟩
    · obtain ⟨opened,rfl⟩ := taken
      cases answer with
      | ok =>
        rw [opened.mp rfl]
        exact promptOn_ends msg rfl false _ (by decide) true
      | error error =>
        have closed : opens = false := Bool.eq_false_iff.mpr fun yes => by cases opened.mpr yes
        rw [closed]
        exact promptOn_ends msg rfl false _ (by decide) false

theorem launchPrompt_result {msg : String} {flags : RunFlags} {opens : Bool} {k : Console} {P : Except Error String → Prop} :
    Total (console (inputFd flags opens) opens) (fun out _ => P out) (launchPrompt msg flags).run k ↔
      P (promptResult (hides flags) (typing k.input)) := by
  have ends := launchPrompt_ends msg flags opens k
  constructor
  · intro total
    obtain ⟨out,k',holds,rfl,_⟩ := total.meets ends
    exact holds
  · intro holds
    exact ends.mono fun out _ follows => follows.1 ▸ holds

theorem lineResult_eq_ok {text : Bytes} {password : String} :
    lineResult text = .ok password ↔ text.length ≤ maxInputLen ∧ decode text = some password := by
  unfold lineResult
  by_cases long : maxInputLen < text.length
  · rw [if_pos long]
    simp only [reduceCtorEq,false_iff,not_and]
    omega
  · rw [if_neg long]
    cases decode text with
    | none => simp
    | some other => simp [Nat.not_lt.mp long]

theorem typing_bytes (bytes : Bytes) : typing (bytes.map .byte) =
    ⟨bytes.takeWhile (!isEnter ·),none,((bytes.dropWhile (!isEnter ·)).drop 1).map .byte⟩ := by
  induction bytes with
  | nil => rfl
  | cons b bytes ih =>
    rw [List.map_cons,typing,ih]
    cases enter : isEnter b <;> simp [enter]

theorem typing_line {keys : Bytes} (line : ∀ b ∈ keys,isEnter b = false) {enter : UInt8} (ends : isEnter enter = true)
    (rest : List Arrival) : typing (keys.map .byte ++ .byte enter :: rest) = ⟨keys,none,rest⟩ := by
  induction keys with
  | nil => exact if_pos ends
  | cons b keys ih =>
    have later := ih fun c member => line c (List.mem_cons_of_mem b member)
    rw [List.map_cons,List.cons_append,typing,if_neg (by simp [line b List.mem_cons_self]),later]

theorem struck_text (hidden : Bool) (keys : Bytes) :
    (struck hidden keys).text = (keys.map (stroke hidden)).foldl (pressWithin maxHeld) [] := by
  induction keys using List.reverseRecOn with
  | nil => rfl
  | append_singleton keys b ih =>
    rw [struck_concat,List.map_append,List.foldl_append,← ih]
    rfl

end

end Runas
