import Runas.HelperOutput
import Runas.LineEditor

/-! The buffers that hold a password while it is read. They are wiped where they lie, so no copy of the
password is left behind as long as they are never moved to a larger allocation. -/
namespace Runas
open Interaction Text HelperRun

/-- `Vec::with_capacity`: what both buffers have room for. -/
def bufferCapacity : Nat := maxInputLen

/-- The buffer of `launch_prompt` stays within its allocation, whatever the system answers. -/
theorem prompt_contained {K : Type} (step : K → (event : Call) → Answer event → K → Prop) (prompt : Prompt)
    (signals : SignalReceiver) (useStdin hide : Bool) (k : K) :
    Throughout step (editRound prompt signals useStdin hide) ⟨[],0⟩ k fun line => line.buffer.length ≤ bufferCapacity := by
  intro line between rounds
  have fits := edit_bounded step prompt signals useStdin hide rounds
  exact ⟨fits,fun last k' round => round.yields (editRound_bound prompt signals useStdin hide fits)⟩

section
variable {child : Pid} {mask : List Signal} {code : Int} {w : Bytes} {script : List Happening}

/-- Where the loop of `launch_helper` is at the head of a round. -/
private def AtHead (script : List Happening) (code : Int) (state : HelperState) (k : HelperRun) : Prop :=
  ∃ got,state = .of helperPrompt code got k ∧ Head (exitOnly script = true) code (written script) got k ∧
    ¬ (k.eof = true ∧ k.status = .reaped)

private theorem atHead_start (fits : proper code false false script = true) :
    AtHead script code ⟨helperPrompt,[],false,none⟩ (start script true) :=
  ⟨[],rfl,.start fits,by simp [start]⟩

private theorem atHead_ends {state : HelperState} {k : HelperRun} (atHead : AtHead script code state k) :
    Total (helperKernel child) (fun out k' => match out with
      | .ok (.inl next) => AtHead script code next k' ∧ k'.weight < k.weight
      | .ok (.inr last) => last = .complete helperPrompt code (written script)
      | .error _ => exitOnly script = false) (helperRound child ⟨.signal,mask⟩ state).run k := by
  obtain ⟨got,rfl,head,unfinished⟩ := atHead
  refine (helperRound_ends rfl rfl ⟨.signal,mask⟩ head unfinished).mono ?_
  intro out k' left
  rcases out with error | next | last
  · exact Bool.eq_false_iff.mpr left.2.2
  · obtain ⟨got,rfl,head,unfinished,less⟩ := left
    exact ⟨⟨got,rfl,head,unfinished⟩,less⟩
  · exact left.1

private theorem helper_contained (fits : proper code false false script = true) (short : (written script).length ≤ maxInputLen) :
    Throughout (helperKernel child) (helperRound child ⟨.signal,mask⟩) ⟨helperPrompt,[],false,none⟩ (start script true)
      fun state => state.buffer.length ≤ bufferCapacity := by
  intro state between rounds
  have held := rounds.kept (I := AtHead script code) (atHead_start fits) fun state k atHead => by
    refine (atHead_ends atHead).mono ?_
    intro out k' left
    rcases out with error | next | last
    · trivial
    · exact left.1
    · trivial
  constructor
  · obtain ⟨got,rfl,head,_⟩ := held
    have part := congrArg List.length head.whole
    simp only [List.length_append] at part
    refine (List.length_take_le' _ _).trans ?_
    unfold bufferCapacity
    omega
  · intro last k' round
    obtain rfl := (atHead_ends held).sound.2 _ _ round
    exact (List.length_take_le' _ _).trans short

private theorem helper_overfills (long : maxInputLen < w.length) : ¬ Throughout (helperKernel child)
    (helperRound child ⟨.signal,mask⟩) ⟨helperPrompt,[],false,none⟩ (start [.write w,.close,.exit 0] true)
      fun state => state.buffer.length ≤ bufferCapacity := by
  intro within
  have fits : proper 0 false false [.write w,.close,.exit 0] = true := rfl
  have first : Rounds (helperKernel child) (helperRound child ⟨.signal,mask⟩) ⟨helperPrompt,[],false,none⟩
    (start [.write w,.close,.exit 0] true) _ _ := .start
  obtain ⟨state,between,last,k',rounds,round,rfl⟩ := Rounds.finish (AtHead [.write w,.close,.exit 0] 0) (fun _ k => k.weight)
    (fun state k atHead => (atHead_ends atHead).mono fun out k' left => by
      rcases out with error | next | last
      · cases left
      · exact left
      · exact left) first (atHead_start fits)
  have holds := (within state between rounds).2 _ k' round
  have whole : written [.write w,.close,.exit 0] = w := List.append_nil w
  rw [whole,HelperState.complete,List.length_take,bufferCapacity] at holds
  omega

/-- The buffers stay within their allocation, that of the prompt with every input, and that of the
helper in every run that writes the bytes, if and only if these are no more than it has room for. -/
theorem secret_contained_iff (child : Pid) (mask : List Signal) (w : Bytes) :
    ((∀ (K : Type) (step : K → (event : Call) → Answer event → K → Prop) (prompt : Prompt) (signals : SignalReceiver)
        (useStdin hide : Bool) (k : K),
        Throughout step (editRound prompt signals useStdin hide) ⟨[],0⟩ k fun line => line.buffer.length ≤ bufferCapacity) ∧
      ∀ code script,proper code false false script = true → written script = w →
        Throughout (helperKernel child) (helperRound child ⟨.signal,mask⟩) ⟨helperPrompt,[],false,none⟩ (start script true)
          fun state => state.buffer.length ≤ bufferCapacity) ↔ w.length ≤ bufferCapacity := by
  constructor
  · rintro ⟨_,within⟩
    by_contra long
    exact helper_overfills (Nat.not_le.mp long) (within 0 [.write w,.close,.exit 0] rfl (List.append_nil w))
  · intro short
    refine ⟨fun K step => prompt_contained step,?_⟩
    rintro code script fits rfl
    exact helper_contained fits short

/-- A password of the full length with its line ending takes a byte more than there is room for. -/
theorem full_password_overfills : ¬ Throughout (helperKernel 7) (helperRound 7 ⟨.signal,[]⟩) ⟨helperPrompt,[],false,none⟩
    (start [.write (List.replicate 1024 97 ++ [10]),.close,.exit 0] true) fun state => state.buffer.length ≤ bufferCapacity :=
  helper_overfills (by rw [List.length_append,List.length_replicate]; decide)

end

end Runas
