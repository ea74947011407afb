import Runas.Main
import Runas.Interaction.Footprint

/-! What each call is about, and which topics each part of the program touches. -/
namespace Runas
open Interaction Text

inductive Topic
  | process | finish | replace | pipes | waiting | terminal | signals | identity | lookup | pam | talk
  | environment | files
  deriving DecidableEq

def Call.topic : Call → Topic
  | .fork | .waitpid _ | .setpgid _ _ | .getppid | .setParentDeathSignal _ | .setNoNewPrivs | .kill _ _
  | .raise _ => .process
  | .exit _ | .panic | .abort => .finish
  | .execve _ _ _ | .execvp _ _ | .execv _ _ => .replace
  | .pipe _ _ | .openFd _ | .close _ | .dup2 _ _ | .read _ _ | .write _ _ => .pipes
  | .poll _ => .waiting
  | .isTerminal _ | .ttyname _ | .tcgetattr _ | .tcsetattr _ _ | .tcgetpgrp _ | .tcsetpgrp _ _ => .terminal
  | .sigmask _ _ | .signalfd _ | .readSignal _ | .sigaction _ _ => .signals
  | .getuid | .getgid | .setgroups _ | .initgroups _ _ | .setresgid _ _ _ | .setresuid _ _ _ => .identity
  | .userFromName _ | .userFromUid _ | .groupFromName _ | .groupFromGid _ | .getgrouplist _ _ | .getspnam _
  | .crypt _ _ | .now => .lookup
  | .pam _ | .pamReply _ _ => .pam
  | .calloc _ | .strdup _ | .askPassword _ _ | .print _ | .eprint _ | .report _ _ => .talk
  | .environ | .getenv _ | .unsetenv _ => .environment
  | .chdir _ | .currentDir | .metadata _ | .openFile _ | .fileMetadata | .readLine => .files

def About (topics : List Topic) (event : Call) : Prop := event.topic ∈ topics

def isExec : Call → Bool
  | .execve _ _ _ | .execvp _ _ | .execv _ _ => true
  | _ => false

section
variable {allowed : Call → Prop}

theorem uses_cstr (text : String) : Fallible.Uses allowed (cstr text) := by
  unfold cstr
  split <;> trivial

theorem uses_discard {event : Call} (known : allowed event) : (discard event).Uses allowed :=
  ⟨known,fun _ => trivial⟩

theorem uses_ignoring {α : Type} {x : M α} (used : Fallible.Uses allowed x) : (ignoring x).Uses allowed :=
  Program.Uses.bind used fun _ => trivial

theorem uses_orFail {α : Type} (result : Except Errno α) : Fallible.Uses allowed (orFail result) := by
  cases result <;> trivial

end

/-! The conversation and the PAM functions. -/

private theorem uses_convMessage (flags : RunFlags) (message : Option PamMessage) :
    (Pam.convMessage (Conv flags) message).Uses (About [.talk]) := by
  have failure (text : String) : (Pam.convFailure text).Uses (About [.talk]) :=
    Program.Uses.bind (.ask (by simp [About,Call.topic])) fun _ => trivial
  have callbackError (error : Error) : (Pam.callbackError error).Uses (About [.talk]) := by
    unfold Pam.callbackError
    split
    · trivial
    · exact Program.Uses.bind (.ask (by simp [About,Call.topic])) fun _ => trivial
  have text (shown : Calls (Option (Except Error Unit))) (used : shown.Uses (About [.talk])) :
      (Pam.convText shown).Uses (About [.talk]) := by
    refine Program.Uses.bind used fun result => ?_
    match result with
    | none => trivial
    | some (.error error) => exact Program.Uses.bind (callbackError error) fun _ => trivial
    | some (.ok ()) => trivial
  unfold Pam.convMessage
  split
  · exact failure _
  · exact failure _
  · split
    · exact Program.Uses.bind (.ask (by simp [About,Call.topic])) fun _ => trivial
    · split
      · refine Program.Uses.bind (.bind (.ask (by simp [About,Call.topic])) fun _ => trivial) fun result => ?_
        match result with
        | none => trivial
        | some (.error error) => exact Program.Uses.bind (callbackError error) fun _ => trivial
        | some (.ok answer) =>
          refine Program.Uses.bind (.ask (by simp [About,Call.topic])) fun copied => ?_
          cases copied with
          | ok => trivial
          | error error => exact Program.Uses.bind (.ask (by simp [About,Call.topic])) fun _ => trivial
      · split
        · exact text _ (.bind (.ask (by simp [About,Call.topic])) fun _ => trivial)
        · split
          · exact text _ (.bind (.ask (by simp [About,Call.topic])) fun _ => trivial)
          · exact failure _

theorem uses_convProcess (flags : RunFlags) (request : PamRequest) :
    (Pam.convProcess (Conv flags) request).Uses (About [.talk]) := by
  have messages (pending : List (Option PamMessage)) : ∀ answers,
      (Pam.convMessages (Conv flags) pending answers).Uses (About [.talk]) := by
    induction pending with
    | nil => exact fun _ => trivial
    | cons message pending ih =>
      intro answers
      refine Program.Uses.bind (uses_convMessage flags message) fun result => ?_
      match result with
      | none => trivial
      | some (.error code) => trivial
      | some (.ok answer) => exact ih _
  unfold Pam.convProcess
  split
  · trivial
  · split
    · trivial
    · refine Program.Uses.bind (.ask (by simp [About,Call.topic])) fun allocated => ?_
      cases allocated with
      | error error => exact Program.Uses.bind (.ask (by simp [About,Call.topic])) fun _ => trivial
      | ok => exact messages _ _

private theorem convMessage_gives (flags : RunFlags) (message : Option PamMessage) :
    (Pam.convMessage (Conv flags) message).Gives fun result => result.isSome = true := by
  have failure (text : String) : (Pam.convFailure text).Gives fun result => result.isSome = true := fun _ => rfl
  have failed (error : Error) : ((Pam.callbackError error).bind fun code => .done (some (.error code)) :
      Calls Pam.Replied).Gives fun result => result.isSome = true := (Program.Gives.any _).bind fun _ _ => rfl
  unfold Pam.convMessage
  split
  · exact failure _
  · exact failure _
  · split
    · exact fun _ => rfl
    · split
      · intro answer
        cases answer with
        | error error => exact failed error
        | ok answer =>
          intro copied
          cases copied with
          | ok => rfl
          | error error => exact fun _ => rfl
      · split
        · exact fun _ => rfl
        · split
          · exact fun _ => rfl
          · exact failure _

/-- Printing is taken not to fail, so that no callback of the program panics and every conversation
has a reply. -/
theorem convProcess_gives (flags : RunFlags) (request : PamRequest) :
    (Pam.convProcess (Conv flags) request).Gives fun reply => reply.isSome = true := by
  have messages (pending : List (Option PamMessage)) : ∀ answers,
      (Pam.convMessages (Conv flags) pending answers).Gives fun reply => reply.isSome = true := by
    induction pending with
    | nil => exact fun _ => rfl
    | cons message pending ih =>
      intro answers
      refine (convMessage_gives flags message).bind fun result given => ?_
      match result with
      | some (.error code) => rfl
      | some (.ok answer) => exact ih _
  unfold Pam.convProcess
  split
  · rfl
  · split
    · rfl
    · intro allocated
      cases allocated with
      | error error => exact fun _ => rfl
      | ok => exact messages _ _

theorem uses_pamCall (flags : RunFlags) (function : PamFunction) :
    (Pam.call (Conv flags) function).Uses (About [.pam,.talk]) := by
  refine Program.Uses.bind (.ask (by simp [About,Call.topic])) fun answer => .iterate fun answer => ?_
  cases answer with
  | returned value => trivial
  | converse request =>
    refine Program.Uses.bind_given ((uses_convProcess flags request).mono fun event about => ?_)
      (convProcess_gives flags request) fun reply given => ?_
    · exact List.mem_cons_of_mem _ about
    · obtain ⟨reply,rfl⟩ := Option.isSome_iff_exists.mp given
      exact Program.Uses.bind (.ask (by simp [About,Call.topic])) fun _ => trivial

namespace PamHandle
variable {α β : Type}

/-- A method that is of a kind of program, whatever handle it is called on. -/
def In (C : (α : Type) → Calls α → Prop) (x : PamM α) : Prop := ∀ handle : PamHandle, C _ (handle.perform x)

/-- A function that works on a transaction, and neither begins nor ends one. -/
def works : PamFunction → Bool
  | .start _ _ | .finish _ => false
  | _ => true

section
variable {C : (α : Type) → Calls α → Prop} (closed : Program.Closed C)
include closed

namespace In

theorem pure (value : α) : In C (Pure.pure value : PamM α) := fun _ => closed.done _

theorem throw (error : Error) : In C (MonadExcept.throw error : PamM α) := fun _ => closed.done _

theorem note (change : PamHandle → PamHandle) : In C (modify change : PamM Unit) := fun _ => closed.done _

theorem bind {x : PamM α} {f : α → PamM β} (first : In C x) (rest : ∀ value, In C (f value)) : In C (x >>= f) := by
  intro handle
  rw [perform_bind]
  refine closed.bind (first handle) fun pair => ?_
  obtain ⟨result,handle⟩ := pair
  cases result with
  | ok value => exact rest value handle
  | error error => exact closed.done _

theorem handling {x : PamM α} {f : Error → PamM α} (first : In C x) (rest : ∀ error, In C (f error)) :
    In C (tryCatch x f) := by
  intro handle
  rw [perform_catch]
  refine closed.bind (first handle) fun pair => ?_
  obtain ⟨result,handle⟩ := pair
  cases result with
  | ok value => exact closed.done _
  | error error => exact rest error handle

omit closed in
theorem asked {f : PamHandle → PamM α} (rest : ∀ handle, In C (f handle)) : In C (get >>= f) := by
  intro handle
  rw [perform_bind]
  exact rest handle handle

theorem lift {p : Calls α} (known : C α p) : In C (liftM p : PamM α) := by
  intro handle
  rw [perform_lift]
  exact closed.bind known fun _ => closed.done _

end In

variable (calls : ∀ flags function,works function = true → C _ (Pam.call (Conv flags) function))
include calls

theorem in_call {function : PamFunction} (inside : works function = true) : In C (call function) := by
  intro handle
  rw [perform_call]
  exact closed.bind (calls _ _ inside) fun _ => closed.done _

theorem in_errorOf (flags : RunFlags) (code : UInt32) : C _ (Pam.errorOf (Conv flags) code) := by
  refine closed.bind (calls _ _ rfl) fun text => ?_
  split <;> exact closed.done _

theorem in_fail (wrap : PamError → Error) (code : UInt32) : In C (fail wrap code : PamM α) :=
  .asked fun handle => .bind closed (.lift closed (in_errorOf closed calls handle.flags code)) fun _ => .throw closed _

theorem in_check (result : UInt32) : In C (check result) := by
  unfold check
  refine .bind closed (.note closed _) fun _ => ?_
  split
  · exact in_fail closed calls _ _
  · exact .pure closed _

theorem in_checkOrDelete (result : UInt32) : In C (checkOrDelete result) :=
  .handling closed (in_check closed calls result) fun error =>
    .bind closed (in_call closed calls rfl) fun _ => .throw closed error

theorem in_closeSession (flags : UInt32) : In C (closeSession flags) := by
  refine .asked fun handle => ?_
  split
  · exact .pure closed _
  · refine .bind closed (in_call closed calls rfl) fun _ => .bind closed (in_checkOrDelete closed calls _) fun _ => ?_
    exact .bind closed (.note closed _) fun _ => .bind closed (in_call closed calls rfl) fun _ => in_check closed calls _

theorem in_setItem (item : PamItem) (value : String) : In C (setItem item value) := by
  unfold setItem
  split
  · exact .throw closed _
  · exact .bind closed (in_call closed calls rfl) fun _ => in_check closed calls _

theorem in_getenvlist : In C getenvlist := by
  refine .bind closed (in_call closed calls rfl) fun entries => ?_
  split
  · exact .pure closed _
  · split
    · exact .pure closed _
    · exact .throw closed _

theorem in_authenticate (flags : UInt32) : In C (authenticate flags) :=
  .bind closed (in_call closed calls rfl) fun _ => in_check closed calls _

theorem in_chauthtok (flags : UInt32) : In C (chauthtok flags) :=
  .bind closed (in_call closed calls rfl) fun _ => in_check closed calls _

theorem in_acctMgmt (flags : UInt32) : In C (acctMgmt flags) := by
  refine .bind closed (in_call closed calls rfl) fun result => .bind closed (.note closed _) fun _ => ?_
  split
  · exact .pure closed _
  · split
    · exact in_fail closed calls _ _
    · exact in_fail closed calls _ _

theorem in_openSession (flags : UInt32) : In C (openSession flags) := by
  refine .asked fun handle => ?_
  split
  · exact .pure closed _
  · refine .bind closed (in_call closed calls rfl) fun _ => .bind closed (in_check closed calls _) fun _ => ?_
    exact .bind closed (in_call closed calls rfl) fun _ => .bind closed (in_checkOrDelete closed calls _) fun _ =>
      .note closed _

/-- What the drop of a handle does before it ends the transaction. -/
def closing (handle : PamHandle) : Calls (Except Error Unit × PamHandle) :=
  if handle.session then handle.perform (closeSession 0) else .done (.ok (),handle)

theorem in_closing (handle : PamHandle) : C _ handle.closing := by
  unfold closing
  split
  · exact in_closeSession closed calls 0 handle
  · exact closed.done _

end

theorem drop_closing (handle : PamHandle) : handle.drop = handle.closing.bind fun pair =>
    (Pam.call (Conv pair.2.flags) (.finish pair.2.lastStatus)).bind fun _ => .done () := by
  unfold drop closing
  split <;> rfl

def Uses (allowed : Call → Prop) (x : PamM α) : Prop := ∀ handle : PamHandle, (handle.perform x).Uses allowed

section
variable {allowed : Call → Prop} (topics : ∀ event,About [.pam,.talk] event → allowed event)
include topics

theorem within_calls (flags : RunFlags) (function : PamFunction) : (Pam.call (Conv flags) function).Uses allowed :=
  (uses_pamCall _ _).mono topics

theorem within_getenvlist : Uses allowed getenvlist :=
  in_getenvlist (Program.closed_uses allowed) fun _ _ _ => within_calls topics _ _

theorem within_drop (handle : PamHandle) : handle.drop.Uses allowed := by
  rw [drop_closing]
  refine Program.Uses.bind (in_closing (Program.closed_uses allowed) (fun _ _ _ => within_calls topics _ _) handle) fun pair => ?_
  exact (within_calls topics _ _).bind fun _ => trivial

end

def pamTopics : List Topic := [.pam,.talk,.terminal]

private theorem within (event : Call) (about : About [.pam,.talk] event) : About pamTopics event := by
  simp only [About,List.mem_cons,List.not_mem_nil,or_false] at about
  rcases about with pam | talk
  · simp [About,pamTopics,pam]
  · simp [About,pamTopics,talk]

theorem uses_getenvlist : Uses (About pamTopics) getenvlist := within_getenvlist within

theorem uses_drop (handle : PamHandle) : handle.drop.Uses (About pamTopics) := within_drop within handle

end PamHandle

section
variable {C : (α : Type) → Calls α → Prop} (closed : Program.Closed C)
  (calls : ∀ flags function,PamHandle.works function = true → C _ (Pam.call (Conv flags) function))
include closed calls

open PamHandle

theorem in_ttyItem (looks : C _ (query (.isTerminal .stdin))) (names : C _ (query (.ttyname .stdin))) :
    PamHandle.In C ttyItem := by
  refine .bind closed (.lift closed looks) fun terminal => ?_
  split
  · refine .bind closed (.lift closed names) fun name => ?_
    cases name <;> exact in_setItem closed calls _ _
  · exact in_setItem closed calls _ _

theorem in_accountCheck (flags : RunFlags) : PamHandle.In C (accountCheck flags) := by
  refine .handling closed (in_acctMgmt closed calls 0) fun error => ?_
  split
  · split
    · exact .throw closed _
    · exact in_chauthtok closed calls _
  · exact .throw closed _

theorem in_pamLogin (looks : C _ (query (.isTerminal .stdin))) (names : C _ (query (.ttyname .stdin))) (build : Build)
    (user target : Account) (flags : RunFlags) (disableAuth : Bool) :
    PamHandle.In C (pamLogin build user target flags disableAuth) := by
  have session : PamHandle.In C (do
      if build.backend = .scopex then
        setItem .user target.name
        openSession 0 : PamM Unit) := by
    split
    · exact .bind closed (in_setItem closed calls _ _) fun _ => in_openSession closed calls 0
    · exact .pure closed _
  have account : PamHandle.In C (do
      setItem .ruser user.name
      accountCheck flags
      if build.backend = .scopex then
        setItem .user target.name
        openSession 0 : PamM Unit) :=
    .bind closed (in_setItem closed calls _ _) fun _ => .bind closed (in_accountCheck closed calls flags) fun _ => session
  unfold pamLogin
  refine .bind closed (in_ttyItem closed calls looks names) fun _ => ?_
  cases disableAuth with
  | false => exact .bind closed (in_authenticate closed calls 0) fun _ => account
  | true => exact account

end

theorem within_pamLogin {allowed : Call → Prop} (topics : ∀ event,About [.pam,.talk] event → allowed event)
    (looks : allowed (.isTerminal .stdin)) (names : allowed (.ttyname .stdin)) (build : Build) (user target : Account)
    (flags : RunFlags) (disableAuth : Bool) : PamHandle.Uses allowed (pamLogin build user target flags disableAuth) :=
  in_pamLogin (Program.closed_uses allowed) (fun _ _ _ => PamHandle.within_calls topics _ _) (.ask looks) (.ask names) _ _ _ _ _

open PamHandle in
theorem uses_pamLogin (build : Build) (user target : Account) (flags : RunFlags) (disableAuth : Bool) :
    PamHandle.Uses (About pamTopics) (pamLogin build user target flags disableAuth) :=
  within_pamLogin within (by simp [About,Call.topic,pamTopics]) (by simp [About,Call.topic,pamTopics]) _ _ _ _ _

theorem uses_pamStart (service username : String) (flags : RunFlags) :
    Fallible.Uses (About [.pam,.talk]) (pamStart service username flags) := by
  have errorOf (code : UInt32) : (Pam.errorOf (Conv flags) code).Uses (About [.pam,.talk]) := by
    refine Program.Uses.bind (uses_pamCall _ _) fun text => ?_
    split <;> trivial
  unfold pamStart
  refine .bind (uses_cstr _) fun cService => .bind (uses_cstr _) fun cUsername => ?_
  refine .bind (.lift (uses_pamCall _ _)) fun pair => ?_
  obtain ⟨result,set⟩ := pair
  dsimp only
  split
  · exact .bind (.lift (errorOf _)) fun _ => trivial
  · split <;> trivial

/-! The questions about the caller's groups. -/

theorem uses_isMember (account : Account) (group : Group) :
    Fallible.Uses (About [.lookup]) (account.isMember group) := by
  have list : Fallible.Uses (About [.lookup]) account.getGroupList := by
    unfold Account.getGroupList
    split
    · trivial
    · exact .bind (uses_cstr _) fun _ => .bind (.ask (by simp [About,Call.topic])) fun answer =>
        .bind (uses_orFail answer) fun _ => trivial
  unfold Account.isMember
  split
  · trivial
  · exact .bind list fun _ => trivial

theorem uses_isWheelMember (numeric : Char → Bool) (user : Account) :
    Fallible.Uses (About [.lookup]) (isWheelMember numeric user) := by
  have byId (gid : Gid) : Fallible.Uses (About [.lookup]) (do orFail (← ask (.groupFromGid gid))) :=
    .bind (.ask (by simp [About,Call.topic])) fun answer => uses_orFail answer
  have byName : Fallible.Uses (About [.lookup]) (do orFail (← ask (.groupFromName authGroup))) :=
    .bind (.ask (by simp [About,Call.topic])) fun answer => uses_orFail answer
  have lookupId (word : List Char) : Fallible.Uses (About [.lookup])
      (lookupId (fun gid => do orFail (← ask (.groupFromGid gid))) word) := by
    unfold lookupId
    split
    · trivial
    · exact byId _
  have lookup : Fallible.Uses (About [.lookup]) (Group.lookup numeric authGroup) := by
    unfold Group.lookup lookupWord
    split
    · exact lookupId _
    · split
      · refine .bind byName fun found => ?_
        split
        · trivial
        · exact lookupId _
      · exact byName
  unfold isWheelMember Group.fromStr
  refine .bind (.bind lookup fun _ => trivial) fun group => ?_
  split
  · exact .bind (uses_isMember user _) fun _ => trivial
  · trivial

theorem uses_hasTargetGroup (user target : Account) :
    Fallible.Uses (About [.lookup]) (hasTargetGroup user target) := by
  unfold hasTargetGroup
  split
  · trivial
  · exact uses_isMember user _

theorem within_shadowAuth {allowed : Call → Prop} (topics : ∀ event,About [.lookup,.talk] event → allowed event)
    (panics : allowed .panic) (user : Account) (flags : RunFlags) : Fallible.Uses allowed (shadowAuth user flags) := by
  have entry : Fallible.Uses allowed (getspnam user.name) := by
    refine .bind (uses_cstr _) fun name => .bind (.ask (topics _ (by simp [About,Call.topic]))) fun answer => ?_
    cases answer <;> trivial
  have hashed (password salt : String) : Fallible.Uses allowed (crypt password salt) := by
    refine .bind (uses_cstr _) fun salt => .bind (.ask (topics _ (by simp [About,Call.topic]))) fun answer => ?_
    cases answer <;> trivial
  have asked (flags : RunFlags) : Fallible.Uses allowed (askPasswordFor promptText flags) := by
    refine .bind (.ask (topics _ (by simp [About,Call.topic]))) fun answer => ?_
    cases answer <;> trivial
  have verified (entry : ShadowEntry) : Fallible.Uses allowed (verifyPassword entry flags) := by
    refine .bind (asked _) fun password => .bind (hashed _ _) fun hash => ?_
    split
    · exact .bind (.ask panics) fun never => nomatch never
    · trivial
    · trivial
  refine .bind entry fun found => ?_
  cases found with
  | none => trivial
  | some found =>
    refine .bind (.ask (topics _ (by simp [About,Call.topic]))) fun now => .bind ?_ fun _ => verified found
    cases checkAging found (dayOf now) <;> trivial

def shadowTopics : List Topic := [.lookup,.talk,.finish]

theorem uses_shadowAuth (user : Account) (flags : RunFlags) :
    Fallible.Uses (About shadowTopics) (shadowAuth user flags) := by
  refine within_shadowAuth (fun event about => ?_) (by simp [About,Call.topic,shadowTopics]) user flags
  exact (by decide : [Topic.lookup,.talk] ⊆ shadowTopics) about

/-! The barrier. -/

theorem uses_descriptorDrop (fd : Option Fd) : (Descriptor.drop fd).Uses (About [.pipes]) := by
  cases fd with
  | none => trivial
  | some fd => exact uses_discard (by simp [About,Call.topic])

theorem uses_endpointDrop (endpoint : ForkEndpoint) : endpoint.drop.Uses (About [.pipes]) :=
  Program.Uses.bind (uses_descriptorDrop _) fun _ => uses_descriptorDrop _

theorem uses_writeByte {allowed : Call → Prop} {fd : Fd} {value : UInt8} (writes : allowed (.write fd [value])) :
    Fallible.Uses allowed (Descriptor.writeByte fd value) := by
  refine .iterate fun _ => .bind (.ask writes) fun answer => ?_
  split <;> trivial

theorem uses_readByte {allowed : Call → Prop} {fd : Fd} (reads : allowed (.read fd 1)) :
    Fallible.Uses allowed (Descriptor.readByte fd) := by
  refine .iterate fun _ => .bind (.ask reads) fun answer => ?_
  split <;> trivial

theorem uses_sendStatus (endpoint : ForkEndpoint) (status : UInt8) :
    Fallible.Uses (About [.pipes]) (endpoint.sendStatus status) := by
  obtain ⟨write,read,sent⟩ := endpoint
  cases sent with
  | true => trivial
  | false =>
    cases write with
    | none => trivial
    | some fd =>
      exact .bind (uses_writeByte (by simp [About,Call.topic])) fun _ => .bind (.lift (uses_descriptorDrop _)) fun _ => trivial

theorem within_awaitStatus {allowed : Call → Prop} {endpoint : ForkEndpoint}
    (reads : ∀ fd,endpoint.read = some fd → allowed (.read fd 1)) : Fallible.Uses allowed endpoint.awaitStatus := by
  unfold ForkEndpoint.awaitStatus
  split
  · trivial
  · next fd held =>
    refine .bind (uses_readByte (reads fd held)) fun status => ?_
    cases status with
    | none => trivial
    | some status =>
      dsimp only
      split
      · trivial
      · split <;> trivial

theorem uses_awaitStatus (endpoint : ForkEndpoint) : Fallible.Uses (About [.pipes]) endpoint.awaitStatus :=
  within_awaitStatus fun _ _ => by simp [About,Call.topic]

theorem uses_readyAndWait (endpoint : ForkEndpoint) :
    Fallible.Uses (About [.pipes]) endpoint.readyAndWait := by
  refine .bind (.releasingOnError (uses_endpointDrop _) (uses_sendStatus _ _)) fun endpoint => ?_
  refine .bind (.releasingOnError (uses_endpointDrop _) (uses_awaitStatus _)) fun decision => ?_
  exact .bind (.lift (uses_descriptorDrop _)) fun _ => trivial

/-! The supervisor. -/

theorem uses_transferToParent (handler : ForegroundHandler) : handler.transferToParent.Uses (About [.terminal]) := by
  unfold ForegroundHandler.transferToParent
  split
  · trivial
  · exact uses_discard (by simp [About,Call.topic])

theorem uses_transferToChild (handler : ForegroundHandler) : handler.transferToChild.Uses (About [.terminal]) := by
  unfold ForegroundHandler.transferToChild
  split
  · trivial
  · exact uses_discard (by simp [About,Call.topic])

def watchTopics : List Topic := [.terminal,.signals,.process,.talk]

theorem uses_suspend {allowed : Call → Prop} {handler : ForegroundHandler}
    (toParent : handler.transferToParent.Uses allowed) (toChild : handler.transferToChild.Uses allowed)
    (prints : ∀ text, allowed (.eprint text)) (stops : allowed (.raise .sigstop)) {pid : Pid}
    (resumes : allowed (.kill (-pid) .sigcont)) (signal : Signal) : (suspend pid handler signal).Uses allowed := by
  refine Program.Uses.bind (uses_discard (prints _)) fun _ => ?_
  refine Program.Uses.bind toParent fun _ => ?_
  refine Program.Uses.bind (uses_discard stops) fun _ => ?_
  refine Program.Uses.bind toChild fun _ => ?_
  exact uses_discard resumes

section
variable {allowed : Call → Prop} (terminal : ∀ event, About [.terminal] event → allowed event)
  (handles : ∀ handler, allowed (.sigaction .sigttou handler))
include terminal handles

theorem uses_handlerInstall (child : Pid) : Fallible.Uses allowed (ForegroundHandler.install child) := by
  refine .bind (.ask (handles _)) fun set => .bind (uses_orFail set) fun previous => ?_
  refine .bind (.ask (terminal _ (by simp [About,Call.topic]))) fun group => ?_
  cases group with
  | error error => trivial
  | ok original =>
    refine .bind (.ask (terminal _ (by simp [About,Call.topic]))) fun taken => ?_
    cases taken <;> trivial

theorem uses_handlerDrop (handler : ForegroundHandler) : handler.drop.Uses allowed :=
  Program.Uses.bind ((uses_transferToParent handler).mono terminal) fun _ => uses_discard (handles _)

end

theorem uses_receiverInstall (signals : List Signal) : Fallible.Uses (About [.signals]) (SignalReceiver.install signals) := by
  unfold SignalReceiver.install
  split
  · trivial
  · refine .bind (.ask (by simp [About,Call.topic])) fun set => .bind (uses_orFail set) fun previous => ?_
    refine .bind (.ask (by simp [About,Call.topic])) fun opened => ?_
    cases opened with
    | ok => trivial
    | error error => exact .bind (.lift (uses_discard (by simp [About,Call.topic]))) fun _ => trivial

theorem uses_receiverRead {allowed : Call → Prop} {receiver : SignalReceiver} (reads : allowed (.readSignal receiver.fd)) :
    Fallible.Uses allowed receiver.read :=
  .bind (.ask reads) fun answer => .bind (uses_orFail answer) fun _ => trivial

theorem within_receiverWait {allowed : Call → Prop} {receiver : SignalReceiver} (reads : allowed (.readSignal receiver.fd))
    (polls : allowed (.poll [some receiver.fd])) : Fallible.Uses allowed receiver.wait := by
  refine .iterate fun _ => .bind (uses_receiverRead reads) fun event => ?_
  cases event with
  | some event => trivial
  | none =>
    refine .bind (.ask polls) fun answer => ?_
    rcases answer with error | events
    · cases error <;> trivial
    · dsimp only
      split
      · trivial
      · split
        · trivial
        · split <;> trivial

theorem uses_receiverWait (receiver : SignalReceiver) : Fallible.Uses (About [.signals,.waiting]) receiver.wait :=
  within_receiverWait (by simp [About,Call.topic]) (by simp [About,Call.topic])

theorem uses_watch {allowed : Call → Prop} {pid : Pid} {signals : SignalReceiver} {handler : ForegroundHandler}
    (reaps : allowed (.waitpid pid)) (toParent : handler.transferToParent.Uses allowed)
    (toChild : handler.transferToChild.Uses allowed) (prints : ∀ text,allowed (.eprint text))
    (stops : allowed (.raise .sigstop)) (passes : ∀ signal,allowed (.kill (-pid) signal))
    (waits : Fallible.Uses allowed signals.wait) : Fallible.Uses allowed (watch pid signals handler) := by
  have round : Fallible.Uses allowed (reapRound pid handler) := by
    refine .bind (.ask reaps) fun answer => ?_
    split
    case h_3 signal => exact .bind (.lift (uses_suspend toParent toChild prints stops (passes _) signal)) fun _ => trivial
    all_goals trivial
  have reacts (signal : Option Signal) : Fallible.Uses allowed (react pid handler signal) := by
    unfold react
    split
    · trivial
    · refine .bind (.iterate fun _ => round) fun code => ?_
      cases code <;> trivial
    · exact .bind (.lift (uses_discard (passes _))) fun _ => trivial
  refine .iterate fun initiate => ?_
  unfold watchRound
  split
  · exact reacts _
  · exact .bind waits fun event => reacts _

section
variable {allowed : Call → Prop} (watches : ∀ event, About watchTopics event → allowed event)
  (closes : ∀ fd, allowed (.close fd))
include watches closes

theorem uses_receiverDrop (receiver : SignalReceiver) : receiver.drop.Uses allowed :=
  Program.Uses.bind (uses_discard (watches _ (by simp [About,Call.topic,watchTopics]))) fun _ =>
    uses_discard (closes _)

theorem uses_watchInstall (pid : Pid) : Fallible.Uses allowed (watchInstall pid) := by
  have within {topics : List Topic} (part : topics ⊆ watchTopics) (event : Call) (about : About topics event) :
      allowed event := watches event (part about)
  refine .bind ((uses_receiverInstall _).mono (within (by decide))) fun signals => ?_
  refine .releasingOnError (uses_receiverDrop watches closes signals) ?_
  have handles (handler : SigHandler) : allowed (.sigaction .sigttou handler) :=
    watches _ (by simp [About,Call.topic,watchTopics])
  refine .bind (uses_handlerInstall (within (by decide)) handles pid) fun handler => ?_
  refine .releasingOnError (uses_handlerDrop (within (by decide)) handles handler) ?_
  refine .bind (.ask (watches _ (by simp [About,Call.topic,watchTopics]))) fun set => ?_
  exact .bind (uses_orFail set) fun _ => trivial

end

/-! The prompt. -/

theorem uses_promptDrop {allowed : Call → Prop} {prompt : Prompt} (writes : allowed (.write prompt.output [10]))
    (restores : ∀ original,allowed (.tcsetattr prompt.input original)) (closes : ∀ fd,allowed (.close fd)) :
    prompt.drop.Uses allowed := by
  obtain ⟨input,output,interrupt,owned,termios,inputEof⟩ := prompt
  have closing : Program.Uses allowed (do
      if owned then
        if input ≠ output then discard (.close output)
        discard (.close input) : Calls Unit) := by
    split
    · split
      · exact Program.Uses.bind (uses_discard (closes _)) fun _ => uses_discard (closes _)
      · exact uses_discard (closes _)
    · trivial
  cases termios with
  | none => exact closing
  | some original =>
    exact Program.Uses.bind (uses_discard writes) fun _ => Program.Uses.bind (uses_discard (restores _)) fun _ => closing

section
variable {allowed : Call → Prop} {prompt : Prompt} (writes : ∀ bytes,allowed (.write prompt.output bytes))
  (polls : ∀ input,input = none ∨ input = some prompt.input → allowed (.poll [some prompt.interrupt,input]))
  (reads : ∀ count,allowed (.read prompt.input count))

include writes in
theorem uses_promptWrite (bytes : Bytes) : Fallible.Uses allowed (prompt.write bytes) := by
  refine .iterate fun bytes => ?_
  cases bytes with
  | nil => trivial
  | cons b bytes =>
    refine .bind (.ask (writes _)) fun answer => ?_
    rcases answer with error | _ | written
    · cases error <;> trivial
    · trivial
    · trivial

include polls reads in
theorem uses_promptRead (count : Nat) : Fallible.Uses allowed (prompt.read count) := by
  have watched : allowed (.poll [some prompt.interrupt,if prompt.inputEof then none else some prompt.input]) := by
    refine polls _ ?_
    split
    · exact .inl rfl
    · exact .inr rfl
  refine .iterate fun _ => .bind (.ask watched) fun answer => ?_
  rcases answer with error | events
  · cases error <;> trivial
  · dsimp only
    split
    · trivial
    · split
      · trivial
      · split
        · trivial
        · split
          · refine .bind (.ask (reads _)) fun answer => ?_
            rcases answer with error | bytes
            · cases error <;> trivial
            · trivial
          · split <;> trivial

variable {signals : SignalReceiver} (receives : allowed (.readSignal signals.fd))
include writes polls reads receives

theorem uses_editRound (useStdin hide : Bool) (typed : Line) :
    Fallible.Uses allowed (editRound prompt signals useStdin hide typed) := by
  unfold editRound
  refine .bind (uses_promptRead polls reads 1) fun found => ?_
  rcases found with ⟨_ | _ | ⟨ch,rest⟩,_⟩
  · refine .bind (uses_receiverRead receives) fun event => ?_
    rcases event with _ | event
    · trivial
    · dsimp only
      cases event.signal <;> trivial
  · trivial
  · dsimp only
    split
    · trivial
    · split
      · split
        · exact .bind (.lift (uses_ignoring (uses_promptWrite writes erase))) fun _ => trivial
        · split
          · exact .bind (.lift (uses_ignoring (uses_promptWrite writes erase))) fun _ => trivial
          · trivial
      · split
        · exact .bind (.lift (uses_ignoring (uses_promptWrite writes [42]))) fun _ => trivial
        · trivial

theorem uses_promptBody (msg : String) (useStdin hide : Bool) (hidden : Except Error Unit) :
    Fallible.Uses allowed (promptBody msg signals useStdin hide hidden prompt) := by
  have typed : Fallible.Uses allowed (takeLine prompt signals useStdin hide) := by
    refine .bind (.iterate (uses_editRound writes polls reads receives useStdin hide)) fun typed => ?_
    dsimp only
    split
    · trivial
    · cases decode typed.buffer <;> trivial
  unfold promptBody
  cases hidden with
  | error error => trivial
  | ok _ =>
    cases useStdin with
    | true => exact typed
    | false =>
      refine .bind (uses_promptWrite writes _) fun _ => ?_
      dsimp only
      split
      · exact .bind (uses_promptWrite writes _) fun _ => typed
      · exact typed

end

/-! The way to exec. -/

theorem uses_unicodeVar {allowed : Call → Prop} (panics : allowed .panic) (item : Bytes × Bytes) :
    Fallible.Uses allowed (unicodeVar item) := by
  unfold unicodeVar
  split
  · trivial
  · exact .bind (.ask panics) fun never => nomatch never

theorem uses_varsOs {allowed : Call → Prop} (environ : allowed .environ) : varsOs.Uses allowed :=
  Program.Uses.bind (.ask environ) fun _ => trivial

theorem uses_envVar {allowed : Call → Prop} (name : String) (getenv : allowed (.getenv name)) :
    (envVar name).Uses allowed := Program.Uses.bind (.ask getenv) fun _ => trivial

theorem uses_cleanEnvironment {allowed : Call → Prop} (environ : allowed .environ)
    (unset : ∀ name, allowed (.unsetenv name)) (panics : allowed .panic) :
    Fallible.Uses allowed cleanEnvironment := by
  have remove (name : String) : Fallible.Uses allowed (removeVar name) := by
    refine .bind (.ask (unset name)) fun answer => ?_
    cases answer with
    | ok => trivial
    | error => exact .bind (.ask panics) fun never => nomatch never
  have item (entry : Bytes × Bytes) : Fallible.Uses allowed (cleanItem entry) := by
    refine .bind (uses_unicodeVar panics entry) fun pair => ?_
    obtain ⟨name,_⟩ := pair
    dsimp only
    split
    · trivial
    · exact remove name
  unfold cleanEnvironment
  refine .bind (.lift (uses_varsOs environ)) fun entries => ?_
  induction entries with
  | nil => trivial
  | cons entry entries ih => exact .bind (item entry) fun _ => ih

theorem uses_setCwd {allowed : Call → Prop} (chdir : ∀ dir, allowed (.chdir dir)) (cwd : Option String) :
    Fallible.Uses allowed (setCwd cwd) := by
  cases cwd with
  | none => trivial
  | some dir =>
    refine .bind (.ask (chdir dir)) fun answer => ?_
    cases answer <;> trivial

/-- Where a command is looked for: at its own path, or without a slash in a directory. -/
def Located (cmd path : CString) : Prop :=
  path = cmd ∨ 47 ∉ cmd.bytes ∧ ∃ directory,path.bytes = directory ++ cmd.bytes

theorem uses_tryCandidates {allowed : Call → Prop} {argv envp : List CString} {paths : List (List Char)}
    (attempt : ∀ candidate ∈ paths,∀ path : CString,path.bytes = encode (String.ofList candidate) →
      allowed (.execve path argv envp)) : ∀ denied,Fallible.Uses allowed (tryCandidates argv envp denied paths) := by
  induction paths with
  | nil => exact fun _ => trivial
  | cons candidate paths ih =>
    intro denied
    have later := ih fun other member => attempt other (List.mem_cons_of_mem _ member)
    unfold tryCandidates cstr
    cases made : CString.new (encode (String.ofList candidate)) with
    | none => trivial
    | some path =>
      have known := attempt candidate List.mem_cons_self path (CString.new_eq_some made)
      dsimp only
      rw [pure_bind]
      refine .bind (.ask known) fun error => ?_
      cases error with
      | enoent | enotdir => exact later denied
      | eacces => exact later true
      | _ => trivial

def execFrom (build : Build) (user target : Account) (cmd : CString) (argv envp : List CString)
    (cwd : Option String) (supervisor : Option Pid) : M Empty := do
  cleanEnvironment
  setCredentials build user target
  if build.backend = .scopex then
    if let some supervisor := supervisor then rearm supervisor
    setCwd cwd
    execvpe cmd argv envp
  else throw (.errno (← ask (.execvp cmd argv)))

theorem exec_from (build : Build) (user target : Account) (cmd : CString) (argv envp : List CString)
    (cwd : Option String) : exec build user target cmd argv envp cwd =
      (if build.supervised then some <$> ask .getppid else pure none) >>=
        execFrom build user target cmd argv envp cwd := by
  unfold exec
  cases build.supervised <;> rfl

theorem uses_execvpe {allowed : Call → Prop} {argv envp : List CString} {cmd : CString}
    (attempt : ∀ path,Located cmd path → allowed (.execve path argv envp)) (getenv : ∀ name,allowed (.getenv name)) :
    Fallible.Uses allowed (execvpe cmd argv envp) := by
  unfold execvpe
  cases decoded : decode cmd.bytes with
  | none => trivial
  | some command =>
    have bytes := encode_decode decoded
    dsimp only
    split
    · exact .bind (.ask (attempt cmd (.inl rfl))) fun _ => trivial
    · next plain =>
      have noSlash : 47 ∉ cmd.bytes := fun member =>
        plain ((mem_encode (c := '/') (by decide) command).mp (bytes ▸ member))
      refine .bind (.lift (uses_envVar _ (getenv _))) fun callerPath => uses_tryCandidates ?_ _
      intro candidate member path same
      refine attempt path (.inr ⟨noSlash,?_⟩)
      obtain ⟨list,_,member⟩ := List.mem_flatMap.mp member
      obtain ⟨directory,_,rfl⟩ := List.mem_map.mp member
      rw [same,← bytes]
      unfold joinPath
      split
      · exact ⟨_,by rw [encode_append,String.ofList_toList]⟩
      · refine ⟨encode (String.ofList (directory ++ ['/'])),?_⟩
        rw [← List.singleton_append,← List.append_assoc,encode_append,String.ofList_toList]

theorem uses_overrides {allowed : Call → Prop} {path : String} (opens : allowed (.openFile path))
    (inspects : allowed .fileMetadata) (reads : allowed .readLine) (getenv : ∀ name,allowed (.getenv name))
    (target : Account) (placeholders : List (String × String)) (env : EnvMap) :
    (loadOverwriteVars path target placeholders env).Uses allowed := by
  have line (env : EnvMap) (text : String) : (overwriteLine target placeholders env text).Uses allowed := by
    unfold overwriteLine
    split
    · trivial
    · dsimp only
      split
      · trivial
      · split
        · trivial
        · exact Program.Uses.bind (uses_envVar _ (getenv _)) fun _ => trivial
  have round (env : EnvMap) : (overwriteRound target placeholders env).Uses allowed := by
    refine Program.Uses.bind (.ask reads) fun read => ?_
    split
    · trivial
    · trivial
    · split
      · trivial
      · exact Program.Uses.bind (line env _) fun _ => trivial
  refine Program.Uses.bind (.ask opens) fun opened => ?_
  split
  · trivial
  · trivial
  · refine Program.Uses.bind (.ask inspects) fun found => ?_
    split
    · trivial
    · split
      · trivial
      · split
        · trivial
        · exact .iterate round

theorem uses_loadOverwriteVars (path : String) (target : Account) (placeholders : List (String × String))
    (env : EnvMap) : (loadOverwriteVars path target placeholders env).Uses (About [.files,.environment]) := by
  refine uses_overrides ?_ ?_ ?_ (fun name => ?_) target placeholders env <;> simp [About,Call.topic]

section
variable {allowed : Call → Prop} (reports : ∀ context error,allowed (.report context error)) (exits : allowed (.exit 1))
include reports exits

/-- A text that is no C string is reported, and ends the program. -/
theorem fails_cstring (bytes : Bytes) : Fallible.Uses allowed (cstring bytes) := by
  unfold cstring
  split
  · trivial
  · exact .bind (.ask (reports _ _)) fun _ => .bind (.ask exits) fun never => nomatch never

theorem fails_cstrings (words : List Bytes) : Fallible.Uses allowed (cstrings words) := by
  induction words with
  | nil => trivial
  | cons bytes words ih => exact .bind (fails_cstring reports exits bytes) fun _ => .bind ih fun _ => trivial

theorem fails_finishArgv (prepared : Prepared) (env : EnvMap) : Fallible.Uses allowed (finishArgv prepared env) := by
  have setenv (entries : List (Sigma fun _ : String => String)) : Fallible.Uses allowed (setenvWords entries) := by
    induction entries with
    | nil => trivial
    | cons entry entries ih => exact .bind (fails_cstring reports exits _) fun _ => .bind ih fun _ => trivial
  refine .bind (setenv env.entries) fun words => ?_
  split
  · trivial
  · exact .bind (fails_cstrings reports exits _) fun command => trivial

end

def environmentTopics : List Topic := [.files,.environment,.talk,.finish]

private theorem environment_reports (context : String) (error : Error) : About environmentTopics (.report context error) := by
  simp [About,Call.topic,environmentTopics]

private theorem environment_exits : About environmentTopics (.exit 1) := by simp [About,Call.topic,environmentTopics]

theorem uses_cstrings (words : List Bytes) : Fallible.Uses (About environmentTopics) (cstrings words) :=
  fails_cstrings environment_reports environment_exits words

theorem uses_finishArgv (prepared : Prepared) (env : EnvMap) :
    Fallible.Uses (About environmentTopics) (finishArgv prepared env) :=
  fails_finishArgv environment_reports environment_exits prepared env

section
variable {allowed : Call → Prop} (environ : allowed .environ) (panics : allowed .panic)
include environ panics

theorem uses_setEnvironment (target : Account) (env : EnvMap) : Fallible.Uses allowed (setEnvironment target env) := by
  have item (env : EnvMap) (entry : Bytes × Bytes) : Fallible.Uses allowed (keepItem env entry) :=
    .bind (uses_unicodeVar panics entry) fun _ => trivial
  refine .bind (.lift (uses_varsOs environ)) fun entries => ?_
  generalize setDefaults target env = start
  induction entries generalizing start with
  | nil => trivial
  | cons entry entries ih => exact .bind (item _ entry) fun env => ih env

theorem uses_assembled {run : Invocation} {prepared : Prepared} (overrides : ∀ env,
      (loadOverwriteVars envFile prepared.targetUser (placeholders prepared.targetUser) env).Uses allowed)
    (reports : ∀ error,allowed (.report "" error)) (pamEnv : EnvMap) :
    Fallible.Uses allowed (run.assemble prepared pamEnv) := by
  refine .bind (.lift (overrides _)) fun loaded => ?_
  obtain ⟨result,env⟩ := loaded
  have rest (env : EnvMap) : Fallible.Uses allowed
      (if run.build.backend = .scopex then setEnvironment prepared.targetUser env else return env : M EnvMap) := by
    split
    · exact uses_setEnvironment environ panics _ _
    · trivial
  cases result with
  | ok => exact rest _
  | error error => exact .bind (.ask (reports error)) fun _ => rest _

end

theorem uses_assemble (run : Invocation) (prepared : Prepared) (pamEnv : EnvMap) :
    Fallible.Uses (About environmentTopics) (run.assemble prepared pamEnv) := by
  have file (event : Call) (about : About [.files,.environment] event) : About environmentTopics event := by
    revert about
    simp only [About,environmentTopics,List.mem_cons,List.not_mem_nil]
    tauto
  refine uses_assembled ?_ ?_ (fun env => (uses_loadOverwriteVars _ _ _ env).mono file) (environment_reports "") pamEnv
  all_goals simp [About,Call.topic,environmentTopics]

end Runas
