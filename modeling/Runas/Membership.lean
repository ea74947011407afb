import Runas.User
import Runas.Interaction.Trace

/-! Membership answers of an account over any sequence of its operations, where the
database of users and groups stays the same. -/
namespace Runas
open Interaction Text

/-- What `getgrouplist` answers for a name and a group. -/
abbrev GroupDatabase := CString → Gid → Except Errno (List Gid)

namespace Account

inductive Operation
  | setUser (user : User)
  | setGroup (group : Group)
  | groupList
  | isMember (group : Group)

inductive Outcome
  | done
  | failed
  | listed (list : List Gid)
  | answered (member : Bool)

section
variable (db : GroupDatabase)

def Fixed : Exchange Call Answer → Prop
  | ⟨.getgrouplist name gid,answer⟩ => answer = db name gid
  | _ => True

/-- The database lists the group for the user. -/
def Listed (user : User) (gid : Gid) : Prop :=
  ∃ name list,CString.new (encode user.name) = some name ∧ db name user.gid = .ok list ∧ gid ∈ list

/-- One operation. A failed one leaves the account as it was. -/
inductive Does (account : Account) : Operation → Outcome → Account → Prop
  | setUser (user : User) : Does account (.setUser user) .done (account.setUser user)
  | setGroup (group : Group) : Does account (.setGroup group) .done (account.setGroup group)
  | groupList {t : List (Exchange Call Answer)} {list : List Gid} {after : Account}
      (trace : Trace account.getGroupList.run t (.ok (list,after))) (fixed : ∀ x ∈ t,Fixed db x) :
      Does account .groupList (.listed list) after
  | groupListFails {t : List (Exchange Call Answer)} {error : Error}
      (trace : Trace account.getGroupList.run t (.error error)) (fixed : ∀ x ∈ t,Fixed db x) :
      Does account .groupList .failed account
  | isMember {t : List (Exchange Call Answer)} {group : Group} {member : Bool} {after : Account}
      (trace : Trace (account.isMember group).run t (.ok (member,after))) (fixed : ∀ x ∈ t,Fixed db x) :
      Does account (.isMember group) (.answered member) after
  | isMemberFails {t : List (Exchange Call Answer)} {group : Group} {error : Error}
      (trace : Trace (account.isMember group).run t (.error error)) (fixed : ∀ x ∈ t,Fixed db x) :
      Does account (.isMember group) .failed account

/-- A sequence of operations, each with the account it finds. -/
inductive Performs : Account → List (Account × Operation) → Account → Prop
  | nil (account : Account) : Performs account [] account
  | cons {account next final : Account} {operation : Operation} {outcome : Outcome} {steps : List (Account × Operation)}
      (does : Does db account operation outcome next) (rest : Performs next steps final) :
      Performs account ((account,operation) :: steps) final

/-- Whatever group is asked for now, an answer is about the user that the account has now. -/
def Truthful (account : Account) : Prop :=
  ∀ group member after,Does db account (.isMember group) (.answered member) after →
    (member = true ↔ account.uid = 0 ∨ Listed db account.user group.gid)

/-- The list that is kept, if there is one, has the groups of this user; root needs no list. -/
def Suits (account : Account) (user : User) : Prop :=
  user.uid = 0 ∨ ∀ list,account.groupList = some list → ∀ gid,gid ∈ list ↔ Listed db user gid

def Meets (account : Account) : Operation → Prop
  | .setUser user => Suits db account user
  | _ => True

end

section
variable {db : GroupDatabase} {account after : Account} {t : List (Exchange Call Answer)}

private theorem getGroupList_cases {list : List Gid} (trace : Trace account.getGroupList.run t (.ok (list,after)))
    (fixed : ∀ x ∈ t,Fixed db x) : account.groupList = some list ∧ after = account ∨
      account.groupList = none ∧ after = { account with groupList := some list } ∧
        ∀ gid,gid ∈ list ↔ Listed db account.user gid := by
  unfold getGroupList at trace
  cases kept : account.groupList with
  | some groups =>
    rw [kept] at trace
    obtain ⟨same,_⟩ := (trace_done _ _ _).mp trace
    cases same
    exact .inl ⟨rfl,rfl⟩
  | none =>
    rw [kept] at trace
    unfold cstr at trace
    cases named : CString.new (encode account.user.name) with
    | none =>
      rw [named] at trace
      obtain ⟨same,_⟩ := (trace_done _ _ _).mp trace
      cases same
    | some name =>
      rw [named] at trace
      obtain ⟨answer,rest,rfl,continued⟩ := (trace_call _ _ _ _).mp trace
      have known : answer = db name account.user.gid := fixed _ List.mem_cons_self
      subst known
      clear trace
      cases listing : db name account.user.gid with
      | error error =>
        rw [listing] at continued
        obtain ⟨same,_⟩ := (trace_done _ _ _).mp continued
        cases same
      | ok groups =>
        rw [listing] at continued
        obtain ⟨same,_⟩ := (trace_done _ _ _).mp continued
        cases same
        refine .inr ⟨rfl,rfl,fun gid => ⟨fun member => ⟨name,_,named,listing,member⟩,?_⟩⟩
        rintro ⟨other,list,again,found,member⟩
        cases named.symm.trans again
        cases listing.symm.trans found
        exact member

private theorem isMember_cases {group : Group} {member : Bool}
    (trace : Trace (account.isMember group).run t (.ok (member,after))) :
    account.uid = 0 ∧ member = true ∧ after = account ∨ account.uid ≠ 0 ∧ ∃ list,
      Trace account.getGroupList.run t (.ok (list,after)) ∧ (member = true ↔ group.gid ∈ list) := by
  unfold isMember at trace
  by_cases root : account.isRoot = true
  · rw [if_pos root] at trace
    obtain ⟨same,_⟩ := (trace_done _ _ _).mp trace
    cases same
    exact .inl ⟨(isRoot_eq_true account).mp root,rfl,rfl⟩
  · rw [if_neg root] at trace
    obtain ⟨first,⟨list,found⟩,second,rfl,listed,ended⟩ := (Fallible.trace_bind_ok _ _ _ _).mp trace
    obtain ⟨same,rfl⟩ := (trace_done _ _ _).mp ended
    cases same
    rw [List.append_nil]
    refine .inr ⟨fun zero => root ((isRoot_eq_true account).mpr zero),list,listed,?_⟩
    simp

/-- An account answers truthfully as long as the list it keeps suits its user. -/
private theorem truthful_iff : Truthful db account ↔ Suits db account account.user := by
  constructor
  · intro truthful
    by_cases root : account.user.uid = 0
    · exact .inl root
    · refine .inr fun list kept gid => ?_
      have plain : ¬ account.isRoot = true := fun zero => root ((isRoot_eq_true account).mp zero)
      have answers := truthful ⟨gid,""⟩ (list.any (· == gid)) account (.isMember (t := []) (by
        unfold isMember getGroupList
        rw [if_neg plain,kept]
        exact .done _) (by simp))
      simpa [uid,root] using answers
  · intro suits group member after does
    cases does with
    | isMember trace fixed =>
      obtain ⟨root,yes,_⟩ | ⟨plain,list,listing,yes⟩ := isMember_cases trace
      · exact iff_of_true yes (.inl root)
      · have members : group.gid ∈ list ↔ Listed db account.user group.gid := by
          obtain ⟨kept,_⟩ | ⟨_,_,known⟩ := getGroupList_cases listing fixed
          · obtain zero | suits := suits
            · exact (plain zero).elim
            · exact suits list kept group.gid
          · exact known group.gid
        rw [yes,members,or_iff_right plain]

/-- The list that is left suits the user if the one before did, or if none was kept. -/
private theorem getGroupList_suits {list : List Gid} (suits : Suits db account account.user)
    (trace : Trace account.getGroupList.run t (.ok (list,after))) (fixed : ∀ x ∈ t,Fixed db x) :
    Suits db after after.user := by
  obtain ⟨_,rfl⟩ | ⟨_,rfl,known⟩ := getGroupList_cases trace fixed
  · exact suits
  · refine .inr fun other kept => ?_
    cases kept
    exact known

private theorem Does.suits {operation : Operation} {outcome : Outcome} (does : Does db account operation outcome after)
    (suits : Suits db account account.user) : Suits db after after.user ↔ Meets db account operation := by
  cases does with
  | setUser user => exact Iff.rfl
  | setGroup group => exact iff_of_true suits trivial
  | groupList trace fixed => exact iff_of_true (getGroupList_suits suits trace fixed) trivial
  | groupListFails trace fixed => exact iff_of_true suits trivial
  | isMember trace fixed =>
    refine iff_of_true ?_ trivial
    obtain ⟨_,_,rfl⟩ | ⟨_,list,listing,_⟩ := isMember_cases trace
    · exact suits
    · exact getGroupList_suits suits listing fixed
  | isMemberFails trace fixed => exact iff_of_true suits trivial

private theorem Performs.truthful {steps : List (Account × Operation)} {final : Account}
    (performs : Performs db account steps final) (all : (∀ step ∈ steps,Truthful db step.1) ∧ Truthful db final) :
    Truthful db account := by
  cases performs with
  | nil => exact all.2
  | cons does rest => exact all.1 _ List.mem_cons_self

end

/-- In a sequence of operations on an account that is newly made, every answer of every state
is about the user of the time exactly when each user is set while no list is kept or while
the one that is kept suits that user. -/
theorem membership_truthful_iff (db : GroupDatabase) {account final : Account} {steps : List (Account × Operation)}
    (made : account.groupList = none) (performs : Performs db account steps final) :
    ((∀ step ∈ steps,Truthful db step.1) ∧ Truthful db final) ↔ ∀ step ∈ steps,Meets db step.1 step.2 := by
  have suits : Suits db account account.user := .inr fun list kept => by rw [made] at kept; cases kept
  clear made
  induction performs with
  | nil account => simpa using truthful_iff.mpr suits
  | cons does rest ih =>
    rw [List.forall_mem_cons,List.forall_mem_cons,and_assoc,← does.suits suits]
    constructor
    · rintro ⟨_,later⟩
      have next := truthful_iff.mp (rest.truthful later)
      exact ⟨next,(ih next).mp later⟩
    · rintro ⟨next,meets⟩
      exact ⟨truthful_iff.mpr suits,(ih next).mpr meets⟩

private def sudoers : GroupDatabase := fun name _ => .ok (if name.bytes = encode "alice" then [27] else [])

private def bob : User := ⟨1001,1001,"bob","/home/bob","/bin/sh"⟩

/-- Alice's list is asked for before the account becomes Bob's. -/
private theorem asked_before : Performs sudoers alice
    [(alice,.isMember ⟨27,"sudo"⟩),({ alice with groupList := some [27] },.setUser bob)]
    ⟨bob,alice.group,some [27]⟩ := by
  refine .cons (.isMember (t := [⟨.getgrouplist ⟨encode "alice",by decide⟩ 1000,.ok [27]⟩]) (replay_sound 10 rfl) ?_)
    (.cons (.setUser bob) (.nil _))
  simp [Fixed,sudoers]

theorem membership_truthful_cached : ((∀ step ∈ [(alice,Operation.isMember ⟨27,"sudo"⟩),
      ({ alice with groupList := some [27] },.setUser bob)],Truthful sudoers step.1) ∧
    Truthful sudoers ⟨bob,alice.group,some [27]⟩) ↔
      ∀ step ∈ [(alice,Operation.isMember ⟨27,"sudo"⟩),({ alice with groupList := some [27] },.setUser bob)],
        Meets sudoers step.1 step.2 :=
  membership_truthful_iff sudoers rfl asked_before

/-- Bob is answered from Alice's list: he is no member of the group, and is said to be one. -/
theorem membership_stale : ∃ steps final,Performs sudoers alice steps final ∧
    (∃ after,Does sudoers final (.isMember ⟨27,"sudo"⟩) (.answered true) after) ∧
    final.uid ≠ 0 ∧ ¬ Listed sudoers final.user 27 := by
  refine ⟨_,_,asked_before,⟨_,.isMember (t := []) (replay_sound 10 rfl) (by simp)⟩,by decide,?_⟩
  rintro ⟨name,list,named,listed,member⟩
  have bytes : name.bytes ≠ encode "alice" := by
    rw [CString.new_eq_some named]
    decide
  rw [sudoers,if_neg bytes] at listed
  cases listed
  cases member

end Account

end Runas
