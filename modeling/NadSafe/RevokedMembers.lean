import NadSafe.RowOrder
import NadSafe.ServerTables

/-!
# Revoked memberships

A revoked membership keeps its status, shifted below zero, and restoring it
shifts it back. The queries for the organizations of a user leave out the one
status that is called revoked, which no membership ever has.
-/

namespace NadSafe.RevokedMembers

open HostText ServerTables RowOrder

/-- `get_unrevoked_status`. -/
def getUnrevokedStatus (m : Membership) : ℤ :=
  if m.status≤Revoked then m.status+ACTIVATE_REVOKE_DIFF else m.status

section Queries

variable (order : List (Organization×Membership) → List (Organization×Membership)) (toLowercase : Text → Text)
  (t : Tables) (email : Text)

/-- The joined rows of an address. -/
def joinedRows : List (Organization×Membership) :=
  t.organizations.flatMap fun o => t.members.flatMap fun m => t.users.filterMap fun u =>
    if m.orgUuid=o.uuid ∧ u.uuid=m.userUuid ∧ u.email=toLowercase email ∧ m.status≠Revoked then some (o,m)
    else none

/-- The rows that `find_org_user_email` and `find_main_org_user_email` select
from. -/
def orgUserRows : List (Organization×Membership) :=
  orderBy (fun r => r.2.atype.code) (order (joinedRows toLowercase t email))

/-- `find_main_org_user_email`. -/
def findMainOrgUserEmail : Option Organization := (orgUserRows order toLowercase t email).head?.map Prod.fst

/-- `find_org_user_email`. -/
def findOrgUserEmail : List Organization := (orgUserRows order toLowercase t email).map Prod.fst

/-- `find_main_user_org`. -/
def findMainUserOrg (order : List Membership → List Membership) (user : Uuid) : Option Membership :=
  (orderBy (fun m => m.atype.code)
    (order (t.members.filter fun m => m.userUuid=user ∧ m.status≠Revoked))).head?

end Queries

/-- A membership is revoked, or restored. -/
inductive Change where
  /-- `revoke`. -/
  | revoke (id : Uuid)
  /-- `restore`. -/
  | restore (id : Uuid)

/-- What a change does to a membership. -/
def Change.apply (m : Membership) : Change → Membership
  | .revoke id => if m.uuid=id then m.revoke else m
  | .restore id => if m.uuid=id then m.restore else m

/-- One change. -/
def step (t : Tables) (c : Change) : Tables := {t with members := t.members.map fun m => c.apply m}

/-- One change after the other. -/
def run (cs : List Change) (t : Tables) : Tables := cs.foldl step t

/-- What becomes of a membership. -/
def history (cs : List Change) (m : Membership) : Membership := cs.foldl Change.apply m

/-- What a change says about a membership. -/
def Change.marks (id : Uuid) (revoked : Bool) : Change → Bool
  | .revoke other => if id=other then true else revoked
  | .restore other => if id=other then false else revoked

/-- Whether the last change of a membership revokes it. -/
def lastRevokes (cs : List Change) (id : Uuid) : Bool := cs.foldl (Change.marks id) false

/-- A membership as it is created: invited, accepted or confirmed. -/
def Created (m : Membership) : Prop := m.status=Invited ∨ m.status=Accepted ∨ m.status=Confirmed

instance (m : Membership) : Decidable (Created m) :=
  inferInstanceAs (Decidable (m.status=Invited ∨ m.status=Accepted ∨ m.status=Confirmed))

/-- The status says revoked, as `get_unrevoked_status` reads it. -/
def IsRevoked (m : Membership) : Prop := m.status≤Revoked

instance (m : Membership) : Decidable (IsRevoked m) := inferInstanceAs (Decidable (m.status≤Revoked))

/-- The statuses of memberships that are not revoked, and of revoked ones. -/
def Encoded (status : ℤ) : Prop :=
  status=0 ∨ status=1 ∨ status=2 ∨ status=-128 ∨ status=-127 ∨ status=-126

/-- A membership in some organization, of the user with an address. -/
def OfAddress (toLowercase : Text → Text) (t : Tables) (email : Text) (m : Membership) : Prop :=
  (∃ o∈t.organizations,o.uuid=m.orgUuid) ∧ ∃ u∈t.users,u.uuid=m.userUuid ∧ u.email=toLowercase email

section Statuses

variable {m : Membership}

theorem created_iff : Created m ↔ m.status=0 ∨ m.status=1 ∨ m.status=2 := Iff.rfl

@[simp] theorem revoke_uuid : m.revoke.uuid=m.uuid := by
  unfold Membership.revoke
  split <;> rfl

theorem revoke_status (h : Created m) : m.revoke.status=m.status-128 := by
  have hcreated := (created_iff).mp h
  have hrevoked : Revoked=-1 := rfl
  have heffective : Revoked< m.status := by omega
  rw [Membership.revoke,if_pos heffective]
  rfl

/-- A membership that is not revoked stays as it is when it is restored. -/
theorem restore_created (h : Created m) : m.restore=m := by
  have hcreated := (created_iff).mp h
  have hinvited : Invited=0 := rfl
  exact if_neg (by omega)

/-- A revoked membership stays as it is when it is revoked. -/
theorem revoke_revoke (h : Created m) : m.revoke.revoke=m.revoke := by
  have hstatus := revoke_status h
  have hcreated := (created_iff).mp h
  have hrevoked : Revoked=-1 := rfl
  exact if_neg (by omega)

/-- What a revocation changes, a restoration changes back. -/
theorem restore_revoke (h : Revoked< m.status) (hbound : m.status<128) : m.revoke.restore=m := by
  have hrevoked : Revoked=-1 := rfl
  have hinvited : Invited=0 := rfl
  have hdiff : ACTIVATE_REVOKE_DIFF=128 := rfl
  have hrevoke : m.revoke={m with status := m.status-128} := if_pos h
  have heffective : ({m with status := m.status-128} : Membership).status<Invited := by
    show m.status-128<Invited
    omega
  rw [hrevoke,Membership.restore,if_pos heffective]
  show ({m with status := m.status-128+128} : Membership)=m
  rw [Int.sub_add_cancel]

end Statuses

section Histories

variable {m : Membership} {cs : List Change} {t : Tables}

/-- One change of a membership that was revoked or not. -/
theorem apply_eq (h : Created m) (revoked : Bool) (c : Change) :
    c.apply (if revoked then m.revoke else m)=if c.marks m.uuid revoked then m.revoke else m := by
  have huuid : (if revoked then m.revoke else m).uuid=m.uuid := by
    cases revoked with
    | false => rfl
    | true => exact revoke_uuid
  cases c with
  | revoke id =>
    rw [Change.apply,Change.marks,huuid]
    by_cases hid : m.uuid=id
    · rw [if_pos hid,if_pos hid]
      cases revoked with
      | false => rfl
      | true => exact revoke_revoke h
    · rw [if_neg hid,if_neg hid]
  | restore id =>
    rw [Change.apply,Change.marks,huuid]
    by_cases hid : m.uuid=id
    · rw [if_pos hid,if_pos hid]
      have hcreated := (created_iff).mp h
      cases revoked with
      | false => exact restore_created h
      | true => exact restore_revoke (show -1< m.status by omega) (by omega)
    · rw [if_neg hid,if_neg hid]

/-- A membership is as it was created, or as one revocation leaves it. -/
theorem history_eq (h : Created m) (cs : List Change) :
    history cs m=if lastRevokes cs m.uuid then m.revoke else m := by
  have hfold : ∀ revoked,cs.foldl Change.apply (if revoked then m.revoke else m)=
      if cs.foldl (Change.marks m.uuid) revoked then m.revoke else m := by
    induction cs with
    | nil => exact fun revoked => rfl
    | cons c cs ih =>
      intro revoked
      rw [List.foldl_cons,List.foldl_cons,apply_eq h]
      exact ih _
  exact hfold false

@[simp] theorem history_uuid (h : Created m) : (history cs m).uuid=m.uuid := by
  rw [history_eq h]
  split
  · exact revoke_uuid
  · rfl

/-- A restoration brings back what was created. -/
theorem restore_history (h : Created m) : (history cs m).restore=m := by
  have hcreated := (created_iff).mp h
  rw [history_eq h]
  split
  · exact restore_revoke (show -1< m.status by omega) (by omega)
  · exact restore_created h

theorem encoded_history (h : Created m) : Encoded (history cs m).status := by
  have hcreated := (created_iff).mp h
  have hstatus := revoke_status h
  unfold Encoded
  rw [history_eq h]
  split <;> omega

/-- A membership is revoked exactly when its last change revoked it. -/
theorem isRevoked_history (h : Created m) : IsRevoked (history cs m) ↔ lastRevokes cs m.uuid=true := by
  have hcreated := (created_iff).mp h
  have hstatus := revoke_status h
  have hrevoked : Revoked=-1 := rfl
  rw [history_eq h]
  unfold IsRevoked
  by_cases hlast : lastRevokes cs m.uuid=true
  · rw [if_pos hlast]
    exact iff_of_true (by omega) hlast
  · rw [if_neg hlast]
    exact iff_of_false (by omega) hlast

theorem unrevoked_history (h : Created m) : getUnrevokedStatus (history cs m)=m.status := by
  have hcreated := (created_iff).mp h
  have hstatus := revoke_status h
  have hrevoked : Revoked=-1 := rfl
  have hdiff : ACTIVATE_REVOKE_DIFF=128 := rfl
  unfold getUnrevokedStatus
  rw [history_eq h]
  split_ifs <;> omega

/-- No membership ever has the status that the queries leave out. -/
theorem history_ne_revoked (h : Created m) : (history cs m).status≠Revoked := by
  have hencoded : Encoded (history cs m).status := encoded_history h
  have hrevoked : Revoked=-1 := rfl
  unfold Encoded at hencoded
  omega

/-- Changes keep all else of a membership. -/
theorem history_same (cs : List Change) (h : Created m) : (history cs m).userUuid=m.userUuid ∧ (history cs m).orgUuid=m.orgUuid ∧
    (history cs m).atype=m.atype := by
  have hrevoke : m.revoke.userUuid=m.userUuid ∧ m.revoke.orgUuid=m.orgUuid ∧ m.revoke.atype=m.atype := by
    unfold Membership.revoke
    split <;> exact ⟨rfl,rfl,rfl⟩
  rw [history_eq h]
  split
  · exact hrevoke
  · exact ⟨rfl,rfl,rfl⟩

/-- A run changes the memberships one by one. -/
theorem run_eq : run cs t={t with members := t.members.map (history cs)} := by
  induction cs generalizing t with
  | nil =>
    have hsame : t.members.map (history [])=t.members := List.map_id _
    rw [hsame]
    rfl
  | cons c cs ih =>
    have hmap : (t.members.map fun m => c.apply m).map (history cs)=t.members.map (history (c::cs)) := List.map_map
    rw [run,List.foldl_cons]
    exact (ih (t:=step t c)).trans (congrArg (fun members => {t with members := members}) hmap)

end Histories

section Lookups

variable {toLowercase : Text → Text} {t : Tables} {email : Text} {user : Uuid} {cs : List Change}

theorem mem_joinedRows {o : Organization} {m : Membership} : (o,m)∈joinedRows toLowercase t email ↔
    o∈t.organizations ∧ m∈t.members ∧ ∃ u∈t.users,m.orgUuid=o.uuid ∧ u.uuid=m.userUuid ∧
      u.email=toLowercase email ∧ m.status≠Revoked := by
  unfold joinedRows
  simp only [List.mem_flatMap,List.mem_filterMap]
  constructor
  · rintro ⟨o',ho,m',hm,u,hu,h⟩
    split at h
    · rename_i hjoined
      cases h
      exact ⟨ho,hm,u,hu,hjoined⟩
    · cases h
  · rintro ⟨ho,hm,u,hu,hjoined⟩
    exact ⟨o,ho,m,hm,u,hu,if_pos hjoined⟩

/-- Every membership of the user with the address is found, revoked or not. -/
theorem mem_joinedRows_run (hcreated : ∀ m∈t.members,Created m) {r : Organization×Membership}
    (h : r∈joinedRows toLowercase (run cs t) email) :
    ∃ m∈t.members,OfAddress toLowercase t email m ∧ history cs m=r.2 := by
  obtain ⟨o,m'⟩ := r
  rw [run_eq] at h
  obtain ⟨ho,hm',u,hu,horg,huser,hemail,-⟩ := (mem_joinedRows).mp h
  obtain ⟨m,hm,rfl⟩ := List.mem_map.mp hm'
  obtain ⟨huserUuid,horgUuid,-⟩ := history_same cs (hcreated m hm)
  exact ⟨m,hm,⟨⟨o,ho,horg.symm.trans horgUuid⟩,u,hu,huser.trans huserUuid,hemail⟩,rfl⟩

theorem exists_joinedRow (cs : List Change) (hcreated : ∀ m∈t.members,Created m) {m : Membership}
    (hm : m∈t.members) (h : OfAddress toLowercase t email m) : ∃ o,(o,history cs m)∈joinedRows toLowercase (run cs t) email := by
  obtain ⟨⟨o,ho,horg⟩,u,hu,huser,hemail⟩ := h
  obtain ⟨huserUuid,horgUuid,-⟩ := history_same cs (hcreated m hm)
  refine ⟨o,?_⟩
  rw [run_eq]
  exact (mem_joinedRows).mpr ⟨ho,List.mem_map_of_mem hm,u,hu,horgUuid.trans horg.symm,huser.trans huserUuid.symm,
    hemail,history_ne_revoked (hcreated m hm)⟩

/-- The organizations of an address leave out the revoked memberships exactly
when there is none. -/
theorem orgUserRows_avoid_iff (hcreated : ∀ m∈t.members,Created m) :
    (∀ order,Rearranges order → ∀ r∈orgUserRows order toLowercase (run cs t) email,¬IsRevoked r.2) ↔
      ∀ m∈t.members,OfAddress toLowercase t email m → lastRevokes cs m.uuid=false := by
  constructor
  · intro h m hm hm'
    obtain ⟨o,hrow⟩ := exists_joinedRow cs hcreated hm hm'
    have hnot := h id .refl _ ((mem_ordered .refl).mpr hrow)
    exact Bool.eq_false_of_not_eq_true fun hlast => hnot ((isRevoked_history (hcreated m hm)).mpr hlast)
  · intro h order horder r hr hrevoked
    obtain ⟨m,hm,hm',heq⟩ := mem_joinedRows_run hcreated ((mem_ordered horder).mp hr)
    rw [← heq,isRevoked_history (hcreated m hm),h m hm hm'] at hrevoked
    cases hrevoked

/-- The main organization of an address is not one that the user is revoked
from exactly when no membership of the least type is revoked. -/
theorem mainOrgUser_avoids_iff (hcreated : ∀ m∈t.members,Created m) :
    (∀ order,Rearranges order → ∀ r,(orgUserRows order toLowercase (run cs t) email).head?=some r → ¬IsRevoked r.2) ↔
      ∀ m∈t.members,OfAddress toLowercase t email m → lastRevokes cs m.uuid=true →
        ∃ n∈t.members,OfAddress toLowercase t email n ∧ n.atype.code< m.atype.code := by
  refine (first_avoids_iff fun r : Organization×Membership => IsRevoked r.2).trans ?_
  constructor
  · intro h m hm hm' hlast
    obtain ⟨o,hrow⟩ := exists_joinedRow cs hcreated hm hm'
    obtain ⟨q,hq,hlt⟩ := h _ hrow ((isRevoked_history (hcreated m hm)).mpr hlast)
    obtain ⟨n,hn,hn',heq⟩ := mem_joinedRows_run hcreated hq
    have hn_type : q.2.atype=n.atype := heq ▸ (history_same cs (hcreated n hn)).2.2
    have hm_type : (history cs m).atype=m.atype := (history_same cs (hcreated m hm)).2.2
    rw [hn_type,hm_type] at hlt
    exact ⟨n,hn,hn',hlt⟩
  · intro h r hr hrevoked
    obtain ⟨m,hm,hm',heq⟩ := mem_joinedRows_run hcreated hr
    rw [← heq,isRevoked_history (hcreated m hm)] at hrevoked
    obtain ⟨n,hn,hn',hlt⟩ := h m hm hm' hrevoked
    obtain ⟨o,hrow⟩ := exists_joinedRow cs hcreated hn hn'
    refine ⟨_,hrow,?_⟩
    rw [← heq]
    have hn_type : (history cs n).atype=n.atype := (history_same cs (hcreated n hn)).2.2
    have hm_type : (history cs m).atype=m.atype := (history_same cs (hcreated m hm)).2.2
    rw [hn_type,hm_type]
    exact hlt

theorem mem_userRows_run (hcreated : ∀ m∈t.members,Created m) {m' : Membership} :
    m'∈(run cs t).members.filter (fun m => m.userUuid=user ∧ m.status≠Revoked) ↔
      ∃ m∈t.members,m.userUuid=user ∧ history cs m=m' := by
  rw [run_eq,List.mem_filter,List.mem_map]
  constructor
  · rintro ⟨⟨m,hm,rfl⟩,h⟩
    have huser : (history cs m).userUuid=user := (of_decide_eq_true h).1
    exact ⟨m,hm,(history_same cs (hcreated m hm)).1.symm.trans huser,rfl⟩
  · rintro ⟨m,hm,huser,rfl⟩
    exact ⟨⟨m,hm,rfl⟩,decide_eq_true
      ⟨(history_same cs (hcreated m hm)).1.trans huser,history_ne_revoked (hcreated m hm)⟩⟩

/-- The main membership of a user is not revoked exactly when none of the
least type is. -/
theorem mainUserOrg_avoids_iff (hcreated : ∀ m∈t.members,Created m) :
    (∀ order,Rearranges order → ∀ m,findMainUserOrg (run cs t) order user=some m → ¬IsRevoked m) ↔
      ∀ m∈t.members,m.userUuid=user → lastRevokes cs m.uuid=true →
        ∃ n∈t.members,n.userUuid=user ∧ n.atype.code< m.atype.code := by
  refine (first_avoids_iff IsRevoked).trans ?_
  constructor
  · intro h m hm huser hlast
    obtain ⟨q,hq,hlt⟩ := h _ ((mem_userRows_run hcreated).mpr ⟨m,hm,huser,rfl⟩)
      ((isRevoked_history (hcreated m hm)).mpr hlast)
    obtain ⟨n,hn,hn',rfl⟩ := (mem_userRows_run hcreated).mp hq
    have hn_type : (history cs n).atype=n.atype := (history_same cs (hcreated n hn)).2.2
    have hm_type : (history cs m).atype=m.atype := (history_same cs (hcreated m hm)).2.2
    rw [hn_type,hm_type] at hlt
    exact ⟨n,hn,hn',hlt⟩
  · intro h m' hm' hrevoked
    obtain ⟨m,hm,huser,rfl⟩ := (mem_userRows_run hcreated).mp hm'
    obtain ⟨n,hn,hn',hlt⟩ := h m hm huser ((isRevoked_history (hcreated m hm)).mp hrevoked)
    refine ⟨_,(mem_userRows_run hcreated).mpr ⟨n,hn,hn',rfl⟩,?_⟩
    have hn_type : (history cs n).atype=n.atype := (history_same cs (hcreated n hn)).2.2
    have hm_type : (history cs m).atype=m.atype := (history_same cs (hcreated m hm)).2.2
    rw [hn_type,hm_type]
    exact hlt

/-- Over every sequence of changes the statuses are the encoded ones, and a
restoration undoes a revocation. The queries select no revoked membership
exactly when the last changes of the memberships are no revocations: of all
of the address, or of those of the least type. -/
theorem revoked_selected_iff (toLowercase : Text → Text) (email : Text) (user : Uuid) (cs : List Change)
    (hcreated : ∀ m∈t.members,Created m) :
    (∀ m∈(run cs t).members,Encoded m.status ∧ (Revoked< m.status → m.revoke.restore=m)) ∧
    (∀ m∈t.members,(history cs m).restore=m ∧ getUnrevokedStatus (history cs m)=m.status) ∧
    ((∀ order,Rearranges order → ∀ r∈orgUserRows order toLowercase (run cs t) email,¬IsRevoked r.2) ↔
      ∀ m∈t.members,OfAddress toLowercase t email m → lastRevokes cs m.uuid=false) ∧
    ((∀ order,Rearranges order → ∀ r,(orgUserRows order toLowercase (run cs t) email).head?=some r → ¬IsRevoked r.2) ↔
      ∀ m∈t.members,OfAddress toLowercase t email m → lastRevokes cs m.uuid=true →
        ∃ n∈t.members,OfAddress toLowercase t email n ∧ n.atype.code< m.atype.code) ∧
    ((∀ order,Rearranges order → ∀ m,findMainUserOrg (run cs t) order user=some m → ¬IsRevoked m) ↔
      ∀ m∈t.members,m.userUuid=user → lastRevokes cs m.uuid=true →
        ∃ n∈t.members,n.userUuid=user ∧ n.atype.code< m.atype.code) := by
  refine ⟨?_,fun m hm => ⟨restore_history (hcreated m hm),unrevoked_history (hcreated m hm)⟩,
    orgUserRows_avoid_iff hcreated,mainOrgUser_avoids_iff hcreated,mainUserOrg_avoids_iff hcreated⟩
  intro m' hm'
  rw [run_eq] at hm'
  obtain ⟨m,hm,rfl⟩ := List.mem_map.mp hm'
  have hencoded : Encoded (history cs m).status := encoded_history (hcreated m hm)
  refine ⟨hencoded,fun heffective => restore_revoke heffective ?_⟩
  unfold Encoded at hencoded
  omega

/-- Account 1 was invited to organization 0, as membership 2, and has accepted. -/
def accepted : Tables := {Tables.none with
  users := [User.new 1 5 [] 0 "a@x".toList none]
  organizations := [⟨0⟩]
  members := [Membership.new 2 1 0 none]}

theorem revoked_selected_accepted : run [.revoke 2,.restore 2] accepted=accepted ∧
    ∀ order,Rearranges order → ∀ m,
      findMainUserOrg (run [.revoke 2,.restore 2] accepted) order 1=some m → ¬IsRevoked m :=
  ⟨by decide,(revoked_selected_iff id [] 1 [.revoke 2,.restore 2] (by decide)).2.2.2.2.mpr (by decide)⟩

/-- A membership is revoked, and remains the main one of its user. -/
theorem revoked_is_main : ¬∀ (t : Tables) (cs : List Change) (user : Uuid),(∀ m∈t.members,Created m) →
    ∀ order,Rearranges order → ∀ m,findMainUserOrg (run cs t) order user=some m → ¬IsRevoked m := by
  intro h
  have hcreated : ∀ m∈accepted.members,Created m := by decide
  have hmain : findMainUserOrg (run [.revoke 2] accepted) id 1=some (Membership.new 2 1 0 none).revoke := by decide
  exact h accepted [.revoke 2] 1 hcreated id .refl _ hmain (by decide)

end Lookups

end NadSafe.RevokedMembers
