import NadSafe.DirectoryImport

/-!
# What the parts of the handlers leave alone

Guards and checks only read. Grants, groups, invitations and items are in
tables of their own, so the accounts, their memberships, the policies and the
second factors are the same after a handler has written there.
-/

namespace NadSafe.CoreFrames

open HostText TableRows AsyncScript ServerTables AccessQueries StoreScript ServerModels OrgHandlers
open DirectoryImport RelyScript

section Reads

variable {τ : Type} {part : Database → τ} {settings : Settings} {out : Outside} {caller org user : Uuid}
  {m : Membership}

theorem frames_orgHeaders : Frames exec part (orgHeaders caller org) :=
  Frames.bind (frames_lookup _) fun _ => Frames.bind (Frames.expect _ _) fun _ =>
    Frames.bind (frames_lookup _) fun _ => Frames.bind (Frames.expect _ _) fun _ =>
    Frames.bind (Frames.ensure _ _) fun _ => Frames.pure _

theorem frames_adminHeaders : Frames exec part (adminHeaders caller org) :=
  Frames.bind frames_orgHeaders fun _ => Frames.bind (Frames.ensure _ _) fun _ => Frames.pure _

theorem frames_validate {data : MemberData} : Frames exec part (data.validate org) :=
  Frames.bind (frames_lookup _) fun _ => Frames.bind (Frames.ensure _ _) fun _ =>
    Frames.bind (frames_lookup _) fun _ => Frames.ensure _ _

theorem frames_otherOwner {message : String} {goes : Bool} :
    Frames exec part (ensureOtherOwner message goes org) :=
  Frames.ite (fun _ => Frames.bind (frames_lookup _) fun _ => Frames.ensure _ _) fun _ => Frames.pure _

theorem frames_mayGo : Frames exec part (mayGo org m) :=
  Frames.ite (fun _ => Frames.bind (frames_lookup _) fun _ => Frames.pure _) fun _ => Frames.pure _

theorem frames_applicable {atype : OrgPolicyType} {excluded : Option Uuid} :
    Frames exec part (OrgPolicy.isApplicableToUser user atype excluded) :=
  Frames.bind (frames_lookup _) fun _ => Frames.findAny fun _ => frames_lookup _

theorem frames_checkSingleOrg {action : String} : Frames exec part (OrgPolicy.checkSingleOrg m action) :=
  Frames.bind (frames_lookup _) fun _ =>
    Frames.ite (fun _ => Frames.bind (frames_lookup _) fun _ => Frames.ensure _ _) fun _ => Frames.pure _

theorem frames_findByEmail {email : Text} : Frames exec part (Membership.findByEmailAndOrg settings email org) := by
  refine Frames.bind (frames_lookup _) fun found => ?_
  cases found with
  | some u => exact frames_lookup _
  | none => exact Frames.pure _

theorem frames_mailConfirmed : Frames exec part (mailConfirmed settings out org user) :=
  Frames.ite (fun _ => Frames.bind (frames_lookup _) fun _ => Frames.bind (Frames.expect _ _) fun _ =>
    Frames.bind (frames_lookup _) fun _ => Frames.bind (Frames.expect _ _) fun _ => Frames.ensure _ _)
    fun _ => Frames.pure _

end Reads

/-- Memberships, organisations, policies, second factors and accounts. -/
def core (db : Database) : List Membership×List Organization×List OrgPolicy×List TwoFactor×List User :=
  (db.members,db.organizations,db.policies,db.twofactor,db.users)

section Core

variable {settings : Settings} {org user : Uuid} {db db' : Database}

theorem core_cases (h : core db'=core db) : db'.members=db.members ∧ db'.organizations=db.organizations ∧
    db'.policies=db.policies ∧ db'.twofactor=db.twofactor ∧ db'.users=db.users := by
  unfold core at h
  simpa only [Prod.mk.injEq] using h

/-- A part of what is the same. -/
theorem frames_part {α τ : Type} {p : Action α} {part : Database → τ} (h : Frames exec core p)
    (hpart : ∀ db db',core db'=core db → part db'=part db) : Frames exec part p :=
  Script.Obeys.mono h (fun _ hc s => hpart _ _ (hc s)) (fun _ _ hr => hr) fun _ _ => trivial

/-- A statement on other tables. -/
theorem frames_core {message : String} {f : Tables → Tables}
    (h : ∀ t,(f t).members=t.members ∧ (f t).organizations=t.organizations ∧ (f t).policies=t.policies ∧
      (f t).twofactor=t.twofactor ∧ (f t).users=t.users) : Frames exec core (update message f) := by
  refine frames_update fun db db' heq => ?_
  obtain ⟨hmembers,horgs,hpolicies,hfactors,husers⟩ := h db.toTables
  unfold core
  rw [heq,hmembers,horgs,hpolicies,hfactors,husers]

theorem frames_draw : Frames exec core getUuid := frames_getUuid fun _ => rfl

theorem frames_invitation {email : Text} : Frames exec core (Invitation.save settings email) :=
  Frames.ite (fun _ => frames_core fun _ => ⟨rfl,rfl,rfl,rfl,rfl⟩) fun _ => Frames.throw _

theorem frames_takeInvitation {email : Text} : Frames exec core (Invitation.take settings email) :=
  Frames.bind (frames_lookup _) fun _ =>
    Frames.ite (fun _ => Frames.ok (frames_core fun _ => ⟨rfl,rfl,rfl,rfl,rfl⟩)) fun _ => Frames.pure _

theorem frames_inviteByTable {email : Text} : Frames exec core (inviteByTable settings email) :=
  Frames.ite (fun _ => Frames.pure _) fun _ => frames_invitation

theorem frames_grantMember {accessAll : Bool} {collections : List CollectionData} :
    Frames exec core (grantMember accessAll org user collections) :=
  Frames.each fun _ _ => Frames.bind (frames_lookup _) fun _ =>
    Frames.bind (Frames.expect _ _) fun _ => frames_core fun _ => ⟨rfl,rfl,rfl,rfl,rfl⟩

theorem frames_deleteGrant (r : CollectionUser) : Frames exec core (CollectionUser.delete r) :=
  frames_core fun _ => ⟨rfl,rfl,rfl,rfl,rfl⟩

theorem frames_deleteGrants : Frames exec core (CollectionUser.deleteAllByUserAndOrg user org) :=
  Frames.bind (frames_lookup _) fun _ => frames_core fun _ => ⟨rfl,rfl,rfl,rfl,rfl⟩

theorem frames_deletePlaces (member : Uuid) : Frames exec core (GroupUser.deleteAllByMember member) :=
  frames_core fun _ => ⟨rfl,rfl,rfl,rfl,rfl⟩

theorem frames_savePlace (r : GroupUser) : Frames exec core (GroupUser.save r) :=
  frames_core fun _ => ⟨rfl,rfl,rfl,rfl,rfl⟩

/-- Deletes of rows found before. -/
theorem frames_deleteEach {α : Type} {f : Tables → List α} {body : α → Action Unit}
    (h : ∀ a,Frames exec core (body a)) :
    Frames exec core (do
      let rows ← lookup f
      each rows body) :=
  Frames.bind (frames_lookup f) fun _ => Frames.each fun a _ => h a

theorem frames_deleteSends : Frames exec core (Send.deleteAllByUser user) :=
  frames_deleteEach fun _ => frames_core fun _ => ⟨rfl,rfl,rfl,rfl,rfl⟩

theorem frames_deleteCiphers : Frames exec core (Cipher.deleteAllByUser user) :=
  frames_deleteEach fun _ => Frames.bind (frames_core fun _ => ⟨rfl,rfl,rfl,rfl,rfl⟩) fun _ =>
    Frames.bind (frames_core fun _ => ⟨rfl,rfl,rfl,rfl,rfl⟩) fun _ => Frames.bind (frames_lookup _) fun _ =>
    Frames.bind (Frames.each fun _ _ => frames_core fun _ => ⟨rfl,rfl,rfl,rfl,rfl⟩) fun _ =>
    Frames.bind (frames_core fun _ => ⟨rfl,rfl,rfl,rfl,rfl⟩) fun _ =>
    frames_core fun _ => ⟨rfl,rfl,rfl,rfl,rfl⟩

theorem frames_deleteFolders : Frames exec core (Folder.deleteAllByUser user) :=
  frames_deleteEach fun _ => Frames.bind (frames_core fun _ => ⟨rfl,rfl,rfl,rfl,rfl⟩) fun _ =>
    frames_core fun _ => ⟨rfl,rfl,rfl,rfl,rfl⟩

theorem frames_deleteEmergencyAccess {email : Text} :
    Frames exec core (EmergencyAccess.deleteAllByUser user email) :=
  Frames.bind (frames_lookup _) fun _ =>
    Frames.bind (Frames.each fun _ _ => frames_core fun _ => ⟨rfl,rfl,rfl,rfl,rfl⟩) fun _ =>
    Frames.bind (frames_lookup _) fun _ =>
    Frames.bind (Frames.each fun _ _ => frames_core fun _ => ⟨rfl,rfl,rfl,rfl,rfl⟩) fun _ =>
    frames_deleteEach fun _ => frames_core fun _ => ⟨rfl,rfl,rfl,rfl,rfl⟩

/-- One group of an import. -/
theorem frames_importGroup {data : OrgImportGroupData} : Frames exec core (importGroup org data) := by
  refine Frames.bind ?_ fun _ => Frames.bind (frames_core fun _ => ⟨rfl,rfl,rfl,rfl,rfl⟩) fun _ =>
    Frames.each fun _ _ => Frames.bind (frames_lookup _) fun found => ?_
  · refine Frames.bind (frames_lookup _) fun found => ?_
    cases found with
    | some g => exact Frames.pure _
    | none =>
      exact Frames.bind frames_draw fun _ =>
        Frames.bind (frames_core fun _ => ⟨rfl,rfl,rfl,rfl,rfl⟩) fun _ => Frames.pure _
  · cases found with
    | some m => exact frames_core fun _ => ⟨rfl,rfl,rfl,rfl,rfl⟩
    | none => exact Frames.pure _

end Core

end NadSafe.CoreFrames
