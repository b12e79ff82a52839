import NadSafe.OrgHandlers

/-!
# Import from a directory

The endpoint that brings the members and groups of an organisation in line
with a directory: members are revoked, restored or invited, groups are filled
by the identifiers of the directory, and members that the directory does not
list may be removed.
-/

namespace NadSafe.DirectoryImport

open HostText TableRows AsyncScript ServerTables AccessQueries StoreScript ServerModels OrgHandlers

/-- `OrgImportGroupData`. -/
structure OrgImportGroupData where
  /-- Identifier in the directory. -/
  externalId : Text
  /-- Identifiers of its members. -/
  memberExternalIds : List Text

/-- `OrgImportUserData`. -/
structure OrgImportUserData where
  /-- Address. -/
  email : Text
  /-- Identifier in the directory. -/
  externalId : Text
  /-- No longer in the directory. -/
  deleted : Bool

/-- `OrgImportData`. -/
structure OrgImportData where
  /-- Groups. -/
  groups : List OrgImportGroupData
  /-- Members. -/
  members : List OrgImportUserData
  /-- Remove members that are not listed. -/
  overwriteExisting : Bool

/-- `Membership::set_external_id`, with whether it changed something. -/
def setExternalId (m : Membership) (externalId : Text) : Membership×Bool :=
  if m.externalId=some externalId then (m,false)
  else ({m with externalId := if externalId=[] then none else some externalId},true)

/-- Only the identifier changes. -/
theorem setExternalId_same (m : Membership) (externalId : Text) :
    (setExternalId m externalId).1.uuid=m.uuid ∧ (setExternalId m externalId).1.userUuid=m.userUuid ∧
      (setExternalId m externalId).1.orgUuid=m.orgUuid ∧ (setExternalId m externalId).1.atype=m.atype ∧
      (setExternalId m externalId).1.status=m.status := by
  unfold setExternalId
  split <;> exact ⟨rfl,rfl,rfl,rfl,rfl⟩

/-- A membership that was changed is saved. -/
def saveChanged (m : Membership) (changed : Bool) : Action Unit :=
  if changed=true then Membership.save m else pure ()

/-- The owner may go: he is not a confirmed owner, or not the last one. -/
def mayGo (org : Uuid) (m : Membership) : Action Bool :=
  if m.atype=.owner ∧ m.status=Confirmed then do
    let owners ← Membership.countConfirmedByOrgAndType org .owner
    pure (decide (1<owners))
  else pure true

/-- A member that left the directory. -/
def revokeListed (org : Uuid) (data : OrgImportUserData) (m : Membership) : Action Unit := do
  let may ← mayGo org m
  let revoked := if may=true then m.revoke else m
  let (member,modified) := setExternalId revoked data.externalId
  saveChanged member (may && decide (Revoked< m.status) || modified)

/-- A member that is in the directory. -/
def restoreListed (data : OrgImportUserData) (m : Membership) : Action Unit :=
  let (member,modified) := setExternalId m.restore data.externalId
  saveChanged member (decide (m.status<Invited) || modified)

/-- The account of a new member, and whether it was created. -/
def importedUser (settings : Settings) (out : Outside) (email : Text) : Action (User×Bool) := do
  let found ← User.findByMail settings email
  match found with
  | some user => pure (user,false)
  | none => do
    let uuid ← getUuid
    let stamp ← getUuid
    let user := ServerTables.User.new uuid stamp out.randomBytes settings.passwordIterations
      (settings.toLowercase email) none
    User.save settings user
    inviteByTable settings user.email
    pure (user,true)

/-- A new member. -/
def inviteListed (settings : Settings) (out : Outside) (org : Uuid) (orgEmail : Text)
    (data : OrgImportUserData) : Action Unit := do
  let (user,created) ← importedUser settings out data.email
  let status := if settings.mailEnabled=true ∨ user.passwordHash=[] then Invited else Accepted
  let found ← Organization.findByUuid org
  let _ ← expect "Error looking up organization" found
  let uuid ← getUuid
  let member := {(setExternalId (ServerTables.Membership.new uuid user.uuid org (some orgEmail))
    data.externalId).1 with accessAll := false, atype := .user, status := status}
  Membership.save member
  mailInvite settings out created user member

/-- One member of the import. -/
def importMember (settings : Settings) (out : Outside) (org : Uuid) (orgEmail : Text)
    (data : OrgImportUserData) : Action Unit := do
  let found ← Membership.findByEmailAndOrg settings data.email org
  match found with
  | some m => if data.deleted=true then revokeListed org data m else restoreListed data m
  | none => if data.deleted=true then pure () else inviteListed settings out org orgEmail data

/-- The group with an identifier, created if there is none. -/
def importedGroup (org : Uuid) (externalId : Text) : Action Uuid := do
  let found ← Group.findByExternalIdAndOrg externalId org
  match found with
  | some group => pure group.uuid
  | none => do
    let uuid ← getUuid
    Group.save (newGroup uuid org false (some externalId))
    pure uuid

/-- One group of the import. -/
def importGroup (org : Uuid) (data : OrgImportGroupData) : Action Unit := do
  let group ← importedGroup org data.externalId
  GroupUser.deleteAllByGroup group
  each data.memberExternalIds fun externalId => do
    let found ← Membership.findByExternalIdAndOrg externalId org
    match found with
    | some m => GroupUser.save ⟨group,m.uuid⟩
    | none => pure ()

/-- The removal of members that are not listed. -/
def removeUnlisted (org : Uuid) (listed : List Text) : Action Unit := do
  let members ← Membership.findByOrg org
  each members fun m =>
    if m.externalId.any (fun id => !decide (id∈listed))=true then do
      let may ← mayGo org m
      if may=true then Membership.delete m else pure ()
    else pure ()

/-- `ldap_import`, for the organisation of the token and its address. -/
def ldapImport (settings : Settings) (out : Outside) (org : Uuid) (orgEmail : Text)
    (data : OrgImportData) : Action Unit := do
  each data.members (importMember settings out org orgEmail)
  each (if settings.orgGroupsEnabled=true then data.groups else []) (importGroup org)
  if data.overwriteExisting=true then removeUnlisted org (data.members.map OrgImportUserData.externalId)
  else pure ()

end NadSafe.DirectoryImport
