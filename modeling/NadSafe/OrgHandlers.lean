import NadSafe.CollectionFlags
import NadSafe.ServerModels

/-!
# Organisation endpoints

The handlers that create organisations and change their members, groups and
collections, each as its sequence of statements. A guard finds the caller's
membership of the organisation named in the path, so the comparison of that
name with the guard's own never fails and is left out. What a request meets
outside of the database is given with it.
-/

namespace NadSafe.OrgHandlers

open HostText TableRows AsyncScript ServerTables AccessQueries CollectionFlags StoreScript ServerModels

/-- What a handler meets outside of the database. -/
structure Outside where
  /-- A mail to this address goes out. -/
  delivers : Text → Bool
  /-- Random bytes. -/
  randomBytes : Bytes

/-- The caller and his membership. -/
structure OrgHeaders where
  /-- The account. -/
  user : User
  /-- The membership. -/
  membership : Membership

/-- `OrgHeaders::from_request`. -/
def orgHeaders (caller org : Uuid) : Action OrgHeaders := do
  let user ← User.findByUuid caller
  let user ← expect "Device has no user associated" user
  let membership ← Membership.findByUserAndOrg user.uuid org
  let membership ← expect "The current user isn't member of the organization" membership
  ensure "User status is either revoked or invalid."
    (decide (membership.status=Invited ∨ membership.status=Accepted ∨ membership.status=Confirmed))
  pure ⟨user,membership⟩

/-- `AdminHeaders::from_request`. -/
def adminHeaders (caller org : Uuid) : Action OrgHeaders := do
  let h ← orgHeaders caller org
  ensure "You need to be Admin or Owner to call this endpoint"
    (decide (h.membership.status=Confirmed ∧ MembershipType.admin≤h.membership.atype))
  pure h

/-- `ManagerHeadersLoose::from_request`. -/
def managerHeadersLoose (caller org : Uuid) : Action OrgHeaders := do
  let h ← orgHeaders caller org
  ensure "You need to be a Manager, Admin or Owner to call this endpoint"
    (decide (h.membership.status=Confirmed ∧ MembershipType.manager≤h.membership.atype))
  pure h

/-- `Collection::is_coll_manageable_by_user`, by the key of the collection. -/
def isCollManageableByUser (collection user : Uuid) : Action Bool :=
  lookup fun t => t.collections.any fun k =>
    decide (k.uuid=collection) && Collection.isManageableByUser t k user

/-- `ManagerHeaders::from_request`, and `from_loose` for one collection. -/
def managerHeaders (caller org collection : Uuid) : Action OrgHeaders := do
  let h ← managerHeadersLoose caller org
  let manageable ← isCollManageableByUser collection h.user.uuid
  ensure "The current user isn't a manager for this collection" manageable
  pure h

/-- `CollectionData`. -/
structure CollectionData where
  /-- The collection. -/
  id : Uuid
  /-- Flags. -/
  flags : Flags

/-- `CollectionGroupData` and `CollectionMembershipData`. -/
structure AccessData where
  /-- The group or the membership. -/
  id : Uuid
  /-- Flags. -/
  flags : Flags

/-- `FullCollectionData`, without names. -/
structure FullCollectionData where
  /-- Groups with access. -/
  groups : List AccessData
  /-- Members with access. -/
  users : List AccessData

/-- `FullCollectionData::validate`. -/
def FullCollectionData.validate (data : FullCollectionData) (org : Uuid) : Action Unit := do
  let groups ← Group.findByOrganization org
  ensure "Invalid group" (data.groups.all fun g => decide (g.id∈groups.map ServerTables.Group.uuid))
  let members ← Membership.findByOrg org
  ensure "Invalid member"
    (data.users.all fun m => decide (m.id∈members.map ServerTables.Membership.uuid))

/-- The grants on a collection that a request asks for. -/
def grantCollection (org collection : Uuid) (users : List AccessData) : Action Unit :=
  each users fun user => do
    let member ← Membership.findByUuidAndOrg user.id org
    let member ← expect "User is not part of organization" member
    if member.accessAll=true then pure ()
    else CollectionUser.save member.userUuid collection user.flags

/-- The groups of a collection that a request asks for. -/
def grantGroups (collection : Uuid) (groups : List AccessData) : Action Unit :=
  each groups fun group => CollectionGroup.save ⟨collection,group.id,group.flags⟩

/-- `create_organization`, with the address and the member's key. -/
def createOrganization (settings : Settings) (caller : Uuid) (billingEmail key : Text) : Action Unit := do
  let user ← User.findByUuid caller
  let user ← expect "Device has no user associated" user
  ensure "User not allowed to create organizations" (settings.isOrgCreationAllowed user.email)
  let single ← OrgPolicy.isApplicableToUser user.uuid .singleOrg none
  ensure "You may not create an organization. You belong to an organization which has a policy that prohibits you from being a member of any other organization."
    (!single)
  let org ← getUuid
  let member ← getUuid
  let collection ← getUuid
  Organization.save settings billingEmail ⟨org⟩
  Membership.save {ServerTables.Membership.new member user.uuid org none with
    akey := key, accessAll := true, atype := .owner, status := Confirmed}
  Collection.save ⟨collection,org⟩

/-- `leave_organization`. -/
def leaveOrganization (caller org : Uuid) : Action Unit := do
  let h ← orgHeaders caller org
  ensure "You need to be a Member of the Organization to call this endpoint"
    (decide (h.membership.status=Confirmed))
  ensureOtherOwner "The last owner can't leave" (decide (h.membership.atype=.owner)) org
  Membership.delete h.membership

/-- `post_organization_collections`. -/
def postOrganizationCollections (caller org : Uuid) (data : FullCollectionData) : Action Unit := do
  let h ← managerHeadersLoose caller org
  data.validate org
  ensure "You don't have permission to create collections"
    (decide ¬(h.membership.atype=.manager ∧ h.membership.accessAll=false))
  let collection ← getUuid
  Collection.save ⟨collection,org⟩
  grantGroups collection data.groups
  grantCollection org collection data.users

/-- `post_bulk_access_collections`. The groups are not validated. -/
def postBulkAccessCollections (caller org : Uuid) (collectionIds : List Uuid)
    (data : FullCollectionData) : Action Unit := do
  let h ← managerHeadersLoose caller org
  let found ← Organization.findByUuid org
  let _ ← expect "Can't find organization details" found
  each collectionIds fun id => do
    let collection ← Collection.findByUuidAndOrg id org
    let collection ← expect "Collection not found" collection
    let manageable ← isCollManageableByUser id h.user.uuid
    ensure "Collection not found" manageable
    Collection.save collection
    CollectionGroup.deleteAllByCollection id
    grantGroups id data.groups
    CollectionUser.deleteAllByCollection id
    grantCollection org id data.users

/-- `post_organization_collection_update`. -/
def postOrganizationCollectionUpdate (caller org id : Uuid) (data : FullCollectionData) : Action Unit := do
  let _ ← managerHeaders caller org id
  data.validate org
  let found ← Organization.findByUuid org
  let _ ← expect "Can't find organization details" found
  let collection ← Collection.findByUuidAndOrg id org
  let collection ← expect "Collection not found" collection
  Collection.save collection
  CollectionGroup.deleteAllByCollection id
  grantGroups id data.groups
  CollectionUser.deleteAllByCollection id
  grantCollection org id data.users

/-- `delete_organization_collection_impl`. -/
def deleteOrganizationCollectionImpl (org id : Uuid) : Action Unit := do
  let collection ← Collection.findByUuidAndOrg id org
  let collection ← expect "Collection not found" collection
  Collection.delete collection

/-- `delete_organization_collection`. -/
def deleteOrganizationCollection (caller org id : Uuid) : Action Unit := do
  let _ ← managerHeaders caller org id
  deleteOrganizationCollectionImpl org id

/-- `bulk_delete_organization_collections`. -/
def bulkDeleteOrganizationCollections (caller org : Uuid) (ids : List Uuid) : Action Unit := do
  let h ← managerHeadersLoose caller org
  each ids fun id => do
    let manageable ← isCollManageableByUser id h.user.uuid
    ensure "Collection not found" manageable
  each ids (deleteOrganizationCollectionImpl org)

/-- Access to all collections, as the type and the permissions of a custom
role give it. -/
def accessAllFor (rawType : String) (newType : MembershipType) (permissions : List String) : Bool :=
  decide (MembershipType.admin≤newType) || decide (rawType="4" ∧ "editAnyCollection"∈permissions ∧
    "deleteAnyCollection"∈permissions ∧ "createNewCollections"∈permissions)

/-- `InviteData` and `EditUserData`: the latter has no addresses. Permissions
are those that are set. -/
structure MemberData where
  /-- Groups to join. -/
  groups : List Uuid
  /-- Role. -/
  type : String
  /-- Collections to grant. -/
  collections : List CollectionData
  /-- Permissions of a custom role. -/
  permissions : List String

/-- `InviteData::validate`. -/
def MemberData.validate (data : MemberData) (org : Uuid) : Action Unit := do
  let collections ← Collection.findByOrganization org
  ensure "Invalid collection"
    (data.collections.all fun k => decide (k.id∈collections.map ServerTables.Collection.uuid))
  let groups ← Group.findByOrganization org
  ensure "Invalid group" (data.groups.all fun g => decide (g∈groups.map ServerTables.Group.uuid))

/-- The grants to a member that a request asks for, unless he has access to
all collections. -/
def grantMember (accessAll : Bool) (org user : Uuid) (collections : List CollectionData) : Action Unit :=
  each (if accessAll=true then [] else collections) fun col => do
    let collection ← Collection.findByUuidAndOrg col.id org
    let collection ← expect "Collection not found in Organization" collection
    CollectionUser.save user collection.uuid col.flags

/-- A row in `invitations` where no mail is sent. -/
def inviteByTable (settings : Settings) (email : Text) : Action Unit :=
  if settings.mailEnabled=true then pure () else Invitation.save settings email

/-- The account for an invited address, with the status of its membership and
whether an account was created so far. -/
def invitedUser (settings : Settings) (out : Outside) (org : Uuid) (created : Bool) (email : Text) :
    Action (User×ℤ×Bool) := do
  let found ← User.findByMail settings email
  match found with
  | none => do
    ensure ("User does not exist: "++String.ofList email) settings.invitationsAllowed
    ensure "Email domain not eligible for invitations" (settings.isEmailDomainAllowed email)
    inviteByTable settings email
    let uuid ← getUuid
    let stamp ← getUuid
    let user := ServerTables.User.new uuid stamp out.randomBytes settings.passwordIterations
      (settings.toLowercase email) none
    User.save settings user
    pure (user,Invited,true)
  | some user => do
    let member ← Membership.findByUserAndOrg user.uuid org
    ensure ("User already in organization: "++String.ofList email) member.isNone
    let status := if settings.mailEnabled=false ∧ user.passwordHash≠[] then Accepted else Invited
    pure (user,status,created)

/-- The mail to an invited member. A failed mail deletes the account or the
membership. -/
def mailInvite (settings : Settings) (out : Outside) (created : Bool) (user : User)
    (member : Membership) : Action Unit :=
  if settings.mailEnabled=true then do
    let found ← Organization.findByUuid member.orgUuid
    let _ ← expect "Error looking up organization" found
    if out.delivers user.email=true then pure ()
    else do
      if created=true then User.delete settings user else Membership.delete member
      throw "Error sending invite"
  else pure ()

/-- The loop of `send_invite`. Once an account was created, every later failed
mail deletes the account it was meant for. -/
def inviteAll (settings : Settings) (out : Outside) (org : Uuid) (inviter : Text)
    (newType : MembershipType) (accessAll : Bool) (data : MemberData) (created : Bool) :
    List Text → Action Unit
  | [] => pure ()
  | email::emails => do
    let (user,status,created) ← invitedUser settings out org created email
    let uuid ← getUuid
    let member := {ServerTables.Membership.new uuid user.uuid org (some inviter) with
      accessAll := accessAll, atype := newType, status := status}
    Membership.save member
    mailInvite settings out created user member
    grantMember accessAll org user.uuid data.collections
    each data.groups fun group => GroupUser.save ⟨group,uuid⟩
    inviteAll settings out org inviter newType accessAll data created emails

/-- `send_invite`. -/
def sendInvite (settings : Settings) (out : Outside) (caller org : Uuid) (emails : List Text)
    (data : MemberData) : Action Unit := do
  let h ← adminHeaders caller org
  data.validate org
  let newType ← expect "Invalid type" (MembershipType.fromStr data.type)
  ensure "Only Owners can invite Managers, Admins or Owners"
    (decide ¬(newType≠.user ∧ h.membership.atype≠.owner))
  inviteAll settings out org h.user.email newType (accessAllFor data.type newType data.permissions) data
    false emails

/-- `reinvite_member_impl`. -/
def reinviteMemberImpl (settings : Settings) (out : Outside) (org id : Uuid) : Action Unit := do
  let member ← Membership.findByUuidAndOrg id org
  let member ← expect "The user hasn't been invited to the organization." member
  ensure "The user is already accepted or confirmed to the organization" (decide (member.status=Invited))
  let user ← User.findByUuid member.userUuid
  let user ← expect "User not found." user
  ensure "Invitations are not allowed."
    (decide ¬(settings.invitationsAllowed=false ∧ user.passwordHash=[]))
  let found ← Organization.findByUuid org
  let _ ← expect "Error looking up organization." found
  if settings.mailEnabled=true then ensure "Error sending invite" (out.delivers user.email)
  else if user.passwordHash=[] then Invitation.save settings user.email
  else do
    Invitation.take settings user.email
    Membership.save {member with status := Accepted}

/-- `reinvite_member`. -/
def reinviteMember (settings : Settings) (out : Outside) (caller org id : Uuid) : Action Unit := do
  let _ ← adminHeaders caller org
  reinviteMemberImpl settings out org id

/-- `bulk_reinvite_members`. -/
def bulkReinviteMembers (settings : Settings) (out : Outside) (caller org : Uuid) (ids : List Uuid) :
    Action Unit := do
  let _ ← adminHeaders caller org
  each ids fun id => ok (reinviteMemberImpl settings out org id)

/-- What an invitation token says. The member is missing in tokens of the
admin page. -/
structure InviteClaims where
  /-- Address. -/
  email : Text
  /-- Organisation. -/
  orgId : Uuid
  /-- Membership. -/
  memberId : Option Uuid
  /-- Who invited. -/
  invitedByEmail : Option Text

/-- `accept_org_invite`. -/
def acceptOrgInvite (settings : Settings) (out : Outside) (user : User) (member : Membership)
    (resetPasswordKey : Option Text) : Action Unit := do
  ensure "User already accepted the invitation" (decide (member.status=Invited))
  let member := {member with status := Accepted, resetPasswordKey := resetPasswordKey}
  OrgPolicy.checkUserAllowed settings member "join"
  Membership.save member
  if settings.mailEnabled=true then
    let found ← Organization.findByUuid member.orgUuid
    let _ ← expect "Organization not found." found
    ensure "Error sending mail" (out.delivers user.email)
  else pure ()

/-- `accept_invite`. -/
def acceptInvite (settings : Settings) (out : Outside) (caller org : Uuid) (memberId : Option Uuid)
    (claims : InviteClaims) (resetPasswordKey : Option Text) : Action Unit := do
  let user ← User.findByUuid caller
  let user ← expect "Device has no user associated" user
  ensure "Invitation was issued to a different account" (decide (claims.email=user.email))
  ensure "Error accepting the invitation" (decide (claims.orgId=org))
  ensure "Error accepting the invitation" (decide (claims.memberId=memberId))
  Invitation.take settings claims.email
  match claims.memberId with
  | some id => do
    let membership ← Membership.findByUuidAndOrg id claims.orgId
    let membership ← expect "Error accepting the invitation" membership
    let enroll ← lookup fun t => OrgPolicy.active t membership.orgUuid (.resetPassword true)
    ensure "Reset password key is required, but not provided."
      (decide ¬(enroll=true ∧ resetPasswordKey=none))
    let member := {membership with
      invitedByEmail := membership.invitedByEmail.orElse fun _ => claims.invitedByEmail}
    acceptOrgInvite settings out user member (if enroll=true then resetPasswordKey else none)
  | none =>
    if settings.mailEnabled=true then ensure "Error sending mail" (out.delivers claims.email) else pure ()

/-- The mail to a confirmed member. -/
def mailConfirmed (settings : Settings) (out : Outside) (org user : Uuid) : Action Unit :=
  if settings.mailEnabled=true then do
    let found ← Organization.findByUuid org
    let _ ← expect "Error looking up organization." found
    let user ← User.findByUuid user
    let user ← expect "Error looking up user." user
    ensure "Error sending mail" (out.delivers user.email)
  else pure ()

/-- `confirm_invite_impl`. -/
def confirmInviteImpl (settings : Settings) (out : Outside) (h : OrgHeaders) (org id : Uuid)
    (key : Text) : Action Unit := do
  ensure "Key or UserId is not set, unable to process request" (decide (key≠[]))
  let member ← Membership.findByUuidAndOrg id org
  let member ← expect "The specified user isn't a member of the organization" member
  ensure "Only Owners can confirm Managers, Admins or Owners"
    (decide ¬(member.atype≠.user ∧ h.membership.atype≠.owner))
  ensure "User in invalid state" (decide (member.status=Accepted))
  let member := {member with status := Confirmed, akey := key}
  OrgPolicy.checkUserAllowed settings member "confirm"
  mailConfirmed settings out org member.userUuid
  Membership.save member

/-- `confirm_invite`. -/
def confirmInvite (settings : Settings) (out : Outside) (caller org id : Uuid) (key : Text) :
    Action Unit := do
  let h ← adminHeaders caller org
  confirmInviteImpl settings out h org id key

/-- `bulk_confirm_invite`. -/
def bulkConfirmInvite (settings : Settings) (out : Outside) (caller org : Uuid)
    (keys : List (Uuid×Text)) : Action Unit := do
  let h ← adminHeaders caller org
  each keys fun (id,key) => ok (confirmInviteImpl settings out h org id key)

/-- `edit_member`. The groups are not validated. -/
def editMember (settings : Settings) (caller org id : Uuid) (data : MemberData) : Action Unit := do
  let h ← adminHeaders caller org
  let newType ← expect "Invalid type" (MembershipType.fromStr data.type)
  let accessAll := accessAllFor data.type newType data.permissions
  let member ← Membership.findByUuidAndOrg id org
  let member ← expect "The specified user isn't member of the organization" member
  ensure "Only Owners can grant and remove Admin or Owner privileges"
    (decide ¬(newType≠member.atype ∧ (MembershipType.admin≤ member.atype ∨ MembershipType.admin≤newType) ∧
      h.membership.atype≠.owner))
  ensure "Only Owners can edit Owner users"
    (decide ¬(member.atype=.owner ∧ h.membership.atype≠.owner))
  ensureOtherOwner "Can't delete the last owner"
    (decide (member.atype=.owner ∧ newType≠.owner ∧ member.status=Confirmed)) org
  let member := {member with accessAll := accessAll, atype := newType}
  OrgPolicy.checkUserAllowed settings member "modify"
  let grants ← lookup fun t => CollectionUser.findByOrganizationAndUserUuid t org member.userUuid
  each grants CollectionUser.delete
  grantMember accessAll org member.userUuid data.collections
  GroupUser.deleteAllByMember member.uuid
  each data.groups fun group => GroupUser.save ⟨group,member.uuid⟩
  Membership.save member

/-- `delete_member_impl`. -/
def deleteMemberImpl (h : OrgHeaders) (org id : Uuid) : Action Unit := do
  let member ← Membership.findByUuidAndOrg id org
  let member ← expect "User to delete isn't member of the organization" member
  ensure "Only Owners can delete Admins or Owners"
    (decide ¬(member.atype≠.user ∧ h.membership.atype≠.owner))
  ensureOtherOwner "Can't delete the last owner"
    (decide (member.atype=.owner ∧ member.status=Confirmed)) org
  Membership.delete member

/-- `delete_member`. -/
def deleteMember (caller org id : Uuid) : Action Unit := do
  let h ← adminHeaders caller org
  deleteMemberImpl h org id

/-- `bulk_delete_member`. -/
def bulkDeleteMember (caller org : Uuid) (ids : List Uuid) : Action Unit := do
  let h ← adminHeaders caller org
  each ids fun id => ok (deleteMemberImpl h org id)

/-- `revoke_member_impl`. -/
def revokeMemberImpl (h : OrgHeaders) (org id : Uuid) : Action Unit := do
  let member ← Membership.findByUuidAndOrg id org
  let member ← expect "User not found in organization" member
  ensure "User is already revoked" (decide (Revoked< member.status))
  ensure "You cannot revoke yourself" (decide (member.userUuid≠h.user.uuid))
  ensure "Only owners can revoke other owners"
    (decide ¬(member.atype=.owner ∧ h.membership.atype≠.owner))
  ensureOtherOwner "Organization must have at least one confirmed owner"
    (decide (member.atype=.owner)) org
  Membership.save member.revoke

/-- `revoke_member`. -/
def revokeMember (caller org id : Uuid) : Action Unit := do
  let h ← adminHeaders caller org
  revokeMemberImpl h org id

/-- `bulk_revoke_members`. -/
def bulkRevokeMembers (caller org : Uuid) (ids : List Uuid) : Action Unit := do
  let h ← adminHeaders caller org
  each ids fun id => ok (revokeMemberImpl h org id)

/-- `restore_member_impl`. -/
def restoreMemberImpl (settings : Settings) (h : OrgHeaders) (org id : Uuid) : Action Unit := do
  let member ← Membership.findByUuidAndOrg id org
  let member ← expect "User not found in organization" member
  ensure "User is already active" (decide (member.status<Accepted))
  ensure "You cannot restore yourself" (decide (member.userUuid≠h.user.uuid))
  ensure "Only owners can restore other owners"
    (decide ¬(member.atype=.owner ∧ h.membership.atype≠.owner))
  OrgPolicy.checkUserAllowed settings member.restore "restore"
  Membership.save member.restore

/-- `restore_member`. -/
def restoreMember (settings : Settings) (caller org id : Uuid) : Action Unit := do
  let h ← adminHeaders caller org
  restoreMemberImpl settings h org id

/-- `bulk_restore_members`. -/
def bulkRestoreMembers (settings : Settings) (caller org : Uuid) (ids : List Uuid) : Action Unit := do
  let h ← adminHeaders caller org
  each ids fun id => ok (restoreMemberImpl settings h org id)

/-- `GroupRequest`, without the name. -/
structure GroupRequest where
  /-- Access to every collection. -/
  accessAll : Bool
  /-- Identifier in a directory. -/
  externalId : Option Text
  /-- Collections to grant. -/
  collections : List CollectionData
  /-- Memberships in the group. -/
  users : List Uuid

/-- `GroupRequest::validate`. -/
def GroupRequest.validate (data : GroupRequest) (org : Uuid) : Action Unit := do
  let collections ← Collection.findByOrganization org
  ensure "Invalid collection"
    (data.collections.all fun k => decide (k.id∈collections.map ServerTables.Collection.uuid))
  let members ← Membership.findByOrg org
  ensure "Invalid member" (data.users.all fun m => decide (m∈members.map ServerTables.Membership.uuid))

/-- `char::is_whitespace`. -/
def isWhitespace (c : Char) : Bool :=
  decide (9≤c.toNat ∧ c.toNat≤13) || decide (0x2000≤c.toNat ∧ c.toNat≤0x200a) ||
    decide (c.toNat∈[0x20,0x85,0xa0,0x1680,0x2028,0x2029,0x202f,0x205f,0x3000])

/-- `Group::new`: a blank identifier is none. -/
def newGroup (uuid org : Uuid) (accessAll : Bool) (externalId : Option Text) : Group :=
  ⟨uuid,org,accessAll,externalId.filter fun id => !id.all isWhitespace⟩

/-- `add_update_group`. -/
def addUpdateGroup (group : Group) (collections : List CollectionData) (members : List Uuid) :
    Action Unit := do
  Group.save group
  each collections fun col => CollectionGroup.save ⟨col.id,group.uuid,col.flags⟩
  each members fun member => GroupUser.save ⟨group.uuid,member⟩

/-- `post_groups`. -/
def postGroups (settings : Settings) (caller org : Uuid) (data : GroupRequest) : Action Unit := do
  let _ ← adminHeaders caller org
  ensure "Group support is disabled" settings.orgGroupsEnabled
  data.validate org
  let uuid ← getUuid
  addUpdateGroup (newGroup uuid org data.accessAll data.externalId) data.collections data.users

/-- `put_group`. -/
def putGroup (settings : Settings) (caller org id : Uuid) (data : GroupRequest) : Action Unit := do
  let _ ← adminHeaders caller org
  ensure "Group support is disabled" settings.orgGroupsEnabled
  let group ← Group.findByUuidAndOrg id org
  let group ← expect "Group not found" group
  data.validate org
  CollectionGroup.deleteAllByGroup id
  GroupUser.deleteAllByGroup id
  addUpdateGroup {group with accessAll := data.accessAll} data.collections data.users

/-- `delete_group_impl`. -/
def deleteGroupImpl (settings : Settings) (org id : Uuid) : Action Unit := do
  ensure "Group support is disabled" settings.orgGroupsEnabled
  let group ← Group.findByUuidAndOrg id org
  let group ← expect "Group not found" group
  Group.delete group

/-- `delete_group`. -/
def deleteGroup (settings : Settings) (caller org id : Uuid) : Action Unit := do
  let _ ← adminHeaders caller org
  deleteGroupImpl settings org id

/-- `bulk_delete_groups`. -/
def bulkDeleteGroups (settings : Settings) (caller org : Uuid) (ids : List Uuid) : Action Unit := do
  let _ ← adminHeaders caller org
  ensure "Group support is disabled" settings.orgGroupsEnabled
  each ids (deleteGroupImpl settings org)

/-- `put_group_members`. -/
def putGroupMembers (settings : Settings) (caller org id : Uuid) (users : List Uuid) : Action Unit := do
  let _ ← adminHeaders caller org
  ensure "Group support is disabled" settings.orgGroupsEnabled
  let group ← Group.findByUuidAndOrg id org
  let _ ← expect "Group could not be found!" group
  let members ← Membership.findByOrg org
  ensure "Invalid member" (users.all fun m => decide (m∈members.map ServerTables.Membership.uuid))
  GroupUser.deleteAllByGroup id
  each users fun member => GroupUser.save ⟨id,member⟩

/-- `post_delete_group_member`. -/
def postDeleteGroupMember (settings : Settings) (caller org id member : Uuid) : Action Unit := do
  let _ ← adminHeaders caller org
  ensure "Group support is disabled" settings.orgGroupsEnabled
  let found ← Membership.findByUuidAndOrg member org
  let _ ← expect "User could not be found or does not belong to the organization." found
  let group ← Group.findByUuidAndOrg id org
  let _ ← expect "Group could not be found or does not belong to the organization." group
  GroupUser.deleteByGroupAndMember id member

/-- A request to one of these endpoints. -/
inductive Request where
  /-- `create_organization`. -/
  | createOrganization (caller : Uuid) (billingEmail key : Text)
  /-- `leave_organization`. -/
  | leaveOrganization (caller org : Uuid)
  /-- `post_organization_collections`. -/
  | postCollections (caller org : Uuid) (data : FullCollectionData)
  /-- `post_bulk_access_collections`. -/
  | postBulkAccess (caller org : Uuid) (ids : List Uuid) (data : FullCollectionData)
  /-- `post_organization_collection_update`. -/
  | updateCollection (caller org id : Uuid) (data : FullCollectionData)
  /-- `delete_organization_collection`. -/
  | deleteCollection (caller org id : Uuid)
  /-- `bulk_delete_organization_collections`. -/
  | deleteCollections (caller org : Uuid) (ids : List Uuid)
  /-- `send_invite`. -/
  | sendInvite (caller org : Uuid) (emails : List Text) (data : MemberData)
  /-- `reinvite_member`. -/
  | reinviteMember (caller org id : Uuid)
  /-- `bulk_reinvite_members`. -/
  | reinviteMembers (caller org : Uuid) (ids : List Uuid)
  /-- `accept_invite`. -/
  | acceptInvite (caller org : Uuid) (id : Option Uuid) (claims : InviteClaims)
      (resetPasswordKey : Option Text)
  /-- `confirm_invite`. -/
  | confirmInvite (caller org id : Uuid) (key : Text)
  /-- `bulk_confirm_invite`. -/
  | confirmInvites (caller org : Uuid) (keys : List (Uuid×Text))
  /-- `edit_member`. -/
  | editMember (caller org id : Uuid) (data : MemberData)
  /-- `delete_member`. -/
  | deleteMember (caller org id : Uuid)
  /-- `bulk_delete_member`. -/
  | deleteMembers (caller org : Uuid) (ids : List Uuid)
  /-- `revoke_member`. -/
  | revokeMember (caller org id : Uuid)
  /-- `bulk_revoke_members`. -/
  | revokeMembers (caller org : Uuid) (ids : List Uuid)
  /-- `restore_member`. -/
  | restoreMember (caller org id : Uuid)
  /-- `bulk_restore_members`. -/
  | restoreMembers (caller org : Uuid) (ids : List Uuid)
  /-- `post_groups`. -/
  | postGroups (caller org : Uuid) (data : GroupRequest)
  /-- `put_group`. -/
  | putGroup (caller org id : Uuid) (data : GroupRequest)
  /-- `delete_group`. -/
  | deleteGroup (caller org id : Uuid)
  /-- `bulk_delete_groups`. -/
  | deleteGroups (caller org : Uuid) (ids : List Uuid)
  /-- `put_group_members`. -/
  | putGroupMembers (caller org id : Uuid) (users : List Uuid)
  /-- `post_delete_group_member`. -/
  | deleteGroupMember (caller org id member : Uuid)

/-- The handler of a request. -/
def handle (settings : Settings) (out : Outside) : Request → Action Unit
  | .createOrganization caller billingEmail key => createOrganization settings caller billingEmail key
  | .leaveOrganization caller org => leaveOrganization caller org
  | .postCollections caller org data => postOrganizationCollections caller org data
  | .postBulkAccess caller org ids data => postBulkAccessCollections caller org ids data
  | .updateCollection caller org id data => postOrganizationCollectionUpdate caller org id data
  | .deleteCollection caller org id => deleteOrganizationCollection caller org id
  | .deleteCollections caller org ids => bulkDeleteOrganizationCollections caller org ids
  | .sendInvite caller org emails data => sendInvite settings out caller org emails data
  | .reinviteMember caller org id => reinviteMember settings out caller org id
  | .reinviteMembers caller org ids => bulkReinviteMembers settings out caller org ids
  | .acceptInvite caller org id claims key => acceptInvite settings out caller org id claims key
  | .confirmInvite caller org id key => confirmInvite settings out caller org id key
  | .confirmInvites caller org keys => bulkConfirmInvite settings out caller org keys
  | .editMember caller org id data => editMember settings caller org id data
  | .deleteMember caller org id => deleteMember caller org id
  | .deleteMembers caller org ids => bulkDeleteMember caller org ids
  | .revokeMember caller org id => revokeMember caller org id
  | .revokeMembers caller org ids => bulkRevokeMembers caller org ids
  | .restoreMember caller org id => restoreMember settings caller org id
  | .restoreMembers caller org ids => bulkRestoreMembers settings caller org ids
  | .postGroups caller org data => postGroups settings caller org data
  | .putGroup caller org id data => putGroup settings caller org id data
  | .deleteGroup caller org id => deleteGroup settings caller org id
  | .deleteGroups caller org ids => bulkDeleteGroups settings caller org ids
  | .putGroupMembers caller org id users => putGroupMembers settings caller org id users
  | .deleteGroupMember caller org id member => postDeleteGroupMember settings caller org id member

end NadSafe.OrgHandlers
