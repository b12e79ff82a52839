import NadSafe.AccessQueries
import NadSafe.RelyScript

/-!
# Statements of the models

What the models of the server send to the database: lookups, saves and
deletes, each a statement of its own. A delete that has to remove dependent
rows first is a sequence of statements. Updates of revision dates are left
out.
-/

namespace NadSafe.ServerModels

open HostText TableRows AsyncScript ServerTables AccessQueries StoreScript
open SequentialScript RelyScript

/-- Code that runs against the database. -/
abbrev Action (α : Type) := Handler Database String α

/-- Settings of the server. -/
structure Settings extends Config where
  /-- `mail_enabled`. -/
  mailEnabled : Bool
  /-- `invitations_allowed`. -/
  invitationsAllowed : Bool
  /-- `is_email_domain_allowed`. -/
  isEmailDomainAllowed : Text → Bool
  /-- `is_org_creation_allowed`. -/
  isOrgCreationAllowed : Text → Bool
  /-- `email_2fa_auto_fallback`. -/
  email2faAutoFallback : Bool
  /-- `is_valid_email`. -/
  isValidEmail : Text → Bool
  /-- `to_lowercase`. -/
  toLowercase : Text → Text
  /-- `password_iterations`. -/
  passwordIterations : ℕ

/-- A statement that changes rows. -/
def update (message : String) (f : Tables → Tables) : Action Unit :=
  execute message fun db => commit (f db.toTables)

/-- A statement leaves its tables, or everything as it was. -/
theorem leaves_update {message : String} {f : Tables → Tables} {db : Database} :
    Leaves (fun _ db' => db'.toTables=f db.toTables) (fun db' => db'=db) (update message f) db := by
  intro _ _
  show Leaves _ _ (if (commit (f db.toTables)).isSome=true then Script.done () else Script.fail message)
    ((commit (f db.toTables)).getD db)
  cases hc : commit (f db.toTables) with
  | none => exact (rfl : db=db)
  | some db' => exact commit_eq hc

/-- A statement whose refusal is ignored. -/
theorem leaves_ok_update {E : Database → Prop} {message : String} {f : Tables → Tables} {db : Database} :
    Leaves (fun _ db' => db'.toTables=f db.toTables ∨ db'=db) E (ok (update message f)) db :=
  Ensures.rescue (Ensures.mono leaves_update (fun _ _ h => .inl h) fun _ h => h) fun _ _ h => .inr h

/-- A query over the tables. -/
def lookup {α : Type} (f : Tables → α) : Action α := query fun db => f db.toTables

/-- `Utc::now`, which is not a statement. -/
def utcNow : Action ℤ := do
  let db ← Script.perform Statement.read
  pure db.now

/-- `get_uuid`. -/
def getUuid : Action Uuid := draw (fun db => db.next) Database.drawn

section Frames

variable {α τ : Type} {part : Database → τ}

theorem frames_lookup (f : Tables → α) : Frames exec part (lookup f) := Frames.query _

/-- A statement that changes other tables only. -/
theorem frames_update {message : String} {f : Tables → Tables}
    (h : ∀ db db' : Database,db'.toTables=f db.toTables → part db'=part db) :
    Frames exec part (update message f) :=
  Frames.execute fun db db' hc => h db db' (commit_eq hc)

theorem frames_utcNow : Frames exec part utcNow := ⟨fun _ => rfl,fun _ _ => trivial⟩

theorem frames_getUuid (h : ∀ db : Database,part db.drawn=part db) : Frames exec part getUuid :=
  Frames.draw h

end Frames

/-- `Invitation::save`. -/
def Invitation.save (settings : Settings) (email : Text) : Action Unit :=
  let email := settings.toLowercase email
  if settings.isValidEmail email=true then
    update "Error saving invitation" fun t => {t with invitations := put id email t.invitations}
  else throw ("Invitation email "++String.ofList email++" is not a valid email address")

/-- `Invitation::take`. A failed delete is ignored. -/
def Invitation.take (settings : Settings) (mail : Text) : Action Unit := do
  let lower := settings.toLowercase mail
  let found ← lookup fun t => decide (lower∈t.invitations)
  if found=true then
    ok (update "Error deleting invitation" fun t => {t with invitations := t.invitations.filter (·≠lower)})
  else pure ()

/-- `User::find_by_mail`. -/
def User.findByMail (settings : Settings) (mail : Text) : Action (Option User) :=
  lookup fun t => t.users.find? fun u => u.email=settings.toLowercase mail

/-- `User::find_by_uuid`. -/
def User.findByUuid (uuid : Uuid) : Action (Option User) :=
  lookup fun t => t.users.find? fun u => u.uuid=uuid

/-- `User::save`. -/
def User.save (settings : Settings) (u : User) : Action Unit :=
  if settings.isValidEmail u.email=true then
    update "Error saving user" fun t => {t with users := put User.uuid u t.users}
  else throw ("User email "++String.ofList u.email++" is not a valid email address")

/-- `Organization::find_by_uuid`. -/
def Organization.findByUuid (uuid : Uuid) : Action (Option Organization) :=
  lookup fun t => t.organizations.find? fun o => o.uuid=uuid

/-- `Organization::save`, with the address that is checked. -/
def Organization.save (settings : Settings) (billingEmail : Text) (o : Organization) : Action Unit :=
  if settings.isValidEmail billingEmail=true then
    update "Error saving organization" fun t =>
      {t with organizations := put Organization.uuid o t.organizations}
  else throw ("BillingEmail "++String.ofList billingEmail++" is not a valid email address")

/-- `CollectionUser::save`. -/
def CollectionUser.save (user collection : Uuid) (flags : Flags) : Action Unit :=
  update "Error adding user to collection" fun t =>
    {t with usersCollections := put CollectionUser.key ⟨user,collection,flags⟩ t.usersCollections}

/-- `CollectionUser::delete`. -/
def CollectionUser.delete (r : CollectionUser) : Action Unit :=
  update "Error removing user from collection" fun t =>
    {t with usersCollections := t.usersCollections.filter fun q => q.key≠r.key}

/-- `CollectionUser::delete_all_by_collection`. -/
def CollectionUser.deleteAllByCollection (collection : Uuid) : Action Unit :=
  update "Error deleting users from collection" fun t =>
    {t with usersCollections := t.usersCollections.filter fun q => q.collectionUuid≠collection}

/-- The collections of an organisation. -/
def Collection.findByOrganization (org : Uuid) : Action (List Collection) :=
  lookup fun t => t.collections.filter fun k => k.orgUuid=org

/-- `CollectionUser::find_by_organization_and_user_uuid`. -/
def CollectionUser.findByOrganizationAndUserUuid (t : Tables) (org user : Uuid) : List CollectionUser :=
  ((innerJoin (t.usersCollections.filter fun r => r.userUuid=user) t.collections
    fun r k => k.uuid=r.collectionUuid).filter fun (_,k) => k.orgUuid=org).map Prod.fst

/-- `CollectionUser::delete_all_by_user_and_org`. The rows are looked up
first and then deleted in one call. -/
def CollectionUser.deleteAllByUserAndOrg (user org : Uuid) : Action Unit := do
  let rows ← lookup fun t => CollectionUser.findByOrganizationAndUserUuid t org user
  update "Error removing user from collections" fun t =>
    {t with usersCollections := t.usersCollections.filter fun q =>
      ¬(q.userUuid=user ∧ q.collectionUuid∈rows.map CollectionUser.collectionUuid)}

/-- `GroupUser::save`. -/
def GroupUser.save (r : GroupUser) : Action Unit :=
  update "Error adding user to group" fun t => {t with groupsUsers := put id r t.groupsUsers}

/-- `GroupUser::delete_all_by_group`. -/
def GroupUser.deleteAllByGroup (group : Uuid) : Action Unit :=
  update "Error deleting group users" fun t =>
    {t with groupsUsers := t.groupsUsers.filter fun r => r.groupsUuid≠group}

/-- `GroupUser::delete_all_by_member`. -/
def GroupUser.deleteAllByMember (member : Uuid) : Action Unit :=
  update "Error deleting user groups" fun t =>
    {t with groupsUsers := t.groupsUsers.filter fun r => r.usersOrganizationsUuid≠member}

/-- `GroupUser::delete_by_group_and_member`. -/
def GroupUser.deleteByGroupAndMember (group member : Uuid) : Action Unit :=
  update "Error deleting group users" fun t => {t with groupsUsers := t.groupsUsers.filter fun r =>
    ¬(r.groupsUuid=group ∧ r.usersOrganizationsUuid=member)}

/-- `CollectionGroup::save`. -/
def CollectionGroup.save (r : CollectionGroup) : Action Unit :=
  update "Error adding group to collection" fun t =>
    {t with collectionsGroups := put CollectionGroup.key r t.collectionsGroups}

/-- `CollectionGroup::delete_all_by_group`. -/
def CollectionGroup.deleteAllByGroup (group : Uuid) : Action Unit :=
  update "Error deleting collection group" fun t =>
    {t with collectionsGroups := t.collectionsGroups.filter fun r => r.groupsUuid≠group}

/-- `CollectionGroup::delete_all_by_collection`. -/
def CollectionGroup.deleteAllByCollection (collection : Uuid) : Action Unit :=
  update "Error deleting collection group" fun t =>
    {t with collectionsGroups := t.collectionsGroups.filter fun r => r.collectionsUuid≠collection}

/-- `Membership::find_by_uuid_and_org`. -/
def Membership.findByUuidAndOrg (uuid org : Uuid) : Action (Option Membership) :=
  lookup fun t => t.members.find? fun m => m.uuid=uuid ∧ m.orgUuid=org

/-- `Membership::find_by_user_and_org`. -/
def Membership.findByUserAndOrg (user org : Uuid) : Action (Option Membership) :=
  lookup fun t => t.members.find? fun m => m.userUuid=user ∧ m.orgUuid=org

/-- `Membership::find_by_org`. -/
def Membership.findByOrg (org : Uuid) : Action (List Membership) :=
  lookup fun t => t.members.filter fun m => m.orgUuid=org

/-- `Membership::find_by_email_and_org`. -/
def Membership.findByEmailAndOrg (settings : Settings) (email : Text) (org : Uuid) :
    Action (Option Membership) := do
  let user ← User.findByMail settings email
  match user with
  | some user => Membership.findByUserAndOrg user.uuid org
  | none => pure none

/-- `Membership::find_by_external_id_and_org`. -/
def Membership.findByExternalIdAndOrg (externalId : Text) (org : Uuid) : Action (Option Membership) :=
  lookup fun t => t.members.find? fun m => m.externalId=some externalId ∧ m.orgUuid=org

/-- The rows that `count_confirmed_by_org_and_type` counts. -/
def Membership.confirmedByOrgAndType (t : Tables) (org : Uuid) (atype : MembershipType) :
    List Membership :=
  t.members.filter fun m => m.orgUuid=org ∧ m.atype=atype ∧ m.status=Confirmed

/-- `Membership::count_confirmed_by_org_and_type`. -/
def Membership.countConfirmedByOrgAndType (org : Uuid) (atype : MembershipType) : Action ℕ :=
  lookup fun t => (Membership.confirmedByOrgAndType t org atype).length

/-- `Membership::count_accepted_and_confirmed_by_user`. -/
def Membership.countAcceptedAndConfirmedByUser (user excludedOrg : Uuid) : Action ℕ :=
  lookup fun t => (t.members.filter fun m => m.userUuid=user ∧ m.orgUuid≠excludedOrg ∧
    (m.status=Accepted ∨ m.status=Confirmed)).length

/-- `Membership::save`. -/
def Membership.save (m : Membership) : Action Unit :=
  update "Error adding user to organization" fun t => {t with members := put Membership.uuid m t.members}

/-- `Membership::delete`. -/
def Membership.delete (m : Membership) : Action Unit := do
  CollectionUser.deleteAllByUserAndOrg m.userUuid m.orgUuid
  GroupUser.deleteAllByMember m.uuid
  update "Error removing user from organization" fun t =>
    {t with members := t.members.filter fun q => q.uuid≠m.uuid}

/-- `Membership::delete_all_by_user`. -/
def Membership.deleteAllByUser (user : Uuid) : Action Unit := do
  let members ← lookup fun t => t.members.filter fun m => m.userUuid=user
  each members Membership.delete

/-- `Collection::find_by_uuid_and_org`. -/
def Collection.findByUuidAndOrg (uuid org : Uuid) : Action (Option Collection) :=
  lookup fun t => t.collections.find? fun k => k.uuid=uuid ∧ k.orgUuid=org

/-- `Collection::save`. -/
def Collection.save (k : Collection) : Action Unit :=
  update "Error saving collection" fun t => {t with collections := put Collection.uuid k t.collections}

/-- `CollectionCipher::save`. -/
def CollectionCipher.save (cipher collection : Uuid) : Action Unit :=
  update "Error adding cipher to collection" fun t =>
    {t with ciphersCollections := put id ⟨cipher,collection⟩ t.ciphersCollections}

/-- `CollectionCipher::delete`. -/
def CollectionCipher.delete (cipher collection : Uuid) : Action Unit :=
  update "Error deleting cipher from collection" fun t =>
    {t with ciphersCollections := t.ciphersCollections.filter fun r =>
      ¬(r.cipherUuid=cipher ∧ r.collectionUuid=collection)}

/-- `CollectionCipher::delete_all_by_cipher`. -/
def CollectionCipher.deleteAllByCipher (cipher : Uuid) : Action Unit :=
  update "Error removing cipher from collections" fun t =>
    {t with ciphersCollections := t.ciphersCollections.filter fun r => r.cipherUuid≠cipher}

/-- `CollectionCipher::delete_all_by_collection`. -/
def CollectionCipher.deleteAllByCollection (collection : Uuid) : Action Unit :=
  update "Error removing ciphers from collection" fun t =>
    {t with ciphersCollections := t.ciphersCollections.filter fun r => r.collectionUuid≠collection}

/-- `Collection::delete`. -/
def Collection.delete (k : Collection) : Action Unit := do
  CollectionCipher.deleteAllByCollection k.uuid
  CollectionUser.deleteAllByCollection k.uuid
  CollectionGroup.deleteAllByCollection k.uuid
  update "Error deleting collection" fun t =>
    {t with collections := t.collections.filter fun q => q.uuid≠k.uuid}

/-- `Group::find_by_organization`. -/
def Group.findByOrganization (org : Uuid) : Action (List Group) :=
  lookup fun t => t.groups.filter fun g => g.organizationsUuid=org

/-- `Group::find_by_uuid_and_org`. -/
def Group.findByUuidAndOrg (uuid org : Uuid) : Action (Option Group) :=
  lookup fun t => t.groups.find? fun g => g.uuid=uuid ∧ g.organizationsUuid=org

/-- `Group::find_by_external_id_and_org`. -/
def Group.findByExternalIdAndOrg (externalId : Text) (org : Uuid) : Action (Option Group) :=
  lookup fun t => t.groups.find? fun g => g.externalId=some externalId ∧ g.organizationsUuid=org

/-- `Group::save`. -/
def Group.save (g : Group) : Action Unit :=
  update "Error saving group" fun t => {t with groups := put Group.uuid g t.groups}

/-- `Group::delete`. -/
def Group.delete (g : Group) : Action Unit := do
  CollectionGroup.deleteAllByGroup g.uuid
  GroupUser.deleteAllByGroup g.uuid
  update "Error deleting group" fun t => {t with groups := t.groups.filter fun q => q.uuid≠g.uuid}

/-- `Cipher::delete`, with the deletes of the rows that refer to it. -/
def Cipher.delete (c : Cipher) : Action Unit := do
  update "Error removing cipher from folders" fun t =>
    {t with foldersCiphers := t.foldersCiphers.filter fun r => r.cipherUuid≠c.uuid}
  CollectionCipher.deleteAllByCipher c.uuid
  let attachments ← lookup fun t => t.attachments.filter fun a => a.cipherUuid=c.uuid
  each attachments fun a => update "Error deleting attachment" fun t =>
    {t with attachments := t.attachments.filter fun q => q.id≠a.id}
  update "Error removing favorites by cipher" fun t =>
    {t with favorites := t.favorites.filter fun r => r.cipherUuid≠c.uuid}
  update "Error deleting cipher" fun t => {t with ciphers := t.ciphers.filter fun q => q.uuid≠c.uuid}

/-- `Cipher::delete_all_by_user`. -/
def Cipher.deleteAllByUser (user : Uuid) : Action Unit := do
  let ciphers ← lookup fun t => t.ciphers.filter fun c => c.userUuid=some user
  each ciphers Cipher.delete

/-- `Folder::delete_all_by_user`. -/
def Folder.deleteAllByUser (user : Uuid) : Action Unit := do
  let folders ← lookup fun t => t.folders.filter fun f => f.userUuid=user
  each folders fun f => do
    update "Error removing ciphers from folder" fun t =>
      {t with foldersCiphers := t.foldersCiphers.filter fun r => r.folderUuid≠f.uuid}
    update "Error deleting folder" fun t => {t with folders := t.folders.filter fun q => q.uuid≠f.uuid}

/-- `Send::delete_all_by_user`. -/
def Send.deleteAllByUser (user : Uuid) : Action Unit := do
  let sends ← lookup fun t => t.sends.filter fun s => s.userUuid=some user
  each sends fun s => update "Error deleting send" fun t =>
    {t with sends := t.sends.filter fun q => q.uuid≠s.uuid}

/-- `EmergencyAccess::delete`. -/
def EmergencyAccess.delete (e : EmergencyAccess) : Action Unit :=
  update "Error removing user from emergency access" fun t =>
    {t with emergencyAccess := t.emergencyAccess.filter fun q => q.uuid≠e.uuid}

/-- `EmergencyAccess::delete_all_by_user` and `delete_all_by_grantee_email`. -/
def EmergencyAccess.deleteAllByUser (user : Uuid) (email : Text) : Action Unit := do
  let granted ← lookup fun t => t.emergencyAccess.filter fun e => e.grantorUuid=user
  each granted EmergencyAccess.delete
  let received ← lookup fun t => t.emergencyAccess.filter fun e => e.granteeUuid=some user
  each received EmergencyAccess.delete
  let invited ← lookup fun t => t.emergencyAccess.filter fun e => e.email=some email ∧ e.status=Invited
  each invited EmergencyAccess.delete

/-- The check that an owner who goes is not the last one. -/
def ensureOtherOwner (message : String) (goes : Bool) (org : Uuid) : Action Unit :=
  if goes=true then do
    let owners ← Membership.countConfirmedByOrgAndType org .owner
    ensure message (decide (1<owners))
  else pure ()

/-- `User::delete`. -/
def User.delete (settings : Settings) (u : User) : Action Unit := do
  let confirmed ← lookup fun t => Membership.findConfirmedByUser t u.uuid
  each confirmed fun m =>
    ensureOtherOwner "Can't delete last owner" (decide (m.atype=.owner)) m.orgUuid
  Send.deleteAllByUser u.uuid
  EmergencyAccess.deleteAllByUser u.uuid u.email
  Membership.deleteAllByUser u.uuid
  Cipher.deleteAllByUser u.uuid
  update "Error removing favorites by user" fun t =>
    {t with favorites := t.favorites.filter fun r => r.userUuid≠u.uuid}
  Folder.deleteAllByUser u.uuid
  update "Error removing devices for user" fun t =>
    {t with devices := t.devices.filter fun d => d.userUuid≠u.uuid}
  update "Error deleting twofactors" fun t =>
    {t with twofactor := t.twofactor.filter fun f => f.userUuid≠u.uuid}
  Invitation.take settings u.email
  update "Error deleting user" fun t => {t with users := t.users.filter fun q => q.uuid≠u.uuid}

/-- An active policy of an organisation. -/
def OrgPolicy.active (t : Tables) (org : Uuid) (atype : OrgPolicyType) : Bool :=
  decide (⟨org,atype⟩∈t.policies)

/-- `OrgPolicy::is_applicable_to_user`. -/
def OrgPolicy.isApplicableToUser (user : Uuid) (atype : OrgPolicyType) (excludeOrg : Option Uuid) :
    Action Bool := do
  let policies ← lookup fun t => (innerJoin t.policies t.members fun p m =>
    m.orgUuid=p.orgUuid ∧ m.userUuid=user).filter fun (p,m) =>
      (m.status=Accepted ∨ m.status=Confirmed) ∧ p.atype=atype
  findAny (policies.filter fun (p,_) => excludeOrg≠some p.orgUuid) fun (p,_) =>
    lookup fun t => (Membership.findConfirmedByUserAndOrg t user p.orgUuid).any
      fun m => ¬(MembershipType.admin≤ m.atype)

/-- `TwoFactor::find_by_user`, without the types of the implementation. -/
def TwoFactor.findByUser (t : Tables) (user : Uuid) : List TwoFactor :=
  t.twofactor.filter fun f => f.userUuid=user ∧ f.atype<1000

/-- `TwoFactor::find_by_user_and_type`. -/
def TwoFactor.findByUserAndType (t : Tables) (user : Uuid) (atype : ℤ) : Option TwoFactor :=
  t.twofactor.find? fun f => f.userUuid=user ∧ f.atype=atype

/-- The rows after a factor was saved: one for each account and type. -/
def TwoFactor.saved (f : TwoFactor) (rows : List TwoFactor) : List TwoFactor :=
  put ServerTables.TwoFactor.uuid f (rows.filter fun r => ¬(r.userUuid=f.userUuid ∧ r.atype=f.atype))

/-- `TwoFactor::save`. -/
def TwoFactor.save (f : TwoFactor) : Action Unit :=
  update "Error saving twofactor" fun t => {t with twofactor := TwoFactor.saved f t.twofactor}

/-- `activate_email_2fa`. The first token is empty. -/
def activateEmail2fa (user : User) : Action Unit :=
  if user.verified=true then do
    let uuid ← getUuid
    let now ← utcNow
    TwoFactor.save (ServerTables.TwoFactor.new uuid user.uuid ServerTables.TwoFactor.Email
      (.emailToken ⟨user.email,some [],now,0⟩))
  else throw "Auto-enabling of email 2FA failed because the users email address has not been verified!"

/-- `find_and_activate_email_2fa`. -/
def findAndActivateEmail2fa (user : Uuid) : Action Unit := do
  let user ← User.findByUuid user
  match user with
  | none => throw "User not found!"
  | some user => activateEmail2fa user

/-- The second factor that a policy of the organisation may require. -/
def OrgPolicy.checkTwoFactor (settings : Settings) (m : Membership) (action : String) : Action Unit := do
  let required ← lookup fun t => OrgPolicy.active t m.orgUuid .twoFactorAuthentication
  let present ← lookup fun t => !(TwoFactor.findByUser t m.userUuid).isEmpty
  if ¬(required=true ∧ present=false) then pure ()
  else if settings.email2faAutoFallback=true then findAndActivateEmail2fa m.userUuid
  else throw ("Cannot "++action++" because 2FA is required (membership "++toString m.uuid++")")

/-- The other organisations that a policy of this one may forbid. -/
def OrgPolicy.checkSingleOrg (m : Membership) (action : String) : Action Unit := do
  let single ← lookup fun t => OrgPolicy.active t m.orgUuid .singleOrg
  if single=true then do
    let others ← Membership.countAcceptedAndConfirmedByUser m.userUuid m.orgUuid
    ensure ("Cannot "++action++
      " because the organization policy forbids being part of other organization (membership "++
      toString m.uuid++")") (decide (others=0))
  else pure ()

/-- `OrgPolicy::check_user_allowed`. -/
def OrgPolicy.checkUserAllowed (settings : Settings) (m : Membership) (action : String) : Action Unit :=
  if ¬(MembershipType.admin≤ m.atype) ∧ Invited< m.status then do
    OrgPolicy.checkTwoFactor settings m action
    let elsewhere ← OrgPolicy.isApplicableToUser m.userUuid .singleOrg (some m.orgUuid)
    ensure ("Cannot "++action++" because another organization policy forbids it (membership "++
      toString m.uuid++")") (!elsewhere)
    OrgPolicy.checkSingleOrg m action
  else pure ()

end NadSafe.ServerModels
