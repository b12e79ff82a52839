import NadSafe.HostText
import NadSafe.TableRows

/-!
# Tables of the server

The rows that the handlers of this development read and write, with the
constraints of the schema: keys, unique columns and references. A database is
a set of tables that meets them all, and a statement that would break one is
refused. A save inserts a row or updates the row with its key. Dates of
revision, events and notifications are left out. A drawn uuid is a number
that was not handed out before.
-/

namespace NadSafe.ServerTables

open HostText TableRows

/-- A uuid. -/
abbrev Uuid := ℕ

/-- `MembershipType`. -/
inductive MembershipType where
  /-- Owner. -/
  | owner
  /-- Administrator. -/
  | admin
  /-- Plain member. -/
  | user
  /-- Manager, also for custom roles. -/
  | manager
  deriving DecidableEq

/-- The number stored for a type. -/
def MembershipType.code : MembershipType → ℕ
  | .owner => 0
  | .admin => 1
  | .user => 2
  | .manager => 3

/-- `ACCESS_LEVEL`. -/
def MembershipType.accessLevel : MembershipType → ℕ
  | .owner => 3
  | .admin => 2
  | .user => 0
  | .manager => 1

/-- `Ord for MembershipType`. -/
instance : LE MembershipType := ⟨fun a b => a.accessLevel≤b.accessLevel⟩

instance (a b : MembershipType) : Decidable (a≤b) :=
  inferInstanceAs (Decidable (a.accessLevel≤b.accessLevel))

/-- `MembershipType::from_str`. The custom role becomes a manager. -/
def MembershipType.fromStr (s : String) : Option MembershipType :=
  if s="0" ∨ s="Owner" then some .owner
  else if s="1" ∨ s="Admin" then some .admin
  else if s="2" ∨ s="User" then some .user
  else if s="3" ∨ s="Manager" ∨ s="4" ∨ s="Custom" then some .manager
  else none

/-- `MembershipStatus::Revoked`. -/
def Revoked : ℤ := -1

/-- `MembershipStatus::Invited`. -/
def Invited : ℤ := 0

/-- `MembershipStatus::Accepted`. -/
def Accepted : ℤ := 1

/-- `MembershipStatus::Confirmed`. -/
def Confirmed : ℤ := 2

/-- `ACTIVATE_REVOKE_DIFF`. -/
def ACTIVATE_REVOKE_DIFF : ℤ := 128

/-- An organisation. -/
structure Organization where
  /-- Key. -/
  uuid : Uuid
  deriving DecidableEq

/-- A row of `users_organizations`. -/
structure Membership where
  /-- Key. -/
  uuid : Uuid
  /-- The member. -/
  userUuid : Uuid
  /-- The organisation. -/
  orgUuid : Uuid
  /-- Who sent the invitation. -/
  invitedByEmail : Option Text
  /-- Access to every collection. -/
  accessAll : Bool
  /-- The organisation key for this member. -/
  akey : Text
  /-- Status; revoked ones are shifted below zero. -/
  status : ℤ
  /-- Role. -/
  atype : MembershipType
  /-- Key for account recovery. -/
  resetPasswordKey : Option Text
  /-- Identifier in a directory. -/
  externalId : Option Text
  deriving DecidableEq

/-- `Membership::new`. -/
def Membership.new (uuid userUuid orgUuid : Uuid) (invitedByEmail : Option Text) : Membership :=
  ⟨uuid,userUuid,orgUuid,invitedByEmail,false,[],Accepted,.user,none,none⟩

/-- `Membership::restore`. -/
def Membership.restore (m : Membership) : Membership :=
  if m.status<Invited then {m with status := m.status+ACTIVATE_REVOKE_DIFF} else m

/-- `Membership::revoke`. -/
def Membership.revoke (m : Membership) : Membership :=
  if Revoked< m.status then {m with status := m.status-ACTIVATE_REVOKE_DIFF} else m

/-- `Membership::has_full_access`. -/
def Membership.hasFullAccess (m : Membership) : Bool :=
  (m.accessAll || decide (MembershipType.admin≤ m.atype)) && decide (m.status=Confirmed)

/-- A collection. -/
structure Collection where
  /-- Key. -/
  uuid : Uuid
  /-- Owner. -/
  orgUuid : Uuid
  deriving DecidableEq

/-- The flags of a grant. -/
structure Flags where
  /-- No changes. -/
  readOnly : Bool
  /-- No passwords. -/
  hidePasswords : Bool
  /-- Management right. -/
  manage : Bool
  deriving DecidableEq

/-- A row of `users_collections`. -/
structure CollectionUser where
  /-- The member's account. -/
  userUuid : Uuid
  /-- The collection. -/
  collectionUuid : Uuid
  /-- Flags. -/
  flags : Flags
  deriving DecidableEq

/-- Its key. -/
def CollectionUser.key (r : CollectionUser) : Uuid×Uuid := (r.userUuid,r.collectionUuid)

/-- A group. -/
structure Group where
  /-- Key. -/
  uuid : Uuid
  /-- Owner. -/
  organizationsUuid : Uuid
  /-- Access to every collection. -/
  accessAll : Bool
  /-- Identifier in a directory. -/
  externalId : Option Text
  deriving DecidableEq

/-- A row of `groups_users`. -/
structure GroupUser where
  /-- The group. -/
  groupsUuid : Uuid
  /-- The membership. -/
  usersOrganizationsUuid : Uuid
  deriving DecidableEq

/-- A row of `collections_groups`. -/
structure CollectionGroup where
  /-- The collection. -/
  collectionsUuid : Uuid
  /-- The group. -/
  groupsUuid : Uuid
  /-- Flags. -/
  flags : Flags
  deriving DecidableEq

/-- Its key. -/
def CollectionGroup.key (r : CollectionGroup) : Uuid×Uuid := (r.collectionsUuid,r.groupsUuid)

/-- A cipher. -/
structure Cipher where
  /-- Key. -/
  uuid : Uuid
  /-- Last change. -/
  updatedAt : ℤ
  /-- Personal owner. -/
  userUuid : Option Uuid
  /-- Owning organisation. -/
  organizationUuid : Option Uuid
  /-- Item key. -/
  key : Option Text
  /-- Type. -/
  atype : ℤ
  /-- Name. -/
  name : Text
  /-- Notes. -/
  notes : Option Text
  /-- Custom fields, as JSON text. -/
  fields : Option Text
  /-- Content for the type, as JSON text. -/
  data : Text
  /-- Older passwords, as JSON text. -/
  passwordHistory : Option Text
  /-- Master password prompt. -/
  reprompt : Option ℤ
  deriving DecidableEq

/-- `Cipher::new`. -/
def Cipher.new (uuid : Uuid) (now atype : ℤ) (name : Text) : Cipher :=
  ⟨uuid,now,none,none,none,atype,name,none,none,[],none,none⟩

/-- A row of `ciphers_collections`. -/
structure CollectionCipher where
  /-- The cipher. -/
  cipherUuid : Uuid
  /-- The collection. -/
  collectionUuid : Uuid
  deriving DecidableEq

/-- An attachment. -/
structure Attachment where
  /-- Key. -/
  id : Uuid
  /-- The cipher. -/
  cipherUuid : Uuid
  /-- Sealed file name. -/
  fileName : Text
  /-- The size of the file in bytes, declared or measured. -/
  fileSize : ℤ
  /-- Sealed key. -/
  akey : Option Text
  deriving DecidableEq

/-- A folder. -/
structure Folder where
  /-- Key. -/
  uuid : Uuid
  /-- Owner. -/
  userUuid : Uuid
  /-- Sealed name. -/
  name : Text
  deriving DecidableEq

/-- A row of `folders_ciphers`. -/
structure FolderCipher where
  /-- The cipher. -/
  cipherUuid : Uuid
  /-- The folder. -/
  folderUuid : Uuid
  deriving DecidableEq

/-- A favourite. -/
structure Favorite where
  /-- Whose. -/
  userUuid : Uuid
  /-- The cipher. -/
  cipherUuid : Uuid
  deriving DecidableEq

/-- A send. -/
structure Send where
  /-- Key. -/
  uuid : Uuid
  /-- Owner. -/
  userUuid : Option Uuid
  /-- Owning organisation. -/
  organizationUuid : Option Uuid
  /-- Sealed name. -/
  name : Text
  /-- Sealed notes. -/
  notes : Option Text
  /-- Type. -/
  atype : ℤ
  /-- Content, as JSON text. -/
  data : Text
  /-- Sealed key. -/
  akey : Text
  /-- Hash, salt and iterations of a password. -/
  password : Option (Bytes×Bytes×ℕ)
  /-- Limit of accesses. -/
  maxAccessCount : Option ℤ
  /-- Accesses so far. -/
  accessCount : ℤ
  /-- End of access. -/
  expirationDate : Option ℤ
  /-- End of life. -/
  deletionDate : ℤ
  /-- Switched off. -/
  disabled : Bool
  /-- The sender stays hidden. -/
  hideEmail : Option Bool
  deriving DecidableEq

/-- An emergency access. -/
structure EmergencyAccess where
  /-- Key. -/
  uuid : Uuid
  /-- Who grants it. -/
  grantorUuid : Uuid
  /-- Who has it. -/
  granteeUuid : Option Uuid
  /-- Address of an invited grantee. -/
  email : Option Text
  /-- The user key, sealed for the grantee. -/
  keyEncrypted : Option Text
  /-- Type. -/
  atype : ℤ
  /-- Status. -/
  status : ℤ
  /-- Days that a recovery waits. -/
  waitTimeDays : ℤ
  /-- Start of the last recovery. -/
  recoveryInitiatedAt : Option ℤ
  /-- Last reminder. -/
  lastNotificationAt : Option ℤ
  deriving DecidableEq

/-- `EmergencyAccessStatus::Confirmed`. -/
def EmergencyAccess.Confirmed : ℤ := 2

/-- A device. -/
structure Device where
  /-- Chosen by the client. -/
  uuid : Uuid
  /-- Whose. -/
  userUuid : Uuid
  /-- Name. -/
  name : Text
  /-- For push messages. -/
  pushToken : Option Text
  /-- The one refresh token that is accepted. -/
  refreshToken : Uuid
  /-- Skips the second factor. -/
  twofactorRemember : Option Text
  deriving DecidableEq

/-- Its key. -/
def Device.key (d : Device) : Uuid×Uuid := (d.uuid,d.userUuid)

/-- `UserStampException`. -/
structure UserStampException where
  /-- Routes that may still be used. -/
  routes : List Text
  /-- The stamp that is still accepted there. -/
  securityStamp : Uuid
  /-- The last second of its life. -/
  expire : ℤ
  deriving DecidableEq

/-- A row of `users`. -/
structure User where
  /-- Key. -/
  uuid : Uuid
  /-- Address, in lower case. -/
  email : Text
  /-- Address that waits for its token. -/
  emailNew : Option Text
  /-- The token. -/
  emailNewToken : Option Text
  /-- The address is verified. -/
  verified : Bool
  /-- Display name. -/
  name : Text
  /-- Hash of the master password hash; empty before registration. -/
  passwordHash : Bytes
  /-- Its salt. -/
  salt : Bytes
  /-- Its iterations. -/
  passwordIterations : ℕ
  /-- Hint. -/
  passwordHint : Option Text
  /-- Wrapped user key. -/
  akey : Text
  /-- Wrapped private key. -/
  privateKey : Option Text
  /-- Public key. -/
  publicKey : Option Text
  /-- Recovery code of the second factor. -/
  totpRecover : Option Text
  /-- Stamp of all valid access tokens. -/
  securityStamp : Uuid
  /-- An older stamp that is accepted for a while. -/
  stampException : Option UserStampException
  /-- Client key derivation: function, iterations, memory and parallelism. -/
  clientKdf : ℤ×ℤ×Option ℤ×Option ℤ
  /-- Personal API key. -/
  apiKey : Option Text
  /-- Avatar. -/
  avatarColor : Option Text
  deriving DecidableEq

/-- `User::CLIENT_KDF_ITER_DEFAULT`, with the default function. -/
def User.CLIENT_KDF_DEFAULT : ℤ×ℤ×Option ℤ×Option ℤ := (0,600000,none,none)

/-- `User::new`, for an address in lower case. -/
def User.new (uuid securityStamp : Uuid) (salt : Bytes) (passwordIterations : ℕ) (email : Text)
    (name : Option Text) : User where
  uuid := uuid
  email := email
  emailNew := none
  emailNewToken := none
  verified := false
  name := name.getD email
  passwordHash := []
  salt := salt
  passwordIterations := passwordIterations
  passwordHint := none
  akey := []
  privateKey := none
  publicKey := none
  totpRecover := none
  securityStamp := securityStamp
  stampException := none
  clientKdf := User.CLIENT_KDF_DEFAULT
  apiKey := none
  avatarColor := none

/-- `EmailTokenData`. -/
structure EmailTokenData where
  /-- Address that tokens are sent to. -/
  email : Text
  /-- The token that may be entered. -/
  lastToken : Option Text
  /-- When it was issued. -/
  tokenSent : ℤ
  /-- Wrong entries. -/
  attempts : ℕ
  deriving DecidableEq

/-- `WebauthnRegistration`, with the credential as text. -/
structure WebauthnRegistration where
  /-- Number. -/
  id : ℤ
  /-- Name. -/
  name : Text
  /-- Taken over from an older factor. -/
  migrated : Bool
  /-- Credential. -/
  credential : Text
  deriving DecidableEq

/-- `ProtectedActionData`. -/
structure ProtectedActionData where
  /-- The token. -/
  token : Text
  /-- When it was issued. -/
  tokenSent : ℤ
  /-- Entries. -/
  attempts : ℕ
  deriving DecidableEq

/-- The data column of a second factor, as the code reads it. -/
inductive TwoFactorData where
  /-- Plain text, such as the secret of an authenticator. -/
  | text (text : Text)
  /-- Data of an e-mail factor. -/
  | emailToken (data : EmailTokenData)
  /-- Registered keys. -/
  | registrations (keys : List WebauthnRegistration)
  /-- Handles of keys of the older kind. -/
  | handles (keys : List Text)
  /-- Data of a protected action. -/
  | protectedAction (data : ProtectedActionData)
  deriving DecidableEq

/-- A row of `twofactor`. -/
structure TwoFactor where
  /-- Key. -/
  uuid : Uuid
  /-- Whose. -/
  userUuid : Uuid
  /-- Type. -/
  atype : ℤ
  /-- In use. -/
  enabled : Bool
  /-- Data. -/
  data : TwoFactorData
  /-- Last time step of an authenticator. -/
  lastUsed : ℤ
  deriving DecidableEq

/-- One factor for each account and type. -/
def TwoFactor.key (f : TwoFactor) : Uuid×ℤ := (f.userUuid,f.atype)

/-- `TwoFactorType::Email`. -/
def TwoFactor.Email : ℤ := 1

/-- `TwoFactor::new`. -/
def TwoFactor.new (uuid userUuid : Uuid) (atype : ℤ) (data : TwoFactorData) : TwoFactor :=
  ⟨uuid,userUuid,atype,true,data,0⟩

/-- `OrgPolicyType`, as far as the handlers ask for it. -/
inductive OrgPolicyType where
  /-- Second factor required. -/
  | twoFactorAuthentication
  /-- No other organisation. -/
  | singleOrg
  /-- No personal items. -/
  | personalOwnership
  /-- Account recovery, with automatic enrolment or not. -/
  | resetPassword (autoEnroll : Bool)
  deriving DecidableEq

/-- An active policy. -/
structure OrgPolicy where
  /-- The organisation. -/
  orgUuid : Uuid
  /-- Kind. -/
  atype : OrgPolicyType
  deriving DecidableEq

/-- All tables. -/
structure Tables where
  /-- `users`. -/
  users : List User
  /-- `organizations`. -/
  organizations : List Organization
  /-- `users_organizations`. -/
  members : List Membership
  /-- `collections`. -/
  collections : List Collection
  /-- `users_collections`. -/
  usersCollections : List CollectionUser
  /-- `groups`. -/
  groups : List Group
  /-- `groups_users`. -/
  groupsUsers : List GroupUser
  /-- `collections_groups`. -/
  collectionsGroups : List CollectionGroup
  /-- `ciphers`. -/
  ciphers : List Cipher
  /-- `ciphers_collections`. -/
  ciphersCollections : List CollectionCipher
  /-- Active rows of `org_policies`. -/
  policies : List OrgPolicy
  /-- `twofactor`. -/
  twofactor : List TwoFactor
  /-- `invitations`. -/
  invitations : List Text
  /-- `attachments`. -/
  attachments : List Attachment
  /-- `folders`. -/
  folders : List Folder
  /-- `folders_ciphers`. -/
  foldersCiphers : List FolderCipher
  /-- `favorites`. -/
  favorites : List Favorite
  /-- `sends`. -/
  sends : List Send
  /-- `emergency_access`. -/
  emergencyAccess : List EmergencyAccess
  /-- `devices`. -/
  devices : List Device
  /-- The time, in seconds. -/
  now : ℤ
  /-- Uuids from here on have not been drawn. -/
  next : Uuid
  deriving DecidableEq

/-- No rows. -/
def Tables.none : Tables := ⟨[],[],[],[],[],[],[],[],[],[],[],[],[],[],[],[],[],[],[],[],0,0⟩

/-- Every row refers to a row that exists. -/
def Refers {ρ τ : Type} (rows : List ρ) (ref : ρ → Uuid) (targets : List τ) (key : τ → Uuid) : Prop :=
  ∀ r∈rows,∃ t∈targets,key t=ref r

instance {ρ τ : Type} (rows : List ρ) (ref : ρ → Uuid) (targets : List τ) (key : τ → Uuid) :
    Decidable (Refers rows ref targets key) :=
  inferInstanceAs (Decidable (∀ r∈rows,∃ t∈targets,key t=ref r))

/-- Every row that names a row refers to one that exists. -/
def MayRefer {ρ τ : Type} (rows : List ρ) (ref : ρ → Option Uuid) (targets : List τ)
    (key : τ → Uuid) : Prop :=
  ∀ r∈rows,ref r=none ∨ ∃ t∈targets,ref r=some (key t)

instance {ρ τ : Type} (rows : List ρ) (ref : ρ → Option Uuid) (targets : List τ) (key : τ → Uuid) :
    Decidable (MayRefer rows ref targets key) :=
  inferInstanceAs (Decidable (∀ r∈rows,ref r=none ∨ ∃ t∈targets,ref r=some (key t)))

/-- Keys and unique columns. -/
def Tables.Keyed (t : Tables) : Prop :=
  (t.users.map User.uuid).Nodup ∧ (t.users.map User.email).Nodup ∧
  (t.organizations.map Organization.uuid).Nodup ∧ (t.members.map Membership.uuid).Nodup ∧
  (t.members.map fun m => (m.userUuid,m.orgUuid)).Nodup ∧ (t.collections.map Collection.uuid).Nodup ∧
  (t.usersCollections.map CollectionUser.key).Nodup ∧ (t.groups.map Group.uuid).Nodup ∧
  t.groupsUsers.Nodup ∧ (t.collectionsGroups.map CollectionGroup.key).Nodup ∧
  (t.ciphers.map Cipher.uuid).Nodup ∧ t.ciphersCollections.Nodup ∧
  (t.attachments.map Attachment.id).Nodup ∧ (t.folders.map Folder.uuid).Nodup ∧
  t.foldersCiphers.Nodup ∧ t.favorites.Nodup ∧ (t.sends.map Send.uuid).Nodup ∧
  (t.emergencyAccess.map EmergencyAccess.uuid).Nodup ∧ (t.devices.map Device.key).Nodup ∧
  (t.twofactor.map TwoFactor.uuid).Nodup ∧ (t.twofactor.map TwoFactor.key).Nodup

/-- References. -/
def Tables.Linked (t : Tables) : Prop :=
  Refers t.members Membership.userUuid t.users User.uuid ∧
  Refers t.members Membership.orgUuid t.organizations Organization.uuid ∧
  Refers t.collections Collection.orgUuid t.organizations Organization.uuid ∧
  Refers t.usersCollections CollectionUser.userUuid t.users User.uuid ∧
  Refers t.usersCollections CollectionUser.collectionUuid t.collections Collection.uuid ∧
  Refers t.groups Group.organizationsUuid t.organizations Organization.uuid ∧
  Refers t.groupsUsers GroupUser.groupsUuid t.groups Group.uuid ∧
  Refers t.groupsUsers GroupUser.usersOrganizationsUuid t.members Membership.uuid ∧
  Refers t.collectionsGroups CollectionGroup.collectionsUuid t.collections Collection.uuid ∧
  Refers t.collectionsGroups CollectionGroup.groupsUuid t.groups Group.uuid ∧
  MayRefer t.ciphers Cipher.userUuid t.users User.uuid ∧
  MayRefer t.ciphers Cipher.organizationUuid t.organizations Organization.uuid ∧
  Refers t.ciphersCollections CollectionCipher.cipherUuid t.ciphers Cipher.uuid ∧
  Refers t.ciphersCollections CollectionCipher.collectionUuid t.collections Collection.uuid ∧
  Refers t.policies OrgPolicy.orgUuid t.organizations Organization.uuid ∧
  Refers t.twofactor TwoFactor.userUuid t.users User.uuid ∧
  Refers t.attachments Attachment.cipherUuid t.ciphers Cipher.uuid ∧
  Refers t.folders Folder.userUuid t.users User.uuid ∧
  Refers t.foldersCiphers FolderCipher.cipherUuid t.ciphers Cipher.uuid ∧
  Refers t.foldersCiphers FolderCipher.folderUuid t.folders Folder.uuid ∧
  Refers t.favorites Favorite.userUuid t.users User.uuid ∧
  Refers t.favorites Favorite.cipherUuid t.ciphers Cipher.uuid ∧
  MayRefer t.sends Send.userUuid t.users User.uuid ∧
  MayRefer t.sends Send.organizationUuid t.organizations Organization.uuid ∧
  Refers t.emergencyAccess EmergencyAccess.grantorUuid t.users User.uuid ∧
  MayRefer t.emergencyAccess EmergencyAccess.granteeUuid t.users User.uuid ∧
  Refers t.devices Device.userUuid t.users User.uuid

/-- Every uuid in use was drawn. -/
def Tables.Drawn (t : Tables) : Prop :=
  (∀ u∈t.users,u.uuid<t.next) ∧ (∀ o∈t.organizations,o.uuid<t.next) ∧ (∀ m∈t.members,m.uuid<t.next) ∧
  (∀ c∈t.collections,c.uuid<t.next) ∧ (∀ g∈t.groups,g.uuid<t.next) ∧ (∀ c∈t.ciphers,c.uuid<t.next) ∧
  (∀ a∈t.attachments,a.id<t.next) ∧ (∀ f∈t.folders,f.uuid<t.next) ∧ (∀ s∈t.sends,s.uuid<t.next) ∧
  (∀ e∈t.emergencyAccess,e.uuid<t.next) ∧ ∀ f∈t.twofactor,f.uuid<t.next

/-- The constraints of the schema. -/
def Tables.Valid (t : Tables) : Prop := t.Keyed ∧ t.Linked ∧ t.Drawn

instance (t : Tables) : Decidable t.Keyed := by unfold Tables.Keyed; infer_instance

instance (t : Tables) : Decidable t.Linked := by unfold Tables.Linked; infer_instance

instance (t : Tables) : Decidable t.Drawn := by unfold Tables.Drawn; infer_instance

instance (t : Tables) : Decidable t.Valid := inferInstanceAs (Decidable (_ ∧ _ ∧ _))

/-- A database. -/
structure Database extends Tables where
  /-- All constraints hold. -/
  valid : toTables.Valid

/-- The next state of a statement, unless it breaks a constraint. -/
def commit (t : Tables) : Option Database := if h : t.Valid then some ⟨t,h⟩ else none

/-- An accepted statement leaves its tables. -/
theorem commit_eq {t : Tables} {db : Database} (h : commit t=some db) : db.toTables=t := by
  unfold commit at h
  split at h
  · cases h
    rfl
  · cases h

/-- A database with the same tables. -/
theorem Database.ext_tables {a b : Database} (h : a.toTables=b.toTables) : a=b := by
  cases a
  cases b
  cases h
  rfl

/-- Drawing a uuid keeps every constraint. -/
theorem valid_draw {t : Tables} (h : t.Valid) : {t with next := t.next+1}.Valid := by
  obtain ⟨hkeys,hlinks,hu,ho,hm,hk,hg,hc,ha,hf,hs,he,hw⟩ := h
  refine ⟨hkeys,hlinks,?_⟩
  exact ⟨fun u hr => (hu u hr).trans (Nat.lt_succ_self _),fun o hr => (ho o hr).trans (Nat.lt_succ_self _),
    fun m hr => (hm m hr).trans (Nat.lt_succ_self _),fun k hr => (hk k hr).trans (Nat.lt_succ_self _),
    fun g hr => (hg g hr).trans (Nat.lt_succ_self _),fun c hr => (hc c hr).trans (Nat.lt_succ_self _),
    fun a hr => (ha a hr).trans (Nat.lt_succ_self _),fun f hr => (hf f hr).trans (Nat.lt_succ_self _),
    fun s hr => (hs s hr).trans (Nat.lt_succ_self _),fun e hr => (he e hr).trans (Nat.lt_succ_self _),
    fun f hr => (hw f hr).trans (Nat.lt_succ_self _)⟩

/-- The database after a uuid was drawn. -/
def Database.drawn (db : Database) : Database := ⟨{db.toTables with next := db.next+1},valid_draw db.valid⟩

/-- Valid tables are accepted. -/
theorem commit_valid {t : Tables} (h : t.Valid) : commit t=some ⟨t,h⟩ := dif_pos h

namespace Database

variable (db : Database)

theorem user_nodup : (db.users.map User.uuid).Nodup := db.valid.1.1

theorem email_nodup : (db.users.map User.email).Nodup := db.valid.1.2.1

theorem member_nodup : (db.members.map Membership.uuid).Nodup := db.valid.1.2.2.2.1

/-- One membership for each member and organisation. -/
theorem membership_nodup : (db.members.map fun m => (m.userUuid,m.orgUuid)).Nodup := db.valid.1.2.2.2.2.1

theorem collection_nodup : (db.collections.map Collection.uuid).Nodup := db.valid.1.2.2.2.2.2.1

theorem grant_nodup : (db.usersCollections.map CollectionUser.key).Nodup := db.valid.1.2.2.2.2.2.2.1

theorem group_nodup : (db.groups.map Group.uuid).Nodup := db.valid.1.2.2.2.2.2.2.2.1

theorem cipher_nodup : (db.ciphers.map Cipher.uuid).Nodup := db.valid.1.2.2.2.2.2.2.2.2.2.2.1

theorem attachment_nodup : (db.attachments.map Attachment.id).Nodup := db.valid.1.2.2.2.2.2.2.2.2.2.2.2.2.1

theorem folder_nodup : (db.folders.map Folder.uuid).Nodup := db.valid.1.2.2.2.2.2.2.2.2.2.2.2.2.2.1

theorem send_nodup : (db.sends.map Send.uuid).Nodup := db.valid.1.2.2.2.2.2.2.2.2.2.2.2.2.2.2.2.2.1

theorem emergency_nodup : (db.emergencyAccess.map EmergencyAccess.uuid).Nodup :=
  db.valid.1.2.2.2.2.2.2.2.2.2.2.2.2.2.2.2.2.2.1

theorem factor_uuid_nodup : (db.twofactor.map TwoFactor.uuid).Nodup :=
  db.valid.1.2.2.2.2.2.2.2.2.2.2.2.2.2.2.2.2.2.2.2.1

/-- One factor for each account and type. -/
theorem factor_nodup : (db.twofactor.map TwoFactor.key).Nodup :=
  db.valid.1.2.2.2.2.2.2.2.2.2.2.2.2.2.2.2.2.2.2.2.2

variable {db}

/-- The account of a second factor. -/
theorem user_of_factor {f : TwoFactor} (h : f∈db.twofactor) : ∃ u∈db.users,u.uuid=f.userUuid :=
  db.valid.2.1.2.2.2.2.2.2.2.2.2.2.2.2.2.2.2.1 f h

/-- Its number was drawn. -/
theorem factor_drawn {f : TwoFactor} (h : f∈db.twofactor) : f.uuid<db.next :=
  db.valid.2.2.2.2.2.2.2.2.2.2.2.2 f h

/-- The collection of a row of `users_collections`. -/
theorem collection_of_grant {r : CollectionUser} (h : r∈db.usersCollections) :
    ∃ k∈db.collections,k.uuid=r.collectionUuid := db.valid.2.1.2.2.2.2.1 r h

/-- The group of a row of `groups_users`. -/
theorem group_of_user {r : GroupUser} (h : r∈db.groupsUsers) : ∃ g∈db.groups,g.uuid=r.groupsUuid :=
  db.valid.2.1.2.2.2.2.2.2.1 r h

/-- Its membership. -/
theorem member_of_group {r : GroupUser} (h : r∈db.groupsUsers) :
    ∃ m∈db.members,m.uuid=r.usersOrganizationsUuid := db.valid.2.1.2.2.2.2.2.2.2.1 r h

/-- The collection of a row of `collections_groups`. -/
theorem collection_of_group {r : CollectionGroup} (h : r∈db.collectionsGroups) :
    ∃ k∈db.collections,k.uuid=r.collectionsUuid := db.valid.2.1.2.2.2.2.2.2.2.2.1 r h

/-- Its group. -/
theorem group_of_collection {r : CollectionGroup} (h : r∈db.collectionsGroups) :
    ∃ g∈db.groups,g.uuid=r.groupsUuid := db.valid.2.1.2.2.2.2.2.2.2.2.2.1 r h

/-- The cipher of a row of `ciphers_collections`. -/
theorem cipher_of_link {r : CollectionCipher} (h : r∈db.ciphersCollections) :
    ∃ c∈db.ciphers,c.uuid=r.cipherUuid := db.valid.2.1.2.2.2.2.2.2.2.2.2.2.2.2.1 r h

/-- Its collection. -/
theorem collection_of_link {r : CollectionCipher} (h : r∈db.ciphersCollections) :
    ∃ k∈db.collections,k.uuid=r.collectionUuid := db.valid.2.1.2.2.2.2.2.2.2.2.2.2.2.2.2.1 r h

end Database

end NadSafe.ServerTables
