import Mathlib.Algebra.Group.Int.Defs
import Mathlib.Algebra.Ring.Nat
import NadSafe.OrgHandlers
import NadSafe.JsonText

/-!
# Cipher endpoints

The handlers that create, change and share ciphers, each as its sequence of
statements. A panic ends a request like an error, but code that drops errors
does not catch it. A hash map or set is given in the order in which it is
walked. Files are kept in the file system; archives are left out.
-/

namespace NadSafe.CipherHandlers

open HostText JsonText TableRows AsyncScript ServerTables AccessQueries CollectionFlags StoreScript
open ServerModels OrgHandlers

/-- Settings that the handlers of ciphers depend on. -/
structure VaultSettings extends Settings where
  /-- `increase_note_size_limit`. -/
  increaseNoteSizeLimit : Bool
  /-- A date in ISO 8601 format, in seconds. -/
  parseDate : Text → Option ℤ
  /-- `serde_json::to_string`. -/
  serialize : Value → Text

/-- `_max_note_size`. -/
def VaultSettings.maxNoteSize (settings : VaultSettings) : ℕ :=
  if settings.increaseNoteSizeLimit=true then 100000 else 10000

/-- The length of a text in bytes. -/
def byteLength (s : Text) : ℕ := (s.map Char.utf8Size).sum

/-- The error of a request that has panicked. -/
def Panic : String := "panicked"

/-- `UpdateType`, as far as ciphers are concerned. -/
inductive UpdateType where
  /-- A changed cipher. -/
  | syncCipherUpdate
  /-- A new cipher. -/
  | syncCipherCreate
  /-- No message. -/
  | none
  deriving DecidableEq

/-- `Attachments2Data`. -/
structure Attachments2Data where
  /-- Sealed file name. -/
  fileName : Text
  /-- Sealed key. -/
  key : Text
  deriving DecidableEq

/-- `CipherData`. -/
structure CipherData where
  /-- The cipher, where a request has more than one. -/
  id : Option Uuid
  /-- The caller's folder. -/
  folderId : Option Uuid
  /-- The organisation. -/
  organizationId : Option Uuid
  /-- Item key. -/
  key : Option Text
  /-- Type. -/
  type : ℤ
  /-- Name. -/
  name : Text
  /-- Notes. -/
  notes : Option Text
  /-- Custom fields. -/
  fields : Option Value
  /-- Content of type 1. -/
  login : Option Value
  /-- Content of type 2. -/
  secureNote : Option Value
  /-- Content of type 3. -/
  card : Option Value
  /-- Content of type 4. -/
  identity : Option Value
  /-- Content of type 5. -/
  sshKey : Option Value
  /-- The caller's favourite. -/
  favorite : Option Bool
  /-- Master password prompt. -/
  reprompt : Option ℤ
  /-- Older passwords. -/
  passwordHistory : Option Value
  /-- Attachments to seal anew. -/
  attachments2 : Option (List (Uuid×Attachments2Data))
  /-- Date of the copy that the client has changed. -/
  lastKnownRevisionDate : Option Text

/-- `as_object_mut().unwrap().remove("response")`. -/
def removeResponse : Value → Option Value
  | .object members => some (.object (members.filter fun m => m.1≠"response".toList))
  | _ => none

/-- `clean_cipher_data`. -/
def cleanCipherData : Value → Option Value
  | .array items => (items.mapM removeResponse).map .array
  | v => some v

/-- The content without the key that clients add, in it and in its URIs. -/
def cleanTypeData (v : Value) : Option Value := do
  let v ← removeResponse v
  match v,v.field "uris".toList with
  | .object members,some (.array items) =>
    let uris ← cleanCipherData (.array items)
    some (.object (put Prod.fst ("uris".toList,uris) members))
  | v,_ => some v

/-- The content for the type, unless the type is invalid. -/
def CipherData.typeData (data : CipherData) : Option (Option Value) :=
  if data.type=1 then some data.login
  else if data.type=2 then some data.secureNote
  else if data.type=3 then some data.card
  else if data.type=4 then some data.identity
  else if data.type=5 then some data.sshKey
  else none

/-- Content and custom fields, as they are stored. -/
def CipherData.content (data : CipherData) : Except String (Value×Option Value) :=
  match data.typeData with
  | none => .error "Invalid type"
  | some none => .error "Data missing"
  | some (some v) =>
    match cleanTypeData v,data.fields with
    | none,_ => .error Panic
    | some typeData,none => .ok (typeData,none)
    | some typeData,some fields =>
      match cleanCipherData fields with
      | none => .error Panic
      | some fields => .ok (typeData,some fields)

/-- The row with the data of a request. -/
def revise (settings : VaultSettings) (c : Cipher) (data : CipherData) (content : Value×Option Value)
    (now : ℤ) : Cipher :=
  {c with
    key := data.key
    name := data.name
    notes := data.notes
    fields := content.2.map settings.serialize
    data := settings.serialize content.1
    passwordHistory := data.passwordHistory.map settings.serialize
    reprompt := data.reprompt.filter fun r => r=0 ∨ r=1
    updatedAt := now}

/-- A result that was computed without a statement. -/
def fromExcept {α : Type} : Except String α → Action α
  | .ok a => pure a
  | .error e => throw e

/-- `.ok()`, which does not catch a panic. -/
def okUnlessPanic {α : Type} (p : Action α) : Action Unit :=
  tryCatch (do let _ ← p) fun e => if e=Panic then throw e else pure ()

/-- The guard `Headers`. -/
def headers (caller : Uuid) : Action User := do
  let user ← User.findByUuid caller
  expect "Device has no user associated" user

/-- `Cipher::is_write_accessible_to_user`. -/
def Cipher.isWriteAccessibleToUser (config : Config) (t : Tables) (c : Cipher) (user : Uuid) : Bool :=
  (Cipher.getAccessRestrictions config t c user none).any fun f => !f.readOnly || f.manage

/-- `Cipher::is_in_editable_collection_by_user`. -/
def Cipher.isInEditableCollectionByUser (config : Config) (t : Tables) (c : Cipher) (user : Uuid) : Bool :=
  (Cipher.getAccessRestrictions config t c user none).any fun f =>
    (!f.readOnly && !f.hidePasswords) || f.manage

/-- `Cipher::find_by_uuid`. -/
def Cipher.findByUuid (uuid : Uuid) : Action (Option Cipher) :=
  lookup fun t => t.ciphers.find? fun c => c.uuid=uuid

/-- `Cipher::save`. -/
def Cipher.save (c : Cipher) : Action Unit :=
  update "Error saving cipher" fun t => {t with ciphers := put Cipher.uuid c t.ciphers}

/-- `Attachment::save`. -/
def Attachment.save (a : Attachment) : Action Unit :=
  update "Error saving attachment" fun t => {t with attachments := put Attachment.id a t.attachments}

/-- `FolderCipher::save`. -/
def FolderCipher.save (r : FolderCipher) : Action Unit :=
  update "Error adding cipher to folder" fun t => {t with foldersCiphers := put id r t.foldersCiphers}

/-- `FolderCipher::delete`. -/
def FolderCipher.delete (r : FolderCipher) : Action Unit :=
  update "Error removing cipher from folder" fun t =>
    {t with foldersCiphers := t.foldersCiphers.filter (·≠r)}

/-- `Cipher::get_folder_uuid`. -/
def Cipher.getFolderUuid (t : Tables) (cipher user : Uuid) : Option Uuid :=
  ((innerJoin t.foldersCiphers t.folders fun r f => f.uuid=r.folderUuid).find? fun (r,f) =>
    f.userUuid=user ∧ r.cipherUuid=cipher).map fun (r,_) => r.folderUuid

/-- `FolderCipher::find_by_folder_and_cipher`. -/
def FolderCipher.findByFolderAndCipher (folder cipher : Uuid) : Action (Option FolderCipher) :=
  lookup fun t => t.foldersCiphers.find? fun r => r.folderUuid=folder ∧ r.cipherUuid=cipher

/-- `Cipher::move_to_folder`. -/
def Cipher.moveToFolder (cipher : Uuid) (folder : Option Uuid) (user : Uuid) : Action Unit := do
  let old ← lookup fun t => Cipher.getFolderUuid t cipher user
  match old,folder with
  | none,none => pure ()
  | none,some new => FolderCipher.save ⟨cipher,new⟩
  | some old,none => do
    let row ← FolderCipher.findByFolderAndCipher old cipher
    let row ← expect "Couldn't move from previous folder" row
    FolderCipher.delete row
  | some old,some new =>
    if old=new then pure ()
    else do
      let row ← FolderCipher.findByFolderAndCipher old cipher
      match row with
      | some row => FolderCipher.delete row
      | none => pure ()
      FolderCipher.save ⟨cipher,new⟩

/-- `Cipher::set_favorite`. -/
def Cipher.setFavorite (favorite : Option Bool) (cipher user : Uuid) : Action Unit :=
  match favorite with
  | none => pure ()
  | some new => do
    let old ← lookup fun t => decide (⟨user,cipher⟩∈t.favorites)
    match old,new with
    | false,true => update "Error adding favorite" fun t => {t with favorites := put id ⟨user,cipher⟩ t.favorites}
    | true,false => update "Error removing favorite" fun t =>
      {t with favorites := t.favorites.filter (·≠⟨user,cipher⟩)}
    | _,_ => pure ()

/-- `enforce_personal_ownership_policy`. -/
def enforcePersonalOwnershipPolicy (organizationId : Option Uuid) (user : Uuid) : Action Unit :=
  if organizationId=none then do
    let applies ← OrgPolicy.isApplicableToUser user .personalOwnership none
    ensure "Due to an Enterprise Policy, you are restricted from saving items to your personal vault."
      (!applies)
  else pure ()

/-- The client's copy is older than the stored one. An unreadable date is
ignored. -/
def stale (settings : VaultSettings) (c : Cipher) (data : CipherData) : Bool :=
  data.lastKnownRevisionDate.any fun text => (settings.parseDate text).any fun date => 1<c.updatedAt-date

/-- The notes of a request are not too long. -/
def notesFit (settings : VaultSettings) (data : CipherData) : Bool :=
  data.notes.all fun note => byteLength note≤ settings.maxNoteSize

/-- The owner that a request names. -/
def assignOwner (settings : VaultSettings) (user : Uuid) (c : Cipher) (data : CipherData)
    (sharedToCollections : Option (List Uuid)) : Action Cipher :=
  match data.organizationId with
  | none => pure {c with userUuid := some user}
  | some org => do
    let member ← lookup fun t => Membership.findConfirmedByUserAndOrg t user org
    let member ← expect "You don't have permission to add item to organization" member
    let writable ← lookup fun t => Cipher.isWriteAccessibleToUser settings.toConfig t c user
    ensure "You don't have permission to add cipher directly to organization"
      (sharedToCollections.isSome || member.hasFullAccess || writable)
    pure {c with organizationUuid := some org, userUuid := none}

/-- New names and keys for attachments. A missing one is skipped; one of
another cipher ends the loop. -/
def updateAttachments (cipher : Uuid) : List (Uuid×Attachments2Data) → Action Unit
  | [] => pure ()
  | (id,data)::rest => do
    let saved ← lookup fun t => t.attachments.find? fun a => a.id=id
    match saved with
    | none => updateAttachments cipher rest
    | some a =>
      if a.cipherUuid≠cipher then pure ()
      else do
        Attachment.save {a with akey := some data.key, fileName := data.fileName}
        updateAttachments cipher rest

/-- `update_cipher_from_data`. -/
def updateCipherFromData (settings : VaultSettings) (user : Uuid) (c : Cipher) (data : CipherData)
    (sharedToCollections : Option (List Uuid)) (ut : UpdateType) : Action Cipher := do
  enforcePersonalOwnershipPolicy data.organizationId user
  ensure "The client copy of this cipher is out of date. Resync the client and try again."
    (decide ¬(ut≠.none ∧ stale settings c data=true))
  ensure "Organization mismatch. Please resync the client before updating the cipher"
    (decide ¬(c.organizationUuid≠none ∧ c.organizationUuid≠data.organizationId))
  ensure ("The field Notes exceeds the maximum encrypted value length of "++toString settings.maxNoteSize++
    " characters.") (notesFit settings data)
  let c ← assignOwner settings user c data sharedToCollections
  let folderMissing ← lookup fun t => data.folderId.any fun id =>
    (t.folders.find? fun f => f.uuid=id ∧ f.userUuid=user).isNone
  ensure "Invalid folder" (!folderMissing)
  updateAttachments c.uuid (data.attachments2.getD [])
  let content ← fromExcept data.content
  let now ← lookup Tables.now
  let c := revise settings c data content now
  Cipher.save c
  Cipher.moveToFolder c.uuid data.folderId user
  Cipher.setFavorite data.favorite c.uuid user
  pure c

/-- `Cipher::to_json`, as far as it may fail. -/
def Cipher.toJson (c : Cipher) : Action Unit :=
  ensure ("Cipher "++toString c.uuid++" has an invalid type "++toString c.atype)
    (decide (1≤c.atype ∧ c.atype≤5))

/-- `post_ciphers`. -/
def postCiphers (settings : VaultSettings) (caller : Uuid) (data : CipherData) : Action Unit := do
  let user ← headers caller
  let uuid ← getUuid
  let now ← lookup Tables.now
  let c ← updateCipherFromData settings user.uuid (ServerTables.Cipher.new uuid now data.type data.name)
    {data with lastKnownRevisionDate := none} none .syncCipherCreate
  Cipher.toJson c

/-- `put_cipher`. -/
def putCipher (settings : VaultSettings) (caller id : Uuid) (data : CipherData) : Action Unit := do
  let user ← headers caller
  let c ← Cipher.findByUuid id
  let c ← expect "Cipher doesn't exist" c
  let writable ← lookup fun t => Cipher.isWriteAccessibleToUser settings.toConfig t c user.uuid
  ensure "Cipher is not write accessible" writable
  let c ← updateCipherFromData settings user.uuid c data none .syncCipherUpdate
  Cipher.toJson c

/-- A collection of the organisation that the caller may write to. -/
def writableCollection (settings : VaultSettings) (org user id : Uuid) : Action Collection := do
  let k ← Collection.findByUuidAndOrg id org
  let k ← expect "Invalid collection ID provided" k
  let writable ← lookup fun t => Collection.isWritableByUser settings.toConfig t k user
  ensure "No rights to modify the collection" writable
  pure k

/-- The links that sharing adds, before anything else is checked. -/
def linkCollections (settings : VaultSettings) (cipher user : Uuid) (organizationId : Option Uuid)
    (collectionIds : List Uuid) : Action (List Uuid) :=
  match organizationId with
  | none => pure []
  | some org => collect collectionIds fun id => do
    let k ← writableCollection settings org user id
    CollectionCipher.save cipher k.uuid
    pure k.uuid

/-- `share_cipher_by_uuid`. -/
def shareCipherByUuid (settings : VaultSettings) (user cipherId : Uuid) (data : CipherData)
    (collectionIds : List Uuid) (overrideUt : Option UpdateType) : Action Unit := do
  let c ← Cipher.findByUuid cipherId
  let c ← expect "Cipher doesn't exist" c
  let writable ← lookup fun t => Cipher.isWriteAccessibleToUser settings.toConfig t c user
  ensure "Cipher is not write accessible" writable
  let shared ← linkCollections settings c.uuid user data.organizationId collectionIds
  let ut := overrideUt.getD
    (if data.lastKnownRevisionDate.isSome=true then .syncCipherUpdate else .syncCipherCreate)
  let c ← updateCipherFromData settings user c data (some shared) ut
  Cipher.toJson c

/-- `post_cipher_share`. -/
def postCipherShare (settings : VaultSettings) (caller cipherId : Uuid) (data : CipherData)
    (collectionIds : List Uuid) : Action Unit := do
  let user ← headers caller
  shareCipherByUuid settings user.uuid cipherId data collectionIds none

/-- `Cipher::get_collections`. -/
def Cipher.getCollections (config : Config) (t : Tables) (cipher user : Uuid) : List Uuid :=
  let collections := innerJoin (t.ciphersCollections.filter fun r => r.cipherUuid=cipher) t.collections
    fun cc k => k.uuid=cc.collectionUuid
  if config.orgGroupsEnabled=true then
    let members := leftJoin collections t.members fun (_,k) m => m.orgUuid=k.orgUuid ∧ m.userUuid=user
    let grants := leftJoin members t.usersCollections fun ((cc,_),_) uc =>
      uc.collectionUuid=cc.collectionUuid ∧ uc.userUuid=user
    let places := leftJoin grants t.groupsUsers fun ((_,m),_) gu =>
      m.any fun m => gu.usersOrganizationsUuid=m.uuid
    let groups := leftJoin places t.groups fun (((_,m),_),gu) g =>
      gu.any (fun gu => g.uuid=gu.groupsUuid) && m.any fun m => g.organizationsUuid=m.orgUuid
    let rows := leftJoin groups t.collectionsGroups fun (((((cc,_),_),_),_),g) cg =>
      decide (cg.collectionsUuid=cc.collectionUuid) && g.any fun g => cg.groupsUuid=g.uuid
    (rows.filter fun ((((((_,_),m),uc),_),g),cg) =>
      m.any (fun m => m.accessAll) || uc.any (fun uc => uc.userUuid=user ∧ uc.flags.readOnly=false) ||
        g.any (fun g => g.accessAll) || cg.any fun cg => cg.flags.readOnly=false).map
      fun ((((((cc,_),_),_),_),_),_) => cc.collectionUuid
  else
    let members := innerJoin collections t.members fun (_,k) m => m.orgUuid=k.orgUuid ∧ m.userUuid=user
    let rows := leftJoin members t.usersCollections fun ((cc,_),_) uc =>
      uc.collectionUuid=cc.collectionUuid ∧ uc.userUuid=user
    (rows.filter fun ((_,m),uc) =>
      m.accessAll || uc.any fun uc => uc.userUuid=user ∧ uc.flags.readOnly=false).map
      fun (((cc,_),_),_) => cc.collectionUuid

/-- The order in which a hash set is walked. -/
structure HashOrder where
  /-- The elements of a set that was collected from a list. -/
  walk : List Uuid → List Uuid
  /-- All of them, and no others. -/
  mem_walk : ∀ xs x,x∈walk xs ↔ x∈xs

/-- `symmetric_difference`. -/
def symmetricDifference (posted current : List Uuid) : List Uuid :=
  posted.filter (·∉current)++current.filter (·∉posted)

/-- `post_collections_update`. -/
def postCollectionsUpdate (settings : VaultSettings) (caller id : Uuid) (collectionIds : List Uuid)
    (postedOrder currentOrder : HashOrder) : Action Unit := do
  let user ← headers caller
  let c ← Cipher.findByUuid id
  let c ← expect "Cipher doesn't exist" c
  let editable ← lookup fun t => Cipher.isInEditableCollectionByUser settings.toConfig t c user.uuid
  ensure "Collection cannot be changed" editable
  let org ← expect "Cipher is not owned by an organization" c.organizationUuid
  let posted := postedOrder.walk collectionIds
  let current ← lookup fun t => currentOrder.walk (Cipher.getCollections settings.toConfig t c.uuid user.uuid)
  each (symmetricDifference posted current) fun id => do
    let k ← writableCollection settings org user.uuid id
    if k.uuid∈posted then CollectionCipher.save c.uuid k.uuid
    else CollectionCipher.delete c.uuid k.uuid
  Cipher.toJson c

/-- The request of `post_org_import`. -/
structure ImportData where
  /-- Ciphers. -/
  ciphers : List CipherData
  /-- The keys of the collections, where they have one. -/
  collections : List (Option Uuid)
  /-- Positions of a cipher and of a collection. -/
  collectionRelationships : List (ℕ×ℕ)

/-- A password of the history is no text. -/
def badHistory : Value → Bool
  | .object members => match (Value.object members).field "password".toList with
    | some (.string _) => false
    | some _ => true
    | none => false
  | _ => false

/-- `Cipher::validate_cipher_data`. -/
def validateCipherData (settings : VaultSettings) (ciphers : List CipherData) : Bool :=
  ciphers.all fun data => notesFit settings data && match data.passwordHistory with
    | some (.array items) => !items.any badHistory
    | _ => true

/-- `Collection::can_access_collection`. -/
def Collection.canAccessCollection (config : Config) (t : Tables) (m : Membership) (collection : Uuid) :
    Bool :=
  decide (m.status=Confirmed) && (m.hasFullAccess ||
    t.usersCollections.any (fun r => r.collectionUuid=collection ∧ r.userUuid=m.userUuid) ||
    (config.orgGroupsEnabled &&
      ((innerJoin t.groupsUsers t.groups fun gu g => g.uuid=gu.groupsUuid).any (fun (gu,g) =>
        g.organizationsUuid=m.orgUuid ∧ g.accessAll=true ∧ gu.usersOrganizationsUuid=m.uuid) ||
      (innerJoin (innerJoin (innerJoin t.groupsUsers t.collectionsGroups fun gu cg =>
        cg.groupsUuid=gu.groupsUuid) t.groups fun (gu,_) g => g.uuid=gu.groupsUuid) t.collections
        fun ((_,cg),g) k => k.uuid=cg.collectionsUuid ∧ k.orgUuid=g.organizationsUuid).any
        fun (((gu,cg),_),_) => cg.collectionsUuid=collection ∧ gu.usersOrganizationsUuid=m.uuid)))

/-- A collection of an import: an existing one that the member may use, or a
new one. -/
def importCollection (settings : VaultSettings) (m : Membership) (org : Uuid) (existing : List Uuid)
    (id : Option Uuid) : Action Uuid :=
  match id.filter (·∈existing) with
  | some id => do
    let allowed ← lookup fun t => Collection.canAccessCollection settings.toConfig t m id
    ensure "The current user isn't allowed to manage this collection"
      (decide (MembershipType.admin≤ m.atype) || allowed)
    pure id
  | none => do
    ensure "The current user isn't allowed to create new collections"
      (decide ¬(m.atype≤MembershipType.manager) || m.hasFullAccess)
    let uuid ← getUuid
    Collection.save ⟨uuid,org⟩
    pure uuid

/-- A cipher of an import. Its error is dropped. -/
def importCipher (settings : VaultSettings) (user : Uuid) (collections : List Uuid) (data : CipherData) :
    Action Uuid := do
  let uuid ← getUuid
  let now ← lookup Tables.now
  okUnlessPanic (updateCipherFromData settings user (ServerTables.Cipher.new uuid now data.type data.name)
    {data with folderId := none} (some collections) .none)
  pure uuid

/-- `post_org_import`. -/
def postOrgImport (settings : VaultSettings) (caller org : Uuid) (data : ImportData) : Action Unit := do
  let h ← orgHeaders caller org
  ensure "The model state is invalid." (validateCipherData settings data.ciphers)
  let existing ← Collection.findByOrganization org
  let collections ← collect data.collections
    (importCollection settings h.membership org (existing.map Collection.uuid))
  let ciphers ← collect data.ciphers (importCipher settings h.user.uuid collections)
  each data.collectionRelationships fun (cipherIndex,colIndex) => do
    let cipher ← expect Panic ciphers[cipherIndex]?
    let collection ← expect Panic collections[colIndex]?
    CollectionCipher.save cipher collection

end NadSafe.CipherHandlers
