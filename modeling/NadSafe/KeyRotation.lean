import NadSafe.EmergencyHandlers
import NadSafe.SendHandlers

/-!
# Rotation of the user key

`post_rotatekey`: it checks that the request names every row that is sealed
with the user key, rewrites these rows one by one, and then stores the new key
with the account. A row that was loaded is changed in place, so that a later
item of the request finds it as an earlier one has left it.
-/

namespace NadSafe.KeyRotation

open HostText TableRows AsyncScript ServerTables StoreScript ServerModels CipherHandlers SecondFactors
open AccountHandlers EmergencyHandlers SendHandlers

/-- What a rotation depends on. -/
structure RotationSettings extends FactorSettings, VaultSettings where
  /-- Settings of sends. -/
  sends : SendSettings

/-- `UpdateFolderData`. An empty id is none. -/
structure UpdateFolderData where
  /-- The folder. -/
  id : Option Uuid
  /-- Sealed name. -/
  name : Text

/-- `UpdateEmergencyAccessData`. -/
structure UpdateEmergencyAccessData where
  /-- The emergency access. -/
  id : Uuid
  /-- The user key, sealed for the grantee. -/
  keyEncrypted : Text

/-- `UpdateResetPasswordData`. -/
structure UpdateResetPasswordData where
  /-- The organisation. -/
  organizationId : Uuid
  /-- The user key, sealed for it. -/
  resetPasswordKey : Text

/-- `MasterPasswordUnlockData`. -/
structure MasterPasswordUnlockData where
  /-- Key derivation: function, iterations, memory and parallelism. -/
  kdf : ℤ×ℤ×Option ℤ×Option ℤ
  /-- Address. -/
  email : Text
  /-- Hash of the master password. -/
  masterKeyAuthenticationHash : Text
  /-- Wrapped user key. -/
  masterKeyEncryptedUserKey : Text

/-- `RotateAccountUnlockData`. -/
structure RotateAccountUnlockData where
  /-- Emergency accesses. -/
  emergencyAccessUnlockData : List UpdateEmergencyAccessData
  /-- The account. -/
  masterPasswordUnlockData : MasterPasswordUnlockData
  /-- Account recovery. -/
  organizationAccountRecoveryUnlockData : List UpdateResetPasswordData

/-- `RotateAccountKeys`. -/
structure RotateAccountKeys where
  /-- Wrapped private key. -/
  userKeyEncryptedAccountPrivateKey : Text
  /-- Public key. -/
  accountPublicKey : Text

/-- `RotateAccountData`. -/
structure RotateAccountData where
  /-- Ciphers. -/
  ciphers : List CipherData
  /-- Folders. -/
  folders : List UpdateFolderData
  /-- Sends, each with the salt that is drawn if it has a password. -/
  sends : List (SendData×Bytes)

/-- `KeyData`. -/
structure KeyData where
  /-- What unlocks the account. -/
  accountUnlockData : RotateAccountUnlockData
  /-- Key pair. -/
  accountKeys : RotateAccountKeys
  /-- Items. -/
  accountData : RotateAccountData
  /-- Hash of the current master password. -/
  oldMasterKeyAuthenticationHash : Text

/-- `is_superset`. -/
def includesAll (provided existing : List Uuid) : Bool := existing.all (·∈provided)

/-- The cipher keys of a request. -/
def KeyData.cipherIds (data : KeyData) : List Uuid :=
  (data.accountData.ciphers.filter fun d => d.organizationId.isNone).filterMap CipherData.id

/-- `validate_keydata`. -/
def validateKeydata (data : KeyData) (existingCiphers : List Cipher) (existingFolders : List Folder)
    (existingEmergencyAccess : List EmergencyAccess) (existingMemberships : List Membership)
    (existingSends : List Send) (user : User) : Except String Unit :=
  let unlock := data.accountUnlockData
  if user.clientKdf≠unlock.masterPasswordUnlockData.kdf ∨ user.email≠unlock.masterPasswordUnlockData.email then
    .error "Changing the kdf variant or email is not supported during key rotation"
  else if user.publicKey≠some data.accountKeys.accountPublicKey then
    .error "Changing the asymmetric keypair is not possible during key rotation"
  else if includesAll data.cipherIds (existingCiphers.map Cipher.uuid)=false then
    .error "All existing ciphers must be included in the rotation"
  else if includesAll (data.accountData.folders.filterMap UpdateFolderData.id)
      (existingFolders.map Folder.uuid)=false then
    .error "All existing folders must be included in the rotation"
  else if includesAll (unlock.emergencyAccessUnlockData.map UpdateEmergencyAccessData.id)
      (existingEmergencyAccess.map EmergencyAccess.uuid)=false then
    .error "All existing emergency access keys must be included in the rotation"
  else if includesAll (unlock.organizationAccountRecoveryUnlockData.map UpdateResetPasswordData.organizationId)
      (existingMemberships.map Membership.orgUuid)=false then
    .error "All existing reset password keys must be included in the rotation"
  else if includesAll (data.accountData.sends.filterMap fun d => d.1.id)
      (existingSends.map ServerTables.Send.uuid)=false then
    .error "All existing sends must be included in the rotation"
  else .ok ()

/-- `Folder::save`. -/
def Folder.save (f : Folder) : Action Unit :=
  update "Error saving folder" fun t => {t with folders := put Folder.uuid f t.folders}

section Loops

variable {ρ β : Type}

/-- A row changed in place. -/
def replaceRow (key : ρ → Uuid) (r : ρ) (rows : List ρ) : List ρ := rows.map fun q => if key q=key r then r else q

/-- The row that an item names. -/
def findRow (message : String) (named : ρ → Bool) (rows : List ρ) : Except String ρ :=
  match rows.find? named with
  | some r => .ok r
  | none => .error message

/-- The same for an id that is unwrapped at the first row. -/
def findNamed (message : String) (key : ρ → Uuid) (id : Option Uuid) (rows : List ρ) : Except String ρ :=
  match id with
  | some id => findRow message (fun r => key r=id) rows
  | none => .error (if rows.isEmpty=true then message else Panic)

/-- The loop over the items of one kind, with the rows that were loaded. -/
def rotateRows (key : ρ → Uuid) (find : β → List ρ → Except String ρ) (step : ρ → β → Action ρ) :
    List ρ → List β → Action Unit
  | _,[] => pure ()
  | rows,d::rest => do
    let saved ← fromExcept (find d rows)
    let saved ← step saved d
    rotateRows key find step (replaceRow key saved rows) rest

end Loops

/-- The loop over folders. Items without an id are skipped. -/
def rotateFolders : List Folder → List UpdateFolderData → Action Unit
  | rows,folders => rotateRows Folder.uuid
      (fun (id,_) => findRow "Folder doesn't exist" fun f => f.uuid=id)
      (fun saved (_,name) => do
        let saved := {saved with name := name}
        Folder.save saved
        pure saved)
      rows (folders.filterMap fun d => d.id.map (·,d.name))

/-- The loop over emergency accesses. -/
def rotateEmergencyAccess : List EmergencyAccess → List UpdateEmergencyAccessData → Action Unit :=
  rotateRows EmergencyAccess.uuid
    (fun d => findRow "Emergency access doesn't exist or is not owned by the user" fun e => e.uuid=d.id)
    fun saved d => do
      let saved := {saved with keyEncrypted := some d.keyEncrypted}
      EmergencyAccess.save saved
      pure saved

/-- The loop over account recovery. -/
def rotateResetPassword : List Membership → List UpdateResetPasswordData → Action Unit :=
  rotateRows Membership.uuid
    (fun d => findRow "Reset password doesn't exist" fun m => m.orgUuid=d.organizationId)
    fun saved d => do
      let saved := {saved with resetPasswordKey := some d.resetPasswordKey}
      Membership.save saved
      pure saved

/-- The loop over sends. -/
def rotateSends (settings : SendSettings) (user : Uuid) : List Send → List (SendData×Bytes) → Action Unit :=
  rotateRows ServerTables.Send.uuid
    (fun (d,_) => findNamed "Send doesn't exist" ServerTables.Send.uuid d.id)
    fun saved (d,salt) => updateSendFromData settings salt saved d user

/-- The loop over ciphers. Those that name an organisation are skipped. -/
def rotateCiphers (settings : VaultSettings) (user : Uuid) : List Cipher → List CipherData → Action Unit
  | rows,ciphers => rotateRows Cipher.uuid
      (fun d => findNamed "Cipher doesn't exist" Cipher.uuid d.id)
      (fun saved d => updateCipherFromData settings user saved d none .none)
      rows (ciphers.filter fun d => d.organizationId.isNone)

/-- The new keys and the password of the account. -/
def rotateUser (settings : RotationSettings) (user : User) (data : KeyData) : Action Unit := do
  let master := data.accountUnlockData.masterPasswordUnlockData
  let user := {user with privateKey := some data.accountKeys.userKeyEncryptedAccountPrivateKey}
  let user ← User.setPassword settings.toFactorSettings user master.masterKeyAuthenticationHash
    (some master.masterKeyEncryptedUserKey) true none
  User.save settings.toSettings user

/-- `post_rotatekey`. -/
def postRotatekey (settings : RotationSettings) (caller : Uuid) (data : KeyData) : Action Unit := do
  let user ← headers caller
  ensure "Invalid password"
    (User.checkValidPassword settings.toFactorSettings user data.oldMasterKeyAuthenticationHash)
  ensure "The model state is invalid." (validateCipherData settings.toVaultSettings data.accountData.ciphers)
  let existingCiphers ← lookup fun t =>
    t.ciphers.filter fun c => c.userUuid=some user.uuid ∧ c.organizationUuid=none
  let existingFolders ← lookup fun t => t.folders.filter fun f => f.userUuid=user.uuid
  let existingEmergencyAccess ← lookup fun t => t.emergencyAccess.filter fun e =>
    e.grantorUuid=user.uuid ∧ EmergencyAccess.Confirmed≤e.status
  let memberships ← lookup fun t => t.members.filter fun m => m.userUuid=user.uuid
  let existingMemberships := memberships.filter fun m => m.resetPasswordKey.isSome
  let existingSends ← lookup fun t => t.sends.filter fun s => s.userUuid=some user.uuid
  fromExcept (validateKeydata data existingCiphers existingFolders existingEmergencyAccess existingMemberships
    existingSends user)
  rotateFolders existingFolders data.accountData.folders
  rotateEmergencyAccess existingEmergencyAccess data.accountUnlockData.emergencyAccessUnlockData
  rotateResetPassword existingMemberships data.accountUnlockData.organizationAccountRecoveryUnlockData
  rotateSends settings.sends user.uuid existingSends data.accountData.sends
  rotateCiphers settings.toVaultSettings user.uuid existingCiphers data.accountData.ciphers
  rotateUser settings user data

end NadSafe.KeyRotation
