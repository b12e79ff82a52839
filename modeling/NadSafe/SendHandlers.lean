import NadSafe.SecondFactors

/-!
# Sends

The handlers that read and write one send: anonymous accesses, changes and
removal by its owner, and the job that purges sends after their deletion date.
A save writes the whole row as it was read. The rows of the two policies on
sends are not kept; what they say of a user is a part of the settings. Random
bytes are given with the request.
-/

namespace NadSafe.SendHandlers

open HostText TableRows AsyncScript ServerTables StoreScript ServerModels SecondFactors

/-- What the handlers of sends depend on. -/
structure SendSettings where
  /-- `sends_allowed`. -/
  sendsAllowed : Bool
  /-- The `DisableSend` policy applies to a user. -/
  disableSend : Tables → Uuid → Bool
  /-- `OrgPolicy::is_hide_email_disabled`. -/
  isHideEmailDisabled : Tables → Uuid → Bool
  /-- `crypto::hash_password`, of a text. -/
  hashPassword : Text → Bytes → ℕ → Bytes
  /-- There is a storage for the files of sends. -/
  sendsStorage : Bool

/-- `SendType::Text`. -/
def SendText : ℤ := 0

/-- `SendType::File`. -/
def SendFile : ℤ := 1

/-- `SEND_INACCESSIBLE_MSG`. -/
def SEND_INACCESSIBLE_MSG : String := "Send does not exist or is no longer available"

/-- `PASSWORD_ITER`. -/
def PASSWORD_ITER : ℕ := 100000

/-- `Send::set_password`, with the salt that was drawn. -/
def Send.setPassword (settings : SendSettings) (salt : Bytes) (password : Option Text) (s : Send) : Send :=
  match password with
  | some password => {s with password := some (settings.hashPassword password salt PASSWORD_ITER,salt,PASSWORD_ITER)}
  | none => {s with password := none}

/-- `Send::check_password`. -/
def checkPassword (settings : SendSettings) (stored : Option (Bytes×Bytes×ℕ)) (password : Text) : Bool :=
  match stored with
  | some (hash,salt,iter) => settings.hashPassword password salt iter=hash
  | none => false

/-- `access_count += 1` in `i32`. -/
def increment (n : ℤ) : ℤ := Int.bmod (n+1) (2^32)

/-- The row with one more access. -/
def Send.counted (s : Send) : Send := {s with accessCount := increment s.accessCount}

/-- `Send::save`. -/
def Send.save (s : Send) : Action Unit :=
  update "Error saving send" fun t => {t with sends := put ServerTables.Send.uuid s t.sends}

/-- `Send::delete`. -/
def Send.delete (settings : SendSettings) (s : Send) : Action Unit := do
  ensure "Error in the storage" (s.atype≠SendFile || settings.sendsStorage)
  update "Error deleting send" fun t => {t with sends := t.sends.filter fun q => q.uuid≠s.uuid}

/-- `Send::find_by_uuid`. -/
def Send.findByUuid (t : Tables) (uuid : Uuid) : Option Send := t.sends.find? fun s => s.uuid=uuid

/-- `Send::find_by_uuid_and_user`. -/
def Send.findByUuidAndUser (t : Tables) (uuid user : Uuid) : Option Send :=
  t.sends.find? fun s => s.uuid=uuid ∧ s.userUuid=some user

/-- `Send::purge`. -/
def Send.purge (settings : SendSettings) : Action Unit := do
  let past ← query fun db => db.sends.filter fun s => s.deletionDate<db.now
  each past fun s => ok (Send.delete settings s)

/-- The checks of an access, with the message for a wrong password. -/
def checkAccess (settings : SendSettings) (invalid : String) (password : Option Text) (s : Send) : Action Unit := do
  ensure SEND_INACCESSIBLE_MSG (match s.maxAccessCount with
    | some maxAccessCount => decide (s.accessCount < maxAccessCount)
    | none => true)
  let now ← utcNow
  ensure SEND_INACCESSIBLE_MSG (match s.expirationDate with
    | some expiration => decide (now<expiration)
    | none => true)
  ensure SEND_INACCESSIBLE_MSG (now < s.deletionDate)
  ensure SEND_INACCESSIBLE_MSG (!s.disabled)
  if s.password=none then pure ()
  else
    match password with
    | some p => ensure invalid (checkPassword settings s.password p)
    | none => throw "Password not provided"

/-- `post_access`. -/
def postAccess (settings : SendSettings) (id : Uuid) (password : Option Text) : Action Unit := do
  let found ← lookup fun t => Send.findByUuid t id
  let s ← expect SEND_INACCESSIBLE_MSG found
  checkAccess settings "Invalid password" password s
  -- Files are counted at the download.
  let s := if s.atype=SendText then Send.counted s else s
  Send.save s

/-- `post_access_file`. A download address may be refused, behind the save. -/
def postAccessFile (settings : SendSettings) (id : Uuid) (password : Option Text) (address : Bool) : Action Unit := do
  let found ← lookup fun t => Send.findByUuid t id
  let s ← expect SEND_INACCESSIBLE_MSG found
  checkAccess settings "Invalid password." password s
  let s := Send.counted s
  Send.save s
  ensure "Error in the storage" address

/-- `SendData`. -/
structure SendData where
  /-- Type. -/
  type : ℤ
  /-- Sealed key. -/
  key : Text
  /-- A new password. -/
  password : Option Text
  /-- Limit of accesses. -/
  maxAccessCount : Option NumberOrString
  /-- End of access. -/
  expirationDate : Option ℤ
  /-- End of life. -/
  deletionDate : ℤ
  /-- Switched off. -/
  disabled : Bool
  /-- The sender stays hidden. -/
  hideEmail : Option Bool
  /-- Sealed name. -/
  name : Text
  /-- Sealed notes. -/
  notes : Option Text
  /-- The JSON text of the content, without `response`. -/
  text : Option Text
  /-- The send, in a key rotation. -/
  id : Option Uuid

/-- `enforce_disable_send_policy`. -/
def enforceDisableSendPolicy (settings : SendSettings) (user : Uuid) : Action Unit := do
  let disabled ← lookup fun t => settings.disableSend t user
  ensure "Due to an Enterprise Policy, you are only able to delete an existing Send."
    (settings.sendsAllowed && !disabled)

/-- `enforce_disable_hide_email_policy`. -/
def enforceDisableHideEmailPolicy (settings : SendSettings) (data : SendData) (user : Uuid) : Action Unit := do
  let disabled ← lookup fun t => settings.isHideEmailDisabled t user
  ensure "Due to an Enterprise Policy, you are not allowed to hide your email address from recipients when creating or editing a Send."
    (!(data.hideEmail.getD false && disabled))

/-- The limit of `SendData`. -/
def SendData.limit (data : SendData) : Except String (Option ℤ) :=
  match data.maxAccessCount with
  | some m => m.intoI32.map some
  | none => .ok none

/-- The row that `update_send_from_data` saves. -/
def updatedSend (settings : SendSettings) (salt : Bytes) (data : SendData) (limit : Option ℤ) (content : Text)
    (s : Send) : Send :=
  let s := {s with
    data := content
    name := data.name
    akey := data.key
    deletionDate := data.deletionDate
    notes := data.notes
    maxAccessCount := limit
    expirationDate := data.expirationDate
    hideEmail := data.hideEmail
    disabled := data.disabled}
  -- Only change the value if it's present.
  match data.password with
  | some password => Send.setPassword settings salt (some password) s
  | none => s

/-- `update_send_from_data`, with the row that it leaves. -/
def updateSendFromData (settings : SendSettings) (salt : Bytes) (s : Send) (data : SendData) (user : Uuid) :
    Action Send := do
  ensure "Send is not owned by user" (s.userUuid=some user)
  ensure "Sends can't change type" (s.atype=data.type)
  let now ← utcNow
  ensure "You cannot have a Send with a deletion date that far into the future. Adjust the Deletion Date to a value less than 31 days from now and try again."
    (data.deletionDate≤now+31*86400)
  let content ← expect "Send data not provided" (if data.type=SendText then data.text else some s.data)
  let limit ← CipherHandlers.fromExcept data.limit
  let s := updatedSend settings salt data limit content s
  Send.save s
  pure s

/-- `put_send`. -/
def putSend (settings : SendSettings) (user id : Uuid) (salt : Bytes) (data : SendData) : Action Unit := do
  enforceDisableSendPolicy settings user
  enforceDisableHideEmailPolicy settings data user
  let found ← lookup fun t => Send.findByUuidAndUser t id user
  let s ← expect "Send not found" found
  let _ ← updateSendFromData settings salt s data user

/-- `delete_send`. -/
def deleteSend (settings : SendSettings) (user id : Uuid) : Action Unit := do
  let found ← lookup fun t => Send.findByUuidAndUser t id user
  let s ← expect "Send not found" found
  Send.delete settings s

/-- `put_remove_password`. -/
def putRemovePassword (settings : SendSettings) (user id : Uuid) : Action Unit := do
  enforceDisableSendPolicy settings user
  let found ← lookup fun t => Send.findByUuidAndUser t id user
  let s ← expect "Send not found" found
  Send.save (Send.setPassword settings [] none s)

end NadSafe.SendHandlers
