import NadSafe.AttachmentStorage
import NadSafe.SendHandlers

/-!
# Storage of sends

The file of a send lies in a folder of its own, under an identifier that is
part of the content of the send. That content is a JSON value of the client,
kept as text; the server adds the identifier and the size where the value is
an object. The size is read back from the text for the sum of a user's files,
and for an upload that follows its declaration. The random bytes and the
identifier of a request are given with it.
-/

namespace NadSafe.SendStorage

open HostText JsonText TableRows AsyncScript ServerTables StoreScript ServerModels SecondFactors CipherHandlers
open SendHandlers RowTotals PartScript FileDepot AttachmentStorage

/-- Settings that the storage depends on. -/
structure UploadSettings extends SendSettings where
  /-- `user_send_limit`, in units of 1024 bytes. -/
  userSendLimit : Option ℤ
  /-- `get_display_size`. -/
  getDisplaySize : ℕ → Text

/-- `SIZE_525_MB`. -/
def SIZE_525_MB : ℤ := 550502400

/-- `SendData` of a new send. -/
structure FileSendData extends SendData where
  /-- The content of a file send. -/
  file : Option Value
  /-- The declared size. -/
  fileLength : Option NumberOrString
  /-- The content was read from JSON text. -/
  written : ∀ v,file=some v → Written v
  /-- A number that is no `i64` is not accepted. -/
  sized : ∀ n,fileLength=some n → NumberOrString.isI64 n=true

/-- An integer with a sign. -/
def negative? : Text → Option ℤ
  | '-'::s => ((decimal? s).filter fun n => n≠0).map fun n => -(n : ℤ)
  | _ => none

/-- A value as `NumberOrString`. -/
def NumberOrString.fromValue : Value → Option NumberOrString
  | .number n => (toI64 n).map .number
  | .decimal w => ((negative? w).bind toI64).map .number
  | .string s => some (.string s)
  | _ => none

/-- The value of the one member with one of two names. -/
def single (name other : String) (members : List (Text×Value)) : Option Value :=
  match members.filter fun m => m.1=name.toList ∨ m.1=other.toList with
  | [m] => some m.2
  | _ => none

/-- `FileData`: its field is the one of an object, or the one item of an array. -/
def FileData.fromValue : Value → Option NumberOrString
  | .object members => (single "size" "Size" members).bind NumberOrString.fromValue
  | .array [v] => NumberOrString.fromValue v
  | _ => none

/-- `SendFileData`. -/
structure SendFileData where
  /-- Identifier. -/
  id : Text
  /-- Size. -/
  size : ℕ
  /-- Name. -/
  fileName : Text

/-- A string. -/
def stringOf : Value → Option Text
  | .string s => some s
  | _ => none

/-- A `u64`. -/
def u64Of : Value → Option ℕ
  | .number n => if n<18446744073709551616 then some n else none
  | _ => none

/-- The fields, one by one. -/
def SendFileData.build (id size fileName : Value) : Option SendFileData :=
  match stringOf id,u64Of size,stringOf fileName with
  | some id,some size,some fileName => some ⟨id,size,fileName⟩
  | _,_,_ => none

/-- `SendFileData` of an object, or of an array of three items. -/
def SendFileData.fromValue : Value → Option SendFileData
  | .object members =>
    match single "id" "id" members,single "size" "size" members,single "fileName" "fileName" members with
    | some id,some size,some fileName => SendFileData.build id size fileName
    | _,_,_ => none
  | .array [id,size,fileName] => SendFileData.build id size fileName
  | _ => none

/-- The size in the content of a send, as it is counted. -/
def contentSize (content : Value) : Option ℤ :=
  (FileData.fromValue content).bind fun n => (NumberOrString.intoI64 n).toOption

/-- What a send adds to the sum. -/
def countedSize (s : Send) : Option ℤ := if s.atype=SendFile then (parse s.data).bind contentSize else none

/-- `Send::size_by_user`. -/
def Send.sizeByUser (t : Tables) (user : Uuid) : Option ℤ :=
  (t.sends.filter fun s => s.userUuid=some user).foldlM (fun total s =>
    match countedSize s with
    | some size => checkedAdd total size
    | none => some total) 0

/-- The largest file that the limit of a user admits. -/
def sendLimit (settings : UploadSettings) (user : Uuid) : Action ℤ :=
  match settings.userSendLimit with
  | none => pure SIZE_525_MB
  | some limit =>
    if limit=0 then throw "File uploads are disabled"
    else do
      let alreadyUsed ← lookup fun t => Send.sizeByUser t user
      let alreadyUsed ← expect "Existing sends overflow" alreadyUsed
      let left ← expect "Send size overflow" ((checkedMul limit 1024).bind fun l => checkedSub l alreadyUsed)
      ensure "Send storage limit reached! Delete some sends to free up space" (decide (0<left))
      pure (min (max left 0) SIZE_525_MB)

/-- An object without the member that clients add. -/
def withoutResponse : Value → Value
  | .object members => .object (members.filter fun m => m.1≠"response".toList)
  | v => v

/-- The content of a new send. -/
def FileSendData.content (data : FileSendData) : Except String Text :=
  if data.type=SendText then
    match data.text with
    | some text => .ok text
    | none => .error "Send data not provided"
  else if data.type=SendFile then
    match data.file with
    | some v => .ok (stringify 0 (withoutResponse v))
    | none => .error "Send data not provided"
  else .error "Invalid Send type"

/-- `create_send`. -/
def createSend (settings : UploadSettings) (salt : Bytes) (data : FileSendData) (user : Uuid) : Action Send := do
  let content ← fromExcept data.content
  let now ← utcNow
  ensure "You cannot have a Send with a deletion date that far into the future. Adjust the Deletion Date to a value less than 31 days from now and try again."
    (data.deletionDate≤now+31*86400)
  let uuid ← getUuid
  let limit ← fromExcept data.limit
  pure (Send.setPassword settings.toSendSettings salt data.password {
    uuid := uuid
    userUuid := some user
    organizationUuid := none
    name := data.name
    notes := data.notes
    atype := data.type
    data := content
    akey := data.key
    password := none
    maxAccessCount := limit
    accessCount := 0
    expirationDate := data.expirationDate
    deletionDate := data.deletionDate
    disabled := data.disabled
    hideEmail := data.hideEmail})

/-- The content with what the server knows of the file. -/
def withFile (settings : UploadSettings) (fileId : Text) (size : ℕ) : Value → Value
  | .object members => .object (put Prod.fst ("sizeName".toList,.string (settings.getDisplaySize size))
    (put Prod.fst ("size".toList,.number size) (put Prod.fst ("id".toList,.string fileId) members)))
  | v => v

/-- The path of a file. -/
abbrev SendPath := Uuid×Text

/-- `post_send_file`. -/
def postSendFile (settings : UploadSettings) (caller : Uuid) (salt : Bytes) (fileId : Text) (data : FileSendData)
    (length : ℕ) : Handler (Depot SendPath) String Unit := do
  let user ← inDatabase (headers caller)
  inDatabase (enforceDisableSendPolicy settings.toSendSettings user.uuid)
  let size ← expect "Invalid send size" (toI64 length)
  ensure "Send size can't be negative" (decide (0≤ size))
  inDatabase (enforceDisableHideEmailPolicy settings.toSendSettings data.toSendData user.uuid)
  let limit ← inDatabase (sendLimit settings user.uuid)
  ensure "Send storage limit exceeded with this file" (decide (size≤limit))
  let s ← inDatabase (createSend settings salt data user.uuid)
  ensure "Send content is not a file" (decide (s.atype=SendFile))
  saveTempFile (s.uuid,fileId) length true
  let v ← expect "expected value" (parse s.data)
  inDatabase (Send.save {s with data := stringify 0 (withFile settings fileId length v)})

/-- `post_send_file_v2`. -/
def postSendFileV2 (settings : UploadSettings) (caller : Uuid) (salt : Bytes) (fileId : Text)
    (data : FileSendData) : Action Unit := do
  let user ← headers caller
  enforceDisableSendPolicy settings.toSendSettings user.uuid
  ensure "Send content is not a file" (decide (data.type=SendFile))
  enforceDisableHideEmailPolicy settings.toSendSettings data.toSendData user.uuid
  let fileLength ← expect "Invalid send length" data.fileLength
  let fileLength ← fromExcept (NumberOrString.intoI64 fileLength)
  ensure "Send size can't be negative" (decide (0≤fileLength))
  let limit ← sendLimit settings user.uuid
  ensure "Send storage limit exceeded with this file" (decide (fileLength≤limit))
  let s ← createSend settings salt data user.uuid
  let v ← expect "expected value" (parse s.data)
  Send.save {s with data := stringify 0 (withFile settings fileId fileLength.toNat v)}

/-- The name of an upload is the declared one. The CLI may leave out a part. -/
def nameMatches (isCli : Bool) (fileName : Text) (rawName : Option Text) : Bool :=
  rawName.any fun raw => decide (raw=fileName) || (isCli && decide (raw <:+ fileName))

/-- The checks of `post_send_file_v2_data`. -/
def findForUpload (settings : UploadSettings) (caller id : Uuid) (fileId : Text) (rawName : Option Text)
    (isCli : Bool) (length : ℕ) : Action Unit := do
  let user ← headers caller
  enforceDisableSendPolicy settings.toSendSettings user.uuid
  let found ← lookup fun t => Send.findByUuidAndUser t id user.uuid
  let s ← expect "Send not found. Unable to save the file." found
  ensure "Send is not a file type send." (decide (s.atype=SendFile))
  let data ← expect "Unable to decode send data as json." ((parse s.data).bind SendFileData.fromValue)
  ensure "Send file name does not match." (nameMatches isCli data.fileName rawName)
  ensure "Send file does not match send data." (decide (fileId=data.id))
  ensure "Send file size overflow." (decide (length<18446744073709551616))
  ensure "Send file size does not match." (decide (length=data.size))

/-- `post_send_file_v2_data`. -/
def postSendFileV2Data (settings : UploadSettings) (caller id : Uuid) (fileId : Text) (rawName : Option Text)
    (isCli : Bool) (length : ℕ) : Handler (Depot SendPath) String Unit := do
  inDatabase (findForUpload settings caller id fileId rawName isCli length)
  saveTempFile (id,fileId) length false

/-- The first part of `Send::delete`: the folder of a file send. -/
def Send.deleteFolder (settings : UploadSettings) (s : Send) : Handler (Depot SendPath) String Unit :=
  if s.atype=SendFile then do
    ensure "Error in the storage" settings.sendsStorage
    ok (deleteFiles fun path => decide (path.1=s.uuid))
  else pure ()

/-- `Send::delete`. -/
def Send.deleteStored (settings : UploadSettings) (s : Send) : Handler (Depot SendPath) String Unit := do
  Send.deleteFolder settings s
  inDatabase (update "Error deleting send" fun t => {t with sends := t.sends.filter fun q => q.uuid≠s.uuid})

/-- `delete_send`. -/
def deleteSend (settings : UploadSettings) (user id : Uuid) : Handler (Depot SendPath) String Unit := do
  let found ← inDatabase (lookup fun t => Send.findByUuidAndUser t id user)
  let s ← expect "Send not found" found
  Send.deleteStored settings s

end NadSafe.SendStorage
