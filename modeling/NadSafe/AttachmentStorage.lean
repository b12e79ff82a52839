import NadSafe.CipherHandlers
import NadSafe.FileDepot
import NadSafe.RowTotals
import NadSafe.SecondFactors

/-!
# Storage of attachments

An attachment is a row and a file. The older request uploads the file and
creates the row with its measured size. The newer one creates the row with a
declared size first; the file follows in a request of its own, and may be
uploaded again. The limit of a user or an organisation is compared with the
sum of the sizes in the rows. Sums are decimals, as two of the three database
systems compute them.
-/

namespace NadSafe.AttachmentStorage

open HostText TableRows AsyncScript ServerTables AccessQueries StoreScript ServerModels OrgHandlers
open CipherHandlers SecondFactors RowTotals PartScript FileDepot

/-- Settings that the storage depends on. -/
structure StorageSettings extends VaultSettings where
  /-- `user_attachment_limit`, in units of 1024 bytes. -/
  userAttachmentLimit : Option ℤ
  /-- `org_attachment_limit`. -/
  orgAttachmentLimit : Option ℤ

/-- A number in JSON is an `i64`. -/
def NumberOrString.isI64 : NumberOrString → Bool
  | .number n => fitsI64 n
  | .string _ => true

/-- `NumberOrString::into_i64`. -/
def NumberOrString.intoI64 : NumberOrString → Except String ℤ
  | .number n => .ok n
  | .string s =>
    match (parseInt? s).bind toI64 with
    | some n => .ok n
    | none => .error "Can't convert to number"

/-- `AttachmentRequestData`. -/
structure AttachmentRequestData where
  /-- Sealed key. -/
  key : Text
  /-- Sealed file name. -/
  fileName : Text
  /-- The declared size. -/
  fileSize : NumberOrString
  /-- A number that is no `i64` is not accepted. -/
  sized : NumberOrString.isI64 fileSize=true

/-- `UploadData`. -/
structure UploadData where
  /-- Sealed key. -/
  key : Option Text
  /-- Sealed file name. -/
  fileName : Option Text
  /-- Length of the file. -/
  length : ℕ

/-- The path of a file. -/
abbrev Path := Uuid×Uuid

/-- `get_file_path`. -/
def Attachment.getFilePath (a : Attachment) : Path := (a.cipherUuid,a.id)

/-- `Attachment::find_by_id`. -/
def Attachment.findById (id : Uuid) : Action (Option Attachment) :=
  lookup fun t => t.attachments.find? fun a => a.id=id

/-- `Attachment::delete`. -/
def Attachment.delete (a : Attachment) : Handler (Depot Path) String Unit := do
  inDatabase (update "Error deleting attachment" fun t =>
    {t with attachments := t.attachments.filter fun b => b.id≠a.id})
  deleteFiles fun path => decide (path=Attachment.getFilePath a)

/-- A save that panics when it is refused. -/
def saved (p : Action Unit) : Action Unit := tryCatch p fun _ => throw Panic

/-- The sum of the sizes of the attachments of some ciphers. -/
def sizeBy (owned : Cipher → Bool) (t : Tables) : ℤ :=
  let rows := leftJoin t.attachments t.ciphers fun a c => c.uuid=a.cipherUuid
  (toI64 (total (fun r => r.1.fileSize) (rows.filter fun r => r.2.any owned))).getD I64_MAX

/-- `Attachment::size_by_user`. -/
def Attachment.sizeByUser (user : Uuid) : Tables → ℤ := sizeBy fun c => c.userUuid=some user

/-- `Attachment::size_by_org`. -/
def Attachment.sizeByOrg (org : Uuid) : Tables → ℤ := sizeBy fun c => c.organizationUuid=some org

/-- What is left of a limit. -/
def leftOf (limit used adjust : ℤ) : Option ℤ :=
  ((checkedMul limit 1024).bind fun l => checkedSub l used).bind fun l => checkedAdd l adjust

/-- The largest file that a limit admits. -/
def storageLeft (limit : Option ℤ) (used : Tables → ℤ) (adjust : ℤ) : Action (Option ℤ) :=
  match limit with
  | none => pure none
  | some limit =>
    if limit=0 then throw "Attachments are disabled"
    else do
      let alreadyUsed ← lookup used
      let left ← expect "Attachment size overflow" (leftOf limit alreadyUsed adjust)
      ensure "Attachment storage limit reached! Delete some attachments to free up space" (decide (0<left))
      pure (some left)

/-- The largest file for a cipher. -/
def sizeLimit (settings : StorageSettings) (c : Cipher) (adjust : ℤ) : Action (Option ℤ) :=
  match c.userUuid with
  | some user => storageLeft settings.userAttachmentLimit (Attachment.sizeByUser user) adjust
  | none =>
    match c.organizationUuid with
    | some org => storageLeft settings.orgAttachmentLimit (Attachment.sizeByOrg org) adjust
    | none => throw "Cipher is neither owned by a user nor an organization"

/-- `LEEWAY`, one MiB. -/
def LEEWAY : ℤ := 1048576

/-- The first part of `save_attachment`: whether the file is accepted, and its
size. -/
def admitUpload (settings : StorageSettings) (user cipherId : Uuid) (length : ℕ) (sizeAdjust : ℤ) :
    Action (Cipher×ℤ) := do
  let size ← expect "Attachment data size overflow" (toI64 length)
  ensure "Attachment size can't be negative" (decide (0≤ size))
  let c ← Cipher.findByUuid cipherId
  let c ← expect "Cipher doesn't exist" c
  let writable ← lookup fun t => Cipher.isWriteAccessibleToUser settings.toConfig t c user
  ensure "Cipher is not write accessible" writable
  let limit ← sizeLimit settings c sizeAdjust
  ensure "Attachment storage limit exceeded with this file" (limit.all fun l => decide (size≤l))
  pure (c,size)

/-- The row of a declared attachment gets its measured size. -/
def measureAttachment (a : Attachment) (size : ℤ) : Handler (Depot Path) String Uuid := do
  let maxSize ← expect "Invalid attachment size max" (checkedAdd a.fileSize LEEWAY)
  let minSize ← expect "Invalid attachment size min" (checkedSub a.fileSize LEEWAY)
  if minSize≤ size ∧ size≤ maxSize then
    if size≠a.fileSize then do
      inDatabase (saved (Attachment.save {a with fileSize := size}))
      pure a.id
    else pure a.id
  else do
    ok (Attachment.delete a)
    throw ("Attachment size mismatch (expected within ["++toString minSize++", "++toString maxSize++"], got "++
      toString size++")")

/-- The row of an attachment that was not declared. -/
def createAttachment (cipherId : Uuid) (data : UploadData) (size : ℤ) : Action Uuid := do
  let id ← getUuid
  let fileName ← expect "No filename provided" data.fileName
  ensure "No attachment key provided" data.key.isSome
  saved (Attachment.save ⟨id,cipherId,fileName,size,data.key⟩)
  pure id

/-- `save_attachment`. -/
def saveAttachment (settings : StorageSettings) (user : Uuid) (attachment : Option Attachment) (cipherId : Uuid)
    (data : UploadData) : Handler (Depot Path) String Cipher := do
  let sizeAdjust := match attachment with
    | none => 0
    | some a => a.fileSize
  let (c,size) ← inDatabase (admitUpload settings user cipherId data.length sizeAdjust)
  let fileId ← match attachment with
    | some a => measureAttachment a size
    | none => inDatabase (createAttachment cipherId data size)
  saveTempFile (cipherId,fileId) data.length true
  pure c

/-- `post_attachment_v2`. -/
def postAttachmentV2 (settings : StorageSettings) (caller cipherId : Uuid) (data : AttachmentRequestData) :
    Action Unit := do
  let user ← headers caller
  let c ← Cipher.findByUuid cipherId
  let c ← expect "Cipher doesn't exist" c
  let writable ← lookup fun t => Cipher.isWriteAccessibleToUser settings.toConfig t c user.uuid
  ensure "Cipher is not write accessible" writable
  let fileSize ← fromExcept (NumberOrString.intoI64 data.fileSize)
  ensure "Attachment size can't be negative" (decide (0≤fileSize))
  let id ← getUuid
  saved (Attachment.save ⟨id,c.uuid,data.fileName,fileSize,some data.key⟩)
  Cipher.toJson c

/-- The attachment that an upload is for. -/
def findForCipher (cipherId attachmentId : Uuid) : Action Attachment := do
  let found ← Attachment.findById attachmentId
  let a ← expect "Attachment doesn't exist" found
  ensure "Attachment doesn't belong to cipher" (decide (cipherId=a.cipherUuid))
  pure a

/-- `post_attachment_v2_data`. -/
def postAttachmentV2Data (settings : StorageSettings) (caller cipherId attachmentId : Uuid) (data : UploadData) :
    Handler (Depot Path) String Unit := do
  let user ← inDatabase (headers caller)
  let a ← inDatabase (findForCipher cipherId attachmentId)
  let _ ← saveAttachment settings user.uuid (some a) cipherId data

/-- `post_attachment`. -/
def postAttachment (settings : StorageSettings) (caller cipherId : Uuid) (data : UploadData) :
    Handler (Depot Path) String Unit := do
  let user ← inDatabase (headers caller)
  let c ← saveAttachment settings user.uuid none cipherId data
  inDatabase (Cipher.toJson c)

/-- The first part of `delete_cipher_attachment_by_id`. -/
def findForDelete (settings : StorageSettings) (caller cipherId attachmentId : Uuid) : Action (Attachment×Cipher) := do
  let user ← headers caller
  let found ← Attachment.findById attachmentId
  let a ← expect "Attachment doesn't exist" found
  ensure "Attachment from other cipher" (decide (a.cipherUuid=cipherId))
  let c ← Cipher.findByUuid cipherId
  let c ← expect "Cipher doesn't exist" c
  let writable ← lookup fun t => Cipher.isWriteAccessibleToUser settings.toConfig t c user.uuid
  ensure "Cipher cannot be deleted by user" writable
  pure (a,c)

/-- `delete_attachment`. -/
def deleteAttachment (settings : StorageSettings) (caller cipherId attachmentId : Uuid) :
    Handler (Depot Path) String Unit := do
  let (a,c) ← inDatabase (findForDelete settings caller cipherId attachmentId)
  Attachment.delete a
  inDatabase (Cipher.toJson c)

/-- `post_attachment_share`. -/
def postAttachmentShare (settings : StorageSettings) (caller cipherId attachmentId : Uuid) (data : UploadData) :
    Handler (Depot Path) String Unit := do
  deleteAttachment settings caller cipherId attachmentId
  postAttachment settings caller cipherId data

end NadSafe.AttachmentStorage
