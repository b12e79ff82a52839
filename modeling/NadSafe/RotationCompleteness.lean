import NadSafe.RotationAtomicity

/-!
# Nothing under the old key

What a rotation that succeeds leaves. Every row that is sealed with the user
key has an item in the request, since the request is checked against the
stored rows; only attachments are not checked, and the ones that the request
leaves out keep their old key.
-/

namespace NadSafe.RotationCompleteness

open HostText JsonText TableRows AsyncScript ServerTables StoreScript ServerModels CipherHandlers SecondFactors
open EmergencyHandlers SendHandlers KeyRotation PlannedScript TableWrites RowImages RotationWrites RotationRuns

/-- The personal ciphers of a request. -/
def personalItems (data : KeyData) : List CipherData := data.accountData.ciphers.filter fun d => d.organizationId.isNone

/-- A cipher with the sealed content of a request. -/
structure Sealed (settings : RotationSettings) (d : CipherData) (c : Cipher) : Prop where
  /-- Key. -/
  key : c.key=d.key
  /-- Name. -/
  name : c.name=d.name
  /-- Notes. -/
  notes : c.notes=d.notes
  /-- Content and custom fields. -/
  content : ∃ content,d.content=.ok content ∧ c.data=settings.serialize content.1 ∧
    c.fields=content.2.map settings.serialize
  /-- Older passwords. -/
  passwordHistory : c.passwordHistory=d.passwordHistory.map settings.serialize

/-- An attachment with the key and the name of an entry. -/
def SealedBy (a : Attachment) (e : Uuid×Attachments2Data) : Prop :=
  e.1=a.id ∧ a.akey=some e.2.key ∧ a.fileName=e.2.fileName

/-- An attachment of a personal cipher. -/
def personal (t : Tables) (user : Uuid) (a : Attachment) : Prop :=
  ∃ c∈t.ciphers,ownsCipher user c=true ∧ c.uuid=a.cipherUuid

/-- Everything that the user key seals is taken from the request. -/
structure Renewed (settings : RotationSettings) (user : Uuid) (data : KeyData) (t : Tables) : Prop where
  /-- Personal ciphers. -/
  ciphers : ∀ c∈t.ciphers,ownsCipher user c=true → ∃ d∈personalItems data,d.id=some c.uuid ∧ Sealed settings d c
  /-- Their attachments. -/
  attachments : ∀ a∈t.attachments,personal t user a →
    ∃ d∈personalItems data,d.id=some a.cipherUuid ∧ ∃ e∈d.attachments2.getD [],SealedBy a e
  /-- Folders. -/
  folders : ∀ f∈t.folders,f.userUuid=user → ∃ d∈data.accountData.folders,d.id=some f.uuid ∧ f.name=d.name
  /-- Sends. -/
  sends : ∀ s∈t.sends,s.userUuid=some user →
    ∃ d∈data.accountData.sends,d.1.id=some s.uuid ∧ s.akey=d.1.key ∧ s.name=d.1.name ∧ s.notes=d.1.notes
  /-- Emergency accesses that hold the key. -/
  emergencyAccess : ∀ e∈t.emergencyAccess,e.grantorUuid=user → EmergencyAccess.Confirmed≤e.status →
    ∃ d∈data.accountUnlockData.emergencyAccessUnlockData,d.id=e.uuid ∧ e.keyEncrypted=some d.keyEncrypted
  /-- Keys for account recovery. -/
  members : ∀ m∈t.members,m.userUuid=user → m.resetPasswordKey≠none →
    ∃ d∈data.accountUnlockData.organizationAccountRecoveryUnlockData,
      d.organizationId=m.orgUuid ∧ m.resetPasswordKey=some d.resetPasswordKey
  /-- The account. -/
  users : ∀ u∈t.users,u.uuid=user →
    u.akey=data.accountUnlockData.masterPasswordUnlockData.masterKeyEncryptedUserKey ∧
      u.privateKey=some data.accountKeys.userKeyEncryptedAccountPrivateKey

section Validation

variable {data : KeyData} {cs : List Cipher} {fs : List Folder} {es : List EmergencyAccess} {ms : List Membership}
  {ss : List Send} {u : User}

/-- A valid request names all rows but attachments. -/
structure Names (data : KeyData) (cs : List Cipher) (fs : List Folder) (es : List EmergencyAccess)
    (ms : List Membership) (ss : List Send) : Prop where
  /-- Ciphers. -/
  ciphers : ∀ c∈cs,∃ d∈personalItems data,d.id=some c.uuid
  /-- Folders. -/
  folders : ∀ f∈fs,∃ d∈data.accountData.folders,d.id=some f.uuid
  /-- Emergency accesses. -/
  emergencyAccess : ∀ e∈es,∃ d∈data.accountUnlockData.emergencyAccessUnlockData,d.id=e.uuid
  /-- Memberships. -/
  members : ∀ m∈ms,∃ d∈data.accountUnlockData.organizationAccountRecoveryUnlockData,d.organizationId=m.orgUuid
  /-- Sends. -/
  sends : ∀ s∈ss,∃ d∈data.accountData.sends,d.1.id=some s.uuid

/-- Every row is among the provided ones. -/
theorem named_of_includes {ρ β : Type} {key : ρ → Uuid} {id : β → Option Uuid} {rows : List ρ} {ds : List β}
    (h : includesAll (ds.filterMap id) (rows.map key)≠false) : ∀ r∈rows,∃ d∈ds,id d=some (key r) := by
  intro r hr
  rw [Ne,Bool.not_eq_false,includesAll,List.all_eq_true] at h
  have hkey := of_decide_eq_true (h (key r) (List.mem_map_of_mem hr))
  exact List.mem_filterMap.mp hkey

/-- The same for ids that are always there. -/
theorem listed_of_includes {ρ β : Type} {key : ρ → Uuid} {id : β → Uuid} {rows : List ρ} {ds : List β}
    (h : includesAll (ds.map id) (rows.map key)≠false) : ∀ r∈rows,∃ d∈ds,id d=key r := by
  intro r hr
  rw [Ne,Bool.not_eq_false,includesAll,List.all_eq_true] at h
  have hkey := of_decide_eq_true (h (key r) (List.mem_map_of_mem hr))
  exact List.mem_map.mp hkey

theorem names_of_valid (h : (validateKeydata data cs fs es ms ss u).isOk=true) : Names data cs fs es ms ss := by
  unfold validateKeydata at h
  dsimp only at h
  split at h
  · cases h
  split at h
  · cases h
  split at h
  · cases h
  rename_i hciphers
  split at h
  · cases h
  rename_i hfolders
  split at h
  · cases h
  rename_i hemergency
  split at h
  · cases h
  rename_i hmembers
  split at h
  · cases h
  rename_i hsends
  exact ⟨named_of_includes hciphers,named_of_includes hfolders,listed_of_includes hemergency,
    listed_of_includes hmembers,named_of_includes hsends⟩

end Validation

section Items

variable {settings : RotationSettings} {db : Database} {user : Uuid} {data : KeyData} {xs : List Item}

/-- Accepted items make all their changes. -/
theorem written_all {ρ τ : Type} {core : ρ → τ} (part : Rewriting → Change core) (hkeep : part .keep=.keep core)
    (hthen : ∀ a b : Rewriting,part (a.then b)=(part a).then (part b)) (h : xs.all (accepts settings db user)=true) :
    part (written settings db user xs)=.all (fun i => part (change settings db user i)) xs := by
  induction xs with
  | nil => exact hkeep
  | cons i rest ih =>
    rw [List.all_cons,Bool.and_eq_true] at h
    rw [written,if_pos h.1,hthen,ih h.2]
    rfl

/-- A row that an item hits holds in the end what one of its items sets. -/
theorem holds_written {ρ τ : Type} {core : ρ → τ} {hits holds : Item → ρ → Prop} (part : Rewriting → Change core)
    (hkeep : part .keep=.keep core) (hthen : ∀ a b : Rewriting,part (a.then b)=(part a).then (part b))
    (h : xs.all (accepts settings db user)=true)
    (hset : ∀ i r,accepts settings db user i=true → hits i r → holds i ((part (change settings db user i)).1 r))
    (hkept : ∀ i r,¬hits i r → (part (change settings db user i)).1 r=r)
    (hsame : ∀ i j r,hits i ((part (change settings db user j)).1 r) ↔ hits i r) {r : ρ} (hhit : ∃ i∈xs,hits i r) :
    ∃ i∈xs,hits i r ∧ holds i ((part (written settings db user xs)).1 r) := by
  rw [written_all part hkeep hthen h]
  refine (all_holds hits holds (fun i hi r hhits => ?_) (fun i _ r hhits => hkept i r hhits) hsame r).resolve_right ?_
  · exact hset i r (List.all_eq_true.mp h i hi) hhits
  · rintro ⟨hnone,-⟩
    obtain ⟨i,hi,hhits⟩ := hhit
    exact hnone i hi hhits

/-- An item of a folder. -/
def hitsFolder (user : Uuid) : Item → Folder → Prop
  | .folder id _,f => (ownsFolder user f && decide (f.uuid=id))=true
  | _,_ => False

/-- The name of a folder is taken from an item. -/
def holdsFolder : Item → Folder → Prop
  | .folder _ name,f => f.name=name
  | _,_ => False

theorem folder_written (h : xs.all (accepts settings db user)=true) {f : Folder} (hhit : ∃ i∈xs,hitsFolder user i f) :
    ∃ i∈xs,hitsFolder user i f ∧ holdsFolder i ((written settings db user xs).folder.1 f) := by
  refine holds_written Rewriting.folder rfl (fun _ _ => rfl) h (fun i f _ hi => ?_) (fun i f hi => ?_)
    (fun i j f => ?_) hhit
  · cases i with
    | folder id name => exact congrArg Folder.name (if_pos hi)
    | _ => exact hi.elim
  · cases i with
    | folder id name => exact if_neg hi
    | _ => rfl
  · obtain ⟨huuid,howns⟩ := folder_core user ((change settings db user j).folder.2 f)
    cases i with
    | folder id name =>
      rw [hitsFolder,hitsFolder,huuid,howns]
    | _ => exact Iff.rfl

/-- An item of an emergency access. -/
def hitsEmergencyAccess (user : Uuid) : Item → EmergencyAccess → Prop
  | .emergencyAccess d,e => (ownsEmergencyAccess user e && decide (e.uuid=d.id))=true
  | _,_ => False

/-- The key of an emergency access is taken from an item. -/
def holdsEmergencyAccess : Item → EmergencyAccess → Prop
  | .emergencyAccess d,e => e.keyEncrypted=some d.keyEncrypted
  | _,_ => False

theorem emergencyAccess_written (h : xs.all (accepts settings db user)=true) {e : EmergencyAccess}
    (hhit : ∃ i∈xs,hitsEmergencyAccess user i e) :
    ∃ i∈xs,hitsEmergencyAccess user i e ∧
      holdsEmergencyAccess i ((written settings db user xs).emergencyAccess.1 e) := by
  refine holds_written Rewriting.emergencyAccess rfl (fun _ _ => rfl) h (fun i e _ hi => ?_) (fun i e hi => ?_)
    (fun i j e => ?_) hhit
  · cases i with
    | emergencyAccess d => exact congrArg EmergencyAccess.keyEncrypted (if_pos hi)
    | _ => exact hi.elim
  · cases i with
    | emergencyAccess d => exact if_neg hi
    | _ => rfl
  · obtain ⟨huuid,howns⟩ := emergency_core user ((change settings db user j).emergencyAccess.2 e)
    cases i with
    | emergencyAccess d =>
      rw [hitsEmergencyAccess,hitsEmergencyAccess,huuid,howns]
    | _ => exact Iff.rfl

/-- An item of a membership. -/
def hitsMember (user : Uuid) : Item → Membership → Prop
  | .resetPassword d,m => (ownsMember user m && decide (m.orgUuid=d.organizationId))=true
  | _,_ => False

/-- The key of a membership is taken from an item. -/
def holdsMember : Item → Membership → Prop
  | .resetPassword d,m => m.resetPasswordKey=some d.resetPasswordKey
  | _,_ => False

theorem member_written (h : xs.all (accepts settings db user)=true) {m : Membership}
    (hhit : ∃ i∈xs,hitsMember user i m) :
    ∃ i∈xs,hitsMember user i m ∧ holdsMember i ((written settings db user xs).member.1 m) := by
  refine holds_written Rewriting.member rfl (fun _ _ => rfl) h (fun i m _ hi => ?_) (fun i m hi => ?_)
    (fun i j m => ?_) hhit
  · cases i with
    | resetPassword d => exact congrArg Membership.resetPasswordKey (if_pos hi)
    | _ => exact hi.elim
  · cases i with
    | resetPassword d => exact if_neg hi
    | _ => rfl
  · obtain ⟨horg,howns⟩ := member_core user ((change settings db user j).member.2 m)
    cases i with
    | resetPassword d =>
      rw [hitsMember,hitsMember,horg,howns]
    | _ => exact Iff.rfl

/-- An item of a send. -/
def hitsSend (user : Uuid) : Item → Send → Prop
  | .send d _,s => (ownsSend user s && decide (d.id=some s.uuid))=true
  | _,_ => False

/-- The key and the texts of a send are taken from an item. -/
def holdsSend : Item → Send → Prop
  | .send d _,s => s.akey=d.key ∧ s.name=d.name ∧ s.notes=d.notes
  | _,_ => False

theorem updatedSend_texts {sends : SendSettings} {salt : Bytes} {d : SendData} {limit : Option ℤ} {content : Text}
    {s : Send} : (updatedSend sends salt d limit content s).akey=d.key ∧
      (updatedSend sends salt d limit content s).name=d.name ∧ (updatedSend sends salt d limit content s).notes=d.notes := by
  unfold updatedSend
  dsimp only
  cases d.password <;> exact ⟨rfl,rfl,rfl⟩

theorem send_written (h : xs.all (accepts settings db user)=true) {s : Send} (hhit : ∃ i∈xs,hitsSend user i s) :
    ∃ i∈xs,hitsSend user i s ∧ holdsSend i ((written settings db user xs).send.1 s) := by
  refine holds_written Rewriting.send rfl (fun _ _ => rfl) h (fun i s _ hi => ?_) (fun i s hi => ?_)
    (fun i j s => ?_) hhit
  · cases i with
    | send d salt =>
      have hsaved : (change settings db user (.send d salt)).send.1 s=
          updatedSend settings.sends salt d (d.limit.toOption.getD none) (contentFor d s) s := if_pos hi
      rw [hsaved]
      exact updatedSend_texts
    | _ => exact hi.elim
  · cases i with
    | send d salt => exact if_neg hi
    | _ => rfl
  · obtain ⟨huuid,-,howns⟩ := send_core user ((change settings db user j).send.2 s)
    cases i with
    | send d salt =>
      rw [hitsSend,hitsSend,huuid,howns]
    | _ => exact Iff.rfl

/-- An item of a cipher. -/
def hitsCipher (user : Uuid) : Item → Cipher → Prop
  | .cipher d,c => (ownsCipher user c && decide (d.id=some c.uuid))=true
  | _,_ => False

/-- The content of a cipher is taken from an item. -/
def holdsCipher (settings : RotationSettings) : Item → Cipher → Prop
  | .cipher d,c => Sealed settings d c
  | _,_ => False

theorem cipher_written (h : xs.all (accepts settings db user)=true) {c : Cipher} (hhit : ∃ i∈xs,hitsCipher user i c) :
    ∃ i∈xs,hitsCipher user i c ∧ holdsCipher settings i ((written settings db user xs).cipher.1 c) := by
  refine holds_written Rewriting.cipher rfl (fun _ _ => rfl) h (fun i c haccepted hi => ?_) (fun i c hi => ?_)
    (fun i j c => ?_) hhit
  · cases i with
    | cipher d =>
      rw [accepts,Bool.and_eq_true] at haccepted
      cases hcontent : d.content with
      | error e =>
        rw [hcontent] at haccepted
        cases haccepted.2
      | ok content =>
        have hsaved : (change settings db user (.cipher d)).cipher.1 c=
            revise settings.toVaultSettings c d content db.now := by
          refine (if_pos hi).trans ?_
          rw [hcontent]
          rfl
        rw [hsaved]
        exact ⟨rfl,rfl,rfl,⟨content,hcontent,rfl,rfl⟩,rfl⟩
    | _ => exact hi.elim
  · cases i with
    | cipher d => exact if_neg hi
    | _ => rfl
  · obtain ⟨huuid,howns⟩ := cipher_core user ((change settings db user j).cipher.2 c)
    cases i with
    | cipher d =>
      rw [hitsCipher,hitsCipher,huuid,howns]
    | _ => exact Iff.rfl

/-- An item that reaches an attachment. -/
def hitsAttachment (rows : List Attachment) : Item → Attachment → Prop
  | .cipher d,a => d.id=some a.cipherUuid ∧ ∃ e∈ownEntries rows a.cipherUuid (d.attachments2.getD []),e.1=a.id
  | _,_ => False

/-- The key and the name of an attachment are taken from an item. -/
def holdsAttachment : Item → Attachment → Prop
  | .cipher d,a => d.id=some a.cipherUuid ∧ ∃ e∈d.attachments2.getD [],SealedBy a e
  | _,_ => False

theorem attachment_core {a b : Attachment} (h : attachmentCore a=attachmentCore b) :
    a.id=b.id ∧ a.cipherUuid=b.cipherUuid := by
  simp only [attachmentCore,Prod.mk.injEq] at h
  exact h

/-- An attachment after the entries of one cipher. -/
theorem sealEntries_cases (cipher : Uuid) (entries : List (Uuid×Attachments2Data)) (a : Attachment) :
    (∃ e∈entries,e.1=a.id ∧ a.cipherUuid=cipher ∧ SealedBy ((sealEntries cipher entries).1 a) e) ∨
      (∀ e∈entries,¬(e.1=a.id ∧ a.cipherUuid=cipher)) ∧ (sealEntries cipher entries).1 a=a := by
  have hcases := all_holds (f:=sealEntry cipher) (fun e a => e.1=a.id ∧ a.cipherUuid=cipher) (fun e a => SealedBy a e)
    (fun e (_ : e∈entries) a ha => ?_) (fun e _ a ha => ?_) (fun e e' a => ?_) a
  · rcases hcases with ⟨e,he,⟨hid,hcipher⟩,hsealed⟩|hnone
    · exact .inl ⟨e,he,hid,hcipher,hsealed⟩
    · exact .inr hnone
  · have hsaved : (sealEntry cipher e).1 a={a with akey := some e.2.key, fileName := e.2.fileName} :=
      if_pos (decide_eq_true ⟨ha.1.symm,ha.2⟩)
    rw [hsaved]
    exact ⟨ha.1,rfl,rfl⟩
  · exact if_neg fun h => ha ⟨(of_decide_eq_true h).1.symm,(of_decide_eq_true h).2⟩
  · obtain ⟨hid,hcipher⟩ := attachment_core ((sealEntry cipher e').2 a)
    rw [hid,hcipher]

/-- An attachment is sealed by an item that reaches it, or it is as before. -/
theorem attachment_written (h : xs.all (accepts settings db user)=true) (a : Attachment) :
    (∃ i∈xs,hitsAttachment db.attachments i a ∧ holdsAttachment i ((written settings db user xs).attachment.1 a)) ∨
      (∀ i∈xs,¬hitsAttachment db.attachments i a) ∧ (written settings db user xs).attachment.1 a=a := by
  rw [written_all Rewriting.attachment rfl (fun _ _ => rfl) h]
  refine all_holds (hitsAttachment db.attachments) holdsAttachment (fun i _ a hi => ?_) (fun i _ a hi => ?_)
    (fun i j a => ?_) a
  · cases i with
    | cipher d =>
      obtain ⟨hid,e,he,hea⟩ := hi
      have hseal : (change settings db user (.cipher d)).attachment=
          sealEntries a.cipherUuid (ownEntries db.attachments a.cipherUuid (d.attachments2.getD [])) := by
        show sealAttachments db.attachments d=_
        rw [sealAttachments,hid]
      rw [hseal]
      rcases sealEntries_cases a.cipherUuid (ownEntries db.attachments a.cipherUuid (d.attachments2.getD [])) a with
        ⟨e',he',-,-,hsealed⟩|⟨hnone,-⟩
      · obtain ⟨-,hcipher⟩ := attachment_core ((sealEntries a.cipherUuid
          (ownEntries db.attachments a.cipherUuid (d.attachments2.getD []))).2 a)
        rw [holdsAttachment,hcipher]
        exact ⟨hid,e',List.takeWhile_subset _ he',hsealed⟩
      · exact absurd ⟨hea,rfl⟩ (hnone e he)
    | _ => exact hi.elim
  · cases i with
    | cipher d =>
      show (sealAttachments db.attachments d).1 a=a
      unfold sealAttachments
      cases hid : d.id with
      | none => rfl
      | some id =>
        rcases sealEntries_cases id (ownEntries db.attachments id (d.attachments2.getD [])) a with
          ⟨e,he,hea,hcipher,-⟩|⟨-,hsame⟩
        · refine absurd ?_ hi
          rw [hitsAttachment,hcipher]
          exact ⟨hid,e,he,hea⟩
        · exact hsame
    | _ => rfl
  · obtain ⟨hid,hcipher⟩ := attachment_core ((change settings db user j).attachment.2 a)
    cases i with
    | cipher d => rw [hitsAttachment,hitsAttachment,hid,hcipher]
    | _ => exact Iff.rfl

end Items

section Completed

variable {settings : RotationSettings} {db db₁ : Database} {u : User} {data : KeyData}

/-- An attachment is reached by the request, or it has the key and the name
that the request lists for it already. -/
def Covered (rows : List Attachment) (data : KeyData) (a : Attachment) : Prop :=
  ∃ d∈personalItems data,d.id=some a.cipherUuid ∧
    ((∃ e∈ownEntries rows a.cipherUuid (d.attachments2.getD []),e.1=a.id) ∨
      ∃ e∈d.attachments2.getD [],SealedBy a e)

theorem mem_folderItems {d : UpdateFolderData} {id : Uuid} (hd : d∈data.accountData.folders) (hid : d.id=some id) :
    .folder id d.name∈items data := by
  refine List.mem_append_left _ (List.mem_map.mpr ⟨(id,d.name),List.mem_filterMap.mpr ⟨d,hd,?_⟩,rfl⟩)
  rw [hid]
  rfl

/-- The items of a request, told by their kind. -/
theorem item_cases {i : Item} (h : i∈items data) :
    (∃ d∈data.accountData.folders,∃ id,d.id=some id ∧ i=.folder id d.name) ∨
    (∃ d∈data.accountUnlockData.emergencyAccessUnlockData,i=.emergencyAccess d) ∨
    (∃ d∈data.accountUnlockData.organizationAccountRecoveryUnlockData,i=.resetPassword d) ∨
    (∃ d∈data.accountData.sends,i=.send d.1 d.2) ∨ ∃ d∈personalItems data,i=.cipher d := by
  unfold items at h
  rcases List.mem_append.mp h with h|h
  · obtain ⟨⟨id,name⟩,hnamed,rfl⟩ := List.mem_map.mp h
    obtain ⟨d,hd,hmap⟩ := List.mem_filterMap.mp hnamed
    obtain ⟨id',hid,hpair⟩ := Option.map_eq_some_iff.mp hmap
    cases hpair
    exact .inl ⟨d,hd,id,hid,rfl⟩
  rcases List.mem_append.mp h with h|h
  · obtain ⟨d,hd,rfl⟩ := List.mem_map.mp h
    exact .inr (.inl ⟨d,hd,rfl⟩)
  rcases List.mem_append.mp h with h|h
  · obtain ⟨d,hd,rfl⟩ := List.mem_map.mp h
    exact .inr (.inr (.inl ⟨d,hd,rfl⟩))
  rcases List.mem_append.mp h with h|h
  · obtain ⟨d,hd,rfl⟩ := List.mem_map.mp h
    exact .inr (.inr (.inr (.inl ⟨d,hd,rfl⟩)))
  · obtain ⟨d,hd,rfl⟩ := List.mem_map.mp h
    exact .inr (.inr (.inr (.inr ⟨d,hd,rfl⟩)))

variable {user : Uuid}

theorem folders_renewed (haccepted : (items data).all (accepts settings db user)=true)
    (hwritten : Rewritten (written settings db user (items data)) db db₁)
    (hnamed : ∀ f∈db.folders.filter (ownsFolder user),∃ d∈data.accountData.folders,d.id=some f.uuid) :
    ∀ f∈db₁.folders,f.userUuid=user → ∃ d∈data.accountData.folders,d.id=some f.uuid ∧ f.name=d.name := by
  intro f hf hown
  obtain ⟨f₀,hf₀,rfl⟩ := (hwritten.folders f).mp hf
  obtain ⟨huuid,howns⟩ := folder_core user ((written settings db user (items data)).folder.2 f₀)
  have hown₀ : ownsFolder user f₀=true := howns.symm.trans (decide_eq_true hown)
  obtain ⟨d,hd,hid⟩ := hnamed f₀ (List.mem_filter.mpr ⟨hf₀,hown₀⟩)
  have hhit : hitsFolder user (.folder f₀.uuid d.name) f₀ := by
    rw [hitsFolder,hown₀,decide_eq_true rfl]
    rfl
  obtain ⟨i,hi,hhits,hholds⟩ := folder_written haccepted ⟨_,mem_folderItems hd hid,hhit⟩
  rcases item_cases hi with ⟨d,hd,id,hid,rfl⟩|⟨d,-,rfl⟩|⟨d,-,rfl⟩|⟨d,-,rfl⟩|⟨d,-,rfl⟩
  · rw [hitsFolder,Bool.and_eq_true,decide_eq_true_eq] at hhits
    refine ⟨d,hd,?_,hholds⟩
    rw [huuid,hhits.2]
    exact hid
  · exact hhits.elim
  · exact hhits.elim
  · exact hhits.elim
  · exact hhits.elim

theorem emergencyAccess_renewed (haccepted : (items data).all (accepts settings db user)=true)
    (hwritten : Rewritten (written settings db user (items data)) db db₁)
    (hnamed : ∀ e∈db.emergencyAccess.filter (ownsEmergencyAccess user),
      ∃ d∈data.accountUnlockData.emergencyAccessUnlockData,d.id=e.uuid) :
    ∀ e∈db₁.emergencyAccess,e.grantorUuid=user → EmergencyAccess.Confirmed≤e.status →
      ∃ d∈data.accountUnlockData.emergencyAccessUnlockData,d.id=e.uuid ∧ e.keyEncrypted=some d.keyEncrypted := by
  intro e he hgrantor hstatus
  obtain ⟨e₀,he₀,rfl⟩ := (hwritten.emergencyAccess e).mp he
  obtain ⟨huuid,howns⟩ := emergency_core user ((written settings db user (items data)).emergencyAccess.2 e₀)
  have hown₀ : ownsEmergencyAccess user e₀=true := howns.symm.trans (decide_eq_true ⟨hgrantor,hstatus⟩)
  obtain ⟨d,hd,hid⟩ := hnamed e₀ (List.mem_filter.mpr ⟨he₀,hown₀⟩)
  have hmem : .emergencyAccess d∈items data :=
    List.mem_append_right _ (List.mem_append_left _ (List.mem_map_of_mem hd))
  have hhit : hitsEmergencyAccess user (.emergencyAccess d) e₀ := by
    rw [hitsEmergencyAccess,hown₀,decide_eq_true hid.symm]
    rfl
  obtain ⟨i,hi,hhits,hholds⟩ := emergencyAccess_written haccepted ⟨_,hmem,hhit⟩
  rcases item_cases hi with ⟨d,-,id,-,rfl⟩|⟨d,hd,rfl⟩|⟨d,-,rfl⟩|⟨d,-,rfl⟩|⟨d,-,rfl⟩
  · exact hhits.elim
  · rw [hitsEmergencyAccess,Bool.and_eq_true,decide_eq_true_eq] at hhits
    exact ⟨d,hd,hhits.2.symm.trans huuid.symm,hholds⟩
  · exact hhits.elim
  · exact hhits.elim
  · exact hhits.elim

theorem members_renewed (haccepted : (items data).all (accepts settings db user)=true)
    (hwritten : Rewritten (written settings db user (items data)) db db₁)
    (hnamed : ∀ m∈db.members.filter (ownsMember user),
      ∃ d∈data.accountUnlockData.organizationAccountRecoveryUnlockData,d.organizationId=m.orgUuid) :
    ∀ m∈db₁.members,m.userUuid=user → m.resetPasswordKey≠none →
      ∃ d∈data.accountUnlockData.organizationAccountRecoveryUnlockData,
        d.organizationId=m.orgUuid ∧ m.resetPasswordKey=some d.resetPasswordKey := by
  intro m hm huser hkey
  obtain ⟨m₀,hm₀,rfl⟩ := (hwritten.members m).mp hm
  obtain ⟨horg,howns⟩ := member_core user ((written settings db user (items data)).member.2 m₀)
  have hown₀ : ownsMember user m₀=true := by
    rw [← howns,ownsMember,decide_eq_true huser,Option.isSome_iff_ne_none.mpr hkey]
    rfl
  obtain ⟨d,hd,hid⟩ := hnamed m₀ (List.mem_filter.mpr ⟨hm₀,hown₀⟩)
  have hmem : .resetPassword d∈items data :=
    List.mem_append_right _ (List.mem_append_right _ (List.mem_append_left _ (List.mem_map_of_mem hd)))
  have hhit : hitsMember user (.resetPassword d) m₀ := by
    rw [hitsMember,hown₀,decide_eq_true hid.symm]
    rfl
  obtain ⟨i,hi,hhits,hholds⟩ := member_written haccepted ⟨_,hmem,hhit⟩
  rcases item_cases hi with ⟨d,-,id,-,rfl⟩|⟨d,-,rfl⟩|⟨d,hd,rfl⟩|⟨d,-,rfl⟩|⟨d,-,rfl⟩
  · exact hhits.elim
  · exact hhits.elim
  · rw [hitsMember,Bool.and_eq_true,decide_eq_true_eq] at hhits
    exact ⟨d,hd,hhits.2.symm.trans horg.symm,hholds⟩
  · exact hhits.elim
  · exact hhits.elim

theorem sends_renewed (haccepted : (items data).all (accepts settings db user)=true)
    (hwritten : Rewritten (written settings db user (items data)) db db₁)
    (hnamed : ∀ s∈db.sends.filter (ownsSend user),∃ d∈data.accountData.sends,d.1.id=some s.uuid) :
    ∀ s∈db₁.sends,s.userUuid=some user →
      ∃ d∈data.accountData.sends,d.1.id=some s.uuid ∧ s.akey=d.1.key ∧ s.name=d.1.name ∧ s.notes=d.1.notes := by
  intro s hs hown
  obtain ⟨s₀,hs₀,rfl⟩ := (hwritten.sends s).mp hs
  obtain ⟨huuid,-,howns⟩ := send_core user ((written settings db user (items data)).send.2 s₀)
  have hown₀ : ownsSend user s₀=true := howns.symm.trans (decide_eq_true hown)
  obtain ⟨d,hd,hid⟩ := hnamed s₀ (List.mem_filter.mpr ⟨hs₀,hown₀⟩)
  have hmem : .send d.1 d.2∈items data :=
    List.mem_append_right _ (List.mem_append_right _ (List.mem_append_right _ (List.mem_append_left _
      (List.mem_map_of_mem (f:=fun d => Item.send d.1 d.2) hd))))
  have hhit : hitsSend user (.send d.1 d.2) s₀ := by
    rw [hitsSend,hown₀,decide_eq_true hid]
    rfl
  obtain ⟨i,hi,hhits,hholds⟩ := send_written haccepted ⟨_,hmem,hhit⟩
  rcases item_cases hi with ⟨d,-,id,-,rfl⟩|⟨d,-,rfl⟩|⟨d,-,rfl⟩|⟨d,hd,rfl⟩|⟨d,-,rfl⟩
  · exact hhits.elim
  · exact hhits.elim
  · exact hhits.elim
  · rw [hitsSend,Bool.and_eq_true,decide_eq_true_eq] at hhits
    refine ⟨d,hd,?_,hholds⟩
    rw [huuid]
    exact hhits.2
  · exact hhits.elim

theorem mem_cipherItems {d : CipherData} (hd : d∈personalItems data) : .cipher d∈items data :=
  List.mem_append_right _ (List.mem_append_right _ (List.mem_append_right _ (List.mem_append_right _
    (List.mem_map_of_mem hd))))

theorem ciphers_renewed (haccepted : (items data).all (accepts settings db user)=true)
    (hwritten : Rewritten (written settings db user (items data)) db db₁)
    (hnamed : ∀ c∈db.ciphers.filter (ownsCipher user),∃ d∈personalItems data,d.id=some c.uuid) :
    ∀ c∈db₁.ciphers,ownsCipher user c=true → ∃ d∈personalItems data,d.id=some c.uuid ∧ Sealed settings d c := by
  intro c hc hown
  obtain ⟨c₀,hc₀,rfl⟩ := (hwritten.ciphers c).mp hc
  obtain ⟨huuid,howns⟩ := cipher_core user ((written settings db user (items data)).cipher.2 c₀)
  have hown₀ : ownsCipher user c₀=true := howns.symm.trans hown
  obtain ⟨d,hd,hid⟩ := hnamed c₀ (List.mem_filter.mpr ⟨hc₀,hown₀⟩)
  have hhit : hitsCipher user (.cipher d) c₀ := by
    rw [hitsCipher,hown₀,decide_eq_true hid]
    rfl
  obtain ⟨i,hi,hhits,hholds⟩ := cipher_written haccepted ⟨_,mem_cipherItems hd,hhit⟩
  rcases item_cases hi with ⟨d,-,id,-,rfl⟩|⟨d,-,rfl⟩|⟨d,-,rfl⟩|⟨d,-,rfl⟩|⟨d,hd,rfl⟩
  · exact hhits.elim
  · exact hhits.elim
  · exact hhits.elim
  · exact hhits.elim
  · rw [hitsCipher,Bool.and_eq_true,decide_eq_true_eq] at hhits
    refine ⟨d,hd,?_,hholds⟩
    rw [huuid]
    exact hhits.2

/-- An attachment is renewed exactly if the request covers it. -/
theorem attachment_renewed_iff (haccepted : (items data).all (accepts settings db user)=true) (a : Attachment) :
    (∃ d∈personalItems data,d.id=some ((written settings db user (items data)).attachment.1 a).cipherUuid ∧
      ∃ e∈d.attachments2.getD [],SealedBy ((written settings db user (items data)).attachment.1 a) e) ↔
      Covered db.attachments data a := by
  rcases attachment_written haccepted a with ⟨i,hi,hhits,hholds⟩|⟨hnone,hsame⟩
  · rcases item_cases hi with ⟨d,-,id,-,rfl⟩|⟨d,-,rfl⟩|⟨d,-,rfl⟩|⟨d,-,rfl⟩|⟨d,hd,rfl⟩
    · exact hhits.elim
    · exact hhits.elim
    · exact hhits.elim
    · exact hhits.elim
    · exact iff_of_true ⟨d,hd,hholds⟩ ⟨d,hd,hhits.1,.inl hhits.2⟩
  · rw [hsame]
    constructor
    · rintro ⟨d,hd,hid,hsealed⟩
      exact ⟨d,hd,hid,.inr hsealed⟩
    · rintro ⟨d,hd,hid,hreached|hsealed⟩
      · exact absurd ⟨hid,hreached⟩ (hnone (.cipher d) (mem_cipherItems hd))
      · exact ⟨d,hd,hid,hsealed⟩

/-- Whose attachment it is stays. -/
theorem personal_iff (hwritten : Rewritten (written settings db user (items data)) db db₁) (a : Attachment) :
    personal db₁.toTables user ((written settings db user (items data)).attachment.1 a) ↔
      personal db.toTables user a := by
  obtain ⟨-,hcipher⟩ := attachment_core ((written settings db user (items data)).attachment.2 a)
  unfold personal
  rw [hcipher]
  constructor
  · rintro ⟨c,hc,hown,hid⟩
    obtain ⟨c₀,hc₀,rfl⟩ := (hwritten.ciphers c).mp hc
    obtain ⟨huuid,howns⟩ := cipher_core user ((written settings db user (items data)).cipher.2 c₀)
    exact ⟨c₀,hc₀,howns.symm.trans hown,huuid.symm.trans hid⟩
  · rintro ⟨c₀,hc₀,hown,hid⟩
    obtain ⟨huuid,howns⟩ := cipher_core user ((written settings db user (items data)).cipher.2 c₀)
    exact ⟨_,hwritten.ciphers.mem hc₀,howns.trans hown,huuid.trans hid⟩

/-- A completed rotation has renewed everything exactly if it covers all
attachments. -/
theorem renewed_iff {db' : Database} (hu : u∈db.users) (hvalidated : validated settings db u data=true)
    (haccepted : (items data).all (accepts settings db u.uuid)=true)
    (hwritten : Rewritten (written settings db u.uuid (items data)) db db₁)
    (hrest : ∃ stamp devices n,db'.toTables={db₁.toTables with
      devices := devices, next := n, users := put User.uuid (rotated settings u data stamp) db₁.users}) :
    Renewed settings u.uuid data db'.toTables ↔
      ∀ a∈db.attachments,personal db.toTables u.uuid a → Covered db.attachments data a := by
  obtain ⟨stamp,devices,n,hrest⟩ := hrest
  rw [validated,Bool.and_eq_true] at hvalidated
  have hnames := names_of_valid hvalidated.2
  have hattachments : (∀ a∈db₁.attachments,personal db₁.toTables u.uuid a →
      ∃ d∈personalItems data,d.id=some a.cipherUuid ∧ ∃ e∈d.attachments2.getD [],SealedBy a e) ↔
        ∀ a∈db.attachments,personal db.toTables u.uuid a → Covered db.attachments data a := by
    constructor
    · intro h a ha hown
      rw [← attachment_renewed_iff haccepted]
      exact h _ (hwritten.attachments.mem ha) ((personal_iff hwritten a).mpr hown)
    · intro h a ha hown
      obtain ⟨a₀,ha₀,rfl⟩ := (hwritten.attachments a).mp ha
      exact (attachment_renewed_iff haccepted a₀).mpr (h a₀ ha₀ ((personal_iff hwritten a₀).mp hown))
  rw [← hattachments,hrest]
  constructor
  · exact fun h => h.attachments
  · refine fun h => ⟨ciphers_renewed haccepted hwritten hnames.ciphers,h,
      folders_renewed haccepted hwritten hnames.folders,sends_renewed haccepted hwritten hnames.sends,
      emergencyAccess_renewed haccepted hwritten hnames.emergencyAccess,
      members_renewed haccepted hwritten hnames.members,fun v hv huuid => ?_⟩
    rcases mem_put.mp hv with rfl|⟨-,hne⟩
    · exact ⟨rfl,rfl⟩
    · exact absurd huuid hne

end Completed

variable {settings : RotationSettings} {db : Database} {caller : Uuid} {data : KeyData}

/-- A rotation that succeeds leaves nothing under the old key. -/
def CompleteRotation (settings : RotationSettings) (db : Database) (caller : Uuid) (data : KeyData) : Prop :=
  (complete (postRotatekey settings caller data) db).1=.ok () →
    Renewed settings caller data (complete (postRotatekey settings caller data) db).2.toTables

/-- A rotation that succeeds leaves nothing under the old key exactly if its
request covers all attachments of personal ciphers. -/
theorem rotation_complete_iff : CompleteRotation settings db caller data ↔ ∀ u∈db.users,u.uuid=caller →
    validated settings db u data=true → passes settings db u data=true →
      ∀ a∈db.attachments,personal db.toTables caller a → Covered db.attachments data a := by
  have houtcome : Outcome settings db caller data (complete (postRotatekey settings caller data) db).1
      (complete (postRotatekey settings caller data) db).2 := ends_postRotatekey
  unfold CompleteRotation
  generalize complete (postRotatekey settings caller data) db=ended at houtcome ⊢
  obtain ⟨r,db'⟩ := ended
  have hfailed : ∀ e : String,(Except.error e : Except String Unit)≠.ok () := nofun
  cases houtcome with
  | turnedAway e h =>
    refine iff_of_true (fun he => absurd he (hfailed e)) fun u hu hcaller hvalidated => ?_
    exact absurd hvalidated (Bool.eq_false_iff.mp (h u hu hcaller))
  | stopped e db' db₁ u hu hcaller hvalidated hfails hwritten hrest =>
    refine iff_of_true (fun he => absurd he (hfailed e)) fun v hv hv' _ hpasses => ?_
    rw [eq_of_key db.user_nodup hv hu (hv'.trans hcaller.symm),hfails] at hpasses
    cases hpasses
  | completed db' db₁ u hu hcaller hvalidated hpasses hwritten hrest =>
    have haccepted := hpasses
    rw [passes,Bool.and_eq_true] at haccepted
    have hrenewed := renewed_iff hu hvalidated haccepted.1 hwritten hrest
    rw [hcaller] at hrenewed
    constructor
    · exact fun h v hv hv' _ _ => hrenewed.mp (h rfl)
    · exact fun h _ => hrenewed.mpr (h u hu hcaller hvalidated hpasses)

section Samples

/-- An account with one cipher, which has an attachment. -/
def oneAttachment : Database := ⟨{Tables.none with
  users := [{User.new 1 0 [] 600000 ['a'] none with publicKey := some ['p']}]
  ciphers := [{ServerTables.Cipher.new 2 0 1 ['c'] with userUuid := some 1}]
  attachments := [⟨3,2,['f'],0,some ['o']⟩]
  next := 4},by decide⟩

/-- The cipher, without its attachment. -/
def bareCipher : CipherData := ⟨some 2,none,none,some ['k'],1,['n'],none,none,some (.object []),none,none,none,none,none,
  none,none,none,none⟩

/-- A request for the cipher. -/
def withoutAttachment : KeyData where
  accountUnlockData := ⟨[],⟨User.CLIENT_KDF_DEFAULT,['a'],['h'],['w']⟩,[]⟩
  accountKeys := ⟨['r'],['p']⟩
  accountData := ⟨[bareCipher],[],[]⟩
  oldMasterKeyAuthenticationHash := []

/-- The rotation succeeds, and the attachment has its old key. -/
theorem attachment_forgotten : ¬CompleteRotation RotationAtomicity.plainSettings oneAttachment 1 withoutAttachment := by
  intro h
  have hrenewed := h (by decide)
  have hcipher : personal (complete (postRotatekey RotationAtomicity.plainSettings 1 withoutAttachment)
      oneAttachment).2.toTables 1 ⟨3,2,['f'],0,some ['o']⟩ :=
    ⟨_,List.mem_of_getElem? (i:=0) rfl,by decide,by decide⟩
  obtain ⟨d,hd,-,e,he,-⟩ := hrenewed.attachments ⟨3,2,['f'],0,some ['o']⟩ (by decide) hcipher
  have hbare : d=bareCipher := by simpa [personalItems,withoutAttachment,bareCipher] using hd
  rw [hbare] at he
  cases he

end Samples

end NadSafe.RotationCompleteness
