import NadSafe.AttachmentSizes
import NadSafe.StepRuns

/-!
# The attachments of a user stay within the limit

Every upload that is admitted brings the rows below the limit, unless their
sum is no `i64`: then the largest `i64` takes its place, and the size of a
declared attachment is given back in full. Its file may then be uploaded if
the limit ends within the leeway of the largest `i64`, and only then.
-/

namespace NadSafe.AttachmentQuota

open HostText TableRows RowTotals AsyncScript ServerTables AccessQueries StoreScript ServerModels OrgHandlers
open CipherHandlers SecondFactors PlannedScript TableWrites FactorRows PartScript FileDepot AttachmentStorage
open AttachmentSizes StepRuns

variable {settings : StorageSettings} {user : Uuid} {limit : ℤ}

section Limits

/-- The limit keeps a distance from the largest `i64`, or is above it. -/
def Ample (limit : ℤ) : Prop := 1024*limit+LEEWAY<I64_MAX ∨ I64_MAX<1024*limit

instance (limit : ℤ) : Decidable (Ample limit) := inferInstanceAs (Decidable (_ ∨ _))

theorem leftOf_eq_some_iff {used adjust left : ℤ} : leftOf limit used adjust=some left ↔
    (-9223372036854775808≤limit*1024 ∧ limit*1024≤I64_MAX) ∧
    (-9223372036854775808≤limit*1024-used ∧ limit*1024-used≤I64_MAX) ∧
    (-9223372036854775808≤limit*1024-used+adjust ∧ limit*1024-used+adjust≤I64_MAX) ∧
    left=limit*1024-used+adjust := by
  unfold leftOf checkedMul checkedSub checkedAdd
  simp only [Option.bind_eq_some_iff,toI64_eq_some_iff]
  constructor
  · intro h
    obtain ⟨b,⟨a,⟨rfl,ha⟩,rfl,hb⟩,rfl,hc⟩ := h
    exact ⟨ha,hb,hc,rfl⟩
  · intro h
    obtain ⟨ha,hb,hc,rfl⟩ := h
    exact ⟨_,⟨_,⟨rfl,ha⟩,rfl,hb⟩,rfl,hc⟩

/-- The sum, or the largest `i64`. -/
theorem saturated {n : ℤ} (h : 0≤n) : n≤I64_MAX ∧ (toI64 n).getD I64_MAX=n ∨
    I64_MAX<n ∧ (toI64 n).getD I64_MAX=I64_MAX := by
  by_cases hfits : n≤I64_MAX
  · have hsome : toI64 n=some n := toI64_eq_some_iff.mpr ⟨rfl,by omega,hfits⟩
    refine .inl ⟨hfits,?_⟩
    rw [hsome]
    rfl
  · have hnone : toI64 n=none := by
      refine Option.eq_none_iff_forall_ne_some.mpr fun m hm => hfits ?_
      exact (toI64_eq_some_iff.mp hm).2.2
    refine .inr ⟨by omega,?_⟩
    rw [hnone]
    rfl

/-- A new file that fits keeps the sum below the limit. -/
theorem fits_new {n size : ℤ} (hn : 0≤n) (h : Fits (some limit) ((toI64 n).getD I64_MAX) 0 size) :
    n+size≤1024*limit := by
  obtain ⟨_,left,hleft,hpos,hle⟩ := h limit rfl
  obtain ⟨hmul,_,_,hval⟩ := (leftOf_eq_some_iff).mp hleft
  have hused := saturated hn
  omega

/-- A declared file that fits does so too, if the limit is ample. -/
theorem fits_old {n size old : ℤ} (hn : 0≤n) (hample : Ample limit) (hsize : old-LEEWAY≤ size)
    (h : Fits (some limit) ((toI64 n).getD I64_MAX) old size) : n-old+size≤1024*limit := by
  obtain ⟨_,left,hleft,hpos,hle⟩ := h limit rfl
  obtain ⟨hmul,_,_,hval⟩ := (leftOf_eq_some_iff).mp hleft
  have hused := saturated hn
  unfold Ample at hample
  omega

end Limits

section Uploads

variable {d : Depot Path} {P : Except String Unit → Depot Path → Prop}

/-- The measured size is within the leeway of the declared one. -/
def Near (a : Attachment) (size : ℤ) : Prop :=
  a.fileSize+LEEWAY≤I64_MAX ∧ -9223372036854775808≤a.fileSize-LEEWAY ∧
    a.fileSize-LEEWAY≤ size ∧ size≤a.fileSize+LEEWAY

/-- Accounts and ciphers are the same. -/
def SameVault (d d' : Depot Path) : Prop :=
  d'.database.users=d.database.users ∧ d'.database.ciphers=d.database.ciphers

theorem SameVault.trans {d' d'' : Depot Path} (h : SameVault d d') (h' : SameVault d' d'') : SameVault d d'' :=
  ⟨h'.1.trans h.1,h'.2.trans h.2⟩

/-- The row is accepted: its cipher exists. -/
theorem ends_saved {db : Database} {a : Attachment} (hdrawn : a.id<db.next)
    (hcipher : ∃ c∈db.ciphers,c.uuid=a.cipherUuid) : Ends (saved (Attachment.save a)) db fun r db' => r=.ok () ∧
      db'.users=db.users ∧ db'.ciphers=db.ciphers ∧ db'.attachments=put Attachment.id a db.attachments := by
  have hsave : Ends (Attachment.save a) db fun r db' => r=.ok () ∧
      db'.users=db.users ∧ db'.ciphers=db.ciphers ∧ db'.attachments=put Attachment.id a db.attachments :=
    ends_update_done (valid_attachment db.valid hdrawn hcipher) ⟨rfl,rfl,rfl,rfl⟩
  refine hsave.rescue (fun _ _ hs => hs) fun e db' hs => ?_
  cases hs.1

/-- What an upload stores. -/
structure Stores (d : Depot Path) (a : Attachment) (n : ℕ) (d' : Depot Path) : Prop where
  /-- Accounts and ciphers are the same. -/
  vault : SameVault d d'
  /-- The row has the measured size. -/
  row : Recorded a d.database.attachments d'.database.attachments
  /-- The file is there. -/
  file : d'.files=put Prod.fst (Attachment.getFilePath a,n) d.files
  /-- They agree. -/
  size : a.fileSize=n
  /-- The size is an `i64`. -/
  bound : a.fileSize≤I64_MAX

/-- What a request leaves that stores nothing. -/
structure Untouched (d d' : Depot Path) : Prop where
  /-- Accounts and ciphers are the same. -/
  vault : SameVault d d'
  /-- So are the rows. -/
  row : d'.database.attachments=d.database.attachments
  /-- And the files. -/
  file : d'.files=d.files

theorem Untouched.refl (d : Depot Path) : Untouched d d := ⟨⟨rfl,rfl⟩,rfl,rfl⟩

/-- A row for a file that was not declared. -/
theorem ends_createAttachment {db : Database} {cipherId : Uuid} {data : UploadData} {size : ℤ}
    (hcipher : ∃ c∈db.ciphers,c.uuid=cipherId) :
    Ends (createAttachment cipherId data size) db fun r db' =>
      db'.users=db.users ∧ db'.ciphers=db.ciphers ∧
      ((∃ fileName,data.fileName=some fileName ∧ data.key.isSome=true ∧ r=.ok db.next ∧
        db'.attachments=put Attachment.id ⟨db.next,cipherId,fileName,size,data.key⟩ db.attachments) ∨
      (data.fileName=none ∨ data.key=none) ∧ (∃ e,r=.error e) ∧ db'.attachments=db.attachments) := by
  unfold createAttachment
  refine ends_getUuid ?_
  refine Ends.expect (fun fileName hname => ?_) fun hnone => ⟨rfl,rfl,.inr ⟨.inl hnone,⟨_,rfl⟩,rfl⟩⟩
  refine Ends.ensure (fun hkey => ?_) fun hkey => ?_
  · refine (ends_saved (Nat.lt_succ_self _) hcipher).bind (fun _ db' ⟨_,husers,hciphers,hrow⟩ => ?_)
      fun e db' ⟨he,_⟩ => ?_
    · exact ⟨husers,hciphers,.inl ⟨fileName,hname,hkey,rfl,hrow⟩⟩
    · cases he
  · refine ⟨rfl,rfl,.inr ⟨.inr ?_,⟨_,rfl⟩,rfl⟩⟩
    cases hk : data.key with
    | none => rfl
    | some k =>
      rw [hk] at hkey
      cases hkey

/-- A file that was not declared is stored exactly if it is admitted and has a
name and a key. -/
theorem ends_newUpload {caller cipherId : Uuid} {data : UploadData} :
    Ends (saveAttachment settings caller none cipherId data) d fun r d' =>
      (∃ c size fileName,Admitted settings d.database.toTables caller cipherId data.length 0 c size ∧
        data.fileName=some fileName ∧ data.key.isSome=true ∧ r=.ok c ∧
        Stores d ⟨d.database.next,cipherId,fileName,size,data.key⟩ data.length d') ∨
      (∀ c size,Admitted settings d.database.toTables caller cipherId data.length 0 c size →
        data.fileName=none ∨ data.key=none) ∧ (∃ e,r=.error e) ∧ Untouched d d' := by
  unfold saveAttachment
  refine ends_inDatabase_bind ends_admitUpload (fun r db ⟨hdb,hadmitted⟩ => ?_) fun e db ⟨hdb,hadmitted⟩ => ?_
  · subst hdb
    obtain ⟨c,size⟩ := r
    have hadm := (hadmitted c size).mp rfl
    have hcipher : ∃ c∈d.database.ciphers,c.uuid=cipherId := by
      have hkey := List.find?_some hadm.found
      rw [decide_eq_true_eq] at hkey
      exact ⟨c,List.mem_of_find?_eq_some hadm.found,hkey⟩
    refine ends_inDatabase_bind (ends_createAttachment hcipher) (fun id db ⟨husers,hciphers,h⟩ => ?_)
      fun e db ⟨husers,hciphers,h⟩ => ?_
    · obtain ⟨fileName,hname,hkey,hid,hrow⟩|⟨_,⟨e,he⟩,_⟩ := h
      · cases hid
        refine ends_saveTempFile ?_
        exact .inl ⟨c,size,fileName,hadm,hname,hkey,rfl,⟨husers,hciphers⟩,.inl hrow,rfl,hadm.measured,hadm.bound⟩
      · cases he
    · obtain ⟨_,_,_,he,_⟩|⟨hmissing,_,hrow⟩ := h
      · cases he
      · exact .inr ⟨fun _ _ _ => hmissing,⟨e,rfl⟩,⟨husers,hciphers⟩,hrow,rfl⟩
  · subst hdb
    refine .inr ⟨fun c size hadm => ?_,⟨e,rfl⟩,.refl d⟩
    cases (hadmitted c size).mpr hadm

/-- A row and its file are gone. -/
structure Removes (d : Depot Path) (a : Attachment) (d' : Depot Path) : Prop where
  /-- Accounts and ciphers are the same. -/
  vault : SameVault d d'
  /-- The row is gone. -/
  row : d'.database.attachments=d.database.attachments.filter fun b => b.id≠a.id
  /-- And the file. -/
  file : d'.files=d.files.filter fun f => !decide (f.1=Attachment.getFilePath a)

theorem ends_delete {a : Attachment} :
    Ends (Attachment.delete a) d fun r d' => r=.ok () ∧ Removes d a d' := by
  unfold Attachment.delete
  have hrow : Ends (update "Error deleting attachment" fun t =>
      {t with attachments := t.attachments.filter fun b => b.id≠a.id}) d.database fun r db => r=.ok () ∧
      db.users=d.database.users ∧ db.ciphers=d.database.ciphers ∧
      db.attachments=d.database.attachments.filter fun b => b.id≠a.id :=
    ends_update_done (valid_removeAttachments d.database.valid) ⟨rfl,rfl,rfl,rfl⟩
  refine ends_inDatabase_bind hrow (fun _ db ⟨_,husers,hciphers,hrows⟩ => ?_) fun e db ⟨he,_⟩ => ?_
  · exact ends_deleteFiles ⟨rfl,⟨husers,hciphers⟩,hrows,rfl⟩
  · cases he

/-- The cipher of an attachment. -/
theorem cipher_of_attachment {db : Database} {a : Attachment} (ha : a∈db.attachments) :
    ∃ c∈db.ciphers,c.uuid=a.cipherUuid := db.valid.2.1.2.2.2.2.2.2.2.2.2.2.2.2.2.2.2.2.1 a ha

/-- The size of a declared attachment is corrected, or it is removed. -/
theorem ends_measureAttachment {a : Attachment} {size : ℤ} (ha : a∈d.database.attachments) :
    Ends (measureAttachment a size) d fun r d' =>
      Near a size ∧ r=.ok a.id ∧ SameVault d d' ∧ d'.files=d.files ∧
        Recorded {a with fileSize := size} d.database.attachments d'.database.attachments ∨
      ¬Near a size ∧ (∃ e,r=.error e) ∧ (Untouched d d' ∨ Removes d a d') := by
  unfold measureAttachment
  refine Ends.expect (fun maxSize hmax => ?_) fun hmax => ?_
  · obtain ⟨rfl,_,hupper⟩ := toI64_eq_some_iff.mp hmax
    refine Ends.expect (fun minSize hmin => ?_) fun hmin => ?_
    · obtain ⟨rfl,hlower,_⟩ := toI64_eq_some_iff.mp hmin
      by_cases hnear : a.fileSize-LEEWAY≤ size ∧ size≤a.fileSize+LEEWAY
      · rw [if_pos hnear]
        by_cases hsize : size=a.fileSize
        · rw [if_neg (not_not_intro hsize)]
          refine .inl ⟨⟨hupper,hlower,hnear⟩,rfl,⟨rfl,rfl⟩,rfl,.inr ⟨?_,rfl⟩⟩
          rw [hsize]
          exact ha
        · rw [if_pos hsize]
          have hcipher : ∃ c∈d.database.ciphers,c.uuid=a.cipherUuid := cipher_of_attachment ha
          have hrow := ends_saved (a:={a with fileSize := size}) (attachment_drawn a ha) hcipher
          refine ends_inDatabase_bind hrow (fun _ db ⟨_,husers,hciphers,hrows⟩ => ?_) fun e db ⟨he,_⟩ => ?_
          · exact .inl ⟨⟨hupper,hlower,hnear⟩,rfl,⟨husers,hciphers⟩,rfl,.inl hrows⟩
          · cases he
      · rw [if_neg hnear]
        have hdropped : Ends (ok (Attachment.delete a)) d fun _ d' => Removes d a d' :=
          Ends.rescue ends_delete (fun _ _ h => h.2) fun _ _ h => h.2
        refine hdropped.bind (fun _ d' h => ?_) fun e d' h => ?_
        · exact .inr ⟨fun hn => hnear hn.2.2,⟨_,rfl⟩,.inr h⟩
        · exact .inr ⟨fun hn => hnear hn.2.2,⟨_,rfl⟩,.inr h⟩
    · refine .inr ⟨fun hn => toI64_eq_none_iff.mp hmin ?_,⟨_,rfl⟩,.inl (.refl d)⟩
      have hleeway : (0 : ℤ)≤LEEWAY := by decide
      exact ⟨hn.2.1,by omega⟩
  · refine .inr ⟨fun hn => toI64_eq_none_iff.mp hmax ?_,⟨_,rfl⟩,.inl (.refl d)⟩
    have hleeway : (0 : ℤ)≤LEEWAY := by decide
    have hlower := hn.2.1
    exact ⟨by omega,hn.1⟩

/-- The file of a declared attachment is stored exactly if it is admitted with
the declared size given back, and is near that size. -/
theorem ends_oldUpload {caller : Uuid} {a : Attachment} {data : UploadData} (ha : a∈d.database.attachments) :
    Ends (saveAttachment settings caller (some a) a.cipherUuid data) d fun r d' =>
      (∃ c size,Admitted settings d.database.toTables caller a.cipherUuid data.length a.fileSize c size ∧
        Near a size ∧ r=.ok c ∧ Stores d {a with fileSize := size} data.length d') ∨
      (∀ c size,Admitted settings d.database.toTables caller a.cipherUuid data.length a.fileSize c size → ¬Near a size) ∧
        (∃ e,r=.error e) ∧ (Untouched d d' ∨ Removes d a d') := by
  unfold saveAttachment
  refine ends_inDatabase_bind ends_admitUpload (fun r db ⟨hdb,hadmitted⟩ => ?_) fun e db ⟨hdb,hadmitted⟩ => ?_
  · subst hdb
    obtain ⟨c,size⟩ := r
    have hadm := (hadmitted c size).mp rfl
    refine (ends_measureAttachment ha).bind (fun id d' h => ?_) fun e d' h => ?_
    · obtain ⟨hnear,hid,hvault,hfiles,hrow⟩|⟨_,⟨e,he⟩,_⟩ := h
      · cases hid
        refine ends_saveTempFile ?_
        refine .inl ⟨c,size,hadm,hnear,rfl,hvault,hrow,?_,hadm.measured,hadm.bound⟩
        show put Prod.fst _ d'.files=_
        rw [hfiles]
        rfl
      · cases he
    · obtain ⟨_,he,_⟩|⟨hfar,_,hleft⟩ := h
      · cases he
      · refine .inr ⟨fun c' size' hadm' => ?_,⟨e,rfl⟩,hleft⟩
        have hsize : size'=size := hadm'.measured.trans hadm.measured.symm
        rw [hsize]
        exact hfar
  · subst hdb
    refine .inr ⟨fun c size hadm => ?_,⟨e,rfl⟩,.inl (.refl d)⟩
    cases (hadmitted c size).mpr hadm

end Uploads

section Requests

variable {d d' : Depot Path} {a : Attachment} {n : ℕ}

/-- A stored file keeps files and rows together. -/
theorem Stores.backed (h : Stores d a n d') (hback : Backed user d)
    (hsame : ∀ b∈d.database.attachments,b.id=a.id → b.cipherUuid=a.cipherUuid) : Backed user d' :=
  hback.store h.vault.2 h.row hsame h.file h.size h.bound

/-- A file of a cipher that is not personal takes none of the storage. -/
theorem Stores.other (h : Stores d a n d') (hother : personal d.database.toTables user a.cipherUuid=false) :
    stored d' user≤ stored d user := by
  have hzero : diskSize d.database.toTables user (Attachment.getFilePath a,n)=0 := by
    rw [diskSize,Attachment.getFilePath,hother]
    rfl
  have hrest : total (diskSize d.database.toTables user)
      (d.files.filter fun f => f.1≠(Attachment.getFilePath a,n).1)≤total (diskSize d.database.toTables user) d.files :=
    total_filter_le fun f _ => diskSize_nonneg
  unfold stored
  rw [h.file,diskSize_congr h.vault.2,put,total_append,total_cons,total_nil,hzero]
  omega

/-- A file that was not declared. -/
theorem consistent_new {caller : Uuid} {c : Cipher} {size : ℤ} {fileName : Text} {key : Option Text}
    {cipherId : Uuid} (h : Consistent limit user d) (hlimit : settings.userAttachmentLimit=some limit)
    (hadm : Admitted settings d.database.toTables caller cipherId n 0 c size)
    (hs : Stores d ⟨d.database.next,cipherId,fileName,size,key⟩ n d') : Consistent limit user d' := by
  have hnew : ∀ b∈d.database.attachments,b.id≠d.database.next := by
    intro b hb hid
    have hdrawn := attachment_drawn b hb
    rw [hid] at hdrawn
    exact Nat.lt_irrefl _ hdrawn
  have hback : Backed user d' := hs.backed h.toBacked fun b hb hid => absurd hid (hnew b hb)
  refine ⟨hback,?_⟩
  cases hown : personal d.database.toTables user cipherId with
  | false => exact Int.le_trans (hs.other hown) h.quota
  | true =>
    have hfits := hadm.fits hown
    rw [hlimit] at hfits
    have hbound := fits_new h.declared_nonneg hfits
    have hrows : declared d'.database.toTables user=declared d.database.toTables user+size := by
      unfold declared
      rw [rowSize_congr hs.vault.2]
      rcases hs.row with hrow|⟨hmem,_⟩
      · rw [hrow,total_put_new hnew,rowSize,hown]
        rfl
      · exact absurd rfl (hnew _ hmem)
    have hle := hback.stored_le
    omega

/-- The file of a declared attachment. -/
theorem consistent_old {caller : Uuid} {c : Cipher} {size : ℤ} (h : Consistent limit user d)
    (hlimit : settings.userAttachmentLimit=some limit) (hample : Ample limit) (ha : a∈d.database.attachments)
    (hadm : Admitted settings d.database.toTables caller a.cipherUuid n a.fileSize c size) (hnear : Near a size)
    (hs : Stores d {a with fileSize := size} n d') : Consistent limit user d' := by
  have hsame : ∀ b∈d.database.attachments,b.id=a.id → b.cipherUuid=a.cipherUuid := by
    intro b hb hid
    rw [eq_of_key d.database.attachment_nodup hb ha hid]
  have hback : Backed user d' := hs.backed h.toBacked hsame
  refine ⟨hback,?_⟩
  cases hown : personal d.database.toTables user a.cipherUuid with
  | false => exact Int.le_trans (hs.other hown) h.quota
  | true =>
    have hfits := hadm.fits hown
    rw [hlimit] at hfits
    have hbound := fits_old h.declared_nonneg hample hnear.2.2.1 hfits
    have hrows : declared d'.database.toTables user=declared d.database.toTables user-a.fileSize+size := by
      unfold declared
      rw [rowSize_congr hs.vault.2,total_recorded d.database.attachment_nodup hs.row ha rfl,rowSize,rowSize,hown]
      rfl
    have hle := hback.stored_le
    omega

theorem Untouched.consistent (h : Untouched d d') (hc : Consistent limit user d) : Consistent limit user d' :=
  hc.congr h.vault.2 h.row h.file

theorem Removes.consistent (h : Removes d a d') (hc : Consistent limit user d) (ha : a∈d.database.attachments) :
    Consistent limit user d' := hc.remove ha h.vault.2 h.row h.file

/-- A guard of a request leaves the state. -/
theorem ends_caller_depot {caller : Uuid} {α : Type} {g : User → Handler (Depot Path) String α}
    {P : Except String α → Depot Path → Prop} (hfound : ∀ u∈d.database.users,u.uuid=caller → Ends (g u) d P)
    (hnone : P (.error "Device has no user associated") d) : Ends ((inDatabase (headers caller)).bind g) d P := by
  refine ends_inDatabase_bind CipherUpdates.ends_guard (fun u db ⟨hdb,h⟩ => ?_) fun e db ⟨hdb,h⟩ => ?_
  · subst hdb
    obtain he|⟨v,hv,hkey,he⟩ := h
    · cases he
    · cases he
      exact hfound u hv hkey
  · subst hdb
    obtain he|⟨v,_,_,he⟩ := h
    · cases he
      exact hnone
    · cases he

/-- An account passes the guard. -/
theorem ends_account_depot {u : User} {α : Type} {g : User → Handler (Depot Path) String α}
    {P : Except String α → Depot Path → Prop} (hu : u∈d.database.users) (h : Ends (g u) d P) :
    Ends ((inDatabase (headers u.uuid)).bind g) d P := by
  refine ends_inDatabase_bind (CipherUpdates.ends_guard_account hu) (fun v db ⟨hdb,he⟩ => ?_) fun e db ⟨_,he⟩ => ?_
  · subst hdb
    cases he
    exact h
  · cases he

/-- The response to a request changes nothing. -/
theorem ends_response {c : Cipher} {P : Except String Unit → Depot Path → Prop} (h : ∀ r,P r d) :
    Ends (inDatabase (Cipher.toJson c)) d P := by
  refine ends_inDatabase (CipherLinks.ends_toJson.mono fun r db hr => ?_)
  obtain ⟨rfl,_⟩ := hr
  exact h r

/-- A declared size is a non-negative `i64`. -/
theorem intoI64_le {n : NumberOrString} {size : ℤ} (hsized : NumberOrString.isI64 n=true)
    (h : NumberOrString.intoI64 n=.ok size) : size≤I64_MAX := by
  cases n with
  | number m =>
    cases h
    exact (of_decide_eq_true hsized).2
  | string s =>
    cases hparsed : (parseInt? s).bind toI64 with
    | none =>
      simp only [NumberOrString.intoI64,hparsed] at h
      cases h
    | some m =>
      simp only [NumberOrString.intoI64,hparsed] at h
      cases h
      obtain ⟨k,_,hk⟩ := Option.bind_eq_some_iff.mp hparsed
      obtain ⟨rfl,_,hle⟩ := toI64_eq_some_iff.mp hk
      exact hle

/-- A declared attachment has a row, and no file. -/
theorem keeps_postAttachmentV2 {caller cipherId : Uuid} {data : AttachmentRequestData} (h : Consistent limit user d) :
    Ends (inDatabase (postAttachmentV2 settings caller cipherId data)) d fun _ d' => Consistent limit user d' := by
  refine ends_inDatabase ?_
  unfold postAttachmentV2
  refine ends_headers (fun u _ _ => ?_) h
  refine ends_lookup ?_
  refine Ends.expect (fun c hc => ?_) fun _ => h
  refine ends_lookup ?_
  refine Ends.ensure (fun _ => ?_) fun _ => h
  refine ends_fromExcept (fun size hsize => ?_) fun _ _ => h
  refine Ends.ensure (fun hpos => ?_) fun _ => h
  refine ends_getUuid ?_
  have hdrawn : d.database.next< d.database.drawn.next := Nat.lt_succ_self _
  have hsaved := ends_saved (a:=⟨d.database.next,c.uuid,data.fileName,size,some data.key⟩) hdrawn
    ⟨c,List.mem_of_find?_eq_some hc,rfl⟩
  refine hsaved.bind (fun _ db ⟨_,_,hciphers,hrow⟩ => ?_) fun e db ⟨he,_⟩ => ?_
  · refine CipherLinks.ends_toJson.mono fun r db' ⟨hdb,_⟩ => ?_
    subst hdb
    have hnew : ∀ b∈d.database.attachments,b.id≠d.database.next := by
      intro b hb hid
      have hdrawn := attachment_drawn b hb
      rw [hid] at hdrawn
      exact Nat.lt_irrefl _ hdrawn
    refine ⟨h.toBacked.declare hciphers hrow hnew rfl ⟨of_decide_eq_true hpos,intoI64_le data.sized hsize⟩,?_⟩
    show total (diskSize db'.toTables user) d.files≤1024*limit
    rw [diskSize_congr (t:=d.database.toTables) hciphers]
    exact h.quota
  · cases he

/-- The file of a declared attachment. -/
theorem keeps_postAttachmentV2Data {caller cipherId attachmentId : Uuid} {data : UploadData}
    (hlimit : settings.userAttachmentLimit=some limit) (hample : Ample limit) (h : Consistent limit user d) :
    Ends (postAttachmentV2Data settings caller cipherId attachmentId data) d
      fun _ d' => Consistent limit user d' := by
  unfold postAttachmentV2Data
  refine ends_caller_depot (fun u _ _ => ?_) h
  have hfound : Ends (findForCipher cipherId attachmentId) d.database fun r db => db=d.database ∧
      ∀ a,r=.ok a → a∈d.database.attachments ∧ a.cipherUuid=cipherId := by
    unfold findForCipher
    refine ends_lookup ?_
    refine Ends.expect (fun a ha => ?_) fun _ => ⟨rfl,fun a he => ?_⟩
    · refine Ends.ensure (fun heq => ⟨rfl,fun a he => ?_⟩) fun _ => ⟨rfl,fun a he => ?_⟩
      · cases he
        exact ⟨List.mem_of_find?_eq_some ha,(of_decide_eq_true heq).symm⟩
      · cases he
    · cases he
  refine ends_inDatabase_bind hfound (fun a db ⟨hdb,hok⟩ => ?_) fun e db ⟨hdb,_⟩ => ?_
  · subst hdb
    obtain ⟨ha,rfl⟩ := hok a rfl
    refine (ends_oldUpload ha).bind (fun c d' hup => ?_) fun e d' hup => ?_
    all_goals
      obtain ⟨_,_,hadm,hnear,_,hs⟩|⟨_,_,hleft|hleft⟩ := hup
      · exact consistent_old h hlimit hample ha hadm hnear hs
      · exact hleft.consistent h
      · exact hleft.consistent h ha
  · subst hdb
    exact h

/-- A file without a declaration. -/
theorem keeps_postAttachment {caller cipherId : Uuid} {data : UploadData}
    (hlimit : settings.userAttachmentLimit=some limit) (h : Consistent limit user d) :
    Ends (postAttachment settings caller cipherId data) d fun _ d' => Consistent limit user d' := by
  unfold postAttachment
  refine ends_caller_depot (fun u _ _ => ?_) h
  refine ends_newUpload.bind (fun c d' hup => ?_) fun e d' hup => ?_
  · refine ends_response fun r => ?_
    obtain ⟨_,_,_,hadm,_,_,_,hs⟩|⟨_,_,hleft⟩ := hup
    · exact consistent_new h hlimit hadm hs
    · exact hleft.consistent h
  · obtain ⟨_,_,_,hadm,_,_,_,hs⟩|⟨_,_,hleft⟩ := hup
    · exact consistent_new h hlimit hadm hs
    · exact hleft.consistent h

/-- A removed attachment. -/
theorem keeps_deleteAttachment {caller cipherId attachmentId : Uuid} (h : Consistent limit user d) :
    Ends (deleteAttachment settings caller cipherId attachmentId) d fun _ d' => Consistent limit user d' := by
  unfold deleteAttachment
  have hfound : Ends (findForDelete settings caller cipherId attachmentId) d.database fun r db => db=d.database ∧
      ∀ a c,r=.ok (a,c) → a∈d.database.attachments := by
    have hrefused : ∀ e,d.database=d.database ∧
        ∀ a c,(.error e : Except String (Attachment×Cipher))=.ok (a,c) → a∈d.database.attachments := by
      refine fun e => ⟨rfl,fun a c he => ?_⟩
      cases he
    unfold findForDelete
    refine ends_headers (fun u _ _ => ?_) (hrefused _)
    refine ends_lookup ?_
    refine Ends.expect (fun a ha => ?_) fun _ => hrefused _
    refine Ends.ensure (fun _ => ?_) fun _ => hrefused _
    refine ends_lookup ?_
    refine Ends.expect (fun c _ => ?_) fun _ => hrefused _
    refine ends_lookup ?_
    refine Ends.ensure (fun _ => ⟨rfl,fun a' c' he => ?_⟩) fun _ => hrefused _
    cases he
    exact List.mem_of_find?_eq_some ha
  refine ends_inDatabase_bind hfound (fun r db ⟨hdb,hok⟩ => ?_) fun e db ⟨hdb,_⟩ => ?_
  · subst hdb
    obtain ⟨a,c⟩ := r
    have ha := hok a c rfl
    refine ends_delete.bind (fun _ d' hr => ?_) fun e d' hr => ?_
    · exact ends_response fun _ => hr.2.consistent h ha
    · cases hr.1
  · subst hdb
    exact h

/-- Requests for attachments. -/
inductive Request where
  /-- `post_attachment_v2`. -/
  | postAttachmentV2 (caller cipherId : Uuid) (data : AttachmentRequestData)
  /-- `post_attachment_v2_data`. -/
  | postAttachmentV2Data (caller cipherId attachmentId : Uuid) (data : UploadData)
  /-- `post_attachment`. -/
  | postAttachment (caller cipherId : Uuid) (data : UploadData)
  /-- `delete_attachment`. -/
  | deleteAttachment (caller cipherId attachmentId : Uuid)
  /-- `post_attachment_share`. -/
  | postAttachmentShare (caller cipherId attachmentId : Uuid) (data : UploadData)

/-- The handler of a request. -/
def handle (settings : StorageSettings) : Request → Handler (Depot Path) String Unit
  | .postAttachmentV2 caller cipher data => inDatabase (postAttachmentV2 settings caller cipher data)
  | .postAttachmentV2Data caller cipher id data => postAttachmentV2Data settings caller cipher id data
  | .postAttachment caller cipher data => postAttachment settings caller cipher data
  | .deleteAttachment caller cipher id => deleteAttachment settings caller cipher id
  | .postAttachmentShare caller cipher id data => postAttachmentShare settings caller cipher id data

/-- The state after a request that runs alone. -/
def serve (settings : StorageSettings) (d : Depot Path) (q : Request) : Depot Path := (complete (handle settings q) d).2

/-- Every request keeps rows and files together, and the limit if it is
ample. -/
theorem keeps_handle {q : Request} (hlimit : settings.userAttachmentLimit=some limit) (hample : Ample limit)
    (h : Consistent limit user d) : Ends (handle settings q) d fun _ d' => Consistent limit user d' := by
  cases q with
  | postAttachmentV2 caller cipher data => exact keeps_postAttachmentV2 h
  | postAttachmentV2Data caller cipher id data => exact keeps_postAttachmentV2Data hlimit hample h
  | postAttachment caller cipher data => exact keeps_postAttachment hlimit h
  | deleteAttachment caller cipher id => exact keeps_deleteAttachment h
  | postAttachmentShare caller cipher id data =>
    refine (keeps_deleteAttachment h).bind (fun _ d' h' => ?_) fun _ d' h' => h'
    exact keeps_postAttachment hlimit h'

end Requests

section Excess

variable {d : Depot Path} {u : User} {c : Cipher} {n : ℕ}

/-- A user with a personal cipher, whose files and rows belong together. -/
structure Owned (u : User) (c : Cipher) (d : Depot Path) : Prop extends Backed u.uuid d where
  /-- The account. -/
  account : u∈d.database.users
  /-- The cipher. -/
  cipher : c∈d.database.ciphers
  /-- It is in the personal vault. -/
  owner : c.userUuid=some u.uuid

theorem Owned.own (h : Owned u c d) : personal d.database.toTables u.uuid c.uuid=true :=
  (personal_iff h.cipher).mpr h.owner

/-- The owner may write. -/
theorem Owned.writable (h : Owned u c d) :
    Cipher.isWriteAccessibleToUser settings.toConfig d.database.toTables c u.uuid=true := by
  have howned : Cipher.isOwnedByUser c u.uuid=true := decide_eq_true h.owner
  unfold Cipher.isWriteAccessibleToUser Cipher.getAccessRestrictions
  rw [howned]
  rfl

/-- A file that fits is admitted. -/
theorem Owned.admitted {adjust : ℤ} (h : Owned u c d) (hbound : (n : ℤ)≤I64_MAX)
    (hfits : Fits settings.userAttachmentLimit ((toI64 (declared d.database.toTables u.uuid)).getD I64_MAX) adjust n) :
    Admitted settings d.database.toTables u.uuid c.uuid n adjust c n := by
  refine ⟨rfl,hbound,find?_key d.database.cipher_nodup h.cipher,h.writable,.inl ⟨u.uuid,h.owner,?_⟩⟩
  rw [sizeByUser_eq]
  exact hfits

/-- A file under a new path adds its length. -/
theorem stored_new {a : Attachment} {d' : Depot Path} (h : Owned u c d) (hcipher : a.cipherUuid=c.uuid)
    (hnew : ∀ f∈d.files,f.1≠Attachment.getFilePath a) (hs : Stores d a n d') :
    stored d' u.uuid=stored d u.uuid+n := by
  unfold stored
  rw [hs.file,diskSize_congr hs.vault.2,total_put_new hnew,diskSize,Attachment.getFilePath,hcipher,h.own]
  rfl

/-- No file has an identifier that was not drawn. -/
theorem Owned.undrawn (h : Owned u c d) : ∀ f∈d.files,f.1≠(c.uuid,d.database.next) := by
  intro f hf hpath
  have hown : personal d.database.toTables u.uuid f.1.1=true := by
    rw [hpath]
    exact h.own
  obtain ⟨a,ha,hfile,_⟩ := h.rows f hf hown
  have hdrawn := attachment_drawn a ha
  rw [hpath] at hfile
  have hid : a.id=d.database.next := congrArg Prod.snd hfile
  rw [hid] at hdrawn
  exact Nat.lt_irrefl _ hdrawn

/-- The file of a request. -/
def content (n : ℕ) : UploadData := ⟨some [],some [],n⟩

/-- As long as the limit leaves room, files are stored. -/
theorem ends_upload (h : Owned u c d) (hlimit : settings.userAttachmentLimit=some limit) (hpos : 0<limit)
    (hmax : 1024*limit≤I64_MAX) (hn : 0<n) (hroom : declared d.database.toTables u.uuid+n≤1024*limit) :
    Ends (postAttachment settings u.uuid c.uuid (content n)) d fun _ d' => Owned u c d' ∧
      declared d'.database.toTables u.uuid=declared d.database.toTables u.uuid+n ∧
      stored d' u.uuid=stored d u.uuid+n := by
  have hpositive := h.declared_nonneg
  have hfits : Fits settings.userAttachmentLimit
      ((toI64 (declared d.database.toTables u.uuid)).getD I64_MAX) 0 n := by
    intro l hl
    rw [hlimit] at hl
    cases hl
    have hused := saturated hpositive
    have hvalue : (toI64 (declared d.database.toTables u.uuid)).getD I64_MAX=declared d.database.toTables u.uuid := by
      omega
    rw [hvalue]
    refine ⟨by omega,_,leftOf_eq_some_iff.mpr ⟨?_,?_,?_,rfl⟩,?_,?_⟩
    all_goals omega
  have hbound : (n : ℤ)≤I64_MAX := by omega
  have hadm := h.admitted hbound hfits
  have hnew : ∀ b∈d.database.attachments,b.id≠d.database.next := by
    intro b hb hid
    have hdrawn := attachment_drawn b hb
    rw [hid] at hdrawn
    exact Nat.lt_irrefl _ hdrawn
  unfold postAttachment
  refine ends_account_depot h.account ?_
  have hdone : ∀ d' size fileName,size=(n : ℤ) →
      Stores d ⟨d.database.next,c.uuid,fileName,size,some []⟩ n d' → Owned u c d' ∧
      declared d'.database.toTables u.uuid=declared d.database.toTables u.uuid+n ∧
      stored d' u.uuid=stored d u.uuid+n := by
    intro d' size fileName hsize hs
    have hback := hs.backed h.toBacked fun b hb hid => absurd hid (hnew b hb)
    have hpath : ∀ f∈d.files,f.1≠Attachment.getFilePath ⟨d.database.next,c.uuid,fileName,size,some []⟩ := h.undrawn
    have hstored := stored_new h rfl hpath hs
    refine ⟨⟨hback,?_,?_,h.owner⟩,?_,hstored⟩
    · rw [hs.vault.1]
      exact h.account
    · rw [hs.vault.2]
      exact h.cipher
    · unfold declared
      rw [rowSize_congr hs.vault.2]
      rcases hs.row with hrow|⟨hmem,_⟩
      · rw [hrow,total_put_new hnew,rowSize,h.own,hsize]
        rfl
      · exact absurd rfl (hnew _ hmem)
  refine ends_newUpload.bind (fun c' d' hup => ?_) fun e d' hup => ?_
  · obtain ⟨_,size,fileName,hadm',_,_,_,hs⟩|⟨_,⟨e,he⟩,_⟩ := hup
    · exact ends_response fun _ => hdone d' size fileName hadm'.measured hs
    · cases he
  · obtain ⟨_,_,_,_,_,_,he,_⟩|⟨hno,_⟩ := hup
    · cases he
    · rcases hno c n hadm with hnone|hnone
      · cases hnone
      · cases hnone

/-- A size is declared for an attachment. -/
theorem ends_declare (h : Owned u c d) (hn : (n : ℤ)≤I64_MAX)
    (hsized : NumberOrString.isI64 (.number n)=true) :
    Ends (inDatabase (postAttachmentV2 settings u.uuid c.uuid ⟨[],[],.number n,hsized⟩)) d fun _ d' => Owned u c d' ∧
      declared d'.database.toTables u.uuid=declared d.database.toTables u.uuid+n ∧
      stored d' u.uuid=stored d u.uuid ∧ ∃ a∈d'.database.attachments,a.cipherUuid=c.uuid ∧ a.fileSize=n ∧
        ∀ f∈d'.files,f.1≠Attachment.getFilePath a := by
  refine ends_inDatabase ?_
  unfold postAttachmentV2
  refine CipherUpdates.ends_caller h.account ?_
  refine ends_lookup ?_
  have hfound : d.database.ciphers.find? (fun b => b.uuid=c.uuid)=some c := find?_key d.database.cipher_nodup h.cipher
  refine Ends.expect (fun b hb => ?_) fun hnone => ?_
  · rw [hfound] at hb
    cases hb
    refine ends_lookup ?_
    refine Ends.ensure (fun _ => ?_) fun hno => ?_
    · refine ends_fromExcept (fun size hsize => ?_) fun e he => ?_
      · cases hsize
        refine Ends.ensure (fun _ => ?_) fun hneg => ?_
        · refine ends_getUuid ?_
          have hdrawn : d.database.next< d.database.drawn.next := Nat.lt_succ_self _
          have hsaved := ends_saved (a:=⟨d.database.next,c.uuid,[],n,some []⟩) hdrawn ⟨c,h.cipher,rfl⟩
          refine hsaved.bind (fun _ db ⟨_,husers,hciphers,hrow⟩ => ?_) fun e db ⟨he,_⟩ => ?_
          · refine CipherLinks.ends_toJson.mono fun r db' ⟨hdb,_⟩ => ?_
            subst hdb
            have hnew : ∀ b∈d.database.attachments,b.id≠d.database.next := by
              intro b hb hid
              have hdrawn := attachment_drawn b hb
              rw [hid] at hdrawn
              exact Nat.lt_irrefl _ hdrawn
            have hbound : (0 : ℤ)≤(n : ℤ) ∧ (n : ℤ)≤I64_MAX := ⟨by omega,hn⟩
            have hback : Backed u.uuid {d with database := db'} := h.toBacked.declare hciphers hrow hnew rfl hbound
            have haccount : u∈db'.users := by
              rw [husers]
              exact h.account
            have hcipher : c∈db'.ciphers := by
              rw [hciphers]
              exact h.cipher
            have hmem : (⟨d.database.next,c.uuid,[],n,some []⟩ : Attachment)∈db'.attachments := by
              rw [hrow,mem_put]
              exact .inl rfl
            refine ⟨⟨hback,haccount,hcipher,h.owner⟩,?_,?_,_,hmem,rfl,rfl,h.undrawn⟩
            · unfold declared
              rw [rowSize_congr (t:=d.database.toTables) hciphers,hrow]
              have htotal := total_put_new (w:=rowSize d.database.toTables u.uuid)
                (r:=⟨d.database.next,c.uuid,[],n,some []⟩) hnew
              rw [rowSize,h.own,if_pos rfl] at htotal
              exact htotal
            · unfold stored
              rw [diskSize_congr (t:=d.database.toTables) hciphers]
          · cases he
        · have hlt := of_decide_eq_false hneg
          omega
      · cases he
    · rw [h.writable] at hno
      cases hno
  · rw [hfound] at hnone
    cases hnone

/-- The file of a declared attachment is stored although the sum of the rows
is no `i64`. -/
theorem ends_excess {a : Attachment} (h : Owned u c d) (hlimit : settings.userAttachmentLimit=some limit)
    (hpos : 0<limit) (hmax : 1024*limit≤I64_MAX) (ha : a∈d.database.attachments) (hcipher : a.cipherUuid=c.uuid)
    (hnew : ∀ f∈d.files,f.1≠Attachment.getFilePath a) (hsum : I64_MAX<declared d.database.toTables u.uuid)
    (hn : 0<n) (hsize : a.fileSize=n+(I64_MAX-1024*limit)) (hnear : Near a n) :
    Ends (postAttachmentV2Data settings u.uuid c.uuid a.id (content n)) d fun _ d' =>
      stored d' u.uuid=stored d u.uuid+n := by
  have hfits : Fits settings.userAttachmentLimit
      ((toI64 (declared d.database.toTables u.uuid)).getD I64_MAX) a.fileSize n := by
    intro l hl
    rw [hlimit] at hl
    cases hl
    have hused := saturated h.declared_nonneg
    have hvalue : (toI64 (declared d.database.toTables u.uuid)).getD I64_MAX=I64_MAX := by omega
    have hnear' := hnear.1
    have hleeway : (0 : ℤ)≤LEEWAY := by decide
    have hi64 : I64_MAX=9223372036854775807 := rfl
    rw [hvalue]
    refine ⟨by omega,_,leftOf_eq_some_iff.mpr ⟨?_,?_,?_,rfl⟩,?_,?_⟩
    all_goals omega
  have hbound : (n : ℤ)≤I64_MAX := by
    have hown : personal d.database.toTables u.uuid a.cipherUuid=true := by
      rw [hcipher]
      exact h.own
    have hle := (h.sizes a ha hown).2
    omega
  have hadm := h.admitted hbound hfits
  rw [← hcipher] at hadm
  unfold postAttachmentV2Data
  refine ends_account_depot h.account ?_
  have hfound : Ends (findForCipher c.uuid a.id) d.database fun r db => db=d.database ∧ r=.ok a := by
    unfold findForCipher
    refine ends_lookup ?_
    have hrow : d.database.attachments.find? (fun b => b.id=a.id)=some a := find?_key d.database.attachment_nodup ha
    refine Ends.expect (fun b hb => ?_) fun hnone => ?_
    · rw [hrow] at hb
      cases hb
      refine Ends.ensure (fun _ => ⟨rfl,rfl⟩) fun hno => ?_
      exact absurd hcipher.symm (of_decide_eq_false hno)
    · rw [hrow] at hnone
      cases hnone
  refine ends_inDatabase_bind hfound (fun b db ⟨hdb,hb⟩ => ?_) fun e db ⟨_,he⟩ => ?_
  · subst hdb
    cases hb
    rw [← hcipher]
    refine (ends_oldUpload ha).bind (fun c' d' hup => ?_) fun e d' hup => ?_
    · obtain ⟨_,size,_,_,_,hs⟩|⟨_,⟨e,he⟩,_⟩ := hup
      · have hpath : ∀ f∈d.files,f.1≠Attachment.getFilePath {a with fileSize := size} := hnew
        have hadds := stored_new (a:={a with fileSize := size}) h hcipher hpath hs
        exact hadds
      · cases he
    · obtain ⟨_,_,_,_,he,_⟩|⟨hno,_⟩ := hup
      · cases he
      · exact absurd hnear (hno c n hadm)
  · cases he

/-- Uploads of one size, as long as there is room. -/
theorem run_uploads (hlimit : settings.userAttachmentLimit=some limit) (hpos : 0<limit)
    (hmax : 1024*limit≤I64_MAX) (hn : 0<n) (k : ℕ) (h : Owned u c d)
    (hroom : declared d.database.toTables u.uuid+n*k≤1024*limit) :
    Owned u c (run (serve settings) d (List.replicate k (.postAttachment u.uuid c.uuid (content n)))) ∧
    declared (run (serve settings) d (List.replicate k (.postAttachment u.uuid c.uuid (content n)))).database.toTables
      u.uuid=declared d.database.toTables u.uuid+n*k ∧
    stored (run (serve settings) d (List.replicate k (.postAttachment u.uuid c.uuid (content n)))) u.uuid=
      stored d u.uuid+n*k := by
  induction k generalizing d with
  | zero => exact ⟨h,by simp,by simp⟩
  | succ k ih =>
    have hprod : (n : ℤ)*((k+1 : ℕ) : ℤ)=n*k+n := by rw [Int.natCast_succ,Int.mul_add,Int.mul_one]
    have hrest : (0 : ℤ)≤(n : ℤ)*k := Int.mul_nonneg (by omega) (by omega)
    rw [hprod] at hroom ⊢
    obtain ⟨hnext,hdeclared,hstored⟩ := ends_upload h hlimit hpos hmax hn (by omega)
    rw [List.replicate_succ,run_cons]
    generalize hd' : serve settings d (.postAttachment u.uuid c.uuid (content n))=d'
    have hstep : (complete (postAttachment settings u.uuid c.uuid (content n)) d).2=d' := hd'
    rw [hstep] at hnext hdeclared hstored
    obtain ⟨howned,hrows,hfiles⟩ := ih hnext (by omega)
    exact ⟨howned,by omega,by omega⟩

/-- Within one leeway of the largest `i64`, a limit may be exceeded. -/
theorem exceeds (hlimit : settings.userAttachmentLimit=some limit) (hpos : 0<limit) (hnot : ¬Ample limit)
    (h : Owned u c d) (hempty : declared d.database.toTables u.uuid=0) (hnone : stored d u.uuid=0) :
    ∃ requests,1024*limit< stored (run (serve settings) d requests) u.uuid := by
  have hleeway : LEEWAY=1048576 := rfl
  have hi64 : I64_MAX=9223372036854775807 := rfl
  have hbad : I64_MAX≤1024*limit+LEEWAY ∧ 1024*limit≤I64_MAX := by
    unfold Ample at hnot
    omega
  -- 2^35-1 files of 2^28 bytes
  obtain ⟨k,hk⟩ : ∃ k : ℕ,k=34359738367 := ⟨_,rfl⟩
  obtain ⟨howned,hrows,hfiles⟩ := run_uploads (n:=268435456) hlimit hpos hbad.2 (by omega) k h (by omega)
  generalize hd₁ : run (serve settings) d
    (List.replicate k (.postAttachment u.uuid c.uuid (content 268435456)))=d₁ at howned hrows hfiles
  -- one more of 2^28 bytes, declared with what is missing to the largest `i64`
  obtain ⟨m,hm⟩ : ∃ m : ℕ,(m : ℤ)=268435456+(I64_MAX-1024*limit) := Int.eq_ofNat_of_zero_le (by omega) |>.imp
    fun m hm => hm.symm
  have hfits : (m : ℤ)≤I64_MAX := by omega
  have hsized : NumberOrString.isI64 (.number m)=true := decide_eq_true ⟨by omega,hfits⟩
  obtain ⟨howned₂,hrows₂,hfiles₂,a,ha,hcipher,hsize,hnew⟩ := ends_declare howned hfits hsized
  generalize hd₂ : (complete (inDatabase (postAttachmentV2 settings u.uuid c.uuid ⟨[],[],.number m,hsized⟩)) d₁).2=d₂
    at howned₂ hrows₂ hfiles₂ ha hnew
  have hsum : I64_MAX<declared d₂.database.toTables u.uuid := by omega
  have hnear : Near a (268435456 : ℕ) := by
    unfold Near
    omega
  have hlast := ends_excess (n:=268435456) howned₂ hlimit hpos hbad.2 ha hcipher hnew hsum (by omega) (by omega) hnear
  refine ⟨List.replicate k (Request.postAttachment u.uuid c.uuid (content 268435456))++
    [Request.postAttachmentV2 u.uuid c.uuid ⟨[],[],.number m,hsized⟩,
      .postAttachmentV2Data u.uuid c.uuid a.id (content 268435456)],?_⟩
  have hrun : stored (run (serve settings) d
      (List.replicate k (Request.postAttachment u.uuid c.uuid (content 268435456))++
        [Request.postAttachmentV2 u.uuid c.uuid ⟨[],[],.number m,hsized⟩,
          .postAttachmentV2Data u.uuid c.uuid a.id (content 268435456)])) u.uuid=
      stored d₂ u.uuid+(268435456 : ℕ) := by
    unfold run at hd₁ ⊢
    rw [List.foldl_append,hd₁]
    show stored (serve settings (complete _ d₁).2 _) u.uuid=_
    rw [handle,hd₂]
    exact hlast
  omega

end Excess

section Main

/-- The results of the size computations are those of the integers, and
`i64`. -/
def Exact (limit : ℤ) (user : Uuid) (d : Depot Path) : Prop :=
  (∀ adjust left,leftOf limit (Attachment.sizeByUser user d.database.toTables) adjust=some left →
    left=limit*1024-Attachment.sizeByUser user d.database.toTables+adjust ∧ fitsI64 left=true) ∧
  ∀ a∈d.database.attachments,personal d.database.toTables user a.cipherUuid=true → fitsI64 a.fileSize=true ∧
    (∀ n,checkedAdd a.fileSize LEEWAY=some n → n=a.fileSize+LEEWAY ∧ fitsI64 n=true) ∧
    ∀ n,checkedSub a.fileSize LEEWAY=some n → n=a.fileSize-LEEWAY ∧ fitsI64 n=true

theorem fitsI64_iff {n : ℤ} : fitsI64 n=true ↔ -9223372036854775808≤n ∧ n≤I64_MAX := decide_eq_true_iff

theorem exact_of_backed {d : Depot Path} (h : Backed user d) : Exact limit user d := by
  refine ⟨fun adjust left hleft => ?_,fun a ha hown => ⟨?_,fun n hn => ?_,fun n hn => ?_⟩⟩
  · obtain ⟨_,_,hfits,hval⟩ := leftOf_eq_some_iff.mp hleft
    rw [hval,fitsI64_iff]
    exact ⟨rfl,hfits⟩
  · have hsize := h.sizes a ha hown
    rw [fitsI64_iff]
    omega
  · obtain ⟨hval,hfits⟩ := toI64_eq_some_iff.mp hn
    rw [hval,fitsI64_iff]
    exact ⟨rfl,hfits⟩
  · obtain ⟨hval,hfits⟩ := toI64_eq_some_iff.mp hn
    rw [hval,fitsI64_iff]
    exact ⟨rfl,hfits⟩

/-- In every run, the files of the user are within the limit, and no size
computation overflows. -/
def KeepsQuota (settings : StorageSettings) (limit : ℤ) : Prop :=
  ∀ user d requests,Consistent limit user d →
    stored (run (serve settings) d requests) user≤1024*limit ∧ Exact limit user (run (serve settings) d requests)

/-- An account with one personal cipher, and no attachments. -/
def oneCipher : Database := ⟨{Tables.none with
  users := [User.new 0 0 [] 600000 ['a'] none]
  ciphers := [{ServerTables.Cipher.new 1 0 1 ['c'] with userUuid := some 0}]
  next := 2},by decide⟩

/-- No files are stored. -/
def emptyDepot : Depot Path := ⟨oneCipher,[]⟩

theorem owned_empty : Owned (User.new 0 0 [] 600000 ['a'] none)
    {ServerTables.Cipher.new 1 0 1 ['c'] with userUuid := some 0} emptyDepot := by
  refine ⟨⟨fun f hf => ?_,fun a ha => ?_,List.nodup_nil⟩,List.mem_cons_self,List.mem_cons_self,rfl⟩
  · cases hf
  · cases ha

/-- The limit is kept exactly if it is ample. -/
theorem quota_kept_iff (hlimit : settings.userAttachmentLimit=some limit) (hpos : 0<limit) :
    KeepsQuota settings limit ↔ Ample limit := by
  constructor
  · intro h
    by_contra hnot
    obtain ⟨requests,hexceeds⟩ := exceeds hlimit hpos hnot owned_empty rfl rfl
    have hempty : Consistent limit 0 emptyDepot := by
      refine ⟨owned_empty.toBacked,?_⟩
      show (0 : ℤ)≤1024*limit
      omega
    have hkept := (h 0 emptyDepot requests hempty).1
    have huser : (User.new 0 0 [] 600000 ['a'] none).uuid=0 := rfl
    rw [huser] at hexceeds
    omega
  · intro hample who d requests h
    have hall : Admits (serve settings) (fun _ _ => True) d requests := Admits.of_forall (fun _ _ _ => trivial) d
    have hend : Consistent limit who (run (serve settings) d requests) :=
      run_invariant (fun _ _ hs _ => keeps_handle hlimit hample hs) h hall
    exact ⟨hend.quota,exact_of_backed hend.toBacked⟩

/-- A server with a limit for users. -/
def limited (limit : ℤ) : StorageSettings :=
  {CipherLinks.plainSettings with userAttachmentLimit := some limit, orgAttachmentLimit := none}

/-- A limit of 1 KiB is kept. -/
theorem kibibyte_kept : Ample 1 ∧ KeepsQuota (limited 1) 1 :=
  ⟨.inl (by decide),(quota_kept_iff rfl (by decide)).mpr (.inl (by decide))⟩

/-- The largest limit that the configuration accepts is not. -/
theorem largest_exceeded : ¬KeepsQuota (limited 9007199254740991) 9007199254740991 := by
  intro h
  have hnot : ¬Ample 9007199254740991 := by decide
  have hlimit : (limited 9007199254740991).userAttachmentLimit=some 9007199254740991 := rfl
  obtain ⟨requests,hexceeds⟩ := exceeds hlimit (by decide) hnot owned_empty rfl rfl
  have hempty : Consistent 9007199254740991 0 emptyDepot := ⟨owned_empty.toBacked,by decide⟩
  have hkept := (h 0 emptyDepot requests hempty).1
  have huser : (User.new 0 0 [] 600000 ['a'] none).uuid=0 := rfl
  rw [huser] at hexceeds
  omega

end Main

end NadSafe.AttachmentQuota
