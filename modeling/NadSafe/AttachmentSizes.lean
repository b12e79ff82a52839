import NadSafe.AttachmentStorage
import NadSafe.CipherLinks
import NadSafe.FactorRows

/-!
# Sizes of attachments

The limit is meant for the files, but the sizes in the rows are summed. Where
each stored file of a personal cipher has a row with its size, the files are
never larger than the rows.
-/

namespace NadSafe.AttachmentSizes

open HostText TableRows RowTotals AsyncScript ServerTables AccessQueries StoreScript ServerModels OrgHandlers
open CipherHandlers SecondFactors PlannedScript TableWrites FactorRows PartScript FileDepot AttachmentStorage

variable {settings : StorageSettings} {user : Uuid} {limit : ℤ}

section Sizes

/-- The cipher is in the personal vault of the user. -/
def personal (t : Tables) (user cipher : Uuid) : Bool :=
  t.ciphers.any fun c => decide (c.uuid=cipher ∧ c.userUuid=some user)

/-- What a row counts for the user. -/
def rowSize (t : Tables) (user : Uuid) (a : Attachment) : ℤ :=
  if personal t user a.cipherUuid=true then a.fileSize else 0

/-- What a file takes of the user's storage. -/
def diskSize (t : Tables) (user : Uuid) (f : Path×ℕ) : ℤ :=
  if personal t user f.1.1=true then f.2 else 0

/-- The sum of the sizes in the rows. -/
def declared (t : Tables) (user : Uuid) : ℤ := total (rowSize t user) t.attachments

/-- The size of all files that are stored for the personal ciphers of a user. -/
def stored (d : Depot Path) (user : Uuid) : ℤ := total (diskSize d.database.toTables user) d.files

/-- A cipher with its owner. -/
theorem personal_iff {db : Database} {c : Cipher} (hc : c∈db.ciphers) :
    personal db.toTables user c.uuid=true ↔ c.userUuid=some user := by
  unfold personal
  rw [List.any_eq_true]
  constructor
  · intro h
    obtain ⟨b,hb,hboth⟩ := h
    have hown := of_decide_eq_true hboth
    rw [eq_of_key db.cipher_nodup hc hb hown.1.symm]
    exact hown.2
  · exact fun h => ⟨c,hc,decide_eq_true ⟨rfl,h⟩⟩

/-- The query for the used storage sums the rows of the personal ciphers. -/
theorem sizeByUser_eq (db : Database) : Attachment.sizeByUser user db.toTables=
    (toI64 (declared db.toTables user)).getD I64_MAX := by
  have hsame : ∀ a∈db.attachments,
      (if ((db.ciphers.find? fun c => c.uuid=a.cipherUuid).any fun c => decide (c.userUuid=some user))=true
        then a.fileSize else 0)=rowSize db.toTables user a := by
    intro a _
    have hown : ((db.ciphers.find? fun c => c.uuid=a.cipherUuid).any fun c => decide (c.userUuid=some user))=
        personal db.toTables user a.cipherUuid := by
      rw [Bool.eq_iff_iff]
      cases hfound : db.ciphers.find? fun c => c.uuid=a.cipherUuid with
      | none =>
        rw [personal,List.any_eq_true]
        constructor
        · intro h
          cases h
        · intro h
          obtain ⟨c,hc,hboth⟩ := h
          exact absurd (decide_eq_true (of_decide_eq_true hboth).1) (List.find?_eq_none.mp hfound c hc)
      | some c =>
        have hkey := List.find?_some hfound
        rw [decide_eq_true_eq] at hkey
        rw [← hkey,personal_iff (List.mem_of_find?_eq_some hfound),Option.any_some,decide_eq_true_eq]
    rw [hown,rowSize]
  have htotal : total (fun r => r.1.fileSize) ((leftJoin db.attachments db.ciphers fun a c => c.uuid=a.cipherUuid).filter
      fun r => r.2.any fun c => c.userUuid=some user)=declared db.toTables user := by
    rw [leftJoin_key db.cipher_nodup,total_filter,total_map]
    exact total_congr hsame
  exact congrArg (fun n => (toI64 n).getD I64_MAX) htotal

end Sizes

section Admission

/-- A limit admits a file. -/
def Fits (limit : Option ℤ) (used adjust size : ℤ) : Prop :=
  ∀ l,limit=some l → l≠0 ∧ ∃ left,leftOf l used adjust=some left ∧ 0<left ∧ size≤left

/-- The limit of the owner of a cipher admits a file. -/
def Room (settings : StorageSettings) (t : Tables) (c : Cipher) (adjust size : ℤ) : Prop :=
  (∃ u,c.userUuid=some u ∧ Fits settings.userAttachmentLimit (Attachment.sizeByUser u t) adjust size) ∨
  (c.userUuid=none ∧ ∃ o,c.organizationUuid=some o ∧
    Fits settings.orgAttachmentLimit (Attachment.sizeByOrg o t) adjust size)

/-- A file is accepted for a cipher. -/
structure Admitted (settings : StorageSettings) (t : Tables) (user cipherId : Uuid) (length : ℕ) (adjust : ℤ)
    (c : Cipher) (size : ℤ) : Prop where
  /-- The length of the file. -/
  measured : size=length
  /-- It is an `i64`. -/
  bound : size≤I64_MAX
  /-- The cipher is there. -/
  found : t.ciphers.find? (fun c => c.uuid=cipherId)=some c
  /-- The caller may write to it. -/
  writable : Cipher.isWriteAccessibleToUser settings.toConfig t c user=true
  /-- There is room. -/
  room : Room settings t c adjust size

variable {db : Database} {t : Tables}

/-- One limit is looked up. -/
theorem ends_storageLeft {l : Option ℤ} {used : Tables → ℤ} {adjust size : ℤ} :
    Ends (storageLeft l used adjust) db fun r db' => db'=db ∧
      ((∃ left,r=.ok left ∧ left.all (fun n => decide (size≤n))=true) ↔ Fits l (used db.toTables) adjust size) := by
  unfold storageLeft
  cases l with
  | none =>
    refine ⟨rfl,fun _ l hl => ?_,fun _ => ⟨none,rfl,rfl⟩⟩
    cases hl
  | some l =>
    by_cases hzero : l=0
    · show Ends (if l=0 then _ else _) db _
      rw [if_pos hzero]
      refine ⟨rfl,fun h => ?_,fun h => absurd hzero (h l rfl).1⟩
      obtain ⟨left,he,_⟩ := h
      cases he
    · show Ends (if l=0 then _ else _) db _
      rw [if_neg hzero]
      refine ends_lookup ?_
      refine Ends.expect (fun left hleft => ?_) fun hnone => ?_
      · refine Ends.ensure (fun hpos => ?_) fun hpos => ?_
        · refine ⟨rfl,fun h k hk => ?_,fun h => ⟨some left,rfl,?_⟩⟩
          · cases hk
            obtain ⟨m,hm,hsize⟩ := h
            cases hm
            exact ⟨hzero,left,hleft,of_decide_eq_true hpos,of_decide_eq_true hsize⟩
          · obtain ⟨_,m,hm,_,hsize⟩ := h l rfl
            rw [hleft] at hm
            cases hm
            exact decide_eq_true hsize
        · refine ⟨rfl,fun h => ?_,fun h => ?_⟩
          · obtain ⟨m,hm,_⟩ := h
            cases hm
          · obtain ⟨_,m,hm,hlt,_⟩ := h l rfl
            rw [hleft] at hm
            cases hm
            exact absurd hlt (of_decide_eq_false hpos)
      · refine ⟨rfl,fun h => ?_,fun h => ?_⟩
        · obtain ⟨m,hm,_⟩ := h
          cases hm
        · obtain ⟨_,m,hm,_⟩ := h l rfl
          rw [hnone] at hm
          cases hm

/-- The limit for a cipher. -/
theorem ends_sizeLimit {c : Cipher} {adjust size : ℤ} : Ends (sizeLimit settings c adjust) db fun r db' => db'=db ∧
    ((∃ left,r=.ok left ∧ left.all (fun n => decide (size≤n))=true) ↔ Room settings db.toTables c adjust size) := by
  unfold sizeLimit Room
  cases huser : c.userUuid with
  | some u =>
    refine (ends_storageLeft).mono fun r db' ⟨hdb,h⟩ => ⟨hdb,h.trans ⟨fun hfits => .inl ⟨u,rfl,hfits⟩,fun hroom => ?_⟩⟩
    rcases hroom with ⟨v,hv,hfits⟩|⟨hnone,_⟩
    · cases hv
      exact hfits
    · cases hnone
  | none =>
    cases horg : c.organizationUuid with
    | some o =>
      refine (ends_storageLeft).mono fun r db' ⟨hdb,h⟩ =>
        ⟨hdb,h.trans ⟨fun hfits => .inr ⟨rfl,o,rfl,hfits⟩,fun hroom => ?_⟩⟩
      rcases hroom with ⟨v,hv,_⟩|⟨_,p,hp,hfits⟩
      · cases hv
      · cases hp
        exact hfits
    | none =>
      refine ⟨rfl,fun h => ?_,fun hroom => ?_⟩
      · obtain ⟨left,he,_⟩ := h
        cases he
      · rcases hroom with ⟨v,hv,_⟩|⟨_,p,hp,_⟩
        · cases hv
        · cases hp

/-- A file is accepted exactly if every check holds. -/
theorem ends_admitUpload {cipherId : Uuid} {length : ℕ} {adjust : ℤ} :
    Ends (admitUpload settings user cipherId length adjust) db fun r db' => db'=db ∧
      ∀ c size,r=.ok (c,size) ↔ Admitted settings db.toTables user cipherId length adjust c size := by
  unfold admitUpload
  have hrefused : ∀ e,(∀ c size,¬Admitted settings db.toTables user cipherId length adjust c size) →
      db=db ∧ ∀ c size,(.error e : Except String (Cipher×ℤ))=.ok (c,size) ↔
        Admitted settings db.toTables user cipherId length adjust c size := by
    refine fun e hno => ⟨rfl,fun c size => ⟨fun h => ?_,fun h => absurd h (hno c size)⟩⟩
    cases h
  refine Ends.expect (fun n hn => ?_) fun hnone => ?_
  · obtain ⟨hsize,_,hmax⟩ := toI64_eq_some_iff.mp hn
    refine Ends.ensure (fun _ => ?_) fun hneg => ?_
    · refine ends_lookup ?_
      refine Ends.expect (fun c hc => ?_) fun hmissing => hrefused _ fun c size h => ?_
      · refine ends_lookup ?_
        refine Ends.ensure (fun hwrite => ?_) fun hwrite => hrefused _ fun c' size h => ?_
        · refine (ends_sizeLimit).bind (Q:=fun r db' => db'=db ∧
            ((∃ left,r=.ok left ∧ left.all (fun m => decide (n≤ m))=true) ↔ Room settings db.toTables c adjust n))
            (fun left db' ⟨hdb,hroom⟩ => ?_) fun e db' ⟨hdb,hroom⟩ => ?_
          · subst hdb
            refine Ends.ensure (fun hle => ?_) fun hle => hrefused _ fun c' size h => ?_
            · refine ⟨rfl,fun c' size => ⟨fun h => ?_,fun h => ?_⟩⟩
              · cases h
                exact ⟨hsize,by omega,hc,hwrite,hroom.mp ⟨left,rfl,hle⟩⟩
              · have hcipher := h.found
                rw [hc] at hcipher
                cases hcipher
                rw [h.measured,← hsize]
                rfl
            · have hcipher := h.found
              rw [hc] at hcipher
              cases hcipher
              have hfits := h.room
              rw [h.measured,← hsize] at hfits
              obtain ⟨m,hm,hall⟩ := hroom.mpr hfits
              cases hm
              rw [hle] at hall
              cases hall
          · subst hdb
            refine hrefused _ fun c' size h => ?_
            have hcipher := h.found
            rw [hc] at hcipher
            cases hcipher
            have hfits := h.room
            rw [h.measured,← hsize] at hfits
            obtain ⟨m,hm,_⟩ := hroom.mpr hfits
            cases hm
        · have hcipher := h.found
          rw [hc] at hcipher
          cases hcipher
          have hyes := h.writable
          rw [hwrite] at hyes
          cases hyes
      · have hcipher := h.found
        rw [hmissing] at hcipher
        cases hcipher
    · have hle := of_decide_eq_false hneg
      omega
  · refine hrefused _ fun c size h => ?_
    have hbound := h.bound
    rw [h.measured] at hbound
    have hsome : toI64 (length : ℤ)=some (length : ℤ) := toI64_eq_some_iff.mpr ⟨rfl,by omega,hbound⟩
    rw [hnone] at hsome
    cases hsome

/-- The limit of a personal cipher is the user's. -/
theorem Admitted.fits {db : Database} {caller cipherId : Uuid} {length : ℕ} {adjust size : ℤ} {c : Cipher}
    (h : Admitted settings db.toTables caller cipherId length adjust c size)
    (hown : personal db.toTables user cipherId=true) : Fits settings.userAttachmentLimit
      ((toI64 (declared db.toTables user)).getD I64_MAX) adjust size := by
  have hkey := List.find?_some h.found
  rw [decide_eq_true_eq] at hkey
  rw [← hkey,personal_iff (List.mem_of_find?_eq_some h.found)] at hown
  rw [← sizeByUser_eq]
  rcases h.room with ⟨v,hv,hfits⟩|⟨hnone,_⟩
  · rw [hown] at hv
    cases hv
    exact hfits
  · rw [hown] at hnone
    cases hnone

end Admission

section States

variable {d d' : Depot Path} {a : Attachment} {n : ℕ}

/-- Files and rows of the personal ciphers of a user belong together. -/
structure Backed (user : Uuid) (d : Depot Path) : Prop where
  /-- Every file has a row with its size. -/
  rows : ∀ f∈d.files,personal d.database.toTables user f.1.1=true →
    ∃ a∈d.database.attachments,Attachment.getFilePath a=f.1 ∧ a.fileSize=f.2
  /-- No size is negative, and each is an `i64`. -/
  sizes : ∀ a∈d.database.attachments,personal d.database.toTables user a.cipherUuid=true →
    0≤a.fileSize ∧ a.fileSize≤I64_MAX
  /-- One file for each path. -/
  paths : (d.files.map Prod.fst).Nodup

/-- And the files are within the limit. -/
structure Consistent (limit : ℤ) (user : Uuid) (d : Depot Path) : Prop extends Backed user d where
  /-- The limit holds. -/
  quota : stored d user≤1024*limit

theorem path_nodup (db : Database) : (db.attachments.map Attachment.getFilePath).Nodup := by
  have hids := db.attachment_nodup
  have hsecond : db.attachments.map Attachment.id=(db.attachments.map Attachment.getFilePath).map Prod.snd := by
    rw [List.map_map]
    rfl
  rw [hsecond] at hids
  exact List.Nodup.of_map Prod.snd hids

/-- No attachment has a uuid that was not drawn. -/
theorem attachment_drawn {db : Database} : ∀ a∈db.attachments,a.id<db.next := db.valid.2.2.2.2.2.2.2.2.1

theorem diskSize_nonneg {t : Tables} {f : Path×ℕ} : 0≤diskSize t user f := by
  unfold diskSize
  split
  · omega
  · omega

theorem Backed.rowSize_nonneg (h : Backed user d) :
    ∀ a∈d.database.attachments,0≤rowSize d.database.toTables user a := by
  intro a ha
  unfold rowSize
  split
  · next hown => exact (h.sizes a ha hown).1
  · exact Int.le_refl 0

theorem Backed.declared_nonneg (h : Backed user d) : 0≤declared d.database.toTables user :=
  total_nonneg h.rowSize_nonneg

/-- Files are never larger than the rows. -/
theorem Backed.stored_le (h : Backed user d) : stored d user≤declared d.database.toTables user := by
  refine total_le_total (path_nodup d.database) h.rowSize_nonneg h.paths fun f hf => ?_
  unfold diskSize
  cases hown : personal d.database.toTables user f.1.1 with
  | false => exact .inl (Int.le_refl 0)
  | true =>
    obtain ⟨a,ha,hpath,hsize⟩ := h.rows f hf hown
    have hcipher : a.cipherUuid=f.1.1 := congrArg Prod.fst hpath
    exact .inr ⟨a,ha,hpath,Int.le_of_eq (by rw [rowSize,hcipher,hown,hsize])⟩

/-- Every size is part of the sum. -/
theorem Backed.le_declared (h : Backed user d) (ha : a∈d.database.attachments)
    (hown : personal d.database.toTables user a.cipherUuid=true) : a.fileSize≤declared d.database.toTables user := by
  have hrest : 0≤total (rowSize d.database.toTables user)
      (d.database.attachments.filter fun b => b.id≠a.id) :=
    total_nonneg fun b hb => h.rowSize_nonneg b (List.mem_filter.mp hb).1
  rw [total_remove d.database.attachment_nodup ha,rowSize,if_pos hown] at hrest
  unfold declared
  omega

/-- The row is saved, or is there already. -/
def Recorded (a : Attachment) (rows rows' : List Attachment) : Prop :=
  rows'=put Attachment.id a rows ∨ a∈rows ∧ rows'=rows

variable {rows rows' : List Attachment}

theorem mem_recorded (hkeys : (rows.map Attachment.id).Nodup) (h : Recorded a rows rows') {b : Attachment} :
    b∈rows' ↔ b=a ∨ b∈rows ∧ b.id≠a.id := by
  rcases h with h|⟨ha,h⟩
  · rw [h,mem_put]
  · rw [h]
    constructor
    · intro hb
      by_cases hid : b.id=a.id
      · exact .inl (eq_of_key hkeys hb ha hid)
      · exact .inr ⟨hb,hid⟩
    · intro hb
      rcases hb with rfl|hb
      · exact ha
      · exact hb.1

/-- The sum with another size of a row. -/
theorem total_recorded {w : Attachment → ℤ} {old : Attachment} (hkeys : (rows.map Attachment.id).Nodup)
    (h : Recorded a rows rows') (hold : old∈rows) (hid : old.id=a.id) : total w rows'=total w rows-w old+w a := by
  rcases h with h|⟨ha,h⟩
  · rw [h]
    exact total_put_old hkeys hold hid
  · rw [h,eq_of_key hkeys hold ha hid]
    omega

/-- Ciphers that stay have the same owners. -/
theorem personal_congr {t t' : Tables} (h : t'.ciphers=t.ciphers) : personal t'=personal t := by
  funext u c
  unfold personal
  rw [h]

theorem rowSize_congr {t t' : Tables} (h : t'.ciphers=t.ciphers) : rowSize t'=rowSize t := by
  funext u b
  unfold rowSize
  rw [personal_congr h]

theorem diskSize_congr {t t' : Tables} (h : t'.ciphers=t.ciphers) : diskSize t'=diskSize t := by
  funext u f
  unfold diskSize
  rw [personal_congr h]

/-- A file is stored, and its row has its size. -/
theorem Backed.store (h : Backed user d) (hciphers : d'.database.ciphers=d.database.ciphers)
    (hrow : Recorded a d.database.attachments d'.database.attachments)
    (hsame : ∀ b∈d.database.attachments,b.id=a.id → b.cipherUuid=a.cipherUuid)
    (hfiles : d'.files=put Prod.fst (Attachment.getFilePath a,n) d.files) (hsize : a.fileSize=n)
    (hbound : a.fileSize≤I64_MAX) : Backed user d' := by
  have hmem : ∀ b,b∈d'.database.attachments ↔ b=a ∨ b∈d.database.attachments ∧ b.id≠a.id :=
    fun _ => mem_recorded d.database.attachment_nodup hrow
  refine ⟨fun f hf hown => ?_,fun b hb hown => ?_,?_⟩
  · rw [hfiles,mem_put] at hf
    rcases hf with rfl|⟨hf,hpath⟩
    · exact ⟨a,(hmem a).mpr (.inl rfl),rfl,hsize⟩
    · rw [personal_congr hciphers] at hown
      obtain ⟨b,hb,hbpath,hbsize⟩ := h.rows f hf hown
      refine ⟨b,(hmem b).mpr (.inr ⟨hb,fun hid => hpath ?_⟩),hbpath,hbsize⟩
      rw [← hbpath,Attachment.getFilePath,Attachment.getFilePath,hid,hsame b hb hid]
  · rcases (hmem b).mp hb with rfl|⟨hb,_⟩
    · exact ⟨by omega,hbound⟩
    · rw [personal_congr hciphers] at hown
      exact h.sizes b hb hown
  · rw [hfiles]
    exact nodup_put h.paths

/-- A size is declared. -/
theorem Backed.declare (h : Backed user d) (hciphers : d'.database.ciphers=d.database.ciphers)
    (hrow : d'.database.attachments=put Attachment.id a d.database.attachments)
    (hnew : ∀ b∈d.database.attachments,b.id≠a.id) (hfiles : d'.files=d.files)
    (hbound : 0≤a.fileSize ∧ a.fileSize≤I64_MAX) : Backed user d' := by
  refine ⟨fun f hf hown => ?_,fun b hb hown => ?_,?_⟩
  · rw [hfiles] at hf
    rw [personal_congr hciphers] at hown
    obtain ⟨b,hb,hpath,hsize⟩ := h.rows f hf hown
    refine ⟨b,?_,hpath,hsize⟩
    rw [hrow,mem_put]
    exact .inr ⟨hb,hnew b hb⟩
  · rw [hrow,mem_put] at hb
    rcases hb with rfl|⟨hb,_⟩
    · exact hbound
    · rw [personal_congr hciphers] at hown
      exact h.sizes b hb hown
  · rw [hfiles]
    exact h.paths

/-- A row and its file are removed. -/
theorem Consistent.remove (h : Consistent limit user d) (ha : a∈d.database.attachments)
    (hciphers : d'.database.ciphers=d.database.ciphers)
    (hrow : d'.database.attachments=d.database.attachments.filter fun b => b.id≠a.id)
    (hfiles : d'.files=d.files.filter fun f => !decide (f.1=Attachment.getFilePath a)) : Consistent limit user d' := by
  refine ⟨⟨fun f hf hown => ?_,fun b hb hown => ?_,?_⟩,?_⟩
  · rw [hfiles,List.mem_filter,Bool.not_eq_true',decide_eq_false_iff_not] at hf
    rw [personal_congr hciphers] at hown
    obtain ⟨b,hb,hpath,hsize⟩ := h.rows f hf.1 hown
    refine ⟨b,?_,hpath,hsize⟩
    rw [hrow,List.mem_filter]
    refine ⟨hb,decide_eq_true fun hid => hf.2 ?_⟩
    rw [← hpath,eq_of_key d.database.attachment_nodup hb ha hid]
  · rw [hrow] at hb
    rw [personal_congr hciphers] at hown
    exact h.sizes b (List.mem_filter.mp hb).1 hown
  · rw [hfiles]
    exact h.paths.sublist (List.filter_sublist.map Prod.fst)
  · refine Int.le_trans ?_ h.quota
    unfold stored
    rw [hfiles,diskSize_congr hciphers]
    exact total_filter_le fun f _ => diskSize_nonneg

/-- A state with the same rows and files. -/
theorem Consistent.congr (h : Consistent limit user d) (hciphers : d'.database.ciphers=d.database.ciphers)
    (hrow : d'.database.attachments=d.database.attachments) (hfiles : d'.files=d.files) : Consistent limit user d' := by
  refine ⟨⟨?_,?_,?_⟩,?_⟩
  · rw [hfiles,personal_congr hciphers,hrow]
    exact h.rows
  · rw [personal_congr hciphers,hrow]
    exact h.sizes
  · rw [hfiles]
    exact h.paths
  · unfold stored
    rw [hfiles,diskSize_congr hciphers]
    exact h.quota

end States

end NadSafe.AttachmentSizes
