import NadSafe.AttachmentQuota
import NadSafe.SendStorage

/-!
# The files of a user's sends and their limit

A declared file is not compared with the limit again when it is uploaded, so
the declaration has to stay in the sum from its first save. What is stored in
the folder of a send, and what may still be uploaded to it, is never more than
what its content counts: as long as every new content counts its file, the
limit holds for all files.
-/

namespace NadSafe.SendQuota

open HostText JsonText TableRows RowTotals AsyncScript ServerTables StoreScript ServerModels SecondFactors
open CipherHandlers SendHandlers PlannedScript TableWrites FactorRows PartScript FileDepot AttachmentStorage
open SendStorage StepRuns

variable {settings : UploadSettings} {user : Uuid} {limit : ℤ}

section Contents

variable {ms : List (Text×Value)} {k k' other : String} {v : Value}

/-- A member that was put is the only one of its name. -/
theorem single_put_self (h : ∀ m∈ms,m.1=other.toList → m.1=k.toList) :
    single k other (put Prod.fst (k.toList,v) ms)=some v := by
  have hothers : (ms.filter fun m => m.1≠k.toList).filter (fun m => m.1=k.toList ∨ m.1=other.toList)=[] := by
    rw [List.filter_eq_nil_iff]
    intro m hm hkey
    obtain ⟨hm,hne⟩ := List.mem_filter.mp hm
    exact of_decide_eq_true hne ((of_decide_eq_true hkey).elim id (h m hm))
  have hlast : [(k.toList,v)].filter (fun m => m.1=k.toList ∨ m.1=other.toList)=[(k.toList,v)] := by simp
  unfold single put
  rw [List.filter_append,hothers,hlast]
  rfl

/-- A member of another name does not matter. -/
theorem single_put_other (hne : k'.toList≠k.toList) (hother : k'.toList≠other.toList) :
    single k other (put Prod.fst (k'.toList,v) ms)=single k other ms := by
  have hrest : (ms.filter fun m => m.1≠k'.toList).filter (fun m => m.1=k.toList ∨ m.1=other.toList)=
      ms.filter fun m => m.1=k.toList ∨ m.1=other.toList := by
    rw [List.filter_filter]
    refine List.filter_congr fun m _ => ?_
    rw [Bool.eq_iff_iff,Bool.and_eq_true,decide_eq_true_eq,decide_eq_true_eq]
    refine ⟨And.left,fun h => ⟨h,fun hkey => ?_⟩⟩
    rw [hkey] at h
    exact h.elim hne hother
  have hlast : [(k'.toList,v)].filter (fun m => m.1=k.toList ∨ m.1=other.toList)=[] := by simp [hne,hother]
  unfold single put
  rw [List.filter_append,hrest,hlast,List.append_nil]

/-- The file of an object has the identifier and the size that the server has
put there. -/
theorem fromValue_withFile {fileId : Text} {size : ℕ} {f : SendFileData}
    (h : SendFileData.fromValue (withFile settings fileId size (.object ms))=some f) : f.id=fileId ∧ f.size=size := by
  have hid : single "id" "id" (put Prod.fst ("sizeName".toList,.string (settings.getDisplaySize size))
      (put Prod.fst ("size".toList,.number size) (put Prod.fst ("id".toList,.string fileId) ms)))=
      some (.string fileId) := by
    rw [single_put_other (by decide) (by decide),single_put_other (by decide) (by decide),single_put_self fun _ _ h => h]
  have hsize : single "size" "size" (put Prod.fst ("sizeName".toList,.string (settings.getDisplaySize size))
      (put Prod.fst ("size".toList,.number size) (put Prod.fst ("id".toList,.string fileId) ms)))=
      some (.number size) := by
    rw [single_put_other (by decide) (by decide),single_put_self fun _ _ h => h]
  simp only [withFile,SendFileData.fromValue,hid,hsize] at h
  split at h
  · next i s n hi hs hn =>
    cases hi
    cases hs
    simp only [SendFileData.build,stringOf,u64Of] at h
    split at h
    · next i' s' n' hi' hs' hn' =>
      cases h
      cases hi'
      split at hs'
      · cases hs'
        exact ⟨rfl,rfl⟩
      · cases hs'
    · cases h
  · cases h

/-- An object without `Size` counts the size that the server has put there. -/
theorem contentSize_object {fileId : Text} {size : ℕ} (hfits : (size : ℤ)≤I64_MAX)
    (hplain : ∀ m∈ms,m.1≠"Size".toList) : contentSize (withFile settings fileId size (.object ms))=some size := by
  have hsize : single "size" "Size" (put Prod.fst ("sizeName".toList,.string (settings.getDisplaySize size))
      (put Prod.fst ("size".toList,.number size) (put Prod.fst ("id".toList,.string fileId) ms)))=
      some (.number size) := by
    rw [single_put_other (by decide) (by decide),single_put_self]
    intro m hm hkey
    rcases mem_put.mp hm with rfl|⟨hm,_⟩
    · have hid : "id".toList≠"Size".toList := by decide
      exact absurd hkey hid
    · exact absurd hkey (hplain m hm)
  have hnumber : toI64 (size : ℤ)=some (size : ℤ) := toI64_eq_some_iff.mpr ⟨rfl,by omega,hfits⟩
  simp only [withFile,contentSize,FileData.fromValue,hsize,Option.bind_some,NumberOrString.fromValue,hnumber,Option.map_some]
  rfl

/-- An array is left as it is, and does not count where an upload is possible. -/
theorem uncounted_array {items : List Value} {f : SendFileData}
    (h : SendFileData.fromValue (.array items)=some f) : contentSize (.array items)=none := by
  rcases items with _|⟨a,_|⟨b,_|⟨c,_|⟨d,rest⟩⟩⟩⟩
  · cases h
  · cases h
  · cases h
  · rfl
  · cases h

/-- The content of a send that is written is read back. -/
theorem written_withoutResponse (h : Written v) : Written (withoutResponse v) := by
  cases v with
  | object members =>
    show WrittenMembers _
    rw [writtenMembers_iff]
    intro m hm
    exact writtenMembers_iff.mp h m (List.mem_filter.mp hm).1
  | _ => exact h

theorem written_withFile {fileId : Text} {size : ℕ} (h : Written v) : Written (withFile settings fileId size v) := by
  cases v with
  | object members =>
    show WrittenMembers _
    rw [writtenMembers_iff]
    have hmembers := writtenMembers_iff.mp h
    refine forall_put (forall_put (forall_put hmembers ?_) ?_) ?_
    all_goals trivial
  | _ => exact h

end Contents

section Needs

/-- The files of one folder. -/
def folder (files : List (SendPath×ℕ)) (id : Uuid) : List (SendPath×ℕ) := files.filter fun f => f.1.1=id

/-- What may still be uploaded to a send. -/
def pending (files : List (SendPath×ℕ)) (s : Send) : ℤ :=
  if s.atype=SendFile then
    match (parse s.data).bind SendFileData.fromValue with
    | some f => if files.any (fun g => g.1.2=f.id)=true then 0 else f.size
    | none => 0
  else 0

/-- What a send takes of the storage, now or later, with its folder. -/
def need (files : List (SendPath×ℕ)) (s : Send) : ℤ := total (fun f => (f.2 : ℤ)) files+pending files s

/-- What a send counts. -/
def counted (s : Send) : ℤ := (countedSize s).getD 0

/-- What a send of the user needs. -/
def needOf (user : Uuid) (files : List (SendPath×ℕ)) (s : Send) : ℤ :=
  if s.userUuid=some user then need (folder files s.uuid) s else 0

/-- The size of all files that are stored for the sends of a user. -/
def stored (d : Depot SendPath) (user : Uuid) : ℤ :=
  total (fun f => (f.2 : ℤ)) (d.files.filter fun f =>
    (d.database.sends.filter fun s => s.userUuid=some user).any fun s => decide (f.1.1=s.uuid))

/-- The sends of a user count what they need, and need no more than the limit. -/
structure Within (limit : ℤ) (user : Uuid) (d : Depot SendPath) : Prop where
  /-- Folders belong to sends that were made. -/
  drawn : ∀ f∈d.files,f.1.1<d.database.next
  /-- Nothing is left out of the sum. -/
  counts : ∀ s∈d.database.sends,s.userUuid=some user → need (folder d.files s.uuid) s≤counted s
  /-- The limit holds. -/
  quota : total (needOf user d.files) d.database.sends≤1024*limit

theorem pending_nonneg {files : List (SendPath×ℕ)} {s : Send} : 0≤pending files s := by
  unfold pending
  split
  · split
    · split
      · exact Int.le_refl 0
      · omega
    · exact Int.le_refl 0
  · exact Int.le_refl 0

theorem files_nonneg {files : List (SendPath×ℕ)} : 0≤total (fun f => (f.2 : ℤ)) files :=
  total_nonneg fun f _ => by omega

theorem needOf_nonneg {files : List (SendPath×ℕ)} {s : Send} : 0≤needOf user files s := by
  unfold needOf need
  split
  · have hfiles : 0≤total (fun f => (f.2 : ℤ)) (folder files s.uuid) := files_nonneg
    have hpending : 0≤pending (folder files s.uuid) s := pending_nonneg
    omega
  · exact Int.le_refl 0

variable {d d' : Depot SendPath}

/-- The limit holds for the files. -/
theorem Within.stored_le (h : Within limit user d) : stored d user≤1024*limit := by
  have hfibers : stored d user≤total (fun s => total (fun f => (f.2 : ℤ)) (folder d.files s.uuid))
      (d.database.sends.filter fun s => s.userUuid=some user) := total_fibers_le fun f _ => by omega
  have hneeds : total (fun s => total (fun f => (f.2 : ℤ)) (folder d.files s.uuid))
      (d.database.sends.filter fun s => s.userUuid=some user)≤total (needOf user d.files) d.database.sends := by
    rw [total_filter]
    refine total_le_of_forall fun s _ => ?_
    unfold needOf need
    by_cases hown : s.userUuid=some user
    · rw [if_pos (decide_eq_true hown),if_pos hown]
      have hpending : 0≤pending (folder d.files s.uuid) s := pending_nonneg
      omega
    · exact Int.le_of_eq (by rw [if_neg (by simpa using hown),if_neg hown])
  have hquota := h.quota
  omega

/-- No send has a uuid that was not drawn. -/
theorem send_drawn {db : Database} : ∀ s∈db.sends,s.uuid<db.next := db.valid.2.2.2.2.2.2.2.2.2.2.1

/-- A folder in which nothing changes. -/
theorem needOf_congr {files files' : List (SendPath×ℕ)} {s : Send} (h : folder files' s.uuid=folder files s.uuid) :
    needOf user files' s=needOf user files s := by
  unfold needOf
  rw [h]

/-- A new file is in its folder only. -/
theorem folder_put_other {files : List (SendPath×ℕ)} {path : SendPath} {n : ℕ} {id : Uuid} (h : path.1≠id) :
    folder (put Prod.fst (path,n) files) id=folder files id := by
  have hrest : (files.filter fun f => f.1≠path).filter (fun f => f.1.1=id)=files.filter fun f => f.1.1=id := by
    rw [List.filter_filter]
    refine List.filter_congr fun f _ => ?_
    rw [Bool.eq_iff_iff,Bool.and_eq_true,decide_eq_true_eq,decide_eq_true_eq]
    refine ⟨And.left,fun hid => ⟨hid,fun hpath => h ?_⟩⟩
    rw [← hpath,hid]
  have hlast : [(path,n)].filter (fun f => f.1.1=id)=[] := by simp [h]
  unfold folder put
  rw [List.filter_append,hrest,hlast,List.append_nil]

/-- A new file is added to its folder. -/
theorem folder_put_new {files : List (SendPath×ℕ)} {path : SendPath} {n : ℕ} (h : path∉files.map Prod.fst) :
    folder (put Prod.fst (path,n) files) path.1=folder files path.1++[(path,n)] := by
  have hall : files.filter (fun f => f.1≠path)=files := by
    refine List.filter_eq_self.mpr fun f hf => decide_eq_true fun hpath => h ?_
    rw [← hpath]
    exact List.mem_map_of_mem hf
  have hlast : [(path,n)].filter (fun f => f.1.1=path.1)=[(path,n)] := by simp
  unfold folder put
  rw [List.filter_append,hall,hlast]

/-- A folder that was not drawn is empty. -/
theorem Within.folder_next (h : Within limit user d) : folder d.files d.database.next=[] := by
  unfold folder
  rw [List.filter_eq_nil_iff]
  intro f hf hid
  have hlt := h.drawn f hf
  rw [of_decide_eq_true hid] at hlt
  exact Nat.lt_irrefl _ hlt

/-- A new send, with a file or without, in a folder of its own. -/
theorem Within.create (h : Within limit user d) {s : Send} (huuid : s.uuid=d.database.next)
    (hsends : d'.database.sends=put ServerTables.Send.uuid s d.database.sends)
    (hnext : d.database.next< d'.database.next) (hfolders : ∀ id,id≠s.uuid → folder d'.files id=folder d.files id)
    (hdrawn : ∀ f∈d'.files,f∈d.files ∨ f.1.1=s.uuid) (hcounts : need (folder d'.files s.uuid) s≤counted s)
    (hroom : total (needOf user d.files) d.database.sends+need (folder d'.files s.uuid) s≤1024*limit) :
    Within limit user d' := by
  have hold : ∀ q∈d.database.sends,q.uuid≠s.uuid := by
    intro q hq hid
    have hlt := send_drawn q hq
    rw [hid,huuid] at hlt
    exact Nat.lt_irrefl _ hlt
  refine ⟨fun f hf => ?_,fun q hq hown => ?_,?_⟩
  · rcases hdrawn f hf with hf|hid
    · exact Nat.lt_trans (h.drawn f hf) hnext
    · rw [hid,huuid]
      exact hnext
  · rw [hsends,mem_put] at hq
    rcases hq with rfl|⟨hq,hid⟩
    · exact hcounts
    · rw [hfolders q.uuid hid]
      exact h.counts q hq hown
  · have hsame : total (needOf user d'.files) d.database.sends=total (needOf user d.files) d.database.sends :=
      total_congr fun q hq => needOf_congr (hfolders q.uuid (hold q hq))
    have hle : needOf user d'.files s≤need (folder d'.files s.uuid) s := by
      unfold needOf
      split
      · exact Int.le_refl _
      · have hfiles : 0≤total (fun f => (f.2 : ℤ)) (folder d'.files s.uuid) := files_nonneg
        have hpending : 0≤pending (folder d'.files s.uuid) s := pending_nonneg
        unfold need
        omega
    rw [hsends,total_put_new hold,hsame]
    omega

/-- A send that is changed, but not in what it needs. -/
theorem Within.change (h : Within limit user d) {s s' : Send} (hs : s∈d.database.sends) (huuid : s'.uuid=s.uuid)
    (hsends : d'.database.sends=put ServerTables.Send.uuid s' d.database.sends)
    (hnext : d'.database.next=d.database.next) (hfiles : d'.files=d.files) (hown : s'.userUuid=s.userUuid)
    (hneed : ∀ files,need files s'=need files s) (hcount : counted s'=counted s) : Within limit user d' := by
  have hsame : needOf user d'.files s'=needOf user d.files s := by
    unfold needOf
    rw [hown,huuid,hneed,hfiles]
  refine ⟨fun f hf => ?_,fun q hq hq' => ?_,?_⟩
  · rw [hfiles] at hf
    rw [hnext]
    exact h.drawn f hf
  · rw [hsends,mem_put] at hq
    rw [hfiles]
    rcases hq with rfl|⟨hq,_⟩
    · rw [hneed,huuid,hcount]
      exact h.counts s hs (hown ▸ hq')
    · exact h.counts q hq hq'
  · rw [hsends,total_put_old d.database.send_nodup hs huuid.symm,hsame,hfiles]
    have hquota := h.quota
    omega

/-- A declared file is uploaded. -/
theorem Within.upload (h : Within limit user d) {s : Send} {f : SendFileData} (hs : s∈d.database.sends)
    (hfile : s.atype=SendFile) (hdata : (parse s.data).bind SendFileData.fromValue=some f)
    (hnew : (s.uuid,f.id)∉d.files.map Prod.fst) (hdatabase : d'.database=d.database)
    (hfiles : d'.files=put Prod.fst ((s.uuid,f.id),f.size) d.files) : Within limit user d' := by
  have hbefore : pending (folder d.files s.uuid) s=f.size := by
    have hnone : (folder d.files s.uuid).any (fun g => g.1.2=f.id)=false := by
      rw [List.any_eq_false]
      intro g hg hid
      obtain ⟨hg,huuid⟩ := List.mem_filter.mp hg
      refine hnew ?_
      have hpath : g.1=(s.uuid,f.id) := Prod.ext (of_decide_eq_true huuid) (of_decide_eq_true hid)
      rw [← hpath]
      exact List.mem_map_of_mem hg
    simp only [pending,if_pos hfile,hdata,hnone]
    rfl
  have hafter : pending (folder d'.files s.uuid) s=0 := by
    have hsome : (folder d'.files s.uuid).any (fun g => g.1.2=f.id)=true := by
      rw [List.any_eq_true,hfiles]
      refine ⟨((s.uuid,f.id),f.size),?_,decide_eq_true rfl⟩
      exact List.mem_filter.mpr ⟨mem_put.mpr (.inl rfl),decide_eq_true rfl⟩
    simp only [pending,if_pos hfile,hdata,hsome]
    rfl
  have hsum : total (fun f => (f.2 : ℤ)) (folder d'.files s.uuid)=
      total (fun f => (f.2 : ℤ)) (folder d.files s.uuid)+f.size := by
    have hfolder : folder (put Prod.fst ((s.uuid,f.id),f.size) d.files) s.uuid=
        folder d.files s.uuid++[((s.uuid,f.id),f.size)] := folder_put_new hnew
    rw [hfiles,hfolder,total_append,total_cons,total_nil]
    omega
  have hneed : need (folder d'.files s.uuid) s=need (folder d.files s.uuid) s := by
    unfold need
    omega
  have hfolders : ∀ q∈d.database.sends,need (folder d'.files q.uuid) q=need (folder d.files q.uuid) q := by
    intro q hq
    by_cases hid : s.uuid=q.uuid
    · rw [eq_of_key d.database.send_nodup hq hs hid.symm]
      exact hneed
    · have hsame : folder d'.files q.uuid=folder d.files q.uuid := by
        rw [hfiles]
        exact folder_put_other hid
      rw [hsame]
  refine ⟨fun g hg => ?_,fun q hq hown => ?_,?_⟩
  · rw [hdatabase]
    rw [hfiles,mem_put] at hg
    rcases hg with rfl|⟨hg,_⟩
    · exact send_drawn s hs
    · exact h.drawn g hg
  · rw [hdatabase] at hq
    rw [hfolders q hq]
    exact h.counts q hq hown
  · have hsame : total (needOf user d'.files) d.database.sends=total (needOf user d.files) d.database.sends := by
      refine total_congr fun q hq => ?_
      unfold needOf
      rw [hfolders q hq]
    rw [hdatabase,hsame]
    exact h.quota

/-- A send is removed, and its folder if it has one. -/
theorem Within.remove (h : Within limit user d) {id : Uuid}
    (hsends : d'.database.sends=d.database.sends.filter fun q => q.uuid≠id)
    (hnext : d'.database.next=d.database.next) (hfolders : ∀ x,x≠id → folder d'.files x=folder d.files x)
    (hfiles : ∀ f∈d'.files,f∈d.files) : Within limit user d' := by
  refine ⟨fun f hf => ?_,fun q hq hown => ?_,?_⟩
  · rw [hnext]
    exact h.drawn f (hfiles f hf)
  · rw [hsends] at hq
    obtain ⟨hq,hid⟩ := List.mem_filter.mp hq
    rw [hfolders q.uuid (of_decide_eq_true hid)]
    exact h.counts q hq hown
  · have hsame : total (needOf user d'.files) d'.database.sends=total (needOf user d.files) d'.database.sends := by
      refine total_congr fun q hq => needOf_congr (hfolders q.uuid ?_)
      rw [hsends] at hq
      exact of_decide_eq_true (List.mem_filter.mp hq).2
    have hle : total (needOf user d.files) d'.database.sends≤total (needOf user d.files) d.database.sends := by
      rw [hsends]
      exact total_filter_le fun q _ => needOf_nonneg
    have hquota := h.quota
    omega

end Needs

section Handlers

variable {d : Depot SendPath} {db : Database}

/-- The policies are only read. -/
theorem ends_disablePolicy :
    Ends (enforceDisableSendPolicy settings.toSendSettings user) db fun _ db' => db'=db ∧ True := by
  unfold enforceDisableSendPolicy
  exact ends_lookup (Ends.ensure_done (fun _ => ⟨rfl,trivial⟩) fun _ => ⟨rfl,trivial⟩)

theorem ends_hidePolicy {data : SendData} :
    Ends (enforceDisableHideEmailPolicy settings.toSendSettings data user) db fun _ db' => db'=db ∧ True := by
  unfold enforceDisableHideEmailPolicy
  exact ends_lookup (Ends.ensure_done (fun _ => ⟨rfl,trivial⟩) fun _ => ⟨rfl,trivial⟩)

/-- What the sends of a user count. -/
def countedOf (user : Uuid) (s : Send) : ℤ := if s.userUuid=some user then counted s else 0

/-- A sum that does not overflow is exact. -/
theorem sizeByUser_eq {t : Tables} {used : ℤ} (h : Send.sizeByUser t user=some used) :
    used=total (countedOf user) t.sends := by
  have hsum := total_of_foldlM h
  rw [total_filter] at hsum
  rw [hsum,Int.zero_add]
  refine total_congr fun s _ => ?_
  unfold countedOf counted
  by_cases hown : s.userUuid=some user
  · rw [if_pos (decide_eq_true hown),if_pos hown]
  · rw [if_neg (by simpa using hown),if_neg hown]

/-- A file that is admitted fits beside all that is needed. -/
theorem ends_sendLimit (hlimit : settings.userSendLimit=some limit) : Ends (sendLimit settings user) db
    fun r db' => db'=db ∧ ∀ n,r=.ok n → n≤1024*limit-total (countedOf user) db.sends := by
  have hrefused : ∀ e,db=db ∧ ∀ n,(.error e : Except String ℤ)=.ok n → n≤1024*limit-total (countedOf user) db.sends := by
    refine fun e => ⟨rfl,fun n he => ?_⟩
    cases he
  unfold sendLimit
  rw [hlimit]
  by_cases hzero : limit=0
  · show Ends (if limit=0 then _ else _) db _
    rw [if_pos hzero]
    exact hrefused _
  · show Ends (if limit=0 then _ else _) db _
    rw [if_neg hzero]
    refine ends_lookup ?_
    refine Ends.expect (fun used hused => ?_) fun _ => hrefused _
    refine Ends.expect (fun left hleft => ?_) fun _ => hrefused _
    refine Ends.ensure (fun hpos => ⟨rfl,fun n hn => ?_⟩) fun _ => hrefused _
    cases hn
    obtain ⟨l,hl,hsub⟩ := Option.bind_eq_some_iff.mp hleft
    obtain ⟨rfl,_⟩ := toI64_eq_some_iff.mp hl
    obtain ⟨rfl,_⟩ := toI64_eq_some_iff.mp hsub
    have hsum := sizeByUser_eq hused
    have hpositive := of_decide_eq_true hpos
    omega

/-- A created send. -/
structure Created (data : FileSendData) (user : Uuid) (db : Database) (s : Send) : Prop where
  /-- Its uuid is new. -/
  uuid : s.uuid=db.next
  /-- It is the user's. -/
  owner : s.userUuid=some user
  /-- It belongs to no organisation. -/
  organization : s.organizationUuid=none
  /-- Its type. -/
  type : s.atype=data.type
  /-- Its content. -/
  content : data.content=.ok s.data

theorem ends_createSend {salt : Bytes} {data : FileSendData} : Ends (createSend settings salt data user) db
    fun r db' => (db'=db ∨ db'=db.drawn) ∧ ∀ s,r=.ok s → db'=db.drawn ∧ Created data user db s := by
  have hrefused : ∀ e db',(db'=db ∨ db'=db.drawn) → (db'=db ∨ db'=db.drawn) ∧
      ∀ s,(.error e : Except String Send)=.ok s → db'=db.drawn ∧ Created data user db s := by
    refine fun e db' h => ⟨h,fun s he => ?_⟩
    cases he
  unfold createSend
  refine ends_fromExcept (fun content hcontent => ?_) fun e _ => hrefused _ _ (.inl rfl)
  refine ends_utcNow ?_
  refine Ends.ensure (fun _ => ?_) fun _ => hrefused _ _ (.inl rfl)
  refine ends_getUuid ?_
  refine ends_fromExcept (fun n _ => ⟨.inr rfl,fun s hs => ⟨rfl,?_⟩⟩) fun e _ => hrefused _ _ (.inr rfl)
  cases hs
  unfold Send.setPassword
  cases data.password with
  | none => exact ⟨rfl,rfl,rfl,rfl,hcontent⟩
  | some password => exact ⟨rfl,rfl,rfl,rfl,hcontent⟩

/-- The content of a new file send is read back. -/
theorem Created.parsed {data : FileSendData} {s : Send} (h : Created data user db s) (hfile : data.type=SendFile) :
    ∃ v,data.file=some v ∧ Written (withoutResponse v) ∧ parse s.data=some (withoutResponse v) := by
  have hcontent := h.content
  have htext : data.type≠SendText := by
    rw [hfile]
    decide
  unfold FileSendData.content at hcontent
  rw [if_neg htext,if_pos hfile] at hcontent
  cases hv : data.file with
  | none =>
    rw [hv] at hcontent
    cases hcontent
  | some v =>
    rw [hv] at hcontent
    have hwritten := written_withoutResponse (data.written v hv)
    refine ⟨v,rfl,hwritten,?_⟩
    have heq : s.data=stringify 0 (withoutResponse v) := (Except.ok.inj hcontent).symm
    rw [heq]
    exact parse_written 0 hwritten

/-- A new send is accepted. -/
theorem ends_save {s : Send} (hdrawn : s.uuid<db.next) (huser : ∃ u∈db.users,s.userUuid=some u.uuid)
    (horg : s.organizationUuid=none) : Ends (Send.save s) db fun r db' => r=.ok () ∧
      db'.sends=put ServerTables.Send.uuid s db.sends ∧ db'.next=db.next :=
  ends_update_done (valid_send db.valid hdrawn (.inr huser) (.inl horg)) ⟨rfl,rfl,rfl⟩

end Handlers

section Requests

variable {d d' : Depot SendPath} {s : Send} {v : Value} {fileId : Text} {length : ℕ}

/-- Files are uploaded for a content that is an object, with the identifier and
the size that the server has put there. -/
theorem uploadable {f : SendFileData} (h : SendFileData.fromValue (withFile settings fileId length v)=some f) :
    f.id=fileId ∧ f.size=length ∨ contentSize (withFile settings fileId length v)=none := by
  cases v with
  | object ms => exact .inl (fromValue_withFile h)
  | array items => exact .inr (uncounted_array h)
  | null => cases h
  | bool b => cases h
  | number n => cases h
  | decimal w => cases h
  | string s => cases h

/-- A stored file whose content counts it. -/
theorem need_stored {n : ℤ} (hfile : s.atype=SendFile) (hdata : parse s.data=some (withFile settings fileId length v))
    (hsize : contentSize (withFile settings fileId length v)=some n) :
    need [((s.uuid,fileId),length)] s=length ∧ counted s=n := by
  have hpending : pending [((s.uuid,fileId),length)] s=0 := by
    simp only [pending,if_pos hfile,hdata,Option.bind_some]
    cases hf : SendFileData.fromValue (withFile settings fileId length v) with
    | none => rfl
    | some f =>
      rcases uploadable hf with ⟨hid,_⟩|hnone
      · simp [hid]
      · rw [hnone] at hsize
        cases hsize
  constructor
  · unfold need
    rw [hpending,total_cons,total_nil]
    omega
  · simp only [counted,countedSize,if_pos hfile,hdata,Option.bind_some,hsize,Option.getD_some]

/-- What a new content says of its file: the sum counts a file that is stored
with it, or that may be uploaded. -/
def CountsStored (settings : UploadSettings) (fileId : Text) (length : ℕ) (v : Value) : Prop :=
  ∃ n,contentSize (withFile settings fileId length (withoutResponse v))=some n ∧ length≤n

/-- The same for a file that follows. -/
def CountsDeclared (settings : UploadSettings) (fileId : Text) (length : ℕ) (v : Value) : Prop :=
  (∀ n,contentSize (withFile settings fileId length (withoutResponse v))=some n → 0≤n) ∧
  ∀ f,SendFileData.fromValue (withFile settings fileId length (withoutResponse v))=some f →
    ∃ n,contentSize (withFile settings fileId length (withoutResponse v))=some n ∧ f.size≤n

/-- A declared file whose content counts it. -/
theorem need_declared (hfile : s.atype=SendFile)
    (hdata : parse s.data=some (withFile settings fileId length (withoutResponse v)))
    (hcounts : CountsDeclared settings fileId length v) : need [] s≤counted s ∧ need [] s≤length := by
  have hcounted : counted s=(contentSize (withFile settings fileId length (withoutResponse v))).getD 0 := by
    simp only [counted,countedSize,if_pos hfile,hdata,Option.bind_some]
  have hneed : need [] s=pending [] s := by
    unfold need
    rw [total_nil,Int.zero_add]
  rw [hneed,hcounted]
  simp only [pending,if_pos hfile,hdata,Option.bind_some]
  cases hf : SendFileData.fromValue (withFile settings fileId length (withoutResponse v)) with
  | none =>
    constructor
    · cases hsize : contentSize (withFile settings fileId length (withoutResponse v)) with
      | none => exact Int.le_refl 0
      | some n => exact hcounts.1 n hsize
    · show (0 : ℤ)≤length
      omega
  | some f =>
    obtain ⟨n,hsize,hle⟩ := hcounts.2 f hf
    rcases uploadable hf with ⟨_,hlength⟩|hnone
    · rw [hsize]
      refine ⟨hle,?_⟩
      show (f.size : ℤ)≤length
      omega
    · rw [hnone] at hsize
      cases hsize

/-- The sum covers all needs. -/
theorem Within.needs_le (h : Within limit user d) :
    total (needOf user d.files) d.database.sends≤total (countedOf user) d.database.sends := by
  refine total_le_of_forall fun s hs => ?_
  unfold needOf countedOf
  by_cases hown : s.userUuid=some user
  · rw [if_pos hown,if_pos hown]
    exact h.counts s hs hown
  · exact Int.le_of_eq (by rw [if_neg hown,if_neg hown])

/-- A uuid that was drawn for nothing. -/
theorem Within.waste (h : Within limit user d) : Within limit user {d with database := d.database.drawn} :=
  ⟨fun f hf => Nat.lt_succ_of_lt (h.drawn f hf),h.counts,h.quota⟩

/-- A new send with its file. -/
theorem keeps_postSendFile {salt : Bytes} {data : FileSendData} (hlimit : settings.userSendLimit=some limit)
    (hcounts : (length : ℤ)≤I64_MAX → ∀ v,data.type=SendFile → data.file=some v →
      CountsStored settings fileId length v)
    (h : Within limit user d) :
    Ends (postSendFile settings user salt fileId data length) d fun _ d' => Within limit user d' := by
  unfold postSendFile
  refine ends_reads CipherUpdates.ends_guard (fun u hguard => ?_) fun _ _ => h
  obtain hguard|⟨u',hu,huuid,hguard⟩ := hguard
  · cases hguard
  cases hguard
  refine ends_reads ends_disablePolicy (fun _ _ => ?_) fun _ _ => h
  refine Ends.expect (fun size hsize => ?_) fun _ => h
  refine Ends.ensure (fun _ => ?_) fun _ => h
  refine ends_reads ends_hidePolicy (fun _ _ => ?_) fun _ _ => h
  rw [huuid]
  refine ends_reads (ends_sendLimit hlimit) (fun left hleft => ?_) fun _ _ => h
  refine Ends.ensure (fun hle => ?_) fun _ => h
  refine ends_inDatabase_bind ends_createSend (fun s db ⟨hdb,hcreated⟩ => ?_) fun e db ⟨hdb,_⟩ => ?_
  · obtain ⟨rfl,hs⟩ := hcreated s rfl
    refine Ends.ensure (fun htype => ?_) fun _ => h.waste
    have hfile : s.atype=SendFile := of_decide_eq_true htype
    obtain ⟨v,hv,hwritten,hparsed⟩ := hs.parsed (hs.type.symm.trans hfile)
    refine ends_saveTempFile ?_
    refine Ends.expect (fun w hw => ?_) fun hnone => ?_
    · rw [hparsed] at hw
      cases hw
      have hdrawn : s.uuid< d.database.drawn.next := by
        rw [hs.uuid]
        exact Nat.lt_succ_self _
      have hsave : Ends (Send.save {s with data := stringify 0 (withFile settings fileId length (withoutResponse v))})
          d.database.drawn fun r db' => r=.ok () ∧ db'.sends=put ServerTables.Send.uuid
            {s with data := stringify 0 (withFile settings fileId length (withoutResponse v))}
            d.database.drawn.sends ∧ db'.next=d.database.drawn.next :=
        ends_save hdrawn ⟨u,hu,hs.owner.trans (congrArg some huuid.symm)⟩ hs.organization
      refine ends_inDatabase (hsave.mono fun r db ⟨_,hsends,hnext⟩ => ?_)
      obtain ⟨n,hcount,hn⟩ := hcounts (toI64_eq_some_iff.mp hsize).2.2 v (hs.type.symm.trans hfile) hv
      have hdata : parse (stringify 0 (withFile settings fileId length (withoutResponse v)))=
          some (withFile settings fileId length (withoutResponse v)) := parse_written 0 (written_withFile hwritten)
      have hneeds := need_stored (s:={s with data := stringify 0 (withFile settings fileId length (withoutResponse v))})
        hfile hdata hcount
      have hnew : (s.uuid,fileId)∉d.files.map Prod.fst := by
        intro hmem
        obtain ⟨f,hf,hpath⟩ := List.mem_map.mp hmem
        have hlt := h.drawn f hf
        rw [hpath] at hlt
        rw [hs.uuid] at hlt
        exact Nat.lt_irrefl _ hlt
      have hfolder : folder (put Prod.fst ((s.uuid,fileId),length) d.files) s.uuid=[((s.uuid,fileId),length)] := by
        have hput : folder (put Prod.fst ((s.uuid,fileId),length) d.files) s.uuid=
            folder d.files s.uuid++[((s.uuid,fileId),length)] := folder_put_new hnew
        rw [hput,hs.uuid,h.folder_next,List.nil_append]
      have hlength := (toI64_eq_some_iff.mp hsize).1
      have hroom := hleft left rfl
      have hfits := of_decide_eq_true hle
      have hcovered := h.needs_le
      refine h.create (s:={s with data := stringify 0 (withFile settings fileId length (withoutResponse v))})
        hs.uuid hsends ?_ (fun id hid => folder_put_other fun he => hid he.symm) (fun f hf => ?_) ?_ ?_
      · rw [hnext]
        exact Nat.lt_succ_self _
      · rcases mem_put.mp hf with rfl|⟨hf,_⟩
        · exact .inr rfl
        · exact .inl hf
      · rw [hfolder,hneeds.1,hneeds.2]
        exact hn
      · rw [hfolder,hneeds.1]
        omega
    · rw [hparsed] at hnone
      cases hnone
  · rcases hdb with rfl|rfl
    · exact h
    · exact h.waste

/-- A new send whose file is to follow. -/
theorem keeps_postSendFileV2 {salt : Bytes} {data : FileSendData} (hlimit : settings.userSendLimit=some limit)
    (hcounts : ∀ v l length,data.type=SendFile → data.file=some v → data.fileLength=some l →
      NumberOrString.intoI64 l=.ok length → CountsDeclared settings fileId length.toNat v)
    (h : Within limit user d) :
    Ends (inDatabase (postSendFileV2 settings user salt fileId data)) d fun _ d' => Within limit user d' := by
  refine ends_inDatabase ?_
  unfold postSendFileV2
  refine ends_headers (fun u hu huuid => ?_) h
  refine ends_disablePolicy.bind (fun _ db ⟨hdb,_⟩ => ?_) fun e db ⟨hdb,_⟩ => hdb ▸ h
  subst hdb
  refine Ends.ensure (fun htype => ?_) fun _ => h
  refine ends_hidePolicy.bind (fun _ db ⟨hdb,_⟩ => ?_) fun e db ⟨hdb,_⟩ => hdb ▸ h
  subst hdb
  refine Ends.expect (fun l hl => ?_) fun _ => h
  refine ends_fromExcept (fun length hlength => ?_) fun e _ => h
  refine Ends.ensure (fun hpos => ?_) fun _ => h
  rw [huuid]
  refine (ends_sendLimit hlimit).bind (fun left db ⟨hdb,hleft⟩ => ?_) fun e db ⟨hdb,_⟩ => hdb ▸ h
  subst hdb
  refine Ends.ensure (fun hle => ?_) fun _ => h
  refine (ends_createSend).bind (fun s db ⟨hdb,hcreated⟩ => ?_) fun e db ⟨hdb,_⟩ => ?_
  · obtain ⟨rfl,hs⟩ := hcreated s rfl
    have hdataType : data.type=SendFile := of_decide_eq_true htype
    have hfile : s.atype=SendFile := hs.type.trans hdataType
    obtain ⟨v,hv,hwritten,hparsed⟩ := hs.parsed hdataType
    refine Ends.expect (fun w hw => ?_) fun hnone => ?_
    · rw [hparsed] at hw
      cases hw
      have hdrawn : s.uuid< d.database.drawn.next := by
        rw [hs.uuid]
        exact Nat.lt_succ_self _
      have hsave := ends_save (s:={s with data := stringify 0 (withFile settings fileId length.toNat (withoutResponse v))})
        hdrawn ⟨u,hu,hs.owner.trans (congrArg some huuid.symm)⟩ hs.organization
      refine hsave.mono fun r db ⟨_,hsends,hnext⟩ => ?_
      have hdata : parse (stringify 0 (withFile settings fileId length.toNat (withoutResponse v)))=
          some (withFile settings fileId length.toNat (withoutResponse v)) := parse_written 0 (written_withFile hwritten)
      have hneeds := need_declared
        (s:={s with data := stringify 0 (withFile settings fileId length.toNat (withoutResponse v))})
        hfile hdata (hcounts v l length hdataType hv hl hlength)
      have hfolder : folder d.files s.uuid=[] := by
        rw [hs.uuid]
        exact h.folder_next
      have hroom := hleft left rfl
      have hfits := of_decide_eq_true hle
      have hpositive := of_decide_eq_true hpos
      have hcovered := h.needs_le
      refine h.create (s:={s with data := stringify 0 (withFile settings fileId length.toNat (withoutResponse v))})
        hs.uuid hsends ?_ (fun _ _ => rfl) (fun f hf => .inl hf) ?_ ?_
      · show d.database.next<db.next
        rw [hnext]
        exact Nat.lt_succ_self _
      · show need (folder d.files s.uuid) _≤_
        rw [hfolder]
        exact hneeds.1
      · show _+need (folder d.files s.uuid) _≤_
        rw [hfolder]
        omega
    · rw [hparsed] at hnone
      cases hnone
  · rcases hdb with rfl|rfl
    · exact h
    · exact h.waste

/-- The file of a declared send. -/
theorem keeps_postSendFileV2Data {id : Uuid} {rawName : Option Text} {isCli : Bool} (h : Within limit user d) :
    Ends (postSendFileV2Data settings user id fileId rawName isCli length) d fun _ d' => Within limit user d' := by
  have hfound : Ends (findForUpload settings user id fileId rawName isCli length) d.database fun r db =>
      db=d.database ∧ (r=.ok () → ∃ s f,s∈d.database.sends ∧ s.uuid=id ∧ s.atype=SendFile ∧
        (parse s.data).bind SendFileData.fromValue=some f ∧ f.id=fileId ∧ f.size=length) := by
    have hrefused : ∀ e,d.database=d.database ∧ ((.error e : Except String Unit)=.ok () → ∃ s f,s∈d.database.sends ∧
        s.uuid=id ∧ s.atype=SendFile ∧ (parse s.data).bind SendFileData.fromValue=some f ∧ f.id=fileId ∧
        f.size=length) := by
      refine fun e => ⟨rfl,fun he => ?_⟩
      cases he
    unfold findForUpload
    refine ends_headers (fun u _ _ => ?_) (hrefused _)
    refine ends_disablePolicy.bind (fun _ db ⟨hdb,_⟩ => ?_) fun e db ⟨hdb,_⟩ => hdb ▸ hrefused e
    subst hdb
    refine ends_lookup ?_
    refine Ends.expect (fun s hs => ?_) fun _ => hrefused _
    refine Ends.ensure (fun htype => ?_) fun _ => hrefused _
    refine Ends.expect (fun f hf => ?_) fun _ => hrefused _
    refine Ends.ensure (fun _ => ?_) fun _ => hrefused _
    refine Ends.ensure (fun hid => ?_) fun _ => hrefused _
    refine Ends.ensure (fun _ => ?_) fun _ => hrefused _
    refine Ends.ensure_done (fun hsize => ⟨rfl,fun _ => ?_⟩) fun _ => hrefused _
    have hkey := List.find?_some hs
    rw [decide_eq_true_eq] at hkey
    exact ⟨s,f,List.mem_of_find?_eq_some hs,hkey.1,of_decide_eq_true htype,hf,(of_decide_eq_true hid).symm,
      (of_decide_eq_true hsize).symm⟩
  unfold postSendFileV2Data
  refine ends_reads hfound (fun _ hok => ?_) fun _ _ => h
  obtain ⟨s,f,hs,rfl,htype,hf,rfl,rfl⟩ := hok rfl
  exact ends_saveTempFile_new (fun hnew => h.upload hs htype hf hnew rfl rfl) fun _ => h

/-- A changed send keeps its file. -/
theorem keeps_putSend {id : Uuid} {salt : Bytes} {data : SendData} (h : Within limit user d) :
    Ends (inDatabase (putSend settings.toSendSettings user id salt data)) d fun _ d' => Within limit user d' := by
  refine ends_inDatabase ?_
  unfold putSend
  refine ends_disablePolicy.bind (fun _ db ⟨hdb,_⟩ => ?_) fun e db ⟨hdb,_⟩ => hdb ▸ h
  subst hdb
  refine ends_hidePolicy.bind (fun _ db ⟨hdb,_⟩ => ?_) fun e db ⟨hdb,_⟩ => hdb ▸ h
  subst hdb
  refine ends_lookup ?_
  refine Ends.expect (fun s hs => ?_) fun _ => h
  have hmem : s∈d.database.sends := List.mem_of_find?_eq_some hs
  have hupdated : Ends (updateSendFromData settings.toSendSettings salt s data user) d.database fun _ db =>
      Within limit user {d with database := db} := by
    unfold updateSendFromData
    refine Ends.ensure (fun _ => ?_) fun _ => h
    refine Ends.ensure (fun htype => ?_) fun _ => h
    refine ends_utcNow ?_
    refine Ends.ensure (fun _ => ?_) fun _ => h
    refine Ends.expect (fun content hcontent => ?_) fun _ => h
    refine ends_fromExcept (fun n _ => ?_) fun e _ => h
    refine ends_update_cases (fun db hdb => ?_) h
    have hkept : s.atype=SendFile → content=s.data := by
      intro hfile
      have htext : data.type≠SendText := by
        rw [← of_decide_eq_true htype,hfile]
        decide
      rw [if_neg htext] at hcontent
      cases hcontent
      rfl
    have hfields : (updatedSend settings.toSendSettings salt data n content s).uuid=s.uuid ∧
        (updatedSend settings.toSendSettings salt data n content s).userUuid=s.userUuid ∧
        (updatedSend settings.toSendSettings salt data n content s).atype=s.atype ∧
        (updatedSend settings.toSendSettings salt data n content s).data=content := by
      unfold updatedSend
      cases data.password with
      | none => exact ⟨rfl,rfl,rfl,rfl⟩
      | some password => exact ⟨rfl,rfl,rfl,rfl⟩
    obtain ⟨huuid,howner,hatype,hdata⟩ := hfields
    have hsends : db.sends=_ := congrArg Tables.sends hdb
    have hnext : db.next=_ := congrArg Tables.next hdb
    refine h.change hmem huuid hsends hnext rfl howner (fun files => ?_) ?_
    · unfold need pending
      rw [hatype,hdata]
      by_cases hfile : s.atype=SendFile
      · rw [hkept hfile]
      · rw [if_neg hfile,if_neg hfile]
    · unfold counted countedSize
      rw [hatype,hdata]
      by_cases hfile : s.atype=SendFile
      · rw [hkept hfile]
      · rw [if_neg hfile,if_neg hfile]
  exact hupdated.bind (fun _ _ hq => hq) fun _ _ hq => hq

/-- Nothing but the folder of a send is emptied. -/
theorem ends_deleteFolder : Ends (Send.deleteFolder settings s) d fun r d' => (∀ e,r=.error e → d'=d) ∧
    d'.database=d.database ∧ (∀ x,x≠s.uuid → folder d'.files x=folder d.files x) ∧ ∀ f∈d'.files,f∈d.files := by
  have hsame : (∀ e : String,(.error e : Except String Unit)=.error e → d=d) ∧ d.database=d.database ∧
      (∀ x,x≠s.uuid → folder d.files x=folder d.files x) ∧ ∀ f∈d.files,f∈d.files :=
    ⟨fun _ _ => rfl,rfl,fun _ _ => rfl,fun _ hf => hf⟩
  unfold Send.deleteFolder
  by_cases hfile : s.atype=SendFile
  · rw [if_pos hfile]
    refine Ends.ensure (fun _ => ?_) fun _ => ⟨fun _ _ => rfl,hsame.2⟩
    have hdeleted : Ends (deleteFiles fun path => decide (path.1=s.uuid)) d fun r d' => r=.ok () ∧
        d'={d with files := d.files.filter fun f => !decide (f.1.1=s.uuid)} := ends_deleteFiles ⟨rfl,rfl⟩
    refine hdeleted.rescue (fun _ d' ⟨_,hd⟩ => ?_) fun e d' ⟨he,_⟩ => ?_
    · subst hd
      refine ⟨fun e he => ?_,rfl,fun x hx => ?_,fun f hf => (List.mem_filter.mp hf).1⟩
      · cases he
      · unfold folder
        rw [List.filter_filter]
        refine List.filter_congr fun f _ => ?_
        rw [Bool.eq_iff_iff,Bool.and_eq_true,decide_eq_true_eq,Bool.not_eq_true',decide_eq_false_iff_not]
        refine ⟨And.left,fun hid => ⟨hid,fun he => hx ?_⟩⟩
        rw [← hid,he]
    · cases he
  · rw [if_neg hfile]
    exact ⟨fun _ _ => rfl,hsame.2⟩

/-- A removed send. -/
theorem keeps_deleteSend {id : Uuid} (h : Within limit user d) :
    Ends (SendStorage.deleteSend settings user id) d fun _ d' => Within limit user d' := by
  have hfound : Ends (lookup fun t => Send.findByUuidAndUser t id user) d.database fun _ db =>
      db=d.database ∧ True := Ends.query_done ⟨rfl,trivial⟩
  unfold SendStorage.deleteSend
  refine ends_reads hfound (fun found _ => ?_) fun _ _ => h
  refine Ends.expect (fun s _ => ?_) fun _ => h
  unfold Send.deleteStored
  refine (ends_deleteFolder).bind (fun _ d' ⟨_,hdb,hfolders,hfiles⟩ => ?_) fun e d' ⟨hsame,_⟩ => ?_
  · refine ends_inDatabase (ends_update_done (valid_removeSends d'.database.valid) ?_)
    have hsends : (d'.database.sends.filter fun q => q.uuid≠s.uuid)=
        d.database.sends.filter fun q => q.uuid≠s.uuid := by rw [hdb]
    exact h.remove hsends (by rw [hdb]) hfolders hfiles
  · rw [hsame e rfl]
    exact h

/-- Requests of a user for sends with files. -/
inductive Request where
  /-- `post_send_file`. -/
  | postSendFile (salt : Bytes) (fileId : Text) (data : FileSendData) (length : ℕ)
  /-- `post_send_file_v2`. -/
  | postSendFileV2 (salt : Bytes) (fileId : Text) (data : FileSendData)
  /-- `post_send_file_v2_data`. -/
  | postSendFileV2Data (id : Uuid) (fileId : Text) (rawName : Option Text) (isCli : Bool) (length : ℕ)
  /-- `put_send`. -/
  | putSend (id : Uuid) (salt : Bytes) (data : SendData)
  /-- `delete_send`. -/
  | deleteSend (id : Uuid)

/-- The handler of a request. -/
def handle (settings : UploadSettings) (user : Uuid) : Request → Handler (Depot SendPath) String Unit
  | .postSendFile salt fileId data length => postSendFile settings user salt fileId data length
  | .postSendFileV2 salt fileId data => inDatabase (postSendFileV2 settings user salt fileId data)
  | .postSendFileV2Data id fileId rawName isCli length =>
    postSendFileV2Data settings user id fileId rawName isCli length
  | .putSend id salt data => inDatabase (putSend settings.toSendSettings user id salt data)
  | .deleteSend id => SendStorage.deleteSend settings user id

/-- The state after a request that runs alone. -/
def serve (settings : UploadSettings) (user : Uuid) (d : Depot SendPath) (q : Request) : Depot SendPath :=
  (complete (handle settings user q) d).2

/-- A new content counts its file. -/
def Counts (settings : UploadSettings) : Request → Prop
  | .postSendFile _ fileId data length =>
    (length : ℤ)≤I64_MAX → ∀ v,data.type=SendFile → data.file=some v → CountsStored settings fileId length v
  | .postSendFileV2 _ fileId data => ∀ v l length,data.type=SendFile → data.file=some v → data.fileLength=some l →
    NumberOrString.intoI64 l=.ok length → CountsDeclared settings fileId length.toNat v
  | _ => True

/-- Every such request keeps the limit. -/
theorem keeps_handle {q : Request} (hlimit : settings.userSendLimit=some limit) (hcounts : Counts settings q)
    (h : Within limit user d) : Ends (handle settings user q) d fun _ d' => Within limit user d' := by
  cases q with
  | postSendFile salt fileId data length => exact keeps_postSendFile hlimit hcounts h
  | postSendFileV2 salt fileId data => exact keeps_postSendFileV2 hlimit hcounts h
  | postSendFileV2Data id fileId rawName isCli length => exact keeps_postSendFileV2Data h
  | putSend id salt data => exact keeps_putSend h
  | deleteSend id => exact keeps_deleteSend h

/-- An object without `Size` counts its file. -/
theorem counts_object {ms : List (Text×Value)} (hfits : (length : ℤ)≤I64_MAX) (hplain : ∀ m∈ms,m.1≠"Size".toList) :
    CountsStored settings fileId length (.object ms) ∧ CountsDeclared settings fileId length (.object ms) := by
  have hsize : contentSize (withFile settings fileId length (withoutResponse (.object ms)))=some (length : ℤ) :=
    contentSize_object hfits fun m hm => hplain m (List.mem_filter.mp hm).1
  refine ⟨⟨length,hsize,Int.le_refl _⟩,fun n hn => ?_,fun f hf => ⟨length,hsize,?_⟩⟩
  · rw [hsize] at hn
    cases hn
    omega
  · rcases uploadable hf with ⟨_,hlength⟩|hnone
    · omega
    · rw [hsize] at hnone
      cases hnone

end Requests

section Main

/-- In every run of the requests of a user, the files of the user's sends are
within the limit. -/
def KeepsQuota (settings : UploadSettings) (limit : ℤ) (ok : Request → Prop) : Prop :=
  ∀ user d requests,Within limit user d → (∀ q∈requests,ok q) →
    stored (run (serve settings user) d requests) user≤1024*limit

/-- Runs whose new contents count their files keep the limit. -/
theorem quota_kept (hlimit : settings.userSendLimit=some limit) : KeepsQuota settings limit (Counts settings) := by
  intro user d requests h hcounts
  have hall : Admits (serve settings user) (fun _ q => Counts settings q) d requests :=
    Admits.of_forall (fun q hq _ => hcounts q hq) d
  have hend : Within limit user (run (serve settings user) d requests) :=
    run_invariant (fun _ _ hs hq => keeps_handle hlimit hq hs) h hall
  exact hend.stored_le

/-- A server with a limit for sends. -/
def limited (limit : ℤ) : UploadSettings where
  sendsAllowed := true
  disableSend _ _ := false
  isHideEmailDisabled _ _ := false
  hashPassword _ _ _ := []
  sendsStorage := true
  userSendLimit := some limit
  getDisplaySize _ := []

/-- An account without sends. -/
def noSends : Depot SendPath := ⟨⟨{Tables.none with users := [User.new 0 0 [] 600000 ['a'] none], next := 1},by decide⟩,[]⟩

theorem within_noSends : Within 1 0 noSends := by
  refine ⟨fun f hf => ?_,fun s hs => ?_,by decide⟩
  · cases hf
  · cases hs

/-- A new file send with some content. -/
def fileSend (v : Value) (h : Written v) : FileSendData where
  type := SendFile
  key := []
  password := none
  maxAccessCount := none
  expirationDate := none
  deletionDate := 0
  disabled := false
  hideEmail := none
  name := []
  notes := none
  text := none
  id := none
  file := some v
  fileLength := none
  written w hw := by
    cases hw
    exact h
  sized n hn := by cases hn

/-- Uploads with empty objects stay within the limit. -/
theorem object_kept : stored (run (serve (limited 1) 0) noSends
    [.postSendFile [] ['f'] (fileSend (.object []) trivial) 600,
      .postSendFile [] ['f'] (fileSend (.object []) trivial) 600]) 0≤1024*1 := by
  refine quota_kept rfl 0 noSends _ within_noSends fun q hq => ?_
  have hplain : CountsStored (limited 1) ['f'] 600 (.object []) := (counts_object (by decide) (by simp)).1
  rcases List.mem_cons.mp hq with rfl|hq
  · intro _ v _ hv
    cases hv
    exact hplain
  · cases List.mem_singleton.mp hq
    intro _ v _ hv
    cases hv
    exact hplain

/-- Uploads with strings do not. -/
theorem string_exceeds : ¬KeepsQuota (limited 1) 1 fun _ => True := by
  intro h
  have hkept := h 0 noSends [.postSendFile [] ['f'] (fileSend (.string ['x']) trivial) 600,
    .postSendFile [] ['f'] (fileSend (.string ['x']) trivial) 600] within_noSends fun _ _ => trivial
  revert hkept
  decide

end Main

end NadSafe.SendQuota
