import NadSafe.CipherHandlers
import NadSafe.TableWrites

/-!
# What an update of a cipher does

`update_cipher_from_data` runs a sequence of checks, then seals attachments
anew, then looks at the content and saves the cipher. The first check that
refuses decides its error. After the checks, only the content can still
refuse, and then the attachments have been written.
-/

namespace NadSafe.CipherUpdates

open HostText JsonText TableRows AsyncScript ServerTables AccessQueries StoreScript ServerModels
open CipherHandlers PlannedScript TableWrites

/-- `OrgPolicy::is_applicable_to_user` in one state. -/
def applicable (t : Tables) (user : Uuid) (atype : OrgPolicyType) (excludeOrg : Option Uuid) : Bool :=
  (((innerJoin t.policies t.members fun p m => m.orgUuid=p.orgUuid ∧ m.userUuid=user).filter fun (p,m) =>
    (m.status=Accepted ∨ m.status=Confirmed) ∧ p.atype=atype).filter
      fun (p,_) => excludeOrg≠some p.orgUuid).any fun (p,_) =>
    (Membership.findConfirmedByUserAndOrg t user p.orgUuid).any fun m => ¬(MembershipType.admin≤ m.atype)

/-- The check of the policy on personal items. -/
def policyRefusal (t : Tables) (user : Uuid) (data : CipherData) : Option String :=
  if data.organizationId=none ∧ applicable t user .personalOwnership none=true then
    some "Due to an Enterprise Policy, you are restricted from saving items to your personal vault."
  else none

/-- The checks of what the request says about the stored cipher. -/
def dataRefusal (settings : VaultSettings) (c : Cipher) (data : CipherData) (ut : UpdateType) :
    Option String :=
  if ut≠.none ∧ stale settings c data=true then
    some "The client copy of this cipher is out of date. Resync the client and try again."
  else if c.organizationUuid≠none ∧ c.organizationUuid≠data.organizationId then
    some "Organization mismatch. Please resync the client before updating the cipher"
  else if notesFit settings data=false then
    some ("The field Notes exceeds the maximum encrypted value length of "++toString settings.maxNoteSize++
      " characters.")
  else none

/-- The check of the owner. -/
def ownerRefusal (settings : VaultSettings) (t : Tables) (user : Uuid) (c : Cipher) (data : CipherData)
    (shared : Bool) : Option String :=
  match data.organizationId with
  | none => none
  | some org =>
    match Membership.findConfirmedByUserAndOrg t user org with
    | none => some "You don't have permission to add item to organization"
    | some m =>
      if (shared || m.hasFullAccess || Cipher.isWriteAccessibleToUser settings.toConfig t c user)=true then none
      else some "You don't have permission to add cipher directly to organization"

/-- The check of the folder. -/
def folderRefusal (t : Tables) (user : Uuid) (data : CipherData) : Option String :=
  if (data.folderId.any fun id => (t.folders.find? fun f => f.uuid=id ∧ f.userUuid=user).isNone)=true then
    some "Invalid folder"
  else none

/-- The first check that refuses an update, before anything is written. -/
def refusal (settings : VaultSettings) (t : Tables) (user : Uuid) (c : Cipher) (data : CipherData)
    (shared : Bool) (ut : UpdateType) : Option String :=
  (policyRefusal t user data).or ((dataRefusal settings c data ut).or
    ((ownerRefusal settings t user c data shared).or (folderRefusal t user data)))

/-- The cipher with the owner that a request names. -/
def owned (user : Uuid) (c : Cipher) (data : CipherData) : Cipher :=
  match data.organizationId with
  | none => {c with userUuid := some user}
  | some org => {c with organizationUuid := some org, userUuid := none}

/-- The attachments after a request. -/
def rewriteAttachments (cipher : Uuid) : List (Uuid×Attachments2Data) → List Attachment → List Attachment
  | [],rows => rows
  | (id,data)::rest,rows =>
    match rows.find? fun a => a.id=id with
    | none => rewriteAttachments cipher rest rows
    | some a =>
      if a.cipherUuid≠cipher then rows
      else rewriteAttachments cipher rest
        (put Attachment.id {a with akey := some data.key, fileName := data.fileName} rows)

/-- The result of a check. -/
def verdict {α : Type} (refused : Option String) (a : α) : Except String α :=
  match refused with
  | some e => .error e
  | none => .ok a

/-- A check ends the handler, or lets it go on. -/
theorem ends_checked {α β : Type} {db : Database} {P : Except String α → Database → Prop} {p : Action β}
    {f : β → Action α} {refused : Option String} {b : β}
    (h : Ends p db fun r db' => r=verdict refused b ∧ db'=db) (hsome : ∀ e,refused=some e → P (.error e) db)
    (hnone : refused=none → Ends (f b) db P) : Ends (p.bind f) db P := by
  cases hrefused : refused with
  | none =>
    rw [hrefused] at h
    refine h.bind (fun b' db' ⟨hb,hdb⟩ => ?_) fun e db' ⟨he,_⟩ => by cases he
    cases hb
    subst hdb
    exact hnone hrefused
  | some e =>
    rw [hrefused] at h
    refine h.bind (fun b' db' ⟨hb,_⟩ => by cases hb) fun e' db' ⟨he,hdb⟩ => ?_
    cases he
    subst hdb
    exact hsome e hrefused

/-- The caller is an account, or the guard fails. -/
theorem ends_guard {db : Database} {caller : Uuid} : Ends (headers caller) db fun r db' => db'=db ∧
    (r=.error "Device has no user associated" ∨ ∃ u∈db.users,u.uuid=caller ∧ r=.ok u) := by
  unfold headers
  refine ends_lookup ?_
  cases hfound : db.toTables.users.find? fun u => u.uuid=caller with
  | none => exact ⟨rfl,.inl rfl⟩
  | some u =>
    have hkey := List.find?_some hfound
    simp only [decide_eq_true_eq] at hkey
    exact ⟨rfl,.inr ⟨u,List.mem_of_find?_eq_some hfound,hkey,rfl⟩⟩

/-- An account passes. -/
theorem ends_guard_account {db : Database} {u : User} (hu : u∈db.users) :
    Ends (headers u.uuid) db fun r db' => db'=db ∧ r=.ok u := by
  unfold headers
  refine ends_lookup ?_
  show Ends (expect _ (db.users.find? fun v => v.uuid=u.uuid)) db _
  rw [find?_key db.user_nodup hu]
  exact ⟨rfl,rfl⟩

/-- The account of the caller is the one with its uuid. -/
theorem ends_caller {α : Type} {P : Except String α → Database → Prop} {u : User} {g : User → Action α}
    (hu : u∈db.users) (h : Ends (g u) db P) : Ends ((headers u.uuid).bind g) db P := by
  show Ends ((expect "Device has no user associated" (db.users.find? fun v => v.uuid=u.uuid)).bind g) db P
  rw [find?_key db.user_nodup hu]
  exact h

/-- An error is dropped, a panic is not. -/
theorem ends_okUnlessPanic {α : Type} {db : Database} {p : Action α} {Q : Except String α → Database → Prop}
    {P : Except String Unit → Database → Prop} (h : Ends p db Q) (hok : ∀ a db',Q (.ok a) db' → P (.ok ()) db')
    (herror : ∀ e db',Q (.error e) db' → e≠Panic → P (.ok ()) db')
    (hpanic : ∀ db',Q (.error Panic) db' → P (.error Panic) db') : Ends (okUnlessPanic p) db P := by
  have hdrop : Ends (p.bind fun _ => Script.done ()) db (Either (fun _ db' => P (.ok ()) db')
      fun e db' => Q (.error e) db') := h.bind (fun a db' ha => hok a db' ha) fun e db' he => he
  refine hdrop.rescue (fun _ db' h => h) fun e db' he => ?_
  by_cases hpan : e=Panic
  · subst hpan
    rw [if_pos rfl]
    exact hpanic db' he
  · rw [if_neg hpan]
    exact herror e db' he hpan

section Parts

variable {db : Database} {settings : VaultSettings} {user cipher : Uuid} {c : Cipher} {data : CipherData}

theorem ends_isApplicable {atype : OrgPolicyType} {excludeOrg : Option Uuid} :
    Ends (OrgPolicy.isApplicableToUser user atype excludeOrg) db fun r db' =>
      r=.ok (applicable db.toTables user atype excludeOrg) ∧ db'=db := by
  unfold OrgPolicy.isApplicableToUser applicable
  exact ends_lookup (Ends.findAny fun _ => Ends.query_done ⟨rfl,rfl⟩)

theorem ends_enforcePolicy : Ends (enforcePersonalOwnershipPolicy data.organizationId user) db fun r db' =>
    r=verdict (policyRefusal db.toTables user data) () ∧ db'=db := by
  unfold enforcePersonalOwnershipPolicy policyRefusal
  by_cases hnone : data.organizationId=none
  · rw [if_pos hnone]
    refine (ends_isApplicable).bind (fun applies db' ⟨happlies,hdb⟩ => ?_) fun e db' ⟨he,_⟩ => by cases he
    cases happlies
    subst hdb
    cases applicable db'.toTables user .personalOwnership none with
    | true =>
      rw [if_pos ⟨hnone,rfl⟩]
      exact ⟨rfl,rfl⟩
    | false =>
      rw [if_neg fun h => Bool.false_ne_true h.2]
      exact ⟨rfl,rfl⟩
  · rw [if_neg hnone,if_neg fun h => hnone h.1]
    exact ⟨rfl,rfl⟩

theorem ends_assignOwner {shared : Option (List Uuid)} :
    Ends (assignOwner settings user c data shared) db fun r db' =>
      r=verdict (ownerRefusal settings db.toTables user c data shared.isSome) (owned user c data) ∧
        db'=db := by
  unfold assignOwner ownerRefusal owned
  cases data.organizationId with
  | none => exact ⟨rfl,rfl⟩
  | some org =>
    refine ends_lookup (Ends.expect (fun m hm => ?_) fun hm => ?_)
    · refine ends_lookup (Ends.ensure (fun h => ?_) fun h => ?_)
      · simp only [hm,h,if_true]
        exact ⟨rfl,rfl⟩
      · simp [hm,h,verdict]
    · simp [hm,verdict]

/-- Attachments are written one by one, and never refused. -/
theorem ends_updateAttachments {entries : List (Uuid×Attachments2Data)} :
    Ends (updateAttachments cipher entries) db fun r db' => r=.ok () ∧
      db'.toTables={db.toTables with attachments := rewriteAttachments cipher entries db.attachments} := by
  induction entries generalizing db with
  | nil => exact ⟨rfl,rfl⟩
  | cons entry rest ih =>
    obtain ⟨id,data⟩ := entry
    unfold updateAttachments rewriteAttachments
    refine ends_lookup ?_
    cases hfound : db.attachments.find? fun a => a.id=id with
    | none => exact ih
    | some a =>
      dsimp only
      split
      · exact ⟨rfl,rfl⟩
      · have hmem : a∈db.attachments := List.mem_of_find?_eq_some hfound
        have hdrawn : a.id<db.next := db.valid.2.2.2.2.2.2.2.2.1 a hmem
        have hcipher : ∃ q∈db.ciphers,q.uuid=a.cipherUuid :=
          db.valid.2.1.2.2.2.2.2.2.2.2.2.2.2.2.2.2.2.2.1 a hmem
        refine ends_update (valid_attachment db.valid hdrawn hcipher) ?_
        exact ih.mono fun r db' h => h

/-- A cipher that exists is moved between folders that exist. -/
theorem ends_moveToFolder {folder : Option Uuid} (hcipher : ∃ q∈db.ciphers,q.uuid=cipher)
    (hfolder : ∀ id,folder=some id → ∃ f∈db.folders,f.uuid=id) :
    Ends (Cipher.moveToFolder cipher folder user) db fun r db' => r=.ok () ∧
      ∃ places,db'.toTables={db.toTables with foldersCiphers := places} := by
  have hsave : ∀ (db' : Database) (places : List FolderCipher) (new : Uuid),folder=some new →
      db'.toTables={db.toTables with foldersCiphers := places} →
      Ends (FolderCipher.save ⟨cipher,new⟩) db' fun r db'' => r=.ok () ∧
        ∃ places,db''.toTables={db.toTables with foldersCiphers := places} := by
    intro db' places new hnew heq
    have hrow : ∃ q∈db'.ciphers,q.uuid=cipher := by rw [heq]; exact hcipher
    have hplace : ∃ f∈db'.folders,f.uuid=new := by rw [heq]; exact hfolder new hnew
    refine ends_update_done (valid_place db'.valid hrow hplace) ⟨rfl,put id ⟨cipher,new⟩ places,?_⟩
    dsimp only
    rw [heq]
  have hself : db.toTables={db.toTables with foldersCiphers := db.foldersCiphers} := rfl
  unfold Cipher.moveToFolder
  refine ends_lookup ?_
  cases hold : Cipher.getFolderUuid db.toTables cipher user with
  | none =>
    cases folder with
    | none => exact ⟨rfl,_,hself⟩
    | some new => exact hsave db _ new rfl hself
  | some old =>
    cases folder with
    | none =>
      -- the row that named the old folder is still there
      refine ends_lookup (Ends.expect (fun row _ => ?_) fun hmissing => ?_)
      · exact ends_update_done (valid_unplace db.valid) ⟨rfl,_,rfl⟩
      · unfold Cipher.getFolderUuid at hold
        obtain ⟨⟨r,f⟩,hr,hfold⟩ := Option.map_eq_some_iff.mp hold
        have hmem := (mem_innerJoin.mp (List.mem_of_find?_eq_some hr)).1
        have hcols := List.find?_some hr
        simp only [decide_eq_true_eq] at hcols
        have hno := List.find?_eq_none.mp hmissing r hmem
        exact absurd (by simpa using ⟨hfold,hcols.2⟩) hno
    | some new =>
      dsimp only
      split
      · exact ⟨rfl,_,hself⟩
      · refine ends_lookup ?_
        cases db.toTables.foldersCiphers.find? fun r => r.folderUuid=old ∧ r.cipherUuid=cipher with
        | none => exact hsave db _ new rfl hself
        | some row => exact ends_update (valid_unplace db.valid) (hsave _ _ new rfl rfl)

/-- A favourite of an account that exists. -/
theorem ends_setFavorite {favorite : Option Bool} (huser : ∃ u∈db.users,u.uuid=user)
    (hcipher : ∃ q∈db.ciphers,q.uuid=cipher) :
    Ends (Cipher.setFavorite favorite cipher user) db fun r db' => r=.ok () ∧
      ∃ favorites,db'.toTables={db.toTables with favorites := favorites} := by
  unfold Cipher.setFavorite
  cases favorite with
  | none => exact ⟨rfl,_,rfl⟩
  | some new =>
    refine ends_lookup ?_
    cases decide ((⟨user,cipher⟩ : Favorite)∈db.toTables.favorites) <;> cases new
    · exact ⟨rfl,_,rfl⟩
    · exact ends_update_done (valid_favorite db.valid huser hcipher) ⟨rfl,_,rfl⟩
    · exact ends_update_done (valid_unfavorite db.valid) ⟨rfl,_,rfl⟩
    · exact ⟨rfl,_,rfl⟩

/-- The cipher that an update saves. -/
def updated (settings : VaultSettings) (user : Uuid) (c : Cipher) (data : CipherData)
    (content : Value×Option Value) (now : ℤ) : Cipher :=
  revise settings (owned user c data) data content now

theorem owned_uuid : (owned user c data).uuid=c.uuid := by
  unfold owned
  cases data.organizationId <;> rfl

theorem updated_uuid {content : Value×Option Value} {now : ℤ} :
    (updated settings user c data content now).uuid=c.uuid := owned_uuid

/-- An update that its checks let through names the organisation. -/
theorem updated_organization {content : Value×Option Value} {now : ℤ} {ut : UpdateType}
    (h : dataRefusal settings c data ut=none) :
    (updated settings user c data content now).organizationUuid=data.organizationId := by
  unfold dataRefusal at h
  show (owned user c data).organizationUuid=data.organizationId
  unfold owned
  cases horg : data.organizationId with
  | some org => rfl
  | none =>
    by_contra hne
    have hmismatch : c.organizationUuid≠none ∧ c.organizationUuid≠data.organizationId := by
      rw [horg]
      exact ⟨hne,hne⟩
    rw [if_pos hmismatch] at h
    split at h <;> cases h

/-- The ends of an update. -/
inductive Outcome (settings : VaultSettings) (db : Database) (user : Uuid) (c : Cipher) (data : CipherData)
    (shared : Bool) (ut : UpdateType) : Except String Cipher → Database → Prop
  /-- A check has refused, and nothing was written. -/
  | refused {e : String} (h : refusal settings db.toTables user c data shared ut=some e) :
      Outcome settings db user c data shared ut (.error e) db
  /-- The content was refused after the attachments. -/
  | broken {e : String} {db' : Database} (h : refusal settings db.toTables user c data shared ut=none)
      (hcontent : data.content=.error e)
      (htables : db'.toTables={db.toTables with
        attachments := rewriteAttachments c.uuid (data.attachments2.getD []) db.attachments}) :
      Outcome settings db user c data shared ut (.error e) db'
  /-- The cipher was saved. -/
  | saved {content : Value×Option Value} {db' : Database} {places : List FolderCipher}
      {favorites : List Favorite} (h : refusal settings db.toTables user c data shared ut=none)
      (hcontent : data.content=.ok content)
      (htables : db'.toTables={db.toTables with
        attachments := rewriteAttachments c.uuid (data.attachments2.getD []) db.attachments
        ciphers := put Cipher.uuid (updated settings user c data content db.now) db.ciphers
        foldersCiphers := places
        favorites := favorites}) :
      Outcome settings db user c data shared ut (.ok (updated settings user c data content db.now)) db'

/-- The organisation of a membership exists. -/
theorem organization_of_owner {shared : Bool} {org : Uuid} (horg : data.organizationId=some org)
    (h : ownerRefusal settings db.toTables user c data shared=none) : ∃ o∈db.organizations,o.uuid=org := by
  unfold ownerRefusal at h
  rw [horg] at h
  dsimp only at h
  cases hm : Membership.findConfirmedByUserAndOrg db.toTables user org with
  | none => rw [hm] at h; cases h
  | some m =>
    have hmem : m∈db.members := List.mem_of_find?_eq_some hm
    have hcols := List.find?_some hm
    simp only [decide_eq_true_eq] at hcols
    obtain ⟨o,ho,hkey⟩ := db.valid.2.1.2.1 m hmem
    exact ⟨o,ho,hkey.trans hcols.2.1⟩

/-- The folder of a request exists. -/
theorem folder_of_request (h : folderRefusal db.toTables user data=none) :
    ∀ id,data.folderId=some id → ∃ f∈db.folders,f.uuid=id := by
  intro id hid
  unfold folderRefusal at h
  rw [hid,Option.any_some] at h
  cases hf : db.toTables.folders.find? fun f => f.uuid=id ∧ f.userUuid=user with
  | none => rw [hf] at h; cases h
  | some f =>
    have hcols := List.find?_some hf
    simp only [decide_eq_true_eq] at hcols
    exact ⟨f,List.mem_of_find?_eq_some hf,hcols.1⟩

/-- The cipher that an update saves is accepted. -/
theorem valid_updated {ut : UpdateType} {content : Value×Option Value} {now : ℤ}
    (huser : ∃ u∈db.users,u.uuid=user) (hdrawn : c.uuid<db.next)
    (hdata : dataRefusal settings c data ut=none)
    (horg : ∀ org,data.organizationId=some org → ∃ o∈db.organizations,o.uuid=org) :
    {db.toTables with
      ciphers := put Cipher.uuid (updated settings user c data content now) db.ciphers}.Valid := by
  have hnamed : (updated settings user c data content now).organizationUuid=data.organizationId :=
    updated_organization hdata
  refine valid_cipher db.valid (by rw [updated_uuid]; exact hdrawn) ?_ ?_
  · show (owned user c data).userUuid=none ∨ ∃ u∈db.users,(owned user c data).userUuid=some u.uuid
    unfold owned
    cases data.organizationId with
    | some org => exact .inl rfl
    | none =>
      obtain ⟨u,hu,hkey⟩ := huser
      exact .inr ⟨u,hu,congrArg some hkey.symm⟩
  · rw [hnamed]
    cases hid : data.organizationId with
    | none => exact .inl rfl
    | some org =>
      obtain ⟨o,ho,hkey⟩ := horg org hid
      exact .inr ⟨o,ho,congrArg some hkey.symm⟩

/-- An update ends in one of these ways. -/
theorem ends_updateCipher {shared : Option (List Uuid)} {ut : UpdateType}
    (huser : ∃ u∈db.users,u.uuid=user) (hdrawn : c.uuid<db.next) :
    Ends (updateCipherFromData settings user c data shared ut) db
      (Outcome settings db user c data shared.isSome ut) := by
  unfold updateCipherFromData
  refine ends_checked ends_enforcePolicy (fun e he => ?_) fun hpolicy => ?_
  · exact .refused (by rw [refusal,he]; rfl)
  refine Ends.ensure (fun hfresh => ?_) fun hstale => ?_
  · refine Ends.ensure (fun hsame => ?_) fun hmismatch => ?_
    · refine Ends.ensure (fun hfit => ?_) fun hlong => ?_
      · have hdata : dataRefusal settings c data ut=none := by
          simp only [decide_eq_true_eq] at hfresh hsame
          rw [dataRefusal,if_neg hfresh,if_neg hsame,if_neg (by rw [hfit]; exact Bool.false_ne_true.symm)]
        refine ends_checked ends_assignOwner (fun e he => ?_) fun howner => ?_
        · exact .refused (by rw [refusal,hpolicy,hdata,he]; rfl)
        refine ends_lookup (Ends.ensure (fun hfolder => ?_) fun hmissing => ?_)
        · have hplace : folderRefusal db.toTables user data=none := by
            rw [folderRefusal,if_neg (by simpa using hfolder)]
          have hnone : refusal settings db.toTables user c data shared.isSome ut=none := by
            rw [refusal,hpolicy,hdata,howner,hplace]
            rfl
          rw [owned_uuid]
          refine (ends_updateAttachments).bind (fun _ db₁ ⟨_,heq₁⟩ => ?_) fun e db₁ ⟨he,_⟩ => by cases he
          cases hcontent : data.content with
          | error e => exact .broken hnone hcontent heq₁
          | ok content =>
            have huser₁ : ∃ u∈db₁.users,u.uuid=user := by rw [heq₁]; exact huser
            have hdrawn₁ : c.uuid<db₁.next := by rw [heq₁]; exact hdrawn
            have horg₁ : ∀ org,data.organizationId=some org → ∃ o∈db₁.organizations,o.uuid=org := by
              intro org hid
              rw [heq₁]
              exact organization_of_owner hid howner
            have hnow : db₁.now=db.now := by rw [heq₁]
            refine ends_lookup (ends_update (valid_updated huser₁ hdrawn₁ hdata horg₁) ?_)
            have hcipher : ∀ q : Cipher,∃ q'∈put Cipher.uuid q db₁.ciphers,q'.uuid=q.uuid :=
              fun q => ⟨q,mem_put.mpr (.inl rfl),rfl⟩
            refine (ends_moveToFolder (hcipher _) fun id hid => ?_).bind
              (fun _ db₂ ⟨_,places,heq₂⟩ => ?_) fun e db₂ ⟨he,_⟩ => by cases he
            · show ∃ f∈db₁.folders,f.uuid=id
              rw [heq₁]
              exact folder_of_request hplace id hid
            have huser₂ : ∃ u∈db₂.users,u.uuid=user := by rw [heq₂]; exact huser₁
            refine (ends_setFavorite huser₂ (by rw [heq₂]; exact hcipher _)).bind
              (fun _ db₃ ⟨_,favorites,heq₃⟩ => ?_) fun e db₃ ⟨he,_⟩ => by cases he
            have htables : db₃.toTables={db.toTables with
                attachments := rewriteAttachments c.uuid (data.attachments2.getD []) db.attachments
                ciphers := put Cipher.uuid (updated settings user c data content db.now) db.ciphers
                foldersCiphers := places
                favorites := favorites} := by
              rw [heq₃,heq₂]
              dsimp only
              rw [heq₁]
              rfl
            show Outcome settings db user c data shared.isSome ut
              (.ok (updated settings user c data content db₁.now)) db₃
            rw [hnow]
            exact .saved hnone hcontent htables
        · refine .refused ?_
          rw [refusal,hpolicy,hdata,howner,folderRefusal,if_pos (by simpa using hmissing)]
          rfl
      · refine .refused ?_
        simp only [decide_eq_true_eq] at hfresh hsame
        rw [refusal,hpolicy,dataRefusal,if_neg hfresh,if_neg hsame,if_pos hlong]
        rfl
    · refine .refused ?_
      simp only [decide_eq_true_eq,decide_eq_false_iff_not,not_not] at hfresh hmismatch
      rw [refusal,hpolicy,dataRefusal,if_neg hfresh,if_pos hmismatch]
      rfl
  · refine .refused ?_
    simp only [decide_eq_false_iff_not,not_not] at hstale
    rw [refusal,hpolicy,dataRefusal,if_pos hstale]
    rfl

end Parts

end NadSafe.CipherUpdates
