import NadSafe.CipherUpdates

/-!
# Links between ciphers and collections

Sharing and importing write the links of a cipher before or apart from the
checks that decide whether the cipher joins the organisation. As long as no
request is refused after its first link, every link joins a cipher with a
collection of its own organisation, and a failed request changes no link.
-/

namespace NadSafe.CipherLinks

open HostText JsonText TableRows AsyncScript ServerTables AccessQueries CollectionFlags StoreScript
open ServerModels OrgHandlers CipherHandlers PlannedScript TableWrites CipherUpdates StepRuns

/-- A link joins a cipher with a collection of its organisation. -/
def Linked (t : Tables) (r : CollectionCipher) : Prop :=
  ∃ c∈t.ciphers,c.uuid=r.cipherUuid ∧ ∃ k∈t.collections,k.uuid=r.collectionUuid ∧
    c.organizationUuid=some k.orgUuid

instance (t : Tables) (r : CollectionCipher) : Decidable (Linked t r) :=
  inferInstanceAs (Decidable (∃ c∈t.ciphers,c.uuid=r.cipherUuid ∧ ∃ k∈t.collections,
    k.uuid=r.collectionUuid ∧ c.organizationUuid=some k.orgUuid))

/-- All links do. -/
def LinkedWithin (t : Tables) : Prop := ∀ r∈t.ciphersCollections,Linked t r

instance (t : Tables) : Decidable (LinkedWithin t) :=
  inferInstanceAs (Decidable (∀ r∈t.ciphersCollections,Linked t r))

/-- The requests. -/
inductive Request where
  /-- `post_ciphers`. -/
  | post (caller : Uuid) (data : CipherData)
  /-- `put_cipher`. -/
  | put (caller id : Uuid) (data : CipherData)
  /-- `share_cipher_by_uuid`, for the account of the caller. -/
  | share (caller id : Uuid) (data : CipherData) (collectionIds : List Uuid) (overrideUt : Option UpdateType)
  /-- `post_collections_update`. -/
  | collections (caller id : Uuid) (collectionIds : List Uuid) (postedOrder currentOrder : HashOrder)
  /-- `post_org_import`. -/
  | orgImport (caller org : Uuid) (data : ImportData)

/-- Their handlers. -/
def Request.body (settings : VaultSettings) : Request → Action Unit
  | .post caller data => postCiphers settings caller data
  | .put caller id data => putCipher settings caller id data
  | .share caller id data collectionIds overrideUt => do
    let user ← headers caller
    shareCipherByUuid settings user.uuid id data collectionIds overrideUt
  | .collections caller id collectionIds postedOrder currentOrder =>
    postCollectionsUpdate settings caller id collectionIds postedOrder currentOrder
  | .orgImport caller org data => postOrgImport settings caller org data

/-- The database after a request. -/
def next (settings : VaultSettings) (db : Database) (request : Request) : Database :=
  (complete (request.body settings) db).2

/-- A collection that a link may name. -/
def accepts (settings : VaultSettings) (t : Tables) (org user id : Uuid) : Bool :=
  (t.collections.find? fun k => k.uuid=id ∧ k.orgUuid=org).any fun k =>
    Collection.isWritableByUser settings.toConfig t k user

/-- The response can be written for a cipher of this type. -/
def typed (c : Cipher) : Bool := decide (1≤c.atype ∧ c.atype≤5)

/-- A cipher of an import is saved. -/
def importable (settings : VaultSettings) (t : Tables) (user : Uuid) (data : CipherData) : Bool :=
  (refusal settings t user (ServerTables.Cipher.new 0 0 data.type data.name) {data with folderId := none}
    true .none).isNone && data.content.isOk

/-- A cipher of an import ends the request. -/
def panics (settings : VaultSettings) (t : Tables) (user : Uuid) (data : CipherData) : Bool :=
  (refusal settings t user (ServerTables.Cipher.new 0 0 data.type data.name) {data with folderId := none}
    true .none).isNone && match data.content with
      | .error e => decide (e=Panic)
      | .ok _ => false

/-- A collection of an import is accepted. -/
def collectionAllowed (settings : VaultSettings) (t : Tables) (m : Membership) (id : Option Uuid) : Bool :=
  match id.filter (·∈(t.collections.filter fun k => k.orgUuid=m.orgUuid).map Collection.uuid) with
  | some id => decide (MembershipType.admin≤ m.atype) || Collection.canAccessCollection settings.toConfig t m id
  | none => decide ¬(m.atype≤MembershipType.manager) || m.hasFullAccess

/-- A relation of an import leads to a link. -/
def linkable (settings : VaultSettings) (t : Tables) (user : Uuid) (data : ImportData) (r : ℕ×ℕ) : Bool :=
  data.ciphers[r.1]?.any (importable settings t user) && decide (r.2<data.collections.length)

/-- And the cipher joins the organisation. -/
def joins (settings : VaultSettings) (t : Tables) (user org : Uuid) (data : ImportData) (r : ℕ×ℕ) : Bool :=
  linkable settings t user data r && data.ciphers[r.1]?.any fun d => d.organizationId=some org

/-- No check refuses after the first link: where the first collection that is
to be linked is accepted, so is everything after it. -/
def Sound (settings : VaultSettings) (db : Database) : Request → Prop
  | .post _ _ => True
  | .put _ _ _ => True
  | .share caller id data collectionIds overrideUt => ∀ c∈db.ciphers,c.uuid=id →
    Cipher.isWriteAccessibleToUser settings.toConfig db.toTables c caller=true → ∀ org,
    data.organizationId=some org → collectionIds.head?.any (accepts settings db.toTables org caller)=true →
    collectionIds.all (accepts settings db.toTables org caller)=true ∧
    refusal settings db.toTables caller c data true (overrideUt.getD
      (if data.lastKnownRevisionDate.isSome=true then .syncCipherUpdate else .syncCipherCreate))=none ∧
    data.content.isOk=true ∧ typed c=true
  | .collections caller id collectionIds postedOrder currentOrder => ∀ c∈db.ciphers,c.uuid=id →
    Cipher.isInEditableCollectionByUser settings.toConfig db.toTables c caller=true → ∀ org,
    c.organizationUuid=some org →
    let changes := symmetricDifference (postedOrder.walk collectionIds)
      (currentOrder.walk (Cipher.getCollections settings.toConfig db.toTables id caller))
    changes.head?.any (accepts settings db.toTables org caller)=true →
    changes.all (accepts settings db.toTables org caller)=true ∧ typed c=true
  | .orgImport caller org data => ∀ m∈db.members,m.userUuid=caller → m.orgUuid=org →
    validateCipherData settings data.ciphers=true →
    data.collections.all (collectionAllowed settings db.toTables m)=true →
    data.ciphers.all (fun d => !panics settings db.toTables caller d)=true →
    data.collectionRelationships.head?.any (linkable settings db.toTables caller data)=true →
    data.collectionRelationships.all (joins settings db.toTables caller org data)=true

/-- What a request keeps: every link stays within an organisation, and a
failed one changes no link. -/
def Intact {α : Type} (db : Database) (r : Except String α) (db' : Database) : Prop :=
  LinkedWithin db'.toTables ∧ ∀ e,r=.error e → db'.ciphersCollections=db.ciphersCollections

section Updates

variable {settings : VaultSettings} {db db' : Database} {user : Uuid} {c : Cipher} {data : CipherData}

theorem intact_self {α : Type} {r : Except String α} (h : LinkedWithin db.toTables) : Intact db r db :=
  ⟨h,fun _ _ => rfl⟩

/-- A link stays within where its cipher and its collection stay. -/
theorem linked_of_subset {t t' : Tables} {r : CollectionCipher} (h : Linked t r)
    (hciphers : ∀ c∈t.ciphers,c.uuid=r.cipherUuid → c∈t'.ciphers)
    (hcollections : ∀ k∈t.collections,k∈t'.collections) : Linked t' r := by
  obtain ⟨c,hc,hkey,k,hk,hcollection,horg⟩ := h
  exact ⟨c,hciphers c hc hkey,hkey,k,hcollections k hk,hcollection,horg⟩

/-- An update writes no link. -/
theorem links_of_outcome {shared : Bool} {ut : UpdateType} {r : Except String Cipher}
    (h : Outcome settings db user c data shared ut r db') : db'.ciphersCollections=db.ciphersCollections := by
  cases h with
  | refused h => rfl
  | broken h hcontent htables => rw [htables]
  | saved h hcontent htables => rw [htables]

/-- An update keeps the links within the organisation that it names. -/
theorem within_of_outcome {shared : Bool} {ut : UpdateType} {r : Except String Cipher}
    (h : Outcome settings db user c data shared ut r db')
    (hothers : ∀ r∈db.ciphersCollections,r.cipherUuid≠c.uuid → Linked db.toTables r)
    (hfailed : (∃ e,r=.error e) → LinkedWithin db.toTables)
    (hown : refusal settings db.toTables user c data shared ut=none →
      ∀ r∈db.ciphersCollections,r.cipherUuid=c.uuid →
        ∃ k∈db.collections,k.uuid=r.collectionUuid ∧ data.organizationId=some k.orgUuid) :
    LinkedWithin db'.toTables := by
  cases h with
  | refused h => exact hfailed ⟨_,rfl⟩
  | broken h hcontent htables =>
    intro r hr
    rw [htables] at hr ⊢
    exact linked_of_subset (hfailed ⟨_,rfl⟩ r hr) (fun _ hc _ => hc) fun _ hk => hk
  | saved h hcontent htables =>
    rename_i content places favorites
    intro r hr
    rw [htables] at hr ⊢
    by_cases hkey : r.cipherUuid=c.uuid
    · have hdata : dataRefusal settings c data ut=none := by
        unfold refusal at h
        exact (Option.or_eq_none_iff.mp (Option.or_eq_none_iff.mp h).2).1
      obtain ⟨k,hk,hcollection,horg⟩ := hown h r hr hkey
      refine ⟨updated settings user c data content db.now,mem_put.mpr (.inl rfl),?_,k,hk,hcollection,?_⟩
      · rw [updated_uuid,hkey]
      · rw [updated_organization hdata,horg]
    · refine linked_of_subset (hothers r hr hkey) (fun q hq hquuid => ?_) fun _ hk => hk
      refine mem_put.mpr (.inr ⟨hq,?_⟩)
      rw [updated_uuid,hquuid]
      exact hkey

end Updates

section Requests

variable {α : Type} {settings : VaultSettings} {db : Database} {caller target : Uuid} {data : CipherData}

/-- The caller is an account, or the request fails at once. -/
theorem ends_headers {f : User → Action α} {P : Except String α → Database → Prop}
    (hsome : ∀ u∈db.users,u.uuid=caller → Ends (f u) db P)
    (hnone : P (.error "Device has no user associated") db) : Ends ((headers caller).bind f) db P := by
  refine ends_guard.bind (fun u db' ⟨hdb,hu⟩ => ?_) fun e db' ⟨hdb,he⟩ => ?_
  · obtain hu|⟨u',hmem,hkey,hu⟩ := hu
    · cases hu
    · cases hu
      rw [hdb]
      exact hsome u hmem hkey
  · obtain he|⟨u',-,-,he⟩ := he
    · cases he
      rw [hdb]
      exact hnone
    · cases he

/-- The response fails for a cipher of an invalid type only. -/
theorem ends_toJson {c : Cipher} : Ends (Cipher.toJson c) db fun r db' => db'=db ∧ (r=.ok () ↔ typed c=true) := by
  unfold Cipher.toJson
  refine Ends.ensure_done (fun htyped => ⟨rfl,fun _ => htyped,fun _ => rfl⟩) fun hno => ⟨rfl,fun h => ?_,fun h => ?_⟩
  · cases h
  · exact absurd (hno.symm.trans h) Bool.false_ne_true

/-- The end of a request after its update: the response writes nothing. -/
theorem intact_response {c : Cipher} {db' : Database} (hwithin : LinkedWithin db'.toTables)
    (hlinks : typed c=false → db'.ciphersCollections=db.ciphersCollections) :
    Ends (Cipher.toJson c) db' (Intact db) := by
  refine (ends_toJson).mono fun r db'' ⟨hdb,hr⟩ => ?_
  subst hdb
  refine ⟨hwithin,fun e he => hlinks ?_⟩
  cases htyped : typed c with
  | false => rfl
  | true =>
    rw [hr.mpr htyped] at he
    cases he

/-- An update of a cipher whose links are within. -/
theorem intact_update {c : Cipher} {shared : Option (List Uuid)} {ut : UpdateType} {user : Uuid}
    (huser : ∃ u∈db.users,u.uuid=user) (hdrawn : c.uuid<db.next) (hwithin : LinkedWithin db.toTables)
    (hown : refusal settings db.toTables user c data shared.isSome ut=none →
      ∀ r∈db.ciphersCollections,r.cipherUuid=c.uuid →
        ∃ k∈db.collections,k.uuid=r.collectionUuid ∧ data.organizationId=some k.orgUuid) :
    Ends ((updateCipherFromData settings user c data shared ut).bind Cipher.toJson) db (Intact db) := by
  refine (ends_updateCipher huser hdrawn).bind (fun c' db' hout => ?_) fun e db' hout => ?_
  · have hlinks := links_of_outcome hout
    refine intact_response ?_ fun _ => hlinks
    exact within_of_outcome hout (fun r hr _ => hwithin r hr) (fun _ => hwithin) hown
  · have hlinks := links_of_outcome hout
    refine ⟨?_,fun _ _ => hlinks⟩
    exact within_of_outcome hout (fun r hr _ => hwithin r hr) (fun _ => hwithin) hown

/-- The links of a stored cipher are within the organisation of an update
that is let through. -/
theorem own_of_mem {c : Cipher} {shared : Bool} {ut : UpdateType} {user : Uuid} (hc : c∈db.ciphers)
    (hwithin : LinkedWithin db.toTables) (h : refusal settings db.toTables user c data shared ut=none)
    {r : CollectionCipher} (hr : r∈db.ciphersCollections) (hkey : r.cipherUuid=c.uuid) :
    ∃ k∈db.collections,k.uuid=r.collectionUuid ∧ data.organizationId=some k.orgUuid := by
  obtain ⟨q,hq,hquuid,k,hk,hcollection,horg⟩ := hwithin r hr
  have hsame : q=c := eq_of_key db.cipher_nodup hq hc (hquuid.trans hkey)
  subst hsame
  unfold refusal at h
  have hdata := (Option.or_eq_none_iff.mp (Option.or_eq_none_iff.mp h).2).1
  unfold dataRefusal at hdata
  refine ⟨k,hk,hcollection,?_⟩
  by_contra hne
  have hmismatch : q.organizationUuid≠none ∧ q.organizationUuid≠data.organizationId := by
    rw [horg]
    exact ⟨Option.some_ne_none _,fun he => hne he.symm⟩
  rw [if_pos hmismatch] at hdata
  split at hdata <;> cases hdata

theorem intact_post (hwithin : LinkedWithin db.toTables) :
    Ends (postCiphers settings caller data) db (Intact db) := by
  unfold postCiphers
  refine ends_headers (fun u hu _ => ?_) (intact_self hwithin)
  refine Ends.draw (ends_lookup ?_)
  have hmove : Ends ((updateCipherFromData settings u.uuid
      (ServerTables.Cipher.new db.next db.drawn.toTables.now data.type data.name)
      {data with lastKnownRevisionDate := none} none .syncCipherCreate).bind Cipher.toJson) db.drawn
      (Intact db.drawn) := by
    refine intact_update ⟨u,hu,rfl⟩ (Nat.lt_succ_self db.next) hwithin fun _ r hr hkey => ?_
    -- no link names the new cipher
    obtain ⟨q,hq,hquuid⟩ := db.cipher_of_link hr
    have hlt : q.uuid<db.next := db.valid.2.2.2.2.2.2.2.1 q hq
    rw [hquuid,hkey] at hlt
    exact absurd hlt (Nat.lt_irrefl db.next)
  exact hmove

theorem intact_put (hwithin : LinkedWithin db.toTables) :
    Ends (putCipher settings caller target data) db (Intact db) := by
  unfold putCipher
  refine ends_headers (fun u hu _ => ?_) (intact_self hwithin)
  refine ends_lookup (Ends.expect (fun c hc => ?_) fun _ => intact_self hwithin)
  refine ends_lookup (Ends.ensure (fun _ => ?_) fun _ => intact_self hwithin)
  have hmem : c∈db.ciphers := List.mem_of_find?_eq_some hc
  refine intact_update ⟨u,hu,rfl⟩ (db.valid.2.2.2.2.2.2.2.1 c hmem) hwithin fun h r hr hkey => ?_
  exact own_of_mem hmem hwithin h hr hkey

/-- A collection that is accepted is found, and it may be written to. -/
theorem ends_accepted {org user : Uuid} (h : accepts settings db.toTables org user target=true) :
    Ends (writableCollection settings org user target) db fun r db' => db'=db ∧
      ∃ k∈db.collections,(k.uuid=target ∧ k.orgUuid=org) ∧ r=.ok k := by
  unfold writableCollection
  unfold accepts at h
  refine ends_lookup (Ends.expect (fun k hk => ends_lookup ?_) fun hnone => ?_)
  · have hcols := List.find?_some hk
    simp only [decide_eq_true_eq] at hcols
    rw [hk,Option.any_some] at h
    refine Ends.ensure (fun _ => ?_) fun hno => ?_
    · exact ⟨rfl,k,List.mem_of_find?_eq_some hk,hcols,rfl⟩
    · rw [h] at hno
      cases hno
  · rw [hnone] at h
    cases h

/-- Any other one is refused. -/
theorem ends_unaccepted {org user : Uuid} (h : accepts settings db.toTables org user target=false) :
    Ends (writableCollection settings org user target) db fun r db' => db'=db ∧ ∃ e,r=.error e := by
  unfold writableCollection
  unfold accepts at h
  refine ends_lookup (Ends.expect (fun k hk => ends_lookup ?_) fun _ => ⟨rfl,_,rfl⟩)
  rw [hk,Option.any_some] at h
  refine Ends.ensure (fun hyes => ?_) fun _ => ⟨rfl,_,rfl⟩
  rw [h] at hyes
  cases hyes

/-- Links of one cipher to collections of one organisation were added. -/
def Added (db db' : Database) (cipher org : Uuid) : Prop :=
  ∃ links,db'.toTables={db.toTables with ciphersCollections := links} ∧
    ∀ r∈links,r∈db.ciphersCollections ∨ r.cipherUuid=cipher ∧
      ∃ k∈db.collections,k.uuid=r.collectionUuid ∧ k.orgUuid=org

/-- One more link. -/
theorem Added.save {db' : Database} {cipher org : Uuid} {k : Collection} (h : Added db db' cipher org)
    (hk : k∈db.collections) (horg : k.orgUuid=org) (hcipher : ∃ c∈db.ciphers,c.uuid=cipher) :
    Ends (CollectionCipher.save cipher k.uuid) db' fun r db'' => r=.ok () ∧ Added db db'' cipher org := by
  obtain ⟨links,htables,hlinks⟩ := h
  have hcipher' : ∃ c∈db'.ciphers,c.uuid=cipher := by rw [htables]; exact hcipher
  have hcollection' : ∃ q∈db'.collections,q.uuid=k.uuid := by rw [htables]; exact ⟨k,hk,rfl⟩
  refine ends_update_done (valid_link db'.valid hcipher' hcollection')
    ⟨rfl,put id ⟨cipher,k.uuid⟩ links,?_,fun r hr => ?_⟩
  · dsimp only
    rw [htables]
  · rcases mem_put.mp hr with rfl|hr
    · exact .inr ⟨rfl,k,hk,rfl,horg⟩
    · exact hlinks r hr.1

/-- Links decide nothing about the collections that are accepted. -/
theorem accepts_links {db' : Database} {links : List CollectionCipher} {org user x : Uuid}
    (h : db'.toTables={db.toTables with ciphersCollections := links}) :
    accepts settings db'.toTables org user x=accepts settings db.toTables org user x := by
  rw [h]
  rfl

/-- Where every collection is accepted, all links are written. -/
theorem ends_link {org user cipher : Uuid} {ids : List Uuid} (hcipher : ∃ c∈db.ciphers,c.uuid=cipher)
    (h : ∀ x∈ids,accepts settings db.toTables org user x=true) :
    Ends (linkCollections settings cipher user (some org) ids) db
      (Either (fun _ db' => Added db db' cipher org) fun _ _ => False) := by
  have hloop : Ends (linkCollections settings cipher user (some org) ids) db
      (Either (fun _ db' => (∀ x∈([] : List Uuid),accepts settings db.toTables org user x=true) ∧
        Added db db' cipher org) fun _ _ => False) := by
    refine Ends.collect (J:=fun xs _ db' => (∀ x∈xs,accepts settings db.toTables org user x=true) ∧
      Added db db' cipher org) (l:=[]) ?_ ⟨h,db.ciphersCollections,rfl,fun r hr => .inl hr⟩
    rintro x xs as db' ⟨haccepts,hadded⟩
    have hx : accepts settings db'.toTables org user x=true := by
      obtain ⟨links,htables,-⟩ := hadded
      exact (accepts_links htables).trans (haccepts x List.mem_cons_self)
    refine (ends_accepted hx).bind (fun k db₁ ⟨hdb,k',hk,hcols,hr⟩ => ?_) fun e db₁ ⟨_,k',_,_,he⟩ => ?_
    · cases hr
      subst hdb
      have hk' : k∈db.collections := by
        obtain ⟨links,htables,-⟩ := hadded
        rw [htables] at hk
        exact hk
      refine (hadded.save hk' hcols.2 hcipher).bind (fun _ db₂ ⟨_,hadded₂⟩ => ?_) fun e db₂ ⟨he,_⟩ => ?_
      · exact ⟨fun y hy => haccepts y (List.mem_cons_of_mem x hy),hadded₂⟩
      · cases he
    · cases he
  refine hloop.mono fun r db' hr => ?_
  cases r with
  | ok shared => exact hr.2
  | error e => exact hr

/-- The first collection is refused before anything is written. -/
theorem ends_link_refused {org user cipher x : Uuid} {ids : List Uuid}
    (h : accepts settings db.toTables org user x=false) :
    Ends (linkCollections settings cipher user (some org) (x::ids)) db fun r db' =>
      db'=db ∧ ∃ e,r=.error e := by
  exact Ends.refused (Ends.refused (ends_unaccepted h))

/-- With the links of a share, the checks of its update are the same. -/
theorem Added.refusal {db' : Database} {cipher org user : Uuid} {c : Cipher} {ut : UpdateType}
    (h : Added db db' cipher org) :
    refusal settings db'.toTables user c data true ut=refusal settings db.toTables user c data true ut := by
  obtain ⟨links,htables,-⟩ := h
  rw [htables]
  rfl

/-- An update that its checks let through is saved. -/
theorem saved_of_passes {db' : Database} {user : Uuid} {c : Cipher} {shared : Bool} {ut : UpdateType}
    {r : Except String Cipher} (h : Outcome settings db user c data shared ut r db')
    (hnone : refusal settings db.toTables user c data shared ut=none) (hcontent : data.content.isOk=true) :
    ∃ content,r=.ok (updated settings user c data content db.now) := by
  cases h with
  | refused h => rw [hnone] at h; cases h
  | broken h he htables => rw [he] at hcontent; cases hcontent
  | saved h hc htables => exact ⟨_,rfl⟩

/-- A share whose collections and checks all pass. -/
theorem intact_shared {c : Cipher} {org user : Uuid} {ids : List Uuid} {ut : UpdateType}
    (hwithin : LinkedWithin db.toTables) (huser : ∃ u∈db.users,u.uuid=user) (hc : c∈db.ciphers)
    (horg : data.organizationId=some org) (hids : ∀ x∈ids,accepts settings db.toTables org user x=true)
    (hnone : refusal settings db.toTables user c data true ut=none) (hcontent : data.content.isOk=true)
    (htyped : typed c=true) :
    Ends (do
      let shared ← linkCollections settings c.uuid user (some org) ids
      let c ← updateCipherFromData settings user c data (some shared) ut
      Cipher.toJson c) db (Intact db) := by
  refine (ends_link ⟨c,hc,rfl⟩ hids).bind (fun shared db₁ hadded => ?_) fun e db₁ h => h.elim
  have hnone₁ : refusal settings db₁.toTables user c data true ut=none := hadded.refusal.trans hnone
  obtain ⟨links,htables,hlinks⟩ := hadded
  have huser₁ : ∃ u∈db₁.users,u.uuid=user := by rw [htables]; exact huser
  have hdrawn₁ : c.uuid<db₁.next := by rw [htables]; exact db.valid.2.2.2.2.2.2.2.1 c hc
  refine (ends_updateCipher huser₁ hdrawn₁).bind (fun c' db₂ hout => ?_) fun e db₂ hout => ?_
  · obtain ⟨content,hsaved⟩ := saved_of_passes hout hnone₁ hcontent
    have htyped' : typed c'=true := by
      cases hsaved
      unfold updated owned
      cases data.organizationId <;> exact htyped
    refine intact_response ?_ fun hfalse => ?_
    · refine within_of_outcome hout (fun r hr hne => ?_) (fun ⟨e,he⟩ => by cases he) fun _ r hr hkey => ?_
      · rw [htables] at hr ⊢
        rcases hlinks r hr with hold|⟨hkey,-⟩
        · exact hwithin r hold
        · exact absurd hkey hne
      · rw [htables] at hr ⊢
        rcases hlinks r hr with hold|⟨-,k,hk,hcollection,hkorg⟩
        · exact own_of_mem hc hwithin hnone hold hkey
        · exact ⟨k,hk,hcollection,by rw [horg,hkorg]⟩
    · rw [htyped'] at hfalse
      cases hfalse
  · obtain ⟨content,hsaved⟩ := saved_of_passes hout hnone₁ hcontent
    cases hsaved

theorem intact_share {ids : List Uuid} {overrideUt : Option UpdateType} (hwithin : LinkedWithin db.toTables)
    (hsound : Sound settings db (.share caller target data ids overrideUt)) :
    Ends ((Request.share caller target data ids overrideUt).body settings) db (Intact db) := by
  unfold Request.body shareCipherByUuid
  refine ends_headers (fun u hu hcaller => ?_) (intact_self hwithin)
  refine ends_lookup (Ends.expect (fun c hc => ?_) fun _ => intact_self hwithin)
  refine ends_lookup (Ends.ensure (fun hwritable => ?_) fun _ => intact_self hwithin)
  have hmem : c∈db.ciphers := List.mem_of_find?_eq_some hc
  have hkey := List.find?_some hc
  simp only [decide_eq_true_eq] at hkey
  have hdrawn : c.uuid<db.next := db.valid.2.2.2.2.2.2.2.1 c hmem
  subst hcaller
  cases horg : data.organizationId with
  | none =>
    exact intact_update ⟨u,hu,rfl⟩ hdrawn hwithin fun h r hr hkey => own_of_mem hmem hwithin h hr hkey
  | some org =>
    have hchecks := hsound c hmem hkey hwritable org horg
    cases ids with
    | nil =>
      exact intact_update ⟨u,hu,rfl⟩ hdrawn hwithin fun h r hr hkey => own_of_mem hmem hwithin h hr hkey
    | cons x ids =>
      cases hx : accepts settings db.toTables org u.uuid x with
      | false =>
        refine (Ends.refused (ends_link_refused hx)).mono fun r db' ⟨hdb,_⟩ => ?_
        rw [hdb]
        exact intact_self hwithin
      | true =>
        obtain ⟨hids,hnone,hcontent,htyped⟩ := hchecks hx
        exact intact_shared hwithin ⟨u,hu,rfl⟩ hmem horg (List.all_eq_true.mp hids) hnone hcontent htyped

/-- The links of one cipher of an organisation are changed, one by one. -/
theorem ends_changes {c : Cipher} {org user : Uuid} {posted changes : List Uuid}
    (hwithin : LinkedWithin db.toTables) (hc : c∈db.ciphers) (horg : c.organizationUuid=some org)
    (h : ∀ x∈changes,accepts settings db.toTables org user x=true) :
    Ends (each changes fun x => do
      let k ← writableCollection settings org user x
      if k.uuid∈posted then CollectionCipher.save c.uuid k.uuid
      else CollectionCipher.delete c.uuid k.uuid) db
      (Either (fun _ db' => LinkedWithin db'.toTables) fun _ _ => False) := by
  have hloop : Ends (each changes fun x => do
      let k ← writableCollection settings org user x
      if k.uuid∈posted then CollectionCipher.save c.uuid k.uuid
      else CollectionCipher.delete c.uuid k.uuid) db
      (Either (fun _ db' => (∀ x∈([] : List Uuid),accepts settings db.toTables org user x=true) ∧
        (∃ links,db'.toTables={db.toTables with ciphersCollections := links}) ∧ LinkedWithin db'.toTables)
        fun _ _ => False) := by
    refine Ends.each (J:=fun xs (db' : Database) => (∀ x∈xs,accepts settings db.toTables org user x=true) ∧
      (∃ links,db'.toTables={db.toTables with ciphersCollections := links}) ∧ LinkedWithin db'.toTables)
      ?_ ⟨h,⟨_,rfl⟩,hwithin⟩
    rintro x xs db₁ ⟨haccepts,⟨links,htables⟩,hwithin₁⟩
    have hx : accepts settings db₁.toTables org user x=true :=
      (accepts_links htables).trans (haccepts x List.mem_cons_self)
    have hrest : ∀ y∈xs,accepts settings db.toTables org user y=true :=
      fun y hy => haccepts y (List.mem_cons_of_mem x hy)
    refine (ends_accepted hx).bind (fun k db₂ ⟨hdb,k',hk,hcols,hr⟩ => ?_) fun e db₂ ⟨_,k',_,_,he⟩ => ?_
    · cases hr
      subst hdb
      have hc₂ : c∈db₂.ciphers := by rw [htables]; exact hc
      split
      · refine ends_update_done (valid_link db₂.valid ⟨c,hc₂,rfl⟩ ⟨k,hk,rfl⟩)
          ⟨hrest,⟨put id ⟨c.uuid,k.uuid⟩ links,?_⟩,?_⟩
        · dsimp only
          rw [htables]
        · intro r hr
          rcases mem_put.mp hr with rfl|hr
          · exact ⟨c,hc₂,rfl,k,hk,rfl,by rw [horg,hcols.2]⟩
          · exact hwithin₁ r hr.1
      · refine ends_update_done (valid_unlink db₂.valid) ⟨hrest,⟨links.filter fun r =>
          ¬(r.cipherUuid=c.uuid ∧ r.collectionUuid=k.uuid),?_⟩,?_⟩
        · dsimp only
          rw [htables]
        · intro r hr
          exact hwithin₁ r (List.mem_filter.mp hr).1
    · cases he
  refine hloop.mono fun r db' hr => ?_
  cases r with
  | ok _ => exact hr.2.2
  | error e => exact hr

theorem intact_collections {ids : List Uuid} {postedOrder currentOrder : HashOrder}
    (hwithin : LinkedWithin db.toTables)
    (hsound : Sound settings db (.collections caller target ids postedOrder currentOrder)) :
    Ends (postCollectionsUpdate settings caller target ids postedOrder currentOrder) db (Intact db) := by
  unfold postCollectionsUpdate
  refine ends_headers (fun u hu hcaller => ?_) (intact_self hwithin)
  refine ends_lookup (Ends.expect (fun c hc => ?_) fun _ => intact_self hwithin)
  refine ends_lookup (Ends.ensure (fun heditable => ?_) fun _ => intact_self hwithin)
  refine Ends.expect (fun org horg => ?_) fun _ => intact_self hwithin
  have hmem : c∈db.ciphers := List.mem_of_find?_eq_some hc
  have hkey := List.find?_some hc
  simp only [decide_eq_true_eq] at hkey
  subst hcaller hkey
  refine ends_lookup ?_
  have hchecks := hsound c hmem rfl heditable org horg
  dsimp only at hchecks ⊢
  generalize symmetricDifference (postedOrder.walk ids) (currentOrder.walk
    (Cipher.getCollections settings.toConfig db.toTables c.uuid u.uuid))=changes at hchecks ⊢
  cases changes with
  | nil => exact intact_response hwithin fun _ => rfl
  | cons x changes =>
    cases hx : accepts settings db.toTables org u.uuid x with
    | false =>
      refine (Ends.refused (Ends.refused (Ends.refused (ends_unaccepted hx)))).mono fun r db' ⟨hdb,_⟩ => ?_
      rw [hdb]
      exact intact_self hwithin
    | true =>
      obtain ⟨hall,htyped⟩ := hchecks hx
      refine (ends_changes hwithin hmem horg (List.all_eq_true.mp hall)).bind (fun _ db' hwithin' => ?_)
        fun e db' h => h.elim
      refine intact_response hwithin' fun hfalse => ?_
      rw [htyped] at hfalse
      cases hfalse

end Requests

section Import

variable {settings : VaultSettings} {db : Database} {m : Membership} {data : ImportData} {caller org : Uuid}

/-- Collections are added, and nothing else. -/
structure Grown (db db' : Database) : Prop where
  /-- Other tables. -/
  tables : ∃ collections next,db'.toTables={db.toTables with
    collections := collections
    next := next}
  /-- The collections that there were. -/
  old : ∀ k∈db.collections,k∈db'.collections
  /-- The others are new. -/
  fresh : ∀ k∈db'.collections,k∈db.collections ∨ db.next≤k.uuid
  /-- Numbers only go up. -/
  next : db.next≤db'.next

theorem Grown.refl : Grown db db :=
  ⟨⟨_,_,rfl⟩,fun _ hk => hk,fun _ hk => .inl hk,le_refl _⟩

theorem Grown.links {db' : Database} (h : Grown db db') : db'.ciphersCollections=db.ciphersCollections := by
  obtain ⟨collections,n,htables⟩ := h.tables
  rw [htables]

theorem Grown.within {db' : Database} (h : Grown db db') (hwithin : LinkedWithin db.toTables) :
    LinkedWithin db'.toTables := by
  intro r hr
  rw [h.links] at hr
  refine linked_of_subset (hwithin r hr) (fun c hc _ => ?_) h.old
  obtain ⟨collections,n,htables⟩ := h.tables
  rw [htables]
  exact hc

/-- The access to a collection that there was is the same. -/
theorem Grown.canAccess {db' : Database} (h : Grown db db') {x : Uuid} (hx : x<db.next) :
    Collection.canAccessCollection settings.toConfig db'.toTables m x=
      Collection.canAccessCollection settings.toConfig db.toTables m x := by
  have hcollections : ∀ k,k.uuid=x → (k∈db'.collections ↔ k∈db.collections) := by
    intro k hk
    refine ⟨fun hmem => ?_,h.old k⟩
    rcases h.fresh k hmem with hold|hnew
    · exact hold
    · exact absurd (hk ▸ hnew) (Nat.not_le_of_lt hx)
  obtain ⟨collections,n,htables⟩ := h.tables
  have hcols : db'.collections=collections := by rw [htables]
  rw [hcols] at hcollections
  rw [htables]
  unfold Collection.canAccessCollection
  dsimp only
  congr 4
  refine any_innerJoin_congr fun row k hon hp => hcollections k ?_
  simp only [decide_eq_true_eq] at hon hp
  exact hon.1.trans hp.1

/-- An import has found or made its first collections. -/
structure Collecting (settings : VaultSettings) (db : Database) (m : Membership) (data : ImportData)
    (rest : List (Option Uuid)) (found : List Uuid) (db' : Database) : Prop where
  /-- The tables. -/
  grown : Grown db db'
  /-- All of them are of the organisation. -/
  own : ∀ x∈found,∃ k∈db'.collections,k.uuid=x ∧ k.orgUuid=m.orgUuid
  /-- One for each of the request. -/
  length : found.length+rest.length=data.collections.length
  /-- All were allowed. -/
  allowed : ∀ x∈data.collections,x∈rest ∨ collectionAllowed settings db.toTables m x=true

/-- One more collection. -/
theorem Collecting.next {x : Option Uuid} {rest : List (Option Uuid)} {found : List Uuid} {db' : Database}
    (h : Collecting settings db m data (x::rest) found db') (horg : ∃ o∈db.organizations,o.uuid=m.orgUuid)
    (hwithin : LinkedWithin db.toTables) :
    Ends (importCollection settings m m.orgUuid
        ((db.collections.filter fun k => k.orgUuid=m.orgUuid).map Collection.uuid) x) db'
      (Either (fun a => Collecting settings db m data rest (found++[a]))
        fun e db'' => Intact db (.error e : Except String Unit) db'') := by
  have hfailed : ∀ e,Intact db (.error e : Except String Unit) db' :=
    fun e => ⟨h.grown.within hwithin,fun _ _ => h.grown.links⟩
  have hlength : ∀ a,(found++[a]).length+rest.length=data.collections.length := by
    intro a
    have hlen := h.length
    simp only [List.length_append,List.length_cons,List.length_nil] at hlen ⊢
    omega
  have hallowed : collectionAllowed settings db.toTables m x=true →
      ∀ y∈data.collections,y∈rest ∨ collectionAllowed settings db.toTables m y=true := by
    intro hx y hy
    rcases h.allowed y hy with hmem|hy
    · rcases List.mem_cons.mp hmem with rfl|hmem
      · exact .inr hx
      · exact .inl hmem
    · exact .inr hy
  unfold importCollection
  unfold collectionAllowed at hallowed
  cases hx : x.filter (·∈(db.collections.filter fun k => k.orgUuid=m.orgUuid).map Collection.uuid) with
  | some id =>
    rw [hx] at hallowed
    obtain ⟨-,hid⟩ := Option.filter_eq_some_iff.mp hx
    obtain ⟨k,hk,hkey⟩ := List.mem_map.mp (of_decide_eq_true hid)
    obtain ⟨hk,hkorg⟩ := List.mem_filter.mp hk
    have hdrawn : id<db.next := hkey ▸ db.valid.2.2.2.2.2.1 k hk
    refine ends_lookup (Ends.ensure (fun hok => ?_) fun _ => hfailed _)
    rw [h.grown.canAccess hdrawn] at hok
    refine ⟨h.grown,fun y hy => ?_,hlength id,hallowed hok⟩
    rcases List.mem_append.mp hy with hy|hy
    · exact h.own y hy
    · cases List.mem_singleton.mp hy
      exact ⟨k,h.grown.old k hk,hkey,by simpa using hkorg⟩
  | none =>
    rw [hx] at hallowed
    refine Ends.ensure (fun hok => ?_) fun _ => hfailed _
    have horg' : ∃ o∈db'.organizations,o.uuid=m.orgUuid := by
      obtain ⟨collections,n,htables⟩ := h.grown.tables
      rw [htables]
      exact horg
    refine Ends.draw (ends_update (valid_collection db'.drawn.valid (Nat.lt_succ_self db'.next) horg') ?_)
    have hfresh : ∀ k∈db'.collections,k.uuid≠db'.next :=
      fun k hk => (db'.valid.2.2.2.2.2.1 k hk).ne
    refine ⟨⟨?_,?_,?_,?_⟩,?_,hlength _,hallowed hok⟩
    · obtain ⟨collections,n,htables⟩ := h.grown.tables
      exact ⟨put Collection.uuid ⟨db'.next,m.orgUuid⟩ collections,db'.next+1,by
        show {db'.toTables with
          collections := put Collection.uuid ⟨db'.next,m.orgUuid⟩ db'.collections
          next := db'.next+1}=_
        rw [htables]⟩
    · intro k hk
      have hk' := h.grown.old k hk
      exact mem_put.mpr (.inr ⟨hk',hfresh k hk'⟩)
    · intro k hk
      rcases mem_put.mp hk with rfl|hk
      · exact .inr h.grown.next
      · exact h.grown.fresh k hk.1
    · exact h.grown.next.trans (Nat.le_succ _)
    · intro y hy
      rcases List.mem_append.mp hy with hy|hy
      · obtain ⟨k,hk,hkey,hkorg⟩ := h.own y hy
        exact ⟨k,mem_put.mpr (.inr ⟨hk,hfresh k hk⟩),hkey,hkorg⟩
      · cases List.mem_singleton.mp hy
        exact ⟨⟨db'.next,m.orgUuid⟩,mem_put.mpr (.inl rfl),rfl,rfl⟩

/-- The checks of an imported cipher are the same throughout the import. -/
theorem refusal_import {t t' : Tables} {user uuid : Uuid} {now : ℤ} {d : CipherData}
    (hmembers : t'.members=t.members) (hpolicies : t'.policies=t.policies) :
    refusal settings t' user (ServerTables.Cipher.new uuid now d.type d.name) {d with folderId := none} true
      .none=
    refusal settings t user (ServerTables.Cipher.new 0 0 d.type d.name) {d with folderId := none} true
      .none := by
  have hpolicy : policyRefusal t' user {d with folderId := none}=
      policyRefusal t user {d with folderId := none} := by
    unfold policyRefusal applicable Membership.findConfirmedByUserAndOrg
    rw [hmembers,hpolicies]
  have howner : ownerRefusal settings t' user (ServerTables.Cipher.new uuid now d.type d.name)
      {d with folderId := none} true=ownerRefusal settings t user
        (ServerTables.Cipher.new 0 0 d.type d.name) {d with folderId := none} true := by
    unfold ownerRefusal Membership.findConfirmedByUserAndOrg
    rw [hmembers]
    simp only [Bool.true_or]
  unfold refusal
  rw [hpolicy,howner]
  rfl

/-- A cipher of the import is there exactly if it passed its checks. -/
structure Placed (settings : VaultSettings) (t : Tables) (user : Uuid) (db' : Database) (d : CipherData)
    (uuid : Uuid) : Prop where
  /-- The key was drawn. -/
  drawn : uuid<db'.next
  /-- It has the organisation of the request. -/
  saved : importable settings t user d=true → ∃ c∈db'.ciphers,c.uuid=uuid ∧
    c.organizationUuid=d.organizationId
  /-- Or it is missing. -/
  missing : importable settings t user d=false → ∀ c∈db'.ciphers,c.uuid≠uuid

/-- An import has dealt with its first ciphers. -/
structure Importing (settings : VaultSettings) (db : Database) (user : Uuid) (collections : List Collection)
    (data : ImportData) (rest : List CipherData) (found : List Uuid) (db' : Database) : Prop where
  /-- No link was written. -/
  links : db'.ciphersCollections=db.ciphersCollections
  /-- All are within. -/
  within : LinkedWithin db'.toTables
  /-- The collections. -/
  collections : db'.collections=collections
  /-- The accounts. -/
  users : db'.users=db.users
  /-- The memberships. -/
  members : db'.members=db.members
  /-- The policies. -/
  policies : db'.policies=db.policies
  /-- The ciphers so far. -/
  done : ∃ ds,data.ciphers=ds++rest ∧ List.Forall₂ (Placed settings db.toTables user db') ds found ∧
    ∀ d∈ds,panics settings db.toTables user d=false

/-- What was placed stays so while other ciphers come. -/
theorem Placed.mono {t : Tables} {user uuid : Uuid} {d : CipherData} {db₁ db₂ : Database}
    (h : Placed settings t user db₁ d uuid) (hnext : db₁.next≤db₂.next)
    (hciphers : ∀ c : Cipher,c.uuid<db₁.next → (c∈db₂.ciphers ↔ c∈db₁.ciphers)) :
    Placed settings t user db₂ d uuid where
  drawn := Nat.lt_of_lt_of_le h.drawn hnext
  saved hd := by
    obtain ⟨c,hc,hkey,horg⟩ := h.saved hd
    exact ⟨c,(hciphers c (hkey ▸ h.drawn)).mpr hc,hkey,horg⟩
  missing hd c hc hkey := h.missing hd c ((hciphers c (hkey ▸ h.drawn)).mp hc) hkey

/-- The import goes on with what an update leaves. -/
theorem Importing.push {user uuid : Uuid} {collections : List Collection} {d : CipherData}
    {rest : List CipherData} {found : List Uuid} {db₁ db₂ : Database}
    (h : Importing settings db user collections data (d::rest) found db₁)
    (hlinks : db₂.ciphersCollections=db₁.ciphersCollections) (hwithin : LinkedWithin db₂.toTables)
    (hsame : db₂.collections=db₁.collections ∧ db₂.users=db₁.users ∧ db₂.members=db₁.members ∧
      db₂.policies=db₁.policies) (hnext : db₁.next≤db₂.next)
    (hciphers : ∀ c : Cipher,c.uuid<db₁.next → (c∈db₂.ciphers ↔ c∈db₁.ciphers))
    (hplaced : Placed settings db.toTables user db₂ d uuid) (hpanics : panics settings db.toTables user d=false) :
    Importing settings db user collections data rest (found++[uuid]) db₂ where
  links := hlinks.trans h.links
  within := hwithin
  collections := hsame.1.trans h.collections
  users := hsame.2.1.trans h.users
  members := hsame.2.2.1.trans h.members
  policies := hsame.2.2.2.trans h.policies
  done := by
    obtain ⟨ds,hds,hall,hno⟩ := h.done
    refine ⟨ds++[d],by rw [hds,List.append_assoc]; rfl,?_,fun x hx => ?_⟩
    · exact List.rel_append (hall.imp fun _ _ hp => hp.mono hnext hciphers) (.cons hplaced .nil)
    · rcases List.mem_append.mp hx with hx|hx
      · exact hno x hx
      · cases List.mem_singleton.mp hx
        exact hpanics

/-- The update of a new cipher during an import. -/
abbrev ImportOutcome (settings : VaultSettings) (user : Uuid) (d : CipherData) (db₁ : Database) :
    Except String Cipher → Database → Prop :=
  Outcome settings db₁.drawn user
    (ServerTables.Cipher.new db₁.next db₁.drawn.toTables.now d.type d.name) {d with folderId := none} true .none

section Outcomes

variable {user : Uuid} {collections : List Collection} {d : CipherData} {rest : List CipherData}
  {found : List Uuid} {db₁ db₂ : Database}

theorem fresh_cipher {c : Cipher} (hc : c∈db₁.ciphers) : c.uuid≠db₁.next :=
  (db₁.valid.2.2.2.2.2.2.2.1 c hc).ne

/-- No link names the new cipher, so all links stay within. -/
theorem Importing.outcome_within {r : Except String Cipher}
    (h : Importing settings db user collections data (d::rest) found db₁)
    (hout : ImportOutcome settings user d db₁ r db₂) : LinkedWithin db₂.toTables := by
  refine within_of_outcome hout (fun r hr _ => h.within r hr) (fun _ => h.within) fun _ r hr hkey => ?_
  obtain ⟨q,hq,hquuid⟩ := db₁.cipher_of_link hr
  exact absurd (hquuid.trans hkey) (fresh_cipher hq)

theorem Importing.refusal (h : Importing settings db user collections data (d::rest) found db₁) :
    refusal settings db₁.drawn.toTables user (ServerTables.Cipher.new db₁.next db₁.drawn.toTables.now d.type
      d.name) {d with folderId := none} true .none=
    refusal settings db.toTables user (ServerTables.Cipher.new 0 0 d.type d.name) {d with folderId := none}
      true .none := refusal_import h.members h.policies

/-- A cipher that was saved. -/
theorem Importing.saved {c : Cipher} (h : Importing settings db user collections data (d::rest) found db₁)
    (hout : ImportOutcome settings user d db₁ (.ok c) db₂) :
    Importing settings db user collections data rest (found++[db₁.next]) db₂ := by
  have hlinks := links_of_outcome hout
  have hwithin := h.outcome_within hout
  cases hout with
  | saved hnone hcontent htables =>
    rename_i content places favorites
    have hcontent' : d.content=.ok content := hcontent
    have hd : importable settings db.toTables user d=true := by
      unfold importable
      rw [h.refusal.symm.trans hnone,hcontent']
      rfl
    have hdata := (Option.or_eq_none_iff.mp (Option.or_eq_none_iff.mp hnone).2).1
    have hnext : db₂.next=db₁.next+1 := by rw [htables]; rfl
    refine h.push hlinks hwithin (by rw [htables]; exact ⟨rfl,rfl,rfl,rfl⟩) (hnext ▸ Nat.le_succ _)
      (fun c hc => ?_) ⟨hnext ▸ Nat.lt_succ_self _,fun _ => ?_,fun h => ?_⟩ ?_
    · rw [htables]
      refine ⟨fun hmem => ?_,fun hmem => mem_put.mpr (.inr ⟨hmem,?_⟩)⟩
      · rcases mem_put.mp hmem with rfl|hmem
        · rw [updated_uuid] at hc
          exact absurd hc (Nat.lt_irrefl _)
        · exact hmem.1
      · rw [updated_uuid]
        exact fresh_cipher hmem
    · rw [htables]
      exact ⟨_,mem_put.mpr (.inl rfl),updated_uuid,updated_organization hdata⟩
    · rw [hd] at h
      cases h
    · unfold panics
      rw [hcontent',Bool.and_false]

/-- A cipher whose error was dropped. -/
theorem Importing.dropped {e : String} (h : Importing settings db user collections data (d::rest) found db₁)
    (hout : ImportOutcome settings user d db₁ (.error e) db₂) (he : e≠Panic) :
    Importing settings db user collections data rest (found++[db₁.next]) db₂ := by
  have hlinks := links_of_outcome hout
  have hwithin := h.outcome_within hout
  -- nothing but attachments was written
  have hsame : db₂.ciphers=db₁.ciphers ∧ db₂.next=db₁.next+1 ∧ db₂.collections=db₁.collections ∧
      db₂.users=db₁.users ∧ db₂.members=db₁.members ∧ db₂.policies=db₁.policies := by
    cases hout with
    | refused hsome => exact ⟨rfl,rfl,rfl,rfl,rfl,rfl⟩
    | broken hnone hcontent htables =>
      rw [htables]
      exact ⟨rfl,rfl,rfl,rfl,rfl,rfl⟩
  obtain ⟨hciphers,hnext,hsame⟩ := hsame
  have hd : importable settings db.toTables user d=false ∧ panics settings db.toTables user d=false := by
    unfold importable panics
    cases hout with
    | refused hsome =>
      rw [h.refusal.symm.trans hsome]
      exact ⟨rfl,rfl⟩
    | broken hnone hcontent htables =>
      have hcontent' : d.content=.error e := hcontent
      rw [hcontent']
      exact ⟨Bool.and_false _,by simp [he]⟩
  refine h.push hlinks hwithin hsame (hnext ▸ Nat.le_succ _) (fun c _ => by rw [hciphers])
    ⟨hnext ▸ Nat.lt_succ_self _,fun h => ?_,fun _ c hc => ?_⟩ hd.2
  · rw [hd.1] at h
    cases h
  · rw [hciphers] at hc
    exact fresh_cipher hc

/-- One more cipher. -/
theorem Importing.next {ids : List Uuid} (huser : ∃ u∈db.users,u.uuid=user)
    (h : Importing settings db user collections data (d::rest) found db₁) :
    Ends (importCipher settings user ids d) db₁
      (Either (fun a => Importing settings db user collections data rest (found++[a]))
        fun e db'' => Intact db (.error e : Except String Unit) db'') := by
  unfold importCipher
  refine Ends.draw (ends_lookup ?_)
  have huser₁ : ∃ u∈db₁.drawn.users,u.uuid=user := by
    show ∃ u∈db₁.users,u.uuid=user
    rw [h.users]
    exact huser
  have hupdate : Ends (okUnlessPanic (updateCipherFromData settings user (ServerTables.Cipher.new db₁.next
      db₁.drawn.toTables.now d.type d.name) {d with folderId := none} (some ids) .none)) db₁.drawn
      (Either (fun _ => Importing settings db user collections data rest (found++[db₁.next]))
        fun e db₂ => Intact db (.error e : Except String Unit) db₂) := by
    refine ends_okUnlessPanic (ends_updateCipher huser₁ (Nat.lt_succ_self db₁.next))
      (fun c db₂ hout => h.saved hout) (fun e db₂ hout hpanic => h.dropped hout hpanic) fun db₂ hout => ?_
    exact ⟨h.outcome_within hout,fun _ _ => (links_of_outcome hout).trans h.links⟩
  exact hupdate.bind (fun _ db₂ h => h) fun e db₂ h => h

end Outcomes

/-- Lists that are related element by element. -/
theorem exists_of_forall₂ {α β : Type} {R : α → β → Prop} {xs : List α} {ys : List β} {i : ℕ} {x : α}
    (h : List.Forall₂ R xs ys) (hx : xs[i]?=some x) : ∃ y,ys[i]?=some y ∧ R x y := by
  induction h generalizing i with
  | nil => simp at hx
  | cons hR _ ih =>
    cases i with
    | zero =>
      cases hx
      exact ⟨_,rfl,hR⟩
    | succ i => exact ih hx

/-- The links of an import whose relations all join the organisation. -/
theorem ends_relations {user : Uuid} {ids found : List Uuid} {relations : List (ℕ×ℕ)} {db₂ : Database}
    (hwithin : LinkedWithin db₂.toTables) (hids : ∀ x∈ids,∃ k∈db₂.collections,k.uuid=x ∧ k.orgUuid=org)
    (hlength : ids.length=data.collections.length)
    (hplaced : List.Forall₂ (Placed settings db.toTables user db₂) data.ciphers found)
    (h : ∀ r∈relations,joins settings db.toTables user org data r=true) :
    Ends (each relations fun (cipherIndex,colIndex) => do
      let cipher ← expect Panic found[cipherIndex]?
      let collection ← expect Panic ids[colIndex]?
      CollectionCipher.save cipher collection) db₂
      (Either (fun _ db' => LinkedWithin db'.toTables) fun _ _ => False) := by
  have hloop : Ends (each relations fun (cipherIndex,colIndex) => do
      let cipher ← expect Panic found[cipherIndex]?
      let collection ← expect Panic ids[colIndex]?
      CollectionCipher.save cipher collection) db₂
      (Either (fun _ db' => (∀ r∈([] : List (ℕ×ℕ)),joins settings db.toTables user org data r=true) ∧
        (db'.ciphers=db₂.ciphers ∧ db'.collections=db₂.collections) ∧ LinkedWithin db'.toTables)
        fun _ _ => False) := by
    refine Ends.each (J:=fun xs (db' : Database) => (∀ r∈xs,joins settings db.toTables user org data r=true) ∧
      (db'.ciphers=db₂.ciphers ∧ db'.collections=db₂.collections) ∧ LinkedWithin db'.toTables)
      ?_ ⟨h,⟨rfl,rfl⟩,hwithin⟩
    rintro ⟨i,j⟩ xs db' ⟨hjoins,⟨hciphers,hcollections⟩,hwithin'⟩
    have hr := hjoins (i,j) List.mem_cons_self
    simp only [joins,linkable,Bool.and_eq_true,decide_eq_true_eq,Option.any_eq_true] at hr
    obtain ⟨⟨⟨d,hd,himportable⟩,hj⟩,d',hd',horg⟩ := hr
    cases hd.symm.trans hd'
    obtain ⟨uuid,huuid,hplace⟩ := exists_of_forall₂ hplaced hd
    have hj' : j< ids.length := hlength ▸ hj
    obtain ⟨x,hx⟩ : ∃ x,ids[j]?=some x := ⟨ids[j],List.getElem?_eq_getElem hj'⟩
    obtain ⟨c,hc,hkey,hcorg⟩ := hplace.saved himportable
    obtain ⟨k,hk,hkuuid,hkorg⟩ := hids x (List.mem_of_getElem? hx)
    have hc' : c∈db'.ciphers := hciphers ▸ hc
    have hk' : k∈db'.collections := hcollections ▸ hk
    dsimp only
    rw [huuid,hx]
    show Ends (CollectionCipher.save uuid x) db' _
    refine ends_update_done (valid_link db'.valid ⟨c,hc',hkey⟩ ⟨k,hk',hkuuid⟩)
      ⟨fun r hr => hjoins r (List.mem_cons_of_mem _ hr),⟨hciphers,hcollections⟩,fun r hr => ?_⟩
    rcases mem_put.mp hr with rfl|hr
    · exact ⟨c,hc',hkey,k,hk',hkuuid,by rw [hcorg,horg,hkorg]⟩
    · exact hwithin' r hr.1
  refine hloop.mono fun r db' hr => ?_
  cases r with
  | ok _ => exact hr.2.2
  | error e => exact hr

/-- A first relation that leads to no link ends the import. -/
theorem ends_unlinkable {user : Uuid} {ids found : List Uuid} {r : ℕ×ℕ} {db₂ : Database}
    (hlength : ids.length=data.collections.length)
    (hplaced : List.Forall₂ (Placed settings db.toTables user db₂) data.ciphers found)
    (h : linkable settings db.toTables user data r=false) :
    Ends (do
      let cipher ← expect Panic found[r.1]?
      let collection ← expect Panic ids[r.2]?
      CollectionCipher.save cipher collection) db₂ fun r db' => db'=db₂ ∧ ∃ e,r=.error e := by
  refine Ends.expect (fun uuid huuid => Ends.expect (fun x hx => ?_) fun _ => ⟨rfl,_,rfl⟩)
    fun _ => ⟨rfl,_,rfl⟩
  obtain ⟨d,hd,hplace⟩ := exists_of_forall₂ hplaced.flip huuid
  have hcol : r.2<data.collections.length := hlength ▸ (List.getElem?_eq_some_iff.mp hx).1
  have hno : importable settings db.toTables user d=false := by
    simpa [linkable,hd,hcol] using h
  refine ends_update_refused fun hvalid => ?_
  obtain ⟨c,hc,hkey⟩ := hvalid.2.1.2.2.2.2.2.2.2.2.2.2.2.2.1 ⟨uuid,x⟩ (mem_put.mpr (.inl rfl))
  exact hplace.missing hno c hc hkey

/-- The guard finds the caller and his membership, or the request fails. -/
theorem ends_orgHeaders {α : Type} {f : OrgHeaders → Action α} {P : Except String α → Database → Prop}
    (hsome : ∀ h : OrgHeaders,h.user∈db.users → h.user.uuid=caller → h.membership∈db.members →
      h.membership.userUuid=caller → h.membership.orgUuid=org → Ends (f h) db P)
    (hnone : ∀ e,P (.error e) db) : Ends ((orgHeaders caller org).bind f) db P := by
  have hguard : Ends (orgHeaders caller org) db (Either (fun h db' => db'=db ∧ (h.user∈db.users ∧
      h.user.uuid=caller) ∧ h.membership∈db.members ∧ h.membership.userUuid=caller ∧
      h.membership.orgUuid=org) fun _ db' => db'=db) := by
    unfold orgHeaders
    refine ends_lookup (Ends.expect (fun u hu => ?_) fun _ => rfl)
    refine ends_lookup (Ends.expect (fun m hm => Ends.ensure (fun _ => ?_) fun _ => rfl) fun _ => rfl)
    have hkey := List.find?_some hu
    have hcols := List.find?_some hm
    simp only [decide_eq_true_eq] at hkey hcols
    exact ⟨rfl,⟨List.mem_of_find?_eq_some hu,hkey⟩,List.mem_of_find?_eq_some hm,hcols.1.trans hkey,hcols.2⟩
  refine hguard.bind (fun h db' ⟨hdb,⟨hu,hcaller⟩,hm,hmuser,horg⟩ => ?_) fun e db' hdb => ?_
  · rw [hdb]
    exact hsome h hu hcaller hm hmuser horg
  · have hsame : db'=db := hdb
    rw [hsame]
    exact hnone e

theorem collecting_start : Collecting settings db m data data.collections [] db where
  grown := .refl
  own x hx := absurd hx List.not_mem_nil
  length := Nat.zero_add _
  allowed x hx := .inl hx

theorem Collecting.importing {ids : List Uuid} {db₁ : Database} {user : Uuid}
    (h : Collecting settings db m data [] ids db₁) (hwithin : LinkedWithin db.toTables) :
    Importing settings db user db₁.collections data data.ciphers [] db₁ := by
  have hlinks := h.grown.links
  have hwithin₁ := h.grown.within hwithin
  obtain ⟨collections,n,htables⟩ := h.grown.tables
  refine ⟨hlinks,hwithin₁,rfl,?_,?_,?_,[],rfl,.nil,fun d hd => absurd hd List.not_mem_nil⟩
  all_goals rw [htables]

theorem intact_import (hwithin : LinkedWithin db.toTables)
    (hsound : Sound settings db (.orgImport caller org data)) :
    Ends (postOrgImport settings caller org data) db (Intact db) := by
  unfold postOrgImport
  refine ends_orgHeaders (fun h hu hcaller hm hmuser horg => ?_) fun e => intact_self hwithin
  subst hcaller horg
  refine Ends.ensure (fun hvalid => ends_lookup ?_) fun _ => intact_self hwithin
  have hchecks := hsound h.membership hm hmuser rfl hvalid
  have hfailed : ∀ e (db' : Database),Intact db (.error e : Except String Unit) db' →
      Intact db (.error e : Except String Unit) db' := fun _ _ h => h
  refine (Ends.collect (J:=Collecting settings db h.membership data) (l:=[]) (fun x xs l s hs =>
    hs.next (db.valid.2.1.2.1 h.membership hm) hwithin) collecting_start).bind
    (fun ids db₁ (hids : Collecting settings db h.membership data [] ids db₁) => ?_) hfailed
  refine (Ends.collect (J:=Importing settings db h.user.uuid db₁.collections data) (l:=[])
    (fun x xs l s hs => hs.next ⟨h.user,hu,rfl⟩) (hids.importing hwithin)).bind
    (fun found db₂ (hfound : Importing settings db h.user.uuid db₁.collections data [] found db₂) => ?_)
    hfailed
  obtain ⟨ds,hds,hplaced,hpanics⟩ := hfound.done
  rw [List.append_nil] at hds
  subst hds
  have hlength : ids.length=data.collections.length := hids.length
  have hallowed : data.collections.all (collectionAllowed settings db.toTables h.membership)=true := by
    rw [List.all_eq_true]
    exact fun x hx => (hids.allowed x hx).resolve_left List.not_mem_nil
  have hno : data.ciphers.all (fun d => !panics settings db.toTables h.user.uuid d)=true := by
    rw [List.all_eq_true]
    intro d hd
    rw [hpanics d hd]
    rfl
  have hjoins := hchecks hallowed hno
  cases hrelations : data.collectionRelationships with
  | nil => exact ⟨hfound.within,fun e he => by cases he⟩
  | cons r relations =>
    rw [hrelations] at hjoins
    cases hr : linkable settings db.toTables h.user.uuid data r with
    | false =>
      refine (Ends.refused (ends_unlinkable hlength hplaced hr)).mono fun r db' ⟨hdb,_⟩ => ?_
      rw [hdb]
      exact ⟨hfound.within,fun _ _ => hfound.links⟩
    | true =>
      have hown : ∀ x∈ids,∃ k∈db₂.collections,k.uuid=x ∧ k.orgUuid=h.membership.orgUuid := by
        rw [hfound.collections]
        exact hids.own
      refine (ends_relations hfound.within hown hlength hplaced (List.all_eq_true.mp (hjoins hr))).mono
        fun r db' hr => ?_
      cases r with
      | ok _ => exact ⟨hr,fun e he => by cases he⟩
      | error e => exact hr.elim

end Import

section Runs

variable {settings : VaultSettings} {db : Database}

/-- Every request keeps the links within the organisations and changes none
when it fails. -/
theorem intact_request {request : Request} (hwithin : LinkedWithin db.toTables)
    (hsound : Sound settings db request) : Ends (request.body settings) db (Intact db) := by
  cases request with
  | post caller data => exact intact_post hwithin
  | put caller id data => exact intact_put hwithin
  | share caller id data ids overrideUt => exact intact_share hwithin hsound
  | collections caller id ids postedOrder currentOrder => exact intact_collections hwithin hsound
  | orgImport caller org data => exact intact_import hwithin hsound

/-- In every run whose requests are not refused after their first link, every
link joins a cipher with a collection of its own organisation, in every state
that is reached, and a failed request changes no link. -/
theorem links_kept {requests : List Request} (hdb : LinkedWithin db.toTables)
    (hrun : Admits (next settings) (Sound settings) db requests) :
    ∀ done rest,requests=done++rest →
      LinkedWithin (run (next settings) db done).toTables ∧
      ∀ request later e,rest=request::later →
        (complete (request.body settings) (run (next settings) db done)).1=.error e →
        (next settings (run (next settings) db done) request).ciphersCollections=
          (run (next settings) db done).ciphersCollections := by
  induction requests generalizing db with
  | nil =>
    intro done rest h
    obtain ⟨rfl,rfl⟩ := List.append_eq_nil_iff.mp h.symm
    exact ⟨hdb,fun request later e hrest => by cases hrest⟩
  | cons first requests ih =>
    have hfirst := intact_request hdb hrun.1
    intro done rest h
    cases done with
    | nil =>
      refine ⟨hdb,fun request later e hrest he => ?_⟩
      rw [List.nil_append] at h
      cases h.trans hrest
      exact hfirst.2 e he
    | cons first' done =>
      cases h
      exact ih hfirst.1 hrun.2 done rest rfl

end Runs

section Samples

/-- Settings without mail. -/
def plainSettings : VaultSettings where
  orgGroupsEnabled := false
  mailEnabled := false
  invitationsAllowed := true
  isEmailDomainAllowed _ := true
  isOrgCreationAllowed _ := true
  email2faAutoFallback := false
  isValidEmail _ := true
  toLowercase email := email
  passwordIterations := 600000
  increaseNoteSizeLimit := false
  parseDate _ := none
  serialize _ := []

/-- The owner of an organisation with one collection has a personal cipher. -/
def shelf : Database := ⟨{Tables.none with
  users := [{User.new 1 0 [] 600000 ['a'] none with passwordHash := [1]}]
  organizations := [⟨2⟩]
  members := [{ServerTables.Membership.new 3 1 2 none with
    accessAll := true
    status := Confirmed
    atype := .owner}]
  collections := [⟨4,2⟩]
  ciphers := [{ServerTables.Cipher.new 5 0 1 ['c'] with userUuid := some 1}]
  next := 6},by decide⟩

/-- The cipher as it is sent, for the organisation and with this type. -/
def sent (type : ℤ) : CipherData where
  id := none
  folderId := none
  organizationId := some 2
  key := none
  type := type
  name := ['c']
  notes := none
  fields := none
  login := some (.object [])
  secureNote := none
  card := none
  identity := none
  sshKey := none
  favorite := none
  reprompt := none
  passwordHistory := none
  attachments2 := none
  lastKnownRevisionDate := none

/-- A share that is refused for its type leaves a link between the personal
cipher and the collection of the organisation. -/
theorem links_leak : LinkedWithin shelf.toTables ∧
    (complete ((Request.share 1 5 (sent 9) [4] none).body plainSettings) shelf).1=.error "Invalid type" ∧
    (next plainSettings shelf (.share 1 5 (sent 9) [4] none)).ciphersCollections=[⟨5,4⟩] ∧
    ¬LinkedWithin (next plainSettings shelf (.share 1 5 (sent 9) [4] none)).toTables := by
  decide

/-- A share that passes. -/
theorem links_kept_share :
    LinkedWithin (run (next plainSettings) shelf [.share 1 5 (sent 1) [4] none]).toTables := by
  have hsound : Sound plainSettings shelf (.share 1 5 (sent 1) [4] none) := by
    intro c hc _ _ org horg _
    cases List.mem_singleton.mp hc
    cases horg
    decide
  have hrun : Admits (next plainSettings) (Sound plainSettings) shelf [.share 1 5 (sent 1) [4] none] :=
    ⟨hsound,trivial⟩
  exact (links_kept (by decide) hrun [.share 1 5 (sent 1) [4] none] [] rfl).1

end Samples

end NadSafe.CipherLinks
