import NadSafe.CipherLinks

/-!
# The collections of a cipher

`post_collections_update` walks the difference between the collections that
were posted and those that are reported to the caller, checks the rights to
one collection at a time and writes its link at once. A collection that is
refused ends the loop, and the links before it stay.
-/

namespace NadSafe.CipherCollections

open HostText JsonText TableRows AsyncScript ServerTables AccessQueries CollectionFlags StoreScript
open ServerModels OrgHandlers CipherHandlers PlannedScript TableWrites CipherUpdates CipherLinks

/-- A collection that is reported to an account for a cipher in it. -/
def reported (config : Config) (t : Tables) (cipher user collection : Uuid) : Prop :=
  collection∈Cipher.getCollections config {t with ciphersCollections := [⟨cipher,collection⟩]} cipher user

/-- The collections for which a link is written or removed. -/
def changes (settings : VaultSettings) (t : Tables) (caller id : Uuid) (ids : List Uuid) : List Uuid :=
  symmetricDifference ids (Cipher.getCollections settings.toConfig t id caller)

/-- What a change of the collections of a cipher promises. -/
structure Changed (settings : VaultSettings) (caller id : Uuid) (ids : List Uuid) (db : Database)
    (r : Except String Unit) (db' : Database) : Prop where
  /-- The caller sees the posted collections, and no others. -/
  posted : r=.ok () → ∀ x,x∈Cipher.getCollections settings.toConfig db'.toTables id caller ↔ x∈ids
  /-- Every other link is the same. -/
  others : r=.ok () → ∀ row : CollectionCipher,row.cipherUuid=id → row.collectionUuid∉ids →
    row.collectionUuid∉Cipher.getCollections settings.toConfig db.toTables id caller →
    (row∈db'.ciphersCollections ↔ row∈db.ciphersCollections)
  /-- A failure leaves all links. -/
  kept : ∀ e,r=.error e → ∀ row,row∈db'.ciphersCollections ↔ row∈db.ciphersCollections
  /-- Only links of the cipher to collections of its organisation that the
  caller may write to are touched. -/
  touched : ∀ row,¬(row∈db'.ciphersCollections ↔ row∈db.ciphersCollections) → row.cipherUuid=id ∧
    ∃ c∈db.ciphers,c.uuid=id ∧ ∃ org,c.organizationUuid=some org ∧
      accepts settings db.toTables org caller row.collectionUuid=true

/-- What is written is what the caller sees, and nothing is written before a
refusal that was not there before. -/
structure Consistent (settings : VaultSettings) (caller : Uuid) (ids : List Uuid) (db : Database) (c : Cipher)
    (org : Uuid) : Prop where
  /-- All links can be written: the caller sees the posted collections. -/
  visible : (∀ x∈changes settings db.toTables caller c.uuid ids,accepts settings db.toTables org caller x=true) →
    typed c=true → ∀ x∈ids,reported settings.toConfig db.toTables c.uuid caller x
  /-- But not the response: none of them changes anything. -/
  untyped : (∀ x∈changes settings db.toTables caller c.uuid ids,accepts settings db.toTables org caller x=true) →
    typed c=false → ∀ x∈changes settings db.toTables caller c.uuid ids,
      (⟨c.uuid,x⟩∈db.ciphersCollections ↔ x∈ids)
  /-- One is refused: none of those that may come before it does. -/
  refused : ∀ y∈changes settings db.toTables caller c.uuid ids,accepts settings db.toTables org caller y=false →
    ∀ x∈changes settings db.toTables caller c.uuid ids,accepts settings db.toTables org caller x=true →
      (x∈ids ∨ ∀ z∈ids,z∉Cipher.getCollections settings.toConfig db.toTables c.uuid caller →
        accepts settings db.toTables org caller z=true) →
      (⟨c.uuid,x⟩∈db.ciphersCollections ↔ x∈ids)

section Reports

/-- An account is shown the links to the collections that are reported to it. -/
theorem mem_getCollections {config : Config} {t : Tables} {cipher user x : Uuid} :
    x∈Cipher.getCollections config t cipher user ↔
      ⟨cipher,x⟩∈t.ciphersCollections ∧ reported config t cipher user x := by
  unfold reported Cipher.getCollections
  cases hgroups : config.orgGroupsEnabled with
  | true =>
    rw [if_pos rfl,if_pos rfl]
    simp only [List.mem_map,List.mem_filter,mem_leftJoin,mem_innerJoin,Prod.exists]
    constructor
    · rintro ⟨⟨c,y⟩,k,m,uc,gu,g,cg,⟨⟨⟨⟨⟨⟨⟨⟨hcc,hkey⟩,hk⟩,hm⟩,huc⟩,hgu⟩,hg⟩,hcg⟩,h⟩,hx⟩
      cases hx
      cases of_decide_eq_true hkey
      exact ⟨hcc,⟨c,y⟩,k,m,uc,gu,g,cg,⟨⟨⟨⟨⟨⟨⟨⟨List.mem_singleton_self _,hkey⟩,hk⟩,hm⟩,huc⟩,hgu⟩,hg⟩,hcg⟩,h⟩,rfl⟩
    · rintro ⟨hcc,⟨c,y⟩,k,m,uc,gu,g,cg,⟨⟨⟨⟨⟨⟨⟨⟨hcc',hkey⟩,hk⟩,hm⟩,huc⟩,hgu⟩,hg⟩,hcg⟩,h⟩,hx⟩
      cases List.mem_singleton.mp hcc'
      exact ⟨⟨cipher,x⟩,k,m,uc,gu,g,cg,⟨⟨⟨⟨⟨⟨⟨⟨hcc,hkey⟩,hk⟩,hm⟩,huc⟩,hgu⟩,hg⟩,hcg⟩,h⟩,rfl⟩
  | false =>
    rw [if_neg Bool.false_ne_true,if_neg Bool.false_ne_true]
    simp only [List.mem_map,List.mem_filter,mem_leftJoin,mem_innerJoin,Prod.exists]
    constructor
    · rintro ⟨⟨c,y⟩,k,m,uc,⟨⟨⟨⟨⟨hcc,hkey⟩,hk⟩,hm⟩,huc⟩,h⟩,hx⟩
      cases hx
      cases of_decide_eq_true hkey
      exact ⟨hcc,⟨c,y⟩,k,m,uc,⟨⟨⟨⟨⟨List.mem_singleton_self _,hkey⟩,hk⟩,hm⟩,huc⟩,h⟩,rfl⟩
    · rintro ⟨hcc,⟨c,y⟩,k,m,uc,⟨⟨⟨⟨⟨hcc',hkey⟩,hk⟩,hm⟩,huc⟩,h⟩,hx⟩
      cases List.mem_singleton.mp hcc'
      exact ⟨⟨cipher,x⟩,k,m,uc,⟨⟨⟨⟨⟨hcc,hkey⟩,hk⟩,hm⟩,huc⟩,h⟩,rfl⟩

end Reports

section Loop

variable {settings : VaultSettings} {db : Database} {org user : Uuid} {c : Cipher}

/-- The links after the changes before the first refusal. -/
def Walked (db db' : Database) (cipher : Uuid) (done posted : List Uuid) : Prop :=
  ∃ links,db'.toTables={db.toTables with ciphersCollections := links} ∧
    ∀ row,row∈links ↔ if row.cipherUuid=cipher ∧ row.collectionUuid∈done then row.collectionUuid∈posted
      else row∈db.ciphersCollections

/-- One more change comes first. -/
theorem Walked.cons {db₁ db₂ : Database} {cipher x : Uuid} {done posted : List Uuid}
    (h : Walked db db₁ cipher [x] posted) (h' : Walked db₁ db₂ cipher done posted) :
    Walked db db₂ cipher (x::done) posted := by
  obtain ⟨links,htables,hlinks⟩ := h
  obtain ⟨links',htables',hlinks'⟩ := h'
  have hcc : db₁.ciphersCollections=links := by rw [htables]
  refine ⟨links',by rw [htables',htables],fun row => ?_⟩
  rw [hlinks' row,hcc,hlinks row]
  by_cases hcipher : row.cipherUuid=cipher <;> by_cases hdone : row.collectionUuid∈done <;>
    by_cases hx : row.collectionUuid=x <;> simp [hcipher,hdone,hx]

/-- The order of the posted collections does not matter. -/
theorem Walked.congr {db' : Database} {cipher : Uuid} {done posted posted' : List Uuid}
    (h : Walked db db' cipher done posted) (hposted : ∀ x,x∈posted ↔ x∈posted') :
    Walked db db' cipher done posted' := by
  obtain ⟨links,htables,hlinks⟩ := h
  refine ⟨links,htables,fun row => ?_⟩
  rw [hlinks row,hposted]

/-- One change of the loop. -/
def change (settings : VaultSettings) (cipher org user : Uuid) (posted : List Uuid) (x : Uuid) : Action Unit := do
  let k ← writableCollection settings org user x
  if k.uuid∈posted then CollectionCipher.save cipher k.uuid
  else CollectionCipher.delete cipher k.uuid

/-- A collection that is accepted: its link is written or removed. -/
theorem ends_change {posted : List Uuid} {x : Uuid} (hc : c∈db.ciphers)
    (hx : accepts settings db.toTables org user x=true) :
    Ends (change settings c.uuid org user posted x) db
      fun r db' => r=.ok () ∧ Walked db db' c.uuid [x] posted := by
  refine (ends_accepted hx).bind (fun k db₁ ⟨hdb,k',hk,hcols,hr⟩ => ?_) fun e db₁ ⟨_,k',_,_,he⟩ => ?_
  · cases hr
    subst hdb
    obtain ⟨rfl,-⟩ := hcols
    by_cases hposted : k.uuid∈posted
    · rw [if_pos hposted]
      refine ends_update_done (valid_link db₁.valid ⟨c,hc,rfl⟩ ⟨k,hk,rfl⟩) ⟨rfl,_,rfl,fun row => ?_⟩
      obtain ⟨cipher,collection⟩ := row
      rw [mem_put]
      by_cases hcipher : cipher=c.uuid <;> by_cases hcollection : collection=k.uuid <;>
        simp [hcipher,hcollection,hposted]
    · rw [if_neg hposted]
      refine ends_update_done (valid_unlink db₁.valid) ⟨rfl,_,rfl,fun row => ?_⟩
      obtain ⟨cipher,collection⟩ := row
      rw [List.mem_filter]
      by_cases hcipher : cipher=c.uuid <;> by_cases hcollection : collection=k.uuid <;>
        simp [hcipher,hcollection,hposted]
  · cases he

/-- The loop stops at the first collection that is refused. -/
theorem ends_loop {posted xs : List Uuid} {p : Uuid → Bool} (hc : c∈db.ciphers)
    (hp : ∀ x,accepts settings db.toTables org user x=p x) :
    Ends (each xs (change settings c.uuid org user posted)) db
      fun r db' => Walked db db' c.uuid (xs.takeWhile p) posted ∧ (r=.ok () ↔ ∀ x∈xs,p x=true) := by
  induction xs generalizing db with
  | nil =>
    have hnone : Walked db db c.uuid [] posted := ⟨_,rfl,fun row => by simp⟩
    exact ⟨hnone,fun _ x hx => absurd hx List.not_mem_nil,fun _ => rfl⟩
  | cons x xs ih =>
    cases hx : p x with
    | true =>
      refine (ends_change hc ((hp x).trans hx)).bind (fun _ db₁ ⟨_,hfirst⟩ => ?_) fun e db₁ ⟨he,_⟩ => ?_
      · have hc₁ : c∈db₁.ciphers := by
          obtain ⟨links,htables,-⟩ := hfirst
          rw [htables]
          exact hc
        have hp₁ : ∀ y,accepts settings db₁.toTables org user y=p y := by
          obtain ⟨links,htables,-⟩ := hfirst
          exact fun y => (accepts_links htables).trans (hp y)
        refine (ih hc₁ hp₁).mono fun r db₂ ⟨hrest,hr⟩ => ?_
        rw [List.takeWhile_cons_of_pos hx,List.forall_mem_cons]
        exact ⟨hfirst.cons hrest,hr.trans ⟨fun h => ⟨hx,h⟩,And.right⟩⟩
      · cases he
    | false =>
      have hstop : Ends (change settings c.uuid org user posted x) db fun r db' => db'=db ∧ ∃ e,r=.error e :=
        Ends.refused (ends_unaccepted ((hp x).trans hx))
      refine (Ends.refused hstop).mono fun r db' ⟨hdb,e,he⟩ => ?_
      have hnot : ¬p x=true := by rw [hx]; exact Bool.false_ne_true
      subst hdb he
      rw [List.takeWhile_cons_of_neg hnot]
      have hsame : Walked db' db' c.uuid [] posted := ⟨_,rfl,fun row => by simp⟩
      refine ⟨hsame,fun h => ?_,fun h => absurd (h x List.mem_cons_self) hnot⟩
      cases h

end Loop

section Request

variable {settings : VaultSettings} {db db' : Database} {caller id org : Uuid} {c : Cipher} {ids : List Uuid}

/-- The changes of one walk. -/
def walked (settings : VaultSettings) (t : Tables) (caller id : Uuid) (ids : List Uuid)
    (postedOrder currentOrder : HashOrder) : List Uuid :=
  symmetricDifference (postedOrder.walk ids)
    (currentOrder.walk (Cipher.getCollections settings.toConfig t id caller))

/-- Every walk has all of them. -/
theorem mem_walked {postedOrder currentOrder : HashOrder} {t : Tables} {x : Uuid} :
    x∈walked settings t caller id ids postedOrder currentOrder ↔ x∈changes settings t caller id ids := by
  simp [walked,changes,symmetricDifference,postedOrder.mem_walk,currentOrder.mem_walk]

/-- A change adds a posted collection that was not reported, or removes a
reported one that was not posted. -/
theorem mem_changes {t : Tables} {x : Uuid} : x∈changes settings t caller id ids ↔
    (x∈ids ∧ x∉Cipher.getCollections settings.toConfig t id caller) ∨
    (x∈Cipher.getCollections settings.toConfig t id caller ∧ x∉ids) := by
  simp [changes,symmetricDifference]

/-- The end of the request for a cipher that the caller may edit. -/
theorem ends_collectionsUpdate {postedOrder currentOrder : HashOrder} {u : User} (hu : u∈db.users)
    (hcaller : u.uuid=caller) (hc : c∈db.ciphers) (hid : c.uuid=id)
    (heditable : Cipher.isInEditableCollectionByUser settings.toConfig db.toTables c caller=true)
    (horg : c.organizationUuid=some org) :
    Ends (postCollectionsUpdate settings caller id ids postedOrder currentOrder) db fun r db' =>
      Walked db db' id ((walked settings db.toTables caller id ids postedOrder currentOrder).takeWhile
        (accepts settings db.toTables org caller)) ids ∧
      (r=.ok () ↔ (∀ x∈changes settings db.toTables caller id ids,
        accepts settings db.toTables org caller x=true) ∧ typed c=true) := by
  subst hcaller hid
  unfold postCollectionsUpdate
  refine ends_caller hu ?_
  refine ends_lookup (Ends.expect (fun c' hc' => ?_) fun hnone => ?_)
  · rw [find?_key db.cipher_nodup hc] at hc'
    cases hc'
    refine ends_lookup (Ends.ensure (fun _ => ?_) fun hno => ?_)
    · refine Ends.expect (fun org' horg' => ?_) fun hnone => ?_
      · cases horg.symm.trans horg'
        have hloop : Ends (each (walked settings db.toTables u.uuid c.uuid ids postedOrder currentOrder)
            (change settings c.uuid org u.uuid (postedOrder.walk ids))) db fun r db' =>
            Walked db db' c.uuid ((walked settings db.toTables u.uuid c.uuid ids postedOrder
              currentOrder).takeWhile (accepts settings db.toTables org u.uuid)) (postedOrder.walk ids) ∧
            (r=.ok () ↔ ∀ x∈walked settings db.toTables u.uuid c.uuid ids postedOrder currentOrder,
              accepts settings db.toTables org u.uuid x=true) := ends_loop hc fun _ => rfl
        simp only [mem_walked] at hloop
        refine ends_lookup (hloop.bind (fun _ db₁ ⟨hwalked,hr⟩ => ?_) fun e db₁ ⟨hwalked,hr⟩ => ?_)
        · have hall := hr.mp rfl
          refine ends_toJson.mono fun r db₂ ⟨hdb,hr⟩ => ?_
          subst hdb
          exact ⟨hwalked.congr fun x => postedOrder.mem_walk ids x,hr.trans ⟨fun h => ⟨hall,h⟩,And.right⟩⟩
        · have hposted := hwalked.congr fun x => postedOrder.mem_walk ids x
          refine ⟨hposted,⟨fun h => ?_,fun h => hr.mpr h.1⟩⟩
          cases h
      · rw [horg] at hnone
        cases hnone
    · rw [heditable] at hno
      cases hno
  · rw [find?_key db.cipher_nodup hc] at hnone
    cases hnone

/-- Links that are reported are those whose collections are. -/
theorem Walked.reports {done posted : List Uuid} (h : Walked db db' id done posted) {x : Uuid} :
    x∈Cipher.getCollections settings.toConfig db'.toTables id caller ↔
      (if x∈done then x∈posted else ⟨id,x⟩∈db.ciphersCollections) ∧
        reported settings.toConfig db.toTables id caller x := by
  obtain ⟨links,htables,hlinks⟩ := h
  rw [mem_getCollections,htables]
  have hx := hlinks ⟨id,x⟩
  simp only [true_and] at hx
  rw [← hx]
  exact Iff.rfl

/-- A link that is different is one of the changes. -/
theorem Walked.touched {done posted : List Uuid} (h : Walked db db' id done posted) {row : CollectionCipher}
    (hrow : ¬(row∈db'.ciphersCollections ↔ row∈db.ciphersCollections)) :
    row.cipherUuid=id ∧ row.collectionUuid∈done := by
  obtain ⟨links,htables,hlinks⟩ := h
  by_contra hnot
  have hsame := hlinks row
  rw [if_neg hnot] at hsame
  rw [htables] at hrow
  exact hrow hsame

/-- The walk keeps every link where each of its changes keeps its own. -/
theorem Walked.kept {done posted : List Uuid} (h : Walked db db' id done posted) :
    (∀ row,row∈db'.ciphersCollections ↔ row∈db.ciphersCollections) ↔
      ∀ x∈done,(⟨id,x⟩∈db.ciphersCollections ↔ x∈posted) := by
  obtain ⟨links,htables,hlinks⟩ := h
  rw [htables]
  constructor
  · intro hkept x hx
    have hrow := (hkept ⟨id,x⟩).symm.trans (hlinks ⟨id,x⟩)
    rw [if_pos ⟨rfl,hx⟩] at hrow
    exact hrow
  · rintro hdone ⟨cipher,x⟩
    refine (hlinks ⟨cipher,x⟩).trans ?_
    by_cases hx : cipher=id ∧ x∈done
    · obtain ⟨rfl,hx⟩ := hx
      rw [if_pos ⟨rfl,hx⟩]
      exact (hdone x hx).symm
    · rw [if_neg hx]

/-- A request that is refused before its first change. -/
theorem ends_unfit {postedOrder currentOrder : HashOrder}
    (h : ∀ u∈db.users,u.uuid=caller → ∀ c∈db.ciphers,c.uuid=id →
      Cipher.isInEditableCollectionByUser settings.toConfig db.toTables c caller=true →
      c.organizationUuid=none) :
    Ends (postCollectionsUpdate settings caller id ids postedOrder currentOrder) db fun r db' =>
      db'=db ∧ ∃ e,r=.error e := by
  unfold postCollectionsUpdate
  refine ends_headers (fun u hu hcaller => ?_) ⟨rfl,_,rfl⟩
  refine ends_lookup (Ends.expect (fun c hc => ?_) fun _ => ⟨rfl,_,rfl⟩)
  refine ends_lookup (Ends.ensure (fun heditable => ?_) fun _ => ⟨rfl,_,rfl⟩)
  have hkey := List.find?_some hc
  simp only [decide_eq_true_eq] at hkey
  subst hcaller
  rw [h u hu rfl c (List.mem_of_find?_eq_some hc) hkey heditable]
  exact ⟨rfl,_,rfl⟩

/-- What one walk promises comes down to the links before its first refusal. -/
theorem changed_iff {postedOrder currentOrder : HashOrder} {r : Except String Unit} (hc : c∈db.ciphers)
    (hid : c.uuid=id) (horg : c.organizationUuid=some org)
    (h : Walked db db' id ((walked settings db.toTables caller id ids postedOrder currentOrder).takeWhile
      (accepts settings db.toTables org caller)) ids)
    (hr : r=.ok () ↔ (∀ x∈changes settings db.toTables caller id ids,
      accepts settings db.toTables org caller x=true) ∧ typed c=true) :
    Changed settings caller id ids db r db' ↔
      ((∀ x∈changes settings db.toTables caller id ids,accepts settings db.toTables org caller x=true) →
        typed c=true → ∀ x∈ids,reported settings.toConfig db.toTables id caller x) ∧
      (¬((∀ x∈changes settings db.toTables caller id ids,accepts settings db.toTables org caller x=true) ∧
          typed c=true) →
        ∀ x∈(walked settings db.toTables caller id ids postedOrder currentOrder).takeWhile
          (accepts settings db.toTables org caller),(⟨id,x⟩∈db.ciphersCollections ↔ x∈ids)) := by
  have hmem : ∀ {x},x∈(walked settings db.toTables caller id ids postedOrder currentOrder).takeWhile
      (accepts settings db.toTables org caller) → x∈changes settings db.toTables caller id ids :=
    fun hx => (mem_walked).mp ((List.takeWhile_sublist _).subset hx)
  constructor
  · intro hchanged
    refine ⟨fun hall htyped x hx => ?_,fun hno => h.kept.mp ?_⟩
    · exact (h.reports.mp ((hchanged.posted (hr.mpr ⟨hall,htyped⟩) x).mpr hx)).2
    · cases r with
      | ok a => exact absurd (hr.mp rfl) hno
      | error e => exact hchanged.kept e rfl
  · rintro ⟨hvisible,hkept⟩
    refine ⟨fun hok x => ?_,fun hok row hcipher hids hseen => ?_,fun e he => h.kept.mpr (hkept fun hall => ?_),
      fun row hrow => ?_⟩
    · obtain ⟨hall,htyped⟩ := hr.mp hok
      have hdone : (walked settings db.toTables caller id ids postedOrder currentOrder).takeWhile
          (accepts settings db.toTables org caller)=
          walked settings db.toTables caller id ids postedOrder currentOrder :=
        List.takeWhile_eq_self_iff.mpr fun x hx => hall x ((mem_walked).mp hx)
      rw [h.reports,hdone]
      by_cases hchange : x∈changes settings db.toTables caller id ids
      · rw [if_pos ((mem_walked).mpr hchange)]
        exact ⟨And.left,fun hids => ⟨hids,hvisible hall htyped x hids⟩⟩
      · rw [if_neg fun hx => hchange ((mem_walked).mp hx),← mem_getCollections]
        rw [mem_changes] at hchange
        grind
    · by_contra hrow
      rcases (mem_changes).mp (hmem (h.touched hrow).2) with ⟨hmem',-⟩|⟨hmem',-⟩
      · exact hids hmem'
      · exact hseen hmem'
    · rw [hr.mpr hall] at he
      cases he
    · obtain ⟨hcipher,hdone⟩ := h.touched hrow
      exact ⟨hcipher,c,hc,hid,org,horg,List.mem_takeWhile_imp hdone⟩

end Request

section Orders

/-- A walk that begins with an element. -/
def firstOrder (x : Uuid) : HashOrder where
  walk xs := if x∈xs then x::xs.filter (·≠x) else xs
  mem_walk xs y := by
    by_cases hx : x∈xs
    · rw [if_pos hx,List.mem_cons,List.mem_filter]
      by_cases hy : y=x
      · simp [hy,hx]
      · simp [hy]
    · rw [if_neg hx]

variable {settings : VaultSettings} {db : Database} {caller id org : Uuid} {c : Cipher} {ids : List Uuid}

theorem firstOrder_head {x : Uuid} {xs : List Uuid} (hx : x∈xs) : ∃ rest,(firstOrder x).walk xs=x::rest :=
  ⟨_,if_pos hx⟩

/-- The first element of a list passes both its filters. -/
theorem head_taken {p q : Uuid → Bool} {x : Uuid} {rest tail : List Uuid} (hq : q x=true) (hp : p x=true) :
    x∈((x::rest).filter q++tail).takeWhile p := by
  rw [List.filter_cons_of_pos hq,List.cons_append,List.takeWhile_cons_of_pos hp]
  exact List.mem_cons_self

/-- A posted collection that is accepted may come first. -/
theorem added_first {current : List Uuid} {p : Uuid → Bool} {x : Uuid} (hx : x∈ids) (hnew : x∉current)
    (hp : p x=true) : x∈(symmetricDifference ((firstOrder x).walk ids) current).takeWhile p := by
  obtain ⟨rest,hrest⟩ := firstOrder_head hx
  rw [hrest]
  exact head_taken (decide_eq_true hnew) hp

/-- A removed one that is accepted may come right after the posted ones. -/
theorem removed_first {posted current : List Uuid} {p : Uuid → Bool} {x : Uuid} (hx : x∈current)
    (hold : x∉posted) (hp : p x=true) (hposted : ∀ z∈posted,z∉current → p z=true) :
    x∈(symmetricDifference posted ((firstOrder x).walk current)).takeWhile p := by
  have hcurrent := (firstOrder x).mem_walk current
  have hfirst : ∀ z∈posted.filter (·∉(firstOrder x).walk current),p z=true := by
    intro z hz
    obtain ⟨hmem,hnew⟩ := List.mem_filter.mp hz
    exact hposted z hmem fun h => of_decide_eq_true hnew ((hcurrent z).mpr h)
  unfold symmetricDifference
  rw [List.takeWhile_append_of_pos hfirst]
  refine List.mem_append_right _ ?_
  obtain ⟨rest,hrest⟩ := firstOrder_head hx
  rw [hrest,← List.append_nil (List.filter _ _)]
  exact head_taken (decide_eq_true hold) hp

/-- A removed one that is reached comes after all posted ones. -/
theorem passed_posted {posted removed : List Uuid} {p : Uuid → Bool} {x : Uuid}
    (hx : x∈(posted++removed).takeWhile p) (hold : x∉posted) : ∀ z∈posted,p z=true := by
  induction posted with
  | nil => exact fun z hz => absurd hz List.not_mem_nil
  | cons y ys ih =>
    rw [List.cons_append,List.takeWhile_cons] at hx
    cases hy : p y with
    | true =>
      rw [hy,if_pos rfl] at hx
      have hrest := (List.mem_cons.mp hx).resolve_left fun h => hold (h ▸ List.mem_cons_self)
      exact List.forall_mem_cons.mpr ⟨hy,ih hrest fun h => hold (List.mem_cons_of_mem y h)⟩
    | false =>
      rw [hy,if_neg Bool.false_ne_true] at hx
      exact absurd hx List.not_mem_nil

end Orders

section Main

variable {settings : VaultSettings} {db : Database} {caller id org : Uuid} {c : Cipher} {ids : List Uuid}

/-- The links before the first refusal, in any order of the walk. -/
theorem idle_iff :
    (∀ postedOrder currentOrder : HashOrder,
      ¬((∀ x∈changes settings db.toTables caller c.uuid ids,accepts settings db.toTables org caller x=true) ∧
          typed c=true) →
        ∀ x∈(walked settings db.toTables caller c.uuid ids postedOrder currentOrder).takeWhile
          (accepts settings db.toTables org caller),(⟨c.uuid,x⟩∈db.ciphersCollections ↔ x∈ids)) ↔
      ((∀ x∈changes settings db.toTables caller c.uuid ids,accepts settings db.toTables org caller x=true) →
        typed c=false → ∀ x∈changes settings db.toTables caller c.uuid ids,
          (⟨c.uuid,x⟩∈db.ciphersCollections ↔ x∈ids)) ∧
      (∀ y∈changes settings db.toTables caller c.uuid ids,accepts settings db.toTables org caller y=false →
        ∀ x∈changes settings db.toTables caller c.uuid ids,accepts settings db.toTables org caller x=true →
          (x∈ids ∨ ∀ z∈ids,z∉Cipher.getCollections settings.toConfig db.toTables c.uuid caller →
            accepts settings db.toTables org caller z=true) →
          (⟨c.uuid,x⟩∈db.ciphersCollections ↔ x∈ids)) := by
  constructor
  · intro h
    refine ⟨fun hall htyped x hx => ?_,fun y hy hno x hx haccepts hfirst => ?_⟩
    · have hfails : ¬typed c=true := by rw [htyped]; exact Bool.false_ne_true
      refine h (firstOrder x) (firstOrder x) (fun hboth => hfails hboth.2) x ?_
      rw [List.takeWhile_eq_self_iff.mpr fun z hz => hall z (mem_walked.mp hz)]
      exact mem_walked.mpr hx
    · have hfails : ¬accepts settings db.toTables org caller y=true := by rw [hno]; exact Bool.false_ne_true
      refine h (firstOrder x) (firstOrder x) (fun hboth => hfails (hboth.1 y hy)) x ?_
      have hposted := (firstOrder x).mem_walk ids
      have hcurrent := (firstOrder x).mem_walk
        (Cipher.getCollections settings.toConfig db.toTables c.uuid caller)
      rcases mem_changes.mp hx with ⟨hmem,hnew⟩|⟨hmem,hold⟩
      · exact added_first hmem (fun hseen => hnew ((hcurrent x).mp hseen)) haccepts
      · refine removed_first hmem (fun hids => hold ((hposted x).mp hids)) haccepts fun z hz hnew => ?_
        exact hfirst.resolve_left hold z ((hposted z).mp hz) hnew
  · rintro ⟨huntyped,hrefused⟩ postedOrder currentOrder hfails x hx
    have hchange := mem_walked.mp ((List.takeWhile_sublist _).subset hx)
    by_cases hall : ∀ y∈changes settings db.toTables caller c.uuid ids,
        accepts settings db.toTables org caller y=true
    · refine huntyped hall ?_ x hchange
      exact Bool.eq_false_iff.mpr fun htyped => hfails ⟨hall,htyped⟩
    · obtain ⟨y,hfound⟩ := not_forall.mp hall
      obtain ⟨hy,hno⟩ := Classical.not_imp.mp hfound
      refine hrefused y hy (Bool.eq_false_iff.mpr hno) x hchange (List.mem_takeWhile_imp hx) ?_
      by_cases hids : x∈ids
      · exact .inl hids
      · refine .inr fun z hz hnew => passed_posted hx (fun hmem => hids ?_) z ?_
        · exact (postedOrder.mem_walk ids x).mp (List.mem_filter.mp hmem).1
        · refine List.mem_filter.mpr ⟨(postedOrder.mem_walk ids z).mpr hz,decide_eq_true fun hseen => hnew ?_⟩
          exact (currentOrder.mem_walk _ z).mp hseen

/-- Whatever the order of the walk, a change of the collections of a cipher
keeps its promise exactly if it is consistent. -/
theorem collections_changed :
    (∀ postedOrder currentOrder : HashOrder,Changed settings caller id ids db
      (complete (postCollectionsUpdate settings caller id ids postedOrder currentOrder) db).1
      (complete (postCollectionsUpdate settings caller id ids postedOrder currentOrder) db).2) ↔
    ∀ u∈db.users,u.uuid=caller → ∀ c∈db.ciphers,c.uuid=id →
      Cipher.isInEditableCollectionByUser settings.toConfig db.toTables c caller=true →
      ∀ org,c.organizationUuid=some org → Consistent settings caller ids db c org := by
  have hends : ∀ u∈db.users,u.uuid=caller → ∀ c∈db.ciphers,c.uuid=id →
      Cipher.isInEditableCollectionByUser settings.toConfig db.toTables c caller=true →
      ∀ org,c.organizationUuid=some org → ((∀ postedOrder currentOrder : HashOrder,
        Changed settings caller id ids db
          (complete (postCollectionsUpdate settings caller id ids postedOrder currentOrder) db).1
          (complete (postCollectionsUpdate settings caller id ids postedOrder currentOrder) db).2) ↔
        Consistent settings caller ids db c org) := by
    intro u hu hcaller c hc hid heditable org horg
    subst hid
    have hwalk : ∀ p q : HashOrder,Ends (postCollectionsUpdate settings caller c.uuid ids p q) db _ :=
      fun p q => ends_collectionsUpdate hu hcaller hc rfl heditable horg
    have hiff := fun p q => changed_iff hc rfl horg (hwalk p q).1 (hwalk p q).2
    constructor
    · intro hchanged
      have hparts := fun p q => (hiff p q).mp (hchanged p q)
      obtain ⟨huntyped,hrefused⟩ := (idle_iff).mp fun p q => (hparts p q).2
      exact ⟨(hparts (firstOrder 0) (firstOrder 0)).1,huntyped,hrefused⟩
    · intro hconsistent p q
      exact (hiff p q).mpr ⟨hconsistent.visible,(idle_iff).mpr ⟨hconsistent.untyped,hconsistent.refused⟩ p q⟩
  constructor
  · intro hchanged u hu hcaller c hc hid heditable org horg
    exact (hends u hu hcaller c hc hid heditable org horg).mp hchanged
  · intro hconsistent
    by_cases hfit : ∃ u∈db.users,u.uuid=caller ∧ ∃ c∈db.ciphers,c.uuid=id ∧
        Cipher.isInEditableCollectionByUser settings.toConfig db.toTables c caller=true ∧
        ∃ org,c.organizationUuid=some org
    · obtain ⟨u,hu,hcaller,c,hc,hid,heditable,org,horg⟩ := hfit
      exact (hends u hu hcaller c hc hid heditable org horg).mpr
        (hconsistent u hu hcaller c hc hid heditable org horg)
    · intro postedOrder currentOrder
      have hunfit : Ends (postCollectionsUpdate settings caller id ids postedOrder currentOrder) db fun r db' =>
          db'=db ∧ ∃ e,r=.error e := by
        refine ends_unfit fun u hu hcaller c hc hid heditable => Option.not_isSome_iff_eq_none.mp fun horg => ?_
        exact hfit ⟨u,hu,hcaller,c,hc,hid,heditable,Option.isSome_iff_exists.mp horg⟩
      obtain ⟨hdb,e,he⟩ := hunfit
      rw [hdb,he]
      refine ⟨fun h => ?_,fun h => ?_,fun _ _ _ => Iff.rfl,fun _ h => absurd Iff.rfl h⟩ <;> cases h

end Main

section Samples

/-- The cipher is in the organisation, and in none of its collections. -/
def cabinet : Database := ⟨{Tables.none with
  users := [{User.new 1 0 [] 600000 ['a'] none with passwordHash := [1]}]
  organizations := [⟨2⟩]
  members := [{ServerTables.Membership.new 3 1 2 none with
    accessAll := true
    status := Confirmed
    atype := .owner}]
  collections := [⟨4,2⟩]
  ciphers := [{ServerTables.Cipher.new 5 0 1 ['c'] with organizationUuid := some 2}]
  next := 6},by decide⟩

/-- A posted id of no collection is refused after the cipher has been put into
the other one. -/
theorem partly_changed : ¬Changed plainSettings 1 5 [4,9] cabinet
    (complete (postCollectionsUpdate plainSettings 1 5 [4,9] (firstOrder 4) (firstOrder 4)) cabinet).1
    (complete (postCollectionsUpdate plainSettings 1 5 [4,9] (firstOrder 4) (firstOrder 4)) cabinet).2 := by
  intro h
  have hrow := h.kept "Invalid collection ID provided" (by decide) ⟨5,4⟩
  revert hrow
  decide

end Samples

end NadSafe.CipherCollections
