import NadSafe.AccessEdits

/-!
# Access to several collections

`post_bulk_access_collections` goes through the collections one by one. For
each it deletes the old grants and saves the new ones before it looks at the
next. An unknown group or member is met in the first collection, in the middle
of its grants; a collection that is unknown or not managed by the caller comes
after those that have been rewritten. The access to one collection decides
whether it may be managed, so a collection that is named twice may be refused
the second time.
-/

namespace NadSafe.BulkAccess

open HostText TableRows AsyncScript AsyncScript.Script ServerTables AccessQueries CollectionFlags StoreScript
open ServerModels OrgHandlers PlannedScript TableWrites RowImages RelyScript CoreFrames MemberWrites AccessEdits
open FactorRows (ends_frames)

/-- The checks of `post_bulk_access_collections`. -/
def bulkChecks (caller org : Uuid) : Action OrgHeaders := do
  let h ← managerHeadersLoose caller org
  let found ← Organization.findByUuid org
  let _ ← expect "Can't find organization details" found
  pure h

/-- What it does for one collection. -/
def replaceAccess (org user : Uuid) (data : FullCollectionData) (id : Uuid) : Action Unit := do
  let collection ← Collection.findByUuidAndOrg id org
  let collection ← expect "Collection not found" collection
  let manageable ← isCollManageableByUser id user
  ensure "Collection not found" manageable
  Collection.save collection
  CollectionGroup.deleteAllByCollection id
  grantGroups id data.groups
  CollectionUser.deleteAllByCollection id
  grantCollection org id data.users

/-- A collection that the account manages. -/
def manageable (t : Tables) (user id : Uuid) : Bool :=
  t.collections.any fun k => decide (k.uuid=id) && Collection.isManageableByUser t k user

/-- A collection of the organisation that the account manages. -/
def fits (t : Tables) (org user id : Uuid) : Bool := knownCollection t org id && manageable t user id

/-- A member of the organisation. -/
def knownMember (t : Tables) (org id : Uuid) : Bool :=
  t.members.any fun m => decide (m.uuid=id ∧ m.orgUuid=org)

/-- The grant for one member; one with access to everything gets none. -/
def memberRow (t : Tables) (org collection : Uuid) (u : AccessData) : List CollectionUser :=
  match t.members.find? fun m => m.uuid=u.id ∧ m.orgUuid=org with
  | some m => if m.accessAll=true then [] else [⟨m.userUuid,collection,u.flags⟩]
  | none => []

/-- The grants for members. -/
def userRows (t : Tables) (org collection : Uuid) (users : List AccessData) : List CollectionUser :=
  users.flatMap (memberRow t org collection)

/-- The grants for groups. -/
def groupRows (collection : Uuid) (groups : List AccessData) : List CollectionGroup :=
  groups.map fun g => ⟨collection,g.id,g.flags⟩

/-- The members' grants on a collection are those of a list. -/
def UsersAre (t : Tables) (collection : Uuid) (rows : List CollectionUser) : Prop :=
  ∀ r : CollectionUser,r.collectionUuid=collection → (r∈t.usersCollections ↔ r∈puts CollectionUser.key rows [])

/-- The groups' grants on a collection are those of a list. -/
def GroupsAre (t : Tables) (collection : Uuid) (rows : List CollectionGroup) : Prop :=
  ∀ r : CollectionGroup,r.collectionsUuid=collection →
    (r∈t.collectionsGroups ↔ r∈puts CollectionGroup.key rows [])

/-- The tables with the access to one collection that a request asks for. -/
def withAccess (t : Tables) (org : Uuid) (data : FullCollectionData) (collection : Uuid) : Tables :=
  {t with
    usersCollections := puts CollectionUser.key (userRows t org collection data.users)
      (t.usersCollections.filter fun r => r.collectionUuid≠collection)
    collectionsGroups := puts CollectionGroup.key (groupRows collection data.groups)
      (t.collectionsGroups.filter fun r => r.collectionsUuid≠collection)}

/-- A request that fails does so before anything that it writes makes a
difference. -/
structure BulkSettled (t : Tables) (org user : Uuid) (ids : List Uuid) (data : FullCollectionData) : Prop where
  /-- An unknown group: the entries before it are the grants of the first collection. -/
  groups : (∃ g∈data.groups,knownGroup t g.id=false) → ∀ x,ids.head?=some x → fits t org user x=true →
    GroupsAre t x (groupRows x (data.groups.takeWhile fun g => knownGroup t g.id))
  /-- Known groups, but an unknown member: so are all groups and the members before him. -/
  members : (∀ g∈data.groups,knownGroup t g.id=true) → (∃ u∈data.users,knownMember t org u.id=false) →
    ∀ x,ids.head?=some x → fits t org user x=true → GroupsAre t x (groupRows x data.groups) ∧
      UsersAre t x (userRows t org x (data.users.takeWhile fun u => knownMember t org u.id))
  /-- Known groups and members: no collection is refused, or those before the
  first that is have the access already. -/
  collections : (∀ g∈data.groups,knownGroup t g.id=true) → (∀ u∈data.users,knownMember t org u.id=true) →
    ((∀ x∈ids,fits t org user x=true) ∧
      ∀ x,2≤ ids.count x → manageable (withAccess t org data x) user x=true) ∨
    ∀ x∈ids.takeWhile (fits t org user),GroupsAre t x (groupRows x data.groups) ∧
      UsersAre t x (userRows t org x data.users)

section Managing

/-- Joined rows are the same where the rows that can be joined are. -/
theorem mem_partners_congr {β : Type} {table table' : List β} {on : β → Bool}
    (h : ∀ b,on b=true → (b∈table' ↔ b∈table)) {b : Option β} : b∈partners table' on ↔ b∈partners table on := by
  rw [mem_partners,mem_partners]
  have hsome : (∃ x∈table',on x=true ∧ b=some x) ↔ ∃ x∈table,on x=true ∧ b=some x := by
    constructor
    · rintro ⟨x,hx,hon,hb⟩
      exact ⟨x,(h x hon).mp hx,hon,hb⟩
    · rintro ⟨x,hx,hon,hb⟩
      exact ⟨x,(h x hon).mpr hx,hon,hb⟩
  have hnone : (∀ x∈table',on x=false) ↔ ∀ x∈table,on x=false := by
    constructor
    · exact fun hall x hx => Bool.eq_false_iff.mpr fun hon => Bool.eq_false_iff.mp (hall x ((h x hon).mpr hx)) hon
    · exact fun hall x hx => Bool.eq_false_iff.mpr fun hon => Bool.eq_false_iff.mp (hall x ((h x hon).mp hx)) hon
  rw [hsome,hnone]

/-- Two states in which the access to a collection is the same. -/
structure Alike (t t' : Tables) (x : Uuid) : Prop where
  /-- Memberships. -/
  members : t'.members=t.members
  /-- Groups. -/
  groups : t'.groups=t.groups
  /-- Places in groups. -/
  places : t'.groupsUsers=t.groupsUsers
  /-- Collections. -/
  collections : SameRows t.collections t'.collections
  /-- Grants to members. -/
  users : ∀ r : CollectionUser,r.collectionUuid=x → (r∈t'.usersCollections ↔ r∈t.usersCollections)
  /-- Grants to groups. -/
  groupGrants : ∀ r : CollectionGroup,r.collectionsUuid=x → (r∈t'.collectionsGroups ↔ r∈t.collectionsGroups)

/-- The joined rows of the collection are the same. -/
theorem Alike.rows {t t' : Tables} {x user : Uuid} (h : Alike t t' x) {r : AccessRow} (hr : r.collection.uuid=x) :
    r∈accessRows t' user ↔ r∈accessRows t user := by
  obtain ⟨k,uc,m,gu,g,cg⟩ := r
  subst hr
  have huc : uc∈partners t'.usersCollections (fun uc => uc.collectionUuid=k.uuid ∧ uc.userUuid=user) ↔
      uc∈partners t.usersCollections fun uc => uc.collectionUuid=k.uuid ∧ uc.userUuid=user :=
    mem_partners_congr fun b hb => h.users b (of_decide_eq_true hb).1
  have hcg : cg∈partners t'.collectionsGroups (fun cg =>
        gu.any (fun gu => cg.groupsUuid=gu.groupsUuid) && decide (cg.collectionsUuid=k.uuid)) ↔
      cg∈partners t.collectionsGroups fun cg =>
        gu.any (fun gu => cg.groupsUuid=gu.groupsUuid) && decide (cg.collectionsUuid=k.uuid) :=
    mem_partners_congr fun b hb => h.groupGrants b (of_decide_eq_true (Bool.and_eq_true_iff.mp hb).2)
  simp only [accessRows,List.mem_map,mem_leftJoin,Prod.exists,AccessRow.mk.injEq]
  constructor
  · rintro ⟨k',uc',m',gu',g',cg',⟨⟨⟨⟨⟨hk,h₁⟩,h₂⟩,h₃⟩,h₄⟩,h₅⟩,rfl,rfl,rfl,rfl,rfl,rfl⟩
    rw [h.members] at h₂
    rw [h.places] at h₃
    rw [h.groups] at h₄
    exact ⟨_,_,_,_,_,_,⟨⟨⟨⟨⟨(h.collections _).mp hk,huc.mp h₁⟩,h₂⟩,h₃⟩,h₄⟩,hcg.mp h₅⟩,rfl,rfl,rfl,rfl,rfl,rfl⟩
  · rintro ⟨k',uc',m',gu',g',cg',⟨⟨⟨⟨⟨hk,h₁⟩,h₂⟩,h₃⟩,h₄⟩,h₅⟩,rfl,rfl,rfl,rfl,rfl,rfl⟩
    rw [← h.members] at h₂
    rw [← h.places] at h₃
    rw [← h.groups] at h₄
    exact ⟨_,_,_,_,_,_,⟨⟨⟨⟨⟨(h.collections _).mpr hk,huc.mpr h₁⟩,h₂⟩,h₃⟩,h₄⟩,hcg.mpr h₅⟩,rfl,rfl,rfl,rfl,rfl,rfl⟩

/-- So is whether it may be managed. -/
theorem Alike.manageable {t t' : Tables} {x user : Uuid} (h : Alike t t' x) :
    BulkAccess.manageable t' user x=BulkAccess.manageable t user x := by
  have hrow : ∀ k : Collection,k.uuid=x →
      Collection.isManageableByUser t' k user=Collection.isManageableByUser t k user := by
    intro k hk
    unfold Collection.isManageableByUser Collection.anyRow
    rw [Bool.eq_iff_iff,List.any_eq_true,List.any_eq_true]
    constructor
    · rintro ⟨r,hr,hp⟩
      have hkey := of_decide_eq_true (Bool.and_eq_true_iff.mp hp).1
      exact ⟨r,(h.rows (hkey.trans hk)).mp hr,hp⟩
    · rintro ⟨r,hr,hp⟩
      have hkey := of_decide_eq_true (Bool.and_eq_true_iff.mp hp).1
      exact ⟨r,(h.rows (hkey.trans hk)).mpr hr,hp⟩
  unfold BulkAccess.manageable
  rw [Bool.eq_iff_iff,List.any_eq_true,List.any_eq_true]
  constructor
  · rintro ⟨k,hk,hp⟩
    obtain ⟨hkey,hmanages⟩ := Bool.and_eq_true_iff.mp hp
    rw [hrow k (of_decide_eq_true hkey)] at hmanages
    exact ⟨k,(h.collections k).mp hk,Bool.and_eq_true_iff.mpr ⟨hkey,hmanages⟩⟩
  · rintro ⟨k,hk,hp⟩
    obtain ⟨hkey,hmanages⟩ := Bool.and_eq_true_iff.mp hp
    rw [← hrow k (of_decide_eq_true hkey)] at hmanages
    exact ⟨k,(h.collections k).mpr hk,Bool.and_eq_true_iff.mpr ⟨hkey,hmanages⟩⟩

end Managing

section Writes

variable {db : Database} {caller org user x : Uuid} {data : FullCollectionData}

/-- The new grants of one collection, as far as they were written. -/
def Replaced (db db' : Database) (x : Uuid) (users : Option (List CollectionUser))
    (groups : List CollectionGroup) : Prop :=
  ∃ collections,SameRows db.collections collections ∧ db'.toTables={db.toTables with
    collections := collections
    usersCollections := match users with
      | some rows => puts CollectionUser.key rows (db.usersCollections.filter fun r => r.collectionUuid≠x)
      | none => db.usersCollections
    collectionsGroups := puts CollectionGroup.key groups
      (db.collectionsGroups.filter fun r => r.collectionsUuid≠x)}

/-- The end of one collection that is not refused. -/
inductive Outcome (db : Database) (org x : Uuid) (data : FullCollectionData) (r : Except String Unit)
    (db' : Database) : Prop where
  /-- A group does not exist. -/
  | group (hunknown : ∃ g∈data.groups,knownGroup db.toTables g.id=false) (hr : ∃ e,r=.error e)
      (h : Replaced db db' x none (groupRows x (data.groups.takeWhile fun g => knownGroup db.toTables g.id)))
  /-- A member does not. -/
  | member (hgroups : ∀ g∈data.groups,knownGroup db.toTables g.id=true)
      (hunknown : ∃ u∈data.users,knownMember db.toTables org u.id=false) (hr : ∃ e,r=.error e)
      (h : Replaced db db' x (some (userRows db.toTables org x (data.users.takeWhile fun u =>
        knownMember db.toTables org u.id))) (groupRows x data.groups))
  /-- All do. -/
  | done (hgroups : ∀ g∈data.groups,knownGroup db.toTables g.id=true)
      (husers : ∀ u∈data.users,knownMember db.toTables org u.id=true) (hr : r=.ok ())
      (h : Replaced db db' x (some (userRows db.toTables org x data.users)) (groupRows x data.groups))

/-- A collection that is refused. -/
theorem ends_unfit (h : fits db.toTables org user x=false) :
    Ends (replaceAccess org user data x) db fun r db' => db'=db ∧ ∃ e,r=.error e := by
  unfold replaceAccess
  refine ends_lookup (Ends.expect (fun k hk => ?_) fun _ => ⟨rfl,_,rfl⟩)
  refine ends_lookup (Ends.ensure (fun hyes => ?_) fun _ => ⟨rfl,_,rfl⟩)
  have hcols := List.find?_some hk
  rw [decide_eq_true_eq] at hcols
  have hfits : fits db.toTables org user x=true :=
    Bool.and_eq_true_iff.mpr ⟨knownCollection_iff.mpr ⟨k,List.mem_of_find?_eq_some hk,hcols⟩,hyes⟩
  rw [h] at hfits
  cases hfits

/-- The grants of one collection are replaced. -/
theorem same_userRows {rows : List CollectionUser} (h : ∀ r∈rows,r.collectionUuid=x) :
    SameRows db.usersCollections (puts CollectionUser.key rows
      (db.usersCollections.filter fun r => r.collectionUuid≠x)) ↔ UsersAre db.toTables x rows := by
  refine same_puts (fun k : Uuid×Uuid => k.2=x) h fun r => ?_
  rw [List.mem_filter,decide_eq_true_eq]
  rfl

theorem same_groupRows {rows : List CollectionGroup} (h : ∀ r∈rows,r.collectionsUuid=x) :
    SameRows db.collectionsGroups (puts CollectionGroup.key rows
      (db.collectionsGroups.filter fun r => r.collectionsUuid≠x)) ↔ GroupsAre db.toTables x rows := by
  refine same_puts (fun k : Uuid×Uuid => k.1=x) h fun r => ?_
  rw [List.mem_filter,decide_eq_true_eq]
  rfl

theorem of_mem_groupRows {groups : List AccessData} {r : CollectionGroup} (h : r∈groupRows x groups) :
    r.collectionsUuid=x := by
  obtain ⟨g,-,rfl⟩ := List.mem_map.mp h
  rfl

theorem of_mem_userRows {t : Tables} {users : List AccessData} {r : CollectionUser}
    (h : r∈userRows t org x users) : r.collectionUuid=x := by
  obtain ⟨u,-,hr⟩ := List.mem_flatMap.mp h
  unfold memberRow at hr
  split at hr
  · split at hr
    · cases hr
    · cases List.mem_singleton.mp hr
      rfl
  · cases hr

/-- What one collection has changed. -/
theorem Replaced.same {db' : Database} {users : Option (List CollectionUser)} {groups : List CollectionGroup}
    (h : Replaced db db' x users groups) (husers : ∀ rows,users=some rows → ∀ r∈rows,r.collectionUuid=x)
    (hgroups : ∀ r∈groups,r.collectionsUuid=x) :
    SameAccess db db' ↔ GroupsAre db.toTables x groups ∧ ∀ rows,users=some rows → UsersAre db.toTables x rows := by
  obtain ⟨collections,-,htables⟩ := h
  rw [← same_groupRows hgroups]
  constructor
  · intro hsame
    have hrows := hsame.grants
    have hgrants := hsame.groupGrants
    rw [htables] at hrows hgrants
    refine ⟨hgrants,fun rows hsome => ?_⟩
    subst hsome
    exact (same_userRows (husers rows rfl)).mp hrows
  · rintro ⟨hgrants,hrows⟩
    refine ⟨?_,?_,?_,?_⟩ <;> rw [htables]
    · cases users with
      | some rows => exact (same_userRows (husers rows rfl)).mpr (hrows rows rfl)
      | none => exact .refl _
    · exact .refl _
    · exact hgrants
    · exact .refl _

end Writes

section Loop

variable {db db₁ db₂ : Database} {org user x : Uuid} {data : FullCollectionData} {done ids : List Uuid}

/-- The access to these collections has been replaced. -/
structure Rewritten (db : Database) (org : Uuid) (data : FullCollectionData) (done : List Uuid) (db' : Database) :
    Prop where
  /-- Memberships. -/
  members : db'.members=db.members
  /-- Groups. -/
  groups : db'.groups=db.groups
  /-- Places in groups. -/
  places : db'.groupsUsers=db.groupsUsers
  /-- Collections. -/
  collections : SameRows db.collections db'.collections
  /-- They are of the organisation. -/
  known : ∀ x∈done,knownCollection db.toTables org x=true
  /-- Grants to members. -/
  users : ∀ r,r∈db'.usersCollections ↔ if r.collectionUuid∈done then
    r∈puts CollectionUser.key (userRows db.toTables org r.collectionUuid data.users) [] else r∈db.usersCollections
  /-- Grants to groups. -/
  groupGrants : ∀ r,r∈db'.collectionsGroups ↔ if r.collectionsUuid∈done then
    r∈puts CollectionGroup.key (groupRows r.collectionsUuid data.groups) [] else r∈db.collectionsGroups

theorem Rewritten.refl : Rewritten db org data [] db :=
  ⟨rfl,rfl,rfl,.refl _,fun x hx => absurd hx List.not_mem_nil,fun r => by simp,fun r => by simp⟩

/-- The rows under one key after they were replaced. -/
theorem mem_replaced {ρ κ : Type} [DecidableEq κ] {key : ρ → κ} {D : κ → Prop} {new rows rest : List ρ} {r : ρ}
    (hnew : ∀ q∈new,D (key q)) (hrest : ∀ r,r∈rest ↔ r∈rows ∧ ¬D (key r)) :
    r∈puts key new rest ↔ (D (key r) ∧ r∈puts key new []) ∨ (¬D (key r) ∧ r∈rows) := by
  rw [mem_puts,hrest]
  constructor
  · rintro (hput|⟨⟨hr,hno⟩,-⟩)
    · exact .inl ⟨hnew r (mem_of_puts hput),hput⟩
    · exact .inr ⟨hno,hr⟩
  · rintro (⟨-,hput⟩|⟨hno,hr⟩)
    · exact .inl hput
    · exact .inr ⟨⟨hr,hno⟩,fun q hq he => hno (he ▸ hnew q hq)⟩

theorem mem_replaced_users {t : Tables} {rows : List CollectionUser} {r : CollectionUser}
    (h : ∀ r∈rows,r.collectionUuid=x) : r∈puts CollectionUser.key rows
      (t.usersCollections.filter fun r => r.collectionUuid≠x) ↔
      (r.collectionUuid=x ∧ r∈puts CollectionUser.key rows []) ∨ (r.collectionUuid≠x ∧ r∈t.usersCollections) := by
  refine mem_replaced (D:=fun k : Uuid×Uuid => k.2=x) h fun r => ?_
  rw [List.mem_filter,decide_eq_true_eq]
  rfl

theorem mem_replaced_groups {t : Tables} {rows : List CollectionGroup} {r : CollectionGroup}
    (h : ∀ r∈rows,r.collectionsUuid=x) : r∈puts CollectionGroup.key rows
      (t.collectionsGroups.filter fun r => r.collectionsUuid≠x) ↔
      (r.collectionsUuid=x ∧ r∈puts CollectionGroup.key rows []) ∨
        (r.collectionsUuid≠x ∧ r∈t.collectionsGroups) := by
  refine mem_replaced (D:=fun k : Uuid×Uuid => k.1=x) h fun r => ?_
  rw [List.mem_filter,decide_eq_true_eq]
  rfl

/-- One more collection. -/
theorem Rewritten.cons (h : Rewritten db org data done db₁) (hknown : knownCollection db.toTables org x=true)
    (hx : Replaced db₁ db₂ x (some (userRows db₁.toTables org x data.users)) (groupRows x data.groups)) :
    Rewritten db org data (x::done) db₂ := by
  obtain ⟨collections,hsame,htables⟩ := hx
  have hrows : userRows db₁.toTables org x data.users=userRows db.toTables org x data.users := by
    unfold userRows memberRow
    rw [h.members]
  rw [hrows] at htables
  refine ⟨?_,?_,?_,?_,List.forall_mem_cons.mpr ⟨hknown,h.known⟩,fun r => ?_,fun r => ?_⟩ <;> rw [htables]
  · exact h.members
  · exact h.groups
  · exact h.places
  · exact fun k => (hsame k).trans (h.collections k)
  · refine (mem_replaced_users fun r hr => of_mem_userRows hr).trans ?_
    rw [h.users r]
    by_cases hr : r.collectionUuid=x
    · simp [hr]
    · simp [hr]
  · refine (mem_replaced_groups fun r hr => of_mem_groupRows hr).trans ?_
    rw [h.groupGrants r]
    by_cases hr : r.collectionsUuid=x
    · simp [hr]
    · simp [hr]

/-- A collection that is passed: as before if it is new, else by its new access. -/
def passes (t : Tables) (org user : Uuid) (data : FullCollectionData) (done : List Uuid) (x : Uuid) : Bool :=
  if x∈done then manageable (withAccess t org data x) user x else fits t org user x

/-- Whether a collection is refused depends on its own access only. -/
theorem Rewritten.fits (h : Rewritten db org data done db₁) :
    BulkAccess.fits db₁.toTables org user x=passes db.toTables org user data done x := by
  have hknown : knownCollection db₁.toTables org x=knownCollection db.toTables org x := by
    rw [Bool.eq_iff_iff,knownCollection_iff,knownCollection_iff]
    constructor
    · rintro ⟨k,hk,hcols⟩
      exact ⟨k,(h.collections k).mp hk,hcols⟩
    · rintro ⟨k,hk,hcols⟩
      exact ⟨k,(h.collections k).mpr hk,hcols⟩
  unfold BulkAccess.fits passes
  by_cases hx : x∈done
  · have halike : Alike (withAccess db.toTables org data x) db₁.toTables x := by
      refine ⟨h.members,h.groups,h.places,h.collections,fun r hr => ?_,fun r hr => ?_⟩
      · rw [h.users r,hr,if_pos hx]
        refine Iff.symm ((mem_replaced_users fun r hr => of_mem_userRows hr).trans ?_)
        simp [hr]
      · rw [h.groupGrants r,hr,if_pos hx]
        refine Iff.symm ((mem_replaced_groups fun r hr => of_mem_groupRows hr).trans ?_)
        simp [hr]
    rw [if_pos hx,hknown,h.known x hx,Bool.true_and,halike.manageable]
  · have halike : Alike db.toTables db₁.toTables x := by
      refine ⟨h.members,h.groups,h.places,h.collections,fun r hr => ?_,fun r hr => ?_⟩
      · rw [h.users r,hr,if_neg hx]
      · rw [h.groupGrants r,hr,if_neg hx]
    rw [if_neg hx,hknown,halike.manageable]
    rfl

end Loop

section Main

variable {db : Database} {org user x : Uuid} {data : FullCollectionData} {done ids : List Uuid}

/-- A collection has the access that is asked for. -/
def Granted (t : Tables) (org : Uuid) (data : FullCollectionData) (x : Uuid) : Prop :=
  GroupsAre t x (groupRows x data.groups) ∧ UsersAre t x (userRows t org x data.users)

/-- Then it makes no difference for managing it. -/
theorem Granted.manageable {t : Tables} (h : Granted t org data x) :
    BulkAccess.manageable (withAccess t org data x) user x=BulkAccess.manageable t user x := by
  have halike : Alike t (withAccess t org data x) x := by
    refine ⟨rfl,rfl,rfl,.refl _,fun r hr => ?_,fun r hr => ?_⟩
    · refine (mem_replaced_users fun r hr => of_mem_userRows hr).trans ?_
      rw [h.2 r hr]
      simp [hr]
    · refine (mem_replaced_groups fun r hr => of_mem_groupRows hr).trans ?_
      rw [h.1 r hr]
      simp [hr]
  exact halike.manageable

/-- What has been rewritten has not changed where the access was there. -/
theorem Rewritten.same {db' : Database} (h : Rewritten db org data done db') :
    SameAccess db db' ↔ ∀ x∈done,Granted db.toTables org data x := by
  constructor
  · intro hsame x hx
    refine ⟨fun r hr => ?_,fun r hr => ?_⟩
    · rw [← hsame.groupGrants r,h.groupGrants r,hr,if_pos hx]
    · rw [← hsame.grants r,h.users r,hr,if_pos hx]
  · intro hgranted
    refine ⟨fun r => ?_,?_,fun r => ?_,?_⟩
    · rw [h.users r]
      by_cases hr : r.collectionUuid∈done
      · rw [if_pos hr,(hgranted _ hr).2 r rfl]
      · rw [if_neg hr]
    · rw [h.places]
      exact .refl _
    · rw [h.groupGrants r]
      by_cases hr : r.collectionsUuid∈done
      · rw [if_pos hr,(hgranted _ hr).1 r rfl]
      · rw [if_neg hr]
    · rw [h.members]
      exact .refl _

/-- The requests. -/
inductive Request where
  /-- `edit_member`. -/
  | edit (caller org id : Uuid) (data : MemberData)
  /-- `post_bulk_access_collections`. -/
  | bulk (caller org : Uuid) (ids : List Uuid) (data : FullCollectionData)

/-- Their handlers. -/
def Request.body (settings : Settings) : Request → Action Unit
  | .edit caller org id data => editMember settings caller org id data
  | .bulk caller org ids data => postBulkAccessCollections caller org ids data

/-- Where the checks let a request through, it does not fail after a write that
makes a difference. -/
def Settled (settings : Settings) (db : Database) : Request → Prop
  | .edit caller org id data => ∀ m,(complete (editChecks settings caller org id data) db).1=.ok m →
    EditSettled db.toTables org data m
  | .bulk caller org ids data => ∀ h,(complete (bulkChecks caller org) db).1=.ok h →
    BulkSettled db.toTables org h.user.uuid ids data

end Main

section Samples

/-- An organisation with an owner, and a member with a grant on its collection. -/
def office : Database := ⟨{Tables.none with
  users := [{User.new 1 0 [] 600000 ['a'] none with passwordHash := [1]},
    {User.new 2 0 [] 600000 ['b'] none with passwordHash := [1]}]
  organizations := [⟨3⟩]
  members := [{ServerTables.Membership.new 4 1 3 none with
    accessAll := true
    status := Confirmed
    atype := .owner},{ServerTables.Membership.new 5 2 3 none with status := Confirmed}]
  collections := [⟨6,3⟩]
  usersCollections := [⟨2,6,⟨true,false,false⟩⟩]
  next := 7},by decide⟩

end Samples

end NadSafe.BulkAccess
