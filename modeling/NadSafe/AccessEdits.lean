import NadSafe.MemberWrites
import NadSafe.RowImages
import NadSafe.TableWrites

/-!
# Access edits

`edit_member` deletes the grants of a member and his places in groups before
it looks at the collections and groups that are to replace them. A request
that names one that does not exist fails with the old ones gone. It changes
nothing only if what it has written by then is what was there.
-/

namespace NadSafe.AccessEdits

open HostText TableRows AsyncScript AsyncScript.Script ServerTables AccessQueries CollectionFlags StoreScript
open ServerModels OrgHandlers PlannedScript TableWrites RowImages RelyScript CoreFrames MemberWrites
open FactorRows (ends_frames)

/-- The tables that decide about access hold the same rows. -/
structure SameAccess (db db' : Database) : Prop where
  /-- `users_collections`. -/
  grants : SameRows db.usersCollections db'.usersCollections
  /-- `groups_users`. -/
  places : SameRows db.groupsUsers db'.groupsUsers
  /-- `collections_groups`. -/
  groupGrants : SameRows db.collectionsGroups db'.collectionsGroups
  /-- `users_organizations`. -/
  members : SameRows db.members db'.members

/-- The checks of `edit_member`, with the member as he will be saved. -/
def editChecks (settings : Settings) (caller org id : Uuid) (data : MemberData) : Action Membership := do
  let h ← adminHeaders caller org
  let newType ← expect "Invalid type" (MembershipType.fromStr data.type)
  let accessAll := accessAllFor data.type newType data.permissions
  let member ← Membership.findByUuidAndOrg id org
  let member ← expect "The specified user isn't member of the organization" member
  ensure "Only Owners can grant and remove Admin or Owner privileges"
    (decide ¬(newType≠member.atype ∧ (MembershipType.admin≤ member.atype ∨ MembershipType.admin≤newType) ∧
      h.membership.atype≠.owner))
  ensure "Only Owners can edit Owner users"
    (decide ¬(member.atype=.owner ∧ h.membership.atype≠.owner))
  ensureOtherOwner "Can't delete the last owner"
    (decide (member.atype=.owner ∧ newType≠.owner ∧ member.status=Confirmed)) org
  let member := {member with accessAll := accessAll, atype := newType}
  OrgPolicy.checkUserAllowed settings member "modify"
  pure member

/-- A collection of the organisation. -/
def knownCollection (t : Tables) (org id : Uuid) : Bool :=
  t.collections.any fun k => decide (k.uuid=id ∧ k.orgUuid=org)

/-- A group. -/
def knownGroup (t : Tables) (id : Uuid) : Bool := t.groups.any fun g => decide (g.uuid=id)

/-- The grants that a request asks for. -/
def asked (data : MemberData) (m : Membership) : List CollectionData :=
  if m.accessAll=true then [] else data.collections

/-- As rows. -/
def askedRows (user : Uuid) (entries : List CollectionData) : List CollectionUser :=
  entries.map fun col => ⟨user,col.id,col.flags⟩

/-- The member's grants in the organisation are those of a list of entries. -/
def GrantsAre (t : Tables) (org : Uuid) (m : Membership) (entries : List CollectionData) : Prop :=
  ∀ r : CollectionUser,r.userUuid=m.userUuid ∧ knownCollection t org r.collectionUuid=true →
    (r∈t.usersCollections ↔ r∈puts CollectionUser.key (askedRows m.userUuid entries) [])

/-- He is in the groups of a list. -/
def PlacesAre (t : Tables) (m : Membership) (groups : List Uuid) : Prop :=
  ∀ g,(⟨g,m.uuid⟩ : GroupUser)∈t.groupsUsers ↔ g∈groups

/-- Where a collection or a group does not exist, the entries before it ask for
what the member has. -/
structure EditSettled (t : Tables) (org : Uuid) (data : MemberData) (m : Membership) : Prop where
  /-- An unknown collection. -/
  collections : (∃ col∈asked data m,knownCollection t org col.id=false) →
    GrantsAre t org m ((asked data m).takeWhile fun col => knownCollection t org col.id)
  /-- Known collections, but an unknown group. -/
  groups : (∀ col∈asked data m,knownCollection t org col.id=true) →
    (∃ g∈data.groups,knownGroup t g=false) →
    GrantsAre t org m (asked data m) ∧ PlacesAre t m (data.groups.takeWhile (knownGroup t))

section Checks

variable {settings : Settings} {db : Database} {caller org id : Uuid} {data : MemberData}

/-- The tables that access depends on. -/
def access (db : Database) : (List User×List Membership×List Organization×List Collection)×
    List CollectionUser×List Group×List GroupUser×List CollectionGroup :=
  ((db.users,db.members,db.organizations,db.collections),
    db.usersCollections,db.groups,db.groupsUsers,db.collectionsGroups)

theorem frames_activateFactor {user : Uuid} : Frames exec access (findAndActivateEmail2fa user) := by
  refine Frames.bind (frames_lookup _) fun found => ?_
  cases found with
  | none => exact Frames.throw _
  | some u =>
    refine Frames.ite (fun _ => ?_) fun _ => Frames.throw _
    refine Frames.bind (frames_getUuid fun _ => rfl) fun _ => Frames.bind frames_utcNow fun _ => ?_
    refine frames_update fun db db' h => ?_
    unfold access
    rw [h]

theorem frames_checkUserAllowed {m : Membership} {action : String} :
    Frames exec access (OrgPolicy.checkUserAllowed settings m action) := by
  refine Frames.ite (fun _ => Frames.bind ?_ fun _ => ?_) fun _ => Frames.pure _
  · refine Frames.bind (frames_lookup _) fun _ => Frames.bind (frames_lookup _) fun _ => ?_
    refine Frames.ite (fun _ => Frames.pure _) fun _ => ?_
    exact Frames.ite (fun _ => frames_activateFactor) fun _ => Frames.throw _
  · exact Frames.bind frames_applicable fun _ => Frames.bind (Frames.ensure _ _) fun _ => frames_checkSingleOrg

end Checks

section Writes

variable {settings : Settings} {db : Database} {org : Uuid} {data : MemberData} {m : Membership}

theorem knownCollection_iff {t : Tables} {x : Uuid} :
    knownCollection t org x=true ↔ ∃ k∈t.collections,k.uuid=x ∧ k.orgUuid=org := by
  simp [knownCollection]

theorem knownGroup_iff {t : Tables} {x : Uuid} : knownGroup t x=true ↔ ∃ g∈t.groups,g.uuid=x := by
  simp [knownGroup]

/-- The grants that an edit deletes. -/
theorem mem_findByOrganizationAndUserUuid {t : Tables} {user : Uuid} {r : CollectionUser} :
    r∈CollectionUser.findByOrganizationAndUserUuid t org user ↔
      r∈t.usersCollections ∧ r.userUuid=user ∧ knownCollection t org r.collectionUuid=true := by
  unfold CollectionUser.findByOrganizationAndUserUuid
  rw [knownCollection_iff]
  simp only [List.mem_map,List.mem_filter,mem_innerJoin,Prod.exists,decide_eq_true_eq]
  constructor
  · rintro ⟨a,k,⟨⟨⟨ha,huser⟩,hk,hkey⟩,horg⟩,rfl⟩
    exact ⟨ha,huser,k,hk,hkey,horg⟩
  · rintro ⟨hr,huser,k,hk,hkey,horg⟩
    exact ⟨r,k,⟨⟨⟨hr,huser⟩,hk,hkey⟩,horg⟩,rfl⟩

/-- The collections of an edit are granted up to the first unknown one. -/
theorem ends_grantMember {accessAll : Bool} {user : Uuid} {collections : List CollectionData}
    (huser : ∃ u∈db.users,u.uuid=user) :
    Ends (grantMember accessAll org user collections) db fun r db' =>
      db'.toTables={db.toTables with
        usersCollections := puts CollectionUser.key (askedRows user ((if accessAll=true then [] else
          collections).takeWhile fun col => knownCollection db.toTables org col.id)) db.usersCollections} ∧
      (r=.ok () ↔ ∀ col∈if accessAll=true then [] else collections,knownCollection db.toTables org col.id=true) := by
  refine (Ends.each_until (fun rows (s : Database) => s.toTables={db.toTables with usersCollections := rows})
    (fun col : CollectionData => knownCollection db.toTables org col.id)
    (fun rows col => put CollectionUser.key ⟨user,col.id,col.flags⟩ rows) (fun col rows s hyes hs => ?_)
    (fun col rows s hno hs => ?_) rfl).mono fun r db' ⟨htables,hr⟩ => ⟨?_,hr⟩
  · refine ends_lookup (Ends.expect (fun k hk => ?_) fun hnone => ?_)
    · have hcols := List.find?_some hk
      rw [decide_eq_true_eq] at hcols
      have huser' : ∃ u∈s.users,u.uuid=user := by
        rw [hs]
        exact huser
      refine ends_update_done (valid_grant s.valid huser' ⟨k,List.mem_of_find?_eq_some hk,rfl⟩) ⟨rfl,?_⟩
      dsimp only
      rw [hs,hcols.1]
    · obtain ⟨k,hk,hcols⟩ := (knownCollection_iff).mp hyes
      rw [hs] at hnone
      exact absurd (decide_eq_true hcols) (List.find?_eq_none.mp hnone k hk)
  · refine ends_lookup (Ends.expect (fun k hk => ?_) fun _ => ⟨hs,_,rfl⟩)
    have hcols := List.find?_some hk
    rw [decide_eq_true_eq] at hcols
    rw [hs] at hk
    have hknown : knownCollection db.toTables org col.id=true :=
      (knownCollection_iff).mpr ⟨k,List.mem_of_find?_eq_some hk,hcols⟩
    rw [hno] at hknown
    cases hknown
  · rw [htables,askedRows,puts,List.foldl_map]

/-- The groups of an edit are joined up to the first unknown one. -/
theorem ends_joinGroups {member : Uuid} {groups : List Uuid} (hmember : ∃ m∈db.members,m.uuid=member) :
    Ends (each groups fun group => GroupUser.save ⟨group,member⟩) db fun r db' =>
      db'.toTables={db.toTables with
        groupsUsers := puts id ((groups.takeWhile (knownGroup db.toTables)).map fun group => ⟨group,member⟩)
          db.groupsUsers} ∧
      (r=.ok () ↔ ∀ g∈groups,knownGroup db.toTables g=true) := by
  refine (Ends.each_until (fun rows (s : Database) => s.toTables={db.toTables with groupsUsers := rows})
    (knownGroup db.toTables) (fun rows group => put id ⟨group,member⟩ rows) (fun group rows s hyes hs => ?_)
    (fun group rows s hno hs => ?_) rfl).mono fun r db' ⟨htables,hr⟩ => ⟨?_,hr⟩
  · have hgroup : ∃ g∈s.groups,g.uuid=group := by
      rw [hs]
      exact (knownGroup_iff).mp hyes
    have hmember' : ∃ m∈s.members,m.uuid=member := by
      rw [hs]
      exact hmember
    refine ends_update_done (valid_groupPlace s.valid hgroup hmember') ⟨rfl,?_⟩
    dsimp only
    rw [hs]
  · refine (ends_update_refused fun hvalid => ?_).mono fun r s' ⟨hs',hr⟩ => ⟨hs' ▸ hs,hr⟩
    obtain ⟨g,hg,hkey⟩ := hvalid.2.1.2.2.2.2.2.2.1 ⟨group,member⟩ (mem_put.mpr (.inl rfl))
    have hfound : knownGroup db.toTables group=true := (knownGroup_iff).mpr ⟨g,by rw [hs] at hg; exact hg,hkey⟩
    rw [hno] at hfound
    cases hfound
  · rw [htables,puts,List.foldl_map]

/-- A member that is edited is saved. -/
theorem ends_saveEdited {db' : Database} {q : Membership} (hq : q∈db.members) (hsame : SameMember q m)
    (hmembers : db'.members=db.members) (husers : db'.users=db.users)
    (horgs : db'.organizations=db.organizations) (hnext : db'.next=db.next) :
    Ends (Membership.save m) db' fun r _ => r=.ok () := by
  refine ends_update_done (valid_member db'.valid ?_ ?_ ?_ fun q' hq' hkey => ?_) rfl
  · rw [hnext,hsame.uuid]
    exact db.valid.2.2.2.2.1 q hq
  · rw [husers,hsame.user]
    exact db.valid.2.1.1 q hq
  · rw [horgs,hsame.org]
    exact db.valid.2.1.2.1 q hq
  · rw [hmembers] at hq'
    rw [hsame.user,hsame.org] at hkey
    rw [eq_of_key db.membership_nodup hq' hq hkey,hsame.uuid]

theorem SameAccess.trans {db₁ db₂ : Database} (h : SameAccess db db₁) (h' : SameAccess db₁ db₂) : SameAccess db db₂ :=
  ⟨fun r => (h'.grants r).trans (h.grants r),fun r => (h'.places r).trans (h.places r),
    fun r => (h'.groupGrants r).trans (h.groupGrants r),fun r => (h'.members r).trans (h.members r)⟩

theorem SameAccess.symm {db₁ : Database} (h : SameAccess db db₁) : SameAccess db₁ db :=
  ⟨fun r => (h.grants r).symm,fun r => (h.places r).symm,fun r => (h.groupGrants r).symm,
    fun r => (h.members r).symm⟩

end Writes

end NadSafe.AccessEdits
