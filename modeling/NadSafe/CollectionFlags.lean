import NadSafe.SyncAgreement

/-!
# Flags of a collection in a sync and in a single read

A sync reports the flags of the grant that it finds in its maps. A single
read asks three queries, one for each flag, which also look at full-access
groups and at every grant through a group. The condition under which both
report the same is in terms of the rows.
-/

namespace NadSafe.CollectionFlags

open HostText TableRows ServerTables AccessQueries SyncAgreement

/-- A collection with everything that may give a user access to it. -/
structure AccessRow where
  /-- The collection. -/
  collection : Collection
  /-- A direct grant. -/
  grant : Option CollectionUser
  /-- The membership in its organisation. -/
  member : Option Membership
  /-- A place in a group. -/
  place : Option GroupUser
  /-- That group, if it is of the organisation. -/
  group : Option Group
  /-- A grant of the group. -/
  groupGrant : Option CollectionGroup

/-- The joins of `find_by_user_uuid`, `hide_passwords_for_user` and
`is_coll_manageable_by_user`. -/
def accessRows (t : Tables) (user : Uuid) : List AccessRow :=
  let grants := leftJoin t.collections t.usersCollections fun c uc =>
    uc.collectionUuid=c.uuid ∧ uc.userUuid=user
  let members := leftJoin grants t.members fun (c,_) m => c.orgUuid=m.orgUuid ∧ m.userUuid=user
  let places := leftJoin members t.groupsUsers fun (_,m) gu =>
    m.any fun m => gu.usersOrganizationsUuid=m.uuid
  let groups := leftJoin places t.groups fun ((_,m),gu) g =>
    gu.any (fun gu => g.uuid=gu.groupsUuid) && m.any fun m => g.organizationsUuid=m.orgUuid
  let rows := leftJoin groups t.collectionsGroups fun ((((c,_),_),gu),_) cg =>
    gu.any (fun gu => cg.groupsUuid=gu.groupsUuid) && decide (cg.collectionsUuid=c.uuid)
  rows.map fun (((((c,uc),m),gu),g),cg) => ⟨c,uc,m,gu,g,cg⟩

/-- The membership is of an owner or an administrator. -/
def AccessRow.isAdmin (r : AccessRow) : Bool := r.member.any fun m => m.atype.code≤MembershipType.admin.code

/-- `Collection::find_by_user_uuid`. -/
def Collection.findByUserUuid (config : Config) (t : Tables) (user : Uuid) : List Collection :=
  if config.orgGroupsEnabled=true then
    (((accessRows t user).filter fun r => r.member.any (fun m => m.status=Confirmed) &&
      (r.grant.any (fun uc => uc.userUuid=user) || r.member.any (fun m => m.accessAll) ||
        r.group.any (fun g => g.accessAll) ||
        (r.place.any (fun gu => r.member.any fun m => gu.usersOrganizationsUuid=m.uuid) &&
          r.groupGrant.isSome))).map AccessRow.collection).dedup
  else
    let grants := leftJoin t.collections t.usersCollections fun c uc =>
      uc.collectionUuid=c.uuid ∧ uc.userUuid=user
    let rows := leftJoin grants t.members fun (c,_) m => c.orgUuid=m.orgUuid ∧ m.userUuid=user
    ((rows.filter fun ((_,uc),m) => m.any (fun m => m.status=Confirmed) &&
      (uc.any (fun uc => uc.userUuid=user) || m.any fun m => m.accessAll)).map
      fun ((c,_),_) => c).dedup

/-- `Collection::is_writable_by_user`. -/
def Collection.isWritableByUser (config : Config) (t : Tables) (c : Collection) (user : Uuid) : Bool :=
  let members := innerJoin (t.collections.filter fun r => r.uuid=c.uuid) t.members fun r m =>
    r.orgUuid=m.orgUuid ∧ m.userUuid=user
  let grants := leftJoin members t.usersCollections fun (r,_) uc =>
    uc.collectionUuid=r.uuid ∧ uc.userUuid=user
  if config.orgGroupsEnabled=true then
    let places := leftJoin grants t.groupsUsers fun ((_,m),_) gu => gu.usersOrganizationsUuid=m.uuid
    let groups := leftJoin places t.groups fun (((_,m),_),gu) g =>
      gu.any (fun gu => g.uuid=gu.groupsUuid) && decide (g.organizationsUuid=m.orgUuid)
    let rows := leftJoin groups t.collectionsGroups fun ((((r,_),_),gu),_) cg =>
      gu.any (fun gu => cg.groupsUuid=gu.groupsUuid) && decide (cg.collectionsUuid=r.uuid)
    rows.any fun (((((_,m),uc),_),g),cg) =>
      decide (m.atype.code≤MembershipType.admin.code) || m.accessAll ||
      uc.any (fun uc => uc.collectionUuid=c.uuid ∧ uc.flags.readOnly=false) ||
      g.any (fun g => g.accessAll) || cg.any fun cg => cg.flags.readOnly=false
  else
    grants.any fun ((_,m),uc) =>
      decide (m.atype.code≤MembershipType.admin.code) || m.accessAll ||
      uc.any fun uc => uc.collectionUuid=c.uuid ∧ uc.flags.readOnly=false

/-- The query of `hide_passwords_for_user` and `is_coll_manageable_by_user`,
which differ in the flag that they ask for. -/
def Collection.anyRow (t : Tables) (c : Collection) (user : Uuid) (flag : Flags → Bool) : Bool :=
  (accessRows t user).any fun r => decide (r.collection.uuid=c.uuid) &&
    (r.grant.any (fun uc => decide (uc.collectionUuid=c.uuid) && flag uc.flags) ||
      (r.member.any (fun m => m.accessAll) || r.isAdmin) || r.group.any (fun g => g.accessAll) ||
      (r.place.any (fun gu => r.member.any fun m => gu.usersOrganizationsUuid=m.uuid) &&
        r.groupGrant.any fun cg => flag cg.flags))

/-- `Collection::hide_passwords_for_user`. -/
def Collection.hidePasswordsForUser (t : Tables) (c : Collection) (user : Uuid) : Bool :=
  Collection.anyRow t c user Flags.hidePasswords

/-- `Collection::is_coll_manageable_by_user`. -/
def Collection.isManageableByUser (t : Tables) (c : Collection) (user : Uuid) : Bool :=
  Collection.anyRow t c user Flags.manage

/-- The flags of a grant as a collection reports them. A manager may manage
where he has full read and write access. -/
def reported (isManager : Bool) (f : Flags) : Flags :=
  ⟨f.readOnly,f.hidePasswords,isManager && (f.manage || (!f.readOnly && !f.hidePasswords))⟩

/-- The flags in `Collection::to_json_details`. -/
def Collection.toJsonDetails (config : Config) (t : Tables) (c : Collection) (user : Uuid)
    (sync : Option CipherSyncData) : Flags :=
  match sync with
  | some data =>
    match data.members c.orgUuid with
    | none => ⟨true,true,false⟩
    | some m =>
      if m.hasFullAccess=true then ⟨false,false,decide (MembershipType.manager≤ m.atype)⟩
      else
        match data.userCollections c.uuid with
        | some cu => reported (m.atype=MembershipType.manager) cu.flags
        | none =>
          match data.userCollectionsGroups c.uuid with
          | some cg => reported (m.atype=MembershipType.manager) cg.flags
          | none => ⟨false,false,false⟩
  | none =>
    match Membership.findConfirmedByUserAndOrg t user c.orgUuid with
    | none => ⟨true,true,false⟩
    | some m =>
      if m.hasFullAccess=true then ⟨false,false,decide (MembershipType.manager≤ m.atype)⟩
      else if m.atype=MembershipType.manager ∧ Collection.isManageableByUser t c user=true then
        ⟨false,false,true⟩
      else
        let readOnly := !Collection.isWritableByUser config t c user
        let hidePasswords := Collection.hidePasswordsForUser t c user
        ⟨readOnly,hidePasswords,decide (m.atype=MembershipType.manager) && !readOnly && !hidePasswords⟩

/-- The member is in a group of the organisation with access to everything. -/
def FullGroup (t : Tables) (m : Membership) : Prop :=
  ∃ gu∈t.groupsUsers,gu.usersOrganizationsUuid=m.uuid ∧
    ∃ g∈t.groups,g.uuid=gu.groupsUuid ∧ g.organizationsUuid=m.orgUuid ∧ g.accessAll=true

section Rows

variable {config : Config} {db : Database} {c : Collection} {user : Uuid} {m : Membership}

/-- The rows of one collection, for a member of its organisation. -/
theorem exists_accessRows (hc : c∈db.collections) (hm : m∈db.members) (horg : m.orgUuid=c.orgUuid)
    (huser : m.userUuid=user) {P : AccessRow → Prop} :
    (∃ r∈accessRows db.toTables user,r.collection.uuid=c.uuid ∧ P r) ↔
      ∃ uc∈partners db.usersCollections fun uc => uc.collectionUuid=c.uuid ∧ uc.userUuid=user,
      ∃ gu∈partners db.groupsUsers fun gu => gu.usersOrganizationsUuid=m.uuid,
      ∃ g∈partners db.groups fun g =>
        gu.any (fun gu => g.uuid=gu.groupsUuid) && decide (g.organizationsUuid=m.orgUuid),
      ∃ cg∈partners db.collectionsGroups fun cg =>
        gu.any (fun gu => cg.groupsUuid=gu.groupsUuid) && decide (cg.collectionsUuid=c.uuid),
        P ⟨c,uc,some m,gu,g,cg⟩ := by
  have hjoined : some m∈partners db.members fun m => c.orgUuid=m.orgUuid ∧ m.userUuid=user :=
    some_mem_partners.mpr ⟨hm,decide_eq_true ⟨horg.symm,huser⟩⟩
  simp only [accessRows,List.mem_map]
  constructor
  · rintro ⟨r,⟨row,hrow,rfl⟩,hkey,hP⟩
    simp only [mem_leftJoin] at hrow
    obtain ⟨⟨⟨⟨⟨c',uc⟩,m'⟩,gu⟩,g⟩,cg⟩ := row
    obtain ⟨⟨⟨⟨⟨hc',huc⟩,hm'⟩,hgu⟩,hg⟩,hcg⟩ := hrow
    cases eq_of_key db.collection_nodup hc' hc hkey
    have hsame : m'=some m := by
      rcases mem_partners.mp hm' with ⟨x,hx,hon,rfl⟩|⟨hnone,-⟩
      · have hrow := of_decide_eq_true hon
        have hkey : (x.userUuid,x.orgUuid)=(m.userUuid,m.orgUuid) := by
          rw [hrow.2,← hrow.1,huser,horg]
        rw [eq_of_key db.membership_nodup hx hm hkey]
      · have hnot := hnone m hm
        simp [horg,huser] at hnot
    subst hsame
    exact ⟨uc,huc,gu,hgu,g,hg,cg,hcg,hP⟩
  · rintro ⟨uc,huc,gu,hgu,g,hg,cg,hcg,hP⟩
    refine ⟨_,⟨(((((c,uc),some m),gu),g),cg),?_,rfl⟩,rfl,hP⟩
    simp only [mem_leftJoin]
    exact ⟨⟨⟨⟨⟨hc,huc⟩,hjoined⟩,hgu⟩,hg⟩,hcg⟩

/-- A joined grant of a group. -/
theorem groupGrant_of_place {gu : Option GroupUser} {cg : CollectionGroup} (hm : m∈db.members)
    (huser : m.userUuid=user)
    (hgu : gu∈partners db.groupsUsers fun gu => gu.usersOrganizationsUuid=m.uuid)
    (hcg : some cg∈partners db.collectionsGroups fun cg =>
      gu.any (fun gu => cg.groupsUuid=gu.groupsUuid) && decide (cg.collectionsUuid=c.uuid)) :
    GroupGrant db.toTables user c.uuid cg.flags := by
  obtain ⟨hrow,hon⟩ := some_mem_partners.mp hcg
  rw [Bool.and_eq_true,any_eq_true_iff,decide_eq_true_eq] at hon
  obtain ⟨⟨gu,rfl,hgroup⟩,hcoll⟩ := hon
  obtain ⟨hplace,hmember⟩ := some_mem_partners.mp hgu
  refine ⟨gu,hplace,?_,m,hm,(of_decide_eq_true hmember).symm,huser⟩
  rw [← of_decide_eq_true hgroup,← hcoll]
  exact hrow

/-- A grant through a group comes from a place of the member. -/
theorem place_of_groupGrant (hdb : OrgConsistent db.toTables) (hc : c∈db.collections)
    (hm : m∈db.members) (horg : m.orgUuid=c.orgUuid) (huser : m.userUuid=user) {f : Flags}
    (h : GroupGrant db.toTables user c.uuid f) :
    ∃ gu∈db.groupsUsers,gu.usersOrganizationsUuid=m.uuid ∧
      (⟨c.uuid,gu.groupsUuid,f⟩ : CollectionGroup)∈db.collectionsGroups := by
  obtain ⟨gu,hgu,hcg,m',hm',hmember,huser'⟩ := h
  obtain ⟨g,hg,hgroup⟩ := db.group_of_user hgu
  have hgroupOrg := hdb.groupsUsers gu hgu g hg hgroup m' hm' hmember
  have hcollOrg := hdb.collectionsGroups _ hcg c hc rfl g hg hgroup
  have hkey : (m'.userUuid,m'.orgUuid)=(m.userUuid,m.orgUuid) := by
    rw [huser,huser',horg,hcollOrg,hgroupOrg]
  cases eq_of_key db.membership_nodup hm' hm hkey
  exact ⟨gu,hgu,hmember.symm,hcg⟩

/-- Some joined row has a direct grant or a grant of a group with the property,
or a full-access group. -/
theorem exists_ways (hdb : OrgConsistent db.toTables) (hc : c∈db.collections) (hm : m∈db.members)
    (horg : m.orgUuid=c.orgUuid) (huser : m.userUuid=user) {p : Flags → Prop} {q : Prop} :
    (∃ uc∈partners db.usersCollections fun uc => uc.collectionUuid=c.uuid ∧ uc.userUuid=user,
      ∃ gu∈partners db.groupsUsers fun gu => gu.usersOrganizationsUuid=m.uuid,
      ∃ g∈partners db.groups fun g =>
        gu.any (fun gu => g.uuid=gu.groupsUuid) && decide (g.organizationsUuid=m.orgUuid),
      ∃ cg∈partners db.collectionsGroups fun cg =>
        gu.any (fun gu => cg.groupsUuid=gu.groupsUuid) && decide (cg.collectionsUuid=c.uuid),
        (∃ uc',uc=some uc' ∧ p uc'.flags) ∨ q ∨ (∃ g',g=some g' ∧ g'.accessAll=true) ∨
          ∃ cg',cg=some cg' ∧ p cg'.flags) ↔
    (∃ f,DirectGrant db.toTables user c.uuid f ∧ p f) ∨ q ∨ FullGroup db.toTables m ∨
      ∃ f,GroupGrant db.toTables user c.uuid f ∧ p f := by
  constructor
  · rintro ⟨uc,huc,gu,hgu,g,hg,cg,hcg,⟨uc',rfl,hp⟩|hq|⟨g',rfl,hall⟩|⟨cg',rfl,hp⟩⟩
    · obtain ⟨hrow,hon⟩ := some_mem_partners.mp huc
      obtain ⟨userUuid,collectionUuid,flags⟩ := uc'
      obtain ⟨rfl,rfl⟩ := of_decide_eq_true hon
      exact .inl ⟨flags,hrow,hp⟩
    · exact .inr (.inl hq)
    · obtain ⟨gu,hplace,hmember,hrow,hgroup,hgroupOrg⟩ := group_of_partner hgu hg
      exact .inr (.inr (.inl ⟨gu,hplace,hmember,g',hrow,hgroup,hgroupOrg,hall⟩))
    · exact .inr (.inr (.inr ⟨_,groupGrant_of_place hm huser hgu hcg,hp⟩))
  · obtain ⟨uc,huc⟩ := exists_partner db.usersCollections fun uc =>
      uc.collectionUuid=c.uuid ∧ uc.userUuid=user
    obtain ⟨gu,hgu⟩ := exists_partner db.groupsUsers fun gu => gu.usersOrganizationsUuid=m.uuid
    obtain ⟨g,hg⟩ := exists_partner db.groups fun g =>
      gu.any (fun gu => g.uuid=gu.groupsUuid) && decide (g.organizationsUuid=m.orgUuid)
    obtain ⟨cg,hcg⟩ := exists_partner db.collectionsGroups fun cg =>
      gu.any (fun gu => cg.groupsUuid=gu.groupsUuid) && decide (cg.collectionsUuid=c.uuid)
    rintro (⟨f,hgrant,hp⟩|hq|⟨gu,hplace,hmember,g,hrow,hgroup,hgroupOrg,hall⟩|⟨f,hgrant,hp⟩)
    · exact ⟨some _,some_mem_partners.mpr ⟨hgrant,by simp⟩,gu,hgu,g,hg,cg,hcg,.inl ⟨_,rfl,hp⟩⟩
    · exact ⟨uc,huc,gu,hgu,g,hg,cg,hcg,.inr (.inl hq)⟩
    · obtain ⟨cg,hcg⟩ := exists_partner db.collectionsGroups fun cg =>
        (some gu).any (fun gu => cg.groupsUuid=gu.groupsUuid) && decide (cg.collectionsUuid=c.uuid)
      exact ⟨uc,huc,some gu,some_mem_partners.mpr ⟨hplace,decide_eq_true hmember⟩,some g,
        some_mem_partners.mpr ⟨hrow,by simp [hgroup,hgroupOrg]⟩,cg,hcg,.inr (.inr (.inl ⟨g,rfl,hall⟩))⟩
    · obtain ⟨gu,hplace,hmember,hcg⟩ := place_of_groupGrant hdb hc hm horg huser hgrant
      obtain ⟨g,hg⟩ := exists_partner db.groups fun g =>
        (some gu).any (fun gu => g.uuid=gu.groupsUuid) && decide (g.organizationsUuid=m.orgUuid)
      exact ⟨uc,huc,some gu,some_mem_partners.mpr ⟨hplace,decide_eq_true hmember⟩,g,hg,some _,
        some_mem_partners.mpr ⟨hcg,by simp⟩,.inr (.inr (.inr ⟨_,rfl,hp⟩))⟩

/-- The query for one flag. -/
theorem anyRow_iff (hdb : OrgConsistent db.toTables) (hc : c∈db.collections) (hm : m∈db.members)
    (horg : m.orgUuid=c.orgUuid) (huser : m.userUuid=user) {flag : Flags → Bool} :
    Collection.anyRow db.toTables c user flag=true ↔
      (∃ f,DirectGrant db.toTables user c.uuid f ∧ flag f=true) ∨
      (m.accessAll=true ∨ m.atype.code≤MembershipType.admin.code) ∨ FullGroup db.toTables m ∨
        ∃ f,GroupGrant db.toTables user c.uuid f ∧ flag f=true := by
  rw [← exists_ways hdb hc hm horg huser,Collection.anyRow,List.any_eq_true]
  simp only [Bool.and_eq_true,decide_eq_true_eq]
  rw [exists_accessRows hc hm horg huser]
  refine exists_congr fun uc => and_congr_right fun huc => exists_congr fun gu =>
    and_congr_right fun hgu => exists_congr fun g => and_congr_right fun hg => exists_congr fun cg =>
    and_congr_right fun hcg => ?_
  have hdirect : uc.any (fun uc => decide (uc.collectionUuid=c.uuid) && flag uc.flags)=true ↔
      ∃ uc',uc=some uc' ∧ flag uc'.flags=true := by
    rw [any_eq_true_iff]
    refine exists_congr fun uc' => and_congr_right fun hsome => ?_
    subst hsome
    have hcoll := (of_decide_eq_true (some_mem_partners.mp huc).2).1
    simp [hcoll]
  have hgroup : (gu.any (fun gu => (some m).any fun m => gu.usersOrganizationsUuid=m.uuid)=true ∧
      cg.any (fun cg => flag cg.flags)=true) ↔ ∃ cg',cg=some cg' ∧ flag cg'.flags=true := by
    rw [any_eq_true_iff,any_eq_true_iff]
    refine ⟨And.right,fun h => ⟨?_,h⟩⟩
    obtain ⟨cg',rfl,-⟩ := h
    have hon := (some_mem_partners.mp hcg).2
    rw [Bool.and_eq_true,any_eq_true_iff] at hon
    obtain ⟨⟨gu',rfl,-⟩,-⟩ := hon
    exact ⟨gu',rfl,(some_mem_partners.mp hgu).2⟩
  simp only [Bool.or_eq_true,Bool.and_eq_true,hdirect,hgroup,AccessRow.isAdmin]
  simp only [Option.any_some,decide_eq_true_eq,any_eq_true_iff,or_assoc]

/-- The membership that is joined to a collection. -/
theorem exists_member (hc : c∈db.collections) (hm : m∈db.members) (horg : m.orgUuid=c.orgUuid)
    (huser : m.userUuid=user) {P : Collection×Membership → Prop} :
    (∃ r∈innerJoin (db.collections.filter fun r => r.uuid=c.uuid) db.members fun r m =>
      r.orgUuid=m.orgUuid ∧ m.userUuid=user,P r) ↔ P (c,m) := by
  rw [exists_innerJoin]
  constructor
  · rintro ⟨c',hc',m',hm',hon,hP⟩
    obtain ⟨hrow,hkey⟩ := List.mem_filter.mp hc'
    cases eq_of_key db.collection_nodup hrow hc (of_decide_eq_true hkey)
    obtain ⟨hsameOrg,hsameUser⟩ := of_decide_eq_true hon
    have hpair : (m'.userUuid,m'.orgUuid)=(m.userUuid,m.orgUuid) := by
      rw [hsameUser,← hsameOrg,huser,horg]
    cases eq_of_key db.membership_nodup hm' hm hpair
    exact hP
  · intro hP
    exact ⟨c,List.mem_filter.mpr ⟨hc,by simp⟩,m,hm,decide_eq_true ⟨horg.symm,huser⟩,hP⟩

/-- A joined direct grant with a property. -/
theorem exists_grant {p : Flags → Prop} {uc : Option CollectionUser}
    (huc : uc∈partners db.usersCollections fun uc => uc.collectionUuid=c.uuid ∧ uc.userUuid=user)
    [DecidablePred p] : uc.any (fun uc => uc.collectionUuid=c.uuid ∧ p uc.flags)=true ↔
      ∃ uc',uc=some uc' ∧ p uc'.flags := by
  rw [any_eq_true_iff]
  refine exists_congr fun uc' => and_congr_right fun hsome => ?_
  subst hsome
  have hcoll := (of_decide_eq_true (some_mem_partners.mp huc).2).1
  simp [hcoll]

/-- Who may write to a collection. -/
theorem writable_iff (hdb : OrgConsistent db.toTables) (hc : c∈db.collections) (hm : m∈db.members)
    (horg : m.orgUuid=c.orgUuid) (huser : m.userUuid=user) :
    Collection.isWritableByUser config db.toTables c user=true ↔
      (∃ f,DirectGrant db.toTables user c.uuid f ∧ f.readOnly=false) ∨
      (m.atype.code≤MembershipType.admin.code ∨ m.accessAll=true) ∨
      config.orgGroupsEnabled=true ∧ (FullGroup db.toTables m ∨
        ∃ f,GroupGrant db.toTables user c.uuid f ∧ f.readOnly=false) := by
  have hdirect {uc : Option CollectionUser}
      (huc : uc∈partners db.usersCollections fun uc => uc.collectionUuid=c.uuid ∧ uc.userUuid=user) :=
    @exists_grant db c user (fun f => f.readOnly=false) uc huc inferInstance
  have hrotate {A B D E F : Prop} : (((A ∨ B) ∨ D) ∨ E) ∨ F ↔ D ∨ (A ∨ B) ∨ E ∨ F := by
    grind
  unfold Collection.isWritableByUser
  by_cases hgroups : config.orgGroupsEnabled=true
  · simp only [hgroups,if_true,true_and]
    rw [← exists_ways hdb hc hm horg huser,List.any_eq_true]
    rw [exists_leftJoin,exists_leftJoin,exists_leftJoin,exists_leftJoin,exists_member hc hm horg huser]
    refine exists_congr fun uc => and_congr_right fun huc => exists_congr fun gu =>
      and_congr_right fun hgu => exists_congr fun g => and_congr_right fun hg => exists_congr fun cg =>
      and_congr_right fun hcg => ?_
    simp only [Bool.or_eq_true,hdirect huc,hrotate]
    simp only [decide_eq_true_eq,any_eq_true_iff]
  · have hoff : config.orgGroupsEnabled=false := Bool.eq_false_iff.mpr hgroups
    simp only [hoff,Bool.false_eq_true,if_false,false_and,or_false]
    rw [List.any_eq_true,exists_leftJoin,exists_member hc hm horg huser]
    simp only [Bool.or_eq_true,decide_eq_true_eq]
    constructor
    · rintro ⟨uc,huc,hrole|hgrant⟩
      · exact .inr hrole
      · obtain ⟨uc',rfl,hwrite⟩ := (hdirect huc).mp hgrant
        obtain ⟨hrow,hon⟩ := some_mem_partners.mp huc
        obtain ⟨userUuid,collectionUuid,flags⟩ := uc'
        obtain ⟨rfl,rfl⟩ := of_decide_eq_true hon
        exact .inl ⟨flags,hrow,hwrite⟩
    · rintro (⟨f,hgrant,hwrite⟩|hrole)
      · have huc : some (⟨user,c.uuid,f⟩ : CollectionUser)∈partners db.usersCollections fun uc =>
            uc.collectionUuid=c.uuid ∧ uc.userUuid=user := some_mem_partners.mpr ⟨hgrant,by simp⟩
        exact ⟨_,huc,.inr ((hdirect huc).mpr ⟨_,rfl,hwrite⟩)⟩
      · obtain ⟨uc,huc⟩ := exists_partner db.usersCollections fun uc =>
          uc.collectionUuid=c.uuid ∧ uc.userUuid=user
        exact ⟨uc,huc,.inl hrole⟩

/-- The membership of a row. -/
theorem member_of_row {r : AccessRow} (h : r∈accessRows db.toTables user)
    (hr : r.member=some m) : r.collection∈db.collections ∧ m∈db.members ∧
      m.orgUuid=r.collection.orgUuid ∧ m.userUuid=user := by
  simp only [accessRows,List.mem_map] at h
  obtain ⟨row,hrow,rfl⟩ := h
  simp only [mem_leftJoin] at hrow
  obtain ⟨⟨⟨⟨⟨hc,-⟩,hm⟩,-⟩,-⟩,-⟩ := hrow
  dsimp only at hr
  rw [hr] at hm
  obtain ⟨hmem,hon⟩ := some_mem_partners.mp hm
  obtain ⟨horg,huser⟩ := of_decide_eq_true hon
  exact ⟨hc,hmem,horg.symm,huser⟩

/-- A visible collection belongs to an organisation of the user, who has
access to it as a confirmed member. -/
theorem member_of_visible_collection (hdb : OrgConsistent db.toTables)
    (h : c∈Collection.findByUserUuid config db.toTables user) :
    c∈db.collections ∧ ∃ m∈db.members,m.orgUuid=c.orgUuid ∧ m.userUuid=user ∧ m.status=Confirmed ∧
      ((∃ f,DirectGrant db.toTables user c.uuid f) ∨ m.accessAll=true ∨
        config.orgGroupsEnabled=true ∧
          (FullGroup db.toTables m ∨ ∃ f,GroupGrant db.toTables user c.uuid f)) := by
  unfold Collection.findByUserUuid at h
  by_cases hgroups : config.orgGroupsEnabled=true
  · simp only [hgroups,if_true,List.mem_dedup,List.mem_map,List.mem_filter,Bool.and_eq_true] at h
    obtain ⟨r,⟨hr,hconfirmed,hsees⟩,rfl⟩ := h
    obtain ⟨m,hmember,hstatus⟩ := any_eq_true_iff.mp hconfirmed
    obtain ⟨hc,hm,horg,huser⟩ := member_of_row hr hmember
    refine ⟨hc,m,hm,horg,huser,of_decide_eq_true hstatus,?_⟩
    have hway : ∃ r'∈accessRows db.toTables user,r'.collection.uuid=r.collection.uuid ∧
        ((∃ uc,r'.grant=some uc ∧ True) ∨ m.accessAll=true ∨ (∃ g,r'.group=some g ∧ g.accessAll=true) ∨
          ∃ cg,r'.groupGrant=some cg ∧ True) := by
      refine ⟨r,hr,rfl,?_⟩
      simp only [Bool.or_eq_true,Bool.and_eq_true,hmember,Option.any_some] at hsees
      rcases hsees with ((hgrant|hall)|hgroup)|⟨-,hcg⟩
      · obtain ⟨uc,huc,-⟩ := any_eq_true_iff.mp hgrant
        exact .inl ⟨uc,huc,trivial⟩
      · exact .inr (.inl hall)
      · exact .inr (.inr (.inl (any_eq_true_iff.mp hgroup)))
      · obtain ⟨cg,hcg⟩ := Option.isSome_iff_exists.mp hcg
        exact .inr (.inr (.inr ⟨cg,hcg,trivial⟩))
    have hrows := (exists_accessRows hc hm horg huser).mp hway
    have hways := (@exists_ways db r.collection user m hdb hc hm horg huser (fun _ => True)
      (m.accessAll=true)).mp hrows
    simpa [hgroups] using hways
  · have hoff : config.orgGroupsEnabled=false := Bool.eq_false_iff.mpr hgroups
    simp only [hoff,Bool.false_eq_true,if_false,List.mem_dedup,List.mem_map,List.mem_filter,and_assoc,
      exists_leftJoin,Bool.and_eq_true,Bool.or_eq_true] at h
    obtain ⟨c',hc,uc,huc,m,hm,hconfirmed,hsees,rfl⟩ := h
    obtain ⟨m,rfl,hstatus⟩ := any_eq_true_iff.mp hconfirmed
    obtain ⟨hmem,hon⟩ := some_mem_partners.mp hm
    obtain ⟨horg,huser⟩ := of_decide_eq_true hon
    refine ⟨hc,m,hmem,horg.symm,huser,of_decide_eq_true hstatus,?_⟩
    rcases hsees with hgrant|hall
    · obtain ⟨⟨userUuid,collectionUuid,flags⟩,rfl,-⟩ := any_eq_true_iff.mp hgrant
      obtain ⟨hrow,hon⟩ := some_mem_partners.mp huc
      obtain ⟨hcoll,hgrantUser⟩ := of_decide_eq_true hon
      dsimp only at hcoll hgrantUser
      subst hcoll hgrantUser
      exact .inl ⟨flags,hrow⟩
    · exact .inr (.inl hall)

end Rows

section Agreement

/-- A grant that a sync reads: the direct one, or else one through a group. -/
def ReadBySync (config : Config) (t : Tables) (user collection : Uuid) (f : Flags) : Prop :=
  DirectGrant t user collection f ∨
  (∀ g,¬DirectGrant t user collection g) ∧ config.orgGroupsEnabled=true ∧ GroupGrant t user collection f

/-- A manager with a managing grant or a full-access group. -/
def Manages (t : Tables) (collection : Uuid) (m : Membership) : Prop :=
  m.atype=MembershipType.manager ∧ (FullGroup t m ∨
    (∃ f,DirectGrant t m.userUuid collection f ∧ f.manage=true) ∨
    ∃ f,GroupGrant t m.userUuid collection f ∧ f.manage=true)

/-- The grants that a sync reads say all that the queries of a single read
find. -/
structure SyncSaysAll (config : Config) (t : Tables) (collection : Uuid) (m : Membership) : Prop where
  /-- There is a grant. -/
  granted : ∃ f,ReadBySync config t m.userUuid collection f
  /-- Who manages, may write and sees passwords by these grants. -/
  manages : Manages t collection m →
    (∃ f,ReadBySync config t m.userUuid collection f ∧ f.readOnly=false) ∧
    ∃ f,ReadBySync config t m.userUuid collection f ∧ f.hidePasswords=false
  /-- Groups give no right to write that these grants lack. -/
  writes : ¬Manages t collection m → config.orgGroupsEnabled=true →
    (∀ f,ReadBySync config t m.userUuid collection f → f.readOnly=true) →
    ¬FullGroup t m ∧ ∀ f,GroupGrant t m.userUuid collection f → f.readOnly=true
  /-- Where these grants show passwords, no group hides them, and no group has
  full access. -/
  reveals : ¬Manages t collection m →
    (∃ f,ReadBySync config t m.userUuid collection f ∧ f.hidePasswords=false) →
    ¬FullGroup t m ∧ ∀ f,GroupGrant t m.userUuid collection f → f.hidePasswords=false

/-- The condition for one user: full access as a member, or a sync that says
all. -/
def AgreesFor (config : Config) (t : Tables) (c : Collection) (user : Uuid) : Prop :=
  ∃ m∈t.members,m.userUuid=user ∧ m.orgUuid=c.orgUuid ∧
    (m.hasFullAccess=true ∨ SyncSaysAll config t c.uuid m)

variable {config : Config} {db : Database} {c : Collection} {user : Uuid} {m : Membership}

/-- The grant in a sync allows what the grants that it reads allow. -/
theorem sync_grant (hdb : OrgConsistent db.toTables) (k : Uuid) :
    ((∀ f,¬ReadBySync config db.toTables user k f) ∧
      (CipherSyncData.new config db.toTables user).userCollections k=none ∧
      (CipherSyncData.new config db.toTables user).userCollectionsGroups k=none) ∨
    ∃ f,(∀ r,Allows r f ↔ ∃ g,ReadBySync config db.toTables user k g ∧ Allows r g) ∧
      ((∃ cu,(CipherSyncData.new config db.toTables user).userCollections k=some cu ∧ cu.flags=f) ∨
        (CipherSyncData.new config db.toTables user).userCollections k=none ∧
        ∃ cg,(CipherSyncData.new config db.toTables user).userCollectionsGroups k=some cg ∧ cg.flags=f) := by
  obtain ⟨hnone,hsome⟩ := @sync_groups config db user hdb k
  cases hcu : (CipherSyncData.new config db.toTables user).userCollections k with
  | some cu =>
    right
    obtain ⟨hrow,huser,hcoll⟩ := sync_userCollections.mp hcu
    have hgrant : DirectGrant db.toTables user k cu.flags := by
      rw [DirectGrant,← huser,← hcoll]
      exact hrow
    refine ⟨cu.flags,fun r => ⟨fun h => ⟨_,.inl hgrant,h⟩,?_⟩,.inl ⟨cu,rfl,rfl⟩⟩
    rintro ⟨g,hg|⟨hno,-⟩,hallows⟩
    · have hkey : CollectionUser.key ⟨user,k,g⟩=CollectionUser.key cu := by
        rw [CollectionUser.key,CollectionUser.key,huser,hcoll]
      rw [← eq_of_key db.grant_nodup hg hrow hkey]
      exact hallows
    · exact absurd hgrant (hno _)
  | none =>
    have hno : ∀ f,¬DirectGrant db.toTables user k f := by
      intro f hf
      have hfound : (CipherSyncData.new config db.toTables user).userCollections k=some ⟨user,k,f⟩ :=
        sync_userCollections.mpr ⟨hf,rfl,rfl⟩
      rw [hcu] at hfound
      cases hfound
    cases hcg : (CipherSyncData.new config db.toTables user).userCollectionsGroups k with
    | none =>
      left
      refine ⟨fun f hf => ?_,rfl,rfl⟩
      rcases hf with hf|⟨-,hgroups,hf⟩
      · exact hno f hf
      · exact hnone.mp hcg ⟨hgroups,f,hf⟩
    | some cg =>
      right
      refine ⟨cg.flags,fun r => (hsome cg hcg r).trans ?_,.inr ⟨rfl,cg,rfl,rfl⟩⟩
      constructor
      · rintro ⟨hgroups,f,hf,hallows⟩
        exact ⟨f,.inr ⟨hno,hgroups,hf⟩,hallows⟩
      · rintro ⟨f,hf|⟨-,hgroups,hf⟩,hallows⟩
        · exact absurd hf (hno f)
        · exact ⟨hgroups,f,hf,hallows⟩

/-- Reported flags of a grant that does not give management. -/
theorem reported_eq_iff {isManager w h : Bool} {f : Flags} (hmanage : isManager=true → f.manage=false) :
    reported isManager f=⟨!w,h,isManager && !(!w) && !h⟩ ↔
      (f.readOnly=false ↔ w=true) ∧ (f.hidePasswords=false ↔ h=false) := by
  obtain ⟨ro,hp,mn⟩ := f
  simp only [reported,Flags.mk.injEq] at hmanage ⊢
  revert isManager w h ro hp mn
  decide

/-- Without full access, a confirmed member is a plain member or a manager
with access to selected collections. -/
theorem limited_of_confirmed (hstatus : m.status=Confirmed) (hfull : m.hasFullAccess≠true) :
    m.accessAll=false ∧ ¬m.atype.code≤MembershipType.admin.code := by
  unfold ServerTables.Membership.hasFullAccess at hfull
  rw [decide_eq_true hstatus,Bool.and_true,ne_eq,Bool.or_eq_true,not_or] at hfull
  refine ⟨Bool.eq_false_iff.mpr hfull.1,fun hcode => hfull.2 (decide_eq_true ?_)⟩
  cases hatype : m.atype with
  | owner => decide
  | admin => decide
  | user =>
    rw [hatype] at hcode
    exact absurd hcode (by decide)
  | manager =>
    rw [hatype] at hcode
    exact absurd hcode (by decide)

section Limited

variable (hdb : OrgConsistent db.toTables) (hc : c∈db.collections) (hm : m∈db.members)
  (horg : m.orgUuid=c.orgUuid) (hstatus : m.status=Confirmed) (hfull : m.hasFullAccess≠true)
include hdb hc hm horg hstatus hfull

/-- A flag query for a member without full access. -/
theorem anyRow_limited {flag : Flags → Bool} : Collection.anyRow db.toTables c m.userUuid flag=true ↔
    FullGroup db.toTables m ∨ (∃ f,DirectGrant db.toTables m.userUuid c.uuid f ∧ flag f=true) ∨
      ∃ f,GroupGrant db.toTables m.userUuid c.uuid f ∧ flag f=true := by
  obtain ⟨hall,hcode⟩ := limited_of_confirmed hstatus hfull
  rw [anyRow_iff hdb hc hm horg rfl,hall]
  simp only [hcode,Bool.false_eq_true,or_self,false_or]
  exact or_left_comm

/-- Who manages a collection. -/
theorem manages_iff : (m.atype=MembershipType.manager ∧
    Collection.isManageableByUser db.toTables c m.userUuid=true) ↔ Manages db.toTables c.uuid m := by
  rw [Collection.isManageableByUser,anyRow_limited hdb hc hm horg hstatus hfull]
  rfl

/-- Who may write to a collection without full access. -/
theorem writable_limited : Collection.isWritableByUser config db.toTables c m.userUuid=true ↔
    (∃ f,DirectGrant db.toTables m.userUuid c.uuid f ∧ f.readOnly=false) ∨
    config.orgGroupsEnabled=true ∧ (FullGroup db.toTables m ∨
      ∃ f,GroupGrant db.toTables m.userUuid c.uuid f ∧ f.readOnly=false) := by
  obtain ⟨hall,hcode⟩ := limited_of_confirmed hstatus hfull
  rw [writable_iff hdb hc hm horg rfl,hall]
  simp only [hcode,Bool.false_eq_true,or_self,false_or]

/-- The grants that a sync reads allow writing exactly if the query does,
unless a group gives more. -/
theorem writes_agree :
    ((∃ f,ReadBySync config db.toTables m.userUuid c.uuid f ∧ f.readOnly=false) ↔
      Collection.isWritableByUser config db.toTables c m.userUuid=true) ↔
    (config.orgGroupsEnabled=true →
      (∀ f,ReadBySync config db.toTables m.userUuid c.uuid f → f.readOnly=true) →
      ¬FullGroup db.toTables m ∧
        ∀ f,GroupGrant db.toTables m.userUuid c.uuid f → f.readOnly=true) := by
  rw [writable_limited hdb hc hm horg hstatus hfull]
  have hnone : (∀ f,ReadBySync config db.toTables m.userUuid c.uuid f → f.readOnly=true) ↔
      ¬∃ f,ReadBySync config db.toTables m.userUuid c.uuid f ∧ f.readOnly=false := by
    simp
  constructor
  · intro hiff hgroups hall
    have hnot := mt hiff.mpr (hnone.mp hall)
    refine ⟨fun hgroup => hnot (.inr ⟨hgroups,.inl hgroup⟩),fun f hf => ?_⟩
    rw [← Bool.not_eq_false]
    exact fun hwrite => hnot (.inr ⟨hgroups,.inr ⟨f,hf,hwrite⟩⟩)
  · intro hmore
    constructor
    · rintro ⟨f,hf|⟨-,hgroups,hf⟩,hwrite⟩
      · exact .inl ⟨f,hf,hwrite⟩
      · exact .inr ⟨hgroups,.inr ⟨f,hf,hwrite⟩⟩
    · rintro (⟨f,hf,hwrite⟩|⟨hgroups,hmuch⟩)
      · exact ⟨f,.inl hf,hwrite⟩
      · by_contra hcon
        obtain ⟨hgroup,hread⟩ := hmore hgroups (hnone.mpr hcon)
        rcases hmuch with hfullGroup|⟨f,hf,hwrite⟩
        · exact hgroup hfullGroup
        · rw [hread f hf] at hwrite
          cases hwrite

/-- The grants that a sync reads show passwords exactly if the query does,
unless a group hides them or has full access. -/
theorem reveals_agree (hgranted : ∃ f,ReadBySync config db.toTables m.userUuid c.uuid f) :
    ((∃ f,ReadBySync config db.toTables m.userUuid c.uuid f ∧ f.hidePasswords=false) ↔
      Collection.hidePasswordsForUser db.toTables c m.userUuid=false) ↔
    ((∃ f,ReadBySync config db.toTables m.userUuid c.uuid f ∧ f.hidePasswords=false) →
      ¬FullGroup db.toTables m ∧
        ∀ f,GroupGrant db.toTables m.userUuid c.uuid f → f.hidePasswords=false) := by
  have hhides : Collection.hidePasswordsForUser db.toTables c m.userUuid=false ↔
      ¬FullGroup db.toTables m ∧
      (∀ f,DirectGrant db.toTables m.userUuid c.uuid f → f.hidePasswords=false) ∧
        ∀ f,GroupGrant db.toTables m.userUuid c.uuid f → f.hidePasswords=false := by
    rw [Collection.hidePasswordsForUser,← Bool.not_eq_true,anyRow_limited hdb hc hm horg hstatus hfull]
    simp only [not_or,not_exists,not_and,Bool.not_eq_true]
  rw [hhides]
  constructor
  · intro hiff hreveals
    obtain ⟨hgroup,-,hgrants⟩ := hiff.mp hreveals
    exact ⟨hgroup,hgrants⟩
  · intro hless
    constructor
    · intro hreveals
      obtain ⟨hgroup,hgrants⟩ := hless hreveals
      refine ⟨hgroup,fun f hf => ?_,hgrants⟩
      -- the direct grant is the one that the sync reads
      obtain ⟨g,hg|⟨hno,-⟩,hshow⟩ := hreveals
      · have hkey : CollectionUser.key ⟨m.userUuid,c.uuid,f⟩=CollectionUser.key ⟨m.userUuid,c.uuid,g⟩ := rfl
        cases eq_of_key db.grant_nodup hf hg hkey
        exact hshow
      · exact absurd hf (hno f)
    · rintro ⟨-,hdirect,hgrants⟩
      obtain ⟨f,hf⟩ := hgranted
      refine ⟨f,hf,?_⟩
      rcases hf with hf|⟨-,-,hf⟩
      · exact hdirect f hf
      · exact hgrants f hf

omit hdb hc in
/-- The flags of a single read, for a member without full access. -/
theorem toJsonDetails_direct : Collection.toJsonDetails config db.toTables c m.userUuid none=
    if m.atype=MembershipType.manager ∧ Collection.isManageableByUser db.toTables c m.userUuid=true then
      ⟨false,false,true⟩
    else ⟨!Collection.isWritableByUser config db.toTables c m.userUuid,
      Collection.hidePasswordsForUser db.toTables c m.userUuid,
      decide (m.atype=MembershipType.manager) &&
        !(!Collection.isWritableByUser config db.toTables c m.userUuid) &&
        !Collection.hidePasswordsForUser db.toTables c m.userUuid⟩ := by
  have hfound : Membership.findConfirmedByUserAndOrg db.toTables m.userUuid c.orgUuid=some m :=
    findConfirmed_eq_some_iff.mpr ⟨hm,rfl,horg,hstatus⟩
  unfold Collection.toJsonDetails
  rw [hfound]
  dsimp only
  rw [if_neg hfull]

/-- Both reads report the same flags exactly if the sync says all. -/
theorem limited_agree (hway : (∃ f,DirectGrant db.toTables m.userUuid c.uuid f) ∨ m.accessAll=true ∨
    config.orgGroupsEnabled=true ∧
      (FullGroup db.toTables m ∨ ∃ f,GroupGrant db.toTables m.userUuid c.uuid f)) :
    Collection.toJsonDetails config db.toTables c m.userUuid
        (some (CipherSyncData.new config db.toTables m.userUuid))=
      Collection.toJsonDetails config db.toTables c m.userUuid none ↔
    SyncSaysAll config db.toTables c.uuid m := by
  have hfound : Membership.findConfirmedByUserAndOrg db.toTables m.userUuid c.orgUuid=some m :=
    findConfirmed_eq_some_iff.mpr ⟨hm,rfl,horg,hstatus⟩
  obtain ⟨hall,-⟩ := limited_of_confirmed hstatus hfull
  rw [toJsonDetails_direct hm horg hstatus hfull]
  have hmanages_iff := manages_iff hdb hc hm horg hstatus hfull
  rcases @sync_grant config db m.userUuid hdb c.uuid with ⟨hno,hcu,hcg⟩|⟨f,hallows,hfound'⟩
  · -- access through a full-access group alone is not in the maps of a sync
    have hsync : Collection.toJsonDetails config db.toTables c m.userUuid
        (some (CipherSyncData.new config db.toTables m.userUuid))=⟨false,false,false⟩ := by
      unfold Collection.toJsonDetails
      simp only [sync_members,hfound,if_neg hfull,hcu,hcg]
    have hnot : ¬SyncSaysAll config db.toTables c.uuid m := by
      rintro ⟨⟨g,hg⟩,-⟩
      exact hno g hg
    have hgroup : FullGroup db.toTables m := by
      rcases hway with ⟨g,hg⟩|haccess|⟨hgroups,hgroup|⟨g,hg⟩⟩
      · exact absurd (.inl hg) (hno g)
      · rw [hall] at haccess
        cases haccess
      · exact hgroup
      · by_cases hdirect : ∃ d,DirectGrant db.toTables m.userUuid c.uuid d
        · obtain ⟨d,hd⟩ := hdirect
          exact absurd (.inl hd) (hno d)
        · exact absurd (.inr ⟨fun d hd => hdirect ⟨d,hd⟩,hgroups,hg⟩) (hno g)
    have hhides : Collection.hidePasswordsForUser db.toTables c m.userUuid=true :=
      (anyRow_limited hdb hc hm horg hstatus hfull).mpr (.inl hgroup)
    rw [hsync]
    simp only [hnot,iff_false]
    split
    · simp
    · simp [hhides]
  · have hsync : Collection.toJsonDetails config db.toTables c m.userUuid
        (some (CipherSyncData.new config db.toTables m.userUuid))=
          reported (m.atype=MembershipType.manager) f := by
      unfold Collection.toJsonDetails
      rcases hfound' with ⟨cu,hcu,rfl⟩|⟨hcu,cg,hcg,rfl⟩
      · simp only [sync_members,hfound,if_neg hfull,hcu]
      · simp only [sync_members,hfound,if_neg hfull,hcu,hcg]
    have hgranted : ∃ g,ReadBySync config db.toTables m.userUuid c.uuid g := by
      obtain ⟨g,hg,-⟩ := (hallows .read).mp trivial
      exact ⟨g,hg⟩
    have hwrite : f.readOnly=false ↔ _ := hallows .write
    have hreveal : f.hidePasswords=false ↔ _ := hallows .reveal
    rw [hsync]
    by_cases hmanages : Manages db.toTables c.uuid m
    · have hmanager : m.atype=MembershipType.manager := hmanages.1
      rw [if_pos (hmanages_iff.mpr hmanages),reported,Flags.mk.injEq]
      constructor
      · rintro ⟨hro,hhp,-⟩
        exact ⟨hgranted,fun _ => ⟨hwrite.mp hro,hreveal.mp hhp⟩,fun h => absurd hmanages h,
          fun h => absurd hmanages h⟩
      · intro hsync
        obtain ⟨hw,hr⟩ := hsync.manages hmanages
        have hro := hwrite.mpr hw
        have hhp := hreveal.mpr hr
        simp [hro,hhp,hmanager]
    · have hthird : m.atype=MembershipType.manager → f.manage=false := by
        intro hmanager
        rw [← Bool.not_eq_true]
        intro hmanage
        obtain ⟨g,hg|⟨-,-,hg⟩,hgm⟩ := (hallows .manage).mp hmanage
        · exact hmanages ⟨hmanager,.inr (.inl ⟨g,hg,hgm⟩)⟩
        · exact hmanages ⟨hmanager,.inr (.inr ⟨g,hg,hgm⟩)⟩
      rw [if_neg (mt hmanages_iff.mp hmanages),
        reported_eq_iff fun h => hthird (of_decide_eq_true h),hwrite,hreveal]
      have hw := @writes_agree config db c m hdb hc hm horg hstatus hfull
      have hr := @reveals_agree config db c m hdb hc hm horg hstatus hfull hgranted
      constructor
      · rintro ⟨hwrites,hreveals⟩
        exact ⟨hgranted,fun h => absurd h hmanages,fun _ => hw.mp hwrites,fun _ => hr.mp hreveals⟩
      · intro hsync
        exact ⟨hw.mpr (hsync.writes hmanages),hr.mpr (hsync.reveals hmanages)⟩

end Limited

/-- The flags of a collection in a sync are those of a single read exactly if
the sync says all that the queries of the single read find. -/
theorem details_eq_iff (hdb : OrgConsistent db.toTables)
    (hc : c∈Collection.findByUserUuid config db.toTables user) :
    Collection.toJsonDetails config db.toTables c user
        (some (CipherSyncData.new config db.toTables user))=
      Collection.toJsonDetails config db.toTables c user none ↔
    AgreesFor config db.toTables c user := by
  obtain ⟨hrow,m,hm,horg,rfl,hstatus,hway⟩ := member_of_visible_collection hdb hc
  have honly : AgreesFor config db.toTables c m.userUuid ↔
      m.hasFullAccess=true ∨ SyncSaysAll config db.toTables c.uuid m := by
    constructor
    · rintro ⟨m',hm',huser',horg',hsync⟩
      have hkey : (m'.userUuid,m'.orgUuid)=(m.userUuid,m.orgUuid) := by
        rw [huser',horg',horg]
      cases eq_of_key db.membership_nodup hm' hm hkey
      exact hsync
    · intro hsync
      exact ⟨m,hm,rfl,horg,hsync⟩
  rw [honly]
  by_cases hfull : m.hasFullAccess=true
  · have hfound : Membership.findConfirmedByUserAndOrg db.toTables m.userUuid c.orgUuid=some m :=
      findConfirmed_eq_some_iff.mpr ⟨hm,rfl,horg,hstatus⟩
    unfold Collection.toJsonDetails
    simp only [sync_members,hfound,hfull,if_true,true_or]
  · rw [limited_agree hdb hrow hm horg hstatus hfull hway]
    simp [hfull]

end Agreement

section Samples

/-- A manager whose only access is a group with access to everything. -/
def groupManager : Database := ⟨{sharedTables ⟨false,false,false⟩ with
  members := [{Membership.new 3 1 2 none with status := Confirmed, atype := .manager}]
  usersCollections := []
  groups := [⟨6,2,true,none⟩]
  collectionsGroups := []},by decide⟩

/-- The sync reports a collection that he may not manage, the single read one
that he may. -/
theorem details_differ : OrgConsistent groupManager.toTables ∧
    (⟨4,2⟩ : Collection)∈Collection.findByUserUuid ⟨true⟩ groupManager.toTables 1 ∧
    Collection.toJsonDetails ⟨true⟩ groupManager.toTables ⟨4,2⟩ 1
      (some (CipherSyncData.new ⟨true⟩ groupManager.toTables 1))=⟨false,false,false⟩ ∧
    Collection.toJsonDetails ⟨true⟩ groupManager.toTables ⟨4,2⟩ 1 none=⟨false,false,true⟩ :=
  ⟨⟨by decide,by decide,by decide⟩,by decide,by decide,by decide⟩

theorem details_eq_writable : Collection.toJsonDetails ⟨true⟩ writableGrant.toTables ⟨4,2⟩ 1
      (some (CipherSyncData.new ⟨true⟩ writableGrant.toTables 1))=
    Collection.toJsonDetails ⟨true⟩ writableGrant.toTables ⟨4,2⟩ 1 none ↔
    AgreesFor ⟨true⟩ writableGrant.toTables ⟨4,2⟩ 1 :=
  details_eq_iff ⟨by decide,by decide,by decide⟩ (by decide)

end Samples

end NadSafe.CollectionFlags
