import NadSafe.AccessQueries

/-!
# Flags in a sync and flags of a single read

A sync takes, for every collection of a cipher, the direct grant or else the
grants through groups. A single read takes all direct grants, or else all
grants through groups. Both then combine what they have. The two agree unless
a group grant on a collection without a direct grant allows something that no
direct grant allows.
-/

namespace NadSafe.SyncAgreement

open HostText TableRows ServerTables AccessQueries

/-- What a grant may allow. -/
inductive Right where
  /-- Reading. -/
  | read
  /-- Changes. -/
  | write
  /-- Passwords. -/
  | reveal
  /-- Management. -/
  | manage

/-- A grant allows it. -/
def Allows : Right → Flags → Prop
  | .read,_ => True
  | .write,f => f.readOnly=false
  | .reveal,f => f.hidePasswords=false
  | .manage,f => f.manage=true

/-- Flags are what they allow. -/
theorem flags_eq_iff {f g : Flags} : f=g ↔ ∀ r,Allows r f ↔ Allows r g := by
  constructor
  · rintro rfl
    exact fun _ => Iff.rfl
  · intro h
    obtain ⟨ro,hp,mn⟩ := f
    obtain ⟨ro',hp',mn'⟩ := g
    have hwrite : ro=false ↔ ro'=false := h .write
    have hreveal : hp=false ↔ hp'=false := h .reveal
    have hmanage : mn=true ↔ mn'=true := h .manage
    rw [Flags.mk.injEq]
    exact ⟨Bool.eq_iff_iff.mpr (by simpa using not_congr hwrite),
      Bool.eq_iff_iff.mpr (by simpa using not_congr hreveal),Bool.eq_iff_iff.mpr hmanage⟩

theorem allows_merge {r : Right} {f g : Flags} :
    Allows r (Flags.merge f g) ↔ Allows r f ∨ Allows r g := by
  cases r with
  | read => exact (or_self_iff).symm
  | write => exact Bool.and_eq_false_iff
  | reveal => exact Bool.and_eq_false_iff
  | manage => exact Bool.or_eq_true_iff

/-- Combined grants allow what one of them allows. -/
theorem allows_combine {r : Right} {rows : List Flags} (h : rows≠[]) :
    Allows r (Flags.combine rows) ↔ ∃ f∈rows,Allows r f := by
  have hfold (rows : List Flags) (f : Flags) :
      Allows r (rows.foldl Flags.merge f) ↔ Allows r f ∨ ∃ g∈rows,Allows r g := by
    induction rows generalizing f with
    | nil => simp
    | cons g rows ih =>
      rw [List.foldl_cons,ih,allows_merge,List.exists_mem_cons_iff,or_assoc]
  obtain ⟨f,rows,rfl⟩ := List.exists_cons_of_ne_nil h
  have hstart : Flags.merge ⟨true,true,false⟩ f=f := by simp [Flags.merge]
  rw [Flags.combine,List.foldl_cons,hstart,hfold,List.exists_mem_cons_iff]

/-- Restrictions are what the rows allow. -/
theorem restrictions_eq_iff {rows rows' : List Flags} :
    (if rows=[] then none else some (Flags.combine rows))=
      (if rows'=[] then none else some (Flags.combine rows')) ↔
    ∀ r,(∃ f∈rows,Allows r f) ↔ ∃ f∈rows',Allows r f := by
  have hread {rows : List Flags} : (∃ f∈rows,Allows .read f) ↔ rows≠[] := by
    simp [Allows,List.eq_nil_iff_forall_not_mem]
  by_cases h : rows=[]
  · subst h
    by_cases h' : rows'=[]
    · simp [h']
    · simp only [if_true,if_neg h',reduceCtorEq,false_iff]
      intro hall
      have hempty := (hall .read).trans hread
      simp [h'] at hempty
  · by_cases h' : rows'=[]
    · subst h'
      simp only [if_true,if_neg h,reduceCtorEq,false_iff]
      intro hall
      have hempty := hread.symm.trans (hall .read)
      simp [h] at hempty
    · rw [if_neg h,if_neg h',Option.some_inj,flags_eq_iff]
      exact forall_congr' fun r => by rw [allows_combine h,allows_combine h']

/-- The link tables join rows of one organisation. -/
structure OrgConsistent (t : Tables) : Prop where
  /-- Ciphers and collections. -/
  ciphersCollections : ∀ r∈t.ciphersCollections,∀ c∈t.ciphers,c.uuid=r.cipherUuid →
    ∀ k∈t.collections,k.uuid=r.collectionUuid → c.organizationUuid=some k.orgUuid
  /-- Groups and memberships. -/
  groupsUsers : ∀ r∈t.groupsUsers,∀ g∈t.groups,g.uuid=r.groupsUuid →
    ∀ m∈t.members,m.uuid=r.usersOrganizationsUuid → g.organizationsUuid=m.orgUuid
  /-- Collections and groups. -/
  collectionsGroups : ∀ r∈t.collectionsGroups,∀ k∈t.collections,k.uuid=r.collectionsUuid →
    ∀ g∈t.groups,g.uuid=r.groupsUuid → k.orgUuid=g.organizationsUuid

/-- A grant on a collection through a group. -/
def GroupGrant (t : Tables) (user collection : Uuid) (f : Flags) : Prop :=
  ∃ gu∈t.groupsUsers,(⟨collection,gu.groupsUuid,f⟩ : CollectionGroup)∈t.collectionsGroups ∧
    ∃ m∈t.members,m.uuid=gu.usersOrganizationsUuid ∧ m.userUuid=user

/-- Access to everything in the organisation of the cipher, or ownership. -/
def HasFullAccess (config : Config) (t : Tables) (c : Cipher) (user : Uuid) : Prop :=
  c.userUuid=some user ∨
  (∃ m∈t.members,m.userUuid=user ∧ c.organizationUuid=some m.orgUuid ∧ m.hasFullAccess=true) ∨
  config.orgGroupsEnabled=true ∧ ∃ g∈t.groups,c.organizationUuid=some g.organizationsUuid ∧
    g.accessAll=true ∧ ∃ gu∈t.groupsUsers,gu.groupsUuid=g.uuid ∧
      ∃ m∈t.members,m.uuid=gu.usersOrganizationsUuid ∧ m.userUuid=user

variable {config : Config} {db : Database} {c : Cipher} {user : Uuid}

/-- The direct grants of a single read. -/
theorem mem_userFlags {t : Tables} (hc : c∈t.ciphers) {f : Flags} :
    f∈Cipher.getUserCollectionsAccessFlags t c user ↔
      ∃ k,InCollection t c k ∧ DirectGrant t user k f := by
  simp only [Cipher.getUserCollectionsAccessFlags,List.mem_map,mem_innerJoin,List.mem_filter,Prod.exists,
    decide_eq_true_eq,and_assoc]
  constructor
  · rintro ⟨r,cc,uc,hr,hrc,hcc,hlink,huc,hcoll,huser,rfl⟩
    obtain ⟨cipherUuid,collectionUuid⟩ := cc
    obtain ⟨userUuid,ucCollection,flags⟩ := uc
    dsimp only at *
    subst hcoll huser
    rw [hrc] at hlink
    subst hlink
    exact ⟨_,hcc,huc⟩
  · rintro ⟨k,hlink,hgrant⟩
    exact ⟨c,_,_,hc,rfl,hlink,rfl,hgrant,rfl,rfl,rfl⟩

/-- The group grants of a single read. -/
theorem mem_groupFlags (hdb : OrgConsistent db.toTables) (hc : c∈db.ciphers) {f : Flags} :
    f∈Cipher.getGroupCollectionsAccessFlags config db.toTables c user ↔
      config.orgGroupsEnabled=true ∧ ∃ k,InCollection db.toTables c k ∧ GroupGrant db.toTables user k f := by
  unfold Cipher.getGroupCollectionsAccessFlags
  by_cases hgroups : config.orgGroupsEnabled=true
  swap
  · simp [hgroups]
  rw [if_pos hgroups,and_iff_right hgroups]
  simp only [List.mem_map,mem_innerJoin,List.mem_filter,Prod.exists,decide_eq_true_eq,and_assoc]
  constructor
  · rintro ⟨r,cc,cg,gu,m,g,hr,hrc,hcc,hlink,hcg,hcoll,hgu,hgroup,hm,hmember,hg,-,-,huser,rfl⟩
    obtain ⟨cipherUuid,collectionUuid⟩ := cc
    obtain ⟨collectionsUuid,groupsUuid,flags⟩ := cg
    dsimp only at *
    subst hcoll
    rw [hrc] at hlink
    subst hlink
    exact ⟨_,hcc,gu,hgu,hgroup ▸ hcg,m,hm,hmember,huser⟩
  · rintro ⟨k,hlink,gu,hgu,hcg,m,hm,hmember,huser⟩
    obtain ⟨g,hg,hgroup⟩ := db.group_of_user hgu
    have horg := hdb.groupsUsers gu hgu g hg hgroup m hm hmember
    exact ⟨c,_,_,gu,m,g,hc,rfl,hlink,rfl,hcg,rfl,hgu,rfl,hm,hmember,hg,hgroup,horg,huser,rfl⟩

/-- A single read sees full access where it is. -/
theorem fullAccess_direct : (Cipher.isOwnedByUser c user ||
    Cipher.isInFullAccessOrg db.toTables c user none ||
    Cipher.isInFullAccessGroup config db.toTables c user none)=true ↔ HasFullAccess config db.toTables c user := by
  have horg : Cipher.isInFullAccessOrg db.toTables c user none=true ↔
      ∃ m∈db.members,m.userUuid=user ∧ c.organizationUuid=some m.orgUuid ∧ m.hasFullAccess=true := by
    unfold Cipher.isInFullAccessOrg
    cases hc : c.organizationUuid with
    | none => simp
    | some org =>
      dsimp only
      constructor
      · intro h
        obtain ⟨m,hm,hfull⟩ := any_eq_true_iff.mp h
        obtain ⟨hmem,huser,rfl,-⟩ := findConfirmed_eq_some_iff.mp hm
        exact ⟨m,hmem,huser,rfl,hfull⟩
      · rintro ⟨m,hm,huser,ho,hfull⟩
        cases ho
        exact any_eq_true_iff.mpr
          ⟨m,findConfirmed_eq_some_iff.mpr ⟨hm,huser,rfl,confirmed_of_fullAccess hfull⟩,hfull⟩
  have hgroup : Cipher.isInFullAccessGroup config db.toTables c user none=true ↔
      config.orgGroupsEnabled=true ∧ ∃ g∈db.groups,c.organizationUuid=some g.organizationsUuid ∧
        g.accessAll=true ∧ ∃ gu∈db.groupsUsers,gu.groupsUuid=g.uuid ∧
          ∃ m∈db.members,m.uuid=gu.usersOrganizationsUuid ∧ m.userUuid=user := by
    unfold Cipher.isInFullAccessGroup
    by_cases hgroups : config.orgGroupsEnabled=true
    swap
    · simp [hgroups]
    rw [if_pos hgroups,and_iff_right hgroups]
    cases hc : c.organizationUuid with
    | none => simp
    | some org =>
      simp only [Group.isInFullAccessGroup,List.any_eq_true,mem_innerJoin,Prod.exists,decide_eq_true_eq,
        Option.some_inj,and_assoc]
      constructor
      · rintro ⟨g,gu,m,hg,hgu,hgroup,hm,hmember,huser,horg,hall⟩
        exact ⟨g,hg,horg.symm,hall,gu,hgu,hgroup,m,hm,hmember,huser⟩
      · rintro ⟨g,hg,horg,hall,gu,hgu,hgroup,m,hm,hmember,huser⟩
        exact ⟨g,gu,m,hg,hgu,hgroup,hm,hmember,huser,horg.symm,hall⟩
  rw [Bool.or_eq_true,Bool.or_eq_true,horg,hgroup,HasFullAccess,Cipher.isOwnedByUser,decide_eq_true_eq,
    or_assoc]

/-- The membership in a sync is the one of a single read. -/
theorem sync_members (org : Uuid) : (CipherSyncData.new config db.toTables user).members org=
    Membership.findConfirmedByUserAndOrg db.toTables user org := by
  have hkeys : (((Membership.findConfirmedByUser db.toTables user).map fun m => (m.orgUuid,m)).map
      Prod.fst).Nodup := by
    have hpairs : ((Membership.findConfirmedByUser db.toTables user).map
        fun m => (m.userUuid,m.orgUuid)).Nodup :=
      db.membership_nodup.sublist (List.filter_sublist.map _)
    rw [List.map_map]
    refine nodup_of_fixed hpairs (a:=user) fun m hm => ?_
    exact (of_decide_eq_true (List.mem_filter.mp hm).2).1
  refine Option.ext fun m => ?_
  rw [findConfirmed_eq_some_iff]
  show collectMap _ org=some m ↔ _
  rw [collectMap_eq_some_iff hkeys]
  simp only [List.mem_map,Membership.findConfirmedByUser,List.mem_filter,decide_eq_true_eq,Prod.mk.injEq]
  constructor
  · rintro ⟨m',⟨hm,huser,hstatus⟩,rfl,rfl⟩
    exact ⟨hm,huser,rfl,hstatus⟩
  · rintro ⟨hm,huser,horg,hstatus⟩
    exact ⟨m,⟨hm,huser,hstatus⟩,horg,rfl⟩

/-- The direct grant in a sync. -/
theorem sync_userCollections {k : Uuid} {r : CollectionUser} :
    (CipherSyncData.new config db.toTables user).userCollections k=some r ↔
      r∈db.usersCollections ∧ r.userUuid=user ∧ r.collectionUuid=k := by
  have hkeys : (((CollectionUser.findByUser db.toTables user).map fun r => (r.collectionUuid,r)).map
      Prod.fst).Nodup := by
    have hpairs : ((CollectionUser.findByUser db.toTables user).map CollectionUser.key).Nodup :=
      db.grant_nodup.sublist (List.filter_sublist.map _)
    rw [List.map_map]
    exact nodup_of_fixed hpairs (a:=user) fun r hr => of_decide_eq_true (List.mem_filter.mp hr).2
  show collectMap _ k=some r ↔ _
  rw [collectMap_eq_some_iff hkeys]
  simp only [List.mem_map,CollectionUser.findByUser,List.mem_filter,decide_eq_true_eq,Prod.mk.injEq]
  constructor
  · rintro ⟨r',⟨hr,huser⟩,rfl,rfl⟩
    exact ⟨hr,huser,rfl⟩
  · rintro ⟨hr,huser,hk⟩
    exact ⟨r,⟨hr,huser⟩,hk,rfl⟩

/-- Combined permissions on a collection, with what they allow. -/
theorem combined_eq {rows : List CollectionGroup} {k : Uuid} :
    ((rows.foldl combinePermissions fun _ => none) k=none ↔ ∀ cg∈rows,cg.collectionsUuid≠k) ∧
    ∀ cg,(rows.foldl combinePermissions fun _ => none) k=some cg →
      ∀ r,Allows r cg.flags ↔ ∃ cg'∈rows,cg'.collectionsUuid=k ∧ Allows r cg'.flags := by
  have hfold (map : Uuid → Option CollectionGroup) :
      (rows.foldl combinePermissions map k=none ↔ map k=none ∧ ∀ cg∈rows,cg.collectionsUuid≠k) ∧
      ∀ cg,rows.foldl combinePermissions map k=some cg → ∀ r,Allows r cg.flags ↔
        (∃ cg',map k=some cg' ∧ Allows r cg'.flags) ∨
          ∃ cg'∈rows,cg'.collectionsUuid=k ∧ Allows r cg'.flags := by
    induction rows generalizing map with
    | nil => exact ⟨by simp,fun cg hcg r => by simp_all⟩
    | cons x rows ih =>
      obtain ⟨hnone,hsome⟩ := ih (combinePermissions map x)
      rw [List.foldl_cons]
      by_cases hx : x.collectionsUuid=k
      · have hnew : ∃ cg',combinePermissions map x k=some cg' ∧ ∀ r,Allows r cg'.flags ↔
            (∃ e,map k=some e ∧ Allows r e.flags) ∨ Allows r x.flags := by
          rw [combinePermissions,hx,Function.update_self]
          cases hmap : map k with
          | none => exact ⟨x,rfl,fun r => by simp⟩
          | some e => exact ⟨_,rfl,fun r => by rw [allows_merge]; simp⟩
        obtain ⟨cg',hcg',hallows⟩ := hnew
        refine ⟨?_,fun cg hcg r => ?_⟩
        · rw [hnone,hcg']
          simp [hx]
        · rw [hsome cg hcg r,hcg']
          simp [hallows,hx,or_assoc]
      · have hsame : combinePermissions map x k=map k := Function.update_of_ne (Ne.symm hx) _ _
        refine ⟨?_,fun cg hcg r => ?_⟩
        · rw [hnone,hsame]
          simp [hx]
        · rw [hsome cg hcg r,hsame]
          simp [hx]
  obtain ⟨hnone,hsome⟩ := hfold fun _ => none
  exact ⟨by simpa using hnone,fun cg hcg r => by simpa using hsome cg hcg r⟩

/-- The group grants in a sync. -/
theorem mem_groupsByUser (hdb : OrgConsistent db.toTables) {k : Uuid} {f : Flags} :
    (∃ cg∈CollectionGroup.findByUser db.toTables user,cg.collectionsUuid=k ∧ cg.flags=f) ↔
      GroupGrant db.toTables user k f := by
  simp only [CollectionGroup.findByUser,List.mem_map,mem_innerJoin,List.mem_filter,Prod.exists,
    decide_eq_true_eq,and_assoc]
  constructor
  · rintro ⟨cg,⟨cg',gu,m,g,k',hcg,hgu,hgroup,hm,hmember,-,-,-,-,-,-,huser,rfl⟩,rfl,rfl⟩
    obtain ⟨collectionsUuid,groupsUuid,flags⟩ := cg'
    dsimp only at *
    exact ⟨gu,hgu,hgroup ▸ hcg,m,hm,hmember,huser⟩
  · rintro ⟨gu,hgu,hcg,m,hm,hmember,huser⟩
    obtain ⟨g,hg,hgroup⟩ := db.group_of_user hgu
    obtain ⟨k',hk',hcoll⟩ := db.collection_of_group hcg
    have horg := hdb.groupsUsers gu hgu g hg hgroup m hm hmember
    have hcollOrg := hdb.collectionsGroups _ hcg k' hk' hcoll g hg hgroup
    exact ⟨_,⟨_,gu,m,g,k',hcg,hgu,rfl,hm,hmember,hg,hgroup,horg,hk',hcoll,hcollOrg,huser,rfl⟩,rfl,rfl⟩

/-- The grants through groups on a collection in a sync, with what they
allow. -/
theorem sync_groups (hdb : OrgConsistent db.toTables) {k : Uuid} :
    ((CipherSyncData.new config db.toTables user).userCollectionsGroups k=none ↔
      ¬(config.orgGroupsEnabled=true ∧ ∃ f,GroupGrant db.toTables user k f)) ∧
    ∀ cg,(CipherSyncData.new config db.toTables user).userCollectionsGroups k=some cg →
      ∀ r,Allows r cg.flags ↔
        config.orgGroupsEnabled=true ∧ ∃ f,GroupGrant db.toTables user k f ∧ Allows r f := by
  by_cases hgroups : config.orgGroupsEnabled=true
  swap
  · simp [CipherSyncData.new,hgroups]
  obtain ⟨hnone,hsome⟩ :=
    @combined_eq (CollectionGroup.findByUser db.toTables user) k
  have hmap : (CipherSyncData.new config db.toTables user).userCollectionsGroups=
      (CollectionGroup.findByUser db.toTables user).foldl combinePermissions fun _ => none := if_pos hgroups
  rw [hmap]
  simp only [hgroups,true_and]
  refine ⟨hnone.trans ?_,fun cg hcg r => (hsome cg hcg r).trans ?_⟩
  · constructor
    · rintro h ⟨f,hf⟩
      obtain ⟨cg,hcg,hk,-⟩ := (mem_groupsByUser hdb).mpr hf
      exact h cg hcg hk
    · intro h cg hcg hk
      exact h ⟨cg.flags,(mem_groupsByUser hdb).mp ⟨cg,hcg,hk,rfl⟩⟩
  · constructor
    · rintro ⟨cg',hcg',hk,hallows⟩
      exact ⟨cg'.flags,(mem_groupsByUser hdb).mp ⟨cg',hcg',hk,rfl⟩,hallows⟩
    · rintro ⟨f,hf,hallows⟩
      obtain ⟨cg',hcg',hk,rfl⟩ := (mem_groupsByUser hdb).mpr hf
      exact ⟨cg',hcg',hk,hallows⟩

/-- A sync sees full access where a single read does. -/
theorem fullAccess_sync (hdb : OrgConsistent db.toTables) : (Cipher.isOwnedByUser c user ||
    Cipher.isInFullAccessOrg db.toTables c user (some (CipherSyncData.new config db.toTables user)) ||
    Cipher.isInFullAccessGroup config db.toTables c user
      (some (CipherSyncData.new config db.toTables user)))=
    (Cipher.isOwnedByUser c user || Cipher.isInFullAccessOrg db.toTables c user none ||
      Cipher.isInFullAccessGroup config db.toTables c user none) := by
  have horg : Cipher.isInFullAccessOrg db.toTables c user
      (some (CipherSyncData.new config db.toTables user))=
      Cipher.isInFullAccessOrg db.toTables c user none := by
    unfold Cipher.isInFullAccessOrg
    cases c.organizationUuid with
    | none => rfl
    | some org =>
      dsimp only
      rw [sync_members]
  have hgroup : Cipher.isInFullAccessGroup config db.toTables c user
      (some (CipherSyncData.new config db.toTables user))=
      Cipher.isInFullAccessGroup config db.toTables c user none := by
    unfold Cipher.isInFullAccessGroup
    by_cases hgroups : config.orgGroupsEnabled=true
    swap
    · simp [hgroups]
    rw [if_pos hgroups,if_pos hgroups]
    cases c.organizationUuid with
    | none => rfl
    | some org =>
      rw [Bool.eq_iff_iff,decide_eq_true_eq]
      simp only [CipherSyncData.new,hgroups,if_true,Group.getOrgsByUserWithFullAccess,
        Group.isInFullAccessGroup,List.mem_dedup,List.mem_map,List.mem_filter,List.any_eq_true,
        mem_innerJoin,Prod.exists,decide_eq_true_eq,and_assoc]
      constructor
      · rintro ⟨gu,m,g,hgu,hm,hmember,hg,hgroup,-,huser,hall,horg⟩
        exact ⟨g,gu,m,hg,hgu,hgroup.symm,hm,hmember,huser,horg,hall⟩
      · rintro ⟨g,gu,m,hg,hgu,hgroup,hm,hmember,huser,horg,hall⟩
        have hsame := hdb.groupsUsers gu hgu g hg hgroup.symm m hm hmember
        exact ⟨gu,m,g,hgu,hm,hmember,hg,hgroup.symm,hsame,huser,hall,horg⟩
  rw [horg,hgroup]

/-- A sync looks at collections of the cipher. -/
theorem linked_of_sync {k : Uuid}
    (h : k∈(CipherSyncData.new config db.toTables user).cipherCollections c.uuid) :
    InCollection db.toTables c k := by
  simp only [CipherSyncData.new,Cipher.getCollectionsWithCipherByUser,List.mem_map,List.mem_filter,
    decide_eq_true_eq,List.mem_dedup,and_assoc,exists_leftJoin,exists_innerJoin] at h
  obtain ⟨row,⟨cc,hcc,k',-,-,m,-,-,-,uc,-,gu,-,g,-,cg,-,-,rfl⟩,hcipher,rfl⟩ := h
  have hsame : cc=⟨c.uuid,cc.collectionUuid⟩ := by
    rw [← hcipher]
  rw [InCollection,← hsame]
  exact hcc

/-- And at every one that a member has a grant on. -/
theorem sync_of_linked (hdb : OrgConsistent db.toTables) (hc : c∈db.ciphers) {k : Uuid}
    (hmember : ∃ m∈db.members,m.userUuid=user ∧ c.organizationUuid=some m.orgUuid)
    (hlink : InCollection db.toTables c k)
    (hgrant : ∃ f,DirectGrant db.toTables user k f ∨ GroupGrant db.toTables user k f) :
    k∈(CipherSyncData.new config db.toTables user).cipherCollections c.uuid := by
  simp only [CipherSyncData.new,Cipher.getCollectionsWithCipherByUser,List.mem_map,List.mem_filter,
    decide_eq_true_eq,List.mem_dedup,and_assoc,exists_leftJoin,exists_innerJoin]
  obtain ⟨k',hk',hcoll⟩ := db.collection_of_link hlink
  obtain ⟨m,hm,huser,horg⟩ := hmember
  have hcollOrg : m.orgUuid=k'.orgUuid := by
    have hown := hdb.ciphersCollections _ hlink c hc rfl k' hk' hcoll
    rw [horg] at hown
    exact Option.some_inj.mp hown
  refine ⟨(c.uuid,k),⟨_,hlink,k',hk',hcoll,m,hm,hcollOrg,huser,?_⟩,rfl,rfl⟩
  obtain ⟨f,hdirect|⟨gu,hgu,hcg,m',hm',hmember',huser'⟩⟩ := hgrant
  · obtain ⟨gu,hgu⟩ := exists_partner db.groupsUsers fun gu => gu.usersOrganizationsUuid=m.uuid
    obtain ⟨g,hg⟩ := exists_partner db.groups fun g =>
      gu.any (fun gu => g.uuid=gu.groupsUuid) && decide (g.organizationsUuid=m.orgUuid)
    obtain ⟨cg,hcg⟩ := exists_partner db.collectionsGroups fun cg =>
      decide (cg.collectionsUuid=k) && g.any fun g => cg.groupsUuid=g.uuid
    exact ⟨some _,some_mem_partners.mpr ⟨hdirect,by simp⟩,gu,hgu,g,hg,cg,hcg,by simp,rfl⟩
  · -- the membership of the group is the one in the organisation of the cipher
    obtain ⟨g,hg,hgroup⟩ := db.group_of_user hgu
    have hgroupOrg := hdb.groupsUsers gu hgu g hg hgroup m' hm' hmember'
    have hcollGroup := hdb.collectionsGroups _ hcg k' hk' hcoll g hg hgroup
    have hkey : (m'.userUuid,m'.orgUuid)=(m.userUuid,m.orgUuid) := by
      rw [huser,huser',hcollOrg,hcollGroup,hgroupOrg]
    cases eq_of_key db.membership_nodup hm' hm hkey
    obtain ⟨uc,huc⟩ := exists_partner db.usersCollections fun uc =>
      uc.collectionUuid=k ∧ uc.userUuid=user
    refine ⟨uc,huc,some gu,some_mem_partners.mpr ⟨hgu,by simp [hmember']⟩,some g,
      some_mem_partners.mpr ⟨hg,by simp [hgroup,hgroupOrg]⟩,some _,
      some_mem_partners.mpr ⟨hcg,by simp [hgroup]⟩,by simp,rfl⟩

/-- What the rows of a sync allow. -/
theorem sync_allows (hdb : OrgConsistent db.toTables) (hc : c∈db.ciphers) {r : Right}
    (hmember : ∃ m∈db.members,m.userUuid=user ∧ c.organizationUuid=some m.orgUuid) :
    (∃ f∈Cipher.syncedFlags c (CipherSyncData.new config db.toTables user),Allows r f) ↔
      ∃ k,InCollection db.toTables c k ∧ ((∃ f,DirectGrant db.toTables user k f ∧ Allows r f) ∨
        (∀ f,¬DirectGrant db.toTables user k f) ∧ config.orgGroupsEnabled=true ∧
          ∃ f,GroupGrant db.toTables user k f ∧ Allows r f) := by
  have hgroups (k : Uuid) := @sync_groups config db user hdb k
  have hfound {k : Uuid} {f : Flags} (h : DirectGrant db.toTables user k f) :
      (CipherSyncData.new config db.toTables user).userCollections k=some ⟨user,k,f⟩ :=
    (sync_userCollections).mpr ⟨h,rfl,rfl⟩
  have hdirect {k : Uuid} {cu : CollectionUser}
      (h : (CipherSyncData.new config db.toTables user).userCollections k=some cu) :
      DirectGrant db.toTables user k cu.flags := by
    obtain ⟨hcu,rfl,rfl⟩ := (sync_userCollections).mp h
    exact hcu
  have hnone {k : Uuid} : (CipherSyncData.new config db.toTables user).userCollections k=none ↔
      ∀ f,¬DirectGrant db.toTables user k f := by
    constructor
    · intro h f hf
      have hsome := hfound hf
      rw [h] at hsome
      cases hsome
    · intro h
      cases hcu : (CipherSyncData.new config db.toTables user).userCollections k with
      | none => rfl
      | some cu => exact absurd (hdirect hcu) (h _)
  simp only [Cipher.syncedFlags,List.mem_filterMap]
  constructor
  · rintro ⟨f,⟨k,hk,hf⟩,hallows⟩
    refine ⟨k,linked_of_sync hk,?_⟩
    cases hcu : (CipherSyncData.new config db.toTables user).userCollections k with
    | some cu =>
      rw [hcu,Option.some_inj] at hf
      subst hf
      exact .inl ⟨_,hdirect hcu,hallows⟩
    | none =>
      rw [hcu] at hf
      obtain ⟨cg,hcg,rfl⟩ := Option.map_eq_some_iff.mp hf
      exact .inr ⟨hnone.mp hcu,((hgroups k).2 cg hcg r).mp hallows⟩
  · rintro ⟨k,hlink,⟨f,hf,hallows⟩|⟨hno,henabled,f,hf,hallows⟩⟩
    · exact ⟨f,⟨k,sync_of_linked hdb hc hmember hlink ⟨f,.inl hf⟩,by rw [hfound hf]⟩,hallows⟩
    · cases hcg : (CipherSyncData.new config db.toTables user).userCollectionsGroups k with
      | none => exact absurd ⟨henabled,f,hf⟩ ((hgroups k).1.mp hcg)
      | some cg =>
        refine ⟨cg.flags,⟨k,sync_of_linked hdb hc hmember hlink ⟨f,.inr hf⟩,?_⟩,?_⟩
        · rw [hnone.mpr hno,hcg]
          rfl
        · exact ((hgroups k).2 cg hcg r).mpr ⟨henabled,f,hf,hallows⟩

/-- What the rows of a single read allow. -/
theorem direct_allows (hdb : OrgConsistent db.toTables) (hc : c∈db.ciphers) {r : Right} :
    (∃ f∈Cipher.directFlags config db.toTables c user,Allows r f) ↔
      (∃ k f,InCollection db.toTables c k ∧ DirectGrant db.toTables user k f ∧ Allows r f) ∨
      (∀ k f,InCollection db.toTables c k → ¬DirectGrant db.toTables user k f) ∧
        config.orgGroupsEnabled=true ∧
          ∃ k f,InCollection db.toTables c k ∧ GroupGrant db.toTables user k f ∧ Allows r f := by
  unfold Cipher.directFlags
  have hempty : Cipher.getUserCollectionsAccessFlags db.toTables c user=[] ↔
      ∀ k f,InCollection db.toTables c k → ¬DirectGrant db.toTables user k f := by
    simp only [List.eq_nil_iff_forall_not_mem,mem_userFlags hc,not_exists,not_and]
    exact forall_comm
  by_cases hgrants : Cipher.getUserCollectionsAccessFlags db.toTables c user=[]
  · have hno := hempty.mp hgrants
    rw [if_pos hgrants]
    simp only [mem_groupFlags hdb hc]
    constructor
    · rintro ⟨f,⟨henabled,k,hlink,hf⟩,hallows⟩
      exact .inr ⟨hno,henabled,k,f,hlink,hf,hallows⟩
    · rintro (⟨k,f,hlink,hf,-⟩|⟨-,henabled,k,f,hlink,hf,hallows⟩)
      · exact absurd hf (hno k f hlink)
      · exact ⟨f,⟨henabled,k,hlink,hf⟩,hallows⟩
  · rw [if_neg hgrants]
    simp only [mem_userFlags hc]
    constructor
    · rintro ⟨f,⟨k,hlink,hf⟩,hallows⟩
      exact .inl ⟨k,f,hlink,hf,hallows⟩
    · rintro (⟨k,f,hlink,hf,hallows⟩|⟨hno,-⟩)
      · exact ⟨f,⟨k,hlink,hf⟩,hallows⟩
      · exact absurd (hempty.mpr hno) hgrants

/-- A visible cipher is owned, or the user is a member of its organisation. -/
theorem member_of_visible (h : c∈Cipher.findByUserVisible config db.toTables user) :
    c∈db.ciphers ∧
      (c.userUuid=some user ∨ ∃ m∈db.members,m.userUuid=user ∧ c.organizationUuid=some m.orgUuid) := by
  obtain ⟨hc,howner|⟨m,hm,horg,huser,-⟩⟩ := mem_findByUser.mp h
  · exact ⟨hc,.inl howner⟩
  · exact ⟨hc,.inr ⟨m,hm,huser,horg⟩⟩

/-- A group grant on a collection without a direct grant allows something that
no direct grant on the collections of the cipher allows. -/
def GroupsAllowMore (config : Config) (t : Tables) (c : Cipher) (user : Uuid) : Prop :=
  config.orgGroupsEnabled=true ∧ ¬HasFullAccess config t c user ∧
  (∃ k f,InCollection t c k ∧ DirectGrant t user k f) ∧
  ∃ r,(∃ k f,InCollection t c k ∧ (∀ g,¬DirectGrant t user k g) ∧ GroupGrant t user k f ∧ Allows r f) ∧
    ∀ k f,InCollection t c k → DirectGrant t user k f → ¬Allows r f

/-- The flags in a sync are those of a single read exactly if no group allows
more than the direct grants. -/
theorem sync_restrictions_eq_iff (hdb : OrgConsistent db.toTables)
    (hc : c∈Cipher.findByUserVisible config db.toTables user) :
    Cipher.getAccessRestrictions config db.toTables c user
        (some (CipherSyncData.new config db.toTables user))=
      Cipher.getAccessRestrictions config db.toTables c user none ↔
    ¬GroupsAllowMore config db.toTables c user := by
  obtain ⟨hrow,hvisible⟩ := member_of_visible hc
  unfold Cipher.getAccessRestrictions
  rw [fullAccess_sync hdb]
  by_cases hfull : HasFullAccess config db.toTables c user
  · have hmore : ¬GroupsAllowMore config db.toTables c user := fun h => h.2.1 hfull
    simp only [if_pos (fullAccess_direct.mpr hfull),hmore,not_false_eq_true]
  have hmember := hvisible.resolve_left fun howner => hfull (.inl howner)
  have hnot := mt fullAccess_direct.mp hfull
  rw [if_neg hnot,if_neg hnot,restrictions_eq_iff]
  simp only [sync_allows hdb hrow hmember,direct_allows hdb hrow]
  by_cases hgrant : ∃ k f,InCollection db.toTables c k ∧ DirectGrant db.toTables user k f
  · -- only the direct grants count in a single read
    obtain ⟨k₀,f₀,hlink₀,hdirect₀⟩ := hgrant
    constructor
    · rintro hall ⟨hgroups,-,-,r,⟨k,f,hlink,hno,hgroup,hallows⟩,hnone⟩
      rcases (hall r).mp ⟨k,hlink,.inr ⟨hno,hgroups,f,hgroup,hallows⟩⟩ with ⟨k',f',hl,hd,ha⟩|⟨hno',-⟩
      · exact hnone k' f' hl hd ha
      · exact hno' k₀ f₀ hlink₀ hdirect₀
    · intro hmore r
      constructor
      · rintro ⟨k,hlink,⟨f,hf,hallows⟩|⟨hno,hgroups,f,hf,hallows⟩⟩
        · exact .inl ⟨k,f,hlink,hf,hallows⟩
        · by_contra hcon
          refine hmore ⟨hgroups,hfull,⟨k₀,f₀,hlink₀,hdirect₀⟩,r,⟨k,f,hlink,hno,hf,hallows⟩,?_⟩
          exact fun k' f' hl hd ha => hcon (.inl ⟨k',f',hl,hd,ha⟩)
      · rintro (⟨k,f,hlink,hf,hallows⟩|⟨hno,-⟩)
        · exact ⟨k,hlink,.inl ⟨f,hf,hallows⟩⟩
        · exact absurd hdirect₀ (hno k₀ f₀ hlink₀)
  · -- without direct grants both read all grants through groups
    have hno : ∀ k f,InCollection db.toTables c k → ¬DirectGrant db.toTables user k f :=
      fun k f hl hd => hgrant ⟨k,f,hl,hd⟩
    have hmore : ¬GroupsAllowMore config db.toTables c user := fun h => hgrant h.2.2.1
    simp only [hmore,not_false_eq_true,iff_true]
    intro r
    constructor
    · rintro ⟨k,hlink,⟨f,hf,-⟩|⟨-,hgroups,f,hf,hallows⟩⟩
      · exact absurd hf (hno k f hlink)
      · exact .inr ⟨hno,hgroups,k,f,hlink,hf,hallows⟩
    · rintro (⟨k,f,hlink,hf,-⟩|⟨-,hgroups,k,f,hlink,hf,hallows⟩)
      · exact absurd hf (hno k f hlink)
      · exact ⟨k,hlink,.inr ⟨fun g => hno k g hlink,hgroups,f,hf,hallows⟩⟩

section Samples

/-- A member with a direct grant on one collection of a cipher and a grant
through a group on the other. -/
def sharedTables (direct : Flags) : Tables := {Tables.none with
  users := [.new 1 1 [] 600000 "ann@safe.example".toList none]
  organizations := [⟨2⟩]
  members := [{Membership.new 3 1 2 none with status := Confirmed}]
  collections := [⟨4,2⟩,⟨5,2⟩]
  usersCollections := [⟨1,4,direct⟩]
  groups := [⟨6,2,false,none⟩]
  groupsUsers := [⟨6,3⟩]
  collectionsGroups := [⟨5,6,⟨false,false,false⟩⟩]
  ciphers := [{Cipher.new 7 0 1 [] with organizationUuid := some 2}]
  ciphersCollections := [⟨7,4⟩,⟨7,5⟩]
  next := 8}

/-- The direct grant is for reading only. -/
def readOnlyGrant : Database := ⟨sharedTables ⟨true,false,false⟩,by decide⟩

/-- The direct grant is unrestricted. -/
def writableGrant : Database := ⟨sharedTables ⟨false,false,false⟩,by decide⟩

/-- The cipher. -/
def sharedCipher : Cipher := {Cipher.new 7 0 1 [] with organizationUuid := some 2}

/-- The sync says that the cipher is writable, and the write endpoints refuse
to write it. -/
theorem sync_more_permissive : OrgConsistent readOnlyGrant.toTables ∧
    sharedCipher∈Cipher.findByUserVisible ⟨true⟩ readOnlyGrant.toTables 1 ∧
    Cipher.getAccessRestrictions ⟨true⟩ readOnlyGrant.toTables sharedCipher 1
      (some (CipherSyncData.new ⟨true⟩ readOnlyGrant.toTables 1))=some ⟨false,false,false⟩ ∧
    Cipher.getAccessRestrictions ⟨true⟩ readOnlyGrant.toTables sharedCipher 1 none=
      some ⟨true,false,false⟩ :=
  ⟨⟨by decide,by decide,by decide⟩,by decide,by decide,by decide⟩

theorem sync_restrictions_eq_writable : Cipher.getAccessRestrictions ⟨true⟩ writableGrant.toTables
      sharedCipher 1 (some (CipherSyncData.new ⟨true⟩ writableGrant.toTables 1))=
    Cipher.getAccessRestrictions ⟨true⟩ writableGrant.toTables sharedCipher 1 none ↔
    ¬GroupsAllowMore ⟨true⟩ writableGrant.toTables sharedCipher 1 :=
  sync_restrictions_eq_iff ⟨by decide,by decide,by decide⟩ (by decide)

end Samples

end NadSafe.SyncAgreement
