import NadSafe.ServerTables
import Mathlib.Data.List.Dedup
import Mathlib.Logic.Function.Basic

/-!
# Who may read a cipher or a collection

The queries that decide about access, join by join as the server sends them,
and the maps that one sync builds from a few larger queries. Every decision
is made in two ways: for one row by a query of its own, and for a whole sync
from these maps.
-/

namespace NadSafe.AccessQueries

open HostText TableRows ServerTables

/-- Settings that the queries depend on. -/
structure Config where
  /-- `org_groups_enabled`. -/
  orgGroupsEnabled : Bool

/-- `Membership::find_confirmed_by_user_and_org`. -/
def Membership.findConfirmedByUserAndOrg (t : Tables) (user org : Uuid) : Option Membership :=
  t.members.find? fun m => m.userUuid=user ∧ m.orgUuid=org ∧ m.status=Confirmed

/-- `Membership::find_confirmed_by_user`. -/
def Membership.findConfirmedByUser (t : Tables) (user : Uuid) : List Membership :=
  t.members.filter fun m => m.userUuid=user ∧ m.status=Confirmed

/-- `Group::get_orgs_by_user_with_full_access`. -/
def Group.getOrgsByUserWithFullAccess (t : Tables) (user : Uuid) : List Uuid :=
  let members := innerJoin t.groupsUsers t.members fun gu m => m.uuid=gu.usersOrganizationsUuid
  let rows := innerJoin members t.groups fun (gu,m) g =>
    g.uuid=gu.groupsUuid ∧ g.organizationsUuid=m.orgUuid
  ((rows.filter fun ((_,m),g) => m.userUuid=user ∧ g.accessAll=true).map
    fun (_,g) => g.organizationsUuid).dedup

/-- `Group::is_in_full_access_group`. -/
def Group.isInFullAccessGroup (t : Tables) (user org : Uuid) : Bool :=
  let users := innerJoin t.groups t.groupsUsers fun g gu => gu.groupsUuid=g.uuid
  let rows := innerJoin users t.members fun (_,gu) m => m.uuid=gu.usersOrganizationsUuid
  rows.any fun ((g,_),m) => m.userUuid=user ∧ g.organizationsUuid=org ∧ g.accessAll=true

/-- `CollectionGroup::find_by_user`. -/
def CollectionGroup.findByUser (t : Tables) (user : Uuid) : List CollectionGroup :=
  let users := innerJoin t.collectionsGroups t.groupsUsers fun cg gu => gu.groupsUuid=cg.groupsUuid
  let members := innerJoin users t.members fun (_,gu) m => m.uuid=gu.usersOrganizationsUuid
  let groups := innerJoin members t.groups fun ((cg,_),m) g =>
    g.uuid=cg.groupsUuid ∧ g.organizationsUuid=m.orgUuid
  let rows := innerJoin groups t.collections fun (((cg,_),_),g) c =>
    c.uuid=cg.collectionsUuid ∧ c.orgUuid=g.organizationsUuid
  (rows.filter fun (((_,m),_),_) => m.userUuid=user).map fun ((((cg,_),_),_),_) => cg

/-- `CollectionUser::find_by_user`. -/
def CollectionUser.findByUser (t : Tables) (user : Uuid) : List CollectionUser :=
  t.usersCollections.filter fun r => r.userUuid=user

/-- `Cipher::get_collections_with_cipher_by_user`. -/
def Cipher.getCollectionsWithCipherByUser (t : Tables) (user : Uuid) : List (Uuid×Uuid) :=
  let collections := innerJoin t.ciphersCollections t.collections fun cc c => c.uuid=cc.collectionUuid
  let members := innerJoin collections t.members fun (_,c) m => m.orgUuid=c.orgUuid ∧ m.userUuid=user
  let grants := leftJoin members t.usersCollections fun ((cc,_),_) uc =>
    uc.collectionUuid=cc.collectionUuid ∧ uc.userUuid=user
  let users := leftJoin grants t.groupsUsers fun ((_,m),_) gu => gu.usersOrganizationsUuid=m.uuid
  let groups := leftJoin users t.groups fun (((_,m),_),gu) g =>
    gu.any (fun gu => g.uuid=gu.groupsUuid) && decide (g.organizationsUuid=m.orgUuid)
  let rows := leftJoin groups t.collectionsGroups fun (((((cc,_),_),_),_),g) cg =>
    decide (cg.collectionsUuid=cc.collectionUuid) && g.any fun g => cg.groupsUuid=g.uuid
  ((rows.filter fun ((((((_,_),m),uc),_),g),cg) =>
    uc.any (fun uc => uc.userUuid=user) || m.accessAll || decide (m.atype.code≤MembershipType.admin.code) ||
      g.any (fun g => g.accessAll) || cg.isSome).map
    fun ((((((cc,_),_),_),_),_),_) => (cc.cipherUuid,cc.collectionUuid)).dedup

/-- The flags of two grants that hold together: each restriction only where
both have it. -/
def Flags.merge (a b : Flags) : Flags :=
  ⟨a.readOnly && b.readOnly,a.hidePasswords && b.hidePasswords,a.manage || b.manage⟩

/-- The flags of a list of grants. -/
def Flags.combine (rows : List Flags) : Flags := rows.foldl Flags.merge ⟨true,true,false⟩

/-- `CipherSyncData`, without what decides nothing about access. -/
structure CipherSyncData where
  /-- Collections of a cipher. -/
  cipherCollections : Uuid → List Uuid
  /-- Memberships by organisation. -/
  members : Uuid → Option Membership
  /-- Direct grants by collection. -/
  userCollections : Uuid → Option CollectionUser
  /-- Grants through groups by collection. -/
  userCollectionsGroups : Uuid → Option CollectionGroup
  /-- Organisations with full access through a group. -/
  userGroupFullAccessForOrganizations : List Uuid

/-- A grant through one more group. -/
def combinePermissions (combined : Uuid → Option CollectionGroup) (cg : CollectionGroup) :
    Uuid → Option CollectionGroup :=
  Function.update combined cg.collectionsUuid (some (match combined cg.collectionsUuid with
    | some existing => {existing with flags := Flags.merge existing.flags cg.flags}
    | none => cg))

/-- `CipherSyncData::new`. -/
def CipherSyncData.new (config : Config) (t : Tables) (user : Uuid) : CipherSyncData where
  cipherCollections cipher :=
    ((Cipher.getCollectionsWithCipherByUser t user).filter fun r => r.1=cipher).map Prod.snd
  members := collectMap ((Membership.findConfirmedByUser t user).map fun m => (m.orgUuid,m))
  userCollections := collectMap ((CollectionUser.findByUser t user).map fun r => (r.collectionUuid,r))
  userCollectionsGroups :=
    if config.orgGroupsEnabled=true then
      (CollectionGroup.findByUser t user).foldl combinePermissions fun _ => none
    else fun _ => none
  userGroupFullAccessForOrganizations :=
    if config.orgGroupsEnabled=true then Group.getOrgsByUserWithFullAccess t user else []

/-- `Cipher::is_owned_by_user`. -/
def Cipher.isOwnedByUser (c : Cipher) (user : Uuid) : Bool := c.userUuid=some user

/-- `Cipher::is_in_full_access_org`. -/
def Cipher.isInFullAccessOrg (t : Tables) (c : Cipher) (user : Uuid) (sync : Option CipherSyncData) :
    Bool :=
  match c.organizationUuid with
  | none => false
  | some org =>
    match sync with
    | some data => (data.members org).any Membership.hasFullAccess
    | none => (Membership.findConfirmedByUserAndOrg t user org).any Membership.hasFullAccess

/-- `Cipher::is_in_full_access_group`. -/
def Cipher.isInFullAccessGroup (config : Config) (t : Tables) (c : Cipher) (user : Uuid)
    (sync : Option CipherSyncData) : Bool :=
  if config.orgGroupsEnabled=true then
    match c.organizationUuid with
    | none => false
    | some org =>
      match sync with
      | some data => decide (org∈data.userGroupFullAccessForOrganizations)
      | none => Group.isInFullAccessGroup t user org
  else false

/-- `Cipher::get_user_collections_access_flags`. -/
def Cipher.getUserCollectionsAccessFlags (t : Tables) (c : Cipher) (user : Uuid) : List Flags :=
  let links := innerJoin (t.ciphers.filter fun r => r.uuid=c.uuid) t.ciphersCollections
    fun r cc => r.uuid=cc.cipherUuid
  let rows := innerJoin links t.usersCollections fun (_,cc) uc =>
    cc.collectionUuid=uc.collectionUuid ∧ uc.userUuid=user
  rows.map fun (_,uc) => uc.flags

/-- `Cipher::get_group_collections_access_flags`. -/
def Cipher.getGroupCollectionsAccessFlags (config : Config) (t : Tables) (c : Cipher) (user : Uuid) :
    List Flags :=
  if config.orgGroupsEnabled=true then
    let links := innerJoin (t.ciphers.filter fun r => r.uuid=c.uuid) t.ciphersCollections
      fun r cc => r.uuid=cc.cipherUuid
    let grants := innerJoin links t.collectionsGroups fun (_,cc) cg =>
      cg.collectionsUuid=cc.collectionUuid
    let users := innerJoin grants t.groupsUsers fun (_,cg) gu => gu.groupsUuid=cg.groupsUuid
    let members := innerJoin users t.members fun (_,gu) m => m.uuid=gu.usersOrganizationsUuid
    let rows := innerJoin members t.groups fun (((_,cg),_),m) g =>
      g.uuid=cg.groupsUuid ∧ g.organizationsUuid=m.orgUuid
    (rows.filter fun ((_,m),_) => m.userUuid=user).map fun ((((_,cg),_),_),_) => cg.flags
  else []

/-- The rows that a sync looks at, collection by collection: the direct grant,
or else the grant through groups. -/
def Cipher.syncedFlags (c : Cipher) (data : CipherSyncData) : List Flags :=
  (data.cipherCollections c.uuid).filterMap fun collection =>
    match data.userCollections collection with
    | some cu => some cu.flags
    | none => (data.userCollectionsGroups collection).map fun cg => cg.flags

/-- The rows that a single read looks at: all direct grants, or else all
grants through groups. -/
def Cipher.directFlags (config : Config) (t : Tables) (c : Cipher) (user : Uuid) : List Flags :=
  if Cipher.getUserCollectionsAccessFlags t c user=[] then
    Cipher.getGroupCollectionsAccessFlags config t c user
  else Cipher.getUserCollectionsAccessFlags t c user

/-- `Cipher::get_access_restrictions`. -/
def Cipher.getAccessRestrictions (config : Config) (t : Tables) (c : Cipher) (user : Uuid)
    (sync : Option CipherSyncData) : Option Flags :=
  if (Cipher.isOwnedByUser c user || Cipher.isInFullAccessOrg t c user sync ||
      Cipher.isInFullAccessGroup config t c user sync)=true then some ⟨false,false,true⟩
  else
    let rows := match sync with
      | some data => Cipher.syncedFlags c data
      | none => Cipher.directFlags config t c user
    if rows=[] then none else some (Flags.combine rows)

/-- `Cipher::is_accessible_to_user`. -/
def Cipher.isAccessibleToUser (config : Config) (t : Tables) (c : Cipher) (user : Uuid) : Bool :=
  (Cipher.getAccessRestrictions config t c user none).isSome

/-- `Cipher::find_by_user`. -/
def Cipher.findByUser (config : Config) (t : Tables) (user : Uuid) (visibleOnly : Bool)
    (cipherUuids : List Uuid) : List Cipher :=
  let links := leftJoin t.ciphers t.ciphersCollections fun c cc => c.uuid=cc.cipherUuid
  let members := leftJoin links t.members fun (c,_) m =>
    c.organizationUuid=some m.orgUuid ∧ m.userUuid=user ∧ m.status=Confirmed
  -- no grant is joined for members that are not confirmed
  let grants := leftJoin members t.usersCollections fun ((_,cc),m) uc =>
    cc.any (fun cc => cc.collectionUuid=uc.collectionUuid) && m.any fun m => m.userUuid=uc.userUuid
  let wanted (c : Cipher) : Bool := cipherUuids.isEmpty || decide (c.uuid∈cipherUuids)
  let admin (m : Option Membership) : Bool :=
    !visibleOnly && m.any fun m => m.atype.code≤MembershipType.admin.code
  if config.orgGroupsEnabled=true then
    let users := leftJoin grants t.groupsUsers fun ((_,m),_) gu =>
      m.any fun m => gu.usersOrganizationsUuid=m.uuid
    let groups := leftJoin users t.groups fun (((_,m),_),gu) g =>
      gu.any (fun gu => g.uuid=gu.groupsUuid) && m.any fun m => g.organizationsUuid=m.orgUuid
    let rows := leftJoin groups t.collectionsGroups fun (((((_,cc),_),_),_),g) cg =>
      cc.any (fun cc => cg.collectionsUuid=cc.collectionUuid) && g.any fun g => cg.groupsUuid=g.uuid
    ((rows.filter fun ((((((c,_),m),uc),_),g),cg) =>
      (decide (c.userUuid=some user) || m.any (fun m => m.accessAll) ||
        uc.any (fun uc => uc.userUuid=user) || g.any (fun g => g.accessAll) || cg.isSome || admin m) &&
      wanted c).map fun ((((((c,_),_),_),_),_),_) => c).dedup
  else
    ((grants.filter fun (((c,_),m),uc) =>
      (decide (c.userUuid=some user) || m.any (fun m => m.accessAll) ||
        uc.any (fun uc => uc.userUuid=user) || admin m) && wanted c).map fun (((c,_),_),_) => c).dedup

/-- `Cipher::find_by_user_visible`. -/
def Cipher.findByUserVisible (config : Config) (t : Tables) (user : Uuid) : List Cipher :=
  Cipher.findByUser config t user true []

section Lookups

variable {db : Database} {user org : Uuid} {m : Membership}

theorem any_eq_true_iff {α : Type} {p : α → Bool} {o : Option α} :
    o.any p=true ↔ ∃ a,o=some a ∧ p a=true := by
  cases o with
  | none => simp
  | some a => simp

/-- Full access is for confirmed members. -/
theorem confirmed_of_fullAccess (h : m.hasFullAccess=true) : m.status=Confirmed := by
  unfold ServerTables.Membership.hasFullAccess at h
  exact of_decide_eq_true (Bool.and_eq_true_iff.mp h).2

/-- The confirmed membership that a lookup finds. -/
theorem findConfirmed_eq_some_iff :
    Membership.findConfirmedByUserAndOrg db.toTables user org=some m ↔
      m∈db.members ∧ m.userUuid=user ∧ m.orgUuid=org ∧ m.status=Confirmed := by
  have hrow {m' : Membership}
      (h : Membership.findConfirmedByUserAndOrg db.toTables user org=some m') :
      m'∈db.members ∧ m'.userUuid=user ∧ m'.orgUuid=org ∧ m'.status=Confirmed :=
    ⟨List.mem_of_find?_eq_some h,by simpa using List.find?_some h⟩
  refine ⟨hrow,fun ⟨hm,huser,horg,hstatus⟩ => ?_⟩
  cases hfound : Membership.findConfirmedByUserAndOrg db.toTables user org with
  | none =>
    have hnot := List.find?_eq_none.mp hfound m hm
    simp [huser,horg,hstatus] at hnot
  | some m' =>
    obtain ⟨hm',huser',horg',-⟩ := hrow hfound
    have hkey : (m'.userUuid,m'.orgUuid)=(m.userUuid,m.orgUuid) := by
      rw [huser,horg,huser',horg']
    rw [eq_of_key db.membership_nodup hm' hm hkey]

end Lookups

/-- A collection of the cipher. -/
def InCollection (t : Tables) (c : Cipher) (collection : Uuid) : Prop :=
  (⟨c.uuid,collection⟩ : CollectionCipher)∈t.ciphersCollections

/-- A direct grant on a collection. -/
def DirectGrant (t : Tables) (user collection : Uuid) (f : Flags) : Prop :=
  (⟨user,collection,f⟩ : CollectionUser)∈t.usersCollections

section Lists

variable {config : Config} {t : Tables} {user : Uuid} {c : Cipher} {visibleOnly : Bool}

/-- A confirmed member sees a cipher of the organisation without a group. -/
def SeesDirectly (t : Tables) (c : Cipher) (visibleOnly : Bool) (m : Membership) : Prop :=
  m.accessAll=true ∨ (visibleOnly=false ∧ m.atype.code≤MembershipType.admin.code) ∨
  ∃ k f,InCollection t c k ∧ DirectGrant t m.userUuid k f

/-- A member sees a cipher of the organisation through a group. -/
def SeesByGroup (t : Tables) (c : Cipher) (m : Membership) : Prop :=
  ∃ gu∈t.groupsUsers,gu.usersOrganizationsUuid=m.uuid ∧
    ∃ g∈t.groups,g.uuid=gu.groupsUuid ∧ g.organizationsUuid=m.orgUuid ∧
      (g.accessAll=true ∨
        ∃ k f,InCollection t c k ∧ (⟨k,g.uuid,f⟩ : CollectionGroup)∈t.collectionsGroups)

/-- A joined direct grant. -/
theorem grant_of_partner {m : Membership} {cc : Option CollectionCipher} {uc : Option CollectionUser}
    (hcc : cc∈partners t.ciphersCollections fun cc => c.uuid=cc.cipherUuid)
    (huc : uc∈partners t.usersCollections fun uc =>
      cc.any (fun cc => cc.collectionUuid=uc.collectionUuid) && decide (m.userUuid=uc.userUuid))
    (h : uc.isSome=true) : ∃ k f,InCollection t c k ∧ DirectGrant t m.userUuid k f := by
  obtain ⟨uc,rfl⟩ := Option.isSome_iff_exists.mp h
  obtain ⟨hrow,hon⟩ := some_mem_partners.mp huc
  rw [Bool.and_eq_true,any_eq_true_iff,decide_eq_true_eq] at hon
  obtain ⟨⟨cc,rfl,hcoll⟩,huser⟩ := hon
  obtain ⟨hlink,hcipher⟩ := some_mem_partners.mp hcc
  refine ⟨cc.collectionUuid,uc.flags,?_,?_⟩
  · rw [InCollection,of_decide_eq_true hcipher]
    exact hlink
  · rw [DirectGrant,huser,of_decide_eq_true hcoll]
    exact hrow

/-- A direct grant is joined. -/
theorem partner_of_grant {m : Membership} {k : Uuid} {f : Flags} (hlink : InCollection t c k)
    (hgrant : DirectGrant t m.userUuid k f) :
    ∃ cc∈partners t.ciphersCollections fun cc => c.uuid=cc.cipherUuid,
      (some ⟨m.userUuid,k,f⟩ : Option CollectionUser)∈partners t.usersCollections fun uc =>
        cc.any (fun cc => cc.collectionUuid=uc.collectionUuid) && decide (m.userUuid=uc.userUuid) :=
  ⟨some ⟨c.uuid,k⟩,some_mem_partners.mpr ⟨hlink,by simp⟩,some_mem_partners.mpr ⟨hgrant,by simp⟩⟩

/-- A joined group. -/
theorem group_of_partner {m : Membership} {gu : Option GroupUser} {g : Group}
    (hgu : gu∈partners t.groupsUsers fun gu => gu.usersOrganizationsUuid=m.uuid)
    (hg : some g∈partners t.groups fun g =>
      gu.any (fun gu => g.uuid=gu.groupsUuid) && decide (g.organizationsUuid=m.orgUuid)) :
    ∃ gu∈t.groupsUsers,gu.usersOrganizationsUuid=m.uuid ∧ g∈t.groups ∧ g.uuid=gu.groupsUuid ∧
      g.organizationsUuid=m.orgUuid := by
  obtain ⟨hrow,hon⟩ := some_mem_partners.mp hg
  rw [Bool.and_eq_true,any_eq_true_iff,decide_eq_true_eq] at hon
  obtain ⟨⟨gu,rfl,hgroup⟩,horg⟩ := hon
  obtain ⟨huser,hmember⟩ := some_mem_partners.mp hgu
  exact ⟨gu,huser,of_decide_eq_true hmember,hrow,of_decide_eq_true hgroup,horg⟩

/-- A joined grant of a group. -/
theorem groupGrant_of_partner {cc : Option CollectionCipher} {g : Option Group} {cg : CollectionGroup}
    (hcc : cc∈partners t.ciphersCollections fun cc => c.uuid=cc.cipherUuid)
    (hcg : some cg∈partners t.collectionsGroups fun cg =>
      cc.any (fun cc => cg.collectionsUuid=cc.collectionUuid) && g.any fun g => cg.groupsUuid=g.uuid) :
    ∃ g',g=some g' ∧ ∃ k f,InCollection t c k ∧ (⟨k,g'.uuid,f⟩ : CollectionGroup)∈t.collectionsGroups := by
  obtain ⟨hrow,hon⟩ := some_mem_partners.mp hcg
  rw [Bool.and_eq_true,any_eq_true_iff,any_eq_true_iff] at hon
  obtain ⟨⟨cc,rfl,hcoll⟩,g',rfl,hgroup⟩ := hon
  obtain ⟨hlink,hcipher⟩ := some_mem_partners.mp hcc
  refine ⟨g',rfl,cc.collectionUuid,cg.flags,?_,?_⟩
  · rw [InCollection,of_decide_eq_true hcipher]
    exact hlink
  · rw [← of_decide_eq_true hcoll,← of_decide_eq_true hgroup]
    exact hrow

/-- The joins without groups. -/
theorem exists_base {admin : Option Membership → Bool}
    (hadmin : ∀ m,admin m=(!visibleOnly && m.any fun m => m.atype.code≤MembershipType.admin.code)) :
    (∃ cc∈partners t.ciphersCollections fun cc => c.uuid=cc.cipherUuid,
      ∃ m∈partners t.members fun m => c.organizationUuid=some m.orgUuid ∧ m.userUuid=user ∧
        m.status=Confirmed,
      ∃ uc∈partners t.usersCollections fun uc =>
        cc.any (fun cc => cc.collectionUuid=uc.collectionUuid) && m.any fun m => m.userUuid=uc.userUuid,
        ((c.userUuid=some user ∨ m.any (fun m => m.accessAll)=true) ∨
          uc.any (fun uc => uc.userUuid=user)=true) ∨ admin m=true) ↔
    c.userUuid=some user ∨ ∃ m∈t.members,c.organizationUuid=some m.orgUuid ∧ m.userUuid=user ∧
      m.status=Confirmed ∧ SeesDirectly t c visibleOnly m := by
  constructor
  · rintro ⟨cc,hcc,m,hm,uc,huc,hkeep⟩
    cases m with
    | none =>
      cases none_of_partners huc fun _ => by simp
      exact .inl (by simpa [hadmin] using hkeep)
    | some m =>
      obtain ⟨hrow,hon⟩ := some_mem_partners.mp hm
      obtain ⟨horg,huser,hstatus⟩ := of_decide_eq_true hon
      rcases hkeep with ((howner|hall)|hgrant)|hrole
      · exact .inl howner
      · exact .inr ⟨m,hrow,horg,huser,hstatus,.inl hall⟩
      · have hsome : uc.isSome=true := by
          obtain ⟨uc,rfl,-⟩ := (any_eq_true_iff).mp hgrant
          rfl
        exact .inr ⟨m,hrow,horg,huser,hstatus,.inr (.inr (grant_of_partner hcc huc hsome))⟩
      · rw [hadmin] at hrole
        exact .inr ⟨m,hrow,horg,huser,hstatus,.inr (.inl (by simpa using hrole))⟩
  · obtain ⟨cc,hcc⟩ := exists_partner t.ciphersCollections fun cc => c.uuid=cc.cipherUuid
    rintro (howner|⟨m,hm,horg,huser,hstatus,hsees⟩)
    · obtain ⟨m,hm⟩ := exists_partner t.members fun m => c.organizationUuid=some m.orgUuid ∧
        m.userUuid=user ∧ m.status=Confirmed
      obtain ⟨uc,huc⟩ := exists_partner t.usersCollections fun uc =>
        cc.any (fun cc => cc.collectionUuid=uc.collectionUuid) && m.any fun m => m.userUuid=uc.userUuid
      exact ⟨cc,hcc,m,hm,uc,huc,.inl (.inl (.inl howner))⟩
    · have hjoined : some m∈partners t.members fun m => c.organizationUuid=some m.orgUuid ∧
          m.userUuid=user ∧ m.status=Confirmed :=
        some_mem_partners.mpr ⟨hm,decide_eq_true ⟨horg,huser,hstatus⟩⟩
      obtain ⟨uc,huc⟩ := exists_partner t.usersCollections fun uc =>
        cc.any (fun cc => cc.collectionUuid=uc.collectionUuid) && decide (m.userUuid=uc.userUuid)
      rcases hsees with hall|hrole|⟨k,f,hlink,hgrant⟩
      · exact ⟨cc,hcc,some m,hjoined,uc,huc,.inl (.inl (.inr hall))⟩
      · have hcode : admin (some m)=true := by
          rw [hadmin]
          simpa using hrole
        exact ⟨cc,hcc,some m,hjoined,uc,huc,.inr hcode⟩
      · obtain ⟨cc,hcc,huc⟩ := partner_of_grant hlink hgrant
        exact ⟨cc,hcc,some m,hjoined,_,huc,.inl (.inr (by simpa using huser))⟩

/-- The joins with groups. -/
theorem exists_grouped (m : Option Membership) {c : Cipher} :
    (∃ cc∈partners t.ciphersCollections fun cc => c.uuid=cc.cipherUuid,
      ∃ gu∈partners t.groupsUsers fun gu => m.any fun m => gu.usersOrganizationsUuid=m.uuid,
      ∃ g∈partners t.groups fun g =>
        gu.any (fun gu => g.uuid=gu.groupsUuid) && m.any fun m => g.organizationsUuid=m.orgUuid,
      ∃ cg∈partners t.collectionsGroups fun cg =>
        cc.any (fun cc => cg.collectionsUuid=cc.collectionUuid) && g.any fun g => cg.groupsUuid=g.uuid,
        g.any (fun g => g.accessAll)=true ∨ cg.isSome=true) ↔ ∃ m',m=some m' ∧ SeesByGroup t c m' := by
  constructor
  · rintro ⟨cc,hcc,gu,hgu,g,hg,cg,hcg,hkeep⟩
    have hgroup : ∃ g',g=some g' ∧ (g'.accessAll=true ∨
        ∃ k f,InCollection t c k ∧ (⟨k,g'.uuid,f⟩ : CollectionGroup)∈t.collectionsGroups) := by
      rcases hkeep with hall|hcoll
      · obtain ⟨g,rfl,hall⟩ := (any_eq_true_iff).mp hall
        exact ⟨g,rfl,.inl hall⟩
      · obtain ⟨cg,rfl⟩ := Option.isSome_iff_exists.mp hcoll
        obtain ⟨g,rfl,hgrant⟩ := groupGrant_of_partner hcc hcg
        exact ⟨g,rfl,.inr hgrant⟩
    obtain ⟨g,rfl,hsees⟩ := hgroup
    cases m with
    | none => cases none_of_partners hg fun _ => by simp
    | some m =>
      obtain ⟨gu,hgu,hmember,hg,hgroup,horg⟩ := group_of_partner hgu hg
      exact ⟨m,rfl,gu,hgu,hmember,g,hg,hgroup,horg,hsees⟩
  · rintro ⟨m,rfl,gu,hgu,hmember,g,hg,hgroup,horg,hsees⟩
    have huser : some gu∈partners t.groupsUsers fun gu => gu.usersOrganizationsUuid=m.uuid :=
      some_mem_partners.mpr ⟨hgu,decide_eq_true hmember⟩
    have hjoined : some g∈partners t.groups fun g =>
        (some gu).any (fun gu => g.uuid=gu.groupsUuid) && decide (g.organizationsUuid=m.orgUuid) :=
      some_mem_partners.mpr ⟨hg,by simp [hgroup,horg]⟩
    rcases hsees with hall|⟨k,f,hlink,hgrant⟩
    · obtain ⟨cc,hcc⟩ := exists_partner t.ciphersCollections fun cc => c.uuid=cc.cipherUuid
      obtain ⟨cg,hcg⟩ := exists_partner t.collectionsGroups fun cg =>
        cc.any (fun cc => cg.collectionsUuid=cc.collectionUuid) && decide (cg.groupsUuid=g.uuid)
      exact ⟨cc,hcc,some gu,huser,some g,hjoined,cg,hcg,.inl hall⟩
    · exact ⟨some _,some_mem_partners.mpr ⟨hlink,by simp⟩,some gu,huser,some g,hjoined,some _,
        some_mem_partners.mpr ⟨hgrant,by simp⟩,.inr rfl⟩

/-- The ciphers of a user. -/
theorem mem_findByUser : c∈Cipher.findByUser config t user visibleOnly [] ↔ c∈t.ciphers ∧
    (c.userUuid=some user ∨ ∃ m∈t.members,c.organizationUuid=some m.orgUuid ∧ m.userUuid=user ∧
      m.status=Confirmed ∧ (SeesDirectly t c visibleOnly m ∨
        config.orgGroupsEnabled=true ∧ SeesByGroup t c m)) := by
  have hbase := @exists_base t user c visibleOnly _ fun _ => rfl
  have hsplit {A B D E F : Prop} : (((A ∨ B) ∨ D) ∨ E) ∨ F ↔ ((A ∨ B) ∨ F) ∨ D ∨ E := by
    grind
  unfold Cipher.findByUser
  by_cases hgroups : config.orgGroupsEnabled=true
  · simp only [hgroups,if_true,List.mem_dedup,List.mem_map,List.mem_filter,and_assoc,exists_leftJoin,
      Bool.and_eq_true,Bool.or_eq_true,decide_eq_true_eq,List.isEmpty_nil,true_or,true_and]
    constructor
    · rintro ⟨c',hc,cc,hcc,m,hm,uc,huc,gu,hgu,g,hg,cg,hcg,hkeep,rfl⟩
      refine ⟨hc,?_⟩
      rcases hsplit.mp hkeep with hkeep|hkeep
      · have hrow := hbase.mp ⟨cc,hcc,m,hm,uc,huc,by rwa [Bool.and_eq_true]⟩
        rcases hrow with howner|⟨m,hm,horg,huser,hstatus,hsees⟩
        · exact .inl howner
        · exact .inr ⟨m,hm,horg,huser,hstatus,.inl hsees⟩
      · obtain ⟨m,rfl,hsees⟩ := (exists_grouped m).mp ⟨cc,hcc,gu,hgu,g,hg,cg,hcg,hkeep⟩
        obtain ⟨hrow,hon⟩ := some_mem_partners.mp hm
        obtain ⟨horg,huser,hstatus⟩ := of_decide_eq_true hon
        exact .inr ⟨m,hrow,horg,huser,hstatus,.inr hsees⟩
    · rintro ⟨hc,hrow⟩
      have hways : (c.userUuid=some user ∨ ∃ m∈t.members,c.organizationUuid=some m.orgUuid ∧
          m.userUuid=user ∧ m.status=Confirmed ∧ SeesDirectly t c visibleOnly m) ∨
          ∃ m∈t.members,c.organizationUuid=some m.orgUuid ∧ m.userUuid=user ∧ m.status=Confirmed ∧
            SeesByGroup t c m := by
        rcases hrow with howner|⟨m,hm,horg,huser,hstatus,hsees|hsees⟩
        · exact .inl (.inl howner)
        · exact .inl (.inr ⟨m,hm,horg,huser,hstatus,hsees⟩)
        · exact .inr ⟨m,hm,horg,huser,hstatus,hsees⟩
      rcases hways with hrow|⟨m,hm,horg,huser,hstatus,hsees⟩
      · obtain ⟨cc,hcc,m,hm,uc,huc,hkeep⟩ := hbase.mpr hrow
        rw [Bool.and_eq_true] at hkeep
        obtain ⟨gu,hgu⟩ := exists_partner t.groupsUsers fun gu =>
          m.any fun m => gu.usersOrganizationsUuid=m.uuid
        obtain ⟨g,hg⟩ := exists_partner t.groups fun g => gu.any (fun gu => g.uuid=gu.groupsUuid) &&
          m.any fun m => g.organizationsUuid=m.orgUuid
        obtain ⟨cg,hcg⟩ := exists_partner t.collectionsGroups fun cg =>
          cc.any (fun cc => cg.collectionsUuid=cc.collectionUuid) && g.any fun g => cg.groupsUuid=g.uuid
        exact ⟨c,hc,cc,hcc,m,hm,uc,huc,gu,hgu,g,hg,cg,hcg,hsplit.mpr (.inl hkeep),rfl⟩
      · obtain ⟨cc,hcc,gu,hgu,g,hg,cg,hcg,hkeep⟩ := (exists_grouped (some m)).mpr ⟨m,rfl,hsees⟩
        obtain ⟨uc,huc⟩ := exists_partner t.usersCollections fun uc =>
          cc.any (fun cc => cc.collectionUuid=uc.collectionUuid) &&
            (some m).any fun m => m.userUuid=uc.userUuid
        have hjoined : some m∈partners t.members fun m => c.organizationUuid=some m.orgUuid ∧
            m.userUuid=user ∧ m.status=Confirmed :=
          some_mem_partners.mpr ⟨hm,decide_eq_true ⟨horg,huser,hstatus⟩⟩
        exact ⟨c,hc,cc,hcc,some m,hjoined,uc,huc,gu,hgu,g,hg,cg,hcg,hsplit.mpr (.inr hkeep),rfl⟩
  · have hoff : config.orgGroupsEnabled=false := Bool.eq_false_iff.mpr hgroups
    simp only [hoff,Bool.false_eq_true,if_false,List.mem_dedup,List.mem_map,List.mem_filter,and_assoc,
      exists_leftJoin,Bool.and_eq_true,Bool.or_eq_true,decide_eq_true_eq,List.isEmpty_nil,true_or,true_and,
      false_and,or_false]
    simp only [Bool.and_eq_true] at hbase
    rw [← hbase]
    constructor
    · rintro ⟨c',hc,cc,hcc,m,hm,uc,huc,hkeep,rfl⟩
      exact ⟨hc,cc,hcc,m,hm,uc,huc,hkeep⟩
    · rintro ⟨hc,cc,hcc,m,hm,uc,huc,hkeep⟩
      exact ⟨c,hc,cc,hcc,m,hm,uc,huc,hkeep,rfl⟩

end Lists

end NadSafe.AccessQueries
