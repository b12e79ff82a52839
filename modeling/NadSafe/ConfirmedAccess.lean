import NadSafe.GroupIsolation

/-!
# Access to a cipher is for confirmed members

The single check and the list query agree in every state that requests to
organisation endpoints reach, and both are for confirmed members only, as
long as nobody else is given a grant or a place in a group and nobody is
revoked while he has one. The list query joins confirmed memberships only,
the single check does not look at them.
-/

namespace NadSafe.ConfirmedAccess

open HostText TableRows AsyncScript ServerTables AccessQueries SyncAgreement CollectionFlags StoreScript
open ServerModels OrgHandlers OrgIsolation OrgRequests GroupIsolation SequentialScript StepRuns

/-- The two ways to find out about access to ciphers of organisations agree,
and access is for confirmed members. -/
def AccessAgrees (t : Tables) : Prop :=
  ∀ (config : Config) (user org : Uuid),∀ c∈t.ciphers,c.organizationUuid=some org →
    (Cipher.isAccessibleToUser config t c user=true ↔ c∈Cipher.findByUser config t user false []) ∧
    (Cipher.isAccessibleToUser config t c user=true →
      ∃ m∈t.members,m.userUuid=user ∧ m.orgUuid=org ∧ m.status=Confirmed)

section Queries

variable {config : Config} {db : Database} {c : Cipher} {user org : Uuid} {m : Membership}

/-- The ways to access a cipher. -/
theorem accessible_iff (hdb : OrgConsistent db.toTables) (hc : c∈db.ciphers) :
    Cipher.isAccessibleToUser config db.toTables c user=true ↔
      HasFullAccess config db.toTables c user ∨
      (∃ k f,InCollection db.toTables c k ∧ DirectGrant db.toTables user k f) ∨
      config.orgGroupsEnabled=true ∧
        ∃ k f,InCollection db.toTables c k ∧ GroupGrant db.toTables user k f := by
  have hrows : Cipher.directFlags config db.toTables c user≠[] ↔
      (∃ k f,InCollection db.toTables c k ∧ DirectGrant db.toTables user k f) ∨
      config.orgGroupsEnabled=true ∧
        ∃ k f,InCollection db.toTables c k ∧ GroupGrant db.toTables user k f := by
    have hread := @direct_allows config db c user hdb hc Right.read
    simp only [SyncAgreement.Allows,and_true] at hread
    rw [Ne,List.eq_nil_iff_forall_not_mem,not_forall_not,hread]
    constructor
    · rintro (hgrant|⟨-,hgroup⟩)
      · exact .inl hgrant
      · exact .inr hgroup
    · rintro (hgrant|hgroup)
      · exact .inl hgrant
      · by_cases hgrants : ∃ k f,InCollection db.toTables c k ∧ DirectGrant db.toTables user k f
        · exact .inl hgrants
        · exact .inr ⟨fun k f hlink hf => hgrants ⟨k,f,hlink,hf⟩,hgroup⟩
  rw [← hrows,← fullAccess_direct]
  unfold Cipher.isAccessibleToUser Cipher.getAccessRestrictions
  by_cases hfull : (Cipher.isOwnedByUser c user || Cipher.isInFullAccessOrg db.toTables c user none ||
      Cipher.isInFullAccessGroup config db.toTables c user none)=true
  · simp [hfull]
  · rw [if_neg hfull]
    by_cases hempty : Cipher.directFlags config db.toTables c user=[]
    · simp [hfull,hempty]
    · simp [hfull,hempty]

/-- Full access of a member is what the list query asks for. -/
theorem fullAccess_iff (hstatus : m.status=Confirmed) :
    m.hasFullAccess=true ↔ m.accessAll=true ∨ m.atype.code≤MembershipType.admin.code := by
  unfold ServerTables.Membership.hasFullAccess
  rw [hstatus]
  cases hall : m.accessAll with
  | true => simp
  | false =>
    cases htype : m.atype <;> decide

/-- Who sees a cipher may access it. -/
theorem accessible_of_listed (hdb : Inv true db.toTables) (horg : c.organizationUuid=some org)
    (h : c∈Cipher.findByUser config db.toTables user false []) :
    Cipher.isAccessibleToUser config db.toTables c user=true := by
  obtain ⟨hc,howner|⟨m,hm,hmorg,rfl,hstatus,hsees⟩⟩ := mem_findByUser.mp h
  · have hnone := hdb.linked.owners c hc (by rw [horg]; exact Option.some_ne_none _)
    rw [hnone] at howner
    cases howner
  rw [accessible_iff (orgConsistent_of_inv hdb) hc]
  rcases hsees with (hall|⟨-,hrole⟩|⟨k,f,hlink,hgrant⟩)|⟨hgroups,gu,hgu,hmember,g,hg,hgroup,hgorg,hway⟩
  · exact .inl (.inr (.inl ⟨m,hm,rfl,hmorg,(fullAccess_iff hstatus).mpr (.inl hall)⟩))
  · exact .inl (.inr (.inl ⟨m,hm,rfl,hmorg,(fullAccess_iff hstatus).mpr (.inr hrole)⟩))
  · exact .inr (.inl ⟨k,f,hlink,hgrant⟩)
  · rcases hway with hall|⟨k,f,hlink,hgrant⟩
    · have hcorg : c.organizationUuid=some g.organizationsUuid := hmorg.trans (congrArg some hgorg.symm)
      exact .inl (.inr (.inr ⟨hgroups,g,hg,hcorg,hall,gu,hgu,hgroup.symm,m,hm,hmember.symm,rfl⟩))
    · exact .inr (.inr ⟨hgroups,k,f,hlink,gu,hgu,hgroup ▸ hgrant,m,hm,hmember.symm,rfl⟩)

/-- Who may access a cipher is a confirmed member and sees it. -/
theorem listed_of_accessible (hdb : Inv true db.toTables) (hc : c∈db.ciphers)
    (horg : c.organizationUuid=some org)
    (h : Cipher.isAccessibleToUser config db.toTables c user=true) :
    c∈Cipher.findByUser config db.toTables user false [] ∧
      ∃ m∈db.members,m.userUuid=user ∧ m.orgUuid=org ∧ m.status=Confirmed := by
  have hlists : (∃ m∈db.members,m.userUuid=user ∧ m.orgUuid=org ∧ m.status=Confirmed ∧
      (SeesDirectly db.toTables c false m ∨
        config.orgGroupsEnabled=true ∧ SeesByGroup db.toTables c m)) := by
    have hconfirmed := hdb.confirmed rfl
    rcases (accessible_iff (orgConsistent_of_inv hdb) hc).mp h with hfull|⟨k,f,hlink,hgrant⟩|
      ⟨hgroups,k,f,hlink,gu,hgu,hgrant,m,hm,hmember,huser⟩
    · rcases hfull with howner|⟨m,hm,huser,hmorg,hfull⟩|
        ⟨hgroups,g,hg,hgorg,hall,gu,hgu,hgroup,m,hm,hmember,huser⟩
      · have hnone := hdb.linked.owners c hc (by rw [horg]; exact Option.some_ne_none _)
        rw [hnone] at howner
        cases howner
      · have hstatus := confirmed_of_fullAccess hfull
        have hmorg : m.orgUuid=org := Option.some.inj (hmorg.symm.trans horg)
        refine ⟨m,hm,huser,hmorg,hstatus,.inl ?_⟩
        rcases (fullAccess_iff hstatus).mp hfull with hall|hrole
        · exact .inl hall
        · exact .inr (.inl ⟨rfl,hrole⟩)
      · have hsame := hdb.isolated.groupsUsers gu hgu g hg hgroup.symm m hm hmember
        have hgorg : g.organizationsUuid=org := Option.some.inj (hgorg.symm.trans horg)
        exact ⟨m,hm,huser,hsame.symm.trans hgorg,hconfirmed.places gu hgu m hm hmember,
          .inr ⟨hgroups,gu,hgu,hmember.symm,g,hg,hgroup.symm,hsame,.inl hall⟩⟩
    · obtain ⟨q,hq,hqk⟩ := db.collection_of_grant hgrant
      have hcorg := hdb.linked.ciphersCollections _ hlink c hc rfl q hq hqk
      obtain ⟨m,hm,huser,hmorg,hstatus⟩ := hconfirmed.grants _ hgrant q hq hqk
      have hqorg : q.orgUuid=org := Option.some.inj (hcorg.symm.trans horg)
      exact ⟨m,hm,huser,hmorg.trans hqorg,hstatus,.inl (.inr (.inr ⟨k,f,hlink,huser ▸ hgrant⟩))⟩
    · obtain ⟨q,hq,hqk⟩ := db.collection_of_group hgrant
      obtain ⟨g,hg,hgroup⟩ := db.group_of_user hgu
      have hcorg := hdb.linked.ciphersCollections _ hlink c hc rfl q hq hqk
      have hqg := hdb.isolated.collectionsGroups _ hgrant q hq hqk g hg hgroup
      have hgm := hdb.isolated.groupsUsers gu hgu g hg hgroup m hm hmember
      have hqorg : q.orgUuid=org := Option.some.inj (hcorg.symm.trans horg)
      refine ⟨m,hm,huser,?_,hconfirmed.places gu hgu m hm hmember,
        .inr ⟨hgroups,gu,hgu,hmember.symm,g,hg,hgroup,hgm,.inr ⟨k,f,hlink,hgroup ▸ hgrant⟩⟩⟩
      rw [← hgm,← hqg,hqorg]
  obtain ⟨m,hm,huser,hmorg,hstatus,hsees⟩ := hlists
  have hcorg : c.organizationUuid=some m.orgUuid := by rw [horg,hmorg]
  exact ⟨mem_findByUser.mpr ⟨hc,.inr ⟨m,hm,hcorg,huser,hstatus,hsees⟩⟩,m,hm,huser,hmorg,hstatus⟩

/-- Both follow from the invariant. -/
theorem accessAgrees_of_inv (hdb : Inv true db.toTables) : AccessAgrees db.toTables := by
  intro config user org c hc horg
  constructor
  · exact ⟨fun h => (listed_of_accessible hdb hc horg h).1,accessible_of_listed hdb horg⟩
  · intro h
    exact (listed_of_accessible hdb hc horg h).2

end Queries

/-- What the rest of the server may do: it gives nothing, and a confirmed
member stays confirmed or loses his grants and places. -/
structure KeepsConfirmed (t t' : Tables) : Prop extends GivesNoGroup t t' where
  /-- Grants. -/
  grants : t'.usersCollections⊆t.usersCollections
  /-- Confirmed members. -/
  stay : ∀ m∈t.members,m.status=Confirmed →
    (∃ m'∈t'.members,m'.uuid=m.uuid ∧ m'.userUuid=m.userUuid ∧ m'.orgUuid=m.orgUuid ∧
      m'.status=Confirmed) ∨ Bare m t'

/-- One step of the server. -/
inductive Event where
  /-- A request to an organisation endpoint. -/
  | request (out : Outside) (r : Request)
  /-- Anything else. -/
  | elsewhere (db : Database)

/-- The database after a step. -/
def next (settings : Settings) (db : Database) : Event → Database
  | .request out r => (complete (handle settings out r) db).2
  | .elsewhere db' => db'

/-- The condition of a step. -/
def GivesConfirmed (db : Database) : Event → Prop
  | .request _ r => NamesOwnGroups db.toTables r ∧ GivesToConfirmed db.toTables r
  | .elsewhere db' => KeepsConfirmed db.toTables db'.toTables

variable {settings : Settings} {start db : Database}

/-- Other steps keep grants and places with confirmed members. -/
theorem confirmed_elsewhere {db' : Database} (hdb : Inv true db.toTables)
    (h : KeepsConfirmed db.toTables db'.toTables) : ConfirmedOnly db'.toTables := by
  have hconfirmed := hdb.confirmed rfl
  refine ⟨fun r hr k' hk' hkr => ?_,fun r hr m' hm' hmr => ?_⟩
  · obtain ⟨k,hk,hkr'⟩ := db.collection_of_grant (h.grants hr)
    have hkorg := h.collections k' hk' k hk (hkr'.trans hkr.symm)
    obtain ⟨m,hm,huser,horg,hstatus⟩ := hconfirmed.grants r (h.grants hr) k hk hkr'
    rcases h.stay m hm hstatus with ⟨m',hm',-,huser',horg',hstatus'⟩|hbare
    · exact ⟨m',hm',huser'.trans huser,(horg'.trans horg).trans hkorg.symm,hstatus'⟩
    · exact absurd (hkorg.trans horg.symm) (hbare.1 r hr huser.symm k' hk' hkr)
  · obtain ⟨m,hm,hmr'⟩ := db.member_of_group (h.places hr)
    have hstatus := hconfirmed.places r (h.places hr) m hm hmr'
    rcases h.stay m hm hstatus with ⟨q,hq,huuid,-,-,hstatus'⟩|hbare
    · have hkey : m'.uuid=q.uuid := hmr.trans (hmr'.symm.trans huuid.symm)
      rw [eq_of_key db'.member_nodup hm' hq hkey]
      exact hstatus'
    · exact absurd hmr'.symm (hbare.2 r hr)

/-- Every step keeps the invariant under its condition. -/
theorem inv_next {e : Event} (hdb : Inv true db.toTables) (h : GivesConfirmed db e) :
    Inv true (next settings db e).toTables := by
  cases e with
  | request out r => exact inv_complete (keeps_handle hdb h.1 fun _ => h.2)
  | elsewhere db' =>
    have hloose : Inv false db'.toTables := inv_elsewhere
      ⟨hdb.isolated,hdb.linked,fun h => by cases h⟩ h.toGivesNoGroup
    exact ⟨hloose.isolated,hloose.linked,fun _ => confirmed_elsewhere hdb h⟩

/-- In every run in which only confirmed members are given grants and places
and keep them, the check and the list agree and access is for confirmed
members. -/
theorem access_confirmed {events : List Event} (hstart : start.organizations=[])
    (hrun : Admits (next settings) GivesConfirmed start events) :
    AccessAgrees (run (next settings) start events).toTables := by
  have hinv : Inv true (run (next settings) start events).toTables :=
    run_invariant (I:=fun db => Inv true db.toTables) (fun _ _ hdb he => inv_next hdb he)
      (inv_of_empty hstart) hrun
  exact accessAgrees_of_inv hinv

section Samples

/-- Two registered accounts. -/
def registered : Database := ⟨{Tables.none with
  users := [{User.new 1 0 [] 600000 ['a'] none with passwordHash := [1]},
    {User.new 2 0 [] 600000 ['b'] none with passwordHash := [1]}]
  next := 3},by decide⟩

/-- The cipher of the organisation. -/
def orgCipher : Cipher := {Cipher.new 6 0 1 [] with organizationUuid := some 3}

/-- The first account creates an organisation. -/
def created : Database := next openSettings registered (.request online (.createOrganization 1 ['a'] []))

/-- A cipher is added to its collection. -/
def filled : Database := (commit {created.toTables with
  ciphers := [orgCipher]
  ciphersCollections := [⟨6,5⟩]
  next := 7}).getD created

/-- Both. -/
def filling : List Event :=
  [.request online (.createOrganization 1 ['a'] []),.elsewhere filled]

/-- The second account is invited to the collection. -/
def invite : Event := .request online (.sendInvite 1 3 [['b']] ⟨[],"2",[⟨5,⟨false,false,false⟩⟩],[]⟩)

/-- He may read and write the cipher before anyone has confirmed him, and it
is not in his list. -/
theorem access_unconfirmed :
    Cipher.isAccessibleToUser openSettings.toConfig
      (run (next openSettings) registered (filling++[invite])).toTables orgCipher 2=true ∧
    ¬AccessAgrees (run (next openSettings) registered (filling++[invite])).toTables := by
  have haccess : Cipher.isAccessibleToUser openSettings.toConfig
      (run (next openSettings) registered (filling++[invite])).toTables orgCipher 2=true := by decide
  have hlist : orgCipher∉Cipher.findByUser openSettings.toConfig
      (run (next openSettings) registered (filling++[invite])).toTables 2 false [] := by decide
  refine ⟨haccess,fun h => hlist ?_⟩
  exact ((h openSettings.toConfig 2 3 orgCipher (by decide) rfl).1).mp haccess

/-- The second account is invited without a grant. -/
def inviteBare : Event := .request online (.sendInvite 1 3 [['b']] ⟨[],"2",[],[]⟩)

theorem filled_keepsConfirmed : KeepsConfirmed created.toTables filled.toTables where
  places := by decide
  groupGrants := by decide
  members := by decide
  groups := by decide
  collections := by decide
  linked := ⟨by decide,by decide⟩
  grants := by decide
  stay := by
    intro m hm hstatus
    exact .inl ⟨m,hm,rfl,rfl,rfl,hstatus⟩

theorem access_confirmed_bare :
    AccessAgrees (run (next openSettings) registered (filling++[inviteBare])).toTables :=
  access_confirmed rfl ⟨⟨trivial,trivial⟩,filled_keepsConfirmed,⟨trivial,.inr rfl,rfl⟩,trivial⟩

end Samples

end NadSafe.ConfirmedAccess
