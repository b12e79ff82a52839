import NadSafe.DirectoryImport
import NadSafe.OrgRequests

/-!
# Organisations are isolated through groups

In every state that requests to organisation endpoints and imports from a
directory reach, groups join only rows of their own organisation, and nobody
has access through a group to an organisation that he is not a member of, as
long as the two handlers that do not validate groups are not given groups of
another organisation.
-/

namespace NadSafe.GroupIsolation

open HostText TableRows AsyncScript ServerTables AccessQueries SyncAgreement CollectionFlags StoreScript
open ServerModels OrgHandlers OrgIsolation OrgRequests DirectoryImport SequentialScript StepRuns

section Import

variable {settings : Settings} {out : Outside} {db : Database} {org : Uuid}

/-- Saving a membership under the keys of one that is there. -/
theorem keeps_saveChanged {m m' : Membership} {changed : Bool} (hdb : Inv false db.toTables)
    (hm : m∈db.members) (huuid : m'.uuid=m.uuid) (huser : m'.userUuid=m.userUuid)
    (horg : m'.orgUuid=m.orgUuid) : Keeps false (fun _ _ => True) (saveChanged m' changed) db := by
  unfold saveChanged
  split
  · exact keeps_resaveMember hdb hm huuid huser horg fun h => by cases h
  · exact Keeps.done hdb trivial

theorem keeps_mayGo {m : Membership} (hdb : Inv false db.toTables) :
    Keeps false (fun _ db' => db'=db) (mayGo org m) db := by
  unfold mayGo
  split
  · exact Keeps.lookup (Keeps.done hdb rfl)
  · exact Keeps.done hdb rfl

theorem keeps_revokeListed {data : OrgImportUserData} {m : Membership} (hdb : Inv false db.toTables)
    (hm : m∈db.members) : Keeps false (fun _ _ => True) (revokeListed org data m) db := by
  unfold revokeListed
  refine Keeps.reads (keeps_mayGo hdb) fun may => ?_
  have hkeys : (if may=true then m.revoke else m).uuid=m.uuid ∧
      (if may=true then m.revoke else m).userUuid=m.userUuid ∧
      (if may=true then m.revoke else m).orgUuid=m.orgUuid := by
    unfold ServerTables.Membership.revoke
    split
    · split <;> exact ⟨rfl,rfl,rfl⟩
    · exact ⟨rfl,rfl,rfl⟩
  obtain ⟨h₁,h₂,h₃,-⟩ := setExternalId_same (if may=true then m.revoke else m) data.externalId
  exact keeps_saveChanged hdb hm (h₁.trans hkeys.1) (h₂.trans hkeys.2.1) (h₃.trans hkeys.2.2)

theorem keeps_restoreListed {data : OrgImportUserData} {m : Membership} (hdb : Inv false db.toTables)
    (hm : m∈db.members) : Keeps false (fun _ _ => True) (restoreListed data m) db := by
  unfold restoreListed
  have hkeys : m.restore.uuid=m.uuid ∧ m.restore.userUuid=m.userUuid ∧ m.restore.orgUuid=m.orgUuid := by
    unfold ServerTables.Membership.restore
    split <;> exact ⟨rfl,rfl,rfl⟩
  obtain ⟨h₁,h₂,h₃,-⟩ := setExternalId_same m.restore data.externalId
  exact keeps_saveChanged hdb hm (h₁.trans hkeys.1) (h₂.trans hkeys.2.1) (h₃.trans hkeys.2.2)

theorem keeps_userSave {u : User} (hdb : Inv false db.toTables) :
    Keeps false (fun _ _ => True) (User.save settings u) db := by
  unfold User.save
  split
  · exact keeps_quiet hdb (hdb.other rfl rfl rfl rfl rfl rfl rfl rfl)
  · exact hdb

theorem keeps_importedUser {email : Text} (hdb : Inv false db.toTables) :
    Keeps false (fun _ _ => True) (importedUser settings out email) db := by
  unfold importedUser
  refine Keeps.lookup ?_
  split
  · exact Keeps.done hdb trivial
  · refine Keeps.getUuid (Keeps.getUuid ?_)
    refine (keeps_userSave (inv_drawn (inv_drawn hdb))).bind fun _ db₁ hdb₁ _ => ?_
    refine (keeps_inviteByTable hdb₁).bind fun _ db₂ hdb₂ _ => ?_
    exact Keeps.done hdb₂ trivial

theorem keeps_inviteListed {orgEmail : Text} {data : OrgImportUserData} (hdb : Inv false db.toTables) :
    Keeps false (fun _ _ => True) (inviteListed settings out org orgEmail data) db := by
  unfold inviteListed
  refine (keeps_importedUser hdb).bind fun r db₁ hdb₁ _ => ?_
  obtain ⟨user,created⟩ := r
  refine Keeps.lookup ?_
  refine Keeps.expect hdb₁ fun _ _ => ?_
  refine Keeps.getUuid ?_
  have hsave : ∀ m : Membership,m.uuid=db₁.next →
      Keeps false (fun _ db' => SameMember m db'.toTables) (Membership.save m) db₁.drawn := by
    intro m huuid
    have hfresh : ∀ q∈db₁.drawn.members,q.uuid< m.uuid := by
      rw [huuid]
      exact fun q hq => db₁.valid.2.2.2.2.1 q hq
    refine (keeps_saveMember (inv_drawn hdb₁) (sameMember_fresh hfresh) fun h => by cases h).mono ?_
    exact fun _ _ h => h.2
  refine (hsave _ (setExternalId_same _ _).1).bind fun _ db₂ hdb₂ h₂ => ?_
  exact (keeps_mailInvite hdb₂ h₂).mono fun _ _ _ => trivial

theorem keeps_importMember {orgEmail : Text} {data : OrgImportUserData} (hdb : Inv false db.toTables) :
    Keeps false (fun _ _ => True) (importMember settings out org orgEmail data) db := by
  have hfind : Keeps false (fun r db' => db'=db ∧ ∀ m,r=some m → m∈db.members)
      (Membership.findByEmailAndOrg settings data.email org) db := by
    unfold Membership.findByEmailAndOrg
    refine Keeps.lookup ?_
    split
    · exact Leaves.query (g:=Script.done) ⟨hdb,rfl,fun m hm => List.mem_of_find?_eq_some hm⟩
    · exact Keeps.done hdb ⟨rfl,fun m hm => by cases hm⟩
  unfold importMember
  refine hfind.bind fun r db' _ hr => ?_
  obtain ⟨rfl,hmem⟩ := hr
  split
  · split
    · exact keeps_revokeListed hdb (hmem _ rfl)
    · exact keeps_restoreListed hdb (hmem _ rfl)
  · split
    · exact Keeps.done hdb trivial
    · exact keeps_inviteListed hdb

theorem keeps_importedGroup {externalId : Text} (hdb : Inv false db.toTables) :
    Keeps false (fun g db' => GroupOf org g db'.toTables) (importedGroup org externalId) db := by
  unfold importedGroup
  refine Keeps.lookup ?_
  split
  · rename_i g hg
    have hrow : g.externalId=some externalId ∧ g.organizationsUuid=org := by
      simpa using List.find?_some hg
    exact Keeps.done hdb (groupOf_of_mem (List.mem_of_find?_eq_some hg) hrow.2)
  · refine Keeps.getUuid ?_
    have hfresh : GroupOf org db.next db.drawn.toTables := by
      intro g hg he
      have hlt : g.uuid<db.next := db.valid.2.2.2.2.2.2.1 g hg
      exact absurd he hlt.ne
    have hinv := Inv.saveGroup (g:=newGroup db.next org false (some externalId)) (inv_drawn hdb) hfresh
    refine (keeps_update (inv_drawn hdb) hinv).bind fun _ db₁ hdb₁ heq => ?_
    refine Keeps.done hdb₁ ?_
    rw [heq]
    intro q hq he
    rcases mem_put.mp hq with rfl|⟨-,hne⟩
    · rfl
    · exact absurd he hne

theorem keeps_importGroup {data : OrgImportGroupData} (hdb : Inv false db.toTables) :
    Keeps false (fun _ _ => True) (importGroup org data) db := by
  unfold importGroup
  refine (keeps_importedGroup hdb).bind fun g db₁ hdb₁ hg => ?_
  refine (keeps_elsewhere hdb₁ (hdb₁.dropRows (List.Subset.refl _)
    (fun _ hr => List.mem_of_mem_filter hr) (List.Subset.refl _) (List.Subset.refl _)) ⟨rfl,rfl,rfl⟩).bind
    fun _ db₂ hdb₂ h₂ => ?_
  refine Keeps.mono (keeps_each (I:=fun db' => GroupOf org g db'.toTables)
    (fun externalId _ db' hdb' hg' => ?_) hdb₂ (hg.frame h₂)) fun _ _ _ => trivial
  refine Keeps.lookup ?_
  split
  · rename_i m hm
    have hrow : m.externalId=some externalId ∧ m.orgUuid=org := by simpa using List.find?_some hm
    have hof := memberOf_of_mem (List.mem_of_find?_eq_some hm) hrow.2
    refine (keeps_elsewhere hdb' (hdb'.place hg' hof fun h => by cases h) ⟨rfl,rfl,rfl⟩).mono ?_
    exact fun _ _ h => hg'.frame h
  · exact Keeps.done hdb' hg'

theorem keeps_removeUnlisted {listed : List Text} (hdb : Inv false db.toTables) :
    Keeps false (fun _ _ => True) (removeUnlisted org listed) db := by
  unfold removeUnlisted
  refine Keeps.lookup ?_
  refine Keeps.mono (keeps_each (I:=fun db' => Shrinks db.toTables db'.toTables)
    (fun m hm db' hdb' hs => ?_) hdb ⟨List.Subset.refl _,rfl⟩) fun _ _ _ => trivial
  split
  · refine Keeps.reads (keeps_mayGo hdb') fun may => ?_
    split
    · have hsame := (sameMember_of_mem (List.mem_of_mem_filter hm)).shrinks hs
      refine (keeps_deleteMember hdb' hsame).mono fun _ _ hs' => ?_
      exact ⟨fun _ hq => hs.members (hs'.members hq),hs'.groups.trans hs.groups⟩
    · exact Keeps.done hdb' hs
  · exact Keeps.done hdb' hs

/-- `ldap_import`. -/
theorem keeps_ldapImport {orgEmail : Text} {data : OrgImportData} (hdb : Inv false db.toTables) :
    Keeps false (fun _ _ => True) (ldapImport settings out org orgEmail data) db := by
  unfold ldapImport
  refine (keeps_loop hdb fun _ _ h => keeps_importMember h).bind fun _ db₁ hdb₁ _ => ?_
  refine (keeps_loop hdb₁ fun _ _ h => keeps_importGroup h).bind fun _ db₂ hdb₂ _ => ?_
  split
  · exact keeps_removeUnlisted hdb₂
  · exact Keeps.done hdb₂ trivial

end Import

/-- What the rest of the server may do: no place and no grant to a group is
added, nothing moves to another organisation, and ciphers stay within
theirs. -/
structure GivesNoGroup (t t' : Tables) : Prop where
  /-- Places. -/
  places : t'.groupsUsers⊆t.groupsUsers
  /-- Grants to groups. -/
  groupGrants : t'.collectionsGroups⊆t.collectionsGroups
  /-- Members keep their organisation. -/
  members : ∀ m'∈t'.members,∀ m∈t.members,m.uuid=m'.uuid → m'.orgUuid=m.orgUuid
  /-- Groups keep their organisation. -/
  groups : ∀ g'∈t'.groups,∀ g∈t.groups,g.uuid=g'.uuid → g'.organizationsUuid=g.organizationsUuid
  /-- Collections keep their organisation. -/
  collections : ∀ k'∈t'.collections,∀ k∈t.collections,k.uuid=k'.uuid → k'.orgUuid=k.orgUuid
  /-- Ciphers. -/
  linked : LinkedWithin t'

/-- One step of the server. -/
inductive Step where
  /-- A request to an organisation endpoint. -/
  | request (out : Outside) (r : Request)
  /-- An import from a directory. -/
  | directory (out : Outside) (org : Uuid) (orgEmail : Text) (data : OrgImportData)
  /-- Anything else. -/
  | elsewhere (db : Database)

/-- The database after a step. -/
def step (settings : Settings) (db : Database) : Step → Database
  | .request out r => (complete (handle settings out r) db).2
  | .directory out org orgEmail data => (complete (ldapImport settings out org orgEmail data) db).2
  | .elsewhere db' => db'

/-- The condition of a step. -/
def NamesOwn (db : Database) : Step → Prop
  | .request _ r => NamesOwnGroups db.toTables r
  | .directory _ _ _ _ => True
  | .elsewhere db' => GivesNoGroup db.toTables db'.toTables

/-- Every row of the two link tables joins rows of one organisation. -/
def JoinsWithin (t : Tables) : Prop :=
  (∀ r∈t.groupsUsers,∃ g∈t.groups,g.uuid=r.groupsUuid ∧ ∃ m∈t.members,m.uuid=r.usersOrganizationsUuid ∧
    m.orgUuid=g.organizationsUuid) ∧
  ∀ r∈t.collectionsGroups,∃ k∈t.collections,k.uuid=r.collectionsUuid ∧ ∃ g∈t.groups,g.uuid=r.groupsUuid ∧
    k.orgUuid=g.organizationsUuid

instance (t : Tables) : Decidable (JoinsWithin t) := inferInstanceAs (Decidable (_ ∧ _))

/-- The groups give a user access to a cipher only where he is a member. -/
def GrantsToMembers (t : Tables) : Prop :=
  ∀ (config : Config) (user org : Uuid),∀ c∈t.ciphers,c.organizationUuid=some org →
    (Group.isInFullAccessGroup t user org=true ∨
      Cipher.getGroupCollectionsAccessFlags config t c user≠[]) →
    ∃ m∈t.members,m.userUuid=user ∧ m.orgUuid=org

variable {settings : Settings} {start db : Database}

/-- A database without organisations. -/
theorem inv_of_empty {strict : Bool} (h : start.organizations=[]) : Inv strict start.toTables := by
  have hmembers : ∀ m∈start.members,False := by
    intro m hm
    obtain ⟨o,ho,-⟩ := start.valid.2.1.2.1 m hm
    rw [h] at ho
    cases ho
  have hcollections : ∀ k∈start.collections,False := by
    intro k hk
    obtain ⟨o,ho,-⟩ := start.valid.2.1.2.2.1 k hk
    rw [h] at ho
    cases ho
  refine ⟨⟨fun r _ g _ _ m hm => (hmembers m hm).elim,fun r _ k hk => (hcollections k hk).elim⟩,
    ⟨fun r _ c _ _ k hk => (hcollections k hk).elim,fun c hc hsome => ?_⟩,
    fun _ => ⟨fun r _ k hk => (hcollections k hk).elim,fun r _ m hm => (hmembers m hm).elim⟩⟩
  rcases start.valid.2.1.2.2.2.2.2.2.2.2.2.2.2.1 c hc with hnone|⟨o,ho,-⟩
  · exact absurd hnone hsome
  · rw [h] at ho
    cases ho

/-- Other steps keep the two link tables within organisations. -/
theorem inv_elsewhere {db' : Database} (hdb : Inv false db.toTables)
    (h : GivesNoGroup db.toTables db'.toTables) : Inv false db'.toTables where
  isolated := by
    refine ⟨fun r hr g' hg' hgr m' hm' hmr => ?_,fun r hr k' hk' hkr g' hg' hgr => ?_⟩
    · obtain ⟨g,hg,hgr'⟩ := db.group_of_user (h.places hr)
      obtain ⟨m,hm,hmr'⟩ := db.member_of_group (h.places hr)
      rw [h.groups g' hg' g hg (hgr'.trans hgr.symm),h.members m' hm' m hm (hmr'.trans hmr.symm)]
      exact hdb.isolated.groupsUsers r (h.places hr) g hg hgr' m hm hmr'
    · obtain ⟨k,hk,hkr'⟩ := db.collection_of_group (h.groupGrants hr)
      obtain ⟨g,hg,hgr'⟩ := db.group_of_collection (h.groupGrants hr)
      rw [h.groups g' hg' g hg (hgr'.trans hgr.symm),h.collections k' hk' k hk (hkr'.trans hkr.symm)]
      exact hdb.isolated.collectionsGroups r (h.groupGrants hr) k hk hkr' g hg hgr'
  linked := h.linked
  confirmed h := by cases h

/-- A handler that keeps the invariant leaves it at its end. -/
theorem inv_complete {strict : Bool} {α : Type} {p : Action α}
    (h : Keeps strict (fun _ _ => True) p db) : Inv strict (complete p db).2.toTables := by
  have hboth : Leaves (fun _ db' => Inv strict db'.toTables) (fun db' => Inv strict db'.toTables) p db :=
    Ensures.mono h (fun _ _ hdb => hdb.1) fun _ hdb => hdb
  exact hboth.complete

/-- Every step keeps the invariant under its condition. -/
theorem inv_step {e : Step} (hdb : Inv false db.toTables) (h : NamesOwn db e) :
    Inv false (step settings db e).toTables := by
  cases e with
  | request out r => exact inv_complete (keeps_handle hdb h fun hs => by cases hs)
  | directory out org orgEmail data => exact inv_complete (keeps_ldapImport hdb)
  | elsewhere db' => exact inv_elsewhere hdb h

/-- Rows that join two tables, from the invariant. -/
theorem joinsWithin_of_isolated (h : Isolated db.toTables) : JoinsWithin db.toTables := by
  refine ⟨fun r hr => ?_,fun r hr => ?_⟩
  · obtain ⟨g,hg,hgr⟩ := db.group_of_user hr
    obtain ⟨m,hm,hmr⟩ := db.member_of_group hr
    exact ⟨g,hg,hgr,m,hm,hmr,(h.groupsUsers r hr g hg hgr m hm hmr).symm⟩
  · obtain ⟨k,hk,hkr⟩ := db.collection_of_group hr
    obtain ⟨g,hg,hgr⟩ := db.group_of_collection hr
    exact ⟨k,hk,hkr,g,hg,hgr,h.collectionsGroups r hr k hk hkr g hg hgr⟩

/-- All link tables, in the words of the queries. -/
theorem orgConsistent_of_inv {strict : Bool} (h : Inv strict db.toTables) : OrgConsistent db.toTables :=
  ⟨h.linked.ciphersCollections,h.isolated.groupsUsers,h.isolated.collectionsGroups⟩

/-- Access through groups is for members. -/
theorem grantsToMembers_of_inv {strict : Bool} (h : Inv strict db.toTables) :
    GrantsToMembers db.toTables := by
  intro config user org c hc horg haccess
  rcases haccess with hfull|hflags
  · simp only [Group.isInFullAccessGroup,List.any_eq_true,mem_innerJoin,Prod.exists,decide_eq_true_eq,
      and_assoc] at hfull
    obtain ⟨g,gu,m,hg,hgu,hgroup,hm,hmember,huser,hgorg,-⟩ := hfull
    exact ⟨m,hm,huser,(h.isolated.groupsUsers gu hgu g hg hgroup.symm m hm hmember).symm.trans hgorg⟩
  · obtain ⟨f,hf⟩ := List.exists_mem_of_ne_nil _ hflags
    obtain ⟨-,k,hlink,gu,hgu,hgrant,m,hm,hmember,huser⟩ :=
      (mem_groupFlags (orgConsistent_of_inv h) hc).mp hf
    obtain ⟨k',hk',hkr⟩ := db.collection_of_group hgrant
    obtain ⟨g,hg,hgr⟩ := db.group_of_user hgu
    have hcoll := h.linked.ciphersCollections _ hlink c hc rfl k' hk' hkr
    have hgroup := h.isolated.collectionsGroups _ hgrant k' hk' hkr g hg hgr
    have hplace := h.isolated.groupsUsers gu hgu g hg hgr m hm hmember
    refine ⟨m,hm,huser,?_⟩
    rw [← hplace,← hgroup]
    exact Option.some.inj (hcoll.symm.trans horg)

/-- In every run whose requests name no groups of other organisations, groups
stay within organisations and give access to members only. -/
theorem groups_isolated {events : List Step} (hstart : start.organizations=[])
    (hrun : Admits (step settings) NamesOwn start events) :
    JoinsWithin (run (step settings) start events).toTables ∧
      GrantsToMembers (run (step settings) start events).toTables := by
  have hinv : Inv false (run (step settings) start events).toTables :=
    run_invariant (I:=fun db => Inv false db.toTables) (fun _ _ hdb he => inv_step hdb he)
      (inv_of_empty hstart) hrun
  exact ⟨joinsWithin_of_isolated hinv.isolated,grantsToMembers_of_inv hinv⟩

section Samples

/-- Groups are on and everyone may create organisations. -/
def openSettings : Settings where
  orgGroupsEnabled := true
  mailEnabled := false
  invitationsAllowed := true
  isEmailDomainAllowed _ := true
  isOrgCreationAllowed _ := true
  email2faAutoFallback := false
  isValidEmail _ := true
  toLowercase email := email
  passwordIterations := 600000

/-- Mails go out. -/
def online : Outside := ⟨fun _ => true,[]⟩

/-- Two accounts. -/
def twoAccounts : Database := ⟨{Tables.none with
  users := [User.new 1 0 [] 600000 ['a'] none,User.new 2 0 [] 600000 ['b'] none]
  next := 3},by decide⟩

/-- Each account creates an organisation, and the second one adds a group with
access to everything. -/
def twoOrganizations : List Step :=
  [.request online (.createOrganization 1 ['a'] []),.request online (.createOrganization 2 ['b'] []),
    .request online (.postGroups 2 6 ⟨true,none,[],[]⟩)]

/-- An owner puts himself into the group. -/
def joinGroup (caller org member : Uuid) : Step :=
  .request online (.editMember caller org member ⟨[9],"0",[],[]⟩)

/-- The first owner joins the group of the second organisation and has access
to all its ciphers. -/
theorem groups_not_isolated :
    (let t := (run (step openSettings) twoAccounts (twoOrganizations++[joinGroup 1 3 4])).toTables
    ¬JoinsWithin t ∧ Group.isInFullAccessGroup t 1 6=true ∧ ∀ m∈t.members,m.userUuid=1 → m.orgUuid≠6) := by
  decide

/-- A run that keeps to the condition. -/
theorem groups_isolated_own :
    JoinsWithin (run (step openSettings) twoAccounts (twoOrganizations++[joinGroup 2 6 7])).toTables ∧
      GrantsToMembers
        (run (step openSettings) twoAccounts (twoOrganizations++[joinGroup 2 6 7])).toTables := by
  refine groups_isolated rfl ⟨trivial,trivial,trivial,?_,trivial⟩
  show ∀ g∈[9],GroupOf 6 g (run (step openSettings) twoAccounts twoOrganizations).toTables
  unfold GroupOf
  decide

end Samples

end NadSafe.GroupIsolation
