import NadSafe.OrgIsolation
import NadSafe.StepRuns

/-!
# Runs of organisation requests

Every request to an organisation endpoint keeps rows that join two tables
inside one organisation, as long as the two handlers that do not validate
groups are not given groups of another organisation. Other endpoints may do
what they like with their own tables, give nothing and move nothing to
another organisation.
-/

namespace NadSafe.OrgRequests

open HostText TableRows AsyncScript ServerTables AccessQueries SyncAgreement CollectionFlags StoreScript
open ServerModels OrgHandlers OrgIsolation SequentialScript

/-- The role of a request gives access to all collections. -/
def MemberData.givesAll (data : MemberData) : Bool :=
  (MembershipType.fromStr data.type).any fun newType => accessAllFor data.type newType data.permissions

/-- A request for a member gives no grant and no place. -/
def MemberData.GivesNothing (data : MemberData) : Prop :=
  (MemberData.givesAll data=true ∨ data.collections=[]) ∧ data.groups=[]

/-- The members with the key that a request names are bare. -/
def NamesBare (org id : Uuid) (t : Tables) : Prop :=
  ∀ m∈t.members,m.uuid=id → m.orgUuid=org → Bare m t

/-- The two handlers that do not validate groups are given no group of
another organisation. -/
def NamesOwnGroups (t : Tables) : Request → Prop
  | .postBulkAccess _ org _ data => ∀ g∈data.groups,GroupOf org g.id t
  | .editMember _ org _ data => ∀ g∈data.groups,GroupOf org g t
  | _ => True

/-- Only confirmed members are given grants and places, and only members
without any are revoked. -/
def GivesToConfirmed (t : Tables) : Request → Prop
  | .postCollections _ org data => NamesConfirmed org data.users t
  | .postBulkAccess _ org _ data => NamesConfirmed org data.users t
  | .updateCollection _ org _ data => NamesConfirmed org data.users t
  | .sendInvite _ _ _ data => MemberData.GivesNothing data
  | .editMember _ org id data => MemberData.GivesNothing data ∨
      ∀ m∈t.members,m.uuid=id → m.orgUuid=org → m.status=Confirmed
  | .revokeMember _ org id => NamesBare org id t
  | .revokeMembers _ org ids => ∀ id∈ids,NamesBare org id t
  | .postGroups _ _ data => ∀ x∈data.users,∀ m∈t.members,m.uuid=x → m.status=Confirmed
  | .putGroup _ _ _ data => ∀ x∈data.users,∀ m∈t.members,m.uuid=x → m.status=Confirmed
  | .putGroupMembers _ _ _ users => ∀ x∈users,∀ m∈t.members,m.uuid=x → m.status=Confirmed
  | _ => True

variable {strict : Bool} {settings : Settings} {out : Outside} {db : Database} {caller org : Uuid}

/-- A drawn uuid changes none of these tables. -/
theorem Keeps.getUuid {α : Type} {Q : α → Database → Prop} {g : Uuid → Action α}
    (h : Keeps strict Q (g db.next) db.drawn) : Keeps strict Q (ServerModels.getUuid.bind g) db :=
  Leaves.draw h

theorem inv_drawn (hdb : Inv strict db.toTables) : Inv strict db.drawn.toTables :=
  hdb.other rfl rfl rfl rfl rfl rfl rfl rfl

section Collections

/-- `FullCollectionData::validate`. -/
theorem keeps_validateCollection {data : FullCollectionData} (hdb : Inv strict db.toTables) :
    Keeps strict (fun _ db' => db'=db ∧ ∀ g∈data.groups,GroupOf org g.id db.toTables)
      (data.validate org) db := by
  unfold FullCollectionData.validate
  refine Keeps.lookup ?_
  refine Keeps.ensure hdb fun hgroups => ?_
  refine Keeps.lookup ?_
  have hlisted : ∀ x∈data.groups.map AccessData.id,GroupOf org x db.toTables :=
    groupOf_of_listed (by simpa [List.all_map] using hgroups)
  exact (keeps_ensure hdb).mono fun _ db' hsame =>
    ⟨hsame,fun g hg => hlisted g.id (List.mem_map_of_mem hg)⟩

/-- The saved collection is the one with its key. -/
theorem collectionOf_put {k : Collection} {t : Tables} :
    CollectionOf k.orgUuid k.uuid {t with collections := put Collection.uuid k t.collections} := by
  intro q hq he
  rcases mem_put.mp hq with rfl|⟨-,hne⟩
  · rfl
  · exact absurd he hne

/-- Saving a collection under its organisation. -/
theorem keeps_saveCollection {k : Collection} (hdb : Inv strict db.toTables)
    (hk : CollectionOf k.orgUuid k.uuid db.toTables) :
    Keeps strict (fun _ db' => db'.members=db.members ∧ db'.groups=db.groups ∧
      CollectionOf k.orgUuid k.uuid db'.toTables) (Collection.save k) db := by
  refine (keeps_update hdb (hdb.saveCollection hk)).mono fun _ db' heq => ?_
  rw [heq]
  exact ⟨rfl,rfl,collectionOf_put⟩

/-- The statements that replace the groups and members of a collection. -/
theorem keeps_giveCollection {id : Uuid} {data : FullCollectionData} (hdb : Inv strict db.toTables)
    (hk : CollectionOf org id db.toTables) (hg : ∀ g∈data.groups,GroupOf org g.id db.toTables)
    (hconfirmed : strict=true → NamesConfirmed org data.users db.toTables) :
    Keeps strict (fun _ db' => Frame db.toTables db'.toTables) (do
      CollectionGroup.deleteAllByCollection id
      grantGroups id data.groups
      CollectionUser.deleteAllByCollection id
      grantCollection org id data.users) db := by
  have hdrop : Inv strict {db.toTables with
      collectionsGroups := db.collectionsGroups.filter fun r => r.collectionsUuid≠id} :=
    hdb.dropRows (List.Subset.refl _) (List.Subset.refl _) (fun _ hr => List.mem_of_mem_filter hr)
      (List.Subset.refl _)
  refine (keeps_elsewhere hdb hdrop ⟨rfl,rfl,rfl⟩).bind fun _ db₁ hdb₁ h₁ => ?_
  refine (keeps_grantGroups hdb₁ (hk.frame h₁) fun g hgroup => (hg g hgroup).frame h₁).bind
    fun _ db₂ hdb₂ h₂ => ?_
  have h₁₂ := h₁.trans h₂
  have hdrop₂ : Inv strict {db₂.toTables with
      usersCollections := db₂.usersCollections.filter fun q => q.collectionUuid≠id} :=
    hdb₂.dropRows (fun _ hr => List.mem_of_mem_filter hr) (List.Subset.refl _) (List.Subset.refl _)
      (List.Subset.refl _)
  refine (keeps_elsewhere hdb₂ hdrop₂ ⟨rfl,rfl,rfl⟩).bind fun _ db₃ hdb₃ h₃ => ?_
  have h₁₃ := h₁₂.trans h₃
  have hnames : strict=true → NamesConfirmed org data.users db₃.toTables := by
    intro hs
    unfold NamesConfirmed
    rw [h₁₃.members]
    exact hconfirmed hs
  exact (keeps_grantCollection hdb₃ (hk.frame h₁₃) hnames).mono fun _ _ h => h₁₃.trans h

theorem keeps_postCollections {data : FullCollectionData} (hdb : Inv strict db.toTables)
    (hconfirmed : strict=true → NamesConfirmed org data.users db.toTables) :
    Keeps strict (fun _ _ => True) (postOrganizationCollections caller org data) db := by
  unfold postOrganizationCollections
  refine Keeps.reads (keeps_managerHeadersLoose hdb) fun headers => ?_
  refine (keeps_validateCollection hdb).bind fun _ db' _ hvalid => ?_
  obtain ⟨rfl,hgroups⟩ := hvalid
  refine Keeps.ensure hdb fun _ => ?_
  refine Keeps.getUuid ?_
  have hfresh : CollectionOf org db'.next db'.drawn.toTables := by
    intro k hk he
    have hlt : k.uuid<db'.next := db'.valid.2.2.2.2.2.1 k hk
    exact absurd he hlt.ne
  refine (keeps_saveCollection (k:=⟨db'.next,org⟩) (inv_drawn hdb) hfresh).bind fun _ db₁ hdb₁ h₁ => ?_
  obtain ⟨hmembers,hsame,hk⟩ := h₁
  refine (keeps_grantGroups hdb₁ hk fun g hg => (hgroups g hg).kept hsame).bind fun _ db₂ hdb₂ h₂ => ?_
  have hnames : strict=true → NamesConfirmed org data.users db₂.toTables := by
    intro hs
    unfold NamesConfirmed
    rw [h₂.members,hmembers]
    exact hconfirmed hs
  exact (keeps_grantCollection hdb₂ (hk.frame h₂) hnames).mono fun _ _ _ => trivial

theorem keeps_postBulkAccess {ids : List Uuid} {data : FullCollectionData}
    (hdb : Inv strict db.toTables) (hgroups : ∀ g∈data.groups,GroupOf org g.id db.toTables)
    (hconfirmed : strict=true → NamesConfirmed org data.users db.toTables) :
    Keeps strict (fun _ _ => True) (postBulkAccessCollections caller org ids data) db := by
  unfold postBulkAccessCollections
  refine Keeps.reads (keeps_managerHeadersLoose hdb) fun headers => ?_
  refine Keeps.lookup ?_
  refine Keeps.expect hdb fun _ _ => ?_
  refine Keeps.mono (keeps_each (I:=fun db' => db'.members=db.members ∧ db'.groups=db.groups)
    (fun id _ db' hdb' hsame => ?_) hdb ⟨rfl,rfl⟩) fun _ _ _ => trivial
  obtain ⟨hmembers,hsame⟩ := hsame
  refine Keeps.lookup ?_
  refine Keeps.expect hdb' fun k hk => ?_
  obtain ⟨hmem,rfl,rfl⟩ := found_collection hk
  refine Keeps.lookup ?_
  refine Keeps.ensure hdb' fun _ => ?_
  refine (keeps_saveCollection hdb' (collectionOf_of_mem hmem rfl)).bind fun _ db₁ hdb₁ h₁ => ?_
  obtain ⟨hmembers₁,hsame₁,hk₁⟩ := h₁
  have hgroups₁ : ∀ g∈data.groups,GroupOf k.orgUuid g.id db₁.toTables :=
    fun g hg => (hgroups g hg).kept (hsame₁.trans hsame)
  have hnames : strict=true → NamesConfirmed k.orgUuid data.users db₁.toTables := by
    intro hs
    unfold NamesConfirmed
    rw [hmembers₁,hmembers]
    exact hconfirmed hs
  refine (keeps_giveCollection hdb₁ hk₁ hgroups₁ hnames).mono fun _ _ h => ?_
  exact ⟨h.members.trans (hmembers₁.trans hmembers),h.groups.trans (hsame₁.trans hsame)⟩

theorem keeps_updateCollection {id : Uuid} {data : FullCollectionData} (hdb : Inv strict db.toTables)
    (hconfirmed : strict=true → NamesConfirmed org data.users db.toTables) :
    Keeps strict (fun _ _ => True) (postOrganizationCollectionUpdate caller org id data) db := by
  unfold postOrganizationCollectionUpdate
  refine Keeps.reads (keeps_managerHeaders hdb) fun headers => ?_
  refine (keeps_validateCollection hdb).bind fun _ db' _ hvalid => ?_
  obtain ⟨rfl,hgroups⟩ := hvalid
  refine Keeps.lookup ?_
  refine Keeps.expect hdb fun _ _ => ?_
  refine Keeps.lookup ?_
  refine Keeps.expect hdb fun k hk => ?_
  obtain ⟨hmem,rfl,rfl⟩ := found_collection hk
  refine (keeps_saveCollection hdb (collectionOf_of_mem hmem rfl)).bind fun _ db₁ hdb₁ h₁ => ?_
  obtain ⟨hmembers₁,hsame₁,hk₁⟩ := h₁
  have hnames : strict=true → NamesConfirmed k.orgUuid data.users db₁.toTables := by
    intro hs
    unfold NamesConfirmed
    rw [hmembers₁]
    exact hconfirmed hs
  refine (keeps_giveCollection hdb₁ hk₁ (fun g hg => (hgroups g hg).kept hsame₁) hnames).mono ?_
  exact fun _ _ _ => trivial

theorem keeps_deleteCollectionImpl {id : Uuid} (hdb : Inv strict db.toTables) :
    Keeps strict (fun _ _ => True) (deleteOrganizationCollectionImpl org id) db := by
  unfold deleteOrganizationCollectionImpl
  refine Keeps.lookup ?_
  exact Keeps.expect hdb fun k _ => keeps_deleteCollection hdb

theorem keeps_deleteCollections {ids : List Uuid} (hdb : Inv strict db.toTables) :
    Keeps strict (fun _ _ => True) (bulkDeleteOrganizationCollections caller org ids) db := by
  unfold bulkDeleteOrganizationCollections
  refine Keeps.reads (keeps_managerHeadersLoose hdb) fun headers => ?_
  refine (keeps_loop hdb fun id db' hdb' => ?_).bind fun _ db₁ hdb₁ _ => ?_
  · refine Keeps.lookup ?_
    exact (keeps_ensure hdb').mono fun _ _ _ => trivial
  · exact keeps_loop hdb₁ fun id db' hdb' => keeps_deleteCollectionImpl hdb'

end Collections

section Members

/-- A key above all keys is new. -/
theorem sameMember_fresh {t : Tables} {m : Membership} (h : ∀ q∈t.members,q.uuid< m.uuid) :
    SameMember m t := fun q hq he => absurd he (h q hq).ne

/-- The saved membership is the one with its key. -/
theorem sameMember_put {t : Tables} {m : Membership} :
    SameMember m {t with members := put Membership.uuid m t.members} := by
  intro q hq he
  rcases mem_put.mp hq with rfl|⟨-,hne⟩
  · exact ⟨rfl,rfl⟩
  · exact absurd he hne

/-- Saving a membership that is confirmed or bare. -/
theorem keeps_saveMember {m : Membership} (hdb : Inv strict db.toTables) (hm : SameMember m db.toTables)
    (hconfirmed : strict=true → m.status=Confirmed ∨ Bare m db.toTables) :
    Keeps strict (fun _ db' => db'.groups=db.groups ∧ SameMember m db'.toTables) (Membership.save m)
      db := by
  refine (keeps_update hdb (hdb.saveMember hm hconfirmed)).mono fun _ db' heq => ?_
  rw [heq]
  exact ⟨rfl,sameMember_put⟩

/-- Saving a membership that was there and is not confirmed any more or yet. -/
theorem keeps_resaveMember {m m' : Membership} (hdb : Inv strict db.toTables) (hm : m∈db.members)
    (huuid : m'.uuid=m.uuid) (huser : m'.userUuid=m.userUuid) (horg : m'.orgUuid=m.orgUuid)
    (hstatus : strict=true → m'.status=Confirmed ∨ m.status≠Confirmed) :
    Keeps strict (fun _ _ => True) (Membership.save m') db := by
  have hsame : SameMember m' db.toTables := by
    intro q hq he
    obtain ⟨h₁,h₂⟩ := sameMember_of_mem hm q hq (he.trans huuid)
    exact ⟨h₁.trans horg.symm,h₂.trans huser.symm⟩
  have hbare : strict=true → m'.status=Confirmed ∨ Bare m' db.toTables := by
    intro hs
    refine (hstatus hs).imp id fun hne => ?_
    have h := bare_of_unconfirmed (hdb.confirmed hs) hm hne
    unfold Bare
    rw [huuid,huser,horg]
    exact h
  exact (keeps_saveMember hdb hsame hbare).mono fun _ _ _ => trivial

theorem keeps_createOrganization {billingEmail key : Text} (hdb : Inv strict db.toTables) :
    Keeps strict (fun _ _ => True) (createOrganization settings caller billingEmail key) db := by
  unfold createOrganization
  refine Keeps.lookup ?_
  refine Keeps.expect hdb fun user _ => ?_
  refine Keeps.ensure hdb fun _ => ?_
  refine Keeps.reads (keeps_isApplicable hdb) fun _ => ?_
  refine Keeps.ensure hdb fun _ => ?_
  refine Keeps.getUuid (Keeps.getUuid (Keeps.getUuid ?_))
  have hdrawn := inv_drawn (inv_drawn (inv_drawn hdb))
  have horg : Keeps strict (fun _ db' => db'.members=db.members ∧ db'.collections=db.collections)
      (Organization.save settings billingEmail ⟨db.next⟩) db.drawn.drawn.drawn := by
    unfold Organization.save
    split
    · refine (keeps_update hdrawn (hdrawn.other rfl rfl rfl rfl rfl rfl rfl rfl)).mono fun _ db' heq => ?_
      rw [heq]
      exact ⟨rfl,rfl⟩
    · exact hdrawn
  refine horg.bind fun _ db₁ hdb₁ h₁ => ?_
  obtain ⟨hmembers,hcollections⟩ := h₁
  have hfresh : ∀ q∈db₁.members,q.uuid<db.next+1 := by
    rw [hmembers]
    intro q hq
    exact Nat.lt_succ_of_lt (db.valid.2.2.2.2.1 q hq)
  refine (keeps_update hdb₁ (hdb₁.saveMember (sameMember_fresh hfresh) fun _ => .inl rfl)).bind
    fun _ db₂ hdb₂ heq => ?_
  have hnew : CollectionOf db.next (db.next+1+1) db₂.toTables := by
    rw [heq]
    intro k hk he
    have hold : k∈db.collections := hcollections ▸ hk
    have hlt : k.uuid<db.next := db.valid.2.2.2.2.2.1 k hold
    exact absurd he (Nat.lt_succ_of_lt (Nat.lt_succ_of_lt hlt)).ne
  exact (keeps_saveCollection (k:=⟨db.next+1+1,db.next⟩) hdb₂ hnew).mono fun _ _ _ => trivial

/-- The guard's membership is in the tables. -/
theorem keeps_orgHeaders_mem (hdb : Inv strict db.toTables) :
    Keeps strict (fun h db' => db'=db ∧ h.membership∈db.members) (orgHeaders caller org) db := by
  unfold orgHeaders
  refine Keeps.lookup ?_
  refine Keeps.expect hdb fun user _ => ?_
  refine Keeps.lookup ?_
  refine Keeps.expect hdb fun m hm => ?_
  refine Keeps.ensure hdb fun _ => ?_
  exact Keeps.done hdb ⟨rfl,List.mem_of_find?_eq_some hm⟩

theorem keeps_leave (hdb : Inv strict db.toTables) :
    Keeps strict (fun _ _ => True) (leaveOrganization caller org) db := by
  unfold leaveOrganization
  refine (keeps_orgHeaders_mem hdb).bind fun headers _ _ hguard => ?_
  obtain ⟨rfl,hm⟩ := hguard
  refine Keeps.ensure hdb fun _ => ?_
  refine Keeps.reads (keeps_otherOwner hdb) fun _ => ?_
  exact (keeps_deleteMember hdb (sameMember_of_mem hm)).mono fun _ _ _ => trivial

theorem keeps_inviteByTable {email : Text} (hdb : Inv strict db.toTables) :
    Keeps strict (fun _ db' => Frame db.toTables db'.toTables) (inviteByTable settings email) db := by
  unfold inviteByTable
  split
  · exact Keeps.done hdb (Frame.refl _)
  · exact keeps_invitationSave hdb

/-- The invited account has no membership yet. -/
theorem keeps_invitedUser {created : Bool} {email : Text} (hdb : Inv strict db.toTables) :
    Keeps strict (fun r db' => db'.groups=db.groups ∧
      ∀ q∈db'.members,¬(q.userUuid=r.1.uuid ∧ q.orgUuid=org))
      (invitedUser settings out org created email) db := by
  unfold invitedUser
  refine Keeps.lookup ?_
  split
  · refine Keeps.ensure hdb fun _ => ?_
    refine Keeps.ensure hdb fun _ => ?_
    refine (keeps_inviteByTable hdb).bind fun _ db₁ hdb₁ h₁ => ?_
    refine Keeps.getUuid (Keeps.getUuid ?_)
    have hdrawn := inv_drawn (inv_drawn hdb₁)
    have hsave : ∀ u : User,Keeps strict (fun _ db' => db'.groups=db₁.groups ∧ db'.members=db₁.members)
        (User.save settings u) db₁.drawn.drawn := by
      intro u
      unfold User.save
      split
      · refine (keeps_update hdrawn (hdrawn.other rfl rfl rfl rfl rfl rfl rfl rfl)).mono fun _ _ heq => ?_
        rw [heq]
        exact ⟨rfl,rfl⟩
      · exact hdrawn
    refine (hsave _).bind fun _ db₂ hdb₂ h₂ => ?_
    refine Keeps.done hdb₂ ⟨h₂.1.trans h₁.groups,?_⟩
    rw [h₂.2]
    intro q hq hkey
    obtain ⟨u,hu,hqu⟩ := db₁.valid.2.1.1 q hq
    have hlt : u.uuid<db₁.next := db₁.valid.2.2.1 u hu
    exact absurd (hqu.trans hkey.1) hlt.ne
  · refine Keeps.lookup ?_
    refine Keeps.ensure hdb fun hnone => ?_
    refine Keeps.done hdb ⟨rfl,fun q hq hkey => ?_⟩
    have hfound := List.find?_eq_none.mp (Option.isNone_iff_eq_none.mp hnone) q hq
    exact hfound (decide_eq_true hkey)

/-- A failed mail is an error. -/
theorem keeps_mailInvite {created : Bool} {user : User} {m : Membership} (hdb : Inv strict db.toTables)
    (hm : SameMember m db.toTables) :
    Keeps strict (fun _ db' => db'=db) (mailInvite settings out created user m) db := by
  unfold mailInvite
  split
  swap
  · exact Keeps.done hdb rfl
  refine Keeps.lookup ?_
  refine Keeps.expect hdb fun _ _ => ?_
  split
  · exact Keeps.done hdb rfl
  · dsimp only
    split
    · exact (keeps_deleteUser hdb).bind fun _ _ hdb' _ => hdb'
    · exact (keeps_deleteMember hdb hm).bind fun _ _ hdb' _ => hdb'

theorem keeps_inviteAll {inviter : Text} {newType : MembershipType} {accessAll created : Bool}
    {data : MemberData} {emails : List Text} (hdb : Inv strict db.toTables)
    (hgroups : ∀ g∈data.groups,GroupOf org g db.toTables)
    (hnothing : strict=true → (accessAll=true ∨ data.collections=[]) ∧ data.groups=[]) :
    Keeps strict (fun _ _ => True)
      (inviteAll settings out org inviter newType accessAll data created emails) db := by
  induction emails generalizing db created with
  | nil => exact Keeps.done hdb trivial
  | cons email emails ih =>
    unfold inviteAll
    refine (keeps_invitedUser hdb).bind fun r db₁ hdb₁ h₁ => ?_
    obtain ⟨user,status,created'⟩ := r
    obtain ⟨hsame₁,hnone⟩ := h₁
    refine Keeps.getUuid ?_
    have hfresh : ∀ q∈db₁.drawn.members,q.uuid<db₁.next := fun q hq => db₁.valid.2.2.2.2.1 q hq
    have hbare : strict=true → Bare {ServerTables.Membership.new db₁.next user.uuid org (some inviter) with
        accessAll := accessAll, atype := newType, status := status} db₁.drawn.toTables := by
      intro hs
      refine ⟨fun r hr huser k hk hkr horg => ?_,fun r hr he => ?_⟩
      · obtain ⟨q,hq,huser',horg',-⟩ := (hdb₁.confirmed hs).grants r hr k hk hkr
        exact hnone q hq ⟨huser'.trans huser,horg'.trans horg⟩
      · obtain ⟨q,hq,hqr⟩ := db₁.member_of_group hr
        exact absurd (hqr.trans he) (hfresh q hq).ne
    refine (keeps_saveMember (inv_drawn hdb₁) (sameMember_fresh hfresh) fun hs => .inr (hbare hs)).bind
      fun _ db₂ hdb₂ h₂ => ?_
    obtain ⟨hsame₂,hmember⟩ := h₂
    refine Keeps.reads (keeps_mailInvite hdb₂ hmember) fun _ => ?_
    have hgroups₂ : ∀ g∈data.groups,GroupOf org g _ := fun g hg => (hgroups g hg).kept (hsame₂.trans hsame₁)
    refine (keeps_grantMember hdb₂ fun hs => (hnothing hs).1.imp id .inl).bind fun _ db₃ hdb₃ h₃ => ?_
    have hof : MemberOf org db₁.next db₃.toTables :=
      MemberOf.frame (fun q hq he => (hmember q hq he).1) h₃
    refine (keeps_places hdb₃ hof (fun g hg => (hgroups₂ g hg).frame h₃)
      fun hs => .inl (hnothing hs).2).bind fun _ db₄ hdb₄ h₄ => ?_
    exact ih hdb₄ fun g hg => ((hgroups₂ g hg).frame h₃).frame h₄

/-- `InviteData::validate`. -/
theorem keeps_validateMember {data : MemberData} (hdb : Inv strict db.toTables) :
    Keeps strict (fun _ db' => db'=db ∧ ∀ g∈data.groups,GroupOf org g db.toTables)
      (OrgHandlers.MemberData.validate data org) db := by
  unfold OrgHandlers.MemberData.validate
  refine Keeps.lookup ?_
  refine Keeps.ensure hdb fun _ => ?_
  refine Keeps.lookup ?_
  cases hvalid : data.groups.all fun g =>
      decide (g∈(db.groups.filter fun g => g.organizationsUuid=org).map ServerTables.Group.uuid) with
  | false => exact hdb
  | true => exact ⟨hdb,rfl,groupOf_of_listed hvalid⟩

theorem keeps_sendInvite {emails : List Text} {data : MemberData} (hdb : Inv strict db.toTables)
    (hnothing : strict=true → MemberData.GivesNothing data) :
    Keeps strict (fun _ _ => True) (sendInvite settings out caller org emails data) db := by
  unfold sendInvite
  refine Keeps.reads (keeps_adminHeaders hdb) fun headers => ?_
  refine (keeps_validateMember hdb).bind fun _ db' _ hvalid => ?_
  obtain ⟨rfl,hgroups⟩ := hvalid
  refine Keeps.expect hdb fun newType htype => ?_
  refine Keeps.ensure hdb fun _ => ?_
  have hall : strict=true → (accessAllFor data.type newType data.permissions=true ∨
      data.collections=[]) ∧ data.groups=[] := by
    intro hs
    have h := hnothing hs
    unfold MemberData.GivesNothing MemberData.givesAll at h
    rw [htype] at h
    exact h
  exact keeps_inviteAll hdb hgroups hall

theorem keeps_reinviteImpl {id : Uuid} (hdb : Inv strict db.toTables) :
    Keeps strict (fun _ _ => True) (reinviteMemberImpl settings out org id) db := by
  unfold reinviteMemberImpl
  refine Keeps.lookup ?_
  refine Keeps.expect hdb fun m hm => ?_
  obtain ⟨hmem,-,-⟩ := found_member hm
  refine Keeps.ensure hdb fun hstatus => ?_
  refine Keeps.lookup ?_
  refine Keeps.expect hdb fun user _ => ?_
  refine Keeps.ensure hdb fun _ => ?_
  refine Keeps.lookup ?_
  refine Keeps.expect hdb fun _ _ => ?_
  split
  · exact (keeps_ensure hdb).mono fun _ _ _ => trivial
  · split
    · exact (keeps_invitationSave hdb).mono fun _ _ _ => trivial
    · refine (keeps_invitationTake hdb).bind fun _ db₁ hdb₁ h₁ => ?_
      have hmem₁ : m∈db₁.members := h₁.members ▸ hmem
      have hinvited : m.status≠Confirmed := by
        rw [of_decide_eq_true hstatus]
        decide
      exact keeps_resaveMember hdb₁ hmem₁ rfl rfl rfl fun _ => .inr hinvited

theorem keeps_acceptOrgInvite {user : User} {m m' : Membership} {key : Option Text}
    (hdb : Inv strict db.toTables) (hm : m∈db.members) (huuid : m'.uuid=m.uuid)
    (huser : m'.userUuid=m.userUuid) (horg : m'.orgUuid=m.orgUuid) (hstatus : m'.status=m.status) :
    Keeps strict (fun _ _ => True) (acceptOrgInvite settings out user m' key) db := by
  unfold acceptOrgInvite
  refine Keeps.ensure hdb fun hinvited => ?_
  refine (keeps_checkUserAllowed hdb).bind fun _ db₁ hdb₁ h₁ => ?_
  have hmem₁ : m∈db₁.members := h₁.members ▸ hm
  have hne : m.status≠Confirmed := by
    rw [← hstatus,of_decide_eq_true hinvited]
    decide
  have hsaved : Keeps strict (fun _ _ => True)
      (Membership.save {m' with status := Accepted, resetPasswordKey := key}) db₁ :=
    keeps_resaveMember hdb₁ hmem₁ huuid huser horg fun _ => .inr hne
  refine hsaved.bind fun _ db₂ hdb₂ _ => ?_
  split
  · refine Keeps.lookup ?_
    refine Keeps.expect hdb₂ fun _ _ => ?_
    exact (keeps_ensure hdb₂).mono fun _ _ _ => trivial
  · exact Keeps.done hdb₂ trivial

theorem keeps_acceptInvite {id : Option Uuid} {claims : InviteClaims} {key : Option Text}
    (hdb : Inv strict db.toTables) :
    Keeps strict (fun _ _ => True) (acceptInvite settings out caller org id claims key) db := by
  unfold acceptInvite
  refine Keeps.lookup ?_
  refine Keeps.expect hdb fun user _ => ?_
  refine Keeps.ensure hdb fun _ => ?_
  refine Keeps.ensure hdb fun _ => ?_
  refine Keeps.ensure hdb fun _ => ?_
  refine (keeps_invitationTake hdb).bind fun _ db₁ hdb₁ _ => ?_
  split
  · refine Keeps.lookup ?_
    refine Keeps.expect hdb₁ fun m hm => ?_
    obtain ⟨hmem,-,-⟩ := found_member hm
    refine Keeps.lookup ?_
    refine Keeps.ensure hdb₁ fun _ => ?_
    exact keeps_acceptOrgInvite hdb₁ hmem rfl rfl rfl rfl
  · split
    · exact (keeps_ensure hdb₁).mono fun _ _ _ => trivial
    · exact Keeps.done hdb₁ trivial

theorem keeps_mailConfirmed {user : Uuid} (hdb : Inv strict db.toTables) :
    Keeps strict (fun _ db' => db'=db) (mailConfirmed settings out org user) db := by
  unfold mailConfirmed
  split
  · refine Keeps.lookup ?_
    refine Keeps.expect hdb fun _ _ => ?_
    refine Keeps.lookup ?_
    refine Keeps.expect hdb fun _ _ => ?_
    exact keeps_ensure hdb
  · exact Keeps.done hdb rfl

theorem keeps_confirmImpl {headers : OrgHeaders} {id : Uuid} {key : Text} (hdb : Inv strict db.toTables) :
    Keeps strict (fun _ _ => True) (confirmInviteImpl settings out headers org id key) db := by
  unfold confirmInviteImpl
  refine Keeps.ensure hdb fun _ => ?_
  refine Keeps.lookup ?_
  refine Keeps.expect hdb fun m hm => ?_
  obtain ⟨hmem,-,-⟩ := found_member hm
  refine Keeps.ensure hdb fun _ => ?_
  refine Keeps.ensure hdb fun _ => ?_
  refine (keeps_checkUserAllowed hdb).bind fun _ db₁ hdb₁ h₁ => ?_
  refine Keeps.reads (keeps_mailConfirmed hdb₁) fun _ => ?_
  have hmem₁ : m∈db₁.members := h₁.members ▸ hmem
  exact keeps_resaveMember hdb₁ hmem₁ rfl rfl rfl fun _ => .inl rfl

theorem keeps_editMember {id : Uuid} {data : MemberData} (hdb : Inv strict db.toTables)
    (hgroups : ∀ g∈data.groups,GroupOf org g db.toTables)
    (hconfirmed : strict=true → MemberData.GivesNothing data ∨
      ∀ m∈db.members,m.uuid=id → m.orgUuid=org → m.status=Confirmed) :
    Keeps strict (fun _ _ => True) (editMember settings caller org id data) db := by
  unfold editMember
  refine Keeps.reads (keeps_adminHeaders hdb) fun headers => ?_
  refine Keeps.expect hdb fun newType htype => ?_
  refine Keeps.lookup ?_
  refine Keeps.expect hdb fun m hm => ?_
  obtain ⟨hmem,hid,horg⟩ := found_member hm
  have hgives : strict=true → (accessAllFor data.type newType data.permissions=true ∨
      data.collections=[]) ∧ data.groups=[] ∨ m.status=Confirmed := by
    intro hs
    refine (hconfirmed hs).imp (fun h => ?_) fun h => h m hmem hid horg
    unfold MemberData.GivesNothing MemberData.givesAll at h
    rw [htype] at h
    exact h
  refine Keeps.ensure hdb fun _ => ?_
  refine Keeps.ensure hdb fun _ => ?_
  refine Keeps.reads (keeps_otherOwner hdb) fun _ => ?_
  refine (keeps_checkUserAllowed hdb).bind fun _ db₁ hdb₁ h₁ => ?_
  refine Keeps.lookup ?_
  have hdelete : ∀ (r : CollectionUser) (db' : Database),Inv strict db'.toTables →
      Keeps strict (fun _ db'' => Frame db'.toTables db''.toTables) (CollectionUser.delete r) db' :=
    fun r db' hdb' => keeps_elsewhere hdb' (hdb'.dropRows (fun _ hr => List.mem_of_mem_filter hr)
      (List.Subset.refl _) (List.Subset.refl _) (List.Subset.refl _)) ⟨rfl,rfl,rfl⟩
  refine (keeps_eachElsewhere (fun r _ db' hdb' => hdelete r db' hdb') hdb₁).bind fun _ db₂ hdb₂ h₂ => ?_
  have h₁₂ := h₁.trans h₂
  have hmem₂ : m∈db₂.members := h₁₂.members ▸ hmem
  have hgrant : strict=true → accessAllFor data.type newType data.permissions=true ∨
      data.collections=[] ∨ ∃ q∈db₂.members,q.userUuid=m.userUuid ∧ q.orgUuid=org ∧ q.status=Confirmed := by
    intro hs
    rcases hgives hs with ⟨hall|hnone,-⟩|hstatus
    · exact .inl hall
    · exact .inr (.inl hnone)
    · exact .inr (.inr ⟨m,hmem₂,rfl,horg,hstatus⟩)
  refine (keeps_grantMember hdb₂ hgrant).bind fun _ db₃ hdb₃ h₃ => ?_
  refine (keeps_elsewhere hdb₃ (hdb₃.dropRows (List.Subset.refl _)
    (fun _ hr => List.mem_of_mem_filter hr) (List.Subset.refl _) (List.Subset.refl _)) ⟨rfl,rfl,rfl⟩).bind
    fun _ db₄ hdb₄ h₄ => ?_
  have h₁₄ := (h₁₂.trans h₃).trans h₄
  have hmem₄ : m∈db₄.members := h₁₄.members ▸ hmem
  have hplace : strict=true → data.groups=[] ∨ ∀ q∈db₄.members,q.uuid=m.uuid → q.status=Confirmed := by
    intro hs
    refine (hgives hs).imp (fun h => h.2) fun hstatus q hq he => ?_
    rw [eq_of_key db₄.member_nodup hq hmem₄ he]
    exact hstatus
  refine (keeps_places hdb₄ (memberOf_of_mem hmem₄ horg) (fun g hg => (hgroups g hg).frame h₁₄) hplace).bind
    fun _ db₅ hdb₅ h₅ => ?_
  have hmem₅ : m∈db₅.members := h₅.members ▸ hmem₄
  exact keeps_resaveMember hdb₅ hmem₅ rfl rfl rfl fun _ => Decidable.em _

theorem keeps_deleteMemberImpl {headers : OrgHeaders} {id : Uuid} (hdb : Inv strict db.toTables) :
    Keeps strict (fun _ _ => True) (deleteMemberImpl headers org id) db := by
  unfold deleteMemberImpl
  refine Keeps.lookup ?_
  refine Keeps.expect hdb fun m hm => ?_
  obtain ⟨hmem,-,-⟩ := found_member hm
  refine Keeps.ensure hdb fun _ => ?_
  refine Keeps.reads (keeps_otherOwner hdb) fun _ => ?_
  exact (keeps_deleteMember hdb (sameMember_of_mem hmem)).mono fun _ _ _ => trivial

theorem keeps_restoreImpl {headers : OrgHeaders} {id : Uuid} (hdb : Inv strict db.toTables) :
    Keeps strict (fun _ _ => True) (restoreMemberImpl settings headers org id) db := by
  unfold restoreMemberImpl
  refine Keeps.lookup ?_
  refine Keeps.expect hdb fun m hm => ?_
  obtain ⟨hmem,-,-⟩ := found_member hm
  refine Keeps.ensure hdb fun hactive => ?_
  refine Keeps.ensure hdb fun _ => ?_
  refine Keeps.ensure hdb fun _ => ?_
  refine (keeps_checkUserAllowed hdb).bind fun _ db₁ hdb₁ h₁ => ?_
  have hmem₁ : m∈db₁.members := h₁.members ▸ hmem
  have hne : m.status≠Confirmed := by
    have hlt := of_decide_eq_true hactive
    unfold Accepted at hlt
    unfold Confirmed
    omega
  have hkeep : m.restore.uuid=m.uuid ∧ m.restore.userUuid=m.userUuid ∧ m.restore.orgUuid=m.orgUuid := by
    unfold ServerTables.Membership.restore
    split <;> exact ⟨rfl,rfl,rfl⟩
  exact keeps_resaveMember hdb₁ hmem₁ hkeep.1 hkeep.2.1 hkeep.2.2 fun _ => .inr hne

/-- Grants, places and collections are as before, and members have kept their
keys. -/
structure Restated (t t' : Tables) : Prop where
  /-- Grants. -/
  grants : t'.usersCollections=t.usersCollections
  /-- Places. -/
  places : t'.groupsUsers=t.groupsUsers
  /-- Collections. -/
  collections : t'.collections=t.collections
  /-- Members. -/
  members : ∀ m'∈t'.members,∃ m∈t.members,m.uuid=m'.uuid ∧ m.userUuid=m'.userUuid ∧ m.orgUuid=m'.orgUuid

theorem Restated.refl (t : Tables) : Restated t t := ⟨rfl,rfl,rfl,fun m hm => ⟨m,hm,rfl,rfl,rfl⟩⟩

theorem Restated.trans {t t' t'' : Tables} (h : Restated t t') (h' : Restated t' t'') : Restated t t'' where
  grants := h'.grants.trans h.grants
  places := h'.places.trans h.places
  collections := h'.collections.trans h.collections
  members m'' hm'' := by
    obtain ⟨m',hm',h₁,h₂,h₃⟩ := h'.members m'' hm''
    obtain ⟨m,hm,k₁,k₂,k₃⟩ := h.members m' hm'
    exact ⟨m,hm,k₁.trans h₁,k₂.trans h₂,k₃.trans h₃⟩

/-- Revoking a bare member, in every outcome. -/
theorem leaves_revokeImpl {headers : OrgHeaders} {id : Uuid} (hdb : Inv strict db.toTables)
    (hbare : strict=true → NamesBare org id db.toTables) :
    Leaves (fun _ db' => Inv strict db'.toTables ∧ Restated db.toTables db'.toTables)
      (fun db' => Inv strict db'.toTables ∧ Restated db.toTables db'.toTables)
      (revokeMemberImpl headers org id) db := by
  have hdone : Inv strict db.toTables ∧ Restated db.toTables db.toTables := ⟨hdb,Restated.refl _⟩
  unfold revokeMemberImpl
  refine Leaves.query ?_
  refine Leaves.expect (fun m hm => ?_) hdone
  obtain ⟨hmem,hid,horg⟩ := found_member hm
  refine Leaves.ensure (fun _ => ?_) hdone
  refine Leaves.ensure (fun _ => ?_) hdone
  refine Leaves.ensure (fun _ => ?_) hdone
  have howner : Leaves (fun _ db' => db'=db) (fun db' => db'=db)
      (ensureOtherOwner "Organization must have at least one confirmed owner" (decide (m.atype=.owner)) org)
      db := by
    unfold ensureOtherOwner
    split
    · refine Leaves.query ?_
      unfold ensure
      split <;> exact (rfl : db=db)
    · exact (rfl : db=db)
  refine Ensures.bind (Ensures.mono howner (fun _ _ h => h) fun _ h => h ▸ hdone) fun _ db' hsame => ?_
  subst hsame
  have hkeep : m.revoke.uuid=m.uuid ∧ m.revoke.userUuid=m.userUuid ∧ m.revoke.orgUuid=m.orgUuid := by
    unfold ServerTables.Membership.revoke
    split <;> exact ⟨rfl,rfl,rfl⟩
  have hsame : SameMember m.revoke db'.toTables := by
    intro q hq he
    rw [hkeep.2.1,hkeep.2.2]
    exact sameMember_of_mem hmem q hq (he.trans hkeep.1)
  have hstill : strict=true → m.revoke.status=Confirmed ∨ Bare m.revoke db'.toTables := by
    intro hs
    have h := hbare hs m hmem hid horg
    unfold Bare at h ⊢
    rw [hkeep.1,hkeep.2.1,hkeep.2.2]
    exact .inr h
  refine Ensures.mono leaves_update (fun _ db'' heq => ?_) fun _ h => h ▸ hdone
  rw [heq]
  refine ⟨hdb.saveMember hsame hstill,rfl,rfl,rfl,fun q hq => ?_⟩
  rcases mem_put.mp hq with rfl|⟨hq,-⟩
  · exact ⟨m,hmem,hkeep.1.symm,hkeep.2.1.symm,hkeep.2.2.symm⟩
  · exact ⟨q,hq,rfl,rfl,rfl⟩

/-- Bare members stay bare. -/
theorem NamesBare.restated {id : Uuid} {t t' : Tables} (h : NamesBare org id t) (hs : Restated t t') :
    NamesBare org id t' := by
  intro m' hm' hid horg
  obtain ⟨m,hm,huuid,huser,horg'⟩ := hs.members m' hm'
  have hbare := h m hm (huuid.trans hid) (horg'.trans horg)
  unfold Bare at hbare ⊢
  rw [hs.grants,hs.places,hs.collections,← huuid,← huser,← horg']
  exact hbare

theorem keeps_revokeMembers {ids : List Uuid} (hdb : Inv strict db.toTables)
    (hbare : strict=true → ∀ id∈ids,NamesBare org id db.toTables) :
    Keeps strict (fun _ _ => True) (bulkRevokeMembers caller org ids) db := by
  unfold bulkRevokeMembers
  refine Keeps.reads (keeps_adminHeaders hdb) fun headers => ?_
  refine Keeps.mono (keeps_each (I:=fun db' => Restated db.toTables db'.toTables)
    (fun id hid db' hdb' hs => ?_) hdb (Restated.refl _)) fun _ _ _ => trivial
  have hstep := @leaves_revokeImpl strict db' org headers id hdb' fun h => (hbare h id hid).restated hs
  have hboth : Leaves (fun _ db'' => Inv strict db''.toTables ∧ Restated db.toTables db''.toTables)
      (fun db'' => Inv strict db''.toTables ∧ Restated db.toTables db''.toTables)
      (revokeMemberImpl headers org id) db' :=
    Ensures.mono hstep (fun _ _ h => ⟨h.1,hs.trans h.2⟩) fun _ h => ⟨h.1,hs.trans h.2⟩
  exact Leaves.ok hboth

theorem keeps_revokeMember {id : Uuid} (hdb : Inv strict db.toTables)
    (hbare : strict=true → NamesBare org id db.toTables) :
    Keeps strict (fun _ _ => True) (revokeMember caller org id) db := by
  unfold revokeMember
  refine Keeps.reads (keeps_adminHeaders hdb) fun headers => ?_
  exact Ensures.mono (leaves_revokeImpl hdb hbare) (fun _ _ h => ⟨h.1,trivial⟩) fun _ h => h.1

end Members

section Groups

/-- `GroupRequest::validate`. -/
theorem keeps_validateGroup {data : GroupRequest} (hdb : Inv strict db.toTables) :
    Keeps strict (fun _ db' => db'=db ∧ (∀ k∈data.collections,CollectionOf org k.id db.toTables) ∧
      ∀ x∈data.users,MemberOf org x db.toTables) (data.validate org) db := by
  unfold GroupRequest.validate
  refine Keeps.lookup ?_
  refine Keeps.ensure hdb fun hcollections => ?_
  refine Keeps.lookup ?_
  have hk : ∀ k∈data.collections,CollectionOf org k.id db.toTables := by
    intro k hk
    have hlisted := of_decide_eq_true (List.all_eq_true.mp hcollections k hk)
    obtain ⟨q,hq,hid⟩ := List.mem_map.mp hlisted
    obtain ⟨hq,horg⟩ := List.mem_filter.mp hq
    exact hid ▸ collectionOf_of_mem hq (of_decide_eq_true horg)
  cases hvalid : data.users.all fun x =>
      decide (x∈(db.members.filter fun m => m.orgUuid=org).map ServerTables.Membership.uuid) with
  | false => exact hdb
  | true => exact ⟨hdb,rfl,hk,memberOf_of_listed hvalid⟩

/-- `add_update_group`. -/
theorem keeps_addUpdateGroup {g : Group} {collections : List CollectionData} {users : List Uuid}
    (hdb : Inv strict db.toTables) (hg : GroupOf g.organizationsUuid g.uuid db.toTables)
    (hk : ∀ k∈collections,CollectionOf g.organizationsUuid k.id db.toTables)
    (hm : ∀ x∈users,MemberOf g.organizationsUuid x db.toTables)
    (hconfirmed : strict=true → ∀ x∈users,∀ m∈db.members,m.uuid=x → m.status=Confirmed) :
    Keeps strict (fun _ _ => True) (addUpdateGroup g collections users) db := by
  unfold addUpdateGroup
  refine (keeps_update hdb (hdb.saveGroup hg)).bind fun _ db₁ hdb₁ heq => ?_
  have hmembers₁ : db₁.members=db.members := by rw [heq]
  have hcollections₁ : db₁.collections=db.collections := by rw [heq]
  have hg₁ : GroupOf g.organizationsUuid g.uuid db₁.toTables := by
    rw [heq]
    intro q hq he
    rcases mem_put.mp hq with rfl|⟨-,hne⟩
    · rfl
    · exact absurd he hne
  have hk₁ : ∀ k∈collections,CollectionOf g.organizationsUuid k.id db₁.toTables := by
    unfold CollectionOf
    rw [hcollections₁]
    exact hk
  have hgrants : Keeps strict (fun _ db' => Frame db₁.toTables db'.toTables)
      (each collections fun col => CollectionGroup.save ⟨col.id,g.uuid,col.flags⟩) db₁ := by
    refine keeps_each (fun col hcol db' hdb' hframe => ?_) hdb₁ (Frame.refl _)
    have hinv := hdb'.groupGrant (f:=col.flags) ((hk₁ col hcol).frame hframe) (hg₁.frame hframe)
    exact (keeps_elsewhere hdb' hinv ⟨rfl,rfl,rfl⟩).mono fun _ _ h => hframe.trans h
  refine hgrants.bind fun _ db₂ hdb₂ h₂ => ?_
  have hm₂ : ∀ x∈users,MemberOf g.organizationsUuid x db₂.toTables := by
    unfold MemberOf
    rw [h₂.members,hmembers₁]
    exact hm
  have hconfirmed₂ : strict=true → ∀ x∈users,∀ m∈db₂.members,m.uuid=x → m.status=Confirmed := by
    rw [h₂.members,hmembers₁]
    exact hconfirmed
  exact (keeps_members hdb₂ (hg₁.frame h₂) hm₂ hconfirmed₂).mono fun _ _ _ => trivial

theorem keeps_postGroups {data : GroupRequest} (hdb : Inv strict db.toTables)
    (hconfirmed : strict=true → ∀ x∈data.users,∀ m∈db.members,m.uuid=x → m.status=Confirmed) :
    Keeps strict (fun _ _ => True) (postGroups settings caller org data) db := by
  unfold postGroups
  refine Keeps.reads (keeps_adminHeaders hdb) fun headers => ?_
  refine Keeps.ensure hdb fun _ => ?_
  refine (keeps_validateGroup hdb).bind fun _ db' _ hvalid => ?_
  obtain ⟨rfl,hk,hm⟩ := hvalid
  refine Keeps.getUuid ?_
  have hfresh : GroupOf org db'.next db'.drawn.toTables := by
    intro g hg he
    have hlt : g.uuid<db'.next := db'.valid.2.2.2.2.2.2.1 g hg
    exact absurd he hlt.ne
  exact keeps_addUpdateGroup (inv_drawn hdb) hfresh hk hm hconfirmed

theorem keeps_putGroup {id : Uuid} {data : GroupRequest} (hdb : Inv strict db.toTables)
    (hconfirmed : strict=true → ∀ x∈data.users,∀ m∈db.members,m.uuid=x → m.status=Confirmed) :
    Keeps strict (fun _ _ => True) (putGroup settings caller org id data) db := by
  unfold putGroup
  refine Keeps.reads (keeps_adminHeaders hdb) fun headers => ?_
  refine Keeps.ensure hdb fun _ => ?_
  refine Keeps.lookup ?_
  refine Keeps.expect hdb fun g hg => ?_
  obtain ⟨hmem,rfl,rfl⟩ := found_group hg
  refine (keeps_validateGroup hdb).bind fun _ db' _ hvalid => ?_
  obtain ⟨rfl,hk,hm⟩ := hvalid
  refine (keeps_elsewhere hdb (hdb.dropRows (List.Subset.refl _) (List.Subset.refl _)
    (fun _ hr => List.mem_of_mem_filter hr) (List.Subset.refl _)) ⟨rfl,rfl,rfl⟩).bind
    fun _ db₁ hdb₁ h₁ => ?_
  refine (keeps_elsewhere hdb₁ (hdb₁.dropRows (List.Subset.refl _) (fun _ hr => List.mem_of_mem_filter hr)
    (List.Subset.refl _) (List.Subset.refl _)) ⟨rfl,rfl,rfl⟩).bind fun _ db₂ hdb₂ h₂ => ?_
  have h₁₂ := h₁.trans h₂
  have hg₂ : GroupOf g.organizationsUuid g.uuid db₂.toTables := (groupOf_of_mem hmem rfl).frame h₁₂
  refine keeps_addUpdateGroup hdb₂ hg₂ (fun k hk' => (hk k hk').frame h₁₂)
    (fun x hx => (hm x hx).frame h₁₂) ?_
  rw [h₁₂.members]
  exact hconfirmed

theorem keeps_deleteGroupImpl {id : Uuid} (hdb : Inv strict db.toTables) :
    Keeps strict (fun _ _ => True) (deleteGroupImpl settings org id) db := by
  unfold deleteGroupImpl
  refine Keeps.ensure hdb fun _ => ?_
  refine Keeps.lookup ?_
  exact Keeps.expect hdb fun g _ => keeps_deleteGroup hdb

theorem keeps_putGroupMembers {id : Uuid} {users : List Uuid} (hdb : Inv strict db.toTables)
    (hconfirmed : strict=true → ∀ x∈users,∀ m∈db.members,m.uuid=x → m.status=Confirmed) :
    Keeps strict (fun _ _ => True) (putGroupMembers settings caller org id users) db := by
  unfold putGroupMembers
  refine Keeps.reads (keeps_adminHeaders hdb) fun headers => ?_
  refine Keeps.ensure hdb fun _ => ?_
  refine Keeps.lookup ?_
  refine Keeps.expect hdb fun g hg => ?_
  obtain ⟨hmem,rfl,rfl⟩ := found_group hg
  refine Keeps.lookup ?_
  refine Keeps.ensure hdb fun hlisted => ?_
  have hm := memberOf_of_listed hlisted
  refine (keeps_elsewhere hdb (hdb.dropRows (List.Subset.refl _) (fun _ hr => List.mem_of_mem_filter hr)
    (List.Subset.refl _) (List.Subset.refl _)) ⟨rfl,rfl,rfl⟩).bind fun _ db₁ hdb₁ h₁ => ?_
  have hg₁ : GroupOf g.organizationsUuid g.uuid db₁.toTables := (groupOf_of_mem hmem rfl).frame h₁
  refine (keeps_members hdb₁ hg₁ (fun x hx => (hm x hx).frame h₁) ?_).mono fun _ _ _ => trivial
  rw [h₁.members]
  exact hconfirmed

theorem keeps_deleteGroupMember {id member : Uuid} (hdb : Inv strict db.toTables) :
    Keeps strict (fun _ _ => True) (postDeleteGroupMember settings caller org id member) db := by
  unfold postDeleteGroupMember
  refine Keeps.reads (keeps_adminHeaders hdb) fun headers => ?_
  refine Keeps.ensure hdb fun _ => ?_
  refine Keeps.lookup ?_
  refine Keeps.expect hdb fun _ _ => ?_
  refine Keeps.lookup ?_
  refine Keeps.expect hdb fun _ _ => ?_
  exact keeps_quiet hdb (hdb.dropRows (List.Subset.refl _) (fun _ hr => List.mem_of_mem_filter hr)
    (List.Subset.refl _) (List.Subset.refl _))

end Groups

/-- Every request keeps the invariant under its condition. -/
theorem keeps_handle {r : Request} (hdb : Inv strict db.toTables) (hgroups : NamesOwnGroups db.toTables r)
    (hconfirmed : strict=true → GivesToConfirmed db.toTables r) :
    Keeps strict (fun _ _ => True) (handle settings out r) db := by
  have hguarded {impl : OrgHeaders → Action Unit}
      (h : ∀ headers,Keeps strict (fun _ _ => True) (impl headers) db) (caller org : Uuid) :
      Keeps strict (fun _ _ => True) (adminHeaders caller org >>= impl) db :=
    Keeps.reads (keeps_adminHeaders hdb) h
  cases r with
  | createOrganization caller billingEmail key => exact keeps_createOrganization hdb
  | leaveOrganization caller org => exact keeps_leave hdb
  | postCollections caller org data => exact keeps_postCollections hdb hconfirmed
  | postBulkAccess caller org ids data => exact keeps_postBulkAccess hdb hgroups hconfirmed
  | updateCollection caller org id data => exact keeps_updateCollection hdb hconfirmed
  | deleteCollection caller org id =>
    exact Keeps.reads (keeps_managerHeaders hdb) fun _ => keeps_deleteCollectionImpl hdb
  | deleteCollections caller org ids => exact keeps_deleteCollections hdb
  | sendInvite caller org emails data => exact keeps_sendInvite hdb hconfirmed
  | reinviteMember caller org id => exact hguarded (fun _ => keeps_reinviteImpl hdb) caller org
  | reinviteMembers caller org ids =>
    exact hguarded (fun _ => keeps_loop hdb fun _ _ h => keeps_ok (keeps_reinviteImpl h)) caller org
  | acceptInvite caller org id claims key => exact keeps_acceptInvite hdb
  | confirmInvite caller org id key => exact hguarded (fun _ => keeps_confirmImpl hdb) caller org
  | confirmInvites caller org keys =>
    exact hguarded (fun _ => keeps_loop hdb fun _ _ h => keeps_ok (keeps_confirmImpl h)) caller org
  | editMember caller org id data => exact keeps_editMember hdb hgroups hconfirmed
  | deleteMember caller org id => exact hguarded (fun _ => keeps_deleteMemberImpl hdb) caller org
  | deleteMembers caller org ids =>
    exact hguarded (fun _ => keeps_loop hdb fun _ _ h => keeps_ok (keeps_deleteMemberImpl h)) caller org
  | revokeMember caller org id => exact keeps_revokeMember hdb hconfirmed
  | revokeMembers caller org ids => exact keeps_revokeMembers hdb hconfirmed
  | restoreMember caller org id => exact hguarded (fun _ => keeps_restoreImpl hdb) caller org
  | restoreMembers caller org ids =>
    exact hguarded (fun _ => keeps_loop hdb fun _ _ h => keeps_ok (keeps_restoreImpl h)) caller org
  | postGroups caller org data => exact keeps_postGroups hdb hconfirmed
  | putGroup caller org id data => exact keeps_putGroup hdb hconfirmed
  | deleteGroup caller org id => exact hguarded (fun _ => keeps_deleteGroupImpl hdb) caller org
  | deleteGroups caller org ids =>
    refine hguarded (fun _ => ?_) caller org
    exact Keeps.ensure hdb fun _ => keeps_loop hdb fun _ _ h => keeps_deleteGroupImpl h
  | putGroupMembers caller org id users => exact keeps_putGroupMembers hdb hconfirmed
  | deleteGroupMember caller org id member => exact keeps_deleteGroupMember hdb

end NadSafe.OrgRequests
