import NadSafe.OrgHandlers

/-!
# Rows that join two tables stay inside one organisation

What the organisation endpoints keep: places in groups and grants to groups
join rows of one organisation, and, where grants and places go to confirmed
members only, they stay with confirmed members. One lemma for each kind of
write says what the write needs; each handler is then one walk through its
statements.
-/

namespace NadSafe.OrgIsolation

open HostText TableRows AsyncScript ServerTables AccessQueries SyncAgreement CollectionFlags StoreScript
open ServerModels OrgHandlers SequentialScript

/-- The membership belongs to the organisation, wherever it is found. -/
def MemberOf (org x : Uuid) (t : Tables) : Prop := ∀ m∈t.members,m.uuid=x → m.orgUuid=org

/-- The group belongs to the organisation, wherever it is found. -/
def GroupOf (org x : Uuid) (t : Tables) : Prop := ∀ g∈t.groups,g.uuid=x → g.organizationsUuid=org

/-- The collection belongs to the organisation, wherever it is found. -/
def CollectionOf (org x : Uuid) (t : Tables) : Prop := ∀ k∈t.collections,k.uuid=x → k.orgUuid=org

/-- A membership with this key is of the same account and organisation. -/
def SameMember (m : Membership) (t : Tables) : Prop :=
  ∀ q∈t.members,q.uuid=m.uuid → q.orgUuid=m.orgUuid ∧ q.userUuid=m.userUuid

/-- Places in groups and grants to groups join rows of one organisation. -/
structure Isolated (t : Tables) : Prop where
  /-- Groups and memberships. -/
  groupsUsers : ∀ r∈t.groupsUsers,∀ g∈t.groups,g.uuid=r.groupsUuid →
    ∀ m∈t.members,m.uuid=r.usersOrganizationsUuid → g.organizationsUuid=m.orgUuid
  /-- Collections and groups. -/
  collectionsGroups : ∀ r∈t.collectionsGroups,∀ k∈t.collections,k.uuid=r.collectionsUuid →
    ∀ g∈t.groups,g.uuid=r.groupsUuid → k.orgUuid=g.organizationsUuid

/-- Ciphers are in collections of their own organisation, and a cipher of an
organisation has no personal owner. -/
structure LinkedWithin (t : Tables) : Prop where
  /-- Ciphers and collections. -/
  ciphersCollections : ∀ r∈t.ciphersCollections,∀ c∈t.ciphers,c.uuid=r.cipherUuid →
    ∀ k∈t.collections,k.uuid=r.collectionUuid → c.organizationUuid=some k.orgUuid
  /-- One owner. -/
  owners : ∀ c∈t.ciphers,c.organizationUuid≠none → c.userUuid=none

/-- Grants and places are those of confirmed members. -/
structure ConfirmedOnly (t : Tables) : Prop where
  /-- Grants. -/
  grants : ∀ r∈t.usersCollections,∀ k∈t.collections,k.uuid=r.collectionUuid →
    ∃ m∈t.members,m.userUuid=r.userUuid ∧ m.orgUuid=k.orgUuid ∧ m.status=Confirmed
  /-- Places. -/
  places : ∀ r∈t.groupsUsers,∀ m∈t.members,m.uuid=r.usersOrganizationsUuid → m.status=Confirmed

/-- What is kept; the last part only where it is asked for. -/
structure Inv (strict : Bool) (t : Tables) : Prop where
  /-- Groups. -/
  isolated : Isolated t
  /-- Ciphers. -/
  linked : LinkedWithin t
  /-- Confirmed members. -/
  confirmed : strict=true → ConfirmedOnly t

/-- No grant in the organisation of a membership, and no place. -/
def Bare (m : Membership) (t : Tables) : Prop :=
  (∀ r∈t.usersCollections,r.userUuid=m.userUuid → ∀ k∈t.collections,k.uuid=r.collectionUuid →
    k.orgUuid≠m.orgUuid) ∧ ∀ r∈t.groupsUsers,r.usersOrganizationsUuid≠m.uuid

variable {strict : Bool}

section Writes

variable {t : Tables} {db : Database}

/-- A place in a group of the member's organisation. -/
theorem Inv.place {org g x : Uuid} (h : Inv strict t) (hg : GroupOf org g t) (hm : MemberOf org x t)
    (hconfirmed : strict=true → ∀ m∈t.members,m.uuid=x → m.status=Confirmed) :
    Inv strict {t with groupsUsers := put id ⟨g,x⟩ t.groupsUsers} := by
  refine ⟨⟨?_,h.isolated.collectionsGroups⟩,⟨h.linked.ciphersCollections,h.linked.owners⟩,fun hs => ⟨(h.confirmed hs).grants,?_⟩⟩
  · intro r hr q hq hqr m hm' hmr
    rcases mem_put.mp hr with rfl|⟨hr,-⟩
    · rw [hg q hq hqr,hm m hm' hmr]
    · exact h.isolated.groupsUsers r hr q hq hqr m hm' hmr
  · intro r hr m hm' hmr
    rcases mem_put.mp hr with rfl|⟨hr,-⟩
    · exact hconfirmed hs m hm' hmr
    · exact (h.confirmed hs).places r hr m hm' hmr

/-- A grant to a group of the collection's organisation. -/
theorem Inv.groupGrant {org k g : Uuid} {f : Flags} (h : Inv strict t) (hk : CollectionOf org k t)
    (hg : GroupOf org g t) :
    Inv strict {t with collectionsGroups := put CollectionGroup.key ⟨k,g,f⟩ t.collectionsGroups} := by
  refine ⟨⟨h.isolated.groupsUsers,?_⟩,⟨h.linked.ciphersCollections,h.linked.owners⟩,fun hs => ⟨(h.confirmed hs).grants,(h.confirmed hs).places⟩⟩
  intro r hr q hq hqr g' hg' hgr
  rcases mem_put.mp hr with rfl|⟨hr,-⟩
  · rw [hk q hq hqr,hg g' hg' hgr]
  · exact h.isolated.collectionsGroups r hr q hq hqr g' hg' hgr

/-- A grant to a confirmed member of the collection's organisation. -/
theorem Inv.grant {org k user : Uuid} {f : Flags} (h : Inv strict t) (hk : CollectionOf org k t)
    (hconfirmed : strict=true → ∃ m∈t.members,m.userUuid=user ∧ m.orgUuid=org ∧ m.status=Confirmed) :
    Inv strict {t with usersCollections := put CollectionUser.key ⟨user,k,f⟩ t.usersCollections} := by
  refine ⟨⟨h.isolated.groupsUsers,h.isolated.collectionsGroups⟩,⟨h.linked.ciphersCollections,h.linked.owners⟩,
    fun hs => ⟨?_,(h.confirmed hs).places⟩⟩
  intro r hr q hq hqr
  rcases mem_put.mp hr with rfl|⟨hr,-⟩
  · obtain ⟨m,hm,huser,horg,hstatus⟩ := hconfirmed hs
    exact ⟨m,hm,huser,horg.trans (hk q hq hqr).symm,hstatus⟩
  · exact (h.confirmed hs).grants r hr q hq hqr

/-- Grants, places, grants to groups and links may be dropped. -/
theorem Inv.dropRows {grants : List CollectionUser} {places : List GroupUser}
    {groupGrants : List CollectionGroup} {links : List CollectionCipher} (h : Inv strict t)
    (hgrants : grants⊆t.usersCollections) (hplaces : places⊆t.groupsUsers)
    (hgroupGrants : groupGrants⊆t.collectionsGroups) (hlinks : links⊆t.ciphersCollections) :
    Inv strict {t with
      usersCollections := grants
      groupsUsers := places
      collectionsGroups := groupGrants
      ciphersCollections := links} where
  isolated := ⟨fun r hr => h.isolated.groupsUsers r (hplaces hr),
    fun r hr => h.isolated.collectionsGroups r (hgroupGrants hr)⟩
  linked := ⟨fun r hr => h.linked.ciphersCollections r (hlinks hr),h.linked.owners⟩
  confirmed hs := ⟨fun r hr => (h.confirmed hs).grants r (hgrants hr),
    fun r hr => (h.confirmed hs).places r (hplaces hr)⟩

/-- Collections, groups and ciphers may be dropped. -/
theorem Inv.dropOwners {collections : List Collection} {groups : List Group} {ciphers : List Cipher}
    (h : Inv strict t) (hcollections : collections⊆t.collections) (hgroups : groups⊆t.groups)
    (hciphers : ciphers⊆t.ciphers) :
    Inv strict {t with collections := collections, groups := groups, ciphers := ciphers} where
  isolated := ⟨fun r hr g hg => h.isolated.groupsUsers r hr g (hgroups hg),
    fun r hr k hk hkr g hg => h.isolated.collectionsGroups r hr k (hcollections hk) hkr g (hgroups hg)⟩
  linked := ⟨fun r hr c hc hcr k hk => h.linked.ciphersCollections r hr c (hciphers hc) hcr k
      (hcollections hk),fun c hc => h.linked.owners c (hciphers hc)⟩
  confirmed hs := ⟨fun r hr k hk => (h.confirmed hs).grants r hr k (hcollections hk),
    (h.confirmed hs).places⟩

/-- A bare membership may be dropped. -/
theorem Inv.dropMember {m : Membership} (h : Inv strict t) (hm : SameMember m t)
    (hbare : strict=true → Bare m t) :
    Inv strict {t with members := t.members.filter fun q => q.uuid≠m.uuid} where
  isolated := ⟨fun r hr g hg hgr q hq => h.isolated.groupsUsers r hr g hg hgr q (List.mem_of_mem_filter hq),
    h.isolated.collectionsGroups⟩
  linked := ⟨h.linked.ciphersCollections,h.linked.owners⟩
  confirmed hs := by
    refine ⟨fun r hr k hk hkr => ?_,fun r hr q hq =>
      (h.confirmed hs).places r hr q (List.mem_of_mem_filter hq)⟩
    obtain ⟨q,hq,huser,horg,hstatus⟩ := (h.confirmed hs).grants r hr k hk hkr
    have hne : q.uuid≠m.uuid := by
      intro he
      obtain ⟨horg',huser'⟩ := hm q hq he
      exact (hbare hs).1 r hr (huser.symm.trans huser') k hk hkr (horg.symm.trans horg')
    exact ⟨q,List.mem_filter.mpr ⟨hq,decide_eq_true hne⟩,huser,horg,hstatus⟩

/-- A membership that was not confirmed is bare. -/
theorem bare_of_unconfirmed {m : Membership} (h : ConfirmedOnly db.toTables) (hm : m∈db.members)
    (hstatus : m.status≠Confirmed) : Bare m db.toTables := by
  refine ⟨fun r hr huser k hk hkr horg => ?_,fun r hr he => hstatus (h.places r hr m hm he.symm)⟩
  obtain ⟨q,hq,huser',horg',hconfirmed⟩ := h.grants r hr k hk hkr
  have hkey : (q.userUuid,q.orgUuid)=(m.userUuid,m.orgUuid) := by rw [huser',huser,horg',horg]
  exact hstatus (eq_of_key db.membership_nodup hq hm hkey ▸ hconfirmed)

/-- A membership is saved that is confirmed or bare. -/
theorem Inv.saveMember {m : Membership} (h : Inv strict db.toTables) (hm : SameMember m db.toTables)
    (hconfirmed : strict=true → m.status=Confirmed ∨ Bare m db.toTables) :
    Inv strict {db.toTables with members := put Membership.uuid m db.members} where
  isolated := by
    refine ⟨fun r hr g hg hgr q hq hqr => ?_,h.isolated.collectionsGroups⟩
    rcases mem_put.mp hq with rfl|⟨hq,-⟩
    · obtain ⟨m₀,hm₀,hr₀⟩ := db.member_of_group hr
      rw [h.isolated.groupsUsers r hr g hg hgr m₀ hm₀ hr₀,(hm m₀ hm₀ (hr₀.trans hqr.symm)).1]
    · exact h.isolated.groupsUsers r hr g hg hgr q hq hqr
  linked := ⟨h.linked.ciphersCollections,h.linked.owners⟩
  confirmed hs := by
    refine ⟨fun r hr k hk hkr => ?_,fun r hr q hq hqr => ?_⟩
    · obtain ⟨q,hq,huser,horg,hstatus⟩ := (h.confirmed hs).grants r hr k hk hkr
      by_cases hkey : q.uuid=m.uuid
      · obtain ⟨horg',huser'⟩ := hm q hq hkey
        rcases hconfirmed hs with hnew|hbare
        · exact ⟨m,mem_put.mpr (.inl rfl),huser'.symm.trans huser,horg'.symm.trans horg,hnew⟩
        · exact absurd (horg.symm.trans horg') (hbare.1 r hr (huser.symm.trans huser') k hk hkr)
      · exact ⟨q,mem_put.mpr (.inr ⟨hq,hkey⟩),huser,horg,hstatus⟩
    · rcases mem_put.mp hq with rfl|⟨hq,-⟩
      · exact (hconfirmed hs).resolve_right fun hbare => hbare.2 r hr hqr.symm
      · exact (h.confirmed hs).places r hr q hq hqr

/-- A group is saved under its organisation. -/
theorem Inv.saveGroup {g : Group} (h : Inv strict db.toTables)
    (hg : GroupOf g.organizationsUuid g.uuid db.toTables) :
    Inv strict {db.toTables with groups := put Group.uuid g db.groups} where
  isolated := by
    refine ⟨fun r hr q hq hqr m hm hmr => ?_,fun r hr k hk hkr q hq hqr => ?_⟩
    · rcases mem_put.mp hq with rfl|⟨hq,-⟩
      · obtain ⟨g₀,hg₀,hr₀⟩ := db.group_of_user hr
        rw [← hg g₀ hg₀ (hr₀.trans hqr.symm),h.isolated.groupsUsers r hr g₀ hg₀ hr₀ m hm hmr]
      · exact h.isolated.groupsUsers r hr q hq hqr m hm hmr
    · rcases mem_put.mp hq with rfl|⟨hq,-⟩
      · obtain ⟨g₀,hg₀,hr₀⟩ := db.group_of_collection hr
        rw [← hg g₀ hg₀ (hr₀.trans hqr.symm),h.isolated.collectionsGroups r hr k hk hkr g₀ hg₀ hr₀]
      · exact h.isolated.collectionsGroups r hr k hk hkr q hq hqr
  linked := ⟨h.linked.ciphersCollections,h.linked.owners⟩
  confirmed hs := ⟨(h.confirmed hs).grants,(h.confirmed hs).places⟩

/-- A collection is saved under its organisation. -/
theorem Inv.saveCollection {k : Collection} (h : Inv strict db.toTables)
    (hk : CollectionOf k.orgUuid k.uuid db.toTables) :
    Inv strict {db.toTables with collections := put Collection.uuid k db.collections} where
  isolated := by
    refine ⟨h.isolated.groupsUsers,fun r hr q hq hqr g hg hgr => ?_⟩
    rcases mem_put.mp hq with rfl|⟨hq,-⟩
    · obtain ⟨k₀,hk₀,hr₀⟩ := db.collection_of_group hr
      rw [← hk k₀ hk₀ (hr₀.trans hqr.symm),h.isolated.collectionsGroups r hr k₀ hk₀ hr₀ g hg hgr]
    · exact h.isolated.collectionsGroups r hr q hq hqr g hg hgr
  linked := by
    refine ⟨fun r hr c hc hcr q hq hqr => ?_,h.linked.owners⟩
    rcases mem_put.mp hq with rfl|⟨hq,-⟩
    · obtain ⟨k₀,hk₀,hr₀⟩ := db.collection_of_link hr
      rw [← hk k₀ hk₀ (hr₀.trans hqr.symm),h.linked.ciphersCollections r hr c hc hcr k₀ hk₀ hr₀]
    · exact h.linked.ciphersCollections r hr c hc hcr q hq hqr
  confirmed hs := by
    refine ⟨fun r hr q hq hqr => ?_,(h.confirmed hs).places⟩
    rcases mem_put.mp hq with rfl|⟨hq,-⟩
    · obtain ⟨k₀,hk₀,hr₀⟩ := db.collection_of_grant hr
      rw [← hk k₀ hk₀ (hr₀.trans hqr.symm)]
      exact (h.confirmed hs).grants r hr k₀ hk₀ hr₀
    · exact (h.confirmed hs).grants r hr q hq hqr

end Writes

section Rules

variable {α β : Type} {Q : α → Database → Prop} {db : Database}

/-- A handler that keeps the invariant in every outcome and returns with
`Q`. -/
abbrev Keeps (strict : Bool) (Q : α → Database → Prop) (p : Action α) (db : Database) : Prop :=
  Leaves (fun a db' => Inv strict db'.toTables ∧ Q a db') (fun db' => Inv strict db'.toTables) p db

/-- A sequence. -/
theorem Keeps.bind {p : Action β} {R : β → Database → Prop} {f : β → Action α} (h : Keeps strict R p db)
    (hf : ∀ b db',Inv strict db'.toTables → R b db' → Keeps strict Q (f b) db') :
    Keeps strict Q (Script.bind p f) db :=
  Ensures.bind h fun b db' hb => hf b db' hb.1 hb.2

theorem Keeps.mono {p : Action α} {R : α → Database → Prop} (h : Keeps strict R p db)
    (hQ : ∀ a db',R a db' → Q a db') : Keeps strict Q p db :=
  Ensures.mono h (fun a db' ha => ⟨ha.1,hQ a db' ha.2⟩) fun _ he => he

theorem Keeps.done {a : α} (h : Inv strict db.toTables) (hq : Q a db) :
    Keeps strict Q (Script.done a) db := ⟨h,hq⟩

/-- A query. -/
theorem Keeps.lookup {f : Tables → β} {g : β → Action α} (h : Keeps strict Q (g (f db.toTables)) db) :
    Keeps strict Q ((ServerModels.lookup f).bind g) db := Leaves.query h

/-- A check. -/
theorem Keeps.ensure {message : String} {condition : Bool} {g : Unit → Action α}
    (hdb : Inv strict db.toTables) (h : condition=true → Keeps strict Q (g ()) db) :
    Keeps strict Q ((StoreScript.ensure message condition).bind g) db := Leaves.ensure h hdb

/-- A value that has to be there. -/
theorem Keeps.expect {message : String} {value : Option β} {g : β → Action α}
    (hdb : Inv strict db.toTables) (h : ∀ b,value=some b → Keeps strict Q (g b) db) :
    Keeps strict Q ((StoreScript.expect message value).bind g) db := Leaves.expect h hdb

/-- A check at the end. -/
theorem keeps_ensure {message : String} {condition : Bool} (hdb : Inv strict db.toTables) :
    Keeps strict (fun _ db' => db'=db) (StoreScript.ensure message condition) db := by
  cases condition with
  | true => exact ⟨hdb,rfl⟩
  | false => exact hdb

/-- A write that keeps the invariant. -/
theorem keeps_update {message : String} {f : Tables → Tables} (hdb : Inv strict db.toTables)
    (h : Inv strict (f db.toTables)) :
    Keeps strict (fun _ db' => db'.toTables=f db.toTables) (update message f) db :=
  Ensures.mono leaves_update (fun _ _ heq => ⟨heq ▸ h,heq⟩) fun _ heq => heq ▸ hdb

/-- A loop whose body keeps one more fact. -/
theorem keeps_each {I : Database → Prop} {xs : List β} {body : β → Action Unit}
    (hbody : ∀ x∈xs,∀ db,Inv strict db.toTables → I db → Keeps strict (fun _ => I) (body x) db)
    (hdb : Inv strict db.toTables) (hI : I db) : Keeps strict (fun _ => I) (each xs body) db :=
  Leaves.each (fun x hx db h => hbody x hx db h.1 h.2) ⟨hdb,hI⟩

/-- A dropped error. -/
theorem keeps_ok {p : Action Unit} (h : Keeps strict (fun _ _ => True) p db) :
    Keeps strict (fun _ _ => True) (ok p) db := by
  have hboth : Leaves (fun _ db' => Inv strict db'.toTables ∧ True)
      (fun db' => Inv strict db'.toTables ∧ True) p db := Ensures.mono h (fun _ _ h => h) fun _ h => ⟨h,trivial⟩
  exact Leaves.ok hboth

end Rules

/-- Members, groups and collections are as before. -/
structure Frame (t t' : Tables) : Prop where
  /-- Members. -/
  members : t'.members=t.members
  /-- Groups. -/
  groups : t'.groups=t.groups
  /-- Collections. -/
  collections : t'.collections=t.collections

section Facts

variable {t t' t'' : Tables} {org x : Uuid}

theorem Frame.refl (t : Tables) : Frame t t := ⟨rfl,rfl,rfl⟩

theorem Frame.trans (h : Frame t t') (h' : Frame t' t'') : Frame t t'' :=
  ⟨h'.members.trans h.members,h'.groups.trans h.groups,h'.collections.trans h.collections⟩

theorem MemberOf.frame (h : MemberOf org x t) (hf : Frame t t') : MemberOf org x t' := by
  unfold MemberOf
  rw [hf.members]
  exact h

theorem SameMember.frame {m : Membership} (h : SameMember m t) (hf : Frame t t') : SameMember m t' := by
  unfold SameMember
  rw [hf.members]
  exact h

theorem GroupOf.kept (h : GroupOf org x t) (hg : t'.groups=t.groups) : GroupOf org x t' := by
  unfold GroupOf
  rw [hg]
  exact h

theorem GroupOf.frame (h : GroupOf org x t) (hf : Frame t t') : GroupOf org x t' := h.kept hf.groups

theorem CollectionOf.frame (h : CollectionOf org x t) (hf : Frame t t') : CollectionOf org x t' := by
  unfold CollectionOf
  rw [hf.collections]
  exact h

variable {db : Database}

/-- A membership in the tables is its own. -/
theorem sameMember_of_mem {m : Membership} (hm : m∈db.members) : SameMember m db.toTables := by
  intro q hq he
  rw [eq_of_key db.member_nodup hq hm he]
  exact ⟨rfl,rfl⟩

theorem memberOf_of_mem {m : Membership} (hm : m∈db.members) (horg : m.orgUuid=org) :
    MemberOf org m.uuid db.toTables :=
  fun q hq he => (sameMember_of_mem hm q hq he).1.trans horg

theorem groupOf_of_mem {g : Group} (hg : g∈db.groups) (horg : g.organizationsUuid=org) :
    GroupOf org g.uuid db.toTables := by
  intro q hq he
  rw [eq_of_key db.group_nodup hq hg he,horg]

theorem collectionOf_of_mem {k : Collection} (hk : k∈db.collections) (horg : k.orgUuid=org) :
    CollectionOf org k.uuid db.toTables := by
  intro q hq he
  rw [eq_of_key db.collection_nodup hq hk he,horg]

/-- A row that a lookup by key and organisation finds. -/
theorem found_member {id : Uuid} {m : Membership}
    (h : db.members.find? (fun m => decide (m.uuid=id ∧ m.orgUuid=org))=some m) :
    m∈db.members ∧ m.uuid=id ∧ m.orgUuid=org :=
  ⟨List.mem_of_find?_eq_some h,by simpa using List.find?_some h⟩

theorem found_group {id : Uuid} {g : Group}
    (h : db.groups.find? (fun g => decide (g.uuid=id ∧ g.organizationsUuid=org))=some g) :
    g∈db.groups ∧ g.uuid=id ∧ g.organizationsUuid=org :=
  ⟨List.mem_of_find?_eq_some h,by simpa using List.find?_some h⟩

theorem found_collection {id : Uuid} {k : Collection}
    (h : db.collections.find? (fun k => decide (k.uuid=id ∧ k.orgUuid=org))=some k) :
    k∈db.collections ∧ k.uuid=id ∧ k.orgUuid=org :=
  ⟨List.mem_of_find?_eq_some h,by simpa using List.find?_some h⟩

/-- Ids that are among the rows of an organisation. -/
theorem groupOf_of_listed {ids : List Uuid}
    (h : ids.all (fun g => decide (g∈(db.groups.filter fun g => g.organizationsUuid=org).map Group.uuid))=
      true) : ∀ g∈ids,GroupOf org g db.toTables := by
  intro g hg
  have hmem := of_decide_eq_true (List.all_eq_true.mp h g hg)
  obtain ⟨q,hq,rfl⟩ := List.mem_map.mp hmem
  obtain ⟨hq,horg⟩ := List.mem_filter.mp hq
  exact groupOf_of_mem hq (of_decide_eq_true horg)

theorem memberOf_of_listed {ids : List Uuid}
    (h : ids.all (fun x => decide (x∈(db.members.filter fun m => m.orgUuid=org).map Membership.uuid))=
      true) : ∀ x∈ids,MemberOf org x db.toTables := by
  intro x hx
  have hmem := of_decide_eq_true (List.all_eq_true.mp h x hx)
  obtain ⟨q,hq,rfl⟩ := List.mem_map.mp hmem
  obtain ⟨hq,horg⟩ := List.mem_filter.mp hq
  exact memberOf_of_mem hq (of_decide_eq_true horg)

end Facts

section Parts

variable {settings : Settings} {db : Database} {org : Uuid}

/-- What a statement leaves that touches none of these tables. -/
theorem keeps_elsewhere {message : String} {f : Tables → Tables} (hdb : Inv strict db.toTables)
    (hinv : Inv strict (f db.toTables)) (hframe : Frame db.toTables (f db.toTables)) :
    Keeps strict (fun _ db' => Frame db.toTables db'.toTables) (update message f) db :=
  (keeps_update hdb hinv).mono fun _ db' h => h ▸ hframe

theorem keeps_orgHeaders {caller : Uuid} (hdb : Inv strict db.toTables) :
    Keeps strict (fun _ db' => db'=db) (orgHeaders caller org) db := by
  unfold orgHeaders
  refine Keeps.lookup ?_
  refine Keeps.expect hdb fun user _ => ?_
  refine Keeps.lookup ?_
  refine Keeps.expect hdb fun m _ => ?_
  refine Keeps.ensure hdb fun _ => ?_
  exact Keeps.done hdb rfl

/-- A part that reads only. -/
theorem Keeps.reads {α β : Type} {Q : α → Database → Prop} {p : Action β} {f : β → Action α}
    (hp : Keeps strict (fun _ db' => db'=db) p db) (h : ∀ b,Keeps strict Q (f b) db) :
    Keeps strict Q (Script.bind p f) db :=
  hp.bind fun b _ _ hsame => hsame ▸ h b

theorem keeps_adminHeaders {caller : Uuid} (hdb : Inv strict db.toTables) :
    Keeps strict (fun _ db' => db'=db) (adminHeaders caller org) db := by
  refine Keeps.reads (keeps_orgHeaders hdb) fun headers => ?_
  refine Keeps.ensure hdb fun _ => ?_
  exact Keeps.done hdb rfl

theorem keeps_managerHeadersLoose {caller : Uuid} (hdb : Inv strict db.toTables) :
    Keeps strict (fun _ db' => db'=db) (managerHeadersLoose caller org) db := by
  refine Keeps.reads (keeps_orgHeaders hdb) fun headers => ?_
  refine Keeps.ensure hdb fun _ => ?_
  exact Keeps.done hdb rfl

theorem keeps_managerHeaders {caller collection : Uuid} (hdb : Inv strict db.toTables) :
    Keeps strict (fun _ db' => db'=db) (managerHeaders caller org collection) db := by
  refine Keeps.reads (keeps_managerHeadersLoose hdb) fun headers => ?_
  refine Keeps.lookup ?_
  refine Keeps.ensure hdb fun _ => ?_
  exact Keeps.done hdb rfl

/-- Grants to groups of the organisation. -/
theorem keeps_grantGroups {collection : Uuid} {groups : List AccessData} (hdb : Inv strict db.toTables)
    (hk : CollectionOf org collection db.toTables) (hg : ∀ g∈groups,GroupOf org g.id db.toTables) :
    Keeps strict (fun _ db' => Frame db.toTables db'.toTables) (grantGroups collection groups) db := by
  refine keeps_each (fun g hgroup db' hdb' hframe => ?_) hdb (Frame.refl _)
  have hinv := hdb'.groupGrant (f:=g.flags) (hk.frame hframe) ((hg g hgroup).frame hframe)
  exact (keeps_elsewhere hdb' hinv ⟨rfl,rfl,rfl⟩).mono fun _ _ h => hframe.trans h

/-- The members that a request names and that get a grant are confirmed. -/
def NamesConfirmed (org : Uuid) (users : List AccessData) (t : Tables) : Prop :=
  ∀ u∈users,∀ m∈t.members,m.uuid=u.id → m.orgUuid=org → m.accessAll=false → m.status=Confirmed

/-- Grants to members of the organisation. -/
theorem keeps_grantCollection {collection : Uuid} {users : List AccessData}
    (hdb : Inv strict db.toTables) (hk : CollectionOf org collection db.toTables)
    (hconfirmed : strict=true → NamesConfirmed org users db.toTables) :
    Keeps strict (fun _ db' => Frame db.toTables db'.toTables) (grantCollection org collection users)
      db := by
  refine keeps_each (fun u hu db' hdb' hframe => ?_) hdb (Frame.refl _)
  refine Keeps.lookup ?_
  refine Keeps.expect hdb' fun m hm => ?_
  obtain ⟨hmem,hid,horg⟩ := found_member hm
  by_cases hall : m.accessAll=true
  · rw [if_pos hall]
    exact Keeps.done hdb' hframe
  · rw [if_neg hall]
    have hstatus : strict=true →
        ∃ q∈db'.members,q.userUuid=m.userUuid ∧ q.orgUuid=org ∧ q.status=Confirmed := by
      intro hs
      have hold : m∈db.members := hframe.members ▸ hmem
      exact ⟨m,hmem,rfl,horg,hconfirmed hs u hu m hold hid horg (Bool.eq_false_iff.mpr hall)⟩
    have hinv := hdb'.grant (f:=u.flags) (hk.frame hframe) hstatus
    exact (keeps_elsewhere hdb' hinv ⟨rfl,rfl,rfl⟩).mono fun _ _ h => hframe.trans h

/-- Grants to one member. -/
theorem keeps_grantMember {user : Uuid} {accessAll : Bool} {collections : List CollectionData}
    (hdb : Inv strict db.toTables) (hconfirmed : strict=true → accessAll=true ∨ collections=[] ∨
      ∃ m∈db.members,m.userUuid=user ∧ m.orgUuid=org ∧ m.status=Confirmed) :
    Keeps strict (fun _ db' => Frame db.toTables db'.toTables) (grantMember accessAll org user collections)
      db := by
  refine keeps_each (fun col hcol db' hdb' hframe => ?_) hdb (Frame.refl _)
  refine Keeps.lookup ?_
  refine Keeps.expect hdb' fun k hk => ?_
  obtain ⟨hmem,-,horg⟩ := found_collection hk
  have hstatus : strict=true →
      ∃ q∈db'.members,q.userUuid=user ∧ q.orgUuid=org ∧ q.status=Confirmed := by
    intro hs
    rw [hframe.members]
    rcases hconfirmed hs with hall|hnone|hm
    · rw [if_pos hall] at hcol
      cases hcol
    · rw [hnone,ite_self] at hcol
      cases hcol
    · exact hm
  have hinv := hdb'.grant (f:=col.flags) (collectionOf_of_mem hmem horg) hstatus
  exact (keeps_elsewhere hdb' hinv ⟨rfl,rfl,rfl⟩).mono fun _ _ h => hframe.trans h

/-- Places of a member in groups. -/
theorem keeps_places {groups : List Uuid} {x : Uuid} (hdb : Inv strict db.toTables)
    (hm : MemberOf org x db.toTables) (hg : ∀ g∈groups,GroupOf org g db.toTables)
    (hconfirmed : strict=true → groups=[] ∨ ∀ m∈db.members,m.uuid=x → m.status=Confirmed) :
    Keeps strict (fun _ db' => Frame db.toTables db'.toTables)
      (each groups fun group => GroupUser.save ⟨group,x⟩) db := by
  refine keeps_each (fun g hgroup db' hdb' hframe => ?_) hdb (Frame.refl _)
  have hstatus : strict=true → ∀ m∈db'.members,m.uuid=x → m.status=Confirmed := by
    intro hs
    rw [hframe.members]
    rcases hconfirmed hs with hnone|hm
    · rw [hnone] at hgroup
      cases hgroup
    · exact hm
  have hinv := hdb'.place ((hg g hgroup).frame hframe) (hm.frame hframe) hstatus
  exact (keeps_elsewhere hdb' hinv ⟨rfl,rfl,rfl⟩).mono fun _ _ h => hframe.trans h

/-- Places of members in a group. -/
theorem keeps_members {users : List Uuid} {g : Uuid} (hdb : Inv strict db.toTables)
    (hg : GroupOf org g db.toTables) (hm : ∀ x∈users,MemberOf org x db.toTables)
    (hconfirmed : strict=true → ∀ x∈users,∀ m∈db.members,m.uuid=x → m.status=Confirmed) :
    Keeps strict (fun _ db' => Frame db.toTables db'.toTables)
      (each users fun member => GroupUser.save ⟨g,member⟩) db := by
  refine keeps_each (fun x hx db' hdb' hframe => ?_) hdb (Frame.refl _)
  have hstatus : strict=true → ∀ m∈db'.members,m.uuid=x → m.status=Confirmed := by
    intro hs
    rw [hframe.members]
    exact hconfirmed hs x hx
  have hinv := hdb'.place (hg.frame hframe) ((hm x hx).frame hframe) hstatus
  exact (keeps_elsewhere hdb' hinv ⟨rfl,rfl,rfl⟩).mono fun _ _ h => hframe.trans h

/-- Tables that the invariant does not mention may change. -/
theorem Inv.other {t t' : Tables} (h : Inv strict t) (hmembers : t'.members=t.members)
    (hgroups : t'.groups=t.groups) (hcollections : t'.collections=t.collections)
    (hgrants : t'.usersCollections=t.usersCollections) (hplaces : t'.groupsUsers=t.groupsUsers)
    (hgroupGrants : t'.collectionsGroups=t.collectionsGroups) (hciphers : t'.ciphers=t.ciphers)
    (hlinks : t'.ciphersCollections=t.ciphersCollections) : Inv strict t' where
  isolated := ⟨by rw [hplaces,hgroups,hmembers]; exact h.isolated.groupsUsers,
    by rw [hgroupGrants,hcollections,hgroups]; exact h.isolated.collectionsGroups⟩
  linked := ⟨by rw [hlinks,hciphers,hcollections]; exact h.linked.ciphersCollections,
    by rw [hciphers]; exact h.linked.owners⟩
  confirmed hs := ⟨by rw [hgrants,hcollections,hmembers]; exact (h.confirmed hs).grants,
    by rw [hplaces,hmembers]; exact (h.confirmed hs).places⟩

/-- A loop over statements that leave these tables alone. -/
theorem keeps_eachElsewhere {β : Type} {xs : List β} {body : β → Action Unit}
    (hbody : ∀ x∈xs,∀ db,Inv strict db.toTables →
      Keeps strict (fun _ db' => Frame db.toTables db'.toTables) (body x) db)
    (hdb : Inv strict db.toTables) :
    Keeps strict (fun _ db' => Frame db.toTables db'.toTables) (each xs body) db := by
  refine keeps_each (fun x hx db' hdb' hframe => ?_) hdb (Frame.refl _)
  exact (hbody x hx db' hdb').mono fun _ _ h => hframe.trans h

theorem keeps_invitationSave {email : Text} (hdb : Inv strict db.toTables) :
    Keeps strict (fun _ db' => Frame db.toTables db'.toTables) (Invitation.save settings email) db := by
  unfold Invitation.save
  dsimp only
  split
  · exact keeps_elsewhere hdb (hdb.other rfl rfl rfl rfl rfl rfl rfl rfl) ⟨rfl,rfl,rfl⟩
  · exact hdb

theorem keeps_invitationTake {mail : Text} (hdb : Inv strict db.toTables) :
    Keeps strict (fun _ db' => Frame db.toTables db'.toTables) (Invitation.take settings mail) db := by
  unfold Invitation.take
  refine Keeps.lookup ?_
  split
  · refine Ensures.mono leaves_ok_update ?_ fun _ h => h
    rintro _ db' (heq|rfl)
    · dsimp only
      rw [heq]
      exact ⟨hdb.other rfl rfl rfl rfl rfl rfl rfl rfl,⟨rfl,rfl,rfl⟩⟩
    · exact ⟨hdb,Frame.refl _⟩
  · exact Keeps.done hdb (Frame.refl _)

/-- Members were dropped only, and groups are as before. -/
structure Shrinks (t t' : Tables) : Prop where
  /-- Members. -/
  members : t'.members⊆t.members
  /-- Groups. -/
  groups : t'.groups=t.groups

theorem SameMember.shrinks {t t' : Tables} {m : Membership} (h : SameMember m t) (hs : Shrinks t t') :
    SameMember m t' := fun q hq => h q (hs.members hq)

/-- The statements that remove the grants of a member in an organisation. -/
theorem keeps_dropGrants {user : Uuid} (hdb : Inv strict db.toTables) :
    Keeps strict (fun _ db' => (∃ rows⊆db.usersCollections,
        db'.toTables={db.toTables with usersCollections := rows}) ∧
        ∀ r∈db'.usersCollections,r.userUuid=user → ∀ k∈db'.collections,k.uuid=r.collectionUuid →
          k.orgUuid≠org) (CollectionUser.deleteAllByUserAndOrg user org) db := by
  unfold CollectionUser.deleteAllByUserAndOrg
  refine Keeps.lookup ?_
  refine (keeps_update hdb (hdb.dropRows (fun _ hr => List.mem_of_mem_filter hr) (List.Subset.refl _)
    (List.Subset.refl _) (List.Subset.refl _))).mono fun _ db' heq => ?_
  refine ⟨⟨_,fun _ hr => List.mem_of_mem_filter hr,heq⟩,?_⟩
  rw [heq]
  intro r hr huser k hk hkr horg
  obtain ⟨hold,hnot⟩ := List.mem_filter.mp hr
  refine of_decide_eq_true hnot ⟨huser,List.mem_map.mpr ⟨r,?_,rfl⟩⟩
  simp only [CollectionUser.findByOrganizationAndUserUuid,List.mem_map,List.mem_filter,mem_innerJoin,
    Prod.exists,decide_eq_true_eq]
  exact ⟨r,k,⟨⟨⟨hold,huser⟩,hk,hkr⟩,horg⟩,rfl⟩

/-- `Membership::delete`. -/
theorem keeps_deleteMember {m : Membership} (hdb : Inv strict db.toTables)
    (hm : SameMember m db.toTables) :
    Keeps strict (fun _ db' => Shrinks db.toTables db'.toTables) (Membership.delete m) db := by
  unfold Membership.delete
  refine (keeps_dropGrants hdb).bind fun _ db₁ hdb₁ hgrants => ?_
  obtain ⟨⟨rows,-,heq₁⟩,hnone⟩ := hgrants
  refine (keeps_update hdb₁ (hdb₁.dropRows (List.Subset.refl _) (fun _ hr => List.mem_of_mem_filter hr)
    (List.Subset.refl _) (List.Subset.refl _))).bind fun _ db₂ hdb₂ heq₂ => ?_
  have hsame : SameMember m db₂.toTables := by
    rw [heq₂,heq₁]
    exact hm
  have hbare : Bare m db₂.toTables := by
    rw [heq₂]
    exact ⟨hnone,fun r hr => of_decide_eq_true (List.mem_filter.mp hr).2⟩
  refine (keeps_update hdb₂ (hdb₂.dropMember hsame fun _ => hbare)).mono fun _ db₃ heq₃ => ?_
  rw [heq₃,heq₂,heq₁]
  exact ⟨fun _ hq => List.mem_of_mem_filter hq,rfl⟩

/-- `Membership::delete_all_by_user`. -/
theorem keeps_deleteMembers {user : Uuid} (hdb : Inv strict db.toTables) :
    Keeps strict (fun _ _ => True) (Membership.deleteAllByUser user) db := by
  unfold Membership.deleteAllByUser
  refine Keeps.lookup ?_
  have hloop : Keeps strict (fun _ db' => Shrinks db.toTables db'.toTables)
      (each (db.members.filter fun m => m.userUuid=user) Membership.delete) db := by
    refine keeps_each (fun m hm db' hdb' hs => ?_) hdb ⟨List.Subset.refl _,rfl⟩
    have hsame := (sameMember_of_mem (List.mem_of_mem_filter hm)).shrinks hs
    refine (keeps_deleteMember hdb' hsame).mono fun _ db'' hs' => ?_
    exact ⟨fun _ hq => hs.members (hs'.members hq),hs'.groups.trans hs.groups⟩
  exact hloop.mono fun _ _ _ => trivial

/-- `Collection::delete`. -/
theorem keeps_deleteCollection {k : Collection} (hdb : Inv strict db.toTables) :
    Keeps strict (fun _ _ => True) (Collection.delete k) db := by
  unfold Collection.delete
  refine (keeps_update hdb ?_).bind fun _ db₁ hdb₁ _ => ?_
  · exact hdb.dropRows (List.Subset.refl _) (List.Subset.refl _) (List.Subset.refl _)
      fun _ hr => List.mem_of_mem_filter hr
  refine (keeps_update hdb₁ ?_).bind fun _ db₂ hdb₂ _ => ?_
  · exact hdb₁.dropRows (fun _ hr => List.mem_of_mem_filter hr) (List.Subset.refl _) (List.Subset.refl _)
      (List.Subset.refl _)
  refine (keeps_update hdb₂ ?_).bind fun _ db₃ hdb₃ _ => ?_
  · exact hdb₂.dropRows (List.Subset.refl _) (List.Subset.refl _) (fun _ hr => List.mem_of_mem_filter hr)
      (List.Subset.refl _)
  refine (keeps_update hdb₃ ?_).mono fun _ _ _ => trivial
  exact hdb₃.dropOwners (fun _ hr => List.mem_of_mem_filter hr) (List.Subset.refl _) (List.Subset.refl _)

/-- `Group::delete`. -/
theorem keeps_deleteGroup {g : Group} (hdb : Inv strict db.toTables) :
    Keeps strict (fun _ _ => True) (Group.delete g) db := by
  unfold Group.delete
  refine (keeps_update hdb ?_).bind fun _ db₁ hdb₁ _ => ?_
  · exact hdb.dropRows (List.Subset.refl _) (List.Subset.refl _) (fun _ hr => List.mem_of_mem_filter hr)
      (List.Subset.refl _)
  refine (keeps_update hdb₁ ?_).bind fun _ db₂ hdb₂ _ => ?_
  · exact hdb₁.dropRows (List.Subset.refl _) (fun _ hr => List.mem_of_mem_filter hr) (List.Subset.refl _)
      (List.Subset.refl _)
  refine (keeps_update hdb₂ ?_).mono fun _ _ _ => trivial
  exact hdb₂.dropOwners (List.Subset.refl _) (fun _ hr => List.mem_of_mem_filter hr) (List.Subset.refl _)

/-- `Cipher::delete`. -/
theorem keeps_deleteCipher {c : Cipher} (hdb : Inv strict db.toTables) :
    Keeps strict (fun _ _ => True) (Cipher.delete c) db := by
  unfold Cipher.delete
  refine (keeps_update hdb (hdb.other rfl rfl rfl rfl rfl rfl rfl rfl)).bind fun _ db₁ hdb₁ _ => ?_
  refine (keeps_update hdb₁ ?_).bind fun _ db₂ hdb₂ _ => ?_
  · exact hdb₁.dropRows (List.Subset.refl _) (List.Subset.refl _) (List.Subset.refl _)
      fun _ hr => List.mem_of_mem_filter hr
  refine Keeps.lookup ?_
  refine (keeps_eachElsewhere (fun a _ db' hdb' => ?_) hdb₂).bind fun _ db₃ hdb₃ _ => ?_
  · exact keeps_elsewhere hdb' (hdb'.other rfl rfl rfl rfl rfl rfl rfl rfl) ⟨rfl,rfl,rfl⟩
  refine (keeps_update hdb₃ (hdb₃.other rfl rfl rfl rfl rfl rfl rfl rfl)).bind fun _ db₄ hdb₄ _ => ?_
  refine (keeps_update hdb₄ ?_).mono fun _ _ _ => trivial
  exact hdb₄.dropOwners (List.Subset.refl _) (List.Subset.refl _) fun _ hr => List.mem_of_mem_filter hr

/-- A statement on tables that the invariant does not mention. -/
theorem keeps_quiet {message : String} {f : Tables → Tables} (hdb : Inv strict db.toTables)
    (hinv : Inv strict (f db.toTables)) : Keeps strict (fun _ _ => True) (update message f) db :=
  (keeps_update hdb hinv).mono fun _ _ _ => trivial

/-- A loop of such statements. -/
theorem keeps_loop {β : Type} {xs : List β} {body : β → Action Unit} (hdb : Inv strict db.toTables)
    (hbody : ∀ x db,Inv strict db.toTables → Keeps strict (fun _ _ => True) (body x) db) :
    Keeps strict (fun _ _ => True) (each xs body) db :=
  keeps_each (fun x _ db hdb _ => hbody x db hdb) hdb trivial

theorem keeps_otherOwner {message : String} {goes : Bool} (hdb : Inv strict db.toTables) :
    Keeps strict (fun _ db' => db'=db) (ensureOtherOwner message goes org) db := by
  unfold ensureOtherOwner
  split
  · exact Keeps.lookup (keeps_ensure hdb)
  · exact Keeps.done hdb rfl

theorem keeps_deleteEmergencyAccess {user : Uuid} {email : Text} (hdb : Inv strict db.toTables) :
    Keeps strict (fun _ _ => True) (EmergencyAccess.deleteAllByUser user email) db := by
  have hdelete : ∀ e db,Inv strict db.toTables →
      Keeps strict (fun _ _ => True) (EmergencyAccess.delete e) db :=
    fun e db hdb => keeps_quiet hdb (hdb.other rfl rfl rfl rfl rfl rfl rfl rfl)
  unfold EmergencyAccess.deleteAllByUser
  refine Keeps.lookup ?_
  refine (keeps_loop hdb hdelete).bind fun _ db₁ hdb₁ _ => ?_
  refine Keeps.lookup ?_
  refine (keeps_loop hdb₁ hdelete).bind fun _ db₂ hdb₂ _ => ?_
  exact Keeps.lookup (keeps_loop hdb₂ hdelete)

theorem keeps_deleteFolders {user : Uuid} (hdb : Inv strict db.toTables) :
    Keeps strict (fun _ _ => True) (Folder.deleteAllByUser user) db := by
  unfold Folder.deleteAllByUser
  refine Keeps.lookup ?_
  refine keeps_loop hdb fun f db' hdb' => ?_
  refine (keeps_quiet hdb' (hdb'.other rfl rfl rfl rfl rfl rfl rfl rfl)).bind fun _ db₁ hdb₁ _ => ?_
  exact keeps_quiet hdb₁ (hdb₁.other rfl rfl rfl rfl rfl rfl rfl rfl)

/-- `User::delete`. -/
theorem keeps_deleteUser {u : User} (hdb : Inv strict db.toTables) :
    Keeps strict (fun _ _ => True) (User.delete settings u) db := by
  unfold User.delete Send.deleteAllByUser Cipher.deleteAllByUser
  refine Keeps.lookup ?_
  refine (keeps_loop hdb fun m db' hdb' => (keeps_otherOwner hdb').mono fun _ _ _ => trivial).bind
    fun _ db₁ hdb₁ _ => ?_
  have hsends : ∀ (s : Send) (db' : Database),Inv strict db'.toTables → Keeps strict (fun _ _ => True)
      (update "Error deleting send" fun t => {t with sends := t.sends.filter fun q => q.uuid≠s.uuid}) db' :=
    fun s db' hdb' => keeps_quiet hdb' (hdb'.other rfl rfl rfl rfl rfl rfl rfl rfl)
  refine Keeps.bind (Keeps.lookup (keeps_loop hdb₁ hsends)) fun _ db₂ hdb₂ _ => ?_
  refine (keeps_deleteEmergencyAccess hdb₂).bind fun _ db₃ hdb₃ _ => ?_
  refine (keeps_deleteMembers hdb₃).bind fun _ db₄ hdb₄ _ => ?_
  have hciphers : ∀ (c : Cipher) (db' : Database),Inv strict db'.toTables →
      Keeps strict (fun _ _ => True) (Cipher.delete c) db' := fun c db' hdb' => keeps_deleteCipher hdb'
  refine Keeps.bind (Keeps.lookup (keeps_loop hdb₄ hciphers)) fun _ db₅ hdb₅ _ => ?_
  refine (keeps_quiet hdb₅ (hdb₅.other rfl rfl rfl rfl rfl rfl rfl rfl)).bind fun _ db₆ hdb₆ _ => ?_
  refine (keeps_deleteFolders hdb₆).bind fun _ db₇ hdb₇ _ => ?_
  refine (keeps_quiet hdb₇ (hdb₇.other rfl rfl rfl rfl rfl rfl rfl rfl)).bind fun _ db₈ hdb₈ _ => ?_
  refine (keeps_quiet hdb₈ (hdb₈.other rfl rfl rfl rfl rfl rfl rfl rfl)).bind fun _ db₉ hdb₉ _ => ?_
  refine (keeps_invitationTake hdb₉).bind fun _ db₁₀ hdb₁₀ _ => ?_
  exact keeps_quiet hdb₁₀ (hdb₁₀.other rfl rfl rfl rfl rfl rfl rfl rfl)

/-- A search in a list reads only. -/
theorem keeps_findAny {β : Type} {xs : List β} {f : β → Tables → Bool} (hdb : Inv strict db.toTables) :
    Keeps strict (fun _ db' => db'=db) (findAny xs fun x => lookup (f x)) db := by
  induction xs with
  | nil => exact Keeps.done hdb rfl
  | cons x xs ih =>
    refine Keeps.lookup ?_
    split
    · exact Keeps.done hdb rfl
    · exact ih

theorem keeps_isApplicable {user : Uuid} {atype : OrgPolicyType} {exclude : Option Uuid}
    (hdb : Inv strict db.toTables) :
    Keeps strict (fun _ db' => db'=db) (OrgPolicy.isApplicableToUser user atype exclude) db := by
  unfold OrgPolicy.isApplicableToUser
  exact Keeps.lookup (keeps_findAny hdb)

theorem keeps_activateEmail {user : Uuid} (hdb : Inv strict db.toTables) :
    Keeps strict (fun _ db' => Frame db.toTables db'.toTables) (findAndActivateEmail2fa user) db := by
  unfold findAndActivateEmail2fa
  refine Keeps.lookup ?_
  split
  · exact hdb
  · unfold activateEmail2fa
    split
    · have hdrawn : Inv strict db.drawn.toTables := hdb.other rfl rfl rfl rfl rfl rfl rfl rfl
      refine Leaves.draw ?_
      show Keeps strict (fun _ db' => Frame db.toTables db'.toTables) (TwoFactor.save _) db.drawn
      refine (keeps_update hdrawn (hdrawn.other rfl rfl rfl rfl rfl rfl rfl rfl)).mono fun _ db' h => ?_
      rw [h]
      exact ⟨rfl,rfl,rfl⟩
    · exact hdb

theorem keeps_checkTwoFactor {m : Membership} {action : String} (hdb : Inv strict db.toTables) :
    Keeps strict (fun _ db' => Frame db.toTables db'.toTables)
      (OrgPolicy.checkTwoFactor settings m action) db := by
  unfold OrgPolicy.checkTwoFactor
  refine Keeps.lookup (Keeps.lookup ?_)
  split
  · exact Keeps.done hdb (Frame.refl _)
  · split
    · exact keeps_activateEmail hdb
    · exact hdb

theorem keeps_checkSingleOrg {m : Membership} {action : String} (hdb : Inv strict db.toTables) :
    Keeps strict (fun _ db' => db'=db) (OrgPolicy.checkSingleOrg m action) db := by
  unfold OrgPolicy.checkSingleOrg
  refine Keeps.lookup ?_
  split
  · exact Keeps.lookup (keeps_ensure hdb)
  · exact Keeps.done hdb rfl

/-- `OrgPolicy::check_user_allowed`. -/
theorem keeps_checkUserAllowed {m : Membership} {action : String} (hdb : Inv strict db.toTables) :
    Keeps strict (fun _ db' => Frame db.toTables db'.toTables)
      (OrgPolicy.checkUserAllowed settings m action) db := by
  unfold OrgPolicy.checkUserAllowed
  split
  · refine (keeps_checkTwoFactor hdb).bind fun _ db₁ hdb₁ hframe => ?_
    refine Keeps.reads (keeps_isApplicable hdb₁) fun _ => ?_
    refine Keeps.ensure hdb₁ fun _ => ?_
    exact (keeps_checkSingleOrg hdb₁).mono fun _ _ hsame => hsame ▸ hframe
  · exact Keeps.done hdb (Frame.refl _)

end Parts

end NadSafe.OrgIsolation
