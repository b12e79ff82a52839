import NadSafe.ImportEntries
import NadSafe.RowOrder

/-!
# The groups of an import, and the members it removes

An import fills every group that the data names with the members that it finds
by their identifiers, and then removes the members that are not listed. The
lookup of a member by an identifier returns the first row in an order that does
not change.
-/

namespace NadSafe.ImportGroups

open HostText TableRows AsyncScript AsyncScript.Script ServerTables AccessQueries StoreScript ServerModels
open OrgHandlers DirectoryImport SequentialScript PlannedScript TableWrites FactorRows RowDeletes RowOrder
open ImportTracks ImportEntries

section Definitions

variable (rank : Uuid → ℕ)

/-- The first member with an identifier, where the ranks of the rows give their
order. -/
def firstByExternalId (t : Tables) (externalId : Text) (org : Uuid) : Option Membership :=
  (orderBy (fun m => rank m.uuid) (t.members.filter fun m => m.externalId=some externalId ∧ m.orgUuid=org)).head?

/-- `Membership::find_by_external_id_and_org`. -/
def Membership.findFirstByExternalIdAndOrg (externalId : Text) (org : Uuid) : Action (Option Membership) :=
  lookup fun t => firstByExternalId rank t externalId org

/-- One group of the import. -/
def importGroupBy (org : Uuid) (data : OrgImportGroupData) : Action Unit := do
  let group ← importedGroup org data.externalId
  GroupUser.deleteAllByGroup group
  each data.memberExternalIds fun externalId => do
    let found ← Membership.findFirstByExternalIdAndOrg rank externalId org
    match found with
    | some m => GroupUser.save ⟨group,m.uuid⟩
    | none => pure ()

/-- `ldap_import`, for the organisation of the token and its address. -/
def ldapImportBy (settings : Settings) (out : Outside) (org : Uuid) (orgEmail : Text)
    (data : OrgImportData) : Action Unit := do
  each data.members (importMember settings out org orgEmail)
  each (if settings.orgGroupsEnabled=true then data.groups else []) (importGroupBy rank org)
  if data.overwriteExisting=true then removeUnlisted org (data.members.map OrgImportUserData.externalId)
  else pure ()

end Definitions

section Lookups

variable {rank : Uuid → ℕ} {org : Uuid} {t t' : Tables} {x : Text} {m q : Membership}

/-- A member of the organisation with the identifier. -/
def Named (t : Tables) (org : Uuid) (x : Text) (m : Membership) : Prop :=
  m∈t.members ∧ m.orgUuid=org ∧ m.externalId=some x

theorem mem_named : m∈t.members.filter (fun m => m.externalId=some x ∧ m.orgUuid=org) ↔ Named t org x m := by
  unfold Named
  rw [List.mem_filter,decide_eq_true_eq]
  exact and_congr_right fun _ => and_comm

/-- The lookup returns the first one. -/
theorem named_first (h : firstByExternalId rank t x org=some m) :
    Named t org x m ∧ ∀ q,Named t org x q → rank m.uuid≤rank q.uuid := by
  obtain ⟨hm,hleast⟩ := head_orderBy h
  exact ⟨(mem_named).mp hm,fun q hq => hleast q ((mem_named).mpr hq)⟩

/-- And it returns something if there is one. -/
theorem exists_first (h : Named t org x m) : ∃ q,firstByExternalId rank t x org=some q := by
  have hmem : m∈orderBy (fun m => rank m.uuid) (t.members.filter fun m => m.externalId=some x ∧ m.orgUuid=org) :=
    mem_orderBy.mpr ((mem_named).mpr h)
  cases hfound : firstByExternalId rank t x org with
  | some q => exact ⟨q,rfl⟩
  | none =>
    rw [List.head?_eq_none_iff.mp hfound] at hmem
    cases hmem

/-- In an order without ties, the lookup returns the row with the least rank. -/
theorem first_iff {s : Database} (hrank : Function.Injective rank) :
    firstByExternalId rank s.toTables x org=some m ↔
      Named s.toTables org x m ∧ ∀ q,Named s.toTables org x q → rank m.uuid≤rank q.uuid := by
  refine ⟨named_first,fun ⟨hm,hleast⟩ => ?_⟩
  obtain ⟨q,hq⟩ : ∃ q,firstByExternalId rank s.toTables x org=some q := exists_first hm
  obtain ⟨hnamed,hleast'⟩ := named_first hq
  have hkey : q.uuid=m.uuid := hrank (le_antisymm (hleast' m hm) (hleast q hnamed))
  rw [hq,eq_of_key s.member_nodup hnamed.1 hm.1 hkey]

end Lookups

section Groups

variable {rank : Uuid → ℕ} {org : Uuid} {db s s' : Database} {x y : Text} {g : OrgImportGroupData} {group : Group}
  {done : List OrgImportGroupData}

/-- `Group::find_by_external_id_and_org`. -/
def groupOf (org : Uuid) (groups : List Group) (x : Text) : Option Group :=
  groups.find? fun g => g.externalId=some x ∧ g.organizationsUuid=org

theorem groupOf_spec {groups : List Group} (h : groupOf org groups x=some group) :
    group∈groups ∧ group.externalId=some x ∧ group.organizationsUuid=org := by
  have hfound := List.find?_some h
  rw [decide_eq_true_eq] at hfound
  exact ⟨List.mem_of_find?_eq_some h,hfound⟩

/-- A group has one identifier. -/
theorem groupOf_inj {group' : Group} (h : groupOf org s.groups x=some group) (h' : groupOf org s.groups y=some group')
    (hsame : group.uuid=group'.uuid) : x=y ∧ group=group' := by
  obtain ⟨hgroup,hx,-⟩ := groupOf_spec h
  obtain ⟨hgroup',hy,-⟩ := groupOf_spec h'
  obtain rfl := eq_of_key s.group_nodup hgroup hgroup' hsame
  exact ⟨Option.some.inj (hx.symm.trans hy),rfl⟩

/-- Groups that are there are found again. -/
theorem groupOf_append {groups new : List Group} (h : groupOf org groups x=some group) :
    groupOf org (groups++new) x=some group := by
  unfold groupOf at h ⊢
  rw [List.find?_append,h]
  rfl

/-- The last entry for an identifier. -/
def lastFor (done : List OrgImportGroupData) (x : Text) : Option OrgImportGroupData :=
  (done.filter fun g => g.externalId=x).getLast?

theorem lastFor_append (done : List OrgImportGroupData) (g : OrgImportGroupData) (x : Text) :
    lastFor (done++[g]) x=if g.externalId=x then some g else lastFor done x := by
  unfold lastFor
  rw [List.filter_append]
  split
  · rename_i h
    rw [List.filter_cons_of_pos (by simpa using h)]
    exact List.getLast?_concat
  · rename_i h
    rw [List.filter_cons_of_neg (by simpa using h),List.filter_nil,List.append_nil]

theorem lastFor_mem (h : lastFor done x=some g) : g∈done ∧ g.externalId=x := by
  obtain ⟨hg,hx⟩ := List.mem_filter.mp (List.mem_of_getLast? h)
  exact ⟨hg,of_decide_eq_true hx⟩

/-- The places that an entry asks for. -/
def Filled (rank : Uuid → ℕ) (org : Uuid) (t : Tables) (g : OrgImportGroupData) (r : GroupUser) : Prop :=
  ∃ x∈g.memberExternalIds,∃ m,firstByExternalId rank t x org=some m ∧ m.uuid=r.usersOrganizationsUuid

/-- What the entries so far have made of the groups. -/
structure Grouped (rank : Uuid → ℕ) (org : Uuid) (db : Database) (done : List OrgImportGroupData) (s : Database) :
    Prop where
  /-- Other tables. -/
  others : s.users=db.users ∧ s.members=db.members ∧ s.organizations=db.organizations
  /-- Groups are only added. -/
  groups : ∃ new,s.groups=db.groups++new
  /-- There is a group for each entry. -/
  known : ∀ g∈done,∃ group,groupOf org s.groups g.externalId=some group
  /-- Groups that were there are enough. -/
  enough : (∀ g∈done,∃ group,groupOf org db.groups g.externalId=some group) → s.groups=db.groups
  /-- The last entry for a group gives its places. -/
  places : ∀ r,r∈s.groupsUsers ↔
    (∀ g∈done,∀ group,groupOf org s.groups g.externalId=some group → group.uuid≠r.groupsUuid) ∧ r∈db.groupsUsers ∨
    ∃ x g group,lastFor done x=some g ∧ groupOf org s.groups x=some group ∧ group.uuid=r.groupsUuid ∧
      Filled rank org db.toTables g r

theorem Grouped.refl : Grouped rank org db [] db := by
  refine ⟨⟨rfl,rfl,rfl⟩,⟨[],(List.append_nil _).symm⟩,fun g hg => absurd hg List.not_mem_nil,fun _ => rfl,fun r => ?_⟩
  refine ⟨fun hr => .inl ⟨fun g hg => absurd hg List.not_mem_nil,hr⟩,fun h => ?_⟩
  rcases h with ⟨-,hr⟩|⟨x,g,group,hlast,-⟩
  · exact hr
  · cases hlast

/-- The group of an entry is there or is added. -/
theorem ends_importedGroup (hfilled : x.all isWhitespace=false) (horg : ∃ o∈s.organizations,o.uuid=org) :
    Ends (importedGroup org x) s fun r s' => ∃ group,r=.ok group.uuid ∧ groupOf org s'.groups x=some group ∧
      (s'.groups=s.groups ∨ groupOf org s.groups x=none ∧ s'.groups=s.groups++[group]) ∧
      s'.groupsUsers=s.groupsUsers ∧ s'.users=s.users ∧ s'.members=s.members ∧ s'.organizations=s.organizations := by
  unfold importedGroup
  refine ends_lookup ?_
  cases hfound : s.groups.find? fun g => g.externalId=some x ∧ g.organizationsUuid=org with
  | some group => exact ⟨group,rfl,hfound,.inl rfl,rfl,rfl,rfl,rfl⟩
  | none =>
    refine ends_getUuid ?_
    have hnew : newGroup s.next org false (some x)=⟨s.next,org,false,some x⟩ := by
      unfold newGroup
      rw [Option.filter_some,hfilled]
      rfl
    rw [hnew]
    have hfresh : ∀ g∈s.groups,g.uuid≠s.next := fun g hg => (s.valid.2.2.2.2.2.2.1 g hg).ne
    refine ends_update_to (valid_group s.drawn.valid (Nat.lt_succ_self s.next) horg) fun s' htables => ?_
    have hgroups : s'.groups=s.groups++[⟨s.next,org,false,some x⟩] := by
      rw [htables]
      exact put_fresh hfresh
    refine Ends.pure ⟨⟨s.next,org,false,some x⟩,rfl,?_,.inr ⟨hfound,hgroups⟩,?_⟩
    · unfold groupOf
      rw [hgroups,List.find?_append,hfound]
      simp
    · rw [htables]
      exact ⟨rfl,rfl,rfl,rfl⟩

/-- The member with an identifier joins a group. -/
theorem ends_place (hgroup : group∈s.groups) : Ends (do
      let found ← Membership.findFirstByExternalIdAndOrg rank x org
      match found with
      | some m => GroupUser.save ⟨group.uuid,m.uuid⟩
      | none => pure ()) s fun r s' => r=.ok () ∧
        (s'.groups=s.groups ∧ s'.users=s.users ∧ s'.members=s.members ∧ s'.organizations=s.organizations) ∧
        ∀ r,r∈s'.groupsUsers ↔ r∈s.groupsUsers ∨ group.uuid=r.groupsUuid ∧
          ∃ m,firstByExternalId rank s.toTables x org=some m ∧ m.uuid=r.usersOrganizationsUuid := by
  refine ends_lookup ?_
  cases hfound : firstByExternalId rank s.toTables x org with
  | none =>
    refine Ends.pure ⟨rfl,⟨rfl,rfl,rfl,rfl⟩,fun r => ⟨.inl,fun h => h.resolve_right fun ⟨_,_,hnone,_⟩ => ?_⟩⟩
    cases hnone
  | some m =>
    refine ends_update_done (valid_groupPlace s.valid ⟨group,hgroup,rfl⟩ ⟨m,(named_first hfound).1.1,rfl⟩)
      ⟨rfl,⟨rfl,rfl,rfl,rfl⟩,fun r => ?_⟩
    constructor
    · intro hr
      rcases mem_put.mp hr with rfl|⟨hr,-⟩
      · exact .inr ⟨rfl,m,rfl,rfl⟩
      · exact .inl hr
    · rintro (hr|⟨hkey,m',hm',hmember⟩)
      · by_cases hsame : r=⟨group.uuid,m.uuid⟩
        · exact mem_put.mpr (.inl hsame)
        · exact mem_put.mpr (.inr ⟨hr,hsame⟩)
      · cases hm'
        obtain ⟨g,member⟩ := r
        cases hkey
        cases hmember
        exact mem_put.mpr (.inl rfl)

/-- The members of an entry join its group. -/
theorem ends_fill {xs : List Text} (hgroup : group∈s.groups) :
    Ends (each xs fun externalId => do
      let found ← Membership.findFirstByExternalIdAndOrg rank externalId org
      match found with
      | some m => GroupUser.save ⟨group.uuid,m.uuid⟩
      | none => pure ()) s fun r s' => r=.ok () ∧
        (s'.groups=s.groups ∧ s'.users=s.users ∧ s'.members=s.members ∧ s'.organizations=s.organizations) ∧
        ∀ r,r∈s'.groupsUsers ↔ r∈s.groupsUsers ∨ group.uuid=r.groupsUuid ∧
          ∃ x∈xs,∃ m,firstByExternalId rank s.toTables x org=some m ∧ m.uuid=r.usersOrganizationsUuid := by
  refine (ends_each_gone (K:=fun gone s' =>
    (s'.groups=s.groups ∧ s'.users=s.users ∧ s'.members=s.members ∧ s'.organizations=s.organizations) ∧
      ∀ r,r∈s'.groupsUsers ↔ r∈s.groupsUsers ∨ group.uuid=r.groupsUuid ∧
        ∃ x∈gone,∃ m,firstByExternalId rank s.toTables x org=some m ∧ m.uuid=r.usersOrganizationsUuid)
    ⟨⟨rfl,rfl,rfl,rfl⟩,fun r => by simp⟩ fun gone x rest s₁ _ ⟨⟨hgroups,husers,hmembers,horgs⟩,hplaces⟩ => ?_).mono
    fun r s' h => h
  have hsame : firstByExternalId rank s₁.toTables x org=firstByExternalId rank s.toTables x org := by
    unfold firstByExternalId
    rw [hmembers]
  refine (ends_place (hgroups.symm ▸ hgroup)).mono fun r s₂ ⟨hr,⟨hgroups',husers',hmembers',horgs'⟩,hplaces'⟩ =>
    ⟨hr,⟨hgroups'.trans hgroups,husers'.trans husers,hmembers'.trans hmembers,horgs'.trans horgs⟩,fun r => ?_⟩
  rw [hplaces',hplaces,hsame,or_assoc,← and_or_left]
  refine or_congr_right (and_congr_right fun _ => ?_)
  simp only [List.mem_append,List.mem_singleton,or_and_right,exists_or,exists_eq_left]

/-- A group that is added is found by its own identifier only. -/
theorem groupOf_added {groups groups' : List Group} (hx : group.externalId=some x)
    (h : groups'=groups ∨ groupOf org groups x=none ∧ groups'=groups++[group]) (hne : y≠x) :
    groupOf org groups' y=groupOf org groups y := by
  rcases h with rfl|⟨-,rfl⟩
  · rfl
  · have hother : ¬(group.externalId=some y ∧ group.organizationsUuid=org) := fun hy =>
      hne (Option.some.inj (hy.1.symm.trans hx))
    unfold groupOf
    rw [List.find?_append,List.find?_cons_of_neg (by simpa using hother),List.find?_nil,Option.or_none]

/-- The places after an entry has been dealt with. -/
theorem Grouped.fills {s₁ : Database} (h : Grouped rank org db done s)
    (hfound : groupOf org s₁.groups g.externalId=some group)
    (hgroups : s₁.groups=s.groups ∨ groupOf org s.groups g.externalId=none ∧ s₁.groups=s.groups++[group])
    (r : GroupUser) :
    (r∈s.groupsUsers ∧ group.uuid≠r.groupsUuid ∨ group.uuid=r.groupsUuid ∧ Filled rank org db.toTables g r) ↔
    (∀ d∈done++[g],∀ group',groupOf org s₁.groups d.externalId=some group' → group'.uuid≠r.groupsUuid) ∧
        r∈db.groupsUsers ∨
      ∃ x d group',lastFor (done++[g]) x=some d ∧ groupOf org s₁.groups x=some group' ∧ group'.uuid=r.groupsUuid ∧
        Filled rank org db.toTables d r := by
  have hx := (groupOf_spec hfound).2.1
  -- a group that the identifier had before is the same one
  have hbefore : ∀ {group'},groupOf org s.groups g.externalId=some group' → group=group' := by
    intro group' hfound'
    rcases hgroups with hsame|⟨hnone,-⟩
    · rw [hsame,hfound'] at hfound
      exact (Option.some.inj hfound).symm
    · rw [hnone] at hfound'
      cases hfound'
  by_cases hkey : group.uuid=r.groupsUuid
  -- a place in the group of the entry
  · constructor
    · rintro (⟨-,hne⟩|⟨-,hfilled⟩)
      · exact absurd hkey hne
      · refine .inr ⟨g.externalId,g,group,?_,hfound,hkey,hfilled⟩
        rw [lastFor_append,if_pos rfl]
    · rintro (⟨hnone,-⟩|⟨x,d,group',hlast,hfound',hkey',hfilled⟩)
      · exact absurd hkey (hnone g (List.mem_append_right _ List.mem_cons_self) group hfound)
      · obtain ⟨hsame,-⟩ := groupOf_inj hfound hfound' (hkey.trans hkey'.symm)
        rw [lastFor_append,if_pos hsame] at hlast
        cases hlast
        exact .inr ⟨hkey,hfilled⟩
  -- a place in another group
  · have hrest : r∈s.groupsUsers ∧ group.uuid≠r.groupsUuid ∨ group.uuid=r.groupsUuid ∧ Filled rank org db.toTables g r ↔
        r∈s.groupsUsers :=
      ⟨fun h => h.elim And.left fun h => absurd h.1 hkey,fun hr => .inl ⟨hr,hkey⟩⟩
    rw [hrest,h.places r]
    refine or_congr (and_congr_left fun _ => ⟨fun hnone d hd group' hfound' => ?_,fun hnone d hd group' hfound' => ?_⟩)
      (exists_congr fun x => exists_congr fun d => exists_congr fun group' => ?_)
    · by_cases hsame : d.externalId=g.externalId
      · rw [hsame,hfound] at hfound'
        cases hfound'
        exact hkey
      · have hd : d∈done := (List.mem_append.mp hd).resolve_right fun h => hsame (by rw [List.mem_singleton.mp h])
        rw [groupOf_added hx hgroups hsame] at hfound'
        exact hnone d hd group' hfound'
    · by_cases hsame : d.externalId=g.externalId
      · rw [hsame] at hfound'
        rwa [← hbefore hfound']
      · rw [← groupOf_added hx hgroups hsame] at hfound'
        exact hnone d (List.mem_append_left _ hd) group' hfound'
    · rw [lastFor_append]
      by_cases hsame : g.externalId=x
      · subst hsame
        refine iff_of_false (fun ⟨_,hfound',hkey',_⟩ => ?_) fun ⟨_,hfound',hkey',_⟩ => ?_
        · rw [hbefore hfound'] at hkey
          exact hkey hkey'
        · rw [hfound] at hfound'
          cases hfound'
          exact hkey hkey'
      · rw [if_neg hsame,groupOf_added hx hgroups (Ne.symm hsame)]

/-- One entry. -/
theorem Grouped.entry (h : Grouped rank org db done s) (hfilled : g.externalId.all isWhitespace=false)
    (horg : ∃ o∈db.organizations,o.uuid=org) :
    Ends (importGroupBy rank org g) s fun r s' => r=.ok () ∧ Grouped rank org db (done++[g]) s' := by
  unfold importGroupBy
  have horg₁ : ∃ o∈s.organizations,o.uuid=org := h.others.2.2 ▸ horg
  refine (ends_importedGroup hfilled horg₁).bind (fun uuid s₁ h₁ => ?_) fun _ _ h₁ => ?_
  swap
  · obtain ⟨_,he,-⟩ := h₁
    cases he
  obtain ⟨group,hr,hfound,hgroups,hplaces,husers,hmembers,horgs⟩ := h₁
  cases hr
  refine ends_update_to (valid_ungroupPlace s₁.valid) fun s₂ htables => ?_
  have hgroup : group∈s₂.groups := by
    rw [htables]
    exact (groupOf_spec hfound).1
  refine (ends_fill hgroup).mono fun r s₃ ⟨hr,⟨hgroups₃,husers₃,hmembers₃,horgs₃⟩,hplaces₃⟩ => ⟨hr,?_⟩
  have hfirst : ∀ y,firstByExternalId rank s₂.toTables y org=firstByExternalId rank db.toTables y org := by
    intro y
    unfold firstByExternalId
    rw [htables]
    dsimp only
    rw [hmembers,h.others.2.1]
  simp only [hfirst] at hplaces₃
  rw [htables] at hgroups₃ husers₃ hmembers₃ horgs₃
  dsimp only at hgroups₃ husers₃ hmembers₃ horgs₃
  refine ⟨⟨husers₃.trans (husers.trans h.others.1),hmembers₃.trans (hmembers.trans h.others.2.1),
    horgs₃.trans (horgs.trans h.others.2.2)⟩,?_,fun d hd => ?_,fun hall => ?_,fun r => ?_⟩
  · rw [hgroups₃]
    obtain ⟨new,hnew⟩ := h.groups
    rcases hgroups with hsame|⟨-,hadded⟩
    · exact ⟨new,hsame.trans hnew⟩
    · exact ⟨new++[group],by rw [hadded,hnew,List.append_assoc]⟩
  · rw [hgroups₃]
    by_cases hsame : d.externalId=g.externalId
    · exact ⟨group,hsame ▸ hfound⟩
    · have hd : d∈done := (List.mem_append.mp hd).resolve_right fun h => hsame (by rw [List.mem_singleton.mp h])
      rw [groupOf_added (groupOf_spec hfound).2.1 hgroups hsame]
      exact h.known d hd
  · rw [hgroups₃]
    have hbefore := h.enough fun d hd => hall d (List.mem_append_left _ hd)
    rcases hgroups with hsame|⟨hnone,-⟩
    · exact hsame.trans hbefore
    · obtain ⟨group',hfound'⟩ := hall g (List.mem_append_right _ List.mem_cons_self)
      rw [hbefore,hfound'] at hnone
      cases hnone
  · rw [hplaces₃ r,hgroups₃,← h.fills hfound hgroups r,htables]
    dsimp only
    rw [List.mem_filter,decide_eq_true_eq,hplaces]
    exact or_congr (and_congr_right fun _ => ne_comm) Iff.rfl

/-- All entries. -/
theorem ends_groups {gs : List OrgImportGroupData} (hfilled : ∀ g∈gs,g.externalId.all isWhitespace=false)
    (horg : ∃ o∈db.organizations,o.uuid=org) :
    Ends (each gs (importGroupBy rank org)) db fun r s' => r=.ok () ∧ Grouped rank org db gs s' :=
  ends_each_gone (K:=Grouped rank org db) .refl fun gone g rest s hgs h => by
    refine h.entry (hfilled g ?_) horg
    rw [hgs]
    exact List.mem_append_right _ List.mem_cons_self

end Groups

section Removals

variable {org : Uuid} {listed : List Text} {db s s' : Database} {m q : Membership}

/-- A member whose identifier is not listed. -/
def Unlisted (org : Uuid) (listed : List Text) (m : Membership) : Prop :=
  m.orgUuid=org ∧ ∃ x,m.externalId=some x ∧ x∉listed

/-- A confirmed owner is the last one if there is no other. -/
theorem lastConfirmedOwner_iff (hm : m∈s.members) (horg : m.orgUuid=org) :
    lastConfirmedOwner org s.toTables m=true ↔ m.atype=.owner ∧ m.status=Confirmed ∧
      ∀ q∈s.members,q.orgUuid=org → q.atype=.owner → q.status=Confirmed → q=m := by
  unfold lastConfirmedOwner
  rw [decide_eq_true_eq]
  refine and_congr_right fun howner => and_congr_right fun hstatus => ?_
  have hmem : ∀ {q},q∈Membership.confirmedByOrgAndType s.toTables org .owner ↔
      q∈s.members ∧ q.orgUuid=org ∧ q.atype=.owner ∧ q.status=Confirmed := by
    intro q
    unfold Membership.confirmedByOrgAndType
    rw [List.mem_filter,decide_eq_true_eq]
  have hin : m∈Membership.confirmedByOrgAndType s.toTables org .owner := hmem.mpr ⟨hm,horg,howner,hstatus⟩
  constructor
  · intro hlength q hq hqorg hqowner hqstatus
    have hq' := hmem.mpr ⟨hq,hqorg,hqowner,hqstatus⟩
    obtain ⟨a,ha⟩ := List.length_eq_one_iff.mp (le_antisymm hlength (List.length_pos_of_mem hin))
    rw [ha,List.mem_singleton] at hin hq'
    exact hq'.trans hin.symm
  · intro hall
    have hnodup : (Membership.confirmedByOrgAndType s.toTables org .owner).Nodup :=
      (List.Nodup.of_map Membership.uuid s.member_nodup).filter _
    have hsub : Membership.confirmedByOrgAndType s.toTables org .owner⊆[m] := by
      intro q hq
      obtain ⟨hq,hqorg,hqowner,hqstatus⟩ := hmem.mp hq
      exact List.mem_singleton.mpr (hall q hq hqorg hqowner hqstatus)
    exact (List.subperm_of_subset hnodup hsub).length_le

/-- The last owner stays the last one when others leave. -/
theorem lastConfirmedOwner_of_sub (h : lastConfirmedOwner org db.toTables m=true) (hm : m∈db.members)
    (hm' : m∈s.members) (horg : m.orgUuid=org) (hsub : ∀ q∈s.members,q∈db.members) :
    lastConfirmedOwner org s.toTables m=true := by
  obtain ⟨howner,hstatus,hall⟩ := (lastConfirmedOwner_iff hm horg).mp h
  exact (lastConfirmedOwner_iff hm' horg).mpr ⟨howner,hstatus,fun q hq => hall q (hsub q hq)⟩

/-- What is left when the members that are not listed are removed, as far as the
loop has gone. -/
structure Purged (org : Uuid) (listed : List Text) (gone : List Membership) (db s : Database) : Prop where
  /-- Other tables. -/
  others : s.users=db.users ∧ s.groups=db.groups ∧ s.organizations=db.organizations
  /-- Members are only removed. -/
  members : ∀ m∈s.members,m∈db.members
  /-- Those that are listed stay, and those that are still to come. -/
  stay : ∀ m∈db.members,(m∈gone → ¬Unlisted org listed m) → m∈s.members
  /-- And an owner who was the last one before. -/
  last : ∀ m∈db.members,m.orgUuid=org → lastConfirmedOwner org db.toTables m=true → m∈s.members
  /-- One who stays although he is not listed is the last owner. -/
  owner : ∀ m∈s.members,m∈gone → Unlisted org listed m → lastConfirmedOwner org s.toTables m=true
  /-- Places go with their members. -/
  places : ∀ r,r∈s.groupsUsers ↔ r∈db.groupsUsers ∧ ∃ m∈s.members,m.uuid=r.usersOrganizationsUuid

theorem Purged.refl : Purged org listed [] db db := by
  refine ⟨⟨rfl,rfl,rfl⟩,fun _ hm => hm,fun _ hm _ => hm,fun _ hm _ _ => hm,
    fun _ _ hgone => absurd hgone List.not_mem_nil,fun r => ?_⟩
  exact ⟨fun hr => ⟨hr,db.valid.2.1.2.2.2.2.2.2.2.1 r hr⟩,And.left⟩

/-- A member that stays. -/
theorem Purged.keeps {gone : List Membership} (h : Purged org listed gone db s)
    (hm : Unlisted org listed m → lastConfirmedOwner org s.toTables m=true) :
    Purged org listed (gone++[m]) db s := by
  refine ⟨h.others,h.members,fun q hq hstays => h.stay q hq fun hgone => hstays (List.mem_append_left _ hgone),
    h.last,fun q hq hgone hunlisted => ?_,h.places⟩
  rcases List.mem_append.mp hgone with hgone|hlast
  · exact h.owner q hq hgone hunlisted
  · obtain rfl := List.mem_singleton.mp hlast
    exact hm hunlisted

/-- A member that is removed. -/
theorem Purged.removes {gone : List Membership} (h : Purged org listed gone db s) (hm : m∈db.members)
    (hunlisted : Unlisted org listed m) (hnotLast : lastConfirmedOwner org s.toTables m=false)
    (hremoved : Removed m s s') : Purged org listed (gone++[m]) db s' := by
  obtain ⟨_,_,_,htables⟩ := hremoved.tables
  refine ⟨?_,fun q hq => h.members q ((hremoved.members q).mp hq).1,fun q hq hstays => ?_,fun q hq horg hlast => ?_,
    fun q hq hgone hq' => ?_,fun r => ?_⟩
  · rw [htables]
    exact h.others
  · refine (hremoved.members q).mpr ⟨h.stay q hq fun hgone => hstays (List.mem_append_left _ hgone),fun hkey => ?_⟩
    obtain rfl := eq_of_key db.member_nodup hq hm hkey
    exact hstays (List.mem_append_right _ List.mem_cons_self) hunlisted
  · have hin := h.last q hq horg hlast
    refine (hremoved.members q).mpr ⟨hin,fun hkey => ?_⟩
    obtain rfl := eq_of_key db.member_nodup hq hm hkey
    rw [lastConfirmedOwner_of_sub hlast hq hin horg h.members] at hnotLast
    cases hnotLast
  · obtain ⟨hin,hne⟩ := (hremoved.members q).mp hq
    have hbefore : q∈gone := by
      refine (List.mem_append.mp hgone).resolve_right fun hlast => ?_
      rw [List.mem_singleton.mp hlast] at hne
      exact hne rfl
    exact lastConfirmedOwner_of_sub (h.owner q hin hbefore hq') hin hq hq'.1 fun o ho => ((hremoved.members o).mp ho).1
  · rw [hremoved.places r,h.places r,and_assoc]
    refine and_congr_right fun _ => ⟨fun ⟨⟨q,hq,hkey⟩,hne⟩ => ⟨q,(hremoved.members q).mpr ⟨hq,?_⟩,hkey⟩,
      fun ⟨q,hq,hkey⟩ => ?_⟩
    · rwa [hkey]
    · obtain ⟨hq,hne⟩ := (hremoved.members q).mp hq
      exact ⟨⟨q,hq,hkey⟩,hkey ▸ hne⟩

theorem unlisted_iff (horg : m.orgUuid=org) :
    m.externalId.any (fun id => !decide (id∈listed))=true ↔ Unlisted org listed m := by
  unfold Unlisted
  rw [any_eq_true_iff,and_iff_right horg]
  simp

/-- The members that are not listed are removed. -/
theorem ends_removeUnlisted : Ends (removeUnlisted org listed) db fun r s => r=.ok () ∧
    Purged org listed (db.members.filter fun m => m.orgUuid=org) db s := by
  unfold removeUnlisted
  refine ends_lookup ((ends_each_gone (K:=fun gone s => Purged org listed gone db s) .refl
    fun gone m rest s hms h => ?_).mono fun r s h => h)
  have hm : m∈db.members ∧ m.orgUuid=org := by
    have hmem : m∈db.members.filter fun m => m.orgUuid=org := by
      rw [hms]
      exact List.mem_append_right _ List.mem_cons_self
    rw [List.mem_filter,decide_eq_true_eq] at hmem
    exact hmem
  split
  · rename_i hunlisted
    rw [unlisted_iff hm.2] at hunlisted
    refine ends_mayGo.bind (fun may s₁ ⟨hs,hmay⟩ => ?_) fun _ _ ⟨_,he⟩ => by cases he
    subst hs
    cases hmay
    cases hlast : lastConfirmedOwner org s₁.toTables m with
    | true => exact Ends.pure ⟨rfl,h.keeps fun _ => hlast⟩
    | false => exact ends_removeMember.mono fun r s' ⟨hr,hremoved⟩ => ⟨hr,h.removes hm.1 hunlisted hlast hremoved⟩
  · rename_i hlisted
    exact Ends.pure ⟨rfl,h.keeps fun hunlisted => absurd ((unlisted_iff hm.2).mpr hunlisted) hlisted⟩

end Removals

end NadSafe.ImportGroups
