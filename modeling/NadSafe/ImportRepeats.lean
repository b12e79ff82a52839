import NadSafe.ImportGroups

/-!
# An import that is repeated

A second import with the same data changes nothing, as long as the guard for
the last owner spares the same members in both, no group has a blank identifier,
and no identifier that a group names is shared by a member that was removed and
one that was kept.
-/

namespace NadSafe.ImportRepeats

open HostText TableRows AsyncScript AsyncScript.Script ServerTables AccessQueries StoreScript ServerModels
open OrgHandlers DirectoryImport SequentialScript PlannedScript TableWrites FactorRows RowDeletes ImportWrites
open ImportTracks ImportEntries ImportGroups

section Runs

variable (rank : Uuid → ℕ) (settings : Settings) (out : Outside) (org : Uuid) (orgEmail : Text) (data : OrgImportData)

/-- The database after an import. -/
def imported (db : Database) : Database := (complete (ldapImportBy rank settings out org orgEmail data) db).2

/-- The groups that an import fills. -/
def importedGroups : List OrgImportGroupData := if settings.orgGroupsEnabled=true then data.groups else []

/-- The identifiers that are listed. -/
def listedIds : List Text := data.members.map OrgImportUserData.externalId

/-- The members whose identifiers are looked up in the list. -/
def examined (s : Database) : List Membership :=
  if data.overwriteExisting=true then s.members.filter fun m => m.orgUuid=org else []

/-- What an import leaves, from one phase to the next. -/
def Phases (db s : Database) : Prop :=
  ∃ s₁,Tracks settings org db (data.members.takeWhile (accepts settings db.toTables))
      (spared settings org out orgEmail data.members db []) s₁ ∧
    if ∀ e∈data.members,accepts settings db.toTables e=true then
      ∃ s₂,Grouped rank org s₁ (importedGroups settings data) s₂ ∧
        Purged org (listedIds data) (examined org data s₂) s₂ s
    else s=s₁

/-- No group of the import has a blank identifier. -/
def NamedGroups : Prop := ∀ g∈importedGroups settings data,g.externalId.all isWhitespace=false

instance : Decidable (NamedGroups settings data) :=
  inferInstanceAs (Decidable (∀ g∈importedGroups settings data,g.externalId.all isWhitespace=false))

/-- The guard for the last owner spares the same members in both imports. -/
def SparesAlike (db s : Database) : Prop :=
  ∀ a,a∈spared settings org out orgEmail data.members db [] ↔ a∈spared settings org out orgEmail data.members s []

/-- No member that the first import removed came before one with the same
identifier that it kept, where the last entry for a group names the identifier. -/
def NoHeirs (db s : Database) : Prop :=
  ∀ m∈db.members,m∉s.members → ∀ o∈s.members,m.orgUuid=org → o.orgUuid=org → rank m.uuid<rank o.uuid →
    ∀ y g,lastFor (importedGroups settings data) y=some g → ∀ x∈g.memberExternalIds,
      ¬(m.externalId=some x ∧ o.externalId=some x)

end Runs

/-- The same accounts, memberships, groups and places in groups. -/
structure SameState (s s' : Database) : Prop where
  /-- Accounts. -/
  users : ∀ u,u∈s'.users ↔ u∈s.users
  /-- Memberships. -/
  members : ∀ m,m∈s'.members ↔ m∈s.members
  /-- Groups. -/
  groups : ∀ g,g∈s'.groups ↔ g∈s.groups
  /-- Places in groups. -/
  places : ∀ r,r∈s'.groupsUsers ↔ r∈s.groupsUsers

section Proofs

variable {rank : Uuid → ℕ} {settings : Settings} {out : Outside} {org : Uuid} {orgEmail : Text} {data : OrgImportData}
  {db s s' : Database}

theorem ends_import (hsupported : Supported settings out org db) (hranged : Ranged db)
    (hnamed : NamedGroups settings data) : Ends (ldapImportBy rank settings out org orgEmail data) db fun _ s =>
      Phases rank settings out org orgEmail data db s := by
  unfold ldapImportBy
  refine (ends_entries hsupported (.refl hranged) data.members).bind (fun _ s₁ ⟨h₁,hall⟩ => ?_)
    fun error s₁ ⟨h₁,hall⟩ => ?_
  swap
  · refine ⟨s₁,h₁,?_⟩
    rw [if_neg fun h => ?_]
    cases hall.mpr h
  have haccepted := hall.mp rfl
  have horg : ∃ o∈s₁.organizations,o.uuid=org := h₁.others.2.2 ▸ hsupported.organization
  have hgroups : Ends (each (importedGroups settings data) (importGroupBy rank org)) s₁ fun r s₂ => r=.ok () ∧
      Grouped rank org s₁ (importedGroups settings data) s₂ := ends_groups hnamed horg
  refine hgroups.bind (fun _ s₂ ⟨_,h₂⟩ => ?_) fun _ _ ⟨he,_⟩ => by cases he
  split
  · rename_i hoverwrite
    refine ends_removeUnlisted.mono fun r s ⟨_,h₃⟩ => ⟨s₁,h₁,?_⟩
    rw [if_pos haccepted]
    refine ⟨s₂,h₂,?_⟩
    unfold examined
    rw [if_pos hoverwrite]
    exact h₃
  · rename_i hoverwrite
    refine Ends.pure ⟨s₁,h₁,?_⟩
    rw [if_pos haccepted]
    refine ⟨s₂,h₂,?_⟩
    unfold examined
    rw [if_neg hoverwrite]
    exact .refl

/-- Accounts, organisations and statuses after an import. -/
theorem Phases.supported (h : Phases rank settings out org orgEmail data db s)
    (hsupported : Supported settings out org db) : Supported settings out org s ∧ Ranged s ∧
      ∀ e,accepts settings s.toTables e=accepts settings db.toTables e := by
  obtain ⟨s₁,h₁,h₂⟩ := h
  split at h₂
  · obtain ⟨s₂,h₂,h₃⟩ := h₂
    have husers : s.users=s₁.users := h₃.others.1.trans h₂.others.1
    have horgs : s.organizations=db.organizations := h₃.others.2.2.trans (h₂.others.2.2.trans h₁.others.2.2)
    refine ⟨⟨hsupported.lower,hsupported.delivers,horgs ▸ hsupported.organization⟩,fun m hm => h₁.ranged m ?_,
      fun e => ?_⟩
    · rw [← h₂.others.2.1]
      exact h₃.members m hm
    · rw [← h₁.accepts_eq e]
      unfold accepts
      rw [husers]
  · subst h₂
    exact ⟨⟨hsupported.lower,hsupported.delivers,h₁.others.2.2 ▸ hsupported.organization⟩,h₁.ranged,h₁.accepts_eq⟩

/-- What the second import finds of the first one, with the state after its own
members. -/
structure Meets (rank : Uuid → ℕ) (settings : Settings) (org : Uuid) (data : OrgImportData)
    (db s₁ s₂ s s₁' : Database) : Prop where
  /-- The groups of the first import. -/
  grouped : Grouped rank org s₁ (importedGroups settings data) s₂
  /-- Its removals. -/
  purged : Purged org (listedIds data) (examined org data s₂) s₂ s
  /-- The members of the second one. -/
  members : ∀ m,m∈s₁'.members ↔ m∈s.members
  /-- Groups and places. -/
  others : s₁'.groups=s.groups ∧ s₁'.groupsUsers=s.groupsUsers
  /-- Removed members were there before. -/
  removed : ∀ m∈s₁.members,m∉s.members → m∈db.members

section Meeting

variable {s₁ s₂ s₁' s₂' : Database} {m : Membership} {g : OrgImportGroupData} {r : GroupUser}

/-- A member that the first import found is in the first two states. -/
theorem Meets.member (h : Meets rank settings org data db s₁ s₂ s s₁') (hm : m∈s.members) : m∈s₁.members := by
  rw [← h.grouped.others.2.1]
  exact h.purged.members m hm

/-- Nobody is removed by the second import. -/
theorem Meets.stays (h : Meets rank settings org data db s₁ s₂ s s₁')
    (h₂ : Grouped rank org s₁' (importedGroups settings data) s₂')
    (h₃ : Purged org (listedIds data) (examined org data s₂') s₂' s') (hm : m∈s.members) : m∈s'.members := by
  have hin : m∈s₂'.members := by
    rw [h₂.others.2.1]
    exact (h.members m).mpr hm
  by_cases hgone : m∈examined org data s₂' ∧ Unlisted org (listedIds data) m
  · obtain ⟨hexamined,hunlisted⟩ := hgone
    have hbefore : m∈examined org data s₂ := by
      unfold examined at hexamined ⊢
      split at hexamined
      · rename_i hoverwrite
        rw [if_pos hoverwrite]
        exact List.mem_filter.mpr ⟨h.purged.members m hm,decide_eq_true hunlisted.1⟩
      · cases hexamined
    have hlast := h.purged.owner m hm hbefore hunlisted
    refine h₃.last m hin hunlisted.1 (lastConfirmedOwner_of_sub hlast hm hin hunlisted.1 fun q hq => ?_)
    rw [h₂.others.2.1] at hq
    exact (h.members q).mp hq
  · exact h₃.stay m hin fun hexamined hunlisted => hgone ⟨hexamined,hunlisted⟩

/-- The lookups of the second import find what those of the first one found, as
far as it was kept. -/
theorem Meets.first_iff (h : Meets rank settings org data db s₁ s₂ s s₁') (hrank : Function.Injective rank)
    (hheirs : NoHeirs rank settings org data db s) {x y : Text}
    (hg : lastFor (importedGroups settings data) y=some g) (hx : x∈g.memberExternalIds) :
    firstByExternalId rank s₁'.toTables x org=some m ↔
      firstByExternalId rank s₁.toTables x org=some m ∧ m∈s.members := by
  have hnamed : ∀ {q},Named s₁'.toTables org x q ↔ Named s₁.toTables org x q ∧ q∈s.members := by
    intro q
    unfold Named
    rw [h.members]
    exact ⟨fun ⟨hq,hrest⟩ => ⟨⟨h.member hq,hrest⟩,hq⟩,fun ⟨⟨_,hrest⟩,hq⟩ => ⟨hq,hrest⟩⟩
  constructor
  · intro hfirst
    obtain ⟨hm,hleast⟩ := named_first hfirst
    obtain ⟨hold,hin⟩ := hnamed.mp hm
    refine ⟨(ImportGroups.first_iff hrank).mpr ⟨hold,fun q hq => ?_⟩,hin⟩
    by_cases hkept : q∈s.members
    · exact hleast q (hnamed.mpr ⟨hq,hkept⟩)
    -- a removed member has no heir
    · by_contra hbefore
      exact hheirs q (h.removed q hq.1 hkept) hkept m hin hq.2.1 hold.2.1 (not_le.mp hbefore) y g hg x hx
        ⟨hq.2.2,hold.2.2⟩
  · rintro ⟨hfirst,hin⟩
    obtain ⟨hm,hleast⟩ := named_first hfirst
    exact (ImportGroups.first_iff hrank).mpr ⟨hnamed.mpr ⟨hm,hin⟩,fun q hq => hleast q (hnamed.mp hq).1⟩

/-- The places after the second import are those after the first one. -/
theorem Meets.places (h : Meets rank settings org data db s₁ s₂ s s₁') (hrank : Function.Injective rank)
    (hheirs : NoHeirs rank settings org data db s) (h₂ : Grouped rank org s₁' (importedGroups settings data) s₂')
    (hgroups : s₂'.groups=s₂.groups) : r∈s₂'.groupsUsers ↔ r∈s.groupsUsers := by
  constructor
  · intro hr
    rcases (h₂.places r).mp hr with ⟨-,hold⟩|⟨y,g,group,hlast,hfound,hkey,x,hx,m,hm,hmember⟩
    · rwa [← h.others.2]
    · rw [hgroups] at hfound
      obtain ⟨hm,hin⟩ := (h.first_iff hrank hheirs hlast hx).mp hm
      exact (h.purged.places r).mpr ⟨(h.grouped.places r).mpr (.inr ⟨y,g,group,hlast,hfound,hkey,x,hx,m,hm,hmember⟩),
        m,hin,hmember⟩
  · intro hr
    obtain ⟨hr₂,q,hq,hqmember⟩ := (h.purged.places r).mp hr
    refine (h₂.places r).mpr ?_
    rcases (h.grouped.places r).mp hr₂ with ⟨hnone,-⟩|⟨y,g,group,hlast,hfound,hkey,x,hx,m,hm,hmember⟩
    · refine .inl ⟨?_,h.others.2.symm ▸ hr⟩
      rwa [hgroups]
    · have hsame : m=q :=
        eq_of_key s₁.member_nodup (named_first hm).1.1 (h.member hq) (hmember.trans hqmember.symm)
      subst hsame
      rw [← hgroups] at hfound
      exact .inr ⟨y,g,group,hlast,hfound,hkey,x,hx,m,(h.first_iff hrank hheirs hlast hx).mpr ⟨hm,hq⟩,hmember⟩

end Meeting

/-- The state after the second import. -/
theorem Phases.again (hrank : Function.Injective rank) (h : Phases rank settings out org orgEmail data db s)
    (h' : Phases rank settings out org orgEmail data s s')
    (haccepts : ∀ e,accepts settings s.toTables e=accepts settings db.toTables e)
    (hspares : SparesAlike settings out org orgEmail data db s) (hheirs : NoHeirs rank settings org data db s) :
    SameState s s' := by
  obtain ⟨s₁,h₁,hrest⟩ := h
  obtain ⟨s₁',h₁',hrest'⟩ := h'
  rw [funext haccepts] at h₁' hrest'
  split at hrest
  · rename_i hall
    rw [if_pos hall] at hrest'
    obtain ⟨s₂,h₂,h₃⟩ := hrest
    obtain ⟨s₂',h₂',h₃'⟩ := hrest'
    have husers : s.users=s₁.users := h₃.others.1.trans h₂.others.1
    have hsub : ∀ m∈s.members,m∈s₁.members := fun m hm => h₂.others.2.1 ▸ h₃.members m hm
    -- members with an entry have a listed identifier, or none
    have hlisted : ∀ {m} e,e∈data.members.takeWhile (accepts settings db.toTables) →
        At org (address settings e) s₁.toTables m → ¬Unlisted org (listedIds data) m := by
      rintro m e he hat ⟨-,x,hx,hnot⟩
      obtain ⟨d,hd,rfl⟩ := h₁.leaves.listed he hat hx
      exact hnot (List.mem_map_of_mem ((List.takeWhile_sublist _).subset hd))
    have hstay : ∀ {m},m∈s₁.members → ¬Unlisted org (listedIds data) m → m∈s.members := by
      intro m hm hnot
      rw [← h₂.others.2.1] at hm
      exact h₃.stay m hm fun _ => hnot
    have hsettled := h₁.leaves.without husers hsub fun m hm e he hat => hstay hm (hlisted e he hat)
    obtain ⟨husers',hmembers'⟩ := hsettled.again h₁' hspares
    have hmeets : Meets rank settings org data db s₁ s₂ s s₁' := by
      refine ⟨h₂,h₃,hmembers',⟨h₁'.others.1,h₁'.others.2.1⟩,fun m hm hgone => ?_⟩
      refine h₁.old_of_none hm fun e he hat => hgone (hstay hm (hlisted e he hat))
    have hgroups : s₂'.groups=s₂.groups := by
      have hsame : s₁'.groups=s₂.groups := h₁'.others.1.trans h₃.others.2.1
      refine (h₂'.enough fun g hg => ?_).trans hsame
      rw [hsame]
      exact h₂.known g hg
    refine ⟨fun u => ?_,fun m => ⟨fun hm => ?_,hmeets.stays h₂' h₃'⟩,fun g => ?_,fun r => ?_⟩
    · rw [h₃'.others.1,h₂'.others.1]
      exact husers' u
    · have hin := h₃'.members m hm
      rw [h₂'.others.2.1] at hin
      exact (hmembers' m).mp hin
    · rw [h₃'.others.2.1,hgroups,h₃.others.2.1]
    -- the members of all places are still there
    · rw [← hmeets.places hrank hheirs h₂' hgroups,h₃'.places r]
      refine and_iff_left_of_imp fun hr => ?_
      obtain ⟨m,hm,hkey⟩ := s₂'.valid.2.1.2.2.2.2.2.2.2.1 r hr
      rw [h₂'.others.2.1] at hm
      exact ⟨m,hmeets.stays h₂' h₃' ((hmembers' m).mp hm),hkey⟩
  · rename_i hall
    rw [if_neg hall] at hrest'
    subst hrest
    subst hrest'
    obtain ⟨husers,hmembers⟩ := h₁.leaves.again h₁' hspares
    refine ⟨husers,hmembers,fun g => ?_,fun r => ?_⟩
    · rw [h₁'.others.1]
    · rw [h₁'.others.2.1]

theorem phases_imported (hsupported : Supported settings out org db) (hranged : Ranged db)
    (hnamed : NamedGroups settings data) :
    Phases rank settings out org orgEmail data db (imported rank settings out org orgEmail data db) :=
  ends_import hsupported hranged hnamed

/-- A second import with the same data changes nothing. -/
theorem import_repeats (hrank : Function.Injective rank) (hsupported : Supported settings out org db)
    (hranged : Ranged db) (hnamed : NamedGroups settings data)
    (hspares : SparesAlike settings out org orgEmail data db (imported rank settings out org orgEmail data db))
    (hheirs : NoHeirs rank settings org data db (imported rank settings out org orgEmail data db)) :
    SameState (imported rank settings out org orgEmail data db)
      (imported rank settings out org orgEmail data (imported rank settings out org orgEmail data db)) := by
  have hfirst : Phases rank settings out org orgEmail data db (imported rank settings out org orgEmail data db) :=
    phases_imported hsupported hranged hnamed
  obtain ⟨hsupported',hranged',haccepts⟩ := hfirst.supported hsupported
  exact hfirst.again hrank (phases_imported hsupported' hranged' hnamed) haccepts hspares hheirs

end Proofs

section Samples

/-- Settings with mail and groups. -/
def mailing : Settings where
  orgGroupsEnabled := true
  mailEnabled := true
  invitationsAllowed := true
  isEmailDomainAllowed _ := true
  isOrgCreationAllowed _ := true
  email2faAutoFallback := false
  isValidEmail _ := true
  toLowercase email := email
  passwordIterations := 600000

/-- Every mail goes out. -/
def delivering : Outside := ⟨fun _ => true,[]⟩

/-- An organisation with two members. -/
def office (first second : Membership) (h : {Tables.none with
    users := [User.new 1 0 [] 600000 ['a'] none,User.new 2 0 [] 600000 ['b'] none]
    organizations := [⟨3⟩]
    members := [first,second]
    next := 6}.Valid) : Database := ⟨_,h⟩

/-- Two owners, the first of them revoked. -/
def twoOwners : Database := office
  {ServerTables.Membership.new 4 1 3 none with
    atype := .owner
    status := Confirmed-ACTIVATE_REVOKE_DIFF}
  {ServerTables.Membership.new 5 2 3 none with
    atype := .owner
    status := Confirmed} (by decide)

/-- The second owner leaves the directory, the first one comes back. -/
def exchange : OrgImportData := ⟨[],[⟨['b'],['y'],true⟩,⟨['a'],['x'],false⟩],false⟩

/-- A group without an identifier. -/
def blankGroup : OrgImportData := ⟨[⟨[],[]⟩],[],false⟩

/-- A member and an owner with one identifier. -/
def namesakes : Database := office
  {ServerTables.Membership.new 4 1 3 none with
    status := Confirmed
    externalId := some ['x']}
  {ServerTables.Membership.new 5 2 3 none with
    atype := .owner
    status := Confirmed
    externalId := some ['x']} (by decide)

/-- Neither is listed, and a group names them. -/
def emptied : OrgImportData := ⟨[⟨['g'],[['x']]⟩],[],true⟩

/-- Once the first owner is back, the second import revokes the second one. A
group with a blank identifier is created again. And the owner who is kept takes
the place of the member who was removed. -/
theorem import_differs :
    ¬SameState (imported id mailing delivering 3 [] exchange twoOwners)
      (imported id mailing delivering 3 [] exchange (imported id mailing delivering 3 [] exchange twoOwners)) ∧
    ¬SameState (imported id mailing delivering 3 [] blankGroup twoOwners)
      (imported id mailing delivering 3 [] blankGroup (imported id mailing delivering 3 [] blankGroup twoOwners)) ∧
    ¬SameState (imported id mailing delivering 3 [] emptied namesakes)
      (imported id mailing delivering 3 [] emptied (imported id mailing delivering 3 [] emptied namesakes)) := by
  refine ⟨fun h => ?_,fun h => ?_,fun h => ?_⟩
  · have hrow := h.members {ServerTables.Membership.new 5 2 3 none with
      atype := .owner
      status := Confirmed
      externalId := some ['y']}
    revert hrow
    decide
  · have hrow := h.groups ⟨7,3,false,none⟩
    revert hrow
    decide
  · have hrow := h.places ⟨6,5⟩
    revert hrow
    decide

/-- An owner, and a member that the directory does not list. -/
def staffed : Database := office
  {ServerTables.Membership.new 4 1 3 none with
    atype := .owner
    status := Confirmed}
  {ServerTables.Membership.new 5 2 3 none with
    status := Confirmed
    externalId := some ['x']} (by decide)

/-- The owner is listed twice, somebody is new, and a group names both and the
member that goes. -/
def directory : OrgImportData :=
  ⟨[⟨['g'],[['x'],['y'],['z']]⟩],[⟨['a'],['w'],true⟩,⟨['c'],['z'],false⟩,⟨['a'],['y'],false⟩],true⟩

theorem import_repeats_staffed : SameState (imported id mailing delivering 3 [] directory staffed)
    (imported id mailing delivering 3 [] directory (imported id mailing delivering 3 [] directory staffed)) := by
  have hspared : spared mailing 3 delivering [] directory.members staffed []=[] := by decide
  have hspared' : spared mailing 3 delivering [] directory.members
      (imported id mailing delivering 3 [] directory staffed) []=[] := by decide
  have hranged : ∀ m∈staffed.members,-ACTIVATE_REVOKE_DIFF≤ m.status ∧ m.status<ACTIVATE_REVOKE_DIFF := by decide
  have hlast : ∀ m∈staffed.members,∀ o∈(imported id mailing delivering 3 [] directory staffed).members,
      m∈(imported id mailing delivering 3 [] directory staffed).members ∨ m.externalId≠o.externalId := by
    decide
  refine import_repeats Function.injective_id ⟨fun _ => rfl,fun _ => rfl,⟨3⟩,by decide,rfl⟩ hranged (by decide)
    (fun a => ?_) fun m hm hgone o ho _ _ _ y g _ x _ ⟨hx,hx'⟩ => ?_
  · rw [hspared,hspared']
  · rcases hlast m hm o ho with hkept|hne
    · exact hgone hkept
    · exact hne (hx.trans hx'.symm)

end Samples

end NadSafe.ImportRepeats
