import NadSafe.ConfirmedAccess

/-!
# Organisations keep an owner

Every operation that takes an owner away first counts the confirmed owners,
in a statement of its own. In every interleaving in which the confirmed
owners change only while no other of these operations is in flight, every
organisation keeps a confirmed owner.
-/

namespace NadSafe.OwnerRuns

open HostText TableRows AsyncScript ServerTables AccessQueries StoreScript ServerModels OrgHandlers
open DirectoryImport GroupIsolation ScriptPool RelyScript SequentialScript StepRuns

/-- The confirmed owners: membership, account and organisation. -/
def owners (t : Tables) : List (Uuid×Uuid×Uuid) :=
  (t.members.filter fun m => m.atype=.owner ∧ m.status=Confirmed).map
    fun m => (m.uuid,m.userUuid,m.orgUuid)

/-- Every organisation has a confirmed owner. -/
def Staffed (t : Tables) : Prop := ∀ o∈t.organizations,∃ k∈owners t,k.2.2=o.uuid

instance (t : Tables) : Decidable (Staffed t) :=
  inferInstanceAs (Decidable (∀ o∈t.organizations,∃ k∈owners t,k.2.2=o.uuid))

/-- The confirmed owners are the same. -/
def SameOwners (db db' : Database) : Prop := ∀ k,k∈owners db'.toTables ↔ k∈owners db.toTables

/-- The owner with this membership is not the last one. -/
def MayGo (t : Tables) (x : Uuid) : Prop :=
  ∀ k∈owners t,k.1=x → ∃ k'∈owners t,k'.2.2=k.2.2 ∧ k'.1≠x

/-- The row says whether its member is a confirmed owner. -/
def Known (t : Tables) (m : Membership) : Prop :=
  ∀ k∈owners t,k.1=m.uuid → k=(m.uuid,m.userUuid,m.orgUuid) ∧ m.atype=.owner ∧ m.status=Confirmed

/-- The row may be saved: it is that of a confirmed owner, or of nobody's
last owner. -/
def MaySave (t : Tables) (m : Membership) : Prop :=
  ∀ k∈owners t,k.1=m.uuid → (∃ k'∈owners t,k'.2.2=k.2.2 ∧ k'.1≠m.uuid) ∨
    (m.orgUuid=k.2.2 ∧ m.atype=.owner ∧ m.status=Confirmed)

section Rows

variable {t : Tables} {db : Database} {m : Membership} {x : Uuid}

theorem mem_owners {k : Uuid×Uuid×Uuid} : k∈owners t ↔
    ∃ m∈t.members,(m.atype=.owner ∧ m.status=Confirmed) ∧ (m.uuid,m.userUuid,m.orgUuid)=k := by
  simp only [owners,List.mem_map,List.mem_filter,decide_eq_true_eq,and_assoc]

/-- A membership that was read. -/
theorem known_of_mem (hm : m∈db.members) : Known db.toTables m := by
  intro k hk hx
  obtain ⟨q,hq,hrole,rfl⟩ := (mem_owners).mp hk
  have hkey : q.uuid=m.uuid := hx
  have hsame : q=m := eq_of_key db.member_nodup hq hm hkey
  subst hsame
  exact ⟨rfl,hrole⟩

/-- Another owner, where there is more than one. -/
theorem exists_other {org : Uuid}
    (h : 1<(Membership.confirmedByOrgAndType db.toTables org .owner).length) (x : Uuid) :
    ∃ k∈owners db.toTables,k.2.2=org ∧ k.1≠x := by
  have hsub : ((Membership.confirmedByOrgAndType db.toTables org .owner).map
      ServerTables.Membership.uuid).Nodup := by
    refine db.member_nodup.sublist ?_
    exact List.filter_sublist.map ServerTables.Membership.uuid
  have hrow : ∀ m∈Membership.confirmedByOrgAndType db.toTables org .owner,
      (m.uuid,m.userUuid,m.orgUuid)∈owners db.toTables ∧ m.orgUuid=org := by
    intro m hm
    simp only [Membership.confirmedByOrgAndType,List.mem_filter,decide_eq_true_eq] at hm
    exact ⟨(mem_owners).mpr ⟨m,hm.1,hm.2.2,rfl⟩,hm.2.1⟩
  cases hlist : Membership.confirmedByOrgAndType db.toTables org .owner with
  | nil => rw [hlist] at h; simp at h
  | cons a rest =>
    cases rest with
    | nil => rw [hlist] at h; simp at h
    | cons b rest =>
      rw [hlist] at hsub hrow
      have hne : a.uuid≠b.uuid := by
        intro he
        rw [List.map_cons,List.map_cons,List.nodup_cons] at hsub
        exact hsub.1 (he ▸ List.mem_cons_self)
      have ha := hrow a List.mem_cons_self
      have hb := hrow b (List.mem_cons_of_mem a List.mem_cons_self)
      by_cases hax : a.uuid=x
      · exact ⟨_,hb.1,hb.2,fun hbx => hne (hax.trans hbx.symm)⟩
      · exact ⟨_,ha.1,ha.2,hax⟩

/-- A row that is removed. -/
theorem staffed_remove (h : Staffed t) (hgo : MayGo t x) :
    Staffed {t with members := t.members.filter fun q => q.uuid≠x} := by
  have hstays : ∀ k∈owners t,k.1≠x → k∈owners {t with members := t.members.filter fun q => q.uuid≠x} := by
    intro k hk hne
    obtain ⟨q,hq,hrole,rfl⟩ := (mem_owners).mp hk
    exact (mem_owners).mpr ⟨q,List.mem_filter.mpr ⟨hq,by simpa using hne⟩,hrole,rfl⟩
  intro o ho
  obtain ⟨k,hk,horg⟩ := h o ho
  by_cases hkx : k.1=x
  · obtain ⟨k',hk',horg',hne⟩ := hgo k hk hkx
    exact ⟨k',hstays k' hk' hne,horg'.trans horg⟩
  · exact ⟨k,hstays k hk hkx,horg⟩

/-- The owners that a save leaves. -/
theorem mem_owners_put {k : Uuid×Uuid×Uuid} (hk : k∈owners t) (hne : k.1≠m.uuid) :
    k∈owners {t with members := put Membership.uuid m t.members} := by
  obtain ⟨q,hq,hrole,rfl⟩ := (mem_owners).mp hk
  exact (mem_owners).mpr ⟨q,mem_put.mpr (.inr ⟨hq,hne⟩),hrole,rfl⟩

/-- A row that is saved. -/
theorem staffed_put (h : Staffed t) (hsave : MaySave t m) :
    Staffed {t with members := put Membership.uuid m t.members} := by
  intro o ho
  obtain ⟨k,hk,horg⟩ := h o ho
  by_cases hkx : k.1=m.uuid
  · rcases hsave k hk hkx with ⟨k',hk',horg',hne⟩|⟨horg',hrole⟩
    · exact ⟨k',mem_owners_put hk' hne,horg'.trans horg⟩
    · exact ⟨_,(mem_owners).mpr ⟨m,mem_put.mpr (.inl rfl),hrole,rfl⟩,horg'.trans horg⟩
  · exact ⟨k,mem_owners_put hk hkx,horg⟩

/-- A member that may go may be saved in any state. -/
theorem MayGo.maySave (h : MayGo t m.uuid) : MaySave t m := fun k hk hx => .inl (h k hk hx)

/-- A row that stays that of an owner, if it was. -/
theorem Known.maySave {m' : Membership} (h : Known t m) (huuid : m'.uuid=m.uuid)
    (horg : m'.orgUuid=m.orgUuid)
    (hrole : m.atype=.owner → m.status=Confirmed → m'.atype=.owner ∧ m'.status=Confirmed) :
    MaySave t m' := by
  intro k hk hx
  obtain ⟨hkey,hown,hstatus⟩ := h k hk (hx.trans huuid)
  right
  rw [hkey]
  exact ⟨horg,hrole hown hstatus⟩

end Rows

/-- What an operation relies on while it is suspended. -/
structure Rely (db db' : Database) : Prop where
  /-- The organisations. -/
  organizations : db'.organizations=db.organizations
  /-- Their owners. -/
  owners : SameOwners db db'
  /-- None is without one. -/
  staffed : Staffed db'.toTables

/-- What every segment guarantees. -/
structure Guarantee (db db' : Database) : Prop where
  /-- The organisations. -/
  organizations : db'.organizations=db.organizations
  /-- None is without an owner. -/
  staffed : Staffed db'.toTables

/-- The tables that matter. -/
def staff (db : Database) : List Membership×List Organization := (db.members,db.organizations)

/-- A fact about the confirmed owners. -/
def Steady (F : Database → Prop) : Prop := ∀ db db',SameOwners db db' → F db → F db'

/-- An operation that goes on with a fact about the owners. -/
abbrev Holding {α : Type} (F : α → Database → Prop) (p : Action α) (db₀ db : Database) : Prop :=
  Bears exec Rely Guarantee (fun a db₀ db => F a db ∧ Guarantee db₀ db) p db₀ db

section Rules

variable {α β : Type} {F : Database → Prop} {db₀ db : Database} {m : Membership} {x : Uuid}

theorem Guarantee.refl (h : Staffed db.toTables) : Guarantee db db := ⟨rfl,h⟩

theorem Rely.refl (h : Staffed db.toTables) : Rely db db := ⟨rfl,fun _ => Iff.rfl,h⟩

theorem Rely.trans {a b c : Database} (h : Rely a b) (h' : Rely b c) : Rely a c :=
  ⟨h'.organizations.trans h.organizations,fun k => (h'.owners k).trans (h.owners k),h'.staffed⟩

theorem steady_known (m : Membership) : Steady fun db => Known db.toTables m :=
  fun _ _ hsame h k hk hx => h k ((hsame k).mp hk) hx

theorem steady_mayGo (x : Uuid) : Steady fun db => MayGo db.toTables x := by
  intro db db' hsame h k hk hx
  obtain ⟨k',hk',hrest⟩ := h k ((hsame k).mp hk) hx
  exact ⟨k',(hsame k').mpr hk',hrest⟩

theorem Steady.and {F' : Database → Prop} (h : Steady F) (h' : Steady F') :
    Steady fun db => F db ∧ F' db :=
  fun db db' hsame hF => ⟨h db db' hsame hF.1,h' db db' hsame hF.2⟩

/-- The same members and organisations. -/
theorem sameOwners_of_staff {db' : Database} (h : staff db'=staff db) : SameOwners db db' := by
  have hmembers : db'.members=db.members := congrArg Prod.fst h
  intro k
  rw [mem_owners,mem_owners,hmembers]

theorem staffed_of_staff {db' : Database} (h : staff db'=staff db) (hdb : Staffed db.toTables) :
    Staffed db'.toTables := by
  have horgs : db'.organizations=db.organizations := congrArg Prod.snd h
  intro o ho
  obtain ⟨k,hk,horg⟩ := hdb o (horgs ▸ ho)
  exact ⟨k,(sameOwners_of_staff h k).mpr hk,horg⟩

/-- Code that writes other tables. -/
theorem holding_frames {p : Action α} (hp : Frames exec staff p) (hF : Steady F) (h : F db)
    (hG : Guarantee db₀ db) : Holding (fun _ => F) p db₀ db := by
  refine (Bears.frames (F:=fun db => F db ∧ Staffed db.toTables) ?_ ?_ ?_ ?_ hp ⟨h,hG.staffed⟩ hG).mono ?_
  · intro a b c hab hbc
    exact ⟨(congrArg Prod.snd hbc : c.organizations=b.organizations).trans hab.organizations,
      staffed_of_staff hbc hab.staffed⟩
  · exact fun a ha => Guarantee.refl ha.2
  · exact fun a b hab ha => ⟨hF a b hab.owners ha.1,hab.staffed⟩
  · exact fun a b hab ha => ⟨hF a b (sameOwners_of_staff hab) ha.1,staffed_of_staff hab ha.2⟩
  · exact fun _ _ _ h => ⟨h.1.1,h.2⟩

/-- A query, with the facts that stay. -/
theorem holding_lookup {f : Tables → β} {g : β → Action α} {Q : α → Database → Prop} (hF : Steady F)
    (h : F db) (hG : Guarantee db₀ db)
    (hg : ∀ db',F db' → Staffed db'.toTables → Holding Q (g (f db'.toTables)) db' db') :
    Holding Q ((lookup f).bind g) db₀ db :=
  Bears.query hG fun db' hdb' => hg db' (hF db db' hdb'.owners h) hdb'.staffed

/-- A statement. -/
theorem holding_update {message : String} {f : Tables → Tables} {Q : Unit → Database → Prop} (hF : Steady F)
    (h : F db) (hG : Guarantee db₀ db)
    (hf : ∀ db' db'' : Database,F db' → Staffed db'.toTables → db''.toTables=f db'.toTables →
      Q () db'' ∧ Guarantee db' db'') : Holding Q (update message f) db₀ db :=
  Bears.execute hG fun db' hdb' =>
    ⟨fun db'' hc => hf db' db'' (hF db db' hdb'.owners h) hdb'.staffed (commit_eq hc),
      Guarantee.refl hdb'.staffed⟩

theorem steady_maySave (m : Membership) : Steady fun db => MaySave db.toTables m := by
  intro db db' hsame h k hk hx
  rcases h k ((hsame k).mp hk) hx with ⟨k',hk',hrest⟩|hrole
  · exact .inl ⟨k',(hsame k').mpr hk',hrest⟩
  · exact .inr hrole

/-- A save of a membership. -/
theorem holding_saveMember (h : MaySave db.toTables m) (hG : Guarantee db₀ db) :
    Holding (fun _ _ => True) (Membership.save m) db₀ db := by
  refine holding_update (steady_maySave m) h hG fun db' db'' hsave hstaffed heq => ⟨trivial,?_,?_⟩
  · rw [heq]
  · rw [heq]
    exact staffed_put hstaffed hsave

/-- The check that an owner who goes is not the last one. -/
theorem holding_otherOwner {message : String} {goes : Bool} {org : Uuid} (h : Known db.toTables m)
    (horg : m.orgUuid=org) (hgoes : m.atype=.owner → m.status=Confirmed → goes=true)
    (hG : Guarantee db₀ db) :
    Holding (fun _ db => MayGo db.toTables m.uuid) (ensureOtherOwner message goes org) db₀ db := by
  unfold ensureOtherOwner
  split
  · refine holding_lookup (steady_known m) h hG fun db' hknown hstaffed => ?_
    refine Bears.ensure_done (Guarantee.refl hstaffed) fun hcount => ⟨?_,Guarantee.refl hstaffed⟩
    intro k hk hx
    obtain ⟨hkey,-⟩ := hknown k hk hx
    obtain ⟨k',hk',horg',hne⟩ := exists_other (of_decide_eq_true hcount) m.uuid
    refine ⟨k',hk',?_,hne⟩
    rw [hkey,horg',horg]
  · rename_i hnot
    refine ⟨fun k hk hx => ?_,hG⟩
    obtain ⟨-,hown,hstatus⟩ := h k hk hx
    exact absurd (hgoes hown hstatus) hnot

/-- A fact that stays when the owner with this membership goes. -/
def Survives (x : Uuid) (F : Database → Prop) : Prop :=
  ∀ db db' : Database,(∀ k∈owners db'.toTables,k∈owners db.toTables) →
    (∀ k∈owners db.toTables,k.1≠x → k∈owners db'.toTables) → F db → F db'

/-- A delete of a membership. -/
theorem holding_deleteMember (hF : Steady F) (hsurvives : Survives m.uuid F) (h : F db) (hgo : MayGo db.toTables m.uuid) (hG : Guarantee db₀ db) :
    Holding (fun _ => F) (Membership.delete m) db₀ db := by
  have hboth : Steady fun db => F db ∧ MayGo db.toTables m.uuid := hF.and (steady_mayGo _)
  unfold Membership.delete CollectionUser.deleteAllByUserAndOrg
  refine (holding_frames (Frames.bind (frames_lookup _) fun _ => frames_update fun db db' heq => ?_) hboth
    ⟨h,hgo⟩ hG).bind fun _ db₀ db hdb => ?_
  · simp only [staff,heq]
  refine (holding_frames (frames_update fun db db' heq => ?_) hboth hdb.1 hdb.2).bind
    fun _ db₀ db hdb => ?_
  · simp only [staff,heq]
  refine holding_update hboth hdb.1 hdb.2 fun db' db'' hdb' hstaffed heq => ⟨?_,?_,?_⟩
  · refine hsurvives db' db'' ?_ ?_ hdb'.1
    · intro k hk
      rw [heq] at hk
      obtain ⟨q,hq,hrole,rfl⟩ := mem_owners.mp hk
      exact mem_owners.mpr ⟨q,List.mem_of_mem_filter hq,hrole,rfl⟩
    · intro k hk hne
      obtain ⟨q,hq,hrole,rfl⟩ := mem_owners.mp hk
      rw [heq]
      exact mem_owners.mpr ⟨q,List.mem_filter.mpr ⟨hq,by simpa using hne⟩,hrole,rfl⟩
  · rw [heq]
  · rw [heq]
    exact staffed_remove hstaffed hdb'.2

end Rules

section Framed

variable {settings : Settings} {org user : Uuid} {m : Membership}

/-- A statement on other tables. -/
theorem frames_staff {message : String} {f : Tables → Tables}
    (h : ∀ t,(f t).members=t.members ∧ (f t).organizations=t.organizations) :
    Frames exec staff (update message f) :=
  frames_update fun db db' heq => by rw [staff,heq,(h db.toTables).1,(h db.toTables).2]; rfl

theorem frames_draw : Frames exec staff getUuid := frames_getUuid fun _ => rfl

theorem frames_otherOwner {message : String} {goes : Bool} :
    Frames exec staff (ensureOtherOwner message goes org) :=
  Frames.ite (fun _ => Frames.bind (frames_lookup _) fun _ => Frames.ensure _ _) fun _ => Frames.pure _

theorem frames_saveUser {u : User} : Frames exec staff (User.save settings u) :=
  Frames.ite (fun _ => frames_staff fun _ => ⟨rfl,rfl⟩) fun _ => Frames.throw _

theorem frames_invitation {email : Text} : Frames exec staff (Invitation.save settings email) :=
  Frames.ite (fun _ => frames_staff fun _ => ⟨rfl,rfl⟩) fun _ => Frames.throw _

theorem frames_takeInvitation {email : Text} : Frames exec staff (Invitation.take settings email) :=
  Frames.bind (frames_lookup _) fun _ =>
    Frames.ite (fun _ => Frames.ok (frames_staff fun _ => ⟨rfl,rfl⟩)) fun _ => Frames.pure _

theorem frames_inviteByTable {email : Text} : Frames exec staff (inviteByTable settings email) :=
  Frames.ite (fun _ => Frames.pure _) fun _ => frames_invitation

theorem frames_applicable {atype : OrgPolicyType} {excluded : Option Uuid} :
    Frames exec staff (OrgPolicy.isApplicableToUser user atype excluded) :=
  Frames.bind (frames_lookup _) fun _ => Frames.findAny fun _ => frames_lookup _

theorem frames_activateEmail2fa : Frames exec staff (findAndActivateEmail2fa user) := by
  refine Frames.bind (frames_lookup _) fun found => ?_
  cases found with
  | none => exact Frames.throw _
  | some u =>
    refine Frames.ite (fun _ => ?_) fun _ => Frames.throw _
    exact Frames.bind frames_draw fun _ => Frames.bind frames_utcNow fun _ =>
      frames_staff fun _ => ⟨rfl,rfl⟩

/-- `OrgPolicy::check_user_allowed`. -/
theorem frames_checkUserAllowed {action : String} :
    Frames exec staff (OrgPolicy.checkUserAllowed settings m action) := by
  have htwo : Frames exec staff (OrgPolicy.checkTwoFactor settings m action) :=
    Frames.bind (frames_lookup _) fun _ => Frames.bind (frames_lookup _) fun _ =>
      Frames.ite (fun _ => Frames.pure _) fun _ =>
        Frames.ite (fun _ => frames_activateEmail2fa) fun _ => Frames.throw _
  have hsingle : Frames exec staff (OrgPolicy.checkSingleOrg m action) :=
    Frames.bind (frames_lookup _) fun _ =>
      Frames.ite (fun _ => Frames.bind (frames_lookup _) fun _ => Frames.ensure _ _) fun _ => Frames.pure _
  unfold OrgPolicy.checkUserAllowed
  refine Frames.ite (fun _ => ?_) fun _ => Frames.pure _
  exact Frames.bind htwo fun _ => Frames.bind frames_applicable fun _ =>
    Frames.bind (Frames.ensure _ _) fun _ => hsingle

theorem frames_grantMember {accessAll : Bool} {collections : List CollectionData} :
    Frames exec staff (grantMember accessAll org user collections) :=
  Frames.each fun _ _ => Frames.bind (frames_lookup _) fun _ =>
    Frames.bind (Frames.expect _ _) fun _ => frames_staff fun _ => ⟨rfl,rfl⟩

theorem frames_deleteGrant (r : CollectionUser) : Frames exec staff (CollectionUser.delete r) :=
  frames_staff fun _ => ⟨rfl,rfl⟩

theorem frames_deletePlaces (member : Uuid) : Frames exec staff (GroupUser.deleteAllByMember member) :=
  frames_staff fun _ => ⟨rfl,rfl⟩

theorem frames_savePlace (r : GroupUser) : Frames exec staff (GroupUser.save r) :=
  frames_staff fun _ => ⟨rfl,rfl⟩

/-- Deletes of rows found before. -/
theorem frames_deleteEach {α : Type} {f : Tables → List α} {body : α → Action Unit}
    (h : ∀ a,Frames exec staff (body a)) :
    Frames exec staff (do
      let rows ← lookup f
      each rows body) :=
  Frames.bind (frames_lookup f) fun _ => Frames.each fun a _ => h a

theorem frames_deleteCipher {c : Cipher} : Frames exec staff (Cipher.delete c) :=
  Frames.bind (frames_staff fun _ => ⟨rfl,rfl⟩) fun _ =>
    Frames.bind (frames_staff fun _ => ⟨rfl,rfl⟩) fun _ =>
    Frames.bind (frames_lookup _) fun _ =>
    Frames.bind (Frames.each fun _ _ => frames_staff fun _ => ⟨rfl,rfl⟩) fun _ =>
    Frames.bind (frames_staff fun _ => ⟨rfl,rfl⟩) fun _ => frames_staff fun _ => ⟨rfl,rfl⟩

theorem frames_deleteFolders : Frames exec staff (Folder.deleteAllByUser user) :=
  frames_deleteEach fun _ => Frames.bind (frames_staff fun _ => ⟨rfl,rfl⟩) fun _ =>
    frames_staff fun _ => ⟨rfl,rfl⟩

theorem frames_deleteEmergencyAccess {email : Text} :
    Frames exec staff (EmergencyAccess.deleteAllByUser user email) :=
  Frames.bind (frames_lookup _) fun _ =>
    Frames.bind (Frames.each fun _ _ => frames_staff fun _ => ⟨rfl,rfl⟩) fun _ =>
    Frames.bind (frames_lookup _) fun _ =>
    Frames.bind (Frames.each fun _ _ => frames_staff fun _ => ⟨rfl,rfl⟩) fun _ =>
    frames_deleteEach fun _ => frames_staff fun _ => ⟨rfl,rfl⟩

/-- The account of an imported member. -/
theorem frames_importedUser {out : Outside} {email : Text} :
    Frames exec staff (importedUser settings out email) := by
  refine Frames.bind (frames_lookup _) fun found => ?_
  cases found with
  | some u => exact Frames.pure _
  | none =>
    exact Frames.bind frames_draw fun _ => Frames.bind frames_draw fun _ =>
      Frames.bind frames_saveUser fun _ => Frames.bind frames_inviteByTable fun _ => Frames.pure _

/-- One group of an import. -/
theorem frames_importGroup {data : OrgImportGroupData} : Frames exec staff (importGroup org data) := by
  refine Frames.bind ?_ fun _ => Frames.bind (frames_staff fun _ => ⟨rfl,rfl⟩) fun _ =>
    Frames.each fun _ _ => Frames.bind (frames_lookup _) fun found => ?_
  · refine Frames.bind (frames_lookup _) fun found => ?_
    cases found with
    | some g => exact Frames.pure _
    | none =>
      exact Frames.bind frames_draw fun _ => Frames.bind (frames_staff fun _ => ⟨rfl,rfl⟩) fun _ =>
        Frames.pure _
  · cases found with
    | some m => exact frames_staff fun _ => ⟨rfl,rfl⟩
    | none => exact Frames.pure _

end Framed

section Handlers

variable {settings : Settings} {out : Outside} {db₀ db : Database} {caller org id user : Uuid}
  {m : Membership}

/-- Nothing in particular. -/
theorem steady_true : Steady fun _ => True := fun _ _ _ _ => trivial

/-- A membership that was found. -/
theorem known_of_find {f : Membership → Bool} (h : db.members.find? f=some m) : Known db.toTables m :=
  known_of_mem (List.mem_of_find?_eq_some h)

/-- The guards find a membership of the organisation. -/
theorem holding_orgHeaders (hG : Guarantee db₀ db) :
    Holding (fun h db => Known db.toTables h.membership ∧ h.membership.orgUuid=org)
      (orgHeaders caller org) db₀ db := by
  unfold orgHeaders
  refine holding_lookup steady_true trivial hG fun db₁ _ h₁ => ?_
  refine Bears.expect (Guarantee.refl h₁) fun u _ => ?_
  refine holding_lookup steady_true trivial (Guarantee.refl h₁) fun db₂ _ h₂ => ?_
  refine Bears.expect (Guarantee.refl h₂) fun member hfind => ?_
  refine Bears.ensure (Guarantee.refl h₂) fun _ => ⟨⟨known_of_find hfind,?_⟩,Guarantee.refl h₂⟩
  have hrow : member.userUuid=u.uuid ∧ member.orgUuid=org := by simpa using List.find?_some hfind
  exact hrow.2

theorem holding_adminHeaders (hG : Guarantee db₀ db) :
    Holding (fun _ _ => True) (adminHeaders caller org) db₀ db := by
  unfold adminHeaders
  refine (holding_orgHeaders hG).bind fun h db₀ db hdb => ?_
  exact Bears.ensure hdb.2 fun _ => ⟨trivial,hdb.2⟩

/-- A membership of the organisation that is looked up by its key. -/
theorem holding_findMember {α : Type} {g : Option Membership → Action α} {Q : α → Database → Prop}
    (hG : Guarantee db₀ db)
    (hg : ∀ (db' : Database) (found : Option Membership),Staffed db'.toTables →
      (∀ m,found=some m → Known db'.toTables m ∧ m.orgUuid=org) → Holding Q (g found) db' db') :
    Holding Q ((Membership.findByUuidAndOrg id org).bind g) db₀ db := by
  refine holding_lookup steady_true trivial hG fun db' _ hstaffed => ?_
  refine hg db' _ hstaffed fun m hm => ⟨known_of_find hm,?_⟩
  have hrow : m.uuid=id ∧ m.orgUuid=org := by simpa using List.find?_some hm
  exact hrow.2

/-- `leave_organization`. -/
theorem holding_leave (hG : Guarantee db₀ db) :
    Holding (fun _ _ => True) (leaveOrganization caller org) db₀ db := by
  unfold leaveOrganization
  refine (holding_orgHeaders hG).bind fun h db₁ db ⟨⟨hknown,horg⟩,hG⟩ => ?_
  refine Bears.ensure hG fun _ => ?_
  refine (holding_otherOwner hknown horg (fun hown _ => decide_eq_true hown) hG).bind
    fun _ db₂ db ⟨hgo,hG⟩ => ?_
  exact holding_deleteMember steady_true (fun _ _ _ _ _ => trivial) trivial hgo hG

/-- `delete_member_impl`. -/
theorem holding_deleteImpl {h : OrgHeaders} (hG : Guarantee db₀ db) :
    Holding (fun _ _ => True) (deleteMemberImpl h org id) db₀ db := by
  unfold deleteMemberImpl
  refine holding_findMember hG fun db₁ found hstaffed hfound => ?_
  refine Bears.expect (Guarantee.refl hstaffed) fun m hm => ?_
  obtain ⟨hknown,horg⟩ := hfound m hm
  refine Bears.ensure (Guarantee.refl hstaffed) fun _ => ?_
  have hgoes : m.atype=.owner → m.status=Confirmed →
      decide (m.atype=.owner ∧ m.status=Confirmed)=true := fun ho hs => decide_eq_true ⟨ho,hs⟩
  refine (holding_otherOwner hknown horg hgoes (Guarantee.refl hstaffed)).bind
    fun _ db₂ db ⟨hgo,hG⟩ => ?_
  exact holding_deleteMember steady_true (fun _ _ _ _ _ => trivial) trivial hgo hG

/-- `revoke_member_impl`. -/
theorem holding_revokeImpl {h : OrgHeaders} (hG : Guarantee db₀ db) :
    Holding (fun _ _ => True) (revokeMemberImpl h org id) db₀ db := by
  unfold revokeMemberImpl
  refine holding_findMember hG fun db₁ found hstaffed hfound => ?_
  have hG₁ := Guarantee.refl hstaffed
  refine Bears.expect hG₁ fun m hm => ?_
  obtain ⟨hknown,horg⟩ := hfound m hm
  refine Bears.ensure hG₁ fun _ => Bears.ensure hG₁ fun _ => Bears.ensure hG₁ fun _ => ?_
  refine (holding_otherOwner hknown horg (fun hown _ => decide_eq_true hown) hG₁).bind
    fun _ db₂ db ⟨hgo,hG⟩ => ?_
  have huuid : m.revoke.uuid=m.uuid := by
    unfold ServerTables.Membership.revoke
    split <;> rfl
  exact holding_saveMember (MayGo.maySave (huuid ▸ hgo)) hG

/-- A loop keeps what its body keeps, for the elements that are left. -/
theorem holding_each {β : Type} {xs : List β} {body : β → Action Unit} {F : List β → Database → Prop}
    (hbody : ∀ x xs db₀ db,F (x::xs) db → Guarantee db₀ db → Holding (fun _ => F xs) (body x) db₀ db)
    (h : F xs db) (hG : Guarantee db₀ db) : Holding (fun _ => F []) (each xs body) db₀ db :=
  Bears.each (J:=fun xs db₀ db => F xs db ∧ Guarantee db₀ db)
    (fun x xs db₀ db hdb => hbody x xs db₀ db hdb.1 hdb.2) ⟨h,hG⟩

/-- A loop whose body drops its errors. -/
theorem holding_eachOk {ids : List Uuid} {body : Uuid → Action Unit}
    (h : ∀ x db₀ db,Guarantee db₀ db → Holding (fun _ _ => True) (body x) db₀ db)
    (hG : Guarantee db₀ db) : Holding (fun _ _ => True) (each ids fun x => ok (body x)) db₀ db :=
  holding_each (F:=fun _ _ => True)
    (fun x _ db₀ db _ hdb => Bears.ok (h x db₀ db hdb) fun _ _ h => ⟨trivial,h⟩) trivial hG

/-- `edit_member`. -/
theorem holding_editMember {data : MemberData} (hG : Guarantee db₀ db) :
    Holding (fun _ _ => True) (editMember settings caller org id data) db₀ db := by
  unfold editMember
  refine (holding_adminHeaders hG).bind fun h db₁ db ⟨_,hG⟩ => ?_
  refine Bears.expect hG fun newType _ => ?_
  refine holding_findMember hG fun db₂ found hstaffed hfound => ?_
  have hG₂ := Guarantee.refl hstaffed
  refine Bears.expect hG₂ fun m hm => ?_
  obtain ⟨hknown,horg⟩ := hfound m hm
  refine Bears.ensure hG₂ fun _ => Bears.ensure hG₂ fun _ => ?_
  -- the new row is that of an owner, or the check has been made
  have hcheck : Holding (fun _ db => MaySave db.toTables {m with
        accessAll := accessAllFor data.type newType data.permissions
        atype := newType})
      (ensureOtherOwner "Can't delete the last owner"
        (decide (m.atype=.owner ∧ newType≠.owner ∧ m.status=Confirmed)) org) db₂ db₂ := by
    by_cases htype : newType=.owner
    · refine (holding_frames frames_otherOwner (steady_known m) hknown hG₂).mono fun _ _ db hdb => ?_
      exact ⟨hdb.1.maySave rfl rfl fun _ hstatus => ⟨htype,hstatus⟩,hdb.2⟩
    · refine (holding_otherOwner hknown horg (fun ho hs => decide_eq_true ⟨ho,htype,hs⟩) hG₂).mono
        fun _ _ db hdb => ?_
      exact ⟨MayGo.maySave hdb.1,hdb.2⟩
  refine hcheck.bind fun _ db₃ db ⟨hsave,hG⟩ => ?_
  have hsteady := steady_maySave {m with
    accessAll := accessAllFor data.type newType data.permissions
    atype := newType}
  refine (holding_frames frames_checkUserAllowed hsteady hsave hG).bind fun _ db₄ db ⟨hsave,hG⟩ => ?_
  refine (holding_frames (frames_lookup _) hsteady hsave hG).bind fun grants db₅ db ⟨hsave,hG⟩ => ?_
  refine (holding_frames (Frames.each fun r _ => frames_deleteGrant r) hsteady hsave hG).bind
    fun _ db₆ db ⟨hsave,hG⟩ => ?_
  refine (holding_frames frames_grantMember hsteady hsave hG).bind fun _ db₇ db ⟨hsave,hG⟩ => ?_
  refine (holding_frames (frames_deletePlaces m.uuid) hsteady hsave hG).bind
    fun _ db₈ db ⟨hsave,hG⟩ => ?_
  refine (holding_frames (Frames.each fun group _ => frames_savePlace ⟨group,m.uuid⟩) hsteady hsave hG).bind
    fun _ db₉ db ⟨hsave,hG⟩ => ?_
  exact holding_saveMember hsave hG

/-- Another owner of the organisation, besides an account. -/
def SpareIn (t : Tables) (user o : Uuid) : Prop :=
  ∀ k∈owners t,k.2.1=user → k.2.2=o → ∃ k'∈owners t,k'.2.2=o ∧ k'.2.1≠user

/-- The same for every organisation. -/
def Spare (t : Tables) (user : Uuid) : Prop :=
  ∀ k∈owners t,k.2.1=user → ∃ k'∈owners t,k'.2.2=k.2.2 ∧ k'.2.1≠user

/-- The confirmed memberships of an account, as they were read. -/
def Listed (t : Tables) (user : Uuid) (rows : List Membership) : Prop :=
  ∀ k∈owners t,k.2.1=user → ∃ m∈rows,m.orgUuid=k.2.2 ∧ m.atype=.owner

theorem steady_spareIn (user o : Uuid) : Steady fun db => SpareIn db.toTables user o := by
  intro db db' hsame h k hk huser horg
  obtain ⟨k',hk',hrest⟩ := h k ((hsame k).mp hk) huser horg
  exact ⟨k',(hsame k').mpr hk',hrest⟩

theorem steady_spare (user : Uuid) : Steady fun db => Spare db.toTables user := by
  intro db db' hsame h k hk huser
  obtain ⟨k',hk',hrest⟩ := h k ((hsame k).mp hk) huser
  exact ⟨k',(hsame k').mpr hk',hrest⟩

/-- Two owners of one organisation are two accounts. -/
theorem spareIn_of_count {o : Uuid}
    (h : 1<(Membership.confirmedByOrgAndType db.toTables o .owner).length) :
    SpareIn db.toTables user o := by
  intro k hk huser horg
  obtain ⟨k',hk',horg',hne⟩ := exists_other h k.1
  refine ⟨k',hk',horg',fun huser' => hne ?_⟩
  obtain ⟨q,hq,-,rfl⟩ := mem_owners.mp hk
  obtain ⟨q',hq',-,rfl⟩ := mem_owners.mp hk'
  have hkey : (q'.userUuid,q'.orgUuid)=(q.userUuid,q.orgUuid) :=
    Prod.ext (huser'.trans huser.symm) (horg'.trans horg.symm)
  rw [eq_of_key db.membership_nodup hq' hq hkey]

/-- The check of all memberships of an account. -/
theorem holding_checkOwner {rest : Action Unit}
    (hrest : ∀ db₀ db : Database,Spare db.toTables user → Guarantee db₀ db →
      Holding (fun _ _ => True) rest db₀ db) (hG : Guarantee db₀ db) :
    Holding (fun _ _ => True) (do
      let confirmed ← lookup fun t => Membership.findConfirmedByUser t user
      each confirmed fun m =>
        ensureOtherOwner "Can't delete last owner" (decide (m.atype=.owner)) m.orgUuid
      rest) db₀ db := by
  refine holding_lookup steady_true trivial hG fun db₁ _ hstaffed => ?_
  have hlisted : Listed db₁.toTables user (Membership.findConfirmedByUser db₁.toTables user) := by
    intro k hk huser
    obtain ⟨q,hq,hrole,rfl⟩ := mem_owners.mp hk
    have hrow : q∈Membership.findConfirmedByUser db₁.toTables user :=
      List.mem_filter.mpr ⟨hq,decide_eq_true ⟨huser,hrole.2⟩⟩
    exact ⟨q,hrow,rfl,hrole.1⟩
  generalize Membership.findConfirmedByUser db₁.toTables user=rows at hlisted
  have hsteady : ∀ left : List Membership,Steady fun db => Listed db.toTables user rows ∧
      ∀ m∈rows,m.atype=.owner → m∈left ∨ SpareIn db.toTables user m.orgUuid := by
    intro left db db' hsame h
    refine ⟨fun k hk huser => h.1 k ((hsame k).mp hk) huser,fun m hm hown => ?_⟩
    exact (h.2 m hm hown).imp_right fun hspare => steady_spareIn user m.orgUuid db db' hsame hspare
  refine (holding_each (F:=fun left db => Listed db.toTables user rows ∧
    ∀ m∈rows,m.atype=.owner → m∈left ∨ SpareIn db.toTables user m.orgUuid) ?_
    ⟨hlisted,fun m hm _ => .inl hm⟩ (Guarantee.refl hstaffed)).bind ?_
  · intro m left db₀ db h hG
    unfold ensureOtherOwner
    split
    · refine holding_lookup (hsteady (m::left)) h hG fun db₂ h hstaffed => ?_
      refine Bears.ensure_done (Guarantee.refl hstaffed) fun hcount => ⟨⟨h.1,fun q hq hown => ?_⟩,
        Guarantee.refl hstaffed⟩
      rcases h.2 q hq hown with hmem|hspare
      · rcases List.mem_cons.mp hmem with rfl|hmem
        · exact .inr (spareIn_of_count (of_decide_eq_true hcount))
        · exact .inl hmem
      · exact .inr hspare
    · rename_i hnot
      refine ⟨⟨h.1,fun q hq hown => ?_⟩,hG⟩
      rcases h.2 q hq hown with hmem|hspare
      · rcases List.mem_cons.mp hmem with rfl|hmem
        · exact absurd (decide_eq_true hown) hnot
        · exact .inl hmem
      · exact .inr hspare
  · rintro _ db₀ db ⟨⟨hlisted,hspare⟩,hG⟩
    refine hrest db₀ db (fun k hk huser => ?_) hG
    obtain ⟨m,hm,horg,hown⟩ := hlisted k hk huser
    have hin := (hspare m hm hown).resolve_left List.not_mem_nil
    obtain ⟨k',hk',horg',huser'⟩ := hin k hk huser horg.symm
    exact ⟨k',hk',horg'.trans horg,huser'⟩

/-- The rows are those of an account. -/
def Theirs (t : Tables) (user : Uuid) (rows : List Membership) : Prop :=
  ∀ m∈rows,∀ k∈owners t,k.1=m.uuid → k.2.1=user

/-- All memberships of an account whose organisations have other owners. -/
theorem holding_deleteMembers (h : Spare db.toTables user) (hG : Guarantee db₀ db) :
    Holding (fun _ _ => True) (Membership.deleteAllByUser user) db₀ db := by
  unfold Membership.deleteAllByUser
  refine holding_lookup (steady_spare user) h hG fun db₁ hspare hstaffed => ?_
  have htheirs : Theirs db₁.toTables user (db₁.members.filter fun m => m.userUuid=user) := by
    intro m hm k hk hx
    obtain ⟨hmem,huser⟩ := List.mem_filter.mp hm
    rw [(known_of_mem hmem k hk hx).1]
    exact of_decide_eq_true huser
  refine (holding_each (F:=fun left db => Spare db.toTables user ∧ Theirs db.toTables user left) ?_
    ⟨hspare,htheirs⟩ (Guarantee.refl hstaffed)).mono fun _ _ _ h => ⟨trivial,h.2⟩
  intro m left db₀ db hdb hG
  have hsteady : Steady fun db => Spare db.toTables user ∧ Theirs db.toTables user (m::left) :=
    (steady_spare user).and fun db db' hsame h q hq k hk hx => h q hq k ((hsame k).mp hk) hx
  have hsurvives : Survives m.uuid fun db =>
      Spare db.toTables user ∧ Theirs db.toTables user (m::left) := by
    intro db db' hsub hstays hdb
    refine ⟨fun k hk huser => ?_,fun q hq k hk hx => hdb.2 q hq k (hsub k hk) hx⟩
    obtain ⟨k',hk',horg,hne⟩ := hdb.1 k (hsub k hk) huser
    have hother : k'.1≠m.uuid := fun hx => hne (hdb.2 m List.mem_cons_self k' hk' hx)
    exact ⟨k',hstays k' hk' hother,horg,hne⟩
  have hgo : MayGo db.toTables m.uuid := by
    intro k hk hx
    obtain ⟨k',hk',horg,hne⟩ := hdb.1 k hk (hdb.2 m List.mem_cons_self k hk hx)
    exact ⟨k',hk',horg,fun hx' => hne (hdb.2 m List.mem_cons_self k' hk' hx')⟩
  refine (holding_deleteMember hsteady hsurvives hdb hgo hG).mono fun _ _ _ h => ⟨?_,h.2⟩
  exact ⟨h.1.1,fun q hq => h.1.2 q (List.mem_cons_of_mem m hq)⟩

theorem frames_deleteSends : Frames exec staff (Send.deleteAllByUser user) :=
  frames_deleteEach fun _ => frames_staff fun _ => ⟨rfl,rfl⟩

theorem frames_deleteCiphers : Frames exec staff (Cipher.deleteAllByUser user) :=
  frames_deleteEach fun _ => frames_deleteCipher

/-- `User::delete`. -/
theorem holding_deleteUser {u : User} (hG : Guarantee db₀ db) :
    Holding (fun _ _ => True) (User.delete settings u) db₀ db := by
  have hsteady := steady_spare u.uuid
  unfold User.delete
  refine holding_checkOwner (fun db₀ db hspare hG => ?_) hG
  refine (holding_frames frames_deleteSends hsteady hspare hG).bind fun _ db₁ db ⟨hspare,hG⟩ => ?_
  refine (holding_frames frames_deleteEmergencyAccess hsteady hspare hG).bind
    fun _ db₂ db ⟨hspare,hG⟩ => ?_
  refine (holding_deleteMembers hspare hG).bind fun _ db₃ db ⟨_,hG⟩ => ?_
  refine (holding_frames frames_deleteCiphers steady_true trivial hG).bind fun _ db₄ db ⟨_,hG⟩ => ?_
  refine holding_frames ?_ steady_true trivial hG
  exact Frames.bind (frames_staff fun _ => ⟨rfl,rfl⟩) fun _ => Frames.bind frames_deleteFolders fun _ =>
    Frames.bind (frames_staff fun _ => ⟨rfl,rfl⟩) fun _ =>
    Frames.bind (frames_staff fun _ => ⟨rfl,rfl⟩) fun _ => Frames.bind frames_takeInvitation fun _ =>
    frames_staff fun _ => ⟨rfl,rfl⟩

/-- The question whether an owner may go. -/
theorem holding_mayGo {F : Database → Prop} (hF : Steady F) (h : F db) (hknown : Known db.toTables m)
    (horg : m.orgUuid=org) (hG : Guarantee db₀ db) :
    Holding (fun may db => F db ∧ Known db.toTables m ∧ (may=true → MayGo db.toTables m.uuid))
      (mayGo org m) db₀ db := by
  unfold mayGo
  split
  · refine holding_lookup (hF.and (steady_known m)) ⟨h,hknown⟩ hG fun db' ⟨h,hknown⟩ hstaffed => ?_
    refine ⟨⟨h,hknown,fun hcount k hk hx => ?_⟩,Guarantee.refl hstaffed⟩
    obtain ⟨hkey,-⟩ := hknown k hk hx
    obtain ⟨k',hk',horg',hne⟩ := exists_other (of_decide_eq_true hcount) m.uuid
    refine ⟨k',hk',?_,hne⟩
    rw [hkey,horg',horg]
  · rename_i hnot
    refine ⟨⟨h,hknown,fun _ k hk hx => ?_⟩,hG⟩
    obtain ⟨-,hown,hstatus⟩ := hknown k hk hx
    exact absurd ⟨hown,hstatus⟩ hnot

theorem holding_saveChanged {changed : Bool} (h : MaySave db.toTables m) (hG : Guarantee db₀ db) :
    Holding (fun _ _ => True) (saveChanged m changed) db₀ db := by
  unfold saveChanged
  split
  · exact holding_saveMember h hG
  · exact ⟨trivial,hG⟩

/-- A member that left the directory. -/
theorem holding_revokeListed {data : OrgImportUserData} (hknown : Known db.toTables m)
    (horg : m.orgUuid=org) (hG : Guarantee db₀ db) :
    Holding (fun _ _ => True) (revokeListed org data m) db₀ db := by
  unfold revokeListed
  refine (holding_mayGo steady_true trivial hknown horg hG).bind fun may db₁ db ⟨⟨_,hknown,hgo⟩,hG⟩ => ?_
  refine holding_saveChanged ?_ hG
  cases may with
  | true =>
    obtain ⟨huuid,-⟩ := setExternalId_same m.revoke data.externalId
    have hrevoke : m.revoke.uuid=m.uuid := by
      unfold ServerTables.Membership.revoke
      split <;> rfl
    have hgo' := hgo rfl
    rw [← hrevoke,← huuid] at hgo'
    exact hgo'.maySave
  | false =>
    obtain ⟨huuid,-,horg',htype,hstatus⟩ := setExternalId_same m data.externalId
    exact hknown.maySave huuid horg' fun ho hs => ⟨htype.trans ho,hstatus.trans hs⟩

/-- A member that is in the directory. -/
theorem holding_restoreListed {data : OrgImportUserData} (hknown : Known db.toTables m)
    (hG : Guarantee db₀ db) : Holding (fun _ _ => True) (restoreListed data m) db₀ db := by
  unfold restoreListed
  refine holding_saveChanged ?_ hG
  obtain ⟨huuid,-,horg',htype,hstatus⟩ := setExternalId_same m.restore data.externalId
  have hrestore : m.restore.uuid=m.uuid ∧ m.restore.orgUuid=m.orgUuid ∧ m.restore.atype=m.atype ∧
      (m.status=Confirmed → m.restore.status=Confirmed) := by
    unfold ServerTables.Membership.restore
    split
    · rename_i hlt
      refine ⟨rfl,rfl,rfl,fun hs => ?_⟩
      rw [hs] at hlt
      exact absurd hlt (by decide)
    · exact ⟨rfl,rfl,rfl,id⟩
  obtain ⟨hu,ho,ht,hs⟩ := hrestore
  exact hknown.maySave (huuid.trans hu) (horg'.trans ho) fun hown hconf =>
    ⟨(htype.trans ht).trans hown,hstatus.trans (hs hconf)⟩

/-- No owner has this key. -/
theorem mayGo_of_absent {x : Uuid} (h : ∀ k∈owners db.toTables,k.1≠x) : MayGo db.toTables x :=
  fun k hk hx => absurd hx (h k hk)

/-- The mail to an invited member, who is nobody's owner. -/
theorem holding_mailInvite {created : Bool} {u : User}
    (h : ∀ k∈owners db.toTables,k.1≠m.uuid) (hG : Guarantee db₀ db) :
    Holding (fun _ _ => True) (mailInvite settings out created u m) db₀ db := by
  have hsteady : Steady fun db => ∀ k∈owners db.toTables,k.1≠m.uuid :=
    fun db db' hsame h k hk => h k ((hsame k).mp hk)
  unfold mailInvite
  split
  · refine holding_lookup hsteady h hG fun db₁ h hstaffed => ?_
    have hG₁ := Guarantee.refl hstaffed
    refine Bears.expect hG₁ fun _ _ => ?_
    split
    · exact ⟨trivial,hG₁⟩
    · dsimp only
      split
      · exact (holding_deleteUser hG₁).bind fun _ _ _ h => h.2
      · exact (holding_deleteMember steady_true (fun _ _ _ _ _ => trivial) trivial (mayGo_of_absent h)
          hG₁).bind fun _ _ _ h => h.2
  · exact ⟨trivial,hG⟩

/-- A new membership that is not an owner's. -/
theorem holding_saveNew (hrole : m.atype≠.owner) (h : ∀ k∈owners db.toTables,k.1≠m.uuid)
    (hG : Guarantee db₀ db) :
    Holding (fun _ db => ∀ k∈owners db.toTables,k.1≠m.uuid) (Membership.save m) db₀ db := by
  have hsteady : Steady fun db => ∀ k∈owners db.toTables,k.1≠m.uuid :=
    fun db db' hsame h k hk => h k ((hsame k).mp hk)
  refine holding_update hsteady h hG fun db' db'' h hstaffed heq => ⟨?_,?_,?_⟩
  · intro k hk
    rw [heq] at hk
    obtain ⟨q,hq,hown,rfl⟩ := mem_owners.mp hk
    rcases mem_put.mp hq with rfl|⟨-,hne⟩
    · exact absurd hown.1 hrole
    · exact hne
  · rw [heq]
  · rw [heq]
    exact staffed_put hstaffed (MayGo.maySave (mayGo_of_absent h))

/-- A new member. -/
theorem holding_inviteListed {orgEmail : Text} {data : OrgImportUserData} (hG : Guarantee db₀ db) :
    Holding (fun _ _ => True) (inviteListed settings out org orgEmail data) db₀ db := by
  unfold inviteListed
  refine (holding_frames frames_importedUser steady_true trivial hG).bind fun r db₁ db ⟨_,hG⟩ => ?_
  obtain ⟨u,created⟩ := r
  refine holding_lookup steady_true trivial hG fun db₂ _ hstaffed => ?_
  refine Bears.expect (Guarantee.refl hstaffed) fun _ _ => ?_
  refine Bears.draw (Guarantee.refl hstaffed) fun db₃ hdb₃ => ?_
  have hfresh : ∀ k∈owners db₃.drawn.toTables,k.1≠db₃.next := by
    intro k hk
    obtain ⟨q,hq,-,rfl⟩ := mem_owners.mp hk
    exact (db₃.valid.2.2.2.2.1 q hq).ne
  have hdrawn : Guarantee db₃ db₃.drawn := ⟨rfl,staffed_of_staff (rfl : staff db₃.drawn=staff db₃) hdb₃.staffed⟩
  have huuid : ∀ status : ℤ,({(setExternalId (ServerTables.Membership.new db₃.next u.uuid org
      (some orgEmail)) data.externalId).1 with
        accessAll := false
        atype := .user
        status := status} : Membership).uuid=db₃.next :=
    fun _ => (setExternalId_same _ _).1
  refine (holding_saveNew (fun h => by cases h) (fun k hk => ?_) hdrawn).bind
    fun _ db₄ db ⟨hother,hG⟩ => holding_mailInvite hother hG
  rw [huuid]
  exact hfresh k hk

/-- One member of an import. -/
theorem holding_importMember {orgEmail : Text} {data : OrgImportUserData} (hG : Guarantee db₀ db) :
    Holding (fun _ _ => True) (importMember settings out org orgEmail data) db₀ db := by
  have hfind : Holding (fun found db => ∀ m,found=some m → Known db.toTables m ∧ m.orgUuid=org)
      (Membership.findByEmailAndOrg settings data.email org) db₀ db := by
    unfold Membership.findByEmailAndOrg
    refine holding_lookup steady_true trivial hG fun db₁ _ hstaffed => ?_
    split
    · rename_i u _
      refine Bears.query_done (Guarantee.refl hstaffed) fun db₂ hdb₂ => ⟨fun m hm => ?_,
        Guarantee.refl hdb₂.staffed⟩
      have hrow : m.userUuid=u.uuid ∧ m.orgUuid=org := by simpa using List.find?_some hm
      exact ⟨known_of_find hm,hrow.2⟩
    · exact ⟨fun m hm => absurd hm (by simp),Guarantee.refl hstaffed⟩
  unfold importMember
  refine hfind.bind fun found db₁ db ⟨hfound,hG⟩ => ?_
  cases found with
  | some m =>
    obtain ⟨hknown,horg⟩ := hfound m rfl
    dsimp only
    split
    · exact holding_revokeListed hknown horg hG
    · exact holding_restoreListed hknown hG
  | none =>
    dsimp only
    split
    · exact ⟨trivial,hG⟩
    · exact holding_inviteListed hG

/-- The removal of members that are not listed. -/
theorem holding_removeUnlisted {listed : List Text} (hG : Guarantee db₀ db) :
    Holding (fun _ _ => True) (removeUnlisted org listed) db₀ db := by
  unfold removeUnlisted
  refine holding_lookup steady_true trivial hG fun db₁ _ hstaffed => ?_
  have hrows : ∀ m∈db₁.members.filter (fun m => m.orgUuid=org),Known db₁.toTables m ∧ m.orgUuid=org := by
    intro m hm
    obtain ⟨hmem,horg⟩ := List.mem_filter.mp hm
    exact ⟨known_of_mem hmem,of_decide_eq_true horg⟩
  refine (holding_each (F:=fun left db => ∀ m∈left,Known db.toTables m ∧ m.orgUuid=org) ?_ hrows
    (Guarantee.refl hstaffed)).mono fun _ _ _ h => ⟨trivial,h.2⟩
  intro m left db₀ db h hG
  obtain ⟨hknown,horg⟩ := h m List.mem_cons_self
  have hleft : ∀ q∈left,Known db.toTables q ∧ q.orgUuid=org :=
    fun q hq => h q (List.mem_cons_of_mem m hq)
  have hsteady : Steady fun db => ∀ q∈left,Known db.toTables q ∧ q.orgUuid=org :=
    fun db db' hsame h q hq => ⟨steady_known q db db' hsame (h q hq).1,(h q hq).2⟩
  split
  · refine (holding_mayGo hsteady hleft hknown horg hG).bind fun may db₁ db ⟨⟨hleft,_,hgo⟩,hG⟩ => ?_
    split
    · rename_i hmay
      refine holding_deleteMember hsteady ?_ hleft (hgo hmay) hG
      intro db db' hsub _ h q hq
      exact ⟨fun k hk hx => (h q hq).1 k (hsub k hk) hx,(h q hq).2⟩
    · exact ⟨hleft,hG⟩
  · exact ⟨hleft,hG⟩

/-- `ldap_import`. -/
theorem holding_ldapImport {orgEmail : Text} {data : OrgImportData} (hG : Guarantee db₀ db) :
    Holding (fun _ _ => True) (ldapImport settings out org orgEmail data) db₀ db := by
  unfold ldapImport
  refine (holding_each (F:=fun _ _ => True) (fun _ _ _ _ _ hG => holding_importMember hG) trivial hG).bind
    fun _ db₁ db ⟨_,hG⟩ => ?_
  refine (holding_frames (Frames.each fun _ _ => frames_importGroup) steady_true trivial hG).bind
    fun _ db₂ db ⟨_,hG⟩ => ?_
  split
  · exact holding_removeUnlisted hG
  · exact ⟨trivial,hG⟩

end Handlers

/-- The operations that take owners away. -/
inductive Operation where
  /-- `leave_organization`. -/
  | leave (caller org : Uuid)
  /-- `edit_member`. -/
  | edit (caller org id : Uuid) (data : MemberData)
  /-- `delete_member`. -/
  | delete (caller org id : Uuid)
  /-- `bulk_delete_member`. -/
  | deleteAll (caller org : Uuid) (ids : List Uuid)
  /-- `revoke_member`. -/
  | revoke (caller org id : Uuid)
  /-- `bulk_revoke_members`. -/
  | revokeAll (caller org : Uuid) (ids : List Uuid)
  /-- `User::delete`, for the account of the caller. -/
  | deleteUser (caller : Uuid)
  /-- `ldap_import`. -/
  | directory (out : Outside) (org : Uuid) (orgEmail : Text) (data : OrgImportData)

/-- Their handlers. -/
def Operation.body (settings : Settings) : Operation → Action Unit
  | .leave caller org => leaveOrganization caller org
  | .edit caller org id data => editMember settings caller org id data
  | .delete caller org id => deleteMember caller org id
  | .deleteAll caller org ids => bulkDeleteMember caller org ids
  | .revoke caller org id => revokeMember caller org id
  | .revokeAll caller org ids => bulkRevokeMembers caller org ids
  | .deleteUser caller => do
    let user ← User.findByUuid caller
    let user ← expect "Device has no user associated" user
    User.delete settings user
  | .directory out org orgEmail data => ldapImport settings out org orgEmail data

/-- The server, with these operations. -/
def server (settings : Settings) :
    System (Statement Database) Statement.Answer Unit String Unit Database Operation :=
  ⟨exec,Operation.body settings⟩

section Runs

variable {settings : Settings} {db start : Database}

/-- Every operation keeps its side. -/
theorem holding_body (op : Operation) (h : Staffed db.toTables) :
    Holding (fun _ _ => True) (op.body settings) db db := by
  have hG := Guarantee.refl h
  cases op with
  | leave caller org => exact holding_leave hG
  | edit caller org id data => exact holding_editMember hG
  | delete caller org id =>
    exact (holding_adminHeaders hG).bind fun _ _ _ ⟨_,hG⟩ => holding_deleteImpl hG
  | deleteAll caller org ids =>
    exact (holding_adminHeaders hG).bind fun _ _ _ ⟨_,hG⟩ =>
      holding_eachOk (fun _ _ _ hG => holding_deleteImpl hG) hG
  | revoke caller org id =>
    exact (holding_adminHeaders hG).bind fun _ _ _ ⟨_,hG⟩ => holding_revokeImpl hG
  | revokeAll caller org ids =>
    exact (holding_adminHeaders hG).bind fun _ _ _ ⟨_,hG⟩ =>
      holding_eachOk (fun _ _ _ hG => holding_revokeImpl hG) hG
  | deleteUser caller =>
    unfold Operation.body
    refine holding_lookup steady_true trivial hG fun db₁ _ hstaffed => ?_
    exact Bears.expect (Guarantee.refl hstaffed) fun _ _ => holding_deleteUser (Guarantee.refl hstaffed)
  | directory out org orgEmail data => exact holding_ldapImport hG

/-- What a segment has done in any case. -/
theorem guarantee_of_ended {p : Action Unit} {db db' : Database}
    (h : Ended Guarantee (fun _ db₀ db => True ∧ Guarantee db₀ db) p db db') : Guarantee db db' := by
  cases p with
  | done a => exact h.2
  | fail e => exact h
  | call c k => exact h
  | await k => exact h

/-- Every run that does not change owners beside another operation keeps an
owner for each organisation. -/
theorem staffed_run {events : List (Event Operation Unit)} (hstart : Staffed start.toTables)
    (hrun : (server settings).Admits (Undisturbed (server settings) SameOwners) ⟨start,[]⟩ events) :
    Staffed ((server settings).run ⟨start,[]⟩ events).shared.toTables := by
  have hidle : Kept (server settings) (fun db => Staffed db.toTables) Rely (fun _ => Guarantee)
      (fun _ _ db₀ db => True ∧ Guarantee db₀ db) ⟨start,[]⟩ := Kept.idle hstart
  refine (Kept.run hidle ?_ ?_ ?_ ?_ ?_ hrun).shared
  · exact fun op db h => holding_body op h
  · exact fun db h => Rely.refl h
  · exact fun a b c hab hbc => hab.trans hbc
  · exact fun op p db db' _ h => (guarantee_of_ended h).staffed
  · intro op p db db' _ h hsame
    have hG := guarantee_of_ended h
    exact ⟨hG.organizations,hsame,hG.staffed⟩

/-- A question about policies changes nothing. -/
theorem leaves_applicable {user : Uuid} {atype : OrgPolicyType} {excluded : Option Uuid} :
    Leaves (fun _ db' => db=db') (fun _ => True) (OrgPolicy.isApplicableToUser user atype excluded) db := by
  have hreads : Frames exec (fun db : Database => db) (OrgPolicy.isApplicableToUser user atype excluded) :=
    Frames.bind (frames_lookup _) fun _ => Frames.findAny fun _ => frames_lookup _
  have hframe : Leaves (fun _ db' => True ∧ (fun db : Database => db) db'=db) (fun db' => db'=db)
      (OrgPolicy.isApplicableToUser user atype excluded) db := Ensures.frame (fun _ s h => h s) hreads db
  exact hframe.mono (fun _ _ h => h.2.symm) fun _ _ => trivial

/-- `create_organization` leaves an owner. -/
theorem staffed_create {caller : Uuid} {billingEmail key : Text} (hdb : Staffed db.toTables)
    (hok : (complete (createOrganization settings caller billingEmail key) db).1=.ok ()) :
    Staffed (complete (createOrganization settings caller billingEmail key) db).2.toTables := by
  have hleaves : Leaves (fun _ db' => Staffed db'.toTables) (fun _ => True)
      (createOrganization settings caller billingEmail key) db := by
    unfold createOrganization
    refine Leaves.query (Leaves.expect (fun user _ => Leaves.ensure (fun _ => ?_) trivial) trivial)
    refine Ensures.bind leaves_applicable fun single db₁ hsame => ?_
    subst hsame
    refine Leaves.ensure (fun _ => Leaves.draw (Leaves.draw (Leaves.draw ?_))) trivial
    have hstaffed : Staffed db.drawn.drawn.drawn.toTables :=
      staffed_of_staff (rfl : staff db.drawn.drawn.drawn=staff db) hdb
    have horg : Leaves (fun _ db' => db'.members=db.members ∧ ∀ o∈db'.organizations,
        o=⟨db.next⟩ ∨ o∈db.organizations) (fun _ => True)
        (Organization.save settings billingEmail ⟨db.next⟩) db.drawn.drawn.drawn := by
      unfold Organization.save
      split
      · refine Ensures.mono leaves_update (fun _ db' heq => ?_) fun _ _ => trivial
        rw [heq]
        refine ⟨rfl,fun o ho => ?_⟩
        exact (mem_put.mp ho).imp_right And.left
      · exact trivial
    refine Ensures.bind horg fun _ db₂ h₂ => ?_
    obtain ⟨hmembers,horgs⟩ := h₂
    refine Ensures.bind (Ensures.mono leaves_update (fun _ _ h => h) fun _ _ => trivial)
      fun _ db₃ heq₃ => ?_
    refine Ensures.mono leaves_update (fun _ db₄ heq₄ => ?_) fun _ _ => trivial
    have hnew : db₄.members=put ServerTables.Membership.uuid
        {ServerTables.Membership.new (db.next+1) user.uuid db.next none with
          akey := key
          accessAll := true
          atype := .owner
          status := Confirmed} db.members := by
      rw [heq₄,heq₃,← hmembers]
      rfl
    intro o ho
    rw [heq₄,heq₃] at ho
    rcases horgs o ho with rfl|hold
    · refine ⟨(db.next+1,user.uuid,db.next),mem_owners.mpr ⟨{ServerTables.Membership.new (db.next+1)
        user.uuid db.next none with
          akey := key
          accessAll := true
          atype := .owner
          status := Confirmed},?_,⟨rfl,rfl⟩,rfl⟩,rfl⟩
      rw [hnew]
      exact mem_put.mpr (.inl rfl)
    · obtain ⟨k,hk,hkorg⟩ := hdb o hold
      obtain ⟨q,hq,hrole,rfl⟩ := mem_owners.mp hk
      refine ⟨_,mem_owners.mpr ⟨q,?_,hrole,rfl⟩,hkorg⟩
      rw [hnew]
      exact mem_put.mpr (.inr ⟨hq,(Nat.lt_succ_of_lt (db.valid.2.2.2.2.1 q hq)).ne⟩)
  exact hleaves.result hok

/-- In every interleaving of these operations after organisations were
created, every organisation keeps a confirmed owner, as long as the confirmed
owners change only while no other operation is in flight. -/
theorem owners_kept {caller : Uuid} {billingEmail key : Text} (hdb : Staffed db.toTables)
    (hok : (complete (createOrganization settings caller billingEmail key) db).1=.ok ())
    {events : List (Event Operation Unit)}
    (hrun : (server settings).Admits (Undisturbed (server settings) SameOwners)
      ⟨(complete (createOrganization settings caller billingEmail key) db).2,[]⟩ events) :
    Staffed ((server settings).run
      ⟨(complete (createOrganization settings caller billingEmail key) db).2,[]⟩ events).shared.toTables :=
  staffed_run (staffed_create hdb hok) hrun

end Runs

section Samples

/-- Two registered accounts. -/
def accounts : Database := ConfirmedAccess.registered

/-- The first account creates an organisation, invites the second one as an
owner and confirms it. -/
def shared : Database :=
  let created := (complete (createOrganization openSettings 1 ['a'] []) accounts).2
  let invited := (complete (sendInvite openSettings online 1 3 [['b']] ⟨[],"0",[],[]⟩) created).2
  (complete (confirmInvite openSettings online 1 3 6 ['k']) invited).2

/-- Then it creates another one. -/
def launched : Database := (complete (createOrganization openSettings 1 ['a'] []) shared).2

/-- Both owners of the first organisation leave it. -/
def departures : List (Event Operation Unit) := [.start (.leave 1 3),.start (.leave 2 3)]

/-- One of them goes on by a number of statements. -/
def goesOn (n statements : ℕ) : List (Event Operation Unit) := List.replicate statements (.resume n ⟨[],()⟩)

/-- Both count the owners before one of them has left. -/
def overlapping : List (Event Operation Unit) :=
  departures++goesOn 0 3++goesOn 1 3++goesOn 0 4++goesOn 1 4

/-- One of them leaves before the other one asks. -/
def consecutive : List (Event Operation Unit) :=
  .start (.leave 1 3)::goesOn 0 7++.start (.leave 2 3)::goesOn 1 7

/-- The first organisation loses its last owner. -/
theorem owners_lost : Staffed shared.toTables ∧ Staffed launched.toTables ∧
    ¬Staffed ((server openSettings).run ⟨launched,[]⟩ overlapping).shared.toTables := by
  decide

/-- The second owner is refused. -/
theorem owners_kept_consecutive :
    Staffed ((server openSettings).run ⟨launched,[]⟩ consecutive).shared.toTables := by
  have hsequential : (server openSettings).Admits (Undisturbed (server openSettings) SameOwners)
      ⟨launched,[]⟩ consecutive := by
    refine undisturbed_of_sequential (n:=0) (fun _ _ => Iff.rfl) (fun m t ht => ?_) (by decide)
    simp at ht
  exact owners_kept (by decide) (by decide) hsequential

end Samples

end NadSafe.OwnerRuns
