import NadSafe.MemberWrites
import NadSafe.StepRuns
import NadSafe.TotpRuns

/-!
# Administrators and the roles above them

Requests of administrators that change members, one at a time. Nobody gets the
role of an administrator or an owner, and those who have it keep it. The
exception is an invitation that creates an account and then fails to reach
another one, which deletes the other account with all its roles.
-/

namespace NadSafe.AdminRanks

open HostText TableRows AsyncScript AsyncScript.Script ServerTables StoreScript ServerModels OrgHandlers
open PlannedScript TableWrites FactorRows CoreFrames MemberWrites StepRuns

/-- A request. -/
inductive Operation where
  /-- `send_invite`. -/
  | sendInvite (out : Outside) (emails : List Text) (data : MemberData)
  /-- `confirm_invite`. -/
  | confirmInvite (out : Outside) (id : Uuid) (key : Text)
  /-- `bulk_confirm_invite`. -/
  | confirmInvites (out : Outside) (keys : List (Uuid×Text))
  /-- `edit_member`. -/
  | editMember (id : Uuid) (data : MemberData)
  /-- `delete_member`. -/
  | deleteMember (id : Uuid)
  /-- `bulk_delete_member`. -/
  | deleteMembers (ids : List Uuid)
  /-- `revoke_member`. -/
  | revokeMember (id : Uuid)
  /-- `bulk_revoke_members`. -/
  | revokeMembers (ids : List Uuid)
  /-- `restore_member`. -/
  | restoreMember (id : Uuid)
  /-- `bulk_restore_members`. -/
  | restoreMembers (ids : List Uuid)

/-- A request with its caller and the organisation in its path. -/
structure Request where
  /-- The caller. -/
  caller : Uuid
  /-- The organisation. -/
  org : Uuid
  /-- What is asked for. -/
  op : Operation

/-- The handler of a request. -/
def Request.body (settings : Settings) (r : Request) : Action Unit :=
  match r.op with
  | .sendInvite out emails data => OrgHandlers.sendInvite settings out r.caller r.org emails data
  | .confirmInvite out id key => OrgHandlers.confirmInvite settings out r.caller r.org id key
  | .confirmInvites out keys => bulkConfirmInvite settings out r.caller r.org keys
  | .editMember id data => OrgHandlers.editMember settings r.caller r.org id data
  | .deleteMember id => OrgHandlers.deleteMember r.caller r.org id
  | .deleteMembers ids => bulkDeleteMember r.caller r.org ids
  | .revokeMember id => OrgHandlers.revokeMember r.caller r.org id
  | .revokeMembers ids => bulkRevokeMembers r.caller r.org ids
  | .restoreMember id => OrgHandlers.restoreMember settings r.caller r.org id
  | .restoreMembers ids => bulkRestoreMembers settings r.caller r.org ids

/-- The database after a request. -/
def step (settings : Settings) (db : Database) (r : Request) : Database := (complete (r.body settings) db).2

/-- The caller is not an owner of the organisation. -/
def NotOwner (db : Database) (r : Request) : Prop :=
  ∀ m∈db.members,m.userUuid=r.caller → m.orgUuid=r.org → m.atype≠.owner

/-- An administrator or an owner. -/
def Ranking (m : Membership) : Prop := m.atype=.admin ∨ m.atype=.owner

/-- Roles of administrators and owners are neither given nor taken. -/
structure KeepsRanks (db db' : Database) : Prop where
  /-- Whoever has such a role had it before. -/
  gained : ∀ m'∈db'.members,Ranking m' → ∃ m∈db.members,SameMember m m' ∧ m.atype=m'.atype
  /-- Owners keep their role and their status. -/
  owners : ∀ m∈db.members,m.atype=.owner → ∃ m'∈db'.members,SameMember m m' ∧ m'.atype=.owner ∧ m'.status=m.status
  /-- Administrators keep their role. -/
  admins : ∀ m∈db.members,m.atype=.admin → ∃ m'∈db'.members,SameMember m m' ∧ m'.atype=.admin

/-- Once an address has no account, the accounts of administrators and owners
have no later address whose mail is the first to fail. -/
def Spared (settings : Settings) (out : Outside) (created : Bool) (emails : List Text) (db : Database) : Prop :=
  settings.mailEnabled=true → ∀ earlier email later,emails=earlier++email::later →
    (created=true ∨ ∃ e∈earlier,∀ u∈db.users,u.email≠settings.toLowercase e) →
    (∀ e∈earlier,out.delivers (settings.toLowercase e)=true) → out.delivers (settings.toLowercase email)=false →
    ∀ m∈db.members,Ranking m → ∀ u∈db.users,u.uuid=m.userUuid → u.email≠settings.toLowercase email

/-- An invitation that is not refused spares administrators and owners. -/
def Fair (settings : Settings) (db : Database) (r : Request) : Prop :=
  match r.op with
  | .sendInvite out emails data => (∃ h,Administers db r.caller r.org h) →
    MembershipType.fromStr data.type=some .user → Spared settings out false emails db
  | _ => True

section Ranks

variable {db db₁ db' : Database} {m m' : Membership}

theorem admin_le_iff : MembershipType.admin≤ m.atype ↔ Ranking m := by
  unfold Ranking
  cases m.atype <;> decide

theorem keepsRanks_refl (db : Database) : KeepsRanks db db :=
  ⟨fun m hm _ => ⟨m,hm,⟨rfl,rfl,rfl⟩,rfl⟩,fun m hm ho => ⟨m,hm,⟨rfl,rfl,rfl⟩,ho,rfl⟩,
    fun m hm ha => ⟨m,hm,⟨rfl,rfl,rfl⟩,ha⟩⟩

theorem KeepsRanks.trans (h : KeepsRanks db db₁) (h' : KeepsRanks db₁ db') : KeepsRanks db db' := by
  refine ⟨fun m' hm' hrank => ?_,fun m hm ho => ?_,fun m hm ha => ?_⟩
  · obtain ⟨m₁,hm₁,hsame₁,htype₁⟩ := h'.gained m' hm' hrank
    have hrank₁ : Ranking m₁ := by
      unfold Ranking at hrank ⊢
      rwa [htype₁]
    obtain ⟨m,hm,hsame,htype⟩ := h.gained m₁ hm₁ hrank₁
    exact ⟨m,hm,hsame.trans hsame₁,htype.trans htype₁⟩
  · obtain ⟨m₁,hm₁,hsame₁,ho₁,hstatus₁⟩ := h.owners m hm ho
    obtain ⟨m',hm',hsame',ho',hstatus'⟩ := h'.owners m₁ hm₁ ho₁
    exact ⟨m',hm',hsame₁.trans hsame',ho',hstatus'.trans hstatus₁⟩
  · obtain ⟨m₁,hm₁,hsame₁,ha₁⟩ := h.admins m hm ha
    obtain ⟨m',hm',hsame',ha'⟩ := h'.admins m₁ hm₁ ha₁
    exact ⟨m',hm',hsame₁.trans hsame',ha'⟩

/-- A row that may be saved: with the role it had, or without a rank before
and after, and with the status it had if it is an owner's. -/
def SameRank (m m' : Membership) : Prop :=
  (m'.atype=m.atype ∨ ¬Ranking m ∧ ¬Ranking m') ∧ (m.atype=.owner → m'.status=m.status)

/-- A save of such a row. -/
theorem keepsRanks_saves {new : Membership → Membership → Prop} (h : Saves new db db')
    (hnew : ∀ m m',new m m' → SameRank m m') : KeepsRanks db db' := by
  rcases h.members with hsame|⟨m,hm,m',hrow,hsaved,-,hmembers⟩
  · have hrefl := keepsRanks_refl db
    refine ⟨fun q hq => hrefl.gained q (hsame ▸ hq),?_,?_⟩
    · rw [hsame]
      exact hrefl.owners
    · rw [hsame]
      exact hrefl.admins
  obtain ⟨htype,hstatus⟩ := hnew m m' hsaved
  have hother : ∀ q∈db.members,q≠m → q∈db'.members := by
    intro q hq hne
    rw [hmembers]
    refine mem_put.mpr (.inr ⟨hq,fun he => hne ?_⟩)
    exact eq_of_key db.member_nodup hq hm (he.trans hrow.uuid)
  have hsaved' : m'∈db'.members := by
    rw [hmembers]
    exact mem_put.mpr (.inl rfl)
  have hkept : Ranking m → m'.atype=m.atype := fun hrank => htype.resolve_right fun hnone => hnone.1 hrank
  refine ⟨fun q hq hrank => ?_,fun q hq ho => ?_,fun q hq ha => ?_⟩
  · rw [hmembers] at hq
    rcases mem_put.mp hq with rfl|⟨hq,-⟩
    · exact ⟨m,hm,hrow,(htype.resolve_right fun hnone => hnone.2 hrank).symm⟩
    · exact ⟨q,hq,⟨rfl,rfl,rfl⟩,rfl⟩
  · by_cases hqm : q=m
    · subst hqm
      exact ⟨m',hsaved',hrow,(hkept (.inr ho)).trans ho,hstatus ho⟩
    · exact ⟨q,hother q hq hqm,⟨rfl,rfl,rfl⟩,ho,rfl⟩
  · by_cases hqm : q=m
    · subst hqm
      exact ⟨m',hsaved',hrow,(hkept (.inl ha)).trans ha⟩
    · exact ⟨q,hother q hq hqm,⟨rfl,rfl,rfl⟩,ha⟩

/-- A removal of others. -/
theorem keepsRanks_removes {gone : Membership → Prop} (h : Removes gone db db')
    (hgone : ∀ q∈db.members,gone q → ¬Ranking q) : KeepsRanks db db' := by
  have hkept : ∀ q∈db.members,Ranking q → q∈db'.members := fun q hq hrank =>
    h.kept q hq fun hg => hgone q hq hg hrank
  exact ⟨fun q hq _ => ⟨q,h.old q hq,⟨rfl,rfl,rfl⟩,rfl⟩,
    fun q hq ho => ⟨q,hkept q hq (.inr ho),⟨rfl,rfl,rfl⟩,ho,rfl⟩,
    fun q hq ha => ⟨q,hkept q hq (.inl ha),⟨rfl,rfl,rfl⟩,ha⟩⟩

/-- A new plain member. -/
theorem keepsRanks_joined {settings : Settings} {org : Uuid} {email : Text} {created created' : Bool} {user : User}
    (h : Joined settings org .user email created db db' user m created') : KeepsRanks db db' := by
  have hkept : ∀ q∈db.members,q∈db'.members := fun q hq => (h.members q).mpr (.inl hq)
  refine ⟨fun q hq hrank => ?_,fun q hq ho => ⟨q,hkept q hq,⟨rfl,rfl,rfl⟩,ho,rfl⟩,
    fun q hq ha => ⟨q,hkept q hq,⟨rfl,rfl,rfl⟩,ha⟩⟩
  rcases (h.members q).mp hq with hq|rfl
  · exact ⟨q,hq,⟨rfl,rfl,rfl⟩,rfl⟩
  · rcases hrank with ha|ho
    · exact absurd (h.row.2.2.symm.trans ha) (by decide)
    · exact absurd (h.row.2.2.symm.trans ho) (by decide)

end Ranks

section Invitations

variable {settings : Settings} {out : Outside} {org : Uuid} {created created' : Bool} {email : Text}
  {emails : List Text} {db db' : Database} {user : User} {m : Membership}

/-- After one delivered mail, the others are spared. -/
theorem Spared.next (h : Spared settings out created (email::emails) db)
    (hjoined : Joined settings org .user email created db db' user m created')
    (hsent : settings.mailEnabled=true → out.delivers user.email=true) :
    Spared settings out created' emails db' := by
  intro hmail earlier email' later hemails hcreated hearlier hfails q hq hrank u hu huser
  have hq' : q∈db.members := by
    rcases (hjoined.members q).mp hq with hq|rfl
    · exact hq
    · rcases hrank with ha|ho
      · exact absurd (hjoined.row.2.2.symm.trans ha) (by decide)
      · exact absurd (hjoined.row.2.2.symm.trans ho) (by decide)
  -- The account of an old membership is an old one.
  obtain ⟨v,hv,hvuser⟩ := user_of_member hq'
  have hsame : u=v := eq_of_key db'.user_nodup hu (hjoined.users v hv) (huser.trans hvuser.symm)
  subst hsame
  have hfirst : created=true ∨ ∃ e∈email::earlier,∀ u∈db.users,u.email≠settings.toLowercase e := by
    rcases hcreated with hcreated|⟨e,he,hnone⟩
    · rcases hjoined.origin with ⟨-,hcreated',-⟩|⟨-,-,hnone,-⟩
      · exact .inl (hcreated'.symm.trans hcreated)
      · exact .inr ⟨email,List.mem_cons_self,hnone⟩
    · exact .inr ⟨e,List.mem_cons_of_mem email he,fun w hw => hnone w (hjoined.users w hw)⟩
  have hdelivered : ∀ e∈email::earlier,out.delivers (settings.toLowercase e)=true := by
    intro e he
    rcases List.mem_cons.mp he with rfl|he
    · rw [← hjoined.account.2]
      exact hsent hmail
    · exact hearlier e he
  refine h hmail (email::earlier) email' later ?_ hfirst hdelivered hfails q hq' hrank u hv huser
  rw [hemails]
  rfl

/-- A failed invitation removes nobody with a rank. -/
theorem keepsRanks_dropped (h : Spared settings out created (email::emails) db)
    (hdropped : Dropped settings out org .user email created db db') : KeepsRanks db db' := by
  rcases hdropped with hquiet|⟨db₁,user,m,created',hjoined,hremoved⟩
  · exact keepsRanks_removes hquiet fun _ _ hnone => hnone.elim
  refine (keepsRanks_joined hjoined).trans (keepsRanks_removes hremoved fun q hq hgone hrank => ?_)
  have hplain : q≠m := by
    rintro rfl
    rcases hrank with ha|ho
    · exact absurd (hjoined.row.2.2.symm.trans ha) (by decide)
    · exact absurd (hjoined.row.2.2.symm.trans ho) (by decide)
  have hq' : q∈db.members := ((hjoined.members q).mp hq).resolve_right hplain
  rcases hgone with he|⟨hcreated,hmail,hfails,huser⟩
  · exact hjoined.fresh q hq' he
  · rcases hjoined.origin with ⟨hu,hcreated',-⟩|⟨-,-,-,hnobody⟩
    · have hfailed : out.delivers (settings.toLowercase email)=false := by
        rw [← hjoined.account.2]
        exact hfails
      exact h hmail [] email emails rfl (.inl (hcreated'.symm.trans hcreated)) (fun _ he => by cases he) hfailed q hq'
        hrank user hu huser.symm hjoined.account.2
    · exact hnobody q hq' huser

/-- By induction on the addresses. -/
theorem ends_inviteAll {inviter : Text} {accessAll : Bool} {data : MemberData}
    (h : Spared settings out created emails db) :
    Ends (inviteAll settings out org inviter .user accessAll data created emails) db fun _ db' => KeepsRanks db db' := by
  induction emails generalizing created db with
  | nil => exact keepsRanks_refl db
  | cons email emails ih =>
    refine ends_inviteNext (fun db₁ user m created' hjoined hsent => ?_) fun e db' hdropped =>
      keepsRanks_dropped h hdropped
    exact (ih (h.next hjoined hsent)).mono fun _ db' h' => (keepsRanks_joined hjoined).trans h'

end Invitations

section Runs

variable {settings : Settings} {out : Outside} {caller org id : Uuid} {db : Database} {h : OrgHeaders}

/-- `confirm_invite_impl` confirms plain members. -/
theorem ranks_confirm {key : Text} (hcaller : h.membership.atype≠.owner) :
    Ends (confirmInviteImpl settings out h org id key) db fun _ db' => KeepsRanks db db' := by
  refine ends_confirm.mono fun _ db' hsaves => keepsRanks_saves hsaves ?_
  rintro m m' ⟨hrole,-,rfl⟩
  refine ⟨.inl rfl,fun ho => ?_⟩
  have hplain : m.atype=.user := not_not.mp fun hne => hrole ⟨hne,hcaller⟩
  exact absurd (hplain.symm.trans ho) (by decide)

theorem ranks_restore (hcaller : h.membership.atype≠.owner) :
    Ends (restoreMemberImpl settings h org id) db fun _ db' => KeepsRanks db db' := by
  refine ends_restore.mono fun _ db' hsaves => keepsRanks_saves hsaves ?_
  rintro m m' ⟨-,howner,rfl⟩
  exact ⟨.inl (atype_restore m),fun ho => absurd ⟨ho,hcaller⟩ howner⟩

theorem ranks_revoke (hcaller : h.membership.atype≠.owner) :
    Ends (revokeMemberImpl h org id) db fun _ db' => KeepsRanks db db' := by
  refine ends_revoke.mono fun _ db' hsaves => keepsRanks_saves hsaves ?_
  rintro m m' ⟨howner,rfl⟩
  exact ⟨.inl (atype_revoke m),fun ho => absurd ⟨ho,hcaller⟩ howner⟩

/-- `delete_member_impl` deletes plain members. -/
theorem ranks_delete (hcaller : h.membership.atype≠.owner) :
    Ends (deleteMemberImpl h org id) db fun _ db' => KeepsRanks db db' := by
  refine ends_delete.mono fun _ db' hdone => ?_
  rcases hdone with hsame|⟨m,hm,hrole,hremoved⟩
  · have hquiet : Removes (fun _ => False) db db' := hsame.removes
    exact keepsRanks_removes hquiet fun _ _ hnone => hnone.elim
  · refine keepsRanks_removes hremoved fun q hq he hrank => ?_
    have hqm : q=m := eq_of_key db.member_nodup hq hm he
    subst hqm
    have hplain : q.atype=.user := not_not.mp fun hne => hrole ⟨hne,hcaller⟩
    rcases hrank with ha|ho
    · exact absurd (hplain.symm.trans ha) (by decide)
    · exact absurd (hplain.symm.trans ho) (by decide)

/-- `edit_member` moves plain members and managers only. -/
theorem ranks_edit {data : MemberData} (hcaller : ∀ h,Administers db caller org h → h.membership.atype≠.owner) :
    Ends (editMember settings caller org id data) db fun _ db' => KeepsRanks db db' := by
  refine ends_edit.mono fun _ db' hdone => ?_
  rcases hdone with rfl|⟨h,hh,hsaves⟩
  · exact keepsRanks_refl _
  refine keepsRanks_saves hsaves ?_
  rintro m m' ⟨hgrants,howner,hstatus⟩
  refine ⟨?_,fun _ => hstatus⟩
  by_cases htype : m'.atype=m.atype
  · exact .inl htype
  · refine .inr ⟨fun hrank => ?_,fun hrank => ?_⟩
    · exact hgrants ⟨htype,.inl (admin_le_iff.mpr hrank),hcaller h hh⟩
    · exact hgrants ⟨htype,.inr (admin_le_iff.mpr hrank),hcaller h hh⟩

/-- A loop that drops errors. -/
theorem ranks_each {β : Type} {xs : List β} {body : β → Action Unit}
    (hbody : ∀ x db,Ends (body x) db fun _ db' => KeepsRanks db db') :
    Ends (each xs fun x => ok (body x)) db fun _ db' => KeepsRanks db db' :=
  Ends.each_ok (keepsRanks_refl db) fun x _ db₁ h₁ => (hbody x db₁).mono fun _ _ h₂ => h₁.trans h₂

/-- A guarded handler whose caller is not an owner. -/
theorem ranks_guarded {g : OrgHeaders → Action Unit}
    (hcaller : ∀ h,Administers db caller org h → h.membership.atype≠.owner)
    (hg : ∀ h,h.membership.atype≠.owner → Ends (g h) db fun _ db' => KeepsRanks db db') :
    Ends ((adminHeaders caller org).bind g) db fun _ db' => KeepsRanks db db' :=
  ends_adminHeaders (fun h hh => hg h (hcaller h hh)) fun _ => keepsRanks_refl db

/-- Every request keeps the ranks. -/
theorem ranks_step {r : Request} (hnot : NotOwner db r) (hfair : Fair settings db r) :
    KeepsRanks db (step settings db r) := by
  have hcaller : ∀ h,Administers db r.caller r.org h → h.membership.atype≠.owner := fun h hh =>
    hnot h.membership hh.row.1 hh.row.2.1 hh.row.2.2
  obtain ⟨caller,org,op⟩ := r
  cases op with
  | sendInvite out emails data =>
    show Ends (OrgHandlers.sendInvite settings out caller org emails data) db fun _ db' => KeepsRanks db db'
    refine ends_adminHeaders (fun h hh => ?_) fun _ => keepsRanks_refl db
    refine ends_read frames_validate (fun _ => ?_) fun _ => keepsRanks_refl db
    refine Ends.expect (fun newType htype => ?_) fun _ => keepsRanks_refl db
    refine Ends.ensure (fun hrole => ?_) fun _ => keepsRanks_refl db
    have hplain : newType=.user := not_not.mp fun hne => of_decide_eq_true hrole ⟨hne,hcaller h hh⟩
    subst hplain
    exact ends_inviteAll (hfair ⟨h,hh⟩ htype)
  | confirmInvite out id key => exact ranks_guarded hcaller fun h hh => ranks_confirm hh
  | confirmInvites out keys =>
    refine ranks_guarded hcaller fun h hh => ?_
    show Ends (each keys fun x => ok (confirmInviteImpl settings out h org x.1 x.2)) db fun _ db' => KeepsRanks db db'
    exact ranks_each fun _ _ => ranks_confirm hh
  | editMember id data => exact ranks_edit hcaller
  | deleteMember id => exact ranks_guarded hcaller fun h hh => ranks_delete hh
  | deleteMembers ids => exact ranks_guarded hcaller fun h hh => ranks_each fun _ _ => ranks_delete hh
  | revokeMember id => exact ranks_guarded hcaller fun h hh => ranks_revoke hh
  | revokeMembers ids => exact ranks_guarded hcaller fun h hh => ranks_each fun _ _ => ranks_revoke hh
  | restoreMember id => exact ranks_guarded hcaller fun h hh => ranks_restore hh
  | restoreMembers ids => exact ranks_guarded hcaller fun h hh => ranks_each fun _ _ => ranks_restore hh

/-- Sequences of requests of administrators who are not owners, as long as
invitations spare the accounts of administrators and owners. -/
theorem ranks_kept {start : Database} {requests : List Request}
    (hcallers : Admits (step settings) NotOwner start requests)
    (hfair : Admits (step settings) (Fair settings) start requests) :
    KeepsRanks start (run (step settings) start requests) := by
  refine run_invariant (I:=KeepsRanks start) (fun db r h hr => h.trans (ranks_step hr.1 hr.2)) (keepsRanks_refl start)
    (hcallers.and hfair)

end Runs

section Samples

/-- Settings with mail. -/
def mailing : Settings := {GroupIsolation.openSettings with mailEnabled := true}

/-- Mails to one address fail. -/
def unreachable (address : Text) : Outside := ⟨fun email => decide (email≠address),[]⟩

/-- A confirmed member. -/
def confirmed (uuid user org : Uuid) (role : MembershipType) : Membership :=
  {Membership.new uuid user org none with atype := role, status := Confirmed}

/-- The first account administers the first organisation, the second account
the second one; the third account owns both. -/
def twoOffices : Database := ⟨{Tables.none with
  users := [User.new 1 0 [] 600000 ['a'] none,User.new 2 0 [] 600000 ['b'] none,User.new 3 0 [] 600000 ['c'] none]
  organizations := [⟨4⟩,⟨5⟩]
  members := [confirmed 6 1 4 .admin,confirmed 7 2 5 .admin,confirmed 8 3 4 .owner,confirmed 9 3 5 .owner]
  next := 10},by decide⟩

/-- An invitation of plain members by the first account. -/
def invites (out : Outside) (emails : List Text) : Request := ⟨1,4,.sendInvite out emails ⟨[],"User",[],[]⟩⟩

/-- The mail to the administrator of the second organisation fails after an
account was created, and his membership is gone. -/
theorem administrator_deleted :
    NotOwner twoOffices (invites (unreachable ['b']) [['d'],['b']]) ∧
      ¬KeepsRanks twoOffices (run (step mailing) twoOffices [invites (unreachable ['b']) [['d'],['b']]]) := by
  refine ⟨by unfold NotOwner; decide,fun h => ?_⟩
  obtain ⟨m',hm',hsame,-⟩ := h.admins (confirmed 7 2 5 .admin) (by decide) rfl
  have hgone : ∀ m∈(run (step mailing) twoOffices [invites (unreachable ['b']) [['d'],['b']]]).members,m.uuid≠7 := by
    decide
  exact hgone m' hm' hsame.uuid

/-- An invitation that goes out, and an attempt to make the owner a plain
member. -/
theorem ranks_kept_invited : KeepsRanks twoOffices (run (step mailing) twoOffices
    [invites (unreachable ['b']) [['d']],⟨1,4,.editMember 8 ⟨[],"User",[],[]⟩⟩]) := by
  refine ranks_kept ⟨?_,?_,trivial⟩ ⟨fun _ _ _ earlier email later hemails hcreated => ?_,trivial,trivial⟩
  · unfold NotOwner
    decide
  · unfold NotOwner
    decide
  · have hearlier : earlier=[] := by
      cases earlier with
      | nil => rfl
      | cons e earlier => simp at hemails
    subst hearlier
    simp at hcreated

end Samples

end NadSafe.AdminRanks
