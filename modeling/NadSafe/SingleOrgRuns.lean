import NadSafe.AdminRanks
import NadSafe.MemberRequests

/-!
# The policy on other organisations

Requests on members and policies, one at a time. A member whose organisation
forbids other ones is active there only. The exceptions are the ways into an
organisation that ask no policy: invitations without mail, imports, and
invitations and restores of owners and administrators.
-/

namespace NadSafe.SingleOrgRuns

open HostText TableRows AsyncScript AsyncScript.Script ServerTables AccessQueries StoreScript ServerModels
open OrgHandlers DirectoryImport SecondFactors PolicyHandlers PlannedScript TableWrites FactorRows
open CoreFrames MemberWrites ImportWrites MemberRequests StepRuns

/-- The database after a request. -/
def step (settings : PolicySettings) (db : Database) (op : Operation) : Database :=
  (complete (op.body settings) db).2

/-- Members to whom the policy of their organisation applies have no other one. -/
def Single (db : Database) : Prop :=
  ∀ m∈db.members,Subject db .singleOrg m → Alone m.orgUuid db m.userUuid

/-- The policy of another organisation applies to the account. -/
def Bound (db : Database) (user org : Uuid) : Prop :=
  ∃ q∈db.members,q.userUuid=user ∧ q.orgUuid≠org ∧ Subject db .singleOrg q

/-- The caller may restore the member. -/
def MayRestore (db : Database) (caller org : Uuid) (m : Membership) : Prop :=
  ∃ h,Administers db caller org h ∧ ¬(m.atype=.owner ∧ h.membership.atype≠.owner)

/-- Owners and administrators who are restored are bound nowhere else. -/
def FairRestore (db : Database) (caller org id : Uuid) : Prop :=
  ∀ m∈db.members,m.uuid=id → m.orgUuid=org → MembershipType.admin≤ m.atype → Wakes m → MayRestore db caller org m →
    ¬Bound db m.userUuid org

/-- Nobody becomes active past the checks of the policies while another
organisation binds him, or while the organisation itself would bind him and he
has another one. -/
def Fair (settings : PolicySettings) (db : Database) : Operation → Prop
  | .sendInvite _ caller org emails _ => (∃ h,Administers db caller org h) → settings.mailEnabled=false →
    ∀ email∈emails,∀ u∈db.users,u.email=settings.toLowercase email → u.passwordHash≠[] →
      (∀ q∈db.members,q.userUuid=u.uuid → q.orgUuid≠org) → ¬Bound db u.uuid org
  | .acceptInvite _ caller org id claims key => Claimed db caller org id claims key → ∀ m∈db.members,id=some m.uuid →
    m.orgUuid=org → m.status=Invited → MembershipType.admin≤ m.atype → ¬Bound db m.userUuid org
  | .restoreMember caller org id => FairRestore db caller org id
  | .restoreMembers caller org ids => ∀ id∈ids,FairRestore db caller org id
  | .ldapImport _ org _ data =>
    (∀ m∈db.members,m.orgUuid=org → ∀ u∈db.users,u.uuid=m.userUuid → listed settings.toSettings data u.email →
      Wakes m → ¬Bound db m.userUuid org ∧ (Subject db .singleOrg m.restore → Alone org db m.userUuid)) ∧
    (settings.mailEnabled=false → ∀ u∈db.users,listed settings.toSettings data u.email → u.passwordHash≠[] →
      (∀ q∈db.members,q.userUuid=u.uuid → q.orgUuid≠org) → ¬Bound db u.uuid org)
  | _ => True

/-- The policy holds, with statuses in their range. -/
structure Exclusive (db : Database) : Prop where
  /-- Statuses. -/
  ranged : Ranged db
  /-- The policy. -/
  single : Single db

section Rows

variable {settings : Settings} {caller org user id : Uuid} {db db₁ db' : Database} {m q : Membership}

/-- Whoever is active is bound nowhere else. -/
theorem Exclusive.free (h : Exclusive db) (hq : q∈db.members) (hactive : Active q) : ¬Bound db q.userUuid q.orgUuid := by
  rintro ⟨m,hm,huser,horg,hsubject⟩
  exact h.single m hm hsubject q hq huser.symm (Ne.symm horg) hactive

/-- A save of one row. -/
theorem exclusive_saves {new : Membership → Membership → Prop} (h : Exclusive db) (hs : Saves new db db')
    (hnew : ∀ m∈db.members,∀ m',SameMember m m' → new m m' → InRange m' ∧
      (Active m' → MembershipType.admin≤ m'.atype → Active m ∨ ¬Bound db m.userUuid m.orgUuid)) : Exclusive db' := by
  rcases hs.members with hsame|⟨m,hm,m',hrow,hsaved,hallowed,hmembers⟩
  · refine ⟨fun q hq => h.ranged q (hsame ▸ hq),fun m₁ hm₁ hsubject q hq => ?_⟩
    rw [hsame] at hm₁ hq
    exact h.single m₁ hm₁ (hsubject.back hs.policies) q hq
  obtain ⟨hranged,hadmin⟩ := hnew m hm m' hrow hsaved
  have hidle : m'=m.revoke → ¬Active m' := fun he => he ▸ not_active_revoked (h.ranged m hm).2
  refine ⟨fun q hq => ?_,fun m₁ hm₁ hsubject q hq huser horg hactive => ?_⟩
  · rw [hmembers] at hq
    rcases mem_put.mp hq with rfl|⟨hq,-⟩
    · exact hranged
    · exact h.ranged q hq
  have hsubject' := hsubject.back hs.policies
  rw [hmembers] at hm₁ hq
  rcases mem_put.mp hm₁ with rfl|⟨hold,-⟩
  · rcases mem_put.mp hq with rfl|⟨hq,-⟩
    · exact horg rfl
    -- The saved row comes under the policy.
    · have hconfirmed : Invited< m₁.status := by
        rw [hsubject.confirmed]
        decide
      have hchecked := (hallowed.resolve_right fun he => hidle he (.inr hsubject.confirmed)) hsubject.role hconfirmed
      exact hchecked.single hsubject'.policy q hq huser horg hactive
  · rcases mem_put.mp hq with rfl|⟨hq,-⟩
    -- The saved row is in another organisation.
    · by_cases hrole : MembershipType.admin≤q.atype
      · rcases hadmin hactive hrole with hbefore|hfree
        · exact h.single m₁ hold hsubject' m hm (hrow.user.symm.trans huser) (fun he => horg (hrow.org.trans he)) hbefore
        · exact hfree ⟨m₁,hold,huser.symm.trans hrow.user,fun he => horg (hrow.org.trans he.symm),hsubject'⟩
      · have hstatus : Invited<q.status := by
          rcases hactive with hs|hs
          · rw [hs]
            decide
          · rw [hs]
            decide
        have hchecked := (hallowed.resolve_right fun he => hidle he hactive) hrole hstatus
        exact hchecked.elsewhere m₁ hold huser.symm (Ne.symm horg) hsubject'
    · exact h.single m₁ hold hsubject' q hq huser horg hactive

/-- A new owner. -/
theorem exclusive_founds (h : Exclusive db) (hf : Founds caller db db') : Exclusive db' := by
  rcases hf.members with hsame|⟨m,huser,hrole,hstatus,hfresh,hfree,hmembers⟩
  · refine ⟨fun q hq => h.ranged q (hsame ▸ hq),fun m₁ hm₁ hsubject q hq => ?_⟩
    rw [hsame] at hm₁ hq
    exact h.single m₁ hm₁ (hsubject.back hf.policies) q hq
  refine ⟨fun q hq => ?_,fun m₁ hm₁ hsubject q hq hquser horg hactive => ?_⟩
  · rw [hmembers] at hq
    rcases mem_put.mp hq with rfl|⟨hq,-⟩
    · exact inRange_of_status hstatus (by decide)
    · exact h.ranged q hq
  rw [hmembers] at hm₁ hq
  rcases mem_put.mp hm₁ with rfl|⟨hold,-⟩
  · refine hsubject.role ?_
    rw [hrole]
    decide
  · rcases mem_put.mp hq with rfl|⟨hq,-⟩
    · exact hfree m₁ hold (hquser.symm.trans huser) (hsubject.back hf.policies)
    · exact h.single m₁ hold (hsubject.back hf.policies) q hq hquser horg hactive

/-- What the import and the invitations would have to check. -/
def Fit (org : Uuid) (db : Database) (m : Membership) : Prop :=
  Active m.restore → ¬Bound db m.userUuid org ∧ (Subject db .singleOrg m.restore → Alone org db m.userUuid)

theorem fit_steady (org : Uuid) (db : Database) : Steady (Fit org db) := by
  intro m m' hsame htype hstatus hfit hactive
  have hactive' : Active m.restore := by
    unfold Active at hactive ⊢
    rwa [← hstatus]
  obtain ⟨hfree,halone⟩ := hfit hactive'
  rw [hsame.user]
  exact ⟨hfree,fun hsubject => halone (subject_restore hsame htype hstatus hsubject)⟩

theorem fit_invited (hm : m.status=Invited) : Fit org db m := by
  intro hactive
  unfold Active at hactive
  rw [status_restore,hm] at hactive
  exact absurd hactive (by decide)

/-- An accepted member need not be alone yet. -/
theorem fit_accepted (hm : m.status=Accepted) (hfree : ¬Bound db m.userUuid org) : Fit org db m := by
  refine fun _ => ⟨hfree,fun hsubject => ?_⟩
  have hconfirmed := hsubject.confirmed
  rw [status_restore,hm] at hconfirmed
  exact absurd hconfirmed (by decide)

/-- Rows that meet it. -/
theorem exclusive_imported (h : Exclusive db) (hi : Imported (Fit org db) org db db') : Exclusive db' := by
  refine ⟨hi.ranged,fun m hm hsubject q hq huser hother hactive => ?_⟩
  have hsubject' := hsubject.back hi.policies
  rcases hi.rows m hm with hold|⟨horg,hleft⟩
  · rcases hi.rows q hq with hq|⟨horg,hleft⟩
    · exact h.single m hold hsubject' q hq huser hother hactive
    -- The other row is one of the organisation of the import.
    · rcases hleft with hidle|hfit|⟨q₀,hq₀,hrow,-,hstatus⟩
      · exact hidle hactive
      · rw [restore_active hactive |>.symm] at hactive
        exact (hfit hactive).1 ⟨m,hold,huser.symm,fun he => hother (horg.trans he.symm),hsubject'⟩
      · have hactive₀ : Active q₀ := by
          unfold Active at hactive ⊢
          rwa [← hstatus]
        refine h.single m hold hsubject' q₀ hq₀ (hrow.user.symm.trans huser) (fun he => hother ?_) hactive₀
        exact hrow.org.trans he
  · have hq' : q∈db.members := (hi.rows q hq).resolve_right fun hnew => hother (hnew.1.trans horg.symm)
    have hconfirmed : Active m := .inr hsubject.confirmed
    have hrestored := restore_active hconfirmed
    rcases hleft with hidle|hfit|⟨m₀,hm₀,hrow,htype,hstatus⟩
    · exact hidle hconfirmed
    · have hboth := hfit (by rwa [hrestored])
      rw [hrestored] at hboth
      exact hboth.2 hsubject' q hq' huser (fun he => hother (he.trans horg.symm)) hactive
    · have hsubject₀ : Subject db .singleOrg m₀ := by
        refine ⟨?_,hstatus.symm.trans hsubject.confirmed,htype ▸ hsubject.role⟩
        rw [← hrow.org]
        exact hsubject'.policy
      refine h.single m₀ hm₀ hsubject₀ q hq' (huser.trans hrow.user) (fun he => hother ?_) hactive
      exact he.trans hrow.org.symm

theorem exclusive_revokes (h : Exclusive db) (hr : Revokes org db db') : Exclusive db' := by
  have hold : ∀ q∈db'.members,Active q → q∈db.members := by
    intro q hq hactive
    rcases hr.rows q hq with hq|⟨m,hm,-,rfl⟩
    · exact hq
    · exact absurd hactive (not_active_revoked (h.ranged m hm).2)
  refine ⟨fun q hq => ?_,fun m hm hsubject q hq huser horg hactive => ?_⟩
  · rcases hr.rows q hq with hq|⟨m,hm,-,rfl⟩
    · exact h.ranged q hq
    · exact inRange_revoke (h.ranged m hm)
  · exact h.single m (hold m hm (.inr hsubject.confirmed)) (hsubject.back hr.policies) q (hold q hq hactive) huser horg
      hactive

/-- A switched policy. -/
theorem exclusive_switches {enabled : Bool} (h : Exclusive db) (hs : Switches org enabled db db') : Exclusive db' := by
  rcases hs with hr|⟨db₁,atype,hr,hcomplies,heq⟩
  · exact exclusive_revokes h hr
  have h₁ := exclusive_revokes h hr
  have hmembers : db'.members=db₁.members := by rw [heq]
  have hpolicies : db'.policies=OrgPolicy.saved org atype enabled db₁.policies := by rw [heq]
  refine ⟨fun q hq => h₁.ranged q (hmembers ▸ hq),fun m hm hsubject q hq huser horg => ?_⟩
  rw [hmembers] at hm hq
  rcases active_saved hpolicies hsubject.policy with hold|⟨henabled,hmorg,htype⟩
  · exact h₁.single m hm ⟨hold,hsubject.confirmed,hsubject.role⟩ q hq huser horg
  · have halone := hcomplies.single htype.symm henabled m hm hmorg hsubject.confirmed hsubject.role
    rw [hmorg] at horg
    exact halone q hq huser horg

/-- Rows of other organisations and revoked ones are those from the start. -/
structure Kept (org : Uuid) (db db' : Database) : Prop where
  /-- Memberships. -/
  rows : ∀ q∈db'.members,q∈db.members ∨ q.orgUuid=org ∧ Invited≤q.status
  /-- Policies. -/
  policies : db'.policies=db.policies

/-- `restore_member_impl`, as one of several. -/
theorem exclusive_restore {h : OrgHeaders} (hh : Administers db caller org h) (hfair : FairRestore db caller org id)
    (h₁ : Exclusive db₁) (hkept : Kept org db db₁) :
    Ends (restoreMemberImpl settings h org id) db₁ fun _ db' => Exclusive db' ∧ Kept org db db' := by
  refine ends_restore.mono fun _ db' hs => ⟨exclusive_saves h₁ hs ?_,?_⟩
  · rintro m hm _ - ⟨⟨hid,horg⟩,howner,rfl⟩
    refine ⟨inRange_restore (h₁.ranged m hm),fun hactive hrole => ?_⟩
    rw [atype_restore] at hrole
    by_cases hbefore : Active m
    · exact .inl hbefore
    refine .inr fun ⟨q,hq,huser,hother,hsubject⟩ => ?_
    -- A row that is woken is revoked, so it is the one from the start.
    have hrevoked : m.status<Invited := by
      by_contra hnot
      unfold ServerTables.Membership.restore at hactive
      rw [if_neg hnot] at hactive
      exact hbefore hactive
    have hold : m∈db.members := (hkept.rows m hm).resolve_right fun hnew => absurd hrevoked (Int.not_lt.mpr hnew.2)
    rw [horg] at hother
    have hqold : q∈db.members := (hkept.rows q hq).resolve_right fun hnew => hother hnew.1
    exact hfair m hold hid horg hrole ⟨hbefore,hactive⟩ ⟨h,hh,howner⟩
      ⟨q,hqold,huser,hother,hsubject.back hkept.policies⟩
  · refine ⟨fun q hq => ?_,hs.policies.trans hkept.policies⟩
    rcases hs.members with hsame|⟨m,hm,_,hrow,⟨⟨-,horg⟩,-,rfl⟩,-,hmembers⟩
    · exact hkept.rows q (hsame ▸ hq)
    · rw [hmembers] at hq
      rcases mem_put.mp hq with rfl|⟨hq,-⟩
      · refine .inr ⟨hrow.org.trans horg,?_⟩
        have hrange := (h₁.ranged m hm).1
        rw [status_restore]
        unfold Invited ACTIVATE_REVOKE_DIFF at *
        omega
      · exact hkept.rows q hq

end Rows

section Runs

variable {settings : PolicySettings} {out : Outside} {caller org id : Uuid} {db : Database}

/-- `confirm_invite_impl`: whoever is confirmed was active before. -/
theorem exclusive_confirm {h : OrgHeaders} {key : Text} (hdb : Exclusive db) :
    Ends (confirmInviteImpl settings.toSettings out h org id key) db fun _ => Exclusive := by
  refine ends_confirm.mono fun _ db' hs => exclusive_saves hdb hs ?_
  rintro m hm _ - ⟨-,hstatus,rfl⟩
  exact ⟨inRange_of_status (s:=Confirmed) rfl (by decide),fun _ _ => .inl (.inl hstatus)⟩

theorem exclusive_revoke {h : OrgHeaders} (hdb : Exclusive db) :
    Ends (revokeMemberImpl h org id) db fun _ => Exclusive := by
  refine ends_revoke.mono fun _ db' hs => exclusive_saves hdb hs ?_
  rintro m hm _ - ⟨-,rfl⟩
  exact ⟨inRange_revoke (hdb.ranged m hm),fun hactive => absurd hactive (not_active_revoked (hdb.ranged m hm).2)⟩

/-- The roles of an edit do not matter. -/
theorem exclusive_edit {data : MemberData} (hdb : Exclusive db) :
    Ends (editMember settings.toSettings caller org id data) db fun _ => Exclusive := by
  refine ends_edit.mono fun _ db' hdone => ?_
  rcases hdone with rfl|⟨h,-,hs⟩
  · exact hdb
  refine exclusive_saves hdb hs ?_
  rintro m hm m' - ⟨-,-,hstatus⟩
  refine ⟨inRange_of_status hstatus (hdb.ranged m hm),fun hactive _ => .inl ?_⟩
  unfold Active at hactive ⊢
  rwa [← hstatus]

/-- `accept_invite`. -/
theorem exclusive_accept {memberId : Option Uuid} {claims : InviteClaims} {key : Option Text} (hdb : Exclusive db)
    (hfair : Fair settings db (.acceptInvite out caller org memberId claims key)) :
    Ends (acceptInvite settings.toSettings out caller org memberId claims key) db fun _ => Exclusive := by
  refine ends_accept.mono fun _ db' hs => exclusive_saves hdb hs ?_
  rintro m hm m' - ⟨hclaimed,hid,horg,hinvited,haccepted,htype⟩
  refine ⟨inRange_of_status haccepted (by decide),fun _ hrole => .inr ?_⟩
  rw [htype] at hrole
  rw [horg]
  exact hfair hclaimed m hm hid horg hinvited hrole

/-- `send_invite`. -/
theorem exclusive_invite {emails : List Text} {data : MemberData} (hdb : Exclusive db)
    (hfair : Fair settings db (.sendInvite out caller org emails data)) :
    Ends (sendInvite settings.toSettings out caller org emails data) db fun _ => Exclusive := by
  have hwelcome : (∃ h,Administers db caller org h) → Welcoming (Fit org db) settings.toSettings org db emails := by
    refine fun hguard => ⟨fun m => fit_invited,?_⟩
    intro hmail email he u hu hemail hpassword hnone m huser _ hstatus
    refine fit_accepted hstatus ?_
    rw [huser]
    exact hfair hguard hmail email he u hu hemail hpassword hnone
  exact (ends_sendInvite hdb.ranged hwelcome).mono fun _ db' hi => exclusive_imported hdb hi

/-- `ldap_import`. -/
theorem exclusive_import {orgEmail : Text} {data : OrgImportData} (hdb : Exclusive db)
    (hfair : Fair settings db (.ldapImport out org orgEmail data)) :
    Ends (ldapImport settings.toSettings out org orgEmail data) db fun _ => Exclusive := by
  obtain ⟨hwoken,haccounts⟩ := hfair
  refine (ends_ldapImport ⟨fit_steady org db,fun m => fit_invited,hdb.ranged,?_,?_⟩).mono fun _ db' hi =>
    exclusive_imported hdb hi
  · intro q hq horg u hu huser hlisted hactive
    by_cases hbefore : Active q
    · rw [restore_active hbefore,← horg]
      exact ⟨hdb.free hq hbefore,fun hsubject => hdb.single q hq hsubject⟩
    · exact hwoken q hq horg u hu huser hlisted ⟨hbefore,hactive⟩
  · intro hmail u hu hpassword hlisted hnone m huser _ _ hstatus
    refine fit_accepted hstatus ?_
    rw [huser]
    exact haccounts hmail u hu hlisted hpassword hnone

/-- A guarded handler. -/
theorem exclusive_guarded {g : OrgHeaders → Action Unit} (hdb : Exclusive db)
    (hg : ∀ h,Administers db caller org h → Ends (g h) db fun _ => Exclusive) :
    Ends ((adminHeaders caller org).bind g) db fun _ => Exclusive := ends_adminHeaders hg fun _ => hdb

/-- Every request keeps the policy. -/
theorem exclusive_step {op : Operation} (hdb : Exclusive db) (hfair : Fair settings db op) :
    Exclusive (step settings db op) := by
  cases op with
  | createOrganization caller billingEmail key =>
    exact ends_createOrganization.mono fun _ _ hf => exclusive_founds hdb hf
  | sendInvite out caller org emails data => exact exclusive_invite hdb hfair
  | acceptInvite out caller org id claims key => exact exclusive_accept hdb hfair
  | confirmInvite out caller org id key => exact exclusive_guarded hdb fun h _ => exclusive_confirm hdb
  | confirmInvites out caller org keys =>
    refine exclusive_guarded hdb fun h _ => ?_
    show Ends (each keys fun x => ok (confirmInviteImpl settings.toSettings out h org x.1 x.2)) db fun _ => Exclusive
    exact Ends.each_ok hdb fun _ _ _ h₁ => exclusive_confirm h₁
  | editMember caller org id data => exact exclusive_edit hdb
  | revokeMember caller org id => exact exclusive_guarded hdb fun h _ => exclusive_revoke hdb
  | revokeMembers caller org ids =>
    exact exclusive_guarded hdb fun h _ => Ends.each_ok hdb fun _ _ _ h₁ => exclusive_revoke h₁
  | restoreMember caller org id =>
    refine exclusive_guarded hdb fun h hh => ?_
    have hkept : Kept org db db := ⟨fun _ hq => .inl hq,rfl⟩
    exact (exclusive_restore hh hfair hdb hkept).mono fun _ _ h' => h'.1
  | restoreMembers caller org ids =>
    refine exclusive_guarded hdb fun h hh => ?_
    have hkept : Kept org db db := ⟨fun _ hq => .inl hq,rfl⟩
    exact (Ends.each_ok (I:=fun db' => Exclusive db' ∧ Kept org db db') ⟨hdb,hkept⟩ fun id hid db₁ h₁ =>
      exclusive_restore hh (hfair id hid) h₁.1 h₁.2).mono fun _ _ h' => h'.1
  | ldapImport out org orgEmail data => exact exclusive_import hdb hfair
  | putPolicy out caller org type enabled autoEnroll =>
    exact (ends_putPolicy hdb.ranged).mono fun _ _ hs => exclusive_switches hdb hs

/-- Sequences of requests, as long as nobody gets past the checks while a
policy binds him. -/
theorem single_kept {start : Database} {ops : List Operation} (hranged : Ranged start) (hstart : Single start)
    (hfair : Admits (step settings) (Fair settings) start ops) : Single (run (step settings) start ops) := by
  have hrun : Exclusive (run (step settings) start ops) :=
    run_invariant (I:=Exclusive) (fun _ _ => exclusive_step) ⟨hranged,hstart⟩ hfair
  exact hrun.single

end Runs

section Samples

/-- Settings without mail. -/
def quiet : PolicySettings := {TotpRuns.countingSettings with enforceSingleOrgWithResetPwPolicy := false}

/-- Settings with mail. -/
def mailing : PolicySettings := {quiet with mailEnabled := true}

/-- An account with a password. -/
def account (uuid : Uuid) (email : Text) : User := {User.new uuid 0 [] 600000 email none with passwordHash := [1]}

/-- Three accounts and no organisation. -/
def accounts : Database :=
  ⟨{Tables.none with users := [account 1 ['a'],account 2 ['b'],account 3 ['c']], next := 4},by decide⟩

/-- Every mail goes out. -/
def delivering : Outside := ⟨fun _ => true,[]⟩

/-- An invitation of the second account as a plain member. -/
def invitation (caller org : Uuid) : Operation := .sendInvite delivering caller org [['b']] ⟨[],"User",[],[]⟩

/-- The first account founds an organisation that forbids other ones, and the
second account is confirmed there. -/
def exclusiveOffice : List Operation :=
  [.createOrganization 1 ['a'] ['k'],.putPolicy delivering 1 4 3 true false,invitation 1 4,
    .confirmInvite delivering 1 4 7 ['k']]

/-- The third account founds an organisation and invites the second account,
who is accepted without a check. -/
theorem accepted_elsewhere : Ranged accounts ∧ Single accounts ∧
    ¬Single (run (step quiet) accounts (exclusiveOffice++[.createOrganization 3 ['c'] ['k'],invitation 3 8])) := by
  refine ⟨(fun m hm => by cases hm),(fun m hm => by cases hm),fun h => ?_⟩
  have hfound : ∃ m∈(run (step quiet) accounts
        (exclusiveOffice++[.createOrganization 3 ['c'] ['k'],invitation 3 8])).members,
      ∃ q∈(run (step quiet) accounts (exclusiveOffice++[.createOrganization 3 ['c'] ['k'],invitation 3 8])).members,
        OrgPolicy.active (run (step quiet) accounts
          (exclusiveOffice++[.createOrganization 3 ['c'] ['k'],invitation 3 8])).toTables m.orgUuid .singleOrg=true ∧
        m.status=Confirmed ∧ ¬MembershipType.admin≤ m.atype ∧ q.userUuid=m.userUuid ∧ q.orgUuid≠m.orgUuid ∧
        q.status=Accepted := by decide
  obtain ⟨m,hm,q,hq,hpolicy,hconfirmed,hrole,huser,horg,haccepted⟩ := hfound
  exact h m hm ⟨hpolicy,hconfirmed,hrole⟩ q hq huser horg (.inl haccepted)

/-- The second account accepts an invitation by mail, and is confirmed. -/
def joining : List Operation :=
  [.createOrganization 1 ['a'] ['k'],.putPolicy delivering 1 4 3 true false,invitation 1 4,
    .acceptInvite delivering 2 4 (some 7) ⟨['b'],4,some 7,none⟩ none,.confirmInvite delivering 1 4 7 ['k']]

theorem single_kept_joining : Single (run (step mailing) accounts joining) := by
  have hmails : ∀ db,Fair mailing db (invitation 1 4) := fun _ _ hmail => absurd hmail (by decide)
  refine single_kept (fun m hm => by cases hm) (fun m hm => by cases hm)
    ⟨trivial,trivial,hmails _,fun _ m hm hid horg hinvited hrole => ?_,trivial,trivial⟩
  have hplain : ∀ m∈(run (step mailing) accounts [.createOrganization 1 ['a'] ['k'],
      .putPolicy delivering 1 4 3 true false,invitation 1 4]).members,m.status=Invited →
        ¬MembershipType.admin≤ m.atype := by decide
  exact absurd hrole (hplain m hm hinvited)

end Samples

end NadSafe.SingleOrgRuns
