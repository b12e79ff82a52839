import NadSafe.ImportWrites
import NadSafe.PolicyHandlers
import NadSafe.StepRuns

/-!
# Requests on members and policies

The requests through which somebody becomes a member, gets another role or
status, or comes under a policy. What a new organisation, an invitation and a
switched policy do to the memberships is stated for a handler that runs alone.
-/

namespace NadSafe.MemberRequests

open HostText TableRows AsyncScript AsyncScript.Script ServerTables AccessQueries StoreScript ServerModels
open OrgHandlers DirectoryImport SecondFactors PolicyHandlers RelyScript PlannedScript TableWrites FactorRows
open CoreFrames MemberWrites ImportWrites

/-- A request. -/
inductive Operation where
  /-- `create_organization`. -/
  | createOrganization (caller : Uuid) (billingEmail key : Text)
  /-- `send_invite`. -/
  | sendInvite (out : Outside) (caller org : Uuid) (emails : List Text) (data : MemberData)
  /-- `accept_invite`. -/
  | acceptInvite (out : Outside) (caller org : Uuid) (id : Option Uuid) (claims : InviteClaims)
      (resetPasswordKey : Option Text)
  /-- `confirm_invite`. -/
  | confirmInvite (out : Outside) (caller org id : Uuid) (key : Text)
  /-- `bulk_confirm_invite`. -/
  | confirmInvites (out : Outside) (caller org : Uuid) (keys : List (Uuid×Text))
  /-- `edit_member`. -/
  | editMember (caller org id : Uuid) (data : MemberData)
  /-- `revoke_member`. -/
  | revokeMember (caller org id : Uuid)
  /-- `bulk_revoke_members`. -/
  | revokeMembers (caller org : Uuid) (ids : List Uuid)
  /-- `restore_member`. -/
  | restoreMember (caller org id : Uuid)
  /-- `bulk_restore_members`. -/
  | restoreMembers (caller org : Uuid) (ids : List Uuid)
  /-- `ldap_import`, by the organisation of the token. -/
  | ldapImport (out : Outside) (org : Uuid) (orgEmail : Text) (data : OrgImportData)
  /-- `put_policy`. -/
  | putPolicy (out : Outside) (caller org : Uuid) (type : ℤ) (enabled autoEnroll : Bool)

/-- The handler of a request. -/
def Operation.body (settings : PolicySettings) : Operation → Action Unit
  | .createOrganization caller billingEmail key =>
    OrgHandlers.createOrganization settings.toSettings caller billingEmail key
  | .sendInvite out caller org emails data => OrgHandlers.sendInvite settings.toSettings out caller org emails data
  | .acceptInvite out caller org id claims key =>
    OrgHandlers.acceptInvite settings.toSettings out caller org id claims key
  | .confirmInvite out caller org id key => OrgHandlers.confirmInvite settings.toSettings out caller org id key
  | .confirmInvites out caller org keys => bulkConfirmInvite settings.toSettings out caller org keys
  | .editMember caller org id data => OrgHandlers.editMember settings.toSettings caller org id data
  | .revokeMember caller org id => OrgHandlers.revokeMember caller org id
  | .revokeMembers caller org ids => bulkRevokeMembers caller org ids
  | .restoreMember caller org id => OrgHandlers.restoreMember settings.toSettings caller org id
  | .restoreMembers caller org ids => bulkRestoreMembers settings.toSettings caller org ids
  | .ldapImport out org orgEmail data => DirectoryImport.ldapImport settings.toSettings out org orgEmail data
  | .putPolicy out caller org type enabled autoEnroll =>
    PolicyHandlers.putPolicy settings out caller org type enabled autoEnroll

section Organizations

variable {settings : Settings} {out : Outside} {caller org : Uuid} {db db₁ db' : Database} {m : Membership}

/-- A new organisation has one member, if no policy forbids it. -/
structure Founds (caller : Uuid) (db db' : Database) : Prop where
  /-- The owner may be new. -/
  members : db'.members=db.members ∨ ∃ m,m.userUuid=caller ∧ m.atype=.owner ∧ m.status=Confirmed ∧
    (∀ q∈db.members,q.uuid≠m.uuid) ∧ (∀ q∈db.members,q.userUuid=caller → ¬Subject db .singleOrg q) ∧
    db'.members=put Membership.uuid m db.members
  /-- Policies. -/
  policies : db'.policies=db.policies
  /-- Second factors. -/
  factors : db'.twofactor=db.twofactor

/-- `create_organization`. -/
theorem ends_createOrganization {billingEmail key : Text} :
    Ends (createOrganization settings caller billingEmail key) db fun _ db' => Founds caller db db' := by
  have hsame : ∀ db' : Database,db'.members=db.members → db'.policies=db.policies → db'.twofactor=db.twofactor →
      Founds caller db db' := fun db' hmembers hpolicies hfactors => ⟨.inl hmembers,hpolicies,hfactors⟩
  unfold createOrganization
  refine ends_lookup (Ends.expect (fun u hu => ?_) fun _ => hsame db rfl rfl rfl)
  have huuid := List.find?_some hu
  rw [decide_eq_true_eq] at huuid
  refine Ends.ensure (fun _ => ?_) fun _ => hsame db rfl rfl rfl
  refine ends_applicable.bind (fun found db₁ h₁ => ?_) fun e db₁ ⟨_,_,he,_⟩ => by cases he
  obtain ⟨rfl,_,heq,hfree⟩ := h₁
  cases heq
  refine Ends.ensure (fun hnot => ?_) fun _ => hsame db₁ rfl rfl rfl
  have hfree' : ∀ q∈db₁.members,q.userUuid=caller → ¬Subject db₁ .singleOrg q := by
    intro q hq huser
    exact hfree (by simpa using hnot) q hq (huser.trans huuid.symm) (fun h => by cases h)
  refine ends_getUuid (ends_getUuid (ends_getUuid ?_))
  unfold Organization.save
  split
  case isFalse => exact hsame _ rfl rfl rfl
  refine ends_update_cases (fun db₂ h₂ => ?_) (hsame _ rfl rfl rfl)
  have hmembers₂ : db₂.members=db₁.members := by
    rw [h₂]
    rfl
  have hpolicies₂ : db₂.policies=db₁.policies := by
    rw [h₂]
    rfl
  have hfactors₂ : db₂.twofactor=db₁.twofactor := by
    rw [h₂]
    rfl
  refine ends_update_cases (fun db₃ h₃ => ?_) (hsame db₂ hmembers₂ hpolicies₂ hfactors₂)
  have hfounded : ∀ db' : Database,db'.members=db₃.members → db'.policies=db₃.policies →
      db'.twofactor=db₃.twofactor → Founds caller db₁ db' := by
    intro db' hmembers hpolicies hfactors
    refine ⟨.inr ⟨_,huuid,rfl,rfl,fun q hq => ?_,hfree',hmembers.trans (?_ : _=put Membership.uuid
      {ServerTables.Membership.new (db₁.next+1) u.uuid db₁.next none with
        akey := key, accessAll := true, atype := .owner, status := Confirmed} db₁.members)⟩,?_,?_⟩
    · exact Nat.ne_of_lt (Nat.lt_succ_of_lt (db₁.valid.2.2.2.2.1 q hq))
    · rw [h₃,hmembers₂]
      rfl
    · rw [hpolicies,h₃]
      exact hpolicies₂
    · rw [hfactors,h₃]
      exact hfactors₂
  refine ends_update_end (fun db₄ h₄ => hfounded db₄ ?_ ?_ ?_) (hfounded db₃ rfl rfl rfl)
  · rw [h₄]
  · rw [h₄]
  · rw [h₄]

end Organizations

section Invitations

variable {Fit : Membership → Prop} {settings : Settings} {out : Outside} {caller org : Uuid} {db db₁ db' : Database}

/-- What an invitation asks of the accounts that are accepted at once. -/
structure Welcoming (Fit : Membership → Prop) (settings : Settings) (org : Uuid) (db : Database)
    (emails : List Text) : Prop where
  /-- Invited members need nothing. -/
  invited : ∀ m,m.status=Invited → Fit m
  /-- Accounts with a password. -/
  accounts : settings.mailEnabled=false → ∀ email∈emails,∀ u∈db.users,u.email=settings.toLowercase email →
    u.passwordHash≠[] → (∀ q∈db.members,q.userUuid=u.uuid → q.orgUuid≠org) →
      ∀ m : Membership,m.userUuid=u.uuid → m.orgUuid=org → m.status=Accepted → Fit m

/-- By induction on the addresses: every one adds a row. -/
theorem ends_inviteAll {inviter : Text} {role : MembershipType} {accessAll created : Bool} {data : MemberData}
    {emails later : List Text} (hwelcome : Welcoming Fit settings org db emails) (hlater : ∀ e∈later,e∈emails)
    (h : Importing Fit (fun _ => False) org db db₁) :
    Ends (inviteAll settings out org inviter role accessAll data created later) db₁ fun _ db' =>
      Imported Fit org db db' := by
  induction later generalizing created db₁ with
  | nil => exact h.imported
  | cons email later ih =>
    have hjoins : ∀ db' user m created',Joined settings org role email created db₁ db' user m created' →
        Importing Fit (fun _ => False) org db db' := by
      intro db' user m created' hjoined
      refine h.joins hjoined ?_
      rcases hjoined.status with hs|⟨hs,hmail,hpassword⟩
      · exact hwelcome.invited m hs
      · obtain ⟨hu,-,hnone⟩ := hjoined.origin.resolve_right fun hnew =>
          absurd (hs.symm.trans hnew.2.1) (by decide)
        have hold : user∈db.users := (h.newcomers user hu).resolve_right hpassword
        refine hwelcome.accounts hmail email (hlater email List.mem_cons_self) user hold hjoined.account.2 hpassword
          (fun q hq huser horg => ?_) m hjoined.row.1 hjoined.row.2.1 hs
        obtain ⟨q',hq',hrow⟩ := h.kept q hq
        exact hnone q' hq' (hrow.user.trans huser) (hrow.org.trans horg)
    refine ends_inviteNext (fun db' user m created' hjoined _ => ?_) fun e db' hdropped => ?_
    · exact ih (fun e he => hlater e (List.mem_cons_of_mem email he)) (hjoins db' user m created' hjoined)
    · rcases hdropped with hquiet|⟨db₂,user,m,created',hjoined,hremoved⟩
      · exact h.imported.removes hquiet
      · exact (hjoins db₂ user m created' hjoined).imported.removes hremoved

/-- `send_invite`. -/
theorem ends_sendInvite {emails : List Text} {data : MemberData} (hranged : Ranged db)
    (hwelcome : (∃ h,Administers db caller org h) → Welcoming Fit settings org db emails) :
    Ends (sendInvite settings out caller org emails data) db fun _ db' => Imported Fit org db db' := by
  have hstart : Importing Fit (fun _ => False) org db db := Importing.refl hranged fun _ _ _ _ _ _ h => h.elim
  unfold sendInvite
  refine ends_adminHeaders (fun h hh => ?_) fun _ => hstart.imported
  refine ends_read frames_validate (fun _ => ?_) fun _ => hstart.imported
  refine Ends.expect (fun role _ => ?_) fun _ => hstart.imported
  refine Ends.ensure (fun _ => ?_) fun _ => hstart.imported
  exact ends_inviteAll (hwelcome ⟨h,hh⟩) (fun _ he => he) hstart

end Invitations

section Policies

variable {settings : Settings} {out : Outside} {caller org user : Uuid} {db db₁ db₂ db' : Database} {m : Membership}

/-- Members of an organisation are revoked. -/
structure Revokes (org : Uuid) (db db' : Database) : Prop where
  /-- Memberships. -/
  rows : ∀ q∈db'.members,q∈db.members ∨ ∃ m∈db.members,m.orgUuid=org ∧ q=m.revoke
  /-- Policies. -/
  policies : db'.policies=db.policies
  /-- Second factors. -/
  factors : db'.twofactor=db.twofactor

theorem Revokes.refl (db : Database) : Revokes org db db := ⟨fun _ hq => .inl hq,rfl,rfl⟩

/-- One more member. -/
theorem Revokes.next (h : Revokes org db db₁) (hm : m∈db.members) (horg : m.orgUuid=org)
    (heq : db'.toTables={db₁.toTables with members := put Membership.uuid m.revoke db₁.members}) :
    Revokes org db db' := by
  refine ⟨fun q hq => ?_,?_,?_⟩
  · rw [heq] at hq
    rcases mem_put.mp hq with rfl|⟨hq,-⟩
    · exact .inr ⟨m,hm,horg,rfl⟩
    · exact h.rows q hq
  · rw [heq]
    exact h.policies
  · rw [heq]
    exact h.factors

/-- What a policy asks of a member who is neither an owner nor an
administrator. -/
def Asked (Good : Database → Uuid → Prop) (db : Database) (m : Membership) : Prop :=
  m.status=Confirmed → ¬MembershipType.admin≤ m.atype → Good db m.userUuid

/-- It stays good when members of the organisation are revoked. -/
def Stable (org : Uuid) (Good : Database → Uuid → Prop) : Prop :=
  ∀ (a b : Database) (m : Membership),m.orgUuid=org →
    b.toTables={a.toTables with members := put Membership.uuid m.revoke a.members} → ∀ user,Good a user → Good b user

/-- A loop over members that revokes all that do not comply. -/
theorem ends_enforce {Good : Database → Uuid → Prop} {body : Membership → Action Unit} {ms : List Membership}
    (hstable : Stable org Good)
    (hbody : ∀ m db₁,m.orgUuid=org → Ends (body m) db₁ fun r db₂ =>
      db₂=db₁ ∧ (r=.ok () → Asked Good db₁ m) ∨
        r=.ok () ∧ db₂.toTables={db₁.toTables with members := put Membership.uuid m.revoke db₁.members})
    (hms : ∀ m∈ms,m∈db.members ∧ m.orgUuid=org)
    (hall : ∀ q∈db.members,q.orgUuid=org → q.status=Confirmed → q∈ms) (hranged : Ranged db) :
    Ends (each ms body) db (Either (fun _ db' => Revokes org db db' ∧
      ∀ q∈db'.members,q.orgUuid=org → Asked Good db' q) fun _ => Revokes org db) := by
  -- Whoever is not handled yet is listed.
  refine (Ends.each (J:=fun ms db₁ => Revokes org db db₁ ∧ (∀ m∈ms,m∈db.members ∧ m.orgUuid=org) ∧
    ∀ q∈db₁.members,q.orgUuid=org → q∈ms ∨ Asked Good db₁ q) (E:=fun _ => Revokes org db)
    (fun m ms db₁ ⟨h₁,hrows,hleft⟩ => ?_) ⟨Revokes.refl db,hms,fun q hq horg => ?_⟩).mono fun r db' h => ?_
  · obtain ⟨hm,hmorg⟩ := hrows m List.mem_cons_self
    have hrows' : ∀ m'∈ms,m'∈db.members ∧ m'.orgUuid=org := fun m' hm' => hrows m' (List.mem_cons_of_mem m hm')
    refine (hbody m db₁ hmorg).mono fun r db₂ h₂ => ?_
    rcases h₂ with ⟨rfl,hgood⟩|⟨rfl,heq⟩
    · cases r with
      | error e => exact h₁
      | ok u =>
        refine ⟨h₁,hrows',fun q hq horg => ?_⟩
        rcases hleft q hq horg with hmem|hasked
        · rcases List.mem_cons.mp hmem with rfl|hmem
          · exact .inr (hgood rfl)
          · exact .inl hmem
        · exact .inr hasked
    · refine ⟨h₁.next hm hmorg heq,hrows',fun q hq horg => ?_⟩
      rw [heq] at hq
      rcases mem_put.mp hq with rfl|⟨hq,hne⟩
      · refine .inr fun hstatus => ?_
        exact absurd (Or.inr hstatus) (not_active_revoked (hranged m hm).2)
      · rcases hleft q hq horg with hmem|hasked
        · refine .inl ((List.mem_cons.mp hmem).resolve_left ?_)
          rintro rfl
          exact hne (sameMember_revoke q).uuid.symm
        · exact .inr fun hstatus hrole => hstable db₁ db₂ m hmorg heq q.userUuid (hasked hstatus hrole)
  · by_cases hstatus : q.status=Confirmed
    · exact .inl (hall q hq horg hstatus)
    · exact .inr fun h => absurd h hstatus
  · cases r with
    | error e => exact h
    | ok u => exact ⟨h.1,fun q hq horg => (h.2.2 q hq horg).resolve_left List.not_mem_nil⟩

/-- The account has no other organisation. -/
def Alone (org : Uuid) (db : Database) (user : Uuid) : Prop :=
  ∀ q∈db.members,q.userUuid=user → q.orgUuid≠org → ¬Active q

theorem stable_alone (org : Uuid) : Stable org (Alone org) := by
  intro a b m horg heq user h q hq huser hother
  rw [heq] at hq
  rcases mem_put.mp hq with rfl|⟨hq,-⟩
  · exact absurd ((sameMember_revoke m).org.trans horg) hother
  · exact h q hq huser hother

theorem stable_hasFactor (org : Uuid) : Stable org HasFactor := by
  intro a b m _ heq user h
  obtain ⟨f,hf,hboth⟩ := h
  refine ⟨f,?_,hboth⟩
  rw [heq]
  exact hf

theorem frames_mailMember {τ : Type} {part : Database → τ} : Frames exec part (mailMember settings out user) :=
  Frames.ite (fun _ => Frames.bind (frames_lookup _) fun _ => Frames.bind (Frames.expect _ _) fun _ =>
    Frames.ensure _ _) fun _ => Frames.pure _

theorem frames_mailSingleOrg {τ : Type} {part : Database → τ} : Frames exec part (mailSingleOrg settings out m) :=
  Frames.ite (fun _ => Frames.bind (frames_lookup _) fun _ => Frames.bind (Frames.expect _ _) fun _ =>
    frames_mailMember) fun _ => Frames.pure _

/-- A member without a factor is revoked. -/
theorem ends_revokeWithoutFactor : Ends (revokeWithoutFactor settings out m) db fun r db' =>
    db'=db ∧ (r=.ok () → Asked HasFactor db m) ∨
      r=.ok () ∧ db'.toTables={db.toTables with members := put Membership.uuid m.revoke db.members} := by
  unfold revokeWithoutFactor
  split
  case isTrue hrole => exact .inl ⟨rfl,fun _ _ hnot => absurd hrole hnot⟩
  refine ends_lookup ?_
  split
  · refine ends_read frames_mailMember (fun _ => ?_) fun _ => .inl ⟨rfl,(fun h => by cases h)⟩
    exact ends_update_end (fun db' h => .inr ⟨rfl,h⟩) (.inl ⟨rfl,(fun h => by cases h)⟩)
  · rename_i hpresent
    refine .inl ⟨rfl,fun _ _ _ => ?_⟩
    rw [List.isEmpty_iff] at hpresent
    obtain ⟨f,hf⟩ := List.exists_mem_of_ne_nil _ hpresent
    obtain ⟨hf,hboth⟩ := List.mem_filter.mp hf
    exact ⟨f,hf,of_decide_eq_true hboth⟩

/-- A member of other organisations is revoked. -/
theorem ends_revokeWithOthers : Ends (revokeWithOthers settings out m) db fun r db' =>
    db'=db ∧ (r=.ok () → Asked (Alone m.orgUuid) db m) ∨
      r=.ok () ∧ db'.toTables={db.toTables with members := put Membership.uuid m.revoke db.members} := by
  unfold revokeWithOthers
  split
  case isTrue hexempt =>
    refine .inl ⟨rfl,fun _ hstatus hrole => ?_⟩
    rcases hexempt with hadmin|hinvited
    · exact absurd hadmin hrole
    · exact absurd (hinvited.symm.trans hstatus) (by decide)
  refine ends_lookup ?_
  split
  · refine ends_read frames_mailSingleOrg (fun _ => ?_) fun _ => .inl ⟨rfl,(fun h => by cases h)⟩
    exact ends_update_end (fun db' h => .inr ⟨rfl,h⟩) (.inl ⟨rfl,(fun h => by cases h)⟩)
  · rename_i hnone
    refine .inl ⟨rfl,fun _ _ _ q hq huser hother hactive => ?_⟩
    rw [Nat.not_lt,Nat.le_zero,List.length_eq_zero_iff,List.filter_eq_nil_iff] at hnone
    exact hnone q hq (decide_eq_true ⟨huser,hother,hactive⟩)

/-- Every member of the organisation meets a policy that is switched on. -/
structure Complies (org : Uuid) (atype : OrgPolicyType) (enabled : Bool) (db : Database) : Prop where
  /-- Second factors. -/
  factor : atype=.twoFactorAuthentication → enabled=true → ∀ q∈db.members,q.orgUuid=org → Asked HasFactor db q
  /-- Other organisations. -/
  single : atype=.singleOrg → enabled=true → ∀ q∈db.members,q.orgUuid=org → Asked (Alone org) db q

/-- What is done before a policy is stored. -/
theorem ends_enforcePolicy {kind : Option OrgPolicyType} {enabled : Bool} (hranged : Ranged db) :
    Ends (enforcePolicy settings out org kind enabled) db (Either
      (fun _ db' => Revokes org db db' ∧ ∀ atype,kind=some atype → Complies org atype enabled db')
      fun _ => Revokes org db) := by
  unfold enforcePolicy
  split
  case isTrue hfactor =>
    unfold enforce2faPolicyForOrg
    refine ends_lookup (Ends.expect (fun o _ => ends_lookup ?_) fun _ => Revokes.refl db)
    refine (ends_enforce (stable_hasFactor org) (fun m db₁ _ => ends_revokeWithoutFactor) (fun m hm => ?_)
      (fun q hq horg hstatus => ?_) hranged).mono fun r db' h => ?_
    · obtain ⟨hm,hboth⟩ := List.mem_filter.mp hm
      exact ⟨hm,(of_decide_eq_true hboth).1⟩
    · exact List.mem_filter.mpr ⟨hq,decide_eq_true ⟨horg,hstatus⟩⟩
    · cases r with
      | error e => exact h
      | ok u =>
        refine ⟨h.1,fun atype hkind => ⟨fun _ _ => h.2,fun hsingle => ?_⟩⟩
        rw [hsingle,hfactor.1] at hkind
        cases hkind
  rename_i hother
  split
  case isTrue hsingle =>
    refine ends_lookup ?_
    refine (ends_enforce (stable_alone org) (fun m db₁ horg => ?_) (fun m hm => ?_) (fun q hq horg _ => ?_)
      hranged).mono fun r db' h => ?_
    · rw [← horg]
      exact ends_revokeWithOthers
    · obtain ⟨hm,horg⟩ := List.mem_filter.mp hm
      exact ⟨hm,of_decide_eq_true horg⟩
    · exact List.mem_filter.mpr ⟨hq,decide_eq_true horg⟩
    · cases r with
      | error e => exact h
      | ok u =>
        refine ⟨h.1,fun atype hkind => ⟨fun hfactor => ?_,fun _ _ => h.2⟩⟩
        rw [hfactor,hsingle.1] at hkind
        cases hkind
  rename_i hnone
  refine ⟨Revokes.refl db,fun atype hkind => ⟨fun hfactor henabled => ?_,fun hsingle henabled => ?_⟩⟩
  · exact absurd ⟨hkind.trans (congrArg some hfactor),henabled⟩ hother
  · exact absurd ⟨hkind.trans (congrArg some hsingle),henabled⟩ hnone

/-- A policy is stored after members were revoked, or it stays as it was. -/
def Switches (org : Uuid) (enabled : Bool) (db db' : Database) : Prop :=
  Revokes org db db' ∨ ∃ db₁ atype,Revokes org db db₁ ∧ Complies org atype enabled db₁ ∧
    db'.toTables={db₁.toTables with policies := OrgPolicy.saved org atype enabled db₁.policies}

/-- A policy that was active before, or the one that was switched on. -/
theorem active_saved {atype atype' : OrgPolicyType} {enabled : Bool} {o : Uuid}
    (heq : db'.policies=OrgPolicy.saved org atype enabled db.policies)
    (h : OrgPolicy.active db'.toTables o atype'=true) :
    OrgPolicy.active db.toTables o atype'=true ∨ enabled=true ∧ o=org ∧ atype'=atype := by
  unfold OrgPolicy.active at h ⊢
  rw [decide_eq_true_eq,heq] at h
  rcases List.mem_append.mp h with hold|hnew
  · exact .inl (decide_eq_true (List.mem_of_mem_filter hold))
  · split at hnew
    · rename_i henabled
      rw [List.mem_singleton,OrgPolicy.mk.injEq] at hnew
      exact .inr ⟨henabled,hnew⟩
    · cases hnew

/-- `put_policy`. -/
theorem ends_putPolicy {settings : PolicySettings} {type : ℤ} {enabled autoEnroll : Bool} (hranged : Ranged db) :
    Ends (putPolicy settings out caller org type enabled autoEnroll) db fun _ db' => Switches org enabled db db' := by
  have hrefused : Switches org enabled db db := .inl (Revokes.refl db)
  unfold putPolicy
  refine ends_adminHeaders (fun h _ => ?_) fun _ => hrefused
  refine Ends.expect (fun kind _ => ?_) fun _ => hrefused
  refine ends_read ?_ (fun _ => ?_) fun _ => hrefused
  · unfold checkSingleOrgWithResetPw
    exact Frames.ite (fun _ => Frames.bind (frames_lookup _) fun _ => Frames.ensure _ _) fun _ =>
      Frames.ite (fun _ => Frames.bind (frames_lookup _) fun _ => Frames.ensure _ _) fun _ => Frames.pure _
  refine (ends_enforcePolicy hranged).bind (fun _ db₁ ⟨h₁,hcomplies⟩ => ?_) fun e db₁ h₁ => .inl h₁
  cases kind with
  | none => exact .inl h₁
  | some atype =>
    exact ends_update_end (fun db' heq => .inr ⟨db₁,atype,h₁,hcomplies atype rfl,heq⟩) (.inl h₁)

end Policies

end NadSafe.MemberRequests
