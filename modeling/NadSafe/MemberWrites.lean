import NadSafe.CoreFrames
import NadSafe.FactorRows
import NadSafe.GuardedScript

/-!
# What handlers do to memberships

Handlers of members, run alone. Each one saves at most one membership, after
it has checked the policies for it, or deletes memberships. What the check of
the policies shows is stated once, and so is what a guard shows of the caller.
-/

namespace NadSafe.MemberWrites

open HostText TableRows AsyncScript AsyncScript.Script ServerTables AccessQueries StoreScript ServerModels
open OrgHandlers RelyScript GuardedScript PlannedScript TableWrites FactorRows CoreFrames

/-- The account has a second factor. -/
def HasFactor (db : Database) (user : Uuid) : Prop := ∃ f∈db.twofactor,f.userUuid=user ∧ f.atype<1000

/-- Accepted or confirmed. -/
def Active (m : Membership) : Prop := m.status=Accepted ∨ m.status=Confirmed

/-- A confirmed member to whom a policy of his organisation applies. -/
structure Subject (db : Database) (atype : OrgPolicyType) (m : Membership) : Prop where
  /-- The organisation has the policy. -/
  policy : OrgPolicy.active db.toTables m.orgUuid atype=true
  /-- The member is confirmed. -/
  confirmed : m.status=Confirmed
  /-- He is neither an owner nor an administrator. -/
  role : ¬MembershipType.admin≤ m.atype

/-- At most second factors are new. -/
structure Supplied (db db' : Database) : Prop where
  /-- Memberships. -/
  members : db'.members=db.members
  /-- Policies. -/
  policies : db'.policies=db.policies
  /-- Accounts. -/
  users : db'.users=db.users
  /-- No account loses its last factor. -/
  factors : ∀ user,HasFactor db user → HasFactor db' user

/-- What the check of the policies shows. -/
structure Checked (db db' : Database) (m : Membership) : Prop where
  /-- A required factor is there. -/
  factor : OrgPolicy.active db.toTables m.orgUuid .twoFactorAuthentication=true → HasFactor db' m.userUuid
  /-- No other organisation claims the member. -/
  elsewhere : ∀ q∈db.members,q.userUuid=m.userUuid → q.orgUuid≠m.orgUuid → ¬Subject db .singleOrg q
  /-- There is no other organisation if this one claims him. -/
  single : OrgPolicy.active db.toTables m.orgUuid .singleOrg=true →
    ∀ q∈db.members,q.userUuid=m.userUuid → q.orgUuid≠m.orgUuid → ¬Active q

/-- Administrators, owners and invited members are not checked. -/
def Allowed (db db' : Database) (m : Membership) : Prop :=
  ¬MembershipType.admin≤ m.atype → Invited< m.status → Checked db db' m

section Checks

variable {α β : Type} {db db' db'' : Database} {P : Except String α → Database → Prop} {settings : Settings}
  {caller org user : Uuid} {m : Membership}

theorem Supplied.refl (db : Database) : Supplied db db := ⟨rfl,rfl,rfl,fun _ h => h⟩

theorem Supplied.trans (h : Supplied db db') (h' : Supplied db' db'') : Supplied db db'' :=
  ⟨h'.members.trans h.members,h'.policies.trans h.policies,h'.users.trans h.users,
    fun user hu => h'.factors user (h.factors user hu)⟩

theorem supplied_of_core (h : core db'=core db) : Supplied db db' := by
  obtain ⟨hmembers,-,hpolicies,hfactors,husers⟩ := core_cases h
  refine ⟨hmembers,hpolicies,husers,fun user ⟨f,hf,huser⟩ => ⟨f,?_,huser⟩⟩
  rw [hfactors]
  exact hf

/-- A part of a handler that leaves the core alone. -/
theorem ends_core {p : Action β} {g : β → Action α} (h : Frames exec core p)
    (hok : ∀ b db',core db'=core db → Ends (g b) db' P) (herror : ∀ e db',core db'=core db → P (.error e) db') :
    Ends (p.bind g) db P := (ends_frames h).bind hok herror

/-- A part that only reads. -/
theorem ends_read {p : Action β} {g : β → Action α} (h : Frames exec (fun db : Database => db) p)
    (hok : ∀ b,Ends (g b) db P) (herror : ∀ e,P (.error e) db) : Ends (p.bind g) db P := by
  refine (ends_frames h).bind (fun b db' h' => ?_) fun e db' h' => ?_
  · rw [show db'=db from h']
    exact hok b
  · rw [show db'=db from h']
    exact herror e

theorem Subject.same (h : Subject db .singleOrg m) (hpolicies : db'.policies=db.policies) :
    Subject db' .singleOrg m := by
  refine ⟨?_,h.confirmed,h.role⟩
  have hpolicy := h.policy
  unfold OrgPolicy.active at hpolicy ⊢
  rwa [hpolicies]

/-- A save of a factor with a new number. -/
theorem hasFactor_saved {f : TwoFactor} (hfresh : ∀ g∈db.twofactor,g.uuid≠f.uuid)
    (h : db'.twofactor=TwoFactor.saved f db.twofactor) (hold : HasFactor db user) : HasFactor db' user := by
  obtain ⟨g,hg,huser,htype⟩ := hold
  by_cases hkey : g.key=f.key
  · obtain ⟨huser',htype'⟩ := Prod.mk.inj hkey
    refine ⟨f,?_,huser'.symm.trans huser,htype' ▸ htype⟩
    rw [h]
    exact mem_put.mpr (.inl rfl)
  · refine ⟨g,?_,huser,htype⟩
    rw [h]
    exact mem_saved_of_ne hg hkey (hfresh g hg)

/-- The automatic factor. -/
theorem ends_activateFactor : Ends (findAndActivateEmail2fa user) db
    fun r db' => Supplied db db' ∧ (r=.ok () → HasFactor db' user) := by
  have hrefused : ∀ e : String,Supplied db db ∧ ((.error e : Except String Unit)=.ok () → HasFactor db user) :=
    fun e => ⟨Supplied.refl db,(fun h => by cases h)⟩
  unfold findAndActivateEmail2fa User.findByUuid
  refine ends_lookup ?_
  cases hfound : db.users.find? fun u => u.uuid=user with
  | none => exact hrefused _
  | some u =>
    have huuid := List.find?_some hfound
    rw [decide_eq_true_eq] at huuid
    show Ends (activateEmail2fa u) db _
    unfold activateEmail2fa
    split
    · refine ends_getUuid (ends_utcNow (ends_update_end (fun db' h => ?_) ?_))
      · have hfresh : ∀ g∈db.twofactor,g.uuid≠db.next := fun g hg =>
          Nat.ne_of_lt (db.valid.2.2.2.2.2.2.2.2.2.2.2.2 g hg)
        have hrows : db'.twofactor=TwoFactor.saved (ServerTables.TwoFactor.new db.next u.uuid
            ServerTables.TwoFactor.Email (.emailToken ⟨u.email,some [],db.now,0⟩)) db.twofactor := by
          rw [h]
          rfl
        have hcounts : ServerTables.TwoFactor.Email<1000 := by decide
        refine ⟨⟨by rw [h]; rfl,by rw [h]; rfl,by rw [h]; rfl,fun user hu => ?_⟩,fun _ => ?_⟩
        · exact hasFactor_saved hfresh hrows hu
        · refine ⟨ServerTables.TwoFactor.new db.next u.uuid ServerTables.TwoFactor.Email
            (.emailToken ⟨u.email,some [],db.now,0⟩),?_,huuid,hcounts⟩
          rw [hrows]
          exact mem_put.mpr (.inl rfl)
      · exact ⟨supplied_of_core rfl,(fun h => by cases h)⟩
    · exact hrefused _

/-- The check of the policy on second factors. -/
theorem ends_checkTwoFactor {action : String} : Ends (OrgPolicy.checkTwoFactor settings m action) db
    fun r db' => Supplied db db' ∧ (r=.ok () →
      OrgPolicy.active db.toTables m.orgUuid .twoFactorAuthentication=true → HasFactor db' m.userUuid) := by
  unfold OrgPolicy.checkTwoFactor
  refine ends_lookup (ends_lookup ?_)
  split
  · rename_i hfine
    refine ⟨Supplied.refl db,fun _ hactive => ?_⟩
    have hpresent : TwoFactor.findByUser db.toTables m.userUuid≠[] := by
      intro hnone
      exact hfine ⟨hactive,by rw [hnone]; rfl⟩
    obtain ⟨f,hf⟩ := List.exists_mem_of_ne_nil _ hpresent
    obtain ⟨hf,hboth⟩ := List.mem_filter.mp hf
    rw [decide_eq_true_eq] at hboth
    exact ⟨f,hf,hboth⟩
  · split
    · exact (ends_activateFactor).mono fun r db' h => ⟨h.1,fun hr _ => h.2 hr⟩
    · exact ⟨Supplied.refl db,(fun h => by cases h)⟩

/-- Whether a policy of an organisation applies to an account. -/
theorem ends_applicable {atype : OrgPolicyType} {excluded : Option Uuid} :
    Ends (OrgPolicy.isApplicableToUser user atype excluded) db fun r db' => db'=db ∧ ∃ b,r=.ok b ∧
      (b=false → ∀ q∈db.members,q.userUuid=user → excluded≠some q.orgUuid → ¬Subject db atype q) := by
  unfold OrgPolicy.isApplicableToUser
  refine ends_lookup ?_
  refine (Ends.findAny (f:=fun r : OrgPolicy×Membership =>
    (Membership.findConfirmedByUserAndOrg db.toTables user r.1.orgUuid).any
      fun m => ¬(MembershipType.admin≤ m.atype)) fun _ => ⟨rfl,rfl⟩).mono fun r db' h => ⟨h.2,_,h.1,?_⟩
  intro hnone q hq huser hother hsubject
  rw [List.any_eq_false] at hnone
  have hpolicy : ⟨q.orgUuid,atype⟩∈db.policies := of_decide_eq_true hsubject.policy
  refine hnone (⟨q.orgUuid,atype⟩,q) ?_ ?_
  · refine List.mem_filter.mpr ⟨List.mem_filter.mpr ⟨mem_innerJoin.mpr ⟨hpolicy,hq,?_⟩,?_⟩,?_⟩
    · exact decide_eq_true ⟨rfl,huser⟩
    · exact decide_eq_true ⟨.inr hsubject.confirmed,rfl⟩
    · exact decide_eq_true hother
  · rw [findConfirmed_eq_some_iff.mpr ⟨hq,huser,rfl,hsubject.confirmed⟩]
    exact decide_eq_true hsubject.role

/-- The check of the policy on other organisations. -/
theorem ends_checkSingleOrg {action : String} : Ends (OrgPolicy.checkSingleOrg m action) db
    fun r db' => db'=db ∧ (r=.ok () → OrgPolicy.active db.toTables m.orgUuid .singleOrg=true →
      ∀ q∈db.members,q.userUuid=m.userUuid → q.orgUuid≠m.orgUuid → ¬Active q) := by
  unfold OrgPolicy.checkSingleOrg
  refine ends_lookup ?_
  split
  · refine ends_lookup (Ends.ensure_done (fun hnone => ⟨rfl,fun _ _ q hq huser horg hactive => ?_⟩) fun _ =>
      ⟨rfl,(fun h => by cases h)⟩)
    rw [decide_eq_true_eq,List.length_eq_zero_iff,List.filter_eq_nil_iff] at hnone
    exact hnone q hq (decide_eq_true ⟨huser,horg,hactive⟩)
  · rename_i hfree
    exact ⟨rfl,fun _ hactive => absurd hactive hfree⟩

/-- `OrgPolicy::check_user_allowed`. -/
theorem ends_checkUserAllowed {action : String} : Ends (OrgPolicy.checkUserAllowed settings m action) db
    fun r db' => Supplied db db' ∧ (r=.ok () → Allowed db db' m) := by
  unfold OrgPolicy.checkUserAllowed
  split
  · refine (ends_checkTwoFactor).bind (fun _ db₁ ⟨h₁,hfactor⟩ => ?_) fun e db₁ ⟨h₁,_⟩ =>
      ⟨h₁,(fun h => by cases h)⟩
    refine (ends_applicable).bind (fun found db₂ h₂ => ?_) fun e db₂ ⟨_,_,he,_⟩ => by cases he
    obtain ⟨rfl,_,heq,helsewhere⟩ := h₂
    cases heq
    refine Ends.ensure (fun hnot => ?_) fun _ => ⟨h₁,(fun h => by cases h)⟩
    refine (ends_checkSingleOrg).mono fun r db₃ ⟨hsame,hsingle⟩ => ?_
    subst hsame
    refine ⟨h₁,fun hr _ _ => ⟨hfactor rfl,fun q hq huser horg hsubject => ?_,fun hactive q hq => ?_⟩⟩
    · have hq' : q∈db₃.members := by
        rw [h₁.members]
        exact hq
      refine helsewhere (by simpa using hnot) q hq' huser ?_ (hsubject.same h₁.policies)
      intro he
      exact horg (Option.some.inj he).symm
    · have hactive' : OrgPolicy.active db₃.toTables m.orgUuid .singleOrg=true := by
        unfold OrgPolicy.active at hactive ⊢
        rwa [h₁.policies]
      refine hsingle hr hactive' q ?_
      rw [h₁.members]
      exact hq
  · rename_i hexempt
    exact ⟨Supplied.refl db,fun _ hrole hstatus => absurd ⟨hrole,hstatus⟩ hexempt⟩

/-- The membership that the guard `OrgHeaders` finds. -/
def orgMember (t : Tables) (caller org : Uuid) : Option Membership :=
  ((t.users.find? fun u => u.uuid=caller).bind fun u =>
    t.members.find? fun m => m.userUuid=u.uuid ∧ m.orgUuid=org).filter
      fun m => m.status=Invited ∨ m.status=Accepted ∨ m.status=Confirmed

theorem ends_orgMember : Ends (orgHeaders caller org) db fun r db' => db'=db ∧
    match orgMember db.toTables caller org with
    | some m => (∃ u∈db.users,u.uuid=caller ∧ r=.ok ⟨u,m⟩) ∧ m∈db.members ∧ m.orgUuid=org
    | none => ∃ e,r=.error e ∧ e≠CipherHandlers.Panic := by
  unfold orgHeaders orgMember
  refine ends_lookup (Ends.expect (fun u hu => ?_) fun hu => ?_)
  · have hkey := List.find?_some hu
    rw [hu,Option.bind_some]
    refine ends_lookup (Ends.expect (fun m hm => ?_) fun hm => ?_)
    · have hcols := List.find?_some hm
      simp only [decide_eq_true_eq] at hkey hcols
      rw [hm]
      refine Ends.ensure (fun hstatus => ⟨rfl,?_⟩) fun hstatus => ⟨rfl,?_⟩
      · rw [Option.filter_some,if_pos hstatus]
        exact ⟨⟨u,List.mem_of_find?_eq_some hu,hkey,rfl⟩,List.mem_of_find?_eq_some hm,hcols.2⟩
      · rw [Option.filter_some,if_neg (ne_true_of_eq_false hstatus)]
        exact ⟨_,rfl,by decide⟩
    · rw [hm]
      exact ⟨rfl,_,rfl,by decide⟩
  · rw [hu]
    exact ⟨rfl,_,rfl,by decide⟩

/-- What a guard for administrators shows. -/
structure Administers (db : Database) (caller org : Uuid) (h : OrgHeaders) : Prop where
  /-- The account. -/
  user : h.user∈db.users ∧ h.user.uuid=caller
  /-- The membership. -/
  row : h.membership∈db.members ∧ h.membership.userUuid=caller ∧ h.membership.orgUuid=org
  /-- It is confirmed, with a role above a member's. -/
  role : h.membership.status=Confirmed ∧ MembershipType.admin≤h.membership.atype

theorem ends_adminHeaders {g : OrgHeaders → Action α} (hok : ∀ h,Administers db caller org h → Ends (g h) db P)
    (herror : ∀ e,P (.error e) db) : Ends ((adminHeaders caller org).bind g) db P := by
  unfold adminHeaders orgHeaders
  simp only [bind_eq,Script.bind_assoc]
  refine ends_lookup (Ends.expect (fun u hu => ?_) fun _ => herror _)
  refine ends_lookup (Ends.expect (fun member hmember => ?_) fun _ => herror _)
  refine Ends.ensure (fun _ => Ends.ensure (fun hrole => ?_) fun _ => herror _) fun _ => herror _
  have huuid := List.find?_some hu
  have hrow := List.find?_some hmember
  rw [decide_eq_true_eq] at huuid hrow hrole
  exact hok _ ⟨⟨List.mem_of_find?_eq_some hu,huuid⟩,
    ⟨List.mem_of_find?_eq_some hmember,hrow.1.trans huuid,hrow.2⟩,hrole⟩

/-- A membership of the organisation that is looked up by its key. -/
theorem ends_member {id : Uuid} {message : String} {g : Membership → Action α}
    (hok : ∀ m∈db.members,m.uuid=id → m.orgUuid=org → Ends (g m) db P) (herror : P (.error message) db) :
    Ends ((Membership.findByUuidAndOrg id org).bind fun found => (expect message found).bind g) db P := by
  refine ends_lookup (Ends.expect (fun m hm => ?_) fun _ => herror)
  have hrow := List.find?_some hm
  rw [decide_eq_true_eq] at hrow
  exact hok m (List.mem_of_find?_eq_some hm) hrow.1 hrow.2

end Checks

/-- Two rows of one membership. -/
structure SameMember (m m' : Membership) : Prop where
  /-- Its key. -/
  uuid : m'.uuid=m.uuid
  /-- The account. -/
  user : m'.userUuid=m.userUuid
  /-- The organisation. -/
  org : m'.orgUuid=m.orgUuid

theorem SameMember.trans {m m₁ m' : Membership} (h : SameMember m m₁) (h' : SameMember m₁ m') : SameMember m m' :=
  ⟨h'.uuid.trans h.uuid,h'.user.trans h.user,h'.org.trans h.org⟩

/-- At most one membership is saved, as the policies allow, or revoked. -/
structure Saves (new : Membership → Membership → Prop) (db db' : Database) : Prop where
  /-- Memberships. -/
  members : db'.members=db.members ∨ ∃ m∈db.members,∃ m',SameMember m m' ∧ new m m' ∧
    (Allowed db db' m' ∨ m'=m.revoke) ∧ db'.members=put Membership.uuid m' db.members
  /-- Policies. -/
  policies : db'.policies=db.policies
  /-- No account loses its last factor. -/
  factors : ∀ user,HasFactor db user → HasFactor db' user

/-- Memberships are removed. -/
structure Removes (gone : Membership → Prop) (db db' : Database) : Prop where
  /-- No other ones are new. -/
  old : ∀ q∈db'.members,q∈db.members
  /-- All others are left. -/
  kept : ∀ q∈db.members,¬gone q → q∈db'.members
  /-- Policies. -/
  policies : db'.policies=db.policies
  /-- An account with a membership keeps its factors. -/
  factors : ∀ q∈db'.members,HasFactor db q.userUuid → HasFactor db' q.userUuid

section Handlers

variable {settings : Settings} {out : Outside} {h : OrgHeaders} {org id : Uuid} {db db' db₁ : Database}
  {m m' : Membership} {new new' : Membership → Membership → Prop} {gone gone' : Membership → Prop}

theorem sameMember_restore (m : Membership) : SameMember m m.restore := by
  unfold ServerTables.Membership.restore
  split <;> exact ⟨rfl,rfl,rfl⟩

theorem sameMember_revoke (m : Membership) : SameMember m m.revoke := by
  unfold ServerTables.Membership.revoke
  split <;> exact ⟨rfl,rfl,rfl⟩

theorem atype_restore (m : Membership) : m.restore.atype=m.atype := by
  unfold ServerTables.Membership.restore
  split <;> rfl

theorem atype_revoke (m : Membership) : m.revoke.atype=m.atype := by
  unfold ServerTables.Membership.revoke
  split <;> rfl

theorem Supplied.core (h : Supplied db db₁) (h' : core db'=core db₁) : Supplied db db' :=
  h.trans (supplied_of_core h')

theorem Supplied.saves (h : Supplied db db') : Saves new db db' := ⟨.inl h.members,h.policies,h.factors⟩

theorem Saves.mono (h : Saves new db db') (hnew : ∀ m m',new m m' → new' m m') : Saves new' db db' := by
  refine ⟨h.members.imp_right fun ⟨m,hm,m',hsame,hsaved,hrest⟩ => ?_,h.policies,h.factors⟩
  exact ⟨m,hm,m',hsame,hnew m m' hsaved,hrest⟩

theorem Allowed.supply (h : Allowed db db₁ m) (hfactors : ∀ user,HasFactor db₁ user → HasFactor db' user) :
    Allowed db db' m := by
  intro hrole hstatus
  obtain ⟨hfactor,helsewhere,hsingle⟩ := h hrole hstatus
  exact ⟨fun hactive => hfactors _ (hfactor hactive),helsewhere,hsingle⟩

/-- The end of a handler that saves a membership. -/
theorem ends_saveMember (hm : m∈db.members) (h : Supplied db db₁) (hsame : SameMember m m') (hnew : new m m')
    (hallowed : Allowed db db₁ m' ∨ m'=m.revoke) : Ends (Membership.save m') db₁ fun _ db' => Saves new db db' := by
  refine ends_update_end (fun db' heq => ?_) h.saves
  have hfactors : ∀ user,HasFactor db₁ user → HasFactor db' user := by
    rintro user ⟨f,hf,hboth⟩
    refine ⟨f,?_,hboth⟩
    rw [heq]
    exact hf
  refine ⟨.inr ⟨m,hm,m',hsame,hnew,hallowed.imp_left (Allowed.supply · hfactors),?_⟩,?_,fun user hu => hfactors user (h.factors user hu)⟩
  · rw [heq,← h.members]
  · rw [heq,← h.policies]

/-- `confirm_invite_impl`. -/
theorem ends_confirm {key : Text} : Ends (confirmInviteImpl settings out h org id key) db
    fun _ db' => Saves (fun m m' => ¬(m.atype≠.user ∧ h.membership.atype≠.owner) ∧ m.status=Accepted ∧
      m'={m with status := Confirmed, akey := key}) db db' := by
  have hrefused := Supplied.refl db
  unfold confirmInviteImpl
  refine Ends.ensure (fun _ => ?_) fun _ => hrefused.saves
  refine ends_member (fun m hm hid horg => ?_) hrefused.saves
  refine Ends.ensure (fun hrole => ?_) fun _ => hrefused.saves
  refine Ends.ensure (fun hstatus => ?_) fun _ => hrefused.saves
  refine ends_checkUserAllowed.bind (fun _ db₁ ⟨h₁,hallowed⟩ => ?_) fun e db₁ h₁ => h₁.1.saves
  refine ends_core frames_mailConfirmed (fun _ db₂ h₂ => ?_) fun e db₂ h₂ => (h₁.core h₂).saves
  have hlater : ∀ user,HasFactor db₁ user → HasFactor db₂ user := (supplied_of_core h₂).factors
  exact ends_saveMember hm (h₁.core h₂) ⟨rfl,rfl,rfl⟩
    ⟨of_decide_eq_true hrole,of_decide_eq_true hstatus,rfl⟩
    (.inl ((hallowed rfl).supply hlater))

/-- What an edit of a member may change. -/
def Edits (h : OrgHeaders) (m m' : Membership) : Prop :=
  ¬(m'.atype≠m.atype ∧ (MembershipType.admin≤ m.atype ∨ MembershipType.admin≤ m'.atype) ∧
    h.membership.atype≠.owner) ∧ ¬(m.atype=.owner ∧ h.membership.atype≠.owner) ∧ m'.status=m.status

/-- A guarded handler: nothing has happened, or the caller administers the
organisation. -/
def Guarded (db : Database) (caller org : Uuid) (done : OrgHeaders → Database → Prop) (db' : Database) : Prop :=
  db'=db ∨ ∃ h,Administers db caller org h ∧ done h db'

theorem ends_guarded {caller : Uuid} {done : OrgHeaders → Database → Prop} {g : OrgHeaders → Action Unit}
    (hg : ∀ h,Administers db caller org h → Ends (g h) db fun _ db' => done h db') :
    Ends ((adminHeaders caller org).bind g) db fun _ db' => Guarded db caller org done db' :=
  ends_adminHeaders (fun h hh => (hg h hh).mono fun _ _ hdone => .inr ⟨h,hh,hdone⟩) fun _ => .inl rfl

/-- `edit_member`. -/
theorem ends_edit {caller : Uuid} {data : MemberData} : Ends (editMember settings caller org id data) db
    fun _ db' => Guarded db caller org (fun h db' => Saves (Edits h) db db') db' := by
  have hrefused := Supplied.refl db
  unfold editMember
  refine ends_guarded fun h _ => ?_
  refine Ends.expect (fun newType _ => ?_) fun _ => hrefused.saves
  refine ends_member (fun m hm hid horg => ?_) hrefused.saves
  refine Ends.ensure (fun hgrants => ?_) fun _ => hrefused.saves
  refine Ends.ensure (fun howner => ?_) fun _ => hrefused.saves
  rw [decide_eq_true_eq] at hgrants howner
  refine ends_read frames_otherOwner (fun _ => ?_) fun _ => hrefused.saves
  refine ends_checkUserAllowed.bind (fun _ db₁ ⟨h₁,hallowed⟩ => ?_) fun e db₁ h₁ => h₁.1.saves
  refine ends_lookup (ends_core (Frames.each fun r _ => frames_deleteGrant r) (fun _ db₂ h₂ => ?_)
    fun e db₂ h₂ => (h₁.core h₂).saves)
  refine ends_core frames_grantMember (fun _ db₃ h₃ => ?_) fun e db₃ h₃ => (h₁.core (h₃.trans h₂)).saves
  refine ends_core (frames_deletePlaces _) (fun _ db₄ h₄ => ?_) fun e db₄ h₄ =>
    (h₁.core (h₄.trans (h₃.trans h₂))).saves
  refine ends_core (Frames.each fun g _ => frames_savePlace _) (fun _ db₅ h₅ => ?_) fun e db₅ h₅ =>
    (h₁.core (h₅.trans (h₄.trans (h₃.trans h₂)))).saves
  have hcore : core db₅=core db₁ := h₅.trans (h₄.trans (h₃.trans h₂))
  exact ends_saveMember hm (h₁.core hcore) ⟨rfl,rfl,rfl⟩ ⟨hgrants,howner,rfl⟩
    (.inl ((hallowed rfl).supply (supplied_of_core hcore).factors))

/-- `restore_member_impl`. -/
theorem ends_restore : Ends (restoreMemberImpl settings h org id) db
    fun _ db' => Saves (fun m m' => (m.uuid=id ∧ m.orgUuid=org) ∧ ¬(m.atype=.owner ∧ h.membership.atype≠.owner) ∧
      m'=m.restore) db db' := by
  have hrefused := Supplied.refl db
  unfold restoreMemberImpl
  refine ends_member (fun m hm hid horg => ?_) hrefused.saves
  refine Ends.ensure (fun _ => ?_) fun _ => hrefused.saves
  refine Ends.ensure (fun _ => ?_) fun _ => hrefused.saves
  refine Ends.ensure (fun howner => ?_) fun _ => hrefused.saves
  refine ends_checkUserAllowed.bind (fun _ db₁ ⟨h₁,hallowed⟩ => ?_) fun e db₁ h₁ => h₁.1.saves
  exact ends_saveMember hm h₁ (sameMember_restore m) ⟨⟨hid,horg⟩,of_decide_eq_true howner,rfl⟩ (.inl (hallowed rfl))

/-- `revoke_member_impl`. -/
theorem ends_revoke : Ends (revokeMemberImpl h org id) db
    fun _ db' => Saves (fun m m' => ¬(m.atype=.owner ∧ h.membership.atype≠.owner) ∧ m'=m.revoke) db db' := by
  have hrefused := Supplied.refl db
  unfold revokeMemberImpl
  refine ends_member (fun m hm hid horg => ?_) hrefused.saves
  refine Ends.ensure (fun hactive => ?_) fun _ => hrefused.saves
  refine Ends.ensure (fun _ => ?_) fun _ => hrefused.saves
  refine Ends.ensure (fun howner => ?_) fun _ => hrefused.saves
  refine ends_read frames_otherOwner (fun _ => ?_) fun _ => hrefused.saves
  exact ends_saveMember hm hrefused (sameMember_revoke m) ⟨of_decide_eq_true howner,rfl⟩ (.inr rfl)

theorem Subject.back {atype : OrgPolicyType} (h : Subject db' atype m) (hpolicies : db'.policies=db.policies) :
    Subject db atype m := by
  refine ⟨?_,h.confirmed,h.role⟩
  have hpolicy := h.policy
  unfold OrgPolicy.active at hpolicy ⊢
  rwa [← hpolicies]

/-- A check after other tables have changed. -/
theorem Allowed.core (h : Allowed db₁ db' m) (h₁ : core db₁=core db) : Allowed db db' m := by
  obtain ⟨hmembers,-,hpolicies,-⟩ := core_cases h₁
  have hactive : ∀ atype,OrgPolicy.active db₁.toTables m.orgUuid atype=OrgPolicy.active db.toTables m.orgUuid atype := by
    intro atype
    unfold OrgPolicy.active
    rw [hpolicies]
  intro hrole hstatus
  obtain ⟨hfactor,helsewhere,hsingle⟩ := h hrole hstatus
  rw [hactive] at hfactor hsingle
  rw [hmembers] at helsewhere hsingle
  exact ⟨hfactor,fun q hq huser horg hsubject => helsewhere q hq huser horg (hsubject.same hpolicies),hsingle⟩

/-- What an accepted invitation saves. -/
def Accepts (memberId : Option Uuid) (org : Uuid) (m m' : Membership) : Prop :=
  memberId=some m.uuid ∧ m.orgUuid=org ∧ m.status=Invited ∧ m'.status=Accepted ∧ m'.atype=m.atype

/-- The token of an invitation fits the caller and the path. -/
structure Claimed (db : Database) (caller org : Uuid) (memberId : Option Uuid) (claims : InviteClaims)
    (resetPasswordKey : Option Text) : Prop where
  /-- The address is the caller's. -/
  email : ∃ u∈db.users,u.uuid=caller ∧ claims.email=u.email
  /-- The organisation and the membership are those in the path. -/
  path : claims.orgId=org ∧ claims.memberId=memberId
  /-- A key for account recovery is there where it is required. -/
  key : ¬(OrgPolicy.active db.toTables org (.resetPassword true)=true ∧ resetPasswordKey=none)

/-- `accept_invite`. -/
theorem ends_accept {caller : Uuid} {memberId : Option Uuid} {claims : InviteClaims}
    {resetPasswordKey : Option Text} :
    Ends (acceptInvite settings out caller org memberId claims resetPasswordKey) db fun _ db' =>
      Saves (fun m m' => Claimed db caller org memberId claims resetPasswordKey ∧ Accepts memberId org m m') db db' := by
  have hrefused := Supplied.refl db
  unfold acceptInvite
  refine ends_lookup (Ends.expect (fun u hu => ?_) fun _ => hrefused.saves)
  have huuid := List.find?_some hu
  refine Ends.ensure (fun hemail => ?_) fun _ => hrefused.saves
  refine Ends.ensure (fun hclaim => ?_) fun _ => hrefused.saves
  refine Ends.ensure (fun hmember => ?_) fun _ => hrefused.saves
  rw [decide_eq_true_eq] at huuid hemail hclaim hmember
  refine ends_core frames_takeInvitation (fun _ db₁ h₁ => ?_) fun e db₁ h₁ => (supplied_of_core h₁).saves
  have hfirst : Supplied db db₁ := supplied_of_core h₁
  split
  · rename_i id hid
    refine ends_member (fun m hm hrow horg => ?_) hfirst.saves
    refine ends_lookup (Ends.ensure (fun hkey => ?_) fun _ => hfirst.saves)
    unfold acceptOrgInvite
    refine Ends.ensure (fun hstatus => ?_) fun _ => hfirst.saves
    rw [decide_eq_true_eq] at hstatus
    refine ends_checkUserAllowed.bind (fun _ db₂ ⟨h₂,hallowed⟩ => ?_) fun e db₂ h₂ => (hfirst.trans h₂.1).saves
    have hold : m∈db.members := by
      rw [← hfirst.members]
      exact hm
    have hnamed : memberId=some m.uuid := by rw [← hmember,hid,hrow]
    have hclaimed : Claimed db caller org memberId claims resetPasswordKey := by
      refine ⟨⟨u,List.mem_of_find?_eq_some hu,huuid,hemail⟩,⟨hclaim,hmember⟩,fun h => ?_⟩
      refine of_decide_eq_true hkey ⟨?_,h.2⟩
      have hactive := h.1
      unfold OrgPolicy.active at hactive ⊢
      rwa [hfirst.policies,horg.trans hclaim]
    refine Ends.bind (Q:=fun _ db' => Saves (fun m m' => Claimed db caller org memberId claims resetPasswordKey ∧
      Accepts memberId org m m') db db') (ends_saveMember hold (hfirst.trans h₂) ?_ ?_
      (.inl ((hallowed rfl).core h₁))) (fun _ db₃ h₃ => ?_) fun e db₃ h₃ => h₃
    · exact ⟨rfl,rfl,rfl⟩
    · exact ⟨hclaimed,hnamed,horg.trans hclaim,hstatus,rfl,rfl⟩
    · split
      · exact ends_lookup (Ends.expect (fun o _ => Ends.ensure_done (fun _ => h₃) fun _ => h₃) fun _ => h₃)
      · exact h₃
  · split
    · exact Ends.ensure_done (fun _ => hfirst.saves) fun _ => hfirst.saves
    · exact hfirst.saves

theorem Removes.refl (db : Database) : Removes gone db db := ⟨fun _ hq => hq,fun _ hq _ => hq,rfl,fun _ _ h => h⟩

theorem Removes.trans (h : Removes gone db db₁) (h' : Removes gone db₁ db') : Removes gone db db' := by
  refine ⟨fun q hq => h.old q (h'.old q hq),fun q hq hgone => h'.kept q (h.kept q hq hgone) hgone,
    h'.policies.trans h.policies,fun q hq hfactor => h'.factors q hq (h.factors q (h'.old q hq) hfactor)⟩

theorem Removes.mono (h : Removes gone db db') (hgone : ∀ q∈db.members,gone q → gone' q) : Removes gone' db db' :=
  ⟨h.old,fun q hq hnot => h.kept q hq fun hg => hnot (hgone q hq hg),h.policies,h.factors⟩

/-- Other tables have changed. -/
theorem removes_of_same (hmembers : db'.members=db.members) (hpolicies : db'.policies=db.policies)
    (hfactors : db'.twofactor=db.twofactor) : Removes gone db db' := by
  refine ⟨fun q hq => ?_,fun q hq _ => ?_,hpolicies,fun q _ ⟨f,hf,hboth⟩ => ⟨f,?_,hboth⟩⟩
  · rwa [← hmembers]
  · rwa [hmembers]
  · rwa [hfactors]

theorem Supplied.removes (h : Supplied db db') : Removes gone db db' := by
  refine ⟨fun q hq => ?_,fun q hq _ => ?_,h.policies,fun q _ hfactor => h.factors _ hfactor⟩
  · rwa [← h.members]
  · rwa [h.members]

theorem Supplied.then_removes (h : Supplied db db₁) (h' : Removes gone db₁ db') : Removes gone db db' :=
  h.removes.trans h'

theorem Removes.core (h : Removes gone db db₁) (h' : core db'=core db₁) : Removes gone db db' :=
  h.trans (supplied_of_core h').removes

/-- `Membership::delete`. -/
theorem ends_deleteMember : Ends (Membership.delete m) db fun r db' =>
    Removes (fun q => q.uuid=m.uuid) db db' ∧ (r=.ok () → ∀ q∈db'.members,q.uuid≠m.uuid) := by
  have hfailed : ∀ (e : String) (db' : Database),Removes (fun q => q.uuid=m.uuid) db db' →
      Removes (fun q => q.uuid=m.uuid) db db' ∧
        ((.error e : Except String Unit)=.ok () → ∀ q∈db'.members,q.uuid≠m.uuid) :=
    fun e db' h => ⟨h,fun h => by cases h⟩
  unfold Membership.delete
  refine ends_core frames_deleteGrants (fun _ db₁ h₁ => ?_) fun e db₁ h₁ =>
    hfailed e db₁ (supplied_of_core h₁).removes
  have hfirst : Supplied db db₁ := supplied_of_core h₁
  refine ends_core (frames_deletePlaces _) (fun _ db₂ h₂ => ?_) fun e db₂ h₂ => hfailed e db₂ (hfirst.core h₂).removes
  have hsecond := hfirst.core h₂
  refine ends_update_end (fun db' heq => ?_) (hfailed _ db₂ hsecond.removes)
  have hrows : db'.members=db₂.members.filter fun q => q.uuid≠m.uuid := by rw [heq]
  refine ⟨hsecond.then_removes ⟨fun q hq => ?_,fun q hq hne => ?_,?_,?_⟩,fun _ q hq => ?_⟩
  · rw [hrows] at hq
    exact List.mem_of_mem_filter hq
  · rw [hrows]
    exact List.mem_filter.mpr ⟨hq,decide_eq_true hne⟩
  · rw [heq]
  · rintro q - ⟨f,hf,hboth⟩
    refine ⟨f,?_,hboth⟩
    rw [heq]
    exact hf
  · rw [hrows] at hq
    exact of_decide_eq_true (List.mem_filter.mp hq).2

/-- `delete_member_impl`. -/
theorem ends_delete : Ends (deleteMemberImpl h org id) db fun _ db' => Supplied db db' ∨
    ∃ m∈db.members,¬(m.atype≠.user ∧ h.membership.atype≠.owner) ∧ Removes (fun q => q.uuid=m.uuid) db db' := by
  have hrefused : Supplied db db := Supplied.refl db
  unfold deleteMemberImpl
  refine ends_member (fun m hm hid horg => ?_) (.inl hrefused)
  refine Ends.ensure (fun hrole => ?_) fun _ => .inl hrefused
  refine ends_read frames_otherOwner (fun _ => ?_) fun _ => .inl hrefused
  exact (ends_deleteMember).mono fun _ db' h' => .inr ⟨m,hm,of_decide_eq_true hrole,h'.1⟩

/-- All memberships of an account. -/
theorem ends_deleteMembers {user : Uuid} : Ends (Membership.deleteAllByUser user) db fun r db' =>
    Removes (fun q => q.userUuid=user) db db' ∧ (r=.ok () → ∀ q∈db'.members,q.userUuid≠user) := by
  unfold Membership.deleteAllByUser
  refine ends_lookup ?_
  -- What is left of the account's memberships is still listed.
  refine (Ends.each (J:=fun list db' => Removes (fun q => q.userUuid=user) db db' ∧
    (∀ m∈list,m∈db.members ∧ m.userUuid=user) ∧ ∀ q∈db'.members,q.userUuid=user → q∈list)
    (E:=fun _ db' => Removes (fun q => q.userUuid=user) db db') (fun m list db₁ ⟨h₁,hlist,hleft⟩ => ?_)
    ⟨Removes.refl db,fun m hm => ?_,fun q hq huser => ?_⟩).mono fun r db' h => ?_
  · obtain ⟨hm,huser⟩ := hlist m List.mem_cons_self
    have hsame : ∀ q∈db₁.members,q.uuid=m.uuid → q=m := fun q hq he =>
      eq_of_key db.member_nodup (h₁.old q hq) hm he
    refine (ends_deleteMember).mono fun r db₂ ⟨h₂,hgone⟩ => ?_
    have hboth := h₁.trans (h₂.mono fun q hq he => by rw [hsame q hq he]; exact huser)
    cases r with
    | error e => exact hboth
    | ok u =>
      refine ⟨hboth,fun q hq => hlist q (List.mem_cons_of_mem m hq),fun q hq hquser => ?_⟩
      rcases List.mem_cons.mp (hleft q (h₂.old q hq) hquser) with rfl|hmem
      · exact absurd rfl (hgone rfl q hq)
      · exact hmem
  · obtain ⟨hm,huser⟩ := List.mem_filter.mp hm
    exact ⟨hm,of_decide_eq_true huser⟩
  · exact List.mem_filter.mpr ⟨hq,decide_eq_true huser⟩
  · cases r with
    | error e => exact ⟨h,(fun h => by cases h)⟩
    | ok u => exact ⟨h.1,fun _ q hq huser => absurd (h.2.2 q hq huser) List.not_mem_nil⟩

/-- Of the memberships, policies and factors, only the factors of an account are
removed. -/
structure Strips (user : Uuid) (db db' : Database) : Prop where
  /-- Memberships. -/
  members : db'.members=db.members
  /-- Policies. -/
  policies : db'.policies=db.policies
  /-- Factors of others. -/
  factors : ∀ f∈db.twofactor,f.userUuid≠user → f∈db'.twofactor

theorem strips_refl (user : Uuid) (db : Database) : Strips user db db := ⟨rfl,rfl,fun _ hf _ => hf⟩

theorem strips_trans (user : Uuid) (a b c : Database) (h : Strips user a b) (h' : Strips user b c) :
    Strips user a c :=
  ⟨h'.members.trans h.members,h'.policies.trans h.policies,
    fun f hf hne => h'.factors f (h.factors f hf hne) hne⟩

/-- An account without memberships may lose its factors. -/
theorem Strips.removes {user : Uuid} (h : Strips user db db') (hnone : ∀ q∈db.members,q.userUuid≠user) :
    Removes gone db db' := by
  refine ⟨fun q hq => ?_,fun q hq _ => ?_,h.policies,fun q hq hfactor => ?_⟩
  · rwa [← h.members]
  · rwa [h.members]
  · obtain ⟨f,hf,huser,htype⟩ := hfactor
    rw [h.members] at hq
    exact ⟨f,h.factors f hf (huser ▸ hnone q hq),huser,htype⟩

theorem guards_strips {α : Type} {user : Uuid} {p : Action α} (h : Frames exec core p) :
    Guards exec (Strips user) p :=
  guards_of_frames (fun db db' heq => by
    obtain ⟨hmembers,-,hpolicies,hfactors,-⟩ := core_cases heq
    exact ⟨hmembers,hpolicies,fun f hf _ => hfactors ▸ hf⟩) h

/-- The end of the deletion of an account. -/
theorem guards_stripped {u : User} : Guards exec (Strips u.uuid) (do
    Cipher.deleteAllByUser u.uuid
    update "Error removing favorites by user" fun t =>
      {t with favorites := t.favorites.filter fun r => r.userUuid≠u.uuid}
    Folder.deleteAllByUser u.uuid
    update "Error removing devices for user" fun t =>
      {t with devices := t.devices.filter fun d => d.userUuid≠u.uuid}
    update "Error deleting twofactors" fun t =>
      {t with twofactor := t.twofactor.filter fun f => f.userUuid≠u.uuid}
    Invitation.take settings u.email
    update "Error deleting user" fun t => {t with users := t.users.filter fun q => q.uuid≠u.uuid}) := by
  have hother : ∀ {message : String} {f : Tables → Tables},(∀ t,(f t).members=t.members ∧
      (f t).organizations=t.organizations ∧ (f t).policies=t.policies ∧ (f t).twofactor=t.twofactor ∧
      (f t).users=t.users) → Guards exec (Strips u.uuid) (update message f) := fun h => guards_strips (frames_core h)
  refine Guards.bind (guards_strips frames_deleteCiphers) fun _ => ?_
  refine Guards.bind (hother fun _ => ⟨rfl,rfl,rfl,rfl,rfl⟩) fun _ => ?_
  refine Guards.bind (guards_strips frames_deleteFolders) fun _ => ?_
  refine Guards.bind (hother fun _ => ⟨rfl,rfl,rfl,rfl,rfl⟩) fun _ => ?_
  refine Guards.bind (Guards.execute (strips_refl _) fun db db' hc => ?_) fun _ => ?_
  · have heq := commit_eq hc
    refine ⟨by rw [heq],by rw [heq],fun f hf hne => ?_⟩
    rw [heq]
    exact List.mem_filter.mpr ⟨hf,decide_eq_true hne⟩
  · refine Guards.bind (guards_strips frames_takeInvitation) fun _ => ?_
    refine Guards.execute (strips_refl _) fun db db' hc => ?_
    have heq := commit_eq hc
    exact ⟨by rw [heq],by rw [heq],fun f hf _ => by rw [heq]; exact hf⟩

/-- `User::delete`: factors go after the memberships. -/
theorem ends_deleteUser {u : User} : Ends (User.delete settings u) db fun _ db' =>
    Removes (fun q => q.userUuid=u.uuid) db db' := by
  unfold User.delete
  refine ends_lookup ?_
  refine ends_read (Frames.each fun m _ => frames_otherOwner) (fun _ => ?_) fun _ => Removes.refl db
  refine ends_core frames_deleteSends (fun _ db₁ h₁ => ?_) fun e db₁ h₁ => (supplied_of_core h₁).removes
  refine ends_core frames_deleteEmergencyAccess (fun _ db₂ h₂ => ?_) fun e db₂ h₂ =>
    (supplied_of_core (h₂.trans h₁)).removes
  have hfirst : Supplied db db₂ := supplied_of_core (h₂.trans h₁)
  refine (ends_deleteMembers).bind (fun _ db₃ ⟨h₃,hgone⟩ => ?_) fun e db₃ h₃ => hfirst.then_removes h₃.1
  have hdeleted := hfirst.then_removes h₃
  have hrest : Ends (do
      Cipher.deleteAllByUser u.uuid
      update "Error removing favorites by user" fun t =>
        {t with favorites := t.favorites.filter fun r => r.userUuid≠u.uuid}
      Folder.deleteAllByUser u.uuid
      update "Error removing devices for user" fun t =>
        {t with devices := t.devices.filter fun d => d.userUuid≠u.uuid}
      update "Error deleting twofactors" fun t =>
        {t with twofactor := t.twofactor.filter fun f => f.userUuid≠u.uuid}
      Invitation.take settings u.email
      update "Error deleting user" fun t => {t with users := t.users.filter fun q => q.uuid≠u.uuid}) db₃
      fun _ db' => Strips u.uuid db₃ db' :=
    (guards_stripped).complete (strips_refl _) (strips_trans _)
  exact hrest.mono fun _ db' h' => hdeleted.trans (h'.removes (hgone rfl))

end Handlers

/-- What an invitation or an import adds. -/
structure Joined (settings : Settings) (org : Uuid) (role : MembershipType) (email : Text) (created : Bool)
    (db db' : Database) (user : User) (m : Membership) (created' : Bool) : Prop where
  /-- One membership is new. -/
  members : ∀ q,q∈db'.members ↔ q∈db.members ∨ q=m
  /-- Its key as well. -/
  fresh : ∀ q∈db.members,q.uuid≠m.uuid
  /-- It is one of the organisation, with a role. -/
  row : m.userUuid=user.uuid ∧ m.orgUuid=org ∧ m.atype=role
  /-- Policies. -/
  policies : db'.policies=db.policies
  /-- Second factors. -/
  factors : db'.twofactor=db.twofactor
  /-- Accounts are left. -/
  users : ∀ u∈db.users,u∈db'.users
  /-- New ones have no password. -/
  newcomers : ∀ u∈db'.users,u∈db.users ∨ u.passwordHash=[]
  /-- The account has the address. -/
  account : user∈db'.users ∧ user.email=settings.toLowercase email
  /-- The member is invited, or accepted at once. -/
  status : m.status=Invited ∨ m.status=Accepted ∧ settings.mailEnabled=false ∧ user.passwordHash≠[]
  /-- The account was there, without a membership of the organisation, or it is
  new. -/
  origin : user∈db.users ∧ created'=created ∧ (∀ q∈db.members,q.userUuid=user.uuid → q.orgUuid≠org) ∨
    created'=true ∧ m.status=Invited ∧ (∀ u∈db.users,u.email≠settings.toLowercase email) ∧
      ∀ q∈db.members,q.userUuid≠user.uuid

/-- What an invitation that fails leaves. -/
def Dropped (settings : Settings) (out : Outside) (org : Uuid) (role : MembershipType) (email : Text)
    (created : Bool) (db db' : Database) : Prop :=
  Removes (fun _ => False) db db' ∨ ∃ db₁ user m created',Joined settings org role email created db db₁ user m created' ∧
    Removes (fun q => q.uuid=m.uuid ∨ created'=true ∧ settings.mailEnabled=true ∧ out.delivers user.email=false ∧
      q.userUuid=user.uuid) db₁ db'

section Invitations

variable {settings : Settings} {out : Outside} {org : Uuid} {role : MembershipType} {email : Text} {created : Bool}
  {db db₁ db' : Database} {user : User} {m : Membership} {created' : Bool}

/-- The account of a membership was drawn. -/
theorem user_of_member {q : Membership} (hq : q∈db.members) : ∃ u∈db.users,u.uuid=q.userUuid :=
  db.valid.2.1.1 q hq

theorem Joined.core (h : Joined settings org role email created db db₁ user m created') (h' : core db'=core db₁) :
    Joined settings org role email created db db' user m created' := by
  obtain ⟨hmembers,-,hpolicies,hfactors,husers⟩ := core_cases h'
  refine ⟨fun q => ?_,h.fresh,h.row,hpolicies.trans h.policies,hfactors.trans h.factors,fun u hu => ?_,
    fun u hu => h.newcomers u (husers ▸ hu),?_,h.status,h.origin⟩
  · rw [hmembers]
    exact h.members q
  · rw [husers]
    exact h.users u hu
  · rw [husers]
    exact h.account

/-- The account of an invited member, and the status he may get. -/
structure Invitee (settings : Settings) (org : Uuid) (email : Text) (created : Bool) (db db' : Database)
    (user : User) (status : ℤ) (created' : Bool) : Prop where
  /-- Memberships. -/
  members : db'.members=db.members
  /-- Policies. -/
  policies : db'.policies=db.policies
  /-- Second factors. -/
  factors : db'.twofactor=db.twofactor
  /-- Accounts are left. -/
  users : ∀ u∈db.users,u∈db'.users
  /-- New ones have no password. -/
  newcomers : ∀ u∈db'.users,u∈db.users ∨ u.passwordHash=[]
  /-- The account has the address. -/
  account : user∈db'.users ∧ user.email=settings.toLowercase email
  /-- The status. -/
  standing : status=Invited ∨ status=Accepted ∧ settings.mailEnabled=false ∧ user.passwordHash≠[]
  /-- The account was there or is new. -/
  origin : user∈db.users ∧ created'=created ∧ (∀ q∈db.members,q.userUuid=user.uuid → q.orgUuid≠org) ∨
    created'=true ∧ status=Invited ∧ (∀ u∈db.users,u.email≠settings.toLowercase email) ∧
      ∀ q∈db.members,q.userUuid≠user.uuid

/-- The end of a handler that saves an account. -/
theorem ends_saveUser {u : User} {P : Except String Unit → Database → Prop}
    (h : settings.isValidEmail u.email=true →
      ∀ db' : Database,db'.toTables={db.toTables with users := put User.uuid u db.users} → P (.ok ()) db')
    (hrefused : ∀ e,P (.error e) db) : Ends (User.save settings u) db P := by
  unfold User.save
  split
  · rename_i hvalid
    exact ends_update_end (fun db' hdb' => h hvalid db' hdb') (hrefused _)
  · exact hrefused _

/-- A new account is in nobody's membership. -/
theorem ends_newUser {u : User} (hu : ∀ v∈db.users,v.uuid≠u.uuid) : Ends (User.save settings u) db fun r db' =>
    (r=.ok () → db'.members=db.members ∧ db'.policies=db.policies ∧ db'.twofactor=db.twofactor ∧
      (∀ v∈db.users,v∈db'.users) ∧ (∀ v∈db'.users,v∈db.users ∨ v=u) ∧ u∈db'.users ∧
      ∀ q∈db.members,q.userUuid≠u.uuid) ∧
    ((∃ e,r=.error e) → db'=db) := by
  refine ends_saveUser (fun _ db' h => ⟨fun _ => ?_,fun ⟨e,he⟩ => by cases he⟩) fun e =>
    ⟨(fun h => by cases h),fun _ => rfl⟩
  refine ⟨by rw [h],by rw [h],by rw [h],fun v hv => ?_,fun v hv => ?_,?_,fun q hq he => ?_⟩
  · rw [h]
    exact mem_put.mpr (.inr ⟨hv,hu v hv⟩)
  · rw [h] at hv
    exact (mem_put.mp hv).symm.imp_left fun hv => hv.1
  · rw [h]
    exact mem_put.mpr (.inl rfl)
  · obtain ⟨v,hv,hvq⟩ := user_of_member hq
    exact hu v hv (hvq.trans he)

theorem removes_of_core (h : core db'=core db) : Removes (fun _ => False) db db' := (supplied_of_core h).removes

/-- The account of an invited address. -/
theorem ends_invitedUser : Ends (invitedUser settings out org created email) db fun r db' =>
    (∀ user status created',r=.ok (user,status,created') →
      Invitee settings org email created db db' user status created') ∧
    ((∃ e,r=.error e) → Removes (fun _ => False) db db') := by
  have hrefused : ∀ (e : String) (db' : Database),core db'=core db →
      (∀ user status created',(.error e : Except String (User×ℤ×Bool))=.ok (user,status,created') →
        Invitee settings org email created db db' user status created') ∧
      ((∃ e',(.error e : Except String (User×ℤ×Bool))=.error e') → Removes (fun _ => False) db db') :=
    fun e db' h => ⟨(fun _ _ _ h => by cases h),fun _ => removes_of_core h⟩
  unfold invitedUser User.findByMail
  refine ends_lookup ?_
  cases hfound : db.users.find? fun u => u.email=settings.toLowercase email with
  | some u =>
    have hemail := List.find?_some hfound
    rw [decide_eq_true_eq] at hemail
    refine ends_lookup (Ends.ensure (fun hnone => ?_) fun _ => hrefused _ db rfl)
    refine ⟨fun user status created' heq => ?_,fun ⟨e,he⟩ => by cases he⟩
    cases heq
    have hu := List.mem_of_find?_eq_some hfound
    refine ⟨rfl,rfl,rfl,fun _ hv => hv,fun _ hv => .inl hv,⟨hu,hemail⟩,?_,.inl ⟨hu,rfl,?_⟩⟩
    · split
      · rename_i hauto
        exact .inr ⟨rfl,hauto⟩
      · exact .inl rfl
    · intro q hq huser horg
      rw [Option.isNone_iff_eq_none,List.find?_eq_none] at hnone
      exact hnone q hq (decide_eq_true ⟨huser,horg⟩)
  | none =>
    refine Ends.ensure (fun _ => Ends.ensure (fun _ => ?_) fun _ => hrefused _ db rfl) fun _ => hrefused _ db rfl
    refine ends_core frames_inviteByTable (fun _ db₁ h₁ => ?_) fun e db₁ h₁ => hrefused e db₁ h₁
    obtain ⟨hmembers,-,hpolicies,hfactors,husers⟩ := core_cases h₁
    refine ends_getUuid (ends_getUuid ?_)
    have hnew : ∀ v∈db₁.drawn.drawn.users,v.uuid≠db₁.next := fun v hv => Nat.ne_of_lt (db₁.valid.2.2.1 v hv)
    refine (ends_newUser (u:=User.new db₁.next db₁.drawn.next out.randomBytes
      settings.passwordIterations (settings.toLowercase email) none) hnew).bind (fun _ db₂ h₂ => ?_) fun e db₂ h₂ => ?_
    · obtain ⟨hmembers₂,hpolicies₂,hfactors₂,husers₂,hnew₂,hu,hnobody⟩ := h₂.1 rfl
      refine ⟨fun user status created' heq => ?_,fun ⟨e,he⟩ => by cases he⟩
      cases heq
      refine ⟨hmembers₂.trans hmembers,hpolicies₂.trans hpolicies,hfactors₂.trans hfactors,fun v hv => ?_,
        fun v hv => ?_,⟨hu,rfl⟩,.inl rfl,.inr ⟨rfl,rfl,fun v hv hemail => ?_,fun q hq => ?_⟩⟩
      · refine husers₂ v ?_
        show v∈db₁.users
        rwa [husers]
      · rcases hnew₂ v hv with hv|rfl
        · exact .inl (husers ▸ hv)
        · exact .inr rfl
      · rw [List.find?_eq_none] at hfound
        exact hfound v hv (decide_eq_true hemail)
      · refine hnobody q ?_
        show q∈db₁.members
        rwa [hmembers]
    · refine hrefused e db₂ ?_
      rw [h₂.2 ⟨e,rfl⟩]
      exact h₁

/-- A failed mail removes the new membership, or the account. -/
theorem ends_mailInvite : Ends (mailInvite settings out created user m) db fun r db' =>
    (r=.ok () → db'=db ∧ (settings.mailEnabled=true → out.delivers user.email=true)) ∧
    Removes (fun q => q.uuid=m.uuid ∨ created=true ∧ settings.mailEnabled=true ∧ out.delivers user.email=false ∧
      q.userUuid=user.uuid) db db' := by
  unfold mailInvite
  split
  case isFalse =>
    rename_i hmail
    exact ⟨fun _ => ⟨rfl,fun h => absurd h hmail⟩,Removes.refl db⟩
  rename_i hmail
  refine ends_lookup (Ends.expect (fun o _ => ?_) fun _ => ⟨(fun h => by cases h),Removes.refl db⟩)
  split
  case isTrue =>
    rename_i hsent
    exact ⟨fun _ => ⟨rfl,fun _ => hsent⟩,Removes.refl db⟩
  rename_i hsent
  rw [Bool.not_eq_true] at hsent
  split
  · rename_i hcreated
    have hgone : ∀ db',Removes (fun q => q.userUuid=user.uuid) db db' → Removes (fun q => q.uuid=m.uuid ∨
        created=true ∧ settings.mailEnabled=true ∧ out.delivers user.email=false ∧ q.userUuid=user.uuid) db db' :=
      fun db' h => h.mono fun q _ huser => .inr ⟨hcreated,hmail,hsent,huser⟩
    exact (ends_deleteUser).bind (fun _ db' h => ⟨(fun h => by cases h),hgone db' h⟩) fun e db' h =>
      ⟨(fun h => by cases h),hgone db' h⟩
  · exact ends_deleteMember.bind (fun _ db' h => ⟨(fun h => by cases h),h.1.mono fun q _ he => .inl he⟩) fun e db' h =>
      ⟨(fun h => by cases h),h.1.mono fun q _ he => .inl he⟩

/-- A membership is added for an account. -/
theorem Invitee.joined {db₂ : Database} {status : ℤ} (h : Invitee settings org email created db db₁ user status created')
    (hrow : m.userUuid=user.uuid ∧ m.orgUuid=org ∧ m.atype=role) (hstatus : m.status=status) (hfresh : m.uuid=db₁.next)
    (heq : db₂.toTables={db₁.drawn.toTables with members := put Membership.uuid m db₁.members}) :
    Joined settings org role email created db db₂ user m created' := by
  have hnew : ∀ q∈db₁.members,q.uuid≠m.uuid := by
    intro q hq
    rw [hfresh]
    exact Nat.ne_of_lt (db₁.valid.2.2.2.2.1 q hq)
  refine ⟨fun q => ?_,fun q hq => hnew q (by rw [h.members]; exact hq),hrow,?_,?_,fun u hu => ?_,fun u hu => ?_,?_,
    ?_,?_⟩
  · rw [heq]
    constructor
    · intro hq
      rcases mem_put.mp hq with rfl|⟨hq,-⟩
      · exact .inr rfl
      · exact .inl (h.members ▸ hq)
    · rintro (hq|rfl)
      · rw [← h.members] at hq
        exact mem_put.mpr (.inr ⟨hq,hnew q hq⟩)
      · exact mem_put.mpr (.inl rfl)
  · rw [heq]
    exact h.policies
  · rw [heq]
    exact h.factors
  · rw [heq]
    exact h.users u hu
  · rw [heq] at hu
    exact h.newcomers u hu
  · rw [heq]
    exact h.account
  · rw [hstatus]
    exact h.standing
  · rw [hstatus]
    exact h.origin

/-- One address of an invitation, and then the others. -/
theorem ends_inviteNext {inviter : Text} {accessAll : Bool} {data : MemberData} {emails : List Text}
    {P : Except String Unit → Database → Prop}
    (hnext : ∀ db' user m created',Joined settings org role email created db db' user m created' →
      (settings.mailEnabled=true → out.delivers user.email=true) →
        Ends (inviteAll settings out org inviter role accessAll data created' emails) db' P)
    (hfailed : ∀ e db',Dropped settings out org role email created db db' → P (.error e) db') :
    Ends (inviteAll settings out org inviter role accessAll data created (email::emails)) db P := by
  rw [inviteAll]
  refine (ends_invitedUser).bind (fun ⟨user,status,created'⟩ db₁ h₁ => ?_) fun e db₁ h₁ =>
    hfailed e db₁ (.inl (h₁.2 ⟨e,rfl⟩))
  have hinvitee := h₁.1 user status created' rfl
  have hquiet : Removes (fun _ => False) db db₁.drawn :=
    removes_of_same hinvitee.members hinvitee.policies hinvitee.factors
  refine ends_getUuid (ends_update_cases (fun db₂ h₂ => ?_) (hfailed _ _ (.inl hquiet)))
  have hjoined : Joined settings org role email created db db₂ user _ created' :=
    hinvitee.joined ⟨rfl,rfl,rfl⟩ rfl rfl h₂
  refine (ends_mailInvite).bind (fun _ db₃ h₃ => ?_) fun e db₃ h₃ => hfailed e db₃ (.inr ⟨db₂,user,_,created',hjoined,h₃.2⟩)
  obtain ⟨rfl,hsent⟩ := h₃.1 rfl
  have hlater : ∀ e db',core db'=core db₃ → P (.error e) db' := fun e db' h =>
    hfailed e db' (.inr ⟨db',user,_,created',hjoined.core h,Removes.refl db'⟩)
  refine ends_core frames_grantMember (fun _ db₄ h₄ => ?_) fun e db₄ h₄ => hlater e db₄ h₄
  refine ends_core (Frames.each fun g _ => frames_savePlace _) (fun _ db₅ h₅ => ?_) fun e db₅ h₅ =>
    hlater e db₅ (h₅.trans h₄)
  exact hnext db₅ user _ created' (hjoined.core (h₅.trans h₄)) hsent

end Invitations

end NadSafe.MemberWrites
