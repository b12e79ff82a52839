import NadSafe.MemberWrites

/-!
# What an import does to memberships

The import of a directory, run alone. It restores, revokes and adds rows of
one organisation, and it checks no policy. What a restored or added row has to
meet is a parameter: if the listed rows meet it before the import, then so do
the rows that the import leaves active.
-/

namespace NadSafe.ImportWrites

open HostText TableRows AsyncScript AsyncScript.Script ServerTables AccessQueries StoreScript ServerModels
open OrgHandlers DirectoryImport RelyScript PlannedScript TableWrites FactorRows CoreFrames MemberWrites

/-- The status is one of a member or of a revoked one. -/
def InRange (m : Membership) : Prop := -ACTIVATE_REVOKE_DIFF≤ m.status ∧ m.status<ACTIVATE_REVOKE_DIFF

/-- All statuses are. -/
def Ranged (db : Database) : Prop := ∀ m∈db.members,InRange m

/-- A restore makes the member active. -/
def Wakes (m : Membership) : Prop := ¬Active m ∧ Active m.restore

section Statuses

variable {m m' : Membership}

theorem status_restore (m : Membership) :
    m.restore.status=if m.status<Invited then m.status+ACTIVATE_REVOKE_DIFF else m.status := by
  unfold ServerTables.Membership.restore
  split <;> rfl

theorem status_revoke (m : Membership) :
    m.revoke.status=if Revoked< m.status then m.status-ACTIVATE_REVOKE_DIFF else m.status := by
  unfold ServerTables.Membership.revoke
  split <;> rfl

/-- A member that is restored twice. -/
theorem restore_restored (h : -ACTIVATE_REVOKE_DIFF≤ m.status) : m.restore.restore.status=m.restore.status := by
  rw [status_restore,status_restore]
  unfold ACTIVATE_REVOKE_DIFF Invited at *
  omega

/-- A member that is revoked and restored. -/
theorem restore_revoked (h : m.status<ACTIVATE_REVOKE_DIFF) : m.revoke.restore.status=m.restore.status := by
  rw [status_restore,status_restore,status_revoke]
  unfold ACTIVATE_REVOKE_DIFF Invited Revoked at *
  omega

theorem not_active_revoked (h : m.status<ACTIVATE_REVOKE_DIFF) : ¬Active m.revoke := by
  unfold Active
  rw [status_revoke]
  unfold ACTIVATE_REVOKE_DIFF Revoked Accepted Confirmed at *
  omega

/-- A member who is active is as he would be restored. -/
theorem restore_active (h : Active m) : m.restore=m := by
  unfold ServerTables.Membership.restore
  refine if_neg ?_
  unfold Active Accepted Confirmed at h
  unfold Invited
  omega

theorem inRange_of_status {s : ℤ} (h : m.status=s) (hs : -ACTIVATE_REVOKE_DIFF≤ s ∧ s<ACTIVATE_REVOKE_DIFF) :
    InRange m := by
  unfold InRange
  rwa [h]

theorem inRange_restore (h : InRange m) : InRange m.restore := by
  unfold InRange at *
  rw [status_restore]
  unfold ACTIVATE_REVOKE_DIFF Invited at *
  omega

theorem inRange_revoke (h : InRange m) : InRange m.revoke := by
  unfold InRange at *
  rw [status_revoke]
  unfold ACTIVATE_REVOKE_DIFF Revoked at *
  omega

/-- A policy applies to a restored member whatever his row was before. -/
theorem subject_restore {db : Database} {atype : OrgPolicyType} (hsame : SameMember m m') (htype : m'.atype=m.atype)
    (hstatus : m'.restore.status=m.restore.status) (h : Subject db atype m'.restore) : Subject db atype m.restore := by
  refine ⟨?_,hstatus.symm.trans h.confirmed,?_⟩
  · have hpolicy := h.policy
    rwa [(sameMember_restore m').org,hsame.org,← (sameMember_restore m).org] at hpolicy
  · have hrole := h.role
    rwa [atype_restore,htype,← atype_restore m] at hrole

end Statuses

section Imports

variable {Fit : Membership → Prop} {Listed : Text → Prop} {settings : Settings} {out : Outside} {org : Uuid}
  {db db₁ db' : Database} {m m' : Membership}

/-- A row of the organisation that an import may leave. -/
def Left (Fit : Membership → Prop) (db : Database) (q : Membership) : Prop :=
  ¬Active q ∨ Fit q ∨ ∃ m∈db.members,SameMember m q ∧ q.atype=m.atype ∧ q.status=m.status

/-- What an import leaves. -/
structure Imported (Fit : Membership → Prop) (org : Uuid) (db db' : Database) : Prop where
  /-- Rows of the organisation may be new. -/
  rows : ∀ q∈db'.members,q∈db.members ∨ q.orgUuid=org ∧ Left Fit db q
  /-- Statuses. -/
  ranged : Ranged db'
  /-- Policies. -/
  policies : db'.policies=db.policies
  /-- An account with a membership keeps its factors. -/
  factors : ∀ q∈db'.members,HasFactor db q.userUuid → HasFactor db' q.userUuid

/-- An import while it handles the members. -/
structure Importing (Fit : Membership → Prop) (Listed : Text → Prop) (org : Uuid) (db db' : Database) : Prop where
  /-- Rows of the organisation may be new. -/
  rows : ∀ q∈db'.members,q∈db.members ∨ q.orgUuid=org ∧ Left Fit db q
  /-- Statuses. -/
  ranged : Ranged db'
  /-- Policies. -/
  policies : db'.policies=db.policies
  /-- No account loses its last factor. -/
  factors : ∀ user,HasFactor db user → HasFactor db' user
  /-- Every membership has its row. -/
  kept : ∀ m∈db.members,∃ q∈db'.members,SameMember m q
  /-- Accounts are left. -/
  users : ∀ u∈db.users,u∈db'.users
  /-- New ones have no password. -/
  newcomers : ∀ u∈db'.users,u∈db.users ∨ u.passwordHash=[]
  /-- The rows that may be restored. -/
  fit : ∀ q∈db'.members,q.orgUuid=org → ∀ u∈db'.users,u.uuid=q.userUuid → Listed u.email → Fit q

/-- What a member has to meet depends on the member that is restored. -/
def Steady (Fit : Membership → Prop) : Prop :=
  ∀ m m',SameMember m m' → m'.atype=m.atype → m'.restore.status=m.restore.status → Fit m → Fit m'

/-- A row of an import after the row before. -/
structure Turns (Fit : Membership → Prop) (m m' : Membership) : Prop where
  /-- It is the same membership. -/
  same : SameMember m m'
  /-- With its role. -/
  role : m'.atype=m.atype
  /-- Restored, the rows have one status. -/
  restored : m'.restore.status=m.restore.status
  /-- The status. -/
  ranged : InRange m'
  /-- An active row meets what it has to, or it was active before. -/
  left : ¬Active m' ∨ Fit m' ∨ m'.status=m.status

theorem Turns.refl (h : InRange m) : Turns Fit m m :=
  ⟨⟨rfl,rfl,rfl⟩,rfl,rfl,h,.inr (.inr rfl)⟩

theorem turns_restore (hsteady : Steady Fit) (h : InRange m)
    (hfit : Fit m) : Turns Fit m m.restore := by
  have hsame := sameMember_restore m
  have hstatus := restore_restored h.1
  exact ⟨hsame,atype_restore m,hstatus,inRange_restore h,
    .inr (.inl (hsteady m m.restore hsame (atype_restore m) hstatus hfit))⟩

theorem turns_revoke (h : InRange m) : Turns Fit m m.revoke :=
  ⟨sameMember_revoke m,atype_revoke m,restore_revoked h.2,inRange_revoke h,.inl (not_active_revoked h.2)⟩

/-- The identifier of the directory does not matter. -/
theorem Turns.setExternalId (h : Turns Fit m m') (hsteady : Steady Fit) (externalId : Text) :
    Turns Fit m (setExternalId m' externalId).1 := by
  obtain ⟨huuid,huser,horg,htype,hstatus⟩ := setExternalId_same m' externalId
  have hsame : SameMember m' (DirectoryImport.setExternalId m' externalId).1 := ⟨huuid,huser,horg⟩
  have hrestored : (DirectoryImport.setExternalId m' externalId).1.restore.status=m'.restore.status := by
    rw [status_restore,status_restore,hstatus]
  refine ⟨h.same.trans hsame,htype.trans h.role,hrestored.trans h.restored,?_,?_⟩
  · exact inRange_of_status hstatus h.ranged
  · rw [hstatus]
    refine h.left.imp (fun hidle => ?_) fun hleft => hleft.imp_left fun hfit => ?_
    · unfold Active at hidle ⊢
      rwa [hstatus]
    · exact hsteady m' _ hsame htype hrestored hfit

theorem Imported.removes {gone : Membership → Prop} (h : Imported Fit org db db₁) (h' : Removes gone db₁ db') :
    Imported Fit org db db' := by
  refine ⟨fun q hq => h.rows q (h'.old q hq),fun q hq => h.ranged q (h'.old q hq),h'.policies.trans h.policies,?_⟩
  exact fun q hq hfactor => h'.factors q hq (h.factors q (h'.old q hq) hfactor)

theorem Imported.core (h : Imported Fit org db db₁) (h' : core db'=core db₁) : Imported Fit org db db' :=
  h.removes (removes_of_core h')

/-- An account of a row that was there before. -/
theorem Importing.user_of_old (h : Importing Fit Listed org db db₁) {u : User} (hu : u∈db₁.users) (hm : m∈db.members)
    (huser : u.uuid=m.userUuid) : u∈db.users := by
  obtain ⟨v,hv,hvm⟩ := user_of_member hm
  have hsame : u=v := eq_of_key db₁.user_nodup hu (h.users v hv) (huser.trans hvm.symm)
  rwa [hsame]

theorem Importing.imported (h : Importing Fit Listed org db db') : Imported Fit org db db' :=
  ⟨h.rows,h.ranged,h.policies,fun q _ => h.factors q.userUuid⟩

theorem Importing.refl (hranged : Ranged db)
    (hfit : ∀ q∈db.members,q.orgUuid=org → ∀ u∈db.users,u.uuid=q.userUuid → Listed u.email → Fit q) :
    Importing Fit Listed org db db :=
  ⟨fun _ hq => .inl hq,hranged,rfl,fun _ h => h,fun m hm => ⟨m,hm,⟨rfl,rfl,rfl⟩⟩,fun _ hu => hu,
    fun _ hu => .inl hu,hfit⟩

/-- A row that is saved again. -/
theorem Importing.saves (h : Importing Fit Listed org db db₁) (hsteady : Steady Fit) (hm : m∈db₁.members)
    (horg : m.orgUuid=org) (hturns : Turns Fit m m')
    (heq : db'.toTables={db₁.toTables with members := put Membership.uuid m' db₁.members}) :
    Importing Fit Listed org db db' := by
  obtain ⟨hsame,htype,hstatus,hranged,hleft⟩ := hturns
  have hmembers : db'.members=put Membership.uuid m' db₁.members := by rw [heq]
  have husers : db'.users=db₁.users := by rw [heq]
  have hnew : Left Fit db m' := by
    rcases hleft with hidle|hfit|hkept
    · exact .inl hidle
    · exact .inr (.inl hfit)
    -- The status is the one of the row before, which is old or meets what it has to.
    · have hactive : Active m' → Active m := by
        unfold Active
        rw [hkept]
        exact id
      rcases h.rows m hm with hold|⟨-,hidle|hfit|⟨m₀,hm₀,hsame₀,htype₀,hstatus₀⟩⟩
      · exact .inr (.inr ⟨m,hold,hsame,htype,hkept⟩)
      · exact .inl fun ha => hidle (hactive ha)
      · exact .inr (.inl (hsteady m m' hsame htype hstatus hfit))
      · exact .inr (.inr ⟨m₀,hm₀,hsame₀.trans hsame,htype.trans htype₀,hkept.trans hstatus₀⟩)
  refine ⟨fun q hq => ?_,fun q hq => ?_,?_,fun user hu => ?_,fun q hq => ?_,?_,?_,?_⟩
  · rw [hmembers] at hq
    rcases mem_put.mp hq with rfl|⟨hq,-⟩
    · exact .inr ⟨hsame.org.trans horg,hnew⟩
    · exact h.rows q hq
  · rw [hmembers] at hq
    rcases mem_put.mp hq with rfl|⟨hq,-⟩
    · exact hranged
    · exact h.ranged q hq
  · rw [heq]
    exact h.policies
  · obtain ⟨f,hf,hboth⟩ := h.factors user hu
    refine ⟨f,?_,hboth⟩
    rw [heq]
    exact hf
  · obtain ⟨q₁,hq₁,hrow⟩ := h.kept q hq
    by_cases he : q₁.uuid=m'.uuid
    · have hq₁m : q₁=m := eq_of_key db₁.member_nodup hq₁ hm (he.trans hsame.uuid)
      subst hq₁m
      refine ⟨m',?_,hrow.trans hsame⟩
      rw [hmembers]
      exact mem_put.mpr (.inl rfl)
    · refine ⟨q₁,?_,hrow⟩
      rw [hmembers]
      exact mem_put.mpr (.inr ⟨hq₁,he⟩)
  · rw [husers]
    exact h.users
  · rw [husers]
    exact h.newcomers
  · intro q hq hqorg u hu huser hlisted
    rw [hmembers] at hq
    rw [husers] at hu
    rcases mem_put.mp hq with rfl|⟨hq,-⟩
    · exact hsteady m q hsame htype hstatus (h.fit m hm horg u hu (huser.trans hsame.user) hlisted)
    · exact h.fit q hq hqorg u hu huser hlisted

/-- A row that is added. -/
theorem Importing.joins {role : MembershipType} {email : Text} {created created' : Bool} {user : User}
    (h : Importing Fit Listed org db db₁) (hjoined : Joined settings org role email created db₁ db' user m created')
    (hfit : Fit m) : Importing Fit Listed org db db' := by
  have hranged : InRange m := by
    rcases hjoined.status with hs|⟨hs,-⟩
    · exact inRange_of_status hs (by decide)
    · exact inRange_of_status hs (by decide)
  refine ⟨fun q hq => ?_,fun q hq => ?_,hjoined.policies.trans h.policies,fun user hu => ?_,fun q hq => ?_,
    fun u hu => hjoined.users u (h.users u hu),fun u hu => ?_,fun q hq hqorg u hu huser hlisted => ?_⟩
  · rcases (hjoined.members q).mp hq with hq|rfl
    · exact h.rows q hq
    · exact .inr ⟨hjoined.row.2.1,.inr (.inl hfit)⟩
  · rcases (hjoined.members q).mp hq with hq|rfl
    · exact h.ranged q hq
    · exact hranged
  · obtain ⟨f,hf,hboth⟩ := h.factors user hu
    refine ⟨f,?_,hboth⟩
    rw [hjoined.factors]
    exact hf
  · obtain ⟨q₁,hq₁,hrow⟩ := h.kept q hq
    exact ⟨q₁,(hjoined.members q₁).mpr (.inl hq₁),hrow⟩
  · rcases hjoined.newcomers u hu with hu|hnone
    · exact h.newcomers u hu
    · exact .inr hnone
  · rcases (hjoined.members q).mp hq with hq|rfl
    -- The account of a row that was there before was there before.
    · obtain ⟨v,hv,hvq⟩ := user_of_member hq
      have hsame : u=v := eq_of_key db'.user_nodup hu (hjoined.users v hv) (huser.trans hvq.symm)
      subst hsame
      exact h.fit q hq hqorg u hv huser hlisted
    · exact hfit

/-- The account of a listed address without a membership. -/
theorem ends_importedUser {email : Text}
    (hnone : ∀ u∈db.users,u.email=settings.toLowercase email → ∀ q∈db.members,q.userUuid=u.uuid → q.orgUuid≠org) :
    Ends (importedUser settings out email) db fun r db' =>
      (∀ user created',r=.ok (user,created') → Invitee settings org email false db db' user
        (if settings.mailEnabled=true ∨ user.passwordHash=[] then Invited else Accepted) created') ∧
      ((∃ e,r=.error e) → Removes (fun _ => False) db db') := by
  have hrefused : ∀ (e : String) (db' : Database),Removes (fun _ => False) db db' →
      (∀ user created',(.error e : Except String (User×Bool))=.ok (user,created') → Invitee settings org email false db
        db' user (if settings.mailEnabled=true ∨ user.passwordHash=[] then Invited else Accepted) created') ∧
      ((∃ e',(.error e : Except String (User×Bool))=.error e') → Removes (fun _ => False) db db') :=
    fun e db' h => ⟨(fun _ _ h => by cases h),fun _ => h⟩
  unfold importedUser User.findByMail
  refine ends_lookup ?_
  cases hfound : db.users.find? fun u => u.email=settings.toLowercase email with
  | some u =>
    have hemail := List.find?_some hfound
    rw [decide_eq_true_eq] at hemail
    have hu := List.mem_of_find?_eq_some hfound
    refine ⟨fun user created' heq => ?_,fun ⟨e,he⟩ => by cases he⟩
    cases heq
    refine ⟨rfl,rfl,rfl,fun _ hv => hv,fun _ hv => .inl hv,⟨hu,hemail⟩,?_,.inl ⟨hu,rfl,hnone u hu hemail⟩⟩
    split
    · exact .inl rfl
    · rename_i hnot
      rw [not_or,Bool.not_eq_true] at hnot
      exact .inr ⟨rfl,hnot⟩
  | none =>
    refine ends_getUuid (ends_getUuid ?_)
    have hnew : ∀ v∈db.drawn.drawn.users,v.uuid≠db.next := fun v hv => Nat.ne_of_lt (db.valid.2.2.1 v hv)
    refine (ends_newUser (u:=User.new db.next db.drawn.next out.randomBytes
      settings.passwordIterations (settings.toLowercase email) none) hnew).bind (fun _ db₁ h₁ => ?_) fun e db₁ h₁ => ?_
    · obtain ⟨hmembers,hpolicies,hfactors,husers,hnew₁,hu,hnobody⟩ := h₁.1 rfl
      have hsame : ∀ db',core db'=core db₁ → Removes (fun _ => False) db db' := by
        intro db' h'
        obtain ⟨hmembers',-,hpolicies',hfactors',-⟩ := core_cases h'
        exact removes_of_same (hmembers'.trans hmembers) (hpolicies'.trans hpolicies) (hfactors'.trans hfactors)
      refine ends_core frames_inviteByTable (fun _ db₂ h₂ => ?_) fun e db₂ h₂ => hrefused e db₂ (hsame db₂ h₂)
      obtain ⟨hmembers₂,-,hpolicies₂,hfactors₂,husers₂⟩ := core_cases h₂
      refine Ends.pure ⟨fun user created' heq => ?_,fun ⟨e,he⟩ => by cases he⟩
      cases heq
      refine ⟨hmembers₂.trans hmembers,hpolicies₂.trans hpolicies,hfactors₂.trans hfactors,fun v hv => ?_,
        fun v hv => ?_,⟨?_,rfl⟩,.inl (if_pos (.inr rfl)),
        .inr ⟨rfl,if_pos (.inr rfl),fun v hv hemail => ?_,fun q hq => hnobody q hq⟩⟩
      · rw [husers₂]
        exact husers v hv
      · rw [husers₂] at hv
        rcases hnew₁ v hv with hv|rfl
        · exact .inl hv
        · exact .inr rfl
      · rw [husers₂]
        exact hu
      · rw [List.find?_eq_none] at hfound
        exact hfound v hv (decide_eq_true hemail)
    · refine hrefused e db₁ ?_
      rw [h₁.2 ⟨e,rfl⟩]
      exact removes_of_core rfl

/-- A listed address gets an account and a membership. -/
theorem ends_inviteListed {orgEmail : Text} {data : OrgImportUserData} {Q : Unit → Database → Prop}
    {E : String → Database → Prop}
    (hnone : ∀ u∈db.users,u.email=settings.toLowercase data.email →
      ∀ q∈db.members,q.userUuid=u.uuid → q.orgUuid≠org)
    (hjoined : ∀ db' user m created',Joined settings org .user data.email false db db' user m created' → Q () db')
    (hfailed : ∀ e db',Dropped settings out org .user data.email false db db' → E e db') :
    Ends (inviteListed settings out org orgEmail data) db (Either Q E) := by
  unfold inviteListed
  refine (ends_importedUser hnone).bind (fun ⟨user,created⟩ db₁ h₁ => ?_) fun e db₁ h₁ =>
    hfailed e db₁ (.inl (h₁.2 ⟨e,rfl⟩))
  have hinvitee := h₁.1 user created rfl
  have hquiet : ∀ db₂ : Database,core db₂=core db₁ → Removes (fun _ => False) db db₂ := by
    intro db₂ h₂
    obtain ⟨hmembers,-,hpolicies,hfactors,-⟩ := core_cases h₂
    exact removes_of_same (hmembers.trans hinvitee.members) (hpolicies.trans hinvitee.policies)
      (hfactors.trans hinvitee.factors)
  refine ends_lookup (Ends.expect (fun o _ => ?_) fun _ => hfailed _ db₁ (.inl (hquiet db₁ rfl)))
  refine ends_getUuid (ends_update_cases (fun db₂ h₂ => ?_) (hfailed _ _ (.inl (hquiet db₁.drawn rfl))))
  have hrow : Joined settings org .user data.email false db db₂ user
      {(setExternalId (ServerTables.Membership.new db₁.next user.uuid org (some orgEmail)) data.externalId).1 with
        accessAll := false, atype := .user,
        status := if settings.mailEnabled=true ∨ user.passwordHash=[] then Invited else Accepted} created := by
    refine hinvitee.joined ⟨?_,?_,rfl⟩ rfl ?_ h₂
    · exact (setExternalId_same _ _).2.1
    · exact (setExternalId_same _ _).2.2.1
    · exact (setExternalId_same _ _).1
  refine ends_mailInvite.mono fun r db₃ h₃ => ?_
  cases r with
  | ok u =>
    rw [(h₃.1 rfl).1]
    exact hjoined db₂ user _ created hrow
  | error e => exact hfailed e db₃ (.inr ⟨db₂,user,_,created,hrow,h₃.2⟩)

/-- A changed row is saved. -/
theorem Importing.saveChanged {changed : Bool} (h : Importing Fit Listed org db db₁) (hsteady : Steady Fit)
    (hm : m∈db₁.members) (horg : m.orgUuid=org) (hturns : Turns Fit m m') :
    Ends (saveChanged m' changed) db₁
      (Either (fun _ => Importing Fit Listed org db) fun _ => Imported Fit org db) := by
  unfold DirectoryImport.saveChanged
  split
  · exact ends_update_end (fun db' heq => h.saves hsteady hm horg hturns heq) h.imported
  · exact h

/-- A member that left the directory. -/
theorem Importing.revokeListed {data : OrgImportUserData} (h : Importing Fit Listed org db db₁)
    (hsteady : Steady Fit) (hm : m∈db₁.members) (horg : m.orgUuid=org) :
    Ends (revokeListed org data m) db₁
      (Either (fun _ => Importing Fit Listed org db) fun _ => Imported Fit org db) := by
  unfold DirectoryImport.revokeListed
  refine ends_read frames_mayGo (fun may => ?_) fun _ => h.imported
  refine h.saveChanged hsteady hm horg (Turns.setExternalId ?_ hsteady _)
  split
  · exact turns_revoke (h.ranged m hm)
  · exact Turns.refl (h.ranged m hm)

/-- What an import asks of the rows it starts from. -/
structure Ready (Fit : Membership → Prop) (Listed : Text → Prop) (settings : Settings) (org : Uuid)
    (db : Database) : Prop where
  /-- The kind of requirement. -/
  steady : Steady Fit
  /-- Invited members need nothing. -/
  invited : ∀ m,m.status=Invited → Fit m
  /-- Statuses. -/
  ranged : Ranged db
  /-- Members of listed addresses. -/
  members : ∀ q∈db.members,q.orgUuid=org → ∀ u∈db.users,u.uuid=q.userUuid → Listed u.email → Fit q
  /-- Accounts that are accepted at once. -/
  accounts : settings.mailEnabled=false → ∀ u∈db.users,u.passwordHash≠[] → Listed u.email →
    (∀ q∈db.members,q.userUuid=u.uuid → q.orgUuid≠org) → ∀ m : Membership,m.userUuid=u.uuid → m.orgUuid=org →
      m.atype=.user → m.status=Accepted → Fit m

/-- `Membership::find_by_email_and_org`. -/
theorem ends_findByEmail {email : Text} : Ends (Membership.findByEmailAndOrg settings email org) db fun r db' =>
    db'=db ∧ ∃ found,r=.ok found ∧
      (∀ m,found=some m → m∈db.members ∧ m.orgUuid=org ∧
        ∃ u∈db.users,u.uuid=m.userUuid ∧ u.email=settings.toLowercase email) ∧
      (found=none → ∀ u∈db.users,u.email=settings.toLowercase email →
        ∀ q∈db.members,q.userUuid=u.uuid → q.orgUuid≠org) := by
  unfold Membership.findByEmailAndOrg User.findByMail
  refine ends_lookup ?_
  cases hfound : db.users.find? fun u => u.email=settings.toLowercase email with
  | some u =>
    have hu := List.mem_of_find?_eq_some hfound
    have hemail := List.find?_some hfound
    rw [decide_eq_true_eq] at hemail
    refine ⟨rfl,_,rfl,fun m hm => ?_,fun hnone v hv hvemail q hq huser horg => ?_⟩
    · have hrow := List.find?_some hm
      rw [decide_eq_true_eq] at hrow
      exact ⟨List.mem_of_find?_eq_some hm,hrow.2,u,hu,hrow.1.symm,hemail⟩
    · have hsame : v=u := eq_of_key db.email_nodup hv hu (hvemail.trans hemail.symm)
      subst hsame
      rw [List.find?_eq_none] at hnone
      exact hnone q hq (decide_eq_true ⟨huser,horg⟩)
  | none =>
    refine ⟨rfl,none,rfl,(fun m hm => by cases hm),fun _ u hu hemail => ?_⟩
    rw [List.find?_eq_none] at hfound
    exact absurd (decide_eq_true hemail) (hfound u hu)

/-- One member of the import. -/
theorem Importing.importMember {orgEmail : Text} {data : OrgImportUserData} (hready : Ready Fit Listed settings org db)
    (hlisted : data.deleted=false → Listed (settings.toLowercase data.email)) (h : Importing Fit Listed org db db₁) :
    Ends (importMember settings out org orgEmail data) db₁
      (Either (fun _ => Importing Fit Listed org db) fun _ => Imported Fit org db) := by
  unfold DirectoryImport.importMember
  refine (ends_findByEmail).bind (fun found db₂ hfound => ?_) fun e db₂ ⟨_,_,he,_⟩ => by cases he
  obtain ⟨rfl,_,heq,hsome,hnone⟩ := hfound
  cases heq
  cases found with
  | some m =>
    obtain ⟨hm,horg,u,hu,huser,hemail⟩ := hsome m rfl
    dsimp only
    split
    · exact h.revokeListed hready.steady hm horg
    · rename_i hdeleted
      rw [Bool.not_eq_true] at hdeleted
      have hfit : Fit m := by
        refine h.fit m hm horg u hu huser ?_
        rw [hemail]
        exact hlisted hdeleted
      have hturns := turns_restore hready.steady (h.ranged m hm) hfit
      exact h.saveChanged hready.steady hm horg (hturns.setExternalId hready.steady _)
  | none =>
    dsimp only
    split
    · exact h
    rename_i hdeleted
    rw [Bool.not_eq_true] at hdeleted
    have hjoins : ∀ db' user m created',Joined settings org .user data.email false db₂ db' user m created' →
        Importing Fit Listed org db db' := by
      intro db' user m created' hjoined
      refine h.joins hjoined ?_
      rcases hjoined.status with hs|⟨hs,hmail,hpassword⟩
      · exact hready.invited m hs
      -- An account with a password was there before the import.
      · have hu : user∈db₂.users := by
          rcases hjoined.origin with ⟨hu,-⟩|⟨-,hs',-⟩
          · exact hu
          · exact absurd (hs.symm.trans hs') (by decide)
        have hold : user∈db.users := (h.newcomers user hu).resolve_right hpassword
        refine hready.accounts hmail user hold hpassword ?_ (fun q hq huser horg => ?_) m hjoined.row.1 hjoined.row.2.1
          hjoined.row.2.2 hs
        · rw [hjoined.account.2]
          exact hlisted hdeleted
        · obtain ⟨q',hq',hrow⟩ := h.kept q hq
          exact hnone rfl user hu hjoined.account.2 q' hq' (hrow.user.trans huser) (hrow.org.trans horg)
    refine ends_inviteListed (hnone rfl) hjoins fun e db' hdropped => ?_
    rcases hdropped with hquiet|⟨db₁,user,m,created',hjoined,hremoved⟩
    · exact h.imported.removes hquiet
    · exact (hjoins db₁ user m created' hjoined).imported.removes hremoved

/-- Members that are not listed are removed. -/
theorem Imported.removeUnlisted {listed : List Text} (h : Imported Fit org db db₁) :
    Ends (removeUnlisted org listed) db₁ fun _ db' => Imported Fit org db db' := by
  unfold DirectoryImport.removeUnlisted
  refine ends_lookup ((Ends.each (J:=fun _ => Imported Fit org db) (E:=fun _ => Imported Fit org db)
    (fun m ms db₂ h₂ => ?_) h).mono fun r db' h' => ?_)
  · split
    · refine ends_read frames_mayGo (fun may => ?_) fun _ => h₂
      split
      · exact ends_deleteMember.mono fun r db₃ h₃ => by cases r <;> exact h₂.removes h₃.1
      · exact h₂
    · exact h₂
  · cases r <;> exact h'

/-- An address that the directory lists. -/
def listed (settings : Settings) (data : OrgImportData) (email : Text) : Prop :=
  ∃ d∈data.members,d.deleted=false ∧ settings.toLowercase d.email=email

/-- `ldap_import`. -/
theorem ends_ldapImport {orgEmail : Text} {data : OrgImportData}
    (hready : Ready Fit (listed settings data) settings org db) :
    Ends (ldapImport settings out org orgEmail data) db fun _ db' => Imported Fit org db db' := by
  unfold ldapImport
  refine (Ends.each (J:=fun ds db' => (∀ d∈ds,d∈data.members) ∧ Importing Fit (listed settings data) org db db')
    (E:=fun _ => Imported Fit org db) (fun d ds db₁ ⟨hds,h₁⟩ => ?_)
    ⟨fun _ hd => hd,Importing.refl hready.ranged hready.members⟩).bind (fun _ db₁ h₁ => ?_) fun e db₁ h₁ => h₁
  · have hlisted : d.deleted=false → listed settings data (settings.toLowercase d.email) := fun hdeleted =>
      ⟨d,hds d List.mem_cons_self,hdeleted,rfl⟩
    refine (h₁.importMember hready hlisted).mono fun r db₂ h₂ => ?_
    cases r with
    | ok u => exact ⟨fun d' hd' => hds d' (List.mem_cons_of_mem d hd'),h₂⟩
    | error e => exact h₂
  have hmembers : Imported Fit org db db₁ := h₁.2.imported
  refine ends_core (Frames.each fun g _ => frames_importGroup) (fun _ db₂ h₂ => ?_) fun e db₂ h₂ => hmembers.core h₂
  split
  · exact (hmembers.core h₂).removeUnlisted
  · exact hmembers.core h₂

end Imports

end NadSafe.ImportWrites
