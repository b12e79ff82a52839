import NadSafe.CoreFrames
import NadSafe.EmergencyRuns
import NadSafe.FactorRows
import NadSafe.GuardedScript
import NadSafe.StepRuns

/-!
# Accounts and their addresses

Accounts are looked up by their address in lowercase. New accounts have it in
lowercase, whoever invites them. A change of an address stores what the client
sends, so an account can be found only as long as accepted changes name an
address in lowercase.
-/

namespace NadSafe.AddressRuns

open HostText TableRows AsyncScript AsyncScript.Script ServerTables StoreScript ServerModels OrgHandlers
open SecondFactors AccountHandlers EmergencyHandlers DirectoryImport RelyScript GuardedScript PlannedScript
open CoreFrames FactorRows StepRuns TableWrites
open CipherHandlers (headers)

/-- What stores addresses. -/
inductive Operation where
  /-- `send_invite` of an organisation. -/
  | sendInvite (out : Outside) (caller org : Uuid) (emails : List Text) (data : MemberData)
  /-- `ldap_import`. -/
  | ldapImport (out : Outside) (org : Uuid) (orgEmail : Text) (data : OrgImportData)
  /-- `invite_user`. -/
  | inviteUser (out : Outside) (email : Text)
  /-- `send_invite` of emergency access. -/
  | inviteContact (out : Outside) (caller : Uuid) (email : Text) (type : NumberOrString) (waitTimeDays : ℤ)
  /-- `post_email_token`. -/
  | postEmailToken (token : Text) (caller : Uuid) (masterPasswordHash newEmail : Text)
  /-- `post_email`. -/
  | postEmail (caller : Uuid) (data : ChangeEmailData)

/-- The handler of an operation. -/
def Operation.body (settings : AccountSettings) : Operation → Action Unit
  | .sendInvite out caller org emails data =>
    OrgHandlers.sendInvite settings.toSettings out caller org emails data
  | .ldapImport out org orgEmail data => DirectoryImport.ldapImport settings.toSettings out org orgEmail data
  | .inviteUser out email => AccountHandlers.inviteUser settings.toSettings out email
  | .inviteContact out caller email type days =>
    EmergencyHandlers.sendInvite settings out caller email type days
  | .postEmailToken token caller password newEmail =>
    AccountHandlers.postEmailToken settings token caller password newEmail
  | .postEmail caller data => AccountHandlers.postEmail settings caller data

/-- The database after an operation. -/
def step (settings : AccountSettings) (db : Database) (op : Operation) : Database :=
  (complete (op.body settings) db).2

/-- Every address is its own lowercase form. -/
def Lowercase (settings : Settings) (db : Database) : Prop :=
  ∀ u∈db.users,settings.toLowercase u.email=u.email

/-- Every account can be found by its address. -/
structure Reachable (settings : Settings) (db : Database) : Prop where
  /-- Addresses are in lowercase. -/
  lower : Lowercase settings db
  /-- No two accounts share one. -/
  nodup : (db.users.map User.email).Nodup
  /-- Whatever has this lowercase form finds the account. -/
  found : ∀ u∈db.users,∀ s,settings.toLowercase s=u.email →
    (complete (User.findByMail settings s) db).1=.ok (some u)

/-- The checks of a change that come before the new address is stored. -/
structure Accepts (settings : AccountSettings) (caller : Uuid) (data : ChangeEmailData) (db : Database)
    (user : User) : Prop where
  /-- It is the caller's account. -/
  row : user∈db.users ∧ user.uuid=caller
  /-- Changes are allowed. -/
  allowed : settings.emailChangeAllowed=true
  /-- The password is the caller's. -/
  password : User.checkValidPassword settings.toFactorSettings user data.masterPasswordHash=true
  /-- No account has the address. -/
  free : ∀ u∈db.users,u.email≠settings.toLowercase data.newEmail
  /-- The change is pending. -/
  pending : data.matchPending user=.ok ()
  /-- The token is the one that was mailed. -/
  token : data.matchToken settings user=.ok ()
  /-- The address is well formed. -/
  valid : settings.isValidEmail data.newEmail=true

/-- An accepted change names an address in lowercase. -/
def Fair (settings : AccountSettings) (db : Database) : Operation → Prop
  | .postEmail caller data => (∃ user,Accepts settings caller data db user) →
    settings.toLowercase data.newEmail=data.newEmail
  | _ => True

/-- Addresses are old or in lowercase. -/
def Normal (settings : Settings) (db db' : Database) : Prop :=
  ∀ u∈db'.users,settings.toLowercase u.email=u.email ∨ ∃ v∈db.users,v.email=u.email

section Invitations

variable {settings : Settings} {out : Outside} {org : Uuid}

theorem normal_of_same {db db' : Database} (h : db'.users=db.users) : Normal settings db db' :=
  fun u hu => .inr ⟨u,h ▸ hu,rfl⟩

theorem normal_refl (db : Database) : Normal settings db db := normal_of_same rfl

theorem normal_trans (a b c : Database) (h : Normal settings a b) (h' : Normal settings b c) :
    Normal settings a c := by
  intro u hu
  rcases h' u hu with hlower|⟨v,hv,hemail⟩
  · exact .inl hlower
  · rw [← hemail]
    exact h v hv

/-- What leaves the accounts alone. -/
theorem guards_core {α : Type} {p : Action α} (h : Frames exec core p) : Guards exec (Normal settings) p :=
  guards_of_frames (fun db db' heq => normal_of_same (core_cases heq).2.2.2.2) h

theorem guards_same {message : String} {f : Tables → Tables} (h : ∀ t,(f t).users=t.users) :
    Guards exec (Normal settings) (update message f) := by
  refine Guards.execute normal_refl fun db db' hc => normal_of_same ?_
  rw [commit_eq hc]
  exact h db.toTables

theorem guards_lookup {α : Type} (f : Tables → α) : Guards exec (Normal settings) (lookup f) :=
  Guards.query normal_refl _

/-- An account is saved whose address is in lowercase. -/
theorem guards_saveUser {u : User} (h : settings.toLowercase u.email=u.email) :
    Guards exec (Normal settings) (User.save settings u) := by
  refine Guards.ite (fun _ => Guards.execute normal_refl fun db db' hc v hv => ?_) fun _ => Guards.throw _
  rw [commit_eq hc] at hv
  rcases mem_put.mp hv with rfl|⟨hv,-⟩
  · exact .inl h
  · exact .inr ⟨v,hv,rfl⟩

theorem guards_deleteMember {m : Membership} : Guards exec (Normal settings) (Membership.delete m) :=
  Guards.bind (guards_core frames_deleteGrants) fun _ =>
    Guards.bind (guards_core (frames_deletePlaces _)) fun _ => guards_same fun _ => rfl

/-- A deleted account has no address. -/
theorem guards_deleteUser {u : User} : Guards exec (Normal settings) (User.delete settings u) := by
  unfold User.delete
  refine Guards.bind (guards_lookup _) fun confirmed => ?_
  refine Guards.bind (Guards.each fun m _ => guards_core frames_otherOwner) fun _ => ?_
  refine Guards.bind (guards_core frames_deleteSends) fun _ => ?_
  refine Guards.bind (guards_core frames_deleteEmergencyAccess) fun _ => ?_
  refine Guards.bind (Guards.bind (guards_lookup _) fun _ => Guards.each fun m _ => guards_deleteMember) fun _ => ?_
  refine Guards.bind (guards_core frames_deleteCiphers) fun _ => Guards.bind (guards_same fun _ => rfl) fun _ => ?_
  refine Guards.bind (guards_core frames_deleteFolders) fun _ => Guards.bind (guards_same fun _ => rfl) fun _ => ?_
  refine Guards.bind (guards_same fun _ => rfl) fun _ => ?_
  refine Guards.bind (guards_core frames_takeInvitation) fun _ => ?_
  refine Guards.execute normal_refl fun db db' hc v hv => .inr ⟨v,?_,rfl⟩
  rw [commit_eq hc] at hv
  exact List.mem_of_mem_filter hv

/-- A failed mail deletes the account or the membership. -/
theorem guards_mailInvite {created : Bool} {u : User} {m : Membership} :
    Guards exec (Normal settings) (mailInvite settings out created u m) := by
  refine Guards.ite (fun _ => ?_) fun _ => Guards.pure _
  refine Guards.bind (guards_lookup _) fun _ => Guards.bind (Guards.expect _ _) fun _ => ?_
  refine Guards.ite (fun _ => Guards.pure _) fun _ => ?_
  exact Guards.ite (fun _ => Guards.bind guards_deleteUser fun _ => Guards.throw _) fun _ =>
    Guards.bind guards_deleteMember fun _ => Guards.throw _

variable (hidem : ∀ s,settings.toLowercase (settings.toLowercase s)=settings.toLowercase s)
include hidem

/-- The account of an invited address. -/
theorem guards_invitedUser {created : Bool} {email : Text} :
    Guards exec (Normal settings) (invitedUser settings out org created email) := by
  refine Guards.bind (guards_lookup _) fun found => ?_
  cases found with
  | some u =>
    exact Guards.bind (guards_lookup _) fun _ => Guards.bind (Guards.ensure _ _) fun _ => Guards.pure _
  | none =>
    refine Guards.bind (Guards.ensure _ _) fun _ => Guards.bind (Guards.ensure _ _) fun _ => ?_
    refine Guards.bind (guards_core frames_inviteByTable) fun _ => ?_
    refine Guards.bind (guards_core frames_draw) fun uuid => Guards.bind (guards_core frames_draw) fun stamp => ?_
    exact Guards.bind (guards_saveUser (hidem email)) fun _ => Guards.pure _

/-- By induction on the addresses. -/
theorem guards_inviteAll {inviter : Text} {newType : MembershipType} {accessAll : Bool} {data : MemberData}
    {emails : List Text} (created : Bool) :
    Guards exec (Normal settings) (inviteAll settings out org inviter newType accessAll data created emails) := by
  induction emails generalizing created with
  | nil => exact Guards.pure _
  | cons email emails ih =>
    refine Guards.bind (guards_invitedUser hidem) fun (user,status,created) => ?_
    refine Guards.bind (guards_core frames_draw) fun uuid => ?_
    refine Guards.bind (guards_same fun _ => rfl) fun _ => Guards.bind guards_mailInvite fun _ => ?_
    refine Guards.bind (guards_core frames_grantMember) fun _ => ?_
    exact Guards.bind (Guards.each fun g _ => guards_core (frames_savePlace _)) fun _ => ih created

theorem guards_sendInvite {caller : Uuid} {emails : List Text} {data : MemberData} :
    Guards exec (Normal settings) (OrgHandlers.sendInvite settings out caller org emails data) := by
  refine Guards.bind (guards_core frames_adminHeaders) fun h => ?_
  refine Guards.bind (guards_core frames_validate) fun _ => Guards.bind (Guards.expect _ _) fun newType => ?_
  exact Guards.bind (Guards.ensure _ _) fun _ => guards_inviteAll hidem false

/-- One member of an import. -/
theorem guards_importMember {orgEmail : Text} {data : OrgImportUserData} :
    Guards exec (Normal settings) (importMember settings out org orgEmail data) := by
  have hsave : ∀ m changed,Guards exec (Normal settings) (saveChanged m changed) := fun m changed =>
    Guards.ite (fun _ => guards_same fun _ => rfl) fun _ => Guards.pure _
  have hinvited : Guards exec (Normal settings) (importedUser settings out data.email) := by
    refine Guards.bind (guards_lookup _) fun found => ?_
    cases found with
    | some u => exact Guards.pure _
    | none =>
      refine Guards.bind (guards_core frames_draw) fun uuid => Guards.bind (guards_core frames_draw) fun stamp => ?_
      refine Guards.bind (guards_saveUser (hidem data.email)) fun _ => ?_
      exact Guards.bind (guards_core frames_inviteByTable) fun _ => Guards.pure _
  refine Guards.bind (guards_core frames_findByEmail) fun found => ?_
  cases found with
  | some m =>
    refine Guards.ite (fun _ => ?_) fun _ => hsave _ _
    exact Guards.bind (guards_core frames_mayGo) fun may => hsave _ _
  | none =>
    refine Guards.ite (fun _ => Guards.pure _) fun _ => Guards.bind hinvited fun (user,created) => ?_
    refine Guards.bind (guards_lookup _) fun _ => Guards.bind (Guards.expect _ _) fun _ => ?_
    refine Guards.bind (guards_core frames_draw) fun uuid => ?_
    exact Guards.bind (guards_same fun _ => rfl) fun _ => guards_mailInvite

theorem guards_ldapImport {orgEmail : Text} {data : OrgImportData} :
    Guards exec (Normal settings) (DirectoryImport.ldapImport settings out org orgEmail data) := by
  refine Guards.bind (Guards.each fun m _ => guards_importMember hidem) fun _ => ?_
  refine Guards.bind (Guards.each fun g _ => guards_core frames_importGroup) fun _ => ?_
  refine Guards.ite (fun _ => Guards.bind (guards_lookup _) fun members => ?_) fun _ => Guards.pure _
  refine Guards.each fun m _ => Guards.ite (fun _ => ?_) fun _ => Guards.pure _
  refine Guards.bind (guards_core frames_mayGo) fun may => ?_
  exact Guards.ite (fun _ => guards_deleteMember) fun _ => Guards.pure _

theorem guards_inviteUser {email : Text} :
    Guards exec (Normal settings) (AccountHandlers.inviteUser settings out email) := by
  refine Guards.bind (guards_lookup _) fun existing => Guards.bind (Guards.ensure _ _) fun _ => ?_
  refine Guards.bind (guards_core frames_draw) fun uuid => Guards.bind (guards_core frames_draw) fun stamp => ?_
  have hsave := guards_saveUser (u:=User.new uuid stamp out.randomBytes settings.passwordIterations
    (settings.toLowercase email) none) (hidem email)
  dsimp only
  split
  · exact Guards.bind (Guards.ensure _ _) fun _ => hsave
  · exact Guards.bind (guards_core frames_invitation) fun _ => hsave

end Invitations

section Contacts

variable {settings : AccountSettings} {out : Outside} {caller : Uuid} {email : Text}

theorem guards_acceptContact {e : EmergencyAccess} {grantee : Uuid} :
    Guards exec (Normal settings.toSettings) (EmergencyAccess.acceptInvite e grantee email) :=
  Guards.bind (Guards.ensure _ _) fun _ => Guards.bind (Guards.ensure _ _) fun _ => guards_same fun _ => rfl

/-- The account of an invited contact. -/
theorem guards_invitedGrantee (hidem : ∀ s,settings.toLowercase (settings.toLowercase s)=settings.toLowercase s) :
    Guards exec (Normal settings.toSettings) (invitedGrantee settings out email) := by
  refine Guards.bind (guards_lookup _) fun found => ?_
  cases found with
  | some u => exact Guards.pure _
  | none =>
    refine Guards.bind (Guards.ensure _ _) fun _ => Guards.bind (Guards.ensure _ _) fun _ => ?_
    refine Guards.bind (guards_core frames_inviteByTable) fun _ => ?_
    refine Guards.bind (guards_core frames_draw) fun uuid => Guards.bind (guards_core frames_draw) fun stamp => ?_
    exact Guards.bind (guards_saveUser (hidem email)) fun _ => Guards.pure _

theorem guards_inviteContact (hidem : ∀ s,settings.toLowercase (settings.toLowercase s)=settings.toLowercase s)
    {type : NumberOrString} {days : ℤ} : Guards exec (Normal settings.toSettings)
      (EmergencyHandlers.sendInvite settings out caller email type days) := by
  refine Guards.bind (Guards.bind (guards_lookup _) fun _ => Guards.expect _ _) fun grantor => ?_
  refine Guards.bind (Guards.ensure _ _) fun _ => Guards.bind (Guards.expect _ _) fun atype => ?_
  refine Guards.bind (Guards.ensure _ _) fun _ => ?_
  refine Guards.bind (guards_invitedGrantee hidem) fun (grantee,newUser) => ?_
  refine Guards.bind (guards_lookup _) fun _ => Guards.bind (Guards.ensure _ _) fun _ => ?_
  refine Guards.bind (guards_core frames_draw) fun uuid => Guards.bind (guards_same fun _ => rfl) fun _ => ?_
  refine Guards.ite (fun _ => Guards.ensure _ _) fun _ => ?_
  exact Guards.ite (fun _ => guards_acceptContact) fun _ => Guards.pure _

end Contacts

section Changes

variable {settings : AccountSettings} {caller : Uuid} {db : Database}

/-- The end of a handler that saves an account. -/
theorem ends_saveUser {u : User} {P : Except String Unit → Database → Prop}
    (h : settings.isValidEmail u.email=true → ∀ db',db'.users=put User.uuid u db.users → P (.ok ()) db')
    (hrefused : ∀ e,P (.error e) db) : Ends (User.save settings.toSettings u) db P := by
  unfold User.save
  split
  · rename_i hvalid
    refine ends_update_end (fun db' hdb' => h hvalid db' ?_) (hrefused _)
    rw [hdb']
  · exact hrefused _

/-- A new password leaves the stored accounts and the address. -/
theorem ends_setPassword {settings : FactorSettings} {u : User} {password : Text} {key : Option Text}
    {reset : Bool} {routes : Option (List Text)} :
    Ends (User.setPassword settings u password key reset routes) db
      fun r db' => db'.users=db.users ∧ ∀ v,r=.ok v → v.email=u.email := by
  have hemail : ∀ now v,(User.setStampException routes now v).email=v.email := by
    intro now v
    unfold User.setStampException
    split <;> rfl
  unfold User.setPassword
  refine ends_utcNow ?_
  dsimp only
  split
  · refine ends_getUuid ?_
    have hrotate : ∀ user,Frames exec core (Device.rotateRefreshTokensByUser user) := fun _ =>
      Frames.bind (frames_lookup _) fun _ => Frames.each fun d _ => Frames.bind frames_draw fun _ =>
        frames_core fun _ => ⟨rfl,rfl,rfl,rfl,rfl⟩
    refine (ends_frames (hrotate _)).bind (fun _ db' h => ?_) fun e db' h => ?_
    · refine ⟨(core_cases h).2.2.2.2,fun v hv => ?_⟩
      cases hv
      exact hemail _ _
    · exact ⟨(core_cases h).2.2.2.2,(fun v hv => by cases hv)⟩
  · refine ⟨rfl,fun v hv => ?_⟩
    cases hv
    exact hemail _ _

/-- A saved account with an address in lowercase, or an old one. -/
theorem normal_put {db' : Database} {u : User} (h : db'.users=put User.uuid u db.users)
    (hu : settings.toLowercase u.email=u.email ∨ ∃ v∈db.users,v.email=u.email) :
    Normal settings.toSettings db db' := by
  intro v hv
  rw [h] at hv
  rcases mem_put.mp hv with rfl|⟨hv,-⟩
  · exact hu
  · exact .inr ⟨v,hv,rfl⟩

/-- A change that is asked for stores the address beside the old one. -/
theorem ends_postEmailToken {token password newEmail : Text} :
    Ends (AccountHandlers.postEmailToken settings token caller password newEmail) db
      fun _ db' => Normal settings.toSettings db db' := by
  have hrefused : Normal settings.toSettings db db := normal_refl db
  unfold AccountHandlers.postEmailToken
  refine ends_headers (fun u hu huuid => ?_) hrefused
  refine Ends.ensure (fun _ => ?_) fun _ => hrefused
  refine Ends.ensure (fun _ => ?_) fun _ => hrefused
  refine ends_lookup ?_
  refine Ends.ensure (fun _ => ?_) fun _ => hrefused
  refine Ends.ensure (fun _ => ?_) fun _ => hrefused
  exact ends_saveUser (fun _ db' h => normal_put h (.inr ⟨u,hu,rfl⟩)) fun _ => hrefused

/-- An accepted change stores the address that is sent. -/
theorem ends_postEmail {data : ChangeEmailData} (hfair : Fair settings db (.postEmail caller data)) :
    Ends (AccountHandlers.postEmail settings caller data) db
      fun _ db' => Normal settings.toSettings db db' := by
  have hrefused : Normal settings.toSettings db db := normal_refl db
  unfold AccountHandlers.postEmail
  refine ends_headers (fun u hu huuid => ?_) hrefused
  refine Ends.ensure (fun hallowed => ?_) fun _ => hrefused
  refine Ends.ensure (fun hpassword => ?_) fun _ => hrefused
  refine ends_lookup ?_
  refine Ends.ensure (fun hnone => ?_) fun _ => hrefused
  refine ends_fromExcept (fun _ hpending => ?_) fun _ _ => hrefused
  refine ends_fromExcept (fun _ htoken => ?_) fun _ _ => hrefused
  have hfree : ∀ v∈db.users,v.email≠settings.toLowercase data.newEmail := by
    intro v hv heq
    rw [Option.isNone_iff_eq_none,List.find?_eq_none] at hnone
    exact hnone v hv (decide_eq_true heq)
  refine (ends_setPassword).bind (fun w db₁ h₁ => ?_) fun e db₁ h₁ => normal_of_same h₁.1
  obtain ⟨husers,hemail⟩ := h₁
  have haddress : w.email=data.newEmail := hemail w rfl
  refine ends_saveUser (fun hvalid db' h => normal_put (by rw [h,husers]) (.inl ?_)) fun _ => normal_of_same husers
  rw [haddress] at hvalid ⊢
  exact hfair ⟨u,⟨hu,huuid⟩,hallowed,hpassword,hfree,hpending,htoken,hvalid⟩

end Changes

section Runs

variable {settings : AccountSettings} {db : Database}

/-- A fair operation stores no other address. -/
theorem normal_step (hidem : ∀ s,settings.toLowercase (settings.toLowercase s)=settings.toLowercase s)
    {op : Operation} (hfair : Fair settings db op) : Normal settings.toSettings db (step settings db op) := by
  have hguarded : ∀ {p : Action Unit},Guards exec (Normal settings.toSettings) p →
      Normal settings.toSettings db (complete p db).2 := fun h => h.complete normal_refl normal_trans
  cases op with
  | sendInvite out caller org emails data => exact hguarded (guards_sendInvite hidem)
  | ldapImport out org orgEmail data => exact hguarded (guards_ldapImport hidem)
  | inviteUser out email => exact hguarded (guards_inviteUser hidem)
  | inviteContact out caller email type days => exact hguarded (guards_inviteContact hidem)
  | postEmailToken token caller password newEmail => exact ends_postEmailToken
  | postEmail caller data => exact ends_postEmail hfair

theorem lowercase_step (hidem : ∀ s,settings.toLowercase (settings.toLowercase s)=settings.toLowercase s)
    (op : Operation) (h : Lowercase settings.toSettings db) (hfair : Fair settings db op) :
    Lowercase settings.toSettings (step settings db op) := by
  intro u hu
  rcases normal_step hidem hfair u hu with hlower|⟨v,hv,hemail⟩
  · exact hlower
  · rw [← hemail]
    exact h v hv

/-- Addresses are distinct, so a lookup finds the account. -/
theorem reachable_of_lowercase (h : Lowercase settings.toSettings db) : Reachable settings.toSettings db := by
  refine ⟨h,db.email_nodup,fun u hu s hs => ?_⟩
  have hfound : (db.users.find? fun v => v.email=settings.toLowercase s)=some u := by
    rw [hs]
    exact find?_key db.email_nodup hu
  show Except.ok (db.users.find? fun v => v.email=settings.toLowercase s)=_
  rw [hfound]

/-- As long as accepted changes name addresses in lowercase, every account can
be found in every state that is reached. -/
theorem accounts_reachable (hidem : ∀ s,settings.toLowercase (settings.toLowercase s)=settings.toLowercase s)
    {start : Database} (hstart : Lowercase settings.toSettings start) {ops : List Operation}
    (hops : Admits (step settings) (Fair settings) start ops) :
    Reachable settings.toSettings (run (step settings) start ops) :=
  reachable_of_lowercase (run_invariant (fun _ op => lowercase_step hidem op) hstart hops)

end Runs

section Samples

/-- Lowercase for one letter. -/
def lowerA (s : Text) : Text := s.map fun c => if c= 'A' then 'a' else c

/-- Settings without mail. -/
def mailless : AccountSettings where
  toFactorSettings := {EmergencyRuns.trusting.toFactorSettings with toLowercase := lowerA}
  emailChangeAllowed := true
  emergencyAccessAllowed := true

/-- One account. -/
def oneAccount : Database := ⟨{Tables.none with
  users := [User.new 1 0 [] 600000 ['b'] none]
  next := 2},by decide⟩

/-- A change to an address is asked for and accepted. -/
def moves (address : Text) : List Operation :=
  [.postEmailToken ['1'] 1 [] address,.postEmail 1 ⟨[],address,[],[],.string []⟩]

/-- An account with an address in capitals cannot be found. -/
theorem account_unreachable :
    ¬Reachable mailless.toSettings (run (step mailless) oneAccount (moves ['A'])) := by
  intro h
  have hlower : ∀ u∈(run (step mailless) oneAccount (moves ['A'])).users,lowerA u.email=u.email := h.lower
  exact absurd hlower (by decide)

/-- A change to an address in lowercase. -/
theorem accounts_reachable_lowercase :
    Reachable mailless.toSettings (run (step mailless) oneAccount (moves ['a'])) := by
  have hidem : ∀ s,mailless.toLowercase (mailless.toLowercase s)=mailless.toLowercase s := by
    intro s
    show (s.map _).map _=s.map _
    rw [List.map_map]
    refine List.map_congr_left fun c _ => ?_
    show (if (if c= 'A' then 'a' else c)= 'A' then 'a' else if c= 'A' then 'a' else c)=if c= 'A' then 'a' else c
    split <;> simp_all
  exact accounts_reachable hidem (by unfold Lowercase; decide) ⟨trivial,fun _ => by decide,trivial⟩

end Samples

end NadSafe.AddressRuns
