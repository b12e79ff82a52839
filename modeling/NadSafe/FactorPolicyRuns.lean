import NadSafe.FactorWrites
import NadSafe.SingleOrgRuns

/-!
# The policy on second factors

Requests on members, policies and second factors, one at a time. Confirmed
members whose organisation requires a second factor have one. The exceptions
are a removal whose mail fails before the members are revoked, a new e-mail
factor that replaces the only one before it is verified, and the import.
-/

namespace NadSafe.FactorPolicyRuns

open HostText TableRows AsyncScript AsyncScript.Script ServerTables AccessQueries StoreScript ServerModels
open OrgHandlers DirectoryImport SecondFactors PolicyHandlers RelyScript PlannedScript TableWrites FactorRows
open CoreFrames MemberWrites ImportWrites MemberRequests FactorWrites StepRuns
open CipherHandlers (headers)

/-- A request. -/
inductive Request where
  /-- A request on members and policies. -/
  | member (op : Operation)
  /-- `activate_authenticator`. -/
  | activateAuthenticator (recoverCode : Text) (caller : Uuid) (key token : Text) (data : PasswordOrOtpData)
  /-- `email`. -/
  | email (recoverCode : Text) (caller : Uuid) (token : Text) (data : PasswordOrOtpData)
  /-- `generate_webauthn_challenge`. -/
  | generateWebauthnChallenge (state : Option Text) (caller : Uuid) (data : PasswordOrOtpData)
  /-- `activate_webauthn`. -/
  | activateWebauthn (recoverCode : Text) (caller : Uuid) (id : NumberOrString) (name deviceResponse : Text)
      (data : PasswordOrOtpData)
  /-- `delete_webauthn`. -/
  | deleteWebauthn (caller : Uuid) (id : NumberOrString) (masterPasswordHash : Text)
  /-- `activate_yubikey`. -/
  | activateYubikey (services : Services) (recoverCode : Text) (caller : Uuid) (keys : List (Option Text)) (nfc : Bool)
      (data : PasswordOrOtpData)
  /-- `activate_duo`. -/
  | activateDuo (services : Services) (recoverCode : Text) (caller : Uuid) (fields : EnableDuoData)
      (data : PasswordOrOtpData)
  /-- `send_email`. -/
  | sendEmail (token : Text) (delivered : Bool) (caller : Uuid) (email : Text) (data : PasswordOrOtpData)
  /-- `disable_authenticator`. -/
  | disableAuthenticator (out : Outside) (caller : Uuid) (key masterPasswordHash : Text) (type : NumberOrString)
  /-- `disable_twofactor`. -/
  | disableTwofactor (out : Outside) (caller : Uuid) (data : PasswordOrOtpData) (type : NumberOrString)
  /-- A login with a recovery code, after the password. -/
  | recover (out : Outside) (user : Uuid) (code : Text)
  /-- `remove_2fa`. -/
  | remove2fa (out : Outside) (user : Uuid)

/-- A login with a recovery code. -/
def recover (settings : FactorSettings) (out : Outside) (user : Uuid) (code : Text) : Action Unit := do
  let found ← User.findByUuid user
  let user ← expect "Username or password is incorrect. Try again" found
  twofactorAuthRecovery settings out user code

/-- The handler of a request. -/
def Request.body (settings : PolicySettings) : Request → Action Unit
  | .member op => op.body settings
  | .activateAuthenticator recoverCode caller key token data =>
    SecondFactors.activateAuthenticator settings.toFactorSettings recoverCode caller key token data
  | .email recoverCode caller token data => SecondFactors.email settings.toFactorSettings recoverCode caller token data
  | .generateWebauthnChallenge state caller data =>
    SecondFactors.generateWebauthnChallenge settings.toFactorSettings state caller data
  | .activateWebauthn recoverCode caller id name deviceResponse data =>
    SecondFactors.activateWebauthn settings.toFactorSettings recoverCode caller id name deviceResponse data
  | .deleteWebauthn caller id masterPasswordHash =>
    SecondFactors.deleteWebauthn settings.toFactorSettings caller id masterPasswordHash
  | .activateYubikey services recoverCode caller keys nfc data =>
    SecondFactors.activateYubikey settings.toFactorSettings services recoverCode caller keys nfc data
  | .activateDuo services recoverCode caller fields data =>
    SecondFactors.activateDuo settings.toFactorSettings services recoverCode caller fields data
  | .sendEmail token delivered caller address data =>
    SecondFactors.sendEmail settings.toFactorSettings token delivered caller address data
  | .disableAuthenticator out caller key masterPasswordHash type =>
    SecondFactors.disableAuthenticator settings.toFactorSettings out caller key masterPasswordHash type
  | .disableTwofactor out caller data type =>
    SecondFactors.disableTwofactor settings.toFactorSettings out caller data type
  | .recover out user code => FactorPolicyRuns.recover settings.toFactorSettings out user code
  | .remove2fa out user => SecondFactors.remove2fa settings.toFactorSettings out user

/-- The database after a request. -/
def step (settings : PolicySettings) (db : Database) (r : Request) : Database := (complete (r.body settings) db).2

/-- Members to whom the policy of their organisation applies have a factor. -/
def Equipped (db : Database) : Prop := ∀ m∈db.members,Subject db .twoFactorAuthentication m → HasFactor db m.userUuid

/-- All factors of the account are of one type. -/
def OnlyType (db : Database) (user : Uuid) (type : ℤ) : Prop :=
  ∀ f∈db.twofactor,f.userUuid=user → f.atype<1000 → f.atype=type

/-- The mail to a member who is to be revoked goes out. -/
def Delivers (settings : PolicySettings) (out : Outside) (db : Database) (u : User) : Prop :=
  Obliged db u.uuid → settings.mailEnabled=true → out.delivers u.email=true

/-- Nobody whose organisation requires a factor loses the last one while the
mail to him fails, or for a factor that is not verified yet, and nobody who
lacks a required one is restored by an import. -/
def Fair (settings : PolicySettings) (db : Database) : Request → Prop
  | .member (.ldapImport _ org _ data) => ∀ m∈db.members,m.orgUuid=org → ∀ u∈db.users,u.uuid=m.userUuid →
    listed settings.toSettings data u.email → Wakes m → Subject db .twoFactorAuthentication m.restore →
      HasFactor db m.userUuid
  | .sendEmail _ _ caller _ data => ∀ u∈db.users,u.uuid=caller →
    (complete (data.validate settings.toFactorSettings u false) db).1=.ok () → settings.enableEmail2fa=true →
      OnlyType db caller TwoFactor.Email → ¬Obliged db caller
  | .disableAuthenticator out caller key masterPasswordHash type => ∀ u∈db.users,u.uuid=caller →
    User.checkValidPassword settings.toFactorSettings u masterPasswordHash=true → ∀ n,type.intoI32=.ok n →
      (∀ f∈db.twofactor,f.userUuid=caller → f.atype=n → settings.toFactorSettings.columnText f.data=key) →
        OnlyType db caller n → Delivers settings out db u
  | .disableTwofactor out caller data type => ∀ u∈db.users,u.uuid=caller →
    (complete (data.validate settings.toFactorSettings u true) db).1=.ok () → ∀ n,type.intoI32=.ok n →
      OnlyType db caller n → Delivers settings out db u
  | .recover out user code => ∀ u∈db.users,u.uuid=user →
    User.checkValidRecoveryCode settings.toFactorSettings u code=true →
      (∃ f∈db.twofactor,f.userUuid=user ∧ f.atype<1000 ∧ f.enabled=true ∧
        isTwofactorProviderUsable settings.toFactorSettings f=true) → Delivers settings out db u
  | .remove2fa out user => ∀ u∈db.users,u.uuid=user → Delivers settings out db u
  | _ => True

/-- The policy holds, with statuses in their range. -/
structure Sound (db : Database) : Prop where
  /-- Statuses. -/
  ranged : Ranged db
  /-- The policy. -/
  equipped : Equipped db

section Rows

variable {caller org user : Uuid} {db db₁ db' : Database} {m : Membership}

/-- Whoever is obliged has a factor. -/
theorem Sound.factor (h : Sound db) (hobliged : Obliged db user) : HasFactor db user := by
  obtain ⟨m,hm,huser,hsubject⟩ := hobliged
  rw [← huser]
  exact h.equipped m hm hsubject

theorem sound_equips (h : Sound db) (he : Equips db db') : Sound db' := by
  refine ⟨fun q hq => h.ranged q (he.members ▸ hq),fun q hq hsubject => he.factors _ ?_⟩
  rw [he.members] at hq
  exact h.equipped q hq (hsubject.back he.policies)

/-- A save of one row. -/
theorem sound_saves {new : Membership → Membership → Prop} (h : Sound db) (hs : Saves new db db')
    (hnew : ∀ m∈db.members,∀ m',new m m' → InRange m') : Sound db' := by
  rcases hs.members with hsame|⟨m,hm,m',hrow,hsaved,hallowed,hmembers⟩
  · exact sound_equips h ⟨hsame,hs.policies,hs.factors⟩
  refine ⟨fun q hq => ?_,fun q hq hsubject => ?_⟩
  · rw [hmembers] at hq
    rcases mem_put.mp hq with rfl|⟨hq,-⟩
    · exact hnew m hm q hsaved
    · exact h.ranged q hq
  have hsubject' := hsubject.back hs.policies
  rw [hmembers] at hq
  rcases mem_put.mp hq with rfl|⟨hq,-⟩
  -- The saved row was checked.
  · have hchecked := hallowed.resolve_right fun he =>
      not_active_revoked (h.ranged m hm).2 (he ▸ .inr hsubject.confirmed)
    refine (hchecked hsubject.role ?_).factor hsubject'.policy
    rw [hsubject.confirmed]
    decide
  · exact hs.factors _ (h.equipped q hq hsubject')

/-- A new owner. -/
theorem sound_founds (h : Sound db) (hf : Founds caller db db') : Sound db' := by
  have hfactors : ∀ user,HasFactor db user → HasFactor db' user := by
    rintro user ⟨f,hmem,hboth⟩
    exact ⟨f,hf.factors ▸ hmem,hboth⟩
  rcases hf.members with hsame|⟨m,-,hrole,hstatus,-,-,hmembers⟩
  · exact sound_equips h ⟨hsame,hf.policies,hfactors⟩
  refine ⟨fun q hq => ?_,fun q hq hsubject => ?_⟩
  · rw [hmembers] at hq
    rcases mem_put.mp hq with rfl|⟨hq,-⟩
    · exact inRange_of_status hstatus (by decide)
    · exact h.ranged q hq
  · rw [hmembers] at hq
    rcases mem_put.mp hq with rfl|⟨hq,-⟩
    · refine absurd ?_ hsubject.role
      rw [hrole]
      decide
    · exact hfactors _ (h.equipped q hq (hsubject.back hf.policies))

/-- What the import would have to check. -/
def Fit (db : Database) (m : Membership) : Prop :=
  Subject db .twoFactorAuthentication m.restore → HasFactor db m.userUuid

theorem fit_steady (db : Database) : Steady (Fit db) := by
  intro m m' hsame htype hstatus hfit hsubject
  rw [hsame.user]
  exact hfit (subject_restore hsame htype hstatus hsubject)

/-- Members who are not confirmed need nothing. -/
theorem fit_waiting (hm : m.status=Invited ∨ m.status=Accepted) : Fit db m := by
  intro hsubject
  have hconfirmed := hsubject.confirmed
  rw [status_restore] at hconfirmed
  rcases hm with hs|hs
  · rw [hs] at hconfirmed
    exact absurd hconfirmed (by decide)
  · rw [hs] at hconfirmed
    exact absurd hconfirmed (by decide)

theorem sound_imported (h : Sound db) (hi : Imported (Fit db) org db db') : Sound db' := by
  refine ⟨hi.ranged,fun m hm hsubject => hi.factors m hm ?_⟩
  have hsubject' := hsubject.back hi.policies
  have hactive : Active m := .inr hsubject.confirmed
  rcases hi.rows m hm with hold|⟨-,hidle|hfit|⟨m₀,hm₀,hrow,htype,hstatus⟩⟩
  · exact h.equipped m hold hsubject'
  · exact absurd hactive hidle
  · refine hfit ?_
    rwa [restore_active hactive]
  · rw [hrow.user]
    refine h.equipped m₀ hm₀ ⟨?_,hstatus.symm.trans hsubject.confirmed,htype ▸ hsubject.role⟩
    rw [← hrow.org]
    exact hsubject'.policy

theorem sound_revokes (h : Sound db) (hr : Revokes org db db') : Sound db' := by
  have hfactors : ∀ user,HasFactor db user → HasFactor db' user := by
    rintro user ⟨f,hmem,hboth⟩
    exact ⟨f,hr.factors ▸ hmem,hboth⟩
  refine ⟨fun q hq => ?_,fun q hq hsubject => hfactors _ ?_⟩
  · rcases hr.rows q hq with hq|⟨m,hm,-,rfl⟩
    · exact h.ranged q hq
    · exact inRange_revoke (h.ranged m hm)
  · rcases hr.rows q hq with hq|⟨m,hm,-,rfl⟩
    · exact h.equipped q hq (hsubject.back hr.policies)
    · exact absurd (Or.inr hsubject.confirmed) (not_active_revoked (h.ranged m hm).2)

/-- A switched policy. -/
theorem sound_switches {enabled : Bool} (h : Sound db) (hs : Switches org enabled db db') : Sound db' := by
  rcases hs with hr|⟨db₁,atype,hr,hcomplies,heq⟩
  · exact sound_revokes h hr
  have h₁ := sound_revokes h hr
  have hmembers : db'.members=db₁.members := by rw [heq]
  have hpolicies : db'.policies=OrgPolicy.saved org atype enabled db₁.policies := by rw [heq]
  have hfactors : ∀ user,HasFactor db₁ user → HasFactor db' user := by
    rintro user ⟨f,hmem,hboth⟩
    refine ⟨f,?_,hboth⟩
    rw [heq]
    exact hmem
  refine ⟨fun q hq => h₁.ranged q (hmembers ▸ hq),fun q hq hsubject => hfactors _ ?_⟩
  rw [hmembers] at hq
  rcases active_saved hpolicies hsubject.policy with hold|⟨henabled,hqorg,htype⟩
  · exact h₁.equipped q hq ⟨hold,hsubject.confirmed,hsubject.role⟩
  · exact hcomplies.factor htype.symm henabled q hq hqorg hsubject.confirmed hsubject.role

end Rows

section Removing

variable {settings : PolicySettings} {out : Outside} {caller user : Uuid} {db db₁ db₂ db' : Database} {u : User}

/-- Only one account may lack a factor that it needs. -/
structure SoundBut (user : Uuid) (db : Database) : Prop where
  /-- Statuses. -/
  ranged : Ranged db
  /-- The policy, for the others. -/
  equipped : ∀ m∈db.members,Subject db .twoFactorAuthentication m → m.userUuid=user ∨ HasFactor db m.userUuid

theorem Sound.but (h : Sound db) (user : Uuid) : SoundBut user db :=
  ⟨h.ranged,fun m hm hsubject => .inr (h.equipped m hm hsubject)⟩

/-- The account needs none, or it has one. -/
theorem SoundBut.sound (h : SoundBut user db) (hfine : Obliged db user → HasFactor db user) : Sound db := by
  refine ⟨h.ranged,fun m hm hsubject => ?_⟩
  rcases h.equipped m hm hsubject with huser|hfactor
  · rw [huser]
    exact hfine ⟨m,hm,huser,hsubject⟩
  · exact hfactor

/-- It was released. -/
theorem SoundBut.releases (h : SoundBut user db) (hr : Releases user db db') : Sound db' := by
  have hbut : SoundBut user db' := by
    refine ⟨fun q hq => ?_,fun q hq hsubject => ?_⟩
    · rcases hr.rows q hq with hq|⟨m,hm,rfl⟩
      · exact h.ranged q hq
      · exact inRange_revoke (h.ranged m hm)
    · rcases hr.rows q hq with hq|⟨m,hm,rfl⟩
      · refine (h.equipped q hq (hsubject.back hr.policies)).imp_right fun ⟨f,hmem,hboth⟩ => ?_
        exact ⟨f,hr.factors ▸ hmem,hboth⟩
      · exact absurd (Or.inr hsubject.confirmed) (not_active_revoked (h.ranged m hm).2)
  exact hbut.sound fun hobliged => absurd hobliged hr.free

/-- Factors of one account are deleted. -/
structure Deletes (user : Uuid) (db db' : Database) : Prop where
  /-- Memberships. -/
  members : db'.members=db.members
  /-- Policies. -/
  policies : db'.policies=db.policies
  /-- Factors of others. -/
  factors : ∀ v,v≠user → HasFactor db v → HasFactor db' v

theorem SoundBut.deletes (h : SoundBut user db) (hd : Deletes user db db') : SoundBut user db' := by
  refine ⟨fun q hq => h.ranged q (hd.members ▸ hq),fun q hq hsubject => ?_⟩
  rw [hd.members] at hq
  rcases h.equipped q hq (hsubject.back hd.policies) with huser|hfactor
  · exact .inl huser
  · by_cases huser : q.userUuid=user
    · exact .inl huser
    · exact .inr (hd.factors _ huser hfactor)

/-- A factor of the account is deleted. -/
theorem deletes_one {f : TwoFactor} (hf : f∈db.twofactor) (h : db'.toTables={db.toTables with
    twofactor := db.twofactor.filter fun r => r.uuid≠f.uuid}) : Deletes f.userUuid db db' := by
  refine ⟨by rw [h],by rw [h],fun v hv ⟨g,hg,huser,hfactor⟩ => ⟨g,?_,huser,hfactor⟩⟩
  rw [h]
  refine List.mem_filter.mpr ⟨hg,decide_eq_true fun he => hv ?_⟩
  have hsame : g=f := eq_of_key db.factor_uuid_nodup hg hf he
  rw [← huser,hsame]

/-- A factor of another type is left. -/
theorem left_one {f g : TwoFactor} (hf : f∈db.twofactor) (hg : g∈db.twofactor) (hother : g.atype≠f.atype)
    (hfactor : g.atype<1000) (h : db'.toTables={db.toTables with
      twofactor := db.twofactor.filter fun r => r.uuid≠f.uuid}) : HasFactor db' g.userUuid := by
  refine ⟨g,?_,rfl,hfactor⟩
  rw [h]
  refine List.mem_filter.mpr ⟨hg,decide_eq_true fun he => hother ?_⟩
  rw [eq_of_key db.factor_uuid_nodup hg hf he]

/-- Without a factor, the policies are enforced. -/
theorem ends_enforceIfEmpty (h : SoundBut u.uuid db)
    (hmail : ¬HasFactor db u.uuid → settings.mailEnabled=true → Obliged db u.uuid → out.delivers u.email=true) :
    Ends (enforceIfEmpty settings.toSettings out u) db fun _ db' => Sound db' := by
  unfold enforceIfEmpty
  refine ends_lookup ?_
  split
  · rename_i hempty
    have hnone : ¬HasFactor db u.uuid := by
      rintro ⟨f,hf,hboth⟩
      rw [List.isEmpty_iff,TwoFactor.findByUser,List.filter_eq_nil_iff] at hempty
      exact hempty f hf (decide_eq_true hboth)
    exact (ends_enforce2fa h.ranged (hmail hnone)).mono fun _ db' h' => h.releases h'.2
  · rename_i hsome
    refine h.sound fun _ => ?_
    rw [List.isEmpty_iff] at hsome
    obtain ⟨f,hf⟩ := List.exists_mem_of_ne_nil _ hsome
    obtain ⟨hf,hboth⟩ := List.mem_filter.mp hf
    exact ⟨f,hf,of_decide_eq_true hboth⟩

/-- After the check, no factor of the type was there. -/
theorem ends_keptAll (h : Sound db) (hp : Passes db db₁) :
    Ends (enforceIfEmpty settings.toSettings out u) db₁ fun _ db' => Sound db' := by
  refine ends_enforceIfEmpty ((sound_equips h hp.toEquips).but u.uuid) fun hnone _ hobliged => ?_
  exact absurd (hp.factors _ (h.factor (hobliged.back hp.members hp.policies))) hnone

/-- After the check, the factor of a type is deleted. -/
theorem ends_deleteFactor {f : TwoFactor} {n : ℤ} (h : Sound db) (hp : Passes db db₁)
    (hfound : TwoFactor.findByUserAndType db₁.toTables u.uuid n=some f)
    (hmail : OnlyType db u.uuid n → Delivers settings out db u) :
    Ends ((TwoFactor.delete f).bind fun _ => enforceIfEmpty settings.toSettings out u) db₁ fun _ db' => Sound db' := by
  have h₁ := sound_equips h hp.toEquips
  obtain ⟨hf,huser,htype⟩ := mem_of_findByUserAndType hfound
  refine ends_update_cases (fun db₂ heq => ?_) h₁
  have hd : Deletes u.uuid db₁ db₂ := huser ▸ deletes_one hf heq
  refine ends_enforceIfEmpty ((h₁.but u.uuid).deletes hd) fun hnone henabled hobliged => ?_
  have honly : OnlyType db u.uuid n := by
    intro g hg hguser hfactor
    by_contra hother
    refine hnone ?_
    rw [← hguser]
    exact left_one hf (hp.rows g hg hfactor) (fun he => hother (he.trans htype)) hfactor heq
  exact hmail honly ((hobliged.back hd.members hd.policies).back hp.members hp.policies) henabled

/-- `disable_twofactor`. -/
theorem sound_disableTwofactor {data : PasswordOrOtpData} {type : NumberOrString} (h : Sound db)
    (hfair : Fair settings db (.disableTwofactor out caller data type)) :
    Ends (disableTwofactor settings.toFactorSettings out caller data type) db fun _ db' => Sound db' := by
  refine ends_checked (fun u hu huuid hok db₁ hp => ?_) fun _ _ he => sound_equips h he
  refine ends_fromExcept (fun n hn => ends_lookup ?_) fun _ _ => sound_equips h hp.toEquips
  cases hfound : TwoFactor.findByUserAndType db₁.toTables u.uuid n with
  | none => exact ends_keptAll h hp
  | some f =>
    refine ends_deleteFactor h hp hfound fun honly => ?_
    rw [huuid] at honly
    exact hfair u hu huuid hok n hn honly

/-- `disable_authenticator`. -/
theorem sound_disableAuthenticator {key masterPasswordHash : Text} {type : NumberOrString} (h : Sound db)
    (hfair : Fair settings db (.disableAuthenticator out caller key masterPasswordHash type)) :
    Ends (disableAuthenticator settings.toFactorSettings out caller key masterPasswordHash type) db
      fun _ db' => Sound db' := by
  have hp : Passes db db := ⟨Equips.refl db,rfl,fun _ hf _ => hf⟩
  refine ends_headers (fun u hu huuid => ?_) h
  refine ends_fromExcept (fun n hn => Ends.ensure (fun hpassword => ends_lookup ?_) fun _ => h) fun _ _ => h
  cases hfound : TwoFactor.findByUserAndType db.toTables u.uuid n with
  | none => exact ends_keptAll h hp
  | some f =>
    refine Ends.ensure (fun hkey => ?_) fun _ => h
    refine ends_deleteFactor h hp hfound fun honly => ?_
    rw [huuid] at honly
    refine hfair u hu huuid hpassword n hn (fun g hg hguser hgtype => ?_) honly
    obtain ⟨hf,hfuser,hftype⟩ := mem_of_findByUserAndType hfound
    have hsame : g=f := by
      refine eq_of_key db.factor_nodup hg hf (Prod.ext ?_ ?_)
      · exact hguser.trans (huuid.symm.trans hfuser.symm)
      · exact hgtype.trans hftype.symm
    rw [hsame]
    exact of_decide_eq_true hkey

/-- `send_email` deletes the old factor at once. -/
theorem sound_sendEmail {token email : Text} {delivered : Bool} {data : PasswordOrOtpData} (h : Sound db)
    (hfair : Fair settings db (.sendEmail token delivered caller email data)) :
    Ends (sendEmail settings.toFactorSettings token delivered caller email data) db fun _ db' => Sound db' := by
  refine ends_checked (fun u hu huuid hok db₁ hp => ?_) fun _ _ he => sound_equips h he
  have h₁ := sound_equips h hp.toEquips
  refine Ends.ensure (fun henabled => ends_lookup ?_) fun _ => h₁
  -- The challenge takes nothing away.
  have hrest : ∀ db₂,Sound db₂ → Ends (utcNow.bind fun now => getUuid.bind fun uuid =>
      (TwoFactor.save (ServerTables.TwoFactor.new uuid u.uuid EmailVerificationChallenge
        (.emailToken ⟨email,some token,now,0⟩))).bind fun _ => ensure "Error sending mail" delivered) db₂
      fun _ db' => Sound db' := by
    intro db₂ h₂
    have hdrawn : Sound db₂.drawn := sound_equips h₂ ⟨rfl,rfl,fun _ hf => hf⟩
    refine ends_utcNow (ends_getUuid (ends_update_cases (fun db₃ heq => ?_) hdrawn))
    have h₃ : Sound db₃ := sound_equips hdrawn (equips_saved replaces_new heq)
    exact Ends.ensure_done (fun _ => h₃) fun _ => h₃
  cases hfound : TwoFactor.findByUserAndType db₁.toTables u.uuid TwoFactor.Email with
  | none => exact hrest db₁ h₁
  | some f =>
    obtain ⟨hf,huser,htype⟩ := mem_of_findByUserAndType hfound
    refine ends_update_cases (fun db₂ heq => hrest db₂ ?_) h₁
    have hd : Deletes u.uuid db₁ db₂ := huser ▸ deletes_one hf heq
    refine ((h₁.but u.uuid).deletes hd).sound fun hobliged => ?_
    by_contra hnone
    refine hfair u hu huuid hok henabled (fun g hg hguser hfactor => ?_) ?_
    · by_contra hother
      refine hnone ?_
      rw [huuid,← hguser]
      exact left_one hf (hp.rows g hg hfactor) (fun he => hother (he.trans htype)) hfactor heq
    · rw [← huuid]
      exact (hobliged.back hd.members hd.policies).back hp.members hp.policies

/-- All factors are removed. -/
theorem sound_removeFactors (h : Sound db) (hmail : Delivers settings out db u) :
    Ends (removeFactors settings.toFactorSettings out u) db fun _ db' => Sound db' := by
  unfold removeFactors
  refine ends_update_cases (fun db₁ heq => ?_) h
  have hd : Deletes u.uuid db db₁ := by
    refine ⟨by rw [heq],by rw [heq],?_⟩
    rintro v hv ⟨g,hg,huser,hfactor⟩
    refine ⟨g,?_,huser,hfactor⟩
    rw [heq]
    exact List.mem_filter.mpr ⟨hg,decide_eq_true fun he => hv (huser.symm.trans he)⟩
  have hbut := (h.but u.uuid).deletes hd
  have hmail' : settings.mailEnabled=true → Obliged db₁ u.uuid → out.delivers u.email=true := fun henabled hobliged =>
    hmail (hobliged.back hd.members hd.policies) henabled
  refine (ends_enforce2fa hbut.ranged hmail').bind (fun _ db₂ hended => ?_) fun e db₂ hended => by cases hended.1
  have h₂ := hbut.releases hended.2
  unfold User.save
  split
  · refine ends_update_end (fun db₃ heq₃ => sound_equips h₂ ⟨by rw [heq₃],by rw [heq₃],?_⟩) h₂
    rintro v ⟨f,hf,hboth⟩
    refine ⟨f,?_,hboth⟩
    rw [heq₃]
    exact hf
  · exact h₂

/-- A login with a recovery code. -/
theorem sound_recover {code : Text} (h : Sound db) (hfair : Fair settings db (.recover out user code)) :
    Ends (recover settings.toFactorSettings out user code) db fun _ db' => Sound db' := by
  unfold recover
  refine ends_lookup (Ends.expect (fun u hu => ?_) fun _ => h)
  have huuid := List.find?_some hu
  rw [decide_eq_true_eq] at huuid
  unfold twofactorAuthRecovery
  refine ends_lookup ?_
  split
  · rename_i hempty
    refine (ends_enforce2fa h.ranged fun _ hobliged => ?_).mono fun _ db' hr => (h.but u.uuid).releases hr.2
    obtain ⟨f,hf,hboth⟩ := h.factor hobliged
    rw [List.isEmpty_iff,TwoFactor.findByUser,List.filter_eq_nil_iff] at hempty
    exact absurd (decide_eq_true hboth) (hempty f hf)
  · refine Ends.ensure (fun husable => Ends.ensure (fun hcode => ?_) fun _ => h) fun _ => h
    refine sound_removeFactors h (hfair u (List.mem_of_find?_eq_some hu) huuid hcode ?_)
    obtain ⟨f,hf,hboth⟩ := List.any_eq_true.mp husable
    rw [Bool.and_eq_true] at hboth
    obtain ⟨hf,hrow⟩ := List.mem_filter.mp hf
    rw [decide_eq_true_eq,huuid] at hrow
    exact ⟨f,hf,hrow.1,hrow.2,hboth⟩

end Removing

section Runs

variable {settings : PolicySettings} {out : Outside} {caller org id : Uuid} {db : Database}

/-- `confirm_invite_impl` checks the policy. -/
theorem sound_confirm {h : OrgHeaders} {key : Text} (hdb : Sound db) :
    Ends (confirmInviteImpl settings.toSettings out h org id key) db fun _ => Sound := by
  refine ends_confirm.mono fun _ db' hs => sound_saves hdb hs ?_
  rintro m hm _ ⟨-,-,rfl⟩
  exact inRange_of_status (s:=Confirmed) rfl (by decide)

theorem sound_revoke {h : OrgHeaders} (hdb : Sound db) : Ends (revokeMemberImpl h org id) db fun _ => Sound := by
  refine ends_revoke.mono fun _ db' hs => sound_saves hdb hs ?_
  rintro m hm _ ⟨-,rfl⟩
  exact inRange_revoke (hdb.ranged m hm)

theorem sound_restore {h : OrgHeaders} (hdb : Sound db) :
    Ends (restoreMemberImpl settings.toSettings h org id) db fun _ => Sound := by
  refine ends_restore.mono fun _ db' hs => sound_saves hdb hs ?_
  rintro m hm _ ⟨-,-,rfl⟩
  exact inRange_restore (hdb.ranged m hm)

/-- A guarded handler. -/
theorem sound_guarded {g : OrgHeaders → Action Unit} (hdb : Sound db) (hg : ∀ h,Ends (g h) db fun _ => Sound) :
    Ends ((adminHeaders caller org).bind g) db fun _ => Sound := ends_adminHeaders (fun h _ => hg h) fun _ => hdb

/-- Requests on members and policies. -/
theorem sound_member {op : Operation} (hdb : Sound db) (hfair : Fair settings db (.member op)) :
    Ends (op.body settings) db fun _ => Sound := by
  cases op with
  | createOrganization caller billingEmail key =>
    exact ends_createOrganization.mono fun _ _ hf => sound_founds hdb hf
  | sendInvite out caller org emails data =>
    have hwelcome : (∃ h,Administers db caller org h) → Welcoming (Fit db) settings.toSettings org db emails :=
      fun _ => ⟨fun m hs => fit_waiting (.inl hs),fun _ _ _ _ _ _ _ _ m _ _ hs => fit_waiting (.inr hs)⟩
    exact (ends_sendInvite hdb.ranged hwelcome).mono fun _ _ hi => sound_imported hdb hi
  | acceptInvite out caller org id claims key =>
    refine ends_accept.mono fun _ db' hs => sound_saves hdb hs ?_
    rintro m hm m' ⟨-,-,-,-,haccepted,-⟩
    exact inRange_of_status haccepted (by decide)
  | confirmInvite out caller org id key => exact sound_guarded hdb fun h => sound_confirm hdb
  | confirmInvites out caller org keys =>
    refine sound_guarded hdb fun h => ?_
    show Ends (each keys fun x => ok (confirmInviteImpl settings.toSettings out h org x.1 x.2)) db fun _ => Sound
    exact Ends.each_ok hdb fun _ _ _ h₁ => sound_confirm h₁
  | editMember caller org id data =>
    refine ends_edit.mono fun _ db' hdone => ?_
    rcases hdone with rfl|⟨h,-,hs⟩
    · exact hdb
    · refine sound_saves hdb hs ?_
      rintro m hm m' ⟨-,-,hstatus⟩
      exact inRange_of_status hstatus (hdb.ranged m hm)
  | revokeMember caller org id => exact sound_guarded hdb fun h => sound_revoke hdb
  | revokeMembers caller org ids =>
    exact sound_guarded hdb fun h => Ends.each_ok hdb fun _ _ _ h₁ => sound_revoke h₁
  | restoreMember caller org id => exact sound_guarded hdb fun h => sound_restore hdb
  | restoreMembers caller org ids =>
    exact sound_guarded hdb fun h => Ends.each_ok hdb fun _ _ _ h₁ => sound_restore h₁
  | ldapImport out org orgEmail data =>
    refine (ends_ldapImport ⟨fit_steady db,fun m hs => fit_waiting (.inl hs),hdb.ranged,?_,
      fun _ _ _ _ _ _ m _ _ _ hs => fit_waiting (.inr hs)⟩).mono fun _ _ hi => sound_imported hdb hi
    intro q hq horg u hu huser hlisted hsubject
    by_cases hactive : Active q
    · rw [restore_active hactive] at hsubject
      exact hdb.equipped q hq hsubject
    · exact hfair q hq horg u hu huser hlisted ⟨hactive,.inr hsubject.confirmed⟩ hsubject
  | putPolicy out caller org type enabled autoEnroll =>
    exact (ends_putPolicy hdb.ranged).mono fun _ _ hs => sound_switches hdb hs

/-- Every request keeps the policy. -/
theorem sound_step {r : Request} (hdb : Sound db) (hfair : Fair settings db r) : Sound (step settings db r) := by
  cases r with
  | member op => exact sound_member hdb hfair
  | activateAuthenticator recoverCode caller key token data =>
    exact ends_activateAuthenticator.mono fun _ _ he => sound_equips hdb he
  | email recoverCode caller token data => exact ends_verifyEmail.mono fun _ _ he => sound_equips hdb he
  | generateWebauthnChallenge state caller data => exact ends_challenge.mono fun _ _ he => sound_equips hdb he
  | activateWebauthn recoverCode caller id name deviceResponse data =>
    exact ends_activateWebauthn.mono fun _ _ he => sound_equips hdb he
  | deleteWebauthn caller id masterPasswordHash => exact ends_deleteWebauthn.mono fun _ _ he => sound_equips hdb he
  | activateYubikey services recoverCode caller keys nfc data =>
    exact ends_activateYubikey.mono fun _ _ he => sound_equips hdb he
  | activateDuo services recoverCode caller fields data =>
    exact ends_activateDuo.mono fun _ _ he => sound_equips hdb he
  | sendEmail token delivered caller address data => exact sound_sendEmail hdb hfair
  | disableAuthenticator out caller key masterPasswordHash type => exact sound_disableAuthenticator hdb hfair
  | disableTwofactor out caller data type => exact sound_disableTwofactor hdb hfair
  | recover out user code => exact sound_recover hdb hfair
  | remove2fa out user =>
    show Ends (SecondFactors.remove2fa settings.toFactorSettings out user) db fun _ => Sound
    unfold SecondFactors.remove2fa
    refine ends_lookup (Ends.expect (fun u hu => ?_) fun _ => hdb)
    have huuid := List.find?_some hu
    rw [decide_eq_true_eq] at huuid
    exact sound_removeFactors hdb (hfair u (List.mem_of_find?_eq_some hu) huuid)

/-- Sequences of requests, under the condition. -/
theorem equipped_kept {start : Database} {requests : List Request} (hranged : Ranged start) (hstart : Equipped start)
    (hfair : Admits (step settings) (Fair settings) start requests) :
    Equipped (run (step settings) start requests) := by
  have hrun : Sound (run (step settings) start requests) :=
    run_invariant (I:=Sound) (fun _ _ => sound_step) ⟨hranged,hstart⟩ hfair
  exact hrun.equipped

end Runs

section Samples

open SingleOrgRuns (mailing account delivering)

/-- An organisation that requires a second factor, and a member whose only
factor is e-mail. -/
def equippedOffice : Database := ⟨{Tables.none with
  users := [{account 1 ['a'] with passwordHash := []}]
  organizations := [⟨2⟩]
  members := [⟨3,1,2,none,false,[],Confirmed,.user,none,none⟩]
  policies := [⟨2,.twoFactorAuthentication⟩]
  twofactor := [⟨4,1,TwoFactor.Email,true,.emailToken ⟨['a'],none,0,0⟩,0⟩]
  next := 5},by decide⟩

/-- The password of the member. -/
def password : PasswordOrOtpData := ⟨some [],none⟩

/-- No mail goes out. -/
def failing : Outside := ⟨fun _ => false,[]⟩

theorem ranged_office : Ranged equippedOffice := by
  intro m hm
  rw [List.mem_singleton.mp hm]
  exact inRange_of_status (s:=Confirmed) rfl (by decide)

theorem equipped_office : Equipped equippedOffice := by
  intro m hm _
  rw [List.mem_singleton.mp hm]
  exact ⟨_,List.mem_singleton.mpr rfl,rfl,by decide⟩

/-- The factor is gone before the mail fails, and the member stays. -/
theorem unequipped_failing : Ranged equippedOffice ∧ Equipped equippedOffice ∧
    ¬Equipped (run (step mailing) equippedOffice [.disableTwofactor failing 1 password (.number 1)]) := by
  refine ⟨ranged_office,equipped_office,fun h => ?_⟩
  have hfound : ∃ m∈(step mailing equippedOffice (.disableTwofactor failing 1 password (.number 1))).members,
      OrgPolicy.active (step mailing equippedOffice (.disableTwofactor failing 1 password (.number 1))).toTables
        m.orgUuid .twoFactorAuthentication=true ∧ m.status=Confirmed ∧ ¬MembershipType.admin≤ m.atype := by decide
  obtain ⟨m,hm,hpolicy,hconfirmed,hrole⟩ := hfound
  obtain ⟨f,hf,-⟩ := h m hm ⟨hpolicy,hconfirmed,hrole⟩
  have hnone : (step mailing equippedOffice (.disableTwofactor failing 1 password (.number 1))).twofactor=[] := by decide
  have hf' : f∈(step mailing equippedOffice (.disableTwofactor failing 1 password (.number 1))).twofactor := hf
  rw [hnone] at hf'
  cases hf'

/-- The member is revoked when the mail goes out. -/
theorem equipped_kept_delivering :
    Equipped (run (step mailing) equippedOffice [.disableTwofactor delivering 1 password (.number 1)]) :=
  equipped_kept ranged_office equipped_office ⟨fun _ _ _ _ _ _ _ _ _ => rfl,trivial⟩

end Samples

end NadSafe.FactorPolicyRuns
