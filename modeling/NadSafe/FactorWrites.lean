import NadSafe.MemberRequests

/-!
# What handlers do to second factors

Handlers of second factors, run alone. All of them leave the memberships and
the policies alone, apart from the members who are revoked when an account has
no factor left. Those that enable or replace a factor take none away.
-/

namespace NadSafe.FactorWrites

open HostText TableRows AsyncScript AsyncScript.Script ServerTables AccessQueries StoreScript ServerModels
open OrgHandlers SecondFactors RelyScript PlannedScript TableWrites FactorRows CoreFrames MemberWrites ImportWrites
open MemberRequests
open CipherHandlers (headers)

variable {settings : FactorSettings} {services : Services} {out : Outside} {caller user : Uuid}
  {data : PasswordOrOtpData} {recoverCode : Text} {db db₁ db' : Database} {f : TwoFactor}

/-- No account loses its last factor. -/
structure Equips (db db' : Database) : Prop where
  /-- Memberships. -/
  members : db'.members=db.members
  /-- Policies. -/
  policies : db'.policies=db.policies
  /-- Factors. -/
  factors : ∀ user,HasFactor db user → HasFactor db' user

section Rows

theorem Equips.refl (db : Database) : Equips db db := ⟨rfl,rfl,fun _ h => h⟩

theorem Equips.trans (h : Equips db db₁) (h' : Equips db₁ db') : Equips db db' :=
  ⟨h'.members.trans h.members,h'.policies.trans h.policies,fun user hu => h'.factors user (h.factors user hu)⟩

/-- A row with its number is no factor, or one of the account. -/
def Replaces (db : Database) (f : TwoFactor) : Prop :=
  ∀ g∈db.twofactor,g.uuid=f.uuid → g.atype<1000 → g.userUuid=f.userUuid ∧ f.atype<1000

theorem replaces_drawn (hf : f.uuid=db.next) : Replaces db.drawn f := by
  intro g hg he
  have hold : g∈db.twofactor := hg
  exact absurd (he.trans hf) (Nat.ne_of_lt (Database.factor_drawn hold))

/-- A row that is saved again, of the same account. -/
theorem replaces_same {g : TwoFactor} (hg : g∈db.twofactor) (huuid : f.uuid=g.uuid) (huser : f.userUuid=g.userUuid)
    (htype : g.atype<1000 → f.atype<1000) : Replaces db f := by
  intro r hr he hr'
  have hsame : r=g := eq_of_key db.factor_uuid_nodup hr hg (he.trans huuid)
  subst hsame
  exact ⟨huser.symm,htype hr'⟩

/-- Only its data changes. -/
theorem replaces_updated (hf : f∈db.twofactor) (data : TwoFactorData) (lastUsed : ℤ) :
    Replaces db {f with data := data, lastUsed := lastUsed} :=
  replaces_same hf (by rfl) (by rfl) fun h => h

/-- A save of a factor. -/
theorem equips_saved (hf : Replaces db f) (h : db'.toTables={db.toTables with
    twofactor := TwoFactor.saved f db.twofactor}) : Equips db db' := by
  refine ⟨by rw [h],by rw [h],fun user ⟨g,hg,huser,htype⟩ => ?_⟩
  by_cases hkey : g.key=f.key
  · obtain ⟨huser',htype'⟩ := Prod.mk.inj hkey
    refine ⟨f,?_,huser'.symm.trans huser,htype' ▸ htype⟩
    rw [h]
    exact mem_put.mpr (.inl rfl)
  · by_cases huuid : g.uuid=f.uuid
    · obtain ⟨huser',htype'⟩ := hf g hg huuid htype
      refine ⟨f,?_,huser'.symm.trans huser,htype'⟩
      rw [h]
      exact mem_put.mpr (.inl rfl)
    · refine ⟨g,?_,huser,htype⟩
      rw [h]
      exact mem_saved_of_ne hg hkey huuid

/-- A row of another type is deleted. -/
theorem equips_deleted (hf : f∈db.twofactor) (htype : ¬f.atype<1000) (h : db'.toTables={db.toTables with
    twofactor := db.twofactor.filter fun r => r.uuid≠f.uuid}) : Equips db db' := by
  refine ⟨by rw [h],by rw [h],fun user ⟨g,hg,huser,hfactor⟩ => ⟨g,?_,huser,hfactor⟩⟩
  rw [h]
  refine List.mem_filter.mpr ⟨hg,decide_eq_true fun he => htype ?_⟩
  have hsame : g=f := eq_of_key db.factor_uuid_nodup hg hf he
  rwa [← hsame]

theorem Equips.drawn (h : Equips db.drawn db') : Equips db db' := ⟨h.members,h.policies,h.factors⟩

end Rows

section Enabling

/-- What the check of a password or a token leaves. -/
structure Passes (db db' : Database) : Prop extends Equips db db' where
  /-- Accounts. -/
  users : db'.users=db.users
  /-- Factors stay as they are. -/
  rows : ∀ f∈db.twofactor,f.atype<1000 → f∈db'.twofactor

theorem ends_validated {u : User} {deleteIfValid : Bool} :
    Ends (data.validate settings u deleteIfValid) db fun _ db' => Passes db db' := by
  have hrefused : Passes db db := ⟨Equips.refl db,rfl,fun _ hf _ => hf⟩
  unfold PasswordOrOtpData.validate
  split
  · exact Ends.ensure_done (fun _ => hrefused) fun _ => hrefused
  · unfold validateProtectedActionOtp
    refine ends_lookup (Ends.expect (fun pa hpa => ?_) fun _ => hrefused)
    obtain ⟨hmem,-,htype⟩ := mem_of_findByUserAndType hpa
    have hother : ¬pa.atype<1000 := by
      rw [htype]
      decide
    have huuid : ∀ f∈db.twofactor,f.atype<1000 → f.uuid≠pa.uuid := by
      intro f hf hfactor he
      have hsame : f=pa := eq_of_key db.factor_uuid_nodup hf hmem he
      exact hother (hsame ▸ hfactor)
    have hdeleted : ∀ db' : Database,db'.toTables={db.toTables with
        twofactor := db.twofactor.filter fun r => r.uuid≠pa.uuid} → Passes db db' := by
      refine fun db' h => ⟨equips_deleted hmem hother h,by rw [h],fun f hf hfactor => ?_⟩
      rw [h]
      exact List.mem_filter.mpr ⟨hf,decide_eq_true (huuid f hf hfactor)⟩
    have hsaved : ∀ (data : TwoFactorData) (db' : Database),db'.toTables={db.toTables with
        twofactor := TwoFactor.saved {pa with data := data} db.twofactor} → Passes db db' := by
      refine fun data db' h => ⟨equips_saved (replaces_updated hmem data pa.lastUsed) h,by rw [h],fun f hf hfactor => ?_⟩
      rw [h]
      refine mem_saved_of_ne hf (fun he => hother ?_) (huuid f hf hfactor)
      rw [← show f.atype=pa.atype from congrArg Prod.snd he]
      exact hfactor
    refine ends_fromExcept (fun data _ => ?_) fun _ _ => hrefused
    refine Ends.ensure (fun _ => ends_utcNow ?_) fun _ => hrefused
    split
    · exact ends_update_cases (fun db' h => hdeleted db' h) hrefused
    · split
      · exact ends_update_cases (fun db' h => hsaved _ db' h) hrefused
      · split
        · exact ends_update_end (fun db' h => hdeleted db' h) hrefused
        · exact hrefused
  · exact hrefused

theorem frames_registrations {τ : Type} {part : Database → τ} : Frames exec part (getWebauthnRegistrations user) := by
  refine Frames.bind (frames_lookup _) fun found => ?_
  cases found with
  | none => exact Frames.pure _
  | some f =>
    dsimp only
    split
    · exact Frames.pure _
    · exact Frames.throw _

/-- The recovery code is a matter of the accounts. -/
theorem ends_recover {u : User} (h : Equips db db₁) :
    Ends (generateRecoverCode settings recoverCode u) db₁ fun _ db' => Equips db db' := by
  unfold generateRecoverCode
  split
  · refine Ends.rescue (Q:=fun _ db' => Equips db db') ?_ (fun _ _ h => h) fun _ _ h => h
    unfold User.save
    split
    · refine ends_update_end (fun db' heq => h.trans ⟨by rw [heq],by rw [heq],?_⟩) h
      rintro user ⟨f,hf,hboth⟩
      refine ⟨f,?_,hboth⟩
      rw [heq]
      exact hf
    · exact h
  · exact h

/-- The caller's account, after the check. -/
theorem ends_checked {g : User → Action Unit} {P : Except String Unit → Database → Prop} {deleteIfValid : Bool}
    (hg : ∀ u∈db.users,u.uuid=caller → (complete (data.validate settings u deleteIfValid) db).1=.ok () →
      ∀ db₁,Passes db db₁ → Ends (g u) db₁ P)
    (hrefused : ∀ e db',Equips db db' → P (.error e) db') :
    Ends ((headers caller).bind fun u => (data.validate settings u deleteIfValid).bind fun _ => g u) db P := by
  refine ends_headers (fun u hu huuid => ?_) (hrefused _ db (Equips.refl db))
  have hresult : Ends (data.validate settings u deleteIfValid) db
      fun r _ => r=(complete (data.validate settings u deleteIfValid) db).1 := rfl
  refine ((ends_validated).and hresult).bind (fun _ db₁ ⟨h₁,hok⟩ => hg u hu huuid hok.symm db₁ h₁)
    fun e db₁ h₁ => hrefused e db₁ h₁.1.toEquips

/-- A factor is saved, and then a recovery code. -/
theorem ends_enabled {u : User} (h : Equips db db₁) (hf : Replaces db₁ f) :
    Ends ((TwoFactor.save f).bind fun _ => generateRecoverCode settings recoverCode u) db₁
      fun _ db' => Equips db db' :=
  ends_update_cases (fun _ heq => ends_recover (h.trans (equips_saved hf heq))) h

/-- A new row, with a number that was just drawn. -/
theorem replaces_new {atype : ℤ} {column : TwoFactorData} :
    Replaces db.drawn (ServerTables.TwoFactor.new db.next user atype column) := replaces_drawn rfl

/-- The row of a type, or a new one: it may be saved with other data. -/
theorem ends_factorFor {atype : ℤ} : Ends (factorFor user atype) db (Either
    (fun f db' => Equips db db' ∧ ∀ column lastUsed,Replaces db' {f with data := column, lastUsed := lastUsed})
    fun _ => Equips db) := by
  unfold factorFor
  refine ends_lookup ?_
  cases hfound : TwoFactor.findByUserAndType db.toTables user atype with
  | some f => exact ⟨Equips.refl db,replaces_updated (mem_of_findByUserAndType hfound).1⟩
  | none => exact ends_getUuid ⟨(Equips.refl db.drawn).drawn,fun _ _ => replaces_drawn rfl⟩

theorem ends_authenticatorFor {secret : Text} : Ends (authenticatorFor user secret) db (Either
    (fun f db' => Equips db db' ∧ ∀ column lastUsed,Replaces db' {f with data := column, lastUsed := lastUsed})
    fun _ => Equips db) := by
  unfold authenticatorFor
  refine ends_lookup ?_
  cases hfound : TwoFactor.findByUserAndType db.toTables user Authenticator with
  | some f => exact ⟨Equips.refl db,replaces_updated (mem_of_findByUserAndType hfound).1⟩
  | none => exact ends_getUuid ⟨(Equips.refl db.drawn).drawn,fun _ _ => replaces_drawn rfl⟩

/-- `activate_authenticator`. -/
theorem ends_activateAuthenticator {key token : Text} :
    Ends (activateAuthenticator settings recoverCode caller key token data) db fun _ db' => Equips db db' := by
  refine ends_checked (fun u _ _ _ db₁ ⟨h₁,_,_⟩ => ?_) fun _ _ h => h
  refine Ends.expect (fun decoded _ => Ends.ensure (fun _ => ?_) fun _ => h₁) fun _ => h₁
  unfold validateTotpCode
  rw [bind_eq,bind_eq,Script.bind_assoc]
  refine Ends.expect (fun secret _ => ?_) fun _ => h₁
  simp only [bind_eq,Script.bind_assoc]
  refine (ends_authenticatorFor).bind (fun f db₂ ⟨h₂,hf⟩ => ?_) fun e db₂ h₂ => h₁.trans h₂
  unfold checkTotp
  simp only [bind_eq,Script.bind_assoc]
  refine ends_utcNow (Ends.expect (fun timeStep _ => ?_) fun _ => h₁.trans h₂)
  exact ends_update_cases (fun _ heq => ends_recover ((h₁.trans h₂).trans (equips_saved (hf f.data timeStep) heq)))
    (h₁.trans h₂)

/-- `email`. -/
theorem ends_verifyEmail {token : Text} :
    Ends (email settings recoverCode caller token data) db fun _ db' => Equips db db' := by
  refine ends_checked (fun u _ _ _ db₁ ⟨h₁,_,_⟩ => ?_) fun _ _ h => h
  refine ends_lookup (Ends.expect (fun f hfound => ?_) fun _ => h₁)
  obtain ⟨hf,-,htype⟩ := mem_of_findByUserAndType hfound
  refine ends_fromExcept (fun emailData _ => ?_) fun _ _ => h₁
  refine Ends.expect (fun issued _ => Ends.ensure (fun _ => ?_) fun _ => h₁) fun _ => h₁
  refine ends_enabled h₁ (replaces_same hf rfl rfl fun hfactor => absurd hfactor ?_)
  rw [htype]
  decide

/-- `generate_webauthn_challenge`. -/
theorem ends_challenge {state : Option Text} :
    Ends (generateWebauthnChallenge settings state caller data) db fun _ db' => Equips db db' := by
  refine ends_checked (fun u _ _ _ db₁ ⟨h₁,_,_⟩ => ?_) fun _ _ h => h
  refine ends_read frames_registrations (fun _ => ?_) fun _ => h₁
  refine Ends.expect (fun state _ => ends_getUuid ?_) fun _ => h₁
  have hdrawn : Equips db db₁.drawn := ⟨h₁.members,h₁.policies,h₁.factors⟩
  exact ends_update_end (fun _ heq => hdrawn.trans (equips_saved replaces_new heq)) hdrawn

/-- `activate_webauthn`. -/
theorem ends_activateWebauthn {id : NumberOrString} {name deviceResponse : Text} :
    Ends (activateWebauthn settings recoverCode caller id name deviceResponse data) db
      fun _ db' => Equips db db' := by
  refine ends_checked (fun u _ _ _ db₁ ⟨h₁,_,_⟩ => ?_) fun _ _ h => h
  refine ends_lookup (Ends.expect (fun f hfound => ?_) fun _ => h₁)
  obtain ⟨hf,-,htype⟩ := mem_of_findByUserAndType hfound
  have hother : ¬f.atype<1000 := by
    rw [htype]
    decide
  refine Ends.expect (fun state _ => ?_) fun _ => h₁
  refine ends_update_cases (fun db₂ heq => ?_) h₁
  have h₂ := h₁.trans (equips_deleted hf hother heq)
  refine Ends.expect (fun credential _ => ?_) fun _ => h₂
  refine ends_read frames_registrations (fun registrations => ?_) fun _ => h₂
  refine ends_fromExcept (fun n _ => ends_getUuid ?_) fun _ _ => h₂
  have hdrawn : Equips db db₂.drawn := ⟨h₂.members,h₂.policies,h₂.factors⟩
  exact ends_enabled hdrawn replaces_new

/-- `delete_webauthn` leaves a row without keys. -/
theorem ends_deleteWebauthn {id : NumberOrString} {masterPasswordHash : Text} :
    Ends (deleteWebauthn settings caller id masterPasswordHash) db fun _ db' => Equips db db' := by
  have hrefused := Equips.refl db
  refine ends_headers (fun u _ _ => ?_) hrefused
  refine ends_fromExcept (fun n _ => Ends.ensure (fun _ => ends_lookup ?_) fun _ => hrefused) fun _ _ => hrefused
  refine Ends.expect (fun f hfound => Ends.expect (fun keys _ => Ends.expect (fun (removed,left) _ => ?_) fun _ =>
    hrefused) fun _ => hrefused) fun _ => hrefused
  refine ends_update_cases (fun db₁ heq => ends_lookup ?_) hrefused
  have h₁ : Equips db db₁ :=
    equips_saved (replaces_updated (mem_of_findByUserAndType hfound).1 (.registrations left) f.lastUsed) heq
  cases hu2f : TwoFactor.findByUserAndType db₁.toTables u.uuid U2f with
  | none => exact h₁
  | some g =>
    refine Ends.expect (fun handles _ => ?_) fun _ => h₁
    exact ends_update_end (fun db₂ heq₂ => h₁.trans (equips_saved
      (replaces_updated (mem_of_findByUserAndType hu2f).1 _ g.lastUsed) heq₂)) h₁

/-- `activate_yubikey`. -/
theorem ends_activateYubikey {keys : List (Option Text)} {nfc : Bool} :
    Ends (activateYubikey settings services recoverCode caller keys nfc data) db fun _ db' => Equips db db' := by
  refine ends_checked (fun u _ _ _ db₁ ⟨h₁,_,_⟩ => ?_) fun _ _ h => h
  refine (ends_factorFor).bind (fun f db₂ ⟨h₂,hf⟩ => ?_) fun e db₂ h₂ => h₁.trans h₂
  dsimp only
  split
  · exact h₁.trans h₂
  · exact Ends.ensure (fun _ => ends_enabled (h₁.trans h₂) (hf _ f.lastUsed)) fun _ => h₁.trans h₂

/-- `activate_duo`. -/
theorem ends_activateDuo {fields : EnableDuoData} :
    Ends (activateDuo settings services recoverCode caller fields data) db fun _ db' => Equips db db' := by
  refine ends_checked (fun u _ _ _ db₁ ⟨h₁,_,_⟩ => ?_) fun _ _ h => h
  refine Ends.ensure (fun _ => Ends.ensure (fun _ => ends_getUuid ?_) fun _ => h₁) fun _ => h₁
  have hdrawn : Equips db db₁.drawn := ⟨h₁.members,h₁.policies,h₁.factors⟩
  exact ends_enabled hdrawn replaces_new

end Enabling

section Removing

/-- An organisation requires a factor of the account. -/
def Obliged (db : Database) (user : Uuid) : Prop :=
  ∃ m∈db.members,m.userUuid=user ∧ Subject db .twoFactorAuthentication m

theorem Obliged.back (h : Obliged db' user) (hmembers : db'.members=db.members) (hpolicies : db'.policies=db.policies) :
    Obliged db user := by
  obtain ⟨m,hm,huser,hsubject⟩ := h
  exact ⟨m,hmembers ▸ hm,huser,hsubject.back hpolicies⟩

/-- No organisation requires one any more: such memberships were revoked. -/
structure Releases (user : Uuid) (db db' : Database) : Prop where
  /-- Memberships. -/
  rows : ∀ q∈db'.members,q∈db.members ∨ ∃ m∈db.members,q=m.revoke
  /-- Policies. -/
  policies : db'.policies=db.policies
  /-- Factors. -/
  factors : db'.twofactor=db.twofactor
  /-- The account. -/
  free : ¬Obliged db' user

/-- The members that are to be revoked. -/
theorem mem_findByUserAndPolicy {m : Membership} {atype : OrgPolicyType} :
    m∈Membership.findByUserAndPolicy db.toTables user atype ↔ m∈db.members ∧ m.userUuid=user ∧
      m.status=Confirmed ∧ OrgPolicy.active db.toTables m.orgUuid atype=true := by
  unfold Membership.findByUserAndPolicy OrgPolicy.active
  constructor
  · intro h
    obtain ⟨⟨q,p⟩,hpair,rfl⟩ := List.mem_map.mp h
    obtain ⟨hjoin,hstatus⟩ := List.mem_filter.mp hpair
    obtain ⟨hm,hp,hon⟩ := mem_innerJoin.mp hjoin
    rw [decide_eq_true_eq] at hon
    obtain ⟨horg,huser,htype⟩ := hon
    refine ⟨hm,huser,of_decide_eq_true hstatus,decide_eq_true ?_⟩
    rw [← horg,← htype]
    exact hp
  · rintro ⟨hm,huser,hstatus,hactive⟩
    refine List.mem_map.mpr ⟨(m,⟨m.orgUuid,atype⟩),List.mem_filter.mpr ⟨?_,decide_eq_true hstatus⟩,rfl⟩
    exact mem_innerJoin.mpr ⟨hm,of_decide_eq_true hactive,decide_eq_true ⟨rfl,huser,rfl⟩⟩

/-- The mail to a member goes out. -/
theorem ends_mailRemoved {settings : Settings} {org : Uuid} {email : Text} (horg : ∃ o∈db.organizations,o.uuid=org)
    (hmail : settings.mailEnabled=true → out.delivers email=true) :
    Ends (mailRemoved settings out org email) db fun r db' => r=.ok () ∧ db'=db := by
  unfold mailRemoved
  split
  · rename_i henabled
    refine ends_lookup (Ends.expect (fun o _ => Ends.ensure_done (fun _ => ⟨rfl,rfl⟩) fun hfails => ?_) fun hnone => ?_)
    · rw [hmail henabled] at hfails
      cases hfails
    · obtain ⟨o,ho,huuid⟩ := horg
      rw [List.find?_eq_none] at hnone
      exact absurd (decide_eq_true huuid) (hnone o ho)
  · exact ⟨rfl,rfl⟩

/-- A membership that is there can be revoked. -/
theorem ends_saveRevoked {m q : Membership} (hq : q∈db.members) (hsame : SameMember m q) :
    Ends (Membership.save m.revoke) db fun r db' => r=.ok () ∧
      db'.toTables={db.toTables with members := put Membership.uuid m.revoke db.members} := by
  have hrow := sameMember_revoke m
  have hvalid : {db.toTables with members := put Membership.uuid m.revoke db.members}.Valid := by
    refine valid_member db.valid ?_ ?_ ?_ fun p hp hkeys => ?_
    · rw [hrow.uuid,← hsame.uuid]
      exact db.valid.2.2.2.2.1 q hq
    · rw [hrow.user,← hsame.user]
      exact db.valid.2.1.1 q hq
    · rw [hrow.org,← hsame.org]
      exact db.valid.2.1.2.1 q hq
    · have hpq : p=q := by
        refine eq_of_key db.membership_nodup hp hq (hkeys.trans ?_)
        rw [hrow.user,hrow.org,hsame.user,hsame.org]
      rw [hpq,hrow.uuid,hsame.uuid]
  exact ends_update_done hvalid ⟨rfl,rfl⟩

/-- The loop of `enforce_2fa_policy`, before the listed members. -/
structure Releasing (user : Uuid) (db : Database) (ms : List Membership) (db' : Database) : Prop where
  /-- Memberships. -/
  rows : ∀ q∈db'.members,q∈db.members ∨ ∃ m∈db.members,q=m.revoke
  /-- Every one has its row. -/
  kept : ∀ m∈db.members,∃ q∈db'.members,SameMember m q
  /-- Policies. -/
  policies : db'.policies=db.policies
  /-- Factors. -/
  factors : db'.twofactor=db.twofactor
  /-- Organisations. -/
  organizations : db'.organizations=db.organizations
  /-- The listed members are from the start. -/
  listed : ∀ m∈ms,m∈db.members ∧ m.userUuid=user ∧ m.status=Confirmed ∧
    OrgPolicy.active db.toTables m.orgUuid .twoFactorAuthentication=true
  /-- Whoever has to be revoked is listed. -/
  left : ∀ q∈db'.members,q.userUuid=user → Subject db .twoFactorAuthentication q → q∈ms

/-- A member is revoked. -/
theorem Releasing.next {m : Membership} {ms : List Membership} (hranged : Ranged db)
    (h : Releasing user db (m::ms) db₁)
    (heq : db'.toTables={db₁.toTables with members := put Membership.uuid m.revoke db₁.members}) :
    Releasing user db ms db' := by
  obtain ⟨hm,huser,-,-⟩ := h.listed m List.mem_cons_self
  have hmembers : db'.members=put Membership.uuid m.revoke db₁.members := by rw [heq]
  refine ⟨fun q hq => ?_,fun m₀ hm₀ => ?_,?_,?_,?_,fun m' hm' => h.listed m' (List.mem_cons_of_mem m hm'),
    fun q hq hquser hsubject => ?_⟩
  · rw [hmembers] at hq
    rcases mem_put.mp hq with rfl|⟨hq,-⟩
    · exact .inr ⟨m,hm,rfl⟩
    · exact h.rows q hq
  · rw [hmembers]
    obtain ⟨q,hq,hsame⟩ := h.kept m₀ hm₀
    by_cases he : q.uuid=m.revoke.uuid
    · have hm₀m : m₀=m := by
        refine eq_of_key db.member_nodup hm₀ hm ?_
        rw [← hsame.uuid,he,(sameMember_revoke m).uuid]
      rw [hm₀m]
      exact ⟨m.revoke,mem_put.mpr (.inl rfl),sameMember_revoke m⟩
    · exact ⟨q,mem_put.mpr (.inr ⟨hq,he⟩),hsame⟩
  · rw [heq]
    exact h.policies
  · rw [heq]
    exact h.factors
  · rw [heq]
    exact h.organizations
  · rw [hmembers] at hq
    rcases mem_put.mp hq with rfl|⟨hq,hne⟩
    · exact absurd (Or.inr hsubject.confirmed) (not_active_revoked (hranged m hm).2)
    · refine (List.mem_cons.mp (h.left q hq hquser hsubject)).resolve_left fun hqm => hne ?_
      rw [hqm,(sameMember_revoke m).uuid]

/-- `enforce_2fa_policy`, with mails that go out. -/
theorem ends_enforce2fa {settings : Settings} {u : User} (hranged : Ranged db)
    (hmail : settings.mailEnabled=true → Obliged db u.uuid → out.delivers u.email=true) :
    Ends (enforce2faPolicy settings out u) db fun r db' => r=.ok () ∧ Releases u.uuid db db' := by
  unfold enforce2faPolicy
  refine ends_lookup ((Ends.each (J:=Releasing u.uuid db) (E:=fun _ _ => False) (fun m ms db₁ h₁ => ?_)
    ⟨fun _ hq => .inl hq,fun m hm => ⟨m,hm,⟨rfl,rfl,rfl⟩⟩,rfl,rfl,rfl,fun m hm => (mem_findByUserAndPolicy).mp hm,
      fun q hq huser hsubject => (mem_findByUserAndPolicy).mpr ⟨hq,huser,hsubject.confirmed,hsubject.policy⟩⟩).mono
    fun r db' h => ?_)
  · obtain ⟨hm,huser,hstatus,hactive⟩ := h₁.listed m List.mem_cons_self
    split
    · rename_i hrole
      refine ⟨h₁.rows,h₁.kept,h₁.policies,h₁.factors,h₁.organizations,
        fun m' hm' => h₁.listed m' (List.mem_cons_of_mem m hm'),fun q hq hquser hsubject => ?_⟩
      refine (List.mem_cons.mp (h₁.left q hq hquser hsubject)).resolve_left ?_
      rintro rfl
      exact hsubject.role hrole
    · rename_i hrole
      have horg : ∃ o∈db₁.organizations,o.uuid=m.orgUuid := by
        rw [h₁.organizations]
        exact db.valid.2.1.2.1 m hm
      have hobliged : Obliged db u.uuid := ⟨m,hm,huser,hactive,hstatus,hrole⟩
      refine (ends_mailRemoved horg fun henabled => hmail henabled hobliged).bind (fun _ db₂ h₂ => ?_)
        fun e db₂ h₂ => by cases h₂.1
      obtain ⟨-,rfl⟩ := h₂
      obtain ⟨q,hq,hsame⟩ := h₁.kept m hm
      refine (ends_saveRevoked hq hsame).mono fun r db₃ ⟨hr,heq⟩ => ?_
      subst hr
      exact h₁.next hranged heq
  · cases r with
    | error e => exact h.elim
    | ok v =>
      refine ⟨rfl,h.rows,h.policies,h.factors,fun ⟨q,hq,huser,hsubject⟩ => ?_⟩
      have hsubject' : Subject db .twoFactorAuthentication q := hsubject.back h.policies
      exact absurd (h.left q hq huser hsubject') List.not_mem_nil

end Removing

end NadSafe.FactorWrites
