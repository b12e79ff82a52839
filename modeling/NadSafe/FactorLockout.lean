import NadSafe.FactorRows
import NadSafe.StepRuns
import NadSafe.TotpRuns

/-!
# Second factors that can verify a login

Complete operations of one account on its second factors, in any order. Every
factor that a login would ask for can verify one: an authenticator with a
secret, an e-mail factor with an address or keys that are registered. The
exception is the deletion of the last key, which leaves an empty list.
-/

namespace NadSafe.FactorLockout

open HostText TableRows AsyncScript AsyncScript.Script ServerTables StoreScript ServerModels
open OrgHandlers SecondFactors PlannedScript TableWrites FactorRows StepRuns

/-- An operation. -/
inductive Operation where
  /-- `activate_authenticator`. -/
  | activateAuthenticator (recoverCode key token : Text) (data : PasswordOrOtpData)
  /-- `disable_authenticator`. -/
  | disableAuthenticator (out : Outside) (key masterPasswordHash : Text) (type : NumberOrString)
  /-- `activate_email_2fa`. -/
  | activateEmail
  /-- `send_email`. -/
  | sendEmail (token : Text) (delivered : Bool) (address : Text) (data : PasswordOrOtpData)
  /-- `email`. -/
  | email (recoverCode token : Text) (data : PasswordOrOtpData)
  /-- `generate_webauthn_challenge`. -/
  | generateWebauthnChallenge (state : Option Text) (data : PasswordOrOtpData)
  /-- `activate_webauthn`. -/
  | activateWebauthn (recoverCode : Text) (id : NumberOrString) (name deviceResponse : Text)
      (data : PasswordOrOtpData)
  /-- `delete_webauthn`. -/
  | deleteWebauthn (id : NumberOrString) (masterPasswordHash : Text)
  /-- `disable_twofactor`. -/
  | disableTwofactor (out : Outside) (data : PasswordOrOtpData) (type : NumberOrString)
  /-- Time passes. -/
  | tick (seconds : ℕ)

/-- The handler of an operation. -/
def Operation.body (settings : FactorSettings) (user : Uuid) : Operation → Action Unit
  | .activateAuthenticator code key token data =>
    SecondFactors.activateAuthenticator settings code user key token data
  | .disableAuthenticator out key password type =>
    SecondFactors.disableAuthenticator settings out user key password type
  | .activateEmail => findAndActivateEmail2fa user
  | .sendEmail token delivered address data =>
    SecondFactors.sendEmail settings token delivered user address data
  | .email code token data => SecondFactors.email settings code user token data
  | .generateWebauthnChallenge state data => SecondFactors.generateWebauthnChallenge settings state user data
  | .activateWebauthn code id name response data =>
    SecondFactors.activateWebauthn settings code user id name response data
  | .deleteWebauthn id password => SecondFactors.deleteWebauthn settings user id password
  | .disableTwofactor out data type => SecondFactors.disableTwofactor settings out user data type
  | .tick seconds => SecondFactors.tick seconds

/-- The database after an operation. -/
def step (settings : FactorSettings) (user : Uuid) (db : Database) (op : Operation) : Database :=
  (complete (op.body settings user) db).2

/-- A factor that can verify a login. -/
def CanVerify (settings : FactorSettings) (f : TwoFactor) : Prop :=
  f.atype=Authenticator ∧ (∃ secret,f.data=.text secret ∧ (settings.base32Decode secret).isSome=true) ∨
  f.atype=TwoFactor.Email ∧ (∃ data,f.data=.emailToken data ∧ data.email≠[]) ∨
  f.atype=Webauthn ∧ ∃ keys,f.data=.registrations keys ∧ keys≠[]

/-- An account for which a login asks for a factor has one that can verify it. -/
def Unlocked (settings : FactorSettings) (user : Uuid) (db : Database) : Prop :=
  TwoFactor.findByUser db.toTables user≠[] →
    ∃ f∈TwoFactor.findByUser db.toTables user,f.enabled=true ∧ CanVerify settings f

/-- A deletion leaves a key, and a verified challenge has an address. -/
def Fair (settings : FactorSettings) (user : Uuid) (db : Database) : Operation → Prop
  | .deleteWebauthn id password => ∀ u∈db.users,u.uuid=user →
    User.checkValidPassword settings u password=true → ∀ f∈db.twofactor,f.key=(user,Webauthn) →
      ∀ keys n removed left,f.data=.registrations keys → id.intoI32=.ok n →
        removeFirst n keys=some (removed,left) → left≠[]
  | .email _ token _ => ∀ f∈db.twofactor,f.key=(user,EmailVerificationChallenge) →
    ∀ data,f.data=.emailToken data → data.lastToken=some token → data.email≠[]
  | _ => True

/-- What holds of one row of the account. -/
structure Ready (settings : FactorSettings) (f : TwoFactor) : Prop where
  /-- It is in use. -/
  enabled : f.enabled=true
  /-- A login can be verified by it, if it is asked for. -/
  verifies : f.atype<1000 → CanVerify settings f

/-- What holds of the account. -/
structure Good (settings : FactorSettings) (user : Uuid) (db : Database) : Prop where
  /-- Factors. -/
  rows : ∀ f∈db.twofactor,f.userUuid=user → f.atype≠ProtectedActions → Ready settings f
  /-- The address. -/
  address : ∀ u∈db.users,u.uuid=user → u.email≠[]

section Handlers

variable {settings : FactorSettings} {user : Uuid} {db : Database}

/-- The row of an authenticator after a check: the old data, or a secret that
can be decoded. -/
def Counted (settings : FactorSettings) (user : Uuid) (db : Database) (f : TwoFactor) : Prop :=
  f.key=(user,Authenticator) ∧ ((∃ g∈db.twofactor,g.key=f.key ∧ f.enabled=g.enabled ∧ f.data=g.data) ∨
    f.enabled=true ∧ ∃ secret,f.data=.text secret ∧ (settings.base32Decode secret).isSome=true)

/-- The row that a code is checked for. -/
theorem ends_authenticatorFor {secret : Text} : Ends (authenticatorFor user secret) db
    fun r db' => ∃ f,r=.ok f ∧ factors db'=factors db ∧ (f∈db.twofactor ∧ f.key=(user,Authenticator) ∨
      f.key=(user,Authenticator) ∧ f.enabled=true ∧ f.data=.text secret) := by
  unfold authenticatorFor
  refine ends_lookup ?_
  cases hfound : TwoFactor.findByUserAndType db.toTables user Authenticator with
  | some f =>
    obtain ⟨hf,hfuser,hftype⟩ := mem_of_findByUserAndType hfound
    exact ⟨f,rfl,rfl,.inl ⟨hf,Prod.ext hfuser hftype⟩⟩
  | none => exact ends_getUuid ⟨_,rfl,rfl,.inr ⟨rfl,rfl,rfl⟩⟩

/-- An accepted code is saved with its row. -/
theorem ends_checkTotp {decoded : Bytes} {code : Text} {f : TwoFactor} :
    Ends (checkTotp settings decoded code f) db
      fun _ db' => Grown (fun _ => True) (fun g => ∃ lastUsed,g={f with lastUsed := lastUsed}) db db' := by
  have hrefused : Grown (fun _ => True) (fun g => ∃ lastUsed,g={f with lastUsed := lastUsed}) db db :=
    (Shrunk.refl db).mono (fun _ h => h) fun _ h => h.elim
  refine ends_utcNow (Ends.expect (fun timeStep _ => ?_) fun _ => hrefused)
  refine ends_update_cases (fun db' h => ?_) hrefused
  exact (grown_save h).mono (fun _ _ => trivial) fun g hg => ⟨timeStep,hg⟩

theorem ends_validateTotp {code secret : Text} : Ends (validateTotpCode settings user code secret) db
    fun _ db' => Grown (fun _ => True) (Counted settings user db) db db' := by
  have hrefused : Grown (fun _ => True) (Counted settings user db) db db :=
    (Shrunk.refl db).mono (fun _ h => h) fun _ h => h.elim
  refine Ends.expect (fun decoded hdecoded => ?_) fun _ => hrefused
  refine (ends_authenticatorFor).bind (fun f db₁ hf => ?_) fun e db₁ ⟨f,he,_⟩ => by cases he
  obtain ⟨_,heq,hsame,hf⟩ := hf
  cases heq
  refine (ends_checkTotp).mono fun _ db' h => ?_
  refine ((grown_of_factors hsame).trans h).mono (fun _ _ => trivial) fun g hg => ?_
  rcases hg with hg|⟨lastUsed,rfl⟩
  · exact hg.1.elim
  · rcases hf with ⟨hf,hkey⟩|⟨hkey,henabled,hdata⟩
    · exact ⟨hkey,.inl ⟨f,hf,rfl,rfl,rfl⟩⟩
    · exact ⟨hkey,.inr ⟨henabled,secret,hdata,by rw [hdecoded]; rfl⟩⟩

theorem ends_activateAuthenticator {recoverCode key token : Text} {data : PasswordOrOtpData} :
    Ends (activateAuthenticator settings recoverCode user key token data) db
      fun _ db' => Grown (fun _ => True) (Counted settings user db) db db' := by
  have hrefused : ∀ db',Shrunk db db' → Grown (fun _ => True) (Counted settings user db) db db' :=
    fun db' h => h.mono (fun _ h => h) fun _ h => h.elim
  unfold activateAuthenticator
  refine ends_headers (fun u hu huuid => ?_) (hrefused db (Shrunk.refl db))
  refine ends_validate.bind (fun _ db₁ h₁ => ?_) fun e db₁ h₁ => hrefused db₁ h₁.1.shrunk
  replace h₁ : Untouched db db₁ := h₁
  -- A row that was counted before the check was one before it as well.
  have hcounted : ∀ f,Counted settings user db₁ f → Counted settings user db f := by
    rintro f ⟨hkey,hf⟩
    refine ⟨hkey,hf.imp_left fun ⟨g,hg,hgkey,h⟩ => ⟨g,h₁.rows g hg ?_,hgkey,h⟩⟩
    rw [show g.atype=Authenticator from congrArg Prod.snd (hgkey.trans hkey)]
    decide
  refine Ends.expect (fun decoded _ => ?_) fun _ => hrefused db₁ h₁.shrunk
  refine Ends.ensure (fun _ => ?_) fun _ => hrefused db₁ h₁.shrunk
  rw [huuid]
  have hgrown : ∀ db₂,Grown (fun _ => True) (Counted settings user db₁) db₁ db₂ →
      Grown (fun _ => True) (Counted settings user db) db db₂ :=
    fun db₂ h₂ => Untouched.grown h₁ (h₂.mono (fun _ h => h) hcounted)
  exact (ends_validateTotp).bind (fun _ db₂ h₂ => ends_recoverCode hu (hgrown db₂ h₂))
    fun e db₂ h₂ => hgrown db₂ h₂

theorem ends_disableAuthenticator {out : Outside} {key password : Text} {type : NumberOrString} :
    Ends (disableAuthenticator settings out user key password type) db fun _ db' => Shrunk db db' := by
  have hlast : ∀ u db₁,Shrunk db db₁ → Ends (enforceIfEmpty settings.toSettings out u) db₁
      fun _ db' => Shrunk db db' := fun u db₁ h₁ => (ends_frames frames_enforceIfEmpty).mono
    fun _ db' h => (h₁.trans (grown_of_factors h)).mono (fun _ _ => trivial) fun _ h => h.elim (fun h => h.1) id
  unfold disableAuthenticator
  refine ends_headers (fun u hu huuid => ?_) (Shrunk.refl db)
  refine ends_fromExcept (fun n _ => ?_) fun _ _ => Shrunk.refl db
  refine Ends.ensure (fun _ => ends_lookup ?_) fun _ => Shrunk.refl db
  cases hfound : TwoFactor.findByUserAndType db.toTables u.uuid n with
  | none => exact hlast u db (Shrunk.refl db)
  | some f =>
    have hf := (mem_of_findByUserAndType hfound).1
    refine Ends.ensure (fun _ => ?_) fun _ => Shrunk.refl db
    refine ends_update_cases (fun db₁ h => hlast u db₁ ?_) (Shrunk.refl db)
    exact (grown_delete hf h).mono (fun _ _ => trivial) fun _ h => h

/-- Reading the registered keys. -/
theorem ends_registrations {α : Type} {g : List WebauthnRegistration → Action α}
    {P : Except String α → Database → Prop} (hok : ∀ keys,Ends (g keys) db P)
    (herror : P (.error "invalid registrations") db) :
    Ends ((getWebauthnRegistrations user).bind g) db P := by
  have hread : Ends (getWebauthnRegistrations user) db
      fun r db' => db'=db ∧ ((∃ keys,r=.ok keys) ∨ r=.error "invalid registrations") := by
    unfold getWebauthnRegistrations
    refine ends_lookup ?_
    cases TwoFactor.findByUserAndType db.toTables user Webauthn with
    | none => exact ⟨rfl,.inl ⟨[],rfl⟩⟩
    | some f =>
      dsimp only
      cases f.data with
      | registrations keys => exact ⟨rfl,.inl ⟨keys,rfl⟩⟩
      | _ => exact ⟨rfl,.inr rfl⟩
  refine hread.bind (fun keys db' h => ?_) fun e db' h => ?_
  · obtain ⟨rfl,-⟩ := h
    exact hok keys
  · obtain ⟨rfl,⟨_,he⟩|he⟩ := h
    · cases he
    · cases he
      exact herror

/-- A challenge for a new key. -/
theorem ends_generateChallenge {state : Option Text} {data : PasswordOrOtpData} :
    Ends (generateWebauthnChallenge settings state user data) db fun _ db' =>
      Grown (fun _ => True) (fun f => f.key=(user,WebauthnRegisterChallenge) ∧ f.enabled=true) db db' := by
  have hrefused : ∀ db',Shrunk db db' →
      Grown (fun _ => True) (fun f => f.key=(user,WebauthnRegisterChallenge) ∧ f.enabled=true) db db' :=
    fun db' h => h.mono (fun _ h => h) fun _ h => h.elim
  unfold generateWebauthnChallenge
  refine ends_headers (fun u hu huuid => ?_) (hrefused db (Shrunk.refl db))
  refine ends_validate.bind (fun _ db₁ h₁ => ?_) fun e db₁ h₁ => hrefused db₁ h₁.1.shrunk
  replace h₁ : Untouched db db₁ := h₁
  refine ends_registrations (fun _ => ?_) (hrefused db₁ h₁.shrunk)
  refine Ends.expect (fun challenge _ => ?_) fun _ => hrefused db₁ h₁.shrunk
  refine ends_getUuid (ends_update_end (fun db' h => ?_) ?_)
  · refine Untouched.grown h₁ (Grown.drawn ((grown_save h).mono (fun _ _ => trivial) ?_))
    rintro f rfl
    exact ⟨congrArg (·,WebauthnRegisterChallenge) huuid,rfl⟩
  · have hshrunk := h₁.shrunk
    exact hrefused _ ⟨hshrunk.rows,hshrunk.accounts,hshrunk.clock⟩

/-- A row with registered keys. -/
def Registered (user : Uuid) (f : TwoFactor) : Prop :=
  f.key=(user,Webauthn) ∧ f.enabled=true ∧ ∃ keys,f.data=.registrations keys ∧ keys≠[]

theorem ends_activateWebauthn {recoverCode name response : Text} {id : NumberOrString}
    {data : PasswordOrOtpData} : Ends (activateWebauthn settings recoverCode user id name response data) db
      fun _ db' => Grown (fun _ => True) (Registered user) db db' := by
  have hrefused : ∀ db',Shrunk db db' → Grown (fun _ => True) (Registered user) db db' :=
    fun db' h => h.mono (fun _ h => h) fun _ h => h.elim
  unfold activateWebauthn
  refine ends_headers (fun u hu huuid => ?_) (hrefused db (Shrunk.refl db))
  refine ends_validate.bind (fun _ db₁ h₁ => ?_) fun e db₁ h₁ => hrefused db₁ h₁.1.shrunk
  replace h₁ : Untouched db db₁ := h₁
  refine ends_lookup (Ends.expect (fun challenge hfound => ?_) fun _ => hrefused db₁ h₁.shrunk)
  have hchallenge := (mem_of_findByUserAndType hfound).1
  refine Ends.expect (fun state _ => ?_) fun _ => hrefused db₁ h₁.shrunk
  refine ends_update_cases (fun db₂ h₂ => ?_) (hrefused db₁ h₁.shrunk)
  have hdeleted : Shrunk db db₂ :=
    Untouched.grown h₁ ((grown_delete hchallenge h₂).mono (fun _ _ => trivial) fun _ h => h)
  refine Ends.expect (fun credential _ => ?_) fun _ => hrefused db₂ hdeleted
  refine ends_registrations (fun keys => ?_) (hrefused db₂ hdeleted)
  refine ends_fromExcept (fun n _ => ?_) fun _ _ => hrefused db₂ hdeleted
  refine ends_getUuid (ends_update_cases (fun db₃ h₃ => ?_) ?_)
  · refine ends_recoverCode hu ((hdeleted.trans (Grown.drawn (grown_save h₃))).mono (fun _ _ => trivial) ?_)
    rintro f (⟨hf,-⟩|rfl)
    · exact hf.elim
    · exact ⟨congrArg (·,Webauthn) huuid,rfl,_,rfl,List.append_ne_nil_of_right_ne_nil _ (List.cons_ne_nil _ _)⟩
  · exact hrefused _ ⟨hdeleted.rows,hdeleted.accounts,hdeleted.clock⟩

/-- A row that a deletion saves: keys without one of them, or keys of the older
kind. -/
def Removed (settings : FactorSettings) (user : Uuid) (id : NumberOrString) (password : Text) (db : Database)
    (f : TwoFactor) : Prop :=
  ∃ u∈db.users,u.uuid=user ∧ User.checkValidPassword settings u password=true ∧
    ∃ g∈db.twofactor,f.key=g.key ∧ f.enabled=g.enabled ∧
      (g.key=(user,U2f) ∨ g.key=(user,Webauthn) ∧ ∃ keys n removed left,g.data=.registrations keys ∧
        id.intoI32=.ok n ∧ removeFirst n keys=some (removed,left) ∧ f.data=.registrations left)

theorem ends_deleteWebauthn {id : NumberOrString} {password : Text} :
    Ends (deleteWebauthn settings user id password) db
      fun _ db' => Grown (fun _ => True) (Removed settings user id password db) db db' := by
  have hrefused : Grown (fun _ => True) (Removed settings user id password db) db db :=
    (Shrunk.refl db).mono (fun _ h => h) fun _ h => h.elim
  unfold deleteWebauthn
  refine ends_headers (fun u hu huuid => ?_) hrefused
  refine ends_fromExcept (fun n hn => ?_) fun _ _ => hrefused
  refine Ends.ensure (fun hpassword => ends_lookup ?_) fun _ => hrefused
  refine Ends.expect (fun f hfound => ?_) fun _ => hrefused
  obtain ⟨hf,hfuser,hftype⟩ := mem_of_findByUserAndType hfound
  have hkey : f.key=(user,Webauthn) := Prod.ext (hfuser.trans huuid) hftype
  refine Ends.expect (fun keys hkeys => ?_) fun _ => hrefused
  have hdata : f.data=.registrations keys := by
    cases hd : f.data <;> rw [hd] at hkeys <;> cases hkeys
    rfl
  refine Ends.expect (fun (removed,left) hleft => ?_) fun _ => hrefused
  refine ends_update_cases (fun db₁ h₁ => ?_) hrefused
  have hfirst : Grown (fun _ => True) (Removed settings user id password db) db db₁ := by
    refine (grown_save h₁).mono (fun _ _ => trivial) ?_
    rintro g rfl
    exact ⟨u,hu,huuid,hpassword,f,hf,rfl,rfl,.inr ⟨hkey,keys,n,removed,left,hdata,hn,hleft,rfl⟩⟩
  refine ends_lookup ?_
  cases hu2f : TwoFactor.findByUserAndType db₁.toTables u.uuid U2f with
  | none => exact hfirst
  | some g =>
    obtain ⟨hg,hguser,hgtype⟩ := mem_of_findByUserAndType hu2f
    have hgkey : g.key=(user,U2f) := Prod.ext (hguser.trans huuid) hgtype
    refine Ends.expect (fun handles _ => ?_) fun _ => hfirst
    refine ends_update_end (fun db₂ h₂ => ?_) hfirst
    -- The row was there before the first save.
    have hold : g∈db.twofactor := by
      have hother : U2f≠Webauthn := by decide
      rw [h₁] at hg
      rcases mem_saved hg with rfl|⟨hg,-⟩
      · exact absurd (congrArg Prod.snd (hgkey.symm.trans hkey)) hother
      · exact hg
    refine (hfirst.trans (grown_save h₂)).mono (fun _ _ => trivial) ?_
    rintro q (⟨hq,-⟩|rfl)
    · exact hq
    · exact ⟨u,hu,huuid,hpassword,g,hold,rfl,rfl,.inl hgkey⟩

end Handlers

section Runs

variable {settings : FactorSettings} {user : Uuid} {db db' : Database}

/-- New rows that are ready keep the account ready. -/
theorem good_of_grown {keep new : TwoFactor → Prop} (h : Grown keep new db db') (hgood : Good settings user db)
    (hnew : ∀ f,new f → f.userUuid=user → Ready settings f) : Good settings user db' := by
  refine ⟨fun f hf huser htype => ?_,fun u hu huuid => ?_⟩
  · rcases h.rows f hf htype with ⟨hf,-⟩|hf
    · exact hgood.rows f hf huser htype
    · exact hnew f hf huser
  · obtain ⟨v,hv,hvuuid,hemail⟩ := h.accounts u hu
    rw [← hemail]
    exact hgood.address v hv (hvuuid.trans huuid)

theorem good_of_shrunk (h : Shrunk db db') (hgood : Good settings user db) : Good settings user db' :=
  good_of_grown h hgood fun _ hf => hf.elim

/-- A row of the account by its key. -/
theorem Good.ready (hgood : Good settings user db) {f : TwoFactor} {atype : ℤ} (hf : f∈db.twofactor)
    (hkey : f.key=(user,atype)) (htype : atype≠ProtectedActions) : Ready settings f := by
  refine hgood.rows f hf (congrArg Prod.fst hkey) ?_
  rw [show f.atype=atype from congrArg Prod.snd hkey]
  exact htype

/-- An authenticator with the data of a row that is ready is ready. -/
theorem Counted.ready (hgood : Good settings user db) {f : TwoFactor} (hf : Counted settings user db f) :
    Ready settings f := by
  obtain ⟨hkey,⟨g,hg,hgkey,henabled,hdata⟩|⟨henabled,hsecret⟩⟩ := hf
  · have hready := hgood.ready hg (hgkey.trans hkey) (by decide)
    have htype : f.atype=g.atype := congrArg Prod.snd hgkey.symm
    refine ⟨henabled.trans hready.enabled,fun hlow => ?_⟩
    have hverifies := hready.verifies (htype ▸ hlow)
    unfold CanVerify at hverifies ⊢
    rw [htype,hdata]
    exact hverifies
  · exact ⟨henabled,fun _ => .inl ⟨congrArg Prod.snd hkey,hsecret⟩⟩

theorem ready_of_automatic (hgood : Good settings user db) {f : TwoFactor} (hf : Automatic user db f) :
    Ready settings f := by
  obtain ⟨u,hu,huuid,hkey,henabled,hdata⟩ := hf
  exact ⟨henabled,fun _ => .inr (.inl ⟨congrArg Prod.snd hkey,_,hdata,hgood.address u hu huuid⟩)⟩

/-- Challenges are not asked for. -/
theorem ready_of_high {f : TwoFactor} {atype : ℤ} (hkey : f.key=(user,atype)) (henabled : f.enabled=true)
    (hhigh : ¬atype<1000) : Ready settings f := by
  refine ⟨henabled,fun hlow => ?_⟩
  rw [show f.atype=atype from congrArg Prod.snd hkey] at hlow
  exact absurd hlow hhigh

theorem Registered.ready {f : TwoFactor} (hf : Registered user f) : Ready settings f := by
  obtain ⟨hkey,henabled,hkeys⟩ := hf
  exact ⟨henabled,fun _ => .inr (.inr ⟨congrArg Prod.snd hkey,hkeys⟩)⟩

/-- A challenge with an address becomes a factor with it. -/
theorem ready_of_verified (hgood : Good settings user db) {code token : Text} {data : PasswordOrOtpData}
    (hfair : Fair settings user db (.email code token data)) {f : TwoFactor} (hf : Verified user token db f) :
    Ready settings f := by
  obtain ⟨g,hg,d,hgkey,hdata,htoken,hkey,henabled,hreset⟩ := hf
  have hready := hgood.ready hg hgkey (by decide)
  have haddress := hfair g hg hgkey d hdata htoken
  exact ⟨henabled.trans hready.enabled,fun _ => .inr (.inl ⟨congrArg Prod.snd hkey,_,hreset,haddress⟩)⟩

/-- Rows of the older kind of keys do not occur. -/
theorem Good.no_u2f (hgood : Good settings user db) {f : TwoFactor} (hf : f∈db.twofactor) :
    f.key≠(user,U2f) := by
  intro hkey
  have htype : f.atype=U2f := congrArg Prod.snd hkey
  have hverifies := (hgood.ready hf hkey (by decide)).verifies (by rw [htype]; decide)
  unfold CanVerify at hverifies
  rw [htype] at hverifies
  rcases hverifies with ⟨h,-⟩|⟨h,-⟩|⟨h,-⟩
  all_goals exact absurd h (by decide)

theorem good_sendEmail {token address : Text} {delivered : Bool} {data : PasswordOrOtpData}
    (hgood : Good settings user db) :
    Good settings user (step settings user db (.sendEmail token delivered address data)) := by
  have hends : Ends (sendEmail settings token delivered user address data) db
      fun _ db' => Good settings user db' := by
    refine ends_sendEmail.mono fun r db' h => ?_
    by_cases hissued : Issued r
    · exact good_of_grown (h.1 hissued) hgood fun f hf _ => ready_of_high hf.1 hf.2.1 (by decide)
    · exact good_of_shrunk (h.2 hissued) hgood
  exact hends

theorem good_deleteWebauthn {id : NumberOrString} {password : Text} (hgood : Good settings user db)
    (hfair : Fair settings user db (.deleteWebauthn id password)) :
    Good settings user (step settings user db (.deleteWebauthn id password)) := by
  have hends : Ends (deleteWebauthn settings user id password) db fun _ db' => Good settings user db' := by
    refine (ends_deleteWebauthn).mono fun _ db' h => good_of_grown h hgood fun f hf _ => ?_
    obtain ⟨u,hu,huuid,hpassword,g,hg,hkey,henabled,hcase⟩ := hf
    rcases hcase with hu2f|⟨hgkey,keys,n,removed,left,hkeys,hn,hleft,hdata⟩
    · exact absurd hu2f (hgood.no_u2f hg)
    · have hsome := hfair u hu huuid hpassword g hg hgkey keys n removed left hkeys hn hleft
      have hready := hgood.ready hg hgkey (by decide)
      exact ⟨henabled.trans hready.enabled,
        fun _ => .inr (.inr ⟨congrArg Prod.snd (hkey.trans hgkey),left,hdata,hsome⟩)⟩
  exact hends

/-- Every operation that meets the condition keeps the account ready. -/
theorem good_step (hgood : Good settings user db) (op : Operation) (hfair : Fair settings user db op) :
    Good settings user (step settings user db op) := by
  have hkept : ∀ {p : Action Unit} {keep new : TwoFactor → Prop},
      (Ends p db fun _ db' => Grown keep new db db') → (∀ f,new f → Ready settings f) →
        Good settings user (complete p db).2 :=
    fun hends hnew => good_of_grown hends hgood fun f hf _ => hnew f hf
  cases op with
  | activateAuthenticator code key token data =>
    exact hkept ends_activateAuthenticator fun _ hf => hf.ready hgood
  | disableAuthenticator out key password type => exact good_of_shrunk ends_disableAuthenticator hgood
  | activateEmail => exact hkept ends_activate fun _ hf => ready_of_automatic hgood hf
  | sendEmail token delivered address data => exact good_sendEmail hgood
  | email code token data => exact hkept ends_email fun f hf => ready_of_verified hgood hfair hf
  | generateWebauthnChallenge state data =>
    exact hkept ends_generateChallenge fun _ hf => ready_of_high hf.1 hf.2 (by decide)
  | activateWebauthn code id name response data => exact hkept ends_activateWebauthn fun _ hf => hf.ready
  | deleteWebauthn id password => exact good_deleteWebauthn hgood hfair
  | disableTwofactor out data type => exact good_of_shrunk ends_disable hgood
  | tick seconds =>
    have hends : Ends (tick seconds) db fun _ db' => Good settings user db' :=
      ends_update_end (fun db' h => ⟨by rw [h]; exact hgood.rows,by rw [h]; exact hgood.address⟩) hgood
    exact hends

/-- A ready account is not locked. -/
theorem Good.unlocked (hgood : Good settings user db) : Unlocked settings user db := by
  intro hsome
  obtain ⟨f,hf⟩ := List.exists_mem_of_ne_nil _ hsome
  obtain ⟨hmem,hrow⟩ := List.mem_filter.mp hf
  rw [decide_eq_true_eq] at hrow
  have htype : f.atype≠ProtectedActions := by
    intro h
    rw [h] at hrow
    exact absurd hrow.2 (by decide)
  have hready := hgood.rows f hmem hrow.1 htype
  exact ⟨f,hf,hready.enabled,hready.verifies hrow.2⟩

/-- From an account with an address and without second factors, every state
that is reached has a factor that can verify a login if a login asks for one,
unless a deletion has removed the last key or a challenge without an address
was verified. -/
theorem unlocked_run {start : Database} (haddress : ∀ u∈start.users,u.uuid=user → u.email≠[])
    (hstart : ∀ f∈start.twofactor,f.userUuid=user → f.atype=ProtectedActions) {ops : List Operation}
    (hfair : Admits (step settings user) (Fair settings user) start ops) :
    Unlocked settings user (run (step settings user) start ops) := by
  have hgood : Good settings user start :=
    ⟨fun f hf huser htype => absurd (hstart f hf huser) htype,haddress⟩
  have hstep : ∀ db op,Good settings user db → Fair settings user db op →
      Good settings user (step settings user db op) := fun db op hdb h => good_step hdb op h
  exact (run_invariant hstep hgood hfair).unlocked

end Runs

section Samples

/-- A key is registered. -/
def register : List Operation :=
  [.generateWebauthnChallenge (some ['c']) ⟨some [],none⟩,
    .activateWebauthn ['r'] (.number 1) ['k'] ['d'] ⟨some [],none⟩]

/-- An account with an address. -/
def addressed : Database := ⟨{Tables.none with
  users := [User.new 1 0 [] 600000 ['a'] none]
  next := 2},by decide⟩

/-- The last key is deleted, and no factor is left that can verify a login. -/
theorem locked_run : ¬Unlocked TotpRuns.countingSettings 1
    (run (step TotpRuns.countingSettings 1) addressed (register++[Operation.deleteWebauthn (.number 1) []])) := by
  intro h
  have hrows : TwoFactor.findByUser (run (step TotpRuns.countingSettings 1) addressed
      (register++[Operation.deleteWebauthn (.number 1) []])).toTables 1=[⟨3,1,Webauthn,true,.registrations [],0⟩] := by
    decide
  obtain ⟨f,hf,-,hverifies⟩ := h (by rw [hrows]; exact List.cons_ne_nil _ _)
  rw [hrows,List.mem_singleton] at hf
  subst hf
  rcases hverifies with ⟨htype,-⟩|⟨htype,-⟩|⟨-,keys,hkeys,hne⟩
  · exact absurd htype (by decide)
  · exact absurd htype (by decide)
  · cases hkeys
    exact hne rfl

/-- With the key the account is not locked. -/
theorem unlocked_run_registered : Unlocked TotpRuns.countingSettings 1
    (run (step TotpRuns.countingSettings 1) addressed register) :=
  unlocked_run (by decide) (by decide) ⟨trivial,trivial,trivial⟩

end Samples

end NadSafe.FactorLockout
