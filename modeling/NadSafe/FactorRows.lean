import NadSafe.SecondFactors
import NadSafe.TableWrites

/-!
# What handlers do to the rows of second factors

The parts that the handlers of second factors share, run alone: the check of
a password or a token of a protected action changes rows of that type only,
the recovery code and the policies of organisations change none.
-/

namespace NadSafe.FactorRows

open HostText TableRows AsyncScript AsyncScript.Script ServerTables StoreScript ServerModels
open OrgHandlers SecondFactors RelyScript PlannedScript TableWrites SequentialScript
open CipherHandlers (fromExcept headers)

variable {α β : Type} {settings : FactorSettings} {db : Database} {P : Except String α → Database → Prop}

theorem ends_utcNow {g : ℤ → Action α} (h : Ends (g db.now) db P) : Ends (utcNow.bind g) db P := h

theorem ends_getUuid {g : Uuid → Action α} (h : Ends (g db.next) db.drawn P) :
    Ends (getUuid.bind g) db P := h

theorem ends_fromExcept {r : Except String β} {g : β → Action α} (hok : ∀ b,r=.ok b → Ends (g b) db P)
    (herror : ∀ e,r=.error e → P (.error e) db) : Ends ((fromExcept r).bind g) db P := by
  cases r with
  | ok b => exact hok b rfl
  | error e => exact herror e rfl

/-- The account of the caller. -/
theorem ends_headers {caller : Uuid} {g : User → Action α}
    (hfound : ∀ u∈db.users,u.uuid=caller → Ends (g u) db P)
    (hnone : P (.error "Device has no user associated") db) : Ends ((headers caller).bind g) db P := by
  show Ends ((expect "Device has no user associated" (db.users.find? fun u => u.uuid=caller)).bind g) db P
  refine Ends.expect (fun u hu => ?_) fun _ => hnone
  have huuid := List.find?_some hu
  rw [decide_eq_true_eq] at huuid
  exact hfound u (List.mem_of_find?_eq_some hu) huuid

/-- A part that a handler never writes is the same at its end. -/
theorem ends_frames {τ : Type} {part : Database → τ} {p : Action α} (h : Frames exec part p) :
    Ends p db fun _ db' => part db'=part db := by
  have hkept : Ensures exec (fun _ => True) (fun _ db' => part db'=part db) (fun db' => part db'=part db) p db :=
    (Ensures.frame (fun _ s hc => hc s) h db).mono (fun _ _ h => h.2) fun _ h => h
  exact hkept.always fun _ => trivial

/-- The second factors, the accounts and the clock. -/
def factors (db : Database) : List TwoFactor×List User×ℤ := (db.twofactor,db.users,db.now)

theorem frames_mailRemoved {settings : Settings} {out : Outside} {org : Uuid} {email : Text} :
    Frames exec factors (mailRemoved settings out org email) :=
  Frames.ite (fun _ => Frames.bind (frames_lookup _) fun _ => Frames.bind (Frames.expect _ _) fun _ =>
    Frames.ensure _ _) fun _ => Frames.pure _

/-- Policies are enforced on memberships. -/
theorem frames_enforce {settings : Settings} {out : Outside} {user : User} :
    Frames exec factors (enforce2faPolicy settings out user) := by
  refine Frames.bind (frames_lookup _) fun members => Frames.each fun m _ => ?_
  refine Frames.ite (fun _ => Frames.pure _) fun _ => Frames.bind frames_mailRemoved fun _ => ?_
  refine frames_update fun db db' h => ?_
  unfold factors
  rw [h]

theorem frames_enforceIfEmpty {settings : Settings} {out : Outside} {user : User} :
    Frames exec factors (enforceIfEmpty settings out user) :=
  Frames.bind (frames_lookup _) fun _ => Frames.ite (fun _ => frames_enforce) fun _ => Frames.pure _

/-- Only rows of protected actions are new. -/
structure Untouched (db db' : Database) : Prop where
  /-- Rows of other types. -/
  rows : ∀ f∈db'.twofactor,f.atype≠ProtectedActions → f∈db.twofactor
  /-- Accounts. -/
  users : db'.users=db.users
  /-- The clock. -/
  clock : db'.now=db.now

theorem Untouched.refl (db : Database) : Untouched db db := ⟨fun _ hf _ => hf,rfl,rfl⟩

/-- The check of a password or a token, with the messages it may fail with. -/
def validationErrors : List String :=
  ["Invalid password","No validation provided",
    "Protected action token not found, try sending the code again or restart the process",
    "Could not decode ProtectedActionData from string","Token has expired","Token is invalid",
    "Error deleting twofactor","Error saving twofactor"]

/-- What a check leaves. -/
def Validated (db : Database) : Except String Unit → Database → Prop
  | .ok _,db' => Untouched db db'
  | .error e,db' => Untouched db db' ∧ e∈validationErrors

theorem untouched_delete {db' : Database} {keep : TwoFactor → Bool}
    (h : db'.toTables={db.toTables with twofactor := db.twofactor.filter keep}) : Untouched db db' := by
  refine ⟨fun f hf _ => ?_,by rw [h],by rw [h]⟩
  rw [h] at hf
  exact List.mem_of_mem_filter hf

theorem untouched_save {db' : Database} {f : TwoFactor} (hf : f.atype=ProtectedActions)
    (h : db'.toTables={db.toTables with twofactor := TwoFactor.saved f db.twofactor}) : Untouched db db' := by
  refine ⟨fun g hg hother => ?_,by rw [h],by rw [h]⟩
  rw [h] at hg
  rcases mem_saved hg with rfl|⟨hg,-⟩
  · exact absurd hf hother
  · exact hg

theorem ends_protectedAction {otp : Text} {user : Uuid} {deleteIfValid : Bool} :
    Ends (validateProtectedActionOtp settings otp user deleteIfValid) db (Validated db) := by
  have hfail : ∀ e∈validationErrors,Validated db (.error e) db := fun e he => ⟨Untouched.refl db,he⟩
  have hmissing := hfail
    "Protected action token not found, try sending the code again or restart the process" (by decide)
  unfold validateProtectedActionOtp
  refine ends_lookup ?_
  refine Ends.expect (fun pa hpa => ?_) fun _ => hmissing
  obtain ⟨-,-,htype⟩ := mem_of_findByUserAndType hpa
  refine ends_fromExcept (fun data _ => ?_) fun e he => ?_
  · have hexpired := hfail "Token has expired" (by decide)
    have hdelete := hfail "Error deleting twofactor" (by decide)
    have hsave := hfail "Error saving twofactor" (by decide)
    refine Ends.ensure (fun _ => ends_utcNow ?_) fun _ => hexpired
    split
    · exact ends_update_cases (fun db' h => ⟨untouched_delete h,by decide⟩) hdelete
    · split
      · refine ends_update_cases (fun db' h => ?_) hsave
        have hsaved : Untouched db db' := untouched_save (by exact htype) h
        exact ⟨hsaved,by decide⟩
      · split
        · exact ends_update_end (fun db' h => untouched_delete h) hdelete
        · exact Untouched.refl db
  · have hmessage : e="Could not decode ProtectedActionData from string" := by
      cases hd : pa.data <;> rw [hd] at he <;> cases he <;> rfl
    subst hmessage
    exact hfail _ (by decide)

theorem ends_validate {data : PasswordOrOtpData} {user : User} {deleteIfValid : Bool} :
    Ends (data.validate settings user deleteIfValid) db (Validated db) := by
  unfold PasswordOrOtpData.validate
  split
  · exact Ends.ensure_done (fun _ => Untouched.refl db) fun _ => ⟨Untouched.refl db,by decide⟩
  · exact ends_protectedAction
  · exact ⟨Untouched.refl db,by decide⟩

/-- A row is an old one that is kept or a new one; accounts keep their
addresses. -/
structure Grown (keep new : TwoFactor → Prop) (db db' : Database) : Prop where
  /-- Rows, protected actions apart. -/
  rows : ∀ f∈db'.twofactor,f.atype≠ProtectedActions → f∈db.twofactor ∧ keep f ∨ new f
  /-- Accounts. -/
  accounts : ∀ u∈db'.users,∃ v∈db.users,v.uuid=u.uuid ∧ v.email=u.email
  /-- The clock. -/
  clock : db'.now=db.now

section Grown

variable {keep new keep' new' : TwoFactor → Prop} {db₁ db' : Database}

/-- Old rows only. -/
abbrev Shrunk (db db' : Database) : Prop := Grown (fun _ => True) (fun _ => False) db db'

theorem Grown.mono (h : Grown keep new db db') (hkeep : ∀ f,keep f → keep' f) (hnew : ∀ f,new f → new' f) :
    Grown keep' new' db db' :=
  ⟨fun f hf ht => (h.rows f hf ht).imp (fun hold => ⟨hold.1,hkeep f hold.2⟩) (hnew f),h.accounts,h.clock⟩

theorem Untouched.shrunk (h : Untouched db db') : Shrunk db db' :=
  ⟨fun f hf ht => .inl ⟨h.rows f hf ht,trivial⟩,fun u hu => ⟨u,h.users ▸ hu,rfl,rfl⟩,h.clock⟩

theorem Shrunk.refl (db : Database) : Shrunk db db := (Untouched.refl db).shrunk

/-- After a check. -/
theorem Untouched.grown (h : Untouched db db₁) (h' : Grown keep new db₁ db') : Grown keep new db db' := by
  refine ⟨fun f hf ht => ?_,?_,h'.clock.trans h.clock⟩
  · exact (h'.rows f hf ht).imp_left fun hold => ⟨h.rows f hold.1 ht,hold.2⟩
  · rw [← h.users]
    exact h'.accounts

/-- A row is saved. -/
theorem grown_save {f : TwoFactor}
    (h : db'.toTables={db.toTables with twofactor := TwoFactor.saved f db.twofactor}) :
    Grown (fun g => g.key≠f.key) (fun g => g=f) db db' := by
  refine ⟨fun g hg _ => ?_,fun u hu => ⟨u,?_,rfl,rfl⟩,by rw [h]⟩
  · rw [h] at hg
    rcases mem_saved hg with rfl|⟨hg,hkey,-⟩
    · exact .inr rfl
    · exact .inl ⟨hg,hkey⟩
  · rw [h] at hu
    exact hu

/-- Rows are deleted. -/
theorem grown_delete {f : TwoFactor} (hf : f∈db.twofactor) (h : db'.toTables={db.toTables with
    twofactor := db.twofactor.filter fun r => r.uuid≠f.uuid}) :
    Grown (fun g => g.key≠f.key) (fun _ => False) db db' := by
  refine ⟨fun g hg _ => .inl ?_,fun u hu => ⟨u,?_,rfl,rfl⟩,by rw [h]⟩
  · rw [h] at hg
    obtain ⟨hg,hne⟩ := List.mem_filter.mp hg
    refine ⟨hg,fun hkey => ?_⟩
    have hsame : g=f := eq_of_key db.factor_nodup hg hf hkey
    subst hsame
    simp at hne
  · rw [h] at hu
    exact hu

/-- A uuid that was drawn before makes no difference. -/
theorem Grown.drawn (h : Grown keep new db.drawn db') : Grown keep new db db' :=
  ⟨h.rows,h.accounts,h.clock⟩

/-- Two changes, one after the other. -/
theorem Grown.trans (h : Grown keep new db db₁) (h' : Grown keep' new' db₁ db') :
    Grown (fun f => keep f ∧ keep' f) (fun f => new f ∧ keep' f ∨ new' f) db db' := by
  refine ⟨fun f hf ht => ?_,fun u hu => ?_,h'.clock.trans h.clock⟩
  · rcases h'.rows f hf ht with ⟨hf,hkeep'⟩|hnew'
    · rcases h.rows f hf ht with ⟨hf,hkeep⟩|hnew
      · exact .inl ⟨hf,hkeep,hkeep'⟩
      · exact .inr (.inl ⟨hnew,hkeep'⟩)
    · exact .inr (.inr hnew')
  · obtain ⟨v,hv,huuid,hemail⟩ := h'.accounts u hu
    obtain ⟨w,hw,huuid',hemail'⟩ := h.accounts v hv
    exact ⟨w,hw,huuid'.trans huuid,hemail'.trans hemail⟩

theorem grown_of_factors (h : factors db'=factors db) : Shrunk db db' := by
  unfold factors at h
  simp only [Prod.mk.injEq] at h
  obtain ⟨hrows,husers,hnow⟩ := h
  refine ⟨fun f hf _ => .inl ⟨?_,trivial⟩,fun u hu => ⟨u,?_,rfl,rfl⟩,hnow⟩
  · rwa [hrows] at hf
  · rwa [husers] at hu

end Grown

section Handlers

variable {user : Uuid}

/-- A recovery code is saved with the account that was read at the start. -/
theorem ends_recoverCode {keep new : TwoFactor → Prop} {db₁ : Database} {code : Text} {u : User}
    (hu : u∈db.users) (h : Grown keep new db db₁) :
    Ends (generateRecoverCode settings code u) db₁ fun _ db' => Grown keep new db db' := by
  unfold generateRecoverCode
  split
  · refine Ends.rescue (Q:=fun _ db' => Grown keep new db db') ?_ (fun _ _ h => h) fun _ _ h => h
    unfold User.save
    split
    · refine ends_update_end (fun db' hsaved => ?_) h
      refine ⟨?_,fun v hv => ?_,?_⟩
      · rw [hsaved]
        exact h.rows
      · rw [hsaved] at hv
        rcases mem_put.mp hv with rfl|⟨hv,-⟩
        · exact ⟨u,hu,rfl,rfl⟩
        · exact h.accounts v hv
      · rw [hsaved]
        exact h.clock
    · exact h
  · exact h

/-- The row of an automatic activation. -/
def Automatic (user : Uuid) (db : Database) (f : TwoFactor) : Prop :=
  ∃ u∈db.users,u.uuid=user ∧ f.key=(user,TwoFactor.Email) ∧ f.enabled=true ∧
    f.data=.emailToken ⟨u.email,some [],db.now,0⟩

theorem ends_activate : Ends (findAndActivateEmail2fa user) db
    fun _ db' => Grown (fun _ => True) (Automatic user db) db db' := by
  have hrefused : Grown (fun _ => True) (Automatic user db) db db :=
    (Shrunk.refl db).mono (fun _ h => h) fun _ h => h.elim
  unfold findAndActivateEmail2fa User.findByUuid
  refine ends_lookup ?_
  cases hfound : db.users.find? fun u => u.uuid=user with
  | none => exact hrefused
  | some u =>
    have huuid := List.find?_some hfound
    rw [decide_eq_true_eq] at huuid
    have hu := List.mem_of_find?_eq_some hfound
    show Ends (activateEmail2fa u) db _
    unfold activateEmail2fa
    split
    · refine ends_getUuid (ends_utcNow (ends_update_end (fun db' h => ?_) ?_))
      · refine Grown.drawn ((grown_save h).mono (fun _ _ => trivial) ?_)
        rintro f rfl
        exact ⟨u,hu,huuid,congrArg (·,TwoFactor.Email) huuid,rfl,rfl⟩
      · exact ⟨hrefused.rows,hrefused.accounts,hrefused.clock⟩
    · exact hrefused

/-- A removal by a type. -/
theorem ends_disable {out : Outside} {data : PasswordOrOtpData} {type : NumberOrString} :
    Ends (disableTwofactor settings out user data type) db fun _ db' => Shrunk db db' := by
  refine ends_headers (fun u hu huuid => ?_) (Shrunk.refl db)
  refine ends_validate.bind (fun _ db₁ h₁ => ?_) fun _ _ h₁ => h₁.1.shrunk
  refine ends_fromExcept (fun n _ => ends_lookup ?_) fun _ _ => Untouched.shrunk h₁
  have hlast : ∀ db₂,Shrunk db₁ db₂ → Ends (enforceIfEmpty settings.toSettings out u) db₂
      fun _ db' => Shrunk db db' := fun db₂ h₂ => (ends_frames frames_enforceIfEmpty).mono
    fun _ db' h => Untouched.grown h₁ ((h₂.trans (grown_of_factors h)).mono (fun _ _ => trivial)
      fun _ h => h.elim (fun h => h.1) id)
  cases hfound : TwoFactor.findByUserAndType db₁.toTables u.uuid n with
  | none => exact hlast db₁ (Shrunk.refl db₁)
  | some f =>
    have hf := (mem_of_findByUserAndType hfound).1
    refine ends_update_cases (fun db₂ h => hlast db₂ ?_) (Untouched.shrunk h₁)
    exact (grown_delete hf h).mono (fun _ _ => trivial) fun _ h => h

/-- A token was stored: the request has succeeded, or only its mail has
failed. -/
def Issued (r : Except String Unit) : Prop := r=.ok () ∨ r=.error "Error sending mail"

/-- The challenge of a new e-mail factor. -/
def Challenge (user : Uuid) (email token : Text) (now : ℤ) (f : TwoFactor) : Prop :=
  f.key=(user,EmailVerificationChallenge) ∧ f.enabled=true ∧ f.data=.emailToken ⟨email,some token,now,0⟩

/-- A challenge replaces the factor. -/
def Challenged (user : Uuid) (email token : Text) (db : Database) (r : Except String Unit) (db' : Database) :
    Prop :=
  (Issued r → Grown (fun f => f.key≠(user,TwoFactor.Email)) (Challenge user email token db.now) db db') ∧
    (¬Issued r → Shrunk db db')

/-- A failure of another kind. -/
theorem not_issued {e : String} (he : e≠"Error sending mail") : ¬Issued (.error e) := by
  rintro (h|h)
  · cases h
  · exact he (Except.error.inj h)

theorem not_issued_validation {e : String} (he : e∈validationErrors) : ¬Issued (.error e) := by
  refine not_issued fun heq => ?_
  subst heq
  exact absurd he (by decide)

theorem ends_sendEmail {token email : Text} {delivered : Bool} {data : PasswordOrOtpData} :
    Ends (sendEmail settings token delivered user email data) db (Challenged user email token db) := by
  have hrefused : ∀ e db',e≠"Error sending mail" → Shrunk db db' →
      Challenged user email token db (.error e) db' :=
    fun e db' he h => ⟨fun hissued => absurd hissued (not_issued he),fun _ => h⟩
  unfold sendEmail
  refine ends_headers (fun u hu huuid => ?_) (hrefused _ db (by decide) (Shrunk.refl db))
  refine ends_validate.bind (fun _ db₁ h₁ => ?_) fun e db₁ h₁ =>
    ⟨fun hissued => absurd hissued (not_issued_validation h₁.2),fun _ => h₁.1.shrunk⟩
  replace h₁ : Untouched db db₁ := h₁
  refine Ends.ensure (fun _ => ends_lookup ?_) fun _ => hrefused _ db₁ (by decide) h₁.shrunk
  -- The rest, once no factor is left.
  have hrest : ∀ db₂,Grown (fun f => f.key≠(user,TwoFactor.Email)) (fun _ => False) db₁ db₂ →
      Ends (utcNow.bind fun now => getUuid.bind fun uuid =>
        (TwoFactor.save (ServerTables.TwoFactor.new uuid u.uuid EmailVerificationChallenge
          (.emailToken ⟨email,some token,now,0⟩))).bind fun _ => ensure "Error sending mail" delivered) db₂
        (Challenged user email token db) := by
    intro db₂ h₂
    have hshrunk : Shrunk db db₂ := Untouched.grown h₁ (h₂.mono (fun _ _ => trivial) fun _ h => h)
    refine ends_utcNow (ends_getUuid (ends_update_cases (fun db₃ h => ?_) ?_))
    · have hgrown : Grown (fun f => f.key≠(user,TwoFactor.Email)) (Challenge user email token db.now) db db₃ := by
        refine Untouched.grown h₁ ((h₂.trans (Grown.drawn (grown_save h))).mono (fun _ h => h.1) fun f hf => ?_)
        rcases hf with hf|rfl
        · exact hf.1.elim
        · refine ⟨congrArg (·,EmailVerificationChallenge) huuid,rfl,?_⟩
          have hnow : db₂.now=db.now := hshrunk.clock
          show TwoFactorData.emailToken ⟨email,some token,db₂.now,0⟩=_
          rw [hnow]
      exact Ends.ensure_done (fun _ => ⟨fun _ => hgrown,fun hno => absurd (.inl rfl) hno⟩)
        fun _ => ⟨fun _ => hgrown,fun hno => absurd (.inr rfl) hno⟩
    · exact hrefused _ _ (by decide) ⟨hshrunk.rows,hshrunk.accounts,hshrunk.clock⟩
  cases hfound : TwoFactor.findByUserAndType db₁.toTables u.uuid TwoFactor.Email with
  | none =>
    refine hrest db₁ ⟨fun f hf _ => .inl ⟨hf,fun hkey => ?_⟩,fun v hv => ⟨v,hv,rfl,rfl⟩,rfl⟩
    have hnone := List.find?_eq_none.mp hfound f hf
    rw [decide_eq_true_eq] at hnone
    exact hnone ⟨(congrArg Prod.fst hkey).trans huuid.symm,congrArg Prod.snd hkey⟩
  | some f =>
    obtain ⟨hf,hfuser,hftype⟩ := mem_of_findByUserAndType hfound
    have hkey : f.key=(user,TwoFactor.Email) := Prod.ext (hfuser.trans huuid) hftype
    refine ends_update_cases (fun db₂ h => hrest db₂ ?_) (hrefused _ db₁ (by decide) h₁.shrunk)
    rw [← hkey]
    exact grown_delete hf h

/-- The factor after its address was verified. -/
def Verified (user : Uuid) (token : Text) (db : Database) (f : TwoFactor) : Prop :=
  ∃ g∈db.twofactor,∃ data,g.key=(user,EmailVerificationChallenge) ∧ g.data=.emailToken data ∧
    data.lastToken=some token ∧ f.key=(user,TwoFactor.Email) ∧ f.enabled=g.enabled ∧ f.data=.emailToken (EmailTokenData.resetToken data)

/-- Data that was decoded. -/
theorem eq_of_fromJson {column : TwoFactorData} {data : EmailTokenData}
    (h : EmailTokenData.fromJson column=.ok data) : column=.emailToken data := by
  cases column with
  | emailToken d => exact congrArg TwoFactorData.emailToken (Except.ok.inj h)
  | _ => cases h

theorem ends_email {recoverCode token : Text} {data : PasswordOrOtpData} :
    Ends (email settings recoverCode user token data) db
      fun _ db' => Grown (fun _ => True) (Verified user token db) db db' := by
  have hrefused : ∀ db',Shrunk db db' → Grown (fun _ => True) (Verified user token db) db db' :=
    fun db' h => h.mono (fun _ h => h) fun _ h => h.elim
  unfold email
  refine ends_headers (fun u hu huuid => ?_) (hrefused db (Shrunk.refl db))
  refine ends_validate.bind (fun _ db₁ h₁ => ?_) fun e db₁ h₁ => hrefused db₁ h₁.1.shrunk
  replace h₁ : Untouched db db₁ := h₁
  refine ends_lookup (Ends.expect (fun f hfound => ?_) fun _ => hrefused db₁ h₁.shrunk)
  obtain ⟨hf,hfuser,hftype⟩ := mem_of_findByUserAndType hfound
  refine ends_fromExcept (fun emailData hdata => ?_) fun _ _ => hrefused db₁ h₁.shrunk
  have hdata : f.data=.emailToken emailData := eq_of_fromJson hdata
  refine Ends.expect (fun issued hissued => ?_) fun _ => hrefused db₁ h₁.shrunk
  refine Ends.ensure (fun htoken => ?_) fun _ => hrefused db₁ h₁.shrunk
  rw [decide_eq_true_eq] at htoken
  refine ends_update_cases (fun db₂ h => ?_) (hrefused db₁ h₁.shrunk)
  refine ends_recoverCode hu (Untouched.grown h₁ ((grown_save h).mono (fun _ _ => trivial) ?_))
  rintro g rfl
  refine ⟨f,h₁.rows f hf ?_,emailData,Prod.ext (hfuser.trans huuid) hftype,hdata,htoken ▸ hissued,
    congrArg (·,TwoFactor.Email) (hfuser.trans huuid),rfl,rfl⟩
  rw [hftype]
  decide

end Handlers

end NadSafe.FactorRows
