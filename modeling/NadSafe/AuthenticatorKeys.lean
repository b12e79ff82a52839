import NadSafe.CipherUpdates
import NadSafe.FactorRows
import NadSafe.TotpRuns

/-!
# Keys of authenticators

The key that an activation hands out and the secret that later logins are
checked against. A code is checked with the key of the request, and its step
is saved in the row of the account. A row that was there before keeps its
secret.
-/

namespace NadSafe.AuthenticatorKeys

open HostText TableRows AsyncScript AsyncScript.Script SequentialScript ServerTables StoreScript ServerModels
open OrgHandlers SecondFactors PlannedScript TableWrites FactorRows
open CipherHandlers (headers fromExcept)
open CipherUpdates (ends_caller)

/-- The stored secret of an account. -/
def Secret (settings : FactorSettings) (user : Uuid) (key : Text) (db : Database) : Prop :=
  ∃ f,TwoFactor.findByUserAndType db.toTables user Authenticator=some f ∧ settings.columnText f.data=key

section Rows

variable {settings : FactorSettings} {db db' : Database}

/-- The one row of an account and a type. -/
theorem findByUserAndType_iff {user : Uuid} {atype : ℤ} {f : TwoFactor} :
    TwoFactor.findByUserAndType db.toTables user atype=some f ↔
      f∈db.twofactor ∧ f.userUuid=user ∧ f.atype=atype := by
  refine ⟨mem_of_findByUserAndType,fun ⟨hf,huser,htype⟩ => ?_⟩
  have hsome : (TwoFactor.findByUserAndType db.toTables user atype).isSome=true := by
    rw [TwoFactor.findByUserAndType,List.find?_isSome]
    exact ⟨f,hf,decide_eq_true ⟨huser,htype⟩⟩
  obtain ⟨g,hg⟩ := Option.isSome_iff_exists.mp hsome
  obtain ⟨hmem,huser',htype'⟩ := mem_of_findByUserAndType hg
  have hsame : g=f := eq_of_key db.factor_nodup hmem hf
    (Prod.ext (huser'.trans huser.symm) (htype'.trans htype.symm))
  rw [hg,hsame]

/-- Second factors, accounts and the clock are the same; rows of protected
actions may differ. -/
structure SameFactors (db db' : Database) : Prop where
  /-- Rows of other types. -/
  rows : ∀ f,f.atype≠ProtectedActions → (f∈db'.twofactor ↔ f∈db.twofactor)
  /-- Accounts. -/
  users : db'.users=db.users
  /-- The clock. -/
  clock : db'.now=db.now

theorem SameFactors.refl (db : Database) : SameFactors db db := ⟨fun _ _ => Iff.rfl,rfl,rfl⟩

/-- The authenticator is found as before. -/
theorem SameFactors.find (h : SameFactors db db') (user : Uuid) :
    TwoFactor.findByUserAndType db'.toTables user Authenticator=
      TwoFactor.findByUserAndType db.toTables user Authenticator := by
  refine Option.ext fun f => ?_
  rw [findByUserAndType_iff,findByUserAndType_iff]
  constructor
  · rintro ⟨hf,huser,htype⟩
    exact ⟨(h.rows f (by rw [htype]; decide)).mp hf,huser,htype⟩
  · rintro ⟨hf,huser,htype⟩
    exact ⟨(h.rows f (by rw [htype]; decide)).mpr hf,huser,htype⟩

end Rows

section Activation

variable {settings : FactorSettings} {db : Database}

/-- The row that a code is checked for: the stored one, or a new one with the
key. -/
def Candidate (db : Database) (user : Uuid) (key : Text) (f : TwoFactor) : Prop :=
  TwoFactor.findByUserAndType db.toTables user Authenticator=some f ∨
    TwoFactor.findByUserAndType db.toTables user Authenticator=none ∧
      f=ServerTables.TwoFactor.new db.next user Authenticator (.text key)

/-- The ends of a check of a code. -/
inductive Checked (settings : FactorSettings) (user : Uuid) (key token : Text) (db : Database) :
    Except String Acceptance → Database → Prop
  /-- The key is no secret. -/
  | undecodable (h : settings.base32Decode key=none) : Checked settings user key token db (.error "Invalid TOTP secret") db
  /-- The code is wrong or used. -/
  | refused {secret : Bytes} {f : TwoFactor} {db' : Database} (hsecret : settings.base32Decode key=some secret)
      (hf : Candidate db user key f)
      (hcode : acceptedStep settings secret token db.now f.lastUsed settings.steps=none)
      (hrows : db'.twofactor=db.twofactor) :
      Checked settings user key token db (.error "Invalid TOTP code!") db'
  /-- Its step is saved. -/
  | accepted {secret : Bytes} {f : TwoFactor} {step : ℤ} {db' : Database}
      (hsecret : settings.base32Decode key=some secret) (hf : Candidate db user key f)
      (hcode : acceptedStep settings secret token db.now f.lastUsed settings.steps=some step)
      (hrows : db'.twofactor=TwoFactor.saved {f with lastUsed := step} db.twofactor) :
      Checked settings user key token db (.ok ⟨db.now,step⟩) db'

/-- The row of a check, and whether it could be saved. -/
theorem ends_authenticatorFor {user : Uuid} {key : Text} (hu : ∃ u∈db.users,u.uuid=user) :
    Ends (authenticatorFor user key) db fun r db' => db'.twofactor=db.twofactor ∧ db'.users=db.users ∧
      db'.now=db.now ∧ ∃ f,r=.ok f ∧ Candidate db user key f ∧ f.uuid<db'.next ∧ ∃ u∈db'.users,u.uuid=f.userUuid := by
  unfold authenticatorFor
  refine ends_lookup ?_
  cases hfound : TwoFactor.findByUserAndType db.toTables user Authenticator with
  | some f =>
    obtain ⟨hf,-,-⟩ := mem_of_findByUserAndType hfound
    exact ⟨rfl,rfl,rfl,f,rfl,.inl hfound,Database.factor_drawn hf,Database.user_of_factor hf⟩
  | none => exact ⟨rfl,rfl,rfl,_,rfl,.inr ⟨hfound,rfl⟩,Nat.lt_succ_self db.next,hu⟩

theorem ends_checked {user : Uuid} {key token : Text} (hu : ∃ u∈db.users,u.uuid=user) :
    Ends (validateTotpCode settings user token key) db (Checked settings user key token db) := by
  unfold validateTotpCode
  refine Ends.expect (fun secret hsecret => ?_) fun hnone => .undecodable hnone
  refine (ends_authenticatorFor hu).bind (fun f db' h => ?_) fun e db' h => ?_
  · obtain ⟨hrows,-,hnow,f',hf',hcandidate,hdrawn,huser⟩ := h
    cases hf'
    refine ends_utcNow (Ends.expect (fun step hstep => ?_) fun hnone => ?_)
    · rw [hnow] at hstep ⊢
      refine ends_update (valid_twofactor db'.valid hdrawn huser) ?_
      refine Checked.accepted hsecret hcandidate hstep ?_
      show TwoFactor.saved _ db'.twofactor=_
      rw [hrows]
    · rw [hnow] at hnone
      exact .refused hsecret hcandidate hnone hrows
  · obtain ⟨-,-,-,f,hf,-⟩ := h
    cases hf

end Activation

section Logins

variable {settings : FactorSettings} {db : Database} {secret : Bytes} {code : Text}

end Logins

section Promises

variable {settings : FactorSettings} {db : Database} {recoverCode key token : Text} {caller : Uuid}
  {data : PasswordOrOtpData}

/-- What the request and the state must be for an activation to go through. -/
structure Accepts (settings : FactorSettings) (caller : Uuid) (key token : Text) (data : PasswordOrOtpData)
    (db : Database) (u : User) (f : TwoFactor) (step : ℤ) : Prop where
  /-- The account. -/
  account : u∈db.users ∧ u.uuid=caller
  /-- The password or one-time password. -/
  valid : (complete (data.validate settings u true) db).1=.ok ()
  /-- The key. -/
  secret : ∃ secret,settings.base32Decode key=some secret ∧ secret.length=20 ∧
    acceptedStep settings secret token db.now f.lastUsed settings.steps=some step
  /-- The row: the stored one, or a new one with the key. -/
  row : TwoFactor.findByUserAndType db.toTables caller Authenticator=some f ∨
    TwoFactor.findByUserAndType db.toTables caller Authenticator=none ∧
      ∃ uuid,f=ServerTables.TwoFactor.new uuid caller Authenticator (.text key)

end Promises

section Samples

/-- Another one. -/
def newKey : Text := List.replicate 20 'B'

end Samples

end NadSafe.AuthenticatorKeys
