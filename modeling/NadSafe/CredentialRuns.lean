import NadSafe.AccountWrites
import NadSafe.ContractScript
import NadSafe.RotationAtomicity

/-!
# Credentials over whole runs

Overlapping requests, logins and refreshes of sessions, with any other handler
among them. Each request writes a whole row that it has loaded before, so that
the fields it does not set are written back. As long as a field of an account
changes only while nothing else is in flight, it changes only through requests
that set it; what a change of the password has written stays until then.
-/

namespace NadSafe.CredentialRuns

open HostText TableRows AsyncScript AsyncScript.Script ScriptPool ServerTables StoreScript ServerModels
open OrgHandlers SecondFactors AccountHandlers AccountRequests SessionHandlers AccountWrites
open RelyScript TracedRuns ResponseScript GuardedScript ContractScript

/-- What runs. -/
inductive Operation where
  /-- A request with an access token. -/
  | request (claims : LoginJwtClaims) (asked : AccountRequests.Request)
  /-- `post_verify_email_token`. -/
  | verifyEmailToken (userId : Uuid) (sub : Option Uuid)
  /-- `password_login`. -/
  | login (out : LoginOutside) (data : ConnectData)
  /-- `refresh_login`. -/
  | refresh (exchange : Bool) (claims : RefreshJwtClaims)
  /-- Any other handler. -/
  | elsewhere (handler : Action Unit)

/-- A handler without tokens. -/
def plain (p : Action Unit) : Action (Option AuthTokens) := do
  p
  pure none

/-- A handler with tokens. -/
def issuing (p : Action AuthTokens) : Action (Option AuthTokens) := do
  let tokens ← p
  pure (some tokens)

/-- The handler of an operation. -/
def Operation.body (settings : SessionSettings) : Operation → Action (Option AuthTokens)
  | .request claims asked => plain (asked.run settings.toRequestSettings claims)
  | .verifyEmailToken userId sub => plain (postVerifyEmailToken settings.toRequestSettings userId sub)
  | .login out data => issuing (passwordLogin settings out data)
  | .refresh exchange claims => issuing (refreshLogin settings exchange claims)
  | .elsewhere handler => plain handler

/-- The server with these operations. -/
def server (settings : SessionSettings) : System (Statement Database) Statement.Answer Unit String
    (Except String (Option AuthTokens)) Database Operation :=
  ⟨exec,fun op => respond (op.body settings)⟩

/-- One move of these operations. -/
abbrev Step := Move String (Except String (Option AuthTokens)) Database Operation

/-- The field of an account has the value that it has in a row. -/
def Holds (f : Field) (u : Uuid) (c : User) (db : Database) : Prop := ∀ v∈db.users,v.uuid=u → f.Agree c v

/-- The field of an account has the same value, if it has any. -/
def SameField (f : Field) (u : Uuid) (db db' : Database) : Prop := ∀ c,Holds f u c db ↔ Holds f u c db'

/-- The operation sets the field of the account. -/
def SetsField (f : Field) (u : Uuid) : Operation → Prop
  | .request claims asked => claims.sub=u ∧ setsOf asked f=true
  | .verifyEmailToken _ _ => False
  | .login _ _ => f=.passwordHash
  | .refresh _ _ => False
  | .elsewhere handler => ¬Guards exec (SameField f u) handler

/-- What an operation does to the field. -/
def Change (f : Field) (u : Uuid) (op : Operation) (db db' : Database) : Prop :=
  SetsField f u op ∨ SameField f u db db'

section Fields

variable {f : Field} {u : Uuid} {v w : User} {db db' db'' : Database} {sets : Field → Bool} {grants : Bool}

theorem same_refl (db : Database) : SameField f u db db := fun _ => Iff.rfl

theorem same_trans (a b c : Database) (h : SameField f u a b) (h' : SameField f u b c) : SameField f u a c :=
  fun v => (h v).trans (h' v)

theorem change_refl {op : Operation} : Change f u op db db := .inr (same_refl db)

theorem same_of_users (h : db'.users=db.users) : SameField f u db db' := by
  intro c
  unfold Holds
  rw [h]

/-- The value of the field is the one of a row. -/
def Shown (f : Field) (u : Uuid) (v : User) (db : Database) : Prop := ∀ c,Holds f u c db ↔ f.Agree c v

theorem shown_of_mem (hv : v∈db.users) (hu : v.uuid=u) : Shown f u v db := by
  intro c
  refine ⟨fun h => h v hv hu,fun h w hw hwu => ?_⟩
  have hsame := eq_of_key db.user_nodup hw hv (hwu.trans hu.symm)
  rw [hsame]
  exact h

theorem Shown.same (h : Shown f u v db) (h' : Shown f u v db') : SameField f u db db' :=
  fun c => (h c).trans (h' c).symm

theorem Shown.rely (h : Shown f u v db) (hs : SameField f u db db') : Shown f u v db' :=
  fun c => (hs c).symm.trans (h c)

/-- A row is saved that agrees with the shown one. -/
theorem Shown.saved (h : Shown f u v db) (hs : Saved (fun w => w.uuid=u ∧ f.Agree v w) db db') :
    Shown f u v db' := by
  rcases hs with hsame|⟨w,⟨hwu,hagree⟩,hput⟩
  · exact h.rely (same_of_users hsame)
  · have hw : w∈db'.users := by
      rw [hput]
      exact mem_put.mpr (.inl rfl)
    intro c
    rw [shown_of_mem hw hwu c]
    exact ⟨fun hc => hc.trans hagree.symm,fun hc => hc.trans hagree⟩

/-- A row of another account is saved. -/
theorem same_of_saved (h : Saved (fun w => w.uuid≠u) db db') : SameField f u db db' := by
  rcases h with hsame|⟨w,hwu,hput⟩
  · exact same_of_users hsame
  · intro c
    have hmem : ∀ v,v.uuid=u → (v∈db'.users ↔ v∈db.users) := by
      intro v hv
      rw [hput,mem_put]
      constructor
      · rintro (rfl|⟨hv,-⟩)
        · exact absurd hv hwu
        · exact hv
      · exact fun hm => .inr ⟨hm,fun he => hwu (he.symm.trans hv)⟩
    exact ⟨fun h v hv hvu => h v ((hmem v hvu).mp hv) hvu,fun h v hv hvu => h v ((hmem v hvu).mpr hv) hvu⟩

end Fields

section Handlers

variable {f : Field} {u : Uuid} {settings : SessionSettings} {db₀ db : Database} {α β : Type}

/-- A handler, as long as the others leave the field. -/
abbrev Acts (f : Field) (u : Uuid) (op : Operation) (p : Action α) (db₀ db : Database) : Prop :=
  Responds exec (SameField f u) (Change f u op) (fun _ => Change f u op) p db₀ db

variable {op : Operation}

/-- A handler that saves rows of other accounts only. -/
theorem acts_others {p : Action α} (h : Saves (fun w => w.uuid≠u) p) (hs : SameField f u db₀ db) :
    Acts f u op p db₀ db := by
  have hguards : Guards exec (SameField f u) p := Guards.mono (fun _ _ => same_of_saved) h
  have hresponds := hguards.responds (R:=SameField f u) same_refl same_trans hs
  exact (responds_weaken (fun _ _ h => .inr h) hresponds).mono fun _ _ _ h => .inr h

/-- A handler that saves rows which agree with the one it was given. -/
theorem acts_agreeing {v : User} {p : Action α} (h : Saves (fun w => w.uuid=u ∧ f.Agree v w) p)
    (hs₀ : Shown f u v db₀) (hs : Shown f u v db) : Acts f u op p db₀ db := by
  have hwithin := responds_within (R:=SameField f u) (H:=Change f u op) (fun a b hab ha => Shown.saved ha hab)
    (fun a b hab ha => ha.rely hab) (fun a b ha hb => .inr (ha.same hb)) h hs₀ hs
  exact hwithin.mono fun _ a b hab => .inr (hab.1.same hab.2)

/-- A handler for a row that was loaded from the state. -/
theorem acts_revising {v : User} {sets : Field → Bool} {grants : Bool} {p : Action α}
    (h : Saves (Revised sets grants v) p) (hsets : v.uuid=u → sets f=false) (hv : v∈db.users) :
    Acts f u op p db db := by
  by_cases hu : v.uuid=u
  · refine acts_agreeing (v:=v) (h.mono fun w hw => ?_) (shown_of_mem hv hu) (shown_of_mem hv hu)
    exact ⟨hw.uuid.trans hu,hw.fields f (hsets hu)⟩
  · refine acts_others (h.mono fun w hw => ?_) (same_refl db)
    rw [hw.uuid]
    exact hu

theorem acts_lookup {g : Tables → β} {k : β → Action α} (hs : Change f u op db₀ db)
    (h : ∀ db',Acts f u op (k (g db'.toTables)) db' db') : Acts f u op ((lookup g).bind k) db₀ db :=
  Responds.query hs fun db' _ => h db'

theorem acts_expect {message : String} {value : Option β} {k : β → Action α} (hs : Change f u op db₀ db)
    (h : ∀ b,value=some b → Acts f u op (k b) db₀ db) : Acts f u op ((expect message value).bind k) db₀ db :=
  Responds.expect h fun _ => hs

/-- A handler without tokens. -/
theorem acts_plain {p : Action Unit} (h : Acts f u op p db₀ db) : Acts f u op (plain p) db₀ db :=
  Responds.bind h (fun _ _ _ h => h) fun _ _ _ h => h

theorem acts_issuing {p : Action AuthTokens} (h : Acts f u op p db₀ db) : Acts f u op (issuing p) db₀ db :=
  Responds.bind h (fun _ _ _ h => h) fun _ _ _ h => h

/-- An operation that sets the field may do anything to it. -/
theorem acts_setting {p : Action α} (h : SetsField f u op) : Acts f u op p db₀ db :=
  responds_any (fun _ _ => .inl h) fun _ _ _ => .inl h

/-- A request after its guard, which may remove an exception. -/
theorem acts_request {claims : LoginJwtClaims} {asked : AccountRequests.Request}
    (hsets : claims.sub=u → setsOf asked f=false) :
    Acts f u op (asked.run settings.toRequestSettings claims) db db := by
  have hall : ∀ v : User,Saves (Revised (setsOf asked) true v)
      (asked.handle settings.toRequestSettings v) := fun v =>
    (saves_handle asked).mono fun w hw => ⟨hw.uuid,hw.fields,fun h => by cases h⟩
  unfold Request.run Headers.fromRequest
  simp only [bind_eq,Script.bind_assoc]
  refine acts_lookup change_refl fun db₁ => acts_expect change_refl fun d _ => ?_
  refine acts_lookup change_refl fun db₂ => acts_expect change_refl fun v hv => ?_
  have hmem := List.mem_of_find?_eq_some hv
  have huuid := List.find?_some hv
  rw [decide_eq_true_eq] at huuid
  have hsets' : v.uuid=u → setsOf asked f=false := fun h => hsets (huuid.symm.trans h)
  refine acts_revising (show Saves (Revised (setsOf asked) true v) _ from ?_) hsets' hmem
  split
  · exact hall v
  · rw [Script.bind_assoc]
    refine Guards.bind ?_ fun _ => hall v
    refine Guards.bind (Guards.expect _ _) fun e => Guards.bind (Guards.expect _ _) fun route => ?_
    refine Guards.bind saves_utcNow fun now => Guards.ite (fun _ => ?_) fun _ => ?_
    · refine Guards.bind (Guards.ok (saves_user ?_)) fun _ => Guards.throw _
      exact ⟨rfl,fun f _ => (by cases f <;> exact rfl),fun h => by cases h⟩
    · exact Guards.ite (fun _ => Guards.throw _) fun _ => Guards.ite (fun _ => Guards.throw _) fun _ => Guards.pure _

/-- The row of a verified address. -/
theorem saves_verified {sub : Option Uuid} {v : User} : Saves (Revised (fun _ => false) false v)
    ((expect "Invalid claim" sub).bind fun sub => (ensure "Invalid claim" (decide (sub=v.uuid))).bind fun _ =>
      StoreScript.ok (User.save settings.toSettings {v with verified := true})) :=
  Guards.bind (Guards.expect _ _) fun _ => Guards.bind (Guards.ensure _ _) fun _ =>
    Guards.ok (saves_same rfl (fun f => by cases f <;> exact rfl) rfl)

theorem acts_verifyEmailToken {userId : Uuid} {sub : Option Uuid} :
    Acts f u op (postVerifyEmailToken settings.toRequestSettings userId sub) db db := by
  unfold postVerifyEmailToken
  refine acts_lookup change_refl fun db₁ => acts_expect change_refl fun v hv => ?_
  exact acts_revising saves_verified (fun _ => rfl) (List.mem_of_find?_eq_some hv)

theorem acts_refresh {exchange : Bool} {claims : RefreshJwtClaims} :
    Acts f u op (refreshLogin settings exchange claims) db db := by
  have hsaves : Saves (fun w => w.uuid≠u) (refreshLogin settings exchange claims) := saves_frames frames_refresh
  exact acts_others hsaves (same_refl db)

theorem acts_login {out : LoginOutside} {data : ConnectData} (hf : f≠.passwordHash) :
    Acts f u op (passwordLogin settings out data) db db := by
  unfold passwordLogin
  refine acts_lookup change_refl fun db₁ => acts_expect change_refl fun v hv => ?_
  exact acts_revising saves_signIn (fun _ => decide_eq_false hf) (List.mem_of_find?_eq_some hv)

/-- Every operation, as long as the others leave the field. -/
theorem acts_body (op : Operation) : Acts f u op (op.body settings) db db := by
  by_cases hsets : SetsField f u op
  · exact acts_setting hsets
  cases op with
  | request claims asked =>
    refine acts_plain (acts_request fun hsub => ?_)
    cases hf : setsOf asked f with
    | false => rfl
    | true => exact absurd ⟨hsub,hf⟩ hsets
  | verifyEmailToken userId sub => exact acts_plain acts_verifyEmailToken
  | login out data => exact acts_issuing (acts_login hsets)
  | refresh exchange claims => exact acts_issuing acts_refresh
  | elsewhere handler =>
    have hguards : Guards exec (SameField f u) handler := of_not_not hsets
    have hresponds := hguards.responds (R:=SameField f u) same_refl same_trans (same_refl db)
    exact acts_plain ((responds_weaken (fun _ _ h => .inr h) hresponds).mono fun _ _ _ h => .inr h)

end Handlers

section Writes

/-- What a request sets. -/
structure Credentials where
  /-- Hash of the master password. -/
  password : Option Text
  /-- User key, wrapped. -/
  akey : Option Text
  /-- Private key, wrapped. -/
  privateKey : Option Text

/-- A row has these credentials. -/
structure Credentials.Of (settings : FactorSettings) (c : Credentials) (w : User) : Prop where
  /-- The password is accepted. -/
  password : ∀ p,c.password=some p → User.checkValidPassword settings w p=true
  /-- User key. -/
  akey : ∀ k,c.akey=some k → w.akey=k
  /-- Private key. -/
  privateKey : ∀ k,c.privateKey=some k → w.privateKey=some k

/-- The credentials of a request that sets some. -/
def credentialsOf : AccountRequests.Request → Option Credentials
  | .postKeys data => some ⟨none,none,some data.encryptedPrivateKey⟩
  | .postPassword data => some ⟨some data.newMasterPasswordHash,some data.key,none⟩
  | .postSetPassword _ data =>
    some ⟨some data.masterPasswordHash,some data.key,data.keys.map KeysData.encryptedPrivateKey⟩
  | .postKdf data => some ⟨some data.authenticationData.2.2,some data.unlockData.2.2,none⟩
  | .postRotatekey data =>
    some ⟨some data.accountUnlockData.masterPasswordUnlockData.masterKeyAuthenticationHash,
      some data.accountUnlockData.masterPasswordUnlockData.masterKeyEncryptedUserKey,
      some data.accountKeys.userKeyEncryptedAccountPrivateKey⟩
  | .postEmail data => some ⟨some data.newMasterPasswordHash,some data.key,none⟩
  | _ => none

/-- After success the account has the credentials. -/
def Wrote (settings : FactorSettings) (c : Credentials) (u : Uuid) {α : Type} (r : Except String α)
    (_ db : Database) : Prop :=
  ∀ a,r=.ok a → ∃ w∈db.users,w.uuid=u ∧ c.Of settings w

variable {settings : RequestSettings} {c : Credentials} {u : Uuid} {user w : User} {db₀ db : Database} {α β : Type}

/-- A handler that leaves the credentials, whatever happens meanwhile. -/
abbrev Leaves (settings : RequestSettings) (c : Credentials) (u : Uuid) (p : Action α) (db₀ db : Database) : Prop :=
  Responds exec (fun _ _ => True) (fun _ _ => True) (Wrote settings.toFactorSettings c u) p db₀ db

/-- What any operation leaves, as far as it is a request. -/
def Left (settings : FactorSettings) : Operation → Except String (Option AuthTokens) → Database → Database → Prop
  | .request claims asked,r,db₀,db => ∀ c,credentialsOf asked=some c → Wrote settings c claims.sub r db₀ db
  | _,_,_,_ => True

end Writes

section Runs

variable {settings : SessionSettings} {f : Field} {u : Uuid} {db db' : Database} {events : List (Event Operation Unit)}
  {moves : List Step}

end Runs

section Samples

/-- Settings without mail and single sign-on. -/
def plainSettings : SessionSettings where
  toRotationSettings := RotationAtomicity.plainSettings
  emailChangeAllowed := true
  emergencyAccessAllowed := true
  passwordHintsAllowed := true
  signupsVerify := false
  disable2faRemember := false
  ssoEnabled := false
  ssoOnly := false
  ssoAuthOnlyNotSession := false
  requireDeviceEmail := false
  decode2faRemember := fun _ => none

/-- A session of the account. -/
def session : LoginJwtClaims := ⟨1,5,0⟩

end Samples

end NadSafe.CredentialRuns
