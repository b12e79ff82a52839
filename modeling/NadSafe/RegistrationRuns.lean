import NadSafe.CredentialRuns
import NadSafe.HistoryScript
import NadSafe.RegistrationHandlers

/-!
# Registrations over whole runs

Any number of registrations and of mails with tokens that overlap, while the
tables change and time passes. Invitations that were taken, accounts that were
looked up and addresses that were verified may be gone when a registration ends;
that they were there is read off the history.
-/

namespace NadSafe.RegistrationRuns

open HostText TableRows AsyncScript AsyncScript.Script ScriptPool ServerTables StoreScript ServerModels OrgHandlers
open SecondFactors AccountHandlers AccountRequests PartScript RegistrationHandlers TracedRuns ResponseScript
open ContractScript ObservedRuns HistoryScript

/-- What runs. -/
inductive Operation where
  /-- `register_verification_email`. -/
  | registerVerificationEmail (out : Outside) (data : RegisterVerificationData)
  /-- `identity_register` and `register_finish`. -/
  | register (randomBytes : Bytes) (emailVerification : Bool) (data : RegisterData)
  /-- The mail of an invitation to an organisation. -/
  | sendInvite (out : Outside) (user : User) (orgId memberId : Uuid) (invitedByEmail : Option Text)
  /-- The mail of an invitation to emergency access. -/
  | sendEmergencyAccessInvite (out : Outside) (address : Text) (userId emerId : Uuid)
    (grantorName grantorEmail : Text)
  /-- Any statement on the tables, and the passage of time. -/
  | elsewhere (change : Database → Option Database)

/-- Any statement. -/
def elsewhere (change : Database → Option Database) : RegistrationHandlers.Action Unit :=
  execute "Error" fun s => (change s.db).map fun db => {s with db := db}

/-- A handler that returns no account. -/
def plain (p : RegistrationHandlers.Action Unit) : RegistrationHandlers.Action (Option User) := do
  p
  pure none

/-- A handler that returns an account. -/
def saving (p : RegistrationHandlers.Action User) : RegistrationHandlers.Action (Option User) := do
  let user ← p
  pure (some user)

/-- The handler of an operation. -/
def Operation.body (settings : RegisterSettings) : Operation → RegistrationHandlers.Action (Option User)
  | .registerVerificationEmail out data => plain (RegistrationHandlers.registerVerificationEmail settings out data)
  | .register randomBytes emailVerification data =>
    saving (RegistrationHandlers.register settings randomBytes emailVerification data)
  | .sendInvite out user orgId memberId invitedByEmail =>
    plain (RegistrationHandlers.sendInvite settings out user orgId memberId invitedByEmail)
  | .sendEmergencyAccessInvite out address userId emerId grantorName grantorEmail =>
    plain (RegistrationHandlers.sendEmergencyAccessInvite settings out address userId emerId grantorName grantorEmail)
  | .elsewhere change => plain (RegistrationRuns.elsewhere change)

/-- One move of these operations. -/
abbrev Step := Move String (Except String (Option User)) Store Operation

/-- The address that a token is about. -/
def subject : Token → Text
  | .registerVerify c => c.sub
  | .invite c => c.email
  | .emergencyAccessInvite c => c.email

/-- The token shows that its address is read by whoever presents it. -/
def Confirming : Token → Prop
  | .registerVerify c => c.verified=true
  | _ => True

/-- An operation signs a token. -/
def Signs : Operation → Token → Prop
  | .registerVerificationEmail _ data,.registerVerify c => c.sub=data.email ∧ c.name=data.name
  | .sendInvite _ user orgId memberId invitedByEmail,.invite c =>
    c.sub=user.uuid ∧ c.email=user.email ∧ c.orgId=orgId ∧ c.memberId=memberId ∧ c.invitedByEmail=invitedByEmail
  | .sendEmergencyAccessInvite _ address userId emerId grantorName grantorEmail,.emergencyAccessInvite c =>
    c.sub=userId ∧ c.email=address ∧ c.emerId=emerId ∧ c.grantorName=grantorName ∧ c.grantorEmail=grantorEmail
  | _,_ => False

/-- The life of a token. -/
def lifetime (settings : RegisterSettings) : Token → ℤ
  | .registerVerify _ => 1800
  | _ => 3600*settings.invitationExpirationHours

section Origins

variable (moved : Operation → Store → Prop) (settings : RegisterSettings)

/-- Where a token comes from. -/
structure Issued (r : Release) : Prop where
  /-- Who has signed it, and when. -/
  signed : ∃ op s,moved op s ∧ Signs op r.token ∧ r.token.nbf=s.db.now
  /-- How long it is valid. -/
  lifetime : r.token.exp=r.token.nbf+lifetime settings r.token
  /-- It was mailed to its address, unless it confirms nothing. -/
  mailed : Confirming r.token → r.mailedTo=some (subject r.token)

/-- Tokens go back to the history. -/
def Fine (s : Store) : Prop := ∀ r∈s.released,Issued moved settings r

/-- An operation has had a token while it was valid. -/
def Held (op : Operation) (token : Token) : Prop :=
  ∃ s r,moved op s ∧ r∈s.released ∧ r.token=token ∧ Issued moved settings r ∧ s.db.now ≤ token.exp+leeway

/-- The address of a registration was confirmed by a token that was mailed to it. -/
def Confirmed (op : Operation) (data : RegisterData) : Prop :=
  ∃ token,Held moved settings op token ∧ Confirming token ∧
    (subject token=data.email ∨ subject token=settings.toLowercase data.email)

/-- What a registration is entitled by. -/
inductive Entitled (op : Operation) (data : RegisterData) : Prop where
  /-- Its address may sign up. -/
  | signup (h : isSignupAllowed settings (settings.toLowercase data.email)=true)
  /-- There was an invitation for its address. -/
  | invitation (s : Store) (hs : moved op s)
    (h : settings.toLowercase (settings.toLowercase data.email)∈s.db.invitations)
  /-- There was a record of emergency access that waited for its address. -/
  | emergencyAccess (s : Store) (hs : moved op s) (e : EmergencyAccess) (he : e∈s.db.emergencyAccess)
    (hemail : e.email=some (settings.toLowercase data.email))
    (hstatus : e.status=EmergencyHandlers.EmergencyAccess.Invited) (hallowed : settings.emergencyAccessAllowed=true)
  /-- Its address was invited to emergency access by mail. -/
  | emergencyInvite (c : EmergencyAccessInviteJwtClaims) (h : Held moved settings op (.emergencyAccessInvite c))
    (hemail : c.email=data.email) (hallowed : settings.emergencyAccessAllowed=true)
  /-- Its address was invited to an organisation by mail. -/
  | invite (c : InviteJwtClaims) (h : Held moved settings op (.invite c))
    (hemail : c.email=settings.toLowercase data.email)

/-- An account that was there without a password. -/
def Stub (op : Operation) (uuid : Uuid) (email : Text) (verified : Bool) : Prop :=
  ∃ s u,moved op s ∧ u∈s.db.users ∧ u.uuid=uuid ∧ u.email=email ∧ u.passwordHash=[] ∧ u.verified=verified

/-- An account that was opened when there was none with its address. -/
def Opened (op : Operation) (uuid : Uuid) (email : Text) : Prop :=
  ∃ s s',moved op s ∧ moved op s' ∧ (∀ u∈s.db.users,u.email≠email) ∧ uuid=s'.db.next

/-- What a registration has shown that has saved an account. -/
structure Registered (op : Operation) (emailVerification : Bool) (data : RegisterData) (user : User) : Prop where
  /-- Address. -/
  address : user.email=settings.toLowercase (settings.toLowercase data.email)
  /-- Password. -/
  password : user.passwordHash=settings.hashPassword data.masterPasswordHash user.salt user.passwordIterations
  /-- Wrapped user key. -/
  key : user.akey=data.key
  /-- The account had no password, or there was none. -/
  account : (∃ verified,Stub moved op user.uuid user.email verified) ∨ Opened moved op user.uuid user.email
  /-- Why it was let in. -/
  entitled : Entitled moved settings op data
  /-- A token for the address, if one is asked for. -/
  vouched : emailVerification=true → ∃ token,Held moved settings op token ∧ subject token=data.email
  /-- The address is verified only if it was before, or if a token was mailed to it. -/
  verified : user.verified=true → Stub moved op user.uuid user.email true ∨ Confirmed moved settings op data

/-- What a response shows. -/
def Outcome : Operation → Option User → Prop
  | .register randomBytes emailVerification data,some user =>
    Registered moved settings (.register randomBytes emailVerification data) emailVerification data user
  | _,_ => True

end Origins

section Tokens

variable {α κ : Type} {moved : Operation → Store → Prop} {settings : RegisterSettings} {op : Operation}
  {shows : α → Prop} {s₀ s : Store} {token : Token}

/-- Tokens are not a matter of the tables. -/
theorem fine_tables (s : Store) (db : Database) (hs : Fine moved settings s) :
    Fine moved settings (database.set s db) := hs

theorem fine_release {r : Release} (hr : Issued moved settings r) (hs : Fine moved settings s) :
    Fine moved settings {s with released := r::s.released} := by
  intro r' hr'
  rcases List.mem_cons.mp hr' with rfl|hr'
  · exact hr
  · exact hs r' hr'

/-- A token that is accepted has left the server, and is valid. -/
theorem keeps_decodeJwt {kind : Token → Option κ} {g : κ → RegistrationHandlers.Action α}
    (hs : Fine moved settings s) (hm : moved op s)
    (h : ∀ c,kind token=some c → Held moved settings op token →
      Keeps moved (Fine moved settings) op shows (g c) s₀ s) :
    Keeps moved (Fine moved settings) op shows ((decodeJwt kind token).bind g) s₀ s := by
  unfold decodeJwt
  simp only [bind_eq,Script.bind_assoc]
  refine keeps_read (keeps_ensure hs fun hreleased => keeps_ensure hs fun hexp => keeps_ensure hs fun _ => ?_)
  rw [decide_eq_true_eq] at hreleased hexp
  obtain ⟨r,hr,hrtoken⟩ := hreleased
  have hheld : Held moved settings op token := ⟨s,r,hm,hr,hrtoken,hs r hr,by omega⟩
  exact keeps_expect hs fun c hc => h c hc hheld

/-- A mail with a token that the operation signs now. -/
theorem keeps_sendEmail {out : Outside} {address : Text} {shows : Unit → Prop} {t : Store} (hs : Fine moved settings s)
    (ht : moved op t) (hsigns : Signs op token) (hnbf : token.nbf=t.db.now)
    (hexp : token.exp=token.nbf+lifetime settings token) (haddress : address=subject token) (h : shows ()) :
    Keeps moved (Fine moved settings) op shows (sendEmail out address token) s₀ s := by
  refine keeps_execute_done hs fun s₁ s₂ hs₁ _ hc => ⟨?_,h⟩
  have hissued : Issued moved settings ⟨some address,token⟩ :=
    ⟨⟨op,t,ht,hsigns,hnbf⟩,hexp,fun _ => congrArg some haddress⟩
  split at hc
  · cases hc
    exact fine_release hissued hs₁
  · cases hc

end Tokens

section Mails

variable {moved : Operation → Store → Prop} {settings : RegisterSettings} {s₀ s : Store}

theorem keeps_sendInvite {out : Outside} {user : User} {orgId memberId : Uuid} {invitedByEmail : Option Text}
    (hm : moved (.sendInvite out user orgId memberId invitedByEmail) s) (hs : Fine moved settings s) :
    Keeps moved (Fine moved settings) (.sendInvite out user orgId memberId invitedByEmail) (fun _ => True)
      (RegistrationHandlers.sendInvite settings out user orgId memberId invitedByEmail) s₀ s :=
  keeps_read (keeps_sendEmail hs hm ⟨rfl,rfl,rfl,rfl,rfl⟩ rfl rfl rfl trivial)

theorem keeps_sendEmergencyAccessInvite {out : Outside} {address : Text} {userId emerId : Uuid}
    {grantorName grantorEmail : Text}
    (hm : moved (.sendEmergencyAccessInvite out address userId emerId grantorName grantorEmail) s)
    (hs : Fine moved settings s) :
    Keeps moved (Fine moved settings) (.sendEmergencyAccessInvite out address userId emerId grantorName grantorEmail)
      (fun _ => True)
      (RegistrationHandlers.sendEmergencyAccessInvite settings out address userId emerId grantorName grantorEmail)
      s₀ s :=
  keeps_read (keeps_sendEmail hs hm ⟨rfl,rfl,rfl,rfl,rfl⟩ rfl rfl rfl trivial)

/-- The check before a token is signed leaves a state that the operation moves from. -/
theorem keeps_mayRegister {α : Type} {op : Operation} {shows : α → Prop} {email : Text}
    {g : Bool → RegistrationHandlers.Action α} (hm : moved op s) (hs : Fine moved settings s)
    (hg : ∀ allowed s₁ s₂,moved op s₂ → Fine moved settings s₂ →
      Keeps moved (Fine moved settings) op shows (g allowed) s₁ s₂) :
    Keeps moved (Fine moved settings) op shows ((mayRegister settings email).bind g) s₀ s := by
  unfold mayRegister
  split
  · exact hg true s₀ s hm hs
  split
  · exact hg false s₀ s hm hs
  · exact keeps_within_query hs fun s₁ hs₁ hm₁ => hg _ s₁ s₁ hm₁ hs₁

theorem keeps_registerVerificationEmail {out : Outside} {data : RegisterVerificationData}
    (hm : moved (.registerVerificationEmail out data) s) (hs : Fine moved settings s) :
    Keeps moved (Fine moved settings) (.registerVerificationEmail out data) (fun _ => True)
      (RegistrationHandlers.registerVerificationEmail settings out data) s₀ s := by
  unfold RegistrationHandlers.registerVerificationEmail
  simp only [bind_eq]
  refine keeps_mayRegister hm hs fun allowed s₁ s₂ hm₂ hs₂ => keeps_ensure hs₂ fun _ => keeps_read ?_
  split
  · refine keeps_within_query hs₂ fun s₃ hs₃ _ => ?_
    split
    · exact ⟨hs₃,fun _ s' hs' => ⟨hs'.1,fun _ _ => trivial⟩⟩
    · exact keeps_sendEmail hs₃ hm₂ ⟨rfl,rfl⟩ rfl rfl rfl trivial
  · rename_i hmail
    have hissued : Issued moved settings ⟨none,.registerVerify
        ⟨s₂.db.now,s₂.db.now+1800,data.email,data.name,settings.mailEnabled && settings.signupsVerify⟩⟩ :=
      ⟨⟨_,s₂,hm₂,⟨rfl,rfl⟩,rfl⟩,rfl,fun h => absurd h hmail⟩
    exact ⟨fine_release hissued hs₂,fun _ _ => trivial⟩

end Mails

section Checks

variable {α : Type} {moved : Operation → Store → Prop} {settings : RegisterSettings} {op : Operation}
  {shows : α → Prop} {s₀ s : Store} {data : RegisterData} {emailVerification : Bool}

/-- What the tokens of a request show. -/
structure Checks (moved : Operation → Store → Prop) (settings : RegisterSettings) (op : Operation)
    (emailVerification : Bool) (data : RegisterData) (checked : Checked) : Prop where
  /-- There is one, if one is asked for. -/
  vouched : emailVerification=true → ∃ token,Held moved settings op token ∧ subject token=data.email
  /-- It was mailed. -/
  confirmed : checked.emailVerified=true → Confirmed moved settings op data
  /-- It is an invitation. -/
  pending : checked.pendingEmergencyAccess=true → Entitled moved settings op data

theorem keeps_checkVerification {token : Token} {g : Checked → RegistrationHandlers.Action α}
    (hm : moved op s) (hs : Fine moved settings s)
    (hg : ∀ checked,Checks moved settings op emailVerification data checked →
      Keeps moved (Fine moved settings) op shows (g checked) s₀ s) :
    Keeps moved (Fine moved settings) op shows ((checkVerification data token).bind g) s₀ s := by
  unfold checkVerification decodeRegisterVerify
  simp only [bind_eq,Script.bind_assoc]
  refine keeps_decodeJwt hs hm fun c hc hheld => keeps_ensure hs fun hsub => hg _ ?_
  rw [decide_eq_true_eq] at hsub
  split at hc
  · cases hc
    exact ⟨fun _ => ⟨_,hheld,hsub⟩,fun hverified => ⟨_,hheld,hverified,.inl hsub⟩,fun h => by cases h⟩
  · cases hc

theorem keeps_checkEmergencyAccess {id : Uuid} {token : Token} {g : Checked → RegistrationHandlers.Action α}
    (hm : moved op s) (hs : Fine moved settings s)
    (hg : ∀ checked,Checks moved settings op emailVerification data checked →
      Keeps moved (Fine moved settings) op shows (g checked) s₀ s) :
    Keeps moved (Fine moved settings) op shows ((checkEmergencyAccess settings data id token).bind g) s₀ s := by
  unfold checkEmergencyAccess decodeEmergencyAccessInvite
  simp only [bind_eq,Script.bind_assoc]
  refine keeps_ensure hs fun hallowed => keeps_decodeJwt hs hm fun c hc hheld => ?_
  refine keeps_ensure hs fun hemail => keeps_ensure hs fun _ => hg _ ?_
  rw [decide_eq_true_eq] at hemail
  split at hc
  · cases hc
    exact ⟨fun _ => ⟨_,hheld,hemail⟩,fun _ => ⟨_,hheld,trivial,.inl hemail⟩,
      fun _ => .emergencyInvite c hheld hemail hallowed⟩
  · cases hc

theorem keeps_checkInvite {member : Uuid} {token : Token} {g : Checked → RegistrationHandlers.Action α}
    (hm : moved op s) (hs : Fine moved settings s)
    (hg : ∀ checked,Checks moved settings op emailVerification data checked →
      Keeps moved (Fine moved settings) op shows (g checked) s₀ s) :
    Keeps moved (Fine moved settings) op shows ((checkInvite data member token).bind g) s₀ s := by
  unfold checkInvite decodeInvite
  simp only [bind_eq,Script.bind_assoc]
  refine keeps_decodeJwt hs hm fun c hc hheld => keeps_ensure hs fun hemail => keeps_ensure hs fun _ => hg _ ?_
  rw [decide_eq_true_eq] at hemail
  split at hc
  · cases hc
    exact ⟨fun _ => ⟨_,hheld,hemail⟩,fun _ => ⟨_,hheld,trivial,.inl hemail⟩,fun h => by cases h⟩
  · cases hc

/-- The tokens of a request, by which of them it has. -/
theorem keeps_checkTokens {g : Checked → RegistrationHandlers.Action α} (hm : moved op s)
    (hs : Fine moved settings s)
    (hg : ∀ checked,Checks moved settings op emailVerification data checked →
      Keeps moved (Fine moved settings) op shows (g checked) s₀ s) :
    Keeps moved (Fine moved settings) op shows ((checkTokens settings emailVerification data).bind g) s₀ s := by
  unfold checkTokens
  split
  · rename_i hno
    refine hg _ ⟨fun h => ?_,fun h => (by cases h),fun h => (by cases h)⟩
    rw [hno] at h
    cases h
  split
  · exact keeps_checkVerification hm hs hg
  · exact keeps_checkEmergencyAccess hm hs hg
  · exact keeps_checkInvite hm hs hg
  · exact keeps_throw hs

/-- An invitation that was taken was there. -/
theorem keeps_takeInvitation {mail : Text} {g : Bool → RegistrationHandlers.Action α} (hs : Fine moved settings s)
    (hg : ∀ taken s₁ s₂,Fine moved settings s₂ →
      (taken=true → ∃ s,moved op s ∧ settings.toLowercase mail∈s.db.invitations) →
      Keeps moved (Fine moved settings) op shows (g taken) s₁ s₂) :
    Keeps moved (Fine moved settings) op shows ((within database (takeInvitation settings mail)).bind g) s₀ s := by
  unfold takeInvitation
  rw [bind_eq,within_bind,Script.bind_assoc]
  refine keeps_within_query hs fun s₁ hs₁ hm₁ => ?_
  split
  · rename_i hfound
    rw [decide_eq_true_eq] at hfound
    exact keeps_within fine_tables (obeys_nothing _) hs₁ fun taken s₂ s₃ _ hs₃ =>
      hg taken s₂ s₃ hs₃ fun _ => ⟨s₁,hm₁,hfound⟩
  · exact hg false s₁ s₁ hs₁ fun h => by cases h

end Checks

section Accounts

variable {α : Type} {moved : Operation → Store → Prop} {settings : RegisterSettings} {op : Operation}
  {shows : α → Prop} {s₀ s : Store} {data : RegisterData} {emailVerification : Bool} {checked : Checked}

/-- The account that a registration goes on with, and whether its address is
verified. -/
structure Chosen (moved : Operation → Store → Prop) (settings : RegisterSettings) (op : Operation)
    (data : RegisterData) (user : User) (emailVerified : Bool) : Prop where
  /-- Address. -/
  address : user.email=settings.toLowercase (settings.toLowercase data.email)
  /-- It had no password, or there was none. -/
  account : Stub moved op user.uuid user.email user.verified ∨
    user.verified=false ∧ Opened moved op user.uuid user.email
  /-- Why it was let in. -/
  entitled : Entitled moved settings op data
  /-- A token was mailed. -/
  confirmed : emailVerified=true → Confirmed moved settings op data

theorem keeps_completeStub {user : User} {g : User×Bool → RegistrationHandlers.Action α} (hs : Fine moved settings s)
    (hm : moved op s) (hchecked : Checks moved settings op emailVerification data checked)
    (huser : user∈s.db.users) (hemail : user.email=settings.toLowercase (settings.toLowercase data.email))
    (hg : ∀ emailVerified s₁ s₂,Fine moved settings s₂ → Chosen moved settings op data user emailVerified →
      Keeps moved (Fine moved settings) op shows (g (user,emailVerified)) s₁ s₂) :
    Keeps moved (Fine moved settings) op shows
      ((completeStub settings (settings.toLowercase data.email) data checked user).bind g) s₀ s := by
  unfold completeStub
  simp only [bind_eq,Script.bind_assoc]
  refine keeps_ensure hs fun hempty => ?_
  rw [decide_eq_true_eq] at hempty
  have hstub : Stub moved op user.uuid user.email user.verified := ⟨s,user,hm,huser,rfl,rfl,hempty,rfl⟩
  have hchosen : Entitled moved settings op data → Chosen moved settings op data user checked.emailVerified :=
    fun h => ⟨hemail,.inl hstub,h,hchecked.confirmed⟩
  cases hinvite : data.orgInviteToken with
  | some token =>
    unfold decodeInvite
    simp only [Script.bind_assoc]
    refine keeps_decodeJwt hs hm fun c hc hheld => keeps_ensure hs fun hclaim => ?_
    rw [decide_eq_true_eq] at hclaim
    split at hc
    · cases hc
      exact hg true s₀ s hs ⟨hemail,.inl hstub,.invite c hheld hclaim,fun _ => ⟨_,hheld,trivial,.inr hclaim⟩⟩
    · cases hc
  | none =>
    simp only [Script.bind_assoc]
    refine keeps_takeInvitation hs fun taken s₁ s₂ hs₂ htaken => ?_
    split
    · rename_i hyes
      obtain ⟨t,ht,hinvited⟩ := htaken hyes
      simp only [Script.bind_assoc]
      exact keeps_within fine_tables (obeys_nothing _) hs₂ fun _ s₃ s₄ _ hs₄ =>
        hg _ s₃ s₄ hs₄ (hchosen (.invitation t ht hinvited))
    split
    · exact hg _ s₁ s₂ hs₂ (hchosen (.signup ‹_›))
    · simp only [Script.bind_assoc]
      refine keeps_ensure hs₂ fun hallowed => keeps_within_query hs₂ fun s₃ hs₃ hm₃ => keeps_ensure hs₃ fun hsome => ?_
      obtain ⟨e,he⟩ := Option.isSome_iff_exists.mp hsome
      have hfound := List.find?_some he
      rw [decide_eq_true_eq] at hfound
      have hmem := List.mem_of_find?_eq_some he
      exact hg _ s₃ s₃ hs₃ (hchosen (.emergencyAccess s₃ hm₃ e hmem hfound.1 hfound.2 hallowed))

theorem keeps_openAccount {randomBytes : Bytes} {g : User×Bool → RegistrationHandlers.Action α}
    (hs : Fine moved settings s) (hm : moved op s)
    (hchecked : Checks moved settings op emailVerification data checked)
    (hfree : ∀ u∈s.db.users,u.email≠settings.toLowercase (settings.toLowercase data.email))
    (hg : ∀ user emailVerified s₁ s₂,Fine moved settings s₂ → Chosen moved settings op data user emailVerified →
      Keeps moved (Fine moved settings) op shows (g (user,emailVerified)) s₁ s₂) :
    Keeps moved (Fine moved settings) op shows
      ((openAccount settings randomBytes (settings.toLowercase data.email) checked).bind g) s₀ s := by
  unfold openAccount
  simp only [bind_eq,Script.bind_assoc]
  refine keeps_takeInvitation hs fun taken s₁ s₂ hs₂ htaken => keeps_ensure hs₂ fun hallowed => ?_
  rw [Bool.or_eq_true,Bool.or_eq_true] at hallowed
  have hentitled : Entitled moved settings op data := by
    rcases hallowed with (hyes|hsignup)|hpending
    · obtain ⟨t,ht,hinvited⟩ := htaken hyes
      exact .invitation t ht hinvited
    · exact .signup hsignup
    · exact hchecked.pending hpending
  refine keeps_within_draw fine_tables hs₂ fun s₃ s₄ hm₃ hs₄ => keeps_within_draw fine_tables hs₄ fun _ s₅ _ hs₅ => ?_
  exact hg _ _ _ s₅ hs₅ ⟨rfl,.inr ⟨rfl,s,s₃,hm,hm₃,hfree,rfl⟩,hentitled,hchecked.confirmed⟩

end Accounts

section Saving

variable {settings : RegisterSettings} {data : RegisterData} {name : Option Text} {emailVerified : Bool} {user : User}

/-- A value that is computed, with what is known of it. -/
theorem obeys_fromExcept {α β : Type} {K : β → Prop} {r : Except String α} {g : α → ServerModels.Action β}
    (h : ∀ a,r=.ok a → (g a).Obeys (fun _ => True) (fun _ _ => True) K) :
    ((CipherHandlers.fromExcept r).bind g).Obeys (fun _ => True) (fun _ _ => True) K := by
  cases r with
  | ok a => exact h a rfl
  | error e => trivial

/-- The key derivation is all that it changes. -/
theorem setKdfData_eq {kdf : KDFData} {u : User} (h : setKdfData user kdf=.ok u) :
    u={user with clientKdf := u.clientKdf} := by
  unfold setKdfData at h
  split at h
  · cases h
  split at h
  · split at h
    · cases h
      rfl
    · cases h
  · cases h
    rfl

/-- What a password changes. -/
structure Renewed (settings : RegisterSettings) (data : RegisterData) (user u : User) : Prop where
  /-- Key. -/
  uuid : u.uuid=user.uuid
  /-- Address. -/
  email : u.email=user.email
  /-- Verification. -/
  verified : u.verified=user.verified
  /-- Password. -/
  password : u.passwordHash=settings.hashPassword data.masterPasswordHash u.salt u.passwordIterations
  /-- Wrapped user key. -/
  key : u.akey=data.key

/-- What follows a new password. -/
theorem obeys_setPassword {β : Type} {K : β → Prop} {g : User → ServerModels.Action β}
    (h : ∀ u,Renewed settings data user u → (g u).Obeys (fun _ => True) (fun _ _ => True) K) :
    ((User.setPassword settings.toFactorSettings user data.masterPasswordHash (some data.key) true none).bind g).Obeys
      (fun _ => True) (fun _ _ => True) K := by
  unfold User.setPassword User.resetSecurityStamp
  simp only [bind_eq,Script.bind_assoc,↓reduceIte]
  refine obeys_past fun now => obeys_past fun stamp => obeys_past fun _ => h _ ?_
  exact ⟨rfl,rfl,rfl,rfl,rfl⟩

theorem withFields_uuid (u : User) : (withFields data name emailVerified u).uuid=u.uuid := by
  unfold withFields withKeys
  cases data.keys <;> cases emailVerified <;> rfl

theorem withFields_email (u : User) : (withFields data name emailVerified u).email=u.email := by
  unfold withFields withKeys
  cases data.keys <;> cases emailVerified <;> rfl

theorem withFields_verified (u : User) :
    (withFields data name emailVerified u).verified=(emailVerified || u.verified) := by
  unfold withFields withKeys
  cases data.keys <;> cases emailVerified <;> rfl

theorem withFields_password (u : User) (h : u.passwordHash=settings.hashPassword data.masterPasswordHash u.salt
    u.passwordIterations) : (withFields data name emailVerified u).passwordHash=
      settings.hashPassword data.masterPasswordHash (withFields data name emailVerified u).salt
        (withFields data name emailVerified u).passwordIterations := by
  unfold withFields withKeys
  cases data.keys <;> cases emailVerified <;> exact h

theorem withFields_key (u : User) : (withFields data name emailVerified u).akey=u.akey := by
  unfold withFields withKeys
  cases data.keys <;> cases emailVerified <;> rfl

/-- What a registration saves. -/
structure Saved (settings : RegisterSettings) (data : RegisterData) (emailVerified : Bool) (user u : User) : Prop where
  /-- Key. -/
  uuid : u.uuid=user.uuid
  /-- Address. -/
  email : u.email=user.email
  /-- Verification. -/
  verified : u.verified=(emailVerified || user.verified)
  /-- Password. -/
  password : u.passwordHash=settings.hashPassword data.masterPasswordHash u.salt u.passwordIterations
  /-- Wrapped user key. -/
  key : u.akey=data.key

theorem obeys_finishRegistration : (finishRegistration settings data name emailVerified user).Obeys (fun _ => True)
    (fun _ _ => True) (Saved settings data emailVerified user) := by
  unfold finishRegistration
  simp only [bind_eq]
  refine obeys_fromExcept fun u hu => obeys_setPassword fun v hv => ?_
  refine obeys_past fun _ => obeys_past fun _ => obeys_past fun _ => ?_
  have hkdf := setKdfData_eq hu
  have huuid : u.uuid=user.uuid := hkdf ▸ rfl
  have hemail : u.email=user.email := hkdf ▸ rfl
  have hverified : u.verified=user.verified := hkdf ▸ rfl
  refine ⟨(withFields_uuid v).trans (hv.uuid.trans huuid),(withFields_email v).trans (hv.email.trans hemail),?_,
    withFields_password v hv.password,(withFields_key v).trans hv.key⟩
  rw [withFields_verified,hv.verified,hverified]

end Saving

section Runs

variable {moved : Operation → Store → Prop} {settings : RegisterSettings} {s : Store} {randomBytes : Bytes}
  {emailVerification : Bool} {data : RegisterData}

/-- What is saved of the account that was chosen. -/
theorem registered_of_saved {op : Operation} {checked : Checked} {user u : User} {emailVerified : Bool}
    (hchecked : Checks moved settings op emailVerification data checked)
    (hchosen : Chosen moved settings op data user emailVerified) (hsaved : Saved settings data emailVerified user u) :
    Registered moved settings op emailVerification data u := by
  refine ⟨hsaved.email.trans hchosen.address,hsaved.password,hsaved.key,?_,hchosen.entitled,hchecked.vouched,?_⟩
  · rw [hsaved.uuid,hsaved.email]
    rcases hchosen.account with hstub|⟨-,hopened⟩
    · exact .inl ⟨_,hstub⟩
    · exact .inr hopened
  · intro hverified
    rw [hsaved.verified,Bool.or_eq_true] at hverified
    rw [hsaved.uuid,hsaved.email]
    rcases hverified with hconfirmed|hbefore
    · exact .inr (hchosen.confirmed hconfirmed)
    · rcases hchosen.account with hstub|⟨hno,-⟩
      · exact .inl (hbefore ▸ hstub)
      · rw [hno] at hbefore
        cases hbefore

theorem keeps_register (hm : moved (.register randomBytes emailVerification data) s) (hs : Fine moved settings s) :
    Keeps moved (Fine moved settings) (.register randomBytes emailVerification data)
      (Registered moved settings (.register randomBytes emailVerification data) emailVerification data)
      (RegistrationHandlers.register settings randomBytes emailVerification data) s s := by
  unfold RegistrationHandlers.register
  simp only [bind_eq]
  refine keeps_checkTokens hm hs fun checked hchecked => keeps_ensure hs fun _ => ?_
  unfold enforcePasswordHintSetting
  rw [within_ensure]
  refine keeps_ensure hs fun _ => keeps_within_query hs fun s₁ hs₁ hm₁ => ?_
  have hfinish : ∀ (user : User) (emailVerified : Bool) s₁ s₂,Fine moved settings s₂ →
      Chosen moved settings (.register randomBytes emailVerification data) data user emailVerified →
      Keeps moved (Fine moved settings) (.register randomBytes emailVerification data)
        (Registered moved settings (.register randomBytes emailVerification data) emailVerification data)
        ((within database (takeInvitation settings (settings.toLowercase data.email))).bind fun _ =>
          within database (finishRegistration settings data checked.name emailVerified user)) s₁ s₂ := by
    intro user emailVerified s₁ s₂ hs₂ hchosen
    refine keeps_takeInvitation hs₂ fun _ s₃ s₄ hs₄ _ => ?_
    exact keeps_within_done fine_tables obeys_finishRegistration hs₄ fun u hu =>
      registered_of_saved hchecked hchosen hu
  split
  · rename_i user hfound
    have hemail := List.find?_some hfound
    rw [decide_eq_true_eq] at hemail
    exact keeps_completeStub hs₁ hm₁ hchecked (List.mem_of_find?_eq_some hfound) hemail fun emailVerified s₂ s₃ hs₃
      hchosen => hfinish user emailVerified s₂ s₃ hs₃ hchosen
  · rename_i hnone
    rw [List.find?_eq_none] at hnone
    exact keeps_openAccount hs₁ hm₁ hchecked (fun u hu he => hnone u hu (decide_eq_true he))
      fun user emailVerified s₂ s₃ hs₃ hchosen => hfinish user emailVerified s₂ s₃ hs₃ hchosen

theorem keeps_plain {op : Operation} {p : RegistrationHandlers.Action Unit}
    (h : Keeps moved (Fine moved settings) op (fun _ => True) p s s) :
    Keeps moved (Fine moved settings) op (Outcome moved settings op) (plain p) s s := by
  refine keeps_bind h fun _ s₁ s₂ hs₂ _ => keeps_pure hs₂ ?_
  cases op <;> trivial

/-- Every operation goes back to the history. -/
theorem keeps_body (op : Operation) (s : Store) (hs : Fine moved settings s) (hm : moved op s) :
    Keeps moved (Fine moved settings) op (Outcome moved settings op) (op.body settings) s s := by
  cases op with
  | registerVerificationEmail out data => exact keeps_plain (keeps_registerVerificationEmail hm hs)
  | register randomBytes emailVerification data =>
    exact keeps_bind (keeps_register hm hs) fun user s₁ s₂ hs₂ huser => keeps_pure hs₂ huser
  | sendInvite out user orgId memberId invitedByEmail => exact keeps_plain (keeps_sendInvite hm hs)
  | sendEmergencyAccessInvite out address userId emerId grantorName grantorEmail =>
    exact keeps_plain (keeps_sendEmergencyAccessInvite hm hs)
  | elsewhere change =>
    refine keeps_plain (keeps_execute_done hs fun s₁ s₂ hs₁ _ hc => ⟨?_,trivial⟩)
    obtain ⟨db,-,rfl⟩ := Option.map_eq_some_iff.mp hc
    exact fine_tables s₁ db hs₁

/-- However operations overlap, a registration saves an account only if there
was none with its address, or one without a password; if its address may sign
up or was invited; and it marks the address as verified only if it was before,
or if a token was mailed to the address that was still valid. -/
theorem account_admitted {start : Store} (hstart : start.released=[]) {events : List (Event Operation Unit)}
    {history later : List Step} {m : Step}
    (h : trace (server (Operation.body settings)) ⟨start,[]⟩ events=history++m::later)
    (hop : m.op=.register randomBytes emailVerification data) {user : User} (hm : response m=some (.ok (some user))) :
    Registered (MovedIn (history++[m])) settings m.op emailVerification data user := by
  have hfine : Fine (MovedIn (history++[m])) settings start := by
    intro r hr
    rw [hstart] at hr
    cases hr
  have hshown := shown_of_trace hfine (fun op s hs hmoved => keeps_body op s hs hmoved) h hm
  rw [hop] at hshown ⊢
  exact hshown

end Runs

section Samples

/-- Settings with mails and without open sign-up, except for one whitelist. -/
def mailedSettings : RegisterSettings where
  toRequestSettings := {CredentialRuns.plainSettings.toRequestSettings with mailEnabled := true, signupsVerify := true}
  signupsAllowed := false
  whitelistEmpty := false
  invitationExpirationHours := 120
  email2faEnforceOnVerifiedInvite := false

/-- No account, and no token. -/
def empty : Store := ⟨⟨{Tables.none with next := 1, now := 60},by decide⟩,[]⟩

/-- Mails arrive. -/
def delivering : Outside where
  delivers _ := true
  randomBytes := []

/-- The token that is mailed to the address `a`. -/
def mailed : Token := .registerVerify ⟨60,1860,['a'],none,true⟩

/-- The registration that presents it. -/
def registration : RegisterData where
  email := ['a']
  kdf := ⟨0,600000,none,none⟩
  key := ['k']
  keys := none
  masterPasswordHash := ['h']
  masterPasswordHint := none
  name := none
  organizationUserId := none
  emailVerificationToken := some mailed
  acceptEmergencyAccessId := none
  acceptEmergencyAccessInviteToken := none
  orgInviteToken := none

/-- The address is verified, and the account is registered. -/
def signUp : List (Event Operation Unit) :=
  Event.start (Operation.registerVerificationEmail delivering ⟨['a'],none⟩)::List.replicate 2 (.resume 0 ⟨[],()⟩)++
    Event.start (Operation.register [] true registration)::List.replicate 9 (.resume 1 ⟨[],()⟩)

/-- The moves. -/
def signUpMoves : List Step := trace (server (Operation.body mailedSettings)) ⟨empty,[]⟩ signUp

theorem account_admitted_sample :
    ∃ op user,Registered (MovedIn signUpMoves) mailedSettings op true registration user := by
  have hne : signUpMoves≠[] := by decide
  have hsplit : signUpMoves=signUpMoves.dropLast++signUpMoves.getLast hne::[] := (List.dropLast_append_getLast hne).symm
  have hop : (signUpMoves.getLast hne).op=.register [] true registration := rfl
  have hok : ∃ user,response (signUpMoves.getLast hne)=some (.ok (some user)) := ⟨_,rfl⟩
  obtain ⟨user,huser⟩ := hok
  have hadmitted := account_admitted rfl hsplit hop huser
  rw [List.dropLast_append_getLast hne] at hadmitted
  exact ⟨_,user,hadmitted⟩

end Samples

end NadSafe.RegistrationRuns
