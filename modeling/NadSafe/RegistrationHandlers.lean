import NadSafe.AccountRequests
import NadSafe.PartScript

/-!
# Registration

The registration of an account, after its address was verified or an invitation
was accepted, or without either, and the mails that make this possible. A token
is known to others when it has left the server, in a mail or in a response;
nobody else can sign one. Welcome mails, of which only failures are logged, are
left out, as is the time of the last verification mail.
-/

namespace NadSafe.RegistrationHandlers

open HostText TableRows AsyncScript ServerTables StoreScript ServerModels OrgHandlers SecondFactors
open AccountHandlers EmergencyHandlers SendHandlers AccountRequests PartScript
open CipherHandlers (fromExcept)

/-- Settings for registrations. -/
structure RegisterSettings extends RequestSettings where
  /-- `signups_allowed`. -/
  signupsAllowed : Bool
  /-- `signups_domains_whitelist` is empty. -/
  whitelistEmpty : Bool
  /-- `invitation_expiration_hours`. -/
  invitationExpirationHours : ℤ
  /-- `email_2fa_enforce_on_verified_invite`. -/
  email2faEnforceOnVerifiedInvite : Bool

/-- `is_signup_allowed`. -/
def isSignupAllowed (settings : RegisterSettings) (email : Text) : Bool :=
  if settings.whitelistEmpty=true then settings.signupsAllowed else settings.isEmailDomainAllowed email

/-- `RegisterVerifyClaims`. -/
structure RegisterVerifyClaims where
  /-- Signed at. -/
  nbf : ℤ
  /-- Valid until. -/
  exp : ℤ
  /-- Address. -/
  sub : Text
  /-- Display name. -/
  name : Option Text
  /-- The token is mailed to the address. -/
  verified : Bool
  deriving DecidableEq

/-- `InviteJwtClaims`. -/
structure InviteJwtClaims where
  /-- Signed at. -/
  nbf : ℤ
  /-- Valid until. -/
  exp : ℤ
  /-- Account. -/
  sub : Uuid
  /-- Its address. -/
  email : Text
  /-- Organisation. -/
  orgId : Uuid
  /-- Membership. -/
  memberId : Uuid
  /-- Who invites. -/
  invitedByEmail : Option Text
  deriving DecidableEq

/-- `EmergencyAccessInviteJwtClaims`. -/
structure EmergencyAccessInviteJwtClaims where
  /-- Signed at. -/
  nbf : ℤ
  /-- Valid until. -/
  exp : ℤ
  /-- Account. -/
  sub : Uuid
  /-- Its address. -/
  email : Text
  /-- Record. -/
  emerId : Uuid
  /-- Name of the grantor. -/
  grantorName : Text
  /-- Address of the grantor. -/
  grantorEmail : Text
  deriving DecidableEq

/-- A signed token; its issuer tells the kinds apart. -/
inductive Token where
  /-- For a registration. -/
  | registerVerify (claims : RegisterVerifyClaims)
  /-- For an invitation to an organisation. -/
  | invite (claims : InviteJwtClaims)
  /-- For an invitation to emergency access. -/
  | emergencyAccessInvite (claims : EmergencyAccessInviteJwtClaims)
  deriving DecidableEq

/-- When a token was signed. -/
def Token.nbf : Token → ℤ
  | .registerVerify c => c.nbf
  | .invite c => c.nbf
  | .emergencyAccessInvite c => c.nbf

/-- How long a token is valid. -/
def Token.exp : Token → ℤ
  | .registerVerify c => c.exp
  | .invite c => c.exp
  | .emergencyAccessInvite c => c.exp

/-- A token that has left the server, and the address it was mailed to. -/
structure Release where
  /-- Where, unless in a response. -/
  mailedTo : Option Text
  /-- What. -/
  token : Token
  deriving DecidableEq

/-- What the handlers work on. -/
structure Store where
  /-- The tables. -/
  db : Database
  /-- The tokens that have left the server. -/
  released : List Release

/-- A handler. -/
abbrev Action (α : Type) := Handler Store String α

/-- The database is a part of it. -/
def database : Part Store Database where
  get := Store.db
  set s db := {s with db := db}
  get_set _ _ := rfl
  set_set _ _ _ := rfl
  set_get _ := rfl

/-- Leeway of the dates of a token, in seconds. -/
def leeway : ℤ := 30

/-- `decode_jwt`. No statement is sent. -/
def decodeJwt {κ : Type} (kind : Token → Option κ) (token : Token) : Action κ := do
  let s ← Script.perform Statement.read
  ensure "Token is invalid" (decide (∃ r∈s.released,r.token=token))
  ensure "Token has expired" (decide (s.db.now-leeway ≤ token.exp))
  ensure "Error decoding JWT: ImmatureSignature" (decide (token.nbf ≤ s.db.now+leeway))
  expect "Issuer is invalid" (kind token)

/-- `decode_register_verify`. -/
def decodeRegisterVerify : Token → Action RegisterVerifyClaims :=
  decodeJwt fun
    | .registerVerify c => some c
    | _ => none

/-- `decode_invite`. -/
def decodeInvite : Token → Action InviteJwtClaims :=
  decodeJwt fun
    | .invite c => some c
    | _ => none

/-- `decode_emergency_access_invite`. -/
def decodeEmergencyAccessInvite : Token → Action EmergencyAccessInviteJwtClaims :=
  decodeJwt fun
    | .emergencyAccessInvite c => some c
    | _ => none

/-- `send_email`, for a mail with a token. -/
def sendEmail (out : Outside) (address : Text) (token : Token) : Action Unit :=
  execute "Error sending mail" fun s =>
    if out.delivers address=true then some {s with released := ⟨some address,token⟩::s.released} else none

/-- A token in a response. -/
def respondToken (token : Token) : Action Unit := do
  let _ ← Script.perform (Statement.write fun s => some {s with released := ⟨none,token⟩::s.released})
  pure ()

/-- `Utc::now`. -/
def utcNow : Action ℤ := do
  let s ← Script.perform Statement.read
  pure s.db.now

/-- `send_invite` of the mails. -/
def sendInvite (settings : RegisterSettings) (out : Outside) (user : User) (orgId memberId : Uuid)
    (invitedByEmail : Option Text) : Action Unit := do
  let now ← utcNow
  sendEmail out user.email (.invite
    ⟨now,now+3600*settings.invitationExpirationHours,user.uuid,user.email,orgId,memberId,invitedByEmail⟩)

/-- `send_emergency_access_invite`. -/
def sendEmergencyAccessInvite (settings : RegisterSettings) (out : Outside) (address : Text)
    (userId emerId : Uuid) (grantorName grantorEmail : Text) : Action Unit := do
  let now ← utcNow
  sendEmail out address (.emergencyAccessInvite
    ⟨now,now+3600*settings.invitationExpirationHours,userId,address,emerId,grantorName,grantorEmail⟩)

/-- `RegisterVerificationData`. -/
structure RegisterVerificationData where
  /-- Address. -/
  email : Text
  /-- Display name. -/
  name : Option Text

/-- Whether a verification may be asked for. -/
def mayRegister (settings : RegisterSettings) (email : Text) : Action Bool :=
  if isSignupAllowed settings email=true then pure true
  else if settings.mailEnabled=true then pure false
  else within database (lookup fun t => decide (settings.toLowercase email∈t.invitations))

/-- `register_verification_email`. The pause that hides whether there is an
account is a suspension. -/
def registerVerificationEmail (settings : RegisterSettings) (out : Outside) (data : RegisterVerificationData) :
    Action Unit := do
  let allowed ← mayRegister settings data.email
  ensure "Registration not allowed or user already exists" allowed
  let shouldSendMail := settings.mailEnabled && settings.signupsVerify
  let now ← utcNow
  let token := Token.registerVerify ⟨now,now+1800,data.email,data.name,shouldSendMail⟩
  if shouldSendMail=true then do
    let user ← within database (User.findByMail settings.toSettings data.email)
    if (user.any fun u => u.privateKey.isSome)=true then query fun _ => ()
    else sendEmail out data.email token
  else respondToken token

/-- `RegisterData`. -/
structure RegisterData where
  /-- Address. -/
  email : Text
  /-- Key derivation. -/
  kdf : KDFData
  /-- Wrapped user key. -/
  key : Text
  /-- Key pair. -/
  keys : Option KeysData
  /-- Hash of the master password. -/
  masterPasswordHash : Text
  /-- Hint. -/
  masterPasswordHint : Option Text
  /-- Display name. -/
  name : Option Text
  /-- Membership of the invitation. -/
  organizationUserId : Option Uuid
  /-- Token of the verified address. -/
  emailVerificationToken : Option Token
  /-- Record of the emergency access. -/
  acceptEmergencyAccessId : Option Uuid
  /-- Token of the emergency access. -/
  acceptEmergencyAccessInviteToken : Option Token
  /-- Token of the invitation. -/
  orgInviteToken : Option Token

/-- What the tokens of a request say. -/
structure Checked where
  /-- The address is verified. -/
  emailVerified : Bool
  /-- Display name. -/
  name : Option Text
  /-- There is an invitation to emergency access. -/
  pendingEmergencyAccess : Bool

/-- The token of a verified address. -/
def checkVerification (data : RegisterData) (token : Token) : Action Checked := do
  let claims ← decodeRegisterVerify token
  ensure "Email verification token does not match email" (decide (claims.sub=data.email))
  pure ⟨claims.verified,claims.name.or data.name,false⟩

/-- The token of an invitation to emergency access. -/
def checkEmergencyAccess (settings : RegisterSettings) (data : RegisterData) (id : Uuid) (token : Token) :
    Action Checked := do
  ensure "Emergency access is not enabled." settings.emergencyAccessAllowed
  let claims ← decodeEmergencyAccessInvite token
  ensure "Claim email does not match email" (decide (claims.email=data.email))
  ensure "Claim emer_id does not match accept_emergency_access_id" (decide (claims.emerId=id))
  pure ⟨true,data.name,true⟩

/-- The token of an invitation to an organisation. -/
def checkInvite (data : RegisterData) (member : Uuid) (token : Token) : Action Checked := do
  let claims ← decodeInvite token
  ensure "Claim email does not match email" (decide (claims.email=data.email))
  ensure "Claim org_user_id does not match organization_user_id" (decide (claims.memberId=member))
  pure ⟨true,data.name,false⟩

/-- The tokens of a request, if they are asked for. -/
def checkTokens (settings : RegisterSettings) (emailVerification : Bool) (data : RegisterData) : Action Checked :=
  if emailVerification=false then pure ⟨false,data.name,false⟩
  else match data.emailVerificationToken,data.acceptEmergencyAccessId,data.acceptEmergencyAccessInviteToken,
      data.organizationUserId,data.orgInviteToken with
    | some token,none,none,none,none => checkVerification data token
    | none,some id,some token,none,none => checkEmergencyAccess settings data id token
    | none,none,none,some member,some token => checkInvite data member token
    | _,_,_,_,_ => throw "Registration is missing required parameters"

/-- `Invitation::take`, with its response. -/
def takeInvitation (settings : RegisterSettings) (mail : Text) : ServerModels.Action Bool := do
  let lower := settings.toLowercase mail
  let found ← lookup fun t => decide (lower∈t.invitations)
  if found=true then
    tryCatch (do
      update "Error deleting invitation" fun t => {t with invitations := t.invitations.filter (·≠lower)}
      pure true) fun _ => pure false
  else pure false

/-- `EmergencyAccess::find_invited_by_grantee_email`. -/
def EmergencyAccess.findInvitedByGranteeEmail (email : Text) : ServerModels.Action (Option EmergencyAccess) :=
  lookup fun t => t.emergencyAccess.find? fun e => e.email=some email ∧ e.status=EmergencyAccess.Invited

/-- What the refusal of a registration says. -/
def notAllowed : String := "Registration not allowed or user already exists"

/-- An account without a password, which may be completed. -/
def completeStub (settings : RegisterSettings) (email : Text) (data : RegisterData) (checked : Checked)
    (user : User) : Action (User×Bool) := do
  ensure notAllowed (decide (user.passwordHash=[]))
  match data.orgInviteToken with
  | some token => do
    let claims ← decodeInvite token
    ensure "Registration email does not match invite email" (decide (claims.email=email))
    pure (user,true)
  | none => do
    let taken ← within database (takeInvitation settings email)
    if taken=true then do
      within database (Membership.acceptUserInvitations user.uuid)
      pure (user,checked.emailVerified)
    else if isSignupAllowed settings email=true then pure (user,checked.emailVerified)
    else do
      ensure notAllowed settings.emergencyAccessAllowed
      let invited ← within database (EmergencyAccess.findInvitedByGranteeEmail email)
      ensure notAllowed invited.isSome
      pure (user,checked.emailVerified)

/-- A new account. The invitation comes first: an administrator may invite
anyone. -/
def openAccount (settings : RegisterSettings) (randomBytes : Bytes) (email : Text) (checked : Checked) :
    Action (User×Bool) := do
  let taken ← within database (takeInvitation settings email)
  ensure notAllowed (taken || isSignupAllowed settings email || checked.pendingEmergencyAccess)
  let uuid ← within database getUuid
  let stamp ← within database getUuid
  pure (User.new uuid stamp randomBytes settings.passwordIterations (settings.toLowercase email) none,
    checked.emailVerified)

/-- `is_email_2fa_required`. -/
def isEmail2faRequired (settings : RegisterSettings) (member : Option Uuid) : ServerModels.Action Bool :=
  if settings.enableEmail2fa=false then pure false
  else if settings.email2faEnforceOnVerifiedInvite=true then pure true
  else match member with
    | none => pure false
    | some member => do
      let found ← lookup fun t => t.members.find? fun m => m.uuid=member
      match found with
      | none => pure false
      | some m => lookup fun t => OrgPolicy.active t m.orgUuid .twoFactorAuthentication

/-- The fields of a request that are added to an account. -/
def withFields (data : RegisterData) (name : Option Text) (emailVerified : Bool) (user : User) : User :=
  let user := {user with passwordHint := cleanPasswordHint data.masterPasswordHint, name := name.getD user.name}
  let user := withKeys data.keys user
  if emailVerified=true then {user with verified := true} else user

/-- The factor that a verified invitation may ask for. A failure is ignored. -/
def enforceEmail2fa (settings : RegisterSettings) (data : RegisterData) (emailVerified : Bool) (user : User) :
    ServerModels.Action Unit :=
  if (settings.mailEnabled && emailVerified)=true then do
    let required ← isEmail2faRequired settings data.organizationUserId
    if required=true then ok (activateEmail2fa user) else pure ()
  else pure ()

/-- The open invitations to emergency access are accepted. Failures are
ignored. -/
def acceptEmergencyInvites (settings : RegisterSettings) (user : User) : ServerModels.Action Unit :=
  if (!settings.mailEnabled && settings.emergencyAccessAllowed)=true then do
    let invites ← lookup fun t =>
      t.emergencyAccess.filter fun e => e.email=some user.email ∧ e.status=EmergencyAccess.Invited
    each invites fun e => ok (EmergencyAccess.acceptInvite e user.uuid user.email)
  else pure ()

/-- The account gets its password and is saved. -/
def finishRegistration (settings : RegisterSettings) (data : RegisterData) (name : Option Text)
    (emailVerified : Bool) (user : User) : ServerModels.Action User := do
  let user ← fromExcept (setKdfData user data.kdf)
  let user ← User.setPassword settings.toFactorSettings user data.masterPasswordHash (some data.key) true none
  let user := withFields data name emailVerified user
  enforceEmail2fa settings data emailVerified user
  User.save settings.toSettings user
  acceptEmergencyInvites settings user
  pure user

/-- `register`, with the account that it has saved. -/
def register (settings : RegisterSettings) (randomBytes : Bytes) (emailVerification : Bool) (data : RegisterData) :
    Action User := do
  let email := settings.toLowercase data.email
  let checked ← checkTokens settings emailVerification data
  ensure "The field Name must be a string with a maximum length of 50."
    (checked.name.all fun name => decide (byteLength name≤50))
  within database (enforcePasswordHintSetting settings.toRequestSettings (cleanPasswordHint data.masterPasswordHint))
  let found ← within database (User.findByMail settings.toSettings email)
  let (user,emailVerified) ← match found with
    | some user => completeStub settings email data checked user
    | none => openAccount settings randomBytes email checked
  let _ ← within database (takeInvitation settings email)
  within database (finishRegistration settings data checked.name emailVerified user)

end NadSafe.RegistrationHandlers
