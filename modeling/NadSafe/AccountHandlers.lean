import NadSafe.SecondFactors

/-!
# Credentials and addresses of accounts

The handlers that change the password or the address of an account, each as
its sequence of statements. Tokens that are mailed are drawn outside, and
mails whose failure is only logged are left out.
-/

namespace NadSafe.AccountHandlers

open HostText TableRows AsyncScript ServerTables StoreScript ServerModels OrgHandlers SecondFactors
open CipherHandlers (headers)

/-- Settings for accounts. -/
structure AccountSettings extends FactorSettings where
  /-- `email_change_allowed`. -/
  emailChangeAllowed : Bool
  /-- `emergency_access_allowed`. -/
  emergencyAccessAllowed : Bool

/-- `NumberOrString::into_string`. -/
def NumberOrString.intoString : NumberOrString → Text
  | .number n => (toString n).toList
  | .string s => s

/-- `Device::save`. -/
def Device.save (d : Device) : Action Unit :=
  update "Error saving device" fun t => {t with devices := put Device.key d t.devices}

/-- `Device::rotate_refresh_tokens_by_user`. -/
def Device.rotateRefreshTokensByUser (user : Uuid) : Action Unit := do
  let devices ← lookup fun t => t.devices.filter fun d => d.userUuid=user
  each devices fun d => do
    let token ← getUuid
    Device.save {d with refreshToken := token}

/-- `User::reset_security_stamp`. -/
def User.resetSecurityStamp (u : User) : Action User := do
  let stamp ← getUuid
  Device.rotateRefreshTokensByUser u.uuid
  pure {u with securityStamp := stamp}

/-- `User::set_stamp_exception`, at a time. -/
def User.setStampException (routes : Option (List Text)) (now : ℤ) (u : User) : User :=
  match routes with
  | some routes => {u with stampException := some ⟨routes,u.securityStamp,now+120⟩}
  | none => u

/-- `User::set_password`. -/
def User.setPassword (settings : FactorSettings) (u : User) (password : Text) (newKey : Option Text)
    (resetSecurityStamp : Bool) (allowNextRoute : Option (List Text)) : Action User := do
  let now ← utcNow
  let u := User.setStampException allowNextRoute now
    {u with passwordHash := settings.hashPassword password u.salt u.passwordIterations}
  let u := {u with akey := newKey.getD u.akey}
  if resetSecurityStamp=true then User.resetSecurityStamp u else pure u

/-- `invite_user` of the administration page. -/
def inviteUser (settings : Settings) (out : Outside) (email : Text) : Action Unit := do
  let existing ← User.findByMail settings email
  ensure "User already exists" existing.isNone
  let uuid ← getUuid
  let stamp ← getUuid
  let user := ServerTables.User.new uuid stamp out.randomBytes settings.passwordIterations
    (settings.toLowercase email) none
  if settings.mailEnabled=true then ensure "Error sending mail" (out.delivers user.email)
  else Invitation.save settings user.email
  User.save settings user

/-- `post_email_token`, with the token it draws. -/
def postEmailToken (settings : AccountSettings) (token : Text) (caller : Uuid)
    (masterPasswordHash newEmail : Text) : Action Unit := do
  let user ← headers caller
  ensure "Email change is not allowed." settings.emailChangeAllowed
  ensure "Invalid password" (User.checkValidPassword settings.toFactorSettings user masterPasswordHash)
  let existing ← User.findByMail settings.toSettings newEmail
  ensure "Email already in use" existing.isNone
  ensure "Email domain not allowed" (settings.isEmailDomainAllowed newEmail)
  User.save settings.toSettings {user with emailNew := some newEmail, emailNewToken := some token}

/-- `ChangeEmailData`. -/
structure ChangeEmailData where
  /-- Hash of the master password. -/
  masterPasswordHash : Text
  /-- New address. -/
  newEmail : Text
  /-- The user key, wrapped again. -/
  key : Text
  /-- Hash of the master password for the new address. -/
  newMasterPasswordHash : Text
  /-- The mailed token. -/
  token : NumberOrString

/-- The pending change of an account is the one that is asked for. -/
def ChangeEmailData.matchPending (data : ChangeEmailData) (user : User) : Except String Unit :=
  match user.emailNew with
  | some val => if val≠data.newEmail then .error "Email change mismatch" else .ok ()
  | none => .error "No email change pending"

/-- The token of the pending change, where mail is sent. -/
def ChangeEmailData.matchToken (settings : AccountSettings) (data : ChangeEmailData) (user : User) :
    Except String Unit :=
  if settings.mailEnabled=true then
    match user.emailNewToken with
    | some val => if val≠NumberOrString.intoString data.token then .error "Token mismatch" else .ok ()
    | none => .error "No email change pending"
  else .ok ()

/-- `post_email`. -/
def postEmail (settings : AccountSettings) (caller : Uuid) (data : ChangeEmailData) : Action Unit := do
  let user ← headers caller
  ensure "Email change is not allowed." settings.emailChangeAllowed
  ensure "Invalid password" (User.checkValidPassword settings.toFactorSettings user data.masterPasswordHash)
  let existing ← User.findByMail settings.toSettings data.newEmail
  ensure "Email already in use" existing.isNone
  CipherHandlers.fromExcept (data.matchPending user)
  CipherHandlers.fromExcept (data.matchToken settings user)
  let user := {user with
    verified := settings.mailEnabled, email := data.newEmail, emailNew := none, emailNewToken := none}
  let user ← User.setPassword settings.toFactorSettings user data.newMasterPasswordHash (some data.key) true
    none
  User.save settings.toSettings user

end NadSafe.AccountHandlers
