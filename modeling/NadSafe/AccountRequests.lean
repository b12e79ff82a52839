import NadSafe.FirstFactor
import NadSafe.KeyRotation

/-!
# Requests of a signed-in user

The guard of the access token, with the row of the account that it loads, and
the handlers that change this row and save it as a whole. Every handler works
on the row that the guard has loaded. Notifications and events are left out;
keys and codes that are drawn come with the request.
-/

namespace NadSafe.AccountRequests

open HostText TableRows AsyncScript ServerTables StoreScript ServerModels OrgHandlers SecondFactors
open AccountHandlers EmergencyHandlers SendHandlers KeyRotation
open CipherHandlers (headers Panic fromExcept)

/-- Settings of these requests. -/
structure RequestSettings extends RotationSettings, AccountSettings where
  /-- `password_hints_allowed`. -/
  passwordHintsAllowed : Bool
  /-- `signups_verify`. -/
  signupsVerify : Bool
  /-- `disable_2fa_remember`. -/
  disable2faRemember : Bool

/-- `LoginJwtClaims`, as far as the guard reads them. -/
structure LoginJwtClaims where
  /-- The account. -/
  sub : Uuid
  /-- The device. -/
  device : Uuid
  /-- Security stamp of the account when the token was issued. -/
  sstamp : Uuid

/-- What the guard hands on. -/
structure Headers where
  /-- The device. -/
  device : Device
  /-- The account, as it was loaded. -/
  user : User

/-- `Device::find_by_uuid_and_user`. -/
def Device.findByUuidAndUser (device user : Uuid) : Action (Option Device) :=
  lookup fun t => t.devices.find? fun d => d.uuid=device ∧ d.userUuid=user

/-- The check of a token with an older stamp. An exception that has expired is
removed; a failed save is only logged. -/
def Headers.checkException (settings : Settings) (claims : LoginJwtClaims) (route : Option Text) (user : User) :
    Action Unit := do
  let stampException ← expect "Invalid security stamp" user.stampException
  let currentRoute ← expect "Error getting current route for stamp exception" route
  let now ← utcNow
  if stampException.expire<now then do
    ok (User.save settings {user with stampException := none})
    throw "Stamp exception is expired"
  else if currentRoute∉stampException.routes then
    throw "Invalid security stamp: Current route and exception route do not match"
  else if stampException.securityStamp≠claims.sstamp then
    throw "Invalid security stamp for matched stamp exception"
  else pure ()

/-- `Headers::from_request`, for a token that was decoded. -/
def Headers.fromRequest (settings : Settings) (claims : LoginJwtClaims) (route : Option Text) :
    Action Headers := do
  let device ← Device.findByUuidAndUser claims.device claims.sub
  let device ← expect "Invalid device id" device
  let user ← User.findByUuid claims.sub
  let user ← expect "Device has no user associated" user
  if user.securityStamp=claims.sstamp then pure ⟨device,user⟩
  else do
    Headers.checkException settings claims route user
    pure ⟨device,user⟩

/-- `trim`. -/
def trim (s : Text) : Text := ((s.dropWhile isWhitespace).reverse.dropWhile isWhitespace).reverse

/-- `clean_password_hint`. -/
def cleanPasswordHint (hint : Option Text) : Option Text :=
  (hint.map trim).filter (·≠[])

/-- `enforce_password_hint_setting`. -/
def enforcePasswordHintSetting (settings : RequestSettings) (hint : Option Text) : Action Unit :=
  ensure "Password hints have been disabled by the administrator. Remove the hint and try again."
    (decide ¬(hint.isSome=true ∧ settings.passwordHintsAllowed=false))

/-- `KeysData`. -/
structure KeysData where
  /-- Wrapped private key. -/
  encryptedPrivateKey : Text
  /-- Public key. -/
  publicKey : Text

/-- `KDFData`. -/
structure KDFData where
  /-- Function. -/
  kdf : ℤ
  /-- Iterations. -/
  kdfIterations : ℤ
  /-- Memory. -/
  kdfMemory : Option ℤ
  /-- Parallelism. -/
  kdfParallelism : Option ℤ
  deriving DecidableEq

/-- `UserKdfType::Pbkdf2`. -/
def Pbkdf2 : ℤ := 0

/-- `UserKdfType::Argon2id`. -/
def Argon2id : ℤ := 1

/-- The parameters of Argon2id that are accepted. -/
def KDFData.argon2 (data : KDFData) : Except String (Option ℤ×Option ℤ) :=
  if data.kdfIterations<1 then .error "Argon2 KDF iterations must be at least 1."
  else match data.kdfMemory,data.kdfParallelism with
  | none,_ => .error "Argon2 memory parameter is required."
  | some m,p =>
    if ¬(15 ≤ m ∧ m ≤ 1024) then .error "Argon2 memory must be between 15 MB and 1024 MB."
    else match p with
    | none => .error "Argon2 parallelism parameter is required."
    | some p =>
      if ¬(1≤p ∧ p≤16) then .error "Argon2 parallelism must be between 1 and 16."
      else .ok (some m,some p)

/-- `set_kdf_data`. -/
def setKdfData (user : User) (data : KDFData) : Except String User :=
  if data.kdf=Pbkdf2 ∧ data.kdfIterations<100000 then
    .error "PBKDF2 KDF iterations must be at least 100000."
  else if data.kdf=Argon2id then
    match data.argon2 with
    | .ok (m,p) => .ok {user with clientKdf := (data.kdf,data.kdfIterations,m,p)}
    | .error e => .error e
  else .ok {user with clientKdf := (data.kdf,data.kdfIterations,none,none)}

/-- `post_profile`, also for `put_profile`. -/
def postProfile (settings : RequestSettings) (name : Text) (user : User) : Action Unit := do
  ensure "The field Name must be a string with a maximum length of 50." (decide (byteLength name≤50))
  User.save settings.toSettings {user with name := name}

/-- `put_avatar`. -/
def putAvatar (settings : RequestSettings) (avatarColor : Option Text) (user : User) : Action Unit := do
  ensure "The field AvatarColor must be a HTML/Hex color code with a length of 7 characters"
    (avatarColor.all fun color => decide (byteLength color=7))
  User.save settings.toSettings {user with avatarColor := avatarColor}

/-- `post_keys`. -/
def postKeys (settings : RequestSettings) (data : KeysData) (user : User) : Action Unit :=
  User.save settings.toSettings
    {user with privateKey := some data.encryptedPrivateKey, publicKey := some data.publicKey}

/-- `ChangePassData`. -/
structure ChangePassData where
  /-- Hash of the master password. -/
  masterPasswordHash : Text
  /-- Hash of the new one. -/
  newMasterPasswordHash : Text
  /-- Hint. -/
  masterPasswordHint : Option Text
  /-- The user key, wrapped again. -/
  key : Text

/-- Routes that may be used with the old stamp after a change of the password. -/
def passwordRoutes : List Text :=
  ["post_rotatekey".toList,"get_contacts".toList,"get_public_keys".toList,"get_api_webauthn".toList]

/-- `post_password`. -/
def postPassword (settings : RequestSettings) (data : ChangePassData) (user : User) : Action Unit := do
  ensure "Invalid password" (User.checkValidPassword settings.toFactorSettings user data.masterPasswordHash)
  let user := {user with passwordHint := cleanPasswordHint data.masterPasswordHint}
  enforcePasswordHintSetting settings user.passwordHint
  let user ← User.setPassword settings.toFactorSettings user data.newMasterPasswordHash (some data.key) true
    (some passwordRoutes)
  User.save settings.toSettings user

/-- `SetPasswordData`. -/
structure SetPasswordData where
  /-- Key derivation. -/
  kdf : KDFData
  /-- Wrapped user key. -/
  key : Text
  /-- Key pair. -/
  keys : Option KeysData
  /-- Hash of the master password. -/
  masterPasswordHash : Text
  /-- Hint. -/
  masterPasswordHint : Option Text
  /-- The organisation of the invitation, unless it is one of the two that stand for none. -/
  orgIdentifier : Option Uuid

/-- `Membership::accept_user_invitations`. -/
def Membership.acceptUserInvitations (user : Uuid) : Action Unit :=
  update "Error confirming invitations" fun t => {t with members := t.members.map fun m =>
    if m.userUuid=user ∧ m.status=Invited then {m with status := Accepted} else m}

/-- The invitation that is accepted with the first password. -/
def acceptIdentified (settings : Settings) (out : Outside) (user : User) (orgIdentifier : Option Uuid) :
    Action Unit :=
  match orgIdentifier with
  | none => pure ()
  | some identifier => do
    let org ← Organization.findByUuid identifier
    let org ← expect "Failed to retrieve the associated organization" org
    let membership ← Membership.findByUserAndOrg user.uuid org.uuid
    let membership ← expect "Failed to retrieve the invitation" membership
    acceptOrgInvite settings out user membership none

/-- The key pair of a request, if it has one. -/
def withKeys (keys : Option KeysData) (user : User) : User :=
  match keys with
  | some keys => {user with privateKey := some keys.encryptedPrivateKey, publicKey := some keys.publicKey}
  | none => user

/-- The mail to a new account, or the acceptance of its invitations. -/
def welcome (settings : Settings) (out : Outside) (user : User) : Action Unit :=
  if settings.mailEnabled=true then
    ensure "Error sending mail" (out.delivers (settings.toLowercase user.email))
  else Membership.acceptUserInvitations user.uuid

/-- `post_set_password`. -/
def postSetPassword (settings : RequestSettings) (out : Outside) (data : SetPasswordData) (user : User) :
    Action Unit := do
  ensure "Account already initialized, cannot set password" user.privateKey.isNone
  let passwordHint := cleanPasswordHint data.masterPasswordHint
  enforcePasswordHintSetting settings passwordHint
  let user ← fromExcept (setKdfData user data.kdf)
  let user ← User.setPassword settings.toFactorSettings user data.masterPasswordHash (some data.key) false
    (some ["revision_date".toList])
  let user := withKeys data.keys {user with passwordHint := passwordHint}
  acceptIdentified settings.toSettings out user data.orgIdentifier
  welcome settings.toSettings out user
  User.save settings.toSettings user

/-- `ChangeKdfData`. -/
structure ChangeKdfData where
  /-- Salt, derivation and hash of the master password. -/
  authenticationData : Text×KDFData×Text
  /-- Salt, derivation and wrapped user key. -/
  unlockData : Text×KDFData×Text
  /-- Hash of the current master password. -/
  masterPasswordHash : Text

/-- `post_kdf`. -/
def postKdf (settings : RequestSettings) (data : ChangeKdfData) (user : User) : Action Unit := do
  let (authenticationSalt,authenticationKdf,authenticationHash) := data.authenticationData
  let (unlockSalt,unlockKdf,wrappedUserKey) := data.unlockData
  ensure "Invalid password" (User.checkValidPassword settings.toFactorSettings user data.masterPasswordHash)
  ensure "KDF settings must be equal for authentication and unlock" (decide (authenticationKdf=unlockKdf))
  ensure "Invalid master password salt" (decide (user.email=authenticationSalt ∧ user.email=unlockSalt))
  let user ← fromExcept (setKdfData user unlockKdf)
  let user ← User.setPassword settings.toFactorSettings user authenticationHash (some wrappedUserKey) true none
  User.save settings.toSettings user

/-- `post_rotatekey` after the guard. -/
def postRotatekey (settings : RequestSettings) (data : KeyData) (user : User) : Action Unit := do
  ensure "Invalid password"
    (User.checkValidPassword settings.toFactorSettings user data.oldMasterKeyAuthenticationHash)
  ensure "The model state is invalid."
    (CipherHandlers.validateCipherData settings.toVaultSettings data.accountData.ciphers)
  let existingCiphers ← lookup fun t =>
    t.ciphers.filter fun c => c.userUuid=some user.uuid ∧ c.organizationUuid=none
  let existingFolders ← lookup fun t => t.folders.filter fun f => f.userUuid=user.uuid
  let existingEmergencyAccess ← lookup fun t => t.emergencyAccess.filter fun e =>
    e.grantorUuid=user.uuid ∧ ServerTables.EmergencyAccess.Confirmed≤e.status
  let memberships ← lookup fun t => t.members.filter fun m => m.userUuid=user.uuid
  let existingMemberships := memberships.filter fun m => m.resetPasswordKey.isSome
  let existingSends ← lookup fun t => t.sends.filter fun s => s.userUuid=some user.uuid
  fromExcept (validateKeydata data existingCiphers existingFolders existingEmergencyAccess existingMemberships
    existingSends user)
  rotateFolders existingFolders data.accountData.folders
  rotateEmergencyAccess existingEmergencyAccess data.accountUnlockData.emergencyAccessUnlockData
  rotateResetPassword existingMemberships data.accountUnlockData.organizationAccountRecoveryUnlockData
  rotateSends settings.sends user.uuid existingSends data.accountData.sends
  rotateCiphers settings.toVaultSettings user.uuid existingCiphers data.accountData.ciphers
  rotateUser settings.toRotationSettings user data

/-- The handler of the rotation is the guard of the account and this. -/
theorem postRotatekey_eq (settings : RequestSettings) (caller : Uuid) (data : KeyData) :
    KeyRotation.postRotatekey settings.toRotationSettings caller data=
      (headers caller).bind (postRotatekey settings data) := rfl

/-- `Device::delete_all_by_user`. -/
def Device.deleteAllByUser (user : Uuid) : Action Unit :=
  update "Error removing devices for user" fun t => {t with devices := t.devices.filter fun d => d.userUuid≠user}

/-- `post_sstamp`. The devices are removed even if the save has failed. -/
def postSstamp (settings : RequestSettings) (data : PasswordOrOtpData) (user : User) : Action Unit := do
  data.validate settings.toFactorSettings user true
  let user ← User.resetSecurityStamp user
  let saveResult ← tryCatch (do
    User.save settings.toSettings user
    pure none) fun e => pure (some e)
  Device.deleteAllByUser user.uuid
  match saveResult with
  | none => pure ()
  | some e => throw e

/-- `post_email_token` after the guard, with the token it draws. -/
def postEmailToken (settings : RequestSettings) (token masterPasswordHash newEmail : Text) (user : User) :
    Action Unit := do
  ensure "Email change is not allowed." settings.emailChangeAllowed
  ensure "Invalid password" (User.checkValidPassword settings.toFactorSettings user masterPasswordHash)
  let existing ← User.findByMail settings.toSettings newEmail
  ensure "Email already in use" existing.isNone
  ensure "Email domain not allowed" (settings.isEmailDomainAllowed newEmail)
  User.save settings.toSettings {user with emailNew := some newEmail, emailNewToken := some token}

theorem postEmailToken_eq (settings : RequestSettings) (token : Text) (caller : Uuid) (hash newEmail : Text) :
    AccountHandlers.postEmailToken settings.toAccountSettings token caller hash newEmail=
      (headers caller).bind (postEmailToken settings token hash newEmail) := rfl

/-- `post_email` after the guard. -/
def postEmail (settings : RequestSettings) (data : ChangeEmailData) (user : User) : Action Unit := do
  ensure "Email change is not allowed." settings.emailChangeAllowed
  ensure "Invalid password" (User.checkValidPassword settings.toFactorSettings user data.masterPasswordHash)
  let existing ← User.findByMail settings.toSettings data.newEmail
  ensure "Email already in use" existing.isNone
  fromExcept (data.matchPending user)
  fromExcept (data.matchToken settings.toAccountSettings user)
  let user := {user with
    verified := settings.mailEnabled, email := data.newEmail, emailNew := none, emailNewToken := none}
  let user ← User.setPassword settings.toFactorSettings user data.newMasterPasswordHash (some data.key) true
    none
  User.save settings.toSettings user

theorem postEmail_eq (settings : RequestSettings) (caller : Uuid) (data : ChangeEmailData) :
    AccountHandlers.postEmail settings.toAccountSettings caller data=
      (headers caller).bind (postEmail settings data) := rfl

/-- `post_verify_email_token`, which has no guard, with the account that the
token names if it is valid. A failed save is only logged. -/
def postVerifyEmailToken (settings : RequestSettings) (userId : Uuid) (sub : Option Uuid) : Action Unit := do
  let user ← User.findByUuid userId
  let user ← expect "User doesn't exist" user
  let sub ← expect "Invalid claim" sub
  ensure "Invalid claim" (decide (sub=user.uuid))
  ok (User.save settings.toSettings {user with verified := true})

/-- `kdf_upgrade`. A failed save is only logged. -/
def kdfUpgrade (settings : RequestSettings) (user : User) (pwdHash : Text) : Action User :=
  if user.passwordIterations< settings.passwordIterations then do
    let user := {user with passwordIterations := settings.passwordIterations}
    let user ← User.setPassword settings.toFactorSettings user pwdHash none false none
    ok (User.save settings.toSettings user)
    pure user
  else pure user

/-- `verify_password`. -/
def verifyPassword (settings : RequestSettings) (masterPasswordHash : Text) (user : User) : Action Unit := do
  ensure "Invalid password" (User.checkValidPassword settings.toFactorSettings user masterPasswordHash)
  let _ ← kdfUpgrade settings user masterPasswordHash

/-- `update_api_key`, with the key it draws. A failed save is a panic. -/
def updateApiKey (settings : RequestSettings) (apiKey : Text) (rotate : Bool) (data : PasswordOrOtpData)
    (user : User) : Action Unit := do
  data.validate settings.toFactorSettings user true
  if rotate=true ∨ user.apiKey=none then
    tryCatch (User.save settings.toSettings {user with apiKey := some apiKey}) fun _ => throw Panic
  else pure ()

/-- `post_settings_domains`: the two columns it sets are left out. -/
def postSettingsDomains (settings : RequestSettings) (user : User) : Action Unit :=
  User.save settings.toSettings user

/-- `activate_authenticator` after the guard. -/
def activateAuthenticator (settings : RequestSettings) (recoverCode key token : Text) (data : PasswordOrOtpData)
    (user : User) : Action Unit := do
  data.validate settings.toFactorSettings user true
  let decodedKey ← expect "Invalid totp secret" (settings.base32Decode key)
  ensure "Invalid key length" (decide (decodedKey.length=20))
  let _ ← validateTotpCode settings.toFactorSettings user.uuid token (settings.toUppercase key)
  generateRecoverCode settings.toFactorSettings recoverCode user

theorem activateAuthenticator_eq (settings : RequestSettings) (recoverCode : Text) (caller : Uuid)
    (key token : Text) (data : PasswordOrOtpData) :
    SecondFactors.activateAuthenticator settings.toFactorSettings recoverCode caller key token data=
      (headers caller).bind (activateAuthenticator settings recoverCode key token data) := rfl

/-- `email` of the second factors, after the guard. -/
def activateEmail (settings : RequestSettings) (recoverCode token : Text) (data : PasswordOrOtpData)
    (user : User) : Action Unit := do
  data.validate settings.toFactorSettings user true
  let found ← lookup fun t => TwoFactor.findByUserAndType t user.uuid EmailVerificationChallenge
  let twofactor ← expect "Two factor not found" found
  let emailData ← fromExcept (EmailTokenData.fromJson twofactor.data)
  let issuedToken ← expect "No token available" emailData.lastToken
  ensure "Token is invalid" (decide (issuedToken=token))
  TwoFactor.save {twofactor with
    atype := ServerTables.TwoFactor.Email, data := .emailToken (EmailTokenData.resetToken emailData)}
  generateRecoverCode settings.toFactorSettings recoverCode user

theorem activateEmail_eq (settings : RequestSettings) (recoverCode : Text) (caller : Uuid) (token : Text)
    (data : PasswordOrOtpData) :
    SecondFactors.email settings.toFactorSettings recoverCode caller token data=
      (headers caller).bind (activateEmail settings recoverCode token data) := rfl

/-- `activate_yubikey` after the guard. -/
def activateYubikey (settings : RequestSettings) (services : Services) (recoverCode : Text)
    (keys : List (Option Text)) (nfc : Bool) (data : PasswordOrOtpData) (user : User) : Action Unit := do
  data.validate settings.toFactorSettings user true
  let twofactor ← factorFor user.uuid YubiKey
  let yubikeys := keys.filterMap id
  if yubikeys=[] then pure ()
  else do
    ensure "Invalid Yubikey OTP provided"
      (yubikeys.all fun key => decide (key=[] ∨ byteLength key=12) || services.verifyYubikeyOtp key)
    TwoFactor.save {twofactor with
      data := .text (services.yubikeyMetadata (yubikeys.filterMap (firstBytes 12)) nfc)}
    generateRecoverCode settings.toFactorSettings recoverCode user

theorem activateYubikey_eq (settings : RequestSettings) (services : Services) (recoverCode : Text)
    (caller : Uuid) (keys : List (Option Text)) (nfc : Bool) (data : PasswordOrOtpData) :
    SecondFactors.activateYubikey settings.toFactorSettings services recoverCode caller keys nfc data=
      (headers caller).bind (activateYubikey settings services recoverCode keys nfc data) := rfl

/-- `activate_webauthn` after the guard. -/
def activateWebauthn (settings : RequestSettings) (recoverCode : Text) (id : NumberOrString)
    (name deviceResponse : Text) (data : PasswordOrOtpData) (user : User) : Action Unit := do
  data.validate settings.toFactorSettings user true
  let found ← lookup fun t => TwoFactor.findByUserAndType t user.uuid WebauthnRegisterChallenge
  let challenge ← expect "Can't recover challenge" found
  let state ← expect "invalid challenge" (match challenge.data with
    | .text state => some state
    | _ => none)
  TwoFactor.delete challenge
  let credential ← expect "invalid credential" (settings.finishPasskeyRegistration deviceResponse state)
  let registrations ← getWebauthnRegistrations user.uuid
  let id ← fromExcept id.intoI32
  let uuid ← getUuid
  TwoFactor.save (ServerTables.TwoFactor.new uuid user.uuid Webauthn
    (.registrations (registrations++[⟨id,name,false,credential⟩])))
  generateRecoverCode settings.toFactorSettings recoverCode user

theorem activateWebauthn_eq (settings : RequestSettings) (recoverCode : Text) (caller : Uuid)
    (id : NumberOrString) (name deviceResponse : Text) (data : PasswordOrOtpData) :
    SecondFactors.activateWebauthn settings.toFactorSettings recoverCode caller id name deviceResponse data=
      (headers caller).bind (activateWebauthn settings recoverCode id name deviceResponse data) := rfl

/-- `activate_duo` after the guard. -/
def activateDuo (settings : RequestSettings) (services : Services) (recoverCode : Text)
    (fields : EnableDuoData) (data : PasswordOrOtpData) (user : User) : Action Unit := do
  data.validate settings.toFactorSettings user true
  let custom := checkDuoFieldsCustom fields
  ensure "Failed to validate Duo credentials"
    (!custom || services.duoCheck fields.host fields.clientId fields.clientSecret)
  ensure Panic (!custom || fields.fields.all fun s => (firstBytes 4 s).isSome)
  let uuid ← getUuid
  TwoFactor.save (ServerTables.TwoFactor.new uuid user.uuid Duo
    (.text (if custom=true then services.duoData fields.host fields.clientId fields.clientSecret else [])))
  generateRecoverCode settings.toFactorSettings recoverCode user

theorem activateDuo_eq (settings : RequestSettings) (services : Services) (recoverCode : Text)
    (caller : Uuid) (fields : EnableDuoData) (data : PasswordOrOtpData) :
    SecondFactors.activateDuo settings.toFactorSettings services recoverCode caller fields data=
      (headers caller).bind (activateDuo settings services recoverCode fields data) := rfl

/-- `get_recover`. -/
def getRecover (settings : RequestSettings) (data : PasswordOrOtpData) (user : User) : Action Unit :=
  data.validate settings.toFactorSettings user true

/-- What a signed-in user asks for. -/
inductive Request where
  /-- Any handler that only reads, by the name of its route. -/
  | read (route : Option Text)
  /-- `post_profile`. -/
  | postProfile (name : Text)
  /-- `put_avatar`. -/
  | putAvatar (avatarColor : Option Text)
  /-- `post_keys`. -/
  | postKeys (data : KeysData)
  /-- `post_password`. -/
  | postPassword (data : ChangePassData)
  /-- `post_set_password`. -/
  | postSetPassword (out : Outside) (data : SetPasswordData)
  /-- `post_kdf`. -/
  | postKdf (data : ChangeKdfData)
  /-- `post_rotatekey`. -/
  | postRotatekey (data : KeyData)
  /-- `post_sstamp`. -/
  | postSstamp (data : PasswordOrOtpData)
  /-- `post_email_token`. -/
  | postEmailToken (token masterPasswordHash newEmail : Text)
  /-- `post_email`. -/
  | postEmail (data : ChangeEmailData)
  /-- `verify_password`. -/
  | verifyPassword (masterPasswordHash : Text)
  /-- `post_api_key` and `rotate_api_key`. -/
  | updateApiKey (apiKey : Text) (rotate : Bool) (data : PasswordOrOtpData)
  /-- `post_settings_domains`. -/
  | postSettingsDomains
  /-- `activate_authenticator`. -/
  | activateAuthenticator (recoverCode key token : Text) (data : PasswordOrOtpData)
  /-- `email` of the second factors. -/
  | activateEmail (recoverCode token : Text) (data : PasswordOrOtpData)
  /-- `activate_yubikey`. -/
  | activateYubikey (services : Services) (recoverCode : Text) (keys : List (Option Text)) (nfc : Bool)
      (data : PasswordOrOtpData)
  /-- `activate_webauthn`. -/
  | activateWebauthn (recoverCode : Text) (id : NumberOrString) (name deviceResponse : Text)
      (data : PasswordOrOtpData)
  /-- `activate_duo`. -/
  | activateDuo (services : Services) (recoverCode : Text) (fields : EnableDuoData) (data : PasswordOrOtpData)
  /-- `get_recover`. -/
  | getRecover (data : PasswordOrOtpData)

/-- The name of its route. -/
def Request.route : Request → Option Text
  | .read route => route
  | .postProfile _ => some "post_profile".toList
  | .putAvatar _ => some "put_avatar".toList
  | .postKeys _ => some "post_keys".toList
  | .postPassword _ => some "post_password".toList
  | .postSetPassword _ _ => some "post_set_password".toList
  | .postKdf _ => some "post_kdf".toList
  | .postRotatekey _ => some "post_rotatekey".toList
  | .postSstamp _ => some "post_sstamp".toList
  | .postEmailToken _ _ _ => some "post_email_token".toList
  | .postEmail _ => some "post_email".toList
  | .verifyPassword _ => some "verify_password".toList
  | .updateApiKey _ rotate _ => some (if rotate=true then "rotate_api_key" else "post_api_key").toList
  | .postSettingsDomains => some "post_settings_domains".toList
  | .activateAuthenticator _ _ _ _ => some "activate_authenticator".toList
  | .activateEmail _ _ _ => some "email".toList
  | .activateYubikey _ _ _ _ _ => some "activate_yubikey".toList
  | .activateWebauthn _ _ _ _ _ => some "activate_webauthn".toList
  | .activateDuo _ _ _ _ => some "activate_duo".toList
  | .getRecover _ => some "get_recover".toList

/-- Its handler, for the row that the guard has loaded. -/
def Request.handle (settings : RequestSettings) : Request → User → Action Unit
  | .read _ => fun _ => pure ()
  | .postProfile name => AccountRequests.postProfile settings name
  | .putAvatar avatarColor => AccountRequests.putAvatar settings avatarColor
  | .postKeys data => AccountRequests.postKeys settings data
  | .postPassword data => AccountRequests.postPassword settings data
  | .postSetPassword out data => AccountRequests.postSetPassword settings out data
  | .postKdf data => AccountRequests.postKdf settings data
  | .postRotatekey data => AccountRequests.postRotatekey settings data
  | .postSstamp data => AccountRequests.postSstamp settings data
  | .postEmailToken token hash newEmail => AccountRequests.postEmailToken settings token hash newEmail
  | .postEmail data => AccountRequests.postEmail settings data
  | .verifyPassword hash => AccountRequests.verifyPassword settings hash
  | .updateApiKey apiKey rotate data => AccountRequests.updateApiKey settings apiKey rotate data
  | .postSettingsDomains => AccountRequests.postSettingsDomains settings
  | .activateAuthenticator code key token data =>
    AccountRequests.activateAuthenticator settings code key token data
  | .activateEmail code token data => AccountRequests.activateEmail settings code token data
  | .activateYubikey services code keys nfc data =>
    AccountRequests.activateYubikey settings services code keys nfc data
  | .activateWebauthn code id name response data =>
    AccountRequests.activateWebauthn settings code id name response data
  | .activateDuo services code fields data => AccountRequests.activateDuo settings services code fields data
  | .getRecover data => AccountRequests.getRecover settings data

/-- A request with a token: the guard and the handler. -/
def Request.run (settings : RequestSettings) (claims : LoginJwtClaims) (request : Request) : Action Unit := do
  let headers ← Headers.fromRequest settings.toSettings claims request.route
  request.handle settings headers.user

end NadSafe.AccountRequests
