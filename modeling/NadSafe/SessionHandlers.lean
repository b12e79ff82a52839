import NadSafe.AccountRequests

/-!
# Sessions

The logins with a password and with an API key, and the refresh of a session.
Tokens are the claims that they carry; a refresh token that is not readable
counts as the token of a device. What other services answer, what is drawn,
and whether a device has never signed in come with the request. Limits of
rates, scopes, disabled accounts and marks of incomplete logins are left out,
and so is what is sent when a second factor is missing.
-/

namespace NadSafe.SessionHandlers

open HostText TableRows AsyncScript ServerTables StoreScript ServerModels OrgHandlers SecondFactors
open AccountHandlers AccountRequests
open CipherHandlers (Panic)

/-- Settings for sessions. -/
structure SessionSettings extends RequestSettings where
  /-- `sso_enabled`. -/
  ssoEnabled : Bool
  /-- `sso_only`. -/
  ssoOnly : Bool
  /-- `sso_auth_only_not_session`. -/
  ssoAuthOnlyNotSession : Bool
  /-- `require_device_email`. -/
  requireDeviceEmail : Bool
  /-- `decode_2fa_remember`: the device and the account of a token. -/
  decode2faRemember : Text → Option (Uuid×Uuid)

/-- `AuthMethod`. -/
inductive AuthMethod where
  /-- API key of an organisation. -/
  | orgApiKey
  /-- Password. -/
  | password
  /-- Single sign-on. -/
  | sso
  /-- API key of an account. -/
  | userApiKey
  deriving DecidableEq

/-- `RefreshJwtClaims`. -/
structure RefreshJwtClaims where
  /-- How the session was opened. -/
  sub : AuthMethod
  /-- Token of the device. -/
  deviceToken : Uuid
  deriving DecidableEq

/-- `AuthTokens`. -/
structure AuthTokens where
  /-- Refresh token. -/
  refreshClaims : RefreshJwtClaims
  /-- Access token. -/
  accessClaims : LoginJwtClaims

/-- `AuthTokens::new`, also for those of single sign-on. -/
def AuthTokens.new (device : Device) (user : User) (sub : AuthMethod) : AuthTokens :=
  ⟨⟨sub,device.refreshToken⟩,⟨user.uuid,device.uuid,user.securityStamp⟩⟩

/-- `Device::find_by_refresh_token`. -/
def Device.findByRefreshToken (token : Uuid) : Action (Option Device) :=
  lookup fun t => t.devices.find? fun d => d.refreshToken=token

/-- The method of a session that is refreshed; `exchange` is the answer of the
provider of single sign-on. -/
def refreshMethod (settings : SessionSettings) (exchange : Bool) (sub : AuthMethod) : Action Unit :=
  match sub with
  | .sso =>
    if settings.ssoEnabled=true then
      if settings.ssoAuthOnlyNotSession=true then pure ()
      else ensure "Unable to refresh login credentials" exchange
    else throw "SSO is now disabled, Login again using email and master password"
  | .password =>
    if settings.ssoEnabled=true ∧ settings.ssoOnly=true then throw "SSO is now required, Login again"
    else pure ()
  | _ => throw "Invalid auth method, cannot refresh token"

/-- `refresh_tokens`. -/
def refreshTokens (settings : SessionSettings) (exchange : Bool) (claims : RefreshJwtClaims) :
    Action (Device×AuthTokens) := do
  let found ← Device.findByRefreshToken claims.deviceToken
  let device ← expect "Invalid refresh token" found
  Device.save device
  let found ← User.findByUuid device.userUuid
  let user ← expect "Impossible to find user" found
  refreshMethod settings exchange claims.sub
  pure (device,AuthTokens.new device user claims.sub)

/-- `refresh_login`. -/
def refreshLogin (settings : SessionSettings) (exchange : Bool) (claims : RefreshJwtClaims) :
    Action AuthTokens := do
  let (device,tokens) ← refreshTokens settings exchange claims
  Device.save device
  pure tokens

/-- `ConnectData` of a login. -/
structure ConnectData where
  /-- Address of the account, trimmed. -/
  username : Text
  /-- Password hash or access code. -/
  password : Text
  /-- Request that another device has answered. -/
  authRequest : Option Text
  /-- The device. -/
  deviceIdentifier : Uuid
  /-- Its name. -/
  deviceName : Text
  /-- Second factor. -/
  twoFactorProvider : Option ℤ
  /-- Its code. -/
  twoFactorToken : Option Text
  /-- The device is to be remembered. -/
  twoFactorRemember : Bool

/-- What a login gets from elsewhere. -/
structure LoginOutside extends Outside where
  /-- Requests for logins. -/
  requests : FirstFactor.AuthRequests
  /-- Address of the client. -/
  ip : Text
  /-- A reminder of the verification is due. -/
  remind : Bool
  /-- The device has never signed in. -/
  isNew : Bool
  /-- Registration for push messages, with its answer, if there is one. -/
  push : Option Bool
  /-- Answer for second factors that are checked elsewhere. -/
  otherFactor : Bool
  /-- Token that is drawn for a remembered device. -/
  rememberToken : Text

/-- `TwoFactorType::Remember`. -/
def Remember : ℤ := 5

/-- `TwoFactorType::RecoveryCode`. -/
def RecoveryCode : ℤ := 8

/-- `get_device`. -/
def getDevice (data : ConnectData) (user : User) : Action Device := do
  let found ← Device.findByUuidAndUser data.deviceIdentifier user.uuid
  match found with
  | some device => pure device
  | none => do
    let token ← getUuid
    let device : Device := ⟨data.deviceIdentifier,user.uuid,data.deviceName,none,token,none⟩
    Device.save device
    pure device

/-- A token of a remembered device. -/
def rememberValid (settings : SessionSettings) (user : User) (device : Device) (code : Text) : Bool :=
  device.twofactorRemember.any fun token => !settings.disable2faRemember && decide (token=code) &&
    decide (settings.decode2faRemember code=some (device.uuid,user.uuid))

/-- `delete_twofactor_remember`, saved. -/
def forgetRemember (device : Device) : Action Unit :=
  if device.twofactorRemember.isSome=true then Device.save {device with twofactorRemember := none} else pure ()

/-- The check of the second factor that was selected, with the account as it
is left. -/
def checkFactor (settings : SessionSettings) (out : LoginOutside) (user : User) (device : Device)
    (selected : ℤ) (data : Option TwoFactorData) (code : Text) : Action User :=
  if selected=Authenticator then do
    let data ← expect "Two factor doesn't exist" data
    let _ ← validateTotpCodeStr settings.toFactorSettings user.uuid code (settings.columnText data)
    pure user
  else if selected=TwoFactor.Email then do
    let data ← expect "Two factor doesn't exist" data
    validateEmailCodeStr settings.toFactorSettings user.uuid code data
    pure user
  else if selected=Remember then
    if rememberValid settings user device code=true then pure user
    else do
      forgetRemember device
      throw "2FA Remember token not provided or expired"
  else if selected=RecoveryCode then do
    ensure "Recovery code is incorrect. Try again." (User.checkValidRecoveryCode settings.toFactorSettings user code)
    removeFactors settings.toFactorSettings out.toOutside user
    pure {user with totpRecover := none}
  else do
    ensure "Invalid two factor provider" out.otherFactor
    pure user

/-- `twofactor_auth`, with the device as it is to be saved and the account. -/
def twofactorAuth (settings : SessionSettings) (out : LoginOutside) (data : ConnectData) (user : User)
    (device : Device) : Action (Device×User) := do
  let twofactors ← lookup fun t => TwoFactor.findByUser t user.uuid
  if twofactors.isEmpty=true then do
    enforce2faPolicy settings.toSettings out.toOutside user
    pure (device,user)
  else do
    let usable := twofactors.filter fun f => f.enabled && isTwofactorProviderUsable settings.toFactorSettings f
    let first ← expect "No enabled and usable two factor providers are available for this account" usable.head?
    let selected := data.twoFactorProvider.getD first.atype
    ensure "Invalid two factor provider" (decide (selected=Remember) || decide (selected=RecoveryCode) ||
      usable.any fun f => f.atype=selected)
    let code ← expect "2FA token not provided" data.twoFactorToken
    let user ← checkFactor settings out user device selected
      ((twofactors.find? fun f => f.atype=selected ∧ f.enabled=true).map TwoFactor.data) code
    if settings.disable2faRemember=false ∧ data.twoFactorRemember=true then
      pure ({device with twofactorRemember := some out.rememberToken},user)
    else pure (device,user)

/-- The account needs its address verified. A reminder is noted; a failed save
is only logged. -/
def requireVerified (settings : SessionSettings) (out : LoginOutside) (user : User) : Action Unit :=
  if user.verified=false ∧ settings.mailEnabled=true ∧ settings.signupsVerify=true then do
    if out.remind=true then ok (User.save settings.toSettings user) else pure ()
    throw "Please verify your email before trying again."
  else pure ()

/-- The mail for a device that has never signed in. -/
def mailNewDevice (settings : SessionSettings) (out : LoginOutside) (user : User) : Action Unit :=
  if settings.mailEnabled=true ∧ out.isNew=true then
    ensure "Could not send login notification email. Please contact your administrator."
      (out.delivers user.email || !settings.requireDeviceEmail)
  else pure ()

/-- `register_push_device` for a device that has signed in before. -/
def registerPushDevice (out : LoginOutside) (device : Device) : Action Unit :=
  if out.isNew=true then pure ()
  else match out.push with
    | none => pure ()
    | some answered => do
      ensure "An error occurred while registering a device" answered
      Device.save device

/-- `authenticated_response`. -/
def authenticatedResponse (settings : SessionSettings) (out : LoginOutside) (user : User) (device : Device)
    (tokens : AuthTokens) : Action AuthTokens := do
  mailNewDevice settings out user
  registerPushDevice out device
  Device.save device
  pure tokens

/-- A login with the master password is the moment at which a hash made with
fewer rounds is made again. -/
def signedIn (settings : SessionSettings) (data : ConnectData) (user : User) : Action User :=
  if data.authRequest=none then kdfUpgrade settings.toRequestSettings user data.password else pure user

/-- `password_login` for the account of the address. -/
def signIn (settings : SessionSettings) (out : LoginOutside) (data : ConnectData) (user : User) :
    Action AuthTokens := do
  FirstFactor.passwordLoginCheck settings.toFactorSettings out.requests out.ip user data.authRequest data.password
  let user ← signedIn settings data user
  requireVerified settings out user
  let device ← getDevice data user
  let (device,user) ← twofactorAuth settings out data user device
  authenticatedResponse settings out user device (AuthTokens.new device user .password)

/-- `password_login`. -/
def passwordLogin (settings : SessionSettings) (out : LoginOutside) (data : ConnectData) :
    Action AuthTokens := do
  let found ← User.findByMail settings.toSettings data.username
  let user ← expect "Username or password is incorrect. Try again" found
  signIn settings out data user

/-- `user_api_key_login`, for the account that the client names. -/
def userApiKeyLogin (settings : SessionSettings) (out : LoginOutside) (data : ConnectData) (id : Uuid)
    (secret : Text) : Action LoginJwtClaims := do
  let found ← User.findByUuid id
  let user ← expect "Invalid client_id" found
  ensure "Incorrect client_secret" (user.apiKey.any fun key => decide (key=secret))
  let device ← getDevice data user
  mailNewDevice settings out user
  Device.save device
  pure (AuthTokens.new device user .userApiKey).accessClaims

end NadSafe.SessionHandlers
