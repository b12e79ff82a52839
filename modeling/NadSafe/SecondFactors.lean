import NadSafe.CipherHandlers

/-!
# Second factors

The handlers that activate, check and remove second factors, each as its
sequence of statements. Tokens, recovery codes and challenges are drawn
outside, and so are the answers of the mail server. Libraries for one-time
codes, encodings and keys are parameters. Marks of incomplete logins and
events are left out.
-/

namespace NadSafe.SecondFactors

open HostText TableRows AsyncScript ServerTables AccessQueries StoreScript ServerModels OrgHandlers
open CipherHandlers (headers Panic fromExcept)

/-- Settings for second factors. -/
structure FactorSettings extends Settings where
  /-- `hash_password`: password, salt and iterations. -/
  hashPassword : Text → Bytes → ℕ → Bytes
  /-- `_enable_email_2fa`. -/
  enableEmail2fa : Bool
  /-- `email_expiration_time`, in seconds. -/
  emailExpirationTime : Fin (2^64)
  /-- `email_attempts_limit`. -/
  emailAttemptsLimit : Fin (2^64)
  /-- `authenticator_disable_time_drift`. -/
  authenticatorDisableTimeDrift : Bool
  /-- `is_webauthn_2fa_supported`. -/
  isWebauthn2faSupported : Bool
  /-- `BASE32.decode`. -/
  base32Decode : Text → Option Bytes
  /-- `to_uppercase`. -/
  toUppercase : Text → Text
  /-- `char::is_numeric`. -/
  isNumeric : Char → Bool
  /-- The one-time code of a secret for a counter. -/
  hotp : Bytes → ℕ → Text
  /-- `finish_passkey_registration`: response and saved challenge. -/
  finishPasskeyRegistration : Text → Text → Option Text
  /-- `cred_id`. -/
  credId : Text → Text
  /-- The text of a data column that is not plain text. -/
  dataText : TwoFactorData → Text
  /-- `is_twofactor_provider_usable` for the types that are not modelled. -/
  isOtherProviderUsable : ℤ → TwoFactorData → Bool

/-- `NumberOrString`. -/
inductive NumberOrString where
  /-- An `i64`. -/
  | number (n : ℤ)
  /-- A text. -/
  | string (s : Text)

/-- The value of plain decimal digits. -/
def decimal? (s : Text) : Option ℕ :=
  if s≠[] ∧ s.all Char.isDigit=true then some (s.foldl (fun n c => 10*n+(c.toNat-48)) 0) else none

/-- `str::parse` for an integer, with its sign. -/
def parseInt? : Text → Option ℤ
  | [] => none
  | c::s =>
    if c= '-' then (decimal? s).map fun n => -(n : ℤ)
    else if c= '+' then (decimal? s).map fun n => (n : ℤ)
    else (decimal? (c::s)).map fun n => (n : ℤ)

/-- A number in the range of `i32`. -/
def fitsI32 (n : ℤ) : Bool := decide (-2^31≤n ∧ n<2^31)

/-- `NumberOrString::into_i32`. -/
def NumberOrString.intoI32 : NumberOrString → Except String ℤ
  | .number n => if fitsI32 n=true then .ok n else .error "Number does not fit in i32"
  | .string s =>
    match (parseInt? s).filter fitsI32 with
    | some n => .ok n
    | none => .error "Can't convert to number"

/-- `cast_signed` from `u64`. -/
def castSigned (n : ℕ) : ℤ := if n<2^63 then n else n-2^64

/-- `cast_unsigned` from `i64`. -/
def castUnsigned (n : ℤ) : ℕ := (if 0≤n then n else n+2^64).toNat

/-- `saturating_add(1)` in `u64`. -/
def nextAttempt (n : ℕ) : ℕ := min (n+1) (2^64-1)

/-- `User::check_valid_password`. -/
def User.checkValidPassword (settings : FactorSettings) (user : User) (password : Text) : Bool :=
  settings.hashPassword password user.salt user.passwordIterations=user.passwordHash

/-- `TwoFactorType::Authenticator`. -/
def Authenticator : ℤ := 0

/-- `TwoFactorType::Duo`. -/
def Duo : ℤ := 2

/-- `TwoFactorType::YubiKey`. -/
def YubiKey : ℤ := 3

/-- `TwoFactorType::U2f`. -/
def U2f : ℤ := 4

/-- `TwoFactorType::Webauthn`. -/
def Webauthn : ℤ := 7

/-- `TwoFactorType::EmailVerificationChallenge`. -/
def EmailVerificationChallenge : ℤ := 1002

/-- `TwoFactorType::WebauthnRegisterChallenge`. -/
def WebauthnRegisterChallenge : ℤ := 1003

/-- `TwoFactorType::ProtectedActions`. -/
def ProtectedActions : ℤ := 2000

/-- The data column as text. -/
def FactorSettings.columnText (settings : FactorSettings) : TwoFactorData → Text
  | .text text => text
  | data => settings.dataText data

/-- `TwoFactor::delete`. -/
def TwoFactor.delete (f : TwoFactor) : Action Unit :=
  update "Error deleting twofactor" fun t => {t with twofactor := t.twofactor.filter fun r => r.uuid≠f.uuid}

/-- `EmailTokenData::from_json`. -/
def EmailTokenData.fromJson : TwoFactorData → Except String EmailTokenData
  | .emailToken data => .ok data
  | _ => .error "Could not decode EmailTokenData from string"

/-- `EmailTokenData::reset_token`. -/
def EmailTokenData.resetToken (data : EmailTokenData) : EmailTokenData :=
  {data with lastToken := none, attempts := 0}

/-- `ProtectedActionData::from_json`. -/
def ProtectedActionData.fromJson : TwoFactorData → Except String ProtectedActionData
  | .protectedAction data => .ok data
  | _ => .error "Could not decode ProtectedActionData from string"

/-- `validate_protected_action_otp`. -/
def validateProtectedActionOtp (settings : FactorSettings) (otp : Text) (user : Uuid)
    (deleteIfValid : Bool) : Action Unit := do
  let found ← lookup fun t => TwoFactor.findByUserAndType t user ProtectedActions
  let pa ← expect "Protected action token not found, try sending the code again or restart the process" found
  let data ← fromExcept (ProtectedActionData.fromJson pa.data)
  let data := {data with attempts := nextAttempt data.attempts}
  ensure "Token has expired" (decide (data.attempts< settings.emailAttemptsLimit.val))
  let now ← utcNow
  if castSigned settings.emailExpirationTime.val<now-data.tokenSent then do
    TwoFactor.delete pa
    throw "Token has expired"
  else if data.token≠otp then do
    TwoFactor.save {pa with data := .protectedAction data}
    throw "Token is invalid"
  else if deleteIfValid=true then TwoFactor.delete pa
  else pure ()

/-- `PasswordOrOtpData`. -/
structure PasswordOrOtpData where
  /-- Hash of the master password. -/
  masterPasswordHash : Option Text
  /-- Token of a protected action. -/
  otp : Option Text

/-- `PasswordOrOtpData::validate`. -/
def PasswordOrOtpData.validate (settings : FactorSettings) (data : PasswordOrOtpData) (user : User)
    (deleteIfValid : Bool) : Action Unit :=
  match data.masterPasswordHash,data.otp with
  | some password,none => ensure "Invalid password" (User.checkValidPassword settings user password)
  | none,some otp => validateProtectedActionOtp settings otp user.uuid deleteIfValid
  | _,_ => throw "No validation provided"

/-- `generate_recover_code`, with the code it draws. A failed save is
ignored. -/
def generateRecoverCode (settings : FactorSettings) (code : Text) (user : User) : Action Unit :=
  if user.totpRecover=none then ok (User.save settings.toSettings {user with totpRecover := some code})
  else pure ()

/-- `Membership::find_by_user_and_policy`. -/
def Membership.findByUserAndPolicy (t : Tables) (user : Uuid) (atype : OrgPolicyType) : List Membership :=
  ((innerJoin t.members t.policies fun m p => p.orgUuid=m.orgUuid ∧ m.userUuid=user ∧ p.atype=atype).filter
    fun (m,_) => m.status=Confirmed).map Prod.fst

/-- The mail to a member who is removed for want of a second factor. -/
def mailRemoved (settings : Settings) (out : Outside) (org : Uuid) (email : Text) : Action Unit :=
  if settings.mailEnabled=true then do
    let found ← Organization.findByUuid org
    let _ ← expect Panic found
    ensure "Error sending mail" (out.delivers email)
  else pure ()

/-- `enforce_2fa_policy`. -/
def enforce2faPolicy (settings : Settings) (out : Outside) (user : User) : Action Unit := do
  let members ← lookup fun t => Membership.findByUserAndPolicy t user.uuid .twoFactorAuthentication
  each members fun member =>
    if MembershipType.admin≤ member.atype then pure ()
    else do
      mailRemoved settings out member.orgUuid user.email
      Membership.save member.revoke

/-- `totp_custom` with steps of 30 seconds. -/
def FactorSettings.totpCustom (settings : FactorSettings) (secret : Bytes) (time : ℕ) : Text :=
  settings.hotp secret (time/30)

/-- The time step of an accepted code: the first step around the current one
whose code is the given one, if it was not used yet. -/
def acceptedStep (settings : FactorSettings) (secret : Bytes) (code : Text) (timestamp lastUsed : ℤ) :
    List ℤ → Option ℤ
  | [] => none
  | step::steps =>
    let timeStep := timestamp.tdiv 30+step
    if settings.totpCustom secret (castUnsigned (timestamp+step*30))=code then
      if lastUsed<timeStep then some timeStep else none
    else acceptedStep settings secret code timestamp lastUsed steps

/-- The steps back and forward in time. -/
def FactorSettings.steps (settings : FactorSettings) : List ℤ :=
  if settings.authenticatorDisableTimeDrift=true then [0] else [-1,0,1]

/-- What an accepted code was checked against. -/
structure Acceptance where
  /-- The clock. -/
  timestamp : ℤ
  /-- The time step. -/
  timeStep : ℤ
  deriving DecidableEq

/-- The authenticator of an account, or a new one. -/
def authenticatorFor (user : Uuid) (secret : Text) : Action TwoFactor := do
  let found ← lookup fun t => TwoFactor.findByUserAndType t user Authenticator
  match found with
  | some twofactor => pure twofactor
  | none => do
    let uuid ← getUuid
    pure (ServerTables.TwoFactor.new uuid user Authenticator (.text secret))

/-- The check of a code and the save of its step. -/
def checkTotp (settings : FactorSettings) (decodedSecret : Bytes) (totpCode : Text) (twofactor : TwoFactor) :
    Action Acceptance := do
  let timestamp ← utcNow
  let timeStep ← expect "Invalid TOTP code!"
    (acceptedStep settings decodedSecret totpCode timestamp twofactor.lastUsed settings.steps)
  TwoFactor.save {twofactor with lastUsed := timeStep}
  pure ⟨timestamp,timeStep⟩

/-- `validate_totp_code`, with the time and the step of the accepted code. -/
def validateTotpCode (settings : FactorSettings) (user : Uuid) (totpCode secret : Text) :
    Action Acceptance := do
  let decodedSecret ← expect "Invalid TOTP secret" (settings.base32Decode secret)
  let twofactor ← authenticatorFor user secret
  checkTotp settings decodedSecret totpCode twofactor

/-- `validate_totp_code_str`. -/
def validateTotpCodeStr (settings : FactorSettings) (user : Uuid) (totpCode secret : Text) :
    Action Acceptance := do
  ensure "TOTP code is not a number" (totpCode.all settings.isNumeric)
  validateTotpCode settings user totpCode secret

/-- `activate_authenticator`. -/
def activateAuthenticator (settings : FactorSettings) (recoverCode : Text) (caller : Uuid)
    (key token : Text) (data : PasswordOrOtpData) : Action Unit := do
  let user ← headers caller
  data.validate settings user true
  let decodedKey ← expect "Invalid totp secret" (settings.base32Decode key)
  ensure "Invalid key length" (decide (decodedKey.length=20))
  let _ ← validateTotpCode settings user.uuid token (settings.toUppercase key)
  generateRecoverCode settings recoverCode user

/-- The end of a removal: without a factor, policies are enforced. -/
def enforceIfEmpty (settings : Settings) (out : Outside) (user : User) : Action Unit := do
  let left ← lookup fun t => TwoFactor.findByUser t user.uuid
  if left.isEmpty=true then enforce2faPolicy settings out user else pure ()

/-- `disable_authenticator`. -/
def disableAuthenticator (settings : FactorSettings) (out : Outside) (caller : Uuid)
    (key masterPasswordHash : Text) (type : NumberOrString) : Action Unit := do
  let user ← headers caller
  let type ← fromExcept type.intoI32
  ensure "Invalid password" (User.checkValidPassword settings user masterPasswordHash)
  let found ← lookup fun t => TwoFactor.findByUserAndType t user.uuid type
  match found with
  | some twofactor => do
    ensure ("TOTP key for user "++String.ofList user.email++
      " does not match recorded value, cannot deactivate") (decide (settings.columnText twofactor.data=key))
    TwoFactor.delete twofactor
    enforceIfEmpty settings.toSettings out user
  | none => enforceIfEmpty settings.toSettings out user

/-- `disable_twofactor`. -/
def disableTwofactor (settings : FactorSettings) (out : Outside) (caller : Uuid) (data : PasswordOrOtpData)
    (type : NumberOrString) : Action Unit := do
  let user ← headers caller
  data.validate settings user true
  let type ← fromExcept type.intoI32
  let found ← lookup fun t => TwoFactor.findByUserAndType t user.uuid type
  match found with
  | some twofactor => do
    TwoFactor.delete twofactor
    enforceIfEmpty settings.toSettings out user
  | none => enforceIfEmpty settings.toSettings out user

/-- `send_token`, with the token it draws and the answer of the mail server. -/
def sendToken (token : Text) (delivered : Bool) (user : Uuid) : Action Unit := do
  let found ← lookup fun t => TwoFactor.findByUserAndType t user TwoFactor.Email
  let twofactor ← expect "Two factor not found" found
  let data ← fromExcept (EmailTokenData.fromJson twofactor.data)
  let now ← utcNow
  TwoFactor.save {twofactor with data := .emailToken {data with lastToken := some token, tokenSent := now}}
  ensure "Error sending mail" delivered

/-- `send_email`. -/
def sendEmail (settings : FactorSettings) (token : Text) (delivered : Bool) (caller : Uuid) (email : Text)
    (data : PasswordOrOtpData) : Action Unit := do
  let user ← headers caller
  data.validate settings user false
  ensure "Email 2FA is disabled" settings.enableEmail2fa
  let found ← lookup fun t => TwoFactor.findByUserAndType t user.uuid TwoFactor.Email
  match found with
  | some twofactor => TwoFactor.delete twofactor
  | none => pure ()
  let now ← utcNow
  let uuid ← getUuid
  TwoFactor.save (ServerTables.TwoFactor.new uuid user.uuid EmailVerificationChallenge
    (.emailToken ⟨email,some token,now,0⟩))
  ensure "Error sending mail" delivered

/-- `email`. -/
def email (settings : FactorSettings) (recoverCode : Text) (caller : Uuid) (token : Text)
    (data : PasswordOrOtpData) : Action Unit := do
  let user ← headers caller
  data.validate settings user true
  let found ← lookup fun t => TwoFactor.findByUserAndType t user.uuid EmailVerificationChallenge
  let twofactor ← expect "Two factor not found" found
  let emailData ← fromExcept (EmailTokenData.fromJson twofactor.data)
  let issuedToken ← expect "No token available" emailData.lastToken
  ensure "Token is invalid" (decide (issuedToken=token))
  TwoFactor.save {twofactor with
    atype := TwoFactor.Email, data := .emailToken (EmailTokenData.resetToken emailData)}
  generateRecoverCode settings recoverCode user

/-- The wrong entry of a token. -/
def EmailTokenData.wrong (settings : FactorSettings) (data : EmailTokenData) : EmailTokenData :=
  let data := {data with attempts := nextAttempt data.attempts}
  if settings.emailAttemptsLimit.val≤data.attempts then EmailTokenData.resetToken data else data

/-- `validate_email_code_str`, with the data that the caller has read. -/
def validateEmailCodeStr (settings : FactorSettings) (user : Uuid) (token : Text) (data : TwoFactorData) :
    Action Unit := do
  let emailData ← fromExcept (EmailTokenData.fromJson data)
  let found ← lookup fun t => TwoFactor.findByUserAndType t user TwoFactor.Email
  let twofactor ← expect "Two factor not found" found
  let issuedToken ← expect "No token available!" emailData.lastToken
  if issuedToken≠token then do
    TwoFactor.save {twofactor with data := .emailToken (EmailTokenData.wrong settings emailData)}
    throw "Token is invalid!"
  else do
    TwoFactor.save {twofactor with data := .emailToken (EmailTokenData.resetToken emailData)}
    let maxTime := castSigned settings.emailExpirationTime.val
    ensure Panic (decide (maxTime.natAbs≤(2^63-1)/1000))
    let now ← utcNow
    ensure "Token has expired" (decide (now≤emailData.tokenSent+maxTime))

/-- `get_webauthn_registrations`. -/
def getWebauthnRegistrations (user : Uuid) : Action (List WebauthnRegistration) := do
  let found ← lookup fun t => TwoFactor.findByUserAndType t user Webauthn
  match found with
  | some twofactor =>
    match twofactor.data with
    | .registrations keys => pure keys
    | _ => throw "invalid registrations"
  | none => pure []

/-- `generate_webauthn_challenge`, with the state of the challenge that the
library gives. -/
def generateWebauthnChallenge (settings : FactorSettings) (state : Option Text) (caller : Uuid)
    (data : PasswordOrOtpData) : Action Unit := do
  let user ← headers caller
  data.validate settings user false
  let _ ← getWebauthnRegistrations user.uuid
  let state ← expect "invalid challenge" state
  let uuid ← getUuid
  TwoFactor.save (ServerTables.TwoFactor.new uuid user.uuid WebauthnRegisterChallenge (.text state))

/-- `activate_webauthn`. -/
def activateWebauthn (settings : FactorSettings) (recoverCode : Text) (caller : Uuid) (id : NumberOrString)
    (name deviceResponse : Text) (data : PasswordOrOtpData) : Action Unit := do
  let user ← headers caller
  data.validate settings user true
  let found ← lookup fun t => TwoFactor.findByUserAndType t user.uuid WebauthnRegisterChallenge
  let challenge ← expect "Can't recover challenge" found
  let state ← expect "invalid challenge" (match challenge.data with
    | .text state => some state
    | _ => none)
  TwoFactor.delete challenge
  let credential ← expect "invalid credential" (settings.finishPasskeyRegistration deviceResponse state)
  let registrations ← getWebauthnRegistrations user.uuid
  let id ← fromExcept id.intoI32
  let uuid ← getUuid
  TwoFactor.save (ServerTables.TwoFactor.new uuid user.uuid Webauthn
    (.registrations (registrations++[⟨id,name,false,credential⟩])))
  generateRecoverCode settings recoverCode user

/-- The list without its first element with a number. -/
def removeFirst (id : ℤ) : List WebauthnRegistration → Option (WebauthnRegistration×List WebauthnRegistration)
  | [] => none
  | r::rest => if r.id=id then some (r,rest) else (removeFirst id rest).map fun (q,left) => (q,r::left)

/-- `delete_webauthn`. An older key with the same handle is removed as well. -/
def deleteWebauthn (settings : FactorSettings) (caller : Uuid) (id : NumberOrString)
    (masterPasswordHash : Text) : Action Unit := do
  let user ← headers caller
  let id ← fromExcept id.intoI32
  ensure "Invalid password" (User.checkValidPassword settings user masterPasswordHash)
  let found ← lookup fun t => TwoFactor.findByUserAndType t user.uuid Webauthn
  let twofactor ← expect "Webauthn data not found!" found
  let keys ← expect "invalid registrations" (match twofactor.data with
    | .registrations keys => some keys
    | _ => none)
  let (removed,left) ← expect "Webauthn entry not found" (removeFirst id keys)
  TwoFactor.save {twofactor with data := .registrations left}
  let found ← lookup fun t => TwoFactor.findByUserAndType t user.uuid U2f
  match found with
  | none => pure ()
  | some u2f => do
    let handles ← expect "Error parsing U2F data" (match u2f.data with
      | .handles handles => some handles
      | _ => none)
    TwoFactor.save {u2f with data := .handles (handles.filter (·≠settings.credId removed.credential))}

/-- `len` of a text, in bytes. -/
def byteLength (s : Text) : ℕ := (s.map Char.utf8Size).sum

/-- `get(..n)`: the first bytes, unless they end within a character. -/
def firstBytes : ℕ → Text → Option Text
  | 0,_ => some []
  | _+1,[] => none
  | n+1,c::s => if c.utf8Size≤n+1 then (firstBytes (n+1-c.utf8Size) s).map (c::·) else none

/-- What the services for second factors answer, and the texts that are
stored for them. -/
structure Services where
  /-- `verify_yubikey_otp`. -/
  verifyYubikeyOtp : Text → Bool
  /-- `YubikeyMetadata`, as text. -/
  yubikeyMetadata : List Text → Bool → Text
  /-- `duo_api_request`, with host, client and secret. -/
  duoCheck : Text → Text → Text → Bool
  /-- `DuoData`, as text. -/
  duoData : Text → Text → Text → Text

/-- The row of an account and a type, or a new one. -/
def factorFor (user : Uuid) (atype : ℤ) : Action TwoFactor := do
  let found ← lookup fun t => TwoFactor.findByUserAndType t user atype
  match found with
  | some twofactor => pure twofactor
  | none => do
    let uuid ← getUuid
    pure (ServerTables.TwoFactor.new uuid user atype (.text []))

/-- `activate_yubikey`, with the five keys. -/
def activateYubikey (settings : FactorSettings) (services : Services) (recoverCode : Text) (caller : Uuid)
    (keys : List (Option Text)) (nfc : Bool) (data : PasswordOrOtpData) : Action Unit := do
  let user ← headers caller
  data.validate settings user true
  let twofactor ← factorFor user.uuid YubiKey
  let yubikeys := keys.filterMap id
  if yubikeys=[] then pure ()
  else do
    ensure "Invalid Yubikey OTP provided"
      (yubikeys.all fun key => decide (key=[] ∨ byteLength key=12) || services.verifyYubikeyOtp key)
    TwoFactor.save {twofactor with
      data := .text (services.yubikeyMetadata (yubikeys.filterMap (firstBytes 12)) nfc)}
    generateRecoverCode settings recoverCode user

/-- `DISABLED_MESSAGE_DEFAULT`. -/
def disabledMessageDefault : Text := "<To use the global Duo keys, please leave these fields untouched>".toList

/-- `EnableDuoData`. -/
structure EnableDuoData where
  /-- Host. -/
  host : Text
  /-- Secret. -/
  clientSecret : Text
  /-- Client. -/
  clientId : Text

/-- The fields of `EnableDuoData`. -/
def EnableDuoData.fields (data : EnableDuoData) : List Text := [data.host,data.clientSecret,data.clientId]

/-- `check_duo_fields_custom`. -/
def checkDuoFieldsCustom (data : EnableDuoData) : Bool :=
  data.fields.all fun s => !(s.all isWhitespace || decide (s=disabledMessageDefault))

/-- `activate_duo`. A field that is too short to be obscured is a panic. -/
def activateDuo (settings : FactorSettings) (services : Services) (recoverCode : Text) (caller : Uuid)
    (fields : EnableDuoData) (data : PasswordOrOtpData) : Action Unit := do
  let user ← headers caller
  data.validate settings user true
  let custom := checkDuoFieldsCustom fields
  ensure "Failed to validate Duo credentials"
    (!custom || services.duoCheck fields.host fields.clientId fields.clientSecret)
  ensure Panic (!custom || fields.fields.all fun s => (firstBytes 4 s).isSome)
  let uuid ← getUuid
  TwoFactor.save (ServerTables.TwoFactor.new uuid user.uuid Duo
    (.text (if custom=true then services.duoData fields.host fields.clientId fields.clientSecret else [])))
  generateRecoverCode settings recoverCode user

/-- All factors of an account are removed, and its recovery code. -/
def removeFactors (settings : FactorSettings) (out : Outside) (user : User) : Action Unit := do
  update "Error deleting twofactors" fun t => {t with twofactor := t.twofactor.filter fun f => f.userUuid≠user.uuid}
  enforce2faPolicy settings.toSettings out user
  User.save settings.toSettings {user with totpRecover := none}

/-- `remove_2fa`. -/
def remove2fa (settings : FactorSettings) (out : Outside) (user : Uuid) : Action Unit := do
  let found ← User.findByUuid user
  let user ← expect "User doesn't exist" found
  removeFactors settings out user

/-- `is_twofactor_provider_usable`. -/
def isTwofactorProviderUsable (settings : FactorSettings) (f : TwoFactor) : Bool :=
  if f.atype=Authenticator then true
  else if f.atype=TwoFactor.Email then settings.enableEmail2fa
  else if f.atype=Webauthn then settings.isWebauthn2faSupported
  else settings.isOtherProviderUsable f.atype f.data

/-- `twofactor_auth` with a code for the provider `Email`. -/
def twofactorAuthEmail (settings : FactorSettings) (out : Outside) (user : User) (code : Text) :
    Action Unit := do
  let twofactors ← lookup fun t => TwoFactor.findByUser t user.uuid
  if twofactors.isEmpty=true then enforce2faPolicy settings.toSettings out user
  else do
    let usable := twofactors.filter fun f => f.enabled && isTwofactorProviderUsable settings f
    ensure "No enabled and usable two factor providers are available for this account" (!usable.isEmpty)
    ensure "Invalid two factor provider" (usable.any fun f => f.atype=TwoFactor.Email)
    let selected ← expect "Two factor doesn't exist"
      (twofactors.find? fun f => f.atype=TwoFactor.Email ∧ f.enabled=true)
    validateEmailCodeStr settings user.uuid code selected.data

/-- `check_valid_recovery_code`. -/
def User.checkValidRecoveryCode (settings : FactorSettings) (user : User) (code : Text) : Bool :=
  user.totpRecover.any fun recover => decide (code=settings.toLowercase recover)

/-- `twofactor_auth` with a recovery code. -/
def twofactorAuthRecovery (settings : FactorSettings) (out : Outside) (user : User) (code : Text) :
    Action Unit := do
  let twofactors ← lookup fun t => TwoFactor.findByUser t user.uuid
  if twofactors.isEmpty=true then enforce2faPolicy settings.toSettings out user
  else do
    ensure "No enabled and usable two factor providers are available for this account"
      (twofactors.any fun f => f.enabled && isTwofactorProviderUsable settings f)
    ensure "Recovery code is incorrect. Try again." (User.checkValidRecoveryCode settings user code)
    removeFactors settings out user

/-- The clock goes on. -/
def tick (seconds : ℕ) : Action Unit :=
  update "" fun t => {t with now := t.now+seconds}

/-- A row that is found belongs to the account and has the type. -/
theorem mem_of_findByUserAndType {t : Tables} {user : Uuid} {atype : ℤ} {f : TwoFactor}
    (h : TwoFactor.findByUserAndType t user atype=some f) :
    f∈t.twofactor ∧ f.userUuid=user ∧ f.atype=atype := by
  have hfound := List.find?_some h
  rw [decide_eq_true_eq] at hfound
  exact ⟨List.mem_of_find?_eq_some h,hfound⟩

/-- A saved row is found by its account and type. -/
theorem find_saved {t t' : Tables} {f : TwoFactor} (h : t'.twofactor=TwoFactor.saved f t.twofactor) :
    TwoFactor.findByUserAndType t' f.userUuid f.atype=some f := by
  unfold TwoFactor.findByUserAndType
  rw [h,TwoFactor.saved,put,List.find?_append]
  have hnone : ((t.twofactor.filter fun r => ¬(r.userUuid=f.userUuid ∧ r.atype=f.atype)).filter
      fun q => ServerTables.TwoFactor.uuid q≠f.uuid).find?
      (fun r => decide (r.userUuid=f.userUuid ∧ r.atype=f.atype))=none := by
    rw [List.find?_eq_none]
    intro r hr
    have hother := (List.mem_filter.mp (List.mem_of_mem_filter hr)).2
    rw [decide_eq_true_eq] at hother ⊢
    exact hother
  rw [hnone]
  simp

end NadSafe.SecondFactors
