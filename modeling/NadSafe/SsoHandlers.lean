import NadSafe.PartScript
import NadSafe.SessionHandlers

/-!
# Single sign-on

A client asks for an authorization with a state and a challenge; the browser
that has asked comes back with a code of the provider; the client exchanges
the code for tokens. The rows of pending authorizations and the links of
accounts to identities of the provider are tables beside the database. What is
drawn and what the provider answers come with the request. The addresses of
redirects, the lifetimes of tokens and what is logged are left out.
-/

namespace NadSafe.SsoHandlers

open HostText TableRows AsyncScript PlannedScript ServerTables StoreScript ServerModels SecondFactors
open SessionHandlers PartScript

/-- Settings for single sign-on. -/
structure SsoSettings extends SessionSettings where
  /-- `sso_pkce`: the provider checks the verifier. -/
  ssoPkce : Bool
  /-- `sso_signups_match_email`. -/
  ssoSignupsMatchEmail : Bool
  /-- `sso_allow_unknown_email_verification`. -/
  ssoAllowUnknownEmailVerification : Bool
  /-- `domain`. -/
  domain : Text
  /-- `crypto::sha256_hex`. -/
  sha256Hex : Text → Text
  /-- `PkceCodeChallenge::from_code_verifier_sha256`. -/
  codeChallenge : Text → Text
  /-- `decode_state`: from Base64 and UTF-8. -/
  decodeState : Text → Option Text
  /-- The claims of an access token can be decoded and hold. -/
  decodeTokenClaims : Text → Bool
  /-- A unique key that is taken replaces the row, as `replace_into` does; else it refuses the statement. -/
  replaceInto : Bool

/-- `OIDCAuthenticatedUser`. -/
structure OIDCAuthenticatedUser where
  /-- Refresh token of the provider. -/
  refreshToken : Option Text
  /-- Access token of the provider. -/
  accessToken : Text
  /-- Its life in seconds. -/
  expiresIn : Option ℕ
  /-- Issuer and subject. -/
  identifier : Text
  /-- Address. -/
  email : Text
  /-- The provider has verified the address. -/
  emailVerified : Option Bool
  /-- Name. -/
  userName : Option Text
  deriving DecidableEq

/-- `SsoAuth`: a pending authorization. -/
structure SsoAuth where
  /-- Key, chosen by the client. -/
  state : Text
  /-- Challenge of the client. -/
  clientChallenge : Text
  /-- What the identity token has to name. -/
  nonce : Text
  /-- Where the browser goes in the end. -/
  redirectUri : Text
  /-- The code that has come back. -/
  codeResponse : Option Text
  /-- The error that has come back, with its description. -/
  codeResponseError : Option (Text×Option Text)
  /-- What the code was exchanged for. -/
  authResponse : Option OIDCAuthenticatedUser
  /-- When it was asked for. -/
  createdAt : ℤ
  /-- Hash of the token of the browser. -/
  bindingHash : Option Text
  deriving DecidableEq

/-- `SsoUser`: the identity of an account. -/
structure SsoUser where
  /-- The account. -/
  userUuid : Uuid
  /-- Its identity. -/
  identifier : Text
  deriving DecidableEq

/-- What the handlers work on. -/
structure Store where
  /-- The other tables. -/
  db : Database
  /-- The table `sso_auth`. -/
  ssoAuth : List SsoAuth
  /-- The table `sso_users`. -/
  ssoUsers : List SsoUser

/-- A handler. -/
abbrev Action (α : Type) := Handler Store String α

/-- The database is a part of it. -/
def database : Part Store Database where
  get := Store.db
  set s db := {s with db := db}
  get_set _ _ := rfl
  set_set _ _ _ := rfl
  set_get _ := rfl

/-- A value that was computed. -/
def fromExcept {α : Type} : Except String α → Action α
  | .ok a => pure a
  | .error e => throw e

/-- `SSO_AUTH_EXPIRATION`, in seconds. -/
def SSO_AUTH_EXPIRATION : ℤ := 600

/-- `Utc::now`, which is not a statement. -/
def utcNow : Action ℤ := do
  let s ← Script.perform Statement.read
  pure s.db.now

/-- `SsoAuth::find`. -/
def SsoAuth.find (state : Text) : Action (Option SsoAuth) := do
  let now ← utcNow
  query fun s => s.ssoAuth.find? fun a => a.state=state ∧ now-SSO_AUTH_EXPIRATION ≤ a.createdAt

/-- `SsoAuth::find_by_code`. -/
def SsoAuth.findByCode (code : Text) : Action (Option SsoAuth) := do
  let now ← utcNow
  query fun s => s.ssoAuth.find? fun a => a.codeResponse=some code ∧ now-SSO_AUTH_EXPIRATION ≤ a.createdAt

/-- `SsoAuth::save`. -/
def SsoAuth.save (a : SsoAuth) : Action Unit :=
  execute "Error saving SSO auth" fun s => some {s with ssoAuth := put SsoAuth.state a s.ssoAuth}

/-- `SsoAuth::delete`. -/
def SsoAuth.delete (a : SsoAuth) : Action Unit :=
  execute "Error deleting sso_auth" fun s => some {s with ssoAuth := s.ssoAuth.filter fun b => b.state≠a.state}

/-- `SsoAuth::delete_expired`. -/
def SsoAuth.deleteExpired : Action Unit := do
  let now ← utcNow
  execute "Error deleting expired SSO nonce" fun s =>
    some {s with ssoAuth := s.ssoAuth.filter fun a => now-SSO_AUTH_EXPIRATION ≤ a.createdAt}

/-- Two links that cannot both be stored. -/
def SsoUser.Conflicts (l k : SsoUser) : Prop := l.userUuid=k.userUuid ∨ l.identifier=k.identifier

instance (l k : SsoUser) : Decidable (l.Conflicts k) := inferInstanceAs (Decidable (_ ∨ _))

/-- `SsoUser::save`, refused without the account. -/
def SsoUser.save (settings : SsoSettings) (l : SsoUser) : Action Unit :=
  execute "Error saving SSO user" fun s =>
    if (s.db.users.any fun u => u.uuid=l.userUuid)=true then
      if settings.replaceInto=true then
        some {s with ssoUsers := l::s.ssoUsers.filter fun k => ¬l.Conflicts k}
      else if (s.ssoUsers.any fun k => l.Conflicts k)=true then none
      else some {s with ssoUsers := l::s.ssoUsers}
    else none

/-- `SsoUser::find_by_identifier`. -/
def SsoUser.findByIdentifier (identifier : Text) : Action (Option (User×SsoUser)) :=
  query fun s => (s.ssoUsers.find? fun l => l.identifier=identifier).bind fun l =>
    (s.db.users.find? fun u => u.uuid=l.userUuid).map fun u => (u,l)

/-- `SsoUser::find_by_mail`. -/
def SsoUser.findByMail (settings : SsoSettings) (mail : Text) : Action (Option (User×Option SsoUser)) :=
  query fun s => (s.db.users.find? fun u => u.email=settings.toLowercase mail).map fun u =>
    (u,s.ssoUsers.find? fun l => l.userUuid=u.uuid)

/-- The redirect of a client; `client_id` with the port of a local server. -/
def redirectUriOf (settings : SsoSettings) (clientId rawRedirectUri : Text) : Except String Text :=
  if clientId="web".toList ∨ clientId="browser".toList then
    .ok (settings.domain++"/sso-connector.html".toList)
  else if clientId="desktop".toList ∨ clientId="mobile".toList then .ok "bitwarden://sso-callback".toList
  else if clientId="cli".toList then
    let port := rawRedirectUri.drop 17
    if rawRedirectUri="http://localhost:".toList++port ∧ port.length=4 ∧ (port.all Char.isDigit)=true then
      .ok ("http://localhost:".toList++port)
    else .error "Failed to extract port number"
  else .error "Unsupported client"

/-- `AuthorizeData`. -/
structure AuthorizeData where
  /-- Kind of the client. -/
  clientId : Text
  /-- Where it wants to go. -/
  redirectUri : Text
  /-- State. -/
  state : Text
  /-- Challenge. -/
  codeChallenge : Text
  /-- How the challenge was made. -/
  codeChallengeMethod : Text
  deriving DecidableEq

/-- `authorize`, with the token of the browser and the nonce that are drawn. -/
def authorize (settings : SsoSettings) (bindingToken nonce : Text) (data : AuthorizeData) : Action Unit := do
  ensure "Unsupported code challenge method" (decide (data.codeChallengeMethod="S256".toList))
  let redirectUri ← fromExcept (redirectUriOf settings data.clientId data.redirectUri)
  let now ← utcNow
  SsoAuth.save ⟨data.state,data.codeChallenge,nonce,redirectUri,none,none,none,now,
    some (settings.sha256Hex bindingToken)⟩

/-- The browser is the one that the row is bound to. -/
def bound (settings : SsoSettings) (a : SsoAuth) (cookie : Option Text) : Bool :=
  match a.bindingHash,cookie with
  | some expected,some token => decide (expected=settings.sha256Hex token)
  | _,_ => false

/-- `oidcsignin_redirect`. -/
def oidcsigninRedirect (settings : SsoSettings) (base64State code : Text) (error : Option (Text×Option Text))
    (cookie : Option Text) : Action Unit := do
  let state ← expect "Failed to decode using base64" (settings.decodeState base64State)
  let found ← SsoAuth.find state
  let ssoAuth ← expect "Cannot retrieve sso_auth" found
  ensure "SSO session binding mismatch" (bound settings ssoAuth cookie)
  SsoAuth.save {ssoAuth with codeResponse := some code, codeResponseError := error}

/-- What comes back from the provider through the browser. -/
inductive Returned where
  /-- A code. -/
  | code (code : Text)
  /-- An error; the encoded state stands for the code. -/
  | error (error : Text) (description : Option Text)
  deriving DecidableEq

/-- `oidcsignin` and `oidcsignin_error`. -/
def oidcsignin (settings : SsoSettings) (base64State : Text) (returned : Returned) (cookie : Option Text) :
    Action Unit :=
  match returned with
  | .code code => oidcsigninRedirect settings base64State code none cookie
  | .error error description =>
    oidcsigninRedirect settings base64State base64State (some (error,description)) cookie

/-- What the token endpoint says, after its signatures were checked. -/
structure TokenResponse where
  /-- `access_token`. -/
  accessToken : Text
  /-- `refresh_token`. -/
  refreshToken : Option Text
  /-- `expires_in`. -/
  expiresIn : Option ℕ
  /-- The nonce of the identity token, if there is a valid one. -/
  nonce : Option Text
  /-- `iss`. -/
  issuer : Text
  /-- `sub`. -/
  subject : Text
  /-- `email`. -/
  email : Option Text
  /-- `email_verified`. -/
  emailVerified : Option Bool
  /-- `preferred_username`. -/
  preferredUsername : Option Text
  deriving DecidableEq

/-- What the endpoint for user information says. -/
structure UserInfo where
  /-- `email`. -/
  email : Option Text
  /-- `email_verified`. -/
  emailVerified : Option Bool
  /-- `preferred_username`. -/
  preferredUsername : Option Text
  deriving DecidableEq

/-- The provider, as one request finds it. -/
structure Provider where
  /-- Tokens for a code, with the verifier if it is to be checked there. -/
  token : Text → Option Text → Except String TokenResponse
  /-- Information for an access token. -/
  userInfo : Text → Except String UserInfo

/-- `Client::exchange_code`. -/
def Client.exchangeCode (settings : SsoSettings) (provider : Provider) (code verifier : Text) (a : SsoAuth) :
    Except String TokenResponse :=
  if settings.ssoPkce=false ∧ settings.codeChallenge verifier≠a.clientChallenge then
    .error "PKCE client challenge failed"
  else match provider.token code (if settings.ssoPkce=true then some verifier else none) with
    | .error e => .error e
    | .ok response =>
      if response.nonce=some a.nonce then .ok response else .error "Could not read id_token claims"

/-- The user whom the provider has authenticated. -/
def authenticatedUser (settings : SsoSettings) (response : TokenResponse) (userInfo : UserInfo) :
    Except String OIDCAuthenticatedUser :=
  match response.email.or userInfo.email with
  | none => .error "Neither id token nor userinfo contained an email"
  | some email => .ok ⟨response.refreshToken,response.accessToken,response.expiresIn,
      response.issuer++ '/'::response.subject,settings.toLowercase email,
      response.emailVerified.or userInfo.emailVerified,response.preferredUsername.or userInfo.preferredUsername⟩

/-- The code of a row. An error that has come back ends the authorization. -/
def returnedCode (a : SsoAuth) : Action Text :=
  match a.codeResponse,a.codeResponseError with
  | some code,none => pure code
  | _,some _ => do
    a.delete
    throw "SSO authorization failed"
  | none,none => do
    a.delete
    throw "Missing authorization provider return"

/-- What the provider says of a code. -/
def Provider.answer (settings : SsoSettings) (provider : Provider) (code verifier : Text) (a : SsoAuth) :
    Except String OIDCAuthenticatedUser :=
  match Client.exchangeCode settings provider code verifier a with
  | .error e => .error e
  | .ok response => match provider.userInfo response.accessToken with
    | .error e => .error e
    | .ok userInfo => authenticatedUser settings response userInfo

/-- `exchange_code`. A code that was exchanged before is not exchanged again. -/
def exchangeCode (settings : SsoSettings) (provider : Provider) (code verifier : Text) :
    Action (SsoAuth×OIDCAuthenticatedUser) := do
  let found ← SsoAuth.findByCode code
  let ssoAuth ← expect "Invalid code cannot retrieve sso auth" found
  match ssoAuth.authResponse with
  | some user => pure (ssoAuth,user)
  | none => do
    let code ← returnedCode ssoAuth
    let user ← fromExcept (provider.answer settings code verifier ssoAuth)
    let ssoAuth := {ssoAuth with authResponse := some user}
    ssoAuth.save
    pure (ssoAuth,user)

/-- An account with the address of an identity may be linked to it. -/
def linkable (settings : SsoSettings) (user : User) (infos : OIDCAuthenticatedUser) : Except String Unit :=
  if user.privateKey.isSome=true ∧ settings.ssoSignupsMatchEmail=false then
    .error "Existing non SSO user with same email"
  else match infos.emailVerified with
    | none =>
      if settings.ssoAllowUnknownEmailVerification=true then .ok ()
      else .error "Email verification status is unknown"
    | some false => .error "Email is not verified by the SSO provider"
    | some true => .ok ()

/-- The account of an identity, with its link. -/
def findAccount (settings : SsoSettings) (infos : OIDCAuthenticatedUser) : Action (Option (User×Option SsoUser)) := do
  let linked ← SsoUser.findByIdentifier infos.identifier
  match linked with
  | some (user,link) => pure (some (user,some link))
  | none => do
    let named ← SsoUser.findByMail settings infos.email
    match named with
    | none => pure none
    | some (_,some _) => throw "Existing SSO user with same email"
    | some (user,none) => do
      fromExcept (linkable settings user infos)
      pure (some (user,none))

/-- An identity may have a new account. -/
def admissible (settings : SsoSettings) (infos : OIDCAuthenticatedUser) : Except String Unit :=
  if settings.isEmailDomainAllowed infos.email=false then .error "Email domain not allowed"
  else match infos.emailVerified with
    | none =>
      if settings.ssoAllowUnknownEmailVerification=true then .ok ()
      else .error "Your provider does not send email verification status."
    | some false => .error "You need to verify your email with your provider before you can log in"
    | some true => .ok ()

/-- The first login of an identity. -/
def createAccount (settings : SsoSettings) (out : LoginOutside) (data : ConnectData) (infos : OIDCAuthenticatedUser) :
    Action (User×Device) := do
  fromExcept (admissible settings infos)
  let uuid ← within database getUuid
  let stamp ← within database getUuid
  let user := {User.new uuid stamp out.randomBytes settings.passwordIterations (settings.toLowercase infos.email)
    infos.userName with verified := true}
  within database (User.save settings.toSettings user)
  let device ← within database (getDevice data user)
  pure (user,device)

/-- The stub of an invited account is completed. -/
def completeStub (settings : SsoSettings) (infos : OIDCAuthenticatedUser) (user : User) : Action User :=
  if user.privateKey.isNone=true then do
    let user := {user with verified := true, name := infos.userName.getD user.name}
    within database (User.save settings.toSettings user)
    pure user
  else pure user

/-- The login to an account that exists. -/
def enterAccount (settings : SsoSettings) (out : LoginOutside) (data : ConnectData) (infos : OIDCAuthenticatedUser)
    (user : User) : Action (User×Device) := do
  let device ← within database (getDevice data user)
  let (device,user) ← within database (twofactorAuth settings.toSessionSettings out data user device)
  let user ← completeStub settings infos user
  ensure "Error sending mail" (decide (user.email=infos.email) || !settings.mailEnabled || out.delivers infos.email)
  pure (user,device)

/-- The account of a login, with its device and its link. -/
def openAccount (settings : SsoSettings) (out : LoginOutside) (data : ConnectData) (infos : OIDCAuthenticatedUser)
    (found : Option (User×Option SsoUser)) : Action ((User×Device)×Option SsoUser) :=
  match found with
  | none => do
    let opened ← createAccount settings out data infos
    pure (opened,none)
  | some (user,link) => do
    let opened ← enterAccount settings out data infos user
    pure (opened,link)

/-- The identity is linked to the account. -/
def linkAccount (settings : SsoSettings) (user : User) (infos : OIDCAuthenticatedUser) (link : Option SsoUser) :
    Action Unit :=
  match link with
  | some _ => pure ()
  | none => SsoUser.save settings ⟨user.uuid,infos.identifier⟩

/-- `redeem`. -/
def redeem (settings : SsoSettings) (user : User) (device : Device) (link : Option SsoUser) (ssoAuth : SsoAuth)
    (infos : OIDCAuthenticatedUser) : Action AuthTokens := do
  ssoAuth.delete
  linkAccount settings user infos link
  ensure "Non jwt access_token and empty expires_in" (settings.ssoAuthOnlyNotSession ||
    settings.decodeTokenClaims infos.accessToken || infos.expiresIn.isSome)
  pure (AuthTokens.new device user .sso)

/-- `sso_login`, with the code and the verifier of the request. -/
def ssoLogin (settings : SsoSettings) (out : LoginOutside) (provider : Provider) (data : ConnectData)
    (code verifier : Text) : Action AuthTokens := do
  let (ssoAuth,infos) ← exchangeCode settings provider code verifier
  let found ← findAccount settings infos
  let ((user,device),link) ← openAccount settings out data infos found
  let tokens ← redeem settings user device link ssoAuth infos
  within database (authenticatedResponse settings.toSessionSettings out user device tokens)

end NadSafe.SsoHandlers
