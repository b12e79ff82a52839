import NadSafe.WebClient

/-!
# Asynchronous crypto and API functions of the web client

Each function is its source text with a suspension at every promise of
WebCrypto, `fetch` or the Argon2 package. Arguments of such a call are read
before it suspends, so key bytes are copied at the call and read again only
at the next one. An `await` of an asynchronous function of the same module
adds no suspension of its own: it continues in the task that settled it.
-/

namespace NadSafe.WebScripts

open HostText AsyncScript AsyncScript.Script WireFormat WebCrypto WebClient

/-- A platform promise whose arguments determine its value; it may also be
rejected by the environment. -/
def settles {α : Type} (result : Option α) : Web α := do
  match ← suspend with
  | .rejected message => throw message
  | _ =>
    match result with
    | some value => pure value
    | none => throw "OperationError".toList

/-- A synchronous function that may throw. -/
def lift {α : Type} : Except Text α → Web α
  | .ok a => pure a
  | .error message => throw message

/-- The `encKey` bytes at this moment. -/
def readEncKey : KeyRef → Web Bytes
  | .live cell _ => invoke (.encKey cell)
  | .owned key => pure key.encKey

/-- The `macKey` bytes at this moment. -/
def readMacKey : KeyRef → Web Bytes
  | .live cell _ => invoke (.macKey cell)
  | .owned key => pure key.macKey

/-- The bytes a reference was issued with. -/
def issuedKey : KeyRef → SymKey
  | .live _ issued => issued
  | .owned key => key

section Crypto

variable (platform : Platform)

/-- `computeMac`. -/
def computeMac (key : KeyRef) (iv ct : Bytes) : Web Bytes := do
  let macKey ← readMacKey key
  let imported ← settles (some macKey)
  settles (some (platform.hmac imported (iv++ct)))

/-- `encryptEncString` on bytes. -/
def encryptEncString (data : Bytes) (key : KeyRef) : Web EncStringParsed := do
  let iv ← invoke (.randomBytes 16)
  let keyBytes ← readEncKey key
  let encKey ← settles (some keyBytes)
  let ct ← settles (some (platform.aesCbcEncrypt encKey iv data))
  let mac ← computeMac platform key iv ct
  pure ⟨iv,ct,mac⟩

/-- `decryptEncString`. -/
def decryptEncString (enc : EncStringParsed) (key : KeyRef) : Web Bytes := do
  let expectedMac ← computeMac platform key enc.iv enc.ct
  if constantTimeEqual expectedMac enc.mac=true then
    let keyBytes ← readEncKey key
    let encKey ← settles (some keyBytes)
    settles (platform.aesCbcDecrypt encKey enc.iv enc.ct)
  else throw "EncString: MAC verification failed — wrong key or tampered ciphertext".toList

/-- `encryptField`. -/
def encryptField (value : Text) (userKey : KeyRef) : Web Text := do
  let enc ← encryptEncString platform (utf8 value) userKey
  pure (serializeEncString enc)

/-- `decryptField`. -/
def decryptField (encString : Option Text) (userKey : KeyRef) : Web (Option Text) :=
  match encString with
  | none => pure none
  | some [] => pure none
  | some text => do
    let parsed ← lift (parseEncString text)
    let bytes ← decryptEncString platform parsed userKey
    pure (some (platform.textDecode bytes))

/-- `wrapUserKey`. -/
def wrapUserKey (userKeyBytes : Bytes) (stretchedKey : SymKey) : Web Text := do
  let enc ← encryptEncString platform userKeyBytes (.owned stretchedKey)
  pure (serializeEncString enc)

/-- `unwrapUserKey`. -/
def unwrapUserKey (encryptedUserKey : Text) (stretchedKey : SymKey) : Web SymKey := do
  let parsed ← lift (parseEncString encryptedUserKey)
  let raw ← decryptEncString platform parsed (.owned stretchedKey)
  lift (symKeyFromBytes raw)

/-- `decryptRsaPrivateKey`. -/
def decryptRsaPrivateKey (encryptedPrivateKey : Text) (userSymKey : KeyRef) : Web Bytes := do
  let parsed ← lift (parseEncString encryptedPrivateKey)
  let privDer ← decryptEncString platform parsed userSymKey
  settles (platform.importPkcs8 privDer)

/-- `deriveMasterKey`. The desktop shell first loads its bridge module. -/
def deriveMasterKey (password email : Text) (params : KdfParams) : Web Bytes :=
  let salt := utf8 (platform.toLowerCase email)
  match params with
  | .argon2id mCost tCost pCost =>
    if platform.isTauri=true then do
      settles (some ())
      let b64 ← settles (some (platform.deriveMasterKeyNative password email mCost tCost pCost))
      lift (fromB64 b64)
    else settles (some (platform.argon2id (utf8 password) salt mCost tCost pCost))
  | .pbkdf2 iterations => do
    let keyMaterial ← settles (some (utf8 password))
    settles (some (platform.pbkdf2 keyMaterial salt iterations))

/-- `deriveAuthHash`. -/
def deriveAuthHash (masterKey : Bytes) (password : Text) : Web Bytes := do
  let keyMaterial ← settles (some masterKey)
  settles (some (platform.pbkdf2 keyMaterial (utf8 password) 1))

/-- The message that `hkdfExpand` signs. -/
def hkdfMessage (info : Text) : Bytes := utf8 info++[1]

/-- The 64-byte stretched key of a master key. -/
def stretched (masterKey : Bytes) : SymKey :=
  ⟨(platform.hmac masterKey (hkdfMessage "enc".toList)).take 32,
    (platform.hmac masterKey (hkdfMessage "mac".toList)).take 32,
    by simp [platform.hmac_length],by simp [platform.hmac_length]⟩

/-- `stretchMasterKey`: one import and two signatures. -/
def stretchMasterKey (masterKey : Bytes) : Web SymKey := do
  settles (some ())
  settles (some ())
  settles (some (stretched platform masterKey))

/-- The material of `deriveLoginKeys`. -/
structure LoginKeyMaterial where
  /-- The master key. -/
  masterKey : Bytes
  /-- The hash sent to the server. -/
  authHash : Bytes
  /-- The stretched key, both halves. -/
  stretchedKey : SymKey

/-- `deriveLoginKeys`. -/
def deriveLoginKeys (password email : Text) (params : KdfParams) : Web LoginKeyMaterial := do
  let masterKey ← deriveMasterKey platform password email params
  let authHash ← deriveAuthHash platform masterKey password
  let stretchedKey ← stretchMasterKey platform masterKey
  pure ⟨masterKey,authHash,stretchedKey⟩

/-- The numeric kinds of the server; unknown kinds become logins. -/
def CIPHER_TYPE : ℕ → ItemType
  | 1 => .login
  | 2 => .note
  | 3 => .card
  | 4 => .identity
  | _ => .login

/-- The login part of `decryptCipher`. -/
def decryptLogin (login : LoginDataResponse) (userKey : KeyRef) : Web LoginFields := do
  let (username,password,totp) ← both (decryptField platform login.username userKey)
    (both (decryptField platform login.password userKey) (decryptField platform login.totp userKey))
  let uris ← all ((login.uris.getD []).map fun u => decryptField platform (some u.uri) userKey)
  pure ⟨username.getD [],password.getD [],(uris.filterMap id).filter (· ≠ []),totp⟩

/-- The card part of `decryptCipher`. -/
def decryptCard (card : CardFields (Option Text)) (userKey : KeyRef) : Web (CardFields Text) := do
  let (cardholderName,brand,number,expMonth,expYear,code) ←
    both (decryptField platform card.cardholderName userKey)
      (both (decryptField platform card.brand userKey)
        (both (decryptField platform card.number userKey)
          (both (decryptField platform card.expMonth userKey)
            (both (decryptField platform card.expYear userKey)
              (decryptField platform card.code userKey)))))
  pure ⟨cardholderName.getD [],brand.getD [],number.getD [],expMonth.getD [],expYear.getD [],
    code.getD []⟩

/-- The notes of any item kind; an empty result leaves the item without. -/
def decryptNotes (notes : Option Text) (userKey : KeyRef) : Web (Option Text) := do
  let content ← decryptField platform notes userKey
  match content with
  | some [] => pure none
  | content => pure content

/-- `type === kind && data`: the branch of one item kind. -/
def ofKind {α β : Type} (type kind : ℕ) (data : Option α) (f : α → Web β) : Web (Option β) :=
  match data with
  | some value =>
    if type=kind then do
      let fields ← f value
      pure (some fields)
    else pure none
  | none => pure none

/-- `decryptCipher`. -/
def decryptCipher (cipher : CipherResponse) (userKey : KeyRef) : Web VaultItem := do
  let name ← decryptField platform (some cipher.name) userKey
  let note ← decryptNotes platform cipher.notes userKey
  let login ← ofKind cipher.type 1 cipher.login fun login => decryptLogin platform login userKey
  let note := if cipher.type=2 ∧ note=none then some [] else note
  let card ← ofKind cipher.type 3 cipher.card fun card => decryptCard platform card userKey
  pure ⟨cipher.id,CIPHER_TYPE cipher.type,name.getD "(unnamed)".toList,cipher.folderId,
    cipher.organizationId,cipher.collectionIds,cipher.favorite,cipher.creationDate,
    cipher.revisionDate,login,note,card⟩

end Crypto

section Api

/-- `getApiClient`. -/
def getApiClient : Web ℕ := do
  match ← invoke .getApiClient with
  | some client => pure client
  | none => throw "API client not initialized — call initApiClient first".toList

/-- The message of an `ApiResponseError`. A body that cannot be read leaves
the status text. -/
def apiErrorMessage (status : ℕ) (statusText : Text) : Arrived → Text
  | .body (.error (some message)) => message
  | .rejected _ => statusText
  | _ => "API error ".toList++(Nat.repr status).toList

/-- `ApiClient.request`: the headers arrive first, then the body. -/
def request (client : ℕ) (method path : Text) (body : Body) (noAuth : Bool) : Web Json := do
  invoke (.fetch client method path noAuth body)
  match ← suspend with
  | .rejected message => throw message
  | .response status statusText =>
    if 200≤ status ∧ status<300 then
      if status=204 then pure .empty
      else
        match ← suspend with
        | .rejected message => throw message
        | .body json => pure json
        | _ => pure .empty
    else
      let errorBody ← suspend
      throw (apiErrorMessage status statusText errorBody)
  | _ => throw "TypeError".toList

/-- A property read of an answer that is not of the expected shape. -/
def typeError {α : Type} : Web α :=
  throw "Cannot read properties of undefined".toList

/-- `sync`. -/
def sync (client : ℕ) : Web SyncResponse := do
  match ← request client "GET".toList "/api/sync?excludeDomains=true".toList .none false with
  | .sync data => pure data
  | _ => typeError

/-- `createCipher`. The answer is cast, so it may be missing. -/
def createCipher (client : ℕ) (cipher : CreateCipherRequest) (issued : SymKey) : Web Json :=
  request client "POST".toList "/api/ciphers".toList (.cipher cipher issued) false

/-- `updateCipher`. -/
def updateCipher (client : ℕ) (id : Text) (cipher : CreateCipherRequest) (issued : SymKey) :
    Web Json :=
  request client "PUT".toList ("/api/ciphers/".toList++id) (.cipher cipher issued) false

/-- `changePassword`. -/
def changePassword (client : ℕ) (req : ChangePasswordRequest) (issued stretched : SymKey) :
    Web Json :=
  request client "POST".toList "/api/accounts/password".toList (.password req issued stretched) false

/-- `refreshToken`. -/
def refreshToken (client : ℕ) (token deviceId : Text) : Web Text := do
  let answer ← request client "POST".toList "/identity/connect/token".toList
    (.form [("grant_type".toList,"refresh_token".toList),("client_id".toList,"web".toList),
      ("refresh_token".toList,token),("deviceIdentifier".toList,deviceId)]) true
  match answer with
  | .token answer => pure answer.accessToken
  | _ => typeError

/-- `prelogin`. -/
def prelogin (client : ℕ) (email : Text) : Web PreloginResponse := do
  match ← request client "POST".toList "/api/accounts/prelogin".toList
    (.form [("email".toList,email)]) true with
  | .prelogin answer => pure answer
  | _ => typeError

/-- `loginWithPassword`. A second-factor challenge is a rejection like any
other here: its caller only keeps the derived keys for the next call. -/
def loginWithPassword (client : ℕ) (email : Text) (authHash : Bytes) (deviceId : Text)
    (twoFactorToken : Option Text) : Web TokenResponse := do
  let secondFactor := match twoFactorToken.getD [] with
    | [] => []
    | token => [("twoFactorToken".toList,token),("twoFactorProvider".toList,"0".toList),
        ("twoFactorRemember".toList,"0".toList)]
  match ← request client "POST".toList "/identity/connect/token".toList
    (.form ([("grant_type".toList,"password".toList),("username".toList,email),
      ("password".toList,toB64 authHash),("scope".toList,"api offline_access".toList),
      ("client_id".toList,"web".toList),("deviceType".toList,"9".toList),
      ("deviceIdentifier".toList,deviceId),("deviceName".toList,"NadSafe Web".toList)]++secondFactor))
    true with
  | .token answer => pure answer
  | _ => typeError

end Api

end NadSafe.WebScripts
