import NadSafe.ScriptPool
import NadSafe.WebCrypto

/-!
# State and synchronous calls of one web client tab

The zustand stores, the session module, the API client, the PIN entries of
localStorage and the random source, with one call for each store method.
Key objects live in a heap, because `getSessionUserKey` hands out the live
object and `clearSessionKey` overwrites it in place. Requests are logged as
they leave the tab. Component state, navigation, callbacks and the store
fields that no operation of this development reads are left out.
-/

namespace NadSafe.WebClient

open HostText AsyncScript WireFormat WebCrypto

/-- The item kinds of the vault store. -/
inductive ItemType where
  /-- A login. -/
  | login
  /-- A secure note. -/
  | note
  /-- A payment card. -/
  | card
  /-- An identity. -/
  | identity
  deriving DecidableEq

/-- Decrypted login fields. -/
structure LoginFields where
  /-- User name. -/
  username : Text
  /-- Password. -/
  password : Text
  /-- Addresses. -/
  uris : List Text
  /-- One-time-password secret. -/
  totp : Option Text
  deriving DecidableEq

/-- Six card fields, decrypted in an item and optional in a request or a
response. -/
structure CardFields (α : Type) where
  /-- Name on the card. -/
  cardholderName : α
  /-- Issuer brand. -/
  brand : α
  /-- Card number. -/
  number : α
  /-- Expiry month. -/
  expMonth : α
  /-- Expiry year. -/
  expYear : α
  /-- Security code. -/
  code : α
  deriving DecidableEq

/-- A decrypted item of the vault store. -/
structure VaultItem where
  /-- Server identifier. -/
  id : Text
  /-- Item kind. -/
  type : ItemType
  /-- Decrypted name. -/
  name : Text
  /-- Containing folder. -/
  folderId : Option Text
  /-- Owning organisation. -/
  organizationId : Option Text
  /-- Collections of the organisation. -/
  collectionIds : List Text
  /-- Favourite flag. -/
  favorite : Bool
  /-- Creation date. -/
  createdAt : Text
  /-- Revision date. -/
  updatedAt : Text
  /-- Login fields. -/
  login : Option LoginFields
  /-- Notes. -/
  note : Option Text
  /-- Card fields. -/
  card : Option (CardFields Text)
  deriving DecidableEq

/-- A decrypted folder. -/
structure Folder where
  /-- Server identifier. -/
  id : Text
  /-- Decrypted name. -/
  name : Text
  deriving DecidableEq

/-- A decrypted collection. -/
structure Collection where
  /-- Server identifier. -/
  id : Text
  /-- Owning organisation. -/
  organizationId : Text
  /-- Decrypted name. -/
  name : Text
  /-- Write protection. -/
  readOnly : Bool
  /-- Password visibility. -/
  hidePasswords : Bool
  /-- Management right. -/
  manage : Bool
  deriving DecidableEq

/-- The decrypted part of `useVaultStore`. -/
structure VaultState where
  /-- Decrypted items. -/
  items : List VaultItem
  /-- Decrypted folders. -/
  folders : List Folder
  /-- Decrypted collections. -/
  collections : List Collection
  deriving DecidableEq

/-- What `clearVault` leaves. -/
def VaultState.empty : VaultState := ⟨[],[],[]⟩

/-- The stored key derivation choice of the account. -/
inductive KdfType where
  /-- Argon2id. -/
  | argon2id
  /-- PBKDF2. -/
  | pbkdf2
  deriving DecidableEq

/-- The optional stored parameters. -/
structure StoredKdfParams where
  /-- Memory cost in KiB. -/
  mCost : Option ℕ
  /-- Time cost. -/
  tCost : Option ℕ
  /-- Parallelism. -/
  pCost : Option ℕ
  /-- PBKDF2 iterations. -/
  iterations : Option ℕ
  deriving DecidableEq

/-- The account in the auth store. -/
structure AuthUser where
  /-- Address, which is also the derivation salt. -/
  email : Text
  /-- Derivation algorithm. -/
  kdfType : KdfType
  /-- Derivation parameters. -/
  kdfParams : StoredKdfParams
  deriving DecidableEq

/-- The parameters both derivation call sites compute, with their defaults. -/
def AuthUser.params (user : AuthUser) : KdfParams :=
  match user.kdfType with
  | .argon2id => .argon2id (user.kdfParams.mCost.getD 65536) (user.kdfParams.tCost.getD 3)
      (user.kdfParams.pCost.getD 4)
  | .pbkdf2 => .pbkdf2 (user.kdfParams.iterations.getD 600000)

/-- `useAuthStore`. -/
structure AuthState where
  /-- Signed in. -/
  isAuthenticated : Bool
  /-- Locked. -/
  isLocked : Bool
  /-- The account. -/
  user : Option AuthUser
  /-- Server origin. -/
  serverUrl : Text
  /-- Bearer token. -/
  accessToken : Option Text
  /-- Refresh token. -/
  refreshToken : Option Text
  /-- Wrapped user key. -/
  encryptedUserKey : Option Text
  /-- Wrapped RSA private key. -/
  encryptedPrivateKey : Option Text
  deriving DecidableEq

/-- The store as created. -/
def AuthState.initial : AuthState := ⟨false,false,none,[],none,none,none,none⟩

/-- `login`. -/
def AuthState.login (s : AuthState) (user : AuthUser) (accessToken refreshToken encryptedUserKey : Text)
    (encryptedPrivateKey : Option Text) : AuthState :=
  ⟨true,false,some user,s.serverUrl,some accessToken,some refreshToken,some encryptedUserKey,
    encryptedPrivateKey⟩

/-- `lock`. -/
def AuthState.lock (s : AuthState) : AuthState := {s with isLocked := true,accessToken := none}

/-- `unlock`. -/
def AuthState.unlock (s : AuthState) (accessToken : Text) : AuthState :=
  {s with isLocked := false,accessToken := some accessToken}

/-- `url.replace(/\/$/, "")`. -/
def stripSlash (url : Text) : Text := if url.getLast?=some '/' then url.dropLast else url

/-- `setServerUrl`. -/
def AuthState.setServerUrl (s : AuthState) (url : Text) : AuthState :=
  {s with serverUrl := stripSlash url}

/-- `logout` keeps the server address only. -/
def AuthState.logout (s : AuthState) : AuthState :=
  ⟨false,false,none,s.serverUrl,none,none,none,none⟩

/-- An address of a login, in a request or a response. -/
structure UriData where
  /-- EncString of the address, or an empty text. -/
  uri : Text
  /-- Match rule. -/
  match_ : Option ℕ
  deriving DecidableEq

/-- Encrypted login data. -/
structure LoginData where
  /-- EncString of the user name. -/
  username : Option Text
  /-- EncString of the password. -/
  password : Option Text
  /-- EncString of the one-time-password secret. -/
  totp : Option Text
  /-- Addresses. -/
  uris : List UriData
  deriving DecidableEq

/-- The body of `createCipher` and `updateCipher`. -/
structure CreateCipherRequest where
  /-- Numeric item kind. -/
  type : ℕ
  /-- EncString of the name. -/
  name : Text
  /-- EncString of the notes. -/
  notes : Option Text
  /-- Containing folder. -/
  folderId : Option Text
  /-- Owning organisation. -/
  organizationId : Option Text
  /-- Collections of the organisation. -/
  collectionIds : List Text
  /-- Favourite flag. -/
  favorite : Bool
  /-- Reprompt policy. -/
  reprompt : ℕ
  /-- Login data. -/
  login : Option LoginData
  /-- Secure-note kind. -/
  secureNote : Option ℕ
  /-- Card data. -/
  card : Option (CardFields (Option Text))
  deriving DecidableEq

/-- The texts of a card in field order. -/
def CardFields.texts (c : CardFields (Option Text)) : List Text :=
  [c.cardholderName,c.brand,c.number,c.expMonth,c.expYear,c.code].filterMap id

/-- The texts of a login in field order. An empty address text stands for a
missing address and is no EncString. -/
def LoginData.texts (l : LoginData) : List Text :=
  [l.username,l.password,l.totp].filterMap id++(l.uris.map UriData.uri).filter (· ≠ [])

/-- Every EncString of a request body. -/
def CreateCipherRequest.encStrings (r : CreateCipherRequest) : List Text :=
  r.name::(r.notes.toList++r.login.toList.flatMap LoginData.texts++
    r.card.toList.flatMap CardFields.texts)

/-- The body of `changePassword`. -/
structure ChangePasswordRequest where
  /-- Hash of the current password. -/
  masterPasswordHash : Text
  /-- Hash of the new password. -/
  newMasterPasswordHash : Text
  /-- The re-wrapped user key. -/
  key : Text
  deriving DecidableEq

/-- Login data of a response. -/
structure LoginDataResponse where
  /-- EncString of the user name. -/
  username : Option Text
  /-- EncString of the password. -/
  password : Option Text
  /-- EncString of the one-time-password secret. -/
  totp : Option Text
  /-- Addresses. -/
  uris : Option (List UriData)
  deriving DecidableEq

/-- An encrypted item from the server, with the fields the client reads. -/
structure CipherResponse where
  /-- Server identifier. -/
  id : Text
  /-- Owning organisation. -/
  organizationId : Option Text
  /-- Containing folder. -/
  folderId : Option Text
  /-- Collections of the organisation. -/
  collectionIds : List Text
  /-- Numeric item kind. -/
  type : ℕ
  /-- EncString of the name. -/
  name : Text
  /-- EncString of the notes. -/
  notes : Option Text
  /-- Favourite flag. -/
  favorite : Bool
  /-- Revision date. -/
  revisionDate : Text
  /-- Creation date. -/
  creationDate : Text
  /-- Deletion date of a trashed item. -/
  deletedDate : Option Text
  /-- Login data. -/
  login : Option LoginDataResponse
  /-- Card data. -/
  card : Option (CardFields (Option Text))
  deriving DecidableEq

/-- The parts of a sync answer that the client reads. Collections reuse the
decrypted record with an encrypted name, as folders do. -/
structure SyncResponse where
  /-- Encrypted items. -/
  ciphers : Option (List CipherResponse)
  /-- Folders with encrypted names. -/
  folders : Option (List Folder)
  /-- Collections with encrypted names. -/
  collections : Option (List Collection)
  deriving DecidableEq

/-- The derivation parameters of an account, as the server tells them. -/
structure PreloginResponse where
  /-- Derivation algorithm. -/
  kdf : ℕ
  /-- Iterations or time cost. -/
  kdfIterations : ℕ
  /-- Memory cost in MiB. -/
  kdfMemory : Option ℕ
  /-- Parallelism. -/
  kdfParallelism : Option ℕ
  deriving DecidableEq

/-- A token answer. The two spellings of a field are one field here. -/
structure TokenResponse where
  /-- Bearer token. -/
  accessToken : Text
  /-- Refresh token. -/
  refreshToken : Text
  /-- Wrapped user key, on a password login. -/
  key : Option Text
  /-- Wrapped RSA private key. -/
  privateKey : Option Text
  deriving DecidableEq

/-- A parsed response body. -/
inductive Json where
  /-- No body. -/
  | empty
  /-- An error object. -/
  | error (message : Option Text)
  /-- A created or updated item. -/
  | cipher (c : CipherResponse)
  /-- A full sync. -/
  | sync (s : SyncResponse)
  /-- Derivation parameters. -/
  | prelogin (answer : PreloginResponse)
  /-- A token answer. -/
  | token (answer : TokenResponse)

/-- The session that another tab offers. -/
structure SessionPayload where
  /-- The copied user key. -/
  key : SymKey
  /-- The RSA private key. -/
  rsaKey : Option Bytes
  /-- Bearer token. -/
  accessToken : Text
  /-- Server origin. -/
  serverUrl : Text
  deriving DecidableEq

/-- What can arrive at an `await`. -/
inductive Arrived where
  /-- Fulfilment with the value that the arguments determine. -/
  | settled
  /-- Rejection. -/
  | rejected (message : Text)
  /-- Response headers of a fetch. -/
  | response (status : ℕ) (statusText : Text)
  /-- A response body. -/
  | body (json : Json)
  /-- A key offer from another tab. -/
  | keyResponse (payload : SessionPayload)

/-- A reference to key bytes. A `live` object is shared with the session
store; `issued` records the bytes it held when it was taken, for the
specification only. An `owned` object has no other holder. -/
inductive KeyRef where
  /-- A heap object. -/
  | live (cell : ℕ) (issued : SymKey)
  /-- An object that no other code can reach. -/
  | owned (key : SymKey)

/-- A request body. -/
inductive Body where
  /-- No body. -/
  | none
  /-- An item, with the key the sending operation was issued. The key is a
  record of the specification and is not sent. -/
  | cipher (request : CreateCipherRequest) (issued : SymKey)
  /-- A password change, with the issued key and the new stretched key, for
  the specification only. -/
  | password (request : ChangePasswordRequest) (issued stretched : SymKey)
  /-- Named texts, url-encoded or as a JSON object. -/
  | form (fields : List (Text×Text))
  deriving DecidableEq

/-- An `ApiClient` object. -/
structure ApiClient where
  /-- Base address. -/
  baseUrl : Text
  /-- Bearer token. -/
  accessToken : Option Text
  deriving DecidableEq

/-- A request as it left the tab. -/
structure Sent where
  /-- HTTP method. -/
  method : Text
  /-- Full address. -/
  url : Text
  /-- Authorization header. -/
  authorization : Option Text
  /-- Body. -/
  body : Body
  deriving DecidableEq

/-- The stored PIN entry. -/
structure PinBlob where
  /-- Derivation salt. -/
  salt : Bytes
  /-- GCM nonce. -/
  iv : Bytes
  /-- Wrapped user key. -/
  wrapped : Bytes
  /-- Derivation iterations. -/
  iterations : ℕ
  /-- Number of digits. -/
  length : ℕ
  deriving DecidableEq

/-- The localStorage entries outside the auth store. -/
structure LocalStorage where
  /-- `nadsafe_pin`. -/
  pinBlob : Option PinBlob
  /-- `nadsafe_pin_attempts`. -/
  pinAttempts : Option ℕ
  /-- `nadsafe_device_id`. -/
  deviceId : Option Text
  deriving DecidableEq

/-- A local copy of the user key that an operation wrote, with what it was
meant to contain. Kept for the specification only. -/
inductive Wrapping where
  /-- `setEncryptedUserKey`, under the new stretched master key. -/
  | stored (text : Text) (issued stretched : SymKey)
  /-- The PIN entry, under the key of this PIN. -/
  | pin (blob : PinBlob) (pin : Text) (issued : SymKey)
  deriving DecidableEq

/-- One decryption of a PIN entry, and whether it was rejected. -/
structure PinTest where
  /-- The tested entry. -/
  blob : PinBlob
  /-- The tested PIN. -/
  pin : Text
  /-- The decryption fails. -/
  wrong : Bool
  deriving DecidableEq

/-- Milestones of the PIN history, for the specification only. -/
inductive PinEvent where
  /-- A PIN entry was written. -/
  | set
  /-- An unlock succeeded. -/
  | unlocked
  /-- A PIN was tested against an entry. -/
  | tested (test : PinTest)
  deriving DecidableEq

/-- The whole tab. -/
structure WebState where
  /-- Auth store. -/
  auth : AuthState
  /-- Vault store. -/
  vault : VaultState
  /-- `_userKey`: an object of the heap. -/
  userKey : Option ℕ
  /-- `_rsaPrivateKey`. -/
  rsaKey : Option Bytes
  /-- Current bytes of every shared key object. -/
  keys : List SymKey
  /-- `_client`: one of the created clients. -/
  client : Option ℕ
  /-- Every created client. -/
  clients : List ApiClient
  /-- localStorage. -/
  storage : LocalStorage
  /-- Bytes that `getRandomValues` returns. -/
  entropy : ℕ → UInt8
  /-- Random bytes consumed so far. -/
  drawn : ℕ
  /-- Origin of the page. -/
  origin : Text
  /-- Requests sent so far, oldest first. -/
  sent : List Sent
  /-- Local copies of the user key written so far, oldest first. -/
  wrappings : List Wrapping
  /-- PIN milestones, oldest first. -/
  pinHistory : List PinEvent

/-- A freshly loaded tab: the auth store and localStorage as found, no key,
no decrypted data and nothing sent. -/
def WebState.loaded (auth : AuthState) (storage : LocalStorage) (origin : Text)
    (entropy : ℕ → UInt8) : WebState :=
  ⟨auth,.empty,none,none,[],none,[],storage,entropy,0,origin,[],[],[]⟩

/-- One call for each synchronous store method, each with the arguments the
source passes. `setEncryptedUserKey`, `setPinBlob` and `tested` also carry
records of the specification. -/
inductive WebCall where
  /-- `randomBytes`. -/
  | randomBytes (n : ℕ)
  /-- `getSessionUserKey`. -/
  | getSessionUserKey
  /-- `setSessionUserKey`. The object becomes shared here, so here it gets
  its place in the heap, which is the answer. -/
  | setSessionUserKey (key : SymKey)
  /-- `setSessionRsaKey`. -/
  | setSessionRsaKey (key : Bytes)
  /-- `clearSessionKey`. -/
  | clearSessionKey
  /-- A read of the `encKey` half. -/
  | encKey (cell : ℕ)
  /-- A read of the `macKey` half. -/
  | macKey (cell : ℕ)
  /-- `useAuthStore.getState`. -/
  | authState
  /-- `setServerUrl`. -/
  | setServerUrl (url : Text)
  /-- `login`. -/
  | login (user : AuthUser) (accessToken refreshToken encryptedUserKey : Text)
      (encryptedPrivateKey : Option Text)
  /-- `lock`. -/
  | lock
  /-- `unlock`. -/
  | unlock (accessToken : Text)
  /-- `logout`. -/
  | logout
  /-- `setEncryptedUserKey`. -/
  | setEncryptedUserKey (text : Text) (issued stretched : SymKey)
  /-- `useVaultStore.getState`. -/
  | vaultState
  /-- `setItems`. -/
  | setItems (items : List VaultItem)
  /-- `setFolders`. -/
  | setFolders (folders : List Folder)
  /-- `setCollections`. -/
  | setCollections (collections : List Collection)
  /-- `clearVault`. -/
  | clearVault
  /-- `getApiClient`. -/
  | getApiClient
  /-- `initApiClient`. -/
  | initApiClient (serverUrl : Text)
  /-- `ApiClient.setToken`. -/
  | setToken (client : ℕ) (token : Text)
  /-- The `fetch` of `ApiClient.request`. -/
  | fetch (client : ℕ) (method path : Text) (noAuth : Bool) (body : Body)
  /-- Read of `nadsafe_pin`. -/
  | pinBlob
  /-- Read of `nadsafe_pin_attempts`. -/
  | pinAttempts
  /-- Write of `nadsafe_pin`. -/
  | setPinBlob (blob : PinBlob) (pin : Text) (issued : SymKey)
  /-- Write of `nadsafe_pin_attempts`. -/
  | setPinAttempts (n : ℕ)
  /-- Removal of `nadsafe_pin`. -/
  | removePinBlob
  /-- Removal of `nadsafe_pin_attempts`. -/
  | removePinAttempts
  /-- `getOrCreateDeviceId`. -/
  | getOrCreateDeviceId
  /-- The start of a PIN decryption. -/
  | tested (test : PinTest)
  /-- A PIN unlock that returns its key. -/
  | pinUnlocked

/-- The answer type of a call. -/
abbrev WebCall.Answer : WebCall → Type
  | .randomBytes _ => Bytes
  | .getSessionUserKey => Option KeyRef
  | .setSessionUserKey _ => ℕ
  | .encKey _ => Bytes
  | .macKey _ => Bytes
  | .authState => AuthState
  | .vaultState => VaultState
  | .getApiClient => Option ℕ
  | .initApiClient _ => ℕ
  | .pinBlob => Option PinBlob
  | .pinAttempts => Option ℕ
  | .getOrCreateDeviceId => Text
  | _ => Unit

namespace WebState

/-- `getRandomValues`: the next bytes of the random source. -/
def random (s : WebState) (n : ℕ) : Bytes := (List.range n).map fun i => s.entropy (s.drawn+i)

/-- The session key object, with the bytes it holds now. -/
def getSessionUserKey (s : WebState) : Option KeyRef :=
  s.userKey.map fun cell => .live cell (s.keys.getD cell .zero)

/-- `clearSessionKey`: zero both halves of the object in place. -/
def clearSessionKey (s : WebState) : WebState :=
  match s.userKey with
  | some cell => {s with keys := s.keys.set cell .zero,userKey := none,rsaKey := none}
  | none => {s with rsaKey := none}

/-- `initApiClient`: an empty base address on the page's own origin. -/
def initApiClient (s : WebState) (serverUrl : Text) : WebState :=
  let base := if serverUrl=s.origin ∨ serverUrl=[] then [] else serverUrl
  {s with client := some s.clients.length,clients := s.clients++[⟨base,none⟩]}

/-- `ApiClient.setToken`. -/
def setToken (s : WebState) (client : ℕ) (token : Text) : WebState :=
  {s with clients := s.clients.modify client fun c => {c with accessToken := some token}}

/-- The request that `ApiClient.request` hands to `fetch`. -/
def outgoing (s : WebState) (client : ℕ) (method path : Text) (noAuth : Bool) (body : Body) : Sent :=
  let c := s.clients.getD client ⟨[],none⟩
  ⟨method,c.baseUrl++path,
    if noAuth then none else c.accessToken.map fun token => "Bearer ".toList++token,body⟩

/-- `getOrCreateDeviceId`, with the random identifier as a character for
each of sixteen random bytes. -/
def deviceIdentifier (s : WebState) : Text :=
  s.storage.deviceId.getD ((s.random 16).map fun b => Char.ofNat b.toNat)

end WebState

/-- Effect and answer of every call. -/
def exec : ∀ c : WebCall,WebState → c.Answer×WebState
  | .randomBytes n,s => (s.random n,{s with drawn := s.drawn+n})
  | .getSessionUserKey,s => (s.getSessionUserKey,s)
  | .setSessionUserKey key,s =>
    (s.keys.length,{s with keys := s.keys++[key],userKey := some s.keys.length})
  | .setSessionRsaKey key,s => ((),{s with rsaKey := some key})
  | .clearSessionKey,s => ((),s.clearSessionKey)
  | .encKey cell,s => ((s.keys.getD cell .zero).encKey,s)
  | .macKey cell,s => ((s.keys.getD cell .zero).macKey,s)
  | .authState,s => (s.auth,s)
  | .setServerUrl url,s => ((),{s with auth := s.auth.setServerUrl url})
  | .login user accessToken refreshToken encryptedUserKey encryptedPrivateKey,s =>
    ((),{s with auth := s.auth.login user accessToken refreshToken encryptedUserKey encryptedPrivateKey})
  | .lock,s => ((),{s with auth := s.auth.lock})
  | .unlock token,s => ((),{s with auth := s.auth.unlock token})
  | .logout,s => ((),{s with auth := s.auth.logout})
  | .setEncryptedUserKey text issued stretched,s =>
    ((),{s with auth := {s.auth with encryptedUserKey := some text}
                wrappings := s.wrappings++[Wrapping.stored text issued stretched]})
  | .vaultState,s => (s.vault,s)
  | .setItems items,s => ((),{s with vault := {s.vault with items := items}})
  | .setFolders folders,s => ((),{s with vault := {s.vault with folders := folders}})
  | .setCollections cs,s => ((),{s with vault := {s.vault with collections := cs}})
  | .clearVault,s => ((),{s with vault := .empty})
  | .getApiClient,s => (s.client,s)
  | .initApiClient url,s => (s.clients.length,s.initApiClient url)
  | .setToken client token,s => ((),s.setToken client token)
  | .fetch client method path noAuth body,s =>
    ((),{s with sent := s.sent++[s.outgoing client method path noAuth body]})
  | .pinBlob,s => (s.storage.pinBlob,s)
  | .pinAttempts,s => (s.storage.pinAttempts,s)
  | .setPinBlob blob pin issued,s =>
    ((),{s with storage := {s.storage with pinBlob := some blob}
                wrappings := s.wrappings++[Wrapping.pin blob pin issued]
                pinHistory := s.pinHistory++[PinEvent.set]})
  | .setPinAttempts n,s => ((),{s with storage := {s.storage with pinAttempts := some n}})
  | .removePinBlob,s => ((),{s with storage := {s.storage with pinBlob := none}})
  | .removePinAttempts,s => ((),{s with storage := {s.storage with pinAttempts := none}})
  | .getOrCreateDeviceId,s =>
    (s.deviceIdentifier,
      {s with storage := {s.storage with deviceId := some s.deviceIdentifier}
              drawn := if s.storage.deviceId=none then s.drawn+16 else s.drawn})
  | .tested test,s => ((),{s with pinHistory := s.pinHistory++[PinEvent.tested test]})
  | .pinUnlocked,s => ((),{s with pinHistory := s.pinHistory++[PinEvent.unlocked]})

/-- Program text over the calls of a tab; a thrown error is its message. -/
abbrev Web (α : Type) := Script WebCall WebCall.Answer Arrived Text α

/-- One call of the tab. -/
abbrev invoke (c : WebCall) : Web c.Answer := Script.perform c

end NadSafe.WebClient
