import NadSafe.ScriptPool
import NadSafe.WebOperations

/-!
# Storage and host of the extension's service worker

The worker keeps nothing in memory between messages: everything its handlers
share lies in `storage.session` and `storage.local`. Each storage operation is
one call, which takes place at some moment after it was issued. The records at
the end of the state serve the specification only.
-/

namespace NadSafe.ExtensionWorker

open HostText AsyncScript WebClient

/-- A decrypted item in the autofill shape. -/
structure Item where
  /-- Server identifier. -/
  id : Text
  /-- Item kind. -/
  type : ItemType
  /-- Decrypted name. -/
  name : Text
  /-- Login fields. -/
  login : Option LoginFields
  deriving DecidableEq

/-- `vaultBlob`: the encrypted snapshot. -/
structure VaultBlob where
  /-- GCM nonce. -/
  iv : Bytes
  /-- Ciphertext under the data-encryption key. -/
  data : Bytes
  deriving DecidableEq

/-- The snapshot before encryption. -/
structure Bundle where
  /-- Decrypted items. -/
  items : List Item
  /-- Server origin. -/
  serverUrl : Text
  /-- The user key in base64. -/
  userKey : Option Text
  /-- Bearer token. -/
  accessToken : Option Text
  deriving DecidableEq

/-- A parsed snapshot of any age. -/
inductive ParsedBundle where
  /-- A bare items array. -/
  | legacy (items : List Item)
  /-- An object, with the fields it has. -/
  | object (items : Option (List Item)) (serverUrl userKey accessToken : Option Text)

/-- `unwrapVaultBundle`. -/
def unwrapVaultBundle : ParsedBundle → Bundle
  | .legacy items => ⟨items,[],none,none⟩
  | .object items serverUrl userKey accessToken => ⟨items.getD [],serverUrl.getD [],userKey,accessToken⟩

/-- Text functions of the host that the handlers apply to whole values. No
result assumes anything of them. -/
structure Host where
  /-- `JSON.stringify`, then `TextEncoder.encode`. -/
  stringify : Bundle → Bytes
  /-- `TextDecoder.decode`, then `JSON.parse`. -/
  parse : Bytes → Option ParsedBundle
  /-- `originOf`: the origin of a parsed URL. -/
  originOf : Text → Option Text

/-- The keys of `storage.session`. -/
inductive SessionKey where
  /-- Lock state. -/
  | locked
  /-- Decrypted items. -/
  | items
  /-- The user key. -/
  | userKey
  /-- Bearer token. -/
  | accessToken
  /-- Server origin. -/
  | serverUrl
  /-- Account address. -/
  | email
  /-- Data-encryption key. -/
  | dek
  /-- Tab of the web app. -/
  | webappTabId
  /-- Origin of the web app. -/
  | webappOrigin
  deriving DecidableEq

/-- `storage.session`. A missing entry and a null one are the same to every
reader. -/
structure SessionArea where
  /-- Lock state. -/
  locked : Option Bool
  /-- Decrypted items. -/
  items : Option (List Item)
  /-- The user key in base64. -/
  userKey : Option Text
  /-- Bearer token. -/
  accessToken : Option Text
  /-- Server origin. -/
  serverUrl : Option Text
  /-- Account address. -/
  email : Option Text
  /-- Data-encryption key. -/
  dek : Option Bytes
  /-- Tab of the web app. -/
  webappTabId : Option ℕ
  /-- Origin of the web app. -/
  webappOrigin : Option Text
  deriving DecidableEq

/-- One entry of a `storage.session.set`. -/
inductive SessionField where
  /-- Lock state. -/
  | locked (value : Bool)
  /-- Decrypted items. -/
  | items (value : Option (List Item))
  /-- The user key in base64. -/
  | userKey (value : Option Text)
  /-- Bearer token. -/
  | accessToken (value : Option Text)
  /-- Server origin. -/
  | serverUrl (value : Option Text)
  /-- Account address. -/
  | email (value : Option Text)
  /-- Data-encryption key. -/
  | dek (value : Option Bytes)
  /-- Tab of the web app. -/
  | webappTabId (value : Option ℕ)
  /-- Origin of the web app. -/
  | webappOrigin (value : Option Text)
  deriving DecidableEq

namespace SessionArea

/-- Nothing is stored. -/
def empty : SessionArea := ⟨none,none,none,none,none,none,none,none,none⟩

/-- `get`: the entries asked for. -/
def pick (s : SessionArea) (keys : List SessionKey) : SessionArea where
  locked := if .locked∈keys then s.locked else none
  items := if .items∈keys then s.items else none
  userKey := if .userKey∈keys then s.userKey else none
  accessToken := if .accessToken∈keys then s.accessToken else none
  serverUrl := if .serverUrl∈keys then s.serverUrl else none
  email := if .email∈keys then s.email else none
  dek := if .dek∈keys then s.dek else none
  webappTabId := if .webappTabId∈keys then s.webappTabId else none
  webappOrigin := if .webappOrigin∈keys then s.webappOrigin else none

/-- One entry of a `set`. -/
def put (s : SessionArea) : SessionField → SessionArea
  | .locked value => {s with locked := some value}
  | .items value => {s with items := value}
  | .userKey value => {s with userKey := value}
  | .accessToken value => {s with accessToken := value}
  | .serverUrl value => {s with serverUrl := value}
  | .email value => {s with email := value}
  | .dek value => {s with dek := value}
  | .webappTabId value => {s with webappTabId := value}
  | .webappOrigin value => {s with webappOrigin := value}

/-- `set`: all entries at once. -/
def set (s : SessionArea) (fields : List SessionField) : SessionArea := fields.foldl put s

end SessionArea

/-- `storage.local`, as far as the PIN is concerned. -/
structure LocalArea where
  /-- The wrapped data-encryption key. -/
  pin : Option PinBlob
  /-- The encrypted snapshot. -/
  vaultBlob : Option VaultBlob
  /-- Failed attempts. -/
  pinAttempts : Option ℕ
  deriving DecidableEq

/-- One entry of a `storage.local.set`. -/
inductive LocalField where
  /-- The wrapped key, with the PIN it was wrapped for. The PIN is a record of
  the specification and is not stored. -/
  | pin (blob : PinBlob) (setWith : Text)
  /-- The encrypted snapshot. -/
  | vaultBlob (blob : VaultBlob)
  /-- Failed attempts. -/
  | pinAttempts (used : ℕ)
  deriving DecidableEq

/-- One entry of a `set`. -/
def LocalArea.put (s : LocalArea) : LocalField → LocalArea
  | .pin blob _ => {s with pin := some blob}
  | .vaultBlob blob => {s with vaultBlob := some blob}
  | .pinAttempts used => {s with pinAttempts := some used}

/-- `set`: all entries at once. -/
def LocalArea.set (s : LocalArea) (fields : List LocalField) : LocalArea := fields.foldl put s

/-- The PIN that a write records. -/
def setWith? (fields : List LocalField) : Option Text :=
  fields.findSome? fun
    | .pin _ setWith => some setWith
    | _ => none

/-- What leaves the worker. -/
inductive Outgoing where
  /-- A request of the API. -/
  | request (method url authorization : Text) (body : Option CreateCipherRequest)
  /-- `WEBAPP_SAVE` to a tab. -/
  | relay (tabId : ℕ) (hostname username password uri : Text)
  deriving DecidableEq

/-- Everything the handlers share. -/
structure WorkerState where
  /-- `storage.session`. -/
  session : SessionArea
  /-- `storage.local`. -/
  device : LocalArea
  /-- The random source. -/
  entropy : ℕ → UInt8
  /-- Bytes drawn so far. -/
  drawn : ℕ
  /-- What left the worker, for the specification only. -/
  sent : List Outgoing
  /-- The PIN that the stored entry was written for, for the specification
  only. -/
  setWith : Option Text
  /-- Milestones of the PIN history, for the specification only. -/
  pinHistory : List PinEvent

/-- A started worker that finds these entries in `storage.local`. After an
installation the session is marked as locked, after a browser start it is
empty. -/
def WorkerState.started (locked : Option Bool) (device : LocalArea) (entropy : ℕ → UInt8) : WorkerState :=
  ⟨{SessionArea.empty with locked := locked},device,entropy,0,[],none,[]⟩

/-- The calls of the handlers. -/
inductive WorkerCall where
  /-- `storage.session.get`. -/
  | sessionGet (keys : List SessionKey)
  /-- `storage.session.set`. -/
  | sessionSet (fields : List SessionField)
  /-- `storage.session.remove(["dek"])`. -/
  | sessionRemoveDek
  /-- `storage.local.get(["pin", "vaultBlob", "pinAttempts"])`. -/
  | localGet
  /-- `storage.local.set`. -/
  | localSet (fields : List LocalField)
  /-- `storage.local.remove(["pin", "vaultBlob", "pinAttempts"])`. -/
  | localRemove
  /-- `getRandomValues`. -/
  | randomBytes (n : ℕ)
  /-- A request or a relayed message is sent. -/
  | send (message : Outgoing)
  /-- A PIN is tested, for the specification only. -/
  | tested (test : PinTest)
  /-- A PIN unlock has restored the session, for the specification only. -/
  | pinUnlocked

/-- The answer type of a call. -/
abbrev WorkerCall.Answer : WorkerCall → Type
  | .sessionGet _ => SessionArea
  | .localGet => LocalArea
  | .randomBytes _ => Bytes
  | _ => Unit

/-- The next bytes of the random source. -/
def WorkerState.random (s : WorkerState) (n : ℕ) : Bytes :=
  (List.range n).map fun i => s.entropy (s.drawn+i)

/-- `storage.local.set`, with its records. -/
def WorkerState.localSet (s : WorkerState) (fields : List LocalField) : WorkerState :=
  match setWith? fields with
  | none => {s with device := s.device.set fields}
  | some pin =>
    {s with device := s.device.set fields
            setWith := some pin
            pinHistory := s.pinHistory++[PinEvent.set]}

/-- Effect and answer of every call. -/
def exec : ∀ c : WorkerCall,WorkerState → c.Answer×WorkerState
  | .sessionGet keys,s => (s.session.pick keys,s)
  | .sessionSet fields,s => ((),{s with session := s.session.set fields})
  | .sessionRemoveDek,s => ((),{s with session := {s.session with dek := none}})
  | .localGet,s => (s.device,s)
  | .localSet fields,s => ((),s.localSet fields)
  | .localRemove,s => ((),{s with device := ⟨none,none,none⟩})
  | .randomBytes n,s => (s.random n,{s with drawn := s.drawn+n})
  | .send message,s => ((),{s with sent := s.sent++[message]})
  | .tested test,s => ((),{s with pinHistory := s.pinHistory++[PinEvent.tested test]})
  | .pinUnlocked,s => ((),{s with pinHistory := s.pinHistory++[PinEvent.unlocked]})

/-- What can arrive at an `await`. -/
inductive Settled where
  /-- Fulfilment with the value that the arguments determine. -/
  | fulfilled
  /-- Rejection of a crypto or network promise. -/
  | rejected (error : Text)
  /-- Rejection of a storage operation. -/
  | storageFailed (error : Text)
  /-- Response headers of a fetch. -/
  | response (status : ℕ)
  /-- A response body. -/
  | body (json : Json)
  /-- The address of a tab. -/
  | tab (url : Option Text)
  /-- The answer of the web app to a relayed credential. -/
  | saved (ok : Bool) (error : Option Text)

/-- A handler of the worker. A thrown value is kept as its `String` form. -/
abbrev Worker (α : Type) := Script WorkerCall WorkerCall.Answer Settled Text α

/-- One call of the worker. -/
abbrev invoke (c : WorkerCall) : Worker c.Answer := Script.perform c

end NadSafe.ExtensionWorker
