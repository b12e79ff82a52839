import NadSafe.ExtensionWorker

/-!
# Message handlers of the extension's service worker

The text of every handler that touches the session, the snapshot or the PIN.
A storage operation suspends first and takes effect when it settles, so any
other handler may run between its issue and its effect. The lock alarm sends
no message but runs the same function as `LOCK`.
-/

namespace NadSafe.ExtensionHandlers

open HostText AsyncScript AsyncScript.Script WireFormat WebCrypto
open WebClient (LoginDataResponse LoginFields CipherResponse SyncResponse Json CreateCipherRequest
  LoginData UriData PinBlob PinTest PinEvent)
open WebScripts (CIPHER_TYPE)
open WebOperations (pinKey validPin)
open ExtensionWorker

/-- `String(new Error(message))`. -/
def errorText (message : Text) : Text := "Error: ".toList++message

/-- A platform promise whose arguments determine its value; it may also be
rejected by the environment. -/
def settles {α : Type} (result : Option α) : Worker α := do
  match ← suspend with
  | .rejected error => throw error
  | _ =>
    match result with
    | some value => pure value
    | none => throw "OperationError".toList

/-- A storage operation takes effect when it settles, or is rejected and has
no effect. -/
def storage (c : WorkerCall) : Worker c.Answer := do
  match ← suspend with
  | .storageFailed error => throw error
  | _ => invoke c

/-- A synchronous function that may throw. -/
def lift {α : Type} : Except Text α → Worker α
  | .ok a => pure a
  | .error message => throw (errorText message)

/-- What a handler answers. -/
structure Reply where
  /-- Success. -/
  ok : Bool
  /-- Error text. -/
  error : Option Text
  /-- Number of items. -/
  count : Option ℕ
  /-- The PIN was removed. -/
  wiped : Bool
  /-- Attempts left. -/
  attemptsLeft : Option ℕ
  deriving DecidableEq

/-- `{ ok: true }`. -/
def Reply.succeeded : Reply := ⟨true,none,none,false,none⟩

/-- `{ ok: true, count }`. -/
def Reply.counted (count : ℕ) : Reply := ⟨true,none,some count,false,none⟩

/-- `{ ok: false, error }`. -/
def Reply.failed (error : Text) : Reply := ⟨false,some error,none,false,none⟩

section Crypto

variable (platform : Platform)

/-- `symKeyFromB64`. -/
def symKeyFromB64 (b64 : Text) : Worker SymKey :=
  match fromB64 b64 with
  | .ok bytes => lift (symKeyFromBytes bytes)
  | .error error => throw error

/-- `computeMac`. -/
def computeMac (macKey iv ct : Bytes) : Worker Bytes := do
  let key ← settles (some macKey)
  settles (some (platform.hmac key (iv++ct)))

/-- `decryptEncString`. -/
def decryptEncString (enc : EncStringParsed) (key : SymKey) : Worker Bytes := do
  let expectedMac ← computeMac platform key.macKey enc.iv enc.ct
  if constantTimeEqual expectedMac enc.mac=true then
    let encKey ← settles (some key.encKey)
    settles (platform.aesCbcDecrypt encKey enc.iv enc.ct)
  else throw (errorText "EncString: MAC verification failed — wrong key or tampered ciphertext".toList)

/-- `encryptEncString`. -/
def encryptEncString (plaintext : Text) (key : SymKey) : Worker EncStringParsed := do
  let iv ← invoke (.randomBytes 16)
  let encKey ← settles (some key.encKey)
  let ct ← settles (some (platform.aesCbcEncrypt encKey iv (utf8 plaintext)))
  let mac ← computeMac platform key.macKey iv ct
  pure ⟨iv,ct,mac⟩

/-- `decryptField`. -/
def decryptField (encString : Option Text) (key : SymKey) : Worker (Option Text) :=
  match encString with
  | none => pure none
  | some [] => pure none
  | some text => do
    let parsed ← lift (extensionParseEncString text)
    let bytes ← decryptEncString platform parsed key
    pure (some (platform.textDecode bytes))

/-- `encryptField`. -/
def encryptField (value : Text) (key : SymKey) : Worker Text := do
  let enc ← encryptEncString platform value key
  pure ("2.".toList++toB64 enc.iv++"|".toList++toB64 enc.ct++"|".toList++toB64 enc.mac)

/-- The login part of `decryptCipher`. -/
def decryptLogin (login : LoginDataResponse) (key : SymKey) : Worker LoginFields := do
  let (username,password,totp) ← both (decryptField platform login.username key)
    (both (decryptField platform login.password key) (decryptField platform login.totp key))
  let uris ← all ((login.uris.getD []).map fun u => decryptField platform (some u.uri) key)
  pure ⟨username.getD [],password.getD [],(uris.filterMap id).filter (· ≠ []),totp⟩

/-- `decryptCipher`. -/
def decryptCipher (cipher : CipherResponse) (key : SymKey) : Worker Item := do
  let name ← decryptField platform (some cipher.name) key
  let item : Item := ⟨cipher.id,CIPHER_TYPE cipher.type,name.getD "(unnamed)".toList,none⟩
  match cipher.login with
  | some login =>
    if cipher.type=1 then
      let fields ← decryptLogin platform login key
      pure {item with login := some fields}
    else pure item
  | none => pure item

/-- `derivePinKey`. -/
def derivePinKey (pin : Text) (salt : Bytes) (iterations : ℕ) : Worker Bytes := do
  let base ← settles (some (utf8 pin))
  settles (some (platform.pbkdf2 base salt iterations))

/-- `importDek`. -/
def importDek (raw : Bytes) : Worker Bytes := settles (some raw)

/-- `aesEncrypt`. -/
def aesEncrypt (key plaintext : Bytes) : Worker VaultBlob := do
  let iv ← invoke (.randomBytes 12)
  let ct ← settles (some (platform.aesGcmEncrypt key iv plaintext))
  pure ⟨iv,ct⟩

/-- `aesDecrypt`. -/
def aesDecrypt (key iv data : Bytes) : Worker Bytes := settles (platform.aesGcmDecrypt key iv data)

end Crypto

/-- `PIN_ITERATIONS`. -/
def PIN_ITERATIONS : ℕ := 600000

/-- `PIN_MAX_ATTEMPTS`. -/
def PIN_MAX_ATTEMPTS : ℕ := 5

section Handlers

variable (platform : Platform) (host : Host)

/-- The entries that `lockVault` writes. -/
def lockFields : List SessionField :=
  [.locked true,.items none,.dek none,.accessToken none,.userKey none]

/-- `lockVault`. -/
def lockVault : Worker Unit := storage (.sessionSet lockFields)

/-- The snapshot of a session with these items. -/
def bundleOf (session : SessionArea) (items : Option (List Item)) : Bundle :=
  ⟨items.getD [],session.serverUrl.getD [],session.userKey,session.accessToken⟩

/-- `refreshVaultBlob`. -/
def refreshVaultBlob (items : Option (List Item)) : Worker Unit := do
  let s ← storage (.sessionGet [.dek,.serverUrl,.userKey,.accessToken])
  match s.dek with
  | none => pure ()
  | some dek =>
    let dekKey ← importDek dek
    let vaultBlob ← aesEncrypt platform dekKey (host.stringify (bundleOf s items))
    storage (.localSet [.vaultBlob vaultBlob])

/-- The loop of `handleSync`: an item that does not decrypt is skipped. -/
def decryptAll (key : SymKey) : List CipherResponse → Worker (List Item)
  | [] => pure []
  | c::ciphers => do
    let item ← tryCatch
      (do
        let item ← decryptCipher platform c key
        pure [item])
      fun _ => pure []
    let items ← decryptAll key ciphers
    pure (item++items)

/-- A falsy text. -/
def missing (text : Option Text) : Bool := text.getD []==[]

/-- `Bearer` and the token. -/
def bearer (session : SessionArea) : Text := "Bearer ".toList++session.accessToken.getD []

/-- A fetch: the request leaves and the headers arrive. -/
def fetch (message : Outgoing) : Worker ℕ := do
  invoke (.send message)
  match ← suspend with
  | .rejected error => throw error
  | .response status => pure status
  | _ => throw "TypeError: Failed to fetch".toList

/-- `res.json()`. -/
def readJson : Worker Json := do
  match ← suspend with
  | .rejected error => throw error
  | .body json => pure json
  | _ => pure .empty

/-- `data.ciphers`; a null answer has no properties, any other answer without
the property counts as empty. -/
def ciphersOf : Json → Worker (List CipherResponse)
  | .empty => throw "TypeError: Cannot read properties of null (reading 'ciphers')".toList
  | .sync data => pure (data.ciphers.getD [])
  | _ => pure []

/-- The guarded part of `handleSync`. -/
def syncWith (session : SessionArea) : Worker Reply := do
  let status ← fetch (.request "GET".toList
    (session.serverUrl.getD []++"/api/sync?excludeDomains=true".toList) (bearer session) none)
  if status=401 then pure (.failed "NadSafe session expired — open NadSafe to refresh".toList)
  else if 200≤ status ∧ status<300 then
    let data ← readJson
    let key ← symKeyFromB64 (session.userKey.getD [])
    let ciphers ← ciphersOf data
    let items ← decryptAll platform key (ciphers.filter fun c => c.deletedDate.getD []=[])
    storage (.sessionSet [.items (some items)])
    refreshVaultBlob platform host (some items)
    pure (.counted items.length)
  else throw (errorText ("Sync HTTP ".toList++(Nat.repr status).toList))

/-- `handleSync`. -/
def handleSync : Worker Reply := do
  let session ← storage (.sessionGet [.locked,.accessToken,.serverUrl,.userKey])
  if session.locked=some true ∨ missing session.accessToken=true ∨ missing session.userKey=true then
    pure (.failed "Vault locked".toList)
  else tryCatch (syncWith platform host session) fun error => pure (.failed error)

/-- `handleUnlock`. -/
def handleUnlock (email serverUrl userKey accessToken : Option Text) : Worker Reply :=
  if missing accessToken=true ∨ missing userKey=true then
    pure (.failed "Missing session key or token — open NadSafe and unlock first".toList)
  else do
    storage (.sessionSet [.locked false,.accessToken accessToken,.serverUrl (some (serverUrl.getD [])),
      .email email,.userKey userKey])
    let _ ← tryCatch (handleSync platform host) fun error => pure (.failed error)
    pure .succeeded

/-- `STORE_ITEMS`. Neither the write nor the refresh is awaited, so a rejected
write does not stop the refresh. An undefined list is not stored. -/
def storeItems (items : Option (List Item)) (tabId : Option ℕ) (origin : Option Text) :
    Worker Reply := do
  let pushed := match items with
    | some list => [.items (some list)]
    | none => []
  tryCatch
    (storage (.sessionSet (pushed++[SessionField.locked false,.webappTabId tabId,.webappOrigin origin])))
    fun _ => pure ()
  refreshVaultBlob platform host items
  pure (.counted (items.getD []).length)

/-- The request that creates a login. -/
def createRequest (name : Text) (username : Option Text) (password uri : Text) : CreateCipherRequest :=
  ⟨1,name,none,none,none,[],false,0,some ⟨username,some password,none,[⟨uri,none⟩]⟩,none,none⟩

/-- An optional field is encrypted only when it is there. -/
def encryptOptional (value : Text) (key : SymKey) : Worker (Option Text) :=
  match value with
  | [] => pure none
  | value => do
    let text ← encryptField platform value key
    pure (some text)

/-- The new item enters the session; a failure is left to the next sync. -/
def reflect (session : SessionArea) (created : Json) (key : SymKey) : Worker Unit :=
  tryCatch
    (do
      match created with
      | .cipher created =>
        let newItem ← decryptCipher platform created key
        let items := session.items.getD []++[newItem]
        storage (.sessionSet [.items (some items)])
        refreshVaultBlob platform host (some items)
      | _ => throw "TypeError".toList)
    fun _ => pure ()

/-- `saveCredentialStandalone`. -/
def saveCredentialStandalone (session : SessionArea) (hostname username password : Text) :
    Worker Reply :=
  tryCatch
    (do
      let key ← symKeyFromB64 (session.userKey.getD [])
      let uri := "https://".toList++hostname
      let (encName,encUser,encPass,encUri) ←
        both (encryptField platform (if hostname=[] then uri else hostname) key)
          (both (encryptOptional platform username key)
            (both (encryptField platform password key) (encryptField platform uri key)))
      let status ← fetch (.request "POST".toList (session.serverUrl.getD []++"/api/ciphers".toList)
        (bearer session) (some (createRequest encName encUser encPass encUri)))
      if status=401 then
        pure (.failed "NadSafe session expired — open NadSafe to refresh, then click Add again".toList)
      else if 200≤ status ∧ status<300 then
        let created ← readJson
        reflect platform host session created key
        pure .succeeded
      else pure (.failed ("Save HTTP ".toList++(Nat.repr status).toList)))
    fun error => pure (.failed error)

/-- `relayToWebapp`. -/
def relayToWebapp (session : SessionArea) (hostname username password : Text) : Worker Reply :=
  match session.webappTabId,session.webappOrigin with
  | some tabId,some (c::expectedOrigin) => do
    match ← suspend with
    | .rejected _ => pure (.failed "NadSafe tab closed — reopen it and push again".toList)
    | .tab (some url) =>
      if host.originOf url=some (c::expectedOrigin) then
        invoke (.send (.relay tabId hostname username password ("https://".toList++hostname)))
        match ← suspend with
        | .saved true _ => pure .succeeded
        | .saved false error => pure (.failed (error.getD "NadSafe web app could not save".toList))
        | .rejected _ => pure (.failed "NadSafe tab not reachable — reopen it and push again".toList)
        | _ => pure (.failed "NadSafe web app could not save".toList)
      else pure (.failed "NadSafe tab navigated away — reopen it and push again".toList)
    | _ => pure (.failed "NadSafe tab navigated away — reopen it and push again".toList)
  | _,_ => pure (.failed "Open NadSafe and click \"Push to extension\" first".toList)

/-- `handleSaveCredential`. -/
def handleSaveCredential (hostname username password : Text) : Worker Reply := do
  let session ← storage (.sessionGet
    [.locked,.userKey,.accessToken,.serverUrl,.items,.webappTabId,.webappOrigin])
  if session.locked=some true then pure (.failed "Vault locked".toList)
  else if missing session.userKey=true ∨ missing session.accessToken=true then
    relayToWebapp host session hostname username password
  else
    let direct ← saveCredentialStandalone platform host session hostname username password
    if direct.ok=true ∨ session.webappTabId=none then pure direct
    else relayToWebapp host session hostname username password

/-- The data-encryption key of a new PIN: the one in memory, or a fresh one. -/
def chooseDek : Option Bytes → Worker Bytes
  | some dek => pure dek
  | none => invoke (.randomBytes 32)

/-- The entries that `handleSetPin` writes. -/
def pinFields (pin : Text) (salt : Bytes) (wrap vaultBlob : VaultBlob) : List LocalField :=
  [.pin ⟨salt,wrap.iv,wrap.data,PIN_ITERATIONS,pin.length⟩ pin,.vaultBlob vaultBlob,.pinAttempts 0]

/-- `handleSetPin`. -/
def handleSetPin (pin : Text) : Worker Reply :=
  if validPin pin=true then do
    let session ← storage (.sessionGet [.locked,.items,.dek,.serverUrl,.userKey,.accessToken])
    if session.locked=some true then
      pure (.failed "Unlock the vault before setting a PIN".toList)
    else
      let dekArr ← chooseDek session.dek
      let dekKey ← importDek dekArr
      let vaultBlob ← aesEncrypt platform dekKey (host.stringify (bundleOf session session.items))
      let salt ← invoke (.randomBytes 16)
      let pinKey ← derivePinKey platform pin salt PIN_ITERATIONS
      let wrap ← aesEncrypt platform pinKey dekArr
      storage (.localSet (pinFields pin salt wrap vaultBlob))
      storage (.sessionSet [.dek (some dekArr)])
      pure .succeeded
  else pure (.failed "PIN must be 4 or 6 digits".toList)

/-- The entries that restore a session. -/
def restoreFields (bundle : Bundle) (dek : Bytes) : List SessionField :=
  [.locked false,.items (some bundle.items),.serverUrl (some bundle.serverUrl),.userKey bundle.userKey,
    .accessToken bundle.accessToken,.dek (some dek)]

/-- The guarded part of `handleUnlockPin`. The sync that it starts in the
background is an operation of its own here, which may start at any time. -/
def openVault (pin : Text) (entry : PinBlob) (vaultBlob : VaultBlob) : Worker Reply := do
  let pinKey ← derivePinKey platform pin entry.salt entry.iterations
  let opened := platform.aesGcmDecrypt pinKey entry.iv entry.wrapped
  invoke (.tested ⟨entry,pin,opened.isNone⟩)
  let dek ← settles opened
  let dekKey ← importDek dek
  let blobBytes ← aesDecrypt platform dekKey vaultBlob.iv vaultBlob.data
  match host.parse blobBytes with
  | none => throw "SyntaxError".toList
  | some parsed =>
    storage (.sessionSet (restoreFields (unwrapVaultBundle parsed) dek))
    invoke .pinUnlocked
    storage (.localSet [.pinAttempts 0])
    pure .succeeded

/-- The failure branch of `handleUnlockPin`, from the attempts read at its
start. -/
def pinFailure (attempts : ℕ) : Worker Reply :=
  let used := attempts+1
  if PIN_MAX_ATTEMPTS≤used then do
    storage .localRemove
    pure ⟨false,some "Too many attempts — PIN cleared. Re-sync from the NadSafe web app.".toList,none,
      true,none⟩
  else do
    let left := PIN_MAX_ATTEMPTS-used
    storage (.localSet [.pinAttempts used])
    pure ⟨false,some ("Wrong PIN — ".toList++(Nat.repr left).toList++" attempt".toList++
      (if left=1 then [] else "s".toList)++" left".toList),none,false,some left⟩

/-- `handleUnlockPin`. The attempts are read before the derivation. -/
def handleUnlockPin (pin : Text) : Worker Reply := do
  let device ← storage .localGet
  match device.pin,device.vaultBlob with
  | some entry,some vaultBlob =>
    tryCatch (openVault platform host pin entry vaultBlob) fun _ => pinFailure (device.pinAttempts.getD 0)
  | _,_ => pure (.failed "No PIN set on this device".toList)

/-- `handleRemovePin`. -/
def handleRemovePin : Worker Reply := do
  storage .localRemove
  storage .sessionRemoveDek
  pure .succeeded

end Handlers

/-- What the worker is asked to do. -/
inductive WorkerOp where
  /-- `UNLOCK`. -/
  | unlock (email serverUrl userKey accessToken : Option Text)
  /-- `LOCK`, or the lock alarm. -/
  | lock
  /-- `SYNC`. -/
  | sync
  /-- `STORE_ITEMS`, with the tab and origin of its sender. -/
  | storeItems (items : Option (List Item)) (tabId : Option ℕ) (origin : Option Text)
  /-- `SAVE_CREDENTIAL`. -/
  | saveCredential (hostname username password : Text)
  /-- `SET_PIN`. -/
  | setPin (pin : Text)
  /-- `UNLOCK_PIN`. -/
  | unlockPin (pin : Text)
  /-- `REMOVE_PIN`. -/
  | removePin

/-- The dispatcher answers a rejection with its text. -/
def answered (handler : Worker Reply) : Worker Reply :=
  tryCatch handler fun error => pure (.failed error)

/-- The text of every operation. -/
def body (platform : Platform) (host : Host) : WorkerOp → Worker Reply
  | .unlock email serverUrl userKey accessToken =>
    answered (handleUnlock platform host email serverUrl userKey accessToken)
  | .lock => do
    lockVault
    pure .succeeded
  | .sync => handleSync platform host
  | .storeItems items tabId origin => storeItems platform host items tabId origin
  | .saveCredential hostname username password =>
    answered (handleSaveCredential platform host hostname username password)
  | .setPin pin => answered (handleSetPin platform host pin)
  | .unlockPin pin => answered (handleUnlockPin platform host pin)
  | .removePin => handleRemovePin

/-- The worker as a system of interleaved handlers. -/
def worker (platform : Platform) (host : Host) :
    ScriptPool.System WorkerCall WorkerCall.Answer Settled Text Reply WorkerState WorkerOp :=
  ⟨exec,body platform host⟩

/-- A pool of handlers. -/
abbrev WorkerPool := ScriptPool.Pool WorkerCall WorkerCall.Answer Settled Text Reply WorkerState WorkerOp

/-- An event of the worker. -/
abbrev WorkerEvent := ScriptPool.Event WorkerOp Settled

end NadSafe.ExtensionHandlers
