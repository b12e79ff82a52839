import NadSafe.WebScripts
import Mathlib.Data.List.Infix

/-!
# Operations of the web client

The event handlers and functions that a tab runs: import, item editing,
extension saves, sync, both unlock forms, session adoption, the password
change, the PIN functions, lock and sign-out. Every operation answers with
the message it shows or replies, if any. Values that a component takes from
the auth store at render time are read when its handler starts. Sign-in
stands beside the operations of a signed-in tab; the generic importers and
the boot sequence are left out.
-/

namespace NadSafe.WebOperations

open HostText AsyncScript AsyncScript.Script WireFormat WebCrypto WebClient WebScripts

/-- `lockVault`. -/
def lockVault : Web Unit := do
  invoke .clearSessionKey
  invoke .clearVault
  invoke .lock

/-- `logoutAndClear`. -/
def logoutAndClear : Web Unit := do
  invoke .clearSessionKey
  invoke .clearVault
  invoke .logout

/-- The guard of every operation on the user key: take the live session key,
or answer that the vault is locked. -/
def withSessionKey (locked : Text) (task : KeyRef → Web (Option Text)) : Web (Option Text) := do
  match ← invoke .getSessionUserKey with
  | none => pure (some locked)
  | some userKey => task userKey

section Items

variable (platform : Platform)

/-- An address of an exported login. -/
structure ExportUri where
  /-- The address. -/
  uri : Option Text
  /-- Match rule. -/
  match_ : Option ℕ

/-- The login of an exported item. -/
structure ExportLogin where
  /-- User name. -/
  username : Option Text
  /-- Password. -/
  password : Option Text
  /-- One-time-password secret. -/
  totp : Option Text
  /-- Addresses. -/
  uris : Option (List ExportUri)

/-- `BitwardenExportItem`. -/
structure BitwardenExportItem where
  /-- Numeric item kind. -/
  type : ℕ
  /-- Name. -/
  name : Text
  /-- Notes. -/
  notes : Option Text
  /-- Favourite flag. -/
  favorite : Option Bool
  /-- Login. -/
  login : Option ExportLogin
  /-- Card. -/
  card : Option (CardFields (Option Text))

/-- `BitwardenExport`. -/
structure BitwardenExport where
  /-- Whether the export is encrypted. -/
  encrypted : Bool
  /-- Items. -/
  items : Option (List BitwardenExportItem)

/-- `ImportResult`. -/
structure ImportResult where
  /-- Created items. -/
  imported : ℕ
  /-- Failed items. -/
  failed : ℕ
  /-- One line for each failed item. -/
  errors : List Text

/-- The closure `enc` of `encryptItem`: a missing value stays missing. -/
def enc (value : Option Text) (key : KeyRef) : Web (Option Text) :=
  match value with
  | none => pure none
  | some value => do
    let text ← encryptField platform value key
    pure (some text)

/-- The login branch of `encryptItem`. -/
def encryptLogin (login : ExportLogin) (key : KeyRef) : Web LoginData := do
  let uris := login.uris.getD []
  let (username,password,totp,uriEncs) ← both (enc platform login.username key)
    (both (enc platform login.password key)
      (both (enc platform login.totp key) (all (uris.map fun u => enc platform u.uri key))))
  pure ⟨username,password,totp,(uris.zip uriEncs).map fun p => ⟨p.2.getD [],p.1.match_⟩⟩

/-- The card branches of `encryptItem` and of the item form, over the way
one field is encrypted. -/
def encryptCard {α : Type} (field : α → Web (Option Text)) (card : CardFields α) :
    Web (CardFields (Option Text)) := do
  let (cardholderName,brand,number,expMonth,expYear,code) ← both (field card.cardholderName)
    (both (field card.brand) (both (field card.number) (both (field card.expMonth)
      (both (field card.expYear) (field card.code)))))
  pure ⟨cardholderName,brand,number,expMonth,expYear,code⟩

/-- `encryptItem`. -/
def encryptItem (item : BitwardenExportItem) (key : KeyRef) : Web CreateCipherRequest := do
  let (encName,encNotes) ← both
    (encryptField platform (if item.name=[] then "(unnamed)".toList else item.name) key)
    (enc platform item.notes key)
  let login ← ofKind item.type 1 item.login fun login => encryptLogin platform login key
  let card ← ofKind item.type 3 item.card (encryptCard fun value => enc platform value key)
  pure ⟨item.type,encName,encNotes,none,none,[],item.favorite.getD false,0,login,
    if item.type=2 then some 0 else none,card⟩

/-- The loop of `importBitwardenJson` from index `i` on. A failed item is
counted and the loop continues; every tenth item waits. -/
def importItems (client : ℕ) (userKey : KeyRef) :
    ℕ → List BitwardenExportItem → ImportResult → Web ImportResult
  | _,[],result => pure result
  | i,item::items,result => do
    let result ← tryCatch
      (do
        let payload ← encryptItem platform item userKey
        let _ ← createCipher client payload (issuedKey userKey)
        pure ⟨result.imported+1,result.failed,result.errors⟩)
      fun message => pure ⟨result.imported,result.failed+1,
        result.errors++["\"".toList++item.name++"\": ".toList++message]⟩
    if i%10=9 then
      let _ ← suspend
      importItems client userKey (i+1) items result
    else importItems client userKey (i+1) items result

/-- `importBitwardenJson` on the parsed file; unreadable JSON is `none`. -/
def importBitwardenJson (json : Option BitwardenExport) (client : ℕ) (userKey : KeyRef) :
    Web ImportResult :=
  match json with
  | none => throw "Invalid JSON file".toList
  | some data =>
    if data.encrypted=true then
      throw "Encrypted Bitwarden exports are not supported — export as unencrypted JSON".toList
    else importItems platform client userKey 0 (data.items.getD []) ⟨0,0,[]⟩

/-- The import page after its guard: read the file, then import it. -/
def importWith (json : Option BitwardenExport) (userKey : KeyRef) : Web (Option Text) :=
  tryCatch
    (do
      settles (some ())
      let client ← getApiClient
      let _ ← importBitwardenJson platform json client userKey
      pure none)
    fun message => pure (some message)

/-- The import page on a file in Bitwarden format. -/
def handleFile (json : Option BitwardenExport) : Web (Option Text) :=
  withSessionKey "Vault locked — unlock before importing".toList (importWith platform json)

/-- The fields of the item form. -/
structure ItemForm where
  /-- The edited item. -/
  item : Option VaultItem
  /-- Selected kind. -/
  type : ItemType
  /-- Name. -/
  name : Text
  /-- Selected folder. -/
  folderId : Text
  /-- Favourite flag. -/
  favorite : Bool
  /-- User name. -/
  username : Text
  /-- Password. -/
  password : Text
  /-- Address. -/
  url : Text
  /-- One-time-password secret. -/
  totpSecret : Text
  /-- Notes. -/
  noteContent : Text
  /-- Card fields. -/
  card : CardFields Text

/-- `TYPE_NUMBERS`. -/
def TYPE_NUMBERS : ItemType → ℕ
  | .login => 1
  | .note => 2
  | .card => 3
  | .identity => 4

/-- `value ? encryptField(value, userKey) : null`. -/
def encNonempty (value : Text) (userKey : KeyRef) : Web (Option Text) :=
  if value=[] then pure none else enc platform (some value) userKey

/-- The login branch of the item form. -/
def formLogin (form : ItemForm) (userKey : KeyRef) : Web LoginData := do
  let (encUser,encPass,encUrl,encTotp) ← both (encNonempty platform form.username userKey)
    (both (encNonempty platform form.password userKey)
      (both (encNonempty platform form.url userKey) (encNonempty platform form.totpSecret userKey)))
  pure ⟨encUser,encPass,encTotp,(encUrl.map fun uri => UriData.mk uri none).toList⟩

/-- The payload of the item form. -/
def formPayload (form : ItemForm) (userKey : KeyRef) : Web CreateCipherRequest := do
  let encName ← encryptField platform form.name userKey
  let type := TYPE_NUMBERS form.type
  let loginData ← ofKind type 1 (some form) fun form => formLogin platform form userKey
  let cardData ← ofKind type 3 (some form.card)
    (encryptCard fun value => encNonempty platform value userKey)
  let encNotes ← encNonempty platform form.noteContent userKey
  pure ⟨type,encName,encNotes,if form.folderId=[] then none else some form.folderId,
    form.item.bind VaultItem.organizationId,(form.item.map VaultItem.collectionIds).getD [],
    form.favorite,0,loginData,if form.type=.note then some 0 else none,cardData⟩

/-- The item form after its guard. -/
def saveWith (form : ItemForm) (userKey : KeyRef) : Web (Option Text) :=
  tryCatch
    (do
      let client ← getApiClient
      let payload ← formPayload platform form userKey
      match form.item with
      | some item => do
        let _ ← updateCipher client item.id payload (issuedKey userKey)
        pure none
      | none => do
        let _ ← createCipher client payload (issuedKey userKey)
        pure none)
    fun message => pure (some message)

/-- `handleSubmit` of the item form. -/
def handleSubmit (form : ItemForm) : Web (Option Text) :=
  withSessionKey "Vault is locked".toList (saveWith platform form)

/-- The payload of an accepted `SAVE_REQUEST`. -/
structure SaveRequest where
  /-- Host name of the page. -/
  hostname : Option Text
  /-- User name. -/
  username : Option Text
  /-- Password. -/
  password : Option Text
  /-- Address of the page. -/
  uri : Option Text

/-- `hostname || uri || "Untitled login"`. -/
def SaveRequest.title (payload : SaveRequest) : Text :=
  let hostname := payload.hostname.getD []
  let uri := payload.uri.getD []
  if hostname≠[] then hostname else if uri≠[] then uri else "Untitled login".toList

/-- The four concurrent encryptions of a save request and its request body. -/
def savePayload (payload : SaveRequest) (userKey : KeyRef) : Web CreateCipherRequest := do
  let (encName,encUser,encPass,encUri) ← both (encryptField platform payload.title userKey)
    (both (encNonempty platform (payload.username.getD []) userKey)
      (both (encryptField platform (payload.password.getD []) userKey)
        (encNonempty platform (payload.uri.getD []) userKey)))
  pure ⟨1,encName,none,none,none,[],false,0,
    some ⟨encUser,some encPass,none,(encUri.map fun uri => UriData.mk uri none).toList⟩,none,none⟩

/-- The extension-save listener after its guard. -/
def relayWith (payload : SaveRequest) (userKey : KeyRef) : Web (Option Text) :=
  if payload.password.getD []=[] then pure (some "No password to save".toList)
  else do
    let client ← getApiClient
    let request ← savePayload platform payload userKey
    match ← createCipher client request (issuedKey userKey) with
    | .cipher created => do
      let newItem ← decryptCipher platform created userKey
      let store ← invoke .vaultState
      invoke (.setItems (store.items++[newItem]))
      pure none
    | _ => typeError

/-- `handleMessage` of the extension-save listener. The answer is the error
of the reply. -/
def handleMessage (payload : SaveRequest) : Web (Option Text) :=
  tryCatch
    (withSessionKey "NadSafe is locked — unlock the web app, then try again".toList
      (relayWith platform payload))
    fun message => pure (some message)

/-- The batches of twenty that `doSync` decrypts; an item that fails is
skipped. The fuel is the number of items. -/
def decryptBatches (userKey : KeyRef) : ℕ → List CipherResponse → List VaultItem → Web (List VaultItem)
  | 0,_,decrypted => pure decrypted
  | _+1,[],decrypted => pure decrypted
  | n+1,ciphers,decrypted => do
    let results ← all ((ciphers.take 20).map fun c =>
      tryCatch (do
        let item ← decryptCipher platform c userKey
        pure (some item)) fun _ => pure none)
    decryptBatches userKey n (ciphers.drop 20) (decrypted++results.filterMap id)

/-- `doSync` after its guard. All store writes follow the last suspension. -/
def syncWith (userKey : KeyRef) : Web (Option Text) :=
  tryCatch
    (do
      let client ← getApiClient
      let data ← sync client
      let ciphers := (data.ciphers.getD []).filter fun c => (c.deletedDate.getD [])=[]
      let decrypted ← decryptBatches platform userKey ciphers.length ciphers []
      let folders ← all ((data.folders.getD []).map fun f => do
        let name ← decryptField platform (some f.name) userKey
        pure (Folder.mk f.id (name.getD "(folder)".toList)))
      let collections ← all ((data.collections.getD []).map fun c => do
        let name ← decryptField platform (some c.name) userKey
        pure {c with name := name.getD "(collection)".toList})
      invoke (.setItems decrypted)
      invoke (.setFolders folders)
      invoke (.setCollections collections)
      pure none)
    fun message => pure (some message)

/-- `doSync`. -/
def doSync : Web (Option Text) :=
  withSessionKey "Vault locked — cannot sync".toList (syncWith platform)

end Items

section Unlocking

variable (platform : Platform)

/-- The RSA key of `completeUnlock`. A failure is not fatal. -/
def restoreRsaKey (encryptedPrivateKey : Text) (cell : ℕ) (issued : SymKey) : Web Unit :=
  if '|'∈encryptedPrivateKey then
    tryCatch
      (do
        let rsaKey ← decryptRsaPrivateKey platform encryptedPrivateKey (.live cell issued)
        invoke (.setSessionRsaKey rsaKey))
      fun _ => pure ()
  else pure ()

/-- `completeUnlock` with the page's store values. -/
def completeUnlock (page : AuthState) (userKey : SymKey) : Web Unit := do
  let client ← invoke (.initApiClient page.serverUrl)
  let storedRefreshToken := page.refreshToken.getD []
  if storedRefreshToken=[] then throw "No refresh token — please sign in again".toList
  else
    let deviceId ← invoke .getOrCreateDeviceId
    let accessToken ← refreshToken client storedRefreshToken deviceId
    invoke (.setToken client accessToken)
    let cell ← invoke (.setSessionUserKey userKey)
    restoreRsaKey platform (page.encryptedPrivateKey.getD []) cell userKey
    invoke (.unlock accessToken)

/-- `handleSubmit` of the unlock page. -/
def unlockWithPassword (password : Text) : Web (Option Text) := do
  let page ← invoke .authState
  match page.user with
  | none => pure none
  | some user =>
    tryCatch
      (do
        let keys ← deriveLoginKeys platform password user.email user.params
        let encryptedUserKey := page.encryptedUserKey.getD []
        if encryptedUserKey=[] then throw "No vault key on file — please sign in again".toList
        else
          let userKey ← unwrapUserKey platform encryptedUserKey keys.stretchedKey
          completeUnlock platform page userKey
          pure none)
      fun message =>
        pure (some (if "MAC".toList <:+: message then "Incorrect master password".toList
          else message))

/-- `serverKdfToParams`: the server counts memory in MiB. -/
def serverKdfToParams (res : PreloginResponse) : KdfParams :=
  if res.kdf=1 then
    .argon2id (res.kdfMemory.getD 64*1024) res.kdfIterations (res.kdfParallelism.getD 4)
  else .pbkdf2 res.kdfIterations

/-- The account record that a sign-in stores. -/
def signedInUser (email : Text) : KdfParams → AuthUser
  | .argon2id mCost tCost pCost => ⟨email,.argon2id,⟨some mCost,some tCost,some pCost,none⟩⟩
  | .pbkdf2 iterations => ⟨email,.pbkdf2,⟨none,none,none,some iterations⟩⟩

/-- `PendingLogin`: key material kept over a second-factor challenge. -/
structure PendingLogin where
  /-- Server address. -/
  cleanUrl : Text
  /-- Address of the account. -/
  email : Text
  /-- The hash sent to the server. -/
  authHash : Bytes
  /-- The stretched key, both halves. -/
  stretchedKey : SymKey
  /-- Derivation parameters. -/
  kdfParams : KdfParams

/-- The kept key material, if it is for this call. -/
def reusable (pending : Option PendingLogin) (twoFactorToken : Option Text) (cleanUrl email : Text) :
    Option PendingLogin :=
  pending.filter fun p =>
    decide (twoFactorToken.getD []≠[]) && decide (p.cleanUrl=cleanUrl) && decide (p.email=email)

/-- The key material of a sign-in: kept from the last call, or derived. -/
def loginKeys (client : ℕ) (cleanUrl email password : Text) : Option PendingLogin → Web PendingLogin
  | some pending => pure pending
  | none => do
    let preloginRes ← prelogin client email
    let kdfParams := serverKdfToParams preloginRes
    let keys ← deriveLoginKeys platform password email kdfParams
    pure ⟨cleanUrl,email,keys.authHash,keys.stretchedKey,kdfParams⟩

/-- `doLogin`, with the key material kept from the last call. -/
def doLogin (serverUrl email password : Text) (twoFactorToken : Option Text)
    (pending : Option PendingLogin) : Web (Option Text) :=
  let cleanUrl := stripSlash serverUrl
  tryCatch
    (do
      invoke (.setServerUrl cleanUrl)
      let client ← invoke (.initApiClient cleanUrl)
      let keys ← loginKeys platform client cleanUrl email password
        (reusable pending twoFactorToken cleanUrl email)
      let deviceId ← invoke .getOrCreateDeviceId
      let tokenRes ← loginWithPassword client email keys.authHash deviceId twoFactorToken
      invoke (.setToken client tokenRes.accessToken)
      let encUserKey := tokenRes.key.getD []
      if encUserKey=[] then throw "Server did not return vault key".toList
      else
        let userKey ← unwrapUserKey platform encUserKey keys.stretchedKey
        let cell ← invoke (.setSessionUserKey userKey)
        restoreRsaKey platform (tokenRes.privateKey.getD []) cell userKey
        invoke (.login (signedInUser email keys.kdfParams) tokenRes.accessToken tokenRes.refreshToken
          encUserKey tokenRes.privateKey)
        pure none)
    fun message => pure (some message)

/-- `if (p.rsaKey) setSessionRsaKey(p.rsaKey)`. -/
def adoptRsaKey : Option Bytes → Web Unit
  | some rsaKey => invoke (.setSessionRsaKey rsaKey)
  | none => pure ()

/-- `adopt`. -/
def adopt (p : SessionPayload) : Web Unit := do
  let _ ← invoke (.setSessionUserKey p.key)
  adoptRsaKey p.rsaKey
  let client ← invoke (.initApiClient p.serverUrl)
  invoke (.setToken client p.accessToken)
  invoke (.unlock p.accessToken)

/-- `adoptSessionFromOtherTab`: an answer or the timeout arrives. -/
def adoptSessionFromOtherTab : Web Bool := do
  match ← suspend with
  | .keyResponse payload => do
    adopt payload
    pure true
  | _ => pure false

end Unlocking

section Wrapping

variable (platform : Platform)

/-- The score of `passwordStrength`. -/
def passwordStrength (pw : Text) : ℕ :=
  (if 12≤jsLength pw then 1 else 0)+(if 20≤jsLength pw then 1 else 0)+
    (if pw.any Char.isUpper then 1 else 0)+(if pw.any Char.isDigit then 1 else 0)+
    (if pw.any fun c => !c.isAlphanum then 1 else 0)

/-- The master-password form after its guards. The key bytes are read after
both derivations. -/
def changeWith (user : AuthUser) (currentPw newPw : Text) (userKey : KeyRef) : Web (Option Text) :=
  tryCatch
    (do
      let old ← deriveLoginKeys platform currentPw user.email user.params
      let new ← deriveLoginKeys platform newPw user.email user.params
      let encBytes ← readEncKey userKey
      let macBytes ← readMacKey userKey
      let newEncryptedUserKey ← wrapUserKey platform (encBytes++macBytes) new.stretchedKey
      let client ← getApiClient
      let _ ← changePassword client
        ⟨toB64 old.authHash,toB64 new.authHash,newEncryptedUserKey⟩
        (issuedKey userKey) new.stretchedKey
      invoke (.setEncryptedUserKey newEncryptedUserKey (issuedKey userKey) new.stretchedKey)
      pure none)
    fun message => pure (some message)

/-- The guards of the master-password form on the store values of its page. -/
def changeFrom (page : AuthState) (currentPw newPw confirmPw : Text) : Web (Option Text) :=
  if newPw≠confirmPw then pure (some "New passwords do not match".toList)
  else if passwordStrength newPw<2 then
    pure (some "New password is too weak — add length, mixed case, numbers or symbols".toList)
  else
    match page.user with
    | none => pure (some "Account data missing — re-login required".toList)
    | some user =>
      if user.email=[] ∨ page.encryptedUserKey.getD []=[] then
        pure (some "Account data missing — re-login required".toList)
      else
        withSessionKey "Vault is locked — unlock first".toList (changeWith platform user currentPw newPw)

/-- `handleSubmit` of the master-password form. -/
def changeMasterPassword (currentPw newPw confirmPw : Text) : Web (Option Text) := do
  let page ← invoke .authState
  changeFrom platform page currentPw newPw confirmPw

/-- Iterations of new PIN entries. -/
def ITERATIONS : ℕ := 600000

/-- Failed attempts that clear the PIN. -/
def MAX_ATTEMPTS : ℕ := 5

/-- The key that a PIN and an entry determine. -/
def pinKey (pin : Text) (salt : Bytes) (iterations : ℕ) : Bytes :=
  platform.pbkdf2 (utf8 pin) salt iterations

/-- `derivePinKey`. -/
def derivePinKey (pin : Text) (salt : Bytes) (iterations : ℕ) : Web Bytes := do
  settles (some ())
  settles (some (pinKey platform pin salt iterations))

/-- `/^(\d{4}|\d{6})$/`. -/
def validPin (pin : Text) : Bool :=
  (pin.length==4 || pin.length==6) && pin.all Char.isDigit

/-- `removePin`. -/
def removePin : Web Unit := do
  invoke .removePinBlob
  invoke .removePinAttempts

/-- `setPin`. The key bytes are read after the derivation. -/
def setPin (pin : Text) (userKey : KeyRef) : Web Unit := do
  if validPin pin=true then
    let salt ← invoke (.randomBytes 16)
    let iv ← invoke (.randomBytes 12)
    let key ← derivePinKey platform pin salt ITERATIONS
    let encBytes ← readEncKey userKey
    let macBytes ← readMacKey userKey
    let wrapped ← settles (some (platform.aesGcmEncrypt key iv (encBytes++macBytes)))
    invoke .removePinAttempts
    invoke (.setPinBlob ⟨salt,iv,wrapped,ITERATIONS,pin.length⟩ pin (issuedKey userKey))
  else throw "PIN must be 4 or 6 digits".toList

/-- The PIN dialog after its guards. -/
def pinWith (value : Text) (userKey : KeyRef) : Web (Option Text) :=
  tryCatch
    (do
      setPin platform value userKey
      pure none)
    fun message => pure (some message)

/-- The confirmation step of the PIN dialog. -/
def pinSetup (first value : Text) : Web (Option Text) :=
  if value≠first then pure (some "PINs don't match — start over".toList)
  else withSessionKey "Vault is locked".toList (pinWith platform value)

/-- The failure branch of `unlockWithPin`, from the attempts read at its
start. -/
def pinFailure {α : Type} (attempts : ℕ) : Web α :=
  let used := attempts+1
  if MAX_ATTEMPTS≤used then do
    removePin
    throw "Too many attempts — PIN cleared. Unlock with your master password.".toList
  else do
    invoke (.setPinAttempts used)
    throw ("Wrong PIN — ".toList++(Nat.repr (MAX_ATTEMPTS-used)).toList++" attempt".toList++
      (if MAX_ATTEMPTS-used=1 then [] else "s".toList)++" left".toList)

/-- The guarded part of `unlockWithPin`: derive, decrypt, clear the counter. -/
def openPinBlob (pin : Text) (blob : PinBlob) : Web SymKey := do
  let key ← derivePinKey platform pin blob.salt blob.iterations
  let opened := platform.aesGcmDecrypt key blob.iv blob.wrapped
  invoke (.tested ⟨blob,pin,opened.isNone⟩)
  let bytes ← settles opened
  invoke .removePinAttempts
  let userKey ← lift (symKeyFromBytes bytes)
  invoke .pinUnlocked
  pure userKey

/-- `unlockWithPin`. The attempts are read before the derivation. -/
def unlockWithPin (pin : Text) : Web SymKey := do
  match ← invoke .pinBlob with
  | none => throw "No PIN set on this device".toList
  | some blob =>
    let stored ← invoke .pinAttempts
    tryCatch (openPinBlob platform pin blob) fun _ => pinFailure (stored.getD 0)

/-- `handlePinUnlock` of the unlock page. -/
def handlePinUnlock (value : Text) : Web (Option Text) := do
  let page ← invoke .authState
  tryCatch
    (do
      let userKey ← unlockWithPin platform value
      completeUnlock platform page userKey
      pure none)
    fun message => pure (some message)

end Wrapping

/-- The operations of a tab. -/
inductive WebOp where
  /-- `lockVault`. -/
  | lockVault
  /-- `logoutAndClear`. -/
  | logoutAndClear
  /-- An import in Bitwarden format. -/
  | importFile (json : Option BitwardenExport)
  /-- A submit of the item form. -/
  | saveItem (form : ItemForm)
  /-- A save relayed by the extension. -/
  | extensionSave (payload : SaveRequest)
  /-- A sync. -/
  | doSync
  /-- An unlock with the master password. -/
  | passwordUnlock (password : Text)
  /-- An unlock with the PIN. -/
  | pinUnlock (pin : Text)
  /-- A session adoption. -/
  | adoptSession
  /-- A master-password change. -/
  | changePassword (currentPw newPw confirmPw : Text)
  /-- A PIN confirmation. -/
  | setPin (first value : Text)
  /-- `removePin`. -/
  | removePin

/-- The text of every operation. -/
def body (platform : Platform) : WebOp → Web (Option Text)
  | .lockVault => do
    lockVault
    pure none
  | .logoutAndClear => do
    logoutAndClear
    pure none
  | .importFile json => handleFile platform json
  | .saveItem form => handleSubmit platform form
  | .extensionSave payload => handleMessage platform payload
  | .doSync => doSync platform
  | .passwordUnlock password => unlockWithPassword platform password
  | .pinUnlock pin => handlePinUnlock platform pin
  | .adoptSession => do
    let _ ← adoptSessionFromOtherTab
    pure none
  | .changePassword currentPw newPw confirmPw => changeMasterPassword platform currentPw newPw confirmPw
  | .setPin first value => pinSetup platform first value
  | .removePin => do
    removePin
    pure none

/-- The web client: its calls and its operations. -/
def webSystem (platform : Platform) :
    ScriptPool.System WebCall WebCall.Answer Arrived Text (Option Text) WebState WebOp :=
  ⟨exec,body platform⟩

end NadSafe.WebOperations
