import NadSafe.WebContracts

/-!
# What each operation of the web client may do

First the contract of every operation, over the key it takes from the
session. Then a classification of the calls by effect and, for every
operation, the effects it can have. An invariant of the whole client needs
only the effects; the texts of the operations are not opened again.
-/

namespace NadSafe.WebFootprint

open HostText AsyncScript AsyncScript.Script WireFormat WebCrypto WebClient WebScripts
open WebOperations WebContracts

section Contracts

variable {platform : Platform} {pre : WebCall → Prop} {post : ∀ c,WebCall.Answer c → Prop}
variable {key : KeyRef}

/-- The calls of an operation that encrypts items under `key`: a request is
allowed once its texts are sealed under the issued key. -/
structure SendAccess (platform : Platform) (pre : WebCall → Prop)
    (post : ∀ c,WebCall.Answer c → Prop) (key : KeyRef) : Prop extends KeyAccess pre key where
  /-- The API client may be used. -/
  client : pre .getApiClient
  /-- A request whose texts are kept may be sent. -/
  send : ∀ client method path request,KeptRequest platform post key request →
    pre (.fetch client method path false (.cipher request (issuedKey key)))

/-- The loop of an import, by induction over the remaining items. -/
theorem importItems_obeys (h : SendAccess platform pre post key) (client i : ℕ)
    (items : List BitwardenExportItem) (result : ImportResult) :
    (importItems platform client key i items result).Obeys pre post fun _ => True := by
  induction items generalizing i result with
  | nil => trivial
  | cons item items ih =>
    have hitem : (encryptItem platform item key >>= fun payload =>
        createCipher client payload (issuedKey key) >>= fun _ =>
          (pure ⟨result.imported+1,result.failed,result.errors⟩ : Web ImportResult)).Obeys pre post
        fun _ => True := by
      refine (encryptItem_obeys h.toKeyAccess item).bind fun payload hp => ?_
      exact (request_obeys (h.send _ _ _ _ hp)).bind fun _ _ => trivial
    refine (hitem.rescue ?_).bind fun result' _ => ?_
    · intro message
      trivial
    · split
      · exact suspend_obeys.bind fun _ _ => ih (i+1) result'
      · exact ih (i+1) result'

theorem withSessionKey_obeys {locked : Text} {task : KeyRef → Web (Option Text)}
    (hget : pre .getSessionUserKey)
    (hkey : ∀ key,post .getSessionUserKey (some key) → (task key).Obeys pre post fun _ => True) :
    (withSessionKey locked task).Obeys pre post fun _ => True := by
  refine (perform_obeys hget).bind fun found hfound => ?_
  cases found with
  | none => trivial
  | some key => exact hkey key hfound

theorem importWith_obeys (h : SendAccess platform pre post key) (json : Option BitwardenExport) :
    (importWith platform json key).Obeys pre post fun _ => True := by
  refine Obeys.rescue ?_ fun message => trivial
  refine (settles_obeys _).bind fun _ _ => ?_
  refine (getApiClient_obeys h.client).bind fun client _ => ?_
  refine Obeys.bind (Q:=fun _ => True) ?_ fun _ _ => trivial
  unfold importBitwardenJson
  split
  · trivial
  · split
    · trivial
    · exact importItems_obeys h client _ _ _

theorem saveWith_obeys (h : SendAccess platform pre post key) (form : ItemForm) :
    (saveWith platform form key).Obeys pre post fun _ => True := by
  refine Obeys.rescue ?_ fun message => trivial
  refine (getApiClient_obeys h.client).bind fun client _ => ?_
  refine (formPayload_obeys h.toKeyAccess form).bind fun payload hp => ?_
  split
  · exact (request_obeys (h.send _ _ _ _ hp)).bind fun _ _ => trivial
  · exact (request_obeys (h.send _ _ _ _ hp)).bind fun _ _ => trivial

theorem relayWith_obeys (h : SendAccess platform pre post key) (hvault : pre .vaultState)
    (hitems : ∀ items,pre (.setItems items)) (payload : SaveRequest) :
    (relayWith platform payload key).Obeys pre post fun _ => True := by
  unfold relayWith
  split
  · trivial
  · refine (getApiClient_obeys h.client).bind fun client _ => ?_
    refine (savePayload_obeys h.toKeyAccess payload).bind fun request hp => ?_
    refine (request_obeys (h.send _ _ _ _ hp)).bind fun answer _ => ?_
    split
    · refine (decryptCipher_obeys h.toKeyAccess _).bind fun newItem _ => ?_
      exact ⟨hvault,fun store _ => ⟨hitems _,fun _ _ => trivial⟩⟩
    · trivial

theorem decryptBatches_obeys (h : KeyAccess pre key) (n : ℕ) (ciphers : List CipherResponse)
    (decrypted : List VaultItem) :
    (decryptBatches platform key n ciphers decrypted).Obeys pre post fun _ => True := by
  induction n generalizing ciphers decrypted with
  | zero => trivial
  | succ n ih =>
    cases ciphers with
    | nil => trivial
    | cons c ciphers =>
      refine (Obeys.all (Q:=fun _ => True) fun p hp => ?_).bind fun results _ => ih _ _
      obtain ⟨c',-,rfl⟩ := List.mem_map.mp hp
      refine Obeys.rescue ?_ fun _ => trivial
      exact (decryptCipher_obeys h c').bind fun item _ => trivial

theorem syncWith_obeys (h : KeyAccess pre key) (hclient : pre .getApiClient)
    (hsend : ∀ client method path noAuth,pre (.fetch client method path noAuth .none))
    (hitems : ∀ items,pre (.setItems items)) (hfolders : ∀ folders,pre (.setFolders folders))
    (hcollections : ∀ collections,pre (.setCollections collections)) :
    (syncWith platform key).Obeys pre post fun _ => True := by
  refine Obeys.rescue ?_ fun message => trivial
  refine (getApiClient_obeys hclient).bind fun client _ => ?_
  refine (sync_obeys (hsend client)).bind fun data _ => ?_
  refine (decryptBatches_obeys h _ _ _).bind fun decrypted _ => ?_
  refine (Obeys.all (Q:=fun _ => True) fun p hp => ?_).bind fun folders _ => ?_
  · obtain ⟨f,-,rfl⟩ := List.mem_map.mp hp
    exact (decryptField_obeys h _).bind fun name _ => trivial
  · refine (Obeys.all (Q:=fun _ => True) fun p hp => ?_).bind fun collections _ => ?_
    · obtain ⟨c,-,rfl⟩ := List.mem_map.mp hp
      exact (decryptField_obeys h _).bind fun name _ => trivial
    · exact ⟨hitems _,fun _ _ => ⟨hfolders _,fun _ _ => ⟨hcollections _,fun _ _ => trivial⟩⟩⟩

/-- The calls of `completeUnlock`. -/
structure UnlockAccess (pre : WebCall → Prop) : Prop where
  /-- Every key may be read. -/
  read : ∀ cell issued,KeyAccess pre (.live cell issued)
  /-- A client may be created. -/
  init : ∀ url,pre (.initApiClient url)
  /-- The device identifier may be read. -/
  device : pre .getOrCreateDeviceId
  /-- A token request may be sent. -/
  send : ∀ client method path noAuth fields,pre (.fetch client method path noAuth (.form fields))
  /-- The token may be set. -/
  token : ∀ client token,pre (.setToken client token)
  /-- A key may be installed. -/
  install : ∀ key,pre (.setSessionUserKey key)
  /-- The RSA key may be installed. -/
  rsa : ∀ key,pre (.setSessionRsaKey key)
  /-- The store may be unlocked. -/
  unlock : ∀ token,pre (.unlock token)

theorem restoreRsaKey_obeys {cell : ℕ} {issued : SymKey} (h : KeyAccess pre (.live cell issued))
    (hrsa : ∀ key,pre (.setSessionRsaKey key)) (text : Text) :
    (restoreRsaKey platform text cell issued).Obeys pre post fun _ => True := by
  unfold restoreRsaKey
  split
  · refine Obeys.rescue ?_ fun _ => trivial
    refine (decryptRsaPrivateKey_obeys h text).bind fun rsaKey _ => ?_
    exact ⟨hrsa rsaKey,fun _ _ => trivial⟩
  · trivial

theorem completeUnlock_obeys (h : UnlockAccess pre) (page : AuthState) (userKey : SymKey) :
    (completeUnlock platform page userKey).Obeys pre post fun _ => True := by
  refine (perform_obeys (h.init _)).bind fun client _ => ?_
  dsimp only
  split
  · trivial
  · refine ⟨h.device,fun deviceId _ => ?_⟩
    refine (refreshToken_obeys (h.send client)).bind fun accessToken _ => ?_
    refine (perform_obeys (h.token _ _)).bind fun _ _ => ?_
    refine (perform_obeys (h.install _)).bind fun cell _ => ?_
    refine (restoreRsaKey_obeys (h.read cell userKey) h.rsa _).bind fun _ _ => ?_
    exact ⟨h.unlock _,fun _ _ => trivial⟩

theorem unlockWithPassword_obeys (hauth : pre .authState) (h : UnlockAccess pre) (password : Text) :
    (unlockWithPassword platform password).Obeys pre post fun _ => True := by
  refine (perform_obeys hauth).bind fun page _ => ?_
  split
  · trivial
  · refine Obeys.rescue ?_ fun _ => trivial
    refine (deriveLoginKeys_quiet _ _ _).bind fun keys _ => ?_
    dsimp only
    split
    · trivial
    · refine (unwrapUserKey_obeys _ _).bind fun userKey _ => ?_
      exact (completeUnlock_obeys h page userKey).bind fun _ _ => trivial

theorem derivePinKey_obeys (pin : Text) (salt : Bytes) (iterations : ℕ) :
    (derivePinKey platform pin salt iterations).Obeys pre post fun k =>
      k=pinKey platform pin salt iterations := by
  unfold derivePinKey
  refine (settles_obeys _).bind fun _ _ => ?_
  refine (settles_obeys _).mono (fun _ hc => hc) (fun _ _ hr => hr) fun k hk => ?_
  cases hk
  rfl

/-- The calls of `unlockWithPin`. -/
structure PinAccess (pre : WebCall → Prop) : Prop where
  /-- The entry may be read. -/
  blob : pre .pinBlob
  /-- The counter may be read. -/
  attempts : pre .pinAttempts
  /-- A PIN may be tested. -/
  test : ∀ test,pre (.tested test)
  /-- The counter may be written. -/
  setAttempts : ∀ n,pre (.setPinAttempts n)
  /-- The counter may be removed. -/
  removeAttempts : pre .removePinAttempts
  /-- The entry may be removed. -/
  removeBlob : pre .removePinBlob
  /-- The unlock may be recorded. -/
  unlocked : pre .pinUnlocked

theorem pinFailure_obeys {α : Type} {Q : α → Prop} (h : PinAccess pre) (attempts : ℕ) :
    (pinFailure attempts : Web α).Obeys pre post Q := by
  unfold pinFailure
  dsimp only
  split
  · exact ⟨h.removeBlob,fun _ _ => ⟨h.removeAttempts,fun _ _ => trivial⟩⟩
  · exact ⟨h.setAttempts _,fun _ _ => trivial⟩

/-- The key that `openPinBlob` answers with is what the entry opens to. -/
theorem openPinBlob_obeys (h : PinAccess pre) (pin : Text) (blob : PinBlob) :
    (openPinBlob platform pin blob).Obeys pre post fun userKey =>
      ∃ bytes,platform.aesGcmDecrypt (pinKey platform pin blob.salt blob.iterations) blob.iv
        blob.wrapped=some bytes ∧ symKeyFromBytes bytes=.ok userKey := by
  refine (derivePinKey_obeys _ _ _).bind fun k hk => ?_
  subst hk
  refine ⟨h.test _,fun _ _ => ?_⟩
  refine (settles_obeys _).bind fun bytes hbytes => ?_
  refine ⟨h.removeAttempts,fun _ _ => ?_⟩
  refine (lift_obeys _).bind fun userKey hkey => ?_
  exact ⟨h.unlocked,fun _ _ => ⟨bytes,hbytes,hkey⟩⟩

theorem unlockWithPin_obeys (h : PinAccess pre) (pin : Text) :
    (unlockWithPin platform pin).Obeys pre post fun _ => True := by
  refine ⟨h.blob,fun found _ => ?_⟩
  cases found with
  | none => trivial
  | some blob =>
    refine ⟨h.attempts,fun stored _ => ?_⟩
    exact Obeys.rescue (openPinBlob_obeys h pin blob).forget fun _ => pinFailure_obeys h _

theorem handlePinUnlock_obeys (hauth : pre .authState) (hpin : PinAccess pre)
    (h : UnlockAccess pre) (value : Text) :
    (handlePinUnlock platform value).Obeys pre post fun _ => True := by
  refine ⟨hauth,fun page _ => ?_⟩
  refine Obeys.rescue ?_ fun _ => trivial
  refine (unlockWithPin_obeys hpin value).bind fun userKey _ => ?_
  exact (completeUnlock_obeys h page userKey).bind fun _ _ => trivial

theorem adopt_obeys (hc : UnlockAccess pre) (p : SessionPayload) :
    (adopt p).Obeys pre post fun _ => True := by
  refine (perform_obeys (hc.install _)).bind fun _ _ => ?_
  refine Obeys.bind (Q:=fun _ => True) ?_ fun _ _ => ?_
  · cases p.rsaKey with
    | none => trivial
    | some rsaKey => exact ⟨hc.rsa _,fun _ _ => trivial⟩
  · exact ⟨hc.init _,fun client _ => ⟨hc.token _ _,fun _ _ => ⟨hc.unlock _,fun _ _ => trivial⟩⟩⟩

/-- The calls of an operation that wraps the user key: a copy may be written
once it is known to open to the issued key. -/
structure WrapAccess (platform : Platform) (pre : WebCall → Prop)
    (post : ∀ c,WebCall.Answer c → Prop) (key : KeyRef) : Prop extends KeyAccess pre key where
  /-- The API client may be used. -/
  client : pre .getApiClient
  /-- A re-wrapped key may be sent. -/
  send : ∀ client method path request stretchedKey,
    (Faithful post key → unwrapped platform stretchedKey request.key=.ok (issuedKey key)) →
    pre (.fetch client method path false (.password request (issuedKey key) stretchedKey))
  /-- The key that was sent may be stored. -/
  store : ∀ client method path request stretchedKey,
    (Faithful post key → unwrapped platform stretchedKey request.key=.ok (issuedKey key)) →
    post (.fetch client method path false (.password request (issuedKey key) stretchedKey)) () →
    pre (.setEncryptedUserKey request.key (issuedKey key) stretchedKey)

theorem changeWith_obeys (h : WrapAccess platform pre post key) (user : AuthUser)
    (currentPw newPw : Text) :
    (changeWith platform user currentPw newPw key).Obeys pre post fun _ => True := by
  refine Obeys.rescue ?_ fun _ => trivial
  refine (deriveLoginKeys_quiet _ _ _).bind fun old _ => ?_
  refine (deriveLoginKeys_quiet _ _ _).bind fun new _ => ?_
  refine (readEncKey_obeys h.toKeyAccess).bind fun encBytes henc => ?_
  refine (readMacKey_obeys h.toKeyAccess).bind fun macBytes hmac => ?_
  refine (wrapUserKey_obeys h.random _ _).bind fun text ht => ?_
  have hopen : Faithful post key →
      unwrapped platform new.stretchedKey text=.ok (issuedKey key) := by
    intro hf
    obtain ⟨iv,hiv,rfl⟩ := ht hf.random
    rw [henc hf,hmac hf]
    exact unwrapped_sealed platform hiv
  refine (getApiClient_obeys h.client).bind fun client _ => ?_
  refine (request_obeys (h.send _ _ _ _ _ hopen)).bind fun _ hsent => ?_
  exact ⟨h.store _ _ _ _ _ hopen hsent,fun _ _ => trivial⟩

/-- The guards of the master-password form make two passive calls. -/
theorem changeMasterPassword_obeys (hauth : pre .authState) (hget : pre .getSessionUserKey)
    (hkey : ∀ key,post .getSessionUserKey (some key) → WrapAccess platform pre post key)
    (currentPw newPw confirmPw : Text) :
    (changeMasterPassword platform currentPw newPw confirmPw).Obeys pre post fun _ => True := by
  refine (perform_obeys hauth).bind fun page _ => ?_
  unfold changeFrom
  split
  · trivial
  split
  · trivial
  split
  · trivial
  split
  · trivial
  exact withSessionKey_obeys hget fun key hfound => changeWith_obeys (hkey key hfound) _ _ _

/-- The entry that wraps a key under a PIN. -/
def Wraps (platform : Platform) (blob : PinBlob) (pin : Text) (key : SymKey) : Prop :=
  blob.wrapped=platform.aesGcmEncrypt (pinKey platform pin blob.salt blob.iterations) blob.iv
    (symKeyToBytes key)

/-- It opens under the PIN to that key. -/
theorem Wraps.opens {blob : PinBlob} {pin : Text} {key : SymKey} (h : Wraps platform blob pin key) :
    platform.aesGcmDecrypt (pinKey platform pin blob.salt blob.iterations) blob.iv blob.wrapped=
      some (symKeyToBytes key) := by
  rw [h]
  exact platform.aesGcm_open _ _ _

/-- Under no PIN does it open to anything else. -/
theorem Wraps.opened (hgcm : GcmExact platform) {blob : PinBlob} {pin pin' : Text} {key : SymKey}
    (h : Wraps platform blob pin key) {bytes : Bytes}
    (hopen : platform.aesGcmDecrypt (pinKey platform pin' blob.salt blob.iterations) blob.iv
      blob.wrapped=some bytes) : bytes=symKeyToBytes key := by
  have hsame : pinKey platform pin' blob.salt blob.iterations=
      pinKey platform pin blob.salt blob.iterations := by
    rw [h] at hopen
    exact hgcm _ _ _ _ _ hopen
  rw [hsame] at hopen
  exact Option.some.inj (hopen.symm.trans h.opens)

/-- The entry that `setPin` writes wraps the issued key. -/
theorem setPin_obeys (h : KeyAccess pre key) (hclear : pre .removePinAttempts)
    (hset : ∀ blob pin,(Faithful post key → Wraps platform blob pin (issuedKey key)) →
      pre (.setPinBlob blob pin (issuedKey key)))
    (pin : Text) : (setPin platform pin key).Obeys pre post fun _ => True := by
  unfold setPin
  split
  · refine ⟨h.random 16,fun salt _ => ⟨h.random 12,fun iv _ => ?_⟩⟩
    refine (derivePinKey_obeys _ _ _).bind fun k hk => ?_
    refine (readEncKey_obeys h).bind fun encBytes henc => ?_
    refine (readMacKey_obeys h).bind fun macBytes hmac => ?_
    refine (settles_obeys _).bind fun wrapped hw => ?_
    refine ⟨hclear,fun _ _ => ⟨hset _ _ fun hf => ?_,fun _ _ => trivial⟩⟩
    cases hw
    subst hk
    rw [henc hf,hmac hf]
    rfl
  · trivial

theorem pinWith_obeys (h : KeyAccess pre key) (hclear : pre .removePinAttempts)
    (hset : ∀ blob pin,(Faithful post key → Wraps platform blob pin (issuedKey key)) →
      pre (.setPinBlob blob pin (issuedKey key)))
    (value : Text) : (pinWith platform value key).Obeys pre post fun _ => True := by
  refine Obeys.rescue ?_ fun _ => trivial
  exact (setPin_obeys h hclear hset value).bind fun _ _ => trivial

end Contracts

/-- The effect of a call on what the invariants speak about. -/
inductive Effect where
  /-- Store reads, random bytes and the device identifier. -/
  | passive
  /-- A read of shared key bytes. -/
  | keyRead
  /-- Installation of the session user key. -/
  | install
  /-- Installation of the session RSA key. -/
  | installRsa
  /-- Zeroing of the session keys. -/
  | wipe
  /-- A write of decrypted data. -/
  | vaultWrite
  /-- Removal of decrypted data. -/
  | vaultClear
  /-- `lock`. -/
  | lock
  /-- `unlock`. -/
  | unlock
  /-- `logout`. -/
  | logout
  /-- Writes of a sign-in to the auth store. -/
  | signIn
  /-- Creation of a client or its token. -/
  | client
  /-- An item request. -/
  | sendCipher
  /-- A password-change request. -/
  | sendPassword
  /-- Any other request. -/
  | send
  /-- `setEncryptedUserKey`. -/
  | storeKey
  /-- A write of the PIN entry. -/
  | setPin
  /-- Other writes of PIN storage, and PIN milestones. -/
  | pinStorage
  deriving DecidableEq

/-- The effect of a request by its body. -/
@[simp] def bodyEffect : Body → Effect
  | .cipher _ _ => .sendCipher
  | .password _ _ _ => .sendPassword
  | _ => .send

/-- Classification of the calls. -/
@[simp] def effect : WebCall → Effect
  | .randomBytes _ => .passive
  | .getSessionUserKey => .passive
  | .setSessionUserKey _ => .install
  | .setSessionRsaKey _ => .installRsa
  | .clearSessionKey => .wipe
  | .encKey _ => .keyRead
  | .macKey _ => .keyRead
  | .authState => .passive
  | .setServerUrl _ => .signIn
  | .login _ _ _ _ _ => .signIn
  | .lock => .lock
  | .unlock _ => .unlock
  | .logout => .logout
  | .setEncryptedUserKey _ _ _ => .storeKey
  | .vaultState => .passive
  | .setItems _ => .vaultWrite
  | .setFolders _ => .vaultWrite
  | .setCollections _ => .vaultWrite
  | .clearVault => .vaultClear
  | .getApiClient => .passive
  | .initApiClient _ => .client
  | .setToken _ _ => .client
  | .fetch _ _ _ _ body => bodyEffect body
  | .pinBlob => .passive
  | .pinAttempts => .passive
  | .setPinBlob _ _ _ => .setPin
  | .setPinAttempts _ => .pinStorage
  | .removePinBlob => .pinStorage
  | .removePinAttempts => .pinStorage
  | .getOrCreateDeviceId => .passive
  | .tested _ => .pinStorage
  | .pinUnlocked => .pinStorage

/-- The effects of `completeUnlock` and of a session adoption. -/
@[simp] def unlockEffects : List Effect :=
  [.passive,.keyRead,.install,.installRsa,.unlock,.client,.send]

/-- The effects that an operation can have. -/
@[simp] def effects : WebOp → List Effect
  | .lockVault => [.wipe,.vaultClear,.lock]
  | .logoutAndClear => [.wipe,.vaultClear,.logout]
  | .importFile _ => [.passive,.keyRead,.sendCipher]
  | .saveItem _ => [.passive,.keyRead,.sendCipher]
  | .extensionSave _ => [.passive,.keyRead,.sendCipher,.vaultWrite]
  | .doSync => [.passive,.keyRead,.send,.vaultWrite]
  | .passwordUnlock _ => unlockEffects
  | .pinUnlock _ => .pinStorage::unlockEffects
  | .adoptSession => unlockEffects
  | .changePassword _ _ _ => [.passive,.keyRead,.sendPassword,.storeKey]
  | .setPin _ _ => [.passive,.keyRead,.pinStorage,.setPin]
  | .removePin => [.pinStorage]

/-- A script whose calls all have one of the listed effects. -/
abbrev Within {α : Type} (allowed : List Effect) (p : Web α) : Prop :=
  p.Obeys (fun c => effect c∈allowed) (fun _ _ => True) fun _ => True

theorem unlockAccess {allowed : List Effect} (h : ∀ e∈unlockEffects,e∈allowed) :
    UnlockAccess fun c => effect c∈allowed := by
  refine ⟨fun cell issued => ⟨?_,?_,?_⟩,?_,?_,?_,?_,?_,?_,?_⟩
  all_goals intros; exact h _ (by simp)

/-- Every operation stays within its effects, in every interleaving. -/
theorem body_within (platform : Platform) (op : WebOp) : Within (effects op) (body platform op) := by
  cases op with
  | lockVault =>
    exact ⟨by simp,fun _ _ => ⟨by simp,fun _ _ => ⟨by simp,fun _ _ => trivial⟩⟩⟩
  | logoutAndClear =>
    exact ⟨by simp,fun _ _ => ⟨by simp,fun _ _ => ⟨by simp,fun _ _ => trivial⟩⟩⟩
  | importFile json =>
    refine withSessionKey_obeys (by simp) fun key _ => importWith_obeys ⟨⟨?_,?_,?_⟩,?_,?_⟩ json
    all_goals intros; simp
  | saveItem form =>
    refine withSessionKey_obeys (by simp) fun key _ => saveWith_obeys ⟨⟨?_,?_,?_⟩,?_,?_⟩ form
    all_goals intros; simp
  | extensionSave payload =>
    refine Obeys.rescue ?_ fun _ => trivial
    refine withSessionKey_obeys (by simp) fun key _ =>
      relayWith_obeys ⟨⟨?_,?_,?_⟩,?_,?_⟩ (by simp) ?_ payload
    all_goals intros; simp
  | doSync =>
    refine withSessionKey_obeys (by simp) fun key _ =>
      syncWith_obeys ⟨?_,?_,?_⟩ (by simp) ?_ ?_ ?_ ?_
    all_goals intros; simp
  | passwordUnlock password =>
    exact unlockWithPassword_obeys (by simp) (unlockAccess fun e he => he) password
  | pinUnlock pin =>
    refine handlePinUnlock_obeys (by simp) ⟨?_,?_,?_,?_,?_,?_,?_⟩
      (unlockAccess fun e he => List.mem_cons_of_mem _ he) pin
    all_goals intros; simp
  | adoptSession =>
    refine Obeys.bind (Q:=fun _ => True) ?_ fun _ _ => trivial
    refine suspend_obeys.bind fun arrived _ => ?_
    split
    · exact (adopt_obeys (unlockAccess fun e he => he) _).bind fun _ _ => trivial
    · trivial
  | changePassword currentPw newPw confirmPw =>
    refine changeMasterPassword_obeys (by simp) (by simp) (fun key _ => ⟨⟨?_,?_,?_⟩,?_,?_,?_⟩)
      currentPw newPw confirmPw
    all_goals intros; simp
  | setPin first value =>
    dsimp only [body,pinSetup]
    split
    · trivial
    · refine withSessionKey_obeys (by simp) fun key _ =>
        pinWith_obeys ⟨?_,?_,?_⟩ (by simp) ?_ value
      all_goals intros; simp
  | removePin => exact ⟨by simp,fun _ _ => ⟨by simp,fun _ _ => trivial⟩⟩

end NadSafe.WebFootprint
