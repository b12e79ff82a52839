import NadSafe.ExtensionHandlers

/-!
# Contracts of the extension's handlers

For every handler, the calls it makes in relation to what it read. The
contracts are parametric in the allowed calls and the assumed answers; one
record of permissions covers all handlers, and each invariant of the worker
only has to grant these permissions.
-/

namespace NadSafe.ExtensionContracts

open HostText AsyncScript AsyncScript.Script WireFormat WebCrypto
open WebClient (LoginDataResponse CipherResponse Json PinBlob PinTest)
open WebOperations (pinKey)
open ExtensionWorker ExtensionHandlers

variable {platform : Platform} {host : Host} {pre : WorkerCall → Prop}
variable {post : ∀ c,WorkerCall.Answer c → Prop}

/-- A ciphertext under this key. -/
def Under (platform : Platform) (key : Bytes) (blob : VaultBlob) : Prop :=
  ∃ data,blob.data=platform.aesGcmEncrypt key blob.iv data

/-- The plaintext of this ciphertext under this key. -/
def Encloses (platform : Platform) (key : Bytes) (blob : VaultBlob) (data : Bytes) : Prop :=
  blob.data=platform.aesGcmEncrypt key blob.iv data

/-- A write that unlocks and does not lock. -/
def Opens (fields : List SessionField) : Prop := .locked false∈fields ∧ .locked true∉fields

/-- What a refresh of the snapshot needs. -/
structure PermitsRefresh (platform : Platform) (pre : WorkerCall → Prop)
    (post : ∀ c,WorkerCall.Answer c → Prop) : Prop where
  /-- Random bytes. -/
  random : ∀ n,pre (.randomBytes n)
  /-- The session is read. -/
  get : pre (.sessionGet [.dek,.serverUrl,.userKey,.accessToken])
  /-- A snapshot under the data-encryption key that was read. -/
  blob : ∀ keys session dek vaultBlob,post (.sessionGet keys) session → .dek∈keys →
    session.dek=some dek → Under platform dek vaultBlob → pre (.localSet [.vaultBlob vaultBlob])

/-- What the handlers other than `LOCK`, `SET_PIN` and `UNLOCK_PIN` need. -/
structure Permits (platform : Platform) (pre : WorkerCall → Prop)
    (post : ∀ c,WorkerCall.Answer c → Prop) : Prop where
  /-- Random bytes. -/
  random : ∀ n,pre (.randomBytes n)
  /-- Requests and relayed messages. -/
  send : ∀ message,pre (.send message)
  /-- Session reads. -/
  get : ∀ keys,pre (.sessionGet keys)
  /-- Writes that unlock. -/
  opening : ∀ fields,Opens fields → pre (.sessionSet fields)
  /-- Items, after the session was seen unlocked. -/
  items : ∀ keys session items,post (.sessionGet keys) session → .locked∈keys →
    session.locked≠some true → pre (.sessionSet [.items (some items)])
  /-- A snapshot under the data-encryption key that was read. -/
  blob : ∀ keys session dek vaultBlob,post (.sessionGet keys) session → .dek∈keys →
    session.dek=some dek → Under platform dek vaultBlob → pre (.localSet [.vaultBlob vaultBlob])
  /-- Removal of the PIN. -/
  remove : pre .localRemove
  /-- Removal of the data-encryption key. -/
  removeDek : pre .sessionRemoveDek

theorem Permits.refresh (h : Permits platform pre post) : PermitsRefresh platform pre post :=
  ⟨h.random,h.get _,h.blob⟩

/-- What a save that has read the session needs. -/
structure PermitsSave (platform : Platform) (pre : WorkerCall → Prop)
    (post : ∀ c,WorkerCall.Answer c → Prop) (session : SessionArea) : Prop
    extends PermitsRefresh platform pre post where
  /-- Requests and relayed messages. -/
  send : ∀ message,pre (.send message)
  /-- One more item than was read. -/
  append : ∀ item,pre (.sessionSet [.items (some (session.items.getD []++[item]))])

/-- What `SET_PIN` needs. -/
structure PermitsSetPin (platform : Platform) (pre : WorkerCall → Prop)
    (post : ∀ c,WorkerCall.Answer c → Prop) : Prop where
  /-- Random bytes. -/
  random : ∀ n,pre (.randomBytes n)
  /-- Session reads. -/
  get : ∀ keys,pre (.sessionGet keys)
  /-- A new PIN entry with a snapshot under the key it wraps. -/
  pin : ∀ pin salt wrap vaultBlob dek,Encloses platform (pinKey platform pin salt PIN_ITERATIONS) wrap dek →
    Under platform dek vaultBlob → pre (.localSet (pinFields pin salt wrap vaultBlob))
  /-- The data-encryption key, after the session was seen unlocked. -/
  dek : ∀ keys session dek,post (.sessionGet keys) session → .locked∈keys →
    session.locked≠some true → pre (.sessionSet [.dek (some dek)])

/-- What `UNLOCK_PIN` needs. -/
structure PermitsUnlock (pre : WorkerCall → Prop) (post : ∀ c,WorkerCall.Answer c → Prop) : Prop where
  /-- The PIN entry is read. -/
  read : pre .localGet
  /-- A PIN is tested once an entry was found. -/
  test : ∀ device test,post .localGet device → device.pin≠none → pre (.tested test)
  /-- A session is restored. -/
  opening : ∀ fields,Opens fields → pre (.sessionSet fields)
  /-- The success is noted. -/
  unlocked : pre .pinUnlocked
  /-- The attempts are stored. -/
  attempts : ∀ used,pre (.localSet [.pinAttempts used])
  /-- The PIN is removed. -/
  remove : pre .localRemove

section Crypto

theorem settles_obeys {α : Type} (result : Option α) :
    (settles result).Obeys pre post fun v => result=some v := by
  refine suspend_obeys.bind fun arrived _ => ?_
  split
  · trivial
  · split
    · exact rfl
    · trivial

/-- A storage operation is the only call of its segment. -/
theorem storage_obeys {c : WorkerCall} (h : pre c) : (storage c).Obeys pre post (post c) := by
  refine suspend_obeys.bind fun arrived _ => ?_
  split
  · trivial
  · exact perform_obeys h

theorem lift_obeys {α : Type} (x : Except Text α) : (lift x).Obeys pre post fun _ => True := by
  cases x with
  | ok a => trivial
  | error message => trivial

theorem symKeyFromB64_obeys (b64 : Text) : (symKeyFromB64 b64).Obeys pre post fun _ => True := by
  unfold symKeyFromB64
  split
  · exact lift_obeys _
  · trivial

theorem computeMac_obeys (macKey iv ct : Bytes) :
    (computeMac platform macKey iv ct).Obeys pre post fun _ => True := by
  refine (settles_obeys (some macKey)).bind fun key _ => ?_
  exact (settles_obeys _).forget

theorem decryptEncString_obeys (enc : EncStringParsed) (key : SymKey) :
    (decryptEncString platform enc key).Obeys pre post fun _ => True := by
  refine (computeMac_obeys _ _ _).bind fun mac _ => ?_
  split
  · refine (settles_obeys (some key.encKey)).bind fun encKey _ => ?_
    exact (settles_obeys _).forget
  · trivial

theorem decryptField_obeys (text : Option Text) (key : SymKey) :
    (decryptField platform text key).Obeys pre post fun _ => True := by
  unfold decryptField
  split
  · trivial
  · trivial
  · refine (lift_obeys _).bind fun parsed _ => ?_
    exact (decryptEncString_obeys parsed key).bind fun _ _ => trivial

theorem decryptLogin_obeys (login : LoginDataResponse) (key : SymKey) :
    (decryptLogin platform login key).Obeys pre post fun _ => True := by
  have hfield (text : Option Text) : (decryptField platform text key).Obeys pre post fun _ => True :=
    decryptField_obeys text key
  refine ((hfield _).both ((hfield _).both (hfield _))).bind fun fields _ => ?_
  refine (Obeys.all (Q:=fun _ => True) fun p hp => ?_).bind fun uris _ => trivial
  obtain ⟨u,-,rfl⟩ := List.mem_map.mp hp
  exact hfield _

theorem decryptCipher_obeys (cipher : CipherResponse) (key : SymKey) :
    (decryptCipher platform cipher key).Obeys pre post fun _ => True := by
  refine (decryptField_obeys _ key).bind fun name _ => ?_
  dsimp only
  split
  · split
    · exact (decryptLogin_obeys _ key).bind fun _ _ => trivial
    · trivial
  · trivial

theorem decryptAll_obeys (key : SymKey) (ciphers : List CipherResponse) :
    (decryptAll platform key ciphers).Obeys pre post fun _ => True := by
  induction ciphers with
  | nil => trivial
  | cons c ciphers ih =>
    have hitem : (decryptCipher platform c key).Obeys pre post fun _ => True := decryptCipher_obeys c key
    have hkept : Obeys pre post (fun _ => True) (Script.rescue
        ((decryptCipher platform c key).bind fun item => done [item]) fun _ => done []) := by
      refine Obeys.rescue ?_ fun _ => trivial
      exact hitem.bind fun _ _ => trivial
    refine hkept.bind fun item _ => ?_
    exact ih.bind fun _ _ => trivial

theorem encryptField_obeys (hrandom : ∀ n,pre (.randomBytes n)) (value : Text) (key : SymKey) :
    (encryptField platform value key).Obeys pre post fun _ => True := by
  refine Obeys.bind (Q:=fun _ => True) ⟨hrandom 16,fun iv _ => ?_⟩ fun enc _ => trivial
  refine (settles_obeys (some key.encKey)).bind fun encKey _ => ?_
  refine (settles_obeys (some (platform.aesCbcEncrypt encKey iv (utf8 value)))).bind fun ct _ => ?_
  exact (computeMac_obeys _ _ _).bind fun _ _ => trivial

theorem encryptOptional_obeys (hrandom : ∀ n,pre (.randomBytes n)) (value : Text) (key : SymKey) :
    (encryptOptional platform value key).Obeys pre post fun _ => True := by
  unfold encryptOptional
  split
  · trivial
  · exact (encryptField_obeys hrandom _ key).bind fun _ _ => trivial

theorem derivePinKey_obeys (pin : Text) (salt : Bytes) (iterations : ℕ) :
    (derivePinKey platform pin salt iterations).Obeys pre post fun key =>
      key=pinKey platform pin salt iterations := by
  refine (settles_obeys (some (utf8 pin))).bind fun base hbase => ?_
  cases hbase
  exact (settles_obeys _).mono (fun _ hc => hc) (fun _ _ hr => hr) fun key hkey => (Option.some.inj hkey).symm

/-- An encryption encloses its plaintext under its key. -/
theorem aesEncrypt_obeys (hrandom : ∀ n,pre (.randomBytes n)) (key plaintext : Bytes) :
    (aesEncrypt platform key plaintext).Obeys pre post fun blob =>
      Encloses platform key blob plaintext := by
  refine ⟨hrandom 12,fun iv _ => ?_⟩
  refine (settles_obeys (some (platform.aesGcmEncrypt key iv plaintext))).bind fun ct hct => ?_
  cases hct
  exact rfl

theorem fetch_obeys {message : Outgoing} (h : pre (.send message)) :
    (fetch message).Obeys pre post fun _ => True := by
  refine ⟨h,fun _ _ i => ?_⟩
  dsimp only [Script.bind]
  split <;> trivial

theorem readJson_obeys : readJson.Obeys pre post fun _ => True := by
  intro i
  dsimp only [Script.bind]
  split <;> trivial

theorem ciphersOf_obeys (json : Json) : (ciphersOf json).Obeys pre post fun _ => True := by
  cases json <;> trivial

end Crypto

section Handlers

theorem refreshVaultBlob_obeys (h : PermitsRefresh platform pre post) (items : Option (List Item)) :
    (refreshVaultBlob platform host items).Obeys pre post fun _ => True := by
  refine (storage_obeys h.get).bind fun s hs => ?_
  cases hdek : s.dek with
  | none => trivial
  | some dek =>
    refine (settles_obeys (some dek)).bind fun dekKey hkey => ?_
    cases hkey
    refine (aesEncrypt_obeys h.random dek _).bind fun vaultBlob hblob => ?_
    exact (storage_obeys (h.blob _ s dek vaultBlob hs (by simp) hdek ⟨_,hblob⟩)).forget

theorem syncWith_obeys (h : Permits platform pre post) {session : SessionArea}
    (hitems : ∀ items,pre (.sessionSet [.items (some items)])) :
    (syncWith platform host session).Obeys pre post fun _ => True := by
  refine (fetch_obeys (h.send _)).bind fun status _ => ?_
  split
  · trivial
  · split
    · refine (readJson_obeys).bind fun data _ => ?_
      refine (symKeyFromB64_obeys _).bind fun key _ => ?_
      refine (ciphersOf_obeys data).bind fun ciphers _ => ?_
      refine (decryptAll_obeys key _).bind fun items _ => ?_
      refine (storage_obeys (hitems items)).bind fun _ _ => ?_
      exact (refreshVaultBlob_obeys h.refresh _).bind fun _ _ => trivial
    · trivial

theorem handleSync_obeys (h : Permits platform pre post) :
    (handleSync platform host).Obeys pre post fun _ => True := by
  refine (storage_obeys (h.get _)).bind fun session hs => ?_
  split
  · trivial
  · rename_i hopen
    refine Obeys.rescue (syncWith_obeys h fun items => ?_) fun _ => trivial
    exact h.items _ session items hs (by simp) fun hlocked => hopen (.inl hlocked)

theorem handleUnlock_obeys (h : Permits platform pre post) (email serverUrl userKey token : Option Text) :
    (handleUnlock platform host email serverUrl userKey token).Obeys pre post fun _ => True := by
  unfold handleUnlock
  split
  · trivial
  · refine (storage_obeys (h.opening _ (by simp [Opens]))).bind fun _ _ => ?_
    refine Obeys.bind (Q:=fun _ => True) ?_ fun _ _ => trivial
    exact (handleSync_obeys h).rescue fun _ => trivial

theorem storeItems_obeys (h : Permits platform pre post) (items : Option (List Item))
    (tabId : Option ℕ) (origin : Option Text) :
    (storeItems platform host items tabId origin).Obeys pre post fun _ => True := by
  have hset (pushed : List SessionField) (hpushed : ∀ b,.locked b∉pushed) :
      (storage (.sessionSet (pushed++[SessionField.locked false,.webappTabId tabId,.webappOrigin origin]))).Obeys
        pre post fun _ => True :=
    (storage_obeys (h.opening _ (by simp [Opens,hpushed]))).forget
  unfold storeItems
  refine Obeys.bind (Q:=fun _ => True) (Obeys.rescue (hset _ ?_) fun _ => trivial) fun _ _ => ?_
  · cases items <;> simp
  · exact (refreshVaultBlob_obeys h.refresh items).bind fun _ _ => trivial

theorem reflect_obeys (h : PermitsRefresh platform pre post) {session : SessionArea}
    (happend : ∀ item,pre (.sessionSet [.items (some (session.items.getD []++[item]))]))
    (created : Json) (key : SymKey) :
    (reflect platform host session created key).Obeys pre post fun _ => True := by
  refine Obeys.rescue ?_ fun _ => trivial
  cases created with
  | cipher created =>
    refine (decryptCipher_obeys created key).bind fun newItem _ => ?_
    refine (storage_obeys (happend newItem)).bind fun _ _ => ?_
    exact refreshVaultBlob_obeys h _
  | _ => trivial

theorem saveCredentialStandalone_obeys {session : SessionArea}
    (h : PermitsSave platform pre post session) (hostname username password : Text) :
    (saveCredentialStandalone platform host session hostname username password).Obeys pre post
      fun _ => True := by
  refine Obeys.rescue ?_ fun _ => trivial
  refine (symKeyFromB64_obeys _).bind fun key _ => ?_
  have hfield (value : Text) : (encryptField platform value key).Obeys pre post fun _ => True :=
    encryptField_obeys h.random value key
  have huser : (encryptOptional platform username key).Obeys pre post fun _ => True :=
    encryptOptional_obeys h.random username key
  refine ((hfield _).both (huser.both ((hfield _).both (hfield _)))).bind fun fields _ => ?_
  refine (fetch_obeys (h.send _)).bind fun status _ => ?_
  split
  · trivial
  · split
    · refine (readJson_obeys).bind fun created _ => ?_
      exact (reflect_obeys h.toPermitsRefresh h.append created key).bind fun _ _ => trivial
    · trivial

theorem relayToWebapp_obeys (hsend : ∀ message,pre (.send message)) (session : SessionArea)
    (hostname username password : Text) :
    (relayToWebapp host session hostname username password).Obeys pre post fun _ => True := by
  unfold relayToWebapp
  split
  · refine suspend_obeys.bind fun tab _ => ?_
    split
    · trivial
    · split
      · refine ⟨hsend _,fun _ _ => ?_⟩
        refine suspend_obeys.bind fun res _ => ?_
        split <;> trivial
      · trivial
    · trivial
  · trivial

/-- `handleSaveCredential` reads the session once and then needs no more than
a save does. -/
theorem handleSaveCredential_reads (platform : Platform) (host : Host)
    (hostname username password : Text) :
    ∃ rest : SessionArea → Worker Reply,
      handleSaveCredential platform host hostname username password=(storage (.sessionGet
        [.locked,.userKey,.accessToken,.serverUrl,.items,.webappTabId,.webappOrigin])).bind rest ∧
      ∀ (pre : WorkerCall → Prop) (post : ∀ c,WorkerCall.Answer c → Prop) (session : SessionArea),
        (session.locked≠some true → PermitsSave platform pre post session) →
          (rest session).Obeys pre post fun _ => True := by
  refine ⟨_,rfl,fun pre post session h => ?_⟩
  split
  · trivial
  · rename_i hopen
    have hsend := (h hopen).send
    split
    · exact relayToWebapp_obeys hsend session hostname username password
    · refine (saveCredentialStandalone_obeys (h hopen) _ _ _).bind fun direct _ => ?_
      split
      · trivial
      · exact relayToWebapp_obeys hsend session hostname username password

theorem handleSaveCredential_obeys (h : Permits platform pre post) (hostname username password : Text) :
    (handleSaveCredential platform host hostname username password).Obeys pre post fun _ => True := by
  obtain ⟨rest,heq,hrest⟩ := handleSaveCredential_reads platform host hostname username password
  rw [heq]
  refine (storage_obeys (h.get _)).bind fun session hs => hrest pre post session fun hopen => ?_
  exact ⟨h.refresh,h.send,fun item => h.items _ session _ hs (by simp) hopen⟩

theorem handleSetPin_obeys (h : PermitsSetPin platform pre post) (pin : Text) :
    (handleSetPin platform host pin).Obeys pre post fun _ => True := by
  unfold handleSetPin
  split
  · refine (storage_obeys (h.get _)).bind fun session hs => ?_
    split
    · trivial
    · rename_i hopen
      have hchoice : (chooseDek session.dek).Obeys pre post fun _ => True := by
        cases session.dek with
        | some dek => trivial
        | none => exact ⟨h.random 32,fun _ _ => trivial⟩
      refine hchoice.bind fun dekArr _ => ?_
      refine (settles_obeys (some dekArr)).bind fun dekKey hkey => ?_
      cases hkey
      refine (aesEncrypt_obeys h.random dekArr _).bind fun vaultBlob hblob => ?_
      refine ⟨h.random 16,fun salt _ => ?_⟩
      refine (derivePinKey_obeys pin salt PIN_ITERATIONS).bind fun key hkey => ?_
      subst hkey
      refine (aesEncrypt_obeys h.random _ dekArr).bind fun wrap hwrap => ?_
      refine (storage_obeys (h.pin pin salt wrap vaultBlob dekArr hwrap ⟨_,hblob⟩)).bind fun _ _ => ?_
      refine (storage_obeys (h.dek _ session dekArr hs (by simp) hopen)).bind fun _ _ => ?_
      trivial
  · trivial

theorem pinFailure_obeys (h : PermitsUnlock pre post) (attempts : ℕ) :
    (pinFailure attempts).Obeys pre post fun _ => True := by
  unfold pinFailure
  dsimp only
  split
  · exact (storage_obeys h.remove).bind fun _ _ => trivial
  · exact (storage_obeys (h.attempts _)).bind fun _ _ => trivial

theorem openVault_obeys (h : PermitsUnlock pre post) {device : LocalArea}
    (hdevice : post .localGet device) (hpin : device.pin≠none) (pin : Text) (entry : PinBlob)
    (vaultBlob : VaultBlob) :
    (openVault platform host pin entry vaultBlob).Obeys pre post fun _ => True := by
  refine (derivePinKey_obeys _ _ _).bind fun key _ => ?_
  refine ⟨h.test device _ hdevice hpin,fun _ _ => ?_⟩
  refine (settles_obeys (platform.aesGcmDecrypt key entry.iv entry.wrapped)).bind fun dek _ => ?_
  refine (settles_obeys (some dek)).bind fun dekKey _ => ?_
  refine (settles_obeys (platform.aesGcmDecrypt dekKey vaultBlob.iv vaultBlob.data)).bind
    fun blobBytes _ => ?_
  cases host.parse blobBytes with
  | none => trivial
  | some parsed =>
    refine (storage_obeys (h.opening _ (by simp [Opens,restoreFields]))).bind fun _ _ => ?_
    refine ⟨h.unlocked,fun _ _ => ?_⟩
    exact (storage_obeys (h.attempts 0)).bind fun _ _ => trivial

theorem handleUnlockPin_obeys (h : PermitsUnlock pre post) (pin : Text) :
    (handleUnlockPin platform host pin).Obeys pre post fun _ => True := by
  refine (storage_obeys h.read).bind fun device hdevice => ?_
  split
  · rename_i entry vaultBlob hentry _
    refine Obeys.rescue ?_ fun _ => pinFailure_obeys h _
    exact openVault_obeys h hdevice (by simp [hentry]) pin entry vaultBlob
  · trivial

/-- Every operation keeps to the permissions that concern it. -/
theorem body_obeys {op : WorkerOp} (h : Permits platform pre post)
    (hset : ∀ pin,op=.setPin pin → PermitsSetPin platform pre post)
    (hunlock : ∀ pin,op=.unlockPin pin → PermitsUnlock pre post)
    (hlock : op=.lock → pre (.sessionSet lockFields)) :
    (body platform host op).Obeys pre post fun _ => True := by
  cases op with
  | unlock email serverUrl userKey token => exact (handleUnlock_obeys h _ _ _ _).rescue fun _ => trivial
  | lock => exact (storage_obeys (hlock rfl)).bind fun _ _ => trivial
  | sync => exact handleSync_obeys h
  | storeItems items tabId origin => exact storeItems_obeys h items tabId origin
  | saveCredential hostname username password =>
    exact (handleSaveCredential_obeys h hostname username password).rescue fun _ => trivial
  | setPin pin => exact (handleSetPin_obeys (hset pin rfl) pin).rescue fun _ => trivial
  | unlockPin pin => exact (handleUnlockPin_obeys (hunlock pin rfl) pin).rescue fun _ => trivial
  | removePin =>
    refine (storage_obeys h.remove).bind fun _ _ => ?_
    exact (storage_obeys h.removeDek).bind fun _ _ => trivial

end Handlers

section Samples

/-- The JSON text of a snapshot without items, server and keys. -/
def emptyBundleText : Text :=
  "\x7b\"items\":[],\"serverUrl\":\"\",\"userKey\":null,\"accessToken\":null\x7d".toList

/-- A host that knows the empty snapshot only. -/
def sampleHost : Host where
  stringify _ := utf8 emptyBundleText
  parse bytes := if bytes=utf8 emptyBundleText then some (.object (some []) (some []) none none) else none
  originOf _ := none

/-- An arrival at the handler with this index. -/
def arrive (n : ℕ) (value : Settled) : WorkerEvent := .resume n ⟨[],value⟩

/-- So many fulfilled promises of one handler. -/
def fulfil (n times : ℕ) : List WorkerEvent := List.replicate times (arrive n .fulfilled)

/-- A worker after installation, without a PIN and with counting random bytes. -/
def installed : WorkerPool := ⟨.started (some true) ⟨none,none,none⟩ UInt8.ofNat,[]⟩

end Samples

end NadSafe.ExtensionContracts
