import NadSafe.RecoveryBlobs
import NadSafe.SequentialScript
import NadSafe.WebOperations

/-!
# The stored recovery blob of a device

`doRegister` stores the wrapped recovery key in localStorage under a key made
of the server address and the e-mail address. The recovery page builds the
key again from what is typed into it. The two pages normalise the address of
the server in one way and the e-mail address in two.
-/

namespace NadSafe.RecoveryLookup

open HostText AsyncScript AsyncScript.Script WireFormat WebCrypto WebClient WebScripts WebOperations
open SequentialScript RecoveryBlobs

section Device

/-- A call of a page on a device: to its tab, or to the recovery entries of
localStorage. -/
inductive DeviceCall where
  /-- A call to the tab. -/
  | tab (c : WebCall)
  /-- `localStorage.setItem`. -/
  | setItem (key value : Text)
  /-- `localStorage.getItem`. -/
  | getItem (key : Text)

/-- The answer type of a call. -/
abbrev DeviceCall.Answer : DeviceCall → Type
  | .tab c => c.Answer
  | .setItem _ _ => Unit
  | .getItem _ => Option Text

/-- An access to the recovery entries. -/
inductive Access where
  /-- An entry was written. -/
  | written (key value : Text)
  /-- A key was looked up, with what was found. -/
  | read (key : Text) (value : Option Text)
  deriving DecidableEq

/-- A device with one open tab. -/
structure Device where
  /-- The tab. -/
  tab : WebState
  /-- The recovery entries, latest first. -/
  items : List (Text×Text)
  /-- Accesses to them so far, oldest first. -/
  accessed : List Access

/-- `localStorage.getItem`. -/
def Device.getItem (d : Device) (key : Text) : Option Text :=
  (d.items.find? fun item => item.1=key).map Prod.snd

/-- One call. -/
def exec : ∀ c : DeviceCall,Device → c.Answer×Device
  | .tab c,d => ((WebClient.exec c d.tab).1,{d with tab := (WebClient.exec c d.tab).2})
  | .setItem key value,d =>
    ((),{d with items := (key,value)::d.items,accessed := d.accessed++[Access.written key value]})
  | .getItem key,d =>
    (d.getItem key,{d with accessed := d.accessed++[Access.read key (d.getItem key)]})

/-- A script of a page on a device. -/
abbrev OnDevice (α : Type) := Script DeviceCall DeviceCall.Answer Arrived Text α

/-- `localStorage.setItem` as a step of a script. -/
def setItem (key value : Text) : OnDevice Unit := perform (DeviceCall.setItem key value)

/-- `localStorage.getItem` as a step of a script. -/
def getItem (key : Text) : OnDevice (Option Text) := perform (DeviceCall.getItem key)

/-- A script of the tab, on its device. -/
def onTab {α : Type} : Web α → OnDevice α
  | .done a => .done a
  | .fail e => .fail e
  | .call c k => .call (.tab c) fun r => onTab (k r)
  | .await k => .await fun i => onTab (k i)

end Device

section Pages

variable (platform : Platform)

/-- The key pair that WebCrypto generates, exported. -/
structure RsaKeyPair where
  /-- The public key. -/
  spki : Bytes
  /-- The private key. -/
  pkcs8 : Bytes

/-- `generateRsaKeyPair`: the public key as text and the private key sealed. -/
def generateRsaKeyPair (pair : RsaKeyPair) (userSymKey : SymKey) : Web (Text×Text) := do
  settles (some ())
  let (pubDer,privDer) ← both (settles (some pair.spki)) (settles (some pair.pkcs8))
  let enc ← encryptEncString platform privDer (.owned userSymKey)
  pure (toB64 pubDer,serializeEncString enc)

/-- `register`. Nested members of its JSON object are written with a dot. -/
def register (client : ℕ) (email name masterPasswordHash key publicKey encryptedPrivateKey : Text) :
    Web Unit := do
  let _ ← request client "POST".toList "/identity/accounts/register".toList
    (.form [("email".toList,email),("name".toList,name),
      ("masterPasswordHash".toList,masterPasswordHash),("key".toList,key),("kdf".toList,"1".toList),
      ("kdfIterations".toList,"3".toList),("kdfMemory".toList,"64".toList),
      ("kdfParallelism".toList,"4".toList),("keys.publicKey".toList,publicKey),
      ("keys.encryptedPrivateKey".toList,encryptedPrivateKey)]) true
  pure ()

/-- The parameters of a new account. -/
def newAccountParams : KdfParams := .argon2id 65536 3 4

/-- `doRegister` up to the wrapped recovery key. -/
def registerAccount (cleanUrl email name password : Text) (pair : RsaKeyPair) : Web Text := do
  invoke (.setServerUrl cleanUrl)
  let client ← invoke (.initApiClient cleanUrl)
  let keys ← deriveLoginKeys platform password email newAccountParams
  let userKeyBytes ← invoke (.randomBytes 64)
  let encryptedUserKey ← wrapUserKey platform userKeyBytes keys.stretchedKey
  let userSymKey ← lift (symKeyFromBytes userKeyBytes)
  let (publicKeyBase64,encryptedPrivateKey) ← generateRsaKeyPair platform pair userSymKey
  register client email name (toB64 keys.authHash) encryptedUserKey publicKeyBase64 encryptedPrivateKey
  let deviceId ← invoke .getOrCreateDeviceId
  let tokenRes ← loginWithPassword client email keys.authHash deviceId none
  invoke (.setToken client tokenRes.accessToken)
  let regTokenKey := tokenRes.key.getD []
  if regTokenKey=[] then throw "Server did not return vault key after registration".toList
  else
    let userKey ← unwrapUserKey platform regTokenKey keys.stretchedKey
    let cell ← invoke (.setSessionUserKey userKey)
    restoreRsaKey platform encryptedPrivateKey cell userKey
    invoke (.login (signedInUser email newAccountParams) tokenRes.accessToken tokenRes.refreshToken
      regTokenKey (some encryptedPrivateKey))
    let entropy ← invoke (.randomBytes 32)
    wrapUserKeyWithRecovery platform (.live cell userKey) entropy

/-- The start of every recovery key in localStorage. -/
def rkPrefix : Text := "ns_rk:".toList

/-- `rkStorageKey` of `doRegister`. -/
def rkStorageKey (serverUrl email : Text) : Text :=
  rkPrefix++stripSlash serverUrl++ '|'::email

/-- `doRegister`. The answer is the error that the page shows. -/
def doRegister (serverUrl email name password : Text) (pair : RsaKeyPair) : OnDevice (Option Text) :=
  tryCatch
    (do
      let wrappedRecoveryKey ←
        onTab (registerAccount platform (stripSlash serverUrl) email name password pair)
      setItem (rkStorageKey serverUrl email) wrappedRecoveryKey
      pure none)
    fun message => pure (some message)

/-- The fields of the recovery page. -/
structure RecoveryPage where
  /-- Server address. -/
  server : Text
  /-- E-mail address. -/
  email : Text
  /-- Groups of the phrase. -/
  groups : List Text

/-- The e-mail field is changed. -/
def RecoveryPage.changeEmail (page : RecoveryPage) (value : Text) : RecoveryPage :=
  {page with email := platform.toLowerCase value}

/-- The server field is changed. -/
def RecoveryPage.changeServer (page : RecoveryPage) (value : Text) : RecoveryPage :=
  {page with server := value}

/-- `rkKey` of `handlePhraseSubmit`. -/
def rkKey (page : RecoveryPage) : Text :=
  rkPrefix++stripSlash page.server++ '|'::platform.toLowerCase page.email

/-- `handlePhraseSubmit`: the recovered key, or the error that the page
shows. -/
def handlePhraseSubmit (page : RecoveryPage) : OnDevice (Except Text SymKey) :=
  if page.email=[] then pure (.error "Enter your email address".toList)
  else if page.groups.any (fun g => jsLength g≠8)=true then
    pure (.error "Each group must be exactly 8 hex characters".toList)
  else do
    let phrase := [' '].intercalate page.groups
    let wrappedKey := (← getItem (rkKey platform page)).getD []
    if wrappedKey=[] then
      pure (.error ("No recovery key found for this account on this device. ".toList++
        "Recovery is only possible on the device where the account was created.".toList))
    else
      tryCatch
        (do
          let userKey ← onTab (unwrapUserKeyWithRecovery platform wrappedKey phrase)
          pure (.ok userKey))
        fun _ => pure (.error "Invalid recovery phrase — please check each group and try again".toList)

end Pages

section Keys

/-- A trailing slash that goes brings no character. -/
theorem mem_of_mem_stripSlash {c : Char} {url : Text} (h : c∈stripSlash url) : c∈url := by
  unfold stripSlash at h
  split at h
  · exact List.mem_of_mem_dropLast h
  · exact h

/-- A storage key names one server and one e-mail address, when neither server
address has a bar. -/
theorem rkStorageKey_injective {serverUrl serverUrl' email email' : Text} (hurl : '|'∉ serverUrl)
    (hurl' : '|'∉ serverUrl') (h : rkStorageKey serverUrl email=rkStorageKey serverUrl' email') :
    stripSlash serverUrl=stripSlash serverUrl' ∧ email=email' := by
  have htail : stripSlash serverUrl++ '|'::email=stripSlash serverUrl'++ '|'::email' := by
    simp only [rkStorageKey,List.append_assoc] at h
    exact List.append_cancel_left h
  have hcut : splitOnce '|' (stripSlash serverUrl++ '|'::email)=some (stripSlash serverUrl,email) :=
    splitOnce_eq_some_iff.mpr ⟨rfl,fun hm => hurl (mem_of_mem_stripSlash hm)⟩
  have hcut' : splitOnce '|' (stripSlash serverUrl++ '|'::email)=some (stripSlash serverUrl',email') :=
    splitOnce_eq_some_iff.mpr ⟨htail,fun hm => hurl' (mem_of_mem_stripSlash hm)⟩
  have hparts := Option.some.inj (hcut.symm.trans hcut')
  exact ⟨congrArg Prod.fst hparts,congrArg Prod.snd hparts⟩

/-- Under one server address, a storage key names one e-mail address. -/
theorem rkStorageKey_email {serverUrl email email' : Text}
    (h : rkStorageKey serverUrl email=rkStorageKey serverUrl email') : email=email' :=
  (List.cons.inj (List.append_cancel_left h)).2

end Keys

section Runs

variable {platform : Platform}

/-- Whatever arrives. -/
def Anything (_ : Arrival Arrived) : Prop := True

/-- The recovery entries of two moments of a device agree. -/
structure SameEntries (d d' : Device) : Prop where
  /-- The entries. -/
  items : d'.items=d.items
  /-- The accesses. -/
  accessed : d'.accessed=d.accessed

/-- A script of the tab does not touch the recovery entries. -/
theorem onTab_ensures {α : Type} (p : Web α) {d d' : Device} (hd : SameEntries d d') :
    Ensures exec Anything (fun _ => SameEntries d) (SameEntries d) (onTab p) d' := by
  induction p generalizing d' with
  | done a => exact hd
  | fail e => exact hd
  | call c k ih => exact ih _ ⟨hd.items,hd.accessed⟩
  | await k ih => exact fun i _ => ih i hd

/-- The device after a registration that stored its blob. -/
def Stored (key blob : Text) (d d' : Device) : Prop :=
  d'.items=(key,blob)::d.items ∧ d'.accessed=d.accessed++[Access.written key blob]

/-- A registration without an error stored one blob. -/
theorem doRegister_ensures (serverUrl email name password : Text) (pair : RsaKeyPair) (d : Device) :
    Ensures exec Anything
      (fun shown d' => shown=none → ∃ blob,Stored (rkStorageKey serverUrl email) blob d d')
      (fun _ => False) (doRegister platform serverUrl email name password pair) d := by
  refine Ensures.rescue (E:=SameEntries d) ?_ fun _ _ _ hnone => nomatch hnone
  refine (onTab_ensures _ ⟨rfl,rfl⟩).bind fun blob d₁ h₁ => ?_
  refine fun _ => ⟨blob,?_,?_⟩
  · exact congrArg (List.cons _) h₁.items
  · exact congrArg (· ++ [Access.written _ blob]) h₁.accessed

/-- A submitted page looks up one key, unless its e-mail field is empty. -/
theorem handlePhraseSubmit_ensures {page : RecoveryPage}
    (hgroups : ∀ g∈page.groups,jsLength g=8) (d : Device) :
    Ensures exec Anything
      (fun _ d' => d'.accessed=if page.email=[] then d.accessed
        else d.accessed++[Access.read (rkKey platform page) (d.getItem (rkKey platform page))])
      (fun _ => False) (handlePhraseSubmit platform page) d := by
  have hcomplete : ¬page.groups.any (fun g => jsLength g≠8)=true := by
    simpa using hgroups
  unfold handlePhraseSubmit
  split_ifs with hemail
  · rfl
  · -- The lookup, and then only calls to the tab.
    refine Ensures.perform (show exec (.getItem (rkKey platform page)) d=(_,_) from rfl) ?_
    dsimp only
    split_ifs
    · rfl
    · refine Ensures.rescue (E:=SameEntries (exec (.getItem (rkKey platform page)) d).2) ?_
        fun _ d' h => show d'.accessed=_ from h.accessed
      refine (onTab_ensures _ ⟨rfl,rfl⟩).bind fun userKey d' h => ?_
      exact h.accessed

end Runs

section Accounts

variable {platform : Platform}

/-- What ECMAScript says of `toLowerCase`: lower-case text stays, and no text
comes from nothing. -/
structure CaseMapping (platform : Platform) : Prop where
  /-- Lower-case text stays. -/
  idempotent : ∀ s,platform.toLowerCase (platform.toLowerCase s)=platform.toLowerCase s
  /-- The empty text stays empty. -/
  empty : platform.toLowerCase []=[]

/-- A registration on some device that ended without an error: what was typed,
the generated key pair and everything that arrived. -/
structure Registration (platform : Platform) where
  /-- The device before. -/
  device : Device
  /-- Typed server address. -/
  serverUrl : Text
  /-- Typed e-mail address. -/
  email : Text
  /-- Typed name. -/
  name : Text
  /-- Typed password. -/
  password : Text
  /-- The generated key pair. -/
  pair : RsaKeyPair
  /-- What arrives at the suspensions. -/
  arrivals : ℕ → Arrival Arrived
  /-- The page shows no error. -/
  stored : (play exec (doRegister platform serverUrl email name password pair) arrivals device).1=
    .ok none

/-- The device after a registration. -/
def Registration.after (r : Registration platform) : Device :=
  (play exec (doRegister platform r.serverUrl r.email r.name r.password r.pair) r.arrivals r.device).2

/-- A later visit of the recovery page: what the device has become, the page
with complete groups before its address fields are filled in, and everything
that arrives. -/
structure Visit where
  /-- The device before. -/
  device : Device
  /-- The page before. -/
  page : RecoveryPage
  /-- Every group is complete. -/
  complete : ∀ g∈page.groups,jsLength g=8
  /-- What arrives at the suspensions. -/
  arrivals : ℕ → Arrival Arrived

/-- The page with the fields filled in. -/
def Visit.filled (platform : Platform) (v : Visit) (serverUrl email : Text) : RecoveryPage :=
  (v.page.changeServer serverUrl).changeEmail platform email

/-- The device after the submission of the filled page. -/
def Visit.after (platform : Platform) (v : Visit) (serverUrl email : Text) : Device :=
  (play exec (handlePhraseSubmit platform (v.filled platform serverUrl email)) v.arrivals v.device).2

/-- A registration wrote a key: this was its only access. -/
def Writes (r : Registration platform) (key blob : Text) : Prop :=
  r.after.accessed=r.device.accessed++[Access.written key blob] ∧ r.after.getItem key=some blob

/-- A visit with the texts of a registration looks up the key that the
registration wrote. -/
def LooksUp (r : Registration platform) (v : Visit) : Prop :=
  ∃ key blob,Writes r key blob ∧
    (v.after platform r.serverUrl r.email).accessed=
      v.device.accessed++[Access.read key (v.device.getItem key)]

/-- No registration of another account, on this or any other device, writes the
key of this one, as long as the server addresses have no bar. -/
def Unshared (r : Registration platform) : Prop :=
  ∀ (r' : Registration platform) (key blob blob' : Text),'|'∉r.serverUrl → '|'∉r'.serverUrl →
    Writes r key blob → Writes r' key blob' →
      stripSlash r.serverUrl=stripSlash r'.serverUrl ∧ r.email=r'.email

/-- A registration writes its storage key. -/
theorem Registration.writes (r : Registration platform) :
    ∃ blob,Writes r (rkStorageKey r.serverUrl r.email) blob := by
  have hrun := (doRegister_ensures r.serverUrl r.email r.name r.password r.pair r.device).result
    (fun _ => trivial) r.stored
  obtain ⟨blob,hitems,haccessed⟩ := hrun rfl
  have hitems : r.after.items=(rkStorageKey r.serverUrl r.email,blob)::r.device.items := hitems
  refine ⟨blob,haccessed,?_⟩
  rw [Device.getItem,hitems]
  simp

/-- And no other key. -/
theorem Writes.key_eq {r : Registration platform} {key blob : Text} (h : Writes r key blob) :
    key=rkStorageKey r.serverUrl r.email := by
  obtain ⟨blob',h'⟩ := r.writes
  have haccess := List.append_cancel_left (h.1.symm.trans h'.1)
  simp only [List.cons.injEq,Access.written.injEq] at haccess
  exact haccess.1.1

/-- The key of a filled page is the storage key of the lower-case address. -/
theorem rkKey_filled (hcase : CaseMapping platform) (v : Visit) (serverUrl email : Text) :
    rkKey platform (v.filled platform serverUrl email)=
      rkStorageKey serverUrl (platform.toLowerCase email) := by
  have htwice : rkKey platform (v.filled platform serverUrl email)=
      rkStorageKey serverUrl (platform.toLowerCase (platform.toLowerCase email)) := rfl
  rw [htwice,hcase.idempotent]

/-- What a visit looks up. -/
theorem Visit.after_accessed (hcase : CaseMapping platform) (v : Visit) (serverUrl email : Text) :
    (v.after platform serverUrl email).accessed=
      if platform.toLowerCase email=[] then v.device.accessed
      else v.device.accessed++[Access.read (rkStorageKey serverUrl (platform.toLowerCase email))
        (v.device.getItem (rkStorageKey serverUrl (platform.toLowerCase email)))] := by
  have hrun := @handlePhraseSubmit_ensures platform (v.filled platform serverUrl email) v.complete
    v.device
  rw [rkKey_filled hcase] at hrun
  exact (hrun.mono (fun _ _ h => h) fun _ h => h.elim).always fun _ => trivial

/-- A visit looks up the written key just for lower-case addresses. -/
theorem looksUp_iff (hcase : CaseMapping platform) (r : Registration platform) (v : Visit) :
    LooksUp r v ↔ r.email≠[] ∧ platform.toLowerCase r.email=r.email := by
  constructor
  · rintro ⟨key,blob,hwrites,hread⟩
    rw [v.after_accessed hcase] at hread
    split_ifs at hread with hempty
    · exact absurd hread (by simp)
    · have haccess := List.append_cancel_left hread
      simp only [List.cons.injEq,Access.read.injEq] at haccess
      have hemail := rkStorageKey_email (haccess.1.1.trans hwrites.key_eq)
      exact ⟨fun h => hempty (by rw [h,hcase.empty]),hemail⟩
  · rintro ⟨hemail,hlower⟩
    obtain ⟨blob,hwrites⟩ := r.writes
    refine ⟨_,blob,hwrites,?_⟩
    rw [v.after_accessed hcase,hlower,if_neg hemail]

/-- Registrations of different accounts write different keys. -/
theorem unshared (r : Registration platform) : Unshared r := by
  intro r' key blob blob' hurl hurl' hwrites hwrites'
  exact rkStorageKey_injective hurl hurl' (hwrites.key_eq.symm.trans hwrites'.key_eq)

end Accounts

section Example

/-- A platform with the case mapping of ASCII. -/
def asciiCase : Platform := {transparent with toLowerCase := fun s => s.map Char.toLower}

/-- No lower-case letter of ASCII is an upper-case one. -/
theorem toLower_toLower (c : Char) : c.toLower.toLower=c.toLower := by
  unfold Char.toLower
  split
  · rename_i hupper
    rw [dif_neg]
    intro hagain
    have hA : 'A'.val.toNat=65 := rfl
    have hZ : 'Z'.val.toNat=90 := rfl
    have hshift : ('a'.val- 'A'.val).toNat=32 := rfl
    simp only [ge_iff_le,UInt32.le_iff_toNat_le,UInt32.toNat_add] at hupper hagain
    omega
  · rfl

theorem asciiCase_caseMapping : CaseMapping asciiCase where
  idempotent s := by
    have hmap : (s.map Char.toLower).map Char.toLower=s.map Char.toLower := by
      rw [List.map_map]
      exact List.map_congr_left fun c _ => toLower_toLower c
    exact hmap
  empty := rfl

/-- A device that was never used. -/
def newDevice : Device :=
  ⟨.loaded .initial ⟨none,none,none⟩ "https://vault.example.org".toList fun _ => 0,[],[]⟩

/-- The wrapped key of a registration with the password `pw`, as the server
returns it. -/
def registeredKey : Text :=
  serializeEncString (sealed asciiCase (stretched asciiCase (utf8 "pw".toList))
    (List.replicate 16 0) (List.replicate 64 0))

/-- Everything that arrives during that registration: the server answers the
two requests, every other promise is fulfilled. -/
def registrationArrivals : ℕ → Arrival Arrived
  | 17 => ⟨[],.response 200 "OK".toList⟩
  | 18 => ⟨[],.body .empty⟩
  | 19 => ⟨[],.response 200 "OK".toList⟩
  | 20 => ⟨[],.body (.token ⟨"token".toList,"refresh".toList,some registeredKey,none⟩)⟩
  | _ => ⟨[],.settled⟩

/-- Ann signs up with a capital letter. -/
def annCapital : Registration asciiCase where
  device := newDevice
  serverUrl := "https://vault.example.org/".toList
  email := "Ann@example.org".toList
  name := "Ann".toList
  password := "pw".toList
  pair := ⟨[1],[2]⟩
  arrivals := registrationArrivals
  stored := by set_option maxRecDepth 4000 in decide

/-- Ann signs up without one. -/
def annLower : Registration asciiCase where
  device := newDevice
  serverUrl := "https://vault.example.org/".toList
  email := "ann@example.org".toList
  name := "Ann".toList
  password := "pw".toList
  pair := ⟨[1],[2]⟩
  arrivals := registrationArrivals
  stored := by set_option maxRecDepth 4000 in decide

/-- The recovery page with a phrase in its eight groups. -/
def visit (device : Device) : Visit where
  device := device
  page := ⟨[],[],List.replicate 8 "00000000".toList⟩
  complete := by decide
  arrivals _ := ⟨[],.settled⟩

end Example

/-- The recovery page looks up the key that registration wrote, and no other
account shares this key, just for e-mail addresses without upper-case
letters. -/
theorem recovery_key_found_iff {platform : Platform} (hcase : CaseMapping platform)
    (r : Registration platform) (v : Visit) :
    LooksUp r v ∧ Unshared r ↔ r.email≠[] ∧ platform.toLowerCase r.email=r.email := by
  rw [looksUp_iff hcase]
  exact and_iff_left (unshared r)

theorem recovery_key_found_ann :
    LooksUp annLower (visit annLower.after) ∧ Unshared annLower :=
  (recovery_key_found_iff asciiCase_caseMapping annLower (visit annLower.after)).mpr
    ⟨by decide,by decide⟩

/-- An address with a capital letter is looked up under another key. -/
theorem recovery_key_missed : ¬∀ platform,CaseMapping platform → ∀ (r : Registration platform)
    (v : Visit),LooksUp r v ∧ Unshared r := by
  intro hall
  have hfound := (hall asciiCase asciiCase_caseMapping annCapital (visit annCapital.after)).1
  have hlower := ((looksUp_iff asciiCase_caseMapping annCapital _).mp hfound).2
  exact absurd hlower (by decide)

end NadSafe.RecoveryLookup
