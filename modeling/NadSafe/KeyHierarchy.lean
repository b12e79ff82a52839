import NadSafe.CryptoCore
import NadSafe.WebResults

/-!
# Agreement of the key hierarchies

crypto-core and the web client derive the same master key, auth hash and
stretched key, and each unwraps the user keys that the other wrapped. The
Rust side expands with HKDF and works on arrays, the web side signs one
block by hand and works on key halves; both seal the same wire text.
-/

namespace NadSafe.KeyHierarchy

open HostText AsyncScript WireFormat WebCrypto WebClient WebResults FulfilledScript CryptoCore

section Sealing

variable {platform : Platform} {key : SymKey}

/-- crypto-core takes a key apart as the web client does. -/
theorem symmetricKeyFromBytes_toBytes (key : SymKey) :
    symmetricKeyFromBytes (symKeyToBytes key)=.ok key := by
  have hlength : (symKeyToBytes key).length=64 := by
    rw [symKeyToBytes,List.length_append,key.encLength,key.macLength]
  rw [symmetricKeyFromBytes,dif_pos hlength]
  congr
  · rw [symKeyToBytes,List.take_left' key.encLength]
  · rw [symKeyToBytes,List.drop_left' key.encLength]

/-- The bytes of a key, as an array. -/
def arrayOf (key : SymKey) : Fixed 64 :=
  ⟨symKeyToBytes key,by rw [symKeyToBytes,List.length_append,key.encLength,key.macLength]⟩

/-- Every array of 64 bytes is the array of a key. -/
theorem exists_arrayOf (bytes : Fixed 64) : ∃ key,arrayOf key=bytes := by
  obtain ⟨bytes,hlength⟩ := bytes
  refine ⟨⟨bytes.take 32,bytes.drop 32,by simp [hlength],by simp [hlength]⟩,?_⟩
  exact Subtype.ext (List.take_append_drop 32 bytes)

/-- A crypto-core encryption has the parts that the web client seals. -/
theorem encrypt_eq (data : Bytes) (iv : Fixed 16) :
    ∃ enc,EncString.encrypt platform data key iv=.ok enc ∧ enc.encType=2 ∧
      enc.parts=sealed platform key iv.1 data := ⟨_,rfl,rfl,rfl⟩

/-- crypto-core writes the wire text that the web client writes. -/
theorem display_sealed {enc : EncString} (htype : enc.encType=2) {iv data : Bytes}
    (hparts : enc.parts=sealed platform key iv data) :
    enc.display=serializeEncString (sealed platform key iv data) := by
  rw [display_eq htype,serializeEncString_eq,←hparts]
  rfl

/-- crypto-core reads the wire text of a sealed value back. -/
theorem parse_sealed {iv : Bytes} (hiv : iv.length=16) (data : Bytes) :
    ∃ enc,EncString.parse (serializeEncString (sealed platform key iv data))=.ok enc ∧
      enc.parts=sealed platform key iv data := by
  refine ⟨⟨2,iv,_,_,hiv,platform.hmac_length _ _⟩,?_,rfl⟩
  rw [serializeEncString_eq]
  exact parse_eq_ok_iff.mpr ⟨rfl,"2".toList,by decide,by decide,rfl⟩

/-- Arrays compare equal when they are. -/
theorem constantTimeEq_self (a : Fixed 32) : constantTimeEq a a=true := by
  rw [constantTimeEq,beq_iff_eq,foldl_diff_eq_zero]
  refine ⟨rfl,fun p hp => ?_⟩
  obtain ⟨i,hi,rfl⟩ := List.mem_iff_getElem.mp hp
  rw [List.getElem_zip]

/-- crypto-core opens what either side sealed under the same key. -/
theorem decrypt_sealed {enc : EncString} {iv data : Bytes}
    (hparts : enc.parts=sealed platform key iv data) : EncString.decrypt platform enc key=.ok data := by
  have hiv : enc.iv=iv := congrArg EncStringParsed.iv hparts
  have hct : enc.ct=platform.aesCbcEncrypt key.encKey iv data := congrArg EncStringParsed.ct hparts
  have hmac : enc.mac=computeMac platform key.macKey enc.iv enc.ct := by
    rw [hct,hiv]
    exact congrArg EncStringParsed.mac hparts
  unfold EncString.decrypt
  simp only [hmac,constantTimeEq_self,if_true]
  rw [hct,hiv,platform.aesCbc_open]

end Sealing

section Derivation

variable {platform : Platform} {pre : WebCall → Prop} {post : ∀ c,WebCall.Answer c → Prop}

/-- The master key of crypto-core is the one the web client derives, in the
browser and in the desktop shell. -/
theorem deriveMasterKey_yields {crates : Crates platform} (hcommand : RunsCommand crates)
    {password email : Text} {params : KdfParams} {masterKey : Fixed 32}
    (hkey : CryptoCore.deriveMasterKey crates (utf8 password) email params=.ok masterKey) :
    Yields pre post Fulfilled (· = masterKey.1)
      (WebScripts.deriveMasterKey platform password email params) := by
  cases params with
  | argon2id mCost tCost pCost =>
    have hnative : platform.deriveMasterKeyNative password email mCost tCost pCost=
        Base64.encode masterKey.1 := by
      refine hcommand password email mCost tCost pCost _ ?_
      simp only [deriveMasterKeyCommand,Option.getD_some,hkey]
      rfl
    have hbrowser : platform.argon2id (utf8 password) (utf8 (platform.toLowerCase email)) mCost tCost
        pCost=masterKey.1 := by
      simp only [CryptoCore.deriveMasterKey] at hkey
      split at hkey
      · cases hkey
      · cases hkey
        rfl
    unfold WebScripts.deriveMasterKey
    dsimp only
    split
    · refine (settles_yields ()).bind fun _ _ => ?_
      refine (settles_yields _).bind fun b64 hb64 => ?_
      rw [hb64,hnative,fromB64_encode]
      exact rfl
    · rw [hbrowser]
      exact settles_yields masterKey.1
  | pbkdf2 iterations =>
    cases hkey
    refine (settles_yields (utf8 password)).bind fun keyMaterial hk => ?_
    rw [hk]
    exact settles_yields _

theorem deriveAuthHash_yields (crates : Crates platform) (masterKey : Fixed 32) (password : Text) :
    Yields pre post Fulfilled (· = (CryptoCore.deriveAuthHash crates masterKey (utf8 password)).1)
      (WebScripts.deriveAuthHash platform masterKey.1 password) := by
  refine (settles_yields masterKey.1).bind fun keyMaterial hk => ?_
  rw [hk]
  exact settles_yields _

/-- One block of HKDF-Expand, as both sides compute it. -/
theorem hkdfExpand_one (platform : Platform) (masterKey : Fixed 32) (info : Text) :
    ∃ out,hkdfExpand platform masterKey.1 (utf8 info) 32=.ok out ∧
      out.1=(platform.hmac masterKey.1 (WebScripts.hkdfMessage info)).take 32 := by
  have hprk : ¬masterKey.1.length<32 := by
    rw [masterKey.2]
    decide
  refine ⟨_,by rw [hkdfExpand,if_neg hprk,if_neg (by decide)],?_⟩
  dsimp only
  rw [Hkdf.expand_one masterKey.1 (utf8 info) platform.hmac_length (by decide),
    List.take_of_length_le (by rw [platform.hmac_length])]
  rfl

/-- crypto-core's stretched array holds the two halves of the web client. -/
theorem stretchMasterKey_eq (masterKey : Fixed 32) :
    CryptoCore.stretchMasterKey platform masterKey=
      .ok (arrayOf (WebScripts.stretched platform masterKey.1)) := by
  obtain ⟨enc,henc,hencBytes⟩ := hkdfExpand_one platform masterKey "enc".toList
  obtain ⟨mac,hmac,hmacBytes⟩ := hkdfExpand_one platform masterKey "mac".toList
  rw [CryptoCore.stretchMasterKey,henc,hmac]
  refine congrArg Except.ok (Subtype.ext ?_)
  change enc.1++mac.1=_
  rw [hencBytes,hmacBytes]
  rfl

theorem stretchMasterKey_yields (masterKey : Bytes) :
    Yields pre post Fulfilled (· = WebScripts.stretched platform masterKey)
      (WebScripts.stretchMasterKey platform masterKey) := by
  refine (settles_yields ()).bind fun _ _ => ?_
  refine (settles_yields ()).bind fun _ _ => ?_
  exact settles_yields _

/-- The web client wraps to a text sealed under the stretched key. -/
theorem wrapUserKey_yields (userKeyBytes : Bytes) (stretchedKey : SymKey) :
    Yields RandomOnly randomPost Fulfilled (SealedAs platform stretchedKey userKeyBytes)
      (WebScripts.wrapUserKey platform userKeyBytes stretchedKey) := by
  have haccess := ownAccess stretchedKey
  have hfaithful := ownFaithful stretchedKey
  refine (encryptEncString_yields haccess hfaithful userKeyBytes).bind fun enc he => ?_
  obtain ⟨iv,hiv,rfl⟩ := he
  exact ⟨iv,hiv,rfl⟩

/-- The web client unwraps what is sealed under the stretched key. -/
theorem unwrapUserKey_yields {stretchedKey userKey : SymKey} {text : Text}
    (hs : SealedAs platform stretchedKey (symKeyToBytes userKey) text) :
    Yields RandomOnly randomPost Fulfilled (· = userKey)
      (WebScripts.unwrapUserKey platform text stretchedKey) := by
  obtain ⟨parsed,hparse,hopen⟩ := hs.parse
  unfold WebScripts.unwrapUserKey
  rw [hparse]
  refine (decryptEncString_yields (ownAccess stretchedKey) (ownFaithful stretchedKey) hopen).bind
    fun raw hraw => ?_
  rw [hraw,symKeyFromBytes_toBytes]
  exact rfl

/-- crypto-core unwraps what is sealed under its stretched key. -/
theorem decryptUserKey_sealed {masterKey : Fixed 32} {userKey : Fixed 64} {enc : EncString} {iv : Bytes}
    (hparts : enc.parts=sealed platform (WebScripts.stretched platform masterKey.1) iv userKey.1) :
    decryptUserKey platform masterKey enc=.ok userKey := by
  rw [decryptUserKey,stretchMasterKey_eq]
  simp only [bind,Except.bind,arrayOf,symmetricKeyFromBytes_toBytes,decrypt_sealed hparts]
  rw [userKeyFromBytes,dif_pos userKey.2]

/-- crypto-core wraps to the text that the web client would seal. -/
theorem generateUserKey_eq (masterKey : Fixed 32) (userKey : Fixed 64) (iv : Fixed 16) :
    ∃ enc,generateUserKey platform masterKey userKey iv=.ok (userKey,enc) ∧
      SealedAs platform (WebScripts.stretched platform masterKey.1) userKey.1 enc.display := by
  obtain ⟨enc,henc,htype,hparts⟩ :=
    @encrypt_eq platform (WebScripts.stretched platform masterKey.1) userKey.1 iv
  refine ⟨enc,?_,iv.1,iv.2,display_sealed htype hparts⟩
  rw [generateUserKey,stretchMasterKey_eq]
  simp only [bind,Except.bind,arrayOf,symmetricKeyFromBytes_toBytes,henc]

/-- crypto-core rejects a derivation only where the Argon2 crate does. -/
theorem deriveMasterKey_error {crates : Crates platform} {password : Bytes} {email : Text}
    {params : KdfParams} {e : CryptoError}
    (h : CryptoCore.deriveMasterKey crates password email params=.error e) :
    ∃ mCost tCost pCost reason,params=.argon2id mCost tCost pCost ∧ e=.kdf reason ∧
      crates.argon2Error password (utf8 (platform.toLowerCase email)) mCost tCost pCost=some reason := by
  cases params with
  | argon2id mCost tCost pCost =>
    simp only [CryptoCore.deriveMasterKey] at h
    split at h
    · rename_i reason hreason
      cases h
      exact ⟨mCost,tCost,pCost,reason,rfl,rfl,hreason⟩
    · cases h
  | pbkdf2 iterations => cases h

end Derivation

/-- The two hierarchies agree. Where crypto-core derives a master key, every
run of the web client without a rejected promise derives the same key, auth
hash and stretched key; the web client unwraps what crypto-core wrapped, and
crypto-core what the web client wrapped. crypto-core derives none only where
Argon2 rejects its arguments. -/
theorem key_hierarchies_agree {platform : Platform} {crates : Crates platform}
    (hcommand : RunsCommand crates) (password email : Text) (params : KdfParams) :
    (∀ e,CryptoCore.deriveMasterKey crates (utf8 password) email params=.error e →
      ∃ mCost tCost pCost reason,params=.argon2id mCost tCost pCost ∧ e=.kdf reason ∧
        crates.argon2Error (utf8 password) (utf8 (platform.toLowerCase email)) mCost tCost pCost=
          some reason) ∧
    ∀ masterKey,CryptoCore.deriveMasterKey crates (utf8 password) email params=.ok masterKey →
      ∃ stretchedKey : SymKey,
        CryptoCore.stretchMasterKey platform masterKey=.ok (arrayOf stretchedKey) ∧
        (∀ run : WebRun,
          run.result (WebScripts.deriveMasterKey platform password email params)=.ok masterKey.1 ∧
          run.result (WebScripts.deriveAuthHash platform masterKey.1 password)=
            .ok (CryptoCore.deriveAuthHash crates masterKey (utf8 password)).1 ∧
          run.result (WebScripts.stretchMasterKey platform masterKey.1)=.ok stretchedKey) ∧
        (∀ (userKey : Fixed 64) (iv : Fixed 16),∃ enc,
          generateUserKey platform masterKey userKey iv=.ok (userKey,enc) ∧
          ∀ run : WebRun,∃ unwrapped,
            run.result (WebScripts.unwrapUserKey platform enc.display stretchedKey)=.ok unwrapped ∧
            arrayOf unwrapped=userKey) ∧
        ∀ (userKey : Fixed 64) (run : WebRun),∃ text enc,
          run.result (WebScripts.wrapUserKey platform userKey.1 stretchedKey)=.ok text ∧
          EncString.parse text=.ok enc ∧ decryptUserKey platform masterKey enc=.ok userKey := by
  refine ⟨fun e => deriveMasterKey_error,fun masterKey hkey => ?_⟩
  refine ⟨WebScripts.stretched platform masterKey.1,stretchMasterKey_eq masterKey,fun run => ?_,
    fun userKey iv => ?_,fun userKey run => ?_⟩
  · obtain ⟨_,hmaster,rfl⟩ := run.yields (deriveMasterKey_yields hcommand hkey)
    obtain ⟨_,hauth,rfl⟩ := run.yields (deriveAuthHash_yields crates masterKey password)
    obtain ⟨_,hstretched,rfl⟩ := run.yields (stretchMasterKey_yields masterKey.1)
    exact ⟨hmaster,hauth,hstretched⟩
  · obtain ⟨enc,hgenerated,hsealed⟩ := @generateUserKey_eq platform masterKey userKey iv
    refine ⟨enc,hgenerated,fun run => ?_⟩
    obtain ⟨key,rfl⟩ := exists_arrayOf userKey
    obtain ⟨_,hunwrapped,rfl⟩ := run.yields (unwrapUserKey_yields hsealed)
    exact ⟨_,hunwrapped,rfl⟩
  · obtain ⟨text,hwrapped,iv,hiv,rfl⟩ :=
      run.yields (wrapUserKey_yields userKey.1 (WebScripts.stretched platform masterKey.1))
    obtain ⟨enc,hparse,hparts⟩ :=
      @parse_sealed platform (WebScripts.stretched platform masterKey.1) iv hiv userKey.1
    exact ⟨_,enc,hwrapped,hparse,decryptUserKey_sealed hparts⟩

/-- A desktop shell with derivations of 32 bytes that show their salt. -/
def desktop : Platform :=
  let derive (password salt : Bytes) : Bytes := (salt++password++List.replicate 32 0).take 32
  {transparent with
    pbkdf2 := fun password salt _ => derive password salt
    argon2id := fun password salt _ _ _ => derive password salt
    deriveMasterKeyNative := fun password email _ _ _ =>
      Base64.encode (derive (utf8 password) (utf8 (email.map Char.toLower)))
    toLowerCase := fun s => s.map Char.toLower
    isTauri := true}

/-- An Argon2 crate that accepts salts of eight bytes or more. -/
def desktopCrates : Crates desktop where
  argon2Error _ salt _ _ _ := if salt.length<8 then some "salt is too short".toList else none
  argon2id_length password salt _ _ _ := by simp [desktop]; omega
  pbkdf2_length password salt _ := by simp [desktop]; omega

theorem desktop_runsCommand : RunsCommand desktopCrates := by
  intro password email mCost tCost pCost b64 hb64
  simp only [deriveMasterKeyCommand,CryptoCore.deriveMasterKey,Option.getD_some] at hb64
  split at hb64
  · cases hb64
  · cases hb64
    rfl

/-- A sign-in from the desktop shell. -/
theorem key_hierarchies_agree_desktop : ∃ masterKey,
    CryptoCore.deriveMasterKey desktopCrates (utf8 "pw".toList) "User@Test.com".toList
      (.argon2id 65536 3 4)=.ok masterKey ∧
    idleTab.result (WebScripts.deriveMasterKey desktop "pw".toList "User@Test.com".toList
      (.argon2id 65536 3 4))=.ok masterKey.1 := by
  refine ⟨_,rfl,?_⟩
  obtain ⟨-,hagree⟩ := key_hierarchies_agree desktop_runsCommand "pw".toList "User@Test.com".toList
    (.argon2id 65536 3 4)
  obtain ⟨_,-,hderived,-⟩ := hagree _ rfl
  exact (hderived idleTab).1

end NadSafe.KeyHierarchy
