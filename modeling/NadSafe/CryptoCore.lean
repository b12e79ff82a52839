import NadSafe.Hkdf
import NadSafe.WebCrypto

/-!
# Key derivation and encryption of crypto-core

The Rust crate behind the desktop shell: master key and auth hash, the
stretched key, EncString encryption, user keys and the desktop command that
derives a master key. Random bytes are arguments. The hash, cipher and
derivation functions are those of the platform; whether the Argon2 crate
accepts its arguments is a parameter of its own.
-/

namespace NadSafe.CryptoCore

open HostText WireFormat WebCrypto

/-- A byte array of fixed length. -/
abbrev Fixed (n : ℕ) := {bytes : Bytes // bytes.length=n}

/-- The crates that crypto-core derives keys with. -/
structure Crates (platform : Platform) where
  /-- The error of `Params::new` or `hash_password_into`, if any. -/
  argon2Error : Bytes → Bytes → ℕ → ℕ → ℕ → Option Text
  /-- The Argon2 output fills the 32-byte buffer. -/
  argon2id_length : ∀ password salt m t p,(platform.argon2id password salt m t p).length=32
  /-- The PBKDF2 output fills the 32-byte buffer. -/
  pbkdf2_length : ∀ password salt iterations,(platform.pbkdf2 password salt iterations).length=32

section EncStrings

variable (platform : Platform)

/-- `SymmetricKey::from_bytes`. -/
def symmetricKeyFromBytes (bytes : Bytes) : Except CryptoError SymKey :=
  if h : bytes.length=64 then
    .ok ⟨bytes.take 32,bytes.drop 32,length_firstHalf h,length_secondHalf h⟩
  else .error (.invalidKeyLength 64 bytes.length)

/-- `compute_mac`. -/
def computeMac (macKey iv ct : Bytes) : Bytes := platform.hmac macKey (iv++ct)

/-- `constant_time_eq` of two arrays of one length. -/
def constantTimeEq (a b : Fixed 32) : Bool :=
  (a.1.zip b.1).foldl (fun diff p => diff ||| (p.1 ^^^ p.2)) 0==0

/-- `EncString::encrypt`, with the random IV. -/
def EncString.encrypt (plaintext : Bytes) (key : SymKey) (iv : Fixed 16) :
    Except CryptoError EncString :=
  let ct := platform.aesCbcEncrypt key.encKey iv.1 plaintext
  .ok ⟨ENC_TYPE_AES256_CBC_HMAC,iv.1,ct,computeMac platform key.macKey iv.1 ct,iv.2,
    platform.hmac_length _ _⟩

/-- `EncString::decrypt`. -/
def EncString.decrypt (enc : EncString) (key : SymKey) : Except CryptoError Bytes :=
  let expected : Fixed 32 := ⟨computeMac platform key.macKey enc.iv enc.ct,platform.hmac_length _ _⟩
  if constantTimeEq expected ⟨enc.mac,enc.macLength⟩=true then
    match platform.aesCbcDecrypt key.encKey enc.iv enc.ct with
    | some plaintext => .ok plaintext
    | none => .error .decryption
  else .error .macMismatch

end EncStrings

section Derivation

variable {platform : Platform}

/-- `Hkdf::from_prk` and one `expand`, with the error texts of the crate. -/
def hkdfExpand (platform : Platform) (prk info : Bytes) (len : ℕ) : Except CryptoError (Fixed len) :=
  if prk.length<32 then .error (.kdf "invalid pseudorandom key length, too short".toList)
  else if 255*32<len then .error (.kdf "invalid number of blocks, too large output".toList)
  else .ok ⟨Hkdf.expand platform.hmac prk info 32 len,
    Hkdf.length_expand prk info platform.hmac_length (by decide) len⟩

/-- `derive_master_key`. -/
def deriveMasterKey (crates : Crates platform) (password : Bytes) (email : Text) (kdf : KdfParams) :
    Except CryptoError (Fixed 32) :=
  let salt := utf8 (platform.toLowerCase email)
  match kdf with
  | .argon2id mCost tCost pCost =>
    match crates.argon2Error password salt mCost tCost pCost with
    | some reason => .error (.kdf reason)
    | none => .ok ⟨platform.argon2id password salt mCost tCost pCost,crates.argon2id_length _ _ _ _ _⟩
  | .pbkdf2 iterations => .ok ⟨platform.pbkdf2 password salt iterations,crates.pbkdf2_length _ _ _⟩

/-- `derive_auth_hash`. -/
def deriveAuthHash (crates : Crates platform) (masterKey : Fixed 32) (password : Bytes) : Fixed 32 :=
  ⟨platform.pbkdf2 masterKey.1 password 1,crates.pbkdf2_length _ _ _⟩

/-- `stretch_master_key`. -/
def stretchMasterKey (platform : Platform) (masterKey : Fixed 32) : Except CryptoError (Fixed 64) := do
  let encKey ← hkdfExpand platform masterKey.1 (utf8 "enc".toList) 32
  let macKey ← hkdfExpand platform masterKey.1 (utf8 "mac".toList) 32
  .ok ⟨encKey.1++macKey.1,by rw [List.length_append,encKey.2,macKey.2]⟩

/-- `UserKey::from_bytes`. -/
def userKeyFromBytes (bytes : Bytes) : Except CryptoError (Fixed 64) :=
  if h : bytes.length=64 then .ok ⟨bytes,h⟩ else .error (.invalidKeyLength 64 bytes.length)

/-- `MasterKey::generate_user_key`, with the random user key and IV. -/
def generateUserKey (platform : Platform) (masterKey : Fixed 32) (userKey : Fixed 64) (iv : Fixed 16) :
    Except CryptoError (Fixed 64×EncString) := do
  let stretched ← stretchMasterKey platform masterKey
  let sym ← symmetricKeyFromBytes stretched.1
  let userKeyEnc ← EncString.encrypt platform userKey.1 sym iv
  .ok (userKey,userKeyEnc)

/-- `MasterKey::decrypt_user_key`. -/
def decryptUserKey (platform : Platform) (masterKey : Fixed 32) (enc : EncString) :
    Except CryptoError (Fixed 64) := do
  let stretched ← stretchMasterKey platform masterKey
  let sym ← symmetricKeyFromBytes stretched.1
  let raw ← EncString.decrypt platform enc sym
  userKeyFromBytes raw

/-- The desktop command `derive_master_key`, with its defaults. -/
def deriveMasterKeyCommand (crates : Crates platform) (password email : Text)
    (mCost tCost pCost : Option ℕ) : Except CryptoError Text := do
  let key ← deriveMasterKey crates (utf8 password) email
    (.argon2id (mCost.getD 65536) (tCost.getD 3) (pCost.getD 4))
  .ok (Base64.encode key.1)

/-- The desktop shell behind the web client runs the desktop command. -/
def RunsCommand (crates : Crates platform) : Prop :=
  ∀ password email mCost tCost pCost b64,
    deriveMasterKeyCommand crates password email (some mCost) (some tCost) (some pCost)=.ok b64 →
      platform.deriveMasterKeyNative password email mCost tCost pCost=b64

end Derivation

end NadSafe.CryptoCore
