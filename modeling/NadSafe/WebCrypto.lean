import NadSafe.WireFormat

/-!
# Keys and platform primitives of the web client

The 64-byte user key, its byte form, and the primitives that WebCrypto, the
Argon2 package and the desktop shell supply. Ciphers and hashes stay opaque
functions of the key bytes; the laws below are the documented ones and are
the only facts about them used anywhere. Sealing and opening an EncString
are stated here as functions of bytes, for the asynchronous code to refine.
-/

namespace NadSafe.WebCrypto

open HostText WireFormat

/-- A 64-byte symmetric key in two halves. Both halves keep their length,
also when `fill(0)` overwrites them. -/
structure SymKey where
  /-- Encryption half. -/
  encKey : Bytes
  /-- Authentication half. -/
  macKey : Bytes
  /-- The encryption half has 32 bytes. -/
  encLength : encKey.length=32
  /-- The authentication half has 32 bytes. -/
  macLength : macKey.length=32
  deriving DecidableEq

/-- What `fill(0)` leaves in both halves. -/
def SymKey.zero : SymKey := ⟨List.replicate 32 0,List.replicate 32 0,rfl,rfl⟩

/-- The first half of 64 bytes. -/
theorem length_firstHalf {bytes : Bytes} (h : bytes.length=64) : (bytes.take 32).length=32 := by
  simp [h]

/-- The second half. -/
theorem length_secondHalf {bytes : Bytes} (h : bytes.length=64) : (bytes.drop 32).length=32 := by
  simp [h]

/-- Halves of a key that was written out. -/
theorem length_sevens : (List.replicate 32 (7 : UInt8)).length=32 := rfl

/-- `symKeyFromBytes`. -/
def symKeyFromBytes (bytes : Bytes) : Except Text SymKey :=
  if h : bytes.length=64 then
    .ok ⟨bytes.take 32,bytes.drop 32,length_firstHalf h,length_secondHalf h⟩
  else .error ("SymKey must be 64 bytes, got ".toList++(Nat.repr bytes.length).toList)

/-- `symKeyToBytes`. -/
def symKeyToBytes (k : SymKey) : Bytes := k.encKey++k.macKey

/-- A key survives the trip through its byte form. -/
@[simp] theorem symKeyFromBytes_toBytes (k : SymKey) :
    symKeyFromBytes (symKeyToBytes k)=.ok k := by
  have h : (symKeyToBytes k).length=64 := by
    rw [symKeyToBytes,List.length_append,k.encLength,k.macLength]
  rw [symKeyFromBytes,dif_pos h]
  congr
  · rw [symKeyToBytes,List.take_left' k.encLength]
  · rw [symKeyToBytes,List.drop_left' k.encLength]

/-- The key derivation parameters of an account. -/
inductive KdfParams where
  /-- Argon2id with memory, time and parallelism costs. -/
  | argon2id (mCost tCost pCost : ℕ)
  /-- PBKDF2-HMAC-SHA256. -/
  | pbkdf2 (iterations : ℕ)
  deriving DecidableEq

/-- Primitives outside the repository. A cipher answers `none` where the
platform rejects the promise. -/
structure Platform where
  /-- AES-256-CBC encryption under key, IV and data. -/
  aesCbcEncrypt : Bytes → Bytes → Bytes → Bytes
  /-- AES-256-CBC decryption under key, IV and data. -/
  aesCbcDecrypt : Bytes → Bytes → Bytes → Option Bytes
  /-- AES-256-GCM encryption under key, IV and data. -/
  aesGcmEncrypt : Bytes → Bytes → Bytes → Bytes
  /-- AES-256-GCM decryption under key, IV and data. -/
  aesGcmDecrypt : Bytes → Bytes → Bytes → Option Bytes
  /-- HMAC-SHA256 under key and message. -/
  hmac : Bytes → Bytes → Bytes
  /-- PBKDF2-HMAC-SHA256 with a 256-bit output. -/
  pbkdf2 : Bytes → Bytes → ℕ → Bytes
  /-- Argon2id of password and salt with a 32-byte output. -/
  argon2id : Bytes → Bytes → ℕ → ℕ → ℕ → Bytes
  /-- The desktop command `derive_master_key`, answering base64 text. -/
  deriveMasterKeyNative : Text → Text → ℕ → ℕ → ℕ → Text
  /-- Import of a PKCS#8 private key. -/
  importPkcs8 : Bytes → Option Bytes
  /-- `TextDecoder.decode`. -/
  textDecode : Bytes → Text
  /-- `String.prototype.toLowerCase`. -/
  toLowerCase : Text → Text
  /-- Whether the desktop shell hosts the page. -/
  isTauri : Bool
  /-- A SHA-256 tag has 32 bytes. -/
  hmac_length : ∀ key message,(hmac key message).length=32
  /-- CBC decryption inverts encryption under the same key and IV. -/
  aesCbc_open : ∀ key iv data,aesCbcDecrypt key iv (aesCbcEncrypt key iv data)=some data
  /-- GCM decryption inverts encryption under the same key and IV. -/
  aesGcm_open : ∀ key iv data,aesGcmDecrypt key iv (aesGcmEncrypt key iv data)=some data

/-- `constantTimeEqual`: the differing bits of all positions are collected. -/
def constantTimeEqual (a b : Bytes) : Bool :=
  a.length==b.length && (a.zip b).foldl (fun diff p => diff ||| (p.1 ^^^ p.2)) 0==0

/-- The collected difference is zero only for equal positions. -/
theorem foldl_diff_eq_zero (ps : List (UInt8×UInt8)) (diff : UInt8) :
    ps.foldl (fun diff p => diff ||| (p.1 ^^^ p.2)) diff=0 ↔ diff=0 ∧ ∀ p∈ps,p.1=p.2 := by
  induction ps generalizing diff with
  | nil => simp
  | cons p ps ih =>
    rw [List.foldl_cons,ih,UInt8.or_eq_zero_iff,UInt8.xor_eq_zero_iff,List.forall_mem_cons,and_assoc]

/-- The comparison is equality of byte strings. -/
@[simp] theorem constantTimeEqual_iff {a b : Bytes} : constantTimeEqual a b=true ↔ a=b := by
  rw [constantTimeEqual,Bool.and_eq_true,beq_iff_eq,beq_iff_eq,foldl_diff_eq_zero]
  constructor
  · rintro ⟨hl,-,hp⟩
    refine List.ext_getElem hl fun i hi hj => ?_
    have hz : (a[i],b[i])∈a.zip b := by
      rw [List.mem_iff_getElem]
      exact ⟨i,by rw [List.length_zip]; omega,List.getElem_zip⟩
    exact hp _ hz
  · rintro rfl
    refine ⟨rfl,rfl,fun p hp => ?_⟩
    obtain ⟨i,hi,rfl⟩ := List.mem_iff_getElem.mp hp
    rw [List.getElem_zip]

/-- `TextEncoder.encode`. -/
def utf8 (s : Text) : Bytes := s.flatMap String.utf8EncodeChar

section Sealing

variable (platform : Platform)

/-- The EncString that one key, IV and plaintext determine. -/
def sealed (key : SymKey) (iv data : Bytes) : EncStringParsed :=
  ⟨iv,platform.aesCbcEncrypt key.encKey iv data,
    platform.hmac key.macKey (iv++platform.aesCbcEncrypt key.encKey iv data)⟩

/-- What `decryptEncString` computes on undisturbed key bytes. -/
def openSealed (key : SymKey) (enc : EncStringParsed) : Except Text Bytes :=
  if constantTimeEqual (platform.hmac key.macKey (enc.iv++enc.ct)) enc.mac=true then
    match platform.aesCbcDecrypt key.encKey enc.iv enc.ct with
    | some data => .ok data
    | none => .error "OperationError".toList
  else .error "EncString: MAC verification failed — wrong key or tampered ciphertext".toList

/-- What `unwrapUserKey` computes on undisturbed key bytes. -/
def unwrapped (key : SymKey) (encryptedUserKey : Text) : Except Text SymKey := do
  let parsed ← parseEncString encryptedUserKey
  let raw ← openSealed platform key parsed
  symKeyFromBytes raw

/-- A text is an EncString of some plaintext under exactly this key: both
the ciphertext and its tag. -/
def SealedUnder (key : SymKey) (text : Text) : Prop :=
  ∃ iv data,iv.length=16 ∧ text=serializeEncString (sealed platform key iv data)

/-- Opening under the sealing key gives the plaintext back. -/
theorem openSealed_sealed (key : SymKey) (iv data : Bytes) :
    openSealed platform key (sealed platform key iv data)=.ok data := by
  have hmac : platform.hmac key.macKey ((sealed platform key iv data).iv++
      (sealed platform key iv data).ct)=(sealed platform key iv data).mac := rfl
  rw [openSealed,if_pos ((constantTimeEqual_iff).mpr hmac)]
  simp only [sealed,platform.aesCbc_open]

/-- A wrapped user key unwraps to the wrapped bytes under the same key. -/
theorem unwrapped_sealed {key user : SymKey} {iv : Bytes} (hiv : iv.length=16) :
    unwrapped platform key
      (serializeEncString (sealed platform key iv (symKeyToBytes user)))=.ok user := by
  have hparse := @parseEncString_serialize (sealed platform key iv (symKeyToBytes user))
    hiv (platform.hmac_length _ _)
  rw [unwrapped,hparse]
  simp only [openSealed_sealed,bind,Except.bind,symKeyFromBytes_toBytes]

/-- A text sealed under a key parses to parts with its ciphertext and tag. -/
theorem SealedUnder.parse {key : SymKey} {text : Text} (h : SealedUnder platform key text) :
    ∃ iv data,parseEncString text=.ok (sealed platform key iv data) := by
  obtain ⟨iv,data,hiv,rfl⟩ := h
  exact ⟨iv,data,parseEncString_serialize hiv (platform.hmac_length _ _)⟩

end Sealing

/-- AES-GCM decryption succeeds under the key used to encrypt only. -/
def GcmExact (platform : Platform) : Prop :=
  ∀ key key' iv data data',
    platform.aesGcmDecrypt key' iv (platform.aesGcmEncrypt key iv data)=some data' → key'=key

/-- A key in a form that no other key's form starts with. -/
def frame (key : Bytes) : Bytes := List.replicate key.length 1++0::key

/-- The framed key and what follows it can be told apart. -/
theorem frame_append_inj {key key' data data' : Bytes} (h : frame key++data=frame key'++data') :
    key=key' ∧ data=data' := by
  have hones (k d : Bytes) : (frame k++d).takeWhile (· == 1)=List.replicate k.length 1 := by
    rw [frame,List.append_assoc,List.takeWhile_append_of_pos (by simp)]
    simp
  have hlength : key.length=key'.length := by
    have hreplicate := (hones key data).symm.trans ((congrArg _ h).trans (hones key' data'))
    simpa using congrArg List.length hreplicate
  have hframes : (frame key).length=(frame key').length := by
    simp [frame,hlength]
  obtain ⟨hkey,hdata⟩ := List.append_inj h hframes
  rw [frame,frame,hlength] at hkey
  exact ⟨(List.cons.inj (List.append_cancel_left hkey)).2,hdata⟩

/-- A cipher that puts its framed key in front of the data. -/
def transparentEncrypt (key _iv data : Bytes) : Bytes := frame key++data

/-- Its inverse rejects every other key. -/
def transparentDecrypt (key _iv data : Bytes) : Option Bytes :=
  if data.take (frame key).length=frame key then some (data.drop (frame key).length) else none

theorem transparent_open (key iv data : Bytes) :
    transparentDecrypt key iv (transparentEncrypt key iv data)=some data := by
  rw [transparentDecrypt,transparentEncrypt,List.take_left,if_pos rfl,List.drop_left]

/-- Only the key used to encrypt opens, and to the encrypted data. -/
theorem transparent_exact {key key' data data' : Bytes} (iv : Bytes)
    (h : transparentDecrypt key' iv (transparentEncrypt key iv data)=some data') :
    key'=key ∧ data'=data := by
  unfold transparentDecrypt at h
  split at h
  · rename_i htake
    have hsplit : frame key'++data'=frame key++data := by
      rw [←htake,←Option.some.inj h]
      exact List.take_append_drop _ _
    exact frame_append_inj hsplit
  · cases h

/-- A platform that satisfies the laws and shows in every output which key
it used, so that a concrete run can be evaluated and inspected. -/
def transparent : Platform where
  aesCbcEncrypt := transparentEncrypt
  aesCbcDecrypt := transparentDecrypt
  aesGcmEncrypt := transparentEncrypt
  aesGcmDecrypt := transparentDecrypt
  hmac key _ := (key++List.replicate 32 0).take 32
  pbkdf2 password _ _ := password
  argon2id password _ _ _ _ := password
  deriveMasterKeyNative _ _ _ _ _ := []
  importPkcs8 bytes := some bytes
  textDecode bytes := fromCharCode bytes
  toLowerCase s := s
  isTauri := false
  hmac_length key _ := by simp
  aesCbc_open := transparent_open
  aesGcm_open := transparent_open

theorem transparent_gcmExact : GcmExact transparent :=
  fun _ _ iv _ _ h => (transparent_exact iv h).1

end NadSafe.WebCrypto
