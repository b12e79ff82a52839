import NadSafe.KeyHierarchy
import NadSafe.RecoveryPhrase

/-!
# Recovery blobs of crypto-core and the web client

A copy of the user key wrapped under a key that is expanded from the entropy
of the recovery phrase. crypto-core expands 64 bytes with HKDF, the web
client lays out two message buffers by hand and signs each. A blob of either
side opens on the other with the phrase in any case and spacing.
-/

namespace NadSafe.RecoveryBlobs

open HostText AsyncScript AsyncScript.Script WireFormat WebCrypto WebClient WebScripts WebResults
open FulfilledScript CryptoCore KeyHierarchy RecoveryPhrase

/-- `RECOVERY_INFO`. -/
def RECOVERY_INFO : Text := "nadsafe-recovery-v1".toList

section Rust

variable (platform : Platform)

/-- `recovery_key_from_entropy`. -/
def recoveryKeyFromEntropy (entropy : Bytes) : Except CryptoError (Fixed 64) :=
  hkdfExpand platform entropy (utf8 RECOVERY_INFO) 64

/-- `wrap_user_key_with_recovery`, with the random IV. -/
def wrapUserKeyWithRecoveryRust (userKey : Fixed 64) (entropy : Bytes) (iv : Fixed 16) :
    Except CryptoError EncString := do
  let recoveryKeyBytes ← recoveryKeyFromEntropy platform entropy
  let sym ← symmetricKeyFromBytes recoveryKeyBytes.1
  EncString.encrypt platform userKey.1 sym iv

/-- `unwrap_user_key_with_recovery`. -/
def unwrapUserKeyWithRecoveryRust (encUserKey : EncString) (phrase : Text) :
    Except CryptoError (Fixed 64) := do
  let entropy ← phraseToEntropyRust phrase
  let recoveryKeyBytes ← recoveryKeyFromEntropy platform entropy
  let sym ← symmetricKeyFromBytes recoveryKeyBytes.1
  let raw ← EncString.decrypt platform encUserKey sym
  userKeyFromBytes raw

end Rust

section Web

variable (platform : Platform)

/-- The first message that `deriveRecoveryKey` signs. -/
def block1 : Bytes := utf8 RECOVERY_INFO++[1]

/-- The second one starts with the first half of the key. -/
def block2 (encKey : Bytes) : Bytes := encKey++utf8 RECOVERY_INFO++[2]

/-- The key that `deriveRecoveryKey` returns. -/
def recoveryKey (entropy : Bytes) : SymKey :=
  let encKey := (platform.hmac entropy block1).take 32
  ⟨encKey,(platform.hmac entropy (block2 encKey)).take 32,by simp [encKey,platform.hmac_length],
    by simp [platform.hmac_length]⟩

/-- `deriveRecoveryKey`: one import and two signatures. -/
def deriveRecoveryKey (entropy : Bytes) : Web SymKey := do
  settles (some ())
  settles (some ())
  settles (some (recoveryKey platform entropy))

/-- `wrapUserKeyWithRecovery`. The user key is read after the derivation. -/
def wrapUserKeyWithRecovery (userKey : KeyRef) (recoveryEntropy : Bytes) : Web Text := do
  let key ← deriveRecoveryKey platform recoveryEntropy
  let encKey ← readEncKey userKey
  let macKey ← readMacKey userKey
  let enc ← encryptEncString platform (encKey++macKey) (.owned key)
  pure (serializeEncString enc)

/-- `unwrapUserKeyWithRecovery`. -/
def unwrapUserKeyWithRecovery (wrappedUserKey recoveryPhrase : Text) : Web SymKey := do
  let entropy ← lift (phraseToEntropyWeb recoveryPhrase)
  let key ← deriveRecoveryKey platform entropy
  let parsed ← lift (parseEncString wrappedUserKey)
  let raw ← decryptEncString platform parsed (.owned key)
  lift (symKeyFromBytes raw)

end Web

variable {platform : Platform}

/-- Both sides expand the same key from the entropy. -/
theorem recoveryKeyFromEntropy_eq (entropy : Fixed 32) :
    recoveryKeyFromEntropy platform entropy.1=.ok (arrayOf (recoveryKey platform entropy.1)) := by
  have hprk : ¬entropy.1.length<32 := by
    rw [entropy.2]
    decide
  have htake (message : Bytes) :
      (platform.hmac entropy.1 message).take 32=platform.hmac entropy.1 message :=
    List.take_of_length_le (by rw [platform.hmac_length])
  rw [recoveryKeyFromEntropy,hkdfExpand,if_neg hprk,if_neg (by decide)]
  refine congrArg Except.ok (Subtype.ext ?_)
  simp only [arrayOf,symKeyToBytes,recoveryKey,htake]
  exact Hkdf.expand_two entropy.1 (utf8 RECOVERY_INFO) platform.hmac_length (by decide)

theorem deriveRecoveryKey_yields {pre : WebCall → Prop} {post : ∀ c,WebCall.Answer c → Prop}
    (entropy : Bytes) :
    Yields pre post Fulfilled (· = recoveryKey platform entropy)
      (deriveRecoveryKey platform entropy) := by
  refine (settles_yields ()).bind fun _ _ => ?_
  refine (settles_yields ()).bind fun _ _ => ?_
  exact settles_yields _

/-- The web client wraps to a text sealed under the recovery key. -/
theorem wrapUserKeyWithRecovery_yields (userKey : SymKey) (entropy : Bytes) :
    Yields RandomOnly randomPost Fulfilled
      (SealedAs platform (recoveryKey platform entropy) (symKeyToBytes userKey))
      (wrapUserKeyWithRecovery platform (.owned userKey) entropy) := by
  refine (deriveRecoveryKey_yields entropy).bind fun key hkey => ?_
  rw [hkey]
  exact wrapUserKey_yields (symKeyToBytes userKey) (recoveryKey platform entropy)

/-- The web client unwraps a sealed text with a phrase that it reads. -/
theorem unwrapUserKeyWithRecovery_yields {userKey : SymKey} {entropy : Bytes} {text phrase : Text}
    (hphrase : phraseToEntropyWeb phrase=.ok entropy)
    (hs : SealedAs platform (recoveryKey platform entropy) (symKeyToBytes userKey) text) :
    Yields RandomOnly randomPost Fulfilled (· = userKey)
      (unwrapUserKeyWithRecovery platform text phrase) := by
  unfold unwrapUserKeyWithRecovery
  rw [hphrase]
  refine (deriveRecoveryKey_yields entropy).bind fun key hkey => ?_
  rw [hkey]
  exact unwrapUserKey_yields hs

/-- crypto-core unwraps sealed parts with a phrase that it reads. -/
theorem unwrapUserKeyWithRecoveryRust_eq {userKey : Fixed 64} {entropy : Fixed 32} {phrase : Text}
    (hphrase : phraseToEntropyRust phrase=.ok entropy.1) {enc : EncString} {iv : Bytes}
    (hparts : enc.parts=sealed platform (recoveryKey platform entropy.1) iv userKey.1) :
    unwrapUserKeyWithRecoveryRust platform enc phrase=.ok userKey := by
  rw [unwrapUserKeyWithRecoveryRust,hphrase]
  simp only [Bind.bind,Except.bind,recoveryKeyFromEntropy_eq,arrayOf,symmetricKeyFromBytes_toBytes,
    decrypt_sealed hparts]
  rw [userKeyFromBytes,dif_pos userKey.2]

/-- Recovery blobs are interchangeable: a blob of crypto-core opens in every
run of the web client without a rejected promise, and a blob of the web
client opens in crypto-core, with the printed phrase in any case and
spacing. -/
theorem recovery_blobs_interchangeable (platform : Platform) (entropy : Fixed 32) (userKey : SymKey)
    {typed : Text} (htyped : Respelled (entropyToPhrase entropy) typed) :
    (∀ iv,∃ enc,wrapUserKeyWithRecoveryRust platform (arrayOf userKey) entropy.1 iv=.ok enc ∧
      ∀ run : WebRun,
        run.result (unwrapUserKeyWithRecovery platform enc.display typed)=.ok userKey) ∧
    ∀ run : WebRun,∃ text enc,
      run.result (wrapUserKeyWithRecovery platform (.owned userKey) entropy.1)=.ok text ∧
      EncString.parse text=.ok enc ∧
      unwrapUserKeyWithRecoveryRust platform enc typed=.ok (arrayOf userKey) := by
  obtain ⟨hrust,hweb⟩ := phraseToEntropy_respelled entropy htyped
  refine ⟨fun iv => ?_,fun run => ?_⟩
  · obtain ⟨enc,henc,htype,hparts⟩ :=
      @encrypt_eq platform (recoveryKey platform entropy.1) (symKeyToBytes userKey) iv
    refine ⟨enc,?_,fun run => ?_⟩
    · rw [wrapUserKeyWithRecoveryRust,recoveryKeyFromEntropy_eq]
      simp only [Bind.bind,Except.bind,arrayOf,symmetricKeyFromBytes_toBytes]
      exact henc
    · obtain ⟨_,hunwrapped,rfl⟩ := run.yields
        (unwrapUserKeyWithRecovery_yields hweb ⟨iv.1,iv.2,display_sealed htype hparts⟩)
      exact hunwrapped
  · obtain ⟨text,hwrapped,iv,hiv,rfl⟩ :=
      run.yields (@wrapUserKeyWithRecovery_yields platform userKey entropy.1)
    obtain ⟨enc,hparse,hparts⟩ :=
      @parse_sealed platform (recoveryKey platform entropy.1) iv hiv (symKeyToBytes userKey)
    exact ⟨_,enc,hwrapped,hparse,
      @unwrapUserKeyWithRecoveryRust_eq platform (arrayOf userKey) entropy typed hrust enc iv hparts⟩

/-- Entropy of counting bytes. -/
def sampleEntropy : Fixed 32 := ⟨(List.range 32).map UInt8.ofNat,rfl⟩

/-- Its phrase in capitals, with tabs for spaces and a line break. -/
def typedPhrase : Text :=
  (entropyToPhrase sampleEntropy).map (fun c => if c= ' ' then '\t' else c.toUpper)++['\n']

/-- The retyped phrase opens a blob of the web client in crypto-core. -/
theorem recovery_blobs_interchangeable_sample :
    Respelled (entropyToPhrase sampleEntropy) typedPhrase ∧
      ∃ text enc,idleTab.result (wrapUserKeyWithRecovery transparent (.owned .zero) sampleEntropy.1)=
          .ok text ∧
        EncString.parse text=.ok enc ∧
        unwrapUserKeyWithRecoveryRust transparent enc typedPhrase=.ok (arrayOf .zero) := by
  have htyped : Respelled (entropyToPhrase sampleEntropy) typedPhrase := by
    unfold Respelled
    decide
  exact ⟨htyped,(recovery_blobs_interchangeable transparent sampleEntropy .zero htyped).2 idleTab⟩

end NadSafe.RecoveryBlobs
