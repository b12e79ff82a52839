import NadSafe.HostText

/-!
# The EncString wire format and its three parsers

`EncString::parse` and its `Display` belong to crypto-core, `parseEncString`
and `serializeEncString` to the web client, and the extension carries its
own copy of the web parser. Rust cuts with `split_once` and `splitn` and
decodes canonical base64; JavaScript cuts with `indexOf` and `split`, reads
the type with `parseInt` and decodes with the forgiving `atob`. Encryption
itself is not part of this module.
-/

namespace NadSafe.WireFormat

open HostText

/-- The crypto-core errors of the functions modelled here. -/
inductive CryptoError where
  /-- A key derivation that rejects its parameters, with the reason. -/
  | kdf (reason : Text)
  /-- A ciphertext with broken padding. -/
  | decryption
  /-- A tag that does not match. -/
  | macMismatch
  /-- A malformed text, with the reason. -/
  | invalidEncString (reason : Text)
  /-- A key of another length. -/
  | invalidKeyLength (expected got : ℕ)
  /-- A recovery phrase that is not 64 hexadecimal digits. -/
  | invalidRecoveryPhrase
  /-- A part that is not canonical base64. -/
  | base64
  deriving DecidableEq

/-- The only accepted type byte: AES-256-CBC with HMAC-SHA256. -/
def ENC_TYPE_AES256_CBC_HMAC : UInt8 := 2

/-- A parsed crypto-core value. The array lengths of the Rust type are
carried as proofs, so a shorter IV or MAC cannot be built. -/
structure EncString where
  /-- The type byte. -/
  encType : UInt8
  /-- Initialisation vector. -/
  iv : Bytes
  /-- Ciphertext. -/
  ct : Bytes
  /-- Authentication tag over IV and ciphertext. -/
  mac : Bytes
  /-- The Rust field is a 16-byte array. -/
  ivLength : iv.length=16
  /-- The Rust field is a 32-byte array. -/
  macLength : mac.length=32

/-- One base64 part, as the `?` operator sees it. -/
def decodePart (part : Text) : Except CryptoError Bytes :=
  match Base64.decode part with
  | some bytes => .ok bytes
  | none => .error .base64

/-- The two length checks and the final copy into fixed arrays. -/
def EncString.ofParts (encType : UInt8) (iv ct mac : Bytes) : Except CryptoError EncString :=
  if hiv : iv.length=16 then
    if hmac : mac.length=32 then .ok ⟨encType,iv,ct,mac,hiv,hmac⟩
    else .error (.invalidEncString "MAC must be 32 bytes".toList)
  else .error (.invalidEncString "IV must be 16 bytes".toList)

/-- `EncString::parse`. -/
def EncString.parse (s : Text) : Except CryptoError EncString :=
  match splitOnce '.' s with
  | none => .error (.invalidEncString "missing type prefix".toList)
  | some (typeStr,rest) =>
    match parseU8 typeStr with
    | none => .error (.invalidEncString "invalid type byte".toList)
    | some encType =>
      if encType≠ENC_TYPE_AES256_CBC_HMAC then
        .error (.invalidEncString ("unsupported enc type ".toList++u8Text encType))
      else
        match splitn '|' 3 rest with
        | [p0,p1,p2] => do
          let iv ← decodePart p0
          let ct ← decodePart p1
          let mac ← decodePart p2
          EncString.ofParts encType iv ct mac
        | _ => .error (.invalidEncString "expected 3 parts".toList)

/-- The `Display` output. -/
def EncString.display (e : EncString) : Text :=
  u8Text e.encType++ '.'::(Base64.encode e.iv++ '|'::(Base64.encode e.ct++ '|'::Base64.encode e.mac))

/-- The web client's parsed value. Its `type` field has the literal type 2
and carries no information. -/
structure EncStringParsed where
  /-- Initialisation vector. -/
  iv : Bytes
  /-- Ciphertext. -/
  ct : Bytes
  /-- Authentication tag. -/
  mac : Bytes
  deriving DecidableEq

/-- Bytes converted by one `String.fromCharCode` call. -/
def CHUNK : ℕ := 0x8000

/-- The loop of `toB64`: one iteration a chunk. -/
def binaryChunks : ℕ → Bytes → Text
  | 0,_ => []
  | n+1,bytes => fromCharCode (bytes.take CHUNK)++binaryChunks n (bytes.drop CHUNK)

/-- `toB64` of both clients. `btoa` cannot throw on the Latin-1 string. -/
def toB64 (bytes : Bytes) : Text :=
  (btoa (binaryChunks ((bytes.length+CHUNK-1)/CHUNK) bytes)).getD []

/-- `fromB64` of both clients; the thrown error is a DOM exception. -/
def fromB64 (s : Text) : Except Text Bytes :=
  match atob s with
  | some bin => .ok (charCodes bin)
  | none => .error "InvalidCharacterError".toList

/-- `parseEncString` of the web client. -/
def parseEncString (s : Text) : Except Text EncStringParsed :=
  match s.idxOf? '.' with
  | none => .error "EncString: missing type prefix".toList
  | some dot =>
    let type := parseInt (s.take dot)
    if type≠some 2 then .error ("EncString: unsupported type ".toList++numberText type)
    else
      match split '|' (s.drop (dot+1)) with
      | [p0,p1,p2] => do
        let iv ← fromB64 p0
        let ct ← fromB64 p1
        let mac ← fromB64 p2
        if iv.length≠16 then .error "EncString: IV must be 16 bytes".toList
        else if mac.length≠32 then .error "EncString: MAC must be 32 bytes".toList
        else .ok ⟨iv,ct,mac⟩
      | _ => .error "EncString: expected 3 parts".toList

/-- `serializeEncString` of the web client. The extension writes the same
template in its `encryptField`. -/
def serializeEncString (enc : EncStringParsed) : Text :=
  "2.".toList++toB64 enc.iv++ '|'::(toB64 enc.ct++ '|'::toB64 enc.mac)

/-- The extension's `parseEncString` is a copy of the web client's, error
texts included. -/
def extensionParseEncString (s : Text) : Except Text EncStringParsed := parseEncString s

/-- The bytes of a crypto-core value, without the type byte. -/
def EncString.parts (e : EncString) : EncStringParsed := ⟨e.iv,e.ct,e.mac⟩

/-- Chunking does not change the Latin-1 string. -/
theorem binaryChunks_eq (n : ℕ) (bytes : Bytes) (h : bytes.length≤n*CHUNK) :
    binaryChunks n bytes=fromCharCode bytes := by
  induction n generalizing bytes with
  | zero =>
    rw [Nat.zero_mul,Nat.le_zero,List.length_eq_zero_iff] at h
    subst h
    rfl
  | succ n ih =>
    rw [binaryChunks,ih (bytes.drop CHUNK)]
    · rw [fromCharCode,fromCharCode,fromCharCode,←List.map_append,List.take_append_drop]
    · rw [List.length_drop]
      rw [Nat.succ_mul] at h
      omega

/-- The clients' base64 text is the RFC encoding, for every length. -/
theorem toB64_eq (bytes : Bytes) : toB64 bytes=Base64.encode bytes := by
  have h : bytes.length≤(bytes.length+CHUNK-1)/CHUNK*CHUNK := by
    unfold CHUNK
    omega
  rw [toB64,binaryChunks_eq _ _ h,btoa_fromCharCode]
  rfl

/-- The clients' decoder reads every RFC encoding. -/
theorem fromB64_encode (bytes : Bytes) : fromB64 (Base64.encode bytes)=.ok bytes := by
  simp only [fromB64,atob,Base64.forgivingDecode_encode,Option.map_some,charCodes_fromCharCode]

/-- The wire text of a type prefix and three byte strings. -/
def wire (typeStr : Text) (iv ct mac : Bytes) : Text :=
  typeStr++ '.'::(Base64.encode iv++ '|'::(Base64.encode ct++ '|'::Base64.encode mac))

/-- No separator occurs inside an encoded part. -/
theorem pipe_not_mem_encode (bytes : Bytes) : '|'∉Base64.encode bytes := by
  have hs : ∀ n,n<64 → Base64.symbol n≠ '|' := by decide
  intro h
  rcases Base64.mem_encode h with h|⟨n,hn,h⟩
  · exact absurd h (by decide)
  · exact hs n hn h.symm

theorem decodePart_eq_ok_iff {part : Text} {bytes : Bytes} :
    decodePart part=.ok bytes ↔ part=Base64.encode bytes := by
  rw [←Base64.decode_eq_some_iff]
  unfold decodePart
  split <;> simp_all

/-- Three parts of a Rust `splitn`, the last one uncut. -/
theorem splitn_three {rest p0 p1 p2 : Text} :
    splitn '|' 3 rest=[p0,p1,p2] ↔ rest=p0++ '|'::(p1++ '|'::p2) ∧ '|'∉p0 ∧ '|'∉p1 := by
  constructor
  · intro h
    unfold splitn at h
    split at h
    · cases h
    · rename_i part tail h0
      unfold splitn at h
      split at h
      · cases h
      · rename_i part' tail' h1
        unfold splitn at h
        cases h
        obtain ⟨rfl,hp0⟩ := splitOnce_eq_some_iff.mp h0
        obtain ⟨rfl,hp1⟩ := splitOnce_eq_some_iff.mp h1
        exact ⟨rfl,hp0,hp1⟩
  · rintro ⟨rfl,hp0,hp1⟩
    simp only [splitn,splitOnce_eq_some_iff.mpr ⟨rfl,hp0⟩,splitOnce_eq_some_iff.mpr ⟨rfl,hp1⟩]

/-- Exactly the texts that crypto-core accepts: a prefix that reads as two,
and canonical base64 of parts with the right lengths. -/
theorem parse_eq_ok_iff {s : Text} {e : EncString} :
    EncString.parse s=.ok e ↔ e.encType=2 ∧
      ∃ typeStr,'.'∉typeStr ∧ parseU8 typeStr=some 2 ∧ s=wire typeStr e.iv e.ct e.mac := by
  constructor
  · intro h
    unfold EncString.parse at h
    split at h
    · cases h
    · rename_i typeStr rest hdot
      obtain ⟨rfl,ht⟩ := splitOnce_eq_some_iff.mp hdot
      split at h
      · cases h
      · rename_i encType htype
        split_ifs at h with he
        have he2 : encType=2 := not_not.mp he
        subst he2
        split at h
        · rename_i p0 p1 p2 hparts
          obtain ⟨rfl,hp0,hp1⟩ := (splitn_three).mp hparts
          cases h0 : decodePart p0 with
          | error err => simp [h0,bind,Except.bind] at h
          | ok iv =>
            cases h1 : decodePart p1 with
            | error err => simp [h0,h1,bind,Except.bind] at h
            | ok ct =>
              cases h2 : decodePart p2 with
              | error err => simp [h0,h1,h2,bind,Except.bind] at h
              | ok mac =>
                simp only [h0,h1,h2,bind,Except.bind,EncString.ofParts] at h
                split_ifs at h with hiv hmac
                cases h
                rw [decodePart_eq_ok_iff] at h0 h1 h2
                subst h0 h1 h2
                exact ⟨rfl,typeStr,ht,htype,rfl⟩
        · cases h
  · rintro ⟨he,typeStr,ht,htype,rfl⟩
    have hrest : splitn '|' 3 (Base64.encode e.iv++ '|'::(Base64.encode e.ct++ '|'::Base64.encode e.mac))=
        [Base64.encode e.iv,Base64.encode e.ct,Base64.encode e.mac] :=
      (splitn_three).mpr ⟨rfl,pipe_not_mem_encode _,pipe_not_mem_encode _⟩
    have hd (bytes : Bytes) : decodePart (Base64.encode bytes)=.ok bytes :=
      (decodePart_eq_ok_iff).mpr rfl
    unfold EncString.parse wire
    rw [splitOnce_eq_some_iff.mpr ⟨rfl,ht⟩]
    simp only [htype,hrest,hd,bind,Except.bind,EncString.ofParts]
    rw [if_neg (by decide),dif_pos e.ivLength,dif_pos e.macLength]
    cases e
    cases he
    rfl

/-- The web parser on wire text whose prefix `parseInt` reads as two. -/
theorem parseEncString_wire {typeStr : Text} {enc : EncStringParsed} (ht : '.'∉typeStr)
    (htype : parseInt typeStr=some 2) (hiv : enc.iv.length=16) (hmac : enc.mac.length=32) :
    parseEncString (wire typeStr enc.iv enc.ct enc.mac)=.ok enc := by
  have hparts : split '|' (Base64.encode enc.iv++ '|'::(Base64.encode enc.ct++ '|'::Base64.encode enc.mac))=
      [Base64.encode enc.iv,Base64.encode enc.ct,Base64.encode enc.mac] := by
    rw [split_append (pipe_not_mem_encode _),split_append (pipe_not_mem_encode _),
      split_of_not_mem (pipe_not_mem_encode _)]
  unfold parseEncString wire
  rw [idxOf?_append ht]
  simp only [List.take_left,htype,ne_eq,not_true,if_false]
  have hdrop (rest : Text) : (typeStr++ '.'::rest).drop (typeStr.length+1)=rest := by simp
  rw [hdrop,hparts]
  simp only [fromB64_encode,bind,Except.bind,hiv,hmac,not_true,if_false]

/-- A serialised value is wire text with the prefix `2`. -/
theorem serializeEncString_eq (enc : EncStringParsed) :
    serializeEncString enc=wire "2".toList enc.iv enc.ct enc.mac := by
  simp only [serializeEncString,wire,toB64_eq]
  rfl

/-- `Display` of a type-2 value writes the same wire text. -/
theorem display_eq {e : EncString} (he : e.encType=2) :
    e.display=wire "2".toList e.iv e.ct e.mac := by
  rw [EncString.display,he]
  rfl

/-- Serialised values parse back, whatever the ciphertext. -/
theorem parseEncString_serialize {enc : EncStringParsed} (hiv : enc.iv.length=16)
    (hmac : enc.mac.length=32) : parseEncString (serializeEncString enc)=.ok enc := by
  rw [serializeEncString_eq]
  exact parseEncString_wire (by decide) (by decide) hiv hmac

/-- The three implementations agree on the wire. Every text that crypto-core
accepts is accepted by both JavaScript parsers with the same bytes, and
every type-2 value is written identically and read back by all three. -/
theorem encString_wire_agreement :
    (∀ s e,EncString.parse s=.ok e →
      parseEncString s=.ok e.parts ∧ extensionParseEncString s=.ok e.parts) ∧
    ∀ e : EncString,e.encType=2 →
      e.display=serializeEncString e.parts ∧ EncString.parse e.display=.ok e ∧
      parseEncString e.display=.ok e.parts ∧ extensionParseEncString e.display=.ok e.parts := by
  have hagree : ∀ s e,EncString.parse s=.ok e → parseEncString s=.ok e.parts := by
    intro s e h
    obtain ⟨-,typeStr,ht,htype,rfl⟩ := (parse_eq_ok_iff).mp h
    have hp := @parseEncString_wire typeStr e.parts ht (parseInt_of_parseU8 htype)
    exact hp e.ivLength e.macLength
  refine ⟨fun s e h => ⟨hagree s e h,hagree s e h⟩,fun e he => ?_⟩
  have hp : EncString.parse e.display=.ok e :=
    (parse_eq_ok_iff).mpr ⟨he,"2".toList,by decide,by decide,display_eq he⟩
  refine ⟨?_,hp,hagree _ e hp,hagree _ e hp⟩
  rw [display_eq he,serializeEncString_eq]
  rfl

/-- A concrete value whose text Rust accepts with a signed, zero-padded type. -/
def sampleEncString : EncString := ⟨2,List.replicate 16 7,[1,2,3,4],List.replicate 32 9,rfl,rfl⟩

theorem encString_wire_agreement_sample :
    EncString.parse (wire "+02".toList (List.replicate 16 7) [1,2,3,4] (List.replicate 32 9))=
        .ok sampleEncString ∧
      parseEncString (wire "+02".toList (List.replicate 16 7) [1,2,3,4] (List.replicate 32 9))=
        .ok sampleEncString.parts ∧
      EncString.parse sampleEncString.display=.ok sampleEncString := by
  have h : EncString.parse (wire "+02".toList (List.replicate 16 7) [1,2,3,4] (List.replicate 32 9))=
      .ok sampleEncString := (parse_eq_ok_iff).mpr ⟨rfl,"+02".toList,by decide,by decide,rfl⟩
  exact ⟨h,(encString_wire_agreement.1 _ _ h).1,(encString_wire_agreement.2 sampleEncString rfl).2.1⟩

end NadSafe.WireFormat
