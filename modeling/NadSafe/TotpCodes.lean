import NadSafe.Base32
import NadSafe.RecoveryPhrase

/-!
# One-time passwords of crypto-core

`generate_totp` cleans a base32 secret, regroups its bits in a 32-bit word,
and truncates the keyed hash of the time step. It is the algorithm of RFC 6238
for every encoding of a key.
-/

namespace NadSafe.TotpCodes

open HostText BitGroups CryptoCore RecoveryPhrase

/-- Unicode uppercasing, character by character. -/
structure Casing where
  /-- The full mapping of a character. -/
  upper : Char → Text
  /-- ASCII. -/
  ascii : ∀ c,c.toNat<128 → upper c=[c.toUpper]
  /-- White space stays as it is. -/
  space : ∀ c,(isWhitespace c || jsWhitespace c)=true → upper c=[c]
  /-- Nothing else becomes white space or padding. -/
  plain : ∀ c,(isWhitespace c || jsWhitespace c)=false → c≠ '=' →
    ∀ d∈upper c,(isWhitespace d || jsWhitespace d)=false ∧ d≠ '='

/-- HMAC-SHA1 of a key and a message. -/
abbrev HmacSha1 := Bytes → Bytes → Fixed 20

/-- How a call fails. -/
inductive Failure where
  /-- `TotpError::InvalidBase32`. -/
  | invalidBase32
  /-- An index out of range. -/
  | panic
  deriving DecidableEq

/-- `str::trim_end_matches`. -/
def trimEndMatches (c : Char) (s : Text) : Text := (s.reverse.dropWhile (·==c)).reverse

/-- The variables of the loop of `base32_decode`. -/
structure Decoder where
  /-- The accumulator. -/
  bits : BitVec 32
  /-- How many bits of it count. -/
  bitCount : ℕ
  /-- The bytes so far. -/
  output : Bytes
  deriving DecidableEq

/-- Their first values. -/
def Decoder.start : Decoder := ⟨0,0,[]⟩

/-- The accumulator with five more bits. -/
def Decoder.wide (d : Decoder) (val : ℕ) : BitVec 32 := d.bits<<<5 ||| BitVec.ofNat 32 val

/-- The loop body of `base32_decode`, behind the checks. -/
def Decoder.push (d : Decoder) (val : ℕ) : Decoder :=
  let bits := d.wide val
  let bitCount := d.bitCount+5
  if 8≤bitCount then
    let bitCount := bitCount-8
    ⟨bits &&& ((1#32<<<bitCount)-1),bitCount,d.output++[UInt8.ofNat (bits>>>bitCount).toNat]⟩
  else ⟨bits,bitCount,d.output⟩

/-- The loop body of `base32_decode`. -/
def decodeChar (d : Decoder) (ch : Char) : Except Failure Decoder :=
  if ¬ch.toNat<128 then .error .invalidBase32
  else
    match Base32.alphabet.idxOf? ch with
    | some val => .ok (d.push val)
    | none => .error .invalidBase32

/-- The text that the loop runs over. -/
def cleaned (casing : Casing) (input : Text) : Text :=
  (trimEndMatches '=' (input.filter fun c => !isWhitespace c)).flatMap casing.upper

/-- `base32_decode`. -/
def base32Decode (casing : Casing) (input : Text) : Except Failure Bytes := do
  let d ← (cleaned casing input).foldlM decodeChar Decoder.start
  .ok d.output

/-- An element of an array. -/
def index (bytes : Bytes) (i : ℕ) : Except Failure UInt8 :=
  match bytes[i]? with
  | some b => .ok b
  | none => .error .panic

/-- `u64::to_be_bytes`. -/
def toBeBytes (n : UInt64) : Bytes := (digits 256 8 n.toNat).map UInt8.ofNat

/-- `u32::from_be_bytes`. -/
def fromBeBytes (bytes : Bytes) : ℕ := value 256 (bytes.map UInt8.toNat)

/-- `hotp`. -/
def hotp (hmac : HmacSha1) (secret : Bytes) (counter : UInt64) (digits : ℕ) : Except Failure ℕ := do
  let result := (hmac secret (toBeBytes counter)).1
  let last ← index result 19
  let offset := (last &&& 0x0f).toNat
  let b0 ← index result offset
  let b1 ← index result (offset+1)
  let b2 ← index result (offset+2)
  let b3 ← index result (offset+3)
  let code := fromBeBytes [b0 &&& 0x7f,b1,b2,b3]
  .ok (code%10^digits)

/-- Zeros in front, up to a width. -/
def padStart (width : ℕ) (s : Text) : Text := List.replicate (width-s.length) '0'++s

/-- `DEFAULT_PERIOD`. -/
def DEFAULT_PERIOD : UInt64 := 30

/-- `DEFAULT_DIGITS`. -/
def DEFAULT_DIGITS : ℕ := 6

/-- `generate_totp`. -/
def generateTotp (casing : Casing) (hmac : HmacSha1) (secretB32 : Text) (timestampSecs : UInt64) :
    Except Failure Text := do
  let secret ← base32Decode casing secretB32
  let counter := timestampSecs/DEFAULT_PERIOD
  let code ← hotp hmac secret counter DEFAULT_DIGITS
  .ok (padStart DEFAULT_DIGITS (Nat.toDigits 10 code))

section Rfc

/-- The time step as eight big-endian bytes. -/
def timeStep (t : ℕ) : Bytes := (digits 256 8 (t/30)).map UInt8.ofNat

/-- Dynamic truncation of RFC 4226: 31 bits from the offset in the last four bits. -/
def truncation (mac : Fixed 20) : ℕ :=
  let byte (i : ℕ) : ℕ := (mac.1.getD i 0).toNat
  let offset := byte 19%16
  byte offset%128*2^24+byte (offset+1)*2^16+byte (offset+2)*2^8+byte (offset+3)

/-- The code of RFC 6238: six decimal digits. -/
def rfcCode (hmac : HmacSha1) (key : Bytes) (t : ℕ) : Text :=
  (digits 10 6 (truncation (hmac key (timeStep t))%10^6)).map Nat.digitChar

/-- Base32 of a key in either case, with any padding and with white space
anywhere. -/
def Encodes (key : Bytes) (typed : Text) : Prop := ∃ n,
  (typed.filter fun c => !isWhitespace c).map Char.toUpper=Base32.encodeUnpadded key++List.replicate n '='

end Rfc

section Decoding

variable {d : Decoder} {r : Regroup} {ds : List ℕ}

/-- The variables hold a regrouping of five bits to eight. -/
structure Tracks (d : Decoder) (r : Regroup) : Prop where
  /-- The accumulator. -/
  bits : d.bits.toNat=r.bits
  /-- Its length. -/
  count : d.bitCount=r.count
  /-- The bytes. -/
  out : d.output.map UInt8.toNat=r.out

theorem tracks_start : Tracks Decoder.start Regroup.start := ⟨rfl,rfl,rfl⟩

/-- The accumulator has at most twelve bits that count. -/
theorem wide_toNat (ht : Tracks d r) (hr : Regrouped 5 8 ds r) {val : ℕ} (hval : val<32) :
    (d.wide val).toNat=r.bits*2^5+val ∧ r.bits*2^5+val<2^12 := by
  have hshort := hr.short
  have hbits : r.bits<2^7 := hr.bound.trans_le (Nat.pow_le_pow_right (by decide) (by omega))
  have hor := Nat.two_pow_add_eq_or_of_lt (i:=5) (b:=val) (by omega) r.bits
  refine ⟨?_,by omega⟩
  rw [Decoder.wide,BitVec.toNat_or,BitVec.toNat_shiftLeft,BitVec.toNat_ofNat,ht.bits,Nat.shiftLeft_eq,
    Nat.mod_eq_of_lt (by omega),Nat.mod_eq_of_lt (by omega),Nat.mul_comm,hor]

/-- The mask of the lower bits. -/
theorem mask_toNat (bits : BitVec 32) {n : ℕ} (hn : n<8) : (bits &&& ((1#32<<<n)-1)).toNat=bits.toNat%2^n := by
  have hmask : ∀ n : Fin 8,((1#32<<<n.1)-1).toNat=2^n.1-1 := by decide
  have hn' : ((1#32<<<n)-1).toNat=2^n-1 := hmask ⟨n,hn⟩
  rw [BitVec.toNat_and,hn',Nat.and_two_pow_sub_one_eq_mod]

/-- One round of the loop is one step of the regrouping. -/
theorem push_tracks (ht : Tracks d r) (hr : Regrouped 5 8 ds r) {val : ℕ} (hval : val<32) :
    Tracks (d.push val) (r.push 5 8 val) := by
  obtain ⟨hwide,-⟩ := wide_toNat ht hr hval
  have hshort := hr.short
  have hsmall := (hr.push (by decide) (show val<2^5 from hval)).small
  unfold Decoder.push Regroup.push at *
  dsimp only
  rw [ht.count]
  by_cases hfull : 8≤r.count+5
  · rw [if_pos hfull] at hsmall ⊢
    rw [if_pos hfull]
    refine ⟨?_,rfl,?_⟩
    · rw [mask_toNat _ (by omega),hwide]
    · have hbyte := hsmall _ (List.mem_append_right _ (List.mem_singleton.mpr rfl))
      dsimp only
      rw [List.map_append,ht.out,List.map_singleton,BitVec.toNat_ushiftRight,hwide,Nat.shiftRight_eq_div_pow,
        Base64.toNat_ofNat_small hbyte]
  · rw [if_neg hfull,if_neg hfull]
    exact ⟨hwide,rfl,ht.out⟩

/-- A character of the alphabet. -/
theorem decodeChar_symbol {c : Char} {val : ℕ} (hc : Base32.symbolValue c=some val) :
    decodeChar d c=.ok (d.push val) := by
  have hmem : c∈Base32.alphabet := by
    rw [Base32.symbolValue] at hc
    exact List.isSome_idxOf?.mp (by rw [hc]; rfl)
  rw [Base32.symbolValue] at hc
  obtain ⟨n,hn,hsymbol⟩ := Base32.exists_symbol hmem
  have hascii : c.toNat<128 := hsymbol ▸ (Base32.symbol_ascii n hn).1
  rw [decodeChar,if_neg (not_not.mpr hascii),hc]

/-- Any other character. -/
theorem decodeChar_other {c : Char} (hc : Base32.symbolValue c=none) : decodeChar d c=.error .invalidBase32 := by
  rw [Base32.symbolValue] at hc
  unfold decodeChar
  split_ifs
  · rw [hc]
  · rfl

/-- Text of the alphabet is decoded. -/
theorem foldlM_decodeChar {s : Text} {vals : List ℕ} (hs : s.map Base32.symbolValue=vals.map some)
    (ht : Tracks d r) (hr : Regrouped 5 8 ds r) : ∃ d',s.foldlM decodeChar d=.ok d' ∧
      Tracks d' (vals.foldl (Regroup.push 5 8) r) ∧ Regrouped 5 8 (ds++vals) (vals.foldl (Regroup.push 5 8) r) := by
  induction s generalizing d r ds vals with
  | nil =>
    obtain rfl : vals=[] := List.map_eq_nil_iff.mp hs.symm
    exact ⟨d,rfl,ht,by rwa [List.append_nil]⟩
  | cons c s ih =>
    obtain ⟨val,vals,rfl,hval,hvals⟩ := List.map_eq_cons_iff.mp hs.symm
    have hsmall := Base32.symbolValue_lt hval.symm
    obtain ⟨d',hok,ht',hr'⟩ := ih hvals.symm (push_tracks ht hr hsmall) (hr.push (by decide) hsmall)
    refine ⟨d',?_,ht',?_⟩
    · rw [List.foldlM_cons,decodeChar_symbol hval.symm]
      exact hok
    · rwa [List.append_assoc] at hr'

end Decoding

section Encodings

variable {casing : Casing} {key : Bytes} {typed : Text}

/-- A capital comes from an ASCII character, and `=` only from itself. -/
theorem toUpper_cases {c : Char} (hc : c.toUpper.toNat<128) : c.toNat<128 ∧ (c.toUpper= '=' → c= '=') := by
  have hascii : c.toNat<128 := by
    by_cases hlower : c.val≥ 'a'.val ∧ c.val≤ 'z'.val
    · have hle : c.toNat≤122 := UInt32.le_iff_toNat_le.mp hlower.2
      omega
    · have hsame : c.toUpper=c := dif_neg hlower
      rwa [hsame] at hc
  have hall : ∀ n : Fin 128,(Char.ofNat n.1).toUpper= '=' → Char.ofNat n.1= '=' := by decide
  refine ⟨hascii,fun he => ?_⟩
  have hc := hall ⟨c.toNat,hascii⟩
  rw [Char.ofNat_toNat] at hc
  exact hc he

/-- The last of equal characters are taken off. -/
theorem trimEndMatches_append {c : Char} {s : Text} (hs : c∉ s) (n : ℕ) :
    trimEndMatches c (s++List.replicate n c)=s := by
  have hpad : ∀ d∈(List.replicate n c).reverse,(d==c)=true := by
    intro d hd
    rw [List.eq_of_mem_replicate (List.mem_reverse.mp hd)]
    exact beq_self_eq_true c
  have hfree : s.reverse.dropWhile (·==c)=s.reverse := by
    cases hlast : s.reverse with
    | nil => rfl
    | cons d rest =>
      have hd : d∈s := List.mem_reverse.mp (by rw [hlast]; exact List.mem_cons_self)
      exact List.dropWhile_cons_of_neg fun he => hs (beq_iff_eq.mp he ▸ hd)
  rw [trimEndMatches,List.reverse_append,List.dropWhile_append_of_pos hpad,hfree,List.reverse_reverse]

/-- Characters of an encoding. -/
theorem encodeUnpadded_char {c : Char} (hc : c∈Base32.encodeUnpadded key) : c.toNat<128 ∧ c≠ '=' := by
  obtain ⟨n,hn,rfl⟩ := List.mem_map.mp hc
  obtain ⟨pad,hholds⟩ := Base32.holds_encodeDigits key
  obtain ⟨hascii,-,hpad⟩ := Base32.symbol_ascii n (hholds.small n hn)
  exact ⟨hascii,hpad⟩

/-- What is left of a typed encoding. -/
theorem cleaned_of_encodes (h : Encodes key typed) : cleaned casing typed=Base32.encodeUnpadded key := by
  obtain ⟨n,htyped⟩ := h
  obtain ⟨front,back,hsplit,hfront,hback⟩ := List.map_eq_append_iff.mp htyped
  have hchar : ∀ c∈front,c.toNat<128 ∧ c≠ '=' := by
    intro c hc
    have hmem : c.toUpper∈Base32.encodeUnpadded key := by
      rw [← hfront]
      exact List.mem_map_of_mem hc
    obtain ⟨hascii,hpad⟩ := encodeUnpadded_char hmem
    refine ⟨(toUpper_cases hascii).1,?_⟩
    rintro rfl
    exact hpad rfl
  have hpad : back=List.replicate back.length '=' := by
    refine List.eq_replicate_of_mem fun c hc => ?_
    have hmem : c.toUpper∈List.replicate n '=' := by
      rw [← hback]
      exact List.mem_map_of_mem hc
    have heq := List.eq_of_mem_replicate hmem
    exact (toUpper_cases (by rw [heq]; decide)).2 heq
  rw [cleaned,hsplit,hpad,trimEndMatches_append (fun hmem => (hchar _ hmem).2 rfl),← hfront,
    ← List.flatMap_singleton' (front.map Char.toUpper),List.flatMap_map]
  exact List.flatMap_congr fun c hc => casing.ascii c (hchar c hc).1

/-- An encoding is decoded. -/
theorem base32Decode_encodes (casing : Casing) (h : Encodes key typed) : base32Decode casing typed=.ok key := by
  have hvals : (Base32.encodeUnpadded key).map Base32.symbolValue=(Base32.encodeDigits key).map some := by
    obtain ⟨pad,hholds⟩ := Base32.holds_encodeDigits key
    rw [Base32.encodeUnpadded,List.map_map]
    exact List.map_congr_left fun n hn => Base32.symbolValue_symbol n (hholds.small n hn)
  obtain ⟨d,hok,htracks,hregrouped⟩ := foldlM_decodeChar hvals tracks_start (regrouped_start (by decide))
  have hout : d.output.map UInt8.toNat=key.map UInt8.toNat := by
    rw [htracks.out]
    exact Base32.regroup_encodeDigits hregrouped
  have hkey : d.output=key := List.map_injective_iff.mpr (fun _ _ => UInt8.toNat_inj.mp) hout
  unfold base32Decode
  rw [cleaned_of_encodes h,hok,← hkey]
  rfl

end Encodings

section Hotp

variable {hmac : HmacSha1}

/-- An index that is in range. -/
theorem index_getD {bytes : Bytes} {i : ℕ} (hi : i<bytes.length) : index bytes i=.ok (bytes.getD i 0) := by
  rw [index,List.getElem?_eq_getElem hi,List.getD_eq_getElem?_getD,List.getElem?_eq_getElem hi]
  rfl

/-- Four bytes. -/
theorem fromBeBytes_four (a b c d : UInt8) :
    fromBeBytes [a,b,c,d]=a.toNat*2^24+b.toNat*2^16+c.toNat*2^8+d.toNat := by
  simp only [fromBeBytes,value,List.map_cons,List.map_nil,List.reverse_cons,List.reverse_nil,List.nil_append,
    List.cons_append,Nat.ofDigits_cons,Nat.ofDigits_nil]
  ring

/-- `hotp` is the dynamic truncation, and no index is out of range. -/
theorem hotp_eq (secret : Bytes) (counter : UInt64) (n : ℕ) :
    hotp hmac secret counter n=.ok (truncation (hmac secret (toBeBytes counter))%10^n) := by
  have hindex : ∀ i,i<20 → index (hmac secret (toBeBytes counter)).1 i=
      .ok ((hmac secret (toBeBytes counter)).1.getD i 0) := by
    intro i hi
    exact index_getD (by rwa [(hmac secret (toBeBytes counter)).2])
  have hoffset : ∀ b : UInt8,(b &&& 0x0f).toNat=b.toNat%16 := by
    intro b
    rw [UInt8.toNat_and]
    exact Nat.and_two_pow_sub_one_eq_mod b.toNat 4
  have hfirst : ∀ b : UInt8,(b &&& 0x7f).toNat=b.toNat%128 := by
    intro b
    rw [UInt8.toNat_and]
    exact Nat.and_two_pow_sub_one_eq_mod b.toNat 7
  have hlast := Nat.mod_lt ((hmac secret (toBeBytes counter)).1.getD 19 0).toNat (show 0<16 by decide)
  unfold hotp
  dsimp only
  rw [hindex 19 (by decide)]
  dsimp only [bind,Except.bind]
  rw [hoffset,hindex _ (by omega),hindex _ (by omega),hindex _ (by omega),hindex _ (by omega)]
  dsimp only
  rw [fromBeBytes_four,hfirst]
  rfl

/-- The counter of the code and of the RFC. -/
theorem toBeBytes_period (t : UInt64) : toBeBytes (t/DEFAULT_PERIOD)=timeStep t.toNat := by
  rw [toBeBytes,timeStep,UInt64.toNat_div]
  rfl

/-- Padded decimal digits are digits of fixed number. -/
theorem padStart_toDigits (m : ℕ) {n : ℕ} (hn : n<10^(m+1)) :
    padStart (m+1) (Nat.toDigits 10 n)=(digits 10 (m+1) n).map Nat.digitChar := by
  have hzeros : ∀ m,(digits 10 m 0).map Nat.digitChar=List.replicate m '0' := by
    intro m
    induction m with
    | zero => rfl
    | succ m ih =>
      rw [digits,Nat.zero_div,List.map_append,ih,List.replicate_succ']
      rfl
  induction m generalizing n with
  | zero =>
    rw [Nat.toDigits_of_lt_base (by simpa using hn)]
    simp only [digits,padStart,List.length_singleton,Nat.sub_self,List.replicate_zero,List.nil_append,
      List.map_singleton,Nat.mod_eq_of_lt (show n<10 by simpa using hn)]
  | succ m ih =>
    by_cases hsmall : n<10
    · rw [Nat.toDigits_of_lt_base hsmall,digits,Nat.div_eq_of_lt hsmall,Nat.mod_eq_of_lt hsmall,List.map_append,hzeros]
      rfl
    · have hdiv : n/10<10^(m+1) := by
        rw [pow_succ] at hn
        omega
      have hrest := ih hdiv
      rw [Nat.toDigits_of_base_le (by decide) (by omega),digits,List.map_append,← hrest,padStart,padStart,
        List.length_append,List.length_singleton,Nat.add_sub_add_right,List.append_assoc]
      rfl

/-- A code of six digits. -/
theorem code_eq (key : Bytes) (t : UInt64) :
    (hotp hmac key (t/DEFAULT_PERIOD) DEFAULT_DIGITS).map (fun code => padStart DEFAULT_DIGITS (Nat.toDigits 10 code))=
      .ok (rfcCode hmac key t.toNat) := by
  rw [hotp_eq,toBeBytes_period]
  exact congrArg Except.ok (padStart_toDigits 5 (Nat.mod_lt _ (by decide)))

end Hotp

section Codes

variable {casing : Casing} {hmac : HmacSha1}

/-- A secret that is decoded has the code of its key. -/
theorem generateTotp_decoded (hmac : HmacSha1) {secretB32 : Text} {key : Bytes} (h : base32Decode casing secretB32=.ok key) (t : UInt64) :
    generateTotp casing hmac secretB32 t=.ok (rfcCode hmac key t.toNat) := by
  rw [← code_eq,generateTotp,h]
  rfl

/-- The accumulator never has more than twelve bits. -/
def NeverOverflows (casing : Casing) (input : Text) : Prop :=
  ∀ (before : Text) c after d val,cleaned casing input=before++c::after → before.foldlM decodeChar Decoder.start=.ok d →
    Base32.symbolValue c=some val → (d.wide val).toNat<2^12

/-- Characters that the loop passed are in the alphabet. -/
theorem exists_values {s : Text} {d d' : Decoder} (h : s.foldlM decodeChar d=.ok d') :
    ∃ vals : List ℕ,s.map Base32.symbolValue=vals.map some := by
  induction s generalizing d with
  | nil => exact ⟨[],rfl⟩
  | cons c s ih =>
    rw [List.foldlM_cons] at h
    cases hc : Base32.symbolValue c with
    | none =>
      rw [decodeChar_other hc] at h
      cases h
    | some val =>
      rw [decodeChar_symbol hc] at h
      obtain ⟨vals,hvals⟩ := ih h
      exact ⟨val::vals,by rw [List.map_cons,hc,hvals]; rfl⟩

theorem neverOverflows (input : Text) : NeverOverflows casing input := by
  intro before c after d val _ hok hval
  obtain ⟨vals,hvals⟩ := exists_values hok
  obtain ⟨d',hok',htracks,hregrouped⟩ := foldlM_decodeChar hvals tracks_start (regrouped_start (by decide))
  obtain rfl : d=d' := Except.ok.inj (hok.symm.trans hok')
  have hwide := wide_toNat htracks hregrouped (Base32.symbolValue_lt hval)
  rw [hwide.1]
  exact hwide.2

/-- `generate_totp` is RFC 6238 for every encoding of a key: it succeeds, so
that no index is out of range, and the accumulator stays within twelve bits. -/
theorem generateTotp_rfc {key : Bytes} {typed : Text} (htyped : Encodes key typed) (t : UInt64) :
    generateTotp casing hmac typed t=.ok (rfcCode hmac key t.toNat) ∧ NeverOverflows casing typed :=
  ⟨generateTotp_decoded hmac (base32Decode_encodes casing htyped) t,neverOverflows typed⟩

end Codes

section Samples

/-- A letter is neither white space nor padding. -/
theorem letter_plain {c : Char} (hc : 65≤c.toNat ∧ c.toNat≤122) :
    (isWhitespace c || jsWhitespace c)=false ∧ c≠ '=' := by
  constructor
  · simp only [isWhitespace,jsWhitespace,List.mem_cons,List.not_mem_nil,or_false,Bool.or_eq_false_iff,
      decide_eq_false_iff_not,Bool.and_eq_false_iff]
    omega
  · rintro rfl
    exact absurd hc.1 (by decide)

/-- Only letters have another capital. -/
theorem toUpper_letter (c : Char) :
    c.toUpper=c ∨ 65≤c.toNat ∧ c.toNat≤122 ∧ 65≤c.toUpper.toNat ∧ c.toUpper.toNat≤122 := by
  by_cases hlower : c.val≥ 'a'.val ∧ c.val≤ 'z'.val
  · have hge : 97≤c.toNat := UInt32.le_iff_toNat_le.mp hlower.1
    have hle : c.toNat≤122 := UInt32.le_iff_toNat_le.mp hlower.2
    have hall : ∀ n : Fin 123,97≤n.1 → 65≤(Char.ofNat n.1).toUpper.toNat ∧ (Char.ofNat n.1).toUpper.toNat≤122 := by
      decide
    have hc := hall ⟨c.toNat,by omega⟩ hge
    rw [Char.ofNat_toNat] at hc
    exact .inr ⟨by omega,hle,hc⟩
  · exact .inl (dif_neg hlower)

/-- Uppercasing of ASCII alone. -/
def asciiCasing : Casing where
  upper c := [c.toUpper]
  ascii _ _ := rfl
  space c hspace := by
    rcases toUpper_letter c with hsame|⟨hge,hle,-⟩
    · rw [hsame]
    · rw [(letter_plain ⟨hge,hle⟩).1] at hspace
      cases hspace
  plain c hplain hpad d hd := by
    rw [List.mem_singleton.mp hd]
    rcases toUpper_letter c with hsame|⟨-,-,hge,hle⟩
    · rw [hsame]
      exact ⟨hplain,hpad⟩
    · exact letter_plain ⟨hge,hle⟩

/-- A hash that is the key and the message. -/
def echoHmac : HmacSha1 := fun key message => ⟨(key++message++List.replicate 20 0).take 20,by
  rw [List.length_take,List.length_append,List.length_replicate]
  omega⟩

/-- A spaced encoding in mixed case, with padding and a line feed. -/
theorem generateTotp_rfc_sample : Encodes [102,111] "mZ xq =\n===".toList ∧
    generateTotp asciiCasing echoHmac "mZ xq =\n===".toList 59=.ok (rfcCode echoHmac [102,111] 59) ∧
      NeverOverflows asciiCasing "mZ xq =\n===".toList := by
  have htyped : Encodes [102,111] "mZ xq =\n===".toList := ⟨4,by decide⟩
  exact ⟨htyped,generateTotp_rfc htyped 59⟩

end Samples

end NadSafe.TotpCodes
