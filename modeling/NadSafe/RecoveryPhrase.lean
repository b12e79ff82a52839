import NadSafe.CryptoCore

/-!
# Recovery phrases of crypto-core and the web client

Both sides print 32 bytes of entropy as eight groups of eight hexadecimal
digits and read them back without regard to white space and case. Rust cuts
bytes and parses with `from_str_radix`, JavaScript slices UTF-16 and parses
with `parseInt`; each has its own notion of white space and of length.
-/

namespace NadSafe.RecoveryPhrase

open HostText WireFormat WebCrypto CryptoCore

/-- The two lowercase digits of `{:02x}`, and of `toString(16)` padded to
two with zeros. -/
def hexByte (b : UInt8) : Text :=
  let digits := Nat.toDigits 16 b.toNat
  List.replicate (2-digits.length) '0'++digits

/-- The digits of all bytes. -/
def hexText (bytes : Bytes) : Text := bytes.flatMap hexByte

/-- Slices of eight, so many times. -/
def groups : ℕ → Text → List Text
  | 0,_ => []
  | n+1,s => s.take 8::groups n (s.drop 8)

/-- Groups of eight digits with a space between, as `entropy_to_phrase` and
`entropyToPhrase` print them. -/
def entropyToPhrase (entropy : Fixed 32) : Text :=
  let hex := hexText entropy.1
  [' '].intercalate (groups ((hex.length+7)/8) hex)

/-- Slices of two, so many times. -/
def pairs : ℕ → Text → List Text
  | 0,_ => []
  | n+1,s => s.take 2::pairs n (s.drop 2)

section Rust

/-- `char::is_whitespace`. -/
def isWhitespace (c : Char) : Bool :=
  c.toNat∈[9,10,11,12,13,32,133,160,5760,8232,8233,8239,8287,12288] ||
    (8192≤c.toNat && c.toNat≤8202)

/-- `char::is_ascii_hexdigit`. -/
def isAsciiHexdigit (c : Char) : Bool := (digitValue 16 c).isSome

/-- One hexadecimal digit is appended to a byte value, or the parse stops. -/
def pushHexDigit (value : ℕ) (c : Char) : Option ℕ := do
  let digit ← digitValue 16 c
  if value*16+digit<256 then some (value*16+digit) else none

/-- An optional plus sign. -/
def dropPlus : Text → Text
  | '+'::t => t
  | t => t

/-- `u8::from_str_radix` with radix 16. -/
def fromStrRadix (s : Text) : Option UInt8 :=
  let digits := dropPlus s
  if digits=[] then none else (digits.foldlM pushHexDigit 0).map UInt8.ofNat

/-- `phrase_to_entropy`. -/
def phraseToEntropyRust (phrase : Text) : Except CryptoError Bytes :=
  let hex := phrase.filter fun c => !isWhitespace c
  if (utf8 hex).length≠64 ∨ hex.all isAsciiHexdigit=false then .error .invalidRecoveryPhrase
  else
    match (pairs 32 hex).mapM fromStrRadix with
    | some bytes => .ok bytes
    | none => .error .invalidRecoveryPhrase

end Rust

section Web

/-- An optional sign. -/
def splitSign : Text → ℤ×Text
  | '-'::t => (-1,t)
  | '+'::t => (1,t)
  | t => (1,t)

/-- An optional hexadecimal mark. -/
def dropHexMark : Text → Text
  | '0':: 'x'::t => t
  | '0':: 'X'::t => t
  | t => t

/-- `parseInt` with radix 16. -/
def parseIntHex (s : Text) : Option ℤ :=
  let signed := splitSign (s.dropWhile jsWhitespace)
  let digits := (dropHexMark signed.2).takeWhile fun c => (digitValue 16 c).isSome
  if digits=[] then none
  else some (signed.1*(digits.foldl (fun value c => value*16+(digitValue 16 c).getD 0) 0 : ℕ))

/-- A number stored into a byte array; NaN becomes zero. -/
def storeByte (n : Option ℤ) : UInt8 := UInt8.ofNat (n.getD 0%256).toNat

/-- `phraseToEntropy`. -/
def phraseToEntropyWeb (phrase : Text) : Except Text Bytes :=
  let hex := phrase.filter fun c => !jsWhitespace c
  if jsLength hex≠64 then .error "Invalid recovery phrase length".toList
  else if hex.all isAsciiHexdigit=false then .error "Recovery phrase must be hexadecimal".toList
  else .ok ((pairs 32 hex).map fun pair => storeByte (parseIntHex pair))

end Web

/-- Spaces, tabs and line breaks of ASCII. -/
def isSpacing (c : Char) : Bool := c.toNat∈[9,10,13,32]

/-- The same characters in another case and with other spacing. -/
def Respelled (phrase typed : Text) : Prop :=
  (typed.filter fun c => !isSpacing c).map Char.toLower=
    (phrase.filter fun c => !isSpacing c).map Char.toLower

/-- A byte is printed as its two halves. -/
theorem hexByte_eq (b : UInt8) :
    hexByte b=[Nat.digitChar (b.toNat/16),Nat.digitChar (b.toNat%16)] := by
  have hb := b.toNat_lt
  unfold hexByte
  dsimp only
  rcases Nat.lt_or_ge b.toNat 16 with hlow|hhigh
  · rw [Nat.toDigits_of_lt_base hlow,Nat.div_eq_of_lt hlow,Nat.mod_eq_of_lt hlow]
    rfl
  · have hdigit : b.toNat/16<16 := by omega
    rw [Nat.toDigits_of_base_le (by decide) hhigh,Nat.toDigits_of_lt_base hdigit]
    rfl

/-- A printed digit has its value and is lowercase. -/
theorem digitValue_digitChar {n : ℕ} (hn : n<16) :
    digitValue 16 (Nat.digitChar n)=some n ∧ (Nat.digitChar n).toLower=Nat.digitChar n := by
  have hall : ∀ n : Fin 16,digitValue 16 (Nat.digitChar n)=some n.1 ∧
      (Nat.digitChar n).toLower=Nat.digitChar n := by
    decide
  exact hall ⟨n,hn⟩

/-- The value of a digit does not depend on its case. -/
theorem digitValue_toLower (c : Char) : digitValue 16 c.toLower=digitValue 16 c := by
  by_cases hupper : 65≤c.toNat ∧ c.toNat≤90
  · have hlower : c.toLower.toNat=c.toNat+32 := by
      have hall : ∀ n : Fin 128,65≤n.1 ∧ n.1≤90 → (Char.ofNat n.1).toLower.toNat=n.1+32 := by
        decide
      have hc := hall ⟨c.toNat,by omega⟩ hupper
      rwa [Char.ofNat_toNat] at hc
    simp only [digitValue,hlower]
    have h1 : ¬(48≤c.toNat+32 ∧ c.toNat+32≤57) := by omega
    have h2 : 97≤c.toNat+32 ∧ c.toNat+32≤122 := by omega
    have h3 : ¬(48≤c.toNat ∧ c.toNat≤57) := by omega
    have h4 : ¬(97≤c.toNat ∧ c.toNat≤122) := by omega
    have h5 : c.toNat+32-87=c.toNat-55 := by omega
    rw [if_neg h1,if_pos h2,if_neg h3,if_neg h4,if_pos hupper,h5]
  · have hsame : c.toLower=c := dif_neg fun h => hupper h
    rw [hsame]

/-- Digits of one byte, whatever their case. -/
theorem pair_of_hexByte {b : UInt8} {c d : Char} (h : [c.toLower,d.toLower]=hexByte b) :
    digitValue 16 c=some (b.toNat/16) ∧ digitValue 16 d=some (b.toNat%16) := by
  have hb := b.toNat_lt
  rw [hexByte_eq] at h
  obtain ⟨hc,hd⟩ := List.cons.inj h
  have hd := (List.cons.inj hd).1
  rw [←digitValue_toLower c,←digitValue_toLower d,hc,hd]
  exact ⟨(digitValue_digitChar (by omega)).1,(digitValue_digitChar (by omega)).1⟩

/-- A hexadecimal digit is an ASCII character and no white space. -/
theorem hexDigit_plain {c : Char} {n : ℕ} (hc : digitValue 16 c=some n) :
    jsWhitespace c=false ∧ isWhitespace c=false ∧ isSpacing c=false ∧ c.toNat<128 := by
  have hrange : c.toNat<128 ∧ 48≤c.toNat := by
    unfold digitValue at hc
    dsimp only at hc
    split_ifs at hc <;> omega
  have h8 : ¬8192≤c.toNat := by omega
  simp only [jsWhitespace,isWhitespace,isSpacing,List.mem_cons,List.not_mem_nil,or_false,h8,
    decide_false,Bool.false_and,Bool.or_false,decide_eq_false_iff_not]
  omega

/-- A hexadecimal digit is no sign and no mark. -/
theorem hexDigit_ne {c : Char} {n : ℕ} (hc : digitValue 16 c=some n) :
    c≠ '+' ∧ c≠ '-' ∧ c≠ 'x' ∧ c≠ 'X' := by
  refine ⟨?_,?_,?_,?_⟩
  all_goals
    rintro rfl
    exact absurd hc (by simp [digitValue])

/-- `from_str_radix` on two digits. -/
theorem fromStrRadix_pair {b : UInt8} {c d : Char} (hc : digitValue 16 c=some (b.toNat/16))
    (hd : digitValue 16 d=some (b.toNat%16)) : fromStrRadix [c,d]=some b := by
  have hb := b.toNat_lt
  have hdigits : dropPlus [c,d]=[c,d] := by
    unfold dropPlus
    split
    · rename_i he
      exact absurd (List.cons.inj he).1 (hexDigit_ne hc).1
    · rfl
  have hfirst : pushHexDigit 0 c=some (b.toNat/16) := by
    simp only [pushHexDigit,hc,Option.bind_eq_bind,Option.bind_some]
    rw [if_pos (by omega),Nat.zero_mul,Nat.zero_add]
  have hsecond : pushHexDigit (b.toNat/16) d=some b.toNat := by
    have hvalue : b.toNat/16*16+b.toNat%16=b.toNat := by omega
    simp only [pushHexDigit,hd,Option.bind_eq_bind,Option.bind_some,hvalue]
    rw [if_pos (by omega)]
  simp [fromStrRadix,hdigits,List.foldlM,hfirst,hsecond]

/-- `parseInt` on two digits. -/
theorem parseIntHex_pair {b : UInt8} {c d : Char} (hc : digitValue 16 c=some (b.toNat/16))
    (hd : digitValue 16 d=some (b.toNat%16)) : parseIntHex [c,d]=some (b.toNat : ℤ) := by
  have htrim : [c,d].dropWhile jsWhitespace=[c,d] :=
    List.dropWhile_cons_of_neg (by rw [(hexDigit_plain hc).1]; decide)
  have hsigned : splitSign [c,d]=(1,[c,d]) := by
    unfold splitSign
    split
    · rename_i he
      exact absurd (List.cons.inj he).1 (hexDigit_ne hc).2.1
    · rename_i he
      exact absurd (List.cons.inj he).1 (hexDigit_ne hc).1
    · rfl
  have hmark : dropHexMark [c,d]=[c,d] := by
    unfold dropHexMark
    split
    · rename_i he
      exact absurd (List.cons.inj (List.cons.inj he).2).1 (hexDigit_ne hd).2.2.1
    · rename_i he
      exact absurd (List.cons.inj (List.cons.inj he).2).1 (hexDigit_ne hd).2.2.2
    · rfl
  have hdigits : [c,d].takeWhile (fun c => (digitValue 16 c).isSome)=[c,d] := by
    simp [List.takeWhile,hc,hd]
  have hvalue : b.toNat/16*16+b.toNat%16=b.toNat := by omega
  simp [parseIntHex,htrim,hsigned,hmark,hdigits,hc,hd,hvalue]

/-- A byte value survives the store into a byte array. -/
theorem storeByte_toNat (b : UInt8) : storeByte (some (b.toNat : ℤ))=b := by
  have hb := b.toNat_lt
  have hmod : ((b.toNat : ℤ)%256).toNat=b.toNat := by omega
  rw [storeByte,Option.getD_some,hmod,UInt8.ofNat_toNat]

/-- Digits of any case are read back by both parsers. -/
theorem pairs_hexText (bytes : Bytes) {s : Text} (h : s.map Char.toLower=hexText bytes) :
    (pairs bytes.length s).mapM fromStrRadix=some bytes ∧
      (pairs bytes.length s).map (fun pair => storeByte (parseIntHex pair))=bytes ∧
      s.length=2*bytes.length ∧ ∀ c∈s,∃ n,digitValue 16 c=some n := by
  induction bytes generalizing s with
  | nil =>
    have hs : s=[] := List.map_eq_nil_iff.mp h
    subst hs
    exact ⟨rfl,rfl,rfl,fun c hc => absurd hc List.not_mem_nil⟩
  | cons b bytes ih =>
    have hprinted : hexText (b::bytes)=hexByte b++hexText bytes := List.flatMap_cons
    rw [hprinted,hexByte_eq] at h
    obtain ⟨c,s,rfl,hc,h⟩ := List.map_eq_cons_iff.mp h
    obtain ⟨d,s,rfl,hd,h⟩ := List.map_eq_cons_iff.mp h
    obtain ⟨hc,hd⟩ := pair_of_hexByte (show [c.toLower,d.toLower]=hexByte b by rw [hc,hd,hexByte_eq])
    obtain ⟨hrust,hweb,hlength,hdigits⟩ := ih h
    refine ⟨?_,?_,?_,?_⟩
    · simp [pairs,fromStrRadix_pair hc hd,hrust]
    · simp [pairs,parseIntHex_pair hc hd,storeByte_toNat,hweb]
    · simp only [List.length_cons,hlength]
      omega
    · intro e he
      rcases List.mem_cons.mp he with rfl|he
      · exact ⟨_,hc⟩
      · rcases List.mem_cons.mp he with rfl|he
        · exact ⟨_,hd⟩
        · exact hdigits e he

/-- Slicing loses nothing when there are enough slices. -/
theorem groups_flatten (n : ℕ) {s : Text} (h : s.length≤8*n) : (groups n s).flatten=s := by
  induction n generalizing s with
  | zero => simpa [groups] using (List.length_eq_zero_iff.mp (Nat.le_zero.mp h)).symm
  | succ n ih =>
    have hrest : (s.drop 8).length≤8*n := by
      rw [List.length_drop]
      omega
    rw [groups,List.flatten_cons,ih hrest,List.take_append_drop]

/-- A separator that a filter removes does not show after it. -/
theorem filter_intercalate {sep : Char} {p : Char → Bool} (hsep : p sep=false) (parts : List Text) :
    ([sep].intercalate parts).filter p=parts.flatten.filter p := by
  induction parts with
  | nil => rfl
  | cons part parts ih =>
    cases parts with
    | nil => simp
    | cons next parts =>
      rw [List.intercalate_cons_cons,List.filter_append,List.filter_append,ih]
      simp [hsep]

/-- Printed digits are lowercase. -/
theorem hexText_toLower (bytes : Bytes) : (hexText bytes).map Char.toLower=hexText bytes := by
  refine (List.map_congr_left fun c hc => ?_).trans (List.map_id (hexText bytes))
  obtain ⟨b,-,hb⟩ := List.mem_flatMap.mp hc
  have hlt := b.toNat_lt
  rw [hexByte_eq] at hb
  rcases List.mem_cons.mp hb with rfl|hb
  · exact (digitValue_digitChar (by omega)).2
  · rw [List.mem_singleton.mp hb]
    exact (digitValue_digitChar (by omega)).2

/-- The digits of a printed phrase. -/
theorem entropyToPhrase_filter (entropy : Fixed 32) :
    (entropyToPhrase entropy).filter (fun c => !isSpacing c)=hexText entropy.1 := by
  obtain ⟨-,-,hlength,hdigits⟩ := pairs_hexText entropy.1 (hexText_toLower entropy.1)
  rw [entropyToPhrase,filter_intercalate (by decide),groups_flatten _ (by omega),List.filter_eq_self]
  intro c hc
  obtain ⟨n,hn⟩ := hdigits c hc
  rw [(hexDigit_plain hn).2.2.1]
  rfl

/-- ASCII text has one code unit a character. -/
theorem jsLength_ascii {s : Text} (h : ∀ c∈s,c.toNat<128) : jsLength s=s.length := by
  have hfold : ∀ (s : Text) (n : ℕ),(∀ c∈s,c.toNat<128) →
      s.foldl (fun n c => n+if c.toNat<0x10000 then 1 else 2) n=n+s.length := by
    intro s
    induction s with
    | nil => exact fun n _ => rfl
    | cons c s ih =>
      intro n hs
      have hc := hs c List.mem_cons_self
      rw [List.foldl_cons,if_pos (by omega),ih _ fun d hd => hs d (List.mem_cons_of_mem c hd),
        List.length_cons]
      omega
  rw [jsLength,hfold s 0 h,Nat.zero_add]

/-- And one byte a character. -/
theorem utf8_length_ascii {s : Text} (h : ∀ c∈s,c.toNat<128) : (utf8 s).length=s.length := by
  induction s with
  | nil => rfl
  | cons c s ih =>
    have hc := h c List.mem_cons_self
    have hbyte : String.utf8EncodeChar c=[UInt8.ofNat c.toNat] := if_pos (show c.toNat≤0x7F by omega)
    have hs := ih fun d hd => h d (List.mem_cons_of_mem c hd)
    rw [utf8] at hs ⊢
    rw [List.flatMap_cons,hbyte,List.length_append,hs,List.length_singleton,List.length_cons,
      Nat.add_comm]

/-- A filter that agrees with another on spacing and on digits. -/
theorem filter_of_respelled {typed : Text} {white : Char → Bool}
    (hspacing : ∀ c,isSpacing c=true → white c=true)
    (hdigit : ∀ c n,digitValue 16 c=some n → white c=false)
    (hdigits : ∀ c∈typed.filter (fun c => !isSpacing c),∃ n,digitValue 16 c=some n) :
    typed.filter (fun c => !white c)=typed.filter fun c => !isSpacing c := by
  refine List.filter_congr fun c hc => ?_
  cases hspace : isSpacing c with
  | true => rw [hspacing c hspace]
  | false =>
    obtain ⟨n,hn⟩ := hdigits c (List.mem_filter.mpr ⟨hc,by rw [hspace]; rfl⟩)
    rw [hdigit c n hn]

/-- Both parsers read a phrase back, in any case and spacing. -/
theorem phraseToEntropy_respelled (entropy : Fixed 32) {typed : Text}
    (h : Respelled (entropyToPhrase entropy) typed) :
    phraseToEntropyRust typed=.ok entropy.1 ∧ phraseToEntropyWeb typed=.ok entropy.1 := by
  have hlower : (typed.filter fun c => !isSpacing c).map Char.toLower=hexText entropy.1 := by
    rw [h,entropyToPhrase_filter,hexText_toLower]
  obtain ⟨hrust,hweb,hlength,hdigits⟩ := pairs_hexText entropy.1 hlower
  have hascii : ∀ c∈typed.filter (fun c => !isSpacing c),c.toNat<128 := fun c hc => by
    obtain ⟨n,hn⟩ := hdigits c hc
    exact (hexDigit_plain hn).2.2.2
  have hall : (typed.filter fun c => !isSpacing c).all isAsciiHexdigit=true := by
    rw [List.all_eq_true]
    intro c hc
    obtain ⟨n,hn⟩ := hdigits c hc
    rw [isAsciiHexdigit,hn]
    rfl
  have hfilterRust : typed.filter (fun c => !isWhitespace c)=typed.filter fun c => !isSpacing c := by
    refine filter_of_respelled (fun c hc => ?_) (fun c n hn => (hexDigit_plain hn).2.1) hdigits
    simp only [isSpacing,List.mem_cons,List.not_mem_nil,or_false,decide_eq_true_eq] at hc
    rcases hc with hc|hc|hc|hc <;> simp [isWhitespace,hc]
  have hfilterWeb : typed.filter (fun c => !jsWhitespace c)=typed.filter fun c => !isSpacing c := by
    refine filter_of_respelled (fun c hc => ?_) (fun c n hn => (hexDigit_plain hn).1) hdigits
    simp only [isSpacing,List.mem_cons,List.not_mem_nil,or_false,decide_eq_true_eq] at hc
    rcases hc with hc|hc|hc|hc <;> simp [jsWhitespace,hc]
  rw [entropy.2] at hrust hweb hlength
  constructor
  · simp only [phraseToEntropyRust,hfilterRust,utf8_length_ascii hascii,hlength,hall,hrust]
    simp
  · simp only [phraseToEntropyWeb,hfilterWeb,jsLength_ascii hascii,hlength,hall,hweb]
    simp

end NadSafe.RecoveryPhrase
