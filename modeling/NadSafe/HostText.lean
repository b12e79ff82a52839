import NadSafe.Base64
import Mathlib.Data.Int.Notation
import Mathlib.Data.List.TakeWhile

/-!
# Text operations of the host languages

Strings are lists of Unicode scalar values. The Rust operations follow the
standard library (`split_once`, `splitn`, `u8::from_str`), the JavaScript
operations follow ECMAScript and WHATWG (`split`, `parseInt`, `btoa`,
`atob`). Separators here are ASCII, so cutting scalar values and cutting
UTF-16 code units give the same pieces.
-/

namespace NadSafe.HostText

/-- A string of Unicode scalar values. -/
abbrev Text := List Char

/-- Strings are compared character by character. -/
instance : LawfulBEq Text := inferInstance

/-- A byte string. -/
abbrev Bytes := List UInt8

/-- JavaScript `String.length`: UTF-16 code units. -/
def jsLength (s : Text) : ℕ := s.foldl (fun n c => n+if c.toNat<0x10000 then 1 else 2) 0

/-- Rust `str::split_once`: the parts around the first separator. -/
def splitOnce (sep : Char) : Text → Option (Text×Text)
  | [] => none
  | c::cs => if c=sep then some ([],cs) else (splitOnce sep cs).map fun r => (c::r.1,r.2)

/-- Rust `str::splitn`: at most `n` parts, the last one uncut. -/
def splitn (sep : Char) : ℕ → Text → List Text
  | 0,_ => []
  | 1,s => [s]
  | n+2,s =>
    match splitOnce sep s with
    | none => [s]
    | some (part,rest) => part::splitn sep (n+1) rest

/-- JavaScript `String.split` at a one-character separator. -/
def split (sep : Char) (s : Text) : List Text := s.splitOn sep

/-- The first separator is where `split_once` cuts. -/
theorem splitOnce_eq_some_iff {sep : Char} {s a b : Text} :
    splitOnce sep s=some (a,b) ↔ s=a++sep::b ∧ sep∉a := by
  induction s generalizing a with
  | nil => simp [splitOnce]
  | cons c cs ih =>
    by_cases hc : c=sep
    · subst hc
      simp only [splitOnce,if_true,Option.some.injEq,Prod.mk.injEq]
      constructor
      · rintro ⟨rfl,rfl⟩
        simp
      · rintro ⟨h,ha⟩
        cases a with
        | nil => exact ⟨rfl,(List.cons.inj h).2⟩
        | cons d a => exact absurd (List.mem_cons.mpr (.inl (List.cons.inj h).1)) ha
    · simp only [splitOnce,if_neg hc,Option.map_eq_some_iff,Prod.mk.injEq,Prod.exists]
      constructor
      · rintro ⟨a',b',h,rfl,rfl⟩
        obtain ⟨rfl,ha⟩ := ih.mp h
        exact ⟨rfl,fun hm => (List.mem_cons.mp hm).elim (fun h => hc h.symm) ha⟩
      · rintro ⟨h,ha⟩
        cases a with
        | nil => exact absurd (List.cons.inj h).1 hc
        | cons d a =>
          obtain ⟨rfl,rfl⟩ := List.cons.inj h
          exact ⟨a,b,ih.mpr ⟨rfl,fun hm => ha (List.mem_cons_of_mem _ hm)⟩,rfl,rfl⟩

/-- The position of the first separator, as `indexOf` reports it. -/
theorem idxOf?_append {sep : Char} {a b : Text} (ha : sep∉a) :
    (a++sep::b).idxOf? sep=some a.length := by
  induction a with
  | nil => simp [List.idxOf?_cons]
  | cons c a ih =>
    have hc : c≠sep := fun h => ha (List.mem_cons.mpr (.inl h.symm))
    have hi := ih fun h => ha (List.mem_cons_of_mem _ h)
    simp [List.idxOf?_cons,hc,hi]

/-- A text without the separator is one part. -/
theorem split_of_not_mem {sep : Char} {a : Text} (ha : sep∉a) : split sep a=[a] :=
  List.splitOn_eq_singleton ha

/-- The first part ends at the first separator. -/
theorem split_append {sep : Char} {a b : Text} (ha : sep∉a) :
    split sep (a++sep::b)=a::split sep b := List.splitOn_append_cons_self_of_not_mem ha b

/-- One decimal digit is appended to a byte value, or the parse stops. -/
def pushDigit (value : ℕ) (c : Char) : Option ℕ :=
  if 48≤c.toNat ∧ c.toNat≤57 then
    if value*10+(c.toNat-48)<256 then some (value*10+(c.toNat-48)) else none
  else none

/-- Rust `u8::from_str`: an optional plus sign, then at least one decimal
digit, without leaving the range. -/
def parseU8 (s : Text) : Option UInt8 :=
  let digits := match s with
    | '+'::t => t
    | t => t
  if digits=[] then none else (digits.foldlM pushDigit 0).map UInt8.ofNat

/-- ECMAScript white space and line terminators. -/
def jsWhitespace (c : Char) : Bool :=
  c.toNat∈[9,10,11,12,13,32,160,5760,8232,8233,8239,8287,12288,65279] ||
    (8192≤c.toNat && c.toNat≤8202)

/-- The value of a digit in a radix of at most 36. -/
def digitValue (radix : ℕ) (c : Char) : Option ℕ :=
  let value :=
    if 48≤c.toNat ∧ c.toNat≤57 then c.toNat-48
    else if 97≤c.toNat ∧ c.toNat≤122 then c.toNat-87
    else if 65≤c.toNat ∧ c.toNat≤90 then c.toNat-55
    else 36
  if value<radix then some value else none

/-- JavaScript `parseInt` without a radix: leading white space, a sign, an
optional hexadecimal mark, then the longest run of digits. Absent digits
give NaN, written `none`. -/
def parseInt (s : Text) : Option ℤ :=
  let trimmed := s.dropWhile jsWhitespace
  let signed : ℤ×Text := match trimmed with
    | '-'::t => (-1,t)
    | '+'::t => (1,t)
    | t => (1,t)
  let marked : ℕ×Text := match signed.2 with
    | '0':: 'x'::t => (16,t)
    | '0':: 'X'::t => (16,t)
    | t => (10,t)
  let digits := marked.2.takeWhile fun c => (digitValue marked.1 c).isSome
  if digits=[] then none
  else some (signed.1*
    (digits.foldl (fun value c => value*marked.1+(digitValue marked.1 c).getD 0) 0 : ℕ))

/-- A decimal digit, in the form both parsers test. -/
theorem digitValue_decimal {c : Char} (h : 48≤c.toNat ∧ c.toNat≤57) :
    digitValue 10 c=some (c.toNat-48) := by
  simp only [digitValue,if_pos h]
  rw [if_pos (by omega)]

/-- A byte that parses is the plain decimal value of its digits. -/
theorem foldlM_pushDigit {digits : Text} {value n : ℕ} (hb : value<256)
    (h : digits.foldlM pushDigit value=some n) :
    (∀ c∈digits,48≤c.toNat ∧ c.toNat≤57) ∧
      digits.foldl (fun v c => v*10+(digitValue 10 c).getD 0) value=n ∧ n<256 := by
  induction digits generalizing value with
  | nil =>
    cases h
    exact ⟨fun c hc => absurd hc List.not_mem_nil,rfl,hb⟩
  | cons c digits ih =>
    simp only [List.foldlM_cons,Option.bind_eq_bind,Option.bind_eq_some_iff] at h
    obtain ⟨v,hv,h⟩ := h
    unfold pushDigit at hv
    split_ifs at hv with hc hlt
    cases hv
    obtain ⟨hd,hf,hn⟩ := ih hlt h
    refine ⟨fun d hd' => ?_,?_,hn⟩
    · rcases List.mem_cons.mp hd' with rfl|hd'
      · exact hc
      · exact hd d hd'
    · rw [List.foldl_cons,digitValue_decimal hc]
      exact hf

/-- `parseInt` on decimal digits reads all of them. -/
theorem parseInt_body {digits : Text} (hne : digits≠[])
    (hd : ∀ c∈digits,48≤c.toNat ∧ c.toNat≤57) :
    (match digits with
      | '0':: 'x'::t => ((16,t) : ℕ×Text)
      | '0':: 'X'::t => (16,t)
      | t => (10,t))=(10,digits) := by
  split
  · exact absurd (hd 'x' (by simp)) (by decide)
  · exact absurd (hd 'X' (by simp)) (by decide)
  · rfl

/-- White space holds no decimal digit. -/
theorem jsWhitespace_digit {c : Char} (hc : 48≤c.toNat ∧ c.toNat≤57) : jsWhitespace c=false := by
  have h8 : ¬8192≤c.toNat := by omega
  simp only [jsWhitespace,List.mem_cons,List.not_mem_nil,or_false,h8,decide_false,
    Bool.false_and,Bool.or_false,decide_eq_false_iff_not]
  omega

/-- Digits that make a byte make the same number in `parseInt`. -/
theorem parseInt_digits {digits : Text} {v : ℕ} (h : digits.foldlM pushDigit 0=some v) :
    digits.takeWhile (fun c => (digitValue 10 c).isSome)=digits ∧
      digits.foldl (fun v c => v*10+(digitValue 10 c).getD 0) 0=v := by
  obtain ⟨hd,he,-⟩ := foldlM_pushDigit (by omega) h
  refine ⟨List.takeWhile_eq_self_iff.mpr fun c hc => ?_,he⟩
  rw [digitValue_decimal (hd c hc)]
  rfl

/-- Every type byte Rust accepts is the same number for `parseInt`. -/
theorem parseInt_of_parseU8 {s : Text} {n : UInt8} (h : parseU8 s=some n) :
    parseInt s=some (n.toNat : ℤ) := by
  have hval : ∀ v,v<256 → UInt8.ofNat v=n → v=n.toNat := by
    rintro v hv rfl
    exact (Base64.toNat_ofNat_small hv).symm
  cases s with
  | nil => cases h
  | cons c t =>
    by_cases hc : c= '+'
    · subst hc
      simp only [parseU8] at h
      split_ifs at h with hne
      obtain ⟨v,hf,hv⟩ := Option.map_eq_some_iff.mp h
      obtain ⟨hd,-,hlt⟩ := foldlM_pushDigit (by omega) hf
      obtain ⟨ht,hn⟩ := parseInt_digits hf
      have hw : ('+'::t).dropWhile jsWhitespace= '+'::t := List.dropWhile_cons_of_neg (by decide)
      simp only [parseInt,hw,parseInt_body hne hd,ht,if_neg hne,hn,Int.one_mul,hval v hlt hv]
    · have hf : ((c::t).foldlM pushDigit 0).map UInt8.ofNat=some n := by
        unfold parseU8 at h
        dsimp only at h
        split at h
        · rename_i he
          cases he
          exact absurd rfl hc
        · simpa only [List.cons_ne_nil,if_false] using h
      obtain ⟨v,hf,hv⟩ := Option.map_eq_some_iff.mp hf
      have hne : c::t≠[] := List.cons_ne_nil c t
      obtain ⟨hd,-,hlt⟩ := foldlM_pushDigit (by omega) hf
      have hcd := hd c List.mem_cons_self
      obtain ⟨ht,hn⟩ := parseInt_digits hf
      have hw : (c::t).dropWhile jsWhitespace=c::t :=
        List.dropWhile_cons_of_neg (by rw [jsWhitespace_digit hcd]; decide)
      have hs : (match c::t with
          | '-'::t => ((-1,t) : ℤ×Text)
          | '+'::t => (1,t)
          | t => (1,t))=(1,c::t) := by
        split
        · rename_i he
          cases he
          exact absurd hcd (by decide)
        · rename_i he
          cases he
          exact absurd rfl hc
        · rfl
      simp only [parseInt,hw]
      rw [hs]
      simp only [parseInt_body hne hd,ht,if_neg hne,hn,Int.one_mul,hval v hlt hv]

/-- JavaScript number to text, for the integers `parseInt` returns here. -/
def numberText : Option ℤ → Text
  | none => "NaN".toList
  | some n => (toString n).toList

/-- Rust `{}` formatting of an unsigned byte. -/
def u8Text (n : UInt8) : Text := Nat.toDigits 10 n.toNat

/-- `String.fromCharCode` of bytes: one Latin-1 character a byte. -/
def fromCharCode (bytes : Bytes) : Text := bytes.map fun b => Char.ofNat b.toNat

/-- `charCodeAt` of every character, stored into a byte array. -/
def charCodes (s : Text) : Bytes := s.map fun c => UInt8.ofNat c.toNat

/-- `btoa`: throws, written `none`, on a character beyond Latin-1. -/
def btoa (s : Text) : Option Text :=
  if s.all (fun c => c.toNat<256)=true then some (Base64.encode (charCodes s)) else none

/-- `atob`: forgiving decoding to a Latin-1 string, or a thrown error. -/
def atob (s : Text) : Option Text := (Base64.forgivingDecode s).map fromCharCode

/-- Every byte is a valid Latin-1 character code. -/
theorem toNat_fromCharCode (b : UInt8) : (Char.ofNat b.toNat).toNat=b.toNat := by
  have hb := b.toNat_lt
  have hvalid : b.toNat.isValidChar := .inl (by omega)
  have hchar : Char.ofNat b.toNat=Char.ofNatAux b.toNat hvalid := dif_pos hvalid
  rw [hchar]
  rfl

/-- Bytes survive the trip through a Latin-1 string. -/
theorem charCodes_fromCharCode (bytes : Bytes) : charCodes (fromCharCode bytes)=bytes := by
  induction bytes with
  | nil => rfl
  | cons b bytes ih =>
    simp only [charCodes,fromCharCode,List.map_cons,toNat_fromCharCode,UInt8.ofNat_toNat] at ih ⊢
    rw [ih]

/-- `btoa` never throws on a Latin-1 string built from bytes. -/
theorem btoa_fromCharCode (bytes : Bytes) :
    btoa (fromCharCode bytes)=some (Base64.encode bytes) := by
  have h : (fromCharCode bytes).all (fun c => c.toNat<256)=true := by
    rw [List.all_eq_true]
    intro c hc
    obtain ⟨b,-,rfl⟩ := List.mem_map.mp hc
    rw [toNat_fromCharCode]
    exact decide_eq_true b.toNat_lt
  rw [btoa,if_pos h,charCodes_fromCharCode]

end NadSafe.HostText
