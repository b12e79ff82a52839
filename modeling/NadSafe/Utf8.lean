import Mathlib.Data.Nat.Notation
import Mathlib.Tactic.Common

/-!
# The UTF-8 decoder of the WHATWG Encoding standard

The decoder is a state machine over single bytes. A byte that cannot
continue a sequence ends it with U+FFFD and is then handled as a first byte,
and so does the end of the input. With default options the decoder drops a
byte order mark that comes out first. Encoding is the standard library's.
-/

namespace NadSafe.Utf8

/-- U+FFFD, which stands for every ill-formed sequence. -/
def replacement : Char := Char.ofNat 0xFFFD

/-- U+FEFF. -/
def byteOrderMark : Char := Char.ofNat 0xFEFF

/-- A sequence that still needs continuation bytes. -/
structure Pending where
  /-- Continuation bytes still needed. -/
  needed : ℕ
  /-- The bits read so far. -/
  codePoint : ℕ
  /-- Least byte that may come next. -/
  lower : ℕ
  /-- Greatest byte that may come next. -/
  upper : ℕ

/-- A first byte: what it emits and the sequence it starts. The bounds after
0xE0, 0xED, 0xF0 and 0xF4 exclude overlong forms, surrogates and values
beyond U+10FFFF. -/
def lead (b : ℕ) : List Char×Option Pending :=
  if b≤0x7F then ([Char.ofNat b],none)
  else if 0xC2≤b ∧ b≤0xDF then ([],some ⟨1,b%0x20,0x80,0xBF⟩)
  else if 0xE0≤b ∧ b≤0xEF then
    ([],some ⟨2,b%0x10,if b=0xE0 then 0xA0 else 0x80,if b=0xED then 0x9F else 0xBF⟩)
  else if 0xF0≤b ∧ b≤0xF4 then
    ([],some ⟨3,b%0x08,if b=0xF0 then 0x90 else 0x80,if b=0xF4 then 0x8F else 0xBF⟩)
  else ([replacement],none)

/-- One byte in a state. A byte out of bounds is handled again as a first
byte, after the replacement of the broken sequence. -/
def handle : Option Pending → ℕ → List Char×Option Pending
  | none,b => lead b
  | some p,b =>
    if p.lower≤b ∧ b≤p.upper then
      if p.needed=1 then ([Char.ofNat (p.codePoint*64+b%64)],none)
      else ([],some ⟨p.needed-1,p.codePoint*64+b%64,0x80,0xBF⟩)
    else (replacement::(lead b).1,(lead b).2)

/-- The decoder from a state to the end of the input. -/
def decodeFrom : Option Pending → List UInt8 → List Char
  | none,[] => []
  | some _,[] => [replacement]
  | state,b::bytes => (handle state b.toNat).1++decodeFrom (handle state b.toNat).2 bytes

/-- Drop a byte order mark in front, once. -/
def dropMark : List Char → List Char
  | [] => []
  | c::text => if c=byteOrderMark then text else c::text

/-- `TextDecoder.decode` with default options, on a whole input. -/
def textDecode (bytes : List UInt8) : List Char := dropMark (decodeFrom none bytes)

/-- A step of the decoder on one byte written as a number. -/
theorem decodeFrom_cons (state : Option Pending) {n : ℕ} (hn : n<256) (bytes : List UInt8) :
    decodeFrom state (UInt8.ofNat n::bytes)=
      (handle state n).1++decodeFrom (handle state n).2 bytes := by
  have hb : (UInt8.ofNat n).toNat=n := by
    rw [UInt8.toNat_ofNat']
    exact Nat.mod_eq_of_lt hn
  cases state <;> simp only [decodeFrom,hb]

/-- A first byte that starts a sequence. -/
theorem decodeFrom_lead {p : Pending} {n : ℕ} (hn : n<256) (hlead : lead n=([],some p))
    (bytes : List UInt8) : decodeFrom none (UInt8.ofNat n::bytes)=decodeFrom (some p) bytes := by
  rw [decodeFrom_cons none hn,handle,hlead]
  rfl

/-- A continuation byte that another one follows. -/
theorem decodeFrom_more {p : Pending} {n : ℕ} (hlow : p.lower≤n) (hup : n≤p.upper) (hn : n<256)
    (hneeded : p.needed≠1) (bytes : List UInt8) :
    decodeFrom (some p) (UInt8.ofNat n::bytes)=
      decodeFrom (some ⟨p.needed-1,p.codePoint*64+n%64,0x80,0xBF⟩) bytes := by
  rw [decodeFrom_cons _ hn,handle,if_pos ⟨hlow,hup⟩,if_neg hneeded]
  rfl

/-- The last continuation byte. -/
theorem decodeFrom_last {p : Pending} {n : ℕ} (hlow : p.lower≤n) (hup : n≤p.upper) (hn : n<256)
    (hneeded : p.needed=1) (bytes : List UInt8) :
    decodeFrom (some p) (UInt8.ofNat n::bytes)=
      Char.ofNat (p.codePoint*64+n%64)::decodeFrom none bytes := by
  rw [decodeFrom_cons _ hn,handle,if_pos ⟨hlow,hup⟩,if_pos hneeded]
  rfl

/-- The code point of a scalar value is no surrogate. -/
theorem scalar_range (c : Char) : c.toNat<0xD800 ∨ 0xDFFF<c.toNat ∧ c.toNat<0x110000 := c.valid

/-- A first byte of two. -/
theorem lead_two {v : ℕ} (hlow : 0x7F<v) (hup : v≤0x7FF) :
    lead (v/64%0x20+0xC0)=([],some ⟨1,v/64,0x80,0xBF⟩) := by
  have hbits : (v/64%0x20+0xC0)%0x20=v/64 := by omega
  rw [lead,if_neg (by omega),if_pos (by omega),hbits]

/-- A first byte of three. -/
theorem lead_three {v : ℕ} (hup : v≤0xFFFF) :
    lead (v/4096%0x10+0xE0)=([],some ⟨2,v/4096,if v/4096=0 then 0xA0 else 0x80,
      if v/4096=13 then 0x9F else 0xBF⟩) := by
  have hbits : (v/4096%0x10+0xE0)%0x10=v/4096 := by omega
  have hmin : v/4096%0x10+0xE0=0xE0 ↔ v/4096=0 := by omega
  have hmax : v/4096%0x10+0xE0=0xED ↔ v/4096=13 := by omega
  rw [lead,if_neg (by omega),if_neg (by omega),if_pos (by omega),hbits]
  simp only [hmin,hmax]

/-- A first byte of four. -/
theorem lead_four {v : ℕ} (hup : v<0x110000) :
    lead (v/262144%0x08+0xF0)=([],some ⟨3,v/262144,if v/262144=0 then 0x90 else 0x80,
      if v/262144=4 then 0x8F else 0xBF⟩) := by
  have hbits : (v/262144%0x08+0xF0)%0x08=v/262144 := by omega
  have hmin : v/262144%0x08+0xF0=0xF0 ↔ v/262144=0 := by omega
  have hmax : v/262144%0x08+0xF0=0xF4 ↔ v/262144=4 := by omega
  rw [lead,if_neg (by omega),if_neg (by omega),if_neg (by omega),if_pos (by omega),hbits]
  simp only [hmin,hmax]

/-- Two bytes of one scalar value. -/
theorem decodeFrom_two {v : ℕ} (hlow : 0x7F<v) (hup : v≤0x7FF) (bytes : List UInt8) :
    decodeFrom none (UInt8.ofNat (v/64%0x20+0xC0)::UInt8.ofNat (v%0x40+0x80)::bytes)=
      Char.ofNat v::decodeFrom none bytes := by
  have hbits : v/64*64+(v%0x40+0x80)%64=v := by omega
  rw [decodeFrom_lead (by omega) (lead_two hlow hup),
    decodeFrom_last (by dsimp only; omega) (by dsimp only; omega) (by omega) rfl,hbits]

/-- Three bytes of one scalar value. -/
theorem decodeFrom_three {v : ℕ} (hlow : 0x7FF<v) (hup : v≤0xFFFF)
    (hscalar : v<0xD800 ∨ 0xDFFF<v) (bytes : List UInt8) :
    decodeFrom none (UInt8.ofNat (v/4096%0x10+0xE0)::UInt8.ofNat (v/64%0x40+0x80)::
      UInt8.ofNat (v%0x40+0x80)::bytes)=Char.ofNat v::decodeFrom none bytes := by
  have hbits : (v/4096*64+(v/64%0x40+0x80)%64)*64+(v%0x40+0x80)%64=v := by omega
  have hfirst : (if v/4096=0 then 0xA0 else 0x80)≤v/64%0x40+0x80 := by
    split_ifs <;> omega
  have hsecond : v/64%0x40+0x80≤(if v/4096=13 then 0x9F else 0xBF) := by
    split_ifs <;> omega
  rw [decodeFrom_lead (by omega) (lead_three hup),
    decodeFrom_more hfirst hsecond (by omega) (by dsimp only; omega),
    decodeFrom_last (by dsimp only; omega) (by dsimp only; omega) (by omega) rfl,hbits]

/-- Four bytes of one scalar value. -/
theorem decodeFrom_four {v : ℕ} (hlow : 0xFFFF<v) (hup : v<0x110000) (bytes : List UInt8) :
    decodeFrom none (UInt8.ofNat (v/262144%0x08+0xF0)::UInt8.ofNat (v/4096%0x40+0x80)::
      UInt8.ofNat (v/64%0x40+0x80)::UInt8.ofNat (v%0x40+0x80)::bytes)=
        Char.ofNat v::decodeFrom none bytes := by
  have hbits : ((v/262144*64+(v/4096%0x40+0x80)%64)*64+(v/64%0x40+0x80)%64)*64+(v%0x40+0x80)%64=v := by
    omega
  have hfirst : (if v/262144=0 then 0x90 else 0x80)≤v/4096%0x40+0x80 := by
    split_ifs <;> omega
  have hsecond : v/4096%0x40+0x80≤(if v/262144=4 then 0x8F else 0xBF) := by
    split_ifs <;> omega
  rw [decodeFrom_lead (by omega) (lead_four hup),
    decodeFrom_more hfirst hsecond (by omega) (by dsimp only; omega),
    decodeFrom_more (by dsimp only; omega) (by dsimp only; omega) (by omega) (by dsimp only; omega),
    decodeFrom_last (by dsimp only; omega) (by dsimp only; omega) (by omega) rfl,hbits]

/-- The decoder reads back every encoded scalar value. -/
theorem decodeFrom_encodeChar (c : Char) (bytes : List UInt8) :
    decodeFrom none (String.utf8EncodeChar c++bytes)=c::decodeFrom none bytes := by
  have hrange := scalar_range c
  have hchar : Char.ofNat c.toNat=c := Char.ofNat_toNat c
  -- The encoder's cases, on the code point as a number.
  change decodeFrom none ((if c.toNat≤0x7F then [UInt8.ofNat c.toNat]
    else if c.toNat≤0x7FF then [UInt8.ofNat (c.toNat/64%0x20+0xC0),UInt8.ofNat (c.toNat%0x40+0x80)]
    else if c.toNat≤0xFFFF then [UInt8.ofNat (c.toNat/4096%0x10+0xE0),
      UInt8.ofNat (c.toNat/64%0x40+0x80),UInt8.ofNat (c.toNat%0x40+0x80)]
    else [UInt8.ofNat (c.toNat/262144%0x08+0xF0),UInt8.ofNat (c.toNat/4096%0x40+0x80),
      UInt8.ofNat (c.toNat/64%0x40+0x80),UInt8.ofNat (c.toNat%0x40+0x80)])++bytes)=_
  generalize c.toNat=v at hrange hchar ⊢
  rw [←hchar]
  split_ifs with hone htwo hthree
  · rw [List.singleton_append,decodeFrom_cons none (by omega),handle,lead,if_pos hone]
    rfl
  · exact decodeFrom_two (by omega) htwo bytes
  · exact decodeFrom_three (by omega) hthree (by omega) bytes
  · exact decodeFrom_four (by omega) (by omega) bytes

/-- The decoder reads back every encoded text. -/
theorem decodeFrom_encode (text : List Char) :
    decodeFrom none (text.flatMap String.utf8EncodeChar)=text := by
  induction text with
  | nil => rfl
  | cons c text ih => rw [List.flatMap_cons,decodeFrom_encodeChar,ih]

/-- With default options a text comes back without a mark in front. -/
theorem textDecode_encode (text : List Char) :
    textDecode (text.flatMap String.utf8EncodeChar)=dropMark text := by
  rw [textDecode,decodeFrom_encode]

/-- Nothing is dropped exactly when no mark stands in front. -/
theorem dropMark_eq_self_iff (text : List Char) :
    dropMark text=text ↔ text.head?≠some byteOrderMark := by
  cases text with
  | nil => simp [dropMark]
  | cons c text =>
    rw [dropMark,List.head?_cons,Ne,Option.some.injEq]
    split_ifs with hmark
    · simp [hmark]
    · simpa using hmark

end NadSafe.Utf8
