import NadSafe.BitGroups

/-!
# Base32 of RFC 4648

Bytes are read in groups of five, as 40 bits from left to right, and each five
bits make a character of the alphabet. Zero bits are added to a last group
that is shorter, and `=` fills it up to eight characters.
-/

namespace NadSafe.Base32

open BitGroups

/-- The alphabet. -/
def alphabet : List Char := "ABCDEFGHIJKLMNOPQRSTUVWXYZ234567".toList

/-- The character of a five-bit value. -/
def symbol (n : ℕ) : Char := alphabet.getD n '='

/-- The five-bit value of a character. -/
def symbolValue (c : Char) : Option ℕ := alphabet.idxOf? c

theorem symbolValue_symbol : ∀ n,n<32 → symbolValue (symbol n)=some n := by decide

/-- The alphabet has no other characters. -/
theorem exists_symbol {c : Char} (hc : c∈alphabet) : ∃ n,n<32 ∧ symbol n=c := by
  obtain ⟨n,hn,rfl⟩ := List.mem_iff_getElem.mp hc
  refine ⟨n,hn,?_⟩
  rw [symbol,List.getD_eq_getElem?_getD,List.getElem?_eq_getElem hn]
  rfl

/-- Alphabet values are five-bit. -/
theorem symbolValue_lt {c : Char} {n : ℕ} (h : symbolValue c=some n) : n<32 := by
  rw [symbolValue,List.idxOf?,List.findIdx?_eq_some_iff_getElem] at h
  exact h.choose

/-- The characters of the alphabet are unaccented capitals and digits. -/
theorem symbol_ascii : ∀ n,n<32 → (symbol n).toNat<128 ∧ (symbol n).toUpper=symbol n ∧ symbol n≠ '=' := by decide

/-- The number of bytes. -/
def number (bytes : List UInt8) : ℕ := value 256 (bytes.map UInt8.toNat)

/-- The five-bit values of one group. -/
def groupDigits (group : List UInt8) : List ℕ :=
  let m := (8*group.length+4)/5
  digits 32 m (number group*2^(5*m-8*group.length))

/-- The five-bit values of all groups. -/
def encodeDigits : List UInt8 → List ℕ
  | a::b::c::d::e::rest => groupDigits [a,b,c,d,e]++encodeDigits rest
  | group => groupDigits group

/-- Encoding without padding. -/
def encodeUnpadded (bytes : List UInt8) : List Char := (encodeDigits bytes).map symbol

/-- Encoding, with the padding that fills up the last group. -/
def encode (bytes : List UInt8) : List Char :=
  let text := encodeUnpadded bytes
  text++List.replicate ((8-text.length%8)%8) '='

/-- Five-bit values that hold the bits of bytes, with less than a byte of zero
bits behind them. -/
structure Holds (ds : List ℕ) (bytes : List UInt8) (pad : ℕ) : Prop where
  /-- The zero bits. -/
  short : pad<8
  /-- No bit is lost. -/
  length : 5*ds.length=8*bytes.length+pad
  /-- The bits. -/
  number : value 32 ds=number bytes*2^pad
  /-- Values have five bits. -/
  small : ∀ d∈ds,d<32

theorem bytes_small (bytes : List UInt8) : ∀ k∈bytes.map UInt8.toNat,k<256 := by
  intro k hk
  obtain ⟨b,-,rfl⟩ := List.mem_map.mp hk
  exact b.toNat_lt

theorem number_lt (bytes : List UInt8) : number bytes<256^bytes.length := by
  have hlt := Nat.ofDigits_lt_base_pow_length (b:=256) (l:=(bytes.map UInt8.toNat).reverse) (by decide)
    fun x hx => bytes_small bytes x (List.mem_reverse.mp hx)
  rwa [List.length_reverse,List.length_map] at hlt

theorem pow_bytes (n : ℕ) : 256^n=2^(8*n) := by
  rw [pow_mul]
  rfl

theorem pow_digits (n : ℕ) : 32^n=2^(5*n) := by
  rw [pow_mul]
  rfl

/-- One group. -/
theorem holds_group (group : List UInt8) :
    Holds (groupDigits group) group (5*((8*group.length+4)/5)-8*group.length) where
  short := by omega
  length := by
    rw [groupDigits,length_digits]
    omega
  number := by
    refine value_digits ?_
    have hsplit : 5*((8*group.length+4)/5)=8*group.length+(5*((8*group.length+4)/5)-8*group.length) := by omega
    calc
      number group*2^(5*((8*group.length+4)/5)-8*group.length)<
          256^group.length*2^(5*((8*group.length+4)/5)-8*group.length) :=
        Nat.mul_lt_mul_of_pos_right (number_lt group) (by positivity)
      _=2^(8*group.length)*2^(5*((8*group.length+4)/5)-8*group.length) := by rw [pow_bytes]
      _=2^(5*((8*group.length+4)/5)) := by rw [← pow_add,← hsplit]
      _=32^((8*group.length+4)/5) := by rw [pow_digits]
  small := fun d hd => lt_of_mem_digits (by decide) hd

/-- Five bytes need no zero bits. -/
theorem holds_whole {group : List UInt8} (hlength : group.length=5) : Holds (groupDigits group) group 0 := by
  have hgroup := holds_group group
  rwa [hlength] at hgroup

/-- A whole group in front. -/
theorem Holds.append {front back : List UInt8} {xs ys : List ℕ} {pad : ℕ} (hfront : Holds xs front 0)
    (hback : Holds ys back pad) : Holds (xs++ys) (front++back) pad where
  short := hback.short
  length := by
    have hx := hfront.length
    have hy := hback.length
    rw [List.length_append,List.length_append]
    omega
  number := by
    have hpow : 32^ys.length=256^back.length*2^pad := by
      rw [pow_digits,hback.length,pow_add,pow_bytes]
    have hbytes : Base32.number (front++back)=Base32.number front*256^back.length+Base32.number back := by
      rw [Base32.number,List.map_append,value_append,List.length_map]
      rfl
    rw [value_append,hfront.number,hback.number,hpow,hbytes]
    ring
  small := fun d hd => (List.mem_append.mp hd).elim (hfront.small d) (hback.small d)

/-- All groups. -/
theorem holds_encodeDigits (bytes : List UInt8) : ∃ pad,Holds (encodeDigits bytes) bytes pad := by
  fun_induction encodeDigits bytes with
  | case1 a b c d e rest ih =>
    obtain ⟨pad,hrest⟩ := ih
    exact ⟨pad,Holds.append (holds_whole rfl) hrest⟩
  | case2 group _ => exact ⟨_,holds_group group⟩

/-- A regrouping of the values gives the bytes back. -/
theorem regroup_encodeDigits {bytes : List UInt8} {r : Regroup} (h : Regrouped 5 8 (encodeDigits bytes) r) :
    r.out=bytes.map UInt8.toNat := by
  obtain ⟨pad,hholds⟩ := holds_encodeDigits bytes
  refine h.out_eq (by decide) hholds.short (bytes_small bytes) ?_ hholds.number
  rw [List.length_map]
  exact hholds.length

/-- The example of the RFC with the longest padding but one. -/
example : encode [102,111]="MZXQ====".toList := by decide

end NadSafe.Base32
