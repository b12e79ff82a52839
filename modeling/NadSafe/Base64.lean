import Mathlib.Data.List.Basic
import Mathlib.Tactic.Common

/-!
# Base64 over byte lists: canonical and forgiving decoding

Encoding and the canonical decoder follow RFC 4648 with required padding and
zero trailing bits. The forgiving decoder follows the WHATWG text: it drops
ASCII whitespace, accepts missing padding and discards trailing bits. The
canonical decoder accepts exactly the encodings, so every accepted text is
determined by its bytes, and the forgiving decoder agrees with it there.
-/

namespace NadSafe.Base64

/-- The alphabet character of a six-bit value. -/
def symbol (n : ℕ) : Char :=
  if n<26 then Char.ofNat (n+65)
  else if n<52 then Char.ofNat (n+71)
  else if n<62 then Char.ofNat (n-4)
  else if n=62 then '+'
  else '/'

/-- The six-bit value of an alphabet character. -/
def symbolValue (c : Char) : Option ℕ :=
  if 65≤c.toNat ∧ c.toNat≤90 then some (c.toNat-65)
  else if 97≤c.toNat ∧ c.toNat≤122 then some (c.toNat-71)
  else if 48≤c.toNat ∧ c.toNat≤57 then some (c.toNat+4)
  else if c= '+' then some 62
  else if c= '/' then some 63
  else none

/-- Alphabet values are six-bit. -/
theorem symbolValue_lt {c : Char} {n : ℕ} (h : symbolValue c=some n) : n<64 := by
  unfold symbolValue at h
  split_ifs at h <;> cases h <;> omega

/-- The alphabet is a bijection onto the six-bit values. -/
theorem symbolValue_symbol : ∀ n,n<64 → symbolValue (symbol n)=some n := by decide

/-- A character is the alphabet entry of its own value. -/
theorem symbol_of_value {c : Char} {n : ℕ} (h : symbolValue c=some n) : symbol n=c := by
  have hc : Char.ofNat c.toNat=c := Char.ofNat_toNat c
  unfold symbolValue at h
  split_ifs at h with h1 h2 h3 h4 h5 <;> cases h
  · rw [symbol,if_pos (by omega),Nat.sub_add_cancel h1.1,hc]
  · rw [symbol,if_neg (by omega),if_pos (by omega),Nat.sub_add_cancel (by omega),hc]
  · rw [symbol,if_neg (by omega),if_neg (by omega),if_pos (by omega),Nat.add_sub_cancel,hc]
  · exact h4.symm
  · exact h5.symm

/-- Encoding, three bytes to four characters, with required padding. -/
def encode : List UInt8 → List Char
  | [] => []
  | [a] => [symbol (a.toNat/4),symbol (a.toNat%4*16),'=','=']
  | [a,b] => [symbol (a.toNat/4),symbol (a.toNat%4*16+b.toNat/16),symbol (b.toNat%16*4),'=']
  | a::b::c::rest =>
    symbol (a.toNat/4)::symbol (a.toNat%4*16+b.toNat/16)::
      symbol (b.toNat%16*4+c.toNat/64)::symbol (c.toNat%64)::encode rest

/-- Three bytes from four alphabet characters. -/
def quantum (w x y z : Char) : Option (List UInt8) := do
  let w ← symbolValue w
  let x ← symbolValue x
  let y ← symbolValue y
  let z ← symbolValue z
  some [UInt8.ofNat (w*4+x/16),UInt8.ofNat (x%16*16+y/4),UInt8.ofNat (y%4*64+z)]

/-- Two bytes from three characters; `strict` requires zero trailing bits. -/
def shortQuantum (strict : Bool) (w x y : Char) : Option (List UInt8) := do
  let w ← symbolValue w
  let x ← symbolValue x
  let y ← symbolValue y
  if strict=true ∧ y%4≠0 then none
  else some [UInt8.ofNat (w*4+x/16),UInt8.ofNat (x%16*16+y/4)]

/-- One byte from two characters; `strict` requires zero trailing bits. -/
def shortestQuantum (strict : Bool) (w x : Char) : Option (List UInt8) := do
  let w ← symbolValue w
  let x ← symbolValue x
  if strict=true ∧ x%16≠0 then none
  else some [UInt8.ofNat (w*4+x/16)]

/-- Canonical decoding. Padding is accepted in the last four characters only;
everywhere else it is outside the alphabet. -/
def decode : List Char → Option (List UInt8)
  | [] => some []
  | [w,x,y,z] =>
    if z= '=' then
      if y= '=' then shortestQuantum true w x else shortQuantum true w x y
    else quantum w x y z
  | w::x::y::z::rest => do
    let head ← quantum w x y z
    let tail ← decode rest
    some (head++tail)
  | _ => none

/-- Decoding without padding, discarding trailing bits. -/
def decodeUnpadded : List Char → Option (List UInt8)
  | [] => some []
  | [_] => none
  | [w,x] => shortestQuantum false w x
  | [w,x,y] => shortQuantum false w x y
  | w::x::y::z::rest => do
    let head ← quantum w x y z
    let tail ← decodeUnpadded rest
    some (head++tail)

/-- ASCII whitespace: tab, line feed, form feed, carriage return, space. -/
def asciiWhitespace (c : Char) : Bool :=
  c.toNat=9 || c.toNat=10 || c.toNat=12 || c.toNat=13 || c.toNat=32

/-- At most two trailing padding characters are removed. -/
def stripPadding (s : List Char) : List Char :=
  match s.reverse with
  | '=':: '='::rest => rest.reverse
  | '='::rest => rest.reverse
  | _ => s

/-- Forgiving decoding: whitespace is dropped first, and padding only when
the remaining length is a multiple of four. -/
def forgivingDecode (s : List Char) : Option (List UInt8) :=
  let data := s.filter fun c => !asciiWhitespace c
  decodeUnpadded (if data.length%4=0 then stripPadding data else data)

/-- One full group survives encoding and decoding. -/
theorem quantum_symbols (a b c : UInt8) :
    quantum (symbol (a.toNat/4)) (symbol (a.toNat%4*16+b.toNat/16))
      (symbol (b.toNat%16*4+c.toNat/64)) (symbol (c.toNat%64))=some [a,b,c] := by
  have ha := a.toNat_lt
  have hb := b.toNat_lt
  have hc := c.toNat_lt
  simp only [quantum,symbolValue_symbol _ (show a.toNat/4<64 by omega),
    symbolValue_symbol _ (show a.toNat%4*16+b.toNat/16<64 by omega),
    symbolValue_symbol _ (show b.toNat%16*4+c.toNat/64<64 by omega),
    symbolValue_symbol _ (show c.toNat%64<64 by omega),Option.bind_eq_bind,Option.bind_some]
  have h0 : a.toNat/4*4+(a.toNat%4*16+b.toNat/16)/16=a.toNat := by omega
  have h1 : (a.toNat%4*16+b.toNat/16)%16*16+(b.toNat%16*4+c.toNat/64)/4=b.toNat := by omega
  have h2 : (b.toNat%16*4+c.toNat/64)%4*64+c.toNat%64=c.toNat := by omega
  rw [h0,h1,h2,UInt8.ofNat_toNat,UInt8.ofNat_toNat,UInt8.ofNat_toNat]

/-- Two final bytes survive, in both decoders. -/
theorem shortQuantum_symbols (strict : Bool) (a b : UInt8) :
    shortQuantum strict (symbol (a.toNat/4)) (symbol (a.toNat%4*16+b.toNat/16))
      (symbol (b.toNat%16*4))=some [a,b] := by
  have ha := a.toNat_lt
  have hb := b.toNat_lt
  simp only [shortQuantum,symbolValue_symbol _ (show a.toNat/4<64 by omega),
    symbolValue_symbol _ (show a.toNat%4*16+b.toNat/16<64 by omega),
    symbolValue_symbol _ (show b.toNat%16*4<64 by omega),Option.bind_eq_bind,Option.bind_some]
  have h0 : a.toNat/4*4+(a.toNat%4*16+b.toNat/16)/16=a.toNat := by omega
  have h1 : (a.toNat%4*16+b.toNat/16)%16*16+b.toNat%16*4/4=b.toNat := by omega
  rw [if_neg (by omega),h0,h1,UInt8.ofNat_toNat,UInt8.ofNat_toNat]

/-- One final byte survives, in both decoders. -/
theorem shortestQuantum_symbols (strict : Bool) (a : UInt8) :
    shortestQuantum strict (symbol (a.toNat/4)) (symbol (a.toNat%4*16))=some [a] := by
  have ha := a.toNat_lt
  simp only [shortestQuantum,symbolValue_symbol _ (show a.toNat/4<64 by omega),
    symbolValue_symbol _ (show a.toNat%4*16<64 by omega),Option.bind_eq_bind,Option.bind_some]
  have h0 : a.toNat/4*4+a.toNat%4*16/16=a.toNat := by omega
  rw [if_neg (by omega),h0,UInt8.ofNat_toNat]

/-- Alphabet characters of six-bit values are neither padding nor whitespace. -/
theorem symbol_plain : ∀ n,n<64 → symbol n≠ '=' ∧ asciiWhitespace (symbol n)=false := by decide

/-- Canonical decoding undoes encoding. -/
theorem decode_encode (bytes : List UInt8) : decode (encode bytes)=some bytes := by
  induction bytes using encode.induct with
  | case1 => rfl
  | case2 a => simp only [encode,decode,if_true,shortestQuantum_symbols]
  | case3 a b =>
    have hb := b.toNat_lt
    have hs := (symbol_plain (b.toNat%16*4) (by omega)).1
    simp only [encode,decode,if_true,if_neg hs,shortQuantum_symbols]
  | case4 a b c rest ih =>
    have hs := (symbol_plain (c.toNat%64) (by omega)).1
    cases rest with
    | nil => simp only [encode,decode,if_neg hs,quantum_symbols]
    | cons d rest =>
      rw [encode,decode,quantum_symbols,ih]
      · rfl
      · intro h
        cases rest with
        | nil => cases h
        | cons e rest => cases rest <;> cases h

/-- Bytes of six-bit combinations keep their natural value. -/
theorem toNat_ofNat_small {n : ℕ} (h : n<256) : (UInt8.ofNat n).toNat=n := by
  rw [UInt8.toNat_ofNat',Nat.mod_eq_of_lt h]

/-- A decoded full group was the encoding of its three bytes. -/
theorem quantum_inverse {w x y z : Char} {bytes : List UInt8}
    (h : quantum w x y z=some bytes) :
    ∃ a b c,bytes=[a,b,c] ∧ w=symbol (a.toNat/4) ∧ x=symbol (a.toNat%4*16+b.toNat/16) ∧
      y=symbol (b.toNat%16*4+c.toNat/64) ∧ z=symbol (c.toNat%64) := by
  simp only [quantum,Option.bind_eq_bind,Option.bind_eq_some_iff,Option.some.injEq] at h
  obtain ⟨w',hw,x',hx,y',hy,z',hz,rfl⟩ := h
  have hwl := symbolValue_lt hw
  have hxl := symbolValue_lt hx
  have hyl := symbolValue_lt hy
  have hzl := symbolValue_lt hz
  have h0 := toNat_ofNat_small (show w'*4+x'/16<256 by omega)
  have h1 := toNat_ofNat_small (show x'%16*16+y'/4<256 by omega)
  have h2 := toNat_ofNat_small (show y'%4*64+z'<256 by omega)
  refine ⟨_,_,_,rfl,?_,?_,?_,?_⟩
  · rw [h0,show (w'*4+x'/16)/4=w' by omega,symbol_of_value hw]
  · rw [h0,h1,show (w'*4+x'/16)%4*16+(x'%16*16+y'/4)/16=x' by omega,symbol_of_value hx]
  · rw [h1,h2,show (x'%16*16+y'/4)%16*4+(y'%4*64+z')/64=y' by omega,symbol_of_value hy]
  · rw [h2,show (y'%4*64+z')%64=z' by omega,symbol_of_value hz]

/-- Zero trailing bits make a three-character tail canonical. -/
theorem shortQuantum_inverse {w x y : Char} {bytes : List UInt8}
    (h : shortQuantum true w x y=some bytes) :
    ∃ a b,bytes=[a,b] ∧ w=symbol (a.toNat/4) ∧ x=symbol (a.toNat%4*16+b.toNat/16) ∧
      y=symbol (b.toNat%16*4) := by
  simp only [shortQuantum,Option.bind_eq_bind,Option.bind_eq_some_iff,true_and] at h
  obtain ⟨w',hw,x',hx,y',hy,h⟩ := h
  split at h
  · cases h
  · rename_i hzero
    cases h
    have hwl := symbolValue_lt hw
    have hxl := symbolValue_lt hx
    have hyl := symbolValue_lt hy
    have h0 := toNat_ofNat_small (show w'*4+x'/16<256 by omega)
    have h1 := toNat_ofNat_small (show x'%16*16+y'/4<256 by omega)
    refine ⟨_,_,rfl,?_,?_,?_⟩
    · rw [h0,show (w'*4+x'/16)/4=w' by omega,symbol_of_value hw]
    · rw [h0,h1,show (w'*4+x'/16)%4*16+(x'%16*16+y'/4)/16=x' by omega,symbol_of_value hx]
    · rw [h1,show (x'%16*16+y'/4)%16*4=y' by omega,symbol_of_value hy]

/-- Zero trailing bits make a two-character tail canonical. -/
theorem shortestQuantum_inverse {w x : Char} {bytes : List UInt8}
    (h : shortestQuantum true w x=some bytes) :
    ∃ a,bytes=[a] ∧ w=symbol (a.toNat/4) ∧ x=symbol (a.toNat%4*16) := by
  simp only [shortestQuantum,Option.bind_eq_bind,Option.bind_eq_some_iff,true_and] at h
  obtain ⟨w',hw,x',hx,h⟩ := h
  split at h
  · cases h
  · rename_i hzero
    cases h
    have hwl := symbolValue_lt hw
    have hxl := symbolValue_lt hx
    have h0 := toNat_ofNat_small (show w'*4+x'/16<256 by omega)
    refine ⟨_,rfl,?_,?_⟩
    · rw [h0,show (w'*4+x'/16)/4=w' by omega,symbol_of_value hw]
    · rw [h0,show (w'*4+x'/16)%4*16=x' by omega,symbol_of_value hx]

/-- The canonical decoder accepts exactly the encodings. -/
theorem decode_eq_some_iff {s : List Char} {bytes : List UInt8} :
    decode s=some bytes ↔ s=encode bytes := by
  refine ⟨fun h => ?_,fun h => h ▸ decode_encode bytes⟩
  induction s using decode.induct generalizing bytes with
  | case1 =>
    cases h
    rfl
  | case2 w x =>
    obtain ⟨a,rfl,rfl,rfl⟩ := shortestQuantum_inverse (by simpa only [decode,if_true] using h)
    rfl
  | case3 w x y hy =>
    obtain ⟨a,b,rfl,rfl,rfl,rfl⟩ :=
      shortQuantum_inverse (by simpa only [decode,if_true,if_neg hy] using h)
    rfl
  | case4 w x y z hz =>
    obtain ⟨a,b,c,rfl,rfl,rfl,rfl,rfl⟩ :=
      quantum_inverse (by simpa only [decode,if_neg hz] using h)
    rfl
  | case5 w x y z rest hrest ih =>
    rw [decode] at h
    · simp only [Option.bind_eq_bind,Option.bind_eq_some_iff,Option.some.injEq] at h
      obtain ⟨head,hhead,tail,htail,rfl⟩ := h
      obtain ⟨a,b,c,rfl,rfl,rfl,rfl,rfl⟩ := quantum_inverse hhead
      rw [ih htail]
      rfl
    · exact hrest
  | case6 s h1 h2 h3 => simp [decode] at h

/-- Encoding fills whole groups of four characters. -/
theorem length_encode (bytes : List UInt8) : (encode bytes).length%4=0 := by
  induction bytes using encode.induct with
  | case1 => rfl
  | case2 a => simp only [encode,List.length_cons,List.length_nil]
  | case3 a b => simp only [encode,List.length_cons,List.length_nil]
  | case4 a b c rest ih =>
    simp only [encode,List.length_cons]
    omega

/-- An encoding without its padding. -/
def encodeUnpadded : List UInt8 → List Char
  | [] => []
  | [a] => [symbol (a.toNat/4),symbol (a.toNat%4*16)]
  | [a,b] => [symbol (a.toNat/4),symbol (a.toNat%4*16+b.toNat/16),symbol (b.toNat%16*4)]
  | a::b::c::rest =>
    symbol (a.toNat/4)::symbol (a.toNat%4*16+b.toNat/16)::
      symbol (b.toNat%16*4+c.toNat/64)::symbol (c.toNat%64)::encodeUnpadded rest

/-- Padding only extends the unpadded text, by at most two characters. -/
theorem encode_eq_unpadded (bytes : List UInt8) :
    ∃ k,k≤2 ∧ encode bytes=encodeUnpadded bytes++List.replicate k '=' := by
  induction bytes using encode.induct with
  | case1 => exact ⟨0,by omega,rfl⟩
  | case2 a => exact ⟨2,by omega,rfl⟩
  | case3 a b => exact ⟨1,by omega,rfl⟩
  | case4 a b c rest ih =>
    obtain ⟨k,hk,he⟩ := ih
    exact ⟨k,hk,by simp only [encode,encodeUnpadded,he,List.cons_append]⟩

/-- Unpadded encodings hold alphabet characters only. -/
theorem mem_encodeUnpadded {bytes : List UInt8} {c : Char} (h : c∈encodeUnpadded bytes) :
    ∃ n,n<64 ∧ c=symbol n := by
  induction bytes using encodeUnpadded.induct with
  | case1 => cases h
  | case2 a =>
    have ha := a.toNat_lt
    simp only [encodeUnpadded,List.mem_cons,List.not_mem_nil,or_false] at h
    rcases h with rfl|rfl <;> exact ⟨_,by omega,rfl⟩
  | case3 a b =>
    have ha := a.toNat_lt
    have hb := b.toNat_lt
    simp only [encodeUnpadded,List.mem_cons,List.not_mem_nil,or_false] at h
    rcases h with rfl|rfl|rfl <;> exact ⟨_,by omega,rfl⟩
  | case4 a b c' rest ih =>
    have ha := a.toNat_lt
    have hb := b.toNat_lt
    have hc := c'.toNat_lt
    simp only [encodeUnpadded,List.mem_cons] at h
    rcases h with rfl|rfl|rfl|rfl|h
    · exact ⟨_,by omega,rfl⟩
    · exact ⟨_,by omega,rfl⟩
    · exact ⟨_,by omega,rfl⟩
    · exact ⟨_,by omega,rfl⟩
    · exact ih h

/-- Encoded texts hold alphabet characters and padding only. -/
theorem mem_encode {bytes : List UInt8} {c : Char} (h : c∈encode bytes) :
    c= '=' ∨ ∃ n,n<64 ∧ c=symbol n := by
  obtain ⟨k,-,he⟩ := encode_eq_unpadded bytes
  rw [he,List.mem_append] at h
  rcases h with h|h
  · exact .inr (mem_encodeUnpadded h)
  · exact .inl (List.eq_of_mem_replicate h)

/-- Stripping removes exactly the padding of a text whose body has none. -/
theorem stripPadding_append {s : List Char} (hs : ∀ c∈s,c≠ '=') {k : ℕ} (hk : k≤2) :
    stripPadding (s++List.replicate k '=')=s := by
  unfold stripPadding
  rw [List.reverse_append,List.reverse_replicate]
  have hr : ∀ c∈s.reverse,c≠ '=' := fun c hc => hs c (List.mem_reverse.mp hc)
  have hb : s=s.reverse.reverse := (List.reverse_reverse s).symm
  generalize s.reverse=t at hr hb
  subst hb
  match k,hk with
  | 0,_ =>
    rw [List.replicate_zero,List.append_nil,List.nil_append]
    cases t with
    | nil => rfl
    | cons c t =>
      have hc := hr c List.mem_cons_self
      split
      · rename_i h; cases h; exact absurd rfl hc
      · rename_i h; cases h; exact absurd rfl hc
      · rfl
  | 1,_ =>
    cases t with
    | nil => rfl
    | cons c t =>
      have hc := hr c List.mem_cons_self
      simp only [List.replicate_one,List.cons_append,List.nil_append]
      split
      · rename_i h; cases h; exact absurd rfl hc
      · rename_i h; cases h; rfl
      · rename_i h; exact absurd rfl (h _)
  | 2,_ => rfl

/-- Decoding without padding undoes encoding without padding. -/
theorem decodeUnpadded_encode (bytes : List UInt8) :
    decodeUnpadded (encodeUnpadded bytes)=some bytes := by
  induction bytes using encodeUnpadded.induct with
  | case1 => rfl
  | case2 a => simp only [encodeUnpadded,decodeUnpadded,shortestQuantum_symbols]
  | case3 a b => simp only [encodeUnpadded,decodeUnpadded,shortQuantum_symbols]
  | case4 a b c rest ih =>
    rw [encodeUnpadded,decodeUnpadded,quantum_symbols,ih]
    rfl

/-- The forgiving decoder reads every encoding back. -/
theorem forgivingDecode_encode (bytes : List UInt8) : forgivingDecode (encode bytes)=some bytes := by
  have hw : (encode bytes).filter (fun c => !asciiWhitespace c)=encode bytes := by
    apply List.filter_eq_self.mpr
    intro c hc
    rcases mem_encode hc with rfl|⟨n,hn,rfl⟩
    · rfl
    · rw [(symbol_plain n hn).2]
      rfl
  have hb : ∀ c∈encodeUnpadded bytes,c≠ '=' := by
    intro c hc
    obtain ⟨n,hn,rfl⟩ := mem_encodeUnpadded hc
    exact (symbol_plain n hn).1
  obtain ⟨k,hk,he⟩ := encode_eq_unpadded bytes
  unfold forgivingDecode
  dsimp only
  rw [hw,if_pos (length_encode bytes),he,stripPadding_append hb hk,decodeUnpadded_encode]

/-- Where the canonical decoder accepts, the forgiving decoder agrees. -/
theorem forgivingDecode_of_decode {s : List Char} {bytes : List UInt8}
    (h : decode s=some bytes) : forgivingDecode s=some bytes := by
  rw [(decode_eq_some_iff).mp h]
  exact forgivingDecode_encode bytes

end NadSafe.Base64
