import Mathlib.Data.List.Basic
import Mathlib.Data.Int.Order.Basic
import Mathlib.Algebra.Order.Ring.Nat
import Mathlib.Tactic.Common

/-!
# MessagePack

Values of a few kinds are written with a head, which has the kind and, for
text and for collections, a length in the fewest bytes. What is written is
read back, whatever comes after it.
-/

namespace NadSafe.MsgPack

/-- Bytes of a number, the highest first. -/
def be : ℕ → ℕ → List UInt8
  | 0,_ => []
  | k+1,n => UInt8.ofNat (n/256^k%256)::be k n

/-- The number that bytes stand for. -/
def ofBe : List UInt8 → ℕ
  | [] => 0
  | b::bytes => b.toNat*256^bytes.length+ofBe bytes

/-- A number of some bytes, and what comes after it. -/
def readBe (k : ℕ) (bytes : List UInt8) : Option (ℕ×List UInt8) :=
  if k ≤ bytes.length then some (ofBe (bytes.take k),bytes.drop k) else none

@[simp] theorem length_be (k n : ℕ) : (be k n).length=k := by
  induction k with
  | zero => rfl
  | succ k ih => rw [be,List.length_cons,ih]

theorem ofBe_be (k n : ℕ) : ofBe (be k n)=n%256^k := by
  induction k with
  | zero => rw [be,ofBe,Nat.pow_zero,Nat.mod_one]
  | succ k ih =>
    have hbyte : (UInt8.ofNat (n/256^k%256)).toNat=n/256^k%256 := UInt8.toNat_ofNat_of_lt' (Nat.mod_lt _ (by decide))
    rw [be,ofBe,hbyte,length_be,ih,Nat.pow_succ,Nat.mod_mul]
    rw [Nat.mul_comm,Nat.add_comm]

theorem readBe_append {k n : ℕ} (h : n<256^k) (rest : List UInt8) : readBe k (be k n++rest)=some (n,rest) := by
  unfold readBe
  rw [if_pos (by simp),List.take_left' (length_be k n),List.drop_left' (length_be k n),ofBe_be,Nat.mod_eq_of_lt h]

/-- What a value begins with. -/
inductive Head where
  /-- Nothing. -/
  | nil
  /-- A number. -/
  | int (n : ℤ)
  /-- Text of a length. -/
  | str (length : ℕ)
  /-- So many values. -/
  | array (length : ℕ)
  /-- So many pairs. -/
  | map (length : ℕ)
  /-- Data of a type. -/
  | ext (type : ℤ) (length : ℕ)
  deriving DecidableEq

/-- A number in two's complement. -/
def wrap (k : ℕ) (n : ℤ) : ℕ := (n%(256^k : ℕ)).toNat

/-- The number that two's complement stands for. -/
def unwrap (k n : ℕ) : ℤ := if 2*n<256^k then n else (n : ℤ)-(256^k : ℕ)

theorem wrap_lt (k : ℕ) (n : ℤ) : wrap k n<256^k := by
  unfold wrap
  have hpos : 0<256^k := Nat.pow_pos (by decide)
  have hlt := Int.emod_lt_of_pos n (Int.natCast_pos.mpr hpos)
  omega

theorem unwrap_wrap {k : ℕ} {n : ℤ} (hlow : -(256^k : ℕ) ≤ 2*n) (hhigh : 2*n<(256^k : ℕ)) : unwrap k (wrap k n)=n := by
  unfold unwrap wrap
  generalize 256^k=m at *
  rcases lt_or_ge n 0 with hneg|hpos
  · have hmod : n%(m : ℤ)=n+m := by
      rw [← Int.add_emod_right,Int.emod_eq_of_lt (by omega) (by omega)]
    rw [hmod]
    split <;> omega
  · rw [Int.emod_eq_of_lt hpos (by omega)]
    split <;> omega

/-- A number in the fewest bytes. -/
def writeInt (n : ℤ) : List UInt8 :=
  if 0 ≤ n then
    if n<128 then [UInt8.ofNat n.toNat]
    else if n<256^1 then 0xcc::be 1 n.toNat
    else if n<256^2 then 0xcd::be 2 n.toNat
    else if n<256^4 then 0xce::be 4 n.toNat
    else 0xcf::be 8 n.toNat
  else if -32 ≤ n then [UInt8.ofNat (wrap 1 n)]
  else if -128 ≤ n then 0xd0::be 1 (wrap 1 n)
  else if -32768 ≤ n then 0xd1::be 2 (wrap 2 n)
  else if -2147483648 ≤ n then 0xd2::be 4 (wrap 4 n)
  else 0xd3::be 8 (wrap 8 n)

/-- The head of text. -/
def writeStr (length : ℕ) : List UInt8 :=
  if length<32 then [UInt8.ofNat (0xa0+length)]
  else if length<256^1 then 0xd9::be 1 length
  else if length<256^2 then 0xda::be 2 length
  else 0xdb::be 4 length

/-- The head of values. -/
def writeArray (length : ℕ) : List UInt8 :=
  if length<16 then [UInt8.ofNat (0x90+length)]
  else if length<256^2 then 0xdc::be 2 length
  else 0xdd::be 4 length

/-- The head of pairs. -/
def writeMap (length : ℕ) : List UInt8 :=
  if length<16 then [UInt8.ofNat (0x80+length)]
  else if length<256^2 then 0xde::be 2 length
  else 0xdf::be 4 length

/-- The head of data, before its type. -/
def writeExt (length : ℕ) : List UInt8 :=
  if length=1 then [0xd4]
  else if length=2 then [0xd5]
  else if length=4 then [0xd6]
  else if length=8 then [0xd7]
  else if length=16 then [0xd8]
  else if length<256^1 then 0xc7::be 1 length
  else if length<256^2 then 0xc8::be 2 length
  else 0xc9::be 4 length

/-- The shortest head. -/
def Head.write : Head → List UInt8
  | .nil => [0xc0]
  | .int n => writeInt n
  | .str length => writeStr length
  | .array length => writeArray length
  | .map length => writeMap length
  | .ext type length => writeExt length++be 1 (wrap 1 type)

/-- The type of data whose length has been read. -/
def readExt (length : ℕ) (bytes : List UInt8) : Option (Head×List UInt8) :=
  (readBe 1 bytes).map fun (type,rest) => (.ext (unwrap 1 type) length,rest)

/-- The head that bytes begin with, and what comes after it. -/
def readHead : List UInt8 → Option (Head×List UInt8)
  | [] => none
  | first::rest =>
    let b := first.toNat
    if b<0x80 then some (.int b,rest)
    else if b<0x90 then some (.map (b-0x80),rest)
    else if b<0xa0 then some (.array (b-0x90),rest)
    else if b<0xc0 then some (.str (b-0xa0),rest)
    else if b=0xc0 then some (.nil,rest)
    else if 0xe0 ≤ b then some (.int (unwrap 1 b),rest)
    else if b=0xcc then (readBe 1 rest).map fun (n,rest) => (.int n,rest)
    else if b=0xcd then (readBe 2 rest).map fun (n,rest) => (.int n,rest)
    else if b=0xce then (readBe 4 rest).map fun (n,rest) => (.int n,rest)
    else if b=0xcf then (readBe 8 rest).map fun (n,rest) => (.int n,rest)
    else if b=0xd0 then (readBe 1 rest).map fun (n,rest) => (.int (unwrap 1 n),rest)
    else if b=0xd1 then (readBe 2 rest).map fun (n,rest) => (.int (unwrap 2 n),rest)
    else if b=0xd2 then (readBe 4 rest).map fun (n,rest) => (.int (unwrap 4 n),rest)
    else if b=0xd3 then (readBe 8 rest).map fun (n,rest) => (.int (unwrap 8 n),rest)
    else if b=0xd9 then (readBe 1 rest).map fun (n,rest) => (.str n,rest)
    else if b=0xda then (readBe 2 rest).map fun (n,rest) => (.str n,rest)
    else if b=0xdb then (readBe 4 rest).map fun (n,rest) => (.str n,rest)
    else if b=0xdc then (readBe 2 rest).map fun (n,rest) => (.array n,rest)
    else if b=0xdd then (readBe 4 rest).map fun (n,rest) => (.array n,rest)
    else if b=0xde then (readBe 2 rest).map fun (n,rest) => (.map n,rest)
    else if b=0xdf then (readBe 4 rest).map fun (n,rest) => (.map n,rest)
    else if b=0xd4 then readExt 1 rest
    else if b=0xd5 then readExt 2 rest
    else if b=0xd6 then readExt 4 rest
    else if b=0xd7 then readExt 8 rest
    else if b=0xd8 then readExt 16 rest
    else if b=0xc7 then (readBe 1 rest).bind fun (n,rest) => readExt n rest
    else if b=0xc8 then (readBe 2 rest).bind fun (n,rest) => readExt n rest
    else if b=0xc9 then (readBe 4 rest).bind fun (n,rest) => readExt n rest
    else none

/-- A head that has room for its number. -/
def Head.Fits : Head → Prop
  | .nil => True
  | .int n => -9223372036854775808 ≤ n ∧ n<18446744073709551616
  | .str length => length<4294967296
  | .array length => length<4294967296
  | .map length => length<4294967296
  | .ext type length => -128 ≤ type ∧ type<128 ∧ length<4294967296

theorem toNat_small {n : ℕ} (h : n<256) : (UInt8.ofNat n).toNat=n := UInt8.toNat_ofNat_of_lt' h

theorem readHead_int {n : ℤ} (hlow : -9223372036854775808 ≤ n) (hhigh : n<18446744073709551616) (rest : List UInt8) :
    readHead (writeInt n++rest)=some (.int n,rest) := by
  unfold writeInt
  split
  · split
    · rw [List.singleton_append,readHead,toNat_small (by omega)]
      simp only []
      rw [if_pos (by omega),Int.toNat_of_nonneg ‹_›]
    split
    · rw [List.cons_append]
      simp [readHead,readBe_append (k:=1) (n:=n.toNat) (by omega)]
      omega
    split
    · rw [List.cons_append]
      simp [readHead,readBe_append (k:=2) (n:=n.toNat) (by omega)]
      omega
    split
    · rw [List.cons_append]
      simp [readHead,readBe_append (k:=4) (n:=n.toNat) (by omega)]
      omega
    · rw [List.cons_append]
      simp [readHead,readBe_append (k:=8) (n:=n.toNat) (by omega)]
      omega
  split
  · have hback : unwrap 1 (wrap 1 n)=n := unwrap_wrap (by omega) (by omega)
    have hfix : 0xe0 ≤ wrap 1 n := by
      unfold wrap
      omega
    rw [List.singleton_append,readHead,toNat_small (wrap_lt 1 n)]
    simp only []
    rw [if_neg (by omega),if_neg (by omega),if_neg (by omega),if_neg (by omega),if_neg (by omega),if_pos hfix,hback]
  split
  · rw [List.cons_append]
    simp [readHead,readBe_append (wrap_lt 1 n),unwrap_wrap (k:=1) (n:=n) (by omega) (by omega)]
  split
  · rw [List.cons_append]
    simp [readHead,readBe_append (wrap_lt 2 n),unwrap_wrap (k:=2) (n:=n) (by omega) (by omega)]
  split
  · rw [List.cons_append]
    simp [readHead,readBe_append (wrap_lt 4 n),unwrap_wrap (k:=4) (n:=n) (by omega) (by omega)]
  · rw [List.cons_append]
    simp [readHead,readBe_append (wrap_lt 8 n),unwrap_wrap (k:=8) (n:=n) (by omega) (by omega)]

theorem readHead_str {length : ℕ} (h : length<4294967296) (rest : List UInt8) :
    readHead (writeStr length++rest)=some (.str length,rest) := by
  unfold writeStr
  split
  · rw [List.singleton_append,readHead,toNat_small (by omega)]
    simp only []
    rw [if_neg (by omega),if_neg (by omega),if_neg (by omega),if_pos (by omega),Nat.add_sub_cancel_left]
  split
  · rw [List.cons_append]
    simp [readHead,readBe_append (k:=1) (n:=length) (by omega)]
  split
  · rw [List.cons_append]
    simp [readHead,readBe_append (k:=2) (n:=length) (by omega)]
  · rw [List.cons_append]
    simp [readHead,readBe_append (k:=4) (n:=length) (by omega)]

theorem readHead_array {length : ℕ} (h : length<4294967296) (rest : List UInt8) :
    readHead (writeArray length++rest)=some (.array length,rest) := by
  unfold writeArray
  split
  · rw [List.singleton_append,readHead,toNat_small (by omega)]
    simp only []
    rw [if_neg (by omega),if_neg (by omega),if_pos (by omega),Nat.add_sub_cancel_left]
  split
  · rw [List.cons_append]
    simp [readHead,readBe_append (k:=2) (n:=length) (by omega)]
  · rw [List.cons_append]
    simp [readHead,readBe_append (k:=4) (n:=length) (by omega)]

theorem readHead_map {length : ℕ} (h : length<4294967296) (rest : List UInt8) :
    readHead (writeMap length++rest)=some (.map length,rest) := by
  unfold writeMap
  split
  · rw [List.singleton_append,readHead,toNat_small (by omega)]
    simp only []
    rw [if_neg (by omega),if_pos (by omega),Nat.add_sub_cancel_left]
  split
  · rw [List.cons_append]
    simp [readHead,readBe_append (k:=2) (n:=length) (by omega)]
  · rw [List.cons_append]
    simp [readHead,readBe_append (k:=4) (n:=length) (by omega)]

theorem readExt_append {type : ℤ} (hlow : -128 ≤ type) (hhigh : type<128) (length : ℕ) (rest : List UInt8) :
    readExt length (be 1 (wrap 1 type)++rest)=some (.ext type length,rest) := by
  unfold readExt
  rw [readBe_append (wrap_lt 1 type)]
  simp [unwrap_wrap (k:=1) (n:=type) (by omega) (by omega)]

theorem readHead_ext {type : ℤ} (hlow : -128 ≤ type) (hhigh : type<128) {length : ℕ} (h : length<4294967296)
    (rest : List UInt8) :
    readHead (writeExt length++(be 1 (wrap 1 type)++rest))=some (.ext type length,rest) := by
  have htype := fun n => readExt_append hlow hhigh n rest
  unfold writeExt
  split_ifs with h₁ h₂ h₄ h₈ h₁₆ hone htwo
  · simp [readHead,htype,h₁]
  · simp [readHead,htype,h₂]
  · simp [readHead,htype,h₄]
  · simp [readHead,htype,h₈]
  · simp [readHead,htype,h₁₆]
  · simp [readHead,htype,readBe_append (k:=1) (n:=length) (by omega)]
  · simp [readHead,htype,readBe_append (k:=2) (n:=length) (by omega)]
  · simp [readHead,htype,readBe_append (k:=4) (n:=length) (by omega)]

theorem readHead_append {h : Head} (hfits : h.Fits) (rest : List UInt8) : readHead (h.write++rest)=some (h,rest) := by
  cases h with
  | nil => rfl
  | int n => exact readHead_int hfits.1 hfits.2 rest
  | str length => exact readHead_str hfits rest
  | array length => exact readHead_array hfits rest
  | map length => exact readHead_map hfits rest
  | ext type length =>
    rw [Head.write,List.append_assoc]
    exact readHead_ext hfits.1 hfits.2.1 hfits.2.2 rest

/-- A value. -/
inductive Value where
  /-- Nothing. -/
  | nil
  /-- A number. -/
  | int (n : ℤ)
  /-- Text. -/
  | str (bytes : List UInt8)
  /-- Values. -/
  | array (values : List Value)
  /-- Pairs. -/
  | map (pairs : List (Value×Value))
  /-- Data of a type. -/
  | ext (type : ℤ) (data : List UInt8)

/-- What a value begins with. -/
def Value.head : Value → Head
  | .nil => .nil
  | .int n => .int n
  | .str bytes => .str bytes.length
  | .array values => .array values.length
  | .map pairs => .map pairs.length
  | .ext type data => .ext type data.length

mutual

/-- A value in bytes. -/
def Value.write : Value → List UInt8
  | .nil => Head.nil.write
  | .int n => (Head.int n).write
  | .str bytes => (Head.str bytes.length).write++bytes
  | .array values => (Head.array values.length).write++writeValues values
  | .map pairs => (Head.map pairs.length).write++writePairs pairs
  | .ext type data => (Head.ext type data.length).write++data

/-- Values, one after the other. -/
def writeValues : List Value → List UInt8
  | [] => []
  | v::values => v.write++writeValues values

/-- Pairs, one after the other. -/
def writePairs : List (Value×Value) → List UInt8
  | [] => []
  | (k,v)::pairs => k.write++(v.write++writePairs pairs)

end

mutual

/-- Every head has room for its number. -/
def Value.Fits : Value → Prop
  | .nil => True
  | .int n => (Head.int n).Fits
  | .str bytes => (Head.str bytes.length).Fits
  | .array values => (Head.array values.length).Fits ∧ FitValues values
  | .map pairs => (Head.map pairs.length).Fits ∧ FitPairs pairs
  | .ext type data => (Head.ext type data.length).Fits

/-- Every value fits. -/
def FitValues : List Value → Prop
  | [] => True
  | v::values => v.Fits ∧ FitValues values

/-- Every pair fits. -/
def FitPairs : List (Value×Value) → Prop
  | [] => True
  | (k,v)::pairs => k.Fits ∧ v.Fits ∧ FitPairs pairs

end

/-- Text or data of a length, and what comes after it. -/
def readBytes (length : ℕ) (bytes : List UInt8) : Option (List UInt8×List UInt8) :=
  if length ≤ bytes.length then some (bytes.take length,bytes.drop length) else none

mutual

/-- The value that bytes begin with, and what comes after it. -/
def readValue : ℕ → List UInt8 → Option (Value×List UInt8)
  | 0,_ => none
  | fuel+1,bytes =>
    (readHead bytes).bind fun (head,rest) =>
      match head with
      | .nil => some (.nil,rest)
      | .int n => some (.int n,rest)
      | .str length => (readBytes length rest).map fun (text,rest) => (.str text,rest)
      | .array length => (readValues fuel length rest).map fun (values,rest) => (.array values,rest)
      | .map length => (readPairs fuel length rest).map fun (pairs,rest) => (.map pairs,rest)
      | .ext type length => (readBytes length rest).map fun (data,rest) => (.ext type data,rest)

/-- So many values. -/
def readValues : ℕ → ℕ → List UInt8 → Option (List Value×List UInt8)
  | 0,_,_ => none
  | _+1,0,rest => some ([],rest)
  | fuel+1,count+1,bytes =>
    (readValue fuel bytes).bind fun (v,rest) =>
      (readValues fuel count rest).map fun (values,rest) => (v::values,rest)

/-- So many pairs. -/
def readPairs : ℕ → ℕ → List UInt8 → Option (List (Value×Value)×List UInt8)
  | 0,_,_ => none
  | _+1,0,rest => some ([],rest)
  | fuel+1,count+1,bytes =>
    (readValue fuel bytes).bind fun (k,rest) =>
      (readValue fuel rest).bind fun (v,rest) =>
        (readPairs fuel count rest).map fun (pairs,rest) => ((k,v)::pairs,rest)

end

theorem readBytes_append (text rest : List UInt8) : readBytes text.length (text++rest)=some (text,rest) := by
  unfold readBytes
  simp

theorem Head.length_pos (h : Head) : 0<h.write.length := by
  cases h with
  | nil => decide
  | int n =>
    change 0<(writeInt n).length
    unfold writeInt
    split_ifs <;> simp
  | str length =>
    change 0<(writeStr length).length
    unfold writeStr
    split_ifs <;> simp
  | array length =>
    change 0<(writeArray length).length
    unfold writeArray
    split_ifs <;> simp
  | map length =>
    change 0<(writeMap length).length
    unfold writeMap
    split_ifs <;> simp
  | ext type length => simp [Head.write]

theorem Value.length_pos (v : Value) : 0<v.write.length := by
  have hhead := v.head.length_pos
  cases v with
  | nil => exact hhead
  | int n => exact hhead
  | str bytes =>
    rw [Value.write,List.length_append]
    exact Nat.add_pos_left hhead _
  | array values =>
    rw [Value.write,List.length_append]
    exact Nat.add_pos_left hhead _
  | map pairs =>
    rw [Value.write,List.length_append]
    exact Nat.add_pos_left hhead _
  | ext type data =>
    rw [Value.write,List.length_append]
    exact Nat.add_pos_left hhead _

mutual

/-- What is written is read back. -/
theorem readValue_append (v : Value) (hfits : v.Fits) {fuel : ℕ} (hfuel : 2*v.write.length ≤ fuel) (rest : List UInt8) :
    readValue fuel (v.write++rest)=some (v,rest) := by
  have hlength := v.length_pos
  cases fuel with
  | zero => omega
  | succ fuel =>
    match v with
    | .nil => rfl
    | .int n =>
      have hhead := readHead_append (h:=.int n) hfits rest
      rw [Value.write,readValue,hhead]
      rfl
    | .str bytes =>
      have hhead := readHead_append (h:=.str bytes.length) hfits (bytes++rest)
      rw [Value.write,List.append_assoc,readValue,hhead,Option.bind_some]
      dsimp only
      rw [readBytes_append]
      rfl
    | .ext type data =>
      have hhead := readHead_append (h:=.ext type data.length) hfits (data++rest)
      rw [Value.write,List.append_assoc,readValue,hhead,Option.bind_some]
      dsimp only
      rw [readBytes_append]
      rfl
    | .array values =>
      have hhead := readHead_append (h:=.array values.length) hfits.1 (writeValues values++rest)
      have hpos := (Head.array values.length).length_pos
      rw [Value.write,List.length_append] at hfuel
      rw [Value.write,List.append_assoc,readValue,hhead,Option.bind_some]
      dsimp only
      rw [readValues_append values hfits.2 (by omega)]
      rfl
    | .map pairs =>
      have hhead := readHead_append (h:=.map pairs.length) hfits.1 (writePairs pairs++rest)
      have hpos := (Head.map pairs.length).length_pos
      rw [Value.write,List.length_append] at hfuel
      rw [Value.write,List.append_assoc,readValue,hhead,Option.bind_some]
      dsimp only
      rw [readPairs_append pairs hfits.2 (by omega)]
      rfl

theorem readValues_append (values : List Value) (hfits : FitValues values) {fuel : ℕ}
    (hfuel : 2*(writeValues values).length+1 ≤ fuel) (rest : List UInt8) :
    readValues fuel values.length (writeValues values++rest)=some (values,rest) := by
  cases fuel with
  | zero => omega
  | succ fuel =>
    match values with
    | [] => rfl
    | v::values =>
      have hlength := v.length_pos
      rw [writeValues,List.length_append] at hfuel
      rw [writeValues,List.append_assoc,List.length_cons,readValues,readValue_append v hfits.1 (by omega),
        Option.bind_some]
      dsimp only
      rw [readValues_append values hfits.2 (by omega)]
      rfl

theorem readPairs_append (pairs : List (Value×Value)) (hfits : FitPairs pairs) {fuel : ℕ}
    (hfuel : 2*(writePairs pairs).length+1 ≤ fuel) (rest : List UInt8) :
    readPairs fuel pairs.length (writePairs pairs++rest)=some (pairs,rest) := by
  cases fuel with
  | zero => omega
  | succ fuel =>
    match pairs with
    | [] => rfl
    | (k,v)::pairs =>
      have hkey := k.length_pos
      have hlength := v.length_pos
      rw [writePairs,List.length_append,List.length_append] at hfuel
      rw [writePairs,List.append_assoc,List.append_assoc,List.length_cons,readPairs,
        readValue_append k hfits.1 (by omega),Option.bind_some]
      dsimp only
      rw [readValue_append v hfits.2.1 (by omega),Option.bind_some]
      dsimp only
      rw [readPairs_append pairs hfits.2.2 (by omega)]
      rfl

end

/-- One value and nothing else. -/
def read (bytes : List UInt8) : Option Value :=
  (readValue (2*bytes.length) bytes).bind fun (v,rest) => if rest=[] then some v else none

theorem read_write {v : Value} (hfits : v.Fits) : read v.write=some v := by
  unfold read
  have hread := @readValue_append v hfits (2*v.write.length) (Nat.le_refl _) []
  rw [List.append_nil] at hread
  rw [hread]
  rfl

end NadSafe.MsgPack
