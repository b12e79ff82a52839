import Mathlib.Data.List.Basic
import Mathlib.Tactic.Common

/-!
# Blocks with their length in front

The length of a block is written seven bits at a time, the lowest first, and
all bytes but the last carry a mark. A stream of such blocks is cut back into
them wherever it ends.
-/

namespace NadSafe.LengthFrames

/-- A length, seven bits in a byte. -/
def sizeBytes (size : ℕ) : List UInt8 :=
  if size<128 then [UInt8.ofNat size] else UInt8.ofNat (size%128+128)::sizeBytes (size/128)
termination_by size

/-- A block with its length in front. -/
def frame (block : List UInt8) : List UInt8 := sizeBytes block.length++block

/-- The length that bytes begin with, and what comes after it. -/
def readSize : List UInt8 → Option (ℕ×List UInt8)
  | [] => none
  | b::rest =>
    if b.toNat<128 then some (b.toNat,rest)
    else (readSize rest).map fun (size,rest) => (b.toNat-128+128*size,rest)

/-- The block that bytes begin with, and what comes after it. -/
def readFrame (bytes : List UInt8) : Option (List UInt8×List UInt8) := do
  let (size,rest) ← readSize bytes
  if size ≤ rest.length then some (rest.take size,rest.drop size) else none

/-- The blocks of a stream and the bytes of one that is not complete. -/
def readFrames : ℕ → List UInt8 → List (List UInt8)×List UInt8
  | 0,bytes => ([],bytes)
  | fuel+1,bytes =>
    match readFrame bytes with
    | none => ([],bytes)
    | some (block,rest) => (block::(readFrames fuel rest).1,(readFrames fuel rest).2)

/-- A byte with the mark. -/
theorem marked_toNat (size : ℕ) : (UInt8.ofNat (size%128+128)).toNat=size%128+128 := by
  have hsmall : size%128+128<256 := by omega
  exact UInt8.toNat_ofNat_of_lt' hsmall

theorem readSize_append (size : ℕ) (rest : List UInt8) : readSize (sizeBytes size++rest)=some (size,rest) := by
  induction size using Nat.strongRecOn with
  | _ size ih =>
    rw [sizeBytes]
    split
    · have hsmall : size<256 := by omega
      have hbyte : (UInt8.ofNat size).toNat=size := UInt8.toNat_ofNat_of_lt' hsmall
      rw [List.singleton_append,readSize,hbyte,if_pos ‹_›]
    · have hbyte := marked_toNat size
      rw [List.cons_append,readSize,hbyte,if_neg (by omega),ih (size/128) (by omega)]
      simp only [Option.map_some,Option.some.injEq,Prod.mk.injEq,and_true]
      omega

/-- A length that is cut off is not read. -/
theorem readSize_take (size : ℕ) {k : ℕ} (hk : k<(sizeBytes size).length) : readSize ((sizeBytes size).take k)=none := by
  induction size using Nat.strongRecOn generalizing k with
  | _ size ih =>
    rw [sizeBytes] at hk ⊢
    cases k with
    | zero =>
      rw [List.take_zero]
      rfl
    | succ k =>
      split at hk
      · simp at hk
      · rw [if_neg ‹_›]
        have hbyte := marked_toNat size
        rw [List.length_cons] at hk
        rw [List.take_succ_cons,readSize,hbyte,if_neg (by omega),ih (size/128) (by omega) (by omega)]
        rfl

theorem readFrame_append (block rest : List UInt8) : readFrame (frame block++rest)=some (block,rest) := by
  unfold readFrame frame
  rw [List.append_assoc,readSize_append]
  simp

/-- A block that is cut off is not read. -/
theorem readFrame_take {block : List UInt8} {k : ℕ} (hk : k<(frame block).length) :
    readFrame ((frame block).take k)=none := by
  unfold readFrame frame at *
  rw [List.length_append] at hk
  rw [List.take_append]
  rcases Nat.lt_or_ge k (sizeBytes block.length).length with hshort|hlong
  · have hnone : k-(sizeBytes block.length).length=0 := by omega
    rw [hnone,List.take_zero,List.append_nil,readSize_take _ hshort]
    rfl
  · rw [List.take_of_length_le hlong,readSize_append]
    simp
    omega

theorem length_frame_pos (block : List UInt8) : 0<(frame block).length := by
  unfold frame
  rw [sizeBytes]
  split <;> simp

/-- A stream gives its complete blocks, wherever it ends. -/
theorem readFrames_append (blocks : List (List UInt8)) {next : List UInt8} {k : ℕ} (hk : k<(frame next).length)
    {fuel : ℕ} (hfuel : blocks.length ≤ fuel) :
    readFrames fuel ((blocks.map frame).flatten++(frame next).take k)=(blocks,(frame next).take k) := by
  induction blocks generalizing fuel with
  | nil =>
    cases fuel with
    | zero => rfl
    | succ fuel =>
      rw [List.map_nil,List.flatten_nil,List.nil_append,readFrames,readFrame_take hk]
  | cons block blocks ih =>
    cases fuel with
    | zero => simp at hfuel
    | succ fuel =>
      rw [List.length_cons] at hfuel
      rw [List.map_cons,List.flatten_cons,List.append_assoc,readFrames,readFrame_append]
      dsimp only
      rw [ih (by omega)]

/-- As many blocks as bytes are enough. -/
theorem length_le_flatten (blocks : List (List UInt8)) : blocks.length ≤ (blocks.map frame).flatten.length := by
  induction blocks with
  | nil => exact Nat.le_refl _
  | cons block blocks ih =>
    have := length_frame_pos block
    rw [List.map_cons,List.flatten_cons,List.length_cons,List.length_append]
    omega

end NadSafe.LengthFrames
