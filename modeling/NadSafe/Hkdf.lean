import Mathlib.Data.Nat.Notation
import Mathlib.Tactic.Common

/-!
# HKDF-Expand of RFC 5869

The output is the first `len` bytes of T(1), T(2), …, where each block is the
keyed hash of the block before it, the info and a counter byte. The keyed hash
is a parameter; only the length of its output matters.
-/

namespace NadSafe.Hkdf

variable (hmac : List UInt8 → List UInt8 → List UInt8) (prk info : List UInt8)

/-- T(n), with T(0) empty. -/
def block : ℕ → List UInt8
  | 0 => []
  | n+1 => hmac prk (block n++info++[UInt8.ofNat (n+1)])

/-- T(1) to T(n) in a row. -/
def blocks : ℕ → List UInt8
  | 0 => []
  | n+1 => blocks n++block hmac prk info (n+1)

/-- The first `len` bytes, from as many blocks as they need. -/
def expand (hashLen len : ℕ) : List UInt8 :=
  (blocks hmac prk info ((len+hashLen-1)/hashLen)).take len

variable {hmac} {hashLen : ℕ} (hlength : ∀ key message,(hmac key message).length=hashLen)

include hlength

theorem length_blocks (n : ℕ) : (blocks hmac prk info n).length=n*hashLen := by
  induction n with
  | zero => simp [blocks]
  | succ n ih => rw [blocks,List.length_append,ih,block,hlength,Nat.succ_mul]

/-- The output has the requested length. -/
theorem length_expand (hpos : 0<hashLen) (len : ℕ) :
    (expand hmac prk info hashLen len).length=len := by
  have henough : len≤(len+hashLen-1)/hashLen*hashLen := by
    have hdiv := Nat.div_add_mod (len+hashLen-1) hashLen
    have hmod := Nat.mod_lt (len+hashLen-1) hpos
    rw [Nat.mul_comm]
    omega
  rw [expand,List.length_take,length_blocks prk info hlength]
  exact Nat.min_eq_left henough

/-- One block. -/
theorem expand_one (hpos : 0<hashLen) :
    expand hmac prk info hashLen hashLen=hmac prk (info++[1]) := by
  have hcount : (hashLen+hashLen-1)/hashLen=1 := by
    rw [Nat.div_eq_iff hpos]
    omega
  rw [expand,hcount]
  exact List.take_of_length_le (by simp [blocks,block,hlength])

/-- Two blocks: the second one is chained to the first. -/
theorem expand_two (hpos : 0<hashLen) :
    expand hmac prk info hashLen (2*hashLen)=
      hmac prk (info++[1])++hmac prk (hmac prk (info++[1])++info++[2]) := by
  have hcount : (2*hashLen+hashLen-1)/hashLen=2 := by
    rw [Nat.div_eq_iff hpos]
    omega
  rw [expand,hcount]
  exact List.take_of_length_le (by simp [blocks,block,hlength,Nat.two_mul])

end NadSafe.Hkdf
