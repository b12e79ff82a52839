import Mathlib.Algebra.Order.Field.Basic
import Mathlib.Data.Rat.Floor
import Mathlib.Data.Set.Card
import NadSafe.SwapShuffle
import NadSafe.WebPasswords

/-!
# The words behind an index

An index is read from words of 32 bits, and a shuffle from as many indices as
it has swaps. Of the words that count, as many give one index as any other;
and of the sequences of words of some length, rejected ones included, as many
give one sequence of indices as any other.
-/

namespace NadSafe.FairWords

open WebPasswords SwapShuffle

section Words

variable {max j : ℕ} {w : UInt32}

/-- The words that a range of indices does not reject. -/
def Accepted (max : ℕ) (w : UInt32) : Prop := w.toNat<limit max

instance (max : ℕ) (w : UInt32) : Decidable (Accepted max w) := inferInstanceAs (Decidable (w.toNat<limit max))

/-- The accepted word for an index, from one for another index. -/
def withIndex (max j : ℕ) (w : UInt32) : UInt32 := UInt32.ofNat (w.toNat/max*max+j)

theorem limit_le : limit max≤2^32 := Nat.div_mul_le_self _ _

/-- A block of words, one for each index, ends at a limit. -/
theorem lt_limit {q : ℕ} (hq : q<2^32/max) (hj : j< max) : q*max+j<limit max := by
  have hblock : (q+1)*max≤2^32/max*max := Nat.mul_le_mul_right _ hq
  rw [Nat.succ_mul] at hblock
  rw [limit]
  omega

/-- An accepted word lies in one of the blocks. -/
theorem div_lt_of_accepted (h : Accepted max w) (hpos : 0< max) : w.toNat/max<2^32/max :=
  (Nat.div_lt_iff_lt_mul hpos).mpr h

theorem toNat_ofNat_block {q : ℕ} (hq : q<2^32/max) (hj : j< max) : (UInt32.ofNat (q*max+j)).toNat=q*max+j :=
  UInt32.toNat_ofNat_of_lt ((lt_limit hq hj).trans_le limit_le)

theorem toNat_withIndex (h : Accepted max w) (hj : j< max) : (withIndex max j w).toNat=w.toNat/max*max+j :=
  toNat_ofNat_block (div_lt_of_accepted h (Nat.zero_lt_of_lt hj)) hj

theorem accepted_withIndex (h : Accepted max w) (hj : j< max) : Accepted max (withIndex max j w) := by
  rw [Accepted,toNat_withIndex h hj]
  exact lt_limit (div_lt_of_accepted h (Nat.zero_lt_of_lt hj)) hj

theorem mod_withIndex (h : Accepted max w) (hj : j< max) : (withIndex max j w).toNat%max=j := by
  rw [toNat_withIndex h hj,Nat.mul_comm,Nat.mul_add_mod,Nat.mod_eq_of_lt hj]

/-- Putting back the index gives back the word. -/
theorem withIndex_withIndex (h : Accepted max w) (hj : j< max) :
    withIndex max (w.toNat%max) (withIndex max j w)=w := by
  have hpos := Nat.zero_lt_of_lt hj
  have hquotient : (withIndex max j w).toNat/max=w.toNat/max := by
    rw [toNat_withIndex h hj,Nat.mul_comm,Nat.mul_add_div hpos,Nat.div_eq_of_lt hj,Nat.add_zero]
  rw [withIndex,hquotient,Nat.mul_comm,Nat.div_add_mod]
  exact UInt32.ofNat_toNat

end Words

section Doubles

/-- How the engine rounds quotients and products of moderate size. -/
structure Rounding (round : ℚ → ℚ) : Prop where
  /-- Whole numbers of up to 53 bits are doubles. -/
  whole : ∀ n : ℕ,n≤2^53 → round n=n
  /-- The error is less than the last of 53 bits. -/
  near : ∀ x,1≤x → x≤2^53 → |round x-x|≤x/2^53

/-- An error smaller than the distance to the next whole numbers. -/
theorem floor_near {k : ℕ} {x y gap : ℚ} (hlow : k+gap≤x) (hhigh : x≤k+1-gap) (hnear : |y-x|<gap) : ⌊y⌋=(k : ℤ) := by
  have herror := abs_lt.mp hnear
  rw [Int.floor_eq_iff,Int.cast_natCast]
  constructor
  · linarith only [herror.1,hlow]
  · linarith only [herror.2,hhigh]

/-- `Math.floor(0x100000000 / max) * max`, in doubles. -/
theorem limit_double {round : ℚ → ℚ} (h : Rounding round) {max : ℕ} (hpos : 0< max) (hmax : max≤2^32) :
    round (⌊round ((2^32 : ℕ)/(max : ℚ))⌋*max)=limit max := by
  have hpos' : (0 : ℚ)< max := Nat.cast_pos.mpr hpos
  have hfloor : ⌊round ((2^32 : ℕ)/(max : ℚ))⌋=((2^32/max : ℕ) : ℤ) := by
    have hdivision : max*(2^32/max)+2^32%max=2^32 := Nat.div_add_mod _ _
    have hrest := Nat.mod_lt (2^32) hpos
    have hquotient : ((2^32 : ℕ) : ℚ)/max=(2^32/max : ℕ)+(2^32%max : ℕ)/(max : ℚ) := by
      rw [div_eq_iff hpos'.ne',add_mul,div_mul_cancel₀ _ hpos'.ne',mul_comm]
      exact_mod_cast hdivision.symm
    by_cases hzero : 2^32%max=0
    · rw [hquotient,hzero,Nat.cast_zero,zero_div,add_zero,h.whole _ ((Nat.div_le_self _ _).trans (by norm_num))]
      exact Int.floor_natCast _
    · have hone : (1 : ℚ)≤ max := by exact_mod_cast hpos
      have hlow : (1 : ℚ)≤((2^32 : ℕ) : ℚ)/max := by
        rw [le_div_iff₀ hpos',one_mul]
        exact_mod_cast hmax
      have hhigh : ((2^32 : ℕ) : ℚ)/max≤2^53 := by
        rw [div_le_iff₀ hpos']
        push_cast
        nlinarith only [hone]
      have hsmall : ((2^32 : ℕ) : ℚ)/max/2^53<1/max := by
        rw [div_div,div_lt_div_iff₀ (by positivity) hpos']
        push_cast
        nlinarith only [hpos']
      have hfrom : 1/(max : ℚ)≤(2^32%max : ℕ)/(max : ℚ) := by
        rw [div_le_div_iff_of_pos_right hpos']
        exact_mod_cast Nat.one_le_iff_ne_zero.mpr hzero
      have hto : ((2^32%max : ℕ) : ℚ)/max≤1-1/max := by
        have hcast : ((2^32%max+1 : ℕ) : ℚ)≤ max := by exact_mod_cast hrest
        rw [Nat.cast_add,Nat.cast_one] at hcast
        rw [div_le_iff₀ hpos',sub_mul,one_mul,div_mul_cancel₀ _ hpos'.ne']
        linarith only [hcast]
      refine floor_near ?_ ?_ ((h.near _ hlow hhigh).trans_lt hsmall)
      · rw [hquotient]
        linarith only [hfrom]
      · rw [hquotient]
        linarith only [hto]
  have hproduct : (⌊round ((2^32 : ℕ)/(max : ℚ))⌋ : ℚ)*max=((limit max : ℕ) : ℚ) := by
    rw [hfloor,limit]
    push_cast
    rfl
  rw [hproduct,h.whole _ ((limit_le).trans (by norm_num))]

end Doubles

/-- The words that a shuffle reads, and the indices it reads from them. A word
is rejected, or accepted for an index that is not behind the one it is for. -/
inductive Reads : List UInt32 → List ℕ → Prop where
  /-- No swaps, no words. -/
  | nil : Reads [] []
  /-- A rejected word. -/
  | reject {w : UInt32} {ws : List UInt32} {j : ℕ} {js : List ℕ} (hw : ¬Accepted (js.length+2) w)
      (hrest : Reads ws (j::js)) : Reads (w::ws) (j::js)
  /-- An accepted word. -/
  | accept {w : UInt32} {ws : List UInt32} {js : List ℕ} (hw : Accepted (js.length+2) w)
      (hrest : Reads ws js) : Reads (w::ws) (w.toNat%(js.length+2)::js)

/-- The accepted words, with other indices. -/
def retarget : List ℕ → List UInt32 → List UInt32
  | j::js,w::ws =>
    if Accepted (js.length+2) w then withIndex (js.length+2) j w::retarget js ws
    else w::retarget (j::js) ws
  | [],ws => ws
  | _::_,[] => []

section Reading

variable {ws : List UInt32} {js ks : List ℕ}

/-- The words keep their number, read as the other indices, and come back. -/
theorem Reads.retarget (h : Reads ws js) (hks : Draws ks) (hlength : ks.length=js.length) :
    Reads (retarget ks ws) ks ∧ (FairWords.retarget ks ws).length=ws.length ∧
      FairWords.retarget js (FairWords.retarget ks ws)=ws := by
  induction h generalizing ks with
  | nil =>
    cases List.length_eq_zero_iff.mp hlength
    exact ⟨.nil,rfl,rfl⟩
  | @reject w ws j js hw hrest ih =>
    match ks,hlength with
    | k::ks,hlength =>
      have hsame : ks.length=js.length := Nat.succ.inj hlength
      obtain ⟨hreads,hwords,hback⟩ := ih hks hlength
      have hstep : FairWords.retarget (k::ks) (w::ws)=w::FairWords.retarget (k::ks) ws := by
        rw [FairWords.retarget,hsame,if_neg hw]
      rw [hstep]
      refine ⟨.reject (by rw [hsame]; exact hw) hreads,congrArg (·+1) hwords,?_⟩
      rw [FairWords.retarget,if_neg hw,hback]
  | @accept w ws js hw hrest ih =>
    match ks,hlength with
    | k::ks,hlength =>
      have hsame : ks.length=js.length := Nat.succ.inj hlength
      obtain ⟨hreads,hwords,hback⟩ := ih hks.2 hsame
      have hk : k<js.length+2 := by
        have hdraw := hks.1
        omega
      have hstep : FairWords.retarget (k::ks) (w::ws)=
          withIndex (js.length+2) k w::FairWords.retarget ks ws := by
        rw [FairWords.retarget,hsame,if_pos hw]
      have hread : Reads (withIndex (js.length+2) k w::FairWords.retarget ks ws)
          ((withIndex (js.length+2) k w).toNat%(ks.length+2)::ks) :=
        .accept (by rw [hsame]; exact accepted_withIndex hw hk) hreads
      rw [hsame,mod_withIndex hw hk] at hread
      rw [hstep]
      refine ⟨hread,congrArg (·+1) hwords,?_⟩
      rw [FairWords.retarget,if_pos (accepted_withIndex hw hk),withIndex_withIndex hw hk,hback]

/-- Rejected words come before the accepted one. -/
theorem Reads.rejected {rejected : List UInt32} {w : UInt32} (h : Reads ws js)
    (hrejected : ∀ v∈rejected,¬Accepted (js.length+2) v) (hw : Accepted (js.length+2) w) :
    Reads (rejected++w::ws) (w.toNat%(js.length+2)::js) := by
  induction rejected with
  | nil => exact .accept hw h
  | cons v rejected ih =>
    refine .reject (hrejected v (List.mem_cons_self ..)) (ih fun v' hv' => ?_)
    exact hrejected v' (List.mem_cons_of_mem v hv')

end Reading

section Streams

variable {source : WordSource} {chars : List (Option Char)} {max i j s s' : ℕ}

end Streams

end NadSafe.FairWords
