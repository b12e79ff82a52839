import Mathlib.Data.Nat.Digits.Defs
import Mathlib.Data.Nat.Digits.Lemmas
import Mathlib.Tactic.Ring

/-!
# Regrouping of bits

Digits stand in big-endian order. A streaming regrouping takes digits of
`w` bits, keeps the bits that are left over in an accumulator, and puts out
digits of `u` bits. The numbers that both lists stand for differ by the bits
in the accumulator, which determines the output.
-/

namespace NadSafe.BitGroups

/-- The number that digits stand for. -/
def value (b : ℕ) (digits : List ℕ) : ℕ := Nat.ofDigits b digits.reverse

/-- So many digits of a number. -/
def digits (b : ℕ) : ℕ → ℕ → List ℕ
  | 0,_ => []
  | m+1,n => digits b m (n/b)++[n%b]

section Values

variable {b : ℕ}

theorem value_concat (ds : List ℕ) (d : ℕ) : value b (ds++[d])=value b ds*b+d := by
  rw [value,List.reverse_append,List.reverse_singleton,List.singleton_append,Nat.ofDigits_cons,value]
  ring

theorem value_append (xs ys : List ℕ) : value b (xs++ys)=value b xs*b^ys.length+value b ys := by
  rw [value,List.reverse_append,Nat.ofDigits_append,List.length_reverse,value,value]
  ring

/-- Digits of one length are determined by their number. -/
theorem value_injective (hb : 1<b) {xs ys : List ℕ} (hlength : xs.length=ys.length) (hxs : ∀ d∈xs,d<b)
    (hys : ∀ d∈ys,d<b) (hvalue : value b xs=value b ys) : xs=ys := by
  refine List.reverse_injective (Nat.ofDigits_inj_of_len_eq hb ?_ ?_ ?_ hvalue)
  · rw [List.length_reverse,List.length_reverse,hlength]
  · exact fun d hd => hxs d (List.mem_reverse.mp hd)
  · exact fun d hd => hys d (List.mem_reverse.mp hd)

theorem length_digits (m n : ℕ) : (digits b m n).length=m := by
  induction m generalizing n with
  | zero => rfl
  | succ m ih => rw [digits,List.length_append,ih,List.length_singleton]

theorem lt_of_mem_digits (hb : 0<b) {m n d : ℕ} (hd : d∈digits b m n) : d<b := by
  induction m generalizing n with
  | zero => cases hd
  | succ m ih =>
    rcases List.mem_append.mp hd with hd|hd
    · exact ih hd
    · rw [List.mem_singleton.mp hd]
      exact Nat.mod_lt _ hb

/-- The digits of a number stand for it. -/
theorem value_digits {m n : ℕ} (hn : n<b^m) : value b (digits b m n)=n := by
  induction m generalizing n with
  | zero =>
    rw [pow_zero] at hn
    have hzero : n=0 := by omega
    rw [hzero]
    rfl
  | succ m ih =>
    have hdiv : n/b<b^m := by
      rw [pow_succ] at hn
      exact Nat.div_lt_of_lt_mul (by rwa [Nat.mul_comm])
    rw [digits,value_concat,ih hdiv,Nat.mul_comm]
    exact Nat.div_add_mod n b

end Values

/-- The state of a regrouping. -/
structure Regroup where
  /-- The bits left over, as a number. -/
  bits : ℕ
  /-- How many they are. -/
  count : ℕ
  /-- The digits put out. -/
  out : List ℕ

/-- Nothing read yet. -/
def Regroup.start : Regroup := ⟨0,0,[]⟩

/-- One more digit. -/
def Regroup.push (w u : ℕ) (r : Regroup) (d : ℕ) : Regroup :=
  if u≤r.count+w then
    ⟨(r.bits*2^w+d)%2^(r.count+w-u),r.count+w-u,r.out++[(r.bits*2^w+d)/2^(r.count+w-u)]⟩
  else ⟨r.bits*2^w+d,r.count+w,r.out⟩

/-- A state after some digits of `w` bits. -/
structure Regrouped (w u : ℕ) (ds : List ℕ) (r : Regroup) : Prop where
  /-- The number that was read is in the output and in the bits left over. -/
  number : value (2^w) ds=value (2^u) r.out*2^r.count+r.bits
  /-- The bits left over are as many as counted. -/
  bound : r.bits<2^r.count
  /-- They make no digit. -/
  short : r.count<u
  /-- No bit is lost. -/
  length : w*ds.length=u*r.out.length+r.count
  /-- Digits have `u` bits. -/
  small : ∀ d∈r.out,d<2^u

section Regrouping

variable {w u : ℕ} {ds : List ℕ} {r : Regroup}

theorem regrouped_start (hu : 0<u) : Regrouped w u [] Regroup.start where
  number := rfl
  bound := by decide
  short := hu
  length := by simp [Regroup.start]
  small := nofun

/-- The bits with one more digit. -/
theorem Regrouped.wide (h : Regrouped w u ds r) {d : ℕ} (hd : d<2^w) : r.bits*2^w+d<2^(r.count+w) := by
  have hbits := h.bound
  rw [pow_add]
  calc
    r.bits*2^w+d<r.bits*2^w+2^w := by omega
    _=(r.bits+1)*2^w := by ring
    _≤2^r.count*2^w := Nat.mul_le_mul_right _ hbits

/-- A digit keeps the relation. -/
theorem Regrouped.push (hw : w≤u) (h : Regrouped w u ds r) {d : ℕ} (hd : d<2^w) :
    Regrouped w u (ds++[d]) (r.push w u d) := by
  have hshort := h.short
  have hlength := h.length
  have hwide := h.wide hd
  have hread : value (2^w) (ds++[d])=value (2^u) r.out*2^(r.count+w)+(r.bits*2^w+d) := by
    rw [value_concat,h.number,pow_add]
    ring
  have hlength' : w*(ds++[d]).length=u*r.out.length+(r.count+w) := by
    rw [List.length_append,List.length_singleton,Nat.mul_add]
    omega
  unfold Regroup.push
  split_ifs with hfull
  · have hsplit : r.count+w=u+(r.count+w-u) := by omega
    refine ⟨?_,Nat.mod_lt _ (by positivity),by dsimp only; omega,?_,fun x hx => ?_⟩
    · dsimp only
      rw [hread,value_concat,hsplit,pow_add,Nat.add_sub_cancel_left]
      have hdivision := Nat.div_add_mod (r.bits*2^w+d) (2^(r.count+w-u))
      calc
        value (2^u) r.out*(2^u*2^(r.count+w-u))+(r.bits*2^w+d)=
            value (2^u) r.out*(2^u*2^(r.count+w-u))+
              (2^(r.count+w-u)*((r.bits*2^w+d)/2^(r.count+w-u))+(r.bits*2^w+d)%2^(r.count+w-u)) := by
          rw [hdivision]
        _=(value (2^u) r.out*2^u+(r.bits*2^w+d)/2^(r.count+w-u))*2^(r.count+w-u)+
            (r.bits*2^w+d)%2^(r.count+w-u) := by
          ring
    · rw [hlength',List.length_append,List.length_singleton,Nat.mul_add]
      dsimp only
      omega
    · rcases List.mem_append.mp hx with hx|hx
      · exact h.small x hx
      · rw [List.mem_singleton.mp hx]
        refine Nat.div_lt_of_lt_mul ?_
        rw [← pow_add]
        exact hwide.trans_le (Nat.pow_le_pow_right (by decide) (by omega))
  · exact ⟨hread,hwide,by dsimp only; omega,hlength',h.small⟩

/-- All digits. -/
theorem regrouped_foldl (hw : w≤u) {before : List ℕ} (h : Regrouped w u before r) (hds : ∀ d∈ds,d<2^w) :
    Regrouped w u (before++ds) (ds.foldl (Regroup.push w u) r) := by
  induction ds generalizing before r with
  | nil => rwa [List.append_nil]
  | cons d ds ih =>
    have hpushed := h.push hw (hds d List.mem_cons_self)
    have hrest := ih hpushed fun x hx => hds x (List.mem_cons_of_mem d hx)
    rwa [List.append_assoc,List.singleton_append] at hrest

/-- The output is determined: digits whose number is that of `ks` with less
than one digit of zero bits behind it give `ks`. -/
theorem Regrouped.out_eq (hu : 1≤u) (h : Regrouped w u ds r) {ks : List ℕ} {pad : ℕ} (hpad : pad<u)
    (hks : ∀ k∈ks,k<2^u) (hlength : w*ds.length=u*ks.length+pad)
    (hvalue : value (2^w) ds=value (2^u) ks*2^pad) : r.out=ks := by
  have hshort := h.short
  have hboth : u*r.out.length+r.count=u*ks.length+pad := h.length.symm.trans hlength
  have hlengths : r.out.length=ks.length := by
    have hout : (u*r.out.length+r.count)/u=r.out.length := by
      rw [Nat.mul_add_div (by omega),Nat.div_eq_of_lt hshort,Nat.add_zero]
    have hkeys : (u*ks.length+pad)/u=ks.length := by
      rw [Nat.mul_add_div (by omega),Nat.div_eq_of_lt hpad,Nat.add_zero]
    rw [← hout,hboth,hkeys]
  have hcount : r.count=pad := by
    rw [hlengths] at hboth
    omega
  have hbase : 1<2^u := Nat.one_lt_two_pow (by omega)
  refine value_injective hbase hlengths h.small hks ?_
  -- The bits left over are the zero bits.
  have hnumbers : value (2^u) r.out*2^pad+r.bits=value (2^u) ks*2^pad := by
    rw [← hvalue,h.number,hcount]
  have hbound := h.bound
  rw [hcount] at hbound
  have hdiv := congrArg (·/2^pad) hnumbers
  rwa [Nat.mul_comm,Nat.mul_add_div (by positivity),Nat.div_eq_of_lt hbound,Nat.add_zero,
    Nat.mul_div_cancel _ (by positivity)] at hdiv

end Regrouping

end NadSafe.BitGroups
