import Mathlib.Algebra.Group.Int.Defs
import Mathlib.Algebra.Ring.Int.Defs
import Mathlib.Algebra.Ring.Nat
import NadSafe.TableRows

/-!
# Totals of tables

Every row of a table has a weight, and the total of the table is the sum of
the weights. Writing or removing a row changes the total by the weights of the
rows that come and go. A table whose rows all occur, at no lower weight, in
another one has no larger total.
-/

namespace NadSafe.RowTotals

open TableRows

variable {ρ κ : Type} (w : ρ → ℤ)

/-- The sum of the weights. -/
def total (rows : List ρ) : ℤ := (rows.map w).sum

@[simp] theorem total_nil : total w []=0 := rfl

@[simp] theorem total_cons (r : ρ) (rows : List ρ) : total w (r::rows)=w r+total w rows := rfl

variable {w} {rows : List ρ} {r : ρ}

theorem total_append {rows' : List ρ} : total w (rows++rows')=total w rows+total w rows' := by
  induction rows with
  | nil => rw [List.nil_append,total_nil,zero_add]
  | cons r rows ih =>
    rw [List.cons_append,total_cons,total_cons,ih]
    omega

/-- Equal weights give equal totals. -/
theorem total_congr {w' : ρ → ℤ} (h : ∀ r∈rows,w r=w' r) : total w rows=total w' rows := by
  induction rows with
  | nil => rfl
  | cons r rows ih =>
    have hfirst := h r List.mem_cons_self
    have hrest := ih fun q hq => h q (List.mem_cons_of_mem r hq)
    rw [total_cons,total_cons]
    omega

theorem total_le_of_forall {w' : ρ → ℤ} (h : ∀ r∈rows,w r≤w' r) : total w rows≤total w' rows := by
  induction rows with
  | nil => exact Int.le_refl 0
  | cons r rows ih =>
    have hfirst := h r List.mem_cons_self
    have hrest := ih fun q hq => h q (List.mem_cons_of_mem r hq)
    rw [total_cons,total_cons]
    omega

theorem total_map {ι : Type} {f : ι → ρ} {is : List ι} : total w (is.map f)=total (fun i => w (f i)) is := by
  unfold total
  rw [List.map_map]
  rfl

/-- Rows that are left out weigh nothing. -/
theorem total_filter {p : ρ → Bool} : total w (rows.filter p)=total (fun r => if p r=true then w r else 0) rows := by
  induction rows with
  | nil => rfl
  | cons r rows ih =>
    cases hp : p r with
    | true =>
      rw [List.filter_cons_of_pos hp,total_cons,total_cons,ih,hp]
      rfl
    | false =>
      have hnot : ¬p r=true := by
        rw [hp]
        exact Bool.false_ne_true
      rw [List.filter_cons_of_neg hnot,total_cons,ih,hp,if_neg Bool.false_ne_true]
      omega

theorem total_nonneg (h : ∀ r∈rows,0≤w r) : 0≤total w rows := by
  induction rows with
  | nil => exact Int.le_refl 0
  | cons r rows ih =>
    have hfirst := h r List.mem_cons_self
    have hrest := ih fun q hq => h q (List.mem_cons_of_mem r hq)
    rw [total_cons]
    omega

/-- Leaving out rows lowers the total. -/
theorem total_filter_le {p : ρ → Bool} (h : ∀ r∈rows,0≤w r) : total w (rows.filter p)≤total w rows := by
  induction rows with
  | nil => exact Int.le_refl 0
  | cons r rows ih =>
    have hfirst := h r List.mem_cons_self
    have hrest := ih fun q hq => h q (List.mem_cons_of_mem r hq)
    rw [List.filter_cons,total_cons]
    split
    · rw [total_cons]
      omega
    · omega

section Keys

variable [DecidableEq κ] {key : ρ → κ}

/-- A table without the key of a row. -/
theorem total_remove (hkeys : (rows.map key).Nodup) (hr : r∈rows) :
    total w (rows.filter fun q => key q≠key r)=total w rows-w r := by
  induction rows with
  | nil => cases hr
  | cons q rows ih =>
    rw [List.map_cons,List.nodup_cons] at hkeys
    rcases List.mem_cons.mp hr with rfl|hrest
    · have hall : rows.filter (fun q => key q≠key r)=rows := by
        refine List.filter_eq_self.mpr fun q hq => decide_eq_true fun hkey => hkeys.1 ?_
        rw [← hkey]
        exact List.mem_map_of_mem hq
      rw [List.filter_cons_of_neg (by simp),hall,total_cons]
      omega
    · have hdiffer : key q≠key r := by
        intro hkey
        refine hkeys.1 ?_
        rw [hkey]
        exact List.mem_map_of_mem hrest
      rw [List.filter_cons_of_pos (by simpa using hdiffer),total_cons,total_cons,ih hkeys.2 hrest]
      omega

/-- A key that is not there. -/
theorem filter_absent (h : ∀ q∈rows,key q≠key r) : rows.filter (fun q => key q≠key r)=rows :=
  List.filter_eq_self.mpr fun q hq => decide_eq_true (h q hq)

/-- A new row. -/
theorem total_put_new (h : ∀ q∈rows,key q≠key r) : total w (put key r rows)=total w rows+w r := by
  unfold put
  rw [filter_absent h,total_append,total_cons,total_nil]
  omega

/-- A row instead of another one. -/
theorem total_put_old {old : ρ} (hkeys : (rows.map key).Nodup) (hold : old∈rows) (hkey : key old=key r) :
    total w (put key r rows)=total w rows-w old+w r := by
  have hremove := total_remove (w := w) hkeys hold
  rw [hkey] at hremove
  unfold put
  rw [total_append,hremove,total_cons,total_nil]
  omega

/-- Every row that counts occurs in another table, at no lower weight. -/
theorem total_le_total {ι : Type} {v : ι → ℤ} {path : ι → κ} {files : List ι} (hkeys : (rows.map key).Nodup)
    (hw : ∀ r∈rows,0≤w r) (hpaths : (files.map path).Nodup)
    (h : ∀ f∈files,v f≤0 ∨ ∃ r∈rows,key r=path f ∧ v f≤w r) : total v files≤total w rows := by
  induction files generalizing rows with
  | nil => exact total_nonneg hw
  | cons f files ih =>
    rw [List.map_cons,List.nodup_cons] at hpaths
    rw [total_cons]
    have hother : ∀ g∈files,path g≠path f := by
      intro g hg hpath
      refine hpaths.1 ?_
      rw [← hpath]
      exact List.mem_map_of_mem hg
    rcases h f List.mem_cons_self with hnone|⟨r,hr,hkey,hle⟩
    · have hrest := ih hkeys hw hpaths.2 fun g hg => h g (List.mem_cons_of_mem f hg)
      omega
    · have hremove := total_remove (w := w) hkeys hr
      have hsub : (rows.filter fun q => key q≠key r).Sublist rows := List.filter_sublist
      have hleft : ∀ g∈files,v g≤0 ∨ ∃ q∈rows.filter fun q => key q≠key r,key q=path g ∧ v g≤w q := by
        intro g hg
        refine (h g (List.mem_cons_of_mem f hg)).imp_right fun ⟨q,hq,hpath,hle⟩ => ?_
        refine ⟨q,List.mem_filter.mpr ⟨hq,decide_eq_true fun he => hother g hg ?_⟩,hpath,hle⟩
        rw [← hpath,he,hkey]
      have hrest := ih (hkeys.sublist (hsub.map key)) (fun q hq => hw q (hsub.mem hq)) hpaths.2 hleft
      omega

/-- Rows that belong to the rows of another table are counted there. -/
theorem total_fibers_le {ι : Type} {v : ι → ℤ} {path : ι → κ} {files : List ι} (hv : ∀ f∈files,0≤v f) :
    total v (files.filter fun f => rows.any fun r => decide (path f=key r))≤
      total (fun r => total v (files.filter fun f => decide (path f=key r))) rows := by
  induction rows with
  | nil =>
    have hnone : files.filter (fun f => ([] : List ρ).any fun r => decide (path f=key r))=[] := by
      rw [List.filter_eq_nil_iff]
      intro f _ hf
      cases hf
    rw [hnone]
    exact Int.le_refl 0
  | cons r rows ih =>
    have hsplit : ∀ fs : List ι,(∀ f∈fs,0≤v f) →
        total v (fs.filter fun f => (r::rows).any fun r => decide (path f=key r))≤
        total v (fs.filter fun f => decide (path f=key r))+
          total v (fs.filter fun f => rows.any fun r => decide (path f=key r)) := by
      intro fs hfs
      rw [total_filter,total_filter,total_filter]
      induction fs with
      | nil => exact Int.le_refl 0
      | cons f fs ihf =>
        have hfirst := hfs f List.mem_cons_self
        have hrest := ihf fun g hg => hfs g (List.mem_cons_of_mem f hg)
        rw [total_cons,total_cons,total_cons,List.any_cons]
        cases decide (path f=key r) with
        | true =>
          rw [Bool.true_or,if_pos rfl]
          split
          · omega
          · omega
        | false =>
          rw [Bool.false_or,if_neg Bool.false_ne_true]
          omega
    have hfirst := hsplit files hv
    rw [total_cons]
    omega

end Keys

section Checked

/-- `i64::MAX`. -/
def I64_MAX : ℤ := 9223372036854775807

/-- Whether a number is an `i64`. -/
def fitsI64 (n : ℤ) : Bool := decide (-9223372036854775808≤n ∧ n≤I64_MAX)

/-- `to_i64`. -/
def toI64 (n : ℤ) : Option ℤ := if fitsI64 n=true then some n else none

/-- `i64::checked_add`. -/
def checkedAdd (a b : ℤ) : Option ℤ := toI64 (a+b)

/-- `i64::checked_sub`. -/
def checkedSub (a b : ℤ) : Option ℤ := toI64 (a-b)

/-- `i64::checked_mul`. -/
def checkedMul (a b : ℤ) : Option ℤ := toI64 (a*b)

theorem toI64_eq_some_iff {n m : ℤ} : toI64 n=some m ↔ m=n ∧ -9223372036854775808≤n ∧ n≤I64_MAX := by
  unfold toI64 fitsI64
  by_cases h : -9223372036854775808≤n ∧ n≤I64_MAX
  · rw [if_pos (decide_eq_true h),Option.some.injEq]
    exact ⟨fun he => ⟨he.symm,h⟩,fun he => he.1.symm⟩
  · have hnot : ¬decide (-9223372036854775808≤n ∧ n≤I64_MAX)=true := fun hd => h (of_decide_eq_true hd)
    rw [if_neg hnot]
    constructor
    · intro he
      cases he
    · exact fun he => absurd he.2 h

theorem toI64_eq_none_iff {n : ℤ} : toI64 n=none ↔ ¬(-9223372036854775808≤n ∧ n≤I64_MAX) := by
  rw [Option.eq_none_iff_forall_ne_some]
  exact ⟨fun h hn => h n ((toI64_eq_some_iff).mpr ⟨rfl,hn⟩),fun h m hm => h ((toI64_eq_some_iff).mp hm).2⟩

/-- A checked sum that does not overflow is the total. -/
theorem total_of_foldlM {f : ρ → Option ℤ} {a b : ℤ} (h : rows.foldlM (fun sum r =>
    match f r with
    | some n => checkedAdd sum n
    | none => some sum) a=some b) : b=a+total (fun r => (f r).getD 0) rows := by
  induction rows generalizing a with
  | nil =>
    cases h
    rw [total_nil,Int.add_zero]
  | cons r rows ih =>
    rw [List.foldlM_cons] at h
    obtain ⟨c,hc,hrest⟩ := Option.bind_eq_some_iff.mp h
    have hlater := ih hrest
    rw [total_cons]
    cases hr : f r with
    | none =>
      simp only [hr] at hc
      cases hc
      rw [Option.getD_none]
      omega
    | some n =>
      simp only [hr] at hc
      have hsum := ((toI64_eq_some_iff).mp hc).1
      rw [Option.getD_some]
      omega

end Checked

end NadSafe.RowTotals
