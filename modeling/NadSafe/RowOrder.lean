import Mathlib.Data.List.Sort

/-!
# Ordered queries

A query finds rows in an order of its own. `ORDER BY` puts those with smaller
keys first, and leaves open which of two rows with equal keys comes first.
-/

namespace NadSafe.RowOrder

variable {ρ : Type} {key : ρ → ℕ} {rows : List ρ} {r : ρ}

/-- `ORDER BY`, for rows in the order in which they were found. -/
def orderBy (key : ρ → ℕ) (rows : List ρ) : List ρ := rows.insertionSort fun a b => key a≤key b

/-- The same rows are found, in some order. -/
def Rearranges (order : List ρ → List ρ) : Prop := ∀ rows,(order rows).Perm rows

theorem Rearranges.refl : Rearranges (id : List ρ → List ρ) := fun rows => List.Perm.refl rows

theorem mem_orderBy : r∈orderBy key rows ↔ r∈rows := List.mem_insertionSort _

/-- Nothing is added, and nothing is left out. -/
theorem mem_ordered {order : List ρ → List ρ} (h : Rearranges order) : r∈orderBy key (order rows) ↔ r∈rows :=
  (mem_orderBy).trans (h rows).mem_iff

/-- No row has a smaller key than the first one. -/
theorem head_orderBy (h : (orderBy key rows).head?=some r) : r∈rows ∧ ∀ q∈rows,key r≤key q := by
  obtain ⟨rest,hrest⟩ := List.head?_eq_some_iff.mp h
  have htotal : Std.Total fun a b : ρ => key a≤key b := ⟨fun a b => le_total (key a) (key b)⟩
  have htrans : IsTrans ρ fun a b => key a≤key b := ⟨fun a b c => le_trans⟩
  have hsorted : (orderBy key rows).Pairwise fun a b => key a≤key b := List.pairwise_insertionSort _ rows
  rw [hrest] at hsorted
  have hfirst : ∀ q∈rest,key r≤key q := (List.pairwise_cons.mp hsorted).1
  have hmem : r∈orderBy key rows := List.mem_of_mem_head? h
  refine ⟨(mem_orderBy).mp hmem,fun q hq => ?_⟩
  have hq' : q∈r::rest := hrest ▸ (mem_orderBy).mpr hq
  rcases List.mem_cons.mp hq' with rfl|hq'
  · exact le_refl _
  · exact hfirst q hq'

/-- A row that is found first, and has no larger key than the others, is the
first one. -/
theorem orderBy_cons (h : ∀ q∈rows,key r≤key q) : (orderBy key (r::rows)).head?=some r := by
  have hinsert : orderBy key (r::rows)=r::orderBy key rows :=
    List.insertionSort_cons_of_forall_rel (r := fun a b => key a≤key b) h
  rw [hinsert,List.head?_cons]

/-- The order that finds a row before all others. -/
def foundFirst [DecidableEq ρ] (r : ρ) (rows : List ρ) : List ρ := if r∈rows then r::rows.erase r else rows

theorem foundFirst_rearranges [DecidableEq ρ] (r : ρ) : Rearranges (foundFirst r) := by
  intro rows
  unfold foundFirst
  split
  · rename_i hmem
    exact (List.perm_cons_erase hmem).symm
  · exact List.Perm.refl rows

/-- The first row of an ordered query is never one of some kind, whatever
order the rows are found in, exactly when each of the kind has a row with a
smaller key. -/
theorem first_avoids_iff [DecidableEq ρ] (p : ρ → Prop) :
    (∀ order : List ρ → List ρ,Rearranges order → ∀ r,(orderBy key (order rows)).head?=some r → ¬p r) ↔
      ∀ r∈rows,p r → ∃ q∈rows,key q<key r := by
  constructor
  · intro h r hr hp
    by_contra hleast
    push Not at hleast
    refine h (foundFirst r) (foundFirst_rearranges r) r ?_ hp
    have hfirst : foundFirst r rows=r::rows.erase r := if_pos hr
    rw [hfirst]
    exact orderBy_cons fun q hq => hleast q (List.mem_of_mem_erase hq)
  · intro h order horder r hr hp
    obtain ⟨hmem,hleast⟩ := head_orderBy hr
    obtain ⟨q,hq,hlt⟩ := h r ((horder rows).mem_iff.mp hmem) hp
    have hle := hleast q ((horder rows).mem_iff.mpr hq)
    omega

end NadSafe.RowOrder
