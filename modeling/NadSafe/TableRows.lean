import Mathlib.Data.List.Basic
import Mathlib.Data.List.Nodup
import Mathlib.Logic.Function.Basic

/-!
# Rows of keyed tables

A table is a list of rows. A row is put under its key, and tables are joined
by nested loops. A left join keeps every left row, with a missing partner
where nothing matches; a comparison with a missing value does not hold.
-/

namespace NadSafe.TableRows

section Keys

variable {ρ κ : Type} [DecidableEq κ] (key : ρ → κ)

/-- Insert a row, or update the row with its key. -/
def put (r : ρ) (rows : List ρ) : List ρ := rows.filter (fun q => key q≠key r)++[r]

variable {key}

/-- After a put, the row and every row with another key are there. -/
theorem mem_put {q r : ρ} {rows : List ρ} : q∈put key r rows ↔ q=r ∨ q∈rows ∧ key q≠key r := by
  rw [put,List.mem_append,List.mem_filter,List.mem_singleton,decide_eq_true_eq]
  exact or_comm

/-- A put leaves one row for each key. -/
theorem nodup_put {r : ρ} {rows : List ρ} (h : (rows.map key).Nodup) :
    ((put key r rows).map key).Nodup := by
  have hrest : ((rows.filter fun q => key q≠key r).map key).Nodup :=
    h.sublist (List.filter_sublist.map key)
  rw [put,List.map_append,List.nodup_append]
  refine ⟨hrest,by simp,?_⟩
  rintro a ha b hb rfl
  obtain ⟨q,hq,rfl⟩ := List.mem_map.mp ha
  have hkey := (List.mem_filter.mp hq).2
  simp at hb hkey
  exact hkey hb

/-- Rows with different keys are found by their key. -/
theorem find?_key {r : ρ} {rows : List ρ} (h : (rows.map key).Nodup) (hr : r∈rows) :
    rows.find? (fun q => key q=key r)=some r := by
  induction rows with
  | nil => cases hr
  | cons q rows ih =>
    rw [List.map_cons,List.nodup_cons] at h
    rcases List.mem_cons.mp hr with rfl|hr
    · simp
    · have hne : key q≠key r := fun he => h.1 (he ▸ List.mem_map_of_mem hr)
      rw [List.find?_cons_of_neg (by simpa using hne)]
      exact ih h.2 hr

/-- Two rows with one key are one row. -/
theorem eq_of_key {q r : ρ} {rows : List ρ} (h : (rows.map key).Nodup) (hq : q∈rows) (hr : r∈rows)
    (hkey : key q=key r) : q=r := by
  have hfound := find?_key h hq
  rw [hkey,find?_key h hr] at hfound
  exact (Option.some.inj hfound).symm

/-- Rows with different pairs of keys that agree in the first differ in the
second. -/
theorem nodup_of_fixed {ι : Type} {f : ρ → κ} {g : ρ → ι} {rows : List ρ} {a : κ}
    (h : (rows.map fun r => (f r,g r)).Nodup) (hf : ∀ r∈rows,f r=a) : (rows.map g).Nodup := by
  have hpairs : (rows.map g).map (fun x => (a,x))=rows.map fun r => (f r,g r) := by
    rw [List.map_map]
    exact List.map_congr_left fun r hr => by rw [hf r hr]; rfl
  exact List.Nodup.of_map (fun x => (a,x)) (hpairs ▸ h)

/-- A map with an entry for each pair; a later pair replaces an earlier one. -/
def collectMap {α : Type} (rows : List (κ×α)) : κ → Option α :=
  rows.foldl (fun map r => Function.update map r.1 (some r.2)) fun _ => none

/-- Rows with different keys are found in their map. -/
theorem collectMap_eq_some_iff {α : Type} {rows : List (κ×α)} (h : (rows.map Prod.fst).Nodup) {k : κ}
    {a : α} : collectMap rows k=some a ↔ (k,a)∈rows := by
  -- the map so far decides where no later row has the key
  have hfold (rows : List (κ×α)) (h : (rows.map Prod.fst).Nodup) (map : κ → Option α) :
      rows.foldl (fun (map : κ → Option α) r => Function.update map r.1 (some r.2)) map k=some a ↔
        (k,a)∈rows ∨ (∀ r∈rows,r.1≠k) ∧ map k=some a := by
    induction rows generalizing map with
    | nil => simp
    | cons r rows ih =>
      obtain ⟨k',a'⟩ := r
      rw [List.map_cons,List.nodup_cons] at h
      rw [List.foldl_cons,ih h.2]
      by_cases hk : k'=k
      · subst hk
        have hnot : ∀ r∈rows,r.1≠k' := by
          intro r hr he
          have hkey : r.1∈rows.map Prod.fst := List.mem_map_of_mem hr
          rw [he] at hkey
          exact h.1 hkey
        have hmem : (k',a)∉rows := fun hm => hnot _ hm rfl
        rw [Function.update_self,Option.some_inj]
        constructor
        · rintro (hm|⟨-,rfl⟩)
          · exact absurd hm hmem
          · exact .inl List.mem_cons_self
        · rintro (hm|⟨hall,-⟩)
          · rcases List.mem_cons.mp hm with he|hm
            · cases he
              exact .inr ⟨hnot,rfl⟩
            · exact absurd hm hmem
          · exact absurd rfl (hall _ List.mem_cons_self)
      · have hne : k≠k' := Ne.symm hk
        simp [Function.update_of_ne hne,hk,hne]
  rw [collectMap,hfold rows h]
  simp

end Keys

section Joins

variable {α β : Type}

/-- An inner join. -/
def innerJoin (rows : List α) (table : List β) (on : α → β → Bool) : List (α×β) :=
  rows.flatMap fun a => (table.filter (on a)).map fun b => (a,b)

/-- The partners of one row in a left join. -/
def partners (table : List β) (on : β → Bool) : List (Option β) :=
  if table.any on=true then (table.filter on).map some else [none]

/-- A left join. -/
def leftJoin (rows : List α) (table : List β) (on : α → β → Bool) : List (α×Option β) :=
  rows.flatMap fun a => (partners table (on a)).map fun b => (a,b)

theorem mem_innerJoin {rows : List α} {table : List β} {on : α → β → Bool} {r : α×β} :
    r∈innerJoin rows table on ↔ r.1∈rows ∧ r.2∈table ∧ on r.1 r.2=true := by
  obtain ⟨a,b⟩ := r
  simp [innerJoin]

/-- A partner matches, or is missing where nothing matches. -/
theorem mem_partners {table : List β} {on : β → Bool} {b : Option β} :
    b∈partners table on ↔ (∃ x∈table,on x=true ∧ b=some x) ∨ (∀ x∈table,on x=false) ∧ b=none := by
  unfold partners
  by_cases h : table.any on=true
  · have hnone : ¬∀ x∈table,on x=false := by
      obtain ⟨x,hx,hon⟩ := List.any_eq_true.mp h
      intro hall
      rw [hall x hx] at hon
      cases hon
    rw [if_pos h,List.mem_map]
    constructor
    · rintro ⟨x,hx,rfl⟩
      exact .inl ⟨x,(List.mem_filter.mp hx).1,(List.mem_filter.mp hx).2,rfl⟩
    · rintro (⟨x,hx,hon,rfl⟩|⟨hall,-⟩)
      · exact ⟨x,List.mem_filter.mpr ⟨hx,hon⟩,rfl⟩
      · exact absurd hall hnone
  · have hall : ∀ x∈table,on x=false := by
      intro x hx
      rw [Bool.eq_false_iff]
      exact fun hon => h (List.any_eq_true.mpr ⟨x,hx,hon⟩)
    have hsome : ¬∃ x∈table,on x=true ∧ b=some x := by
      rintro ⟨x,hx,hon,-⟩
      rw [hall x hx] at hon
      cases hon
    rw [if_neg h,List.mem_singleton]
    exact ⟨fun hb => .inr ⟨hall,hb⟩,fun hb => (hb.resolve_left hsome).2⟩

theorem mem_leftJoin {rows : List α} {table : List β} {on : α → β → Bool} {r : α×Option β} :
    r∈leftJoin rows table on ↔ r.1∈rows ∧ r.2∈partners table (on r.1) := by
  obtain ⟨a,b⟩ := r
  simp [leftJoin]

/-- Some row of an inner join. -/
theorem exists_innerJoin {rows : List α} {table : List β} {on : α → β → Bool} {P : α×β → Prop} :
    (∃ r∈innerJoin rows table on,P r) ↔ ∃ a∈rows,∃ b∈table,on a b=true ∧ P (a,b) := by
  simp only [mem_innerJoin,Prod.exists]
  constructor
  · rintro ⟨a,b,⟨ha,hb,hon⟩,h⟩
    exact ⟨a,ha,b,hb,hon,h⟩
  · rintro ⟨a,ha,b,hb,hon,h⟩
    exact ⟨a,b,⟨ha,hb,hon⟩,h⟩

/-- A condition on a join is a matter of the partners that it can hold of. -/
theorem any_innerJoin_congr {rows : List α} {table table' : List β} {on : α → β → Bool} {p : α×β → Bool}
    (h : ∀ a b,on a b=true → p (a,b)=true → (b∈table' ↔ b∈table)) :
    (innerJoin rows table' on).any p=(innerJoin rows table on).any p := by
  rw [Bool.eq_iff_iff,List.any_eq_true,List.any_eq_true,exists_innerJoin,exists_innerJoin]
  constructor
  · rintro ⟨a,ha,b,hb,hon,hp⟩
    exact ⟨a,ha,b,(h a b hon hp).mp hb,hon,hp⟩
  · rintro ⟨a,ha,b,hb,hon,hp⟩
    exact ⟨a,ha,b,(h a b hon hp).mpr hb,hon,hp⟩

/-- Some row of a left join. -/
theorem exists_leftJoin {rows : List α} {table : List β} {on : α → β → Bool} {P : α×Option β → Prop} :
    (∃ r∈leftJoin rows table on,P r) ↔ ∃ a∈rows,∃ b∈partners table (on a),P (a,b) := by
  simp only [mem_leftJoin,Prod.exists]
  constructor
  · rintro ⟨a,b,⟨ha,hb⟩,h⟩
    exact ⟨a,ha,b,hb,h⟩
  · rintro ⟨a,ha,b,hb,h⟩
    exact ⟨a,b,⟨ha,hb⟩,h⟩

/-- Every row of a left join has a partner, possibly a missing one. -/
theorem exists_partner (table : List β) (on : β → Bool) : ∃ b,b∈partners table on := by
  by_cases h : ∃ x∈table,on x=true
  · obtain ⟨x,hx,hon⟩ := h
    exact ⟨some x,(mem_partners).mpr (.inl ⟨x,hx,hon,rfl⟩)⟩
  · have hall : ∀ x∈table,on x=false := by
      intro x hx
      rw [Bool.eq_false_iff]
      exact fun hon => h ⟨x,hx,hon⟩
    exact ⟨none,(mem_partners).mpr (.inr ⟨hall,rfl⟩)⟩

theorem some_mem_partners {table : List β} {on : β → Bool} {b : β} :
    some b∈partners table on ↔ b∈table ∧ on b=true := by
  rw [mem_partners]
  constructor
  · rintro (⟨x,hx,hon,h⟩|⟨-,h⟩)
    · cases h
      exact ⟨hx,hon⟩
    · cases h
  · rintro ⟨hb,hon⟩
    exact .inl ⟨b,hb,hon,rfl⟩

/-- Nothing matches a row that no condition holds of. -/
theorem none_of_partners {table : List β} {on : β → Bool} {b : Option β} (h : b∈partners table on)
    (hon : ∀ x,on x=false) : b=none := by
  rcases (mem_partners).mp h with ⟨x,-,hx,-⟩|⟨-,hb⟩
  · rw [hon x] at hx
    cases hx
  · exact hb

/-- A key has one row at most, so a row that refers to it has one partner. -/
theorem partners_key {κ : Type} [DecidableEq κ] {key : β → κ} {table : List β} (h : (table.map key).Nodup)
    (k : κ) : partners table (fun b => key b=k)=[table.find? fun b => key b=k] := by
  unfold partners
  cases hfound : table.find? fun b => key b=k with
  | none =>
    have hnone : ¬table.any (fun b => key b=k)=true := by
      intro hany
      obtain ⟨b,hb,hkey⟩ := List.any_eq_true.mp hany
      exact List.find?_eq_none.mp hfound b hb hkey
    rw [if_neg hnone]
  | some b =>
    have hb := List.mem_of_find?_eq_some hfound
    have hkey := List.find?_some hfound
    rw [decide_eq_true_eq] at hkey
    have hall : ∀ c∈table.filter fun c => key c=k,c=b := by
      intro c hc
      obtain ⟨hc,hkey'⟩ := List.mem_filter.mp hc
      exact eq_of_key h hc hb ((of_decide_eq_true hkey').trans hkey.symm)
    have hmem : b∈table.filter fun c => key c=k := List.mem_filter.mpr ⟨hb,decide_eq_true hkey⟩
    have hnodup : (table.filter fun c => key c=k).Nodup := (List.Nodup.of_map key h).filter _
    have hsingle : table.filter (fun c => key c=k)=[b] := by
      cases hrows : table.filter fun c => key c=k with
      | nil =>
        rw [hrows] at hmem
        cases hmem
      | cons c rest =>
        rw [hrows] at hall hnodup
        have hc := hall c List.mem_cons_self
        have hrest : rest=[] := by
          rw [List.nodup_cons] at hnodup
          refine List.eq_nil_iff_forall_not_mem.mpr fun d hd => hnodup.1 ?_
          rw [hc,← hall d (List.mem_cons_of_mem c hd)]
          exact hd
        rw [hc,hrest]
    rw [if_pos (List.any_eq_true.mpr ⟨b,hb,decide_eq_true hkey⟩),hsingle]
    rfl

theorem leftJoin_key {κ : Type} [DecidableEq κ] {key : β → κ} {ref : α → κ} {rows : List α} {table : List β}
    (h : (table.map key).Nodup) : leftJoin rows table (fun a b => key b=ref a)=
      rows.map fun a => (a,table.find? fun b => key b=ref a) := by
  unfold leftJoin
  simp only [partners_key h,List.map_cons,List.map_nil]
  exact List.map_eq_flatMap.symm

end Joins

end NadSafe.TableRows
