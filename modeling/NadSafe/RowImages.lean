import Mathlib.Data.List.Induction
import NadSafe.TableRows

/-!
# Tables that are rewritten row by row

The rows of a table after a number of changes are the images of the rows
before. Which of them were written, and in which order they are listed, does
not matter. If no change touches a key, a table holds the same rows if and
only if every row is its own image.
-/

namespace NadSafe.RowImages

open TableRows

variable {ρ κ : Type}

/-- The rows are the images of other rows. -/
def Images (f : ρ → ρ) (rows rows' : List ρ) : Prop := ∀ q,q∈rows' ↔ ∃ r∈rows,f r=q

/-- Two tables hold the same rows. -/
def SameRows (rows rows' : List ρ) : Prop := ∀ q,q∈rows' ↔ q∈rows

variable {f g : ρ → ρ} {rows rows' rows'' : List ρ}

theorem SameRows.refl (rows : List ρ) : SameRows rows rows := fun _ => Iff.rfl

theorem Images.refl (rows : List ρ) : Images (fun r => r) rows rows := by
  intro q
  constructor
  · exact fun hq => ⟨q,hq,rfl⟩
  · rintro ⟨r,hr,rfl⟩
    exact hr

theorem Images.trans (h : Images f rows rows') (h' : Images g rows' rows'') : Images (fun r => g (f r)) rows rows'' := by
  intro q
  rw [h' q]
  constructor
  · rintro ⟨r',hr',rfl⟩
    obtain ⟨r,hr,rfl⟩ := (h r').mp hr'
    exact ⟨r,hr,rfl⟩
  · rintro ⟨r,hr,rfl⟩
    exact ⟨f r,(h (f r)).mpr ⟨r,hr,rfl⟩,rfl⟩

/-- Only the images of the rows matter. -/
theorem Images.congr (h : Images f rows rows') (hfg : ∀ r∈rows,f r=g r) : Images g rows rows' := by
  intro q
  rw [h q]
  constructor
  · rintro ⟨r,hr,rfl⟩
    exact ⟨r,hr,(hfg r hr).symm⟩
  · rintro ⟨r,hr,rfl⟩
    exact ⟨r,hr,hfg r hr⟩

/-- What the change does not touch holds of a row as before. -/
theorem Images.any {p : ρ → Bool} (h : Images f rows rows') (hp : ∀ r,p (f r)=p r) : rows'.any p=rows.any p := by
  rw [Bool.eq_iff_iff,List.any_eq_true,List.any_eq_true]
  constructor
  · rintro ⟨q,hq,hpq⟩
    obtain ⟨r,hr,rfl⟩ := (h q).mp hq
    exact ⟨r,hr,(hp r).symm.trans hpq⟩
  · rintro ⟨r,hr,hpr⟩
    exact ⟨f r,(h (f r)).mpr ⟨r,hr,rfl⟩,(hp r).trans hpr⟩

/-- An image of a row is there. -/
theorem Images.mem (h : Images f rows rows') {r : ρ} (hr : r∈rows) : f r∈rows' := (h (f r)).mpr ⟨r,hr,rfl⟩

section Keys

variable [DecidableEq κ] {key : ρ → κ}

/-- A change of one row that is there. -/
theorem images_put {s : ρ} (p : ρ → Bool) (m : ρ → ρ) (hkeys : (rows.map key).Nodup) (hs : s∈rows) (hp : p s=true)
    (hunique : ∀ r∈rows,p r=true → key r=key s) (hkey : key (m s)=key s) :
    Images (fun r => if p r=true then m r else r) rows (put key (m s) rows) := by
  intro q
  rw [mem_put,hkey]
  constructor
  · rintro (rfl|⟨hq,hne⟩)
    · exact ⟨s,hs,if_pos hp⟩
    · exact ⟨q,hq,if_neg fun hpq => hne (hunique q hq hpq)⟩
  · rintro ⟨r,hr,rfl⟩
    dsimp only
    by_cases hpr : p r=true
    · have hrs : r=s := eq_of_key hkeys hr hs (hunique r hr hpr)
      rw [if_pos hpr,hrs]
      exact .inl rfl
    · rw [if_neg hpr]
      refine .inr ⟨hr,fun he => hpr ?_⟩
      rw [eq_of_key hkeys hr hs he]
      exact hp

end Keys

section Changes

variable {τ : Type} {core : ρ → τ}

/-- A change of rows that leaves a part of them. -/
structure Change (core : ρ → τ) where
  /-- The change. -/
  map : ρ → ρ
  /-- What it leaves. -/
  core_map : ∀ r,core (map r)=core r

/-- No change. -/
def Change.keep (core : ρ → τ) : Change core := ⟨fun r => r,fun _ => rfl⟩

/-- One change after another. -/
def Change.then (a b : Change core) : Change core := ⟨fun r => b.1 (a.1 r),fun r => (b.2 (a.1 r)).trans (a.2 r)⟩

/-- A change of some rows. -/
def Change.at (p : ρ → Bool) (m : ρ → ρ) (hm : ∀ r,p r=true → core (m r)=core r) : Change core :=
  ⟨fun r => if p r=true then m r else r,fun r => by
    split
    · exact hm r ‹_›
    · rfl⟩

/-- Changes in sequence. -/
def Change.all {ι : Type} (f : ι → Change core) : List ι → Change core
  | [] => .keep core
  | i::rest => (f i).then (Change.all f rest)

/-- A row after a sequence of changes holds what one of the changes that hit it
sets, or it is as before and none has hit it. -/
theorem all_holds {ι : Type} {f : ι → Change core} (hits holds : ι → ρ → Prop) {xs : List ι}
    (hset : ∀ i∈xs,∀ r,hits i r → holds i ((f i).1 r)) (hkept : ∀ i∈xs,∀ r,¬hits i r → (f i).1 r=r)
    (hsame : ∀ i j r,hits i ((f j).1 r) ↔ hits i r) (r : ρ) :
    (∃ i∈xs,hits i r ∧ holds i ((Change.all f xs).1 r)) ∨ (∀ i∈xs,¬hits i r) ∧ (Change.all f xs).1 r=r := by
  induction xs generalizing r with
  | nil => exact .inr ⟨fun i hi => absurd hi List.not_mem_nil,rfl⟩
  | cons i rest ih =>
    have hlater := ih (fun j hj => hset j (List.mem_cons_of_mem i hj)) (fun j hj => hkept j (List.mem_cons_of_mem i hj))
      ((f i).1 r)
    rcases hlater with ⟨j,hj,hhits,hholds⟩|⟨hnone,hlast⟩
    · exact .inl ⟨j,List.mem_cons_of_mem i hj,(hsame j i r).mp hhits,hholds⟩
    · by_cases hi : hits i r
      · refine .inl ⟨i,List.mem_cons_self,hi,?_⟩
        show holds i ((Change.all f rest).1 ((f i).1 r))
        rw [hlast]
        exact hset i List.mem_cons_self r hi
      · refine .inr ⟨fun j hj => ?_,hlast.trans (hkept i List.mem_cons_self r hi)⟩
        rcases List.mem_cons.mp hj with rfl|hj
        · exact hi
        · exact fun h => hnone j hj ((hsame j i r).mpr h)

end Changes

section Puts

variable [DecidableEq κ] (key : ρ → κ)

/-- Rows that are saved one after the other. -/
def puts (new rows : List ρ) : List ρ := new.foldl (fun rows r => put key r rows) rows

variable {key} {new : List ρ} {r : ρ}

theorem puts_append {more : List ρ} : puts key (new++more) rows=puts key more (puts key new rows) :=
  List.foldl_append

/-- A row is the last one that was saved under its key, or an old one under a
key that was not. -/
theorem mem_puts : r∈puts key new rows ↔ r∈puts key new [] ∨ r∈rows ∧ ∀ q∈new,key q≠key r := by
  induction new using List.reverseRecOn with
  | nil => simp [puts]
  | append_singleton new q ih =>
    have hlast : ∀ rows,puts key (new++[q]) rows=put key q (puts key new rows) := fun rows => puts_append
    rw [hlast,hlast,mem_put,mem_put,ih]
    simp only [List.mem_append,List.mem_singleton]
    constructor
    · rintro (rfl|⟨hold|⟨hrow,hnone⟩,hne⟩)
      · exact .inl (.inl rfl)
      · exact .inl (.inr ⟨hold,hne⟩)
      · refine .inr ⟨hrow,fun q' hq' => ?_⟩
        rcases hq' with hq'|rfl
        · exact hnone q' hq'
        · exact fun h => hne h.symm
    · rintro ((rfl|⟨hold,hne⟩)|⟨hrow,hnone⟩)
      · exact .inl rfl
      · exact .inr ⟨.inl hold,hne⟩
      · exact .inr ⟨.inr ⟨hrow,fun q' hq' => hnone q' (.inl hq')⟩,fun h => hnone q (.inr rfl) h.symm⟩

/-- What is saved is one of the new rows. -/
theorem mem_of_puts (h : r∈puts key new []) : r∈new := by
  induction new using List.reverseRecOn with
  | nil => cases h
  | append_singleton new q ih =>
    have hlast : puts key (new++[q]) []=put key q (puts key new []) := puts_append
    rw [hlast,mem_put] at h
    rcases h with rfl|⟨h,-⟩
    · exact List.mem_append_right _ List.mem_cons_self
    · exact List.mem_append_left _ (ih h)

/-- All rows under some keys are replaced: the table holds the same rows
exactly if the new ones are those that were there. -/
theorem same_puts (D : κ → Prop) {rest : List ρ} (hnew : ∀ q∈new,D (key q))
    (hrest : ∀ r,r∈rest ↔ r∈rows ∧ ¬D (key r)) :
    SameRows rows (puts key new rest) ↔ ∀ r,D (key r) → (r∈rows ↔ r∈puts key new []) := by
  constructor
  · intro hsame r hr
    rw [← hsame r,mem_puts,hrest]
    grind
  · intro h r
    rw [mem_puts,hrest]
    by_cases hr : D (key r)
    · rw [h r hr]
      grind
    · have hnone : ∀ q∈new,key q≠key r := fun q hq he => hr (he ▸ hnew q hq)
      have hnot : r∉puts key new [] := fun hmem => hr (hnew r (mem_of_puts hmem))
      grind

end Puts

section Loaded

variable {mine : ρ → Prop} {mem : List ρ}

/-- The rows of one owner have been loaded. -/
def Loaded (mine : ρ → Prop) (mem rows : List ρ) : Prop := ∀ r,r∈mem ↔ r∈rows ∧ mine r

theorem loaded_filter (p : ρ → Bool) (rows : List ρ) : Loaded (fun r => p r=true) (rows.filter p) rows :=
  fun _ => List.mem_filter

end Loaded

end NadSafe.RowImages
