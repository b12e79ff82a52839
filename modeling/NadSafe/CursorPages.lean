import Mathlib.Data.List.Count
import Mathlib.Data.List.Perm.Subperm
import Mathlib.Data.List.Sort
import Mathlib.Order.Lattice

/-!
# Pages that end where the next one begins

Rows with a key are read from the greatest key down, a bounded number of rows
at a time. A full page names the key of its last row, cut to a coarser one,
and the next request begins there, so that rows may be read again. The
requests come to an end exactly if no coarse key is shared by as many rows as
fit on a page. Then every row is read once or twice, unless a page ends within
its coarse key and leaves it out, also if rows are added between the requests.
-/

namespace NadSafe.CursorPages

variable {α κ : Type}

/-- Where the next page begins. -/
def token (key : α → κ) (cut : κ → κ) (size : ℕ) (page : List α) : Option κ :=
  if page.length=size then page.getLast?.map fun x => cut (key x) else none

/-- The pages of at most `fuel` requests, and whether the last one has ended
them. Each request reads the rows on its own. -/
def pages (key : α → κ) (cut : κ → κ) (size : ℕ) (read : ℕ → κ → List α) : ℕ → ℕ → κ → List (List α)×Bool
  | 0,_,_ => ([],false)
  | fuel+1,i,bound =>
    match token key cut size ((read i bound).take size) with
    | none => ([(read i bound).take size],true)
    | some next => ((read i bound).take size::(pages key cut size read fuel (i+1) next).1,
        (pages key cut size read fuel (i+1) next).2)

theorem pages_last {key : α → κ} {cut : κ → κ} {size fuel i : ℕ} {read : ℕ → κ → List α} {bound : κ}
    (h : token key cut size ((read i bound).take size)=none) :
    pages key cut size read (fuel+1) i bound=([(read i bound).take size],true) := by
  rw [pages]
  simp only [h]

theorem pages_next {key : α → κ} {cut : κ → κ} {size fuel i : ℕ} {read : ℕ → κ → List α} {bound next : κ}
    (h : token key cut size ((read i bound).take size)=some next) :
    pages key cut size read (fuel+1) i bound=
      ((read i bound).take size::(pages key cut size read fuel (i+1) next).1,
        (pages key cut size read fuel (i+1) next).2) := by
  rw [pages]
  simp only [h]

/-- A page that names no key is the last one. -/
theorem take_of_no_token {key : α → κ} {cut : κ → κ} {size : ℕ} {rows : List α} {x : α} (hsize : 0<size)
    (h : token key cut size (rows.take size)=none) (hx : x∈rows) : x∈rows.take size := by
  have hshort : (rows.take size).length≠size := by
    intro hlength
    unfold token at h
    rw [if_pos hlength,Option.map_eq_none_iff,List.getLast?_eq_none_iff] at h
    rw [h,List.length_nil] at hlength
    omega
  rw [List.length_take] at hshort
  rwa [List.take_of_length_le (by omega)]

/-- A full page, its last row and the key that it names. -/
theorem token_eq_some {key : α → κ} {cut : κ → κ} {size : ℕ} {page : List α} {next : κ}
    (h : token key cut size page=some next) : page.length=size ∧ ∃ y,page.getLast?=some y ∧ cut (key y)=next := by
  unfold token at h
  split at h
  case isTrue hlength => exact ⟨hlength,Option.map_eq_some_iff.mp h⟩
  case isFalse => cases h

variable [LinearOrder κ]

/-- Keys are cut to coarser ones, which are the least of those cut to them. -/
structure Cuts (cut : κ → κ) : Prop where
  /-- A coarse key comes first. -/
  le : ∀ k,cut k ≤ k
  /-- It is cut to itself. -/
  again : ∀ k,cut (cut k)=cut k
  /-- Order. -/
  mono : Monotone cut

/-- A key that is not above a coarse key is not above a key cut to it. -/
theorem Cuts.le_cut {cut : κ → κ} (hcut : Cuts cut) {k l : κ} (hk : cut k=k) (h : k ≤ l) : k ≤ cut l := by
  rw [← hk]
  exact hcut.mono h

/-- Rows from the greatest key down. -/
def Descending (key : α → κ) (rows : List α) : Prop := rows.Pairwise fun x y => key y ≤ key x

/-- The rows of a table up to a key, from the greatest key down; rows of one
key come in any order. -/
structure Sorted (key : α → κ) (table : List α) (bound : κ) (rows : List α) : Prop where
  /-- Order. -/
  descending : Descending key rows
  /-- Rows. -/
  perm : rows.Perm (table.filter fun x => key x ≤ bound)

/-- A row that a full page leaves out although the next page begins below it. -/
def Lost (key : α → κ) (cut : κ → κ) (size : ℕ) (page : List α) (x : α) : Prop :=
  x∉page ∧ page.length=size ∧ ∃ y,page.getLast?=some y ∧ cut (key y)<key x ∧ key x ≤ key y

section Page

variable {key : α → κ} {cut : κ → κ} {size : ℕ} {table rows : List α} {bound next : κ} {x : α}

theorem Sorted.mem_iff (hrows : Sorted key table bound rows) : x∈rows ↔ x∈table ∧ key x ≤ bound := by
  rw [hrows.perm.mem_iff,List.mem_filter,decide_eq_true_eq]

theorem Sorted.of_take (hrows : Sorted key table bound rows) (h : x∈rows.take size) : x∈table ∧ key x ≤ bound :=
  hrows.mem_iff.mp (List.mem_of_mem_take h)

theorem token_le (hcut : Cuts cut) (hrows : Sorted key table bound rows)
    (h : token key cut size (rows.take size)=some next) : next ≤ bound := by
  obtain ⟨-,y,hy,rfl⟩ := token_eq_some h
  exact (hcut.le _).trans (hrows.of_take (List.mem_of_getLast? hy)).2

/-- All rows of a page come from its last one up. -/
theorem last_le_key (hrows : Descending key rows) {y : α} (hy : (rows.take size).getLast?=some y)
    (hx : x∈rows.take size) : key y ≤ key x := by
  have hsorted : Descending key (rows.take size) := hrows.sublist (List.take_sublist _ _)
  obtain ⟨before,hbefore⟩ := List.getLast?_eq_some_iff.mp hy
  rw [hbefore] at hsorted hx
  rcases List.mem_append.mp hx with hx|hx
  · exact (List.pairwise_append.mp hsorted).2.2 x hx y (List.mem_singleton_self y)
  · rw [List.mem_singleton.mp hx]

/-- And so from the key that it names up. -/
theorem token_le_key (hcut : Cuts cut) (hrows : Descending key rows)
    (h : token key cut size (rows.take size)=some next) (hx : x∈rows.take size) : next ≤ key x := by
  obtain ⟨-,y,hy,rfl⟩ := token_eq_some h
  exact (hcut.le _).trans (last_le_key hrows hy hx)

/-- A row above the last one of a page is on it. -/
theorem take_of_lt (hrows : Descending key rows) {y : α} (hy : (rows.take size).getLast?=some y) (hx : x∈rows)
    (hlt : key y<key x) : x∈rows.take size := by
  have hlast : y∈rows.take size := List.mem_of_getLast? hy
  unfold Descending at hrows
  rw [← List.take_append_drop size rows] at hx hrows
  rcases List.mem_append.mp hx with hx|hx
  · exact hx
  · have hle := (List.pairwise_append.mp hrows).2.2 y hlast x hx
    exact absurd hlt (not_lt.mpr hle)

end Page

section Complete

variable {key : α → κ} {cut : κ → κ} {size : ℕ} {table : ℕ → List α} {read : ℕ → κ → List α}

/-- What stays and is in range is read or lost, if the requests come to an end,
while rows are added and others removed. -/
theorem mem_pages (hsize : 0<size) (hread : ∀ i bound,Sorted key (table i) bound (read i bound)) {x : α}
    (hx : ∀ i,x∈table i) {fuel i : ℕ} {bound : κ} (h : (pages key cut size read fuel i bound).2=true)
    (hbound : key x ≤ bound) :
    (∃ p∈(pages key cut size read fuel i bound).1,x∈p) ∨
      ∃ p∈(pages key cut size read fuel i bound).1,Lost key cut size p x := by
  induction fuel generalizing i bound with
  | zero => cases h
  | succ fuel ih =>
    have hmem : x∈read i bound := (hread i bound).mem_iff.mpr ⟨hx i,hbound⟩
    cases htoken : token key cut size ((read i bound).take size) with
    | none =>
      rw [pages_last htoken]
      exact .inl ⟨_,List.mem_singleton_self _,take_of_no_token hsize htoken hmem⟩
    | some next =>
      rw [pages_next htoken] at h ⊢
      by_cases hpage : x∈(read i bound).take size
      · exact .inl ⟨_,List.mem_cons_self,hpage⟩
      obtain ⟨hlength,y,hy,hnext⟩ := token_eq_some htoken
      have hle : key x ≤ key y := not_lt.mp fun hlt => hpage (take_of_lt (hread i bound).descending hy hmem hlt)
      rcases lt_or_ge next (key x) with hlt|hge
      · rw [← hnext] at hlt
        exact .inr ⟨_,List.mem_cons_self,hpage,hlength,y,hy,hlt,hle⟩
      · rcases ih h hge with ⟨p,hp,hxp⟩|⟨p,hp,hxp⟩
        · exact .inl ⟨p,List.mem_cons_of_mem _ hp,hxp⟩
        · exact .inr ⟨p,List.mem_cons_of_mem _ hp,hxp⟩

/-- Nothing else is read. -/
theorem of_mem_pages (hcut : Cuts cut) (hread : ∀ i bound,Sorted key (table i) bound (read i bound)) {fuel i : ℕ}
    {bound : κ} {p : List α} (hp : p∈(pages key cut size read fuel i bound).1) {x : α} (hx : x∈p) :
    key x ≤ bound ∧ ∃ j, i ≤ j ∧ x∈table j := by
  induction fuel generalizing i bound with
  | zero => cases hp
  | succ fuel ih =>
    cases htoken : token key cut size ((read i bound).take size) with
    | none =>
      rw [pages_last htoken,List.mem_singleton] at hp
      subst hp
      obtain ⟨hmem,hle⟩ := (hread i bound).of_take hx
      exact ⟨hle, i,le_rfl,hmem⟩
    | some next =>
      rw [pages_next htoken] at hp
      rcases List.mem_cons.mp hp with rfl|hp
      · obtain ⟨hmem,hle⟩ := (hread i bound).of_take hx
        exact ⟨hle, i,le_rfl,hmem⟩
      · obtain ⟨hle,j,hj,hmem⟩ := ih hp
        exact ⟨hle.trans (token_le hcut (hread i bound) htoken),j,by omega,hmem⟩

/-- A lost row is on no page, before or after. -/
theorem lost_not_mem (hcut : Cuts cut) (hread : ∀ i bound,Sorted key (table i) bound (read i bound)) {fuel i : ℕ}
    {bound : κ} {x : α} {p : List α} (hp : p∈(pages key cut size read fuel i bound).1) (hlost : Lost key cut size p x)
    {p' : List α} (hp' : p'∈(pages key cut size read fuel i bound).1) : x∉p' := by
  induction fuel generalizing i bound with
  | zero => cases hp
  | succ fuel ih =>
    cases htoken : token key cut size ((read i bound).take size) with
    | none =>
      rw [pages_last htoken,List.mem_singleton] at hp hp'
      rw [hp',← hp]
      exact hlost.1
    | some next =>
      rw [pages_next htoken] at hp hp'
      obtain ⟨-,-,y,hy,hlt,hle⟩ := id hlost
      rcases List.mem_cons.mp hp with rfl|hp
      · rcases List.mem_cons.mp hp' with rfl|hp'
        · exact hlost.1
        · intro hx
          obtain ⟨-,z,hz,hnext⟩ := token_eq_some htoken
          rw [hy] at hz
          cases hz
          have hbound := (of_mem_pages hcut hread hp' hx).1
          rw [← hnext] at hbound
          exact absurd hbound (not_le.mpr hlt)
      · rcases List.mem_cons.mp hp' with rfl|hp'
        · -- the row would have the key that the page names, which is coarse
          intro hx
          have hfirst := token_le_key hcut (hread i bound).descending htoken hx
          have hlater := (of_mem_pages hcut hread hp (List.mem_of_getLast? hy)).1
          obtain ⟨-,z,-,hnext⟩ := token_eq_some htoken
          have hsame : key y=next := le_antisymm hlater (hfirst.trans hle)
          have hcoarse : cut (key y)=key y := by rw [hsame,← hnext,hcut.again]
          rw [hcoarse] at hlt
          exact absurd hle (not_le.mpr hlt)
        · exact ih hp hp'

end Complete

section Ending

variable {key : α → κ} {cut : κ → κ} {size : ℕ} {table rows : List α} {bound next : κ}

/-- How many rows share a key. -/
def shared (key : α → κ) (rows : List α) (k : κ) : ℕ := rows.countP fun x => key x=k

/-- The rows of a key up to a bound are all of them. -/
theorem Sorted.shared_eq (hrows : Sorted key table bound rows) {k : κ} (hk : k ≤ bound) :
    shared key rows k=shared key table k := by
  unfold shared
  rw [hrows.perm.countP_eq,List.countP_filter]
  refine List.countP_congr fun x _ => ?_
  simp only [Bool.and_eq_true,decide_eq_true_eq]
  exact ⟨fun h => h.1,fun h => ⟨h,h.trans_le hk⟩⟩

/-- A row above the key that a page names, unless the key is shared by as many
rows as fit on a page. -/
theorem exists_above (hcut : Cuts cut) (hrows : Sorted key table bound rows)
    (h : token key cut size (rows.take size)=some next) (hshared : shared key table next<size) :
    ∃ x∈table,key x ≤ bound ∧ next<key x := by
  by_contra hno
  push Not at hno
  obtain ⟨hlength,-⟩ := token_eq_some h
  have hall : ∀ x∈rows.take size,key x=next := by
    intro x hx
    obtain ⟨hmem,hle⟩ := hrows.of_take hx
    exact le_antisymm (hno x hmem hle) (token_le_key hcut hrows.descending h hx)
  have hcount : (rows.take size).countP (fun x => key x=next)=(rows.take size).length :=
    List.countP_eq_length.mpr fun x hx => decide_eq_true (hall x hx)
  have hle := (List.take_sublist size rows).countP_le (p:=fun x => key x=next)
  have hsame := hrows.shared_eq (token_le hcut hrows h)
  unfold shared at hshared hsame
  omega

/-- A coarse key that as many rows share as fit on a page is named, or a
greater one. -/
theorem le_token (hcut : Cuts cut) (hrows : Sorted key table bound rows) (hsize : 0<size) {k : κ} (hcoarse : cut k=k)
    (hshared : size ≤ shared key table k) (hk : k ≤ bound) :
    ∃ next,token key cut size (rows.take size)=some next ∧ k ≤ next := by
  have hsame := hrows.shared_eq hk
  have hlong : size ≤ rows.length := by
    have hle := List.countP_le_length (p:=fun x => decide (key x=k)) (l:=rows)
    unfold shared at hsame hshared
    omega
  have hlength : (rows.take size).length=size := by
    rw [List.length_take]
    omega
  obtain ⟨y,hy⟩ : ∃ y,(rows.take size).getLast?=some y := by
    rw [← Option.isSome_iff_exists,List.getLast?_isSome,← List.length_pos_iff]
    omega
  have htoken : token key cut size (rows.take size)=some (cut (key y)) := by
    unfold token
    rw [if_pos hlength,hy]
    rfl
  refine ⟨cut (key y),htoken,hcut.le_cut hcoarse (not_lt.mp fun hlt => ?_)⟩
  have hdrop : (rows.drop size).countP (fun x => key x=k)=0 := by
    refine List.countP_eq_zero.mpr fun x hx => ?_
    have hsorted := hrows.descending
    unfold Descending at hsorted
    rw [← List.take_append_drop size rows] at hsorted
    have hle := (List.pairwise_append.mp hsorted).2.2 y (List.mem_of_getLast? hy) x hx
    simpa using (hle.trans_lt hlt).ne
  have htake : (rows.take size).countP (fun x => key x=k)<(rows.take size).length := by
    rw [List.countP_lt_length_iff]
    exact ⟨y,List.mem_of_getLast? hy,by simpa using hlt.ne⟩
  have hsum : rows.countP (fun x => key x=k)=
      (rows.take size).countP (fun x => key x=k)+(rows.drop size).countP fun x => key x=k := by
    rw [← List.countP_append,List.take_append_drop]
  unfold shared at hshared hsame
  omega

/-- Fewer rows come up to a key that is below one of them. -/
theorem countP_le_lt {x : α} (hle : next ≤ bound) (hx : x∈table) (hbound : key x ≤ bound) (hlt : next<key x) :
    table.countP (fun x => key x ≤ next)<table.countP fun x => key x ≤ bound := by
  have hfilter : (table.filter fun x => key x ≤ bound).countP (fun x => key x ≤ next)=
      table.countP fun x => key x ≤ next := by
    rw [List.countP_filter]
    refine List.countP_congr fun y _ => ?_
    simp only [Bool.and_eq_true,decide_eq_true_eq]
    exact ⟨fun h => h.1,fun h => ⟨h,h.trans hle⟩⟩
  rw [← hfilter,List.countP_eq_length_filter (p:=fun x => decide (key x ≤ bound)),List.countP_lt_length_iff]
  refine ⟨x,?_,by simpa using hlt⟩
  rw [List.mem_filter,decide_eq_true_eq]
  exact ⟨hx,hbound⟩

variable {read : ℕ → κ → List α}

/-- A coarse key that as many rows always share as fit on a page is read for
ever. -/
theorem pages_not_ending {table : ℕ → List α} (hcut : Cuts cut) (hsize : 0<size)
    (hread : ∀ i bound,Sorted key (table i) bound (read i bound)) {k : κ} (hcoarse : cut k=k)
    (hshared : ∀ i,size ≤ shared key (table i) k) {fuel i : ℕ} (hk : k ≤ bound) :
    (pages key cut size read fuel i bound).2=false := by
  induction fuel generalizing i bound with
  | zero => rfl
  | succ fuel ih =>
    obtain ⟨next,htoken,hle⟩ := le_token hcut (hread i bound) hsize hcoarse (hshared i) hk
    rw [pages_next htoken]
    exact ih hle

/-- The key that a page names is coarse and in range. -/
theorem shared_token_lt (hcut : Cuts cut) (hrows : Sorted key table bound rows)
    (hshared : ∀ k ≤ bound,cut k=k → shared key table k<size) (h : token key cut size (rows.take size)=some next) :
    shared key table next<size := by
  refine hshared next (token_le hcut hrows h) ?_
  obtain ⟨-,y,-,rfl⟩ := token_eq_some h
  exact hcut.again _

/-- If no coarse key is shared by that many rows, then fewer rows are left with
each request. -/
theorem pages_ending (hcut : Cuts cut) (hread : ∀ i bound,Sorted key table bound (read i bound))
    (hshared : ∀ k ≤ bound,cut k=k → shared key table k<size) {fuel i : ℕ}
    (hfuel : table.countP (fun x => key x ≤ bound)<fuel) : (pages key cut size read fuel i bound).2=true := by
  induction fuel generalizing i bound with
  | zero => omega
  | succ fuel ih =>
    cases htoken : token key cut size ((read i bound).take size) with
    | none => rw [pages_last htoken]
    | some next =>
      rw [pages_next htoken]
      have hle := token_le hcut (hread i bound) htoken
      obtain ⟨x,hx,hxbound,hlt⟩ :=
        exists_above hcut (hread i bound) htoken (shared_token_lt hcut (hread i bound) hshared htoken)
      have hfewer := countP_le_lt hle hx hxbound hlt
      exact ih (fun k hk => hshared k (hk.trans hle)) (by omega)

/-- The requests come to an end exactly if no coarse key in range is shared by
as many rows as fit on a page. -/
theorem pages_ending_iff (hcut : Cuts cut) (hsize : 0<size) (hread : ∀ i bound,Sorted key table bound (read i bound)) :
    (∃ fuel,(pages key cut size read fuel 0 bound).2=true) ↔ ∀ k ≤ bound,cut k=k → shared key table k<size := by
  constructor
  · rintro ⟨fuel,hends⟩ k hk hcoarse
    by_contra hshared
    rw [pages_not_ending hcut hsize hread hcoarse (fun _ => not_lt.mp hshared) hk] at hends
    cases hends
  · exact fun hshared => ⟨_,pages_ending hcut hread hshared (Nat.lt_succ_self _)⟩

/-- A row above the bound is not read, one at the bound at most once, and any
other at most twice. -/
theorem count_pages_le [DecidableEq α] (hcut : Cuts cut) (hread : ∀ i bound,Sorted key table bound (read i bound))
    (hnodup : table.Nodup) (hshared : ∀ k ≤ bound,cut k=k → shared key table k<size) {fuel i : ℕ} (x : α) :
    (pages key cut size read fuel i bound).1.flatten.count x ≤
      if bound<key x then 0 else if key x=bound then 1 else 2 := by
  induction fuel generalizing i bound with
  | zero => simp [pages]
  | succ fuel ih =>
    have hrows := hread i bound
    have hone : ((read i bound).take size).count x ≤ 1 := by
      have hnodup : (read i bound).Nodup := hrows.perm.nodup_iff.mpr (hnodup.filter _)
      exact List.nodup_iff_count_le_one.mp ((List.take_sublist _ _).nodup hnodup) x
    have habove : bound<key x → ((read i bound).take size).count x=0 := by
      intro hlt
      refine List.count_eq_zero.mpr fun hx => ?_
      exact absurd hlt (not_lt.mpr (hrows.of_take hx).2)
    cases htoken : token key cut size ((read i bound).take size) with
    | none =>
      rw [pages_last htoken,List.flatten_cons,List.flatten_nil,List.append_nil]
      split
      · rw [habove ‹_›]
      split <;> omega
    | some next =>
      rw [pages_next htoken,List.flatten_cons,List.count_append]
      have hle := token_le hcut hrows htoken
      obtain ⟨y,-,hybound,hlt⟩ := exists_above hcut hrows htoken (shared_token_lt hcut hrows hshared htoken)
      have hnext := ih (i:=i+1) fun k hk => hshared k (hk.trans hle)
      have hbelow : key x<next → ((read i bound).take size).count x=0 := by
        intro hx
        refine List.count_eq_zero.mpr fun hmem => ?_
        exact absurd hx (not_lt.mpr (token_le_key hcut hrows.descending htoken hmem))
      have hstrict : next<bound := hlt.trans_le hybound
      rcases lt_trichotomy (key x) next with hx|hx|hx
      · rw [hbelow hx]
        rw [if_neg (not_lt.mpr hx.le),if_neg hx.ne] at hnext
        rw [if_neg (not_lt.mpr (hx.trans hstrict).le),if_neg (hx.trans hstrict).ne]
        omega
      · rw [if_neg (not_lt.mpr hx.le),if_pos hx] at hnext
        rw [if_neg (not_lt.mpr (hx.trans_lt hstrict).le),if_neg (hx.trans_lt hstrict).ne]
        omega
      · rw [if_pos hx] at hnext
        split
        · rw [habove ‹_›]
          omega
        split <;> omega

end Ending

end NadSafe.CursorPages
