import Mathlib.Data.Nat.Basic

/-!
# Buffers of bounded length

A loop pushes elements to the end of a buffer while it draws from a state. It
fails exactly when the elements do not fit.
-/

namespace NadSafe.BoundedBuffers

section Buffers

variable {α σ ε : Type} {limit : ℕ} {full : ε}

/-- One more element, or a failure. -/
def push (limit : ℕ) (full : ε) (buf : List α) (x : α) : Except ε (List α) :=
  if buf.length<limit then .ok (buf++[x]) else .error full

/-- A loop of so many rounds. -/
def times (body : List α×σ → Except ε (List α×σ)) : ℕ → List α×σ → Except ε (List α×σ)
  | 0,b => .ok b
  | n+1,b => body b >>= times body n

/-- A computation that appends so many elements, or fails because they do not
fit. -/
def Appends (limit : ℕ) (full : ε) (n : ℕ) (P : List α → Prop) (b : List α×σ) (r : Except ε (List α×σ)) : Prop :=
  if b.1.length+n≤limit then ∃ block s,r=.ok (b.1++block,s) ∧ block.length=n ∧ P block else r=.error full

variable {n m : ℕ} {P Q : List α → Prop} {b : List α×σ} {r : Except ε (List α×σ)}

/-- Nothing appended. -/
theorem appends_nothing (hb : b.1.length≤limit) (hnil : P []) : Appends limit full 0 P b (.ok b) := by
  rw [Appends,Nat.add_zero,if_pos hb]
  exact ⟨[],b.2,by rw [List.append_nil],rfl,hnil⟩

theorem Appends.mono (h : Appends limit full n P b r) (hPQ : ∀ block,block.length=n → P block → Q block) :
    Appends limit full n Q b r := by
  unfold Appends at *
  split_ifs at h ⊢ with hfits
  · obtain ⟨block,s,hok,hlength,hblock⟩ := h
    exact ⟨block,s,hok,hlength,hPQ block hlength hblock⟩
  · exact h

/-- One computation behind the other. -/
theorem Appends.bind {k : List α×σ → Except ε (List α×σ)} (h : Appends limit full n P b r)
    (hk : ∀ block s,block.length=n → b.1.length+n≤limit → Appends limit full m Q (b.1++block,s) (k (b.1++block,s))) :
    Appends limit full (n+m) (fun t => ∃ x y,t=x++y ∧ P x ∧ Q y) b (r >>= k) := by
  rw [Appends] at h
  by_cases hfits : b.1.length+n≤limit
  · rw [if_pos hfits] at h
    obtain ⟨x,s,rfl,hlength,hx⟩ := h
    have hrest := hk x s hlength hfits
    rw [Appends,List.length_append,hlength,Nat.add_assoc] at hrest
    rw [Appends]
    split_ifs at hrest ⊢ with hall
    · obtain ⟨y,s',hok,hlength',hy⟩ := hrest
      refine ⟨x++y,s',?_,by rw [List.length_append,hlength,hlength'],x,y,rfl,hx,hy⟩
      rw [← List.append_assoc]
      exact hok
    · exact hrest
  · rw [if_neg hfits] at h
    rw [Appends,if_neg (by omega),h]
    rfl

/-- A push appends its element. -/
theorem appends_push {x : α} {s : σ} (hx : P [x]) :
    Appends limit full 1 P b ((push limit full b.1 x).map fun buf => (buf,s)) := by
  rw [Appends,push]
  by_cases hroom : b.1.length<limit
  · rw [if_pos hroom,if_pos (Nat.succ_le_of_lt hroom)]
    exact ⟨[x],s,rfl,rfl,hx⟩
  · rw [if_neg hroom,if_neg fun hle => hroom (Nat.lt_of_succ_le hle)]
    rfl

/-- A loop whose body appends one element of a kind. -/
theorem appends_times {body : List α×σ → Except ε (List α×σ)} {p : α → Prop}
    (hbody : ∀ b : List α×σ,b.1.length≤limit → Appends limit full 1 (fun t => ∀ x∈t,p x) b (body b)) (n : ℕ)
    (hb : b.1.length≤limit) : Appends limit full n (fun t => ∀ x∈t,p x) b (times body n b) := by
  induction n generalizing b with
  | zero => exact appends_nothing hb nofun
  | succ n ih =>
    have hboth := (hbody b hb).bind (k:=times body n) fun block s hlength hfits =>
      ih (b:=(b.1++block,s)) (by rw [List.length_append,hlength]; exact hfits)
    rw [Nat.add_comm 1 n] at hboth
    refine Appends.mono (Q:=fun t => ∀ x∈t,p x) hboth fun t _ ht x hx => ?_
    obtain ⟨front,back,rfl,hfront,hback⟩ := ht
    exact (List.mem_append.mp hx).elim (hfront x) (hback x)

end Buffers

end NadSafe.BoundedBuffers
