import NadSafe.PlannedScript

/-!
# Scripts over one part of a larger store

A store may have a part that handlers know as their own store. Such a handler
runs over the larger store statement by statement, with the same result; it
changes its part as it would alone and leaves everything else.
-/

namespace NadSafe.PartScript

open AsyncScript AsyncScript.Script SequentialScript StoreScript PlannedScript

variable {τ σ Error α : Type}

/-- One part of a state. -/
structure Part (τ σ : Type) where
  /-- The part. -/
  get : τ → σ
  /-- The state with another part. -/
  set : τ → σ → τ
  /-- The other part is there. -/
  get_set : ∀ t s,get (set t s)=s
  /-- The last part counts. -/
  set_set : ∀ t s s',set (set t s) s'=set t s'
  /-- The same part is no change. -/
  set_get : ∀ t,set t (get t)=t

variable (part : Part τ σ)

/-- A handler of the part, over the whole state. -/
def within : Handler σ Error α → Handler τ Error α
  | .done a => .done a
  | .fail e => .fail e
  | .call .read k => .call .read fun t => within (k (part.get t))
  | .call (.write u) k =>
    .call (.write fun t => (u (part.get t)).map (part.set t)) fun accepted => within (k accepted)
  | .await k => .await fun i => within (k i)

/-- Alone, it has the same result, and the part ends in the same state. -/
theorem complete_within (p : Handler σ Error α) (t : τ) : complete (within part p) t=
    ((complete p (part.get t)).1,part.set t (complete p (part.get t)).2) := by
  induction p generalizing t with
  | done a =>
    have hsame : part.set t (part.get t)=t := part.set_get t
    exact Prod.ext rfl hsame.symm
  | fail e =>
    have hsame : part.set t (part.get t)=t := part.set_get t
    exact Prod.ext rfl hsame.symm
  | call c k ih =>
    cases c with
    | read => exact ih (part.get t) t
    | write u =>
      have hstep : complete (within part (.call (.write u) k)) t=
          complete (within part (k ((u (part.get t)).map (part.set t)).isSome))
            (((u (part.get t)).map (part.set t)).getD t) := rfl
      have hpart : complete (.call (.write u) k) (part.get t)=
          complete (k (u (part.get t)).isSome) ((u (part.get t)).getD (part.get t)) := rfl
      rw [hstep,hpart]
      cases hu : u (part.get t) with
      | none => exact ih false t
      | some s =>
        have hnext := ih true (part.set t s)
        rw [part.get_set,part.set_set] at hnext
        exact hnext
  | await k ih => exact ih _ t

variable {part}

/-- The rule for a handler of the part. -/
theorem Ends.within {P : Except Error α → τ → Prop} {p : Handler σ Error α} {t : τ}
    (h : Ends p (part.get t) fun r s => P r (part.set t s)) : Ends (PartScript.within part p) t P := by
  unfold Ends
  rw [complete_within]
  exact h

end NadSafe.PartScript
