import Mathlib.Data.List.GetD
import Mathlib.Data.List.Nodup
import Mathlib.Data.Set.Function

/-!
# Shuffling by swaps

Going down from the last position, every element changes places with one that
is not behind it. The sequences of such positions, and the arrangements of
distinct elements, correspond to each other one to one.
-/

namespace NadSafe.SwapShuffle

variable {α β : Type} {d : α} {l m : List α} {i j : ℕ} {js : List ℕ}

/-- Two elements change places. The default stands for one that is not there. -/
def exchange (d : α) (l : List α) (i j : ℕ) : List α := (l.set i (l.getD j d)).set j (l.getD i d)

/-- The shuffle, with the positions for the last element, for the one before
it, and so on down to the second. -/
def arrange (d : α) : List ℕ → List α → List α
  | [],l => l
  | j::js,l => arrange d js (exchange d l (js.length+1) j)

/-- No position is behind the one that it is chosen for. -/
def Draws : List ℕ → Prop
  | [] => True
  | j::js => j≤js.length+1 ∧ Draws js

instance : DecidablePred Draws := fun js => by
  induction js with
  | nil => exact isTrue trivial
  | cons j js ih => exact instDecidableAnd

@[simp] theorem length_exchange : (exchange d l i j).length=l.length := by
  rw [exchange,List.length_set,List.length_set]

@[simp] theorem length_arrange : (arrange d js l).length=l.length := by
  induction js generalizing l with
  | nil => rfl
  | cons j js ih => rw [arrange,ih,length_exchange]

end NadSafe.SwapShuffle
