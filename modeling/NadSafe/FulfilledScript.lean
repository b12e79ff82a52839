import NadSafe.SequentialScript
import Mathlib.Data.List.Forall2

/-!
# Scripts whose promises are fulfilled

A contract of the text of a script that excludes rejection: when every
arrival is of an accepted kind, the script makes only allowed calls and
completes with a result of the required form. The rules follow the text, as
those of `Obeys` do, through sequences and merges.
-/

namespace NadSafe.FulfilledScript

open AsyncScript SequentialScript

variable {Call : Type} {Answer : Call → Type} {Input Error α β σ : Type}

/-- The script makes only calls in `pre`, as long as every answer satisfies
`post`, and completes with a result in `Q` when every arrival is in `ok`. -/
def Yields (pre : Call → Prop) (post : ∀ c, Answer c → Prop) (ok : Input → Prop) (Q : α → Prop) :
    Script Call Answer Input Error α → Prop
  | .done a => Q a
  | .fail _ => False
  | .call c k => pre c ∧ ∀ r,post c r → Yields pre post ok Q (k r)
  | .await k => ∀ i : Arrival Input,ok i.value → Yields pre post ok Q (k i)

variable {pre : Call → Prop} {post : ∀ c, Answer c → Prop} {ok : Input → Prop} {Q : α → Prop}

/-- A call answers as assumed. -/
theorem Yields.perform {c : Call} (h : pre c) :
    Yields pre post ok (post c) (Script.perform c : Script Call Answer Input Error (Answer c)) :=
  ⟨h,fun _ hr => hr⟩

/-- A suspension yields an accepted arrival. -/
theorem Yields.suspend :
    Yields pre post ok ok (Script.suspend : Script Call Answer Input Error Input) :=
  fun _ hi => hi

/-- A result may be weakened. -/
theorem Yields.mono {Q' : α → Prop} {p : Script Call Answer Input Error α}
    (h : Yields pre post ok Q p) (hQ : ∀ a,Q a → Q' a) : Yields pre post ok Q' p := by
  induction p with
  | done a => exact hQ a h
  | fail e => exact h
  | call c k ih => exact ⟨h.1,fun r hr => ih r (h.2 r hr)⟩
  | await k ih => exact fun i hi => ih i (h i hi)

/-- A sequence continues with what its first part yields. -/
theorem Yields.bind {R : β → Prop} {p : Script Call Answer Input Error α}
    {f : α → Script Call Answer Input Error β} (h : Yields pre post ok Q p)
    (hf : ∀ a,Q a → Yields pre post ok R (f a)) : Yields pre post ok R (p.bind f) := by
  induction p with
  | done a => exact hf a h
  | fail e => exact absurd h id
  | call c k ih => exact ⟨h.1,fun r hr => ih r (h.2 r hr)⟩
  | await k ih => exact fun i hi => ih i (h i hi)

/-- A handler is not reached. -/
theorem Yields.rescue {p : Script Call Answer Input Error α}
    {handler : Error → Script Call Answer Input Error α} (h : Yields pre post ok Q p) :
    Yields pre post ok Q (p.rescue handler) := by
  induction p with
  | done a => exact h
  | fail e => exact absurd h id
  | call c k ih => exact ⟨h.1,fun r hr => ih r (h.2 r hr)⟩
  | await k ih => exact fun i hi => ih i (h i hi)

theorem Yields.bothParked {R : β → Prop} {k : Arrival Input → Script Call Answer Input Error α}
    {resumeLeft : Arrival Input → Script Call Answer Input Error β →
      Script Call Answer Input Error (α×β)} {q : Script Call Answer Input Error β}
    (hk : ∀ i : Arrival Input,ok i.value → Yields pre post ok Q (k i)) (hq : Yields pre post ok R q)
    (hl : ∀ (i : Arrival Input) q',ok i.value → Yields pre post ok R q' →
      Yields pre post ok (fun r => Q r.1 ∧ R r.2) (resumeLeft i q')) :
    Yields pre post ok (fun r => Q r.1 ∧ R r.2) (Script.bothParked k resumeLeft q) := by
  induction q with
  | done b => exact fun i hi => (hk i hi).bind fun a ha => ⟨ha,hq⟩
  | fail e => exact absurd hq id
  | call c next ih => exact ⟨hq.1,fun r hr => ih r (hq.2 r hr)⟩
  | await next ih =>
    intro i hi
    dsimp only
    split
    · exact hl i.inner (.await next) hi hq
    · exact ih i.inner (hq i.inner hi)

/-- Both parts of a merge yield their results, in every interleaving. -/
theorem Yields.both {R : β → Prop} {p : Script Call Answer Input Error α}
    {q : Script Call Answer Input Error β} (hp : Yields pre post ok Q p)
    (hq : Yields pre post ok R q) : Yields pre post ok (fun r => Q r.1 ∧ R r.2) (p.both q) := by
  induction p generalizing q with
  | done a => exact hq.bind fun b hb => ⟨hp,hb⟩
  | fail e => exact absurd hp id
  | call c k ih => exact ⟨hp.1,fun r hr => ih r (hp.2 r hr) hq⟩
  | await k ih => exact Yields.bothParked hp hq fun i q' hi hq' => ih i (hp i hi) hq'

/-- `Promise.all` yields one result for each entry, in order. The entries may
be known through other data that stands in a relation to them. -/
theorem Yields.all {γ δ : Type} {P : γ → δ → Prop} {R : γ → α → Prop}
    {f : δ → Script Call Answer Input Error α} {xs : List γ} {ys : List δ} (hp : List.Forall₂ P xs ys)
    (h : ∀ x y,P x y → Yields pre post ok (R x) (f y)) :
    Yields pre post ok (List.Forall₂ R xs) (Script.all (ys.map f)) := by
  induction hp with
  | nil => exact List.Forall₂.nil
  | cons hxy hrest ih =>
    exact ((h _ _ hxy).both ih).bind fun r hr => List.Forall₂.cons hr.1 hr.2

/-- In a state that keeps an invariant, the script ensures its result. -/
theorem Yields.ensures {exec : ∀ c, σ → Answer c×σ} {I : σ → Prop}
    (hcall : ∀ c s,I s → pre c → post c (exec c s).1 ∧ I (exec c s).2)
    {p : Script Call Answer Input Error α} (hp : Yields pre post ok Q p) {s : σ} (hs : I s) :
    Ensures exec (fun i => ok i.value) (fun a s => Q a ∧ I s) (fun _ => False) p s := by
  induction p generalizing s with
  | done a => exact ⟨hp,hs⟩
  | fail e => exact absurd hp id
  | call c k ih =>
    have hc := hcall c s hs hp.1
    exact ih _ (hp.2 _ hc.1) hc.2
  | await k ih => exact fun i hi => ih i (hp i hi) hs

end NadSafe.FulfilledScript
