import NadSafe.ResponseScript

/-!
# Scripts with guarded statements

A relation that every statement of a script keeps, from whatever state it is
sent. If the relation is reflexive and transitive then it holds from the
start to the end of a handler that runs alone, and of every segment of a
handler under any interference.
-/

namespace NadSafe.GuardedScript

open AsyncScript AsyncScript.Script SequentialScript StoreScript RelyScript ResponseScript

section Scripts

variable {Call : Type} {Answer : Call → Type} {Input Error α σ : Type}

/-- Every statement changes any state as `G` says. -/
def Guards (exec : ∀ c,σ → Answer c×σ) (G : σ → σ → Prop) (p : Script Call Answer Input Error α) : Prop :=
  p.Obeys (fun c => ∀ s,G s (exec c s).2) (fun _ _ => True) fun _ => True

variable {exec : ∀ c,σ → Answer c×σ} {R G : σ → σ → Prop} {s₀ s : σ}

/-- What never touches a part of the state, if that is enough. -/
theorem guards_of_frames {τ : Type} {part : σ → τ} (hG : ∀ s s',part s'=part s → G s s')
    {p : Script Call Answer Input Error α} (h : Frames exec part p) : Guards exec G p :=
  Obeys.mono h (fun _ hc s => hG _ _ (hc s)) (fun _ _ hr => hr) fun _ _ => trivial

theorem Guards.mono {G' : σ → σ → Prop} (hG : ∀ s s',G s s' → G' s s')
    {p : Script Call Answer Input Error α} (h : Guards exec G p) : Guards exec G' p :=
  Obeys.mono h (fun _ hc s => hG _ _ (hc s)) (fun _ _ hr => hr) fun _ _ => trivial

/-- Every segment keeps the relation, whatever happens in between. -/
theorem Guards.responds (hrefl : ∀ s,G s s) (htrans : ∀ a b c,G a b → G b c → G a c)
    {p : Script Call Answer Input Error α} (h : Guards exec G p) (hs : G s₀ s) :
    Responds exec R G (fun _ => G) p s₀ s := by
  induction p generalizing s₀ s with
  | done a => exact hs
  | fail e => exact hs
  | call c k ih => exact ih _ (h.2 _ trivial) (htrans _ _ _ hs (h.1 s))
  | await k ih => exact ⟨hs,fun i s' _ => ih i (h i) (hrefl s')⟩

end Scripts

section Statements

variable {σ Error α β : Type} {G : σ → σ → Prop} {s : σ}

/-- The relation holds from the start to the end. -/
theorem Guards.complete (hrefl : ∀ s,G s s) (htrans : ∀ a b c,G a b → G b c → G a c)
    {p : Handler σ Error α} (h : Guards exec G p) : G s (complete p s).2 := by
  induction p generalizing s with
  | done a => exact hrefl s
  | fail e => exact hrefl s
  | call c k ih => exact htrans _ _ _ (h.1 s) (ih _ (h.2 _ trivial))
  | await k ih => exact ih _ (h _)

theorem Guards.pure (a : α) : Guards exec G (Script.done a : Handler σ Error α) := trivial

theorem Guards.throw (e : Error) : Guards exec G (Script.fail e : Handler σ Error α) := trivial

theorem Guards.bind {p : Handler σ Error β} {f : β → Handler σ Error α} (hp : Guards exec G p)
    (hf : ∀ b,Guards exec G (f b)) : Guards exec G (p.bind f) := Obeys.bind hp fun b _ => hf b

theorem Guards.query (hrefl : ∀ s,G s s) (f : σ → α) :
    Guards exec G (StoreScript.query f : Handler σ Error α) :=
  fun _ => ⟨hrefl,fun _ _ => trivial⟩

theorem Guards.execute (hrefl : ∀ s,G s s) {message : Error} {update : σ → Option σ}
    (h : ∀ s s',update s=some s' → G s s') : Guards exec G (StoreScript.execute message update) := by
  intro _
  refine ⟨fun s => ?_,fun accepted _ => ?_⟩
  · show G s ((update s).getD s)
    cases hu : update s with
    | none => exact hrefl s
    | some s' => exact h s s' hu
  · cases accepted <;> exact trivial

theorem Guards.ensure (message : Error) (condition : Bool) :
    Guards exec G (StoreScript.ensure message condition : Handler σ Error Unit) := by
  cases condition <;> exact trivial

theorem Guards.expect (message : Error) (value : Option α) :
    Guards exec G (StoreScript.expect message value : Handler σ Error α) := by
  cases value <;> exact trivial

theorem Guards.each {xs : List β} {body : β → Handler σ Error Unit}
    (h : ∀ x∈xs,Guards exec G (body x)) : Guards exec G (StoreScript.each xs body) := by
  induction xs with
  | nil => exact trivial
  | cons x xs ih =>
    exact Guards.bind (h x List.mem_cons_self) fun _ => ih fun y hy => h y (List.mem_cons_of_mem x hy)

theorem Guards.ok {p : Handler σ Error Unit} (h : Guards exec G p) : Guards exec G (StoreScript.ok p) :=
  Obeys.rescue h fun _ => trivial

theorem Guards.ite {c : Prop} [Decidable c] {p q : Handler σ Error α} (hp : c → Guards exec G p)
    (hq : ¬c → Guards exec G q) : Guards exec G (if c then p else q) := by
  split
  · exact hp ‹_›
  · exact hq ‹_›

end Statements

end NadSafe.GuardedScript
