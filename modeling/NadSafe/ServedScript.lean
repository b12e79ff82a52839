import NadSafe.FulfilledScript

/-!
# Scripts whose requests are answered

Some calls of a script ask its environment for something, and the next
arrival is the reply. A contract of uninterrupted runs that assumes a good
reply to every such call and an accepted arrival at every other suspension,
the condition on a stream of arrivals that it talks about, and the proof that
some stream satisfies this condition.
-/

namespace NadSafe.ServedScript

open AsyncScript SequentialScript FulfilledScript

variable {Call : Type} {Answer : Call → Type} {Input Error α β σ : Type}

/-- An environment: which calls ask, which arrivals are good replies and
which are accepted elsewhere. -/
structure Service (Call Input : Type) where
  /-- The call asks for a reply. -/
  asks : Call → Bool
  /-- A good reply. -/
  reply : Input → Prop
  /-- An accepted arrival. -/
  accepts : Input → Prop

/-- What may arrive at a suspension. -/
def Service.arrives (service : Service Call Input) (asked : Bool) (input : Input) : Prop :=
  if asked=true then service.reply input else service.accepts input

section Contract

variable (exec : ∀ c, σ → Answer c×σ) (service : Service Call Input)

/-- Every run whose arrivals are as the service promises completes with `Q`
and has received every reply. -/
def Serves (Q : α → σ → Prop) : Script Call Answer Input Error α → Bool → σ → Prop
  | .done a,asked,s => asked=false ∧ Q a s
  | .fail _,_,_ => False
  | .call c k,asked,s => Serves Q (k (exec c s).1) (asked || service.asks c) (exec c s).2
  | .await k,asked,s => ∀ i : Arrival Input,service.arrives asked i.value → Serves Q (k i) false s

/-- A stream of arrivals is as the service promises. -/
def Served : Script Call Answer Input Error α → Bool → (ℕ → Arrival Input) → σ → Prop
  | .done _,_,_,_ => True
  | .fail _,_,_,_ => True
  | .call c k,asked,arrivals,s =>
    Served (k (exec c s).1) (asked || service.asks c) arrivals (exec c s).2
  | .await k,asked,arrivals,s => service.arrives asked (arrivals 0).value ∧
      Served (k (arrivals 0)) false (fun n => arrivals (n+1)) s

end Contract

variable {exec : ∀ c, σ → Answer c×σ} {service : Service Call Input} {Q : α → σ → Prop} {asked : Bool}

/-- A result may be weakened. -/
theorem Serves.mono {Q' : α → σ → Prop} {p : Script Call Answer Input Error α} {s : σ}
    (h : Serves exec service Q p asked s) (hQ : ∀ a s,Q a s → Q' a s) :
    Serves exec service Q' p asked s := by
  induction p generalizing s asked with
  | done a => exact ⟨h.1,hQ a s h.2⟩
  | fail e => exact h
  | call c k ih => exact ih _ h
  | await k ih => exact fun i hi => ih i (h i hi)

/-- A sequence continues with what its first part completes with. -/
theorem Serves.bind {R : β → σ → Prop} {p : Script Call Answer Input Error α}
    {f : α → Script Call Answer Input Error β} {s : σ} (h : Serves exec service Q p asked s)
    (hf : ∀ a s,Q a s → Serves exec service R (f a) false s) :
    Serves exec service R (p.bind f) asked s := by
  induction p generalizing s asked with
  | done a =>
    obtain ⟨rfl,hQ⟩ := h
    exact hf a s hQ
  | fail e => exact absurd h id
  | call c k ih => exact ih _ h
  | await k ih => exact fun i hi => ih i (h i hi)

/-- A handler is not reached. -/
theorem Serves.rescue {p : Script Call Answer Input Error α}
    {handler : Error → Script Call Answer Input Error α} {s : σ}
    (h : Serves exec service Q p asked s) : Serves exec service Q (p.rescue handler) asked s := by
  induction p generalizing s asked with
  | done a => exact h
  | fail e => exact absurd h id
  | call c k ih => exact ih _ h
  | await k ih => exact fun i hi => ih i (h i hi)

/-- A script that asks for nothing completes with what it yields. -/
theorem Serves.of_yields {pre : Call → Prop} {post : ∀ c, Answer c → Prop} {R : α → Prop} {I : σ → Prop}
    (hcall : ∀ c s,I s → pre c → service.asks c=false ∧ post c (exec c s).1 ∧ I (exec c s).2)
    {p : Script Call Answer Input Error α} (hp : Yields pre post service.accepts R p) {s : σ} (hs : I s) :
    Serves exec service (fun a s => R a ∧ I s) p false s := by
  induction p generalizing s with
  | done a => exact ⟨rfl,hp,hs⟩
  | fail e => exact absurd hp id
  | call c k ih =>
    obtain ⟨hasks,hpost,hI⟩ := hcall c s hs hp.1
    rw [Serves,hasks,Bool.or_false]
    exact ih _ (hp.2 _ hpost) hI
  | await k ih => exact fun i hi => ih i (hp i hi) hs

/-- A served run completes as promised. -/
theorem Serves.play {p : Script Call Answer Input Error α} {arrivals : ℕ → Arrival Input} {s : σ}
    (h : Serves exec service Q p asked s) (hserved : Served exec service p asked arrivals s) :
    ∃ a,(SequentialScript.play exec p arrivals s).1=.ok a ∧
      Q a (SequentialScript.play exec p arrivals s).2 := by
  induction p generalizing arrivals s asked with
  | done a => exact ⟨a,rfl,h.2⟩
  | fail e => exact absurd h id
  | call c k ih => exact ih _ h hserved
  | await k ih => exact ih _ (h _ hserved.1) hserved.2

/-- Some stream of arrivals is as the service promises. -/
theorem exists_served (hreply : ∃ input,service.reply input) (haccepts : ∃ input,service.accepts input)
    (p : Script Call Answer Input Error α) (asked : Bool) (s : σ) :
    ∃ arrivals,Served exec service p asked arrivals s := by
  have hnext (asked : Bool) : ∃ input,service.arrives asked input := by
    cases asked with
    | false => exact haccepts
    | true => exact hreply
  induction p generalizing s asked with
  | done a =>
    obtain ⟨input,-⟩ := haccepts
    exact ⟨fun _ => ⟨[],input⟩,trivial⟩
  | fail e =>
    obtain ⟨input,-⟩ := haccepts
    exact ⟨fun _ => ⟨[],input⟩,trivial⟩
  | call c k ih => exact ih _ _ _
  | await k ih =>
    obtain ⟨input,hinput⟩ := hnext asked
    obtain ⟨arrivals,harrivals⟩ := ih ⟨[],input⟩ false s
    exact ⟨arrivalsCons ⟨[],input⟩ arrivals,hinput,harrivals⟩

end NadSafe.ServedScript
