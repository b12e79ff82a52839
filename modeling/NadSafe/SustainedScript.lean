import NadSafe.ResponseScript

/-!
# Scripts that sustain an invariant

An invariant of the state that every statement of a script keeps, if whatever
the script has read was read from states with the invariant. The state that a
statement is sent to may be another one: such scripts may overlap in any way,
and the invariant holds after every run.
-/

namespace NadSafe.SustainedScript

open AsyncScript AsyncScript.Script ScriptPool StoreScript RelyScript ResponseScript

variable {σ Error Op α β τ : Type} {I : σ → Prop} {Q : α → Prop}

/-- An answer from some state with the invariant. -/
def Answers (I : σ → Prop) (c : Statement σ) (r : c.Answer) : Prop := ∃ s,I s ∧ (exec c s).1=r

/-- Every statement keeps the invariant, and a value that is returned has the
property. -/
def Sustains (I : σ → Prop) (Q : α → Prop) (p : Handler σ Error α) : Prop :=
  p.Obeys (fun c => ∀ s,I s → I (exec c s).2) (Answers I) Q

theorem Sustains.mono {Q' : α → Prop} {p : Handler σ Error α} (h : Sustains I Q p) (hQ : ∀ a,Q a → Q' a) :
    Sustains I Q' p := Obeys.mono h (fun _ hc => hc) (fun _ _ hr => hr) hQ

theorem Sustains.pure {a : α} (h : Q a) : Sustains I Q (Script.done a : Handler σ Error α) := h

theorem Sustains.throw (e : Error) : Sustains I Q (Script.fail e : Handler σ Error α) := trivial

theorem Sustains.bind {P : β → Prop} {p : Handler σ Error β} {f : β → Handler σ Error α}
    (hp : Sustains I P p) (hf : ∀ b,P b → Sustains I Q (f b)) : Sustains I Q (p.bind f) := Obeys.bind hp hf

/-- A query reads some state with the invariant. -/
theorem Sustains.query {f : σ → α} (h : ∀ s,I s → Q (f s)) :
    Sustains I Q (StoreScript.query f : Handler σ Error α) := by
  intro _
  refine ⟨fun s hs => hs,fun r ⟨s,hs,hr⟩ => ?_⟩
  have hread : r=s := hr.symm
  rw [hread]
  exact h s hs

theorem Sustains.draw {f : σ → α} {next : σ → σ} (hnext : ∀ s,I s → I (next s)) (h : ∀ s,I s → Q (f s)) :
    Sustains I Q (StoreScript.draw f next : Handler σ Error α) := by
  intro _
  refine ⟨fun s hs => hs,fun r ⟨s,hs,hr⟩ => ⟨hnext,fun _ _ => ?_⟩⟩
  have hread : r=s := hr.symm
  rw [hread]
  exact h s hs

theorem Sustains.execute {message : Error} {update : σ → Option σ}
    (h : ∀ s s',I s → update s=some s' → I s') :
    Sustains I (fun _ => True) (StoreScript.execute message update) := by
  intro _
  refine ⟨fun s hs => ?_,fun accepted _ => ?_⟩
  · show I ((update s).getD s)
    cases hu : update s with
    | none => exact hs
    | some s' => exact h s s' hs hu
  · cases accepted <;> exact trivial

theorem Sustains.ensure (message : Error) (condition : Bool) :
    Sustains I (fun _ => condition=true) (StoreScript.ensure message condition : Handler σ Error Unit) := by
  cases condition with
  | true => exact rfl
  | false => exact trivial

theorem Sustains.expect (message : Error) (value : Option α) :
    Sustains I (fun a => value=some a) (StoreScript.expect message value : Handler σ Error α) := by
  cases value with
  | some a => exact rfl
  | none => exact trivial

theorem Sustains.each {xs : List β} {body : β → Handler σ Error Unit}
    (h : ∀ x∈xs,Sustains I (fun _ => True) (body x)) :
    Sustains I (fun _ => True) (StoreScript.each xs body) := by
  induction xs with
  | nil => exact trivial
  | cons x xs ih =>
    exact (h x List.mem_cons_self).bind fun _ _ => ih fun y hy => h y (List.mem_cons_of_mem x hy)

theorem Sustains.ok {p : Handler σ Error Unit} (h : Sustains I (fun _ => True) p) :
    Sustains I (fun _ => True) (StoreScript.ok p) := Obeys.rescue h fun _ => trivial

theorem Sustains.ite {c : Prop} [Decidable c] {p q : Handler σ Error α} (hp : c → Sustains I Q p)
    (hq : ¬c → Sustains I Q q) : Sustains I Q (if c then p else q) := by
  split
  · exact hp ‹_›
  · exact hq ‹_›

/-- A handler that leaves a part alone keeps what is a matter of this part. -/
theorem Sustains.frames {part : σ → τ} (hI : ∀ s s',part s'=part s → I s → I s') {p : Handler σ Error α}
    (h : Frames exec part p) : Sustains I (fun _ => True) p :=
  Obeys.mono h (fun _ hc s hs => hI s _ (hc s) hs) (fun _ _ _ => trivial) fun _ _ => trivial

/-- A response is no statement. -/
theorem Sustains.respond {p : Handler σ Error α} (h : Sustains I (fun _ => True) p) :
    Sustains I (fun _ => True) (respond p : Handler σ Error (Except Error α)) := by
  induction p with
  | done a => exact trivial
  | fail e => exact trivial
  | call c k ih => exact ⟨h.1,fun r hr => ih r (h.2 r hr)⟩
  | await k ih => exact fun i => ih i (h i)

/-- Handlers that sustain an invariant may overlap in any way. -/
theorem Sustains.run {body : Op → Handler σ Error α} (h : ∀ op,Sustains I (fun _ => True) (body op)) {s : σ}
    (hs : I s) (events : List (Event Op Unit)) :
    I ((⟨exec,body⟩ : System (Statement σ) Statement.Answer Unit Error α σ Op).run ⟨s,[]⟩ events).shared := by
  have hstart : System.Holds I (fun (_ : Op) p _ => Sustains I (fun _ => True) p)
      (⟨s,[]⟩ : Pool (Statement σ) Statement.Answer Unit Error α σ Op) :=
    ⟨hs,fun t ht => absurd ht List.not_mem_nil⟩
  refine (hstart.always (fun op _ _ => h op) (fun _ _ i _ hp => hp i) ?_ events).shared
  intro others op c k s hsegment
  have hp := hsegment.moved
  exact ⟨hp.1 s hsegment.shared,hp.2 _ ⟨s,hsegment.shared,rfl⟩,hsegment.stable⟩

end NadSafe.SustainedScript
