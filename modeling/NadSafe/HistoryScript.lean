import NadSafe.ContractScript
import NadSafe.ObservedRuns
import NadSafe.PartScript

/-!
# Handlers whose rows go back to the history

An invariant of the store may speak of the moves that a run has made: every row
that is there was written by one of them. A handler keeps it, and its response
shows something, if each of its statements does so from any state with the
invariant. The rules say this for one statement after another.
-/

namespace NadSafe.HistoryScript

open AsyncScript AsyncScript.Script ScriptPool StoreScript RelyScript TracedRuns ResponseScript ContractScript
open ObservedRuns PartScript

variable {Op σ Error α β : Type} {moved : Op → σ → Prop} {F : σ → Prop} {op : Op} {shows : α → Prop} {s₀ s : σ}

/-- The invariant is kept, and a value that is returned shows something. -/
abbrev Keeps (moved : Op → σ → Prop) (F : σ → Prop) (op : Op) (shows : α → Prop) (p : Handler σ Error α)
    (s₀ s : σ) : Prop :=
  Responds exec (Relies moved (fun _ => F) op) (fun _ => F) (fun r _ s => F s ∧ ∀ a,r=.ok a → shows a) p s₀ s

theorem keeps_error (hs : F s) (e : Error) : F s ∧ ∀ a,(Except.error e : Except Error α)=.ok a → shows a :=
  ⟨hs,fun _ h => by cases h⟩

theorem keeps_throw {e : Error} (hs : F s) : Keeps moved F op shows (.fail e) s₀ s := keeps_error hs e

theorem keeps_pure {a : α} (hs : F s) (h : shows a) :
    Keeps moved F op shows (.done a : Handler σ Error α) s₀ s := ⟨hs,fun _ he => by cases he; exact h⟩

theorem keeps_ensure {message : Error} {condition : Bool} {g : Unit → Handler σ Error α} (hs : F s)
    (h : condition=true → Keeps moved F op shows (g ()) s₀ s) :
    Keeps moved F op shows ((ensure message condition).bind g) s₀ s :=
  Responds.ensure h fun _ => keeps_error hs _

theorem keeps_expect {message : Error} {value : Option β} {g : β → Handler σ Error α} (hs : F s)
    (h : ∀ b,value=some b → Keeps moved F op shows (g b) s₀ s) :
    Keeps moved F op shows ((expect message value).bind g) s₀ s :=
  Responds.expect h fun _ => keeps_error hs _

/-- The state is read without a suspension. -/
theorem keeps_read {g : σ → Handler σ Error α} (h : Keeps moved F op shows (g s) s₀ s) :
    Keeps moved F op shows ((Script.perform Statement.read).bind g) s₀ s := h

/-- A statement at the end, which may be refused. -/
theorem keeps_execute_done {message : Error} {f : σ → Option σ} {shows : Unit → Prop} (hs : F s)
    (h : ∀ s₁ s₂,F s₁ → moved op s₁ → f s₁=some s₂ → F s₂ ∧ shows ()) :
    Keeps moved F op shows (execute message f) s₀ s :=
  Responds.execute_done hs (fun s₁ s₂ hs₁ hc => ⟨(h s₁ s₂ hs₁.1 hs₁.2 hc).1,fun _ _ => (h s₁ s₂ hs₁.1 hs₁.2 hc).2⟩)
    fun _ hs₁ _ => keeps_error hs₁.1 _

/-- A value is passed on. -/
theorem keeps_bind {shows' : β → Prop} {p : Handler σ Error β} {g : β → Handler σ Error α}
    (hp : Keeps moved F op shows' p s₀ s)
    (hg : ∀ b s₁ s₂,F s₂ → shows' b → Keeps moved F op shows (g b) s₁ s₂) :
    Keeps moved F op shows (p.bind g) s₀ s :=
  Responds.bind hp (fun b s₁ s₂ hb => hg b s₁ s₂ hb.1 (hb.2 b rfl)) fun e _ _ he => keeps_error he.1 e

section Parts

variable {τ : Type} {part : Part σ τ}

/-- A sequence over a part is a sequence. -/
theorem within_bind (p : Handler τ Error β) (g : β → Handler τ Error α) :
    within part (p.bind g)=(within part p).bind fun b => within part (g b) := by
  induction p with
  | done b => rfl
  | fail e => rfl
  | call c k ih =>
    cases c with
    | read => exact congrArg (Script.call Statement.read) (funext fun t => ih (part.get t))
    | write u => exact congrArg (Script.call (Statement.write _)) (funext fun accepted => ih accepted)
  | await k ih => exact congrArg Script.await (funext ih)

/-- A check over a part is a check. -/
theorem within_ensure (message : Error) (condition : Bool) :
    within part (ensure message condition)=ensure message condition := by
  cases condition with
  | true => rfl
  | false => rfl

/-- A handler of a part that the invariant does not speak of, with what its
responses show. -/
theorem keeps_within {K : β → Prop} {p : Handler τ Error β} {g : β → Handler σ Error α}
    (hpart : ∀ s t,F s → F (part.set s t)) (hp : p.Obeys (fun _ => True) (fun _ _ => True) K) (hs : F s)
    (hg : ∀ b s₁ s₂,K b → F s₂ → Keeps moved F op shows (g b) s₁ s₂) :
    Keeps moved F op shows ((within part p).bind g) s₀ s := by
  induction p generalizing s₀ s with
  | done b => exact hg b s₀ s hp hs
  | fail e => exact keeps_error hs e
  | call c k ih =>
    cases c with
    | read => exact ih _ (hp.2 _ trivial) hs
    | write u =>
      have hnext : F (((u (part.get s)).map (part.set s)).getD s) := by
        cases hu : u (part.get s) with
        | none => exact hs
        | some t => exact hpart s t hs
      exact ih _ (hp.2 _ trivial) hnext
  | await k ih => exact ⟨hs,fun i s' hs' => ih i (hp i) hs'.1⟩

/-- The same at the end. -/
theorem keeps_within_done {K : α → Prop} {p : Handler τ Error α} (hpart : ∀ s t,F s → F (part.set s t))
    (hp : p.Obeys (fun _ => True) (fun _ _ => True) K) (hs : F s) (hshows : ∀ a,K a → shows a) :
    Keeps moved F op shows (within part p) s₀ s := by
  have hbind : Keeps moved F op shows ((within part p).bind Script.done) s₀ s :=
    keeps_within hpart hp hs fun b _ _ hb hs => keeps_pure hs (hshows b hb)
  rwa [bind_done] at hbind

/-- A query of the part. -/
theorem keeps_within_query {f : τ → β} {g : β → Handler σ Error α} (hs : F s)
    (h : ∀ s',F s' → moved op s' → Keeps moved F op shows (g (f (part.get s'))) s' s') :
    Keeps moved F op shows ((within part (query f)).bind g) s₀ s :=
  ⟨hs,fun _ s' hs' => h s' hs'.1 hs'.2⟩

/-- A value is drawn from the part. -/
theorem keeps_within_draw {f : τ → β} {next : τ → τ} {g : β → Handler σ Error α}
    (hpart : ∀ s t,F s → F (part.set s t)) (hs : F s)
    (h : ∀ s' s'',moved op s' → F s'' → Keeps moved F op shows (g (f (part.get s'))) s' s'') :
    Keeps moved F op shows ((within part (draw f next)).bind g) s₀ s :=
  ⟨hs,fun _ s' hs' => h s' _ hs'.2 (hpart s' _ hs'.1)⟩

end Parts

section Runs

/-- Handlers that respond. -/
def server (body : Op → Handler σ Error α) : System (Statement σ) Statement.Answer Unit Error (Except Error α) σ Op :=
  ⟨exec,fun op => respond (body op)⟩

/-- Handlers that keep an invariant are a contract. -/
theorem contract {body : Op → Handler σ Error α} {shows : Op → α → Prop}
    (h : ∀ op s,F s → moved op s → Keeps moved F op (shows op) (body op) s s) :
    Contract (server body) moved F (fun _ => F) (fun _ _ => F) fun op r _ s => F s ∧ ∀ a,r=.ok a → shows op a := by
  have hended : ∀ op (p : Script (Statement σ) Statement.Answer Unit Error (Except Error α)) s s',
      Ended (fun _ => F) (fun r _ s => F s ∧ ∀ a,r=.ok a → shows op a) p s s' → F s' := by
    intro op p s s' h
    rcases ended_cases h with hfine|⟨a,ha⟩
    · exact hfine
    · exact ha.1
  refine ⟨fun op s hs hm => (h op s hs hm).bears,fun _ hs => hs,fun _ _ _ _ h => h,?_,?_⟩
  · exact fun op p s s' _ _ h => hended op p s s' h
  · exact fun op p s s' _ _ h => hended op p s s' h

/-- In every run from an idle state with the invariant, a value that an
operation returns shows what its handler shows. -/
theorem shown_of_trace {body : Op → Handler σ Error α} {shows : Op → α → Prop} {start : σ}
    {events : List (Event Op Unit)} {history later : List (Move Error (Except Error α) σ Op)}
    {m : Move Error (Except Error α) σ Op} {a : α} (hstart : F start)
    (hbody : ∀ op s,F s → MovedIn (history++[m]) op s →
      Keeps (MovedIn (history++[m])) F op (shows op) (body op) s s)
    (h : trace (server body) ⟨start,[]⟩ events=history++m::later) (ha : response m=some (.ok a)) :
    shows m.op a := by
  rcases shows_cases (shows_of_trace (contract hbody) hstart h) with ⟨hno,-⟩|⟨r,hr,-,hshown⟩
  · rw [hno] at ha
    cases ha
  · rw [hr] at ha
    exact hshown a (Option.some.inj ha)

end Runs

end NadSafe.HistoryScript
