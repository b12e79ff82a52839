import NadSafe.ScriptPool

/-!
# A lockout lasts until it is lifted

Calls leave milestones in a history. In a safe state no script makes a bad
milestone, and only a lifting milestone ends the safe state. Then no order of
steps, of operations in flight or still to come, makes a bad milestone before
a lifting one. The calls and the milestones are supplied elsewhere.
-/

namespace NadSafe.ScriptLockout

open AsyncScript ScriptPool

variable {Call : Type} {Answer : Call → Type} {Input Error α σ Op ε : Type}

/-- What a lockout of a system is made of. -/
structure Lockout (S : System Call Answer Input Error α σ Op) (ε : Type) where
  /-- Milestones so far. -/
  history : σ → List ε
  /-- Milestones of one call. -/
  milestones : Call → List ε
  /-- The state is locked out. -/
  Safe : σ → Prop
  /-- Milestones that end it. -/
  Lifts : ε → Prop
  /-- Milestones that it prevents. -/
  Bad : ε → Prop
  /-- Answers in a safe state. -/
  post : ∀ c, Answer c → Prop
  /-- Calls add their milestones. -/
  history_exec : ∀ c s,history (S.exec c s).2=history s++milestones c
  /-- Only a lifting call leaves the safe states. -/
  safe_exec : ∀ c s,Safe s → (∀ e∈milestones c,¬Lifts e) → Safe (S.exec c s).2
  /-- Safe states answer so. -/
  post_exec : ∀ c s,Safe s → post c (S.exec c s).1
  /-- With these answers no text makes a bad milestone. -/
  body : ∀ op,(S.body op).Obeys (fun c => ∀ e∈milestones c,¬Bad e) post fun _ => True

variable {S : System Call Answer Input Error α σ Op} (L : Lockout S ε)

/-- A text that makes no bad milestone in safe states. -/
abbrev Harmless (p : Script Call Answer Input Error α) : Prop :=
  p.Obeys (fun c => ∀ e∈L.milestones c,¬L.Bad e) L.post fun _ => True

/-- The lockout was lifted since `before`. -/
def Lifted (before : List ε) (s : σ) : Prop :=
  ∃ added,L.history s=before++added ∧ ∃ e∈added,L.Lifts e

/-- The lockout still stands, and nothing bad happened since `before`. -/
def Stands (before : List ε) (s : σ) : Prop :=
  ∃ added,L.history s=before++added ∧ (∀ e∈added,¬L.Bad e) ∧ L.Safe s

variable {L} {before : List ε} {s : σ}

/-- A lifted lockout stays lifted. -/
theorem Lifted.exec (h : Lifted L before s) (c : Call) : Lifted L before (S.exec c s).2 := by
  obtain ⟨added,hadded,e,he,hlift⟩ := h
  refine ⟨added++L.milestones c,?_,e,List.mem_append_left _ he,hlift⟩
  rw [L.history_exec,hadded,List.append_assoc]

/-- A call that makes no bad milestone lifts the lockout or leaves it
standing. -/
theorem Stands.exec (h : Stands L before s) {c : Call} (hc : ∀ e∈L.milestones c,¬L.Bad e) :
    Lifted L before (S.exec c s).2 ∨ Stands L before (S.exec c s).2 := by
  obtain ⟨added,hadded,hbad,hsafe⟩ := h
  have hnext : L.history (S.exec c s).2=before++(added++L.milestones c) := by
    rw [L.history_exec,hadded,List.append_assoc]
  by_cases hlift : ∃ e∈L.milestones c,L.Lifts e
  · obtain ⟨e,he,hlift⟩ := hlift
    exact .inl ⟨_,hnext,e,List.mem_append_right _ he,hlift⟩
  · refine .inr ⟨_,hnext,fun e he => ?_,L.safe_exec c s hsafe fun e he hl => hlift ⟨e,he,hl⟩⟩
    rcases List.mem_append.mp he with he|he
    · exact hbad e he
    · exact hc e he

/-- From a safe state with harmless operations in flight, every run makes a bad
milestone only after a lifting one. -/
theorem Lockout.run {P : Pool Call Answer Input Error α σ Op} (hsafe : L.Safe P.shared)
    (hrest : ∀ t∈P.threads,Harmless L t.rest) (later : List (Event Op Input)) {added : List ε}
    (hadded : L.history (S.run P later).shared=L.history P.shared++added)
    (hlift : ∀ e∈added,¬L.Lifts e) : ∀ e∈added,¬L.Bad e := by
  have hstart : System.Holds (fun s => Lifted L (L.history P.shared) s ∨ Stands L (L.history P.shared) s)
      (fun _ p s => Lifted L (L.history P.shared) s ∨ Harmless L p) P :=
    ⟨.inr ⟨[],(List.append_nil _).symm,fun _ he => (nomatch he),hsafe⟩,fun t ht => .inr (hrest t ht)⟩
  have hend := hstart.always (S:=S) (fun op _ _ => .inr (L.body op))
    (fun _ _ i _ h => h.imp_right fun hp => hp i) ?_ later
  · rcases hend.shared with ⟨added',hadded',e,he,hl⟩|⟨added',hadded',hbad,-⟩
    · have hsame : added'=added := List.append_cancel_left (hadded'.symm.trans hadded)
      exact absurd hl (hlift e (hsame ▸ he))
    · have hsame : added'=added := List.append_cancel_left (hadded'.symm.trans hadded)
      exact hsame ▸ hbad
  · intro others op c k s h
    have hkeep : Lifted L (L.history P.shared) s → Lifted L (L.history P.shared) (S.exec c s).2 :=
      fun hl => hl.exec c
    have hstable : ∀ u∈others,Lifted L (L.history P.shared) (S.exec c s).2 ∨ Harmless L u.rest :=
      fun u hu => (h.stable u hu).imp_left hkeep
    by_cases hlifted : Lifted L (L.history P.shared) s
    · exact ⟨.inl (hkeep hlifted),.inl (hkeep hlifted),hstable⟩
    · have hstands := h.shared.resolve_left hlifted
      have hp := h.moved.resolve_left hlifted
      have hanswer := L.post_exec c s hstands.choose_spec.2.2
      exact ⟨hstands.exec hp.1,.inr (hp.2 _ hanswer),hstable⟩

end NadSafe.ScriptLockout
