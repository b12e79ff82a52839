import NadSafe.RecordedRuns
import NadSafe.RelyScript

/-!
# Traces of interleaved runs

The moves of a run, oldest first: the operation that moved, the state before
and after, and its result if it has ended with this move. A run in which no
step disturbs the others is a chain of moves that keep their guarantees, so
that statements about histories are statements about chains.
-/

namespace NadSafe.TracedRuns

open AsyncScript ScriptPool RelyScript
open RecordedRuns (released released_eq released_none)

variable {Call : Type} {Answer : Call → Type} {Input Error α σ Op : Type}

/-- One segment of an operation. -/
structure Move (Error α σ Op : Type) where
  /-- The operation. -/
  op : Op
  /-- State before. -/
  before : σ
  /-- State after. -/
  after : σ
  /-- Its result, if it has ended. -/
  result : Option (Except Error α)

/-- The operation has ended with this move and returned a value. -/
def Move.Returns (m : Move Error α σ Op) (a : α) : Prop := m.result=some (.ok a)

/-- The result of a text that has settled. -/
def resultOf : Script Call Answer Input Error α → Option (Except Error α)
  | .done a => some (.ok a)
  | .fail e => some (.error e)
  | .call _ _ => none
  | .await _ => none

section Trace

variable (S : System Call Answer Input Error α σ Op)

/-- The operation that a decision moves, with its text. -/
def releasedBy (P : Pool Call Answer Input Error α σ Op) :
    Event Op Input → Option (Op×Script Call Answer Input Error α)
  | .start op => some (op,S.body op)
  | .resume n i => released P n i

/-- The move that a decision makes. -/
def moveOf (P : Pool Call Answer Input Error α σ Op) (e : Event Op Input) : Option (Move Error α σ Op) :=
  (releasedBy S P e).map fun (op,p) =>
    ⟨op,P.shared,(settle S.exec p P.shared).2,resultOf (settle S.exec p P.shared).1⟩

/-- The moves of a run. -/
def trace : Pool Call Answer Input Error α σ Op → List (Event Op Input) → List (Move Error α σ Op)
  | _,[] => []
  | P,e::events => (moveOf S P e).toList++trace (S.step P e) events

end Trace

/-- Moves that follow each other from one state to another. -/
def Chain (shows : Move Error α σ Op → Prop) : σ → List (Move Error α σ Op) → σ → Prop
  | s,[],s' => s=s'
  | s,m::moves,s' => m.before=s ∧ shows m ∧ Chain shows m.after moves s'

/-- A move keeps the guarantee of its operation. -/
def Shows (I : σ → Prop) (G : Op → σ → σ → Prop) (Q : Op → α → σ → σ → Prop) (m : Move Error α σ Op) : Prop :=
  I m.before ∧ match m.result with
    | some (.ok a) => Q m.op a m.before m.after
    | _ => G m.op m.before m.after

section Guarantees

variable {I : σ → Prop} {G : Op → σ → σ → Prop} {Q : Op → α → σ → σ → Prop} {m : Move Error α σ Op}

/-- What an operation shows that returns a value. -/
theorem Shows.returned {a : α} (h : Shows I G Q m) (hm : m.Returns a) : Q m.op a m.before m.after := by
  obtain ⟨-,h⟩ := h
  rw [Move.Returns] at hm
  rw [hm] at h
  exact h

/-- What any other move shows. -/
theorem Shows.moved (h : Shows I G Q m) (hm : ∀ a,¬m.Returns a) : G m.op m.before m.after := by
  obtain ⟨-,h⟩ := h
  cases hr : m.result with
  | none =>
    rw [hr] at h
    exact h
  | some r =>
    rw [hr] at h
    cases r with
    | ok a => exact absurd hr (hm a)
    | error e => exact h

end Guarantees

section Chains

variable {shows : Move Error α σ Op → Prop} {s s' : σ} {moves later : List (Move Error α σ Op)}

theorem Chain.mono {shows' : Move Error α σ Op → Prop} (h : Chain shows s moves s')
    (himp : ∀ m,shows m → shows' m) : Chain shows' s moves s' := by
  induction moves generalizing s with
  | nil => exact h
  | cons m moves ih => exact ⟨h.1,himp m h.2.1,ih h.2.2⟩

/-- A chain may be cut anywhere. -/
theorem Chain.split (h : Chain shows s (moves++later) s') :
    ∃ s'',Chain shows s moves s'' ∧ Chain shows s'' later s' := by
  induction moves generalizing s with
  | nil => exact ⟨s,rfl,h⟩
  | cons m moves ih =>
    obtain ⟨s'',hmoves,hlater⟩ := ih h.2.2
    exact ⟨s'',⟨h.1,h.2.1,hmoves⟩,hlater⟩

/-- What each move keeps holds at the end. -/
theorem Chain.invariant {J : σ → Prop} (h : Chain shows s moves s')
    (hmove : ∀ m,m∈moves → shows m → J m.before → J m.after) (hs : J s) : J s' := by
  induction moves generalizing s with
  | nil => exact h ▸ hs
  | cons m moves ih =>
    obtain ⟨rfl,hshows,hrest⟩ := h
    have hafter := hmove m List.mem_cons_self hshows hs
    exact ih hrest (fun m' hm => hmove m' (List.mem_cons_of_mem m hm)) hafter

end Chains

section Runs

variable {S : System Call Answer Input Error α σ Op} {I : σ → Prop} {R same : σ → σ → Prop}
  {G : Op → σ → σ → Prop} {Q : Op → α → σ → σ → Prop} {P : Pool Call Answer Input Error α σ Op}

/-- The end of a segment, as its move shows it. -/
theorem shows_of_ended {op : Op} {p : Script Call Answer Input Error α} {s s' : σ} (hs : I s)
    (h : Ended (G op) (Q op) p s s') : Shows I G Q (⟨op,s,s',resultOf p⟩ : Move Error α σ Op) := by
  cases p with
  | done a => exact ⟨hs,h⟩
  | fail e => exact ⟨hs,h⟩
  | call c k => exact ⟨hs,h⟩
  | await k => exact ⟨hs,h⟩

/-- What a condition on the decisions says of the state holds before each move. -/
theorem before_of_admits {ok : Pool Call Answer Input Error α σ Op → Event Op Input → Prop} {J : σ → Prop}
    (hok : ∀ P e,ok P e → J P.shared) {P : Pool Call Answer Input Error α σ Op} {events : List (Event Op Input)}
    (hrun : S.Admits ok P events) : ∀ m∈trace S P events,J m.before := by
  induction events generalizing P with
  | nil => exact fun m hm => absurd hm List.not_mem_nil
  | cons e events ih =>
    intro m hm
    rcases List.mem_append.mp hm with hhead|hrest
    · rw [Option.mem_toList] at hhead
      obtain ⟨-,-,rfl⟩ := Option.map_eq_some_iff.mp hhead
      exact hok P e hrun.1
    · exact ih hrun.2 m hrest

/-- The end of a segment keeps one of the two guarantees. -/
theorem ended_cases {g : σ → σ → Prop} {q : α → σ → σ → Prop} {p : Script Call Answer Input Error α}
    {s s' : σ} (h : Ended g q p s s') : g s s' ∨ ∃ a,q a s s' := by
  cases p with
  | done a => exact .inr ⟨a,h⟩
  | fail e => exact .inl h
  | call c k => exact .inl h
  | await k => exact .inl h

/-- A decision that moves nothing changes nothing. -/
theorem step_of_moveOf_none {e : Event Op Input} (h : moveOf S P e=none) : S.step P e=P := by
  cases e with
  | start op => cases h
  | resume n i =>
    have hnone : released P n i=none := Option.map_eq_none_iff.mp h
    exact released_none hnone

/-- The move of a decision keeps its guarantee and leads to the next state. -/
theorem shows_moveOf (hP : Kept S I R G Q P)
    (hbody : ∀ op s,I s → Bears S.exec R (G op) (Q op) (S.body op) s s) (hrefl : ∀ s,I s → R s s)
    {e : Event Op Input} {m : Move Error α σ Op} (h : moveOf S P e=some m) :
    m.before=P.shared ∧ Shows I G Q m ∧ m.after=(S.step P e).shared := by
  cases e with
  | start op =>
    cases h
    obtain ⟨hended,-⟩ := (hbody op P.shared hP.shared).settle
    exact ⟨rfl,shows_of_ended hP.shared hended,rfl⟩
  | resume n i =>
    obtain ⟨⟨op,p⟩,hr,rfl⟩ := Option.map_eq_some_iff.mp h
    obtain ⟨k,ht,rfl⟩ := released_eq hr
    have hpark := hP.threads n _ ht
    obtain ⟨hended,-⟩ := (hpark i P.shared (hrefl _ hP.shared)).settle
    refine ⟨rfl,shows_of_ended hP.shared hended,?_⟩
    rw [System.step_resume ht rfl i]

/-- A run in which no step disturbs the others is a chain of moves that keep
their guarantees. -/
theorem chain_of_run (hP : Kept S I R G Q P)
    (hbody : ∀ op s,I s → Bears S.exec R (G op) (Q op) (S.body op) s s)
    (hrefl : ∀ s,I s → R s s) (htrans : ∀ a b c,R a b → R b c → R a c)
    (hinv : ∀ op (p : Script Call Answer Input Error α) s s',I s → Ended (G op) (Q op) p s s' → I s')
    (hrely : ∀ op (p : Script Call Answer Input Error α) s s',I s → Ended (G op) (Q op) p s s' →
      same s s' → R s s')
    {events : List (Event Op Input)} (hrun : S.Admits (Undisturbed S same) P events) :
    Chain (Shows I G Q) P.shared (trace S P events) (S.run P events).shared := by
  induction events generalizing P with
  | nil => rfl
  | cons e events ih =>
    obtain ⟨hnext,-⟩ := Kept.step hP hbody hrefl htrans hinv hrely hrun.1
    have hrest := ih hnext hrun.2
    unfold trace
    cases hm : moveOf S P e with
    | none =>
      have hidle := step_of_moveOf_none hm
      have hshared : (S.step P e).shared=P.shared := by rw [hidle]
      rw [hshared] at hrest
      exact hrest
    | some m =>
      obtain ⟨hbefore,hshows,hafter⟩ := shows_moveOf hP hbody hrefl hm
      rw [← hafter] at hrest
      exact ⟨hbefore,hshows,hrest⟩

end Runs

end NadSafe.TracedRuns
