import NadSafe.AsyncScript
import NadSafe.StepRuns

/-!
# Interleaved runs of asynchronous scripts

Any number of scripts share one state. A step starts an operation or
resumes one suspended script; it then executes synchronous calls up to the
next suspension, and nothing else can run inside that segment. A run is a
list of such steps, in any order. The rules below turn contracts of script
texts and invariants of the shared state into facts about whole runs.
-/

namespace NadSafe.ScriptPool

open AsyncScript

variable {Call : Type} {Answer : Call → Type} {Input Error α σ Op : Type}

/-- Execute synchronous calls until the script suspends or settles. -/
def settle (exec : ∀ c, σ → Answer c×σ) : Script Call Answer Input Error α → σ →
    Script Call Answer Input Error α×σ
  | .done a,s => (.done a,s)
  | .fail e,s => (.fail e,s)
  | .call c k,s => settle exec (k (exec c s).1) (exec c s).2
  | .await k,s => (.await k,s)

/-- One arrival at a suspended script, with the segment it releases. A
script that is not suspended ignores arrivals. -/
def resume (exec : ∀ c, σ → Answer c×σ) : Script Call Answer Input Error α → Arrival Input →
    σ → Script Call Answer Input Error α×σ
  | .await k,i,s => settle exec (k i) s
  | .done a,_,s => (.done a,s)
  | .fail e,_,s => (.fail e,s)
  | .call c k,_,s => (.call c k,s)

/-- An operation in flight: what was started, and the text still to run. -/
structure Thread (Call : Type) (Answer : Call → Type) (Input Error α Op : Type) where
  /-- The started operation. -/
  origin : Op
  /-- Its remaining program text. -/
  rest : Script Call Answer Input Error α

/-- The shared state and every operation started so far, in start order.
Settled operations keep their place, so indices stay valid. -/
structure Pool (Call : Type) (Answer : Call → Type) (Input Error α σ Op : Type) where
  /-- State reached through calls only. -/
  shared : σ
  /-- Started operations, settled ones included. -/
  threads : List (Thread Call Answer Input Error α Op)

/-- One scheduling decision. -/
inductive Event (Op Input : Type) where
  /-- A new operation begins and runs to its first suspension. -/
  | start (op : Op)
  /-- The operation at this index receives an arrival. -/
  | resume (index : ℕ) (arrival : Arrival Input)

/-- The calls' meaning and the text of every operation. -/
structure System (Call : Type) (Answer : Call → Type) (Input Error α σ Op : Type) where
  /-- Effect and answer of each synchronous call. -/
  exec : ∀ c, σ → Answer c×σ
  /-- Program text of an operation. -/
  body : Op → Script Call Answer Input Error α

/-- A list with one place overwritten holds the new entry and old ones from
other places. -/
theorem mem_set_or_eraseIdx {α : Type} {xs : List α} {n : ℕ} {x u : α} (h : u∈xs.set n x) :
    u=x ∨ u∈xs.eraseIdx n := by
  obtain ⟨m,hm⟩ := List.mem_iff_getElem?.mp h
  rw [List.getElem?_set] at hm
  by_cases hn : n=m
  · rw [if_pos hn] at hm
    split at hm
    · cases hm
      exact .inl rfl
    · cases hm
  · rw [if_neg hn] at hm
    exact .inr (List.mem_eraseIdx_iff_getElem?.mpr ⟨m,Ne.symm hn,hm⟩)

namespace System

variable (S : System Call Answer Input Error α σ Op)

/-- The pool after one scheduling decision. -/
def step (P : Pool Call Answer Input Error α σ Op) :
    Event Op Input → Pool Call Answer Input Error α σ Op
  | .start op =>
    let segment := settle S.exec (S.body op) P.shared
    ⟨segment.2,P.threads++[⟨op,segment.1⟩]⟩
  | .resume n i =>
    match P.threads[n]? with
    | none => P
    | some t =>
      let segment := resume S.exec t.rest i P.shared
      ⟨segment.2,P.threads.set n ⟨t.origin,segment.1⟩⟩

/-- The pool after a whole list of decisions. -/
abbrev run (P : Pool Call Answer Input Error α σ Op) (events : List (Event Op Input)) :
    Pool Call Answer Input Error α σ Op := StepRuns.run S.step P events

/-- Every decision is allowed in the pool in which it is taken. -/
abbrev Admits (ok : Pool Call Answer Input Error α σ Op → Event Op Input → Prop)
    (P : Pool Call Answer Input Error α σ Op) (events : List (Event Op Input)) : Prop :=
  StepRuns.Admits S.step ok P events

variable {S}

variable (S) in
/-- Every operation starts after all earlier ones have settled. -/
def sequential : Pool Call Answer Input Error α σ Op → List (Event Op Input) → Bool
  | _,[] => true
  | P,.start op::events =>
    P.threads.all (fun t => t.rest.settled) && sequential (S.step P (.start op)) events
  | P,.resume n i::events => sequential (S.step P (.resume n i)) events

/-- A sequential run meets every condition that settled operations and its own
arrivals meet. -/
theorem sequential_admits {ok : Pool Call Answer Input Error α σ Op → Event Op Input → Prop}
    {P : Pool Call Answer Input Error α σ Op} {events : List (Event Op Input)}
    (hstart : ∀ P op,(∀ t∈P.threads,t.rest.settled=true) → ok P (.start op))
    (hresume : ∀ P n i,.resume n i∈events → ok P (.resume n i)) (h : S.sequential P events=true) :
    S.Admits ok P events := by
  induction events generalizing P with
  | nil => trivial
  | cons e events ih =>
    have hrest : ∀ P n i,.resume n i∈events → ok P (.resume n i) :=
      fun P n i hi => hresume P n i (List.mem_cons_of_mem e hi)
    cases e with
    | start op =>
      rw [sequential,Bool.and_eq_true,List.all_eq_true] at h
      exact ⟨hstart P op h.1,ih hrest h.2⟩
    | resume n i => exact ⟨hresume P n i List.mem_cons_self,ih hrest h⟩

/-- The step that an arrival at a suspended operation makes. -/
theorem step_resume {P : Pool Call Answer Input Error α σ Op} {n : ℕ}
    {t : Thread Call Answer Input Error α Op} (ht : P.threads[n]?=some t)
    {k : Arrival Input → Script Call Answer Input Error α} (hk : t.rest=.await k)
    (i : Arrival Input) : S.step P (.resume n i)=
      ⟨(settle S.exec (k i) P.shared).2,
        P.threads.set n ⟨t.origin,(settle S.exec (k i) P.shared).1⟩⟩ := by
  simp only [step,ht,hk,ScriptPool.resume]

/-- Any other arrival changes nothing. -/
theorem step_resume_idle {P : Pool Call Answer Input Error α σ Op} {n : ℕ}
    (h : ∀ t k,P.threads[n]?=some t → t.rest≠.await k) (i : Arrival Input) :
    S.step P (.resume n i)=P := by
  cases ht : P.threads[n]? with
  | none => simp only [step,ht]
  | some t =>
    have hsame : ScriptPool.resume S.exec t.rest i P.shared=(t.rest,P.shared) := by
      cases hrest : t.rest with
      | await k => exact absurd hrest (h t k ht)
      | _ => rfl
    have hset : P.threads.set n t=P.threads := by
      obtain ⟨hn,rfl⟩ := List.getElem?_eq_some_iff.mp ht
      exact List.set_getElem_self hn
    simp only [step,ht,hsame]
    rw [hset]

/-- A shared invariant together with an assertion about every thread. -/
structure Holds (I : σ → Prop) (T : Op → Script Call Answer Input Error α → σ → Prop)
    (P : Pool Call Answer Input Error α σ Op) : Prop where
  /-- The shared state satisfies its invariant. -/
  shared : I P.shared
  /-- Every thread satisfies its assertion in the current state. -/
  threads : ∀ t ∈ P.threads,T t.origin t.rest P.shared

/-- What one segment of operation `op` from state `s` to `s'` leaving the
text `rest` has to establish, with `other` the threads that did not move. -/
structure Segment (I : σ → Prop) (T : Op → Script Call Answer Input Error α → σ → Prop)
    (op : Op) (rest : Script Call Answer Input Error α) (s' : σ)
    (other : List (Thread Call Answer Input Error α Op)) : Prop where
  /-- The shared invariant is restored at the suspension. -/
  shared : I s'
  /-- The moved thread satisfies its assertion there. -/
  moved : T op rest s'
  /-- No other thread's assertion is disturbed. -/
  stable : ∀ t ∈ other,T t.origin t.rest s'

/-- Starting an operation keeps the pool assertion if its first segment does. -/
theorem Holds.start {I : σ → Prop} {T : Op → Script Call Answer Input Error α → σ → Prop}
    {P : Pool Call Answer Input Error α σ Op} {op : Op}
    (h : Segment I T op (settle S.exec (S.body op) P.shared).1
      (settle S.exec (S.body op) P.shared).2 P.threads) :
    Holds I T (S.step P (.start op)) := by
  refine ⟨h.shared,fun t ht => ?_⟩
  rcases List.mem_append.mp ht with ht|ht
  · exact h.stable t ht
  · rw [List.mem_singleton] at ht
    subst ht
    exact h.moved

/-- Resuming a thread keeps the pool assertion if its segment does; an
arrival for an index that does not exist changes nothing. -/
theorem Holds.resume {I : σ → Prop} {T : Op → Script Call Answer Input Error α → σ → Prop}
    {P : Pool Call Answer Input Error α σ Op} {n : ℕ} {i : Arrival Input} (hP : Holds I T P)
    (h : ∀ t,P.threads[n]?=some t → Segment I T t.origin (ScriptPool.resume S.exec t.rest i P.shared).1
      (ScriptPool.resume S.exec t.rest i P.shared).2 (P.threads.eraseIdx n)) :
    Holds I T (S.step P (.resume n i)) := by
  unfold step
  dsimp only
  split
  · exact hP
  · rename_i t ht
    have hs := h t ht
    refine ⟨hs.shared,fun u hu => ?_⟩
    rcases mem_set_or_eraseIdx hu with rfl|hu
    · exact hs.moved
    · exact hs.stable u hu

end System

section Segments

variable {exec : ∀ c, σ → Answer c×σ}

/-- What every call carries on holds at the end of a segment. -/
theorem settle_carries {A : Script Call Answer Input Error α → σ → Prop}
    (hcall : ∀ c k s,A (.call c k) s → A (k (exec c s).1) (exec c s).2)
    {p : Script Call Answer Input Error α} {s : σ} (hp : A p s) :
    A (settle exec p s).1 (settle exec p s).2 := by
  induction p generalizing s with
  | done a => exact hp
  | fail e => exact hp
  | call c k ih => exact ih _ (hcall c k s hp)
  | await k => exact hp

/-- A segment ends at a suspension or a result, never before a call. -/
theorem settle_stops (p : Script Call Answer Input Error α) (s : σ) (restores : Call → Prop) :
    (settle exec p s).1.StopsBefore restores := by
  induction p generalizing s with
  | done a => trivial
  | fail e => trivial
  | call c k ih => exact ih _ _
  | await k => trivial

/-- An assertion about the text ahead and the state that every call and
every arrival carries on. -/
structure Closed (exec : ∀ c, σ → Answer c×σ)
    (A : Script Call Answer Input Error α → σ → Prop) : Prop where
  /-- A call continues with its answer in the state it leaves. -/
  call : ∀ c k s,A (.call c k) s → A (k (exec c s).1) (exec c s).2
  /-- An arrival continues in the same state. -/
  arrive : ∀ k s i,A (.await k) s → A (k i) s

/-- A closed assertion holds at the end of a segment. -/
theorem Closed.settle {A : Script Call Answer Input Error α → σ → Prop} (h : Closed exec A)
    {p : Script Call Answer Input Error α} {s : σ} (hp : A p s) :
    A (settle exec p s).1 (settle exec p s).2 := settle_carries h.call hp

/-- The same for the segment that an arrival releases. -/
theorem Closed.resume {A : Script Call Answer Input Error α → σ → Prop} (h : Closed exec A)
    {p : Script Call Answer Input Error α} {s : σ} (i : Arrival Input) (hp : A p s) :
    A (resume exec p i s).1 (resume exec p i s).2 := by
  cases p with
  | done a => exact hp
  | fail e => exact hp
  | call c k => exact hp
  | await k => exact h.settle (h.arrive k s i hp)

variable {pre : Call → Prop} {post : ∀ c, Answer c → Prop} {Q : α → Prop} {I : σ → Prop}

/-- Contracts are closed if every allowed call answers as assumed and keeps
the invariant. -/
theorem closed_obeys (hcall : ∀ c s,I s → pre c → post c (exec c s).1 ∧ I (exec c s).2) :
    Closed exec fun (p : Script Call Answer Input Error α) s => p.Obeys pre post Q ∧ I s := by
  constructor
  · rintro c k s ⟨hp,hs⟩
    have hc := hcall c s hs hp.1
    exact ⟨hp.2 _ hc.1,hc.2⟩
  · rintro k s i ⟨hp,hs⟩
    exact ⟨hp i,hs⟩

/-- Contracts relative to knowledge `x` of the state. What holds of every
candidate for the current state holds of every candidate after a call that
adds knowledge. -/
theorem closed_family {ι : Type} {R : ι → σ → Prop} {pre : ι → Call → Prop}
    {post : ι → ∀ c, Answer c → Prop}
    (hcall : ∀ c s,I s → (∀ x,R x s → pre x c) →
      (∀ x,R x (exec c s).2 → R x s ∧ post x c (exec c s).1) ∧ I (exec c s).2) :
    Closed exec fun (p : Script Call Answer Input Error α) s =>
      (∀ x,R x s → p.Obeys (pre x) (post x) Q) ∧ I s := by
  constructor
  · rintro c k s ⟨hp,hs⟩
    obtain ⟨hx,hi⟩ := hcall c s hs fun x hx => (hp x hx).1
    exact ⟨fun x hr => (hp x (hx x hr).1).2 _ (hx x hr).2,hi⟩
  · rintro k s i ⟨hp,hs⟩
    exact ⟨fun x hr => hp x hr i,hs⟩

end Segments

section Landing

/-- Every call that a segment makes is allowed in the state in which it is
made. -/
def Along (exec : ∀ c, σ → Answer c×σ) (ok : Call → σ → Prop) :
    Script Call Answer Input Error α → σ → Prop
  | .call c k,s => ok c s ∧ Along exec ok (k (exec c s).1) (exec c s).2
  | _,_ => True

/-- What every allowed call carries on holds at the end of a segment. -/
theorem Along.carries {exec : ∀ c, σ → Answer c×σ} {ok : Call → σ → Prop}
    {A : Script Call Answer Input Error α → σ → Prop}
    (hcall : ∀ c k s,A (.call c k) s → ok c s → A (k (exec c s).1) (exec c s).2)
    {p : Script Call Answer Input Error α} {s : σ} (hok : Along exec ok p s) (hp : A p s) :
    A (settle exec p s).1 (settle exec p s).2 := by
  induction p generalizing s with
  | done a => exact hp
  | fail e => exact hp
  | call c k ih => exact ih _ hok.2 (hcall c k s hp hok.1)
  | await k => exact hp

namespace System

variable (S : System Call Answer Input Error α σ Op)

/-- A condition on every call of a decision, in the state in which the call
is made and beside the operations that did not move. -/
def Landing (ok : List (Thread Call Answer Input Error α Op) → Call → σ → Prop)
    (P : Pool Call Answer Input Error α σ Op) : Event Op Input → Prop
  | .start op => Along S.exec (ok P.threads) (S.body op) P.shared
  | .resume n i => ∀ t k,P.threads[n]?=some t → t.rest=.await k →
    Along S.exec (ok (P.threads.eraseIdx n)) (k i) P.shared

variable {S}

/-- A shared invariant and an assertion about every operation in flight hold
after every run, if each allowed call carries on all of them at once. -/
theorem Holds.landing {I : σ → Prop} {T : Op → Script Call Answer Input Error α → σ → Prop}
    {ok : List (Thread Call Answer Input Error α Op) → Call → σ → Prop}
    (hbody : ∀ op s,I s → T op (S.body op) s)
    (harrive : ∀ op k i s,T op (.await k) s → T op (k i) s)
    (hcall : ∀ others op c k s,Segment I T op (.call c k) s others → ok others c s →
      Segment I T op (k (S.exec c s).1) (S.exec c s).2 others)
    {P : Pool Call Answer Input Error α σ Op} (hP : Holds I T P) {events : List (Event Op Input)}
    (hok : S.Admits (S.Landing ok) P events) : Holds I T (S.run P events) := by
  have hsegment : ∀ others op p s,Along S.exec (ok others) p s → Segment I T op p s others →
      Segment I T op (settle S.exec p s).1 (settle S.exec p s).2 others := by
    intro others op p s halong hs
    exact halong.carries (A:=fun p s => Segment I T op p s others) (hcall others op) hs
  refine StepRuns.run_invariant (fun P e hP he => ?_) hP hok
  cases e with
  | start op =>
    exact .start (hsegment _ _ _ _ he ⟨hP.shared,hbody op P.shared hP.shared,hP.threads⟩)
  | resume n i =>
    refine hP.resume fun t ht => ?_
    have hother : ∀ u∈P.threads.eraseIdx n,T u.origin u.rest P.shared :=
      fun u hu => hP.threads u (List.mem_of_mem_eraseIdx hu)
    have hrest := hP.threads t (List.mem_of_getElem? ht)
    have hstay : Segment I T t.origin t.rest P.shared (P.threads.eraseIdx n) :=
      ⟨hP.shared,hrest,hother⟩
    cases hk : t.rest with
    | await k =>
      rw [hk] at hrest
      exact hsegment _ _ _ _ (he t k ht hk) ⟨hP.shared,harrive _ k i _ hrest,hother⟩
    | done a => rw [hk] at hstay; exact hstay
    | fail e => rw [hk] at hstay; exact hstay
    | call c k => rw [hk] at hstay; exact hstay

theorem along_trivial (p : Script Call Answer Input Error α) (s : σ) :
    Along S.exec (fun _ _ => True) p s := by
  induction p generalizing s with
  | done a => trivial
  | fail e => trivial
  | call c k ih => exact ⟨trivial,ih _ _⟩
  | await k => trivial

/-- The same without a condition. -/
theorem Holds.always {I : σ → Prop} {T : Op → Script Call Answer Input Error α → σ → Prop}
    (hbody : ∀ op s,I s → T op (S.body op) s)
    (harrive : ∀ op k i s,T op (.await k) s → T op (k i) s)
    (hcall : ∀ others op c k s,Segment I T op (.call c k) s others →
      Segment I T op (k (S.exec c s).1) (S.exec c s).2 others)
    {P : Pool Call Answer Input Error α σ Op} (hP : Holds I T P) (events : List (Event Op Input)) :
    Holds I T (S.run P events) := by
  have hok : S.Admits (S.Landing fun _ _ _ => True) P events := by
    refine .of_forall (fun e _ P => ?_) P
    cases e with
    | start op => exact along_trivial _ _
    | resume n i => exact fun _ _ _ _ => along_trivial _ _
  exact hP.landing hbody harrive (fun others op c k s h _ => hcall others op c k s h) hok

/-- An invariant of every call that the texts make is an invariant of every
run. -/
theorem run_calls {pre : Call → Prop} {I : σ → Prop}
    (hbody : ∀ op,(S.body op).Obeys pre (fun _ _ => True) fun _ => True)
    (hcall : ∀ c s,I s → pre c → I (S.exec c s).2) {s : σ} (hs : I s)
    (events : List (Event Op Input)) : I (S.run ⟨s,[]⟩ events).shared := by
  have hstart : Holds I (fun _ p _ => p.Obeys pre (fun _ _ => True) fun _ => True)
      (⟨s,[]⟩ : Pool Call Answer Input Error α σ Op) :=
    ⟨hs,fun t ht => absurd ht List.not_mem_nil⟩
  refine (hstart.always (fun op _ _ => hbody op) (fun _ _ i _ h => h i) ?_ events).shared
  intro others op c k s h
  exact ⟨hcall c s h.shared h.moved.1,h.moved.2 _ trivial,h.stable⟩

end System

end Landing

section Evaluation

variable {ok' : List (Thread Call Answer Input Error α Op) → Call → σ → Prop}

/-- `Along` for a condition that can be evaluated. -/
def along (exec : ∀ c, σ → Answer c×σ) (ok : Call → σ → Bool) :
    Script Call Answer Input Error α → σ → Bool
  | .call c k,s => ok c s && along exec ok (k (exec c s).1) (exec c s).2
  | _,_ => true

theorem along_iff {exec : ∀ c, σ → Answer c×σ} {ok : Call → σ → Bool}
    {p : Script Call Answer Input Error α} {s : σ} :
    along exec ok p s=true ↔ Along exec (fun c s => ok c s=true) p s := by
  induction p generalizing s with
  | done a => exact ⟨fun _ => trivial,fun _ => rfl⟩
  | fail e => exact ⟨fun _ => trivial,fun _ => rfl⟩
  | call c k ih => rw [along,Along,Bool.and_eq_true,ih]
  | await k => exact ⟨fun _ => trivial,fun _ => rfl⟩

theorem Along.mono {exec : ∀ c, σ → Answer c×σ} {ok ok' : Call → σ → Prop}
    (h : ∀ c s,ok c s → ok' c s) {p : Script Call Answer Input Error α} {s : σ}
    (hp : Along exec ok p s) : Along exec ok' p s := by
  induction p generalizing s with
  | done a => trivial
  | fail e => trivial
  | call c k ih => exact ⟨h c s hp.1,ih _ hp.2⟩
  | await k => trivial

namespace System

variable (S : System Call Answer Input Error α σ Op)

/-- Every call of a run meets a condition that can be evaluated. -/
def lands (ok : List (Thread Call Answer Input Error α Op) → Call → σ → Bool) :
    Pool Call Answer Input Error α σ Op → List (Event Op Input) → Bool
  | _,[] => true
  | P,.start op::events =>
    along S.exec (ok P.threads) (S.body op) P.shared && lands ok (S.step P (.start op)) events
  | P,.resume n i::events =>
    (match P.threads[n]? with
      | some ⟨_,.await k⟩ => along S.exec (ok (P.threads.eraseIdx n)) (k i) P.shared
      | _ => true) && lands ok (S.step P (.resume n i)) events

variable {S}

/-- A checked run is admitted. -/
theorem lands_admits {ok : List (Thread Call Answer Input Error α Op) → Call → σ → Bool}
    (hok : ∀ others c s,ok others c s=true → ok' others c s)
    {P : Pool Call Answer Input Error α σ Op} {events : List (Event Op Input)}
    (h : S.lands ok P events=true) : S.Admits (S.Landing ok') P events := by
  induction events generalizing P with
  | nil => trivial
  | cons e events ih =>
    cases e with
    | start op =>
      rw [lands,Bool.and_eq_true,along_iff] at h
      exact ⟨h.1.mono (hok P.threads),ih h.2⟩
    | resume n i =>
      rw [lands,Bool.and_eq_true] at h
      refine ⟨fun t k ht hk => ?_,ih h.2⟩
      obtain ⟨origin,rest⟩ := t
      cases hk
      have hsegment := h.1
      rw [ht] at hsegment
      exact ((along_iff).mp hsegment).mono (hok _)

end System

end Evaluation

end NadSafe.ScriptPool
