import NadSafe.ScriptPool

/-!
# Interleaved runs with a record

A run together with the record of what its operations did, in the order in
which it took effect: starts, marked calls and results, each with the index of
the operation. A discipline is a condition on calls and results that may refer
to the record so far. The rule at the end derives an invariant of the shared
state and the record from what single calls keep.
-/

namespace NadSafe.RecordedRuns

open AsyncScript ScriptPool

variable {Call : Type} {Answer : Call → Type} {Input Error α σ Op Mark : Type}

/-- One entry of the record. -/
inductive Entry (Mark : Type) where
  /-- The operation with this index starts. -/
  | started (n : ℕ)
  /-- It makes a call that the record keeps. -/
  | marked (n : ℕ) (mark : Mark)
  /-- It has its result. -/
  | settled (n : ℕ)
  deriving DecidableEq

/-- The operation of an entry. -/
def Entry.index : Entry Mark → ℕ
  | .started n => n
  | .marked n _ => n
  | .settled n => n

/-- A pool and the record of the run that led to it. -/
structure Recorded (Call : Type) (Answer : Call → Type) (Input Error α σ Op Mark : Type) where
  /-- The pool. -/
  pool : Pool Call Answer Input Error α σ Op
  /-- What happened so far, oldest first. -/
  log : List (Entry Mark)

/-- The entry of one call with its answer, if it is kept. -/
def entryOf (mark : Op → ∀ c : Call,Answer c → Option Mark) (n : ℕ) (op : Op) (c : Call) (r : Answer c) :
    List (Entry Mark) :=
  ((mark op c r).map (.marked n)).toList

/-- The entries of one segment. -/
def entries (exec : ∀ c, σ → Answer c×σ) (mark : Op → ∀ c : Call,Answer c → Option Mark) (n : ℕ) (op : Op) :
    Script Call Answer Input Error α → σ → List (Entry Mark)
  | .done _,_ => [.settled n]
  | .fail _,_ => [.settled n]
  | .call c k,s => entryOf mark n op c (exec c s).1++entries exec mark n op (k (exec c s).1) (exec c s).2
  | .await _,_ => []

/-- A condition on what operations do, in view of the state and the record so
far. -/
structure Discipline (Call : Type) (Answer : Call → Type) (Input Error α σ Op Mark : Type) where
  /-- The operation may make the call. -/
  call : ℕ → Op → Call → σ → List (Entry Mark) → Bool
  /-- The operation may end with this result. -/
  finish : ℕ → Op → Script Call Answer Input Error α → List (Entry Mark) → Bool

/-- A segment keeps to a discipline. -/
def Discipline.along (D : Discipline Call Answer Input Error α σ Op Mark) (exec : ∀ c, σ → Answer c×σ)
    (mark : Op → ∀ c : Call,Answer c → Option Mark) (n : ℕ) (op : Op) :
    Script Call Answer Input Error α → σ → List (Entry Mark) → Bool
  | .done a,_,log => D.finish n op (.done a) log
  | .fail e,_,log => D.finish n op (.fail e) log
  | .call c k,s,log => D.call n op c s log &&
    D.along exec mark n op (k (exec c s).1) (exec c s).2 (log++entryOf mark n op c (exec c s).1)
  | .await _,_,_ => true

/-- The text that an arrival releases. -/
def released (P : Pool Call Answer Input Error α σ Op) (n : ℕ) (i : Arrival Input) :
    Option (Op×Script Call Answer Input Error α) :=
  match P.threads[n]? with
  | some ⟨op,.await k⟩ => some (op,k i)
  | _ => none

section Runs

variable (S : System Call Answer Input Error α σ Op) (mark : Op → ∀ c : Call,Answer c → Option Mark)

/-- The entries of one decision. -/
def stepEntries (P : Pool Call Answer Input Error α σ Op) : Event Op Input → List (Entry Mark)
  | .start op => .started P.threads.length::
    entries S.exec mark P.threads.length op (S.body op) P.shared
  | .resume n i =>
    match released P n i with
    | some (op,p) => entries S.exec mark n op p P.shared
    | none => []

/-- One decision and its entries. -/
def step (W : Recorded Call Answer Input Error α σ Op Mark) (e : Event Op Input) :
    Recorded Call Answer Input Error α σ Op Mark :=
  ⟨S.step W.pool e,W.log++stepEntries S mark W.pool e⟩

/-- The record of a run that starts with an idle pool. -/
def record (s : σ) (events : List (Event Op Input)) : Recorded Call Answer Input Error α σ Op Mark :=
  StepRuns.run (step S mark) ⟨⟨s,[]⟩,[]⟩ events

variable (D : Discipline Call Answer Input Error α σ Op Mark)

/-- A decision keeps to a discipline. -/
def keeps (W : Recorded Call Answer Input Error α σ Op Mark) : Event Op Input → Bool
  | .start op => D.along S.exec mark W.pool.threads.length op (S.body op) W.pool.shared
    (W.log++[Entry.started W.pool.threads.length])
  | .resume n i =>
    match released W.pool n i with
    | some (op,p) => D.along S.exec mark n op p W.pool.shared W.log
    | none => true

/-- A run keeps to a discipline. -/
def keepsAll (W : Recorded Call Answer Input Error α σ Op Mark) : List (Event Op Input) → Bool
  | [] => true
  | e::events => keeps S mark D W e && keepsAll (step S mark W e) events

end Runs

variable {S : System Call Answer Input Error α σ Op} {mark : Op → ∀ c : Call,Answer c → Option Mark}
  {D : Discipline Call Answer Input Error α σ Op Mark}

/-- The record does not influence the run. -/
theorem record_pool (s : σ) (events : List (Event Op Input)) :
    (record S mark s events).pool=S.run ⟨s,[]⟩ events := by
  have hrun (W : Recorded Call Answer Input Error α σ Op Mark) :
      (StepRuns.run (step S mark) W events).pool=S.run W.pool events := by
    induction events generalizing W with
    | nil => rfl
    | cons e events ih => exact ih (step S mark W e)
  exact hrun _

theorem released_eq {P : Pool Call Answer Input Error α σ Op} {n : ℕ} {i : Arrival Input} {op : Op}
    {p : Script Call Answer Input Error α} (h : released P n i=some (op,p)) :
    ∃ k,P.threads[n]?=some ⟨op,.await k⟩ ∧ p=k i := by
  unfold released at h
  split at h
  · rename_i op' k ht
    cases h
    exact ⟨k,ht,rfl⟩
  · cases h

/-- An arrival that releases nothing changes nothing. -/
theorem released_none {P : Pool Call Answer Input Error α σ Op} {n : ℕ} {i : Arrival Input}
    (h : released P n i=none) : S.step P (.resume n i)=P := by
  refine System.step_resume_idle (fun t k ht hk => ?_) i
  obtain ⟨op,rest⟩ := t
  cases hk
  unfold released at h
  rw [ht] at h
  cases h

/-- The entries of a segment are about its operation. -/
theorem index_entries {exec : ∀ c, σ → Answer c×σ} {n : ℕ} {op : Op}
    {p : Script Call Answer Input Error α} {s : σ} {e : Entry Mark}
    (h : e∈entries exec mark n op p s) : e.index=n := by
  induction p generalizing s with
  | done a =>
    rw [entries,List.mem_singleton] at h
    rw [h]
    rfl
  | fail error =>
    rw [entries,List.mem_singleton] at h
    rw [h]
    rfl
  | call c k ih =>
    rcases List.mem_append.mp h with h|h
    · unfold entryOf at h
      rw [Option.mem_toList,Option.map_eq_some_iff] at h
      obtain ⟨mark,-,rfl⟩ := h
      rfl
    · exact ih _ h
  | await k => cases h

/-- What holds of the operation at an index, in a state with a record. -/
structure Kept (I : σ → List (Entry Mark) → Prop)
    (T : ℕ → Op → Script Call Answer Input Error α → σ → List (Entry Mark) → Prop)
    (W : Recorded Call Answer Input Error α σ Op Mark) : Prop where
  /-- The invariant of the state and the record. -/
  shared : I W.pool.shared W.log
  /-- The assertion about every operation. -/
  threads : ∀ n t,W.pool.threads[n]?=some t → T n t.origin t.rest W.pool.shared W.log
  /-- The record is about the operations of the pool. -/
  indices : ∀ e∈W.log,e.index<W.pool.threads.length

/-- Everything that the calls of one operation have to keep: the invariant, an
assertion `M` about the moving operation and the assertions `T` about the
others. -/
structure Moves (I : σ → List (Entry Mark) → Prop)
    (M T : ℕ → Op → Script Call Answer Input Error α → σ → List (Entry Mark) → Prop)
    (others : ℕ → Op → Script Call Answer Input Error α → Prop) (n : ℕ) (op : Op)
    (p : Script Call Answer Input Error α) (s : σ) (log : List (Entry Mark)) : Prop where
  /-- The invariant. -/
  shared : I s log
  /-- The assertion about the moving operation. -/
  moved : M n op p s log
  /-- The assertions about the others. -/
  stable : ∀ m op' q,m≠n → others m op' q → T m op' q s log

/-- The obligations of the rule, for an assertion `M` inside a segment and an
assertion `T` between segments. -/
structure Preserved (S : System Call Answer Input Error α σ Op) (mark : Op → ∀ c : Call,Answer c → Option Mark)
    (D : Discipline Call Answer Input Error α σ Op Mark) (I : σ → List (Entry Mark) → Prop)
    (M T : ℕ → Op → Script Call Answer Input Error α → σ → List (Entry Mark) → Prop) : Prop where
  /-- A start or a result, seen by the invariant. -/
  shared : ∀ s log e,(∀ k mark,e≠.marked k mark) → I s log → I s (log++[e])
  /-- A start or a result, seen by another operation. -/
  stable : ∀ m op p s log e,(∀ k mark,e≠.marked k mark) → T m op p s log → T m op p s (log++[e])
  /-- A start, seen by the started operation. -/
  start : ∀ n op s log,I s log → (∀ e∈log,e.index<n) → M n op (S.body op) s (log++[Entry.started n])
  /-- An arrival. -/
  arrive : ∀ n op k i s log,T n op (.await k) s log → M n op (k i) s log
  /-- A call. -/
  call : ∀ others n op c k s log,Moves I M T others n op (.call c k) s log → D.call n op c s log=true →
    Moves I M T others n op (k (S.exec c s).1) (S.exec c s).2 (log++entryOf mark n op c (S.exec c s).1)
  /-- A suspension. -/
  park : ∀ n op k s log,M n op (.await k) s log → T n op (.await k) s log
  /-- A result, seen by the operation. -/
  finish : ∀ n op p s log,M n op p s log → p.settled=true → D.finish n op p log=true →
    T n op p s (log++[Entry.settled n])

variable {I : σ → List (Entry Mark) → Prop}
  {M T : ℕ → Op → Script Call Answer Input Error α → σ → List (Entry Mark) → Prop}

/-- The end of an operation. -/
theorem Preserved.ends (h : Preserved S mark D I M T)
    {others : ℕ → Op → Script Call Answer Input Error α → Prop} {n : ℕ} {op : Op}
    {p : Script Call Answer Input Error α} {s : σ} {log : List (Entry Mark)}
    (hm : Moves I M T others n op p s log) (hp : p.settled=true) (hD : D.finish n op p log=true) :
    Moves I T T others n op p s (log++[Entry.settled n]) where
  shared := h.shared s log _ (by simp) hm.shared
  moved := h.finish n op p s log hm.moved hp hD
  stable := fun m op' q hne hq => h.stable m op' q s log _ (by simp) (hm.stable m op' q hne hq)

/-- A segment keeps what its calls keep. -/
theorem Preserved.segment (h : Preserved S mark D I M T)
    {others : ℕ → Op → Script Call Answer Input Error α → Prop} {n : ℕ} {op : Op}
    {p : Script Call Answer Input Error α} {s : σ} {log : List (Entry Mark)}
    (hm : Moves I M T others n op p s log) (hD : D.along S.exec mark n op p s log=true) :
    Moves I T T others n op (settle S.exec p s).1 (settle S.exec p s).2
      (log++entries S.exec mark n op p s) := by
  induction p generalizing s log with
  | done a => exact h.ends hm rfl hD
  | fail e => exact h.ends hm rfl hD
  | call c k ih =>
    rw [Discipline.along,Bool.and_eq_true] at hD
    have hnext := ih _ (h.call others n op c k s log hm hD.1) hD.2
    rw [List.append_assoc] at hnext
    exact hnext
  | await k =>
    rw [entries,List.append_nil]
    exact ⟨hm.shared,h.park n op k s log hm.moved,hm.stable⟩

theorem Preserved.step (h : Preserved S mark D I M T) {W : Recorded Call Answer Input Error α σ Op Mark}
    (hW : Kept I T W) {e : Event Op Input} (hD : keeps S mark D W e=true) :
    Kept I T (step S mark W e) := by
  cases e with
  | start op =>
    have hstart : Moves I M T (fun m op' q => W.pool.threads[m]?=some ⟨op',q⟩) W.pool.threads.length op
        (S.body op) W.pool.shared (W.log++[Entry.started W.pool.threads.length]) := {
      shared := h.shared _ _ _ (by simp) hW.shared
      moved := h.start _ _ _ _ hW.shared hW.indices
      stable := fun m op' q _ hq => h.stable m op' q _ _ _ (by simp) (hW.threads m _ hq) }
    have hend := h.segment hstart hD
    rw [List.append_assoc,List.singleton_append] at hend
    refine ⟨hend.shared,fun n t ht => ?_,fun e he => ?_⟩
    rotate_left
    · have hlength : (S.step W.pool (.start op)).threads.length=W.pool.threads.length+1 := by
        simp [System.step]
      have hindex : e.index<W.pool.threads.length ∨ e.index=W.pool.threads.length := by
        rcases List.mem_append.mp he with he|he
        · exact .inl (hW.indices e he)
        · right
          rcases List.mem_cons.mp he with rfl|he
          · rfl
          · exact index_entries he
      show e.index<(S.step W.pool (.start op)).threads.length
      omega
    simp only [RecordedRuns.step,System.step] at ht ⊢
    rcases Nat.lt_trichotomy n W.pool.threads.length with hlt|rfl|hgt
    · rw [List.getElem?_append_left hlt] at ht
      exact hend.stable n t.origin t.rest (Nat.ne_of_lt hlt) ht
    · rw [List.getElem?_concat_length] at ht
      cases ht
      exact hend.moved
    · have hnone : (W.pool.threads++[⟨op,(settle S.exec (S.body op) W.pool.shared).1⟩])[n]?=none := by
        rw [List.getElem?_eq_none_iff,List.length_append,List.length_singleton]
        omega
      rw [hnone] at ht
      cases ht
  | resume n i =>
    cases hreleased : released W.pool n i with
    | none =>
      have hsame : RecordedRuns.step S mark W (.resume n i)=W := by
        simp [RecordedRuns.step,stepEntries,hreleased,released_none hreleased]
      rw [hsame]
      exact hW
    | some text =>
      obtain ⟨op,p⟩ := text
      obtain ⟨k,ht,rfl⟩ := released_eq hreleased
      have hmove : Moves I M T (fun m op' q => W.pool.threads[m]?=some ⟨op',q⟩) n op (k i) W.pool.shared
          W.log := {
        shared := hW.shared
        moved := h.arrive n op k i _ _ (hW.threads n _ ht)
        stable := fun m op' q _ hq => hW.threads m _ hq }
      rw [keeps,hreleased] at hD
      have hend := h.segment hmove hD
      have hstep : S.step W.pool (.resume n i)=⟨(settle S.exec (k i) W.pool.shared).2,
          W.pool.threads.set n ⟨op,(settle S.exec (k i) W.pool.shared).1⟩⟩ :=
        System.step_resume ht rfl i
      have hlog : stepEntries S mark W.pool (.resume n i)=
          entries S.exec mark n op (k i) W.pool.shared := by
        rw [stepEntries,hreleased]
      have hn : n<W.pool.threads.length := (List.getElem?_eq_some_iff.mp ht).1
      rw [RecordedRuns.step,hstep,hlog]
      refine ⟨hend.shared,fun m t hm => ?_,fun e he => ?_⟩
      rotate_left
      · rw [List.length_set]
        rcases List.mem_append.mp he with he|he
        · exact hW.indices e he
        · rw [index_entries he]
          exact hn
      dsimp only at hm ⊢
      rw [List.getElem?_set] at hm
      split at hm
      · rename_i hmn
        subst hmn
        cases hm
        exact hend.moved
      · rename_i hmn
        exact hend.stable m t.origin t.rest (Ne.symm hmn) hm

/-- What every call of a disciplined run keeps, holds after the run. -/
theorem Preserved.run (h : Preserved S mark D I M T) {W : Recorded Call Answer Input Error α σ Op Mark}
    (hW : Kept I T W) {events : List (Event Op Input)} (hD : keepsAll S mark D W events=true) :
    Kept I T (StepRuns.run (RecordedRuns.step S mark) W events) := by
  induction events generalizing W with
  | nil => exact hW
  | cons e events ih =>
    rw [keepsAll,Bool.and_eq_true] at hD
    exact ih (h.step hW hD.1) hD.2

/-- The same from an idle pool. -/
theorem Preserved.record (h : Preserved S mark D I M T) {s : σ} (hs : I s [])
    {events : List (Event Op Input)} (hD : keepsAll S mark D ⟨⟨s,[]⟩,[]⟩ events=true) :
    Kept I T (RecordedRuns.record S mark s events) :=
  h.run ⟨hs,fun _ _ ht => absurd ht (by simp),fun _ he => absurd he List.not_mem_nil⟩ hD

end NadSafe.RecordedRuns
