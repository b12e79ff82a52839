import NadSafe.ResponseScript

/-!
# Runs as seen from one of their moves

Operations of a run may rely on what the run has done so far: which operation
has moved, and from which state. A contract of the operations speaks of the
moves that are known, and every move of a run keeps its guarantee with respect
to the moves up to itself. Nothing is assumed about the order of the steps.
-/

namespace NadSafe.ObservedRuns

open AsyncScript ScriptPool RelyScript TracedRuns
open RecordedRuns (released released_eq released_none)

variable {Call : Type} {Answer : Call → Type} {Input Error α σ Op : Type}

/-- What an operation relies on: the others, and that its own move is known. -/
def Relies (moved : Op → σ → Prop) (R : σ → σ → Prop) (op : Op) (s s' : σ) : Prop := R s s' ∧ moved op s'

/-- The conditions on the operations of a system, as long as only moves are
made that are known. -/
structure Contract (S : System Call Answer Input Error α σ Op) (moved : Op → σ → Prop) (I : σ → Prop)
    (R : σ → σ → Prop) (G : Op → σ → σ → Prop) (Q : Op → α → σ → σ → Prop) : Prop where
  /-- The text of an operation. -/
  body : ∀ op s,I s → moved op s → Bears S.exec (Relies moved R op) (G op) (Q op) (S.body op) s s
  /-- Nothing happens. -/
  refl : ∀ s,I s → R s s
  /-- More than one step happens. -/
  trans : ∀ a b c,R a b → R b c → R a c
  /-- A segment of a known operation keeps the invariant. -/
  inv : ∀ op (p : Script Call Answer Input Error α) s s',I s → moved op s → Ended (G op) (Q op) p s s' → I s'
  /-- It is what the others rely on. -/
  rely : ∀ op (p : Script Call Answer Input Error α) s s',I s → moved op s → Ended (G op) (Q op) p s s' → R s s'

/-- The move of a decision, if it makes one, is known. -/
def Observed (S : System Call Answer Input Error α σ Op) (moved : Op → σ → Prop)
    (P : Pool Call Answer Input Error α σ Op) (e : Event Op Input) : Prop :=
  ∀ m,moveOf S P e=some m → moved m.op m.before

/-- The invariant and the texts of the operations in flight. -/
structure Holds (S : System Call Answer Input Error α σ Op) (moved : Op → σ → Prop) (I : σ → Prop)
    (R : σ → σ → Prop) (G : Op → σ → σ → Prop) (Q : Op → α → σ → σ → Prop)
    (P : Pool Call Answer Input Error α σ Op) : Prop where
  /-- Shared state. -/
  shared : I P.shared
  /-- Operations. -/
  threads : ∀ (n : ℕ) (t : Thread Call Answer Input Error α Op),P.threads[n]?=some t →
    Parked S.exec (Relies moved R t.origin) (G t.origin) (Q t.origin) t.rest P.shared

/-- What a history knows. -/
def MovedIn (history : List (Move Error α σ Op)) (op : Op) (s : σ) : Prop :=
  ∃ m∈history,m.op=op ∧ m.before=s

section Steps

variable {S : System Call Answer Input Error α σ Op} {moved : Op → σ → Prop} {I : σ → Prop}
  {R : σ → σ → Prop} {G : Op → σ → σ → Prop} {Q : Op → α → σ → σ → Prop}
  {P : Pool Call Answer Input Error α σ Op}

/-- A parked text stays so while others move. -/
theorem parked_stable (htrans : ∀ a b c,R a b → R b c → R a c) {op : Op} {s s' : σ}
    {p : Script Call Answer Input Error α} (h : Parked S.exec (Relies moved R op) (G op) (Q op) p s) (hs : R s s') :
    Parked S.exec (Relies moved R op) (G op) (Q op) p s' := by
  cases p with
  | await k => exact fun i s'' hs' => h i s'' ⟨htrans _ _ _ hs hs'.1,hs'.2⟩
  | _ => trivial

/-- A segment of an operation and what it leaves behind. -/
theorem segment (hC : Contract S moved I R G Q) (hP : Holds S moved I R G Q P) {e : Event Op Input} {op : Op}
    {p : Script Call Answer Input Error α} (hr : releasedBy S P e=some (op,p)) (hm : moved op P.shared) :
    Ended (G op) (Q op) (settle S.exec p P.shared).1 P.shared (settle S.exec p P.shared).2 ∧
      Parked S.exec (Relies moved R op) (G op) (Q op) (settle S.exec p P.shared).1 (settle S.exec p P.shared).2 := by
  cases e with
  | start op' =>
    cases hr
    exact (hC.body op P.shared hP.shared hm).settle
  | resume n i =>
    obtain ⟨k,ht,rfl⟩ := released_eq hr
    exact (hP.threads n _ ht i P.shared ⟨hC.refl _ hP.shared,hm⟩).settle

/-- The pool after a decision that releases a text. -/
theorem step_released {e : Event Op Input} {op : Op} {p : Script Call Answer Input Error α}
    (hr : releasedBy S P e=some (op,p)) :
    (S.step P e).shared=(settle S.exec p P.shared).2 ∧
      ∀ (n : ℕ) (t : Thread Call Answer Input Error α Op),(S.step P e).threads[n]?=some t →
        t=⟨op,(settle S.exec p P.shared).1⟩ ∨ P.threads[n]?=some t := by
  cases e with
  | start op' =>
    cases hr
    refine ⟨rfl,fun n t ht => ?_⟩
    have ht' : (P.threads++[⟨op,(settle S.exec (S.body op) P.shared).1⟩])[n]?=some t := ht
    rcases Nat.lt_or_ge n P.threads.length with hlt|hge
    · rw [List.getElem?_append_left hlt] at ht'
      exact .inr ht'
    · rw [List.getElem?_append_right hge] at ht'
      exact .inl (List.mem_singleton.mp (List.mem_of_getElem? ht'))
  | resume m i =>
    obtain ⟨k,ht,rfl⟩ := released_eq hr
    rw [System.step_resume ht rfl i]
    refine ⟨rfl,fun n t hn => ?_⟩
    have hn' : (P.threads.set m ⟨op,(settle S.exec (k i) P.shared).1⟩)[n]?=some t := hn
    by_cases hsame : m=n
    · subst hsame
      have hlt : m<P.threads.length := (List.getElem?_eq_some_iff.mp ht).1
      rw [List.getElem?_set_self hlt] at hn'
      exact .inl (Option.some.inj hn').symm
    · rw [List.getElem?_set_ne hsame] at hn'
      exact .inr hn'

/-- A known move keeps everything. -/
theorem Holds.step (hC : Contract S moved I R G Q) (hP : Holds S moved I R G Q P) {e : Event Op Input}
    (he : Observed S moved P e) : Holds S moved I R G Q (S.step P e) := by
  cases hr : releasedBy S P e with
  | none =>
    have hidle : S.step P e=P := step_of_moveOf_none (Option.map_eq_none_iff.mpr hr)
    exact hidle.symm ▸ hP
  | some released =>
    obtain ⟨op,p⟩ := released
    have hm : moved op P.shared := he _ (Option.map_eq_some_iff.mpr ⟨_,hr,rfl⟩)
    obtain ⟨hended,hparked⟩ := segment hC hP hr hm
    obtain ⟨hshared,hthreads⟩ := step_released hr
    refine ⟨hshared ▸ hC.inv op _ _ _ hP.shared hm hended,fun n t ht => ?_⟩
    rw [hshared]
    rcases hthreads n t ht with rfl|hold
    · exact hparked
    · exact parked_stable hC.trans (hP.threads n t hold) (hC.rely op _ _ _ hP.shared hm hended)

/-- The run lemma. -/
theorem Holds.run (hC : Contract S moved I R G Q) (hP : Holds S moved I R G Q P) {events : List (Event Op Input)}
    (hrun : S.Admits (Observed S moved) P events) : Holds S moved I R G Q (S.run P events) :=
  StepRuns.run_invariant (fun _ _ hP he => Holds.step hC hP he) hP hrun

/-- An idle pool. -/
theorem Holds.idle {s : σ} (hs : I s) : Holds S moved I R G Q ⟨s,[]⟩ := ⟨hs,fun n t ht => by simp at ht⟩

/-- The move of a decision shows its guarantee. -/
theorem shows_move (hC : Contract S moved I R G Q) (hP : Holds S moved I R G Q P) {e : Event Op Input}
    {m : Move Error α σ Op} (h : moveOf S P e=some m) (hm : moved m.op m.before) : Shows I G Q m := by
  obtain ⟨⟨op,p⟩,hr,rfl⟩ := Option.map_eq_some_iff.mp h
  exact shows_of_ended hP.shared (segment hC hP hr hm).1

end Steps

section Histories

variable {S : System Call Answer Input Error α σ Op} {P : Pool Call Answer Input Error α σ Op}
  {history later : List (Move Error α σ Op)} {m : Move Error α σ Op}

/-- A move of a run is made by one of its decisions, after those that have made
the moves before. -/
theorem split_trace {events : List (Event Op Input)} (h : trace S P events=history++m::later) :
    ∃ before e after,events=before++e::after ∧ trace S P before=history ∧ moveOf S (S.run P before) e=some m := by
  induction events generalizing P history with
  | nil => simp [trace] at h
  | cons e events ih =>
    cases hm : moveOf S P e with
    | none =>
      rw [trace,hm,Option.toList_none,List.nil_append] at h
      obtain ⟨before,e',after,rfl,hbefore,he'⟩ := ih h
      refine ⟨e::before,e',after,rfl,?_,he'⟩
      rw [trace,hm,Option.toList_none,List.nil_append]
      exact hbefore
    | some m' =>
      rw [trace,hm,Option.toList_some,List.singleton_append] at h
      cases history with
      | nil =>
        rw [List.nil_append,List.cons.injEq] at h
        exact ⟨[],e,events,rfl,rfl,hm.trans (congrArg some h.1)⟩
      | cons m'' history =>
        rw [List.cons_append,List.cons.injEq] at h
        obtain ⟨rfl,h⟩ := h
        obtain ⟨before,e',after,rfl,hbefore,he'⟩ := ih h
        refine ⟨e::before,e',after,rfl,?_,he'⟩
        rw [trace,hm,Option.toList_some,List.singleton_append,hbefore]

/-- Decisions whose moves are known. -/
theorem admits_of_trace {moved : Op → σ → Prop} {events : List (Event Op Input)}
    (h : ∀ m∈trace S P events,moved m.op m.before) : S.Admits (Observed S moved) P events := by
  induction events generalizing P with
  | nil => trivial
  | cons e events ih =>
    rw [trace] at h
    refine ⟨fun m hm => h m ?_,ih fun m hm => h m (List.mem_append_right _ hm)⟩
    rw [hm]
    exact List.mem_append_left _ List.mem_cons_self

/-- In every run from an idle state, each move keeps its guarantee with respect
to the moves up to itself. -/
theorem shows_of_trace {I : σ → Prop} {R : σ → σ → Prop} {G : Op → σ → σ → Prop} {Q : Op → α → σ → σ → Prop}
    (hC : Contract S (MovedIn (history++[m])) I R G Q) {s : σ} (hs : I s) {events : List (Event Op Input)}
    (h : trace S ⟨s,[]⟩ events=history++m::later) : Shows I G Q m := by
  obtain ⟨before,e,after,-,hbefore,hm⟩ := split_trace h
  have hadmits : S.Admits (Observed S (MovedIn (history++[m]))) ⟨s,[]⟩ before := by
    refine admits_of_trace fun m' hm' => ⟨m',?_,rfl,rfl⟩
    rw [hbefore] at hm'
    exact List.mem_append_left _ hm'
  have hholds := Holds.run hC (Holds.idle hs) hadmits
  exact shows_move hC hholds hm ⟨m,by simp,rfl,rfl⟩

end Histories

end NadSafe.ObservedRuns
