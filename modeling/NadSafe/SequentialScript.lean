import NadSafe.ScriptPool

/-!
# Uninterrupted runs of one script

A script that runs from its start to its end while nothing else touches the
shared state. The rules compute what holds at the end from what holds at the
start, for every list of arrivals, and turn contracts of script texts into
such facts.
-/

namespace NadSafe.SequentialScript

open AsyncScript ScriptPool

variable {Call : Type} {Answer : Call → Type} {Input Error α β σ : Type}

/-- Run a script over a list of arrivals. -/
def finish (exec : ∀ c, σ → Answer c×σ) (p : Script Call Answer Input Error α)
    (arrivals : List (Arrival Input)) (s : σ) : Script Call Answer Input Error α×σ :=
  arrivals.foldl (fun run i => resume exec run.1 i run.2) (settle exec p s)

/-- Every uninterrupted run whose arrivals satisfy `ok` completes with `Q` or
rejects with `E`. -/
def Ensures (exec : ∀ c, σ → Answer c×σ) (ok : Arrival Input → Prop) (Q : α → σ → Prop)
    (E : σ → Prop) : Script Call Answer Input Error α → σ → Prop
  | .done a,s => Q a s
  | .fail _,s => E s
  | .call c k,s => Ensures exec ok Q E (k (exec c s).1) (exec c s).2
  | .await k,s => ∀ i,ok i → Ensures exec ok Q E (k i) s

variable {exec : ∀ c, σ → Answer c×σ} {ok : Arrival Input → Prop} {Q : α → σ → Prop} {E : σ → Prop}

/-- A result may be weakened. -/
theorem Ensures.mono {Q' : α → σ → Prop} {E' : σ → Prop} {p : Script Call Answer Input Error α}
    {s : σ} (h : Ensures exec ok Q E p s) (hQ : ∀ a s,Q a s → Q' a s) (hE : ∀ s,E s → E' s) :
    Ensures exec ok Q' E' p s := by
  induction p generalizing s with
  | done a => exact hQ a s h
  | fail e => exact hE s h
  | call c k ih => exact ih _ h
  | await k ih => exact fun i hi => ih i (h i hi)

/-- A call continues with its answer. -/
theorem Ensures.perform {c : Call} {f : Answer c → Script Call Answer Input Error α} {r : Answer c}
    {s s' : σ} (hc : exec c s=(r,s')) (h : Ensures exec ok Q E (f r) s') :
    Ensures exec ok Q E ((Script.perform c).bind f) s := by
  rw [Script.perform,Script.bind,Ensures,hc]
  exact h

/-- A sequence continues with what its first part ensures. -/
theorem Ensures.bind {p : Script Call Answer Input Error α}
    {f : α → Script Call Answer Input Error β} {Q' : β → σ → Prop} {s : σ}
    (h : Ensures exec ok Q E p s) (hf : ∀ a s,Q a s → Ensures exec ok Q' E (f a) s) :
    Ensures exec ok Q' E (p.bind f) s := by
  induction p generalizing s with
  | done a => exact hf a s h
  | fail e => exact h
  | call c k ih => exact ih _ h
  | await k ih => exact fun i hi => ih i (h i hi)

/-- A handler continues where the guarded script may reject. -/
theorem Ensures.rescue {p : Script Call Answer Input Error α}
    {handler : Error → Script Call Answer Input Error α} {E' : σ → Prop} {s : σ}
    (h : Ensures exec ok Q E p s) (hh : ∀ e s,E s → Ensures exec ok Q E' (handler e) s) :
    Ensures exec ok Q E' (p.rescue handler) s := by
  induction p generalizing s with
  | done a => exact h
  | fail e => exact hh e s h
  | call c k ih => exact ih _ h
  | await k ih => exact fun i hi => ih i (h i hi)

/-- A contract whose calls answer as assumed and keep an invariant. -/
theorem Ensures.of_obeys {pre : Call → Prop} {post : ∀ c, Answer c → Prop} {R : α → Prop}
    {I : σ → Prop} (hcall : ∀ c s,I s → pre c → post c (exec c s).1 ∧ I (exec c s).2)
    {p : Script Call Answer Input Error α} (hp : p.Obeys pre post R) {s : σ} (hs : I s) :
    Ensures exec ok (fun a s => R a ∧ I s) I p s := by
  induction p generalizing s with
  | done a => exact ⟨hp,hs⟩
  | fail e => exact hs
  | call c k ih =>
    have hc := hcall c s hs hp.1
    exact ih _ (hp.2 _ hc.1) hc.2
  | await k ih => exact fun i _ => ih i (hp i) hs

/-- A part of the state that no call of a script touches is as before. -/
theorem Ensures.frame {τ : Type} {part : σ → τ} {pre : Call → Prop} {R : α → Prop}
    (hcall : ∀ c s,pre c → part (exec c s).2=part s) {p : Script Call Answer Input Error α}
    (hp : p.Obeys pre (fun _ _ => True) R) (s : σ) :
    Ensures exec ok (fun a s' => R a ∧ part s'=part s) (fun s' => part s'=part s) p s := by
  have hkeep : ∀ c s',part s'=part s → pre c → True ∧ part (exec c s').2=part s :=
    fun c s' hs hc => ⟨trivial,(hcall c s' hc).trans hs⟩
  exact Ensures.of_obeys (I:=fun s' => part s'=part s) hkeep hp rfl

/-- What a script ensures, it ensures after its first segment. -/
theorem Ensures.settle {p : Script Call Answer Input Error α} {s : σ}
    (h : Ensures exec ok Q E p s) :
    Ensures exec ok Q E (settle exec p s).1 (settle exec p s).2 := by
  induction p generalizing s with
  | done a => exact h
  | fail e => exact h
  | call c k ih => exact ih _ h
  | await k => exact h

/-- And after any arrivals. -/
theorem Ensures.finish {p : Script Call Answer Input Error α} {arrivals : List (Arrival Input)}
    {s : σ} (h : Ensures exec ok Q E p s) (hok : ∀ i∈arrivals,ok i) :
    Ensures exec ok Q E (finish exec p arrivals s).1 (finish exec p arrivals s).2 := by
  have hstart := h.settle
  unfold SequentialScript.finish
  generalize ScriptPool.settle exec p s=run at hstart
  induction arrivals generalizing run with
  | nil => exact hstart
  | cons i arrivals ih =>
    have hi := hok i List.mem_cons_self
    refine ih (fun j hj => hok j (List.mem_cons_of_mem i hj)) (resume exec run.1 i run.2) ?_
    obtain ⟨rest,state⟩ := run
    cases rest with
    | done a => exact hstart
    | fail e => exact hstart
    | call c k => exact hstart
    | await k => exact (hstart i hi).settle

/-- A completed script leaves what it ensures in every outcome. -/
theorem Ensures.completed {I : σ → Prop} {p : Script Call Answer Input Error α}
    {arrivals : List (Arrival Input)} {s : σ} (h : Ensures exec ok (fun _ => I) I p s)
    (hok : ∀ i∈arrivals,ok i)
    (hdone : (SequentialScript.finish exec p arrivals s).1.settled=true) :
    I (SequentialScript.finish exec p arrivals s).2 := by
  have hend := h.finish hok
  generalize SequentialScript.finish exec p arrivals s=run at hend hdone
  obtain ⟨rest,state⟩ := run
  cases rest with
  | done a => exact hend
  | fail e => exact hend
  | call c k => cases hdone
  | await k => cases hdone

/-- The result of an uninterrupted run whose suspensions are resumed with a
sequence of arrivals, one after the other. -/
def play (exec : ∀ c, σ → Answer c×σ) : Script Call Answer Input Error α → (ℕ → Arrival Input) →
    σ → Except Error α×σ
  | .done a,_,s => (.ok a,s)
  | .fail e,_,s => (.error e,s)
  | .call c k,arrivals,s => play exec (k (exec c s).1) arrivals (exec c s).2
  | .await k,arrivals,s => play exec (k (arrivals 0)) (fun n => arrivals (n+1)) s

/-- A script that ends with its result. -/
def resultScript : Except Error α → Script Call Answer Input Error α
  | .ok a => .done a
  | .error e => .fail e

/-- Nothing arrives at a settled script. -/
theorem foldl_resume_result (r : Except Error α) (arrivals : List (Arrival Input)) (s : σ) :
    arrivals.foldl (fun run i => resume exec run.1 i run.2)
      ((resultScript r : Script Call Answer Input Error α),s)=(resultScript r,s) := by
  induction arrivals with
  | nil => rfl
  | cons i arrivals ih =>
    rw [List.foldl_cons]
    cases r <;> exact ih

/-- Finitely many arrivals settle a script, with the result of the run. -/
theorem finish_play (p : Script Call Answer Input Error α) (arrivals : ℕ → Arrival Input) (s : σ) :
    ∃ n,finish exec p ((List.range n).map arrivals) s=
      (resultScript (play exec p arrivals s).1,(play exec p arrivals s).2) := by
  induction p generalizing arrivals s with
  | done a => exact ⟨0,rfl⟩
  | fail e => exact ⟨0,rfl⟩
  | call c k ih => exact ih _ arrivals _
  | await k ih =>
    obtain ⟨n,hn⟩ := ih (arrivals 0) (fun n => arrivals (n+1)) s
    refine ⟨n+1,?_⟩
    rw [List.range_succ_eq_map,List.map_cons,List.map_map]
    exact hn

/-- A script that cannot reject completes with what it ensures. -/
theorem Ensures.play {p : Script Call Answer Input Error α} {arrivals : ℕ → Arrival Input} {s : σ}
    (h : Ensures exec ok Q (fun _ => False) p s) (hok : ∀ n,ok (arrivals n)) :
    ∃ a,(SequentialScript.play exec p arrivals s).1=.ok a ∧
      Q a (SequentialScript.play exec p arrivals s).2 := by
  induction p generalizing arrivals s with
  | done a => exact ⟨a,rfl,h⟩
  | fail e => exact absurd h id
  | call c k ih => exact ih _ h hok
  | await k ih => exact ih _ (h _ (hok 0)) fun n => hok (n+1)

/-- A result that a run completes with is what the script ensures. -/
theorem Ensures.result {p : Script Call Answer Input Error α} {arrivals : ℕ → Arrival Input} {s : σ}
    {a : α} (h : Ensures exec ok Q E p s) (hok : ∀ n,ok (arrivals n))
    (ha : (SequentialScript.play exec p arrivals s).1=.ok a) :
    Q a (SequentialScript.play exec p arrivals s).2 := by
  induction p generalizing arrivals s with
  | done b =>
    cases ha
    exact h
  | fail e => cases ha
  | call c k ih => exact ih _ h hok ha
  | await k ih => exact ih _ (h _ (hok 0)) (fun n => hok (n+1)) ha

/-- A script that leaves `I` in every outcome leaves it at the end of every
run. -/
theorem Ensures.always {I : σ → Prop} {p : Script Call Answer Input Error α}
    {arrivals : ℕ → Arrival Input} {s : σ} (h : Ensures exec ok (fun _ => I) I p s)
    (hok : ∀ n,ok (arrivals n)) : I (SequentialScript.play exec p arrivals s).2 := by
  induction p generalizing arrivals s with
  | done a => exact h
  | fail e => exact h
  | call c k ih => exact ih _ h hok
  | await k ih => exact ih _ (h _ (hok 0)) fun n => hok (n+1)

/-- Some uninterrupted run with arrivals in `ok` completes with `Q` or rejects
with `E`. -/
def Allows (exec : ∀ c, σ → Answer c×σ) (ok : Arrival Input → Prop) (Q : α → σ → Prop)
    (E : σ → Prop) : Script Call Answer Input Error α → σ → Prop
  | .done a,s => Q a s
  | .fail _,s => E s
  | .call c k,s => Allows exec ok Q E (k (exec c s).1) (exec c s).2
  | .await k,s => ∃ i,ok i ∧ Allows exec ok Q E (k i) s

/-- What every run does, some run does. -/
theorem Ensures.allows {ok' : Arrival Input → Prop} {p : Script Call Answer Input Error α} {s : σ}
    (h : Ensures exec ok Q E p s) (hok : ∃ i,ok i ∧ ok' i) : Allows exec ok' Q E p s := by
  obtain ⟨i,hi,hi'⟩ := hok
  induction p generalizing s with
  | done a => exact h
  | fail e => exact h
  | call c k ih => exact ih _ h
  | await k ih => exact ⟨i,hi',ih i (h i hi)⟩

/-- An allowed outcome may be weakened. -/
theorem Allows.mono {Q' : α → σ → Prop} {E' : σ → Prop} {p : Script Call Answer Input Error α}
    {s : σ} (h : Allows exec ok Q E p s) (hQ : ∀ a s,Q a s → Q' a s) (hE : ∀ s,E s → E' s) :
    Allows exec ok Q' E' p s := by
  induction p generalizing s with
  | done a => exact hQ a s h
  | fail e => exact hE s h
  | call c k ih => exact ih _ h
  | await k ih =>
    obtain ⟨i,hi,hk⟩ := h
    exact ⟨i,hi,ih i hk⟩

/-- A call continues with its answer. -/
theorem Allows.perform {c : Call} {f : Answer c → Script Call Answer Input Error α} {r : Answer c}
    {s s' : σ} (hc : exec c s=(r,s')) (h : Allows exec ok Q E (f r) s') :
    Allows exec ok Q E ((Script.perform c).bind f) s := by
  rw [Script.perform,Script.bind,Allows,hc]
  exact h

/-- A suspension continues with some accepted arrival. -/
theorem Allows.suspend {f : Input → Script Call Answer Input Error α} {s : σ} (i : Arrival Input)
    (hi : ok i) (h : Allows exec ok Q E (f i.value) s) :
    Allows exec ok Q E (Script.suspend.bind f) s :=
  ⟨i,hi,h⟩

/-- A sequence continues with what its first part allows. -/
theorem Allows.bind {p : Script Call Answer Input Error α}
    {f : α → Script Call Answer Input Error β} {Q' : β → σ → Prop} {E' : σ → Prop} {s : σ}
    (h : Allows exec ok Q E p s) (hf : ∀ a s,Q a s → Allows exec ok Q' E' (f a) s)
    (hE : ∀ s,E s → E' s) : Allows exec ok Q' E' (p.bind f) s := by
  induction p generalizing s with
  | done a => exact hf a s h
  | fail e => exact hE s h
  | call c k ih => exact ih _ h
  | await k ih =>
    obtain ⟨i,hi,hk⟩ := h
    exact ⟨i,hi,ih i hk⟩

/-- A handler continues where the guarded script may reject. -/
theorem Allows.rescue {p : Script Call Answer Input Error α}
    {handler : Error → Script Call Answer Input Error α} {E' : σ → Prop} {s : σ}
    (h : Allows exec ok Q E p s) (hh : ∀ e s,E s → Allows exec ok Q E' (handler e) s) :
    Allows exec ok Q E' (p.rescue handler) s := by
  induction p generalizing s with
  | done a => exact h
  | fail e => exact hh e s h
  | call c k ih => exact ih _ h
  | await k ih =>
    obtain ⟨i,hi,hk⟩ := h
    exact ⟨i,hi,ih i hk⟩

/-- A stream of arrivals with a new first one. -/
def arrivalsCons (i : Arrival Input) (arrivals : ℕ → Arrival Input) : ℕ → Arrival Input
  | 0 => i
  | n+1 => arrivals n

/-- An allowed outcome is the outcome of some run. -/
theorem Allows.play {I : σ → Prop} {p : Script Call Answer Input Error α} {s : σ}
    (h : Allows exec ok (fun _ => I) I p s) (hok : ∃ i,ok i) :
    ∃ arrivals : ℕ → Arrival Input,(∀ n,ok (arrivals n)) ∧
      I (SequentialScript.play exec p arrivals s).2 := by
  obtain ⟨j,hj⟩ := hok
  induction p generalizing s with
  | done a => exact ⟨fun _ => j,fun _ => hj,h⟩
  | fail e => exact ⟨fun _ => j,fun _ => hj,h⟩
  | call c k ih => exact ih _ h
  | await k ih =>
    obtain ⟨i,hi,hk⟩ := h
    obtain ⟨arrivals,harrivals,hI⟩ := ih i hk
    refine ⟨arrivalsCons i arrivals,fun n => ?_,hI⟩
    cases n with
    | zero => exact hi
    | succ n => exact harrivals n

end NadSafe.SequentialScript
