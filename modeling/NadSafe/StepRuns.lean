import Mathlib.Logic.Basic
import Mathlib.Tactic.Common

/-!
# Runs of a step function

A state, a function that takes one event, and lists of events. A condition
may refer to the state in which each event is taken. Every safety result of
this development is an instance of the one induction below.
-/

namespace NadSafe.StepRuns

variable {σ ε : Type}

/-- The state after a list of events. -/
def run (step : σ → ε → σ) (s : σ) (events : List ε) : σ := events.foldl step s

@[simp] theorem run_nil (step : σ → ε → σ) (s : σ) : run step s []=s := rfl

@[simp] theorem run_cons (step : σ → ε → σ) (s : σ) (e : ε) (events : List ε) :
    run step s (e::events)=run step (step s e) events := rfl

/-- Every event is allowed in the state in which it is taken. -/
def Admits (step : σ → ε → σ) (ok : σ → ε → Prop) : σ → List ε → Prop
  | _,[] => True
  | s,e::events => ok s e ∧ Admits step ok (step s e) events

variable {step : σ → ε → σ} {ok ok' : σ → ε → Prop} {s : σ} {events : List ε}

theorem Admits.append {later : List ε} (h : Admits step ok s events)
    (hlater : Admits step ok (run step s events) later) : Admits step ok s (events++later) := by
  induction events generalizing s with
  | nil => exact hlater
  | cons e events ih => exact ⟨h.1,ih h.2 hlater⟩

/-- Events that are allowed in every state are allowed in a run. -/
theorem Admits.of_forall (h : ∀ e∈events,∀ s,ok s e) (s : σ) : Admits step ok s events := by
  induction events generalizing s with
  | nil => trivial
  | cons e events ih =>
    exact ⟨h e List.mem_cons_self s,ih (fun e' he => h e' (List.mem_cons_of_mem e he)) _⟩

/-- A condition may be relaxed. -/
theorem Admits.mono (h : ∀ s e,ok s e → ok' s e) (hok : Admits step ok s events) :
    Admits step ok' s events := by
  induction events generalizing s with
  | nil => trivial
  | cons e events ih => exact ⟨h s e hok.1,ih hok.2⟩

/-- Two conditions hold together. -/
theorem Admits.and (h : Admits step ok s events) (h' : Admits step ok' s events) :
    Admits step (fun s e => ok s e ∧ ok' s e) s events := by
  induction events generalizing s with
  | nil => trivial
  | cons e events ih => exact ⟨⟨h.1,h'.1⟩,ih h.2 h'.2⟩

/-- A property kept by every allowed event holds after every allowed run. -/
theorem run_invariant {I : σ → Prop} (hstep : ∀ s e,I s → ok s e → I (step s e)) (h : I s)
    (hok : Admits step ok s events) : I (run step s events) := by
  induction events generalizing s with
  | nil => exact h
  | cons e events ih => exact ih (hstep s e h hok.1) hok.2

/-- What follows from such a property holds at every event of the run. -/
theorem Admits.along {I : σ → Prop} (hstep : ∀ s e,I s → ok s e → I (step s e))
    (hshows : ∀ s e,I s → ok s e → ok' s e) (h : I s) (hok : Admits step ok s events) :
    Admits step ok' s events := by
  induction events generalizing s with
  | nil => trivial
  | cons e events ih => exact ⟨hshows s e h hok.1,ih (hstep s e h hok.1) hok.2⟩

end NadSafe.StepRuns
