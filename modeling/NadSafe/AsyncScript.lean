import Mathlib.Logic.Basic
import Mathlib.Tactic.Common

/-!
# Asynchronous scripts and their contracts

An asynchronous function is kept as its program text: a tree of synchronous
calls to shared state and of suspension points at which any other function
may run. Promise concurrency inside one function is the merge of two trees.
A contract bounds the calls of a script under assumptions on their answers;
it follows the text of the script and never runs it. The state behind the
calls, the scheduler and every concrete program are supplied elsewhere.
-/

namespace NadSafe.AsyncScript

/-- What a suspended script is resumed with: the value that arrived, and
the branch of each pending `both` it arrived at. -/
structure Arrival (Input : Type) where
  /-- Left is true; a missing step selects the left branch. -/
  path : List Bool
  /-- The settled value, chosen by the environment. -/
  value : Input

/-- Whether an arrival belongs to the left branch of the outermost merge. -/
def Arrival.left {Input : Type} (arrival : Arrival Input) : Bool := arrival.path.headD true

/-- The arrival as the selected branch sees it. -/
def Arrival.inner {Input : Type} (arrival : Arrival Input) : Arrival Input :=
  ⟨arrival.path.tail,arrival.value⟩

/-- Program text over synchronous calls. No constructor mentions a state:
the answers of calls and the arrivals at suspensions are the only inputs. -/
inductive Script (Call : Type) (Answer : Call → Type) (Input Error Result : Type) : Type
  /-- Normal completion. -/
  | done (result : Result)
  /-- Rejection, carrying the thrown error. -/
  | fail (error : Error)
  /-- A synchronous call; nothing else runs before the next suspension. -/
  | call (request : Call) (next : Answer request → Script Call Answer Input Error Result)
  /-- A suspension point; the script continues with whatever arrives. -/
  | await (next : Arrival Input → Script Call Answer Input Error Result)

namespace Script

variable {Call : Type} {Answer : Call → Type} {Input Error α β : Type}

/-- Sequential composition keeps every suspension of both parts. -/
def bind : Script Call Answer Input Error α → (α → Script Call Answer Input Error β) →
    Script Call Answer Input Error β
  | done a,f => f a
  | fail e,_ => fail e
  | call c k,f => call c fun r => (k r).bind f
  | await k,f => await fun i => (k i).bind f

/-- A handler receives the rejection of the guarded script only. -/
def rescue : Script Call Answer Input Error α → (Error → Script Call Answer Input Error α) →
    Script Call Answer Input Error α
  | done a,_ => done a
  | fail e,h => h e
  | call c k,h => call c fun r => (k r).rescue h
  | await k,h => await fun i => (k i).rescue h

instance : Monad (Script Call Answer Input Error) where
  pure := done
  bind := bind

instance : MonadExceptOf Error (Script Call Answer Input Error) where
  throw := fail
  tryCatch := rescue

/-- One synchronous call. -/
def perform (c : Call) : Script Call Answer Input Error (Answer c) := call c done

/-- One suspension that yields the arrived value. -/
def suspend : Script Call Answer Input Error Input := await fun i => done i.value

@[simp] theorem pure_eq (a : α) : (pure a : Script Call Answer Input Error α)=done a := rfl

@[simp] theorem bind_eq (p : Script Call Answer Input Error α)
    (f : α → Script Call Answer Input Error β) : (p >>= f)=p.bind f := rfl

theorem bind_assoc {γ : Type} (p : Script Call Answer Input Error α)
    (f : α → Script Call Answer Input Error β) (g : β → Script Call Answer Input Error γ) :
    (p.bind f).bind g=p.bind fun a => (f a).bind g := by
  induction p with
  | done a => rfl
  | fail e => rfl
  | call c k ih => exact congrArg (call c) (funext fun r => ih r)
  | await k ih => exact congrArg await (funext fun i => ih i)

@[simp] theorem throw_eq (e : Error) :
    (throw e : Script Call Answer Input Error α)=fail e := rfl

@[simp] theorem tryCatch_eq (p : Script Call Answer Input Error α)
    (h : Error → Script Call Answer Input Error α) : tryCatch p h=p.rescue h := rfl

/-- The synchronous prefix of a promise created beside a rejected one still
runs; its later steps no longer concern the caller. -/
def abandon (e : Error) : Script Call Answer Input Error β → Script Call Answer Input Error α
  | done _ => fail e
  | fail _ => fail e
  | call c k => call c fun r => (k r).abandon e
  | await _ => fail e

/-- Merge with a left part that is already suspended. The recursion is on
the right part; `resumeLeft` is the merge after the left part moved. -/
def bothParked (k : Arrival Input → Script Call Answer Input Error α)
    (resumeLeft : Arrival Input → Script Call Answer Input Error β →
      Script Call Answer Input Error (α×β)) :
    Script Call Answer Input Error β → Script Call Answer Input Error (α×β)
  | done b => await fun i => (k i).bind fun a => done (a,b)
  | fail e => fail e
  | call c next => call c fun r => bothParked k resumeLeft (next r)
  | await next => await fun i =>
      if i.left=true then resumeLeft i.inner (await next)
      else bothParked k resumeLeft (next i.inner)

/-- Two promises awaited together. Both synchronous prefixes run at once, in
order; afterwards either part may move at every arrival. The merge settles
with both results, or rejects with the first rejection. -/
def both : Script Call Answer Input Error α → Script Call Answer Input Error β →
    Script Call Answer Input Error (α×β)
  | done a,q => q.bind fun b => done (a,b)
  | fail e,q => q.abandon e
  | call c k,q => call c fun r => both (k r) q
  | await k,q => bothParked k (fun i => both (k i)) q

/-- `Promise.all` over any number of promises. -/
def all : List (Script Call Answer Input Error α) → Script Call Answer Input Error (List α)
  | [] => done []
  | p::ps => (both p (all ps)).bind fun r => done (r.1::r.2)

/-- Whether a script has settled. -/
def settled : Script Call Answer Input Error α → Bool
  | done _ => true
  | fail _ => true
  | call _ _ => false
  | await _ => false

/-- The script makes only calls that satisfy `pre`, as long as every answer
satisfies `post`, and completes only with results in `Q`. -/
def Obeys (pre : Call → Prop) (post : ∀ c, Answer c → Prop) (Q : α → Prop) :
    Script Call Answer Input Error α → Prop
  | done a => Q a
  | fail _ => True
  | call c k => pre c ∧ ∀ r, post c r → (k r).Obeys pre post Q
  | await k => ∀ i, (k i).Obeys pre post Q

section Contracts

variable {pre : Call → Prop} {post : ∀ c, Answer c → Prop} {Q : α → Prop}

@[simp] theorem obeys_done (a : α) :
    (done a : Script Call Answer Input Error α).Obeys pre post Q ↔ Q a := Iff.rfl

@[simp] theorem obeys_fail (e : Error) :
    (fail e : Script Call Answer Input Error α).Obeys pre post Q ↔ True := Iff.rfl

@[simp] theorem obeys_call (c : Call) (k : Answer c → Script Call Answer Input Error α) :
    (call c k).Obeys pre post Q ↔ pre c ∧ ∀ r, post c r → (k r).Obeys pre post Q := Iff.rfl

@[simp] theorem obeys_await (k : Arrival Input → Script Call Answer Input Error α) :
    (await k).Obeys pre post Q ↔ ∀ i, (k i).Obeys pre post Q := Iff.rfl

theorem perform_obeys {c : Call} (h : pre c) :
    (perform c : Script Call Answer Input Error (Answer c)).Obeys pre post (post c) :=
  ⟨h,fun _ hr => hr⟩

theorem suspend_obeys :
    (suspend : Script Call Answer Input Error Input).Obeys pre post fun _ => True :=
  fun _ => trivial

/-- A contract may be relaxed in every component. -/
theorem Obeys.mono {pre' : Call → Prop} {post' : ∀ c, Answer c → Prop} {Q' : α → Prop}
    {p : Script Call Answer Input Error α} (h : p.Obeys pre post Q)
    (hpre : ∀ c, pre c → pre' c) (hpost : ∀ c r, post' c r → post c r)
    (hQ : ∀ a, Q a → Q' a) : p.Obeys pre' post' Q' := by
  induction p with
  | done a => exact hQ a h
  | fail e => trivial
  | call c k ih => exact ⟨hpre c h.1,fun r hr => ih r (h.2 r (hpost c r hr))⟩
  | await k ih => exact fun i => ih i (h i)

/-- The result of a script may be forgotten. -/
theorem Obeys.forget {p : Script Call Answer Input Error α} (h : p.Obeys pre post Q) :
    p.Obeys pre post fun _ => True :=
  h.mono (fun _ hc => hc) (fun _ _ hr => hr) fun _ _ => trivial

/-- The contract of a sequence: the first part establishes what the rest
assumes of its argument. -/
theorem Obeys.bind {R : β → Prop} {p : Script Call Answer Input Error α}
    {f : α → Script Call Answer Input Error β} (h : p.Obeys pre post Q)
    (hf : ∀ a, Q a → (f a).Obeys pre post R) : (p.bind f).Obeys pre post R := by
  induction p with
  | done a => exact hf a h
  | fail e => trivial
  | call c k ih => exact ⟨h.1,fun r hr => ih r (h.2 r hr)⟩
  | await k ih => exact fun i => ih i (h i)

/-- A handler must obey the contract by itself, whatever was thrown. -/
theorem Obeys.rescue {p : Script Call Answer Input Error α}
    {handler : Error → Script Call Answer Input Error α} (h : p.Obeys pre post Q)
    (hh : ∀ e, (handler e).Obeys pre post Q) : (p.rescue handler).Obeys pre post Q := by
  induction p with
  | done a => exact h
  | fail e => exact hh e
  | call c k ih => exact ⟨h.1,fun r hr => ih r (h.2 r hr)⟩
  | await k ih => exact fun i => ih i (h i)

theorem Obeys.abandon {R : β → Prop} {p : Script Call Answer Input Error α}
    (h : p.Obeys pre post Q) (e : Error) :
    (p.abandon e : Script Call Answer Input Error β).Obeys pre post R := by
  induction p with
  | done a => trivial
  | fail e => trivial
  | call c k ih => exact ⟨h.1,fun r hr => ih r (h.2 r hr)⟩
  | await k ih => trivial

theorem Obeys.bothParked {R : β → Prop} {k : Arrival Input → Script Call Answer Input Error α}
    {resumeLeft : Arrival Input → Script Call Answer Input Error β →
      Script Call Answer Input Error (α×β)} {q : Script Call Answer Input Error β}
    (hk : ∀ i, (k i).Obeys pre post Q) (hq : q.Obeys pre post R)
    (hl : ∀ i q', q'.Obeys pre post R →
      (resumeLeft i q').Obeys pre post fun r => Q r.1 ∧ R r.2) :
    (Script.bothParked k resumeLeft q).Obeys pre post fun r => Q r.1 ∧ R r.2 := by
  induction q with
  | done b => exact fun i => (hk i).bind fun a ha => ⟨ha,hq⟩
  | fail e => trivial
  | call c next ih => exact ⟨hq.1,fun r hr => ih r (hq.2 r hr)⟩
  | await next ih =>
    intro i
    dsimp only
    split
    · exact hl i.inner (.await next) hq
    · exact ih i.inner (hq i.inner)

/-- Both parts of a merge keep their own contracts, in every interleaving. -/
theorem Obeys.both {R : β → Prop} {p : Script Call Answer Input Error α}
    {q : Script Call Answer Input Error β} (hp : p.Obeys pre post Q)
    (hq : q.Obeys pre post R) : (p.both q).Obeys pre post fun r => Q r.1 ∧ R r.2 := by
  induction p generalizing q with
  | done a => exact hq.bind fun b hb => ⟨hp,hb⟩
  | fail e => exact hq.abandon e
  | call c k ih => exact ⟨hp.1,fun r hr => ih r (hp.2 r hr) hq⟩
  | await k ih => exact Obeys.bothParked hp hq fun i q' hq' => ih i (hp i) hq'

/-- `Promise.all` keeps the common contract of its parts. -/
theorem Obeys.all {ps : List (Script Call Answer Input Error α)}
    (h : ∀ p ∈ ps, p.Obeys pre post Q) :
    (Script.all ps).Obeys pre post fun rs => ∀ r ∈ rs, Q r := by
  induction ps with
  | nil => simp [Script.all]
  | cons p ps ih =>
    have hp := h p List.mem_cons_self
    have hs := ih fun q hq => h q (List.mem_cons_of_mem p hq)
    refine (hp.both hs).bind fun r hr => ?_
    rw [obeys_done]
    intro x hx
    rcases List.mem_cons.mp hx with rfl|hx
    · exact hr.1
    · exact hr.2 x hx

end Contracts

/-- The script makes no call in `goal` before it has made a call outside
`pass`: along calls in `pass` and suspensions the goal is out of reach. -/
abbrev Avoids (pass goal : Call → Prop) (p : Script Call Answer Input Error α) : Prop :=
  p.Obeys (fun c => ¬goal c) (fun c _ => pass c) fun _ => True

/-- The script makes no call in `goal` at all. -/
abbrev Never (goal : Call → Prop) (p : Script Call Answer Input Error α) : Prop :=
  p.Obeys (fun c => ¬goal c) (fun _ _ => True) fun _ => True

/-- The script makes no call in `goal` after a call in `first`. -/
def NeverThen (first goal : Call → Prop) : Script Call Answer Input Error α → Prop
  | done _ => True
  | fail _ => True
  | call c k => (first c → ∀ r,(k r).Never goal) ∧ ∀ r,(k r).NeverThen first goal
  | await k => ∀ i,(k i).NeverThen first goal

/-- A settled script makes no call. -/
theorem Obeys.of_settled {pre : Call → Prop} {post : ∀ c, Answer c → Prop}
    {p : Script Call Answer Input Error α} (h : p.settled=true) : p.Obeys pre post fun _ => True := by
  cases p with
  | done a => trivial
  | fail e => trivial
  | call c k => cases h
  | await k => cases h

theorem Never.of_settled {goal : Call → Prop} {p : Script Call Answer Input Error α}
    (h : p.settled=true) : p.Never goal := Obeys.of_settled h

/-- Nothing follows in a settled script. -/
theorem NeverThen.of_settled {first goal : Call → Prop} {p : Script Call Answer Input Error α}
    (h : p.settled=true) : p.NeverThen first goal := by
  cases p with
  | done a => trivial
  | fail e => trivial
  | call c k => cases h
  | await k => cases h

/-- Some synchronous path suspends or settles before a call in `restores`. -/
def StopsBefore (restores : Call → Prop) : Script Call Answer Input Error α → Prop
  | done _ => True
  | fail _ => True
  | call c k => ¬restores c ∧ ∃ r,(k r).StopsBefore restores
  | await _ => True

/-- Some synchronous path makes a call in `breaks` and then suspends or
settles before a call in `restores`. -/
def Exposes (breaks restores : Call → Prop) : Script Call Answer Input Error α → Prop
  | done _ => False
  | fail _ => False
  | call c k => (breaks c ∧ ∃ r,(k r).StopsBefore restores) ∨ ∃ r,(k r).Exposes breaks restores
  | await _ => False

/-- A script that breaks nothing exposes nothing. -/
theorem Never.not_exposes {breaks restores : Call → Prop} {p : Script Call Answer Input Error α}
    (h : p.Never breaks) : ¬p.Exposes breaks restores := by
  induction p with
  | done a => exact id
  | fail e => exact id
  | call c k ih =>
    rintro (⟨hc,-⟩|⟨r,hr⟩)
    · exact h.1 hc
    · exact ih r (h.2 r trivial) hr
  | await k => exact id

end Script

end NadSafe.AsyncScript
