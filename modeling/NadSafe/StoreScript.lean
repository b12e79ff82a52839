import NadSafe.SequentialScript

/-!
# Scripts over a shared store

A handler is a script whose only calls are single statements to one store: a
read of the committed state, or a write that the store accepts or refuses as
a whole. Every statement is a suspension of its own, so any other handler may
run between two statements. The rules are for a handler that runs alone.
-/

namespace NadSafe.StoreScript

open AsyncScript AsyncScript.Script ScriptPool SequentialScript

variable {σ Error α β : Type}

/-- A statement of a handler. -/
inductive Statement (σ : Type) where
  /-- A read of the state. -/
  | read
  /-- A write, refused where there is no next state. -/
  | write (update : σ → Option σ)

/-- What a statement answers. -/
abbrev Statement.Answer : Statement σ → Type
  | .read => σ
  | .write _ => Bool

/-- Effect and answer of a statement. -/
def exec : ∀ c : Statement σ,σ → c.Answer×σ
  | .read,s => (s,s)
  | .write update,s => ((update s).isSome,(update s).getD s)

/-- A handler over a store. -/
abbrev Handler (σ Error α : Type) := Script (Statement σ) Statement.Answer Unit Error α

/-- A query. -/
def query (f : σ → α) : Handler σ Error α := do
  let _ ← suspend
  let s ← perform Statement.read
  pure (f s)

/-- One value of a sequence that the store hands out. -/
def draw (f : σ → α) (next : σ → σ) : Handler σ Error α := do
  let _ ← suspend
  let s ← perform Statement.read
  let _ ← perform (Statement.write fun s => some (next s))
  pure (f s)

/-- A statement that may be refused. -/
def attempt (update : σ → Option σ) : Handler σ Error Bool := do
  let _ ← suspend
  perform (Statement.write update)

/-- A statement whose refusal is an error. -/
def execute (message : Error) (update : σ → Option σ) : Handler σ Error Unit := do
  let accepted ← attempt update
  if accepted=true then pure () else throw message

/-- A check. -/
def ensure (message : Error) (condition : Bool) : Handler σ Error Unit :=
  if condition=true then pure () else throw message

/-- A value that has to be there. -/
def expect (message : Error) : Option α → Handler σ Error α
  | some a => pure a
  | none => throw message

/-- A loop over a list. -/
def each (xs : List β) (body : β → Handler σ Error Unit) : Handler σ Error Unit :=
  match xs with
  | [] => pure ()
  | x::xs => do
    body x
    each xs body

/-- A loop that collects results. -/
def collect (xs : List β) (body : β → Handler σ Error α) : Handler σ Error (List α) :=
  match xs with
  | [] => pure []
  | x::xs => do
    let a ← body x
    let as ← collect xs body
    pure (a::as)

/-- A loop that stops at the first element for which the body says so. -/
def findAny (xs : List β) (body : β → Handler σ Error Bool) : Handler σ Error Bool :=
  match xs with
  | [] => pure false
  | x::xs => do
    let found ← body x
    if found=true then pure true else findAny xs body

/-- A handler whose error is dropped. -/
def ok (p : Handler σ Error Unit) : Handler σ Error Unit := tryCatch p fun _ => pure ()

/-- Result and final state of a handler that runs alone. -/
def complete (p : Handler σ Error α) (s : σ) : Except Error α×σ := play exec p (fun _ => ⟨[],()⟩) s

/-- A handler that runs alone from `s` returns with `Q` or fails with `E`. -/
abbrev Leaves (Q : α → σ → Prop) (E : σ → Prop) (p : Handler σ Error α) (s : σ) : Prop :=
  Ensures exec (fun _ => True) Q E p s

variable {Q : α → σ → Prop} {E : σ → Prop} {s : σ}

/-- What a handler leaves is there at its end. -/
theorem Leaves.complete {I : σ → Prop} {p : Handler σ Error α} (h : Leaves (fun _ => I) I p s) :
    I (complete p s).2 := h.always fun _ => trivial

/-- And its result is as stated. -/
theorem Leaves.result {p : Handler σ Error α} {a : α} (h : Leaves Q E p s)
    (ha : (StoreScript.complete p s).1=.ok a) : Q a (StoreScript.complete p s).2 :=
  Ensures.result h (fun _ => trivial) ha

theorem Leaves.pure {a : α} (h : Q a s) : Leaves Q E (Script.done a : Handler σ Error α) s := h

theorem Leaves.throw {e : Error} (h : E s) : Leaves Q E (Script.fail e : Handler σ Error α) s := h

/-- A query continues with its result. -/
theorem Leaves.query {f : σ → β} {g : β → Handler σ Error α} (h : Leaves Q E (g (f s)) s) :
    Leaves Q E ((query f).bind g) s := fun _ _ => h

/-- A drawn value is passed on. -/
theorem Leaves.draw {f : σ → β} {next : σ → σ} {g : β → Handler σ Error α}
    (h : Leaves Q E (g (f s)) (next s)) : Leaves Q E ((StoreScript.draw f next).bind g) s :=
  fun _ _ => h

/-- A statement continues in the next state, or in the same one when it is
refused. -/
theorem Leaves.attempt {update : σ → Option σ} {g : Bool → Handler σ Error α}
    (haccepted : ∀ s',update s=some s' → Leaves Q E (g true) s')
    (hrefused : update s=none → Leaves Q E (g false) s) :
    Leaves Q E ((StoreScript.attempt update).bind g) s := by
  intro _ _
  show Leaves Q E (g (update s).isSome) ((update s).getD s)
  cases hu : update s with
  | none => exact hrefused hu
  | some s' => exact haccepted s' hu

/-- The same where a refusal is an error. -/
theorem Leaves.execute {message : Error} {update : σ → Option σ} {g : Unit → Handler σ Error α}
    (haccepted : ∀ s',update s=some s' → Leaves Q E (g ()) s') (hrefused : update s=none → E s) :
    Leaves Q E ((StoreScript.execute message update).bind g) s := by
  intro _ _
  show Leaves Q E ((if (update s).isSome=true then Script.done () else Script.fail message).bind g)
    ((update s).getD s)
  cases hu : update s with
  | none => exact hrefused hu
  | some s' => exact haccepted s' hu

/-- A check continues where it holds. -/
theorem Leaves.ensure {message : Error} {condition : Bool} {g : Unit → Handler σ Error α}
    (hholds : condition=true → Leaves Q E (g ()) s) (hfails : E s) :
    Leaves Q E ((StoreScript.ensure message condition).bind g) s := by
  cases condition with
  | true => exact hholds rfl
  | false => exact hfails

/-- A value that is there is passed on. -/
theorem Leaves.expect {message : Error} {value : Option β} {g : β → Handler σ Error α}
    (hsome : ∀ b,value=some b → Leaves Q E (g b) s) (hnone : E s) :
    Leaves Q E ((StoreScript.expect message value).bind g) s := by
  cases value with
  | some b => exact hsome b rfl
  | none => exact hnone

/-- A loop keeps what its body keeps. -/
theorem Leaves.each {I : σ → Prop} {xs : List β} {body : β → Handler σ Error Unit}
    (hbody : ∀ x∈xs,∀ s,I s → Leaves (fun _ => I) E (body x) s) (hs : I s) :
    Leaves (fun _ => I) E (StoreScript.each xs body) s := by
  induction xs generalizing s with
  | nil => exact hs
  | cons x xs ih =>
    refine (hbody x List.mem_cons_self s hs).bind fun _ s' hs' => ?_
    exact ih (fun y hy => hbody y (List.mem_cons_of_mem x hy)) hs'

/-- A handler with a dropped error keeps what both its outcomes keep. -/
theorem Leaves.ok {I : σ → Prop} {p : Handler σ Error Unit} (h : Leaves (fun _ => I) I p s) :
    Leaves (fun _ => I) E (StoreScript.ok p) s :=
  Ensures.rescue h fun _ _ hs => hs

end NadSafe.StoreScript
