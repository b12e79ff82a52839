import NadSafe.TracedRuns

/-!
# Responses of handlers

A handler always responds, with a value or with an error. The rules for
handlers under interference are stated here with one condition on the
response, so that a failure may be told from another one and may come after a
write in the same segment.
-/

namespace NadSafe.ResponseScript

open AsyncScript AsyncScript.Script ScriptPool StoreScript RelyScript TracedRuns

section Scripts

variable {Call : Type} {Answer : Call → Type} {Input Error α β σ : Type}

/-- The response of a handler, as a value. -/
def respond : Script Call Answer Input Error α → Script Call Answer Input Error (Except Error α)
  | .done a => .done (.ok a)
  | .fail e => .done (.error e)
  | .call c k => .call c fun r => respond (k r)
  | .await k => .await fun i => respond (k i)

/-- As long as suspensions change the state by `R` only, every segment that
ends in a suspension guarantees `G`, and the last one `Q` of the response. -/
def Responds (exec : ∀ c,σ → Answer c×σ) (R G : σ → σ → Prop) (Q : Except Error α → σ → σ → Prop) :
    Script Call Answer Input Error α → σ → σ → Prop
  | .done a,s₀,s => Q (.ok a) s₀ s
  | .fail e,s₀,s => Q (.error e) s₀ s
  | .call c k,s₀,s => Responds exec R G Q (k (exec c s).1) s₀ (exec c s).2
  | .await k,s₀,s => G s₀ s ∧ ∀ i s',R s s' → Responds exec R G Q (k i) s' s'

variable {exec : ∀ c,σ → Answer c×σ} {R G : σ → σ → Prop} {Q : Except Error α → σ → σ → Prop} {s₀ s : σ}

/-- A handler that responds bears its guarantees. -/
theorem Responds.bears {p : Script Call Answer Input Error α} (h : Responds exec R G Q p s₀ s) :
    Bears exec R G Q (respond p) s₀ s := by
  induction p generalizing s₀ s with
  | done a => exact h
  | fail e => exact h
  | call c k ih => exact ih _ h
  | await k ih => exact ⟨h.1,fun i s' hs => ih i (h.2 i s' hs)⟩

theorem Responds.mono {Q' : Except Error α → σ → σ → Prop} {p : Script Call Answer Input Error α}
    (h : Responds exec R G Q p s₀ s) (hQ : ∀ r s₀ s,Q r s₀ s → Q' r s₀ s) :
    Responds exec R G Q' p s₀ s := by
  induction p generalizing s₀ s with
  | done a => exact hQ _ _ _ h
  | fail e => exact hQ _ _ _ h
  | call c k ih => exact ih _ h
  | await k ih => exact ⟨h.1,fun i s' hs => ih i (h.2 i s' hs)⟩

/-- A sequence continues the segment that its first part leaves. -/
theorem Responds.bind {Q' : Except Error β → σ → σ → Prop} {p : Script Call Answer Input Error α}
    {f : α → Script Call Answer Input Error β} (h : Responds exec R G Q p s₀ s)
    (hok : ∀ a s₀ s,Q (.ok a) s₀ s → Responds exec R G Q' (f a) s₀ s)
    (herror : ∀ e s₀ s,Q (.error e) s₀ s → Q' (.error e) s₀ s) :
    Responds exec R G Q' (p.bind f) s₀ s := by
  induction p generalizing s₀ s with
  | done a => exact hok a s₀ s h
  | fail e => exact herror e s₀ s h
  | call c k ih => exact ih _ h
  | await k ih => exact ⟨h.1,fun i s' hs => ih i (h.2 i s' hs)⟩

/-- A failure is handled in the segment that it came in. -/
theorem Responds.rescue {Q' : Except Error α → σ → σ → Prop} {p : Script Call Answer Input Error α}
    {handler : Error → Script Call Answer Input Error α} (h : Responds exec R G Q p s₀ s)
    (hok : ∀ a s₀ s,Q (.ok a) s₀ s → Q' (.ok a) s₀ s)
    (herror : ∀ e s₀ s,Q (.error e) s₀ s → Responds exec R G Q' (handler e) s₀ s) :
    Responds exec R G Q' (p.rescue handler) s₀ s := by
  induction p generalizing s₀ s with
  | done a => exact hok a s₀ s h
  | fail e => exact herror e s₀ s h
  | call c k ih => exact ih _ h
  | await k ih => exact ⟨h.1,fun i s' hs => ih i (h.2 i s' hs)⟩

/-- What is a matter of the frame holds at the end, and no segment does
anything else. -/
theorem Responds.frames {τ : Type} {part : σ → τ} {F : σ → Prop}
    (hG : ∀ s₀ s s',G s₀ s → part s'=part s → F s' → G s₀ s') (hrefl : ∀ s,F s → G s s)
    (hrely : ∀ s s',R s s' → F s → F s') (hpart : ∀ s s',part s'=part s → F s → F s')
    {p : Script Call Answer Input Error α} (hp : Frames exec part p) (hs : F s) (hstart : G s₀ s) :
    Responds exec R G (fun _ s₀ s => F s ∧ G s₀ s) p s₀ s := by
  induction p generalizing s₀ s with
  | done a => exact ⟨hs,hstart⟩
  | fail e => exact ⟨hs,hstart⟩
  | call c k ih =>
    have hsame := hp.1 s
    have hnext := hpart _ _ hsame hs
    exact ih _ (hp.2 _ trivial) hnext (hG _ _ _ hstart hsame hnext)
  | await k ih =>
    refine ⟨hstart,fun i s' hs' => ?_⟩
    have hF := hrely s s' hs' hs
    exact ih i (hp i) hF (hrefl s' hF)

end Scripts

section Statements

variable {σ Error α β : Type} {R G : σ → σ → Prop} {Q : Except Error α → σ → σ → Prop} {s₀ s : σ}

theorem Responds.pure {a : α} (h : Q (.ok a) s₀ s) :
    Responds exec R G Q (Script.done a : Handler σ Error α) s₀ s := h

theorem Responds.throw {e : Error} (h : Q (.error e) s₀ s) :
    Responds exec R G Q (Script.fail e : Handler σ Error α) s₀ s := h

/-- A query reads the state after interference. -/
theorem Responds.query {f : σ → β} {g : β → Handler σ Error α} (hs : G s₀ s)
    (h : ∀ s',R s s' → Responds exec R G Q (g (f s')) s' s') :
    Responds exec R G Q ((StoreScript.query f).bind g) s₀ s := ⟨hs,fun _ s' hs' => h s' hs'⟩

/-- A drawn value is passed on. -/
theorem Responds.draw {f : σ → β} {next : σ → σ} {g : β → Handler σ Error α} (hs : G s₀ s)
    (h : ∀ s',R s s' → Responds exec R G Q (g (f s')) s' (next s')) :
    Responds exec R G Q ((StoreScript.draw f next).bind g) s₀ s := ⟨hs,fun _ s' hs' => h s' hs'⟩

/-- A statement: accepted, or refused with the state as it was. -/
theorem Responds.execute {message : Error} {update : σ → Option σ} {g : Unit → Handler σ Error α} (hs : G s₀ s)
    (haccepted : ∀ s' s'',R s s' → update s'=some s'' → Responds exec R G Q (g ()) s' s'')
    (hrefused : ∀ s',R s s' → update s'=none → Q (.error message) s' s') :
    Responds exec R G Q ((StoreScript.execute message update).bind g) s₀ s := by
  refine ⟨hs,fun _ s' hs' => ?_⟩
  show Responds exec R G Q ((if (update s').isSome=true then Script.done () else Script.fail message).bind g) s'
    ((update s').getD s')
  cases hu : update s' with
  | none => exact hrefused s' hs' hu
  | some s'' => exact haccepted s' s'' hs' hu

/-- The same for a statement at the end. -/
theorem Responds.execute_done {message : Error} {update : σ → Option σ} {Q : Except Error Unit → σ → σ → Prop}
    (hs : G s₀ s) (haccepted : ∀ s' s'',R s s' → update s'=some s'' → Q (.ok ()) s' s'')
    (hrefused : ∀ s',R s s' → update s'=none → Q (.error message) s' s') :
    Responds exec R G Q (StoreScript.execute message update) s₀ s := by
  refine ⟨hs,fun _ s' hs' => ?_⟩
  show Responds exec R G Q (if (update s').isSome=true then Script.done () else Script.fail message) s'
    ((update s').getD s')
  cases hu : update s' with
  | none => exact hrefused s' hs' hu
  | some s'' => exact haccepted s' s'' hs' hu

/-- A check. -/
theorem Responds.ensure {message : Error} {condition : Bool} {g : Unit → Handler σ Error α}
    (hholds : condition=true → Responds exec R G Q (g ()) s₀ s)
    (hfails : condition=false → Q (.error message) s₀ s) :
    Responds exec R G Q ((StoreScript.ensure message condition).bind g) s₀ s := by
  cases condition with
  | true => exact hholds rfl
  | false => exact hfails rfl

/-- A check at the end. -/
theorem Responds.ensure_done {message : Error} {condition : Bool} {Q : Except Error Unit → σ → σ → Prop}
    (hholds : condition=true → Q (.ok ()) s₀ s) (hfails : condition=false → Q (.error message) s₀ s) :
    Responds exec R G Q (StoreScript.ensure message condition : Handler σ Error Unit) s₀ s := by
  cases condition with
  | true => exact hholds rfl
  | false => exact hfails rfl

/-- A value that may be missing. -/
theorem Responds.expect {message : Error} {value : Option β} {g : β → Handler σ Error α}
    (hsome : ∀ b,value=some b → Responds exec R G Q (g b) s₀ s)
    (hnone : value=none → Q (.error message) s₀ s) :
    Responds exec R G Q ((StoreScript.expect message value).bind g) s₀ s := by
  cases value with
  | some b => exact hsome b rfl
  | none => exact hnone rfl

/-- An error that is dropped. -/
theorem Responds.ok {p : Handler σ Error Unit} {Q Q' : Except Error Unit → σ → σ → Prop}
    (h : Responds exec R G Q p s₀ s) (hdone : ∀ r s₀ s,Q r s₀ s → Q' (.ok ()) s₀ s) :
    Responds exec R G Q' (StoreScript.ok p) s₀ s :=
  h.rescue (fun _ => hdone _) fun _ => hdone _

/-- A loop, with what holds for the elements that are left. -/
theorem Responds.each {J : List β → σ → σ → Prop} {Q : Except Error Unit → σ → σ → Prop}
    {body : β → Handler σ Error Unit}
    (hbody : ∀ x xs s₀ s,J (x::xs) s₀ s →
      Responds exec R G (fun r s₀ s => (r=.ok () → J xs s₀ s) ∧ ∀ e,r=.error e → Q (.error e) s₀ s)
        (body x) s₀ s)
    (hend : ∀ s₀ s,J [] s₀ s → Q (.ok ()) s₀ s) {xs : List β} (hs : J xs s₀ s) :
    Responds exec R G Q (StoreScript.each xs body) s₀ s := by
  induction xs generalizing s₀ s with
  | nil => exact hend s₀ s hs
  | cons x xs ih =>
    refine (hbody x xs s₀ s hs).bind (fun _ s₁ s₂ h => ih (h.1 rfl)) fun e s₁ s₂ h => h.2 e rfl

end Statements

section Moves

variable {Error α σ Op : Type}

/-- The response that a move ends with. -/
def response (m : Move Error (Except Error α) σ Op) : Option (Except Error α) :=
  match m.result with
  | some (.ok r) => some r
  | _ => none

variable {I : σ → Prop} {G : Op → σ → σ → Prop} {Q : Op → Except Error α → σ → σ → Prop}
  {m : Move Error (Except Error α) σ Op}

/-- A move ends with a response, or it keeps the guarantee of the operation. -/
theorem shows_cases (h : Shows I G Q m) :
    (response m=none ∧ G m.op m.before m.after) ∨ ∃ r,response m=some r ∧ Q m.op r m.before m.after := by
  by_cases hm : ∃ r,m.Returns r
  · obtain ⟨r,hr⟩ := hm
    refine .inr ⟨r,?_,h.returned hr⟩
    unfold response
    rw [show m.result=some (.ok r) from hr]
  · refine .inl ⟨?_,h.moved fun r hr => hm ⟨r,hr⟩⟩
    unfold response
    split
    · rename_i r hr
      exact absurd ⟨r,hr⟩ hm
    · rfl

end Moves

end NadSafe.ResponseScript
