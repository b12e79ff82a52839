import NadSafe.StoreScript

/-!
# Scripts that follow a plan

Result and final state of a handler that runs alone, computed rule by rule.
A plan is a list of writes and a result. A handler follows a plan if it ends
with that result and its state shows exactly these writes, one after the
other, in the part of the state that is looked at.
-/

namespace NadSafe.PlannedScript

open AsyncScript AsyncScript.Script SequentialScript StoreScript

section Ends

variable {σ Error α β : Type} {s : σ} {P : Except Error α → σ → Prop}

/-- A handler that runs alone ends with a result and a state of which `P`
holds. -/
def Ends (p : Handler σ Error α) (s : σ) (P : Except Error α → σ → Prop) : Prop :=
  P (complete p s).1 (complete p s).2

theorem Ends.mono {P' : Except Error α → σ → Prop} {p : Handler σ Error α} (h : Ends p s P)
    (hP : ∀ r s,P r s → P' r s) : Ends p s P' := hP _ _ h

/-- Two facts about one end. -/
theorem Ends.and {P' : Except Error α → σ → Prop} {p : Handler σ Error α} (h : Ends p s P)
    (h' : Ends p s P') : Ends p s fun r s => P r s ∧ P' r s := ⟨h,h'⟩

theorem Ends.pure {a : α} (h : P (.ok a) s) : Ends (Script.done a : Handler σ Error α) s P := h

theorem Ends.throw {e : Error} (h : P (.error e) s) : Ends (Script.fail e : Handler σ Error α) s P := h

/-- A sequence goes on with the result of its first part. -/
theorem complete_bind (p : Handler σ Error β) (f : β → Handler σ Error α) (s : σ) :
    complete (p.bind f) s=match complete p s with
      | (.ok b,s') => complete (f b) s'
      | (.error e,s') => (.error e,s') := by
  induction p generalizing s with
  | done a => rfl
  | fail e => rfl
  | call c k ih => exact ih _ _
  | await k ih => exact ih _ s

/-- The rule for a sequence. -/
theorem Ends.bind {p : Handler σ Error β} {f : β → Handler σ Error α} {Q : Except Error β → σ → Prop}
    (h : Ends p s Q) (hok : ∀ b s',Q (.ok b) s' → Ends (f b) s' P)
    (herror : ∀ e s',Q (.error e) s' → P (.error e) s') : Ends (p.bind f) s P := by
  unfold Ends at h ⊢
  rw [complete_bind]
  generalize complete p s=ended at h ⊢
  obtain ⟨r,s'⟩ := ended
  cases r with
  | ok b => exact hok b s' h
  | error e => exact herror e s' h

/-- The first part of a sequence has failed and left everything as it was. -/
theorem Ends.refused {p : Handler σ Error β} {f : β → Handler σ Error α}
    (h : Ends p s fun r s' => s'=s ∧ ∃ e,r=.error e) :
    Ends (p.bind f) s fun r s' => s'=s ∧ ∃ e,r=.error e := by
  refine h.bind (fun b s' ⟨_,e,he⟩ => ?_) fun e s' ⟨hs,_⟩ => ⟨hs,e,rfl⟩
  cases he

/-- A handler whose error may be dealt with. -/
theorem Ends.rescue {p : Handler σ Error α} {handler : Error → Handler σ Error α}
    {Q : Except Error α → σ → Prop} (h : Ends p s Q) (hok : ∀ a s',Q (.ok a) s' → P (.ok a) s')
    (herror : ∀ e s',Q (.error e) s' → Ends (handler e) s' P) : Ends (p.rescue handler) s P := by
  have hresult : complete (p.rescue handler) s=match complete p s with
      | (.ok a,s') => (.ok a,s')
      | (.error e,s') => complete (handler e) s' := by
    clear h
    induction p generalizing s with
    | done a => rfl
    | fail e => rfl
    | call c k ih => exact ih _
    | await k ih => exact ih _
  unfold Ends at h ⊢
  rw [hresult]
  generalize complete p s=ended at h ⊢
  obtain ⟨r,s'⟩ := ended
  cases r with
  | ok a => exact hok a s' h
  | error e => exact herror e s' h

theorem Ends.query {f : σ → β} {g : β → Handler σ Error α} (h : Ends (g (f s)) s P) :
    Ends ((StoreScript.query f).bind g) s P := h

theorem Ends.query_done {f : σ → α} (h : P (.ok (f s)) s) :
    Ends (StoreScript.query f : Handler σ Error α) s P := h

theorem Ends.draw {f : σ → β} {next : σ → σ} {g : β → Handler σ Error α} (h : Ends (g (f s)) (next s) P) :
    Ends ((StoreScript.draw f next).bind g) s P := h

/-- A statement that is accepted. -/
theorem Ends.execute_done {message : Error} {update : σ → Option σ} {s' : σ}
    {P : Except Error Unit → σ → Prop} (hu : update s=some s') (h : P (.ok ()) s') :
    Ends (StoreScript.execute message update) s P := by
  have hstep : complete (StoreScript.execute message update : Handler σ Error Unit) s=(.ok (),s') := by
    show complete (if (update s).isSome=true then Script.done () else Script.fail message)
      ((update s).getD s)=_
    rw [hu]
    rfl
  unfold Ends
  rw [hstep]
  exact h

/-- A statement that is refused. -/
theorem Ends.execute_refused {message : Error} {update : σ → Option σ} (hu : update s=none) :
    Ends (StoreScript.execute message update) s fun r s' => s'=s ∧ ∃ e,r=.error e := by
  have hstep : complete (StoreScript.execute message update : Handler σ Error Unit) s=(.error message,s) := by
    show complete (if (update s).isSome=true then Script.done () else Script.fail message)
      ((update s).getD s)=_
    rw [hu]
    rfl
  unfold Ends
  rw [hstep]
  exact ⟨rfl,_,rfl⟩

/-- The rest after an accepted one. -/
theorem Ends.execute {message : Error} {update : σ → Option σ} {g : Unit → Handler σ Error α} {s' : σ}
    (hu : update s=some s') (h : Ends (g ()) s' P) :
    Ends ((StoreScript.execute message update).bind g) s P := by
  have hstep : Ends (StoreScript.execute message update : Handler σ Error Unit) s
      fun r s'' => r=.ok () ∧ s''=s' := .execute_done hu ⟨rfl,rfl⟩
  refine hstep.bind (fun _ s'' hs => ?_) fun e s'' he => ?_
  · rw [hs.2]
    exact h
  · cases he.1

/-- A check with a known answer. -/
theorem Ends.ensure {message : Error} {condition : Bool} {g : Unit → Handler σ Error α}
    (hholds : condition=true → Ends (g ()) s P) (hfails : condition=false → P (.error message) s) :
    Ends ((StoreScript.ensure message condition).bind g) s P := by
  cases condition with
  | true => exact hholds rfl
  | false => exact hfails rfl

/-- A check at the end. -/
theorem Ends.ensure_done {message : Error} {condition : Bool} {P : Except Error Unit → σ → Prop}
    (hholds : condition=true → P (.ok ()) s) (hfails : condition=false → P (.error message) s) :
    Ends (StoreScript.ensure message condition) s P := by
  cases condition with
  | true => exact hholds rfl
  | false => exact hfails rfl

/-- A value that may be missing. -/
theorem Ends.expect {message : Error} {value : Option β} {g : β → Handler σ Error α}
    (hsome : ∀ b,value=some b → Ends (g b) s P) (hnone : value=none → P (.error message) s) :
    Ends ((StoreScript.expect message value).bind g) s P := by
  cases value with
  | some b => exact hsome b rfl
  | none => exact hnone rfl

/-- A handler that changes nothing. -/
theorem Ends.findAny {xs : List β} {body : β → Handler σ Error Bool} {f : β → Bool}
    (hbody : ∀ x,Ends (body x) s fun r s' => r=.ok (f x) ∧ s'=s) :
    Ends (StoreScript.findAny xs body) s fun r s' => r=.ok (xs.any f) ∧ s'=s := by
  induction xs with
  | nil => exact ⟨rfl,rfl⟩
  | cons x xs ih =>
    refine (hbody x).bind (fun found s' ⟨hfound,hs⟩ => ?_) fun e s' ⟨he,_⟩ => by cases he
    cases hfound
    subst hs
    rw [List.any_cons]
    cases f x with
    | true => exact ⟨rfl,rfl⟩
    | false => exact ih

/-- One condition for a value and one for an error. -/
def Either (Q : α → σ → Prop) (E : Error → σ → Prop) : Except Error α → σ → Prop
  | .ok a,s => Q a s
  | .error e,s => E e s

/-- A loop that collects results, with what holds for the elements that are
left and the results so far. -/
theorem Ends.collect {J : List β → List α → σ → Prop} {E : Error → σ → Prop} {body : β → Handler σ Error α}
    (hbody : ∀ x xs l s,J (x::xs) l s → Ends (body x) s (Either (fun a => J xs (l++[a])) E))
    {xs : List β} {l : List α} (hs : J xs l s) :
    Ends (StoreScript.collect xs body) s (Either (fun l' => J [] (l++l')) E) := by
  induction xs generalizing l s with
  | nil =>
    show J [] (l++[]) s
    rwa [List.append_nil]
  | cons x xs ih =>
    refine (hbody x xs l s hs).bind (fun a s' ha => ?_) fun e s' he => he
    refine (ih ha).bind (fun l' s'' hl => ?_) fun e s'' he => he
    show J [] (l++a::l') s''
    have happend : l++[a]++l'=l++a::l' := by rw [List.append_assoc,List.singleton_append]
    rw [← happend]
    exact hl

/-- A loop, with what holds for the elements that are left. -/
theorem Ends.each {J : List β → σ → Prop} {E : Error → σ → Prop} {body : β → Handler σ Error Unit}
    (hbody : ∀ x xs s,J (x::xs) s → Ends (body x) s (Either (fun _ => J xs) E))
    {xs : List β} (hs : J xs s) : Ends (StoreScript.each xs body) s (Either (fun _ => J []) E) := by
  induction xs generalizing s with
  | nil => exact hs
  | cons x xs ih => exact (hbody x xs s hs).bind (fun _ s' hs' => ih hs') fun e s' he => he

/-- A loop that ends at the first element that is refused. -/
theorem Ends.each_until {S : Type} (J : S → σ → Prop) (accepts : β → Bool) (step : S → β → S)
    {body : β → Handler σ Error Unit}
    (hyes : ∀ x a s,accepts x=true → J a s → Ends (body x) s fun r s' => r=.ok () ∧ J (step a x) s')
    (hno : ∀ x a s,accepts x=false → J a s → Ends (body x) s fun r s' => J a s' ∧ ∃ e,r=.error e)
    {xs : List β} {a : S} (hs : J a s) :
    Ends (StoreScript.each xs body) s fun r s' =>
      J ((xs.takeWhile accepts).foldl step a) s' ∧ (r=.ok () ↔ ∀ x∈xs,accepts x=true) := by
  induction xs generalizing a s with
  | nil => exact ⟨hs,fun _ x hx => absurd hx List.not_mem_nil,fun _ => rfl⟩
  | cons x xs ih =>
    cases hx : accepts x with
    | true =>
      refine (hyes x a s hx hs).bind (fun _ s' ⟨_,hs'⟩ => ?_) fun e s' ⟨he,_⟩ => ?_
      · refine (ih hs').mono fun r s'' ⟨hs'',hr⟩ => ?_
        rw [List.takeWhile_cons_of_pos hx,List.foldl_cons,List.forall_mem_cons]
        exact ⟨hs'',hr.trans ⟨fun h => ⟨hx,h⟩,And.right⟩⟩
      · cases he
    | false =>
      have hnot : ¬accepts x=true := by
        rw [hx]
        exact Bool.false_ne_true
      refine (hno x a s hx hs).bind (fun _ s' ⟨_,e,he⟩ => ?_) fun e s' ⟨hs',_⟩ => ?_
      · cases he
      · rw [List.takeWhile_cons_of_neg hnot]
        refine ⟨hs',fun h => ?_,fun h => absurd (h x List.mem_cons_self) hnot⟩
        cases h

/-- A loop that drops errors. -/
theorem Ends.each_ok {I : σ → Prop} {xs : List β} {body : β → Handler σ Error Unit} (hs : I s)
    (hbody : ∀ x∈xs,∀ s,I s → Ends (body x) s fun _ => I) :
    Ends (StoreScript.each xs fun x => StoreScript.ok (body x)) s fun _ => I := by
  induction xs generalizing s with
  | nil => exact hs
  | cons x xs ih =>
    have hfirst : Ends (StoreScript.ok (body x)) s fun _ => I :=
      Ends.rescue (hbody x List.mem_cons_self s hs) (fun _ _ h => h) fun _ _ h => h
    have hrest : ∀ y∈xs,∀ s,I s → Ends (body y) s fun _ => I := fun y hy => hbody y (List.mem_cons_of_mem x hy)
    exact hfirst.bind (fun _ s' hs' => ih hs' hrest) fun e s' hs' => hs'

end Ends

section Plans

variable {ω υ σ Error α β : Type}

/-- Writes and a result. -/
structure Plan (ω Error α : Type) where
  /-- The writes, in order. -/
  writes : List ω
  /-- The result after them. -/
  result : Except Error α

namespace Plan

/-- No writes. -/
def pure (a : α) : Plan ω Error α := ⟨[],.ok a⟩

/-- A refusal. -/
def throw (e : Error) : Plan ω Error α := ⟨[],.error e⟩

/-- One write. -/
def write (w : ω) (a : α) : Plan ω Error α := ⟨[w],.ok a⟩

/-- A plan after a plan. -/
def bind (p : Plan ω Error α) (f : α → Plan ω Error β) : Plan ω Error β :=
  match p.result with
  | .ok a => ⟨p.writes++(f a).writes,(f a).result⟩
  | .error e => ⟨p.writes,.error e⟩

end Plan

variable (view : σ → υ) (apply : υ → ω → υ) (context : σ → σ → Prop)

/-- The handler ends with the result of the plan and has made its writes; what
is around the view has changed within the context only. -/
def Follows (p : Handler σ Error α) (s : σ) (plan : Plan ω Error α) : Prop :=
  Ends p s fun r s' => r=plan.result ∧ view s'=plan.writes.foldl apply (view s) ∧ context s s'

variable {view apply context} {s : σ}

/-- A sequence follows a sequence of plans. -/
theorem Follows.bind {p : Handler σ Error β} {f : β → Handler σ Error α} {plan : Plan ω Error β}
    {next : β → Plan ω Error α} (htrans : ∀ s s' s'',context s s' → context s' s'' → context s s'')
    (h : Follows view apply context p s plan)
    (hf : ∀ b s',plan.result=.ok b → view s'=plan.writes.foldl apply (view s) → context s s' →
      Follows view apply context (f b) s' (next b)) :
    Follows view apply context (p.bind f) s (plan.bind next) := by
  unfold Plan.bind
  refine Ends.bind h (fun b s' ⟨hr,hview,hs⟩ => ?_) fun e s' ⟨hr,hview,hs⟩ => ?_
  · refine (hf b s' hr.symm hview hs).mono fun r s'' ⟨hr',hview',hs'⟩ => ?_
    rw [← hr]
    refine ⟨hr',?_,htrans s s' s'' hs hs'⟩
    rw [hview',hview,List.foldl_append]
  · rw [← hr]
    exact ⟨rfl,hview,hs⟩

end Plans

end NadSafe.PlannedScript
