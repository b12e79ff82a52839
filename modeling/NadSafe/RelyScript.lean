import NadSafe.StoreScript

/-!
# Scripts under interference

A script relies on what may happen while it is suspended and guarantees
something about each of its own segments. If every operation of a pool keeps
its side, and a segment that breaks what the others rely on runs only while
no other operation is in flight, then every segment of every run keeps its
guarantee. A part of the state that a script never writes is its frame.
-/

namespace NadSafe.RelyScript

open AsyncScript AsyncScript.Script ScriptPool StoreScript

section Scripts

variable {Call : Type} {Answer : Call → Type} {Input Error α β σ : Type}

/-- From a segment that began in the first state and has come to the second:
every segment that ends in a suspension or a failure guarantees `G`, the last
one `Q`, as long as suspensions change the state by `R` only. -/
def Bears (exec : ∀ c,σ → Answer c×σ) (R G : σ → σ → Prop) (Q : α → σ → σ → Prop) :
    Script Call Answer Input Error α → σ → σ → Prop
  | .done a,s₀,s => Q a s₀ s
  | .fail _,s₀,s => G s₀ s
  | .call c k,s₀,s => Bears exec R G Q (k (exec c s).1) s₀ (exec c s).2
  | .await k,s₀,s => G s₀ s ∧ ∀ i s',R s s' → Bears exec R G Q (k i) s' s'

variable {exec : ∀ c,σ → Answer c×σ} {R G : σ → σ → Prop} {Q : α → σ → σ → Prop} {s₀ s : σ}

theorem Bears.mono {Q' : α → σ → σ → Prop} {p : Script Call Answer Input Error α}
    (h : Bears exec R G Q p s₀ s) (hQ : ∀ a s₀ s,Q a s₀ s → Q' a s₀ s) : Bears exec R G Q' p s₀ s := by
  induction p generalizing s₀ s with
  | done a => exact hQ a s₀ s h
  | fail e => exact h
  | call c k ih => exact ih _ h
  | await k ih => exact ⟨h.1,fun i s' hs => ih i (h.2 i s' hs)⟩

/-- A sequence continues the segment that its first part leaves. -/
theorem Bears.bind {Q' : β → σ → σ → Prop} {p : Script Call Answer Input Error α}
    {f : α → Script Call Answer Input Error β} (h : Bears exec R G Q p s₀ s)
    (hf : ∀ a s₀ s,Q a s₀ s → Bears exec R G Q' (f a) s₀ s) : Bears exec R G Q' (p.bind f) s₀ s := by
  induction p generalizing s₀ s with
  | done a => exact hf a s₀ s h
  | fail e => exact h
  | call c k ih => exact ih _ h
  | await k ih => exact ⟨h.1,fun i s' hs => ih i (h.2 i s' hs)⟩

/-- A handler continues the segment that failed. -/
theorem Bears.rescue {p : Script Call Answer Input Error α}
    {handler : Error → Script Call Answer Input Error α} (h : Bears exec R G Q p s₀ s)
    (hh : ∀ e s₀ s,G s₀ s → Bears exec R G Q (handler e) s₀ s) :
    Bears exec R G Q (p.rescue handler) s₀ s := by
  induction p generalizing s₀ s with
  | done a => exact h
  | fail e => exact hh e s₀ s h
  | call c k ih => exact ih _ h
  | await k ih => exact ⟨h.1,fun i s' hs => ih i (h.2 i s' hs)⟩

/-- What the end of a segment shows of its guarantee. -/
def Ended (G : σ → σ → Prop) (Q : α → σ → σ → Prop) :
    Script Call Answer Input Error α → σ → σ → Prop
  | .done a,s₀,s => Q a s₀ s
  | _,s₀,s => G s₀ s

/-- The text that a script is left with at the end of a segment. -/
def Parked (exec : ∀ c,σ → Answer c×σ) (R G : σ → σ → Prop) (Q : α → σ → σ → Prop) :
    Script Call Answer Input Error α → σ → Prop
  | .await k,s => ∀ i s',R s s' → Bears exec R G Q (k i) s' s'
  | _,_ => True

/-- A segment keeps its guarantee and leaves a text that goes on in the same
way. -/
theorem Bears.settle {p : Script Call Answer Input Error α} (h : Bears exec R G Q p s₀ s) :
    Ended G Q (settle exec p s).1 s₀ (settle exec p s).2 ∧
      Parked exec R G Q (settle exec p s).1 (settle exec p s).2 := by
  induction p generalizing s with
  | done a => exact ⟨h,trivial⟩
  | fail e => exact ⟨h,trivial⟩
  | call c k ih => exact ih _ h
  | await k => exact h

/-- A parked text stays so while others move. -/
theorem Parked.stable (htrans : ∀ a b c,R a b → R b c → R a c) {s' : σ}
    {p : Script Call Answer Input Error α} (h : Parked exec R G Q p s) (hs : R s s') :
    Parked exec R G Q p s' := by
  cases p with
  | await k => exact fun i s'' hs' => h i s'' (htrans _ _ _ hs hs')
  | _ => trivial

/-- The script never writes a part of the state. -/
def Frames {τ : Type} (exec : ∀ c,σ → Answer c×σ) (part : σ → τ)
    (p : Script Call Answer Input Error α) : Prop :=
  p.Obeys (fun c => ∀ s,part (exec c s).2=part s) (fun _ _ => True) fun _ => True

/-- What is a matter of the frame holds at the end, and no segment does
anything else. -/
theorem Bears.frames {τ : Type} {part : σ → τ} {F : σ → Prop} (hG : ∀ s₀ s s',G s₀ s → part s'=part s → G s₀ s')
    (hrefl : ∀ s,F s → G s s) (hrely : ∀ s s',R s s' → F s → F s')
    (hpart : ∀ s s',part s'=part s → F s → F s') {p : Script Call Answer Input Error α}
    (hp : Frames exec part p) (hs : F s) (hstart : G s₀ s) :
    Bears exec R G (fun _ s₀ s => F s ∧ G s₀ s) p s₀ s := by
  induction p generalizing s₀ s with
  | done a => exact ⟨hs,hstart⟩
  | fail e => exact hstart
  | call c k ih =>
    have hsame := hp.1 s
    exact ih _ (hp.2 _ trivial) (hpart _ _ hsame hs) (hG _ _ _ hstart hsame)
  | await k ih =>
    refine ⟨hstart,fun i s' hs' => ?_⟩
    have hF := hrely s s' hs' hs
    exact ih i (hp i) hF (hrefl s' hF)

end Scripts

section Statements

variable {σ Error α β : Type} {R G : σ → σ → Prop} {Q : α → σ → σ → Prop} {s₀ s : σ}

/-- A query reads the state after interference. -/
theorem Bears.query {f : σ → β} {g : β → Handler σ Error α} (hs : G s₀ s)
    (h : ∀ s',R s s' → Bears exec R G Q (g (f s')) s' s') :
    Bears exec R G Q ((StoreScript.query f).bind g) s₀ s := ⟨hs,fun _ s' hs' => h s' hs'⟩

/-- The same for a query at the end. -/
theorem Bears.query_done {f : σ → α} (hs : G s₀ s) (h : ∀ s',R s s' → Q (f s') s' s') :
    Bears exec R G Q (StoreScript.query f : Handler σ Error α) s₀ s := ⟨hs,fun _ s' hs' => h s' hs'⟩

/-- A drawn value is passed on. -/
theorem Bears.draw {f : σ → β} {next : σ → σ} {g : β → Handler σ Error α} (hs : G s₀ s)
    (h : ∀ s',R s s' → Bears exec R G Q (g (f s')) s' (next s')) :
    Bears exec R G Q ((StoreScript.draw f next).bind g) s₀ s := ⟨hs,fun _ s' hs' => h s' hs'⟩

/-- A statement at the end: accepted, or refused with the state as it was. -/
theorem Bears.execute {message : Error} {update : σ → Option σ} {Q : Unit → σ → σ → Prop} (hs : G s₀ s)
    (h : ∀ s',R s s' → (∀ s'',update s'=some s'' → Q () s' s'') ∧ G s' s') :
    Bears exec R G Q (StoreScript.execute message update) s₀ s := by
  refine ⟨hs,fun _ s' hs' => ?_⟩
  show Bears exec R G Q (if (update s').isSome=true then Script.done () else Script.fail message) s'
    ((update s').getD s')
  obtain ⟨haccepted,hrefused⟩ := h s' hs'
  cases hu : update s' with
  | none => exact hrefused
  | some s'' => exact haccepted s'' hu

/-- A check continues where it holds. -/
theorem Bears.ensure {message : Error} {condition : Bool} {g : Unit → Handler σ Error α} (hs : G s₀ s)
    (h : condition=true → Bears exec R G Q (g ()) s₀ s) :
    Bears exec R G Q ((StoreScript.ensure message condition).bind g) s₀ s := by
  cases condition with
  | true => exact h rfl
  | false => exact hs

/-- A check at the end. -/
theorem Bears.ensure_done {message : Error} {condition : Bool} {Q : Unit → σ → σ → Prop} (hs : G s₀ s)
    (h : condition=true → Q () s₀ s) :
    Bears exec R G Q (StoreScript.ensure message condition : Handler σ Error Unit) s₀ s := by
  cases condition with
  | true => exact h rfl
  | false => exact hs

/-- A value that is there is passed on. -/
theorem Bears.expect {message : Error} {value : Option β} {g : β → Handler σ Error α} (hs : G s₀ s)
    (h : ∀ b,value=some b → Bears exec R G Q (g b) s₀ s) :
    Bears exec R G Q ((StoreScript.expect message value).bind g) s₀ s := by
  cases value with
  | some b => exact h b rfl
  | none => exact hs

/-- A loop keeps what its body keeps, for the elements that are left. -/
theorem Bears.each {J : List β → σ → σ → Prop} {xs : List β} {body : β → Handler σ Error Unit}
    (hbody : ∀ x xs s₀ s,J (x::xs) s₀ s → Bears exec R G (fun _ => J xs) (body x) s₀ s)
    (hs : J xs s₀ s) : Bears exec R G (fun _ => J []) (StoreScript.each xs body) s₀ s := by
  induction xs generalizing s₀ s with
  | nil => exact hs
  | cons x xs ih => exact (hbody x xs s₀ s hs).bind fun _ s₀' s' hs' => ih hs'

/-- A handler with a dropped error. -/
theorem Bears.ok {p : Handler σ Error Unit} {Q : Unit → σ → σ → Prop} (h : Bears exec R G Q p s₀ s)
    (hG : ∀ s₀ s,G s₀ s → Q () s₀ s) : Bears exec R G Q (StoreScript.ok p) s₀ s :=
  h.rescue fun _ s₀ s hs => hG s₀ s hs

variable {τ : Type} {part : σ → τ}

theorem Frames.pure (a : α) : Frames exec part (Script.done a : Handler σ Error α) := trivial

theorem Frames.throw (e : Error) : Frames exec part (Script.fail e : Handler σ Error α) := trivial

theorem Frames.bind {p : Handler σ Error β} {f : β → Handler σ Error α} (hp : Frames exec part p)
    (hf : ∀ b,Frames exec part (f b)) : Frames exec part (p.bind f) :=
  Obeys.bind hp fun b _ => hf b

theorem Frames.query (f : σ → α) : Frames exec part (StoreScript.query f : Handler σ Error α) :=
  fun _ => ⟨fun _ => rfl,fun _ _ => trivial⟩

theorem Frames.draw {f : σ → α} {next : σ → σ} (h : ∀ s,part (next s)=part s) :
    Frames exec part (StoreScript.draw f next : Handler σ Error α) :=
  fun _ => ⟨fun _ => rfl,fun _ _ => ⟨fun s => h s,fun _ _ => trivial⟩⟩

theorem Frames.execute {message : Error} {update : σ → Option σ}
    (h : ∀ s s',update s=some s' → part s'=part s) :
    Frames exec part (StoreScript.execute message update) := by
  intro _
  refine ⟨fun s => ?_,fun accepted _ => ?_⟩
  · show part ((update s).getD s)=part s
    cases hu : update s with
    | none => rfl
    | some s' => exact h s s' hu
  · cases accepted <;> exact trivial

theorem Frames.ensure (message : Error) (condition : Bool) :
    Frames exec part (StoreScript.ensure message condition : Handler σ Error Unit) := by
  cases condition <;> exact trivial

theorem Frames.expect (message : Error) (value : Option α) :
    Frames exec part (StoreScript.expect message value : Handler σ Error α) := by
  cases value <;> exact trivial

theorem Frames.each {xs : List β} {body : β → Handler σ Error Unit}
    (h : ∀ x∈xs,Frames exec part (body x)) : Frames exec part (StoreScript.each xs body) := by
  induction xs with
  | nil => exact trivial
  | cons x xs ih =>
    exact Frames.bind (h x List.mem_cons_self) fun _ => ih fun y hy => h y (List.mem_cons_of_mem x hy)

theorem Frames.findAny {xs : List β} {body : β → Handler σ Error Bool}
    (h : ∀ x,Frames exec part (body x)) : Frames exec part (StoreScript.findAny xs body) := by
  induction xs with
  | nil => exact trivial
  | cons x xs ih =>
    refine Frames.bind (h x) fun found => ?_
    cases found
    · exact ih
    · exact trivial

theorem Frames.ok {p : Handler σ Error Unit} (h : Frames exec part p) :
    Frames exec part (StoreScript.ok p) := Obeys.rescue h fun _ => trivial

theorem Frames.ite {c : Prop} [Decidable c] {p q : Handler σ Error α} (hp : c → Frames exec part p)
    (hq : ¬c → Frames exec part q) : Frames exec part (if c then p else q) := by
  split
  · exact hp ‹_›
  · exact hq ‹_›

end Statements

section Runs

variable {Call : Type} {Answer : Call → Type} {Input Error α σ Op : Type}

/-- The operation that a step moves. -/
def mover (P : Pool Call Answer Input Error α σ Op) : Event Op Input → ℕ
  | .start _ => P.threads.length
  | .resume n _ => n

/-- The operations that a step does not move have settled. -/
def Alone (P : Pool Call Answer Input Error α σ Op) (e : Event Op Input) : Prop :=
  ∀ (n : ℕ) (t : Thread Call Answer Input Error α Op),P.threads[n]?=some t → n≠mover P e →
    t.rest.settled=true

/-- Each step leaves what the others rely on as it is, or is made while no
other operation is in flight. -/
def Undisturbed (S : System Call Answer Input Error α σ Op) (same : σ → σ → Prop)
    (P : Pool Call Answer Input Error α σ Op) (e : Event Op Input) : Prop :=
  same P.shared (S.step P e).shared ∨ Alone P e

/-- The invariant and the texts of all operations in flight. -/
structure Kept (S : System Call Answer Input Error α σ Op) (I : σ → Prop) (R : σ → σ → Prop)
    (G : Op → σ → σ → Prop) (Q : Op → α → σ → σ → Prop)
    (P : Pool Call Answer Input Error α σ Op) : Prop where
  /-- Shared state. -/
  shared : I P.shared
  /-- Operations. -/
  threads : ∀ (n : ℕ) (t : Thread Call Answer Input Error α Op),P.threads[n]?=some t →
    Parked S.exec R (G t.origin) (Q t.origin) t.rest P.shared

variable {S : System Call Answer Input Error α σ Op} {I : σ → Prop} {R same : σ → σ → Prop}
  {G : Op → σ → σ → Prop} {Q : Op → α → σ → σ → Prop} {P : Pool Call Answer Input Error α σ Op}

/-- What a step has done: nothing, or one segment of one operation. -/
inductive Moved (S : System Call Answer Input Error α σ Op) (G : Op → σ → σ → Prop)
    (Q : Op → α → σ → σ → Prop) (P : Pool Call Answer Input Error α σ Op) (e : Event Op Input) : Prop
  /-- The operation has settled, or there is none. -/
  | idle (h : S.step P e=P)
  /-- A segment, with its guarantee. -/
  | segment (t : Thread Call Answer Input Error α Op) (h : (S.step P e).threads[mover P e]?=some t)
      (hended : Ended (G t.origin) (Q t.origin) t.rest P.shared (S.step P e).shared)

/-- A segment of an operation and what it leaves behind. -/
theorem step_segment (hP : Kept S I R G Q P) (hbody : ∀ op s,I s → Bears S.exec R (G op) (Q op) (S.body op) s s)
    (hrely : ∀ s,I s → R s s) (e : Event Op Input) :
    S.step P e=P ∨ ∃ op p,(S.step P e).threads[mover P e]?=some ⟨op,p⟩ ∧
      (∀ n,n≠mover P e → (S.step P e).threads[n]?=P.threads[n]?) ∧
      Ended (G op) (Q op) p P.shared (S.step P e).shared ∧
      Parked S.exec R (G op) (Q op) p (S.step P e).shared := by
  cases e with
  | start op =>
    right
    obtain ⟨hended,hparked⟩ := (hbody op P.shared hP.shared).settle
    refine ⟨op,(settle S.exec (S.body op) P.shared).1,?_,fun n hn => ?_,hended,hparked⟩
    · simp [System.step,mover]
    · show (P.threads++[_])[n]?=P.threads[n]?
      rcases Nat.lt_or_gt_of_ne hn with hlt|hgt
      · exact List.getElem?_append_left hlt
      · have hlen : P.threads.length≤n := Nat.le_of_lt hgt
        rw [List.getElem?_append_right hlen,List.getElem?_eq_none hlen]
        have hpos : n-P.threads.length≠0 := Nat.sub_ne_zero_of_lt hgt
        obtain ⟨m,hm⟩ := Nat.exists_eq_succ_of_ne_zero hpos
        rw [hm]
        rfl
  | resume n i =>
    cases ht : P.threads[n]? with
    | none =>
      left
      exact System.step_resume_idle (fun t k h => by rw [ht] at h; cases h) i
    | some t =>
      obtain ⟨op,p⟩ := t
      cases p with
      | await k =>
        right
        have hstep : S.step P (.resume n i)=⟨(settle S.exec (k i) P.shared).2,
            P.threads.set n ⟨op,(settle S.exec (k i) P.shared).1⟩⟩ := System.step_resume ht rfl i
        have hpark := hP.threads n _ ht
        obtain ⟨hended,hparked⟩ := (hpark i P.shared (hrely _ hP.shared)).settle
        have hlt : n<P.threads.length := (List.getElem?_eq_some_iff.mp ht).1
        rw [hstep]
        refine ⟨op,(settle S.exec (k i) P.shared).1,?_,fun m hm => ?_,hended,hparked⟩
        · show (P.threads.set n _)[n]?=_
          rw [List.getElem?_set_self hlt]
        · exact List.getElem?_set_ne (Ne.symm hm)
      | done a =>
        left
        exact System.step_resume_idle (fun t k h => by rw [ht] at h; cases h; exact fun h => by cases h) i
      | fail e =>
        left
        exact System.step_resume_idle (fun t k h => by rw [ht] at h; cases h; exact fun h => by cases h) i
      | call c k =>
        left
        exact System.step_resume_idle (fun t k h => by rw [ht] at h; cases h; exact fun h => by cases h) i

/-- A step that does not disturb the others keeps everything, and the moved
operation its guarantee. -/
theorem Kept.step (hP : Kept S I R G Q P)
    (hbody : ∀ op s,I s → Bears S.exec R (G op) (Q op) (S.body op) s s)
    (hrefl : ∀ s,I s → R s s) (htrans : ∀ a b c,R a b → R b c → R a c)
    (hinv : ∀ op (p : Script Call Answer Input Error α) s s',I s → Ended (G op) (Q op) p s s' → I s')
    (hrely : ∀ op (p : Script Call Answer Input Error α) s s',I s → Ended (G op) (Q op) p s s' →
      same s s' → R s s')
    {e : Event Op Input} (he : Undisturbed S same P e) :
    Kept S I R G Q (S.step P e) ∧ Moved S G Q P e := by
  rcases step_segment hP hbody hrefl e with hidle|⟨op,p,hself,hothers,hended,hparked⟩
  · exact ⟨hidle.symm ▸ hP,.idle hidle⟩
  have hshared := hinv op p _ _ hP.shared hended
  refine ⟨⟨hshared,fun n t ht => ?_⟩,.segment ⟨op,p⟩ hself hended⟩
  by_cases hn : n=mover P e
  · subst hn
    rw [hself] at ht
    cases ht
    exact hparked
  · rw [hothers n hn] at ht
    have hpark := hP.threads n t ht
    rcases he with hsame|halone
    · exact hpark.stable htrans (hrely op p _ _ hP.shared hended hsame)
    · have hsettled := halone n t ht hn
      cases hrest : t.rest with
      | await k => rw [hrest] at hsettled; cases hsettled
      | _ => trivial

/-- Every run in which no step disturbs the others keeps everything. -/
theorem Kept.run (hP : Kept S I R G Q P)
    (hbody : ∀ op s,I s → Bears S.exec R (G op) (Q op) (S.body op) s s)
    (hrefl : ∀ s,I s → R s s) (htrans : ∀ a b c,R a b → R b c → R a c)
    (hinv : ∀ op (p : Script Call Answer Input Error α) s s',I s → Ended (G op) (Q op) p s s' → I s')
    (hrely : ∀ op (p : Script Call Answer Input Error α) s s',I s → Ended (G op) (Q op) p s s' →
      same s s' → R s s')
    {events : List (Event Op Input)} (hrun : S.Admits (Undisturbed S same) P events) :
    Kept S I R G Q (S.run P events) :=
  StepRuns.run_invariant (fun _ _ hP he => (Kept.step hP hbody hrefl htrans hinv hrely he).1) hP hrun

/-- An idle pool. -/
theorem Kept.idle {s : σ} (hs : I s) : Kept S I R G Q ⟨s,[]⟩ :=
  ⟨hs,fun n t ht => by simp at ht⟩

/-- All operations but one have settled. -/
def OneAtATime (P : Pool Call Answer Input Error α σ Op) (n : ℕ) : Prop :=
  ∀ (m : ℕ) (t : Thread Call Answer Input Error α Op),P.threads[m]?=some t → m≠n → t.rest.settled=true

/-- An operation that has settled does not move. -/
theorem step_settled {n : ℕ} {i : Arrival Input}
    (h : ∀ t : Thread Call Answer Input Error α Op,P.threads[n]?=some t → t.rest.settled=true) :
    S.step P (.resume n i)=P := by
  refine System.step_resume_idle (fun t k ht hk => ?_) i
  have hsettled := h t ht
  rw [hk] at hsettled
  cases hsettled

/-- Operations that run one after the other do not disturb each other. -/
theorem undisturbed_of_sequential (hsame : ∀ s,same s s) {n : ℕ} (hP : OneAtATime P n)
    {events : List (Event Op Input)} (h : S.sequential P events=true) :
    S.Admits (Undisturbed S same) P events := by
  induction events generalizing P n with
  | nil => trivial
  | cons e events ih =>
    cases e with
    | start op =>
      rw [System.sequential,Bool.and_eq_true,List.all_eq_true] at h
      have hsettled : ∀ (m : ℕ) (t : Thread Call Answer Input Error α Op),P.threads[m]?=some t →
          t.rest.settled=true := fun m t ht => h.1 t (List.mem_of_getElem? ht)
      refine ⟨.inr fun m t ht _ => hsettled m t ht,ih (n:=P.threads.length) (fun m t ht hm => ?_) h.2⟩
      have ht' : (P.threads++[⟨op,(settle S.exec (S.body op) P.shared).1⟩])[m]?=some t := ht
      rcases Nat.lt_or_gt_of_ne hm with hlt|hgt
      · rw [List.getElem?_append_left hlt] at ht'
        exact hsettled m t ht'
      · have hnone : (P.threads++[⟨op,(settle S.exec (S.body op) P.shared).1⟩])[m]?=none := by
          rw [List.getElem?_eq_none_iff,List.length_append,List.length_singleton]
          omega
        rw [hnone] at ht'
        cases ht'
    | resume m i =>
      by_cases hm : m=n
      · subst hm
        refine ⟨.inr hP,ih (n:=m) (fun k t ht hk => ?_) h⟩
        have hkeep : (S.step P (.resume m i)).threads[k]?=P.threads[k]? := by
          cases hthread : P.threads[m]? with
          | none =>
            rw [step_settled fun t ht => by rw [hthread] at ht; cases ht]
          | some t =>
            simp only [System.step,hthread]
            exact List.getElem?_set_ne (Ne.symm hk)
        rw [hkeep] at ht
        exact hP k t ht hk
      · have hidle : S.step P (.resume m i)=P := step_settled fun t ht => hP m t ht hm
        refine ⟨.inl ?_,?_⟩
        · rw [hidle]
          exact hsame _
        · have hrest := ih hP (hidle ▸ h : S.sequential P events=true)
          rw [hidle]
          exact hrest

end Runs

end NadSafe.RelyScript
