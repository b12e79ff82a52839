import NadSafe.ScriptPool

/-!
# Call protocols and the one leading operation

A protocol assigns phases to a script: which calls each phase allows, which
phase follows each answer and where the script may suspend. Assertions about
the shared state are indexed by the phase. The pool rule is for systems in
which at most one operation of a leading kind is in flight: its phase names
the assertion, and every other script has to keep it.
-/

namespace NadSafe.ScriptProtocol

open AsyncScript ScriptPool

variable {Call : Type} {Answer : Call → Type} {Input Error α β σ Op κ : Type}

/-- A protocol over phases `κ`. -/
structure Protocol (Call : Type) (Answer : Call → Type) (Input κ : Type) where
  /-- Calls that a phase allows. -/
  allowed : κ → Call → Prop
  /-- The phase after an answer. -/
  next : κ → ∀ c, Answer c → κ
  /-- Phases in which a script may suspend. -/
  parks : κ → Prop
  /-- What may arrive there. -/
  arrives : Arrival Input → Prop

/-- A script follows the protocol from a phase on; it completes in a phase
and with a result in `Q`, and rejects in a phase in `E`. -/
def Follows (R : Protocol Call Answer Input κ) (Q : κ → α → Prop) (E : κ → Prop) :
    Script Call Answer Input Error α → κ → Prop
  | .done a,q => Q q a
  | .fail _,q => E q
  | .call c k,q => R.allowed q c ∧ ∀ r, Follows R Q E (k r) (R.next q c r)
  | .await k,q => R.parks q ∧ ∀ i, R.arrives i → Follows R Q E (k i) q

section Rules

variable {R : Protocol Call Answer Input κ} {Q : κ → α → Prop} {E : κ → Prop}

/-- One call, with the phase it leads to. -/
theorem Follows.perform {c : Call} {q : κ} {Q : κ → Answer c → Prop} (hc : R.allowed q c)
    (hr : ∀ r, Q (R.next q c r) r) :
    Follows R Q E (Script.perform c : Script Call Answer Input Error (Answer c)) q :=
  ⟨hc,hr⟩

/-- A sequence passes the phase of its first part on. -/
theorem Follows.bind {p : Script Call Answer Input Error α}
    {f : α → Script Call Answer Input Error β} {Q' : κ → β → Prop} {q : κ}
    (h : Follows R Q E p q) (hf : ∀ q a,Q q a → Follows R Q' E (f a) q) :
    Follows R Q' E (p.bind f) q := by
  induction p generalizing q with
  | done a => exact hf q a h
  | fail e => exact h
  | call c k ih => exact ⟨h.1,fun r => ih r (h.2 r)⟩
  | await k ih => exact ⟨h.1,fun i hi => ih i (h.2 i hi)⟩

/-- A handler starts in a phase in which the guarded script may reject. -/
theorem Follows.rescue {p : Script Call Answer Input Error α}
    {handler : Error → Script Call Answer Input Error α} {E' : κ → Prop} {q : κ}
    (h : Follows R Q E p q) (hh : ∀ q e,E q → Follows R Q E' (handler e) q) :
    Follows R Q E' (p.rescue handler) q := by
  induction p generalizing q with
  | done a => exact h
  | fail e => exact hh q e h
  | call c k ih => exact ⟨h.1,fun r => ih r (h.2 r)⟩
  | await k ih => exact ⟨h.1,fun i hi => ih i (h.2 i hi)⟩

/-- A segment ends in some phase, with its assertion, in which the rest
follows the protocol. -/
theorem Follows.settle {exec : ∀ c, σ → Answer c×σ} {B : κ → σ → Prop}
    (hcall : ∀ q c s,B q s → R.allowed q c → B (R.next q c (exec c s).1) (exec c s).2)
    {p : Script Call Answer Input Error α} {q : κ} {s : σ} (h : Follows R Q E p q) (hs : B q s) :
    ∃ q',Follows R Q E (settle exec p s).1 q' ∧ B q' (settle exec p s).2 := by
  induction p generalizing q s with
  | done a => exact ⟨q,h,hs⟩
  | fail e => exact ⟨q,h,hs⟩
  | call c k ih => exact ih _ (h.2 _) (hcall q c s hs h.1)
  | await k => exact ⟨q,h,hs⟩

/-- A protocol that allows only calls in `pre` is a contract. -/
theorem Follows.obeys {pre : Call → Prop} {post : ∀ c, Answer c → Prop}
    (hpre : ∀ q c,R.allowed q c → pre c) (harrives : ∀ i,R.arrives i) {p : Script Call Answer Input Error α} {q : κ}
    (h : Follows R Q E p q) : p.Obeys pre post fun _ => True := by
  induction p generalizing q with
  | done a => trivial
  | fail e => trivial
  | call c k ih => exact ⟨hpre q c h.1,fun r _ => ih r (h.2 r)⟩
  | await k ih => exact fun i => ih i (h.2 i (harrives i))

end Rules

/-- The script follows the protocol and ends in phase `q₀`. -/
abbrev Returns (R : Protocol Call Answer Input κ) (q₀ : κ) (p : Script Call Answer Input Error α) (q : κ) :
    Prop := Follows R (fun q _ => q=q₀) (fun q => q=q₀) p q

/-- A contract is a protocol with one phase. -/
theorem Returns.of_obeys {R : Protocol Call Answer Input Unit} (hparks : R.parks ()) {pre : Call → Prop}
    (hpre : ∀ c,pre c → R.allowed () c) {p : Script Call Answer Input Error α}
    (h : p.Obeys pre (fun _ _ => True) fun _ => True) : Returns R () p () := by
  induction p with
  | done a => rfl
  | fail e => rfl
  | call c k ih => exact ⟨hpre c h.1,fun r => ih r (h.2 r trivial)⟩
  | await k ih => exact ⟨hparks,fun i _ => ih i (h i)⟩

/-- A settled script has returned. -/
theorem Returns.of_settled {R : Protocol Call Answer Input κ} {q₀ q : κ}
    {p : Script Call Answer Input Error α} (hp : p.settled=true) (h : Returns R q₀ p q) : q=q₀ := by
  cases p with
  | done a => exact h
  | fail e => exact h
  | call c k => cases hp
  | await k => cases hp

/-- A settled script follows every protocol from its last phase. -/
theorem returns_of_settled {R : Protocol Call Answer Input κ} {q₀ : κ}
    {p : Script Call Answer Input Error α} (hp : p.settled=true) : Returns R q₀ p q₀ := by
  cases p with
  | done a => rfl
  | fail e => rfl
  | call c k => cases hp
  | await k => cases hp

/-- Where a segment stops, the script has returned or may suspend. -/
theorem Returns.stopped {R : Protocol Call Answer Input κ} {q₀ q : κ}
    {p : Script Call Answer Input Error α} (hp : p.StopsBefore fun _ => True)
    (h : Returns R q₀ p q) : (p.settled=true ∧ q=q₀) ∨ R.parks q := by
  cases p with
  | done a => exact .inl ⟨rfl,h⟩
  | fail e => exact .inl ⟨rfl,h⟩
  | call c k => exact absurd trivial hp.1
  | await k => exact .inr h.1

section Leading

variable {κ₂ : Type}

/-- A system in which operations of a leading kind run one at a time. The
assertion is indexed by the phase of the leading operation in flight, or
`free`, and by the phase of the other script that is moving, or `rest`. -/
structure Discipline (S : System Call Answer Input Error α σ Op) (κ κ₂ : Type) where
  /-- The operations that run one at a time. -/
  leads : Op → Prop
  /-- Their protocol. -/
  lead : Protocol Call Answer Input κ
  /-- No leading operation is in flight. -/
  free : κ
  /-- The first phase of a leading operation. -/
  first : κ
  /-- The protocol of all other operations. -/
  other : Protocol Call Answer Input κ₂
  /-- The only phase in which other operations suspend. -/
  rest : κ₂
  /-- The assertion about the shared state. -/
  A : κ → κ₂ → σ → Prop
  /-- A leading operation is no longer in flight when it is free. -/
  free_parks : ¬lead.parks free
  /-- Other operations suspend at rest. -/
  rest_parks : ∀ ph,other.parks ph → ph=rest
  /-- Anything may arrive at them. -/
  rest_arrives : ∀ i,other.arrives i
  /-- A leading operation may start whenever none is in flight. -/
  first_of_free : ∀ s,A free rest s → A first rest s
  /-- Calls of a leading operation carry the assertion on. -/
  lead_call : ∀ q c s,A q rest s → lead.allowed q c → A (lead.next q c (S.exec c s).1) rest (S.exec c s).2
  /-- Calls of other operations keep the phase of the leading one. -/
  other_call : ∀ q ph c s,q=free ∨ lead.parks q → A q ph s → other.allowed ph c →
    A q (other.next ph c (S.exec c s).1) (S.exec c s).2
  /-- The texts of leading operations follow their protocol. -/
  lead_body : ∀ op,leads op → Returns lead free (S.body op) first
  /-- All other texts follow theirs. -/
  other_body : ∀ op,¬leads op → Returns other rest (S.body op) rest

namespace Discipline

variable {S : System Call Answer Input Error α σ Op} (D : Discipline S κ κ₂)

/-- An operation may start if it does not lead or every earlier leading
operation has settled, and leading operations receive what their protocol
allows. -/
def Alone (P : Pool Call Answer Input Error α σ Op) : Event Op Input → Prop
  | .start op => D.leads op → ∀ t∈P.threads,D.leads t.origin → t.rest.settled=true
  | .resume n i => ∀ t,P.threads[n]?=some t → D.leads t.origin → D.lead.arrives i

/-- At most one leading operation is in flight, and its phase names the
assertion that holds. -/
inductive Solo (P : Pool Call Answer Input Error α σ Op) : Prop
  /-- None is in flight. -/
  | idle (shared : D.A D.free D.rest P.shared)
      (others : ∀ t∈P.threads,Returns D.other D.rest t.rest D.rest)
  /-- The one at this index is. -/
  | busy (n : ℕ) (t : Thread Call Answer Input Error α Op) (q : κ) (found : P.threads[n]?=some t)
      (leads : D.leads t.origin) (parks : D.lead.parks q) (shared : D.A q D.rest P.shared)
      (follows : Returns D.lead D.free t.rest q)
      (others : ∀ u∈P.threads.eraseIdx n,Returns D.other D.rest u.rest D.rest)

variable {D}

/-- With every leading operation settled the free assertion holds. -/
theorem Solo.free {P : Pool Call Answer Input Error α σ Op} (h : D.Solo P)
    (hs : ∀ t∈P.threads,D.leads t.origin → t.rest.settled=true) :
    D.A D.free D.rest P.shared ∧ ∀ t∈P.threads,Returns D.other D.rest t.rest D.rest := by
  cases h with
  | idle shared others => exact ⟨shared,others⟩
  | busy n t q found leads parks shared follows others =>
    have hq := Returns.of_settled (hs t (List.mem_of_getElem? found) leads) follows
    exact absurd (hq ▸ parks) D.free_parks

/-- A segment of an operation that does not lead. -/
theorem other_segment {q : κ} (hq : q=D.free ∨ D.lead.parks q)
    {p : Script Call Answer Input Error α} (hp : Returns D.other D.rest p D.rest) {s : σ}
    (hs : D.A q D.rest s) : D.A q D.rest (settle S.exec p s).2 ∧
      Returns D.other D.rest (settle S.exec p s).1 D.rest := by
  obtain ⟨ph,hp',hs'⟩ := Follows.settle (fun ph c s => D.other_call q ph c s hq) hp hs
  have hph : ph=D.rest := by
    rcases Returns.stopped (settle_stops p s _) hp' with h|h
    · exact h.2
    · exact D.rest_parks ph h
  subst hph
  exact ⟨hs',hp'⟩

/-- A segment of the leading operation ends it or leaves it in flight. -/
theorem lead_segment {p : Script Call Answer Input Error α} {q : κ}
    (hp : Returns D.lead D.free p q) {s : σ} (hs : D.A q D.rest s) :
    (D.A D.free D.rest (settle S.exec p s).2 ∧ (settle S.exec p s).1.settled=true) ∨
      ∃ q',D.lead.parks q' ∧ D.A q' D.rest (settle S.exec p s).2 ∧
        Returns D.lead D.free (settle S.exec p s).1 q' := by
  obtain ⟨q',hp',hs'⟩ := Follows.settle D.lead_call hp hs
  rcases Returns.stopped (settle_stops p s _) hp' with ⟨hdone,hfree⟩|hparks
  · exact .inl ⟨hfree ▸ hs',hdone⟩
  · exact .inr ⟨q',hparks,hs',hp'⟩

/-- Starting an allowed operation keeps the discipline. -/
theorem Solo.start {P : Pool Call Answer Input Error α σ Op} (h : D.Solo P) {op : Op}
    (hok : D.Alone P (.start op)) : D.Solo (S.step P (.start op)) := by
  by_cases hop : D.leads op
  · obtain ⟨hfree,hothers⟩ := h.free (hok hop)
    have hseg := lead_segment (D.lead_body op hop) (D.first_of_free _ hfree)
    rcases hseg with ⟨hs,hdone⟩|⟨q,hparks,hs,hrest⟩
    · refine .idle hs fun t ht => ?_
      rcases List.mem_append.mp ht with ht|ht
      · exact hothers t ht
      · rw [List.mem_singleton.mp ht]
        exact returns_of_settled hdone
    · refine .busy P.threads.length _ q List.getElem?_concat_length hop hparks hs hrest ?_
      simpa [System.step,List.eraseIdx_append_of_length_le] using hothers
  · have hbody := D.other_body op hop
    cases h with
    | idle shared others =>
      obtain ⟨hs,hrest⟩ := other_segment (.inl rfl) hbody shared
      refine .idle hs fun t ht => ?_
      rcases List.mem_append.mp ht with ht|ht
      · exact others t ht
      · rw [List.mem_singleton.mp ht]
        exact hrest
    | busy n t q found leads parks shared follows others =>
      obtain ⟨hs,hrest⟩ := other_segment (.inr parks) hbody shared
      have hn : n<P.threads.length := (List.getElem?_eq_some_iff.mp found).1
      refine .busy n t q ?_ leads parks hs follows fun u hu => ?_
      · exact (List.getElem?_append_left hn).trans found
      · have hu' : u∈P.threads.eraseIdx n++[⟨op,(settle S.exec (S.body op) P.shared).1⟩] := by
          rw [←List.eraseIdx_append_of_lt_length hn]
          exact hu
        rcases List.mem_append.mp hu' with hu'|hu'
        · exact others u hu'
        · rw [List.mem_singleton.mp hu']
          exact hrest

/-- Every allowed arrival keeps the discipline. -/
theorem Solo.resume {P : Pool Call Answer Input Error α σ Op} (h : D.Solo P) {n : ℕ}
    {i : Arrival Input} (hok : D.Alone P (.resume n i)) : D.Solo (S.step P (.resume n i)) := by
  by_cases hmove : ∃ t k,P.threads[n]?=some t ∧ t.rest=.await k
  · obtain ⟨t,k,ht,hk⟩ := hmove
    rw [System.step_resume ht hk]
    cases h with
    | idle shared others =>
      have hrest := others t (List.mem_of_getElem? ht)
      rw [hk] at hrest
      obtain ⟨hs,hrest'⟩ := other_segment (.inl rfl) (hrest.2 i (D.rest_arrives i)) shared
      refine .idle hs fun u hu => ?_
      rcases mem_set_or_eraseIdx hu with rfl|hu
      · exact hrest'
      · exact others u (List.mem_of_mem_eraseIdx hu)
    | busy m l q found leads parks shared follows others =>
      by_cases hnm : n=m
      · subst hnm
        cases ht.symm.trans found
        rw [hk] at follows
        rcases lead_segment (follows.2 i (hok t ht leads)) shared with ⟨hs,hdone⟩|⟨q',hparks,hs,hrest⟩
        · refine .idle hs fun u hu => ?_
          rcases mem_set_or_eraseIdx hu with rfl|hu
          · exact returns_of_settled hdone
          · exact others u hu
        · have hn : n<P.threads.length := (List.getElem?_eq_some_iff.mp found).1
          refine .busy n ⟨t.origin,_⟩ q' (List.getElem?_set_self hn) leads hparks hs hrest ?_
          simpa [List.eraseIdx_set_eq] using others
      · have hmem : t∈P.threads.eraseIdx m := List.mem_eraseIdx_iff_getElem?.mpr ⟨n,hnm,ht⟩
        have hrest := others t hmem
        rw [hk] at hrest
        obtain ⟨hs,hrest'⟩ := other_segment (.inr parks) (hrest.2 i (D.rest_arrives i)) shared
        refine .busy m l q ?_ leads parks hs follows fun u hu => ?_
        · exact (List.getElem?_set_ne hnm).trans found
        · obtain ⟨j,hj,hu⟩ := List.mem_eraseIdx_iff_getElem?.mp hu
          by_cases hjn : n=j
          · subst hjn
            rw [List.getElem?_set_self (List.getElem?_eq_some_iff.mp ht).1] at hu
            cases hu
            exact hrest'
          · rw [List.getElem?_set_ne hjn] at hu
            exact others u (List.mem_eraseIdx_iff_getElem?.mpr ⟨j,hj,hu⟩)
  · rw [System.step_resume_idle fun t k ht hk => hmove ⟨t,k,ht,hk⟩]
    exact h

/-- The discipline holds after every run in which leading operations start
alone. -/
theorem Solo.run {P : Pool Call Answer Input Error α σ Op} (h : D.Solo P)
    {events : List (Event Op Input)} (hok : S.Admits D.Alone P events) :
    D.Solo (S.run P events) := by
  refine StepRuns.run_invariant (fun P e hP he => ?_) h hok
  cases e with
  | start op => exact hP.start he
  | resume n i => exact hP.resume he

end Discipline

end Leading

end NadSafe.ScriptProtocol
