import NadSafe.HostText
import NadSafe.RecordedRuns

/-!
# The stash of a credential that waits for its page

A page that submits a form stashes the credential, and the next page of the
same tab pops it. One entry of `storage.session` serves all tabs. Its handlers
use no other entry, and no other handler but `LOCK` uses it, so the entry is a
system of its own. The intended meaning is one slot for every tab, which the
record of a run defines; this module compares the two.
-/

namespace NadSafe.PendingSaves

open HostText AsyncScript AsyncScript.Script ScriptPool RecordedRuns

/-- The stashed credential. -/
structure Payload where
  /-- Host name of the page. -/
  hostname : Text
  /-- User name. -/
  username : Text
  /-- Password. -/
  password : Text
  deriving DecidableEq

/-- `pendingSave`. -/
structure Pending where
  /-- The credential. -/
  payload : Payload
  /-- The tab of its sender. -/
  tabId : Option ℕ
  /-- The time of the message. -/
  ts : ℤ
  deriving DecidableEq

/-- `PENDING_SAVE_TTL_MS`. -/
def PENDING_SAVE_TTL_MS : ℤ := 45000

/-- The messages, with the tab of their sender. -/
inductive StashOp where
  /-- `STASH_PENDING_SAVE`, with the time at which it is dispatched. -/
  | stash (payload : Payload) (tab : Option ℕ) (now : ℤ)
  /-- `POP_PENDING_SAVE`. -/
  | pop (tab : Option ℕ)
  /-- `CLEAR_PENDING_SAVE`. -/
  | clear (tab : Option ℕ)
  /-- `LOCK`, or the lock alarm. -/
  | lock

/-- The calls, with the time at which they take effect. -/
inductive StashCall where
  /-- `storage.session.set`. -/
  | set (pending : Option Pending) (now : ℤ)
  /-- `storage.session.get`. -/
  | get (now : ℤ)
  /-- `storage.session.remove`. -/
  | remove (now : ℤ)

/-- The answer type of a call. -/
abbrev StashCall.Answer : StashCall → Type
  | .get _ => Option Pending
  | _ => Unit

/-- Effect and answer of every call. -/
def exec : ∀ c : StashCall,Option Pending → c.Answer×Option Pending
  | .set pending _,_ => ((),pending)
  | .get _,slot => (slot,slot)
  | .remove _,_ => ((),none)

/-- How a storage operation settles: when, and with an error if it fails. -/
structure Settling where
  /-- `Date.now()`. -/
  now : ℤ
  /-- The error of a rejection. -/
  error : Option Text

/-- What a handler answers. -/
inductive StashReply where
  /-- `{ ok: true }`. -/
  | ok
  /-- `{ pending }`. -/
  | pending (value : Option Pending)
  deriving DecidableEq

/-- A handler. -/
abbrev Stash (α : Type) := Script StashCall StashCall.Answer Settling Text α

/-- One call. -/
abbrev invoke (c : StashCall) : Stash c.Answer := Script.perform c

/-- A storage operation settles. -/
def settles : Stash ℤ := do
  let settling ← suspend
  match settling.error with
  | some error => throw error
  | none => pure settling.now

/-- Whether a popped entry is handed out. -/
def fresh (pending : Option Pending) (tab : Option ℕ) (now : ℤ) : Bool :=
  match pending with
  | none => false
  | some p => decide (now-p.ts<PENDING_SAVE_TTL_MS) && p.tabId.isSome && p.tabId==tab

/-- The answer of a pop. -/
def popped (pending : Option Pending) (tab : Option ℕ) (now : ℤ) : Option Pending :=
  if fresh pending tab now=true then pending else none

/-- `POP_PENDING_SAVE` after its read. -/
def popRest (tab : Option ℕ) (pending : Option Pending) : Stash StashReply := do
  let now ← settles
  invoke (.remove now)
  pure (.pending (popped pending tab now))

/-- The text of every handler. -/
def body : StashOp → Stash StashReply
  | .stash payload tab ts => do
    let now ← settles
    invoke (.set (some ⟨payload,tab,ts⟩) now)
    pure .ok
  | .pop tab => do
    let now ← settles
    let pending ← invoke (.get now)
    popRest tab pending
  | .clear _ => do
    let now ← settles
    invoke (.remove now)
    pure .ok
  | .lock => do
    let now ← settles
    invoke (.set none now)
    pure .ok

/-- The entry with its handlers. -/
def stashSystem : System StashCall StashCall.Answer Settling Text StashReply (Option Pending) StashOp :=
  ⟨exec,body⟩

/-- An event. -/
abbrev StashEvent := Event StashOp Settling

/-- What a call does to the entry. -/
inductive Effect where
  /-- A credential is stashed. -/
  | stashed (pending : Pending)
  /-- A pop of this tab reads the entry. -/
  | took (tab : Option ℕ) (found : Option Pending)
  /-- A pop of this tab removes the entry. -/
  | dropped (tab : Option ℕ)
  /-- This tab removes the entry. -/
  | cleared (tab : Option ℕ)
  /-- A lock empties the entry. -/
  | locked
  deriving DecidableEq

/-- An effect and its time. -/
structure StashMark where
  /-- When it takes place. -/
  now : ℤ
  /-- The effect. -/
  effect : Effect
  deriving DecidableEq

/-- The mark of a call. -/
def markOf : StashOp → ∀ c : StashCall,c.Answer → Option StashMark
  | .pop tab,.get now,found => some ⟨now,.took tab found⟩
  | .pop tab,.remove now,_ => some ⟨now,.dropped tab⟩
  | .clear tab,.remove now,_ => some ⟨now,.cleared tab⟩
  | _,.set (some pending) now,_ => some ⟨now,.stashed pending⟩
  | _,.set none now,_ => some ⟨now,.locked⟩
  | _,_,_ => none

/-- A record. -/
abbrev StashLog := List (Entry StashMark)

section Meaning

/-- One effect on the slot of a tab: others' effects do not concern it, and a
pop takes the slot when it reads. -/
def ownEffect (tab : Option ℕ) (slot : Option Pending) : Effect → Option Pending
  | .stashed pending => if pending.tabId=tab then some pending else slot
  | .took owner _ => if owner=tab then none else slot
  | .dropped _ => slot
  | .cleared owner => if owner=tab then none else slot
  | .locked => none

/-- The same for an entry of the record. -/
def ownEntry (tab : Option ℕ) (slot : Option Pending) : Entry StashMark → Option Pending
  | .marked _ mark => ownEffect tab slot mark.effect
  | _ => slot

/-- The slot of a tab, if every tab had its own. -/
def ownSlot (tab : Option ℕ) (log : StashLog) : Option Pending := log.foldl (ownEntry tab) none

/-- Whether an entry stashes a credential. -/
def isStash : Entry StashMark → Bool
  | .marked _ ⟨_,.stashed _⟩ => true
  | _ => false

/-- The operation of an entry, if it is the read of a pop. -/
def takerOf : Entry StashMark → Option ℕ
  | .marked n ⟨_,.took _ _⟩ => some n
  | _ => none

/-- The operation of an entry, if it is the removal of a pop. -/
def dropperOf : Entry StashMark → Option ℕ
  | .marked n ⟨_,.dropped _⟩ => some n
  | _ => none

/-- The time of an entry. -/
def timeOf : Entry StashMark → Option ℤ
  | .marked _ mark => some mark.now
  | _ => none

/-- Which stash, counted from the first, a pop found. -/
def ordinal (log : StashLog) (n : ℕ) : ℕ :=
  (log.takeWhile fun e => takerOf e≠some n).countP isStash

/-- What a finished pop of a tab has to answer, with the record before its
read and the time of its answer. -/
def PopLaw (log : StashLog) (n : ℕ) (tab : Option ℕ) (reply : Option Pending) : Prop :=
  ∃ before later start now found,log=before++Entry.marked n ⟨start,.took tab found⟩::later ∧
    .marked n ⟨now,.dropped tab⟩∈later ∧
    (∀ p,reply=some p → (∃ j t,.marked j ⟨t,.stashed p⟩∈before) ∧ p.tabId=tab ∧ tab≠none ∧
      now-p.ts<PENDING_SAVE_TTL_MS) ∧
    ∀ p,tab≠none → ownSlot tab before=some p → now-p.ts<PENDING_SAVE_TTL_MS → reply=some p

/-- A stashed credential is handed out at most once, to its own tab and in
time, and the tab's next pop in time returns it. -/
structure StashKept (W : Recorded StashCall StashCall.Answer Settling Text StashReply (Option Pending)
    StashOp StashMark) : Prop where
  /-- Every pop answers as the tab's own slot demands. -/
  law : ∀ n tab reply,W.pool.threads[n]?=some ⟨.pop tab,.done (.pending reply)⟩ →
    PopLaw W.log n tab reply
  /-- No stash is handed out twice. -/
  once : ∀ m n tab tab' p q,W.pool.threads[m]?=some ⟨.pop tab,.done (.pending (some p))⟩ →
    W.pool.threads[n]?=some ⟨.pop tab',.done (.pending (some q))⟩ →
      ordinal W.log m=ordinal W.log n → m=n

end Meaning

section Condition

/-- The tab of the sender. -/
def tabOf : StashOp → Option ℕ
  | .stash _ tab _ => tab
  | .pop tab => tab
  | .clear tab => tab
  | .lock => none

/-- The entry is empty, or of this tab, or of no tab, or its time is over. -/
def free (slot : Option Pending) (tab : Option ℕ) (now : ℤ) : Bool :=
  match slot with
  | none => true
  | some p => p.tabId.isNone || p.tabId==tab || decide (PENDING_SAVE_TTL_MS≤now-p.ts)

/-- No pop is between its read and its removal. -/
def noneReading (log : StashLog) : Bool :=
  (log.filterMap takerOf).all fun n => (log.filterMap dropperOf).contains n

/-- The clock has not gone back. -/
def onTime (log : StashLog) (now : ℤ) : Bool := (log.filterMap timeOf).all fun t => decide (t≤now)

/-- The condition: a tab overwrites or removes only what `free` allows, no
stash or read takes effect while a pop is between its read and its removal,
and the clock does not go back. -/
def exclusive : Discipline StashCall StashCall.Answer Settling Text StashReply (Option Pending) StashOp
    StashMark where
  call _ op c slot log :=
    match c with
    | .set (some p) now => free slot p.tabId now && noneReading log && onTime log now
    | .set none now => onTime log now
    | .get now => noneReading log && onTime log now
    | .remove now => free slot (tabOf op) now && onTime log now
  finish _ _ _ _ := true

end Condition

section Record

variable {log : StashLog} {n : ℕ}

/-- The operation of an entry, if it is the read of a pop that found
something. -/
def finderOf : Entry StashMark → Option ℕ
  | .marked n ⟨_,.took _ (some _)⟩ => some n
  | _ => none

theorem takerOf_of_finderOf {e : Entry StashMark} (h : finderOf e=some n) : takerOf e=some n := by
  unfold finderOf at h
  split at h
  · exact h
  · cases h

theorem mem_takers_of_finders (h : n∈log.filterMap finderOf) : n∈log.filterMap takerOf := by
  obtain ⟨e,he,hn⟩ := List.mem_filterMap.mp h
  exact List.mem_filterMap.mpr ⟨e,he,takerOf_of_finderOf hn⟩

/-- What a pop found does not change. -/
theorem ordinal_append (h : n∈log.filterMap takerOf) (later : StashLog) :
    ordinal (log++later) n=ordinal log n := by
  obtain ⟨e,he,hn⟩ := List.mem_filterMap.mp h
  have hshort : ¬(log.takeWhile fun e => takerOf e≠some n).length=log.length := by
    intro hlength
    have hall := (List.takeWhile_prefix fun e => takerOf e≠some n).eq_of_length hlength
    have hmem : e∈log.takeWhile fun e => takerOf e≠some n := by rwa [hall]
    have hother := List.mem_takeWhile_imp hmem
    exact absurd hn (of_decide_eq_true hother)
  rw [ordinal,List.takeWhile_append,if_neg hshort]
  rfl

/-- A pop finds the latest stash. -/
theorem ordinal_new (h : n∉log.filterMap takerOf) {e : Entry StashMark} (he : takerOf e=some n) :
    ordinal (log++[e]) n=log.countP isStash := by
  have hall : ∀ e∈log,(decide (takerOf e≠some n))=true := by
    intro e' he'
    refine decide_eq_true fun hn => h ?_
    exact List.mem_filterMap.mpr ⟨e',he',hn⟩
  rw [ordinal,List.takeWhile_append_of_pos hall]
  simp [he]

theorem ordinal_le (log : StashLog) (n : ℕ) : ordinal log n≤log.countP isStash :=
  (List.takeWhile_sublist _).countP_le

theorem ownSlot_append (tab : Option ℕ) (log : StashLog) (e : Entry StashMark) :
    ownSlot tab (log++[e])=ownEntry tab (ownSlot tab log) e := by
  simp [ownSlot]

/-- The time of a credential is over. -/
def Expired (log : StashLog) (p : Pending) : Prop :=
  ∃ t∈log.filterMap timeOf,PENDING_SAVE_TTL_MS≤t-p.ts

theorem Expired.append {p : Pending} (h : Expired log p) (later : StashLog) : Expired (log++later) p := by
  obtain ⟨t,ht,hover⟩ := h
  refine ⟨t,?_,hover⟩
  rw [List.filterMap_append]
  exact List.mem_append_left _ ht

/-- What is not free for a tab belongs to another one and is in time. -/
theorem expired_of_free {slot : Option Pending} {tab : Option ℕ} {now : ℤ} {p : Pending} {t m : ℕ}
    {effect : Effect} (hfree : free slot tab now=true) (hslot : slot=some p) (hp : p.tabId=some t)
    (htab : tab≠some t) : Expired (log++[Entry.marked m ⟨now,effect⟩]) p := by
  subst hslot
  have hover : PENDING_SAVE_TTL_MS≤now-p.ts := by
    simpa [free,hp,Ne.symm htab] using hfree
  exact ⟨now,by simp [timeOf],hover⟩

end Record

section Invariant

/-- The entry and the slots of the tabs. -/
structure SlotInv (slot : Option Pending) (log : StashLog) : Prop where
  /-- What a tab expects is in the entry or too old. -/
  own : ∀ t p,ownSlot (some t) log=some p → p.tabId=some t ∧ (slot=some p ∨ Expired log p)
  /-- The entry was stashed. -/
  stashed : ∀ p,slot=some p → ∃ j t,.marked j ⟨t,.stashed p⟩∈log
  /-- A tab expects nothing while it pops. -/
  reading : ∀ n t tab found,.marked n ⟨t,.took tab found⟩∈log → n∉log.filterMap dropperOf →
    ownSlot tab log=none
  /-- No two pops found the same stash. -/
  once : ∀ m n,m∈log.filterMap finderOf → n∈log.filterMap finderOf → ordinal log m=ordinal log n → m=n
  /-- What a finished pop found is not in the entry any more. -/
  spent : slot≠none → ∀ n,n∈log.filterMap finderOf → n∈log.filterMap dropperOf →
    ordinal log n<log.countP isStash

variable {slot : Option Pending} {log : StashLog}

theorem SlotInv.start : SlotInv none [] where
  own _ _ h := nomatch h
  stashed _ h := nomatch h
  reading _ _ _ _ h := absurd h List.not_mem_nil
  once _ _ h := absurd h List.not_mem_nil
  spent h := absurd rfl h

/-- No pop is between its read and its removal. -/
theorem dropped_of_noneReading (h : noneReading log=true) {n : ℕ} (hn : n∈log.filterMap takerOf) :
    n∈log.filterMap dropperOf := by
  have hall := List.all_eq_true.mp h n hn
  exact List.contains_iff_mem.mp hall

/-- Two pops of an unchanged list of reads. -/
theorem SlotInv.once_append (h : SlotInv slot log) {e : Entry StashMark} (he : finderOf e=none) :
    ∀ m n,m∈(log++[e]).filterMap finderOf → n∈(log++[e]).filterMap finderOf →
      ordinal (log++[e]) m=ordinal (log++[e]) n → m=n := by
  intro m n hm hn hsame
  rw [List.filterMap_append,List.filterMap_cons_none he,List.filterMap_nil,List.append_nil] at hm hn
  rw [ordinal_append (mem_takers_of_finders hm),ordinal_append (mem_takers_of_finders hn)] at hsame
  exact h.once m n hm hn hsame

/-- A start or a result. -/
theorem SlotInv.unmarked (h : SlotInv slot log) {e : Entry StashMark} (he : ∀ k mark,e≠.marked k mark) :
    SlotInv slot (log++[e]) := by
  have hslot (tab : Option ℕ) : ownSlot tab (log++[e])=ownSlot tab log := by
    rw [ownSlot_append]
    cases e with
    | marked n mark => exact absurd rfl (he n mark)
    | _ => rfl
  have hfinder : finderOf e=none := by
    cases e with
    | marked n mark => exact absurd rfl (he n mark)
    | _ => rfl
  have hdroppers : (log++[e]).filterMap dropperOf=log.filterMap dropperOf := by
    cases e with
    | marked n mark => exact absurd rfl (he n mark)
    | _ => simp [dropperOf]
  have hcount : (log++[e]).countP isStash=log.countP isStash := by
    cases e with
    | marked n mark => exact absurd rfl (he n mark)
    | _ => simp [isStash]
  refine ⟨fun t p hp => ?_,fun p hp => ?_,fun n t tab found hmem hn => ?_,h.once_append hfinder,?_⟩
  · rw [hslot] at hp
    exact (h.own t p hp).imp id fun hkept => hkept.imp id fun hover => hover.append _
  · obtain ⟨j,t,hmem⟩ := h.stashed p hp
    exact ⟨j,t,List.mem_append_left _ hmem⟩
  · rw [hdroppers] at hn
    rcases List.mem_append.mp hmem with hmem|hmem
    · rw [hslot]
      exact h.reading n t tab found hmem hn
    · exact absurd (List.mem_singleton.mp hmem).symm (he _ _)
  · intro hne n hn hdropped
    rw [List.filterMap_append,List.filterMap_cons_none hfinder,List.filterMap_nil,List.append_nil] at hn
    rw [hdroppers] at hdropped
    rw [ordinal_append (mem_takers_of_finders hn),hcount]
    exact h.spent hne n hn hdropped

/-- A stash over an entry that is free for it. -/
theorem SlotInv.stash (h : SlotInv slot log) {n : ℕ} {q : Pending} {now : ℤ}
    (hfree : free slot q.tabId now=true) (hnone : noneReading log=true) :
    SlotInv (some q) (log++[Entry.marked n ⟨now,.stashed q⟩]) where
  own t p hp := by
    rw [ownSlot_append] at hp
    dsimp only [ownEntry,ownEffect] at hp
    split at hp
    · rename_i htab
      cases hp
      exact ⟨htab,.inl rfl⟩
    · rename_i htab
      obtain ⟨htabId,hkept⟩ := h.own t p hp
      refine ⟨htabId,.inr ?_⟩
      rcases hkept with hslot|hover
      · exact expired_of_free hfree hslot htabId htab
      · exact hover.append _
  stashed p hp := by
    cases hp
    exact ⟨n,now,by simp⟩
  reading m t tab found hmem hm := by
    have htaken : m∈log.filterMap takerOf := by
      rcases List.mem_append.mp hmem with hmem|hmem
      · exact List.mem_filterMap.mpr ⟨_,hmem,rfl⟩
      · simp at hmem
    have hdropped := dropped_of_noneReading hnone htaken
    refine absurd ?_ hm
    rw [List.filterMap_append]
    exact List.mem_append_left _ hdropped
  once := h.once_append rfl
  spent _ m hm _ := by
    have hfound : m∈log.filterMap finderOf := by simpa [finderOf] using hm
    rw [ordinal_append (mem_takers_of_finders hfound),List.countP_append]
    have hle := ordinal_le log m
    have hone : List.countP isStash [.marked n ⟨now,.stashed q⟩]=1 := rfl
    omega

/-- The read of a pop beside no other. -/
theorem SlotInv.take (h : SlotInv slot log) {n : ℕ} {tab : Option ℕ} {now : ℤ}
    (hnone : noneReading log=true) (htaker : n∉log.filterMap takerOf)
    (hdropper : n∉log.filterMap dropperOf) :
    SlotInv slot (log++[Entry.marked n ⟨now,.took tab slot⟩]) := by
  have hdroppers : (log++[Entry.marked n (StashMark.mk now (.took tab slot))]).filterMap dropperOf=
      log.filterMap dropperOf := by simp [dropperOf]
  have hcount : (log++[Entry.marked n (StashMark.mk now (.took tab slot))]).countP isStash=log.countP isStash := by
    simp [isStash]
  have hnew : ordinal (log++[Entry.marked n ⟨now,.took tab slot⟩]) n=log.countP isStash :=
    ordinal_new htaker rfl
  have hfinders (m : ℕ) (hm : m∈(log++[Entry.marked n (StashMark.mk now (.took tab slot))]).filterMap finderOf) :
      m∈log.filterMap finderOf ∨ m=n ∧ slot≠none := by
    rw [List.filterMap_append] at hm
    rcases List.mem_append.mp hm with hm|hm
    · exact .inl hm
    · right
      cases slot with
      | none => simp [finderOf] at hm
      | some p => exact ⟨by simpa [finderOf] using hm,by simp⟩
  have hearlier (m : ℕ) (hm : m∈log.filterMap finderOf) (hne : slot≠none) :
      ordinal (log++[Entry.marked n ⟨now,.took tab slot⟩]) m<log.countP isStash := by
    rw [ordinal_append (mem_takers_of_finders hm)]
    exact h.spent hne m hm (dropped_of_noneReading hnone (mem_takers_of_finders hm))
  refine ⟨fun t p hp => ?_,fun p hp => ?_,fun m t tab' found hmem hm => ?_,fun m m' hm hm' hsame => ?_,?_⟩
  · rw [ownSlot_append] at hp
    dsimp only [ownEntry,ownEffect] at hp
    split at hp
    · cases hp
    · exact (h.own t p hp).imp id fun hkept => hkept.imp id fun hover => hover.append _
  · obtain ⟨j,t,hmem⟩ := h.stashed p hp
    exact ⟨j,t,List.mem_append_left _ hmem⟩
  · rw [hdroppers] at hm
    rcases List.mem_append.mp hmem with hmem|hmem
    · exact absurd (dropped_of_noneReading hnone (List.mem_filterMap.mpr ⟨_,hmem,rfl⟩)) hm
    · cases List.mem_singleton.mp hmem
      rw [ownSlot_append]
      exact if_pos rfl
  · rcases hfinders m hm with hfound|⟨hnew₁,hne⟩ <;> rcases hfinders m' hm' with hfound'|⟨hnew₂,hne⟩
    · rw [ordinal_append (mem_takers_of_finders hfound),
        ordinal_append (mem_takers_of_finders hfound')] at hsame
      exact h.once m m' hfound hfound' hsame
    · have hlt := hearlier m hfound hne
      rw [hnew₂] at hsame
      omega
    · have hlt := hearlier m' hfound' hne
      rw [hnew₁] at hsame
      omega
    · rw [hnew₁,hnew₂]
  · intro hne m hm hdropped
    rw [hdroppers] at hdropped
    rw [hcount]
    rcases hfinders m hm with hm|⟨rfl,-⟩
    · exact hearlier m hm hne
    · exact absurd hdropped hdropper

/-- The entry is emptied and nothing is read. -/
theorem SlotInv.empty (h : SlotInv slot log) {e : Entry StashMark} (htaker : takerOf e=none)
    (hown : ∀ t p,ownSlot (some t) (log++[e])=some p →
      p.tabId=some t ∧ Expired (log++[e]) p)
    (hsame : ∀ tab,ownSlot tab (log++[e])=none ∨ ownSlot tab (log++[e])=ownSlot tab log) :
    SlotInv none (log++[e]) := by
  have hfinder : finderOf e=none := by
    cases hfinder : finderOf e with
    | none => rfl
    | some n =>
      rw [takerOf_of_finderOf hfinder] at htaker
      cases htaker
  refine ⟨fun t p hp => (hown t p hp).imp id .inr,fun p hp => (nomatch hp),
    fun m t tab found hmem hm => ?_,h.once_append hfinder,fun hne => absurd rfl hne⟩
  rcases List.mem_append.mp hmem with hmem|hmem
  · have hlog : m∉log.filterMap dropperOf := by
      rw [List.filterMap_append,List.mem_append,not_or] at hm
      exact hm.1
    rcases hsame tab with hnone|hsame
    · exact hnone
    · rw [hsame]
      exact h.reading m t tab found hmem hlog
  · cases List.mem_singleton.mp hmem
    cases htaker

/-- The removal of a pop that found the entry free. -/
theorem SlotInv.drop (h : SlotInv slot log) {n : ℕ} {tab : Option ℕ} {now t : ℤ}
    {found : Option Pending} (hfree : free slot tab now=true)
    (htook : .marked n ⟨t,.took tab found⟩∈log) (hdropper : n∉log.filterMap dropperOf) :
    SlotInv none (log++[Entry.marked n ⟨now,.dropped tab⟩]) := by
  have hslot (owner : Option ℕ) : ownSlot owner (log++[Entry.marked n ⟨now,.dropped tab⟩])=
      ownSlot owner log := by
    rw [ownSlot_append]
    rfl
  refine h.empty rfl (fun t p hp => ?_) fun owner => .inr (hslot owner)
  rw [hslot] at hp
  obtain ⟨htabId,hkept⟩ := h.own t p hp
  refine ⟨htabId,hkept.elim (fun heq => ?_) fun hover => hover.append _⟩
  refine expired_of_free hfree heq htabId fun htab => ?_
  have hnone := h.reading n _ tab found htook hdropper
  rw [htab,hp] at hnone
  cases hnone

/-- A clear that found the entry free. -/
theorem SlotInv.clear (h : SlotInv slot log) {n : ℕ} {tab : Option ℕ} {now : ℤ}
    (hfree : free slot tab now=true) : SlotInv none (log++[Entry.marked n ⟨now,.cleared tab⟩]) := by
  refine h.empty rfl (fun t p hp => ?_) fun owner => ?_
  · rw [ownSlot_append] at hp
    dsimp only [ownEntry,ownEffect] at hp
    split at hp
    · cases hp
    · rename_i htab
      obtain ⟨htabId,hkept⟩ := h.own t p hp
      refine ⟨htabId,hkept.elim (fun heq => ?_) fun hover => hover.append _⟩
      exact expired_of_free hfree heq htabId htab
  · rw [ownSlot_append]
    dsimp only [ownEntry,ownEffect]
    split
    · exact .inl rfl
    · exact .inr rfl

/-- A lock. -/
theorem SlotInv.lock (h : SlotInv slot log) {n : ℕ} {now : ℤ} :
    SlotInv none (log++[Entry.marked n ⟨now,.locked⟩]) := by
  have hslot (owner : Option ℕ) : ownSlot owner (log++[Entry.marked n ⟨now,.locked⟩])=none := by
    rw [ownSlot_append]
    rfl
  refine h.empty rfl (fun t p hp => ?_) fun owner => .inl (hslot owner)
  rw [hslot] at hp
  cases hp

end Invariant

section Handlers

variable {log : StashLog} {n : ℕ} {tab : Option ℕ}

/-- A pop that has not read yet. -/
def Waits (log : StashLog) (n : ℕ) : Prop := n∉log.filterMap takerOf ∧ n∉log.filterMap dropperOf

/-- A pop that has read and not removed yet. -/
def Took (log : StashLog) (n : ℕ) (tab : Option ℕ) (found : Option Pending) : Prop :=
  n∉log.filterMap dropperOf ∧ ∃ before later start,log=before++Entry.marked n ⟨start,.took tab found⟩::later ∧
    (∀ p,found=some p → ∃ j t,.marked j ⟨t,.stashed p⟩∈before) ∧
    ∀ p,tab≠none → ownSlot tab before=some p → p.tabId=tab ∧ (found=some p ∨ Expired before p)

/-- A pop that has answered. -/
def Answered (log : StashLog) (n : ℕ) (tab : Option ℕ) (reply : Option Pending) : Prop :=
  PopLaw log n tab reply ∧ (reply≠none → n∈log.filterMap finderOf)

/-- The text of a pop up to its read. -/
def PopText (tab : Option ℕ) (p : Stash StashReply) : Prop :=
  p=body (.pop tab) ∨ (∃ now,p=.call (.get now) (popRest tab)) ∨ ∃ error,p=.fail error

/-- The text of a pop up to its removal. -/
def PopRestText (tab : Option ℕ) (found : Option Pending) (p : Stash StashReply) : Prop :=
  p=popRest tab found ∨
    (∃ now,p=.call (.remove now) fun _ => .done (.pending (popped found tab now))) ∨ ∃ error,p=.fail error

/-- Where a pop stands. -/
def PopAt (log : StashLog) (n : ℕ) (tab : Option ℕ) (p : Stash StashReply) : Prop :=
  (Waits log n ∧ PopText tab p) ∨ (∃ found,Took log n tab found ∧ PopRestText tab found p) ∨
    ∃ reply,p=.done (.pending reply) ∧ Answered log n tab reply

/-- The call of a handler other than a pop. -/
def OwnCall : StashOp → StashCall → Prop
  | .stash payload tab ts,c => ∃ now,c=.set (some ⟨payload,tab,ts⟩) now
  | .pop _,_ => False
  | .clear _,c => ∃ now,c=.remove now
  | .lock,c => ∃ now,c=.set none now

/-- The assertion about a handler. -/
def Standing (n : ℕ) (op : StashOp) (p : Stash StashReply) (_ : Option Pending) (log : StashLog) : Prop :=
  match op with
  | .pop tab => PopAt log n tab p
  | op => p.Obeys (OwnCall op) (fun _ _ => True) fun _ => True

/-- Entries of other operations leave a pop where it is. -/
theorem PopAt.append {p : Stash StashReply} (h : PopAt log n tab p) {e : Entry StashMark}
    (htaker : takerOf e≠some n) (hdropper : dropperOf e≠some n) : PopAt (log++[e]) n tab p := by
  have hkeep {f : Entry StashMark → Option ℕ} (hn : n∉log.filterMap f) (hf : f e≠some n) :
      n∉(log++[e]).filterMap f := by
    rw [List.filterMap_append,List.mem_append,not_or]
    refine ⟨hn,fun hmem => ?_⟩
    obtain ⟨e',he',hf'⟩ := List.mem_filterMap.mp hmem
    rw [List.mem_singleton.mp he'] at hf'
    exact hf hf'
  obtain ⟨hwaits,htext⟩|⟨found,⟨hnot,before,later,start,rfl,hstashed,hown⟩,htext⟩|⟨reply,rfl,hlaw,hfound⟩ := h
  · exact .inl ⟨⟨hkeep hwaits.1 htaker,hkeep hwaits.2 hdropper⟩,htext⟩
  · refine .inr (.inl ⟨found,⟨hkeep hnot hdropper,before,later++[e],start,?_,hstashed,hown⟩,htext⟩)
    rw [List.append_assoc,List.cons_append]
  · obtain ⟨before,later,start,now,found,rfl,hmem,hsafe,hnext⟩ := hlaw
    refine .inr (.inr ⟨reply,rfl,⟨before,later++[e],start,now,found,?_,?_,hsafe,hnext⟩,fun hne => ?_⟩)
    · rw [List.append_assoc,List.cons_append]
    · exact List.mem_append_left _ hmem
    · rw [List.filterMap_append]
      exact List.mem_append_left _ (hfound hne)

theorem Standing.append {op : StashOp} {p : Stash StashReply} {slot slot' : Option Pending}
    (h : Standing n op p slot log) {e : Entry StashMark} (htaker : takerOf e≠some n)
    (hdropper : dropperOf e≠some n) : Standing n op p slot' (log++[e]) := by
  cases op with
  | pop tab => exact PopAt.append h htaker hdropper
  | _ => exact h

theorem body_obeys {op : StashOp} (h : ∀ tab,op≠.pop tab) :
    (body op).Obeys (OwnCall op) (fun _ _ => True) fun _ => True := by
  have hsettles : settles.Obeys (OwnCall op) (fun _ _ => True) fun _ => True := by
    refine suspend_obeys.bind fun settling _ => ?_
    split <;> trivial
  cases op with
  | pop tab => exact absurd rfl (h tab)
  | _ => exact hsettles.bind fun now _ => ⟨⟨now,rfl⟩,fun _ _ => trivial⟩

/-- A storage operation is rejected or continues at its time. -/
theorem settles_arrive {f : ℤ → Stash StashReply} {k : Arrival Settling → Stash StashReply}
    (h : .await k=settles.bind f) (i : Arrival Settling) :
    (∃ error,k i=.fail error) ∨ k i=f i.value.now := by
  cases h
  cases herror : i.value.error with
  | some error =>
    left
    refine ⟨error,?_⟩
    simp only [Script.bind,herror,throw_eq]
  | none =>
    right
    simp only [Script.bind,herror,pure_eq]

/-- An arrival at a pop. -/
theorem PopAt.arrive {k : Arrival Settling → Stash StashReply} (h : PopAt log n tab (.await k))
    (i : Arrival Settling) : PopAt log n tab (k i) := by
  obtain ⟨hwaits,hbody|⟨now,hcall⟩|⟨error,hfail⟩⟩|⟨found,htook,hrest|⟨now,hcall⟩|⟨error,hfail⟩⟩|⟨_,hdone,-⟩ := h
  · exact .inl ⟨hwaits,.inr ((settles_arrive hbody i).symm.imp (fun hget => ⟨i.value.now,hget⟩) id)⟩
  · cases hcall
  · cases hfail
  · refine .inr (.inl ⟨found,htook,.inr ?_⟩)
    exact (settles_arrive hrest i).symm.imp (fun hremove => ⟨i.value.now,hremove⟩) id
  · cases hcall
  · cases hfail
  · cases hdone

end Handlers

section Runs

variable {others : ℕ → StashOp → Stash StashReply → Prop} {n : ℕ} {slot : Option Pending} {log : StashLog}

theorem popped_eq {found : Option Pending} {tab : Option ℕ} {now : ℤ} {p : Pending}
    (h : popped found tab now=some p) :
    found=some p ∧ p.tabId=tab ∧ tab≠none ∧ now-p.ts<PENDING_SAVE_TTL_MS := by
  unfold popped at h
  split at h
  · rename_i hfresh
    subst h
    simp only [fresh,Bool.and_eq_true,decide_eq_true_eq,beq_iff_eq] at hfresh
    refine ⟨rfl,hfresh.2,fun hnone => ?_,hfresh.1.1⟩
    rw [hfresh.2,hnone] at hfresh
    cases hfresh.1.2
  · cases h

theorem popped_fresh {tab : Option ℕ} {now : ℤ} {p : Pending} (htab : p.tabId=tab) (hne : tab≠none)
    (hnow : now-p.ts<PENDING_SAVE_TTL_MS) : popped (some p) tab now=some p := by
  have hsome : tab.isSome=true := Option.isSome_iff_ne_none.mpr hne
  have hfresh : fresh (some p) tab now=true := by simp [fresh,htab,hsome,hnow]
  exact if_pos hfresh

/-- The read of a pop. -/
theorem moves_take {tab : Option ℕ} {now : ℤ} {k : Option Pending → Stash StashReply}
    (h : Moves SlotInv Standing Standing others n (.pop tab) (.call (.get now) k) slot log)
    (hnone : noneReading log=true) :
    Moves SlotInv Standing Standing others n (.pop tab) (k slot) slot
      (log++[Entry.marked n ⟨now,.took tab slot⟩]) := by
  obtain ⟨hwaits,hbody|⟨_,hcall⟩|⟨_,hfail⟩⟩|⟨_,-,hrest|⟨_,hcall⟩|⟨_,hfail⟩⟩|⟨_,hdone,-⟩ := h.moved
  · cases hbody
  · cases hcall
    refine ⟨h.shared.take hnone hwaits.1 hwaits.2,.inr (.inl ⟨slot,⟨?_,log,[],now,rfl,?_,?_⟩,.inl rfl⟩),?_⟩
    · simpa [dropperOf] using hwaits.2
    · exact h.shared.stashed
    · intro p hne hown
      obtain ⟨t,rfl⟩ := Option.ne_none_iff_exists'.mp hne
      exact h.shared.own t p hown
    · intro m op' q hmn hq
      refine (h.stable m op' q hmn hq).append (fun htaker => ?_) (by simp [dropperOf])
      exact hmn (Option.some.inj htaker).symm
  · cases hfail
  · cases hrest
  · cases hcall
  · cases hfail
  · cases hdone

/-- The removal of a pop answers as the tab's own slot demands. -/
theorem Took.answers {tab : Option ℕ} {found : Option Pending} {now : ℤ} (h : Took log n tab found)
    (htime : onTime log now=true) :
    Answered (log++[Entry.marked n ⟨now,.dropped tab⟩]) n tab (popped found tab now) := by
  obtain ⟨-,before,later,start,rfl,hstashed,hown⟩ := h
  refine ⟨⟨before,later++[Entry.marked n ⟨now,.dropped tab⟩],start,now,found,?_,?_,?_,?_⟩,fun hne => ?_⟩
  · rw [List.append_assoc,List.cons_append]
  · simp
  · intro p hp
    obtain ⟨hfound,htab,hne,hnow⟩ := popped_eq hp
    exact ⟨hstashed p hfound,htab,hne,hnow⟩
  · intro p hne hslot hnow
    obtain ⟨htab,hfound|⟨t,ht,hover⟩⟩ := hown p hne hslot
    · rw [hfound]
      exact popped_fresh htab hne hnow
    · have hle : t≤now := by
        have hmem : t∈(before++Entry.marked n ⟨start,.took tab found⟩::later).filterMap timeOf := by
          rw [List.filterMap_append]
          exact List.mem_append_left _ ht
        exact of_decide_eq_true (List.all_eq_true.mp htime t hmem)
      omega
  · obtain ⟨p,hp⟩ := Option.ne_none_iff_exists'.mp hne
    obtain ⟨rfl,-⟩ := popped_eq hp
    simp [finderOf]

/-- The removal of a pop. -/
theorem moves_drop {tab : Option ℕ} {now : ℤ} {k : Unit → Stash StashReply}
    (h : Moves SlotInv Standing Standing others n (.pop tab) (.call (.remove now) k) slot log)
    (hfree : free slot tab now=true) (htime : onTime log now=true) :
    Moves SlotInv Standing Standing others n (.pop tab) (k ()) none
      (log++[Entry.marked n ⟨now,.dropped tab⟩]) := by
  obtain ⟨-,hbody|⟨_,hcall⟩|⟨_,hfail⟩⟩|⟨found,htook,hrest|⟨_,hcall⟩|⟨_,hfail⟩⟩|⟨_,hdone,-⟩ := h.moved
  · cases hbody
  · cases hcall
  · cases hfail
  · cases hrest
  · cases hcall
    have htaken : ∃ start,.marked n ⟨start,.took tab found⟩∈log := by
      obtain ⟨-,before,later,start,rfl,-⟩ := htook
      exact ⟨start,by simp⟩
    obtain ⟨start,hmem⟩ := htaken
    refine ⟨h.shared.drop hfree hmem htook.1,.inr (.inr ⟨_,rfl,htook.answers htime⟩),?_⟩
    intro m op' q hmn hq
    refine (h.stable m op' q hmn hq).append (by simp [takerOf]) fun hdropper => ?_
    exact hmn (Option.some.inj hdropper).symm
  · cases hfail
  · cases hdone

/-- The call of another handler, which is no read and no removal of a pop. -/
theorem moves_other {op : StashOp} (hop : ∀ tab,op≠.pop tab) {c : StashCall}
    {k : c.Answer → Stash StashReply}
    (h : Moves SlotInv Standing Standing others n op (.call c k) slot log) {slot' : Option Pending}
    {mark : StashMark} (hI : SlotInv slot' (log++[Entry.marked n mark]))
    (htaker : takerOf (.marked n mark)=none) (hdropper : dropperOf (.marked n mark)=none) (r : c.Answer) :
    Moves SlotInv Standing Standing others n op (k r) slot' (log++[Entry.marked n mark]) := by
  refine ⟨hI,?_,fun m op' q hmn hq => ?_⟩
  · cases op with
    | pop tab => exact absurd rfl (hop tab)
    | _ => exact h.moved.2 r trivial
  · exact (h.stable m op' q hmn hq).append (by simp [htaker]) (by simp [hdropper])

/-- Every call of an exclusive run. -/
theorem moves_call {op : StashOp} {c : StashCall} {k : c.Answer → Stash StashReply}
    (h : Moves SlotInv Standing Standing others n op (.call c k) slot log)
    (hD : exclusive.call n op c slot log=true) :
    Moves SlotInv Standing Standing others n op (k (exec c slot).1) (exec c slot).2
      (log++entryOf markOf n op c (exec c slot).1) := by
  cases op with
  | pop tab =>
    obtain ⟨-,hbody|⟨now,hcall⟩|⟨_,hfail⟩⟩|⟨found,-,hrest|⟨now,hcall⟩|⟨_,hfail⟩⟩|⟨_,hdone,-⟩ := h.moved
    · cases hbody
    · cases hcall
      simp only [exclusive,Bool.and_eq_true] at hD
      exact moves_take h hD.1
    · cases hfail
    · cases hrest
    · cases hcall
      simp only [exclusive,Bool.and_eq_true] at hD
      exact moves_drop h hD.1 hD.2
    · cases hfail
    · cases hdone
  | stash payload tab ts =>
    obtain ⟨now,rfl⟩ := h.moved.1
    simp only [exclusive,Bool.and_eq_true] at hD
    exact moves_other (by simp) h (h.shared.stash hD.1.1 hD.1.2) rfl rfl ()
  | clear tab =>
    obtain ⟨now,rfl⟩ := h.moved.1
    simp only [exclusive,Bool.and_eq_true] at hD
    exact moves_other (by simp) h (h.shared.clear hD.1) rfl rfl ()
  | lock =>
    obtain ⟨now,rfl⟩ := h.moved.1
    exact moves_other (by simp) h h.shared.lock rfl rfl ()

/-- A new operation has no entry yet. -/
theorem waits_start (hindex : ∀ e∈log,e.index<n) : Waits (log++[Entry.started n]) n := by
  have hfresh {f : Entry StashMark → Option ℕ} (hf : ∀ e m,f e=some m → e.index=m)
      (hstart : f (.started n)=none) : n∉(log++[Entry.started n]).filterMap f := by
    rw [List.filterMap_append,List.filterMap_cons_none hstart,List.filterMap_nil,List.append_nil]
    intro hmem
    obtain ⟨e,he,hn⟩ := List.mem_filterMap.mp hmem
    have hlt := hindex e he
    have heq := hf e n hn
    omega
  refine ⟨hfresh (fun e m hm => ?_) rfl,hfresh (fun e m hm => ?_) rfl⟩
  · unfold takerOf at hm
    split at hm
    · exact Option.some.inj hm
    · cases hm
  · unfold dropperOf at hm
    split at hm
    · exact Option.some.inj hm
    · cases hm

/-- Every exclusive step keeps the entry in line with the slots of the tabs. -/
theorem preserved : Preserved stashSystem markOf exclusive SlotInv Standing Standing where
  shared _ _ _ he h := h.unmarked he
  stable m op p s log e he h := by
    cases e with
    | marked k mark => exact absurd rfl (he k mark)
    | _ => exact h.append (by simp [takerOf]) (by simp [dropperOf])
  start n op s log _ hindex := by
    cases op with
    | pop tab => exact .inl ⟨waits_start hindex,.inl rfl⟩
    | _ => exact body_obeys (by simp)
  arrive n op k i s log h := by
    cases op with
    | pop tab => exact PopAt.arrive h i
    | _ => exact h i
  call _ _ _ _ _ _ _ h hD := moves_call h hD
  park _ _ _ _ _ h := h
  finish n op p s log h _ _ := h.append (by simp [takerOf]) (by simp [dropperOf])

/-- In every run in which the tabs do not disturb each other, a stashed
credential is handed out at most once, to its own tab and in time, and the
tab's next pop in time returns it. -/
theorem exclusive_stash_kept (events : List StashEvent)
    (h : keepsAll stashSystem markOf exclusive ⟨⟨none,[]⟩,[]⟩ events=true) :
    StashKept (record stashSystem markOf none events) := by
  have hend := preserved.record SlotInv.start h
  have hanswered (n : ℕ) (tab : Option ℕ) (reply : Option Pending)
      (ht : (record stashSystem markOf none events).pool.threads[n]?=
        some ⟨.pop tab,.done (.pending reply)⟩) :
      Answered (record stashSystem markOf none events).log n tab reply := by
    have hpop : PopAt (record stashSystem markOf none events).log n tab (.done (.pending reply)) :=
      hend.threads n _ ht
    obtain ⟨-,hbody|⟨_,hcall⟩|⟨_,hfail⟩⟩|⟨_,-,hrest|⟨_,hcall⟩|⟨_,hfail⟩⟩|⟨_,hdone,hlaw⟩ := hpop
    · cases hbody
    · cases hcall
    · cases hfail
    · cases hrest
    · cases hcall
    · cases hfail
    · cases hdone
      exact hlaw
  refine ⟨fun n tab reply ht => (hanswered n tab reply ht).1,fun m n tab tab' p q hm hn hsame => ?_⟩
  exact hend.shared.once m n ((hanswered m tab _ hm).2 (by simp)) ((hanswered n tab' _ hn).2 (by simp)) hsame

end Runs

section Samples

/-- A storage operation of a handler settles at this time. -/
def settleAt (n : ℕ) (now : ℤ) : StashEvent := .resume n ⟨[],⟨now,none⟩⟩

/-- A message whose storage operations settle before the next one arrives. -/
def handled (n : ℕ) (op : StashOp) (times : List ℤ) : List StashEvent :=
  .start op::times.map (settleAt n)

/-- A submitted credential. -/
def samplePayload : Payload := ⟨"shop.example".toList,"ann".toList,"secret".toList⟩

/-- Tab 1 stashes, tab 2 loads a page, and tab 1 pops a second later. -/
def otherTabLoads : List StashEvent :=
  handled 0 (.stash samplePayload (some 1) 0) [1]++handled 1 (.pop (some 2)) [500,501]++
    handled 2 (.pop (some 1)) [1000,1001]

/-- The record of that run. -/
def otherTabLog : StashLog := (record stashSystem markOf none otherTabLoads).log

/-- A page load in another tab loses the stashed credential. -/
theorem stash_lost_by_other_tab : ¬∀ events : List StashEvent,
    StashKept (record stashSystem markOf none events) := by
  intro hall
  obtain ⟨before,later,start,now,found,hlog,hmem,-,hnext⟩ := (hall otherTabLoads).law 2 (some 1) none rfl
  have hread : ∀ i<otherTabLog.length,(otherTabLog[i]?.bind takerOf)=some 2 → i=8 := by decide
  have hanswer : ∀ e∈otherTabLog,dropperOf e=some 2 → timeOf e=some 1001 := by decide
  have hlength : before.length=8 := by
    have hat : otherTabLog[before.length]?=some (.marked 2 ⟨start,.took (some 1) found⟩) := by
      rw [otherTabLog,hlog]
      simp
    have hlt : before.length<otherTabLog.length := (List.getElem?_eq_some_iff.mp hat).1
    refine hread before.length hlt ?_
    rw [hat]
    rfl
  have hbefore : before=otherTabLog.take 8 := by
    rw [otherTabLog,hlog,←hlength,List.take_left]
  have hnow : now=1001 := by
    have hlater : .marked 2 ⟨now,.dropped (some 1)⟩∈otherTabLog := by
      rw [otherTabLog,hlog]
      exact List.mem_append_right _ (List.mem_cons_of_mem _ hmem)
    exact Option.some.inj (hanswer _ hlater rfl)
  have hslot : ownSlot (some 1) before=some ⟨samplePayload,some 1,0⟩ := by
    rw [hbefore]
    decide
  have hreply := hnext _ (by simp) hslot (by rw [hnow]; decide)
  cases hreply

/-- Tab 1 stashes and pops on its next page, then tab 2 loads a page. -/
def ownTabLoads : List StashEvent :=
  handled 0 (.stash samplePayload (some 1) 0) [1]++handled 1 (.pop (some 1)) [1000,1001]++
    handled 2 (.pop (some 2)) [2000,2001]

theorem exclusive_stash_kept_sample :
    keepsAll stashSystem markOf exclusive ⟨⟨none,[]⟩,[]⟩ ownTabLoads=true ∧
      StashKept (record stashSystem markOf none ownTabLoads) :=
  ⟨by decide,exclusive_stash_kept ownTabLoads (by decide)⟩

end Samples

end NadSafe.PendingSaves
