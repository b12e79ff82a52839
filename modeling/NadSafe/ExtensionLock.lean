import NadSafe.ExtensionContracts

/-!
# The locked extension holds no secret

`lockVault` clears the session in one write. This module follows every order
in which that write and the writes of other handlers take effect. A handler
that saw the session unlocked writes items or the data-encryption key without
looking again, so the lock is safe exactly beside handlers that have no such
write ahead unless they unlock first.
-/

namespace NadSafe.ExtensionLock

open HostText AsyncScript AsyncScript.Script ScriptPool WireFormat WebCrypto
open WebClient (Json CipherResponse)
open ExtensionWorker ExtensionHandlers ExtensionContracts

variable {platform : Platform} {host : Host}

/-- The entries that a lock has to clear. -/
def secret : SessionField → Bool
  | .items (some _) => true
  | .userKey (some _) => true
  | .accessToken (some _) => true
  | .dek (some _) => true
  | _ => false

/-- No secret is stored. -/
def Clean (s : SessionArea) : Prop :=
  s.items=none ∧ s.userKey=none ∧ s.accessToken=none ∧ s.dek=none

/-- A locked session is clean. -/
def LockedClean (s : WorkerState) : Prop := s.session.locked=some true → Clean s.session

/-- A write without secrets that does not unlock. -/
def Inert (fields : List SessionField) : Prop := ∀ f∈fields,secret f=false ∧ f≠.locked false

/-- Calls that may follow a lock: secrets are written only by a write that
unlocks. -/
def QuietPre : WorkerCall → Prop
  | .sessionSet fields => Inert fields ∨ Opens fields
  | _ => True

/-- Answers in a locked session, as long as nothing unlocks it. -/
def QuietPost : ∀ c,WorkerCall.Answer c → Prop
  | .sessionGet keys,session => .locked∈keys → session.locked=some true
  | .sessionSet fields,_ => ¬Opens fields
  | _,_ => True

/-- A text that leaves a locked session clean: until it unlocks the session
itself it writes no secret, provided that it reads the session as locked. -/
abbrev Quiet (p : Worker Reply) : Prop := p.Obeys QuietPre QuietPost fun _ => True

/-- The write of `lockVault`. -/
def clears (c : WorkerCall) : Prop := c=.sessionSet lockFields

theorem clears.fields {fields : List SessionField} (h : clears (.sessionSet fields)) :
    fields=lockFields := by
  cases h
  rfl

/-- Whether a call locks. -/
def locks (c : WorkerCall) : Prop := ∃ fields,c=.sessionSet fields ∧ .locked true∈fields

/-- The condition: a lock takes effect only beside handlers that leave a
locked session clean. -/
def LockLands (others : List (Thread WorkerCall WorkerCall.Answer Settled Text Reply WorkerOp))
    (c : WorkerCall) (_ : WorkerState) : Prop := locks c → ∀ u∈others,Quiet u.rest

section Writes

variable {s : SessionArea} {fields : List SessionField}

theorem set_cons (f : SessionField) : s.set (f::fields)=(s.put f).set fields := rfl

theorem put_inert {f : SessionField} (hlocked : s.locked=some true) (hclean : Clean s)
    (hf : secret f=false ∧ f≠.locked false) : (s.put f).locked=some true ∧ Clean (s.put f) := by
  obtain ⟨hitems,hkey,htoken,hdek⟩ := hclean
  cases f with
  | locked value =>
    cases value with
    | false => exact absurd rfl hf.2
    | true => exact ⟨rfl,hitems,hkey,htoken,hdek⟩
  | items value =>
    cases value with
    | none => exact ⟨hlocked,rfl,hkey,htoken,hdek⟩
    | some list => cases hf.1
  | userKey value =>
    cases value with
    | none => exact ⟨hlocked,hitems,rfl,htoken,hdek⟩
    | some key => cases hf.1
  | accessToken value =>
    cases value with
    | none => exact ⟨hlocked,hitems,hkey,rfl,hdek⟩
    | some token => cases hf.1
  | dek value =>
    cases value with
    | none => exact ⟨hlocked,hitems,hkey,htoken,rfl⟩
    | some dek => cases hf.1
  | _ => exact ⟨hlocked,hitems,hkey,htoken,hdek⟩

/-- An inert write leaves a clean locked session clean and locked. -/
theorem set_inert (hlocked : s.locked=some true) (hclean : Clean s) (hf : Inert fields) :
    (s.set fields).locked=some true ∧ Clean (s.set fields) := by
  induction fields generalizing s with
  | nil => exact ⟨hlocked,hclean⟩
  | cons f fields ih =>
    obtain ⟨hlocked',hclean'⟩ := put_inert hlocked hclean (hf f List.mem_cons_self)
    exact ih hlocked' hclean' fun g hg => hf g (List.mem_cons_of_mem f hg)

/-- A write that does not lock leaves an unlocked session unlocked. -/
theorem set_unlocked (hopen : s.locked≠some true) (hf : .locked true∉fields) :
    (s.set fields).locked≠some true := by
  induction fields generalizing s with
  | nil => exact hopen
  | cons f fields ih =>
    refine ih ?_ fun hmem => hf (List.mem_cons_of_mem f hmem)
    cases f with
    | locked value =>
      cases value with
      | false => exact fun h => nomatch h
      | true => exact absurd List.mem_cons_self hf
    | _ => exact hopen

/-- A write that unlocks leaves every session unlocked. -/
theorem set_opens (hf : Opens fields) : (s.set fields).locked≠some true := by
  obtain ⟨hmem,hnot⟩ := hf
  induction fields generalizing s with
  | nil => cases hmem
  | cons f fields ih =>
    have htail : .locked true∉fields := fun h => hnot (List.mem_cons_of_mem f h)
    rcases List.mem_cons.mp hmem with hhead | hmem
    · subst hhead
      exact set_unlocked (s:=s.put (.locked false)) (fun h => nomatch h) htail
    · exact ih hmem htail

theorem Inert.not_opens (hf : Inert fields) : ¬Opens fields :=
  fun h => (hf _ h.1).2 rfl

theorem lockFields_inert : Inert lockFields := by
  simp [Inert,lockFields,secret]

end Writes

/-- Every handler leaves a locked session clean. -/
theorem body_quiet (op : WorkerOp) : Quiet (body platform host op) := by
  refine body_obeys ?_ (fun _ _ => ?_) (fun _ _ => ?_) fun _ => .inl lockFields_inert
  · exact {
      random _ := trivial
      send _ := trivial
      get _ := trivial
      opening _ h := .inr h
      items _ _ _ hs hkey hopen := absurd (hs hkey) hopen
      blob _ _ _ _ _ _ _ _ := trivial
      remove := trivial
      removeDek := trivial }
  · exact {
      random _ := trivial
      get _ := trivial
      pin _ _ _ _ _ _ _ := trivial
      dek _ _ _ hs hkey hopen := absurd (hs hkey) hopen }
  · exact {
      read := trivial
      test _ _ _ _ := trivial
      opening _ h := .inr h
      unlocked := trivial
      attempts _ := trivial
      remove := trivial }

/-- Only `LOCK` locks. -/
theorem body_never_locks {op : WorkerOp} (hop : op≠.lock) : (body platform host op).Never locks := by
  have hfree {c : WorkerCall} (hc : ∀ fields,c≠.sessionSet fields) : ¬locks c :=
    fun ⟨fields,he,_⟩ => hc fields he
  have hset {fields : List SessionField} (hf : .locked true∉fields) : ¬locks (.sessionSet fields) := by
    rintro ⟨fields',he,hmem⟩
    cases he
    exact hf hmem
  refine body_obeys ?_ (fun _ _ => ?_) (fun _ _ => ?_) fun h => absurd h hop
  · exact {
      random _ := hfree (by simp)
      send _ := hfree (by simp)
      get _ := hfree (by simp)
      opening _ h := hset h.2
      items _ _ _ _ _ _ := hset (by simp)
      blob _ _ _ _ _ _ _ _ := hfree (by simp)
      remove := hfree (by simp)
      removeDek := hfree (by simp) }
  · exact {
      random _ := hfree (by simp)
      get _ := hfree (by simp)
      pin _ _ _ _ _ _ _ := hfree (by simp)
      dek _ _ _ _ _ _ := hset (by simp) }
  · exact {
      read := hfree (by simp)
      test _ _ _ _ := hfree (by simp)
      opening _ h := hset h.2
      unlocked := hfree (by simp)
      attempts _ := hfree (by simp)
      remove := hfree (by simp) }

/-- The assertion about a handler in flight: only `LOCK` locks, with a write
that clears everything, and beside a locked session every handler is quiet. -/
structure LockRest (op : WorkerOp) (p : Worker Reply) (s : WorkerState) : Prop where
  /-- A lock writes its fields. -/
  lock : op=.lock → Quiet p ∧ p.Obeys clears (fun _ _ => True) fun _ => True
  /-- Nothing else locks. -/
  other : op≠.lock → p.Never locks
  /-- A locked session stays clean. -/
  quiet : s.session.locked=some true → Quiet p

theorem body_lockRest (op : WorkerOp) (s : WorkerState) : LockRest op (body platform host op) s := by
  refine ⟨?_,fun hop => body_never_locks hop,fun _ => body_quiet op⟩
  rintro rfl
  have hclears : clears (.sessionSet lockFields) := rfl
  exact ⟨body_quiet .lock,(storage_obeys hclears).bind fun _ _ => trivial⟩

/-- A call other than `storage.session.set` neither locks nor stores a
secret. -/
theorem exec_session {c : WorkerCall} (hc : ∀ fields,c≠.sessionSet fields) (s : WorkerState) :
    (exec c s).2.session=s.session ∨ (exec c s).2.session={s.session with dek := none} := by
  cases c with
  | sessionSet fields => exact absurd rfl (hc fields)
  | sessionRemoveDek => exact .inr rfl
  | localSet fields =>
    left
    change (s.localSet fields).session=s.session
    unfold WorkerState.localSet
    split <;> rfl
  | _ => exact .inl rfl

/-- What such a call keeps. -/
theorem exec_locked {c : WorkerCall} (hc : ∀ fields,c≠.sessionSet fields) (s : WorkerState) :
    (exec c s).2.session.locked=s.session.locked ∧
      (Clean s.session → Clean (exec c s).2.session) := by
  rcases exec_session hc s with h | h
  · rw [h]
    exact ⟨rfl,id⟩
  · rw [h]
    exact ⟨rfl,fun hclean => ⟨hclean.1,hclean.2.1,hclean.2.2.1,rfl⟩⟩

/-- In a locked session such a call answers as assumed. -/
theorem exec_quietPost {c : WorkerCall} (hc : ∀ fields,c≠.sessionSet fields) {s : WorkerState}
    (hlocked : s.session.locked=some true) : QuietPost c (exec c s).1 := by
  cases c with
  | sessionSet fields => exact absurd rfl (hc fields)
  | sessionGet keys =>
    intro hkey
    change (if .locked∈keys then s.session.locked else none)=some true
    rw [if_pos hkey,hlocked]
  | _ => trivial

/-- The threads beside the one that moves. -/
abbrev Others := List (Thread WorkerCall WorkerCall.Answer Settled Text Reply WorkerOp)

/-- One write to the session keeps a locked session clean. -/
theorem sessionSet_segment {others : Others} {op : WorkerOp} {fields : List SessionField}
    {k : Unit → Worker Reply} {s : WorkerState}
    (h : System.Segment LockedClean LockRest op (.call (.sessionSet fields) k) s others)
    (hok : LockLands others (.sessionSet fields) s) :
    System.Segment LockedClean LockRest op (k ()) (exec (.sessionSet fields) s).2 others := by
  obtain ⟨hshared,⟨hlock,hother,hquiet⟩,hstable⟩ := h
  have hlock' (hop : op=.lock) := (hlock hop).2.2 () trivial
  have hother' (hop : op≠.lock) := (hother hop).2 () trivial
  -- the end of the segment, from what holds there of a session that is locked
  have hend (hafter : (s.session.set fields).locked=some true → Clean (s.session.set fields) ∧
      ¬Opens fields ∧ (Quiet (.call (.sessionSet fields) k)) ∧ ∀ u∈others,Quiet u.rest) :
      System.Segment LockedClean LockRest op (k ()) (exec (.sessionSet fields) s).2 others := by
    refine ⟨fun hl => (hafter hl).1,⟨fun hop => ⟨?_,hlock' hop⟩,hother',fun hl => ?_⟩,fun u hu => ?_⟩
    · subst hop
      have hfields := (hlock rfl).2.1.fields
      subst hfields
      exact (hlock rfl).1.2 () lockFields_inert.not_opens
    · obtain ⟨-,hopens,hq,-⟩ := hafter hl
      exact hq.2 () hopens
    · exact ⟨(hstable u hu).lock,(hstable u hu).other,fun hl => (hafter hl).2.2.2 u hu⟩
  by_cases hlocked : s.session.locked=some true
  · rcases (hquiet hlocked).1 with hinert | hopens
    · have hset := set_inert hlocked (hshared hlocked) hinert
      exact hend fun _ => ⟨hset.2,hinert.not_opens,hquiet hlocked,fun u hu => (hstable u hu).quiet hlocked⟩
    · exact hend fun hl => absurd hl (set_opens hopens)
  · by_cases hlocks : .locked true∈fields
    · have hop : op=.lock := by
        by_contra hop
        exact (hother hop).1 ⟨fields,rfl,hlocks⟩
      have hfields := (hlock hop).2.1.fields
      subst hfields
      exact hend fun _ => ⟨⟨rfl,rfl,rfl,rfl⟩,lockFields_inert.not_opens,(hlock hop).1,hok ⟨_,rfl,hlocks⟩⟩
    · exact hend fun hl => absurd hl (set_unlocked hlocked hlocks)

/-- One call of one handler keeps a locked session clean. -/
theorem call_segment (others : Others) (op : WorkerOp) (c : WorkerCall)
    (k : c.Answer → Worker Reply) (s : WorkerState)
    (h : System.Segment LockedClean LockRest op (.call c k) s others) (hok : LockLands others c s) :
    System.Segment LockedClean LockRest op (k (exec c s).1) (exec c s).2 others := by
  by_cases hc : ∃ fields,c=.sessionSet fields
  · obtain ⟨fields,rfl⟩ := hc
    exact sessionSet_segment h hok
  · have hc' : ∀ fields,c≠.sessionSet fields := fun fields he => hc ⟨fields,he⟩
    obtain ⟨hsame,hclean⟩ := exec_locked hc' s
    obtain ⟨hshared,⟨hlock,hother,hquiet⟩,hstable⟩ := h
    refine ⟨fun hl => hclean (hshared (hsame ▸ hl)),⟨fun hop => ?_,fun hop => ?_,fun hl => ?_⟩,fun u hu => ?_⟩
    · exact absurd (hlock hop).2.1 (hc' _)
    · exact (hother hop).2 _ trivial
    · have hl' : s.session.locked=some true := hsame ▸ hl
      exact (hquiet hl').2 _ (exec_quietPost hc' hl')
    · exact ⟨(hstable u hu).lock,(hstable u hu).other,fun hl => (hstable u hu).quiet (hsame ▸ hl)⟩

theorem LockRest.arrive (op : WorkerOp) (k : Arrival Settled → Worker Reply) (i : Arrival Settled)
    (s : WorkerState) (h : LockRest op (.await k) s) : LockRest op (k i) s :=
  ⟨fun hop => ⟨(h.lock hop).1 i,(h.lock hop).2 i⟩,fun hop => h.other hop i,fun hl => h.quiet hl i⟩

/-- In every run in which each lock takes effect beside quiet handlers only, a
locked session holds no items, user key, access token or data-encryption key
in the state reached. -/
theorem locked_worker_clean (platform : Platform) (host : Host) (locked : Option Bool)
    (device : LocalArea) (entropy : ℕ → UInt8) (events : List WorkerEvent)
    (hok : (worker platform host).Admits ((worker platform host).Landing LockLands)
      ⟨.started locked device entropy,[]⟩ events)
    (s : WorkerState)
    (hs : s=((worker platform host).run ⟨.started locked device entropy,[]⟩ events).shared)
    (hlocked : s.session.locked=some true) :
    s.session.items=none ∧ s.session.userKey=none ∧ s.session.accessToken=none ∧ s.session.dek=none := by
  have hstart : System.Holds LockedClean LockRest
      (⟨.started locked device entropy,[]⟩ : WorkerPool) :=
    ⟨fun _ => ⟨rfl,rfl,rfl,rfl⟩,fun t ht => absurd ht List.not_mem_nil⟩
  have hend := hstart.landing (S:=worker platform host) (fun op s _ => body_lockRest op s)
    LockRest.arrive call_segment hok
  have hclean : LockedClean s := by
    rw [hs]
    exact hend.shared
  exact hclean hlocked

section Samples

/-- A key of 64 equal bytes, as the web app pushes it. -/
def pushedKey : Text := toB64 (List.replicate 64 7)

/-- The same key in halves. -/
def pushedSymKey : SymKey := ⟨List.replicate 32 7,List.replicate 32 7,length_sevens,length_sevens⟩

/-- A note named `n`, encrypted under the pushed key. -/
def sampleCipher : CipherResponse :=
  ⟨"c".toList,none,none,[],2,
    serializeEncString (sealed transparent pushedSymKey (List.replicate 16 0) (utf8 "n".toList)),none,
    false,[],[],none,none,none⟩

/-- An unlock, up to the moment at which its sync has decrypted the item. -/
def syncing : List WorkerEvent :=
  .start (.unlock none none (some pushedKey) (some "t".toList))::fulfil 0 2++
    [arrive 0 (.response 200),arrive 0 (.body (.sync ⟨some [sampleCipher],none,none⟩))]++fulfil 0 4

/-- The lock takes effect before the sync stores its items. -/
def lockDuringSync : List WorkerEvent :=
  syncing++[.start .lock,arrive 1 .fulfilled,arrive 0 .fulfilled]

/-- The locked session holds the decrypted item. -/
theorem locked_worker_holds_item :
    ((worker transparent sampleHost).run installed lockDuringSync).shared.session.locked=some true ∧
      ((worker transparent sampleHost).run installed lockDuringSync).shared.session.items=
        some [⟨"c".toList,.note,"n".toList,none⟩] := by
  decide

/-- The sync stores its items and ends, then the lock takes effect. -/
def lockAfterSync : List WorkerEvent :=
  syncing++fulfil 0 2++[.start .lock,arrive 1 .fulfilled]

/-- A lock is checked to take effect beside settled handlers only. -/
def lockAlone (others : Others) : WorkerCall → WorkerState → Bool
  | .sessionSet fields,_ => !fields.contains (.locked true) || others.all fun u => u.rest.settled
  | _,_ => true

theorem lockLands_of_lockAlone (others : Others) (c : WorkerCall) (s : WorkerState)
    (h : lockAlone others c s=true) : LockLands others c s := by
  rintro ⟨fields,rfl,hlocks⟩ u hu
  have hall : others.all (fun u => u.rest.settled)=true := by
    simpa [lockAlone,hlocks] using h
  exact .of_settled (List.all_eq_true.mp hall u hu)

theorem lockAfterSync_lands :
    (worker transparent sampleHost).lands lockAlone installed lockAfterSync=true := by
  decide

theorem lockAfterSync_locked :
    ((worker transparent sampleHost).run installed lockAfterSync).shared.session.locked=some true := by
  decide

theorem locked_worker_clean_sample :
    ((worker transparent sampleHost).run installed (lockAfterSync.take 10)).shared.session.items≠none ∧
      ((worker transparent sampleHost).run installed lockAfterSync).shared.session.items=none := by
  constructor
  · decide
  · exact (locked_worker_clean transparent sampleHost (some true) ⟨none,none,none⟩ UInt8.ofNat lockAfterSync
      (System.lands_admits lockLands_of_lockAlone lockAfterSync_lands) _ rfl lockAfterSync_locked).1

end Samples

end NadSafe.ExtensionLock
