import NadSafe.ExtensionContracts
import NadSafe.RecordedRuns

/-!
# Updates of the extension's item list

A save appends its new item to the list that it read at its start and writes
the whole list back; a sync or a push replaces the list. The record of a run
keeps the reads of saves and every write of the list, so that it can be said
which writes came between a read and the write based on it.
-/

namespace NadSafe.ItemUpdates

open HostText AsyncScript AsyncScript.Script ScriptPool RecordedRuns WireFormat WebCrypto
open WebClient (Json CipherResponse)
open ExtensionWorker ExtensionHandlers ExtensionContracts

variable {platform : Platform} {host : Host}

/-- What the record keeps of the calls of a handler. -/
inductive ItemMark where
  /-- A save reads the item list. -/
  | read
  /-- A save writes the item list. -/
  | saved (items : List Item)
  /-- Any other handler writes the item list. -/
  | replaced (items : List Item)
  deriving DecidableEq

/-- The item list among written entries; the last one counts. -/
def itemsOf : List SessionField → Option (Option (List Item))
  | [] => none
  | .items items::fields => some ((itemsOf fields).getD items)
  | _::fields => itemsOf fields

/-- Whether an operation is a `SAVE_CREDENTIAL`. -/
def isSave : WorkerOp → Bool
  | .saveCredential _ _ _ => true
  | _ => false

/-- The mark of a call. -/
def callMark (op : WorkerOp) : WorkerCall → Option ItemMark
  | .sessionGet keys => if isSave op=true ∧ .items∈keys then some .read else none
  | .sessionSet fields => (itemsOf fields).map fun items =>
    if isSave op=true then .saved (items.getD []) else .replaced (items.getD [])
  | _ => none

/-- The mark of a call, whatever its answer. -/
def markOf (op : WorkerOp) (c : WorkerCall) (_ : c.Answer) : Option ItemMark := callMark op c

/-- A record of the worker. -/
abbrev ItemLog := List (Entry ItemMark)

/-- The list that an entry writes. -/
def written : Entry ItemMark → Option (List Item)
  | .marked _ (.saved items) => some items
  | .marked _ (.replaced items) => some items
  | _ => none

/-- No write of the list has taken effect since this save read it. -/
def quietSinceRead (log : ItemLog) (n : ℕ) : Bool :=
  (log.reverse.takeWhile (· ≠ .marked n .read)).all fun e => (written e).isNone

/-- The operation `r` was started after `n` had replied. -/
def startedAfter (log : ItemLog) (n r : ℕ) : Bool :=
  decide (.settled n∈log.takeWhile (· ≠ .started r))

/-- The operation of an entry, if it is the write of a save. -/
def savedBy : Entry ItemMark → Option ℕ
  | .marked n (.saved _) => some n
  | _ => none

/-- The new item of an entry, if it is the write of this save. -/
def newItem (n : ℕ) : Entry ItemMark → Option Item
  | .marked m (.saved items) => if m=n then items.getLast? else none
  | _ => none

/-- The list of an entry, if it replaces the stored one. -/
def replacement : Entry ItemMark → Option (List Item)
  | .marked _ (.replaced items) => some items
  | _ => none

/-- The condition: a save writes only if no other write came since its read;
any other handler writes only if every save that has written had replied
before that handler was started; a save that reports success has written. -/
def undisturbed : Discipline WorkerCall WorkerCall.Answer Settled Text Reply WorkerState WorkerOp
    ItemMark where
  call n op c _ log :=
    match callMark op c with
    | some (.saved _) => quietSinceRead log n
    | some (.replaced _) => (log.filterMap savedBy).all fun m => startedAfter log m n
    | _ => true
  finish n op p log :=
    match p with
    | .done reply => !(isSave op && reply.ok) || !(log.filterMap (newItem n)).isEmpty
    | _ => true

/-- The identifiers in the stored list. -/
def storedIds (s : WorkerState) : List Text := (s.session.items.getD []).map Item.id

/-- The stored list has, for every save that reported success, its item unless
a handler that was started after the reply wrote a list without it; and it
extends the list of the last sync or push. -/
structure ItemsKept (W : Recorded WorkerCall WorkerCall.Answer Settled Text Reply WorkerState WorkerOp
    ItemMark) : Prop where
  /-- No saved item is lost. -/
  saved : ∀ n op reply,W.pool.threads[n]?=some ⟨op,.done reply⟩ → isSave op=true → reply.ok=true →
    ∃ item∈W.log.filterMap (newItem n),item.id∈storedIds W.pool.shared ∨
      ∃ r items,.marked r (.replaced items)∈W.log ∧ startedAfter W.log n r=true ∧
        item.id∉ items.map Item.id
  /-- No older list is stored. -/
  current : ∀ items,(W.log.filterMap replacement).getLast?=some items →
    items <+: W.pool.shared.session.items.getD []

section State

theorem set_items (s : SessionArea) (fields : List SessionField) :
    (s.set fields).items=(itemsOf fields).getD s.items := by
  induction fields generalizing s with
  | nil => rfl
  | cons f fields ih =>
    have hset : s.set (f::fields)=(s.put f).set fields := rfl
    rw [hset,ih]
    cases f <;> rfl

/-- A call without a mark leaves the list. -/
theorem exec_items {op : WorkerOp} {c : WorkerCall}
    (h : ∀ items,callMark op c≠some (.saved items) ∧ callMark op c≠some (.replaced items)) (s : WorkerState) :
    (ExtensionWorker.exec c s).2.session.items=s.session.items := by
  cases c with
  | sessionSet fields =>
    have hnone : itemsOf fields=none := by
      cases hitems : itemsOf fields with
      | none => rfl
      | some items =>
        have hmark : callMark op (.sessionSet fields)=some (if isSave op=true then
            .saved (items.getD []) else .replaced (items.getD [])) := by
          rw [callMark,hitems]
          rfl
        split at hmark
        · exact absurd hmark (h _).1
        · exact absurd hmark (h _).2
    exact (set_items s.session fields).trans (by rw [hnone]; rfl)
  | localSet fields =>
    unfold ExtensionWorker.exec WorkerState.localSet
    dsimp only
    split <;> rfl
  | _ => rfl

/-- A marked write stores its list. -/
theorem exec_written {op : WorkerOp} {c : WorkerCall} {items : List Item}
    (h : callMark op c=some (.saved items) ∨ callMark op c=some (.replaced items)) (s : WorkerState) :
    (ExtensionWorker.exec c s).2.session.items.getD []=items := by
  cases c with
  | sessionSet fields =>
    have hset : (ExtensionWorker.exec (.sessionSet fields) s).2.session.items=
        (itemsOf fields).getD s.session.items := set_items s.session fields
    rw [hset]
    cases hitems : itemsOf fields with
    | none => simp [callMark,hitems] at h
    | some list =>
      rw [callMark,hitems] at h
      dsimp only [Option.map_some] at h
      split at h
      · simpa using h
      · simpa using h
  | sessionGet keys =>
    dsimp only [callMark] at h
    split at h <;> simp at h
  | _ => simp [callMark] at h

end State

section Record

variable {log : ItemLog} {e : Entry ItemMark} {n : ℕ}

theorem quietSinceRead_read (log : ItemLog) (n : ℕ) :
    quietSinceRead (log++[Entry.marked n ItemMark.read]) n=true := by
  simp [quietSinceRead]

/-- An entry that writes no list leaves a read as it was. -/
theorem quietSinceRead_append (he : written e=none) (h : quietSinceRead (log++[e]) n=true)
    (hread : e≠.marked n .read) : quietSinceRead log n=true := by
  simpa [quietSinceRead,List.takeWhile_cons,hread,he] using h

/-- After a write, every earlier read is disturbed. -/
theorem quietSinceRead_written {items : List Item} (he : written e=some items) :
    quietSinceRead (log++[e]) n=false := by
  have hread : e≠.marked n .read := by
    rintro rfl
    cases he
  simp [quietSinceRead,hread,he]

theorem startedAfter_append {r : ℕ} (h : startedAfter log n r=true) (later : ItemLog) :
    startedAfter (log++later) n r=true := by
  have hmem : .settled n∈log.takeWhile (· ≠ .started r) := of_decide_eq_true h
  refine decide_eq_true ?_
  rw [List.takeWhile_append]
  split
  · exact List.mem_append_left _ ((List.takeWhile_prefix _).subset hmem)
  · exact hmem

/-- The new item of a save is the last one of the list it writes. -/
theorem newItem_eq {item : Item} (h : newItem n e=some item) :
    ∃ items,e=.marked n (.saved items) ∧ items.getLast?=some item := by
  unfold newItem at h
  split at h
  · rename_i m items
    split at h
    · rename_i hm
      subst hm
      exact ⟨items,rfl,h⟩
    · cases h
  · cases h

end Record

section Text

/-- The list that a session write stores. -/
def writes : WorkerCall → Option (Option (List Item))
  | .sessionSet fields => itemsOf fields
  | _ => none

/-- What a save knows of the item list after a call. -/
def learn (known : Option (Option (List Item))) : ∀ c : WorkerCall,c.Answer → Option (Option (List Item))
  | .sessionGet keys,session => if .items∈keys then some session.items else known
  | _,_ => known

/-- A text that only writes the list it knows with one more item. -/
def Appends (known : Option (Option (List Item))) : Worker Reply → Prop
  | .done _ => True
  | .fail _ => True
  | .call c k => (∀ value,writes c=some value → ∃ list item,known=some list ∧
      value=some (list.getD []++[item])) ∧ ∀ r,Appends (learn known c r) (k r)
  | .await k => ∀ i,Appends known (k i)

/-- Calls of a save that has read this list. -/
def AfterRead (list : Option (List Item)) (c : WorkerCall) : Prop :=
  (∀ value,writes c=some value → ∃ item,value=some (list.getD []++[item])) ∧
    ∀ keys,c=.sessionGet keys → .items∉keys

theorem learn_of_afterRead {list : Option (List Item)} {c : WorkerCall} (h : AfterRead list c)
    (r : c.Answer) : learn (some list) c r=some list := by
  cases c with
  | sessionGet keys => exact if_neg (h.2 keys rfl)
  | _ => rfl

theorem Appends.of_obeys {list : Option (List Item)} {p : Worker Reply}
    (h : p.Obeys (AfterRead list) (fun _ _ => True) fun _ => True) : Appends (some list) p := by
  induction p with
  | done a => trivial
  | fail e => trivial
  | call c k ih =>
    refine ⟨fun value hvalue => ?_,fun r => ?_⟩
    · obtain ⟨item,hitem⟩ := h.1.1 value hvalue
      exact ⟨list,item,rfl,hitem⟩
    · rw [learn_of_afterRead h.1]
      exact ih r (h.2 r trivial)
  | await k ih => exact fun i => ih i (h i)

theorem afterRead_save (session : SessionArea) :
    PermitsSave platform (AfterRead session.items) (fun _ _ => True) session where
  random _ := ⟨fun _ h => (nomatch h),fun _ h => nomatch h⟩
  get := by
    refine ⟨fun _ h => (nomatch h),?_⟩
    rintro keys ⟨⟩
    simp
  blob _ _ _ _ _ _ _ _ := ⟨fun _ h => (nomatch h),fun _ h => nomatch h⟩
  send _ := ⟨fun _ h => (nomatch h),fun _ h => nomatch h⟩
  append item := by
    refine ⟨?_,fun _ h => nomatch h⟩
    rintro value ⟨⟩
    exact ⟨item,rfl⟩

/-- A save appends to what it reads. -/
theorem save_appends (hostname username password : Text) :
    Appends none (body platform host (.saveCredential hostname username password)) := by
  obtain ⟨rest,heq,hrest⟩ := handleSaveCredential_reads platform host hostname username password
  have hbody : body platform host (.saveCredential hostname username password)=
      answered (handleSaveCredential platform host hostname username password) := rfl
  rw [hbody,heq]
  intro i
  dsimp only [answered,storage,bind_eq,tryCatch_eq,Script.bind,Script.rescue]
  split
  · trivial
  · refine ⟨fun _ h => (nomatch h),fun session => ?_⟩
    have hlearn : learn none (.sessionGet [.locked,.userKey,.accessToken,.serverUrl,.items,.webappTabId,
        .webappOrigin]) session=some session.items := by simp [learn]
    rw [hlearn]
    refine Appends.of_obeys (Obeys.rescue ?_ fun _ => trivial)
    exact hrest _ _ session fun _ => afterRead_save session

end Text

section Runs

/-- A save in flight: it has not read the list, or appends to the list it read,
which is still the stored one as long as nothing was written. -/
def SaveAhead (n : ℕ) (p : Worker Reply) (s : WorkerState) (log : ItemLog) : Prop :=
  Appends none p ∨ ∃ list,Appends (some list) p ∧ (quietSinceRead log n=true → s.session.items=list)

/-- The assertion about a handler inside a segment. -/
def Moving (n : ℕ) (op : WorkerOp) (p : Worker Reply) (s : WorkerState) (log : ItemLog) : Prop :=
  isSave op=true → SaveAhead n p s log

/-- The assertion about a handler between segments. -/
def Resting (n : ℕ) (op : WorkerOp) (p : Worker Reply) (s : WorkerState) (log : ItemLog) : Prop :=
  isSave op=true → SaveAhead n p s log ∧
    ∀ reply,p=.done reply → reply.ok=true → log.filterMap (newItem n)≠[]

/-- A handler that was started after `n` had replied wrote a list without
this item. -/
def RemovedLater (log : ItemLog) (n : ℕ) (id : Text) : Prop :=
  ∃ r items,.marked r (.replaced items)∈log ∧ startedAfter log n r=true ∧ id∉ items.map Item.id

/-- The invariant of the stored list and the record. -/
structure ListInv (s : WorkerState) (log : ItemLog) : Prop where
  /-- Every saved item is stored or was removed later. -/
  saved : ∀ n items,.marked n (.saved items)∈log → ∃ item,items.getLast?=some item ∧
    (item.id∈storedIds s ∨ RemovedLater log n item.id)
  /-- The stored list extends the last replacement. -/
  current : ∀ items,(log.filterMap replacement).getLast?=some items →
    items <+: s.session.items.getD []

theorem RemovedLater.append {log : ItemLog} {n : ℕ} {id : Text} (h : RemovedLater log n id)
    (later : ItemLog) : RemovedLater (log++later) n id := by
  obtain ⟨r,items,hmem,hafter,hid⟩ := h
  exact ⟨r,items,List.mem_append_left _ hmem,startedAfter_append hafter later,hid⟩

/-- An entry that writes no list keeps the invariant of an unchanged list. -/
theorem ListInv.append {s s' : WorkerState} {log : ItemLog} (h : ListInv s log) {e : Entry ItemMark}
    (he : written e=none) (hs : s'.session.items=s.session.items) : ListInv s' (log++[e]) where
  saved n items hmem := by
    rcases List.mem_append.mp hmem with hmem|hmem
    · obtain ⟨item,hlast,hkept⟩ := h.saved n items hmem
      refine ⟨item,hlast,hkept.imp (fun hid => ?_) fun hremoved => hremoved.append _⟩
      rw [storedIds,hs]
      exact hid
    · rw [List.mem_singleton] at hmem
      subst hmem
      cases he
  current items hlast := by
    have hnone : replacement e=none := by
      cases e with
      | marked n mark =>
        cases mark with
        | replaced list => cases he
        | _ => rfl
      | _ => rfl
    rw [List.filterMap_append,List.filterMap_cons_none hnone,List.filterMap_nil,List.append_nil] at hlast
    rw [hs]
    exact h.current items hlast

/-- A save that extends the stored list keeps the invariant. -/
theorem ListInv.save {s s' : WorkerState} {log : ItemLog} (h : ListInv s log) {n : ℕ} {item : Item}
    (hs : s'.session.items.getD []=s.session.items.getD []++[item]) :
    ListInv s' (log++[Entry.marked n (ItemMark.saved (s.session.items.getD []++[item]))]) where
  saved m items hmem := by
    have hids : storedIds s'=storedIds s++[item.id] := by simp [storedIds,hs]
    rcases List.mem_append.mp hmem with hmem|hmem
    · obtain ⟨old,hlast,hkept⟩ := h.saved m items hmem
      refine ⟨old,hlast,hkept.imp (fun hid => ?_) fun hremoved => hremoved.append _⟩
      rw [hids]
      exact List.mem_append_left _ hid
    · rw [List.mem_singleton] at hmem
      cases hmem
      refine ⟨item,List.getLast?_concat,.inl ?_⟩
      rw [hids]
      exact List.mem_append_right _ (List.mem_singleton_self _)
  current items hlast := by
    rw [List.filterMap_append] at hlast
    have hprefix := h.current items (by simpa [replacement] using hlast)
    rw [hs]
    exact hprefix.trans (List.prefix_append _ _)

/-- A replacement beside saves that had replied before it was started keeps
the invariant. -/
theorem ListInv.replace {s s' : WorkerState} {log : ItemLog} (h : ListInv s log) {r : ℕ}
    {items : List Item} (hs : s'.session.items.getD []=items)
    (hafter : ∀ n,n∈log.filterMap savedBy → startedAfter log n r=true) :
    ListInv s' (log++[Entry.marked r (ItemMark.replaced items)]) where
  saved m list hmem := by
    rcases List.mem_append.mp hmem with hmem|hmem
    · obtain ⟨item,hlast,-⟩ := h.saved m list hmem
      refine ⟨item,hlast,?_⟩
      have hm := startedAfter_append (hafter m (List.mem_filterMap.mpr ⟨_,hmem,rfl⟩))
        [.marked r (.replaced items)]
      by_cases hid : item.id∈items.map Item.id
      · left
        rw [storedIds,hs]
        exact hid
      · exact .inr ⟨r,items,by simp,hm,hid⟩
    · simp at hmem
  current list hlast := by
    rw [List.filterMap_append] at hlast
    have hsame : items=list := by simpa [replacement] using hlast
    rw [hs,hsame]

/-- What a save knows of the list stays right beside entries of others. -/
theorem quiet_append {s s' : WorkerState} {log : ItemLog} {m : ℕ} {list : Option (List Item)}
    (h : quietSinceRead log m=true → s.session.items=list) {e : Entry ItemMark}
    (hread : e≠.marked m .read) (hs : written e=none → s'.session.items=s.session.items) :
    quietSinceRead (log++[e]) m=true → s'.session.items=list := by
  intro hquiet
  cases hwritten : written e with
  | none => exact (hs hwritten).trans (h (quietSinceRead_append hwritten hquiet hread))
  | some items =>
    rw [quietSinceRead_written hwritten] at hquiet
    cases hquiet

theorem Resting.append {s s' : WorkerState} {log : ItemLog} {m : ℕ} {op : WorkerOp} {p : Worker Reply}
    (h : Resting m op p s log) {e : Entry ItemMark} (hread : e≠.marked m .read)
    (hs : written e=none → s'.session.items=s.session.items) : Resting m op p s' (log++[e]) := by
  intro hsave
  obtain ⟨hahead,hfinished⟩ := h hsave
  refine ⟨hahead.imp id fun ⟨list,happends,hquiet⟩ => ⟨list,happends,quiet_append hquiet hread hs⟩,?_⟩
  intro reply hp hok
  have hsome := hfinished reply hp hok
  simp [List.filterMap_append,hsome]

/-- Nothing depends on more than the list. -/
theorem ListInv.congr {s s' : WorkerState} {log : ItemLog} (h : ListInv s log)
    (hs : s'.session.items=s.session.items) : ListInv s' log where
  saved := by
    unfold storedIds
    rw [hs]
    exact h.saved
  current := by
    rw [hs]
    exact h.current

theorem Resting.congr {s s' : WorkerState} {log : ItemLog} {m : ℕ} {op : WorkerOp} {p : Worker Reply}
    (h : Resting m op p s log) (hs : s'.session.items=s.session.items) : Resting m op p s' log := by
  unfold Resting SaveAhead
  rw [hs]
  exact h

/-- The kinds of calls, as the record sees them. -/
theorem callMark_cases (op : WorkerOp) (c : WorkerCall) :
    (callMark op c=none ∧ (isSave op=true → writes c=none ∧ ∀ known r,learn known c r=known)) ∨
    (isSave op=true ∧ callMark op c=some .read ∧ ∃ keys,c=.sessionGet keys ∧ .items∈keys) ∨
    (isSave op=true ∧ ∃ value,writes c=some value ∧ callMark op c=some (.saved (value.getD [])) ∧
      ∀ known r,learn known c r=known) ∨
    (isSave op=false ∧ ∃ items,callMark op c=some (.replaced items)) := by
  cases c with
  | sessionGet keys =>
    by_cases hread : isSave op=true ∧ .items∈keys
    · exact .inr (.inl ⟨hread.1,if_pos hread,keys,rfl,hread.2⟩)
    · refine .inl ⟨if_neg hread,fun hsave => ⟨rfl,fun known r => if_neg fun hmem => hread ⟨hsave,hmem⟩⟩⟩
  | sessionSet fields =>
    cases hitems : itemsOf fields with
    | none => exact .inl ⟨by simp [callMark,hitems],fun _ => ⟨hitems,fun _ _ => rfl⟩⟩
    | some value =>
      cases hsave : isSave op with
      | true =>
        exact .inr (.inr (.inl ⟨rfl,value,hitems,by simp [callMark,hitems,hsave],fun _ _ => rfl⟩))
      | false => exact .inr (.inr (.inr ⟨rfl,value.getD [],by simp [callMark,hitems,hsave]⟩))
  | _ => exact .inl ⟨rfl,fun _ => ⟨rfl,fun _ _ => rfl⟩⟩

variable {others : ℕ → WorkerOp → Worker Reply → Prop} {n : ℕ} {op : WorkerOp} {c : WorkerCall}
  {k : c.Answer → Worker Reply} {s : WorkerState} {log : ItemLog}

/-- A call without a mark. -/
theorem moves_unmarked (h : Moves ListInv Moving Resting others n op (.call c k) s log)
    (hmark : callMark op c=none)
    (hsave : isSave op=true → writes c=none ∧ ∀ known r,learn known c r=known) :
    Moves ListInv Moving Resting others n op (k (ExtensionWorker.exec c s).1)
      (ExtensionWorker.exec c s).2 log := by
  have hitems : (ExtensionWorker.exec c s).2.session.items=s.session.items :=
    @exec_items op c (by simp [hmark]) s
  refine ⟨h.shared.congr hitems,fun hop => ?_,fun m op' q hne hq => (h.stable m op' q hne hq).congr hitems⟩
  obtain ⟨-,hlearn⟩ := hsave hop
  obtain happends|⟨list,happends,hquiet⟩ := h.moved hop
  · left
    have hnext := happends.2 (ExtensionWorker.exec c s).1
    rw [hlearn] at hnext
    exact hnext
  · right
    have hnext := happends.2 (ExtensionWorker.exec c s).1
    rw [hlearn] at hnext
    exact ⟨list,hnext,fun hq => hitems.trans (hquiet hq)⟩

/-- The read of a save. -/
theorem moves_read {keys : List SessionKey} {k : SessionArea → Worker Reply}
    (h : Moves ListInv Moving Resting others n op (.call (.sessionGet keys) k) s log)
    (hkeys : .items∈keys) :
    Moves ListInv Moving Resting others n op (k (s.session.pick keys)) s (log++[Entry.marked n ItemMark.read]) := by
  refine ⟨h.shared.append rfl rfl,fun hop => .inr ⟨s.session.items,?_,fun _ => rfl⟩,?_⟩
  · have hlearn (known : Option (Option (List Item))) :
        learn known (.sessionGet keys) (s.session.pick keys)=some s.session.items := by
      simp [learn,SessionArea.pick,hkeys]
    obtain happends|⟨list,happends,-⟩ := h.moved hop
    · have hnext := happends.2 (s.session.pick keys)
      rw [hlearn] at hnext
      exact hnext
    · have hnext := happends.2 (s.session.pick keys)
      rw [hlearn] at hnext
      exact hnext
  · intro m op' q hne hq
    refine (h.stable m op' q hne hq).append (fun heq => ?_) fun _ => rfl
    cases heq
    exact hne rfl

/-- The write of an undisturbed save. -/
theorem moves_saved (h : Moves ListInv Moving Resting others n op (.call c k) s log)
    (hop : isSave op=true) {value : Option (List Item)} (hvalue : writes c=some value)
    (hmark : callMark op c=some (.saved (value.getD []))) (hlearn : ∀ known r,learn known c r=known)
    (hquiet : quietSinceRead log n=true) :
    Moves ListInv Moving Resting others n op (k (ExtensionWorker.exec c s).1)
      (ExtensionWorker.exec c s).2 (log++[Entry.marked n (ItemMark.saved (value.getD []))]) := by
  have hstored : (ExtensionWorker.exec c s).2.session.items.getD []=value.getD [] :=
    exec_written (.inl hmark) s
  obtain happends|⟨list,happends,hlist⟩ := h.moved hop
  · obtain ⟨list,item,hnone,-⟩ := happends.1 value hvalue
    cases hnone
  · obtain ⟨list',item,hlist',rfl⟩ := happends.1 value hvalue
    cases hlist'
    have hsame := hlist hquiet
    have hfull : (some (list.getD []++[item])).getD []=s.session.items.getD []++[item] := by
      rw [hsame]
      rfl
    rw [hfull] at hstored ⊢
    refine ⟨h.shared.save hstored,fun _ => .inr ⟨list,?_,?_⟩,fun m op' q hne hq => ?_⟩
    · have hnext := happends.2 (ExtensionWorker.exec c s).1
      rw [hlearn] at hnext
      exact hnext
    · exact quiet_append hlist (by simp) fun hw => nomatch hw
    · exact (h.stable m op' q hne hq).append (by simp) fun hw => nomatch hw

/-- A replacement beside saves that had replied before it was started. -/
theorem moves_replaced (h : Moves ListInv Moving Resting others n op (.call c k) s log)
    (hop : isSave op=false) {items : List Item} (hmark : callMark op c=some (.replaced items))
    (hafter : ∀ m,m∈log.filterMap savedBy → startedAfter log m n=true) :
    Moves ListInv Moving Resting others n op (k (ExtensionWorker.exec c s).1)
      (ExtensionWorker.exec c s).2 (log++[Entry.marked n (ItemMark.replaced items)]) := by
  refine ⟨h.shared.replace (exec_written (.inr hmark) s) hafter,fun hsave => ?_,fun m op' q hne hq => ?_⟩
  · rw [hop] at hsave
    cases hsave
  · exact (h.stable m op' q hne hq).append (by simp) fun hw => nomatch hw

/-- Every undisturbed step keeps the invariant. -/
theorem preserved (platform : Platform) (host : Host) :
    Preserved (worker platform host) markOf undisturbed ListInv Moving Resting where
  shared s log e he h := h.append (by cases e <;> simp_all [written]) rfl
  stable m op p s log e he h := h.append (he m .read) fun _ => rfl
  start n op s log _ _ hsave := by
    cases op with
    | saveCredential hostname username password => exact .inl (save_appends hostname username password)
    | _ => cases hsave
  arrive n op k i s log h hsave := by
    refine (h hsave).1.imp (fun happends => happends i) fun ⟨list,happends,hquiet⟩ => ?_
    exact ⟨list,happends i,hquiet⟩
  call others n op c k s log h hD := by
    unfold entryOf markOf
    dsimp only [undisturbed] at hD
    obtain ⟨hmark,hsave⟩|⟨-,hmark,keys,rfl,hkeys⟩|⟨hop,value,hvalue,hmark,hlearn⟩|⟨hop,items,hmark⟩ :=
      callMark_cases op c
    · rw [hmark,Option.map_none,Option.toList_none,List.append_nil]
      exact moves_unmarked h hmark hsave
    · rw [hmark]
      exact moves_read h hkeys
    · rw [hmark] at hD ⊢
      exact moves_saved h hop hvalue hmark hlearn hD
    · rw [hmark] at hD ⊢
      exact moves_replaced h hop hmark (List.all_eq_true.mp hD)
  park n op k s log h hsave := ⟨h hsave,fun _ hp => nomatch hp⟩
  finish n op p s log h hp hD hsave := by
    have hlater (reply : Reply) (hreply : p=.done reply) (hok : reply.ok=true) :
        log.filterMap (newItem n)≠[] := by
      subst hreply
      dsimp only [undisturbed] at hD
      simpa [hsave,hok] using hD
    have hrest : Resting n op p s log := fun hsave => ⟨h hsave,hlater⟩
    exact hrest.append (by simp) (fun _ => rfl) hsave

/-- In every run of handlers whose item writes are undisturbed, no saved item
is lost and no older list comes back. -/
theorem undisturbed_items_kept (platform : Platform) (host : Host) (s : WorkerState)
    (events : List WorkerEvent)
    (h : keepsAll (worker platform host) markOf undisturbed ⟨⟨s,[]⟩,[]⟩ events=true) :
    ItemsKept (record (worker platform host) markOf s events) := by
  have hstart : ListInv s [] := ⟨fun _ _ hmem => absurd hmem List.not_mem_nil,fun _ hlast => nomatch hlast⟩
  have hend := (preserved platform host).record hstart h
  refine ⟨fun n op reply ht hop hok => ?_,hend.shared.current⟩
  have hsome := (hend.threads n _ ht hop).2 reply rfl hok
  obtain ⟨item,hitem⟩ := List.exists_mem_of_ne_nil _ hsome
  obtain ⟨e,he,hnew⟩ := List.mem_filterMap.mp hitem
  obtain ⟨items,rfl,hlast⟩ := newItem_eq hnew
  obtain ⟨item',hlast',hkept⟩ := hend.shared.saved n items he
  cases hlast.symm.trans hlast'
  exact ⟨item,hitem,hkept⟩

end Runs

section Samples

/-- The handlers that write the item list of an unlocked session. -/
def writesItems : WorkerOp → Bool
  | .sync => true
  | .storeItems _ _ _ => true
  | .saveCredential _ _ _ => true
  | _ => false

/-- The operations that a run starts. -/
def startedOp : WorkerEvent → Option WorkerOp
  | .start op => some op
  | .resume _ _ => none

/-- The key of the sample session. -/
def savedKey : SymKey := ⟨List.replicate 32 7,List.replicate 32 7,length_sevens,length_sevens⟩

/-- An unlocked worker with an empty list. -/
def unlockedWorker : WorkerState :=
  {WorkerState.started (some false) ⟨none,none,none⟩ UInt8.ofNat with
    session := ⟨some false,some [],some (toB64 (List.replicate 64 7)),some "t".toList,some [],none,none,
      none,none⟩}

/-- The answer to a request for a new cipher. -/
def createdCipher (id : Text) : CipherResponse :=
  ⟨id,none,none,[],1,serializeEncString (sealed transparent savedKey (List.replicate 16 0) (utf8 id)),none,
    false,[],[],none,none,none⟩

/-- A save from its encryption to its reply. -/
def savesAs (n : ℕ) (id : Text) : List WorkerEvent :=
  fulfil n 16++[arrive n (.response 200),arrive n (.body (.cipher (createdCipher id)))]++fulfil n 6

/-- A credential for the host `a`. -/
def saveA : WorkerOp := .saveCredential "a".toList "u".toList "p".toList

/-- A credential for the host `b`. -/
def saveB : WorkerOp := .saveCredential "b".toList "u".toList "p".toList

/-- Two saves that have both read the list before either has written. -/
def overlappingSaves : List WorkerEvent :=
  [.start saveA,.start saveB,arrive 0 .fulfilled,arrive 1 .fulfilled]++savesAs 0 "a".toList++
    savesAs 1 "b".toList

/-- The reply of a finished handler. -/
def replyOf : Worker Reply → Option Reply
  | .done reply => some reply
  | _ => none

/-- Whether the handler at an index is a save that reported success. -/
def reportedSave (P : WorkerPool) (n : ℕ) : Bool :=
  P.threads[n]?.any fun t => isSave t.origin && (replyOf t.rest).any Reply.ok

theorem reportedSave_eq {P : WorkerPool} {n : ℕ} (h : reportedSave P n=true) :
    ∃ op reply,P.threads[n]?=some ⟨op,.done reply⟩ ∧ isSave op=true ∧ reply.ok=true := by
  unfold reportedSave at h
  cases ht : P.threads[n]? with
  | none => simp [ht] at h
  | some t =>
    obtain ⟨op,rest⟩ := t
    rw [ht,Option.any_some,Bool.and_eq_true] at h
    cases rest with
    | done reply => exact ⟨op,reply,rfl,h.1,h.2⟩
    | _ => exact absurd h.2 (by simp [replyOf])

/-- The second of two overlapping saves drops the item of the first. -/
theorem overlapping_save_lost : ¬∀ (platform : Platform) (host : Host) (s : WorkerState)
    (events : List WorkerEvent),(∀ op∈events.filterMap startedOp,writesItems op=true) →
    (((worker platform host).run ⟨s,[]⟩ events).threads.all fun t => t.rest.settled)=true →
      ItemsKept (record (worker platform host) markOf s events) := by
  intro hall
  have hops : ∀ op∈overlappingSaves.filterMap startedOp,writesItems op=true := by
    intro op hop
    have hboth : op∈[saveA,saveB] := hop
    simp only [List.mem_cons,List.not_mem_nil,or_false] at hboth
    obtain rfl|rfl := hboth <;> rfl
  -- both saves report a success, and the list of the second has replaced the first's
  have hrun : (((worker transparent sampleHost).run ⟨unlockedWorker,[]⟩ overlappingSaves).threads.all
        fun t => t.rest.settled)=true ∧
      reportedSave (record (worker transparent sampleHost) markOf unlockedWorker overlappingSaves).pool 0=true ∧
      (record (worker transparent sampleHost) markOf unlockedWorker overlappingSaves).log.filterMap (newItem 0)=
        [⟨"a".toList,.login,"a".toList,none⟩] ∧
      storedIds (record (worker transparent sampleHost) markOf unlockedWorker overlappingSaves).pool.shared=
        ["b".toList] ∧
      (record (worker transparent sampleHost) markOf unlockedWorker overlappingSaves).log.filterMap replacement=[] := by
    set_option maxRecDepth 4000 in decide
  obtain ⟨hdone,hreported,hitems,hstored,hnone⟩ := hrun
  have hkept := hall transparent sampleHost unlockedWorker overlappingSaves hops hdone
  obtain ⟨op,reply,ht,hop,hok⟩ := reportedSave_eq hreported
  obtain ⟨item,hitem,hid|⟨r,items,hmem,-⟩⟩ := hkept.saved 0 op reply ht hop hok
  · rw [hitems,List.mem_singleton] at hitem
    subst hitem
    rw [hstored] at hid
    exact absurd hid (by decide)
  · have hreplaced : items∈([] : List (List Item)) := hnone ▸ List.mem_filterMap.mpr ⟨_,hmem,rfl⟩
    exact absurd hreplaced List.not_mem_nil

/-- A save, a push that started after its reply, and another save. -/
def separateSaves : List WorkerEvent :=
  [.start saveA,arrive 0 .fulfilled]++savesAs 0 "a".toList++
    [Event.start (WorkerOp.storeItems (some [⟨"a".toList,.login,"a".toList,none⟩]) (some 1) none)]++fulfil 1 2++
    [.start saveB,arrive 2 .fulfilled]++savesAs 2 "b".toList

theorem undisturbed_items_kept_sample :
    keepsAll (worker transparent sampleHost) markOf undisturbed ⟨⟨unlockedWorker,[]⟩,[]⟩
        separateSaves=true ∧
      ItemsKept (record (worker transparent sampleHost) markOf unlockedWorker separateSaves) := by
  have hkeeps : keepsAll (worker transparent sampleHost) markOf undisturbed ⟨⟨unlockedWorker,[]⟩,[]⟩
      separateSaves=true := by set_option maxRecDepth 4000 in decide
  exact ⟨hkeeps,undisturbed_items_kept transparent sampleHost unlockedWorker separateSaves hkeeps⟩

end Samples

end NadSafe.ItemUpdates
