import NadSafe.WebFootprint

/-!
# The shared key buffer under lock and sign-out

`getSessionUserKey` hands out the live key object and `clearSessionKey`
zeroes it in place, while operations read its bytes again after every
suspension. This module follows the issued bytes through every interleaving
of all operations. What an operation sends or stores is made from them as
long as no lock lands while the operation still has to read key bytes that
it will use; one lock at a wrong moment is enough to break this.
-/

namespace NadSafe.KeyAliasing

open HostText AsyncScript AsyncScript.Script ScriptPool WireFormat WebCrypto WebClient WebScripts
open WebOperations WebContracts WebFootprint

variable {platform : Platform}

/-- A pool of the web client. -/
abbrev WebPool := Pool WebCall WebCall.Answer Arrived Text (Option Text) WebState WebOp

/-- A scheduling decision of the web client. -/
abbrev WebEvent := Event WebOp Arrived

/-- A request body made from the issued key. -/
def GenuineBody (platform : Platform) : Body → Prop
  | .cipher r issued => ∀ t∈r.encStrings,SealedUnder platform issued t
  | .password r issued stretchedKey => unwrapped platform stretchedKey r.key=.ok issued
  | _ => True

/-- A local copy that opens to the issued key. -/
def GenuineWrapping (platform : Platform) : Wrapping → Prop
  | .stored text issued stretchedKey => unwrapped platform stretchedKey text=.ok issued
  | .pin blob pin issued =>
    platform.aesGcmDecrypt (pinKey platform pin blob.salt blob.iterations) blob.iv blob.wrapped=
      some (symKeyToBytes issued)

/-- A call that writes nothing, or writes something genuine. -/
def GenuineCall (platform : Platform) : WebCall → Prop
  | .fetch _ _ _ _ body => GenuineBody platform body
  | .setEncryptedUserKey text issued stretchedKey =>
    GenuineWrapping platform (.stored text issued stretchedKey)
  | .setPinBlob blob pin issued => GenuineWrapping platform (.pin blob pin issued)
  | _ => True

/-- The effect of writing a local copy. -/
def wrappingEffect : Wrapping → Effect
  | .stored _ _ _ => .storeKey
  | .pin _ _ _ => .setPin

/-- Everything written so far with an effect in `goals` is genuine. -/
structure LogGenuine (platform : Platform) (goals : List Effect) (s : WebState) : Prop where
  /-- Requests. -/
  sent : ∀ m∈s.sent,bodyEffect m.body∈goals → GenuineBody platform m.body
  /-- Local copies. -/
  wrappings : ∀ w∈s.wrappings,wrappingEffect w∈goals → GenuineWrapping platform w

/-- One call extends the log by what it writes. -/
theorem exec_logGenuine {goals : List Effect} {s : WebState} (h : LogGenuine platform goals s)
    {c : WebCall} (hc : effect c∈goals → GenuineCall platform c) :
    LogGenuine platform goals (exec c s).2 := by
  cases c with
  | fetch client method path noAuth body =>
    refine ⟨fun m hm => ?_,h.wrappings⟩
    rcases List.mem_append.mp hm with hm|hm
    · exact h.sent m hm
    · rw [List.mem_singleton] at hm
      subst hm
      exact hc
  | setEncryptedUserKey text issued stretchedKey =>
    refine ⟨h.sent,fun w hw => ?_⟩
    rcases List.mem_append.mp hw with hw|hw
    · exact h.wrappings w hw
    · rw [List.mem_singleton] at hw
      subst hw
      exact hc
  | setPinBlob blob pin issued =>
    refine ⟨h.sent,fun w hw => ?_⟩
    rcases List.mem_append.mp hw with hw|hw
    · exact h.wrappings w hw
    · rw [List.mem_singleton] at hw
      subst hw
      exact hc
  | clearSessionKey =>
    dsimp only [exec,WebState.clearSessionKey]
    split <;> exact ⟨h.sent,h.wrappings⟩
  | _ => exact ⟨h.sent,h.wrappings⟩

/-- Key objects are only ever added, unless a call zeroes one. -/
theorem exec_keys {c : WebCall} (hc : effect c≠.wipe) (s : WebState) :
    s.keys <+: (exec c s).2.keys := by
  cases c with
  | clearSessionKey => exact absurd rfl hc
  | setSessionUserKey key => exact List.prefix_append _ _
  | _ => exact List.prefix_rfl

/-- The session key is an object of the heap. -/
def SessionValid (s : WebState) : Prop := ∀ cell,s.userKey=some cell → cell< s.keys.length

theorem exec_sessionValid {s : WebState} (h : SessionValid s) (c : WebCall) :
    SessionValid (exec c s).2 := by
  cases c with
  | setSessionUserKey key =>
    intro cell hcell
    cases hcell
    simp [exec]
  | clearSessionKey =>
    dsimp only [exec,WebState.clearSessionKey]
    split
    · intro cell hcell
      cases hcell
    · exact h
  | _ => exact h

/-- The calls of a script that uses the key object `cell`: it zeroes nothing,
reads that object only, and writes only what is genuine. -/
structure KeyPre (platform : Platform) (goals : List Effect) (cell : ℕ) (c : WebCall) : Prop where
  /-- What is written is genuine. -/
  genuine : effect c∈goals → GenuineCall platform c
  /-- Only this object is read. -/
  read : ∀ d,c=.encKey d ∨ c=.macKey d → d=cell

/-- The answers of a script whose key object still holds the issued bytes. -/
def KeyPost (cell : ℕ) (issued : SymKey) : ∀ c,WebCall.Answer c → Prop
  | .randomBytes n,r => r.length=n
  | .encKey d,r => d=cell → r=issued.encKey
  | .macKey d,r => d=cell → r=issued.macKey
  | _,_ => True

theorem keyPost_faithful (cell : ℕ) (issued : SymKey) :
    Faithful (KeyPost cell issued) (.live cell issued) := by
  refine ⟨fun n r hr => hr,fun d k r he hr => ?_,fun d k r he hr => ?_⟩
  · cases he
    exact hr rfl
  · cases he
    exact hr rfl

/-- Calls other than key reads answer as assumed in every state. -/
theorem exec_keyPost {cell : ℕ} {issued : SymKey} {c : WebCall} (hc : effect c≠.keyRead)
    (s : WebState) : KeyPost cell issued c (exec c s).1 := by
  cases c with
  | randomBytes n => simp [KeyPost,exec,WebState.random]
  | encKey d => exact absurd rfl hc
  | macKey d => exact absurd rfl hc
  | _ => trivial

/-- All calls answer as assumed while the object holds the issued bytes. -/
theorem exec_keyPost_live {cell : ℕ} {issued : SymKey} {s : WebState}
    (h : s.keys[cell]?=some issued) (c : WebCall) : KeyPost cell issued c (exec c s).1 := by
  have hget : s.keys.getD cell .zero=issued := by
    rw [List.getD_eq_getElem?_getD,h]
    rfl
  cases c with
  | encKey d =>
    rintro rfl
    exact congrArg SymKey.encKey hget
  | macKey d =>
    rintro rfl
    exact congrArg SymKey.macKey hget
  | randomBytes n => exact exec_keyPost (by simp) s
  | _ => trivial

/-- An object keeps its bytes while objects are only added. -/
theorem key_kept {s s' : WebState} (h : s.keys <+: s'.keys) {cell : ℕ} {issued : SymKey}
    (hl : s.keys[cell]?=some issued) : s'.keys[cell]?=some issued := by
  obtain ⟨hlt,rfl⟩ := List.getElem?_eq_some_iff.mp hl
  exact List.prefix_iff_getElem?.mp h cell hlt

/-- A key read. -/
def isKeyRead (c : WebCall) : Prop := effect c=.keyRead

/-- A call with one of the effects in question. -/
def isGoal (goals : List Effect) (c : WebCall) : Prop := effect c∈goals

/-- The assertion about a running operation. Either it writes nothing in
`goals` any more, or it follows the contract of its key object, and that
object still holds the issued bytes or will not be read for another write. -/
def KeyThread (platform : Platform) (goals : List Effect) (p : Web (Option Text)) (s : WebState) :
    Prop :=
  p.Never (isGoal goals) ∨
    ∃ cell issued,p.Obeys (KeyPre platform goals cell) (KeyPost cell issued) (fun _ => True) ∧
      (s.keys[cell]?=some issued ∨ p.NeverThen isKeyRead (isGoal goals))

/-- A running operation that zeroes nothing, in a state with a genuine log
that extends the heap it was started or resumed in. -/
structure Running (platform : Platform) (goals : List Effect) (s₀ : WebState)
    (p : Web (Option Text)) (s : WebState) : Prop where
  /-- The text follows its contract. -/
  thread : KeyThread platform goals p s
  /-- The text zeroes nothing. -/
  unwiped : p.Never (isGoal [.wipe])
  /-- The log is genuine. -/
  log : LogGenuine platform goals s
  /-- The session key is an object of the heap. -/
  session : SessionValid s
  /-- No object was lost or changed. -/
  keys : s₀.keys <+: s.keys

/-- The running assertion is carried on by every call and arrival. -/
theorem closed_running (goals : List Effect) (s₀ : WebState) :
    Closed exec (Running platform goals s₀) := by
  constructor
  · intro c k s h
    have hw : effect c≠.wipe := fun he => h.unwiped.1 (List.mem_singleton.mpr he)
    have hkeys := exec_keys hw s
    suffices hstep : KeyThread platform goals (k (exec c s).1) (exec c s).2 ∧
        (effect c∈goals → GenuineCall platform c) from
      ⟨hstep.1,h.unwiped.2 _ trivial,exec_logGenuine h.log hstep.2,exec_sessionValid h.session c,
        h.keys.trans hkeys⟩
    rcases h.thread with hn|⟨cell,issued,hp,hl|hl⟩
    · exact ⟨.inl (hn.2 _ trivial),fun hg => absurd hg hn.1⟩
    · have hpost := exec_keyPost_live hl c
      exact ⟨.inr ⟨cell,issued,hp.2 _ hpost,.inl (key_kept hkeys hl)⟩,hp.1.genuine⟩
    · refine ⟨?_,hp.1.genuine⟩
      by_cases hread : effect c=.keyRead
      · exact .inl (hl.1 hread _)
      · exact .inr ⟨cell,issued,hp.2 _ (exec_keyPost hread s),.inr (hl.2 _)⟩
  · intro k s i h
    refine ⟨?_,h.unwiped i,h.log,h.session,h.keys⟩
    rcases h.thread with hn|⟨cell,issued,hp,hl⟩
    · exact .inl (hn i)
    · exact .inr ⟨cell,issued,hp i,hl.imp id fun hn => hn i⟩

section Contracts

variable {goals : List Effect} {cell : ℕ} {issued : SymKey}

theorem keyPre_of_genuine {c : WebCall} (hc : effect c≠.keyRead) (hg : GenuineCall platform c) :
    KeyPre platform goals cell c := by
  refine ⟨fun _ => hg,fun d hd => ?_⟩
  rcases hd with rfl|rfl
  · exact absurd rfl hc
  · exact absurd rfl hc

theorem keyPre_keyAccess : KeyAccess (KeyPre platform goals cell) (.live cell issued) := by
  refine ⟨fun n => keyPre_of_genuine (by simp) trivial,fun d k he => ?_,fun d k he => ?_⟩
  · cases he
    exact ⟨fun _ => trivial,fun d hd => by simpa [eq_comm] using hd⟩
  · cases he
    exact ⟨fun _ => trivial,fun d hd => by simpa [eq_comm] using hd⟩

theorem keyPre_sendAccess :
    SendAccess platform (KeyPre platform goals cell) (KeyPost cell issued) (.live cell issued) where
  toKeyAccess := keyPre_keyAccess
  client := keyPre_of_genuine (by simp) trivial
  send _ _ _ _ hkept := keyPre_of_genuine (by simp) (hkept (keyPost_faithful cell issued))

theorem keyPre_wrapAccess :
    WrapAccess platform (KeyPre platform goals cell) (KeyPost cell issued) (.live cell issued) where
  toKeyAccess := keyPre_keyAccess
  client := keyPre_of_genuine (by simp) trivial
  send _ _ _ _ _ hopen := keyPre_of_genuine (by simp) (hopen (keyPost_faithful cell issued))
  store _ _ _ _ _ hopen _ := keyPre_of_genuine (by simp) (hopen (keyPost_faithful cell issued))

end Contracts

/-- The effects whose outputs are made from the user key. -/
def outputs : List Effect := [.sendCipher,.sendPassword,.storeKey,.setPin]

/-- The condition on the moment of a lock or sign-out: no operation in flight
still reads key bytes that a later write with an effect in `goals` uses. -/
def LockWaits (goals : List Effect) (P : WebPool) : WebEvent → Prop
  | .start .lockVault => ∀ t∈P.threads,t.rest.NeverThen isKeyRead (isGoal goals)
  | .start .logoutAndClear => ∀ t∈P.threads,t.rest.NeverThen isKeyRead (isGoal goals)
  | _ => True

section Runs

variable {goals : List Effect}

/-- A script without effects in `goals` runs whatever happens to its key. -/
theorem running_of_never {p : Web (Option Text)} {s : WebState} (hg : p.Never (isGoal goals))
    (hw : p.Never (isGoal [.wipe])) (hlog : LogGenuine platform goals s) (hs : SessionValid s) :
    Running platform goals s p s :=
  ⟨.inl hg,hw,hlog,hs,List.prefix_rfl⟩

/-- The guard makes one call and continues in the same segment. -/
theorem settle_withSessionKey (locked : Text) (task : KeyRef → Web (Option Text)) (s : WebState) :
    settle exec (withSessionKey locked task) s=
      match s.getSessionUserKey with
      | none => (done (some locked),s)
      | some key => settle exec (task key) s := by
  have h : settle exec (withSessionKey locked task) s=settle exec (match s.getSessionUserKey with
      | none => done (some locked)
      | some key => task key) s := rfl
  rw [h]
  cases s.getSessionUserKey <;> rfl

/-- The key that the session hands out still holds its issued bytes. -/
theorem getSessionUserKey_live {s : WebState} (hs : SessionValid s) {key : KeyRef}
    (hkey : s.getSessionUserKey=some key) :
    ∃ cell issued,key=.live cell issued ∧ s.keys[cell]?=some issued := by
  obtain ⟨cell,hcell,rfl⟩ := Option.map_eq_some_iff.mp hkey
  refine ⟨cell,_,rfl,?_⟩
  rw [List.getD_eq_getElem?_getD,List.getElem?_eq_getElem (hs cell hcell)]
  rfl

/-- An operation behind the session guard starts with the live key. -/
theorem withSessionKey_running {locked : Text} {task : KeyRef → Web (Option Text)} {s : WebState}
    (hlog : LogGenuine platform goals s) (hs : SessionValid s)
    (hw : (withSessionKey locked task).Never (isGoal [.wipe]))
    (htask : ∀ cell issued,(task (.live cell issued)).Obeys (KeyPre platform goals cell)
      (KeyPost cell issued) fun _ => True) :
    Running platform goals s (settle exec (withSessionKey locked task) s).1
      (settle exec (withSessionKey locked task) s).2 := by
  rw [settle_withSessionKey]
  cases hkey : s.getSessionUserKey with
  | none => exact running_of_never trivial trivial hlog hs
  | some key =>
    obtain ⟨cell,issued,rfl,hlive⟩ := getSessionUserKey_live hs hkey
    have hw' : (task (.live cell issued)).Never (isGoal [.wipe]) :=
      hw.2 (some (.live cell issued)) trivial
    refine (closed_running goals s).settle ⟨.inr ⟨cell,issued,htask cell issued,.inl hlive⟩,hw',hlog,hs,?_⟩
    exact List.prefix_rfl

/-- The guard commutes with an outer handler, which it cannot trigger. -/
theorem withSessionKey_rescue (locked : Text) (task : KeyRef → Web (Option Text))
    (handler : Text → Web (Option Text)) :
    (withSessionKey locked task).rescue handler=
      withSessionKey locked fun key => (task key).rescue handler := by
  have h : ∀ found : Option KeyRef,(match found with
      | none => (done (some locked) : Web (Option Text))
      | some userKey => task userKey).rescue handler=
      match found with
      | none => done (some locked)
      | some userKey => (task userKey).rescue handler := by
    intro found
    cases found <;> rfl
  exact congrArg (call WebCall.getSessionUserKey) (funext h)

/-- Texts of operations other than lock and sign-out zero nothing. -/
theorem body_unwiped {op : WebOp} (hop : .wipe∉effects op) :
    (body platform op).Never (isGoal [.wipe]) := by
  refine (body_within platform op).mono (fun c hc hw => ?_) (fun _ _ hr => hr) fun _ h => h
  rw [isGoal,List.mem_singleton] at hw
  exact hop (hw ▸ hc)

/-- Texts of operations without effects in `goals`. -/
theorem body_never {op : WebOp} (hop : ∀ e∈effects op,e∉goals) :
    (body platform op).Never (isGoal goals) :=
  (body_within platform op).mono (fun _ hc => hop _ hc) (fun _ _ hr => hr) fun _ h => h

/-- Every operation other than lock and sign-out starts as a running one. -/
theorem start_running (hg : ∀ e∈goals,e∈outputs) {op : WebOp} (hop : .wipe∉effects op)
    {s : WebState} (hlog : LogGenuine platform goals s) (hs : SessionValid s) :
    Running platform goals s (settle exec (body platform op) s).1
      (settle exec (body platform op) s).2 := by
  have hw : (body platform op).Never (isGoal [.wipe]) := body_unwiped hop
  have hidle (hop' : ∀ e∈effects op,e∉outputs) : Running platform goals s
      (settle exec (body platform op) s).1 (settle exec (body platform op) s).2 :=
    (closed_running goals s).settle
      (running_of_never (body_never fun e he hge => hop' e he (hg e hge)) hw hlog hs)
  cases op with
  | importFile json =>
    exact withSessionKey_running hlog hs hw fun _ _ => importWith_obeys keyPre_sendAccess json
  | saveItem form =>
    exact withSessionKey_running hlog hs hw fun _ _ => saveWith_obeys keyPre_sendAccess form
  | extensionSave payload =>
    have he : body platform (.extensionSave payload)=_ := withSessionKey_rescue _ _ _
    rw [he] at hw ⊢
    refine withSessionKey_running hlog hs hw fun cell issued => ?_
    refine (relayWith_obeys keyPre_sendAccess ?_ ?_ payload).rescue fun _ => trivial
    · exact keyPre_of_genuine (by simp) trivial
    · exact fun items => keyPre_of_genuine (by simp) trivial
  | changePassword currentPw newPw confirmPw =>
    have hw' : (changeFrom platform s.auth currentPw newPw confirmPw).Never (isGoal [.wipe]) :=
      hw.2 s.auth trivial
    change Running platform goals s (settle exec (changeFrom platform s.auth currentPw newPw confirmPw) s).1
      (settle exec (changeFrom platform s.auth currentPw newPw confirmPw) s).2
    have hdone (message : Text) : Running platform goals s (done (some message)) s :=
      running_of_never trivial trivial hlog hs
    unfold changeFrom at hw' ⊢
    split
    · exact hdone _
    split
    · exact hdone _
    split
    · exact hdone _
    split
    · exact hdone _
    refine withSessionKey_running hlog hs ?_ fun _ _ => changeWith_obeys keyPre_wrapAccess _ _ _
    simp_all
  | setPin first value =>
    dsimp only [body,pinSetup] at hw ⊢
    by_cases hfirst : value≠first
    · rw [if_pos hfirst]
      exact running_of_never trivial trivial hlog hs
    · rw [if_neg hfirst] at hw ⊢
      refine withSessionKey_running hlog hs hw fun cell issued => ?_
      refine pinWith_obeys keyPre_keyAccess (keyPre_of_genuine (by simp) trivial) ?_ value
      exact fun blob pin hopen => keyPre_of_genuine (by simp) (hopen (keyPost_faithful cell issued)).opens
  | lockVault => exact absurd (by simp) hop
  | logoutAndClear => exact absurd (by simp) hop
  | _ => exact hidle (by simp [outputs])

/-- What holds of the shared state in every pool. -/
def KeyState (platform : Platform) (goals : List Effect) (s : WebState) : Prop :=
  LogGenuine platform goals s ∧ SessionValid s

/-- What holds of every operation in flight. -/
def KeyRest (platform : Platform) (goals : List Effect) (_ : WebOp) (p : Web (Option Text))
    (s : WebState) : Prop :=
  KeyThread platform goals p s ∧ p.Never (isGoal [.wipe])

/-- Operations that did not move keep their assertion while objects are only
added to the heap. -/
theorem KeyRest.grow {op : WebOp} {p : Web (Option Text)} {s s' : WebState}
    (h : KeyRest platform goals op p s) (hk : s.keys <+: s'.keys) : KeyRest platform goals op p s' := by
  refine ⟨?_,h.2⟩
  rcases h.1 with hn|⟨cell,issued,hp,hl⟩
  · exact .inl hn
  · exact .inr ⟨cell,issued,hp,hl.imp (key_kept hk) id⟩

/-- Operations that did not move survive a lock that waited for them. -/
theorem KeyRest.lock {op : WebOp} {p : Web (Option Text)} {s : WebState}
    (h : KeyRest platform goals op p s) (hp : p.NeverThen isKeyRead (isGoal goals)) (s' : WebState) :
    KeyRest platform goals op p s' := by
  refine ⟨?_,h.2⟩
  rcases h.1 with hn|⟨cell,issued,ho,-⟩
  · exact .inl hn
  · exact .inr ⟨cell,issued,ho,.inr hp⟩

theorem Running.segment {s₀ s' : WebState} {op : WebOp} {p : Web (Option Text)}
    (h : Running platform goals s₀ p s') {other : List (Thread WebCall WebCall.Answer Arrived Text
      (Option Text) WebOp)} (hother : ∀ t∈other,KeyRest platform goals t.origin t.rest s₀) :
    System.Segment (KeyState platform goals) (KeyRest platform goals) op p s' other :=
  ⟨⟨h.log,h.session⟩,⟨h.thread,h.unwiped⟩,fun t ht => (hother t ht).grow h.keys⟩

/-- A lock or sign-out is one segment and writes nothing in `goals`. -/
theorem lock_segment {op : WebOp} (hop : op=.lockVault ∨ op=.logoutAndClear)
    (hg : ∀ e∈goals,e∈outputs) {P : WebPool} (hP : System.Holds (KeyState platform goals)
      (KeyRest platform goals) P)
    (hwait : ∀ t∈P.threads,t.rest.NeverThen isKeyRead (isGoal goals)) :
    System.Segment (KeyState platform goals) (KeyRest platform goals) op
      (settle exec (body platform op) P.shared).1 (settle exec (body platform op) P.shared).2
      P.threads := by
  have hclosed : Closed exec fun (p : Web (Option Text)) s =>
      p.Obeys (fun c => effect c∈effects op) (fun _ _ => True) (fun _ => True) ∧
        KeyState platform goals s := by
    have hdisjoint : ∀ e∈effects op,e∉outputs := by
      rcases hop with rfl|rfl <;> decide
    exact closed_obeys fun c s hs hc => ⟨trivial,
      exec_logGenuine hs.1 fun hmem => absurd (hg _ hmem) (hdisjoint _ hc),exec_sessionValid hs.2 c⟩
  have hend := hclosed.settle ⟨body_within platform op,hP.shared⟩
  refine ⟨hend.2,?_,fun t ht => (hP.threads t ht).lock (hwait t ht) _⟩
  rcases hop with rfl|rfl
  · exact ⟨.inl trivial,trivial⟩
  · exact ⟨.inl trivial,trivial⟩

/-- One step of the client keeps everything, if a lock waits. -/
theorem step_keyState (hg : ∀ e∈goals,e∈outputs) (P : WebPool) (e : WebEvent)
    (hP : System.Holds (KeyState platform goals) (KeyRest platform goals) P)
    (hok : LockWaits goals P e) :
    System.Holds (KeyState platform goals) (KeyRest platform goals) ((webSystem platform).step P e) := by
  cases e with
  | start op =>
    apply System.Holds.start
    by_cases hop : .wipe∈effects op
    · cases op with
      | lockVault => exact lock_segment (.inl rfl) hg hP hok
      | logoutAndClear => exact lock_segment (.inr rfl) hg hP hok
      | _ => simp at hop
    · exact (start_running hg hop hP.shared.1 hP.shared.2).segment hP.threads
  | resume n i =>
    refine hP.resume fun t ht => ?_
    have hmem : t∈P.threads := List.mem_of_getElem? ht
    have hrun : Running platform goals P.shared t.rest P.shared :=
      ⟨(hP.threads t hmem).1,(hP.threads t hmem).2,hP.shared.1,hP.shared.2,List.prefix_rfl⟩
    exact ((closed_running goals P.shared).resume i hrun).segment
      fun u hu => hP.threads u (List.mem_of_mem_eraseIdx hu)

/-- In every run whose locks and sign-outs wait, everything written with an
effect in `goals` is made from the key its operation was issued. -/
theorem run_logGenuine (hg : ∀ e∈goals,e∈outputs) {auth : AuthState} {storage : LocalStorage}
    {origin : Text} {entropy : ℕ → UInt8} {events : List WebEvent}
    (hok : (webSystem platform).Admits (LockWaits goals)
      ⟨.loaded auth storage origin entropy,[]⟩ events) :
    LogGenuine platform goals ((webSystem platform).run
      ⟨.loaded auth storage origin entropy,[]⟩ events).shared := by
  have hstart : System.Holds (KeyState platform goals) (KeyRest platform goals)
      (⟨.loaded auth storage origin entropy,[]⟩ : WebPool) := by
    refine ⟨⟨⟨?_,?_⟩,?_⟩,?_⟩
    · exact fun m hm => absurd hm List.not_mem_nil
    · exact fun w hw => absurd hw List.not_mem_nil
    · exact fun cell hcell => nomatch hcell
    · exact fun t ht => absurd ht List.not_mem_nil
  exact (StepRuns.run_invariant (step_keyState hg) hstart hok).shared.1

end Runs

/-- In every run whose locks and sign-outs wait for item requests, every
EncString sent by `createCipher` or `updateCipher` is encrypted and tagged
under the key that its operation took from the session at its start. -/
theorem item_requests_genuine (platform : Platform) (auth : AuthState) (storage : LocalStorage)
    (origin : Text) (entropy : ℕ → UInt8) (events : List WebEvent)
    (hok : (webSystem platform).Admits (LockWaits [.sendCipher])
      ⟨.loaded auth storage origin entropy,[]⟩ events) :
    ∀ m∈((webSystem platform).run ⟨.loaded auth storage origin entropy,[]⟩ events).shared.sent,
      ∀ request issued,m.body=.cipher request issued →
        ∀ t∈request.encStrings,SealedUnder platform issued t := by
  intro m hm request issued hbody
  have hlog := run_logGenuine (by decide) hok
  have hgenuine := hlog.sent m hm (by rw [hbody]; simp)
  rw [hbody] at hgenuine
  exact hgenuine

section Samples

/-- A key with two different nonzero halves. -/
def sampleKey : SymKey := ⟨List.replicate 32 1,List.replicate 32 2,rfl,rfl⟩

/-- A session offered by another tab. -/
def samplePayload : SessionPayload := ⟨sampleKey,none,"token".toList,[]⟩

/-- A note with a name only. -/
def sampleForm : ItemForm :=
  ⟨none,.note,"n".toList,[],false,[],[],[],[],[],⟨[],[],[],[],[],[]⟩⟩

/-- An arrival at the operation with this index. -/
def arrive (n : ℕ) (value : Arrived) : WebEvent := .resume n ⟨[],value⟩

/-- A tab signed in to an account with a stored key. -/
def sampleAuth : AuthState :=
  ⟨true,false,some ⟨"a@b".toList,.pbkdf2,⟨none,none,none,none⟩⟩,[],none,none,some "2.k".toList,none⟩

/-- The tab before its first event, with an all-zero random source. -/
def sampleTab : WebPool := ⟨.loaded sampleAuth ⟨none,none,none⟩ [] fun _ => 0,[]⟩

/-- The tab adopts a session; a note is being saved when the lock lands
between the reads of the two key halves. -/
def lockDuringSave : List WebEvent :=
  [.start .adoptSession,arrive 0 (.keyResponse samplePayload),.start (.saveItem sampleForm),
    .start .lockVault,arrive 1 .settled,arrive 1 .settled,arrive 1 .settled,arrive 1 .settled]

/-- The tags that the requests of a run carry, next to the issued keys. -/
def sentTags (P : WebPool) : List (Option Bytes×Bytes) :=
  P.shared.sent.flatMap fun m =>
    match m.body with
    | .cipher request issued => request.encStrings.map fun t =>
      ((parseEncString t).toOption.map EncStringParsed.mac,issued.macKey)
    | _ => []

/-- On the transparent platform a sealed text shows its key in its tag. -/
theorem sealedUnder_transparent_mac {key : SymKey} {text : Text}
    (h : SealedUnder transparent key text) :
    (parseEncString text).toOption.map EncStringParsed.mac=some key.macKey := by
  obtain ⟨iv,data,hparse⟩ := h.parse
  rw [hparse]
  exact congrArg some (List.take_left' key.macLength)

/-- The note is sent with a tag under thirty-two zero bytes. -/
theorem item_request_under_zero_key :
    ∃ m∈((webSystem transparent).run sampleTab lockDuringSave).shared.sent,
      ∃ request issued,m.body=.cipher request issued ∧
        ∃ t∈request.encStrings,¬SealedUnder transparent issued t := by
  by_contra hnone
  push Not at hnone
  have htags : sentTags ((webSystem transparent).run sampleTab lockDuringSave)=
      [(some (List.replicate 32 0),List.replicate 32 2)] := by decide
  have hsame : ∀ p∈sentTags ((webSystem transparent).run sampleTab lockDuringSave),p.1=some p.2 := by
    intro p hp
    obtain ⟨m,hm,hp⟩ := List.mem_flatMap.mp hp
    split at hp
    · rename_i request issued hbody
      obtain ⟨t,ht,rfl⟩ := List.mem_map.mp hp
      exact sealedUnder_transparent_mac (hnone m hm request issued hbody t ht)
    · cases hp
  rw [htags] at hsame
  exact absurd (hsame _ List.mem_cons_self) (by decide)

/-- The same note saved without interruption. -/
def savedNote : List WebEvent :=
  [.start .adoptSession,arrive 0 (.keyResponse samplePayload),.start (.saveItem sampleForm),
    arrive 1 .settled,arrive 1 .settled,arrive 1 .settled,arrive 1 .settled,
    arrive 1 (.response 200 []),arrive 1 (.body .empty)]

/-- An event that is neither a lock nor a sign-out. -/
def locksNothing : WebEvent → Bool
  | .start .lockVault => false
  | .start .logoutAndClear => false
  | _ => true

theorem lockWaits_of_locksNothing {goals : List Effect} {e : WebEvent} (h : locksNothing e=true)
    (P : WebPool) : LockWaits goals P e := by
  unfold locksNothing at h
  split at h
  · cases h
  · cases h
  · unfold LockWaits
    split <;> simp_all

/-- A lock after every started operation has settled is always allowed. -/
theorem admits_lock_last {goals : List Effect} {P : WebPool} {events : List WebEvent}
    (hfree : ∀ e∈events,locksNothing e=true)
    (hsettled : ∀ t∈((webSystem platform).run P events).threads,t.rest.settled=true) :
    (webSystem platform).Admits (LockWaits goals) P (events++[Event.start WebOp.lockVault]) := by
  refine StepRuns.Admits.append (.of_forall (fun e he P => ?_) P) ⟨fun t ht => ?_,trivial⟩
  · exact lockWaits_of_locksNothing (hfree e he) P
  · exact NeverThen.of_settled (hsettled t ht)

theorem savedNote_settled : ∀ t∈((webSystem transparent).run sampleTab savedNote).threads,
    t.rest.settled=true := by decide

theorem savedNote_waits : (webSystem transparent).Admits (LockWaits [.sendCipher]) sampleTab
    (savedNote++[Event.start WebOp.lockVault]) := by
  refine admits_lock_last ?_ savedNote_settled
  decide

theorem item_requests_genuine_sample :
    sentTags ((webSystem transparent).run sampleTab (savedNote++[Event.start WebOp.lockVault]))=
        [(some (List.replicate 32 2),List.replicate 32 2)] ∧
      ∀ m∈((webSystem transparent).run sampleTab (savedNote++[Event.start WebOp.lockVault])).shared.sent,
        ∀ request issued,m.body=.cipher request issued →
          ∀ t∈request.encStrings,SealedUnder transparent issued t := by
  constructor
  · decide
  · exact item_requests_genuine transparent sampleAuth ⟨none,none,none⟩ [] (fun _ => 0) _ savedNote_waits

end Samples

end NadSafe.KeyAliasing
