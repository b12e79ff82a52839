import NadSafe.KeyAliasing

/-!
# Wrapped copies of the user key

A password change and a new PIN wrap the user key for later unlocks. Three
copies leave the operation: the one sent to the server, the one stored in
the auth store after the server accepted it, and the PIN entry. Each opens
to the issued key unless a lock lands before the bytes are read; that the
stored copy is one that was sent holds in every run without conditions.
-/

namespace NadSafe.WrappedCopies

open HostText AsyncScript AsyncScript.Script ScriptPool WireFormat WebCrypto WebClient WebScripts
open WebOperations WebContracts WebFootprint KeyAliasing

section StoredKey

/-- What a password change may store: exactly a key that was sent, with the
same issued and stretched keys. -/
def StorePre (known : Text → SymKey → SymKey → Prop) : WebCall → Prop
  | .setEncryptedUserKey text issued stretchedKey => known text issued stretchedKey
  | _ => True

/-- A password request makes its key known. -/
def StorePost (known : Text → SymKey → SymKey → Prop) : ∀ c,WebCall.Answer c → Prop
  | .fetch _ _ _ _ (.password request issued stretchedKey),_ => known request.key issued stretchedKey
  | _,_ => True

/-- Every key that was sent is known. -/
def Knows (known : Text → SymKey → SymKey → Prop) (s : WebState) : Prop :=
  ∀ m∈s.sent,∀ request issued stretchedKey,m.body=.password request issued stretchedKey →
    known request.key issued stretchedKey

/-- A re-wrapped key was sent, for these issued and stretched keys. -/
def WasSent (s : WebState) (text : Text) (issued stretchedKey : SymKey) : Prop :=
  ∃ m∈s.sent,∃ request,m.body=.password request issued stretchedKey ∧ request.key=text

/-- Every stored copy was sent. -/
def StoredSent (s : WebState) : Prop :=
  ∀ text issued stretchedKey,.stored text issued stretchedKey∈s.wrappings →
    WasSent s text issued stretchedKey

theorem exec_sent (c : WebCall) {s : WebState} {m : Sent} (h : m∈s.sent) : m∈(exec c s).2.sent := by
  cases c with
  | fetch client method path noAuth body => exact List.mem_append_left _ h
  | clearSessionKey =>
    dsimp only [exec,WebState.clearSessionKey]
    split <;> exact h
  | _ => exact h

theorem WasSent.exec {s : WebState} {text : Text} {issued stretchedKey : SymKey}
    (h : WasSent s text issued stretchedKey) (c : WebCall) :
    WasSent (exec c s).2 text issued stretchedKey := by
  obtain ⟨m,hm,hr⟩ := h
  exact ⟨m,exec_sent c hm,hr⟩

/-- A stored copy was sent, if the stored text is known to be. -/
theorem exec_storedSent {s : WebState} (h : StoredSent s) {c : WebCall}
    (hc : ∀ known,Knows known s → StorePre known c) : StoredSent (exec c s).2 := by
  have hold (hw : (exec c s).2.wrappings=s.wrappings) : StoredSent (exec c s).2 := by
    intro text issued stretchedKey hmem
    rw [hw] at hmem
    exact (h text issued stretchedKey hmem).exec c
  cases c with
  | setEncryptedUserKey text issued stretchedKey =>
    intro text' issued' stretchedKey' hmem
    rcases List.mem_append.mp hmem with hmem|hmem
    · exact h text' issued' stretchedKey' hmem
    · rw [List.mem_singleton] at hmem
      cases hmem
      exact hc (WasSent s) fun m hm request issued stretchedKey hb => ⟨m,hm,request,hb,rfl⟩
  | setPinBlob blob pin issued =>
    intro text' issued' stretchedKey' hmem
    rcases List.mem_append.mp hmem with hmem|hmem
    · exact h text' issued' stretchedKey' hmem
    · rw [List.mem_singleton] at hmem
      cases hmem
  | clearSessionKey =>
    refine hold ?_
    dsimp only [exec,WebState.clearSessionKey]
    split <;> rfl
  | _ => exact hold rfl

/-- Every operation stores only keys it knows to be sent. -/
theorem body_stores (platform : Platform) (op : WebOp) (known : Text → SymKey → SymKey → Prop) :
    (body platform op).Obeys (StorePre known) (StorePost known) fun _ => True := by
  have hidle (hop : .storeKey∉effects op) :
      (body platform op).Obeys (StorePre known) (StorePost known) fun _ => True := by
    refine (body_within platform op).mono (fun c hc => ?_) (fun _ _ _ => trivial) fun _ h => h
    cases c with
    | setEncryptedUserKey text issued stretchedKey => exact absurd hc hop
    | _ => trivial
  cases op with
  | changePassword currentPw newPw confirmPw =>
    refine changeMasterPassword_obeys trivial trivial (fun key _ => ?_) currentPw newPw confirmPw
    refine ⟨⟨fun _ => trivial,fun _ _ _ => trivial,fun _ _ _ => trivial⟩,trivial,?_,?_⟩
    · exact fun _ _ _ _ _ _ => trivial
    · exact fun _ _ _ _ _ _ hsent => hsent
  | _ => exact hidle (by simp)

/-- The assertion about an operation in flight. -/
def StoreRest (_ : WebOp) (p : Web (Option Text)) (s : WebState) : Prop :=
  ∀ known,Knows known s → p.Obeys (StorePre known) (StorePost known) fun _ => True

/-- The store contract is carried on, in a state that remembers what was
sent before. -/
theorem closed_stores (s₀ : WebState) :
    Closed exec fun (p : Web (Option Text)) s =>
      (∀ known,Knows known s → p.Obeys (StorePre known) (StorePost known) fun _ => True) ∧
        StoredSent s ∧ ∀ m∈s₀.sent,m∈s.sent := by
  refine closed_family fun c s hs hc => ⟨fun known hk => ?_,exec_storedSent hs.1 hc,
    fun m hm => exec_sent c (hs.2 m hm)⟩
  refine ⟨fun m hm => hk m (exec_sent c hm),?_⟩
  cases c with
  | fetch client method path noAuth body =>
    cases body with
    | password request issued stretchedKey =>
      exact hk _ (List.mem_append_right _ List.mem_cons_self) request issued stretchedKey rfl
    | _ => trivial
  | _ => trivial

theorem step_storedSent (P : WebPool) (e : WebEvent)
    (hP : System.Holds StoredSent StoreRest P) :
    System.Holds StoredSent StoreRest ((webSystem platform).step P e) := by
  have hkeep {s' : WebState} (hs : ∀ m∈P.shared.sent,m∈s'.sent) (t) (ht : t∈P.threads) :
      StoreRest t.origin t.rest s' :=
    fun known hk => hP.threads t ht known fun m hm => hk m (hs m hm)
  cases e with
  | start op =>
    apply System.Holds.start
    have hend := (closed_stores P.shared).settle
      ⟨fun known _ => body_stores platform op known,hP.shared,fun m hm => hm⟩
    exact ⟨hend.2.1,hend.1,hkeep hend.2.2⟩
  | resume n i =>
    refine hP.resume fun t ht => ?_
    have hend := (closed_stores P.shared).resume i
      ⟨hP.threads t (List.mem_of_getElem? ht),hP.shared,fun m hm => hm⟩
    exact ⟨hend.2.1,hend.1,fun u hu => hkeep hend.2.2 u (List.mem_of_mem_eraseIdx hu)⟩

/-- The text of the last stored copy. -/
def latestStored (ws : List Wrapping) : Option Text :=
  (ws.filterMap fun w => match w with
    | .stored text _ _ => some text
    | .pin _ _ _ => none).getLast?

/-- The auth store holds the last stored copy until sign-out. -/
def StoreCurrent (s : WebState) : Prop :=
  ∀ text,latestStored s.wrappings=some text →
    s.auth.encryptedUserKey=some text ∨ s.auth.encryptedUserKey=none

theorem exec_storeCurrent (c : WebCall) (s : WebState) (h : StoreCurrent s)
    (hc : effect c≠.signIn) : StoreCurrent (exec c s).2 := by
  cases c with
  | setServerUrl url => exact absurd rfl hc
  | login user accessToken refreshToken encryptedUserKey encryptedPrivateKey => exact absurd rfl hc
  | setEncryptedUserKey text issued stretchedKey =>
    intro text' hlast
    simp only [exec,latestStored,List.filterMap_append,List.filterMap_cons,List.filterMap_nil,
      List.getLast?_append,List.getLast?_singleton,Option.some_or,Option.some.injEq] at hlast
    exact .inl (congrArg some hlast)
  | setPinBlob blob pin issued =>
    intro text hlast
    simp only [exec,latestStored,List.filterMap_append,List.filterMap_cons,List.filterMap_nil,
      List.append_nil] at hlast
    exact h text hlast
  | clearSessionKey =>
    dsimp only [exec,WebState.clearSessionKey]
    split <;> exact h
  | logout => exact fun _ _ => .inr rfl
  | _ => exact h

/-- The effects that write a wrapped copy of the user key. -/
def wrapEffects : List Effect := [.sendPassword,.storeKey,.setPin]

/-- In every run whose locks and sign-outs wait for wrapped copies, every
copy opens to the key its operation took from the session: the one sent by a
password change under the new stretched key, the one stored afterwards, and
the PIN entry under its PIN. The stored copy is one that was sent, and it is
the one in the auth store until sign-out. -/
theorem wrapped_copies_genuine (platform : Platform) (auth : AuthState) (storage : LocalStorage)
    (origin : Text) (entropy : ℕ → UInt8) (events : List WebEvent)
    (hok : (webSystem platform).Admits (LockWaits wrapEffects)
      ⟨.loaded auth storage origin entropy,[]⟩ events)
    (s : WebState)
    (hs : s=((webSystem platform).run ⟨.loaded auth storage origin entropy,[]⟩ events).shared) :
    (∀ m∈s.sent,∀ request issued stretchedKey,m.body=.password request issued stretchedKey →
      unwrapped platform stretchedKey request.key=.ok issued) ∧
    (∀ text issued stretchedKey,.stored text issued stretchedKey∈s.wrappings →
      unwrapped platform stretchedKey text=.ok issued ∧ WasSent s text issued stretchedKey) ∧
    (∀ blob pin issued,.pin blob pin issued∈s.wrappings →
      platform.aesGcmDecrypt (pinKey platform pin blob.salt blob.iterations) blob.iv blob.wrapped=
        some (symKeyToBytes issued)) ∧
    ∀ text,latestStored s.wrappings=some text →
      s.auth.encryptedUserKey=some text ∨ s.auth.encryptedUserKey=none := by
  have hlog := run_logGenuine (by decide) hok
  have hstart : System.Holds StoredSent StoreRest
      (⟨.loaded auth storage origin entropy,[]⟩ : WebPool) :=
    ⟨fun _ _ _ hmem => absurd hmem List.not_mem_nil,fun _ ht => absurd ht List.not_mem_nil⟩
  have hstored : StoredSent s := by
    rw [hs]
    exact (StepRuns.run_invariant (fun P e hP _ => step_storedSent P e hP) hstart hok).shared
  have hcurrent : StoreCurrent s := by
    rw [hs]
    refine System.run_calls (fun op => ?_) exec_storeCurrent (fun _ hlast => nomatch hlast) events
    refine (body_within platform op).mono (fun c hc hsign => ?_) (fun _ _ hr => hr) fun _ h => h
    rw [hsign] at hc
    cases op <;> simp at hc
  rw [←hs] at hlog
  refine ⟨fun m hm request issued stretchedKey hb => ?_,fun text issued stretchedKey hw => ?_,
    fun blob pin issued hw => hlog.wrappings _ hw (by simp [wrapEffects,wrappingEffect]),hcurrent⟩
  · have hgenuine := hlog.sent m hm (by rw [hb]; simp [wrapEffects])
    rw [hb] at hgenuine
    exact hgenuine
  · exact ⟨hlog.wrappings _ hw (by simp [wrapEffects,wrappingEffect]),hstored text issued stretchedKey hw⟩

end StoredKey

section Samples

/-- Arrivals of platform promises at one operation. -/
def settleTimes (n k : ℕ) : List WebEvent := List.replicate k (arrive n .settled)

/-- The keys that the password requests of a run open to, next to the issued
keys. -/
def sentKeys (P : WebPool) : List (Option SymKey×SymKey) :=
  P.shared.sent.flatMap fun m =>
    match m.body with
    | .password request issued stretchedKey =>
      [((unwrapped transparent stretchedKey request.key).toOption,issued)]
    | _ => []

/-- A password change whose derivations are interrupted by a lock. -/
def lockDuringChange : List WebEvent :=
  [.start .adoptSession,arrive 0 (.keyResponse samplePayload),
    .start (.changePassword "old".toList "A1".toList "A1".toList),.start .lockVault]++settleTimes 1 18

/-- The account's key is replaced on the server by sixty-four zero bytes. -/
theorem password_change_wraps_zero_key :
    ∃ m∈((webSystem transparent).run sampleTab lockDuringChange).shared.sent,
      ∃ request issued stretchedKey,m.body=.password request issued stretchedKey ∧
        unwrapped transparent stretchedKey request.key≠.ok issued := by
  by_contra hnone
  push Not at hnone
  have hkeys : sentKeys ((webSystem transparent).run sampleTab lockDuringChange)=
      [(some .zero,sampleKey)] := by set_option maxRecDepth 4000 in decide
  have hsame : ∀ p∈sentKeys ((webSystem transparent).run sampleTab lockDuringChange),
      p.1=some p.2 := by
    intro p hp
    obtain ⟨m,hm,hp⟩ := List.mem_flatMap.mp hp
    split at hp
    · rename_i request issued stretchedKey hbody
      rw [List.mem_singleton] at hp
      subst hp
      rw [hnone m hm request issued stretchedKey hbody]
      rfl
    · cases hp
  rw [hkeys] at hsame
  exact absurd (hsame _ List.mem_cons_self) (by decide)

/-- A password change and a new PIN without interruption. -/
def changedPassword : List WebEvent :=
  [.start .adoptSession,arrive 0 (.keyResponse samplePayload),
    .start (.changePassword "old".toList "A1".toList "A1".toList)]++settleTimes 1 18++
  [arrive 1 (.response 200 []),arrive 1 (.body .empty),.start (.setPin "1234".toList "1234".toList)]++
  settleTimes 2 3

theorem changedPassword_settled :
    ∀ t∈((webSystem transparent).run sampleTab changedPassword).threads,t.rest.settled=true := by
  decide

theorem changedPassword_waits : (webSystem transparent).Admits (LockWaits wrapEffects) sampleTab
    (changedPassword++[Event.start WebOp.lockVault]) := by
  refine admits_lock_last ?_ changedPassword_settled
  decide

theorem wrapped_copies_genuine_sample :
    sentKeys ((webSystem transparent).run sampleTab (changedPassword++[Event.start WebOp.lockVault]))=
        [(some sampleKey,sampleKey)] ∧
      ∀ blob pin issued,.pin blob pin issued∈
          ((webSystem transparent).run sampleTab (changedPassword++[Event.start WebOp.lockVault])).shared.wrappings →
        transparent.aesGcmDecrypt (pinKey transparent pin blob.salt blob.iterations) blob.iv blob.wrapped=
          some (symKeyToBytes issued) := by
  constructor
  · set_option maxRecDepth 4000 in decide
  · exact (wrapped_copies_genuine transparent sampleAuth ⟨none,none,none⟩ [] (fun _ => 0) _
      changedPassword_waits _ rfl).2.2.1

end Samples

end NadSafe.WrappedCopies
