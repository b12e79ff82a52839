import NadSafe.SequentialScript
import NadSafe.WrappedCopies

/-!
# Accounts, session key and PIN entry of one tab

Complete sign-ins, sign-outs, locks, PIN changes and unlocks of one tab, over
any number of accounts on one honest server. The session key follows the
account in the auth store as long as every PIN unlock uses an entry that was
made from that account's user key; sign-out keeps the entry of the account
that leaves.
-/

namespace NadSafe.WebAccounts

open HostText AsyncScript AsyncScript.Script ScriptPool SequentialScript WireFormat WebCrypto WebClient
open WebScripts WebOperations WebContracts WebFootprint KeyAliasing WrappedCopies

variable {platform : Platform} {keyOf : Text → SymKey}

/-- The steps of the tab. -/
inductive AccountOp where
  /-- `doLogin`. -/
  | login (serverUrl email password : Text) (twoFactorToken : Option Text)
      (pending : Option PendingLogin)
  /-- `logoutAndClear`. -/
  | logoutAndClear
  /-- `lockVault`. -/
  | lockVault
  /-- The PIN dialog. -/
  | setPin (first value : Text)
  /-- `removePin`. -/
  | removePin
  /-- An unlock with the master password. -/
  | passwordUnlock (password : Text)
  /-- An unlock with the PIN. -/
  | pinUnlock (pin : Text)

/-- Their texts. -/
def accountBody (platform : Platform) : AccountOp → Web (Option Text)
  | .login serverUrl email password twoFactorToken pending =>
    doLogin platform serverUrl email password twoFactorToken pending
  | .logoutAndClear => body platform .logoutAndClear
  | .lockVault => body platform .lockVault
  | .setPin first value => body platform (.setPin first value)
  | .removePin => body platform .removePin
  | .passwordUnlock password => body platform (.passwordUnlock password)
  | .pinUnlock pin => body platform (.pinUnlock pin)

/-- An operation with everything that arrives while it runs. -/
structure AccountStep where
  /-- The operation. -/
  op : AccountOp
  /-- Settled promises and server answers, in order. -/
  arrivals : List (Arrival Arrived)

/-- The tab after one step. -/
def stepped (platform : Platform) (s : WebState) (step : AccountStep) : WebState :=
  (finish exec (accountBody platform step.op) step.arrivals s).2

/-- The tab after a sequence of steps. -/
abbrev runSteps (platform : Platform) (s : WebState) (steps : List AccountStep) : WebState :=
  StepRuns.run (stepped platform) s steps

/-- Every step is allowed in the state in which it is taken. -/
abbrev StepsAdmit (platform : Platform) (ok : WebState → AccountStep → Prop) (s : WebState)
    (steps : List AccountStep) : Prop := StepRuns.Admits (stepped platform) ok s steps

/-- A wrapped key that opens to no other key than this one. -/
def OpensOnly (platform : Platform) (text : Text) (key : SymKey) : Prop :=
  ∀ stretchedKey userKey,unwrapped platform stretchedKey text=.ok userKey → userKey=key

/-- The server answers a sign-in with the wrapped user key of that account. -/
def Honest (platform : Platform) (keyOf : Text → SymKey) : AccountOp → Arrival Arrived → Prop
  | .login _ email _ _ _,i => ∀ answer text,i.value=.body (.token answer) →
    answer.key=some text → OpensOnly platform text (keyOf email)
  | _,_ => True

/-- A complete step with an honest server. -/
def Complete (platform : Platform) (keyOf : Text → SymKey) (s : WebState) (step : AccountStep) : Prop :=
  (finish exec (accountBody platform step.op) step.arrivals s).1.settled=true ∧
    ∀ i∈step.arrivals,Honest platform keyOf step.op i

/-- The key that the last PIN entry was made from. -/
def lastPinKey (ws : List Wrapping) : Option SymKey :=
  (ws.filterMap fun w => match w with
    | .pin _ _ issued => some issued
    | .stored _ _ _ => none).getLast?

/-- The condition: a PIN unlock is made with an entry that was made from the
user key of the account in the auth store. -/
def OwnPin (keyOf : Text → SymKey) (s : WebState) (step : AccountStep) : Prop :=
  match step.op with
  | .pinUnlock _ => s.storage.pinBlob≠none → ∀ user,s.auth.user=some user →
    lastPinKey s.wrappings=some (keyOf user.email)
  | _ => True

/-- What ties auth store and PIN entry to accounts. -/
structure Recorded (platform : Platform) (keyOf : Text → SymKey) (s : WebState) : Prop where
  /-- A refresh token is one of a signed-in tab. -/
  refresh : s.auth.refreshToken.getD []≠[] → s.auth.isAuthenticated=true
  /-- A signed-in tab records its account. -/
  user : s.auth.isAuthenticated=true → ∃ user,s.auth.user=some user
  /-- The wrapped key is the one of that account. -/
  wrapped : ∀ user text,s.auth.user=some user → s.auth.encryptedUserKey=some text →
    OpensOnly platform text (keyOf user.email)
  /-- The PIN entry wraps the key it was made from. -/
  pin : ∀ blob,s.storage.pinBlob=some blob →
    ∃ pin issued,lastPinKey s.wrappings=some issued ∧ Wraps platform blob pin issued

/-- The session holds this key. -/
def Holding (key : SymKey) (s : WebState) : Prop :=
  ∃ cell,s.userKey=some cell ∧ s.keys[cell]?=some key

/-- A session key belongs to the account of an unlocked signed-in tab. -/
def SessionOwned (keyOf : Text → SymKey) (s : WebState) : Prop :=
  s.userKey=none ∨ (s.auth.isAuthenticated=true ∧ s.auth.isLocked=false ∧
    ∃ user,s.auth.user=some user ∧ Holding (keyOf user.email) s)

/-- What every complete step keeps. -/
structure Belongs (platform : Platform) (keyOf : Text → SymKey) (s : WebState) : Prop where
  /-- Stores. -/
  recorded : Recorded platform keyOf s
  /-- Session. -/
  session : SessionOwned keyOf s

/-- Nothing that the invariants read differs. -/
structure SameAccount (s s' : WebState) : Prop where
  /-- Auth store. -/
  auth : s'.auth=s.auth
  /-- Session key. -/
  userKey : s'.userKey=s.userKey
  /-- Key objects. -/
  keys : s'.keys=s.keys
  /-- Copies of the user key. -/
  wrappings : s'.wrappings=s.wrappings
  /-- PIN entry, unless it is removed. -/
  pin : s'.storage.pinBlob=s.storage.pinBlob ∨ s'.storage.pinBlob=none

/-- Effects that the invariants do not see. -/
def idleEffects : List Effect := [.passive,.keyRead,.installRsa,.client,.send,.pinStorage]

theorem exec_sameAccount {c : WebCall} (hc : effect c∈idleEffects) (s : WebState) :
    SameAccount s (exec c s).2 := by
  cases c with
  | removePinBlob => exact ⟨rfl,rfl,rfl,rfl,.inr rfl⟩
  | clearSessionKey => simp [idleEffects] at hc
  | setSessionUserKey key => simp [idleEffects] at hc
  | lock => simp [idleEffects] at hc
  | unlock token => simp [idleEffects] at hc
  | logout => simp [idleEffects] at hc
  | setServerUrl url => simp [idleEffects] at hc
  | login user accessToken refreshToken encryptedUserKey encryptedPrivateKey =>
    simp [idleEffects] at hc
  | setEncryptedUserKey text issued stretchedKey => simp [idleEffects] at hc
  | setPinBlob blob pin issued => simp [idleEffects] at hc
  | _ => exact ⟨rfl,rfl,rfl,rfl,.inl rfl⟩

theorem Recorded.same {s s' : WebState} (h : Recorded platform keyOf s) (hs : SameAccount s s') :
    Recorded platform keyOf s' := by
  refine ⟨?_,?_,?_,fun blob hblob => ?_⟩
  · rw [hs.auth]
    exact h.refresh
  · rw [hs.auth]
    exact h.user
  · rw [hs.auth]
    exact h.wrapped
  · rw [hs.wrappings]
    rcases hs.pin with hpin|hpin
    · exact h.pin blob (hpin ▸ hblob)
    · rw [hpin] at hblob
      cases hblob

theorem Holding.same {key : SymKey} {s s' : WebState} (h : Holding key s) (hs : SameAccount s s') :
    Holding key s' := by
  obtain ⟨cell,hcell,hkey⟩ := h
  exact ⟨cell,hs.userKey ▸ hcell,hs.keys ▸ hkey⟩

theorem Belongs.same {s s' : WebState} (h : Belongs platform keyOf s) (hs : SameAccount s s') :
    Belongs platform keyOf s' := by
  refine ⟨h.recorded.same hs,?_⟩
  rcases h.session with hnone|⟨hauth,hlocked,user,huser,hkey⟩
  · exact .inl (hs.userKey ▸ hnone)
  · refine .inr ⟨hs.auth ▸ hauth,hs.auth ▸ hlocked,user,hs.auth ▸ huser,hkey.same hs⟩

section Triples

variable {α : Type} {ok : Arrival Arrived → Prop} {I : WebState → Prop}

/-- A script without effects on accounts keeps what the invariants read. -/
theorem idle_ensures {R : α → Prop} {p : Web α}
    (hp : p.Obeys (fun c => effect c∈idleEffects) (fun _ _ => True) R)
    (hI : ∀ s s',I s → SameAccount s s' → I s') {s : WebState} (hs : I s) :
    Ensures exec ok (fun a s => R a ∧ I s) I p s :=
  Ensures.of_obeys (fun _ s hi hc => ⟨trivial,hI _ _ hi (exec_sameAccount hc s)⟩) hp hs

theorem idle_keyAccess (key : KeyRef) : KeyAccess (fun c => effect c∈idleEffects) key := by
  refine ⟨?_,?_,?_⟩
  all_goals intros; simp [idleEffects]

/-- `restoreRsaKey` does not reject. -/
theorem restoreRsaKey_ensures (text : Text) (cell : ℕ) (issued : SymKey) {E : WebState → Prop}
    (hI : ∀ s s',I s → SameAccount s s' → I s') {s : WebState} (hs : I s) :
    Ensures exec ok (fun _ => I) E (restoreRsaKey platform text cell issued) s := by
  unfold restoreRsaKey
  split
  · refine Ensures.rescue (E:=I) ?_ fun _ s h => h
    refine (idle_ensures (R:=fun _ => True) ?_ hI hs).mono (fun _ _ h => h.2) fun _ h => h
    refine (decryptRsaPrivateKey_obeys (idle_keyAccess _) text).bind fun rsaKey _ => ?_
    exact ⟨by simp [idleEffects],fun _ _ => trivial⟩
  · exact hs

/-- A key that was just installed, while the stores are as before. -/
theorem Recorded.install {s : WebState} (h : Recorded platform keyOf s) (key : SymKey) :
    Recorded platform keyOf (exec (.setSessionUserKey key) s).2 ∧
      Holding key (exec (.setSessionUserKey key) s).2 :=
  ⟨⟨h.refresh,h.user,h.wrapped,h.pin⟩,s.keys.length,rfl,List.getElem?_concat_length⟩

/-- `completeUnlock` with the key of the account on the page. -/
theorem completeUnlock_ensures {page : AuthState} {userKey : SymKey}
    (hkey : ∀ user,page.user=some user → userKey=keyOf user.email) {s : WebState}
    (hs : Belongs platform keyOf s ∧ s.auth=page) :
    Ensures exec ok (fun _ => Belongs platform keyOf) (Belongs platform keyOf)
      (completeUnlock platform page userKey) s := by
  have hstay : ∀ s s',Belongs platform keyOf s ∧ s.auth=page → SameAccount s s' →
      Belongs platform keyOf s' ∧ s'.auth=page :=
    fun s s' h hsame => ⟨h.1.same hsame,hsame.auth.trans h.2⟩
  have hidle {β : Type} {R : β → Prop} {p : Web β}
      (hp : p.Obeys (fun c => effect c∈idleEffects) (fun _ _ => True) R) {s : WebState}
      (hs : Belongs platform keyOf s ∧ s.auth=page) :
      Ensures exec ok (fun a s => R a ∧ Belongs platform keyOf s ∧ s.auth=page)
        (Belongs platform keyOf) p s :=
    (idle_ensures hp hstay hs).mono (fun _ _ h => h) fun _ h => h.1
  refine (hidle (perform_obeys (by simp [idleEffects])) hs).bind fun client s₁ h₁ => ?_
  dsimp only
  split
  · exact h₁.2.1
  · rename_i hrefresh
    refine (hidle (perform_obeys (by simp [idleEffects])) h₁.2).bind fun deviceId s₂ h₂ => ?_
    refine (hidle (refreshToken_obeys fun _ _ _ _ => by simp [idleEffects]) h₂.2).bind
      fun accessToken s₃ h₃ => ?_
    refine (hidle (perform_obeys (by simp [idleEffects])) h₃.2).bind fun _ s₄ h₄ => ?_
    obtain ⟨-,hbelongs,hauth⟩ := h₄
    -- From here to `unlock` the key is installed in a tab that is still locked.
    have hinstalled := hbelongs.recorded.install userKey
    refine Ensures.bind (Q:=fun _ s => Recorded platform keyOf s ∧ Holding userKey s ∧ s.auth=page)
      (p:=invoke (.setSessionUserKey userKey)) ⟨hinstalled.1,hinstalled.2,hauth⟩ fun cell s₅ h₅ => ?_
    have hstay' : ∀ s s',Recorded platform keyOf s ∧ Holding userKey s ∧ s.auth=page →
        SameAccount s s' → Recorded platform keyOf s' ∧ Holding userKey s' ∧ s'.auth=page :=
      fun s s' h hsame => ⟨h.1.same hsame,h.2.1.same hsame,hsame.auth.trans h.2.2⟩
    refine (restoreRsaKey_ensures _ cell userKey hstay' h₅).bind fun _ s₆ h₆ => ?_
    obtain ⟨hrecorded,hholding,hauth₆⟩ := h₆
    subst hauth₆
    have hsigned := hrecorded.refresh hrefresh
    obtain ⟨user,huser⟩ := hrecorded.user hsigned
    refine ⟨⟨hrecorded.refresh,hrecorded.user,hrecorded.wrapped,hrecorded.pin⟩,.inr ?_⟩
    exact ⟨hsigned,rfl,user,huser,hkey user huser ▸ hholding⟩

/-- An unlock with the master password. -/
theorem unlockWithPassword_ensures (password : Text) {s : WebState}
    (hs : Belongs platform keyOf s) :
    Ensures exec ok (fun _ => Belongs platform keyOf) (Belongs platform keyOf)
      (unlockWithPassword platform password) s := by
  refine Ensures.perform (show exec .authState s=(s.auth,s) from rfl) ?_
  dsimp only
  cases huser : s.auth.user with
  | none => exact hs
  | some user =>
    have hstay : ∀ s₁ s',Belongs platform keyOf s₁ ∧ s₁.auth=s.auth → SameAccount s₁ s' →
        Belongs platform keyOf s' ∧ s'.auth=s.auth :=
      fun s₁ s' h hsame => ⟨h.1.same hsame,hsame.auth.trans h.2⟩
    refine Ensures.rescue (E:=Belongs platform keyOf) ?_ fun _ s h => h
    refine ((idle_ensures (deriveLoginKeys_quiet _ _ _) hstay ⟨hs,rfl⟩).mono (fun _ _ h => h)
      fun _ h => h.1).bind fun keys s₁ h₁ => ?_
    split
    · exact h₁.2.1
    · rename_i hwrapped
      refine ((idle_ensures (unwrapUserKey_obeys _ _) hstay h₁.2).mono (fun _ _ h => h)
        fun _ h => h.1).bind fun userKey s₂ h₂ => ?_
      obtain ⟨hopen,hbelongs,hauth⟩ := h₂
      have hkey : ∀ user,s.auth.user=some user → userKey=keyOf user.email := by
        intro user' huser'
        have htext : ∃ text,s.auth.encryptedUserKey=some text := by
          cases hnone : s.auth.encryptedUserKey with
          | none => exact absurd (congrArg (Option.getD · []) hnone) hwrapped
          | some text => exact ⟨text,rfl⟩
        obtain ⟨text,htext⟩ := htext
        change unwrapped platform _ (s.auth.encryptedUserKey.getD [])=.ok userKey at hopen
        rw [htext] at hopen
        exact hs.recorded.wrapped user' text huser' htext _ _ hopen
      exact (completeUnlock_ensures hkey ⟨hbelongs,hauth⟩).bind fun _ s h => h

/-- An unlock with the PIN of the account. -/
theorem handlePinUnlock_ensures (hgcm : GcmExact platform) (pin : Text) {s : WebState}
    (hs : Belongs platform keyOf s) (hown : OwnPin keyOf s ⟨.pinUnlock pin,[]⟩) :
    Ensures exec ok (fun _ => Belongs platform keyOf) (Belongs platform keyOf)
      (handlePinUnlock platform pin) s := by
  have hstay : ∀ s₁ s',Belongs platform keyOf s₁ ∧ s₁.auth=s.auth → SameAccount s₁ s' →
      Belongs platform keyOf s' ∧ s'.auth=s.auth :=
    fun s₁ s' h hsame => ⟨h.1.same hsame,hsame.auth.trans h.2⟩
  have hpin : PinAccess fun c => effect c∈idleEffects := by
    refine ⟨?_,?_,?_,?_,?_,?_,?_⟩
    all_goals intros; simp [idleEffects]
  have hunlock : Ensures exec ok
      (fun userKey s₁ => (∀ user,s.auth.user=some user → userKey=keyOf user.email) ∧
        Belongs platform keyOf s₁ ∧ s₁.auth=s.auth) (Belongs platform keyOf)
      (unlockWithPin platform pin) s := by
    change Ensures exec ok _ _ (match s.storage.pinBlob with
      | none => (throw "No PIN set on this device".toList : Web SymKey)
      | some blob => _) s
    cases hblob : s.storage.pinBlob with
    | none => exact hs
    | some blob =>
      obtain ⟨pin₀,issued,hlast,hwraps⟩ := hs.recorded.pin blob hblob
      have hobeys : (openPinBlob platform pin blob).Obeys (fun c => effect c∈idleEffects)
          (fun _ _ => True) _ := openPinBlob_obeys hpin pin blob
      have hopened : Ensures exec ok _ _ (openPinBlob platform pin blob) s :=
        idle_ensures hobeys hstay ⟨hs,rfl⟩
      refine Ensures.rescue (E:=fun s₁ => Belongs platform keyOf s₁ ∧ s₁.auth=s.auth)
        (hopened.mono (fun userKey s₁ h => ⟨fun user huser => ?_,h.2⟩) fun _ h => h) fun _ s₁ h => ?_
      · obtain ⟨⟨bytes,hbytes,hkey⟩,-⟩ := h
        rw [hwraps.opened hgcm hbytes,symKeyFromBytes_toBytes] at hkey
        have hissued : userKey=issued := (Except.ok.inj hkey).symm
        rw [hissued]
        have hmine := hown (by simp [hblob]) user huser
        exact Option.some.inj (hlast.symm.trans hmine)
      · exact (idle_ensures (pinFailure_obeys (Q:=fun _ => False) hpin _) hstay h).mono
          (fun _ _ h => h.1.elim) fun _ h => h.1
  refine Ensures.rescue (E:=Belongs platform keyOf) ?_ fun _ s h => h
  refine hunlock.bind fun userKey s₁ h₁ => ?_
  exact (completeUnlock_ensures h₁.1 h₁.2).bind fun _ s h => h

/-- The answer to a request is a body that arrived. -/
theorem request_ensures {G : Json → Prop} (hempty : G .empty)
    (hbody : ∀ i json,ok i → i.value=.body json → G json) {client : ℕ} {method path : Text}
    {content : Body} {noAuth : Bool} (hsend : bodyEffect content∈idleEffects)
    (hI : ∀ s s',I s → SameAccount s s' → I s') {s : WebState} (hs : I s) :
    Ensures exec ok (fun json s => G json ∧ I s) I (request client method path content noAuth) s := by
  have hsent : I (exec (.fetch client method path noAuth content) s).2 :=
    hI _ _ hs (exec_sameAccount (c:=.fetch client method path noAuth content) hsend s)
  unfold request
  refine Ensures.bind (Q:=fun _ => I) (p:=invoke (.fetch client method path noAuth content)) hsent
    fun _ s₁ h₁ => ?_
  intro i _
  dsimp only [Script.bind]
  split
  · exact h₁
  · split
    · split
      · exact ⟨hempty,h₁⟩
      · intro j hj
        dsimp only [Script.bind]
        split
        · exact h₁
        · rename_i json hjson
          exact ⟨hbody j json hj hjson,h₁⟩
        · exact ⟨hempty,h₁⟩
    · intro j _
      exact h₁
  · exact h₁

/-- A sign-in with an honest server. -/
theorem doLogin_ensures (serverUrl email password : Text) (twoFactorToken : Option Text)
    (pending : Option PendingLogin)
    (hok : ∀ i,ok i → ∀ answer text,i.value=.body (.token answer) → answer.key=some text →
      OpensOnly platform text (keyOf email)) {s : WebState} (hs : Belongs platform keyOf s) :
    Ensures exec ok (fun _ => Belongs platform keyOf) (Belongs platform keyOf)
      (doLogin platform serverUrl email password twoFactorToken pending) s := by
  have hstay : ∀ s s',Belongs platform keyOf s → SameAccount s s' → Belongs platform keyOf s' :=
    fun s s' h hsame => h.same hsame
  refine Ensures.rescue (E:=Belongs platform keyOf) ?_ fun _ s h => h
  have hurl : Belongs platform keyOf (exec (.setServerUrl (stripSlash serverUrl)) s).2 :=
    ⟨⟨hs.recorded.refresh,hs.recorded.user,hs.recorded.wrapped,hs.recorded.pin⟩,hs.session⟩
  refine Ensures.bind (Q:=fun _ => Belongs platform keyOf)
    (p:=invoke (.setServerUrl (stripSlash serverUrl))) hurl fun _ s₁ h₁ => ?_
  refine (idle_ensures (perform_obeys (by simp [idleEffects])) hstay h₁).bind fun client s₂ h₂ => ?_
  have hkeys : Ensures exec ok (fun _ => Belongs platform keyOf) (Belongs platform keyOf)
      (loginKeys platform client (stripSlash serverUrl) email password
        (reusable pending twoFactorToken (stripSlash serverUrl) email)) s₂ := by
    cases reusable pending twoFactorToken (stripSlash serverUrl) email with
    | some kept => exact h₂.2
    | none =>
      have hpre : (prelogin client email).Obeys (fun c => effect c∈idleEffects) (fun _ _ => True)
          fun _ => True := by
        refine (request_obeys (by simp [idleEffects])).bind fun answer _ => ?_
        split <;> trivial
      refine (idle_ensures hpre hstay h₂.2).bind fun answer s h => ?_
      exact (idle_ensures (deriveLoginKeys_quiet _ _ _) hstay h.2).bind fun keys s h => h.2
  refine hkeys.bind fun keys s₃ h₃ => ?_
  refine (idle_ensures (perform_obeys (by simp [idleEffects])) hstay h₃).bind fun deviceId s₄ h₄ => ?_
  have htoken : Ensures exec ok
      (fun answer s => (∀ text,answer.key=some text → OpensOnly platform text (keyOf email)) ∧
        Belongs platform keyOf s) (Belongs platform keyOf)
      (loginWithPassword client email keys.authHash deviceId twoFactorToken) s₄ := by
    unfold loginWithPassword
    refine (request_ensures (G:=fun json => ∀ answer,json=.token answer → ∀ text,
      answer.key=some text → OpensOnly platform text (keyOf email)) (fun _ h => nomatch h) ?_
      (by simp [idleEffects]) hstay h₄.2).bind fun json s h => ?_
    · intro i json hi hvalue answer hjson text hkey
      exact hok i hi answer text (hjson ▸ hvalue) hkey
    · split
      · exact ⟨h.1 _ rfl,h.2⟩
      · exact h.2
  refine htoken.bind fun tokenRes s₅ h₅ => ?_
  refine (idle_ensures (perform_obeys (by simp [idleEffects])) hstay h₅.2).bind fun _ s₆ h₆ => ?_
  dsimp only
  split
  · exact h₆.2
  · rename_i hpresent
    have hopens : OpensOnly platform (tokenRes.key.getD []) (keyOf email) := by
      cases hkey : tokenRes.key with
      | none => exact absurd (congrArg (Option.getD · []) hkey) hpresent
      | some text => exact h₅.1 text hkey
    refine (idle_ensures (unwrapUserKey_obeys _ _) hstay h₆.2).bind fun userKey s₇ h₇ => ?_
    have hkey : userKey=keyOf email := hopens _ _ h₇.1
    subst hkey
    have hinstalled := h₇.2.recorded.install (keyOf email)
    refine Ensures.bind (Q:=fun _ s => Recorded platform keyOf s ∧ Holding (keyOf email) s)
      (p:=invoke (.setSessionUserKey (keyOf email))) hinstalled fun cell s₈ h₈ => ?_
    have hkept : ∀ s s',Recorded platform keyOf s ∧ Holding (keyOf email) s → SameAccount s s' →
        Recorded platform keyOf s' ∧ Holding (keyOf email) s' :=
      fun s s' h hsame => ⟨h.1.same hsame,h.2.same hsame⟩
    refine (restoreRsaKey_ensures _ cell (keyOf email) hkept h₈).bind fun _ s₉ h₉ => ?_
    have huser : (signedInUser email keys.kdfParams).email=email := by
      cases keys.kdfParams <;> rfl
    refine ⟨⟨fun _ => rfl,fun _ => ⟨_,rfl⟩,fun user text hu ht => ?_,h₉.1.pin⟩,.inr ?_⟩
    · cases hu
      cases ht
      rw [huser]
      exact hopens
    · exact ⟨rfl,rfl,_,rfl,huser.symm ▸ h₉.2⟩

/-- The calls of the PIN dialog once it holds a key. -/
def PinPre (platform : Platform) (cell : ℕ) (issued : SymKey) : WebCall → Prop
  | .randomBytes _ => True
  | .removePinAttempts => True
  | .encKey d => d=cell
  | .macKey d => d=cell
  | .setPinBlob blob pin key => key=issued ∧ Wraps platform blob pin issued
  | _ => False

/-- Each keeps the tab's account and the key in its place. -/
theorem exec_pinPre {cell : ℕ} {issued : SymKey} {c : WebCall} {s : WebState}
    (hs : Belongs platform keyOf s ∧ s.keys[cell]?=some issued) (hc : PinPre platform cell issued c) :
    KeyPost cell issued c (exec c s).1 ∧ Belongs platform keyOf (exec c s).2 ∧
      (exec c s).2.keys[cell]?=some issued := by
  refine ⟨exec_keyPost_live hs.2 c,?_⟩
  have hidle (hi : effect c∈idleEffects) : Belongs platform keyOf (exec c s).2 ∧
      (exec c s).2.keys[cell]?=some issued := by
    have hsame := exec_sameAccount hi s
    exact ⟨hs.1.same hsame,hsame.keys ▸ hs.2⟩
  cases c with
  | randomBytes n => exact hidle (by simp [idleEffects])
  | removePinAttempts => exact hidle (by simp [idleEffects])
  | encKey d => exact hidle (by simp [idleEffects])
  | macKey d => exact hidle (by simp [idleEffects])
  | setPinBlob blob pin key =>
    obtain ⟨rfl,hwraps⟩ := hc
    have hlast : lastPinKey (s.wrappings++[Wrapping.pin blob pin key])=some key := by
      simp [lastPinKey]
    refine ⟨⟨⟨hs.1.recorded.refresh,hs.1.recorded.user,hs.1.recorded.wrapped,?_⟩,hs.1.session⟩,hs.2⟩
    intro blob' hblob
    cases hblob
    exact ⟨pin,key,hlast,hwraps⟩
  | _ => exact absurd hc id

/-- A new PIN wraps the key that the session holds. -/
theorem pinSetup_ensures (first value : Text) {s : WebState} (hs : Belongs platform keyOf s) :
    Ensures exec ok (fun _ => Belongs platform keyOf) (Belongs platform keyOf)
      (pinSetup platform first value) s := by
  unfold pinSetup
  split
  · exact hs
  · unfold withSessionKey
    refine Ensures.perform (show exec .getSessionUserKey s=(s.getSessionUserKey,s) from rfl) ?_
    have hvalid : SessionValid s := by
      intro cell hcell
      rcases hs.session with hnone|⟨-,-,user,-,cell',hcell',hkey⟩
      · rw [hnone] at hcell
        cases hcell
      · cases hcell.symm.trans hcell'
        exact (List.getElem?_eq_some_iff.mp hkey).1
    cases hkey : s.getSessionUserKey with
    | none => exact hs
    | some key =>
      obtain ⟨cell,issued,rfl,hlive⟩ := getSessionUserKey_live hvalid hkey
      have hobeys : (pinWith platform value (.live cell issued)).Obeys (PinPre platform cell issued)
          (KeyPost cell issued) fun _ => True := by
        refine pinWith_obeys ⟨fun _ => trivial,?_,?_⟩ trivial ?_ value
        · intro d k he
          cases he
          exact rfl
        · intro d k he
          cases he
          exact rfl
        · exact fun blob pin hwraps => ⟨rfl,hwraps (keyPost_faithful cell issued)⟩
      have hcall : ∀ c s,Belongs platform keyOf s ∧ s.keys[cell]?=some issued →
          PinPre platform cell issued c → KeyPost cell issued c (exec c s).1 ∧
            Belongs platform keyOf (exec c s).2 ∧ (exec c s).2.keys[cell]?=some issued :=
        fun c s h hc => exec_pinPre h hc
      have hend : Ensures exec ok _ _ (pinWith platform value (.live cell issued)) s :=
        Ensures.of_obeys hcall hobeys ⟨hs,hlive⟩
      exact hend.mono (fun _ _ h => h.2.1) fun _ h => h.1

/-- What `clearSessionKey` leaves. -/
structure Cleared (s s' : WebState) : Prop where
  /-- Auth store. -/
  auth : s'.auth=s.auth
  /-- localStorage. -/
  storage : s'.storage=s.storage
  /-- Copies of the user key. -/
  wrappings : s'.wrappings=s.wrappings
  /-- No key. -/
  userKey : s'.userKey=none

theorem cleared (s : WebState) : Cleared s s.clearSessionKey := by
  unfold WebState.clearSessionKey
  split
  · exact ⟨rfl,rfl,rfl,rfl⟩
  · rename_i hnone
    exact ⟨rfl,rfl,rfl,hnone⟩

/-- A signed-out tab records no account. -/
theorem Recorded.signedOut {s : WebState} (hauth : s.auth.isAuthenticated=false)
    (huser : s.auth.user=none) (hrefresh : s.auth.refreshToken=none)
    (hpin : ∀ blob,s.storage.pinBlob=some blob →
      ∃ pin issued,lastPinKey s.wrappings=some issued ∧ Wraps platform blob pin issued) :
    Recorded platform keyOf s := by
  refine ⟨fun h => ?_,fun h => ?_,fun user text hu => ?_,hpin⟩
  · rw [hrefresh] at h
    exact absurd rfl h
  · rw [hauth] at h
    cases h
  · rw [huser] at hu
    cases hu

/-- Every complete step keeps the session key with its account. -/
theorem accountBody_ensures (hgcm : GcmExact platform) {step : AccountStep} {s : WebState}
    (hs : Belongs platform keyOf s) (hown : OwnPin keyOf s step) :
    Ensures exec (Honest platform keyOf step.op) (fun _ => Belongs platform keyOf)
      (Belongs platform keyOf) (accountBody platform step.op) s := by
  obtain ⟨op,arrivals⟩ := step
  have hclear := cleared s
  cases op with
  | login serverUrl email password twoFactorToken pending =>
    exact doLogin_ensures serverUrl email password twoFactorToken pending (fun i hi => hi) hs
  | logoutAndClear =>
    refine ⟨.signedOut rfl rfl rfl fun blob hblob => ?_,.inl hclear.userKey⟩
    exact hclear.wrappings ▸ hs.recorded.pin blob (hclear.storage ▸ hblob)
  | lockVault =>
    change Belongs platform keyOf {s.clearSessionKey with
      auth := s.clearSessionKey.auth.lock,vault := .empty}
    rw [hclear.auth]
    refine ⟨⟨hs.recorded.refresh,hs.recorded.user,hs.recorded.wrapped,fun blob hblob => ?_⟩,?_⟩
    · exact hclear.wrappings ▸ hs.recorded.pin blob (hclear.storage ▸ hblob)
    · exact .inl hclear.userKey
  | setPin first value => exact pinSetup_ensures first value hs
  | removePin =>
    have hgone := hs.same (exec_sameAccount (c:=.removePinBlob) (by simp [idleEffects]) s)
    exact hgone.same (exec_sameAccount (c:=.removePinAttempts) (by simp [idleEffects]) _)
  | passwordUnlock password => exact unlockWithPassword_ensures password hs
  | pinUnlock pin => exact handlePinUnlock_ensures hgcm pin hs hown

end Triples

/-- One complete step keeps the invariant. -/
theorem stepped_belongs (hgcm : GcmExact platform) (s : WebState) (step : AccountStep)
    (hs : Belongs platform keyOf s) (hok : Complete platform keyOf s step ∧ OwnPin keyOf s step) :
    Belongs platform keyOf (stepped platform s step) :=
  (accountBody_ensures hgcm hs hok.2).completed hok.1.2 hok.1.1

/-- In every sequence of complete steps of one tab over any number of
accounts, in which each PIN unlock uses an entry made from the user key of
the account in the auth store: whenever the tab is signed in, unlocked and
holds a session key, that key is the user key of the recorded account. -/
theorem session_key_of_account (platform : Platform) (keyOf : Text → SymKey)
    (hgcm : GcmExact platform) (device : Option Text) (origin : Text) (entropy : ℕ → UInt8)
    (steps : List AccountStep)
    (hcomplete : StepsAdmit platform (Complete platform keyOf)
      (.loaded .initial ⟨none,none,device⟩ origin entropy) steps)
    (hown : StepsAdmit platform (OwnPin keyOf)
      (.loaded .initial ⟨none,none,device⟩ origin entropy) steps)
    (s : WebState)
    (hs : s=runSteps platform (.loaded .initial ⟨none,none,device⟩ origin entropy) steps) :
    s.auth.isAuthenticated=true → s.auth.isLocked=false → ∀ cell,s.userKey=some cell →
      ∃ user,s.auth.user=some user ∧ s.keys[cell]?=some (keyOf user.email) := by
  intro _ _ cell hcell
  have hstart : Belongs platform keyOf (.loaded .initial ⟨none,none,device⟩ origin entropy) :=
    ⟨.signedOut rfl rfl rfl (fun _ hblob => nomatch hblob),.inl rfl⟩
  have hend : Belongs platform keyOf s := by
    rw [hs]
    exact StepRuns.run_invariant (stepped_belongs hgcm) hstart (hcomplete.and hown)
  rcases hend.session with hnone|⟨-,-,user,huser,cell',hcell',hkey⟩
  · rw [hnone] at hcell
    cases hcell
  · cases hcell.symm.trans hcell'
    exact ⟨user,huser,hkey⟩


section Samples

set_option maxRecDepth 4000

/-- Two accounts with different user keys. -/
def sampleKeyOf (email : Text) : SymKey := if email="a@b".toList then sampleKey else .zero

/-- The wrapped user key of an account whose password is `pw`. -/
def sampleWrapped (email : Text) : Text :=
  serializeEncString (sealed transparent (stretched transparent (utf8 "pw".toList))
    (List.replicate 16 0) (symKeyToBytes (sampleKeyOf email)))

/-- On the transparent platform a wrapped key opens to itself only. -/
theorem transparent_opensOnly (stretchedKey key : SymKey) {iv : Bytes} (hiv : iv.length=16) :
    OpensOnly transparent
      (serializeEncString (sealed transparent stretchedKey iv (symKeyToBytes key))) key := by
  intro stretchedKey' userKey hopen
  have hparse := @parseEncString_serialize (sealed transparent stretchedKey iv (symKeyToBytes key))
    hiv (by simp [sealed,transparent.hmac_length])
  rw [unwrapped,hparse] at hopen
  simp only [Bind.bind,Except.bind] at hopen
  split at hopen
  · cases hopen
  · rename_i raw hraw
    unfold openSealed at hraw
    split at hraw
    · split at hraw
      · rename_i data hdata
        have hsame : data=symKeyToBytes key := (transparent_exact iv hdata).2
        cases hraw
        rw [hsame,symKeyFromBytes_toBytes] at hopen
        exact (Except.ok.inj hopen).symm
      · cases hraw
    · cases hraw

/-- An arrival in a step. -/
def arrival (value : Arrived) : Arrival Arrived := ⟨[],value⟩

/-- Settled promises. -/
def settledTimes (n : ℕ) : List (Arrival Arrived) := List.replicate n (arrival .settled)

/-- The answers to a token request. -/
def tokenAnswer (key : Option Text) : List (Arrival Arrived) :=
  [arrival (.response 200 []),arrival (.body (.token ⟨"t".toList,"r".toList,key,none⟩))]

/-- A complete sign-in. -/
def signIn (email : Text) : AccountStep :=
  ⟨.login [] email "pw".toList none none,
    [arrival (.response 200 []),arrival (.body (.prelogin ⟨0,600000,none,none⟩))]++settledTimes 7++
      tokenAnswer (some (sampleWrapped email))++settledTimes 4⟩

/-- A complete PIN change. -/
def newPin : AccountStep := ⟨.setPin "1234".toList "1234".toList,settledTimes 3⟩

/-- A complete PIN unlock. -/
def pinUnlocked : AccountStep := ⟨.pinUnlock "1234".toList,settledTimes 3++tokenAnswer none⟩

/-- A tab on a new device. -/
def newTab : WebState := .loaded .initial ⟨none,none,none⟩ [] fun _ => 0

/-- The first account sets a PIN and signs out; the second signs in, locks and
unlocks with the PIN of the first. -/
def foreignPin : List AccountStep :=
  [signIn "a@b".toList,newPin,⟨.logoutAndClear,[]⟩,signIn "c@d".toList,⟨.lockVault,[]⟩,pinUnlocked]

/-- What the claim speaks about, as one value. -/
def sessionView (s : WebState) : Bool×Bool×Option Text×Option SymKey :=
  (s.auth.isAuthenticated,s.auth.isLocked,s.auth.user.map AuthUser.email,
    s.userKey.bind fun cell => s.keys[cell]?)

/-- Every step settles. -/
def allSettle : WebState → List AccountStep → Bool
  | _,[] => true
  | s,step::steps => (finish exec (accountBody transparent step.op) step.arrivals s).1.settled &&
    allSettle (stepped transparent s step) steps

theorem allSettle_complete {s : WebState} {steps : List AccountStep} (h : allSettle s steps=true)
    (hhonest : ∀ step∈steps,∀ i∈step.arrivals,Honest transparent sampleKeyOf step.op i) :
    StepsAdmit transparent (Complete transparent sampleKeyOf) s steps := by
  induction steps generalizing s with
  | nil => trivial
  | cons step steps ih =>
    rw [allSettle,Bool.and_eq_true] at h
    have hrest := ih h.2 fun step' hstep => hhonest step' (List.mem_cons_of_mem step hstep)
    exact ⟨⟨h.1,hhonest step List.mem_cons_self⟩,hrest⟩

theorem signIn_honest (email : Text) :
    ∀ i∈(signIn email).arrivals,Honest transparent sampleKeyOf (signIn email).op i := by
  intro i hi answer text hvalue hkey
  simp only [signIn,tokenAnswer,settledTimes,List.mem_append,List.mem_cons,List.mem_replicate,
    List.not_mem_nil,or_false] at hi
  rcases hi with ((((rfl|rfl)|⟨-,rfl⟩)|(rfl|rfl))|⟨-,rfl⟩)
  all_goals cases hvalue
  cases hkey
  exact transparent_opensOnly _ _ (List.length_replicate)

theorem foreignPin_complete :
    StepsAdmit transparent (Complete transparent sampleKeyOf) newTab foreignPin := by
  have hsettle : allSettle newTab foreignPin=true := by decide
  refine allSettle_complete hsettle fun step hstep i hi => ?_
  simp only [foreignPin,List.mem_cons,List.not_mem_nil,or_false] at hstep
  rcases hstep with rfl|rfl|rfl|rfl|rfl|rfl
  · exact signIn_honest _ i hi
  · trivial
  · trivial
  · exact signIn_honest _ i hi
  · trivial
  · trivial

/-- The tab of the second account ends unlocked with the key of the first. -/
theorem pin_unlock_installs_foreign_key :
    StepsAdmit transparent (Complete transparent sampleKeyOf) newTab foreignPin ∧
      sessionView (runSteps transparent newTab foreignPin)=
        (true,false,some "c@d".toList,some (sampleKeyOf "a@b".toList)) ∧
      sampleKeyOf "a@b".toList≠sampleKeyOf "c@d".toList := by
  refine ⟨foreignPin_complete,?_,?_⟩
  · decide
  · decide

/-- One account signs in, sets a PIN, locks and unlocks with it. -/
def ownPin : List AccountStep := [signIn "a@b".toList,newPin,⟨.lockVault,[]⟩,pinUnlocked]

theorem ownPin_complete : StepsAdmit transparent (Complete transparent sampleKeyOf) newTab ownPin := by
  have hsettle : allSettle newTab ownPin=true := by decide
  refine allSettle_complete hsettle fun step hstep i hi => ?_
  simp only [ownPin,List.mem_cons,List.not_mem_nil,or_false] at hstep
  rcases hstep with rfl|rfl|rfl|rfl
  · exact signIn_honest _ i hi
  · trivial
  · trivial
  · trivial

/-- The account and the key of the PIN entry before the PIN unlock. -/
theorem ownPin_entry :
    ((runSteps transparent newTab (ownPin.take 3)).auth.user.map AuthUser.email,
      lastPinKey (runSteps transparent newTab (ownPin.take 3)).wrappings)=
      (some "a@b".toList,some (sampleKeyOf "a@b".toList)) := by
  decide

theorem ownPin_owned : StepsAdmit transparent (OwnPin sampleKeyOf) newTab ownPin := by
  refine ⟨trivial,trivial,trivial,fun _ user huser => ?_,trivial⟩
  have hentry := Prod.mk.inj ownPin_entry
  have huser' : (runSteps transparent newTab (ownPin.take 3)).auth.user=some user := huser
  have hemail : user.email="a@b".toList := by
    have h := hentry.1
    rw [huser'] at h
    exact Option.some.inj h
  rw [hemail]
  exact hentry.2

theorem ownPin_signedIn : (runSteps transparent newTab ownPin).auth.isAuthenticated=true ∧
    (runSteps transparent newTab ownPin).auth.isLocked=false ∧
    (runSteps transparent newTab ownPin).userKey=some 1 := by
  decide

theorem session_key_of_account_sample :
    ∃ user,(runSteps transparent newTab ownPin).auth.user=some user ∧
      (runSteps transparent newTab ownPin).keys[1]?=some (sampleKeyOf user.email) := by
  have hkey := session_key_of_account transparent sampleKeyOf transparent_gcmExact none [] (fun _ => 0)
    ownPin ownPin_complete ownPin_owned (runSteps transparent newTab ownPin) rfl
  exact hkey ownPin_signedIn.1 ownPin_signedIn.2.1 1 ownPin_signedIn.2.2

end Samples

end NadSafe.WebAccounts
