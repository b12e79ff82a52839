import NadSafe.KeyAliasing

/-!
# Session sharing between tabs

Any number of tabs over one persisted auth store and one broadcast channel.
A tab asks with a nonce, every unlocked tab may answer with its own session,
and the first matching answer is adopted. Messages stay available once they
are posted, so they arrive in any order, late or at several tabs. An unlock
announcement only makes a tab ask, and a tab may ask at any time here.
-/

namespace NadSafe.CrossTab

open HostText AsyncScript AsyncScript.Script ScriptPool WireFormat WebCrypto WebClient WebScripts
open WebOperations KeyAliasing

/-- An account on a server. -/
structure Account where
  /-- Server origin. -/
  serverUrl : Text
  /-- Address of the account. -/
  email : Text
  deriving DecidableEq

/-- The account that an auth store records. -/
def accountOf (auth : AuthState) : Option Account :=
  auth.user.map fun user => ⟨auth.serverUrl,user.email⟩

/-- A tab with the nonces of its unanswered requests. -/
structure Tab where
  /-- Its stores and session. -/
  state : WebState
  /-- Nonces that it waits for. -/
  pending : List Text

/-- The messages of the channel that carry a nonce. -/
inductive Msg where
  /-- `REQUEST_KEY`. -/
  | requestKey (nonce : Text)
  /-- `KEY_RESPONSE`. -/
  | keyResponse (nonce : Text) (payload : SessionPayload)
  deriving DecidableEq

/-- An adoption, with the auth store at its moment. -/
structure Adoption where
  /-- The auth store just before. -/
  auth : AuthState
  /-- The adopted session. -/
  payload : SessionPayload
  deriving DecidableEq

/-- All tabs, what they share, and the adoptions so far. -/
structure World where
  /-- Open tabs. -/
  tabs : List Tab
  /-- The persisted part of the auth store. -/
  persisted : AuthState
  /-- Messages posted so far. -/
  posted : List Msg
  /-- Adoptions so far, for the specification only. -/
  adoptions : List Adoption

/-- `partialize`: lock state and access token are not persisted. -/
def partialize (auth : AuthState) : AuthState := {auth with isLocked := false,accessToken := none}

/-- The bytes of the session key. -/
def sessionKey (s : WebState) : Option SymKey := s.userKey.map fun cell => s.keys.getD cell .zero

/-- `currentPayload`. The key bytes are copied. -/
def currentPayload (s : WebState) : Option SessionPayload :=
  match sessionKey s with
  | none => none
  | some key =>
    if s.auth.isLocked=true ∨ s.auth.accessToken.getD []=[] then none
    else some ⟨key,s.rsaKey,s.auth.accessToken.getD [],s.auth.serverUrl⟩

/-- What a completed sign-in has obtained. -/
structure SignedIn where
  /-- Entered server address. -/
  serverUrl : Text
  /-- The account record. -/
  user : AuthUser
  /-- The unwrapped user key. -/
  userKey : SymKey
  /-- The RSA private key. -/
  rsaKey : Option Bytes
  /-- Bearer token. -/
  accessToken : Text
  /-- Refresh token. -/
  refreshToken : Text
  /-- Wrapped user key. -/
  encryptedUserKey : Text
  /-- Wrapped RSA private key. -/
  encryptedPrivateKey : Option Text

/-- The writes of a completed `doLogin`. -/
def completeLogin (login : SignedIn) : Web Unit := do
  let cleanUrl := stripSlash login.serverUrl
  invoke (.setServerUrl cleanUrl)
  let client ← invoke (.initApiClient cleanUrl)
  invoke (.setToken client login.accessToken)
  let _ ← invoke (.setSessionUserKey login.userKey)
  adoptRsaKey login.rsaKey
  invoke (.login login.user login.accessToken login.refreshToken login.encryptedUserKey
    login.encryptedPrivateKey)

/-- The writes of a completed `completeUnlock`; without a refresh token it
ends at its guard. -/
def installUnlock (userKey : SymKey) (rsaKey : Option Bytes) (accessToken : Text) : Web Unit := do
  let page ← invoke .authState
  let client ← invoke (.initApiClient page.serverUrl)
  if page.refreshToken.getD []=[] then pure ()
  else
    invoke (.setToken client accessToken)
    let _ ← invoke (.setSessionUserKey userKey)
    adoptRsaKey rsaKey
    invoke (.unlock accessToken)

/-- One step of one tab. -/
inductive TabEvent where
  /-- A tab is opened and reads the persisted auth store. -/
  | openTab (origin : Text) (entropy : ℕ → UInt8)
  /-- A sign-in completes. -/
  | login (tab : ℕ) (login : SignedIn)
  /-- `logoutAndClear`. -/
  | logout (tab : ℕ)
  /-- `lockVault`. -/
  | lock (tab : ℕ)
  /-- An unlock completes. -/
  | unlock (tab : ℕ) (userKey : SymKey) (rsaKey : Option Bytes) (accessToken : Text)
  /-- `adoptSessionFromOtherTab` posts its request. -/
  | request (tab : ℕ) (nonce : Text)
  /-- The responder of a tab receives this message. -/
  | respond (tab index : ℕ)
  /-- The waiting listener of a tab receives this message. -/
  | deliver (tab index : ℕ)
  /-- The timeout of a request. -/
  | timeout (tab : ℕ) (nonce : Text)

/-- Run store writes in one tab. The auth store is persisted whenever it is
written, also when nothing in it changes. -/
def inTab (W : World) (n : ℕ) (persists : AuthState → Bool) (writes : Web Unit) : World :=
  match W.tabs[n]? with
  | none => W
  | some tab =>
    let state := (settle exec writes tab.state).2
    {W with tabs := W.tabs.set n {tab with state := state}
            persisted := if persists tab.state.auth=true then partialize state.auth else W.persisted}

/-- An unlock writes the auth store unless it ends at its guard. -/
def hasRefreshToken (auth : AuthState) : Bool := auth.refreshToken.getD []≠[]

/-- One step. -/
def step (W : World) : TabEvent → World
  | .openTab origin entropy =>
    {W with tabs := W.tabs++[⟨.loaded W.persisted ⟨none,none,none⟩ origin entropy,[]⟩]}
  | .login n login => inTab W n (fun _ => true) (completeLogin login)
  | .logout n => inTab W n (fun _ => true) logoutAndClear
  | .lock n => inTab W n (fun _ => true) lockVault
  | .unlock n userKey rsaKey accessToken =>
    inTab W n hasRefreshToken (installUnlock userKey rsaKey accessToken)
  | .request n nonce =>
    match W.tabs[n]? with
    | none => W
    | some tab =>
      {W with tabs := W.tabs.set n {tab with pending := nonce::tab.pending}
              posted := W.posted++[Msg.requestKey nonce]}
  | .respond n index =>
    match W.tabs[n]?,W.posted[index]? with
    | some tab,some (.requestKey nonce) =>
      match currentPayload tab.state with
      | none => W
      | some payload => {W with posted := W.posted++[Msg.keyResponse nonce payload]}
    | _,_ => W
  | .deliver n index =>
    match W.tabs[n]?,W.posted[index]? with
    | some tab,some (.keyResponse nonce payload) =>
      if nonce∈tab.pending then
        let state := (settle exec (adopt payload) tab.state).2
        {W with tabs := W.tabs.set n ⟨state,tab.pending.erase nonce⟩
                persisted := partialize state.auth
                adoptions := W.adoptions++[⟨tab.state.auth,payload⟩]}
      else W
    | _,_ => W
  | .timeout n nonce =>
    match W.tabs[n]? with
    | none => W
    | some tab => {W with tabs := W.tabs.set n {tab with pending := tab.pending.erase nonce}}

/-- No tab is open and nothing is persisted. -/
def World.start : World := ⟨[],.initial,[],[]⟩

section Conditions

variable (keyOf : Account → SymKey) (TokenOf : Account → Text → Prop)

/-- Sign-ins and unlocks obtain the user key of the tab's account and a token
that the server issued for it, and nonces are fresh. -/
def Honest (W : World) : TabEvent → Prop
  | .login _ login => login.userKey=keyOf ⟨stripSlash (stripSlash login.serverUrl),login.user.email⟩ ∧
    TokenOf ⟨stripSlash (stripSlash login.serverUrl),login.user.email⟩ login.accessToken
  | .unlock n userKey _ accessToken => ∀ tab account,W.tabs[n]?=some tab →
    accountOf tab.state.auth=some account → userKey=keyOf account ∧ TokenOf account accessToken
  | .request _ nonce => ∀ payload,.keyResponse nonce payload∉W.posted
  | _ => True

/-- The conditions: only a signed-in tab asks; a tab neither signs in nor
signs out while it waits for an answer; and a tab answers only requests of
tabs that are signed in to its own account and server. -/
def SameAccountOnly (W : World) : TabEvent → Prop
  | .request n _ => ∀ tab,W.tabs[n]?=some tab → tab.state.auth.isAuthenticated=true
  | .login n _ => ∀ tab,W.tabs[n]?=some tab → tab.pending=[]
  | .logout n => ∀ tab,W.tabs[n]?=some tab → tab.pending=[]
  | .respond n index => ∀ tab nonce,W.tabs[n]?=some tab → W.posted[index]?=some (.requestKey nonce) →
    currentPayload tab.state≠none → ∀ other∈W.tabs,nonce∈other.pending →
      accountOf other.state.auth=accountOf tab.state.auth
  | _ => True

/-- A session of the account that an auth store records. -/
def Fits (payload : SessionPayload) (auth : AuthState) : Prop :=
  ∃ account,accountOf auth=some account ∧ payload.key=keyOf account ∧
    TokenOf account payload.accessToken ∧ payload.serverUrl=account.serverUrl

/-- An auth store whose tokens are those of its account. -/
structure AuthOwned (auth : AuthState) : Prop where
  /-- A signed-in store records an account. -/
  signed : auth.isAuthenticated=true → ∃ account,accountOf auth=some account
  /-- Its access token was issued for that account. -/
  token : ∀ token,auth.accessToken=some token →
    ∃ account,accountOf auth=some account ∧ TokenOf account token
  /-- Only a signed-in store has a refresh token. -/
  refresh : auth.refreshToken.getD []≠[] → auth.isAuthenticated=true

/-- An auth store and a session key of one account. -/
structure SessionOwned (auth : AuthState) (key : Option SymKey) : Prop extends AuthOwned TokenOf auth where
  /-- Only a signed-in tab has a session key, the one of its account. -/
  key : ∀ userKey,key=some userKey → auth.isAuthenticated=true ∧
    ∃ account,accountOf auth=some account ∧ userKey=keyOf account

/-- A tab whose session is the one of its account. -/
structure TabOwned (tab : Tab) : Prop where
  /-- The auth store and the session key. -/
  session : SessionOwned keyOf TokenOf tab.state.auth (sessionKey tab.state)
  /-- Only a signed-in tab waits. -/
  pending : ∀ nonce∈tab.pending,tab.state.auth.isAuthenticated=true

/-- The invariant of all tabs and messages. -/
structure WorldOwned (W : World) : Prop where
  /-- Tabs. -/
  tabs : ∀ tab∈W.tabs,TabOwned keyOf TokenOf tab
  /-- The persisted store. -/
  persisted : AuthOwned TokenOf W.persisted
  /-- An answer that a tab waits for is one of its own account. -/
  answers : ∀ nonce payload,.keyResponse nonce payload∈W.posted → ∀ tab∈W.tabs,nonce∈tab.pending →
    Fits keyOf TokenOf payload tab.state.auth
  /-- Every adoption was made by a signed-in tab from its own account. -/
  adoptions : ∀ a∈W.adoptions,a.auth.isAuthenticated=true ∧ Fits keyOf TokenOf a.payload a.auth

end Conditions

section Writes

/-- The auth store and session key that a sequence of writes leaves. -/
structure Leaves (writes : Web Unit) (s : WebState) (auth : AuthState) (key : Option SymKey) : Prop where
  /-- Auth store. -/
  auth : (settle exec writes s).2.auth=auth
  /-- Session key. -/
  key : sessionKey (settle exec writes s).2=key

theorem lockVault_leaves (s : WebState) : Leaves lockVault s s.auth.lock none := by
  have hend : (settle exec lockVault s).2=
      {s.clearSessionKey with auth := s.clearSessionKey.auth.lock,vault := .empty} := rfl
  cases hk : s.userKey with
  | none => constructor <;> simp [hend,WebState.clearSessionKey,sessionKey,hk]
  | some cell => constructor <;> simp [hend,WebState.clearSessionKey,sessionKey,hk]

theorem logoutAndClear_leaves (s : WebState) : Leaves logoutAndClear s s.auth.logout none := by
  have hend : (settle exec logoutAndClear s).2=
      {s.clearSessionKey with auth := s.clearSessionKey.auth.logout,vault := .empty} := rfl
  cases hk : s.userKey with
  | none => constructor <;> simp [hend,WebState.clearSessionKey,sessionKey,hk]
  | some cell => constructor <;> simp [hend,WebState.clearSessionKey,sessionKey,hk]

/-- An installed key is the session key, whatever client is created with it. -/
theorem sessionKey_installed {s : WebState} {keys : List SymKey} {key : SymKey}
    (hkeys : s.keys=keys++[key]) (hcell : s.userKey=some keys.length) : sessionKey s=some key := by
  rw [sessionKey,hcell,hkeys]
  simp

theorem completeLogin_leaves (login : SignedIn) (s : WebState) : Leaves (completeLogin login) s
    ((s.auth.setServerUrl (stripSlash login.serverUrl)).login login.user login.accessToken
      login.refreshToken login.encryptedUserKey login.encryptedPrivateKey) (some login.userKey) := by
  unfold completeLogin
  cases login.rsaKey with
  | none => exact ⟨rfl,sessionKey_installed rfl rfl⟩
  | some rsaKey => exact ⟨rfl,sessionKey_installed rfl rfl⟩

theorem adopt_leaves (p : SessionPayload) (s : WebState) :
    Leaves (adopt p) s (s.auth.unlock p.accessToken) (some p.key) := by
  unfold adopt
  cases p.rsaKey with
  | none => exact ⟨rfl,sessionKey_installed rfl rfl⟩
  | some rsaKey => exact ⟨rfl,sessionKey_installed rfl rfl⟩

theorem installUnlock_leaves (userKey : SymKey) (rsaKey : Option Bytes) (accessToken : Text)
    (s : WebState) :
    (hasRefreshToken s.auth=false ∧ Leaves (installUnlock userKey rsaKey accessToken) s s.auth (sessionKey s)) ∨
      (hasRefreshToken s.auth=true ∧ Leaves (installUnlock userKey rsaKey accessToken) s
        (s.auth.unlock accessToken) (some userKey)) := by
  have hend : settle exec (installUnlock userKey rsaKey accessToken) s=settle exec
      (if s.auth.refreshToken.getD []=[] then (pure () : Web Unit)
        else do
          invoke (.setToken s.clients.length accessToken)
          let _ ← invoke (.setSessionUserKey userKey)
          adoptRsaKey rsaKey
          invoke (.unlock accessToken)) (s.initApiClient s.auth.serverUrl) := rfl
  by_cases hrefresh : s.auth.refreshToken.getD []=[]
  · rw [if_pos hrefresh] at hend
    refine .inl ⟨by simp [hasRefreshToken,hrefresh],?_,?_⟩
    · rw [hend]
      rfl
    · rw [hend]
      rfl
  · rw [if_neg hrefresh] at hend
    refine .inr ⟨by simp [hasRefreshToken,hrefresh],?_,?_⟩
    · rw [hend]
      cases rsaKey <;> rfl
    · rw [hend]
      cases rsaKey <;> exact sessionKey_installed rfl rfl

end Writes

section Invariant

variable {keyOf : Account → SymKey} {TokenOf : Account → Text → Prop} {W : World} {n : ℕ} {tab : Tab}
variable {auth auth' : AuthState}

/-- A fitting session is judged by the account alone. -/
theorem Fits.congr {payload : SessionPayload} (h : Fits keyOf TokenOf payload auth)
    (hsame : accountOf auth'=accountOf auth) : Fits keyOf TokenOf payload auth' := by
  obtain ⟨account,hauth,hrest⟩ := h
  exact ⟨account,hsame.trans hauth,hrest⟩

/-- What is persisted of an owned store is owned. -/
theorem AuthOwned.partialize (h : AuthOwned TokenOf auth) : AuthOwned TokenOf (partialize auth) :=
  ⟨h.signed,fun _ ht => (nomatch ht),h.refresh⟩

theorem AuthOwned.lock (h : AuthOwned TokenOf auth) : SessionOwned keyOf TokenOf auth.lock none :=
  ⟨⟨h.signed,fun _ ht => (nomatch ht),h.refresh⟩,fun _ hk => nomatch hk⟩

theorem logout_owned (auth : AuthState) : SessionOwned keyOf TokenOf auth.logout none :=
  ⟨⟨fun h => (nomatch h),fun _ ht => (nomatch ht),fun h => absurd rfl h⟩,fun _ hk => nomatch hk⟩

/-- A signed-in store unlocked with a key and a token of its account. -/
theorem AuthOwned.unlock {account : Account} {userKey : SymKey} {token : Text}
    (h : AuthOwned TokenOf auth) (hsigned : auth.isAuthenticated=true)
    (haccount : accountOf auth=some account) (hkey : userKey=keyOf account)
    (htoken : TokenOf account token) :
    SessionOwned keyOf TokenOf (auth.unlock token) (some userKey) := by
  refine ⟨⟨h.signed,fun t ht => ⟨account,haccount,?_⟩,h.refresh⟩,fun k hk => ⟨hsigned,account,haccount,?_⟩⟩
  · cases ht
    exact htoken
  · cases hk
    exact hkey

theorem login_owned {user : AuthUser} {userKey : SymKey} {token refresh wrapped : Text}
    {wrappedPrivate : Option Text} (hkey : userKey=keyOf ⟨auth.serverUrl,user.email⟩)
    (htoken : TokenOf ⟨auth.serverUrl,user.email⟩ token) :
    SessionOwned keyOf TokenOf (auth.login user token refresh wrapped wrappedPrivate)
      (some userKey) := by
  refine ⟨⟨fun _ => ⟨_,rfl⟩,fun t ht => ⟨_,rfl,?_⟩,fun _ => rfl⟩,fun k hk => ⟨rfl,_,rfl,?_⟩⟩
  · cases ht
    exact htoken
  · cases hk
    exact hkey

/-- A payload is the session of the answering tab. -/
theorem currentPayload_eq_some {s : WebState} {payload : SessionPayload}
    (h : currentPayload s=some payload) : sessionKey s=some payload.key ∧
      s.auth.accessToken=some payload.accessToken ∧ payload.serverUrl=s.auth.serverUrl := by
  unfold currentPayload at h
  split at h
  · cases h
  · rename_i key hkey
    split at h
    · cases h
    · rename_i hopen
      cases h
      refine ⟨hkey,?_,rfl⟩
      cases htoken : s.auth.accessToken with
      | none => exact absurd (.inr (by simp [htoken])) hopen
      | some token => rfl

/-- An owned tab answers with a session of its own account. -/
theorem TabOwned.fits {payload : SessionPayload} (h : TabOwned keyOf TokenOf tab)
    (hp : currentPayload tab.state=some payload) : Fits keyOf TokenOf payload tab.state.auth := by
  obtain ⟨hkey,htoken,hurl⟩ := currentPayload_eq_some hp
  obtain ⟨-,account,haccount,hk⟩ := h.session.key _ hkey
  obtain ⟨account',haccount',ht⟩ := h.session.token _ htoken
  have hsame : account=account' := by
    rw [haccount] at haccount'
    exact Option.some.inj haccount'
  subst hsame
  refine ⟨account,haccount,hk,ht,hurl.trans ?_⟩
  unfold accountOf at haccount
  cases huser : tab.state.auth.user with
  | none => simp [huser] at haccount
  | some user =>
    rw [huser] at haccount
    cases haccount
    rfl

/-- Exchange one tab for another that waits for no new answer. -/
theorem WorldOwned.replace {tab' : Tab} {persisted : AuthState} {adoptions : List Adoption}
    (h : WorldOwned keyOf TokenOf W) (htab : W.tabs[n]?=some tab) (howned : TabOwned keyOf TokenOf tab')
    (hpending : ∀ nonce∈tab'.pending,nonce∈tab.pending ∧
      accountOf tab'.state.auth=accountOf tab.state.auth)
    (hpersisted : AuthOwned TokenOf persisted)
    (hadoptions : ∀ a∈adoptions,a.auth.isAuthenticated=true ∧ Fits keyOf TokenOf a.payload a.auth) :
    WorldOwned keyOf TokenOf
      {W with tabs := W.tabs.set n tab',persisted := persisted,adoptions := adoptions} := by
  refine ⟨fun t ht => ?_,hpersisted,fun nonce payload hposted t ht hwait => ?_,hadoptions⟩
  · rcases List.mem_or_eq_of_mem_set ht with ht | rfl
    · exact h.tabs t ht
    · exact howned
  · rcases List.mem_or_eq_of_mem_set ht with ht | rfl
    · exact h.answers nonce payload hposted t ht hwait
    · have hold := h.answers nonce payload hposted tab (List.mem_of_getElem? htab) (hpending nonce hwait).1
      exact hold.congr (hpending nonce hwait).2

/-- Store writes that leave an owned session. A waiting tab must stay signed in
to its account. -/
theorem WorldOwned.inTab {persists : AuthState → Bool} {writes : Web Unit}
    (h : WorldOwned keyOf TokenOf W)
    (hw : ∀ tab,W.tabs[n]?=some tab → ∃ auth key,Leaves writes tab.state auth key ∧
      SessionOwned keyOf TokenOf auth key ∧ (tab.pending=[] ∨ accountOf auth=accountOf tab.state.auth ∧
        auth.isAuthenticated=tab.state.auth.isAuthenticated)) :
    WorldOwned keyOf TokenOf (inTab W n persists writes) := by
  unfold CrossTab.inTab
  cases htab : W.tabs[n]? with
  | none => exact h
  | some tab =>
    obtain ⟨auth,key,hleaves,hsession,hsame⟩ := hw tab htab
    have hauth : AuthOwned TokenOf (settle exec writes tab.state).2.auth := by
      rw [hleaves.auth]
      exact hsession.toAuthOwned
    refine h.replace htab ⟨?_,fun nonce hnonce => ?_⟩ (fun nonce hnonce => ?_) ?_ h.adoptions
    · rw [hleaves.auth,hleaves.key]
      exact hsession
    · rcases hsame with hnone | ⟨-,hsame⟩
      · simp [hnone] at hnonce
      · rw [hleaves.auth,hsame]
        exact (h.tabs tab (List.mem_of_getElem? htab)).pending nonce hnonce
    · rcases hsame with hnone | ⟨hsame,-⟩
      · simp [hnone] at hnonce
      · rw [hleaves.auth]
        exact ⟨hnonce,hsame⟩
    · split
      · exact hauth.partialize
      · exact h.persisted

/-- The store writes of a tab. -/
theorem unlock_owned {userKey : SymKey} {rsaKey : Option Bytes} {token : Text}
    (h : TabOwned keyOf TokenOf tab)
    (hhonest : ∀ account,accountOf tab.state.auth=some account →
      userKey=keyOf account ∧ TokenOf account token) :
    ∃ auth key,Leaves (installUnlock userKey rsaKey token) tab.state auth key ∧
      SessionOwned keyOf TokenOf auth key ∧ (tab.pending=[] ∨ accountOf auth=accountOf tab.state.auth ∧
        auth.isAuthenticated=tab.state.auth.isAuthenticated) := by
  rcases installUnlock_leaves userKey rsaKey token tab.state with ⟨-,hleaves⟩ | ⟨hrefresh,hleaves⟩
  · exact ⟨_,_,hleaves,h.session,.inr ⟨rfl,rfl⟩⟩
  · have hsigned := h.session.refresh (by simpa [hasRefreshToken] using hrefresh)
    obtain ⟨account,haccount⟩ := h.session.signed hsigned
    obtain ⟨hkey,htoken⟩ := hhonest account haccount
    exact ⟨_,_,hleaves,h.session.toAuthOwned.unlock hsigned haccount hkey htoken,.inr ⟨rfl,rfl⟩⟩

/-- A posted request adds a fresh nonce to one tab. -/
theorem WorldOwned.request {nonce : Text} (h : WorldOwned keyOf TokenOf W)
    (hfresh : Honest keyOf TokenOf W (.request n nonce))
    (hsigned : SameAccountOnly W (.request n nonce)) :
    WorldOwned keyOf TokenOf (step W (.request n nonce)) := by
  rw [step]
  cases htab : W.tabs[n]? with
  | none => exact h
  | some tab =>
    have howned := h.tabs tab (List.mem_of_getElem? htab)
    refine ⟨fun t ht => ?_,h.persisted,fun nonce' payload hposted t ht hwait => ?_,h.adoptions⟩
    · rcases List.mem_or_eq_of_mem_set ht with ht | rfl
      · exact h.tabs t ht
      · exact ⟨howned.session,fun _ _ => hsigned tab htab⟩
    · have hold : .keyResponse nonce' payload∈W.posted := by simpa using hposted
      rcases List.mem_or_eq_of_mem_set ht with ht | rfl
      · exact h.answers nonce' payload hold t ht hwait
      · rcases List.mem_cons.mp hwait with rfl | hwait
        · exact absurd hold (hfresh payload)
        · exact h.answers nonce' payload hold tab (List.mem_of_getElem? htab) hwait

/-- An answer to tabs of the answering account. -/
theorem WorldOwned.respond {index : ℕ} (h : WorldOwned keyOf TokenOf W)
    (hsame : SameAccountOnly W (.respond n index)) :
    WorldOwned keyOf TokenOf (step W (.respond n index)) := by
  rw [step]
  split
  · rename_i tab nonce htab hrequest
    cases hp : currentPayload tab.state with
    | none => exact h
    | some payload =>
      have hfits := (h.tabs tab (List.mem_of_getElem? htab)).fits hp
      refine ⟨h.tabs,h.persisted,fun nonce' payload' hposted t ht hwait => ?_,h.adoptions⟩
      rcases List.mem_append.mp hposted with hposted | hposted
      · exact h.answers nonce' payload' hposted t ht hwait
      · cases List.mem_singleton.mp hposted
        exact hfits.congr (hsame tab nonce htab hrequest (by simp [hp]) t ht hwait)
  · exact h

/-- An adoption installs a session of the adopting tab's account. -/
theorem WorldOwned.deliver {index : ℕ} (h : WorldOwned keyOf TokenOf W) :
    WorldOwned keyOf TokenOf (step W (.deliver n index)) := by
  rw [step]
  split
  · rename_i tab nonce payload htab hanswer
    by_cases hwait : nonce∈tab.pending
    · have hmem := List.mem_of_getElem? htab
      have howned := h.tabs tab hmem
      have hsigned := howned.pending nonce hwait
      have hfits := h.answers nonce payload (List.mem_of_getElem? hanswer) tab hmem hwait
      have ⟨account,haccount,hkey,htoken,_⟩ := hfits
      have hsession : SessionOwned keyOf TokenOf (tab.state.auth.unlock payload.accessToken)
          (some payload.key) := howned.session.toAuthOwned.unlock hsigned haccount hkey htoken
      have hleaves := adopt_leaves payload tab.state
      rw [if_pos hwait]
      refine h.replace htab ⟨?_,fun _ _ => ?_⟩ (fun nonce' hnonce => ⟨List.mem_of_mem_erase hnonce,?_⟩) ?_
        (fun a ha => ?_)
      · rw [hleaves.auth,hleaves.key]
        exact hsession
      · rw [hleaves.auth]
        exact hsigned
      · rw [hleaves.auth]
        rfl
      · rw [hleaves.auth]
        exact hsession.toAuthOwned.partialize
      · rcases List.mem_append.mp ha with ha | ha
        · exact h.adoptions a ha
        · cases List.mem_singleton.mp ha
          exact ⟨hsigned,hfits⟩
    · rw [if_neg hwait]
      exact h
  · exact h

/-- One step of one tab keeps every session with its account. -/
theorem step_owned (W : World) (e : TabEvent) (h : WorldOwned keyOf TokenOf W)
    (hok : Honest keyOf TokenOf W e ∧ SameAccountOnly W e) : WorldOwned keyOf TokenOf (step W e) := by
  cases e with
  | openTab origin entropy =>
    have hnew : TabOwned keyOf TokenOf ⟨.loaded W.persisted ⟨none,none,none⟩ origin entropy,[]⟩ :=
      ⟨⟨h.persisted,fun _ hk => nomatch hk⟩,fun _ hm => nomatch hm⟩
    refine ⟨fun t ht => ?_,h.persisted,fun nonce payload hposted t ht hwait => ?_,h.adoptions⟩
    · rcases List.mem_append.mp ht with ht | ht
      · exact h.tabs t ht
      · cases List.mem_singleton.mp ht
        exact hnew
    · rcases List.mem_append.mp ht with ht | ht
      · exact h.answers nonce payload hposted t ht hwait
      · cases List.mem_singleton.mp ht
        cases hwait
  | login n login =>
    rw [step]
    refine h.inTab fun tab htab => ⟨_,_,completeLogin_leaves login tab.state,?_,.inl (hok.2 tab htab)⟩
    exact login_owned hok.1.1 hok.1.2
  | logout n =>
    rw [step]
    refine h.inTab fun tab htab => ⟨_,_,logoutAndClear_leaves tab.state,?_,.inl (hok.2 tab htab)⟩
    exact logout_owned _
  | lock n =>
    rw [step]
    refine h.inTab fun tab htab => ⟨_,_,lockVault_leaves tab.state,?_,.inr ⟨rfl,rfl⟩⟩
    exact (h.tabs tab (List.mem_of_getElem? htab)).session.toAuthOwned.lock
  | unlock n userKey rsaKey accessToken =>
    refine h.inTab fun tab htab => ?_
    exact unlock_owned (h.tabs tab (List.mem_of_getElem? htab)) fun account => hok.1 tab account htab
  | request n nonce => exact h.request hok.1 hok.2
  | respond n index => exact h.respond hok.2
  | deliver n index => exact h.deliver
  | timeout n nonce =>
    rw [step]
    cases htab : W.tabs[n]? with
    | none => exact h
    | some tab =>
      have howned := h.tabs tab (List.mem_of_getElem? htab)
      refine h.replace htab ⟨howned.session,fun nonce' hnonce => ?_⟩ (fun nonce' hnonce => ?_) h.persisted
        h.adoptions
      · exact howned.pending nonce' (List.mem_of_mem_erase hnonce)
      · exact ⟨List.mem_of_mem_erase hnonce,rfl⟩

theorem start_owned : WorldOwned keyOf TokenOf World.start :=
  ⟨fun _ ht => (nomatch ht),⟨fun h => (nomatch h),fun _ ht => (nomatch ht),fun h => absurd rfl h⟩,
    fun _ _ hp => (nomatch hp),fun _ ha => (nomatch ha)⟩

end Invariant

/-- In every run that meets the conditions, whenever a tab adopts a session it
is signed in, and the key, the token and the server are those of its account. -/
theorem adoptions_within_account (keyOf : Account → SymKey) (TokenOf : Account → Text → Prop)
    (events : List TabEvent) (hhonest : StepRuns.Admits step (Honest keyOf TokenOf) .start events)
    (hsame : StepRuns.Admits step SameAccountOnly .start events) :
    ∀ a∈(StepRuns.run step .start events).adoptions,a.auth.isAuthenticated=true ∧
      ∃ account,accountOf a.auth=some account ∧ a.payload.key=keyOf account ∧
        TokenOf account a.payload.accessToken ∧ a.payload.serverUrl=account.serverUrl :=
  (StepRuns.run_invariant step_owned start_owned (hhonest.and hsame)).adoptions

section Samples

/-- The user key of each sample account. -/
def sampleKeyOf (account : Account) : SymKey :=
  if account.email="a".toList then sampleKey else .zero

/-- The token of a sample account is its address. -/
def SampleToken (account : Account) (token : Text) : Prop := token=account.email

/-- A sign-in to the sample server. -/
def signIn (email : Text) : SignedIn :=
  ⟨"s".toList,⟨email,.pbkdf2,⟨none,none,none,none⟩⟩,sampleKeyOf ⟨"s".toList,email⟩,none,email,
    "r".toList,[],none⟩

/-- A new tab of the sample browser. -/
def newTab : TabEvent := .openTab [] fun _ => 0

/-- The second tab was opened under one account; the first tab then signs in
to another and answers the second. -/
def switchedAccount : List TabEvent :=
  [newTab,.login 0 (signIn "a".toList),newTab,.logout 0,.login 0 (signIn "b".toList),
    .request 1 "n".toList,.respond 0 0,.deliver 1 1]

theorem switchedAccount_honest :
    StepRuns.Admits step (Honest sampleKeyOf SampleToken) .start switchedAccount := by
  have hposted : (StepRuns.run step .start (switchedAccount.take 5)).posted=[] := by decide
  refine ⟨trivial,⟨rfl,rfl⟩,trivial,trivial,⟨rfl,rfl⟩,fun payload hmem => ?_,trivial,trivial,trivial⟩
  exact absurd (hposted ▸ hmem) List.not_mem_nil

theorem switchedAccount_adoption :
    (StepRuns.run step .start switchedAccount).adoptions.map
      (fun a => (accountOf a.auth,a.payload.key,a.payload.accessToken))=
        [(some ⟨"s".toList,"a".toList⟩,.zero,"b".toList)] := by
  decide

/-- The second tab adopts the key and the token of an account that is not its
own. -/
theorem foreign_session_adopted :
    StepRuns.Admits step (Honest sampleKeyOf SampleToken) .start switchedAccount ∧
      ∃ a∈(StepRuns.run step .start switchedAccount).adoptions,∃ account,
        accountOf a.auth=some account ∧ a.payload.key≠sampleKeyOf account ∧
          ¬SampleToken account a.payload.accessToken := by
  refine ⟨switchedAccount_honest,?_⟩
  have hall := switchedAccount_adoption
  obtain ⟨a,ha,hvalue⟩ := List.mem_map.mp (hall ▸ List.mem_singleton.mpr rfl :
    ((some ⟨"s".toList,"a".toList⟩,SymKey.zero,"b".toList) : Option Account × SymKey × Text)∈_)
  obtain ⟨haccount,hkey,htoken⟩ := Prod.mk.inj hvalue |>.imp id Prod.mk.inj
  refine ⟨a,ha,⟨"s".toList,"a".toList⟩,haccount,?_,?_⟩
  · rw [hkey]
    decide
  · rw [htoken]
    intro h
    exact absurd h (by decide : "b".toList≠"a".toList)

/-- The second tab restores the session of the first. -/
def sharedSession : List TabEvent :=
  [newTab,.login 0 (signIn "a".toList),newTab,.request 1 "n".toList,.respond 0 0,.deliver 1 1]

theorem sharedSession_honest :
    StepRuns.Admits step (Honest sampleKeyOf SampleToken) .start sharedSession := by
  have hposted : (StepRuns.run step .start (sharedSession.take 3)).posted=[] := by decide
  refine ⟨trivial,⟨rfl,rfl⟩,trivial,fun payload hmem => ?_,trivial,trivial,trivial⟩
  exact absurd (hposted ▸ hmem) List.not_mem_nil

/-- Both tabs are signed in to the first account when the second asks, and
when the first answers. -/
theorem sharedSession_accounts : ∀ k∈[3,4],
    ∀ tab∈(StepRuns.run step .start (sharedSession.take k)).tabs,tab.state.auth.isAuthenticated=true ∧
      accountOf tab.state.auth=some ⟨"s".toList,"a".toList⟩ := by
  decide

theorem sharedSession_idle :
    ∀ tab∈(StepRuns.run step .start (sharedSession.take 1)).tabs,tab.pending=[] := by
  decide

theorem sharedSession_sameAccount : StepRuns.Admits step SameAccountOnly .start sharedSession := by
  refine ⟨trivial,fun tab htab => ?_,trivial,fun tab htab => ?_,?_,trivial,trivial⟩
  · exact sharedSession_idle tab (List.mem_of_getElem? htab)
  · exact (sharedSession_accounts 3 (by simp) tab (List.mem_of_getElem? htab)).1
  · intro tab nonce htab _ _ other hother _
    have htab := sharedSession_accounts 4 (by simp) tab (List.mem_of_getElem? htab)
    exact (sharedSession_accounts 4 (by simp) other hother).2.trans htab.2.symm

theorem adoptions_within_account_shared :
    (StepRuns.run step .start sharedSession).adoptions.length=1 ∧
      ∀ a∈(StepRuns.run step .start sharedSession).adoptions,∃ account,
        accountOf a.auth=some account ∧ a.payload.key=sampleKeyOf account := by
  refine ⟨by decide,fun a ha => ?_⟩
  obtain ⟨-,account,haccount,hkey,-⟩ := adoptions_within_account sampleKeyOf SampleToken sharedSession
    sharedSession_honest sharedSession_sameAccount a ha
  exact ⟨account,haccount,hkey⟩

end Samples

end NadSafe.CrossTab
