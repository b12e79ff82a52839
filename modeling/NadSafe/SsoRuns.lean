import NadSafe.ContractScript
import NadSafe.CredentialRuns
import NadSafe.ObservedRuns
import NadSafe.SsoHandlers

/-!
# Single sign-on over whole runs

Any number of authorizations, returns of browsers, logins and clean-ups that
overlap, while the other tables change and time passes. The row that a handler
has loaded is written back as a whole, so that a row may come back after it was
removed. What a login opens goes back to the history nevertheless: to a browser
that was bound to its authorization, and to what the provider has said.
-/

namespace NadSafe.SsoRuns

open HostText TableRows AsyncScript AsyncScript.Script ScriptPool ServerTables StoreScript ServerModels
open SessionHandlers PartScript SsoHandlers RelyScript TracedRuns ResponseScript ContractScript ObservedRuns

/-- What runs. -/
inductive Operation where
  /-- `authorize`, with the token of the browser and the nonce. -/
  | authorize (bindingToken nonce : Text) (data : AuthorizeData)
  /-- `oidcsignin` and `oidcsignin_error`. -/
  | oidcsignin (base64State : Text) (returned : Returned) (cookie : Option Text)
  /-- `sso_login`, with the provider as it finds it. -/
  | login (out : LoginOutside) (provider : Provider) (data : ConnectData) (code verifier : Text)
  /-- `delete_expired`. -/
  | deleteExpired
  /-- Any statement that adds no authorization and no link, and the passage of time. -/
  | elsewhere (change : Store → Option Store)

/-- A statement that leaves authorizations alone and adds no link. -/
def elsewhere (change : Store → Option Store) : SsoHandlers.Action Unit :=
  execute "Error" fun s => (change s).filter fun s' =>
    s'.ssoAuth=s.ssoAuth ∧ ∀ l∈s'.ssoUsers,l∈s.ssoUsers

/-- A handler without tokens. -/
def plain (p : SsoHandlers.Action Unit) : SsoHandlers.Action (Option AuthTokens) := do
  p
  pure none

/-- A handler with tokens. -/
def issuing (p : SsoHandlers.Action AuthTokens) : SsoHandlers.Action (Option AuthTokens) := do
  let tokens ← p
  pure (some tokens)

/-- The handler of an operation. -/
def Operation.body (settings : SsoSettings) : Operation → SsoHandlers.Action (Option AuthTokens)
  | .authorize bindingToken nonce data => plain (SsoHandlers.authorize settings bindingToken nonce data)
  | .oidcsignin base64State returned cookie => plain (SsoHandlers.oidcsignin settings base64State returned cookie)
  | .login out provider data code verifier => issuing (ssoLogin settings out provider data code verifier)
  | .deleteExpired => plain SsoAuth.deleteExpired
  | .elsewhere change => plain (SsoRuns.elsewhere change)

/-- The server with these operations. -/
def server (settings : SsoSettings) : System (Statement Store) Statement.Answer Unit String
    (Except String (Option AuthTokens)) Store Operation :=
  ⟨exec,fun op => respond (op.body settings)⟩

/-- One move of these operations. -/
abbrev Step := Move String (Except String (Option AuthTokens)) Store Operation

section Origins

variable (moved : Operation → Store → Prop) (settings : SsoSettings)

/-- A request has asked for the authorization of a row. -/
structure Authorized (a : SsoAuth) (bindingToken : Text) (data : AuthorizeData) : Prop where
  /-- When. -/
  created : ∃ s,moved (.authorize bindingToken a.nonce data) s ∧ a.createdAt=s.db.now
  /-- State. -/
  state : data.state=a.state
  /-- Challenge. -/
  challenge : data.codeChallenge=a.clientChallenge
  /-- How the challenge was made. -/
  method : data.codeChallengeMethod="S256".toList
  /-- Redirect. -/
  redirect : redirectUriOf settings data.clientId data.redirectUri=.ok a.redirectUri
  /-- The browser that has asked. -/
  binding : a.bindingHash=some (settings.sha256Hex bindingToken)

/-- The browser of a row has brought a code back, within ten minutes. -/
def Brought (a : SsoAuth) (code : Text) : Prop :=
  ∃ base64State returned cookie s,moved (.oidcsignin base64State returned (some cookie)) s ∧
    settings.decodeState base64State=some a.state ∧ a.bindingHash=some (settings.sha256Hex cookie) ∧
    s.db.now ≤ a.createdAt+SSO_AUTH_EXPIRATION ∧
    (returned=.code code ∨ ∃ error description,returned=.error error description ∧ code=base64State)

/-- A login has exchanged a code of the row: its verifier fits, unless the
provider checks it, and the token names the nonce. -/
def Exchanged (a : SsoAuth) (infos : OIDCAuthenticatedUser) : Prop :=
  ∃ out provider data code verifier s token,moved (.login out provider data code verifier) s ∧
    Brought moved settings a code ∧ (settings.ssoPkce=false → settings.codeChallenge verifier=a.clientChallenge) ∧
    provider.token code (if settings.ssoPkce=true then some verifier else none)=.ok token ∧
    token.nonce=some a.nonce ∧ infos.identifier=token.issuer++ '/'::token.subject

/-- Where a row comes from. -/
structure Sound (a : SsoAuth) : Prop where
  /-- A request. -/
  authorized : ∃ bindingToken data,Authorized moved settings a bindingToken data
  /-- Its browser. -/
  brought : ∀ code,a.codeResponse=some code → Brought moved settings a code
  /-- The provider. -/
  exchanged : ∀ infos,a.authResponse=some infos → Exchanged moved settings a infos

/-- The address of an identity counts as verified. -/
def Verified (infos : OIDCAuthenticatedUser) : Prop :=
  infos.emailVerified=some true ∨ infos.emailVerified=none ∧ settings.ssoAllowUnknownEmailVerification=true

/-- A login has found the account by its verified address, without a link to
another identity, or it has created the account. -/
def Opened (op : Operation) (infos : OIDCAuthenticatedUser) (uuid : Uuid) : Prop :=
  Verified settings infos ∧
    ((∃ s u,moved op s ∧ u∈s.db.users ∧ u.uuid=uuid ∧ u.email=settings.toLowercase infos.email ∧
        (∀ l∈s.ssoUsers,l.userUuid≠uuid) ∧ (u.privateKey=none ∨ settings.ssoSignupsMatchEmail=true)) ∨
      ∃ s s',moved op s ∧ moved op s' ∧ (∀ u∈s.db.users,u.email≠settings.toLowercase infos.email) ∧
        settings.isEmailDomainAllowed infos.email=true ∧ uuid=s'.db.next)

/-- Where a link comes from. -/
def Linked (l : SsoUser) : Prop :=
  ∃ out provider data code verifier a infos,Sound moved settings a ∧ a.codeResponse=some code ∧
    a.authResponse=some infos ∧ infos.identifier=l.identifier ∧
    Opened moved settings (.login out provider data code verifier) infos l.userUuid

/-- Rows and links go back to the history. -/
def Fine (s : Store) : Prop := (∀ a∈s.ssoAuth,Sound moved settings a) ∧ ∀ l∈s.ssoUsers,Linked moved settings l

/-- What a login has shown that has returned tokens. -/
def Granted (op : Operation) (code : Text) (tokens : AuthTokens) : Prop :=
  ∃ a infos s,Sound moved settings a ∧ a.codeResponse=some code ∧ a.authResponse=some infos ∧ moved op s ∧
    s.db.now ≤ a.createdAt+SSO_AUTH_EXPIRATION ∧ tokens.refreshClaims.sub=.sso ∧
    (Opened moved settings op infos tokens.accessClaims.sub ∨
      ∃ s' l,moved op s' ∧ l∈s'.ssoUsers ∧ l.identifier=infos.identifier ∧ l.userUuid=tokens.accessClaims.sub ∧
        Linked moved settings l)

/-- What a response shows. -/
def Outcome : Operation → Option AuthTokens → Prop
  | .login out provider data code verifier,some tokens =>
    Granted moved settings (.login out provider data code verifier) code tokens
  | _,_ => True

/-- What a handler of an operation does. -/
abbrev Acts {α : Type} (op : Operation) (shows : α → Prop) (p : SsoHandlers.Action α) (s₀ s : Store) : Prop :=
  Responds exec (Relies moved (fun _ => Fine moved settings) op) (fun _ => Fine moved settings)
    (fun r _ s => Fine moved settings s ∧ ∀ a,r=.ok a → shows a) p s₀ s

end Origins

section Rules

variable {α β : Type} {moved : Operation → Store → Prop} {settings : SsoSettings} {op : Operation}
  {shows : α → Prop} {s₀ s : Store} {a : SsoAuth} {l : SsoUser}

theorem acts_error (hs : Fine moved settings s) (e : String) :
    Fine moved settings s ∧ ∀ a,(Except.error e : Except String α)=.ok a → shows a := ⟨hs,fun _ h => by cases h⟩

theorem acts_query {f : Store → β} {g : β → SsoHandlers.Action α} (hs : Fine moved settings s)
    (h : ∀ s',Fine moved settings s' → moved op s' → Acts moved settings op shows (g (f s')) s' s') :
    Acts moved settings op shows ((query f).bind g) s₀ s :=
  Responds.query hs fun s' hs' => h s' hs'.1 hs'.2

theorem acts_ensure {message : String} {condition : Bool} {g : Unit → SsoHandlers.Action α}
    (hs : Fine moved settings s) (h : condition=true → Acts moved settings op shows (g ()) s₀ s) :
    Acts moved settings op shows ((ensure message condition).bind g) s₀ s :=
  Responds.ensure h fun _ => acts_error hs _

theorem acts_expect {message : String} {value : Option β} {g : β → SsoHandlers.Action α}
    (hs : Fine moved settings s) (h : ∀ b,value=some b → Acts moved settings op shows (g b) s₀ s) :
    Acts moved settings op shows ((expect message value).bind g) s₀ s :=
  Responds.expect h fun _ => acts_error hs _

theorem acts_computed {r : Except String β} {g : β → SsoHandlers.Action α} (hs : Fine moved settings s)
    (h : ∀ b,r=.ok b → Acts moved settings op shows (g b) s₀ s) :
    Acts moved settings op shows ((SsoHandlers.fromExcept r).bind g) s₀ s := by
  cases r with
  | ok b => exact h b rfl
  | error e => exact acts_error hs e

theorem acts_pure {a : α} (hs : Fine moved settings s) (h : shows a) :
    Acts moved settings op shows (.done a) s₀ s := ⟨hs,fun _ he => by cases he; exact h⟩

/-- The clock is read. -/
theorem acts_utcNow {g : ℤ → SsoHandlers.Action α} (h : Acts moved settings op shows (g s.db.now) s₀ s) :
    Acts moved settings op shows (SsoHandlers.utcNow.bind g) s₀ s := h

/-- A statement that is never refused. -/
theorem acts_execute {message : String} {f : Store → Store} {g : Unit → SsoHandlers.Action α}
    (hs : Fine moved settings s) (hf : ∀ s,Fine moved settings s → Fine moved settings (f s))
    (h : ∀ s₁ s₂,Fine moved settings s₂ → Acts moved settings op shows (g ()) s₁ s₂) :
    Acts moved settings op shows ((execute message fun s => some (f s)).bind g) s₀ s :=
  Responds.execute hs (fun s₁ s₂ hs₁ hc => by cases hc; exact h s₁ _ (hf s₁ hs₁.1)) fun _ _ hc => by cases hc

/-- The same at the end. -/
theorem acts_execute_done {message : String} {f : Store → Store} {shows : Unit → Prop} (hs : Fine moved settings s)
    (hf : ∀ s,Fine moved settings s → Fine moved settings (f s)) (hshows : shows ()) :
    Acts moved settings op shows (execute message fun s => some (f s)) s₀ s :=
  Responds.execute_done hs (fun s₁ s₂ hs₁ hc => (by cases hc; exact ⟨hf s₁ hs₁.1,fun _ _ => hshows⟩))
    fun _ _ hc => by cases hc

theorem fine_put (ha : Sound moved settings a) (hs : Fine moved settings s) :
    Fine moved settings {s with ssoAuth := put SsoAuth.state a s.ssoAuth} := by
  refine ⟨fun b hb => ?_,hs.2⟩
  rcases mem_put.mp hb with rfl|⟨hb,-⟩
  · exact ha
  · exact hs.1 b hb

theorem fine_filter {keep : SsoAuth → Bool} (hs : Fine moved settings s) :
    Fine moved settings {s with ssoAuth := s.ssoAuth.filter keep} :=
  ⟨fun b hb => hs.1 b (List.mem_of_mem_filter hb),hs.2⟩

theorem fine_link {links : List SsoUser} (hl : Linked moved settings l) (hs : Fine moved settings s)
    (hlinks : ∀ k∈links,k=l ∨ k∈s.ssoUsers) : Fine moved settings {s with ssoUsers := links} := by
  refine ⟨hs.1,fun k hk => ?_⟩
  rcases hlinks k hk with rfl|hk
  · exact hl
  · exact hs.2 k hk

/-- A handler of the database, with a contract for what it returns. -/
theorem acts_within {K : β → Prop} {p : ServerModels.Action β} {g : β → SsoHandlers.Action α}
    (hp : p.Obeys (fun _ => True) (fun _ _ => True) K) (hs : Fine moved settings s)
    (hg : ∀ b s₁ s₂,K b → Fine moved settings s₂ → Acts moved settings op shows (g b) s₁ s₂) :
    Acts moved settings op shows ((within database p).bind g) s₀ s := by
  induction p generalizing s₀ s with
  | done b => exact hg b s₀ s hp hs
  | fail e => exact acts_error hs e
  | call c k ih =>
    cases c with
    | read => exact ih _ (hp.2 _ trivial) hs
    | write u =>
      have hnext : Fine moved settings (((u s.db).map (database.set s)).getD s) := by
        cases hu : u s.db with
        | none => exact hs
        | some db => exact hs
      exact ih _ (hp.2 _ trivial) hnext
  | await k ih => exact ⟨hs,fun i s' hs' => ih i (hp i) hs'.1⟩

/-- The same at the end. -/
theorem acts_within_done {K : α → Prop} {p : ServerModels.Action α} (hp : p.Obeys (fun _ => True) (fun _ _ => True) K)
    (hs : Fine moved settings s) (hshows : ∀ a,K a → shows a) :
    Acts moved settings op shows (within database p) s₀ s := by
  have hbind : Acts moved settings op shows ((within database p).bind Script.done) s₀ s :=
    acts_within hp hs fun b _ _ hb hs => acts_pure hs (hshows b hb)
  rwa [bind_done] at hbind

/-- A uuid is drawn. -/
theorem acts_getUuid {g : Uuid → SsoHandlers.Action α} (hs : Fine moved settings s)
    (h : ∀ s' s'',moved op s' → Fine moved settings s'' → Acts moved settings op shows (g s'.db.next) s' s'') :
    Acts moved settings op shows ((within database getUuid).bind g) s₀ s :=
  ⟨hs,fun _ s' hs' => h s' _ hs'.2 hs'.1⟩

end Rules

section Accounts

variable {settings : SessionSettings} {out : LoginOutside} {data : ConnectData} {user : User} {device : Device}

/-- The check of a factor returns the account it was given. -/
theorem obeys_checkFactor {selected : ℤ} {factor : Option TwoFactorData} {code : Text} :
    (checkFactor settings out user device selected factor code).Obeys (fun _ => True) (fun _ _ => True)
      fun u => u.uuid=user.uuid := by
  unfold checkFactor
  split
  · exact obeys_past fun _ => obeys_past fun _ => rfl
  split
  · exact obeys_past fun _ => obeys_past fun _ => rfl
  split
  · split
    · exact rfl
    · refine obeys_past (K:=fun u : User => u.uuid=user.uuid) fun _ => ?_
      trivial
  split
  · exact obeys_past fun _ => obeys_past fun _ => rfl
  · exact obeys_past fun _ => rfl

theorem obeys_twofactorAuth : (twofactorAuth settings out data user device).Obeys (fun _ => True) (fun _ _ => True)
    fun r => r.2.uuid=user.uuid := by
  refine obeys_past fun factors => ?_
  split
  · exact obeys_past fun _ => rfl
  · refine obeys_past fun first => obeys_past fun _ => obeys_past fun code => Script.Obeys.bind obeys_checkFactor ?_
    intro u hu
    split
    · exact hu
    · exact hu

/-- The response has the tokens that were made. -/
theorem obeys_response {tokens : AuthTokens} : (authenticatedResponse settings out user device tokens).Obeys
    (fun _ => True) (fun _ _ => True) fun r => r=tokens :=
  obeys_past fun _ => obeys_past fun _ => obeys_past fun _ => rfl

end Accounts

section Handlers

variable {moved : Operation → Store → Prop} {settings : SsoSettings} {s₀ s : Store} {out : LoginOutside}
  {provider : Provider} {data : ConnectData} {code verifier : Text} {infos : OIDCAuthenticatedUser}

theorem acts_authorize {bindingToken nonce : Text} {data : AuthorizeData}
    (hmoved : moved (.authorize bindingToken nonce data) s) (hs : Fine moved settings s) :
    Acts moved settings (.authorize bindingToken nonce data) (fun _ => True)
      (SsoHandlers.authorize settings bindingToken nonce data) s s := by
  refine acts_ensure hs fun hmethod => acts_computed hs fun redirect hredirect => acts_utcNow ?_
  rw [decide_eq_true_eq] at hmethod
  have hsound : Sound moved settings ⟨data.state,data.codeChallenge,nonce,redirect,none,none,none,s.db.now,
      some (settings.sha256Hex bindingToken)⟩ := by
    refine ⟨⟨bindingToken,data,⟨s,hmoved,rfl⟩,rfl,rfl,hmethod,hredirect,rfl⟩,fun _ h => ?_,fun _ h => ?_⟩
    · cases h
    · cases h
  exact acts_execute_done hs (fun _ => fine_put hsound) trivial

/-- The browser that a row is bound to. -/
theorem cookie_of_bound {a : SsoAuth} {cookie : Option Text} (h : bound settings a cookie=true) :
    ∃ token,cookie=some token ∧ a.bindingHash=some (settings.sha256Hex token) := by
  unfold bound at h
  split at h
  case h_1 expected token hhash =>
    rw [decide_eq_true_eq] at h
    exact ⟨token,rfl,hhash.trans (congrArg some h)⟩
  case h_2 => cases h

/-- A row that was found is sound and not too old. -/
theorem found_row {now : ℤ} {f : SsoAuth → Prop} [DecidablePred f] {a : SsoAuth} (hs : Fine moved settings s)
    (h : s.ssoAuth.find? (fun a => f a ∧ now-SSO_AUTH_EXPIRATION ≤ a.createdAt)=some a) :
    Sound moved settings a ∧ f a ∧ now ≤ a.createdAt+SSO_AUTH_EXPIRATION := by
  have hfound := List.find?_some h
  rw [decide_eq_true_eq] at hfound
  exact ⟨hs.1 a (List.mem_of_find?_eq_some h),hfound.1,by omega⟩

theorem acts_redirect {base64State code : Text} {returned : Returned} {error : Option (Text×Option Text)}
    {cookie : Option Text} (hmoved : moved (.oidcsignin base64State returned cookie) s) (hs : Fine moved settings s)
    (hcode : returned=.code code ∨ ∃ error description,returned=.error error description ∧ code=base64State) :
    Acts moved settings (.oidcsignin base64State returned cookie) (fun _ => True)
      (oidcsigninRedirect settings base64State code error cookie) s s := by
  unfold oidcsigninRedirect SsoAuth.find
  simp only [bind_eq,Script.bind_assoc]
  refine acts_expect hs fun state hstate => ?_
  refine acts_utcNow (acts_query hs fun s₁ hs₁ _ => acts_expect hs₁ fun a ha => ?_)
  obtain ⟨hsound,hkey,hfresh⟩ := found_row hs₁ ha
  refine acts_ensure hs₁ fun hbound => ?_
  obtain ⟨token,rfl,hhash⟩ := cookie_of_bound hbound
  subst hkey
  have hbrought : Brought moved settings a code :=
    ⟨base64State,returned,token,s,hmoved,hstate,hhash,hfresh,hcode⟩
  have hrow : Sound moved settings {a with codeResponse := some code, codeResponseError := error} := by
    refine ⟨?_,fun c hc => ?_,hsound.exchanged⟩
    · obtain ⟨token,data,h⟩ := hsound.authorized
      exact ⟨token,data,h.created,h.state,h.challenge,h.method,h.redirect,h.binding⟩
    · cases hc
      exact hbrought
  exact acts_execute_done hs₁ (fun _ => fine_put hrow) trivial

/-- An answer of the provider has passed all checks. -/
theorem checked_of_answer {a : SsoAuth} (h : provider.answer settings code verifier a=.ok infos) :
    (settings.ssoPkce=false → settings.codeChallenge verifier=a.clientChallenge) ∧ ∃ token,
      provider.token code (if settings.ssoPkce=true then some verifier else none)=.ok token ∧
      token.nonce=some a.nonce ∧ infos.identifier=token.issuer++ '/'::token.subject := by
  unfold Provider.answer at h
  cases hexchange : Client.exchangeCode settings provider code verifier a with
  | error e =>
    rw [hexchange] at h
    cases h
  | ok token =>
    rw [hexchange] at h
    have hidentifier : infos.identifier=token.issuer++ '/'::token.subject := by
      dsimp only at h
      split at h
      · cases h
      · unfold authenticatedUser at h
        split at h
        · cases h
        · cases h
          rfl
    unfold Client.exchangeCode at hexchange
    split at hexchange
    · cases hexchange
    · rename_i hchallenge
      refine ⟨fun hpkce => of_not_not fun hne => hchallenge ⟨hpkce,hne⟩,?_⟩
      split at hexchange
      · cases hexchange
      · rename_i response hresponse
        split at hexchange
        · cases hexchange
          exact ⟨token,hresponse,‹_›,hidentifier⟩
        · cases hexchange

/-- The code of a row that has one, unless an error has come back. -/
theorem acts_returnedCode {α : Type} {op : Operation} {shows : α → Prop} {a : SsoAuth} {g : Text → SsoHandlers.Action α}
    (hs : Fine moved settings s) (hcode : a.codeResponse=some code)
    (hg : Acts moved settings op shows (g code) s₀ s) :
    Acts moved settings op shows ((returnedCode a).bind g) s₀ s := by
  unfold returnedCode
  rw [hcode]
  cases a.codeResponseError with
  | none => exact hg
  | some error =>
    show Acts moved settings op shows ((a.delete.bind fun _ => Script.fail _).bind g) s₀ s
    rw [Script.bind_assoc]
    exact acts_execute hs (fun _ => fine_filter) fun _ _ hs => acts_error hs _

/-- A code is exchanged, or was exchanged before. -/
theorem acts_exchangeCode {α : Type} {shows : α → Prop} {g : SsoAuth×OIDCAuthenticatedUser → SsoHandlers.Action α}
    (hmoved : moved (.login out provider data code verifier) s) (hs : Fine moved settings s)
    (hg : ∀ a infos s₁ s₂,Fine moved settings s₂ → Sound moved settings a → a.codeResponse=some code →
      a.authResponse=some infos → s.db.now ≤ a.createdAt+SSO_AUTH_EXPIRATION →
      Acts moved settings (.login out provider data code verifier) shows (g (a,infos)) s₁ s₂) :
    Acts moved settings (.login out provider data code verifier) shows
      ((exchangeCode settings provider code verifier).bind g) s₀ s := by
  unfold exchangeCode SsoAuth.findByCode
  simp only [bind_eq,Script.bind_assoc]
  refine acts_utcNow (acts_query hs fun s₁ hs₁ _ => acts_expect hs₁ fun a ha => ?_)
  obtain ⟨hsound,hcode,hfresh⟩ := found_row hs₁ ha
  cases hinfos : a.authResponse with
  | some infos => exact hg a infos _ _ hs₁ hsound hcode hinfos hfresh
  | none =>
    simp only [Script.bind_assoc]
    refine acts_returnedCode hs₁ hcode (acts_computed hs₁ fun infos hanswer => ?_)
    have hbrought := hsound.brought code hcode
    have hrow : Sound moved settings {a with authResponse := some infos} := by
      refine ⟨?_,hsound.brought,fun c hc => ?_⟩
      · obtain ⟨token,data,h⟩ := hsound.authorized
        exact ⟨token,data,h.created,h.state,h.challenge,h.method,h.redirect,h.binding⟩
      · cases hc
        obtain ⟨hchallenge,token,htoken⟩ := checked_of_answer hanswer
        exact ⟨out,provider,data,code,verifier,s,token,hmoved,hbrought,hchallenge,htoken⟩
    exact acts_execute hs₁ (fun _ => fine_put hrow) fun s₂ s₃ hs₃ => hg _ infos s₂ s₃ hs₃ hrow hcode rfl hfresh

/-- What a login has found of an identity. -/
def Found (moved : Operation → Store → Prop) (settings : SsoSettings) (op : Operation) (infos : OIDCAuthenticatedUser) :
    Option (User×Option SsoUser) → Prop
  | none => ∃ s,moved op s ∧ ∀ u∈s.db.users,u.email≠settings.toLowercase infos.email
  | some (u,some l) => ∃ s,moved op s ∧ l∈s.ssoUsers ∧ l.identifier=infos.identifier ∧ l.userUuid=u.uuid ∧
    Linked moved settings l
  | some (u,none) => Opened moved settings op infos u.uuid

/-- An account that may be linked. -/
theorem verified_of_linkable {u : User} (h : linkable settings u infos=.ok ()) :
    Verified settings infos ∧ (u.privateKey=none ∨ settings.ssoSignupsMatchEmail=true) := by
  unfold linkable at h
  split at h
  · cases h
  · rename_i hmatch
    have hkey : u.privateKey=none ∨ settings.ssoSignupsMatchEmail=true := by
      cases hp : u.privateKey with
      | none => exact .inl rfl
      | some k =>
        rw [hp] at hmatch
        exact .inr (by simpa using hmatch)
    refine ⟨?_,hkey⟩
    split at h
    · rename_i hnone
      split at h
      · exact .inr ⟨hnone,‹_›⟩
      · cases h
    · cases h
    · exact .inl ‹_›

/-- An identity that may have a new account. -/
theorem verified_of_admissible (h : admissible settings infos=.ok ()) :
    Verified settings infos ∧ settings.isEmailDomainAllowed infos.email=true := by
  unfold admissible at h
  split at h
  · cases h
  · rename_i hdomain
    refine ⟨?_,by simpa using hdomain⟩
    split at h
    · rename_i hnone
      split at h
      · exact .inr ⟨hnone,‹_›⟩
      · cases h
    · cases h
    · exact .inl ‹_›

/-- The account of an identity is looked up. -/
theorem acts_findAccount {α : Type} {op : Operation} {shows : α → Prop}
    {g : Option (User×Option SsoUser) → SsoHandlers.Action α} (hs : Fine moved settings s)
    (hg : ∀ found s₁ s₂,Fine moved settings s₂ → Found moved settings op infos found →
      Acts moved settings op shows (g found) s₁ s₂) :
    Acts moved settings op shows ((findAccount settings infos).bind g) s₀ s := by
  unfold findAccount SsoUser.findByIdentifier SsoUser.findByMail
  simp only [bind_eq,Script.bind_assoc]
  refine acts_query hs fun s₁ hs₁ hm₁ => ?_
  split
  case h_1 u l hlinked =>
    obtain ⟨k,hk,hfound⟩ := Option.bind_eq_some_iff.mp hlinked
    obtain ⟨v,hv,heq⟩ := Option.map_eq_some_iff.mp hfound
    cases heq
    have hkey := List.find?_some hk
    have huuid := List.find?_some hv
    rw [decide_eq_true_eq] at hkey huuid
    have hmem := List.mem_of_find?_eq_some hk
    exact hg _ _ _ hs₁ ⟨s₁,hm₁,hmem,hkey,huuid.symm,hs₁.2 l hmem⟩
  case h_2 =>
    rw [Script.bind_assoc]
    refine acts_query hs₁ fun s₂ hs₂ hm₂ => ?_
    split
    case h_1 hnone =>
      rw [Option.map_eq_none_iff,List.find?_eq_none] at hnone
      exact hg _ _ _ hs₂ ⟨s₂,hm₂,fun u hu he => hnone u hu (decide_eq_true he)⟩
    case h_2 => exact acts_error hs₂ _
    case h_3 u hnamed =>
      obtain ⟨v,hv,heq⟩ := Option.map_eq_some_iff.mp hnamed
      obtain ⟨rfl,hnone⟩ := Prod.mk.injEq _ _ _ _ ▸ heq
      have hemail := List.find?_some hv
      rw [decide_eq_true_eq] at hemail
      rw [List.find?_eq_none] at hnone
      rw [Script.bind_assoc]
      refine acts_computed hs₂ fun _ hlinkable => ?_
      obtain ⟨hverified,hkey⟩ := verified_of_linkable hlinkable
      have hfree : ∀ l∈s₂.ssoUsers,l.userUuid≠v.uuid := fun l hl he => hnone l hl (decide_eq_true he)
      exact hg _ _ _ hs₂ ⟨hverified,.inl ⟨s₂,v,hm₂,List.mem_of_find?_eq_some hv,rfl,hemail,hfree,hkey⟩⟩

/-- The account that a login opens, with its link. -/
def Account (moved : Operation → Store → Prop) (settings : SsoSettings) (op : Operation) (infos : OIDCAuthenticatedUser)
    (uuid : Uuid) : Option SsoUser → Prop
  | some l => ∃ s,moved op s ∧ l∈s.ssoUsers ∧ l.identifier=infos.identifier ∧ l.userUuid=uuid ∧
    Linked moved settings l
  | none => Opened moved settings op infos uuid

theorem acts_createAccount {α : Type} {op : Operation} {shows : α → Prop} {g : User×Device → SsoHandlers.Action α}
    (hs : Fine moved settings s) (hfound : Found moved settings op infos none)
    (hg : ∀ u d s₁ s₂,Fine moved settings s₂ → Opened moved settings op infos u.uuid →
      Acts moved settings op shows (g (u,d)) s₁ s₂) :
    Acts moved settings op shows ((createAccount settings out data infos).bind g) s₀ s := by
  obtain ⟨s',hm',hfree⟩ := hfound
  unfold createAccount
  simp only [bind_eq,Script.bind_assoc]
  refine acts_computed hs fun _ hadmissible => ?_
  obtain ⟨hverified,hdomain⟩ := verified_of_admissible hadmissible
  refine acts_getUuid hs fun s₁ s₂ hm₁ hs₂ => acts_getUuid hs₂ fun s₃ s₄ _ hs₄ => ?_
  refine acts_within (obeys_nothing _) hs₄ fun _ _ _ _ hs₅ => acts_within (obeys_nothing _) hs₅ fun d _ _ _ hs₆ => ?_
  exact hg _ d _ _ hs₆ ⟨hverified,.inr ⟨s',s₁,hm',hm₁,hfree,hdomain,rfl⟩⟩

theorem acts_enterAccount {α : Type} {op : Operation} {shows : α → Prop} {user : User}
    {g : User×Device → SsoHandlers.Action α} (hs : Fine moved settings s)
    (hg : ∀ u d s₁ s₂,Fine moved settings s₂ → u.uuid=user.uuid → Acts moved settings op shows (g (u,d)) s₁ s₂) :
    Acts moved settings op shows ((enterAccount settings out data infos user).bind g) s₀ s := by
  unfold enterAccount completeStub
  simp only [bind_eq,Script.bind_assoc]
  refine acts_within (obeys_nothing _) hs fun d _ _ _ hs₁ => acts_within obeys_twofactorAuth hs₁ fun r _ s₂ hr hs₂ => ?_
  have hlast : ∀ u s₁ s₂,Fine moved settings s₂ → u.uuid=user.uuid → Acts moved settings op shows
      ((ensure "Error sending mail" (decide (u.email=infos.email) || !settings.mailEnabled ||
        out.delivers infos.email)).bind fun _ => g (u,r.1)) s₁ s₂ :=
    fun u s₁ s₂ hs hu => acts_ensure hs fun _ => hg u r.1 s₁ s₂ hs hu
  split
  · simp only [Script.bind_assoc]
    exact acts_within (obeys_nothing _) hs₂ fun _ s₃ s₄ _ hs₄ => hlast _ s₃ s₄ hs₄ hr
  · exact hlast _ _ _ hs₂ hr

theorem acts_openAccount {α : Type} {op : Operation} {shows : α → Prop} {found : Option (User×Option SsoUser)}
    {g : (User×Device)×Option SsoUser → SsoHandlers.Action α} (hs : Fine moved settings s)
    (hfound : Found moved settings op infos found)
    (hg : ∀ u d link s₁ s₂,Fine moved settings s₂ → Account moved settings op infos u.uuid link →
      Acts moved settings op shows (g ((u,d),link)) s₁ s₂) :
    Acts moved settings op shows ((openAccount settings out data infos found).bind g) s₀ s := by
  unfold openAccount
  split
  · simp only [bind_eq,Script.bind_assoc]
    exact acts_createAccount hs hfound fun u d s₁ s₂ hs₂ hopened => hg u d none s₁ s₂ hs₂ hopened
  · rename_i user link
    simp only [bind_eq,Script.bind_assoc]
    refine acts_enterAccount hs fun u d s₁ s₂ hs₂ hu => hg u d link s₁ s₂ hs₂ ?_
    cases link with
    | none => exact hu.symm ▸ hfound
    | some l => exact hu.symm ▸ hfound

theorem acts_linkAccount {α : Type} {shows : α → Prop} {user : User} {link : Option SsoUser} {a : SsoAuth}
    {g : Unit → SsoHandlers.Action α} (hs : Fine moved settings s) (ha : Sound moved settings a)
    (hcode : a.codeResponse=some code) (hinfos : a.authResponse=some infos)
    (haccount : Account moved settings (.login out provider data code verifier) infos user.uuid link)
    (hg : ∀ s₁ s₂,Fine moved settings s₂ →
      Acts moved settings (.login out provider data code verifier) shows (g ()) s₁ s₂) :
    Acts moved settings (.login out provider data code verifier) shows
      ((linkAccount settings user infos link).bind g) s₀ s := by
  cases link with
  | some l => exact hg s₀ s hs
  | none =>
    have hlinked : Linked moved settings ⟨user.uuid,infos.identifier⟩ :=
      ⟨out,provider,data,code,verifier,a,infos,ha,hcode,hinfos,rfl,haccount⟩
    refine Responds.execute hs (fun s₁ s₂ hs₁ hc => hg s₁ s₂ ?_) fun s₁ hs₁ _ => acts_error hs₁.1 _
    split at hc
    · split at hc
      · cases hc
        refine fine_link hlinked hs₁.1 fun k hk => ?_
        rcases List.mem_cons.mp hk with rfl|hk
        · exact .inl rfl
        · exact .inr (List.mem_of_mem_filter hk)
      · split at hc
        · cases hc
        · cases hc
          exact fine_link hlinked hs₁.1 fun k hk => List.mem_cons.mp hk
    · cases hc

theorem acts_login (hmoved : moved (.login out provider data code verifier) s) (hs : Fine moved settings s) :
    Acts moved settings (.login out provider data code verifier)
      (Granted moved settings (.login out provider data code verifier) code)
      (ssoLogin settings out provider data code verifier) s s := by
  unfold ssoLogin redeem
  simp only [bind_eq,Script.bind_assoc]
  refine acts_exchangeCode hmoved hs fun a infos s₁ s₂ hs₂ ha hcode hinfos hfresh => ?_
  refine acts_findAccount hs₂ fun found s₃ s₄ hs₄ hfound => ?_
  refine acts_openAccount hs₄ hfound fun u d link s₅ s₆ hs₆ haccount => ?_
  refine acts_execute hs₆ (fun _ => fine_filter) fun s₇ s₈ hs₈ => ?_
  refine acts_linkAccount hs₈ ha hcode hinfos haccount fun s₉ s₁₀ hs₁₀ => acts_ensure hs₁₀ fun _ => ?_
  refine acts_within_done obeys_response hs₁₀ fun tokens htokens => ?_
  subst htokens
  refine ⟨a,infos,s,ha,hcode,hinfos,hmoved,hfresh,rfl,?_⟩
  cases link with
  | none => exact .inl haccount
  | some l => exact .inr (haccount.imp fun s' h => ⟨l,h⟩)

end Handlers

section Runs

variable {settings : SsoSettings} {start : Store} {events : List (Event Operation Unit)} {history later : List Step}
  {m : Step}

theorem acts_plain {moved : Operation → Store → Prop} {op : Operation} {s : Store} {p : SsoHandlers.Action Unit}
    (h : Acts moved settings op (fun _ => True) p s s) :
    Acts moved settings op (Outcome moved settings op) (plain p) s s := by
  refine Responds.bind h (fun a s₁ s₂ ha => acts_pure ha.1 ?_) fun e s₁ s₂ he => acts_error he.1 e
  cases op <;> trivial

/-- Every operation goes back to the history. -/
theorem acts_body {moved : Operation → Store → Prop} (op : Operation) (s : Store) (hs : Fine moved settings s)
    (hmoved : moved op s) : Acts moved settings op (Outcome moved settings op) (op.body settings) s s := by
  cases op with
  | authorize bindingToken nonce data => exact acts_plain (acts_authorize hmoved hs)
  | oidcsignin base64State returned cookie =>
    cases returned with
    | code code => exact acts_plain (acts_redirect hmoved hs (.inl rfl))
    | error error description => exact acts_plain (acts_redirect hmoved hs (.inr ⟨error,description,rfl,rfl⟩))
  | login out provider data code verifier =>
    refine Responds.bind (acts_login hmoved hs) (fun a s₁ s₂ ha => acts_pure ha.1 (ha.2 a rfl)) fun e s₁ s₂ he => ?_
    exact acts_error he.1 e
  | deleteExpired =>
    refine acts_plain ?_
    unfold SsoAuth.deleteExpired
    exact acts_utcNow (acts_execute_done hs (fun _ => fine_filter) trivial)
  | elsewhere change =>
    refine acts_plain (Responds.execute_done hs (fun s₁ s₂ hs₁ hc => ⟨?_,fun _ _ => trivial⟩) fun s₁ hs₁ _ =>
      acts_error hs₁.1 _)
    obtain ⟨-,hkept⟩ := Option.filter_eq_some_iff.mp hc
    rw [decide_eq_true_eq] at hkept
    refine ⟨fun a ha => ?_,fun l hl => hs₁.1.2 l (hkept.2 l hl)⟩
    rw [hkept.1] at ha
    exact hs₁.1.1 a ha

/-- The operations keep their guarantees, whatever the others do. -/
theorem contract (moved : Operation → Store → Prop) :
    Contract (server settings) moved (Fine moved settings) (fun _ => Fine moved settings)
      (fun _ _ => Fine moved settings)
      fun op r _ s => Fine moved settings s ∧ ∀ a,r=.ok a → Outcome moved settings op a := by
  have hended : ∀ op (p : Script (Statement Store) Statement.Answer Unit String
      (Except String (Option AuthTokens))) s s',Ended (fun _ => Fine moved settings)
        (fun r _ s => Fine moved settings s ∧ ∀ a,r=.ok a → Outcome moved settings op a) p s s' →
        Fine moved settings s' := by
    intro op p s s' h
    rcases ended_cases h with hfine|⟨a,ha⟩
    · exact hfine
    · exact ha.1
  refine ⟨fun op s hs hm => (acts_body op s hs hm).bears,fun _ hs => hs,fun _ _ _ _ h => h,?_,?_⟩
  · exact fun op p s s' _ _ h => hended op p s s' h
  · exact fun op p s s' _ _ h => hended op p s s' h

end Runs

section Samples

/-- Settings that leave the verifier to the server. -/
def plainSettings : SsoSettings where
  toSessionSettings := CredentialRuns.plainSettings
  ssoPkce := false
  ssoSignupsMatchEmail := true
  ssoAllowUnknownEmailVerification := false
  domain := []
  sha256Hex := id
  codeChallenge := id
  decodeState := some
  decodeTokenClaims := fun _ => true
  replaceInto := true

/-- No account. -/
def empty : Store := ⟨⟨{Tables.none with next := 1},by decide⟩,[],[]⟩

/-- A provider that knows the subject `s` with the address `a`. -/
def provider : Provider where
  token _ _ := .ok ⟨[],none,none,some ['n'],['i'],['s'],some ['a'],some true,none⟩
  userInfo _ := .ok ⟨none,none,none⟩

/-- Nothing else is needed. -/
def outside : LoginOutside where
  delivers _ := true
  randomBytes := []
  requests := ⟨[],List.nodup_nil⟩
  ip := []
  remind := false
  isNew := false
  push := none
  otherFactor := false
  rememberToken := []

/-- The device. -/
def connecting : ConnectData := ⟨[],[],none,5,[],none,none,false⟩

/-- The browser asks with the state `q` and comes back with the code `c`. -/
def signIn : List (Event Operation Unit) :=
  Event.start (Operation.authorize ['b'] ['n'] ⟨"web".toList,[],['q'],['v'],"S256".toList⟩)::
    List.replicate 1 (.resume 0 ⟨[],()⟩)++Event.start (Operation.oidcsignin ['q'] (.code ['c']) (some ['b']))::
    List.replicate 2 (.resume 1 ⟨[],()⟩)++Event.start (Operation.login outside provider connecting ['c'] ['v'])::
    List.replicate 13 (.resume 2 ⟨[],()⟩)

end Samples

end NadSafe.SsoRuns
