import NadSafe.AuthRequests
import NadSafe.GuardedScript
import NadSafe.ObservedRuns

/-!
# Logins with a device over whole runs

Any number of requests, answers, fetches and logins that overlap, while the
other tables change and time passes. The row that a handler has loaded is
written back as a whole, so that an answer may bring a deleted request back.
What is handed out goes back to the history nevertheless: to a request with
this code, and to an approval by the account that the request has named.
-/

namespace NadSafe.AuthRequestRuns

open HostText TableRows AsyncScript AsyncScript.Script ScriptPool ServerTables StoreScript SecondFactors
open RelyScript TracedRuns ResponseScript ObservedRuns AuthRequests
open FirstFactor (ClientHeaders)
open AccountRequests (LoginJwtClaims)

/-- What runs. -/
inductive Operation where
  /-- `post_auth_request`, with the uuid it draws. -/
  | post (uuid : Text) (data : AuthRequestRequest) (client : ClientHeaders)
  /-- `get_auth_request`. -/
  | get (claims : LoginJwtClaims) (id : Text)
  /-- `put_auth_request`. -/
  | put (claims : LoginJwtClaims) (id : Text) (data : AuthResponseRequest)
  /-- `get_auth_request_response`. -/
  | response (id code : Text) (client : ClientHeaders)
  /-- `get_auth_requests_pending`. -/
  | pending (claims : LoginJwtClaims)
  /-- The beginning of `password_login` with a request. -/
  | login (mail id code ip : Text)
  /-- `purge_auth_requests`. -/
  | purge
  /-- Any statement on the other tables, and the passage of time. -/
  | elsewhere (change : Store → Option Store)

/-- What a handler returns. -/
inductive Obtained where
  /-- One request. -/
  | view (v : View)
  /-- The requests that wait. -/
  | waiting (list : List (Text×View))
  /-- The account that was opened. -/
  | account (user : User)
  /-- Nothing. -/
  | nothing

/-- A statement that leaves requests alone. -/
def elsewhere (change : Store → Option Store) : Action Unit :=
  execute "Error" fun s => (change s).filter fun s' => s'.requests=s.requests ∧ s.db.now ≤ s'.db.now

/-- A handler with its kind of result. -/
def returning {α : Type} (wrap : α → Obtained) (p : Action α) : Action Obtained := do
  let a ← p
  pure (wrap a)

/-- The handler of an operation. -/
def Operation.body (settings : FactorSettings) : Operation → Action Obtained
  | .post uuid data client => returning .view (postAuthRequest settings uuid data client)
  | .get claims id => returning .view (getAuthRequest claims id)
  | .put claims id data => returning .view (putAuthRequest claims id data)
  | .response id code client => returning .view (getAuthRequestResponse id code client)
  | .pending claims => returning .waiting (getAuthRequestsPending claims)
  | .login mail id code ip => returning .account (loginWithRequest settings mail id code ip)
  | .purge => returning (fun _ => .nothing) purgeExpiredAuthRequests
  | .elsewhere change => returning (fun _ => .nothing) (AuthRequestRuns.elsewhere change)

/-- The server with these operations. -/
def server (settings : FactorSettings) : System (Statement Store) Statement.Answer Unit String
    (Except String Obtained) Store Operation :=
  ⟨exec,fun op => respond (op.body settings)⟩

/-- One move of these operations. -/
abbrev Step := Move String (Except String Obtained) Store Operation

section Origins

variable (moved : Operation → Store → Prop)

/-- A request has created a row: its fields, the clock at that time, and the
account and the device that it has named. -/
structure Requested (settings : FactorSettings) (r : AuthRequest) (data : AuthRequestRequest)
    (client : ClientHeaders) : Prop where
  /-- Clock. -/
  created : ∃ s,moved (.post r.uuid data client) s ∧ r.creationDate=s.db.now
  /-- Account. -/
  account : ∃ s u,moved (.post r.uuid data client) s ∧ u∈s.db.users ∧
    u.email=settings.toLowercase data.email ∧ u.uuid=r.userUuid
  /-- Device. -/
  device : ∃ s d,moved (.post r.uuid data client) s ∧ d∈s.db.devices ∧ d.uuid=data.deviceIdentifier ∧
    d.userUuid=r.userUuid ∧ s.atype d.key=client.deviceType
  /-- Kind of the device. -/
  deviceType : r.deviceType=client.deviceType
  /-- Address. -/
  requestIp : r.requestIp=client.ip
  /-- Access code. -/
  accessCode : r.accessCode=data.accessCode
  /-- Key for the answer. -/
  publicKey : r.publicKey=data.publicKey

/-- A session of an account has moved an operation after its guard. -/
def Admitted (claims : LoginJwtClaims) (op : Operation) : Prop :=
  (∃ s d,moved op s ∧ d∈s.db.devices ∧ d.uuid=claims.device ∧ d.userUuid=claims.sub) ∧
    ∃ s u,moved op s ∧ u∈s.db.users ∧ u.uuid=claims.sub ∧ u.securityStamp=claims.sstamp

/-- A session of an account has approved a request with a key. -/
structure Approved (user : Uuid) (id key : Text) (hash : Option Text) (claims : LoginJwtClaims)
    (data : AuthResponseRequest) : Prop where
  /-- The session was valid. -/
  admitted : Admitted moved claims (.put claims id data)
  /-- It is one of the account. -/
  sub : claims.sub=user
  /-- It names its own device. -/
  device : claims.device=data.deviceIdentifier
  /-- The answer is yes. -/
  approved : data.requestApproved=true
  /-- The key. -/
  key : data.key=key
  /-- The hash. -/
  hash : data.masterPasswordHash=hash

/-- A row that waits for its answer. -/
def Waits (r : AuthRequest) : Prop := r.approved=none ∧ r.encKey=none ∧ r.masterPasswordHash=none

/-- Where a row comes from. -/
structure Sound (settings : FactorSettings) (r : AuthRequest) : Prop where
  /-- A request. -/
  requested : ∃ data client,Requested moved settings r data client
  /-- No answer, or one of the account. -/
  answered : Waits r ∨ r.approved=some true ∧ ∃ key claims data,r.encKey=some key ∧
    Approved moved r.userUuid r.uuid key r.masterPasswordHash claims data

/-- Every row is sound. -/
def Rows (settings : FactorSettings) (s : Store) : Prop := ∀ r∈s.requests,Sound moved settings r

/-- What a response shows. -/
def Outcome (settings : FactorSettings) : Operation → Obtained → Store → Prop
  | .get claims id,.view v,_ => ∃ r,Sound moved settings r ∧ r.uuid=id ∧ r.userUuid=claims.sub ∧ v=r.toJson
  | .put claims id _,.view v,_ => ∃ r,Sound moved settings r ∧ r.uuid=id ∧ r.userUuid=claims.sub ∧
    v.publicKey=r.publicKey ∧ v.requestDeviceType=r.deviceType ∧ v.requestIpAddress=r.requestIp
  | .response id code client,.view v,_ => ∃ r,Sound moved settings r ∧ r.uuid=id ∧ v=r.toJson ∧
    r.deviceType=client.deviceType ∧ r.requestIp=client.ip ∧ r.accessCode=code
  | .login mail id code ip,.account u,s => ∃ r,Sound moved settings r ∧ r.uuid=id ∧ r.userUuid=u.uuid ∧
    r.approved=some true ∧ s.db.now<r.creationDate+300 ∧ r.requestIp=ip ∧ r.accessCode=code ∧
    ∃ s',moved (.login mail id code ip) s' ∧ u∈s'.db.users ∧ u.email=settings.toLowercase mail
  | .pending claims,.waiting list,_ => ∀ x∈list,∃ r,Sound moved settings r ∧ r.uuid=x.1 ∧ r.userUuid=claims.sub ∧
    x.2=r.toJson ∧ x.2.key=none
  | _,_,_ => True

/-- What a handler of an operation does. -/
abbrev Acts {α : Type} (settings : FactorSettings) (op : Operation) (shows : α → Store → Prop) (p : Action α)
    (s₀ s : Store) : Prop :=
  Responds exec (Relies moved (fun _ => Rows moved settings) op) (fun _ => Rows moved settings)
    (fun r _ s => Rows moved settings s ∧ ∀ a,r=.ok a → shows a s) p s₀ s

end Origins

section Rules

variable {α β : Type} {moved : Operation → Store → Prop} {settings : FactorSettings} {op : Operation}
  {shows : α → Store → Prop} {s₀ s : Store} {r : AuthRequest}

theorem acts_query {f : Store → β} {g : β → Action α} (hs : Rows moved settings s)
    (h : ∀ s',Rows moved settings s' → moved op s' → Acts moved settings op shows (g (f s')) s' s') :
    Acts moved settings op shows ((query f).bind g) s₀ s :=
  Responds.query hs fun s' hs' => h s' hs'.1 hs'.2

theorem acts_ensure {message : String} {condition : Bool} {g : Unit → Action α} (hs : Rows moved settings s)
    (h : condition=true → Acts moved settings op shows (g ()) s₀ s) :
    Acts moved settings op shows ((ensure message condition).bind g) s₀ s :=
  Responds.ensure h fun _ => ⟨hs,fun _ he => by cases he⟩

theorem acts_expect {message : String} {value : Option β} {g : β → Action α} (hs : Rows moved settings s)
    (h : ∀ b,value=some b → Acts moved settings op shows (g b) s₀ s) :
    Acts moved settings op shows ((expect message value).bind g) s₀ s :=
  Responds.expect h fun _ => ⟨hs,fun _ he => by cases he⟩

theorem acts_pure {a : α} (hs : Rows moved settings s) (h : shows a s) :
    Acts moved settings op shows (.done a) s₀ s := ⟨hs,fun _ he => by cases he; exact h⟩

/-- A row that is found is sound. -/
theorem sound_of_find {f : AuthRequest → Bool} (hs : Rows moved settings s) (h : s.requests.find? f=some r) :
    Sound moved settings r := hs r (List.mem_of_find?_eq_some h)

theorem rows_put (hs : Rows moved settings s) (hr : Sound moved settings r) : Rows moved settings (s.put r) := by
  intro q hq
  rcases mem_put.mp hq with rfl|⟨hq,-⟩
  · exact hr
  · exact hs q hq

theorem rows_drop {uuid : Text} (hs : Rows moved settings s) : Rows moved settings (s.drop uuid) :=
  fun q hq => hs q (List.mem_of_mem_filter hq)

/-- A sound row is saved. -/
theorem acts_save {g : Unit → Action α} (hs : Rows moved settings s) (hr : Sound moved settings r)
    (h : ∀ s₁ s₂,Rows moved settings s₂ → Acts moved settings op shows (g ()) s₁ s₂) :
    Acts moved settings op shows (r.save.bind g) s₀ s := by
  refine Responds.execute hs (fun s₁ s₂ hs₁ hc => ?_) fun s₁ hs₁ _ => ⟨hs₁.1,fun _ he => by cases he⟩
  split at hc
  · cases hc
    exact h s₁ _ (rows_put hs₁.1 hr)
  · cases hc

theorem acts_delete {g : Unit → Action α} (hs : Rows moved settings s)
    (h : ∀ s₁ s₂,Rows moved settings s₂ → Acts moved settings op shows (g ()) s₁ s₂) :
    Acts moved settings op shows (r.delete.bind g) s₀ s := by
  refine Responds.execute hs (fun s₁ s₂ hs₁ hc => ?_) fun s₁ hs₁ _ => ⟨hs₁.1,fun _ he => by cases he⟩
  cases hc
  exact h s₁ _ (rows_drop hs₁.1)

/-- The clock is read. -/
theorem acts_utcNow {g : ℤ → Action α} (h : Acts moved settings op shows (g s.db.now) s₀ s) :
    Acts moved settings op shows (utcNow.bind g) s₀ s := h

/-- The guard. -/
theorem acts_headers {claims : LoginJwtClaims} {g : Device×User → Action α} (hs : Rows moved settings s)
    (h : ∀ s' d u,Rows moved settings s' → moved op s' → Admitted moved claims op → d.uuid=claims.device →
      u.uuid=claims.sub → Acts moved settings op shows (g (d,u)) s' s') :
    Acts moved settings op shows ((headers claims).bind g) s₀ s := by
  unfold headers
  simp only [bind_eq,Script.bind_assoc]
  refine acts_query hs fun s₁ hs₁ hm₁ => acts_expect hs₁ fun d hd => ?_
  refine acts_query hs₁ fun s₂ hs₂ hm₂ => acts_expect hs₂ fun u hu => ?_
  refine acts_ensure hs₂ fun hstamp => ?_
  have hdevice := List.find?_some hd
  have huser := List.find?_some hu
  rw [decide_eq_true_eq] at hdevice huser hstamp
  have hadmitted : Admitted moved claims op :=
    ⟨⟨s₁,d,hm₁,List.mem_of_find?_eq_some hd,hdevice⟩,s₂,u,hm₂,List.mem_of_find?_eq_some hu,huser,hstamp⟩
  exact h s₂ d u hs₂ hm₂ hadmitted hdevice.1 huser

/-- A handler with its kind of result. -/
theorem acts_returning {wrap : α → Obtained} {p : Action α} (h : Acts moved settings op
    (fun a => Outcome moved settings op (wrap a)) p s₀ s) :
    Acts moved settings op (Outcome moved settings op) (returning wrap p) s₀ s := by
  refine Responds.bind h (fun a s₁ s₂ ha => acts_pure ha.1 (ha.2 a rfl)) fun e s₁ s₂ he => ?_
  exact ⟨he.1,fun _ hno => by cases hno⟩

end Rules

section Handlers

variable {moved : Operation → Store → Prop} {settings : FactorSettings} {s : Store}

/-- A request leaves a sound row. -/
theorem acts_post {uuid : Text} {data : AuthRequestRequest} {client : ClientHeaders}
    {shows : View → Store → Prop} (hs : Rows moved settings s) (hshows : ∀ v s',shows v s') :
    Acts moved settings (.post uuid data client) shows (postAuthRequest settings uuid data client) s s := by
  unfold postAuthRequest
  refine acts_query hs fun s₁ hs₁ hm₁ => acts_expect hs₁ fun u hu => ?_
  refine acts_query hs₁ fun s₂ hs₂ hm₂ => acts_expect hs₂ fun d hd => acts_utcNow ?_
  have hemail := List.find?_some hu
  rw [decide_eq_true_eq] at hemail
  obtain ⟨hfound,htype⟩ := Option.filter_eq_some_iff.mp hd
  have hkey := List.find?_some hfound
  rw [decide_eq_true_eq] at hkey htype
  have hrequested : Requested moved settings (AuthRequest.new uuid s₂.db.now u.uuid client data) data client :=
    ⟨⟨s₂,hm₂,rfl⟩,⟨s₁,u,hm₁,List.mem_of_find?_eq_some hu,hemail,rfl⟩,
      ⟨s₂,d,hm₂,List.mem_of_find?_eq_some hfound,hkey.1,hkey.2,htype⟩,rfl,rfl,rfl,rfl⟩
  exact acts_save hs₂ ⟨⟨data,client,hrequested⟩,.inl ⟨rfl,rfl,rfl⟩⟩ fun s₃ s₄ hs₄ => acts_pure hs₄ (hshows _ _)

theorem acts_get {claims : LoginJwtClaims} {id : Text} (hs : Rows moved settings s) :
    Acts moved settings (.get claims id) (fun v => Outcome moved settings (.get claims id) (.view v))
      (getAuthRequest claims id) s s := by
  unfold getAuthRequest AuthRequest.findByUuidAndUser
  refine acts_headers hs fun s₁ d u hs₁ _ _ _ hu => ?_
  refine acts_query hs₁ fun s₂ hs₂ _ => acts_expect hs₂ fun r hr => ?_
  have hkey := List.find?_some hr
  rw [decide_eq_true_eq] at hkey
  exact acts_pure hs₂ ⟨r,sound_of_find hs₂ hr,hkey.1,hkey.2.trans hu,rfl⟩

/-- An approval is one of the account. -/
theorem sound_approve {claims : LoginJwtClaims} {id : Text} {data : AuthResponseRequest} {r : AuthRequest} {now : ℤ}
    (hr : Sound moved settings r) (hadmitted : Admitted moved claims (.put claims id data)) (hid : r.uuid=id)
    (hsub : r.userUuid=claims.sub) (hdevice : claims.device=data.deviceIdentifier)
    (happroved : data.requestApproved=true) : Sound moved settings (r.approve data now) := by
  subst hid
  obtain ⟨⟨asked,client,hrequested⟩,-⟩ := hr
  refine ⟨⟨asked,client,?_⟩,.inr ⟨rfl,data.key,claims,data,rfl,?_⟩⟩
  · exact ⟨hrequested.created,hrequested.account,hrequested.device,hrequested.deviceType,hrequested.requestIp,
      hrequested.accessCode,hrequested.publicKey⟩
  · exact ⟨hadmitted,hsub.symm,hdevice,happroved,rfl,rfl⟩

theorem acts_put {claims : LoginJwtClaims} {id : Text} {data : AuthResponseRequest} (hs : Rows moved settings s) :
    Acts moved settings (.put claims id data) (fun v => Outcome moved settings (.put claims id data) (.view v))
      (putAuthRequest claims id data) s s := by
  unfold putAuthRequest AuthRequest.findByUuidAndUser
  refine acts_headers hs fun s₁ d u hs₁ _ hadmitted hd hu => ?_
  refine acts_query hs₁ fun s₂ hs₂ _ => acts_expect hs₂ fun r hr => ?_
  refine acts_ensure hs₂ fun hdevice => acts_ensure hs₂ fun _ => acts_utcNow ?_
  rw [decide_eq_true_eq] at hdevice
  have hkey := List.find?_some hr
  rw [decide_eq_true_eq] at hkey
  have hsub : r.userUuid=claims.sub := hkey.2.trans hu
  have hsound := sound_of_find hs₂ hr
  split
  case isTrue happroved =>
    have hanswer : Sound moved settings (r.approve data s₂.db.now) :=
      sound_approve hsound hadmitted hkey.1 hsub (hd.symm.trans hdevice) happroved
    exact acts_save hs₂ hanswer fun s₃ s₄ hs₄ => acts_pure hs₄ ⟨_,hanswer,hkey.1,hsub,rfl,rfl,rfl⟩
  case isFalse =>
    exact acts_delete hs₂ fun s₃ s₄ hs₄ => acts_pure hs₄ ⟨r,hsound,hkey.1,hsub,rfl,rfl,rfl⟩

theorem acts_response {id code : Text} {client : ClientHeaders} (hs : Rows moved settings s) :
    Acts moved settings (.response id code client)
      (fun v => Outcome moved settings (.response id code client) (.view v))
      (getAuthRequestResponse id code client) s s := by
  unfold getAuthRequestResponse AuthRequest.findByUuid
  refine acts_query hs fun s₁ hs₁ _ => acts_expect hs₁ fun r hr => acts_ensure hs₁ fun hmatch => ?_
  have hkey := List.find?_some hr
  unfold FirstFactor.AuthRequest.checkAccessCode at hmatch
  simp only [Bool.and_eq_true,decide_eq_true_eq] at hkey hmatch
  exact acts_pure hs₁ ⟨r,sound_of_find hs₁ hr,hkey,rfl,hmatch.1.1,hmatch.1.2,hmatch.2⟩

theorem acts_pending {claims : LoginJwtClaims} (hs : Rows moved settings s) :
    Acts moved settings (.pending claims)
      (fun list => Outcome moved settings (.pending claims) (.waiting list))
      (getAuthRequestsPending claims) s s := by
  unfold getAuthRequestsPending
  refine acts_headers hs fun s₁ d u hs₁ _ _ _ hu => acts_query hs₁ fun s₂ hs₂ _ => acts_pure hs₂ ?_
  intro x hx
  obtain ⟨r,hr,rfl⟩ := List.mem_map.mp hx
  obtain ⟨hr,hwaits⟩ := List.mem_filter.mp hr
  obtain ⟨hr,huser⟩ := List.mem_filter.mp hr
  rw [decide_eq_true_eq] at hwaits huser
  have hsound := hs₂ r hr
  refine ⟨r,hsound,rfl,huser.trans hu,rfl,?_⟩
  rcases hsound.answered with hwaiting|⟨happroved,-⟩
  · exact hwaiting.2.1
  · rw [hwaits] at happroved
    cases happroved

theorem acts_login {mail id code ip : Text} (hs : Rows moved settings s) :
    Acts moved settings (.login mail id code ip)
      (fun u => Outcome moved settings (.login mail id code ip) (.account u))
      (loginWithRequest settings mail id code ip) s s := by
  unfold loginWithRequest AuthRequest.findByUuidAndUser
  refine acts_query hs fun s₁ hs₁ hm₁ => acts_expect hs₁ fun u hu => ?_
  refine acts_query hs₁ fun s₂ hs₂ _ => acts_expect hs₂ fun r hr => acts_utcNow (acts_ensure hs₂ fun h => ?_)
  have hemail := List.find?_some hu
  have hkey := List.find?_some hr
  rw [decide_eq_true_eq] at hemail hkey
  obtain ⟨howner,happroved,hfresh,hip,hcode⟩ := opens_condition.mp h
  exact acts_pure hs₂ ⟨r,sound_of_find hs₂ hr,hkey.1,howner,happroved,hfresh,hip,hcode,s₁,hm₁,
    List.mem_of_find?_eq_some hu,hemail⟩

theorem acts_purge {shows : Unit → Store → Prop} (hs : Rows moved settings s) (hshows : ∀ s',shows () s') :
    Acts moved settings .purge shows purgeExpiredAuthRequests s s := by
  unfold purgeExpiredAuthRequests
  refine acts_utcNow (acts_query hs fun s₁ hs₁ _ => ?_)
  refine Responds.each (J:=fun _ _ s' => Rows moved settings s') (fun r rs s₂ s₃ hs₃ => ?_)
    (fun s₂ s₃ hs₃ => ⟨hs₃,fun _ _ => hshows s₃⟩) hs₁
  refine Responds.ok (Q:=fun _ _ s' => Rows moved settings s') ?_ fun _ _ s' hs' => ⟨fun _ => hs',fun e he => by cases he⟩
  refine Responds.execute_done hs₃ (fun s₄ s₅ hs₄ hc => ?_) fun s₄ hs₄ _ => hs₄.1
  cases hc
  exact rows_drop hs₄.1

theorem acts_elsewhere {change : Store → Option Store} {shows : Unit → Store → Prop} (hs : Rows moved settings s)
    (hshows : ∀ s',shows () s') : Acts moved settings (.elsewhere change) shows (elsewhere change) s s := by
  refine Responds.execute_done hs (fun s₁ s₂ hs₁ hc => ?_) fun s₁ hs₁ _ => ⟨hs₁.1,fun _ he => by cases he⟩
  obtain ⟨-,hsame⟩ := Option.filter_eq_some_iff.mp hc
  rw [decide_eq_true_eq] at hsame
  refine ⟨fun r hr => hs₁.1 r ?_,fun _ _ => hshows s₂⟩
  rw [← hsame.1]
  exact hr

/-- Every handler keeps rows sound and shows sound rows. -/
theorem acts_body (op : Operation) (hs : Rows moved settings s) :
    Acts moved settings op (Outcome moved settings op) (op.body settings) s s := by
  cases op with
  | post uuid data client => exact acts_returning (acts_post hs fun _ _ => trivial)
  | get claims id => exact acts_returning (acts_get hs)
  | put claims id data => exact acts_returning (acts_put hs)
  | response id code client => exact acts_returning (acts_response hs)
  | pending claims => exact acts_returning (acts_pending hs)
  | login mail id code ip => exact acts_returning (acts_login hs)
  | purge => exact acts_returning (acts_purge hs fun _ => trivial)
  | elsewhere change => exact acts_returning (acts_elsewhere hs fun _ => trivial)

end Handlers

section Runs

variable {settings : FactorSettings} {start : Store} {history later : List Step} {m : Step}
  {events : List (Event Operation Unit)}

theorem contract (moved : Operation → Store → Prop) :
    Contract (server settings) moved (Rows moved settings) (fun _ => Rows moved settings)
      (fun _ _ => Rows moved settings)
      fun op r _ s => Rows moved settings s ∧ ∀ a,r=.ok a → Outcome moved settings op a s := by
  refine ⟨fun op s hs _ => (acts_body op hs).bears,fun s hs => hs,fun a b c _ hbc => hbc,?_,?_⟩
  · intro op p s s' _ _ h
    rcases ended_cases h with hrows|⟨a,ha⟩
    · exact hrows
    · exact ha.1
  · intro op p s s' _ _ h
    rcases ended_cases h with hrows|⟨a,ha⟩
    · exact hrows
    · exact ha.1

/-- What a response of a run shows. -/
theorem outcome_of_trace (hstart : start.requests=[]) (h : trace (server settings) ⟨start,[]⟩ events=history++m::later)
    {a : Obtained} (hm : response m=some (.ok a)) : Outcome (MovedIn (history++[m])) settings m.op a m.after := by
  have hnone : Rows (MovedIn (history++[m])) settings start := by
    intro r hr
    rw [hstart] at hr
    cases hr
  have hshows := shows_of_trace (contract _) hnone h
  rcases shows_cases hshows with ⟨hno,-⟩|⟨r,hr,-,houtcome⟩
  · rw [hno] at hm
    cases hm
  · rw [hr] at hm
    exact houtcome a (Option.some.inj hm)

/-- What a move of another operation knows was known before it. -/
theorem movedIn_history {op : Operation} {s : Store} (h : MovedIn (history++[m]) op s) (hop : m.op≠op) :
    MovedIn history op s := by
  obtain ⟨m',hm',hop',hs⟩ := h
  rcases List.mem_append.mp hm' with hm'|hm'
  · exact ⟨m',hm',hop',hs⟩
  · rw [List.mem_singleton.mp hm'] at hop'
    exact absurd hop' hop

section Mono

variable {moved moved' : Operation → Store → Prop} {r : AuthRequest} {data : AuthRequestRequest}
  {client : ClientHeaders}

theorem Requested.mono (h : Requested moved settings r data client)
    (himp : ∀ s,moved (.post r.uuid data client) s → moved' (.post r.uuid data client) s) :
    Requested moved' settings r data client := by
  obtain ⟨⟨s₁,hm₁,hcreated⟩,⟨s₂,u,hm₂,haccount⟩,⟨s₃,d,hm₃,hdevice⟩,htype,hip,hcode,hkey⟩ := h
  exact ⟨⟨s₁,himp _ hm₁,hcreated⟩,⟨s₂,u,himp _ hm₂,haccount⟩,⟨s₃,d,himp _ hm₃,hdevice⟩,htype,hip,hcode,hkey⟩

theorem Approved.mono {user : Uuid} {id key : Text} {hash : Option Text} {claims : LoginJwtClaims}
    {answer : AuthResponseRequest} (h : Approved moved user id key hash claims answer)
    (himp : ∀ s,moved (.put claims id answer) s → moved' (.put claims id answer) s) :
    Approved moved' user id key hash claims answer := by
  obtain ⟨⟨⟨s₁,d,hm₁,hdevice⟩,s₂,u,hm₂,huser⟩,hsub,hown,happroved,hkey,hhash⟩ := h
  exact ⟨⟨⟨s₁,d,himp _ hm₁,hdevice⟩,s₂,u,himp _ hm₂,huser⟩,hsub,hown,happroved,hkey,hhash⟩

end Mono

/-- A fetched answer: a request with this code came from the same kind of
device at the same address, and every key in the answer was approved by the
account that the request has named. -/
structure Fetched (settings : FactorSettings) (history : List Step) (id code : Text) (client : ClientHeaders)
    (v : View) (r : AuthRequest) (data : AuthRequestRequest) : Prop where
  /-- The request. -/
  requested : Requested (MovedIn history) settings r data client
  /-- It has this uuid. -/
  uuid : r.uuid=id
  /-- And this code. -/
  code : data.accessCode=code
  /-- The key that the answer is wrapped with. -/
  publicKey : v.publicKey=data.publicKey
  /-- The answer. -/
  approved : ∀ key,v.key=some key →
    ∃ claims answer,Approved (MovedIn history) r.userUuid id key v.masterPasswordHash claims answer

/-- A login with a request: it has this code and came from this address less
than five minutes ago, and the account has approved it. -/
structure SignedIn (settings : FactorSettings) (history : List Step) (id code ip : Text) (u : User) (now : ℤ)
    (r : AuthRequest) (data : AuthRequestRequest) (client : ClientHeaders) : Prop where
  /-- The request. -/
  requested : Requested (MovedIn history) settings r data client
  /-- It has this uuid. -/
  uuid : r.uuid=id
  /-- This code. -/
  code : data.accessCode=code
  /-- And this address. -/
  ip : client.ip=ip
  /-- It is not too old. -/
  fresh : now<r.creationDate+300
  /-- It is for this account. -/
  account : r.userUuid=u.uuid
  /-- Which has approved it. -/
  approved : ∃ key claims answer,Approved (MovedIn history) u.uuid id key r.masterPasswordHash claims answer

/-- In every run, with any overlap of requests: an answer is handed out only
for a request with the code, at the address and for the kind of device that it
came from, its key was approved before by a valid session of the account that
the request has named; and a login with a request opens only the account that
has approved it. -/
theorem request_granted (hstart : start.requests=[])
    (h : trace (server settings) ⟨start,[]⟩ events=history++m::later) :
    (∀ id code client v,m.op=.response id code client → response m=some (.ok (.view v)) →
      ∃ r data,Fetched settings history id code client v r data) ∧
    ∀ mail id code ip u,m.op=.login mail id code ip → response m=some (.ok (.account u)) →
      ∃ r data client,SignedIn settings history id code ip u m.after.db.now r data client := by
  constructor
  · intro id code client v hop hm
    have houtcome := outcome_of_trace hstart h hm
    rw [hop] at houtcome
    obtain ⟨r,⟨⟨data,asked,hrequested⟩,hanswered⟩,rfl,rfl,htype,hip,hcode⟩ := houtcome
    have hsame : asked=client := by
      obtain ⟨type,ip⟩ := asked
      obtain ⟨type',ip'⟩ := client
      rw [ClientHeaders.mk.injEq]
      exact ⟨hrequested.deviceType.symm.trans htype,hrequested.requestIp.symm.trans hip⟩
    subst hsame
    refine ⟨r,data,hrequested.mono fun s hs => movedIn_history hs ?_,rfl,hrequested.accessCode.symm.trans hcode,
      hrequested.publicKey,fun key hkey => ?_⟩
    · rw [hop]
      exact fun he => by cases he
    · rcases hanswered with hwaits|⟨-,key',claims,answer,hkey',happroved⟩
      · have hnone : r.encKey=none := hwaits.2.1
        rw [show r.encKey=some key from hkey] at hnone
        cases hnone
      · rw [show r.encKey=some key from hkey] at hkey'
        cases hkey'
        refine ⟨claims,answer,happroved.mono fun s hs => movedIn_history hs ?_⟩
        rw [hop]
        exact fun he => by cases he
  · intro mail id code ip u hop hm
    have houtcome := outcome_of_trace hstart h hm
    rw [hop] at houtcome
    obtain ⟨r,⟨⟨data,client,hrequested⟩,hanswered⟩,rfl,huser,hgranted,hfresh,hip,hcode,-⟩ := houtcome
    refine ⟨r,data,client,hrequested.mono fun s hs => movedIn_history hs ?_,rfl,
      hrequested.accessCode.symm.trans hcode,hrequested.requestIp.symm.trans hip,hfresh,huser,?_⟩
    · rw [hop]
      exact fun he => by cases he
    · rcases hanswered with hwaits|⟨-,key,claims,answer,-,happroved⟩
      · rw [hwaits.1] at hgranted
        cases hgranted
      · rw [huser] at happroved
        refine ⟨key,claims,answer,happroved.mono fun s hs => movedIn_history hs ?_⟩
        rw [hop]
        exact fun he => by cases he

end Runs

section Answers

open GuardedScript

variable {settings : FactorSettings} {start : Store} {op : Operation} {s₀ s : Store} {id : Text}

/-- Rows that wait are old, or those of a new request. -/
def Change (op : Operation) (s s' : Store) : Prop :=
  ∀ r∈s'.requests,r∈s.requests ∨ r.approved≠none ∨ ∃ data client,op=.post r.uuid data client

/-- A request waits for its answer. -/
def Open (id : Text) (s : Store) : Prop := ∃ r∈s.requests,r.uuid=id ∧ r.approved=none

/-- What an answer that succeeds shows: the request has waited, and no longer
does. -/
def Closes {α : Type} (op : Operation) (r : Except String α) (s s' : Store) : Prop :=
  Change op s s' ∧ ((∃ a,r=.ok a) → ∀ claims id data,op=.put claims id data → Open id s ∧ ¬Open id s')

theorem change_refl (s : Store) : Change op s s := fun _ hr => .inl hr

theorem change_put {r : AuthRequest} (h : r.approved≠none ∨ ∃ data client,op=.post r.uuid data client) :
    Change op s (s.put r) := by
  intro q hq
  rcases mem_put.mp hq with rfl|⟨hq,-⟩
  · exact .inr h
  · exact .inl hq

theorem guards_save {r : AuthRequest} (h : r.approved≠none ∨ ∃ data client,op=.post r.uuid data client) :
    Guards exec (Change op) r.save := by
  refine Guards.execute change_refl fun s s' hc => ?_
  split at hc
  · cases hc
    exact change_put h
  · cases hc

/-- The move has answered a request. -/
def answers (id : Text) (m : Step) : Prop :=
  (∃ claims data,m.op=.put claims id data) ∧ ∃ a,response m=some (.ok a)

/-- The move belongs to a request with a uuid. -/
def posts (id : Text) (m : Step) : Prop := ∃ data client,m.op=.post id data client

end Answers

section Samples

/-- One account with two devices. -/
def twoDevices : Store where
  db := ⟨{Tables.none with
    users := [User.new 1 0 [] 600000 ['a'] none]
    devices := [⟨5,1,[],none,2,none⟩,⟨6,1,[],none,3,none⟩]
    next := 7},by decide⟩
  atype := fun _ => 9
  requests := []
  keyed := List.nodup_nil

/-- A new browser. -/
def browser : ClientHeaders := ⟨9,['i']⟩

/-- It asks with the code `c` and the key `k`. -/
def asking : AuthRequestRequest := ⟨['c'],5,['a'],['k']⟩

/-- The session of the other device. -/
def session : LoginJwtClaims := ⟨1,6,0⟩

/-- The other device approves. -/
def approving : AuthResponseRequest := ⟨6,['w'],none,true⟩

/-- Settings with an identity of lower case. -/
def plainSettings : FactorSettings := TotpRuns.countingSettings

/-- An operation with its number of statements. -/
def runs (n statements : ℕ) (op : Operation) : List (Event Operation Unit) :=
  .start op::List.replicate statements (.resume n ⟨[],()⟩)

/-- A request, its approval, and the answer. -/
def granted : List (Event Operation Unit) :=
  runs 0 3 (.post ['r'] asking browser)++runs 1 4 (.put session ['r'] approving)++
    runs 2 1 (.response ['r'] ['c'] browser)

/-- The moves. -/
def grantedMoves : List Step := trace (server plainSettings) ⟨twoDevices,[]⟩ granted

/-- What the browser gets. -/
def answer : View := ⟨['k'],9,['i'],some ['w'],none,0,some 0,some true⟩

theorem request_granted_sample :
    ∃ r data,Fetched plainSettings grantedMoves.dropLast ['r'] ['c'] browser answer r data := by
  have hne : grantedMoves≠[] := by decide
  have hsplit := (List.dropLast_append_getLast hne).symm
  exact (request_granted (show twoDevices.requests=[] from rfl) hsplit).1 ['r'] ['c'] browser answer rfl rfl

end Samples

end NadSafe.AuthRequestRuns
