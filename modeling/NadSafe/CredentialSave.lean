import Mathlib.Algebra.Order.Ring.Nat
import NadSafe.ExtensionContracts
import NadSafe.FieldRoundTrip

/-!
# Ciphers created by one saved credential

One `SAVE_CREDENTIAL` message may reach the server twice: the worker posts the
cipher itself, and a result that is not ok sends the credential to the web
app, which posts it again. The server decides for every such request whether
it creates a cipher, independently of what it answers and of whether the
answer arrives.
-/

namespace NadSafe.CredentialSave

open HostText AsyncScript AsyncScript.Script WireFormat WebCrypto
open WebClient (WebState WebCall Arrived Sent Body KeyRef)
open WebScripts (issuedKey)
open WebOperations (SaveRequest)
open SequentialScript FulfilledScript ExtensionWorker ExtensionHandlers ExtensionContracts
open WebContracts (KeyAccess Faithful)
open WebResults (Fulfilled KeepsTab KeyOnly keyPost sessionAccess sessionFaithful session_ensures)
open FieldRoundTrip (Answered)

/-- One message and everything that is there when it is handled. -/
structure Delivery where
  /-- Crypto of both parties. -/
  platform : Platform
  /-- Text functions of the worker's host. -/
  host : Host
  /-- The worker. -/
  worker : WorkerState
  /-- Host name of the page. -/
  hostname : Text
  /-- User name. -/
  username : Text
  /-- Password. -/
  password : Text
  /-- The address that the web app's tab shows. -/
  page : Option Text
  /-- The web app in that tab. -/
  tab : WebState

/-- How the promises of both parties settle and what the server does. -/
structure Behaviour (d : Delivery) where
  /-- What arrives at the suspensions of the worker. -/
  arrivals : ℕ → Arrival Settled
  /-- An address that arrives is that of the tab. -/
  page : ∀ n url,(arrivals n).value=.tab url → url=d.page
  /-- What arrives at the suspensions of the web app. -/
  tabArrivals : ℕ → Arrival Arrived
  /-- Whether the server creates a cipher for each request, in order. -/
  creates : ℕ → Bool

/-- A request of the web app for a new cipher. -/
def isCreation (message : Sent) : Bool :=
  match message.body with
  | .cipher _ _ => message.method=="POST".toList
  | _ => false

namespace Behaviour

variable {d : Delivery}

/-- The requests of the web app after it was handed a credential. -/
def tabSent (b : Behaviour d) (payload : SaveRequest) : List Sent :=
  (play WebClient.exec (WebOperations.handleMessage d.platform payload) b.tabArrivals d.tab).2.sent

/-- The number of requests for a new cipher that a relayed credential causes. -/
def tabRequests (b : Behaviour d) (payload : SaveRequest) : ℕ :=
  ((b.tabSent payload).drop d.tab.sent.length).countP isCreation

/-- The number of requests for a new cipher behind one message of the worker. -/
def requests (b : Behaviour d) : Outgoing → ℕ
  | .request method _ _ body => if method="POST".toList ∧ body.isSome=true then 1 else 0
  | .relay _ hostname username password uri =>
    b.tabRequests ⟨some hostname,some username,some password,some uri⟩

/-- What the worker sends while it handles the message. -/
def sent (b : Behaviour d) : List Outgoing :=
  (play ExtensionWorker.exec
    (body d.platform d.host (.saveCredential d.hostname d.username d.password)) b.arrivals
    d.worker).2.sent.drop d.worker.sent.length

/-- The number of ciphers that the message creates on the server. -/
def created (b : Behaviour d) : ℕ :=
  (List.range (b.sent.map b.requests).sum).countP b.creates

end Behaviour

/-- A stored user key that the worker can use. -/
def Readable (userKey : Option Text) : Prop :=
  ∃ bytes key,fromB64 (userKey.getD [])=.ok bytes ∧ symKeyFromBytes bytes=.ok key

/-- The worker posts the credential itself. -/
structure Posts (d : Delivery) : Prop where
  /-- The session is not locked. -/
  unlocked : d.worker.session.locked≠some true
  /-- A user key and a token are stored. -/
  stored : ¬(missing d.worker.session.userKey=true ∨ missing d.worker.session.accessToken=true)
  /-- The stored user key is one. -/
  key : Readable d.worker.session.userKey

/-- The worker may hand the credential to the web app. -/
def Relays (d : Delivery) : Prop :=
  ∃ id origin url,d.worker.session.webappTabId=some id ∧ d.worker.session.webappOrigin=some origin ∧
    origin≠[] ∧ d.page=some url ∧ d.host.originOf url=some origin

/-- The web app posts what it is handed. -/
structure Accepts (d : Delivery) : Prop where
  /-- It is unlocked. -/
  session : d.tab.userKey≠none
  /-- It has an API client. -/
  client : d.tab.client≠none
  /-- The password is not empty. -/
  password : d.password≠[]

/-- The payload of the relayed message. -/
def relayed (d : Delivery) : SaveRequest :=
  ⟨some d.hostname,some d.username,some d.password,some ("https://".toList++d.hostname)⟩

section Tab

variable {platform : Platform}

/-- Calls of the web app that send nothing. -/
def TabQuiet : WebCall → Prop
  | .fetch _ _ _ _ _ => False
  | _ => True

theorem tab_sent_of_quiet {c : WebCall} (h : TabQuiet c) (s : WebState) :
    (WebClient.exec c s).2.sent=s.sent := by
  cases c with
  | fetch client method path noAuth body => exact absurd h id
  | clearSessionKey =>
    unfold WebClient.exec WebState.clearSessionKey
    dsimp only
    split <;> rfl
  | _ => rfl

/-- At most one request for a new cipher was added. -/
def AtMostOne (before after : List Sent) : Prop :=
  ∃ more,after=before++more ∧ more.countP isCreation≤1

theorem AtMostOne.none (sent : List Sent) : AtMostOne sent sent :=
  ⟨[],(List.append_nil sent).symm,Nat.zero_le 1⟩

/-- A script without requests adds none. -/
theorem quiet_ensures {α : Type} {Q : α → Prop} {p : WebClient.Web α}
    (h : p.Obeys TabQuiet (fun _ _ => True) Q) (s : WebState) :
    Ensures WebClient.exec (fun _ => True) (fun _ s' => s'.sent=s.sent) (fun s' => s'.sent=s.sent) p s :=
  (Ensures.frame (fun _ s hc => tab_sent_of_quiet hc s) h s).mono (fun _ _ h => h.2) fun _ h => h

theorem quietAccess (key : KeyRef) : KeyAccess TabQuiet key :=
  ⟨fun _ => trivial,fun _ _ _ => trivial,fun _ _ _ => trivial⟩

/-- One request is sent, whatever is answered. -/
theorem request_ensures (client : ℕ) (method path : Text) (body : Body) (noAuth : Bool) (s : WebState) :
    Ensures WebClient.exec (fun _ => True) (fun _ s' => AtMostOne s.sent s'.sent)
      (fun s' => AtMostOne s.sent s'.sent) (WebScripts.request client method path body noAuth) s := by
  have hone {s' : WebState} (h : s'.sent=s.sent++[s.outgoing client method path noAuth body]) :
      AtMostOne s.sent s'.sent := ⟨_,h,List.countP_le_length⟩
  exact (WebResults.request_sends client method path body noAuth s).mono (fun _ _ h => hone h)
    fun _ h => hone h

/-- The web app asks for at most one cipher. -/
theorem relayWith_ensures (payload : SaveRequest) (key : KeyRef) (s : WebState) :
    Ensures WebClient.exec (fun _ => True) (fun _ s' => AtMostOne s.sent s'.sent)
      (fun s' => AtMostOne s.sent s'.sent) (WebOperations.relayWith platform payload key) s := by
  have hnone {s' : WebState} (h : s'.sent=s.sent) : AtMostOne s.sent s'.sent := by
    rw [h]
    exact .none s.sent
  have hpayload : (WebOperations.savePayload platform payload key).Obeys TabQuiet (fun _ _ => True) _ :=
    WebContracts.savePayload_obeys (quietAccess key) payload
  unfold WebOperations.relayWith
  split
  · exact .none s.sent
  · have hclient := quiet_ensures (WebContracts.getApiClient_obeys trivial) s
    refine (hclient.mono (fun _ _ h => h) fun _ h => hnone h).bind fun client s₁ h₁ => ?_
    have hbuilt := quiet_ensures hpayload s₁
    refine (hbuilt.mono (fun _ _ h => h) fun _ h => hnone (h.trans h₁)).bind fun request s₂ h₂ => ?_
    have hsent := request_ensures client "POST".toList "/api/ciphers".toList
      (.cipher request (issuedKey key)) false s₂
    rw [h₂,h₁] at hsent
    refine hsent.bind fun answer s₃ h₃ => ?_
    cases answer with
    | cipher created =>
      have hread : (WebScripts.decryptCipher platform created key).Obeys TabQuiet (fun _ _ => True) _ :=
        WebContracts.decryptCipher_obeys (quietAccess key) created
      refine ((quiet_ensures hread s₃).mono (fun _ _ h => h) fun _ h => ?_).bind fun item s₄ h₄ => ?_
      · rw [h]
        exact h₃
      · rw [←h₄] at h₃
        exact h₃
    | _ => exact h₃

/-- The web app asks for at most one cipher. -/
theorem handleMessage_ensures (payload : SaveRequest) (s : WebState) :
    Ensures WebClient.exec (fun _ => True) (fun _ s' => AtMostOne s.sent s'.sent)
      (fun s' => AtMostOne s.sent s'.sent) (WebOperations.handleMessage platform payload) s := by
  refine Ensures.rescue ?_ fun _ _ h => h
  refine Ensures.perform rfl ?_
  cases s.getSessionUserKey with
  | none => exact .none s.sent
  | some key => exact relayWith_ensures payload key s

/-- A web app that does not accept the credential asks for none. -/
theorem handleMessage_refused {payload : SaveRequest} {s : WebState}
    (h : s.userKey=none ∨ s.client=none ∨ payload.password.getD []=[]) :
    Ensures WebClient.exec (fun _ => True) (fun _ s' => s'.sent=s.sent) (fun s' => s'.sent=s.sent)
      (WebOperations.handleMessage platform payload) s := by
  refine Ensures.rescue (E:=fun s' => s'.sent=s.sent) ?_ fun _ s' hsent => show s'.sent=s.sent from hsent
  refine Ensures.perform rfl ?_
  cases hkey : s.getSessionUserKey with
  | none => exact rfl
  | some key =>
    show Ensures _ _ _ _ (WebOperations.relayWith platform payload key) s
    unfold WebOperations.relayWith
    split
    · exact rfl
    · rename_i hpassword
      have hopen : s.userKey≠none := by
        intro hnone
        rw [WebState.getSessionUserKey,hnone] at hkey
        cases hkey
      have hclient : s.client=none := (h.resolve_left hopen).resolve_right hpassword
      refine Ensures.bind (Q:=fun _ _ => False) ?_ fun _ _ h => absurd h id
      refine Ensures.perform (congrArg (·,s) hclient) ?_
      exact rfl

end Tab

section Worker

variable {platform : Platform} {host : Host} {ok : Arrival Settled → Prop}

/-- Calls of the worker that send nothing. -/
def Quiet : WorkerCall → Prop
  | .send _ => False
  | _ => True

theorem sent_of_quiet {c : WorkerCall} (h : Quiet c) (s : WorkerState) :
    (ExtensionWorker.exec c s).2.sent=s.sent := by
  cases c with
  | send message => exact absurd h id
  | localSet fields =>
    unfold ExtensionWorker.exec WorkerState.localSet
    dsimp only
    split <;> rfl
  | _ => rfl

theorem workerQuiet_ensures {α : Type} {Q : α → Prop} {p : Worker α}
    (h : p.Obeys Quiet (fun _ _ => True) Q) (s : WorkerState) :
    Ensures ExtensionWorker.exec ok (fun _ s' => s'.sent=s.sent) (fun s' => s'.sent=s.sent)
      p s :=
  (Ensures.frame (fun _ s hc => sent_of_quiet hc s) h s).mono (fun _ _ h => h.2) fun _ h => h

/-- A snapshot is refreshed without a request. -/
theorem quietRefresh : PermitsRefresh platform Quiet fun _ _ => True where
  random _ := trivial
  get := trivial
  blob _ _ _ _ _ _ _ _ := trivial

/-- The request that the worker sends for a new cipher. -/
def IsPost (message : Outgoing) : Prop :=
  ∃ url authorization request,message=.request "POST".toList url authorization (some request)

/-- At most the request for the new cipher was sent, with a key that can be
used. -/
def MayPost (userKey : Option Text) (before after : List Outgoing) : Prop :=
  after=before ∨ Readable userKey ∧ ∃ message,IsPost message ∧ after=before++[message]

/-- The stored key is read or refused at once. -/
theorem symKeyFromB64_cases (userKey : Option Text) :
    (Readable userKey ∧ ∃ key,symKeyFromB64 (userKey.getD [])=.done key) ∨
      ∃ error,symKeyFromB64 (userKey.getD [])=.fail error := by
  unfold symKeyFromB64
  cases hbytes : fromB64 (userKey.getD []) with
  | error error => exact .inr ⟨error,rfl⟩
  | ok bytes =>
    cases hkey : symKeyFromBytes bytes with
    | error message => exact .inr ⟨errorText message,congrArg lift hkey⟩
    | ok key => exact .inl ⟨⟨bytes,key,hbytes,hkey⟩,key,congrArg lift hkey⟩

/-- The request and everything after it. -/
theorem post_ensures {message : Outgoing} {f : ℕ → Worker Reply} {s : WorkerState} {userKey : Option Text}
    (hkey : Readable userKey) (hpost : IsPost message)
    (hf : ∀ status,(f status).Obeys Quiet (fun _ _ => True) fun _ => True) :
    Ensures ExtensionWorker.exec ok (fun _ s' => MayPost userKey s.sent s'.sent)
      (fun s' => MayPost userKey s.sent s'.sent) ((fetch message).bind f) s := by
  have hsent {s' : WorkerState} (h : s'.sent=s.sent++[message]) : MayPost userKey s.sent s'.sent :=
    .inr ⟨hkey,message,hpost,h⟩
  refine Ensures.perform rfl fun i _ => ?_
  dsimp only [Script.bind]
  split
  · exact hsent rfl
  · exact (workerQuiet_ensures (hf _) _).mono (fun _ _ h => hsent h) fun _ h => hsent h
  · exact hsent rfl

/-- `saveCredentialStandalone` posts at most once. -/
theorem standalone_ensures (session : SessionArea) (hostname username password : Text) (s : WorkerState) :
    Ensures ExtensionWorker.exec ok
      (fun _ s' => MayPost session.userKey s.sent s'.sent) (fun s' => MayPost session.userKey s.sent s'.sent)
      (saveCredentialStandalone platform host session hostname username password) s := by
  refine Ensures.rescue (E:=fun s' => MayPost session.userKey s.sent s'.sent) ?_
    fun _ s' h => show MayPost session.userKey s.sent s'.sent from h
  obtain ⟨hread,key,hkey⟩|⟨error,herror⟩ := symKeyFromB64_cases session.userKey
  · rw [hkey]
    have hfield (value : Text) : (encryptField platform value key).Obeys Quiet (fun _ _ => True)
        fun _ => True := encryptField_obeys (fun _ => trivial) value key
    have huser : (encryptOptional platform username key).Obeys Quiet (fun _ _ => True) fun _ => True :=
      encryptOptional_obeys (fun _ => trivial) username key
    refine ((workerQuiet_ensures ((hfield _).both (huser.both ((hfield _).both (hfield _)))) s).mono
      (fun _ _ h => h) fun _ h => .inl h).bind fun fields s' hs => ?_
    rw [←hs]
    refine post_ensures hread ⟨_,_,_,rfl⟩ fun status => ?_
    split
    · trivial
    · split
      · refine readJson_obeys.bind fun created _ => ?_
        exact (reflect_obeys quietRefresh (fun _ => trivial) created key).bind fun _ _ => trivial
      · trivial
  · rw [herror]
    exact .inl rfl

/-- An address that arrives is that of the tab. -/
def OfPage (d : Delivery) (i : Arrival Settled) : Prop := ∀ url,i.value=.tab url → url=d.page

/-- The message that hands the credential to the web app. -/
def relayMessage (d : Delivery) (id : ℕ) : Outgoing :=
  .relay id d.hostname d.username d.password ("https://".toList++d.hostname)

/-- At most the credential was handed to the web app. -/
def MayRelay (d : Delivery) (before after : List Outgoing) : Prop :=
  after=before ∨ Relays d ∧ ∃ id,after=before++[relayMessage d id]

/-- `relayToWebapp` hands over the credential at most once. -/
theorem relay_ensures (d : Delivery) {session : SessionArea}
    (htab : session.webappTabId=d.worker.session.webappTabId)
    (horigin : session.webappOrigin=d.worker.session.webappOrigin) (s : WorkerState) :
    Ensures ExtensionWorker.exec (OfPage d) (fun _ s' => MayRelay d s.sent s'.sent)
      (fun s' => MayRelay d s.sent s'.sent)
      (relayToWebapp d.host session d.hostname d.username d.password) s := by
  have hnone : MayRelay d s.sent s.sent := .inl rfl
  unfold relayToWebapp
  split
  · rename_i id c origin hid ho
    intro i hi
    dsimp only [Script.bind]
    split
    · exact hnone
    · rename_i url hurl
      split
      · rename_i hsame
        have hrelays : Relays d :=
          ⟨id,c::origin,url,htab ▸ hid,horigin ▸ ho,by simp,(hi _ hurl).symm,hsame⟩
        have hsent : MayRelay d s.sent (s.sent++[relayMessage d id]) := .inr ⟨hrelays,id,rfl⟩
        refine Ensures.perform rfl fun j _ => ?_
        dsimp only [Script.bind]
        split <;> exact hsent
      · exact hnone
    · exact hnone
  · exact hnone

/-- What the handler sends: the request first, then the credential. -/
def Sends (d : Delivery) (before after : List Outgoing) : Prop :=
  ∃ middle,(middle=before ∨ Posts d ∧ ∃ message,IsPost message ∧ middle=before++[message]) ∧
    MayRelay d middle after

/-- `handleSaveCredential` sends nothing else. -/
theorem save_ensures (d : Delivery) :
    Ensures ExtensionWorker.exec (OfPage d) (fun _ s' => Sends d d.worker.sent s'.sent)
      (fun s' => Sends d d.worker.sent s'.sent)
      (body d.platform d.host (.saveCredential d.hostname d.username d.password)) d.worker := by
  have hnone : Sends d d.worker.sent d.worker.sent := ⟨_,.inl rfl,.inl rfl⟩
  refine Ensures.rescue (E:=fun s' => Sends d d.worker.sent s'.sent) ?_
    fun _ s' h => show Sends d d.worker.sent s'.sent from h
  intro i _
  dsimp only [Script.bind]
  split
  · exact hnone
  · refine Ensures.perform rfl ?_
    split
    · exact hnone
    · rename_i hopen
      split
      · refine (relay_ensures d rfl rfl d.worker).mono (fun _ _ h => ?_) fun _ h => ?_
        · exact ⟨_,.inl rfl,h⟩
        · exact ⟨_,.inl rfl,h⟩
      · rename_i hstored
        have hposted {s' : WorkerState} (h : MayPost d.worker.session.userKey d.worker.sent s'.sent) :
            s'.sent=d.worker.sent ∨
              Posts d ∧ ∃ message,IsPost message ∧ s'.sent=d.worker.sent++[message] :=
          h.imp id fun ⟨hread,h⟩ => ⟨⟨hopen,hstored,hread⟩,h⟩
        refine ((standalone_ensures _ _ _ _ d.worker).mono (fun _ _ h => h) fun s' h => ?_).bind
          fun direct s₁ h₁ => ?_
        · exact ⟨_,hposted h,.inl rfl⟩
        split
        · exact ⟨_,hposted h₁,.inl rfl⟩
        · refine (relay_ensures d rfl rfl s₁).mono (fun _ _ h => ?_) fun _ h => ?_
          · exact ⟨_,hposted h₁,h⟩
          · exact ⟨_,hposted h₁,h⟩

end Worker

section Bound

variable {d : Delivery}

/-- What the worker sends, part by part. -/
theorem Behaviour.sent_eq (b : Behaviour d) : ∃ posts relays,b.sent=posts++relays ∧
    (posts=[] ∨ Posts d ∧ ∃ message,IsPost message ∧ posts=[message]) ∧
      (relays=[] ∨ Relays d ∧ ∃ id,relays=[relayMessage d id]) := by
  have hsends : Sends d d.worker.sent _ := (save_ensures d).always b.page
  unfold Behaviour.sent
  generalize (play ExtensionWorker.exec _ b.arrivals d.worker).2.sent=after at hsends ⊢
  obtain ⟨middle,rfl|⟨hposts,message,hmessage,rfl⟩,rfl|⟨hrelays,id,rfl⟩⟩ := hsends
  · exact ⟨[],[],by simp,.inl rfl,.inl rfl⟩
  · exact ⟨[],[relayMessage d id],by simp,.inl rfl,.inr ⟨hrelays,id,rfl⟩⟩
  · exact ⟨[message],[],by simp,.inr ⟨hposts,message,hmessage,rfl⟩,.inl rfl⟩
  · exact ⟨[message],[relayMessage d id],by simp,.inr ⟨hposts,message,hmessage,rfl⟩,
      .inr ⟨hrelays,id,rfl⟩⟩

theorem Behaviour.tabRequests_le (b : Behaviour d) (payload : SaveRequest) :
    b.tabRequests payload≤1 := by
  have hone : AtMostOne d.tab.sent (b.tabSent payload) :=
    (handleMessage_ensures payload d.tab).always fun _ => trivial
  obtain ⟨more,hsent,hcount⟩ := hone
  unfold Behaviour.tabRequests
  rw [hsent,List.drop_left]
  exact hcount

theorem Behaviour.tabRequests_refused (b : Behaviour d) (h : ¬Accepts d) :
    b.tabRequests (relayed d)=0 := by
  have hrefused : d.tab.userKey=none ∨ d.tab.client=none ∨ (relayed d).password.getD []=[] := by
    by_contra hall
    simp only [not_or] at hall
    exact h ⟨hall.1,hall.2.1,hall.2.2⟩
  have hsame : b.tabSent (relayed d)=d.tab.sent :=
    (handleMessage_refused hrefused).always fun _ => trivial
  unfold Behaviour.tabRequests
  rw [hsame,List.drop_length]
  rfl

/-- A request of the worker counts once. -/
theorem Behaviour.requests_post (b : Behaviour d) {message : Outgoing} (h : IsPost message) :
    b.requests message=1 := by
  obtain ⟨url,authorization,request,rfl⟩ := h
  simp [Behaviour.requests]

/-- Without all three, at most one request leaves. -/
theorem Behaviour.created_le (b : Behaviour d) (h : ¬(Posts d ∧ Relays d ∧ Accepts d)) :
    b.created≤1 := by
  have hcreated : b.created≤(b.sent.map b.requests).sum :=
    List.countP_le_length.trans_eq List.length_range
  refine hcreated.trans ?_
  obtain ⟨posts,relays,hsent,hposts,hrelays⟩ := b.sent_eq
  rw [hsent]
  have hrelay (id : ℕ) : b.requests (relayMessage d id)≤1 := b.tabRequests_le (relayed d)
  obtain rfl|⟨hp,message,hmessage,rfl⟩ := hposts <;> obtain rfl|⟨hr,id,rfl⟩ := hrelays
  · simp
  · simpa using hrelay id
  · simp [b.requests_post hmessage]
  · have hnone : b.requests (relayMessage d id)=0 :=
      b.tabRequests_refused fun ha => h ⟨hp,hr,ha⟩
    simp [b.requests_post hmessage,hnone]

end Bound

section Double

variable {d : Delivery}

/-- The payload of a relayed credential is built while the tab is unlocked. -/
theorem savePayload_allows {platform : Platform} (payload : SaveRequest) (s : WebState) (cell : ℕ) :
    Allows WebClient.exec (fun _ => True) (fun _ s' => KeepsTab s s') (fun _ => False)
      (WebOperations.savePayload platform payload (.live cell (s.keys.getD cell .zero))) s := by
  have haccess := sessionAccess cell (s.keys.getD cell .zero)
  have hfaithful := sessionFaithful cell (s.keys.getD cell .zero)
  have hbuilt : Yields (KeyOnly cell) (keyPost (s.keys.getD cell .zero)) Fulfilled (fun _ => True)
      (WebOperations.savePayload platform payload (.live cell (s.keys.getD cell .zero))) := by
    refine ((WebResults.encryptField_yields haccess hfaithful _).both
      ((WebResults.encNonempty_yields haccess hfaithful _).both
        ((WebResults.encryptField_yields haccess hfaithful _).both
          (WebResults.encNonempty_yields haccess hfaithful _)))).bind fun _ _ => ?_
    trivial
  refine ((session_ensures hbuilt).mono (fun _ _ h => h.2) fun _ h => h).allows
    ⟨⟨[],.settled⟩,?_,trivial⟩
  intro message
  simp

/-- One request for a new cipher was added. -/
def OneMore (before after : List Sent) : Prop :=
  ∃ message,isCreation message=true ∧ after=before++[message]

/-- An unlocked web app may post what it is handed. -/
theorem handleMessage_allows (platform : Platform) (payload : SaveRequest) {s : WebState}
    (hkey : s.userKey≠none) (hclient : s.client≠none) (hpassword : payload.password.getD []≠[]) :
    Allows WebClient.exec (fun _ => True) (fun _ s' => OneMore s.sent s'.sent)
      (fun s' => OneMore s.sent s'.sent) (WebOperations.handleMessage platform payload) s := by
  obtain ⟨cell,hcell⟩ := Option.ne_none_iff_exists'.mp hkey
  obtain ⟨client,hclient⟩ := Option.ne_none_iff_exists'.mp hclient
  have hsession : s.getSessionUserKey=some (.live cell (s.keys.getD cell .zero)) := by
    rw [WebState.getSessionUserKey,hcell]
    rfl
  refine Allows.rescue (E:=fun s' => OneMore s.sent s'.sent) ?_
    fun _ s' h => show OneMore s.sent s'.sent from h
  refine Allows.perform (congrArg (·,s) hsession) ?_
  dsimp only
  unfold WebOperations.relayWith
  rw [if_neg hpassword]
  refine Allows.bind (Q:=fun c s' => c=client ∧ s'=s) (E:=fun _ => False)
    (Allows.perform (congrArg (·,s) hclient) ⟨rfl,rfl⟩) ?_ fun _ h => absurd h id
  rintro _ _ ⟨rfl,rfl⟩
  refine (savePayload_allows payload _ cell).bind (fun request s' hs' => ?_) fun _ h => absurd h id
  refine Allows.bind (Q:=fun _ _ => False) (E:=fun s'' => OneMore s'.sent s''.sent) ?_
    (fun _ _ h => absurd h id) fun s'' h => ?_
  · refine Allows.perform rfl ?_
    refine Allows.suspend ⟨[],.rejected []⟩ trivial ?_
    exact ⟨_,rfl,rfl⟩
  · rw [hs'.2.2] at h
    exact h

/-- A key that can be used is read at once. -/
theorem Readable.symKey {userKey : Option Text} (h : Readable userKey) :
    ∃ key,symKeyFromB64 (userKey.getD [])=.done key := by
  obtain ⟨bytes,key,hbytes,hkey⟩ := h
  refine ⟨key,?_⟩
  unfold symKeyFromB64
  rw [hbytes]
  exact congrArg lift hkey

/-- The request for the new cipher was sent. -/
def Posted (before after : List Outgoing) : Prop := ∃ message,IsPost message ∧ after=before++[message]

/-- The fields are encrypted without a request. -/
theorem fields_allow {α : Type} {Q : α → Prop} {p : Worker α}
    (h : Yields FieldRoundTrip.WorkerRandomOnly FieldRoundTrip.workerRandomPost Answered Q p)
    (s : WorkerState) :
    Allows ExtensionWorker.exec (OfPage d) (fun _ s' => s'.sent=s.sent) (fun _ => False) p s := by
  have hcall : ∀ (c : WorkerCall) (s' : WorkerState),s'.sent=s.sent → FieldRoundTrip.WorkerRandomOnly c →
      FieldRoundTrip.workerRandomPost c (ExtensionWorker.exec c s').1 ∧
        (ExtensionWorker.exec c s').2.sent=s.sent := by
    intro c s' hs hc
    cases c with
    | randomBytes n => exact ⟨by simp [FieldRoundTrip.workerRandomPost,ExtensionWorker.exec,WorkerState.random],hs⟩
    | _ => exact absurd hc id
  have hensures := h.ensures (I:=fun s' : WorkerState => s'.sent=s.sent) hcall rfl
  refine (hensures.mono (fun _ _ h => h.2) fun _ h => h).allows ⟨⟨[],.fulfilled⟩,?_,?_⟩
  · intro error
    simp
  · intro url h
    cases h

/-- The server creates the cipher and its answer is cut off: the save has
failed for the worker. -/
theorem standalone_allows {platform : Platform} {host : Host} {session : SessionArea}
    (hread : Readable session.userKey) (hostname username password : Text) (s : WorkerState) :
    Allows ExtensionWorker.exec (OfPage d) (fun direct s' => direct.ok=false ∧ Posted s.sent s'.sent)
      (fun _ => False) (saveCredentialStandalone platform host session hostname username password) s := by
  refine Allows.rescue (E:=fun s' => Posted s.sent s'.sent) ?_ fun _ _ h => ⟨rfl,h⟩
  obtain ⟨key,hkey⟩ := hread.symKey
  rw [hkey]
  have hfield (value : Text) : Yields FieldRoundTrip.WorkerRandomOnly FieldRoundTrip.workerRandomPost
      Answered (WebResults.SealedAs platform key (utf8 value)) (encryptField platform value key) :=
    FieldRoundTrip.workerEncryptField_yields trivial (fun _ h => h) value key
  have huser : Yields FieldRoundTrip.WorkerRandomOnly FieldRoundTrip.workerRandomPost Answered
      (fun _ => True) (encryptOptional platform username key) := by
    unfold encryptOptional
    split
    · trivial
    · exact (hfield _).bind fun _ _ => trivial
  refine (fields_allow ((hfield _).both (huser.both ((hfield _).both (hfield _)))) s).bind
    (fun fields s' hs => ?_) fun _ h => absurd h id
  rw [←hs]
  refine Allows.bind (Q:=fun status s'' => status=200 ∧ Posted s'.sent s''.sent) (E:=fun _ => False) ?_
    ?_ fun _ h => absurd h id
  · refine Allows.perform rfl ?_
    refine Allows.suspend ⟨[],.response 200⟩ (fun _ h => nomatch h) ?_
    exact ⟨rfl,_,⟨_,_,_,rfl⟩,rfl⟩
  · rintro _ s'' ⟨rfl,hposted⟩
    rw [if_neg (by decide),if_pos (by decide)]
    refine Allows.bind (Q:=fun _ _ => False) (E:=fun s => Posted s'.sent s.sent) ?_
      (fun _ _ h => absurd h id) fun _ h => h
    exact Allows.suspend ⟨[],.rejected []⟩ (fun _ h => nomatch h) hposted

/-- The credential was handed to the web app. -/
def Handed (d : Delivery) (before after : List Outgoing) : Prop :=
  ∃ id,after=before++[relayMessage d id]

theorem relay_allows (h : Relays d) {session : SessionArea}
    (htab : session.webappTabId=d.worker.session.webappTabId)
    (horigin : session.webappOrigin=d.worker.session.webappOrigin) (s : WorkerState) :
    Allows ExtensionWorker.exec (OfPage d) (fun _ s' => Handed d s.sent s'.sent) (fun _ => False)
      (relayToWebapp d.host session d.hostname d.username d.password) s := by
  obtain ⟨id,origin,url,hid,ho,hne,hpage,hsame⟩ := h
  obtain ⟨c,rest,rfl⟩ := List.exists_cons_of_ne_nil hne
  unfold relayToWebapp
  rw [htab,horigin,hid,ho]
  refine Allows.suspend ⟨[],.tab (some url)⟩ ?_ ?_
  · rintro _ ⟨⟩
    exact hpage.symm
  · dsimp only
    rw [if_pos hsame]
    refine Allows.perform rfl ?_
    refine Allows.suspend ⟨[],.saved true none⟩ (fun _ h => nomatch h) ?_
    exact ⟨id,rfl⟩

/-- Both ways were taken. -/
def SentTwice (d : Delivery) (after : List Outgoing) : Prop :=
  ∃ middle,Posted d.worker.sent middle ∧ Handed d middle after

theorem save_allows (hposts : Posts d) (hrelays : Relays d) :
    Allows ExtensionWorker.exec (OfPage d) (fun _ s' => SentTwice d s'.sent)
      (fun s' => SentTwice d s'.sent)
      (body d.platform d.host (.saveCredential d.hostname d.username d.password)) d.worker := by
  refine Allows.rescue (E:=fun _ => False) ?_ fun _ _ h => absurd h id
  refine ⟨⟨[],.fulfilled⟩,(fun _ h => nomatch h),?_⟩
  refine Allows.perform rfl ?_
  have htab : d.worker.session.webappTabId≠none := by
    obtain ⟨id,origin,url,hid,-⟩ := hrelays
    simp [hid]
  split
  · rename_i hlocked
    exact absurd hlocked hposts.unlocked
  · split
    · rename_i hmissing
      exact absurd hmissing hposts.stored
    · refine (standalone_allows hposts.key _ _ _ d.worker).bind (fun direct s₁ h₁ => ?_)
        fun _ h => absurd h id
      split
      · rename_i hdone
        have hfallback : ¬(direct.ok=true ∨ d.worker.session.webappTabId=none) := by simp [h₁.1,htab]
        exact absurd hdone hfallback
      · refine (relay_allows hrelays rfl rfl s₁).mono (fun _ s₂ h₂ => ?_) fun _ h => h
        exact ⟨s₁.sent,h₁.2,h₂⟩

end Double

/-- When the worker posts, may hand over the credential, and the web app
accepts it, some behaviour creates two ciphers. -/
theorem exists_created_twice {d : Delivery} (hposts : Posts d) (hrelays : Relays d) (haccepts : Accepts d) :
    ∃ b : Behaviour d,b.created=2 := by
  obtain ⟨arrivals,hpage,middle,⟨message,hmessage,rfl⟩,id,hsent⟩ :=
    (save_allows hposts hrelays).play ⟨⟨[],.fulfilled⟩,fun _ h => nomatch h⟩
  obtain ⟨tabArrivals,-,request,hrequest,htab⟩ := (handleMessage_allows d.platform (relayed d)
    haccepts.session haccepts.client haccepts.password).play ⟨⟨[],.settled⟩,trivial⟩
  let b : Behaviour d := ⟨arrivals,hpage,tabArrivals,fun _ => true⟩
  have hworker : b.sent=[message,relayMessage d id] := by
    rw [Behaviour.sent,hsent]
    simp
  have hrelay : b.requests (relayMessage d id)=1 := by
    have hsame : b.tabSent (relayed d)=d.tab.sent++[request] := htab
    show b.tabRequests (relayed d)=1
    rw [Behaviour.tabRequests,hsame,List.drop_left,List.countP_singleton,if_pos hrequest]
  refine ⟨b,?_⟩
  rw [Behaviour.created,hworker]
  simp [b,b.requests_post hmessage,hrelay]

/-- One `SAVE_CREDENTIAL` creates at most one cipher under every behaviour of
the server exactly when the worker cannot post and also hand the credential to
a web app that accepts it. -/
theorem save_creates_at_most_one_iff (d : Delivery) :
    (∀ b : Behaviour d,b.created≤1) ↔ ¬(Posts d ∧ Relays d ∧ Accepts d) := by
  constructor
  · rintro hall ⟨hposts,hrelays,haccepts⟩
    obtain ⟨b,hb⟩ := exists_created_twice hposts hrelays haccepts
    have hone := hall b
    omega
  · intro h b
    exact b.created_le h

/-- A host that knows one address. -/
def knownHost : Host := {sampleHost with
  originOf url := if url="https://safe.example/vault".toList then some "https://safe.example".toList else none}

/-- An unlocked worker that was paired with an unlocked web app. -/
def pairedDelivery : Delivery where
  platform := transparent
  host := knownHost
  worker := {WorkerState.started (some false) ⟨none,none,none⟩ UInt8.ofNat with
    session := ⟨some false,some [],some (toB64 (List.replicate 64 7)),some "token".toList,
      some "https://api.example".toList,none,none,some 4,some "https://safe.example".toList⟩}
  hostname := "shop.example".toList
  username := "ann".toList
  password := "secret".toList
  page := some "https://safe.example/vault".toList
  tab := {WebState.loaded .initial ⟨none,none,none⟩ [] UInt8.ofNat with
    userKey := some 0
    keys := [⟨List.replicate 32 7,List.replicate 32 7,length_sevens,length_sevens⟩]
    client := some 0
    clients := [⟨"https://api.example".toList,some "token".toList⟩]}

/-- The server creates every cipher; its first answer has status 200 and a
body that is cut off. -/
def truncatedBody : Behaviour pairedDelivery where
  arrivals n := ⟨[],if n=17 then .response 200 else if n=18 then .rejected "SyntaxError".toList
    else if n=19 then .tab (some "https://safe.example/vault".toList)
    else if n=20 then .saved true none else .fulfilled⟩
  page := by
    intro n url h
    dsimp only at h
    split_ifs at h
    cases h
    rfl
  tabArrivals n := ⟨[],if n=16 then .response 200 [] else .settled⟩
  creates _ := true

/-- A credential whose first answer is cut off is stored twice. -/
theorem truncated_answer_creates_two : ¬∀ (d : Delivery) (b : Behaviour d),b.created≤1 := by
  intro hall
  have htwo : truncatedBody.created=2 := by decide
  have hone := hall pairedDelivery truncatedBody
  omega

end NadSafe.CredentialSave
