import NadSafe.WebOperations

/-!
# Contracts of the web client's scripts

For every asynchronous function, the calls it makes and what it computes as
long as the key bytes it reads are the ones its key was issued with. The
contracts are parametric in the allowed calls and the assumed answers, so
each serves several invariants. Whether the assumption holds in a run is
decided by the interleavings and is not part of this module.
-/

namespace NadSafe.WebContracts

open HostText AsyncScript AsyncScript.Script WireFormat WebCrypto WebClient WebScripts WebOperations

variable {pre : WebCall → Prop} {post : ∀ c,WebCall.Answer c → Prop}

/-- The calls that reading a key and drawing random bytes need. -/
structure KeyAccess (pre : WebCall → Prop) (key : KeyRef) : Prop where
  /-- Random bytes may be drawn. -/
  random : ∀ n,pre (.randomBytes n)
  /-- The encryption half may be read. -/
  encKey : ∀ cell issued,key=.live cell issued → pre (.encKey cell)
  /-- The authentication half may be read. -/
  macKey : ∀ cell issued,key=.live cell issued → pre (.macKey cell)

/-- The assumed answers return the bytes that the key was issued with. -/
structure Faithful (post : ∀ c,WebCall.Answer c → Prop) (key : KeyRef) : Prop where
  /-- Random answers have the requested length. -/
  random : ∀ n r,post (.randomBytes n) r → r.length=n
  /-- The encryption half is the issued one. -/
  encKey : ∀ cell issued r,key=.live cell issued → post (.encKey cell) r → r=issued.encKey
  /-- The authentication half is the issued one. -/
  macKey : ∀ cell issued r,key=.live cell issued → post (.macKey cell) r → r=issued.macKey

theorem settles_obeys {α : Type} (result : Option α) :
    (settles result).Obeys pre post fun v => result=some v := by
  refine suspend_obeys.bind fun arrived _ => ?_
  split
  · trivial
  · split
    · exact rfl
    · trivial

theorem lift_obeys {α : Type} (x : Except Text α) :
    (lift x).Obeys pre post fun v => x=.ok v := by
  cases x with
  | ok a => exact rfl
  | error message => trivial

section Crypto

variable {platform : Platform} {key : KeyRef}

theorem readEncKey_obeys (h : KeyAccess pre key) :
    (readEncKey key).Obeys pre post fun r => Faithful post key → r=(issuedKey key).encKey := by
  cases key with
  | live cell issued =>
    exact ⟨h.encKey cell issued rfl,fun r hr hf => hf.encKey cell issued r rfl hr⟩
  | owned key => exact fun _ => rfl

theorem readMacKey_obeys (h : KeyAccess pre key) :
    (readMacKey key).Obeys pre post fun r => Faithful post key → r=(issuedKey key).macKey := by
  cases key with
  | live cell issued =>
    exact ⟨h.macKey cell issued rfl,fun r hr hf => hf.macKey cell issued r rfl hr⟩
  | owned key => exact fun _ => rfl

theorem computeMac_obeys (h : KeyAccess pre key) (iv ct : Bytes) :
    (computeMac platform key iv ct).Obeys pre post fun mac =>
      Faithful post key → mac=platform.hmac (issuedKey key).macKey (iv++ct) := by
  refine (readMacKey_obeys h).bind fun macKey hm => ?_
  refine (settles_obeys (some macKey)).bind fun imported hi => ?_
  cases hi
  refine (settles_obeys _).mono (fun _ hc => hc) (fun _ _ hr => hr) fun mac hmac hf => ?_
  cases hmac
  rw [hm hf]

/-- The result of an encryption is determined by the issued key: one IV,
the ciphertext under its first half and the tag under its second. -/
theorem encryptEncString_obeys (h : KeyAccess pre key) (data : Bytes) :
    (encryptEncString platform data key).Obeys pre post fun enc =>
      Faithful post key → ∃ iv,iv.length=16 ∧ enc=sealed platform (issuedKey key) iv data := by
  refine ⟨h.random 16,fun iv hiv => ?_⟩
  refine (readEncKey_obeys h).bind fun keyBytes hk => ?_
  refine (settles_obeys (some keyBytes)).bind fun encKey he => ?_
  cases he
  refine (settles_obeys _).bind fun ct hct => ?_
  cases hct
  refine (computeMac_obeys h iv _).bind fun mac hm => ?_
  intro hf
  refine ⟨iv,hf.random 16 iv hiv,?_⟩
  rw [hk hf] at hm ⊢
  rw [hm hf]
  rfl

theorem encryptField_obeys (h : KeyAccess pre key) (value : Text) :
    (encryptField platform value key).Obeys pre post fun text =>
      Faithful post key → SealedUnder platform (issuedKey key) text := by
  refine (encryptEncString_obeys h _).bind fun enc he => ?_
  intro hf
  obtain ⟨iv,hiv,rfl⟩ := he hf
  exact ⟨iv,utf8 value,hiv,rfl⟩

theorem decryptEncString_obeys (h : KeyAccess pre key) (enc : EncStringParsed) :
    (decryptEncString platform enc key).Obeys pre post fun _ => True := by
  refine (computeMac_obeys h enc.iv enc.ct).bind fun mac _ => ?_
  split
  · refine (readEncKey_obeys h).bind fun keyBytes _ => ?_
    refine (settles_obeys _).bind fun encKey _ => ?_
    exact (settles_obeys _).forget
  · trivial

theorem decryptField_obeys (h : KeyAccess pre key) (text : Option Text) :
    (decryptField platform text key).Obeys pre post fun _ => True := by
  unfold decryptField
  split
  · trivial
  · trivial
  · refine (lift_obeys _).bind fun parsed _ => ?_
    refine (decryptEncString_obeys h parsed).bind fun bytes _ => ?_
    trivial

/-- A key that no other code can reach is read without calls. -/
theorem KeyAccess.owned (hr : ∀ n,pre (.randomBytes n)) (k : SymKey) :
    KeyAccess pre (.owned k) := ⟨hr,by simp,by simp⟩

/-- Wrapping reads no shared key: its result is always the sealed bytes. -/
theorem wrapUserKey_obeys (hr : ∀ n,pre (.randomBytes n)) (data : Bytes) (stretchedKey : SymKey) :
    (wrapUserKey platform data stretchedKey).Obeys pre post fun text =>
      (∀ n r,post (.randomBytes n) r → r.length=n) →
        ∃ iv,iv.length=16 ∧ text=serializeEncString (sealed platform stretchedKey iv data) := by
  refine (encryptEncString_obeys (.owned hr stretchedKey) data).bind fun enc he => ?_
  intro hlen
  obtain ⟨iv,hiv,rfl⟩ := he ⟨hlen,by simp,by simp⟩
  exact ⟨iv,hiv,rfl⟩

/-- A function that suspends without any call. -/
def Quiet {α : Type} (p : Web α) : Prop :=
  ∀ {pre : WebCall → Prop} {post : ∀ c,WebCall.Answer c → Prop},p.Obeys pre post fun _ => True

theorem deriveMasterKey_quiet (password email : Text) (params : KdfParams) :
    Quiet (deriveMasterKey platform password email params) := by
  intro pre post
  unfold deriveMasterKey
  dsimp only
  split
  · split
    · refine (settles_obeys _).bind fun _ _ => ?_
      refine (settles_obeys _).bind fun b64 _ => ?_
      exact (lift_obeys _).forget
    · exact (settles_obeys _).forget
  · refine (settles_obeys _).bind fun keyMaterial _ => ?_
    exact (settles_obeys _).forget

theorem deriveLoginKeys_quiet (password email : Text) (params : KdfParams) :
    Quiet (deriveLoginKeys platform password email params) := by
  intro pre post
  refine (deriveMasterKey_quiet password email params).bind fun masterKey _ => ?_
  have hauth : Quiet (deriveAuthHash platform masterKey password) := by
    intro pre post
    unfold deriveAuthHash
    refine (settles_obeys _).bind fun keyMaterial _ => ?_
    exact (settles_obeys _).forget
  refine hauth.bind fun authHash _ => ?_
  have hstretch : Quiet (stretchMasterKey platform masterKey) := by
    intro pre post
    unfold stretchMasterKey
    refine (settles_obeys _).bind fun _ _ => ?_
    refine (settles_obeys _).bind fun _ _ => ?_
    exact (settles_obeys _).forget
  refine hstretch.bind fun stretchedKey _ => ?_
  trivial

/-- Decryption under a key that no other code can reach makes no call. -/
theorem decryptEncString_owned (enc : EncStringParsed) (stretchedKey : SymKey) :
    (decryptEncString platform enc (.owned stretchedKey)).Obeys pre post fun data =>
      openSealed platform stretchedKey enc=.ok data := by
  have hmac : (computeMac platform (.owned stretchedKey) enc.iv enc.ct).Obeys pre post fun mac =>
      mac=platform.hmac stretchedKey.macKey (enc.iv++enc.ct) := by
    unfold computeMac
    refine Obeys.bind (Q:=fun macKey => macKey=stretchedKey.macKey) rfl fun macKey hm => ?_
    subst hm
    refine (settles_obeys _).bind fun imported hi => ?_
    cases hi
    refine (settles_obeys _).mono (fun _ hc => hc) (fun _ _ hr => hr) fun mac hmac => ?_
    cases hmac
    rfl
  refine hmac.bind fun expectedMac hexpected => ?_
  subst hexpected
  split
  · rename_i hequal
    refine Obeys.bind (Q:=fun keyBytes => keyBytes=stretchedKey.encKey) rfl fun keyBytes hk => ?_
    subst hk
    refine (settles_obeys _).bind fun encKey he => ?_
    cases he
    refine (settles_obeys _).mono (fun _ hc => hc) (fun _ _ hr => hr) fun data hdata => ?_
    rw [openSealed,if_pos hequal,hdata]
  · trivial

/-- The unwrapped key is determined by the text and the stretched key. -/
theorem unwrapUserKey_obeys (text : Text) (stretchedKey : SymKey) :
    (unwrapUserKey platform text stretchedKey).Obeys pre post fun userKey =>
      unwrapped platform stretchedKey text=.ok userKey := by
  refine (lift_obeys _).bind fun parsed hparsed => ?_
  refine (decryptEncString_owned parsed stretchedKey).bind fun raw hraw => ?_
  refine (lift_obeys _).mono (fun _ hc => hc) (fun _ _ hr => hr) fun userKey hkey => ?_
  simp only [unwrapped,hparsed,hraw,Bind.bind,Except.bind,hkey]

theorem decryptRsaPrivateKey_obeys (h : KeyAccess pre key) (text : Text) :
    (decryptRsaPrivateKey platform text key).Obeys pre post fun _ => True := by
  refine (lift_obeys _).bind fun parsed _ => ?_
  refine (decryptEncString_obeys h parsed).bind fun privDer _ => ?_
  exact (settles_obeys _).forget

theorem decryptLogin_obeys (h : KeyAccess pre key) (login : LoginDataResponse) :
    (decryptLogin platform login key).Obeys pre post fun _ => True := by
  have hfield (text : Option Text) : (decryptField platform text key).Obeys pre post fun _ => True :=
    decryptField_obeys h text
  refine ((hfield _).both ((hfield _).both (hfield _))).bind fun r _ => ?_
  refine (Obeys.all (Q:=fun _ => True) fun p hp => ?_).bind fun uris _ => trivial
  obtain ⟨u,-,rfl⟩ := List.mem_map.mp hp
  exact hfield _

theorem decryptCard_obeys (h : KeyAccess pre key) (card : CardFields (Option Text)) :
    (decryptCard platform card key).Obeys pre post fun _ => True := by
  have hfield (text : Option Text) : (decryptField platform text key).Obeys pre post fun _ => True :=
    decryptField_obeys h text
  exact ((hfield _).both ((hfield _).both ((hfield _).both ((hfield _).both
    ((hfield _).both (hfield _)))))).bind fun r _ => trivial

theorem ofKind_obeys {α β : Type} {Q : β → Prop} {f : α → Web β} {type kind : ℕ} {data : Option α}
    (hf : ∀ value,(f value).Obeys pre post Q) :
    (ofKind type kind data f).Obeys pre post fun r => ∀ b∈r,Q b := by
  unfold ofKind
  split
  · split
    · refine (hf _).bind fun fields hfields => ?_
      rintro b ⟨⟩
      exact hfields
    · simp
  · simp

theorem decryptCipher_obeys (h : KeyAccess pre key) (cipher : CipherResponse) :
    (decryptCipher platform cipher key).Obeys pre post fun _ => True := by
  refine (decryptField_obeys h _).bind fun name _ => ?_
  have hnotes : (decryptNotes platform cipher.notes key).Obeys pre post fun _ => True := by
    refine (decryptField_obeys h _).bind fun content _ => ?_
    split <;> trivial
  refine hnotes.bind fun note _ => ?_
  refine (ofKind_obeys fun login => decryptLogin_obeys h login).bind fun login _ => ?_
  refine (ofKind_obeys fun card => decryptCard_obeys h card).bind fun card _ => ?_
  trivial

end Crypto

section Api

theorem getApiClient_obeys (h : pre .getApiClient) :
    getApiClient.Obeys pre post fun _ => True := by
  refine ⟨h,fun client _ => ?_⟩
  cases client with
  | none => trivial
  | some client => trivial

/-- A request that is fulfilled was sent, with the answer to its `fetch`. -/
theorem request_obeys {client : ℕ} {method path : Text} {body : Body} {noAuth : Bool}
    (h : pre (.fetch client method path noAuth body)) :
    (request client method path body noAuth).Obeys pre post fun _ =>
      post (.fetch client method path noAuth body) () := by
  refine (perform_obeys h).bind fun _ hsent => ?_
  refine suspend_obeys.bind fun headers _ => ?_
  split
  · trivial
  · split
    · split
      · exact hsent
      · refine suspend_obeys.bind fun answer _ => ?_
        split
        · trivial
        · exact hsent
        · exact hsent
    · exact suspend_obeys.bind fun errorBody _ => trivial
  · trivial

theorem sync_obeys {client : ℕ} (h : ∀ method path noAuth,pre (.fetch client method path noAuth .none)) :
    (sync client).Obeys pre post fun _ => True := by
  refine (request_obeys (h _ _ _)).bind fun answer _ => ?_
  split <;> trivial

theorem refreshToken_obeys {client : ℕ} {token deviceId : Text}
    (h : ∀ method path noAuth fields,pre (.fetch client method path noAuth (.form fields))) :
    (refreshToken client token deviceId).Obeys pre post fun _ => True := by
  refine (request_obeys (h _ _ _ _)).bind fun answer _ => ?_
  split <;> trivial

end Api

section Items

variable {platform : Platform} {key : KeyRef} {P : Text → Prop}

theorem forall_filterMap_id {os : List (Option Text)} :
    (∀ t∈os.filterMap id,P t) ↔ ∀ o∈os,∀ t∈o,P t := by
  constructor
  · intro h o ho t ht
    exact h t (List.mem_filterMap.mpr ⟨o,ho,ht⟩)
  · intro h t ht
    obtain ⟨o,ho,ht⟩ := List.mem_filterMap.mp ht
    exact h o ho t ht

theorem LoginData.forall_texts {l : LoginData} : (∀ t∈l.texts,P t) ↔
    (∀ t∈l.username,P t) ∧ (∀ t∈l.password,P t) ∧ (∀ t∈l.totp,P t) ∧
      ∀ u∈l.uris,u.uri≠[] → P u.uri := by
  rw [LoginData.texts,List.forall_mem_append,forall_filterMap_id]
  simp [and_assoc]

theorem CardFields.forall_texts {c : CardFields (Option Text)} : (∀ t∈c.texts,P t) ↔
    (∀ t∈c.cardholderName,P t) ∧ (∀ t∈c.brand,P t) ∧ (∀ t∈c.number,P t) ∧
      (∀ t∈c.expMonth,P t) ∧ (∀ t∈c.expYear,P t) ∧ ∀ t∈c.code,P t := by
  rw [CardFields.texts,forall_filterMap_id]
  simp

theorem CreateCipherRequest.forall_encStrings {r : CreateCipherRequest} : (∀ t∈r.encStrings,P t) ↔
    P r.name ∧ (∀ t∈r.notes,P t) ∧ (∀ l∈r.login,∀ t∈l.texts,P t) ∧ ∀ c∈r.card,∀ t∈c.texts,P t := by
  rw [CreateCipherRequest.encStrings,List.forall_mem_cons,List.forall_mem_append,
    List.forall_mem_append,and_assoc]
  simp only [Option.mem_toList,List.mem_flatMap,Option.mem_def,forall_exists_index,and_imp,
    forall_comm (α:=Text)]

/-- The texts of an optional field, sealed under the issued key as long as
the answers are faithful. -/
def Kept (platform : Platform) (post : ∀ c,WebCall.Answer c → Prop) (key : KeyRef)
    (field : Option Text) : Prop :=
  Faithful post key → ∀ t∈field,SealedUnder platform (issuedKey key) t

/-- The same for a whole request body. -/
def KeptRequest (platform : Platform) (post : ∀ c,WebCall.Answer c → Prop) (key : KeyRef)
    (r : CreateCipherRequest) : Prop :=
  Faithful post key → ∀ t∈r.encStrings,SealedUnder platform (issuedKey key) t

theorem enc_obeys (h : KeyAccess pre key) (value : Option Text) :
    (enc platform value key).Obeys pre post (Kept platform post key) := by
  cases value with
  | none => exact fun _ t ht => nomatch ht
  | some value =>
    refine (encryptField_obeys h value).bind fun text ht => ?_
    rintro hf t ⟨⟩
    exact ht hf

theorem encNonempty_obeys (h : KeyAccess pre key) (value : Text) :
    (encNonempty platform value key).Obeys pre post (Kept platform post key) := by
  unfold encNonempty
  split
  · exact fun _ t ht => nomatch ht
  · exact enc_obeys h _

theorem encryptCard_obeys {α : Type} {field : α → Web (Option Text)}
    (hfield : ∀ value,(field value).Obeys pre post (Kept platform post key)) (card : CardFields α) :
    (encryptCard field card).Obeys pre post fun c =>
      Faithful post key → ∀ t∈c.texts,SealedUnder platform (issuedKey key) t := by
  refine ((hfield _).both ((hfield _).both ((hfield _).both ((hfield _).both
    ((hfield _).both (hfield _)))))).bind fun r hr => ?_
  obtain ⟨h1,h2,h3,h4,h5,h6⟩ := hr
  intro hf
  exact (CardFields.forall_texts).mpr ⟨h1 hf,h2 hf,h3 hf,h4 hf,h5 hf,h6 hf⟩

theorem encryptLogin_obeys (h : KeyAccess pre key) (login : ExportLogin) :
    (encryptLogin platform login key).Obeys pre post fun l =>
      Faithful post key → ∀ t∈l.texts,SealedUnder platform (issuedKey key) t := by
  have huris : ∀ p∈(login.uris.getD []).map (fun u => enc platform u.uri key),
      p.Obeys pre post (Kept platform post key) := by
    intro p hp
    obtain ⟨u,-,rfl⟩ := List.mem_map.mp hp
    exact enc_obeys h u.uri
  refine ((enc_obeys h _).both ((enc_obeys h _).both ((enc_obeys h _).both
    (Obeys.all huris)))).bind fun r hr => ?_
  obtain ⟨hu,hp,ht,hs⟩ := hr
  intro hf
  refine (LoginData.forall_texts).mpr ⟨hu hf,hp hf,ht hf,fun u hmem hne => ?_⟩
  obtain ⟨p,hpair,rfl⟩ := List.mem_map.mp hmem
  have hkept := hs p.2 (List.of_mem_zip hpair).2 hf
  cases hp2 : p.2 with
  | none => simp [hp2] at hne
  | some t =>
    rw [hp2] at hkept
    exact hkept t rfl

/-- An imported item is sealed under the issued key in every field. -/
theorem encryptItem_obeys (h : KeyAccess pre key) (item : BitwardenExportItem) :
    (encryptItem platform item key).Obeys pre post (KeptRequest platform post key) := by
  refine ((encryptField_obeys h _).both (enc_obeys h _)).bind fun r hr => ?_
  refine (ofKind_obeys fun login => encryptLogin_obeys h login).bind fun login hl => ?_
  refine (ofKind_obeys fun card => encryptCard_obeys (enc_obeys h) card).bind fun card hc => ?_
  intro hf
  exact (CreateCipherRequest.forall_encStrings).mpr
    ⟨hr.1 hf,hr.2 hf,fun l hmem => hl l hmem hf,fun c hmem => hc c hmem hf⟩

theorem formLogin_obeys (h : KeyAccess pre key) (form : ItemForm) :
    (formLogin platform form key).Obeys pre post fun l =>
      Faithful post key → ∀ t∈l.texts,SealedUnder platform (issuedKey key) t := by
  refine ((encNonempty_obeys h _).both ((encNonempty_obeys h _).both ((encNonempty_obeys h _).both
    (encNonempty_obeys h _)))).bind fun r hr => ?_
  obtain ⟨hu,hp,hurl,ht⟩ := hr
  intro hf
  refine (LoginData.forall_texts).mpr ⟨hu hf,hp hf,ht hf,fun u hmem _ => ?_⟩
  rw [Option.mem_toList,Option.map_eq_some_iff] at hmem
  obtain ⟨uri,huri,rfl⟩ := hmem
  exact hurl hf uri huri

/-- A submitted form is sealed under the issued key in every field. -/
theorem formPayload_obeys (h : KeyAccess pre key) (form : ItemForm) :
    (formPayload platform form key).Obeys pre post (KeptRequest platform post key) := by
  refine (encryptField_obeys h _).bind fun name hname => ?_
  refine (ofKind_obeys fun form => formLogin_obeys h form).bind fun login hl => ?_
  refine (ofKind_obeys fun card => encryptCard_obeys (encNonempty_obeys h) card).bind fun card hc => ?_
  refine (encNonempty_obeys h _).bind fun notes hnotes => ?_
  intro hf
  exact (CreateCipherRequest.forall_encStrings).mpr
    ⟨hname hf,hnotes hf,fun l hmem => hl l hmem hf,fun c hmem => hc c hmem hf⟩

/-- A relayed save is sealed under the issued key in every field. -/
theorem savePayload_obeys (h : KeyAccess pre key) (payload : SaveRequest) :
    (savePayload platform payload key).Obeys pre post (KeptRequest platform post key) := by
  refine ((encryptField_obeys h _).both ((encNonempty_obeys h _).both ((encryptField_obeys h _).both
    (encNonempty_obeys h _)))).bind fun r hr => ?_
  obtain ⟨hname,huser,hpass,huri⟩ := hr
  intro hf
  have hlogin : ∀ t∈(LoginData.mk r.2.1 (some r.2.2.1) none
      ((r.2.2.2.map fun uri => UriData.mk uri none).toList)).texts,
      SealedUnder platform (issuedKey key) t := by
    refine (LoginData.forall_texts).mpr ⟨huser hf,?_,by simp,fun u hmem _ => ?_⟩
    · rintro t ⟨⟩
      exact hpass hf
    · rw [Option.mem_toList,Option.map_eq_some_iff] at hmem
      obtain ⟨uri,hmem,rfl⟩ := hmem
      exact huri hf uri hmem
  refine (CreateCipherRequest.forall_encStrings).mpr ⟨hname hf,by simp,?_,by simp⟩
  rintro l ⟨⟩
  exact hlogin

end Items

end NadSafe.WebContracts
