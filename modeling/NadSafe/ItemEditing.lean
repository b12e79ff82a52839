import NadSafe.CredentialSave
import NadSafe.DecryptedItems
import NadSafe.SealedCiphers

/-!
# Editing an item without a change

The item form opened on a decrypted item and submitted as it stands. The
request that leaves the tab is read back as the server stores it: with the
identifier and the dates of the item. The form keeps one address, has no
place for missing data of a kind and drops empty values.
-/

namespace NadSafe.ItemEditing

open HostText AsyncScript AsyncScript.Script WireFormat WebCrypto WebClient WebScripts WebOperations
open WebContracts WebResults FulfilledScript SequentialScript SealedCiphers DecryptedItems
open FieldRoundTrip (StandardText)

/-- The card part of the form as opened. -/
def openCard (card : Option (CardFields Text)) : CardFields Text :=
  let field (read : CardFields Text → Text) := (card.map read).getD []
  ⟨field CardFields.cardholderName,field CardFields.brand,field CardFields.number,
    field CardFields.expMonth,field CardFields.expYear,field CardFields.code⟩

/-- The initial state of `ItemModal` for an item. -/
def openForm (item : VaultItem) : ItemForm where
  item := some item
  type := item.type
  name := item.name
  folderId := item.folderId.getD []
  favorite := item.favorite
  username := (item.login.map LoginFields.username).getD []
  password := (item.login.map LoginFields.password).getD []
  url := (item.login.bind fun login => login.uris.head?).getD []
  totpSecret := (item.login.bind LoginFields.totp).getD []
  noteContent := item.note.getD []
  card := openCard item.card

/-- A submit of the item form in an unlocked tab, with no rejected promise. -/
structure EditRun where
  /-- The tab. -/
  state : WebState
  /-- What arrives at the suspensions of the submit. -/
  arrivals : ℕ → Arrival Arrived
  /-- The session key. -/
  cell : ℕ
  /-- The tab is unlocked. -/
  unlocked : state.userKey=some cell
  /-- It has an API client. -/
  client : state.client≠none
  /-- No promise is rejected. -/
  fulfilled : ∀ n,Fulfilled (arrivals n).value

/-- The user key of the tab. -/
def EditRun.key (edit : EditRun) : SymKey := edit.state.keys.getD edit.cell .zero

/-- What leaves the tab when the form of an item is submitted unchanged. -/
def EditRun.submitted (edit : EditRun) (platform : Platform) (item : VaultItem) : List Sent :=
  (play WebClient.exec (handleSubmit platform (openForm item)) edit.arrivals edit.state).2.sent.drop
    edit.state.sent.length

/-- The only request is an update of the item. -/
def Updates (edit : EditRun) (platform : Platform) (item : VaultItem) (payload : CreateCipherRequest) :
    Prop :=
  ∃ url authorization,edit.submitted platform item=
    [⟨"PUT".toList,url++("/api/ciphers/".toList++item.id),authorization,.cipher payload edit.key⟩]

/-- The update of an unchanged form is read back as the same item. -/
def LosesNothing (edit : EditRun) (read : WebRun) (platform : Platform) (item : VaultItem) : Prop :=
  ∃ payload,Updates edit platform item payload ∧
    read.result (decryptCipher platform (stored item.id item.createdAt item.updatedAt payload)
      (.owned edit.key))=.ok item

section Payload

variable {platform : Platform}

/-- The login data of a form. -/
def loginContent (form : ItemForm) : LoginContent :=
  ⟨presentText form.username,presentText form.password,presentText form.totpSecret,
    (presentText form.url).toList⟩

/-- What the request of a form says. -/
def formContent (form : ItemForm) : Content where
  name := form.name
  notes := presentText form.noteContent
  login := (ifKind (TYPE_NUMBERS form.type) 1 (some form)).map loginContent
  card := (ifKind (TYPE_NUMBERS form.type) 3 (some form.card)).map (mapCard presentText)

/-- The plain fields of the request of a form. -/
structure Carries (form : ItemForm) (payload : CreateCipherRequest) : Prop where
  /-- Item kind. -/
  type : payload.type=TYPE_NUMBERS form.type
  /-- Containing folder. -/
  folderId : payload.folderId=presentText form.folderId
  /-- Owning organisation. -/
  organizationId : payload.organizationId=form.item.bind VaultItem.organizationId
  /-- Collections of the organisation. -/
  collectionIds : payload.collectionIds=(form.item.map VaultItem.collectionIds).getD []
  /-- Favourite flag. -/
  favorite : payload.favorite=form.favorite

variable {pre : WebCall → Prop} {post : ∀ c,WebCall.Answer c → Prop} {key : KeyRef}

theorem formLogin_yields (h : KeyAccess pre key) (hf : Faithful post key) (form : ItemForm) :
    Yields pre post Fulfilled (SealedLogin platform (issuedKey key) (loginContent form))
      (formLogin platform form key) := by
  refine ((present_yields h hf form.username).both ((present_yields h hf form.password).both
    ((present_yields h hf form.url).both (present_yields h hf form.totpSecret)))).bind fun r hr => ?_
  obtain ⟨encUser,encPass,encUrl,encTotp⟩ := r
  obtain ⟨huser,hpass,hurl,htotp⟩ := hr
  refine ⟨huser,hpass,htotp,?_⟩
  dsimp only [loginContent] at hurl ⊢
  generalize presentText form.url=url at hurl
  cases url with
  | none =>
    rw [show encUrl=none from hurl]
    exact .nil
  | some url =>
    obtain ⟨text,rfl,htext⟩ := hurl
    exact .cons htext .nil

/-- The request seals the form. -/
theorem formPayload_yields (h : KeyAccess pre key) (hf : Faithful post key) (form : ItemForm) :
    Yields pre post Fulfilled
      (fun payload => SealedRequest platform (issuedKey key) (formContent form) payload ∧
        Carries form payload) (formPayload platform form key) := by
  refine (encryptField_yields h hf form.name).bind fun encName hname => ?_
  refine (ofKind_seals fun form => formLogin_yields h hf form).bind fun loginData hlogin => ?_
  refine (ofKind_seals (encryptCard_yields fun value => present_yields h hf value)).bind
    fun cardData hcard => ?_
  refine (present_yields h hf form.noteContent).bind fun encNotes hnotes => ?_
  exact ⟨⟨hname,hnotes,hlogin,hcard⟩,rfl,rfl,rfl,rfl,rfl⟩

/-- A submit has sent one update, which seals the form. -/
def Saved (platform : Platform) (key : SymKey) (form : ItemForm) (id : Text) (before after : List Sent) :
    Prop :=
  ∃ payload url authorization,SealedRequest platform key (formContent form) payload ∧
    Carries form payload ∧
    after=before++[⟨"PUT".toList,url++("/api/ciphers/".toList++id),authorization,.cipher payload key⟩]

theorem handleSubmit_ensures {s : WebState} {cell : ℕ} (hkey : s.userKey=some cell)
    (hclient : s.client≠none) (item : VaultItem) :
    Ensures WebClient.exec (fun i => Fulfilled i.value)
      (fun _ s' => Saved platform (s.keys.getD cell .zero) (openForm item) item.id s.sent s'.sent)
      (fun _ => False) (handleSubmit platform (openForm item)) s := by
  have hsession : s.getSessionUserKey=some (.live cell (s.keys.getD cell .zero)) := by
    rw [WebState.getSessionUserKey,hkey]
    rfl
  obtain ⟨client,hclient⟩ := Option.ne_none_iff_exists'.mp hclient
  refine Ensures.perform (congrArg (·,s) hsession) ?_
  refine Ensures.rescue (E:=fun s' => Saved platform (s.keys.getD cell .zero) (openForm item) item.id
    s.sent s'.sent) ?_ fun _ s' h => show Saved _ _ _ _ s.sent s'.sent from h
  refine Ensures.bind (Q:=fun _ s' => s=s') (Ensures.perform (congrArg (·,s) hclient) rfl) ?_
  rintro client _ rfl
  have hbuilt := session_ensures (@formPayload_yields platform _ _ _
    (sessionAccess cell (s.keys.getD cell .zero)) (sessionFaithful cell _) (openForm item))
  refine (hbuilt.mono (fun _ _ h => h) fun _ h => absurd h id).bind fun payload s₁ h₁ => ?_
  obtain ⟨⟨hsealed,hplain⟩,hkeeps⟩ := h₁
  have hsent := @request_sends (fun i => Fulfilled i.value) client "PUT".toList
    ("/api/ciphers/".toList++item.id) (.cipher payload (s.keys.getD cell .zero)) false s₁
  have hsaved {s₂ : WebState} (h : s₂.sent=s₁.sent++[s₁.outgoing client "PUT".toList
      ("/api/ciphers/".toList++item.id) false (.cipher payload (s.keys.getD cell .zero))]) :
      Saved platform (s.keys.getD cell .zero) (openForm item) item.id s.sent s₂.sent := by
    rw [h,hkeeps.2.2]
    exact ⟨payload,_,_,hsealed,hplain,rfl⟩
  exact (hsent.mono (fun _ _ h => hsaved h) fun _ h => hsaved h).bind fun _ _ h => h

end Payload

section Reopening

/-- The login that is read back. -/
def reopenedLogin (item : VaultItem) : Option LoginFields :=
  (ifKind (TYPE_NUMBERS item.type) 1 (some (loginContent (openForm item)))).map
    (LoginContent.fields Utf8.dropMark)

/-- The card that is read back. -/
def reopenedCard (item : VaultItem) : Option (CardFields Text) :=
  (ifKind (TYPE_NUMBERS item.type) 3 (some (mapCard presentText (openCard item.card)))).map
    (cardFields Utf8.dropMark)

/-- The item that is read back. -/
def reopened (item : VaultItem) : VaultItem :=
  {item with
    name := Utf8.dropMark item.name
    folderId := presentText (item.folderId.getD [])
    login := reopenedLogin item
    note := noteOf Utf8.dropMark (TYPE_NUMBERS item.type) (presentText (item.note.getD []))
    card := reopenedCard item}

theorem CIPHER_TYPE_number (type : ItemType) : CIPHER_TYPE (TYPE_NUMBERS type)=type := by
  cases type <;> rfl

/-- A request of the opened form has the item that is read back. -/
theorem item_of_carries {item : VaultItem} {payload : CreateCipherRequest}
    (h : Carries (openForm item) payload) :
    (formContent (openForm item)).item Utf8.dropMark item.id item.createdAt item.updatedAt payload=
      reopened item := by
  rw [Content.item,h.type,h.folderId,h.organizationId,h.collectionIds,h.favorite]
  dsimp only [formContent,openForm]
  rw [ifKind_map _ _ _ loginContent,ifKind_map _ _ _ (mapCard presentText),ifKind_self,ifKind_self,
    CIPHER_TYPE_number]
  rfl

/-- A text without a byte order mark in front. -/
def Intact (text : Text) : Prop := text.head?≠some Utf8.byteOrderMark

instance (text : Text) : Decidable (Intact text) :=
  inferInstanceAs (Decidable (text.head?≠some Utf8.byteOrderMark))

/-- The form keeps this login. -/
structure KeepsLogin (login : LoginFields) : Prop where
  /-- At most one address. -/
  uris : login.uris.length≤1
  /-- The one-time-password secret is missing or not empty. -/
  totp : login.totp≠some []
  /-- The texts come back. -/
  intact : Intact login.username ∧ Intact login.password ∧ (∀ uri∈login.uris,Intact uri) ∧
    ∀ secret∈login.totp,Intact secret

/-- Every field of a card has a property. -/
structure EachField (P : Text → Prop) (card : CardFields Text) : Prop where
  /-- Name on the card. -/
  cardholderName : P card.cardholderName
  /-- Issuer brand. -/
  brand : P card.brand
  /-- Card number. -/
  number : P card.number
  /-- Expiry month. -/
  expMonth : P card.expMonth
  /-- Expiry year. -/
  expYear : P card.expYear
  /-- Security code. -/
  code : P card.code

/-- The form keeps this item. -/
structure Lossless (item : VaultItem) : Prop where
  /-- The name comes back. -/
  name : Intact item.name
  /-- The folder is missing or has an identifier. -/
  folderId : item.folderId≠some []
  /-- The notes come back. -/
  note : ∀ note∈item.note,Intact note
  /-- A login has login fields. -/
  hasLogin : item.type=.login → item.login≠none
  /-- They come back. -/
  login : ∀ login∈item.login,KeepsLogin login
  /-- A card has card fields. -/
  hasCard : item.type=.card → item.card≠none
  /-- They come back. -/
  card : ∀ card∈item.card,EachField Intact card

theorem dropMark_eq {text : Text} : Utf8.dropMark text=text ↔ Intact text :=
  Utf8.dropMark_eq_self_iff text

theorem present_getD (text : Text) : ((presentText text).map Utf8.dropMark).getD []=Utf8.dropMark text := by
  cases text <;> rfl

/-- An optional text that is dropped when it is empty. -/
theorem present_eq {text : Option Text} :
    (presentText (text.getD [])).map Utf8.dropMark=text ↔ text≠some [] ∧ ∀ t∈text,Intact t := by
  match text with
  | none => simp [presentText]
  | some [] => simp [presentText]
  | some (c::t) => simp [presentText,dropMark_eq]

theorem folder_eq {folderId : Option Text} : presentText (folderId.getD [])=folderId ↔ folderId≠some [] := by
  match folderId with
  | none => simp [presentText]
  | some [] => simp [presentText]
  | some (c::t) => simp [presentText]

/-- Only a single address comes back. -/
theorem uris_eq {uris : List Text} (h : []∉uris) :
    (((presentText (uris.head?.getD [])).toList.map Utf8.dropMark).filter (· ≠ []))=uris ↔
      uris.length≤1 ∧ ∀ uri∈uris,Intact uri := by
  match uris with
  | [] => simp [presentText]
  | []::rest => simp at h
  | (c::uri)::rest =>
    change ([Utf8.dropMark (c::uri)].filter (· ≠ []))=(c::uri)::rest ↔ _
    rw [List.filter_singleton]
    have hmark := @dropMark_eq (c::uri)
    by_cases hempty : Utf8.dropMark (c::uri)=[]
    · simp only [hempty] at hmark
      have hlost : ¬Intact (c::uri) := fun hintact => absurd (hmark.mpr hintact) (by simp)
      simp [hempty,hlost]
    · have hkept : decide (Utf8.dropMark (c::uri)≠[])=true := decide_eq_true hempty
      rw [hkept,cond_true]
      cases rest with
      | nil => simp [hmark]
      | cons other rest => simp

/-- A login with its fields comes back exactly when the form keeps them. -/
theorem login_eq {login : LoginFields} (h : []∉login.uris) :
    LoginContent.fields Utf8.dropMark ⟨presentText login.username,presentText login.password,
      presentText (login.totp.getD []),(presentText (login.uris.head?.getD [])).toList⟩=login ↔
        KeepsLogin login := by
  obtain ⟨username,password,uris,totp⟩ := login
  dsimp only [LoginContent.fields]
  rw [LoginFields.mk.injEq,present_getD,present_getD,dropMark_eq,dropMark_eq,uris_eq h,present_eq]
  constructor
  · rintro ⟨huser,hpass,⟨hone,huris⟩,htotp,hsecret⟩
    exact ⟨hone,htotp,huser,hpass,huris,hsecret⟩
  · rintro ⟨hone,htotp,huser,hpass,huris,hsecret⟩
    exact ⟨huser,hpass,⟨hone,huris⟩,htotp,hsecret⟩

theorem card_eq {card : CardFields Text} :
    cardFields Utf8.dropMark (mapCard presentText card)=card ↔ EachField Intact card := by
  obtain ⟨cardholderName,brand,number,expMonth,expYear,code⟩ := card
  dsimp only [cardFields,mapCard]
  simp only [CardFields.mk.injEq,present_getD,dropMark_eq]
  constructor
  · rintro ⟨hname,hbrand,hnumber,hmonth,hyear,hcode⟩
    exact ⟨hname,hbrand,hnumber,hmonth,hyear,hcode⟩
  · rintro ⟨hname,hbrand,hnumber,hmonth,hyear,hcode⟩
    exact ⟨hname,hbrand,hnumber,hmonth,hyear,hcode⟩

/-- Data that only one kind has comes back as far as its fields do. -/
theorem reopenedKind_eq {α : Type} {type : ItemType} (kind : ItemType) {data : Option α} {back : α}
    {P : α → Prop} (hshape : data≠none → type=kind) (hback : ∀ a∈data,back=a ↔ P a) :
    ifKind (TYPE_NUMBERS type) (TYPE_NUMBERS kind) (some back)=data ↔
      (type=kind → data≠none) ∧ ∀ a∈data,P a := by
  have hnumber : TYPE_NUMBERS type=TYPE_NUMBERS kind ↔ type=kind := by
    cases type <;> cases kind <;> decide
  unfold ifKind
  by_cases hkind : type=kind
  · rw [if_pos (hnumber.mpr hkind)]
    cases data with
    | none => simp [hkind]
    | some a => simp [hback a rfl]
  · have hnone : data=none := by
      by_contra hsome
      exact hkind (hshape hsome)
    rw [if_neg (fun h => hkind (hnumber.mp h)),hnone]
    simp [hkind]

theorem reopenedLogin_eq {item : VaultItem} (h : Shaped item) :
    reopenedLogin item=item.login ↔
      (item.type=.login → item.login≠none) ∧ ∀ login∈item.login,KeepsLogin login := by
  have hback : ∀ login∈item.login,
      (loginContent (openForm item)).fields Utf8.dropMark=login ↔ KeepsLogin login := by
    intro login hlogin
    rw [←login_eq (h.uris login hlogin),loginContent,openForm,hlogin]
    rfl
  have heq := reopenedKind_eq .login h.login hback
  rw [reopenedLogin,ifKind_map]
  exact heq

theorem reopenedCard_eq {item : VaultItem} (h : Shaped item) :
    reopenedCard item=item.card ↔
      (item.type=.card → item.card≠none) ∧ ∀ card∈item.card,EachField Intact card := by
  have hback : ∀ card∈item.card,
      cardFields Utf8.dropMark (mapCard presentText (openCard item.card))=card ↔ EachField Intact card := by
    intro card hcard
    rw [←card_eq,hcard]
    rfl
  have heq := reopenedKind_eq .card h.card hback
  rw [reopenedCard,ifKind_map]
  exact heq

theorem note_eq {item : VaultItem} (h : Shaped item) :
    noteOf Utf8.dropMark (TYPE_NUMBERS item.type) (presentText (item.note.getD []))=item.note ↔
      ∀ note∈item.note,Intact note := by
  by_cases htype : item.type=.note
  · obtain ⟨note,hnote⟩ := Option.ne_none_iff_exists'.mp (h.secureNote htype)
    rw [htype,hnote,TYPE_NUMBERS,noteOf_secure,Option.some.injEq,Option.getD_some,present_getD,dropMark_eq]
    simp
  · have hnumber : TYPE_NUMBERS item.type≠2 := by
      rw [ne_eq,←CIPHER_TYPE_eq_note,CIPHER_TYPE_number]
      exact htype
    have hnote := h.note htype
    rw [noteOf_other _ hnumber]
    match hkept : item.note with
    | none => simp [presentText]
    | some [] => exact absurd hkept hnote
    | some (c::note) =>
      change presentText (Utf8.dropMark (c::note))=some (c::note) ↔ _
      rw [presentText_eq_some,dropMark_eq]
      simp

/-- An item with the form of a decrypted one comes back exactly when the form
keeps it. -/
theorem reopened_eq {item : VaultItem} (h : Shaped item) : reopened item=item ↔ Lossless item := by
  have hlogin := reopenedLogin_eq h
  have hcard := reopenedCard_eq h
  have hnote := note_eq h
  have hfields : reopened item=item ↔ Utf8.dropMark item.name=item.name ∧
      presentText (item.folderId.getD [])=item.folderId ∧ reopenedLogin item=item.login ∧
      noteOf Utf8.dropMark (TYPE_NUMBERS item.type) (presentText (item.note.getD []))=item.note ∧
      reopenedCard item=item.card := by
    generalize hl : reopenedLogin item=login
    generalize hc : reopenedCard item=card
    cases item
    simp [reopened,hl,hc]
  rw [hfields,dropMark_eq,folder_eq,hlogin,hcard,hnote]
  constructor
  · rintro ⟨hname,hfolder,⟨hhas,hlogin⟩,hnote,hhasCard,hcard⟩
    exact ⟨hname,hfolder,hnote,hhas,hlogin,hhasCard,hcard⟩
  · rintro ⟨hname,hfolder,hnote,hhas,hlogin,hhasCard,hcard⟩
    exact ⟨hname,hfolder,⟨hhas,hlogin⟩,hnote,hhasCard,hcard⟩

end Reopening

section Edits

variable {platform : Platform}

/-- The standard decoder drops a byte order mark. -/
theorem reread_standard (hstandard : StandardText platform) : reread platform=Utf8.dropMark := by
  funext text
  rw [reread,hstandard,utf8,Utf8.textDecode_encode]

/-- An unchanged edit is read back as what the form keeps. -/
theorem losesNothing_eq (hstandard : StandardText platform) (edit : EditRun) (read : WebRun)
    (item : VaultItem) : LosesNothing edit read platform item ↔ reopened item=item := by
  have hsaved := (@handleSubmit_ensures platform _ _ edit.unlocked edit.client item).play
    edit.fulfilled
  obtain ⟨-,-,payload,url,authorization,hsealed,hcarries,hsent⟩ := hsaved
  have hsubmitted : edit.submitted platform item=
      [⟨"PUT".toList,url++("/api/ciphers/".toList++item.id),authorization,.cipher payload edit.key⟩] := by
    rw [EditRun.submitted,hsent,List.drop_left]
    rfl
  have hread : read.result (decryptCipher platform (stored item.id item.createdAt item.updatedAt payload)
      (.owned edit.key))=.ok (reopened item) := by
    obtain ⟨_,hresult,rfl⟩ := read.yields (decryptCipher_yields (ownAccess edit.key)
      (ownFaithful edit.key) hsealed item.id item.createdAt item.updatedAt)
    rw [hresult,reread_standard hstandard,item_of_carries hcarries]
  constructor
  · rintro ⟨payload',⟨url',authorization',hupdate⟩,hresult⟩
    rw [hsubmitted,List.cons.injEq,Sent.mk.injEq,Body.cipher.injEq] at hupdate
    obtain ⟨⟨-,-,-,rfl,-⟩,-⟩ := hupdate
    exact Except.ok.inj (hread.symm.trans hresult)
  · intro hsame
    rw [hsame] at hread
    exact ⟨payload,⟨url,authorization,hsubmitted⟩,hread⟩

/-- Opening a decrypted item in the item form and submitting it unchanged
loses nothing, in every run without a rejected promise, exactly when the form
keeps the item. -/
theorem unchanged_edit_lossless_iff (hstandard : StandardText platform) {item : VaultItem}
    (hproduced : Produced platform item) (edit : EditRun) (read : WebRun) :
    LosesNothing edit read platform item ↔ Lossless item :=
  (losesNothing_eq hstandard edit read item).trans (reopened_eq hproduced.shaped)

end Edits

section Samples

/-- A submit in an unlocked tab. -/
def unlockedEdit : EditRun where
  state := {WebState.loaded .initial ⟨none,none,none⟩ [] UInt8.ofNat with
    userKey := some 0
    keys := [.zero]
    client := some 0}
  arrivals _ := ⟨[],.settled⟩
  cell := 0
  unlocked := rfl
  client := by simp
  fulfilled _ := settled_fulfilled

/-- A login with these addresses. -/
def loginAt (uris : List Text) : VaultItem :=
  ⟨[],.login,"shop".toList,none,none,[],false,[],[],
    some ⟨"ann".toList,"secret".toList,uris,none⟩,none,none⟩

/-- Its plaintext. -/
def contentAt (uris : List Text) : Content :=
  ⟨"shop".toList,none,some ⟨some "ann".toList,some "secret".toList,none,uris⟩,none⟩

theorem loginAt_produced {uris : List Text}
    (h : (contentAt uris).item Utf8.dropMark [] [] [] (sealRequest FieldRoundTrip.standard .zero 1
      (contentAt uris))=loginAt uris) : Produced FieldRoundTrip.standard (loginAt uris) := by
  have hproduced := produced_of_content FieldRoundTrip.standard 1 (contentAt uris)
  rw [reread_standard FieldRoundTrip.standard_text,h] at hproduced
  exact hproduced

/-- The second address of a login is lost. -/
theorem second_uri_lost : ¬∀ platform : Platform,StandardText platform →
    ∀ item : VaultItem,Produced platform item → ∀ (edit : EditRun) (read : WebRun),
      LosesNothing edit read platform item := by
  intro hlossless
  have hproduced : Produced FieldRoundTrip.standard
      (loginAt ["https://a.example".toList,"https://b.example".toList]) := loginAt_produced rfl
  have hkept := (losesNothing_eq FieldRoundTrip.standard_text unlockedEdit WebResults.idleTab _).mp
    (hlossless _ FieldRoundTrip.standard_text _ hproduced unlockedEdit WebResults.idleTab)
  exact absurd hkept (by decide)

/-- A login with one address survives an edit. -/
theorem unchanged_edit_lossless_sample :
    LosesNothing unlockedEdit WebResults.idleTab FieldRoundTrip.standard
      (loginAt ["https://a.example".toList]) := by
  have hproduced : Produced FieldRoundTrip.standard (loginAt ["https://a.example".toList]) :=
    loginAt_produced rfl
  refine (unchanged_edit_lossless_iff FieldRoundTrip.standard_text hproduced unlockedEdit
    WebResults.idleTab).mpr ?_
  refine ⟨by decide,by decide,by simp [loginAt],by simp [loginAt],?_,by simp [loginAt],by simp [loginAt]⟩
  rintro login ⟨⟩
  exact ⟨by decide,by decide,by decide,by decide,by decide,by simp⟩

end Samples

end NadSafe.ItemEditing
