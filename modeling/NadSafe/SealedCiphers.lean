import NadSafe.WebResults

/-!
# Ciphers of known content

The plaintext of one item as its request carries it, the relation between
this content and an encrypted request, and what `decryptCipher` returns on
the cipher that the server stores for such a request. Writers of requests
and their reader meet at this relation.
-/

namespace NadSafe.SealedCiphers

open HostText AsyncScript WireFormat WebCrypto WebClient WebScripts WebContracts WebResults
open FulfilledScript

/-- The plaintext of login data. -/
structure LoginContent where
  /-- User name. -/
  username : Option Text
  /-- Password. -/
  password : Option Text
  /-- One-time-password secret. -/
  totp : Option Text
  /-- Addresses. -/
  uris : List Text

/-- The plaintext of a request body. -/
structure Content where
  /-- Name. -/
  name : Text
  /-- Notes. -/
  notes : Option Text
  /-- Login data. -/
  login : Option LoginContent
  /-- Card data. -/
  card : Option (CardFields (Option Text))

/-- The cipher that the server stores for a request. -/
def stored (id creationDate revisionDate : Text) (r : CreateCipherRequest) : CipherResponse :=
  ⟨id,r.organizationId,r.folderId,r.collectionIds,r.type,r.name,r.notes,r.favorite,revisionDate,
    creationDate,none,r.login.map fun l => ⟨l.username,l.password,l.totp,some l.uris⟩,r.card⟩

section Sealing

variable (platform : Platform) (key : SymKey)

/-- A missing field stays missing, any other is sealed. -/
def SealedField : Option Text → Option Text → Prop
  | none,field => field=none
  | some value,field => ∃ text,field=some text ∧ SealedAs platform key (utf8 value) text

/-- The fields of login data are sealed, the addresses in order. -/
structure SealedLogin (content : LoginContent) (login : LoginData) : Prop where
  /-- User name. -/
  username : SealedField platform key content.username login.username
  /-- Password. -/
  password : SealedField platform key content.password login.password
  /-- One-time-password secret. -/
  totp : SealedField platform key content.totp login.totp
  /-- Addresses. -/
  uris : List.Forall₂ (fun uri u => SealedAs platform key (utf8 uri) u.uri) content.uris login.uris

/-- The fields of card data are sealed. -/
structure SealedCard (content card : CardFields (Option Text)) : Prop where
  /-- Name on the card. -/
  cardholderName : SealedField platform key content.cardholderName card.cardholderName
  /-- Issuer brand. -/
  brand : SealedField platform key content.brand card.brand
  /-- Card number. -/
  number : SealedField platform key content.number card.number
  /-- Expiry month. -/
  expMonth : SealedField platform key content.expMonth card.expMonth
  /-- Expiry year. -/
  expYear : SealedField platform key content.expYear card.expYear
  /-- Security code. -/
  code : SealedField platform key content.code card.code

/-- A request seals this content. -/
structure SealedRequest (content : Content) (r : CreateCipherRequest) : Prop where
  /-- Name. -/
  name : SealedAs platform key (utf8 content.name) r.name
  /-- Notes. -/
  notes : SealedField platform key content.notes r.notes
  /-- Login data. -/
  login : Option.Rel (SealedLogin platform key) content.login r.login
  /-- Card data. -/
  card : Option.Rel (SealedCard platform key) content.card r.card

end Sealing

/-- `value || null`. -/
def presentText (value : Text) : Option Text := if value=[] then none else some value

theorem presentText_eq_some {text value : Text} : presentText text=some value ↔ text=value ∧ value≠[] := by
  unfold presentText
  split
  · rename_i hempty
    simp [hempty,eq_comm]
  · rename_i hvalue
    rw [Option.some.injEq]
    exact ⟨fun h => ⟨h,h ▸ hvalue⟩,fun h => h.1⟩

section Reading

/-- What is read of one text: it is decoded from its own bytes. -/
def reread (platform : Platform) (value : Text) : Text := platform.textDecode (utf8 value)

variable (read : Text → Text)

/-- The login that is read of login data. -/
def LoginContent.fields (content : LoginContent) : LoginFields :=
  ⟨(content.username.map read).getD [],(content.password.map read).getD [],
    (content.uris.map read).filter (· ≠ []),content.totp.map read⟩

/-- One function on each field of a card. -/
def mapCard {α β : Type} (f : α → β) (card : CardFields α) : CardFields β :=
  ⟨f card.cardholderName,f card.brand,f card.number,f card.expMonth,f card.expYear,f card.code⟩

/-- The card that is read of card data. -/
def cardFields : CardFields (Option Text) → CardFields Text :=
  mapCard fun value => (value.map read).getD []

/-- The notes that are read: no text is left for an empty one, except that a
secure note always has its own. -/
def noteOf (type : ℕ) (notes : Option Text) : Option Text :=
  let note := (notes.map read).bind presentText
  if type=2 ∧ note=none then some [] else note

/-- The data of one item kind. -/
def ifKind {α : Type} (type kind : ℕ) (data : Option α) : Option α := if type=kind then data else none

theorem ifKind_map {α β : Type} (type kind : ℕ) (data : Option α) (f : α → β) :
    (ifKind type kind data).map f=ifKind type kind (data.map f) := by
  unfold ifKind
  split <;> rfl

theorem ifKind_self {α : Type} (type kind : ℕ) (data : Option α) :
    ifKind type kind (ifKind type kind data)=ifKind type kind data := by
  unfold ifKind
  split <;> rfl

/-- The notes of a secure note are never missing. -/
theorem noteOf_secure (notes : Option Text) : noteOf read 2 notes=some ((notes.map read).getD []) := by
  unfold noteOf
  match notes.map read with
  | none => rfl
  | some [] => rfl
  | some (c::text) => rfl

theorem noteOf_other {type : ℕ} (h : type≠2) (notes : Option Text) :
    noteOf read type notes=(notes.map read).bind presentText :=
  if_neg fun hsecure => h hsecure.1

/-- The item that is read of a request with this content. -/
def Content.item (content : Content) (id creationDate revisionDate : Text) (r : CreateCipherRequest) :
    VaultItem :=
  ⟨id,CIPHER_TYPE r.type,read content.name,r.folderId,r.organizationId,r.collectionIds,r.favorite,
    creationDate,revisionDate,(ifKind r.type 1 content.login).map (LoginContent.fields read),
    noteOf read r.type content.notes,(ifKind r.type 3 content.card).map (cardFields read)⟩

end Reading

section Fields

variable {platform : Platform} {pre : WebCall → Prop} {post : ∀ c,WebCall.Answer c → Prop} {key : KeyRef}

theorem enc_yields (h : KeyAccess pre key) (hf : Faithful post key) (value : Option Text) :
    Yields pre post Fulfilled (SealedField platform (issuedKey key) value)
      (WebOperations.enc platform value key) := by
  cases value with
  | none => exact rfl
  | some value => exact (encryptField_yields h hf value).bind fun text htext => ⟨text,rfl,htext⟩

/-- A field that is encrypted unless it is empty seals what is present. -/
theorem present_yields (h : KeyAccess pre key) (hf : Faithful post key) (value : Text) :
    Yields pre post Fulfilled (SealedField platform (issuedKey key) (presentText value))
      (WebOperations.encNonempty platform value key) := by
  unfold WebOperations.encNonempty presentText
  split
  · exact rfl
  · exact enc_yields h hf (some value)

/-- A card is sealed as its fields are. -/
theorem encryptCard_yields {α : Type} {g : α → Option Text} {field : α → Web (Option Text)}
    (h : ∀ value,Yields pre post Fulfilled (SealedField platform (issuedKey key) (g value)) (field value))
    (card : CardFields α) :
    Yields pre post Fulfilled (SealedCard platform (issuedKey key) (mapCard g card))
      (WebOperations.encryptCard field card) := by
  refine ((h _).both ((h _).both ((h _).both ((h _).both ((h _).both (h _)))))).bind fun r hr => ?_
  obtain ⟨hname,hbrand,hnumber,hmonth,hyear,hcode⟩ := hr
  exact ⟨hname,hbrand,hnumber,hmonth,hyear,hcode⟩

/-- The branch of one item kind seals what belongs to it. -/
theorem ofKind_seals {α β γ : Type} {P : γ → β → Prop} {g : α → γ} {f : α → Web β} {type kind : ℕ}
    {data : Option α} (h : ∀ value,Yields pre post Fulfilled (P (g value)) (f value)) :
    Yields pre post Fulfilled (Option.Rel P ((ifKind type kind data).map g)) (ofKind type kind data f) := by
  unfold ifKind ofKind
  cases data with
  | none => split <;> exact .none
  | some value =>
    dsimp only
    split
    · exact (h value).bind fun fields hfields => .some hfields
    · exact .none

/-- A branch on data that is given in another form. -/
theorem ofKind_map {α β γ : Type} (type kind : ℕ) (data : Option α) (g : α → β) (f : β → Web γ) :
    ofKind type kind (data.map g) f=ofKind type kind data fun a => f (g a) := by
  cases data <;> rfl

/-- A sealed field is read, a missing one stays missing. -/
theorem field_yields (h : KeyAccess pre key) (hf : Faithful post key) {value field : Option Text}
    (hs : SealedField platform (issuedKey key) value field) :
    Yields pre post Fulfilled (· = value.map (reread platform)) (decryptField platform field key) := by
  cases value with
  | none =>
    rw [show field=none from hs]
    exact rfl
  | some value =>
    obtain ⟨text,rfl,htext⟩ := hs
    exact decryptField_yields h hf htext

theorem notes_yields (h : KeyAccess pre key) (hf : Faithful post key) {value field : Option Text}
    (hs : SealedField platform (issuedKey key) value field) :
    Yields pre post Fulfilled (· = (value.map (reread platform)).bind presentText)
      (decryptNotes platform field key) := by
  refine (field_yields h hf hs).bind fun content hcontent => ?_
  rw [←hcontent]
  match content with
  | none => exact rfl
  | some [] => exact rfl
  | some (c::text) => exact rfl

/-- Results that are each determined by an entry. -/
theorem forall₂_eq_map {α β : Type} {g : α → β} {xs : List α} {ys : List β}
    (h : List.Forall₂ (fun x y => y=g x) xs ys) : ys=xs.map g := by
  induction h with
  | nil => rfl
  | cons hxy hrest ih => rw [hxy,ih,List.map_cons]

theorem login_yields (h : KeyAccess pre key) (hf : Faithful post key) {content : LoginContent}
    {login : LoginData} (hs : SealedLogin platform (issuedKey key) content login) :
    Yields pre post Fulfilled (· = content.fields (reread platform))
      (decryptLogin platform ⟨login.username,login.password,login.totp,some login.uris⟩ key) := by
  refine ((field_yields h hf hs.username).both
    ((field_yields h hf hs.password).both (field_yields h hf hs.totp))).bind fun r hr => ?_
  obtain ⟨username,password,totp⟩ := r
  obtain ⟨rfl,rfl,rfl⟩ := hr
  have huris : Yields pre post Fulfilled
      (List.Forall₂ (fun uri text => text=some (reread platform uri)) content.uris)
      (Script.all (login.uris.map fun u => decryptField platform (some u.uri) key)) :=
    Yields.all hs.uris fun uri u hu => decryptField_yields h hf hu
  refine huris.bind fun texts htexts => ?_
  have hread : texts.filterMap id=content.uris.map (reread platform) := by
    rw [forall₂_eq_map htexts,List.filterMap_map]
    exact congrFun List.filterMap_eq_map content.uris
  rw [hread]
  exact rfl

theorem card_yields (h : KeyAccess pre key) (hf : Faithful post key)
    {content card : CardFields (Option Text)} (hs : SealedCard platform (issuedKey key) content card) :
    Yields pre post Fulfilled (· = cardFields (reread platform) content)
      (decryptCard platform card key) := by
  refine ((field_yields h hf hs.cardholderName).both ((field_yields h hf hs.brand).both
    ((field_yields h hf hs.number).both ((field_yields h hf hs.expMonth).both
      ((field_yields h hf hs.expYear).both (field_yields h hf hs.code)))))).bind fun r hr => ?_
  obtain ⟨cardholderName,brand,number,expMonth,expYear,code⟩ := r
  obtain ⟨rfl,rfl,rfl,rfl,rfl,rfl⟩ := hr
  exact rfl

/-- The branch of one item kind reads what belongs to it. -/
theorem ofKind_yields {α β γ : Type} {P : α → β → Prop} {f : β → Web γ} {g : α → γ} {type kind : ℕ}
    {content : Option α} {data : Option β} (hp : Option.Rel P content data)
    (h : ∀ a b,P a b → Yields pre post Fulfilled (· = g a) (f b)) :
    Yields pre post Fulfilled (· = (ifKind type kind content).map g) (ofKind type kind data f) := by
  unfold ifKind ofKind
  cases hp with
  | none => split <;> exact rfl
  | some hab =>
    dsimp only
    split
    · refine (h _ _ hab).bind fun fields hfields => ?_
      rw [hfields]
      exact rfl
    · exact rfl

/-- `decryptCipher` on the cipher stored for a request returns the item of its
content. -/
theorem decryptCipher_yields (h : KeyAccess pre key) (hf : Faithful post key) {content : Content}
    {r : CreateCipherRequest} (hs : SealedRequest platform (issuedKey key) content r)
    (id creationDate revisionDate : Text) :
    Yields pre post Fulfilled (· = content.item (reread platform) id creationDate revisionDate r)
      (decryptCipher platform (stored id creationDate revisionDate r) key) := by
  refine (decryptField_yields h hf hs.name).bind fun name hname => ?_
  refine (notes_yields h hf hs.notes).bind fun note hnote => ?_
  have hlogin : Option.Rel (fun content data => ∃ login,SealedLogin platform (issuedKey key) content login ∧
      data=⟨login.username,login.password,login.totp,some login.uris⟩) content.login
      (r.login.map fun l => LoginDataResponse.mk l.username l.password l.totp (some l.uris)) := by
    have hrel := hs.login
    generalize content.login=data,r.login=login at hrel
    cases hrel with
    | none => exact .none
    | some hsealed => exact .some ⟨_,hsealed,rfl⟩
  refine (ofKind_yields (g:=LoginContent.fields (reread platform)) hlogin ?_).bind fun login hl => ?_
  · rintro content data ⟨login,hsealed,rfl⟩
    exact login_yields h hf hsealed
  refine (ofKind_yields hs.card fun _ _ hsealed => card_yields h hf hsealed).bind fun card hc => ?_
  rw [hname,hnote,hl,hc]
  exact rfl

end Fields

section Requests

variable (platform : Platform) (key : SymKey)

/-- One sealed text of each plaintext. -/
def sealText (value : Text) : Text :=
  serializeEncString (sealed platform key (List.replicate 16 0) (utf8 value))

/-- A personal item of each content. -/
def sealRequest (type : ℕ) (content : Content) : CreateCipherRequest :=
  ⟨type,sealText platform key content.name,content.notes.map (sealText platform key),none,none,[],false,0,
    content.login.map fun login => ⟨login.username.map (sealText platform key),
      login.password.map (sealText platform key),login.totp.map (sealText platform key),
      login.uris.map fun uri => ⟨sealText platform key uri,none⟩⟩,
    none,content.card.map (mapCard fun value => value.map (sealText platform key))⟩

variable {platform key}

theorem sealText_sealed (value : Text) :
    SealedAs platform key (utf8 value) (sealText platform key value) :=
  ⟨List.replicate 16 0,rfl,rfl⟩

theorem sealText_field (value : Option Text) :
    SealedField platform key value (value.map (sealText platform key)) := by
  cases value with
  | none => exact rfl
  | some value => exact ⟨_,rfl,sealText_sealed value⟩

theorem sealRequest_sealed (type : ℕ) (content : Content) :
    SealedRequest platform key content (sealRequest platform key type content) := by
  obtain ⟨name,notes,login,card⟩ := content
  refine ⟨sealText_sealed name,sealText_field notes,?_,?_⟩
  · cases login with
    | none => exact .none
    | some login =>
      refine .some ⟨sealText_field _,sealText_field _,sealText_field _,?_⟩
      rw [List.forall₂_map_right_iff]
      exact List.forall₂_same.mpr fun uri _ => sealText_sealed uri
  · cases card with
    | none => exact .none
    | some card =>
      exact .some ⟨sealText_field _,sealText_field _,sealText_field _,sealText_field _,
        sealText_field _,sealText_field _⟩

end Requests

end NadSafe.SealedCiphers
