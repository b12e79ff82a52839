import NadSafe.DecryptedItems
import NadSafe.FieldRoundTrip
import NadSafe.JsonText
import NadSafe.SealedCiphers
import NadSafe.ServedScript

/-!
# Export and import of a vault

`buildExportJson` writes the decrypted items as JSON text and
`importBitwardenJson` reads such a text, encrypts every item and creates it
on the server. The two use different conventions for missing and empty
values. An exported vault is followed through both, to the ciphers that the
server then holds and to what `decryptCipher` returns on them.
-/

namespace NadSafe.VaultTransfer

open HostText AsyncScript AsyncScript.Script WireFormat WebCrypto WebClient WebScripts WebOperations
open WebContracts WebResults FulfilledScript SequentialScript SealedCiphers DecryptedItems ServedScript
open FieldRoundTrip (Client roundTrip)
open JsonText (Value)

section Export

/-- `TYPE_MAP`. -/
def TYPE_MAP : ItemType → ℕ
  | .login => 1
  | .note => 2
  | .card => 3
  | .identity => 4

/-- A text or `null`. -/
def textOrNull : Option Text → Value
  | some text => .string text
  | none => .null

/-- The login of `itemToExport`. -/
def loginToExport (login : LoginFields) : Value :=
  .object [("username".toList,textOrNull (presentText login.username)),
    ("password".toList,textOrNull (presentText login.password)),
    ("totp".toList,textOrNull login.totp),
    ("uris".toList,.array (login.uris.map fun uri =>
      .object [("uri".toList,.string uri),("match".toList,.null)]))]

/-- The card of `itemToExport`. -/
def cardToExport (card : CardFields Text) : Value :=
  .object [("cardholderName".toList,textOrNull (presentText card.cardholderName)),
    ("brand".toList,textOrNull (presentText card.brand)),
    ("number".toList,textOrNull (presentText card.number)),
    ("expMonth".toList,textOrNull (presentText card.expMonth)),
    ("expYear".toList,textOrNull (presentText card.expYear)),
    ("code".toList,textOrNull (presentText card.code))]

/-- The members of `base` in `itemToExport`. -/
def baseMembers (item : VaultItem) : List (Text×Value) :=
  [("id".toList,.string item.id),("organizationId".toList,textOrNull item.organizationId),
    ("folderId".toList,textOrNull item.folderId),("type".toList,.number (TYPE_MAP item.type)),
    ("name".toList,.string item.name),("notes".toList,textOrNull item.note),
    ("favorite".toList,.bool item.favorite),("fields".toList,.array []),
    ("reprompt".toList,.number 0)]

/-- The members that `itemToExport` adds for the item kinds. -/
def kindMembers (item : VaultItem) : List (Text×Value) :=
  (item.login.map fun login => ("login".toList,loginToExport login)).toList++
    (if item.type=.note then [("secureNote".toList,Value.object [("type".toList,.number 0)])] else [])++
    (item.card.map fun card => ("card".toList,cardToExport card)).toList

/-- `itemToExport`. -/
def itemToExport (item : VaultItem) : Value := .object (baseMembers item++kindMembers item)

/-- The value that `buildExportJson` writes. -/
def exportData (items : List VaultItem) (folders : List Folder) : Value :=
  .object [("encrypted".toList,.bool false),
    ("folders".toList,.array (folders.map fun f =>
      .object [("id".toList,.string f.id),("name".toList,.string f.name)])),
    ("items".toList,.array (items.map itemToExport))]

/-- `buildExportJson`. -/
def buildExportJson (items : List VaultItem) (folders : List Folder) : Text :=
  JsonText.stringify 2 (exportData items folders)

end Export

section Reading

/-- An optional property of one type: missing and `null` are the same here. -/
def optional {α : Type} (read : Value → Option α) : Option Value → Option (Option α)
  | none => some none
  | some .null => some none
  | some v => (read v).map some

/-- A string. -/
def asText : Value → Option Text
  | .string text => some text
  | _ => none

/-- A number of an enumeration. -/
def asNumber : Value → Option ℕ
  | .number n => some n
  | _ => none

/-- A Boolean. -/
def asBool : Value → Option Bool
  | .bool b => some b
  | _ => none

/-- An array of one type. -/
def asList {α : Type} (read : Value → Option α) : Value → Option (List α)
  | .array items => items.mapM read
  | _ => none

/-- An address, as `import.ts` declares it. -/
def asUri (v : Value) : Option ExportUri := do
  let uri ← optional asText (v.field "uri".toList)
  let match_ ← optional asNumber (v.field "match".toList)
  pure ⟨uri,match_⟩

/-- A login, as `import.ts` declares it. -/
def asLogin (v : Value) : Option ExportLogin := do
  let username ← optional asText (v.field "username".toList)
  let password ← optional asText (v.field "password".toList)
  let totp ← optional asText (v.field "totp".toList)
  let uris ← optional (asList asUri) (v.field "uris".toList)
  pure ⟨username,password,totp,uris⟩

/-- A card, as `import.ts` declares it. -/
def asCard (v : Value) : Option (CardFields (Option Text)) := do
  let cardholderName ← optional asText (v.field "cardholderName".toList)
  let brand ← optional asText (v.field "brand".toList)
  let number ← optional asText (v.field "number".toList)
  let expMonth ← optional asText (v.field "expMonth".toList)
  let expYear ← optional asText (v.field "expYear".toList)
  let code ← optional asText (v.field "code".toList)
  pure ⟨cardholderName,brand,number,expMonth,expYear,code⟩

/-- An item, as `import.ts` declares it. -/
def asItem (v : Value) : Option BitwardenExportItem := do
  let type ← (v.field "type".toList).bind asNumber
  let name ← optional asText (v.field "name".toList)
  let notes ← optional asText (v.field "notes".toList)
  let favorite ← optional asBool (v.field "favorite".toList)
  let login ← optional asLogin (v.field "login".toList)
  let card ← optional asCard (v.field "card".toList)
  pure ⟨type,name.getD [],notes,favorite,login,card⟩

/-- A whole file, as `import.ts` declares it. -/
def asExport (v : Value) : Option BitwardenExport := do
  let encrypted ← optional asBool (v.field "encrypted".toList)
  let items ← optional (asList asItem) (v.field "items".toList)
  pure ⟨encrypted.getD false,items⟩

/-- `importBitwardenJson` on the text of a file. The source casts a parsed
value to the declared type; a value that is not of this type is refused. -/
def importText (platform : Platform) (json : Text) (client : ℕ) (userKey : KeyRef) : Web ImportResult :=
  match JsonText.parse json with
  | none => importBitwardenJson platform none client userKey
  | some v =>
    match asExport v with
    | none => typeError
    | some data => importBitwardenJson platform (some data) client userKey

end Reading

section Exported

/-- An exported login as the importer sees it. -/
def exportedLogin (login : LoginFields) : ExportLogin :=
  ⟨presentText login.username,presentText login.password,login.totp,
    some (login.uris.map fun uri => ⟨some uri,none⟩)⟩

/-- An exported item as the importer sees it. -/
def exported (item : VaultItem) : BitwardenExportItem :=
  ⟨TYPE_MAP item.type,item.name,item.note,some item.favorite,item.login.map exportedLogin,
    item.card.map (mapCard presentText)⟩

theorem optional_text (text : Option Text) : optional asText (some (textOrNull text))=some text := by
  cases text <;> rfl

/-- Entries that are each read back. -/
theorem mapM_map {α β : Type} {write : α → Value} {read : Value → Option β} {view : α → β}
    (h : ∀ a,read (write a)=some (view a)) (as : List α) :
    (as.map write).mapM read=some (as.map view) := by
  induction as with
  | nil => rfl
  | cons a as ih => simp [h,ih]

theorem asLogin_export (login : LoginFields) : asLogin (loginToExport login)=some (exportedLogin login) := by
  have huris : asList asUri (.array (login.uris.map fun uri =>
      .object [("uri".toList,.string uri),("match".toList,.null)]))=
        some (login.uris.map fun uri => ExportUri.mk (some uri) none) :=
    @mapM_map _ _ _ _ (fun uri => ExportUri.mk (some uri) none) (fun _ => rfl) login.uris
  have hfields : asLogin (loginToExport login)=(do
      let username ← optional asText (some (textOrNull (presentText login.username)))
      let password ← optional asText (some (textOrNull (presentText login.password)))
      let totp ← optional asText (some (textOrNull login.totp))
      let uris ← (asList asUri (.array (login.uris.map fun uri =>
        .object [("uri".toList,.string uri),("match".toList,.null)]))).map some
      pure ⟨username,password,totp,uris⟩) := rfl
  rw [hfields,optional_text,optional_text,optional_text,huris]
  rfl

theorem asCard_export (card : CardFields Text) :
    asCard (cardToExport card)=some (mapCard presentText card) := by
  have hfields : asCard (cardToExport card)=(do
      let cardholderName ← optional asText (some (textOrNull (presentText card.cardholderName)))
      let brand ← optional asText (some (textOrNull (presentText card.brand)))
      let number ← optional asText (some (textOrNull (presentText card.number)))
      let expMonth ← optional asText (some (textOrNull (presentText card.expMonth)))
      let expYear ← optional asText (some (textOrNull (presentText card.expYear)))
      let code ← optional asText (some (textOrNull (presentText card.code)))
      pure ⟨cardholderName,brand,number,expMonth,expYear,code⟩) := rfl
  simp only [hfields,optional_text]
  rfl

/-- An optional member. -/
theorem field_optional {α : Type} (name key : Text) (f : α → Value) (data : Option α) :
    (Value.object (data.map fun a => (name,f a)).toList).field key=
      if key=name then data.map f else none := by
  cases data with
  | none =>
    rw [Option.map_none,Option.map_none,ite_self]
    rfl
  | some a =>
    by_cases h : key=name
    · subst h
      simp [Value.field]
    · have hne : ¬name=key := fun h' => h h'.symm
      simp [Value.field,h,hne]

/-- The member of a secure note. -/
def secureNote (item : VaultItem) : Option Unit := if item.type=.note then some () else none

/-- The members of the item kinds, one by one. -/
theorem field_kind (item : VaultItem) (key : Text) : (Value.object (kindMembers item)).field key=
    (if key="card".toList then item.card.map cardToExport else none).or
      ((if key="secureNote".toList then (secureNote item).map fun _ => .object [("type".toList,.number 0)]
        else none).or (if key="login".toList then item.login.map loginToExport else none)) := by
  have hnote : (if item.type=.note then [("secureNote".toList,Value.object [("type".toList,.number 0)])]
      else [])=((secureNote item).map fun _ => ("secureNote".toList,
        Value.object [("type".toList,.number 0)])).toList := by
    unfold secureNote
    split <;> rfl
  rw [kindMembers,hnote,JsonText.field_append,JsonText.field_append,field_optional,field_optional,
    field_optional]

/-- A property of an exported item. -/
theorem field_item (item : VaultItem) (key : Text) : (itemToExport item).field key=
    ((Value.object (kindMembers item)).field key).or ((Value.object (baseMembers item)).field key) :=
  JsonText.field_append _ _ _

theorem asItem_export (item : VaultItem) : asItem (itemToExport item)=some (exported item) := by
  have htype : (itemToExport item).field "type".toList=some (.number (TYPE_MAP item.type)) := by
    rw [field_item,field_kind]
    rfl
  have hname : (itemToExport item).field "name".toList=some (.string item.name) := by
    rw [field_item,field_kind]
    rfl
  have hnotes : (itemToExport item).field "notes".toList=some (textOrNull item.note) := by
    rw [field_item,field_kind]
    rfl
  have hfavorite : (itemToExport item).field "favorite".toList=some (.bool item.favorite) := by
    rw [field_item,field_kind]
    rfl
  have hlogin : (itemToExport item).field "login".toList=item.login.map loginToExport := by
    rw [field_item,field_kind]
    cases item.login <;> rfl
  have hcard : (itemToExport item).field "card".toList=item.card.map cardToExport := by
    rw [field_item,field_kind]
    cases item.card <;> rfl
  have hreadLogin : optional asLogin (item.login.map loginToExport)=some (item.login.map exportedLogin) := by
    cases item.login with
    | none => rfl
    | some login => exact congrArg (Option.map some) (asLogin_export login)
  have hreadCard : optional asCard (item.card.map cardToExport)=
      some (item.card.map (mapCard presentText)) := by
    cases item.card with
    | none => rfl
    | some card => exact congrArg (Option.map some) (asCard_export card)
  rw [asItem,htype,hname,hnotes,hfavorite,hlogin,hcard,hreadLogin,hreadCard,optional_text]
  rfl

/-- The importer sees the exported items. -/
theorem asExport_export (items : List VaultItem) (folders : List Folder) :
    asExport (exportData items folders)=some ⟨false,some (items.map exported)⟩ := by
  have hitems : asList asItem (.array (items.map itemToExport))=some (items.map exported) :=
    mapM_map asItem_export items
  have hfields : asExport (exportData items folders)=(do
      let items ← (asList asItem (.array (items.map itemToExport))).map some
      pure ⟨false,items⟩) := rfl
  rw [hfields,hitems]
  rfl

theorem textOrNull_exact (text : Option Text) : JsonText.Exact (textOrNull text) := by
  cases text <;> trivial

theorem loginToExport_exact (login : LoginFields) : JsonText.Exact (loginToExport login) := by
  have huris : JsonText.ExactItems (login.uris.map fun uri =>
      .object [("uri".toList,.string uri),("match".toList,.null)]) := by
    rw [JsonText.exactItems_iff]
    intro v hv
    obtain ⟨uri,-,rfl⟩ := List.mem_map.mp hv
    exact ⟨trivial,trivial,trivial⟩
  exact ⟨textOrNull_exact _,textOrNull_exact _,textOrNull_exact _,huris,trivial⟩

theorem cardToExport_exact (card : CardFields Text) : JsonText.Exact (cardToExport card) :=
  ⟨textOrNull_exact _,textOrNull_exact _,textOrNull_exact _,textOrNull_exact _,textOrNull_exact _,
    textOrNull_exact _,trivial⟩

theorem itemToExport_exact (item : VaultItem) : JsonText.Exact (itemToExport item) := by
  have hbase : JsonText.ExactMembers (baseMembers item) :=
    ⟨trivial,textOrNull_exact _,textOrNull_exact _,trivial,trivial,textOrNull_exact _,trivial,trivial,
      trivial,trivial⟩
  have hkind : ∀ m∈kindMembers item,JsonText.Exact m.2 := by
    intro m hm
    unfold kindMembers at hm
    rcases List.mem_append.mp hm with hm|hm
    · rcases List.mem_append.mp hm with hm|hm
      · obtain ⟨login,-,rfl⟩ := Option.map_eq_some_iff.mp (Option.mem_toList.mp hm)
        exact loginToExport_exact login
      · split at hm
        · cases List.mem_singleton.mp hm
          exact ⟨trivial,trivial⟩
        · cases hm
    · obtain ⟨card,-,rfl⟩ := Option.map_eq_some_iff.mp (Option.mem_toList.mp hm)
      exact cardToExport_exact card
  show JsonText.ExactMembers (baseMembers item++kindMembers item)
  rw [JsonText.exactMembers_iff] at hbase ⊢
  intro m hm
  exact (List.mem_append.mp hm).elim (hbase m) (hkind m)

theorem exportData_exact (items : List VaultItem) (folders : List Folder) :
    JsonText.Exact (exportData items folders) := by
  have hfolders : JsonText.ExactItems (folders.map fun f =>
      .object [("id".toList,.string f.id),("name".toList,.string f.name)]) := by
    rw [JsonText.exactItems_iff]
    intro v hv
    obtain ⟨f,-,rfl⟩ := List.mem_map.mp hv
    exact ⟨trivial,trivial,trivial⟩
  have hitems : JsonText.ExactItems (items.map itemToExport) := by
    rw [JsonText.exactItems_iff]
    intro v hv
    obtain ⟨item,-,rfl⟩ := List.mem_map.mp hv
    exact itemToExport_exact item
  exact ⟨trivial,hfolders,hitems,trivial⟩

/-- The import of an exported vault runs over its items. -/
theorem importText_export (platform : Platform) (items : List VaultItem) (folders : List Folder)
    (client : ℕ) (userKey : KeyRef) :
    importText platform (buildExportJson items folders) client userKey=
      importItems platform client userKey 0 (items.map exported) ⟨0,0,[]⟩ := by
  unfold importText buildExportJson
  rw [JsonText.parse_stringify 2 (exportData_exact items folders)]
  dsimp only
  rw [asExport_export]
  rfl

end Exported

section Import

variable {platform : Platform}

/-- The login data of an exported login. -/
def loginContent (login : LoginFields) : LoginContent :=
  ⟨presentText login.username,presentText login.password,login.totp,login.uris⟩

/-- What the import seals of an exported item. -/
def transferContent (item : VaultItem) : Content where
  name := item.name
  notes := item.note
  login := (ifKind (TYPE_MAP item.type) 1 item.login).map loginContent
  card := (ifKind (TYPE_MAP item.type) 3 item.card).map (mapCard presentText)

/-- The request of an exported item. -/
structure Transfers (platform : Platform) (key : SymKey) (item : VaultItem) (payload : CreateCipherRequest) :
    Prop where
  /-- It seals the content of the item. -/
  sealed : SealedRequest platform key (transferContent item) payload
  /-- Item kind. -/
  type : payload.type=TYPE_MAP item.type
  /-- Favourite flag. -/
  favorite : payload.favorite=item.favorite

section Items

variable {pre : WebCall → Prop} {post : ∀ c,WebCall.Answer c → Prop} {key : KeyRef}

/-- The addresses of a login are paired with their ciphertexts in order. -/
theorem zip_sealed {key : SymKey} {uris : List Text} {uriEncs : List (Option Text)}
    (h : List.Forall₂ (fun uri text => SealedField platform key (some uri) text) uris uriEncs) :
    List.Forall₂ (fun uri u => SealedAs platform key (utf8 uri) u.uri) uris
      (((uris.map fun uri => ExportUri.mk (some uri) none).zip uriEncs).map fun p =>
        UriData.mk (p.2.getD []) p.1.match_) := by
  induction h with
  | nil => exact .nil
  | cons huri hrest ih =>
    obtain ⟨text,rfl,htext⟩ := huri
    exact .cons htext ih

theorem encryptLogin_yields (h : KeyAccess pre key) (hf : Faithful post key) (login : LoginFields) :
    Yields pre post Fulfilled (SealedLogin platform (issuedKey key) (loginContent login))
      (encryptLogin platform (exportedLogin login) key) := by
  have huris : Yields pre post Fulfilled
      (List.Forall₂ (fun uri text => SealedField platform (issuedKey key) (some uri) text) login.uris)
      (all ((login.uris.map fun uri => ExportUri.mk (some uri) none).map fun u => enc platform u.uri key)) := by
    have hentries : List.Forall₂ (fun uri u => u=ExportUri.mk (some uri) none) login.uris
        (login.uris.map fun uri => ExportUri.mk (some uri) none) := by
      rw [List.forall₂_map_right_iff]
      exact List.forall₂_same.mpr fun _ _ => rfl
    refine Yields.all hentries fun uri u hu => ?_
    rw [hu]
    exact enc_yields h hf (some uri)
  refine ((enc_yields h hf (presentText login.username)).both
    ((enc_yields h hf (presentText login.password)).both
      ((enc_yields h hf login.totp).both huris))).bind fun r hr => ?_
  obtain ⟨huser,hpass,htotp,huris⟩ := hr
  exact ⟨huser,hpass,htotp,zip_sealed huris⟩

/-- `encryptItem` seals an exported item. -/
theorem encryptItem_yields (h : KeyAccess pre key) (hf : Faithful post key) {item : VaultItem}
    (hname : item.name≠[]) :
    Yields pre post Fulfilled (Transfers platform (issuedKey key) item)
      (encryptItem platform (exported item) key) := by
  have hnamed : (if (exported item).name=[] then "(unnamed)".toList else (exported item).name)=item.name :=
    if_neg hname
  unfold encryptItem
  rw [hnamed]
  refine ((encryptField_yields h hf item.name).both (enc_yields h hf item.note)).bind fun r hr => ?_
  obtain ⟨encName,encNotes⟩ := r
  have hlogin : Yields pre post Fulfilled (Option.Rel (SealedLogin platform (issuedKey key))
      (transferContent item).login) (ofKind (exported item).type 1 (exported item).login fun login =>
        encryptLogin platform login key) := by
    rw [exported,ofKind_map]
    exact ofKind_seals fun login => encryptLogin_yields h hf login
  have hcard : Yields pre post Fulfilled (Option.Rel (SealedCard platform (issuedKey key))
      (transferContent item).card) (ofKind (exported item).type 3 (exported item).card
        (encryptCard fun value => enc platform value key)) := by
    rw [exported,ofKind_map]
    exact ofKind_seals fun card => encryptCard_yields (g:=id) (enc_yields h hf) (mapCard presentText card)
  refine hlogin.bind fun login hl => ?_
  refine hcard.bind fun card hc => ?_
  exact ⟨⟨hr.1,hr.2,hl,hc⟩,rfl,rfl⟩

end Items

/-- The server accepts every request: its reply has a success status. No
other promise is rejected. -/
def acceptingServer : Service WebCall Arrived where
  asks
    | .fetch _ _ _ _ _ => true
    | _ => false
  reply arrived := ∃ status statusText,arrived=.response status statusText ∧ 200≤ status ∧ status<300
  accepts := Fulfilled

/-- A tab holds the bytes that a key was issued with. -/
def Holds (s : WebState) : KeyRef → Prop
  | .live cell issued => s.keys.getD cell .zero=issued
  | .owned _ => True

/-- The heap cell of a key. -/
def cellOf : KeyRef → ℕ
  | .live cell _ => cell
  | .owned _ => 0

theorem heldAccess (key : KeyRef) : KeyAccess (KeyOnly (cellOf key)) key := by
  cases key with
  | live cell issued => exact sessionAccess cell issued
  | owned key => exact .owned (fun _ => trivial) key

theorem heldFaithful {s : WebState} {key : KeyRef} (h : Holds s key) :
    Faithful (keyPost (s.keys.getD (cellOf key) .zero)) key := by
  cases key with
  | live cell issued =>
    rw [show s.keys.getD (cellOf (.live cell issued)) .zero=issued from h]
    exact sessionFaithful cell issued
  | owned key => exact ⟨fun _ _ h => h,by simp,by simp⟩

/-- A script on a held key is served. -/
theorem held_serves {α : Type} {Q : α → Prop} {p : Web α} {s : WebState} {cell : ℕ}
    (h : Yields (KeyOnly cell) (keyPost (s.keys.getD cell .zero)) Fulfilled Q p) :
    Serves WebClient.exec acceptingServer (fun a s' => Q a ∧ KeepsTab s s') p false s := by
  refine Serves.of_yields (I:=KeepsTab s) (fun c s' hs hc => ?_) h ⟨rfl,rfl,rfl⟩
  have hkeeps := keyOnly_keeps s cell c s' hs hc
  cases c with
  | fetch client method path noAuth body => exact absurd hc id
  | _ => exact ⟨rfl,hkeeps⟩

/-- A request is sent once and accepted. -/
theorem request_serves (client : ℕ) (method path : Text) (body : Body) (noAuth : Bool) (s : WebState) :
    Serves WebClient.exec acceptingServer (fun _ s' => s'.keys=s.keys ∧
      s'.sent=s.sent++[s.outgoing client method path noAuth body])
      (request client method path body noAuth) false s := by
  show ∀ i : Arrival Arrived,_ → Serves _ _ _ _ _ _
  rintro i ⟨status,statusText,harrived,hsuccess⟩
  dsimp only [Script.bind]
  rw [harrived]
  dsimp only
  rw [if_pos hsuccess]
  split
  · exact ⟨rfl,rfl,rfl⟩
  · intro j hj
    dsimp only [Script.bind]
    split
    · rename_i hrejected
      exact absurd hrejected (hj _)
    · exact ⟨rfl,rfl,rfl⟩
    · exact ⟨rfl,rfl,rfl⟩

/-- A request creates the cipher of an item. -/
def Creates (platform : Platform) (key : SymKey) (item : VaultItem) (message : Sent) : Prop :=
  ∃ payload url authorization,Transfers platform key item payload ∧
    message=⟨"POST".toList,url++"/api/ciphers".toList,authorization,.cipher payload key⟩

/-- What the import has done after some items. -/
structure Imported (platform : Platform) (key : SymKey) (items : List VaultItem) (before : WebState)
    (start result : ImportResult) (after : WebState) : Prop where
  /-- Every item counts as imported. -/
  imported : result.imported=start.imported+items.length
  /-- None has failed. -/
  failed : result.failed=start.failed
  /-- There is one request for each item, in order. -/
  sent : ∃ more,after.sent=before.sent++more ∧ List.Forall₂ (Creates platform key) items more

/-- One item of the import. -/
theorem importItem_serves {s : WebState} {key : KeyRef} (hheld : Holds s key) {item : VaultItem}
    (hname : item.name≠[]) (client : ℕ) (result : ImportResult) :
    Serves WebClient.exec acceptingServer
      (fun r s' => s'.keys=s.keys ∧ Imported platform (issuedKey key) [item] s result r s')
      (tryCatch
        (do
          let payload ← encryptItem platform (exported item) key
          let _ ← createCipher client payload (issuedKey key)
          pure ⟨result.imported+1,result.failed,result.errors⟩)
        fun message => pure ⟨result.imported,result.failed+1,
          result.errors++["\"".toList++(exported item).name++"\": ".toList++message]⟩) false s := by
  refine Serves.rescue ?_
  refine (held_serves (encryptItem_yields (heldAccess key) (heldFaithful hheld) hname)).bind
    fun payload s₁ h₁ => ?_
  obtain ⟨htransfers,hkeeps⟩ := h₁
  refine (request_serves client "POST".toList "/api/ciphers".toList (.cipher payload (issuedKey key))
    false s₁).bind fun answer s₂ h₂ => ?_
  obtain ⟨hkeys,hsent⟩ := h₂
  rw [hkeeps.2.2] at hsent
  exact ⟨rfl,hkeys.trans hkeeps.1,rfl,rfl,_,hsent,.cons ⟨payload,_,_,htransfers,rfl⟩ .nil⟩

/-- The whole loop, from any index on. -/
theorem importItems_serves {key : KeyRef} (client : ℕ) {items : List VaultItem}
    (hnames : ∀ item∈items,item.name≠[]) (i : ℕ) (result : ImportResult) {s : WebState}
    (hheld : Holds s key) :
    Serves WebClient.exec acceptingServer (Imported platform (issuedKey key) items s result)
      (importItems platform client key i (items.map exported) result) false s := by
  induction items generalizing i result s with
  | nil => exact ⟨rfl,rfl,rfl,[],(List.append_nil _).symm,.nil⟩
  | cons item items ih =>
    have hname : item.name≠[] := hnames item List.mem_cons_self
    refine (importItem_serves hheld hname client result).bind fun r s₁ h₁ => ?_
    obtain ⟨hkeys,himported,hfailed,more,hsent,hcreates⟩ := h₁
    have hheld' : Holds s₁ key := by
      cases key with
      | live cell issued =>
        show s₁.keys.getD cell .zero=issued
        rw [hkeys]
        exact hheld
      | owned key => trivial
    have hrest (i : ℕ) : Serves WebClient.exec acceptingServer
        (Imported platform (issuedKey key) (item::items) s result)
        (importItems platform client key i (items.map exported) r) false s₁ := by
      refine (ih (fun item' hitem => hnames item' (List.mem_cons_of_mem item hitem)) i r hheld').mono
        fun r' s₂ h₂ => ?_
      obtain ⟨himported',hfailed',more',hsent',hcreates'⟩ := h₂
      refine ⟨?_,hfailed'.trans hfailed,more++more',?_,List.rel_append hcreates hcreates'⟩
      · simp only [himported',himported,List.length_cons,List.length_nil]
        omega
      · rw [hsent',hsent,List.append_assoc]
    split
    · exact fun _ _ => hrest (i+1)
    · exact hrest (i+1)

end Import

section Copies

/-- What an export keeps of an item. -/
structure SameContent (item copy : VaultItem) : Prop where
  /-- Item kind. -/
  type : copy.type=item.type
  /-- Name. -/
  name : copy.name=item.name
  /-- Favourite flag. -/
  favorite : copy.favorite=item.favorite
  /-- Notes. -/
  note : copy.note=item.note
  /-- Login fields with all addresses in order. -/
  login : copy.login=item.login
  /-- Card fields. -/
  card : copy.card=item.card

theorem present_getD (text : Text) : (presentText text).getD []=text := by
  cases text <;> rfl

theorem fields_loginContent {login : LoginFields} (h : []∉login.uris) :
    (loginContent login).fields id=login := by
  have huris : login.uris.filter (· ≠ [])=login.uris := by
    rw [List.filter_eq_self]
    intro uri huri
    exact decide_eq_true fun hempty => h (hempty ▸ huri)
  simp only [LoginContent.fields,loginContent,Option.map_id,List.map_id,id_eq,present_getD,huris]

theorem cardFields_present (card : CardFields Text) : cardFields id (mapCard presentText card)=card := by
  simp only [cardFields,mapCard,Option.map_id,id_eq,present_getD]

/-- Data that only one kind has comes back. -/
theorem transferKind_eq {α β : Type} {type : ItemType} (kind : ItemType) {data : Option α} {content : α → β}
    {fields : β → α} (hshape : data≠none → type=kind) (hfields : ∀ a∈data,fields (content a)=a) :
    (ifKind (TYPE_MAP type) (TYPE_MAP kind) ((ifKind (TYPE_MAP type) (TYPE_MAP kind) data).map content)).map
      fields=data := by
  have hself : ifKind (TYPE_MAP type) (TYPE_MAP kind) ((ifKind (TYPE_MAP type) (TYPE_MAP kind) data).map
      content)=(ifKind (TYPE_MAP type) (TYPE_MAP kind) data).map content := by
    rw [ifKind_map,ifKind_self]
  rw [hself]
  cases data with
  | none =>
    unfold ifKind
    split <;> rfl
  | some a =>
    rw [hshape (by simp),ifKind,if_pos rfl]
    exact congrArg some (hfields a rfl)

theorem CIPHER_TYPE_map (type : ItemType) : CIPHER_TYPE (TYPE_MAP type)=type := by
  cases type <;> rfl

/-- Notes come back: those of a secure note always, the others as they are
not empty. -/
theorem transferNote_eq {item : VaultItem} (h : Shaped item) :
    noteOf id (TYPE_MAP item.type) item.note=item.note := by
  by_cases htype : item.type=.note
  · obtain ⟨note,hnote⟩ := Option.ne_none_iff_exists'.mp (h.secureNote htype)
    rw [htype,hnote,TYPE_MAP,noteOf_secure]
    rfl
  · have hnumber : TYPE_MAP item.type≠2 := by
      rw [ne_eq,←CIPHER_TYPE_eq_note,CIPHER_TYPE_map]
      exact htype
    have hnote := h.note htype
    rw [noteOf_other id hnumber]
    match hkept : item.note with
    | none => rfl
    | some [] => exact absurd hkept hnote
    | some (c::note) => rfl

/-- The cipher of an exported item is read back with the same content. -/
theorem transfer_item {platform : Platform} {key : SymKey} {item : VaultItem} (h : Shaped item)
    {payload : CreateCipherRequest} (ht : Transfers platform key item payload)
    (id_ creationDate revisionDate : Text) :
    SameContent item ((transferContent item).item id id_ creationDate revisionDate payload) := by
  refine ⟨?_,rfl,ht.favorite,?_,?_,?_⟩
  · show CIPHER_TYPE payload.type=item.type
    rw [ht.type,CIPHER_TYPE_map]
  · show noteOf id payload.type item.note=item.note
    rw [ht.type]
    exact transferNote_eq h
  · show ((ifKind payload.type 1 (transferContent item).login).map (LoginContent.fields id))=item.login
    rw [ht.type]
    exact transferKind_eq .login h.login fun login hlogin => fields_loginContent (h.uris login hlogin)
  · show ((ifKind payload.type 3 (transferContent item).card).map (cardFields id))=item.card
    rw [ht.type]
    exact transferKind_eq .card h.card fun card _ => cardFields_present card

end Copies

/-- `decryptField` after `encryptField` is the identity on texts. -/
def FieldsReadBack (platform : Platform) : Prop :=
  ∀ (written read : WebRun) (value : Text) (key : SymKey),
    roundTrip platform .web .web written read value key=.ok (some value)

/-- A run of `importBitwardenJson` on a file, with a server that accepts every
cipher. -/
structure AcceptedImport (platform : Platform) (json : Text) where
  /-- The tab. -/
  state : WebState
  /-- Its API client. -/
  client : ℕ
  /-- The user key. -/
  key : KeyRef
  /-- The tab holds it. -/
  held : Holds state key
  /-- What arrives at the suspensions. -/
  arrivals : ℕ → Arrival Arrived
  /-- Every request is accepted and no other promise is rejected. -/
  served : Served WebClient.exec acceptingServer (importText platform json client key) false arrivals state

section Transfer

variable {platform : Platform} {json : Text}

/-- The answer of the import. -/
def AcceptedImport.result (run : AcceptedImport platform json) : Except Text ImportResult :=
  (play WebClient.exec (importText platform json run.client run.key) run.arrivals run.state).1

/-- The requests that the import has sent. -/
def AcceptedImport.sent (run : AcceptedImport platform json) : List Sent :=
  (play WebClient.exec (importText platform json run.client run.key) run.arrivals run.state).2.sent.drop
    run.state.sent.length

/-- A request creates one cipher, which `decryptCipher` reads back with the
content of an item, whatever identifier and dates the server gives it. -/
def CreatesCopy (platform : Platform) (key : SymKey) (item : VaultItem) (message : Sent) : Prop :=
  ∃ payload url authorization,
    message=⟨"POST".toList,url++"/api/ciphers".toList,authorization,.cipher payload key⟩ ∧
    ∀ (id creationDate revisionDate : Text) (read : WebRun),∃ copy,
      read.result (decryptCipher platform (stored id creationDate revisionDate payload) (.owned key))=
        .ok copy ∧ SameContent item copy

/-- The import of an export has reported and created everything. -/
structure Complete (items : List VaultItem) (run : AcceptedImport platform json) : Prop where
  /-- Every item is imported, none has failed. -/
  report : ∃ errors,run.result=.ok ⟨items.length,0,errors⟩
  /-- One cipher is created for each item, in order. -/
  ciphers : List.Forall₂ (CreatesCopy platform (issuedKey run.key)) items run.sent

theorem reread_id (h : FieldsReadBack platform) : reread platform=id := by
  funext text
  have hdecode := @FieldRoundTrip.roundTrip_decode platform .web .web idleTab idleTab text .zero
  have hback := hdecode.symm.trans (h idleTab idleTab text .zero)
  exact Option.some.inj (Except.ok.inj hback)

theorem Creates.copy (hfields : FieldsReadBack platform) {key : SymKey} {item : VaultItem}
    (hshape : Shaped item) {message : Sent} (h : Creates platform key item message) :
    CreatesCopy platform key item message := by
  obtain ⟨payload,url,authorization,htransfers,hmessage⟩ := h
  refine ⟨payload,url,authorization,hmessage,fun id creationDate revisionDate read => ?_⟩
  obtain ⟨copy,hresult,hcopy⟩ := read.yields (decryptCipher_yields (ownAccess key) (ownFaithful key)
    htransfers.sealed id creationDate revisionDate)
  rw [reread_id hfields] at hcopy
  exact ⟨copy,hresult,hcopy ▸ transfer_item hshape htransfers id creationDate revisionDate⟩

/-- Importing the JSON export of decrypted items with names reports every item
as imported and creates one cipher for each, in order, that is read back with
the same content. -/
theorem import_export_complete (hfields : FieldsReadBack platform) {items : List VaultItem}
    (hitems : ∀ item∈items,Produced platform item ∧ item.name≠[]) (folders : List Folder)
    (run : AcceptedImport platform (buildExportJson items folders)) : Complete items run := by
  have hserved := run.served
  rw [importText_export] at hserved
  have hloop := @importItems_serves platform run.key run.client items (fun item h => (hitems item h).2) 0
    ⟨0,0,[]⟩ run.state run.held
  obtain ⟨result,hresult,himported,hfailed,more,hsent,hcreates⟩ := hloop.play hserved
  rw [←importText_export platform items folders] at hresult hsent
  have hmore : run.sent=more := by
    rw [AcceptedImport.sent,hsent,List.drop_left]
  refine ⟨⟨result.errors,?_⟩,?_⟩
  · obtain ⟨imported,failed,errors⟩ := result
    dsimp only at himported hfailed
    rw [AcceptedImport.result,hresult,himported,hfailed,Nat.zero_add]
  · have hshaped : ∀ item∈items,Shaped item := fun item h => (hitems item h).1.shaped
    rw [hmore]
    exact ((List.forall₂_and_left _ _).mpr ⟨hshaped,hcreates⟩).imp fun item message h =>
      h.2.copy hfields h.1

end Transfer

/-- The transparent platform with a decoder that keeps a byte order mark. -/
def exactText : Platform := {transparent with textDecode := Utf8.decodeFrom none}

theorem exactText_readBack : FieldsReadBack exactText := by
  intro written read value key
  have hdecode := @FieldRoundTrip.roundTrip_decode exactText .web .web written read value key
  rw [hdecode,utf8]
  exact congrArg (fun text => Except.ok (some text)) (Utf8.decodeFrom_encode value)

/-- A login with two addresses. -/
def sampleContent : Content :=
  ⟨"shop".toList,some "notes".toList,some ⟨some "ann".toList,some "secret".toList,none,
    ["https://a.example".toList,"https://b.example".toList]⟩,none⟩

/-- The item that is decrypted from it. -/
def sampleItem : VaultItem :=
  sampleContent.item (reread exactText) [] [] [] (sealRequest exactText .zero 1 sampleContent)

/-- Every file can be imported with an accepting server. -/
theorem exists_acceptedImport (platform : Platform) (json : Text) (client : ℕ) {s : WebState} {key : KeyRef}
    (h : Holds s key) : Nonempty (AcceptedImport platform json) := by
  have hreply : ∃ input,acceptingServer.reply input := ⟨.response 200 [],200,[],rfl,by decide⟩
  have haccepts : ∃ input,acceptingServer.accepts input :=
    ⟨.settled,by simp [acceptingServer,Fulfilled]⟩
  obtain ⟨arrivals,hserved⟩ := @exists_served _ _ _ _ _ _ WebClient.exec acceptingServer hreply haccepts
    (importText platform json client key) false s
  exact ⟨⟨s,client,key,h,arrivals,hserved⟩⟩

/-- The export of one login is imported again. -/
theorem import_export_complete_sample :
    ∃ run : AcceptedImport exactText (buildExportJson [sampleItem] []),Complete [sampleItem] run := by
  have hname : sampleItem.name≠[] := by
    rw [sampleItem,reread_id exactText_readBack]
    decide
  have hitems : ∀ item∈[sampleItem],Produced exactText item ∧ item.name≠[] := by
    intro item hitem
    rw [List.mem_singleton.mp hitem]
    exact ⟨produced_of_content exactText 1 sampleContent,hname⟩
  obtain ⟨run⟩ := @exists_acceptedImport exactText (buildExportJson [sampleItem] []) 0 idleTab.state
    (.owned .zero) trivial
  exact ⟨run,import_export_complete exactText_readBack hitems [] run⟩

end NadSafe.VaultTransfer
