import NadSafe.SealedCiphers

/-!
# Items that `decryptCipher` produces

Whatever the cipher and the key, the items that the web client decrypts
share a form: only logins have login fields and only cards have card fields,
no address is empty, and notes are either a text or missing, except those of
a secure note.
-/

namespace NadSafe.DecryptedItems

open HostText AsyncScript WireFormat WebCrypto WebClient WebScripts WebContracts WebResults
open SequentialScript SealedCiphers

/-- The form of a decrypted item. -/
structure Shaped (item : VaultItem) : Prop where
  /-- Only a login has login fields. -/
  login : item.login≠none → item.type=.login
  /-- Only a card has card fields. -/
  card : item.card≠none → item.type=.card
  /-- A secure note has a text. -/
  secureNote : item.type=.note → item.note≠none
  /-- Other notes are not empty. -/
  note : item.type≠.note → item.note≠some []
  /-- Addresses are not empty. -/
  uris : ∀ login∈item.login,[]∉login.uris

/-- Some run of `decryptCipher` returns this item. -/
def Produced (platform : Platform) (item : VaultItem) : Prop :=
  ∃ (cipher : CipherResponse) (key : KeyRef) (arrivals : ℕ → Arrival Arrived) (s : WebState),
    (play WebClient.exec (decryptCipher platform cipher key) arrivals s).1=.ok item

/-- Only the number of secure notes is read as their kind. -/
theorem CIPHER_TYPE_eq_note {type : ℕ} : CIPHER_TYPE type=.note ↔ type=2 := by
  constructor
  · intro h
    unfold CIPHER_TYPE at h
    split at h
    case h_2 => rfl
    all_goals cases h
  · rintro rfl
    rfl

section Contracts

variable {platform : Platform} {pre : WebCall → Prop} {post : ∀ c,WebCall.Answer c → Prop} {key : KeyRef}

theorem decryptLogin_uris (h : KeyAccess pre key) (login : LoginDataResponse) :
    (decryptLogin platform login key).Obeys pre post fun fields => []∉fields.uris := by
  have hfield (text : Option Text) : (decryptField platform text key).Obeys pre post fun _ => True :=
    decryptField_obeys h text
  refine ((hfield _).both ((hfield _).both (hfield _))).bind fun r _ => ?_
  refine (Script.Obeys.all (Q:=fun _ => True) fun p hp => ?_).bind fun uris _ => ?_
  · obtain ⟨u,-,rfl⟩ := List.mem_map.mp hp
    exact hfield _
  · simp

theorem decryptNotes_nonempty (h : KeyAccess pre key) (notes : Option Text) :
    (decryptNotes platform notes key).Obeys pre post fun note => note≠some [] := by
  refine (decryptField_obeys h _).bind fun content _ => ?_
  split
  · simp
  · rename_i hcontent
    exact hcontent

/-- A branch is taken for its own kind only. -/
theorem ofKind_kind {α β : Type} {Q : β → Prop} {f : α → Web β} {type kind : ℕ} {data : Option α}
    (hf : ∀ value,(f value).Obeys pre post Q) :
    (ofKind type kind data f).Obeys pre post fun r => ∀ b∈r,type=kind ∧ Q b := by
  unfold ofKind
  split
  · split
    · rename_i hkind
      refine (hf _).bind fun fields hfields => ?_
      rintro b ⟨⟩
      exact ⟨hkind,hfields⟩
    · simp
  · simp

theorem decryptCipher_shaped (h : KeyAccess pre key) (cipher : CipherResponse) :
    (decryptCipher platform cipher key).Obeys pre post Shaped := by
  refine (decryptField_obeys h _).bind fun name _ => ?_
  refine (decryptNotes_nonempty h _).bind fun note hnote => ?_
  refine (ofKind_kind fun login => decryptLogin_uris h login).bind fun login hlogin => ?_
  refine (ofKind_kind fun card => decryptCard_obeys h card).bind fun card hcard => ?_
  refine ⟨fun hsome => ?_,fun hsome => ?_,fun htype hnone => ?_,fun htype hempty => ?_,
    fun fields hfields => (hlogin fields hfields).2⟩
  · obtain ⟨fields,hfields⟩ := Option.ne_none_iff_exists'.mp hsome
    exact congrArg CIPHER_TYPE (hlogin fields hfields).1
  · obtain ⟨fields,hfields⟩ := Option.ne_none_iff_exists'.mp hsome
    exact congrArg CIPHER_TYPE (hcard fields hfields).1
  · have hkind := (CIPHER_TYPE_eq_note).mp htype
    dsimp only at hnone
    split at hnone
    · cases hnone
    · rename_i hkept
      exact hkept ⟨hkind,hnone⟩
  · dsimp only at hempty
    split at hempty
    · rename_i hkind
      exact htype ((CIPHER_TYPE_eq_note).mpr hkind.1)
    · exact hnote hempty

end Contracts

/-- Every item that `decryptCipher` produces has the form. -/
theorem Produced.shaped {platform : Platform} {item : VaultItem} (h : Produced platform item) :
    Shaped item := by
  obtain ⟨cipher,key,arrivals,s,hitem⟩ := h
  have haccess : KeyAccess (fun _ => True) key := ⟨fun _ => trivial,fun _ _ _ => trivial,fun _ _ _ => trivial⟩
  have hshaped : (decryptCipher platform cipher key).Obeys (fun _ => True) (fun _ _ => True) Shaped :=
    decryptCipher_shaped haccess cipher
  have hensures : Ensures WebClient.exec (fun _ => True) (fun item _ => Shaped item ∧ True)
      (fun _ => True) (decryptCipher platform cipher key) s :=
    Ensures.of_obeys (I:=fun _ => True) (fun _ _ _ _ => ⟨trivial,trivial⟩) hshaped trivial
  exact (hensures.result (fun _ => trivial) hitem).1

/-- Every content is that of a produced item. -/
theorem produced_of_content (platform : Platform) (type : ℕ) (content : Content) :
    Produced platform (content.item (reread platform) [] [] [] (sealRequest platform .zero type content)) := by
  have hread := decryptCipher_yields (ownAccess .zero) (ownFaithful .zero)
    (@sealRequest_sealed platform .zero type content) [] [] []
  obtain ⟨_,hresult,rfl⟩ := idleTab.yields hread
  rw [WebRun.result] at hresult
  exact ⟨_,_,_,_,hresult⟩

end NadSafe.DecryptedItems
