import NadSafe.FulfilledScript
import NadSafe.WebContracts

/-!
# Results of the web client's scripts

What the asynchronous functions of the web client return when no promise is
rejected and the key bytes they read are the ones their key was issued with.
The contracts are parametric in the allowed calls and the assumed answers, as
those of `WebContracts` are, and also exclude a rejection of the function.
-/

namespace NadSafe.WebResults

open HostText AsyncScript AsyncScript.Script WireFormat WebCrypto WebClient WebScripts
open WebContracts FulfilledScript SequentialScript

/-- An arrival that rejects no promise. -/
def Fulfilled (arrived : Arrived) : Prop := ∀ message,arrived≠.rejected message

/-- A text is an EncString of exactly this plaintext under this key. -/
def SealedAs (platform : Platform) (key : SymKey) (data : Bytes) (text : Text) : Prop :=
  ∃ iv,iv.length=16 ∧ text=serializeEncString (sealed platform key iv data)

variable {pre : WebCall → Prop} {post : ∀ c,WebCall.Answer c → Prop}

theorem settles_yields {α : Type} (value : α) :
    Yields pre post Fulfilled (· = value) (settles (some value)) := by
  refine Yields.suspend.bind fun arrived hfulfilled => ?_
  split
  · exact hfulfilled _ rfl
  · exact rfl

section Crypto

variable {platform : Platform} {key : KeyRef}

theorem readEncKey_yields (h : KeyAccess pre key) (hf : Faithful post key) :
    Yields pre post Fulfilled (· = (issuedKey key).encKey) (readEncKey key) := by
  cases key with
  | live cell issued =>
    exact ⟨h.encKey cell issued rfl,fun r hr => hf.encKey cell issued r rfl hr⟩
  | owned key => exact rfl

theorem readMacKey_yields (h : KeyAccess pre key) (hf : Faithful post key) :
    Yields pre post Fulfilled (· = (issuedKey key).macKey) (readMacKey key) := by
  cases key with
  | live cell issued =>
    exact ⟨h.macKey cell issued rfl,fun r hr => hf.macKey cell issued r rfl hr⟩
  | owned key => exact rfl

theorem computeMac_yields (h : KeyAccess pre key) (hf : Faithful post key) (iv ct : Bytes) :
    Yields pre post Fulfilled (· = platform.hmac (issuedKey key).macKey (iv++ct))
      (computeMac platform key iv ct) := by
  refine (readMacKey_yields h hf).bind fun macKey hm => ?_
  refine (settles_yields macKey).bind fun imported hi => ?_
  rw [hi,hm]
  exact settles_yields _

theorem encryptEncString_yields (h : KeyAccess pre key) (hf : Faithful post key) (data : Bytes) :
    Yields pre post Fulfilled
      (fun enc => ∃ iv,iv.length=16 ∧ enc=sealed platform (issuedKey key) iv data)
      (encryptEncString platform data key) := by
  refine (Yields.perform (h.random 16)).bind fun iv hiv => ?_
  refine (readEncKey_yields h hf).bind fun keyBytes hk => ?_
  refine (settles_yields keyBytes).bind fun encKey he => ?_
  refine (settles_yields _).bind fun ct hct => ?_
  refine (computeMac_yields h hf iv ct).bind fun mac hm => ?_
  rw [he,hk] at hct
  rw [hct] at hm ⊢
  exact ⟨iv,hf.random 16 iv hiv,by rw [hm]; rfl⟩

/-- A decryption returns what its EncString opens to. -/
theorem decryptEncString_yields (h : KeyAccess pre key) (hf : Faithful post key)
    {enc : EncStringParsed} {data : Bytes} (hopen : openSealed platform (issuedKey key) enc=.ok data) :
    Yields pre post Fulfilled (· = data) (decryptEncString platform enc key) := by
  refine (computeMac_yields h hf enc.iv enc.ct).bind fun mac hm => ?_
  unfold openSealed at hopen
  rw [hm]
  split at hopen
  · rename_i hmac
    rw [if_pos hmac]
    refine (readEncKey_yields h hf).bind fun keyBytes hk => ?_
    refine (settles_yields keyBytes).bind fun encKey he => ?_
    rw [he,hk]
    split at hopen
    · rename_i plain hplain
      cases hopen
      rw [hplain]
      exact settles_yields data
    · cases hopen
  · cases hopen

/-- Sealed texts of a key open to their plaintext. -/
theorem SealedAs.parse {key : SymKey} {data : Bytes} {text : Text}
    (h : SealedAs platform key data text) :
    ∃ parsed,parseEncString text=.ok parsed ∧ openSealed platform key parsed=.ok data := by
  obtain ⟨iv,hiv,rfl⟩ := h
  exact ⟨_,parseEncString_serialize hiv (platform.hmac_length _ _),openSealed_sealed platform key iv data⟩

/-- A sealed text is never empty. -/
theorem SealedAs.ne_nil {key : SymKey} {data : Bytes} {text : Text}
    (h : SealedAs platform key data text) : text≠[] := by
  obtain ⟨iv,-,rfl⟩ := h
  rw [serializeEncString_eq,wire]
  simp

theorem encryptField_yields (h : KeyAccess pre key) (hf : Faithful post key) (value : Text) :
    Yields pre post Fulfilled (SealedAs platform (issuedKey key) (utf8 value))
      (encryptField platform value key) := by
  refine (encryptEncString_yields h hf (utf8 value)).bind fun enc he => ?_
  obtain ⟨iv,hiv,rfl⟩ := he
  exact ⟨iv,hiv,rfl⟩

theorem decryptField_yields (h : KeyAccess pre key) (hf : Faithful post key) {text : Text}
    {data : Bytes} (hs : SealedAs platform (issuedKey key) data text) :
    Yields pre post Fulfilled (· = some (platform.textDecode data))
      (decryptField platform (some text) key) := by
  obtain ⟨parsed,hparse,hopen⟩ := hs.parse
  unfold decryptField
  split
  · rename_i hnone
    cases hnone
  · rename_i hempty
    exact absurd (Option.some.inj hempty) hs.ne_nil
  · rename_i text' htext
    cases htext
    rw [hparse]
    refine (decryptEncString_yields h hf hopen).bind fun bytes hb => ?_
    rw [hb]
    exact rfl

/-- A text that is sealed unless it is empty. -/
def SealedUnlessEmpty (platform : Platform) (key : SymKey) (value : Text) (sealedText : Option Text) :
    Prop :=
  (value=[] ∧ sealedText=none) ∨
    (value≠[] ∧ ∃ text,sealedText=some text ∧ SealedAs platform key (utf8 value) text)

theorem encNonempty_yields (h : KeyAccess pre key) (hf : Faithful post key) (value : Text) :
    Yields pre post Fulfilled (SealedUnlessEmpty platform (issuedKey key) value)
      (WebOperations.encNonempty platform value key) := by
  unfold WebOperations.encNonempty
  split
  · rename_i hempty
    exact .inl ⟨hempty,rfl⟩
  · rename_i hvalue
    refine (encryptField_yields h hf value).bind fun text htext => ?_
    exact .inr ⟨hvalue,text,rfl,htext⟩

end Crypto

section Session

theorem random_length (s : WebState) (n : ℕ) : (s.random n).length=n := by
  simp [WebState.random]

/-- The keys and the requests of a tab are as before. -/
def KeepsTab (s s' : WebState) : Prop := s'.keys=s.keys ∧ s'.client=s.client ∧ s'.sent=s.sent

/-- Calls that read one session key and draw random bytes. -/
def KeyOnly (cell : ℕ) : WebCall → Prop
  | .randomBytes _ => True
  | .encKey c => c=cell
  | .macKey c => c=cell
  | _ => False

/-- Their answers in a tab with this key. -/
def keyPost (key : SymKey) : ∀ c : WebCall,c.Answer → Prop
  | .randomBytes n,r => r.length=n
  | .encKey _,r => r=key.encKey
  | .macKey _,r => r=key.macKey
  | _,_ => True

theorem keyOnly_keeps (s : WebState) (cell : ℕ) (c : WebCall) (s' : WebState) (hs : KeepsTab s s')
    (hc : KeyOnly cell c) :
    keyPost (s.keys.getD cell .zero) c (WebClient.exec c s').1 ∧ KeepsTab s (WebClient.exec c s').2 := by
  cases c with
  | randomBytes n => exact ⟨random_length s' n,hs⟩
  | encKey c =>
    cases hc
    exact ⟨by rw [←hs.1]; rfl,hs⟩
  | macKey c =>
    cases hc
    exact ⟨by rw [←hs.1]; rfl,hs⟩
  | _ => exact absurd hc id

/-- A session key may be read and random bytes be drawn. -/
theorem sessionAccess (cell : ℕ) (key : SymKey) : KeyAccess (KeyOnly cell) (.live cell key) :=
  ⟨fun _ => trivial,by simp [KeyOnly],by simp [KeyOnly]⟩

/-- The answers are the bytes of the session key. -/
theorem sessionFaithful (cell : ℕ) (key : SymKey) : Faithful (keyPost key) (.live cell key) := by
  refine ⟨fun _ _ h => h,?_,?_⟩
  · rintro c issued r ⟨⟩ h
    exact h
  · rintro c issued r ⟨⟩ h
    exact h

/-- A script on the session key ensures its result and keeps the tab. -/
theorem session_ensures {α : Type} {Q : α → Prop} {p : Web α} {s : WebState} {cell : ℕ}
    (h : Yields (KeyOnly cell) (keyPost (s.keys.getD cell .zero)) Fulfilled Q p) :
    Ensures WebClient.exec (fun i => Fulfilled i.value) (fun a s' => Q a ∧ KeepsTab s s')
      (fun _ => False) p s :=
  h.ensures (keyOnly_keeps s cell) ⟨rfl,rfl,rfl⟩

/-- A request is sent once, whatever is answered. -/
theorem request_sends {ok : Arrival Arrived → Prop} (client : ℕ) (method path : Text) (body : Body)
    (noAuth : Bool) (s : WebState) :
    Ensures WebClient.exec ok
      (fun _ s' => s'.sent=s.sent++[s.outgoing client method path noAuth body])
      (fun s' => s'.sent=s.sent++[s.outgoing client method path noAuth body])
      (request client method path body noAuth) s := by
  refine Ensures.perform rfl fun i _ => ?_
  dsimp only [Script.bind]
  split
  · exact rfl
  · split
    · split
      · exact rfl
      · intro j _
        dsimp only [Script.bind]
        split <;> exact rfl
    · intro j _
      exact rfl
  · exact rfl

end Session

section Runs

/-- Circumstances of one call in a web tab: any state, and arrivals of which
none rejects a promise. -/
structure WebRun where
  /-- The tab at the call. -/
  state : WebState
  /-- What arrives at its suspensions. -/
  arrivals : ℕ → Arrival Arrived
  /-- No promise is rejected. -/
  fulfilled : ∀ n,Fulfilled (arrivals n).value

/-- The result of a script of the web client. -/
def WebRun.result {α : Type} (run : WebRun) (p : Web α) : Except Text α :=
  (play WebClient.exec p run.arrivals run.state).1

/-- Answers to which a call of the web client is bound in every state. -/
def randomPost : ∀ c : WebCall,c.Answer → Prop
  | .randomBytes n,r => r.length=n
  | _,_ => True

/-- The only calls of the web client's crypto on a key of its own. -/
def RandomOnly : WebCall → Prop
  | .randomBytes _ => True
  | _ => False

/-- A script that only draws random bytes has its yielded result in every
run. -/
theorem WebRun.yields {α : Type} (run : WebRun) {Q : α → Prop} {p : Web α}
    (h : Yields RandomOnly randomPost Fulfilled Q p) : ∃ a,run.result p=.ok a ∧ Q a := by
  have hcall : ∀ (c : WebCall) (s : WebState),True → RandomOnly c →
      randomPost c (exec c s).1 ∧ True := by
    intro c s _ hc
    cases c with
    | randomBytes n => exact ⟨random_length s n,trivial⟩
    | _ => exact absurd hc id
  obtain ⟨a,hresult,hQ⟩ := (h.ensures hcall trivial).play run.fulfilled
  exact ⟨a,hresult,hQ.1⟩

/-- A key of its own is read without calls. -/
theorem ownAccess (key : SymKey) : KeyAccess RandomOnly (.owned key) :=
  .owned (fun _ => trivial) key

/-- And always holds the bytes it was issued with. -/
theorem ownFaithful (key : SymKey) : Faithful randomPost (.owned key) :=
  ⟨fun _ _ h => h,by simp,by simp⟩

/-- Settled promises are fulfilled. -/
theorem settled_fulfilled : Fulfilled Arrived.settled := fun _ => by simp

/-- A call in an empty tab. -/
def idleTab : WebRun where
  state := .loaded .initial ⟨none,none,none⟩ [] fun n => UInt8.ofNat n
  arrivals _ := ⟨[],.settled⟩
  fulfilled _ := settled_fulfilled

end Runs

end NadSafe.WebResults
