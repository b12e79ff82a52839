import NadSafe.ExtensionContracts
import NadSafe.Utf8
import NadSafe.WebResults

/-!
# Field encryption across both clients

A text encrypted by `encryptField` of the web client or the extension and
decrypted by `decryptField` of either. The text passes through UTF-8, the
cipher, base64 and the wire format, all of which invert each other; the
decoder with default options then drops a byte order mark in front.
-/

namespace NadSafe.FieldRoundTrip

open HostText AsyncScript WireFormat WebCrypto WebClient WebContracts WebResults
open FulfilledScript SequentialScript
open ExtensionWorker (WorkerState WorkerCall Settled Worker)

section Extension

variable {platform : Platform} {pre : WorkerCall → Prop} {post : ∀ c,WorkerCall.Answer c → Prop}

/-- An arrival that rejects no promise of the extension's crypto. -/
def Answered (settled : Settled) : Prop := ∀ error,settled≠.rejected error

theorem workerSettles_yields {α : Type} (value : α) :
    Yields pre post Answered (· = value) (ExtensionHandlers.settles (some value)) := by
  refine Yields.suspend.bind fun settled hanswered => ?_
  split
  · exact hanswered _ rfl
  · exact rfl

theorem workerComputeMac_yields (macKey iv ct : Bytes) :
    Yields pre post Answered (· = platform.hmac macKey (iv++ct))
      (ExtensionHandlers.computeMac platform macKey iv ct) := by
  refine (workerSettles_yields macKey).bind fun key hk => ?_
  rw [hk]
  exact workerSettles_yields _

/-- The extension writes the web client's wire text. -/
theorem workerEncryptField_yields (hpre : pre (.randomBytes 16))
    (hpost : ∀ r,post (.randomBytes 16) r → r.length=16) (value : Text) (key : SymKey) :
    Yields pre post Answered (SealedAs platform key (utf8 value))
      (ExtensionHandlers.encryptField platform value key) := by
  have henc : Yields pre post Answered (fun enc => ∃ iv,iv.length=16 ∧
      enc=sealed platform key iv (utf8 value))
      (ExtensionHandlers.encryptEncString platform value key) := by
    refine (Yields.perform hpre).bind fun iv hiv => ?_
    refine (workerSettles_yields key.encKey).bind fun encKey he => ?_
    refine (workerSettles_yields _).bind fun ct hct => ?_
    refine (workerComputeMac_yields key.macKey iv ct).bind fun mac hm => ?_
    rw [he] at hct
    rw [hct] at hm ⊢
    exact ⟨iv,hpost iv hiv,by rw [hm]; rfl⟩
  refine henc.bind fun enc he => ?_
  obtain ⟨iv,hiv,rfl⟩ := he
  refine ⟨iv,hiv,?_⟩
  rw [serializeEncString_eq,wire]
  simp [toB64_eq]

/-- The extension's copy of the decryption opens what the web client's does. -/
theorem workerDecryptField_yields {key : SymKey} {text : Text} {data : Bytes}
    (hs : SealedAs platform key data text) :
    Yields pre post Answered (· = some (platform.textDecode data))
      (ExtensionHandlers.decryptField platform (some text) key) := by
  obtain ⟨iv,hiv,rfl⟩ := id hs
  have hparse : extensionParseEncString (serializeEncString (sealed platform key iv data))=
      .ok (sealed platform key iv data) := parseEncString_serialize hiv (platform.hmac_length _ _)
  have hplain := platform.aesCbc_open key.encKey iv data
  have hopen : Yields pre post Answered (· = data)
      (ExtensionHandlers.decryptEncString platform (sealed platform key iv data) key) := by
    refine (workerComputeMac_yields _ _ _).bind fun mac hm => ?_
    have hmac : mac=(sealed platform key iv data).mac := hm
    rw [if_pos (constantTimeEqual_iff.mpr hmac)]
    refine (workerSettles_yields key.encKey).bind fun encKey he => ?_
    rw [he,sealed,hplain]
    exact workerSettles_yields data
  unfold ExtensionHandlers.decryptField
  split
  · rename_i hnone
    cases hnone
  · rename_i hempty
    exact absurd (Option.some.inj hempty) hs.ne_nil
  · rename_i text' htext
    cases htext
    rw [hparse]
    refine hopen.bind fun bytes hb => ?_
    rw [hb]
    exact rfl

end Extension

/-- The two clients. -/
inductive Client where
  /-- The web client. -/
  | web
  /-- The extension. -/
  | extension
  deriving DecidableEq

/-- Circumstances of one call in the extension. -/
structure WorkerRun where
  /-- The worker at the call. -/
  state : WorkerState
  /-- What arrives at its suspensions. -/
  arrivals : ℕ → Arrival Settled
  /-- No promise is rejected. -/
  answered : ∀ n,Answered (arrivals n).value

/-- The result of a script of the extension. -/
def WorkerRun.result {α : Type} (run : WorkerRun) (p : Worker α) : Except Text α :=
  (play ExtensionWorker.exec p run.arrivals run.state).1

/-- The only calls of the extension's crypto. -/
def WorkerRandomOnly : WorkerCall → Prop
  | .randomBytes _ => True
  | _ => False

/-- Answers to which a call of the extension is bound in every state. -/
def workerRandomPost : ∀ c : WorkerCall,c.Answer → Prop
  | .randomBytes n,r => r.length=n
  | _,_ => True

theorem WorkerRun.yields {α : Type} (run : WorkerRun) {Q : α → Prop} {p : Worker α}
    (h : Yields WorkerRandomOnly workerRandomPost Answered Q p) : ∃ a,run.result p=.ok a ∧ Q a := by
  have hcall : ∀ (c : WorkerCall) (s : WorkerState),True → WorkerRandomOnly c →
      workerRandomPost c (ExtensionWorker.exec c s).1 ∧ True := by
    intro c s _ hc
    cases c with
    | randomBytes n => exact ⟨by simp [workerRandomPost,ExtensionWorker.exec,WorkerState.random],trivial⟩
    | _ => exact absurd hc id
  obtain ⟨a,hresult,hQ⟩ := (h.ensures hcall trivial).play run.answered
  exact ⟨a,hresult,hQ.1⟩

/-- Circumstances of one call in a client. -/
def Client.Run : Client → Type
  | .web => WebRun
  | .extension => WorkerRun

section Clients

variable (platform : Platform)

/-- `encryptField` of a client. -/
def Client.encryptField : ∀ client : Client,client.Run → Text → SymKey → Except Text Text
  | .web,run,value,key => WebRun.result run (WebScripts.encryptField platform value (.owned key))
  | .extension,run,value,key =>
    WorkerRun.result run (ExtensionHandlers.encryptField platform value key)

/-- `decryptField` of a client. -/
def Client.decryptField : ∀ client : Client,client.Run → Option Text → SymKey →
    Except Text (Option Text)
  | .web,run,text,key => WebRun.result run (WebScripts.decryptField platform text (.owned key))
  | .extension,run,text,key =>
    WorkerRun.result run (ExtensionHandlers.decryptField platform text key)

theorem Client.encryptField_eq (client : Client) (run : client.Run) (value : Text) (key : SymKey) :
    ∃ text,client.encryptField platform run value key=.ok text ∧
      SealedAs platform key (utf8 value) text := by
  cases client with
  | web =>
    exact WebRun.yields run (encryptField_yields (ownAccess key) (ownFaithful key) value)
  | extension =>
    exact WorkerRun.yields run (workerEncryptField_yields trivial (fun _ h => h) value key)

theorem Client.decryptField_eq (client : Client) (run : client.Run) {key : SymKey} {data : Bytes}
    {text : Text} (hs : SealedAs platform key data text) :
    client.decryptField platform run (some text) key=.ok (some (platform.textDecode data)) := by
  cases client with
  | web =>
    obtain ⟨value,hvalue,rfl⟩ :=
      WebRun.yields run (decryptField_yields (ownAccess key) (ownFaithful key) hs)
    exact hvalue
  | extension =>
    obtain ⟨value,hvalue,rfl⟩ := WorkerRun.yields run (workerDecryptField_yields hs)
    exact hvalue

end Clients

/-- The platform decodes text as the WHATWG standard does by default. -/
def StandardText (platform : Platform) : Prop := platform.textDecode=Utf8.textDecode

/-- A field of one client, read by another. -/
def roundTrip (platform : Platform) (writer reader : Client) (written : writer.Run)
    (read : reader.Run) (value : Text) (key : SymKey) : Except Text (Option Text) := do
  let text ← writer.encryptField platform written value key
  reader.decryptField platform read (some text) key

/-- A field comes back as its bytes decode. -/
theorem roundTrip_decode {platform : Platform} (writer reader : Client) (written : writer.Run)
    (read : reader.Run) (value : Text) (key : SymKey) :
    roundTrip platform writer reader written read value key=
      .ok (some (platform.textDecode (utf8 value))) := by
  obtain ⟨text,hwritten,hsealed⟩ := writer.encryptField_eq platform written value key
  rw [roundTrip,hwritten]
  exact reader.decryptField_eq platform read hsealed

/-- A field comes back without a byte order mark in front. -/
theorem roundTrip_eq {platform : Platform} (hstandard : StandardText platform)
    (writer reader : Client) (written : writer.Run) (read : reader.Run) (value : Text) (key : SymKey) :
    roundTrip platform writer reader written read value key=.ok (some (Utf8.dropMark value)) := by
  rw [roundTrip_decode,hstandard,utf8,Utf8.textDecode_encode]

/-- A field survives encryption by either client and decryption by either,
in every run without a rejected promise, exactly when its text does not
start with a byte order mark. -/
theorem field_lossless_iff {platform : Platform} (hstandard : StandardText platform)
    (writer reader : Client) (written : writer.Run) (read : reader.Run) (value : Text) (key : SymKey) :
    roundTrip platform writer reader written read value key=.ok (some value) ↔
      value.head?≠some Utf8.byteOrderMark := by
  rw [roundTrip_eq hstandard,Except.ok.injEq,Option.some.injEq]
  exact Utf8.dropMark_eq_self_iff value

/-- The transparent platform with the standard decoder. -/
def standard : Platform := {transparent with textDecode := Utf8.textDecode}

theorem standard_text : StandardText standard := rfl

/-- A call in an empty worker. -/
def idleWorker : WorkerRun where
  state := .started none ⟨none,none,none⟩ fun n => UInt8.ofNat n
  arrivals _ := ⟨[],.fulfilled⟩
  answered _ _ := by simp

/-- A password with a byte order mark in front is stored without it. -/
theorem byteOrderMark_lost : ¬∀ platform : Platform,StandardText platform →
    ∀ (writer reader : Client) (written : writer.Run) (read : reader.Run) (value : Text) (key : SymKey),
      roundTrip platform writer reader written read value key=.ok (some value) := by
  intro hlossless
  have hfield := hlossless standard standard_text .web .web idleTab idleTab [Utf8.byteOrderMark] .zero
  have hread := roundTrip_eq standard_text .web .web idleTab idleTab [Utf8.byteOrderMark] .zero
  exact absurd (hread.symm.trans hfield) (by decide)

/-- A text written by the web client and read by the extension. -/
theorem field_lossless_sample :
    "pä€𝄞".toList.head?≠some Utf8.byteOrderMark ∧
      roundTrip standard .web .extension idleTab idleWorker "pä€𝄞".toList .zero=
        .ok (some "pä€𝄞".toList) :=
  ⟨by decide,(field_lossless_iff standard_text .web .extension idleTab idleWorker _ .zero).mpr (by decide)⟩

end NadSafe.FieldRoundTrip
