import NadSafe.ExtensionContracts

/-!
# The stored snapshot belongs to the stored PIN

The data-encryption key lies in three places: in the session, wrapped in the
PIN entry, and implicitly in the snapshot. Handlers update them in separate
storage operations. This module follows every interleaving of these writes.
The places agree as long as a PIN entry with a new key is written beside no
handler that still uses an older one, and as long as a key enters the session
only while the stored entry wraps it or no entry is stored.
-/

namespace NadSafe.ExtensionPairing

open HostText AsyncScript AsyncScript.Script ScriptPool WireFormat WebCrypto
open WebClient (PinBlob)
open WebOperations (pinKey)
open ExtensionWorker ExtensionHandlers ExtensionContracts

variable {platform : Platform} {host : Host}

/-- The data-encryption key that an entry yields under a PIN. -/
def unwrapDek (platform : Platform) (pin : Text) (entry : PinBlob) : Option Bytes :=
  platform.aesGcmDecrypt (pinKey platform pin entry.salt entry.iterations) entry.iv entry.wrapped

/-- The key that the stored entry yields under the PIN it was set with. -/
def wrappedDek (platform : Platform) (s : WorkerState) : Option Bytes :=
  match s.device.pin,s.setWith with
  | some entry,some pin => unwrapDek platform pin entry
  | _,_ => none

/-- The three places agree. -/
structure Paired (platform : Platform) (s : WorkerState) : Prop where
  /-- A stored entry yields a key. -/
  entry : s.device.pin≠none → ∃ dek,wrappedDek platform s=some dek
  /-- A stored snapshot is encrypted under it. -/
  blob : ∀ dek vaultBlob,wrappedDek platform s=some dek → s.device.vaultBlob=some vaultBlob →
    Under platform dek vaultBlob
  /-- The session holds no other key. -/
  session : ∀ dek held,wrappedDek platform s=some dek → s.session.dek=some held → held=dek

/-- A write of `SET_PIN`: a new entry and a snapshot under the key it wraps. -/
def WritesPin (platform : Platform) (fields : List LocalField) : Prop :=
  ∃ pin salt wrap vaultBlob dek,fields=pinFields pin salt wrap vaultBlob ∧
    Encloses platform (pinKey platform pin salt PIN_ITERATIONS) wrap dek ∧ Under platform dek vaultBlob

/-- A write of the snapshot alone. -/
def WritesBlob (fields : List LocalField) : Prop := ∃ vaultBlob,fields=[.vaultBlob vaultBlob]

/-- A write of the counter alone. -/
def WritesAttempts (fields : List LocalField) : Prop := ∃ used,fields=[.pinAttempts used]

/-- The local writes of `SET_PIN`. -/
def PinOnly (platform : Platform) : WorkerCall → Prop
  | .localSet fields => WritesPin platform fields
  | _ => True

/-- The local writes of all other handlers. -/
def NoPin : WorkerCall → Prop
  | .localSet fields => WritesBlob fields ∨ WritesAttempts fields
  | _ => True

/-- A snapshot alone is written only under this key. -/
def KeepsDek (platform : Platform) (dek : Bytes) : WorkerCall → Prop
  | .localSet fields => ∀ vaultBlob,fields=[.vaultBlob vaultBlob] → Under platform dek vaultBlob
  | _ => True

/-- The session shows no other key. -/
def SeesDek (dek : Bytes) : ∀ c,WorkerCall.Answer c → Prop
  | .sessionGet _,session => ∀ held,session.dek=some held → held=dek
  | _,_ => True

/-- A text that writes snapshots under this key only, as long as it reads no
other key from the session. -/
abbrev Faithful (platform : Platform) (dek : Bytes) (p : Worker Reply) : Prop :=
  p.Obeys (KeepsDek platform dek) (SeesDek dek) fun _ => True

/-- The threads beside the one that moves. -/
abbrev Others := List (Thread WorkerCall WorkerCall.Answer Settled Text Reply WorkerOp)

/-- The conditions: an entry that wraps `dek` is written only while the session
holds no other key and no other handler has a snapshot under another key
ahead; and a key enters the session only while the stored entry wraps it or no
entry is stored. -/
def DekLands (platform : Platform) (others : Others) : WorkerCall → WorkerState → Prop
  | .localSet fields,s => ∀ entry pin dek,.pin entry pin∈fields → unwrapDek platform pin entry=some dek →
    (∀ held,s.session.dek=some held → held=dek) ∧ ∀ u∈others,Faithful platform dek u.rest
  | .sessionSet fields,s => ∀ dek stored,.dek (some dek)∈fields → wrappedDek platform s=some stored →
    dek=stored
  | _,_ => True

section Texts

/-- Every handler is faithful to every key. -/
theorem body_faithful (dek : Bytes) (op : WorkerOp) : Faithful platform dek (body platform host op) := by
  refine body_obeys ?_ (fun _ _ => ?_) (fun _ _ => ?_) fun _ => trivial
  · exact {
      random _ := trivial
      send _ := trivial
      get _ := trivial
      opening _ _ := trivial
      items _ _ _ _ _ _ := trivial
      blob := by
        intro keys session held vaultBlob hs _ hheld hunder other he
        cases he
        rw [←hs held hheld]
        exact hunder
      remove := trivial
      removeDek := trivial }
  · exact {
      random _ := trivial
      get _ := trivial
      pin := by
        intro pin salt wrap vaultBlob dek _ _ other he
        simp [pinFields] at he
      dek _ _ _ _ _ _ := trivial }
  · exact {
      read := trivial
      test _ _ _ _ := trivial
      opening _ _ := trivial
      unlocked := trivial
      attempts := by
        intro used other he
        simp at he
      remove := trivial }

/-- `SET_PIN` writes an entry and its snapshot together. -/
theorem setPin_pinOnly (pin : Text) :
    (body platform host (.setPin pin)).Obeys (PinOnly platform) (fun _ _ => True) fun _ => True := by
  refine Obeys.rescue (handleSetPin_obeys ?_ pin) fun _ => trivial
  exact {
    random _ := trivial
    get _ := trivial
    pin pin salt wrap vaultBlob dek hwrap hblob := ⟨pin,salt,wrap,vaultBlob,dek,rfl,hwrap,hblob⟩
    dek _ _ _ _ _ _ := trivial }

/-- No other handler writes an entry. -/
theorem body_noPin {op : WorkerOp} (hop : ∀ pin,op≠.setPin pin) :
    (body platform host op).Obeys NoPin (fun _ _ => True) fun _ => True := by
  refine body_obeys ?_ (fun pin h => absurd h (hop pin)) (fun _ _ => ?_) fun _ => trivial
  · exact {
      random _ := trivial
      send _ := trivial
      get _ := trivial
      opening _ _ := trivial
      items _ _ _ _ _ _ := trivial
      blob _ _ _ vaultBlob _ _ _ _ := .inl ⟨vaultBlob,rfl⟩
      remove := trivial
      removeDek := trivial }
  · exact {
      read := trivial
      test _ _ _ _ := trivial
      opening _ _ := trivial
      unlocked := trivial
      attempts used := .inr ⟨used,rfl⟩
      remove := trivial }

end Texts

/-- The assertion about a handler in flight. -/
structure PairRest (platform : Platform) (op : WorkerOp) (p : Worker Reply) (s : WorkerState) : Prop where
  /-- `SET_PIN` writes entries with their snapshots. -/
  set : ∀ pin,op=.setPin pin → p.Obeys (PinOnly platform) (fun _ _ => True) fun _ => True
  /-- No other handler writes an entry. -/
  other : (∀ pin,op≠.setPin pin) → p.Obeys NoPin (fun _ _ => True) fun _ => True
  /-- Snapshots alone are written under the wrapped key. -/
  faithful : ∀ dek,wrappedDek platform s=some dek → Faithful platform dek p

theorem body_pairRest (op : WorkerOp) (s : WorkerState) :
    PairRest platform op (body platform host op) s := by
  refine ⟨?_,body_noPin,fun dek _ => body_faithful dek op⟩
  rintro pin rfl
  exact setPin_pinOnly pin

theorem PairRest.arrive (op : WorkerOp) (k : Arrival Settled → Worker Reply) (i : Arrival Settled)
    (s : WorkerState) (h : PairRest platform op (.await k) s) : PairRest platform op (k i) s :=
  ⟨fun pin hop => h.set pin hop i,fun hop => h.other hop i,fun dek hdek => h.faithful dek hdek i⟩

/-- A text that writes whole entries only is faithful to every key. -/
theorem faithful_of_pinOnly {p : Worker Reply} (h : p.Obeys (PinOnly platform) (fun _ _ => True) fun _ => True)
    (dek : Bytes) : Faithful platform dek p := by
  refine h.mono (fun c hc => ?_) (fun _ _ _ => trivial) fun _ hQ => hQ
  cases c with
  | localSet fields =>
    obtain ⟨pin,salt,wrap,vaultBlob,dek',rfl,-⟩ := hc
    intro other he
    simp [pinFields] at he
  | _ => trivial

/-- The key that a new entry wraps. -/
theorem unwrapDek_pinFields {pin : Text} {salt : Bytes} {wrap : VaultBlob} {dek : Bytes}
    (h : Encloses platform (pinKey platform pin salt PIN_ITERATIONS) wrap dek) :
    unwrapDek platform pin ⟨salt,wrap.iv,wrap.data,PIN_ITERATIONS,pin.length⟩=some dek := by
  unfold unwrapDek
  rw [h]
  exact platform.aesGcm_open _ _ _

section Calls

variable {others : Others} {op : WorkerOp} {s : WorkerState}

/-- A call after which a stored entry is the one stored before. -/
theorem carry_segment {c : WorkerCall} {k : c.Answer → Worker Reply} {r : c.Answer} {s' : WorkerState}
    (h : System.Segment (Paired platform) (PairRest platform) op (.call c k) s others)
    (hentry : s'.device.pin≠none → ∃ dek,wrappedDek platform s'=some dek)
    (hsame : ∀ dek,wrappedDek platform s'=some dek → wrappedDek platform s=some dek ∧
      (∀ vaultBlob,s'.device.vaultBlob=some vaultBlob → Under platform dek vaultBlob) ∧
      (∀ held,s'.session.dek=some held → held=dek) ∧ SeesDek dek c r) :
    System.Segment (Paired platform) (PairRest platform) op (k r) s' others := by
  obtain ⟨-,⟨hset,hother,hfaithful⟩,hstable⟩ := h
  refine ⟨⟨hentry,?_,?_⟩,⟨fun pin hop => ?_,fun hop => ?_,fun dek hdek => ?_⟩,fun u hu => ?_⟩
  · exact fun dek vaultBlob hdek => (hsame dek hdek).2.1 vaultBlob
  · exact fun dek held hdek => (hsame dek hdek).2.2.1 held
  · exact (hset pin hop).2 r trivial
  · exact (hother hop).2 r trivial
  · exact (hfaithful dek (hsame dek hdek).1).2 r (hsame dek hdek).2.2.2
  · exact ⟨(hstable u hu).set,(hstable u hu).other,fun dek hdek => (hstable u hu).faithful dek (hsame dek hdek).1⟩

/-- A new entry arrives together with its snapshot. -/
theorem pin_segment {k : Unit → Worker Reply} {fields : List LocalField} {pin₀ : Text}
    (h : System.Segment (Paired platform) (PairRest platform) op (.call (.localSet fields) k) s others)
    (hop : op=.setPin pin₀) (hok : DekLands platform others (.localSet fields) s) :
    System.Segment (Paired platform) (PairRest platform) op (k ()) (exec (.localSet fields) s).2 others := by
  obtain ⟨-,⟨hset,-,-⟩,hstable⟩ := h
  have hown := hset pin₀ hop
  obtain ⟨pin,salt,wrap,vaultBlob,dek,rfl,hwrap,hunder⟩ := hown.1
  have hdek := unwrapDek_pinFields hwrap
  obtain ⟨hsession,hothers⟩ := hok _ pin dek List.mem_cons_self hdek
  have hwrapped : wrappedDek platform (exec (.localSet (pinFields pin salt wrap vaultBlob)) s).2=some dek := hdek
  have honly : ∀ dek',wrappedDek platform (exec (.localSet (pinFields pin salt wrap vaultBlob)) s).2=some dek' →
      dek'=dek := fun dek' h => Option.some.inj (h.symm.trans hwrapped)
  refine ⟨⟨fun _ => ⟨dek,hwrapped⟩,?_,?_⟩,⟨fun _ _ => hown.2 () trivial,?_,?_⟩,fun u hu => ?_⟩
  · intro dek' blob hdek' hblob
    cases honly dek' hdek'
    cases hblob
    exact hunder
  · intro dek' held hdek' hheld
    rw [honly dek' hdek']
    exact hsession held hheld
  · exact fun hne => absurd hop (hne pin₀)
  · exact fun dek' _ => faithful_of_pinOnly (hown.2 () trivial) dek'
  · refine ⟨(hstable u hu).set,(hstable u hu).other,fun dek' hdek' => ?_⟩
    rw [honly dek' hdek']
    exact hothers u hu

theorem set_dek {session : SessionArea} {fields : List SessionField} {held : Bytes}
    (h : (session.set fields).dek=some held) : session.dek=some held ∨ .dek (some held)∈fields := by
  induction fields generalizing session with
  | nil => exact .inl h
  | cons f fields ih =>
    rcases ih h with hput | hmem
    · cases f with
      | dek value =>
        have hvalue : value=some held := hput
        subst hvalue
        exact .inr List.mem_cons_self
      | _ => exact .inl hput
    · exact .inr (List.mem_cons_of_mem f hmem)

/-- One call of one handler keeps the three places in agreement. -/
theorem call_segment (others : Others) (op : WorkerOp) (c : WorkerCall) (k : c.Answer → Worker Reply)
    (s : WorkerState) (h : System.Segment (Paired platform) (PairRest platform) op (.call c k) s others)
    (hok : DekLands platform others c s) :
    System.Segment (Paired platform) (PairRest platform) op (k (exec c s).1) (exec c s).2 others := by
  have hpaired := h.shared
  have hblob (dek : Bytes) (hdek : wrappedDek platform s=some dek) (vaultBlob : VaultBlob)
      (hb : s.device.vaultBlob=some vaultBlob) := hpaired.blob dek vaultBlob hdek hb
  have hheld (dek : Bytes) (hdek : wrappedDek platform s=some dek) (held : Bytes)
      (hh : s.session.dek=some held) := hpaired.session dek held hdek hh
  cases c with
  | localSet fields =>
    by_cases hop : ∃ pin,op=.setPin pin
    · obtain ⟨pin,hop⟩ := hop
      exact pin_segment h hop hok
    · rcases (h.moved.other fun pin he => hop ⟨pin,he⟩).1 with ⟨vaultBlob,rfl⟩ | ⟨used,rfl⟩
      · refine carry_segment h hpaired.entry fun dek hdek => ⟨hdek,fun other hb => ?_,hheld dek hdek,trivial⟩
        cases hb
        exact (h.moved.faithful dek hdek).1 vaultBlob rfl
      · exact carry_segment h hpaired.entry fun dek hdek => ⟨hdek,hblob dek hdek,hheld dek hdek,trivial⟩
  | localRemove =>
    exact carry_segment h (fun hpin => absurd rfl hpin) fun dek hdek => nomatch hdek
  | sessionSet fields =>
    refine carry_segment h hpaired.entry fun dek hdek => ⟨hdek,hblob dek hdek,fun held hh => ?_,trivial⟩
    rcases set_dek hh with hold | hnew
    · exact hheld dek hdek held hold
    · exact hok held dek hnew hdek
  | sessionRemoveDek =>
    exact carry_segment h hpaired.entry fun dek hdek => ⟨hdek,hblob dek hdek,fun _ hh => (nomatch hh),trivial⟩
  | sessionGet keys =>
    refine carry_segment h hpaired.entry fun dek hdek => ⟨hdek,hblob dek hdek,hheld dek hdek,fun held hh => ?_⟩
    refine hheld dek hdek held ?_
    change (if .dek∈keys then s.session.dek else none)=some held at hh
    split at hh
    · exact hh
    · cases hh
  | _ => exact carry_segment h hpaired.entry fun dek hdek => ⟨hdek,hblob dek hdek,hheld dek hdek,trivial⟩

end Calls

/-- In every run from a device without a PIN in which both conditions hold, the
key that the stored entry yields under the PIN it was set with decrypts the
stored snapshot in the state reached. -/
theorem stored_snapshot_opens (platform : Platform) (host : Host) (locked : Option Bool)
    (entropy : ℕ → UInt8) (events : List WorkerEvent)
    (hok : (worker platform host).Admits ((worker platform host).Landing (DekLands platform))
      ⟨.started locked ⟨none,none,none⟩ entropy,[]⟩ events)
    (s : WorkerState)
    (hs : s=((worker platform host).run ⟨.started locked ⟨none,none,none⟩ entropy,[]⟩ events).shared)
    (entry : PinBlob) (hentry : s.device.pin=some entry)
    (vaultBlob : VaultBlob) (hblob : s.device.vaultBlob=some vaultBlob) :
    ∃ pin dek,s.setWith=some pin ∧ unwrapDek platform pin entry=some dek ∧
      (platform.aesGcmDecrypt dek vaultBlob.iv vaultBlob.data).isSome=true := by
  have hstart : System.Holds (Paired platform) (PairRest platform)
      (⟨.started locked ⟨none,none,none⟩ entropy,[]⟩ : WorkerPool) := by
    refine ⟨⟨fun hpin => absurd rfl hpin,?_,?_⟩,fun t ht => absurd ht List.not_mem_nil⟩
    · exact fun dek blob hdek => nomatch hdek
    · exact fun dek held hdek => nomatch hdek
  have hend := hstart.landing (S:=worker platform host) (fun op s _ => body_pairRest op s)
    PairRest.arrive call_segment hok
  have hpaired : Paired platform s := by
    rw [hs]
    exact hend.shared
  obtain ⟨dek,hdek⟩ := hpaired.entry (by simp [hentry])
  obtain ⟨data,hdata⟩ := hpaired.blob dek vaultBlob hdek hblob
  unfold wrappedDek at hdek
  rw [hentry] at hdek
  cases hpin : s.setWith with
  | none => simp [hpin] at hdek
  | some pin =>
    rw [hpin] at hdek
    refine ⟨pin,dek,rfl,hdek,?_⟩
    rw [hdata,platform.aesGcm_open]
    rfl

section Samples

/-- The web app pushes an empty list. -/
def push (n times : ℕ) : List WorkerEvent := .start (.storeItems (some []) none none)::fulfil n times

/-- Two PINs are set at the same time. The first is stored and a push begins to
refresh the snapshot under its key; then the second is stored, and then the
refreshed snapshot. -/
def twoPins : List WorkerEvent :=
  push 0 2++[Event.start (WorkerOp.setPin "1234".toList),.start (.setPin "123456".toList)]++fulfil 1 6++fulfil 2 6++
    fulfil 1 2++push 3 4++[arrive 2 .fulfilled,arrive 3 .fulfilled,arrive 2 .fulfilled]

/-- The state that they leave. -/
def twoPinsStored : WorkerState := ((worker transparent sampleHost).run installed twoPins).shared

theorem twoPinsStored_closed : ∃ dek,wrappedDek transparent twoPinsStored=some dek ∧
    ∃ blob,twoPinsStored.device.vaultBlob=some blob ∧
      transparent.aesGcmDecrypt dek blob.iv blob.data=none := by
  have hany : (wrappedDek transparent twoPinsStored).any (fun dek => twoPinsStored.device.vaultBlob.any
      fun blob => (transparent.aesGcmDecrypt dek blob.iv blob.data).isNone)=true := by decide
  obtain ⟨dek,hdek,hany⟩ := (Option.any_eq_true _ _).mp hany
  obtain ⟨blob,hblob,hnone⟩ := (Option.any_eq_true _ _).mp hany
  exact ⟨dek,hdek,blob,hblob,by simpa using hnone⟩

/-- The entry and the snapshot are stored, and the key that the entry yields
does not decrypt the snapshot. -/
theorem snapshot_under_other_key :
    ∃ entry vaultBlob,twoPinsStored.device.pin=some entry ∧ twoPinsStored.device.vaultBlob=some vaultBlob ∧
      ¬∃ pin dek,twoPinsStored.setWith=some pin ∧ unwrapDek transparent pin entry=some dek ∧
        (transparent.aesGcmDecrypt dek vaultBlob.iv vaultBlob.data).isSome=true := by
  obtain ⟨dek,hdek,vaultBlob,hblob,hclosed⟩ := twoPinsStored_closed
  cases hentry : twoPinsStored.device.pin with
  | none => simp [wrappedDek,hentry] at hdek
  | some entry =>
    refine ⟨entry,vaultBlob,rfl,hblob,?_⟩
    rintro ⟨pin,dek',hpin,hdek',hopen⟩
    have hsame : dek'=dek := by
      simp only [wrappedDek,hentry,hpin] at hdek
      exact Option.some.inj (hdek'.symm.trans hdek)
    rw [hsame,hclosed] at hopen
    cases hopen

/-- A PIN is set, and then a push refreshes the snapshot. -/
def onePin : List WorkerEvent := push 0 2++.start (.setPin "1234".toList)::fulfil 1 8++push 2 5

/-- The conditions, checked beside settled handlers. -/
def dekAlone (others : Others) : WorkerCall → WorkerState → Bool
  | .localSet fields,s => fields.all fun
    | .pin entry pin => (unwrapDek transparent pin entry).all fun dek =>
      s.session.dek.all (· == dek) && others.all fun u => u.rest.settled
    | _ => true
  | .sessionSet fields,s => fields.all fun
    | .dek (some dek) => (wrappedDek transparent s).all (dek == ·)
    | _ => true
  | _,_ => true

theorem dekLands_of_dekAlone (others : Others) (c : WorkerCall) (s : WorkerState)
    (h : dekAlone others c s=true) : DekLands transparent others c s := by
  cases c with
  | localSet fields =>
    intro entry pin dek hmem hdek
    have hpin := List.all_eq_true.mp h _ hmem
    simp only [hdek,Option.all_some,Bool.and_eq_true] at hpin
    refine ⟨fun held hheld => ?_,fun u hu => ?_⟩
    · simpa [hheld] using hpin.1
    · exact .of_settled (List.all_eq_true.mp hpin.2 u hu)
  | sessionSet fields =>
    intro dek stored hmem hstored
    have hdek := List.all_eq_true.mp h _ hmem
    simpa [hstored] using hdek
  | _ => trivial

theorem onePin_lands : (worker transparent sampleHost).lands dekAlone installed onePin=true := by
  decide

theorem onePin_stored :
    ((worker transparent sampleHost).run installed onePin).shared.device.pin.isSome=true ∧
      ((worker transparent sampleHost).run installed onePin).shared.device.vaultBlob.isSome=true := by
  decide

theorem stored_snapshot_opens_onePin :
    ∃ entry vaultBlob pin dek,
      ((worker transparent sampleHost).run installed onePin).shared.device.pin=some entry ∧
      ((worker transparent sampleHost).run installed onePin).shared.device.vaultBlob=some vaultBlob ∧
      unwrapDek transparent pin entry=some dek ∧
      (transparent.aesGcmDecrypt dek vaultBlob.iv vaultBlob.data).isSome=true := by
  obtain ⟨entry,hentry⟩ := Option.isSome_iff_exists.mp onePin_stored.1
  obtain ⟨vaultBlob,hblob⟩ := Option.isSome_iff_exists.mp onePin_stored.2
  obtain ⟨pin,dek,-,hdek,hopen⟩ := stored_snapshot_opens transparent sampleHost (some true) UInt8.ofNat onePin
    (System.lands_admits dekLands_of_dekAlone onePin_lands) _ rfl entry hentry vaultBlob hblob
  exact ⟨entry,vaultBlob,pin,dek,hentry,hblob,hdek,hopen⟩

end Samples

end NadSafe.ExtensionPairing
