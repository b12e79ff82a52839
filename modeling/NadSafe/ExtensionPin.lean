import NadSafe.ExtensionContracts
import NadSafe.WebPin

/-!
# PIN guesses in the extension

`handleUnlockPin` reads the entry, the snapshot and the counter at once,
derives the PIN key, and stores the successor of the counter it read. Messages
are handled without waiting for each other. This module follows every
interleaving of all handlers: one guess at a time, with storage that works,
stays within the limit, and once the entry is gone no handler can bring a
guess back before a new PIN is set.
-/

namespace NadSafe.ExtensionPin

open HostText AsyncScript AsyncScript.Script ScriptPool ScriptProtocol ScriptLockout AttemptGuard
open WireFormat WebCrypto
open WebClient (PinBlob PinTest PinEvent)
open WebOperations (pinKey)
open WebPin (wrongSince wrongSince_append countWrong countWrong_tested IsTest)
open ExtensionWorker ExtensionHandlers ExtensionContracts

variable {platform : Platform} {host : Host}

/-- Whether an operation tests a PIN. -/
def unlocks : WorkerOp → Prop
  | .unlockPin _ => True
  | _ => False

/-- Every `UNLOCK_PIN` handler has settled. -/
def UnlocksSettled (P : WorkerPool) : Prop := ∀ t∈P.threads,unlocks t.origin → t.rest.settled=true

/-- What arrives is not the failure of a storage operation. -/
def Stored (i : Arrival Settled) : Prop := ∀ error,i.value≠.storageFailed error

/-- The conditions: `UNLOCK_PIN` is handled only when every earlier one has
settled, and no storage operation of an `UNLOCK_PIN` handler fails. -/
def OneUnlock (P : WorkerPool) : WorkerEvent → Prop
  | .start (.unlockPin _) => UnlocksSettled P
  | .start _ => True
  | .resume n i => ∀ t,P.threads[n]?=some t → unlocks t.origin → Stored i

/-- The guard that `storage.local` implements. -/
def guardOf (s : WorkerState) : Guard :=
  ⟨s.device.pin.isSome,s.device.pinAttempts,wrongSince s.pinHistory⟩

section Protocols

/-- The calls of `handleUnlockPin`. -/
def unlockAllowed : Phase → WorkerCall → Prop
  | .fresh,.localGet => True
  | .ready _,.tested _ => True
  | .ready seen,.localSet fields => fields=[.pinAttempts (seen+1)] ∧ seen+1<PIN_MAX_ATTEMPTS
  | .tried seen,.localSet fields => fields=[.pinAttempts (seen+1)] ∧ seen+1<PIN_MAX_ATTEMPTS
  | .ready _,.localRemove => True
  | .tried _,.localRemove => True
  | .tried _,.sessionSet _ => True
  | .tried _,.pinUnlocked => True
  | .won,.localSet fields => fields=[.pinAttempts 0]
  | _,_ => False

/-- The phases they lead to. -/
def unlockNext : Phase → ∀ c,WorkerCall.Answer c → Phase
  | .fresh,.localGet,device =>
    if device.pin.isSome=true ∧ device.vaultBlob.isSome=true then .ready (device.pinAttempts.getD 0) else .free
  | .ready seen,.tested _,_ => .tried seen
  | .tried seen,.sessionSet _,_ => .tried seen
  | .tried _,.pinUnlocked,_ => .won
  | _,_,_ => .free

/-- The protocol of `handleUnlockPin`. -/
def unlockProtocol : Protocol WorkerCall WorkerCall.Answer Settled Phase :=
  ⟨unlockAllowed,unlockNext,Phase.Parked,Stored⟩

/-- The local writes of all other handlers: a new PIN with a zero counter, or
the snapshot alone. -/
def Bystands : WorkerCall → Prop
  | .localSet fields => (∃ pin salt wrap vaultBlob,fields=pinFields pin salt wrap vaultBlob) ∨
    ∃ vaultBlob,fields=[.vaultBlob vaultBlob]
  | .tested _ => False
  | .pinUnlocked => False
  | _ => True

/-- The protocol of all other handlers. -/
def sideProtocol : Protocol WorkerCall WorkerCall.Answer Settled Unit :=
  ⟨fun _ => Bystands,fun _ _ _ => (),fun _ => True,fun _ => True⟩

/-- What holds of `storage.local`. -/
def PinSound (q : Phase) (_ : Unit) (s : WorkerState) : Prop := Sound PIN_MAX_ATTEMPTS q (guardOf s)

/-- Every call of `handleUnlockPin` leads to what its next phase says. -/
theorem unlock_call (q : Phase) (c : WorkerCall) (s : WorkerState) (h : PinSound q () s)
    (hc : unlockAllowed q c) : PinSound (unlockNext q c (exec c s).1) () (exec c s).2 := by
  have hstored {seen : ℕ} {fields : List LocalField}
      (hsound : Sound PIN_MAX_ATTEMPTS (.ready seen) (guardOf s) ∨ Sound PIN_MAX_ATTEMPTS (.tried seen) (guardOf s))
      (hf : fields=[.pinAttempts (seen+1)] ∧ seen+1<PIN_MAX_ATTEMPTS) :
      PinSound .free () (exec (.localSet fields) s).2 := by
    obtain ⟨rfl,hlt⟩ := hf
    exact Sound.record hsound hlt
  cases q with
  | free => cases c <;> exact absurd hc id
  | found => cases c <;> exact absurd hc id
  | wiping => cases c <;> exact absurd hc id
  | fresh =>
    cases c with
    | localGet =>
      change Sound PIN_MAX_ATTEMPTS (if s.device.pin.isSome=true ∧ s.device.vaultBlob.isSome=true then
        .ready (s.device.pinAttempts.getD 0) else .free) (guardOf s)
      split
      · rename_i hfound
        have harmed : Sound PIN_MAX_ATTEMPTS .found (guardOf s) := ⟨h.1,h.2,hfound.1⟩
        exact harmed.read
      · exact h
    | _ => exact absurd hc id
  | ready seen =>
    cases c with
    | tested test =>
      have hguess := Sound.guess h (countWrong_tested (wrongSince s.pinHistory) test)
      rw [←wrongSince_append] at hguess
      exact hguess
    | localSet fields => exact hstored (.inl h) hc
    | localRemove => exact Sound.wipe h
    | _ => exact absurd hc id
  | tried seen =>
    cases c with
    | localSet fields => exact hstored (.inr h) hc
    | localRemove => exact Sound.wipe h
    | sessionSet fields => exact h
    | pinUnlocked =>
      have hwin := Sound.win h
      have hzero : wrongSince (s.pinHistory++[PinEvent.unlocked])=0 := wrongSince_append _ _
      change Sound PIN_MAX_ATTEMPTS .won ⟨_,_,wrongSince (s.pinHistory++[PinEvent.unlocked])⟩
      rw [hzero]
      exact hwin
    | _ => exact absurd hc id
  | won =>
    cases c with
    | localSet fields =>
      cases (hc : fields=[.pinAttempts 0])
      have hpos : 0<PIN_MAX_ATTEMPTS := by decide
      exact Sound.restart h hpos
    | _ => exact absurd hc id

/-- Every call of another handler leaves a guess in flight sound. -/
theorem side_call (q : Phase) (ph : Unit) (c : WorkerCall) (s : WorkerState) (hq : q=.free ∨ q.Parked)
    (h : PinSound q ph s) (hc : Bystands c) : PinSound q () (exec c s).2 := by
  cases c with
  | localSet fields =>
    rcases hc with ⟨pin,salt,wrap,vaultBlob,rfl⟩|⟨vaultBlob,rfl⟩
    · have hused : (some 0).getD 0=0 := rfl
      have harm := Sound.arm hq h hused
      have hzero : wrongSince (s.pinHistory++[PinEvent.set])=0 := wrongSince_append _ _
      change Sound PIN_MAX_ATTEMPTS q ⟨true,some 0,wrongSince (s.pinHistory++[PinEvent.set])⟩
      rw [hzero]
      exact harm
    · exact h
  | localRemove => exact Sound.disarm hq h
  | tested test => exact absurd hc id
  | pinUnlocked => exact absurd hc id
  | _ => exact h

section Texts

variable {α : Type} {Q : Phase → α → Prop} {E : Phase → Prop} {q : Phase}

/-- A platform promise stays in its phase. -/
theorem settles_follows (hq : q.Parked) {result : Option α} (hQ : ∀ a,result=some a → Q q a) (hE : E q) :
    Follows unlockProtocol Q E (settles result) q := by
  refine ⟨hq,fun i _ => ?_⟩
  dsimp only [Script.bind]
  cases i.value with
  | rejected error => exact hE
  | _ =>
    cases result with
    | none => exact hE
    | some a => exact hQ a rfl

/-- A storage operation takes effect. -/
theorem storage_follows {c : WorkerCall} {Q : Phase → c.Answer → Prop} (hq : q.Parked)
    (hc : unlockAllowed q c) (hQ : ∀ r,Q (unlockNext q c r) r) :
    Follows unlockProtocol Q E (storage c) q := by
  refine ⟨hq,fun i hi => ?_⟩
  dsimp only [Script.bind]
  cases hvalue : i.value with
  | storageFailed error => exact absurd hvalue (hi error)
  | _ => exact Follows.perform hc hQ

/-- The derivation of a PIN key stays in its phase. -/
theorem derivePinKey_follows {Q : Phase → Bytes → Prop} (hq : q.Parked) (pin : Text) (salt : Bytes)
    (iterations : ℕ) (hQ : ∀ key,Q q key) (hE : E q) :
    Follows unlockProtocol Q E (derivePinKey platform pin salt iterations) q := by
  have hbase : Follows unlockProtocol (fun q' _ => q'=q) E (settles (some (utf8 pin))) q :=
    settles_follows hq (fun _ _ => rfl) hE
  refine hbase.bind fun q' base hq' => ?_
  subst hq'
  exact settles_follows hq (fun key _ => hQ key) hE

end Texts

/-- The failure branch records the attempt or removes the PIN. -/
theorem pinFailure_follows {seen : ℕ} {q : Phase} (hq : q=.ready seen ∨ q=.tried seen) :
    Returns unlockProtocol .free (pinFailure seen) q := by
  have hparked : q.Parked := by
    rcases hq with rfl|rfl <;> trivial
  unfold pinFailure
  dsimp only
  split
  · have hremove : Follows unlockProtocol (fun q _ => q=.free) (fun q => q=.free) (storage .localRemove) q := by
      rcases hq with rfl|rfl <;> exact storage_follows hparked trivial fun _ => rfl
    exact hremove.bind fun _ _ hfree => hfree
  · rename_i hlt
    have hbound : seen+1<PIN_MAX_ATTEMPTS := Nat.lt_of_not_le hlt
    have hrecord : Follows unlockProtocol (fun q _ => q=.free) (fun q => q=.free)
        (storage (.localSet [.pinAttempts (seen+1)])) q := by
      rcases hq with rfl|rfl <;> exact storage_follows hparked ⟨rfl,hbound⟩ fun _ => rfl
    exact hrecord.bind fun _ _ hfree => hfree

/-- The guarded part starts with the counter read and ends with it cleared, or
rejects before or after its test. -/
theorem openVault_follows (pin : Text) (entry : PinBlob) (vaultBlob : VaultBlob) (seen : ℕ) :
    Follows unlockProtocol (fun q _ => q=.free) (fun q => q=.ready seen ∨ q=.tried seen)
      (openVault platform host pin entry vaultBlob) (.ready seen) := by
  have hready : Phase.Parked (.ready seen) := trivial
  have htried : Phase.Parked (.tried seen) := trivial
  refine Follows.bind (Q:=fun q _ => q=.ready seen)
    (derivePinKey_follows hready pin _ _ (fun _ => rfl) (.inl rfl)) fun q key hq => ?_
  subst hq
  refine ⟨trivial,fun _ => ?_⟩
  change Follows unlockProtocol _ _ (Script.bind (settles _) _) (.tried seen)
  refine Follows.bind (Q:=fun q _ => q=.tried seen)
    (settles_follows htried (fun _ _ => rfl) (.inr rfl)) fun q dek hq => ?_
  subst hq
  refine Follows.bind (Q:=fun q _ => q=.tried seen)
    (settles_follows htried (fun _ _ => rfl) (.inr rfl)) fun q dekKey hq => ?_
  subst hq
  refine Follows.bind (Q:=fun q _ => q=.tried seen)
    (settles_follows htried (fun _ _ => rfl) (.inr rfl)) fun q blobBytes hq => ?_
  subst hq
  cases host.parse blobBytes with
  | none => exact .inr rfl
  | some parsed =>
    change Follows unlockProtocol _ _ (Script.bind (storage _) _) (.tried seen)
    refine Follows.bind (Q:=fun q _ => q=.tried seen)
      (storage_follows htried trivial fun _ => rfl) fun q _ hq => ?_
    subst hq
    refine ⟨trivial,fun _ => ?_⟩
    change Follows unlockProtocol _ _ (Script.bind (storage _) _) .won
    refine Follows.bind (Q:=fun q _ => q=.free) (storage_follows trivial rfl fun _ => rfl) fun q _ hq => ?_
    exact hq

/-- `handleUnlockPin` follows its protocol. -/
theorem handleUnlockPin_follows (pin : Text) :
    Returns unlockProtocol .free (handleUnlockPin platform host pin) .fresh := by
  have hread : Follows unlockProtocol (fun q device => q=unlockNext .fresh .localGet device)
      (fun q => q=.free) (storage .localGet) .fresh := storage_follows trivial trivial fun _ => rfl
  refine hread.bind fun q device hq => ?_
  split
  · rename_i entry vaultBlob hentry hblob
    have hready : q=.ready (device.pinAttempts.getD 0) := by
      simpa [unlockNext,hentry,hblob] using hq
    subst hready
    exact (openVault_follows pin entry vaultBlob _).rescue fun q _ hq => pinFailure_follows hq
  · rename_i hmissing
    have hfree : q=.free := by
      rw [hq]
      refine if_neg fun hfound => ?_
      obtain ⟨entry,hentry⟩ := Option.isSome_iff_exists.mp hfound.1
      obtain ⟨vaultBlob,hblob⟩ := Option.isSome_iff_exists.mp hfound.2
      exact hmissing entry vaultBlob hentry hblob
    exact hfree

/-- No other handler tests a PIN or changes the counter of a stored one. -/
theorem body_bystands {op : WorkerOp} (hop : ¬unlocks op) :
    (body platform host op).Obeys Bystands (fun _ _ => True) fun _ => True := by
  refine body_obeys ?_ (fun _ _ => ?_) (fun pin h => absurd (h ▸ trivial) hop) fun _ => trivial
  · exact {
      random _ := trivial
      send _ := trivial
      get _ := trivial
      opening _ _ := trivial
      items _ _ _ _ _ _ := trivial
      blob _ _ _ vaultBlob _ _ _ _ := .inr ⟨vaultBlob,rfl⟩
      remove := trivial
      removeDek := trivial }
  · exact {
      random _ := trivial
      get _ := trivial
      pin pin salt wrap vaultBlob _ _ _ := .inl ⟨pin,salt,wrap,vaultBlob,rfl⟩
      dek _ _ _ _ _ _ := trivial }

/-- PIN guesses run one at a time. -/
def pinDiscipline (platform : Platform) (host : Host) : Discipline (worker platform host) Phase Unit where
  leads := unlocks
  lead := unlockProtocol
  free := .free
  first := .fresh
  other := sideProtocol
  rest := ()
  A := PinSound
  free_parks := id
  rest_parks _ _ := rfl
  rest_arrives _ := trivial
  first_of_free _ h := h
  lead_call := unlock_call
  other_call := side_call
  lead_body op hop := by
    cases op with
    | unlockPin pin =>
      exact (handleUnlockPin_follows pin).rescue fun _ _ hq => hq
    | _ => cases hop
  other_body op hop := Returns.of_obeys trivial (fun _ hc => hc) (body_bystands hop)

end Protocols

section Removed

/-- The milestone that a call adds to the history. -/
def milestone : WorkerCall → List PinEvent
  | .localSet fields => if (setWith? fields).isSome=true then [.set] else []
  | .tested test => [.tested test]
  | .pinUnlocked => [.unlocked]
  | _ => []

theorem exec_pinHistory (c : WorkerCall) (s : WorkerState) :
    (exec c s).2.pinHistory=s.pinHistory++milestone c := by
  cases c with
  | localSet fields =>
    change (s.localSet fields).pinHistory=s.pinHistory++milestone (.localSet fields)
    cases hset : setWith? fields with
    | none => simp [WorkerState.localSet,milestone,hset]
    | some pin => simp [WorkerState.localSet,milestone,hset]
  | tested test => rfl
  | pinUnlocked => rfl
  | _ => exact (List.append_nil _).symm

/-- A write without an entry leaves the stored one. -/
theorem set_pin {device : LocalArea} {fields : List LocalField} (h : setWith? fields=none) :
    (device.set fields).pin=device.pin := by
  induction fields generalizing device with
  | nil => rfl
  | cons f fields ih =>
    cases f with
    | pin blob setWith => simp [setWith?] at h
    | vaultBlob blob =>
      have htail : setWith? fields=none := by simpa [setWith?] using h
      have hput : (device.put (.vaultBlob blob)).pin=device.pin := rfl
      exact (ih htail).trans hput
    | pinAttempts used =>
      have htail : setWith? fields=none := by simpa [setWith?] using h
      have hput : (device.put (.pinAttempts used)).pin=device.pin := rfl
      exact (ih htail).trans hput

/-- Only a new PIN stores an entry. -/
theorem exec_pin {c : WorkerCall} (hc : .set∉ milestone c) {s : WorkerState} (h : s.device.pin=none) :
    (exec c s).2.device.pin=none := by
  cases c with
  | localSet fields =>
    change (s.localSet fields).device.pin=none
    cases hset : setWith? fields with
    | none =>
      rw [WorkerState.localSet,hset]
      exact (set_pin hset).trans h
    | some pin => exact absurd (by simp [milestone,hset]) hc
  | localRemove => rfl
  | _ => exact h

/-- No answer shows a PIN entry. -/
def SeesNoPin : ∀ c,WorkerCall.Answer c → Prop
  | .localGet,device => device.pin=none
  | _,_ => True

/-- A call that tests no PIN. -/
def Untested (c : WorkerCall) : Prop := ∀ e∈milestone c,¬IsTest e

theorem untested_of_ne {c : WorkerCall} (hc : ∀ test,c≠.tested test) : Untested c := by
  rintro e he ⟨test,rfl⟩
  cases c with
  | tested test' => exact hc test' rfl
  | localSet fields =>
    rw [milestone] at he
    split at he
    · cases List.mem_singleton.mp he
    · cases he
  | pinUnlocked => cases List.mem_singleton.mp he
  | _ => cases he

/-- Without a stored entry no handler tests a PIN. -/
theorem body_untested (platform : Platform) (host : Host) (op : WorkerOp) :
    (body platform host op).Obeys Untested SeesNoPin fun _ => True := by
  refine body_obeys ?_ (fun _ _ => ?_) (fun _ _ => ?_) fun _ => untested_of_ne (by simp)
  · exact {
      random _ := untested_of_ne (by simp)
      send _ := untested_of_ne (by simp)
      get _ := untested_of_ne (by simp)
      opening _ _ := untested_of_ne (by simp)
      items _ _ _ _ _ _ := untested_of_ne (by simp)
      blob _ _ _ _ _ _ _ _ := untested_of_ne (by simp)
      remove := untested_of_ne (by simp)
      removeDek := untested_of_ne (by simp) }
  · exact {
      random _ := untested_of_ne (by simp)
      get _ := untested_of_ne (by simp)
      pin _ _ _ _ _ _ _ := untested_of_ne (by simp)
      dek _ _ _ _ _ _ := untested_of_ne (by simp) }
  · exact {
      read := untested_of_ne (by simp)
      test _ _ hnone hfound := absurd hnone hfound
      opening _ _ := untested_of_ne (by simp)
      unlocked := untested_of_ne (by simp)
      attempts _ := untested_of_ne (by simp)
      remove := untested_of_ne (by simp) }

/-- A device without an entry is locked out until a PIN is set. -/
def pinLockout (platform : Platform) (host : Host) : Lockout (worker platform host) PinEvent where
  history := WorkerState.pinHistory
  milestones := milestone
  Safe s := s.device.pin=none
  Lifts e := e=.set
  Bad := IsTest
  post := SeesNoPin
  history_exec := exec_pinHistory
  safe_exec _ _ hs hc := exec_pin (fun hmem => hc _ hmem rfl) hs
  post_exec c s hs := by
    cases c with
    | localGet => exact hs
    | _ => trivial
  body := body_untested platform host

end Removed

/-- In every run from a device without a PIN in which `UNLOCK_PIN` is handled one
at a time and its storage works: since the last new PIN or successful unlock
at most five wrong PINs were tested, and when the fifth has been counted the
entry and the counter are gone and no later message, in any order, has a PIN
tested before a new one is set. -/
theorem worker_guesses_bounded (platform : Platform) (host : Host) (locked : Option Bool)
    (entropy : ℕ → UInt8) (events : List WorkerEvent)
    (hok : (worker platform host).Admits OneUnlock ⟨.started locked ⟨none,none,none⟩ entropy,[]⟩ events)
    (P : WorkerPool)
    (hP : P=(worker platform host).run ⟨.started locked ⟨none,none,none⟩ entropy,[]⟩ events) :
    wrongSince P.shared.pinHistory≤PIN_MAX_ATTEMPTS ∧
      (UnlocksSettled P → wrongSince P.shared.pinHistory=PIN_MAX_ATTEMPTS →
        P.shared.device.pin=none ∧ P.shared.device.pinAttempts=none ∧
        ∀ later added,((worker platform host).run P later).shared.pinHistory=P.shared.pinHistory++added →
          .set∉added → ∀ test,.tested test∉added) := by
  have hsolo : (pinDiscipline platform host).Solo P := by
    rw [hP]
    refine Discipline.Solo.run ?_ (hok.mono fun P e he => ?_)
    · have hpos : 0<PIN_MAX_ATTEMPTS := by decide
      exact .idle ⟨⟨hpos,Nat.zero_le _⟩,covers_of_wrong_zero rfl⟩
        fun t ht => absurd ht List.not_mem_nil
    · cases e with
      | start op =>
        cases op with
        | unlockPin pin => exact fun _ => he
        | _ => exact fun h => absurd h id
      | resume n i => exact he
  have hsound : ∃ q,Sound PIN_MAX_ATTEMPTS q (guardOf P.shared) := by
    cases hsolo with
    | idle shared => exact ⟨.free,shared⟩
    | busy n t q found leads parks shared => exact ⟨q,shared⟩
  obtain ⟨q,hq⟩ := hsound
  refine ⟨hq.bounded.2,fun hsettled hwrong => ?_⟩
  obtain ⟨hsound,hrest⟩ := hsolo.free hsettled
  obtain ⟨harmed,hused⟩ := Sound.exhausted hsound hwrong
  have hpin : P.shared.device.pin=none := by simpa [guardOf] using harmed
  have hharmless : ∀ t∈P.threads,Harmless (pinLockout platform host) t.rest := by
    intro t ht
    refine Follows.obeys (fun _ c hc => untested_of_ne ?_) (fun _ => trivial) (hrest t ht)
    rintro test rfl
    exact hc
  refine ⟨hpin,hused,fun later added hadded hset test htest => ?_⟩
  refine Lockout.run (L:=pinLockout platform host) hpin hharmless later hadded ?_ _ htest ⟨test,rfl⟩
  rintro e he rfl
  exact hset he

section Samples

/-- The web app pushes an empty list, and a PIN is set. -/
def pinStored : List WorkerEvent :=
  .start (.storeItems (some []) none none)::fulfil 0 2++.start (.setPin "1234".toList)::fulfil 1 8

/-- Six messages with a wrong PIN are handled at the same time, each up to its
test. -/
def sixAtOnce : List WorkerEvent :=
  pinStored++List.replicate 6 (Event.start (WorkerOp.unlockPin "0000".toList))++[2,3,4,5,6,7].flatMap fun n => fulfil n 3

/-- Six wrong PINs are tested, and the entry and the snapshot are still there. -/
theorem six_guesses_tested :
    wrongSince ((worker transparent sampleHost).run installed sixAtOnce).shared.pinHistory=6 ∧
      ((worker transparent sampleHost).run installed sixAtOnce).shared.device.pin.isSome=true ∧
      ((worker transparent sampleHost).run installed sixAtOnce).shared.device.vaultBlob.isSome=true := by
  decide

/-- One wrong guess from start to end. -/
def wrongGuess (n : ℕ) : List WorkerEvent := .start (.unlockPin "0000".toList)::fulfil n 5

/-- Five of them, one after the other. -/
def fiveInTurn : List WorkerEvent := pinStored++[2,3,4,5,6].flatMap wrongGuess

/-- Every promise of a run is fulfilled. -/
def fulfilled : WorkerEvent → Bool
  | .start _ => true
  | .resume _ ⟨_,.fulfilled⟩ => true
  | _ => false

theorem fiveInTurn_stored {n : ℕ} {i : Arrival Settled} (h : .resume n i∈fiveInTurn) : Stored i := by
  have hall : fiveInTurn.all fulfilled=true := by decide
  have hi := List.all_eq_true.mp hall _ h
  obtain ⟨path,value⟩ := i
  rintro error rfl
  cases hi

theorem fiveInTurn_alone : (worker transparent sampleHost).Admits OneUnlock installed fiveInTurn := by
  have hseq : (worker transparent sampleHost).sequential installed fiveInTurn=true := by decide
  refine System.sequential_admits (fun P op hP => ?_) (fun _ _ _ hi _ _ _ => fiveInTurn_stored hi) hseq
  cases op with
  | unlockPin pin => exact fun t ht _ => hP t ht
  | _ => trivial

theorem fiveInTurn_settled :
    ∀ t∈((worker transparent sampleHost).run installed fiveInTurn).threads,t.rest.settled=true := by
  decide

theorem fiveInTurn_wrong :
    wrongSince ((worker transparent sampleHost).run installed fiveInTurn).shared.pinHistory=
      PIN_MAX_ATTEMPTS := by
  decide

theorem worker_guesses_bounded_sample :
    ((worker transparent sampleHost).run installed fiveInTurn).shared.device.pin=none ∧
      ((worker transparent sampleHost).run installed fiveInTurn).shared.device.pinAttempts=none := by
  have hbound := (worker_guesses_bounded transparent sampleHost (some true) UInt8.ofNat fiveInTurn
    fiveInTurn_alone _ rfl).2 (fun t ht _ => fiveInTurn_settled t ht) fiveInTurn_wrong
  exact ⟨hbound.1,hbound.2.1⟩

end Samples

end NadSafe.ExtensionPin
