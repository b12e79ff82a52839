import NadSafe.ScriptProtocol
import NadSafe.ScriptLockout
import NadSafe.AttemptGuard
import NadSafe.WrappedCopies

/-!
# PIN guesses over shared localStorage

Any number of tabs share the PIN entry and its counter. `unlockWithPin` reads
both, derives the PIN key for a long time, and stores the successor of the
counter it read. This module follows every interleaving of such calls with
new and removed PINs. One call at a time keeps the number of wrong PINs
tested within the limit; calls that overlap read the same counter.
-/

namespace NadSafe.WebPin

open HostText AsyncScript AsyncScript.Script ScriptPool ScriptProtocol ScriptLockout AttemptGuard
open WireFormat WebCrypto WebClient WebScripts WebOperations KeyAliasing WrappedCopies

variable {platform : Platform}

/-- The operations on the PIN entry, in any tab. A new PIN wraps the bytes
that its tab's session key holds when they are read. -/
inductive PinOp where
  /-- `unlockWithPin`. -/
  | unlock (pin : Text)
  /-- `setPin`. -/
  | set (pin : Text) (key : SymKey)
  /-- `removePin`. -/
  | remove

/-- Their texts. -/
def pinBody (platform : Platform) : PinOp → Web Unit
  | .unlock pin => do
    let _ ← unlockWithPin platform pin
    pure ()
  | .set pin key => setPin platform pin (.owned key)
  | .remove => removePin

/-- The tabs that share one localStorage. -/
def pinSystem (platform : Platform) :
    System WebCall WebCall.Answer Arrived Text Unit WebState PinOp :=
  ⟨exec,pinBody platform⟩

/-- A pool of PIN operations. -/
abbrev PinPool := Pool WebCall WebCall.Answer Arrived Text Unit WebState PinOp

/-- Whether an operation tests a PIN. -/
def PinOp.unlocks : PinOp → Prop
  | .unlock _ => True
  | _ => False

/-- Every call of `unlockWithPin` has settled. -/
def UnlocksSettled (P : PinPool) : Prop := ∀ t∈P.threads,t.origin.unlocks → t.rest.settled=true

/-- The condition: `unlockWithPin` is called only when every earlier call has
settled. -/
def OneUnlock (P : PinPool) : Event PinOp Arrived → Prop
  | .start (.unlock _) => UnlocksSettled P
  | _ => True

/-- The wrong PINs after one more milestone. -/
def countWrong (wrong : ℕ) : PinEvent → ℕ
  | .set => 0
  | .unlocked => 0
  | .tested test => if test.wrong=true then wrong+1 else wrong

/-- Wrong PINs tested since the last new PIN or successful unlock. -/
def wrongSince (history : List PinEvent) : ℕ := history.foldl countWrong 0

@[simp] theorem wrongSince_append (history : List PinEvent) (e : PinEvent) :
    wrongSince (history++[e])=countWrong (wrongSince history) e := by
  rw [wrongSince,List.foldl_append]
  rfl

/-- The guard that localStorage implements. -/
def guardOf (s : WebState) : Guard :=
  ⟨s.storage.pinBlob.isSome,s.storage.pinAttempts,wrongSince s.pinHistory⟩

section Protocols

/-- The calls of `unlockWithPin`. -/
def unlockAllowed : Phase → WebCall → Prop
  | .fresh,.pinBlob => True
  | .found,.pinAttempts => True
  | .ready _,.tested _ => True
  | .ready seen,.setPinAttempts used => used=seen+1 ∧ used<MAX_ATTEMPTS
  | .tried seen,.setPinAttempts used => used=seen+1 ∧ used<MAX_ATTEMPTS
  | .ready _,.removePinBlob => True
  | .tried _,.removePinBlob => True
  | .wiping,.removePinAttempts => True
  | .tried _,.removePinAttempts => True
  | .tried _,.pinUnlocked => True
  | _,_ => False

/-- The phases they lead to. -/
def unlockNext : Phase → ∀ c,WebCall.Answer c → Phase
  | .fresh,.pinBlob,blob => if blob.isSome=true then .found else .free
  | .found,.pinAttempts,stored => .ready (stored.getD 0)
  | .ready seen,.tested _,_ => .tried seen
  | .ready _,.removePinBlob,_ => .wiping
  | .tried _,.removePinBlob,_ => .wiping
  | .tried seen,.removePinAttempts,_ => .tried seen
  | _,_,_ => .free

/-- The protocol of `unlockWithPin`. -/
def unlockProtocol : Protocol WebCall WebCall.Answer Arrived Phase :=
  ⟨unlockAllowed,unlockNext,Phase.Parked,fun _ => True⟩

/-- Where `setPin` and `removePin` stand inside their last segment. -/
inductive Side where
  /-- Nothing is changed. -/
  | rest
  /-- The counter is removed and the new entry comes next. -/
  | clearing
  /-- The entry is removed and the counter comes next. -/
  | disarmed

/-- The calls of `setPin` and `removePin`. -/
def sideAllowed : Side → WebCall → Prop
  | .rest,.randomBytes _ => True
  | .rest,.removePinAttempts => True
  | .clearing,.setPinBlob _ _ _ => True
  | .rest,.removePinBlob => True
  | .disarmed,.removePinAttempts => True
  | _,_ => False

/-- The phases they lead to. -/
def sideNext : Side → ∀ c,WebCall.Answer c → Side
  | .rest,.removePinAttempts,_ => .clearing
  | .rest,.removePinBlob,_ => .disarmed
  | _,_,_ => .rest

/-- The protocol of `setPin` and `removePin`, which suspend at rest only. -/
def sideProtocol : Protocol WebCall WebCall.Answer Arrived Side :=
  ⟨sideAllowed,sideNext,fun ph => ph=.rest,fun _ => True⟩

/-- What holds of localStorage. Inside the last segment of another operation
it holds again of what that segment will leave. -/
def PinSound (q : Phase) : Side → WebState → Prop
  | .rest,s => Sound MAX_ATTEMPTS q (guardOf s)
  | .clearing,s => s.storage.pinAttempts=none ∧ Sound MAX_ATTEMPTS q ⟨true,none,0⟩
  | .disarmed,s => s.storage.pinBlob=none ∧ Sound MAX_ATTEMPTS q ⟨false,none,wrongSince s.pinHistory⟩

/-- A test adds at most one wrong PIN. -/
theorem countWrong_tested (wrong : ℕ) (test : PinTest) : countWrong wrong (.tested test)≤wrong+1 := by
  rw [countWrong]
  split
  · exact Nat.le_refl _
  · exact Nat.le_succ _

/-- Every call of `unlockWithPin` leads to what its next phase says. -/
theorem unlock_call (q : Phase) (c : WebCall) (s : WebState)
    (h : Sound MAX_ATTEMPTS q (guardOf s)) (hc : unlockAllowed q c) :
    Sound MAX_ATTEMPTS (unlockNext q c (exec c s).1) (guardOf (exec c s).2) := by
  cases q with
  | free => cases c <;> exact absurd hc id
  | won => cases c <;> exact absurd hc id
  | fresh =>
    cases c with
    | pinBlob =>
      change Sound MAX_ATTEMPTS (if s.storage.pinBlob.isSome=true then .found else .free) (guardOf s)
      split
      · rename_i hblob
        exact ⟨h.1,h.2,hblob⟩
      · exact h
    | _ => exact absurd hc id
  | found =>
    cases c with
    | pinAttempts => exact Sound.read h
    | _ => exact absurd hc id
  | ready seen =>
    cases c with
    | tested test =>
      have hguess := Sound.guess h (countWrong_tested (wrongSince s.pinHistory) test)
      rw [←wrongSince_append] at hguess
      exact hguess
    | setPinAttempts used =>
      obtain ⟨rfl,hlt⟩ := hc
      exact Sound.record (.inl h) hlt
    | removePinBlob => exact ⟨h.bounded,rfl⟩
    | _ => exact absurd hc id
  | tried seen =>
    cases c with
    | setPinAttempts used =>
      obtain ⟨rfl,hlt⟩ := hc
      exact Sound.record (.inr h) hlt
    | removePinBlob => exact ⟨h.bounded,rfl⟩
    | removePinAttempts =>
      have hpos : 0<MAX_ATTEMPTS := by decide
      exact ⟨⟨hpos,h.1.2⟩,h.2⟩
    | pinUnlocked =>
      have hwin := Sound.restart (Sound.win h) h.bounded.1
      have hzero : wrongSince (s.pinHistory++[PinEvent.unlocked])=0 := wrongSince_append _ _
      change Sound MAX_ATTEMPTS .free ⟨_,_,wrongSince (s.pinHistory++[PinEvent.unlocked])⟩
      rw [hzero]
      exact hwin
    | _ => exact absurd hc id
  | wiping =>
    cases c with
    | removePinAttempts =>
      have hwiped := Sound.wipe h
      have hblob : s.storage.pinBlob.isSome=false := h.2
      change Sound MAX_ATTEMPTS .free ⟨s.storage.pinBlob.isSome,none,wrongSince s.pinHistory⟩
      rw [hblob]
      exact hwiped
    | _ => exact absurd hc id

/-- Every call of `setPin` and `removePin` leaves a guess in flight sound. -/
theorem side_call (q : Phase) (ph : Side) (c : WebCall) (s : WebState)
    (hq : q=.free ∨ q.Parked) (h : PinSound q ph s) (hc : sideAllowed ph c) :
    PinSound q (sideNext ph c (exec c s).1) (exec c s).2 := by
  cases ph with
  | rest =>
    cases c with
    | randomBytes n => exact h
    | removePinAttempts => exact ⟨rfl,Sound.arm hq h rfl⟩
    | removePinBlob => exact ⟨rfl,Sound.disarm hq h⟩
    | _ => exact absurd hc id
  | clearing =>
    cases c with
    | setPinBlob blob pin issued =>
      have hzero : wrongSince (s.pinHistory++[PinEvent.set])=0 := wrongSince_append _ _
      change Sound MAX_ATTEMPTS q ⟨true,s.storage.pinAttempts,wrongSince (s.pinHistory++[PinEvent.set])⟩
      rw [hzero,h.1]
      exact h.2
    | _ => exact absurd hc id
  | disarmed =>
    cases c with
    | removePinAttempts =>
      have hsound := h.2
      change Sound MAX_ATTEMPTS q ⟨s.storage.pinBlob.isSome,none,wrongSince s.pinHistory⟩
      rw [h.1]
      exact hsound
    | _ => exact absurd hc id

section Texts

variable {κ α : Type} {R : Protocol WebCall WebCall.Answer Arrived κ} {Q : κ → α → Prop} {E : κ → Prop}

/-- A platform promise stays in its phase. -/
theorem settles_follows {q : κ} (hq : R.parks q) {result : Option α}
    (hQ : ∀ a,result=some a → Q q a) (hE : E q) : Follows R Q E (settles result) q := by
  refine ⟨hq,fun i _ => ?_⟩
  dsimp only [Script.bind]
  cases i.value with
  | rejected message => exact hE
  | _ =>
    cases result with
    | none => exact hE
    | some a => exact hQ a rfl

/-- So does the derivation of a PIN key. -/
theorem derivePinKey_follows {Q : κ → Bytes → Prop} {q : κ} (hq : R.parks q) (pin : Text)
    (salt : Bytes) (iterations : ℕ) (hQ : ∀ key,Q q key) (hE : E q) :
    Follows R Q E (derivePinKey platform pin salt iterations) q := by
  have hmid : Follows R (fun q' _ => q'=q) E (settles (some ())) q :=
    settles_follows hq (fun _ _ => rfl) hE
  refine hmid.bind fun q' _ hq' => ?_
  subst hq'
  exact settles_follows hq (fun key _ => hQ key) hE

end Texts

/-- The failure branch records the attempt or removes the PIN. -/
theorem pinFailure_follows {α : Type} {seen : ℕ} {q : Phase} (hq : q=.ready seen ∨ q=.tried seen) :
    Returns unlockProtocol .free (pinFailure seen : Web α) q := by
  unfold pinFailure
  dsimp only
  split
  · rcases hq with rfl|rfl
    · exact ⟨trivial,fun _ => ⟨trivial,fun _ => rfl⟩⟩
    · exact ⟨trivial,fun _ => ⟨trivial,fun _ => rfl⟩⟩
  · rename_i hlt
    rcases hq with rfl|rfl
    · exact ⟨⟨rfl,Nat.lt_of_not_le hlt⟩,fun _ => rfl⟩
    · exact ⟨⟨rfl,Nat.lt_of_not_le hlt⟩,fun _ => rfl⟩

/-- The guarded part starts with the counter read and ends with it cleared,
or rejects before or after its test. -/
theorem openPinBlob_follows (pin : Text) (blob : PinBlob) (seen : ℕ) :
    Follows unlockProtocol (fun q _ => q=.free) (fun q => q=.ready seen ∨ q=.tried seen)
      (openPinBlob platform pin blob) (.ready seen) := by
  refine Follows.bind (Q:=fun q _ => q=.ready seen)
    (derivePinKey_follows trivial pin _ _ (fun _ => rfl) (.inl rfl)) fun q key hq => ?_
  subst hq
  refine ⟨trivial,fun _ => ?_⟩
  change Follows unlockProtocol _ _ (Script.bind (settles _) _) (.tried seen)
  refine Follows.bind (Q:=fun q _ => q=.tried seen)
    (settles_follows trivial (fun _ _ => rfl) (.inr rfl)) fun q bytes hq => ?_
  subst hq
  refine ⟨trivial,fun _ => ?_⟩
  cases symKeyFromBytes bytes with
  | error message => exact .inr rfl
  | ok userKey => exact ⟨trivial,fun _ => rfl⟩

/-- `unlockWithPin` follows its protocol. -/
theorem unlockWithPin_follows (pin : Text) :
    Returns unlockProtocol .free (unlockWithPin platform pin) .fresh := by
  refine ⟨trivial,fun blob => ?_⟩
  cases blob with
  | none => exact rfl
  | some blob =>
    refine ⟨trivial,fun stored => ?_⟩
    exact (openPinBlob_follows pin blob _).rescue fun q e hq => pinFailure_follows hq

/-- `setPin` and `removePin` follow theirs. -/
theorem setPin_follows (pin : Text) (key : SymKey) :
    Returns sideProtocol .rest (setPin platform pin (.owned key)) .rest := by
  unfold setPin
  split
  · refine ⟨trivial,fun salt => ⟨trivial,fun iv => ?_⟩⟩
    change Follows sideProtocol _ _ (Script.bind (derivePinKey platform pin salt ITERATIONS) _) .rest
    refine Follows.bind (Q:=fun q _ => q=.rest)
      (derivePinKey_follows rfl pin _ _ (fun _ => rfl) rfl) fun q pinKey hq => ?_
    subst hq
    change Follows sideProtocol _ _ (Script.bind
      (settles (some (platform.aesGcmEncrypt pinKey iv (key.encKey++key.macKey)))) _) .rest
    refine Follows.bind (Q:=fun q _ => q=.rest)
      (settles_follows rfl (fun _ _ => rfl) rfl) fun q wrapped hq => ?_
    subst hq
    exact ⟨trivial,fun _ => ⟨trivial,fun _ => rfl⟩⟩
  · exact rfl

/-- PIN guesses run one at a time. -/
def pinDiscipline (platform : Platform) : Discipline (pinSystem platform) Phase Side where
  leads := PinOp.unlocks
  lead := unlockProtocol
  free := .free
  first := .fresh
  other := sideProtocol
  rest := .rest
  A := PinSound
  free_parks := id
  rest_parks _ h := h
  rest_arrives _ := trivial
  first_of_free _ h := h
  lead_call := unlock_call
  other_call := side_call
  lead_body op hop := by
    cases op with
    | unlock pin => exact Follows.bind (unlockWithPin_follows pin) fun q _ hq => hq
    | set pin key => cases hop
    | remove => cases hop
  other_body op hop := by
    cases op with
    | unlock pin => exact absurd trivial hop
    | set pin key => exact setPin_follows pin key
    | remove => exact ⟨trivial,fun _ => ⟨trivial,fun _ => rfl⟩⟩

end Protocols

/-- The milestone that a call adds to the history. -/
def milestone : WebCall → List PinEvent
  | .setPinBlob _ _ _ => [.set]
  | .tested test => [.tested test]
  | .pinUnlocked => [.unlocked]
  | _ => []

theorem exec_pinHistory (c : WebCall) (s : WebState) :
    (exec c s).2.pinHistory=s.pinHistory++milestone c := by
  cases c with
  | setPinBlob blob pin issued => rfl
  | tested test => rfl
  | pinUnlocked => rfl
  | clearSessionKey =>
    dsimp only [exec,WebState.clearSessionKey,milestone]
    split <;> exact (List.append_nil _).symm
  | _ => exact (List.append_nil _).symm

/-- Only a new PIN stores an entry. -/
theorem exec_pinBlob {c : WebCall} (hc : .set∉ milestone c) {s : WebState}
    (h : s.storage.pinBlob=none) : (exec c s).2.storage.pinBlob=none := by
  cases c with
  | setPinBlob blob pin issued => exact absurd List.mem_cons_self hc
  | removePinBlob => rfl
  | clearSessionKey =>
    dsimp only [exec,WebState.clearSessionKey]
    split <;> exact h
  | _ => exact h

/-- A milestone is a test. -/
def IsTest (e : PinEvent) : Prop := ∃ test,e=.tested test

/-- No answer shows a PIN entry. -/
def SeesNoPin : ∀ c,WebCall.Answer c → Prop
  | .pinBlob,blob => blob=none
  | _,_ => True

/-- `setPin` and `removePin` test nothing. -/
theorem sideAllowed_untested (ph : Side) (c : WebCall) (hc : sideAllowed ph c) :
    ∀ e∈milestone c,¬IsTest e := by
  rintro e he ⟨test,rfl⟩
  cases c with
  | tested test' => cases ph <;> exact hc
  | setPinBlob blob pin issued => cases List.mem_singleton.mp he
  | pinUnlocked => cases ph <;> exact hc
  | _ => cases he

/-- Without a stored PIN no operation tests one. -/
theorem pinBody_untested (platform : Platform) (op : PinOp) :
    (pinBody platform op).Obeys (fun c => ∀ e∈milestone c,¬IsTest e) SeesNoPin fun _ => True := by
  cases op with
  | unlock pin =>
    refine ⟨fun e he => absurd he List.not_mem_nil,fun blob hblob => ?_⟩
    cases (hblob : blob=none)
    trivial
  | set pin key => exact Follows.obeys sideAllowed_untested (fun _ => trivial) (setPin_follows pin key)
  | remove =>
    exact Follows.obeys sideAllowed_untested (fun _ => trivial)
      ((pinDiscipline platform).other_body .remove id)

/-- A device without a PIN is locked out until one is set. -/
def pinLockout (platform : Platform) : Lockout (pinSystem platform) PinEvent where
  history := WebState.pinHistory
  milestones := milestone
  Safe s := s.storage.pinBlob=none
  Lifts e := e=.set
  Bad := IsTest
  post := SeesNoPin
  history_exec := exec_pinHistory
  safe_exec _ _ hs hc := exec_pinBlob (fun hmem => hc _ hmem rfl) hs
  post_exec c s hs := by
    cases c with
    | pinBlob => exact hs
    | _ => trivial
  body := pinBody_untested platform

/-- In every discipline state the wrong PINs stay within the limit. -/
theorem solo_bounded {P : PinPool} (h : (pinDiscipline platform).Solo P) :
    wrongSince P.shared.pinHistory≤MAX_ATTEMPTS := by
  have hsound : ∃ q,Sound MAX_ATTEMPTS q (guardOf P.shared) := by
    cases h with
    | idle shared => exact ⟨.free,shared⟩
    | busy n t q found leads parks shared => exact ⟨q,shared⟩
  obtain ⟨q,hq⟩ := hsound
  exact hq.bounded.2

/-- In every run from a device without a PIN in which `unlockWithPin` is
called one at a time: since the last new PIN or successful unlock at most
five wrong PINs were tested, and when the fifth has been counted the entry
and the counter are gone and no later call, in any order, tests a PIN before
a new one is set. -/
theorem pin_guesses_bounded (platform : Platform) (auth : AuthState) (device : Option Text)
    (origin : Text) (entropy : ℕ → UInt8) (events : List (Event PinOp Arrived))
    (hok : (pinSystem platform).Admits OneUnlock
      ⟨.loaded auth ⟨none,none,device⟩ origin entropy,[]⟩ events)
    (P : PinPool)
    (hP : P=(pinSystem platform).run ⟨.loaded auth ⟨none,none,device⟩ origin entropy,[]⟩ events) :
    wrongSince P.shared.pinHistory≤MAX_ATTEMPTS ∧
      (UnlocksSettled P → wrongSince P.shared.pinHistory=MAX_ATTEMPTS →
        P.shared.storage.pinBlob=none ∧ P.shared.storage.pinAttempts=none ∧
        ∀ later added,((pinSystem platform).run P later).shared.pinHistory=P.shared.pinHistory++added →
          .set∉added → ∀ test,.tested test∉added) := by
  have hsolo : (pinDiscipline platform).Solo P := by
    rw [hP]
    refine Discipline.Solo.run ?_ (hok.mono fun P e he => ?_)
    · have hpos : 0<MAX_ATTEMPTS := by decide
      exact .idle ⟨⟨hpos,Nat.zero_le _⟩,covers_of_wrong_zero rfl⟩
        fun t ht => absurd ht List.not_mem_nil
    · cases e with
      | start op =>
        cases op with
        | unlock pin => exact fun _ => he
        | _ => exact fun h => absurd h id
      | resume n i => exact fun _ _ _ => trivial
  refine ⟨solo_bounded hsolo,fun hsettled hwrong => ?_⟩
  obtain ⟨hsound,hrest⟩ := hsolo.free hsettled
  obtain ⟨harmed,hused⟩ := Sound.exhausted hsound hwrong
  have hblob : P.shared.storage.pinBlob=none := by simpa [guardOf] using harmed
  have hharmless : ∀ t∈P.threads,Harmless (pinLockout platform) t.rest := fun t ht =>
    Follows.obeys sideAllowed_untested (fun _ => trivial) (hrest t ht)
  refine ⟨hblob,hused,fun later added hadded hset test htest => ?_⟩
  refine Lockout.run (L:=pinLockout platform) hblob hharmless later hadded ?_ _ htest ⟨test,rfl⟩
  rintro e he rfl
  exact hset he

section Samples

/-- An arrival of a platform promise. -/
def settleAt (n : ℕ) : Event PinOp Arrived := .resume n ⟨[],.settled⟩

/-- A device without a PIN. -/
def freshDevice : PinPool := ⟨.loaded .initial ⟨none,none,none⟩ [] fun _ => 0,[]⟩

/-- A PIN is set. -/
def pinStored : List (Event PinOp Arrived) :=
  [.start (.set "1234".toList sampleKey),settleAt 0,settleAt 0,settleAt 0]

/-- Six tabs test a wrong PIN at the same time. -/
def sixAtOnce : List (Event PinOp Arrived) :=
  pinStored++List.replicate 6 (Event.start (PinOp.unlock "0000".toList))++
    [1,2,3,4,5,6].flatMap fun n => [settleAt n,settleAt n]

/-- Six wrong PINs are tested, and the entry is still there. -/
theorem six_wrong_pins_tested :
    wrongSince ((pinSystem transparent).run freshDevice sixAtOnce).shared.pinHistory=6 ∧
      ((pinSystem transparent).run freshDevice sixAtOnce).shared.storage.pinBlob≠none := by
  decide

/-- One wrong attempt from start to end. -/
def wrongAttempt (n : ℕ) : List (Event PinOp Arrived) :=
  [.start (.unlock "0000".toList),settleAt n,settleAt n,settleAt n]

/-- Five of them, one after the other. -/
def fiveInTurn : List (Event PinOp Arrived) := pinStored++[1,2,3,4,5].flatMap wrongAttempt

theorem fiveInTurn_alone : (pinSystem transparent).Admits OneUnlock freshDevice fiveInTurn := by
  have hseq : (pinSystem transparent).sequential freshDevice fiveInTurn=true := by decide
  refine System.sequential_admits (fun P op hP => ?_) (fun _ _ _ _ => trivial) hseq
  cases op with
  | unlock pin => exact fun t ht _ => hP t ht
  | _ => trivial

theorem fiveInTurn_settled :
    ∀ t∈((pinSystem transparent).run freshDevice fiveInTurn).threads,t.rest.settled=true := by
  decide

theorem fiveInTurn_wrong :
    wrongSince ((pinSystem transparent).run freshDevice fiveInTurn).shared.pinHistory=MAX_ATTEMPTS := by
  decide

theorem pin_guesses_bounded_sample :
    ((pinSystem transparent).run freshDevice fiveInTurn).shared.storage.pinBlob=none ∧
      ((pinSystem transparent).run freshDevice fiveInTurn).shared.storage.pinAttempts=none := by
  have hbound := (pin_guesses_bounded transparent .initial none [] (fun _ => 0) fiveInTurn
    fiveInTurn_alone _ rfl).2 (fun t ht _ => fiveInTurn_settled t ht) fiveInTurn_wrong
  exact ⟨hbound.1,hbound.2.1⟩

end Samples

end NadSafe.WebPin
