import NadSafe.GroupIsolation
import NadSafe.SecondFactors
import NadSafe.TracedRuns

/-!
# One-time codes under interleaving

Any number of calls of `validate_totp_code` for one account and one secret,
between the statements of each other, and a clock that goes on. As long as no
call stores a time step while another one is in flight, the accepted steps
increase. Two calls that overlap may accept one step twice.
-/

namespace NadSafe.TotpRuns

open HostText TableRows AsyncScript AsyncScript.Script ScriptPool ServerTables StoreScript ServerModels
open SecondFactors RelyScript TracedRuns

/-- The last time step of an account that was used. -/
def lastUsed (user : Uuid) (t : Tables) : ℤ :=
  match TwoFactor.findByUserAndType t user Authenticator with
  | some f => f.lastUsed
  | none => 0

/-- No time step was stored. -/
def SameStep (user : Uuid) (db db' : Database) : Prop := lastUsed user db'.toTables=lastUsed user db.toTables

/-- What runs. -/
inductive Operation where
  /-- `validate_totp_code`. -/
  | validate (code : Text)
  /-- Time passes. -/
  | tick (seconds : ℕ)

/-- The handler of an operation. -/
def Operation.body (settings : FactorSettings) (user : Uuid) (secret : Text) :
    Operation → Action (Option Acceptance)
  | .validate code => do
    let accepted ← validateTotpCode settings user code secret
    pure (some accepted)
  | .tick seconds => do
    SecondFactors.tick seconds
    pure none

/-- The server with these operations. -/
def server (settings : FactorSettings) (user : Uuid) (secret : Text) :
    System (Statement Database) Statement.Answer Unit String (Option Acceptance) Database Operation :=
  ⟨exec,Operation.body settings user secret⟩

/-- What an accepted code shows: it belongs to the secret and a time step
within one step of the clock that the call has read. -/
structure Genuine (settings : FactorSettings) (secret code : Text) (a : Acceptance) : Prop where
  /-- The code. -/
  code : ∃ decoded,settings.base32Decode secret=some decoded ∧ settings.hotp decoded a.timeStep.toNat=code
  /-- At most one step before the clock. -/
  after : a.timestamp/30-1≤a.timeStep
  /-- At most one step ahead of it. -/
  before : a.timeStep≤a.timestamp/30+1

section Codes

variable {settings : FactorSettings} {secret : Bytes} {code : Text} {timestamp last : ℤ}

/-- The steps that are tried are next to the current one. -/
theorem mem_steps {d : ℤ} (h : d∈settings.steps) : -1≤d ∧ d≤1 := by
  unfold FactorSettings.steps at h
  split at h <;> simp at h <;> omega

/-- The counter of a time step. -/
theorem counter_eq {d : ℤ} (htime : 0≤timestamp) (hstep : 0≤timestamp/30+d) :
    castUnsigned (timestamp+d*30)/30=(timestamp/30+d).toNat := by
  have hpos : 0≤timestamp+d*30 := by omega
  unfold castUnsigned
  rw [if_pos hpos]
  omega

/-- An accepted step is new and gives the code. -/
theorem acceptedStep_sound {steps : List ℤ} {s : ℤ} (htime : 0≤timestamp) (hlast : 0≤last)
    (hsteps : ∀ d∈steps,-1≤d ∧ d≤1)
    (h : acceptedStep settings secret code timestamp last steps=some s) :
    last< s ∧ settings.hotp secret s.toNat=code ∧ timestamp/30-1≤ s ∧ s≤timestamp/30+1 := by
  induction steps with
  | nil => cases h
  | cons d steps ih =>
    have hdiv : timestamp.tdiv 30=timestamp/30 := Int.tdiv_eq_ediv_of_nonneg htime
    unfold acceptedStep at h
    rw [hdiv] at h
    dsimp only at h
    split at h
    · rename_i hcode
      split at h
      · rename_i hnew
        cases h
        have hd := hsteps d List.mem_cons_self
        have hcounter := counter_eq (d:=d) htime (by omega)
        unfold FactorSettings.totpCustom at hcode
        rw [hcounter] at hcode
        exact ⟨hnew,hcode,by omega,by omega⟩
      · cases h
    · exact ih (fun d hd => hsteps d (List.mem_cons_of_mem _ hd)) h

end Codes

/-- The clock and the stored step are not before their start. -/
def Sound (user : Uuid) (db : Database) : Prop := 0≤db.now ∧ 0≤lastUsed user db.toTables

/-- The stored step is the same and the clock has gone on. -/
structure Same (user : Uuid) (db db' : Database) : Prop where
  /-- The step. -/
  step : lastUsed user db'.toTables=lastUsed user db.toTables
  /-- The clock. -/
  clock : db.now≤db'.now

/-- What an accepting call has done with its last statement. -/
structure Takes (settings : FactorSettings) (user : Uuid) (secret code : Text) (a : Acceptance)
    (db db' : Database) : Prop where
  /-- The code. -/
  genuine : Genuine settings secret code a
  /-- The step is new. -/
  later : lastUsed user db.toTables<a.timeStep
  /-- It is stored. -/
  stored : lastUsed user db'.toTables=a.timeStep
  /-- The clock stands still. -/
  clock : db.now≤db'.now

/-- The guarantee of an operation that returns. -/
def Returned (settings : FactorSettings) (user : Uuid) (secret : Text) :
    Operation → Option Acceptance → Database → Database → Prop
  | .validate code,some a,db,db' => Takes settings user secret code a db db'
  | .tick _,none,db,db' => Same user db db'
  | _,_,_,_ => False

section Handlers

variable {settings : FactorSettings} {user : Uuid} {secret code : Text} {db db₀ : Database}

theorem Same.refl (db : Database) : Same user db db := ⟨rfl,Int.le_refl _⟩

theorem Same.trans {a b c : Database} (h : Same user a b) (h' : Same user b c) : Same user a c :=
  ⟨h'.step.trans h.step,Int.le_trans h.clock h'.clock⟩

theorem Sound.same {db' : Database} (h : Sound user db) (hs : Same user db db') : Sound user db' := by
  refine ⟨Int.le_trans h.1 hs.clock,?_⟩
  rw [hs.step]
  exact h.2

/-- The time passes without another effect. -/
theorem bears_tick {seconds : ℕ} :
    Bears exec (Same user) (Same user) (Returned settings user secret (.tick seconds))
      (Operation.body settings user secret (.tick seconds)) db db := by
  have htick : Bears exec (Same user) (Same user) (fun _ db db' => Same user db db')
      (SecondFactors.tick seconds) db db := by
    refine Bears.execute (Same.refl db) fun db₁ _ => ⟨fun db₂ hc => ?_,Same.refl db₁⟩
    have heq := commit_eq hc
    refine ⟨?_,?_⟩
    · rw [heq]
      rfl
    · have hnow : db₂.now=db₁.now+seconds := congrArg Tables.now heq
      omega
  exact htick.bind fun _ _ _ h => h

/-- A row of the account with the stored step. -/
structure Matches (user : Uuid) (f : TwoFactor) (t : Tables) : Prop where
  /-- The account. -/
  userUuid : f.userUuid=user
  /-- The type. -/
  atype : f.atype=Authenticator
  /-- The step. -/
  step : f.lastUsed=lastUsed user t

theorem Matches.same {f : TwoFactor} {db' : Database} (h : Matches user f db.toTables)
    (hs : Same user db db') : Matches user f db'.toTables :=
  ⟨h.userUuid,h.atype,h.step.trans hs.step.symm⟩

/-- The check accepts a new step of the secret, or changes nothing. -/
theorem bears_check {decoded : Bytes} {f : TwoFactor} (hdecoded : settings.base32Decode secret=some decoded)
    (hdb : Sound user db) (hf : Matches user f db.toTables) (hs : Same user db₀ db) :
    Bears exec (Same user) (Same user) (fun a db db' => Takes settings user secret code a db db')
      (checkTotp settings decoded code f) db₀ db := by
  -- the clock is read in the segment that has found the row
  refine Bears.expect hs fun timeStep hstep => ?_
  have hlast : 0≤f.lastUsed := hf.step ▸ hdb.2
  obtain ⟨hnew,hcode,hafter,hbefore⟩ := acceptedStep_sound hdb.1 hlast (fun d hd => mem_steps hd) hstep
  have hsave : Bears exec (Same user) (Same user)
      (fun _ db' db'' => Takes settings user secret code ⟨db.now,timeStep⟩ db' db'')
      (TwoFactor.save {f with lastUsed := timeStep}) db₀ db := by
    refine Bears.execute hs fun db₂ hs₂ => ⟨fun db₃ hc => ?_,Same.refl db₂⟩
    have heq := commit_eq hc
    have hrows : db₃.twofactor=TwoFactor.saved {f with lastUsed := timeStep} db₂.twofactor := by rw [heq]
    have hclock : db₃.now=db₂.now := by rw [heq]
    have hfound := find_saved hrows
    refine ⟨⟨⟨decoded,hdecoded,hcode⟩,hafter,hbefore⟩,?_,?_,Int.le_of_eq hclock.symm⟩
    · rw [← (hf.same hs₂).step]
      exact hnew
    · unfold lastUsed
      rw [← hf.userUuid,← hf.atype,hfound]
  exact hsave.bind fun _ _ _ h => h

/-- The row is the stored one, or a new one. -/
theorem bears_row (hdb : Sound user db) (hs : Same user db₀ db) :
    Bears exec (Same user) (Same user) (fun f db₀ db => Sound user db ∧ Matches user f db.toTables ∧
      Same user db₀ db) (authenticatorFor user secret) db₀ db := by
  refine Bears.query hs fun db₁ hs₁ => ?_
  have hdb₁ := hdb.same hs₁
  dsimp only
  cases hfound : TwoFactor.findByUserAndType db₁.toTables user Authenticator with
  | some f =>
    obtain ⟨-,huser,htype⟩ := mem_of_findByUserAndType hfound
    refine ⟨hdb₁,⟨huser,htype,?_⟩,Same.refl db₁⟩
    unfold lastUsed
    rw [hfound]
  | none =>
    refine Bears.draw (Same.refl db₁) fun db₂ hs₂ => ?_
    have hdrawn : Same user db₂ db₂.drawn := ⟨rfl,Int.le_refl _⟩
    refine ⟨(hdb₁.same hs₂).same hdrawn,⟨rfl,rfl,?_⟩,hdrawn⟩
    rw [(hs₂.trans hdrawn).step]
    unfold lastUsed
    rw [hfound]
    rfl

/-- A call accepts a new step of the secret, or changes nothing. -/
theorem bears_validate (hdb : Sound user db) :
    Bears exec (Same user) (Same user) (Returned settings user secret (.validate code))
      (Operation.body settings user secret (.validate code)) db db := by
  have hcall : Bears exec (Same user) (Same user) (fun a db db' => Takes settings user secret code a db db')
      (validateTotpCode settings user code secret) db db := by
    refine Bears.expect (Same.refl db) fun decoded hdecoded => ?_
    refine (bears_row hdb (Same.refl db)).bind fun f db₁ db₂ ⟨hdb₂,hf,hs⟩ => ?_
    exact bears_check hdecoded hdb₂ hf hs
  exact hcall.bind fun _ _ _ h => h

end Handlers

section Runs

variable {settings : FactorSettings} {user : Uuid} {secret : Text} {start : Database}

/-- The step that an operation has accepted with a move. -/
def accepted (m : Move String (Option Acceptance) Database Operation) : Option Acceptance :=
  match m.result with
  | some (.ok a) => a
  | _ => none

/-- Each time step is accepted at most once, the stored step never decreases,
and every accepted code belongs to the secret. -/
structure ReplaySafe (settings : FactorSettings) (user : Uuid) (secret : Text)
    (moves : List (Move String (Option Acceptance) Database Operation)) : Prop where
  /-- One acceptance for each step. -/
  once : ((moves.filterMap accepted).map Acceptance.timeStep).Nodup
  /-- The stored step. -/
  monotone : ∀ m∈moves,lastUsed user m.before.toTables≤lastUsed user m.after.toTables
  /-- The codes. -/
  genuine : ∀ m∈moves,∀ a,accepted m=some a → ∃ code,m.op=.validate code ∧ Genuine settings secret code a

/-- What a move shows. -/
abbrev Seen (settings : FactorSettings) (user : Uuid) (secret : Text)
    (m : Move String (Option Acceptance) Database Operation) : Prop :=
  Shows (Sound user) (fun _ => Same user) (Returned settings user secret) m

/-- A move that accepts nothing leaves the step, one that accepts raises it. -/
theorem Seen.cases {m : Move String (Option Acceptance) Database Operation}
    (h : Seen settings user secret m) :
    accepted m=none ∧ Same user m.before m.after ∨
      ∃ code a,m.op=.validate code ∧ accepted m=some a ∧
        Takes settings user secret code a m.before m.after := by
  by_cases hm : ∃ a,m.Returns a
  · obtain ⟨a,ha⟩ := hm
    have hreturned := h.returned ha
    have haccepted : accepted m=a := by
      unfold accepted
      rw [show m.result=some (.ok a) from ha]
    rw [haccepted]
    generalize m.op=op at hreturned ⊢
    match op,a,hreturned with
    | .validate code,some a,htakes => exact .inr ⟨code,a,rfl,rfl,htakes⟩
    | .tick _,none,hsame => exact .inl ⟨rfl,hsame⟩
  · have hsame := h.moved fun a ha => hm ⟨a,ha⟩
    refine .inl ⟨?_,hsame⟩
    unfold accepted
    split
    · rename_i a ha
      exact absurd ⟨a,ha⟩ hm
    · rfl

/-- A segment keeps the clock and the stored step sound. -/
theorem sound_of_ended {op : Operation} {p : Action (Option Acceptance)} {db db' : Database}
    (hdb : Sound user db) (h : Ended (Same user) (Returned settings user secret op) p db db') :
    Sound user db' ∧ db.now≤db'.now := by
  have hseen : Seen settings user secret ⟨op,db,db',resultOf p⟩ := shows_of_ended hdb h
  rcases hseen.cases with ⟨-,hsame⟩|⟨code,a,-,-,htakes⟩
  · exact ⟨hdb.same hsame,hsame.clock⟩
  · refine ⟨⟨Int.le_trans hdb.1 htakes.clock,?_⟩,htakes.clock⟩
    have hlater := htakes.later
    have hstored := htakes.stored
    have hstart := hdb.2
    dsimp only at hlater hstored
    omega

/-- The stored step is at least the last accepted one. -/
theorem chain_safe {s s' : Database} {moves : List (Move String (Option Acceptance) Database Operation)}
    (h : Chain (Seen settings user secret) s moves s') :
    ReplaySafe settings user secret moves ∧
      ∀ a∈moves.filterMap accepted,lastUsed user s.toTables<a.timeStep := by
  induction moves generalizing s with
  | nil => exact ⟨⟨List.nodup_nil,fun m hm => (by cases hm),fun m hm => (by cases hm)⟩,fun a ha => (by cases ha)⟩
  | cons m moves ih =>
    obtain ⟨rfl,hseen,hrest⟩ := h
    obtain ⟨hsafe,hlater⟩ := ih hrest
    rcases hseen.cases with ⟨hnone,⟨hstep,-⟩⟩|⟨code,a,hop,haccepted,htakes⟩
    · rw [hstep] at hlater
      refine ⟨⟨?_,?_,?_⟩,?_⟩
      · rw [List.filterMap_cons_none hnone]
        exact hsafe.once
      · exact List.forall_mem_cons.mpr ⟨Int.le_of_eq hstep.symm,hsafe.monotone⟩
      · refine List.forall_mem_cons.mpr ⟨fun a ha => ?_,hsafe.genuine⟩
        rw [hnone] at ha
        cases ha
      · rw [List.filterMap_cons_none hnone]
        exact hlater
    · rw [htakes.stored] at hlater
      refine ⟨⟨?_,?_,?_⟩,?_⟩
      · rw [List.filterMap_cons_some haccepted,List.map_cons,List.nodup_cons]
        refine ⟨fun hmem => ?_,hsafe.once⟩
        obtain ⟨b,hb,heq⟩ := List.mem_map.mp hmem
        have hlt := hlater b hb
        omega
      · refine List.forall_mem_cons.mpr ⟨?_,hsafe.monotone⟩
        rw [htakes.stored]
        exact Int.le_of_lt htakes.later
      · refine List.forall_mem_cons.mpr ⟨fun b hb => ?_,hsafe.genuine⟩
        rw [haccepted] at hb
        cases hb
        exact ⟨code,hop,htakes.genuine⟩
      · rw [List.filterMap_cons_some haccepted]
        refine List.forall_mem_cons.mpr ⟨htakes.later,fun b hb => ?_⟩
        exact Int.lt_trans htakes.later (hlater b hb)

/-- Every interleaving in which a step is stored only while no other call is
in flight accepts each time step at most once. -/
theorem totp_once (hclock : 0≤ start.now) (hstep : 0≤lastUsed user start.toTables)
    {events : List (Event Operation Unit)}
    (hrun : (server settings user secret).Admits
      (Undisturbed (server settings user secret) (SameStep user)) ⟨start,[]⟩ events) :
    ReplaySafe settings user secret (trace (server settings user secret) ⟨start,[]⟩ events) := by
  have hidle : Kept (server settings user secret) (Sound user) (Same user) (fun _ => Same user)
      (Returned settings user secret) ⟨start,[]⟩ := Kept.idle ⟨hclock,hstep⟩
  refine (chain_safe (chain_of_run hidle ?_ ?_ ?_ ?_ ?_ hrun)).1
  · intro op db hdb
    cases op with
    | validate code => exact bears_validate hdb
    | tick seconds => exact bears_tick
  · exact fun db _ => Same.refl db
  · exact fun a b c hab hbc => hab.trans hbc
  · exact fun op p db db' hdb h => (sound_of_ended hdb h).1
  · exact fun op p db db' hdb h hsame => ⟨hsame,(sound_of_ended hdb h).2⟩

end Runs

section Samples

/-- Settings with a code that counts. -/
def countingSettings : FactorSettings where
  toSettings := GroupIsolation.openSettings
  hashPassword := fun _ _ _ => []
  enableEmail2fa := true
  emailExpirationTime := 600
  emailAttemptsLimit := 3
  authenticatorDisableTimeDrift := false
  isWebauthn2faSupported := true
  base32Decode := fun _ => some []
  toUppercase := id
  isNumeric := fun _ => true
  hotp := fun _ n => List.replicate n '1'
  finishPasskeyRegistration := fun response _ => some response
  credId := id
  dataText := fun _ => []
  isOtherProviderUsable := fun _ _ => false

/-- An account with an authenticator, at the beginning of the third step. -/
def guarded : Database := ⟨{Tables.none with
  users := [User.new 1 0 [] 600000 ['a'] none]
  twofactor := [⟨2,1,Authenticator,true,.text [],0⟩]
  now := 60
  next := 3},by decide⟩

/-- An operation goes on by a number of statements. -/
def goesOn (n statements : ℕ) : List (Event Operation Unit) := List.replicate statements (.resume n ⟨[],()⟩)

/-- Two calls with one code read the stored step before one of them saves. -/
def overlapping : List (Event Operation Unit) :=
  [Event.start (Operation.validate ['1','1']),.start (.validate ['1','1'])]++goesOn 0 1++goesOn 1 1++goesOn 0 1++goesOn 1 1

/-- The second call comes after the first one. -/
def consecutive : List (Event Operation Unit) :=
  .start (.validate ['1','1'])::goesOn 0 2++.start (.validate ['1','1'])::goesOn 1 2

/-- Both calls accept the same time step. -/
theorem totp_twice : ¬ReplaySafe countingSettings 1 []
    (trace (server countingSettings 1 []) ⟨guarded,[]⟩ overlapping) := by
  intro h
  have hsteps : ((trace (server countingSettings 1 []) ⟨guarded,[]⟩ overlapping).filterMap accepted).map
      Acceptance.timeStep=[2,2] := by decide
  have honce := h.once
  rw [hsteps] at honce
  exact absurd honce (by decide)

/-- The second call is refused. -/
theorem totp_once_consecutive : ReplaySafe countingSettings 1 []
    (trace (server countingSettings 1 []) ⟨guarded,[]⟩ consecutive) := by
  have hsequential : (server countingSettings 1 []).Admits
      (Undisturbed (server countingSettings 1 []) (SameStep 1)) ⟨guarded,[]⟩ consecutive := by
    have hsame : ∀ db,SameStep 1 db db := fun _ => rfl
    have horder : (server countingSettings 1 []).sequential ⟨guarded,[]⟩ consecutive=true := by decide
    exact undisturbed_of_sequential (n:=0) hsame (fun m t ht => by simp at ht) horder
  exact totp_once (by decide) (by decide) hsequential

end Samples

end NadSafe.TotpRuns
