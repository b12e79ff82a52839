import NadSafe.TotpRuns
import NadSafe.ResponseScript
import NadSafe.TableWrites

/-!
# Guesses of an e-mail token

Login attempts that offer codes for the token of an e-mail factor, with the
record that each of them has read. Attempts that do not overlap compare a
token with no more wrong codes than the limit and accept it at most once.
Attempts that overlap write back older copies of the record.
-/

namespace NadSafe.EmailGuesses

open HostText TableRows AsyncScript AsyncScript.Script ScriptPool ServerTables StoreScript ServerModels
open OrgHandlers SecondFactors RelyScript TracedRuns ResponseScript TableWrites
open CipherHandlers (fromExcept)

/-- What runs. -/
inductive Operation where
  /-- A login with a code for the provider `Email`. -/
  | attempt (out : Outside) (code : Text)
  /-- Time passes. -/
  | tick (seconds : ℕ)

/-- The handler of an operation. -/
def Operation.body (settings : FactorSettings) (user : User) : Operation → Action Unit
  | .attempt out code => twofactorAuthEmail settings out user code
  | .tick seconds => SecondFactors.tick seconds

/-- The server with these operations. -/
def server (settings : FactorSettings) (user : User) :
    System (Statement Database) Statement.Answer Unit String (Except String Unit) Database Operation :=
  ⟨exec,fun op => respond (op.body settings user)⟩

/-- One move of these operations. -/
abbrev Step := Move String (Except String Unit) Database Operation

/-- An attempt has been refused because its code is wrong. -/
def isWrong (m : Step) : Bool :=
  match m.op,response m with
  | .attempt _ _,some (.error e) => e="Token is invalid!"
  | _,_ => false

/-- An attempt has been accepted. -/
def isAccepted (m : Step) : Bool :=
  match m.op,response m with
  | .attempt _ _,some (.ok _) => true
  | _,_ => false

/-- No more wrong codes than the limit, and one acceptance at most. -/
structure Bounded (settings : FactorSettings) (moves : List Step) : Prop where
  /-- Wrong codes. -/
  wrong : moves.countP isWrong≤ settings.emailAttemptsLimit.val
  /-- Acceptances. -/
  accepted : moves.countP isAccepted≤1

/-- The data of the e-mail factor. -/
def record (user : Uuid) (db : Database) : Option TwoFactorData :=
  (TwoFactor.findByUserAndType db.toTables user TwoFactor.Email).map ServerTables.TwoFactor.data

/-- The wrong codes that a record allows. -/
def guessesLeft (settings : FactorSettings) : Option TwoFactorData → ℕ
  | some (.emailToken data) =>
    if data.lastToken=none then 0 else max 1 (settings.emailAttemptsLimit.val-data.attempts)
  | _ => 0

/-- The acceptances that a record allows. -/
def tokensLeft : Option TwoFactorData → ℕ
  | some (.emailToken data) => if data.lastToken=none then 0 else 1
  | _ => 0

/-- The token was used up. -/
def Spent (user : Uuid) (db db' : Database) : Prop :=
  ∃ data,record user db=some (.emailToken data) ∧ data.lastToken≠none ∧
    record user db'=some (.emailToken (EmailTokenData.resetToken data))

/-- A wrong entry was counted. -/
def Missed (settings : FactorSettings) (user : Uuid) (db db' : Database) : Prop :=
  ∃ data,record user db=some (.emailToken data) ∧ data.lastToken≠none ∧
    record user db'=some (.emailToken (EmailTokenData.wrong settings data))

/-- What an attempt has done with its last statement. -/
def Answered (settings : FactorSettings) (user : Uuid) : Except String Unit → Database → Database → Prop
  | .ok _,db,db' => Spent user db db'
  | .error e,db,db' =>
    if e="Token is invalid!" then Missed settings user db db'
    else record user db'=record user db ∨ Spent user db db'

/-- The guarantee of an operation that has ended. -/
def Finished (settings : FactorSettings) (user : Uuid) :
    Operation → Except String Unit → Database → Database → Prop
  | .attempt _ _,r,db,db' => Answered settings user r db db'
  | .tick _,_,db,db' => record user db'=record user db

/-- The record is as it was. -/
def SameRecord (user : Uuid) (db db' : Database) : Prop := record user db'=record user db

section Handlers

variable {settings : FactorSettings} {user : Uuid} {db db₀ : Database}

/-- The factor of an account by its type. -/
theorem find_of_mem {f : TwoFactor} (hf : f∈db.twofactor) :
    TwoFactor.findByUserAndType db.toTables f.userUuid f.atype=some f := by
  have hfound := find?_key db.factor_nodup hf
  unfold TwoFactor.findByUserAndType
  rw [← hfound]
  congr 1
  funext g
  simp [ServerTables.TwoFactor.key]

theorem answered_error {e : String} {db' : Database} : Answered settings user (.error e) db db'=
    if e="Token is invalid!" then Missed settings user db db'
    else record user db'=record user db ∨ Spent user db db' := rfl

/-- A refusal for another reason changes nothing. -/
theorem answered_refused {e : String} (he : e≠"Token is invalid!") :
    Answered settings user (.error e) db db := by
  rw [answered_error,if_neg he]
  exact .inl rfl

/-- The data of a row that was saved. -/
theorem record_saved {f : TwoFactor} {db' : Database} (htype : f.atype=TwoFactor.Email)
    (h : db'.twofactor=TwoFactor.saved f db.twofactor) : record f.userUuid db'=some f.data := by
  have hfound := find_saved h
  rw [htype] at hfound
  unfold record
  rw [hfound]
  rfl

theorem responds_fromExcept {α β : Type} {R G : Database → Database → Prop}
    {Q : Except String α → Database → Database → Prop} {r : Except String β} {g : β → Action α}
    (hok : ∀ b,r=.ok b → Responds exec R G Q (g b) db₀ db)
    (herror : ∀ e,r=.error e → Q (.error e) db₀ db) :
    Responds exec R G Q ((fromExcept r).bind g) db₀ db := by
  cases r with
  | ok b => exact hok b rfl
  | error e => exact herror e rfl

/-- The check of a code against the record that is stored. -/
theorem responds_validate {f : TwoFactor} {code : Text} (hf : f∈db.twofactor) (htype : f.atype=TwoFactor.Email) :
    Responds exec Eq (SameRecord f.userUuid) (Answered settings f.userUuid)
      (validateEmailCodeStr settings f.userUuid code f.data) db db := by
  refine responds_fromExcept (fun data hdata => ?_) fun e he => ?_
  · have hfdata : f.data=.emailToken data := by
      cases hd : f.data <;> rw [hd] at hdata <;> cases hdata
      rfl
    have hfound := find_of_mem hf
    rw [htype] at hfound
    have hrecord : record f.userUuid db=some (.emailToken data) := by
      unfold record
      rw [hfound,Option.map_some,hfdata]
    refine Responds.query rfl fun db₁ h₁ => ?_
    subst h₁
    dsimp only
    rw [hfound]
    refine Responds.expect (fun g hg => ?_) fun _ => answered_refused (by decide)
    cases hg
    refine Responds.expect (fun token htoken => ?_) fun _ => answered_refused (by decide)
    have hsome : data.lastToken≠none := by rw [htoken]; exact fun h => by cases h
    split
    · -- a wrong code: the entry is counted, or the token is withdrawn
      refine Responds.execute rfl (fun db₁ db₂ h₁ hc => ?_) fun db₁ h₁ _ => ?_
      · subst h₁
        have hsaved := record_saved (f:={f with data := .emailToken (EmailTokenData.wrong settings data)}) htype
          (congrArg Tables.twofactor (commit_eq hc))
        show Answered settings f.userUuid (.error "Token is invalid!") _ _
        rw [answered_error,if_pos rfl]
        exact ⟨data,hrecord,hsome,hsaved⟩
      · subst h₁
        exact answered_refused (by decide)
    · refine Responds.execute rfl (fun db₁ db₂ h₁ hc => ?_) fun db₁ h₁ _ => ?_
      · subst h₁
        have hsaved := record_saved (f:={f with data := .emailToken (EmailTokenData.resetToken data)}) htype
          (congrArg Tables.twofactor (commit_eq hc))
        have hspent : Spent f.userUuid db db₂ := ⟨data,hrecord,hsome,hsaved⟩
        have hother : ∀ e : String,e≠"Token is invalid!" → Answered settings f.userUuid (.error e) db db₂ := by
          intro e he
          rw [answered_error,if_neg he]
          exact .inr hspent
        refine Responds.ensure (fun _ => ?_) fun _ => hother _ (by decide)
        exact Responds.ensure_done (fun _ => hspent) fun _ => hother _ (by decide)
      · subst h₁
        exact answered_refused (by decide)
  · have hmessage : e="Could not decode EmailTokenData from string" := by
      cases hd : f.data <;> rw [hd] at he <;> cases he <;> rfl
    subst hmessage
    exact answered_refused (by decide)

/-- A record belongs to a row. -/
theorem exists_row (h : (record user db).isSome=true) :
    ∃ f∈db.twofactor,f.userUuid=user ∧ f.atype=TwoFactor.Email := by
  unfold record at h
  rw [Option.isSome_map] at h
  obtain ⟨f,hf⟩ := Option.isSome_iff_exists.mp h
  exact ⟨f,mem_of_findByUserAndType hf⟩

/-- An attempt of an account with an e-mail factor. -/
theorem responds_attempt {u : User} {out : Outside} {code : Text} (hdb : (record u.uuid db).isSome=true) :
    Responds exec Eq (SameRecord u.uuid) (Answered settings u.uuid)
      (twofactorAuthEmail settings out u code) db db := by
  obtain ⟨f,hf,huser,htype⟩ := exists_row hdb
  refine Responds.query rfl fun db₁ h₁ => ?_
  subst h₁
  have hlisted : f∈TwoFactor.findByUser db.toTables u.uuid := by
    refine List.mem_filter.mpr ⟨hf,?_⟩
    rw [decide_eq_true_eq,htype]
    exact ⟨huser,by decide⟩
  have hsome : ¬(TwoFactor.findByUser db.toTables u.uuid).isEmpty=true := by
    rw [List.isEmpty_iff]
    exact List.ne_nil_of_mem hlisted
  dsimp only
  rw [if_neg hsome]
  refine Responds.ensure (fun _ => ?_) fun _ => answered_refused (by decide)
  refine Responds.ensure (fun _ => ?_) fun _ => answered_refused (by decide)
  refine Responds.expect (fun g hg => ?_) fun _ => answered_refused (by decide)
  -- the selected row is the row that the check will find
  have hmem := List.mem_filter.mp (List.mem_of_find?_eq_some hg)
  have hselected := List.find?_some hg
  rw [decide_eq_true_eq] at hmem hselected
  have hkey : g.key=f.key := Prod.ext (hmem.2.1.trans huser.symm) (hselected.1.trans htype.symm)
  have hsame : g=f := eq_of_key db.factor_nodup hmem.1 hf hkey
  rw [hsame,← huser]
  exact responds_validate hf htype

theorem responds_tick {seconds : ℕ} :
    Responds exec Eq (SameRecord user) (fun _ db db' => record user db'=record user db)
      (SecondFactors.tick seconds) db db := by
  refine Responds.execute_done rfl (fun db₁ db₂ h₁ hc => ?_) fun _ _ _ => rfl
  unfold record
  rw [commit_eq hc]
  rfl

end Handlers

section Runs

variable {settings : FactorSettings} {user : Uuid} {start : Database}

/-- What a move shows. -/
abbrev Seen (settings : FactorSettings) (user : Uuid) (m : Step) : Prop :=
  Shows (fun db => (record user db).isSome=true) (fun _ => SameRecord user) (Finished settings user) m

/-- A used up token allows nothing. -/
theorem spent_left {db db' : Database} (h : Spent user db db') :
    guessesLeft settings (record user db')=0 ∧ tokensLeft (record user db')=0 ∧
      1≤guessesLeft settings (record user db) ∧ tokensLeft (record user db)=1 := by
  obtain ⟨data,hbefore,hsome,hafter⟩ := h
  rw [hbefore,hafter]
  refine ⟨by simp [guessesLeft,EmailTokenData.resetToken],by simp [tokensLeft,EmailTokenData.resetToken],
    ?_,by simp [tokensLeft,hsome]⟩
  simp only [guessesLeft,if_neg hsome]
  exact Nat.le_max_left _ _

/-- A wrong code uses up one guess. -/
theorem missed_left {db db' : Database} (h : Missed settings user db db') :
    guessesLeft settings (record user db')+1≤guessesLeft settings (record user db) ∧
      tokensLeft (record user db')≤tokensLeft (record user db) := by
  obtain ⟨data,hbefore,hsome,hafter⟩ := h
  have hlimit := settings.emailAttemptsLimit.isLt
  rw [hbefore,hafter]
  unfold EmailTokenData.wrong
  dsimp only
  split
  · simp only [guessesLeft,tokensLeft,EmailTokenData.resetToken,if_neg hsome]
    exact ⟨Nat.le_max_left _ _,Nat.zero_le _⟩
  · rename_i hmore
    simp only [guessesLeft,tokensLeft,if_neg hsome]
    unfold nextAttempt at hmore ⊢
    refine ⟨?_,Nat.le_refl _⟩
    omega

/-- A move pays for what it ends with. -/
theorem Seen.pays {m : Step} (h : Seen settings user m) :
    (if isWrong m=true then 1 else 0)+guessesLeft settings (record user m.after)≤
        guessesLeft settings (record user m.before) ∧
      (if isAccepted m=true then 1 else 0)+tokensLeft (record user m.after)≤
        tokensLeft (record user m.before) := by
  unfold isWrong isAccepted
  rcases shows_cases h with ⟨hnone,hsame⟩|⟨r,hr,hfinished⟩
  · rw [hnone,show record user m.after=record user m.before from hsame]
    simp
  · rw [hr]
    generalize m.op=op at hfinished ⊢
    cases op with
    | tick seconds =>
      rw [show record user m.after=record user m.before from hfinished]
      simp
    | attempt out code =>
      cases r with
      | ok _ =>
        obtain ⟨hguess,htoken,hguess',htoken'⟩ := spent_left hfinished
        rw [hguess,htoken,htoken']
        simp
      | error e =>
        rw [show Finished settings user (.attempt out code) (.error e) m.before m.after=
          (if e="Token is invalid!" then Missed settings user m.before m.after
          else record user m.after=record user m.before ∨ Spent user m.before m.after) from rfl] at hfinished
        split at hfinished
        · rename_i he
          obtain ⟨hguess,htoken⟩ := missed_left hfinished
          simp only [he,decide_true,if_true,Bool.false_eq_true,if_false,Nat.zero_add]
          exact ⟨by omega,htoken⟩
        · rename_i he
          simp only [he,decide_false,Bool.false_eq_true,if_false,Nat.zero_add]
          rcases hfinished with hsame|hspent
          · rw [hsame]
            exact ⟨Nat.le_refl _,Nat.le_refl _⟩
          · obtain ⟨hguess,htoken,-,-⟩ := spent_left hspent
            rw [hguess,htoken]
            exact ⟨Nat.zero_le _,Nat.zero_le _⟩

/-- A chain of moves pays from its first record. -/
theorem chain_pays {s s' : Database} {moves : List Step} (h : Chain (Seen settings user) s moves s') :
    moves.countP isWrong≤guessesLeft settings (record user s) ∧
      moves.countP isAccepted≤tokensLeft (record user s) := by
  induction moves generalizing s with
  | nil => exact ⟨Nat.zero_le _,Nat.zero_le _⟩
  | cons m moves ih =>
    obtain ⟨rfl,hseen,hrest⟩ := h
    obtain ⟨hwrong,haccepted⟩ := ih hrest
    obtain ⟨hguess,htoken⟩ := hseen.pays
    rw [List.countP_cons,List.countP_cons]
    omega

/-- A record does not vanish. -/
theorem isSome_of_finished {op : Operation} {r : Except String Unit} {db db' : Database}
    (hdb : (record user db).isSome=true) (h : Finished settings user op r db db') :
    (record user db').isSome=true := by
  have hspent : Spent user db db' → (record user db').isSome=true := by
    rintro ⟨data,-,-,hafter⟩
    rw [hafter]
    rfl
  have hsame : record user db'=record user db → (record user db').isSome=true := by
    intro he
    rw [he]
    exact hdb
  cases op with
  | tick seconds => exact hsame h
  | attempt out code =>
    cases r with
    | ok _ => exact hspent h
    | error e =>
      have hanswered : Answered settings user (.error e) db db' := h
      rw [answered_error] at hanswered
      split at hanswered
      · obtain ⟨data,-,-,hafter⟩ := hanswered
        rw [hafter]
        rfl
      · exact hanswered.elim hsame hspent

/-- The limit counts the first wrong code in any case. -/
theorem guessesLeft_le (hlimit : 1≤ settings.emailAttemptsLimit.val) (r : Option TwoFactorData) :
    guessesLeft settings r≤ settings.emailAttemptsLimit.val := by
  unfold guessesLeft
  split
  · split
    · exact Nat.zero_le _
    · omega
  · exact Nat.zero_le _

theorem tokensLeft_le (r : Option TwoFactorData) : tokensLeft r≤1 := by
  unfold tokensLeft
  split
  · split
    · exact Nat.zero_le _
    · exact Nat.le_refl _
  · exact Nat.zero_le _

/-- Attempts that do not overlap compare the token of a record with no more
wrong codes than the limit, and accept it at most once. -/
theorem guesses_bounded {u : User} (hlimit : 1≤ settings.emailAttemptsLimit.val)
    (hstart : (record u.uuid start).isSome=true) {events : List (Event Operation Unit)}
    (horder : (server settings u).sequential ⟨start,[]⟩ events=true) :
    Bounded settings (trace (server settings u) ⟨start,[]⟩ events) := by
  have hsame : ∀ db : Database,db=db := fun _ => rfl
  have hrun : (server settings u).Admits (Undisturbed (server settings u) Eq) ⟨start,[]⟩ events :=
    undisturbed_of_sequential (n:=0) hsame (fun m t ht => by simp at ht) horder
  have hidle : Kept (server settings u) (fun db => (record u.uuid db).isSome=true) Eq
      (fun _ => SameRecord u.uuid) (Finished settings u.uuid) ⟨start,[]⟩ := Kept.idle hstart
  have hchain := chain_of_run hidle ?_ ?_ ?_ ?_ ?_ hrun
  · obtain ⟨hwrong,haccepted⟩ := chain_pays hchain
    exact ⟨hwrong.trans (guessesLeft_le hlimit _),haccepted.trans (tokensLeft_le _)⟩
  · intro op db hdb
    cases op with
    | attempt out code => exact (responds_attempt hdb).bears
    | tick seconds => exact responds_tick.bears
  · exact fun db _ => rfl
  · exact fun a b c hab hbc => hab.trans hbc
  · intro op p db db' hdb h
    rcases ended_cases h with hsame|⟨r,hfinished⟩
    · rw [show record u.uuid db'=record u.uuid db from hsame]
      exact hdb
    · exact isSome_of_finished hdb hfinished
  · exact fun op p db db' hdb h he => he

end Runs

section Samples

/-- An account whose e-mail factor waits for a token. -/
def challenged : Database := ⟨{Tables.none with
  users := [User.new 1 0 [] 600000 ['a'] none]
  twofactor := [⟨2,1,TwoFactor.Email,true,.emailToken ⟨['a'],some ['7'],0,0⟩,0⟩]
  next := 3},by decide⟩

/-- Its owner, or somebody else, logs in. -/
def owner : User := User.new 1 0 [] 600000 ['a'] none

/-- An attempt goes on by a number of statements. -/
def goesOn (n statements : ℕ) : List (Event Operation Unit) := List.replicate statements (.resume n ⟨[],()⟩)

/-- Two attempts with the token read the record before one of them saves. -/
def overlapping : List (Event Operation Unit) :=
  [Event.start (Operation.attempt GroupIsolation.online ['7']),.start (.attempt GroupIsolation.online ['7'])]++
    goesOn 0 2++goesOn 1 2++goesOn 0 1++goesOn 1 1

/-- The second attempt comes after the first one. -/
def consecutive : List (Event Operation Unit) :=
  .start (.attempt GroupIsolation.online ['7'])::goesOn 0 3++
    .start (.attempt GroupIsolation.online ['7'])::goesOn 1 3

/-- Both attempts are accepted. -/
theorem guesses_accepted_twice : ¬Bounded TotpRuns.countingSettings
    (trace (server TotpRuns.countingSettings owner) ⟨challenged,[]⟩ overlapping) := by
  intro h
  have htwice : (trace (server TotpRuns.countingSettings owner) ⟨challenged,[]⟩ overlapping).countP
      isAccepted=2 := by decide
  have honce := h.accepted
  rw [htwice] at honce
  omega

/-- The second attempt is refused. -/
theorem guesses_bounded_consecutive : Bounded TotpRuns.countingSettings
    (trace (server TotpRuns.countingSettings owner) ⟨challenged,[]⟩ consecutive) :=
  guesses_bounded (by decide) (by decide) (by decide)

end Samples

end NadSafe.EmailGuesses
