import NadSafe.FactorRows
import NadSafe.StepRuns
import NadSafe.TotpRuns

/-!
# Tokens of an e-mail factor

Complete operations on the e-mail factor of one account, with a log of the
tokens that were issued and accepted. A code is accepted only if it is the
newest token, was mailed, was not accepted before and is young enough. The
exceptions are the empty token of an automatic activation and a token whose
mail has failed.
-/

namespace NadSafe.EmailTokens

open HostText TableRows AsyncScript AsyncScript.Script ServerTables StoreScript ServerModels
open OrgHandlers SecondFactors PlannedScript TableWrites FactorRows StepRuns
open CipherHandlers (Panic fromExcept)

/-- An operation. -/
inductive Operation where
  /-- `activate_email_2fa`. -/
  | activate
  /-- `send_email`, with the token it draws and the answer of the mail server. -/
  | sendEmail (token : Text) (delivered : Bool) (email : Text) (data : PasswordOrOtpData)
  /-- `email`. -/
  | email (recoverCode token : Text) (data : PasswordOrOtpData)
  /-- `send_token`. -/
  | sendToken (token : Text) (delivered : Bool)
  /-- `validate_email_code_str`. -/
  | validate (code : Text)
  /-- `disable_twofactor`. -/
  | disable (out : Outside) (data : PasswordOrOtpData) (type : NumberOrString)
  /-- Time passes. -/
  | tick (seconds : ℕ)

/-- The check of a code against the stored factor. -/
def validate (settings : FactorSettings) (user : Uuid) (code : Text) : Action Unit := do
  let found ← lookup fun t => TwoFactor.findByUserAndType t user TwoFactor.Email
  let selected ← expect "Two factor doesn't exist" found
  validateEmailCodeStr settings user code selected.data

/-- The handler of an operation. -/
def Operation.body (settings : FactorSettings) (user : Uuid) : Operation → Action Unit
  | .activate => findAndActivateEmail2fa user
  | .sendEmail token delivered address data => SecondFactors.sendEmail settings token delivered user address data
  | .email recoverCode token data => SecondFactors.email settings recoverCode user token data
  | .sendToken token delivered => SecondFactors.sendToken token delivered user
  | .validate code => EmailTokens.validate settings user code
  | .disable out data type => disableTwofactor settings out user data type
  | .tick seconds => SecondFactors.tick seconds

/-- An entry of the log. -/
inductive Entry where
  /-- A token was drawn and stored, and its mail was sent or not. -/
  | issued (token : Text) (sent : ℤ) (mailed : Bool)
  /-- A code was accepted. -/
  | accepted
  deriving DecidableEq

/-- The entry for a token that may have been issued. -/
def issue (token : Text) (now : ℤ) : Except String Unit → List Entry
  | .ok _ => [.issued token now true]
  | .error e => if e="Error sending mail" then [.issued token now false] else []

/-- What an operation adds to the log. -/
def Operation.entries (now : ℤ) : Operation → Except String Unit → List Entry
  | .sendEmail token _ _ _,r => issue token now r
  | .sendToken token _,r => issue token now r
  | .validate _,.ok _ => [.accepted]
  | _,_ => []

/-- The database and the log. -/
structure World where
  /-- Database. -/
  db : Database
  /-- Log, with the newest entry at the end. -/
  log : List Entry

/-- The result of an operation. -/
def World.result (settings : FactorSettings) (user : Uuid) (w : World) (op : Operation) : Except String Unit :=
  (complete (op.body settings user) w.db).1

/-- The world after an operation. -/
def World.step (settings : FactorSettings) (user : Uuid) (w : World) (op : Operation) : World :=
  ⟨(complete (op.body settings user) w.db).2,w.log++op.entries w.db.now (w.result settings user op)⟩

/-- The newest entry of the log is the mailed issue of the code, not too long
ago. -/
def Mailed (settings : FactorSettings) (w : World) (code : Text) : Prop :=
  ∃ sent,w.log.getLast?=some (.issued code sent true) ∧ w.db.now≤ sent+settings.emailExpirationTime.val

/-- A code that is accepted was mailed. -/
def Justified (settings : FactorSettings) (user : Uuid) (w : World) : Operation → Prop
  | .validate code => w.result settings user (.validate code)=.ok () → Mailed settings w code
  | _ => True

/-- The stored token is not compared with an empty code, and not with its own
text if its mail has failed. -/
def Fair (user : Uuid) (w : World) : Operation → Prop
  | .validate code => ∀ f data,TwoFactor.findByUserAndType w.db.toTables user TwoFactor.Email=some f →
    f.data=.emailToken data → data.lastToken=some code →
      code≠[] ∧ ∀ sent,w.log.getLast?≠some (.issued code sent false)
  | _ => True

/-- A stored token is empty or the newest one. -/
def Sound (log : List Entry) (column : TwoFactorData) : Prop :=
  ∀ data token,column=.emailToken data → data.lastToken=some token →
    token=[] ∨ ∃ mailed,log.getLast?=some (.issued token data.tokenSent mailed)

/-- And so for every stored factor of the account. -/
def Good (user : Uuid) (w : World) : Prop :=
  ∀ f∈w.db.twofactor,f.key=(user,TwoFactor.Email) → Sound w.log f.data

section Handlers

variable {settings : FactorSettings} {user : Uuid} {db : Database}

/-- The token that a factor holds after an issue. -/
def Holds (user : Uuid) (token : Text) (now : ℤ) (db : Database) : Prop :=
  ∀ f∈db.twofactor,f.key=(user,TwoFactor.Email) →
    ∃ data,f.data=.emailToken data ∧ data.lastToken=some token ∧ data.tokenSent=now

/-- A row that is saved is the only one with its key. -/
theorem eq_of_saved {f g : TwoFactor} {db' : Database}
    (h : db'.toTables={db.toTables with twofactor := TwoFactor.saved f db.twofactor})
    (hg : g∈db'.twofactor) (hkey : g.key=f.key) : g=f := by
  rw [h] at hg
  rcases mem_saved hg with rfl|⟨-,hne,-⟩
  · rfl
  · exact absurd hkey hne

theorem ends_sendToken {token : Text} {delivered : Bool} : Ends (sendToken token delivered user) db
    fun r db' => (Issued r → Holds user token db.now db') ∧ (¬Issued r → db'=db) := by
  have hrefused : ∀ e : String,e≠"Error sending mail" →
      (Issued (.error e) → Holds user token db.now db) ∧ (¬Issued (.error e) → db=db) :=
    fun e he => ⟨fun hissued => absurd hissued (not_issued he),fun _ => rfl⟩
  unfold sendToken
  refine ends_lookup (Ends.expect (fun f hfound => ?_) fun _ => hrefused _ (by decide))
  obtain ⟨-,hfuser,hftype⟩ := mem_of_findByUserAndType hfound
  refine ends_fromExcept (fun data hdata => ?_) fun e he => ?_
  · refine ends_utcNow (ends_update_cases (fun db' h => ?_) (hrefused _ (by decide)))
    have hholds : Holds user token db.now db' := by
      intro g hg hkey
      have hsame := eq_of_saved h hg (hkey.trans (Prod.ext hfuser.symm hftype.symm))
      rw [hsame]
      exact ⟨_,rfl,rfl,rfl⟩
    exact Ends.ensure_done (fun _ => ⟨fun _ => hholds,fun hno => absurd (.inl rfl) hno⟩)
      fun _ => ⟨fun _ => hholds,fun hno => absurd (.inr rfl) hno⟩
  · have hmessage : e="Could not decode EmailTokenData from string" := by
      cases hd : f.data <;> rw [hd] at he <;> cases he <;> rfl
    subst hmessage
    exact hrefused _ (by decide)

/-- A row after a check: an old one, or one whose token is gone or the same as
before. -/
def Checked (user : Uuid) (db : Database) (f : TwoFactor) : Prop :=
  f∈db.twofactor ∨ ∃ g∈db.twofactor,g.key=(user,TwoFactor.Email) ∧ ∃ old new,g.data=.emailToken old ∧
    f.data=.emailToken new ∧ (new.lastToken=none ∨ new.lastToken=old.lastToken ∧ new.tokenSent=old.tokenSent)

/-- The stored token is the code, and it has not expired. -/
def Accepts (settings : FactorSettings) (user : Uuid) (code : Text) (db : Database) : Prop :=
  ∃ f data,TwoFactor.findByUserAndType db.toTables user TwoFactor.Email=some f ∧
    f.data=.emailToken data ∧ data.lastToken=some code ∧
    db.now≤data.tokenSent+settings.emailExpirationTime.val

theorem castSigned_le (n : ℕ) : castSigned n≤n := by
  unfold castSigned
  split <;> omega

/-- The data after a wrong code. -/
theorem wrong_token (data : EmailTokenData) : (EmailTokenData.wrong settings data).lastToken=none ∨
    (EmailTokenData.wrong settings data).lastToken=data.lastToken ∧
      (EmailTokenData.wrong settings data).tokenSent=data.tokenSent := by
  unfold EmailTokenData.wrong
  dsimp only
  split
  · exact .inl rfl
  · exact .inr ⟨rfl,rfl⟩

/-- What a check leaves. -/
structure Answered (settings : FactorSettings) (user : Uuid) (code : Text) (db : Database)
    (r : Except String Unit) (db' : Database) : Prop where
  /-- An accepted code. -/
  accepted : r=.ok () → Accepts settings user code db
  /-- No token is left by it. -/
  spent : r=.ok () → ∀ f∈db'.twofactor,f.key=(user,TwoFactor.Email) →
    ∃ data,f.data=.emailToken data ∧ data.lastToken=none
  /-- Rows. -/
  rows : ∀ f∈db'.twofactor,f.key=(user,TwoFactor.Email) → Checked user db f

theorem answered_refused {code : Text} {e : String} : Answered settings user code db (.error e) db :=
  ⟨(fun h => by cases h),(fun h => by cases h),fun f hf _ => .inl hf⟩

theorem ends_validateCode {code : Text} :
    Ends (validate settings user code) db (Answered settings user code db) := by
  unfold validate validateEmailCodeStr
  refine ends_lookup (Ends.expect (fun f hfound => ?_) fun _ => answered_refused)
  obtain ⟨hf,hfuser,hftype⟩ := mem_of_findByUserAndType hfound
  have hfkey : f.key=(user,TwoFactor.Email) := Prod.ext hfuser hftype
  refine ends_fromExcept (fun data hdata => ?_) fun _ _ => answered_refused
  have hdata : f.data=.emailToken data := eq_of_fromJson hdata
  refine ends_lookup ?_
  rw [hfound]
  refine Ends.expect (fun g hg => ?_) fun _ => answered_refused
  cases hg
  refine Ends.expect (fun token htoken => ?_) fun _ => answered_refused
  split
  · refine ends_update_cases (fun db' h => ?_) answered_refused
    refine Ends.throw ⟨(fun h => by cases h),(fun h => by cases h),fun g hg hkey => ?_⟩
    rw [eq_of_saved h hg (hkey.trans hfkey.symm)]
    exact .inr ⟨f,hf,hfkey,data,_,hdata,rfl,wrong_token data⟩
  · rename_i hcode
    refine ends_update_cases (fun db' h => ?_) answered_refused
    have hrow : ∀ g∈db'.twofactor,g.key=(user,TwoFactor.Email) →
        g.data=.emailToken (EmailTokenData.resetToken data) := by
      intro g hg hkey
      rw [eq_of_saved h hg (hkey.trans hfkey.symm)]
    have hrows : ∀ g∈db'.twofactor,g.key=(user,TwoFactor.Email) → Checked user db g :=
      fun g hg hkey => .inr ⟨f,hf,hfkey,data,_,hdata,hrow g hg hkey,.inl rfl⟩
    refine Ends.ensure (fun _ => ends_utcNow (Ends.ensure_done (fun hfresh => ?_) fun _ => ?_)) fun _ => ?_
    · refine ⟨fun _ => ⟨f,data,hfound,hdata,?_,?_⟩,fun _ g hg hkey => ⟨_,hrow g hg hkey,rfl⟩,hrows⟩
      · rw [htoken,not_not.mp hcode]
      · rw [decide_eq_true_eq] at hfresh
        have hnow : db'.now=db.now := by rw [h]
        have hcast := castSigned_le settings.emailExpirationTime.val
        omega
    · exact ⟨(fun h => by cases h),(fun h => by cases h),hrows⟩
    · exact ⟨(fun h => by cases h),(fun h => by cases h),hrows⟩

end Handlers

section Runs

variable {settings : FactorSettings} {user : Uuid} {w : World}

/-- The log of an issue ends with it. -/
theorem issue_eq (token : Text) (now : ℤ) {r : Except String Unit} (h : Issued r) :
    ∃ mailed,issue token now r=[.issued token now mailed] := by
  rcases h with rfl|rfl
  · exact ⟨true,rfl⟩
  · exact ⟨false,rfl⟩

/-- Nothing was issued. -/
theorem issue_eq_nil {token : Text} {now : ℤ} {r : Except String Unit} (h : ¬Issued r) :
    issue token now r=[] := by
  cases r with
  | ok _ => exact absurd (.inl rfl) h
  | error e => exact if_neg fun he => h (.inr (congrArg Except.error he))

/-- Data without a token. -/
theorem sound_of_none {log : List Entry} {data : EmailTokenData} (h : data.lastToken=none) :
    Sound log (.emailToken data) := by
  intro d token hd htoken
  cases hd
  rw [h] at htoken
  cases htoken

/-- Old rows with the same log. -/
theorem good_of_shrunk {db' : Database} (hgood : Good user w) (h : Shrunk w.db db') :
    Good user ⟨db',w.log⟩ := by
  intro f hf hkey
  have htype : f.atype≠ProtectedActions := by
    rw [show f.atype=TwoFactor.Email from congrArg Prod.snd hkey]
    decide
  rcases h.rows f hf htype with ⟨hf,-⟩|hnew
  · exact hgood f hf hkey
  · exact hnew.elim

/-- An issue makes its token the newest one. -/
theorem good_of_holds {db' : Database} {token : Text} {now : ℤ} {mailed : Bool}
    (h : Holds user token now db') : Good user ⟨db',w.log++[Entry.issued token now mailed]⟩ := by
  intro f hf hkey
  obtain ⟨data,hdata,htoken,hsent⟩ := h f hf hkey
  intro d t hd ht
  rw [hdata] at hd
  cases hd
  rw [htoken] at ht
  cases ht
  right
  rw [hsent]
  exact ⟨mailed,List.getLast?_concat⟩

theorem good_activate (hgood : Good user w) : Good user (w.step settings user .activate) := by
  have hlog : w.log++Operation.entries w.db.now .activate (w.result settings user .activate)=w.log :=
    List.append_nil _
  have hends : Ends (findAndActivateEmail2fa user) w.db fun _ db' => Good user ⟨db',w.log⟩ := by
    refine ends_activate.mono fun _ db' h f hf hkey => ?_
    have htype : f.atype≠ProtectedActions := by
      rw [show f.atype=TwoFactor.Email from congrArg Prod.snd hkey]
      decide
    rcases h.rows f hf htype with ⟨hf,-⟩|⟨u,-,-,-,-,hdata⟩
    · exact hgood f hf hkey
    · intro d token hd ht
      rw [hdata] at hd
      cases hd
      cases ht
      exact .inl rfl
  unfold World.step
  rw [hlog]
  exact hends

theorem good_sendEmail {token email : Text} {delivered : Bool} {data : PasswordOrOtpData}
    (hgood : Good user w) : Good user (w.step settings user (.sendEmail token delivered email data)) := by
  have hends : Ends (sendEmail settings token delivered user email data) w.db
      fun r db' => Good user ⟨db',w.log++issue token w.db.now r⟩ := by
    refine ends_sendEmail.mono fun r db' h => ?_
    by_cases hissued : Issued r
    · -- no factor is left
      intro f hf hkey
      have htype : f.atype=TwoFactor.Email := congrArg Prod.snd hkey
      rcases (h.1 hissued).rows f hf (by rw [htype]; decide) with ⟨-,hne⟩|⟨hchallenge,-⟩
      · exact absurd hkey hne
      · have hother : EmailVerificationChallenge≠TwoFactor.Email := by decide
        rw [hkey] at hchallenge
        exact absurd (congrArg Prod.snd hchallenge).symm hother
    · rw [issue_eq_nil hissued,List.append_nil]
      exact good_of_shrunk hgood (h.2 hissued)
  exact hends

theorem good_email {recoverCode token : Text} {data : PasswordOrOtpData} (hgood : Good user w) :
    Good user (w.step settings user (.email recoverCode token data)) := by
  have hlog : w.log++Operation.entries w.db.now (.email recoverCode token data)
      (w.result settings user (.email recoverCode token data))=w.log := List.append_nil _
  have hends : Ends (email settings recoverCode user token data) w.db
      fun _ db' => Good user ⟨db',w.log⟩ := by
    refine ends_email.mono fun _ db' h f hf hkey => ?_
    have htype : f.atype=TwoFactor.Email := congrArg Prod.snd hkey
    rcases h.rows f hf (by rw [htype]; decide) with ⟨hf,-⟩|⟨g,-,d,-,-,-,-,-,hdata⟩
    · exact hgood f hf hkey
    · show Sound w.log f.data
      rw [hdata]
      exact sound_of_none rfl
  unfold World.step
  rw [hlog]
  exact hends

theorem good_sendToken {token : Text} {delivered : Bool} (hgood : Good user w) :
    Good user (w.step settings user (.sendToken token delivered)) := by
  have hends : Ends (sendToken token delivered user) w.db
      fun r db' => Good user ⟨db',w.log++issue token w.db.now r⟩ := by
    refine ends_sendToken.mono fun r db' h => ?_
    by_cases hissued : Issued r
    · obtain ⟨mailed,hentry⟩ := issue_eq token w.db.now hissued
      rw [hentry]
      exact good_of_holds (h.1 hissued)
    · rw [issue_eq_nil hissued,List.append_nil,h.2 hissued]
      exact hgood
  exact hends

theorem good_validate {code : Text} (hgood : Good user w) :
    Good user (w.step settings user (.validate code)) := by
  have hends : Ends (validate settings user code) w.db
      fun r db' => Good user ⟨db',w.log++Operation.entries w.db.now (.validate code) r⟩ := by
    refine (ends_validateCode).mono fun r db' h f hf hkey => ?_
    cases r with
    | ok _ =>
      obtain ⟨data,hdata,hnone⟩ := h.spent rfl f hf hkey
      show Sound _ f.data
      rw [hdata]
      exact sound_of_none hnone
    | error e =>
      show Sound (w.log++[]) f.data
      rw [List.append_nil]
      rcases h.rows f hf hkey with hf|⟨g,hg,hgkey,old,new,hold,hnew,htoken⟩
      · exact hgood f hf hkey
      · rw [hnew]
        rcases htoken with hnone|⟨hsame,hsent⟩
        · exact sound_of_none hnone
        · intro d token hd ht
          cases hd
          rw [hsent]
          exact hgood g hg hgkey old token hold (hsame ▸ ht)
  exact hends

theorem good_disable {out : Outside} {data : PasswordOrOtpData} {type : NumberOrString} (hgood : Good user w) :
    Good user (w.step settings user (.disable out data type)) := by
  have hlog : w.log++Operation.entries w.db.now (.disable out data type)
      (w.result settings user (.disable out data type))=w.log := List.append_nil _
  have hends : Ends (disableTwofactor settings out user data type) w.db
      fun _ db' => Good user ⟨db',w.log⟩ := ends_disable.mono fun _ _ h => good_of_shrunk hgood h
  unfold World.step
  rw [hlog]
  exact hends

theorem good_tick {seconds : ℕ} (hgood : Good user w) : Good user (w.step settings user (.tick seconds)) := by
  have hlog : w.log++Operation.entries w.db.now (.tick seconds) (w.result settings user (.tick seconds))=w.log :=
    List.append_nil _
  have hends : Ends (SecondFactors.tick seconds) w.db fun _ db' => Good user ⟨db',w.log⟩ := by
    refine ends_update_end (fun db' h f hf hkey => ?_) hgood
    rw [h] at hf
    exact hgood f hf hkey
  unfold World.step
  rw [hlog]
  exact hends

/-- Every operation keeps stored tokens empty or newest. -/
theorem good_step (hgood : Good user w) (op : Operation) : Good user (w.step settings user op) := by
  cases op with
  | activate => exact good_activate hgood
  | sendEmail token delivered email data => exact good_sendEmail hgood
  | email recoverCode token data => exact good_email hgood
  | sendToken token delivered => exact good_sendToken hgood
  | validate code => exact good_validate hgood
  | disable out data type => exact good_disable hgood
  | tick seconds => exact good_tick hgood

/-- An accepted code is the stored token, which is the newest one. -/
theorem justified_of_fair {op : Operation} (hgood : Good user w) (hfair : Fair user w op) :
    Justified settings user w op := by
  cases op with
  | validate code =>
    intro hok
    have hanswered : Answered settings user code w.db (w.result settings user (.validate code))
      (complete (validate settings user code) w.db).2 := ends_validateCode
    obtain ⟨f,data,hfound,hdata,htoken,hfresh⟩ := hanswered.accepted hok
    obtain ⟨hf,hfuser,hftype⟩ := mem_of_findByUserAndType hfound
    obtain ⟨hcode,hmailed⟩ := hfair f data hfound hdata htoken
    rcases hgood f hf (Prod.ext hfuser hftype) data code hdata htoken with hempty|⟨mailed,hlast⟩
    · exact absurd hempty hcode
    · cases mailed with
      | true => exact ⟨data.tokenSent,hlast,hfresh⟩
      | false => exact absurd hlast (hmailed data.tokenSent)
  | _ => trivial

/-- From an account without an e-mail factor, every accepted code is the
newest token, was mailed, was not accepted before and has not expired, unless
it is the empty token of an activation or its mail has failed. -/
theorem tokens_mailed {start : Database}
    (hstart : TwoFactor.findByUserAndType start.toTables user TwoFactor.Email=none) {ops : List Operation}
    (hfair : Admits (World.step settings user) (Fair user) ⟨start,[]⟩ ops) :
    Admits (World.step settings user) (Justified settings user) ⟨start,[]⟩ ops := by
  have hgood : Good user ⟨start,[]⟩ := by
    intro f hf hkey
    have hnone := List.find?_eq_none.mp hstart f hf
    rw [decide_eq_true_eq] at hnone
    exact absurd ⟨congrArg Prod.fst hkey,congrArg Prod.snd hkey⟩ hnone
  have hstep : ∀ w op,Good user w → Fair user w op → Good user (w.step settings user op) :=
    fun w op hw _ => good_step hw op
  exact hfair.along hstep (fun w op hw h => justified_of_fair hw h) hgood

end Runs

section Samples

/-- An account with a verified address. -/
def verified : Database := ⟨{Tables.none with
  users := [{User.new 1 0 [] 600000 ['a'] none with verified := true}]
  next := 2},by decide⟩

/-- The factor is activated and a token is mailed, entered and entered
again. -/
def login : List Operation :=
  [.activate,.sendToken ['7'] true,.tick 60,.validate ['7'],.validate ['7']]

/-- After an activation the empty code is accepted. -/
theorem tokens_not_mailed : ¬Admits (World.step TotpRuns.countingSettings 1)
    (Justified TotpRuns.countingSettings 1) ⟨verified,[]⟩ [.activate,.validate []] := by
  rintro ⟨-,hjustified,-⟩
  have hlog : (World.step TotpRuns.countingSettings 1 ⟨verified,[]⟩ .activate).log=[] := rfl
  obtain ⟨sent,hlast,-⟩ := hjustified (by decide)
  rw [hlog] at hlast
  cases hlast

/-- A login with a mailed token, which is not accepted again. -/
theorem tokens_mailed_login : Admits (World.step TotpRuns.countingSettings 1)
    (Justified TotpRuns.countingSettings 1) ⟨verified,[]⟩ login := by
  refine tokens_mailed (by decide) ⟨trivial,trivial,trivial,?_,?_,trivial⟩
  · intro f data hfound hdata htoken
    refine ⟨by decide,fun sent hlast => ?_⟩
    cases hlast
  · intro f data hfound hdata htoken
    cases hfound
    cases hdata
    cases htoken

end Samples

end NadSafe.EmailTokens
