import NadSafe.FactorRows
import NadSafe.TotpRuns

/-!
# First factors

The two checks of a first factor: the one before a token of the e-mail factor
is sent and the one of a login. A first factor is a password hash, or a
request that another device has approved, with its access code. Requests are
only read here. Limits of rates, scopes and disabled accounts are left out.
-/

namespace NadSafe.FirstFactor

open HostText TableRows AsyncScript SequentialScript ServerTables StoreScript ServerModels OrgHandlers
open SecondFactors PlannedScript TableWrites FactorRows
open CipherHandlers (fromExcept)

/-- A row of `auth_requests`. -/
structure AuthRequest where
  /-- Key. -/
  uuid : Text
  /-- Whose login. -/
  userUuid : Uuid
  /-- Kind of the device that asks. -/
  deviceType : ℤ
  /-- Its address. -/
  requestIp : Text
  /-- Its access code. -/
  accessCode : Text
  /-- The answer. -/
  approved : Option Bool
  /-- Start of its life. -/
  creationDate : ℤ
  deriving DecidableEq

/-- `AuthRequest::check_access_code`. -/
def AuthRequest.checkAccessCode (r : AuthRequest) (code : Text) : Bool := decide (r.accessCode=code)

/-- The table `auth_requests`. -/
structure AuthRequests where
  /-- Its rows. -/
  rows : List AuthRequest
  /-- Their key. -/
  keyed : (rows.map AuthRequest.uuid).Nodup

/-- `AuthRequest::find_by_uuid`. -/
def AuthRequests.findByUuid (requests : AuthRequests) (uuid : Text) : Option AuthRequest :=
  requests.rows.find? fun r => r.uuid=uuid

/-- `AuthRequest::find_by_uuid_and_user`. -/
def AuthRequests.findByUuidAndUser (requests : AuthRequests) (uuid : Text) (user : Uuid) :
    Option AuthRequest :=
  requests.rows.find? fun r => r.uuid=uuid ∧ r.userUuid=user

/-- `ClientHeaders`. -/
structure ClientHeaders where
  /-- Kind of the device. -/
  deviceType : ℤ
  /-- Its address. -/
  ip : Text

/-- `SendEmailLoginData`. -/
structure SendEmailLoginData where
  /-- The device. -/
  deviceIdentifier : Option Text
  /-- Address of the account. -/
  email : Option Text
  /-- Hash of the master password. -/
  masterPasswordHash : Option Text
  /-- Request that another device has answered. -/
  authRequestId : Option Text
  /-- Its access code. -/
  authRequestAccessCode : Option Text

/-- A field that is there and not empty. -/
def given (field : Option Text) : Option Text := field.filter (·≠[])

/-- The credential check of `send_email_login` for an account. -/
def checkCredentials (settings : FactorSettings) (requests : AuthRequests) (client : ClientHeaders)
    (data : SendEmailLoginData) (user : User) : Action Unit :=
  match given data.masterPasswordHash with
  | some hash =>
    ensure "Username or password is incorrect. Try again." (User.checkValidPassword settings user hash)
  | none =>
    match given data.authRequestId with
    | some id => do
      let authRequest ← expect "AuthRequest doesn't exist" (requests.findByUuid id)
      let code ← expect "no auth request access code" data.authRequestAccessCode
      ensure "AuthRequest doesn't exist" (decide (authRequest.deviceType=client.deviceType) &&
        decide (authRequest.requestIp=client.ip) && authRequest.checkAccessCode code)
    | none => throw "No password hash has been submitted."

/-- The account that `send_email_login` sends a token to. An account is found
for a device that waits for its second factor. -/
def emailLoginUser (settings : FactorSettings) (requests : AuthRequests) (client : ClientHeaders)
    (findByDevice : Text → Option Uuid) (data : SendEmailLoginData) : Action User :=
  match given data.email with
  | some mail => do
    let found ← User.findByMail settings.toSettings mail
    let user ← expect "Username or password is incorrect. Try again." found
    checkCredentials settings requests client data user
    pure user
  | none => do
    let device ← expect "No device identifier has been submitted." data.deviceIdentifier
    let uuid ← expect "Username or password is incorrect. Try again." (findByDevice device)
    let found ← User.findByUuid uuid
    expect "Username or password is incorrect. Try again." found

/-- `send_email_login`, with the token it draws. -/
def sendEmailLogin (settings : FactorSettings) (requests : AuthRequests) (client : ClientHeaders)
    (findByDevice : Text → Option Uuid) (token : Text) (delivered : Bool) (data : SendEmailLoginData) :
    Action Unit := do
  ensure "Email 2FA is disabled" settings.enableEmail2fa
  let user ← emailLoginUser settings requests client findByDevice data
  sendToken token delivered user.uuid

/-- The first factor of `password_login` for an account: a password, or a
request with its access code in the place of the password. -/
def passwordLoginCheck (settings : FactorSettings) (requests : AuthRequests) (ip : Text) (user : User)
    (authRequest : Option Text) (password : Text) : Action Unit :=
  match authRequest with
  | some id => do
    let authRequest ← expect "Auth request not found. Try again." (requests.findByUuidAndUser id user.uuid)
    let now ← utcNow
    ensure "Username or access code is incorrect. Try again"
      (decide (authRequest.userUuid=user.uuid) && authRequest.approved.getD false &&
        decide (now<authRequest.creationDate+300) && decide (ip=authRequest.requestIp) &&
        authRequest.checkAccessCode password)
  | none => ensure "Username or password is incorrect. Try again" (User.checkValidPassword settings user password)

/-- The fields `auth_request` and `password` of a login with the same
credentials. -/
def SendEmailLoginData.login (data : SendEmailLoginData) : Option (Option Text×Text) :=
  match given data.masterPasswordHash with
  | some hash => some (none,hash)
  | none =>
    match given data.authRequestId,data.authRequestAccessCode with
    | some id,some code => some (some id,code)
    | _,_ => none

/-- A handler ends without an error. -/
def Passes {α : Type} (p : Action α) (db : Database) : Prop := ∃ a,(complete p db).1=.ok a

/-- Whoever gets a token passes the first factor of a login. -/
def Agree (settings : FactorSettings) (requests : AuthRequests) (client : ClientHeaders)
    (findByDevice : Text → Option Uuid) (data : SendEmailLoginData) (db : Database) : Prop :=
  ∀ user,(complete (emailLoginUser settings requests client findByDevice data) db).1=.ok user →
    ∃ authRequest password,data.login=some (authRequest,password) ∧
      Passes (passwordLoginCheck settings requests client.ip user authRequest password) db

/-- The request that decides whether an account gets a token. -/
structure Deciding (requests : AuthRequests) (client : ClientHeaders) (data : SendEmailLoginData)
    (r : AuthRequest) (code : Text) : Prop where
  /-- No password hash is given. -/
  noHash : given data.masterPasswordHash=none
  /-- It is named. -/
  named : ∃ id,given data.authRequestId=some id ∧ requests.findByUuid id=some r
  /-- With a code. -/
  entered : data.authRequestAccessCode=some code
  /-- For the same kind of device. -/
  device : r.deviceType=client.deviceType
  /-- At the same address. -/
  ip : r.requestIp=client.ip
  /-- The code is its own. -/
  matching : r.checkAccessCode code=true

/-- The account of the address that is given. -/
def Addressed (settings : FactorSettings) (data : SendEmailLoginData) (db : Database) (user : User) : Prop :=
  ∃ mail,given data.email=some mail ∧
    db.users.find? (fun u => decide (u.email=settings.toLowercase mail))=some user

/-- A request that decides belongs to the account of the address, is approved
and not older than five minutes. -/
def Honoured (settings : FactorSettings) (requests : AuthRequests) (client : ClientHeaders)
    (data : SendEmailLoginData) (db : Database) : Prop :=
  ∀ user r code,Addressed settings data db user → Deciding requests client data r code →
    r.userUuid=user.uuid ∧ r.approved=some true ∧ db.now<r.creationDate+300

section Agreement

variable {settings : FactorSettings} {requests : AuthRequests} {client : ClientHeaders}
  {data : SendEmailLoginData} {db : Database} {user : User} {findByDevice : Text → Option Uuid}

/-- A request that is found has the key. -/
theorem uuid_of_findByUuid {id : Text} {r : AuthRequest} (h : requests.findByUuid id=some r) :
    r∈requests.rows ∧ r.uuid=id := by
  have huuid := List.find?_some h
  rw [decide_eq_true_eq] at huuid
  exact ⟨List.mem_of_find?_eq_some h,huuid⟩

/-- The two lookups find the same row where the account is its owner. -/
theorem findByUuidAndUser_iff {id : Text} {r : AuthRequest} {user : Uuid} (h : requests.findByUuid id=some r) :
    requests.findByUuidAndUser id user=some r ↔ r.userUuid=user := by
  obtain ⟨hr,huuid⟩ := uuid_of_findByUuid h
  constructor
  · intro hfound
    have howner := List.find?_some hfound
    rw [decide_eq_true_eq] at howner
    exact howner.2
  · intro howner
    have hsome : (requests.findByUuidAndUser id user).isSome=true := by
      rw [AuthRequests.findByUuidAndUser,List.find?_isSome]
      exact ⟨r,hr,decide_eq_true ⟨huuid,howner⟩⟩
    obtain ⟨q,hq⟩ := Option.isSome_iff_exists.mp hsome
    have hkey := List.find?_some hq
    rw [decide_eq_true_eq] at hkey
    have hsame : q=r := eq_of_key requests.keyed (List.mem_of_find?_eq_some hq) hr (hkey.1.trans huuid.symm)
    rw [hq,hsame]

/-- What the check before a token accepts. -/
def Accepted (settings : FactorSettings) (requests : AuthRequests) (client : ClientHeaders)
    (data : SendEmailLoginData) (user : User) : Prop :=
  (∃ hash,given data.masterPasswordHash=some hash ∧ User.checkValidPassword settings user hash=true) ∨
    ∃ r code,Deciding requests client data r code

/-- With a hash, the password decides. -/
theorem accepted_hash {hash : Text} (h : given data.masterPasswordHash=some hash) :
    Accepted settings requests client data user ↔ User.checkValidPassword settings user hash=true := by
  constructor
  · rintro (⟨hash',hhash,hvalid⟩|⟨r,code,hdeciding⟩)
    · rw [h] at hhash
      cases hhash
      exact hvalid
    · have hno := hdeciding.noHash
      rw [h] at hno
      cases hno
  · exact fun hvalid => .inl ⟨hash,h,hvalid⟩

/-- Without one, a request does. -/
theorem accepted_request (h : given data.masterPasswordHash=none) :
    Accepted settings requests client data user ↔ ∃ r code,Deciding requests client data r code := by
  constructor
  · rintro (⟨hash,hhash,-⟩|hdeciding)
    · rw [h] at hhash
      cases hhash
    · exact hdeciding
  · exact .inr

theorem checkCredentials_iff :
    Ends (checkCredentials settings requests client data user) db
      fun r _ => r=.ok () ↔ Accepted settings requests client data user := by
  have hrefused : ∀ e,¬Accepted settings requests client data user →
      ((.error e : Except String Unit)=.ok () ↔ Accepted settings requests client data user) :=
    fun e h => ⟨fun he => (by cases he),fun hno => absurd hno h⟩
  unfold checkCredentials
  split
  · rename_i hash hhash
    have haccepted : Accepted settings requests client data user ↔
        User.checkValidPassword settings user hash=true := accepted_hash hhash
    refine Ends.ensure_done (fun hvalid => ?_) fun hwrong => hrefused _ fun h => ?_
    · exact ⟨fun _ => haccepted.mpr hvalid,fun _ => rfl⟩
    · rw [haccepted.mp h] at hwrong
      cases hwrong
  · rename_i hnone
    have haccepted : Accepted settings requests client data user ↔
        ∃ r code,Deciding requests client data r code := accepted_request hnone
    split
    · rename_i id hid
      -- The request and the code that decide are the ones that are found.
      have hfound : Accepted settings requests client data user → ∃ r code,
          requests.findByUuid id=some r ∧ data.authRequestAccessCode=some code ∧
            Deciding requests client data r code := by
        intro h
        obtain ⟨r,code,hdeciding⟩ := haccepted.mp h
        obtain ⟨id',hid',hr⟩ := hdeciding.named
        rw [hid] at hid'
        cases hid'
        exact ⟨r,code,hr,hdeciding.entered,hdeciding⟩
      refine Ends.expect (fun r hr => Ends.expect (fun code hcode => ?_) fun hcode => ?_) fun hr => ?_
      · refine Ends.ensure_done (fun hmatch => ?_) fun hmatch => hrefused _ fun h => ?_
        · rw [Bool.and_eq_true,Bool.and_eq_true,decide_eq_true_eq,decide_eq_true_eq] at hmatch
          obtain ⟨⟨hdevice,hip⟩,hmatching⟩ := hmatch
          have hdeciding : Deciding requests client data r code :=
            ⟨hnone,⟨id,hid,hr⟩,hcode,hdevice,hip,hmatching⟩
          exact ⟨fun _ => haccepted.mpr ⟨r,code,hdeciding⟩,fun _ => rfl⟩
        · obtain ⟨q,entered,hq,hentered,hdeciding⟩ := hfound h
          rw [hr] at hq
          cases hq
          rw [hcode] at hentered
          cases hentered
          rw [decide_eq_true hdeciding.device,decide_eq_true hdeciding.ip,hdeciding.matching] at hmatch
          cases hmatch
      · refine hrefused _ fun h => ?_
        obtain ⟨q,entered,-,hentered,-⟩ := hfound h
        rw [hcode] at hentered
        cases hentered
      · refine hrefused _ fun h => ?_
        obtain ⟨q,entered,hq,-,-⟩ := hfound h
        rw [hr] at hq
        cases hq
    · rename_i hid
      refine hrefused _ fun h => ?_
      obtain ⟨r,code,hdeciding⟩ := haccepted.mp h
      obtain ⟨id,hsome,-⟩ := hdeciding.named
      rw [hid] at hsome
      cases hsome

/-- A token goes to the account of the address, if its credentials are
accepted. -/
theorem emailLoginUser_iff (hmail : given data.email≠none) :
    (complete (emailLoginUser settings requests client findByDevice data) db).1=.ok user ↔
      Addressed settings data db user ∧ Accepted settings requests client data user := by
  obtain ⟨mail,hsome⟩ := Option.ne_none_iff_exists'.mp hmail
  have haddress : Addressed settings data db user ↔
      db.users.find? (fun u => decide (u.email=settings.toLowercase mail))=some user := by
    constructor
    · rintro ⟨m,hm,hfind⟩
      rw [hsome] at hm
      cases hm
      exact hfind
    · exact fun hfind => ⟨mail,hsome,hfind⟩
  rw [haddress]
  show Ends (emailLoginUser settings requests client findByDevice data) db fun r _ => r=.ok user ↔ _
  unfold emailLoginUser
  rw [hsome]
  refine ends_lookup (Ends.expect (fun found hfound => ?_) fun hnone => ?_)
  · rw [hfound,Option.some_inj]
    refine (checkCredentials_iff).bind (fun _ db' h => ?_) fun e db' h => ?_
    · have haccepted := h.mp rfl
      refine ⟨fun hr => ?_,fun hr => congrArg Except.ok hr.1⟩
      cases hr
      exact ⟨rfl,haccepted⟩
    · refine ⟨fun hr => (by cases hr),fun ⟨hsame,haccepted⟩ => ?_⟩
      subst hsame
      cases h.mpr haccepted
  · rw [hnone]
    exact ⟨fun hr => (by cases hr),fun hr => (by cases hr.1)⟩

/-- A login with a password. -/
theorem passes_password {ip password : Text} :
    Passes (passwordLoginCheck settings requests ip user none password) db ↔
      User.checkValidPassword settings user password=true := by
  show Ends (passwordLoginCheck settings requests ip user none password) db fun r _ => (∃ a,r=.ok a) ↔ _
  refine Ends.ensure_done (fun h => ⟨fun _ => h,fun _ => ⟨(),rfl⟩⟩) fun h => ?_
  rw [h]
  exact ⟨fun ⟨_,he⟩ => (by cases he),fun he => (by cases he)⟩

/-- A login with a request that is found by its key. -/
theorem passes_request {ip id code : Text} {r : AuthRequest} (hr : requests.findByUuid id=some r) :
    Passes (passwordLoginCheck settings requests ip user (some id) code) db ↔
      (r.userUuid=user.uuid ∧ r.approved=some true ∧ db.now<r.creationDate+300) ∧
        ip=r.requestIp ∧ r.checkAccessCode code=true := by
  show Ends (passwordLoginCheck settings requests ip user (some id) code) db fun r _ => (∃ a,r=.ok a) ↔ _
  refine Ends.expect (fun q hq => ends_utcNow ?_) fun hnone => ?_
  · have hsame : q=r := by
      obtain ⟨hmem,huuid⟩ := uuid_of_findByUuid hr
      have hkey := List.find?_some hq
      rw [decide_eq_true_eq] at hkey
      exact eq_of_key requests.keyed (List.mem_of_find?_eq_some hq) hmem (hkey.1.trans huuid.symm)
    subst hsame
    refine Ends.ensure_done (fun h => ?_) fun h => ⟨fun ⟨_,he⟩ => (by cases he),fun hall => ?_⟩
    · simp only [Bool.and_eq_true,decide_eq_true_eq,Option.getD_eq_iff] at h
      obtain ⟨⟨⟨⟨howner,happroved⟩,htime⟩,hip⟩,hcode⟩ := h
      refine ⟨fun _ => ⟨⟨howner,?_,htime⟩,hip,hcode⟩,fun _ => ⟨(),rfl⟩⟩
      simpa using happroved
    · obtain ⟨⟨howner,happroved,htime⟩,hip,hcode⟩ := hall
      rw [decide_eq_true howner,happroved,decide_eq_true htime,decide_eq_true hip,hcode] at h
      cases h
  · refine ⟨fun ⟨_,he⟩ => (by cases he),fun ⟨⟨howner,_,_⟩,_,_⟩ => ?_⟩
    rw [(findByUuidAndUser_iff hr).mpr howner] at hnone
    cases hnone

/-- Whoever gets a token passes the first factor of a login, exactly if a
request that decides belongs to the account, is approved and not expired. -/
theorem first_factor_agrees (hmail : given data.email≠none) :
    Agree settings requests client findByDevice data db ↔ Honoured settings requests client data db := by
  constructor
  · intro h user r code haddressed hdeciding
    have hpassed : (complete (emailLoginUser settings requests client findByDevice data) db).1=.ok user :=
      (emailLoginUser_iff hmail).mpr ⟨haddressed,.inr ⟨r,code,hdeciding⟩⟩
    obtain ⟨authRequest,password,hlogin,hpasses⟩ := h user hpassed
    obtain ⟨id,hid,hr⟩ := hdeciding.named
    rw [SendEmailLoginData.login,hdeciding.noHash,hid,hdeciding.entered] at hlogin
    cases hlogin
    exact ((passes_request hr).mp hpasses).1
  · intro h user hpassed
    obtain ⟨haddressed,haccepted⟩ := (emailLoginUser_iff hmail).mp hpassed
    rcases haccepted with ⟨hash,hhash,hvalid⟩|⟨r,code,hdeciding⟩
    · refine ⟨none,hash,?_,(passes_password).mpr hvalid⟩
      rw [SendEmailLoginData.login,hhash]
    · obtain ⟨id,hid,hr⟩ := hdeciding.named
      refine ⟨some id,code,?_,(passes_request hr).mpr ?_⟩
      · rw [SendEmailLoginData.login,hdeciding.noHash,hid,hdeciding.entered]
      · exact ⟨h user r code haddressed hdeciding,hdeciding.ip.symm,hdeciding.matching⟩

end Agreement

section Samples

/-- Two accounts. -/
def accounts : Database := ⟨{Tables.none with
  users := [User.new 1 0 [] 600000 ['a'] none,User.new 2 0 [] 600000 ['b'] none]
  now := 10
  next := 3},by decide⟩

/-- The first account has asked for a login, and so has the second one. -/
def pending : AuthRequests :=
  ⟨[⟨['r'],1,9,['i'],['c'],some true,0⟩,⟨['s'],2,9,['i'],['d'],none,0⟩],by decide⟩

/-- A browser. -/
def browser : ClientHeaders := ⟨9,['i']⟩

/-- A token is asked for, for the address of the first account, with a
request and its access code. -/
def byRequest (id code : Text) : SendEmailLoginData := ⟨none,some ['a'],none,some id,some code⟩

/-- The request of the second account, that nobody has approved, is accepted
for the first one. -/
theorem foreign_request_accepted : ¬Agree TotpRuns.countingSettings pending browser (fun _ => none)
    (byRequest ['s'] ['d']) accounts := by
  intro h
  have hpassed : (complete (emailLoginUser TotpRuns.countingSettings pending browser (fun _ => none)
      (byRequest ['s'] ['d'])) accounts).1=.ok (User.new 1 0 [] 600000 ['a'] none) := by decide
  obtain ⟨authRequest,password,hlogin,r,hr⟩ := h _ hpassed
  have hfields : (byRequest ['s'] ['d']).login=some (some ['s'],['d']) := by decide
  rw [hfields] at hlogin
  cases hlogin
  have hrefused : (complete (passwordLoginCheck TotpRuns.countingSettings pending browser.ip
      (User.new 1 0 [] 600000 ['a'] none) (some ['s']) ['d']) accounts).1=
        .error "Auth request not found. Try again." := by decide
  rw [hrefused] at hr
  cases hr

/-- Its own request is accepted by both. -/
theorem first_factor_agrees_own : Agree TotpRuns.countingSettings pending browser (fun _ => none)
    (byRequest ['r'] ['c']) accounts := by
  refine (first_factor_agrees (by decide)).mpr fun user r code haddressed hdeciding => ?_
  obtain ⟨mail,hmail,hfound⟩ := haddressed
  obtain ⟨id,hid,hr⟩ := hdeciding.named
  cases hmail
  cases hid
  cases hfound
  cases hr
  exact ⟨rfl,rfl,by decide⟩

end Samples

end NadSafe.FirstFactor
