import NadSafe.AccountRequests
import NadSafe.FirstFactor

/-!
# Logins that another device approves

A device without a password leaves a request with an access code and a public
key; a device that is signed in to the account answers it; the first device
fetches the answer or signs in with the code. Requests are a table of their
own beside the database, and their uuids, which are drawn, come with the
operation. Notifications, events and the name of the kind of a device are left
out. No exception of an older stamp names the routes of this module.
-/

namespace NadSafe.AuthRequests

open HostText TableRows AsyncScript PlannedScript ServerTables StoreScript SecondFactors
open FirstFactor (ClientHeaders)
open AccountRequests (LoginJwtClaims)

/-- A row of `auth_requests`, with the columns that only these handlers use. -/
structure AuthRequest extends FirstFactor.AuthRequest where
  /-- The device that asks. -/
  requestDeviceIdentifier : Uuid
  /-- The device that has answered. -/
  responseDeviceId : Option Uuid
  /-- Key that the answer is wrapped with. -/
  publicKey : Text
  /-- Wrapped user key. -/
  encKey : Option Text
  /-- Wrapped hash of the master password. -/
  masterPasswordHash : Option Text
  /-- When it was answered. -/
  responseDate : Option ℤ
  deriving DecidableEq

/-- What the handlers work on. -/
structure Store where
  /-- The other tables. -/
  db : Database
  /-- The column `atype` of a device, by its key. -/
  atype : Uuid×Uuid → ℤ
  /-- The table `auth_requests`. -/
  requests : List AuthRequest
  /-- Its key. -/
  keyed : (requests.map fun r => r.uuid).Nodup

/-- A handler. -/
abbrev Action (α : Type) := Handler Store String α

/-- `AuthRequest::find_by_uuid`. -/
def AuthRequest.findByUuid (uuid : Text) : Action (Option AuthRequest) :=
  query fun s => s.requests.find? fun r => r.uuid=uuid

/-- `AuthRequest::find_by_uuid_and_user`. -/
def AuthRequest.findByUuidAndUser (uuid : Text) (user : Uuid) : Action (Option AuthRequest) :=
  query fun s => s.requests.find? fun r => r.uuid=uuid ∧ r.userUuid=user

/-- The table with a row. -/
def Store.put (s : Store) (r : AuthRequest) : Store where
  db := s.db
  atype := s.atype
  requests := TableRows.put (fun r => r.uuid) r s.requests
  keyed := nodup_put s.keyed

/-- The table without the row of a key. -/
def Store.drop (s : Store) (uuid : Text) : Store where
  db := s.db
  atype := s.atype
  requests := s.requests.filter fun r => r.uuid≠uuid
  keyed := s.keyed.sublist (List.filter_sublist.map _)

/-- `AuthRequest::save`, refused without the account. -/
def AuthRequest.save (r : AuthRequest) : Action Unit :=
  execute "Error auth_request" fun s =>
    if (s.db.users.any fun u => u.uuid=r.userUuid)=true then some (s.put r) else none

/-- `AuthRequest::delete`. -/
def AuthRequest.delete (r : AuthRequest) : Action Unit :=
  execute "Error deleting auth request" fun s => some (s.drop r.uuid)

/-- `Utc::now`, which is not a statement. -/
def utcNow : Action ℤ := do
  let s ← Script.perform Statement.read
  pure s.db.now

/-- The guard of these routes. -/
def headers (claims : LoginJwtClaims) : Action (Device×User) := do
  let device ← query fun s => s.db.devices.find? fun d => d.uuid=claims.device ∧ d.userUuid=claims.sub
  let device ← expect "Invalid device id" device
  let user ← query fun s => s.db.users.find? fun u => u.uuid=claims.sub
  let user ← expect "Device has no user associated" user
  ensure "Invalid security stamp" (decide (user.securityStamp=claims.sstamp))
  pure (device,user)

/-- What a response shows of a request. -/
structure View where
  /-- `publicKey`. -/
  publicKey : Text
  /-- `requestDeviceType`. -/
  requestDeviceType : ℤ
  /-- `requestIpAddress`. -/
  requestIpAddress : Text
  /-- `key`. -/
  key : Option Text
  /-- `masterPasswordHash`. -/
  masterPasswordHash : Option Text
  /-- `creationDate`. -/
  creationDate : ℤ
  /-- `responseDate`. -/
  responseDate : Option ℤ
  /-- `requestApproved`. -/
  requestApproved : Option Bool
  deriving DecidableEq

/-- The response for a row. -/
def AuthRequest.toJson (r : AuthRequest) : View :=
  ⟨r.publicKey,r.deviceType,r.requestIp,r.encKey,r.masterPasswordHash,r.creationDate,r.responseDate,r.approved⟩

/-- `AuthRequestRequest`. -/
structure AuthRequestRequest where
  /-- Access code. -/
  accessCode : Text
  /-- The device that asks. -/
  deviceIdentifier : Uuid
  /-- Address of the account. -/
  email : Text
  /-- Key that the answer is to be wrapped with. -/
  publicKey : Text
  deriving DecidableEq

/-- `AuthRequest::new`. -/
def AuthRequest.new (uuid : Text) (now : ℤ) (user : Uuid) (client : ClientHeaders) (data : AuthRequestRequest) :
    AuthRequest where
  uuid := uuid
  userUuid := user
  deviceType := client.deviceType
  requestIp := client.ip
  accessCode := data.accessCode
  approved := none
  creationDate := now
  requestDeviceIdentifier := data.deviceIdentifier
  responseDeviceId := none
  publicKey := data.publicKey
  encKey := none
  masterPasswordHash := none
  responseDate := none

/-- `post_auth_request`. -/
def postAuthRequest (settings : FactorSettings) (uuid : Text) (data : AuthRequestRequest)
    (client : ClientHeaders) : Action View := do
  let user ← query fun s => s.db.users.find? fun u => u.email=settings.toLowercase data.email
  let user ← expect "AuthRequest doesn't exist" user
  let device ← query fun s =>
    (s.db.devices.find? fun d => d.uuid=data.deviceIdentifier ∧ d.userUuid=user.uuid).filter fun d =>
      s.atype d.key=client.deviceType
  let _ ← expect "AuthRequest doesn't exist" device
  let now ← utcNow
  let r := AuthRequest.new uuid now user.uuid client data
  r.save
  pure {r.toJson with requestApproved := some false}

/-- `get_auth_request`. -/
def getAuthRequest (claims : LoginJwtClaims) (id : Text) : Action View := do
  let (_,user) ← headers claims
  let r ← AuthRequest.findByUuidAndUser id user.uuid
  let r ← expect "AuthRequest doesn't exist" r
  pure r.toJson

/-- `AuthResponseRequest`. -/
structure AuthResponseRequest where
  /-- The device that answers. -/
  deviceIdentifier : Uuid
  /-- Wrapped user key. -/
  key : Text
  /-- Wrapped hash of the master password. -/
  masterPasswordHash : Option Text
  /-- The answer. -/
  requestApproved : Bool
  deriving DecidableEq

/-- A row that is approved. -/
def AuthRequest.approve (r : AuthRequest) (data : AuthResponseRequest) (now : ℤ) : AuthRequest :=
  {r with
    approved := some true
    encKey := some data.key
    masterPasswordHash := data.masterPasswordHash
    responseDeviceId := some data.deviceIdentifier
    responseDate := some now}

/-- `put_auth_request`. -/
def putAuthRequest (claims : LoginJwtClaims) (id : Text) (data : AuthResponseRequest) : Action View := do
  let (device,user) ← headers claims
  let r ← AuthRequest.findByUuidAndUser id user.uuid
  let r ← expect "AuthRequest doesn't exist" r
  ensure "AuthRequest doesn't exist" (decide (device.uuid=data.deviceIdentifier))
  ensure "An authentication request with the same device already exists" (decide (r.approved=none))
  let now ← utcNow
  if data.requestApproved=true then do
    (r.approve data now).save
    pure (r.approve data now).toJson
  else do
    r.delete
    pure {r.toJson with responseDate := some now}

/-- `get_auth_request_response`. -/
def getAuthRequestResponse (id code : Text) (client : ClientHeaders) : Action View := do
  let r ← AuthRequest.findByUuid id
  let r ← expect "AuthRequest doesn't exist" r
  ensure "AuthRequest doesn't exist" (decide (r.deviceType=client.deviceType) &&
    decide (r.requestIp=client.ip) && r.checkAccessCode code)
  pure r.toJson

/-- `get_auth_requests_pending`. -/
def getAuthRequestsPending (claims : LoginJwtClaims) : Action (List (Text×View)) := do
  let (_,user) ← headers claims
  let requests ← query fun s => s.requests.filter fun r => r.userUuid=user.uuid
  pure ((requests.filter fun r => r.approved=none).map fun r => (r.uuid,r.toJson))

/-- The account that a login with a request opens: the beginning of
`password_login`. -/
def loginWithRequest (settings : FactorSettings) (mail id code ip : Text) : Action User := do
  let user ← query fun s => s.db.users.find? fun u => u.email=settings.toLowercase mail
  let user ← expect "Username or password is incorrect. Try again" user
  let r ← AuthRequest.findByUuidAndUser id user.uuid
  let r ← expect "Auth request not found. Try again." r
  let now ← utcNow
  ensure "Username or access code is incorrect. Try again"
    (decide (r.userUuid=user.uuid) && r.approved.getD false && decide (now<r.creationDate+300) &&
      decide (ip=r.requestIp) && r.checkAccessCode code)
  pure user

/-- `AuthRequest::purge_expired_auth_requests`. A failed deletion is only
logged. -/
def purgeExpiredAuthRequests : Action Unit := do
  let now ← utcNow
  let requests ← query fun s => s.requests.filter fun r => r.creationDate<now-900
  each requests fun r => StoreScript.ok r.delete

/-- Rows as the first factor reads them. -/
def Store.firstFactor (s : Store) : FirstFactor.AuthRequests where
  rows := s.requests.map AuthRequest.toAuthRequest
  keyed := by
    rw [List.map_map]
    exact s.keyed

/-- The first factor finds the row that the handlers find. -/
theorem firstFactor_findByUuidAndUser (s : Store) (id : Text) (user : Uuid) :
    s.firstFactor.findByUuidAndUser id user=
      (s.requests.find? fun r => r.uuid=id ∧ r.userUuid=user).map AuthRequest.toAuthRequest := by
  unfold FirstFactor.AuthRequests.findByUuidAndUser Store.firstFactor
  rw [List.find?_map]
  rfl

/-- Who signs in with a request of an account. -/
def Opens (s : Store) (id code ip : Text) (user : Uuid) : Prop :=
  ∃ r,s.requests.find? (fun r => r.uuid=id ∧ r.userUuid=user)=some r ∧ r.approved=some true ∧
    s.db.now<r.creationDate+300 ∧ r.requestIp=ip ∧ r.accessCode=code

section Login

variable {settings : FactorSettings} {mail id code ip : Text} {s : Store} {user : User}

/-- The condition of a login with a request. -/
theorem opens_condition {r : FirstFactor.AuthRequest} {now : ℤ} :
    (decide (r.userUuid=user.uuid) && r.approved.getD false && decide (now<r.creationDate+300) &&
      decide (ip=r.requestIp) && r.checkAccessCode code)=true ↔
        r.userUuid=user.uuid ∧ r.approved=some true ∧ now<r.creationDate+300 ∧ r.requestIp=ip ∧ r.accessCode=code := by
  have happroved : r.approved.getD false=true ↔ r.approved=some true := by
    cases r.approved with
    | none => simp
    | some b => simp
  unfold FirstFactor.AuthRequest.checkAccessCode
  simp only [Bool.and_eq_true,decide_eq_true_eq,happroved,and_assoc,eq_comm (a:=ip)]

/-- The clock is read. -/
theorem ends_utcNow {α : Type} {g : ℤ → Action α} {P : Except String α → Store → Prop}
    (h : Ends (g s.db.now) s P) : Ends (utcNow.bind g) s P := h

/-- A login that runs alone opens the account of the address. -/
theorem loginWithRequest_iff : (complete (loginWithRequest settings mail id code ip) s).1=.ok user ↔
    s.db.users.find? (fun u => u.email=settings.toLowercase mail)=some user ∧ Opens s id code ip user.uuid := by
  show Ends (loginWithRequest settings mail id code ip) s fun r _ => r=.ok user ↔ _
  unfold loginWithRequest AuthRequest.findByUuidAndUser
  refine Ends.query (Ends.expect (fun found hfound => ?_) fun hnone => ?_)
  · rw [hfound,Option.some_inj]
    refine Ends.query (Ends.expect (fun r hr => ?_) fun hnone => ?_)
    · have howner := List.find?_some hr
      rw [decide_eq_true_eq] at howner
      have hopens : Opens s id code ip found.uuid ↔ r.userUuid=found.uuid ∧ r.approved=some true ∧
          s.db.now<r.creationDate+300 ∧ r.requestIp=ip ∧ r.accessCode=code := by
        constructor
        · rintro ⟨q,hq,hopens⟩
          rw [hr] at hq
          cases hq
          exact ⟨howner.2,hopens⟩
        · exact fun h => ⟨r,hr,h.2⟩
      refine ends_utcNow (Ends.ensure (fun h => ?_) fun h => ?_)
      · refine ⟨fun he => ?_,fun he => congrArg Except.ok he.1⟩
        cases he
        exact ⟨rfl,hopens.mpr ((opens_condition).mp h)⟩
      · refine ⟨fun he => (by cases he),fun ⟨hsame,he⟩ => ?_⟩
        subst hsame
        rw [(opens_condition).mpr (hopens.mp he)] at h
        cases h
    · refine ⟨fun he => (by cases he),fun ⟨hsame,r,hr,_⟩ => ?_⟩
      subst hsame
      rw [hnone] at hr
      cases hr
  · rw [hnone]
    exact ⟨fun he => (by cases he),fun he => (by cases he.1)⟩

/-- The check of the first factor accepts the same. -/
theorem passwordLoginCheck_iff :
    (complete (FirstFactor.passwordLoginCheck settings s.firstFactor ip user (some id) code) s.db).1=.ok () ↔
      Opens s id code ip user.uuid := by
  show Ends (FirstFactor.passwordLoginCheck settings s.firstFactor ip user (some id) code) s.db
    fun r _ => r=.ok () ↔ _
  unfold FirstFactor.passwordLoginCheck
  dsimp only
  rw [firstFactor_findByUuidAndUser]
  refine Ends.expect (fun r hr => ?_) fun hnone => ?_
  · obtain ⟨q,hq,rfl⟩ := Option.map_eq_some_iff.mp hr
    have howner := List.find?_some hq
    rw [decide_eq_true_eq] at howner
    have hopens : Opens s id code ip user.uuid ↔ q.userUuid=user.uuid ∧ q.approved=some true ∧
        s.db.now<q.creationDate+300 ∧ q.requestIp=ip ∧ q.accessCode=code := by
      constructor
      · rintro ⟨p,hp,hopens⟩
        rw [hq] at hp
        cases hp
        exact ⟨howner.2,hopens⟩
      · exact fun h => ⟨q,hq,h.2⟩
    refine FactorRows.ends_utcNow (Ends.ensure_done (fun h => ?_) fun h => ?_)
    · exact ⟨fun _ => hopens.mpr ((opens_condition).mp h),fun _ => rfl⟩
    · refine ⟨fun he => (by cases he),fun he => ?_⟩
      have hcondition := (opens_condition).mpr (hopens.mp he)
      rw [h] at hcondition
      cases hcondition
  · refine ⟨fun he => (by cases he),fun ⟨r,hr,_⟩ => ?_⟩
    rw [hr] at hnone
    cases hnone

end Login

end NadSafe.AuthRequests
