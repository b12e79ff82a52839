import NadSafe.AccountHandlers

/-!
# Emergency access

The handlers of emergency access and the job that approves recoveries after
their waiting time, each as its sequence of statements. A grantor invites,
confirms, approves and rejects; a grantee accepts, initiates and takes over.
The claims of an invitation token are given with the request. Reminders are
left out.
-/

namespace NadSafe.EmergencyHandlers

open HostText TableRows AsyncScript ServerTables StoreScript ServerModels OrgHandlers SecondFactors
open AccountHandlers
open CipherHandlers (headers Panic)

/-- `EmergencyAccessStatus::Invited`. -/
def EmergencyAccess.Invited : ℤ := 0

/-- `EmergencyAccessStatus::Accepted`. -/
def EmergencyAccess.Accepted : ℤ := 1

/-- `EmergencyAccessStatus::RecoveryInitiated`. -/
def EmergencyAccess.RecoveryInitiated : ℤ := 3

/-- `EmergencyAccessStatus::RecoveryApproved`. -/
def EmergencyAccess.RecoveryApproved : ℤ := 4

/-- `EmergencyAccessType::View`. -/
def EmergencyAccess.View : ℤ := 0

/-- `EmergencyAccessType::Takeover`. -/
def EmergencyAccess.Takeover : ℤ := 1

/-- `EmergencyAccessType::from_str`. -/
def EmergencyAccess.typeFromStr (s : Text) : Option ℤ :=
  if s="0".toList ∨ s="View".toList then some EmergencyAccess.View
  else if s="1".toList ∨ s="Takeover".toList then some EmergencyAccess.Takeover
  else none

/-- `EmergencyAccess::new`. -/
def EmergencyAccess.new (uuid grantorUuid : Uuid) (email : Text) (status atype waitTimeDays : ℤ) :
    EmergencyAccess :=
  ⟨uuid,grantorUuid,none,some email,none,atype,status,waitTimeDays,none,none⟩

/-- `EmergencyAccess::save`. -/
def EmergencyAccess.save (e : EmergencyAccess) : Action Unit :=
  update "Error saving emergency access" fun t =>
    {t with emergencyAccess := put ServerTables.EmergencyAccess.uuid e t.emergencyAccess}

/-- `EmergencyAccess::find_by_uuid_and_grantor_uuid`. -/
def EmergencyAccess.findByUuidAndGrantorUuid (uuid grantor : Uuid) : Action (Option EmergencyAccess) :=
  lookup fun t => t.emergencyAccess.find? fun e => e.uuid=uuid ∧ e.grantorUuid=grantor

/-- `EmergencyAccess::find_by_uuid_and_grantee_uuid`. -/
def EmergencyAccess.findByUuidAndGranteeUuid (uuid grantee : Uuid) : Action (Option EmergencyAccess) :=
  lookup fun t => t.emergencyAccess.find? fun e => e.uuid=uuid ∧ e.granteeUuid=some grantee

/-- `EmergencyAccess::find_by_uuid_and_grantee_email`. -/
def EmergencyAccess.findByUuidAndGranteeEmail (uuid : Uuid) (email : Text) : Action (Option EmergencyAccess) :=
  lookup fun t => t.emergencyAccess.find? fun e => e.uuid=uuid ∧ e.email=some email

/-- `EmergencyAccess::accept_invite`. -/
def EmergencyAccess.acceptInvite (e : EmergencyAccess) (granteeUuid : Uuid) (granteeEmail : Text) :
    Action Unit := do
  ensure "User email does not match invite." (decide (e.email=some granteeEmail))
  ensure "Emergency contact already accepted." (decide (e.status≠EmergencyAccess.Accepted))
  EmergencyAccess.save {e with
    status := EmergencyAccess.Accepted, granteeUuid := some granteeUuid, email := none}

/-- `check_emergency_access_enabled`. -/
def checkEmergencyAccessEnabled (settings : AccountSettings) : Action Unit :=
  ensure "Emergency access is not enabled." settings.emergencyAccessAllowed

/-- `is_valid_request`. -/
def isValidRequest (e : EmergencyAccess) (requesting : Uuid) (type : ℤ) : Bool :=
  e.granteeUuid=some requesting ∧ e.status=EmergencyAccess.RecoveryApproved ∧ e.atype=type

/-- A mail that is sent if there is a mail server. -/
def mailTo (settings : AccountSettings) (out : Outside) (address : Text) : Action Unit :=
  if settings.mailEnabled=true then ensure "Error sending mail" (out.delivers address) else pure ()

/-- The record of a caller that is its grantor. -/
def recordOfGrantor (id caller : Uuid) : Action EmergencyAccess := do
  let found ← EmergencyAccess.findByUuidAndGrantorUuid id caller
  expect "Emergency access not valid." found

/-- The record of a caller that is its grantee. -/
def recordOfGrantee (id caller : Uuid) : Action EmergencyAccess := do
  let found ← EmergencyAccess.findByUuidAndGranteeUuid id caller
  expect "Emergency access not valid." found

/-- The account that a record names. -/
def accountOf (message : String) (uuid : Option Uuid) : Action User :=
  match uuid with
  | some uuid => do
    let found ← User.findByUuid uuid
    expect message found
  | none => throw message

/-- `to_json_grantor_details`, as far as it may fail. -/
def EmergencyAccess.toJsonGrantorDetails (e : EmergencyAccess) : Action Unit := do
  let _ ← accountOf Panic (some e.grantorUuid)

/-- `to_json_grantee_details`, and whether there are details. Invitations of
an address without an account are removed. -/
def EmergencyAccess.toJsonGranteeDetails (settings : AccountSettings) (e : EmergencyAccess) : Action Bool :=
  match e.granteeUuid,e.email with
  | some grantee,_ => do
    let _ ← accountOf Panic (some grantee)
    pure true
  | none,some email => do
    let found ← User.findByMail settings.toSettings email
    match found with
    | some _ => pure true
    | none => do
      ok (do
        let invited ← lookup fun t => t.emergencyAccess.filter fun e =>
          e.email=some email ∧ e.status=EmergencyAccess.Invited
        each invited ServerModels.EmergencyAccess.delete)
      pure false
  | none,none => pure false

/-- `get_contacts`. -/
def getContacts (settings : AccountSettings) (caller : Uuid) : Action Unit := do
  let user ← headers caller
  let list ← lookup fun t =>
    if settings.emergencyAccessAllowed=true then t.emergencyAccess.filter fun e => e.grantorUuid=user.uuid
    else []
  each list fun e => do
    let _ ← EmergencyAccess.toJsonGranteeDetails settings e

/-- `get_grantees`. -/
def getGrantees (settings : AccountSettings) (caller : Uuid) : Action Unit := do
  let user ← headers caller
  let list ← lookup fun t =>
    if settings.emergencyAccessAllowed=true then t.emergencyAccess.filter fun e => e.granteeUuid=some user.uuid
    else []
  each list EmergencyAccess.toJsonGrantorDetails

/-- `get_emergency_access`. -/
def getEmergencyAccess (settings : AccountSettings) (caller id : Uuid) : Action Unit := do
  let user ← headers caller
  checkEmergencyAccessEnabled settings
  let e ← recordOfGrantor id user.uuid
  let detailed ← EmergencyAccess.toJsonGranteeDetails settings e
  ensure Panic detailed

/-- `EmergencyAccessUpdateData`. -/
structure EmergencyAccessUpdateData where
  /-- Type. -/
  type : NumberOrString
  /-- Days that a recovery waits. -/
  waitTimeDays : ℤ
  /-- The user key, sealed for the grantee. -/
  keyEncrypted : Option Text

/-- `post_emergency_access`. -/
def postEmergencyAccess (settings : AccountSettings) (caller id : Uuid) (data : EmergencyAccessUpdateData) :
    Action Unit := do
  let user ← headers caller
  checkEmergencyAccessEnabled settings
  let e ← recordOfGrantor id user.uuid
  let type ← expect "Invalid emergency access type."
    (EmergencyAccess.typeFromStr (NumberOrString.intoString data.type))
  EmergencyAccess.save {e with
    atype := type, waitTimeDays := data.waitTimeDays, keyEncrypted := data.keyEncrypted.or e.keyEncrypted}

/-- The record that one of its two parties deletes. -/
def deletable (grantor grantee : Option EmergencyAccess) : Option EmergencyAccess :=
  match grantor,grantee with
  | some e,none => some e
  | none,some e => some e
  | _,_ => none

/-- `delete_emergency_access`. -/
def deleteEmergencyAccess (settings : AccountSettings) (caller id : Uuid) : Action Unit := do
  let user ← headers caller
  checkEmergencyAccessEnabled settings
  let grantor ← EmergencyAccess.findByUuidAndGrantorUuid id user.uuid
  let grantee ← EmergencyAccess.findByUuidAndGranteeUuid id user.uuid
  let e ← expect "Emergency access not valid." (deletable grantor grantee)
  ServerModels.EmergencyAccess.delete e

/-- The account of an invited address, created if there is none, and whether
it has not been registered. -/
def invitedGrantee (settings : AccountSettings) (out : Outside) (email : Text) : Action (User×Bool) := do
  let found ← User.findByMail settings.toSettings email
  match found with
  | none => do
    ensure ("Grantee user does not exist: "++String.ofList email) settings.invitationsAllowed
    ensure "Email domain not eligible for invitations" (settings.isEmailDomainAllowed email)
    inviteByTable settings.toSettings email
    let uuid ← getUuid
    let stamp ← getUuid
    let user := ServerTables.User.new uuid stamp out.randomBytes settings.passwordIterations
      (settings.toLowercase email) none
    User.save settings.toSettings user
    pure (user,true)
  | some user => pure (user,decide (user.passwordHash=[]))

/-- `send_invite`. -/
def sendInvite (settings : AccountSettings) (out : Outside) (caller : Uuid) (email : Text)
    (type : NumberOrString) (waitTimeDays : ℤ) : Action Unit := do
  let grantor ← headers caller
  checkEmergencyAccessEnabled settings
  let email := settings.toLowercase email
  let type ← expect "Invalid emergency access type."
    (EmergencyAccess.typeFromStr (NumberOrString.intoString type))
  ensure "You can not set yourself as an emergency contact." (decide (email≠grantor.email))
  let (grantee,newUser) ← invitedGrantee settings out email
  let present ← lookup fun t => t.emergencyAccess.any fun e =>
    e.grantorUuid=grantor.uuid ∧ (e.granteeUuid=some grantee.uuid ∨ e.email=some grantee.email)
  ensure ("Grantee user already invited: "++String.ofList grantee.email) (!present)
  let uuid ← getUuid
  let e := EmergencyAccess.new uuid grantor.uuid grantee.email EmergencyAccess.Invited type waitTimeDays
  EmergencyAccess.save e
  if settings.mailEnabled=true then ensure "Error sending mail" (out.delivers grantee.email)
  else if newUser=false then EmergencyAccess.acceptInvite e grantee.uuid email
  else pure ()

/-- `resend_invite`. -/
def resendInvite (settings : AccountSettings) (out : Outside) (caller id : Uuid) : Action Unit := do
  let grantor ← headers caller
  checkEmergencyAccessEnabled settings
  let e ← recordOfGrantor id grantor.uuid
  ensure "The grantee user is already accepted or confirmed to the organization"
    (decide (e.status=EmergencyAccess.Invited))
  let email ← expect "Email not valid." e.email
  let found ← User.findByMail settings.toSettings email
  let grantee ← expect "Grantee user not found." found
  if settings.mailEnabled=true then ensure "Error sending mail" (out.delivers email)
  else if grantee.passwordHash≠[] then EmergencyAccess.acceptInvite e grantee.uuid email
  else if settings.invitationsAllowed=true then do
    let invited ← lookup fun t => decide (settings.toLowercase email∈t.invitations)
    if invited=true then pure () else Invitation.save settings.toSettings email
  else pure ()

/-- `EmergencyAccessInviteJwtClaims`. -/
structure EmergencyAccessInviteClaims where
  /-- Address. -/
  email : Text
  /-- Record. -/
  emerId : Uuid
  /-- Name of the grantor. -/
  grantorName : Text
  /-- Address of the grantor. -/
  grantorEmail : Text

/-- `accept_invite`. -/
def acceptInvite (settings : AccountSettings) (out : Outside) (caller id : Uuid)
    (claims : EmergencyAccessInviteClaims) : Action Unit := do
  let user ← headers caller
  checkEmergencyAccessEnabled settings
  ensure "Claim email does not match current users email" (decide (claims.email=user.email))
  let found ← User.findByMail settings.toSettings claims.email
  let grantee ← expect "Invited user not found" found
  Invitation.take settings.toSettings claims.email
  let found ← EmergencyAccess.findByUuidAndGranteeEmail id user.email
  let e ← expect "Emergency access not valid." found
  let grantor ← accountOf "Grantor user not found." (some e.grantorUuid)
  ensure "Emergency access invitation error." (decide (id=claims.emerId ∧ grantor.name=claims.grantorName ∧
    grantor.email=claims.grantorEmail))
  EmergencyAccess.acceptInvite e grantee.uuid grantee.email
  mailTo settings out grantor.email

/-- `confirm_emergency_access`. -/
def confirmEmergencyAccess (settings : AccountSettings) (out : Outside) (caller id : Uuid) (key : Text) :
    Action Unit := do
  let user ← headers caller
  checkEmergencyAccessEnabled settings
  let e ← recordOfGrantor id user.uuid
  ensure "Emergency access not valid." (decide (e.status=EmergencyAccess.Accepted ∧ e.grantorUuid=user.uuid))
  let _ ← accountOf "Grantor user not found." (some user.uuid)
  let grantee ← accountOf "Grantee user not found." e.granteeUuid
  EmergencyAccess.save {e with
    status := ServerTables.EmergencyAccess.Confirmed, keyEncrypted := some key, email := none}
  mailTo settings out grantee.email

/-- `initiate_emergency_access`. -/
def initiateEmergencyAccess (settings : AccountSettings) (out : Outside) (caller id : Uuid) :
    Action Unit := do
  let user ← headers caller
  checkEmergencyAccessEnabled settings
  let e ← recordOfGrantee id user.uuid
  ensure "Emergency access not valid." (decide (e.status=ServerTables.EmergencyAccess.Confirmed))
  let grantor ← accountOf "Grantor user not found." (some e.grantorUuid)
  let now ← utcNow
  EmergencyAccess.save {e with
    status := EmergencyAccess.RecoveryInitiated, recoveryInitiatedAt := some now
    lastNotificationAt := some now}
  mailTo settings out grantor.email

/-- `approve_emergency_access`. -/
def approveEmergencyAccess (settings : AccountSettings) (out : Outside) (caller id : Uuid) :
    Action Unit := do
  let user ← headers caller
  checkEmergencyAccessEnabled settings
  let e ← recordOfGrantor id user.uuid
  ensure "Emergency access not valid." (decide (e.status=EmergencyAccess.RecoveryInitiated))
  let _ ← accountOf "Grantor user not found." (some user.uuid)
  let grantee ← accountOf "Grantee user not found." e.granteeUuid
  EmergencyAccess.save {e with status := EmergencyAccess.RecoveryApproved}
  mailTo settings out grantee.email

/-- `reject_emergency_access`. -/
def rejectEmergencyAccess (settings : AccountSettings) (out : Outside) (caller id : Uuid) :
    Action Unit := do
  let user ← headers caller
  checkEmergencyAccessEnabled settings
  let e ← recordOfGrantor id user.uuid
  ensure "Emergency access not valid."
    (decide (e.status=EmergencyAccess.RecoveryInitiated ∨ e.status=EmergencyAccess.RecoveryApproved))
  let grantee ← accountOf "Grantee user not found." e.granteeUuid
  EmergencyAccess.save {e with status := ServerTables.EmergencyAccess.Confirmed}
  mailTo settings out grantee.email

/-- What a grantee obtains. -/
inductive Obtained where
  /-- Items and the sealed key. -/
  | view (ciphers : List Cipher) (keyEncrypted : Option Text)
  /-- Key derivation and the sealed key. -/
  | takeover (kdf : ℤ×ℤ×Option ℤ×Option ℤ) (keyEncrypted : Option Text)
  /-- A new password. -/
  | password

/-- The record of a request that has been approved. -/
def approvedRecord (settings : AccountSettings) (caller id : Uuid) (type : ℤ) : Action EmergencyAccess := do
  let user ← headers caller
  checkEmergencyAccessEnabled settings
  let e ← recordOfGrantee id user.uuid
  ensure "Emergency access not valid." (isValidRequest e user.uuid type)
  pure e

/-- `view_emergency_access`. -/
def viewEmergencyAccess (settings : AccountSettings) (caller id : Uuid) : Action Obtained := do
  let e ← approvedRecord settings caller id EmergencyAccess.View
  let ciphers ← lookup fun t => t.ciphers.filter fun c =>
    c.userUuid=some e.grantorUuid ∧ c.organizationUuid=none
  each ciphers CipherHandlers.Cipher.toJson
  pure (.view ciphers e.keyEncrypted)

/-- `takeover_emergency_access`. -/
def takeoverEmergencyAccess (settings : AccountSettings) (caller id : Uuid) : Action Obtained := do
  let e ← approvedRecord settings caller id EmergencyAccess.Takeover
  let grantor ← accountOf "Grantor user not found." (some e.grantorUuid)
  pure (.takeover grantor.clientKdf e.keyEncrypted)

/-- `password_emergency_access`. -/
def passwordEmergencyAccess (settings : AccountSettings) (caller id : Uuid)
    (newMasterPasswordHash key : Text) : Action Obtained := do
  let e ← approvedRecord settings caller id EmergencyAccess.Takeover
  let grantor ← accountOf "Grantor user not found." (some e.grantorUuid)
  let grantor ← User.setPassword settings.toFactorSettings grantor newMasterPasswordHash (some key) true none
  User.save settings.toSettings grantor
  update "Error deleting twofactors" fun t =>
    {t with twofactor := t.twofactor.filter fun f => f.userUuid≠grantor.uuid}
  let members ← lookup fun t => t.members.filter fun m => m.userUuid=grantor.uuid
  each members fun m => if m.atype≠.owner then Membership.delete m else pure ()
  pure .password

/-- `policies_emergency_access`, without the policies. -/
def policiesEmergencyAccess (caller id : Uuid) : Action Unit := do
  let user ← headers caller
  let e ← recordOfGrantee id user.uuid
  ensure "Emergency access not valid." (isValidRequest e user.uuid EmergencyAccess.Takeover)
  let _ ← accountOf "Grantor user not found." (some e.grantorUuid)

/-- A time that fits into a date. -/
def fitsDate (time : ℤ) : Bool := decide (-8334601228800≤time ∧ time≤8210266876799)

/-- One record of the job. -/
def approveTimedOut (settings : AccountSettings) (out : Outside) (now : ℤ) (e : EmergencyAccess) :
    Action Unit := do
  let initiated ← expect Panic e.recoveryInitiatedAt
  let allowed := initiated+e.waitTimeDays*86400
  ensure Panic (fitsDate allowed)
  if allowed≤now then do
    ensure Panic e.granteeUuid.isSome
    update Panic fun t => {t with emergencyAccess := t.emergencyAccess.map fun q =>
      if q.uuid=e.uuid then {q with status := EmergencyAccess.RecoveryApproved} else q}
    if settings.mailEnabled=true then do
      let grantor ← accountOf Panic (some e.grantorUuid)
      let grantee ← accountOf Panic e.granteeUuid
      ensure Panic (out.delivers grantor.email)
      ensure Panic (out.delivers grantee.email)
    else pure ()
  else pure ()

/-- `emergency_request_timeout_job`. -/
def emergencyRequestTimeoutJob (settings : AccountSettings) (out : Outside) : Action Unit :=
  if settings.emergencyAccessAllowed=true then do
    let list ← lookup fun t => t.emergencyAccess.filter fun e =>
      e.status=EmergencyAccess.RecoveryInitiated ∧ e.recoveryInitiatedAt≠none
    let now ← utcNow
    each list (approveTimedOut settings out now)
  else pure ()

end NadSafe.EmergencyHandlers
