import NadSafe.SecondFactors

/-!
# Policies of organisations

The endpoint that switches a policy on or off. Members who do not comply with
a policy are revoked before it is stored. Only the kinds of policies that other
handlers ask for are kept, and of their data only the automatic enrolment.
-/

namespace NadSafe.PolicyHandlers

open HostText TableRows AsyncScript ServerTables AccessQueries StoreScript ServerModels OrgHandlers SecondFactors
open CipherHandlers (Panic)

/-- Settings for policies. -/
structure PolicySettings extends FactorSettings where
  /-- `enforce_single_org_with_reset_pw_policy`. -/
  enforceSingleOrgWithResetPwPolicy : Bool

/-- `OrgPolicyType::from_i32`, with the kind of a policy that is kept. -/
def policyType (autoEnroll : Bool) (type : ℤ) : Option (Option OrgPolicyType) :=
  if type=0 then some (some .twoFactorAuthentication)
  else if type=3 then some (some .singleOrg)
  else if type=5 then some (some .personalOwnership)
  else if type=8 then some (some (.resetPassword autoEnroll))
  else if type∈[1,2,6,7,14,15,16] then some none
  else none

/-- Two policies of one type. -/
def sameType : OrgPolicyType → OrgPolicyType → Bool
  | .resetPassword _,.resetPassword _ => true
  | a,b => a=b

/-- The active policies after one of them was stored. -/
def OrgPolicy.saved (org : Uuid) (atype : OrgPolicyType) (enabled : Bool) (rows : List OrgPolicy) :
    List OrgPolicy :=
  (rows.filter fun p => ¬(p.orgUuid=org ∧ sameType p.atype atype=true))++
    if enabled=true then [⟨org,atype⟩] else []

/-- `OrgPolicy::save`. -/
def OrgPolicy.save (org : Uuid) (atype : OrgPolicyType) (enabled : Bool) : Action Unit :=
  update "Error saving org_policy" fun t => {t with policies := OrgPolicy.saved org atype enabled t.policies}

/-- The mail to a member who is removed. -/
def mailMember (settings : Settings) (out : Outside) (user : Uuid) : Action Unit :=
  if settings.mailEnabled=true then do
    let found ← User.findByUuid user
    let user ← expect Panic found
    ensure "Error sending mail" (out.delivers user.email)
  else pure ()

/-- A member of `enforce_2fa_policy_for_org`. -/
def revokeWithoutFactor (settings : Settings) (out : Outside) (member : Membership) : Action Unit :=
  if MembershipType.admin≤ member.atype then pure ()
  else do
    let missing ← lookup fun t => (TwoFactor.findByUser t member.userUuid).isEmpty
    if missing=true then do
      mailMember settings out member.userUuid
      Membership.save member.revoke
    else pure ()

/-- `enforce_2fa_policy_for_org`. -/
def enforce2faPolicyForOrg (settings : Settings) (out : Outside) (org : Uuid) : Action Unit := do
  let found ← Organization.findByUuid org
  let _ ← expect Panic found
  let members ← lookup fun t => t.members.filter fun m => m.orgUuid=org ∧ m.status=Confirmed
  each members (revokeWithoutFactor settings out)

/-- The mail to a member of other organisations. -/
def mailSingleOrg (settings : Settings) (out : Outside) (member : Membership) : Action Unit :=
  if settings.mailEnabled=true then do
    let found ← Organization.findByUuid member.orgUuid
    let _ ← expect Panic found
    mailMember settings out member.userUuid
  else pure ()

/-- A member of the organisation where no other one is allowed. -/
def revokeWithOthers (settings : Settings) (out : Outside) (member : Membership) : Action Unit :=
  if MembershipType.admin≤ member.atype ∨ member.status=Invited then pure ()
  else do
    let others ← Membership.countAcceptedAndConfirmedByUser member.userUuid member.orgUuid
    if 0<others then do
      mailSingleOrg settings out member
      Membership.save member.revoke
    else pure ()

/-- The members that a new policy removes. -/
def enforcePolicy (settings : Settings) (out : Outside) (org : Uuid) (kind : Option OrgPolicyType)
    (enabled : Bool) : Action Unit :=
  if kind=some .twoFactorAuthentication ∧ enabled=true then enforce2faPolicyForOrg settings out org
  else if kind=some .singleOrg ∧ enabled=true then do
    let members ← Membership.findByOrg org
    each members (revokeWithOthers settings out)
  else pure ()

/-- Account recovery. -/
def isRecovery (kind : Option OrgPolicyType) : Bool :=
  kind=some (.resetPassword true) || kind=some (.resetPassword false)

/-- Account recovery needs the policy on other organisations. -/
def checkSingleOrgWithResetPw (settings : PolicySettings) (org : Uuid) (kind : Option OrgPolicyType)
    (enabled : Bool) : Action Unit :=
  if settings.enforceSingleOrgWithResetPwPolicy=true ∧ isRecovery kind=true ∧ enabled=true then do
    let single ← lookup fun t => OrgPolicy.active t org .singleOrg
    ensure "Single Organization policy is not enabled. It is mandatory for this policy to be enabled." single
  else if settings.enforceSingleOrgWithResetPwPolicy=true ∧ kind=some .singleOrg ∧ enabled=false then do
    let reset ← lookup fun t => OrgPolicy.active t org (.resetPassword true) ||
      OrgPolicy.active t org (.resetPassword false)
    ensure "Account recovery policy is enabled. It is not allowed to disable this policy." (!reset)
  else pure ()

/-- `put_policy`, with the type in the path. -/
def putPolicy (settings : PolicySettings) (out : Outside) (caller org : Uuid) (type : ℤ)
    (enabled autoEnroll : Bool) : Action Unit := do
  let _ ← adminHeaders caller org
  let kind ← expect "Invalid or unsupported policy type" (policyType autoEnroll type)
  checkSingleOrgWithResetPw settings org kind enabled
  enforcePolicy settings.toSettings out org kind enabled
  match kind with
  | some atype => OrgPolicy.save org atype enabled
  | none => pure ()

end NadSafe.PolicyHandlers
