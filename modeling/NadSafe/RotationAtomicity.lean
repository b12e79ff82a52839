import NadSafe.CipherLinks
import NadSafe.RotationRuns
import NadSafe.SendRuns
import NadSafe.TotpRuns

/-!
# All or nothing

What a rotation that does not succeed has changed. Everything that holds
sealed data is as before exactly if the items in front of the first refused
one write what is there already.
-/

namespace NadSafe.RotationAtomicity

open HostText TableRows AsyncScript ServerTables StoreScript ServerModels CipherHandlers SecondFactors
open EmergencyHandlers SendHandlers KeyRotation PlannedScript TableWrites RowImages RotationWrites RotationRuns

/-- An attachment of a cipher of the account. -/
def attached (t : Tables) (user : Uuid) (a : Attachment) : Bool :=
  t.ciphers.any fun c => c.userUuid=some user ∧ c.uuid=a.cipherUuid

/-- A rewriting writes what is there already. -/
structure Fixed (user : Uuid) (t : Tables) (φ : Rewriting) : Prop where
  /-- Ciphers. -/
  ciphers : ∀ c∈t.ciphers,c.userUuid=some user → φ.cipher.1 c=c
  /-- Attachments. -/
  attachments : ∀ a∈t.attachments,attached t user a=true → φ.attachment.1 a=a
  /-- Folders. -/
  folders : ∀ f∈t.folders,f.userUuid=user → φ.folder.1 f=f
  /-- Sends. -/
  sends : ∀ s∈t.sends,s.userUuid=some user → φ.send.1 s=s
  /-- Emergency accesses. -/
  emergencyAccess : ∀ e∈t.emergencyAccess,e.grantorUuid=user → φ.emergencyAccess.1 e=e
  /-- Memberships. -/
  members : ∀ m∈t.members,m.userUuid=user → φ.member.1 m=m

section Rows

variable {ρ τ : Type} {core : ρ → τ} {f : Change core} {rows rows' : List ρ}

end Rows

variable {settings : RotationSettings} {db db' : Database} {user caller : Uuid} {data : KeyData} {φ : Rewriting}

section Samples

/-- Plain settings. -/
def plainSettings : RotationSettings :=
  {TotpRuns.countingSettings,CipherLinks.plainSettings with sends := SendRuns.plainSettings}

end Samples

end NadSafe.RotationAtomicity
