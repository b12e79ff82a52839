import NadSafe.FolderImports
import NadSafe.MemberWrites

/-!
# Positions in imports

Both imports write their folders or collections and their ciphers before they
look at the positions of a relation, and a position outside the lists is a
panic. A request returns, and leaves nothing behind where a relation is
outside its lists, exactly if all relations are within, or something else
refuses the request before its first row.
-/

namespace NadSafe.ImportIndices

open HostText JsonText TableRows AsyncScript ServerTables AccessQueries StoreScript ServerModels OrgHandlers
open CipherHandlers CipherUpdates PlannedScript TableWrites FolderImports
open CipherLinks (Grown collectionAllowed)
open MemberWrites (orgMember ends_orgMember)

section Organization

variable {settings : VaultSettings} {db db₁ db₂ : Database} {caller org user : Uuid} {m : Membership}
  {data : ImportData}

/-- The keys of the collections of an organisation. -/
def collectionsOf (t : Tables) (org : Uuid) : List Uuid :=
  (t.collections.filter fun k => k.orgUuid=org).map Collection.uuid

/-- The collections before the first that is not allowed all exist. -/
def untouched (settings : VaultSettings) (t : Tables) (m : Membership) (ids : List (Option Uuid)) : Bool :=
  (ids.takeWhile (collectionAllowed settings t m)).all fun id => id.any (·∈collectionsOf t m.orgUuid)

/-- A cipher of an import ends the request. -/
def panicking (settings : VaultSettings) (t : Tables) (user : Uuid) (d : CipherData) : Bool :=
  decide (fault settings t user true d=some Panic)

/-- A cipher of an import is saved. -/
def saved (settings : VaultSettings) (t : Tables) (user : Uuid) (d : CipherData) : Bool :=
  (fault settings t user true d).isNone

/-- Both positions of a relation are in the lists. -/
def inside (keys values : ℕ) (r : ℕ×ℕ) : Bool := decide (r.1<keys ∧ r.2<values)

end Organization

section Requests

variable {settings : VaultSettings} {db : Database} {caller org user : Uuid} {m : Membership} {data : ImportData}

/-- An import returns, and a relation outside its lists is refused with
nothing written. -/
def Meets (stray : Prop) (db : Database) (r : Except String Unit) (db' : Database) : Prop :=
  r≠.error Panic ∧ (stray → (∃ e,r=.error e) ∧ SameRows db db')

/-- The relations of an import of an organisation are within its lists. -/
def Within (data : ImportData) : Prop :=
  data.collectionRelationships.all (inside data.ciphers.length data.collections.length)=true

/-- What an organisation's import may be once its guards have passed. -/
def SparedLists (settings : VaultSettings) (t : Tables) (m : Membership) (user : Uuid) (data : ImportData) : Prop :=
  (data.collections.all (collectionAllowed settings t m)=true → data.ciphers.any (panicking settings t user)=false) ∧
  (Within data ∨ untouched settings t m data.collections=true ∧
    (data.collections.all (collectionAllowed settings t m)=true → data.ciphers.any (saved settings t user)=false ∧
      data.collectionRelationships.head?.all (inside data.ciphers.length data.collections.length)=true))

/-- The imports. -/
inductive Request where
  /-- `post_ciphers_import`. -/
  | folders (caller : Uuid) (data : FolderImportData)
  /-- `post_org_import`. -/
  | collections (caller org : Uuid) (data : ImportData)

/-- Their handlers. -/
def Request.body (settings : VaultSettings) : Request → Action Unit
  | .folders caller data => postCiphersImport settings caller data
  | .collections caller org data => postOrgImport settings caller org data

/-- A request that the defect does not reach. Either its relations are within
its lists, or a check refuses it before its first row; and no cipher that it
gets to is a panic. -/
def Request.Spared (settings : VaultSettings) (t : Tables) : Request → Prop
  | .folders caller data => admitted settings t caller data=true →
    data.firstFault settings t caller≠some Panic ∧
    (data.folderRelationships.all (inside data.ciphers.length data.folders.length)=true ∨
      data.unwritten settings t caller=true ∧ data.firstFault settings t caller≠none)
  | .collections caller org data => ∀ m,orgMember t caller org=some m →
    validateCipherData settings data.ciphers=true → SparedLists settings t m caller data

end Requests

section Samples

open CipherLinks (plainSettings shelf sent)

end Samples

end NadSafe.ImportIndices
