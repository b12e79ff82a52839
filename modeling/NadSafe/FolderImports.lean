import NadSafe.CipherLinks
import NadSafe.KeyRotation

/-!
# Import into folders

`post_ciphers_import` reads or creates the folders of a request, then saves
its ciphers one by one, each in the folder that a relation names by its
position. The first cipher that is refused, panics or has a position outside
the folders ends the request, and what was written before stays.
-/

namespace NadSafe.FolderImports

open HostText JsonText TableRows AsyncScript ServerTables AccessQueries StoreScript ServerModels
open CipherHandlers KeyRotation CipherUpdates PlannedScript TableWrites

/-- `FolderData`. An empty id is none. -/
structure FolderData where
  /-- The folder, where it has one. -/
  id : Option Uuid
  /-- Sealed name. -/
  name : Text

/-- `ImportData` of `post_ciphers_import`. -/
structure FolderImportData where
  /-- Ciphers. -/
  ciphers : List CipherData
  /-- Folders. -/
  folders : List FolderData
  /-- Positions of a cipher and of a folder. -/
  folderRelationships : List (ℕ×ℕ)

/-- A folder of an import: an existing one, or a new one. -/
def importFolder (user : Uuid) (existing : List Uuid) (f : FolderData) : Action Uuid :=
  match f.id.filter (·∈existing) with
  | some id => pure id
  | none => do
    let uuid ← getUuid
    Folder.save ⟨uuid,user,f.name⟩
    pure uuid

/-- `relations_map`, which keeps the last relation of a cipher. -/
def relationOf (relations : List (ℕ×ℕ)) (index : ℕ) : Option ℕ :=
  (relations.reverse.find? fun r => r.1=index).map Prod.snd

/-- `relations_map.get(&index).map(|i| folders[*i].clone())`. -/
def folderAt (folders : List Uuid) (relations : List (ℕ×ℕ)) (index : ℕ) : Action (Option Uuid) :=
  match relationOf relations index with
  | none => pure none
  | some i => do
    let folder ← expect Panic folders[i]?
    pure (some folder)

/-- A cipher of an import, with its position. -/
def importInto (settings : VaultSettings) (user : Uuid) (folders : List Uuid) (relations : List (ℕ×ℕ))
    (entry : CipherData×ℕ) : Action Unit := do
  let folderId ← folderAt folders relations entry.2
  let uuid ← getUuid
  let now ← lookup Tables.now
  let _ ← updateCipherFromData settings user (ServerTables.Cipher.new uuid now entry.1.type entry.1.name)
    {entry.1 with folderId := folderId} none .none

/-- `post_ciphers_import`. -/
def postCiphersImport (settings : VaultSettings) (caller : Uuid) (data : FolderImportData) : Action Unit := do
  let user ← headers caller
  enforcePersonalOwnershipPolicy none user.uuid
  ensure "The model state is invalid." (validateCipherData settings data.ciphers)
  let existing ← lookup fun t => t.folders.filter fun f => f.userUuid=user.uuid
  let folders ← collect data.folders (importFolder user.uuid (existing.map Folder.uuid))
  each data.ciphers.zipIdx (importInto settings user.uuid folders data.folderRelationships)

/-- The same rows. Numbers may have been drawn. -/
def SameRows (db db' : Database) : Prop := ∃ n,db.next≤n ∧ db'.toTables={db.toTables with next := n}

/-- A row has come that was not there. -/
def Marked (db db' : Database) : Prop := (∃ c∈db'.ciphers,db.next≤c.uuid) ∨ (∃ f∈db'.folders,db.next≤f.uuid) ∨
  ∃ k∈db'.collections,db.next≤k.uuid

section Rows

variable {db db₁ db₂ : Database}

theorem SameRows.refl : SameRows db db := ⟨db.next,le_refl _,rfl⟩

theorem SameRows.drawn : SameRows db db.drawn := ⟨db.next+1,Nat.le_succ _,rfl⟩

theorem SameRows.trans (h₁ : SameRows db db₁) (h₂ : SameRows db₁ db₂) : SameRows db db₂ := by
  obtain ⟨n,hn,h₁⟩ := h₁
  obtain ⟨m,hm,h₂⟩ := h₂
  have hnext : db₁.next=n := by rw [h₁]
  exact ⟨m,hn.trans (hnext ▸ hm),by rw [h₂,h₁]⟩

end Rows

section NewCiphers

variable {settings : VaultSettings} {db : Database} {user uuid : Uuid} {d : CipherData}

/-- What ends an update with its content. -/
def contentFault (d : CipherData) : Option String :=
  match d.content with
  | .error e => some e
  | .ok _ => none

/-- What ends the update of a new cipher. -/
def fault (settings : VaultSettings) (t : Tables) (user : Uuid) (shared : Bool) (d : CipherData) :
    Option String :=
  (refusal settings t user (ServerTables.Cipher.new t.next t.now d.type d.name) {d with folderId := none} shared
    .none).or (contentFault d)

/-- One cipher has been added. -/
structure Added (db db' : Database) : Prop where
  /-- The tables. -/
  tables : ∃ c places favorites,c.uuid=db.next ∧ db'.toTables={db.toTables with
    ciphers := put Cipher.uuid c db.ciphers
    foldersCiphers := places
    favorites := favorites
    next := db.next+1}

end NewCiphers

section Runs

variable {settings : VaultSettings} {db db₁ db₂ : Database} {user : Uuid}

/-- What no update of an import touches. -/
structure Carried (db db' : Database) : Prop where
  /-- Accounts. -/
  users : db'.users=db.users
  /-- Memberships. -/
  members : db'.members=db.members
  /-- Policies. -/
  policies : db'.policies=db.policies
  /-- Folders. -/
  folders : db'.folders=db.folders
  /-- Collections. -/
  collections : db'.collections=db.collections
  /-- No cipher goes. -/
  ciphers : ∀ c∈db.ciphers,∃ c'∈db'.ciphers,c'.uuid=c.uuid
  /-- Numbers only go up. -/
  next : db.next≤db'.next

theorem Carried.refl : Carried db db := ⟨rfl,rfl,rfl,rfl,rfl,fun c hc => ⟨c,hc,rfl⟩,le_refl _⟩

theorem Carried.trans (h₁ : Carried db db₁) (h₂ : Carried db₁ db₂) : Carried db db₂ where
  users := h₂.users.trans h₁.users
  members := h₂.members.trans h₁.members
  policies := h₂.policies.trans h₁.policies
  folders := h₂.folders.trans h₁.folders
  collections := h₂.collections.trans h₁.collections
  ciphers c hc := by
    obtain ⟨c₁,hc₁,hkey₁⟩ := h₁.ciphers c hc
    obtain ⟨c₂,hc₂,hkey₂⟩ := h₂.ciphers c₁ hc₁
    exact ⟨c₂,hc₂,hkey₂.trans hkey₁⟩
  next := h₁.next.trans h₂.next

theorem Added.marked (h : Added db db₁) : Marked db db₁ := by
  obtain ⟨c,places,favorites,hkey,htables⟩ := h.tables
  refine .inl ⟨c,?_,hkey.ge⟩
  rw [htables]
  exact mem_put.mpr (.inl rfl)

/-- What ends an import at a cipher, where it has read so many folders. -/
def faultAt (settings : VaultSettings) (t : Tables) (user : Uuid) (folders : ℕ) (relations : List (ℕ×ℕ))
    (entry : CipherData×ℕ) : Option String :=
  if (relationOf relations entry.2).any (folders≤·) then some Panic else fault settings t user false entry.1

/-- The folders of an import are the caller's. -/
def Owned (db : Database) (user : Uuid) (folders : List Uuid) : Prop :=
  ∀ x∈folders,∃ f∈db.folders,f.uuid=x ∧ f.userUuid=user

/-- A folder of the request is one of the caller's. -/
def known (existing : List Uuid) (f : FolderData) : Bool := f.id.any (·∈existing)

/-- Folders have been added, and nothing else. -/
structure Foldered (db db' : Database) : Prop where
  /-- The tables. -/
  tables : ∃ folders n,db.next≤n ∧ db'.toTables={db.toTables with
    folders := folders
    next := n}
  /-- No folder goes. -/
  folders : ∀ f∈db.folders,f∈db'.folders

theorem Foldered.next (h : Foldered db db₁) : db.next≤db₁.next := by
  obtain ⟨folders,n,hn,htables⟩ := h.tables
  rw [htables]
  exact hn

theorem Foldered.trans (h₁ : Foldered db db₁) (h₂ : Foldered db₁ db₂) : Foldered db db₂ := by
  have hnext := h₁.next
  obtain ⟨folders,n,hn,htables⟩ := h₁.tables
  obtain ⟨folders',n',hn',htables'⟩ := h₂.tables
  exact ⟨⟨folders',n',hnext.trans hn',by rw [htables',htables]⟩,fun f hf => h₂.folders f (h₁.folders f hf)⟩

theorem Foldered.refl : Foldered db db := ⟨⟨_,_,le_refl _,rfl⟩,fun _ hf => hf⟩

end Runs

section Requests

variable {settings : VaultSettings} {db : Database} {caller : Uuid} {data : FolderImportData}

/-- The request is not refused before its folders. -/
def admitted (settings : VaultSettings) (t : Tables) (caller : Uuid) (data : FolderImportData) : Bool :=
  t.users.any (fun u => u.uuid=caller) && !applicable t caller .personalOwnership none &&
    validateCipherData settings data.ciphers

/-- The folders of the caller. -/
def ownFolders (t : Tables) (user : Uuid) : List Uuid := (t.folders.filter fun f => f.userUuid=user).map Folder.uuid

/-- What ends the loop over the ciphers. -/
def FolderImportData.firstFault (settings : VaultSettings) (t : Tables) (user : Uuid) (data : FolderImportData) :
    Option String :=
  data.ciphers.zipIdx.findSome? (faultAt settings t user data.folders.length data.folderRelationships)

/-- No folder is new, and no first cipher is saved. -/
def FolderImportData.unwritten (settings : VaultSettings) (t : Tables) (user : Uuid) (data : FolderImportData) :
    Bool :=
  data.folders.all (known (ownFolders t user)) && data.ciphers.zipIdx.head?.all fun entry =>
    (faultAt settings t user data.folders.length data.folderRelationships entry).isSome

end Requests

end NadSafe.FolderImports
