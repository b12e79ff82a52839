import NadSafe.CsvExport

/-!
# Import of KeePass files

The entries of a KeePass tree may hold their own older versions. The import
asks for all descendants at both levels: every old version makes an item, and
its strings overwrite those of the entry around it.
-/

namespace NadSafe.KeePassImport

open HostText CsvText WebCrypto WebOperations
open CsvExport (Record RawVaultItem truthy rowUris)

/-- A node of a document. -/
inductive Node where
  /-- Text. -/
  | text (data : Text)
  /-- An element with its children. -/
  | element (tag : Text) (children : List Node)

mutual

/-- The elements of a tag in a subtree, by their children. -/
def Node.select (tag : Text) : Node → List (List Node)
  | .text _ => []
  | .element name children => if name=tag then children::querySelectorAll tag children else querySelectorAll tag children

/-- `querySelectorAll` for a tag: all descendants, in document order. -/
def querySelectorAll (tag : Text) : List Node → List (List Node)
  | [] => []
  | node::nodes => node.select tag++querySelectorAll tag nodes

end

mutual

/-- The text in a subtree. -/
def Node.content : Node → Text
  | .text data => data
  | .element _ children => textContent children

/-- `textContent`. -/
def textContent : List Node → Text
  | [] => []
  | node::nodes => node.content++textContent nodes

end

/-- `querySelector(tag)?.textContent`. -/
def firstText (tag : Text) (nodes : List Node) : Option Text := (querySelectorAll tag nodes).head?.map textContent

/-- One round of the loop over strings. -/
def putString (fields : Record) (str : List Node) : Record :=
  let key := trim ((firstText "Key".toList str).getD [])
  let value := trim ((firstText "Value".toList str).getD [])
  if key≠[] then fields.put key value else fields

/-- The fields of some strings. -/
def fieldsOf (strings : List (List Node)) : Record := strings.foldl putString fun _ => none

/-- `String.includes`. -/
def includes (s part : Text) : Bool := s.tails.any fun tail => part.isPrefixOf tail

/-- `extractKeePassTotp`. -/
def extractKeePassTotp (platform : Platform) (entry : List Node) : Option Text :=
  let totpField := (querySelectorAll "String".toList entry).find? fun s =>
    let key := platform.toLowerCase ((firstText "Key".toList s).getD [])
    includes key "totp".toList || includes key "otp".toList
  totpField.bind fun s => (firstText "Value".toList s).map trim

/-- The item of an entry, if it has a title or a user name. -/
def entryItem (platform : Platform) (entry : List Node) : Option RawVaultItem :=
  let fields := fieldsOf (querySelectorAll "String".toList entry)
  if truthy (fields "Title".toList)=none ∧ truthy (fields "UserName".toList)=none then none
  else
    let url := (fields "URL".toList).getD []
    let totp := extractKeePassTotp platform entry
    some ⟨1,((truthy (fields "Title".toList)).or (truthy (some url))).getD "Untitled".toList,
      truthy (fields "Notes".toList),none,
      some ⟨truthy (fields "UserName".toList),truthy (fields "Password".toList),truthy totp,
        some (rowUris (some url))⟩,none⟩

/-- `parseKeePassXml`, after the parse. -/
def parseKeePassXml (platform : Platform) (doc : List Node) : List RawVaultItem :=
  (querySelectorAll "Entry".toList doc).filterMap (entryItem platform)

/-- The children with a tag, by their children. -/
def ownChildren (tag : Text) (nodes : List Node) : List (List Node) :=
  nodes.filterMap fun
    | .text _ => none
    | .element name children => if name=tag then some children else none

mutual

/-- The entries in a subtree, with whether they are in a history. -/
def Node.entries (old : Bool) : Node → List (Bool×List Node)
  | .text _ => []
  | .element name children =>
    let inner := entries (old || name="History".toList) children
    if name="Entry".toList then (old,children)::inner else inner

/-- The entries of a document. -/
def entries (old : Bool) : List Node → List (Bool×List Node)
  | [] => []
  | node::nodes => node.entries old++entries old nodes

end

/-- The value of a key; without one it is empty. -/
def value (strings : List (List Node)) (key : Text) : Text := (fieldsOf strings key).getD []

/-- What an item says of an entry. -/
structure Shown where
  /-- Name. -/
  name : Text
  /-- User name. -/
  username : Text
  /-- Password. -/
  password : Text
  /-- Address. -/
  url : Text
  /-- Notes. -/
  notes : Text
  deriving DecidableEq

/-- What an item says. -/
def shown (item : RawVaultItem) : Shown where
  name := item.name
  username := (item.login.bind ExportLogin.username).getD []
  password := (item.login.bind ExportLogin.password).getD []
  url := (((item.login.bind ExportLogin.uris).getD []).head?.bind ExportUri.uri).getD []
  notes := item.notes.getD []

/-- The title, or the address of an entry without one. -/
def displayName (title url : Text) : Text :=
  if title≠[] then title else if url≠[] then url else "Untitled".toList

/-- A title or a user name. -/
def Titled (strings : List (List Node)) : Prop := value strings "Title".toList≠[] ∨ value strings "UserName".toList≠[]

instance (strings : List (List Node)) : Decidable (Titled strings) := inferInstanceAs (Decidable (_ ∨ _))

/-- What the strings of an entry say. -/
def said (strings : List (List Node)) : Shown where
  name := displayName (value strings "Title".toList) (value strings "URL".toList)
  username := value strings "UserName".toList
  password := value strings "Password".toList
  url := value strings "URL".toList
  notes := value strings "Notes".toList

/-- What the import has to say of an entry: nothing of old versions, and of
the others what their own strings say. -/
def expected : Bool×List Node → Option Shown
  | (true,_) => none
  | (false,entry) =>
    let own := ownChildren "String".toList entry
    if Titled own then some (said own) else none

section Trees

variable {platform : Platform}

mutual

/-- The entries are the descendants that the import finds. -/
theorem Node.entries_select (old : Bool) (node : Node) :
    (node.entries old).map Prod.snd=node.select "Entry".toList := by
  cases node with
  | text data => rfl
  | element name children =>
    have hchildren := entries_select (old || name="History".toList) children
    simp only [Node.entries,Node.select]
    split_ifs
    · rw [List.map_cons,hchildren]
    · exact hchildren

theorem entries_select (old : Bool) (nodes : List Node) :
    (entries old nodes).map Prod.snd=querySelectorAll "Entry".toList nodes := by
  cases nodes with
  | nil => rfl
  | cons node nodes =>
    rw [entries,querySelectorAll,List.map_append,node.entries_select old,entries_select old nodes]

end

theorem truthy_getD (text : Option Text) : (truthy text).getD []=text.getD [] := by
  rcases text with _|_|_ <;> rfl

/-- Each entry that is no old version makes one item, with its own values, and
old versions make none. -/
def Current (platform : Platform) (doc : List Node) : Prop :=
  ∀ e∈entries false doc,(entryItem platform e.2).map shown=expected e

/-- The items of such a file. -/
theorem Current.items {doc : List Node} (h : Current platform doc) :
    (parseKeePassXml platform doc).map shown=(entries false doc).filterMap expected := by
  rw [parseKeePassXml,← entries_select false,List.map_filterMap,List.filterMap_map]
  exact List.filterMap_congr h

end Trees

section Samples

/-- A string of an entry. -/
def string (key value : Text) : Node :=
  .element "String".toList [.element "Key".toList [.text key],.element "Value".toList [.text value]]

end Samples

end NadSafe.KeePassImport
