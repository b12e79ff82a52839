import NadSafe.CsvDocuments
import NadSafe.CsvExport

/-!
# Import of LastPass files

`parseLastPassCsv` takes a record without an address for a note, whatever
else the record holds.
-/

namespace NadSafe.LastPassImport

open HostText CsvText CsvDocuments WebCrypto WebOperations
open CsvExport (Record RawVaultItem truthy rowUris csvRecords record)

/-- The columns of LastPass. -/
def LASTPASS_COLUMNS : List Text :=
  ["url".toList,"username".toList,"password".toList,"totp".toList,"extra".toList,"name".toList,"grouping".toList,
    "fav".toList]

/-- The address of a secure note. -/
def SECURE_NOTE : Text := "http://sn".toList

/-- One item of `parseLastPassCsv`. -/
def rowItem (row : Record) : RawVaultItem :=
  let isNote := row "url".toList=some SECURE_NOTE ∨ truthy (row "url".toList)=none
  if isNote then
    ⟨2,(truthy (row "name".toList)).getD "Untitled note".toList,truthy (row "extra".toList),none,none,none⟩
  else
    ⟨1,((truthy (row "name".toList)).or (truthy (row "url".toList))).getD "Untitled".toList,
      truthy (row "extra".toList),some (row "fav".toList==some ['1']),
      some ⟨truthy (row "username".toList),truthy (row "password".toList),truthy (row "totp".toList),
        some (rowUris (row "url".toList))⟩,none⟩

/-- `parseLastPassCsv`. -/
def parseLastPassCsv (platform : Platform) (csv : Text) : List RawVaultItem :=
  (csvRecords platform csv).map rowItem

/-- A LastPass file. -/
structure Document (platform : Platform) where
  /-- The header. -/
  header : List Cell
  /-- It names the columns, in any case and with blanks around the names. -/
  named : (fields header).map (fun h => trim (platform.toLowerCase h))=LASTPASS_COLUMNS
  /-- It is no blank line. -/
  filled : filled (fields header)=true
  /-- The records; columns may be missing at the end. -/
  records : List (List Cell)
  /-- A record has a field. -/
  nonempty : ∀ cells∈records,cells≠[]
  /-- Between rows. -/
  separator : LineEnd
  /-- At the end. -/
  terminator : Option LineEnd

/-- The text of a file. -/
def Document.text {platform : Platform} (doc : Document platform) : Text :=
  write doc.separator doc.terminator (doc.header::doc.records)

/-- A column of a record. -/
def column (cells : List Cell) (k : ℕ) : Text := (fields cells).getD k []

/-- The address. -/
def url (cells : List Cell) : Text := column cells 0

/-- User name, password and one-time-password secret. -/
def credentials (cells : List Cell) : Text×Text×Text := (column cells 1,column cells 2,column cells 3)

/-- A record with a credential that is no secure note. -/
def HasCredential (cells : List Cell) : Prop := credentials cells≠([],[],[]) ∧ url cells≠SECURE_NOTE

/-- An item with these credentials. -/
def Carries (item : RawVaultItem) (found : Text×Text×Text) : Prop :=
  ∃ login,item.login=some login ∧ (login.username.getD [],login.password.getD [],login.totp.getD [])=found

/-- A record that becomes a login. -/
def IsLogin (cells : List Cell) : Prop := url cells≠[] ∧ url cells≠SECURE_NOTE ∧ CsvText.filled (fields cells)=true

section Records

variable {platform : Platform}

/-- The columns under the header. -/
theorem record_columns (cols : List Text) :
    record LASTPASS_COLUMNS cols "url".toList=some (cols.getD 0 []) ∧
      record LASTPASS_COLUMNS cols "username".toList=some (cols.getD 1 []) ∧
      record LASTPASS_COLUMNS cols "password".toList=some (cols.getD 2 []) ∧
      record LASTPASS_COLUMNS cols "totp".toList=some (cols.getD 3 []) := ⟨rfl,rfl,rfl,rfl⟩

/-- The records of a file that are not blank. -/
theorem csvRecords_document (doc : Document platform) :
    csvRecords platform doc.text=
      ((doc.records.map fields).filter CsvText.filled).map (record LASTPASS_COLUMNS) := by
  have hrows : ∀ cells∈doc.header::doc.records,cells≠[] := by
    intro cells hcells
    rcases List.mem_cons.mp hcells with rfl|hcells
    · rintro hnil
      have hfilled := doc.filled
      rw [hnil] at hfilled
      cases hfilled
    · exact doc.nonempty cells hcells
  have hparse := parseCsv_write doc.separator doc.terminator hrows
  rw [List.map_cons,List.filter_cons_of_pos doc.filled] at hparse
  unfold csvRecords
  rw [Document.text,hparse]
  cases (doc.records.map fields).filter CsvText.filled with
  | nil => rfl
  | cons row rows =>
    dsimp only
    rw [doc.named]

/-- The items of a file. -/
theorem mem_parseLastPassCsv {doc : Document platform} {item : RawVaultItem} :
    item∈parseLastPassCsv platform doc.text ↔ ∃ cells∈doc.records,CsvText.filled (fields cells)=true ∧
      rowItem (record LASTPASS_COLUMNS (fields cells))=item := by
  rw [parseLastPassCsv,csvRecords_document,List.map_map,List.mem_map]
  constructor
  · rintro ⟨row,hrow,hitem⟩
    obtain ⟨hrow,hfilled⟩ := List.mem_filter.mp hrow
    obtain ⟨cells,hcells,rfl⟩ := List.mem_map.mp hrow
    exact ⟨cells,hcells,hfilled,hitem⟩
  · rintro ⟨cells,hcells,hfilled,hitem⟩
    exact ⟨fields cells,List.mem_filter.mpr ⟨List.mem_map_of_mem hcells,hfilled⟩,hitem⟩

/-- The credentials that an item of a record carries. -/
theorem carries_rowItem {cells : List Cell} {found : Text×Text×Text} :
    Carries (rowItem (record LASTPASS_COLUMNS (fields cells))) found ↔
      url cells≠[] ∧ url cells≠SECURE_NOTE ∧ credentials cells=found := by
  obtain ⟨hurl,husername,hpassword,htotp⟩ := record_columns (fields cells)
  have hempty : truthy (some (url cells))=none ↔ url cells=[] := by
    cases url cells with
    | nil => simp [truthy]
    | cons c s => simp [truthy]
  have hcolumn : (fields cells).getD 0 []=url cells := rfl
  unfold rowItem
  rw [hurl,husername,hpassword,htotp,hcolumn]
  simp only [Option.some.injEq,hempty]
  split_ifs with hnote
  · constructor
    · rintro ⟨login,hlogin,-⟩
      cases hlogin
    · rintro ⟨hne,hother,-⟩
      exact absurd hnote (not_or.mpr ⟨hother,hne⟩)
  · rw [not_or] at hnote
    simp only [Carries,Option.some.injEq,exists_eq_left',CsvExport.truthy_getD_nil]
    exact ⟨fun h => ⟨hnote.2,hnote.1,h⟩,fun h => h.2.2⟩

/-- Every credential is imported. -/
def NothingLost (doc : Document platform) : Prop := ∀ cells∈doc.records,HasCredential cells →
  ∃ item∈parseLastPassCsv platform doc.text,Carries item (credentials cells)

/-- The import loses nothing exactly when the credentials of a record stand in
one that has an address and something else than white space. -/
theorem nothingLost_iff (doc : Document platform) : NothingLost doc ↔
    ∀ cells∈doc.records,HasCredential cells →
      ∃ other∈doc.records,IsLogin other ∧ credentials other=credentials cells := by
  refine forall₂_congr fun cells hcells => forall_congr' fun hcredential => ?_
  constructor
  · rintro ⟨item,hitem,hcarries⟩
    obtain ⟨other,hother,hfilled,rfl⟩ := (mem_parseLastPassCsv).mp hitem
    obtain ⟨hurl,hnote,hsame⟩ := (carries_rowItem).mp hcarries
    exact ⟨other,hother,⟨hurl,hnote,hfilled⟩,hsame⟩
  · rintro ⟨other,hother,⟨hurl,hnote,hfilled⟩,hsame⟩
    exact ⟨_,(mem_parseLastPassCsv).mpr ⟨other,hother,hfilled,rfl⟩,(carries_rowItem).mpr ⟨hurl,hnote,hsame⟩⟩

end Records

section Samples

/-- A cell in quotes. -/
def quote (value : Text) : Cell := ⟨value,true,nofun⟩

/-- A file whose only record has a user name and a password, but no address. -/
def withoutAddress : Document transparent where
  header := LASTPASS_COLUMNS.map quote
  named := by decide
  filled := by decide
  records := [[quote [],quote ['u'],quote ['p'],quote []]]
  nonempty := by decide
  separator := .lf
  terminator := none

/-- Its password is lost. -/
theorem password_lost : ¬∀ (platform : Platform) (doc : Document platform),NothingLost doc := by
  intro hkept
  have hcredential : HasCredential [quote [],quote ['u'],quote ['p'],quote []] := ⟨by decide,by decide⟩
  obtain ⟨item,hitem,login,hlogin,-⟩ := hkept transparent withoutAddress _ (List.mem_singleton.mpr rfl) hcredential
  have hnotes : ∀ item∈parseLastPassCsv transparent withoutAddress.text,item.login.isNone=true := by decide
  have hnone := hnotes item hitem
  rw [hlogin] at hnone
  cases hnone

end Samples

end NadSafe.LastPassImport
