import NadSafe.CsvText
import NadSafe.WebOperations

/-!
# CSV export and import of logins

`buildExportCsv` writes one row for each login item, `parseGenericCsv` reads
such a file back. The reader undoes the writer's guard, its quoting and its
row layout, except where a carriage return stands in a cell that no comma,
quote or line feed makes quoted: the row then ends in the middle of the cell.
-/

namespace NadSafe.CsvExport

open HostText CsvText WebCrypto WebClient WebOperations

/-- The columns of the export. -/
def COLUMNS : List Text :=
  ["name".toList,"username".toList,"password".toList,"totp".toList,"url".toList,"notes".toList]

/-- The values of one row. -/
def exportCells (i : VaultItem) : List Text :=
  [i.name,(i.login.map LoginFields.username).getD [],(i.login.map LoginFields.password).getD [],
    (i.login.bind LoginFields.totp).getD [],(i.login.bind fun login => login.uris.head?).getD [],
    i.note.getD []]

/-- One row of text. -/
def rowText (cells : List Text) : Text := [','].intercalate (cells.map csvEscape)

/-- `buildExportCsv`. -/
def buildExportCsv (items : List VaultItem) : Text :=
  let header := "name,username,password,totp,url,notes".toList
  let rows := (items.filter fun i => i.type=.login).map fun i => rowText (exportCells i)
  ['\n'].intercalate (header::rows)

/-- A record keyed by header; a missing key is undefined. -/
abbrev Record := Text → Option Text

/-- `row[h] = value`. -/
def Record.put (row : Record) (h value : Text) : Record := fun k => if k=h then some value else row k

/-- One row under its headers; missing columns are empty. -/
def record (headers cols : List Text) : Record :=
  headers.zipIdx.foldl (fun row h => row.put h.1 (cols.getD h.2 [])) fun _ => none

/-- `csvRecords`. -/
def csvRecords (platform : Platform) (csv : Text) : List Record :=
  match parseCsv csv with
  | headerRow::row::rows =>
    (row::rows).map (record (headerRow.map fun h => trim (platform.toLowerCase h)))
  | _ => []

/-- `RawVaultItem`, in the shape of an imported item. -/
abbrev RawVaultItem := BitwardenExportItem

/-- A value that `||` does not pass over. -/
def truthy : Option Text → Option Text
  | some (c::s) => some (c::s)
  | _ => none

/-- The addresses of an imported row. -/
def rowUris (url : Option Text) : List ExportUri := (truthy url).toList.map fun url => ⟨some url,none⟩

/-- One item of `parseGenericCsv`. -/
def rowItem (rawRow : Record) : RawVaultItem :=
  let row : Record := fun k => (rawRow k).map unescapeFormulaGuard
  ⟨1,(truthy (row "name".toList)).getD "Untitled".toList,truthy (row "notes".toList),none,
    some ⟨(truthy (row "username".toList)).or (truthy (row "email".toList)),
      truthy (row "password".toList),truthy (row "totp".toList),some (rowUris (row "url".toList))⟩,none⟩

/-- `parseGenericCsv`. -/
def parseGenericCsv (platform : Platform) (csv : Text) : List RawVaultItem :=
  (csvRecords platform csv).map rowItem

/-- A login as an import of its own export has to return it: empty and
missing values are null, and of the addresses the first one is kept. -/
def csvItem (i : VaultItem) : RawVaultItem :=
  ⟨1,i.name,truthy i.note,none,
    some ⟨truthy (i.login.map LoginFields.username),truthy (i.login.map LoginFields.password),
      truthy (i.login.bind LoginFields.totp),
      some (rowUris (i.login.bind fun login => login.uris.head?))⟩,none⟩

/-- Lowercase ASCII letters are left as they are. -/
def KeepsLowercase (platform : Platform) : Prop :=
  ∀ s : Text,(∀ c∈s,97≤c.toNat ∧ c.toNat≤122) → platform.toLowerCase s=s

section Rows

/-- The columns under their headers. -/
theorem record_columns (cols : List Text) :
    record COLUMNS cols "name".toList=some (cols.getD 0 []) ∧
      record COLUMNS cols "username".toList=some (cols.getD 1 []) ∧
      record COLUMNS cols "password".toList=some (cols.getD 2 []) ∧
      record COLUMNS cols "totp".toList=some (cols.getD 3 []) ∧
      record COLUMNS cols "url".toList=some (cols.getD 4 []) ∧
      record COLUMNS cols "notes".toList=some (cols.getD 5 []) ∧
      record COLUMNS cols "email".toList=none := ⟨rfl,rfl,rfl,rfl,rfl,rfl,rfl⟩

/-- An unescaped column. -/
theorem unescape_getD (cells : List Text) (k : ℕ) :
    unescapeFormulaGuard ((cells.map guarded).getD k [])=cells.getD k [] := by
  rw [List.getD_eq_getElem?_getD,List.getD_eq_getElem?_getD,List.getElem?_map]
  cases cells[k]? with
  | none => rfl
  | some cell => exact unescapeFormulaGuard_guarded cell

/-- A missing value and an empty one are the same to `||`. -/
theorem truthy_getD (value : Option Text) : truthy (some (value.getD []))=truthy value := by
  cases value with
  | none => rfl
  | some value => rfl

/-- The guarded cells of a login give its item back. -/
theorem rowItem_cells {i : VaultItem} (hname : i.name≠[]) :
    rowItem (record COLUMNS ((exportCells i).map guarded))=csvItem i := by
  obtain ⟨hn,hu,hp,ht,hurl,hnotes,hemail⟩ := record_columns ((exportCells i).map guarded)
  have hnamed : truthy (some i.name)=some i.name := by
    cases hcases : i.name with
    | nil => exact absurd hcases hname
    | cons c s => rfl
  simp only [rowItem,csvItem,hn,hu,hp,ht,hurl,hnotes,hemail,Option.map_some,Option.map_none,
    unescape_getD]
  simp only [exportCells,List.getD_cons_zero,List.getD_cons_succ,hnamed,rowUris,truthy_getD]
  simp only [truthy,Option.or_none,Option.getD_some]

/-- The text in one column of an item. -/
def column (item : RawVaultItem) : ℕ → Text
  | 0 => item.name
  | 1 => (item.login.bind ExportLogin.username).getD []
  | 2 => (item.login.bind ExportLogin.password).getD []
  | 3 => (item.login.bind ExportLogin.totp).getD []
  | 4 => (((item.login.bind ExportLogin.uris).getD []).head?.bind ExportUri.uri).getD []
  | _ => item.notes.getD []

theorem truthy_getD_nil (value : Text) : (truthy (some value)).getD []=value := by
  cases value with
  | nil => rfl
  | cons c s => rfl

theorem rowUris_head (value : Text) :
    ((rowUris (some value)).head?.bind ExportUri.uri).getD []=value := by
  cases value with
  | nil => rfl
  | cons c s => rfl

/-- The columns of an item are the exported values. -/
theorem column_csvItem (i : VaultItem) {k : ℕ} (hk : k<6) :
    column (csvItem i) k=(exportCells i).getD k [] := by
  have htext (value : Option Text) : (truthy value).getD []=value.getD [] := by
    rw [←truthy_getD,truthy_getD_nil]
  have hfirst (value : Option Text) :
      ((rowUris value).head?.bind ExportUri.uri).getD []=value.getD [] := by
    have hsame : rowUris value=rowUris (some (value.getD [])) := by rw [rowUris,rowUris,truthy_getD]
    rw [hsame,rowUris_head]
  match k,hk with
  | 0,_ => rfl
  | 1,_ => exact htext _
  | 2,_ => exact htext _
  | 3,_ => exact htext _
  | 4,_ => exact hfirst _
  | 5,_ => exact htext _

/-- A column without a carriage return gives a value without one. -/
theorem column_rowItem {cols : List Text} {k : ℕ} (hk : k<6) (hcol : '\r'∉cols.getD k []) :
    '\r'∉column (rowItem (record COLUMNS cols)) k := by
  have hkept : '\r'∉unescapeFormulaGuard (cols.getD k []) := fun h => hcol (mem_of_mem_unescape h)
  obtain ⟨hn,hu,hp,ht,hurl,hnotes,hemail⟩ := record_columns cols
  match k,hk with
  | 0,_ =>
    simp only [column,rowItem,hn,Option.map_some]
    cases hvalue : unescapeFormulaGuard (cols.getD 0 []) with
    | nil => exact (by decide : '\r'∉"Untitled".toList)
    | cons c s => rwa [hvalue] at hkept
  | 1,_ =>
    simp only [column,rowItem,hu,hemail,Option.map_some,Option.map_none,Option.bind_some]
    rwa [truthy.eq_2 none (by simp),Option.or_none,truthy_getD_nil]
  | 2,_ =>
    simp only [column,rowItem,hp,Option.map_some,Option.bind_some]
    rwa [truthy_getD_nil]
  | 3,_ =>
    simp only [column,rowItem,ht,Option.map_some,Option.bind_some]
    rwa [truthy_getD_nil]
  | 4,_ =>
    simp only [column,rowItem,hurl,Option.map_some,Option.bind_some,Option.getD_some]
    rwa [rowUris_head]
  | 5,_ =>
    simp only [column,rowItem,hnotes,Option.map_some]
    rwa [truthy_getD_nil]

end Rows

section Tables

theorem rowText_cons (c d : Text) (cs : List Text) :
    rowText (c::d::cs)=csvEscape c++ ','::rowText (d::cs) := by
  simp [rowText,List.intercalate_cons_cons]

theorem rowText_singleton (c : Text) : rowText [c]=csvEscape c := by simp [rowText]

/-- The cells of a row are read back one by one. -/
theorem scan_cells {c : Text} {cs : List Text} (hcells : ∀ cell∈c::cs,Escapes cell) {rest : Text}
    (hrest : rest.head?≠some '"') :
    ∃ init last,(c::cs).map guarded=init++[last] ∧ ∀ row,
      scan (rowText (c::cs)++rest) false false row []=scan rest false false (row++init) last := by
  induction cs generalizing c with
  | nil =>
    refine ⟨[],guarded c,rfl,fun row => ?_⟩
    rw [List.append_nil,rowText_singleton]
    exact scan_csvEscape (hcells c List.mem_cons_self) hrest
  | cons d cs ih =>
    obtain ⟨init,last,hsplit,hscan⟩ := ih fun cell hcell => hcells cell (List.mem_cons_of_mem c hcell)
    refine ⟨guarded c::init,last,by rw [List.map_cons,hsplit]; rfl,fun row => ?_⟩
    rw [rowText_cons,List.append_assoc,List.cons_append,scan_csvEscape (hcells c List.mem_cons_self) (by simp),scan_comma,hscan]
    simp

/-- A row that another one follows. -/
theorem scan_row {cells : List Text} (hcells : ∀ cell∈cells,Escapes cell) (hne : cells≠[])
    (rest : Text) : scan (rowText cells++ '\n'::rest) false false [] []=
      cells.map guarded::scan rest false false [] [] := by
  cases cells with
  | nil => exact absurd rfl hne
  | cons c cs =>
    obtain ⟨init,last,hsplit,hscan⟩ := @scan_cells c cs hcells ('\n'::rest) (by simp)
    rw [hscan,scan_newline,List.nil_append,hsplit]

/-- The last row. -/
theorem scan_lastRow {c d : Text} {cs : List Text} (hcells : ∀ cell∈c::d::cs,Escapes cell) :
    scan (rowText (c::d::cs)) false false [] []=[(c::d::cs).map guarded] := by
  obtain ⟨init,last,hsplit,hscan⟩ := @scan_cells c (d::cs) hcells [] (by simp)
  have hinit : init≠[] := by
    rintro rfl
    simp at hsplit
  have hend := hscan []
  rw [List.append_nil] at hend
  rw [hend,hsplit]
  simp [scan,hinit]

/-- Rows in lines. -/
def lines (rows : List (List Text)) : Text := ['\n'].intercalate (rows.map rowText)

theorem lines_cons (cells next : List Text) (rows : List (List Text)) :
    lines (cells::next::rows)=rowText cells++ '\n'::lines (next::rows) := by
  simp [lines,List.intercalate_cons_cons]

/-- Written rows are read up to any row that follows them. -/
theorem scan_lines {before after : List (List Text)} {next : List Text}
    (hcells : ∀ cells∈before,cells≠[] ∧ ∀ cell∈cells,Escapes cell) :
    scan (lines (before++next::after)) false false [] []=
      before.map (List.map guarded)++scan (lines (next::after)) false false [] [] := by
  induction before with
  | nil => rfl
  | cons cells before ih =>
    obtain ⟨hne,hescapes⟩ := hcells cells List.mem_cons_self
    have hrest := ih fun cells' h => hcells cells' (List.mem_cons_of_mem cells h)
    have hlines : lines (cells::before++next::after)=
        rowText cells++ '\n'::lines (before++next::after) := by
      cases before with
      | nil => exact lines_cons cells next after
      | cons first before => exact lines_cons cells first (before++next::after)
    rw [hlines,scan_row hescapes hne,hrest]
    rfl

/-- A row that the scanner can close: two cells or more, all of which can be
read back. -/
def Closes (cells : List Text) : Prop := (∃ c d cs,cells=c::d::cs) ∧ ∀ cell∈cells,Escapes cell

/-- A table of such rows is read back. -/
theorem scan_table {rows : List (List Text)} (hne : rows≠[]) (hrows : ∀ cells∈rows,Closes cells) :
    scan (lines rows) false false [] []=rows.map (List.map guarded) := by
  obtain ⟨before,last,rfl⟩ : ∃ before last,rows=before++[last] :=
    ⟨_,_,(List.dropLast_concat_getLast hne).symm⟩
  obtain ⟨⟨c,d,cs,rfl⟩,hlast⟩ := hrows last (by simp)
  have hbefore : ∀ cells∈before,cells≠[] ∧ ∀ cell∈cells,Escapes cell := by
    intro cells hcells
    obtain ⟨⟨c,d,cs,rfl⟩,hescapes⟩ := hrows cells (List.mem_append_left _ hcells)
    exact ⟨List.cons_ne_nil _ _,hescapes⟩
  have hone : lines [c::d::cs]=rowText (c::d::cs) := by simp [lines]
  rw [scan_lines hbefore,hone,scan_lastRow hlast,List.map_append]
  rfl

/-- The text of a row goes on after its first cells. -/
theorem rowText_append (c : Text) (cs : List Text) (next : Text) (post : List Text) :
    rowText (c::cs++next::post)=rowText (c::cs)++ ','::rowText (next::post) := by
  induction cs generalizing c with
  | nil => rw [rowText_singleton,←rowText_cons]; rfl
  | cons d cs ih =>
    have hrow : rowText (c::d::cs++next::post)=csvEscape c++ ','::rowText (d::cs++next::post) :=
      rowText_cons c d (cs++next::post)
    rw [hrow,ih d,rowText_cons,List.append_assoc,List.cons_append]

theorem rowText_start (c : Text) (cs : List Text) : ∃ rest,rowText (c::cs)=csvEscape c++rest := by
  cases cs with
  | nil => exact ⟨[],by rw [rowText_singleton,List.append_nil]⟩
  | cons d cs => exact ⟨_,rowText_cons c d cs⟩

theorem lines_start (cells : List Text) (rows : List (List Text)) :
    ∃ rest,lines (cells::rows)=rowText cells++rest := by
  cases rows with
  | nil => exact ⟨[],by simp [lines]⟩
  | cons next rows => exact ⟨_,lines_cons cells next rows⟩

/-- The first entry of a list that fails. -/
theorem exists_first_failure {α : Type} {P : α → Prop} {xs : List α} (h : ¬∀ x∈xs,P x) :
    ∃ pre bad post,xs=pre++bad::post ∧ (∀ x∈pre,P x) ∧ ¬P bad := by
  induction xs with
  | nil => exact absurd (fun x hx => absurd hx List.not_mem_nil) h
  | cons x xs ih =>
    by_cases hx : P x
    · obtain ⟨pre,bad,post,rfl,hpre,hbad⟩ := ih fun hall => h (List.forall_mem_cons.mpr ⟨hx,hall⟩)
      exact ⟨x::pre,bad,post,rfl,List.forall_mem_cons.mpr ⟨hx,hpre⟩,hbad⟩
    · exact ⟨[],x,xs,rfl,fun y hy => absurd hy List.not_mem_nil,hx⟩

/-- The guard keeps a name from being blank. -/
theorem trim_guarded {name : Text} (h : trim name≠[]) : trim (guarded name)≠[] := by
  intro hblank
  rw [trim_eq_nil_iff] at hblank
  refine h ((trim_eq_nil_iff name).mpr fun c hc => hblank c ?_)
  unfold guarded
  split_ifs
  · exact List.mem_cons_of_mem _ hc
  · exact hc

/-- A row with a cell that cannot be read back: the first row that is kept
has a value without carriage return in a column that was exported with one. -/
theorem scan_broken_row {name d : Text} {cs : List Text} (hname : trim name≠[])
    (hbroken : ¬∀ cell∈name::d::cs,Escapes cell) (after : List (List Text)) :
    ∃ k,k<(name::d::cs).length ∧ '\r'∈(name::d::cs).getD k [] ∧ ∃ row rows,
      (scan (lines ((name::d::cs)::after)) false false [] []).filter filled=row::rows ∧
        '\r'∉row.getD k [] := by
  obtain ⟨pre,bad,post,hsplit,hpre,hbad⟩ := exists_first_failure hbroken
  have hreturn : '\r'∈bad := by
    by_contra hnot
    exact hbad fun h => absurd h hnot
  have hquotes : needsQuotes bad=false := by
    by_contra hquoted
    exact hbad fun _ => by simpa using hquoted
  have hcell : csvEscape bad=guarded bad := by
    rw [csvEscape,needsQuotes_guarded,hquotes]
    rfl
  have hguarded : needsQuotes (guarded bad)=false := by rw [needsQuotes_guarded,hquotes]
  obtain ⟨tail,htail⟩ := lines_start (name::d::cs) after
  rw [htail,hsplit]
  refine ⟨pre.length,by simp,by simpa using hreturn,?_⟩
  cases pre with
  | nil =>
    obtain ⟨rfl,rfl⟩ := List.cons.inj hsplit
    obtain ⟨first,fields,rows,hscan,hfirst⟩ := @scan_first_cell (guarded name) hguarded []
      List.not_mem_nil (trim_guarded hname) (rowText (d::cs)++tail)
    refine ⟨first::fields,rows,?_,hfirst⟩
    rw [List.nil_append,rowText_cons,hcell,List.append_assoc,List.cons_append,hscan]
  | cons c pre =>
    obtain ⟨rest,hrest⟩ := rowText_start bad post
    obtain ⟨init,last,hmap,hscan⟩ :=
      @scan_cells c pre hpre (','::(rowText (bad::post)++tail)) (by simp)
    obtain ⟨cut,rows,hcut,hfree⟩ := @scan_unescaped (guarded bad) hguarded
      ((mem_guarded (by decide) bad).mpr hreturn) ((c::pre).map guarded) [] List.not_mem_nil (rest++tail)
    have hname' : c=name := (List.cons.inj hsplit).1.symm
    have hfilled : filled ((c::pre).map guarded++[cut])=true := by
      rw [hname']
      simp [filled,trim_guarded hname]
    refine ⟨(c::pre).map guarded++[cut],rows.filter filled,?_,by simpa using hfree⟩
    have htext : rowText (c::pre++bad::post)++tail=
        rowText (c::pre)++ ','::(rowText (bad::post)++tail) := by
      rw [rowText_append]
      simp
    rw [htext,hscan,scan_comma,List.nil_append,←hmap,hrest,hcell,List.append_assoc,hcut,
      List.filter_cons_of_pos hfilled]

end Tables

section RoundTrip

variable {platform : Platform}

/-- The login items of a vault. -/
def logins (items : List VaultItem) : List VaultItem := items.filter fun i => i.type=.login

/-- All exported values of an item can be read back. -/
def Readable (i : VaultItem) : Prop := ∀ cell∈exportCells i,Escapes cell

instance (i : VaultItem) : Decidable (Readable i) :=
  inferInstanceAs (Decidable (∀ cell∈exportCells i,Escapes cell))

/-- The export is a table with the columns as its first row. -/
theorem buildExportCsv_eq (items : List VaultItem) :
    buildExportCsv items=lines (COLUMNS::(logins items).map exportCells) := by
  have hheader : "name,username,password,totp,url,notes".toList=rowText COLUMNS := by decide
  rw [buildExportCsv,lines,List.map_cons,List.map_map,←hheader]
  rfl

/-- A file with the exported header is read under its columns. -/
theorem csvRecords_eq (hlower : KeepsLowercase platform) {csv : Text} {rows : List (List Text)}
    (h : parseCsv csv=COLUMNS::rows) : csvRecords platform csv=rows.map (record COLUMNS) := by
  have hheader : COLUMNS.map (fun h => trim (platform.toLowerCase h))=COLUMNS := by
    have hletters : (COLUMNS.all fun h => h.all fun c => 97≤c.toNat && c.toNat≤122)=true := by
      decide
    have hkeep : ∀ h∈COLUMNS,platform.toLowerCase h=h := by
      simp only [List.all_eq_true,Bool.and_eq_true,decide_eq_true_eq] at hletters
      exact fun h hh => hlower h (hletters h hh)
    rw [List.map_congr_left fun h hh => by rw [hkeep h hh]]
    decide
  unfold csvRecords
  rw [h]
  cases rows with
  | nil => rfl
  | cons row rows =>
    dsimp only
    rw [hheader]

/-- A row that starts with a name is not blank. -/
theorem filled_cells {i : VaultItem} (hname : trim i.name≠[]) :
    filled ((exportCells i).map guarded)=true := by
  simp [filled,exportCells,trim_guarded hname]

/-- Rows with names pass the filter. -/
theorem filter_cells {items : List VaultItem} (hnames : ∀ i∈items,trim i.name≠[]) :
    ((items.map exportCells).map (List.map guarded)).filter filled=
      (items.map exportCells).map (List.map guarded) := by
  rw [List.filter_eq_self]
  intro row hrow
  obtain ⟨cells,hcells,rfl⟩ := List.mem_map.mp hrow
  obtain ⟨i,hi,rfl⟩ := List.mem_map.mp hcells
  exact filled_cells (hnames i hi)

/-- The items of guarded rows. -/
theorem rowItems_cells {items : List VaultItem} (hnames : ∀ i∈items,trim i.name≠[]) :
    (((items.map exportCells).map (List.map guarded)).map (record COLUMNS)).map rowItem=
      items.map csvItem := by
  rw [List.map_map,List.map_map,List.map_map]
  refine List.map_congr_left fun i hi => rowItem_cells ?_
  intro hnil
  refine hnames i hi ?_
  rw [hnil]
  rfl

/-- An export all of whose values can be read back is read back. -/
theorem parse_readable (hlower : KeepsLowercase platform) {items : List VaultItem}
    (hnames : ∀ i∈logins items,trim i.name≠[]) (hread : ∀ i∈logins items,Readable i) :
    parseGenericCsv platform (buildExportCsv items)=(logins items).map csvItem := by
  have hcells : ∀ cells∈COLUMNS::(logins items).map exportCells,Closes cells := by
    intro cells hcells
    rcases List.mem_cons.mp hcells with rfl|hcells
    · exact ⟨⟨_,_,_,rfl⟩,by decide⟩
    · obtain ⟨i,hi,rfl⟩ := List.mem_map.mp hcells
      exact ⟨⟨_,_,_,rfl⟩,hread i hi⟩
  have hscan := scan_table (List.cons_ne_nil _ _) hcells
  have hrows : parseCsv (buildExportCsv items)=
      COLUMNS::((logins items).map exportCells).map (List.map guarded) := by
    rw [parseCsv,buildExportCsv_eq,hscan,List.map_cons,List.filter_cons_of_pos (by decide),
      filter_cells hnames]
    rfl
  rw [parseGenericCsv,csvRecords_eq hlower hrows,rowItems_cells hnames]

/-- An export with a value that cannot be read back is not read back. -/
theorem parse_unreadable (hlower : KeepsLowercase platform) {items : List VaultItem}
    (hnames : ∀ i∈logins items,trim i.name≠[]) (hbroken : ¬∀ i∈logins items,Readable i) :
    parseGenericCsv platform (buildExportCsv items)≠(logins items).map csvItem := by
  obtain ⟨pre,bad,post,hsplit,hpre,hbad⟩ := exists_first_failure hbroken
  have hbadName : trim bad.name≠[] := hnames bad (by rw [hsplit]; simp)
  have hpreNames : ∀ i∈pre,trim i.name≠[] := fun i hi =>
    hnames i (by rw [hsplit]; exact List.mem_append_left _ hi)
  obtain ⟨k,hk,hreturn,row,rows,hkept,hfree⟩ :=
    scan_broken_row hbadName hbad (post.map exportCells)
  have hbefore : ∀ cells∈COLUMNS::pre.map exportCells,cells≠[] ∧ ∀ cell∈cells,Escapes cell := by
    intro cells hcells
    rcases List.mem_cons.mp hcells with rfl|hcells
    · exact ⟨by decide,by decide⟩
    · obtain ⟨i,hi,rfl⟩ := List.mem_map.mp hcells
      exact ⟨List.cons_ne_nil _ _,hpre i hi⟩
  have hparse : parseCsv (buildExportCsv items)=
      COLUMNS::((pre.map exportCells).map (List.map guarded)++row::rows) := by
    have htable : COLUMNS::(logins items).map exportCells=
        (COLUMNS::pre.map exportCells)++exportCells bad::post.map exportCells := by
      rw [hsplit]
      simp
    rw [parseCsv,buildExportCsv_eq,htable,scan_lines hbefore,List.filter_append,List.map_cons,
      List.filter_cons_of_pos (by decide),filter_cells hpreNames]
    exact congrArg (fun kept => COLUMNS::((pre.map exportCells).map (List.map guarded)++kept)) hkept
  intro hitems
  rw [parseGenericCsv,csvRecords_eq hlower hparse,List.map_append,List.map_append,
    rowItems_cells hpreNames,hsplit,List.map_append] at hitems
  have hitem : rowItem (record COLUMNS row)=csvItem bad :=
    (List.cons.inj (List.append_cancel_left hitems)).1
  refine column_rowItem hk hfree ?_
  rw [hitem,column_csvItem bad hk]
  exact hreturn

/-- A CSV export of items with names that are not blank is read back item by
item, exactly when no exported value of a login holds a carriage return
without a comma, a quote or a line feed. -/
theorem csv_reversible_iff (hlower : KeepsLowercase platform) {items : List VaultItem}
    (hnames : ∀ i∈items,trim i.name≠[]) :
    parseGenericCsv platform (buildExportCsv items)=(logins items).map csvItem ↔
      ∀ i∈items,i.type=.login → ∀ cell∈exportCells i,
        '\r'∈cell → ','∈cell ∨ '"'∈cell ∨ '\n'∈cell := by
  have hloginNames : ∀ i∈logins items,trim i.name≠[] := fun i hi => hnames i (List.mem_filter.mp hi).1
  have hescapes (cell : Text) : Escapes cell ↔ ('\r'∈cell → ','∈cell ∨ '"'∈cell ∨ '\n'∈cell) := by
    have hquotes : needsQuotes cell=true ↔ ','∈cell ∨ '"'∈cell ∨ '\n'∈cell := by
      simp only [needsQuotes,List.any_eq_true,Bool.or_eq_true,beq_iff_eq]
      constructor
      · rintro ⟨c,hc,(rfl|rfl)|rfl⟩
        · exact .inl hc
        · exact .inr (.inl hc)
        · exact .inr (.inr hc)
      · rintro (hc|hc|hc)
        · exact ⟨_,hc,.inl (.inl rfl)⟩
        · exact ⟨_,hc,.inl (.inr rfl)⟩
        · exact ⟨_,hc,.inr rfl⟩
    rw [Escapes,hquotes]
  have hreadable : (∀ i∈logins items,Readable i) ↔ ∀ i∈items,i.type=.login →
      ∀ cell∈exportCells i,'\r'∈cell → ','∈cell ∨ '"'∈cell ∨ '\n'∈cell := by
    simp only [logins,List.mem_filter,decide_eq_true_eq,Readable,hescapes,and_imp]
  rw [←hreadable]
  constructor
  · intro hitems
    by_contra hbroken
    exact parse_unreadable hlower hloginNames hbroken hitems
  · exact parse_readable hlower hloginNames

/-- A login with this password. -/
def sampleLogin (password : Text) : VaultItem :=
  ⟨"1".toList,.login,"=cmd".toList,none,none,[],false,[],[],
    some ⟨"'@user".toList,password,["https://a.example".toList],none⟩,some "line\nnext".toList,none⟩

theorem transparent_keepsLowercase : KeepsLowercase transparent := fun _ _ => rfl

/-- A password with a carriage return in it is cut in two. -/
theorem carriageReturn_splits_row : ¬∀ platform : Platform,KeepsLowercase platform →
    ∀ items : List VaultItem,(∀ i∈items,trim i.name≠[]) →
      parseGenericCsv platform (buildExportCsv items)=(logins items).map csvItem := by
  intro hreversible
  have hnames : ∀ i∈[sampleLogin "a\rb".toList],trim i.name≠[] := by decide
  refine parse_unreadable transparent_keepsLowercase (fun i hi => hnames i (List.mem_filter.mp hi).1) ?_
    (hreversible transparent transparent_keepsLowercase _ hnames)
  decide

/-- A password with every special character at once. -/
theorem csv_reversible_sample :
    (∀ i∈[sampleLogin "-,\r\"b".toList],trim i.name≠[]) ∧
      parseGenericCsv transparent (buildExportCsv [sampleLogin "-,\r\"b".toList])=
        [csvItem (sampleLogin "-,\r\"b".toList)] := by
  have hnames : ∀ i∈[sampleLogin "-,\r\"b".toList],trim i.name≠[] := by decide
  exact ⟨hnames,(csv_reversible_iff transparent_keepsLowercase hnames).mpr (by decide)⟩

end RoundTrip

end NadSafe.CsvExport
