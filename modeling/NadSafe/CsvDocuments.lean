import NadSafe.CsvText

/-!
# CSV documents

Rows of cells as RFC 4180 writes them: a cell is enclosed in double quotes,
or written bare when nothing in it has a meaning, cells are joined by commas
and rows by line ends. `parseCsv` reads the rows back.
-/

namespace NadSafe.CsvDocuments

open HostText CsvText

/-- A line end. -/
inductive LineEnd where
  /-- LF. -/
  | lf
  /-- CRLF. -/
  | crlf

/-- Its characters. -/
def LineEnd.text : LineEnd → Text
  | .lf => ['\n']
  | .crlf => ['\r','\n']

/-- A cell with the way in which it is written. -/
structure Cell where
  /-- The field. -/
  value : Text
  /-- Enclosed in quotes. -/
  quoted : Bool
  /-- A bare field holds no quote, comma, CR or LF. -/
  plain : quoted=false → ∀ c∈value,isPlain c=true

/-- The text of a cell. -/
def Cell.text (cell : Cell) : Text :=
  if cell.quoted=true then '"'::doubleQuotes cell.value++['"'] else cell.value

/-- The text of a row. -/
def rowText (cells : List Cell) : Text := [','].intercalate (cells.map Cell.text)

/-- The fields of a row. -/
def fields (cells : List Cell) : List Text := cells.map Cell.value

/-- A document: rows joined by a line end, and perhaps one more at the end. -/
def write (separator : LineEnd) (terminator : Option LineEnd) (rows : List (List Cell)) : Text :=
  separator.text.intercalate (rows.map rowText)++(terminator.map LineEnd.text).getD []

section Rows

variable {row : List Text} {field : Text}

/-- A line end of either kind ends the row. -/
theorem scan_lineEnd (eol : LineEnd) (rest : Text) :
    scan (eol.text++rest) false false row field=(row++[field])::scan rest false false [] [] := by
  cases eol with
  | lf => exact scan_newline rest
  | crlf => simp [LineEnd.text,scan]

/-- A line end is no quote. -/
theorem lineEnd_head (eol : LineEnd) (rest : Text) : (eol.text++rest).head?≠some '"' := by
  cases eol with
  | lf => simp [LineEnd.text]
  | crlf => simp [LineEnd.text]

/-- A written cell is read as its field. -/
theorem scan_cell (cell : Cell) {rest : Text} (hrest : rest.head?≠some '"') :
    scan (cell.text++rest) false false row []=scan rest false false row cell.value := by
  unfold Cell.text
  split_ifs with hquoted
  · have hopen : scan ('"'::doubleQuotes cell.value++['"']++rest) false false row []=
        scan (doubleQuotes cell.value++ '"'::rest) false true row [] := by
      simp [scan]
    rw [hopen,scan_quoted _ hrest,List.nil_append]
  · rw [scan_plains (cell.plain (by simpa using hquoted)),List.nil_append]

theorem rowText_cons (cell next : Cell) (cells : List Cell) :
    rowText (cell::next::cells)=cell.text++ ','::rowText (next::cells) := by
  simp [rowText,List.intercalate_cons_cons]

theorem rowText_singleton (cell : Cell) : rowText [cell]=cell.text := by simp [rowText]

/-- The cells of a row are read one by one; the last field is still open. -/
theorem scan_cells (cell : Cell) (cells : List Cell) :
    ∃ init last,fields (cell::cells)=init++[last] ∧ ∀ (row : List Text) (rest : Text),rest.head?≠some '"' →
      scan (rowText (cell::cells)++rest) false false row []=scan rest false false (row++init) last := by
  induction cells generalizing cell with
  | nil =>
    refine ⟨[],cell.value,rfl,fun row rest hrest => ?_⟩
    rw [rowText_singleton,List.append_nil]
    exact scan_cell cell hrest
  | cons next cells ih =>
    obtain ⟨init,last,hsplit,hscan⟩ := ih next
    refine ⟨cell.value::init,last,congrArg (cell.value::·) hsplit,fun row rest hrest => ?_⟩
    have hcomma : (','::(rowText (next::cells)++rest)).head?≠some '"' := by simp
    rw [rowText_cons,List.append_assoc,List.cons_append,scan_cell cell hcomma,scan_comma,hscan _ _ hrest]
    simp

/-- A row with its line end. -/
theorem scan_row {cells : List Cell} (hcells : cells≠[]) (eol : LineEnd) (rest : Text) :
    scan (rowText cells++(eol.text++rest)) false false [] []=fields cells::scan rest false false [] [] := by
  obtain ⟨cell,cells,rfl⟩ := List.exists_cons_of_ne_nil hcells
  obtain ⟨init,last,hsplit,hscan⟩ := scan_cells cell cells
  rw [hscan [] _ (lineEnd_head eol rest),scan_lineEnd,List.nil_append,hsplit]

/-- A row at the end of the text. Nothing comes of it if it is one empty
field, which the filter drops as well. -/
theorem scan_lastRow {cells : List Cell} (hcells : cells≠[]) :
    (scan (rowText cells) false false [] []).filter filled=[fields cells].filter filled := by
  obtain ⟨cell,cells,rfl⟩ := List.exists_cons_of_ne_nil hcells
  obtain ⟨init,last,hsplit,hscan⟩ := scan_cells cell cells
  have hend := hscan [] [] (by simp)
  rw [List.append_nil,List.nil_append] at hend
  rw [hend,hsplit,scan]
  split_ifs with hopen
  · rfl
  · rw [not_or,not_not,not_not] at hopen
    rw [hopen.1,hopen.2]
    rfl

end Rows

section Documents

theorem write_cons (separator : LineEnd) (terminator : Option LineEnd) (cells next : List Cell)
    (rows : List (List Cell)) : write separator terminator (cells::next::rows)=
      rowText cells++(separator.text++write separator terminator (next::rows)) := by
  simp only [write,List.map_cons]
  rw [List.intercalate_cons_cons]
  simp

/-- The rows of a document that are not blank are read. -/
theorem parseCsv_write (separator : LineEnd) (terminator : Option LineEnd) {rows : List (List Cell)}
    (hrows : ∀ cells∈rows,cells≠[]) :
    parseCsv (write separator terminator rows)=(rows.map fields).filter filled := by
  induction rows with
  | nil =>
    rcases terminator with _|_|_
    · rfl
    · rfl
    · rfl
  | cons cells rows ih =>
    have hcells := hrows cells List.mem_cons_self
    cases rows with
    | nil =>
      have htext : write separator terminator [cells]=rowText cells++(terminator.map LineEnd.text).getD [] := by
        simp [write]
      rw [htext,parseCsv]
      cases terminator with
      | none =>
        rw [Option.map_none,Option.getD_none,List.append_nil]
        exact scan_lastRow hcells
      | some eol =>
        have hrow := scan_row hcells eol []
        rw [List.append_nil] at hrow
        rw [Option.map_some,Option.getD_some,hrow]
        rfl
    | cons next rows =>
      have hrest := ih fun cells' h => hrows cells' (List.mem_cons_of_mem cells h)
      rw [parseCsv] at hrest
      rw [write_cons,parseCsv,scan_row hcells,List.map_cons,List.filter_cons,hrest,List.filter_cons]

/-- Rows with a field that is not blank are read back. -/
theorem parseCsv_inverts_write (separator : LineEnd) (terminator : Option LineEnd) {rows : List (List Cell)}
    (hrows : ∀ cells∈rows,∃ cell∈cells,trim cell.value≠[]) :
    parseCsv (write separator terminator rows)=rows.map fields := by
  have hne : ∀ cells∈rows,cells≠[] := by
    intro cells hcells
    obtain ⟨cell,hcell,-⟩ := hrows cells hcells
    exact List.ne_nil_of_mem hcell
  rw [parseCsv_write separator terminator hne,List.filter_eq_self]
  intro row hrow
  obtain ⟨cells,hcells,rfl⟩ := List.mem_map.mp hrow
  obtain ⟨cell,hcell,hfilled⟩ := hrows cells hcells
  exact List.any_eq_true.mpr ⟨cell.value,List.mem_map_of_mem hcell,decide_eq_true hfilled⟩

/-- Two rows with every special character. -/
theorem parseCsv_inverts_write_sample :
    (∀ cells∈[[⟨['"',',','\r'],true,nofun⟩,⟨['a'],false,fun _ => List.forall_mem_singleton.mpr rfl⟩],
        [(⟨['\n','b'],true,nofun⟩ : Cell)]],∃ cell∈cells,trim cell.value≠[]) ∧
    parseCsv "\"\"\",\r\",a\r\n\"\nb\"\r\n".toList=[[['"',',','\r'],['a']],[['\n','b']]] := by
  have hfilled : ∀ cells∈[[⟨['"',',','\r'],true,nofun⟩,⟨['a'],false,fun _ => List.forall_mem_singleton.mpr rfl⟩],
      [(⟨['\n','b'],true,nofun⟩ : Cell)]],∃ cell∈cells,trim cell.value≠[] := by
    refine List.forall_mem_cons.mpr ⟨⟨_,List.mem_cons_self,by decide⟩,List.forall_mem_singleton.mpr ?_⟩
    exact ⟨_,List.mem_cons_self,by decide⟩
  exact ⟨hfilled,parseCsv_inverts_write .crlf (some .crlf) hfilled⟩

end Documents

end NadSafe.CsvDocuments
