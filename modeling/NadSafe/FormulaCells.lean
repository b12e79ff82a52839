import NadSafe.CsvExport

/-!
# Formula characters in exported cells

`csvEscape` guards the first character of a value. A carriage return in a
value without comma, quote or line feed is written bare, though, and ends the
row, so that the characters behind it open a row of their own.
-/

namespace NadSafe.FormulaCells

open HostText CsvText CsvExport WebClient

/-- A cell that spreadsheets take for a formula. -/
def startsFormula (field : Text) : Bool := field.head?.any isFormula

/-- The cells up to the first carriage return outside of quotes. -/
def lead : List Text → List Text
  | [] => []
  | value::cells =>
    if needsQuotes value=false ∧ '\r'∈value then [value.takeWhile (·≠ '\r')] else value::lead cells

/-- Behind a carriage return outside of quotes stand the rest of its cell and
the cells after it. -/
def Breaks (cells : List Text) (rest : Text) (later : List Text) : Prop :=
  ∃ before value head,cells=before++value::later ∧ needsQuotes value=false ∧ value=head++ '\r'::rest

/-- The rows that the reader keeps, from the middle of a row. -/
def kept (text : Text) (row : List Text) (field : Text) : List (List Text) :=
  (scan text false false row field).filter filled

section Reader

variable {row : List Text} {field : Text}

theorem kept_comma (rest : Text) : kept (','::rest) row field=kept rest (row++[field]) [] := by
  rw [kept,scan_comma,kept]

theorem kept_plain {c : Char} (hc : isPlain c=true) (rest : Text) :
    kept (c::rest) row field=kept rest row (field++[c]) := by
  rw [kept,scan_plain hc,kept]

/-- What ends a row, and the text behind it. -/
def Closing (closing rest : Text) : Prop := ∀ (row : List Text) (field : Text),
  kept closing row field=[row++[field]].filter filled++kept rest [] []

theorem closing_newline (rest : Text) : Closing ('\n'::rest) rest := by
  intro row field
  rw [kept,scan_newline,List.filter_cons,List.filter_cons]
  split_ifs
  · rfl
  · rfl

/-- The end of the text. -/
theorem closing_nil : Closing [] [] := by
  intro row field
  have hnone : kept [] [] []=[] := rfl
  rw [hnone,List.append_nil,kept,scan]
  split_ifs with hopen
  · rfl
  · rw [not_or,not_not,not_not] at hopen
    rw [hopen.1,hopen.2]
    rfl

/-- A carriage return. A line feed behind it makes no row that is kept. -/
theorem closing_return (rest : Text) : Closing ('\r'::rest) rest := by
  intro row field
  by_cases hnext : rest.head?=some '\n'
  · obtain ⟨c,rest,rfl⟩ := List.exists_cons_of_ne_nil (show rest≠[] by rintro rfl; cases hnext)
    cases hnext
    have hpair : scan ('\r':: '\n'::rest) false false row field=(row++[field])::scan rest false false [] [] := by
      simp [scan]
    rw [kept,hpair,closing_newline rest [] [],List.filter_cons,List.filter_cons]
    split_ifs
    · rfl
    · rfl
  · rw [kept,scan_return hnext,List.filter_cons,List.filter_cons]
    split_ifs
    · rfl
    · rfl

/-- A cell that nothing cuts. -/
def Whole (value : Text) : Prop := needsQuotes value=true ∨ '\r'∉value

theorem lead_whole {value : Text} {cells : List Text} (hwhole : Whole value) :
    lead (value::cells)=value::lead cells := by
  refine if_neg fun ⟨hquotes,hreturn⟩ => ?_
  rcases hwhole with hwhole|hwhole
  · rw [hwhole] at hquotes
    cases hquotes
  · exact hwhole hreturn

/-- The cell up to its carriage return. -/
theorem lead_cut {rest : Text} {cells : List Text} (hreturn : '\r'∉field)
    (hquotes : needsQuotes (field++ '\r'::rest)=false) : lead ((field++ '\r'::rest)::cells)=[field] := by
  have hplain : ∀ c∈field,decide (c≠ '\r')=true := fun c hc => decide_eq_true fun he => hreturn (he ▸ hc)
  rw [lead,if_pos ⟨hquotes,by simp⟩,List.takeWhile_append_of_pos hplain]
  simp

variable {value rest : Text} {cells later : List Text}

theorem breaks_whole (hwhole : Whole value) :
    Breaks (value::cells) rest later ↔ Breaks cells rest later := by
  constructor
  · rintro ⟨before,cut,head,hcells,hquotes,hcut⟩
    cases before with
    | nil =>
      obtain ⟨rfl,rfl⟩ := List.cons.inj hcells
      rcases hwhole with hwhole|hwhole
      · rw [hwhole] at hquotes
        cases hquotes
      · rw [hcut] at hwhole
        simp at hwhole
    | cons first before => exact ⟨before,cut,head,(List.cons.inj hcells).2,hquotes,hcut⟩
  · rintro ⟨before,cut,head,hcells,hquotes,hcut⟩
    exact ⟨value::before,cut,head,congrArg (value::·) hcells,hquotes,hcut⟩

/-- A cell that is cut: the rest of it may be cut once more. -/
theorem breaks_cut {tail : Text} (hreturn : '\r'∉field) (hquotes : needsQuotes (field++ '\r'::tail)=false) :
    Breaks ((field++ '\r'::tail)::cells) rest later ↔
      rest=tail ∧ later=cells ∨ Breaks (tail::cells) rest later := by
  have htail : needsQuotes tail=false := by
    rw [needsQuotes,List.any_append,Bool.or_eq_false_iff] at hquotes
    exact needsQuotes_tail hquotes.2
  constructor
  · rintro ⟨before,cut,head,hcells,hcutQuotes,hcut⟩
    cases before with
    | nil =>
      obtain ⟨rfl,rfl⟩ := List.cons.inj hcells
      rcases List.append_eq_append_iff.mp hcut with ⟨mid,hhead,hmid⟩|⟨mid,hfield,hmid⟩
      · cases mid with
        | nil => exact .inl ⟨((List.cons.inj hmid).2).symm,rfl⟩
        | cons c mid =>
          refine .inr ⟨[],tail,mid,rfl,htail,?_⟩
          exact (List.cons.inj hmid).2
      · cases mid with
        | nil => exact .inl ⟨(List.cons.inj hmid).2,rfl⟩
        | cons c mid =>
          have hc : c= '\r' := ((List.cons.inj hmid).1).symm
          rw [hfield,hc] at hreturn
          simp at hreturn
    | cons first before => exact .inr ⟨tail::before,cut,head,congrArg (tail::·) (List.cons.inj hcells).2,hcutQuotes,hcut⟩
  · rintro (⟨rfl,rfl⟩|⟨before,cut,head,hcells,hcutQuotes,hcut⟩)
    · exact ⟨[],_,field,rfl,hquotes,rfl⟩
    · cases before with
      | nil =>
        obtain ⟨rfl,rfl⟩ := List.cons.inj hcells
        exact ⟨[],_,field++ '\r'::head,rfl,hquotes,by rw [hcut]; simp⟩
      | cons first before =>
        exact ⟨(field++ '\r'::tail)::before,cut,head,congrArg (_::·) (List.cons.inj hcells).2,hcutQuotes,hcut⟩

/-- The rows that come from the cells of one written row. -/
def From (row cells found : List Text) : Prop :=
  found=row++lead cells ∨ ∃ rest later,Breaks cells rest later ∧ found=lead (rest::later)

/-- Behind a cell: the reader finds the rows of the other cells, then those of
the text after the row. -/
def After (text : Text) (cells : List Text) (rest : Text) : Prop :=
  ∀ (row : List Text) (field : Text) (found : List Text),Whole field →
    (found∈kept text row field ↔ filled found=true ∧ From row (field::cells) found ∨ found∈kept rest [] [])

theorem mem_kept_closing {closing : Text} (hclosing : Closing closing rest) : After closing [] rest := by
  intro row field found hwhole
  have hfrom : From row [field] found ↔ found=row++[field] := by
    have hnone : ∀ rest later,¬Breaks [field] rest later := by
      rintro rest later h
      obtain ⟨before,cut,head,hcells,-⟩ := (breaks_whole hwhole).mp h
      simp at hcells
    rw [From,lead_whole hwhole]
    exact ⟨fun h => h.resolve_right fun ⟨rest,later,hbreaks,_⟩ => hnone rest later hbreaks,.inl⟩
  rw [hclosing,List.mem_append,List.mem_filter,List.mem_singleton,hfrom,and_comm]

/-- A cell that is written bare. -/
theorem mem_kept_bare {text : Text} (hafter : After text cells rest) {found : List Text} {s : Text}
    (hreturn : '\r'∉field) (hquotes : needsQuotes (field++s)=false) :
    found∈kept (s++text) row field ↔
      filled found=true ∧ From row ((field++s)::cells) found ∨ found∈kept rest [] [] := by
  induction s generalizing row field with
  | nil =>
    rw [List.append_nil,List.nil_append]
    exact hafter row field found (.inr hreturn)
  | cons c s ih =>
    have hjoin : field++c::s=(field++[c])++s := by simp
    by_cases hc : c= '\r'
    · subst hc
      have hs : needsQuotes ([]++s)=false := by
        rw [needsQuotes,List.any_append,Bool.or_eq_false_iff] at hquotes
        exact needsQuotes_tail hquotes.2
      rw [List.cons_append,closing_return,List.mem_append,List.mem_filter,List.mem_singleton,
        ih List.not_mem_nil hs]
      -- The row ends here; the rest of the cell opens another one.
      have hfrom : From row ((field++ '\r'::s)::cells) found ↔ found=row++[field] ∨ From [] (s::cells) found := by
        rw [From,lead_cut hreturn hquotes,From,List.nil_append]
        simp only [breaks_cut hreturn hquotes]
        constructor
        · rintro (hfound|⟨rest,later,⟨rfl,rfl⟩|hbreaks,hfound⟩)
          · exact .inl hfound
          · exact .inr (.inl hfound)
          · exact .inr (.inr ⟨rest,later,hbreaks,hfound⟩)
        · rintro (hfound|hfound|⟨rest,later,hbreaks,hfound⟩)
          · exact .inl hfound
          · exact .inr ⟨s,cells,.inl ⟨rfl,rfl⟩,hfound⟩
          · exact .inr ⟨rest,later,.inr hbreaks,hfound⟩
      rw [hfrom,List.nil_append]
      grind
    · have hplain : isPlain c=true := by
        refine plain_of_unquoted hquotes ?_ hc
        simp
      have hfield : '\r'∉field++[c] := by
        rw [List.mem_append,List.mem_singleton]
        exact not_or.mpr ⟨hreturn,fun he => hc he.symm⟩
      rw [hjoin] at hquotes ⊢
      rw [List.cons_append,kept_plain hplain]
      exact ih hfield hquotes

/-- A written cell. -/
theorem mem_kept_cell {text : Text} (hafter : After text cells rest) (htext : text.head?≠some '"')
    {found : List Text} (val : Text) : found∈kept (csvEscape val++text) row [] ↔
      filled found=true ∧ From row (guarded val::cells) found ∨ found∈kept rest [] [] := by
  unfold csvEscape
  split_ifs with hquotes
  · have hopen : scan ('"'::doubleQuotes (guarded val)++['"']++text) false false row []=
        scan (doubleQuotes (guarded val)++ '"'::text) false true row [] := by
      simp [scan]
    rw [kept,hopen,scan_quoted _ htext,List.nil_append]
    exact hafter row (guarded val) found (.inl hquotes)
  · exact mem_kept_bare hafter List.not_mem_nil (by simpa using hquotes)

/-- The rows of a written row. -/
theorem mem_kept_row {closing : Text} (hclosing : Closing closing rest) (hhead : closing.head?≠some '"')
    (val : Text) (vals : List Text) (row found : List Text) : found∈kept (rowText (val::vals)++closing) row [] ↔
      filled found=true ∧ From row ((val::vals).map guarded) found ∨ found∈kept rest [] [] := by
  induction vals generalizing val row found with
  | nil =>
    rw [rowText_singleton]
    exact mem_kept_cell (mem_kept_closing hclosing) hhead val
  | cons next vals ih =>
    have hcomma : (','::(rowText (next::vals)++closing)).head?≠some '"' := by simp
    have hafter : After (','::(rowText (next::vals)++closing)) ((next::vals).map guarded) rest := by
      intro row field found hwhole
      rw [kept_comma,ih,From,From,lead_whole hwhole]
      simp only [breaks_whole hwhole,List.append_assoc,List.singleton_append]
    rw [rowText_cons,List.append_assoc,List.cons_append]
    exact mem_kept_cell hafter hcomma val

/-- The rows of a table. -/
theorem mem_kept_lines {rows : List (List Text)} (hrows : ∀ cells∈rows,cells≠[]) (hne : rows≠[])
    (found : List Text) : found∈kept (lines rows) [] [] ↔
      filled found=true ∧ ∃ cells∈rows,From [] (cells.map guarded) found := by
  induction rows with
  | nil => exact absurd rfl hne
  | cons cells rows ih =>
    obtain ⟨val,vals,rfl⟩ := List.exists_cons_of_ne_nil (hrows cells List.mem_cons_self)
    cases rows with
    | nil =>
      have hone := mem_kept_row closing_nil (by simp) val vals [] found
      have hlines : lines [val::vals]=rowText (val::vals) := by simp [lines]
      have hnone : kept [] [] []=[] := rfl
      rw [List.append_nil,hnone] at hone
      rw [hlines,hone]
      simp
    | cons next rows =>
      have hnewline : ('\n'::lines (next::rows)).head?≠some '"' := by simp
      rw [lines_cons,mem_kept_row (closing_newline _) hnewline,
        ih (fun cells h => hrows cells (List.mem_cons_of_mem _ h)) (List.cons_ne_nil _ _)]
      simp only [List.exists_mem_cons_iff,and_or_left]

end Reader

section Formulas

/-- A guarded value starts with no formula character. -/
theorem guarded_plain (val : Text) : startsFormula (guarded val)=false := by
  unfold guarded
  split_ifs with hguard
  · rfl
  · cases val with
    | nil => rfl
    | cons c s =>
      by_contra hformula
      have hc : isFormula c=true := by simpa [startsFormula] using hformula
      refine hguard ?_
      rw [formulaGuard]
      split_ifs with hquote
      · rw [hquote] at hc
        cases hc
      · exact hc

/-- Neither does what stands before a carriage return in it. -/
theorem startsFormula_takeWhile {s : Text} (h : startsFormula s=false) :
    startsFormula (s.takeWhile (·≠ '\r'))=false := by
  cases s with
  | nil => rfl
  | cons c s =>
    rw [List.takeWhile_cons]
    split_ifs
    · exact h
    · rfl

/-- The cells that lead a row of guarded values. -/
theorem lead_guarded {vals : List Text} {field : Text} (h : field∈lead (vals.map guarded)) :
    startsFormula field=false := by
  induction vals with
  | nil => cases h
  | cons val vals ih =>
    rw [List.map_cons,lead] at h
    split_ifs at h
    · rw [List.mem_singleton.mp h]
      exact startsFormula_takeWhile (guarded_plain val)
    · rcases List.mem_cons.mp h with rfl|h
      · exact guarded_plain val
      · exact ih h

/-- The cuts of guarded values are those of the values. -/
theorem breaks_guarded {vals : List Text} {rest : Text} {later : List Text} :
    Breaks (vals.map guarded) rest later ↔ ∃ before val after head,vals=before++val::after ∧
      later=after.map guarded ∧ needsQuotes val=false ∧ val=head++ '\r'::rest := by
  constructor
  · rintro ⟨before,value,head,hsplit,hquotes,hvalue⟩
    obtain ⟨before,tail,rfl,-,htail⟩ := List.map_eq_append_iff.mp hsplit
    obtain ⟨val,after,rfl,rfl,hafter⟩ := List.map_eq_cons_iff.mp htail
    rw [needsQuotes_guarded] at hquotes
    unfold guarded at hvalue
    split_ifs at hvalue with hguard
    · cases head with
      | nil => exact absurd (List.cons.inj hvalue).1 (by decide)
      | cons c head => exact ⟨before,val,after,head,rfl,hafter.symm,hquotes,(List.cons.inj hvalue).2⟩
    · exact ⟨before,val,after,head,rfl,hafter.symm,hquotes,hvalue⟩
  · rintro ⟨before,val,after,head,rfl,rfl,hquotes,hval⟩
    have hguarded : ∃ head,guarded val=head++ '\r'::rest := by
      unfold guarded
      split_ifs
      · exact ⟨'\''::head,congrArg ('\''::·) hval⟩
      · exact ⟨head,hval⟩
    obtain ⟨head,hguarded⟩ := hguarded
    exact ⟨before.map guarded,guarded val,head,by simp,by rwa [needsQuotes_guarded],hguarded⟩

/-- The first cell behind a carriage return. -/
theorem lead_head {c : Char} (hc : c≠ '\r') (rest : Text) (later : List Text) :
    ∃ tail cells,lead ((c::rest)::later)=(c::tail)::cells := by
  rw [lead]
  split_ifs
  · exact ⟨rest.takeWhile (·≠ '\r'),[],by rw [List.takeWhile_cons_of_pos (by simpa using hc)]⟩
  · exact ⟨rest,lead later,rfl⟩

/-- A row whose first cell is not blank. -/
theorem filled_head {c : Char} (hc : jsWhitespace c=false) (tail : Text) (cells : List Text) :
    filled ((c::tail)::cells)=true := by
  have htrim : trim (c::tail)≠[] := by
    intro hblank
    rw [trim_eq_nil_iff] at hblank
    rw [hblank c List.mem_cons_self] at hc
    cases hc
  simp [filled,htrim]

/-- A row behind a carriage return whose first cell starts with no formula
character, or with another carriage return. -/
theorem lead_rest {rest field : Text} {vals : List Text} (hquotes : needsQuotes rest=false)
    (hfirst : startsFormula rest=false ∨ rest.head?=some '\r') (h : field∈lead (rest::vals.map guarded)) :
    startsFormula field=false := by
  rw [lead] at h
  split_ifs at h with hcut
  · rw [List.mem_singleton.mp h]
    rcases hfirst with hfirst|hfirst
    · exact startsFormula_takeWhile hfirst
    · obtain ⟨rest,rfl⟩ := List.head?_eq_some_iff.mp hfirst
      rfl
  · rcases List.mem_cons.mp h with rfl|h
    · refine hfirst.resolve_right fun hreturn => hcut ⟨hquotes,List.mem_of_mem_head? hreturn⟩
    · exact lead_guarded h

/-- No field of the exported file starts with a formula character. -/
def InjectionSafe (items : List VaultItem) : Prop :=
  ∀ row∈parseCsv (buildExportCsv items),∀ field∈row,startsFormula field=false

/-- The rows of an export. -/
theorem mem_parseCsv_export (items : List VaultItem) (found : List Text) :
    found∈parseCsv (buildExportCsv items) ↔
      filled found=true ∧ ∃ cells∈COLUMNS::(logins items).map exportCells,From [] (cells.map guarded) found := by
  have hcells : ∀ cells∈COLUMNS::(logins items).map exportCells,cells≠[] := by
    intro cells hcells
    rcases List.mem_cons.mp hcells with rfl|hcells
    · exact List.cons_ne_nil _ _
    · obtain ⟨i,-,rfl⟩ := List.mem_map.mp hcells
      exact List.cons_ne_nil _ _
  rw [buildExportCsv_eq]
  exact mem_kept_lines hcells (List.cons_ne_nil _ _) found

/-- The header is not cut. -/
theorem breaks_columns {rest : Text} {later : List Text} : ¬Breaks (COLUMNS.map guarded) rest later := by
  rintro ⟨before,value,head,hsplit,-,rfl⟩
  have hplain : ∀ value∈COLUMNS.map guarded,'\r'∉value := by decide
  exact hplain (head++ '\r'::rest) (by rw [hsplit]; simp) (by simp)

/-- An export is safe exactly when no exported value without comma, quote and
line feed has `=`, `+`, `-` or `@` behind a carriage return, or a tab with
something else than white space in the rest of that row. -/
theorem injectionSafe_iff (items : List VaultItem) : InjectionSafe items ↔
    ∀ i∈items,i.type=.login → ∀ before val after head c rest,exportCells i=before++val::after →
      needsQuotes val=false → val=head++ '\r'::c::rest →
        c∉['=','+','-','@'] ∧ (c= '\t' → filled (lead ((c::rest)::after.map guarded))=false) := by
  constructor
  · intro hsafe i hi htype before val after head c rest hcells hquotes hval
    have hfrom : From [] ((exportCells i).map guarded) (lead ((c::rest)::after.map guarded)) :=
      .inr ⟨_,_,(breaks_guarded).mpr ⟨before,val,after,head,hcells,rfl,hquotes,hval⟩,rfl⟩
    have hlogin : exportCells i∈COLUMNS::(logins items).map exportCells :=
      List.mem_cons_of_mem _ (List.mem_map_of_mem (List.mem_filter.mpr ⟨hi,decide_eq_true htype⟩))
    -- A kept row with this cell in front would not be safe.
    have hnot : isFormula c=true → c≠ '\r' → filled (lead ((c::rest)::after.map guarded))=false := by
      intro hformula hc
      by_contra hkept
      obtain ⟨tail,cells,hlead⟩ := lead_head hc rest (after.map guarded)
      have hmem := (mem_parseCsv_export items _).mpr ⟨by simpa using hkept,_,hlogin,hfrom⟩
      have hfield := hsafe _ hmem (c::tail) (by rw [hlead]; exact List.mem_cons_self)
      have hstarts : startsFormula (c::tail)=true := by simpa [startsFormula] using hformula
      rw [hstarts] at hfield
      cases hfield
    refine ⟨fun hc => ?_,fun hc => hnot (hc ▸ by decide) (hc ▸ by decide)⟩
    have hvisible : isFormula c=true ∧ c≠ '\r' ∧ jsWhitespace c=false := by
      revert hc
      simp only [List.mem_cons,List.not_mem_nil,or_false]
      rintro (rfl|rfl|rfl|rfl)
      all_goals decide
    obtain ⟨hformula,hreturn,hblank⟩ := hvisible
    have hdropped := hnot hformula hreturn
    obtain ⟨tail,cells,hlead⟩ := lead_head hreturn rest (after.map guarded)
    rw [hlead,filled_head hblank] at hdropped
    cases hdropped
  · intro hcells row hrow field hfield
    obtain ⟨hfilled,cells,hmem,hfrom⟩ := (mem_parseCsv_export items row).mp hrow
    rcases hfrom with rfl|⟨rest,later,hbreaks,rfl⟩
    · exact lead_guarded hfield
    rcases List.mem_cons.mp hmem with rfl|hmem
    · exact absurd hbreaks breaks_columns
    obtain ⟨i,hi,rfl⟩ := List.mem_map.mp hmem
    obtain ⟨hi,htype⟩ := List.mem_filter.mp hi
    obtain ⟨before,val,after,head,hsplit,rfl,hquotes,hval⟩ := (breaks_guarded).mp hbreaks
    have hrest : needsQuotes rest=false := by
      rw [hval,needsQuotes,List.any_append,Bool.or_eq_false_iff] at hquotes
      exact needsQuotes_tail hquotes.2
    refine lead_rest hrest ?_ hfield
    cases rest with
    | nil => exact .inl rfl
    | cons c rest =>
      obtain ⟨hplain,htab⟩ := hcells i hi (of_decide_eq_true htype) before val after head c rest hsplit hquotes hval
      by_cases hc : c= '\r'
      · exact .inr (congrArg some hc)
      refine .inl ?_
      by_contra hformula
      have hformula : isFormula c=true := by simpa [startsFormula] using hformula
      simp only [isFormula,List.mem_cons,List.not_mem_nil,or_false,decide_eq_true_eq] at hformula hplain
      have hctab : c= '\t' := by grind
      rw [htab hctab] at hfilled
      cases hfilled

/-- A password whose second line opens a row with a formula. -/
theorem formula_opens_row : ¬∀ items : List VaultItem,InjectionSafe items := by
  intro hsafe
  have hfound : ∃ row∈parseCsv (buildExportCsv [sampleLogin ['a','\r','=','c']]),∃ field∈row,
      startsFormula field=true := by decide
  obtain ⟨row,hrow,field,hfield,hstarts⟩ := hfound
  rw [hsafe _ row hrow field hfield] at hstarts
  cases hstarts

end Formulas

end NadSafe.FormulaCells
