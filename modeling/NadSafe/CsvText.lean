import NadSafe.HostText

/-!
# CSV text of the web client

`csvEscape` writes one cell: a guard against spreadsheet formulas, then
quotes where the cell holds a comma, a quote or a line feed. `parseCsv` is a
scanner over the whole text with one quote flag. The lemmas say what the
scanner does with one written cell in front of any further text.
-/

namespace NadSafe.CsvText

open HostText

/-- The first characters that spreadsheets take for a formula. -/
def isFormula (c : Char) : Bool := c∈['=','+','-','@','\t','\r']

/-- `CSV_FORMULA_GUARD`: quotes, then a formula character. -/
def formulaGuard : Text → Bool
  | [] => false
  | c::s => if c= '\'' then formulaGuard s else isFormula c

/-- `unescapeFormulaGuard`: one quote is taken off a guarded value. -/
def unescapeFormulaGuard : Text → Text
  | '\''::s => if formulaGuard s=true then s else '\''::s
  | s => s

/-- `val.replace(/"/g, '""')`. -/
def doubleQuotes (s : Text) : Text := s.flatMap fun c => if c= '"' then ['"','"'] else [c]

/-- The guarded value of `csvEscape`. -/
def guarded (val : Text) : Text := if formulaGuard val=true then '\''::val else val

/-- A cell that `csvEscape` quotes. -/
def needsQuotes (val : Text) : Bool := val.any fun c => c== ',' || c== '"' || c== '\n'

/-- `csvEscape`. -/
def csvEscape (val : Text) : Text :=
  if needsQuotes (guarded val)=true then '"'::doubleQuotes (guarded val)++['"'] else guarded val

/-- The loop of `parseCsv`: the rest of the text, whether an extra `i++` skips
its first character, the quote flag, the row and the field so far. -/
def scan : Text → Bool → Bool → List Text → Text → List (List Text)
  | [],_,_,row,field => if field≠[] ∨ row≠[] then [row++[field]] else []
  | c::rest,skip,inQuotes,row,field =>
    if skip=true then scan rest false inQuotes row field
    else if c= '"' then
      if inQuotes=true ∧ rest.head?=some '"' then scan rest true inQuotes row (field++['"'])
      else scan rest false (!inQuotes) row field
    else if c= ',' ∧ inQuotes=false then scan rest false inQuotes (row++[field]) []
    else if (c= '\n' ∨ c= '\r') ∧ inQuotes=false then
      (row++[field])::scan rest (c== '\r' && rest.head?==some '\n') inQuotes [] []
    else scan rest false inQuotes row (field++[c])

-- The equations of the loop are made here once, not by each of the lemmas below that unfolds it.
attribute [local grind =] scan

/-- `String.trim`. -/
def trim (s : Text) : Text :=
  ((s.dropWhile jsWhitespace).reverse.dropWhile jsWhitespace).reverse

/-- A row with something else than white space. -/
def filled (row : List Text) : Bool := row.any fun field => trim field≠[]

/-- `parseCsv`. -/
def parseCsv (content : Text) : List (List Text) := (scan content false false [] []).filter filled

/-- A character that means nothing outside quotes. -/
def isPlain (c : Char) : Bool := c≠ '"' && c≠ ',' && c≠ '\n' && c≠ '\r'

section Scanner

variable {row : List Text} {field : Text}

/-- A plain character enters the field. -/
theorem scan_plain {c : Char} (hc : isPlain c=true) (rest : Text) :
    scan (c::rest) false false row field=scan rest false false row (field++[c]) := by
  simp only [isPlain,Bool.and_eq_true,decide_eq_true_eq] at hc
  obtain ⟨⟨⟨hquote,hcomma⟩,hline⟩,hreturn⟩ := hc
  simp [scan,hquote,hcomma,hline,hreturn]

/-- So do all of them. -/
theorem scan_plains {s : Text} (hs : ∀ c∈s,isPlain c=true) (rest : Text) :
    scan (s++rest) false false row field=scan rest false false row (field++s) := by
  induction s generalizing field with
  | nil => simp
  | cons c s ih =>
    rw [List.cons_append,scan_plain (hs c List.mem_cons_self),
      ih fun d hd => hs d (List.mem_cons_of_mem c hd)]
    simp

/-- A comma ends the field. -/
theorem scan_comma (rest : Text) :
    scan (','::rest) false false row field=scan rest false false (row++[field]) [] := by
  simp [scan]

/-- A line feed ends the row. -/
theorem scan_newline (rest : Text) :
    scan ('\n'::rest) false false row field=(row++[field])::scan rest false false [] [] := by
  simp [scan]

/-- A carriage return ends the row, unless it stands in quotes. -/
theorem scan_return {rest : Text} (hrest : rest.head?≠some '\n') :
    scan ('\r'::rest) false false row field=(row++[field])::scan rest false false [] [] := by
  have hskip : (rest.head?==some '\n')=false := by simpa using hrest
  simp [scan,hskip]

/-- The text between quotes enters the field, with its quotes halved. -/
theorem scan_quoted (s : Text) {rest : Text} (hrest : rest.head?≠some '"') :
    scan (doubleQuotes s++ '"'::rest) false true row field=scan rest false false row (field++s) := by
  induction s generalizing field with
  | nil => simp [doubleQuotes,scan,hrest]
  | cons c s ih =>
    have hcons : doubleQuotes (c::s)=(if c= '"' then ['"','"'] else [c])++doubleQuotes s :=
      List.flatMap_cons
    rw [hcons]
    split_ifs with hc
    · subst hc
      have hpair : scan (['"','"']++doubleQuotes s++ '"'::rest) false true row field=
          scan (doubleQuotes s++ '"'::rest) false true row (field++['"']) := by
        simp [scan]
      rw [hpair,ih]
      simp
    · have hchar : scan ([c]++doubleQuotes s++ '"'::rest) false true row field=
          scan (doubleQuotes s++ '"'::rest) false true row (field++[c]) := by
        simp [scan,hc]
      rw [hchar,ih]
      simp

/-- The first field of a row that has one comes out first. -/
theorem scan_first (text : Text) (skip inQuotes : Bool) (first : Text) :
    ∃ fields rows,scan text skip inQuotes (first::row) field=(first::fields)::rows := by
  induction text generalizing skip inQuotes row field with
  | nil => exact ⟨row++[field],[],by simp [scan]⟩
  | cons c text ih =>
    unfold scan
    split_ifs
    · exact ih ..
    · exact ih ..
    · exact ih ..
    · exact ih ..
    · exact ⟨row++[field],_,rfl⟩
    · exact ih ..

end Scanner

/-- The guard comes off again. -/
theorem unescapeFormulaGuard_guarded (val : Text) : unescapeFormulaGuard (guarded val)=val := by
  unfold guarded
  split_ifs with hguard
  · rw [unescapeFormulaGuard,if_pos hguard]
  · unfold unescapeFormulaGuard
    split
    · rename_i s
      have hs : ¬formulaGuard s=true := by simpa [formulaGuard] using hguard
      rw [if_neg hs]
    · rfl

/-- The guard adds no comma, quote mark or line break. -/
theorem mem_guarded {c : Char} (hc : c≠ '\'') (val : Text) : c∈guarded val ↔ c∈val := by
  unfold guarded
  split_ifs
  · simp [hc]
  · rfl

/-- A character of an unescaped value was there before. -/
theorem mem_of_mem_unescape {c : Char} {s : Text} (h : c∈unescapeFormulaGuard s) : c∈s := by
  unfold unescapeFormulaGuard at h
  split at h
  · split_ifs at h
    · exact List.mem_cons_of_mem _ h
    · exact h
  · exact h

theorem needsQuotes_guarded (val : Text) : needsQuotes (guarded val)=needsQuotes val := by
  rw [Bool.eq_iff_iff]
  simp only [needsQuotes,List.any_eq_true,Bool.or_eq_true,beq_iff_eq]
  constructor
  · rintro ⟨c,hmem,hc⟩
    exact ⟨c,(mem_guarded (by rintro rfl; revert hc; decide) val).mp hmem,hc⟩
  · rintro ⟨c,hmem,hc⟩
    exact ⟨c,(mem_guarded (by rintro rfl; revert hc; decide) val).mpr hmem,hc⟩

/-- A value that is written so that it can be read back: a carriage return
stands in it only if a comma, a quote or a line feed makes it quoted. -/
def Escapes (val : Text) : Prop := '\r'∈val → needsQuotes val=true

instance (val : Text) : Decidable (Escapes val) := inferInstanceAs (Decidable (_ → _))

/-- A character of an unquoted cell is plain, or a carriage return. -/
theorem plain_of_unquoted {val : Text} (h : needsQuotes val=false) {c : Char} (hc : c∈val)
    (hreturn : c≠ '\r') : isPlain c=true := by
  have hnot := List.any_eq_false.mp h c hc
  simp only [Bool.or_eq_true,beq_iff_eq,not_or] at hnot
  simp [isPlain,hnot,hreturn]

/-- A written cell is read back as its guarded value. -/
theorem scan_csvEscape {val : Text} (hval : Escapes val) {row : List Text} {rest : Text}
    (hrest : rest.head?≠some '"') :
    scan (csvEscape val++rest) false false row []=scan rest false false row (guarded val) := by
  unfold csvEscape
  rw [needsQuotes_guarded]
  split_ifs with hquotes
  · have hopen : scan ('"'::doubleQuotes (guarded val)++['"']++rest) false false row []=
        scan (doubleQuotes (guarded val)++ '"'::rest) false true row [] := by
      simp [scan]
    rw [hopen,scan_quoted _ hrest,List.nil_append]
  · have hplain : ∀ c∈guarded val,isPlain c=true := by
      intro c hc
      have hq : needsQuotes (guarded val)=false := by simpa [needsQuotes_guarded] using hquotes
      refine plain_of_unquoted hq hc ?_
      rintro rfl
      exact hquotes (hval ((mem_guarded (by decide) val).mp hc))
    rw [scan_plains hplain,List.nil_append]

/-- Trimming leaves nothing of white space only. -/
theorem trim_eq_nil_iff (s : Text) : trim s=[] ↔ ∀ c∈s,jsWhitespace c=true := by
  rw [trim,List.reverse_eq_nil_iff,List.dropWhile_eq_nil_iff]
  constructor
  · intro h c hc
    rw [←List.takeWhile_append_dropWhile (p := jsWhitespace) (l := s),List.mem_append] at hc
    rcases hc with hc|hc
    · exact List.mem_takeWhile_imp hc
    · exact h c (List.mem_reverse.mpr hc)
  · intro h c hc
    exact h c ((List.dropWhile_sublist _).subset (List.mem_reverse.mp hc))

/-- What follows the first character of an unquoted cell is unquoted. -/
theorem needsQuotes_tail {c : Char} {s : Text} (h : needsQuotes (c::s)=false) :
    needsQuotes s=false := by
  rw [needsQuotes,List.any_cons,Bool.or_eq_false_iff] at h
  exact h.2

/-- A carriage return in an unquoted cell ends the row before it. -/
theorem scan_unescaped {s : Text} (hquotes : needsQuotes s=false) (hreturn : '\r'∈s)
    {row : List Text} {field : Text} (hfield : '\r'∉field) (rest : Text) :
    ∃ cut rows,scan (s++rest) false false row field=(row++[cut])::rows ∧ '\r'∉cut := by
  induction s generalizing field with
  | nil => exact absurd hreturn List.not_mem_nil
  | cons c s ih =>
    by_cases hc : c= '\r'
    · subst hc
      exact ⟨field,scan (s++rest) ((s++rest).head?==some '\n') false [] [],by simp [scan],hfield⟩
    · have hplain := plain_of_unquoted hquotes List.mem_cons_self hc
      have hrest : '\r'∈s := (List.mem_cons.mp hreturn).resolve_left fun h => hc h.symm
      rw [List.cons_append,scan_plain hplain]
      refine ih (needsQuotes_tail hquotes) hrest ?_
      rw [List.mem_append,List.mem_singleton]
      exact not_or.mpr ⟨hfield,fun h => hc h.symm⟩

/-- White space around a carriage return leaves something elsewhere. -/
theorem filled_of_blank {s t : Text} (hs : trim s=[]) (hall : trim (s++t)≠[]) : trim t≠[] := by
  intro ht
  rw [trim_eq_nil_iff] at hs ht
  refine hall ((trim_eq_nil_iff _).mpr fun c hc => ?_)
  rcases List.mem_append.mp hc with hc|hc
  · exact hs c hc
  · exact ht c hc

/-- The first row that is kept of an unquoted first cell starts with a piece
of it that holds no carriage return. -/
theorem scan_first_cell {s : Text} (hquotes : needsQuotes s=false) {field : Text}
    (hfield : '\r'∉field) (hfilled : trim (field++s)≠[]) (rest : Text) :
    ∃ first fields rows,(scan (s++ ','::rest) false false [] field).filter filled=
      (first::fields)::rows ∧ '\r'∉first := by
  induction s generalizing field with
  | nil =>
    obtain ⟨fields,rows,hscan⟩ := @scan_first [] [] rest false false field
    refine ⟨field,fields,rows.filter filled,?_,hfield⟩
    have hkept : filled (field::fields)=true := by
      rw [List.append_nil] at hfilled
      simp [filled,hfilled]
    rw [List.nil_append,scan_comma,List.nil_append,hscan,List.filter_cons_of_pos hkept]
  | cons c s ih =>
    by_cases hc : c= '\r'
    · subst hc
      have hnext : (s++ ','::rest).head?≠some '\n' := by
        cases s with
        | nil => simp
        | cons d s =>
          rintro hd
          have hd : d= '\n' := by simpa using hd
          subst hd
          simp [needsQuotes] at hquotes
      rw [List.cons_append,scan_return hnext,List.nil_append]
      by_cases hblank : trim field=[]
      · -- A blank piece is dropped, so the row comes from the rest of the cell.
        have hrest : trim s≠[] := by
          refine filled_of_blank (show trim (field++['\r'])=[] from ?_) (by simpa using hfilled)
          rw [trim_eq_nil_iff] at hblank ⊢
          intro d hd
          rcases List.mem_append.mp hd with hd|hd
          · exact hblank d hd
          · rw [List.mem_singleton.mp hd]
            decide
        rw [List.filter_cons_of_neg (by simp [filled,hblank])]
        exact ih (needsQuotes_tail hquotes) List.not_mem_nil hrest
      · exact ⟨field,[],_,List.filter_cons_of_pos (by simp [filled,hblank]),hfield⟩
    · have hplain := plain_of_unquoted hquotes List.mem_cons_self hc
      rw [List.cons_append,scan_plain hplain]
      refine ih (needsQuotes_tail hquotes) ?_ (by simpa using hfilled)
      rw [List.mem_append,List.mem_singleton]
      exact not_or.mpr ⟨hfield,fun h => hc h.symm⟩

end NadSafe.CsvText
