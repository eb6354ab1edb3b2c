import JobRunner.Lib.Escape

/-!
# Rows as text (`jobctl::sql`)

`format_table` writes a header and one line for each row, with tabs between the fields, as
`mysql --batch` does. Tabs, newlines and backslashes of a cell are escaped, and NULL is
written as that word.

- `escape`, `formatTable`: the code.
- `escape_eq`: the three replacements, one after the other, are one pass over the text.
- `formatTable_reads_back`: lines, fields and cells are found again.
-/

namespace JobRunner.Jobctl.Sql

/-- `str::replace` of a character. -/
def replace (c : Char) (new s : String) : String :=
  String.ofList (s.toList.flatMap fun d => if d = c then new.toList else [d])

/-- `escape`. -/
def escape (value : String) : String :=
  replace '\n' "\\n" (replace '\t' "\\t" (replace '\\' "\\\\" value))

/-- A cell; `None` is NULL. -/
def cellText : Option String → String
  | none => "NULL"
  | some value => escape value

/-- `format_table`. -/
def formatTable (columns : List String) (rows : List (List (Option String))) : String :=
  rows.foldl (fun out row => out.push '\n' ++ "\t".intercalate (row.map cellText))
    ("\t".intercalate (columns.map escape))

/-! ## Reading a table -/

/-- What stands behind the backslash for a character. -/
def code (c : Char) : Option Char :=
  if c = '\\' then some '\\'
  else if c = '\t' then some 't'
  else if c = '\n' then some 'n'
  else none

/-- What a character behind a backslash stands for. -/
def uncode (c : Char) : Char := if c = 't' then '\t' else if c = 'n' then '\n' else c

/-- The characters that are escaped, and what they are escaped to. -/
theorem code_eq_some {c d : Char} (h : code c = some d) :
    c = '\\' ∧ d = '\\' ∨ c = '\t' ∧ d = 't' ∨ c = '\n' ∧ d = 'n' := by
  unfold code at h
  split at h
  next hc =>
    cases h
    exact .inl ⟨hc, rfl⟩
  split at h
  next hc =>
    cases h
    exact .inr (.inl ⟨hc, rfl⟩)
  split at h
  next hc =>
    cases h
    exact .inr (.inr ⟨hc, rfl⟩)
  cases h

theorem uncode_code {c d : Char} (h : code c = some d) : uncode d = c := by
  rcases code_eq_some h with ⟨rfl, rfl⟩ | ⟨rfl, rfl⟩ | ⟨rfl, rfl⟩ <;> rfl

/-- The escapes of `escape`. -/
def escaping : Escaping Char := ⟨'\\', code, uncode, rfl, uncode_code⟩

/-- Undo the escapes of a field. -/
def unescape (field : List Char) : String := String.ofList (escaping.decode field)

/-- The lines of a text. -/
def lines (out : String) : List (List Char) := out.toList.splitOn '\n'

/-- The fields of a line. -/
def fields (line : List Char) : List (List Char) := line.splitOn '\t'

/-! ## Escapes -/

/-- A later replacement finds nothing in what an earlier one has put in. So the
three passes over the text are one pass, and the library's escaping applies. -/
theorem escape_eq (value : String) : (escape value).toList = escaping.encode value.toList := by
  unfold escape replace Escaping.encode
  simp only [String.toList_ofList, List.flatMap_assoc]
  refine List.flatMap_congr fun c _ => ?_
  by_cases hmark : c = '\\'
  · subst hmark
    rfl
  · by_cases htab : c = '\t'
    · subst htab
      rfl
    · by_cases hnewline : c = '\n'
      · subst hnewline
        rfl
      · simp [Escaping.symbol, escaping, code, hmark, htab, hnewline]

/-- Escaping loses nothing: the text is read back, backslashes included. -/
theorem unescape_escape (value : String) : unescape (escape value).toList = value := by
  rw [unescape, escape_eq, Escaping.decode_encode, String.ofList_toList]

/-- No separator is left, so tabs and line ends in a table are those that the table
has put there. -/
theorem not_mem_escape {sep : Char} (hsep : sep = '\t' ∨ sep = '\n') (value : String) :
    sep ∉ (escape value).toList := by
  have hcode : ∀ c, escaping.code c ≠ some sep := by
    intro c hc
    rcases code_eq_some hc with ⟨-, rfl⟩ | ⟨-, rfl⟩ | ⟨-, rfl⟩ <;> revert hsep <;> decide
  rw [escape_eq]
  rcases hsep with rfl | rfl
  · exact Escaping.not_mem_encode rfl (by decide) hcode _
  · exact Escaping.not_mem_encode rfl (by decide) hcode _

theorem not_mem_cellText {sep : Char} (hsep : sep = '\t' ∨ sep = '\n') (cell : Option String) :
    sep ∉ (cellText cell).toList := by
  cases cell with
  | none => rcases hsep with rfl | rfl <;> decide
  | some value => exact not_mem_escape hsep value

/-- A cell is read as its text, or as the word for NULL. -/
theorem unescape_cellText (cell : Option String) :
    unescape (cellText cell).toList = cell.getD "NULL" := by
  cases cell with
  | none => rfl
  | some value => exact unescape_escape value

/-! ## Lines and fields -/

/-- A line, from its fields as they are written. -/
def line (texts : List String) : String := "\t".intercalate texts

theorem fields_line {texts : List String} (hne : texts ≠ [])
    (htabs : ∀ text ∈ texts, '\t' ∉ text.toList) :
    fields (line texts).toList = texts.map String.toList := by
  unfold fields line
  rw [String.toList_intercalate]
  refine List.splitOn_intercalate '\t' (fun l hl => ?_) (by simpa using hne)
  obtain ⟨text, htext, rfl⟩ := List.mem_map.mp hl
  exact htabs text htext

theorem newline_not_mem_line {texts : List String} (h : ∀ text ∈ texts, '\n' ∉ text.toList) :
    '\n' ∉ (line texts).toList := by
  intro hmem
  rw [line, String.toList_intercalate] at hmem
  rcases List.mem_intercalate hmem with hsep | ⟨l, hl, hnewline⟩
  · revert hsep
    decide
  · obtain ⟨text, htext, rfl⟩ := List.mem_map.mp hl
    exact h text htext hnewline

/-- What the header and the rows are written as, field by field. -/
def texts (columns : List String) (rows : List (List (Option String))) : List (List String) :=
  columns.map escape :: rows.map fun row => row.map cellText

theorem not_mem_texts {sep : Char} (hsep : sep = '\t' ∨ sep = '\n') {columns : List String}
    {rows : List (List (Option String))} :
    ∀ row ∈ texts columns rows, ∀ text ∈ row, sep ∉ text.toList := by
  intro row hrow text htext
  rcases List.mem_cons.mp hrow with rfl | hrow
  · obtain ⟨column, -, rfl⟩ := List.mem_map.mp htext
    exact not_mem_escape hsep column
  · obtain ⟨cells, -, rfl⟩ := List.mem_map.mp hrow
    obtain ⟨cell, -, rfl⟩ := List.mem_map.mp htext
    exact not_mem_cellText hsep cell

/-- The table is its lines, with newlines between them. -/
theorem formatTable_eq (columns : List String) (rows : List (List (Option String))) :
    (formatTable columns rows).toList =
      ['\n'].intercalate ((texts columns rows).map fun row => (line row).toList) := by
  show (rows.foldl (fun out row => out.push '\n' ++ line (row.map cellText))
    (line (columns.map escape))).toList = _
  unfold texts
  rw [List.map_cons]
  generalize line (columns.map escape) = header
  -- the loop appends to what it has of the table
  induction rows generalizing header with
  | nil => simp
  | cons row rows ih =>
    rw [List.foldl_cons, ih, String.toList_append, String.toList_push,
      List.intercalate_append_cons, List.map_cons, List.map_cons, List.intercalate_cons_cons]

/-- A line for the header and one for each row: a line end inside a cell has been
escaped, so none is torn. -/
theorem lines_formatTable (columns : List String) (rows : List (List (Option String))) :
    lines (formatTable columns rows) = (texts columns rows).map fun row => (line row).toList := by
  unfold lines
  rw [formatTable_eq]
  refine List.splitOn_intercalate '\n' (fun l hl => ?_) (List.cons_ne_nil _ _)
  obtain ⟨row, hrow, rfl⟩ := List.mem_map.mp hl
  exact newline_not_mem_line (not_mem_texts (.inr rfl) row hrow)

/-- The table as a reader finds it. -/
def readTable (out : String) : List (List String) :=
  (lines out).map fun line => (fields line).map unescape

/-- The cells as text, with the word for NULL. -/
def shown (row : List (Option String)) : List String := row.map (·.getD "NULL")

theorem fields_of_texts {columns : List String} {rows : List (List (Option String))}
    (hcolumns : columns ≠ []) (hrows : ∀ row ∈ rows, row ≠ []) :
    ∀ row ∈ texts columns rows, fields (line row).toList = row.map String.toList := by
  intro row hrow
  refine fields_line ?_ (not_mem_texts (.inl rfl) row hrow)
  rcases List.mem_cons.mp hrow with rfl | hrow
  · simpa using hcolumns
  · obtain ⟨cells, hcells, rfl⟩ := List.mem_map.mp hrow
    simpa using hrows cells hcells

/-- The header and the rows are found again, also where the rows have different
widths. Nothing is assumed of the cells. -/
theorem readTable_formatTable {columns : List String} {rows : List (List (Option String))}
    (hcolumns : columns ≠ []) (hrows : ∀ row ∈ rows, row ≠ []) :
    readTable (formatTable columns rows) = columns :: rows.map shown := by
  have hread : readTable (formatTable columns rows) =
      (texts columns rows).map fun row => row.map fun text => unescape text.toList := by
    unfold readTable
    rw [lines_formatTable, List.map_map]
    refine List.map_congr_left fun row hrow => ?_
    rw [Function.comp_apply, fields_of_texts hcolumns hrows row hrow, List.map_map]
    rfl
  have hcolumn : columns.map (fun column => unescape (escape column).toList) = columns := by
    conv_rhs => rw [← List.map_id columns]
    exact List.map_congr_left fun column _ => unescape_escape column
  rw [hread, texts, List.map_cons, List.map_map, List.map_map]
  refine congrArg₂ List.cons hcolumn (List.map_congr_left fun row _ => ?_)
  rw [Function.comp_apply, List.map_map]
  exact List.map_congr_left fun cell _ => unescape_cellText cell

theorem ne_nil_of_width {columns : List String} {rows : List (List (Option String))}
    (hcolumns : columns ≠ []) (hrows : ∀ row ∈ rows, row.length = columns.length) :
    ∀ row ∈ rows, row ≠ [] := by
  rintro row hrow rfl
  exact hcolumns (List.length_eq_zero_iff.mp (hrows [] hrow).symm)

/-- NULL is written as the word is. -/
theorem cellText_eq (cell : Option String) : cellText cell = escape (cell.getD "NULL") := by
  cases cell with
  | none => decide +kernel
  | some value => rfl

theorem formatTable_congr {columns : List String} {rows rows' : List (List (Option String))}
    (h : rows.map shown = rows'.map shown) :
    formatTable columns rows = formatTable columns rows' := by
  have hrow : ∀ row : List (Option String), row.map cellText = (shown row).map escape := by
    intro row
    rw [shown, List.map_map]
    exact List.map_congr_left fun cell _ => cellText_eq cell
  have htexts : ∀ rows, texts columns rows =
      columns.map escape :: (rows.map shown).map fun row => row.map escape := by
    intro rows
    rw [texts, List.map_map]
    exact congrArg _ (List.map_congr_left fun row _ => hrow row)
  rw [← String.toList_inj, formatTable_eq, formatTable_eq, htexts, htexts, h]

/-- **A table is readable back.** There is a line for the header and for each row, with a field
for each column, and the fields are the names and the cells. Two tables of the same columns
are written alike just when they show the same cells. -/
theorem formatTable_reads_back {columns : List String} {rows : List (List (Option String))}
    (hcolumns : columns ≠ []) (hrows : ∀ row ∈ rows, row.length = columns.length) :
    (lines (formatTable columns rows)).length = rows.length + 1 ∧
    (∀ line ∈ lines (formatTable columns rows), (fields line).length = columns.length) ∧
    readTable (formatTable columns rows) = columns :: rows.map shown ∧
    ∀ rows' : List (List (Option String)), (∀ row ∈ rows', row.length = columns.length) →
      (formatTable columns rows = formatTable columns rows' ↔
        rows.map shown = rows'.map shown) := by
  have hfilled := ne_nil_of_width hcolumns hrows
  refine ⟨?_, fun line hline => ?_, readTable_formatTable hcolumns hfilled, fun rows' hrows' =>
    ⟨fun h => ?_, formatTable_congr⟩⟩
  · rw [lines_formatTable, List.length_map, texts, List.length_cons, List.length_map]
  · rw [lines_formatTable] at hline
    obtain ⟨row, hrow, rfl⟩ := List.mem_map.mp hline
    rw [fields_of_texts hcolumns hfilled row hrow, List.length_map]
    rcases List.mem_cons.mp hrow with rfl | hrow
    · exact List.length_map _
    · obtain ⟨cells, hcells, rfl⟩ := List.mem_map.mp hrow
      rw [List.length_map, hrows cells hcells]
  -- equal texts are read back alike
  · have hread := readTable_formatTable hcolumns hfilled
    rw [h, readTable_formatTable hcolumns (ne_nil_of_width hcolumns hrows')] at hread
    exact (List.cons.inj hread).2.symm

/-- A table with a NULL, and with all that is escaped. -/
theorem deals_read_back :
    readTable (formatTable ["rep", "deals"]
        [[some "Alina", some "1265"], [none, some "a\tb\nc\\"]]) =
      [["rep", "deals"], ["Alina", "1265"], ["NULL", "a\tb\nc\\"]] :=
  (formatTable_reads_back (by decide) (by decide)).2.2.1

example : formatTable ["rep", "deals"] [[some "Alina", some "1265"], [none, some "a\tb\nc\\"]] =
    "rep\tdeals\nAlina\t1265\nNULL\ta\\tb\\nc\\\\" := by decide +kernel

end JobRunner.Jobctl.Sql
