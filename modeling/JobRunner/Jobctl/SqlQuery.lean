import JobRunner.Jobctl.FormatTable
import JobRunner.Lib.Split
import JobRunner.Lib.Text

/-!
# What a statement shows (`sql::query`)

The answer of a statement is written as a table and cut to 100,000 characters. A cut table
says so in a last line, and may end within a row.

- `truncate`, `query`: the code.
- `readCut`: what a reader may rely on.
- `lines_truncate`: the lines of a cut text.
- `query_shows_rows`: the rows that are shown are the first rows of the answer, and no more are
  left out than have to be.
-/

namespace JobRunner.Jobctl.Sql

/-- `MAX_OUTPUT_CHARS`. -/
def maxOutputChars : Nat := 100000

/-- What `truncate` puts behind a cut text. -/
def truncatedNotice : String := "\n... (truncated; add a LIMIT or aggregate)"

/-- `truncate`: `char_indices().nth(max)` is the first character that is too much. -/
def truncate (text : String) (max : Nat) : String :=
  if max < text.length then String.ofList (text.toList.take max) ++ truncatedNotice else text

/-- A row of an answer. A cell that is NULL or cannot be read has no bytes. Where `sql` is
several statements, the answer has the rows of all of them, and the columns may differ. -/
structure ResultRow where
  columns : List String
  cells : List (Option (List UInt8))
  /-- MySQL sends rows only for a result with columns. -/
  columns_ne : columns ≠ []
  width : cells.length = columns.length

/-- The cells as text; `lossy` is `String::from_utf8_lossy`. -/
def ResultRow.texts (lossy : List UInt8 → String) (row : ResultRow) : List (Option String) :=
  row.cells.map (Option.map lossy)

/-- `query`, on the answer to `fetch_all`. -/
def query {ε : Type} (lossy : List UInt8 → String) (answer : Except ε (List ResultRow)) :
    Except ε String :=
  match answer with
  | .error err => .error err
  | .ok [] => .ok "(no rows)"
  | .ok (first :: rows) =>
    .ok (truncate (formatTable first.columns ((first :: rows).map (ResultRow.texts lossy)))
      maxOutputChars)

/-- The table as far as it is shown. Of a text that was cut, the notice and the line before it
do not count. -/
def readCut (max : Nat) (out : String) : List (List String) :=
  if max < out.length then
    (lines out).dropLast.dropLast.map fun line => (fields line).map unescape
  else readTable out

/-! ## Cut texts -/

/-- The line that says so. -/
def noticeLine : List Char := "... (truncated; add a LIMIT or aggregate)".toList

theorem truncatedNotice_toList : truncatedNotice.toList = '\n' :: noticeLine := by
  decide +kernel

theorem lines_notice : noticeLine.splitOn '\n' = [noticeLine] :=
  List.splitOn_eq_singleton (by decide +kernel)

theorem truncate_le {text : String} {max : Nat} (h : text.length ≤ max) :
    truncate text max = text :=
  if_neg (Nat.not_lt.mpr h)

theorem truncate_toList {text : String} {max : Nat} (h : max < text.length) :
    (truncate text max).toList = text.toList.take max ++ '\n' :: noticeLine := by
  rw [truncate, if_pos h, String.toList_append, String.toList_ofList, truncatedNotice_toList]

theorem truncate_length {text : String} {max : Nat} (h : max < text.length) :
    (truncate text max).length = max + truncatedNotice.length := by
  rw [truncate, if_pos h, String.length_append, ← String.length_toList, String.toList_ofList,
    List.length_take, String.length_toList]
  omega

theorem notice_pos : 0 < truncatedNotice.length := by
  decide +kernel

/-- The lines of a cut text: whole lines, a line up to the cut, and the notice. The
cut may fall on a line end, and then that line is empty. -/
theorem lines_truncate {text : String} {max : Nat} (h : max < text.length) :
    ∃ whole cut line rest, lines text = whole ++ line :: rest ∧ cut <+: line ∧
      lines (truncate text max) = whole ++ [cut, noticeLine] ∧
      text.toList.take max = ['\n'].intercalate (whole ++ [cut]) := by
  obtain ⟨whole, cut, line, rest, hcut, htext, hprefix⟩ :=
    Split.splitOn_prefix (c := '\n') (List.take_prefix max text.toList)
  refine ⟨whole, cut, line, rest, htext, hprefix, ?_, ?_⟩
  · rw [lines, truncate_toList h, List.splitOn_append_cons_self, hcut, lines_notice,
      List.append_assoc]
    rfl
  · rw [← hcut, List.intercalate_splitOn]

/-! ## Cut tables -/

section Table

variable {columns : List String} {rows : List (List (Option String))}

/-- The first lines of a table are a table of the first rows. Every row is written
by itself, so what a cut leaves whole can be read as before. -/
theorem formatTable_take (columns : List String) (rows : List (List (Option String))) (k : Nat) :
    (formatTable columns (rows.take k)).toList =
      ['\n'].intercalate ((lines (formatTable columns rows)).take (k + 1)) := by
  rw [formatTable_eq, lines_formatTable, texts, texts, List.map_cons, List.map_cons,
    List.take_succ_cons, List.map_take, List.map_take]

/-- What is shown of a table. Within the limit that is all of it; beyond, the lines
before the cut are the header and the first rows, and the line that is cut is not
read. -/
theorem readCut_truncate (hcolumns : columns ≠ []) (hrows : ∀ row ∈ rows, row ≠ []) (max : Nat) :
    readCut max (truncate (formatTable columns rows) max) <+: columns :: rows.map shown ∧
    ((truncate (formatTable columns rows) max).length ≤ max →
      readCut max (truncate (formatTable columns rows) max) = columns :: rows.map shown) ∧
    (max < (truncate (formatTable columns rows) max).length →
      max ≤ (formatTable columns (rows.take
        (readCut max (truncate (formatTable columns rows) max)).length)).length) := by
  have hread := readTable_formatTable hcolumns hrows
  by_cases hcut : max < (formatTable columns rows).length
  · obtain ⟨whole, cut, line, rest, hlines, hprefix, hcutLines, htake⟩ := lines_truncate hcut
    have hlength := truncate_length hcut
    have hnotice := notice_pos
    have hlong : max < (truncate (formatTable columns rows) max).length := by omega
    have hwhole : readCut max (truncate (formatTable columns rows) max) =
        whole.map fun line => (fields line).map unescape := by
      rw [readCut, if_pos hlong, hcutLines]
      congr 1
      simp
    refine ⟨?_, fun hle => absurd hlong (Nat.not_lt.mpr hle), fun _ => ?_⟩
    · rw [hwhole, ← hread, readTable, hlines, List.map_append]
      exact List.prefix_append _ _
    · -- the cut lies in the line behind those that are shown
      have hnext :
          (lines (formatTable columns rows)).take (whole.length + 1) = whole ++ [line] := by
        rw [hlines, List.take_length_add_append]
        rfl
      have hle := (List.intercalate_prefix ['\n'] whole hprefix).length_le
      rw [← htake, ← hnext, ← formatTable_take, String.length_toList, List.length_take,
        String.length_toList] at hle
      rw [hwhole, List.length_map]
      omega
  · have hsame := truncate_le (Nat.le_of_not_lt hcut)
    have hall : readCut max (formatTable columns rows) = columns :: rows.map shown := by
      rw [readCut, if_neg hcut, hread]
    rw [hsame, hall]
    exact ⟨List.prefix_rfl, fun _ => rfl, fun h => absurd h hcut⟩

/-- A table has more than one line. -/
theorem newline_mem_truncate (columns : List String) (hrows : rows ≠ []) (max : Nat) :
    '\n' ∈ (truncate (formatTable columns rows) max).toList := by
  by_cases hcut : max < (formatTable columns rows).length
  · rw [truncate_toList hcut]
    simp
  · rw [truncate_le (Nat.le_of_not_lt hcut), formatTable_eq, texts]
    obtain ⟨row, rows, rfl⟩ := List.exists_cons_of_ne_nil hrows
    simp [List.intercalate_cons_cons]

end Table

theorem ResultRow.texts_ne (lossy : List UInt8 → String) (row : ResultRow) :
    row.texts lossy ≠ [] := by
  intro hnil
  have hcells : row.cells = [] := by simpa [ResultRow.texts] using hnil
  have hwidth := row.width
  rw [hcells] at hwidth
  exact row.columns_ne (List.length_eq_zero_iff.mp hwidth.symm)

/-- **What a statement shows.** Whatever rows it answers with:

- the text is `(no rows)` exactly when there are none;
- otherwise it is at most the notice longer than the limit, and the lines that count are the
  header of the first row and the first rows, whatever columns the later rows have;
- within the limit these are all rows; beyond it, one row more would reach the limit. -/
theorem query_shows_rows {ε : Type} (lossy : List UInt8 → String) (rows : List ResultRow) :
    ∃ text, query lossy (.ok rows : Except ε (List ResultRow)) = .ok text ∧
      (text = "(no rows)" ↔ rows = []) ∧
      ∀ first, rows.head? = some first →
        text.length ≤ maxOutputChars + truncatedNotice.length ∧
        readCut maxOutputChars text <+:
          first.columns :: rows.map (fun row => shown (row.texts lossy)) ∧
        (text.length ≤ maxOutputChars → readCut maxOutputChars text =
          first.columns :: rows.map fun row => shown (row.texts lossy)) ∧
        (maxOutputChars < text.length → maxOutputChars ≤ (formatTable first.columns
          ((rows.take (readCut maxOutputChars text).length).map
            (ResultRow.texts lossy))).length) := by
  cases rows with
  | nil => exact ⟨_, rfl, iff_of_true rfl rfl, by rintro _ ⟨⟩⟩
  | cons first rest =>
    refine ⟨_, rfl, ?_, ?_⟩
    · refine iff_of_false (fun h => ?_) (List.cons_ne_nil _ _)
      have hmem := newline_mem_truncate first.columns
        (List.cons_ne_nil (first.texts lossy) (rest.map (ResultRow.texts lossy))) maxOutputChars
      rw [← List.map_cons, h] at hmem
      revert hmem
      decide
    · rintro _ ⟨⟩
      have hfilled : ∀ row ∈ (first :: rest).map (ResultRow.texts lossy), row ≠ [] := by
        intro row hrow
        obtain ⟨row', -, rfl⟩ := List.mem_map.mp hrow
        exact row'.texts_ne lossy
      have hshown := readCut_truncate first.columns_ne hfilled maxOutputChars
      rw [List.map_map, ← List.map_take] at hshown
      refine ⟨?_, hshown⟩
      by_cases hcut : maxOutputChars <
          (formatTable first.columns ((first :: rest).map (ResultRow.texts lossy))).length
      · rw [truncate_length hcut]
      · rw [truncate_le (Nat.le_of_not_lt hcut)]
        omega

/-- `String::from_utf8_lossy`, for ASCII. -/
def asciiText (bytes : List UInt8) : String :=
  String.ofList (bytes.map fun b => Char.ofNat b.toNat)

/-- A row with a NULL, and one with a newline. -/
def shortRows : List ResultRow :=
  [⟨["id", "note"], [some (Text.utf8 "1"), none], by decide, rfl⟩,
    ⟨["id", "note"], [some (Text.utf8 "2"), some (Text.utf8 "two\nlines")], by decide, rfl⟩]

/-- The rows of two statements; those of the second have one column, and one of them a note of
`n` letters. -/
def noteRows (n : Nat) : List ResultRow :=
  shortRows ++ [⟨["text"], [some (List.replicate n 97)], by decide, rfl⟩,
    ⟨["text"], [some (Text.utf8 "4")], by decide, rfl⟩]

/-- Letters are written as they are. -/
theorem escape_replicate (n : Nat) :
    (escape (asciiText (List.replicate n 97))).toList = List.replicate n 'a' := by
  have hsymbol : escaping.symbol 'a' = ['a'] := by decide
  have htext : (asciiText (List.replicate n 97)).toList = List.replicate n 'a' := by
    rw [asciiText, String.toList_ofList, List.map_replicate]
    rfl
  rw [escape_eq, htext, Escaping.encode, List.flatMap_replicate, hsymbol,
    List.flatten_replicate_singleton]

theorem noteRows_long (n : Nat) :
    n < (formatTable ["id", "note"] ((noteRows n).map (ResultRow.texts asciiText))).length := by
  have hnote : ("\t".intercalate [escape (asciiText (List.replicate n 97))]).length = n := by
    rw [String.intercalate_singleton, ← String.length_toList, escape_replicate,
      List.length_replicate]
  simp only [formatTable, noteRows, shortRows, ResultRow.texts, List.cons_append, List.nil_append,
    List.map_cons, List.map_nil, Option.map_some, Option.map_none, cellText, List.foldl_cons,
    List.foldl_nil, String.length_append, String.length_push, hnote]
  omega

/-- The long note is cut, and the rows before it are shown whole. -/
theorem long_note_cut : ∃ text,
    query asciiText (.ok (noteRows 100000) : Except Unit (List ResultRow)) = .ok text ∧
      text ≠ "(no rows)" ∧ maxOutputChars < text.length ∧
      text.length ≤ maxOutputChars + truncatedNotice.length ∧
      [["id", "note"], ["1", "NULL"], ["2", "two\nlines"]] <+: readCut maxOutputChars text := by
  generalize hn : 100000 = n
  have hmax : maxOutputChars = n := hn
  obtain ⟨text, htext, hnone, hshown⟩ := query_shows_rows (ε := Unit) asciiText (noteRows n)
  obtain ⟨hlength, hprefix, -, hleast⟩ := hshown _ rfl
  have hcut : maxOutputChars < text.length := by
    obtain rfl : truncate (formatTable ["id", "note"]
      ((noteRows n).map (ResultRow.texts asciiText))) maxOutputChars = text := Except.ok.inj htext
    rw [truncate_length (hmax ▸ noteRows_long n)]
    have hnotice := notice_pos
    omega
  have htake : ∀ k < 3, (noteRows n).take k = shortRows.take k := fun k hk =>
    List.take_append_of_le_length (Nat.le_of_lt_succ hk)
  -- with fewer lines than three, one row more would stay below the limit
  have hshort : ∀ k < 3, (formatTable ["id", "note"]
      ((shortRows.take k).map (ResultRow.texts asciiText))).length < maxOutputChars := by
    decide +kernel
  have hthree : 3 ≤ (readCut maxOutputChars text).length := by
    by_contra hfew
    have hle := hleast hcut
    rw [htake _ (Nat.lt_of_not_le hfew)] at hle
    exact absurd (hshort _ (Nat.lt_of_not_le hfew)) (Nat.not_lt.mpr hle)
  have hrows : shortRows.map (fun row => shown (row.texts asciiText)) =
      [["1", "NULL"], ["2", "two\nlines"]] := by decide +kernel
  have hfirst : ["id", "note"] :: shortRows.map (fun row => shown (row.texts asciiText)) <+:
      ["id", "note"] :: (noteRows n).map (fun row => shown (row.texts asciiText)) := by
    rw [List.prefix_cons_inj, noteRows, List.map_append]
    exact List.prefix_append _ _
  rw [hrows] at hfirst
  exact ⟨text, htext, fun h => List.cons_ne_nil _ _ (hnone.mp h), hcut, hlength,
    List.prefix_of_prefix_length_le hfirst hprefix hthree⟩

end JobRunner.Jobctl.Sql
