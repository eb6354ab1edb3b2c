import JobRunner.Jobctl.Report
import JobRunner.Lib.Outline

/-!
# The tree behind a report (`jobctl::qbo`)

`parse_rows` goes down the rows of a report and writes down the named ones. Read as an
outline they still show which of them stand under which header.

- `readOutline`: the named rows of a report, as an outline.
- `flatten_readOutline`: written down, it is what `parse_rows` gives.
- `shaped_readOutline`: each kind of row has its place in it.
-/

open Text

namespace JobRunner.Jobctl

/-- The rows below a row are a smaller document. -/
theorem sizeOf_rows_lt {value row rows : Json} (hrow : row ∈ list value)
    (hrows : (row.index "Rows").get? "Row" = some rows) : sizeOf rows < sizeOf value := by
  have hinner := Json.sizeOf_get?_lt hrows
  have houter := Json.sizeOf_index_le row "Rows"
  have hlist := sizeOf_list_le hrow
  omega

variable (P : Platform)

/-- The named rows of a list of rows, with what is below them. -/
def readOutline (value : Json) (depth : Nat) : Outline (Row P.F64) :=
  (list value).attach.foldr (fun ⟨row, _⟩ rest =>
    if row.isObject = false then rest
    else if (row.index "group").asStr = some "GrandTotal" then
      .leaves (pushRow P (row.index "Summary") depth .grandTotal) rest
    else
      .block (pushMember P row "Header" depth .sectionHeader).head?
        (match hrows : (row.index "Rows").get? "Row" with
          | some rows => readOutline rows (if (row.get? "Header").isSome then depth + 1 else depth)
          | none =>
            if (row.get? "ColData").isSome then .leaves (pushRow P row depth .data) .nil
            else .nil)
        (pushMember P row "Summary" depth .sectionTotal).head? rest) .nil
termination_by sizeOf value
decreasing_by exact sizeOf_rows_lt ‹row ∈ list value› hrows

/-- A row before the rest of its list. -/
def readRow (depth : Nat) (row : Json) (rest : Outline (Row P.F64)) : Outline (Row P.F64) :=
  if row.isObject = false then rest
  else if (row.index "group").asStr = some "GrandTotal" then
    .leaves (pushRow P (row.index "Summary") depth .grandTotal) rest
  else
    .block (pushMember P row "Header" depth .sectionHeader).head?
      (match (row.index "Rows").get? "Row" with
        | some rows => readOutline P rows (if (row.get? "Header").isSome then depth + 1 else depth)
        | none =>
          if (row.get? "ColData").isSome then .leaves (pushRow P row depth .data) .nil
          else .nil)
      (pushMember P row "Summary" depth .sectionTotal).head? rest

theorem readOutline_eq (value : Json) (depth : Nat) :
    readOutline P value depth = (list value).foldr (readRow P depth) .nil := by
  rw [readOutline]
  conv_rhs => rw [← List.attach_map_subtype_val (list value), List.foldr_map]
  congr 1
  funext ⟨row, hrow⟩ rest
  dsimp only [readRow]
  congr 3
  split <;> rename_i hrows <;> simp only [hrows]

/-! ## Written down -/

variable {P}

theorem of_mem_pushRow {holder : Json} {depth : Nat} {kind : RowKind} {r : Row P.F64}
    (h : r ∈ pushRow P holder depth kind) : r.kind = kind := by
  unfold pushRow at h
  split at h
  · rw [List.mem_singleton.mp h]
  · exact absurd h List.not_mem_nil

theorem of_mem_pushMember {row : Json} {key : String} {depth : Nat} {kind : RowKind}
    {r : Row P.F64} (h : r ∈ pushMember P row key depth kind) : r.kind = kind := by
  unfold pushMember at h
  split at h
  · exact of_mem_pushRow h
  · exact absurd h List.not_mem_nil

/-- A member is one row or none. -/
theorem toList_head?_pushMember (row : Json) (key : String) (depth : Nat) (kind : RowKind) :
    (pushMember P row key depth kind).head?.toList = pushMember P row key depth kind := by
  unfold pushMember pushRow
  split
  · split <;> rfl
  · rfl

theorem sizeOf_below_lt {row below : Json} (rows : List Json)
    (hbelow : (row.index "Rows").get? "Row" = some below) :
    sizeOf (list below) < sizeOf (row :: rows) := by
  have hinner := Json.sizeOf_get?_lt hbelow
  have houter := Json.sizeOf_index_le row "Rows"
  have hlist : sizeOf (list below) ≤ sizeOf below + 2 := by
    cases below <;> simp [list] <;> omega
  have hrows : 0 < sizeOf rows := by
    cases rows with
    | nil => exact Nat.one_pos
    | cons row rows => exact Nat.add_pos_left (Nat.add_pos_left Nat.one_pos _) _
  rw [List.cons.sizeOf_spec]
  omega

/-- Induction on the rows of a report, row by row and down to the rows below each.
This is the recursion of `parse_rows`, with the document that gets smaller left out. -/
theorem rows_induction {motive : List Json → Prop} (nil : motive [])
    (cons : ∀ row rows,
      (∀ below, (row.index "Rows").get? "Row" = some below → motive (list below)) →
        motive rows → motive (row :: rows)) :
    ∀ rows, motive rows
  | [] => nil
  | row :: rows =>
    cons row rows
      (fun below hbelow =>
        have _ := sizeOf_below_lt rows hbelow
        rows_induction nil cons (list below))
      (rows_induction nil cons rows)
termination_by rows => sizeOf rows

/-- **The outline is the report**: written down, its rows are those that
`parse_rows` gives. What is proved of outlines so holds of the code's list of rows. -/
theorem flatten_readOutline (value : Json) (depth : Nat) :
    (readOutline P value depth).flatten = parseRows P value depth := by
  rw [readOutline_eq, parseRows_eq]
  generalize list value = rows
  induction rows using rows_induction generalizing depth with
  | nil => rfl
  | cons row rows ihBelow ihRows =>
    rw [List.foldr_cons, List.flatMap_cons, ← ihRows]
    unfold readRow parseRow
    split
    · rfl
    split
    · exact Outline.flatten_leaves _ _
    · rw [Outline.flatten, toList_head?_pushMember, toList_head?_pushMember]
      congr 3
      cases hbelow : (row.index "Rows").get? "Row" with
      | some below =>
        dsimp only
        rw [readOutline_eq, parseRows_eq]
        exact ihBelow below hbelow _
      | none =>
        dsimp only
        split
        · rw [Outline.flatten_leaves, Outline.flatten, List.append_nil]
        · rfl

/-- The kinds of the rows of a report. -/
abbrev ReportShaped (o : Outline (Row P.F64)) : Prop :=
  o.Shaped (fun r => r.kind = .sectionHeader) (fun r => r.kind = .data ∨ r.kind = .grandTotal)
    fun r => r.kind = .sectionTotal

/-- **Each kind of row has its place**: headers and totals are those of the blocks, and the
other rows are data or the grand total. -/
theorem shaped_readOutline (value : Json) (depth : Nat) :
    ReportShaped (readOutline P value depth) := by
  rw [readOutline_eq]
  generalize list value = rows
  induction rows using rows_induction generalizing depth with
  | nil => trivial
  | cons row rows ihBelow ihRows =>
    rw [List.foldr_cons]
    unfold readRow
    split
    · exact ihRows depth
    split
    · exact Outline.shaped_leaves (fun r hr => .inr (of_mem_pushRow hr)) (ihRows depth)
    · refine ⟨fun r hr => of_mem_pushMember (List.mem_of_head? hr), ?_,
        fun r hr => of_mem_pushMember (List.mem_of_head? hr), ihRows depth⟩
      cases hbelow : (row.index "Rows").get? "Row" with
      | some below =>
        dsimp only
        rw [readOutline_eq]
        exact ihBelow below hbelow _
      | none =>
        dsimp only
        split
        · exact Outline.shaped_leaves (fun r hr => .inl (of_mem_pushRow hr)) trivial
        · trivial

/-! ## The report -/

/-- The rows of a report, as an outline. -/
def reportOutline (P : Platform) (payload : Json) : Outline (Row P.F64) :=
  readOutline P ((payload.index "Rows").index "Row") 0

theorem parseReport_rows (payload : Json) :
    (parseReport P payload).rows = (reportOutline P payload).flatten :=
  (flatten_readOutline _ _).symm

/-! ## A report -/

/-- A row of a report, or a header or a total. -/
def reportCells (name : String) (amount : Option Int) : Json :=
  .obj [("ColData",
    .arr [.obj [("value", .str name)], .obj [("value", amount.elim .null .int)]])]

/-- Acme with its branch in the east, which was sold 50; Acme itself was sold `own`, and
that is the amount of its header. -/
def acmeRow (own : Option Int) : Json :=
  .obj [("Header", reportCells "Acme" own),
    ("Rows", .obj [("Row", .arr [reportCells "East" (some 50)])]),
    ("Summary", reportCells "Total Acme" (some (own.getD 0 + 50)))]

/-- A report with one top-level row besides the grand total. -/
def reportOf (row : Json) (grandTotal : Int) : Json :=
  .obj [("Rows", .obj [("Row", .arr [row,
    .obj [("group", .str "GrandTotal"), ("Summary", reportCells "TOTAL" (some grandTotal))]])])]

/-- Acme's sales. -/
def acmeSales (own : Option Int) : Json := reportOf (acmeRow own) (own.getD 0 + 50)

theorem reportOutline_reportOf (row : Json) (grandTotal : Int) :
    reportOutline wholePlatform (reportOf row grandTotal) =
      readRow wholePlatform 0 row
        (.leaf ⟨"TOTAL", some grandTotal, 0, .grandTotal, none⟩ .nil) := by
  have hgrand : trim "TOTAL" = "TOTAL" := by decide +kernel
  have hread : readRow wholePlatform 0 (.obj [("group", .str "GrandTotal"),
      ("Summary", reportCells "TOTAL" (some grandTotal))]) .nil =
      .leaf ⟨"TOTAL", some grandTotal, 0, .grandTotal, none⟩ .nil := by
    simp [readRow, reportCells, list, pushRow, namedAmount, text, number, wholePlatform,
      Json.index, Json.get?, Json.members, Json.isObject, Json.asStr, Outline.leaves, hgrand]
  rw [← hread]
  unfold reportOutline
  simp [reportOf, readOutline_eq, list, Json.index, Json.get?, Json.members]

/-- Acme's rows, at any depth. -/
theorem readRow_acmeRow (own : Option Int) (depth : Nat) (rest : Outline (Row wholePlatform.F64)) :
    readRow wholePlatform depth (acmeRow own) rest =
      .block (some ⟨"Acme", own, depth, .sectionHeader, none⟩)
        (.block none (.leaf ⟨"East", some (50 : Int), depth + 1, .data, none⟩ .nil) none .nil)
        (some ⟨"Total Acme", some (own.getD 0 + 50 : Int), depth, .sectionTotal, none⟩) rest := by
  have hacme : trim "Acme" = "Acme" := by decide +kernel
  have heast : trim "East" = "East" := by decide +kernel
  have htotal : trim "Total Acme" = "Total Acme" := by decide +kernel
  cases own <;>
    simp [acmeRow, reportCells, readOutline_eq, list, readRow, pushMember, pushRow, namedAmount,
      text, number, wholePlatform, Json.index, Json.get?, Json.members, Json.isObject, Json.asStr,
      Outline.leaves, hacme, heast, htotal]

theorem reportOutline_acmeSales (own : Option Int) :
    reportOutline wholePlatform (acmeSales own) =
      .block (some ⟨"Acme", own, 0, .sectionHeader, none⟩)
        (.block none (.leaf ⟨"East", some (50 : Int), 1, .data, none⟩ .nil) none .nil)
        (some ⟨"Total Acme", some (own.getD 0 + 50 : Int), 0, .sectionTotal, none⟩)
        (.leaf ⟨"TOTAL", some (own.getD 0 + 50 : Int), 0, .grandTotal, none⟩ .nil) := by
  unfold acmeSales
  rw [reportOutline_reportOf, readRow_acmeRow]

end JobRunner.Jobctl
