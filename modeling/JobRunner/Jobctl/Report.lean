import JobRunner.Jobctl.Api

/-!
# Reports (`jobctl::qbo`)

A QuickBooks report is a tree of rows. `parse_report` flattens it and keeps how deep each
row was; the rows of a section stand between its header and its total.

- `RowKind`, `Row`, `Report`: the flat form.
- `parseRows`, `parseReport`: the flattening.
-/

open Text

namespace JobRunner.Jobctl

/-- `RowKind`. -/
inductive RowKind where
  | sectionHeader
  | data
  | sectionTotal
  | grandTotal
deriving DecidableEq, Repr

/-- `RowKind::as_str`. -/
def RowKind.asStr : RowKind → String
  | .sectionHeader => "section"
  | .data => "data"
  | .sectionTotal => "section_total"
  | .grandTotal => "grand_total"

/-- `Row`, with amounts in `F`. -/
structure Row (F : Type) where
  name : String
  amount : Option F
  depth : Nat
  kind : RowKind
  entityId : Option String

/-- `Report`. -/
structure Report (F : Type) where
  rows : List (Row F)
  total : Option F
  startPeriod : Option String
  endPeriod : Option String
  currency : Option String

/-- `list`. -/
def list : Json → List Json
  | .arr items => items
  | .null => []
  | other => [other]

theorem sizeOf_list_le {value row : Json} (h : row ∈ list value) : sizeOf row ≤ sizeOf value := by
  unfold list at h
  split at h
  next items =>
    have hmem : sizeOf row < sizeOf items := List.sizeOf_lt_of_mem h
    rw [Json.arr.sizeOf_spec]
    omega
  · cases h
  · rw [List.mem_singleton.mp h]

variable (P : Platform)

/-- `named_amount`: name, amount and entity id from the first two `ColData` cells. -/
def namedAmount (holder : Json) : Option (String × Option P.F64 × Option String) :=
  match list (holder.index "ColData") with
  | [] => none
  | first :: rest =>
    (text P (first.index "value")).map fun name =>
      (trim name, rest.head?.bind fun col => number P (col.index "value"),
        text P (first.index "id"))

/-- `push` of `parse_rows`. -/
def pushRow (holder : Json) (depth : Nat) (kind : RowKind) : List (Row P.F64) :=
  match namedAmount P holder with
  | some (name, amount, entityId) =>
    [⟨name, amount, depth, kind, if kind = .data then entityId else none⟩]
  | none => []

/-- The rows that `parse_rows` pushes for a member that may be missing. -/
def pushMember (row : Json) (key : String) (depth : Nat) (kind : RowKind) : List (Row P.F64) :=
  match row.get? key with
  | some holder => pushRow P holder depth kind
  | none => []

/-- `parse_rows`. -/
def parseRows (value : Json) (depth : Nat) : List (Row P.F64) :=
  (list value).attach.flatMap fun ⟨row, _⟩ =>
    if row.isObject = false then []
    else if (row.index "group").asStr = some "GrandTotal" then
      pushRow P (row.index "Summary") depth .grandTotal
    else
      pushMember P row "Header" depth .sectionHeader ++
      -- only a header puts the rows below it one level deeper
      (match hrows : (row.index "Rows").get? "Row" with
        | some rows => parseRows rows (if (row.get? "Header").isSome then depth + 1 else depth)
        | none => if (row.get? "ColData").isSome then pushRow P row depth .data else []) ++
      pushMember P row "Summary" depth .sectionTotal
termination_by sizeOf value
decreasing_by
  have hinner := Json.sizeOf_get?_lt hrows
  have houter := Json.sizeOf_index_le row "Rows"
  have hlist := sizeOf_list_le ‹row ∈ list value›
  omega

/-- The rows of one element of a list of rows. -/
def parseRow (depth : Nat) (row : Json) : List (Row P.F64) :=
  if row.isObject = false then []
  else if (row.index "group").asStr = some "GrandTotal" then
    pushRow P (row.index "Summary") depth .grandTotal
  else
    pushMember P row "Header" depth .sectionHeader ++
    (match (row.index "Rows").get? "Row" with
      | some rows => parseRows P rows (if (row.get? "Header").isSome then depth + 1 else depth)
      | none => if (row.get? "ColData").isSome then pushRow P row depth .data else []) ++
    pushMember P row "Summary" depth .sectionTotal

/-- The rows of a list are those of its elements, in order. `null` has none, and any
other value that is no list counts as one element. -/
theorem parseRows_eq (value : Json) (depth : Nat) :
    parseRows P value depth = (list value).flatMap (parseRow P depth) := by
  rw [parseRows]
  conv_rhs => rw [← List.attach_map_subtype_val (list value), List.flatMap_map]
  refine List.flatMap_congr ?_
  rintro ⟨row, hrow⟩ -
  dsimp only [parseRow]
  congr 4
  split <;> rename_i hrows <;> simp only [hrows]

/-- `parse_report`. -/
def parseReport (payload : Json) : Report P.F64 :=
  let header := payload.index "Header"
  let rows := parseRows P ((payload.index "Rows").index "Row") 0
  { rows := rows
    total := (rows.reverse.find? fun r => r.kind = .grandTotal).bind Row.amount
    startPeriod := text P (header.index "StartPeriod")
    endPeriod := text P (header.index "EndPeriod")
    currency := text P (header.index "Currency") }

end JobRunner.Jobctl
