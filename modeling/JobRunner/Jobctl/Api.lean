import JobRunner.Jobctl.Session

/-!
# The QuickBooks API as the tools use it (`jobctl::qbo`)

A tool is a `Dialogue`: its questions are the `GET` requests of `Session::get`, their
answers what came back of each. The QuickBooks queries keep their texts, and their
parameters besides.

- `Platform`: floating point, Unicode and `serde_json`, as far as the tools rely on them.
- `Query`, `Request`: the requests.
- `readAnswer`, `get`: `Session::get`.
- `text`, `number`, `entities`: what the tools read from a document.
- `optionalStr`, `requiredDate`, …: what they read from their arguments.
-/

open Text Decimal

namespace JobRunner.Jobctl

/-- `f64`, `str::to_lowercase` and the printing of `serde_json`. -/
structure Platform where
  F64 : Type
  zero : F64
  add : F64 → F64 → F64
  /-- `amount == 0.0`. -/
  isZero : F64 → Bool
  /-- `f64::total_cmp`, which is a total order. -/
  totalCmp : F64 → F64 → Ordering
  totalCmp_trans : Std.TransCmp totalCmp
  /-- `Number::as_f64`. -/
  asF64 : Json → Option F64
  /-- `str::parse::<f64>`, if the result is finite. -/
  parseF64 : String → Option F64
  /-- `json!` of a number. -/
  ofF64 : F64 → Json
  /-- `Value::to_string`. -/
  display : Json → String
  toLowercase : String → String
  /-- `slice::sort_by`; where the comparison is no total preorder, it may panic. -/
  sortBy {α : Type} : (α → α → Ordering) → List α → List α

/-- What the tools rely on. -/
structure Platform.Lawful (P : Platform) : Prop where
  /-- Lower case is the same for texts that differ in the case of ASCII letters only. -/
  toLowercase_eq {s t : String} : eqIgnoreAsciiCase s t = true → P.toLowercase s = P.toLowercase t
  toLowercase_empty : P.toLowercase "" = ""

/-! ## Requests -/

/-- `escape`: a quote of a string literal is doubled. -/
def escape (value : String) : String :=
  String.ofList (value.toList.flatMap fun c => if c.toNat = 39 then [c, c] else [c])

/-- `PAGE_SIZE`. -/
def pageSize : Nat := 1000

/-- `MAX_PAGES`. -/
def maxPages : Nat := 10

/-- The QuickBooks queries. -/
inductive Query where
  | customersByName (name : String)
  | customersByEmail (email : String)
  | invoicesForCustomer (qboCustomerId : String)
  | invoicesBetween (start stop : String) (position : Nat)
  | classes
  /-- The argument of the `query` tool. -/
  | raw (query : String)
deriving DecidableEq, Repr

/-- The query as it is sent. -/
def Query.text : Query → String
  | customersByName name =>
    "select Id, DisplayName, PrimaryEmailAddr from Customer where DisplayName like '%" ++
      escape name ++ "%' maxresults 25"
  | customersByEmail email =>
    "select * from Customer WHERE PrimaryEmailAddr = '" ++ escape email ++ "'"
  | invoicesForCustomer qboCustomerId =>
    "select Id, DocNumber, TxnDate, DueDate, TotalAmt, Balance, CurrencyRef, ShipAddr, " ++
      "CustomerRef from Invoice where CustomerRef = '" ++ escape qboCustomerId ++
      "' MAXRESULTS 1000"
  | invoicesBetween start stop position =>
    "select Id, DocNumber, TxnDate, DueDate, TotalAmt, Balance, CurrencyRef, " ++
      "CustomerRef from Invoice where TxnDate >= '" ++ start ++ "' and TxnDate <= '" ++ stop ++
      "' ORDERBY TxnDate STARTPOSITION " ++ toString position ++ " MAXRESULTS " ++
      toString pageSize
  | classes => "select * from Class MAXRESULTS 1000"
  | raw query => query

/-- The requests of the tools. -/
inductive Request where
  | query (q : Query)
  | invoice (id : String)
  | classSales (start stop : String)
  | customerSales (start stop : String) (classIds : List String)
  | report (name : String) (params : List (String × String))
deriving DecidableEq, Repr

namespace Request

/-- `path` of `get`. -/
def path : Request → String
  | query _ => "query"
  | invoice id => "invoice/" ++ id
  | classSales _ _ => "reports/ClassSales"
  | customerSales _ _ _ => "reports/CustomerSales"
  | report name _ => "reports/" ++ name

/-- `params` of `get`. -/
def params : Request → List (String × String)
  | query q => [("query", q.text)]
  | invoice _ => []
  | classSales start stop =>
    [("accounting_method", "Accrual"), ("start_date", start), ("end_date", stop)]
  | customerSales start stop classIds =>
    [("accounting_method", "Accrual"), ("summarize_column_by", "Total"), ("start_date", start),
      ("end_date", stop), ("class", ",".intercalate classIds)]
  | report _ params => params

end Request

/-! ## Answers -/

/-- What came back: no response, or one with its status and its body, which is a document
or a text that is none. -/
inductive Answer where
  | failed (err : String)
  | response (code : Nat) (status : String) (body : Except String Json)

/-- `truncate`: at most `max` characters, saying so when it cuts. -/
def truncate (text : String) (max : Nat) : String :=
  if max < text.toList.length then
    String.ofList (text.toList.take max) ++ "\n... (truncated; add a LIMIT or aggregate)"
  else text

/-- A tool of the session. -/
abbrev Asking (α : Type) := Dialogue Request Answer ToolError α

variable (P : Platform)

/-- The part of `Session::get` after the request. -/
def readAnswer (req : Request) : Answer → Except ToolError Json
  | .failed err => .error (.http ("QuickBooks " ++ req.path ++ ": " ++ err))
  | .response code status body =>
    if code = 401 then
      .error (.http ("QuickBooks rejected the access token; ask the user to try again, and an " ++
        "admin to reconnect QuickBooks if it keeps happening"))
    else
      match body with
      | .error body =>
        .error (.http ("QuickBooks " ++ req.path ++ ": HTTP " ++ status ++ ": " ++
          truncate body 500))
      | .ok payload =>
        match payload.get? "Fault" with
        | some fault => .error (.http ("QuickBooks " ++ req.path ++ ": " ++ P.display fault))
        | none =>
          if 200 ≤ code ∧ code ≤ 299 then .ok payload
          else
            .error (.http ("QuickBooks " ++ req.path ++ ": HTTP " ++ status ++ ": " ++
              P.display payload))

/-- `Session::get`. -/
def get (req : Request) : Asking Json := do
  let answer ← .query req
  .done (readAnswer P req answer)

/-- `Session::run_query`. -/
def runQuery (q : Query) : Asking Json := get P (.query q)

@[simp] theorem eval_get (answers : Request → Answer) (req : Request) :
    (get P req).eval answers = readAnswer P req (answers req) := rfl

/-! ## Documents -/

/-- `text`: a text that is not blank, or a number. -/
def text : Json → Option String
  | .str s => if trim s ≠ "" then some s else none
  | .int n => some (toString n)
  | .dec m e => some (P.display (.dec m e))
  | _ => none

/-- `number`: a number, also from text with thousands separators. -/
def number : Json → Option P.F64
  | .str s => P.parseF64 (String.ofList ((trim s).toList.filter (· ≠ ',')))
  | .int n => P.asF64 (.int n)
  | .dec m e => P.asF64 (.dec m e)
  | _ => none

/-- `json!` of an optional number. -/
def ofNumber : Option P.F64 → Json
  | some x => P.ofF64 x
  | none => .null

/-- `total`. -/
def total (amounts : List P.F64) : P.F64 := amounts.foldl P.add P.zero

/-- `entities`: `QueryResponse[key]` as a list. -/
def entities (payload : Json) (key : String) : List Json :=
  match (payload.index "QueryResponse").index key with
  | .arr items => items
  | .obj members => [.obj members]
  | _ => []

/-! ## Arguments -/

/-- `optional_str`. -/
def optionalStr (args : Json) (name : String) : Option String :=
  (((args.get? name).bind Json.asStr).map trim).filter (· ≠ "")

/-- `required_str`. -/
def requiredStr (args : Json) (name : String) : Except ToolError String :=
  match optionalStr args name with
  | some value => .ok value
  | none => .error (.invalidArgument (name ++ " is required"))

/-- `YYYY-MM-DD`. -/
def isDate (value : String) : Bool :=
  value.toList.length = 10 && value.toList.zipIdx.all fun (c, i) =>
    if i = 4 ∨ i = 7 then c = '-' else c.isDigit

/-- `required_date`. -/
def requiredDate (args : Json) (name : String) : Except ToolError String := do
  let value ← requiredStr args name
  if isDate value then .ok value
  else .error (.invalidArgument (name ++ " must be YYYY-MM-DD"))

/-- `raw` of `optional_entity_id`. -/
def rawEntityId : Json → Option String
  | .null => none
  | .str s => some (trim s)
  | .int n => some (toString n)
  | .dec m e => some (P.display (.dec m e))
  | _ => some ""

/-- `optional_entity_id`. -/
def optionalEntityId (args : Json) (name : String) : Except ToolError (Option String) :=
  match (args.get? name).bind (rawEntityId P) with
  | none => .ok none
  | some raw =>
    if isEntityId raw then .ok (some raw)
    else .error (.invalidArgument (name ++ " must be a numeric QuickBooks id"))

/-- `optional_positive`. -/
def optionalPositive (args : Json) (name : String) : Except ToolError (Option Int) :=
  match args.get? name with
  | none | some .null => .ok none
  | some value =>
    let id := value.asI64.or (value.asStr.bind fun s => parseI64 (trim s))
    match id.filter (0 < ·) with
    | some id => .ok (some id)
    | none => .error (.invalidArgument (name ++ " must be a positive integer"))

theorem trim_of_optionalStr {args : Json} {name value : String}
    (h : optionalStr args name = some value) : trim value = value := by
  obtain ⟨hmap, -⟩ := Option.filter_eq_some_iff.mp h
  obtain ⟨raw, -, rfl⟩ := Option.map_eq_some_iff.mp hmap
  exact trim_trim raw

/-- A date that is accepted is one of the form `YYYY-MM-DD`, so nothing else can
stand between the quotes of a query. -/
theorem requiredDate_ok {args : Json} {name value : String}
    (h : requiredDate args name = .ok value) : isDate value = true := by
  obtain ⟨v, -, hv⟩ := Except.bind_eq_ok.mp h
  split at hv
  · cases hv
    assumption
  · cases hv

/-- A date without whitespace is accepted. -/
theorem requiredDate_of {args : Json} {name value : String} (h : args.get? name = some (.str value))
    (htrim : trim value = value) (hdate : isDate value = true) :
    requiredDate args name = .ok value := by
  have hne : value ≠ "" := by
    rintro rfl
    cases hdate
  have hvalue : optionalStr args name = some value := by
    simp [optionalStr, h, Json.asStr, htrim, hne]
  simp only [requiredDate, requiredStr, hvalue, Except.bind_ok, hdate, if_true]

/-- An id that is accepted consists of digits, so it may stand in a path or a query
as it is. -/
theorem optionalEntityId_ok {args : Json} {name id : String}
    (h : optionalEntityId P args name = .ok (some id)) : isEntityId id = true := by
  unfold optionalEntityId at h
  split at h
  · cases h
  · split at h
    · cases h
      assumption
    · cases h

/-! ## Whole numbers, for concrete runs -/

/-- The answer of a service that succeeds. -/
def Answer.success (payload : Json) : Answer := .response 200 "200 OK" (.ok payload)

theorem readAnswer_success (req : Request) {payload : Json} (h : payload.get? "Fault" = none) :
    readAnswer P req (.success payload) = .ok payload := by
  simp [readAnswer, Answer.success, h]

/-- The answer to a query. -/
def Answer.queried (key : String) (items : List Json) : Answer :=
  .success (.obj [("QueryResponse", .obj [(key, .arr items)])])

/-- A query that succeeds is read back: an answer of this form has no fault, so it
is handed on as it came. -/
theorem readAnswer_queried (req : Request) (key : String) (items : List Json) :
    ∃ payload, readAnswer P req (.queried key items) = .ok payload ∧
      entities payload key = items := by
  refine ⟨_, readAnswer_success P req (by simp [Json.get?, Json.members]), ?_⟩
  simp [entities, Json.index, Json.get?, Json.members]

/-- Amounts without a fraction, and ASCII letters. -/
def wholePlatform : Platform where
  F64 := Int
  zero := 0
  add := (· + ·)
  isZero n := n = 0
  totalCmp m n := compare m n
  totalCmp_trans := inferInstanceAs (Std.TransCmp fun m n : Int => compare m n)
  asF64
    | .int n => some n
    | _ => none
  parseF64 := parseI64
  ofF64 := .int
  display
    | .int n => toString n
    | _ => ""
  toLowercase s := String.ofList (s.toList.map Char.toLower)
  sortBy cmp items := items.mergeSort fun a b => cmp a b != .gt

theorem wholePlatform_lawful : wholePlatform.Lawful where
  toLowercase_eq h := congrArg String.ofList (of_decide_eq_true h)
  toLowercase_empty := rfl

end JobRunner.Jobctl
