import JobRunner.Jobctl.Session

/-!
# What `tools/list` shows (`jobctl::qbo::tools`, `jobctl-mcp`)

The tools of a session, as MCP describes them: `sql`, and with a QuickBooks session those
tools of `TOOLS` that its requester may use, each named `qbo_` and its own name.

- `Tool.description`, `Tool.properties`, `Tool.required`: the rest of `ToolSpec`.
- `qboTools`, `tools`: the lists.
- `mem_listedNames_iff`: which names are listed.
-/

open Text

namespace JobRunner

/-! ## The schemas -/

/-- A property of an input schema. -/
def schemaProperty (name type description : String) : String × Json :=
  (name, .obj [("type", .str type), ("description", .str description)])

/-- The description of a tool with the schema of its input. -/
def describeTool (name description : String) (properties : Json) (required : List String) : Json :=
  .obj [
    ("name", .str name),
    ("description", .str description),
    ("inputSchema", .obj [
      ("type", .str "object"),
      ("properties", properties),
      ("required", .arr (required.map .str))])]

/-- `DATE_RANGE`. -/
def dateRange : Json :=
  .obj [
    schemaProperty "start_date" "string" "first day, YYYY-MM-DD",
    schemaProperty "end_date" "string" "last day, YYYY-MM-DD (inclusive)"]

namespace Tool

/-- `ToolSpec::description`. -/
def description : Tool → String
  | searchCustomers =>
    "Find QuickBooks customers whose display name contains `name` (up to 25). " ++
    "Each result lists the CRM customers (`customers.id`) linked to it through " ++
    "`customers.qbo_id`."
  | customerInvoices =>
    "All QuickBooks invoices of one customer, newest first, with number, dates, " ++
    "total, open balance and project address. Pass `customer_id` (a CRM `customers.id`; " ++
    "if it is not linked yet it is matched in QuickBooks by email, then name) or " ++
    "`qbo_customer_id`."
  | invoice =>
    "One QuickBooks invoice in full: line items, amounts, taxes, balance, due " ++
    "date, addresses, memo, email status and linked payments."
  | salesRep =>
    "A sales rep's QuickBooks sales for a date range, the way the app's sales " ++
    "goal widget computes them: the ClassSales amount of the classes named after the rep, " ++
    "and the customers (with their invoices) behind it. `rep_name` defaults to the " ++
    "asking user; only admins may name another rep."
  | invoicesInRange =>
    "Every invoice dated within a range (oldest first) with customer, total and " ++
    "open balance, plus the count and sums. Admins only."
  | classSales =>
    "The QuickBooks Sales by Class report (sales per sales rep class) for a " ++
    "date range, without zero rows. Admins only."
  | query =>
    "Run a read-only QuickBooks query-language statement and return the raw " ++
    "QueryResponse, e.g. `select * from Invoice where Balance > '0' ORDERBY DueDate " ++
    "MAXRESULTS 100`, `select * from Payment where TxnDate >= '2026-01-01'`, `select " ++
    "count(*) from Invoice`. Entities: Invoice, Payment, Customer, Estimate, SalesReceipt, " ++
    "CreditMemo, Item, Class, Bill, Vendor, ... Admins only."
  | report =>
    "Fetch any QuickBooks report as raw JSON, e.g. ProfitAndLoss, BalanceSheet, " ++
    "AgedReceivables, AgedReceivableDetail, CustomerSales, CustomerBalance, ItemSales, " ++
    "ClassSales, TransactionList. `params` are the report's query parameters, e.g. " ++
    "\x7b\"start_date\": \"2026-01-01\", \"end_date\": \"2026-03-31\", " ++
    "\"accounting_method\": \"Accrual\"\x7d. Admins only."

/-- `ToolSpec::properties`. -/
def properties : Tool → Json
  | searchCustomers => .obj [schemaProperty "name" "string" "part of the customer's name"]
  | customerInvoices =>
    .obj [
      schemaProperty "customer_id" "integer" "CRM customers.id",
      schemaProperty "qbo_customer_id" "string" "QuickBooks customer Id"]
  | invoice =>
    .obj [schemaProperty "invoice_id" "string" "QuickBooks invoice Id (not the DocNumber)"]
  | salesRep =>
    .obj [
      schemaProperty "start_date" "string" "first day, YYYY-MM-DD",
      schemaProperty "end_date" "string" "last day, YYYY-MM-DD (inclusive)",
      schemaProperty "rep_name" "string" "sales rep name as in users.name"]
  | invoicesInRange | classSales => dateRange
  | query => .obj [schemaProperty "query" "string" "a SELECT statement"]
  | report =>
    .obj [
      schemaProperty "report" "string" "report name, e.g. ProfitAndLoss",
      schemaProperty "params" "object" "report query parameters"]

/-- `ToolSpec::required`. -/
def required : Tool → List String
  | searchCustomers => ["name"]
  | customerInvoices => []
  | invoice => ["invoice_id"]
  | salesRep | invoicesInRange | classSales => ["start_date", "end_date"]
  | query => ["query"]
  | report => ["report"]

end Tool

/-! ## The lists -/

/-- `qbo::tools`. -/
def qboTools (isAdmin : Bool) : List Json :=
  (Tool.all.filter fun tool => isAdmin || !tool.adminOnly).map fun tool =>
    describeTool ("qbo_" ++ tool.name) tool.description tool.properties tool.required

/-- The description of `sql`. -/
def sqlTool : Json :=
  describeTool "sql"
    ("Run one SQL statement against the company's MySQL database " ++
      "(read-only login) and return the result as tab-separated text with a header " ++
      "row. Use it for SELECT, SHOW TABLES, DESCRIBE <table>, SHOW CREATE TABLE <table>, etc.")
    (.obj [schemaProperty "sql" "string" "the SQL statement"]) ["sql"]

/-- `tools` of `jobctl-mcp`. -/
def tools (qbo : Option Session) : List Json :=
  sqlTool :: (qbo.map fun session => qboTools session.scope.isAdmin).getD []

/-- The name of a described tool. -/
def describedName (tool : Json) : Option String := (tool.get? "name").bind Json.asStr

/-- The names that `tools/list` shows. -/
def listedNames (qbo : Option Session) : List String := (tools qbo).filterMap describedName

theorem describedName_describeTool (name description : String) (properties : Json)
    (required : List String) :
    describedName (describeTool name description properties required) = some name := rfl

theorem mem_qboTools_iff {isAdmin : Bool} {described : Json} :
    described ∈ qboTools isAdmin ↔ ∃ tool : Tool, (tool.adminOnly = true → isAdmin = true) ∧
      describeTool ("qbo_" ++ tool.name) tool.description tool.properties tool.required =
        described := by
  unfold qboTools
  rw [List.mem_map]
  refine exists_congr fun tool => and_congr_left fun _ => ?_
  rw [List.mem_filter, and_iff_right tool.mem_all]
  cases isAdmin <;> cases tool.adminOnly <;> simp

/-- **Which names are listed**: `sql`, and those of the tools that the requester may
use. This is read off the descriptions that the client is sent. -/
theorem mem_listedNames_iff {qbo : Option Session} {name : String} :
    name ∈ listedNames qbo ↔ name = "sql" ∨ ∃ session tool, qbo = some session ∧
      (tool.adminOnly = true → session.scope.isAdmin = true) ∧ name = "qbo_" ++ Tool.name tool := by
  have hsql : describedName sqlTool = some "sql" := rfl
  unfold listedNames tools
  rw [List.filterMap_cons_some hsql, List.mem_cons]
  refine or_congr_right ?_
  rw [List.mem_filterMap]
  cases qbo with
  | none => simp
  | some session =>
    constructor
    · rintro ⟨described, hmem, hname⟩
      obtain ⟨tool, hmay, rfl⟩ := mem_qboTools_iff.mp hmem
      rw [describedName_describeTool, Option.some_inj] at hname
      exact ⟨session, tool, rfl, hmay, hname.symm⟩
    · rintro ⟨_, tool, hsession, hmay, rfl⟩
      cases hsession
      exact ⟨_, mem_qboTools_iff.mpr ⟨tool, hmay, rfl⟩, describedName_describeTool _ _ _ _⟩

/-- A QuickBooks name is listed if it is that of a tool the requester may use. -/
theorem qbo_mem_listedNames_iff {qbo : Option Session} {name : String} :
    "qbo_" ++ name ∈ listedNames qbo ↔ ∃ session tool, qbo = some session ∧
      (tool.adminOnly = true → session.scope.isAdmin = true) ∧ name = Tool.name tool := by
  have hsql : "qbo_" ++ name ≠ "sql" := by
    intro h
    have hprefix := stripPrefix_append "qbo_" name
    rw [h] at hprefix
    cases hprefix.symm.trans (show stripPrefix "qbo_" "sql" = none by decide +kernel)
  have hcancel : ∀ tool : Tool, "qbo_" ++ name = "qbo_" ++ tool.name ↔ name = tool.name := by
    intro tool
    rw [← stripPrefix_eq_some_iff, stripPrefix_append, Option.some_inj]
  rw [mem_listedNames_iff, or_iff_right hsql]
  simp only [hcancel]

/-- Other names are not listed, except that of `sql`. -/
theorem not_mem_listedNames {qbo : Option Session} {name : String} (hsql : name ≠ "sql")
    (h : stripPrefix "qbo_" name = none) : name ∉ listedNames qbo := by
  intro hlisted
  rcases mem_listedNames_iff.mp hlisted with h' | ⟨_, tool, -, -, rfl⟩
  · exact hsql h'
  · rw [stripPrefix_append] at h
    cases h

end JobRunner
