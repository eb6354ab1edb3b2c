import JobRunner.Lib.Decimal
import JobRunner.Lib.Dialogue
import JobRunner.Claude.Command

/-!
# A job's QuickBooks session (`jobctl::qbo`, `jobctl-mcp`)

`jobctl-mcp` reads its access from the environment once, at its start. A call names a
tool: `Server::qbo` asks `authorize`, opens the database and hands over to
`Session::call`, which asks `authorize` again.

- `fromEnv`: `Session::from_env`.
- `Tool`, `Session.authorize`, `Session.select`: the catalogue and its two checks.
- `Server.qbo`, `Server.call`: which tool a call runs, and for whom.
- `Server.call_runs`, `Server.call_of_may`: a tool runs exactly where `authorize` lets it.
-/

open Text Decimal

namespace JobRunner

/-- `sqlx::Error`, as far as `is_connection_error` tells its variants apart. -/
inductive SqlError where
  /-- `Io`, `Protocol` or `Tls`. -/
  | connection (text : String)
  | other (text : String)
deriving DecidableEq, Repr

/-- `jobctl::Error`. -/
inductive ToolError where
  | database (err : SqlError)
  | config (text : String)
  /-- The `Config` error that quotes a realm id. -/
  | invalidRealm (realmId : String)
  | notFound (text : String)
  | http (text : String)
  | invalidArgument (text : String)
  | denied (text : String)
  | io (text : String)
deriving DecidableEq, Repr

/-! ## Who asks -/

/-- `Scope`. -/
structure Scope where
  companyId : Int
  userId : Int
  isAdmin : Bool
deriving DecidableEq, Repr

/-- `Session`, without the HTTP client. -/
structure Session where
  companyUrl : String
  token : String
  scope : Scope
deriving DecidableEq, Repr

/-- `is_entity_id`. -/
def isEntityId (value : String) : Bool :=
  1 ≤ value.utf8ByteSize && value.utf8ByteSize ≤ 32 && value.toList.all Char.isDigit

/-- `Session::new`; `client` is what building the HTTP client gave. -/
def Session.new (client : Except String Unit) (apiBase realmId token : String) (scope : Scope) :
    Except ToolError Session :=
  if isEntityId realmId = false then .error (.invalidRealm realmId)
  else
    match client with
    | .error err => .error (.http ("cannot build HTTP client: " ++ err))
    | .ok () => .ok ⟨trimEndMatches '/' apiBase ++ "/v3/company/" ++ realmId, token, scope⟩

namespace Env

variable (env : Env)

/-- `var` of `from_env`: a variable that is Unicode and not blank. -/
def var (name : String) : Option String :=
  ((env name).bind fromUtf8).filter fun v => trim v ≠ ""

/-- `var(name).ok_or_else(|| missing(name))`. -/
def required (name : String) : Except ToolError String :=
  match env.var name with
  | some v => .ok v
  | none => .error (.config (name ++ " is not set"))

/-- `id` of `from_env`. -/
def id (name : String) : Except ToolError Int := do
  let v ← env.required name
  match parseI64 (trim v) with
  | some n => .ok n
  | none => .error (.config (name ++ " is not a number"))

end Env

/-- `Session::from_env`. -/
def fromEnv (client : Except String Unit) (env : Env) : Except ToolError (Option Session) :=
  match env.var "QBO_ACCESS_TOKEN" with
  | none => .ok none
  | some token => do
    let realmId ← env.required "QBO_REALM_ID"
    let apiBase ← env.required "QBO_API_BASE"
    let companyId ← env.id "QBO_COMPANY_ID"
    let userId ← env.id "QBO_USER_ID"
    let isAdmin := env.var "QBO_REQUESTER_IS_ADMIN" = some "1"
    let session ← Session.new client apiBase realmId token ⟨companyId, userId, isAdmin⟩
    return some session

/-- The session of `main`: an error is reported, and disables the tools. -/
def startSession (client : Except String Unit) (env : Env) : Option Session :=
  match fromEnv client env with
  | .ok session => session
  | .error _ => none

/-! ## The tools -/

/-- The tools of `TOOLS`. -/
inductive Tool where
  | searchCustomers
  | customerInvoices
  | invoice
  | salesRep
  | invoicesInRange
  | classSales
  | query
  | report
deriving DecidableEq, Repr

namespace Tool

/-- `ToolSpec::name`. -/
def name : Tool → String
  | searchCustomers => "search_customers"
  | customerInvoices => "customer_invoices"
  | invoice => "invoice"
  | salesRep => "sales_rep"
  | invoicesInRange => "invoices_in_range"
  | classSales => "class_sales"
  | query => "query"
  | report => "report"

/-- `ToolSpec::admin_only`. -/
def adminOnly : Tool → Bool
  | searchCustomers | customerInvoices | invoice | salesRep => false
  | invoicesInRange | classSales | query | report => true

/-- `TOOLS`. -/
def all : List Tool :=
  [searchCustomers, customerInvoices, invoice, salesRep, invoicesInRange, classSales, query,
    report]

/-- The `match` of `Session::call`. -/
def ofName (n : String) : Option Tool :=
  if n = "search_customers" then some searchCustomers
  else if n = "customer_invoices" then some customerInvoices
  else if n = "invoice" then some invoice
  else if n = "sales_rep" then some salesRep
  else if n = "invoices_in_range" then some invoicesInRange
  else if n = "class_sales" then some classSales
  else if n = "query" then some query
  else if n = "report" then some report
  else none

theorem mem_all (t : Tool) : t ∈ all := by
  cases t <;> simp [all]

theorem name_injective : Function.Injective name := by
  intro t u h
  cases t <;> cases u <;> first | rfl | (revert h; simp [name])

@[simp] theorem ofName_name (t : Tool) : ofName t.name = some t := by
  cases t <;> simp [ofName, name]

/-- The catalogue is searched by name. -/
@[simp] theorem find?_name (t : Tool) : all.find? (·.name = t.name) = some t := by
  obtain ⟨u, hu⟩ : ∃ u, all.find? (·.name = t.name) = some u := by
    rw [← Option.isSome_iff_exists, List.find?_isSome]
    exact ⟨t, mem_all t, by simp⟩
  have hname : u.name = t.name := by simpa using List.find?_some hu
  rw [hu, name_injective hname]

end Tool

namespace Session

variable (session : Session)

/-- The answer to somebody who may not use the tool. -/
def adminsOnly : ToolError := .denied "only admins can use this QuickBooks tool"

/-- `Session::authorize`. -/
def authorize (name : String) : Option (Except ToolError Unit) :=
  (Tool.all.find? (·.name = name)).map fun tool =>
    if tool.adminOnly && !session.scope.isAdmin then .error adminsOnly else .ok ()

/-- `Session::call`, up to the code of the tool. -/
def select (name : String) : Option (Except ToolError Tool) :=
  match session.authorize name with
  | none => none
  | some (.error err) => some (.error err)
  | some (.ok ()) => (Tool.ofName name).map .ok

variable {session}

/-- A call is let through only for a tool of the catalogue, and an admin's tool only
for an admin. -/
theorem authorize_ok {name : String} (h : session.authorize name = some (.ok ())) :
    ∃ tool : Tool, name = tool.name ∧ (tool.adminOnly = true → session.scope.isAdmin = true) := by
  unfold authorize at h
  obtain ⟨tool, htool, hcheck⟩ := Option.map_eq_some_iff.mp h
  have hname : tool.name = name := by simpa using List.find?_some htool
  refine ⟨tool, hname.symm, fun hadmin => ?_⟩
  by_contra hscope
  rw [Bool.not_eq_true] at hscope
  rw [hadmin, hscope] at hcheck
  cases hcheck

/-- There is one refusal, the one for what only admins may do. -/
theorem authorize_error {name : String} {err : ToolError}
    (h : session.authorize name = some (.error err)) : err = adminsOnly := by
  unfold authorize at h
  obtain ⟨tool, -, hcheck⟩ := Option.map_eq_some_iff.mp h
  split at hcheck
  · cases hcheck
    rfl
  · cases hcheck

/-- The tool that is selected is the one of that name, and the session may use it. -/
theorem select_ok {name : String} {tool : Tool} (h : session.select name = some (.ok tool)) :
    name = tool.name ∧ (tool.adminOnly = true → session.scope.isAdmin = true) := by
  unfold select at h
  split at h
  · cases h
  · cases h
  next hauth =>
    obtain ⟨tool', hname, hadmin⟩ := authorize_ok hauth
    rw [hname, Tool.ofName_name] at h
    cases h
    exact ⟨hname, hadmin⟩

/-- Whoever may use a tool gets it. With `authorize_ok` this says for whom a tool is
there. -/
theorem authorize_of_may {tool : Tool} (h : tool.adminOnly = true → session.scope.isAdmin = true) :
    session.authorize tool.name = some (.ok ()) := by
  unfold authorize
  rw [Tool.find?_name, Option.map_some, if_neg]
  intro hrefused
  simp only [Bool.and_eq_true, Bool.not_eq_true'] at hrefused
  rw [h hrefused.1] at hrefused
  cases hrefused.2

theorem select_of_may {tool : Tool} (h : tool.adminOnly = true → session.scope.isAdmin = true) :
    session.select tool.name = some (.ok tool) := by
  unfold select
  rw [authorize_of_may h]
  exact congrArg (Option.map Except.ok) (Tool.ofName_name tool)

end Session

/-! ## The server -/

namespace Server

/-- What a call runs: a statement, or a QuickBooks tool for a session. -/
inductive Running where
  | sql
  | tool (session : Session) (tool : Tool)

/-- `Server::qbo`, up to the code of the tool; `connection` is what opening the database
gave. -/
def qbo (session? : Option Session) (connection : Except ToolError Unit) (name : String) :
    Option (Except ToolError Running) :=
  match session? with
  | none => none
  | some session =>
    match session.authorize name with
    | none => none
    | some (.error err) => some (.error err)
    | some (.ok ()) =>
      match connection with
      | .error err => some (.error err)
      -- `Session::call` authorizes once more
      | .ok () => (session.select name).map fun outcome => outcome.map (.tool session)

/-- `Server::call`, up to the code of the tool. -/
def call (session? : Option Session) (connection : Except ToolError Unit) (name : String) :
    Option (Except ToolError Running) :=
  if name = "sql" then some (.ok .sql)
  else (stripPrefix "qbo_" name).bind (qbo session? connection)

/-- A tool of QuickBooks runs only where the process has a session, and with that
session. -/
theorem qbo_runs {session? : Option Session} {connection : Except ToolError Unit}
    {name : String} {session : Session} {tool : Tool}
    (h : qbo session? connection name = some (.ok (.tool session tool))) :
    session? = some session ∧ (tool.adminOnly = true → session.scope.isAdmin = true) := by
  unfold qbo at h
  split at h
  · cases h
  next s =>
  split at h
  · cases h
  · cases h
  split at h
  · cases h
  obtain ⟨outcome, hselect, hrun⟩ := Option.map_eq_some_iff.mp h
  rcases outcome with err | t
  · cases hrun
  · cases hrun
    exact ⟨rfl, (Session.select_ok hselect).2⟩

/-- A tool runs only for the session of the process, and an admin's only for an admin. -/
theorem call_runs {session? : Option Session} {connection : Except ToolError Unit}
    {name : String} {session : Session} {tool : Tool}
    (h : call session? connection name = some (.ok (.tool session tool))) :
    session? = some session ∧ (tool.adminOnly = true → session.scope.isAdmin = true) := by
  unfold call at h
  split at h
  · cases h
  · obtain ⟨rest, -, hqbo⟩ := Option.bind_eq_some_iff.mp h
    exact qbo_runs hqbo

/-- Every tool can be called by those who may use it. -/
theorem call_of_may {session : Session} {tool : Tool}
    (h : tool.adminOnly = true → session.scope.isAdmin = true) :
    call (some session) (.ok ()) ("qbo_" ++ tool.name) = some (.ok (.tool session tool)) := by
  have hne : "qbo_" ++ tool.name ≠ "sql" := by
    cases tool <;> simp [Tool.name]
  unfold call
  rw [if_neg hne, stripPrefix_append, Option.bind_some]
  unfold qbo
  simp only [Session.authorize_of_may h, Session.select_of_may h, Option.map_some, Except.map]

end Server

end JobRunner
