import JobRunner.Lib.Contract
import JobRunner.Jobctl.OmitZero
import JobRunner.Jobctl.QueryText
import JobRunner.Jobctl.Url

/-!
# All the tools (`jobctl::qbo`)

`Session::call` has one arm for each tool. The tools for admins hand on what the model
writes: a query, or the name and the parameters of a report.

- `classSales`, `query`, `report`: the tools that are still missing.
- `Tool.run`: the arms.
- `Request.Allowed`, `ToolError.OfTool`: what a tool may ask, and how it may fail.
- `run_meets`: every tool keeps to that.
- `requests_in_account`: every URL lies in the account of the company.
-/

open Text Decimal

namespace JobRunner

namespace Jobctl

variable (P : Platform)

/-! ## The tools for admins -/

/-- `Row::to_json`. -/
def Row.toJson (r : Row P.F64) : Json :=
  .obj ([
    ("name", .str r.name),
    ("amount", ofNumber P r.amount),
    ("depth", .int r.depth),
    ("kind", .str r.kind.asStr)] ++ (r.entityId.map fun id => ("entityId", .str id)).toList)

/-- `class_sales`. -/
def classSales (args : Json) : Asking Json := do
  let start ← .done (requiredDate args "start_date")
  let stop ← .done (requiredDate args "end_date")
  let report ← classSalesReport P start stop
  return .obj [
    ("startDate", .ofOption report.startPeriod),
    ("endDate", .ofOption report.endPeriod),
    ("currency", .ofOption report.currency),
    ("total", ofNumber P report.total),
    ("rows", .arr ((omitZeroRows P report.rows).map (Row.toJson P)))]

/-- `query.get(..7)` and its comparison. -/
def isSelect (query : String) : Bool :=
  eqIgnoreAsciiCase (String.ofList (query.toList.take 7)) "select "

/-- `query`. -/
def query (args : Json) : Asking Json := do
  let query ← .done (requiredStr args "query")
  if isSelect query = false then .fail (.invalidArgument "only SELECT queries are allowed")
  else do
    let payload ← get P (.query (.raw query))
    return (payload.get? "QueryResponse").getD payload

/-- The check of `report`. -/
def isReportName (name : String) : Bool :=
  1 ≤ name.utf8ByteSize && name.utf8ByteSize ≤ 64 && name.toList.all Char.isAlpha

/-- The value of a report parameter. -/
def paramText : Json → Option String
  | .str text => some text
  | .int n => some (toString n)
  | .dec m e => some (P.display (.dec m e))
  | .bool flag => some (if flag then "true" else "false")
  | _ => none

/-- The loop of `report` over `params`; the members are in the order of the map. -/
def reportParams : List (String × Json) → Except ToolError (List (String × String))
  | [] => .ok []
  | (key, value) :: rest =>
    match paramText P value with
    | none =>
      .error (.invalidArgument ("report parameter " ++ key ++ " must be a string or number"))
    | some text => (reportParams rest).map fun params => (key, text) :: params

/-- `report`. -/
def report (args : Json) : Asking Json := do
  let name ← .done (requiredStr args "report")
  if isReportName name = false then
    .fail (.invalidArgument "report must be a report name such as ProfitAndLoss")
  else do
    let params ← .done (reportParams P (args.index "params").members)
    get P (.report name params)

end Jobctl

/-- The arm of `Session::call` for a tool; `crm` is what the statements find. -/
def Tool.run (P : Jobctl.Platform) (session : Session) (crm : Except SqlError Jobctl.Crm)
    (args : Json) : Tool → Jobctl.Asking Json
  | searchCustomers => Jobctl.searchCustomers P session crm args
  | customerInvoices => Jobctl.customerInvoices P session crm args
  | invoice => Jobctl.invoice P session crm args
  | salesRep => Jobctl.salesRep P session crm args
  | invoicesInRange => Jobctl.invoicesInRange P args
  | classSales => Jobctl.classSales P args
  | query => Jobctl.query P args
  | report => Jobctl.report P args

/-- The errors of a tool: none is the answer of `authorize`. -/
def ToolError.OfTool : ToolError → Prop
  | database _ | notFound _ | http _ | invalidArgument _ => True
  | denied text => denied text ≠ Session.adminsOnly
  | config _ | invalidRealm _ | io _ => False

/-! ## What a tool may do -/

namespace Jobctl

/-- The requests of a session. -/
def Request.Allowed (isAdmin : Bool) : Request → Prop
  | .query (.raw text) => isAdmin = true ∧ isSelect text = true
  | .query q => q.Checked
  | .invoice id => isEntityId id = true
  | .classSales start stop => isDate start = true ∧ isDate stop = true
  | .customerSales start stop _ => isDate start = true ∧ isDate stop = true
  | .report name _ => isAdmin = true ∧ isReportName name = true

/-- What the tools of a session may do. -/
def toolContract (isAdmin : Bool) : Dialogue.Contract Request ToolError :=
  ⟨Request.Allowed isAdmin, ToolError.OfTool⟩

variable {P : Platform} {isAdmin : Bool}

/-- A checked query is not one of the argument of `query`, so it may be sent for
everybody. -/
theorem Query.Checked.allowed {q : Query} (h : q.Checked) : (Request.query q).Allowed isAdmin := by
  cases q with
  | raw text => exact absurd h id
  | _ => exact h

/-- What can go wrong with an answer is an error of the tools, whatever the answer
is. -/
theorem readAnswer_error {req : Request} {answer : Answer} {err : ToolError}
    (h : readAnswer P req answer = .error err) : err.OfTool := by
  unfold readAnswer at h
  repeat' split at h
  all_goals cases h
  all_goals trivial

/-- A single request keeps the contract if the request is allowed. -/
theorem get_meets {req : Request} (h : req.Allowed isAdmin) :
    (get P req).Meets (toolContract isAdmin) :=
  (Dialogue.meets_query h).bind fun _ => Dialogue.meets_done fun _ => readAnswer_error

theorem runQuery_meets {q : Query} (h : q.Checked) :
    (runQuery P q).Meets (toolContract isAdmin) :=
  get_meets h.allowed

theorem requiredStr_error {args : Json} {name : String} {err : ToolError}
    (h : requiredStr args name = .error err) : err.OfTool := by
  unfold requiredStr at h
  split at h <;> cases h
  trivial

theorem requiredDate_error {args : Json} {name : String} {err : ToolError}
    (h : requiredDate args name = .error err) : err.OfTool := by
  unfold requiredDate at h
  cases hvalue : requiredStr args name with
  | error err' =>
    rw [hvalue] at h
    cases h
    exact requiredStr_error hvalue
  | ok value =>
    rw [hvalue, Except.bind_ok] at h
    split at h <;> cases h
    trivial

theorem optionalEntityId_error {args : Json} {name : String} {err : ToolError}
    (h : optionalEntityId P args name = .error err) : err.OfTool := by
  unfold optionalEntityId at h
  repeat' split at h
  all_goals cases h
  trivial

theorem optionalPositive_error {args : Json} {name : String} {err : ToolError}
    (h : optionalPositive args name = .error err) : err.OfTool := by
  unfold optionalPositive at h
  dsimp only at h
  repeat' split at h
  all_goals cases h
  trivial

theorem linkedCrmCustomers_error {crm : Except SqlError Crm} {companyId : Int}
    {qboIds : List String} {err : ToolError}
    (h : linkedCrmCustomers crm companyId qboIds = .error err) : err.OfTool := by
  unfold linkedCrmCustomers at h
  repeat' split at h
  all_goals cases h
  trivial

theorem reportParams_error {members : List (String × Json)} {err : ToolError}
    (h : reportParams P members = .error err) : err.OfTool := by
  induction members with
  | nil => cases h
  | cons m rest ih =>
    obtain ⟨key, value⟩ := m
    unfold reportParams at h
    split at h
    · cases h
      trivial
    · cases hrest : reportParams P rest with
      | error err' =>
        rw [hrest] at h
        cases h
        exact ih hrest
      | ok params =>
        rw [hrest] at h
        cases h

/-! ## Every tool keeps to it -/

theorem customersByName_meets (name : String) :
    (customersByName P name).Meets (toolContract isAdmin) := by
  have hquery : (runQuery P (.customersByName name)).Meets (toolContract isAdmin) :=
    runQuery_meets trivial
  exact hquery.bind fun _ => .ok _

theorem resolveCustomer_meets (name email : String) :
    (resolveCustomer P name email).Meets (toolContract isAdmin) := by
  have hemail : (customerByEmail P email).Meets (toolContract isAdmin) := by
    unfold customerByEmail
    split
    · exact .ok _
    · have hquery : (runQuery P (.customersByEmail email)).Meets (toolContract isAdmin) :=
        runQuery_meets trivial
      exact hquery.bind fun _ => .ok _
  refine hemail.bind fun byEmail => ?_
  cases byEmail with
  | some customer => exact .ok _
  | none =>
    show Dialogue.Meets _ (if name = "" then _ else _)
    split
    · exact .ok _
    · exact (customersByName_meets name).bind fun _ => .ok _

theorem invoicesForCustomer_meets (qboCustomerId : String) :
    (invoicesForCustomer P qboCustomerId).Meets (toolContract isAdmin) := by
  have hquery : (runQuery P (.invoicesForCustomer qboCustomerId)).Meets (toolContract isAdmin) :=
    runQuery_meets trivial
  exact hquery.bind fun _ => .ok _

/-- The loop over the pages, with dates that have been checked. By induction on the
pages that are left, each asked for with the same dates. -/
theorem invoicePages_meets {start stop : String} (hstart : isDate start = true)
    (hstop : isDate stop = true) (left page : Nat) (all : List Json) :
    (invoicePages P start stop left page all).Meets (toolContract isAdmin) := by
  induction left generalizing page all with
  | zero => exact .ok _
  | succ left ih =>
    have hquery : (runQuery P (.invoicesBetween start stop (page * pageSize + 1))).Meets
        (toolContract isAdmin) := runQuery_meets ⟨hstart, hstop⟩
    rw [invoicePages]
    refine hquery.bind fun payload => ?_
    show Dialogue.Meets _ (if _ then _ else _)
    split
    · exact .ok _
    · exact ih _ _

theorem classSalesReport_meets {start stop : String} (hstart : isDate start = true)
    (hstop : isDate stop = true) :
    (classSalesReport P start stop).Meets (toolContract isAdmin) := by
  have hget : (get P (.classSales start stop)).Meets (toolContract isAdmin) :=
    get_meets ⟨hstart, hstop⟩
  exact hget.bind fun _ => .ok _

theorem repSales_meets {start stop : String} (hstart : isDate start = true)
    (hstop : isDate stop = true) (rep : String) :
    (repSales P start stop rep).Meets (toolContract isAdmin) := by
  have hclasses : (classes P).Meets (toolContract isAdmin) := by
    have hquery : (runQuery P .classes).Meets (toolContract isAdmin) := runQuery_meets trivial
    exact hquery.bind fun _ => .ok _
  have hcustomers (classIds : List String) :
      (repCustomers P start stop classIds).Meets (toolContract isAdmin) := by
    unfold repCustomers
    split
    · exact .ok _
    · have hget : (get P (.customerSales start stop classIds)).Meets (toolContract isAdmin) :=
        get_meets ⟨hstart, hstop⟩
      exact hget.bind fun _ =>
        (invoicePages_meets hstart hstop maxPages 0 []).bind fun _ => .ok _
  exact (classSalesReport_meets hstart hstop).bind fun _ =>
    hclasses.bind fun _ => (hcustomers _).bind fun _ => .ok _

/-- What follows two dates may rely on them: both have been checked before anything
is asked. -/
theorem dates_meets {args : Json} {f : String → String → Asking Json}
    (hf : ∀ start stop, isDate start = true → isDate stop = true →
      (f start stop).Meets (toolContract isAdmin)) :
    (show Asking Json from do
      let start ← .done (requiredDate args "start_date")
      let stop ← .done (requiredDate args "end_date")
      f start stop).Meets (toolContract isAdmin) :=
  Dialogue.meets_done_bind (fun _ => requiredDate_error) fun start hstart =>
    Dialogue.meets_done_bind (fun _ => requiredDate_error) fun stop hstop =>
      hf start stop (requiredDate_ok hstart) (requiredDate_ok hstop)

variable (session : Session) (crm : Except SqlError Crm) (args : Json)

theorem searchCustomers_meets :
    (searchCustomers P session crm args).Meets (toolContract isAdmin) :=
  Dialogue.meets_done_bind (fun _ => requiredStr_error) fun name _ =>
    (customersByName_meets name).bind fun _ =>
      Dialogue.meets_done_bind (fun _ => linkedCrmCustomers_error) fun _ _ => .ok _

theorem crmCustomerInvoices_meets (customerId : Int) :
    (crmCustomerInvoices P session crm customerId).Meets (toolContract isAdmin) := by
  have hfound (customer : Customer) : (qboIdOf P customer).Meets (toolContract isAdmin) := by
    unfold qboIdOf
    split
    · exact .ok _
    · refine (resolveCustomer_meets _ _).bind fun found => ?_
      cases found with
      | some found => exact .ok _
      | none => exact .error trivial
  unfold crmCustomerInvoices
  split
  · exact .error trivial
  · split
    · exact .error trivial
    · exact (hfound _).bind fun found => (invoicesForCustomer_meets found.1).bind fun _ => .ok _

theorem customerInvoices_meets :
    (customerInvoices P session crm args).Meets (toolContract isAdmin) := by
  refine Dialogue.meets_done_bind (fun _ => optionalPositive_error) fun customerId _ =>
    Dialogue.meets_done_bind (fun _ => optionalEntityId_error) fun qboId _ => ?_
  split
  · exact crmCustomerInvoices_meets session crm _
  · refine Dialogue.meets_done_bind (fun _ => linkedCrmCustomers_error) fun linked _ => ?_
    split
    · exact .error (by simp [toolContract, unlinkedCustomer, ToolError.OfTool, Session.adminsOnly])
    · exact (invoicesForCustomer_meets _).bind fun _ => .ok _
  · exact .error trivial

theorem invoice_meets : (invoice P session crm args).Meets (toolContract isAdmin) := by
  refine Dialogue.meets_done_bind (fun _ => optionalEntityId_error) fun invoiceId hid => ?_
  cases invoiceId with
  | none => exact .error trivial
  | some id =>
    have hget : (get P (.invoice id)).Meets (toolContract isAdmin) :=
      get_meets (optionalEntityId_ok P hid)
    refine hget.bind fun payload =>
      Dialogue.meets_done_bind (fun err herr => ?_) fun linked _ => ?_
    · split at herr
      · exact linkedCrmCustomers_error herr
      · cases herr
    · show Dialogue.Meets _ (if _ then _ else _)
      split
      · exact .error (by simp [toolContract, unlinkedInvoice, ToolError.OfTool, Session.adminsOnly])
      · exact .ok _

theorem salesRep_meets : (salesRep P session crm args).Meets (toolContract isAdmin) := by
  refine dates_meets fun start stop hstart hstop => ?_
  split
  · exact .error trivial
  · show Dialogue.Meets _ (if _ then _ else if _ then _ else _)
    split
    · exact .error (by simp [toolContract, ToolError.OfTool, Session.adminsOnly])
    · split
      · exact .error trivial
      · exact repSales_meets hstart hstop _

theorem query_meets : (query P args).Meets (toolContract true) := by
  refine Dialogue.meets_done_bind (fun _ => requiredStr_error) fun text _ => ?_
  split
  · exact .error trivial
  next hselect =>
    have hget : (get P (.query (.raw text))).Meets (toolContract true) :=
      get_meets ⟨rfl, by simpa using hselect⟩
    exact hget.bind fun _ => .ok _

theorem report_meets : (report P args).Meets (toolContract true) := by
  refine Dialogue.meets_done_bind (fun _ => requiredStr_error) fun name _ => ?_
  split
  · exact .error trivial
  next hname =>
    exact Dialogue.meets_done_bind (fun _ => reportParams_error) fun params _ =>
      get_meets ⟨rfl, by simpa using hname⟩

/-- **Every tool keeps to its contract**, if the session may use it. A case for each
tool; only `query` and `report`, which are for admins, send what they were given. -/
theorem run_meets {t : Tool} (h : t.adminOnly = true → isAdmin = true) :
    (t.run P session crm args).Meets (toolContract isAdmin) := by
  cases t with
  | searchCustomers => exact searchCustomers_meets session crm args
  | customerInvoices => exact customerInvoices_meets session crm args
  | invoice => exact invoice_meets session crm args
  | salesRep => exact salesRep_meets session crm args
  | invoicesInRange =>
    exact dates_meets fun start stop hstart hstop =>
      (invoicePages_meets hstart hstop maxPages 0 []).bind fun _ => .ok _
  | classSales =>
    exact dates_meets fun start stop hstart hstop =>
      (classSalesReport_meets hstart hstop).bind fun _ => .ok _
  | query =>
    rw [h rfl]
    exact query_meets args
  | report =>
    rw [h rfl]
    exact report_meets args

/-! ## Where the requests go -/

/-- The path of a request: words of letters and digits. -/
inductive PlainPath : String → Prop where
  | query : PlainPath "query"
  | invoice (id : String) (h : isEntityId id = true) : PlainPath ("invoice/" ++ id)
  | report (name : String) (h : isReportName name = true) : PlainPath ("reports/" ++ name)

theorem Request.Allowed.path {req : Request} (h : req.Allowed isAdmin) : PlainPath req.path := by
  cases req with
  | query q => exact .query
  | invoice id => exact .invoice id h
  | classSales start stop => exact .report "ClassSales" (by decide)
  | customerSales start stop classIds => exact .report "CustomerSales" (by decide)
  | report name params => exact .report name h.2

/-- Nothing in the path ends it, and nothing leads out of it: its characters are
letters, digits and slashes, so there is no `?`, no `#` and no `..` in it. -/
theorem PlainPath.chars {path : String} (h : PlainPath path) :
    ∀ c ∈ path.toList, c.isAlphanum = true ∨ c = '/' := by
  have hword {word : String} (hword : ∀ c ∈ word.toList, c.isAlphanum = true) (head : List Char)
      (hhead : ∀ c ∈ head, c.isAlphanum = true ∨ c = '/') :
      ∀ c ∈ head ++ word.toList, c.isAlphanum = true ∨ c = '/' := by
    intro c hc
    rcases List.mem_append.mp hc with hc | hc
    · exact hhead c hc
    · exact .inl (hword c hc)
  -- what is written out is checked character by character
  have hliteral {word : List Char} (h : word.all (fun c => c.isAlphanum || c == '/') = true) :
      ∀ c ∈ word, c.isAlphanum = true ∨ c = '/' := by
    intro c hc
    have hchar := List.all_eq_true.mp h c hc
    rwa [Bool.or_eq_true, beq_iff_eq] at hchar
  cases h with
  | query => exact hliteral (by decide +kernel)
  | invoice id hid =>
    rw [String.toList_append]
    refine hword (fun c hc => ?_) _ (hliteral (by decide +kernel))
    have hall := (Bool.and_eq_true_iff.mp hid).2
    have hdigit : c.isDigit = true := List.all_eq_true.mp hall c hc
    simp [Char.isAlphanum, hdigit]
  | report name hname =>
    rw [String.toList_append]
    refine hword (fun c hc => ?_) _ (hliteral (by decide +kernel))
    have hall := (Bool.and_eq_true_iff.mp hname).2
    have halpha : c.isAlpha = true := List.all_eq_true.mp hall c hc
    simp [Char.isAlphanum, halpha]

/-- The URL of a request of this account: a plain path below the realm, and a query that is
read back as the parameters. -/
def InAccount (apiBase realmId : String) (session : Session) (req : Request) : Prop :=
  ∃ query : List Char,
    req.url session = trimEndMatches '/' apiBase ++ "/v3/company/" ++ realmId ++ "/" ++ req.path ++
      "?" ++ String.ofList query ∧
    PlainPath req.path ∧ (∀ c ∈ req.path.toList, c.isAlphanum = true ∨ c = '/') ∧
    '?' ∉ query ∧ '#' ∉ query ∧
    Percent.decodePairs query = some (req.params ++ [("minorversion", "75")])

theorem companyUrl_of_new {client : Except String Unit} {apiBase realmId token : String}
    {scope : Scope} {session : Session}
    (h : Session.new client apiBase realmId token scope = .ok session) :
    isEntityId realmId = true ∧ session.scope = scope ∧
      session.companyUrl = trimEndMatches '/' apiBase ++ "/v3/company/" ++ realmId := by
  unfold Session.new at h
  split at h
  · cases h
  next hrealm =>
    cases client with
    | error err => cases h
    | ok _ =>
      cases h
      exact ⟨by simpa using hrealm, rfl, rfl⟩

/-- **Every request stays in the account.** Whichever tool a session runs, with whatever
arguments, and whatever the CRM and QuickBooks answer, each URL is a plain path below the
realm of the session, with a query that carries the request's parameters and the minor version
and nothing else; and only an admin's session sends a query or a report of the model's own, the
query a SELECT. -/
theorem requests_in_account (P : Platform) {client : Except String Unit}
    {apiBase realmId token : String} {scope : Scope} {session : Session}
    (hnew : Session.new client apiBase realmId token scope = .ok session) {name : String}
    {t : Tool} (hselect : session.select name = some (.ok t)) (crm : Except SqlError Crm)
    (args : Json) :
    isEntityId realmId = true ∧
    (t.run P session crm args).Asks fun req =>
      req.Allowed scope.isAdmin ∧ InAccount apiBase realmId session req := by
  obtain ⟨hrealm, rfl, hcompany⟩ := companyUrl_of_new hnew
  refine ⟨hrealm, (run_meets session crm args (Session.select_ok hselect).2).asks.mono ?_⟩
  intro req hreq
  refine ⟨hreq, urlQuery req.params, ?_, hreq.path, hreq.path.chars,
    not_mem_urlQuery (by decide) _, not_mem_urlQuery (by decide) _,
    Percent.decodePairs_intercalate (sentParams_ne_nil _)⟩
  rw [Request.url, Jobctl.url_eq, hcompany]

/-- User 3 searches for a name with characters that mean something in a URL. -/
theorem search_in_account :
    isEntityId "9130" = true ∧
    (Tool.searchCustomers.run wholePlatform plainSession (.ok sampleCrm)
      (.obj [("name", .str "Smith & Sons #2?")])).Asks fun req =>
        req.Allowed false ∧
          InAccount "https://quickbooks.api.intuit.com/" "9130" plainSession req := by
  have hnew : Session.new (.ok ()) "https://quickbooks.api.intuit.com/" "9130" "access-1"
      ⟨4, 3, false⟩ = .ok plainSession := by decide +kernel
  have hselect : plainSession.select Tool.searchCustomers.name = some (.ok .searchCustomers) :=
    Session.select_of_may (by decide)
  exact requests_in_account wholePlatform hnew hselect _ _

end Jobctl

end JobRunner
