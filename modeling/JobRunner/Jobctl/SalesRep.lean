import JobRunner.Jobctl.Classes
import JobRunner.Jobctl.Customers

/-!
# The sales of a rep (`jobctl::qbo`)

`sales_rep` puts two figures side by side: the sum of the `ClassSales` rows that match the
rep by name, and the customers behind the classes of the rep. Users who are no admins get
their own.

- `sumForRep`, `customerSalesRows`, `attachInvoices`: the parts.
- `salesRep`: the tool.
- `counted_iff_listed`: which rows of listed classes are counted.
- `own_sales_only`: what a user who is no admin gets of somebody else's.
-/

open Text Decimal

namespace JobRunner.Jobctl

variable (P : Platform)

/-! ## The two figures -/

/-- The rows that `sum_for_rep` adds up. -/
def countedRows (rows : List (Row P.F64)) (repName : String) : List (Row P.F64) :=
  rows.filter fun row => row.kind = .data && matchesRep P row.name repName

/-- `sum_for_rep`. -/
def sumForRep (rows : List (Row P.F64)) (repName : String) : P.F64 :=
  total P ((countedRows P rows repName).filterMap Row.amount)

/-- The classes that `sales_rep` reports as matched. -/
def matchedClasses (classes : List QboClass) (repName : String) : List QboClass :=
  classes.filter fun c => c.id ∈ classIdsForRep P classes repName

/-! ## Customers and their invoices -/

/-- `CustomerSales`, with amounts in `F`. -/
structure CustomerSales (F : Type) where
  name : String
  amount : F
  qboCustomerId : Option String
  invoices : List Json

/-- `CustomerSales::to_json`. -/
def CustomerSales.toJson (c : CustomerSales P.F64) : Json :=
  .obj [
    ("name", .str c.name),
    ("amount", P.ofF64 c.amount),
    ("qboCustomerId", .ofOption c.qboCustomerId),
    ("invoices", .arr c.invoices)]

/-- `customer_sales_rows`: non-zero customers, largest first. -/
def customerSalesRows (report : Report P.F64) : List (CustomerSales P.F64) :=
  P.sortBy (fun a b => (P.totalCmp b.amount a.amount).then (compare a.name b.name))
    ((report.rows.filter fun row => row.kind = .data).filterMap fun row =>
      (row.amount.filter fun amount => !P.isZero amount).map fun amount =>
        ⟨row.name, amount, row.entityId, []⟩)

/-- `by_date`: missing dates come last. -/
def byDate (a b : String) : Ordering :=
  if a = "" ∧ b ≠ "" then .gt
  else if a ≠ "" ∧ b = "" then .lt
  else compare a b

/-- `natural`: document numbers. -/
def natural (a b : String) : Ordering :=
  match parseU64 a, parseU64 b with
  | some x, some y => compare x y
  | _, _ => compare a b

/-- The filter of `attach_invoices`. -/
def invoiceMatches (customer : CustomerSales P.F64) (invoice : Json) : Bool :=
  let id := text P ((invoice.index "CustomerRef").index "value")
  let name := text P ((invoice.index "CustomerRef").index "name")
  (customer.qboCustomerId.isSome && id = customer.qboCustomerId) ||
    name.any fun name => eqIgnoreAsciiCase (trim name) (trim customer.name)

/-- An invoice as `attach_invoices` keeps it. -/
def attachedInvoice (invoice : Json) : Json :=
  .obj [
    ("id", .ofOption (text P (invoice.index "Id"))),
    ("docNumber", .ofOption (text P (invoice.index "DocNumber"))),
    ("totalAmt", ofNumber P (number P (invoice.index "TotalAmt"))),
    ("balance", ofNumber P (number P (invoice.index "Balance"))),
    ("txnDate", .ofOption (text P (invoice.index "TxnDate")))]

/-- The order of the invoices of a customer. -/
def invoiceOrder (a b : Json) : Ordering :=
  (byDate (txnDate a) (txnDate b)).then
    (natural (((a.index "docNumber").asStr).getD "") (((b.index "docNumber").asStr).getD ""))

/-- The date of the first invoice. -/
def firstDate (c : CustomerSales P.F64) : String := (c.invoices.head?.map txnDate).getD ""

/-- `attach_invoices`. -/
def attachInvoices (customers : List (CustomerSales P.F64)) (invoices : List Json) :
    List (CustomerSales P.F64) :=
  P.sortBy (fun a b => (byDate (firstDate P a) (firstDate P b)).then (compare a.name b.name))
    (customers.map fun customer =>
      { customer with
        invoices := P.sortBy invoiceOrder
          ((invoices.filter (invoiceMatches P customer)).map (attachedInvoice P)) })

/-! ## The tool -/

/-- `class_sales_report`. -/
def classSalesReport (start stop : String) : Asking (Report P.F64) := do
  let payload ← get P (.classSales start stop)
  return parseReport P payload

/-- `classes`. -/
def classes : Asking (List QboClass) := do
  let payload ← runQuery P .classes
  return resolveParents P ((entities payload "Class").filterMap (QboClass.parse P))

/-- The customers behind the classes, and their total. -/
def repCustomers (start stop : String) (classIds : List String) :
    Asking (List (CustomerSales P.F64) × P.F64) :=
  if classIds = [] then return ([], P.zero)
  else do
    let payload ← get P (.customerSales start stop classIds)
    let report := parseReport P payload
    let invoices ← invoicesBetween P start stop
    let customers := attachInvoices P (customerSalesRows P report) invoices
    return (customers, report.total.getD (total P (customers.map CustomerSales.amount)))

/-- The result of `sales_rep`. -/
def repReport (start stop rep : String) (classSales : Report P.F64) (classes : List QboClass)
    (customers : List (CustomerSales P.F64)) (total : P.F64) : Json :=
  .obj [
    ("repName", .str rep),
    ("startDate", .str (classSales.startPeriod.getD start)),
    ("endDate", .str (classSales.endPeriod.getD stop)),
    ("currency", .str (classSales.currency.getD "USD")),
    ("classSalesAmount", P.ofF64 (sumForRep P classSales.rows rep)),
    ("matchedClasses", .arr ((matchedClasses P classes rep).map fun c =>
      .str c.fullyQualifiedName)),
    ("customerSalesTotal", P.ofF64 total),
    ("customers", .arr (customers.map (CustomerSales.toJson P)))]

/-- The part of `sales_rep` after its checks. -/
def repSales (start stop rep : String) : Asking Json := do
  let classSales ← classSalesReport P start stop
  let classes ← classes P
  let (customers, total) ← repCustomers P start stop (classIdsForRep P classes rep)
  return repReport P start stop rep classSales classes customers total

/-- `own`: the name of the user, if there is one. -/
def Crm.userName (crm : Crm) (scope : Scope) : String :=
  ((crm.users.find? fun u => u.id = scope.userId && u.companyId = scope.companyId).bind
    User.name).getD ""

/-- `sales_rep`. -/
def salesRep (session : Session) (crm : Except SqlError Crm) (args : Json) : Asking Json := do
  let start ← .done (requiredDate args "start_date")
  let stop ← .done (requiredDate args "end_date")
  match crm with
  | .error err => .fail (.database err)
  | .ok crm =>
    let own := trim (crm.userName session.scope)
    let rep := (optionalStr args "rep_name").getD own
    if !session.scope.isAdmin && !eqIgnoreAsciiCase rep own then
      .fail (.denied "only admins can see another sales rep's sales")
    else if rep = "" then
      .fail (.invalidArgument "the sales rep has no name to match QuickBooks classes by")
    else repSales P start stop rep

variable {P}

/-! ## Counted rows and listed classes -/

theorem mem_countedRows {rows : List (Row P.F64)} {repName : String} {row : Row P.F64} :
    row ∈ countedRows P rows repName ↔
      row ∈ rows ∧ row.kind = .data ∧ matchesRep P row.name repName = true := by
  unfold countedRows
  rw [List.mem_filter, Bool.and_eq_true, decide_eq_true_eq]

theorem matchesRep_trim {rowName name repName : String} (h : trim rowName = trim name) :
    matchesRep P rowName repName = matchesRep P name repName := by
  unfold matchesRep nameKey
  rw [h]

/-- A class whose own name matches is listed, whatever its qualified name and its
parent are. So no row that is counted lacks its class in the list. -/
theorem listed_of_name (hP : P.Lawful) {classes : List QboClass} {repName : String}
    {cls : QboClass} (hcls : cls ∈ classes) (hmatch : matchesRep P cls.name repName = true) :
    cls.id ∈ classIdsForRep P classes repName := by
  have hrep : trim repName ≠ "" := by
    intro hblank
    have hkey : nameKey P repName = "" := by
      rw [nameKey, hblank, hP.toLowercase_empty]
    rw [matchesRep_blank hkey] at hmatch
    cases hmatch
  rw [mem_classIdsForRep_iff hrep]
  refine .matched hcls ?_
  unfold QboClass.matchesRep
  rw [hmatch, Bool.true_or, Bool.true_or]

/-- **The two figures.** A `Data` row with the id and the name of a class is counted exactly
when its class is listed and that name matches the rep. The rows of other listed classes,
which got in by their qualified name or by an ancestor, are not counted. -/
theorem counted_iff_listed (hP : P.Lawful) {classes : List QboClass} {repName : String}
    {rows : List (Row P.F64)} {row : Row P.F64} {cls : QboClass} (hcls : cls ∈ classes)
    (hrow : row ∈ rows) (hkind : row.kind = .data) (hid : row.entityId = some cls.id)
    (hname : trim row.name = trim cls.name) :
    (row ∈ countedRows P rows repName ↔
      row.entityId.any (· ∈ classIdsForRep P classes repName) = true ∧
        matchesRep P cls.name repName = true) := by
  have hmatch : matchesRep P row.name repName = matchesRep P cls.name repName :=
    matchesRep_trim hname
  rw [mem_countedRows, hid, hmatch, Option.any_some, decide_eq_true_eq]
  constructor
  · rintro ⟨-, -, h⟩
    exact ⟨listed_of_name hP hcls h, h⟩
  · rintro ⟨-, h⟩
    exact ⟨hrow, hkind, h⟩

/-- A rep's class. -/
def alina : QboClass := ⟨"1", "Alina", "Alina", none⟩

/-- The class below it, whose parent is inferred. -/
def kitchens : QboClass := ⟨"2", "Kitchens", "Alina:Kitchens", some "1"⟩

theorem resolveParents_alina :
    resolveParents wholePlatform [alina, { kitchens with parentId := none }] =
      [alina, kitchens] := by
  decide +kernel

def alinaRow : Row wholePlatform.F64 := ⟨"Alina", some (1200 : Int), 1, .data, some "1"⟩

def kitchensRow : Row wholePlatform.F64 := ⟨"Kitchens", some (300 : Int), 1, .data, some "2"⟩

theorem alina_counted_iff_listed :
    alinaRow ∈ countedRows wholePlatform [alinaRow, kitchensRow] "Alina" ↔
      alinaRow.entityId.any (· ∈ classIdsForRep wholePlatform [alina, kitchens] "Alina") = true ∧
        matchesRep wholePlatform alina.name "Alina" = true :=
  counted_iff_listed wholePlatform_lawful (List.mem_cons_self ..) (List.mem_cons_self ..) rfl rfl
    rfl

/-- The class below the rep's is listed, and its row is not counted. -/
theorem kitchens_listed_not_counted :
    resolveParents wholePlatform [alina, { kitchens with parentId := none }] = [alina, kitchens] ∧
      kitchensRow.entityId = some kitchens.id ∧ kitchensRow.name = kitchens.name ∧
      kitchens.id ∈ classIdsForRep wholePlatform [alina, kitchens] "Alina" ∧
      kitchensRow ∉ countedRows wholePlatform [alinaRow, kitchensRow] "Alina" := by
  refine ⟨resolveParents_alina, rfl, rfl, ?_, fun hcounted => ?_⟩
  · have halina : alina.matchesRep wholePlatform "Alina" = true := by decide +kernel
    rw [mem_classIdsForRep_iff (by decide +kernel)]
    exact .child (List.mem_cons_of_mem _ (List.mem_cons_self ..)) rfl
      (.matched (List.mem_cons_self ..) halina)
  · have hkitchens : matchesRep wholePlatform "Kitchens" "Alina" = false := by decide +kernel
    have hmatch := (mem_countedRows.mp hcounted).2.2
    rw [show kitchensRow.name = "Kitchens" from rfl, hkitchens] at hmatch
    cases hmatch

/-! ## Whose sales -/

theorem trim_rep {args : Json} {own rep : String}
    (hrep : (optionalStr args "rep_name").getD (trim own) = rep) : trim rep = rep := by
  rcases harg : optionalStr args "rep_name" with _ | value
  · rw [harg, Option.getD_none] at hrep
    rw [← hrep, trim_trim]
  · rw [harg, Option.getD_some] at hrep
    rw [← hrep, trim_of_optionalStr harg]

/-- Whatever a user who is no admin asks for, the rep has the name of the user, up
to case and blanks. -/
theorem nameKey_of_rep (hP : P.Lawful) {args : Json} {own rep : String}
    (hrep : (optionalStr args "rep_name").getD (trim own) = rep)
    (hsame : eqIgnoreAsciiCase rep (trim own) = true) : nameKey P rep = nameKey P own := by
  rw [nameKey, nameKey, trim_rep hrep]
  exact hP.toLowercase_eq hsame

/-- What a result of `sales_rep` was made from. -/
structure RepRun (P : Platform) (answers : Request → Answer) (rep : String)
    (report : Report P.F64) (listed : List QboClass) (result : Json) : Prop where
  readsReport : ∃ start stop, (classSalesReport P start stop).eval answers = .ok report
  readsClasses : (classes P).eval answers = .ok listed
  amount : result.get? "classSalesAmount" = some (P.ofF64 (sumForRep P report.rows rep))
  matched : result.get? "matchedClasses" =
    some (.arr ((matchedClasses P listed rep).map fun c => .str c.fullyQualifiedName))

/-- A run of `rep_sales` that succeeds has the report and the classes that
QuickBooks answered with, and its figures are those of the two. -/
theorem repSales_run {answers : Request → Answer} {start stop rep : String} {result : Json}
    (h : (repSales P start stop rep).eval answers = .ok result) :
    ∃ report listed, RepRun P answers rep report listed result := by
  unfold repSales at h
  simp only [Dialogue.eval_bind] at h
  obtain ⟨report, hreport, h⟩ := Except.bind_eq_ok.mp h
  obtain ⟨listed, hlisted, h⟩ := Except.bind_eq_ok.mp h
  obtain ⟨⟨customers, total⟩, -, h⟩ := Except.bind_eq_ok.mp h
  cases h
  exact ⟨report, listed, ⟨start, stop, hreport⟩, hlisted, rfl, rfl⟩

/-- A user who is no admin gets the sales of a rep with the user's own name, or an
error. Which name was given is checked before anything is asked. -/
theorem salesRep_run (hP : P.Lawful) {session : Session} (hadmin : session.scope.isAdmin = false)
    {crm : Crm} {args result : Json} {answers : Request → Answer}
    (h : (salesRep P session (.ok crm) args).eval answers = .ok result) :
    ∃ rep report listed, nameKey P rep = nameKey P (crm.userName session.scope) ∧
      RepRun P answers rep report listed result := by
  unfold salesRep at h
  simp only [Dialogue.eval_bind] at h
  obtain ⟨start, -, h⟩ := Except.bind_eq_ok.mp h
  obtain ⟨stop, -, h⟩ := Except.bind_eq_ok.mp h
  generalize hrep :
    (optionalStr args "rep_name").getD (trim (crm.userName session.scope)) = rep at h
  split at h
  · cases h
  next hallowed =>
  split at h
  · cases h
  obtain ⟨report, listed, hrun⟩ := repSales_run h
  refine ⟨rep, report, listed, nameKey_of_rep hP hrep ?_, hrun⟩
  simpa [hadmin] using hallowed

/-- A class without a parent, with its own name as qualified name. -/
structure QboClass.TopLevel (cls : QboClass) : Prop where
  noParent : cls.parentId = none
  qualified : cls.fullyQualifiedName = cls.name
  noColon : ':' ∉ cls.name.toList

theorem QboClass.TopLevel.matchesRep_iff {cls : QboClass} (h : cls.TopLevel) (repName : String) :
    cls.matchesRep P repName = Jobctl.matchesRep P cls.name repName := by
  have hleaf : afterLastColon cls.name = cls.name := by
    have hself : cls.name.toList.rtakeWhile (· ≠ ':') = cls.name.toList := by
      rw [List.rtakeWhile_eq_self_iff]
      intro c hc
      have hne : c ≠ ':' := by
        rintro rfl
        exact h.noColon hc
      simpa using hne
    rw [afterLastColon, hself, String.ofList_toList]
  unfold QboClass.matchesRep
  rw [h.qualified, hleaf, Bool.or_self, Bool.or_self]

/-- A top-level class is listed for its own name, or for another class with its id:
it has no ancestor it could have got in by. -/
theorem listed_topLevel {listed : List QboClass} {repName : String} {cls : QboClass}
    (hcls : cls.TopLevel) (h : cls.id ∈ classIdsForRep P listed repName) :
    matchesRep P cls.name repName = true ∨ ∃ other ∈ listed, other ≠ cls ∧ other.id = cls.id := by
  generalize hid : cls.id = id at h
  cases listed_of_mem h with
  | @matched other hother hmatch =>
    by_cases heq : other = cls
    · rw [heq, hcls.matchesRep_iff] at hmatch
      exact .inl hmatch
    · exact .inr ⟨other, hother, heq, rfl⟩
  | @child other parent hother hparent _ =>
    -- a class without a parent is not added by the loop
    refine .inr ⟨other, hother, fun heq => ?_, rfl⟩
    rw [heq, hcls.noParent] at hparent
    cases hparent

/-- **Own sales only.** What a user who is no admin gets from `sales_rep` is the amount of
the counted rows and the matched classes of the user's own name. Of these, a row named after
somebody else, and a top-level class, is named after the user too, or the two names overlap
at the user's first name. -/
theorem own_sales_only (hP : P.Lawful) {session : Session}
    (hadmin : session.scope.isAdmin = false) {crm : Crm} {args result : Json}
    {answers : Request → Answer}
    (h : (salesRep P session (.ok crm) args).eval answers = .ok result) :
    ∃ rep report listed, RepRun P answers rep report listed result ∧
      ∀ person,
        (∀ row ∈ countedRows P report.rows rep, NamedAfter P row.name person →
          NamedAfter P row.name (crm.userName session.scope) ∨
            Overlaps P (crm.userName session.scope) person) ∧
        ∀ cls ∈ matchedClasses P listed rep, cls.TopLevel → NamedAfter P cls.name person →
          NamedAfter P cls.name (crm.userName session.scope) ∨
            Overlaps P (crm.userName session.scope) person ∨
            ∃ other ∈ listed, other ≠ cls ∧ other.id = cls.id := by
  obtain ⟨rep, report, listed, hkey, hrun⟩ := salesRep_run hP hadmin h
  -- `rep` may be spelled differently, but matches the same names
  refine ⟨rep, report, listed, hrun, fun person => ⟨fun row hrow hperson => ?_,
    fun cls hcls htop hperson => ?_⟩⟩
  · obtain ⟨-, -, hmatch⟩ := mem_countedRows.mp hrow
    rw [matchesRep_congr hkey] at hmatch
    exact matchesRep_or hmatch hperson
  · obtain ⟨-, hlisted⟩ := List.mem_filter.mp hcls
    rcases listed_topLevel htop (of_decide_eq_true hlisted) with hmatch | hother
    · rw [matchesRep_congr hkey] at hmatch
      rcases matchesRep_or hmatch hperson with hown | hoverlap
      · exact .inl hown
      · exact .inr (.inl hoverlap)
    · exact .inr (.inr hother)

/-- Two users of company 4; the first name of one is the name of the other. -/
def twoAlinas : Crm where
  customers := []
  users := [⟨3, 4, some "Alina Petrova"⟩, ⟨5, 4, some "Alina"⟩]

/-- The sales of one class, named after the second. -/
def alinaSales : Json :=
  .obj [("Rows", .obj [("Row", .arr [.obj [("ColData", .arr [
    .obj [("value", .str "Alina"), ("id", .str "5")], .obj [("value", .int 100)]])]])])]

/-- A server with these sales, and without classes. -/
def alinaServer : Request → Answer
  | .classSales _ _ => .success alinaSales
  | .query .classes => .queried "Class" []
  | _ => .response 404 "404 Not Found" (.error "")

theorem parseReport_alinaSales : (parseReport wholePlatform alinaSales).rows =
    [⟨"Alina", some (100 : Int), 0, .data, some "5"⟩] := by
  have hname : trim "Alina" = "Alina" := by decide +kernel
  have hid : trim "5" ≠ "" := by decide +kernel
  have hrows : ∀ value, (parseReport wholePlatform value).rows =
      (list ((value.index "Rows").index "Row")).flatMap (parseRow wholePlatform 0) := fun value =>
    parseRows_eq _ _ _
  rw [hrows]
  simp [alinaSales, list, parseRow, pushMember, pushRow, namedAmount, text, number,
    wholePlatform, Json.index, Json.get?, Json.members, Json.isObject, Json.asStr, hname, hid]

/-- Without classes there is nothing to list. -/
theorem classIdsForRep_nil (P : Platform) (repName : String) :
    classIdsForRep P [] repName = [] := by
  rw [List.eq_nil_iff_forall_not_mem]
  intro id hid
  cases listed_of_mem hid with
  | matched hcls _ => cases hcls
  | child hcls _ _ => cases hcls

theorem eval_classSalesReport {answers : Request → Answer} {start stop : String} {payload : Json}
    (hanswer : answers (.classSales start stop) = .success payload)
    (hfault : payload.get? "Fault" = none) :
    (classSalesReport P start stop).eval answers = .ok (parseReport P payload) := by
  have hread := readAnswer_success P (.classSales start stop) hfault
  simp [classSalesReport, hanswer, hread]

theorem eval_classes {answers : Request → Answer} {items : List Json}
    (hanswer : answers (.query .classes) = .queried "Class" items) :
    (classes P).eval answers = .ok (resolveParents P (items.filterMap (QboClass.parse P))) := by
  obtain ⟨payload, hread, hitems⟩ := readAnswer_queried P (.query .classes) "Class" items
  simp [classes, runQuery, hanswer, hread, hitems]

theorem eval_classSalesReport_alina (start stop : String) :
    (classSalesReport wholePlatform start stop).eval alinaServer =
      .ok (parseReport wholePlatform alinaSales) :=
  eval_classSalesReport rfl (by simp [alinaSales, Json.get?, Json.members])

theorem eval_classes_alina : (classes wholePlatform).eval alinaServer = .ok [] := by
  have hanswer : alinaServer (.query .classes) = .queried "Class" [] := rfl
  exact eval_classes hanswer

/-- Without classes there are no customers. -/
theorem eval_repSales_alina (start stop rep : String) :
    (repSales wholePlatform start stop rep).eval alinaServer =
      .ok (repReport wholePlatform start stop rep (parseReport wholePlatform alinaSales) [] []
        wholePlatform.zero) := by
  simp [repSales, eval_classSalesReport_alina, eval_classes_alina, classIdsForRep_nil, repCustomers]

/-- The sales of Alina Petrova. -/
theorem eval_salesRep_alina : ∃ result,
    (salesRep wholePlatform plainSession (.ok twoAlinas) yearArgs).eval alinaServer = .ok result ∧
    RepRun wholePlatform alinaServer "Alina Petrova" (parseReport wholePlatform alinaSales) []
      result := by
  obtain ⟨hstart, hstop⟩ := yearArgs_dates
  have hown : trim (twoAlinas.userName plainSession.scope) = "Alina Petrova" := by decide +kernel
  have hrep : optionalStr yearArgs "rep_name" = none := by
    simp [optionalStr, yearArgs, Json.get?, Json.members]
  have heval := eval_repSales_alina "2026-01-01" "2026-12-31" "Alina Petrova"
  refine ⟨repReport wholePlatform "2026-01-01" "2026-12-31" "Alina Petrova"
      (parseReport wholePlatform alinaSales) [] [] wholePlatform.zero, ?_,
    ⟨_, _, eval_classSalesReport_alina "2026-01-01" "2026-12-31"⟩, eval_classes_alina,
    rfl, rfl⟩
  simp only [salesRep, hstart, hstop, hown, hrep, Dialogue.done_ok_bind]
  exact heval

/-- The row of her colleague Alina is. -/
theorem colleague_counted :
    ∃ result row,
      (salesRep wholePlatform plainSession (.ok twoAlinas) yearArgs).eval alinaServer = .ok result ∧
      RepRun wholePlatform alinaServer "Alina Petrova" (parseReport wholePlatform alinaSales) []
        result ∧
      row ∈ countedRows wholePlatform (parseReport wholePlatform alinaSales).rows
        "Alina Petrova" ∧
      twoAlinas.userName plainSession.scope = "Alina Petrova" ∧
      (⟨5, 4, some "Alina"⟩ ∈ twoAlinas.users) ∧
      nameKey wholePlatform "Alina" ≠ nameKey wholePlatform "Alina Petrova" ∧
      NamedAfter wholePlatform row.name "Alina" ∧
      ¬ NamedAfter wholePlatform row.name "Alina Petrova" := by
  obtain ⟨result, heval, hrun⟩ := eval_salesRep_alina
  refine ⟨result, ⟨"Alina", some (100 : Int), 0, .data, some "5"⟩, heval, hrun, ?_, rfl, ?_, ?_⟩
  · rw [mem_countedRows, parseReport_alinaSales]
    exact ⟨List.mem_cons_self .., rfl, by decide +kernel⟩
  · simp [twoAlinas]
  · unfold NamedAfter
    decide +kernel

/-- Alina Petrova and Bob, of company 4. -/
def twoReps : Crm where
  customers := []
  users := [⟨3, 4, some "Alina Petrova"⟩, ⟨6, 4, some "Bob"⟩]

/-- A `Data` row of a report, as QuickBooks sends it. -/
def salesRow (name id : String) (amount : Int) : Json :=
  .obj [("ColData", .arr [.obj [("value", .str name), ("id", .str id)],
    .obj [("value", .int amount)]])]

/-- A class as QuickBooks sends it. -/
def sentClass (id name : String) : Json := .obj [("Id", .str id), ("Name", .str name)]

/-- The sales of the two classes. -/
def repsSales : Json :=
  .obj [("Rows", .obj [("Row", .arr [salesRow "Alina Petrova" "7" 100, salesRow "Bob" "8" 70])])]

/-- A server with a class for each, and no sales by customer. -/
def repsServer : Request → Answer
  | .classSales _ _ => .success repsSales
  | .customerSales _ _ _ => .success (.obj [])
  | .query .classes => .queried "Class" [sentClass "7" "Alina Petrova", sentClass "8" "Bob"]
  | .query _ => .queried "Invoice" []
  | _ => .response 404 "404 Not Found" (.error "")

def bobRow : Row wholePlatform.F64 := ⟨"Bob", some (70 : Int), 0, .data, some "8"⟩

def bobClass : QboClass := ⟨"8", "Bob", "Bob", none⟩

theorem parseReport_repsSales : (parseReport wholePlatform repsSales).rows =
    [⟨"Alina Petrova", some (100 : Int), 0, .data, some "7"⟩, bobRow] := by
  have hname : trim "Alina Petrova" = "Alina Petrova" := by decide +kernel
  have hbob : trim "Bob" = "Bob" := by decide +kernel
  have hid : trim "7" ≠ "" := by decide +kernel
  have hid' : trim "8" ≠ "" := by decide +kernel
  have hrows : ∀ value, (parseReport wholePlatform value).rows =
      (list ((value.index "Rows").index "Row")).flatMap (parseRow wholePlatform 0) := fun value =>
    parseRows_eq _ _ _
  rw [hrows]
  simp [repsSales, salesRow, bobRow, list, parseRow, pushMember, pushRow, namedAmount, text, number,
    wholePlatform, Json.index, Json.get?, Json.members, Json.isObject, Json.asStr, hname, hbob, hid,
    hid']

def repsClasses : List QboClass := [⟨"7", "Alina Petrova", "Alina Petrova", none⟩, bobClass]

theorem eval_classes_reps : (classes wholePlatform).eval repsServer = .ok repsClasses := by
  have hresolve : resolveParents wholePlatform ([sentClass "7" "Alina Petrova",
      sentClass "8" "Bob"].filterMap (QboClass.parse wholePlatform)) = repsClasses := by
    decide +kernel
  have hanswer : repsServer (.query .classes) =
      .queried "Class" [sentClass "7" "Alina Petrova", sentClass "8" "Bob"] := rfl
  rw [eval_classes hanswer, hresolve]

theorem eval_repCustomers_reps (start stop : String) (classIds : List String) :
    ∃ found, (repCustomers wholePlatform start stop classIds).eval repsServer = .ok found := by
  unfold repCustomers
  split
  · exact ⟨_, rfl⟩
  · obtain ⟨payload, hread, hitems⟩ := readAnswer_queried wholePlatform
      (.query (.invoicesBetween start stop 1)) "Invoice" []
    have hfault : (Json.obj []).get? "Fault" = none := rfl
    have hsales := readAnswer_success wholePlatform (.customerSales start stop classIds) hfault
    have hpages : (invoicesBetween wholePlatform start stop).eval repsServer = .ok [] := by
      simp [invoicesBetween, maxPages, invoicePages, runQuery, repsServer, hread, hitems, pageSize]
    simp [repsServer, hsales, hpages]

/-- The sales of Alina Petrova, who has a colleague Bob. -/
theorem eval_salesRep_reps : ∃ result,
    (salesRep wholePlatform plainSession (.ok twoReps) yearArgs).eval repsServer = .ok result := by
  obtain ⟨hstart, hstop⟩ := yearArgs_dates
  have hown : trim (twoReps.userName plainSession.scope) = "Alina Petrova" := by decide +kernel
  have hrep : optionalStr yearArgs "rep_name" = none := by
    simp [optionalStr, yearArgs, Json.get?, Json.members]
  have hreport : (classSalesReport wholePlatform "2026-01-01" "2026-12-31").eval repsServer =
      .ok (parseReport wholePlatform repsSales) :=
    eval_classSalesReport rfl (by simp [repsSales, Json.get?, Json.members])
  obtain ⟨found, hfound⟩ := eval_repCustomers_reps "2026-01-01" "2026-12-31"
    (classIdsForRep wholePlatform repsClasses "Alina Petrova")
  have heval : (repSales wholePlatform "2026-01-01" "2026-12-31" "Alina Petrova").eval repsServer =
      .ok (repReport wholePlatform "2026-01-01" "2026-12-31" "Alina Petrova"
        (parseReport wholePlatform repsSales) repsClasses found.1 found.2) := by
    simp [repSales, hreport, eval_classes_reps, hfound]
  refine ⟨repReport wholePlatform "2026-01-01" "2026-12-31" "Alina Petrova"
    (parseReport wholePlatform repsSales) repsClasses found.1 found.2, ?_⟩
  simp only [salesRep, hstart, hstop, hown, hrep, Dialogue.done_ok_bind]
  exact heval

/-- Bob's row is in the report and his class in the list, and neither is counted or matched for
Alina Petrova. -/
theorem bob_not_counted :
    ∃ rep report listed result, RepRun wholePlatform repsServer rep report listed result ∧
      bobRow ∈ report.rows ∧ NamedAfter wholePlatform bobRow.name "Bob" ∧
      bobRow ∉ countedRows wholePlatform report.rows rep ∧
      bobClass ∈ listed ∧ bobClass.TopLevel ∧ NamedAfter wholePlatform bobClass.name "Bob" ∧
      bobClass ∉ matchedClasses wholePlatform listed rep := by
  obtain ⟨result, heval⟩ := eval_salesRep_reps
  obtain ⟨rep, report, listed, hrun, hothers⟩ := own_sales_only wholePlatform_lawful rfl heval
  have hreport : report = parseReport wholePlatform repsSales := by
    obtain ⟨start, stop, hreads⟩ := hrun.readsReport
    rw [eval_classSalesReport rfl (by simp [repsSales, Json.get?, Json.members])] at hreads
    cases hreads
    rfl
  have hlisted : listed = repsClasses := by
    have hreads := hrun.readsClasses
    rw [eval_classes_reps] at hreads
    cases hreads
    rfl
  have hnamed : NamedAfter wholePlatform "Bob" "Bob" := by decide +kernel
  have hown : ¬ NamedAfter wholePlatform "Bob" (twoReps.userName plainSession.scope) := by
    decide +kernel
  have hoverlap : ¬ Overlaps wholePlatform (twoReps.userName plainSession.scope) "Bob" := by
    decide +kernel
  have htop : bobClass.TopLevel := ⟨rfl, rfl, by decide⟩
  refine ⟨rep, report, listed, result, hrun, ?_, hnamed, fun hcounted => ?_, ?_, htop, hnamed,
    fun hmatched => ?_⟩
  · rw [hreport, parseReport_repsSales]
    simp
  · rcases (hothers "Bob").1 bobRow hcounted hnamed with h | h
    · exact hown h
    · exact hoverlap h
  · rw [hlisted]
    simp [repsClasses]
  · rcases (hothers "Bob").2 bobClass hmatched htop hnamed with h | h | ⟨other, hother, hne, hid⟩
    · exact hown h
    · exact hoverlap h
    · rw [hlisted] at hother
      rcases List.mem_pair.mp hother with rfl | rfl
      · exact absurd hid (by decide)
      · exact hne rfl

end JobRunner.Jobctl
