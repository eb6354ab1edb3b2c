import JobRunner.Jobctl.Invoices

/-!
# The customer tools (`jobctl::qbo`)

Any employee may read the invoices of a QuickBooks customer that is linked to the CRM:
`customers.qbo_id` names it. `linked_crm_customers` looks links up by number and hands
them out by the printed number.

- `Crm`: the rows of the chat application that the tools read.
- `linkedCrmCustomers`: the lookup.
- `searchCustomers`, `customerInvoices`, `invoice`: the tools.
- `hides_unlinked`: a user who is no admin learns nothing about an unlinked customer.
-/

open Text Decimal

namespace JobRunner.Jobctl

/-! ## The CRM -/

/-- A row of `customers`, with the address that joining `customers_emails` finds. -/
structure Customer where
  id : Int
  companyId : Int
  name : Option String
  qboId : Option Int
  email : Option String
  deleted : Bool
deriving DecidableEq, Repr

/-- A row of `users`. -/
structure User where
  id : Int
  companyId : Int
  name : Option String
deriving DecidableEq, Repr

structure Crm where
  customers : List Customer
  users : List User

/-- The live customers of a company. -/
def Crm.live (crm : Crm) (companyId : Int) : List Customer :=
  crm.customers.filter fun c => c.companyId = companyId && !c.deleted

/-- The map of `linked_crm_customers`, entry by entry. -/
abbrev LinkedCustomers := List (String × Json)

/-- `BTreeMap::get`. -/
def LinkedCustomers.get? (linked : LinkedCustomers) (qboId : String) : Option (List Json) :=
  match linked.filter (·.1 = qboId) with
  | [] => none
  | entries => some (entries.map Prod.snd)

/-- `ids` of `linked_crm_customers`. -/
def queriedIds (qboIds : List String) : List Int := (qboIds.filter isEntityId).filterMap parseI64

/-- `linked_crm_customers`; `crm` is the table, or the error of the statement. -/
def linkedCrmCustomers (crm : Except SqlError Crm) (companyId : Int) (qboIds : List String) :
    Except ToolError LinkedCustomers :=
  if queriedIds qboIds = [] then .ok []
  else
    match crm with
    | .error err => .error (.database err)
    | .ok crm =>
      .ok ((crm.live companyId).filterMap fun c =>
        match c.qboId with
        | some n =>
          if n ∈ queriedIds qboIds then
            some (toString n, .obj [("customerId", .int c.id), ("name", .ofOption c.name)])
          else none
        | none => none)

/-- A live customer of the company has this QuickBooks id. -/
def Crm.Linked (crm : Crm) (companyId : Int) (qboId : String) : Prop :=
  ∃ c ∈ crm.live companyId, c.qboId.map toString = some qboId

/-- What is found is linked: the lookup asks for the company's own links, so another
company's customer is not among them. -/
theorem linked_of_get? {crm : Crm} {companyId : Int} {qboIds : List String}
    {linked : LinkedCustomers} (h : linkedCrmCustomers (.ok crm) companyId qboIds = .ok linked)
    {qboId : String} (hsome : (linked.get? qboId).isSome = true) : crm.Linked companyId qboId := by
  have hentry : ∃ e ∈ linked, e.1 = qboId := by
    by_contra hnone
    push Not at hnone
    have hfilter : linked.filter (·.1 = qboId) = [] := by simpa using hnone
    unfold LinkedCustomers.get? at hsome
    rw [hfilter] at hsome
    cases hsome
  -- the key of an entry is the printed id of its row
  obtain ⟨e, he, hkey⟩ := hentry
  unfold linkedCrmCustomers at h
  split at h
  · cases h
    cases he
  · cases h
    obtain ⟨c, hc, hrow⟩ := List.mem_filterMap.mp he
    refine ⟨c, hc, ?_⟩
    split at hrow
    next n hn =>
      split at hrow
      · cases hrow
        rw [hn, Option.map_some, ← hkey]
      · cases hrow
    · cases hrow

/-! ## QuickBooks customers -/

variable (P : Platform)

/-- `QboCustomer`. -/
structure QboCustomer where
  id : String
  displayName : String
  email : Option String
deriving DecidableEq, Repr

/-- `QboCustomer::parse`. -/
def QboCustomer.parse (value : Json) : Option QboCustomer :=
  (text P (value.index "Id")).map fun id =>
    { id := id
      displayName := (text P (value.index "DisplayName")).getD ("QuickBooks customer " ++ id)
      email := text P ((value.index "PrimaryEmailAddr").index "Address") }

/-- `customers_by_name`. -/
def customersByName (name : String) : Asking (List QboCustomer) := do
  let payload ← runQuery P (.customersByName name)
  return (entities payload "Customer").filterMap (QboCustomer.parse P)

/-- `if let [only] = …`. -/
def only {α : Type} : List α → Option α
  | [a] => some a
  | _ => none

/-- `pick_by_name`. -/
def pickByName (candidates : List QboCustomer) (name email : String) : Option String :=
  let key (value : String) := P.toLowercase (trim value)
  let sameEmail (c : QboCustomer) : Bool := key email ≠ "" && c.email.map key = some (key email)
  let exact := candidates.filter fun c => key c.displayName = key name
  (((only exact).or (if 1 < exact.length then only (exact.filter sameEmail) else none)).or
    ((only (candidates.filter sameEmail)).or (only candidates))).map QboCustomer.id

/-- The email part of `resolve_customer`: the only customer with the address. -/
def customerByEmail (email : String) : Asking (Option QboCustomer) :=
  if email = "" then return none
  else do
    let payload ← runQuery P (.customersByEmail email)
    return (only (entities payload "Customer")).bind (QboCustomer.parse P)

/-- `resolve_customer`: the id, and what it was matched by. -/
def resolveCustomer (name email : String) : Asking (Option (String × String)) := do
  let byEmail ← customerByEmail P email
  match byEmail with
  | some customer => return some (customer.id, "email")
  | none =>
    if name = "" then return none
    else do
      let candidates ← customersByName P name
      return (pickByName P candidates name email).map fun id => (id, "name")

/-! ## The tools -/

variable (session : Session) (crm : Except SqlError Crm) (args : Json)

/-- `search_customers`. -/
def searchCustomers : Asking Json := do
  let name ← .done (requiredStr args "name")
  let customers ← customersByName P name
  let linked ← .done (linkedCrmCustomers crm session.scope.companyId (customers.map (·.id)))
  return .arr (customers.map fun c => .obj [
    ("qboCustomerId", .str c.id),
    ("displayName", .str c.displayName),
    ("email", .ofOption c.email),
    ("crmCustomers", .arr ((linked.get? c.id).getD []))])

/-- The statement of `crm_customer_invoices`. -/
def Crm.customer? (crm : Crm) (companyId id : Int) : Option Customer :=
  (crm.live companyId).find? (·.id = id)

/-- The QuickBooks id of a CRM customer: the link, or the one match. -/
def qboIdOf (customer : Customer) : Asking (String × String) := do
  match customer.qboId.filter (0 < ·) with
  | some qboId => return (toString qboId, "customers.qbo_id")
  | none => do
    let found ← resolveCustomer P (trim (customer.name.getD "")) (trim (customer.email.getD ""))
    match found with
    | some found => return found
    | none => .fail (.notFound ("customer " ++ toString customer.id ++
        " is not linked to QuickBooks and no QuickBooks customer matches their email or name"))

/-- `crm_customer_invoices`. -/
def crmCustomerInvoices (customerId : Int) : Asking Json := do
  match crm with
  | .error err => .fail (.database err)
  | .ok crm =>
    match crm.customer? session.scope.companyId customerId with
    | none => .fail (.notFound ("customer " ++ toString customerId ++ " not found"))
    | some customer => do
      let (qboId, matchedBy) ← qboIdOf P customer
      let invoices ← invoicesForCustomer P qboId
      return .obj [
        ("customerId", .int customer.id),
        ("customerName", .str (customer.name.getD "")),
        ("qboCustomerId", .str qboId),
        ("matchedBy", .str matchedBy),
        ("invoices", .arr invoices)]

/-- The answer about a customer that is not linked. -/
def unlinkedCustomer : ToolError :=
  .denied "this QuickBooks customer is not linked to a CRM customer; only admins can see it"

/-- `customer_invoices`. -/
def customerInvoices : Asking Json := do
  let customerId ← .done (optionalPositive args "customer_id")
  let qboCustomerId ← .done (optionalEntityId P args "qbo_customer_id")
  match customerId, qboCustomerId with
  | some customerId, none => crmCustomerInvoices P session crm customerId
  | none, some qboId => do
    let linked ← .done (linkedCrmCustomers crm session.scope.companyId [qboId])
    if !session.scope.isAdmin && (linked.get? qboId).isNone then .fail unlinkedCustomer
    else do
      let invoices ← invoicesForCustomer P qboId
      return .obj [
        ("qboCustomerId", .str qboId),
        ("crmCustomers", .arr ((linked.get? qboId).getD [])),
        ("invoices", .arr invoices)]
  | _, _ =>
    .fail (.invalidArgument "pass exactly one of customer_id (CRM) or qbo_customer_id")

/-- The invoice in an answer. -/
def answeredInvoice (payload : Json) : Json := (payload.get? "Invoice").getD payload

/-- The customer an invoice refers to. -/
def invoiceCustomer (invoice : Json) : Option String :=
  ((invoice.index "CustomerRef").index "value").asStr

/-- The answer about an invoice whose customer is not linked. -/
def unlinkedInvoice : ToolError :=
  .denied
    "this invoice's customer is not linked to a CRM customer; only admins can see it"

/-- `invoice`. -/
def invoice : Asking Json := do
  let invoiceId? ← .done (optionalEntityId P args "invoice_id")
  match invoiceId? with
  | none => .fail (.invalidArgument "invoice_id is required")
  | some invoiceId => do
    let payload ← get P (.invoice invoiceId)
    let invoice := answeredInvoice payload
    let customer := invoiceCustomer invoice
    let linked ← .done
      (match customer with
        | some id => linkedCrmCustomers crm session.scope.companyId [id]
        | none => .ok [])
    let found := customer.bind linked.get?
    if !session.scope.isAdmin && found.isNone then .fail unlinkedInvoice
    else return .obj [("crmCustomers", .arr (found.getD [])), ("invoice", invoice)]

/-! ## What is hidden -/

variable {P} {session} {args}

/-- The request of `invoice` succeeds, with an invoice of a customer that is not linked. -/
def HiddenInvoice (P : Platform) (crm : Crm) (companyId : Int) (args : Json)
    (answers : Request → Answer) : Prop :=
  ∀ id, optionalEntityId P args "invoice_id" = .ok (some id) →
    ∃ payload, readAnswer P (.invoice id) (answers (.invoice id)) = .ok payload ∧
      ∀ qboId, invoiceCustomer (answeredInvoice payload) = some qboId → ¬ crm.Linked companyId qboId

/-- The lookup of a customer that is not linked succeeds and finds nothing. So the
answer is the same for every such customer. -/
theorem lookup_unlinked {crm : Crm} {companyId : Int} {qboId : String}
    (h : ¬ crm.Linked companyId qboId) :
    ∃ linked, linkedCrmCustomers (.ok crm) companyId [qboId] = .ok linked ∧
      linked.get? qboId = none := by
  obtain ⟨linked, hlinked⟩ : ∃ linked,
      linkedCrmCustomers (.ok crm) companyId [qboId] = .ok linked := by
    unfold linkedCrmCustomers
    split
    · exact ⟨_, rfl⟩
    · exact ⟨_, rfl⟩
  refine ⟨linked, hlinked, ?_⟩
  by_contra hsome
  exact h (linked_of_get? hlinked (Option.isSome_iff_ne_none.mpr hsome))

/-- Whatever else an unlinked invoice holds, it is denied, with the same text for
every one. -/
theorem eval_invoice_hidden (hadmin : session.scope.isAdmin = false) {crm : Crm}
    {answers : Request → Answer} (h : HiddenInvoice P crm session.scope.companyId args answers)
    {id : String} (hid : optionalEntityId P args "invoice_id" = .ok (some id)) :
    (invoice P session (.ok crm) args).eval answers = .error unlinkedInvoice := by
  obtain ⟨payload, hpayload, hcustomer⟩ := h id hid
  obtain ⟨linked, hlinked, hnone⟩ : ∃ linked,
      (match invoiceCustomer (answeredInvoice payload) with
        | some id => linkedCrmCustomers (.ok crm) session.scope.companyId [id]
        | none => .ok []) = .ok linked ∧
      (invoiceCustomer (answeredInvoice payload)).bind linked.get? = none := by
    rcases hc : invoiceCustomer (answeredInvoice payload) with _ | qboId
    · -- a reference that is no text is not looked up
      exact ⟨[], rfl, rfl⟩
    · exact lookup_unlinked (hcustomer qboId hc)
  simp only [invoice, Dialogue.eval_bind, Dialogue.eval_done, hid, Except.bind_ok, eval_get,
    hpayload, hlinked, hnone, hadmin]
  rfl

/-- An unlinked customer is denied without a question: the links are looked up in
the CRM first. -/
theorem customerInvoices_unlinked (hadmin : session.scope.isAdmin = false) {crm : Crm}
    {id : String} (hid : optionalEntityId P args "qbo_customer_id" = .ok (some id))
    (h : ¬ crm.Linked session.scope.companyId id) :
    ∃ err, customerInvoices P session (.ok crm) args = .done (.error err) := by
  obtain ⟨linked, hlinked, hnone⟩ := lookup_unlinked h
  unfold customerInvoices
  rcases optionalPositive args "customer_id" with err | customerId
  · exact ⟨err, rfl⟩
  rw [hid]
  cases customerId with
  | some customerId => exact ⟨_, rfl⟩
  | none =>
    refine ⟨unlinkedCustomer, ?_⟩
    simp only [Dialogue.done_ok_bind, hlinked, hnone, hadmin]
    rfl

/-- **Noninterference.** A user who is no admin cannot tell two invoices of unlinked
customers apart, and is denied the invoices of an unlinked customer without QuickBooks being
asked. -/
theorem hides_unlinked (hadmin : session.scope.isAdmin = false) (crm : Crm) (args : Json) :
    (∀ answers₁ answers₂, HiddenInvoice P crm session.scope.companyId args answers₁ →
      HiddenInvoice P crm session.scope.companyId args answers₂ →
      (invoice P session (.ok crm) args).eval answers₁ =
        (invoice P session (.ok crm) args).eval answers₂) ∧
    ∀ id, optionalEntityId P args "qbo_customer_id" = .ok (some id) →
      ¬ crm.Linked session.scope.companyId id →
      ∃ err, customerInvoices P session (.ok crm) args = .done (.error err) := by
  refine ⟨fun answers₁ answers₂ h₁ h₂ => ?_, fun id hid => customerInvoices_unlinked hadmin hid⟩
  rcases hid : optionalEntityId P args "invoice_id" with err | invoiceId?
  · simp only [invoice, hid, Dialogue.done_error_bind, Dialogue.eval_done]
  · cases invoiceId? with
    | none =>
      simp only [invoice, hid, Dialogue.done_ok_bind, Dialogue.eval_fail]
    | some id => rw [eval_invoice_hidden hadmin h₁ hid, eval_invoice_hidden hadmin h₂ hid]

/-- User 3 of company 4, no admin. -/
def plainSession : Session :=
  ⟨"https://quickbooks.api.intuit.com/v3/company/9130", "access-1", ⟨4, 3, false⟩⟩

/-- Company 4 has linked one customer, with the QuickBooks id 9. -/
def sampleCrm : Crm where
  customers := [⟨1, 4, some "Acme", some 9, none, false⟩]
  users := [⟨3, 4, some "Alina Petrova"⟩]

/-- Every invoice is of this customer. -/
def invoiceOf (qboId : String) : Request → Answer := fun _ =>
  .success (.obj [("Invoice", .obj [("CustomerRef", .obj [("value", .str qboId)])])])

theorem sampleCrm_linked {qboId : String} (h : sampleCrm.Linked 4 qboId) : qboId = "9" := by
  obtain ⟨c, hc, hid⟩ := h
  have hc' : c = ⟨1, 4, some "Acme", some 9, none, false⟩ := by
    simpa [sampleCrm, Crm.live] using hc
  rw [hc'] at hid
  exact (Option.some.inj hid).symm

theorem invoiceOf_hidden {qboId : String} (h : qboId ≠ "9") (args : Json) :
    HiddenInvoice P sampleCrm 4 args (invoiceOf qboId) := by
  refine fun id _ => ⟨_, readAnswer_success P _ (by simp [Json.get?, Json.members]), ?_⟩
  intro qboId' hcustomer hlinked
  have heq : qboId' = qboId := by
    simpa [invoiceCustomer, answeredInvoice, Json.index, Json.get?, Json.members, Json.asStr,
      eq_comm] using hcustomer
  exact h (heq ▸ sampleCrm_linked hlinked)

/-- The invoices of the unlinked customers 12 and 13 look the same. -/
theorem unlinked_look_alike :
    (invoice wholePlatform plainSession (.ok sampleCrm) (.obj [("invoice_id", .int 1)])).eval
        (invoiceOf "12") =
      (invoice wholePlatform plainSession (.ok sampleCrm) (.obj [("invoice_id", .int 1)])).eval
        (invoiceOf "13") :=
  (hides_unlinked rfl sampleCrm (.obj [("invoice_id", .int 1)])).1 _ _
    (invoiceOf_hidden (by decide) _) (invoiceOf_hidden (by decide) _)

end JobRunner.Jobctl
