import JobRunner.Jobctl.Api

/-!
# Reading invoices (`jobctl::qbo`)

QuickBooks answers a query by at most a page of its matches. `invoices_between` asks for
page after page until one is short or `MAX_PAGES` have come; `invoices_for_customer` asks
once.

- `Slice`: the answer to one query, from the list of its matches.
- `eval_invoicesBetween`: the matches of a range, up to the bound on pages.
- `eval_invoicesForCustomer`: the matches of a customer, up to one page, newest first.
- `invoices_returned`: what is complete, and up to where.
-/

namespace JobRunner.Jobctl

variable (P : Platform)

/-! ## Summaries -/

/-- `address`. -/
def address (value : Json) : Option String :=
  let parts := ["Line1", "Line2", "Line3", "City", "CountrySubDivisionCode", "PostalCode"].filterMap
    fun field => text P (value.index field)
  if parts = [] then none else some (", ".intercalate parts)

/-- `invoice_summary`. -/
def invoiceSummary (invoice : Json) : Json :=
  .obj [
    ("id", .ofOption (text P (invoice.index "Id"))),
    ("docNumber", .ofOption (text P (invoice.index "DocNumber"))),
    ("txnDate", .ofOption (text P (invoice.index "TxnDate"))),
    ("dueDate", .ofOption (text P (invoice.index "DueDate"))),
    ("totalAmt", ofNumber P (number P (invoice.index "TotalAmt"))),
    ("balance", ofNumber P (number P (invoice.index "Balance"))),
    ("currency", .ofOption (text P ((invoice.index "CurrencyRef").index "value"))),
    ("qboCustomerId", .ofOption (text P ((invoice.index "CustomerRef").index "value"))),
    ("customerName", .ofOption (text P ((invoice.index "CustomerRef").index "name"))),
    ("projectAddress", .ofOption (address P (invoice.index "ShipAddr")))]

/-- `["txnDate"].as_str().unwrap_or("")`. -/
def txnDate (summary : Json) : String := ((summary.index "txnDate").asStr).getD ""

/-! ## The queries -/

/-- `invoices_for_customer`; `sort_by` is stable. -/
def invoicesForCustomer (qboCustomerId : String) : Asking (List Json) := do
  let payload ← runQuery P (.invoicesForCustomer qboCustomerId)
  let invoices := (entities payload "Invoice").map (invoiceSummary P)
  return invoices.mergeSort fun a b => txnDate b ≤ txnDate a

/-- The loop of `invoices_between`, with `left` pages to go. -/
def invoicePages (start stop : String) : Nat → Nat → List Json → Asking (List Json)
  | 0, _, all => return all
  | left + 1, page, all => do
    let payload ← runQuery P (.invoicesBetween start stop (page * pageSize + 1))
    let batch := entities payload "Invoice"
    if batch.length < pageSize then return all ++ batch
    else invoicePages start stop left (page + 1) (all ++ batch)

/-- `invoices_between`. -/
def invoicesBetween (start stop : String) : Asking (List Json) :=
  invoicePages P start stop maxPages 0 []

/-- The result of `invoices_in_range`. -/
def rangeReport (start stop : String) (invoices : List Json) : Json :=
  .obj [
    ("startDate", .str start),
    ("endDate", .str stop),
    ("count", .int invoices.length),
    ("totalAmt", P.ofF64 (total P (invoices.filterMap fun i => number P (i.index "TotalAmt")))),
    ("openBalance", P.ofF64 (total P (invoices.filterMap fun i => number P (i.index "Balance")))),
    ("invoices", .arr (invoices.map (invoiceSummary P)))]

/-- `invoices_in_range`. -/
def invoicesInRange (args : Json) : Asking Json := do
  let start ← .done (requiredDate args "start_date")
  let stop ← .done (requiredDate args "end_date")
  let invoices ← invoicesBetween P start stop
  return rangeReport P start stop invoices

/-! ## A server with a fixed list -/

variable {P}

/-- The server answers `req` by at most a page of `matching`, from `position` on. -/
def Slice (P : Platform) (answers : Request → Answer) (req : Request) (matching : List Json)
    (position : Nat) : Prop :=
  ∃ payload, readAnswer P req (answers req) = .ok payload ∧
    entities payload "Invoice" = (matching.drop (position - 1)).take pageSize

/-- The server answers every `STARTPOSITION` of a range from one list. -/
def ServesRange (P : Platform) (answers : Request → Answer) (start stop : String)
    (matching : List Json) : Prop :=
  ∀ position, 1 ≤ position →
    Slice P answers (.query (.invoicesBetween start stop position)) matching position

/-- The server answers the query of a customer from one list. -/
def ServesCustomer (P : Platform) (answers : Request → Answer) (qboCustomerId : String)
    (matching : List Json) : Prop :=
  Slice P answers (.query (.invoicesForCustomer qboCustomerId)) matching 1

variable {answers : Request → Answer} {start stop : String} {matching : List Json}

/-- A page is the last one exactly when it is short. -/
theorem take_pages (matching : List Json) (left page : Nat) :
    (matching.drop (page * pageSize)).take ((left + 1) * pageSize) =
      (matching.drop (page * pageSize)).take pageSize ++
        if ((matching.drop (page * pageSize)).take pageSize).length < pageSize then []
        else (matching.drop ((page + 1) * pageSize)).take (left * pageSize) := by
  have hnext : (page + 1) * pageSize = page * pageSize + pageSize := Nat.succ_mul ..
  have hleft : (left + 1) * pageSize = pageSize + left * pageSize := by
    rw [Nat.succ_mul, Nat.add_comm]
  rw [hleft, List.take_add, hnext, ← List.drop_drop]
  split
  next hshort =>
    -- nothing is left behind a short page
    rw [List.length_take] at hshort
    rw [List.drop_eq_nil_of_le (show (matching.drop (page * pageSize)).length ≤ pageSize by omega),
      List.take_nil]
  · rfl

/-- The loop collects what is left of the list, up to the bound on pages. By
induction on the pages that are left, for any page and whatever has been collected. -/
theorem eval_invoicePages (h : ServesRange P answers start stop matching) (left page : Nat)
    (all : List Json) :
    (invoicePages P start stop left page all).eval answers =
      .ok (all ++ (matching.drop (page * pageSize)).take (left * pageSize)) := by
  induction left generalizing page all with
  | zero =>
    rw [Nat.zero_mul, List.take_zero, List.append_nil]
    rfl
  | succ left ih =>
    -- the server counts from one
    obtain ⟨payload, hpayload, hbatch⟩ := h (page * pageSize + 1) (by omega)
    rw [Nat.add_sub_cancel] at hbatch
    rw [take_pages]
    simp only [invoicePages, runQuery, Dialogue.eval_bind, eval_get, hpayload, Except.bind_ok,
      hbatch]
    split
    · rw [List.append_nil]
      rfl
    · rw [ih, List.append_assoc]

/-- The first ten thousand invoices of the range, in order: `MAX_PAGES` pages of a
thousand. -/
theorem eval_invoicesBetween (h : ServesRange P answers start stop matching) :
    (invoicesBetween P start stop).eval answers = .ok (matching.take (maxPages * pageSize)) := by
  have hpages := eval_invoicePages h maxPages 0 []
  rwa [Nat.zero_mul, List.drop_zero, List.nil_append] at hpages

/-- The first thousand invoices of the customer, as one page is asked for and no
more. -/
theorem eval_invoicesForCustomer {qboCustomerId : String}
    (h : ServesCustomer P answers qboCustomerId matching) :
    (invoicesForCustomer P qboCustomerId).eval answers =
      .ok (((matching.take pageSize).map (invoiceSummary P)).mergeSort
        fun a b => txnDate b ≤ txnDate a) := by
  obtain ⟨payload, hpayload, hbatch⟩ := h
  simp only [invoicesForCustomer, runQuery, Dialogue.eval_bind, eval_get, hpayload,
    Except.bind_ok, hbatch, Nat.sub_self, List.drop_zero]
  rfl

/-- **What is complete.** Of a range, the first `MAX_PAGES` pages of invoices are returned,
each once and in order, and the figures of `invoices_in_range` are those of these invoices;
of a customer with at most one page of invoices, each is returned once. -/
theorem invoices_returned {qboCustomerId : String} {own : List Json}
    (hrange : ServesRange P answers start stop matching)
    (hcustomer : ServesCustomer P answers qboCustomerId own) :
    (invoicesBetween P start stop).eval answers = .ok (matching.take (maxPages * pageSize)) ∧
    (∀ args, requiredDate args "start_date" = .ok start → requiredDate args "end_date" = .ok stop →
      (invoicesInRange P args).eval answers =
        .ok (rangeReport P start stop (matching.take (maxPages * pageSize)))) ∧
    (own.length ≤ pageSize → ∃ result,
      (invoicesForCustomer P qboCustomerId).eval answers = .ok result ∧
        result.Perm (own.map (invoiceSummary P))) := by
  refine ⟨eval_invoicesBetween hrange, fun args hstart hstop => ?_, fun hlen => ?_⟩
  · simp only [invoicesInRange, Dialogue.eval_bind, Dialogue.eval_done, hstart, hstop,
      Except.bind_ok, eval_invoicesBetween hrange]
    rfl
  · refine ⟨_, eval_invoicesForCustomer hcustomer, ?_⟩
    rw [List.take_of_length_le hlen]
    exact List.mergeSort_perm ..

/-- A server with `matching` in every range and `own` of every customer. -/
def accountServer (matching own : List Json) : Request → Answer
  | .query (.invoicesBetween _ _ position) =>
    .queried "Invoice" ((matching.drop (position - 1)).take pageSize)
  | .query (.invoicesForCustomer _) => .queried "Invoice" (own.take pageSize)
  | _ => .response 404 "404 Not Found" (.error "")

theorem accountServer_servesRange (start stop : String) (matching own : List Json) :
    ServesRange P (accountServer matching own) start stop matching := fun _ _ =>
  readAnswer_queried P _ _ _

theorem accountServer_servesCustomer (qboCustomerId : String) (matching own : List Json) :
    ServesCustomer P (accountServer matching own) qboCustomerId own :=
  readAnswer_queried P _ _ _

/-- A server of these invoices, all of one customer and in every range. -/
def invoiceServer (matching : List Json) : Request → Answer := accountServer matching matching

/-- The arguments for a year. -/
def yearArgs : Json := .obj [("start_date", .str "2026-01-01"), ("end_date", .str "2026-12-31")]

theorem yearArgs_dates : requiredDate yearArgs "start_date" = .ok "2026-01-01" ∧
    requiredDate yearArgs "end_date" = .ok "2026-12-31" :=
  ⟨requiredDate_of rfl (by decide +kernel) (by decide +kernel),
    requiredDate_of rfl (by decide +kernel) (by decide +kernel)⟩

/-- An invoice of the year, with its number. -/
def numberedInvoice (n : Nat) : Json :=
  .obj [("Id", .str (toString n)), ("TxnDate", .str "2026-03-01"), ("TotalAmt", .int n),
    ("Balance", .int 0)]

/-- Three pages of invoices, the last one short: all are returned, once and in order, and two of
a customer. -/
theorem three_pages_returned :
    let server := accountServer ((List.range 2500).map numberedInvoice)
      [numberedInvoice 7, numberedInvoice 1800]
    (invoicesBetween wholePlatform "2026-01-01" "2026-12-31").eval server =
        .ok ((List.range 2500).map numberedInvoice) ∧
      (invoicesInRange wholePlatform yearArgs).eval server =
        .ok (rangeReport wholePlatform "2026-01-01" "2026-12-31"
          ((List.range 2500).map numberedInvoice)) ∧
      ∃ result, (invoicesForCustomer wholePlatform "9").eval server = .ok result ∧
        result.Perm ([numberedInvoice 7, numberedInvoice 1800].map
          (invoiceSummary wholePlatform)) := by
  intro server
  obtain ⟨hrange, hreport, hcustomer⟩ := invoices_returned
    (accountServer_servesRange "2026-01-01" "2026-12-31" ((List.range 2500).map numberedInvoice)
      [numberedInvoice 7, numberedInvoice 1800])
    (accountServer_servesCustomer "9" ((List.range 2500).map numberedInvoice) _)
  have hall : ((List.range 2500).map numberedInvoice).take (maxPages * pageSize) =
      (List.range 2500).map numberedInvoice := by
    refine List.take_of_length_le ?_
    rw [List.length_map, List.length_range]
    decide
  rw [hall] at hrange hreport
  exact ⟨hrange, hreport yearArgs yearArgs_dates.1 yearArgs_dates.2, hcustomer (by decide)⟩

/-- Of 10001 invoices of a customer in a range, the range gives ten thousand and the
customer a thousand. -/
theorem many_invoices_cut :
    (∃ result, (invoicesBetween wholePlatform "2026-01-01" "2026-12-31").eval
        (invoiceServer (List.replicate 10001 (.obj []))) = .ok result ∧ result.length = 10000) ∧
    ∃ result, (invoicesForCustomer wholePlatform "9").eval
        (invoiceServer (List.replicate 10001 (.obj []))) = .ok result ∧ result.length = 1000 := by
  refine ⟨⟨_, eval_invoicesBetween (accountServer_servesRange _ _ _ _), ?_⟩,
    ⟨_, eval_invoicesForCustomer (accountServer_servesCustomer _ _ _), ?_⟩⟩
  · rw [List.length_take, List.length_replicate]
    rfl
  · rw [List.length_mergeSort, List.length_map, List.length_take, List.length_replicate]
    rfl

end JobRunner.Jobctl
