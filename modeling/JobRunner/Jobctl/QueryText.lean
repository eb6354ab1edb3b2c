import JobRunner.Lib.Contract
import JobRunner.Lib.Quoted
import JobRunner.Jobctl.SalesRep

/-!
# The texts of the queries (`jobctl::qbo`)

The tools put their queries together from fixed text and values. Names, addresses and ids
are escaped; dates are not, but `required_date` has let only digits and `-` pass.

- `Query.pieces`: the template of each query, with its literals.
- `Query.Checked`: the values are as the tools have checked them.
- `text_eq_written`: a checked query is written as its template says.
- `Request.Sends`: a query with checked values, of the kind that a tool has for its arguments.
- `no_query_injection`: the text is read back as the template, and each function asks the query
  of its own arguments, each tool those of what it was given.
-/

open Text Quoted

namespace JobRunner.Jobctl

/-- The quote of a string literal. -/
def quote : Char := Char.ofNat 39

/-! ## Templates -/

/-- Fixed text of a query. -/
def plain (text : String) : Piece Char := .fixed text.toList

/-- A string literal of a query. -/
def literal (content : String) : Piece Char := .quoted content.toList

/-- The template of a query. -/
def Query.pieces : Query → List (Piece Char)
  | customersByName name =>
    [plain "select Id, DisplayName, PrimaryEmailAddr from Customer where DisplayName like ",
      literal ("%" ++ name ++ "%"), plain " maxresults 25"]
  | customersByEmail email =>
    [plain "select * from Customer WHERE PrimaryEmailAddr = ", literal email]
  | invoicesForCustomer qboCustomerId =>
    [plain ("select Id, DocNumber, TxnDate, DueDate, TotalAmt, Balance, CurrencyRef, ShipAddr, " ++
        "CustomerRef from Invoice where CustomerRef = "),
      literal qboCustomerId, plain " MAXRESULTS 1000"]
  | invoicesBetween start stop position =>
    [plain ("select Id, DocNumber, TxnDate, DueDate, TotalAmt, Balance, CurrencyRef, " ++
        "CustomerRef from Invoice where TxnDate >= "),
      literal start, plain " and TxnDate <= ", literal stop,
      plain (" ORDERBY TxnDate STARTPOSITION " ++ toString position ++ " MAXRESULTS 1000")]
  | classes => [plain "select * from Class MAXRESULTS 1000"]
  | raw query => [plain query]

/-- Dates have been checked, and the text is no argument itself. -/
def Query.Checked : Query → Prop
  | invoicesBetween start stop _ => isDate start = true ∧ isDate stop = true
  | raw _ => False
  | _ => True

/-- The tokens of a query text. -/
def tokens (text : String) : Option (List (Token Char)) := scan quote none text.toList

/-! ## Values between quotes -/

theorem escape_eq_double (value : String) :
    escape value = String.ofList (double quote value.toList) := by
  refine congrArg String.ofList (List.flatMap_congr fun c _ => ?_)
  have hiff : c.toNat = 39 ↔ c = quote := by
    constructor
    · intro h
      rw [← Char.ofNat_toNat c, h]
      rfl
    · rintro rfl
      rfl
  simp only [hiff]

theorem escape_append (a b : String) : escape (a ++ b) = escape a ++ escape b := by
  rw [escape, String.toList_append, List.flatMap_append, String.ofList_append]
  rfl

theorem escape_percent : escape "%" = "%" := by decide +kernel

/-- Without a quote there is nothing to double. -/
theorem escape_of_not_mem {value : String} (h : quote ∉ value.toList) : escape value = value := by
  have hsame : double quote value.toList = value.toList := by
    generalize value.toList = cs at h
    induction cs with
    | nil => rfl
    | cons c cs ih =>
      have hc : c ≠ quote := fun heq => h (heq ▸ List.mem_cons_self)
      show (if c = quote then [c, c] else [c]) ++ double quote cs = _
      rw [if_neg hc, ih fun hmem => h (List.mem_cons_of_mem _ hmem)]
      rfl
  rw [escape_eq_double, hsame, String.ofList_toList]

theorem quote_ne_of_isDigit {c : Char} (h : c.isDigit = true) : c ≠ quote := by
  rintro rfl
  revert h
  decide

/-- A date has no quote in it, so it is written between quotes as it is. -/
theorem escape_of_isDate {value : String} (h : isDate value = true) : escape value = value := by
  refine escape_of_not_mem fun hmem => ?_
  obtain ⟨-, hall⟩ := Bool.and_eq_true_iff.mp h
  obtain ⟨i, hi, hquote⟩ := List.mem_iff_getElem.mp hmem
  have hplace : (quote, i) ∈ value.toList.zipIdx := by
    rw [List.mem_zipIdx_iff_getElem?, ← hquote]
    exact List.getElem?_eq_getElem hi
  have hchar := List.all_eq_true.mp hall (quote, i) hplace
  simp only at hchar
  split at hchar <;> revert hchar <;> decide

theorem quote_not_mem_position (position : Nat) : quote ∉ (toString position).toList := by
  intro hmem
  have hdigits : (toString position).toList = Nat.toDigits 10 position := by
    rw [Nat.toString_eq_repr, Nat.repr_eq_ofList_toDigits, String.toList_ofList]
  rw [hdigits] at hmem
  exact quote_ne_of_isDigit (Nat.isDigit_of_mem_toDigits (by omega) (by omega) hmem) rfl

/-! ## Templates as text -/

/-- The text of a template. -/
def written (pieces : List (Piece Char)) : String :=
  String.ofList (pieces.flatMap (Piece.write quote))

theorem written_plain (text : String) (rest : List (Piece Char)) :
    written (plain text :: rest) = text ++ written rest := by
  show String.ofList (text.toList ++ rest.flatMap (Piece.write quote)) = _
  rw [String.ofList_append, String.ofList_toList]
  rfl

theorem written_literal (content : String) (rest : List (Piece Char)) :
    written (literal content :: rest) = "'" ++ (escape content ++ ("'" ++ written rest)) := by
  show String.ofList ([quote] ++ (double quote content.toList ++ [quote]) ++
    rest.flatMap (Piece.write quote)) = _
  have hquote : String.ofList [quote] = "'" := by decide +kernel
  rw [String.ofList_append, String.ofList_append, String.ofList_append, ← escape_eq_double, hquote,
    String.append_assoc, String.append_assoc]
  rfl

section

variable {a b c d x y : String}

theorem append_same (a : String) (h : x = y) : a ++ x = a ++ y := h ▸ rfl

theorem append_split (ha : a = b ++ c) (h : x = y) : a ++ x = b ++ (c ++ y) := by
  rw [ha, h, String.append_assoc]

theorem append_split₃ (ha : a = b ++ (c ++ d)) (h : x = y) : a ++ x = b ++ (c ++ (d ++ y)) := by
  rw [ha, h, String.append_assoc, String.append_assoc]

end

/-- A checked query is written as its template says: the pieces one after the other,
each literal between quotes with its quotes doubled. A case for each query, since
each is put together by a `format!` of its own. -/
theorem text_eq_written {q : Query} (h : q.Checked) : q.text = written q.pieces := by
  cases q with
  | customersByName name =>
    -- the template cuts the fixed text at the quotes, the source between its calls
    show _ ++ escape name ++ _ = written [plain _, literal _, plain _]
    rw [written_plain, written_literal, written_plain, escape_append, escape_append,
      escape_percent]
    simp only [String.append_assoc]
    exact append_split₃ (by decide +kernel) (append_same _ (by decide +kernel))
  | customersByEmail email =>
    show _ ++ escape email ++ _ = written [plain _, literal _]
    rw [written_plain, written_literal]
    simp only [String.append_assoc]
    exact append_split (by decide +kernel) (append_same _ rfl)
  | invoicesForCustomer qboCustomerId =>
    show _ ++ _ ++ escape qboCustomerId ++ _ = written [plain _, literal _, plain _]
    rw [written_plain, written_literal, written_plain]
    simp only [String.append_assoc]
    exact append_same _ (append_split (by decide +kernel) (append_same _ (by decide +kernel)))
  | invoicesBetween start stop position =>
    show _ ++ _ ++ start ++ _ ++ stop ++ _ ++ toString position ++ _ ++ toString pageSize =
      written [plain _, literal _, plain _, literal _, plain _]
    rw [written_plain, written_literal, written_plain, written_literal, written_plain,
      escape_of_isDate h.1, escape_of_isDate h.2]
    simp only [String.append_assoc]
    exact append_same _ (append_split (by decide +kernel) (append_same _ (append_split₃
      (by decide +kernel) (append_same _ (append_split (by decide +kernel) (append_same _
        (by decide +kernel)))))))
  | classes => rfl
  | raw query => exact absurd h id

/-- Quotes are looked for among the bytes. -/
theorem quote_not_mem {text : String} (h : 39 ∉ utf8 text) : quote ∉ text.toList := by
  intro hmem
  refine h ?_
  rw [utf8_eq_flatMap]
  exact List.mem_flatMap.mpr ⟨quote, hmem, by decide⟩

theorem apart_literal {content text : String} {rest : List (Piece Char)} (hne : text ≠ "")
    (h : Apart quote (plain text :: rest)) : Apart quote (literal content :: plain text :: rest) :=
  .quoted _ (fun hnil => hne (String.toList_eq_nil_iff.mp hnil)) h

theorem apart_plain {text : String} {rest : List (Piece Char)} (h : 39 ∉ utf8 text)
    (hrest : Apart quote rest) : Apart quote (plain text :: rest) :=
  .fixed (quote_not_mem h) hrest

/-- The literals of a query are kept apart: two of them never meet, where the quote
that ends one and the quote that starts the next would read as one doubled quote. -/
theorem apart_pieces {q : Query} (h : q.Checked) : Apart quote q.pieces := by
  cases q with
  | customersByName name =>
    exact apart_plain (by decide +kernel) (apart_literal (by decide +kernel)
      (apart_plain (by decide +kernel) .nil))
  | customersByEmail email => exact apart_plain (by decide +kernel) (.last _)
  | invoicesForCustomer qboCustomerId =>
    exact apart_plain (by decide +kernel) (apart_literal (by decide +kernel)
      (apart_plain (by decide +kernel) .nil))
  | invoicesBetween start stop position =>
    -- no quote in the digits of the position
    have hposition : quote ∉
        (" ORDERBY TxnDate STARTPOSITION " ++ toString position ++ " MAXRESULTS 1000").toList := by
      rw [String.toList_append, String.toList_append, List.mem_append, List.mem_append]
      rintro ((hmem | hmem) | hmem)
      · exact quote_not_mem (by decide +kernel) hmem
      · exact quote_not_mem_position position hmem
      · exact quote_not_mem (by decide +kernel) hmem
    have hne :
        " ORDERBY TxnDate STARTPOSITION " ++ toString position ++ " MAXRESULTS 1000" ≠ "" := by
      simp
    exact apart_plain (by decide +kernel) (apart_literal (by decide +kernel)
      (apart_plain (by decide +kernel) (apart_literal hne (.fixed hposition .nil))))
  | classes => exact apart_plain (by decide +kernel) .nil
  | raw query => exact absurd h id

/-- The text of a checked query is read as its template, whatever the values
contain. -/
theorem tokens_text {q : Query} (h : q.Checked) :
    tokens q.text = some (q.pieces.flatMap Piece.tokens) := by
  rw [tokens, text_eq_written h, written, String.toList_ofList, scan_write (apart_pieces h)]

/-! ## What the functions ask -/

variable (P : Platform)

/-- `get` asks its request and nothing else, also where the answer is an error. -/
theorem get_asks (req : Request) : (get P req).Asks (· = req) := by
  have hquery : Dialogue.Asks (· = req) (Dialogue.query req : Asking Answer) :=
    Dialogue.asks_query rfl
  exact hquery.bind fun _ => .done _

theorem runQuery_asks (q : Query) : (runQuery P q).Asks (· = .query q) := get_asks P (.query q)

theorem customersByName_asks (name : String) :
    (customersByName P name).Asks (· = .query (.customersByName name)) :=
  (runQuery_asks P _).bind fun _ => .done _

theorem customerByEmail_asks (email : String) :
    (customerByEmail P email).Asks (· = .query (.customersByEmail email)) := by
  unfold customerByEmail
  split
  · exact .done _
  · exact (runQuery_asks P _).bind fun _ => .done _

/-- The name is asked for only behind the address, and both are those that were
given. -/
theorem resolveCustomer_asks (name email : String) :
    (resolveCustomer P name email).Asks fun req =>
      req = .query (.customersByEmail email) ∨ req = .query (.customersByName name) := by
  refine ((customerByEmail_asks P email).mono fun _ => .inl).bind fun byEmail => ?_
  cases byEmail with
  | some customer => exact .done _
  | none =>
    show Dialogue.Asks _ (if name = "" then _ else _)
    split
    · exact .done _
    · exact ((customersByName_asks P name).mono fun _ => .inr).bind fun _ => .done _

theorem invoicesForCustomer_asks (qboCustomerId : String) :
    (invoicesForCustomer P qboCustomerId).Asks
      (· = .query (.invoicesForCustomer qboCustomerId)) :=
  (runQuery_asks P _).bind fun _ => .done _

/-- The loop over the pages: the dates stay, the position is the one after the pages so far. -/
theorem invoicePages_asks (start stop : String) (left page : Nat) (all : List Json) :
    (invoicePages P start stop left page all).Asks fun req =>
      ∃ page, req = .query (.invoicesBetween start stop (page * pageSize + 1)) := by
  induction left generalizing page all with
  | zero => exact .done _
  | succ left ih =>
    rw [invoicePages]
    refine ((runQuery_asks P _).mono fun req hreq => ⟨page, hreq⟩).bind fun payload => ?_
    show Dialogue.Asks _ (if _ then _ else _)
    split
    · exact .done _
    · exact ih _ _

theorem invoicesBetween_asks (start stop : String) :
    (invoicesBetween P start stop).Asks fun req =>
      ∃ page, req = .query (.invoicesBetween start stop (page * pageSize + 1)) :=
  invoicePages_asks P start stop maxPages 0 []

theorem classes_asks : (classes P).Asks (· = .query .classes) :=
  (runQuery_asks P .classes).bind fun _ => .done _

/-! ## What the tools send -/

/-- A query with checked values that is one of `asked`, or no query. -/
def Request.Sends (asked : Query → Prop) : Request → Prop
  | query q => q.Checked ∧ asked q
  | _ => True

variable (session : Session) (crm : Except SqlError Crm) (args : Json)

/-- The query of `search_customers`. -/
def SearchQuery (q : Query) : Prop :=
  ∃ name, requiredStr args "name" = .ok name ∧ q = .customersByName name

/-- The customer that the arguments of `customer_invoices` name. -/
def NamedCustomer (c : Customer) : Prop :=
  ∃ found id, crm = .ok found ∧ optionalPositive args "customer_id" = .ok (some id) ∧
    found.customer? session.scope.companyId id = some c

/-- The queries of `customer_invoices`. -/
inductive CustomerQuery : Query → Prop where
  | email (c : Customer) (hnamed : NamedCustomer session crm args c) :
      CustomerQuery (.customersByEmail (trim (c.email.getD "")))
  | name (c : Customer) (hnamed : NamedCustomer session crm args c) :
      CustomerQuery (.customersByName (trim (c.name.getD "")))
  /-- The id is the one of the link, or one that QuickBooks has answered with. -/
  | linked (c : Customer) (hnamed : NamedCustomer session crm args c) (qboId : String)
      (hlink : ∀ n, c.qboId.filter (0 < ·) = some n → qboId = toString n) :
      CustomerQuery (.invoicesForCustomer qboId)
  | given (qboId : String) (hgiven : optionalEntityId P args "qbo_customer_id" = .ok (some qboId)) :
      CustomerQuery (.invoicesForCustomer qboId)

/-- The queries of `sales_rep`. -/
def SalesQuery (q : Query) : Prop :=
  q = .classes ∨ ∃ start stop page, requiredDate args "start_date" = .ok start ∧
    requiredDate args "end_date" = .ok stop ∧ q = .invoicesBetween start stop (page * pageSize + 1)

/-- `search_customers` sends the query of the name it was given, and no other. -/
theorem searchCustomers_asks :
    (searchCustomers P session crm args).Asks (Request.Sends (SearchQuery args)) := by
  refine Dialogue.asks_done_bind fun name hname => ?_
  refine ((customersByName_asks P name).mono ?_).bind fun _ =>
    Dialogue.asks_done_bind fun _ _ => .done _
  rintro req rfl
  exact ⟨trivial, name, hname, rfl⟩

/-- The id of a customer is asked for by its address and its name. -/
theorem qboIdOf_asks {c : Customer} (hnamed : NamedCustomer session crm args c) :
    (qboIdOf P c).Asks (Request.Sends (CustomerQuery P session crm args)) := by
  unfold qboIdOf
  split
  · exact .done _
  · refine ((resolveCustomer_asks P _ _).mono ?_).bind fun found => ?_
    · rintro req (rfl | rfl)
      · exact ⟨trivial, .email c hnamed⟩
      · exact ⟨trivial, .name c hnamed⟩
    · cases found <;> exact .done _

/-- With a link there is nothing to ask. -/
theorem qboIdOf_linked {c : Customer} {n : Int} (hlink : c.qboId.filter (0 < ·) = some n) :
    qboIdOf P c = .done (.ok (toString n, "customers.qbo_id")) := by
  unfold qboIdOf
  rw [hlink]
  rfl

theorem invoicesForCustomer_sends {qboId : String}
    (h : CustomerQuery P session crm args (.invoicesForCustomer qboId)) :
    (invoicesForCustomer P qboId).Asks (Request.Sends (CustomerQuery P session crm args)) := by
  refine (invoicesForCustomer_asks P qboId).mono ?_
  rintro req rfl
  exact ⟨trivial, h⟩

/-- For a customer of the CRM, what is sent is that customer's address, its name, or
the id that one of these or the link has led to. -/
theorem crmCustomerInvoices_asks {customerId : Int}
    (hgiven : optionalPositive args "customer_id" = .ok (some customerId)) :
    (crmCustomerInvoices P session crm customerId).Asks
      (Request.Sends (CustomerQuery P session crm args)) := by
  unfold crmCustomerInvoices
  split
  · exact .done _
  next found =>
    split
    · exact .done _
    next c hc =>
      have hnamed : NamedCustomer session (.ok found) args c := ⟨found, customerId, rfl, hgiven, hc⟩
      rcases hlink : c.qboId.filter (0 < ·) with _ | n
      · refine (qboIdOf_asks P session _ args hnamed).bind fun found => ?_
        have hquery : CustomerQuery P session _ args (.invoicesForCustomer found.1) :=
          .linked c hnamed found.1 fun n hn => by rw [hlink] at hn; cases hn
        exact (invoicesForCustomer_sends P session _ args hquery).bind fun _ => .done _
      · rw [qboIdOf_linked P hlink]
        have hquery : CustomerQuery P session _ args (.invoicesForCustomer (toString n)) :=
          .linked c hnamed _ fun n' hn => by rw [hlink] at hn; cases hn; rfl
        exact (invoicesForCustomer_sends P session _ args hquery).bind fun _ => .done _

/-- `customer_invoices` sends the id it was given, or goes by the customer of the
CRM that it was given. -/
theorem customerInvoices_asks :
    (customerInvoices P session crm args).Asks
      (Request.Sends (CustomerQuery P session crm args)) := by
  refine Dialogue.asks_done_bind fun customerId hcustomer =>
    Dialogue.asks_done_bind fun qboId hqbo => ?_
  split
  · exact crmCustomerInvoices_asks P session crm args hcustomer
  · refine Dialogue.asks_done_bind fun linked _ => ?_
    split
    · exact .done _
    · exact (invoicesForCustomer_sends P session crm args (.given _ hqbo)).bind fun _ => .done _
  · exact .done _

theorem invoice_asks :
    (invoice P session crm args).Asks (Request.Sends fun _ => False) := by
  refine Dialogue.asks_done_bind fun invoiceId _ => ?_
  cases invoiceId with
  | none => exact .done _
  | some id =>
    refine ((get_asks P (.invoice id)).mono ?_).bind fun payload =>
      Dialogue.asks_done_bind fun linked _ => ?_
    · rintro req rfl
      trivial
    · show Dialogue.Asks _ (if _ then _ else _)
      split <;> exact .done _

section Dates

variable {start stop : String} (hstart : requiredDate args "start_date" = .ok start)
  (hstop : requiredDate args "end_date" = .ok stop)

include hstart hstop

theorem repCustomers_asks (classIds : List String) :
    (repCustomers P start stop classIds).Asks (Request.Sends (SalesQuery args)) := by
  unfold repCustomers
  split
  · exact .done _
  · refine ((get_asks P _).mono ?_).bind fun _ =>
      ((invoicesBetween_asks P start stop).mono ?_).bind fun _ => .done _
    · rintro req rfl
      trivial
    · rintro req ⟨page, rfl⟩
      exact ⟨⟨requiredDate_ok hstart, requiredDate_ok hstop⟩,
        .inr ⟨start, stop, page, hstart, hstop, rfl⟩⟩

theorem repSales_asks (rep : String) :
    (repSales P start stop rep).Asks (Request.Sends (SalesQuery args)) := by
  have hreport : (classSalesReport P start stop).Asks (Request.Sends (SalesQuery args)) := by
    refine ((get_asks P (.classSales start stop)).mono ?_).bind fun _ => .done _
    rintro req rfl
    trivial
  have hclasses : (classes P).Asks (Request.Sends (SalesQuery args)) := by
    refine (classes_asks P).mono ?_
    rintro req rfl
    exact ⟨trivial, .inl rfl⟩
  exact hreport.bind fun _ => hclasses.bind fun classes =>
    (repCustomers_asks P args hstart hstop (classIdsForRep P classes rep)).bind fun _ => .done _

end Dates

/-- `sales_rep` sends the two dates of its arguments. The name of the rep is in none
of its queries. -/
theorem salesRep_asks :
    (salesRep P session crm args).Asks (Request.Sends (SalesQuery args)) := by
  refine Dialogue.asks_done_bind fun start hstart => Dialogue.asks_done_bind fun stop hstop => ?_
  split
  · exact .done _
  · show Dialogue.Asks _ (if _ then _ else if _ then _ else _)
    split
    · exact .done _
    · split
      · exact .done _
      · exact repSales_asks P args hstart hstop _

/-- **No query injection.** The text of a checked query is read as its template, each literal
with exactly the value it was given. Each function asks the query of its own arguments; and
whatever the arguments, the CRM and the answers, the tools for everybody send checked queries
only, with the name, the address, the id or the dates they were given. -/
theorem no_query_injection :
    (∀ q : Query, q.Checked → tokens q.text = some (q.pieces.flatMap Piece.tokens)) ∧
    (∀ name, (customersByName P name).Asks (· = .query (.customersByName name))) ∧
    (∀ name email, (resolveCustomer P name email).Asks fun req =>
      req = .query (.customersByEmail email) ∨ req = .query (.customersByName name)) ∧
    (∀ qboId, (invoicesForCustomer P qboId).Asks (· = .query (.invoicesForCustomer qboId))) ∧
    (∀ start stop, (invoicesBetween P start stop).Asks fun req =>
      ∃ page, req = .query (.invoicesBetween start stop (page * pageSize + 1))) ∧
    (classes P).Asks (· = .query .classes) ∧
    ∀ (session : Session) (crm : Except SqlError Crm) (args : Json),
      (searchCustomers P session crm args).Asks (Request.Sends (SearchQuery args)) ∧
      (customerInvoices P session crm args).Asks
        (Request.Sends (CustomerQuery P session crm args)) ∧
      (invoice P session crm args).Asks (Request.Sends fun _ => False) ∧
      (salesRep P session crm args).Asks (Request.Sends (SalesQuery args)) :=
  ⟨fun _ h => tokens_text h, customersByName_asks P, resolveCustomer_asks P,
    invoicesForCustomer_asks P, invoicesBetween_asks P, classes_asks P, fun session crm args =>
      ⟨searchCustomers_asks P session crm args, customerInvoices_asks P session crm args,
        invoice_asks P session crm args, salesRep_asks P session crm args⟩⟩

example : tokens ("= '" ++ escape "x' or '" ++ "'") =
    some [.plain '=', .plain ' ', .literal "x' or '".toList] := by decide +kernel

end JobRunner.Jobctl
