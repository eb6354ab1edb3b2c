import JobRunner.Jobctl.Exact
import JobRunner.Jobctl.InvoiceOrder
import JobRunner.Jobctl.ReportTree

/-!
# The two totals of a rep's customers (`jobctl::qbo`)

`sales_rep` takes the total of a `CustomerSales` report from its grand total, and without
one adds up the customers it lists. A customer with others below it is a section: what it
was sold itself stands in its header, which is no data row.

- `topTotal`, `Consistent`: a report whose sections and grand total are sums.
- `topTotal_eq`: what the top level comes to is the data rows **and** the headers.
- `customer_total_iff`: the two totals agree **exactly when** the headers come to nothing.
-/

open Text

namespace JobRunner.Jobctl

variable {P : Platform}

/-! ## Consistent reports -/

/-- What the top level of an outline comes to: a block counts with its total, or without one
with its header and what is below it. -/
def topTotal (P : Platform) : Outline (Row P.F64) → P.F64
  | .nil => P.zero
  | .leaf r rest => P.add (r.share P .data) (topTotal P rest)
  | .block header below total rest =>
    P.add
      (match total with
        | some t => t.value P
        | none => P.add (header.elim P.zero (Row.value P)) (topTotal P below))
      (topTotal P rest)

/-- Every total is the amount of its header, if any, plus those of the rows below. -/
def Consistent (P : Platform) : Outline (Row P.F64) → Prop
  | .nil => True
  | .leaf _ rest => Consistent P rest
  | .block header below total rest =>
    (∀ t, total = some t →
      t.value P = P.add (header.elim P.zero (Row.value P)) (topTotal P below)) ∧
      Consistent P below ∧ Consistent P rest

/-- A block counts with its header and what is below it, also if it has a total. -/
theorem topTotal_block {header total : Option (Row P.F64)} {below rest : Outline (Row P.F64)}
    (h : ∀ t, total = some t →
      t.value P = P.add (header.elim P.zero (Row.value P)) (topTotal P below)) :
    topTotal P (.block header below total rest) =
      P.add (P.add (header.elim P.zero (Row.value P)) (topTotal P below)) (topTotal P rest) := by
  cases total with
  | none => rfl
  | some t => rw [topTotal, h t rfl]

theorem share_of_kind {kind : RowKind} {r : Row P.F64} (h : r.kind = kind) :
    r.share P kind = r.value P :=
  if_pos h

theorem share_of_ne {kind : RowKind} {r : Row P.F64} (h : r.kind ≠ kind) :
    r.share P kind = P.zero :=
  if_neg h

/-- **What a consistent report comes to**: its data rows and its headers, each once.
By induction on the outline: in a consistent report the total of a block is what its
header and its inside come to. -/
theorem topTotal_eq (hexact : P.Exact) {o : Outline (Row P.F64)} (hshape : ReportShaped o)
    (h : Consistent P o) :
    topTotal P o =
      P.add (amountTotal P .data o.flatten) (amountTotal P .sectionHeader o.flatten) := by
  induction o with
  | nil => exact (hexact.zero_add P.zero).symm
  | leaf r rest ih =>
    have hheader : r.kind ≠ .sectionHeader := by
      rcases hshape.1 with hkind | hkind <;> simp [hkind]
    rw [topTotal, ih hshape.2 h, Outline.flatten, amountTotal_cons hexact,
      amountTotal_cons hexact .sectionHeader, share_of_ne hheader, hexact.zero_add, hexact.assoc]
  | block header below total rest ihBelow ihRest =>
    obtain ⟨hheader, hbelow, htotal, hrest⟩ := hshape
    -- the header counts once, as a header; the total counts as neither
    have hhd : header.elim P.zero (Row.share P .data) = P.zero := by
      cases header with
      | none => rfl
      | some r => exact share_of_ne (by simp [hheader r rfl])
    have hhh : header.elim P.zero (Row.share P .sectionHeader) =
        header.elim P.zero (Row.value P) := by
      cases header with
      | none => rfl
      | some r => exact share_of_kind (hheader r rfl)
    have ht : ∀ kind, kind ≠ .sectionTotal → total.elim P.zero (Row.share P kind) = P.zero := by
      intro kind hkind
      cases total with
      | none => rfl
      | some t => exact share_of_ne (by rw [htotal t rfl]; exact hkind.symm)
    rw [topTotal_block h.1, ihBelow hbelow h.2.1, ihRest hrest h.2.2, Outline.flatten]
    simp only [amountTotal_append hexact, amountTotal_toList hexact, hhd, hhh,
      ht .data (by decide), ht .sectionHeader (by decide), hexact.zero_add, hexact.add_zero]
    simp only [hexact.assoc, hexact.comm, hexact.left_comm]

/-! ## The customers that are listed -/

/-- The other source of `customerSalesTotal`. -/
def customersTotal (P : Platform) (report : Report P.F64) : P.F64 :=
  total P ((customerSalesRows P report).map CustomerSales.amount)

/-- The amounts of the customers are those of the data rows that are not zero. -/
theorem map_amount_customers (rows : List (Row P.F64)) :
    (rows.filterMap fun row =>
      (row.amount.filter fun amount => !P.isZero amount).map fun amount =>
        (⟨row.name, amount, row.entityId, []⟩ : CustomerSales P.F64)).map CustomerSales.amount =
      (rows.filterMap Row.amount).filter fun x => !P.isZero x := by
  induction rows with
  | nil => rfl
  | cons r rows ih =>
    rw [List.filterMap_cons, List.filterMap_cons]
    cases r.amount with
    | none => exact ih
    | some x => cases hx : P.isZero x <;> simpa [Option.filter, hx] using ih

/-- The order of the listed customers is total, so `sort_by` has no leave to panic
on it. -/
theorem totalOn_customers (P : Platform) (items : List (CustomerSales P.F64)) :
    Sorting.TotalOn
      (fun a b => (P.totalCmp b.amount a.amount).then (compare a.name b.name)) items := by
  have htrans := P.totalCmp_trans
  exact .by_parts (fun x y => P.totalCmp y x) compare CustomerSales.amount CustomerSales.name items

/-- The listed customers come to the data rows. Sorting them and leaving out the
zeros changes nothing of a sum. -/
theorem customersTotal_eq (hexact : P.Exact) (hsort : Sorting.Lawful P.sortBy)
    (report : Report P.F64) : customersTotal P report = amountTotal P .data report.rows := by
  unfold customersTotal amountTotal customerSalesRows
  rw [total_perm hexact ((hsort.perm (totalOn_customers P _)).map CustomerSales.amount),
    map_amount_customers,
    total_nonzero hexact]

/-- A report whose totals are sums, the grand total that of the top level. -/
structure ConsistentReport (P : Platform) (payload : Json) : Prop where
  totals : Consistent P (reportOutline P payload)
  grandTotal : (parseReport P payload).total = some (topTotal P (reportOutline P payload))

/-- **When the two totals agree**: exactly when what the customers with others below them
were sold themselves, the amounts of the headers, comes to nothing. -/
theorem customer_total_iff (hexact : P.Exact) (hsort : Sorting.Lawful P.sortBy) {payload : Json}
    (h : ConsistentReport P payload) :
    (parseReport P payload).total = some (customersTotal P (parseReport P payload)) ↔
      amountTotal P .sectionHeader (parseReport P payload).rows = P.zero := by
  have htop : topTotal P (reportOutline P payload) = _ :=
    topTotal_eq hexact (shaped_readOutline _ _) h.totals
  rw [h.grandTotal, htop, customersTotal_eq hexact hsort, parseReport_rows, Option.some_inj,
    hexact.add_eq_left]

/-! ## A customer with another below it -/

theorem parseReport_total (payload : Json) :
    (parseReport P payload).total =
      ((reportOutline P payload).flatten.reverse.find? fun r => r.kind = .grandTotal).bind
        Row.amount := by
  show _ = ((readOutline P ((payload.index "Rows").index "Row") 0).flatten.reverse.find? _).bind _
  rw [flatten_readOutline]
  rfl

theorem consistent_acmeSales (own : Option Int) :
    ConsistentReport wholePlatform (acmeSales own) := by
  refine ⟨?_, ?_⟩
  · rw [reportOutline_acmeSales]
    refine ⟨?_, ⟨?_, trivial, trivial⟩, trivial⟩
    · intro t ht
      cases ht
      cases own <;> rfl
    · intro t ht
      cases ht
  · rw [parseReport_total, reportOutline_acmeSales]
    exact congrArg some (Int.add_zero (own.getD 0 + 50)).symm

/-- Without sales of its own, Acme comes to what its branch does. -/
theorem acme_totals_agree :
    (parseReport wholePlatform (acmeSales none)).total =
      some (customersTotal wholePlatform (parseReport wholePlatform (acmeSales none))) := by
  refine (customer_total_iff wholePlatform_exact wholePlatform_sorts
    (consistent_acmeSales none)).mpr ?_
  rw [parseReport_rows, reportOutline_acmeSales]
  rfl

/-- Acme's own 100 are in the report's total of 150, and in no listed customer. -/
theorem acme_sales_not_listed :
    ConsistentReport wholePlatform (acmeSales (some 100)) ∧
    (parseReport wholePlatform (acmeSales (some 100))).total = some (150 : Int) ∧
    customersTotal wholePlatform (parseReport wholePlatform (acmeSales (some 100))) =
      (50 : Int) := by
  refine ⟨consistent_acmeSales _, ?_, ?_⟩
  · rw [parseReport_total, reportOutline_acmeSales]
    rfl
  · rw [customersTotal_eq wholePlatform_exact wholePlatform_sorts, parseReport_rows,
      reportOutline_acmeSales]
    rfl

end JobRunner.Jobctl
