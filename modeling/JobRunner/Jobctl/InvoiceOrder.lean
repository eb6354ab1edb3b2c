import JobRunner.Lib.Sorting
import JobRunner.Jobctl.SalesRep

/-!
# The order of a customer's invoices (`jobctl::qbo`)

`attach_invoices` sorts by date, and invoices of one date by document number: two that are
`u64` by value, all others as texts. The two orders of the numbers disagree, and a document
number that is no `u64` may stand between.

- `invoiceOrder_swap`: the comparison is oriented.
- `Straddled`: a text stands between two numbers whose texts are in the other order.
- `totalOn_invoiceOrder_iff`: the comparison is a total preorder **exactly** where that does
  not happen.
- `invoices_ascending`: there the invoices of every customer are in order.
-/

open Text Decimal Sorting

namespace JobRunner.Jobctl

/-! ## Dates -/

theorem byDate_eq (a b : String) :
    byDate a b = (compare (decide (a = "")) (decide (b = ""))).then (compare a b) := by
  unfold byDate
  by_cases ha : a = "" <;> by_cases hb : b = "" <;> simp [ha, hb] <;> rfl

instance : Std.TransCmp byDate := by
  have heq : byDate = compareLex (compareOn fun date => decide (date = "")) compare := by
    funext a b
    exact byDate_eq a b
  rw [heq]
  infer_instance

theorem byDate_eq_iff {a b : String} : byDate a b = .eq ↔ a = b := by
  constructor
  · intro h
    rw [byDate_eq, Ordering.then_eq_eq] at h
    exact Std.LawfulEqCmp.eq_of_compare h.2
  · rintro rfl
    exact Std.ReflCmp.compare_self

/-! ## Document numbers -/

/-- `["docNumber"].as_str().unwrap_or("")`. -/
def docNumber (summary : Json) : String := ((summary.index "docNumber").asStr).getD ""

/-- The text `z` stands between the numbers `x` and `y`, which are in the other order. -/
def Between (x y z : String) : Prop :=
  ∃ m n, parseU64 x = some m ∧ parseU64 y = some n ∧ parseU64 z = none ∧ m ≤ n ∧
    compare y z = .lt ∧ compare z x = .lt

theorem natural_numbers {x y : String} {m n : Nat} (hx : parseU64 x = some m)
    (hy : parseU64 y = some n) : natural x y = compare m n := by
  unfold natural
  rw [hx, hy]

theorem natural_text {x y : String} (h : parseU64 x = none ∨ parseU64 y = none) :
    natural x y = compare x y := by
  unfold natural
  rcases h with h | h <;> rw [h]
  rcases parseU64 x with _ | m <;> rfl

/-- The comparison of document numbers is oriented, both where they are numbers and
where they are texts. -/
theorem natural_swap (x y : String) : natural x y = (natural y x).swap := by
  rcases hx : parseU64 x with _ | m
  · rw [natural_text (.inl hx), natural_text (.inr hx)]
    exact Std.OrientedCmp.eq_swap
  · rcases hy : parseU64 y with _ | n
    · rw [natural_text (.inr hy), natural_text (.inl hy)]
      exact Std.OrientedCmp.eq_swap
    · rw [natural_numbers hx hy, natural_numbers hy hx]
      exact Std.OrientedCmp.eq_swap

/-- A number and a text that is none differ, so between them the order of texts is
strict. -/
theorem compare_lt_of_parse {x y : String} (h : compare x y ≠ .gt)
    (hparse : parseU64 x ≠ parseU64 y) : compare x y = .lt := by
  rcases hcmp : compare x y with _ | _ | _
  · rfl
  · rw [Std.LawfulEqCmp.eq_of_compare hcmp] at hparse
    exact absurd rfl hparse
  · exact absurd hcmp h

/-- Three document numbers are out of order only around a text between two numbers.
Numbers among themselves are in order, and so are texts, which leaves the mixed
cases. -/
theorem between_of_natural {a b c : String} (hab : natural a b ≠ .gt) (hbc : natural b c ≠ .gt)
    (hac : natural a c = .gt) : Between a b c ∨ Between c a b ∨ Between b c a := by
  have htext : compare a b ≠ .gt → compare b c ≠ .gt → compare a c ≠ .gt := by
    simp only [Ordering.ne_gt_iff_isLE]
    exact Std.TransCmp.isLE_trans
  rcases ha : parseU64 a with _ | x <;> rcases hb : parseU64 b with _ | y <;>
    rcases hc : parseU64 c with _ | z
  case some.some.some =>
    rw [natural_numbers ha hb, Nat.compare_ne_gt] at hab
    rw [natural_numbers hb hc, Nat.compare_ne_gt] at hbc
    rw [natural_numbers ha hc, Nat.compare_eq_gt] at hac
    omega
  case some.some.none =>
    rw [natural_numbers ha hb, Nat.compare_ne_gt] at hab
    rw [natural_text (.inr hc)] at hbc hac
    exact .inl ⟨x, y, ha, hb, hc, hab, compare_lt_of_parse hbc (by simp [hb, hc]),
      Std.OrientedCmp.lt_of_gt hac⟩
  case some.none.some =>
    rw [natural_text (.inr hb)] at hab
    rw [natural_text (.inl hb)] at hbc
    rw [natural_numbers ha hc, Nat.compare_eq_gt] at hac
    exact .inr (.inl ⟨z, x, hc, ha, hb, by omega, compare_lt_of_parse hab (by simp [ha, hb]),
      compare_lt_of_parse hbc (by simp [hb, hc])⟩)
  case none.some.some =>
    rw [natural_text (.inl ha)] at hab hac
    rw [natural_numbers hb hc, Nat.compare_ne_gt] at hbc
    exact .inr (.inr ⟨y, z, hb, hc, ha, hbc, Std.OrientedCmp.lt_of_gt hac,
      compare_lt_of_parse hab (by simp [ha, hb])⟩)
  -- with at most one number all three comparisons are of texts
  all_goals
    rw [natural_text (by simp [ha, hb])] at hab
    rw [natural_text (by simp [hb, hc])] at hbc
    rw [natural_text (by simp [ha, hc])] at hac
    exact absurd hac (htext hab hbc)

/-! ## Invoices -/

theorem invoiceOrder_eq (a b : Json) : invoiceOrder a b =
    (byDate (txnDate a) (txnDate b)).then (natural (docNumber a) (docNumber b)) := rfl

/-- **The comparison is oriented.** -/
theorem invoiceOrder_swap (a b : Json) : invoiceOrder a b = (invoiceOrder b a).swap := by
  have hdate : byDate (txnDate a) (txnDate b) = (byDate (txnDate b) (txnDate a)).swap :=
    Std.OrientedCmp.eq_swap
  rw [invoiceOrder_eq, invoiceOrder_eq, Ordering.swap_then, ← natural_swap, ← hdate]

theorem invoiceOrder_of_date {a b : Json} (h : txnDate a = txnDate b) :
    invoiceOrder a b = natural (docNumber a) (docNumber b) := by
  rw [invoiceOrder_eq, byDate_eq_iff.mpr h, Ordering.eq_then]

/-- Three invoices are out of order only if they have one date, since dates decide
first and are totally ordered. -/
theorem same_date_of_gt {a b c : Json} (hab : invoiceOrder a b ≠ .gt)
    (hbc : invoiceOrder b c ≠ .gt) (hac : invoiceOrder a c = .gt) :
    txnDate a = txnDate b ∧ txnDate b = txnDate c := by
  have hle : ∀ {x y : Json}, invoiceOrder x y ≠ .gt →
      (byDate (txnDate x) (txnDate y)).isLE = true := by
    intro x y h
    rw [invoiceOrder_eq] at h
    revert h
    cases byDate (txnDate x) (txnDate y) <;> simp
  have hdates : byDate (txnDate a) (txnDate c) = .eq := by
    have htrans := Std.TransCmp.isLE_trans (hle hab) (hle hbc)
    rw [invoiceOrder_eq] at hac
    revert hac htrans
    cases byDate (txnDate a) (txnDate c) <;> simp
  -- the date in the middle is between two equal ones
  have heq : txnDate a = txnDate c := byDate_eq_iff.mp hdates
  have hcb : (byDate (txnDate c) (txnDate b)).isLE = true := heq ▸ hle hab
  have hmiddle := Std.OrientedCmp.isLE_antisymm (hle hbc) hcb
  exact ⟨heq.trans (byDate_eq_iff.mp hmiddle).symm, byDate_eq_iff.mp hmiddle⟩

/-- Of three invoices of one date, one has a text between the numbers of the others, which
are in the other order. -/
def Straddled (items : List Json) : Prop :=
  ∃ a ∈ items, ∃ b ∈ items, ∃ c ∈ items, txnDate a = txnDate b ∧ txnDate b = txnDate c ∧
    Between (docNumber a) (docNumber b) (docNumber c)

/-- Of numbers alone there is nothing to stand between. -/
theorem not_straddled_of_numbers {items : List Json}
    (h : ∀ item ∈ items, (parseU64 (docNumber item)).isSome = true) : ¬Straddled items := by
  rintro ⟨a, -, b, -, c, hc, -, -, m, n, -, -, htext, -⟩
  have hnumber := h c hc
  rw [htext] at hnumber
  cases hnumber

/-- **Exactly where the comparison is a total preorder.** -/
theorem totalOn_invoiceOrder_iff (items : List Json) :
    TotalOn invoiceOrder items ↔ ¬Straddled items := by
  constructor
  · rintro htotal ⟨a, ha, b, hb, c, hc, hab, hbc, m, n, hm, hn, htext, hle, hyz, hzx⟩
    refine htotal.trans a ha b hb c hc ?_ ?_ ?_
    · rw [invoiceOrder_of_date hab, natural_numbers hm hn, Nat.compare_ne_gt]
      exact hle
    · rw [invoiceOrder_of_date hbc, natural_text (.inr htext), hyz]
      exact nofun
    · rw [invoiceOrder_of_date (hab.trans hbc), natural_text (.inr htext)]
      exact Std.OrientedCmp.gt_of_lt hzx
  · intro hnone
    refine ⟨fun a _ b _ => invoiceOrder_swap a b, fun a ha b hb c hc hab hbc hac => ?_⟩
    obtain ⟨hdab, hdbc⟩ := same_date_of_gt hab hbc hac
    rw [invoiceOrder_of_date hdab] at hab
    rw [invoiceOrder_of_date hdbc] at hbc
    rw [invoiceOrder_of_date (hdab.trans hdbc)] at hac
    apply hnone
    rcases between_of_natural hab hbc hac with h | h | h
    · exact ⟨a, ha, b, hb, c, hc, hdab, hdbc, h⟩
    · exact ⟨c, hc, a, ha, b, hb, (hdab.trans hdbc).symm, hdab, h⟩
    · exact ⟨b, hb, c, hc, a, ha, hdbc, (hdab.trans hdbc).symm, h⟩

variable {P : Platform}

/-- The invoices that `attach_invoices` finds for a customer, before they are sorted. -/
def matchedInvoices (P : Platform) (customer : CustomerSales P.F64) (invoices : List Json) :
    List Json :=
  (invoices.filter (invoiceMatches P customer)).map (attachedInvoice P)

/-- The order of the customers, by their first invoices, is total. -/
theorem totalOn_firstDate (P : Platform) (items : List (CustomerSales P.F64)) :
    TotalOn
      (fun a b => (byDate (firstDate P a) (firstDate P b)).then (compare a.name b.name))
      items :=
  .by_parts byDate compare (firstDate P) CustomerSales.name items

/-- What `attach_invoices` gives is its customers, each with the sorted invoices.
The customers are sorted as well, by an order that is always total. -/
theorem mem_attachInvoices (hsort : Sorting.Lawful P.sortBy)
    {customers : List (CustomerSales P.F64)} {invoices : List Json} {c : CustomerSales P.F64}
    (h : c ∈ attachInvoices P customers invoices) :
    ∃ customer ∈ customers, c = { customer with
      invoices := P.sortBy invoiceOrder (matchedInvoices P customer invoices) } := by
  unfold attachInvoices at h
  rw [(hsort.perm (totalOn_firstDate P _)).mem_iff] at h
  obtain ⟨customer, hmem, rfl⟩ := List.mem_map.mp h
  exact ⟨customer, hmem, rfl⟩

/-- **The order of the invoices.** The comparison is a total preorder exactly where no text
stands between two numbers that are in the other order, and there every customer's invoices
are all kept and come in ascending order. -/
theorem invoices_ascending (hsort : Sorting.Lawful P.sortBy) :
    (∀ items, TotalOn invoiceOrder items ↔ ¬Straddled items) ∧
    ∀ customers invoices, ∀ c ∈ attachInvoices P customers invoices,
      ∃ customer ∈ customers, c = { customer with invoices := c.invoices } ∧
        (¬Straddled (matchedInvoices P customer invoices) →
          c.invoices.Perm (matchedInvoices P customer invoices) ∧
          Ascending invoiceOrder c.invoices) := by
  refine ⟨totalOn_invoiceOrder_iff, fun customers invoices c hc => ?_⟩
  obtain ⟨customer, hmem, rfl⟩ := mem_attachInvoices hsort hc
  refine ⟨customer, hmem, rfl, fun hnone => ?_⟩
  have htotal := (totalOn_invoiceOrder_iff _).mpr hnone
  exact ⟨hsort.perm htotal, hsort.ascending htotal⟩

theorem wholePlatform_sorts : Sorting.Lawful wholePlatform.sortBy := Sorting.mergeSort_lawful

/-- An invoice as it is compared. -/
def datedInvoice (date number : String) : Json :=
  .obj [("docNumber", .str number), ("txnDate", .str date)]

/-- The QuickBooks customer 9. -/
def betaLlc : CustomerSales wholePlatform.F64 := ⟨"Beta LLC", (250 : Int), some "9", []⟩

/-- An invoice as QuickBooks has it. -/
def rawInvoice (customerId name number : String) : Json :=
  .obj [
    ("CustomerRef", .obj [("value", .str customerId), ("name", .str name)]),
    ("DocNumber", .str number),
    ("TxnDate", .str "2026-09-05")]

/-- Two invoices of customer 9. -/
def betaInvoices : List Json := [rawInvoice "9" "Beta LLC" "10", rawInvoice "9" "Beta LLC" "9"]

theorem matched_betaInvoices : matchedInvoices wholePlatform betaLlc betaInvoices =
    betaInvoices.map (attachedInvoice wholePlatform) := by
  have hall : ∀ invoice ∈ betaInvoices, invoiceMatches wholePlatform betaLlc invoice = true :=
    List.all_eq_true.mp (by decide +kernel)
  rw [matchedInvoices, List.filter_eq_self.mpr hall]

theorem betaInvoices_not_straddled :
    ¬Straddled (matchedInvoices wholePlatform betaLlc betaInvoices) := by
  rw [matched_betaInvoices]
  exact not_straddled_of_numbers (List.all_eq_true.mp (by decide +kernel))

/-- The invoices 10 and 9 of customer 9 are sorted. -/
theorem numbers_in_order :
    TotalOn invoiceOrder (matchedInvoices wholePlatform betaLlc betaInvoices) ∧
    ∃ c ∈ attachInvoices wholePlatform [betaLlc] betaInvoices,
      c.invoices.Perm (betaInvoices.map (attachedInvoice wholePlatform)) ∧
      Ascending invoiceOrder c.invoices := by
  obtain ⟨htotal, hkept⟩ := invoices_ascending wholePlatform_sorts
  have hone : attachInvoices wholePlatform [betaLlc] betaInvoices = [_] :=
    List.mergeSort_singleton _
  have hmem := hone ▸ List.mem_singleton_self _
  obtain ⟨customer, hcustomer, -, hsorted⟩ := hkept [betaLlc] betaInvoices _ hmem
  rw [List.mem_singleton.mp hcustomer] at hsorted
  obtain ⟨hperm, hascending⟩ := hsorted betaInvoices_not_straddled
  rw [matched_betaInvoices] at hperm
  exact ⟨(htotal _).mpr betaInvoices_not_straddled, _, hmem, hperm, hascending⟩

/-- `9` comes before `10`, `10` before `1a`, and `1a` before `9`. -/
theorem mixed_numbers_cycle :
    invoiceOrder (datedInvoice "2026-09-05" "9") (datedInvoice "2026-09-05" "10") = .lt ∧
    invoiceOrder (datedInvoice "2026-09-05" "10") (datedInvoice "2026-09-05" "1a") = .lt ∧
    invoiceOrder (datedInvoice "2026-09-05" "9") (datedInvoice "2026-09-05" "1a") = .gt := by
  decide +kernel

end JobRunner.Jobctl
