import JobRunner.Jobctl.InvoiceOrder
import Mathlib.Algebra.GroupWithZero.Nat
import Mathlib.Algebra.Order.BigOperators.Group.List
import Mathlib.Algebra.Order.Group.Nat
import Mathlib.Data.List.Forall2

/-!
# Whose invoices they are (`jobctl::qbo`)

`attach_invoices` gives each customer its invoices "by id, else by name". Its filter accepts
either, so that an invoice with the id of one customer and the name of another is given to
both.

- `belongs`: by id, else by name.
- `Mistaken`: the ids differ and the names are the same.
- `AttachedRight.of_sorted`, `AttachedRight.not_straddled`: the invoices are all there where
  the sort gets a total preorder, and only there if it gives up elsewhere.
- `attached_right_iff`: every customer has its own invoices, once each, **exactly** if no
  invoice is mistaken and no customer's invoices are straddled.
-/

open Text Decimal

namespace JobRunner.Jobctl

variable (P : Platform) (customer : CustomerSales P.F64) (invoice : Json)

/-- `CustomerRef.value` of an invoice. -/
def referredId : Option String := text P ((invoice.index "CustomerRef").index "value")

/-- The name of the invoice is that of the customer. -/
def sameName : Bool :=
  (text P ((invoice.index "CustomerRef").index "name")).any fun name =>
    eqIgnoreAsciiCase (trim name) (trim customer.name)

/-- By id, else by name: the name counts where the invoice or the customer has no id. -/
def belongs : Bool :=
  match customer.qboCustomerId, referredId P invoice with
  | some id, some referred => referred = id
  | _, _ => sameName P customer invoice

/-- The invoice has the id of somebody else and the name of the customer. -/
def Mistaken : Prop :=
  ∃ id referred, customer.qboCustomerId = some id ∧ referredId P invoice = some referred ∧
    referred ≠ id ∧ sameName P customer invoice = true

variable {P customer invoice}

theorem invoiceMatches_eq : invoiceMatches P customer invoice =
    ((customer.qboCustomerId.isSome && decide (referredId P invoice = customer.qboCustomerId)) ||
      sameName P customer invoice) := rfl

/-- The filter is right exactly about the invoices that are not mistaken: it lets
the name decide also where there is an id that says otherwise. -/
theorem invoiceMatches_eq_belongs_iff :
    invoiceMatches P customer invoice = belongs P customer invoice ↔
      ¬Mistaken P customer invoice := by
  rw [invoiceMatches_eq]
  unfold belongs Mistaken
  rcases customer.qboCustomerId with _ | id
  · simp
  · rcases referredId P invoice with _ | referred
    · simp
    · by_cases hid : referred = id <;> simp [hid]

/-- The same platform with another sort. -/
abbrev Platform.sortingBy (P : Platform)
    (sortBy : {α : Type} → (α → α → Ordering) → List α → List α) : Platform :=
  { P with sortBy := fun cmp items => sortBy cmp items }

/-- Customers with their own invoices. -/
structure AttachedRight (P : Platform) (customers : List (CustomerSales P.F64))
    (invoices : List Json) : Prop where
  /-- An invoice is attached to a customer exactly if it belongs to it. -/
  attached : ∀ customer ∈ customers, ∀ invoice ∈ invoices,
    invoiceMatches P customer invoice = belongs P customer invoice
  /-- The result is the customers, in some order, each with its invoices once each. -/
  once : ∃ result, result.Perm (attachInvoices P customers invoices) ∧
    List.Forall₂ (fun customer c => c = { customer with invoices := c.invoices } ∧
      c.invoices.Perm ((invoices.filter (belongs P customer)).map (attachedInvoice P)))
      customers result
  /-- No invoice with an id is attached to two customers with distinct ids. -/
  exclusive : customers.Pairwise fun c d => ∀ id id', c.qboCustomerId = some id →
    d.qboCustomerId = some id' → id ≠ id' → ∀ invoice ∈ invoices,
      (referredId P invoice).isSome = true →
      ¬(invoiceMatches P c invoice = true ∧ invoiceMatches P d invoice = true)

/-- An invoice with an id belongs to the customers with that id. -/
theorem belongs_of_id {id referred : String} (hid : customer.qboCustomerId = some id)
    (hreferred : referredId P invoice = some referred) :
    belongs P customer invoice = decide (referred = id) := by
  unfold belongs
  rw [hid, hreferred]

theorem AttachedRight.not_mistaken {customers : List (CustomerSales P.F64)} {invoices : List Json}
    (h : AttachedRight P customers invoices) :
    ∀ customer ∈ customers, ∀ invoice ∈ invoices, ¬Mistaken P customer invoice := fun c hc i hi =>
  invoiceMatches_eq_belongs_iff.mp (h.attached c hc i hi)

/-- Where every sort gets a total preorder, all invoices are attached. A lawful sort
then returns them in another order at most, and what is matched is right by
assumption. -/
theorem AttachedRight.of_sorted (hsort : Sorting.Lawful P.sortBy)
    {customers : List (CustomerSales P.F64)} {invoices : List Json}
    (hnone : ∀ customer ∈ customers, ∀ invoice ∈ invoices, ¬Mistaken P customer invoice)
    (htotal : ∀ customer ∈ customers, ¬Straddled (matchedInvoices P customer invoices)) :
    AttachedRight P customers invoices := by
  have hmatch : ∀ customer ∈ customers, ∀ invoice ∈ invoices,
      invoiceMatches P customer invoice = belongs P customer invoice := fun c hc i hi =>
    invoiceMatches_eq_belongs_iff.mpr (hnone c hc i hi)
  refine ⟨hmatch, ⟨_, (hsort.perm (totalOn_firstDate P _)).symm, ?_⟩, ?_⟩
  · rw [List.forall₂_map_right_iff, List.forall₂_same]
    intro c hc
    refine ⟨rfl, ?_⟩
    rw [← List.filter_congr (hmatch c hc)]
    exact hsort.perm ((totalOn_invoiceOrder_iff _).mpr (htotal c hc))
  · refine List.Pairwise.imp_of_mem ?_ (List.pairwise_of_forall fun _ _ => trivial)
    intro c d hc hd _ id id' hid hid' hne invoice hi hsome ⟨hmc, hmd⟩
    obtain ⟨referred, hreferred⟩ := Option.isSome_iff_exists.mp hsome
    rw [hmatch c hc invoice hi, belongs_of_id hid hreferred, decide_eq_true_eq] at hmc
    rw [hmatch d hd invoice hi, belongs_of_id hid' hreferred, decide_eq_true_eq] at hmd
    exact hne (hmc.symm.trans hmd)

/-- How many invoices the customers have. -/
def invoiceCount {F : Type} (customers : List (CustomerSales F)) : Nat :=
  (customers.map fun c => c.invoices.length).sum

/-- The invoices that the result must have, counted. A customer whose invoices are
lost shows in this number. -/
theorem AttachedRight.count {customers : List (CustomerSales P.F64)} {invoices : List Json}
    (h : AttachedRight P customers invoices) :
    invoiceCount (attachInvoices P customers invoices) =
      (customers.map fun c => (matchedInvoices P c invoices).length).sum := by
  obtain ⟨result, hperm, hall⟩ := h.once
  rw [invoiceCount, ← (hperm.map _).sum_eq]
  have hattached := h.attached
  clear hperm h
  induction hall with
  | nil => rfl
  | @cons customer c customers result hc _ ih =>
    have hlength : c.invoices.length = (matchedInvoices P customer invoices).length := by
      rw [hc.2.length_eq, matchedInvoices,
        List.filter_congr (hattached customer (List.mem_cons_self ..))]
    rw [List.map_cons, List.map_cons, List.sum_cons, List.sum_cons, hlength,
      ih fun c hc => hattached c (List.mem_cons_of_mem _ hc)]

/-- A sort that gives up where it may loses the invoices of a customer that are
straddled. So the condition cannot be weakened for all sorts at once. -/
theorem AttachedRight.not_straddled
    (hstrict : ∀ {α : Type} (cmp : α → α → Ordering) (items : List α),
      P.sortBy cmp items = Sorting.strictSort cmp items)
    {customers : List (CustomerSales P.F64)} {invoices : List Json}
    (h : AttachedRight P customers invoices) :
    ∀ customer ∈ customers, ¬Straddled (matchedInvoices P customer invoices) := by
  intro customer hmem hstraddled
  have hcount := h.count
  have hsorted : invoiceCount (attachInvoices P customers invoices) =
      (customers.map fun c =>
        (Sorting.strictSort invoiceOrder (matchedInvoices P c invoices)).length).sum := by
    unfold attachInvoices
    rw [hstrict, invoiceCount,
      ((Sorting.strictSort_lawful.perm (totalOn_firstDate P _)).map _).sum_eq, List.map_map]
    refine congrArg List.sum (List.map_congr_left fun c _ => ?_)
    exact congrArg List.length (hstrict _ _)
  have hlt : (customers.map fun c =>
      (Sorting.strictSort invoiceOrder (matchedInvoices P c invoices)).length).sum <
        (customers.map fun c => (matchedInvoices P c invoices).length).sum := by
    refine List.sum_lt_sum _ _ (fun c _ => ?_) ⟨customer, hmem, ?_⟩
    · exact Sorting.length_strictSort_le _ _
    · -- the straddled invoices are there, and the sort gives none of them back
      rw [Sorting.strictSort_of_not fun h => (totalOn_invoiceOrder_iff _).mp h hstraddled]
      obtain ⟨a, ha, -⟩ := hstraddled
      exact List.length_pos_of_mem ha
  omega

section SortingBy

variable (sortBy : {α : Type} → (α → α → Ordering) → List α → List α)

theorem ofNumber_sortingBy (x : Option P.F64) :
    ofNumber (P.sortingBy sortBy) x = ofNumber P x := by
  cases x <;> rfl

/-- The sort has no part in what is matched. -/
theorem matchedInvoices_sortingBy (customer : CustomerSales P.F64) (invoices : List Json) :
    matchedInvoices (P.sortingBy sortBy) customer invoices =
      matchedInvoices P customer invoices := by
  refine List.map_congr_left fun invoice _ => ?_
  simp only [attachedInvoice, ofNumber_sortingBy]
  rfl

end SortingBy

/-- **By id, else by name.** Whatever `sort_by` does where it promises nothing, every customer
has its own invoices exactly if no invoice is mistaken and no customer's invoices are
straddled. -/
theorem attached_right_iff (customers : List (CustomerSales P.F64)) (invoices : List Json) :
    (∀ sortBy : {α : Type} → (α → α → Ordering) → List α → List α, Sorting.Lawful sortBy →
      AttachedRight (P.sortingBy sortBy) customers invoices) ↔
      (∀ customer ∈ customers, ∀ invoice ∈ invoices, ¬Mistaken P customer invoice) ∧
        ∀ customer ∈ customers, ¬Straddled (matchedInvoices P customer invoices) := by
  constructor
  · intro h
    have hstrict := h Sorting.strictSort Sorting.strictSort_lawful
    refine ⟨hstrict.not_mistaken, fun customer hmem => ?_⟩
    rw [← matchedInvoices_sortingBy Sorting.strictSort]
    exact hstrict.not_straddled (fun _ _ => rfl) customer hmem
  · rintro ⟨hnone, htotal⟩ sortBy hsort
    refine AttachedRight.of_sorted hsort hnone fun customer hmem => ?_
    rw [matchedInvoices_sortingBy]
    exact htotal customer hmem

/-- A customer that the report names without an id. -/
def gammaInc : CustomerSales wholePlatform.F64 := ⟨"Gamma Inc", (90 : Int), none, []⟩

/-- An invoice of customer 12, whose name is that of customer 9. -/
def namesakeInvoice : Json := rawInvoice "12" "beta llc" "11"

/-- Two invoices of customer 9, and one of a customer that is known by its name. -/
theorem beta_gamma_attached : AttachedRight wholePlatform [betaLlc, gammaInc]
    (betaInvoices ++ [rawInvoice "30" "GAMMA INC" "3"]) := by
  have hright : ([betaLlc, gammaInc].all fun customer =>
      (betaInvoices ++ [rawInvoice "30" "GAMMA INC" "3"]).all fun invoice =>
        invoiceMatches wholePlatform customer invoice == belongs wholePlatform customer invoice) =
      true := by decide +kernel
  have hnumbers : ([betaLlc, gammaInc].all fun customer =>
      (matchedInvoices wholePlatform customer
        (betaInvoices ++ [rawInvoice "30" "GAMMA INC" "3"])).all fun summary =>
          (parseU64 (docNumber summary)).isSome) = true := by decide +kernel
  rw [List.all_eq_true] at hright hnumbers
  refine (attached_right_iff (P := wholePlatform) _ _).mpr
    ⟨fun customer hc invoice hi => ?_, fun customer hc => ?_⟩ _ wholePlatform_sorts
  · exact invoiceMatches_eq_belongs_iff.mp
      (beq_iff_eq.mp (List.all_eq_true.mp (hright customer hc) invoice hi))
  · exact not_straddled_of_numbers (List.all_eq_true.mp (hnumbers customer hc))

/-- The invoice of customer 12 is attached to customer 9 as well. -/
theorem namesake_attached : ¬AttachedRight wholePlatform [betaLlc] [namesakeInvoice] := by
  intro h
  have hattached := h.attached betaLlc (List.mem_singleton_self _) namesakeInvoice
    (List.mem_singleton_self _)
  revert hattached
  decide +kernel

end JobRunner.Jobctl
