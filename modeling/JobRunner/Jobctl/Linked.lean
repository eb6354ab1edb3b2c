import JobRunner.Jobctl.Customers

/-!
# Links by number (`jobctl::qbo`)

`linked_crm_customers` takes ids as texts, looks them up as numbers and hands the rows out
under the printed numbers. A text with leading zeros is a number, and not a printed one.

- `linkedTo`: the customers that a text links to, as a number.
- `Plain`: the texts that are printed `i64`.
- `get?_of_plain`, `get?_of_not_plain`: what is found under a text.
- `linked_right_iff`: the customers are found, and `customer_invoices` decides by them,
  **exactly** if every text that links to one is plain.
-/

open Text Decimal Machine

namespace JobRunner.Jobctl

/-- A row of the answer of `linked_crm_customers`. -/
def crmCustomer (c : Customer) : Json :=
  .obj [("customerId", .int c.id), ("name", .ofOption c.name)]

/-- The live customers of the company whose `qbo_id` is the number that the text spells. -/
def linkedTo (crm : Crm) (companyId : Int) (id : String) : List Customer :=
  (crm.live companyId).filter fun c => c.qboId.isSome && c.qboId = (digits? id.toList).map Int.ofNat

/-- The text is a printed `i64`. -/
def Plain (id : String) : Prop := ∃ n, InRange n ∧ toString n = id

/-! ## What is looked up -/

theorem toString_injective {m n : Int} (hm : InRange m) (hn : InRange n)
    (h : toString m = toString n) : m = n := by
  have hparse := congrArg parseI64 h
  rw [parseI64_toString_eq, parseI64_toString_eq, checked_of_inRange hm,
    checked_of_inRange hn] at hparse
  exact Option.some.inj hparse

theorem digits?_of_isEntityId {id : String} (h : isEntityId id = true) :
    ∃ n, digits? id.toList = some n := by
  unfold isEntityId at h
  simp only [Bool.and_eq_true, decide_eq_true_eq] at h
  unfold digits?
  rw [if_pos]
  · exact ⟨_, rfl⟩
  · refine ⟨fun hnil => ?_, h.2⟩
    have hempty : id = "" := String.toList_injective hnil
    rw [hempty] at h
    exact absurd h.1.1 (by decide)

/-- A text of digits is parsed to its number, if that is an `i64`. Leading zeros are
accepted here, and lost. -/
theorem parseI64_of_isEntityId {id : String} (h : isEntityId id = true) {n : Nat}
    (hn : digits? id.toList = some n) : parseI64 id = checked n := by
  rcases hlist : id.toList with _ | ⟨c, cs⟩
  · rw [hlist] at hn
    cases hn
  · have hall : id.toList.all Char.isDigit = true := by
      unfold isEntityId at h
      simp only [Bool.and_eq_true] at h
      exact h.2
    have hc : c.isDigit = true := List.all_eq_true.mp hall c (hlist ▸ List.mem_cons_self ..)
    rw [parseI64_of_head hlist hc, ← hlist, hn, Option.bind_some]

theorem inRange_of_parseI64 {s : String} {n : Int} (h : parseI64 s = some n) : InRange n := by
  unfold parseI64 at h
  split at h <;>
  · obtain ⟨m, -, hchecked⟩ := Option.bind_eq_some_iff.mp h
    obtain ⟨rfl, hrange⟩ := checked_eq_some hchecked
    exact hrange

theorem inRange_of_queried {qboIds : List String} {n : Int} (h : n ∈ queriedIds qboIds) :
    InRange n := by
  obtain ⟨id, -, hparse⟩ := List.mem_filterMap.mp h
  exact inRange_of_parseI64 hparse

/-! ## What is found -/

variable {crm : Crm} {companyId : Int} {qboIds : List String} {id : String} {n : Nat}

/-- The entry of a row. -/
def linkRow (queried : List Int) (c : Customer) : Option (String × Json) :=
  c.qboId.bind fun n => if n ∈ queried then some (toString n, crmCustomer c) else none

theorem linkedCrmCustomers_eq : linkedCrmCustomers (.ok crm) companyId qboIds =
    .ok ((crm.live companyId).filterMap (linkRow (queriedIds qboIds))) := by
  unfold linkedCrmCustomers
  split
  next hnone =>
    have hempty : (crm.live companyId).filterMap (linkRow (queriedIds qboIds)) = [] := by
      rw [List.filterMap_eq_nil_iff]
      intro c _
      unfold linkRow
      rcases c.qboId with _ | n
      · rfl
      · simp [hnone]
    rw [hempty]
  · refine congrArg Except.ok (List.filterMap_congr fun c _ => ?_)
    unfold linkRow
    rcases c.qboId with _ | n <;> rfl

theorem linkedTo_eq (hn : digits? id.toList = some n) :
    linkedTo crm companyId id = (crm.live companyId).filter fun c => c.qboId = some (n : Int) := by
  unfold linkedTo
  refine List.filter_congr fun c _ => ?_
  rw [hn]
  rcases c.qboId with _ | m
  · rfl
  · rfl

/-- The number of a plain text is looked up. -/
theorem number_of_plain (hplain : Plain id) (hid : isEntityId id = true)
    (hn : digits? id.toList = some n) : InRange n ∧ toString (n : Int) = id := by
  obtain ⟨m, hm, rfl⟩ := hplain
  have hparse := parseI64_of_isEntityId hid hn
  rw [parseI64_toString_eq, checked_of_inRange hm] at hparse
  obtain ⟨rfl, hrange⟩ := checked_eq_some hparse.symm
  exact ⟨hrange, rfl⟩

theorem mem_queriedIds (hmem : id ∈ qboIds) (hid : isEntityId id = true)
    (hn : digits? id.toList = some n) (hrange : InRange n) : (n : Int) ∈ queriedIds qboIds := by
  refine List.mem_filterMap.mpr ⟨id, List.mem_filter.mpr ⟨hmem, hid⟩, ?_⟩
  rw [parseI64_of_isEntityId hid hn, checked_of_inRange hrange]

/-- Under a plain text, the rows that it links to: the number is looked up, and is
printed back as the same text. -/
theorem linkRow_of_plain (hplain : Plain id) (hmem : id ∈ qboIds) (hid : isEntityId id = true)
    (hn : digits? id.toList = some n) (c : Customer) :
    (linkRow (queriedIds qboIds) c).filter (·.1 = id) =
      if c.qboId = some (n : Int) then some (id, crmCustomer c) else none := by
  obtain ⟨hrange, hprint⟩ := number_of_plain hplain hid hn
  unfold linkRow
  rcases c.qboId with _ | m
  · rfl
  · by_cases hm : m = n
    · rw [hm, Option.bind_some, if_pos (mem_queriedIds hmem hid hn hrange), if_pos rfl, hprint]
      simp
    · have hne : some m ≠ some (n : Int) := fun h => hm (Option.some.inj h)
      rw [Option.bind_some, if_neg hne]
      split
      next hqueried =>
        have hkey : toString m ≠ id := fun h =>
          hm (toString_injective (inRange_of_queried hqueried) hrange (h.trans hprint.symm))
        exact if_neg (by rwa [decide_eq_true_eq])
      · rfl

/-- Under any other text, nothing: the result is kept under the printed number,
which is another text. -/
theorem linkRow_of_not_plain (hplain : ¬Plain id) (c : Customer) :
    (linkRow (queriedIds qboIds) c).filter (·.1 = id) = none := by
  unfold linkRow
  rcases c.qboId with _ | m
  · rfl
  · rw [Option.bind_some]
    split
    next hqueried =>
      have hkey : toString m ≠ id := fun h => hplain ⟨m, inRange_of_queried hqueried, h⟩
      exact if_neg (by rwa [decide_eq_true_eq])
    · rfl

/-- The answer about some rows. -/
def found (rows : List Customer) : Option (List Json) :=
  if rows = [] then none else some (rows.map crmCustomer)

theorem get?_of_filter {linked : LinkedCustomers} {rows : List Customer}
    (h : linked.filter (·.1 = id) = rows.map fun c => (id, crmCustomer c)) :
    linked.get? id = found rows := by
  unfold LinkedCustomers.get? found
  rw [h]
  cases rows with
  | nil => rfl
  | cons c rows => simp

theorem get?_of_plain (hplain : Plain id) (hmem : id ∈ qboIds) (hid : isEntityId id = true) :
    LinkedCustomers.get? ((crm.live companyId).filterMap (linkRow (queriedIds qboIds))) id =
      found (linkedTo crm companyId id) := by
  obtain ⟨n, hn⟩ := digits?_of_isEntityId hid
  refine get?_of_filter ?_
  rw [List.filter_filterMap, linkedTo_eq hn, List.filterMap_congr fun c _ =>
    linkRow_of_plain hplain hmem hid hn c]
  induction crm.live companyId with
  | nil => rfl
  | cons c rows ih =>
    by_cases hc : c.qboId = some (n : Int)
    · simp [hc, ih]
    · simp [hc, ih]

theorem get?_of_not_plain (hplain : ¬Plain id) :
    LinkedCustomers.get? ((crm.live companyId).filterMap (linkRow (queriedIds qboIds))) id =
      none := by
  have hnone : ((crm.live companyId).filterMap (linkRow (queriedIds qboIds))).filter (·.1 = id) =
      ([] : List Customer).map fun c => (id, crmCustomer c) := by
    rw [List.filter_filterMap, List.filterMap_congr fun c _ => linkRow_of_not_plain hplain c]
    simp
  exact get?_of_filter hnone

/-! ## Whose invoices may be seen -/

variable {P : Platform} {session : Session} {args : Json}

/-- What `customer_invoices` does with a QuickBooks id, for a user who is no admin. -/
theorem customerInvoices_eq (hadmin : session.scope.isAdmin = false)
    (hnone : optionalPositive args "customer_id" = .ok none)
    (hid : optionalEntityId P args "qbo_customer_id" = .ok (some id)) {linked : LinkedCustomers}
    (hlinked : linkedCrmCustomers (.ok crm) session.scope.companyId [id] = .ok linked) :
    customerInvoices P session (.ok crm) args =
      if (linked.get? id).isNone then .fail unlinkedCustomer
      else do
        let invoices ← invoicesForCustomer P id
        return .obj [
          ("qboCustomerId", .str id),
          ("crmCustomers", .arr ((linked.get? id).getD [])),
          ("invoices", .arr invoices)] := by
  unfold customerInvoices
  rw [hnone, hid]
  simp only [Dialogue.done_ok_bind, hlinked, hadmin, Bool.not_false, Bool.true_and]

/-- The invoices are asked for. -/
theorem invoicesForCustomer_ne_done (f : List Json → Asking Json) (err : ToolError) :
    (invoicesForCustomer P id >>= f) ≠ .fail err := nofun

/-- The links of a list of ids, and what `customer_invoices` makes of them. -/
structure LinkedRight (P : Platform) (crm : Crm) (companyId : Int) (qboIds : List String) :
    Prop where
  /-- Under each id, exactly the customers whose `qbo_id` is that number. -/
  finds : ∀ id ∈ qboIds, isEntityId id = true → ∃ linked,
    linkedCrmCustomers (.ok crm) companyId qboIds = .ok linked ∧
      linked.get? id = found (linkedTo crm companyId id)
  /-- A user who is no admin is denied exactly the ids without customers, and is shown the
  customers of the others. -/
  serves : ∀ id ∈ qboIds, isEntityId id = true → ∀ session args,
    session.scope.companyId = companyId → session.scope.isAdmin = false →
    optionalPositive args "customer_id" = .ok none →
    optionalEntityId P args "qbo_customer_id" = .ok (some id) →
    (customerInvoices P session (.ok crm) args = .fail unlinkedCustomer ↔
      linkedTo crm companyId id = []) ∧
    ∀ answers result, (customerInvoices P session (.ok crm) args).eval answers = .ok result →
      result.get? "crmCustomers" = some (.arr ((linkedTo crm companyId id).map crmCustomer))

/-- What is found of the rows is denied or shown. -/
theorem serves_of_found (hadmin : session.scope.isAdmin = false)
    (hnone : optionalPositive args "customer_id" = .ok none)
    (hid : optionalEntityId P args "qbo_customer_id" = .ok (some id)) {linked : LinkedCustomers}
    {rows : List Customer}
    (hlinked : linkedCrmCustomers (.ok crm) session.scope.companyId [id] = .ok linked)
    (hfound : linked.get? id = found rows) :
    (customerInvoices P session (.ok crm) args = .fail unlinkedCustomer ↔ rows = []) ∧
      ∀ answers result, (customerInvoices P session (.ok crm) args).eval answers = .ok result →
        result.get? "crmCustomers" = some (.arr (rows.map crmCustomer)) := by
  rw [customerInvoices_eq hadmin hnone hid hlinked, hfound]
  unfold found
  by_cases hrows : rows = []
  · rw [if_pos hrows]
    exact ⟨iff_of_true rfl hrows, fun answers result h => nomatch h⟩
  · rw [if_neg hrows]
    refine ⟨iff_of_false (invoicesForCustomer_ne_done _ _) hrows, fun answers result h => ?_⟩
    simp only [Option.isNone_some, Bool.false_eq_true, if_false, Dialogue.eval_bind] at h
    obtain ⟨invoices, -, h⟩ := Except.bind_eq_ok.mp h
    cases h
    rfl

/-- **Links are found exactly under plain ids.** -/
theorem linked_right_iff (P : Platform) (crm : Crm) (companyId : Int) (qboIds : List String) :
    LinkedRight P crm companyId qboIds ↔
      ∀ id ∈ qboIds, isEntityId id = true → linkedTo crm companyId id ≠ [] → Plain id := by
  constructor
  · intro h id hmem hid hrows
    by_contra hplain
    obtain ⟨linked, hlinked, hfound⟩ := h.finds id hmem hid
    rw [linkedCrmCustomers_eq] at hlinked
    cases hlinked
    rw [get?_of_not_plain hplain, found, if_neg hrows] at hfound
    cases hfound
  · intro hplain
    have hget : ∀ ids : List String, ∀ id ∈ ids, id ∈ qboIds → isEntityId id = true →
        LinkedCustomers.get? ((crm.live companyId).filterMap (linkRow (queriedIds ids))) id =
          found (linkedTo crm companyId id) := by
      intro ids id hmem hpassed hid
      by_cases hrows : linkedTo crm companyId id = []
      · by_cases h : Plain id
        · exact get?_of_plain h hmem hid
        · rw [get?_of_not_plain h, found, if_pos hrows]
      · exact get?_of_plain (hplain id hpassed hid hrows) hmem hid
    refine ⟨fun id hmem hid => ⟨_, linkedCrmCustomers_eq, hget qboIds id hmem hmem hid⟩, ?_⟩
    rintro id hmem hid session args rfl hadmin hnone hargs
    exact serves_of_found hadmin hnone hargs linkedCrmCustomers_eq
      (hget [id] id (List.mem_singleton_self id) hmem hid)

theorem not_plain_zeros : ¬Plain "0009" := by
  rintro ⟨n, hn, hprint⟩
  have hparse := parseI64_toString_eq n
  have hnine : parseI64 "0009" = some 9 := by decide +kernel
  rw [hprint, checked_of_inRange hn, hnine] at hparse
  cases hparse
  revert hprint
  decide +kernel

/-- Customer 9 of `sampleCrm` is linked, and not found as `0009`. -/
theorem leading_zeros_not_found : ¬LinkedRight wholePlatform sampleCrm 4 ["0009"] := by
  intro h
  have hrows : linkedTo sampleCrm 4 "0009" ≠ [] := by decide +kernel
  obtain ⟨linked, hlinked, hfound⟩ :=
    h.finds "0009" (List.mem_singleton_self _) (by decide +kernel)
  rw [linkedCrmCustomers_eq] at hlinked
  cases hlinked
  rw [get?_of_not_plain not_plain_zeros, found, if_neg hrows] at hfound
  cases hfound

end JobRunner.Jobctl
