import JobRunner.Jobctl.OmitZero

/-!
# Which data rows are left (`jobctl::qbo`)

`omit_zero_rows` is to drop the data rows that are zero and no others. Rows go three ways
through it: in the chunk of a section, alone, or in the one variable for the 'Not Specified'
row. The last way has room for one row.

- `filter_kept`: nothing is lost on the first two ways.
- `filter_omitZeroRows`: the data rows that are left.
- `conserved_iff`: no data row is lost **exactly when** only the last 'Not Specified' row is
  not zero.
-/

namespace JobRunner.Jobctl

variable {P : Platform}

/-- **The pass keeps the data rows in their order**, but for zeros and the 'Not
Specified' row. By induction on the rows, for both states of the section. -/
theorem filter_kept (isOpen : Bool) (rows : List (Row P.F64)) :
    (kept P id isOpen rows).filter (fun r => r.kind = .data) =
      rows.filter fun r => r.counts P && !r.isNotSpecified := by
  induction rows generalizing isOpen with
  | nil => rfl
  | cons r rest ih =>
    rw [List.filter_cons]
    unfold Row.counts at ih ⊢
    rcases r.handling with h | h | h | ⟨h, hns⟩ | h
    · rw [kept_grand isOpen h, ih]
      simp [h]
    · rw [kept_ns isOpen h, ih]
      simp [h]
    · rw [kept_header isOpen h]
      split <;> simp [h, ih]
    · rw [kept_data isOpen h hns]
      cases hz : r.isZero P <;> simp [h, hz, hns, ih]
    · rw [kept_total isOpen h]
      split <;> simp [h, ih]

/-- The data rows that are left: the 'Not Specified' row comes last, and there is at
most one of it. -/
theorem filter_omitZeroRows (rows : List (Row P.F64)) :
    (omitZeroRows P rows).filter (fun r => r.kind = .data) =
      (rows.filter fun r => r.counts P && !r.isNotSpecified) ++
        ((lastOf Row.isNotSpecified rows).filter fun r => !r.isZero P).toList := by
  have hns : ∀ r ∈ ((lastOf Row.isNotSpecified rows).filter fun r => !r.isZero P).toList,
      decide (r.kind = .data) = true := fun r hr => by
    rw [Option.mem_toList, Option.filter_eq_some_iff] at hr
    exact decide_eq_true (Row.kind_of_isNotSpecified (of_lastOf hr.1))
  have hgrand : ∀ r ∈ (lastOf (isGrand id) rows).toList, ¬ decide (r.kind = .data) = true :=
    fun r hr => by
      have hlast := of_lastOf (Option.mem_toList.mp hr)
      have hkind : r.kind = .grandTotal := of_decide_eq_true hlast
      simp [hkind]
  show (omitZeroBy P id rows).filter (fun r => r.kind = .data) = _
  rw [omitZeroBy_eq, List.filter_append, List.filter_append, filter_kept,
    List.filter_eq_nil_iff.mpr hgrand, List.append_nil]
  congr 1
  exact List.filter_eq_self.mpr hns

/-! ## The one place for a 'Not Specified' row -/

/-- The last item is all that is left of some **exactly when** those before it are not of
that kind. -/
theorem perm_getLast?_iff {α : Type} (q : α → Bool) (items : List α) :
    (items.getLast?.filter q).toList.Perm (items.filter q) ↔ ∀ r ∈ items.dropLast, q r = false := by
  rcases List.eq_nil_or_concat items with rfl | ⟨before, last, rfl⟩
  · simp
  · rw [List.concat_eq_append, List.getLast?_concat, List.dropLast_concat, List.filter_append]
    have hlast : ((some last).filter q).toList = [last].filter q := by
      cases hq : q last <;> simp [hq, Option.filter]
    rw [hlast]
    constructor
    · intro hperm r hr
      have hlen := hperm.length_eq
      rw [List.length_append] at hlen
      have hnone : before.filter q = [] := List.length_eq_zero_iff.mp (by omega)
      exact Bool.eq_false_iff.mpr (List.filter_eq_nil_iff.mp hnone r hr)
    · intro hnone
      rw [List.filter_eq_nil_iff.mpr fun r hr => Bool.eq_false_iff.mp (hnone r hr),
        List.nil_append]

/-- The data rows that count, the 'Not Specified' rows last. Only the order changes
by this, which the multiset and the sum do not see. -/
theorem counts_perm (rows : List (Row P.F64)) :
    ((rows.filter fun r => r.counts P && !r.isNotSpecified) ++
      (rows.filter Row.isNotSpecified).filter fun r => !r.isZero P).Perm
      (rows.filter (Row.counts P)) := by
  have hsplit := List.filter_append_perm (fun r => !r.isNotSpecified) (rows.filter (Row.counts P))
  simp only [List.filter_filter, Bool.not_not] at hsplit ⊢
  refine (List.Perm.of_eq ?_).trans hsplit
  congr 1
  · exact List.filter_congr fun r _ => Bool.and_comm _ _
  · refine List.filter_congr fun r _ => ?_
    unfold Row.counts
    cases hns : r.isNotSpecified with
    | false => simp
    | true => simp [Row.kind_of_isNotSpecified hns]

/-- **What is kept of the data rows** when `left` is left of `rows`. -/
structure Conserved (P : Platform) (rows left : List (Row P.F64)) : Prop where
  perm : (left.filter fun r => r.kind = .data).Perm (rows.filter (Row.counts P))
  total : P.Exact → amountTotal P .data left = amountTotal P .data rows
  order : (left.filter fun r => decide (r.kind = .data) && !r.isNotSpecified) =
    rows.filter fun r => r.counts P && !r.isNotSpecified

/-- The amounts of the rows that count are those that are not zero. -/
theorem filterMap_counts (rows : List (Row P.F64)) :
    (rows.filter (Row.counts P)).filterMap Row.amount =
      ((rows.filter fun r => r.kind = .data).filterMap Row.amount).filter
        fun x => !P.isZero x := by
  induction rows with
  | nil => rfl
  | cons r rest ih =>
    unfold Row.counts Row.isZero at ih ⊢
    cases hkind : decide (r.kind = .data) with
    | false => simpa [hkind] using ih
    | true =>
      cases hamount : r.amount with
      | none => simpa [hkind, hamount] using ih
      | some x => cases hx : P.isZero x <;> simpa [hkind, hamount, hx] using ih

/-- The sum does not change when the rows that count stay, in whatever order: a zero
adds nothing, and exact sums do not depend on the order. -/
theorem amountTotal_data_eq {rows left : List (Row P.F64)} (h : P.Exact)
    (hperm : (left.filter fun r => r.kind = .data).Perm (rows.filter (Row.counts P))) :
    amountTotal P .data left = amountTotal P .data rows := by
  show total P ((left.filter fun r => r.kind = .data).filterMap Row.amount) = _
  rw [total_perm h (hperm.filterMap Row.amount), filterMap_counts, total_nonzero h]
  rfl

/-- **The order never changes**, but for the 'Not Specified' row. -/
theorem filter_omitZeroRows_specified (rows : List (Row P.F64)) :
    ((omitZeroRows P rows).filter fun r => decide (r.kind = .data) && !r.isNotSpecified) =
      rows.filter fun r => r.counts P && !r.isNotSpecified := by
  have hnone : ∀ r ∈ ((lastOf Row.isNotSpecified rows).filter fun r => !r.isZero P).toList,
      ¬ (!r.isNotSpecified) = true := fun r hr => by
    rw [Option.mem_toList, Option.filter_eq_some_iff] at hr
    simp [of_lastOf hr.1]
  have hsplit : ((omitZeroRows P rows).filter fun r => decide (r.kind = .data) &&
      !r.isNotSpecified) =
      ((omitZeroRows P rows).filter fun r => r.kind = .data).filter fun r => !r.isNotSpecified := by
    rw [List.filter_filter]
    exact List.filter_congr fun r _ => Bool.and_comm _ _
  rw [hsplit, filter_omitZeroRows, List.filter_append, List.filter_eq_nil_iff.mpr hnone,
    List.append_nil, List.filter_filter]
  exact List.filter_congr fun r _ => by simp

/-- **When no data row is lost**: exactly when of the 'Not Specified' rows only the last one
is not zero. -/
theorem conserved_iff (P : Platform) (rows : List (Row P.F64)) :
    Conserved P rows (omitZeroRows P rows) ↔
      ∀ r ∈ (rows.filter Row.isNotSpecified).dropLast, r.isZero P = true := by
  have hiff : ((omitZeroRows P rows).filter fun r => r.kind = .data).Perm
      (rows.filter (Row.counts P)) ↔
      ∀ r ∈ (rows.filter Row.isNotSpecified).dropLast, (!r.isZero P) = false := by
    rw [filter_omitZeroRows, ← perm_getLast?_iff, lastOf_eq_getLast?]
    exact ⟨fun h => (List.perm_append_left_iff _).mp (h.trans (counts_perm rows).symm),
      fun h => (h.append_left _).trans (counts_perm rows)⟩
  simp only [Bool.not_eq_false'] at hiff
  exact ⟨fun h => hiff.mp h.perm,
    fun h => ⟨hiff.mpr h, fun hexact => amountTotal_data_eq hexact (hiff.mpr h),
      filter_omitZeroRows_specified rows⟩⟩

/-- A data row of a report, with a whole amount. -/
def amountRow (name : String) (amount : Int) : Row wholePlatform.F64 :=
  ⟨name, some amount, 0, .data, none⟩

/-- Two sections of a report may have a 'Not Specified' row each: the first is lost. -/
theorem second_unspecified_replaces_first :
    ¬ Conserved wholePlatform [amountRow "Not Specified" 5, amountRow "Not Specified" 7]
      (omitZeroRows wholePlatform
        [amountRow "Not Specified" 5, amountRow "Not Specified" 7]) := by
  intro h
  have hlen := h.perm.length_eq
  rw [filter_omitZeroRows] at hlen
  revert hlen
  decide +kernel

end JobRunner.Jobctl
