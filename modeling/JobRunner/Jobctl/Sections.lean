import JobRunner.Jobctl.OmitZero
import JobRunner.Jobctl.ReportTree

/-!
# Which sections are left (`jobctl::qbo`)

`omit_zero_rows` sees a report as a list. A section ends for it at the next header, and what
stands behind a section without a total may be taken for a part of it. Here the list is that
of an outline, whose rows are told apart by their places.

- `openAfter`: whether the pass is inside a kept section behind some rows.
- `mem_kept_header`, `mem_kept_total`: when a header and a total are kept.
- `SectionsKept`: what is to be kept of the sections of an outline.
- `Handled`: the sections for which a list is as good as the outline.
- `sections_kept_iff`: the right sections are kept **exactly when** all are handled.
-/

open Text
open Outline (Section)

namespace JobRunner.Jobctl

/-! ## Data rows at both ends -/

section Ends

variable {α F : Type} (row : α → Row F)

/-- There are only data rows. -/
def OnlyData (rows : List α) : Prop := ∀ r ∈ rows, (row r).kind = .data

/-- The data rows that stand first. -/
def firstData (rows : List α) : List α := rows.takeWhile fun r => (row r).kind = .data

variable {row} {rows : List α}

theorem onlyData_cons {r : α} :
    OnlyData row (r :: rows) ↔ (row r).kind = .data ∧ OnlyData row rows :=
  List.forall_mem_cons

theorem onlyData_firstData : OnlyData row (firstData row rows) := fun _ h =>
  of_decide_eq_true (List.mem_takeWhile_imp (p := fun r => (row r).kind = .data) h)

theorem firstData_eq_self (h : OnlyData row rows) : firstData row rows = rows :=
  List.takeWhile_eq_self_iff.mpr fun r hr => decide_eq_true (h r hr)

/-- Rows that are not all data rows have a first one that is none. -/
theorem exists_firstData (h : ¬ OnlyData row rows) :
    ∃ r rest, (row r).kind ≠ .data ∧ rows = firstData row rows ++ r :: rest := by
  induction rows with
  | nil => exact absurd (List.forall_mem_nil _) h
  | cons r rows ih =>
    rw [onlyData_cons, not_and] at h
    by_cases hr : (row r).kind = .data
    · obtain ⟨r', rest, hkind, heq⟩ := ih (h hr)
      refine ⟨r', rest, hkind, ?_⟩
      rw [firstData, List.takeWhile_cons_of_pos (by simpa using hr), List.cons_append]
      exact congrArg (r :: ·) heq
    · refine ⟨r, rows, hr, ?_⟩
      rw [firstData, List.takeWhile_cons_of_neg (by simpa using hr), List.nil_append]

/-- Rows that are not all data rows have a last one that is none. -/
theorem exists_lastData (h : ¬ OnlyData row rows) :
    ∃ before r run, rows = before ++ r :: run ∧ (row r).kind ≠ .data ∧ OnlyData row run := by
  induction rows with
  | nil => exact absurd (List.forall_mem_nil _) h
  | cons r rows ih =>
    by_cases hrows : OnlyData row rows
    · exact ⟨[], r, rows, rfl, fun hr => h (onlyData_cons.mpr ⟨hr, hrows⟩), hrows⟩
    · obtain ⟨before, r', run, rfl, hkind, hrun⟩ := ih hrows
      exact ⟨r :: before, r', run, rfl, hkind, hrun⟩

end Ends

section Pass

variable {α : Type} {P : Platform} {row : α → Row P.F64}

/-! ## The state of the pass -/

/-- Behind a row the pass is inside a kept section. -/
def enters (P : Platform) (row : α → Row P.F64) (isOpen : Bool) (r : α) (rest : List α) : Bool :=
  match (row r).kind with
  | .grandTotal | .sectionTotal => false
  | .sectionHeader => opens P row rest
  | .data => isOpen && !(row r).isNotSpecified

/-- Behind some rows it is, if no data row follows. -/
def openAfter (P : Platform) (row : α → Row P.F64) (isOpen : Bool) : List α → Bool
  | [] => isOpen
  | r :: rest => openAfter P row (enters P row isOpen r rest) rest

theorem enters_append_cons {r : α} (h : (row r).kind ≠ .data) (isOpen : Bool) (r' : α)
    (before rest : List α) :
    enters P row isOpen r' (before ++ r :: rest) = enters P row isOpen r' before := by
  unfold enters
  rw [opens_append (opens_of_ne h)]

/-- The pass in two parts, the second of which begins with no data row. The look
ahead of a header ends there, so the first part does not see the second. -/
theorem kept_append_cons {r : α} (h : (row r).kind ≠ .data) (isOpen : Bool) (before rest : List α) :
    kept P row isOpen (before ++ r :: rest) =
      kept P row isOpen before ++ kept P row (openAfter P row isOpen before) (r :: rest) := by
  induction before generalizing isOpen with
  | nil => rfl
  | cons r' before ih =>
    rw [List.cons_append, openAfter, enters]
    rcases (row r').handling with hr | hr | hr | ⟨hr, hns⟩ | hr
    · rw [kept_grand isOpen hr, kept_grand isOpen hr, ih, hr]
    · rw [kept_ns isOpen hr, kept_ns isOpen hr, ih, Row.kind_of_isNotSpecified hr, hr,
        Bool.not_true, Bool.and_false]
    · rw [kept_header isOpen hr, kept_header isOpen hr, opens_append (opens_of_ne h), ih, ih, hr]
      cases opens P row before <;> rfl
    · rw [kept_data isOpen hr hns, kept_data isOpen hr hns, ih, hr, hns, Bool.not_false,
        Bool.and_true]
      cases (row r').isZero P <;> rfl
    · rw [kept_total isOpen hr, kept_total isOpen hr, ih, hr]
      split <;> rfl

theorem openAfter_append_cons {r : α} (h : (row r).kind ≠ .data) (isOpen : Bool)
    (before rest : List α) :
    openAfter P row isOpen (before ++ r :: rest) =
      openAfter P row (openAfter P row isOpen before) (r :: rest) := by
  induction before generalizing isOpen with
  | nil => rfl
  | cons r' before ih =>
    rw [List.cons_append, openAfter, enters_append_cons h, ih]
    rfl

/-- A header is kept **exactly when** the data rows behind it open the section.
Places make the rows different, so the header is not taken for another. -/
theorem mem_kept_header {before rest : List α} {hd : α} (h : (row hd).kind = .sectionHeader)
    (hplace : (before ++ hd :: rest).Nodup) :
    hd ∈ kept P row false (before ++ hd :: rest) ↔ opens P row rest = true := by
  have hbefore : hd ∉ kept P row false before := fun hmem =>
    (List.nodup_append.mp hplace).2.2 hd ((kept_sublist _ _).subset hmem) hd
      List.mem_cons_self rfl
  have hrest : ∀ isOpen, hd ∉ kept P row isOpen rest := fun isOpen hmem =>
    (List.nodup_cons.mp (List.nodup_append.mp hplace).2.1).1 ((kept_sublist _ _).subset hmem)
  rw [kept_append_cons (by simp [h]), kept_header _ h, List.mem_append]
  cases opens P row rest <;> simp [hbefore, hrest]

/-- A total is kept **exactly when** it is not zero and its section was kept. -/
theorem mem_kept_total {before rest : List α} {t : α} (h : (row t).kind = .sectionTotal)
    (hplace : (before ++ t :: rest).Nodup) :
    t ∈ kept P row false (before ++ t :: rest) ↔
      openAfter P row false before = true ∧ (row t).isZero P = false := by
  have hbefore : t ∉ kept P row false before := fun hmem =>
    (List.nodup_append.mp hplace).2.2 t ((kept_sublist _ _).subset hmem) t
      List.mem_cons_self rfl
  have hrest : t ∉ kept P row false rest := fun hmem =>
    (List.nodup_cons.mp (List.nodup_append.mp hplace).2.1).1 ((kept_sublist _ _).subset hmem)
  rw [kept_append_cons (by simp [h]), kept_total _ h, List.mem_append]
  split <;> simp_all

/-- What is put last is neither a header nor a section's total. -/
theorem mem_omitZeroBy {rows : List α} {r : α} (hdata : (row r).kind ≠ .data)
    (hgrand : (row r).kind ≠ .grandTotal) :
    r ∈ omitZeroBy P row rows ↔ r ∈ kept P row false rows := by
  rw [omitZeroBy_eq, List.append_assoc, List.mem_append, or_iff_left_iff_imp]
  intro h
  rcases closing_last rows r h with hns | hgrand'
  · exact absurd (Row.kind_of_isNotSpecified hns) hdata
  · exact absurd (of_decide_eq_true hgrand') hgrand

/-! ## Sales -/

variable (P row)

/-- A data row that is not zero. -/
def HasSales (rows : List α) : Prop := ∃ r ∈ rows, (row r).counts P = true

/-- The last header is behind all other rows but data rows, which are not all zero. -/
def EndsOpen (rows : List α) : Prop :=
  ∃ before hd run, rows = before ++ hd :: run ∧ (row hd).kind = .sectionHeader ∧
    OnlyData row run ∧ HasSales P row run

variable {P row} {rows : List α}

theorem HasSales.mono {rows rows' : List α} (h : HasSales P row rows) (hsub : rows ⊆ rows') :
    HasSales P row rows' := by
  obtain ⟨r, hr, hcounts⟩ := h
  exact ⟨r, hsub hr, hcounts⟩

/-- Data rows open a section if they are not all zero, or what follows does. -/
theorem opens_data_append (hdata : OnlyData row rows)
    (hns : ∀ r ∈ rows, (row r).isNotSpecified = false) (rest : List α) :
    opens P row (rows ++ rest) = true ↔ HasSales P row rows ∨ opens P row rest = true := by
  induction rows with
  | nil => simp [HasSales]
  | cons r rows ih =>
    rw [onlyData_cons] at hdata
    rw [List.forall_mem_cons] at hns
    rw [List.cons_append, opens_data hdata.1 hns.1, Bool.or_eq_true, ih hdata.2 hns.2]
    simp [HasSales, Row.counts, hdata.1, or_assoc]

/-- What opens a section: data rows at the beginning that are not all zero. -/
theorem opens_iff (hns : ∀ r ∈ rows, (row r).isNotSpecified = false) :
    opens P row rows = true ↔ HasSales P row (firstData row rows) := by
  by_cases hdata : OnlyData row rows
  · have hall := opens_data_append hdata hns ([] : List α) (P := P)
    rw [List.append_nil] at hall
    rw [hall, firstData_eq_self hdata]
    simp [opens]
  · obtain ⟨r, rest, hkind, heq⟩ := exists_firstData hdata
    have hsub : firstData row rows ⊆ rows := (List.takeWhile_sublist _).subset
    conv_lhs => rw [heq]
    rw [opens_data_append onlyData_firstData fun r hr => hns r (hsub hr), opens_of_ne hkind]
    simp

/-- After data rows the state is as before. -/
theorem openAfter_data (hdata : OnlyData row rows)
    (hns : ∀ r ∈ rows, (row r).isNotSpecified = false) (isOpen : Bool) :
    openAfter P row isOpen rows = isOpen := by
  induction rows generalizing isOpen with
  | nil => rfl
  | cons r rows ih =>
    rw [onlyData_cons] at hdata
    rw [List.forall_mem_cons] at hns
    rw [openAfter, ih hdata.2 hns.2, enters, hdata.1, hns.1, Bool.not_false, Bool.and_true]

/-- The last row that is no data row decides on the state. -/
theorem openAfter_last {before run : List α} {r : α} (hkind : (row r).kind ≠ .data)
    (hdata : OnlyData row run) (hns : ∀ r' ∈ before ++ r :: run, (row r').isNotSpecified = false) :
    openAfter P row false (before ++ r :: run) = true ↔
      (row r).kind = .sectionHeader ∧ HasSales P row run := by
  have hns' : ∀ r' ∈ run, (row r').isNotSpecified = false := fun r' hr' =>
    hns r' (List.mem_append_right _ (List.mem_cons_of_mem _ hr'))
  rw [openAfter_append_cons hkind, openAfter, openAfter_data hdata hns', enters]
  cases hr : (row r).kind with
  | sectionHeader => simp [opens_iff hns', firstData_eq_self hdata]
  | data => exact absurd hr hkind
  | sectionTotal => simp
  | grandTotal => simp

/-- **The state of the pass**, read off the rows before it, which takes the flag out
of all that follows. -/
theorem openAfter_iff (hns : ∀ r ∈ rows, (row r).isNotSpecified = false) :
    openAfter P row false rows = true ↔ EndsOpen P row rows := by
  constructor
  · intro hopen
    by_cases hdata : OnlyData row rows
    · rw [openAfter_data hdata hns] at hopen
      cases hopen
    · obtain ⟨before, r, run, rfl, hkind, hrun⟩ := exists_lastData hdata
      obtain ⟨hr, hsales⟩ := (openAfter_last hkind hrun hns).mp hopen
      exact ⟨before, r, run, rfl, hr, hrun, hsales⟩
  · rintro ⟨before, hd, run, rfl, hkind, hrun, hsales⟩
    exact (openAfter_last (by simp [hkind]) hrun hns).mpr ⟨hkind, hsales⟩

/-- Only the rows from the last that is no data row matter. -/
theorem endsOpen_append {last : List α} (h : ¬ OnlyData row last)
    (before : List α) : EndsOpen P row (before ++ last) ↔ EndsOpen P row last := by
  constructor
  · rintro ⟨before', hd, run, heq, hkind, hdata, hsales⟩
    rcases List.append_eq_append_iff.mp heq with ⟨middle, rfl, hlast⟩ | ⟨middle, rfl, hrun⟩
    · exact ⟨middle, hd, run, hlast, hkind, hdata, hsales⟩
    · rcases middle with _ | ⟨r, middle⟩
      · exact ⟨[], hd, run, hrun.symm, hkind, hdata, hsales⟩
      · -- all of `last` would be data rows
        rw [List.cons_append, List.cons.injEq] at hrun
        exact absurd (fun r hr => hdata r (hrun.2 ▸ List.mem_append_right _ hr)) h
  · rintro ⟨middle, hd, run, rfl, hkind, hdata, hsales⟩
    exact ⟨before ++ middle, hd, run, (List.append_assoc ..).symm, hkind, hdata, hsales⟩

/-- A header and its data rows end open if these are not all zero. -/
theorem endsOpen_header {hd : α} (hkind : (row hd).kind = .sectionHeader)
    (hdata : OnlyData row rows) (before : List α) :
    EndsOpen P row (before ++ hd :: rows) ↔ HasSales P row rows := by
  rw [endsOpen_append fun h => by simp [(onlyData_cons.mp h).1] at hkind]
  constructor
  · rintro ⟨before', hd', run, heq, hkind', -, hsales⟩
    rcases before' with _ | ⟨r, before'⟩
    · rw [List.nil_append, List.cons.injEq] at heq
      exact heq.2 ▸ hsales
    · rw [List.cons_append, List.cons.injEq] at heq
      have := hdata hd' (heq.2 ▸ List.mem_append_right _ List.mem_cons_self)
      simp [hkind'] at this
  · intro hsales
    exact ⟨[], hd, rows, rfl, hkind, hdata, hsales⟩

/-- Rows that end open have sales. -/
theorem EndsOpen.hasSales (h : EndsOpen P row rows) : HasSales P row rows := by
  obtain ⟨before, hd, run, rfl, -, -, hsales⟩ := h
  exact hsales.mono fun r hr => List.mem_append_right _ (List.mem_cons_of_mem _ hr)

/-! ## One section -/

variable (P row)

/-- **A section that a list shows as well as the outline does.** -/
structure Handled (s : Section α) : Prop where
  /-- Data rows alone, all zero, and no total: the data rows that follow are zero as well. -/
  untotalled : s.header.isSome → OnlyData row s.under → s.total = none →
    ¬ HasSales P row s.under → ¬ HasSales P row (firstData row s.after)
  /-- With other rows under it, its sales are not only behind the first of these. -/
  nested : s.header.isSome → ¬ OnlyData row s.under → HasSales P row s.under →
    HasSales P row (firstData row s.under)
  /-- Then, if its total is not zero, they end with the sales of a section without a total. -/
  nestedTotal : s.header.isSome → ¬ OnlyData row s.under →
    HasSales P row s.under → ∀ t, s.total = some t → (row t).isZero P = false →
    EndsOpen P row s.under
  /-- A total without a header that is not zero does not stand behind such sales. -/
  headless : s.header = none → ∀ t, s.total = some t → (row t).isZero P = false →
    ¬ EndsOpen P row (s.before ++ s.under)

/-- **What is to be kept of a section**: its header if there are sales anywhere under it, and
with the header the total, if that is not zero. -/
structure SectionKept (s : Section α) (left : List α) : Prop where
  header : ∀ hd, s.header = some hd → (hd ∈ left ↔ HasSales P row s.under)
  total : ∀ t, s.total = some t →
    (t ∈ left ↔ (∃ hd, s.header = some hd ∧ hd ∈ left) ∧ (row t).isZero P = false)

/-- **What is to be kept of an outline**: the right rows of each section, and the rows in
their order with the grand total last. -/
structure SectionsKept (o : Outline α) (left : List α) : Prop where
  sections : ∀ s ∈ o.sections [] [], SectionKept P row s left
  order : ∃ (inPlace : List α) (grand : Option α), left = inPlace ++ grand.toList ∧
    inPlace.Sublist o.flatten ∧ (∀ r ∈ inPlace, (row r).kind ≠ .grandTotal) ∧
    ∀ r, grand = some r → (row r).kind = .grandTotal ∧ r ∈ o.flatten

variable {P row} {s : Section α}

/-- A group without a header and without a total is handled: there is no row of it that could
be kept or dropped by mistake. -/
theorem handled_group (hheader : s.header = none) (htotal : s.total = none) :
    Handled P row s := by
  have hsome : ¬ s.header.isSome := by simp [hheader]
  refine ⟨fun h => absurd h hsome, fun h => absurd h hsome, fun h => absurd h hsome, ?_⟩
  intro _ t ht
  rw [htotal] at ht
  cases ht

/-- A section of data rows is handled if it has a total or sales. A total ends the look ahead
of its header, and with sales of its own it borrows none. -/
theorem handled_data (hheader : s.header.isSome) (hdata : OnlyData row s.under)
    (h : s.total.isSome ∨ HasSales P row s.under) : Handled P row s := by
  refine ⟨fun _ _ htotal hsales => ?_, fun _ hnot => absurd hdata hnot,
    fun _ hnot => absurd hdata hnot, fun hnone => ?_⟩
  · rcases h with h | h
    · simp [htotal] at h
    · exact absurd h hsales
  · simp [hnone] at hheader

/-- The rows before a header and behind it: its own data rows open the section, or,
where it has data rows only and no total, those that follow it. -/
theorem opens_under (hns : ∀ r ∈ s.all, (row r).isNotSpecified = false)
    (htotal : ∀ t, s.total = some t → (row t).kind = .sectionTotal) :
    opens P row (s.under ++ s.total.toList ++ s.after) = true ↔
      HasSales P row (firstData row s.under) ∨
        OnlyData row s.under ∧ s.total = none ∧
          HasSales P row (firstData row s.after) := by
  have hunder : ∀ r ∈ s.under, (row r).isNotSpecified = false := fun r hr =>
    hns r (by simp [Section.all, hr])
  have hafter : ∀ r ∈ s.after, (row r).isNotSpecified = false := fun r hr =>
    hns r (by simp [Section.all, hr])
  by_cases hdata : OnlyData row s.under
  · rw [List.append_assoc, opens_data_append hdata hunder, firstData_eq_self hdata]
    cases ht : s.total with
    | none =>
      rw [Option.toList_none, List.nil_append, opens_iff hafter]
      exact or_congr_right ⟨fun hsales => ⟨hdata, rfl, hsales⟩, fun hrest => hrest.2.2⟩
    | some t => simp [opens_of_ne (show (row t).kind ≠ .data by simp [htotal t ht])]
  · obtain ⟨r, rest, hkind, heq⟩ := exists_firstData hdata
    have hfirst : firstData row s.under ⊆ s.under := (List.takeWhile_sublist _).subset
    conv_lhs => rw [heq, List.append_assoc, List.append_assoc, List.cons_append]
    rw [opens_data_append onlyData_firstData fun r hr => hunder r (hfirst hr), opens_of_ne hkind]
    simp [hdata]

/-- **A header is kept as it should be exactly when** its section has no data rows to borrow,
and its sales are not hidden behind other rows. -/
theorem header_right_iff (hns : ∀ r ∈ s.all, (row r).isNotSpecified = false)
    (htotal : ∀ t, s.total = some t → (row t).kind = .sectionTotal) :
    (opens P row (s.under ++ s.total.toList ++ s.after) = true ↔ HasSales P row s.under) ↔
      (OnlyData row s.under → s.total = none → ¬ HasSales P row s.under →
        ¬ HasSales P row (firstData row s.after)) ∧
      (¬ OnlyData row s.under → HasSales P row s.under →
        HasSales P row (firstData row s.under)) := by
  have hfirst : HasSales P row (firstData row s.under) → HasSales P row s.under := fun h =>
    h.mono (List.takeWhile_sublist _).subset
  rw [opens_under hns htotal]
  by_cases hdata : OnlyData row s.under
  · rw [firstData_eq_self hdata]
    tauto
  · tauto

/-- **The total of a section with a header is kept as it should be exactly when** the rows
under it end with sales, or are data rows alone. -/
theorem total_right_iff {hd : α} (hkind : (row hd).kind = .sectionHeader) (before : List α)
    {under : List α} (nonzero : Prop) :
    (EndsOpen P row (before ++ hd :: under) ∧ nonzero ↔ HasSales P row under ∧ nonzero) ↔
      (¬ OnlyData row under → HasSales P row under → nonzero →
        EndsOpen P row under) := by
  by_cases hdata : OnlyData row under
  · rw [endsOpen_header hkind hdata]
    tauto
  · have hcons : EndsOpen P row (before ++ hd :: under) ↔ EndsOpen P row under := by
      rw [← List.singleton_append, ← List.append_assoc]
      exact endsOpen_append hdata _
    have hsales : EndsOpen P row under → HasSales P row under := EndsOpen.hasSales
    rw [hcons]
    tauto

/-- A section in the list of rows of its outline. -/
structure Placed (row : α → Row P.F64) (s : Section α) : Prop where
  nodup : s.all.Nodup
  specified : ∀ r ∈ s.all, (row r).isNotSpecified = false
  header : ∀ hd, s.header = some hd → (row hd).kind = .sectionHeader
  total : ∀ t, s.total = some t → (row t).kind = .sectionTotal

theorem Placed.header_mem_iff (h : Placed row s) {hd : α} (hhd : s.header = some hd) :
    hd ∈ omitZeroBy P row s.all ↔
      opens P row (s.under ++ s.total.toList ++ s.after) = true := by
  have hall : s.all = s.before ++ hd :: (s.under ++ s.total.toList ++ s.after) := by
    simp [Section.all, hhd]
  have hkind := h.header hd hhd
  rw [mem_omitZeroBy (by simp [hkind]) (by simp [hkind]), hall,
    mem_kept_header hkind (hall ▸ h.nodup)]

theorem Placed.total_mem_iff (h : Placed row s) {t : α} (ht : s.total = some t) :
    t ∈ omitZeroBy P row s.all ↔
      EndsOpen P row (s.before ++ s.header.toList ++ s.under) ∧ (row t).isZero P = false := by
  have hall : s.all = (s.before ++ s.header.toList ++ s.under) ++ t :: s.after := by
    simp [Section.all, ht]
  have hkind := h.total t ht
  have hns : ∀ r ∈ s.before ++ s.header.toList ++ s.under, (row r).isNotSpecified = false :=
    fun r hr => h.specified r (hall ▸ List.mem_append_left _ hr)
  rw [mem_omitZeroBy (by simp [hkind]) (by simp [hkind]), hall,
    mem_kept_total hkind (hall ▸ h.nodup), openAfter_iff hns]

/-- A group without a header is right if its total is not kept. -/
theorem Placed.sectionKept_headless (h : Placed row s) (hheader : s.header = none) :
    SectionKept P row s (omitZeroBy P row s.all) ↔ Handled P row s := by
  have hends : EndsOpen P row (s.before ++ s.header.toList ++ s.under) ↔
      EndsOpen P row (s.before ++ s.under) := by
    rw [hheader, Option.toList_none, List.append_nil]
  have hnone : ¬ ∃ hd, s.header = some hd ∧ hd ∈ omitZeroBy P row s.all := by
    simp [hheader]
  constructor
  · intro hkept
    refine ⟨by simp [hheader], by simp [hheader], by simp [hheader], ?_⟩
    intro _ t ht hzero hopen
    have hmem := (h.total_mem_iff ht).mpr ⟨hends.mpr hopen, hzero⟩
    exact hnone ((hkept.total t ht).mp hmem).1
  · intro hhandled
    refine ⟨by simp [hheader], ?_⟩
    intro t ht
    rw [h.total_mem_iff ht, hends]
    constructor
    · rintro ⟨hopen, hzero⟩
      exact absurd hopen (hhandled.headless hheader t ht hzero)
    · rintro ⟨hkept, -⟩
      exact absurd hkept hnone

/-- A section with a header is right if both its rows are. -/
theorem Placed.sectionKept_headed (h : Placed row s) {hd : α} (hheader : s.header = some hd) :
    SectionKept P row s (omitZeroBy P row s.all) ↔ Handled P row s := by
  have hkind := h.header hd hheader
  have hright := header_right_iff h.specified h.total
  rw [← h.header_mem_iff hheader] at hright
  have hsome : s.header.isSome := by rw [hheader]; rfl
  have htotal : ∀ t, s.total = some t → (t ∈ omitZeroBy P row s.all ↔
      EndsOpen P row (s.before ++ hd :: s.under) ∧ (row t).isZero P = false) := by
    intro t ht
    rw [h.total_mem_iff ht, hheader, Option.toList_some, List.append_assoc]
    rfl
  have hhd : (∃ hd', s.header = some hd' ∧ hd' ∈ omitZeroBy P row s.all) ↔
      hd ∈ omitZeroBy P row s.all := by
    simp [hheader]
  constructor
  · intro hkept
    have hsales := hkept.header hd hheader
    obtain ⟨huntotalled, hnested⟩ := hright.mp hsales
    refine ⟨fun _ => huntotalled, fun _ => hnested, ?_, by simp [hheader]⟩
    intro _ hother hsales' t ht hzero
    have hkeptTotal := hkept.total t ht
    rw [htotal t ht, hhd, hsales] at hkeptTotal
    exact (total_right_iff hkind _ _).mp hkeptTotal hother hsales' hzero
  · intro hhandled
    have hsales := hright.mpr ⟨hhandled.untotalled hsome, hhandled.nested hsome⟩
    refine ⟨fun hd' hhd' => ?_, fun t ht => ?_⟩
    · rw [hheader] at hhd'
      cases hhd'
      exact hsales
    · rw [htotal t ht, hhd, hsales]
      exact (total_right_iff hkind _ _).mpr fun hother hsales' hzero =>
        hhandled.nestedTotal hsome hother hsales' t ht hzero

/-- **A section is kept as it should be exactly when** it is handled. -/
theorem Placed.sectionKept_iff (h : Placed row s) :
    SectionKept P row s (omitZeroBy P row s.all) ↔ Handled P row s := by
  cases hheader : s.header with
  | none => exact h.sectionKept_headless hheader
  | some hd => exact h.sectionKept_headed hheader

/-- The rows of an outline, each in its place, and none of them 'Not Specified'. The
places are the positions in the list, so no two rows are equal. -/
theorem placed_of_mem {o : Outline α} {s : Section α}
    (hshape : o.Shaped (fun r => (row r).kind = .sectionHeader)
      (fun r => (row r).kind = .data ∨ (row r).kind = .grandTotal)
      fun r => (row r).kind = .sectionTotal)
    (hplace : o.flatten.Nodup) (hns : ∀ r ∈ o.flatten, (row r).isNotSpecified = false)
    (hs : s ∈ o.sections [] []) : s.all = o.flatten ∧ Placed row s := by
  have hall : s.all = o.flatten := by
    rw [Outline.all_of_mem_sections hs, List.nil_append, List.append_nil]
  obtain ⟨hheader, htotal⟩ := hshape.of_mem_sections hs
  exact ⟨hall, by rw [hall]; exact hplace, by rw [hall]; exact hns, hheader, htotal⟩

/-- The rows that are left are in their order, with the grand total last. -/
theorem order_omitZeroBy (hns : ∀ r ∈ rows, (row r).isNotSpecified = false) :
    ∃ (inPlace : List α) (grand : Option α), omitZeroBy P row rows = inPlace ++ grand.toList ∧
      inPlace.Sublist rows ∧ (∀ r ∈ inPlace, (row r).kind ≠ .grandTotal) ∧
      ∀ r, grand = some r → (row r).kind = .grandTotal ∧ r ∈ rows := by
  refine ⟨kept P row false rows, lastOf (isGrand row) rows, ?_, kept_sublist _ _, ?_, ?_⟩
  · have hnone : lastOf (isNs row) rows = none := lastOf_eq_none hns
    rw [omitZeroBy_eq, hnone]
    simp
  · intro r hr
    exact of_decide_eq_false (of_mem_kept hr).notGrand
  · intro r hr
    have hgrand : isGrand row r = true := of_lastOf hr
    exact ⟨of_decide_eq_true hgrand, List.mem_reverse.mp (List.mem_of_find?_eq_some hr)⟩

end Pass

/-! ## The sections of a report -/

variable {P : Platform}

/-- The rows of a report with their places. -/
def numberedRows (P : Platform) (payload : Json) : Outline (Row P.F64 × Nat) :=
  (reportOutline P payload).number 0

theorem flatten_numberedRows (payload : Json) :
    (numberedRows P payload).flatten = (parseReport P payload).rows.zipIdx := by
  unfold numberedRows
  rw [Outline.flatten_number, parseReport_rows]

/-- **When the right sections are left**: exactly when each of them is handled. The places of
the rows change nothing in what is left. -/
theorem sections_kept_iff (P : Platform) (payload : Json)
    (hns : ∀ r ∈ (parseReport P payload).rows, r.isNotSpecified = false) :
    (omitZeroBy P Prod.fst (parseReport P payload).rows.zipIdx).map Prod.fst =
      omitZeroRows P (parseReport P payload).rows ∧
    (SectionsKept P Prod.fst (numberedRows P payload)
        (omitZeroBy P Prod.fst (parseReport P payload).rows.zipIdx) ↔
      ∀ s ∈ (numberedRows P payload).sections [] [], Handled P Prod.fst s) := by
  have hns' : ∀ r ∈ (numberedRows P payload).flatten, r.1.isNotSpecified = false := by
    intro r hr
    rw [flatten_numberedRows] at hr
    exact hns r.1 (List.fst_mem_of_mem_zipIdx hr)
  have hplaced : ∀ s ∈ (numberedRows P payload).sections [] [],
      s.all = (numberedRows P payload).flatten ∧ Placed Prod.fst s := fun s =>
    placed_of_mem ((shaped_readOutline _ _).number 0) (Outline.nodup_flatten_number _ 0) hns'
  refine ⟨?_, ?_⟩
  · have hmap : (omitZeroBy P (id ∘ Prod.fst) (parseReport P payload).rows.zipIdx).map Prod.fst =
        omitZeroRows P ((parseReport P payload).rows.zipIdx.map Prod.fst) := omitZeroBy_map _ _
    rwa [List.zipIdx_map_fst] at hmap
  · rw [← flatten_numberedRows]
    constructor
    · intro hkept s hs
      obtain ⟨hall, hplace⟩ := hplaced s hs
      exact hplace.sectionKept_iff.mp (hall ▸ hkept.sections s hs)
    · intro hhandled
      refine ⟨fun s hs => ?_, order_omitZeroBy hns'⟩
      obtain ⟨hall, hplace⟩ := hplaced s hs
      exact hall ▸ hplace.sectionKept_iff.mpr (hhandled s hs)

/-! ## A nested report -/

/-- A section of a report with these rows, and with a total or without. -/
def reportSection (name : String) (rows : List Json) (total : Option Int) : Json :=
  .obj (("Header", reportCells name none) :: ("Rows", .obj [("Row", .arr rows)]) ::
    (total.map fun amount => ("Summary", reportCells ("Total " ++ name) (some amount))).toList)

/-- A region with an office of its own, a branch without sales, and one whose section has no
total. -/
def nestedSales : Json :=
  reportOf (reportSection "Region" [reportCells "Office" (some 20),
    reportSection "Beta" [reportCells "West" (some 0)] (some 0),
    reportSection "Acme" [reportCells "East" (some 50)] none] (some 70)) 70

theorem reportOutline_nestedSales :
    reportOutline wholePlatform nestedSales =
      .block (some ⟨"Region", none, 0, .sectionHeader, none⟩)
        (.block none (.leaf ⟨"Office", some (20 : Int), 1, .data, none⟩ .nil) none
          (.block (some ⟨"Beta", none, 1, .sectionHeader, none⟩)
            (.block none (.leaf ⟨"West", some (0 : Int), 2, .data, none⟩ .nil) none .nil)
            (some ⟨"Total Beta", some (0 : Int), 1, .sectionTotal, none⟩)
            (.block (some ⟨"Acme", none, 1, .sectionHeader, none⟩)
              (.block none (.leaf ⟨"East", some (50 : Int), 2, .data, none⟩ .nil) none .nil)
              none .nil)))
        (some ⟨"Total Region", some (70 : Int), 0, .sectionTotal, none⟩)
        (.leaf ⟨"TOTAL", some (70 : Int), 0, .grandTotal, none⟩ .nil) := by
  have hregion : trim "Region" = "Region" := by decide +kernel
  have hoffice : trim "Office" = "Office" := by decide +kernel
  have hbeta : trim "Beta" = "Beta" := by decide +kernel
  have hwest : trim "West" = "West" := by decide +kernel
  have hacme : trim "Acme" = "Acme" := by decide +kernel
  have heast : trim "East" = "East" := by decide +kernel
  have htotal : trim "Total Region" = "Total Region" := by decide +kernel
  have htotal' : trim "Total Beta" = "Total Beta" := by decide +kernel
  have hname : "Total " ++ "Region" = "Total Region" := by decide +kernel
  have hname' : "Total " ++ "Beta" = "Total Beta" := by decide +kernel
  unfold nestedSales
  rw [reportOutline_reportOf]
  simp [reportSection, readOutline_eq, readRow, reportCells, list, pushMember, pushRow,
    namedAmount, text, number, wholePlatform, Json.index, Json.get?, Json.members, Json.isObject,
    Json.asStr, Outline.leaves, hname, hname', hregion, hoffice, hbeta, hwest, hacme, heast,
    htotal, htotal']

theorem nestedSales_specified : ∀ r ∈ (parseReport wholePlatform nestedSales).rows,
    r.isNotSpecified = false := by
  rw [parseReport_rows, reportOutline_nestedSales]
  decide +kernel

theorem handled_nestedSales :
    ∀ s ∈ (numberedRows wholePlatform nestedSales).sections [] [],
      Handled wholePlatform Prod.fst s := by
  have hone : ∀ r : Row wholePlatform.F64 × Nat, r.1.kind = .data → OnlyData Prod.fst [r] :=
    fun r hr => onlyData_cons.mpr ⟨hr, List.forall_mem_nil _⟩
  unfold numberedRows
  rw [reportOutline_nestedSales]
  intro s hs
  rcases List.mem_cons.mp hs with rfl | hs
  · -- Region: its office is the first row, and it ends with the branch in the east
    refine ⟨fun _ hdata => ?_, fun _ _ _ => ?_, fun _ _ _ _ _ _ => ?_,
      fun hheader => (Option.some_ne_none _ hheader).elim⟩
    · exact absurd (hdata (⟨"Beta", none, 1, .sectionHeader, none⟩, 2)
        (by simp [Outline.number, Outline.flatten])) (by simp)
    · exact ⟨(⟨"Office", some (20 : Int), 1, .data, none⟩, 1),
        by simp [Outline.number, Outline.flatten, firstData], rfl⟩
    · exact ⟨[_, _, _, _], (⟨"Acme", none, 1, .sectionHeader, none⟩, 5), [_], rfl, rfl,
        hone _ rfl, _, List.mem_cons_self, rfl⟩
  rcases List.mem_cons.mp hs with rfl | hs
  · exact handled_group rfl rfl
  rcases List.mem_cons.mp hs with rfl | hs
  · exact handled_data rfl (hone _ rfl) (.inl rfl)
  rcases List.mem_cons.mp hs with rfl | hs
  · exact handled_group rfl rfl
  rcases List.mem_cons.mp hs with rfl | hs
  · exact handled_data rfl (hone _ rfl) (.inr ⟨_, List.mem_cons_self, rfl⟩)
  · rw [List.mem_singleton.mp hs]
    exact handled_group rfl rfl

/-- The region's header and total are kept with its office and its branch in the east, and the
branch without sales is dropped. -/
theorem nested_sections_kept :
    SectionsKept wholePlatform Prod.fst (numberedRows wholePlatform nestedSales)
      (omitZeroBy wholePlatform Prod.fst (parseReport wholePlatform nestedSales).rows.zipIdx) ∧
    (omitZeroRows wholePlatform (parseReport wholePlatform nestedSales).rows).map Row.name =
      ["Region", "Office", "Acme", "East", "Total Region", "TOTAL"] := by
  refine ⟨(sections_kept_iff wholePlatform nestedSales nestedSales_specified).2.mpr
    handled_nestedSales, ?_⟩
  unfold omitZeroRows
  rw [omitZeroBy_eq, parseReport_rows, reportOutline_nestedSales]
  decide +kernel

/-- Acme and its branch in a region, of which it is the only customer. -/
def regionSales : Json :=
  reportOf (.obj [("Header", reportCells "Region" none),
    ("Rows", .obj [("Row", .arr [acmeRow none])]),
    ("Summary", reportCells "Total Region" (some 50))]) 50

theorem reportOutline_regionSales :
    reportOutline wholePlatform regionSales =
      .block (some ⟨"Region", none, 0, .sectionHeader, none⟩)
        (.block (some ⟨"Acme", none, 1, .sectionHeader, none⟩)
          (.block none (.leaf ⟨"East", some (50 : Int), 2, .data, none⟩ .nil) none .nil)
          (some ⟨"Total Acme", some (50 : Int), 1, .sectionTotal, none⟩) .nil)
        (some ⟨"Total Region", some (50 : Int), 0, .sectionTotal, none⟩)
        (.leaf ⟨"TOTAL", some (50 : Int), 0, .grandTotal, none⟩ .nil) := by
  have hregion : trim "Region" = "Region" := by decide +kernel
  have htotal : trim "Total Region" = "Total Region" := by decide +kernel
  have hbelow : readOutline wholePlatform (.arr [acmeRow none]) 1 = _ :=
    (readOutline_eq _ _ _).trans (readRow_acmeRow none 1 .nil)
  unfold regionSales
  rw [reportOutline_reportOf]
  simp [readRow, reportCells, list, pushMember, pushRow, namedAmount, text, number, wholePlatform,
    Json.index, Json.get?, Json.members, Json.isObject, Json.asStr, hregion, htotal]
  exact hbelow

/-- The region's header and total are dropped, though Acme's branch below it is not. -/
theorem region_dropped :
    (omitZeroRows wholePlatform (parseReport wholePlatform regionSales).rows).map Row.name =
      ["Acme", "East", "Total Acme", "TOTAL"] ∧
    ¬ SectionsKept wholePlatform Prod.fst (numberedRows wholePlatform regionSales)
      (omitZeroBy wholePlatform Prod.fst
        (parseReport wholePlatform regionSales).rows.zipIdx) := by
  refine ⟨?_, fun hkept => ?_⟩
  · unfold omitZeroRows
    rw [omitZeroBy_eq, parseReport_rows, reportOutline_regionSales]
    decide +kernel
  · have hnames : ∀ r ∈ omitZeroBy wholePlatform Prod.fst
        (parseReport wholePlatform regionSales).rows.zipIdx, r.1.name ≠ "Region" := by
      rw [omitZeroBy_eq, parseReport_rows, reportOutline_regionSales]
      decide +kernel
    have hsections := hkept.sections
    unfold numberedRows at hsections
    rw [reportOutline_regionSales] at hsections
    have hright := (hsections _ List.mem_cons_self).header _ rfl
    exact hnames _ (hright.mpr ⟨(⟨"East", some (50 : Int), 2, .data, none⟩, 2),
      by simp [Outline.number, Outline.flatten], rfl⟩) rfl

end JobRunner.Jobctl
