import JobRunner.Jobctl.Exact
import JobRunner.Jobctl.Report

/-!
# Leaving out what is zero (`jobctl::qbo`)

`omit_zero_rows` goes over the flat rows of a report with two nested loops: the inner one
collects what follows a section's header up to its total, and the section is kept if that
has a data row. The 'Not Specified' row and the grand total are put last.

- `chunk`, `omitLoop`, `omitZeroRows`: the loops, over anything that has a row.
- `kept`: the same in one pass, whose only state is whether it is inside a kept section.
- `omitLoop_eq`, `omitZeroBy_eq`: the loops leave **exactly** what the pass keeps.
- `kept_kept`, `omitZeroRows_idem`: leaving out twice leaves out no more.
-/

open Text

namespace JobRunner.Jobctl

/-- `Row::is_zero`. -/
def Row.isZero (P : Platform) (r : Row P.F64) : Bool := r.amount.all P.isZero

/-- A data row that is not zero. -/
def Row.counts (P : Platform) (r : Row P.F64) : Bool := decide (r.kind = .data) && !r.isZero P

/-- `Row::is_not_specified`. -/
def Row.isNotSpecified {F : Type} (r : Row F) : Bool :=
  decide (r.kind = .data) && eqIgnoreAsciiCase (trim r.name) "not specified"

theorem Row.kind_of_isNotSpecified {F : Type} {r : Row F} (h : r.isNotSpecified = true) :
    r.kind = .data := by
  unfold isNotSpecified at h
  rw [Bool.and_eq_true, decide_eq_true_iff] at h
  exact h.1

theorem Row.isNotSpecified_eq_false {F : Type} {r : Row F} (h : r.kind ≠ .data) :
    r.isNotSpecified = false :=
  Bool.eq_false_iff.mpr fun hns => h (kind_of_isNotSpecified hns)

section Loops

variable {α : Type} (P : Platform) (row : α → Row P.F64)

/-- The inner loop: what it adds to the chunk of a section, and the rows it leaves. -/
def chunk : List α → List α × List α
  | [] => ([], [])
  | next :: rest =>
    if (row next).kind = .sectionHeader ∨ (row next).kind = .grandTotal ∨
        (row next).isNotSpecified = true then ([], next :: rest)
    else
      -- the source asks for a header here as well, but has left the loop at one
      let pushed := if (row next).kind = .sectionHeader ∨ (row next).isZero P = false
        then [next] else []
      if (row next).kind = .sectionTotal then (pushed, rest)
      else (pushed ++ (chunk rest).1, (chunk rest).2)

theorem length_chunk_le (rows : List α) : (chunk P row rows).2.length ≤ rows.length := by
  induction rows with
  | nil => exact Nat.le_refl 0
  | cons next rest ih =>
    unfold chunk
    split
    · exact Nat.le_refl _
    · dsimp only
      split
      · exact Nat.le_succ _
      · exact Nat.le_succ_of_le ih

/-- The variables of `omit_zero_rows`. -/
structure Omitted (α : Type) where
  result : List α
  notSpecified : Option α
  grandTotal : Option α

/-- The outer loop. -/
def omitLoop : List α → Omitted α → Omitted α
  | [], acc => acc
  | r :: rest, acc =>
    if (row r).kind = .grandTotal then omitLoop rest { acc with grandTotal := some r }
    else if (row r).isNotSpecified = true then omitLoop rest { acc with notSpecified := some r }
    else if (row r).kind = .sectionHeader then
      omitLoop (chunk P row rest).2
        (if (r :: (chunk P row rest).1).any (fun r => (row r).kind = .data) = true then
          { acc with result := acc.result ++ r :: (chunk P row rest).1 }
        else acc)
    else if (row r).kind = .data ∧ (row r).isZero P = false then
      omitLoop rest { acc with result := acc.result ++ [r] }
    else omitLoop rest acc
termination_by rows => rows.length
decreasing_by all_goals grind [length_chunk_le]

/-- `omit_zero_rows`, of anything that has a row. -/
def omitZeroBy (rows : List α) : List α :=
  let last := omitLoop P row rows ⟨[], none, none⟩
  last.result ++ (last.notSpecified.filter fun r => !(row r).isZero P).toList ++
    last.grandTotal.toList

end Loops

/-- `omit_zero_rows`. -/
def omitZeroRows (P : Platform) (rows : List (Row P.F64)) : List (Row P.F64) :=
  omitZeroBy P id rows

/-! ## In one pass -/

section Kept

variable {α : Type} (P : Platform) (row : α → Row P.F64)

/-- The data rows right after a header, up to any other row, are not all zero. -/
def opens : List α → Bool
  | [] => false
  | r :: rest =>
    match (row r).kind with
    | .data => !(row r).isNotSpecified && (!(row r).isZero P || opens rest)
    | .sectionHeader | .sectionTotal | .grandTotal => false

/-- What is kept in its place, when a section is open or not. -/
def kept (isOpen : Bool) : List α → List α
  | [] => []
  | r :: rest =>
    match (row r).kind with
    | .grandTotal => kept false rest
    | .sectionHeader => if opens P row rest = true then r :: kept true rest else kept false rest
    | .data =>
      if (row r).isNotSpecified = true then kept false rest
      else if (row r).isZero P = true then kept isOpen rest
      else r :: kept isOpen rest
    | .sectionTotal =>
      if isOpen = true ∧ (row r).isZero P = false then r :: kept false rest else kept false rest

end Kept

section Last

variable {α F : Type} (row : α → Row F)

/-- The last of the rows with a property. -/
def lastOf (p : α → Bool) (rows : List α) : Option α := rows.reverse.find? p

/-- A 'Not Specified' row. -/
def isNs (r : α) : Bool := (row r).isNotSpecified

/-- A grand total. -/
def isGrand (r : α) : Bool := (row r).kind = .grandTotal

end Last

/-- How `omit_zero_rows` handles a row. -/
inductive Row.Handling {F : Type} (r : Row F) : Prop where
  | grand (h : r.kind = .grandTotal)
  | notSpecified (h : r.isNotSpecified = true)
  | header (h : r.kind = .sectionHeader)
  | data (h : r.kind = .data) (hns : r.isNotSpecified = false)
  | total (h : r.kind = .sectionTotal)

theorem Row.handling {F : Type} (r : Row F) : r.Handling := by
  cases h : r.kind with
  | sectionHeader => exact .header h
  | sectionTotal => exact .total h
  | grandTotal => exact .grand h
  | data =>
    cases hns : r.isNotSpecified with
    | true => exact .notSpecified hns
    | false => exact .data h hns

theorem lastOf_cons {α : Type} (p : α → Bool) (r : α) (rest : List α) :
    lastOf p (r :: rest) = (lastOf p rest).or (if p r = true then some r else none) := by
  show (r :: rest).reverse.find? p = (rest.reverse.find? p).or _
  rw [List.reverse_cons, List.find?_append, List.find?_singleton]

section Pass

variable {α : Type} {P : Platform} {row : α → Row P.F64} {r : α} {rest : List α}

/-! ### One row of the pass -/

theorem opens_of_ne (h : (row r).kind ≠ .data) : opens P row (r :: rest) = false := by
  rw [opens]
  split
  · contradiction
  all_goals rfl

theorem opens_ns (h : (row r).isNotSpecified = true) : opens P row (r :: rest) = false := by
  rw [opens]
  split
  · rw [h]
    rfl
  all_goals rfl

theorem opens_data (h : (row r).kind = .data) (hns : (row r).isNotSpecified = false) :
    opens P row (r :: rest) = (!(row r).isZero P || opens P row rest) := by
  rw [opens, h, hns]
  rfl

/-- Only a data row that is no 'Not Specified' row can open a section; at any other
row the look ahead stops. -/
theorem opens_cases (row : α → Row P.F64) (r : α) :
    (∀ rest, opens P row (r :: rest) = false) ∨
      (row r).kind = .data ∧ (row r).isNotSpecified = false := by
  by_cases h : (row r).kind = .data
  · cases hns : (row r).isNotSpecified with
    | true => exact .inl fun _ => opens_ns hns
    | false => exact .inr ⟨h, rfl⟩
  · exact .inl fun _ => opens_of_ne h

theorem kept_grand (isOpen : Bool) (h : (row r).kind = .grandTotal) :
    kept P row isOpen (r :: rest) = kept P row false rest := by
  rw [kept, h]

theorem kept_header (isOpen : Bool) (h : (row r).kind = .sectionHeader) :
    kept P row isOpen (r :: rest) =
      if opens P row rest = true then r :: kept P row true rest else kept P row false rest := by
  rw [kept, h]

theorem kept_ns (isOpen : Bool) (h : (row r).isNotSpecified = true) :
    kept P row isOpen (r :: rest) = kept P row false rest := by
  rw [kept, Row.kind_of_isNotSpecified h]
  exact if_pos h

theorem kept_data (isOpen : Bool) (h : (row r).kind = .data)
    (hns : (row r).isNotSpecified = false) :
    kept P row isOpen (r :: rest) =
      if (row r).isZero P = true then kept P row isOpen rest else r :: kept P row isOpen rest := by
  rw [kept, h]
  exact if_neg (by rw [hns]; exact Bool.false_ne_true)

theorem kept_total (isOpen : Bool) (h : (row r).kind = .sectionTotal) :
    kept P row isOpen (r :: rest) =
      if isOpen = true ∧ (row r).isZero P = false then r :: kept P row false rest
      else kept P row false rest := by
  rw [kept, h]

/-! ### One row of the inner loop -/

theorem chunk_break (h : (row r).kind = .sectionHeader ∨ (row r).kind = .grandTotal ∨
    (row r).isNotSpecified = true) : chunk P row (r :: rest) = ([], r :: rest) := by
  rw [chunk, if_pos h]

theorem chunk_data (h : (row r).kind = .data) (hns : (row r).isNotSpecified = false) :
    chunk P row (r :: rest) =
      ((if (row r).isZero P = true then [] else [r]) ++ (chunk P row rest).1,
        (chunk P row rest).2) := by
  rw [chunk, if_neg (by simp [h, hns])]
  cases (row r).isZero P <;> simp [h]

theorem chunk_total (h : (row r).kind = .sectionTotal) :
    chunk P row (r :: rest) = (if (row r).isZero P = true then [] else [r], rest) := by
  have hns : (row r).isNotSpecified = false := Row.isNotSpecified_eq_false (by simp [h])
  rw [chunk, if_neg (by simp [h, hns])]
  cases (row r).isZero P <;> simp [h]

/-! ### The chunk of a section -/

/-- Inside a kept section the pass keeps the chunk, and goes on where the inner loop
stopped. So the pass needs no look ahead once a section is open. -/
theorem chunk_append_kept (rows : List α) :
    (chunk P row rows).1 ++ kept P row false (chunk P row rows).2 = kept P row true rows := by
  induction rows with
  | nil => rfl
  | cons r rest ih =>
    rcases (row r).handling with h | h | h | ⟨h, hns⟩ | h
    · rw [chunk_break (.inr (.inl h)), kept_grand true h, List.nil_append, kept_grand false h]
    · rw [chunk_break (.inr (.inr h)), kept_ns true h, List.nil_append, kept_ns false h]
    · rw [chunk_break (.inl h), kept_header true h, List.nil_append, kept_header false h]
    · rw [chunk_data h hns, kept_data true h hns, ← ih]
      split <;> rfl
    · rw [chunk_total h, kept_total true h]
      cases hz : (row r).isZero P <;> simp

/-- The chunk has a data row **exactly when** the rows after the header open the
section. This is what the code tests and what the pass looks ahead for. -/
theorem any_chunk (rows : List α) :
    (chunk P row rows).1.any (fun r => (row r).kind = .data) = opens P row rows := by
  induction rows with
  | nil => rfl
  | cons r rest ih =>
    rcases (row r).handling with h | h | h | ⟨h, hns⟩ | h
    · rw [chunk_break (.inr (.inl h)), opens_of_ne (by simp [h])]
      rfl
    · rw [chunk_break (.inr (.inr h)), opens_ns h]
      rfl
    · rw [chunk_break (.inl h), opens_of_ne (by simp [h])]
      rfl
    · rw [chunk_data h hns, opens_data h hns, ← ih]
      cases hz : (row r).isZero P <;> simp [h]
    · rw [chunk_total h, opens_of_ne (by simp [h])]
      cases hz : (row r).isZero P <;> simp [h]

/-- A section that is not opened leaves nothing in its chunk for the pass to keep. -/
theorem kept_chunk {rows : List α} (h : opens P row rows = false) :
    kept P row false (chunk P row rows).2 = kept P row false rows := by
  induction rows with
  | nil => rfl
  | cons r rest ih =>
    rcases (row r).handling with hr | hr | hr | ⟨hr, hns⟩ | hr
    · rw [chunk_break (.inr (.inl hr))]
    · rw [chunk_break (.inr (.inr hr))]
    · rw [chunk_break (.inl hr)]
    · rw [opens_data hr hns, Bool.or_eq_false_iff, Bool.not_eq_false'] at h
      rw [kept_data false hr hns, if_pos h.1, chunk_data hr hns]
      exact ih h.2
    · rw [chunk_total hr, kept_total false hr]
      exact (if_neg fun hopen => Bool.false_ne_true hopen.1).symm

/-- The inner loop passes over no row that closes sections. -/
theorem lastOf_chunk {p : α → Bool}
    (hp : ∀ r, (row r).kind ≠ .grandTotal → (row r).isNotSpecified = false → p r = false)
    (rows : List α) : lastOf p (chunk P row rows).2 = lastOf p rows := by
  induction rows with
  | nil => rfl
  | cons r rest ih =>
    rcases (row r).handling with h | h | h | ⟨h, hns⟩ | h
    · rw [chunk_break (.inr (.inl h))]
    · rw [chunk_break (.inr (.inr h))]
    · rw [chunk_break (.inl h)]
    · rw [chunk_data h hns, ih, lastOf_cons, hp r (by simp [h]) hns]
      simp
    · rw [chunk_total h, lastOf_cons,
        hp r (by simp [h]) (Row.isNotSpecified_eq_false (by simp [h]))]
      simp

/-! ## The loops and the pass -/

theorem isNs_eq_false (r : α) (_ : (row r).kind ≠ .grandTotal)
    (h : (row r).isNotSpecified = false) : isNs row r = false := h

theorem isGrand_eq_false (r : α) (h : (row r).kind ≠ .grandTotal)
    (_ : (row r).isNotSpecified = false) : isGrand row r = false :=
  decide_eq_false h

/-- **What the loops leave**: what the pass keeps, the last 'Not Specified' row and
the last grand total. By the recursion of the outer loop, whose step over a section
is one of the lemmas on chunks. -/
theorem omitLoop_eq (rows : List α) (acc : Omitted α) :
    omitLoop P row rows acc =
      ⟨acc.result ++ kept P row false rows, (lastOf (isNs row) rows).or acc.notSpecified,
        (lastOf (isGrand row) rows).or acc.grandTotal⟩ := by
  fun_induction omitLoop P row rows acc with
  | case1 acc => simp [kept, lastOf]
  | case2 r rest acc h ih =>
    have hns : isNs row r = false := Row.isNotSpecified_eq_false (by simp [h])
    have hgrand : isGrand row r = true := decide_eq_true h
    rw [ih, kept_grand false h, lastOf_cons, lastOf_cons, hns, hgrand]
    simp
  | case3 r rest acc hkind h ih =>
    have hns : isNs row r = true := h
    have hgrand : isGrand row r = false := decide_eq_false hkind
    rw [ih, kept_ns false h, lastOf_cons, lastOf_cons, hns, hgrand]
    simp
  | case4 r rest acc hkind hns h ih =>
    -- the chunk and what the pass keeps behind it are what it keeps in the section
    have hns' : isNs row r = false := Bool.eq_false_iff.mpr hns
    have hgrand : isGrand row r = false := decide_eq_false hkind
    simp only [dite_eq_ite] at ih
    rw [ih, lastOf_chunk isNs_eq_false, lastOf_chunk isGrand_eq_false, lastOf_cons, lastOf_cons,
      hns', hgrand, kept_header false h, List.any_cons, any_chunk]
    cases hopens : opens P row rest with
    | true => simp [← chunk_append_kept rest]
    | false => simp [h, kept_chunk hopens]
  | case5 r rest acc hkind hns h hd ih =>
    have hns' : isNs row r = false := Bool.eq_false_iff.mpr hns
    have hgrand : isGrand row r = false := decide_eq_false hkind
    rw [ih, kept_data false hd.1 hns', lastOf_cons, lastOf_cons, hns', hgrand, hd.2]
    simp
  | case6 r rest acc hkind hns h hd ih =>
    have hns' : isNs row r = false := Bool.eq_false_iff.mpr hns
    have hgrand : isGrand row r = false := decide_eq_false hkind
    have hkept : kept P row false (r :: rest) = kept P row false rest := by
      rcases (row r).handling with h' | h' | h' | ⟨h', -⟩ | h'
      · exact absurd h' hkind
      · exact absurd h' hns
      · exact absurd h' h
      · rw [kept_data false h' hns', if_pos (by simpa [h'] using hd)]
      · rw [kept_total false h', if_neg (by simp)]
    rw [ih, hkept, lastOf_cons, lastOf_cons, hns', hgrand]
    simp

/-- **What is left out**, without loops: the rows the pass keeps, the last 'Not Specified'
row if it is not zero, and the last grand total. -/
theorem omitZeroBy_eq (rows : List α) :
    omitZeroBy P row rows =
      kept P row false rows ++
        ((lastOf (isNs row) rows).filter fun r => !(row r).isZero P).toList ++
        (lastOf (isGrand row) rows).toList := by
  unfold omitZeroBy
  rw [omitLoop_eq]
  simp

/-! ## Rows alone

What is left out depends on the rows of the items, not on what else they are. -/

section Map

variable {β : Type} (f : β → α)

theorem opens_map (items : List β) :
    opens P row (items.map f) = opens P (row ∘ f) items := by
  induction items with
  | nil => rfl
  | cons item items ih =>
    rw [List.map_cons, opens, opens, ih]
    rfl

theorem kept_map (isOpen : Bool) (items : List β) :
    (kept P (row ∘ f) isOpen items).map f = kept P row isOpen (items.map f) := by
  induction items generalizing isOpen with
  | nil => rfl
  | cons item items ih =>
    rw [List.map_cons]
    rcases ((row ∘ f) item).handling with hr | hr | hr | ⟨hr, hns⟩ | hr
    · have hr' : (row (f item)).kind = .grandTotal := hr
      rw [kept_grand isOpen hr, kept_grand isOpen hr', ih]
    · have hr' : (row (f item)).isNotSpecified = true := hr
      rw [kept_ns isOpen hr, kept_ns isOpen hr', ih]
    · have hr' : (row (f item)).kind = .sectionHeader := hr
      rw [kept_header isOpen hr, kept_header isOpen hr', opens_map, ← ih, ← ih]
      split <;> rfl
    · have hr' : (row (f item)).kind = .data := hr
      rw [kept_data isOpen hr hns, kept_data isOpen hr' hns, ← ih, Function.comp_apply]
      split <;> rfl
    · have hr' : (row (f item)).kind = .sectionTotal := hr
      rw [kept_total isOpen hr, kept_total isOpen hr', ← ih, Function.comp_apply]
      split <;> rfl

end Map

/-! ## Leaving out twice -/

/-- A kept row has its own place: it is no 'Not Specified' row and no grand total, and it is
a header or not zero. -/
structure KeepsRow (P : Platform) (row : α → Row P.F64) (r : α) : Prop where
  notNs : isNs row r = false
  notGrand : isGrand row r = false
  shows : (row r).kind = .sectionHeader ∨ (row r).isZero P = false

/-- The pass leaves a row out or keeps it, and goes on. -/
theorem kept_cases (row : α → Row P.F64) (isOpen : Bool) (r : α) (rest : List α) :
    (∃ isOpen', kept P row isOpen (r :: rest) = kept P row isOpen' rest) ∨
      KeepsRow P row r ∧
        ∃ isOpen', kept P row isOpen (r :: rest) = r :: kept P row isOpen' rest := by
  rcases (row r).handling with hr | hr | hr | ⟨hr, hns⟩ | hr
  · exact .inl ⟨false, kept_grand isOpen hr⟩
  · exact .inl ⟨false, kept_ns isOpen hr⟩
  · rw [kept_header isOpen hr]
    split
    · exact .inr ⟨⟨Row.isNotSpecified_eq_false (by simp [hr]), decide_eq_false (by simp [hr]),
        .inl hr⟩, true, rfl⟩
    · exact .inl ⟨false, rfl⟩
  · rw [kept_data isOpen hr hns]
    split
    · exact .inl ⟨isOpen, rfl⟩
    next hz =>
      exact .inr ⟨⟨hns, decide_eq_false (by simp [hr]), .inr (Bool.eq_false_iff.mpr hz)⟩,
        isOpen, rfl⟩
  · rw [kept_total isOpen hr]
    split
    next hz =>
      exact .inr ⟨⟨Row.isNotSpecified_eq_false (by simp [hr]), decide_eq_false (by simp [hr]),
        .inr hz.2⟩, false, rfl⟩
    · exact .inl ⟨false, rfl⟩

theorem of_mem_kept {isOpen : Bool} {rows : List α} {r : α} (h : r ∈ kept P row isOpen rows) :
    KeepsRow P row r := by
  induction rows generalizing isOpen with
  | nil => exact absurd h List.not_mem_nil
  | cons r' rest ih =>
    rcases kept_cases row isOpen r' rest with ⟨isOpen', hkept⟩ | ⟨hkeeps, isOpen', hkept⟩
    · rw [hkept] at h
      exact ih h
    · rw [hkept] at h
      rcases List.mem_cons.mp h with rfl | h
      · exact hkeeps
      · exact ih h

theorem kept_sublist (isOpen : Bool) (rows : List α) :
    (kept P row isOpen rows).Sublist rows := by
  induction rows generalizing isOpen with
  | nil => exact .slnil
  | cons r rest ih =>
    rcases kept_cases row isOpen r rest with ⟨isOpen', hkept⟩ | ⟨-, isOpen', hkept⟩
    · rw [hkept]
      exact (ih isOpen').cons r
    · rw [hkept]
      exact (ih isOpen').cons_cons r

/-- What opens a section before the pass opens it after. -/
theorem opens_kept {isOpen : Bool} {rows : List α} (h : opens P row rows = true) :
    opens P row (kept P row isOpen rows) = true := by
  induction rows with
  | nil => exact absurd h Bool.false_ne_true
  | cons r rest ih =>
    rcases opens_cases row r with hclosed | ⟨hr, hns⟩
    · rw [hclosed] at h
      exact absurd h Bool.false_ne_true
    · rw [opens_data hr hns] at h
      rw [kept_data isOpen hr hns]
      cases hz : (row r).isZero P with
      | true =>
        rw [hz, Bool.not_true, Bool.false_or] at h
        exact ih h
      | false =>
        rw [if_neg Bool.false_ne_true, opens_data hr hns, hz]
        rfl

/-- The pass keeps all that it has kept: the totals too, as the sections that were
open are open again. The flag may only be more open the second time. -/
theorem kept_kept {isOpen isOpen' : Bool} (h : isOpen = true → isOpen' = true) (rows : List α) :
    kept P row isOpen' (kept P row isOpen rows) = kept P row isOpen rows := by
  induction rows generalizing isOpen isOpen' with
  | nil => rfl
  | cons r rest ih =>
    have hclosed : kept P row isOpen' (kept P row false rest) = kept P row false rest :=
      ih fun hfalse => absurd hfalse Bool.false_ne_true
    rcases (row r).handling with hr | hr | hr | ⟨hr, hns⟩ | hr
    · rw [kept_grand isOpen hr, hclosed]
    · rw [kept_ns isOpen hr, hclosed]
    · rw [kept_header isOpen hr]
      split
      next hopens =>
        rw [kept_header isOpen' hr, if_pos (opens_kept hopens), ih id]
      · exact hclosed
    · rw [kept_data isOpen hr hns]
      split
      · exact ih h
      next hz => rw [kept_data isOpen' hr hns, if_neg hz, ih h]
    · rw [kept_total isOpen hr]
      split
      next hz => rw [kept_total isOpen' hr, if_pos ⟨h hz.1, hz.2⟩, ih id]
      · exact hclosed

/-- What opens a section comes before the rows that do not. -/
theorem opens_append {rest : List α} (h : opens P row rest = false) (rows : List α) :
    opens P row (rows ++ rest) = opens P row rows := by
  induction rows with
  | nil => exact h
  | cons r rows ih =>
    rw [List.cons_append]
    rcases opens_cases row r with hclosed | ⟨hr, hns⟩
    · rw [hclosed, hclosed]
    · rw [opens_data hr hns, opens_data hr hns, ih]

theorem opens_closing {last : List α}
    (h : ∀ r ∈ last, isNs row r = true ∨ isGrand row r = true) : opens P row last = false := by
  rcases last with _ | ⟨r, last⟩
  · rfl
  · rcases h r List.mem_cons_self with hr | hr
    · exact opens_ns hr
    · exact opens_of_ne (by simp [of_decide_eq_true hr])

/-- The pass does not look at the rows that are put last, since none of them can
open a section. -/
theorem kept_append {last : List α}
    (h : ∀ r ∈ last, isNs row r = true ∨ isGrand row r = true) (isOpen : Bool) (rows : List α) :
    kept P row isOpen (rows ++ last) = kept P row isOpen rows := by
  induction rows generalizing isOpen with
  | nil =>
    induction last generalizing isOpen with
    | nil => rfl
    | cons r last ih =>
      have hlast := ih fun r hr => h r (List.mem_cons_of_mem _ hr)
      rcases h r List.mem_cons_self with hr | hr
      · exact (kept_ns isOpen hr).trans (hlast false)
      · exact (kept_grand isOpen (of_decide_eq_true hr)).trans (hlast false)
  | cons r rest ih =>
    rw [List.cons_append]
    rcases (row r).handling with hr | hr | hr | ⟨hr, hns⟩ | hr
    · rw [kept_grand isOpen hr, kept_grand isOpen hr, ih]
    · rw [kept_ns isOpen hr, kept_ns isOpen hr, ih]
    · rw [kept_header isOpen hr, kept_header isOpen hr,
        opens_append (opens_closing h), ih, ih]
    · rw [kept_data isOpen hr hns, kept_data isOpen hr hns, ih]
    · rw [kept_total isOpen hr, kept_total isOpen hr, ih]

/-! ### The rows that are put last -/

section Last

variable {p : α → Bool} {rows : List α}

theorem lastOf_append (rows last : List α) :
    lastOf p (rows ++ last) = (lastOf p last).or (lastOf p rows) := by
  show (rows ++ last).reverse.find? p = (last.reverse.find? p).or (rows.reverse.find? p)
  rw [List.reverse_append, List.find?_append]

theorem lastOf_toList (r : Option α) : lastOf p r.toList = r.filter p := by
  cases r with
  | none => rfl
  | some r => rw [Option.toList_some, lastOf_cons, Option.filter_some]; rfl

theorem lastOf_eq_none (h : ∀ r ∈ rows, p r = false) : lastOf p rows = none :=
  List.find?_eq_none.mpr fun r hr => by simp [h r (List.mem_reverse.mp hr)]

theorem of_lastOf {r : α} (h : lastOf p rows = some r) : p r = true :=
  List.find?_some h

/-- The last of the rows with a property ends the list of them. -/
theorem lastOf_eq_getLast? (rows : List α) : lastOf p rows = (rows.filter p).getLast? := by
  show rows.reverse.find? p = (rows.filter p).getLast?
  rw [← List.head?_filter, List.filter_reverse, List.head?_reverse]

end Last

/-- What is left of the rows of the items are the rows of what is left of the items. -/
theorem omitZeroBy_map {β : Type} (f : β → α) (items : List β) :
    (omitZeroBy P (row ∘ f) items).map f = omitZeroBy P row (items.map f) := by
  have hlast : ∀ p : α → Bool, lastOf p (items.map f) = (lastOf (p ∘ f) items).map f := by
    intro p
    show (items.map f).reverse.find? p = (items.reverse.find? (p ∘ f)).map f
    rw [← List.map_reverse, List.find?_map]
  rw [omitZeroBy_eq, omitZeroBy_eq, hlast, hlast, ← kept_map, List.map_append, List.map_append,
    Option.filter_map, Option.toList_map, Option.toList_map]
  rfl

/-- What is put last is a 'Not Specified' row or a grand total. -/
theorem closing_last (rows : List α) (r : α)
    (h : r ∈ ((lastOf (isNs row) rows).filter fun r => !(row r).isZero P).toList ++
      (lastOf (isGrand row) rows).toList) : isNs row r = true ∨ isGrand row r = true := by
  rw [List.mem_append, Option.mem_toList, Option.mem_toList, Option.filter_eq_some_iff] at h
  rcases h with ⟨h, -⟩ | h
  · exact .inl (of_lastOf h)
  · exact .inr (of_lastOf h)

theorem filter_eq_self {p : α → Bool} {r : Option α} (h : ∀ a, r = some a → p a = true) :
    r.filter p = r := by
  cases r with
  | none => rfl
  | some a => exact Option.filter_some_pos (h a rfl)

/-- A 'Not Specified' row is a data row. -/
theorem isGrand_of_isNs {r : α} (h : isNs row r = true) : isGrand row r = false :=
  decide_eq_false (by simp [Row.kind_of_isNotSpecified h])

/-- The 'Not Specified' row that is left is the one that was put there. -/
theorem lastOf_isNs_omitZeroBy (rows : List α) :
    lastOf (isNs row) (omitZeroBy P row rows) =
      (lastOf (isNs row) rows).filter fun r => !(row r).isZero P := by
  have hgrand : (lastOf (isGrand row) rows).filter (isNs row) = none :=
    Option.filter_eq_none_iff.mpr fun a ha hns => by
      have := isGrand_of_isNs hns
      rw [of_lastOf ha] at this
      cases this
  rw [omitZeroBy_eq, lastOf_append, lastOf_append,
    lastOf_eq_none fun r hr => (of_mem_kept hr).notNs, lastOf_toList, lastOf_toList, hgrand,
    Option.none_or, Option.or_none]
  exact filter_eq_self fun a ha => of_lastOf (Option.filter_eq_some_iff.mp ha).1

/-- The grand total that is left is the one that was put there. -/
theorem lastOf_isGrand_omitZeroBy (rows : List α) :
    lastOf (isGrand row) (omitZeroBy P row rows) = lastOf (isGrand row) rows := by
  have hns : ((lastOf (isNs row) rows).filter fun r => !(row r).isZero P).filter (isGrand row) =
      none :=
    Option.filter_eq_none_iff.mpr fun a ha hgrand => by
      have := isGrand_of_isNs (of_lastOf (Option.filter_eq_some_iff.mp ha).1)
      rw [hgrand] at this
      cases this
  rw [omitZeroBy_eq, lastOf_append, lastOf_append,
    lastOf_eq_none fun r hr => (of_mem_kept hr).notGrand, lastOf_toList, lastOf_toList, hns,
    Option.none_or, Option.or_none]
  exact filter_eq_self fun a ha => of_lastOf ha

/-- What is put last is put last again. The pass keeps the rest, and the two rows
that are taken out are found where they were put. -/
theorem omitZeroBy_idem (rows : List α) :
    omitZeroBy P row (omitZeroBy P row rows) = omitZeroBy P row rows := by
  rw [omitZeroBy_eq (omitZeroBy P row rows), lastOf_isNs_omitZeroBy, lastOf_isGrand_omitZeroBy,
    Option.filter_filter]
  simp only [Bool.and_self]
  rw [omitZeroBy_eq, List.append_assoc (kept P row false rows), kept_append (closing_last rows),
    kept_kept id, List.append_assoc]

end Pass

/-- **Leaving out twice leaves out no more**, for any arrangement of rows. -/
theorem omitZeroRows_idem (P : Platform) (rows : List (Row P.F64)) :
    omitZeroRows P (omitZeroRows P rows) = omitZeroRows P rows :=
  omitZeroBy_idem rows

end JobRunner.Jobctl
