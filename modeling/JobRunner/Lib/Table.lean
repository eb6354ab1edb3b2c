import Mathlib.Data.List.MinMax
import Mathlib.Data.List.Nodup
import Mathlib.Data.List.Sort

/-!
# Tables with a primary key

A table is a list of rows no two of which share a key, so looking a row up by
its key is a function. The operations are those of single SQL statements on one
table:

- `find?`: `WHERE key = ?`;
- `insert`: a new row whose key no row has;
- `update p f`: `UPDATE … SET … WHERE p`, with `matching p` the number of rows
  the `WHERE` clause selects;
- `least? p`: `WHERE p ORDER BY key LIMIT 1`;
- `ordered p`: `WHERE p ORDER BY key`.

Each operation comes with what it does to a lookup, which is all that later
proofs use: the rows themselves are never unfolded again.
-/

namespace Keyed

universe u v w

/-- Rows of type `ρ` under a primary key `key : ρ → κ`. -/
structure Table {κ : Type u} {ρ : Type v} (key : ρ → κ) where
  /-- The rows, in no particular order. -/
  rows : List ρ
  /-- The key is a primary key. -/
  nodup : (rows.map key).Nodup

namespace Table

variable {κ : Type u} {ρ : Type v} {key : ρ → κ}

/-- The table without rows. -/
def empty : Table key := ⟨[], List.nodup_nil⟩

theorem eq_of_key_eq (t : Table key) {r r' : ρ} (hr : r ∈ t.rows) (hr' : r' ∈ t.rows)
    (h : key r = key r') : r = r' :=
  List.inj_on_of_nodup_map t.nodup hr hr' h

/-! ## Lookup -/

section Lookup

variable [DecidableEq κ]

/-- The row with key `k`, if there is one. -/
def find? (t : Table key) (k : κ) : Option ρ :=
  t.rows.find? fun r => key r = k

/-- Reading by key finds the one row of that key: keys are unique in a table, so it
does not matter that the first match is taken. -/
theorem find?_eq_some_iff {t : Table key} {k : κ} {r : ρ} :
    t.find? k = some r ↔ r ∈ t.rows ∧ key r = k := by
  constructor
  · intro h
    exact ⟨List.mem_of_find?_eq_some h, by simpa using List.find?_some h⟩
  · rintro ⟨hr, hk⟩
    cases hf : t.find? k with
    | none => exact absurd hk (by simpa using List.find?_eq_none.mp hf r hr)
    | some r' =>
      have hr' : r' ∈ t.rows := List.mem_of_find?_eq_some hf
      have hk' : key r' = k := by simpa using List.find?_some hf
      rw [t.eq_of_key_eq hr' hr (hk'.trans hk.symm)]

theorem find?_eq_none_iff {t : Table key} {k : κ} :
    t.find? k = none ↔ ∀ r ∈ t.rows, key r ≠ k := by
  unfold find?
  rw [List.find?_eq_none]
  simp

theorem find?_key {t : Table key} {k : κ} {r : ρ} (h : t.find? k = some r) : key r = k :=
  (find?_eq_some_iff.mp h).2

theorem mem_of_find? {t : Table key} {k : κ} {r : ρ} (h : t.find? k = some r) : r ∈ t.rows :=
  (find?_eq_some_iff.mp h).1

end Lookup

/-! ## Insertion -/

section Insert

variable [DecidableEq κ]

/-- A new row under a key that is not taken. -/
def insert (t : Table key) (r : ρ) (h : t.find? (key r) = none) : Table key where
  rows := t.rows ++ [r]
  nodup := by
    rw [List.map_append, List.nodup_append]
    refine ⟨t.nodup, by simp, ?_⟩
    intro k hk k' hk' heq
    obtain ⟨r', hr', rfl⟩ := List.mem_map.mp hk
    rw [List.map_singleton, List.mem_singleton] at hk'
    exact find?_eq_none_iff.mp h r' hr' (heq.trans hk')

@[simp] theorem insert_rows (t : Table key) (r : ρ) (h : t.find? (key r) = none) :
    (t.insert r h).rows = t.rows ++ [r] := rfl

/-- An insert adds the row under its own key, which was free, and every other key
reads as before. -/
theorem find?_insert (t : Table key) (r : ρ) (h : t.find? (key r) = none) (k : κ) :
    (t.insert r h).find? k = if key r = k then some r else t.find? k := by
  unfold find?
  rw [insert_rows, List.find?_append]
  by_cases hk : key r = k
  · have hnone : t.rows.find? (fun r' => key r' = k) = none := hk ▸ h
    rw [hnone, if_pos hk]
    simp [hk]
  · rw [if_neg hk]
    simp [hk]

end Insert

/-! ## Update -/

/-- `UPDATE … WHERE p`: `f` on the rows that satisfy `p`; keys are not
assigned. -/
def update (t : Table key) (p : ρ → Bool) (f : ρ → ρ) (hf : ∀ r, key (f r) = key r) :
    Table key where
  rows := t.rows.map fun r => if p r then f r else r
  nodup := by
    have hkeys : (t.rows.map fun r => if p r then f r else r).map key = t.rows.map key := by
      rw [List.map_map]
      refine List.map_congr_left fun r _ => ?_
      show key (if p r then f r else r) = key r
      split
      · exact hf r
      · rfl
    rw [hkeys]
    exact t.nodup

@[simp] theorem update_rows (t : Table key) (p : ρ → Bool) (f : ρ → ρ)
    (hf : ∀ r, key (f r) = key r) :
    (t.update p f hf).rows = t.rows.map fun r => if p r then f r else r := rfl

/-- Nothing changes when no row satisfies the `WHERE` clause. -/
theorem update_eq_self {t : Table key} {p : ρ → Bool} {f : ρ → ρ}
    {hf : ∀ r, key (f r) = key r} (h : ∀ r ∈ t.rows, p r = false) : t.update p f hf = t := by
  have hrows : (t.update p f hf).rows = t.rows := by
    rw [update_rows]
    conv_rhs => rw [← List.map_id t.rows]
    refine List.map_congr_left fun r hr => ?_
    rw [h r hr]
    rfl
  cases t
  simp only [update] at hrows ⊢
  congr

/-- An `UPDATE` read by key: a row stays where it was, as no assignment touches the
key, and is the assigned one if the `WHERE` clause selects it. -/
theorem find?_update [DecidableEq κ] (t : Table key) (p : ρ → Bool) (f : ρ → ρ)
    (hf : ∀ r, key (f r) = key r) (k : κ) :
    (t.update p f hf).find? k = (t.find? k).map fun r => if p r then f r else r := by
  unfold find?
  rw [update_rows, List.find?_map]
  congr 2
  funext r
  show decide (key (if p r then f r else r) = k) = decide (key r = k)
  split
  · rw [hf]
  · rfl

/-- How many rows a `WHERE` clause selects. -/
def matching (t : Table key) (p : ρ → Bool) : Nat := t.rows.countP p

/-- A `WHERE` clause that fixes the key selects one row or none, so the count of
affected rows says whether that row was there. -/
theorem matching_of_key [DecidableEq κ] (t : Table key) {p : ρ → Bool} {k : κ}
    (hp : ∀ r, p r = true → key r = k) :
    t.matching p = if (t.find? k).any p then 1 else 0 := by
  unfold matching
  cases hf : t.find? k with
  | none =>
    rw [Option.any_none, if_neg (by simp)]
    refine List.countP_eq_zero.mpr fun r hr hpr => ?_
    exact find?_eq_none_iff.mp hf r hr (hp r hpr)
  | some r =>
    obtain ⟨hr, hk⟩ := find?_eq_some_iff.mp hf
    rw [Option.any_some]
    obtain ⟨xs, ys, hsplit⟩ := List.append_of_mem hr
    -- keys are unique, so no other row satisfies the clause
    have hother : ∀ r' ∈ xs ++ ys, p r' = false := by
      intro r' hr'
      refine Bool.eq_false_iff.mpr fun hpr' => ?_
      have hnodup := t.nodup
      rw [hsplit, List.map_append, List.map_cons, List.nodup_middle, List.nodup_cons,
        ← List.map_append] at hnodup
      exact hnodup.1 (List.mem_map.mpr ⟨r', hr', (hp r' hpr').trans hk.symm⟩)
    have hxs : xs.countP p = 0 := List.countP_eq_zero.mpr fun r' hr' =>
      by simp [hother r' (List.mem_append_left _ hr')]
    have hys : ys.countP p = 0 := List.countP_eq_zero.mpr fun r' hr' =>
      by simp [hother r' (List.mem_append_right _ hr')]
    rw [hsplit, List.countP_append, List.countP_cons, hxs, hys]
    omega

/-! ## The least key -/

section Least

variable [LinearOrder κ]

/-- The row with the least key among those that satisfy `p`. -/
def least? (t : Table key) (p : ρ → Bool) : Option ρ := (t.rows.filter p).argmin key

theorem least?_eq_none_iff {t : Table key} {p : ρ → Bool} :
    t.least? p = none ↔ ∀ r ∈ t.rows, p r = false := by
  unfold least?
  rw [List.argmin_eq_none, List.filter_eq_nil_iff]
  simp

theorem least?_mem {t : Table key} {p : ρ → Bool} {r : ρ} (h : t.least? p = some r) :
    r ∈ t.rows ∧ p r = true :=
  List.mem_filter.mp (List.argmin_mem h)

/-- `ORDER BY id LIMIT 1`: no row that satisfies the clause comes before the one
returned. -/
theorem least?_le {t : Table key} {p : ρ → Bool} {r r' : ρ} (h : t.least? p = some r)
    (hr' : r' ∈ t.rows) (hp : p r' = true) : key r ≤ key r' :=
  List.le_of_mem_argmin (List.mem_filter.mpr ⟨hr', hp⟩) h

end Least

/-! ## All rows, in order -/

section Ordered

variable [LinearOrder κ]

/-- The rows that satisfy `p`, by their keys. -/
def ordered (t : Table key) (p : ρ → Bool) : List ρ :=
  (t.rows.filter p).mergeSort fun r r' => key r ≤ key r'

theorem mem_ordered {t : Table key} {p : ρ → Bool} {r : ρ} :
    r ∈ t.ordered p ↔ r ∈ t.rows ∧ p r = true := by
  rw [ordered, List.mem_mergeSort, List.mem_filter]

/-- No two keys are equal, so the order of `ORDER BY id` is strict and leaves
nothing to chance. -/
theorem pairwise_ordered (t : Table key) (p : ρ → Bool) :
    (t.ordered p).Pairwise fun r r' => key r < key r' := by
  have hsorted : (t.ordered p).Pairwise fun r r' => decide (key r ≤ key r') = true :=
    List.pairwise_mergeSort
      (fun a b c hab hbc => by
        rw [decide_eq_true_eq] at hab hbc ⊢
        exact hab.trans hbc)
      (fun a b => by
        rw [Bool.or_eq_true, decide_eq_true_eq, decide_eq_true_eq]
        exact le_total _ _) _
  have hdistinct : ((t.ordered p).map key).Nodup :=
    ((List.mergeSort_perm _ _).map key).nodup_iff.mpr
      (t.nodup.sublist (List.filter_sublist.map key))
  refine (hsorted.and (List.pairwise_map.mp hdistinct)).imp fun h => ?_
  exact lt_of_le_of_ne (of_decide_eq_true h.1) h.2

/-- Lists in the strict order of a key are sublists where they are subsets. Neither
may then hold a key twice, so membership says it all. -/
theorem sublist_of_subset {α : Type w} {k : α → κ} {l l' : List α}
    (hl : l.Pairwise fun a b => k a < k b) (hl' : l'.Pairwise fun a b => k a < k b)
    (hsub : l ⊆ l') : l.Sublist l' := by
  have hantisymm : Std.Antisymm fun a b : α => k a < k b :=
    ⟨fun _ _ hab hba => absurd hab hba.not_gt⟩
  have hnodup : l.Nodup := hl.imp fun hab heq => absurd (congrArg k heq) hab.ne
  exact List.sublist_of_subperm_of_pairwise (List.subperm_of_subset hnodup hsub) hl hl'

/-- The row with the less key stands first. -/
theorem pair_sublist_ordered {t : Table key} {p : ρ → Bool} {r r' : ρ} (hr : r ∈ t.ordered p)
    (hr' : r' ∈ t.ordered p) (h : key r < key r') : [r, r'].Sublist (t.ordered p) :=
  sublist_of_subset (by simpa using h) (t.pairwise_ordered p) (by simp [hr, hr'])

/-- Columns that determine the key are in order in a later table if each row is
still there. Whatever was added since stands between them or behind. -/
theorem map_ordered_sublist {α : Type w} {f : ρ → α} {k : α → κ} (hk : ∀ r, k (f r) = key r)
    {t t' : Table key} {p : ρ → Bool}
    (h : ∀ r ∈ t.ordered p, ∃ r' ∈ t'.ordered p, f r' = f r) :
    ((t.ordered p).map f).Sublist ((t'.ordered p).map f) := by
  have hpairwise : ∀ t : Table key, ((t.ordered p).map f).Pairwise fun a b => k a < k b := by
    intro t
    rw [List.pairwise_map]
    exact (t.pairwise_ordered p).imp fun hlt => by rwa [hk, hk]
  refine sublist_of_subset (hpairwise t) (hpairwise t') fun a ha => ?_
  obtain ⟨r, hr, rfl⟩ := List.mem_map.mp ha
  obtain ⟨r', hr', heq⟩ := h r hr
  exact List.mem_map.mpr ⟨r', hr', heq⟩

end Ordered

end Table

end Keyed
