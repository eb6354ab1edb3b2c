import Mathlib.Data.List.Nodup

/-!
# Outlines

An outline is a list of leaves and of blocks, which have more of an outline below them and
perhaps an item before it and one after it. Written down as a list, the items of a block
stand together, and what belongs to which block can no longer be seen.

- `flatten`: the items in the order in which they are written down.
- `Section`, `sections`: the blocks, each with what stands before it and after it.
- `all_of_mem_sections`: a block is a piece of the list.
- `number`, `flatten_number`: items told apart by their places.
- `Shaped`: where which items stand.
-/

/-- An outline of items. -/
inductive Outline (α : Type) where
  | nil
  | leaf (item : α) (rest : Outline α)
  | block (header : Option α) (below : Outline α) (total : Option α) (rest : Outline α)

namespace Outline

variable {α β : Type}

/-- The items as they are written down. -/
def flatten : Outline α → List α
  | nil => []
  | leaf item rest => item :: rest.flatten
  | block header below total rest =>
    header.toList ++ below.flatten ++ total.toList ++ rest.flatten

/-- Leaves before the rest of an outline. -/
def leaves (items : List α) (rest : Outline α) : Outline α := items.foldr leaf rest

@[simp] theorem flatten_leaves (items : List α) (rest : Outline α) :
    (leaves items rest).flatten = items ++ rest.flatten := by
  induction items with
  | nil => rfl
  | cons item items ih => exact congrArg (item :: ·) ih

/-! ## Blocks in their places -/

/-- A block, in the list of all items. -/
structure Section (α : Type) where
  before : List α
  header : Option α
  under : List α
  total : Option α
  after : List α

/-- The whole list, put together again. -/
def Section.all (s : Section α) : List α :=
  s.before ++ s.header.toList ++ s.under ++ s.total.toList ++ s.after

/-- The blocks of an outline that stands between two lists. -/
def sections : Outline α → List α → List α → List (Section α)
  | nil, _, _ => []
  | leaf item rest, before, after => rest.sections (before ++ [item]) after
  | block header below total rest, before, after =>
    ⟨before, header, below.flatten, total, rest.flatten ++ after⟩ ::
      (below.sections (before ++ header.toList) (total.toList ++ rest.flatten ++ after) ++
        rest.sections (before ++ header.toList ++ below.flatten ++ total.toList) after)

/-- A block is a piece of the list of all items: what is before it, its own rows,
and what is behind it. By induction on the outline, for any context. -/
theorem all_of_mem_sections {o : Outline α} {before after : List α} {s : Section α}
    (h : s ∈ o.sections before after) : s.all = before ++ o.flatten ++ after := by
  induction o generalizing before after with
  | nil => exact absurd h List.not_mem_nil
  | leaf item rest ih =>
    rw [ih h]
    simp [flatten]
  | block header below total rest ihBelow ihRest =>
    rw [sections, List.mem_cons, List.mem_append] at h
    rcases h with rfl | h | h
    · simp [Section.all, flatten]
    · rw [ihBelow h]
      simp [flatten]
    · rw [ihRest h]
      simp [flatten]

/-! ## Shapes -/

/-- Headers, leaves and totals are items of their own kinds. -/
def Shaped (header leaf total : α → Prop) : Outline α → Prop
  | .nil => True
  | .leaf item rest => leaf item ∧ rest.Shaped header leaf total
  | .block h below t rest =>
    (∀ item, h = some item → header item) ∧ below.Shaped header leaf total ∧
      (∀ item, t = some item → total item) ∧ rest.Shaped header leaf total

variable {header leaf total : α → Prop}

theorem shaped_leaves {items : List α} {rest : Outline α} (h : ∀ item ∈ items, leaf item)
    (hrest : rest.Shaped header leaf total) : (leaves items rest).Shaped header leaf total := by
  induction items with
  | nil => exact hrest
  | cons item items ih =>
    exact ⟨h item List.mem_cons_self, ih fun i hi => h i (List.mem_cons_of_mem _ hi)⟩

/-- The header and the total of a block are of their kinds. -/
theorem Shaped.of_mem_sections {o : Outline α} (h : o.Shaped header leaf total)
    {before after : List α} {s : Section α} (hs : s ∈ o.sections before after) :
    (∀ item, s.header = some item → header item) ∧ ∀ item, s.total = some item → total item := by
  induction o generalizing before after with
  | nil => exact absurd hs List.not_mem_nil
  | leaf item rest ih => exact ih h.2 hs
  | block hd below t rest ihBelow ihRest =>
    obtain ⟨hheader, hbelow, htotal, hrest⟩ := h
    rw [sections, List.mem_cons, List.mem_append] at hs
    rcases hs with rfl | hs | hs
    · exact ⟨hheader, htotal⟩
    · exact ihBelow hbelow hs
    · exact ihRest hrest hs

/-! ## Places -/

/-- The items with their places, the first of which is `n`. -/
def number : Outline α → Nat → Outline (α × Nat)
  | .nil, _ => .nil
  | .leaf item rest, n => .leaf (item, n) (rest.number (n + 1))
  | .block header below total rest, n =>
    let first := n + header.toList.length
    let last := first + below.flatten.length
    .block (header.map (·, n)) (below.number first) (total.map (·, last))
      (rest.number (last + total.toList.length))

theorem toList_map_pair (item : Option α) (n : Nat) :
    (item.map (·, n)).toList = item.toList.zipIdx n := by
  cases item <;> rfl

/-- Numbering an outline is numbering its items as they are written down. -/
theorem flatten_number (o : Outline α) (n : Nat) :
    (o.number n).flatten = o.flatten.zipIdx n := by
  induction o generalizing n with
  | nil => rfl
  | leaf item rest ih => exact congrArg ((item, n) :: ·) (ih (n + 1))
  | block header below total rest ihBelow ihRest =>
    simp only [number, flatten, toList_map_pair, ihBelow, ihRest, List.zipIdx_append,
      List.length_append, Nat.add_assoc]

/-- No two items have one place. -/
theorem nodup_flatten_number (o : Outline α) (n : Nat) : (o.number n).flatten.Nodup := by
  rw [flatten_number]
  refine List.Nodup.of_map Prod.snd ?_
  rw [List.zipIdx_map_snd]
  exact List.nodup_range'

theorem forall_map_pair {p : α → Prop} {item : Option α} (h : ∀ a, item = some a → p a)
    {b : β} (x : α × β) (hx : item.map (·, b) = some x) : p x.1 := by
  obtain ⟨a, rfl, rfl⟩ := Option.map_eq_some_iff.mp hx
  exact h a rfl

/-- The places do not change the shape. -/
theorem Shaped.number {o : Outline α} (h : o.Shaped header leaf total) (n : Nat) :
    (o.number n).Shaped (header ·.1) (leaf ·.1) (total ·.1) := by
  induction o generalizing n with
  | nil => trivial
  | leaf item rest ih => exact ⟨h.1, ih h.2 _⟩
  | block hd below t rest ihBelow ihRest =>
    obtain ⟨hheader, hbelow, htotal, hrest⟩ := h
    exact ⟨forall_map_pair hheader, ihBelow hbelow _, forall_map_pair htotal, ihRest hrest _⟩

end Outline
