import Mathlib.Data.List.Basic

/-!
# Sorting by a comparison

A library sort takes the comparison as a function, and promises something only if the
function is a total preorder on what is sorted. Otherwise it may give up.

- `TotalOn`: a total preorder, on the items of a list.
- `Ascending`: the order that a sort is to give.
- `Lawful`: what a sort promises.
- `mergeSort_lawful`: merge sort keeps the promise, also where the comparison is no
  preorder on the rest of its type.
- `strictSort`, `strictSort_lawful`: so does a sort that gives up wherever it may.
-/

namespace Sorting

variable {α : Type} {cmp : α → α → Ordering} {items items' : List α}

/-- On the items, `cmp` is a total preorder. -/
structure TotalOn (cmp : α → α → Ordering) (items : List α) : Prop where
  swap : ∀ a ∈ items, ∀ b ∈ items, cmp a b = (cmp b a).swap
  trans : ∀ a ∈ items, ∀ b ∈ items, ∀ c ∈ items,
    cmp a b ≠ .gt → cmp b c ≠ .gt → cmp a c ≠ .gt

/-- No item stands before a lesser one. -/
def Ascending (cmp : α → α → Ordering) (items : List α) : Prop :=
  items.Pairwise fun a b => cmp a b ≠ .gt

/-- What a sort promises: on a total preorder, the same items, in order. -/
structure Lawful (sortBy : {α : Type} → (α → α → Ordering) → List α → List α) : Prop where
  perm {α : Type} {cmp : α → α → Ordering} {items : List α} :
    TotalOn cmp items → (sortBy cmp items).Perm items
  ascending {α : Type} {cmp : α → α → Ordering} {items : List α} :
    TotalOn cmp items → Ascending cmp (sortBy cmp items)

/-- A total preorder on the type is one on every list. -/
theorem TotalOn.of_transCmp (cmp : α → α → Ordering) [Std.TransCmp cmp] (items : List α) :
    TotalOn cmp items where
  swap _ _ _ _ := Std.OrientedCmp.eq_swap
  trans a _ b _ c _ hab hbc := by
    simp only [Ordering.ne_gt_iff_isLE] at hab hbc ⊢
    exact Std.TransCmp.isLE_trans hab hbc

/-- To compare by a part of the items. -/
theorem transCmp_comap {β : Type} (cmp : α → α → Ordering) [Std.TransCmp cmp] (part : β → α) :
    Std.TransCmp fun a b => cmp (part a) (part b) where
  eq_swap := Std.OrientedCmp.eq_swap
  isLE_trans := Std.TransCmp.isLE_trans

/-- To compare by one part of the items, and then by another. -/
theorem TotalOn.by_parts {β γ : Type} (cmp : β → β → Ordering) (cmp' : γ → γ → Ordering)
    [Std.TransCmp cmp] [Std.TransCmp cmp'] (part : α → β) (part' : α → γ) (items : List α) :
    TotalOn (fun a b => (cmp (part a) (part b)).then (cmp' (part' a) (part' b))) items := by
  have hpart := transCmp_comap cmp part
  have hpart' := transCmp_comap cmp' part'
  exact .of_transCmp (compareLex (fun a b => cmp (part a) (part b)) fun a b =>
    cmp' (part' a) (part' b)) items

/-- The other way round a comparison gives the other answer. -/
theorem TotalOn.ne_gt_or (h : TotalOn cmp items) {a b : α} (ha : a ∈ items) (hb : b ∈ items) :
    cmp a b ≠ .gt ∨ cmp b a ≠ .gt := by
  rw [h.swap a ha b hb]
  cases cmp b a <;> simp

/-- Sorting the items as elements of their list is sorting them. -/
theorem map_mergeSort_attach (le : α → α → Bool) (items : List α) :
    ((items.attach.mergeSort fun a b => le a b).map Subtype.val) = items.mergeSort le := by
  rw [List.map_mergeSort (s := le) fun _ _ _ _ => rfl, List.attach_map_subtype_val]

/-- With an order that is total on the items, merge sort brings them into that
order. It sorts them as elements of their list, where the order is one of a type. -/
theorem mergeSort_ascending (h : TotalOn cmp items) :
    Ascending cmp (items.mergeSort fun a b => cmp a b != .gt) := by
  have hsorted : List.Pairwise (fun a b : { a // a ∈ items } => (cmp a b != .gt) = true)
      (items.attach.mergeSort fun a b => cmp a b != .gt) :=
    List.pairwise_mergeSort
      (fun a b c hab hbc => by
        simp only [bne_iff_ne] at hab hbc ⊢
        exact h.trans a a.2 b b.2 c c.2 hab hbc)
      (fun a b => by
        simp only [Bool.or_eq_true, bne_iff_ne]
        exact h.ne_gt_or a.2 b.2)
      items.attach
  unfold Ascending
  rw [← map_mergeSort_attach, List.pairwise_map]
  exact hsorted.imp fun hle => by simpa using hle

/-- **Merge sort keeps the promise**, and permutes its items even where it need not. -/
theorem mergeSort_lawful : Lawful fun cmp items => items.mergeSort fun a b => cmp a b != .gt where
  perm _ := List.mergeSort_perm _ _
  ascending h := mergeSort_ascending h

open Classical in
/-- Merge sort, which gives up on a comparison that is no total preorder. -/
noncomputable def strictSort {α : Type} (cmp : α → α → Ordering) (items : List α) : List α :=
  if TotalOn cmp items then items.mergeSort fun a b => cmp a b != .gt else []

theorem length_strictSort_le (cmp : α → α → Ordering) (items : List α) :
    (strictSort cmp items).length ≤ items.length := by
  rw [strictSort]
  split
  · exact Nat.le_of_eq (List.length_mergeSort _)
  · exact Nat.zero_le _

theorem strictSort_of_not (h : ¬TotalOn cmp items) : strictSort cmp items = [] := if_neg h

/-- A sort that returns nothing where it need promise nothing keeps the promise as
well, so a proof from the promise alone cannot rest on more. -/
theorem strictSort_lawful : Lawful strictSort where
  perm h := by
    rw [strictSort, if_pos h]
    exact List.mergeSort_perm _ _
  ascending h := by
    rw [strictSort, if_pos h]
    exact mergeSort_ascending h

end Sorting
