import Mathlib.Data.List.Perm.Subperm

/-!
# A page of a list

A service that is asked for at most `k` of some items answers with a page: any `k` of them,
in any order, or all of them if there are no more.

- `Page`: the pages of a list.
- `Page.perm`: what fits is there.
- `Page.exists_without`, `Page.exists_single`: pages that mislead about the list.
- `Page.countP_ne_one_iff`: when no page has exactly one item of a kind.
-/

variable {α : Type}

/-- `page` is some `k` items of `items`, or all of them. -/
structure Page (k : Nat) (items page : List α) : Prop where
  part : page.Subperm items
  length : page.length = min k items.length

namespace Page

variable {k : Nat} {items page : List α} {p : α → Bool}

/-- A short list is answered as a whole. -/
theorem perm (h : Page k items page) (hfits : items.length ≤ k) : page.Perm items := by
  refine h.part.perm_of_length_le ?_
  rw [h.length]
  omega

theorem length_eq (h : Page k items page) (hlong : k ≤ items.length) : page.length = k := by
  rw [h.length]
  omega

/-- A long list has a page without a given item. -/
theorem exists_without [DecidableEq α] {a : α} (hnodup : items.Nodup) (hlong : k < items.length) :
    ∃ page, Page k items page ∧ a ∉ page := by
  refine ⟨(items.erase a).take k, ⟨?_, ?_⟩, ?_⟩
  · exact ((List.take_sublist _ _).trans List.erase_sublist).subperm
  · have herase : items.length - 1 ≤ (items.erase a).length := List.le_length_erase
    rw [List.length_take]
    have hle : (items.erase a).length ≤ items.length := List.erase_sublist.length_le
    omega
  · intro ha
    exact hnodup.not_mem_erase (List.mem_of_mem_take ha)

/-- A page with one item of a kind, and `k` others. The page leaves out the other
items of the kind, and there is room for it to do so. -/
theorem exists_single {x : α} {xs : List α} (hkind : items.filter p = x :: xs)
    (hothers : k ≤ items.countP fun a => !p a) :
    ∃ page, Page (k + 1) items page ∧ page.filter p = [x] := by
  have hperm := List.filter_append_perm p items
  have hlength := hperm.length_eq
  rw [List.length_append, hkind, List.length_cons] at hlength
  rw [List.countP_eq_length_filter] at hothers
  -- one item of the kind, and `k` of the others
  refine ⟨x :: (items.filter fun a => !p a).take k, ⟨?_, ?_⟩, ?_⟩
  · rw [← hperm.subperm_left, hkind]
    have hsub : ([x] ++ (items.filter fun a => !p a).take k).Sublist
        ((x :: xs) ++ items.filter fun a => !p a) :=
      ((List.nil_sublist xs).cons_cons x).append (List.take_sublist _ _)
    exact hsub.subperm
  · rw [List.length_cons, List.length_take]
    omega
  · have hx : p x = true := by
      have hmem : x ∈ items.filter p := hkind ▸ List.mem_cons_self
      exact (List.mem_filter.mp hmem).2
    rw [List.filter_cons_of_pos hx, List.filter_eq_nil_iff.mpr]
    intro a ha
    simpa using (List.mem_filter.mp (List.mem_of_mem_take ha)).2

theorem length_eq_countP_add (p : α → Bool) (l : List α) :
    l.length = l.countP p + l.countP fun a => !p a := by
  simpa using List.length_eq_countP_add_countP p (l := l)

/-- No page of a long list has exactly one item of a kind, just when there is none
of the kind, or there are too few others to fill the page. In the second case every
page has two of the kind. -/
theorem countP_ne_one_iff (hlong : k + 1 ≤ items.length) :
    (∀ page, Page (k + 1) items page → page.countP p ≠ 1) ↔
      items.countP p = 0 ∨ items.length < items.countP p + k := by
  have hitems := length_eq_countP_add p items
  constructor
  · intro h
    by_contra hcond
    push Not at hcond
    obtain ⟨x, xs, hkind⟩ : ∃ x xs, items.filter p = x :: xs := by
      refine List.exists_cons_of_ne_nil fun hnil => hcond.1 ?_
      rw [List.countP_eq_length_filter, hnil, List.length_nil]
    obtain ⟨page, hpage, hone⟩ := exists_single (k := k) hkind (by omega)
    exact h page hpage (by rw [List.countP_eq_length_filter, hone, List.length_singleton])
  · rintro hcond page hpage hone
    have hsub := hpage.part.countP_le p
    have hothers := hpage.part.countP_le fun a => !p a
    have hlen := hpage.length_eq hlong
    have hpage_split := length_eq_countP_add p page
    omega

end Page
