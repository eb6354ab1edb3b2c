import Mathlib.Data.List.Basic

/-!
# Growing a list of keys to its closure

Items have a key and perhaps the key of a parent. Starting from some keys, a loop adds the
keys of all items whose parent is there and whose own key is not, until a round adds
nothing. Parents may be missing, dangling or cyclic.

- `grow`: the loop; each round leaves fewer items outside.
- `Reach`: the least set of keys with the start and every item whose parent is in it.
- `mem_grow_iff`: the loop computes it.
- `grow_nodup`: with distinct keys, each key once.
-/

namespace Closure

variable {α β : Type} [DecidableEq β] (items : List α) (key : α → β) (parent : α → Option β)

/-- The keys of the next round. -/
def children (found : List β) : List β :=
  (items.filter fun a => (parent a).any (· ∈ found) && decide (key a ∉ found)).map key

/-- The items that are not found. -/
def outside (found : List β) : List α := items.filter (key · ∉ found)

variable {items key parent}

theorem mem_children {found : List β} {b : β} :
    b ∈ children items key parent found ↔
      ∃ a ∈ items, (∃ p, parent a = some p ∧ p ∈ found) ∧ key a ∉ found ∧ key a = b := by
  unfold children
  simp only [List.mem_map, List.mem_filter, Bool.and_eq_true, decide_eq_true_eq, Option.any_eq_true,
    and_assoc]

/-- A round that adds a key leaves fewer items outside. The loop ends by this. -/
theorem outside_lt {found : List β} (h : children items key parent found ≠ []) :
    (outside items key (found ++ children items key parent found)).length <
      (outside items key found).length := by
  obtain ⟨b, hb⟩ := List.exists_mem_of_ne_nil _ h
  obtain ⟨a, ha, -, hout, rfl⟩ := mem_children.mp hb
  have hsub : outside items key (found ++ children items key parent found) =
      (outside items key found).filter (key · ∉ children items key parent found) := by
    unfold outside
    rw [List.filter_filter]
    refine List.filter_congr fun a _ => ?_
    rw [Bool.and_comm]
    simp [List.mem_append]
  rw [hsub, List.length_filter_lt_length_iff_exists]
  refine ⟨a, List.mem_filter.mpr ⟨ha, by simpa using hout⟩, by simpa using hb⟩

variable (items key parent)

/-- The loop. -/
def grow (found : List β) : List β :=
  if children items key parent found = [] then found
  else grow (found ++ children items key parent found)
termination_by (outside items key found).length
decreasing_by exact outside_lt ‹_›

/-- The keys that can be reached. -/
inductive Reach (start : List β) : β → Prop
  | start {b : β} : b ∈ start → Reach start b
  | child {a : α} {p : β} : a ∈ items → parent a = some p → Reach start p → Reach start (key a)

variable {items key parent}

namespace Reach

/-- A round adds nothing that cannot be reached. -/
theorem of_append {found : List β} {b : β}
    (h : Reach items key parent (found ++ children items key parent found) b) :
    Reach items key parent found b := by
  induction h with
  | start hb =>
    rcases List.mem_append.mp hb with hfound | hchild
    · exact .start hfound
    · obtain ⟨a, ha, ⟨p, hp, hpfound⟩, -, rfl⟩ := mem_children.mp hchild
      exact .child ha hp (.start hpfound)
  | child ha hp _ ih => exact .child ha hp ih

omit [DecidableEq β] in
theorem mono {found found' : List β} (hsub : found ⊆ found') {b : β}
    (h : Reach items key parent found b) : Reach items key parent found' b := by
  induction h with
  | start hb => exact .start (hsub hb)
  | child ha hp _ ih => exact .child ha hp ih

/-- Where a round adds nothing, everything that can be reached is there. -/
theorem mem_of_closed {found : List β} (hclosed : children items key parent found = []) {b : β}
    (h : Reach items key parent found b) : b ∈ found := by
  induction h with
  | start hb => exact hb
  | @child a p ha hp _ ih =>
    by_contra hout
    have hmem : key a ∈ children items key parent found :=
      mem_children.mpr ⟨a, ha, ⟨p, hp, ih⟩, hout, rfl⟩
    rw [hclosed] at hmem
    cases hmem

end Reach

/-- **The loop computes the least closed set.** By the loop's own recursion: a round
adds only what can be reached, and where it adds nothing all that can be reached is
there. -/
theorem mem_grow_iff (found : List β) (b : β) :
    b ∈ grow items key parent found ↔ Reach items key parent found b := by
  induction found using grow.induct items key parent with
  | case1 found hclosed =>
    rw [grow, if_pos hclosed]
    exact ⟨.start, Reach.mem_of_closed hclosed⟩
  | case2 found hopen ih =>
    rw [grow, if_neg hopen, ih]
    exact ⟨Reach.of_append, Reach.mono (List.subset_append_left ..)⟩

theorem children_nodup (hkeys : (items.map key).Nodup) (found : List β) :
    (children items key parent found).Nodup :=
  hkeys.sublist (List.filter_sublist.map key)

/-- With distinct keys no key is added twice. -/
theorem grow_nodup (hkeys : (items.map key).Nodup) (found : List β) (h : found.Nodup) :
    (grow items key parent found).Nodup := by
  induction found using grow.induct items key parent with
  | case1 found hclosed =>
    rw [grow, if_pos hclosed]
    exact h
  | case2 found hopen ih =>
    rw [grow, if_neg hopen]
    refine ih (List.nodup_append.mpr ⟨h, children_nodup hkeys found, fun b hfound b' hchild => ?_⟩)
    obtain ⟨a, -, -, hout, rfl⟩ := mem_children.mp hchild
    rintro rfl
    exact hout hfound

end Closure
