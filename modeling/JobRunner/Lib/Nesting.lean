import JobRunner.Lib.Outline

/-!
# The headers around an item of an outline

An item of an outline stands inside of blocks, and the headers of these are what it is
nested in. Written down with the number of headers around it, it can be seen from the list
alone: its header is the nearest item before it that is less deep.

- `above`: the nearest item before a place that is less deep.
- `Enclosed`: an outline, with the headers around each item.
- `Enclosed.above`: `above` finds the innermost header.
- `Enclosed.nested`: how deep a header, its items and its total are.
- `Shaped.exists_section`: a total is that of a block.
-/

namespace Outline

variable {α β : Type}

/-! ## The nearest item that is less deep -/

/-- The last of the items that is less deep than `d`. -/
def above (depth : α → Nat) (items : List α) (d : Nat) : Option α :=
  items.reverse.find? fun a => depth a < d

/-- The item found is the last one that is less deep, and all behind it are at least
as deep. -/
theorem above_eq_some_iff {depth : α → Nat} {items : List α} {d : Nat} {a : α} :
    above depth items d = some a ↔
      depth a < d ∧ ∃ before after, items = before ++ a :: after ∧ ∀ b ∈ after, d ≤ depth b := by
  rw [above, List.find?_eq_some_iff_append, decide_eq_true_eq]
  refine and_congr_right fun _ => ?_
  constructor
  · rintro ⟨after, before, hsplit, hdeep⟩
    refine ⟨before.reverse, after.reverse, ?_, fun b hb => ?_⟩
    · rw [← List.reverse_reverse items, hsplit, List.reverse_append, List.reverse_cons,
        List.append_assoc, List.singleton_append]
    · have hb' := hdeep b (List.mem_reverse.mp hb)
      simpa using hb'
  · rintro ⟨before, after, rfl, hdeep⟩
    refine ⟨after.reverse, before.reverse, ?_, fun b hb => ?_⟩
    · rw [List.reverse_append, List.reverse_cons, List.append_assoc, List.singleton_append]
    · simpa using hdeep b (List.mem_reverse.mp hb)

/-- What stands further in front does not matter. -/
theorem above_append {depth : α → Nat} {items : List α} {d : Nat} {a : α}
    (h : above depth items d = some a) (front : List α) :
    above depth (front ++ items) d = some a := by
  obtain ⟨hlt, before, after, rfl, hdeep⟩ := above_eq_some_iff.mp h
  exact above_eq_some_iff.mpr ⟨hlt, front ++ before, after, (List.append_assoc ..).symm, hdeep⟩

/-- If the item found is left, it is found among what is left. -/
theorem above_filterMap {depth : α → Nat} {depth' : β → Nat} {f : α → Option β}
    (hf : ∀ a b, f a = some b → depth' b = depth a) {items : List α} {d : Nat} {a : α} {b : β}
    (h : above depth items d = some a) (hb : f a = some b) :
    above depth' (items.filterMap f) d = some b := by
  obtain ⟨hlt, before, after, rfl, hdeep⟩ := above_eq_some_iff.mp h
  refine above_eq_some_iff.mpr ⟨hf a b hb ▸ hlt, before.filterMap f, after.filterMap f, ?_, ?_⟩
  · rw [List.filterMap_append, List.filterMap_cons_some hb]
  · intro b' hb'
    obtain ⟨a', ha', hfa'⟩ := List.mem_filterMap.mp hb'
    exact hf a' b' hfa' ▸ hdeep a' ha'

/-! ## Places -/

/-- A place in two lists is in the first or in the second. -/
theorem split_append {xs ys before after : List α} {a : α}
    (h : xs ++ ys = before ++ a :: after) :
    (∃ after', xs = before ++ a :: after' ∧ after = after' ++ ys) ∨
      ∃ before', before = xs ++ before' ∧ ys = before' ++ a :: after := by
  rcases List.append_eq_append_iff.mp h with ⟨middle, hbefore, hys⟩ | ⟨middle, hxs, hafter⟩
  · exact .inr ⟨middle, hbefore, hys⟩
  · rcases middle with _ | ⟨b, middle⟩
    · exact .inr ⟨[], by rw [hxs, List.append_nil, List.append_nil], hafter.symm⟩
    · obtain ⟨rfl, rfl⟩ := List.cons.inj hafter
      exact .inl ⟨middle, hxs, rfl⟩

theorem split_singleton {before after : List α} {a b : α} (h : [b] = before ++ a :: after) :
    b = a ∧ before = [] ∧ after = [] := by
  rcases List.singleton_eq_append_iff.mp h with ⟨rfl, h⟩ | ⟨-, h⟩
  · obtain ⟨rfl, rfl⟩ := List.cons.inj h
    exact ⟨rfl, rfl, rfl⟩
  · cases h

theorem split_toList {item : Option α} {before after : List α} {a : α}
    (h : item.toList = before ++ a :: after) : item = some a ∧ before = [] ∧ after = [] := by
  cases item with
  | none => exact absurd h.symm (List.append_ne_nil_of_right_ne_nil _ (List.cons_ne_nil _ _))
  | some item => exact (split_singleton h).imp_left (congrArg some)

/-- A place in an outline that begins with a leaf. -/
theorem split_leaf {item : α} {rest : Outline α} {before after : List α} {a : α}
    (h : (leaf item rest).flatten = before ++ a :: after) :
    item = a ∨ ∃ b, before = [item] ++ b ∧ rest.flatten = b ++ a :: after := by
  rcases split_append (show [item] ++ rest.flatten = _ from h) with ⟨_, hitem, -⟩ | hrest
  · exact .inl (split_singleton hitem).1
  · exact .inr hrest

/-- A place in an outline that begins with a block. -/
theorem split_block {header total : Option α} {below rest : Outline α} {before after : List α}
    {a : α} (h : (block header below total rest).flatten = before ++ a :: after) :
    header = some a ∨
    (∃ b c, before = header.toList ++ b ∧ below.flatten = b ++ a :: c ∧
      after = c ++ (total.toList ++ rest.flatten)) ∨
    (total = some a ∧ before = header.toList ++ below.flatten ∧ after = rest.flatten) ∨
    ∃ b, before = header.toList ++ below.flatten ++ total.toList ++ b ∧
      rest.flatten = b ++ a :: after := by
  rw [flatten, List.append_assoc, List.append_assoc] at h
  rcases split_append h with ⟨_, hitem, -⟩ | ⟨b₁, rfl, h₁⟩
  · exact .inl (split_toList hitem).1
  rcases split_append h₁ with ⟨c, hitem, rfl⟩ | ⟨b₂, rfl, h₂⟩
  · exact .inr (.inl ⟨b₁, c, rfl, hitem, rfl⟩)
  rcases split_append h₂ with ⟨c, hitem, rfl⟩ | ⟨b₃, rfl, h₃⟩
  · obtain ⟨htotal, rfl, rfl⟩ := split_toList hitem
    exact .inr (.inr (.inl ⟨htotal, by rw [List.append_nil], rfl⟩))
  · exact .inr (.inr (.inr ⟨b₃, by simp only [List.append_assoc], h₃⟩))

/-- A place among what is left of a list is one in the list. -/
theorem split_filterMap {f : α → Option β} {items : List α} {before after : List β} {b : β}
    (h : items.filterMap f = before ++ b :: after) :
    ∃ front a back, items = front ++ a :: back ∧ front.filterMap f = before ∧ f a = some b ∧
      back.filterMap f = after := by
  obtain ⟨front, rest, rfl, hfront, hrest⟩ := List.filterMap_eq_append_iff.mp h
  obtain ⟨skipped, a, back, rfl, hskipped, ha, hback⟩ := List.filterMap_eq_cons_iff.mp hrest
  refine ⟨front ++ skipped, a, back, (List.append_assoc ..).symm, ?_, ha, hback⟩
  rw [List.filterMap_append, hfront, List.filterMap_eq_nil_iff.mpr hskipped, List.append_nil]

/-! ## The headers around an item -/

/-- Each item is written down with the headers around it, the innermost first. What stands
below a header is inside of it or, all of it, only behind it. -/
def Enclosed : Outline (α × List α) → List α → Prop
  | .nil, _ => True
  | .leaf item rest, path => item.2 = path ∧ rest.Enclosed path
  | .block header below total rest, path =>
    (∀ h, header = some h → h.2 = path) ∧
      (below.Enclosed ((header.map Prod.fst).toList ++ path) ∨ below.Enclosed path) ∧
      (∀ t, total = some t → t.2 = path) ∧ rest.Enclosed path

/-- A block whose header and total have `path` around them. -/
theorem enclosed_block {header total : Option α} {path : List α} {below rest : Outline (α × List α)}
    (hbelow : below.Enclosed (header.toList ++ path) ∨ below.Enclosed path)
    (hrest : rest.Enclosed path) :
    (block (header.map (·, path)) below (total.map (·, path)) rest).Enclosed path := by
  refine ⟨fun y hy => ?_, ?_, fun y hy => ?_, hrest⟩
  · obtain ⟨_, _, rfl⟩ := Option.map_eq_some_iff.mp hy
    rfl
  · cases header <;> exact hbelow
  · obtain ⟨_, _, rfl⟩ := Option.map_eq_some_iff.mp hy
    rfl

/-- What stands below a header has at least the same headers around it. -/
theorem exists_enclosed {below : Outline (α × List α)} {inner path : List α}
    (h : below.Enclosed (inner ++ path) ∨ below.Enclosed path) :
    ∃ p, path <:+ p ∧ below.Enclosed p := by
  rcases h with hinside | hbehind
  · exact ⟨_, List.suffix_append _ _, hinside⟩
  · exact ⟨_, List.suffix_refl _, hbehind⟩

/-- How many headers are around an item. -/
def depth (item : α × List α) : Nat := item.2.length

/-- The headers around an outline are around all of its items. -/
theorem Enclosed.suffix {o : Outline (α × List α)} {path : List α} (h : o.Enclosed path)
    {x : α × List α} (hx : x ∈ o.flatten) : path <:+ x.2 := by
  induction o generalizing path with
  | nil => cases hx
  | leaf item rest ih =>
    rcases List.mem_cons.mp hx with rfl | hx
    · exact h.1 ▸ List.suffix_refl _
    · exact ih h.2 hx
  | block header below total rest ihBelow ihRest =>
    obtain ⟨hheader, hbelow, htotal, hrest⟩ := h
    simp only [flatten, List.mem_append, Option.mem_toList] at hx
    rcases hx with ((hx | hx) | hx) | hx
    · exact hheader x hx ▸ List.suffix_refl _
    · obtain ⟨p, hp, hbelow⟩ := exists_enclosed hbelow
      exact hp.trans (ihBelow hbelow hx)
    · exact htotal x hx ▸ List.suffix_refl _
    · exact ihRest hrest hx

theorem ne_of_inside {path outer : List α} (h : path.length ≤ outer.length) (hd : α) :
    hd :: outer ≠ path := by
  rintro rfl
  exact absurd h (Nat.not_succ_le_self _)

/-- **The innermost header is found**: it is the nearest item before its own that is less
deep, and it is less deep by one. -/
theorem Enclosed.above {o : Outline (α × List α)} {path : List α} (h : o.Enclosed path)
    {before after : List (α × List α)} {x hd : α} {outer : List α}
    (hsplit : o.flatten = before ++ (x, hd :: outer) :: after)
    (hinside : path.length ≤ outer.length) :
    above depth before (outer.length + 1) = some (hd, outer) := by
  induction o generalizing path before after with
  | nil => exact absurd hsplit.symm (List.append_ne_nil_of_right_ne_nil _ (List.cons_ne_nil _ _))
  | leaf item rest ih =>
    rcases split_leaf hsplit with rfl | ⟨b, rfl, hrest⟩
    · exact absurd h.1 (ne_of_inside hinside hd)
    · exact above_append (ih h.2 hrest hinside) _
  | block header below total rest ihBelow ihRest =>
    obtain ⟨hheader, hbelow, htotal, hrest⟩ := h
    rcases split_block hsplit with hitem | ⟨b, c, rfl, hitem, -⟩ | ⟨hitem, -, -⟩ | ⟨b, rfl, hitem⟩
    · exact absurd (hheader _ hitem) (ne_of_inside hinside hd)
    · rcases hbelow with hbelow | hbehind
      · -- either a block below has the header, or it is this block's own
        by_cases hdeep : ((header.map Prod.fst).toList ++ path).length ≤ outer.length
        · exact above_append (ihBelow hbelow hitem hdeep) _
        have hsuffix := hbelow.suffix (hitem ▸ List.mem_append_right _ List.mem_cons_self)
        have hown : (header.map Prod.fst).toList ++ path = hd :: outer := by
          refine hsuffix.eq_of_length_le ?_
          rw [List.length_cons]
          omega
        rcases header with _ | own
        · exact absurd hown.symm (ne_of_inside hinside hd)
        obtain ⟨rfl, rfl⟩ := List.cons.inj hown
        obtain rfl := hheader own rfl
        refine above_eq_some_iff.mpr ⟨Nat.lt_succ_self _, [], b, rfl, fun y hy => ?_⟩
        exact (hbelow.suffix (hitem ▸ List.mem_append_left _ hy)).length_le
      · exact above_append (ihBelow hbehind hitem hinside) _
    · exact absurd (htotal _ hitem) (ne_of_inside hinside hd)
    · exact above_append (ihRest hrest hitem hinside) _

/-- Every header around an item stands before it. -/
theorem Enclosed.mem_before {o : Outline (α × List α)} (h : o.Enclosed [])
    {before after : List (α × List α)} {x hd : α} {inner outer : List α}
    (hsplit : o.flatten = before ++ (x, inner ++ hd :: outer) :: after) :
    (hd, outer) ∈ before := by
  induction inner generalizing before x after with
  | nil =>
    obtain ⟨-, b, a, rfl, -⟩ := above_eq_some_iff.mp (h.above hsplit (Nat.zero_le _))
    exact List.mem_append_right _ List.mem_cons_self
  | cons innermost inner ih =>
    -- the innermost header has all the others around it
    obtain ⟨-, b, a, rfl, -⟩ := above_eq_some_iff.mp (h.above hsplit (Nat.zero_le _))
    rw [List.append_assoc, List.cons_append] at hsplit
    exact List.mem_append_left _ (ih hsplit)

/-- The headers around an item are headers of blocks. -/
theorem Enclosed.headers {o : Outline (α × List α)} {path : List α} (h : o.Enclosed path)
    (isHeader : α → Prop) {leaf total : α × List α → Prop}
    (hshape : o.Shaped (isHeader ·.1) leaf total)
    (hpath : ∀ a ∈ path, isHeader a) {x : α × List α} (hx : x ∈ o.flatten) :
    ∀ a ∈ x.2, isHeader a := by
  induction o generalizing path with
  | nil => exact absurd hx List.not_mem_nil
  | leaf item rest ih =>
    rcases List.mem_cons.mp hx with rfl | hx
    · exact h.1 ▸ hpath
    · exact ih h.2 hshape.2 hpath hx
  | block hd below t rest ihBelow ihRest =>
    obtain ⟨hheader, hbelow, htotal, hrest⟩ := h
    obtain ⟨hisHeader, hshapeBelow, -, hshapeRest⟩ := hshape
    simp only [flatten, List.mem_append, Option.mem_toList] at hx
    rcases hx with ((hx | hx) | hx) | hx
    · exact hheader x hx ▸ hpath
    · rcases hbelow with hinside | hbehind
      · refine ihBelow hinside hshapeBelow (fun a ha => ?_) hx
        rcases List.mem_append.mp ha with ha | ha
        · obtain ⟨item, rfl, rfl⟩ := Option.map_eq_some_iff.mp (Option.mem_toList.mp ha)
          exact hisHeader item rfl
        · exact hpath a ha
      · exact ihBelow hbehind hshapeBelow hpath hx
    · exact htotal x hx ▸ hpath
    · exact ihRest hrest hshapeRest hpath hx

/-! ## Blocks and their totals -/

/-- The header and the total of a block are at one depth, and nothing under it is less deep. -/
structure Section.Nested (s : Section (α × List α)) (path : List α) : Prop where
  header : ∀ y, s.header = some y → y.2 = path
  total : ∀ y, s.total = some y → y.2 = path
  under : ∀ y ∈ s.under, path <:+ y.2

theorem Enclosed.nested {o : Outline (α × List α)} {path : List α} (h : o.Enclosed path)
    {B A : List (α × List α)} {s : Section (α × List α)} (hs : s ∈ o.sections B A) :
    ∃ p, s.Nested p := by
  induction o generalizing path B A with
  | nil => exact absurd hs List.not_mem_nil
  | leaf item rest ih => exact ih h.2 hs
  | block header below total rest ihBelow ihRest =>
    obtain ⟨hheader, hbelow, htotal, hrest⟩ := h
    obtain ⟨p, hp, hbelow⟩ := exists_enclosed hbelow
    rw [sections, List.mem_cons, List.mem_append] at hs
    rcases hs with rfl | hs | hs
    · exact ⟨path, hheader, htotal, fun y hy => hp.trans (hbelow.suffix hy)⟩
    · exact ihBelow hbelow hs
    · exact ihRest hrest hs

variable {header leaf total : α → Prop}

/-- A total, wherever it stands, is that of a block there. -/
theorem Shaped.exists_section {o : Outline α} (h : o.Shaped header leaf total)
    {before after : List α} {y : α} (hsplit : o.flatten = before ++ y :: after)
    (hheader : ¬ header y) (hleaf : ¬ leaf y) (B A : List α) :
    ∃ s ∈ o.sections B A, s.total = some y ∧
      s.before ++ s.header.toList ++ s.under = B ++ before ∧ s.after = after ++ A := by
  induction o generalizing before after B A with
  | nil => exact absurd hsplit.symm (List.append_ne_nil_of_right_ne_nil _ (List.cons_ne_nil _ _))
  | leaf item rest ih =>
    rcases split_leaf hsplit with rfl | ⟨b, rfl, hitem⟩
    · exact absurd h.1 hleaf
    · rw [← List.append_assoc]
      exact ih h.2 hitem _ _
  | block hd below t rest ihBelow ihRest =>
    obtain ⟨hhd, hbelow, -, hrest⟩ := h
    rcases split_block hsplit with hitem | ⟨b, c, rfl, hitem, rfl⟩ | ⟨hitem, rfl, rfl⟩ |
      ⟨b, rfl, hitem⟩
    · exact absurd (hhd y hitem) hheader
    · obtain ⟨s, hs, htotal, hbefore, hafter⟩ := ihBelow hbelow hitem (B ++ hd.toList)
        (t.toList ++ rest.flatten ++ A)
      refine ⟨s, List.mem_cons_of_mem _ (List.mem_append_left _ hs), htotal, ?_, ?_⟩
      · rw [hbefore, List.append_assoc]
      · rw [hafter, ← List.append_assoc]
    · exact ⟨_, List.mem_cons_self, hitem, List.append_assoc .., rfl⟩
    · obtain ⟨s, hs, htotal, hbefore, hafter⟩ := ihRest hrest hitem
        (B ++ hd.toList ++ below.flatten ++ t.toList) A
      refine ⟨s, List.mem_cons_of_mem _ (List.mem_append_right _ hs), htotal, ?_, hafter⟩
      simp only [hbefore, List.append_assoc]

end Outline
