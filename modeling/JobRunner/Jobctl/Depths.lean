import JobRunner.Jobctl.ReportTree
import JobRunner.Lib.Nesting

/-!
# What the depths of a report say (`jobctl::qbo`)

`parse_rows` gives every row a depth. Here the calls of `push` are an outline of their own,
in which each of them still has the `Header`s around it, those without a name too.

- `pushes`: the calls of `push`.
- `parseRows_eq_pushes`: `parse_rows` gives a row for each call with a name.
- `depths_describe_nesting`: depths count headers, the header of a row is found above it, and
  a total stands at the depth of its header, behind the rows of its section.
-/

open Text
open Outline

namespace JobRunner.Jobctl

/-- A call of `push`, whose depth depends on where it is made. -/
structure Push where
  holder : Json
  kind : RowKind

/-- A member of a row that `parse_rows` pushes if it is there. -/
def Push.member? (row : Json) (key : String) (kind : RowKind) : Option Push :=
  (row.get? key).map fun holder => ⟨holder, kind⟩

/-- The calls of `push` that `parse_rows` makes, each with the `Header`s around it. -/
def pushes (value : Json) (path : List Push) : Outline (Push × List Push) :=
  (list value).attach.foldr (fun ⟨row, _⟩ rest =>
    if row.isObject = false then rest
    else if (row.index "group").asStr = some "GrandTotal" then
      .leaf (⟨row.index "Summary", .grandTotal⟩, path) rest
    else
      .block ((Push.member? row "Header" .sectionHeader).map (·, path))
        (match _ : (row.index "Rows").get? "Row" with
          | some rows => pushes rows ((Push.member? row "Header" .sectionHeader).toList ++ path)
          -- a row that has cells of its own is not inside of its header
          | none => if (row.get? "ColData").isSome then .leaf (⟨row, .data⟩, path) .nil else .nil)
        ((Push.member? row "Summary" .sectionTotal).map (·, path)) rest) .nil
termination_by sizeOf value
decreasing_by exact sizeOf_rows_lt ‹row ∈ list value› ‹_›

/-- The calls for a row, before those for the rest of its list. -/
def pushesOf (path : List Push) (row : Json) (rest : Outline (Push × List Push)) :
    Outline (Push × List Push) :=
  if row.isObject = false then rest
  else if (row.index "group").asStr = some "GrandTotal" then
    .leaf (⟨row.index "Summary", .grandTotal⟩, path) rest
  else
    .block ((Push.member? row "Header" .sectionHeader).map (·, path))
      (match (row.index "Rows").get? "Row" with
        | some rows => pushes rows ((Push.member? row "Header" .sectionHeader).toList ++ path)
        | none => if (row.get? "ColData").isSome then .leaf (⟨row, .data⟩, path) .nil else .nil)
      ((Push.member? row "Summary" .sectionTotal).map (·, path)) rest

theorem pushes_eq (value : Json) (path : List Push) :
    pushes value path = (list value).foldr (pushesOf path) .nil := by
  rw [pushes]
  conv_rhs => rw [← List.attach_map_subtype_val (list value), List.foldr_map]
  congr 1
  funext ⟨row, hrow⟩ rest
  dsimp only [pushesOf]
  congr 3
  split <;> rename_i hrows <;> simp only [hrows]

theorem kind_of_member? {row : Json} {key : String} {kind : RowKind} {p : Push}
    (h : Push.member? row key kind = some p) : p.kind = kind := by
  obtain ⟨_, _, rfl⟩ := Option.map_eq_some_iff.mp h
  rfl

/-- What holds of the calls if it stays when a row is put before the rest of its list. -/
theorem pushes_induction {motive : List Push → Outline (Push × List Push) → Prop}
    (nil : ∀ path, motive path .nil)
    (leaf : ∀ path p rest, p.kind = .data ∨ p.kind = .grandTotal → motive path rest →
      motive path (.leaf (p, path) rest))
    (block : ∀ path header below total rest, (∀ p, header = some p → p.kind = .sectionHeader) →
      motive (header.toList ++ path) below ∨ motive path below →
      (∀ p, total = some p → p.kind = .sectionTotal) → motive path rest →
      motive path (.block (header.map (·, path)) below (total.map (·, path)) rest))
    (value : Json) (path : List Push) : motive path (pushes value path) := by
  rw [pushes_eq]
  generalize list value = rows
  induction rows using rows_induction generalizing path with
  | nil => exact nil path
  | cons row rows ihBelow ihRows =>
    rw [List.foldr_cons]
    unfold pushesOf
    split
    · exact ihRows path
    split
    · exact leaf path _ _ (.inr rfl) (ihRows path)
    · refine block path _ _ _ _ (fun _ => kind_of_member?) ?_ (fun _ => kind_of_member?)
        (ihRows path)
      cases hbelow : (row.index "Rows").get? "Row" with
      | some below =>
        dsimp only
        rw [pushes_eq]
        exact .inl (ihBelow below hbelow _)
      | none =>
        dsimp only
        split
        · exact .inr (leaf path _ _ (.inl rfl) (nil path))
        · exact .inr (nil path)

/-- Each call stands inside of the `Header`s that are written down with it. -/
theorem enclosed_pushes (value : Json) (path : List Push) : (pushes value path).Enclosed path := by
  refine pushes_induction (motive := fun path o => o.Enclosed path) ?nil ?leaf ?block value path
  case nil => exact fun _ => trivial
  case leaf => exact fun _ _ _ _ ih => ⟨rfl, ih⟩
  case block =>
    intro path header below total rest _ hbelow _ hrest
    exact enclosed_block hbelow hrest

/-- Each kind of row has its place. -/
theorem shaped_pushes (value : Json) (path : List Push) :
    (pushes value path).Shaped (fun p => p.1.kind = .sectionHeader)
      (fun p => p.1.kind = .data ∨ p.1.kind = .grandTotal) fun p => p.1.kind = .sectionTotal := by
  refine pushes_induction (motive := fun _ o => o.Shaped _ _ _) ?nil ?leaf ?block value path
  case nil => exact fun _ => trivial
  case leaf => exact fun _ _ _ hkind ih => ⟨hkind, ih⟩
  case block =>
    intro path header below total rest hheader hbelow htotal hrest
    exact ⟨forall_map_pair hheader, or_self_iff.mp hbelow, forall_map_pair htotal, hrest⟩

variable (P : Platform)

/-- The row that is pushed, with the number of `Header`s around it as its depth. -/
def Push.row? (p : Push × List Push) : Option (Row P.F64) :=
  (pushRow P p.1.holder p.2.length p.1.kind).head?

theorem filterMap_row? (p : Push × List Push) :
    [p].filterMap (Push.row? P) = pushRow P p.1.holder p.2.length p.1.kind := by
  cases hnamed : namedAmount P p.1.holder <;>
    simp [Push.row?, pushRow, hnamed]

/-- A member is pushed if it is there. -/
theorem filterMap_member? (row : Json) (key : String) (kind : RowKind) (path : List Push) :
    ((Push.member? row key kind).map (·, path)).toList.filterMap (Push.row? P) =
      pushMember P row key path.length kind := by
  unfold pushMember Push.member?
  cases row.get? key with
  | none => rfl
  | some holder => exact filterMap_row? P _

/-- **`parse_rows` gives a row for each call with a name**, and its depth is the
number of `Header`s around it. The calls are the recursion with nothing left out, so
the rows can be told from the document alone. -/
theorem parseRows_eq_pushes (value : Json) (path : List Push) :
    parseRows P value path.length = (pushes value path).flatten.filterMap (Push.row? P) := by
  rw [pushes_eq, parseRows_eq]
  generalize list value = rows
  induction rows using rows_induction generalizing path with
  | nil => rfl
  | cons row rows ihBelow ihRows =>
    rw [List.foldr_cons, List.flatMap_cons, ihRows]
    unfold pushesOf parseRow
    split
    · rfl
    split
    · rw [← filterMap_row? P (⟨row.index "Summary", .grandTotal⟩, path),
        ← List.filterMap_append]
      rfl
    · simp only [flatten, List.filterMap_append, filterMap_member?]
      congr 3
      cases hbelow : (row.index "Rows").get? "Row" with
      | some below =>
        dsimp only
        rw [pushes_eq, parseRows_eq, ← ihBelow below hbelow]
        unfold Push.member?
        cases row.get? "Header" <;> rfl
      | none =>
        dsimp only
        split
        · exact (filterMap_row? P (⟨row, .data⟩, path)).symm
        · rfl

variable {P}

theorem of_row?_eq_some {p : Push × List Push} {r : Row P.F64} (h : Push.row? P p = some r) :
    r.depth = p.2.length ∧ r.kind = p.1.kind := by
  unfold Push.row? pushRow at h
  split at h
  · cases h
    exact ⟨rfl, rfl⟩
  · cases h

theorem row?_isSome (p : Push × List Push) :
    (Push.row? P p).isSome = (namedAmount P p.1.holder).isSome := by
  unfold Push.row? pushRow
  split <;> simp [*]

/-! ## The header above a row -/

/-- Every row that is not at depth 0 has a less deep one before it, and the nearest of these
is the header of a section, one less deep. -/
def DepthsNest {F : Type} (rows : List (Row F)) : Prop :=
  ∀ before r after, rows = before ++ r :: after → 0 < r.depth →
    ∃ s, above Row.depth before r.depth = some s ∧ s.kind = .sectionHeader ∧
      s.depth + 1 = r.depth

variable (P) in
/-- The row `r` between `before` and `after` is pushed for `p`, which has `path` around it. -/
structure PushedAt (value : Json) (before : List (Row P.F64)) (r : Row P.F64)
    (after : List (Row P.F64)) (p : Push) (path : List Push) : Prop where
  place : ∃ front back, (pushes value []).flatten = front ++ (p, path) :: back ∧
    front.filterMap (Push.row? P) = before ∧ back.filterMap (Push.row? P) = after
  pushed : Push.row? P (p, path) = some r

/-- Every row is pushed for some call. -/
theorem exists_pushedAt {value : Json} {before after : List (Row P.F64)} {r : Row P.F64}
    (h : parseRows P value 0 = before ++ r :: after) :
    ∃ p path, PushedAt P value before r after p path := by
  obtain ⟨front, ⟨p, path⟩, back, hsplit, hbefore, hr, hafter⟩ :=
    split_filterMap ((parseRows_eq_pushes P value []).symm.trans h)
  exact ⟨p, path, ⟨front, back, hsplit, hbefore, hafter⟩, hr⟩

/-- What is around a row are headers, pushed before it: `parse_rows` goes into the
rows of a section only after its header. -/
theorem PushedAt.header {value : Json} {before after : List (Row P.F64)} {r : Row P.F64}
    {p hd : Push} {path outer : List Push} (h : PushedAt P value before r after p path)
    (inner : List Push) (hpath : path = inner ++ hd :: outer) :
    hd.kind = .sectionHeader ∧ (hd, outer) ∈ (pushes value []).flatten ∧
      ∀ s, Push.row? P (hd, outer) = some s → s ∈ before := by
  subst hpath
  obtain ⟨front, back, hsplit, rfl, -⟩ := h.place
  have hp : (p, inner ++ hd :: outer) ∈ (pushes value []).flatten := by simp [hsplit]
  have hmem := (enclosed_pushes value []).mem_before hsplit
  refine ⟨?_, hsplit ▸ List.mem_append_left _ hmem, fun s hs => ?_⟩
  · exact (enclosed_pushes value []).headers (fun p => p.kind = .sectionHeader)
      (shaped_pushes value []) (List.forall_mem_nil _) hp hd (by simp)
  · exact List.mem_filterMap.mpr ⟨_, hmem, hs⟩

/-- A named header around a row is a less deep row before it. -/
theorem PushedAt.exists_less_deep {value : Json} {before after : List (Row P.F64)}
    {r : Row P.F64} {p hd : Push} {path : List Push} (h : PushedAt P value before r after p path)
    (hhd : hd ∈ path) (hnamed : (namedAmount P hd.holder).isSome) :
    ∃ s ∈ before, s.depth < r.depth := by
  obtain ⟨inner, outer, rfl⟩ := List.append_of_mem hhd
  obtain ⟨s, hs⟩ := Option.isSome_iff_exists.mp ((row?_isSome (hd, outer)).trans hnamed)
  refine ⟨s, (h.header inner rfl).2.2 s hs, ?_⟩
  rw [(of_row?_eq_some hs).1, (of_row?_eq_some h.pushed).1, List.length_append, List.length_cons]
  show outer.length < inner.length + (outer.length + 1)
  omega

/-- **The header of a row is found above it**, if it has a name. -/
theorem PushedAt.above_header {value : Json} {before after : List (Row P.F64)} {r : Row P.F64}
    {p hd : Push} {outer : List Push} (h : PushedAt P value before r after p (hd :: outer))
    (hnamed : (namedAmount P hd.holder).isSome) :
    ∃ s, Push.row? P (hd, outer) = some s ∧ above Row.depth before r.depth = some s ∧
      s.kind = .sectionHeader ∧ s.depth + 1 = r.depth := by
  obtain ⟨front, back, hsplit, rfl, -⟩ := h.place
  obtain ⟨s, hs⟩ := Option.isSome_iff_exists.mp ((row?_isSome (hd, outer)).trans hnamed)
  have hdepth : r.depth = outer.length + 1 := (of_row?_eq_some h.pushed).1
  obtain ⟨hsdepth, hskind⟩ := of_row?_eq_some hs
  have habove := (enclosed_pushes value []).above hsplit (Nat.zero_le _)
  refine ⟨s, hs, ?_, hskind.trans (h.header [] rfl).1, by rw [hsdepth, hdepth]⟩
  rw [hdepth]
  exact above_filterMap (fun a b hab => (of_row?_eq_some hab).1) habove hs

/-- Where every header has a name, the depths nest. The header that is directly
around a row is then the row to be found before it. -/
theorem depthsNest_of_named {value : Json}
    (hnamed : ∀ p ∈ (pushes value []).flatten, p.1.kind = .sectionHeader →
      (namedAmount P p.1.holder).isSome) : DepthsNest (parseRows P value 0) := by
  intro before r after h hpos
  obtain ⟨p, path, hpushed⟩ := exists_pushedAt h
  rcases path with _ | ⟨hd, outer⟩
  · rw [(of_row?_eq_some hpushed.pushed).1] at hpos
    exact absurd hpos (Nat.lt_irrefl 0)
  · obtain ⟨hkind, hmem, -⟩ := hpushed.header [] rfl
    obtain ⟨s, -, hs⟩ := hpushed.above_header (hnamed _ hmem hkind)
    exact ⟨s, hs⟩

/-! ## The total of a section -/

variable (P) in
/-- The row `r` between `before` and `after` is the total of the section `s`. -/
structure Closes (s : Section (Push × List Push)) (before : List (Row P.F64)) (r : Row P.F64)
    (after : List (Row P.F64)) : Prop where
  before_eq : before = s.before.filterMap (Push.row? P) ++
    s.header.toList.filterMap (Push.row? P) ++ s.under.filterMap (Push.row? P)
  total : s.total.bind (Push.row? P) = some r
  after_eq : after = s.after.filterMap (Push.row? P)

/-- Every total is that of a section. -/
theorem exists_closes {value : Json} {before after : List (Row P.F64)} {r : Row P.F64}
    (h : parseRows P value 0 = before ++ r :: after) (hkind : r.kind = .sectionTotal) :
    ∃ s ∈ (pushes value []).sections [] [], Closes P s before r after := by
  obtain ⟨p, path, ⟨front, back, hsplit, rfl, rfl⟩, hr⟩ := exists_pushedAt h
  have hp : p.kind = .sectionTotal := (of_row?_eq_some hr).2.symm.trans hkind
  obtain ⟨s, hs, htotal, hbefore, hafter⟩ := (shaped_pushes value []).exists_section hsplit
    (by simp [hp]) (by simp [hp]) [] []
  refine ⟨s, hs, ?_, by rw [htotal]; exact hr, by rw [hafter, List.append_nil]⟩
  rw [← List.filterMap_append, ← List.filterMap_append, hbefore, List.nil_append]

/-- **A total stands at the depth of its header**, behind the rows of its section. -/
theorem Closes.nested {value : Json} {s : Section (Push × List Push)}
    (hs : s ∈ (pushes value []).sections [] []) {before after : List (Row P.F64)}
    {r : Row P.F64} (h : Closes P s before r after) :
    parseRows P value 0 = before ++ r :: after ∧
      (∀ hd, s.header = some hd → r.depth = hd.2.length) ∧
      ∀ u ∈ s.under.filterMap (Push.row? P), r.depth ≤ u.depth := by
  obtain ⟨t, ht, hr⟩ := Option.bind_eq_some_iff.mp h.total
  obtain ⟨path, hnested⟩ := (enclosed_pushes value []).nested hs
  have hdepth : r.depth = path.length := by
    rw [(of_row?_eq_some hr).1, hnested.total t ht]
  refine ⟨?_, fun hd hhd => ?_, fun u hu => ?_⟩
  · have hall := all_of_mem_sections hs
    rw [List.nil_append, List.append_nil] at hall
    rw [← List.length_nil (α := Push), parseRows_eq_pushes P value [], ← hall, Section.all, ht,
      h.before_eq, h.after_eq]
    simp [hr]
  · rw [hdepth, hnested.header hd hhd]
  · obtain ⟨x, hx, hxu⟩ := List.mem_filterMap.mp hu
    rw [hdepth, (of_row?_eq_some hxu).1]
    exact (hnested.under x hx).length_le

/-- **Depths describe the nesting**, as far as headers have names. -/
theorem depths_describe_nesting (P : Platform) (value : Json) :
    (∀ before r after, parseRows P value 0 = before ++ r :: after →
      ∃ p path, PushedAt P value before r after p path ∧ r.depth = path.length ∧
        ((∃ hd ∈ path, (namedAmount P hd.holder).isSome) → ∃ s ∈ before, s.depth < r.depth) ∧
        ∀ hd outer, path = hd :: outer → (namedAmount P hd.holder).isSome →
          ∃ s, Push.row? P (hd, outer) = some s ∧ above Row.depth before r.depth = some s ∧
            s.kind = .sectionHeader ∧ s.depth + 1 = r.depth) ∧
    (∀ before r after, parseRows P value 0 = before ++ r :: after → r.kind = .sectionTotal →
      ∃ s ∈ (pushes value []).sections [] [], Closes P s before r after) ∧
    ∀ s ∈ (pushes value []).sections [] [], ∀ before r after, Closes P s before r after →
      parseRows P value 0 = before ++ r :: after ∧
        (∀ hd, s.header = some hd → r.depth = hd.2.length) ∧
        ∀ u ∈ s.under.filterMap (Push.row? P), r.depth ≤ u.depth := by
  refine ⟨fun before r after h => ?_, fun _ _ _ => exists_closes,
    fun s hs _ _ _ => Closes.nested hs⟩
  obtain ⟨p, path, hpushed⟩ := exists_pushedAt h
  refine ⟨p, path, hpushed, (of_row?_eq_some hpushed.pushed).1, ?_, ?_⟩
  · rintro ⟨hd, hhd, hnamed⟩
    exact hpushed.exists_less_deep hhd hnamed
  · rintro hd outer rfl hnamed
    exact hpushed.above_header hnamed

/-! ## A header without a name -/

/-- A section whose header has no cells, with one row. -/
def unnamedHeader : Json :=
  .arr [.obj [("Header", .obj []), ("Rows", .obj [("Row", .arr [reportCells "East" (some 50)])])]]

/-- The row of a section whose header has no name is deep, and nothing stands before it. -/
theorem unnamed_header_hides_section :
    ¬ DepthsNest (parseRows wholePlatform unnamedHeader 0) := by
  have heast : trim "East" = "East" := by decide +kernel
  have hrows : parseRows wholePlatform unnamedHeader 0 =
      [⟨"East", some (50 : Int), 1, .data, none⟩] := by
    simp [unnamedHeader, reportCells, parseRows_eq, parseRow, list, pushMember, pushRow,
      namedAmount, text, number, wholePlatform, Json.index, Json.get?, Json.members,
      Json.isObject, Json.asStr, heast]
  intro h
  obtain ⟨s, habove, -⟩ := h [] _ [] hrows Nat.one_pos
  cases habove

end JobRunner.Jobctl
