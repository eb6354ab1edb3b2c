import JobRunner.Jobctl.Classes
import Mathlib.Order.Bounds.Basic

/-!
# The classes below a rep's (`jobctl::qbo`)

What `resolve_parents` and `class_ids_for_rep` are for, over the classes as QuickBooks lists
them: a class has a parent, by its `ParentRef` or by its qualified name, and the classes of
a rep are the least set that holds the matching ones and all below them.

- `HasParent`: the parent of a class.
- `RepClosed`: the sets with the matching classes and everything below them.
- `classIds_least`: the ids are those of the least such set, each once where the ids are
  distinct.
-/

open Text

namespace JobRunner.Jobctl

variable {P : Platform} {classes : List QboClass} {repName : String} {cls : QboClass}

/-! ## Parents -/

/-- `p` is the last class whose qualified name is `name`. -/
def LastNamed (P : Platform) (classes : List QboClass) (name : String) (p : QboClass) : Prop :=
  ∃ before after, classes = before ++ p :: after ∧
    nameKey P p.fullyQualifiedName = nameKey P name ∧
    ∀ q ∈ after, nameKey P q.fullyQualifiedName ≠ nameKey P name

/-- The parent of a class: its `ParentRef`, or if that is missing the last class with the
name before the last `:`, if it is another one. -/
inductive HasParent (P : Platform) (classes : List QboClass) (cls : QboClass) : String → Prop
  | explicit {id : String} : cls.parentId = some id → HasParent P classes cls id
  | inferred {name : String} {p : QboClass} : cls.parentId = none →
    beforeLastColon cls.fullyQualifiedName = some name → LastNamed P classes name p →
    p.id ≠ cls.id → HasParent P classes cls p.id

/-- The map from names to ids has the last class of each name, as `collect` into a
map keeps the last. -/
theorem classByName_eq_some_iff {name id : String} :
    classByName P classes (nameKey P name) = some id ↔
      ∃ p, LastNamed P classes name p ∧ p.id = id := by
  unfold classByName LastNamed
  rw [Option.map_eq_some_iff]
  refine exists_congr fun p => and_congr_left fun _ => ?_
  rw [List.find?_eq_some_iff_append]
  constructor
  · rintro ⟨hname, before, after, hrev, hafter⟩
    refine ⟨after.reverse, before.reverse, ?_, by simpa using hname, fun q hq => ?_⟩
    · rw [← List.reverse_reverse classes, hrev]
      simp
    · simpa using hafter q (List.mem_reverse.mp hq)
  · rintro ⟨before, after, rfl, hname, hafter⟩
    refine ⟨by simpa using hname, after.reverse, before.reverse, by simp, fun q hq => ?_⟩
    simpa using hafter q (List.mem_reverse.mp hq)

theorem resolveParent_id : (resolveParent P classes cls).id = cls.id := by
  unfold resolveParent
  split
  · split <;> rfl
  · rfl

/-- The classes keep their names. -/
theorem resolveParent_matchesRep :
    (resolveParent P classes cls).matchesRep P repName = cls.matchesRep P repName := by
  unfold resolveParent
  split
  · split <;> rfl
  · rfl

/-- **`resolve_parents` finds the parents.** A reference is kept, and without one
the name before the last `:` is looked up. -/
theorem resolveParent_parentId {id : String} :
    (resolveParent P classes cls).parentId = some id ↔ HasParent P classes cls id := by
  unfold resolveParent
  split
  next name hmissing hname =>
    -- only a class without a parent id goes by its qualified name
    have hinferred : HasParent P classes cls id ↔
        (classByName P classes (nameKey P name)).filter (· ≠ cls.id) = some id := by
      rw [Option.filter_eq_some_iff, classByName_eq_some_iff, decide_eq_true_eq]
      constructor
      · intro h
        cases h with
        | explicit h =>
          rw [hmissing] at h
          cases h
        | @inferred name' p _ hname' hlast hne =>
          cases hname.symm.trans hname'
          exact ⟨⟨p, hlast, rfl⟩, hne⟩
      · rintro ⟨⟨p, hlast, rfl⟩, hne⟩
        exact .inferred hmissing hname hlast hne
    rw [hinferred]
    split
    next parentId hparent => rw [hparent]
    next hparent => rw [hparent, hmissing]
  next hother =>
    constructor
    · exact .explicit
    · intro h
      cases h with
      | explicit h => exact h
      | inferred hmissing hname _ _ => exact absurd hname (hother _ hmissing)

/-! ## The least set -/

/-- The set has every class that matches, unless the name is blank, and every class whose
parent is the id of a class in the set. -/
structure RepClosed (P : Platform) (classes : List QboClass) (repName : String)
    (S : Set QboClass) : Prop where
  matched : ∀ cls ∈ classes, trim repName ≠ "" → cls.matchesRep P repName = true → cls ∈ S
  child : ∀ cls ∈ classes, ∀ p ∈ S, HasParent P classes cls p.id → cls ∈ S

/-- The classes that match, and those below them. -/
inductive OfRep (P : Platform) (classes : List QboClass) (repName : String) : QboClass → Prop
  | matched {cls : QboClass} : cls ∈ classes → trim repName ≠ "" →
    cls.matchesRep P repName = true → OfRep P classes repName cls
  | child {cls p : QboClass} : cls ∈ classes → HasParent P classes cls p.id →
    OfRep P classes repName p → OfRep P classes repName cls

theorem isLeast_ofRep (P : Platform) (classes : List QboClass) (repName : String) :
    IsLeast {S | RepClosed P classes repName S} {cls | OfRep P classes repName cls} := by
  constructor
  · exact ⟨fun _ hcls hrep hmatch => .matched hcls hrep hmatch,
      fun _ hcls _ hp hparent => .child hcls hparent hp⟩
  · intro S hS cls hcls
    induction hcls with
    | matched hcls hrep hmatch => exact hS.matched _ hcls hrep hmatch
    | child hcls hparent _ ih => exact hS.child _ hcls _ ih hparent

/-- The ids of the resolved classes are those of the set. On both sides this is by
induction: along the way up that `Listed` takes, and down the closure. -/
theorem listed_resolved_iff (hrep : trim repName ≠ "") {id : String} :
    Listed P (resolveParents P classes) repName id ↔
      ∃ cls, OfRep P classes repName cls ∧ cls.id = id := by
  -- rule by rule, by induction on the derivation
  constructor
  · intro h
    induction h with
    | matched hmem hmatch =>
      obtain ⟨cls, hcls, rfl⟩ := List.mem_map.mp hmem
      rw [resolveParent_matchesRep] at hmatch
      exact ⟨cls, .matched hcls hrep hmatch, resolveParent_id.symm⟩
    | child hmem hparent _ ih =>
      obtain ⟨cls, hcls, rfl⟩ := List.mem_map.mp hmem
      obtain ⟨p, hp, rfl⟩ := ih
      exact ⟨cls, .child hcls (resolveParent_parentId.mp hparent) hp, resolveParent_id.symm⟩
  · rintro ⟨cls, h, rfl⟩
    induction h with
    | @matched cls hcls _ hmatch =>
      have hresolved : Listed P (resolveParents P classes) repName _ :=
        .matched (List.mem_map_of_mem (f := resolveParent P classes) hcls)
          (resolveParent_matchesRep.trans hmatch)
      rwa [resolveParent_id] at hresolved
    | @child cls p hcls hparent _ ih =>
      have hresolved := Listed.child (List.mem_map_of_mem (f := resolveParent P classes) hcls)
        (resolveParent_parentId.mpr hparent) ih
      rwa [resolveParent_id] at hresolved

theorem not_ofRep_of_blank (hrep : trim repName = "") : ¬OfRep P classes repName cls := by
  intro h
  induction h with
  | matched _ hname _ => exact hname hrep
  | child _ _ _ ih => exact ih

theorem resolveParents_map_id :
    (resolveParents P classes).map QboClass.id = classes.map QboClass.id := by
  unfold resolveParents
  rw [List.map_map]
  exact List.map_congr_left fun _ _ => resolveParent_id

/-- **The ids of the least set.** -/
theorem classIds_least (P : Platform) (classes : List QboClass) (repName : String) :
    (∃ S, IsLeast {S | RepClosed P classes repName S} S ∧
      ∀ id, id ∈ classIdsForRep P (resolveParents P classes) repName ↔ ∃ cls ∈ S, cls.id = id) ∧
    ((classes.map QboClass.id).Nodup →
      (classIdsForRep P (resolveParents P classes) repName).Nodup) := by
  constructor
  · refine ⟨_, isLeast_ofRep P classes repName, fun id => ?_⟩
    by_cases hrep : trim repName = ""
    · rw [classIdsForRep, if_pos hrep]
      constructor
      · intro hid
        exact absurd hid List.not_mem_nil
      · rintro ⟨cls, h, -⟩
        exact absurd h (not_ofRep_of_blank hrep)
    · rw [mem_classIdsForRep_iff hrep, listed_resolved_iff hrep]
      exact Iff.rfl
  · intro hids
    rw [← resolveParents_map_id (P := P)] at hids
    unfold classIdsForRep
    split
    · exact List.nodup_nil
    · exact Closure.grow_nodup hids _ (hids.sublist (List.filter_sublist.map _))

/-- Two classes of one qualified name, and one below that name. -/
def twoNamesakes : List QboClass :=
  [⟨"1", "Alina", "X", none⟩, ⟨"2", "Bob", "X", none⟩, ⟨"3", "Kitchens", "X:Kitchens", none⟩]

theorem namesakes_ids :
    classIdsForRep wholePlatform (resolveParents wholePlatform twoNamesakes) "Alina" = ["1"] ∧
      classIdsForRep wholePlatform (resolveParents wholePlatform twoNamesakes) "Bob" =
        ["2", "3"] := by
  have hresolved : resolveParents wholePlatform twoNamesakes =
      [⟨"1", "Alina", "X", none⟩, ⟨"2", "Bob", "X", none⟩,
        ⟨"3", "Kitchens", "X:Kitchens", some "2"⟩] := by
    decide +kernel
  rw [hresolved]
  constructor
  · unfold classIdsForRep
    rw [if_neg (by decide +kernel), Closure.grow, if_pos (by decide +kernel)]
    decide +kernel
  · unfold classIdsForRep
    rw [if_neg (by decide +kernel), Closure.grow, if_neg (by decide +kernel), Closure.grow,
      if_pos (by decide +kernel)]
    decide +kernel

/-- A class is not below every other class with the name before its last `:`, and yet below
one of two. -/
theorem second_namesake_is_parent :
    (¬∀ cls ∈ twoNamesakes, ∀ p ∈ twoNamesakes, ∀ name, p ≠ cls → cls.parentId = none →
      beforeLastColon cls.fullyQualifiedName = some name →
      nameKey wholePlatform p.fullyQualifiedName = nameKey wholePlatform name →
      p.id ∈ classIdsForRep wholePlatform (resolveParents wholePlatform twoNamesakes) "Alina" →
      cls.id ∈
        classIdsForRep wholePlatform (resolveParents wholePlatform twoNamesakes) "Alina") ∧
    "3" ∈ classIdsForRep wholePlatform (resolveParents wholePlatform twoNamesakes) "Bob" := by
  rw [namesakes_ids.1, namesakes_ids.2]
  refine ⟨fun hall => ?_, by decide⟩
  have hthree := hall ⟨"3", "Kitchens", "X:Kitchens", none⟩ (by decide)
    ⟨"1", "Alina", "X", none⟩ (by decide) "X" (by decide) rfl (by decide +kernel) rfl (by decide)
  revert hthree
  decide

end JobRunner.Jobctl
