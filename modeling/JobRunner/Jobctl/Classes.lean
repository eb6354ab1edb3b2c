import JobRunner.Lib.Closure
import JobRunner.Jobctl.Report

/-!
# Sales reps and their classes (`jobctl::qbo`)

The app names QuickBooks classes after sales reps, and QuickBooks nests classes. A name is
a rep's if it is the full name, the first name, or one of these and more after a `/`.

- `matchesRep`: the rule.
- `resolveParents`, `classIdsForRep`: the class tree, and the classes of a rep with all
  their descendants.
- `mem_classIdsForRep_iff`: they are the least such set.
- `matchesRep_or`: a rep matches a name of somebody else only if the first name of the rep
  and the other's name begin alike.
-/

open Text

namespace JobRunner.Jobctl

variable (P : Platform)

/-! ## Names -/

/-- `trim().to_lowercase()`. -/
def nameKey (name : String) : String := P.toLowercase (trim name)

/-- `split_whitespace().next().unwrap_or_default()`. -/
def firstWord (text : String) : String :=
  String.ofList ((text.toList.dropWhile isWhitespace).takeWhile fun c => !isWhitespace c)

/-- The first name of a rep. -/
def firstName (repName : String) : String := firstWord (nameKey P repName)

/-- `matches_rep`. -/
def matchesRep (rowName repName : String) : Bool :=
  let row := nameKey P rowName
  let rep := nameKey P repName
  if row = "" ∨ rep = "" then false
  else startsWithSegment rep row ||
    (3 ≤ (firstName P repName).toList.length && startsWithSegment (firstName P repName) row)

/-- A row or class is named after somebody: the full name, alone or before a `/`. -/
def NamedAfter (rowName person : String) : Prop :=
  startsWithSegment (nameKey P person) (nameKey P rowName) = true

/-- The first name of `rep` has three letters, and it and the name of `person` begin alike,
up to a `/`. -/
def Overlaps (rep person : String) : Prop :=
  3 ≤ (firstName P rep).toList.length ∧
    (startsWithSegment (nameKey P person) (firstName P rep) = true ∨
      startsWithSegment (firstName P rep) (nameKey P person) = true)

instance (rowName person : String) : Decidable (NamedAfter P rowName person) :=
  inferInstanceAs (Decidable (_ = true))

instance (rep person : String) : Decidable (Overlaps P rep person) :=
  inferInstanceAs (Decidable (_ ∧ _))

variable {P}

theorem matchesRep_congr {rowName rep rep' : String} (h : nameKey P rep = nameKey P rep') :
    matchesRep P rowName rep = matchesRep P rowName rep' := by
  unfold matchesRep firstName
  rw [h]

/-- A row of somebody else matches only where the names overlap. This is all that a
user can see of another's sales by asking for their own. -/
theorem matchesRep_or {rowName rep person : String} (h : matchesRep P rowName rep = true)
    (hperson : NamedAfter P rowName person) : NamedAfter P rowName rep ∨ Overlaps P rep person := by
  unfold matchesRep at h
  simp only at h
  split at h
  · cases h
  · rcases Bool.or_eq_true_iff.mp h with hrep | hfirst
    · exact .inl hrep
    · rw [Bool.and_eq_true, decide_eq_true_eq] at hfirst
      exact .inr ⟨hfirst.1, startsWithSegment_or hperson hfirst.2⟩

theorem matchesRep_blank {rowName rep : String} (h : nameKey P rep = "") :
    matchesRep P rowName rep = false := by
  unfold matchesRep
  simp [h]

variable (P)

/-! ## The class tree -/

/-- `QboClass`. -/
structure QboClass where
  id : String
  name : String
  fullyQualifiedName : String
  parentId : Option String
deriving DecidableEq, Repr

/-- `QboClass::parse`. -/
def QboClass.parse (value : Json) : Option QboClass :=
  (text P (value.index "Id")).bind fun id =>
    (text P (value.index "Name")).map fun name =>
      { id := id
        name := name
        fullyQualifiedName := (text P (value.index "FullyQualifiedName")).getD name
        parentId := text P ((value.index "ParentRef").index "value") }

/-- The text before the last `:`, if there is one and it is not empty. -/
def beforeLastColon (name : String) : Option String :=
  let before := (name.toList.rdropWhile (· ≠ ':')).dropLast
  if before = [] then none else some (String.ofList before)

/-- `rsplit(':').next()`. -/
def afterLastColon (name : String) : String := String.ofList (name.toList.rtakeWhile (· ≠ ':'))

/-- `by_name.get`: of classes with one name, the last counts. -/
def classByName (classes : List QboClass) (key : String) : Option String :=
  (classes.reverse.find? fun c => nameKey P c.fullyQualifiedName = key).map QboClass.id

/-- `resolve_parents`, for one class. -/
def resolveParent (classes : List QboClass) (cls : QboClass) : QboClass :=
  match cls.parentId, beforeLastColon cls.fullyQualifiedName with
  | none, some parent =>
    match (classByName P classes (nameKey P parent)).filter (· ≠ cls.id) with
    | some parentId => { cls with parentId := some parentId }
    | none => cls
  | _, _ => cls

/-- `resolve_parents`. -/
def resolveParents (classes : List QboClass) : List QboClass :=
  classes.map (resolveParent P classes)

/-- The name, the qualified name or its last segment matches the rep. -/
def QboClass.matchesRep (cls : QboClass) (repName : String) : Bool :=
  Jobctl.matchesRep P cls.name repName || Jobctl.matchesRep P cls.fullyQualifiedName repName ||
    Jobctl.matchesRep P (afterLastColon cls.fullyQualifiedName) repName

/-- `class_ids_for_rep`. -/
def classIdsForRep (classes : List QboClass) (repName : String) : List String :=
  if trim repName = "" then []
  else
    Closure.grow classes QboClass.id QboClass.parentId
      ((classes.filter fun cls => cls.matchesRep P repName).map QboClass.id)

/-- The ids of the classes that match, and of all their descendants. -/
inductive Listed (classes : List QboClass) (repName : String) : String → Prop
  | matched {cls : QboClass} : cls ∈ classes → cls.matchesRep P repName = true →
    Listed classes repName cls.id
  | child {cls : QboClass} {parent : String} : cls ∈ classes → cls.parentId = some parent →
    Listed classes repName parent → Listed classes repName cls.id

variable {P} {classes : List QboClass} {repName : String}

/-- The classes of a person are what can be reached from the classes named after it,
in the graph of the parents. The library's closure is used through this. -/
theorem listed_iff_reach {id : String} :
    Listed P classes repName id ↔
      Closure.Reach classes QboClass.id QboClass.parentId
        ((classes.filter fun cls => cls.matchesRep P repName).map QboClass.id) id := by
  constructor
  · intro h
    induction h with
    | matched hcls hmatch =>
      exact .start (List.mem_map_of_mem (List.mem_filter.mpr ⟨hcls, hmatch⟩))
    | child hcls hparent _ ih => exact .child hcls hparent ih
  · intro h
    induction h with
    | start hid =>
      obtain ⟨cls, hcls, rfl⟩ := List.mem_map.mp hid
      exact .matched (List.mem_filter.mp hcls).1 (List.mem_filter.mp hcls).2
    | child hcls hparent _ ih => exact .child hcls hparent ih

/-- **The ids are the least set.** -/
theorem mem_classIdsForRep_iff (hrep : trim repName ≠ "") (id : String) :
    id ∈ classIdsForRep P classes repName ↔ Listed P classes repName id := by
  rw [listed_iff_reach, classIdsForRep, if_neg hrep]
  exact Closure.mem_grow_iff _ _

theorem listed_of_mem {id : String} (h : id ∈ classIdsForRep P classes repName) :
    Listed P classes repName id := by
  by_cases hrep : trim repName = ""
  · rw [classIdsForRep, if_pos hrep] at h
    cases h
  · exact (mem_classIdsForRep_iff hrep id).mp h

end JobRunner.Jobctl
