import Mathlib.Data.List.Nodup
import JobRunner.Lib.Json

/-!
# Reading a record from a document

How `serde` reads a struct all of whose fields have a default: from an object, member by
member, where unknown members are passed over and a field may not come twice; or from an
array, field by field, where fields may be missing at the end.

- `Field`: a field, and the values it takes.
- `visitMap`, `visitSeq`, `fromValue`: the fields that are found.
- `fromValue_obj_iff`: an object is read **exactly when** its known members are distinct
  and of their types.
- `visitSeq_eq_some_iff`: what is read of an array.
-/

namespace Record

/-- A field of the struct. -/
structure Field where
  name : String
  accepts : Json → Bool

variable (fields : List Field)

/-- The field of this name. -/
def field? (name : String) : Option Field := fields.find? (·.name = name)

/-- `visit_map`, with the fields found so far. -/
def visitMap : List (String × Json) → List (String × Json) → Option (List (String × Json))
  | [], found => some found
  | (key, value) :: rest, found =>
    match field? fields key with
    | none => visitMap rest found
    | some field =>
      if found.any (·.1 = key) then none
      else if field.accepts value then visitMap rest (found ++ [(key, value)])
      else none

/-- `visit_seq`; elements behind the last field are an error. -/
def visitSeq : List Field → List Json → Option (List (String × Json))
  | _, [] => some []
  | [], _ :: _ => none
  | field :: fields, value :: rest =>
    if field.accepts value then (visitSeq fields rest).map ((field.name, value) :: ·) else none

/-- The fields that a document has. -/
def fromValue : Json → Option (List (String × Json))
  | .obj members => visitMap fields members []
  | .arr items => visitSeq fields items
  | _ => none

/-- The members that are fields. -/
def known (members : List (String × Json)) : List (String × Json) :=
  members.filter fun m => (field? fields m.1).isSome

variable {fields} {members found all : List (String × Json)}

/-- The value of a member is one its field takes. -/
def Accepted (fields : List Field) (m : String × Json) : Prop :=
  ∀ field, field? fields m.1 = some field → field.accepts m.2 = true

/-- What the loop finds: the known members in their order, if none comes twice and
each has its type. Unknown members are passed over. -/
theorem visitMap_eq_some_iff (hfound : (found.map Prod.fst).Nodup) :
    visitMap fields members found = some all ↔
      all = found ++ known fields members ∧ (all.map Prod.fst).Nodup ∧
        ∀ m ∈ known fields members, Accepted fields m := by
  induction members generalizing found with
  | nil =>
    rw [visitMap, Option.some.injEq, known, List.filter_nil, List.append_nil]
    constructor
    · rintro rfl
      exact ⟨rfl, hfound, fun m hm => absurd hm List.not_mem_nil⟩
    · rintro ⟨rfl, -, -⟩
      rfl
  | cons m rest ih =>
    obtain ⟨key, value⟩ := m
    unfold visitMap
    cases hfield : field? fields key with
    | none =>
      have hknown : known fields ((key, value) :: rest) = known fields rest :=
        List.filter_cons_of_neg (by simp [hfield])
      rw [hknown]
      exact ih hfound
    | some field =>
      have hknown : known fields ((key, value) :: rest) = (key, value) :: known fields rest :=
        List.filter_cons_of_pos (by simp [hfield])
      rw [hknown]
      dsimp only
      by_cases hkey : found.any (·.1 = key) = true
      · -- the field came before
        rw [if_pos hkey]
        obtain ⟨m, hm, hmkey⟩ := List.any_eq_true.mp hkey
        refine iff_of_false (by simp) ?_
        rintro ⟨rfl, hnodup, -⟩
        rw [List.map_append, List.map_cons] at hnodup
        refine (List.nodup_append.mp hnodup).2.2 m.1 (List.mem_map_of_mem hm) key
          List.mem_cons_self (of_decide_eq_true hmkey)
      rw [if_neg hkey]
      have hnodup : ((found ++ [(key, value)]).map Prod.fst).Nodup := by
        rw [List.map_append, List.nodup_append]
        refine ⟨hfound, List.nodup_singleton _, fun name hname name' hname' heq => hkey ?_⟩
        obtain ⟨m, hm, rfl⟩ := List.mem_map.mp hname
        refine List.any_eq_true.mpr ⟨m, hm, decide_eq_true ?_⟩
        rw [heq]
        exact List.mem_singleton.mp hname'
      by_cases haccepts : field.accepts value = true
      · rw [if_pos haccepts, ih hnodup, List.append_assoc, List.singleton_append,
          List.forall_mem_cons]
        have hhead : Accepted fields (key, value) := by
          intro field' hfield'
          cases hfield.symm.trans hfield'
          exact haccepts
        tauto
      · rw [if_neg haccepts]
        refine iff_of_false (by simp) ?_
        rintro ⟨-, -, hall⟩
        exact haccepts (hall _ List.mem_cons_self field hfield)

/-- An object is read if its known members are distinct and of their types. -/
theorem fromValue_obj_iff : fromValue fields (.obj members) = some found ↔
    found = known fields members ∧ ((known fields members).map Prod.fst).Nodup ∧
      ∀ m ∈ known fields members, Accepted fields m := by
  have hnil : (([] : List (String × Json)).map Prod.fst).Nodup := List.nodup_nil
  rw [fromValue, visitMap_eq_some_iff hnil, List.nil_append]
  constructor
  · rintro ⟨rfl, hdistinct, htyped⟩
    exact ⟨rfl, hdistinct, htyped⟩
  · rintro ⟨rfl, hdistinct, htyped⟩
    exact ⟨rfl, hdistinct, htyped⟩

/-- An array is read field by field. -/
theorem visitSeq_eq_some_iff {items : List Json} : visitSeq fields items = some found ↔
    items.length ≤ fields.length ∧ found = (fields.map Field.name).zip items ∧
      ∀ fv ∈ fields.zip items, fv.1.accepts fv.2 = true := by
  induction items generalizing fields found with
  | nil =>
    have hnil : visitSeq fields [] = some [] := by
      cases fields <;> rfl
    rw [hnil, Option.some.injEq, List.zip_nil_right, List.zip_nil_right]
    constructor
    · rintro rfl
      exact ⟨Nat.zero_le _, rfl, fun fv hfv => absurd hfv List.not_mem_nil⟩
    · rintro ⟨-, rfl, -⟩
      rfl
  | cons value rest ih =>
    cases fields with
    | nil => simp [visitSeq]
    | cons field fields =>
      rw [visitSeq]
      by_cases haccepts : field.accepts value = true
      · rw [if_pos haccepts, Option.map_eq_some_iff]
        simp only [ih, List.length_cons, Nat.add_le_add_iff_right, List.map_cons,
          List.zip_cons_cons, List.forall_mem_cons, haccepts, true_and]
        constructor
        · rintro ⟨tail, ⟨hlength, rfl, htyped⟩, rfl⟩
          exact ⟨hlength, rfl, htyped⟩
        · rintro ⟨hlength, rfl, htyped⟩
          exact ⟨_, ⟨hlength, rfl, htyped⟩, rfl⟩
      · rw [if_neg haccepts]
        refine iff_of_false (by simp) ?_
        rintro ⟨-, -, htyped⟩
        exact haccepts (htyped (field, value) List.mem_cons_self)

/-- A field is found as a reader finds it in the object. -/
theorem get?_known (h : (field? fields key).isSome = true) (members : List (String × Json)) :
    (Json.obj (known fields members)).get? key = (Json.obj members).get? key := by
  show ((known fields members).find? _).map _ = (members.find? _).map _
  unfold known
  rw [List.find?_filter]
  congr 2
  funext m
  by_cases hkey : m.1 = key
  · subst hkey
    simp [h]
  · simp [hkey]

end Record
