import Mathlib.Data.List.Basic

/-!
# JSON values

Values as a JSON column or a parsed document holds them, with the readers of
`serde_json::Value` (`get`, indexing, `as_i64`, `as_str`, `as_bool`) and the writers of
MySQL (`JSON_OBJECT`, `JSON_SET` on a `$.key` path).

`JSON_SET(doc, '$.key', v)` replaces the member `key` of an object or adds it;
on a document that is not an object the path is ignored and the document comes
back unchanged. That asymmetry is `set_object` against `set_nonobject`.
-/

/-- A JSON value. Integers are kept apart from the numbers with a fraction or an
exponent (`mantissa · 10 ^ exponent`), as both codecs do. -/
inductive Json where
  | null
  | bool (b : Bool)
  | int (n : Int)
  | dec (mantissa exponent : Int)
  | str (s : String)
  | arr (items : List Json)
  | obj (members : List (String × Json))

namespace Json

/-- Whether the value is an object. -/
def isObject : Json → Bool
  | obj _ => true
  | _ => false

/-- The members of an object; none for any other value. -/
def members : Json → List (String × Json)
  | obj ms => ms
  | _ => []

/-- `Value::get(key)`: the member of an object; `None` for any other value. -/
def get? (j : Json) (key : String) : Option Json :=
  (j.members.find? fun m => m.1 = key).map Prod.snd

/-- `Value::as_i64`: an integer in the range of `i64`. -/
def asI64 : Json → Option Int
  | int n => if -9223372036854775808 ≤ n ∧ n ≤ 9223372036854775807 then some n else none
  | _ => none

/-- `Value::as_str`. -/
def asStr : Json → Option String
  | str s => some s
  | _ => none

/-- `Value::as_bool`. -/
def asBool : Json → Option Bool
  | bool b => some b
  | _ => none

/-- `value[key]`: the member of an object, and `null` where there is none. -/
def index (j : Json) (key : String) : Json := (j.get? key).getD null

/-- `json!` of an optional text. -/
def ofOption : Option String → Json
  | some s => str s
  | none => null

/-- Replace the member `key` of an object, or add it. -/
def setMember (key : String) (v : Json) : List (String × Json) → List (String × Json)
  | [] => [(key, v)]
  | m :: ms => if m.1 = key then (key, v) :: ms else m :: setMember key v ms

/-- `JSON_SET(doc, '$.key', v)`. -/
def set (doc : Json) (key : String) (v : Json) : Json :=
  match doc with
  | obj ms => obj (setMember key v ms)
  | _ => doc

/-- The value without the members `key`. -/
def erase (j : Json) (key : String) : Json :=
  match j with
  | obj ms => obj (ms.filter fun m => m.1 ≠ key)
  | _ => j

/-- A member is smaller than its object. Recursions through nested values descend by
it. -/
theorem sizeOf_get?_lt {j v : Json} {key : String} (h : j.get? key = some v) :
    sizeOf v < sizeOf j := by
  obtain ⟨m, hm, rfl⟩ := Option.map_eq_some_iff.mp h
  cases j with
  | obj ms =>
    have hmem : sizeOf m < sizeOf ms := List.sizeOf_lt_of_mem (List.mem_of_find?_eq_some hm)
    have hpair : sizeOf m = 1 + sizeOf m.1 + sizeOf m.2 := rfl
    rw [obj.sizeOf_spec]
    omega
  | _ => cases hm

theorem sizeOf_index_le (j : Json) (key : String) : sizeOf (j.index key) ≤ sizeOf j := by
  unfold index
  rcases h : j.get? key with _ | v
  · have hnull : sizeOf null = 1 := rfl
    rw [Option.getD_none, hnull]
    cases j <;> simp
    omega
  · exact Nat.le_of_lt (sizeOf_get?_lt h)

/-! ## What a reader sees of an object after a write -/

theorem get?_nonobject {j : Json} (h : j.isObject = false) (key : String) :
    j.get? key = none := by
  cases j with
  | obj ms => cases h
  | _ => rfl

theorem set_nonobject {j : Json} (h : j.isObject = false) (key : String) (v : Json) :
    j.set key v = j := by
  cases j with
  | obj ms => cases h
  | _ => rfl

@[simp] theorem set_object (key : String) (v : Json) (ms : List (String × Json)) :
    (obj ms).set key v = obj (setMember key v ms) := rfl

/-- Writing a member changes the look-up of its own key and of no other, whether the
key was there before or is added behind the rest. -/
theorem find?_setMember (key : String) (v : Json) (k : String) :
    ∀ ms : List (String × Json),
      (setMember key v ms).find? (fun m => m.1 = k) =
        if key = k then some (key, v) else ms.find? fun m => m.1 = k
  | [] => by
    show List.find? (fun m : String × Json => decide (m.1 = k)) [(key, v)] = _
    by_cases h : key = k <;> simp [h]
  | m :: ms => by
    have ih := find?_setMember key v k ms
    unfold setMember
    by_cases hm : m.1 = key
    · rw [if_pos hm]
      by_cases h : key = k
      · simp [h]
      · simp [h, hm]
    · rw [if_neg hm]
      by_cases hmk : m.1 = k
      · have hne : key ≠ k := fun h => hm (hmk.trans h.symm)
        simp [hmk, hne]
      · rw [List.find?_cons_of_neg (by simpa using hmk), ih,
          List.find?_cons_of_neg (by simpa using hmk)]

/-- The member just written is read back. -/
@[simp] theorem get?_set_self {j : Json} (h : j.isObject = true) (key : String) (v : Json) :
    (j.set key v).get? key = some v := by
  cases j with
  | obj ms =>
    show ((setMember key v ms).find? fun m => m.1 = key).map Prod.snd = some v
    rw [find?_setMember, if_pos rfl]
    rfl
  | _ => cases h

/-- Every other member is read back as it was, whether or not the key is new. -/
theorem get?_set_other (j : Json) {key k : String} (h : key ≠ k) (v : Json) :
    (j.set key v).get? k = j.get? k := by
  cases j with
  | obj ms =>
    show ((setMember key v ms).find? fun m => m.1 = k).map Prod.snd = _
    rw [find?_setMember, if_neg h]
    rfl
  | _ => rfl

/-! ## What a reader sees of an object without a member -/

@[simp] theorem get?_erase_self (j : Json) (key : String) : (j.erase key).get? key = none := by
  cases j with
  | obj ms =>
    show ((ms.filter fun m => m.1 ≠ key).find? fun m => m.1 = key).map Prod.snd = none
    rw [Option.map_eq_none_iff, List.find?_eq_none]
    intro m hm
    simpa using (List.mem_filter.mp hm).2
  | _ => rfl

theorem get?_erase_other (j : Json) {key k : String} (h : key ≠ k) :
    (j.erase key).get? k = j.get? k := by
  cases j with
  | obj ms =>
    show ((ms.filter fun m => m.1 ≠ key).find? fun m => m.1 = k).map Prod.snd = _
    rw [List.find?_filter]
    have hcongr :
        (fun m : String × Json =>
          decide (decide (m.1 ≠ key) = true ∧ decide (m.1 = k) = true)) =
        fun m => decide (m.1 = k) := by
      funext m
      by_cases hm : m.1 = k <;> simp [hm, h.symm]
    rw [hcongr]
    rfl
  | _ => rfl

end Json
