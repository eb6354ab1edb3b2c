import JobRunner.Jobctl.Report
import Mathlib.Data.List.Perm.Basic

/-!
# Exact amounts (`jobctl::qbo`)

Sums of amounts are folds of floating-point additions. Statements about sums are made where
these are exact: then neither the order of the amounts nor the zeros among them count.

- `Platform.Exact`: what exact addition is.
- `total_append`, `total_perm`, `total_nonzero`: sums of exact amounts.
- `amountTotal`: the sum over the rows of a kind.
-/

namespace JobRunner.Jobctl

/-- Addition that does not round. -/
structure Platform.Exact (P : Platform) : Prop where
  assoc (x y z : P.F64) : P.add (P.add x y) z = P.add x (P.add y z)
  comm (x y : P.F64) : P.add x y = P.add y x
  zero_add (x : P.F64) : P.add P.zero x = x
  cancel {x y z : P.F64} : P.add x y = P.add x z → y = z
  isZero_iff {x : P.F64} : P.isZero x = true ↔ x = P.zero

namespace Platform.Exact

variable {P : Platform}

theorem add_zero (h : P.Exact) (x : P.F64) : P.add x P.zero = x := by
  rw [h.comm, h.zero_add]

/-- A sum that is one of its parts adds nothing to it. -/
theorem add_eq_left (h : P.Exact) {x y : P.F64} : P.add x y = x ↔ y = P.zero := by
  constructor
  · intro hxy
    exact h.cancel (hxy.trans (h.add_zero x).symm)
  · rintro rfl
    exact h.add_zero x

theorem left_comm (h : P.Exact) (x y z : P.F64) : P.add x (P.add y z) = P.add y (P.add x z) := by
  rw [← h.assoc, h.comm x y, h.assoc]

end Platform.Exact

variable {P : Platform}

@[simp] theorem total_nil : total P [] = P.zero := rfl

/-- The fold may start with any amount. With exact sums the order of the additions
can be changed at will, which all of this section rests on. -/
theorem foldl_add (h : P.Exact) (start : P.F64) (amounts : List P.F64) :
    amounts.foldl P.add start = P.add start (total P amounts) := by
  induction amounts generalizing start with
  | nil => exact (h.add_zero start).symm
  | cons x amounts ih =>
    show (x :: amounts).foldl P.add start = P.add start ((x :: amounts).foldl P.add P.zero)
    rw [List.foldl_cons, List.foldl_cons, ih, ih (P.add P.zero x), h.zero_add, h.assoc]

theorem total_cons (h : P.Exact) (x : P.F64) (amounts : List P.F64) :
    total P (x :: amounts) = P.add x (total P amounts) := by
  rw [← foldl_add h, total, List.foldl_cons, h.zero_add]

theorem total_append (h : P.Exact) (xs ys : List P.F64) :
    total P (xs ++ ys) = P.add (total P xs) (total P ys) := by
  rw [← foldl_add h, total, List.foldl_append]
  rfl

/-- The total does not depend on the order of the amounts. -/
theorem total_perm (h : P.Exact) {xs ys : List P.F64} (hperm : xs.Perm ys) :
    total P xs = total P ys := by
  have : RightCommutative P.add := ⟨fun x y z => by rw [h.assoc, h.comm y, h.assoc]⟩
  exact hperm.foldl_eq P.zero

/-- Zeros do not count, so leaving out zero rows changes no total. -/
theorem total_nonzero (h : P.Exact) (amounts : List P.F64) :
    total P (amounts.filter fun x => !P.isZero x) = total P amounts := by
  induction amounts with
  | nil => rfl
  | cons x amounts ih =>
    rw [List.filter_cons, total_cons h x amounts]
    cases hx : P.isZero x with
    | true => rw [Bool.not_true, if_neg Bool.false_ne_true, ih, h.isZero_iff.mp hx, h.zero_add]
    | false => rw [Bool.not_false, if_pos rfl, total_cons h, ih]

/-! ## Sums over rows -/

/-- The sum of the amounts of the rows of a kind. -/
def amountTotal (P : Platform) (kind : RowKind) (rows : List (Row P.F64)) : P.F64 :=
  total P ((rows.filter fun r => r.kind = kind).filterMap Row.amount)

/-- The amount of a row, without one nothing. -/
def Row.value (P : Platform) (r : Row P.F64) : P.F64 := r.amount.getD P.zero

/-- What a row adds to the sum over a kind. -/
def Row.share (P : Platform) (kind : RowKind) (r : Row P.F64) : P.F64 :=
  if r.kind = kind then r.value P else P.zero

/-- A row counts with its share: its amount if it is of the kind, and nothing
otherwise. -/
theorem amountTotal_cons (h : P.Exact) (kind : RowKind) (r : Row P.F64)
    (rows : List (Row P.F64)) :
    amountTotal P kind (r :: rows) = P.add (r.share P kind) (amountTotal P kind rows) := by
  unfold amountTotal Row.share Row.value
  rw [List.filter_cons]
  by_cases hkind : r.kind = kind
  · rw [if_pos hkind, if_pos (decide_eq_true hkind), List.filterMap_cons]
    cases r.amount with
    | none => exact (h.zero_add _).symm
    | some x => exact total_cons h _ _
  · rw [if_neg hkind, if_neg (by simpa using hkind), h.zero_add]

theorem amountTotal_append (h : P.Exact) (kind : RowKind) (rows rows' : List (Row P.F64)) :
    amountTotal P kind (rows ++ rows') =
      P.add (amountTotal P kind rows) (amountTotal P kind rows') := by
  unfold amountTotal
  rw [List.filter_append, List.filterMap_append, total_append h]

/-- A row that may be missing. -/
theorem amountTotal_toList (h : P.Exact) (kind : RowKind) (r : Option (Row P.F64)) :
    amountTotal P kind r.toList = r.elim P.zero (Row.share P kind) := by
  cases r with
  | none => rfl
  | some r => exact (amountTotal_cons h kind r []).trans (h.add_zero _)

/-- Whole amounts are exact. -/
theorem wholePlatform_exact : wholePlatform.Exact where
  assoc := Int.add_assoc
  comm := Int.add_comm
  zero_add := Int.zero_add
  cancel := Int.add_left_cancel
  isZero_iff {x} := decide_eq_true_iff (p := (show Int from x) = 0)

end JobRunner.Jobctl
