import Mathlib.Data.Int.Basic

/-!
# Signed 64-bit arithmetic that panics or wraps

A program compiled with overflow checks stops at an addition or subtraction
whose result does not fit; compiled without them it continues with the result
modulo `2 ^ 64`.

- `add`, `sub`: the two operations, `none` being a panic.
- `saturate`: `i64::try_from(n).unwrap_or(i64::MAX)` for an unsigned `n`.
- `sub_inRange`, `add_inRange`: a result that fits is exact in both builds.
- `sub_panics_eq_some_iff`, `add_panics_eq_some_iff`: with checks, a result is exact.
-/

namespace Machine

/-- What an overflow does: debug builds panic, release builds wrap. -/
inductive Overflow where
  | panics
  | wraps
deriving DecidableEq, Repr

/-- `n` is the value of a signed 64-bit integer. -/
def InRange (n : Int) : Prop :=
  -9223372036854775808 ≤ n ∧ n < 9223372036854775808

instance (n : Int) : Decidable (InRange n) :=
  inferInstanceAs (Decidable (_ ∧ _))

theorem inRange_toInt (a : Int64) : InRange a.toInt :=
  ⟨a.le_toInt, a.toInt_lt⟩

/-- The result `wrapped` of an operation whose exact value is `exact`. -/
def result (o : Overflow) (exact : Int) (wrapped : Int64) : Option Int64 :=
  match o with
  | .panics => if InRange exact then some wrapped else none
  | .wraps => some wrapped

def add (o : Overflow) (a b : Int64) : Option Int64 :=
  result o (a.toInt + b.toInt) (a + b)

def sub (o : Overflow) (a b : Int64) : Option Int64 :=
  result o (a.toInt - b.toInt) (a - b)

def saturate (n : UInt64) : Int64 :=
  if n.toNat < 9223372036854775808 then Int64.ofInt n.toNat else Int64.maxValue

/-- A number that is too large for an `i64` becomes the largest one, and every other
is kept. -/
theorem saturate_toInt (n : UInt64) :
    (saturate n).toInt = min (n.toNat : Int) 9223372036854775807 := by
  unfold saturate
  split
  · next h =>
    rw [Int64.toInt_ofInt_of_le (by omega) (by omega)]
    omega
  · next h =>
    show (9223372036854775807 : Int) = _
    omega

theorem result_inRange {o : Overflow} {exact : Int} (h : InRange exact) (wrapped : Int64) :
    result o exact wrapped = some wrapped := by
  cases o with
  | panics => exact if_pos h
  | wraps => rfl

/-- With checks, the result is the exact value, and there is none if that does not
fit. Where it fits, wrapping changes nothing, which is the hypothesis. -/
theorem result_panics_eq_some_iff {exact : Int} {wrapped r : Int64}
    (hwrapped : InRange exact → wrapped.toInt = exact) :
    result .panics exact wrapped = some r ↔ r.toInt = exact := by
  by_cases hrange : InRange exact
  · rw [result_inRange hrange, Option.some_inj, ← Int64.toInt_inj, hwrapped hrange, eq_comm]
  · rw [result, if_neg hrange]
    refine iff_of_false nofun fun hexact => hrange ?_
    rw [← hexact]
    exact inRange_toInt r

theorem toInt_sub_inRange {a b : Int64} (h : InRange (a.toInt - b.toInt)) :
    (a - b).toInt = a.toInt - b.toInt := by
  obtain ⟨hlow, hhigh⟩ := h
  rw [Int64.toInt_sub]
  exact Int.bmod_eq_of_le (by omega) (by omega)

theorem toInt_add_inRange {a b : Int64} (h : InRange (a.toInt + b.toInt)) :
    (a + b).toInt = a.toInt + b.toInt := by
  obtain ⟨hlow, hhigh⟩ := h
  rw [Int64.toInt_add]
  exact Int.bmod_eq_of_le (by omega) (by omega)

/-- A difference that fits is exact. -/
theorem sub_inRange (o : Overflow) {a b : Int64} (h : InRange (a.toInt - b.toInt)) :
    ∃ r, sub o a b = some r ∧ r.toInt = a.toInt - b.toInt :=
  ⟨a - b, result_inRange h _, toInt_sub_inRange h⟩

/-- A sum that fits is exact. -/
theorem add_inRange (o : Overflow) {a b : Int64} (h : InRange (a.toInt + b.toInt)) :
    ∃ r, add o a b = some r ∧ r.toInt = a.toInt + b.toInt :=
  ⟨a + b, result_inRange h _, toInt_add_inRange h⟩

theorem sub_panics_eq_some_iff {a b r : Int64} :
    sub .panics a b = some r ↔ r.toInt = a.toInt - b.toInt :=
  result_panics_eq_some_iff toInt_sub_inRange

theorem add_panics_eq_some_iff {a b r : Int64} :
    add .panics a b = some r ↔ r.toInt = a.toInt + b.toInt :=
  result_panics_eq_some_iff toInt_add_inRange

end Machine
