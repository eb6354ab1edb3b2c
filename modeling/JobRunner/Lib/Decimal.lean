import JobRunner.Lib.MachineInt
import JobRunner.Lib.Text

/-!
# Decimal integers

`i64::to_string` is `toString` on `Int`. `parseI64` is `str::parse::<i64>`: a sign
or none, at least one ASCII digit, and a value in the range of `i64`. `parseU64` takes no
minus; `parseUnsigned` is any unsigned type, with the text of the error.

- `parseI64_toString_eq`: parsing undoes printing, for what is an `i64`.
- `trim_toString`: a printed integer has no whitespace around it.
-/

open Text Machine

namespace Decimal

/-- The value of a non-empty text of digits. -/
def digits? (cs : List Char) : Option Nat :=
  if cs ≠ [] ∧ cs.all Char.isDigit then some (Nat.ofDigitChars 10 cs 0) else none

/-- An integer, if it is in the range of `i64`. -/
def checked (n : Int) : Option Int := if InRange n then some n else none

/-- `str::parse::<i64>`. -/
def parseI64 (s : String) : Option Int :=
  match s.toList with
  | '-' :: cs => (digits? cs).bind fun n => checked (-n)
  | '+' :: cs => (digits? cs).bind fun n => checked n
  | cs => (digits? cs).bind fun n => checked n

/-- `str::parse::<u64>`. -/
def parseU64 (s : String) : Option Nat :=
  let value :=
    match s.toList with
    | '+' :: cs => digits? cs
    | cs => digits? cs
  value.filter (· < 18446744073709551616)

/-- The digits of an unsigned integer, after those that make `n`. -/
def readDigits (limit : Nat) : List Char → Nat → Except String Nat
  | [], n => .ok n
  | c :: cs, n =>
    if c.isDigit = false then .error "invalid digit found in string"
    else if 10 * n + (c.toNat - '0'.toNat) < limit then
      readDigits limit cs (10 * n + (c.toNat - '0'.toNat))
    else .error "number too large to fit in target type"

/-- `str::parse` of an unsigned integer below `limit`. -/
def parseUnsigned (limit : Nat) (s : String) : Except String Nat :=
  match s.toList with
  | [] => .error "cannot parse integer from empty string"
  | ['+'] => .error "invalid digit found in string"
  | '+' :: cs => readDigits limit cs 0
  | cs => readDigits limit cs 0

theorem checked_of_inRange {n : Int} (h : InRange n) : checked n = some n := if_pos h

theorem checked_eq_some {n m : Int} (h : checked n = some m) : m = n ∧ InRange n := by
  unfold checked at h
  split at h
  · cases h
    exact ⟨rfl, ‹_›⟩
  · cases h

theorem digits?_toDigits (n : Nat) : digits? (Nat.toDigits 10 n) = some n := by
  unfold digits?
  rw [if_pos, Nat.ofDigitChars_ten_toDigits]
  refine ⟨Nat.toDigits_ne_nil, List.all_eq_true.mpr fun c hc => ?_⟩
  exact Nat.isDigit_of_mem_toDigits (by omega) (by omega) hc

theorem toList_toString (n : Int) :
    (toString n).toList = (if n < 0 then ['-'] else []) ++ Nat.toDigits 10 n.natAbs := by
  rw [Int.toString_eq_repr, Int.repr_eq_if]
  by_cases h : n < 0
  · have habs : (-n).toNat = n.natAbs := by omega
    rw [if_neg (by omega), if_pos h, habs]
    simp
  · have habs : n.toNat = n.natAbs := by omega
    rw [if_pos (by omega), if_neg h, habs]
    simp

theorem isDigit_of_mem_natAbs {n : Int} {c : Char} (h : c ∈ Nat.toDigits 10 n.natAbs) :
    c.isDigit = true :=
  Nat.isDigit_of_mem_toDigits (by omega) (by omega) h

theorem toList_toString_ne_nil (n : Int) : (toString n).toList ≠ [] := by
  rw [toList_toString]
  exact List.append_ne_nil_of_right_ne_nil _ Nat.toDigits_ne_nil

/-- On a text that starts with a digit, `parse` reads digits only: the sign is
looked for in front, and there is none. -/
theorem parseI64_of_head {s : String} {c : Char} {cs : List Char} (hs : s.toList = c :: cs)
    (hc : c.isDigit = true) : parseI64 s = (digits? (c :: cs)).bind fun n => checked n := by
  unfold parseI64
  rw [hs]
  split
  · rename_i heq
    cases heq
    cases hc
  · rename_i heq
    cases heq
    cases hc
  · rfl

/-- **Parsing undoes printing.** A printed integer is read back, if it is an `i64`;
an integer too large for one is refused, never cut down. -/
theorem parseI64_toString_eq (n : Int) : parseI64 (toString n) = checked n := by
  have hlist := toList_toString n
  by_cases hneg : n < 0
  · have habs : -(n.natAbs : Int) = n := by omega
    rw [if_pos hneg, List.singleton_append] at hlist
    unfold parseI64
    rw [hlist]
    simp only [digits?_toDigits, Option.bind_some, habs]
  · have habs : (n.natAbs : Int) = n := by omega
    rw [if_neg hneg, List.nil_append] at hlist
    obtain ⟨c, cs, hcs⟩ :=
      List.exists_cons_of_ne_nil (Nat.toDigits_ne_nil (n := n.natAbs) (b := 10))
    have hc : c.isDigit = true := isDigit_of_mem_natAbs (hcs ▸ List.mem_cons_self ..)
    rw [parseI64_of_head (hlist.trans hcs) hc, ← hcs, digits?_toDigits, Option.bind_some, habs]

theorem isWhitespace_of_isDigit {c : Char} (h : c.isDigit = true) : isWhitespace c = false := by
  have hrange : 48 ≤ c.toNat ∧ c.toNat ≤ 57 := by
    simp only [Char.isDigit, Bool.and_eq_true, decide_eq_true_eq] at h
    exact ⟨h.1, h.2⟩
  unfold isWhitespace
  simp only [Bool.or_eq_false_iff, Bool.and_eq_false_iff, decide_eq_false_iff_not]
  omega

/-- A printed integer is what `trim` leaves of it, as neither its sign nor a digit
is whitespace. -/
theorem trim_toString (n : Int) : trim (toString n) = toString n := by
  refine trim_of_no_whitespace fun c hc => ?_
  rw [toList_toString, List.mem_append] at hc
  rcases hc with hsign | hdigit
  · split at hsign
    · rw [List.mem_singleton] at hsign
      subst hsign
      decide
    · cases hsign
  · exact isWhitespace_of_isDigit (isDigit_of_mem_natAbs hdigit)

end Decimal
