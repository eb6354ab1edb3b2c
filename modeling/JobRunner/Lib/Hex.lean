import Mathlib.Data.List.Basic

/-!
# Hexadecimal digits

- `value`: what the character or byte with a code stands for.
- `pair`: a byte, written as two digits in capitals.
- `forall_byte`: what holds of all bytes is checked byte by byte.
- `fromStrRadix`: Rust's integer parser, whose grammar is wider than digits.
- `bytes`: what a row of digits denotes, two for each byte.
- `bytes_eq_toLower`: a byte string is denoted in one way, up to case.
-/

namespace Hex

/-- `char::to_digit(16)`, from the code of the character. -/
def value (code : Nat) : Option Nat :=
  if 48 ≤ code ∧ code ≤ 57 then some (code - 48)
  else if 65 ≤ code ∧ code ≤ 70 then some (code - 55)
  else if 97 ≤ code ∧ code ≤ 102 then some (code - 87)
  else none

/-- The digit, in capitals. -/
def upper (digit : Nat) : Char := Char.ofNat (if digit < 10 then 48 + digit else 55 + digit)

/-- `{:02X}`. -/
def pair (byte : UInt8) : List Char := [upper (byte.toNat / 16), upper (byte.toNat % 16)]

theorem forall_byte {p : UInt8 → Prop} (h : ∀ n < 256, p (UInt8.ofNat n)) (byte : UInt8) :
    p byte := by
  have hbyte := h byte.toNat byte.toNat_lt
  rwa [UInt8.ofNat_toNat] at hbyte

theorem value_upper : ∀ digit < 16, value (upper digit).toNat = some digit := by decide

/-- A byte, from its two digits. -/
theorem ofNat_digits (byte : UInt8) :
    UInt8.ofNat (16 * (byte.toNat / 16) + byte.toNat % 16) = byte := by
  rw [Nat.div_add_mod, UInt8.ofNat_toNat]

theorem value_lt {code digit : Nat} (h : value code = some digit) : digit < 16 := by
  rw [value] at h
  split at h
  · cases h
    omega
  split at h
  · cases h
    omega
  split at h
  · cases h
    omega
  · cases h

theorem code_lt {code digit : Nat} (h : value code = some digit) : code < 128 := by
  rw [value] at h
  split at h
  · omega
  split at h
  · omega
  split at h
  · omega
  · cases h

/-! ## Rust's integer parser -/

/-- One more digit, if the number still fits. -/
def pushDigit (acc byte : UInt8) : Option UInt8 := do
  let digit ← value byte.toNat
  if 16 * acc.toNat + digit < 256 then some (UInt8.ofNat (16 * acc.toNat + digit)) else none

/-- `u8::from_str_radix(src, 16)`: a `+` in front of the digits is allowed, and no `-`. -/
def fromStrRadix : List UInt8 → Option UInt8
  | [] => none
  | [byte] => if byte = 43 ∨ byte = 45 then none else pushDigit 0 byte
  | byte :: digits =>
    if byte = 43 then digits.foldlM pushDigit 0 else (byte :: digits).foldlM pushDigit 0

theorem pushDigit_zero (byte : UInt8) : pushDigit 0 byte = (value byte.toNat).map UInt8.ofNat := by
  rw [pushDigit]
  rcases hvalue : value byte.toNat with _ | digit
  · rfl
  · have hlt := value_lt hvalue
    show (if 16 * 0 + digit < 256 then some (UInt8.ofNat (16 * 0 + digit)) else none) = _
    rw [Nat.mul_zero, Nat.zero_add, if_pos (by omega)]
    rfl

/-- Two bytes are read as two digits, or as a sign and a digit. A sign is taken in
front of any number of digits, and one is enough. -/
theorem fromStrRadix_two (a b : UInt8) :
    fromStrRadix [a, b] =
      if a = 43 then (value b.toNat).map UInt8.ofNat
      else (value a.toNat).bind fun x => (value b.toNat).map fun y => UInt8.ofNat (16 * x + y) := by
  show (if a = 43 then [b].foldlM pushDigit 0 else [a, b].foldlM pushDigit 0) = _
  split
  · rw [List.foldlM_cons, pushDigit_zero]
    cases value b.toNat <;> rfl
  · rw [List.foldlM_cons, pushDigit_zero]
    rcases hx : value a.toNat with _ | x
    · rfl
    have hxlt := value_lt hx
    show [b].foldlM pushDigit (UInt8.ofNat x) = _
    rw [List.foldlM_cons, pushDigit, UInt8.toNat_ofNat_of_lt' (by show x < 256; omega)]
    rcases hy : value b.toNat with _ | y
    · rfl
    have hylt := value_lt hy
    show (if 16 * x + y < 256 then some (UInt8.ofNat (16 * x + y)) else none).bind pure = _
    rw [if_pos (by omega)]
    rfl

/-! ## Rows of digits -/

/-- The bytes that a row of digits denotes. -/
def bytes : List Char → Option (List UInt8)
  | [] => some []
  | [_] => none
  | a :: b :: rest => do
    let x ← value a.toNat
    let y ← value b.toNat
    let denoted ← bytes rest
    some (UInt8.ofNat (16 * x + y) :: denoted)

/-- The lower-case digit. -/
def lower (digit : Nat) : Char := Char.ofNat (if digit < 10 then 48 + digit else 87 + digit)

theorem toLower_of_value {c : Char} {digit : Nat} (h : value c.toNat = some digit) :
    c.toLower = lower digit := by
  have hall : ∀ code < 128,
      ((value code).all fun digit => (Char.ofNat code).toLower = lower digit) = true := by decide
  have hc := hall c.toNat (code_lt h)
  rw [h, Option.all_some, decide_eq_true_eq, Char.ofNat_toNat] at hc
  exact hc

theorem bytes_eq_nil {cs : List Char} (h : bytes cs = some []) : cs = [] := by
  match cs, h with
  | [], _ => rfl
  | a :: b :: rest, h =>
    obtain ⟨x, -, h⟩ := Option.bind_eq_some_iff.mp h
    obtain ⟨y, -, h⟩ := Option.bind_eq_some_iff.mp h
    obtain ⟨tail, -, h⟩ := Option.bind_eq_some_iff.mp h
    cases h

/-- The first byte is denoted by the first two digits. -/
theorem bytes_eq_cons {cs : List Char} {byte : UInt8} {tail : List UInt8}
    (h : bytes cs = some (byte :: tail)) :
    ∃ a b rest x y, cs = a :: b :: rest ∧ value a.toNat = some x ∧ value b.toNat = some y ∧
      byte = UInt8.ofNat (16 * x + y) ∧ bytes rest = some tail := by
  match cs, h with
  | a :: b :: rest, h =>
    obtain ⟨x, hx, h⟩ := Option.bind_eq_some_iff.mp h
    obtain ⟨y, hy, h⟩ := Option.bind_eq_some_iff.mp h
    obtain ⟨tail', htail, h⟩ := Option.bind_eq_some_iff.mp h
    cases h
    exact ⟨a, b, rest, x, y, rfl, hx, hy, rfl, htail⟩

/-- **Rows that denote the same bytes differ in case only.** -/
theorem bytes_eq_toLower {cs ds : List Char} {denoted : List UInt8} (hcs : bytes cs = some denoted)
    (hds : bytes ds = some denoted) : cs.map Char.toLower = ds.map Char.toLower := by
  induction denoted generalizing cs ds with
  | nil => rw [bytes_eq_nil hcs, bytes_eq_nil hds]
  | cons byte tail ih =>
    obtain ⟨a, b, rest, x, y, rfl, hx, hy, hbyte, hrest⟩ := bytes_eq_cons hcs
    obtain ⟨a', b', rest', x', y', rfl, hx', hy', hbyte', hrest'⟩ := bytes_eq_cons hds
    have hlt := value_lt hx
    have hlt' := value_lt hx'
    have hylt := value_lt hy
    have hylt' := value_lt hy'
    have hsame : 16 * x + y = 16 * x' + y' := by
      have htoNat := congrArg UInt8.toNat (hbyte.symm.trans hbyte')
      rwa [UInt8.toNat_ofNat_of_lt' (by show 16 * x + y < 256; omega),
        UInt8.toNat_ofNat_of_lt' (by show 16 * x' + y' < 256; omega)] at htoNat
    obtain rfl : x = x' := by omega
    obtain rfl : y = y' := by omega
    rw [List.map_cons, List.map_cons, List.map_cons, List.map_cons, ih hrest hrest',
      toLower_of_value hx, toLower_of_value hx', toLower_of_value hy, toLower_of_value hy']

end Hex
