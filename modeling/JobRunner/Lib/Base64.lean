import Mathlib.Data.List.Nodup

/-!
# Base64 with the standard alphabet and canonical padding

Three bytes become four symbols of six bits; one or two left-over bytes become
two or three symbols, padded with `=` to four. Decoding accepts exactly this:
the padding must be there, and the unused bits of the last symbol must be zero.

- `Engine`, `Engine.Lawful`: a codec, and what it promises.
- `encode`, `decode`: a codec on lists of bytes and characters.
- `decode_encode`: decoding undoes encoding.
- `mem_alphabet_of_encode`: an encoded text has no other characters.
- `standard`, `standard_lawful`: the codec keeps the promise.
-/

namespace Base64

/-- The symbols for the values 0 to 63. -/
def alphabet : List Char :=
  "ABCDEFGHIJKLMNOPQRSTUVWXYZabcdefghijklmnopqrstuvwxyz0123456789+/".toList

/-- A codec that a program uses. -/
structure Engine where
  encode : List UInt8 → List Char
  decode : List Char → Option (List UInt8)

/-- Decoding undoes encoding, and an encoded text has symbols and padding only. -/
structure Engine.Lawful (E : Engine) : Prop where
  decode_encode : ∀ bytes, E.decode (E.encode bytes) = some bytes
  mem_alphabet : ∀ bytes, ∀ c ∈ E.encode bytes, c ∈ alphabet ∨ c = '='

/-- The symbol for `n`. -/
def symbol (n : Nat) : Char := alphabet.getD n 'A'

/-- The value of a symbol. -/
def value (c : Char) : Option Nat :=
  let n := alphabet.idxOf c
  if n < 64 then some n else none

theorem alphabet_length : alphabet.length = 64 := rfl

theorem alphabet_nodup : alphabet.Nodup := by decide +kernel

theorem pad_not_mem : '=' ∉ alphabet := by decide +kernel

theorem symbol_eq {n : Nat} (h : n < 64) :
    symbol n = alphabet.get ⟨n, by rwa [alphabet_length]⟩ :=
  (List.getElem_eq_getD 'A').symm

theorem symbol_mem_alphabet {n : Nat} (h : n < 64) : symbol n ∈ alphabet := by
  rw [symbol_eq h]
  exact List.get_mem _ _

theorem symbol_ne_pad {n : Nat} (h : n < 64) : symbol n ≠ '=' := by
  intro hpad
  exact pad_not_mem (hpad ▸ symbol_mem_alphabet h)

/-- The symbol of a six-bit value has that value. -/
theorem value_symbol {n : Nat} (h : n < 64) : value (symbol n) = some n := by
  have hidx : alphabet.idxOf (symbol n) = n := by
    rw [symbol_eq h]
    exact alphabet_nodup.idxOf_getElem n _
  unfold value
  rw [hidx]
  exact if_pos h

/-- Three bytes as four symbols. -/
def encodeGroup (a b c : UInt8) : List Char :=
  [symbol (a.toNat / 4), symbol (a.toNat % 4 * 16 + b.toNat / 16),
    symbol (b.toNat % 16 * 4 + c.toNat / 64), symbol (c.toNat % 64)]

def encode : List UInt8 → List Char
  | a :: b :: c :: rest => encodeGroup a b c ++ encode rest
  | [a, b] =>
    [symbol (a.toNat / 4), symbol (a.toNat % 4 * 16 + b.toNat / 16),
      symbol (b.toNat % 16 * 4), '=']
  | [a] => [symbol (a.toNat / 4), symbol (a.toNat % 4 * 16), '=', '=']
  | [] => []

/-- The last group, of which one or two symbols are padding. -/
def decodePadded (w x y : Char) : Option (List UInt8) :=
  if y = '=' then do
    let w ← value w
    let x ← value x
    -- four bits of `x` are beyond the one byte encoded
    if x % 16 = 0 then some [UInt8.ofNat (w * 4 + x / 16)] else none
  else do
    let w ← value w
    let x ← value x
    let y ← value y
    -- two bits of `y` are beyond the two bytes encoded
    if y % 4 = 0 then
      some [UInt8.ofNat (w * 4 + x / 16), UInt8.ofNat (x % 16 * 16 + y / 4)]
    else none

/-- Four symbols, none of them padding. -/
def decodeGroup (w x y z : Char) : Option (List UInt8) := do
  let w ← value w
  let x ← value x
  let y ← value y
  let z ← value z
  some [UInt8.ofNat (w * 4 + x / 16), UInt8.ofNat (x % 16 * 16 + y / 4),
    UInt8.ofNat (y % 4 * 64 + z)]

def decode : List Char → Option (List UInt8)
  | [] => some []
  | w :: x :: y :: z :: rest =>
    if z = '=' then
      if rest = [] then decodePadded w x y else none
    else do
      let group ← decodeGroup w x y z
      let bytes ← decode rest
      some (group ++ bytes)
  | _ => none

/-! ## The round trip -/

theorem ofNat_of_toNat {a : UInt8} {n : Nat} (h : n = a.toNat) : UInt8.ofNat n = a := by
  rw [h, UInt8.ofNat_toNat]

/-- Three bytes are four symbols: the cuts fall after two, four and six bits, and
are put together again at the same places. -/
theorem decodeGroup_encodeGroup (a b c : UInt8) :
    decodeGroup (symbol (a.toNat / 4)) (symbol (a.toNat % 4 * 16 + b.toNat / 16))
      (symbol (b.toNat % 16 * 4 + c.toNat / 64)) (symbol (c.toNat % 64)) =
        some [a, b, c] := by
  have ha := a.toNat_lt
  have hb := b.toNat_lt
  have hc := c.toNat_lt
  unfold decodeGroup
  rw [value_symbol (by omega), value_symbol (by omega), value_symbol (by omega),
    value_symbol (by omega)]
  show some _ = _
  rw [ofNat_of_toNat (a := a) (by omega), ofNat_of_toNat (a := b) (by omega),
    ofNat_of_toNat (a := c) (by omega)]

theorem decodePadded_two (a b : UInt8) :
    decodePadded (symbol (a.toNat / 4)) (symbol (a.toNat % 4 * 16 + b.toNat / 16))
      (symbol (b.toNat % 16 * 4)) = some [a, b] := by
  have ha := a.toNat_lt
  have hb := b.toNat_lt
  unfold decodePadded
  rw [if_neg (symbol_ne_pad (by omega)), value_symbol (by omega), value_symbol (by omega),
    value_symbol (by omega)]
  show (if _ then _ else _) = _
  rw [if_pos (by omega), ofNat_of_toNat (a := a) (by omega), ofNat_of_toNat (a := b) (by omega)]

theorem decodePadded_one (a : UInt8) :
    decodePadded (symbol (a.toNat / 4)) (symbol (a.toNat % 4 * 16)) '=' = some [a] := by
  have ha := a.toNat_lt
  unfold decodePadded
  rw [if_pos rfl, value_symbol (by omega), value_symbol (by omega)]
  show (if _ then _ else _) = _
  rw [if_pos (by omega), ofNat_of_toNat (a := a) (by omega)]

/-- **Decoding undoes encoding.** By the recursion of the encoder: groups of three,
and a last one of two bytes or of one. -/
theorem decode_encode (bytes : List UInt8) : decode (encode bytes) = some bytes := by
  induction bytes using encode.induct with
  | case1 a b c rest ih =>
    have hc := c.toNat_lt
    show decode (_ :: _ :: _ :: symbol (c.toNat % 64) :: encode rest) = _
    rw [decode, if_neg (symbol_ne_pad (by omega)), decodeGroup_encodeGroup, ih]
    rfl
  | case2 a b => exact decodePadded_two a b
  | case3 a => exact decodePadded_one a
  | case4 => rfl

/-- An encoded text consists of symbols and padding. -/
theorem mem_alphabet_of_encode (bytes : List UInt8) :
    ∀ c ∈ encode bytes, c ∈ alphabet ∨ c = '=' := by
  induction bytes using encode.induct with
  | case1 a b c rest ih =>
    have ha := a.toNat_lt
    have hb := b.toNat_lt
    have hc := c.toNat_lt
    simp only [encode, encodeGroup, List.cons_append, List.nil_append, List.forall_mem_cons]
    refine ⟨.inl ?_, .inl ?_, .inl ?_, .inl ?_, ih⟩
    all_goals exact symbol_mem_alphabet (by omega)
  | case2 a b =>
    have ha := a.toNat_lt
    have hb := b.toNat_lt
    rw [encode, List.forall_mem_cons, List.forall_mem_cons, List.forall_mem_cons,
      List.forall_mem_cons]
    refine ⟨.inl ?_, .inl ?_, .inl ?_, .inr rfl, nofun⟩
    all_goals exact symbol_mem_alphabet (by omega)
  | case3 a =>
    have ha := a.toNat_lt
    rw [encode, List.forall_mem_cons, List.forall_mem_cons, List.forall_mem_cons,
      List.forall_mem_cons]
    refine ⟨.inl ?_, .inl ?_, .inr rfl, .inr rfl, nofun⟩
    all_goals exact symbol_mem_alphabet (by omega)
  | case4 => exact nofun

example : encode [77, 97, 110, 77] = "TWFuTQ==".toList := by decide

/-- The codec of this file. -/
def standard : Engine := ⟨encode, decode⟩

theorem standard_lawful : standard.Lawful := ⟨decode_encode, mem_alphabet_of_encode⟩

end Base64
