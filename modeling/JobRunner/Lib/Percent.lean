import JobRunner.Lib.Hex
import JobRunner.Lib.Text

/-!
# Percent-encoding, and pairs in a query

Bytes that are no unreserved characters of a URL are written as `%` and two digits. A query
is a list of pairs, with `&` between them and `=` inside.

- `encode`, `decode`: bytes as text, and back.
- `decode_encode`: one undoes the other.
- `encodePair`, `decodePairs`: the pairs of a query.
- `decodePairs_intercalate`: pairs are found again.
-/

open Text

namespace Percent

/-- Letters, digits, `-`, `.`, `_` and `~`. -/
def unreserved (byte : UInt8) : Bool :=
  let n := byte.toNat
  (65 ≤ n && n ≤ 90) || (97 ≤ n && n ≤ 122) || (48 ≤ n && n ≤ 57) || n = 45 || n = 46 ||
    n = 95 || n = 126

/-- A byte as it is written. -/
def symbols (byte : UInt8) : List Char :=
  if unreserved byte then [Char.ofNat byte.toNat] else '%' :: Hex.pair byte

def encode (bytes : List UInt8) : List Char := bytes.flatMap symbols

/-- `%` with two digits is a byte; everything else stands for itself. -/
def decode : List Char → List UInt8
  | [] => []
  | [c] => String.utf8EncodeChar c
  | [c, d] => String.utf8EncodeChar c ++ String.utf8EncodeChar d
  | c :: a :: b :: rest =>
    if c = '%' then
      match Hex.value a.toNat, Hex.value b.toNat with
      | some x, some y => UInt8.ofNat (16 * x + y) :: decode rest
      | _, _ => String.utf8EncodeChar c ++ decode (a :: b :: rest)
    else String.utf8EncodeChar c ++ decode (a :: b :: rest)

/-! ## Bytes -/

theorem decode_cons {c : Char} (h : c ≠ '%') (rest : List Char) :
    decode (c :: rest) = String.utf8EncodeChar c ++ decode rest := by
  match rest with
  | [] => rw [decode, decode, List.append_nil]
  | [d] => rw [decode, decode]
  | a :: b :: rest => rw [decode, if_neg h]

theorem decode_pair (byte : UInt8) (rest : List Char) :
    decode ('%' :: (Hex.pair byte ++ rest)) = byte :: decode rest := by
  have hbyte := byte.toNat_lt
  show decode ('%' :: Hex.upper (byte.toNat / 16) :: Hex.upper (byte.toNat % 16) :: rest) = _
  rw [decode, if_pos rfl, Hex.value_upper _ (by omega), Hex.value_upper _ (by omega)]
  show UInt8.ofNat (16 * (byte.toNat / 16) + byte.toNat % 16) :: decode rest = _
  rw [Hex.ofNat_digits]

/-- An unreserved character is its own byte, and no `%`. -/
theorem unreserved_ascii : ∀ byte, unreserved byte = true →
    String.utf8EncodeChar (Char.ofNat byte.toNat) = [byte] ∧ Char.ofNat byte.toNat ≠ '%' :=
  Hex.forall_byte (by decide +kernel)

theorem decode_symbols (byte : UInt8) (rest : List Char) :
    decode (symbols byte ++ rest) = byte :: decode rest := by
  unfold symbols
  split
  next hfree =>
    obtain ⟨hself, hne⟩ := unreserved_ascii byte hfree
    rw [List.singleton_append, decode_cons hne, hself, List.singleton_append]
  · exact decode_pair byte rest

/-- **Encoding is undone.** -/
theorem decode_encode (bytes : List UInt8) : decode (encode bytes) = bytes := by
  induction bytes with
  | nil => rfl
  | cons byte bytes ih =>
    show decode (symbols byte ++ encode bytes) = _
    rw [decode_symbols, ih]

theorem not_mem_symbols (byte : UInt8) : ∀ c ∈ symbols byte, c ∉ ['&', '=', '?', '#'] := by
  have hall : ∀ byte, ((symbols byte).all fun c => c ∉ ['&', '=', '?', '#']) = true :=
    Hex.forall_byte (by decide +kernel)
  intro c hc
  exact of_decide_eq_true (List.all_eq_true.mp (hall byte) c hc)

/-- No delimiter is left. -/
theorem not_mem_encode {c : Char} (hc : c ∈ ['&', '=', '?', '#']) (bytes : List UInt8) :
    c ∉ encode bytes := by
  intro hmem
  obtain ⟨byte, -, hsymbol⟩ := List.mem_flatMap.mp hmem
  exact not_mem_symbols byte c hsymbol hc

/-! ## Pairs -/

def encodeText (text : String) : List Char := encode (utf8 text)

/-- The text of an encoded piece, if the bytes are UTF-8. -/
def decodeText (piece : List Char) : Option String := fromUtf8 (decode piece)

theorem decodeText_encodeText (text : String) : decodeText (encodeText text) = some text := by
  rw [decodeText, encodeText, decode_encode, fromUtf8_utf8]

def encodePair (pair : String × String) : List Char :=
  encodeText pair.1 ++ '=' :: encodeText pair.2

/-- A pair is cut at its first `=`. -/
def decodePair (piece : List Char) : Option (String × String) := do
  let key ← decodeText (piece.takeWhile (· ≠ '='))
  let value ← decodeText ((piece.dropWhile (· ≠ '=')).drop 1)
  return (key, value)

/-- The pairs of a query, which is cut at `&`. -/
def decodePairs (query : List Char) : Option (List (String × String)) :=
  (query.splitOn '&').mapM decodePair

theorem decodePair_encodePair (pair : String × String) :
    decodePair (encodePair pair) = some pair := by
  have hkey : ∀ c ∈ encodeText pair.1, decide (c ≠ '=') = true := by
    rintro c hc
    refine decide_eq_true ?_
    rintro rfl
    exact not_mem_encode (by decide) _ hc
  have htake : (encodePair pair).takeWhile (· ≠ '=') = encodeText pair.1 := by
    rw [encodePair, List.takeWhile_append_of_pos hkey]
    simp
  have hdrop : (encodePair pair).dropWhile (· ≠ '=') = '=' :: encodeText pair.2 := by
    rw [encodePair, List.dropWhile_append_of_pos hkey]
    simp
  rw [decodePair, htake, hdrop, decodeText_encodeText]
  show (decodeText (encodeText pair.2)).bind (fun value => some (pair.1, value)) = _
  rw [decodeText_encodeText]
  rfl

theorem not_mem_encodePair {c : Char} (hc : c ∈ ['&', '?', '#']) (pair : String × String) :
    c ∉ encodePair pair := by
  have hall : ∀ d ∈ ['&', '?', '#'], d ∈ ['&', '=', '?', '#'] ∧ d ≠ '=' := by simp
  have hc' := hall c hc
  rw [encodePair, List.mem_append, List.mem_cons]
  rintro (hmem | hmem | hmem)
  · exact not_mem_encode hc'.1 _ hmem
  · exact hc'.2 hmem
  · exact not_mem_encode hc'.1 _ hmem

theorem mapM_decodePair (pairs : List (String × String)) :
    (pairs.map encodePair).mapM decodePair = some pairs := by
  induction pairs with
  | nil => rfl
  | cons pair pairs ih =>
    rw [List.map_cons, List.mapM_cons, decodePair_encodePair, ih]
    rfl

/-- **Pairs are found again**, whatever they contain: no delimiter is left in a key
or a value, so the splits are those that were made. -/
theorem decodePairs_intercalate {pairs : List (String × String)} (hne : pairs ≠ []) :
    decodePairs (['&'].intercalate (pairs.map encodePair)) = some pairs := by
  have hsplit : (['&'].intercalate (pairs.map encodePair)).splitOn '&' = pairs.map encodePair := by
    refine List.splitOn_intercalate '&' (fun piece hpiece => ?_) (by simpa using hne)
    obtain ⟨pair, -, rfl⟩ := List.mem_map.mp hpiece
    exact not_mem_encodePair (by decide) pair
  rw [decodePairs, hsplit, mapM_decodePair]

end Percent
