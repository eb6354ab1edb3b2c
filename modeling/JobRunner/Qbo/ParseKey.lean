import JobRunner.Lib.Hex
import JobRunner.Qbo.Crypto

/-!
# The key of stored values (`parse_key`)

`AES_KEY` is 64 hexadecimal digits. `parse_key` counts bytes, cuts the text into pairs and
gives each pair to the integer parser of the standard library, which allows a `+` in front
of a number. What `ring` makes of the bytes is a parameter, `newKey`.

- `parseKey`: the function; `readPairs` is its loop as a recursion on the bytes.
- `parseKey_accepts_iff`: what it accepts, a row of signed pairs included.
- `parse_key_exact_iff`: it is exact on every text but those with a signed pair.
-/

open Text

namespace JobRunner

variable {Key : Type}

/-- `UnboundKey::new(&AES_256_GCM, …)` takes 32 bytes, and the key is these bytes. -/
structure KeyLaws (newKey : List UInt8 → Option Key) : Prop where
  accepts : ∀ bytes, (∃ key, newKey bytes = some key) ↔ bytes.length = 32
  injective : ∀ {bytes bytes' key}, newKey bytes = some key → newKey bytes' = some key →
    bytes = bytes'

/-- The bytes of `parse_key`: `hex` is trimmed. -/
def keyBytes (hex : String) : Option (List UInt8) :=
  if (utf8 hex).length = 64 then
    -- `(0..hex.len()).step_by(2)`
    (List.range' 0 (((utf8 hex).length + 1) / 2) 2).mapM fun i => do
      let pair ← getRange hex i (i + 2)
      Hex.fromStrRadix (utf8 pair)
  else none

/-- `parse_key`. -/
def parseKey (newKey : List UInt8 → Option Key) (hex : String) : Except QboError Key :=
  match keyBytes (trim hex) with
  | none => .error (.config "AES_KEY must be 64 hex characters (a 256-bit key)")
  | some bytes =>
    match newKey bytes with
    | none => .error (.config "AES_KEY is not a valid AES-256 key")
    | some key => .ok key

/-! ## The loop -/

/-- The loop over the pairs, as a recursion. -/
def readPairs : List UInt8 → Option (List UInt8)
  | [] => some []
  | [_] => none
  | a :: b :: rest => do
    let byte ← Hex.fromStrRadix [a, b]
    let bytes ← readPairs rest
    some (byte :: bytes)

theorem mapM_slices (n : Nat) (front rest : List UInt8) (h : rest.length = 2 * n) :
    (List.range' front.length n 2).mapM
      (fun i => Hex.fromStrRadix (((front ++ rest).drop i).take 2)) = readPairs rest := by
  -- `front` is what the loop has passed
  induction n generalizing front rest with
  | zero =>
    rw [List.length_eq_zero_iff.mp h]
    rfl
  | succ n ih =>
    obtain ⟨a, b, rest, rfl⟩ : ∃ a b rest', rest = a :: b :: rest' := by
      match rest, h with
      | a :: b :: rest, _ => exact ⟨a, b, rest, rfl⟩
    have hrest : rest.length = 2 * n := by
      simp only [List.length_cons] at h
      omega
    have hfront : front ++ a :: b :: rest = (front ++ [a, b]) ++ rest := by
      rw [List.append_assoc]
      rfl
    have htail : (List.range' (front.length + 2) n 2).mapM
        (fun i => Hex.fromStrRadix (((front ++ a :: b :: rest).drop i).take 2)) =
          readPairs rest := by
      rw [hfront, ← ih (front ++ [a, b]) rest hrest, List.length_append]
      rfl
    rw [List.range'_succ, List.mapM_cons, List.drop_left, htail]
    rfl

/-- A sign or a digit, then a digit. -/
def SignedPair (a b : UInt8) : Prop :=
  (a = 43 ∨ (Hex.value a.toNat).isSome = true) ∧ (Hex.value b.toNat).isSome = true

theorem fromStrRadix_isSome_iff {a b : UInt8} :
    (Hex.fromStrRadix [a, b]).isSome = true ↔ SignedPair a b := by
  rw [Hex.fromStrRadix_two, SignedPair]
  by_cases ha : a = 43
  · simp [ha]
  · rw [if_neg ha]
    cases Hex.value a.toNat <;> simp [ha]

/-- Every byte that was read is ASCII. -/
theorem readPairs_ascii {bytes read : List UInt8} (h : readPairs bytes = some read) :
    bytes.length = 2 * read.length ∧ ∀ byte ∈ bytes, byte.toNat < 128 := by
  induction bytes using readPairs.induct generalizing read with
  | case1 =>
    cases h
    exact ⟨rfl, by simp⟩
  | case2 => cases h
  | case3 a b rest ih =>
    obtain ⟨byte, hbyte, h⟩ := Option.bind_eq_some_iff.mp h
    obtain ⟨tail, htail, h⟩ := Option.bind_eq_some_iff.mp h
    cases h
    obtain ⟨hlen, hrest⟩ := ih htail
    obtain ⟨ha, hb⟩ := fromStrRadix_isSome_iff.mp (Option.isSome_of_mem hbyte)
    refine ⟨by simp only [List.length_cons, hlen, Nat.mul_add], ?_⟩
    rw [List.forall_mem_cons, List.forall_mem_cons]
    refine ⟨?_, ?_, hrest⟩
    · rcases ha with rfl | ha
      · decide
      · obtain ⟨x, hx⟩ := Option.isSome_iff_exists.mp ha
        exact Hex.code_lt hx
    · obtain ⟨y, hy⟩ := Option.isSome_iff_exists.mp hb
      exact Hex.code_lt hy

theorem mapM_mono {α β : Type} {f g : α → Option β} {l : List α} {bs : List β}
    (h : ∀ a ∈ l, ∀ b, f a = some b → g a = some b) (hf : l.mapM f = some bs) :
    l.mapM g = some bs := by
  induction l generalizing bs with
  | nil => exact hf
  | cons a l ih =>
    rw [List.mapM_cons] at hf ⊢
    obtain ⟨b, hb, hf⟩ := Option.bind_eq_some_iff.mp hf
    obtain ⟨tail, htail, hf⟩ := Option.bind_eq_some_iff.mp hf
    rw [h a List.mem_cons_self b hb,
      ih (fun a' ha' => h a' (List.mem_cons_of_mem a ha')) htail]
    exact hf

/-- Pairs cut out of the text are pairs of its bytes: no character of the text is longer
than a byte, or the parser fails. -/
theorem keyBytes_eq_some_iff {hex : String} {bytes : List UInt8} :
    keyBytes hex = some bytes ↔ (utf8 hex).length = 64 ∧ readPairs (utf8 hex) = some bytes := by
  by_cases hlen : (utf8 hex).length = 64
  swap
  · rw [keyBytes, if_neg hlen]
    simp [hlen]
  have hslices := mapM_slices 32 [] (utf8 hex) hlen
  rw [keyBytes, if_pos hlen, hlen, and_iff_right rfl, ← hslices]
  constructor
  · refine mapM_mono fun i _ byte hbyte => ?_
    obtain ⟨pair, hpair, hbyte⟩ := Option.bind_eq_some_iff.mp hbyte
    rw [getRange_bytes hpair, Nat.add_sub_cancel_left] at hbyte
    exact hbyte
  · intro h
    -- bytes that make up pairs are ASCII, so that no pair is cut out of a character
    have hascii := (ascii_of_utf8 (readPairs_ascii (hslices ▸ h)).2).1
    refine mapM_mono (fun i hi byte hbyte => ?_) h
    obtain ⟨k, hk, rfl⟩ := List.mem_range'.mp hi
    have hstop : 0 + 2 * k + 2 ≤ (utf8 hex).length := by omega
    obtain ⟨pair, hpair⟩ := getRange_ascii hascii (Nat.le_add_right (0 + 2 * k) 2) hstop
    rw [hpair, Option.bind_eq_bind, Option.bind_some, getRange_bytes hpair,
      Nat.add_sub_cancel_left]
    exact hbyte

/-! ## The grammar -/

/-- 64 hexadecimal digits. -/
def IsHexKey (text : String) : Prop :=
  text.toList.length = 64 ∧ ∀ c ∈ text.toList, (Hex.value c.toNat).isSome = true

/-- Pairs of a hexadecimal digit, or a `+` in its place, and a hexadecimal digit. -/
def Paired (cs : List Char) : Prop :=
  ∀ i c, cs[i]? = some c → (Hex.value c.toNat).isSome = true ∨ i % 2 = 0 ∧ c = '+'

/-- 32 pairs, and a sign among them. -/
def IsSignedKey (text : String) : Prop :=
  text.toList.length = 64 ∧ Paired text.toList ∧ '+' ∈ text.toList

theorem paired_cons_cons {a b : Char} {rest : List Char} :
    Paired (a :: b :: rest) ↔
      ((Hex.value a.toNat).isSome = true ∨ a = '+') ∧ (Hex.value b.toNat).isSome = true ∧
        Paired rest := by
  constructor
  · intro h
    refine ⟨?_, ?_, fun i c hc => ?_⟩
    · simpa using h 0 a rfl
    · simpa using h 1 b rfl
    · simpa [Nat.add_mod_right] using h (i + 2) c hc
  · rintro ⟨ha, hb, hrest⟩ i c hc
    match i, hc with
    | 0, hc =>
      cases hc
      exact ha.imp_right fun ha => ⟨rfl, ha⟩
    | 1, hc =>
      cases hc
      exact .inl hb
    | i + 2, hc => simpa [Nat.add_mod_right] using hrest i c hc

theorem paired_ascii {cs : List Char} (h : Paired cs) : Ascii cs := by
  intro c hc
  obtain ⟨i, hi⟩ := List.mem_iff_getElem?.mp hc
  rcases h i c hi with hdigit | ⟨-, rfl⟩
  · obtain ⟨x, hx⟩ := Option.isSome_iff_exists.mp hdigit
    exact Hex.code_lt hx
  · decide

theorem toUInt8_eq_plus {c : Char} (h : c.toNat < 128) : c.toUInt8 = 43 ↔ c = '+' := by
  rw [← UInt8.toNat_inj, toUInt8_toNat h]
  constructor
  · intro hc
    rw [← Char.ofNat_toNat c, hc]
    rfl
  · rintro rfl
    rfl

theorem readPairs_cons_cons_isSome (a b : UInt8) (rest : List UInt8) :
    (readPairs (a :: b :: rest)).isSome =
      ((Hex.fromStrRadix [a, b]).isSome && (readPairs rest).isSome) := by
  rw [readPairs]
  cases Hex.fromStrRadix [a, b] <;> cases readPairs rest <;> rfl

/-- **What the loop reads** of an ASCII text: signed pairs included. -/
theorem readPairs_isSome_iff {cs : List Char} (h : Ascii cs) :
    (readPairs (cs.map Char.toUInt8)).isSome = true ↔ cs.length % 2 = 0 ∧ Paired cs := by
  induction cs using Hex.bytes.induct with
  | case1 => simp [readPairs, Paired]
  | case2 => simp [readPairs]
  | case3 a b rest ih =>
    obtain ⟨ha, h⟩ := List.forall_mem_cons.mp h
    obtain ⟨hb, hrest⟩ := List.forall_mem_cons.mp h
    have hlen : (a :: b :: rest).length % 2 = 0 ↔ rest.length % 2 = 0 := by
      rw [List.length_cons, List.length_cons]
      omega
    rw [List.map_cons, List.map_cons, readPairs_cons_cons_isSome, Bool.and_eq_true, ih hrest,
      fromStrRadix_isSome_iff, SignedPair, toUInt8_eq_plus ha, toUInt8_toNat ha,
      toUInt8_toNat hb, hlen, paired_cons_cons]
    tauto

/-- Digits alone are read as what they denote. -/
theorem readPairs_digits {cs : List Char}
    (h : ∀ c ∈ cs, (Hex.value c.toNat).isSome = true) :
    readPairs (cs.map Char.toUInt8) = Hex.bytes cs := by
  induction cs using Hex.bytes.induct with
  | case1 => rfl
  | case2 => rfl
  | case3 a b rest ih =>
    obtain ⟨ha, h⟩ := List.forall_mem_cons.mp h
    obtain ⟨hb, hrest⟩ := List.forall_mem_cons.mp h
    obtain ⟨x, hx⟩ := Option.isSome_iff_exists.mp ha
    obtain ⟨y, hy⟩ := Option.isSome_iff_exists.mp hb
    have hplus : ¬ a.toUInt8 = 43 := by
      rw [toUInt8_eq_plus (Hex.code_lt hx)]
      rintro rfl
      cases hx
    rw [List.map_cons, List.map_cons, readPairs, Hex.bytes, Hex.fromStrRadix_two, if_neg hplus,
      toUInt8_toNat (Hex.code_lt hx), toUInt8_toNat (Hex.code_lt hy), hx, hy, ih hrest]
    rfl

/-! ## What `parse_key` accepts -/

theorem utf8_of_ascii {text : String} (h : Ascii text.toList) :
    utf8 text = text.toList.map Char.toUInt8 := by
  rw [← utf8_ofList_ascii h, String.ofList_toList]

theorem keyBytes_isSome_iff {text : String} :
    (∃ bytes, keyBytes text = some bytes) ↔ text.toList.length = 64 ∧ Paired text.toList := by
  constructor
  · rintro ⟨bytes, hbytes⟩
    obtain ⟨hlen, hread⟩ := keyBytes_eq_some_iff.mp hbytes
    obtain ⟨hascii, hutf8⟩ := ascii_of_utf8 (readPairs_ascii hread).2
    rw [hutf8] at hlen hread
    rw [List.length_map] at hlen
    exact ⟨hlen, ((readPairs_isSome_iff hascii).mp (Option.isSome_of_mem hread)).2⟩
  · rintro ⟨hlen, hpaired⟩
    have hascii := paired_ascii hpaired
    have hsome := (readPairs_isSome_iff hascii).mpr ⟨by rw [hlen], hpaired⟩
    obtain ⟨bytes, hbytes⟩ := Option.isSome_iff_exists.mp hsome
    refine ⟨bytes, keyBytes_eq_some_iff.mpr ?_⟩
    rw [utf8_of_ascii hascii, List.length_map]
    exact ⟨hlen, hbytes⟩

theorem keyBytes_digits {text : String} (h : IsHexKey text) :
    keyBytes text = Hex.bytes text.toList := by
  have hascii := paired_ascii fun i c hc => .inl (h.2 c (List.mem_of_getElem? hc))
  have hread := readPairs_digits h.2
  have hlen : (text.toList.map Char.toUInt8).length = 64 := by rw [List.length_map, h.1]
  refine Option.ext fun bytes => ?_
  rw [keyBytes_eq_some_iff, utf8_of_ascii hascii, hread, and_iff_right hlen]

theorem keyBytes_length {text : String} {bytes : List UInt8} (h : keyBytes text = some bytes) :
    bytes.length = 32 := by
  obtain ⟨hlen, hread⟩ := keyBytes_eq_some_iff.mp h
  have := (readPairs_ascii hread).1
  omega

theorem parseKey_eq_ok_iff {newKey : List UInt8 → Option Key} {hex : String} {key : Key} :
    parseKey newKey hex = .ok key ↔
      ∃ bytes, keyBytes (trim hex) = some bytes ∧ newKey bytes = some key := by
  rw [parseKey]
  rcases keyBytes (trim hex) with _ | bytes
  · simp
  · rcases hkey : newKey bytes with _ | key'
    · simp [hkey]
    · simp [hkey]

/-- 32 pairs are a key, whatever is in them. -/
theorem parseKey_accepts_iff {newKey : List UInt8 → Option Key} (hnew : KeyLaws newKey)
    (hex : String) :
    (∃ key, parseKey newKey hex = .ok key) ↔
      (trim hex).toList.length = 64 ∧ Paired (trim hex).toList := by
  rw [← keyBytes_isSome_iff]
  constructor
  · rintro ⟨key, hkey⟩
    obtain ⟨bytes, hbytes, -⟩ := parseKey_eq_ok_iff.mp hkey
    exact ⟨bytes, hbytes⟩
  · rintro ⟨bytes, hbytes⟩
    obtain ⟨key, hkey⟩ := (hnew.accepts bytes).mpr (keyBytes_length hbytes)
    exact ⟨key, parseKey_eq_ok_iff.mpr ⟨bytes, hbytes, hkey⟩⟩

/-- Digits, or a sign among them. -/
theorem paired_iff {text : String} :
    text.toList.length = 64 ∧ Paired text.toList ↔ IsHexKey text ∨ IsSignedKey text := by
  constructor
  · rintro ⟨hlen, hpaired⟩
    by_cases hplus : '+' ∈ text.toList
    · exact .inr ⟨hlen, hpaired, hplus⟩
    · refine .inl ⟨hlen, fun c hc => ?_⟩
      obtain ⟨i, hi⟩ := List.mem_iff_getElem?.mp hc
      rcases hpaired i c hi with hdigit | ⟨-, rfl⟩
      · exact hdigit
      · exact absurd hc hplus
  · rintro (⟨hlen, hdigits⟩ | ⟨hlen, hpaired, -⟩)
    · exact ⟨hlen, fun i c hc => .inl (hdigits c (List.mem_of_getElem? hc))⟩
    · exact ⟨hlen, hpaired⟩

/-- A `+` is no digit. -/
theorem not_hex_of_signed {text : String} (h : IsSignedKey text) : ¬ IsHexKey text := by
  intro hhex
  cases hhex.2 '+' h.2.2

/-- `parse_key` on one text, as the grammar has it: exactly the 64 digits are accepted, and
the key is what they denote. -/
structure Exact (newKey : List UInt8 → Option Key) (hex : String) : Prop where
  accepts : (∃ key, parseKey newKey hex = .ok key) ↔ IsHexKey (trim hex)
  denotes : ∀ key, parseKey newKey hex = .ok key →
    ∃ bytes, Hex.bytes (trim hex).toList = some bytes ∧ newKey bytes = some key

theorem exact_iff {newKey : List UInt8 → Option Key} (hnew : KeyLaws newKey) (hex : String) :
    Exact newKey hex ↔ ¬ IsSignedKey (trim hex) := by
  have haccepts := parseKey_accepts_iff hnew hex
  rw [paired_iff] at haccepts
  constructor
  · intro h hsigned
    exact not_hex_of_signed hsigned (h.accepts.mp (haccepts.mpr (.inr hsigned)))
  · intro hsigned
    rw [or_iff_left hsigned] at haccepts
    refine ⟨haccepts, fun key hkey => ?_⟩
    obtain ⟨bytes, hbytes, hnewKey⟩ := parseKey_eq_ok_iff.mp hkey
    rw [keyBytes_digits (haccepts.mp ⟨key, hkey⟩)] at hbytes
    exact ⟨bytes, hbytes, hnewKey⟩

/-- Two texts with the same key. -/
theorem Exact.same {newKey : List UInt8 → Option Key} (hnew : KeyLaws newKey) {hex hex' : String}
    (h : Exact newKey hex) (h' : Exact newKey hex') {key : Key}
    (hkey : parseKey newKey hex = .ok key) (hkey' : parseKey newKey hex' = .ok key) :
    eqIgnoreAsciiCase (trim hex) (trim hex') = true := by
  obtain ⟨bytes, hbytes, hnewKey⟩ := h.denotes key hkey
  obtain ⟨bytes', hbytes', hnewKey'⟩ := h'.denotes key hkey'
  rw [← hnew.injective hnewKey hnewKey'] at hbytes'
  exact decide_eq_true (Hex.bytes_eq_toLower hbytes hbytes')

/-- **`parse_key` is exact but for signs.** For any two texts: each is accepted exactly if it
is 64 digits, with the key they denote, and two that are accepted with the same key differ in
case and whitespace only, if and only if neither text has a sign in its pairs. -/
theorem parse_key_exact_iff {newKey : List UInt8 → Option Key} (hnew : KeyLaws newKey)
    (hex hex' : String) :
    (Exact newKey hex ∧ Exact newKey hex' ∧
      ∀ key, parseKey newKey hex = .ok key → parseKey newKey hex' = .ok key →
        eqIgnoreAsciiCase (trim hex) (trim hex') = true) ↔
    ¬ IsSignedKey (trim hex) ∧ ¬ IsSignedKey (trim hex') := by
  rw [← exact_iff hnew, ← exact_iff hnew]
  constructor
  · rintro ⟨h, h', -⟩
    exact ⟨h, h'⟩
  · rintro ⟨h, h'⟩
    exact ⟨h, h', fun key hkey hkey' => h.same hnew h' hkey hkey'⟩

/-- A key that shows its bytes. -/
def sampleNewKey (bytes : List UInt8) : Option (List UInt8) :=
  if bytes.length = 32 then some bytes else none

theorem sampleNewKey_laws : KeyLaws sampleNewKey where
  accepts bytes := by
    rw [sampleNewKey]
    split
    · simp_all
    · simp_all
  injective := by
    intro bytes bytes' key h h'
    rw [sampleNewKey] at h h'
    split at h
    · split at h'
      · cases h
        cases h'
        rfl
      · cases h'
    · cases h

/-- 32 zero bytes. -/
def zeroKey : String :=
  "0000000000000000000000000000000000000000000000000000000000000000"

/-- The same with a sign in each pair. -/
def signedZeroKey : String :=
  "+0+0+0+0+0+0+0+0+0+0+0+0+0+0+0+0+0+0+0+0+0+0+0+0+0+0+0+0+0+0+0+0"

theorem toList_zeroKey : zeroKey.toList = List.replicate 64 '0' := String.toList_ofList

theorem trim_zeroKey : trim zeroKey = zeroKey := by
  refine trim_of_no_whitespace fun c hc => ?_
  rw [toList_zeroKey] at hc
  rw [List.eq_of_mem_replicate hc]
  decide

theorem zeroKey_isHexKey : IsHexKey zeroKey := by
  refine ⟨by rw [toList_zeroKey, List.length_replicate], fun c hc => ?_⟩
  rw [toList_zeroKey] at hc
  rw [List.eq_of_mem_replicate hc]
  decide

theorem zeroKey_not_signed : ¬ IsSignedKey zeroKey :=
  fun h => not_hex_of_signed h zeroKey_isHexKey

/-- The digits of the zero key with whitespace around them are the same key. -/
theorem zeroKey_exact :
    Exact sampleNewKey zeroKey ∧ Exact sampleNewKey (zeroKey ++ "\n") ∧
      ∀ key, parseKey sampleNewKey zeroKey = .ok key →
        parseKey sampleNewKey (zeroKey ++ "\n") = .ok key →
        eqIgnoreAsciiCase (trim zeroKey) (trim (zeroKey ++ "\n")) = true := by
  have hnewline : Blank "\n" := List.all_eq_true.mp (by decide +kernel)
  have htrim : trim (zeroKey ++ "\n") = zeroKey := by
    have hempty : Blank "" := fun c hc => absurd hc (by simp)
    have haround := trim_around hempty hnewline zeroKey
    rwa [String.empty_append, trim_zeroKey] at haround
  refine (parse_key_exact_iff sampleNewKey_laws zeroKey (zeroKey ++ "\n")).mpr ⟨?_, ?_⟩
  · rw [trim_zeroKey]
    exact zeroKey_not_signed
  · rw [htrim]
    exact zeroKey_not_signed

theorem toList_signedZeroKey :
    signedZeroKey.toList = (List.replicate 32 ['+', '0']).flatten := String.toList_ofList

theorem mem_signedZeroKey {c : Char} (h : c ∈ signedZeroKey.toList) : c = '+' ∨ c = '0' := by
  rw [toList_signedZeroKey] at h
  obtain ⟨pair, hpair, hc⟩ := List.mem_flatten.mp h
  rw [List.eq_of_mem_replicate hpair] at hc
  simpa using hc

theorem trim_signedZeroKey : trim signedZeroKey = signedZeroKey := by
  refine trim_of_no_whitespace fun c hc => ?_
  rcases mem_signedZeroKey hc with rfl | rfl
  · decide
  · decide

theorem keyBytes_signedZeroKey : keyBytes signedZeroKey = some (List.replicate 32 0) := by
  have hascii : Ascii signedZeroKey.toList := by
    intro c hc
    rcases mem_signedZeroKey hc with rfl | rfl
    · decide
    · decide
  rw [keyBytes_eq_some_iff, utf8_of_ascii hascii, toList_signedZeroKey]
  exact ⟨rfl, by decide +kernel⟩

/-- Signs are accepted, and the key is that of other digits. -/
theorem signs_make_a_key :
    parseKey sampleNewKey signedZeroKey = .ok (List.replicate 32 0) ∧
      parseKey sampleNewKey zeroKey = .ok (List.replicate 32 0) ∧
      ¬ IsHexKey (trim signedZeroKey) ∧ ¬ Exact sampleNewKey signedZeroKey ∧
      eqIgnoreAsciiCase (trim signedZeroKey) (trim zeroKey) = false := by
  rw [trim_signedZeroKey, trim_zeroKey]
  have hzero : keyBytes zeroKey = some (List.replicate 32 0) := by
    rw [keyBytes_digits zeroKey_isHexKey, toList_zeroKey]
    decide +kernel
  have hsigned : parseKey sampleNewKey signedZeroKey = .ok (List.replicate 32 0) := by
    rw [parseKey_eq_ok_iff, trim_signedZeroKey]
    exact ⟨_, keyBytes_signedZeroKey, rfl⟩
  have hdigits : parseKey sampleNewKey zeroKey = .ok (List.replicate 32 0) := by
    rw [parseKey_eq_ok_iff, trim_zeroKey]
    exact ⟨_, hzero, rfl⟩
  have hhex : ¬ IsHexKey signedZeroKey := by
    intro h
    have hplus := h.2 '+' (by rw [toList_signedZeroKey]; decide)
    cases hplus
  refine ⟨hsigned, hdigits, hhex, ?_, ?_⟩
  · intro h
    rw [← trim_signedZeroKey] at hhex
    exact hhex (h.accepts.mp ⟨_, hsigned⟩)
  · rw [eqIgnoreAsciiCase, toList_signedZeroKey, toList_zeroKey]
    decide

end JobRunner
