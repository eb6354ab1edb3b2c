import Mathlib.Data.List.DropRight

/-!
# Text as Rust's standard library has it

- `trim`: `str::trim`, which removes the characters with the Unicode property
  `White_Space` at both ends.
- `stripPrefix`, `startsWith`, `splitOnce`, `trimEndMatches`, `eqIgnoreAsciiCase`: the `str`
  methods of these names.
- `startsWithSegment`: the text is a name, or the name followed by `/`.
- `utf8`, `fromUtf8`, `getRange`: `str::as_bytes`, `str::from_utf8` and `str::get`.
-/

namespace Text

/-- `char::is_whitespace`: the Unicode property `White_Space`. -/
def isWhitespace (c : Char) : Bool :=
  let n := c.toNat
  (9 ≤ n && n ≤ 13) || n = 0x20 || n = 0x85 || n = 0xA0 || n = 0x1680 ||
    (0x2000 ≤ n && n ≤ 0x200A) || n = 0x2028 || n = 0x2029 || n = 0x202F || n = 0x205F ||
    n = 0x3000

def trimChars (cs : List Char) : List Char :=
  (cs.dropWhile isWhitespace).rdropWhile isWhitespace

/-- `str::trim`. -/
def trim (s : String) : String := String.ofList (trimChars s.toList)

/-- A text without whitespace is not changed. -/
theorem trimChars_of_no_whitespace {cs : List Char} (h : ∀ c ∈ cs, isWhitespace c = false) :
    trimChars cs = cs := by
  have hfront : cs.dropWhile isWhitespace = cs := by
    rw [List.dropWhile_eq_self_iff]
    intro hl
    simp [h _ (List.getElem_mem hl)]
  have hback : cs.rdropWhile isWhitespace = cs := by
    rw [List.rdropWhile_eq_self_iff]
    intro hl
    simp [h _ (List.getLast_mem hl)]
  rw [trimChars, hfront, hback]

theorem trim_of_no_whitespace {s : String} (h : ∀ c ∈ s.toList, isWhitespace c = false) :
    trim s = s := by
  rw [trim, trimChars_of_no_whitespace h, String.ofList_toList]

/-- Trimming twice is trimming once. -/
theorem trimChars_trimChars (cs : List Char) : trimChars (trimChars cs) = trimChars cs := by
  have hfront : (trimChars cs).dropWhile isWhitespace = trimChars cs := by
    rw [List.dropWhile_eq_self_iff]
    intro hl
    have hprefix : trimChars cs <+: cs.dropWhile isWhitespace := List.rdropWhile_prefix _ _
    have hl' : 0 < (cs.dropWhile isWhitespace).length := hl.trans_le hprefix.length_le
    have hhead := List.dropWhile_get_zero_not isWhitespace cs hl'
    rwa [List.get_eq_getElem, ← hprefix.getElem hl] at hhead
  show ((trimChars cs).dropWhile isWhitespace).rdropWhile isWhitespace = _
  rw [hfront]
  exact List.rdropWhile_idempotent ..

theorem trim_trim (s : String) : trim (trim s) = trim s := by
  unfold trim
  rw [String.toList_ofList, trimChars_trimChars]

theorem rdropWhile_append_whitespace {w : List Char} (hw : ∀ c ∈ w, isWhitespace c = true)
    (cs : List Char) :
    (cs ++ w).rdropWhile isWhitespace = cs.rdropWhile isWhitespace := by
  have hrev : ∀ c ∈ w.reverse, isWhitespace c = true := fun c hc => hw c (List.mem_reverse.mp hc)
  show ((cs ++ w).reverse.dropWhile isWhitespace).reverse = _
  rw [List.reverse_append, List.dropWhile_append_of_pos hrev]
  rfl

/-- Whitespace around a text does not change what is left of it. -/
theorem trimChars_around {w₁ w₂ : List Char} (h₁ : ∀ c ∈ w₁, isWhitespace c = true)
    (h₂ : ∀ c ∈ w₂, isWhitespace c = true) (cs : List Char) :
    trimChars (w₁ ++ cs ++ w₂) = trimChars cs := by
  show ((w₁ ++ cs ++ w₂).dropWhile isWhitespace).rdropWhile isWhitespace = _
  rw [List.append_assoc, List.dropWhile_append_of_pos h₁, List.dropWhile_append]
  split
  next hblank =>
    rw [List.dropWhile_eq_nil_iff.mpr h₂, trimChars, List.isEmpty_iff.mp hblank]
  · exact rdropWhile_append_whitespace h₂ _

/-- All characters are whitespace. -/
def Blank (s : String) : Prop := ∀ c ∈ s.toList, isWhitespace c = true

theorem trim_around {w₁ w₂ : String} (h₁ : Blank w₁) (h₂ : Blank w₂) (s : String) :
    trim (w₁ ++ s ++ w₂) = trim s := by
  show String.ofList (trimChars (w₁ ++ s ++ w₂).toList) = _
  rw [String.toList_append, String.toList_append, trimChars_around h₁ h₂]
  rfl

/-- `str::strip_prefix`. -/
def stripPrefix (p s : String) : Option String :=
  if p.toList.isPrefixOf s.toList then some (String.ofList (s.toList.drop p.toList.length))
  else none

@[simp] theorem stripPrefix_append (p s : String) : stripPrefix p (p ++ s) = some s := by
  unfold stripPrefix
  rw [String.toList_append, if_pos (by simp), List.drop_left, String.ofList_toList]

theorem stripPrefix_eq_some_iff {p s rest : String} :
    stripPrefix p s = some rest ↔ s = p ++ rest := by
  constructor
  · intro h
    unfold stripPrefix at h
    split at h
    next hprefix =>
      obtain ⟨tail, htail⟩ := List.isPrefixOf_iff_prefix.mp hprefix
      rw [← htail, List.drop_left, Option.some_inj] at h
      rw [← h, ← String.toList_inj, String.toList_append, String.toList_ofList, htail]
    · cases h
  · rintro rfl
    exact stripPrefix_append p rest

/-- `str::starts_with`. -/
def startsWith (p s : String) : Bool := p.toList.isPrefixOf s.toList

theorem startsWith_iff {p s : String} : startsWith p s = true ↔ p.toList <+: s.toList :=
  List.isPrefixOf_iff_prefix

theorem startsWith_append {p s : String} (h : startsWith p s = true) (t : String) :
    startsWith p (s ++ t) = true := by
  rw [startsWith_iff] at h ⊢
  rw [String.toList_append]
  exact h.trans (List.prefix_append _ _)

/-- `str::split_once` of a character. -/
def splitOnce (c : Char) (s : String) : Option (String × String) :=
  match s.toList.dropWhile (· ≠ c) with
  | [] => none
  | _ :: rest => some (String.ofList (s.toList.takeWhile (· ≠ c)), String.ofList rest)

theorem splitOnce_eq_none_iff {c : Char} {s : String} :
    splitOnce c s = none ↔ c ∉ s.toList := by
  have hnone : s.toList.dropWhile (· ≠ c) = [] ↔ c ∉ s.toList := by
    simp only [List.dropWhile_eq_nil_iff, ne_eq, decide_not, Bool.not_eq_true',
      decide_eq_false_iff_not]
    exact ⟨fun h hc => h c hc rfl, fun h d hd heq => h (heq ▸ hd)⟩
  rw [← hnone, splitOnce]
  split
  next heq => exact iff_of_true rfl heq
  next heq => exact iff_of_false nofun fun hnil => nomatch heq.symm.trans hnil

/-- The text is cut at the first `c`: there is none in front of the cut, and all the
rest is behind it. -/
theorem splitOnce_eq_some_iff {c : Char} {s a b : String} :
    splitOnce c s = some (a, b) ↔ c ∉ a.toList ∧ s.toList = a.toList ++ c :: b.toList := by
  constructor
  · intro h
    rw [splitOnce] at h
    split at h
    · cases h
    next d rest hrest =>
      cases h
      have hd : d = c := by
        have hhead := List.head?_dropWhile_not (· ≠ c) s.toList
        rw [hrest] at hhead
        simpa using hhead
      refine ⟨fun hc => ?_, ?_⟩
      · rw [String.toList_ofList] at hc
        simpa using List.mem_takeWhile_imp hc
      · have hcut := List.takeWhile_append_dropWhile (p := (· ≠ c)) (l := s.toList)
        rw [hrest, hd] at hcut
        rw [String.toList_ofList, String.toList_ofList, hcut]
  · rintro ⟨hc, hs⟩
    have hbefore : ∀ d ∈ a.toList, decide (d ≠ c) = true := by
      intro d hd
      exact decide_eq_true fun heq => hc (heq ▸ hd)
    have hstop : (c :: b.toList).dropWhile (· ≠ c) = c :: b.toList :=
      List.dropWhile_cons_of_neg (by simp)
    have hnone : (c :: b.toList).takeWhile (· ≠ c) = [] :=
      List.takeWhile_cons_of_neg (by simp)
    rw [splitOnce, hs, List.dropWhile_append_of_pos hbefore, hstop,
      List.takeWhile_append_of_pos hbefore, hnone, List.append_nil, String.ofList_toList]
    exact congrArg (fun b => some (a, b)) String.ofList_toList

/-- `str::trim_end_matches` of a character. -/
def trimEndMatches (c : Char) (s : String) : String :=
  String.ofList (s.toList.rdropWhile (· = c))

/-- `str::eq_ignore_ascii_case`. -/
def eqIgnoreAsciiCase (s t : String) : Bool :=
  s.toList.map Char.toLower = t.toList.map Char.toLower

/-- `text == name || text.starts_with("{name}/")`. -/
def startsWithSegment (name text : String) : Bool :=
  text = name || (name.toList ++ ['/']).isPrefixOf text.toList

theorem startsWithSegment_iff {name text : String} : startsWithSegment name text = true ↔
    text.toList = name.toList ∨ name.toList ++ ['/'] <+: text.toList := by
  unfold startsWithSegment
  rw [Bool.or_eq_true, decide_eq_true_eq, List.isPrefixOf_iff_prefix, String.toList_inj]

/-- Of two names of one text, one begins with the other, at the end of a segment.
Neither need be the text itself. -/
theorem startsWithSegment_or {a b text : String} (ha : startsWithSegment a text = true)
    (hb : startsWithSegment b text = true) :
    startsWithSegment a b = true ∨ startsWithSegment b a = true := by
  rw [startsWithSegment_iff] at ha hb ⊢
  rw [startsWithSegment_iff]
  rcases ha with ha | ha
  · rw [ha] at hb
    exact .inr hb
  · rcases hb with hb | hb
    · rw [hb] at ha
      exact .inl (.inr ha)
    · rcases List.prefix_or_prefix_of_prefix ha hb with h | h
      · rcases List.prefix_concat_iff.mp h with heq | hpre
        · exact .inl (.inl (List.append_cancel_right heq).symm)
        · exact .inl (.inr hpre)
      · rcases List.prefix_concat_iff.mp h with heq | hpre
        · exact .inl (.inl (List.append_cancel_right heq))
        · exact .inr (.inr hpre)

/-- `str::as_bytes`. -/
def utf8 (s : String) : List UInt8 := s.toUTF8.data.toList

/-- `str::from_utf8`, without the error. -/
def fromUtf8 (bytes : List UInt8) : Option String := String.fromUTF8? ⟨bytes.toArray⟩

/-- Encoding loses nothing. -/
theorem fromUtf8_utf8 (s : String) : fromUtf8 (utf8 s) = some s := by
  show String.fromUTF8? s.toUTF8 = some s
  unfold String.fromUTF8?
  split
  · rfl
  · -- a string is valid UTF-8 by construction
    next h => exact absurd s.isValidUTF8 h

/-- A decoded text has the bytes it was decoded from. -/
theorem fromUtf8_eq_some_iff {bytes : List UInt8} {s : String} :
    fromUtf8 bytes = some s ↔ bytes = utf8 s := by
  constructor
  · intro h
    unfold fromUtf8 String.fromUTF8? at h
    split at h
    · cases h
      rfl
    · cases h
  · rintro rfl
    exact fromUtf8_utf8 s

theorem utf8_eq_flatMap (s : String) : utf8 s = s.toList.flatMap String.utf8EncodeChar := by
  show s.toByteArray.data.toList = _
  rw [← String.utf8Encode_toList, List.utf8Encode, List.data_toByteArray, List.toList_toArray]

theorem utf8_inj {s t : String} (h : utf8 s = utf8 t) : s = t := by
  have hread := congrArg fromUtf8 h
  rw [fromUtf8_utf8, fromUtf8_utf8, Option.some_inj] at hread
  exact hread

/-! ### ASCII -/

def Ascii (cs : List Char) : Prop := ∀ c ∈ cs, c.toNat < 128

theorem toUInt8_toNat {c : Char} (h : c.toNat < 128) : c.toUInt8.toNat = c.toNat := by
  show c.val.toUInt8.toNat = c.toNat
  rw [UInt32.toNat_toUInt8]
  exact Nat.mod_eq_of_lt (show c.toNat < 2 ^ 8 by omega)

/-- A byte for each character. -/
theorem utf8_ofList_ascii {cs : List Char} (h : Ascii cs) :
    utf8 (String.ofList cs) = cs.map Char.toUInt8 := by
  rw [utf8_eq_flatMap, String.toList_ofList]
  induction cs with
  | nil => rfl
  | cons c cs ih =>
    have hc : c.toNat < 128 := h c List.mem_cons_self
    have hsize : c.utf8Size = 1 := Char.utf8Size_eq_one_iff.mpr (by
      show c.toNat ≤ 127
      omega)
    rw [List.flatMap_cons, ih fun d hd => h d (List.mem_cons_of_mem c hd),
      String.utf8EncodeChar_eq_singleton hsize]
    rfl

/-- A text is ASCII if its bytes are. -/
theorem ascii_of_utf8 {s : String} (h : ∀ byte ∈ utf8 s, byte.toNat < 128) :
    Ascii s.toList ∧ utf8 s = s.toList.map Char.toUInt8 := by
  have hchar : ∀ byte ∈ utf8 s, (Char.ofNat byte.toNat).toNat = byte.toNat := by
    intro byte hbyte
    have := h byte hbyte
    have hvalid : byte.toNat.isValidChar := .inl (by omega)
    rw [Char.ofNat, dif_pos hvalid]
    rfl
  have hascii : Ascii ((utf8 s).map fun byte => Char.ofNat byte.toNat) := by
    intro c hc
    obtain ⟨byte, hbyte, rfl⟩ := List.mem_map.mp hc
    rw [hchar byte hbyte]
    exact h byte hbyte
  -- the text of these bytes, read as characters, has the same bytes
  have hs : String.ofList ((utf8 s).map fun byte => Char.ofNat byte.toNat) = s := by
    refine utf8_inj ?_
    rw [utf8_ofList_ascii hascii, List.map_map]
    refine (List.map_congr_left fun byte hbyte => ?_).trans (List.map_id _)
    show UInt8.ofNat (Char.ofNat byte.toNat).toNat = byte
    rw [hchar byte hbyte, UInt8.ofNat_toNat]
  rw [← hs, String.toList_ofList]
  exact ⟨hascii, utf8_ofList_ascii hascii⟩

/-! ### Ranges -/

/-- `str::is_char_boundary`. -/
def isCharBoundary (s : String) (index : Nat) : Bool :=
  index = 0 ||
    match (utf8 s)[index]? with
    | none => index = (utf8 s).length
    -- the other bytes continue a character
    | some byte => byte < 128 || 192 ≤ byte

/-- `str::get` of the range `start..stop`. -/
def getRange (s : String) (start stop : Nat) : Option String :=
  if start ≤ stop ∧ isCharBoundary s start = true ∧ isCharBoundary s stop = true then
    fromUtf8 (((utf8 s).drop start).take (stop - start))
  else none

theorem getRange_bytes {s t : String} {start stop : Nat} (h : getRange s start stop = some t) :
    utf8 t = ((utf8 s).drop start).take (stop - start) := by
  rw [getRange] at h
  split at h
  · exact (fromUtf8_eq_some_iff.mp h).symm
  · cases h

/-- In ASCII every range can be cut out, since every byte is the beginning of a
character. -/
theorem getRange_ascii {s : String} (h : Ascii s.toList) {start stop : Nat}
    (hle : start ≤ stop) (hstop : stop ≤ (utf8 s).length) :
    ∃ t, getRange s start stop = some t := by
  have hbytes : utf8 s = s.toList.map Char.toUInt8 := by
    rw [← utf8_ofList_ascii h, String.ofList_toList]
  have hboundary : ∀ index ≤ (utf8 s).length, isCharBoundary s index = true := by
    intro index hindex
    -- no byte continues a character
    rcases Nat.lt_or_eq_of_le hindex with hlt | heq
    · have hmem := List.getElem_mem hlt
      obtain ⟨byte, hbyte⟩ : ∃ byte, byte = (utf8 s)[index] := ⟨_, rfl⟩
      rw [← hbyte, hbytes] at hmem
      obtain ⟨c, hc, rfl⟩ := List.mem_map.mp hmem
      have hsmall : c.toUInt8 < 128 := by
        rw [UInt8.lt_iff_toNat_lt, toUInt8_toNat (h c hc)]
        exact h c hc
      rw [isCharBoundary, List.getElem?_eq_getElem hlt, ← hbyte]
      simp [hsmall]
    · rw [isCharBoundary, heq, List.getElem?_eq_none (Nat.le_refl _)]
      simp
  have hslice : Ascii ((s.toList.drop start).take (stop - start)) := fun c hc =>
    h c (List.mem_of_mem_drop (List.mem_of_mem_take hc))
  refine ⟨String.ofList ((s.toList.drop start).take (stop - start)), ?_⟩
  rw [getRange, if_pos ⟨hle, hboundary start (hle.trans hstop), hboundary stop hstop⟩,
    fromUtf8_eq_some_iff, utf8_ofList_ascii hslice, hbytes, List.map_take, List.map_drop]

end Text
