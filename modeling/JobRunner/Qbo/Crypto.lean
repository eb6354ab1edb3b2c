import JobRunner.Lib.Base64
import JobRunner.Lib.Text

/-!
# Stored QuickBooks values (`decrypt` / `encrypt`)

The chat application stores tokens and credentials as the base64 text of
`iv(12) | tag(16) | ciphertext`, encrypted with AES-256-GCM. The cipher is `ring`'s and
the text encoding is the `base64` crate's; the model takes both as a parameter `Crypto`
with the facts the code relies on, `Crypto.Lawful`.

- `decrypt`, `encrypt`: the two functions.
- `decrypt_eq_some_iff`: the format that `decrypt` accepts.
- `decrypt_encrypt`: what `encrypt` wrote, `decrypt` reads.
-/

open Text

namespace JobRunner

/-- `QboError`; the driver's error inside `Database` is not kept. -/
inductive QboError where
  | config (text : String)
  | decrypt (value : String)
  | database
  | http (text : String)
deriving DecidableEq, Repr

/-- What the code uses of `ring::aead` with `AES_256_GCM` and empty associated
data: `seal_in_place_separate_tag`, which gives ciphertext and tag, and
`open_in_place`, which takes `ciphertext | tag`. -/
structure Aead where
  /-- `LessSafeKey`. -/
  Key : Type
  sealInPlaceSeparateTag : Key → List UInt8 → List UInt8 → Option (List UInt8 × List UInt8)
  openInPlace : Key → List UInt8 → List UInt8 → Option (List UInt8)

/-- Open undoes seal, and a tag has sixteen bytes. -/
structure Aead.Lawful (A : Aead) : Prop where
  open_seal : ∀ {key iv plain ciphertext tag},
    A.sealInPlaceSeparateTag key iv plain = some (ciphertext, tag) →
      A.openInPlace key iv (ciphertext ++ tag) = some plain
  tag_length : ∀ {key iv plain ciphertext tag},
    A.sealInPlaceSeparateTag key iv plain = some (ciphertext, tag) → tag.length = 16

/-- The cipher, and `base64::engine::general_purpose::STANDARD`. -/
structure Crypto extends Aead, Base64.Engine

structure Crypto.Lawful (A : Crypto) : Prop where
  aead : A.toAead.Lawful
  base64 : A.toEngine.Lawful

/-- `NONCE_LEN`. -/
def nonceLen : Nat := 12

/-- `TAG_LEN`. -/
def tagLen : Nat := 16

/-- A nonce as `encrypt` fills it. -/
abbrev Nonce := Vector UInt8 nonceLen

variable (A : Crypto)

/-- `decrypt`: the stored bytes are the base64 text, whitespace around it is
ignored. -/
def decrypt (key : A.Key) (stored : List UInt8) : Option String := do
  let text ← fromUtf8 stored
  let bytes ← A.decode (trim text).toList
  if bytes.length < nonceLen + tagLen then none
  else
    let (iv, rest) := bytes.splitAt nonceLen
    let (tag, ciphertext) := rest.splitAt tagLen
    -- `ring` wants `ciphertext | tag`
    let plain ← A.openInPlace key iv (ciphertext ++ tag)
    fromUtf8 plain

/-- `encrypt`; `iv` is what the system's randomness filled the nonce with, if it
could. -/
def encrypt (key : A.Key) (iv : Option Nonce) (text : String) : Except QboError String :=
  match iv with
  | none => .error (.config "no system randomness")
  | some iv =>
    match A.sealInPlaceSeparateTag key iv.toList (utf8 text) with
    | none => .error (.config "encryption failed")
    | some (ciphertext, tag) =>
      .ok (String.ofList (A.encode (iv.toList ++ tag ++ ciphertext)))

variable {A} {key : A.Key}

/-! ## The format -/

/-- The bytes are the format of something that opens to `text`. -/
def StoredAs (A : Crypto) (key : A.Key) (bytes : List UInt8) (text : String) : Prop :=
  ∃ (stored : String) (iv tag ciphertext : List UInt8), bytes = utf8 stored ∧
    A.decode (trim stored).toList = some (iv ++ tag ++ ciphertext) ∧
    iv.length = nonceLen ∧ tag.length = tagLen ∧
    A.openInPlace key iv (ciphertext ++ tag) = some (utf8 text)

/-- The two splits of `decrypt`. -/
theorem split_parts {iv tag : List UInt8} (hiv : iv.length = nonceLen)
    (htag : tag.length = tagLen) (ciphertext : List UInt8) :
    (iv ++ tag ++ ciphertext).splitAt nonceLen = (iv, tag ++ ciphertext) ∧
      (tag ++ ciphertext).splitAt tagLen = (tag, ciphertext) := by
  constructor
  · rw [List.append_assoc, List.splitAt_eq, List.take_left' hiv, List.drop_left' hiv]
  · rw [List.splitAt_eq, List.take_left' htag, List.drop_left' htag]

/-- Bytes that are long enough have the three parts. -/
theorem exists_parts {bytes : List UInt8} (h : ¬ bytes.length < nonceLen + tagLen) :
    ∃ iv tag ciphertext, bytes = iv ++ tag ++ ciphertext ∧ iv.length = nonceLen ∧
      tag.length = tagLen := by
  refine ⟨bytes.take nonceLen, (bytes.drop nonceLen).take tagLen,
    (bytes.drop nonceLen).drop tagLen, ?_, ?_, ?_⟩
  · rw [List.append_assoc, List.take_append_drop, List.take_append_drop]
  · rw [List.length_take]
    omega
  · rw [List.length_take, List.length_drop]
    omega

/-- **`decrypt` accepts its format**, and nothing else: nonce, tag and ciphertext in
this order, which open under the key to a text. -/
theorem decrypt_eq_some_iff {bytes : List UInt8} {text : String} :
    decrypt A key bytes = some text ↔ StoredAs A key bytes text := by
  constructor
  · intro h
    unfold decrypt at h
    obtain ⟨stored, hstored, h⟩ := Option.bind_eq_some_iff.mp h
    obtain ⟨parts, hparts, h⟩ := Option.bind_eq_some_iff.mp h
    split at h
    · cases h
    next hlen =>
    obtain ⟨iv, tag, ciphertext, rfl, hiv, htag⟩ := exists_parts hlen
    obtain ⟨hsplit, hsplit'⟩ := split_parts hiv htag ciphertext
    simp only [hsplit, hsplit'] at h
    obtain ⟨plain, hopen, hplain⟩ := Option.bind_eq_some_iff.mp h
    rw [fromUtf8_eq_some_iff.mp hplain] at hopen
    exact ⟨stored, iv, tag, ciphertext, fromUtf8_eq_some_iff.mp hstored, hparts, hiv, htag, hopen⟩
  · rintro ⟨stored, iv, tag, ciphertext, rfl, hparts, hiv, htag, hopen⟩
    obtain ⟨hsplit, hsplit'⟩ := split_parts hiv htag ciphertext
    have hlen : ¬ (iv ++ tag ++ ciphertext).length < nonceLen + tagLen := by
      rw [List.length_append, List.length_append]
      omega
    simp only [decrypt, fromUtf8_utf8, Option.bind_eq_bind, Option.bind_some, hparts, if_neg hlen,
      hsplit, hsplit', hopen]

/-- Whitespace around a stored value plays no part. -/
theorem decrypt_around {w₁ w₂ : String} (h₁ : Blank w₁) (h₂ : Blank w₂) (stored : String) :
    decrypt A key (utf8 (w₁ ++ stored ++ w₂)) = decrypt A key (utf8 stored) := by
  unfold decrypt
  simp only [fromUtf8_utf8, Option.bind_eq_bind, Option.bind_some, trim_around h₁ h₂]

/-! ## The round trip -/

/-- A successful `encrypt` sealed the text under the nonce it drew. -/
theorem encrypt_ok {iv : Option Nonce} {text stored : String}
    (h : encrypt A key iv text = .ok stored) :
    ∃ nonce ciphertext tag, iv = some nonce ∧
      A.sealInPlaceSeparateTag key nonce.toList (utf8 text) = some (ciphertext, tag) ∧
      stored = String.ofList (A.encode (nonce.toList ++ tag ++ ciphertext)) := by
  cases iv with
  | none => cases h
  | some nonce =>
    rcases hseal : A.sealInPlaceSeparateTag key nonce.toList (utf8 text) with _ | ⟨c, t⟩
    · simp [encrypt, hseal] at h
    · refine ⟨nonce, c, t, rfl, hseal, ?_⟩
      simpa [encrypt, hseal] using h.symm

/-- Base64 text has no whitespace that `trim` could remove, as its symbols and the
padding are none. -/
theorem trim_encode (hA : A.Lawful) (bytes : List UInt8) :
    (trim (String.ofList (A.encode bytes))).toList = A.encode bytes := by
  have hsymbols : (Base64.alphabet.all fun c => !isWhitespace c) = true := by decide +kernel
  have hnone : ∀ c ∈ A.encode bytes, isWhitespace c = false := by
    intro c hc
    rcases hA.base64.mem_alphabet bytes c hc with hmem | rfl
    · simpa using List.all_eq_true.mp hsymbols c hmem
    · decide
  simp only [trim, String.toList_ofList]
  exact trimChars_of_no_whitespace hnone

/-- **What `encrypt` wrote, `decrypt` reads.** -/
theorem decrypt_encrypt (hA : A.Lawful) {iv : Option Nonce}
    {text stored : String} (h : encrypt A key iv text = .ok stored) :
    decrypt A key (utf8 stored) = some text := by
  obtain ⟨nonce, ciphertext, tag, -, hseal, rfl⟩ := encrypt_ok h
  refine decrypt_eq_some_iff.mpr ⟨_, nonce.toList, tag, ciphertext, rfl, ?_, nonce.length_toList,
    hA.aead.tag_length hseal, hA.aead.open_seal hseal⟩
  rw [trim_encode hA, hA.base64.decode_encode]

/-! ## A lawful cipher for concrete runs -/

/-- Every byte is combined with the key, and the tag repeats the key. -/
def sampleCrypto : Crypto where
  Key := UInt8
  sealInPlaceSeparateTag key _ plain :=
    some (plain.map (· ^^^ key), List.replicate tagLen key)
  openInPlace key _ sealed :=
    let n := sealed.length - tagLen
    if sealed.drop n = List.replicate tagLen key then some ((sealed.take n).map (· ^^^ key))
    else none
  toEngine := Base64.standard

def sampleKey : sampleCrypto.Key := (5 : UInt8)

theorem sampleCrypto_lawful : sampleCrypto.Lawful where
  aead.open_seal := by
    rintro (key : UInt8) iv plain ciphertext tag h
    cases h
    have hlen : (plain.map (· ^^^ key) ++ List.replicate tagLen key).length - tagLen =
        (plain.map (· ^^^ key)).length := by
      rw [List.length_append, List.length_replicate, Nat.add_sub_cancel]
    have hxor : ((· ^^^ key) ∘ (· ^^^ key) : UInt8 → UInt8) = id := by
      funext byte
      show byte ^^^ key ^^^ key = byte
      rw [UInt8.xor_assoc, UInt8.xor_self, UInt8.xor_zero]
    show (if _ then some _ else none) = _
    rw [hlen, List.drop_left, if_pos rfl, List.take_left, List.map_map, hxor, List.map_id]
  aead.tag_length := by
    rintro (key : UInt8) iv plain ciphertext tag h
    cases h
    exact List.length_replicate
  base64 := Base64.standard_lawful

end JobRunner
