import Mathlib.Data.List.Basic

/-!
# Escaped and separated text

Some symbols are written as a mark and a code, so that they can be used as separators or
delimiters around the text.

- `Escaping`: which symbols have a code, and what a code stands for.
- `encode`, `decode`: the two directions.
- `decode_encode`: one undoes the other.
- `not_mem_encode`: what an encoded text is free of.
- `mem_intercalate`: what separated texts are made of.
-/

/-- The mark has a code too, and codes can be told apart. -/
structure Escaping (α : Type) where
  mark : α
  code : α → Option α
  uncode : α → α
  mark_coded : (code mark).isSome = true
  uncode_code : ∀ {a b}, code a = some b → uncode b = a

namespace Escaping

variable {α : Type} (E : Escaping α)

/-- One symbol. -/
def symbol (a : α) : List α :=
  match E.code a with
  | some b => [E.mark, b]
  | none => [a]

def encode (text : List α) : List α := text.flatMap E.symbol

/-- A mark at the end stands for itself. -/
def decode [DecidableEq α] : List α → List α
  | [] => []
  | [a] => [a]
  | a :: b :: rest => if a = E.mark then E.uncode b :: decode rest else a :: decode (b :: rest)

variable {E}

theorem decode_mark [DecidableEq α] (b : α) (rest : List α) :
    E.decode (E.mark :: b :: rest) = E.uncode b :: E.decode rest := by
  rw [decode, if_pos rfl]

theorem decode_cons [DecidableEq α] {a : α} (h : a ≠ E.mark) (rest : List α) :
    E.decode (a :: rest) = a :: E.decode rest := by
  cases rest with
  | nil => rfl
  | cons b rest => rw [decode, if_neg h]

/-- A symbol without a code is not the mark. -/
theorem ne_mark_of_code_none {a : α} (h : E.code a = none) : a ≠ E.mark := by
  rintro rfl
  have hmark := E.mark_coded
  rw [h] at hmark
  cases hmark

/-- **Escapes are undone.** The mark itself is escaped, so a mark in the text is
never taken for the beginning of an escape. -/
theorem decode_encode [DecidableEq α] (text : List α) : E.decode (E.encode text) = text := by
  induction text with
  | nil => rfl
  | cons a text ih =>
    show E.decode (E.symbol a ++ E.encode text) = a :: text
    unfold symbol
    rcases hcode : E.code a with _ | b
    · show E.decode (a :: E.encode text) = _
      rw [decode_cons (ne_mark_of_code_none hcode), ih]
    · show E.decode (E.mark :: b :: E.encode text) = _
      rw [decode_mark, E.uncode_code hcode, ih]

/-- A coded symbol that is neither the mark nor a code does not occur, so it can
separate texts that have been escaped. -/
theorem not_mem_encode {a : α} (hcoded : (E.code a).isSome = true) (hmark : a ≠ E.mark)
    (hcode : ∀ b, E.code b ≠ some a) (text : List α) : a ∉ E.encode text := by
  intro hmem
  obtain ⟨b, -, hb⟩ := List.mem_flatMap.mp hmem
  unfold symbol at hb
  rcases hb' : E.code b with _ | d
  · rw [hb', List.mem_singleton] at hb
    rw [hb, hb'] at hcoded
    cases hcoded
  · rw [hb'] at hb
    rcases List.mem_cons.mp hb with h | h
    · exact hmark h
    · rw [List.mem_singleton.mp h] at hcode
      exact hcode b hb'

end Escaping

/-! ## Separated texts -/

namespace List

variable {α : Type}

theorem mem_intercalate {a : α} {sep : List α} {texts : List (List α)}
    (h : a ∈ sep.intercalate texts) : a ∈ sep ∨ ∃ text ∈ texts, a ∈ text := by
  induction texts with
  | nil => cases h
  | cons text texts ih =>
    cases texts with
    | nil =>
      rw [intercalate_singleton] at h
      exact .inr ⟨text, mem_cons_self, h⟩
    | cons next texts =>
      rw [intercalate_cons_cons, mem_append, mem_append] at h
      rcases h with (h | h) | h
      · exact .inr ⟨text, mem_cons_self, h⟩
      · exact .inl h
      · rcases ih h with hsep | ⟨text', htext', h'⟩
        · exact .inl hsep
        · exact .inr ⟨text', mem_cons_of_mem _ htext', h'⟩

theorem intercalate_append_cons (sep start text : List α) (texts : List (List α)) :
    sep.intercalate ((start ++ text) :: texts) = start ++ sep.intercalate (text :: texts) := by
  cases texts with
  | nil => rw [intercalate_singleton, intercalate_singleton]
  | cons next texts => simp only [intercalate_cons_cons, append_assoc]

/-- A last text that is cut short. -/
theorem intercalate_prefix (sep : List α) (texts : List (List α)) {cut text : List α}
    (h : cut <+: text) :
    sep.intercalate (texts ++ [cut]) <+: sep.intercalate (texts ++ [text]) := by
  induction texts with
  | nil => simpa only [nil_append, intercalate_singleton] using h
  | cons first texts ih =>
    cases texts with
    | nil =>
      simp only [cons_append, nil_append, intercalate_cons_cons, intercalate_singleton]
      exact (prefix_append_right_inj _).mpr h
    | cons second texts =>
      simp only [cons_append, intercalate_cons_cons] at ih ⊢
      exact (prefix_append_right_inj _).mpr ih

end List
