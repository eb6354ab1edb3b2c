import Mathlib.Data.List.Infix

/-!
# Splitting a list at a pattern

`str::split_once` of a pattern of several characters, over lists: the part before the first
occurrence of the pattern and the part after it.

- `splitOnce_eq_some_iff`: the two parts, and that no occurrence starts earlier.
- `splitOnce_append_of_notMem`, `splitOnce_append_pair`, `splitOnce_pattern`: what stands
  before the pattern is passed over piece by piece.
- `splitOnce_lines`: lines that are not empty hide no blank line.
- `append_last_inj`: the last separator.
- `splitOn_prefix`: what a cut leaves of the pieces between separators.
-/

namespace Split

open List

universe u

variable {α : Type u} [DecidableEq α]

/-- The parts before and after the first occurrence of `sep`. -/
def splitOnce (sep : List α) : List α → Option (List α × List α)
  | [] => if sep = [] then some ([], []) else none
  | c :: cs =>
    if sep <+: c :: cs then some ([], (c :: cs).drop sep.length)
    else (splitOnce sep cs).map fun (a, b) => (c :: a, b)

/-- **What a split is.** -/
theorem splitOnce_eq_some_iff {sep : List α} (hsep : sep ≠ []) {cs a b : List α} :
    splitOnce sep cs = some (a, b) ↔
      cs = a ++ sep ++ b ∧ ∀ i < a.length, ¬sep <+: cs.drop i := by
  induction cs generalizing a with
  | nil =>
    rw [splitOnce, if_neg hsep]
    refine iff_of_false (by simp) ?_
    rintro ⟨h, -⟩
    have hnil := append_eq_nil_iff.mp (append_eq_nil_iff.mp h.symm).1
    exact hsep hnil.2
  | cons c cs ih =>
    rw [splitOnce]
    by_cases hpre : sep <+: c :: cs
    · rw [if_pos hpre]
      constructor
      · intro h
        cases h
        obtain ⟨rest, hrest⟩ := hpre
        refine ⟨?_, by simp⟩
        rw [← hrest, drop_left, nil_append]
      · rintro ⟨h, hfirst⟩
        cases a with
        | nil => rw [h, nil_append, drop_left]
        | cons d a => exact absurd hpre (hfirst 0 (Nat.succ_pos _))
    · rw [if_neg hpre]
      cases a with
      | nil =>
        refine iff_of_false (by simp) ?_
        rintro ⟨h, -⟩
        exact hpre ⟨b, h.symm⟩
      | cons d a =>
        constructor
        · intro h
          obtain ⟨⟨a', b'⟩, hsplit, heq⟩ := Option.map_eq_some_iff.mp h
          cases heq
          obtain ⟨rfl, hfirst⟩ := ih.mp hsplit
          refine ⟨rfl, fun i hi => ?_⟩
          cases i with
          | zero => exact hpre
          | succ i => exact hfirst i (Nat.lt_of_succ_lt_succ hi)
        · rintro ⟨h, hfirst⟩
          have hcs : c = d ∧ cs = a ++ sep ++ b := by simpa using h
          obtain ⟨rfl, rfl⟩ := hcs
          rw [ih.mpr ⟨rfl, fun i hi => hfirst (i + 1) (Nat.succ_lt_succ hi)⟩]
          rfl

theorem splitOnce_pattern {sep : List α} (hsep : sep ≠ []) (b : List α) :
    splitOnce sep (sep ++ b) = some ([], b) :=
  (splitOnce_eq_some_iff hsep).mpr ⟨rfl, by simp⟩

/-- What does not start the pattern is passed over. -/
theorem splitOnce_append_of_notMem {c : α} {sep w : List α} (hw : c ∉ w) (rest : List α) :
    splitOnce (c :: sep) (w ++ rest) =
      (splitOnce (c :: sep) rest).map fun (a, b) => (w ++ a, b) := by
  induction w with
  | nil => simp
  | cons d w ih =>
    have hne : ¬c :: sep <+: d :: (w ++ rest) := by
      rw [cons_prefix_cons]
      rintro ⟨rfl, -⟩
      exact hw (mem_cons_self ..)
    rw [cons_append, splitOnce, if_neg hne, ih fun hmem => hw (mem_cons_of_mem d hmem),
      Option.map_map]
    rfl

/-- A line end with more of a line behind it is passed over. -/
theorem splitOnce_append_pair {c d e : α} (hcd : c ≠ d) (hce : e ≠ c) (rest : List α) :
    splitOnce [c, d, c, d] (c :: d :: e :: rest) =
      (splitOnce [c, d, c, d] (e :: rest)).map fun (a, b) => (c :: d :: a, b) := by
  have h₁ : ¬[c, d, c, d] <+: c :: d :: e :: rest := by
    simp only [cons_prefix_cons, true_and]
    exact fun h => hce h.1.symm
  have h₂ : ¬[c, d, c, d] <+: d :: e :: rest := by
    rw [cons_prefix_cons]
    exact fun h => hcd h.1
  rw [splitOnce, if_neg h₁, splitOnce, if_neg h₂, Option.map_map]
  rfl

/-- **Lines hide no blank line.** Lines of a head, each with something in it and no
line end, are followed by the first blank line, whatever comes behind it. By
induction on the lines. -/
theorem splitOnce_lines {c d : α} (hcd : c ≠ d) {lines : List (List α)} (hne : lines ≠ [])
    (hlines : ∀ l ∈ lines, l ≠ [] ∧ c ∉ l) (rest : List α) :
    splitOnce [c, d, c, d] ([c, d].intercalate lines ++ [c, d, c, d] ++ rest) =
      some ([c, d].intercalate lines, rest) := by
  induction lines with
  | nil => exact absurd rfl hne
  | cons l lines ih =>
    obtain ⟨hl, hc⟩ := hlines l (mem_cons_self ..)
    cases lines with
    | nil =>
      rw [intercalate_singleton, append_assoc, splitOnce_append_of_notMem hc,
        splitOnce_pattern (by simp)]
      simp
    | cons l' lines =>
      have hrec := ih (cons_ne_nil _ _) fun m hm => hlines m (mem_cons_of_mem l hm)
      have hjoin : [c, d].intercalate (l :: l' :: lines) =
          l ++ c :: d :: [c, d].intercalate (l' :: lines) := by
        simp [intercalate_cons_cons]
      -- the line behind the line end does not start with one
      obtain ⟨hl', hc'⟩ := hlines l' (mem_cons_of_mem l (mem_cons_self ..))
      obtain ⟨e, tail, htail⟩ : ∃ e tail,
          [c, d].intercalate (l' :: lines) ++ [c, d, c, d] ++ rest = e :: tail ∧ e ≠ c := by
        obtain ⟨e, l₀, rfl⟩ := exists_cons_of_ne_nil hl'
        have hec : e ≠ c := fun h => hc' (h ▸ mem_cons_self ..)
        cases lines with
        | nil => exact ⟨e, _, by rw [intercalate_singleton]; rfl, hec⟩
        | cons l'' lines => exact ⟨e, _, by rw [intercalate_cons_cons]; rfl, hec⟩
      obtain ⟨htail, hec⟩ := htail
      rw [hjoin, append_assoc, append_assoc, splitOnce_append_of_notMem hc, cons_append,
        cons_append, ← append_assoc, htail, splitOnce_append_pair hcd hec, ← htail, hrec]
      rfl

omit [DecidableEq α] in
/-- The last separator of a list splits it in one way. -/
theorem append_last_inj {c : α} {a a' b b' : List α} (hb : c ∉ b) (hb' : c ∉ b')
    (h : a ++ c :: b = a' ++ c :: b') : a = a' ∧ b = b' := by
  rcases append_eq_append_iff.mp h with ⟨w, rfl, hw⟩ | ⟨w, rfl, hw⟩
  · cases w with
    | nil => exact ⟨(append_nil a).symm, (cons.inj hw).2⟩
    | cons d w =>
      have hmem : c ∈ b := by rw [(cons.inj hw).2]; simp
      exact absurd hmem hb
  · cases w with
    | nil => exact ⟨append_nil a', (cons.inj hw).2.symm⟩
    | cons d w =>
      have hmem : c ∈ b' := by rw [(cons.inj hw).2]; simp
      exact absurd hmem hb'

/-- A list that is cut has the same pieces up to the one in which the cut is. That
piece is cut as well, and what is behind it is gone. -/
theorem splitOn_prefix {c : α} {xs ys : List α} (h : ys <+: xs) :
    ∃ pieces cut piece rest, ys.splitOn c = pieces ++ [cut] ∧
      xs.splitOn c = pieces ++ piece :: rest ∧ cut <+: piece := by
  induction ys generalizing xs with
  | nil =>
    obtain ⟨piece, rest, hsplit⟩ := exists_cons_of_ne_nil (splitOn_ne_nil c xs)
    exact ⟨[], [], piece, rest, splitOn_nil c, hsplit, nil_prefix⟩
  | cons y ys ih =>
    obtain ⟨xs, rfl⟩ := h
    obtain ⟨pieces, cut, piece, rest, hys, hxs, hcut⟩ := ih (prefix_append ys xs)
    rw [cons_append, splitOn_cons_eq_if_modifyHead, splitOn_cons_eq_if_modifyHead, hys, hxs]
    by_cases hy : (y == c) = true
    · rw [if_pos hy, if_pos hy]
      exact ⟨[] :: pieces, cut, piece, rest, rfl, rfl, hcut⟩
    · rw [if_neg hy, if_neg hy]
      cases pieces with
      | nil => exact ⟨[], y :: cut, y :: piece, rest, rfl, rfl, (prefix_cons_inj y).mpr hcut⟩
      | cons l pieces => exact ⟨(y :: l) :: pieces, cut, piece, rest, rfl, rfl, hcut⟩

end Split
