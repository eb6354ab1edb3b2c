import Mathlib.Data.List.Basic

/-!
# Text with quoted literals

A statement is fixed text with literals in it. A literal stands between two quotes, and a
quote of its contents is doubled. A reader who knows only that finds the literals again.

- `Piece`, `Piece.write`: how a statement is put together.
- `Token`, `scan`: how it is read.
- `Apart`: no quote in fixed text, and no two literals side by side.
- `scan_write`: the reader finds the pieces.
-/

namespace Quoted

variable {α : Type}

/-- A symbol outside of literals, or the contents of a literal. -/
inductive Token (α : Type) where
  | plain (a : α)
  | literal (content : List α)
deriving DecidableEq, Repr

inductive Piece (α : Type) where
  | fixed (text : List α)
  | quoted (content : List α)
deriving DecidableEq, Repr

/-- What a reader is to find of a piece. -/
def Piece.tokens : Piece α → List (Token α)
  | fixed text => text.map Token.plain
  | quoted content => [Token.literal content]

variable [DecidableEq α] (q : α)

/-- A quote is doubled. -/
def double (content : List α) : List α := content.flatMap fun a => if a = q then [a, a] else [a]

def Piece.write : Piece α → List α
  | fixed text => text
  | quoted content => q :: (double q content ++ [q])

/-- Reads on, outside of literals or inside of one that has begun with `acc`; there is no
reading of a text that ends inside a literal. -/
def scan : Option (List α) → List α → Option (List (Token α))
  | none, [] => some []
  | none, a :: rest =>
    if a = q then scan (some []) rest else (scan none rest).map (Token.plain a :: ·)
  | some _, [] => none
  | some acc, [a] => if a = q then some [Token.literal acc] else none
  | some acc, a :: b :: rest =>
    if a = q then
      if b = q then scan (some (acc ++ [a])) rest
      else (scan none (b :: rest)).map (Token.literal acc :: ·)
    else scan (some (acc ++ [a])) (b :: rest)

/-- No quote in fixed text, and fixed text behind every literal but the last. -/
inductive Apart : List (Piece α) → Prop
  | nil : Apart []
  | last (content : List α) : Apart [.quoted content]
  | fixed {text : List α} {rest : List (Piece α)} : q ∉ text → Apart rest →
    Apart (.fixed text :: rest)
  | quoted {text : List α} {rest : List (Piece α)} (content : List α) : text ≠ [] →
    Apart (.fixed text :: rest) → Apart (.quoted content :: .fixed text :: rest)

variable {q} {text rest acc content : List α} {a : α} {pieces : List (Piece α)}

/-! ## Reading -/

theorem scan_plain (h : q ∉ text) (rest : List α) :
    scan q none (text ++ rest) = (scan q none rest).map (text.map Token.plain ++ ·) := by
  induction text with
  | nil =>
    show scan q none rest = (scan q none rest).map id
    rw [Option.map_id_apply]
  | cons a text ih =>
    have ha : a ≠ q := fun heq => h (heq ▸ List.mem_cons_self)
    have htext : q ∉ text := fun hmem => h (List.mem_cons_of_mem _ hmem)
    rw [List.cons_append, scan, if_neg ha, ih htext, Option.map_map]
    rfl

/-- A symbol of a literal. -/
theorem scan_symbol (ha : a ≠ q) (acc rest : List α) :
    scan q (some acc) (a :: rest) = scan q (some (acc ++ [a])) rest := by
  cases rest with
  | nil => rw [scan, scan, if_neg ha]
  | cons b rest => rw [scan, if_neg ha]

theorem scan_doubled (acc rest : List α) :
    scan q (some acc) (q :: q :: rest) = scan q (some (acc ++ [q])) rest := by
  rw [scan, if_pos rfl, if_pos rfl]

/-- The quote at the end, if no other follows. -/
theorem scan_close (h : ∀ a ∈ rest.head?, a ≠ q) (acc : List α) :
    scan q (some acc) (q :: rest) = (scan q none rest).map (Token.literal acc :: ·) := by
  cases rest with
  | nil => simp [scan]
  | cons b rest =>
    conv_lhs => rw [scan, if_pos rfl, if_neg (h b rfl)]

/-- A literal ends where it was closed, whatever its contents. -/
theorem scan_double (h : ∀ a ∈ rest.head?, a ≠ q) (acc content : List α) :
    scan q (some acc) (double q content ++ q :: rest) =
      (scan q none rest).map (Token.literal (acc ++ content) :: ·) := by
  induction content generalizing acc with
  | nil =>
    rw [List.append_nil]
    exact scan_close h acc
  | cons a content ih =>
    show scan q (some acc) (((if a = q then [a, a] else [a]) ++ double q content) ++ q :: rest) = _
    have happend : acc ++ a :: content = acc ++ [a] ++ content := by
      rw [List.append_assoc, List.singleton_append]
    rw [happend, ← ih]
    split
    next ha =>
      subst ha
      exact scan_doubled acc _
    next ha => exact scan_symbol ha acc _

theorem scan_quoted (h : ∀ a ∈ rest.head?, a ≠ q) (content : List α) :
    scan q none ((Piece.quoted content).write q ++ rest) =
      (scan q none rest).map (Token.literal content :: ·) := by
  show scan q none (q :: (double q content ++ [q]) ++ rest) = _
  rw [List.cons_append, List.append_assoc, List.singleton_append]
  conv_lhs => rw [scan, if_pos rfl]
  rw [scan_double h, List.nil_append]

/-- **A reader finds the pieces.** Contents of literals stay contents of literals,
whatever they contain, as long as no two literals touch. -/
theorem scan_write (h : Apart q pieces) :
    scan q none (pieces.flatMap (Piece.write q)) = some (pieces.flatMap Piece.tokens) := by
  induction h with
  | nil => rfl
  | last content =>
    have hend : ∀ a ∈ ([] : List α).head?, a ≠ q := by simp
    rw [List.flatMap_singleton, List.flatMap_singleton, ← List.append_nil (Piece.write q _),
      scan_quoted hend]
    rfl
  | fixed htext _ ih =>
    rw [List.flatMap_cons, List.flatMap_cons, Piece.write, scan_plain htext, ih]
    rfl
  | @quoted text rest content hne hrest ih =>
    -- the fixed text behind the literal begins with no quote
    have hhead : ∀ b ∈ ((Piece.fixed text :: rest).flatMap (Piece.write q)).head?, b ≠ q := by
      rintro b hb rfl
      cases hrest with
      | fixed htext _ =>
        obtain ⟨a, text, rfl⟩ := List.exists_cons_of_ne_nil hne
        rw [List.flatMap_cons] at hb
        cases hb
        exact htext List.mem_cons_self
    rw [List.flatMap_cons, scan_quoted hhead, ih, List.flatMap_cons (x := Piece.quoted content)]
    rfl

end Quoted
