import Mathlib.Logic.Function.Basic

/-!
# Row locks held from a read to a write-back

Clients lock a row (`SELECT … FOR UPDATE`), read its committed value, and either
leave it or commit a new one; both release the lock. What each client has locked and
read is its *view*.

- `Rows.acquire`, `Rows.release`, `Rows.commit`: the three operations.
- `Coherent`: the lock's holder is the one client with a view of the row, and what it
  read is still the committed value.
- `Coherent.acquire`, `Coherent.release`, `Coherent.commit`: every operation keeps it.
- `Coherent.exclusive`: no two clients have a view of one row.
-/

namespace RowLock

universe u v w

/-- The committed value of every row, and who holds its lock. -/
structure Rows (κ : Type u) (ρ : Type v) (ι : Type w) where
  row : κ → ρ
  holder : κ → Option ι

variable {κ : Type u} {ρ : Type v} {ι : Type w}

/-- Each client has locked the row of its view, and nothing of what it read has changed. -/
structure Coherent (s : Rows κ ρ ι) (view : ι → Option (κ × ρ)) : Prop where
  holds : ∀ {p k r}, view p = some (k, r) → s.holder k = some p ∧ s.row k = r
  viewed : ∀ {p k}, s.holder k = some p → ∃ r, view p = some (k, r)

namespace Coherent

variable {s : Rows κ ρ ι} {view : ι → Option (κ × ρ)}

/-- **Mutual exclusion.** Two clients with a view of one row are one client, since
the row has one holder. -/
theorem exclusive (h : Coherent s view) {p q : ι} {k : κ} {r r' : ρ}
    (hp : view p = some (k, r)) (hq : view q = some (k, r')) : p = q := by
  have hheld := (h.holds hp).1
  rw [(h.holds hq).1, Option.some.injEq] at hheld
  exact hheld.symm

/-- A row that nobody has locked is in nobody's view. -/
theorem not_viewed (h : Coherent s view) {p : ι} {k : κ} {r : ρ} (hfree : s.holder k = none) :
    view p ≠ some (k, r) := by
  intro hp
  rw [(h.holds hp).1] at hfree
  cases hfree

end Coherent

variable [DecidableEq κ]

namespace Rows

variable (s : Rows κ ρ ι)

def acquire (p : ι) (k : κ) : Rows κ ρ ι :=
  { s with holder := Function.update s.holder k (some p) }

def release (k : κ) : Rows κ ρ ι :=
  { s with holder := Function.update s.holder k none }

def commit (k : κ) (r : ρ) : Rows κ ρ ι :=
  ⟨Function.update s.row k r, Function.update s.holder k none⟩

@[simp] theorem acquire_row (p : ι) (k : κ) : (s.acquire p k).row = s.row := rfl

@[simp] theorem acquire_holder_self (p : ι) (k : κ) : (s.acquire p k).holder k = some p := by
  simp [acquire]

theorem acquire_holder_of_ne (p : ι) {k k' : κ} (h : k' ≠ k) :
    (s.acquire p k).holder k' = s.holder k' := by
  simp [acquire, h]

@[simp] theorem release_row (k : κ) : (s.release k).row = s.row := rfl

@[simp] theorem commit_row_self (k : κ) (r : ρ) : (s.commit k r).row k = r := by
  simp [commit]

theorem commit_row_of_ne {k k' : κ} (h : k' ≠ k) (r : ρ) :
    (s.commit k r).row k' = s.row k' := by
  simp [commit, h]

end Rows

namespace Coherent

variable [DecidableEq ι] {s : Rows κ ρ ι} {view : ι → Option (κ × ρ)} {p : ι} {k : κ} {r : ρ}

/-- A client without a view takes a free lock and reads the row. What it reads is
what is committed, as nobody else can have the row in work. -/
theorem acquire (h : Coherent s view) (hfree : s.holder k = none) (hout : view p = none) :
    Coherent (s.acquire p k) (Function.update view p (some (k, s.row k))) := by
  constructor
  · intro q k' r' hq
    by_cases hqp : q = p
    · subst hqp
      rw [Function.update_self, Option.some.injEq, Prod.mk.injEq] at hq
      obtain ⟨rfl, rfl⟩ := hq
      exact ⟨s.acquire_holder_self q k, rfl⟩
    · rw [Function.update_of_ne hqp] at hq
      -- the row was free, so it is in nobody else's view
      have hne : k' ≠ k := by
        rintro rfl
        exact h.not_viewed hfree hq
      obtain ⟨hholder, hrow⟩ := h.holds hq
      exact ⟨(s.acquire_holder_of_ne p hne).trans hholder, hrow⟩
  · intro q k' hq
    by_cases hk : k' = k
    · subst hk
      rw [s.acquire_holder_self, Option.some.injEq] at hq
      subst hq
      exact ⟨s.row k', Function.update_self p _ view⟩
    · have hother : Function.update s.holder k (some p) k' = some q := hq
      rw [Function.update_of_ne hk] at hother
      obtain ⟨r', hr'⟩ := h.viewed hother
      have hqp : q ≠ p := by
        rintro rfl
        rw [hout] at hr'
        cases hr'
      exact ⟨r', (Function.update_of_ne hqp _ view).trans hr'⟩

/-- The holder of `k` gives its lock up; the other rows are as before. Whether it
has written the row makes no difference to the others, who have no view of it. -/
theorem leave (h : Coherent s view) (hp : view p = some (k, r)) {s' : Rows κ ρ ι}
    (hholder : s'.holder = Function.update s.holder k none)
    (hrow : ∀ k', k' ≠ k → s'.row k' = s.row k') :
    Coherent s' (Function.update view p none) := by
  constructor
  · intro q k' r' hq
    have hqp : q ≠ p := by
      rintro rfl
      rw [Function.update_self] at hq
      cases hq
    rw [Function.update_of_ne hqp] at hq
    -- only the holder had a view of the row it gives up
    have hne : k' ≠ k := by
      rintro rfl
      exact hqp (h.exclusive hq hp)
    obtain ⟨hheld, hread⟩ := h.holds hq
    rw [hholder, Function.update_of_ne hne, hrow k' hne]
    exact ⟨hheld, hread⟩
  · intro q k' hq
    rw [hholder] at hq
    have hne : k' ≠ k := by
      rintro rfl
      rw [Function.update_self] at hq
      cases hq
    rw [Function.update_of_ne hne] at hq
    obtain ⟨r', hr'⟩ := h.viewed hq
    have hqp : q ≠ p := by
      rintro rfl
      rw [hp, Option.some.injEq, Prod.mk.injEq] at hr'
      exact hne hr'.1.symm
    exact ⟨r', (Function.update_of_ne hqp _ view).trans hr'⟩

/-- A transaction that ends without writing. -/
theorem release (h : Coherent s view) (hp : view p = some (k, r)) :
    Coherent (s.release k) (Function.update view p none) :=
  h.leave hp rfl fun _ _ => rfl

/-- A transaction that ends by writing the row, of which nobody else has a view. -/
theorem commit (h : Coherent s view) (hp : view p = some (k, r)) (r' : ρ) :
    Coherent (s.commit k r') (Function.update view p none) :=
  h.leave hp rfl fun _ hne => s.commit_row_of_ne hne r'

end Coherent

end RowLock
