import JobRunner.Lib.Trace

/-!
# Work queues with recovery

What a queue of work items promises, whoever runs the items: an item is
submitted, taken, and resolved once; items that were taken and not resolved may
be put back by a recovery. Items are of any type `κ`, resolutions of any type `α`.

- `Phase`, `Move`: the life of one item, and `Step`, the queue as the family of
  its items.
- `Move.takes`: how often an item is taken, without a recovery.
- `Run.outcome_append`: the resolutions of an item along a run are exactly what
  its phase says, so there is at most one (`Phase.outcome_length_le`).
- `Run.final`: a resolved item stays as it is.
- `Run.recover_between`: an item is taken twice only with a recovery in between.
-/

namespace WorkQueue

open Transition

universe u v

/-- The life of an item. -/
inductive Phase (α : Type v) where
  | absent
  | waiting
  | running
  | resolved (a : α)

/-- What happens to a queue. -/
inductive Event (κ : Type u) (α : Type v) where
  | submit (k : κ)
  | take (k : κ)
  | resolve (k : κ) (a : α)
  /-- Every item that is running goes back to waiting. -/
  | recover

variable {κ : Type u} {α : Type v}

/-- The item an event is about; a recovery is about no item in particular. -/
def Event.item : Event κ α → Option κ
  | .submit k | .take k | .resolve k _ => some k
  | .recover => none

/-- What an event does to the phase of item `k`. -/
inductive Move (k : κ) : Event κ α → Phase α → Phase α → Prop where
  | submit : Move k (.submit k) .absent .waiting
  | take : Move k (.take k) .waiting .running
  | resolve (a : α) : Move k (.resolve k a) .running (.resolved a)
  | recover : Move k .recover .running .waiting
  | keep {p : Phase α} (h : p ≠ .running) : Move k .recover p p
  | other {e : Event κ α} {p : Phase α} (hother : e.item ≠ some k) (h : e ≠ .recover) :
      Move k e p p

/-- A queue is the family of the phases of its items; a step moves each of them. -/
def Step (q : κ → Phase α) (e : Event κ α) (q' : κ → Phase α) : Prop :=
  ∀ k, Move k e (q k) (q' k)

/-! ## One item -/

/-- The resolutions a phase stands for. -/
def Phase.outcome : Phase α → List α
  | .resolved a => [a]
  | .absent | .waiting | .running => []

/-- The item was taken, and no recovery has put it back since. -/
def Phase.IsTaken : Phase α → Prop
  | .running | .resolved _ => True
  | .absent | .waiting => False

theorem Phase.outcome_length_le (p : Phase α) : p.outcome.length ≤ 1 := by
  cases p <;> simp [outcome]

theorem Move.resolved {k : κ} {e : Event κ α} {a : α} {p : Phase α}
    (h : Move k e (.resolved a) p) : p = .resolved a := by
  cases h <;> rfl

/-- No event makes an item disappear. -/
theorem Move.ne_absent {k : κ} {e : Event κ α} {p p' : Phase α} (h : Move k e p p')
    (hp : p ≠ .absent) : p' ≠ .absent := by
  cases h with
  | submit => exact absurd rfl hp
  | take | resolve | recover => rintro ⟨⟩
  | keep | other => exact hp

/-- Without a recovery, an item that was taken does not wait again. -/
theorem Move.isTaken {k : κ} {e : Event κ α} {p p' : Phase α} (h : Move k e p p')
    (he : e ≠ .recover) (hp : p.IsTaken) : p'.IsTaken := by
  cases h with
  | submit => exact hp.elim
  | take => exact hp.elim
  | resolve a => trivial
  | recover => exact absurd rfl he
  | keep => exact absurd rfl he
  | other => exact hp

variable [DecidableEq κ]

/-- The resolution of item `k` in an event, if it is one. -/
def Event.resolution (k : κ) : Event κ α → Option α
  | .resolve k' a => if k' = k then some a else none
  | .submit _ | .take _ | .recover => none

/-- The resolutions of item `k` along a run. -/
def resolutions (k : κ) (evs : List (Event κ α)) : List α :=
  evs.filterMap (Event.resolution k)

theorem Event.resolution_other {k : κ} {e : Event κ α} (h : e.item ≠ some k) :
    e.resolution k = none := by
  cases e with
  | resolve k' a => exact if_neg fun heq => h (congrArg some heq)
  | _ => rfl

/-- One event adds to the outcome of an item exactly its resolution. -/
theorem Move.outcome {k : κ} {e : Event κ α} {p p' : Phase α} (h : Move k e p p') :
    p.outcome ++ (e.resolution k).toList = p'.outcome := by
  cases h with
  | submit => rfl
  | take => rfl
  | resolve a => simp [Phase.outcome, Event.resolution]
  | recover => rfl
  | keep => simp [Event.resolution]
  | other hother => simp [Event.resolution_other hother]

/-- One if the item is taken. -/
def Phase.taken : Phase α → Nat
  | .running | .resolved _ => 1
  | .absent | .waiting => 0

/-- One if the event takes item `k`. -/
def Event.takes (k : κ) : Event κ α → Nat
  | .take k' => if k' = k then 1 else 0
  | .submit _ | .resolve _ _ | .recover => 0

/-- Without a recovery, an item that is taken has been taken once: taking it needs
it waiting, and nothing makes it wait again. -/
theorem Move.takes {k : κ} {e : Event κ α} {p p' : Phase α} (h : Move k e p p')
    (he : e ≠ .recover) : e.takes k + p.taken = p'.taken := by
  cases h with
  | submit => rfl
  | take => simp [Event.takes, Phase.taken]
  | resolve a => rfl
  | recover => exact absurd rfl he
  | keep => exact absurd rfl he
  | other hother =>
    have hzero : e.takes k = 0 := by
      cases e with
      | take k' => exact if_neg fun heq => hother (congrArg some heq)
      | _ => rfl
    rw [hzero, Nat.zero_add]

/-! ## Runs -/

namespace Run

variable {q q' : κ → Phase α} {evs : List (Event κ α)}

/-- What an item's phase said at the start, followed by its resolutions along the
run, is what its phase says at the end. As a phase says one outcome at most, an item
is resolved once. -/
theorem outcome_append (hrun : Run Step q evs q') (k : κ) :
    (q k).outcome ++ resolutions k evs = (q' k).outcome := by
  induction hrun with
  | nil => simp [resolutions]
  | @snoc t u evs e _ hstep ih =>
    rw [← (hstep k).outcome, ← ih, resolutions, resolutions, List.filterMap_append,
      List.append_assoc]
    cases h : e.resolution k <;> simp [h]

omit [DecidableEq κ]

/-- **A resolved item stays as it is.** -/
theorem final (hrun : Run Step q evs q') {k : κ} {a : α} (h : q k = .resolved a) :
    q' k = .resolved a := by
  refine hrun.stateInvariant (I := fun q => q k = .resolved a) h ?_
  intro t e u ht hstep
  have hk := hstep k
  rw [ht] at hk
  exact hk.resolved

theorem isTaken (hrun : Run Step q evs q') (hevs : .recover ∉ evs) {k : κ}
    (h : (q k).IsTaken) : (q' k).IsTaken := by
  induction hrun with
  | nil => exact h
  | @snoc t u evs e _ hstep ih =>
    rw [List.mem_append, List.mem_singleton, not_or] at hevs
    exact (hstep k).isTaken (Ne.symm hevs.2) (ih hevs.1)

/-- **An item is taken again only after a recovery**, since it is taken from then
on, and only a waiting item can be taken. -/
theorem recover_between {k : κ} {xs ys zs : List (Event κ α)}
    (hrun : Run Step q (xs ++ .take k :: ys ++ .take k :: zs) q') : .recover ∈ ys := by
  by_contra hys
  obtain ⟨t₃, hrun₁, hrun₂⟩ := hrun.split
  obtain ⟨t₁, -, hrun₁⟩ := hrun₁.split
  obtain ⟨t₂, htake, hrun₁⟩ := hrun₁.cons_inv
  obtain ⟨t₄, hagain, -⟩ := hrun₂.cons_inv
  have htaken : (t₂ k).IsTaken := by
    have hk := htake k
    generalize t₁ k = p, t₂ k = p' at hk
    cases hk with
    | take => trivial
    | other hother => exact absurd rfl hother
  have hstill := isTaken hrun₁ hys htaken
  have hk := hagain k
  generalize t₃ k = p, t₄ k = p' at hk hstill
  cases hk with
  | take => exact hstill
  | other hother => exact absurd rfl hother

end Run

end WorkQueue
