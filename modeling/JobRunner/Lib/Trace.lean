import Mathlib.Data.List.Basic

/-!
# Runs of labelled transition systems

A system is a step relation `step : σ → ε → σ → Prop` whose labels are the
events an observer sees. A *run* is a finite sequence of steps together with
the list of its events; the events so far are the history that invariants may
speak about.

- `Run step s evs t`: from `s`, the events `evs` in this order lead to `t`.
- `Run.invariant`: a predicate on (history, state) that every step preserves
  holds along every run.
- `Run.split`: a run over `xs ++ ys` passes through a state after `xs`.
- `Run.simulates`: a step-by-step simulation (with stuttering) turns a run of
  the concrete system into a run of the abstract one over the visible events.
-/

namespace Transition

universe u v w x

variable {σ : Type u} {ε : Type v} {step : σ → ε → σ → Prop}

/-- `Run step s evs t`: performing the events `evs` in order leads from `s` to
`t`. Runs grow at the end, so that the history of a run is a prefix of the
history of each of its extensions. -/
inductive Run (step : σ → ε → σ → Prop) : σ → List ε → σ → Prop where
  | nil (s : σ) : Run step s [] s
  | snoc {s t u : σ} {evs : List ε} {e : ε} :
      Run step s evs t → step t e u → Run step s (evs ++ [e]) u

namespace Run

/-- A single step is a run. -/
theorem single {s t : σ} {e : ε} (h : step s e t) : Run step s [e] t := by
  show Run step s ([] ++ [e]) t
  exact (Run.nil s).snoc h

theorem append {s t u : σ} {xs ys : List ε} (h₁ : Run step s xs t)
    (h₂ : Run step t ys u) : Run step s (xs ++ ys) u := by
  induction h₂ with
  | nil => simpa using h₁
  | snoc _ hstep ih =>
    rw [← List.append_assoc]
    exact ih.snoc hstep

/-- A step in front of a run. -/
theorem cons {s t u : σ} {e : ε} {evs : List ε} (h : step s e t)
    (hrun : Run step t evs u) : Run step s (e :: evs) u :=
  (single h).append hrun

/-- A run over `xs ++ ys` passes through a state after `xs`. What is known of all
runs up to there can so be used in the middle of one. -/
theorem split {s u : σ} {xs ys : List ε} (h : Run step s (xs ++ ys) u) :
    ∃ t, Run step s xs t ∧ Run step t ys u := by
  generalize hzs : xs ++ ys = zs at h
  induction h generalizing ys with
  | nil =>
    obtain ⟨rfl, rfl⟩ := List.append_eq_nil_iff.mp hzs
    exact ⟨s, .nil s, .nil s⟩
  | @snoc t u evs e hrun hstep ih =>
    rcases List.eq_nil_or_concat ys with rfl | ⟨ys', e', rfl⟩
    · rw [List.append_nil] at hzs
      subst hzs
      exact ⟨u, hrun.snoc hstep, .nil u⟩
    · rw [List.concat_eq_append, ← List.append_assoc] at hzs
      obtain ⟨hpre, hlast⟩ := List.append_inj' hzs rfl
      cases hlast
      obtain ⟨m, h₁, h₂⟩ := ih hpre
      rw [List.concat_eq_append]
      exact ⟨m, h₁, h₂.snoc hstep⟩

/-- Inversion of a run whose first event is known. -/
theorem cons_inv {s u : σ} {e : ε} {evs : List ε} (h : Run step s (e :: evs) u) :
    ∃ t, step s e t ∧ Run step t evs u := by
  have hsplit : Run step s ([e] ++ evs) u := h
  obtain ⟨t, h₁, h₂⟩ := split hsplit
  generalize hzs : [e] = zs at h₁
  cases h₁ with
  | nil => cases hzs
  | snoc hrun hstep =>
    have hsnoc : [] ++ [e] = _ ++ [_] := hzs
    obtain ⟨hpre, hlast⟩ := List.append_inj' hsnoc rfl
    cases hlast
    cases hpre
    generalize hys : ([] : List ε) = ys at hrun
    cases hrun with
    | nil => exact ⟨t, hstep, h₂⟩
    | snoc _ _ => exact absurd hys (by simp)

/-- **Invariant rule.** A predicate on the history and the state that holds at the
start and is preserved by every step holds along every run. The step may rely on the
run so far, and so on every invariant proved before. -/
theorem invariant {I : List ε → σ → Prop} {s t : σ} {evs : List ε}
    (hrun : Run step s evs t) (h₀ : I [] s)
    (hstep : ∀ {evs t e u}, I evs t → step t e u → I (evs ++ [e]) u) : I evs t := by
  induction hrun with
  | nil => exact h₀
  | snoc _ hs ih => exact hstep ih hs

/-- The invariant rule for a predicate on states alone. -/
theorem stateInvariant {I : σ → Prop} {s t : σ} {evs : List ε}
    (hrun : Run step s evs t) (h₀ : I s)
    (hstep : ∀ {t e u}, I t → step t e u → I u) : I t :=
  invariant (I := fun _ t => I t) hrun h₀ hstep

/-- A run of a stronger step relation is a run of the weaker one. -/
theorem mono {step' : σ → ε → σ → Prop} (h : ∀ {s e t}, step s e t → step' s e t)
    {s t : σ} {evs : List ε} (hrun : Run step s evs t) : Run step' s evs t := by
  induction hrun with
  | nil => exact .nil _
  | snoc _ hs ih => exact ih.snoc (h hs)

variable {τ : Type w} {δ : Type x}

/-- One abstract answer to a concrete event: a step for a visible event, a
stutter for an invisible one. -/
def Answers (astep : τ → δ → τ → Prop) (q : τ) (q' : τ) : Option δ → Prop
  | none => q' = q
  | some d => astep q d q'

/-- **Simulation rule.** If every concrete step is answered by an abstract one
(visible events) or by a stutter (invisible events), every concrete run is
answered by an abstract run over its visible events. -/
theorem simulates {R : σ → τ → Prop} {astep : τ → δ → τ → Prop} (obs : ε → Option δ)
    (hstep : ∀ {s e t q}, R s q → step s e t →
      ∃ q', R t q' ∧ Answers astep q q' (obs e))
    {s t : σ} {evs : List ε} {q : τ} (hrun : Run step s evs t) (hR : R s q) :
    ∃ q', R t q' ∧ Run astep q (evs.filterMap obs) q' := by
  induction hrun with
  | nil => exact ⟨q, hR, .nil q⟩
  | @snoc t u evs e _ hs ih =>
    obtain ⟨q₁, hR₁, hrun₁⟩ := ih
    obtain ⟨q₂, hR₂, hans⟩ := hstep hR₁ hs
    refine ⟨q₂, hR₂, ?_⟩
    rw [List.filterMap_append]
    cases hobs : obs e with
    | none =>
      rw [hobs] at hans
      cases hans
      simpa [hobs] using hrun₁
    | some d =>
      rw [hobs] at hans
      simpa [hobs] using hrun₁.snoc hans

end Run

end Transition
