import JobRunner.Lib.Trace
import Mathlib.Logic.Function.Basic

/-!
# Sessions over a shared system

Any number of sessions work on one system, which also goes on without them. A session's move
is a step of the system, or one that only the session sees.

- `Sessions.Step`: the moves of the system and of the sessions.
- `Sessions.run_system`: what happened to the system is a run of the system.
- `Sessions.trace`: what one session did.
- `Sessions.session`: what a session's own moves and the moves of all others keep of it, it has
  along every run.
-/

namespace Transition.Sessions

universe u v w x y

variable {ρ : Type u} {σ : Type v} {ε : Type w} {κ : Type x} {δ : Type y}

/-- The system goes on by itself, a session takes a step of the system, or a session takes a
step of its own. -/
inductive Event (ρ : Type u) (ε : Type w) (δ : Type y) where
  | system (e : ε)
  | act (r : ρ) (e : ε)
  | own (r : ρ) (d : δ)

namespace Event

/-- The session whose move it is. -/
def owner : Event ρ ε δ → Option ρ
  | system _ => none
  | act r _ | own r _ => some r

/-- What the system sees of it. -/
def shared : Event ρ ε δ → Option ε
  | system e | act _ e => some e
  | own _ _ => none

/-- What session `r` sees of it. -/
def of [DecidableEq ρ] (r : ρ) : Event ρ ε δ → Option (ε ⊕ δ)
  | system _ => none
  | act r' e => if r' = r then some (.inl e) else none
  | own r' d => if r' = r then some (.inr d) else none

theorem of_eq_none [DecidableEq ρ] {r : ρ} {ev : Event ρ ε δ} (h : ev.owner ≠ some r) :
    ev.of r = none := by
  cases ev with
  | system e => rfl
  | act r' e | own r' d => exact if_neg fun heq => h (congrArg some heq)

end Event

/-- The history of the system. -/
def events (evs : List (Event ρ ε δ)) : List ε := evs.filterMap Event.shared

/-- The history of session `r`. -/
def trace [DecidableEq ρ] (r : ρ) (evs : List (Event ρ ε δ)) : List (ε ⊕ δ) :=
  evs.filterMap (Event.of r)

theorem events_append (xs ys : List (Event ρ ε δ)) : events (xs ++ ys) = events xs ++ events ys :=
  List.filterMap_append

theorem events_snoc (evs : List (Event ρ ε δ)) (ev : Event ρ ε δ) :
    events (evs ++ [ev]) = events evs ++ ev.shared.toList := by
  rw [events_append]
  cases ev <;> rfl

theorem events_subset_snoc (evs : List (Event ρ ε δ)) (ev : Event ρ ε δ) :
    events evs ⊆ events (evs ++ [ev]) := by
  rw [events_snoc]
  exact List.subset_append_left _ _

section Trace

variable [DecidableEq ρ] {r : ρ}

theorem trace_append (xs ys : List (Event ρ ε δ)) :
    trace r (xs ++ ys) = trace r xs ++ trace r ys :=
  List.filterMap_append

@[simp] theorem trace_act (evs : List (Event ρ ε δ)) (e : ε) :
    trace r (evs ++ [.act r e]) = trace r evs ++ [.inl e] := by
  rw [trace_append]
  simp [trace, Event.of]

@[simp] theorem trace_own (evs : List (Event ρ ε δ)) (d : δ) :
    trace r (evs ++ [.own r d]) = trace r evs ++ [.inr d] := by
  rw [trace_append]
  simp [trace, Event.of]

/-- The others' moves leave no trace. -/
theorem trace_other (evs : List (Event ρ ε δ)) {ev : Event ρ ε δ} (h : ev.owner ≠ some r) :
    trace r (evs ++ [ev]) = trace r evs := by
  rw [trace_append]
  simp [trace, Event.of_eq_none h]

end Trace

section Step

variable [DecidableEq ρ] {step : σ → ε → σ → Prop} {act : κ → ε → κ → Prop}
  {own : σ → κ → δ → κ → Prop}

/-- One move. A session's step of the system is one that the system can take. -/
inductive Step (step : σ → ε → σ → Prop) (act : κ → ε → κ → Prop)
    (own : σ → κ → δ → κ → Prop) : σ × (ρ → κ) → Event ρ ε δ → σ × (ρ → κ) → Prop where
  | system {s t : σ} {e : ε} (ks : ρ → κ) (h : step s e t) :
      Step step act own (s, ks) (.system e) (t, ks)
  | act {s t : σ} {e : ε} (ks : ρ → κ) (r : ρ) {k : κ} (h : step s e t)
      (hact : act (ks r) e k) :
      Step step act own (s, ks) (.act r e) (t, Function.update ks r k)
  | own {s : σ} {d : δ} (ks : ρ → κ) (r : ρ) {k : κ} (hown : own s (ks r) d k) :
      Step step act own (s, ks) (.own r d) (s, Function.update ks r k)

variable {x y : σ × (ρ → κ)} {evs : List (Event ρ ε δ)}

/-- A move is a step of the system, or the system stays where it is. -/
theorem Step.system_step {ev : Event ρ ε δ} (h : Step step act own x ev y) :
    Run.Answers step x.1 y.1 ev.shared := by
  cases h with
  | system ks h => exact h
  | act ks r h => exact h
  | own ks r => exact rfl

/-- The moves of others leave a session where it is: each session is moved by its
own moves only. -/
theorem Step.other {ev : Event ρ ε δ} (h : Step step act own x ev y) {r : ρ}
    (hother : ev.owner ≠ some r) : y.2 r = x.2 r := by
  have hne {r' : ρ} (howner : some r' ≠ some r) : r ≠ r' := by
    rintro rfl
    exact howner rfl
  cases h with
  | system ks h => rfl
  | act ks r' h hact => exact Function.update_of_ne (hne hother) _ _
  | own ks r' hown => exact Function.update_of_ne (hne hother) _ _

/-- **Projection.** The sessions' steps and the system's own make a run of the system. -/
theorem run_system (hrun : Run (Step step act own) x evs y) :
    Run step x.1 (events evs) y.1 := by
  obtain ⟨q, hq, hrun⟩ := Run.simulates (R := fun (x : σ × (ρ → κ)) s => s = x.1) Event.shared
    (fun {x e y s} hR hstep => by
      subst hR
      exact ⟨_, rfl, hstep.system_step⟩)
    hrun rfl
  subst hq
  exact hrun

/-- **Session rule.** What the moves of all others keep of session `r`, and its own
moves too, holds along every run. Each of the moves ends a run. The history is
there, as a session may rest on what was true before. -/
theorem session (r : ρ) {P : List (Event ρ ε δ) → σ → κ → Prop}
    (hrun : Run (Step step act own) x evs y) (h₀ : P [] x.1 (x.2 r))
    (hothers : ∀ {evs s ks ev t ks'}, Run (Step step act own) x evs (s, ks) →
      Step step act own (s, ks) ev (t, ks') → ev.owner ≠ some r → P evs s (ks r) →
      P (evs ++ [ev]) t (ks r))
    (hact : ∀ {evs s ks e t k}, Run (Step step act own) x evs (s, ks) → step s e t →
      act (ks r) e k → P evs s (ks r) → P (evs ++ [.act r e]) t k)
    (hown : ∀ {evs s ks d k}, Run (Step step act own) x evs (s, ks) →
      own s (ks r) d k → P evs s (ks r) → P (evs ++ [.own r d]) s k) :
    P evs y.1 (y.2 r) := by
  induction hrun with
  | nil => exact h₀
  | @snoc t u evs ev hrun hstep ih =>
    by_cases howner : ev.owner = some r
    · cases hstep with
      | system ks h => cases howner
      | act ks r' h hact' =>
        cases howner
        simpa only [Function.update_self] using hact hrun h hact' ih
      | own ks r' hown' =>
        cases howner
        simpa only [Function.update_self] using hown hrun hown' ih
    · rw [hstep.other howner]
      exact hothers hrun hstep howner ih

end Step

end Transition.Sessions
