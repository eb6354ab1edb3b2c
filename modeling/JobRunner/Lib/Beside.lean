import JobRunner.Lib.Trace

/-!
# A reader beside a system

A client that only reads takes its own steps beside a system that goes on without it. A
read sees the state the system is in at that moment and changes nothing but the client.

- `Beside.Step`: the steps of both; the system's carry its events, the client's none.
- `Beside.run_system`, `Beside.system_run`: what the system did is a run of the system.
- `Beside.invariant`: a relation between the history of the system, its state and the
  client holds along every run if the system's steps and the client's keep it.
- `Beside.reads_bound`: a measure that every read brings down bounds the reads.
-/

namespace Transition.Beside

universe u v w

variable {σ : Type u} {ε : Type v} {κ : Type w} {step : σ → ε → σ → Prop}
  {read : σ → κ → κ → Prop}

/-- One step of the system, or one of the client. -/
inductive Step (step : σ → ε → σ → Prop) (read : σ → κ → κ → Prop) :
    σ × κ → Option ε → σ × κ → Prop where
  | system {s t : σ} {e : ε} (k : κ) (h : step s e t) : Step step read (s, k) (some e) (t, k)
  | client {s : σ} {k k' : κ} (h : read s k k') : Step step read (s, k) none (s, k')

/-- The events of the system. -/
def events (evs : List (Option ε)) : List ε := evs.filterMap id

/-- How often the client read. -/
def reads (evs : List (Option ε)) : Nat := evs.countP Option.isNone

@[simp] theorem events_nil : events ([] : List (Option ε)) = [] := rfl

@[simp] theorem events_system (e : ε) : events [some e] = [e] := rfl

@[simp] theorem events_client : events [(none : Option ε)] = [] := rfl

@[simp] theorem events_append (xs ys : List (Option ε)) :
    events (xs ++ ys) = events xs ++ events ys :=
  List.filterMap_append

@[simp] theorem reads_append (xs ys : List (Option ε)) :
    reads (xs ++ ys) = reads xs + reads ys :=
  List.countP_append

/-- **Projection.** Beside the client, the system runs as it does alone. -/
theorem run_system {x y : σ × κ} {evs : List (Option ε)} (hrun : Run (Step step read) x evs y) :
    Run step x.1 (events evs) y.1 := by
  obtain ⟨q, hq, hrun⟩ := Run.simulates (R := fun (x : σ × κ) s => s = x.1) id
    (fun {x e y s} hR hstep => by
      subst hR
      cases hstep with
      | system k h => exact ⟨_, rfl, h⟩
      | client h => exact ⟨_, rfl, rfl⟩)
    hrun rfl
  subst hq
  exact hrun

/-- Between two reads the system may go on as long as it likes. -/
theorem system_run {s t : σ} {evs : List ε} (k : κ) (hrun : Run step s evs t) :
    Run (Step step read) (s, k) (evs.map some) (t, k) := by
  induction hrun with
  | nil => exact .nil _
  | snoc _ hstep ih =>
    rw [List.map_append]
    exact ih.snoc (.system k hstep)

/-- **Invariant rule.** The system's steps keep the relation with the client as it
is, and the client's with the system as it is. So each kind of step is a case of its
own in a proof, and neither mentions the other. -/
theorem invariant {I : List ε → σ → κ → Prop} {x y : σ × κ} {evs : List (Option ε)}
    (hrun : Run (Step step read) x evs y) (h₀ : I [] x.1 x.2)
    (hsystem : ∀ {evs s e t k}, I evs s k → step s e t → I (evs ++ [e]) t k)
    (hclient : ∀ {evs s k k'}, I evs s k → read s k k' → I evs s k') :
    I (events evs) y.1 y.2 := by
  refine Run.invariant (I := fun evs (y : σ × κ) => I (events evs) y.1 y.2) hrun h₀ ?_
  intro evs t e u hI hstep
  cases hstep with
  | system k h => simpa using hsystem hI h
  | client h => simpa using hclient hI h

/-- **Bounded reads.** Where every read brings a measure of the client down, and a relation
between the system and the client that both keep makes it do so, the client reads at most
as often as the measure says at the start. -/
theorem reads_bound {J : σ → κ → Prop} (measure : κ → Nat)
    (hsystem : ∀ {s e t k}, J s k → step s e t → J t k)
    (hclient : ∀ {s k k'}, J s k → read s k k' → J s k' ∧ measure k' < measure k)
    {x y : σ × κ} {evs : List (Option ε)} (hrun : Run (Step step read) x evs y)
    (h₀ : J x.1 x.2) : reads evs + measure y.2 ≤ measure x.2 := by
  suffices J y.1 y.2 ∧ reads evs + measure y.2 ≤ measure x.2 from this.2
  refine Run.invariant
    (I := fun evs (y : σ × κ) => J y.1 y.2 ∧ reads evs + measure y.2 ≤ measure x.2) hrun
    ⟨h₀, by simp [reads]⟩ ?_
  rintro evs t e u ⟨hJ, hle⟩ hstep
  cases hstep with
  | system k h => exact ⟨hsystem hJ h, by simpa [reads] using hle⟩
  | client h =>
    obtain ⟨hJ', hlt⟩ := hclient hJ h
    refine ⟨hJ', ?_⟩
    have hread : reads [(none : Option ε)] = 1 := rfl
    rw [reads_append, hread]
    dsimp only at hle hlt ⊢
    omega

end Transition.Beside
