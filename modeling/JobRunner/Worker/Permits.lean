import Mathlib.Algebra.BigOperators.Group.Finset.Basic
import Mathlib.Algebra.GroupWithZero.Nat
import Mathlib.Data.Fintype.Basic
import JobRunner.Worker.Loop

/-!
# Slots and claimed rows

The accounts of `Worker::run`, kept over the loops and the tasks at once: a
*tally* adds up a weight for the place of every loop and the stage of every task.

- `Step.permits`: permits are neither lost nor made.
- `Step.flow`, `flow_run`: a claimed row is read back, its job is returned by
  `claim_next`, carried, and recorded once; nothing else enters or leaves.
- `worker_accounts`: the slots, the pending rows and the rows of a loop that has
  stopped, for every run whose store calls succeed.
-/

namespace JobRunner

open Transition

namespace Pool

variable {ℓ : Type} [DecidableEq ℓ] [Fintype ℓ]

/-! ## Tallies -/

/-- The weights of the places of all loops and of all tasks, added up. -/
def tally (w : ℓ → LoopPc → Nat) (v : Task ℓ → Nat) (s : Pool ℓ) : Nat :=
  ∑ l, w l (s.loop l) + (s.tasks.map v).sum

theorem sum_update (w : ℓ → LoopPc → Nat) (loop : ℓ → LoopPc) (l : ℓ) (pc : LoopPc) :
    ∑ i, w i (Function.update loop l pc i) + w l (loop l) = ∑ i, w i (loop i) + w l pc := by
  rw [← Finset.add_sum_erase _ _ (Finset.mem_univ l),
    ← Finset.add_sum_erase _ (fun i => w i (loop i)) (Finset.mem_univ l), Function.update_self]
  have hrest : ∑ i ∈ Finset.univ.erase l, w i (Function.update loop l pc i) =
      ∑ i ∈ Finset.univ.erase l, w i (loop i) := by
    refine Finset.sum_congr rfl fun i hi => ?_
    rw [Function.update_of_ne (Finset.ne_of_mem_erase hi)]
  rw [hrest]
  omega

omit [DecidableEq ℓ] [Fintype ℓ] in
/-- Reaped tasks weigh nothing if ended tasks do. -/
theorem sum_reap (v : Task ℓ → Nat) (hv : ∀ τ, τ.stage = .ended → v τ = 0)
    (p : Task ℓ → Prop) [DecidablePred p] (tasks : List (Task ℓ)) :
    ((tasks.filter fun τ => !decide (p τ ∧ τ.stage = .ended)).map v).sum =
      (tasks.map v).sum := by
  induction tasks with
  | nil => rfl
  | cons τ tasks ih =>
    rw [List.filter_cons, List.map_cons, List.sum_cons, ← ih]
    by_cases hτ : p τ ∧ τ.stage = .ended
    · rw [if_neg (by simp [hτ]), hv τ hτ.2, Nat.zero_add]
    · rw [if_pos (by rw [decide_eq_false hτ]; rfl), List.map_cons, List.sum_cons]

/-! A tally after a step, with `b` that came in and `a` that went out. -/

section Balance

variable {w : ℓ → LoopPc → Nat} {v : Task ℓ → Nat} {s t : Pool ℓ} {a b : Nat}

/-- A loop moves, and the tasks weigh what they did. -/
theorem tally_loop {l : ℓ} {pc : LoopPc} (hloop : t.loop = Function.update s.loop l pc)
    (htasks : (t.tasks.map v).sum = (s.tasks.map v).sum)
    (h : w l pc + a = w l (s.loop l) + b) : t.tally w v + a = s.tally w v + b := by
  have hsum := sum_update w s.loop l pc
  unfold tally
  rw [hloop, htasks]
  omega

/-- A loop moves and spawns a task. -/
theorem tally_spawn {l : ℓ} {pc : LoopPc} {τ : Task ℓ}
    (hloop : t.loop = Function.update s.loop l pc) (htasks : t.tasks = s.tasks ++ [τ])
    (h : w l pc + v τ + a = w l (s.loop l) + b) : t.tally w v + a = s.tally w v + b := by
  have hsum := sum_update w s.loop l pc
  unfold tally
  rw [hloop, htasks, List.map_append, List.sum_append, List.map_singleton, List.sum_singleton]
  omega

variable {pre post : List (Task ℓ)} {τ τ' : Task ℓ}

omit [DecidableEq ℓ] in
/-- A task moves. -/
theorem tally_task (hs : s.tasks = pre ++ τ :: post) (hloop : t.loop = s.loop)
    (ht : t.tasks = pre ++ τ' :: post) (h : v τ' + a = v τ + b) :
    t.tally w v + a = s.tally w v + b := by
  unfold tally
  rw [hloop, hs, ht]
  simp only [List.map_append, List.sum_append, List.map_cons, List.sum_cons]
  omega

omit [DecidableEq ℓ] in
/-- A task is joined. -/
theorem tally_join (hs : s.tasks = pre ++ τ :: post) (hloop : t.loop = s.loop)
    (ht : t.tasks = pre ++ post) (h : a = v τ + b) : t.tally w v + a = s.tally w v + b := by
  unfold tally
  rw [hloop, hs, ht]
  simp only [List.map_append, List.sum_append, List.map_cons, List.sum_cons]
  omega

end Balance

end Pool

/-! ## Permits -/

/-- The permits a loop holds. -/
def LoopPc.permit : LoopPc → Nat
  | .claiming _ | .claimed _ | .unclaimed => 1
  | .ready | .acquiring | .sleeping | .draining | .stopped => 0

/-- The permits a task holds. -/
def Task.permit {ℓ : Type} (τ : Task ℓ) : Nat :=
  match τ.stage with
  | .ended => 0
  | .starting | .running | .removing _ | .finishing _ | .recorded => 1

@[simp] theorem permit_ready : LoopPc.ready.permit = 0 := rfl

@[simp] theorem permit_loopPc (next : ClaimNext) : next.loopPc.permit = 1 := by
  rcases next with pc | (e | (_ | job)) <;> rfl

namespace Pool

variable {ℓ : Type} [DecidableEq ℓ] [Fintype ℓ] {s t : Pool ℓ}

/-- The permits held by loops and by tasks. -/
def held (s : Pool ℓ) : Nat := s.tally (fun _ pc => pc.permit) Task.permit

/-- **Permits are neither lost nor made.** Each way to give one up is a step of its
own: a loop that finds no job releases it, and a task drops it when its job is
recorded. -/
theorem Step.permits {e : PoolEvent ℓ} (h : Step s e t) :
    t.permits + t.held = s.permits + s.held := by
  rw [Nat.add_comm, Nat.add_comm s.permits]
  cases h with
  | enqueue | reserve | cancel => rfl
  | reap l hl =>
    -- only tasks that have ended are reaped, and those hold no permit
    have hreap := sum_reap Task.permit (fun τ hτ => by simp [Task.permit, hτ])
      (fun τ => τ.owner = l) s.tasks
    exact tally_loop rfl hreap (by rw [hl]; rfl)
  | move l pc hmove =>
    refine tally_loop rfl rfl (congrArg (· + s.permits) ?_)
    generalize s.loop l = old at hmove
    cases hmove <;> rfl
  | acquire l hl hfree =>
    refine tally_loop rfl rfl ?_
    rw [hl]
    show 1 + (s.permits - 1) = 0 + s.permits
    omega
  | statement l pc hl =>
    refine tally_loop rfl rfl ?_
    rw [hl, permit_loopPc]
    rfl
  | fail l pc hl => exact tally_loop rfl rfl (by rw [hl]; rfl)
  | spawn l id hl => exact tally_spawn rfl rfl (by rw [hl]; rfl)
  | release l hl =>
    refine tally_loop rfl rfl ?_
    rw [hl]
    show 0 + (s.permits + 1) = 1 + s.permits
    omega
  | join l id pre post hl h => exact tally_join h rfl rfl (Nat.zero_add _).symm
  | stop l hl h => exact tally_loop rfl rfl (by rw [hl]; rfl)
  | task l id stage stage' pre post h hmove =>
    exact tally_task h rfl rfl (by cases hmove <;> rfl)
  | interrupt l id pre post h hcancelled => exact tally_task h rfl rfl rfl
  | finish l id outcome pre post h => exact tally_task h rfl rfl rfl
  | finishFails l id outcome pre post h => exact tally_task h rfl rfl rfl
  | drop l id pre post h =>
    refine tally_task h rfl rfl ?_
    show 0 + (s.permits + 1) = 1 + s.permits
    omega

/-- What the semaphore has left and what is held add up to the number of slots. -/
theorem permits_add_held {k : Nat} {evs : List (PoolEvent ℓ)} (h : s.Starts k)
    (hrun : Run Step s evs t) : t.permits + t.held = k := by
  refine hrun.stateInvariant (I := fun s => s.permits + s.held = k) ?_ ?_
  · have hzero : s.held = 0 := by simp [held, tally, h.ready, h.empty]
    rw [h.permits, hzero, Nat.add_zero]
  · exact fun ht hstep => hstep.permits.trans ht

end Pool

/-! ## Jobs in hand -/

/-- The task has not executed `finish` yet. -/
def TaskStage.isOpen : TaskStage → Bool
  | .starting | .running | .removing _ | .finishing _ => true
  | .recorded | .ended => false

theorem TaskMove.isOpen {stage stage' : TaskStage} (h : TaskMove stage stage') :
    stage.isOpen = true ∧ stage'.isOpen = true := by
  cases h <;> exact ⟨rfl, rfl⟩

/-- The weight of the job in the hands of loop `l`: by `r` while `claim_next` reads
it back, by `u` when it was returned. -/
def LoopPc.weight {ℓ : Type} (r u : ℓ × Int → Nat) (l : ℓ) : LoopPc → Nat
  | .claiming (.read id) => r (l, id)
  | .claimed id => u (l, id)
  | .claiming (.select _) | .claiming (.update _ _) | .ready | .acquiring | .unclaimed
  | .sleeping | .draining | .stopped => 0

/-- The weight of the job of a task, as long as the task is open. -/
def Task.weight {ℓ : Type} (u : ℓ × Int → Nat) (τ : Task ℓ) : Nat :=
  if τ.stage.isOpen then u (τ.owner, τ.job) else 0

namespace PoolEvent

variable {ℓ : Type}

/-- The row an event claims. -/
def claim? : PoolEvent ℓ → Option (ℓ × Int)
  | .statement l (some id) _ => some (l, id)
  | _ => none

/-- The job `claim_next` returns in an event. -/
def return? : PoolEvent ℓ → Option (ℓ × Int)
  | .statement l _ (some id) => some (l, id)
  | _ => none

/-- The job an event calls `finish` for. -/
def record? : PoolEvent ℓ → Option (ℓ × Int)
  | .finish l id _ _ => some (l, id)
  | _ => none

/-- The store calls of an event succeed. -/
def Succeeds : PoolEvent ℓ → Prop
  | .fail _ | .finishFails _ _ => False
  | .finish _ _ _ answer => answer = .ok ()
  | _ => True

end PoolEvent

section Weights

variable {ℓ : Type} (r u : ℓ × Int → Nat) (l : ℓ)

@[simp] theorem weight_ready : LoopPc.ready.weight r u l = 0 := rfl

@[simp] theorem weight_stopped : LoopPc.stopped.weight r u l = 0 := rfl

@[simp] theorem weight_open (id : Int) (stage : TaskStage) :
    Task.weight u ⟨l, id, stage⟩ = if stage.isOpen then u (l, id) else 0 := rfl

theorem weight_eq_zero (hr : ∀ id, r (l, id) = 0) (hu : ∀ id, u (l, id) = 0) (pc : LoopPc) :
    pc.weight r u l = 0 := by
  rcases pc with _ | _ | (_ | _ | id) | id | _ | _ | _ | _ <;> first | rfl | exact hr _ | exact hu _

end Weights

namespace Pool

variable {ℓ : Type} [DecidableEq ℓ] [Fintype ℓ] {s t : Pool ℓ}

/-- The jobs in hand, added up: by `r` those being read back, by `u` those returned
and not yet recorded. -/
def inHand (r u : ℓ × Int → Nat) (s : Pool ℓ) : Nat :=
  s.tally (fun l pc => pc.weight r u l) (Task.weight u)

/-- The weight of at most one job. -/
def weightOf (f : ℓ × Int → Nat) (job : Option (ℓ × Int)) : Nat := (job.toList.map f).sum

/-- **Jobs flow.** A claimed row is read back, the job is returned and then
recorded; nothing else enters or leaves the hands of the loops and tasks. The
weights `r` and `u` are arbitrary, so one lemma accounts for a job, a loop and the
total. -/
theorem Step.flow {e : PoolEvent ℓ} (h : Step s e t) (hok : e.Succeeds)
    (hread : ∀ l id, s.loop l = .claiming (.read id) → s.db.jobStatus id ≠ none)
    (r u : ℓ × Int → Nat) :
    t.inHand r u + weightOf r e.return? + weightOf u e.record? =
      s.inHand r u + weightOf r e.claim? + weightOf u e.return? := by
  rw [Nat.add_assoc, Nat.add_assoc (s.inHand r u)]
  cases h with
  | enqueue | reserve | cancel => rfl
  | fail | finishFails => exact hok.elim
  | reap l hl =>
    have hreap := sum_reap (Task.weight u) (fun τ hτ => by simp [Task.weight, hτ, TaskStage.isOpen])
      (fun τ => τ.owner = l) s.tasks
    exact tally_loop rfl hreap (by rw [hl]; rfl)
  | move l pc hmove =>
    refine tally_loop rfl rfl (congrArg (· + 0) ?_)
    generalize s.loop l = old at hmove
    cases hmove <;> rfl
  | acquire l hl hfree => exact tally_loop rfl rfl (by rw [hl]; rfl)
  | statement l pc hl =>
    refine tally_loop rfl rfl ?_
    rw [hl]
    have heffect := pc.step_effect s.db
    generalize (pc.step s.db).1 = db, (pc.step s.db).2 = next, pc.claims s.db = claimed
      at heffect ⊢
    cases heffect with
    | empty | found | giveUp | retry => rfl
    | @won id left =>
      show r (l, id) + 0 = 0 + (r (l, id) + 0 + 0)
      omega
    | @read id =>
      -- the row that was claimed is still there
      cases hrow : s.db.jobRow id with
      | none => exact absurd (by rw [Database.jobStatus, hrow]; rfl) (hread l id hl)
      | some m =>
        obtain rfl : m.id = id := Database.jobRow_id hrow
        show u (l, m.id) + (r (l, m.id) + 0 + 0) = r (l, m.id) + (0 + (u (l, m.id) + 0))
        omega
  | spawn l id hl =>
    refine tally_spawn rfl rfl ?_
    rw [hl]
    show 0 + u (l, id) + 0 = u (l, id) + 0
    omega
  | release l hl => exact tally_loop rfl rfl (by rw [hl]; rfl)
  | join l id pre post hl h => exact tally_join h rfl rfl rfl
  | stop l hl h => exact tally_loop rfl rfl (by rw [hl]; rfl)
  | task l id stage stage' pre post h hmove =>
    obtain ⟨hopen, hopen'⟩ := hmove.isOpen
    refine tally_task h rfl rfl ?_
    rw [weight_open, weight_open, hopen, hopen']
    rfl
  | interrupt l id pre post h hcancelled => exact tally_task h rfl rfl rfl
  | finish l id outcome pre post h =>
    refine tally_task h rfl rfl ?_
    show 0 + (0 + (u (l, id) + 0)) = u (l, id) + (0 + 0)
    omega
  | drop l id pre post h => exact tally_task h rfl rfl rfl

/-- The rows claimed along a run, with the loops that claimed them. -/
def claimsOf (evs : List (PoolEvent ℓ)) : List (ℓ × Int) := evs.filterMap PoolEvent.claim?

/-- The jobs `claim_next` returned along a run. -/
def returnsOf (evs : List (PoolEvent ℓ)) : List (ℓ × Int) := evs.filterMap PoolEvent.return?

/-- The jobs `finish` was called for along a run. -/
def recordsOf (evs : List (PoolEvent ℓ)) : List (ℓ × Int) := evs.filterMap PoolEvent.record?

omit [DecidableEq ℓ] [Fintype ℓ] in
theorem sum_filterMap_snoc (f : ℓ × Int → Nat) (g : PoolEvent ℓ → Option (ℓ × Int))
    (evs : List (PoolEvent ℓ)) (e : PoolEvent ℓ) :
    (((evs ++ [e]).filterMap g).map f).sum =
      ((evs.filterMap g).map f).sum + weightOf f (g e) := by
  rw [List.filterMap_append, List.map_append, List.sum_append]
  cases h : g e <;> simp [h, weightOf]

/-- In a run, what was claimed was returned or is being read back, and what was
returned was recorded or is carried. -/
theorem flow_run {k : Nat} {evs : List (PoolEvent ℓ)} (h : s.Starts k)
    (hrun : Run Step s evs t) (hok : ∀ e ∈ evs, e.Succeeds) (r u : ℓ × Int → Nat) :
    t.inHand r u + ((returnsOf evs).map r).sum + ((recordsOf evs).map u).sum =
      ((claimsOf evs).map r).sum + ((returnsOf evs).map u).sum := by
  induction hrun with
  | nil => simp [inHand, tally, h.ready, h.empty, returnsOf, recordsOf, claimsOf]
  | @snoc t₁ t₂ evs e hrun hstep ih =>
    have hread : ∀ l id, t₁.loop l = .claiming (.read id) → t₁.db.jobStatus id ≠ none := by
      obtain ⟨f, hseen, hfleet⟩ := toFleet h hrun
      intro l id hl
      rw [← hseen.db]
      refine Fleet.readJobs_run hfleet s.startFleet_idle l id ?_
      rw [hseen.pc, Function.comp_apply, hl]
      rfl
    have hflow := hstep.flow (hok e (by simp)) hread r u
    have ih' := ih fun e' he' => hok e' (List.mem_append_left _ he')
    simp only [returnsOf, recordsOf, claimsOf, sum_filterMap_snoc] at ih' ⊢
    omega

/-! ## One job, one loop -/

omit [DecidableEq ℓ] [Fintype ℓ] in
theorem sum_zero (jobs : List (ℓ × Int)) : (jobs.map fun _ => 0).sum = 0 := by
  refine List.sum_eq_zero fun n hn => ?_
  obtain ⟨p, -, rfl⟩ := List.mem_map.mp hn
  rfl

omit [DecidableEq ℓ] in
theorem inHand_eq_zero {r u : ℓ × Int → Nat} (hloops : ∀ i, (s.loop i).weight r u i = 0)
    (htasks : ∀ τ ∈ s.tasks, τ.weight u = 0) : s.inHand r u = 0 := by
  unfold inHand tally
  rw [Finset.sum_eq_zero fun i _ => hloops i, Nat.zero_add]
  refine List.sum_eq_zero fun n hn => ?_
  obtain ⟨τ, hτ, rfl⟩ := List.mem_map.mp hn
  exact htasks τ hτ

/-- The indicator of job `id`. -/
def ofJob (id : Int) (p : ℓ × Int) : Nat := if p.2 = id then 1 else 0

/-- The indicator of job `id` in the hands of loop `l`. -/
def ofLoop (l : ℓ) (id : Int) (p : ℓ × Int) : Nat := if p = (l, id) then 1 else 0

omit [DecidableEq ℓ] [Fintype ℓ] in
theorem sum_ofJob (id : Int) (jobs : List (ℓ × Int)) :
    (jobs.map (ofJob id)).sum = (jobs.map Prod.snd).count id := by
  induction jobs with
  | nil => rfl
  | cons p jobs ih =>
    rw [List.map_cons, List.sum_cons, ih, List.map_cons, List.count_cons, Nat.add_comm]
    simp [ofJob]

omit [Fintype ℓ] in
theorem sum_ofLoop (l : ℓ) (id : Int) (jobs : List (ℓ × Int)) :
    (jobs.map (ofLoop l id)).sum = jobs.count (l, id) := by
  induction jobs with
  | nil => rfl
  | cons p jobs ih =>
    rw [List.map_cons, List.sum_cons, ih, List.count_cons, Nat.add_comm]
    simp [ofLoop]

omit [DecidableEq ℓ] [Fintype ℓ] in
theorem mem_claimsOf_append {evs evs' : List (PoolEvent ℓ)} {p : ℓ × Int} :
    p ∈ claimsOf (evs ++ evs') ↔ p ∈ claimsOf evs ∨ p ∈ claimsOf evs' := by
  rw [claimsOf, List.filterMap_append, List.mem_append]
  rfl

omit [DecidableEq ℓ] [Fintype ℓ] in
/-- A worker does not put its jobs back. -/
theorem requeue_not_observed (evs : List (PoolEvent ℓ)) :
    .requeue ∉ evs.filterMap PoolEvent.observe := by
  intro hmem
  obtain ⟨e, -, he⟩ := List.mem_filterMap.mp hmem
  cases e <;> cases he

omit [DecidableEq ℓ] [Fintype ℓ] in
theorem claimedIds_observe (evs : List (PoolEvent ℓ)) :
    claimedIds (evs.filterMap PoolEvent.observe) = (claimsOf evs).map Prod.snd := by
  unfold claimedIds claimsOf
  rw [List.filterMap_filterMap, List.map_filterMap]
  refine List.filterMap_congr fun e _ => ?_
  cases e with
  | statement l claimed _ => cases claimed <;> rfl
  | _ => rfl

omit [DecidableEq ℓ] [Fintype ℓ] in
theorem recorded_observe {e : PoolEvent ℓ} (hok : e.Succeeds) (id : Int) :
    (e.observe.bind (FleetEvent.recorded id)).toList.length = weightOf (ofJob id) e.record? := by
  cases e with
  | finish l id' outcome answer =>
    obtain rfl : answer = .ok () := hok
    show (if id' = id then some outcome else none : Option _).toList.length =
      (if id' = id then 1 else 0) + 0
    split <;> rfl
  | statement l claimed returned => cases claimed <;> rfl
  | _ => rfl

omit [DecidableEq ℓ] [Fintype ℓ] in
/-- The outcomes the table recorded for a job are the successful `finish` calls. -/
theorem recordings_observe {evs : List (PoolEvent ℓ)} (hok : ∀ e ∈ evs, e.Succeeds) (id : Int) :
    (recordings id (evs.filterMap PoolEvent.observe)).length =
      ((recordsOf evs).map (ofJob id)).sum := by
  induction evs using List.reverseRecOn with
  | nil => rfl
  | append_singleton evs e ih =>
    have ih' := ih fun e' he' => hok e' (List.mem_append_left _ he')
    have he := recorded_observe (hok e (by simp)) id
    rw [recordsOf, sum_filterMap_snoc, ← recordsOf, ← ih', ← he, recordings, recordings,
      List.filterMap_filterMap, List.filterMap_filterMap, List.filterMap_append,
      List.length_append]
    cases h : e.observe.bind (FleetEvent.recorded id) <;> simp [h]

/-- How often `claim_next` has just claimed job `id` and not yet returned it. -/
def reading (s : Pool ℓ) (id : Int) : Nat := s.inHand (ofJob id) fun _ => 0

/-- How many loops have just been returned job `id` and not yet spawned it, plus how
many tasks of job `id` have not executed `finish`. -/
def carried (s : Pool ℓ) (id : Int) : Nat := s.inHand (fun _ => 0) (ofJob id)

omit [Fintype ℓ] in
/-- A job that was claimed is pending, with no outcome recorded, or finished, with
one outcome recorded. This is the table's side of the accounts, known from the
refinement. -/
theorem claimed_status {k : Nat} {evs : List (PoolEvent ℓ)} (h : s.Starts k)
    (hrun : Run Step s evs t) {id : Int} (hid : id ∈ (claimsOf evs).map Prod.snd) :
    (t.db.jobStatus id = some .pending ∧
      (recordings id (evs.filterMap PoolEvent.observe)).length = 0) ∨
    ((∃ a, t.db.jobStatus id = some a ∧ a.isTerminal = true) ∧
      (recordings id (evs.filterMap PoolEvent.observe)).length = 1) := by
  obtain ⟨f, hseen, hfleet⟩ := toFleet h hrun
  have hheld := s.startFleet_idle.heldJobs
  have hrequeue := requeue_not_observed evs
  rw [← claimedIds_observe] at hid
  have htaken := Fleet.claimed_isTaken hheld hfleet hrequeue hid
  have hrecorded := congrArg List.length (Fleet.claimed_recordings hheld hfleet hid)
  rw [List.length_map] at hrecorded
  rw [hrecorded, ← hseen.db]
  unfold Database.queue at htaken ⊢
  cases hs : f.db.jobStatus id with
  | none =>
    rw [hs] at htaken
    exact htaken.elim
  | some a =>
    rw [hs] at htaken
    cases a with
    | new => exact htaken.elim
    | pending => exact .inl ⟨rfl, rfl⟩
    | done => exact .inr ⟨⟨.done, rfl, rfl⟩, rfl⟩
    | failed => exact .inr ⟨⟨.failed, rfl, rfl⟩, rfl⟩

omit [Fintype ℓ] in
/-- No job is claimed twice, by the same loop or by two, since a worker puts nothing
back. -/
theorem claims_count_le {k : Nat} {evs : List (PoolEvent ℓ)} (h : s.Starts k)
    (hrun : Run Step s evs t) (id : Int) : ((claimsOf evs).map (ofJob id)).sum ≤ 1 := by
  obtain ⟨f, -, hfleet⟩ := toFleet h hrun
  have hrequeue := requeue_not_observed evs
  have hnodup := Fleet.claimedIds_nodup s.startFleet_idle.heldJobs hfleet hrequeue
  rw [claimedIds_observe] at hnodup
  rw [sum_ofJob]
  exact List.nodup_iff_count_le_one.mp hnodup id

omit [Fintype ℓ] in
/-- A loop that has stopped owns no task. -/
theorem stopped_no_task {k : Nat} {evs : List (PoolEvent ℓ)} (h : s.Starts k)
    (hrun : Run Step s evs t) {l : ℓ} (hl : t.loop l = .stopped) : ∀ τ ∈ t.tasks, τ.owner ≠ l := by
  refine hrun.stateInvariant
    (I := fun s => s.loop l = .stopped → ∀ τ ∈ s.tasks, τ.owner ≠ l) ?_ ?_ hl
  · intro hl
    rw [h.ready l] at hl
    cases hl
  · intro t e u ht hstep hstopped τ hτ
    rcases hstep.task_cases hτ with ⟨stage, hτ⟩ | hclaimed
    · rcases hstep.stopped hstopped with hbefore | ⟨-, hnone⟩
      · exact ht hbefore ⟨τ.owner, τ.job, stage⟩ hτ
      · exact hnone ⟨τ.owner, τ.job, stage⟩ hτ
    · rintro rfl
      rcases hstep.stopped hstopped with hbefore | ⟨hbefore, -⟩ <;>
      · rw [hclaimed] at hbefore
        cases hbefore

/-- What a loop that has stopped claimed was recorded: it has joined all its tasks,
and has no job in hand. -/
theorem stopped_recorded {k : Nat} {evs : List (PoolEvent ℓ)} (h : s.Starts k)
    (hrun : Run Step s evs t) (hok : ∀ e ∈ evs, e.Succeeds) {l : ℓ} (hl : t.loop l = .stopped)
    {id : Int} (hid : (l, id) ∈ claimsOf evs) : (l, id) ∈ recordsOf evs := by
  have hread := flow_run h hrun hok (ofLoop l id) fun _ => 0
  have hcarry := flow_run h hrun hok (fun _ => 0) (ofLoop l id)
  have hother : ∀ p : ℓ × Int, p.1 ≠ l → ofLoop l id p = 0 := by
    intro p hp
    exact if_neg fun heq => hp (by rw [heq])
  -- the loop is nowhere near a job, and its tasks are gone
  have hreading : t.inHand (ofLoop l id) (fun _ => 0) = 0 := by
    refine inHand_eq_zero (fun i => ?_) fun τ _ => ite_self 0
    by_cases hi : i = l
    · rw [hi, hl, weight_stopped]
    · exact weight_eq_zero _ _ i (fun id' => hother (i, id') hi) (fun _ => rfl) _
  have hcarried : t.inHand (fun _ => 0) (ofLoop l id) = 0 := by
    refine inHand_eq_zero (fun i => ?_) fun τ hτ => ?_
    · by_cases hi : i = l
      · rw [hi, hl, weight_stopped]
      · exact weight_eq_zero _ _ i (fun _ => rfl) (fun id' => hother (i, id') hi) _
    · rw [Task.weight, hother _ (stopped_no_task h hrun hl τ hτ)]
      exact ite_self 0
  rw [hreading] at hread
  rw [hcarried] at hcarry
  simp only [sum_ofLoop, sum_zero] at hread hcarry
  have hpos := List.count_pos_iff.mpr hid
  refine List.count_pos_iff.mp ?_
  omega

/-- The balance of one job: of the jobs taken up, which are each taken up once, those are in
hand that are not recorded. -/
theorem balance_eq_ite {id : Int} {taken recorded : List Int} {n : Nat} {p : Prop} [Decidable p]
    (hbalance : n + recorded.count id = taken.count id) (hone : taken.count id ≤ 1)
    (hstatus : id ∈ taken → (p ∧ recorded.count id = 0) ∨ (¬p ∧ recorded.count id = 1)) :
    n = if id ∈ taken ∧ p then 1 else 0 := by
  by_cases htaken : id ∈ taken
  · have hpos := List.count_pos_iff.mpr htaken
    rcases hstatus htaken with ⟨hp, hrec⟩ | ⟨hp, hrec⟩
    · rw [if_pos ⟨htaken, hp⟩]
      omega
    · rw [if_neg fun hboth => hp hboth.2]
      omega
  · rw [if_neg fun hboth => htaken hboth.1]
    rw [← List.count_eq_zero] at htaken
    omega

/-- **The accounts of a worker.** In every run of the clones of a worker with `k`
slots whose store calls succeed:

- the tasks and the loops that hold a permit are at most `k`;
- a job `claim_next` returned is pending as long as exactly one loop or task has it
  in hand, and no longer;
- a row a call has claimed is pending as long as it is being read back or in hand;
- a loop whose `run` has returned has claimed only jobs that are finished. -/
theorem worker_accounts {k : Nat} {evs : List (PoolEvent ℓ)} (h : s.Starts k)
    (hrun : Run Step s evs t) (hok : ∀ e ∈ evs, e.Succeeds) :
    t.held ≤ k ∧
    (∀ id, t.carried id =
      if id ∈ (returnsOf evs).map Prod.snd ∧ t.db.jobStatus id = some .pending then 1 else 0) ∧
    (∀ id, t.reading id + t.carried id =
      if id ∈ (claimsOf evs).map Prod.snd ∧ t.db.jobStatus id = some .pending then 1 else 0) ∧
    ∀ l, t.loop l = .stopped → ∀ id, (l, id) ∈ claimsOf evs →
      ∃ a, t.db.jobStatus id = some a ∧ a.isTerminal = true := by
  have hflow : ∀ id,
      t.reading id + ((returnsOf evs).map Prod.snd).count id =
        ((claimsOf evs).map Prod.snd).count id ∧
      t.carried id + ((recordsOf evs).map Prod.snd).count id =
        ((returnsOf evs).map Prod.snd).count id := by
    intro id
    have hread := flow_run h hrun hok (ofJob id) fun _ => 0
    have hcarry := flow_run h hrun hok (fun _ => 0) (ofJob id)
    simp only [sum_ofJob, sum_zero] at hread hcarry
    unfold reading carried
    omega
  have hstatus : ∀ id, id ∈ (claimsOf evs).map Prod.snd →
      (t.db.jobStatus id = some .pending ∧ ((recordsOf evs).map Prod.snd).count id = 0) ∨
      ((∃ a, t.db.jobStatus id = some a ∧ a.isTerminal = true) ∧
        ((recordsOf evs).map Prod.snd).count id = 1) := by
    intro id hid
    have hclaimed := claimed_status h hrun hid
    rwa [recordings_observe hok, sum_ofJob] at hclaimed
  have hpending : ∀ id, id ∈ (claimsOf evs).map Prod.snd →
      (t.db.jobStatus id = some .pending ∧ ((recordsOf evs).map Prod.snd).count id = 0) ∨
      (¬t.db.jobStatus id = some .pending ∧ ((recordsOf evs).map Prod.snd).count id = 1) := by
    intro id hid
    refine (hstatus id hid).imp_right fun ⟨⟨a, ha, hterm⟩, hrec⟩ => ⟨fun hpending => ?_, hrec⟩
    rw [ha] at hpending
    cases hpending
    cases hterm
  have hone : ∀ id, ((claimsOf evs).map Prod.snd).count id ≤ 1 := by
    intro id
    have hle := claims_count_le h hrun id
    rwa [sum_ofJob] at hle
  refine ⟨?_, fun id => ?_, fun id => ?_, fun l hl id hid => ?_⟩
  · have hpermits := permits_add_held h hrun
    omega
  · obtain ⟨hread, hcarry⟩ := hflow id
    have hle := hone id
    refine balance_eq_ite hcarry (by omega) fun hret => hpending id ?_
    -- what is returned was claimed
    have hpos := List.count_pos_iff.mpr hret
    exact List.count_pos_iff.mp (by omega)
  · obtain ⟨hread, hcarry⟩ := hflow id
    exact balance_eq_ite (by omega) (hone id) (hpending id)
  · have hclaimed : id ∈ (claimsOf evs).map Prod.snd := List.mem_map_of_mem hid
    have hrecorded : id ∈ (recordsOf evs).map Prod.snd :=
      List.mem_map_of_mem (stopped_recorded h hrun hok hl hid)
    rcases hstatus id hclaimed with ⟨-, hrec⟩ | ⟨hterm, -⟩
    · have hpos := List.count_pos_iff.mpr hrecorded
      omega
    · exact hterm

/-- One loop with one slot, and one unclaimed job. -/
def startPool : Pool Unit := ⟨unclaimedDb, 1, fun _ => false, fun _ => .ready, []⟩

theorem startPool_starts : startPool.Starts 1 := ⟨rfl, fun _ => rfl, rfl⟩

/-- The same pool, with the loop in its first `select!` and the token cancelled while
the slot is free. -/
def cancelledPool : Pool Unit :=
  ⟨unclaimedDb, 1, Function.update (fun _ => false) () true,
    Function.update (fun _ => .ready) () .acquiring, []⟩

theorem startPool_cancelled : Run Step startPool [.reap (), .cancel ()] cancelledPool :=
  Run.cons (Step.reap startPool () rfl) (Run.single (Step.cancel _ ()))

/-- The events of `late_claim`. -/
def lateClaimEvents : List (PoolEvent Unit) :=
  [.acquire (), .statement () none none, .statement () (some 1) none,
    .statement () none (some 1), .spawn () 1, .reap (), .move (), .task () 1, .interrupt () 1,
    .task () 1, .finish () 1 shutdownOutcome (.ok ()), .drop () 1, .join (), .stop ()]

/-- The `select!` takes the slot, and the shutdown then fails the job. -/
theorem late_claim : ∃ t, Run Step cancelledPool lateClaimEvents t ∧ t.loop () = .stopped ∧
    t.db.jobStatus 1 = some .failed := by
  have hrun := Run.cons (Step.acquire cancelledPool () rfl (by decide)) <|
    Run.cons (Step.statement _ () (.select 4) rfl) <|
    Run.cons (Step.statement _ () (.update 1 4) rfl) <|
    Run.cons (Step.statement _ () (.read 1) rfl) <|
    Run.cons (Step.spawn _ () 1 rfl) <|
    Run.cons (Step.reap _ () rfl) <|
    Run.cons (Step.move _ () .draining (.shutdown rfl)) <|
    Run.cons (Step.task _ () 1 .starting .running [] [] rfl .create) <|
    Run.cons (Step.interrupt _ () 1 [] [] rfl rfl) <|
    Run.cons (Step.task _ () 1 _ _ [] [] rfl (.remove shutdownOutcome)) <|
    Run.cons (Step.finish _ () 1 shutdownOutcome [] [] rfl) <|
    Run.cons (Step.drop _ () 1 [] [] rfl) <|
    Run.cons (Step.join _ () 1 [] [] rfl rfl) <|
    Run.single (Step.stop _ () rfl (by simp))
  exact ⟨_, hrun, rfl, rfl⟩

/-- In that run every store call succeeds, and the row is finished. -/
theorem late_claim_finished : ∃ evs t, Run Step startPool evs t ∧
    ∃ a, t.db.jobStatus 1 = some a ∧ a.isTerminal = true := by
  obtain ⟨t, hlate, hstopped, -⟩ := late_claim
  have hrun := startPool_cancelled.append hlate
  have hok : ∀ e ∈ [.reap (), .cancel ()] ++ lateClaimEvents, e.Succeeds := by
    simp [lateClaimEvents, PoolEvent.Succeeds]
  have hclaimed : ((), 1) ∈ claimsOf ([.reap (), .cancel ()] ++ lateClaimEvents) := by decide
  exact ⟨_, t, hrun,
    (worker_accounts startPool_starts hrun hok).2.2.2 () hstopped 1 hclaimed⟩

end Pool

end JobRunner
