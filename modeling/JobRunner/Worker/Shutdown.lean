import JobRunner.Worker.Permits

/-!
# Shutdown

The loop looks at its token only in two `select!` expressions, next to a permit or
a timer. When a permit and the cancelled token are ready together, `select!` may take
the permit: the loop then claims a job only to fail it (`late_claim_fails_job`).

- `Exposed`, `Shielded`: a permit is free while a loop waits in its first `select!` with
  its token cancelled, and the steps from the other states.
- `Pool.callsLeft`, `Step.callsLeft`: a loop that begins no call claims at most what
  its call in progress claims.
- `InHands`, `inHands_claimed`: every task runs a row its loop has claimed.
- `shutdown_stops_claiming`: along shielded steps, shutdown stops the claiming; it does so
  along all steps exactly when no state that can be reached is exposed.
-/

namespace JobRunner

open Transition

namespace Pool

variable {ℓ : Type} [DecidableEq ℓ] {s t : Pool ℓ}

/-- Both branches of the first `select!` of loop `l` are ready: its token is cancelled, and a
permit is free. -/
structure Exposed (s : Pool ℓ) (l : ℓ) : Prop where
  cancelled : s.cancelled l = true
  waiting : s.loop l = .acquiring
  free : 0 < s.permits

/-- A step from a state in which loop `l` is not exposed. -/
def Shielded (l : ℓ) (s : Pool ℓ) (e : PoolEvent ℓ) (t : Pool ℓ) : Prop :=
  Step s e t ∧ ¬s.Exposed l

/-- A loop that waits for no permit is not exposed. -/
theorem Step.shielded {e : PoolEvent ℓ} (h : Step s e t) {l : ℓ} (hl : s.loop l ≠ .acquiring) :
    Shielded l s e t :=
  ⟨h, fun hexposed => hl hexposed.waiting⟩

/-- In an exposed state the `select!` may take the permit. -/
theorem Exposed.acquire {l : ℓ} (h : s.Exposed l) : ∃ t, Step s (.acquire l) t :=
  ⟨_, Step.acquire s l h.waiting h.free⟩

/-- A cancelled token stays cancelled. -/
theorem Step.cancelled {e : PoolEvent ℓ} (h : Step s e t) {l : ℓ}
    (hl : s.cancelled l = true) : t.cancelled l = true := by
  cases h with
  | cancel l' =>
    show Function.update s.cancelled l' true l = true
    by_cases hll : l = l'
    · rw [hll, Function.update_self]
    · rwa [Function.update_of_ne hll]
  | _ => exact hl

/-! ## Calls in progress -/

omit [DecidableEq ℓ] in
/-- The claims the `claim_next` call of a loop may still make. -/
def callsLeft (s : Pool ℓ) (l : ℓ) : Nat :=
  match s.loop l with
  | .claiming (.select _) | .claiming (.update _ _) => 1
  | _ => 0

/-- The indicator of loop `l`. -/
def ofOwner (l : ℓ) (p : ℓ × Int) : Nat := if p.1 = l then 1 else 0

omit [DecidableEq ℓ] in
theorem callsLeft_eq (h : t.loop l = s.loop l) : t.callsLeft l = s.callsLeft l := by
  unfold callsLeft
  rw [h]

/-- A step that begins no call of loop `l` uses up what it claims. The call that was
under way when the token was cancelled is all there is to use up. -/
theorem Step.callsLeft {e : PoolEvent ℓ} (h : Step s e t) {l : ℓ} (he : e ≠ .acquire l) :
    t.callsLeft l + weightOf (ofOwner l) e.claim? ≤ s.callsLeft l := by
  have hgoto : ∀ l' pc, (∀ c, pc ≠ .claiming c) → (s.goto l' pc).callsLeft l ≤ s.callsLeft l := by
    intro l' pc hpc
    by_cases hl : l = l'
    · subst hl
      unfold Pool.callsLeft
      rw [goto_loop, Function.update_self]
      cases pc <;> simp_all
    · exact le_of_eq (callsLeft_eq (by rw [goto_loop, Function.update_of_ne hl]))
  cases h with
  | enqueue | reserve | cancel | join | task | interrupt | finish | finishFails | drop =>
    exact le_rfl
  | reap l' hl | fail l' pc hl | spawn l' id hl | release l' hl | stop l' hl =>
    exact hgoto l' _ (by simp)
  | move l' pc hmove =>
    refine hgoto l' pc ?_
    rintro c rfl
    generalize s.loop l' = old at hmove
    cases hmove
  | acquire l' hl hfree =>
    have hll : l ≠ l' := by
      rintro rfl
      exact he rfl
    exact le_of_eq (callsLeft_eq (by rw [goto_loop, Function.update_of_ne hll]))
  | statement l' pc hl =>
    have heffect := pc.step_effect s.db
    generalize (pc.step s.db).1 = db, (pc.step s.db).2 = next, pc.claims s.db = claimed
      at heffect
    -- the statement is of this loop, or of another
    by_cases hll : l = l'
    · subst hll
      unfold Pool.callsLeft
      rw [hl]
      cases heffect with
      | empty | found | retry | giveUp =>
        simp [ClaimNext.loopPc, PoolEvent.claim?, weightOf]
      | won hnew => simp [ClaimNext.loopPc, PoolEvent.claim?, weightOf, ofOwner]
      | @read id =>
        cases hrow : s.db.jobRow id <;> simp [ClaimNext.loopPc, PoolEvent.claim?, weightOf]
    · have hsame : Pool.callsLeft { s.goto l' next.loopPc with db := db } l = s.callsLeft l :=
        callsLeft_eq (by simp [Function.update_of_ne hll])
      have hother :
          weightOf (ofOwner l) (PoolEvent.statement l' claimed next.returned?).claim? = 0 := by
        cases claimed <;> simp [PoolEvent.claim?, weightOf, ofOwner, Ne.symm hll]
      rw [hsame, hother, Nat.add_zero]

/-! ## Rows in a loop's hands -/

/-- Loop `l`, or one of its tasks, has job `id`. -/
def InHands (s : Pool ℓ) (l : ℓ) (id : Int) : Prop :=
  s.loop l = .claiming (.read id) ∨ s.loop l = .claimed id ∨
    ∃ stage, ⟨l, id, stage⟩ ∈ s.tasks

/-- The job a loop itself has. -/
def loopJob : LoopPc → Option Int
  | .claiming (.read id) => some id
  | .claimed id => some id
  | _ => none

theorem goto_job {l l' : ℓ} {pc : LoopPc} {id : Int} (hpc : loopJob pc = none)
    (h : loopJob ((s.goto l' pc).loop l) = some id) : loopJob (s.loop l) = some id := by
  rcases goto_loop_eq (s := s) rfl with hsame | ⟨-, heq⟩
  · rw [hsame]
    exact h
  · rw [← heq, hpc] at h
    cases h

/-- A loop gets a job by the claim of its call, and keeps it until it is spawned:
from then on a task has it. -/
theorem Step.loop_job {e : PoolEvent ℓ} (h : Step s e t) {l : ℓ} {id : Int}
    (ht : loopJob (t.loop l) = some id) :
    loopJob (s.loop l) = some id ∨ e.claim? = some (l, id) := by
  cases h with
  | enqueue | reserve | cancel | join | task | interrupt | finish | finishFails | drop =>
    exact .inl ht
  | reap | acquire | fail | spawn | release | stop => exact .inl (goto_job rfl ht)
  | move l' pc hmove =>
    refine .inl (goto_job ?_ ht)
    generalize s.loop l' = old at hmove
    cases hmove <;> rfl
  | statement l' pc hl =>
    rcases goto_loop_eq (rfl : (s.goto l' (pc.step s.db).2.loopPc).loop l = _) with
      hsame | ⟨rfl, hpc⟩
    · rw [hsame]
      exact .inl ht
    · have hjob : loopJob (pc.step s.db).2.loopPc = some id := by
        rw [hpc]
        exact ht
      have heffect := pc.step_effect s.db
      generalize (pc.step s.db).1 = db, (pc.step s.db).2 = next, pc.claims s.db = claimed
        at heffect hjob
      rw [hl]
      cases heffect with
      | won hnew =>
        cases hjob
        exact .inr rfl
      | empty | found | retry | giveUp => cases hjob
      | @read id' =>
        cases hrow : s.db.jobRow id' with
        | none =>
          rw [hrow] at hjob
          cases hjob
        | some m =>
          rw [hrow] at hjob
          cases hjob
          -- the job that was returned is the one being read back
          have hid : m.id = id' := Database.jobRow_id hrow
          exact .inl (congrArg some hid.symm)

/-- A job a loop has after a step was there before, or the step claimed it. -/
theorem Step.inHands {e : PoolEvent ℓ} (h : Step s e t) {l : ℓ} {id : Int}
    (ht : t.InHands l id) : s.InHands l id ∨ e.claim? = some (l, id) := by
  have hloop : loopJob (t.loop l) = some id → s.InHands l id ∨ e.claim? = some (l, id) := by
    intro hjob
    refine (h.loop_job hjob).imp_left fun hbefore => ?_
    generalize hpc : s.loop l = pc at hbefore
    match pc, hbefore with
    | .claiming (.read _), rfl => exact .inl hpc
    | .claimed _, rfl => exact .inr (.inl hpc)
  rcases ht with hread | hclaimed | ⟨stage, hτ⟩
  · exact hloop (by rw [hread]; rfl)
  · exact hloop (by rw [hclaimed]; rfl)
  · rcases h.task_cases hτ with ⟨stage', hτ⟩ | hclaimed
    · exact .inl (.inr (.inr ⟨stage', hτ⟩))
    · exact .inl (.inr (.inl hclaimed))

/-- Every job in the hands of a loop was claimed by it. -/
theorem inHands_claimed {k : Nat} {evs : List (PoolEvent ℓ)} (h : s.Starts k)
    (hrun : Run Step s evs t) {l : ℓ} {id : Int} (ht : t.InHands l id) :
    (l, id) ∈ claimsOf evs := by
  induction hrun with
  | nil =>
    rcases ht with hread | hclaimed | ⟨stage, hτ⟩
    · rw [h.ready l] at hread
      cases hread
    · rw [h.ready l] at hclaimed
      cases hclaimed
    · rw [h.empty] at hτ
      cases hτ
  | @snoc t u evs e hrun hstep ih =>
    rw [mem_claimsOf_append]
    rcases hstep.inHands ht with hbefore | hclaim
    · exact .inl (ih hbefore)
    · exact .inr (List.mem_filterMap.mpr ⟨e, List.mem_singleton_self e, hclaim⟩)

/-! ## Unclaimed jobs -/

/-- An unclaimed job changes only when it is claimed. Stopping the worker interrupts
only jobs in hand, and they are pending. -/
theorem Step.jobStatus_new {e : PoolEvent ℓ} (h : Step s e t) {f : Fleet ℓ} (hseen : s.SeenAs f)
    (hheld : f.HeldJobs) {j : Int} (hj : s.db.jobStatus j = some .new) :
    t.db.jobStatus j = some .new ∨ ∃ l, e.claim? = some (l, j) := by
  obtain ⟨f', hseen', hanswer⟩ := h.seenAs hseen
  cases hobserve : e.observe with
  | none =>
    rw [hobserve] at hanswer
    obtain rfl : f' = f := hanswer
    rw [← hseen'.db, hseen.db]
    exact .inl hj
  | some d =>
    rw [hobserve] at hanswer
    rw [← hseen.db] at hj
    obtain ⟨b, hb, hmove⟩ := Fleet.Step.statusMove hanswer hheld hj
    rw [hseen'.db] at hb
    generalize hnew : JobStatus.new = a at hmove
    cases hmove with
    | stay => exact .inl (hnew ▸ hb)
    | claim w hd =>
      subst hd
      cases e with
      | statement l claimed returned =>
        cases hobserve
        exact .inr ⟨w, rfl⟩
      | _ => cases hobserve
    | finish | requeue => cases hnew

theorem jobStatus_new_run {k : Nat} {evs evs' : List (PoolEvent ℓ)} {u : Pool ℓ}
    (h : s.Starts k) (hrun : Run Step s evs t) (hrun' : Run Step t evs' u) {j : Int}
    (hj : t.db.jobStatus j = some .new) :
    u.db.jobStatus j = some .new ∨ ∃ l, (l, j) ∈ claimsOf evs' := by
  induction hrun' with
  | nil => exact .inl hj
  | @snoc u v evs' e hrun' hstep ih =>
    rcases ih with hnew | ⟨l, hl⟩
    · obtain ⟨f, hseen, hfleet⟩ := toFleet h (hrun.append hrun')
      have hheld := Fleet.heldJobs_run hfleet s.startFleet_idle.heldJobs
      refine (hstep.jobStatus_new hseen hheld hnew).imp_right ?_
      rintro ⟨l, hclaim⟩
      refine ⟨l, mem_claimsOf_append.mpr (.inr ?_)⟩
      exact List.mem_filterMap.mpr ⟨e, List.mem_singleton_self e, hclaim⟩
    · exact .inr ⟨l, mem_claimsOf_append.mpr (.inl hl)⟩

/-! ## Shutdown stops the claiming -/

/-- What shutdown promises of loop `l`, whose token is cancelled in the state `s`
reached by the events `before`, along the events `evs` that lead from `s` to `t`. -/
structure StopsClaiming (l : ℓ) (before : List (PoolEvent ℓ)) (s : Pool ℓ)
    (evs : List (PoolEvent ℓ)) (t : Pool ℓ) : Prop where
  /-- No call of `claim_next` is begun. -/
  begun : .acquire l ∉ evs
  /-- What is claimed, the call in progress at the cancellation claims: at most one
  row, and none when there was no such call. -/
  claimed : ((claimsOf evs).map (ofOwner l)).sum ≤ s.callsLeft l
  /-- The shutdown interrupts only jobs that were claimed, or being claimed. -/
  interrupted : ∀ id, .interrupt l id ∈ evs →
    (l, id) ∈ claimsOf before ∨ s.callsLeft l = 1 ∧ (l, id) ∈ claimsOf evs
  /-- Every other unclaimed job is left unclaimed, unless another loop claims it. -/
  unclaimed : ∀ j, s.db.jobStatus j = some .new → t.db.jobStatus j = some .new ∨
    (∃ l' ≠ l, (l', j) ∈ claimsOf evs) ∨ s.callsLeft l = 1 ∧ (l, j) ∈ claimsOf evs

/-- A step that begins a call takes a free permit, so with the token cancelled it starts in an
exposed state. -/
theorem Step.exposed {l : ℓ} (h : Step s (.acquire l) t) (hl : s.cancelled l = true) :
    s.Exposed l := by
  generalize he : PoolEvent.acquire l = e at h
  cases h with
  | acquire l' hwaiting hfree =>
    injection he with hll
    subst hll
    exact ⟨hl, hwaiting, hfree⟩
  | _ => cases he

/-- Shielded steps begin no call once the token is cancelled, since the only step
that begins one starts from an exposed state. -/
theorem Shielded.begun_run {evs : List (PoolEvent ℓ)} {l : ℓ} (hl : s.cancelled l = true)
    (hrun : Run (Shielded l) s evs t) : t.cancelled l = true ∧ .acquire l ∉ evs := by
  induction hrun with
  | nil => exact ⟨hl, List.not_mem_nil⟩
  | @snoc t u evs e hrun hstep ih =>
    obtain ⟨hcancelled, hbegun⟩ := ih
    refine ⟨hstep.1.cancelled hcancelled, ?_⟩
    rw [List.mem_append, List.mem_singleton, not_or]
    refine ⟨hbegun, ?_⟩
    rintro rfl
    exact hstep.2 (hstep.1.exposed hcancelled)

/-- **Run lemma.** Where no call is begun, the claims of a loop are within the one
call it may have been in. -/
theorem callsLeft_run {evs : List (PoolEvent ℓ)} {l : ℓ} (hrun : Run Step s evs t)
    (hbegun : .acquire l ∉ evs) :
    t.callsLeft l + ((claimsOf evs).map (ofOwner l)).sum ≤ s.callsLeft l := by
  induction hrun with
  | nil => exact le_rfl
  | @snoc t u evs e hrun hstep ih =>
    rw [List.mem_append, List.mem_singleton, not_or] at hbegun
    have ih' := ih hbegun.1
    have hstep' := hstep.callsLeft (Ne.symm hbegun.2)
    rw [claimsOf, sum_filterMap_snoc, ← claimsOf]
    omega

omit [DecidableEq ℓ] in
theorem callsLeft_le (s : Pool ℓ) (l : ℓ) : s.callsLeft l ≤ 1 := by
  unfold callsLeft
  split <;> omega

theorem one_le_sum_ofOwner {jobs : List (ℓ × Int)} {l : ℓ} {id : Int} (h : (l, id) ∈ jobs) :
    1 ≤ (jobs.map (ofOwner l)).sum := by
  obtain ⟨xs, ys, rfl⟩ := List.append_of_mem h
  simp only [List.map_append, List.map_cons, List.sum_append, List.sum_cons, ofOwner, if_true]
  omega

/-- Where no call is begun, all that shutdown promises holds. -/
theorem stopsClaiming {k : Nat} {s₀ : Pool ℓ} {before evs : List (PoolEvent ℓ)} {l : ℓ}
    (h : s₀.Starts k) (hrun₀ : Run Step s₀ before s) (hrun₁ : Run Step s evs t)
    (hbegun : .acquire l ∉ evs) : StopsClaiming l before s evs t := by
  have hclaims := callsLeft_run hrun₁ hbegun
  -- a row the loop claims now is the one of its call in progress
  have hinProgress : ∀ id, (l, id) ∈ claimsOf evs → s.callsLeft l = 1 := by
    intro id hid
    have hpos := one_le_sum_ofOwner hid
    have hle := callsLeft_le s l
    omega
  refine ⟨hbegun, by omega, fun id hid => ?_, fun j hj => ?_⟩
  · obtain ⟨xs, ys, rfl⟩ := List.append_of_mem hid
    obtain ⟨m, hxs, hrest⟩ := hrun₁.split
    obtain ⟨u, hstep, -⟩ := hrest.cons_inv
    have hhands : m.InHands l id := by
      generalize he : PoolEvent.interrupt l id = e at hstep
      cases hstep with
      | interrupt l' id' pre post htasks hcancelled =>
        injection he with hl' hid'
        subst hl' hid'
        exact .inr (.inr ⟨.running, by rw [htasks]; simp⟩)
      | _ => cases he
    have hclaimed := inHands_claimed h (hrun₀.append hxs) hhands
    refine (mem_claimsOf_append.mp hclaimed).imp_right fun hclaimed => ?_
    have hmem : (l, id) ∈ claimsOf (xs ++ .interrupt l id :: ys) :=
      mem_claimsOf_append.mpr (.inl hclaimed)
    exact ⟨hinProgress id hmem, hmem⟩
  · refine (jobStatus_new_run h hrun₀ hrun₁ hj).imp_right ?_
    rintro ⟨l', hclaimed⟩
    by_cases hll : l' = l
    · subst hll
      exact .inr ⟨hinProgress j hclaimed, hclaimed⟩
    · exact .inl ⟨l', hll, hclaimed⟩

/-- **Shutdown stops the claiming** in every run that never steps from a state in which the
loop is exposed. All runs from a state stop the claiming exactly when none of them leads to
an exposed state. -/
theorem shutdown_stops_claiming {k : Nat} {s₀ : Pool ℓ} {before : List (PoolEvent ℓ)} {l : ℓ}
    (h : s₀.Starts k) (hbefore : Run Step s₀ before s) (hl : s.cancelled l = true) :
    (∀ evs t, Run (Shielded l) s evs t → StopsClaiming l before s evs t) ∧
    ((∀ evs t, Run Step s evs t → StopsClaiming l before s evs t) ↔
      ∀ evs t, Run Step s evs t → ¬t.Exposed l) := by
  have hshielded : ∀ evs t, Run (Shielded l) s evs t → StopsClaiming l before s evs t := by
    intro evs t hrun
    exact stopsClaiming h hbefore (hrun.mono fun hstep => hstep.1) (Shielded.begun_run hl hrun).2
  refine ⟨hshielded, fun hstops evs t hrun hexposed => ?_, fun hnever evs t hrun => ?_⟩
  · obtain ⟨u, hstep⟩ := hexposed.acquire
    exact (hstops _ u (hrun.snoc hstep)).begun (by simp)
  · refine hshielded evs t ?_
    clear hshielded
    -- every state on the way is reached by a run from `s`
    induction hrun with
    | nil => exact .nil s
    | @snoc t u evs e hrun hstep ih => exact ih.snoc ⟨hstep, hnever evs t hrun⟩

/-- One loop with one slot, and two unclaimed jobs. -/
def busyPool : Pool Unit := ⟨twoJobsDb, 1, fun _ => false, fun _ => .ready, []⟩

theorem busyPool_starts : busyPool.Starts 1 := ⟨rfl, fun _ => rfl, rfl⟩

/-- Job 1 takes the slot, the loop waits for another, and the token is cancelled. -/
def busyEvents : List (PoolEvent Unit) :=
  [.reap (), .acquire (), .statement () none none, .statement () (some 1) none,
    .statement () none (some 1), .spawn () 1, .task () 1, .reap (), .cancel ()]

/-- The loop leaves its `select!` before the interrupted job gives its slot back. -/
def drainEvents : List (PoolEvent Unit) :=
  [.move (), .interrupt () 1, .task () 1, .finish () 1 shutdownOutcome (.ok ()), .drop () 1,
    .join (), .stop ()]

theorem busyPool_drains : ∃ s t, Run Step busyPool busyEvents s ∧ s.cancelled () = true ∧
    Run (Shielded ()) s drainEvents t ∧ t.loop () = .stopped ∧
    t.db.jobStatus 1 = some .failed ∧ t.db.jobStatus 2 = some .new := by
  have hbusy := Run.cons (Step.reap busyPool () rfl) <|
    Run.cons (Step.acquire _ () rfl (by decide)) <|
    Run.cons (Step.statement _ () (.select 4) rfl) <|
    Run.cons (Step.statement _ () (.update 1 4) rfl) <|
    Run.cons (Step.statement _ () (.read 1) rfl) <|
    Run.cons (Step.spawn _ () 1 rfl) <|
    Run.cons (Step.task _ () 1 .starting .running [] [] rfl .create) <|
    Run.cons (Step.reap _ () rfl) <|
    Run.single (Step.cancel _ ())
  exact ⟨_, _, hbusy, rfl,
    Run.cons ⟨Step.move _ () .draining (.shutdown rfl), fun h => absurd h.free (by decide)⟩ <|
    Run.cons ((Step.interrupt _ () 1 [] [] rfl rfl).shielded (by rintro ⟨⟩)) <|
    Run.cons ((Step.task _ () 1 _ _ [] [] rfl (.remove shutdownOutcome)).shielded
      (by rintro ⟨⟩)) <|
    Run.cons ((Step.finish _ () 1 shutdownOutcome [] [] rfl).shielded (by rintro ⟨⟩)) <|
    Run.cons ((Step.drop _ () 1 [] [] rfl).shielded (by rintro ⟨⟩)) <|
    Run.cons ((Step.join _ () 1 [] [] rfl rfl).shielded (by rintro ⟨⟩)) <|
    Run.single ((Step.stop _ () rfl (by simp)).shielded (by rintro ⟨⟩)), rfl, rfl, rfl⟩

/-- A shutdown while all slots are taken: the running job is interrupted, and the queued one
stays unclaimed. -/
theorem busyPool_stops_claiming : ∃ s t, Run Step busyPool busyEvents s ∧
    Run (Shielded ()) s drainEvents t ∧ .interrupt () 1 ∈ drainEvents ∧
    t.db.jobStatus 2 = some .new ∧ StopsClaiming () busyEvents s drainEvents t := by
  obtain ⟨s, t, hbusy, hcancelled, hdrain, -, -, hnew⟩ := busyPool_drains
  exact ⟨s, t, hbusy, hdrain, by simp [drainEvents], hnew,
    (shutdown_stops_claiming busyPool_starts hbusy hcancelled).1 _ _ hdrain⟩

/-- A slot is free when the token is cancelled, and the `select!` takes it: a call of
`claim_next` is begun, and a job that was unclaimed is failed by the shutdown. -/
theorem late_claim_fails_job : Run Step startPool [.reap (), .cancel ()] cancelledPool ∧
    cancelledPool.cancelled () = true ∧ cancelledPool.db.jobStatus 1 = some .new ∧
    ∃ t, Run Step cancelledPool lateClaimEvents t ∧ .acquire () ∈ lateClaimEvents ∧
      .interrupt () 1 ∈ lateClaimEvents ∧ t.db.jobStatus 1 = some .failed ∧
      ¬StopsClaiming () [.reap (), .cancel ()] cancelledPool lateClaimEvents t := by
  obtain ⟨t, hrun, -, hfailed⟩ := late_claim
  refine ⟨startPool_cancelled, rfl, rfl, t, hrun, by simp [lateClaimEvents],
    by simp [lateClaimEvents], hfailed, fun h => ?_⟩
  exact h.begun (by simp [lateClaimEvents])

end Pool

end JobRunner
