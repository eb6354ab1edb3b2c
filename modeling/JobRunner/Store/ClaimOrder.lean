import JobRunner.Store.Lifecycle

/-!
# Exclusive claims, oldest first

`claim_next` reads a candidate in one statement and claims it in another, so the
candidate may be stale when the `UPDATE` arrives. Still a claim takes only an
unclaimed job, a job is claimed again only after a requeue, and, as long as
nothing is requeued and jobs become visible in the order of their ids, all claims
of all workers together are in increasing order.

- `Step.claimed`: what a claiming statement found and did.
- `OldestFirst`: the invariant behind the order. Below a candidate, and up to a
  claimed id, nothing is unclaimed.
- `claims_exclusive_in_order`: the three facts.
-/

namespace JobRunner

open Transition

/-- The ids claimed along a run, in the order of the claims. -/
def claimedIds {ω : Type} (evs : List (FleetEvent ω)) : List Int :=
  evs.filterMap fun
    | .statement _ claimed => claimed
    | _ => none

namespace Fleet

variable {ω : Type} [DecidableEq ω] {s t : Fleet ω} {evs : List (FleetEvent ω)}

/-- A claiming statement is the `UPDATE` of a call, on a job that is unclaimed at
that moment. Afterwards the job is pending, and the call goes on to read it back. -/
theorem Step.claimed {w : ω} {id : Int} (h : Step s (.statement w (some id)) t) :
    (∃ left, s.pc w = some (.update id left)) ∧ s.db.jobStatus id = some .new ∧
      t.db.jobStatus id = some .pending ∧ t.pc w = some (.read id) := by
  generalize he : FleetEvent.statement w (some id) = e at h
  cases h with
  | statement w' pc hpc =>
    injection he with hw hclaims
    subst hw
    obtain ⟨⟨left, rfl⟩, hnew⟩ := ClaimPc.claims_eq_some_iff.mp hclaims.symm
    have hwon : (s.db.tryClaim id).2 = true := Database.tryClaim_won_iff.mpr hnew
    refine ⟨⟨left, hpc⟩, hnew, ?_, ?_⟩
    · rw [proceed_db, ClaimPc.step_update]
      simp [Database.jobStatus_tryClaim, hnew]
    · simp [proceed, ClaimPc.step_update, hwon, advance]
  | _ => cases he

omit [DecidableEq ω] in
theorem mem_claimedIds {id : Int} :
    id ∈ claimedIds evs ↔ ∃ w, FleetEvent.statement w (some id) ∈ evs := by
  unfold claimedIds
  rw [List.mem_filterMap]
  constructor
  · rintro ⟨e, hmem, he⟩
    cases e with
    | statement w claimed =>
      cases he
      exact ⟨w, hmem⟩
    | _ => cases he
  · rintro ⟨w, hmem⟩
    exact ⟨_, hmem, rfl⟩

/-- Where a candidate comes from: it was there before, or this step's `SELECT`
found it. -/
theorem Step.candidate {e : FleetEvent ω} (h : Step s e t) {w : ω} {id : Int} {left : Nat}
    (hpc : t.pc w = some (.update id left)) :
    s.pc w = some (.update id left) ∨ t.db = s.db ∧ s.db.oldestUnclaimedId = some id := by
  rcases h.pc_cases hpc with hpc | hfirst | ⟨pc, claimed, heffect⟩
  · exact .inl hpc
  · cases hfirst
  · generalize hnext : ClaimNext.goto (.update id left) = next at heffect
    generalize t.db = db at heffect
    cases heffect with
    | found hold =>
      cases hnext
      exact .inr ⟨rfl, hold⟩
    | empty | won | retry | giveUp | read => cases hnext

/-- Without a requeue, an unclaimed job was unclaimed before, or has just become
visible. Nothing else makes a job unclaimed. -/
theorem Step.jobStatus_new {e : FleetEvent ω} (h : Step s e t) (hheld : s.HeldJobs)
    (he : e ≠ .requeue) {j : Int} (hj : t.db.jobStatus j = some .new) :
    s.db.jobStatus j = some .new ∨
      s.db.jobStatus j = none ∧ e.observe = some (.submit j) := by
  cases ha : s.db.jobStatus j with
  | none => exact .inr ⟨rfl, (h.jobStatus_appears hheld ha hj).2⟩
  | some a =>
    obtain ⟨b, hb, hmove⟩ := h.statusMove hheld ha
    rw [hj] at hb
    cases hb
    generalize hnew : JobStatus.new = b at hmove
    cases hmove with
    | stay => exact .inl rfl
    | claim => cases hnew
    | finish w o => cases o <;> cases hnew
    | requeue heq => exact absurd heq he

/-- The steps of a system that requeues nothing and in which jobs become visible
in the order of their ids. -/
def InOrder (s : Fleet ω) (e : FleetEvent ω) (t : Fleet ω) : Prop :=
  Step s e t ∧ e ≠ .requeue ∧
    ∀ id, e.observe = some (.submit id) → ∀ j, s.db.jobStatus j ≠ none → j < id

/-- A step that submits nothing and is no requeue is in order. -/
theorem Step.inOrder {e : FleetEvent ω} (h : Step s e t) (he : e ≠ .requeue)
    (hobserve : ∀ id, e.observe ≠ some (.submit id)) : InOrder s e t :=
  ⟨h, he, fun id hid => absurd hid (hobserve id)⟩

/-- The steps of a call are in order. -/
theorem InOrder.begin (s : Fleet ω) (w : ω) (hidle : s.pc w = none) :
    InOrder s (.begin w) (s.setPc w (some .first)) :=
  (Step.begin s w hidle).inOrder (by rintro ⟨⟩) (by rintro id ⟨⟩)

theorem InOrder.statement (s : Fleet ω) (w : ω) (pc : ClaimPc) (hpc : s.pc w = some pc) :
    InOrder s (.statement w (pc.claims s.db)) (s.proceed w pc) := by
  refine (Step.statement s w pc hpc).inOrder (by rintro ⟨⟩) fun id => ?_
  cases pc.claims s.db <;> rintro ⟨⟩

/-- Nothing below a candidate is unclaimed, and nothing up to a claimed id. -/
structure OldestFirst (evs : List (FleetEvent ω)) (s : Fleet ω) : Prop where
  candidates : ∀ w id left, s.pc w = some (.update id left) →
    s.db.jobStatus id ≠ none ∧ ∀ j < id, s.db.jobStatus j ≠ some .new
  claimed : ∀ id ∈ claimedIds evs,
    s.db.jobStatus id ≠ none ∧ ∀ j ≤ id, s.db.jobStatus j ≠ some .new
  sorted : (claimedIds evs).Pairwise (· < ·)

/-- A job that is not unclaimed below a visible id stays so. -/
theorem InOrder.not_new {e : FleetEvent ω} (h : InOrder s e t) (hheld : s.HeldJobs) {id j : Int}
    (hid : s.db.jobStatus id ≠ none) (hle : j ≤ id) (hj : s.db.jobStatus j ≠ some .new) :
    t.db.jobStatus j ≠ some .new := by
  intro hnew
  obtain ⟨hstep, he, hvisible⟩ := h
  rcases hstep.jobStatus_new hheld he hnew with hold | ⟨-, hsubmit⟩
  · exact hj hold
  · have := hvisible j hsubmit id hid
    omega

/-- **Step lemma.** A claim takes the candidate of its call, below which no job was
unclaimed at the `SELECT`, and in order none has appeared there since. So a claimed
id is above the earlier ones, and the candidates of the other calls are what they
were. -/
theorem OldestFirst.step {e : FleetEvent ω} (hinv : OldestFirst evs s) (hheld : s.HeldJobs)
    (h : InOrder s e t) : OldestFirst (evs ++ [e]) t := by
  have hvisible : ∀ {j}, s.db.jobStatus j ≠ none → t.db.jobStatus j ≠ none :=
    h.1.jobStatus_ne_none hheld
  -- the ids claimed before this step keep what the invariant says of them
  have hbefore : ∀ id ∈ claimedIds evs,
      t.db.jobStatus id ≠ none ∧ ∀ j ≤ id, t.db.jobStatus j ≠ some .new := by
    intro id hmem
    obtain ⟨hid, hbelow⟩ := hinv.claimed id hmem
    exact ⟨hvisible hid, fun j hj => h.not_new hheld hid hj (hbelow j hj)⟩
  have hcandidates : ∀ w id left, t.pc w = some (.update id left) →
      t.db.jobStatus id ≠ none ∧ ∀ j < id, t.db.jobStatus j ≠ some .new := by
    intro w id left hpc
    rcases h.1.candidate hpc with hpc | ⟨hdb, hold⟩
    · obtain ⟨hid, hbelow⟩ := hinv.candidates w id left hpc
      exact ⟨hvisible hid, fun j hj => h.not_new hheld hid hj.le (hbelow j hj)⟩
    · obtain ⟨hnew, hleast⟩ := Database.oldestUnclaimedId_eq_some hold
      rw [hdb]
      refine ⟨by simp [hnew], fun j hj hjnew => ?_⟩
      have := hleast j hjnew
      omega
  by_cases hclaim : ∃ w id, e = .statement w (some id)
  · obtain ⟨w, id, rfl⟩ := hclaim
    have hids : claimedIds (evs ++ [.statement w (some id)]) = claimedIds evs ++ [id] := by
      simp [claimedIds]
    obtain ⟨⟨left, hpc⟩, hnew, hpending, -⟩ := h.1.claimed
    obtain ⟨hid, hbelow⟩ := hinv.candidates w id left hpc
    refine ⟨hcandidates, ?_, ?_⟩
    · rw [hids]
      intro id' hmem
      rcases List.mem_append.mp hmem with hmem | hmem
      · exact hbefore id' hmem
      · rw [List.mem_singleton.mp hmem]
        refine ⟨hvisible hid, fun j hj => ?_⟩
        rcases hj.lt_or_eq with hlt | rfl
        · exact h.not_new hheld hid hlt.le (hbelow j hlt)
        · rw [hpending]
          decide
    · rw [hids, List.pairwise_append]
      refine ⟨hinv.sorted, List.pairwise_singleton _ _, fun id' hmem id'' hid'' => ?_⟩
      rw [List.mem_singleton.mp hid'']
      -- up to `id'` nothing is unclaimed, but `id` was
      by_contra hle
      exact (hinv.claimed id' hmem).2 id (by omega) hnew
  · have hids : claimedIds (evs ++ [e]) = claimedIds evs := by
      cases e with
      | statement w claimed =>
        cases claimed with
        | none => simp [claimedIds]
        | some id => exact absurd ⟨w, id, rfl⟩ hclaim
      | _ => simp [claimedIds]
    refine ⟨hcandidates, ?_, ?_⟩ <;> rw [hids]
    · exact hbefore
    · exact hinv.sorted

theorem Idle.oldestFirst (h : s.Idle) (hrun : Run InOrder s evs t) : OldestFirst evs t := by
  suffices OldestFirst evs t ∧ t.HeldJobs from this.1
  refine hrun.invariant (I := fun evs t => OldestFirst evs t ∧ t.HeldJobs) ⟨?_, h.heldJobs⟩ ?_
  · refine ⟨fun w id left hpc => ?_, fun id hmem => absurd hmem List.not_mem_nil, List.Pairwise.nil⟩
    rw [h.idle w] at hpc
    cases hpc
  · intro evs t e u hI hstep
    exact ⟨hI.1.step hI.2 hstep, hstep.1.heldJobs hI.2⟩

/-- Between two claims of a job there is a requeue: the first leaves it pending, and
only a requeue makes a pending job unclaimed. -/
theorem requeue_between {w w' : ω} {id : Int} {xs ys zs : List (FleetEvent ω)}
    (hheld : s.HeldJobs)
    (hrun : Run Step s (xs ++ .statement w (some id) :: ys ++ .statement w' (some id) :: zs) t) :
    .requeue ∈ ys := by
  have hqueue := toQueue hrun hheld
  simp only [List.filterMap_append, List.filterMap_cons, FleetEvent.observe] at hqueue
  obtain ⟨e, hmem, he⟩ := List.mem_filterMap.mp (WorkQueue.Run.recover_between hqueue)
  rwa [FleetEvent.observe_recover he] at hmem

/-! ## Jobs that were claimed -/

theorem Step.isTaken {e : FleetEvent ω} (h : Step s e t) (hheld : s.HeldJobs)
    (he : e ≠ .requeue) {id : Int} (hid : (s.db.queue id).IsTaken) :
    (t.db.queue id).IsTaken := by
  have hmove := h.answers hheld
  cases hobserve : e.observe with
  | none =>
    rw [hobserve] at hmove
    rwa [show t.db.queue = s.db.queue from hmove]
  | some d =>
    rw [hobserve] at hmove
    refine (hmove id).isTaken ?_ hid
    rintro rfl
    exact he (FleetEvent.observe_recover hobserve)

/-- Without a requeue, a job that was claimed is pending or finished. -/
theorem claimed_isTaken (hheld : s.HeldJobs) (hrun : Run Step s evs t)
    (hrequeue : .requeue ∉ evs) {id : Int} (hid : id ∈ claimedIds evs) :
    (t.db.queue id).IsTaken := by
  induction hrun with
  | nil => cases hid
  | @snoc t u evs e hrun hstep ih =>
    rw [List.mem_append, List.mem_singleton, not_or] at hrequeue
    rw [claimedIds, List.filterMap_append, List.mem_append] at hid
    rcases hid with hid | hid
    · exact hstep.isTaken (heldJobs_run hrun hheld) (Ne.symm hrequeue.2) (ih hrequeue.1 hid)
    · obtain ⟨w, hmem⟩ := mem_claimedIds.mp hid
      obtain rfl := List.mem_singleton.mp hmem
      obtain ⟨-, -, hpending, -⟩ := hstep.claimed
      rw [Database.queue, hpending]
      trivial

/-- Without a requeue no job is claimed twice. By induction along the run: a claim
takes an unclaimed job, which a job claimed before is not. -/
theorem claimedIds_nodup (hheld : s.HeldJobs) (hrun : Run Step s evs t)
    (hrequeue : .requeue ∉ evs) : (claimedIds evs).Nodup := by
  induction hrun with
  | nil => exact List.nodup_nil
  | @snoc t u evs e hrun hstep ih =>
    rw [List.mem_append, List.mem_singleton, not_or] at hrequeue
    rw [claimedIds, List.filterMap_append, List.nodup_append]
    refine ⟨ih hrequeue.1, ?_, fun id hid id' hid' heq => ?_⟩
    · cases e with
      | statement w claimed => cases claimed <;> simp
      | _ => simp
    · -- a job claimed before is not unclaimed any more
      subst heq
      obtain ⟨w, hmem⟩ := mem_claimedIds.mp hid'
      obtain rfl := List.mem_singleton.mp hmem
      have htaken := claimed_isTaken hheld hrun hrequeue.1 hid
      obtain ⟨-, hnew, -⟩ := hstep.claimed
      rw [Database.queue, hnew] at htaken
      exact htaken

/-- The recorded outcomes of a job that was claimed are what its status says: none
while it is pending, and one when it is finished. -/
theorem claimed_recordings (hheld : s.HeldJobs) (hrun : Run Step s evs t) {id : Int}
    (hid : id ∈ claimedIds evs) :
    (recordings id evs).map JobOutcome.status = (t.db.queue id).outcome := by
  have happend := WorkQueue.Run.outcome_append (toQueue hrun hheld) id
  rw [resolutions_observe] at happend
  -- before the claim the job was unclaimed, so it had no outcome at the start either
  obtain ⟨w, hmem⟩ := mem_claimedIds.mp hid
  obtain ⟨xs, ys, rfl⟩ := List.append_of_mem hmem
  obtain ⟨m, hxs, hrest⟩ := hrun.split
  obtain ⟨u, hstep, -⟩ := hrest.cons_inv
  obtain ⟨-, hnew, -⟩ := hstep.claimed
  have hstart := WorkQueue.Run.outcome_append (toQueue hxs hheld) id
  rw [show (m.db.queue id).outcome = [] by rw [Database.queue, hnew]; rfl,
    List.append_eq_nil_iff] at hstart
  rwa [hstart.1, List.nil_append] at happend

/-- **Exclusive claims, oldest first.** From a state where no worker has done
anything: a claim takes a job that is unclaimed at that moment; between two claims of
a job there is a requeue; without requeues, and with jobs becoming visible in the
order of their ids, the claimed ids increase. -/
theorem claims_exclusive_in_order (h : s.Idle) :
    (∀ xs w id ys t, Run Step s (xs ++ .statement w (some id) :: ys) t →
      ∃ m u, Run Step s xs m ∧ Step m (.statement w (some id)) u ∧ Run Step u ys t ∧
        m.db.jobStatus id = some .new ∧ u.db.jobStatus id = some .pending) ∧
    (∀ xs w id ys w' zs t,
      Run Step s (xs ++ .statement w (some id) :: ys ++ .statement w' (some id) :: zs) t →
        .requeue ∈ ys) ∧
    ∀ evs t, Run InOrder s evs t → (claimedIds evs).Pairwise (· < ·) := by
  refine ⟨fun xs w id ys t hrun => ?_, fun _ _ _ _ _ _ _ hrun => requeue_between h.heldJobs hrun,
    fun evs t hrun => (h.oldestFirst hrun).sorted⟩
  obtain ⟨m, hxs, hrest⟩ := hrun.split
  obtain ⟨u, hstep, hys⟩ := hrest.cons_inv
  obtain ⟨-, hnew, hpending, -⟩ := hstep.claimed
  exact ⟨m, u, hxs, hstep, hys, hnew, hpending⟩

/-- Both workers find job 1, and the first claims it. The candidate of the second is stale
then: it looks again, and claims job 2. -/
def raceEvents : List (FleetEvent Bool) :=
  [.begin false, .begin true, .statement false none, .statement true none,
    .statement false (some 1), .statement true none, .statement true none,
    .statement true (some 2)]

/-- The first worker dies, its job is put back, and the second worker claims it. -/
def requeueEvents : List (FleetEvent Bool) :=
  [.crash false, .requeue, .statement true none, .begin true, .statement true none,
    .statement true (some 1)]

theorem pairFleet_run : ∃ s t, Run InOrder pairFleet raceEvents s ∧
    Run Step s requeueEvents t := by
  have hrace := Run.cons (InOrder.begin pairFleet false rfl) <|
    Run.cons (InOrder.begin _ true rfl) <|
    Run.cons (InOrder.statement _ false (.select 4) rfl) <|
    Run.cons (InOrder.statement _ true (.select 4) rfl) <|
    Run.cons (InOrder.statement _ false (.update 1 4) rfl) <|
    Run.cons (InOrder.statement _ true (.update 1 4) rfl) <|
    Run.cons (InOrder.statement _ true (.select 3) rfl) <|
    Run.single (InOrder.statement _ true (.update 2 3) rfl)
  exact ⟨_, _, hrace,
    Run.cons (Step.crash _ false) <|
    Run.cons (Step.requeue _) <|
    Run.cons (Step.statement _ true (.read 2) rfl) <|
    Run.cons (Step.begin _ true rfl) <|
    Run.cons (Step.statement _ true (.select 4) rfl) <|
    Run.single (Step.statement _ true (.update 1 4) rfl)⟩

/-- Two workers race for job 1, the loser claims job 2, and after a requeue it claims job 1
as well. -/
theorem pairFleet_claims_in_order : ∃ s t, Run InOrder pairFleet raceEvents s ∧
    Run Step pairFleet (raceEvents ++ requeueEvents) t ∧
    claimedIds (raceEvents ++ requeueEvents) = [1, 2, 1] ∧
    (claimedIds raceEvents).Pairwise (· < ·) ∧
    FleetEvent.requeue ∈ raceEvents.drop 5 ++ requeueEvents.take 5 ∧
    ∃ m u, Run Step pairFleet (raceEvents ++ requeueEvents.take 5) m ∧
      Step m (.statement true (some 1)) u ∧ m.db.jobStatus 1 = some .new ∧
      u.db.jobStatus 1 = some .pending := by
  obtain ⟨s, t, hrace, hrequeue⟩ := pairFleet_run
  obtain ⟨hclaim, hbetween, horder⟩ := claims_exclusive_in_order pairFleet_idle
  have hrun : Run Step pairFleet (raceEvents ++ requeueEvents) t :=
    (hrace.mono fun hstep => hstep.1).append hrequeue
  obtain ⟨m, u, hm, hstep, -, hnew, hpending⟩ :=
    hclaim (raceEvents ++ requeueEvents.take 5) true 1 [] t hrun
  exact ⟨s, t, hrace, hrun, rfl, horder _ _ hrace,
    hbetween (raceEvents.take 4) false 1 (raceEvents.drop 5 ++ requeueEvents.take 5) true [] t hrun,
    m, u, hm, hstep, hnew, hpending⟩

end Fleet

end JobRunner
