import JobRunner.Lib.Trace
import JobRunner.Store.ClaimCall

/-!
# Claimers that empty the queue

A finite set of unclaimed jobs and claimers of any number, each of which calls
`claim_next` again and again until a call answers `None`. Nobody else writes, and
no statement fails. A call gives up after `CLAIM_ATTEMPTS` lost races, so a claimer
may stop while jobs remain; the others then have work to do.

- `Claimers`, `Claimers.Step`: the claimers over one table, one statement a step.
- `Viable`, `Step.alive`: while a job is unclaimed, some call is not about to lose
  its race. A lost race has a winner, and the winner goes on.
- `Claimers.share`, `Step.owned`: a claimed job is in the hands of one claimer.
- `each_job_returned_once`: when all claimers have stopped, every job was returned
  once, to one of them.
-/

namespace JobRunner

open Transition

/-- The database, where the call of each claimer stands (`none` once the claimer has
stopped), and the jobs each was given. -/
structure Claimers (ω : Type) where
  db : Database
  pc : ω → Option ClaimPc
  given : ω → List Job

namespace Claimers

variable {ω : Type} [DecidableEq ω]

/-- Claimer `w` has run a statement of its call, which left the database `db`. A job
is the reason to call again; `None` (or an error) is the reason to stop. -/
def advance (s : Claimers ω) (w : ω) (db : Database) : ClaimNext → Claimers ω
  | .goto pc => { s with db := db, pc := Function.update s.pc w (some pc) }
  | .returned (.ok (some job)) =>
    { db := db
      pc := Function.update s.pc w (some (.select (claimAttempts - 1)))
      given := Function.update s.given w (job :: s.given w) }
  | .returned _ => { s with db := db, pc := Function.update s.pc w none }

/-- A claimer runs the next statement of its call. -/
inductive Step : Claimers ω → ω → Claimers ω → Prop where
  | statement (s : Claimers ω) (w : ω) (pc : ClaimPc) (hpc : s.pc w = some pc) :
      Step s w (s.advance w (pc.step s.db).1 (pc.step s.db).2)

/-- Every claimer is about to make its first call. -/
structure Start (s : Claimers ω) : Prop where
  pc : ∀ w, s.pc w = some (.select (claimAttempts - 1))
  given : ∀ w, s.given w = []

/-- Every claimer has been told `None`. -/
def Stopped (s : Claimers ω) : Prop := ∀ w, s.pc w = none

/-- How often claimer `w` was given job `j`. -/
def count (s : Claimers ω) (w : ω) (j : Int) : Nat := ((s.given w).map Job.id).count j

/-! ## What a step does -/

section Advance

variable (s : Claimers ω) (w : ω) (db : Database)

@[simp] theorem advance_db (next : ClaimNext) : (s.advance w db next).db = db := by
  unfold advance
  split <;> rfl

@[simp] theorem advance_pc_other {w' : ω} (h : w' ≠ w) (next : ClaimNext) :
    (s.advance w db next).pc w' = s.pc w' := by
  unfold advance
  split <;> exact Function.update_of_ne h _ _

@[simp] theorem advance_given_other {w' : ω} (h : w' ≠ w) (next : ClaimNext) :
    (s.advance w db next).given w' = s.given w' := by
  unfold advance
  split
  · rfl
  · exact Function.update_of_ne h _ _
  · rfl

@[simp] theorem advance_goto_pc (pc : ClaimPc) :
    (s.advance w db (.goto pc)).pc w = some pc :=
  Function.update_self ..

@[simp] theorem advance_goto_given (pc : ClaimPc) :
    (s.advance w db (.goto pc)).given w = s.given w := rfl

@[simp] theorem advance_job_pc (job : Job) :
    (s.advance w db (.returned (.ok (some job)))).pc w = some (.select (claimAttempts - 1)) :=
  Function.update_self ..

@[simp] theorem advance_job_given (job : Job) :
    (s.advance w db (.returned (.ok (some job)))).given w = job :: s.given w :=
  Function.update_self ..

@[simp] theorem advance_none_pc : (s.advance w db (.returned (.ok none))).pc w = none :=
  Function.update_self ..

@[simp] theorem advance_none_given :
    (s.advance w db (.returned (.ok none))).given w = s.given w := rfl

end Advance

/-- A claimer reads back only jobs. -/
def ReadsJobs (s : Claimers ω) : Prop :=
  ∀ w id, s.pc w = some (.read id) → s.db.jobStatus id ≠ none

/-- What a step of claimer `w` can do: the statement finds no candidate, finds one,
wins it, loses it and looks again, loses it and gives up, or reads the job back. -/
inductive Effect (s : Claimers ω) (w : ω) (t : Claimers ω) : Prop where
  | empty (hdb : t.db = s.db) (hnone : s.db.oldestUnclaimedId = none)
      (hread : ∀ id, s.pc w ≠ some (.read id)) (hpc : t.pc w = none)
      (hgiven : t.given w = s.given w)
  | found (id : Int) (left : Nat) (hdb : t.db = s.db) (hnew : s.db.jobStatus id = some .new)
      (hread : ∀ id, s.pc w ≠ some (.read id)) (hpc : t.pc w = some (.update id left))
      (hgiven : t.given w = s.given w)
  | won (id : Int) (hdb : t.db = (s.db.tryClaim id).1) (hnew : s.db.jobStatus id = some .new)
      (hread : ∀ id, s.pc w ≠ some (.read id)) (hpc : t.pc w = some (.read id))
      (hgiven : t.given w = s.given w)
  | retry (left : Nat) (hdb : t.db = s.db) (hread : ∀ id, s.pc w ≠ some (.read id))
      (hpc : t.pc w = some (.select left)) (hgiven : t.given w = s.given w)
  | giveUp (id : Int) (left : Nat) (hdb : t.db = s.db) (hlost : s.db.jobStatus id ≠ some .new)
      (hpc₀ : s.pc w = some (.update id left)) (hpc : t.pc w = none)
      (hgiven : t.given w = s.given w)
  | read (id : Int) (job : Job) (hdb : t.db = s.db) (hpc₀ : s.pc w = some (.read id))
      (hid : job.id = id) (hpc : t.pc w = some (.select (claimAttempts - 1)))
      (hgiven : t.given w = job :: s.given w)

variable {s t : Claimers ω} {w : ω} {evs : List ω}

/-- **What a step of a claimer does**, guards included. Every invariant below is
derived from this, with no second look at the statements of `claim_next`. -/
theorem Step.effect (h : Step s w t) (hread : s.ReadsJobs) : Effect s w t := by
  cases h with
  | statement pc hpc =>
    have heffect := pc.step_effect s.db
    generalize (pc.step s.db).1 = db, (pc.step s.db).2 = next, pc.claims s.db = claimed
      at heffect
    cases heffect with
    | empty hnone => exact .empty (by simp) hnone (by simp [hpc]) (by simp) (by simp)
    | @found left id hid =>
      have hnew := (Database.oldestUnclaimedId_eq_some hid).1
      exact .found id left (by simp) hnew (by simp [hpc]) (by simp) (by simp)
    | @won id left hnew => exact .won id (by simp) hnew (by simp [hpc]) (by simp) (by simp)
    | @retry id left hlost => exact .retry left (by simp) (by simp [hpc]) (by simp) (by simp)
    | @giveUp id hlost => exact .giveUp id 0 (by simp) hlost hpc (by simp) (by simp)
    | @read id =>
      -- the row that was won is still there
      cases hrow : s.db.jobRow id with
      | none =>
        refine absurd ?_ (hread w id hpc)
        unfold Database.jobStatus
        rw [hrow]
        rfl
      | some m =>
        have hid : m.id = id := Database.jobRow_id hrow
        exact .read id (s.db.toJob m) (by simp) hpc hid (by simp) (by simp)

theorem Step.pc_other (h : Step s w t) {w' : ω} (hw : w' ≠ w) : t.pc w' = s.pc w' := by
  cases h with
  | statement pc hpc => simp [hw]

theorem Step.given_other (h : Step s w t) {w' : ω} (hw : w' ≠ w) : t.given w' = s.given w' := by
  cases h with
  | statement pc hpc => simp [hw]

omit [DecidableEq ω] in
/-- A step leaves the table as it is, or claims one unclaimed job. -/
theorem Effect.db_cases (h : Effect s w t) :
    t.db = s.db ∨ ∃ id, s.db.jobStatus id = some .new ∧ t.db = (s.db.tryClaim id).1 := by
  cases h with
  | empty hdb | found _ _ hdb | retry _ hdb | giveUp _ _ hdb | read _ _ hdb => exact .inl hdb
  | won id hdb hnew => exact .inr ⟨id, hnew, hdb⟩

omit [DecidableEq ω] in
/-- No job appears unclaimed: nothing is inserted or put back while the claimers
run. -/
theorem Effect.unclaimed (h : Effect s w t) {j : Int} (hj : t.db.jobStatus j = some .new) :
    s.db.jobStatus j = some .new := by
  rcases h.db_cases with hdb | ⟨id, hnew, hdb⟩
  · rwa [hdb] at hj
  · rw [hdb, Database.jobStatus_tryClaim] at hj
    split at hj
    · cases hj
    · exact hj

omit [DecidableEq ω] in
/-- No job disappears. -/
theorem Effect.jobStatus_ne_none (h : Effect s w t) {j : Int} (hj : s.db.jobStatus j ≠ none) :
    t.db.jobStatus j ≠ none := by
  rcases h.db_cases with hdb | ⟨id, hnew, hdb⟩
  · rwa [hdb]
  · rw [hdb, Database.jobStatus_tryClaim]
    split
    · simp
    · exact hj

/-- What a claimer has read stays a job, since no job disappears. -/
theorem Step.readsJobs (h : Step s w t) (hread : s.ReadsJobs) : t.ReadsJobs := by
  intro w' id hpc
  have heffect := h.effect hread
  by_cases hw : w' = w
  · subst hw
    cases heffect with
    | empty hdb hnone hread hpc' | giveUp _ _ hdb hlost hpc₀ hpc' =>
      rw [hpc'] at hpc
      cases hpc
    | found _ _ hdb hnew hread hpc' | retry _ hdb hread hpc' | read _ _ hdb hpc₀ hid hpc' =>
      rw [hpc'] at hpc
      cases hpc
    | won id' hdb hnew hread hpc' =>
      rw [hpc'] at hpc
      cases hpc
      rw [hdb, Database.jobStatus_tryClaim, if_pos ⟨rfl, hnew⟩]
      simp
  · rw [h.pc_other hw] at hpc
    exact heffect.jobStatus_ne_none (hread w' id hpc)

omit [DecidableEq ω] in
theorem Start.readsJobs (h : s.Start) : s.ReadsJobs := by
  intro w id hpc
  rw [h.pc w] at hpc
  cases hpc

/-! ## Someone goes on -/

/-- The call is not about to lose its race: its candidate, if it has one, is still
unclaimed. -/
def Viable (db : Database) : ClaimPc → Prop
  | .update id _ => db.jobStatus id = some .new
  | .select _ | .read _ => True

/-- While a job is unclaimed, some claimer's call is viable. -/
def Alive (s : Claimers ω) : Prop :=
  ∀ j, s.db.jobStatus j = some .new → ∃ w pc, s.pc w = some pc ∧ Viable s.db pc

/-- A call that loses its race may stop its claimer, but then another call is
viable; the call that won the race is. -/
theorem Step.alive (h : Step s w t) (hread : s.ReadsJobs) (halive : s.Alive) : t.Alive := by
  intro j hj
  have heffect := h.effect hread
  have hj₀ := heffect.unclaimed hj
  cases heffect with
  | empty hdb hnone => exact absurd hj₀ (Database.oldestUnclaimedId_eq_none_iff.mp hnone j)
  | found id left hdb hnew hread hpc =>
    refine ⟨w, _, hpc, ?_⟩
    show t.db.jobStatus id = some .new
    rwa [hdb]
  | won id hdb hnew hread hpc | retry left hdb hread hpc | read id job hdb hpc₀ hid hpc =>
    exact ⟨w, _, hpc, trivial⟩
  | giveUp id left hdb hlost hpc₀ hpc =>
    obtain ⟨w', pc, hpc', hviable⟩ := halive j hj₀
    have hw : w' ≠ w := by
      rintro rfl
      rw [hpc₀] at hpc'
      cases hpc'
      exact hlost hviable
    refine ⟨w', pc, ?_, ?_⟩
    · rw [h.pc_other hw]
      exact hpc'
    · rw [hdb]
      exact hviable

omit [DecidableEq ω] in
theorem Start.alive [Nonempty ω] (h : s.Start) : s.Alive := by
  intro j hj
  obtain ⟨w⟩ := ‹Nonempty ω›
  exact ⟨w, _, h.pc w, trivial⟩

/-! ## A claimed job is in the hands of one claimer -/

/-- How often job `j` is in the hands of claimer `w`: given to it, or won by its call
in progress. -/
def share (s : Claimers ω) (w : ω) (j : Int) : Nat :=
  s.count w j + if s.pc w = some (.read j) then 1 else 0

theorem Step.share_other (h : Step s w t) {w' : ω} (hw : w' ≠ w) (j : Int) :
    t.share w' j = s.share w' j := by
  unfold share count
  rw [h.pc_other hw, h.given_other hw]

/-- Only a won race adds to a share, and it takes the job out of the unclaimed ones.
With `Step.share_other` this leaves one claimer to whom a job can go. -/
theorem Step.share_self (h : Step s w t) (hread : s.ReadsJobs) (j : Int) :
    t.share w j = s.share w j ∧ (t.db = s.db ∨ t.db.jobStatus j = s.db.jobStatus j) ∨
      t.share w j = s.share w j + 1 ∧ s.db.jobStatus j = some .new ∧
        t.db.jobStatus j = some .pending := by
  unfold share count
  cases h.effect hread with
  | empty hdb hnone hread hpc hgiven | retry left hdb hread hpc hgiven =>
    refine .inl ⟨?_, .inl hdb⟩
    simp [hpc, hgiven, hread]
  | found id left hdb hnew hread hpc hgiven =>
    refine .inl ⟨?_, .inl hdb⟩
    simp [hpc, hgiven, hread]
  | giveUp id left hdb hlost hpc₀ hpc hgiven =>
    refine .inl ⟨?_, .inl hdb⟩
    simp [hpc, hgiven, hpc₀]
  | won id hdb hnew hread hpc hgiven =>
    by_cases hj : id = j
    · subst hj
      refine .inr ⟨?_, hnew, ?_⟩
      · simp [hpc, hgiven, hread]
      · rw [hdb, Database.jobStatus_tryClaim, if_pos ⟨rfl, hnew⟩]
    · refine .inl ⟨?_, .inr ?_⟩
      · simp [hpc, hgiven, hread, hj]
      · rw [hdb, Database.jobStatus_tryClaim, if_neg fun h => hj h.1.symm]
  | read id job hdb hpc₀ hid hpc hgiven =>
    refine .inl ⟨?_, .inl hdb⟩
    by_cases hj : id = j <;> simp [hpc, hgiven, hpc₀, hid, hj]

/-- Job `j` is unclaimed and in nobody's hands, or in one claimer's hands, once. -/
def Owned (s : Claimers ω) (j : Int) : Prop :=
  (s.db.jobStatus j = some .new ∧ ∀ w, s.share w j = 0) ∨
    (s.db.jobStatus j ≠ some .new ∧
      ∃ w, s.share w j = 1 ∧ ∀ w', w' ≠ w → s.share w' j = 0)

/-- **Step lemma.** A job stays in one place: unclaimed and with nobody, or claimed
and with the one claimer who won it. -/
theorem Step.owned (h : Step s w t) (hread : s.ReadsJobs) {j : Int} (howned : s.Owned j) :
    t.Owned j := by
  rcases h.share_self hread j with ⟨hself, hdb⟩ | ⟨hself, hnew, hpending⟩
  · -- no share of `j` changes
    have hshare : ∀ w', t.share w' j = s.share w' j := fun w' => by
      by_cases hw : w' = w
      · rw [hw, hself]
      · exact h.share_other hw j
    have hstatus : t.db.jobStatus j = s.db.jobStatus j := by
      rcases hdb with hdb | hdb
      · rw [hdb]
      · exact hdb
    unfold Owned
    rw [hstatus]
    simp only [hshare]
    exact howned
  · -- the claimer of this step has won it
    have hzero : ∀ w', s.share w' j = 0 := by
      rcases howned with ⟨-, hzero⟩ | ⟨hne, -⟩
      · exact hzero
      · exact absurd hnew hne
    refine .inr ⟨by simp [hpending], w, ?_, ?_⟩
    · rw [hself, hzero w]
    · intro w' hw
      rw [h.share_other hw, hzero w']

omit [DecidableEq ω] in
theorem Start.owned (h : s.Start) {j : Int} (hj : s.db.jobStatus j = some .new) :
    s.Owned j := by
  refine .inl ⟨hj, fun w => ?_⟩
  unfold share count
  rw [h.pc w, h.given w]
  rfl

/-! ## When all have stopped -/

/-- **Every job is returned once, to one claimer**, when all claimers have stopped,
however their statements were interleaved. Some claimer's call is viable as long as
a job is unclaimed, so that all have stopped leaves none unclaimed. -/
theorem each_job_returned_once [Nonempty ω] (hstart : s.Start) (hrun : Run Step s evs t)
    (hstopped : t.Stopped) {j : Int} (hj : s.db.jobStatus j = some .new) :
    ∃ w, t.count w j = 1 ∧ ∀ w', w' ≠ w → t.count w' j = 0 := by
  have hinv : t.ReadsJobs ∧ t.Alive ∧ t.Owned j := by
    refine hrun.stateInvariant (I := fun s => s.ReadsJobs ∧ s.Alive ∧ s.Owned j)
      ⟨hstart.readsJobs, hstart.alive, hstart.owned hj⟩ ?_
    rintro t w u ⟨hread, halive, howned⟩ hstep
    exact ⟨hstep.readsJobs hread, hstep.alive hread halive, hstep.owned hread howned⟩
  obtain ⟨-, halive, howned⟩ := hinv
  have hshare : ∀ w, t.share w j = t.count w j := fun w => by
    unfold share
    simp [hstopped w]
  rcases howned with ⟨hnew, -⟩ | ⟨-, w, hone, hothers⟩
  · -- somebody would still be at work
    obtain ⟨w, pc, hpc, -⟩ := halive j hnew
    rw [hstopped w] at hpc
    cases hpc
  · refine ⟨w, ?_, fun w' hw => ?_⟩
    · rw [← hshare w, hone]
    · rw [← hshare w', hothers w' hw]

/-- Two claimers and two unclaimed jobs. -/
def twoClaimers : Claimers Bool := ⟨twoJobsDb, fun _ => some (.select 4), fun _ => []⟩

theorem twoClaimers_start : twoClaimers.Start := ⟨fun _ => rfl, fun _ => rfl⟩

/-- Both claimers find job 1. One is given it, the other loses the race and is given job 2;
then both are told `None`. -/
theorem twoClaimers_run : ∃ evs t, Run Step twoClaimers evs t ∧ t.Stopped ∧
    t.count false 1 = 1 ∧ t.count true 2 = 1 := by
  have hrun := Run.cons (Step.statement twoClaimers false (.select 4) rfl) <|
    Run.cons (Step.statement _ true (.select 4) rfl) <|
    Run.cons (Step.statement _ false (.update 1 4) rfl) <|
    -- job 1 is taken
    Run.cons (Step.statement _ true (.update 1 4) rfl) <|
    Run.cons (Step.statement _ true (.select 3) rfl) <|
    Run.cons (Step.statement _ true (.update 2 3) rfl) <|
    Run.cons (Step.statement _ false (.read 1) rfl) <|
    Run.cons (Step.statement _ true (.read 2) rfl) <|
    Run.cons (Step.statement _ false (.select 4) rfl) <|
    Run.single (Step.statement _ true (.select 4) rfl)
  exact ⟨_, _, hrun, Bool.forall_bool.mpr ⟨rfl, rfl⟩, rfl, rfl⟩

theorem twoClaimers_returned_once : ∃ evs t, Run Step twoClaimers evs t ∧ t.Stopped ∧
    t.count false 1 = 1 ∧ t.count true 2 = 1 ∧
    (∃ w, t.count w 1 = 1 ∧ ∀ w', w' ≠ w → t.count w' 1 = 0) ∧
    ∃ w, t.count w 2 = 1 ∧ ∀ w', w' ≠ w → t.count w' 2 = 0 := by
  obtain ⟨evs, t, hrun, hstopped, hfirst, hsecond⟩ := twoClaimers_run
  exact ⟨evs, t, hrun, hstopped, hfirst, hsecond,
    each_job_returned_once twoClaimers_start hrun hstopped rfl,
    each_job_returned_once twoClaimers_start hrun hstopped rfl⟩

end Claimers

end JobRunner
