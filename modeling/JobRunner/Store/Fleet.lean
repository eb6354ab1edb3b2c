import JobRunner.Store.ClaimCall
import JobRunner.Store.Queue

/-!
# Workers and HTTP clients over one table

Any number of workers (of type `ω`) and clients share the `chat_messages` table.
A step of the system is one statement, or the `finish_done` transaction. A worker
may call `finish` on every job `claim_next` has returned to it, at any time and
again: a job that was requeued and claimed by another worker meanwhile is the
stale `finish` the store has to refuse. A call or a worker may die between any
two steps.

- `Fleet`, `FleetEvent`, `Fleet.Step`: states, labels and steps.
- `FleetEvent.observe`: the events as events of a work queue.
- `Fleet.TableEffect`, `Fleet.Step.tableEffect`: what a step does to the table.
- `Fleet.Step.answers`: a step moves the jobs as a step of the queue moves its
  items; `Fleet.toQueue` carries runs over.
-/

namespace JobRunner

open Keyed Transition

/-- The database and what each worker process knows: where its `claim_next` call
in progress stands, and the ids of the jobs `claim_next` has returned to it. -/
structure Fleet (ω : Type) where
  db : Database
  pc : ω → Option ClaimPc
  held : ω → List Int

/-- The steps of the system, with what they answer. -/
inductive FleetEvent (ω : Type) where
  /-- `JobStore::insert`, for `POST /jobs`. -/
  | insert (chatId : Int) (content : String) (answer : Except StoreError Int)
  /-- A transaction that is still open, or rolled back, has taken ids. -/
  | reserve (next : Nat)
  /-- A user message of another client becomes visible, under an id it was given
  before or gave itself. -/
  | post (m : Message)
  /-- A worker calls `claim_next`. -/
  | begin (w : ω)
  /-- The call of a worker runs its next statement, which claims a row or not. -/
  | statement (w : ω) (claimed : Option Int)
  /-- The call of a worker ends with `Err`. -/
  | abort (w : ω)
  /-- A worker calls `finish`. -/
  | finish (w : ω) (id : Int) (outcome : JobOutcome) (answer : Except StoreError Unit)
  /-- Somebody calls `requeue_pending`. -/
  | requeue
  /-- A worker process dies. -/
  | crash (w : ω)

/-- The first statement of a call. -/
def ClaimPc.first : ClaimPc := .select (claimAttempts - 1)

example : ClaimNext.start = .goto ClaimPc.first := rfl

/-- The id of the job a call returned, if it returned one. -/
def returnedId : Except StoreError (Option Job) → Option Int
  | .ok (some job) => some job.id
  | .ok none | .error _ => none

namespace Fleet

variable {ω : Type} [DecidableEq ω]

/-- The call of worker `w` stands at `pc` (or has ended). -/
def setPc (s : Fleet ω) (w : ω) (pc : Option ClaimPc) : Fleet ω :=
  { s with pc := Function.update s.pc w pc }

/-- Worker `w` has run a statement of its call, which left the database `db`. -/
def advance (s : Fleet ω) (w : ω) (db : Database) : ClaimNext → Fleet ω
  | .goto pc => { s with db := db, pc := Function.update s.pc w (some pc) }
  | .returned answer =>
    { db := db
      pc := Function.update s.pc w none
      held := Function.update s.held w ((returnedId answer).toList ++ s.held w) }

/-- Worker `w` runs the statement at `pc`. -/
def proceed (s : Fleet ω) (w : ω) (pc : ClaimPc) : Fleet ω :=
  s.advance w (pc.step s.db).1 (pc.step s.db).2

/-- One step of the system. -/
inductive Step : Fleet ω → FleetEvent ω → Fleet ω → Prop where
  | insert (s : Fleet ω) (chatId : Int) (content : String) :
      Step s (.insert chatId content (s.db.insert chatId content).1)
        { s with db := (s.db.insert chatId content).2 }
  | reserve (s : Fleet ω) (next : Nat) (h : s.db.nextId ≤ next) :
      Step s (.reserve next) { s with db := s.db.reserve next h }
  | post (s : Fleet ω) (m : Message) (hid : s.db.messages.find? m.id = none)
      (hchat : (s.db.chats.find? m.chatId).isSome) (huser : m.sender = .user)
      (hstatus : m.status = .new) :
      Step s (.post m) { s with db := s.db.add m hid hchat }
  | begin (s : Fleet ω) (w : ω) (hidle : s.pc w = none) :
      Step s (.begin w) (s.setPc w (some .first))
  | statement (s : Fleet ω) (w : ω) (pc : ClaimPc) (hpc : s.pc w = some pc) :
      Step s (.statement w (pc.claims s.db)) (s.proceed w pc)
  | abort (s : Fleet ω) (w : ω) : Step s (.abort w) (s.setPc w none)
  | finish (s : Fleet ω) (w : ω) (id : Int) (outcome : JobOutcome) (hheld : id ∈ s.held w) :
      Step s (.finish w id outcome (s.db.finish id outcome).1)
        { s with db := (s.db.finish id outcome).2 }
  | requeue (s : Fleet ω) : Step s .requeue { s with db := s.db.requeuePending.2 }
  | crash (s : Fleet ω) (w : ω) :
      Step s (.crash w)
        { s with pc := Function.update s.pc w none, held := Function.update s.held w [] }

/-- No worker has done anything yet. -/
structure Idle (s : Fleet ω) : Prop where
  idle : ∀ w, s.pc w = none
  empty : ∀ w, s.held w = []

/-! ## What a statement of a call does -/

@[simp] theorem setPc_db (s : Fleet ω) (w : ω) (pc : Option ClaimPc) :
    (s.setPc w pc).db = s.db := rfl

@[simp] theorem setPc_held (s : Fleet ω) (w : ω) (pc : Option ClaimPc) :
    (s.setPc w pc).held = s.held := rfl

@[simp] theorem setPc_pc (s : Fleet ω) (w : ω) (pc : Option ClaimPc) :
    (s.setPc w pc).pc = Function.update s.pc w pc := rfl

@[simp] theorem advance_db (s : Fleet ω) (w : ω) (db : Database) (next : ClaimNext) :
    (s.advance w db next).db = db := by
  cases next <;> rfl

@[simp] theorem proceed_db (s : Fleet ω) (w : ω) (pc : ClaimPc) :
    (s.proceed w pc).db = (pc.step s.db).1 :=
  advance_db ..

theorem advance_held_returned (s : Fleet ω) (w : ω) (db : Database)
    (answer : Except StoreError (Option Job)) :
    (s.advance w db (.returned answer)).held =
      Function.update s.held w ((returnedId answer).toList ++ s.held w) := rfl

/-- A statement adds to the jobs a worker holds only the one that `get` found, and a
job that `get` found is in the table. -/
theorem mem_held_proceed {s : Fleet ω} {w w' : ω} {pc : ClaimPc} {id : Int}
    (h : id ∈ (s.proceed w pc).held w') :
    id ∈ s.held w' ∨ s.db.jobStatus id ≠ none := by
  have heffect := pc.step_effect s.db
  unfold proceed at h
  generalize (pc.step s.db).1 = db, (pc.step s.db).2 = next, pc.claims s.db = claimed
    at heffect h
  by_cases hw : w' = w
  · subst hw
    cases heffect with
    | found | won | retry => exact .inl h
    | empty | giveUp =>
      rw [advance_held_returned, Function.update_self] at h
      exact .inl h
    -- `get` hands out the row it found
    | @read id' =>
      rw [advance_held_returned, Function.update_self, List.mem_append, Option.mem_toList] at h
      cases hrow : s.db.jobRow id' with
      | none =>
        rw [hrow] at h
        exact .inl (h.resolve_left (by rintro ⟨⟩))
      | some m =>
        rw [hrow] at h
        refine h.symm.imp_right fun h => ?_
        cases h
        have hid : m.id = id' := Database.jobRow_id hrow
        show s.db.jobStatus m.id ≠ none
        rw [hid, Database.jobStatus_of_jobRow hrow]
        exact Option.some_ne_none _
  · refine .inl ?_
    cases next with
    | goto pc' => exact h
    | returned answer => rwa [advance_held_returned, Function.update_of_ne hw] at h

end Fleet

/-! ## Where a call stands -/

namespace Fleet

variable {ω : Type} [DecidableEq ω] {s t : Fleet ω}

/-- Where a call stands after a step: where it stood, at its first statement, or
where a statement has put it. -/
theorem Step.pc_cases {e : FleetEvent ω} (h : Step s e t) {w : ω} {pc' : ClaimPc}
    (hpc : t.pc w = some pc') :
    s.pc w = some pc' ∨ pc' = .first ∨
      ∃ pc claimed, ClaimPc.Effect s.db pc t.db (.goto pc') claimed := by
  cases h with
  | insert | reserve | post | finish | requeue => exact .inl hpc
  | begin w' hidle =>
    rw [setPc_pc] at hpc
    by_cases hw : w = w'
    · subst hw
      rw [Function.update_self, Option.some.injEq] at hpc
      exact .inr (.inl hpc.symm)
    · rw [Function.update_of_ne hw] at hpc
      exact .inl hpc
  | abort w' | crash w' =>
    by_cases hw : w = w'
    · subst hw
      simp at hpc
    · exact .inl (by simpa [Function.update_of_ne hw] using hpc)
  | statement w' pc₀ hpc₀ =>
    have heffect := pc₀.step_effect s.db
    rw [proceed_db]
    unfold proceed at hpc
    generalize (pc₀.step s.db).1 = db, (pc₀.step s.db).2 = next, pc₀.claims s.db = claimed
      at heffect hpc
    by_cases hw : w = w'
    · subst hw
      cases next with
      | goto pc₁ =>
        simp only [advance, Function.update_self, Option.some.injEq] at hpc
        subst hpc
        exact .inr (.inr ⟨pc₀, claimed, heffect⟩)
      | returned answer => simp [advance] at hpc
    · refine .inl ?_
      cases next <;> simpa [advance, Function.update_of_ne hw] using hpc

end Fleet

/-! ## Runs as runs of the work queue -/

/-- What an event means for the queue of jobs. -/
def FleetEvent.observe {ω : Type} : FleetEvent ω → Option (WorkQueue.Event Int JobStatus)
  | .insert _ _ (.ok id) => some (.submit id)
  | .post m => if m.isJob then some (.submit m.id) else none
  | .statement _ (some id) => some (.take id)
  | .finish _ id outcome (.ok ()) => some (.resolve id outcome.status)
  | .requeue => some .recover
  | .insert _ _ (.error _) | .reserve _ | .begin _ | .statement _ none | .abort _
  | .finish _ _ _ (.error _) | .crash _ => none

namespace Fleet

variable {ω : Type} [DecidableEq ω]

/-- What a step does to the table, by its event. -/
inductive TableEffect (s : Fleet ω) : FleetEvent ω → Database → Prop where
  /-- Nothing, or an operation that answers `Err`. -/
  | stay {e : FleetEvent ω} (hobserve : e.observe = none) : TableEffect s e s.db
  | reserve (next : Nat) (h : s.db.nextId ≤ next) :
      TableEffect s (.reserve next) (s.db.reserve next h)
  | insert (chatId : Int) (content : String) (m : Message)
      (hid : s.db.messages.find? m.id = none) (hchat : (s.db.chats.find? m.chatId).isSome)
      (hjob : m.isJob = true) (hstatus : m.status = .new) :
      TableEffect s (.insert chatId content (.ok m.id)) (s.db.add m hid hchat)
  | post (m : Message) (hid : s.db.messages.find? m.id = none)
      (hchat : (s.db.chats.find? m.chatId).isSome) (huser : m.sender = .user)
      (hstatus : m.status = .new) : TableEffect s (.post m) (s.db.add m hid hchat)
  | claim (w : ω) (id : Int) (hnew : s.db.jobStatus id = some .new) :
      TableEffect s (.statement w (some id)) (s.db.tryClaim id).1
  | finish (w : ω) (id : Int) (outcome : JobOutcome) (db : Database) (hheld : id ∈ s.held w)
      (hfin : s.db.finish id outcome = (.ok (), db)) :
      TableEffect s (.finish w id outcome (.ok ())) db
  | requeue : TableEffect s .requeue s.db.requeuePending.2

/-- **What a step does to the table.** A step is one operation of the store, an
insert of another client, or nothing to the table, so an invariant of the table
needs one case for each of these and no look at the program counters. -/
theorem Step.tableEffect {s t : Fleet ω} {e : FleetEvent ω} (h : Step s e t) :
    TableEffect s e t.db := by
  cases h with
  | insert chatId content =>
    rcases hins : s.db.insert chatId content with ⟨err | id, db⟩
    · rw [Database.insert_error hins]
      exact .stay rfl
    · obtain ⟨m, hid, hchat, rfl, hjob, hstatus, -, rfl⟩ := Database.insert_ok hins
      exact .insert chatId content m hid hchat hjob hstatus
  | reserve next h => exact .reserve next h
  | post m hid hchat huser hstatus => exact .post m hid hchat huser hstatus
  | statement w pc hpc =>
    -- of the statements of a call only an `UPDATE` that wins changes a row
    have heffect := pc.step_effect s.db
    rw [proceed_db]
    generalize (pc.step s.db).1 = db, (pc.step s.db).2 = next, pc.claims s.db = claimed
      at heffect
    cases heffect with
    | won hnew => exact .claim w _ hnew
    | empty | found | retry | giveUp | read => exact .stay rfl
  | finish w id outcome hheld =>
    rcases hfin : s.db.finish id outcome with ⟨err | u, db⟩
    · rw [Database.finish_error hfin]
      exact .stay rfl
    · exact .finish w id outcome db hheld hfin
  | requeue => exact .requeue
  | begin | abort | crash => exact .stay rfl

/-- A `finish` that answers `Ok`. -/
theorem Step.finished {s t : Fleet ω} {w : ω} {id : Int} {outcome : JobOutcome}
    (h : Step s (.finish w id outcome (.ok ())) t) :
    id ∈ s.held w ∧ s.db.finish id outcome = (.ok (), t.db) := by
  have heffect := h.tableEffect
  generalize t.db = db at heffect
  cases heffect with
  | stay hobserve => cases hobserve
  | finish _ _ _ _ hheld hfin => exact ⟨hheld, hfin⟩

/-- Workers hold only ids of jobs. -/
def HeldJobs (s : Fleet ω) : Prop :=
  ∀ w, ∀ id ∈ s.held w, s.db.jobStatus id ≠ none

omit [DecidableEq ω] in
theorem Idle.heldJobs {s : Fleet ω} (h : s.Idle) : s.HeldJobs := by
  intro w id hmem
  rw [h.empty w] at hmem
  cases hmem

/-- **Step lemma.** A step moves the jobs as its event says, or not at all. A lost
race, a refused outcome and a failed insert are steps that move nothing. -/
theorem Step.answers {s t : Fleet ω} {e : FleetEvent ω} (h : Step s e t) (hheld : s.HeldJobs) :
    Run.Answers WorkQueue.Step s.db.queue t.db.queue e.observe := by
  have heffect := h.tableEffect
  generalize t.db = db at heffect
  cases heffect with
  | stay hobserve =>
    rw [hobserve]
    rfl
  | reserve next h => rfl
  | insert chatId content m hid hchat hjob hstatus =>
    exact Database.queue_add hid hchat hjob hstatus
  | post m hid hchat huser hstatus =>
    cases hjob : m.isJob with
    | true =>
      rw [FleetEvent.observe, if_pos hjob]
      exact Database.queue_add hid hchat hjob hstatus
    | false =>
      rw [FleetEvent.observe, hjob]
      exact Database.queue_add_other hid hchat hjob
  | claim w id hnew => exact Database.queue_tryClaim hnew
  | finish w id outcome db hmem hfin => exact Database.queue_finish (hheld w id hmem) hfin
  | requeue => exact Database.queue_requeuePending s.db

/-- No step makes a job disappear: the store deletes no row and never changes
whether one is a job. -/
theorem Step.jobStatus_ne_none {s t : Fleet ω} {e : FleetEvent ω} (h : Step s e t)
    (hheld : s.HeldJobs) {j : Int} (hj : s.db.jobStatus j ≠ none) :
    t.db.jobStatus j ≠ none := by
  have hmove := h.answers hheld
  have hphase : s.db.queue j ≠ .absent := by simpa [Database.queue] using hj
  suffices t.db.queue j ≠ .absent by simpa [Database.queue] using this
  cases he : e.observe with
  | none =>
    rw [he] at hmove
    rwa [show t.db.queue = s.db.queue from hmove]
  | some d =>
    rw [he] at hmove
    have hmove := hmove j
    generalize s.db.queue j = p, t.db.queue j = p' at hmove hphase
    cases hmove with
    | submit => exact absurd rfl hphase
    | keep | other => exact hphase
    | take | resolve | recover => rintro ⟨⟩

/-- What a worker holds stays a job of the table. -/
theorem Step.heldJobs {s t : Fleet ω} {e : FleetEvent ω} (h : Step s e t)
    (hheld : s.HeldJobs) : t.HeldJobs := by
  intro w id hmem
  refine h.jobStatus_ne_none hheld ?_
  cases h with
  | insert | reserve | post | requeue | abort => exact hheld w id hmem
  | begin => exact hheld w id hmem
  | finish w' id' outcome hmem' => exact hheld w id hmem
  | statement w' pc hpc =>
    rcases mem_held_proceed hmem with hmem | hjob
    · exact hheld w id hmem
    · exact hjob
  | crash w' =>
    by_cases hw : w = w'
    · subst hw
      simp at hmem
    · exact hheld w id (by simpa [Function.update_of_ne hw] using hmem)

theorem heldJobs_run {s t : Fleet ω} {evs : List (FleetEvent ω)} (hrun : Run Step s evs t)
    (hheld : s.HeldJobs) : t.HeldJobs :=
  hrun.stateInvariant hheld fun ht hstep => hstep.heldJobs ht

/-- Calls read back only jobs. -/
def ReadJobs (s : Fleet ω) : Prop :=
  ∀ w id, s.pc w = some (.read id) → s.db.jobStatus id ≠ none

/-- A call of `claim_next` is only ever about a job that a `SELECT` has found. -/
theorem Step.readJobs {s t : Fleet ω} {e : FleetEvent ω} (h : Step s e t) (hheld : s.HeldJobs)
    (hread : s.ReadJobs) : t.ReadJobs := by
  intro w id hpc
  rcases h.pc_cases hpc with hpc | hfirst | ⟨pc, claimed, heffect⟩
  · exact h.jobStatus_ne_none hheld (hread w id hpc)
  · cases hfirst
  · generalize hnext : ClaimNext.goto (.read id) = next, t.db = db at heffect
    cases heffect with
    | won hnew =>
      cases hnext
      simp [Database.jobStatus_tryClaim, hnew]
    | empty | found | retry | giveUp | read => cases hnext

theorem readJobs_run {s t : Fleet ω} {evs : List (FleetEvent ω)} (hrun : Run Step s evs t)
    (h : s.Idle) : t.ReadJobs := by
  suffices t.HeldJobs ∧ t.ReadJobs from this.2
  refine hrun.stateInvariant (I := fun s => s.HeldJobs ∧ s.ReadJobs) ⟨h.heldJobs, ?_⟩ ?_
  · intro w id hpc
    rw [h.idle w] at hpc
    cases hpc
  · exact fun ht hstep => ⟨hstep.heldJobs ht.1, hstep.readJobs ht.1 ht.2⟩

/-- **Refinement.** A run of the system is a run of the work queue. By induction
along the run with `Step.answers`, steps that move no job standing for no step of
the queue. -/
theorem toQueue {s t : Fleet ω} {evs : List (FleetEvent ω)} (hrun : Run Step s evs t)
    (hheld : s.HeldJobs) :
    Run WorkQueue.Step s.db.queue (evs.filterMap FleetEvent.observe) t.db.queue := by
  obtain ⟨q, ⟨rfl, -⟩, hq⟩ := Run.simulates
    (R := fun (s : Fleet ω) q => q = s.db.queue ∧ s.HeldJobs) FleetEvent.observe
    (fun {s e t q} hR hstep => by
      obtain ⟨rfl, hheld⟩ := hR
      exact ⟨_, ⟨rfl, hstep.heldJobs hheld⟩, hstep.answers hheld⟩)
    hrun ⟨rfl, hheld⟩
  exact hq

end Fleet

end JobRunner
