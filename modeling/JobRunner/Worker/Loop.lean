import JobRunner.Store.ClaimOrder
import JobRunner.Worker.Process

/-!
# The polling loops and their tasks (`Worker::run`)

Any number of clones of one worker (of type `ℓ`) run the polling loop; they share
the store and the semaphore, and each loop owns the tasks in its `JoinSet` and has
its own shutdown token. A step is what happens between two await points: where a
`select!` has two ready branches, the system may take either.

- `LoopPc`, `TaskStage`, `Pool`: where the loops and the tasks stand.
- `LoopMove`, `TaskMove`: the steps of a loop and of a task that touch nothing else.
- `Pool.Step`: one step of the system.
- `Pool.toFleet`: seen through the table, the loops are workers of a `Fleet`.
-/

namespace JobRunner

open Keyed Transition

/-- Where a polling loop stands. -/
inductive LoopPc where
  /-- At the head of the loop. -/
  | ready
  /-- In the first `select!`: shutdown, or a permit. -/
  | acquiring
  /-- In `claim_next`, with a permit. -/
  | claiming (pc : ClaimPc)
  /-- `claim_next` returned a job that is not spawned yet; the permit is held. -/
  | claimed (id : Int)
  /-- `claim_next` returned no job; the permit is still held. -/
  | unclaimed
  /-- In the second `select!`: shutdown, or the poll interval. -/
  | sleeping
  /-- After the loop: joining the tasks. -/
  | draining
  | stopped
deriving DecidableEq, Repr

/-- Where a spawned task stands. -/
inductive TaskStage where
  /-- Before its workspace is created. -/
  | starting
  /-- In the `select!` of `execute`. -/
  | running
  /-- Removing its workspace. -/
  | removing (outcome : JobOutcome)
  /-- About to call `finish`. -/
  | finishing (outcome : JobOutcome)
  /-- `finish` has returned; the permit is still held. -/
  | recorded
  /-- The permit is dropped. -/
  | ended
deriving DecidableEq, Repr

/-- A task in the `JoinSet` of its loop. -/
structure Task (ℓ : Type) where
  owner : ℓ
  job : Int
  stage : TaskStage

/-- The clones of a worker, their tasks, and what they share. -/
structure Pool (ℓ : Type) where
  db : Database
  /-- The permits the semaphore has left. -/
  permits : Nat
  cancelled : ℓ → Bool
  loop : ℓ → LoopPc
  tasks : List (Task ℓ)

/-- The steps of the system. -/
inductive PoolEvent (ℓ : Type) where
  /-- A client's user message becomes visible. -/
  | enqueue (m : Message)
  | reserve (next : Nat)
  /-- The shutdown token of a loop is cancelled. -/
  | cancel (l : ℓ)
  /-- `reap_finished`, at the head of the loop. -/
  | reap (l : ℓ)
  | move (l : ℓ)
  /-- A loop takes a permit and calls `claim_next`. -/
  | acquire (l : ℓ)
  /-- The call of a loop runs a statement, which claims a row or not; the call may
  return a job with it. -/
  | statement (l : ℓ) (claimed returned : Option Int)
  /-- The call of a loop ends with `Err`. -/
  | fail (l : ℓ)
  | spawn (l : ℓ) (id : Int)
  /-- A loop without a job drops its permit. -/
  | release (l : ℓ)
  /-- A loop joins a task that has ended. -/
  | join (l : ℓ)
  /-- `run` returns. -/
  | stop (l : ℓ)
  | task (l : ℓ) (id : Int)
  /-- The shutdown interrupts a running job. -/
  | interrupt (l : ℓ) (id : Int)
  | finish (l : ℓ) (id : Int) (outcome : JobOutcome) (answer : Except StoreError Unit)
  /-- The database fails `finish` without effect. -/
  | finishFails (l : ℓ) (id : Int)
  /-- A task drops its permit. -/
  | drop (l : ℓ) (id : Int)

/-- The moves of a loop that touch nothing but its own place. -/
inductive LoopMove (cancelled : Bool) : LoopPc → LoopPc → Prop where
  | shutdown (h : cancelled = true) : LoopMove cancelled .acquiring .draining
  | wake : LoopMove cancelled .sleeping .ready
  | shutdownAsleep (h : cancelled = true) : LoopMove cancelled .sleeping .draining

/-- The moves of a task that touch nothing but its own stage. -/
inductive TaskMove : TaskStage → TaskStage → Prop where
  | create : TaskMove .starting .running
  | createFails (err : String) (run : RunEnd) :
      TaskMove .starting (.finishing (execute (.error err) run))
  | run (run : Except String RunReport) :
      TaskMove .running (.removing (execute (.ok ()) (.returned run)))
  | remove (outcome : JobOutcome) : TaskMove (.removing outcome) (.finishing outcome)

/-- Where a loop stands after a statement of its call. -/
def ClaimNext.loopPc : ClaimNext → LoopPc
  | .goto pc => .claiming pc
  | .returned (.ok (some job)) => .claimed job.id
  | .returned (.ok none) => .unclaimed
  -- the error is logged
  | .returned (.error _) => .unclaimed

/-- The id of the job a call returns with a statement. -/
def ClaimNext.returned? : ClaimNext → Option Int
  | .goto _ => none
  | .returned answer => returnedId answer

namespace Pool

variable {ℓ : Type} [DecidableEq ℓ]

/-- Loop `l` goes to `pc`. -/
def goto (s : Pool ℓ) (l : ℓ) (pc : LoopPc) : Pool ℓ :=
  { s with loop := Function.update s.loop l pc }

/-- One step of the system. A step of a task names the tasks around it. -/
inductive Step : Pool ℓ → PoolEvent ℓ → Pool ℓ → Prop where
  | enqueue (s : Pool ℓ) (m : Message) (hid : s.db.messages.find? m.id = none)
      (hchat : (s.db.chats.find? m.chatId).isSome) (huser : m.sender = .user)
      (hstatus : m.status = .new) :
      Step s (.enqueue m) { s with db := s.db.add m hid hchat }
  | reserve (s : Pool ℓ) (next : Nat) (h : s.db.nextId ≤ next) :
      Step s (.reserve next) { s with db := s.db.reserve next h }
  | cancel (s : Pool ℓ) (l : ℓ) :
      Step s (.cancel l) { s with cancelled := Function.update s.cancelled l true }
  | reap (s : Pool ℓ) (l : ℓ) (hl : s.loop l = .ready) :
      Step s (.reap l)
        { s.goto l .acquiring with
          tasks := s.tasks.filter fun τ => !decide (τ.owner = l ∧ τ.stage = .ended) }
  | move (s : Pool ℓ) (l : ℓ) (pc : LoopPc) (h : LoopMove (s.cancelled l) (s.loop l) pc) :
      Step s (.move l) (s.goto l pc)
  | acquire (s : Pool ℓ) (l : ℓ) (hl : s.loop l = .acquiring) (hfree : 0 < s.permits) :
      Step s (.acquire l) { s.goto l (.claiming .first) with permits := s.permits - 1 }
  | statement (s : Pool ℓ) (l : ℓ) (pc : ClaimPc) (hl : s.loop l = .claiming pc) :
      Step s (.statement l (pc.claims s.db) (pc.step s.db).2.returned?)
        { s.goto l (pc.step s.db).2.loopPc with db := (pc.step s.db).1 }
  | fail (s : Pool ℓ) (l : ℓ) (pc : ClaimPc) (hl : s.loop l = .claiming pc) :
      Step s (.fail l) (s.goto l .unclaimed)
  | spawn (s : Pool ℓ) (l : ℓ) (id : Int) (hl : s.loop l = .claimed id) :
      Step s (.spawn l id) { s.goto l .ready with tasks := s.tasks ++ [⟨l, id, .starting⟩] }
  | release (s : Pool ℓ) (l : ℓ) (hl : s.loop l = .unclaimed) :
      Step s (.release l) { s.goto l .sleeping with permits := s.permits + 1 }
  | join (s : Pool ℓ) (l : ℓ) (id : Int) (pre post : List (Task ℓ))
      (hl : s.loop l = .draining) (h : s.tasks = pre ++ ⟨l, id, .ended⟩ :: post) :
      Step s (.join l) { s with tasks := pre ++ post }
  | stop (s : Pool ℓ) (l : ℓ) (hl : s.loop l = .draining) (h : ∀ τ ∈ s.tasks, τ.owner ≠ l) :
      Step s (.stop l) (s.goto l .stopped)
  | task (s : Pool ℓ) (l : ℓ) (id : Int) (stage stage' : TaskStage) (pre post : List (Task ℓ))
      (h : s.tasks = pre ++ ⟨l, id, stage⟩ :: post) (hmove : TaskMove stage stage') :
      Step s (.task l id) { s with tasks := pre ++ ⟨l, id, stage'⟩ :: post }
  | interrupt (s : Pool ℓ) (l : ℓ) (id : Int) (pre post : List (Task ℓ))
      (h : s.tasks = pre ++ ⟨l, id, .running⟩ :: post) (hcancelled : s.cancelled l = true) :
      Step s (.interrupt l id)
        { s with tasks := pre ++ ⟨l, id, .removing (execute (.ok ()) .cancelled)⟩ :: post }
  | finish (s : Pool ℓ) (l : ℓ) (id : Int) (outcome : JobOutcome) (pre post : List (Task ℓ))
      (h : s.tasks = pre ++ ⟨l, id, .finishing outcome⟩ :: post) :
      Step s (.finish l id outcome (s.db.finish id outcome).1)
        { s with
          db := (s.db.finish id outcome).2
          -- an error is logged
          tasks := pre ++ ⟨l, id, .recorded⟩ :: post }
  | finishFails (s : Pool ℓ) (l : ℓ) (id : Int) (outcome : JobOutcome)
      (pre post : List (Task ℓ)) (h : s.tasks = pre ++ ⟨l, id, .finishing outcome⟩ :: post) :
      Step s (.finishFails l id) { s with tasks := pre ++ ⟨l, id, .recorded⟩ :: post }
  | drop (s : Pool ℓ) (l : ℓ) (id : Int) (pre post : List (Task ℓ))
      (h : s.tasks = pre ++ ⟨l, id, .recorded⟩ :: post) :
      Step s (.drop l id)
        { s with permits := s.permits + 1, tasks := pre ++ ⟨l, id, .ended⟩ :: post }

/-- A worker with `k` slots, none of whose clones has done anything yet. -/
structure Starts (s : Pool ℓ) (k : Nat) : Prop where
  permits : s.permits = k
  ready : ∀ l, s.loop l = .ready
  empty : s.tasks = []

@[simp] theorem goto_db (s : Pool ℓ) (l : ℓ) (pc : LoopPc) : (s.goto l pc).db = s.db := rfl

@[simp] theorem goto_permits (s : Pool ℓ) (l : ℓ) (pc : LoopPc) :
    (s.goto l pc).permits = s.permits := rfl

@[simp] theorem goto_tasks (s : Pool ℓ) (l : ℓ) (pc : LoopPc) :
    (s.goto l pc).tasks = s.tasks := rfl

@[simp] theorem goto_cancelled (s : Pool ℓ) (l : ℓ) (pc : LoopPc) :
    (s.goto l pc).cancelled = s.cancelled := rfl

@[simp] theorem goto_loop (s : Pool ℓ) (l : ℓ) (pc : LoopPc) :
    (s.goto l pc).loop = Function.update s.loop l pc := rfl

/-! ## Where a task comes from, and how a loop stops -/

omit [DecidableEq ℓ] in
/-- Changing the stage of a task changes no owner and no job. -/
theorem mem_setStage {l : ℓ} {id : Int} {stage' : TaskStage} {pre post : List (Task ℓ)}
    {τ : Task ℓ} (stage : TaskStage) (h : τ ∈ pre ++ ⟨l, id, stage'⟩ :: post) :
    ∃ stage₀, ⟨τ.owner, τ.job, stage₀⟩ ∈ pre ++ (⟨l, id, stage⟩ : Task ℓ) :: post := by
  rw [List.mem_append, List.mem_cons] at h
  rcases h with h | rfl | h
  · exact ⟨τ.stage, by simp [h]⟩
  · exact ⟨stage, by simp⟩
  · exact ⟨τ.stage, by simp [h]⟩

/-- A task was there before, or its loop had been returned its job. Tasks are made
nowhere else. -/
theorem Step.task_cases {s t : Pool ℓ} {e : PoolEvent ℓ} (h : Step s e t) {τ : Task ℓ}
    (hτ : τ ∈ t.tasks) :
    (∃ stage, ⟨τ.owner, τ.job, stage⟩ ∈ s.tasks) ∨ s.loop τ.owner = .claimed τ.job := by
  cases h with
  | enqueue | reserve | cancel | move | acquire | statement | fail | release | stop =>
    exact .inl ⟨τ.stage, hτ⟩
  | reap l hl => exact .inl ⟨τ.stage, (List.mem_filter.mp hτ).1⟩
  | spawn l id hl =>
    rcases List.mem_append.mp hτ with hτ | hτ
    · exact .inl ⟨τ.stage, hτ⟩
    · rw [List.mem_singleton.mp hτ]
      exact .inr hl
  | join l id pre post hl h =>
    refine .inl ⟨τ.stage, ?_⟩
    rw [h]
    rcases List.mem_append.mp hτ with hτ | hτ <;> simp [hτ]
  | task l id stage stage' pre post h =>
    rw [h]
    exact .inl (mem_setStage stage hτ)
  | interrupt l id pre post h =>
    rw [h]
    exact .inl (mem_setStage .running hτ)
  | finish l id outcome pre post h =>
    rw [h]
    exact .inl (mem_setStage (.finishing outcome) hτ)
  | finishFails l id outcome pre post h =>
    rw [h]
    exact .inl (mem_setStage (.finishing outcome) hτ)
  | drop l id pre post h =>
    rw [h]
    exact .inl (mem_setStage .recorded hτ)

/-- A loop that is elsewhere after a step than before is the one that moved. -/
theorem goto_loop_eq {s : Pool ℓ} {l l' : ℓ} {pc pc' : LoopPc}
    (h : (s.goto l pc).loop l' = pc') : s.loop l' = pc' ∨ l' = l ∧ pc = pc' := by
  rw [goto_loop] at h
  by_cases hl : l' = l
  · subst hl
    rw [Function.update_self] at h
    exact .inr ⟨rfl, h⟩
  · rw [Function.update_of_ne hl] at h
    exact .inl h

/-- A loop has stopped before, or joins its last task. -/
theorem Step.stopped {s t : Pool ℓ} {e : PoolEvent ℓ} (h : Step s e t) {l : ℓ}
    (hl : t.loop l = .stopped) :
    s.loop l = .stopped ∨ s.loop l = .draining ∧ ∀ τ ∈ s.tasks, τ.owner ≠ l := by
  cases h with
  | enqueue | reserve | cancel | join | task | interrupt | finish | finishFails | drop =>
    exact .inl hl
  | reap | acquire | fail | spawn | release =>
    exact .inl ((goto_loop_eq hl).resolve_right (by simp))
  | move l' pc hmove =>
    refine .inl ((goto_loop_eq hl).resolve_right ?_)
    rintro ⟨-, rfl⟩
    generalize s.loop l' = old at hmove
    cases hmove
  | statement l' pc hl' =>
    refine .inl ((goto_loop_eq hl).resolve_right ?_)
    rintro ⟨-, hpc⟩
    rcases hnext : (pc.step s.db).2 with pc' | (e | (_ | job)) <;> rw [hnext] at hpc <;> cases hpc
  | stop l' hl' h =>
    refine (goto_loop_eq hl).imp_right ?_
    rintro ⟨rfl, -⟩
    exact ⟨hl', h⟩

end Pool

/-! ## The loops as workers of a fleet -/

/-- The `claim_next` call a loop is in. -/
def LoopPc.call : LoopPc → Option ClaimPc
  | .claiming pc => some pc
  | _ => none

/-- What an event does to the table. -/
def PoolEvent.observe {ℓ : Type} : PoolEvent ℓ → Option (FleetEvent ℓ)
  | .enqueue m => some (.post m)
  | .reserve next => some (.reserve next)
  | .acquire l => some (.begin l)
  | .statement l claimed _ => some (.statement l claimed)
  | .fail l => some (.abort l)
  | .finish l id outcome answer => some (.finish l id outcome answer)
  | .cancel _ | .reap _ | .move _ | .spawn _ _ | .release _ | .join _ | .stop _ | .task _ _
  | .interrupt _ _ | .finishFails _ _ | .drop _ _ => none

namespace Pool

variable {ℓ : Type} [DecidableEq ℓ]

/-- The fleet `f` is what the table sees of the pool: the calls in progress, and
workers that hold every job of their loop and its tasks. -/
structure SeenAs (s : Pool ℓ) (f : Fleet ℓ) : Prop where
  db : f.db = s.db
  pc : f.pc = LoopPc.call ∘ s.loop
  claimed : ∀ l id, s.loop l = .claimed id → id ∈ f.held l
  tasks : ∀ τ ∈ s.tasks, τ.job ∈ f.held τ.owner

/-- A loop goes to a place without a job, and the call of the worker with it. -/
theorem SeenAs.setPc {s : Pool ℓ} {f : Fleet ℓ} (h : s.SeenAs f) (l : ℓ) (pc : LoopPc)
    (hjob : ∀ id, pc ≠ .claimed id) : (s.goto l pc).SeenAs (f.setPc l pc.call) where
  db := h.db
  pc := by
    rw [goto_loop, Fleet.setPc_pc, Function.comp_update, h.pc]
  claimed l' id hl' := by
    by_cases hl : l' = l
    · subst hl
      rw [goto_loop, Function.update_self] at hl'
      exact absurd hl' (hjob id)
    · rw [goto_loop, Function.update_of_ne hl] at hl'
      exact h.claimed l' id hl'
  tasks := h.tasks

/-- A move of a loop outside `claim_next`, to a place without a job, is not seen. -/
theorem SeenAs.goto {s : Pool ℓ} {f : Fleet ℓ} (h : s.SeenAs f) (l : ℓ) (pc : LoopPc)
    (hold : (s.loop l).call = none) (hnew : pc.call = none) (hjob : ∀ id, pc ≠ .claimed id) :
    (s.goto l pc).SeenAs f := by
  have hset := h.setPc l pc hjob
  have hsame : f.setPc l pc.call = f := by
    have hpc : f.pc l = none := by rw [h.pc, Function.comp_apply, hold]
    unfold Fleet.setPc
    rw [hnew, ← hpc, Function.update_eq_self]
  rwa [hsame] at hset

omit [DecidableEq ℓ] in
/-- Tasks of jobs that are held already are not seen. -/
theorem SeenAs.setTasks {s : Pool ℓ} {f : Fleet ℓ} (h : s.SeenAs f) {tasks : List (Task ℓ)}
    (htasks : ∀ τ ∈ tasks, τ.job ∈ f.held τ.owner) : SeenAs { s with tasks := tasks } f :=
  ⟨h.db, h.pc, h.claimed, htasks⟩

omit [DecidableEq ℓ] in
/-- Changing the stage of a task is not seen. -/
theorem SeenAs.setStage {s : Pool ℓ} {f : Fleet ℓ} (h : s.SeenAs f) {l : ℓ} {id : Int}
    {stage : TaskStage} {pre post : List (Task ℓ)}
    (stage' : TaskStage) (htasks : s.tasks = pre ++ ⟨l, id, stage⟩ :: post) :
    SeenAs { s with tasks := pre ++ ⟨l, id, stage'⟩ :: post } f := by
  refine h.setTasks fun τ hτ => ?_
  obtain ⟨stage₀, hτ₀⟩ := mem_setStage stage hτ
  exact h.tasks ⟨τ.owner, τ.job, stage₀⟩ (by rwa [htasks])

/-- A statement of a call is a statement of the worker's call, with the same effect
on the table and on what is returned. -/
theorem SeenAs.statement {s : Pool ℓ} {f : Fleet ℓ} (h : s.SeenAs f) (l : ℓ) (pc : ClaimPc) :
    SeenAs { s.goto l (pc.step s.db).2.loopPc with db := (pc.step s.db).1 } (f.proceed l pc) := by
  unfold Fleet.proceed
  rw [h.db]
  generalize (pc.step s.db).1 = db, (pc.step s.db).2 = next
  have hheld : ∀ l' id, id ∈ f.held l' → id ∈ (f.advance l db next).held l' := by
    intro l' id hmem
    cases next with
    | goto pc' => exact hmem
    | returned answer =>
      rw [Fleet.advance_held_returned]
      by_cases hl : l' = l
      · subst hl
        rw [Function.update_self]
        exact List.mem_append_right _ hmem
      · rwa [Function.update_of_ne hl]
  refine ⟨Fleet.advance_db .., ?_, fun l' id hl' => ?_, fun τ hτ => hheld _ _ (h.tasks τ hτ)⟩
  · rw [goto_loop, Function.comp_update, ← h.pc]
    rcases next with pc' | (e | (_ | job)) <;> rfl
  · by_cases hl : l' = l
    · subst hl
      rcases next with pc' | (e | (_ | job))
      all_goals simp [ClaimNext.loopPc] at hl'
      -- the call returned the job with this id
      rw [Fleet.advance_held_returned, Function.update_self, ← hl']
      exact List.mem_append_left _ (List.mem_singleton_self _)
    · simp only [goto_loop, Function.update_of_ne hl] at hl'
      exact hheld l' id (h.claimed l' id hl')

/-- **Step lemma.** Seen through the table, a step of the pool is a step of the
fleet, or nothing. -/
theorem Step.seenAs {s t : Pool ℓ} {e : PoolEvent ℓ} {f : Fleet ℓ} (hR : s.SeenAs f)
    (h : Step s e t) :
    ∃ f', t.SeenAs f' ∧ Run.Answers Fleet.Step f f' e.observe := by
  obtain ⟨db, pc, held⟩ := f
  obtain rfl : db = s.db := hR.db
  cases h with
  | enqueue m hid hchat huser hstatus =>
    exact ⟨⟨s.db.add m hid hchat, pc, held⟩, ⟨rfl, hR.pc, hR.claimed, hR.tasks⟩,
      .post ⟨s.db, pc, held⟩ m hid hchat huser hstatus⟩
  | reserve next h =>
    exact ⟨⟨s.db.reserve next h, pc, held⟩, ⟨rfl, hR.pc, hR.claimed, hR.tasks⟩,
      .reserve ⟨s.db, pc, held⟩ next h⟩
  | cancel l => exact ⟨_, ⟨rfl, hR.pc, hR.claimed, hR.tasks⟩, rfl⟩
  | reap l hl =>
    have hgoto := hR.goto l .acquiring (by rw [hl]; rfl) rfl (by simp)
    exact ⟨_, hgoto.setTasks fun τ hτ => hR.tasks τ (List.mem_filter.mp hτ).1, rfl⟩
  | move l pc' h =>
    refine ⟨_, hR.goto l pc' ?_ ?_ ?_, rfl⟩ <;>
    · generalize s.loop l = old at h
      cases h <;> simp [LoopPc.call]
  | acquire l hl hfree =>
    have hcall := hR.setPc l (.claiming .first) (by simp)
    refine ⟨_, ⟨hcall.db, hcall.pc, hcall.claimed, hcall.tasks⟩, .begin _ l ?_⟩
    rw [hR.pc, Function.comp_apply, hl]
    rfl
  | statement l pc' hl =>
    refine ⟨_, hR.statement l pc', .statement _ l pc' ?_⟩
    rw [hR.pc, Function.comp_apply, hl]
    rfl
  | fail l pc' hl => exact ⟨_, hR.setPc l .unclaimed (by simp), .abort _ l⟩
  | spawn l id hl =>
    have hgoto := hR.goto l .ready (by rw [hl]; rfl) rfl (by simp)
    refine ⟨_, hgoto.setTasks fun τ hτ => ?_, rfl⟩
    -- the new task has the job that the loop held
    rcases List.mem_append.mp hτ with hτ | hτ
    · exact hR.tasks τ hτ
    · rw [List.mem_singleton.mp hτ]
      exact hR.claimed l id hl
  | release l hl =>
    have hgoto := hR.goto l .sleeping (by rw [hl]; rfl) rfl (by simp)
    exact ⟨_, ⟨rfl, hgoto.pc, hgoto.claimed, hgoto.tasks⟩, rfl⟩
  | join l id pre post hl h =>
    refine ⟨_, hR.setTasks fun τ hτ => hR.tasks τ ?_, rfl⟩
    rw [h]
    rcases List.mem_append.mp hτ with hτ | hτ <;> simp [hτ]
  | stop l hl h => exact ⟨_, hR.goto l .stopped (by rw [hl]; rfl) rfl (by simp), rfl⟩
  | task l id stage stage' pre post h hmove => exact ⟨_, hR.setStage stage' h, rfl⟩
  | interrupt l id pre post h hcancelled => exact ⟨_, hR.setStage _ h, rfl⟩
  | finish l id outcome pre post h =>
    have hstage := hR.setStage .recorded h
    refine ⟨⟨(s.db.finish id outcome).2, pc, held⟩, ⟨rfl, hR.pc, hR.claimed, hstage.tasks⟩,
      .finish ⟨s.db, pc, held⟩ l id outcome ?_⟩
    exact hR.tasks ⟨l, id, .finishing outcome⟩ (by rw [h]; simp)
  | finishFails l id outcome pre post h => exact ⟨_, hR.setStage .recorded h, rfl⟩
  | drop l id pre post h =>
    have hstage := hR.setStage .ended h
    exact ⟨_, ⟨rfl, hR.pc, hR.claimed, hstage.tasks⟩, rfl⟩

/-- The fleet a pool starts as. -/
def startFleet (s : Pool ℓ) : Fleet ℓ := ⟨s.db, fun _ => none, fun _ => []⟩

omit [DecidableEq ℓ] in
theorem Starts.seenAs {s : Pool ℓ} {k : Nat} (h : s.Starts k) : s.SeenAs s.startFleet where
  db := rfl
  pc := by
    funext l
    rw [Function.comp_apply, h.ready l]
    rfl
  claimed l id hl := by
    rw [h.ready l] at hl
    cases hl
  tasks τ hτ := by
    rw [h.empty] at hτ
    cases hτ

omit [DecidableEq ℓ] in
theorem startFleet_idle (s : Pool ℓ) : s.startFleet.Idle :=
  ⟨fun _ => rfl, fun _ => rfl⟩

/-- **Refinement.** Seen through the table, a run of the pool is a run of the fleet. -/
theorem toFleet {s t : Pool ℓ} {k : Nat} {evs : List (PoolEvent ℓ)} (h : s.Starts k)
    (hrun : Run Step s evs t) :
    ∃ f, t.SeenAs f ∧ Run Fleet.Step s.startFleet (evs.filterMap PoolEvent.observe) f :=
  Run.simulates PoolEvent.observe (fun hR hstep => hstep.seenAs hR) hrun h.seenAs

end Pool

end JobRunner
