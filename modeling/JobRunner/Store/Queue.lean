import JobRunner.Lib.WorkQueue
import JobRunner.Store.Effects

/-!
# The `status` column is a work queue

Read through its `status` column, the table is a `WorkQueue` of jobs: `NULL` is
waiting, `pending` is running, and `done` and `failed` are the two resolutions.
Each operation of the store is the step of the queue it is named after, or none.

- `queue_add`, `queue_tryClaim`, `queue_finish`, `queue_requeuePending`: the
  operations as steps.
-/

namespace JobRunner

open WorkQueue

/-- The phase a status stands for; an id that is no job is absent. -/
def phase : Option JobStatus → Phase JobStatus
  | none => .absent
  | some .new => .waiting
  | some .pending => .running
  | some .done => .resolved .done
  | some .failed => .resolved .failed

@[simp] theorem phase_eq_absent {s : Option JobStatus} : phase s = .absent ↔ s = none := by
  rcases s with _ | s <;> try cases s
  all_goals simp [phase]

@[simp] theorem phase_eq_waiting {s : Option JobStatus} :
    phase s = .waiting ↔ s = some .new := by
  rcases s with _ | s <;> try cases s
  all_goals simp [phase]

@[simp] theorem phase_eq_running {s : Option JobStatus} :
    phase s = .running ↔ s = some .pending := by
  rcases s with _ | s <;> try cases s
  all_goals simp [phase]

theorem phase_resolved {s : Option JobStatus} {a : JobStatus} (h : phase s = .resolved a) :
    s = some a := by
  rcases s with _ | s <;> try cases s
  all_goals simp_all [phase]

/-- The phase of a job says everything about its status, so nothing that is proved
of the queue is lost on the table. -/
theorem phase_injective : Function.Injective phase := by
  intro s s' h
  rcases s with _ | s <;> rcases s' with _ | s' <;> try cases s
  all_goals first | rfl | (cases s' <;> first | rfl | cases h) | cases h

theorem phase_of_isTerminal {a : JobStatus} (h : a.isTerminal = true) :
    phase (some a) = .resolved a := by
  cases a <;> first | rfl | cases h

namespace Database

/-- The jobs of the table as a work queue. -/
def queue (db : Database) : Int → Phase JobStatus :=
  fun j => phase (db.jobStatus j)

theorem jobStatus_add (db : Database) (m : Message) (hid : db.messages.find? m.id = none)
    (hchat : (db.chats.find? m.chatId).isSome) (j : Int) :
    (db.add m hid hchat).jobStatus j =
      if j = m.id then (if m.isJob then some m.status else none) else db.jobStatus j := by
  unfold jobStatus
  rw [jobRow_add]
  by_cases h : m.id = j
  · subst h
    cases m.isJob <;> simp
  · rw [if_neg h, if_neg (Ne.symm h)]

theorem jobStatus_of_find?_none {db : Database} {id : Int}
    (h : db.messages.find? id = none) : db.jobStatus id = none := by
  unfold jobStatus jobRow
  rw [h]
  rfl

/-- A new unclaimed job is submitted. -/
theorem queue_add {db : Database} {m : Message} (hid : db.messages.find? m.id = none)
    (hchat : (db.chats.find? m.chatId).isSome) (hjob : m.isJob = true)
    (hstatus : m.status = .new) :
    Step db.queue (.submit m.id) (db.add m hid hchat).queue := by
  intro j
  simp only [queue, jobStatus_add, hjob, hstatus, if_true]
  by_cases hj : j = m.id
  · subst hj
    rw [if_pos rfl, jobStatus_of_find?_none hid]
    exact .submit
  · rw [if_neg hj]
    exact .other (by simpa [Event.item] using Ne.symm hj) (by simp)

/-- A row that is no job leaves the queue alone. -/
theorem queue_add_other {db : Database} {m : Message} (hid : db.messages.find? m.id = none)
    (hchat : (db.chats.find? m.chatId).isSome) (hjob : m.isJob = false) :
    (db.add m hid hchat).queue = db.queue := by
  funext j
  simp only [queue, jobStatus_add, hjob]
  by_cases hj : j = m.id
  · subst hj
    rw [jobStatus_of_find?_none hid]
    simp
  · rw [if_neg hj]

/-- A claim takes the job; that it was unclaimed is what `try_claim` checks. -/
theorem queue_tryClaim {db : Database} {id : Int} (h : db.jobStatus id = some .new) :
    Step db.queue (.take id) (db.tryClaim id).1.queue := by
  intro j
  simp only [queue, jobStatus_tryClaim, h, and_true]
  by_cases hj : j = id
  · subst hj
    rw [if_pos rfl, h]
    exact .take
  · rw [if_neg hj]
    exact .other (by simpa [Event.item] using Ne.symm hj) (by simp)

/-- A successful `finish` resolves the job, with the status of its outcome. -/
theorem queue_finish {db db' : Database} {id : Int} {o : JobOutcome}
    (hjob : db.jobStatus id ≠ none) (h : db.finish id o = (.ok (), db')) :
    Step db.queue (.resolve id o.status) db'.queue := by
  intro j
  simp only [queue, jobStatus_finish hjob h]
  by_cases hj : j = id
  · subst hj
    rw [if_pos rfl, phase_of_isTerminal o.status_isTerminal, jobStatus_of_finish hjob h]
    exact .resolve _
  · rw [if_neg hj]
    exact .other (by simpa [Event.item] using Ne.symm hj) (by simp)

/-- `requeue_pending` is the recovery: every running job waits again, and no other
job is touched. -/
theorem queue_requeuePending (db : Database) :
    Step db.queue .recover db.requeuePending.2.queue := by
  intro j
  simp only [queue, jobStatus_requeuePending]
  by_cases hs : db.jobStatus j = some .pending
  · rw [if_pos hs, hs]
    exact .recover
  · rw [if_neg hs]
    exact .keep (by simpa using hs)

end Database

end JobRunner
