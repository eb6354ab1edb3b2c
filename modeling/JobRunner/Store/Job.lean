import JobRunner.Lib.Json

/-!
# Domain types (`job.rs`)

A *job* is a row of `chat_messages` with `sender = 'user'` and
`is_agentic = 1`. These are the types the store, the worker and the HTTP API
share: identifiers, the status a row goes through, who asked, the job as the
runner sees it and the outcome a run produces.

`MessageId` and `ChatId` wrap an `i64`; here both are plain integers.
`JobStatus.new` is `NULL` in the database, so the column has exactly the values
of `JobStatus`; `fromDb_toDb` is the round trip through its text.
-/

namespace JobRunner

/-- Lifecycle of a job as stored in the `status` column; `new` is `NULL`. -/
inductive JobStatus where
  | new
  | pending
  | done
  | failed
deriving DecidableEq, Repr

/-- The `status` column holds a value this crate does not know. -/
structure UnknownStatus where
  raw : String
deriving DecidableEq, Repr

namespace JobStatus

/-- `JobStatus::from_db`: the database representation, `None` meaning `NULL`. -/
def fromDb : Option String → Except UnknownStatus JobStatus
  | none => .ok new
  | some raw =>
    if raw = "pending" then .ok pending
    else if raw = "done" then .ok done
    else if raw = "failed" then .ok failed
    else .error ⟨raw⟩

/-- `JobStatus::to_db`. -/
def toDb : JobStatus → Option String
  | new => none
  | pending => some "pending"
  | done => some "done"
  | failed => some "failed"

/-- `JobStatus::is_terminal`. -/
def isTerminal : JobStatus → Bool
  | done | failed => true
  | new | pending => false

/-- Every status is read back from its database representation. -/
@[simp] theorem fromDb_toDb (s : JobStatus) : fromDb s.toDb = .ok s := by
  cases s <;> rfl

end JobStatus

/-- Who asked for a job: the owner of the chat it was posted in. -/
structure Requester where
  userId : Int
  companyId : Int
  isAdmin : Bool
deriving DecidableEq, Repr

/-- An agentic user message as seen by the runner. -/
structure Job where
  id : Int
  chatId : Int
  content : String
  status : JobStatus
  replyId : Option Int
  error : Option String
  requester : Option Requester
deriving DecidableEq, Repr

/-- Final outcome of running a job. -/
inductive JobOutcome where
  /-- Claude finished normally and produced this answer. -/
  | success (result : String)
  /-- Something went wrong; `result` carries any partial answer. -/
  | failed (error : String) (result : Option String)
deriving DecidableEq, Repr

/-- `JobOutcome::failed`: a failure without a partial answer. -/
def JobOutcome.ofError (error : String) : JobOutcome := .failed error none

/-- `JobOutcome::status`. -/
def JobOutcome.status : JobOutcome → JobStatus
  | success _ => .done
  | failed _ _ => .failed

theorem JobOutcome.status_isTerminal (o : JobOutcome) : o.status.isTerminal = true := by
  cases o <;> rfl

end JobRunner
