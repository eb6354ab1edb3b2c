import JobRunner.Store.ClaimCall
import JobRunner.Store.Effects

/-!
# One job, from claim to record (`Worker::process`)

`process` runs a claimed job in a fresh workspace and stores its outcome; an error
of `finish` is only logged. On a healthy database `finish` still fails when the
answer does not fit the `TEXT` column, or when the table has run out of ids.

- `execute`, `process`: the two functions, with what the workspace, the runner and
  the shutdown token did as inputs.
- `RunnerAnswers`, `execute_success_iff`: the inputs that end in a success.
- `process_recorded_iff`: the job is recorded **exactly when** the answer, if there
  is one, fits.
-/

namespace JobRunner

/-- What `into_outcome` reads of a `RunReport`. -/
structure RunReport where
  result : Option String
  isError : Bool
  subtype : String

/-- `RunReport::into_outcome`. -/
def RunReport.intoOutcome (report : RunReport) : JobOutcome :=
  match report.isError, report.result with
  | false, some result => .success result
  | false, none => .ofError "claude finished without a result"
  | true, result => .failed ("claude reported an error: " ++ report.subtype) result

/-- How the `select!` of `execute` ended: the runner returned, or the shutdown
token was cancelled first. Errors are given by their text. -/
inductive RunEnd where
  | returned (run : Except String RunReport)
  | cancelled

/-- The outcome of a job that the shutdown interrupted. -/
def shutdownOutcome : JobOutcome := .ofError "runner shut down before the job finished"

/-- `Worker::execute`; what becomes of the workspace afterwards is only logged. -/
def execute (workspace : Except String Unit) (run : RunEnd) : JobOutcome :=
  match workspace with
  | .error err => .ofError err
  | .ok () =>
    match run with
    | .returned (.ok report) => report.intoOutcome
    | .returned (.error err) => .ofError err
    | .cancelled => shutdownOutcome

/-- `Worker::process`: an error of `finish` is logged and dropped. -/
def process (db : Database) (id : Int) (workspace : Except String Unit) (run : RunEnd) :
    JobOutcome × Database :=
  let outcome := execute workspace run
  (outcome, (db.finish id outcome).2)

/-- The runner answers with `result`. -/
def RunnerAnswers (workspace : Except String Unit) (run : RunEnd) (result : String) : Prop :=
  workspace = .ok () ∧ ∃ subtype, run = .returned (.ok ⟨some result, false, subtype⟩)

/-- A job succeeds exactly when the runner answers. Every other end of the
workspace, of the process and of its output is a failure with a text. -/
theorem execute_success_iff {workspace : Except String Unit} {run : RunEnd} {result : String} :
    execute workspace run = .success result ↔ RunnerAnswers workspace run result := by
  constructor
  · intro h
    rcases workspace with err | _
    · cases h
    rcases run with ⟨err | ⟨answer, isError, subtype⟩⟩ | _
    · cases h
    · cases isError with
      | true => cases h
      | false =>
        cases answer with
        | none => cases h
        | some answer =>
          cases h
          exact ⟨rfl, subtype, rfl⟩
    · cases h
  · rintro ⟨rfl, subtype, rfl⟩
    rfl

/-- The row is terminal, and a success has one more linked reply, with exactly the
result as its content. -/
structure Processed (db db' : Database) (id : Int) (outcome : JobOutcome) : Prop where
  terminal : ∃ a, db'.jobStatus id = some a ∧ a.isTerminal = true
  reply : ∀ result, outcome = .success result →
    ∃ reply, db'.replies id = db.replies id ++ [reply] ∧ reply.content.val = result

namespace Database

/-- A failure of a pending job is always recorded, whatever its texts: they go into
the payload, and no length is checked. -/
theorem processed_failed {db : Database} {id : Int} (hpending : db.jobStatus id = some .pending)
    (error : String) (result : Option String) :
    Processed db (db.finish id (.failed error result)).2 id (.failed error result) := by
  obtain ⟨m, -, hp⟩ := pendingRow_of_jobStatus hpending
  have hfinish : db.finish id (.failed error result) =
      (.ok (), db.rejected id error result) := by
    rw [finish_failed, finishFailed_eq, hp]
    rfl
  refine ⟨⟨.failed, ?_, rfl⟩, fun result h => by cases h⟩
  rw [hfinish, jobStatus_finish (by simp [hpending]) hfinish, if_pos rfl]
  rfl

/-- An answer that fits is recorded. -/
theorem processed_success {db : Database} {id : Int} (hpending : db.jobStatus id = some .pending)
    {result : String} (hlen : result.utf8ByteSize ≤ 65535) (hmax : db.nextId ≤ intMax) :
    Processed db (db.finish id (.success result)).2 id (.success result) := by
  obtain ⟨m, hm, hp⟩ := pendingRow_of_jobStatus hpending
  have hid : m.id = id := jobRow_id hm
  have hfinish := finishDone_some hp result
  rw [dif_pos hlen, if_pos hmax, ← finish_success] at hfinish
  constructor
  · refine ⟨.done, ?_, rfl⟩
    rw [hfinish, jobStatus_finish (by simp [hpending]) hfinish, if_pos rfl]
    rfl
  · rintro result' ⟨⟩
    refine ⟨db.replyRow m ⟨result, hlen⟩, ?_, rfl⟩
    rw [hfinish, replies_answered (hid ▸ hm), if_pos hid]

/-- An answer that does not fit, or finds no id left, leaves the row pending. The
reply is written in the transaction that would finish the job, so both are lost
together. -/
theorem finish_success_stuck {db : Database} {id : Int}
    (hpending : db.jobStatus id = some .pending) {result : String}
    (h : ¬(result.utf8ByteSize ≤ 65535 ∧ db.nextId ≤ intMax)) :
    (db.finish id (.success result)).2 = db := by
  obtain ⟨m, -, hp⟩ := pendingRow_of_jobStatus hpending
  rw [finish_success, finishDone_some hp]
  by_cases hlen : result.utf8ByteSize ≤ 65535
  · rw [dif_pos hlen, if_neg fun hmax => h ⟨hlen, hmax⟩]
  · rw [dif_neg hlen]

/-- **A claimed job is recorded exactly when its answer, if it has one, fits the
`TEXT` column and the table has an id left for the reply.** -/
theorem process_recorded_iff {db : Database} {id : Int}
    (hpending : db.jobStatus id = some .pending) (workspace : Except String Unit)
    (run : RunEnd) :
    Processed db (process db id workspace run).2 id (process db id workspace run).1 ↔
      ∀ result, RunnerAnswers workspace run result →
        result.utf8ByteSize ≤ 65535 ∧ db.nextId ≤ intMax := by
  show Processed db (db.finish id (execute workspace run)).2 id (execute workspace run) ↔ _
  simp only [← execute_success_iff]
  cases execute workspace run with
  | failed error result =>
    refine iff_of_true (processed_failed hpending error result) fun result h => ?_
    cases h
  | success result =>
    constructor
    · rintro ⟨⟨a, ha, hterm⟩, -⟩ result' ⟨⟩
      by_contra h
      rw [finish_success_stuck hpending h, hpending] at ha
      cases ha
      cases hterm
    · intro h
      exact processed_success hpending (h result rfl).1 (h result rfl).2

/-- The database of `unclaimedDb` with its job claimed. -/
def claimedDb : Database := (unclaimedDb.tryClaim 1).1

/-- A short answer is recorded. -/
theorem process_recorded_short :
    Processed claimedDb (process claimedDb 1 (.ok ()) (.returned (.ok ⟨some "42", false, ""⟩))).2 1
      (.success "42") :=
  (process_recorded_iff rfl (.ok ()) (.returned (.ok ⟨some "42", false, ""⟩))).mpr <| by
    rintro result ⟨-, subtype, h⟩
    cases h
    decide

/-- A text of `n` bytes. -/
def longText : Nat → String
  | 0 => ""
  | n + 1 => (longText n).push 'a'

theorem longText_size (n : Nat) : (longText n).utf8ByteSize = n := by
  induction n with
  | zero => rfl
  | succ n ih =>
    rw [longText, String.utf8ByteSize_push, ih]
    rfl

/-- A job whose answer is too long is left `pending`, for every such answer:
`process` only logs the refusal. -/
theorem process_too_long {db : Database} {id : Int} (hpending : db.jobStatus id = some .pending)
    {result : String} (hlen : 65535 < result.utf8ByteSize) (subtype : String) :
    let r := process db id (.ok ()) (.returned (.ok ⟨some result, false, subtype⟩))
    r.1 = .success result ∧ r.2.jobStatus id = some .pending ∧ ¬Processed db r.2 id r.1 := by
  have hstuck : (db.finish id (.success result)).2 = db :=
    finish_success_stuck hpending fun h => absurd h.1 (Nat.not_le.mpr hlen)
  have hstill : (db.finish id (.success result)).2.jobStatus id = some .pending := by
    rw [hstuck, hpending]
  refine ⟨rfl, hstill, fun h => ?_⟩
  obtain ⟨a, ha, hterm⟩ := h.terminal
  rw [show (process db id (.ok ()) (.returned (.ok ⟨some result, false, subtype⟩))).2 =
    (db.finish id (.success result)).2 from rfl, hstill] at ha
  cases ha
  cases hterm

/-- An answer of 65536 bytes leaves the job `pending`. -/
theorem long_answer_left_pending :
    let r := process claimedDb 1 (.ok ()) (.returned (.ok ⟨some (longText 65536), false, ""⟩))
    r.1 = .success (longText 65536) ∧ r.2.jobStatus 1 = some .pending ∧
      ¬Processed claimedDb r.2 1 r.1 :=
  process_too_long rfl (by rw [longText_size]; decide) ""

end Database

end JobRunner
