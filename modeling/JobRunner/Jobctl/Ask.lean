import JobRunner.Http.Create
import JobRunner.Http.Follow
import JobRunner.Jobctl.Transport
import JobRunner.Jobctl.Watch
import JobRunner.Store.Overtaking

/-!
# `jobctl ask` (`jobctl`, `main.rs` and `api.rs`; `http.rs`)

The command posts a job over HTTP, takes the id out of the answer and asks for the job until
it is `done` or `failed`. The daemon reads the job and then its reply, for every request, and
workers claim, finish and requeue in between.

- `JobView.toJson`, `respond`: what the daemon sends.
- `Response.json`: `Api::json`; `AskPc.polled`: what the command makes of a job.
- `AskPc`, `AskPc.step`: the command and the requests it waits for, one statement at a time.
- `ask_prints_answer`: what the command prints is what was recorded for the job it posted.
-/

namespace JobRunner.Jobctl

open Keyed Transition

/-! ## What the daemon sends -/

/-- `Serialize` for `JobStatus`: the name in lower case. -/
def statusText : JobStatus → String
  | .new => "new"
  | .pending => "pending"
  | .done => "done"
  | .failed => "failed"

/-- `Serialize` for `JobView`; the requester is skipped. -/
def viewJson (v : JobView) : Json :=
  .obj [("id", .int v.job.id), ("chat_id", .int v.job.chatId), ("content", .str v.job.content),
    ("status", .str (statusText v.job.status)),
    ("reply_id", (v.job.replyId.map Json.int).getD .null), ("error", .ofOption v.job.error),
    ("reply", .ofOption v.reply)]

/-- A response: its status and its document. -/
structure Response where
  status : Nat
  body : Json

/-- `handle`, from what `load_view` came to: `code` is the status of a success. -/
def respond (code : Nat) : Except ApiError JobView → Response
  | .ok view => ⟨code, viewJson view⟩
  | .error err => ⟨err.status, .obj [("error", .str err.text)]⟩

/-- Where `load_view` stands: before the `SELECT` of the job, or before that of its reply. -/
inductive ViewPc where
  | job
  | reply (found : Job) (replyId : Int)

/-- `load_view` up to its next statement, or to its end. -/
def ViewPc.step (db : Database) (id : Int) : ViewPc → ViewPc ⊕ Except ApiError JobView
  | job =>
    match db.get id with
    | .error source => .inr (.error (.store source))
    | .ok none => .inr (.error .notFound)
    | .ok (some found) =>
      match found.replyId with
      | none => .inr (.ok ⟨found, none⟩)
      | some replyId => .inl (reply found replyId)
  | reply found replyId => .inr (.ok ⟨found, db.reply replyId⟩)

/-! ## The command -/

/-- Why the command fails. -/
inductive AskError where
  /-- No answer in time, or none at all. -/
  | transport
  | status (code : Nat) (body : Json)
  | noId

/-- `Api::json`. -/
def Response.json (r : Response) : Except AskError Json :=
  if 200 ≤ r.status ∧ r.status < 300 then .ok r.body else .error (.status r.status r.body)

/-- What the command prints: the reply to stdout, or the error to stderr. -/
inductive AskEnd where
  | answered (reply : String)
  | failed (error : String)
deriving DecidableEq, Repr

/-- `ExitCode`. -/
def AskEnd.exitCode : AskEnd → ExitCode
  | answered _ => .success
  | failed _ => .failure

/-- Where the command and its request stand. -/
inductive AskPc where
  /-- `POST /jobs` has inserted the row `id` and reads it back. -/
  | posted (id : Int) (view : ViewPc)
  /-- `GET /jobs/{id}`, read by the daemon as `asked`. -/
  | waiting (id asked : Int) (view : ViewPc)
  | ended (answer : Except AskError AskEnd)

namespace AskPc

/-- The loop of `cmd_ask` with the job it was given. A status that is neither `done` nor
`failed` is waited out and asked for again. -/
def polled (again : AskPc) (job : Json) : AskPc :=
  if (job.index "status").asStr = some "done" then
    ended (.ok (.answered ((job.index "reply").asStr.getD "")))
  else if (job.index "status").asStr = some "failed" then
    ended (.ok (.failed ((job.index "error").asStr.getD "?")))
  else again

/-- The command sends `GET /jobs/{id}`, and `route` reads the path. -/
def send (id : Int) : AskPc :=
  match parseJobId (jobPath id) with
  | some asked => waiting id asked .job
  | none => ended (.error (.status 404 (respond 200 (.error .notFound)).body))

/-- The answer to `POST /jobs`. -/
def created (r : Response) : AskPc :=
  match r.json with
  | .error err => ended (.error err)
  | .ok job =>
    match (job.index "id").asI64 with
    | none => ended (.error .noId)
    | some id => send id

/-- The answer to `GET /jobs/{id}`. -/
def received (id : Int) (r : Response) : AskPc :=
  match r.json with
  | .error err => ended (.error err)
  | .ok job => polled (send id) job

/-- The command up to the next statement of the daemon, which finds the table `db`. -/
def step (db : Database) : AskPc → AskPc
  | posted id view =>
    match view.step db id with
    | .inl view => posted id view
    | .inr answer => created (respond 201 answer)
  | waiting id asked view =>
    match view.step db asked with
    | .inl view => waiting id asked view
    | .inr answer => received id (respond 200 answer)
  | ended answer => ended answer

end AskPc

/-- A statement that the command waits for: it runs, or the request fails on the way. -/
inductive AskPc.Read (db : Database) : AskPc → AskPc → Prop where
  | answered (pc : AskPc) (hrunning : ∀ answer, pc ≠ .ended answer) : Read db pc (pc.step db)
  | failed (pc : AskPc) (hrunning : ∀ answer, pc ≠ .ended answer) :
      Read db pc (.ended (.error .transport))

/-! ## One view -/

/-- A view in progress, from what is recorded for its job. -/
inductive ViewStands (db : Database) (j : Int) (recorded : List JobOutcome) : ViewPc → Prop where
  | job : ViewStands db j recorded .job
  | reply (found : Job) (replyId : Int) (text : String) (hid : found.id = j)
      (hdone : found.status = .done) (hrec : recorded = [.success text])
      (hreply : db.reply replyId = some text) : ViewStands db j recorded (.reply found replyId)

/-- A view, from what is recorded for its job. -/
inductive ViewTells (j : Int) (recorded : List JobOutcome) (v : JobView) : Prop where
  | unfinished (hid : v.job.id = j) (hrec : recorded = [])
      (hstatus : v.job.status.isTerminal = false)
  | done (text : String) (hid : v.job.id = j) (hrec : recorded = [.success text])
      (hstatus : v.job.status = .done) (hreply : v.reply = some text)
  | failed (error : String) (result : Option String) (hid : v.job.id = j)
      (hrec : recorded = [.failed error result]) (hstatus : v.job.status = .failed)
      (herror : v.job.error = some error)

theorem ViewTells.id {j : Int} {recorded : List JobOutcome} {v : JobView}
    (h : ViewTells j recorded v) : v.job.id = j := by
  cases h <;> assumption

/-- What a statement of `load_view` finds. -/
inductive ViewMove (db : Database) (j : Int) (recorded : List JobOutcome) :
    ViewPc → ViewPc ⊕ Except ApiError JobView → Prop where
  | reply (found : Job) (replyId : Int) (hrec : recorded ≠ [])
      (hstands : ViewStands db j recorded (.reply found replyId)) :
      ViewMove db j recorded .job (.inl (.reply found replyId))
  | view (pc : ViewPc) (v : JobView) (htells : ViewTells j recorded v) :
      ViewMove db j recorded pc (.inr (.ok v))

/-- A statement of the daemon's view, on the row of the job: it goes on to the reply
only if an outcome is recorded, and a view that is answered tells what is recorded. -/
theorem ViewStands.step {db : Database} {j : Int} {m : Message} {recorded : List JobOutcome}
    {pc : ViewPc} (hm : db.jobRow j = some m) (htold : Told db m recorded)
    (h : ViewStands db j recorded pc) : ViewMove db j recorded pc (pc.step db j) := by
  have hid : (db.toJob m).id = j := Database.jobRow_id hm
  cases h with
  | reply found replyId text hjob hdone hrec hreply =>
    exact .view (.reply found replyId) ⟨found, db.reply replyId⟩
      (.done text hjob hrec hdone hreply)
  | job =>
    have hget : db.get j = .ok (some (db.toJob m)) := by
      rw [Database.get_eq, hm]
      rfl
    simp only [ViewPc.step, hget]
    cases htold.book with
    | unfinished hterm hclean =>
      have hreplyId : (db.toJob m).replyId = none := by simp [Database.toJob, hclean.noReply]
      simp only [hreplyId]
      exact .view _ _ (.unfinished hid rfl hterm)
    | done text replyId hdone hreplyId hnoError hreply =>
      have hreplyId' : (db.toJob m).replyId = some replyId := hreplyId
      simp only [hreplyId']
      exact .reply _ _ (List.cons_ne_nil _ _) (.reply _ _ text hid hdone rfl hreply)
    | failed error result hfailed hnoReply herror =>
      have hreplyId : (db.toJob m).replyId = none := by simp [Database.toJob, hnoReply]
      have herror' : (db.toJob m).error = some error := by
        simp [Database.toJob, herror, Json.asStr]
      simp only [hreplyId]
      exact .view _ _ (.failed error result hid rfl hfailed herror')

/-! ## Reading the document -/

theorem json_respond {code : Nat} (h : 200 ≤ code ∧ code < 300) (v : JobView) :
    (respond code (.ok v)).json = .ok (viewJson v) :=
  if_pos h

theorem viewJson_id (v : JobView) : (viewJson v).index "id" = .int v.job.id := rfl

theorem viewJson_status (v : JobView) :
    (viewJson v).index "status" = .str (statusText v.job.status) := by
  simp [viewJson, Json.index, Json.get?, Json.members]

theorem viewJson_error (v : JobView) : (viewJson v).index "error" = .ofOption v.job.error := by
  simp [viewJson, Json.index, Json.get?, Json.members]

theorem viewJson_reply (v : JobView) : (viewJson v).index "reply" = .ofOption v.reply := by
  simp [viewJson, Json.index, Json.get?, Json.members]

theorem statusText_eq_done_iff {status : JobStatus} :
    some (statusText status) = some "done" ↔ status = .done := by
  cases status <;> simp [statusText]

theorem statusText_eq_failed_iff {status : JobStatus} :
    some (statusText status) = some "failed" ↔ status = .failed := by
  cases status <;> simp [statusText]

/-- The loop reads the status, and then the reply or the error. Any other status
sends it round again. -/
theorem AskPc.polled_viewJson (again : AskPc) (v : JobView) :
    polled again (viewJson v) =
      if v.job.status = .done then ended (.ok (.answered (v.reply.getD "")))
      else if v.job.status = .failed then ended (.ok (.failed (v.job.error.getD "?")))
      else again := by
  have hstr : ∀ o d, (Json.ofOption o).asStr.getD d = o.getD d := by
    intro o d
    cases o <;> rfl
  simp only [polled, viewJson_status, viewJson_error, viewJson_reply, Json.asStr,
    statusText_eq_done_iff, statusText_eq_failed_iff]
  rw [← hstr v.reply, ← hstr v.job.error]
  rfl

/-! ## The command along a run -/

/-- An id as MySQL hands it out. -/
def ValidId (id : Int) : Prop := 0 < id ∧ Machine.InRange id

theorem AskPc.send_eq {id : Int} (h : ValidId id) : send id = waiting id id .job := by
  rw [send, parseJobId_jobPath h.1 h.2]

theorem AskPc.created_eq {v : JobView} (h : ValidId v.job.id) :
    created (respond 201 (.ok v)) = waiting v.job.id v.job.id .job := by
  have hid : (Json.int v.job.id).asI64 = some v.job.id := by
    obtain ⟨-, hlow, hhigh⟩ := h
    exact if_pos ⟨hlow, by omega⟩
  simp only [created, json_respond (by decide : 200 ≤ 201 ∧ 201 < 300), viewJson_id, hid]
  exact send_eq h

/-- Where the command stands, from what is recorded for its job. -/
inductive AskStands (j : Int) (db : Database) (recorded : List JobOutcome) : AskPc → Prop where
  | posted (view : ViewPc) (hview : ViewStands db j recorded view) :
      AskStands j db recorded (.posted j view)
  | waiting (view : ViewPc) (hview : ViewStands db j recorded view) :
      AskStands j db recorded (.waiting j j view)
  | answered (text : String) (hrec : recorded = [.success text]) :
      AskStands j db recorded (.ended (.ok (.answered text)))
  | failed (error : String) (result : Option String) (hrec : recorded = [.failed error result]) :
      AskStands j db recorded (.ended (.ok (.failed error)))
  | broken : AskStands j db recorded (.ended (.error .transport))

theorem ViewStands.mono {db db' : Database} {j : Int} {recorded more : List JobOutcome}
    {pc : ViewPc} (h : ViewStands db j recorded pc) (hdb : db.Extends db')
    (hmore : ∀ o, recorded = [o] → more = []) : ViewStands db' j (recorded ++ more) pc := by
  cases h with
  | job => exact .job
  | reply found replyId text hid hdone hrec hreply =>
    rw [hmore _ hrec, List.append_nil]
    exact .reply found replyId text hid hdone hrec (hdb.reply hreply)

/-- Where the command stands still fits when rows are added and the outcome is
recorded, since it has read only what stays. -/
theorem AskStands.mono {db db' : Database} {j : Int} {recorded more : List JobOutcome}
    {pc : AskPc} (h : AskStands j db recorded pc) (hdb : db.Extends db')
    (hmore : ∀ o, recorded = [o] → more = []) : AskStands j db' (recorded ++ more) pc := by
  cases h with
  | posted view hview => exact .posted view (hview.mono hdb hmore)
  | waiting view hview => exact .waiting view (hview.mono hdb hmore)
  | answered text hrec =>
    rw [hmore _ hrec, List.append_nil]
    exact .answered text hrec
  | failed error result hrec =>
    rw [hmore _ hrec, List.append_nil]
    exact .failed error result hrec
  | broken => exact .broken

/-- The statements that are left once the job is finished: two for the answer to the `POST`,
two for the next `GET`. -/
def AskPc.readsLeft : AskPc → Nat
  | posted _ .job => 4
  | posted _ (.reply _ _) => 3
  | waiting _ _ .job => 2
  | waiting _ _ (.reply _ _) => 1
  | ended _ => 0

theorem AskPc.readsLeft_le (pc : AskPc) : pc.readsLeft ≤ 4 := by
  rcases pc with ⟨_, _ | _⟩ | ⟨_, _, _ | _⟩ | _ <;> simp [readsLeft]

theorem AskPc.ended_of_readsLeft {pc : AskPc} (h : pc.readsLeft = 0) :
    ∃ answer, pc = .ended answer := by
  rcases pc with ⟨_, _ | _⟩ | ⟨_, _, _ | _⟩ | answer
  · cases h
  · cases h
  · cases h
  · cases h
  · exact ⟨answer, rfl⟩

/-- **Step lemma.** A statement for the command keeps where it stands in agreement
with the row, and once an outcome is recorded it uses up one of the reads that are
left. -/
theorem AskStands.step {db : Database} {j : Int} {m : Message} {recorded : List JobOutcome}
    {pc : AskPc} (hj : ValidId j) (hm : db.jobRow j = some m) (htold : Told db m recorded)
    (h : AskStands j db recorded pc) (hrunning : ∀ answer, pc ≠ .ended answer) :
    AskStands j db recorded (pc.step db) ∧
      (recorded ≠ [] → (pc.step db).readsLeft < pc.readsLeft) := by
  cases h with
  | posted view hview =>
    have hmove := hview.step hm htold
    rw [AskPc.step]
    generalize view.step db j = next at hmove
    cases hmove with
    | reply found replyId hrec hstands =>
      exact ⟨.posted _ hstands, fun _ => by simp [AskPc.readsLeft]⟩
    | view _ v htells =>
      have hcreated : AskPc.created (respond 201 (.ok v)) = .waiting j j .job := by
        rw [AskPc.created_eq (htells.id ▸ hj), htells.id]
      simp only [hcreated]
      refine ⟨.waiting _ .job, fun _ => ?_⟩
      cases view <;> simp [AskPc.readsLeft]
  | waiting view hview =>
    have hmove := hview.step hm htold
    rw [AskPc.step]
    generalize view.step db j = next at hmove
    cases hmove with
    | reply found replyId hrec hstands =>
      exact ⟨.waiting _ hstands, fun _ => by simp [AskPc.readsLeft]⟩
    | view _ v htells =>
      have hreceived : AskPc.received j (respond 200 (.ok v)) =
          AskPc.polled (AskPc.send j) (viewJson v) := by
        simp only [AskPc.received, json_respond (by decide : 200 ≤ 200 ∧ 200 < 300)]
      simp only [hreceived, AskPc.polled_viewJson]
      have hended : ∀ answer,
          (AskPc.ended answer).readsLeft < (AskPc.waiting j j view).readsLeft := by
        intro answer
        cases view <;> simp [AskPc.readsLeft]
      cases htells with
      | unfinished hid hrec hstatus =>
        have hdone : v.job.status ≠ .done := fun heq => by rw [heq] at hstatus; cases hstatus
        have hfailed : v.job.status ≠ .failed := fun heq => by rw [heq] at hstatus; cases hstatus
        rw [if_neg hdone, if_neg hfailed, AskPc.send_eq hj]
        exact ⟨.waiting _ .job, fun hne => absurd hrec hne⟩
      | done text hid hrec hstatus hreply =>
        rw [if_pos hstatus, hreply]
        exact ⟨.answered text hrec, fun _ => hended _⟩
      | failed error result hid hrec hstatus herror =>
        rw [if_neg (by rw [hstatus]; decide), if_pos hstatus, herror]
        exact ⟨.failed error result hrec, fun _ => hended _⟩
  | answered => exact absurd rfl (hrunning _)
  | failed => exact absurd rfl (hrunning _)
  | broken => exact absurd rfl (hrunning _)

theorem AskStands.read {db : Database} {j : Int} {m : Message} {recorded : List JobOutcome}
    {pc pc' : AskPc} (hj : ValidId j) (hm : db.jobRow j = some m) (htold : Told db m recorded)
    (h : AskStands j db recorded pc) (hread : AskPc.Read db pc pc') :
    AskStands j db recorded pc' ∧ (recorded ≠ [] → pc'.readsLeft < pc.readsLeft) := by
  cases hread with
  | answered hrunning => exact h.step hj hm htold hrunning
  | failed hrunning =>
    refine ⟨.broken, fun _ => ?_⟩
    show 0 < pc.readsLeft
    by_contra hle
    have hzero : pc.readsLeft = 0 := by omega
    obtain ⟨answer, hended⟩ := AskPc.ended_of_readsLeft hzero
    exact hrunning answer hended

/-- The command follows its job, so the run rule of such clients applies to it. -/
theorem ask_follows {j : Int} (hj : ValidId j) :
    Follows j AskPc.Read (AskStands j) AskPc.readsLeft where
  mono := AskStands.mono
  read := AskStands.read hj

section Run

variable {ω : Type} [DecidableEq ω] {s₀ s t : Fleet ω} {evs₀ : List (FleetEvent ω)}
  {evs : List (Option (FleetEvent ω))} {j : Int}

/-- What `ask` promises of the job `j` it posted, along the events `evs` that lead to `pc`. -/
structure Asked (j : Int) (evs : List (Option (FleetEvent ω))) (pc : AskPc) : Prop where
  answered : ∀ text, pc = .ended (.ok (.answered text)) →
    recordings j (Beside.events evs) = [.success text]
  failed : ∀ error, pc = .ended (.ok (.failed error)) →
    ∃ result, recordings j (Beside.events evs) = [.failed error result]
  /-- It fails only when a request does. -/
  error : ∀ err, pc = .ended (.error err) → err = .transport
  /-- Once an outcome is recorded, it ends with the fourth statement at the latest. -/
  prompt : ∀ xs ys, evs = xs ++ ys → recordings j (Beside.events xs) ≠ [] →
    Beside.reads ys ≤ 4 ∧ (Beside.reads ys = 4 → ∃ answer, pc = .ended answer)

/-- The id of a new row is a valid one; the counter starts at 1. -/
theorem validId_of_insert {db db' : Database} {chatId : Int} {content : String}
    (hcounter : 0 < db.nextId) (h : db.insert chatId content = (.ok j, db')) : ValidId j := by
  unfold Database.insert at h
  cases hins : db.insertMessage chatId .user content (some 1) none with
  | error e =>
    rw [hins] at h
    cases h
  | ok r =>
    obtain ⟨db₁, last⟩ := r
    obtain ⟨hlen, hchat, rfl, hmax, rfl⟩ := Database.insertMessage_ok hins
    rw [hins] at h
    simp only [Database.insertId_of_le hmax] at h
    cases h
    have hmax' : db.nextId ≤ 2147483647 := hmax
    exact ⟨by omega, by omega, by omega⟩

/-- **`jobctl ask` prints what was recorded.** In the course of any run the daemon
inserts the posted row; the run goes on while the command waits. Nothing is assumed
of the workers, nor that they ever finish. -/
theorem ask_prints_answer (hidle : s₀.Idle) (hrun₀ : Run Fleet.Step s₀ evs₀ s)
    (hcounter : 0 < s.db.nextId) {chatId : Int} {content : String} {db : Database}
    (hinsert : s.db.insert chatId content = (.ok j, db)) {pc : AskPc}
    (hrun : FollowRun AskPc.Read ({ s with db := db }, .posted j .job) evs (t, pc)) :
    Asked j evs pc := by
  have hfollows := ask_follows (validId_of_insert hcounter hinsert)
  obtain ⟨hlen, hm⟩ := insertAgentic_row hinsert
  have hinserted : Fleet.Step s (.insert chatId content (.ok j)) { s with db := db } := by
    have hstep := Fleet.Step.insert s chatId content
    rwa [hinsert] at hstep
  have hheld := hinserted.heldJobs (Fleet.heldJobs_run hrun₀ hidle.heldJobs)
  have hstart : Followed j (AskStands j) [] { s with db := db } (.posted j .job) :=
    ⟨hheld, ⟨_, hm, .unclaimed rfl ⟨rfl, rfl, rfl⟩ rfl⟩, .posted _ .job⟩
  have hend := hfollows.run hrun hstart
  rw [List.nil_append] at hend
  generalize hrec : recordings j (Beside.events evs) = recorded at hend
  refine ⟨?_, ?_, ?_, ?_⟩
  · rintro text rfl
    cases hend.stands with
    | answered _ htext => rw [hrec, htext]
  · rintro error rfl
    cases hend.stands with
    | failed _ result herror => exact ⟨result, by rw [hrec, herror]⟩
  · rintro err rfl
    cases hend.stands with
    | broken => rfl
  · intro xs ys hsplit hne
    have hreads := hfollows.reads AskPc.readsLeft_le hrun hstart hsplit hne
    exact ⟨by omega, fun h => AskPc.ended_of_readsLeft (by omega)⟩

end Run

/-- A finished job is read in two statements, and its reply is printed. -/
theorem AskPc.reads_answer {db : Database} {j replyId : Int} {found : Job} {text : String}
    (hget : db.get j = .ok (some found)) (hdone : found.status = .done)
    (hreplyId : found.replyId = some replyId) (hreply : db.reply replyId = some text) :
    AskPc.step db (.waiting j j .job) = .waiting j j (.reply found replyId) ∧
      AskPc.step db (.waiting j j (.reply found replyId)) = .ended (.ok (.answered text)) := by
  constructor
  · simp only [AskPc.step, ViewPc.step, hget, hreplyId]
  · simp only [AskPc.step, ViewPc.step, hreply, AskPc.received,
      json_respond (by decide : 200 ≤ 200 ∧ 200 < 300), AskPc.polled_viewJson, hdone, if_true,
      Option.getD_some]

/-- The answer to the `POST` tells the command which job is its own, and sends it to its
first `GET`. Nothing is recorded yet, so the row is read back in one statement. -/
theorem AskPc.posted_waits {db : Database} {j : Int} {m : Message} (hj : ValidId j)
    (hm : db.jobRow j = some m) (htold : Told db m []) :
    AskPc.Read db (.posted j .job) (.waiting j j .job) := by
  have hmove := ViewStands.job.step hm htold
  generalize hnext : ViewPc.step db j .job = next at hmove
  cases hmove with
  | reply _ _ hrec => exact absurd rfl hrec
  | view _ v htells =>
    have hvalid : ValidId v.job.id := by
      rw [htells.id]
      exact hj
    have hstep : AskPc.step db (.posted j .job) = .waiting j j .job := by
      rw [AskPc.step, hnext]
      simp only [AskPc.created_eq hvalid, htells.id]
    exact hstep ▸ .answered (.posted j .job) (by rintro _ ⟨⟩)

/-- The command posts the first message, a worker answers it, and the command prints it. -/
theorem emptyFleet_asked : ∃ (db : Database) (t : Fleet Unit)
    (evs : List (Option (FleetEvent Unit))),
    Fleet.emptyFleet.db.insert 7 "x" = (.ok 1, db) ∧ t.db.jobStatus 1 = some .done ∧
      FollowRun AskPc.Read ({ Fleet.emptyFleet with db := db }, .posted 1 .job) evs
        (t, .ended (.ok (.answered "hi"))) ∧
      recordings 1 (Beside.events evs) = [.success "hi"] ∧
      Asked 1 evs (.ended (.ok (.answered "hi"))) := by
  let s₀ : Fleet Unit := { Fleet.emptyFleet with db := (Fleet.emptyFleet.db.insert 7 "x").2 }
  let s₁ := s₀.setPc () (some .first)
  let s₂ := s₁.proceed () (.select 4)
  let s₃ := s₂.proceed () (.update 1 4)
  let s₄ := s₃.proceed () (.read 1)
  have hfleet := Run.cons (Fleet.Step.begin s₀ () rfl) <|
    Run.cons (Fleet.Step.statement s₁ () (.select 4) rfl) <|
    Run.cons (Fleet.Step.statement s₂ () (.update 1 4) rfl) <|
    Run.cons (Fleet.Step.statement s₃ () (.read 1) rfl) <|
    Run.single (Fleet.Step.finish s₄ () 1 (.success "hi") (by decide))
  have hinsert : Fleet.emptyFleet.db.insert 7 "x" = (.ok 1, s₀.db) := rfl
  obtain ⟨hlen, hm⟩ := insertAgentic_row hinsert
  have htold : Told s₀.db ⟨1, 7, .user, ⟨"x", hlen⟩, some 1, none, .new⟩ [] :=
    .unclaimed rfl ⟨rfl, rfl, rfl⟩ rfl
  have hread : AskPc.Read s₀.db (.posted 1 .job) (.waiting 1 1 .job) :=
    AskPc.posted_waits ⟨by decide, by decide, by decide⟩ hm htold
  have hposted : FollowRun AskPc.Read (s₀, .posted 1 .job) [none] (s₀, .waiting 1 1 .job) :=
    Run.single (.client hread)
  have hanswered := hposted.append (Beside.system_run (AskPc.waiting 1 1 .job) hfleet)
  -- the job is read `done`, and then its reply
  let dbDone := (s₄.db.finish 1 (.success "hi")).2
  have hdone : ∃ found, dbDone.get 1 = .ok (some found) ∧ found.status = .done ∧
      found.replyId = some 2 := ⟨_, rfl, rfl, rfl⟩
  obtain ⟨found, hget, hstatus, hreplyId⟩ := hdone
  have htext : dbDone.reply 2 = some "hi" := rfl
  obtain ⟨hjob, hreply⟩ := AskPc.reads_answer hget hstatus hreplyId htext
  have hfirst : AskPc.Read dbDone (.waiting 1 1 .job) (.waiting 1 1 (.reply found 2)) :=
    hjob ▸ .answered (.waiting 1 1 .job) (by rintro _ ⟨⟩)
  have hsecond :
      AskPc.Read dbDone (.waiting 1 1 (.reply found 2)) (.ended (.ok (.answered "hi"))) :=
    hreply ▸ .answered (.waiting 1 1 (.reply found 2)) (by rintro _ ⟨⟩)
  have hrun := hanswered.append <| Run.cons (.client hfirst) <| Run.single (.client hsecond)
  exact ⟨_, _, _, hinsert, rfl, hrun, rfl, ask_prints_answer Fleet.emptyFleet_idle
    (.nil Fleet.emptyFleet) (by decide) hinsert hrun⟩

end JobRunner.Jobctl
