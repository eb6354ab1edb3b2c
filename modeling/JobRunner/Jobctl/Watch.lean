import JobRunner.Http.Follow
import JobRunner.Store.Frame

/-!
# `jobctl enqueue` (`jobctl`, `main.rs` and `chats.rs`)

The command inserts a message and polls its row until it is `done` or `failed`; a `done` row
takes a second read, for the reply it names. Workers claim, finish and requeue between any
two reads.

- `ChatMessage`, `message`: a row as `jobctl` reads it.
- `WatchPc`, `WatchPc.step`: `watch_row`, one read at a time.
- `watch_row_reports`: what the command reports is what was recorded for its job, and it
  ends with the second read after that.
-/

namespace JobRunner.Jobctl

open Keyed Transition

/-! ## Rows as `jobctl` reads them -/

/-- The text of the `sender` enumeration. -/
def senderText : Sender → String
  | .user => "user"
  | .ai => "ai"

/-- `Message`: a row of `chat_messages`. -/
structure ChatMessage where
  id : Int
  chatId : Int
  sender : String
  isAgentic : Bool
  status : Option String
  payload : Option Json
  content : String

namespace ChatMessage

/-- `message_from_row`; the flag is `COALESCE(is_agentic, 0) != 0`. -/
def fromRow (m : Message) : ChatMessage where
  id := m.id
  chatId := m.chatId
  sender := senderText m.sender
  isAgentic := m.isAgentic.getD 0 ≠ 0
  status := m.status.toDb
  payload := m.payload
  content := m.content.val

/-- `payload_str`. -/
def payloadStr (row : ChatMessage) (key : String) : Option String :=
  (row.payload.bind (·.get? key)).bind Json.asStr

/-- `payload_i64`. -/
def payloadI64 (row : ChatMessage) (key : String) : Option Int :=
  (row.payload.bind (·.get? key)).bind Json.asI64

end ChatMessage

/-- `message`: one row by its id. -/
def message (db : Database) (id : Int) : Option ChatMessage :=
  (db.messages.find? id).map .fromRow

/-- `insert_agentic`: the statement, and the reading of its id, are those of
`JobStore::insert`. -/
def insertAgentic (db : Database) (chatId : Int) (content : String) :
    Except StoreError Int × Database :=
  db.insert chatId content

/-! ## `watch_row` -/

inductive ExitCode where
  | success
  | failure
deriving DecidableEq, Repr

/-- The errors of `watch_row`. -/
inductive WatchError where
  | notAgentic (id : Int)
  | noReplyId
  | replyMissing (replyId : Int)
  /-- A `SELECT` that failed. -/
  | connection
deriving DecidableEq, Repr

/-- How the error is displayed; `err` is the error of the connection. -/
def WatchError.text (err : String) : WatchError → String
  | notAgentic id => "message #" ++ toString id ++ " is not an agentic user message"
  | noReplyId => "done row has no payload.reply_id"
  | replyMissing replyId => "reply #" ++ toString replyId ++ " is missing"
  | connection => err

/-- What `watch_row` shows before it returns. -/
inductive Reported where
  | answered (row reply : ChatMessage)
  | failed (row : ChatMessage) (error : String) (result : Option String)

namespace Reported

/-- The process's exit code. -/
def exitCode : Reported → ExitCode
  | answered _ _ => .success
  | failed _ _ _ => .failure

/-- What is printed to stdout; the rest goes to stderr. -/
def stdout : Reported → List String
  | answered _ reply => [reply.content]
  | failed _ _ result => result.toList

/-- The outcome a reader takes it for. -/
def outcome : Reported → JobOutcome
  | answered _ reply => .success reply.content
  | failed _ error result => .failed error result

end Reported

/-- Where `watch_row` stands: before a poll, with the statuses logged so far (`last` is the
last of them), before the read of the reply, or at its end. -/
inductive WatchPc where
  | poll (logged : List (Option String))
  | reply (logged : List (Option String)) (row : ChatMessage) (replyId : Int)
  | ended (logged : List (Option String)) (answer : Except WatchError Reported)

namespace WatchPc

/-- A status is logged when it is not the last one. -/
def log (logged : List (Option String)) (status : Option String) : List (Option String) :=
  if logged.getLast? = some status then logged else logged ++ [status]

/-- `watch_row` up to its next `SELECT`, which finds the table `db`. -/
def step (db : Database) (id : Int) : WatchPc → WatchPc
  | poll logged =>
    match (message db id).filter fun m => m.sender = "user" ∧ m.isAgentic = true with
    | none => ended logged (.error (.notAgentic id))
    | some row =>
      if row.status = some "done" then
        match row.payloadI64 "reply_id" with
        | none => ended (log logged row.status) (.error .noReplyId)
        | some replyId => reply (log logged row.status) row replyId
      else if row.status = some "failed" then
        ended (log logged row.status)
          (.ok (.failed row ((row.payloadStr "error").getD "?") (row.payloadStr "result")))
      else poll (log logged row.status)
  | reply logged row replyId =>
    match message db replyId with
    | none => ended logged (.error (.replyMissing replyId))
    | some answer => ended logged (.ok (.answered row answer))
  | ended logged answer => ended logged answer

/-- The statuses logged so far. -/
def logged : WatchPc → List (Option String)
  | poll logged | reply logged _ _ | ended logged _ => logged

end WatchPc

/-- A read of the command: it is answered, or it fails. -/
inductive WatchPc.Read (id : Int) (db : Database) : WatchPc → WatchPc → Prop where
  | answered (pc : WatchPc) (hrunning : ∀ logged answer, pc ≠ .ended logged answer) :
      Read id db pc (pc.step db id)
  | failed (pc : WatchPc) (hrunning : ∀ logged answer, pc ≠ .ended logged answer) :
      Read id db pc (.ended pc.logged (.error .connection))

theorem WatchPc.Read.of_step {id : Int} {db : Database} {pc pc' : WatchPc}
    (hrunning : ∀ logged answer, pc ≠ .ended logged answer) (h : pc.step db id = pc') :
    Read id db pc pc' :=
  h ▸ .answered pc hrunning

/-! ## The reads -/

/-- The row of a job passes the filter of `watch_row`, since every flag that the
daemon takes for a job is true for `jobctl`, too. -/
theorem message_of_jobRow {db : Database} {j : Int} {m : Message} (h : db.jobRow j = some m) :
    ((message db j).filter fun m => m.sender = "user" ∧ m.isAgentic = true) =
      some (.fromRow m) := by
  have hjob := Database.jobRow_isJob h
  have huser := Database.isJob_sender hjob
  simp only [Message.isJob, Bool.and_eq_true, decide_eq_true_eq] at hjob
  simp [message, Database.jobRow_find? h, ChatMessage.fromRow, huser, hjob.2, senderText]

/-- The reply that a job names is found by its id. -/
theorem message_of_reply {db : Database} {id : Int} {text : String}
    (h : db.reply id = some text) : ∃ row, message db id = some row ∧ row.content = text := by
  obtain ⟨m, hm, rfl⟩ := Option.map_eq_some_iff.mp h
  obtain ⟨hfind, -⟩ := Option.filter_eq_some_iff.mp hm
  exact ⟨.fromRow m, by simp [message, hfind], rfl⟩

theorem toDb_of_unfinished {status : JobStatus} (h : status.isTerminal = false) :
    status.toDb ≠ some "done" ∧ status.toDb ≠ some "failed" := by
  cases status with
  | new => exact ⟨nofun, nofun⟩
  | pending => simp [JobStatus.toDb]
  | done | failed => cases h

/-- A poll that finds the job unfinished is followed by another. -/
theorem WatchPc.step_unfinished {db : Database} {j : Int} {m : Message}
    (hm : db.jobRow j = some m) (hterm : m.status.isTerminal = false)
    (logged : List (Option String)) :
    (poll logged).step db j = poll (log logged m.status.toDb) := by
  obtain ⟨hdone, hfailed⟩ := toDb_of_unfinished hterm
  have hstatus : (ChatMessage.fromRow m).status = m.status.toDb := rfl
  simp only [step, message_of_jobRow hm, hstatus, if_neg hdone, if_neg hfailed]

/-- A poll that finds it done is followed by the read of the reply. -/
theorem WatchPc.step_done {db : Database} {j : Int} {m : Message}
    (hm : db.jobRow j = some m) (hdone : m.status = .done) {replyId : Int}
    (hreplyId : (m.payload.bind (·.get? "reply_id")).bind Json.asI64 = some replyId)
    (logged : List (Option String)) :
    (poll logged).step db j = reply (log logged (some "done")) (.fromRow m) replyId := by
  have hstatus : (ChatMessage.fromRow m).status = some "done" := congrArg JobStatus.toDb hdone
  have hid : (ChatMessage.fromRow m).payloadI64 "reply_id" = some replyId := hreplyId
  simp only [step, message_of_jobRow hm, hstatus, if_true, hid]

/-- A poll that finds it failed is the last one. -/
theorem WatchPc.step_failed {db : Database} {j : Int} {m : Message}
    (hm : db.jobRow j = some m) (hfailed : m.status = .failed) {error : String}
    {result : Option String} (herror : m.payload.bind (·.get? "error") = some (.str error))
    (hresult : m.payload.bind (·.get? "result") = result.map .str)
    (logged : List (Option String)) :
    (poll logged).step db j =
      ended (log logged (some "failed")) (.ok (.failed (.fromRow m) error result)) := by
  have hstatus : (ChatMessage.fromRow m).status = some "failed" :=
    congrArg JobStatus.toDb hfailed
  have herror' : (ChatMessage.fromRow m).payloadStr "error" = some error := by
    show (m.payload.bind (·.get? "error")).bind _ = _
    rw [herror]
    rfl
  have hresult' : (ChatMessage.fromRow m).payloadStr "result" = result := by
    show (m.payload.bind (·.get? "result")).bind _ = _
    rw [hresult]
    cases result <;> rfl
  have hne : ¬some "failed" = some "done" := by decide
  simp only [step, message_of_jobRow hm, hstatus, if_neg hne, if_true, herror', hresult',
    Option.getD_some]

/-- Where the command stands, from what is recorded for its job. -/
inductive Stands (db : Database) (recorded : List JobOutcome) : WatchPc → Prop where
  | poll (logged : List (Option String)) : Stands db recorded (.poll logged)
  | reply (logged : List (Option String)) (row : ChatMessage) (replyId : Int) (text : String)
      (hrec : recorded = [.success text]) (hreply : db.reply replyId = some text) :
      Stands db recorded (.reply logged row replyId)
  | ended (logged : List (Option String)) (report : Reported)
      (hrec : recorded = [report.outcome]) : Stands db recorded (.ended logged (.ok report))
  | failed (logged : List (Option String)) :
      Stands db recorded (.ended logged (.error .connection))

/-- More rows, and no second outcome. Where the command stands still fits, as it has
read only what stays. -/
theorem Stands.mono {db db' : Database} {recorded more : List JobOutcome} {pc : WatchPc}
    (h : Stands db recorded pc) (hdb : db.Extends db')
    (hmore : ∀ o, recorded = [o] → more = []) : Stands db' (recorded ++ more) pc := by
  cases h with
  | poll logged => exact .poll logged
  | reply logged row replyId text hrec hreply =>
    rw [hmore _ hrec, List.append_nil]
    exact .reply logged row replyId text hrec (hdb.reply hreply)
  | ended logged report hrec =>
    rw [hmore _ hrec, List.append_nil]
    exact .ended logged report hrec
  | failed logged => exact .failed logged

/-- The reads that are left once the job is finished. -/
def WatchPc.readsLeft : WatchPc → Nat
  | poll _ => 2
  | reply _ _ _ => 1
  | ended _ _ => 0

theorem WatchPc.readsLeft_le (pc : WatchPc) : pc.readsLeft ≤ 2 := by
  cases pc <;> simp [readsLeft]

theorem WatchPc.ended_of_readsLeft {pc : WatchPc} (h : pc.readsLeft = 0) :
    ∃ logged answer, pc = .ended logged answer := by
  cases pc with
  | poll | reply => cases h
  | ended logged answer => exact ⟨logged, answer, rfl⟩

/-- **What a read finds.** The cases are where the command stands and what is
recorded; once there is an outcome, each read brings the command one further. -/
theorem Stands.step {db : Database} {j : Int} {m : Message} {recorded : List JobOutcome}
    {pc : WatchPc} (hm : db.jobRow j = some m) (htold : Told db m recorded)
    (h : Stands db recorded pc) (hrunning : ∀ logged answer, pc ≠ .ended logged answer) :
    Stands db recorded (pc.step db j) ∧
      (recorded ≠ [] → (pc.step db j).readsLeft < pc.readsLeft) := by
  cases h with
  | poll logged =>
    cases htold.book with
    | unfinished hterm hclean =>
      rw [WatchPc.step_unfinished hm hterm]
      exact ⟨.poll _, fun hrec => absurd rfl hrec⟩
    | done text replyId hdone hreplyId hnoError hreply =>
      rw [WatchPc.step_done hm hdone hreplyId]
      exact ⟨.reply _ _ replyId text rfl hreply, fun _ => Nat.one_lt_two⟩
    | failed error result hfailed hnoReply herror =>
      rw [WatchPc.step_failed hm hfailed herror htold.result]
      exact ⟨.ended _ _ rfl, fun _ => Nat.zero_lt_two⟩
  | reply logged row replyId text hrec hreply =>
    obtain ⟨reply, hfound, hcontent⟩ := message_of_reply hreply
    simp only [WatchPc.step, hfound]
    refine ⟨.ended _ _ ?_, fun _ => Nat.one_pos⟩
    rw [hrec, Reported.outcome, hcontent]
  | ended logged report hrec => exact absurd rfl (hrunning _ _)
  | failed logged => exact absurd rfl (hrunning _ _)

/-! ## Any interleaving -/

theorem Stands.read {db : Database} {j : Int} {m : Message} {recorded : List JobOutcome}
    {pc pc' : WatchPc} (hm : db.jobRow j = some m) (htold : Told db m recorded)
    (h : Stands db recorded pc) (hread : WatchPc.Read j db pc pc') :
    Stands db recorded pc' ∧ (recorded ≠ [] → pc'.readsLeft < pc.readsLeft) := by
  cases hread with
  | answered hrunning => exact h.step hm htold hrunning
  | failed hrunning =>
    refine ⟨.failed _, fun _ => ?_⟩
    cases pc with
    | poll | reply => exact Nat.succ_pos _
    | ended logged answer => exact absurd rfl (hrunning _ _)

/-- The command follows its job, so the run rule of such clients applies to it. -/
theorem watch_follows (j : Int) : Follows j (WatchPc.Read j) Stands WatchPc.readsLeft where
  mono := Stands.mono
  read := Stands.read

section Run

variable {ω : Type} [DecidableEq ω] {s₀ s t : Fleet ω} {evs₀ : List (FleetEvent ω)}
  {evs : List (Option (FleetEvent ω))} {j : Int}

/-- What `watch_row` promises of the job `j` it watches, along the events `evs` that lead to
`pc`. -/
structure Reports (j : Int) (evs : List (Option (FleetEvent ω))) (pc : WatchPc) : Prop where
  /-- The outcome it reports is the one that was recorded. -/
  report : ∀ logged report, pc = .ended logged (.ok report) →
    recordings j (Beside.events evs) = [report.outcome]
  /-- It fails only with its connection. -/
  error : ∀ logged err, pc = .ended logged (.error err) → err = .connection
  /-- Once an outcome is recorded, it ends with its second read at the latest. -/
  prompt : ∀ xs ys, evs = xs ++ ys → recordings j (Beside.events xs) ≠ [] →
    Beside.reads ys ≤ 2 ∧ (Beside.reads ys = 2 → ∃ logged answer, pc = .ended logged answer)

/-- The row that `insert_agentic` adds. -/
theorem insertAgentic_row {db db' : Database} {chatId : Int} {content : String}
    (h : insertAgentic db chatId content = (.ok j, db')) :
    ∃ hlen, db'.jobRow j = some ⟨j, chatId, .user, ⟨content, hlen⟩, some 1, none, .new⟩ := by
  unfold insertAgentic Database.insert at h
  cases hins : db.insertMessage chatId .user content (some 1) none with
  | error e =>
    rw [hins] at h
    cases h
  | ok r =>
    obtain ⟨db₁, last⟩ := r
    obtain ⟨hlen, hchat, rfl, hmax, rfl⟩ := Database.insertMessage_ok hins
    rw [hins] at h
    simp only [Database.insertId_of_le hmax] at h
    cases h
    refine ⟨hlen, ?_⟩
    rw [Database.jobRow_add, if_pos rfl]
    rfl

/-- **`jobctl enqueue` reports what was recorded.** A job without an own `reply_id`, `error`
or `result` is inserted in the course of any run, as `insert_agentic` does it or by the chat
application, and is watched while the run goes on. -/
theorem watch_row_reports (hidle : s₀.Idle) (hrun₀ : Run Fleet.Step s₀ evs₀ s) {m : Message}
    (hinserted : s.db.jobRow j = some m) (hnew : m.status = .new)
    (hclean : CleanPayload m.payload) (hresult : m.payload.bind (·.get? "result") = none)
    {pc : WatchPc} (hrun : FollowRun (WatchPc.Read j) (s, .poll []) evs (t, pc)) :
    Reports j evs pc := by
  have hfollows := watch_follows j
  have hstart : Followed j Stands [] s (.poll []) :=
    ⟨Fleet.heldJobs_run hrun₀ hidle.heldJobs, ⟨m, hinserted, .unclaimed hnew hclean hresult⟩,
      .poll []⟩
  have hend := hfollows.run hrun hstart
  rw [List.nil_append] at hend
  refine ⟨?_, ?_, ?_⟩
  · rintro logged report rfl
    generalize recordings j (Beside.events evs) = recorded at hend
    cases hend.stands with
    | ended _ _ hrec => exact hrec
  · rintro logged err rfl
    cases hend.stands with
    | failed => rfl
  · intro xs ys hsplit hrec
    have hreads := hfollows.reads WatchPc.readsLeft_le hrun hstart hsplit hrec
    exact ⟨by omega, fun h => WatchPc.ended_of_readsLeft (by omega)⟩

end Run

/-- The command finds the job unclaimed, then done, and prints its reply. -/
theorem startFleet_watched : ∃ (t : Fleet Unit) (evs : List (Option (FleetEvent Unit)))
    (row reply : ChatMessage),
    FollowRun (WatchPc.Read 1) (Fleet.startFleet, .poll []) evs
      (t, .ended [none, some "done"] (.ok (.answered row reply))) ∧
      Reports 1 evs (.ended [none, some "done"] (.ok (.answered row reply))) := by
  have hrow : Fleet.startFleet.db.jobRow 1 =
      some ⟨1, 7, .user, ⟨"x", Text.sample_fits⟩, some 1, none, .new⟩ := rfl
  have hstart : Followed 1 Stands [] Fleet.startFleet (.poll []) :=
    ⟨Fleet.startFleet_fresh.toIdle.heldJobs, ⟨_, hrow, .unclaimed rfl ⟨rfl, rfl, rfl⟩ rfl⟩,
      .poll []⟩
  have hnew : WatchPc.Read 1 Fleet.startFleet.db (.poll []) (.poll [none]) :=
    .of_step (by rintro _ _ ⟨⟩) (WatchPc.step_unfinished hrow rfl [])
  have hfirst : FollowRun (WatchPc.Read 1) (Fleet.startFleet, .poll []) [none]
      (Fleet.startFleet, .poll [none]) :=
    Run.single (.client hnew)
  obtain ⟨evs, t, hfleet, hdone⟩ := Fleet.startFleet_run
  have hworked := hfirst.append (Beside.system_run (WatchPc.poll [none]) hfleet)
  obtain ⟨m, hm, htold⟩ := ((watch_follows 1).run hworked hstart).row
  have hstatus : m.status = .done := by
    rw [Database.jobStatus_of_jobRow hm, Option.some.injEq] at hdone
    exact hdone
  have hbook := htold.book
  generalize [] ++ recordings 1 _ = recorded at hbook
  cases hbook with
  | unfinished hterm =>
    rw [hstatus] at hterm
    cases hterm
  | failed _ _ hfailed =>
    rw [hstatus] at hfailed
    cases hfailed
  | done text replyId _ hreplyId _ hreply =>
    obtain ⟨reply, hfound, -⟩ := message_of_reply hreply
    have hlog : WatchPc.log [none] (some "done") = [none, some "done"] := by decide
    have hpoll : WatchPc.Read 1 t.db (.poll [none])
        (.reply [none, some "done"] (.fromRow m) replyId) :=
      .of_step (by rintro _ _ ⟨⟩) (hlog ▸ WatchPc.step_done hm hstatus hreplyId [none])
    have hread : WatchPc.Read 1 t.db (.reply [none, some "done"] (.fromRow m) replyId)
        (.ended [none, some "done"] (.ok (.answered (.fromRow m) reply))) :=
      .of_step (by rintro _ _ ⟨⟩) (by simp only [WatchPc.step, hfound])
    have hrun := (hworked.snoc (.client hpoll)).snoc (.client hread)
    exact ⟨t, _, _, _, hrun, watch_row_reports Fleet.startFleet_fresh.toIdle (.nil _)
      hrow rfl ⟨rfl, rfl, rfl⟩ rfl hrun⟩

end JobRunner.Jobctl

/-! ## Rows the runner does not know -/

namespace JobRunner

open Keyed Transition Jobctl

namespace Database

/-- A `finish` leaves every other row as it is. -/
theorem find?_finish_other {db db' : Database} {id : Int} {o : JobOutcome}
    (h : db.finish id o = (.ok (), db')) {k : Int} {m : Message}
    (hm : db.messages.find? k = some m) (hne : k ≠ id) : db'.messages.find? k = some m := by
  obtain ⟨hmem, rfl⟩ := Table.find?_eq_some_iff.mp hm
  cases o with
  | success result =>
    obtain ⟨m', hlen, hchat, hpending, -, rfl⟩ := finishDone_ok h
    obtain ⟨-, hid, -⟩ := mem_of_pendingRow hpending
    rw [find?_answered hmem, if_neg (by rwa [hid])]
  | failed error result =>
    have hpending := finish_ok_pending h
    rw [finish_failed, finishFailed_eq, if_pos hpending] at h
    cases h
    unfold rejected
    rw [find?_update_of_mem hmem, if_neg (by simp [hne])]

end Database

namespace Fleet

variable {ω : Type} [DecidableEq ω] {s t : Fleet ω}

/-- A row without a status that is no job stays as it is: no claim selects it, no
`finish` is called on it, and a requeue takes pending rows only. -/
theorem Step.find?_other {e : FleetEvent ω} (h : Step s e t) (hheld : s.HeldJobs) {k : Int}
    {m : Message} (hm : s.db.messages.find? k = some m) (hjob : m.isJob = false)
    (hnew : m.status = .new) : t.db.messages.find? k = some m := by
  have hadd : ∀ (r : Message) (hr : s.db.messages.find? r.id = none)
      (hchat : (s.db.chats.find? r.chatId).isSome),
      (s.db.add r hr hchat).messages.find? k = some m := by
    intro r hr hchat
    rw [Database.find?_add, if_neg, hm]
    rintro rfl
    rw [hm] at hr
    cases hr
  obtain ⟨hmem, hkey⟩ := Table.find?_eq_some_iff.mp hm
  have heffect := h.tableEffect
  generalize t.db = db at heffect
  cases heffect with
  | stay | reserve => exact hm
  | insert _ _ r hr hchat => exact hadd r hr hchat
  | post r hr hchat => exact hadd r hr hchat
  | claim w id =>
    show (s.db.update _ _ _).1.messages.find? k = _
    rw [← hkey, Database.find?_update_of_mem hmem, if_neg (by simp [hjob])]
  | finish w id outcome db hheld' hfin =>
    refine Database.find?_finish_other hfin hm ?_
    rintro rfl
    refine hheld w k hheld' ?_
    simp [Database.jobStatus, Database.jobRow, hm, hjob]
  | requeue =>
    show (s.db.update _ _ _).1.messages.find? k = _
    rw [← hkey, Database.find?_update_of_mem hmem, if_neg (by simp [hnew])]

end Fleet

end JobRunner

namespace JobRunner.Jobctl

open Keyed Transition

variable {ω : Type} [DecidableEq ω] {s₀ s t : Fleet ω} {evs₀ : List (FleetEvent ω)}
  {evs : List (Option (FleetEvent ω))} {j : Int}

/-- A user message whose flag is neither `NULL` nor 0 nor 1: `watch_row` takes it for
agentic, and the runner does not. -/
structure OddFlag (m : Message) : Prop where
  sender : m.sender = .user
  flag : ∃ n, m.isAgentic = some n ∧ n ≠ 0 ∧ n ≠ 1

theorem OddFlag.isJob {m : Message} (h : OddFlag m) : m.isJob = false := by
  obtain ⟨n, hn, -, hone⟩ := h.flag
  simp [Message.isJob, hn, hone]

theorem OddFlag.message {m : Message} (h : OddFlag m) {db : Database}
    (hm : db.messages.find? j = some m) :
    ((message db j).filter fun m => m.sender = "user" ∧ m.isAgentic = true) =
      some (.fromRow m) := by
  obtain ⟨n, hn, hzero, -⟩ := h.flag
  simp [Jobctl.message, hm, ChatMessage.fromRow, h.sender, hn, hzero, senderText]

/-- **A flag only `jobctl` knows.** The row of such a message never changes, and a command
that watches it goes on until its connection fails. -/
theorem odd_flag_never_reported (hidle : s₀.Idle) (hrun₀ : Run Fleet.Step s₀ evs₀ s)
    {m : Message} (hm : s.db.messages.find? j = some m) (hodd : OddFlag m)
    (hnew : m.status = .new) {pc : WatchPc}
    (hrun : FollowRun (WatchPc.Read j) (s, .poll []) evs (t, pc)) :
    t.db.messages.find? j = some m ∧
      (pc = .ended pc.logged (.error .connection) ∨ ∃ logged, pc = .poll logged) := by
  suffices t.HeldJobs ∧ t.db.messages.find? j = some m ∧
      (pc = .ended pc.logged (.error .connection) ∨ ∃ logged, pc = .poll logged) from this.2
  have hheld := Fleet.heldJobs_run hrun₀ hidle.heldJobs
  refine Beside.invariant (I := fun _ s pc => s.HeldJobs ∧ s.db.messages.find? j = some m ∧
    (pc = .ended pc.logged (.error .connection) ∨ ∃ logged, pc = .poll logged)) hrun
    ⟨hheld, hm, .inr ⟨[], rfl⟩⟩ ?_ ?_
  · rintro evs s e t pc ⟨hheld, hm, hpc⟩ hstep
    exact ⟨hstep.heldJobs hheld, hstep.find?_other hheld hm hodd.isJob hnew, hpc⟩
  · rintro evs s pc pc' ⟨hheld, hm, hpc⟩ hread
    refine ⟨hheld, hm, ?_⟩
    cases hread with
    | failed => exact .inl rfl
    | answered hrunning =>
      rcases hpc with hended | ⟨logged, rfl⟩
      · exact absurd hended (hrunning _ _)
      · have hstatus : (ChatMessage.fromRow m).status = none := congrArg JobStatus.toDb hnew
        refine .inr ⟨WatchPc.log logged none, ?_⟩
        simp only [WatchPc.step, hodd.message hm, hstatus, reduceCtorEq, if_false]

/-- A message with the flag 2. -/
def oddMessage : Message := ⟨1, 7, .user, ⟨"x", Text.sample_fits⟩, some 2, none, .new⟩

theorem oddMessage_chat : (⟨7, 1, 1⟩ : Chat).id = oddMessage.chatId := rfl

/-- The message in a table of its own. -/
def oddFleet : Fleet Unit :=
  ⟨.single ⟨7, 1, 1⟩ oddMessage oddMessage_chat, fun _ => none, fun _ => []⟩

/-- The recovery of a crash does not help the command either. -/
theorem oddFleet_never_reported : ∃ t : Fleet Unit,
    FollowRun (WatchPc.Read 1) (oddFleet, .poll []) [none, some .requeue] (t, .poll [none]) ∧
      t.db.messages.find? 1 =
        some ⟨1, 7, .user, ⟨"x", Text.sample_fits⟩, some 2, none, .new⟩ := by
  have hodd : OddFlag ⟨1, 7, .user, ⟨"x", Text.sample_fits⟩, some 2, none, .new⟩ :=
    ⟨rfl, 2, rfl, by decide, by decide⟩
  have hpoll : WatchPc.Read 1 oddFleet.db (.poll []) (.poll [none]) := by
    refine .of_step (by rintro _ _ ⟨⟩) ?_
    have hrow : oddFleet.db.messages.find? 1 =
        some ⟨1, 7, .user, ⟨"x", Text.sample_fits⟩, some 2, none, .new⟩ := rfl
    simp only [WatchPc.step, hodd.message hrow]
    rfl
  have hrun : FollowRun (WatchPc.Read 1) (oddFleet, .poll []) [none, some .requeue]
      (_, .poll [none]) :=
    (Run.single (.client hpoll)).snoc (.system _ (.requeue oddFleet))
  exact ⟨_, hrun, (odd_flag_never_reported ⟨fun _ => rfl, fun _ => rfl⟩ (.nil _) rfl hodd rfl
    hrun).1⟩

end JobRunner.Jobctl
