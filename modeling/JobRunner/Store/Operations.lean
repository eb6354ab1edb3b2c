import JobRunner.Store.Schema

/-!
# The operations of `JobStore` (`store.rs`)

Each function below is one operation of the store on a database nobody else is
using; where operations interleave, the unit is the statement, and the systems
built on this file call the statement functions (`oldestUnclaimedId`,
`tryClaim`, `get`, …) one at a time.

An operation that writes returns its answer and the database afterwards. A
statement MySQL refuses (`DbError`) changes nothing, and a transaction that is
dropped before its `COMMIT` is rolled back.
-/

namespace JobRunner

open Keyed

/-- Why MySQL refuses a statement. -/
inductive DbError where
  /-- A value longer than its column admits (strict mode). -/
  | dataTooLong
  /-- The `AUTO_INCREMENT` counter has left the range of `INT`. -/
  | autoIncrement
  /-- The foreign key finds no chat. -/
  | noReferencedRow
  /-- The server could not be reached, or its answer was lost. -/
  | connection
deriving DecidableEq, Repr

/-- Errors produced by `JobStore`. -/
inductive StoreError where
  | database (source : DbError)
  | invalidStatus (id : Int) (source : UnknownStatus)
  | notPending (id : Int)
  | insertIdOutOfRange (raw : Nat)
deriving DecidableEq, Repr

/-- `insert_id`: MySQL's unsigned `LAST_INSERT_ID()` as a message id. -/
def insertId (raw : Nat) : Except StoreError Int :=
  if raw ≤ 9223372036854775807 then .ok raw else .error (.insertIdOutOfRange raw)

/-- Raw shape of a job row before status validation. -/
structure JobRow where
  id : Int
  chatId : Int
  content : String
  status : Option String
  payload : Option Json
  userId : Option Int
  companyId : Option Int

/-- The `is_admin` flag of `TryFrom<JobRow>`: `true` or `1`, nothing else. -/
def isAdmin (payload : Option Json) : Bool :=
  match payload.bind (·.get? "requester_is_admin") with
  | none => false
  | some v => v.asBool = some true || v.asI64 = some 1

/-- `TryFrom<JobRow> for Job`. -/
def Job.tryFrom (row : JobRow) : Except StoreError Job :=
  match JobStatus.fromDb row.status with
  | .error source => .error (.invalidStatus row.id source)
  | .ok status =>
    .ok {
      id := row.id
      chatId := row.chatId
      content := row.content
      status := status
      replyId := (row.payload.bind (·.get? "reply_id")).bind Json.asI64
      error := (row.payload.bind (·.get? "error")).bind Json.asStr
      requester :=
        match row.userId, row.companyId with
        | some userId, some companyId => some ⟨userId, companyId, isAdmin row.payload⟩
        | _, _ => none }

namespace Database

/-! ## Statements -/

/-- `INSERT INTO chat_messages (chat_id, sender, content, is_agentic, payload)`,
with the id MySQL gave the row. -/
def insertMessage (db : Database) (chatId : Int) (sender : Sender) (content : String)
    (isAgentic : Option Int) (payload : Option Json) : Except DbError (Database × Nat) :=
  if hlen : content.utf8ByteSize ≤ 65535 then
    if hchat : (db.chats.find? chatId).isSome then
      if db.nextId ≤ intMax then
        .ok (db.add ⟨db.nextId, chatId, sender, ⟨content, hlen⟩, isAgentic, payload, .new⟩
          (db.find?_of_nextId_le le_rfl) hchat, db.nextId)
      else .error .autoIncrement
    else .error .noReferencedRow
  else .error .dataTooLong

/-- The `SELECT` of `get`: a job row joined with its chat. -/
def selectJob (db : Database) (id : Int) : Option JobRow :=
  (db.jobRow id).map fun m =>
    { id := m.id
      chatId := m.chatId
      content := m.content.val
      status := m.status.toDb
      payload := m.payload
      userId := (db.chats.find? m.chatId).map Chat.userId
      companyId := (db.chats.find? m.chatId).map Chat.companyId }

/-- The row `WHERE id = ? AND status = 'pending'` selects. -/
def pendingRow (db : Database) (id : Int) : Option Message :=
  (db.messages.find? id).filter fun m => m.status = .pending

/-- The `INSERT … SELECT` of `finish_done`, with `rows_affected` and
`LAST_INSERT_ID()`. -/
def insertReply (db : Database) (id : Int) (result : String) :
    Except DbError (Database × Nat × Nat) :=
  match db.pendingRow id with
  | none => .ok (db, 0, 0)
  | some m =>
    match db.insertMessage m.chatId .ai result (some 1)
      (some (.obj [("in_reply_to", .int m.id)])) with
    | .error e => .error e
    | .ok (db', last) => .ok (db', 1, last)

/-- `JSON_SET(COALESCE(payload, JSON_OBJECT()), '$.key', v)`. -/
def setPayload (key : String) (v : Json) (payload : Option Json) : Option Json :=
  some ((payload.getD (.obj [])).set key v)

/-! ## Operations -/

/-- `JobStore::insert`. -/
def insert (db : Database) (chatId : Int) (content : String) :
    Except StoreError Int × Database :=
  match db.insertMessage chatId .user content (some 1) none with
  | .error e => (.error (.database e), db)
  | .ok (db', last) => (insertId last, db')

/-- `JobStore::get`. -/
def get (db : Database) (id : Int) : Except StoreError (Option Job) :=
  match db.selectJob id with
  | none => .ok none
  | some row => (Job.tryFrom row).map some

/-- `JobStore::reply`: the text of an `ai` message. -/
def reply (db : Database) (id : Int) : Option String :=
  ((db.messages.find? id).filter fun m => m.sender = .ai).map fun m => m.content.val

/-- `oldest_unclaimed_id`. -/
def oldestUnclaimedId (db : Database) : Option Int :=
  (db.messages.least? fun m => m.isJob && m.status = .new).map Message.id

/-- `try_claim`. -/
def tryClaim (db : Database) (id : Int) : Database × Bool :=
  let (db', affected) :=
    db.update (fun m => m.id = id && m.isJob && m.status = .new) .pending fun payload => payload
  (db', affected = 1)

/-- `finish_done`: one transaction of two statements. -/
def finishDone (db : Database) (id : Int) (result : String) :
    Except StoreError Unit × Database :=
  match db.insertReply id result with
  | .error e => (.error (.database e), db)
  | .ok (tx, affected, last) =>
    if affected ≠ 1 then (.error (.notPending id), db)
    else
      match insertId last with
      | .error e => (.error e, db)
      | .ok replyId =>
        (.ok (), (tx.update (fun m => m.id = id) .done (setPayload "reply_id" (.int replyId))).1)

/-- The `SET payload = …` of `finish_failed`, in its two variants. -/
def failurePayload (error : String) (result : Option String) (payload : Option Json) :
    Option Json :=
  match result with
  | some result => setPayload "result" (.str result) (setPayload "error" (.str error) payload)
  | none => setPayload "error" (.str error) payload

/-- `finish_failed`. -/
def finishFailed (db : Database) (id : Int) (error : String) (result : Option String) :
    Except StoreError Unit × Database :=
  let (db', affected) :=
    db.update (fun m => m.id = id && m.status = .pending) .failed (failurePayload error result)
  if affected = 1 then (.ok (), db') else (.error (.notPending id), db')

/-- `JobStore::finish`. -/
def finish (db : Database) (id : Int) : JobOutcome → Except StoreError Unit × Database
  | .success result => db.finishDone id result
  | .failed error result => db.finishFailed id error result

/-- `JobStore::requeue_pending`, with the number of rows put back. -/
def requeuePending (db : Database) : Nat × Database :=
  let (db', affected) := db.update (fun m => m.status = .pending) .new fun payload => payload
  (affected, db')

end Database

end JobRunner
