import JobRunner.Claude.Access
import JobRunner.Jobctl.Customers
import JobRunner.Jobctl.EnvFile
import JobRunner.Jobctl.Retrieve
import JobRunner.Store.Overtaking

/-!
# Jobs for a user (`jobctl enqueue --user`, `main.rs` and `chats.rs`)

Without a chat, the command creates one for a user, in that user's company, and puts the
message there. Whoever claims the message later runs it for the owner of the chat.

- `createChat`, `chatTitle`, `textOrStdin`: the code, up to `insertAgentic`.
- `createChat_ok`: the chat that is created.
- `PostedAs`, `Step.postedAs`: what a job keeps, whatever is recorded for it.
- `enqueued_acts_for_user`: from the command line to the session of `jobctl-mcp`.
-/

open Text

namespace JobRunner

open Keyed Transition

namespace Database

/-- A chat with a fresh id. -/
def addChat (db : Database) (chat : Chat) (hid : db.chats.find? chat.id = none) : Database where
  chats := db.chats.insert chat hid
  messages := db.messages
  nextId := db.nextId
  chatExists m hm := by
    rw [Table.find?_insert]
    split
    · rfl
    · exact db.chatExists m hm
  idsBelow := db.idsBelow

/-- `INSERT INTO chats (user_id, company_id, title)`; `next` is the id that MySQL gives the row. -/
def insertChat (db : Database) (userId companyId : Int) (title : String) (next : Nat)
    (hnext : db.chats.find? (next : Int) = none) : Except DbError (Database × Nat) :=
  if title.length ≤ 200 then
    if next ≤ intMax then .ok (db.addChat ⟨next, userId, companyId⟩ hnext, next)
    else .error .autoIncrement
  else .error .dataTooLong

end Database

namespace Jobctl

/-! ## The command -/

/-- `text_or_stdin`; the error of the other branch is that of the read. -/
def textOrStdin (words : List String) (stdin : Except String String) : Except String String :=
  match if words = [] then stdin else .ok (" ".intercalate words) with
  | .error err => .error err
  | .ok text => if trim text = "" then .error "input is empty" else .ok text

/-- A prompt is not blank. -/
theorem textOrStdin_ok {words : List String} {stdin : Except String String} {prompt : String}
    (h : textOrStdin words stdin = .ok prompt) : trim prompt ≠ "" := by
  unfold textOrStdin at h
  split at h
  · cases h
  · split at h
    · cases h
    · cases h
      assumption

/-- The title of a chat for a prompt: its first line. -/
def chatTitle (prompt : String) : String := (Db.lines (trim prompt)).head?.getD ""

/-- `insert_id`. -/
def insertId (raw : Nat) : Except ToolError Int :=
  if raw ≤ 9223372036854775807 then .ok raw
  else .error (.config ("insert id " ++ toString raw ++ " is out of range"))

/-- `create_chat`; `users` is what the `SELECT` has read, and `sqlError` the error of a
statement as the driver reports it. -/
def createChat (sqlError : DbError → SqlError) (users : Except SqlError (List User))
    (db : Database) (userId : Int) (title : String) (next : Nat)
    (hnext : db.chats.find? (next : Int) = none) : Except ToolError Int × Database :=
  match users with
  | .error err => (.error (.database err), db)
  | .ok users =>
    match users.find? (·.id = userId) with
    | none => (.error (.notFound ("user " ++ toString userId ++ " does not exist")), db)
    | some user =>
      let title := String.ofList (title.toList.take 200)
      match db.insertChat userId user.companyId title next hnext with
      | .error err => (.error (.database (sqlError err)), db)
      | .ok (db', last) => (insertId last, db')

/-- A chat is created for a user that exists, whatever the title; it is in the
user's company. So the requester of a job is settled before its message is written. -/
theorem createChat_ok {sqlError : DbError → SqlError} {users : Except SqlError (List User)}
    {db db' : Database} {userId chatId : Int} {title : String} {next : Nat}
    {hnext : db.chats.find? (next : Int) = none}
    (h : createChat sqlError users db userId title next hnext = (.ok chatId, db')) :
    ∃ rows user, users = .ok rows ∧ rows.find? (·.id = userId) = some user ∧ chatId = next ∧
      db' = db.addChat ⟨next, userId, user.companyId⟩ hnext := by
  unfold createChat at h
  cases users with
  | error err => cases h
  | ok rows =>
    cases hfind : rows.find? (·.id = userId) with
    | none =>
      simp only [hfind] at h
      cases h
    | some user =>
      have hfits : (String.ofList (title.toList.take 200)).length ≤ 200 := by simp
      simp only [hfind, Database.insertChat, if_pos hfits] at h
      by_cases hmax : next ≤ intMax
      · have hlast : insertId next = .ok (next : Int) := by
          unfold insertId intMax at *
          rw [if_pos (by omega)]
        simp only [if_pos hmax, hlast] at h
        cases h
        exact ⟨rows, user, rfl, hfind, rfl, rfl⟩
      · simp only [if_neg hmax] at h
        cases h

end Jobctl

/-! ## What a job keeps -/

/-- Job `id` is in this chat, asks this, and its payload makes nobody an admin. -/
def PostedAs (db : Database) (id chatId : Int) (content : String) : Prop :=
  ∃ m, db.jobRow id = some m ∧ m.chatId = chatId ∧ m.content.val = content ∧
    m.payload.bind (·.get? "requester_is_admin") = none

/-- A job as `get` returns it. -/
theorem PostedAs.get {db : Database} {id chatId : Int} {content : String} {chat : Chat}
    (h : PostedAs db id chatId content) (hchat : db.chats.find? chatId = some chat) :
    ∃ job, db.get id = .ok (some job) ∧ job.id = id ∧ job.chatId = chatId ∧
      job.content = content ∧ job.requester = some ⟨chat.userId, chat.companyId, false⟩ := by
  obtain ⟨m, hm, rfl, rfl, hflag⟩ := h
  have hadmin : isAdmin m.payload = false := by
    rw [isAdmin, hflag]
  refine ⟨db.toJob m, by rw [Database.get_eq, hm, Option.map_some], Database.jobRow_id hm, rfl,
    rfl, ?_⟩
  rw [Database.toJob, hchat, Option.map_some, hadmin]

namespace Fleet

variable {ω : Type} [DecidableEq ω] {s t : Fleet ω} {evs : List (FleetEvent ω)} {j chatId : Int}
  {content : String}

/-- **Step lemma.** A step changes of the row of a job only the status, and members of the
payload that are about its outcome. -/
theorem Step.postedAs {e : FleetEvent ω} (h : Step s e t) (hheld : s.HeldJobs)
    (hposted : PostedAs s.db j chatId content) : PostedAs t.db j chatId content := by
  obtain ⟨m, hm, hchat, hcontent, hflag⟩ := hposted
  obtain ⟨m', hm', hmove⟩ := h.rowMove hheld hm
  refine ⟨m', hm', ?_⟩
  cases hmove with
  | stay | claim | requeue => exact ⟨hchat, hcontent, hflag⟩
  | finish o =>
    refine ⟨hchat, hcontent, ?_⟩
    show (s.db.outcomePayload o m.payload).bind _ = _
    rw [Database.outcomePayload_get_other _ o _ (by decide) (by decide) (by decide), hflag]

theorem postedAs_run (hrun : Run Step s evs t) (hheld : s.HeldJobs)
    (hposted : PostedAs s.db j chatId content) : PostedAs t.db j chatId content :=
  (hrun.stateInvariant (I := fun u => u.HeldJobs ∧ PostedAs u.db j chatId content)
    ⟨hheld, hposted⟩ fun hu hstep => ⟨hstep.heldJobs hu.1, hstep.postedAs hu.1 hu.2⟩).2

end Fleet

/-! ## From the command to the session -/

namespace Jobctl

variable {ω : Type} [DecidableEq ω] {s₀ s s₁ t : Fleet ω} {evs₀ evs₁ evs : List (FleetEvent ω)}

/-- **A job enqueued for a user acts for that user.** The command creates the chat in the
course of any run, the system goes on, the command inserts the message, and the system goes on:

- whoever reads the job gets the prompt, which is not blank, and the user, in the user's company
  and not an admin, as its requester; in particular the worker whose claim has won;
- the `jobctl-mcp` of the job, whatever the configuration, the access and the inherited
  environment are, has no other session than one of that user, and runs no admin's tool. -/
theorem enqueued_acts_for_user (hidle : s₀.Idle) (hrun₀ : Run Fleet.Step s₀ evs₀ s)
    {sqlError : DbError → SqlError} {users : Except SqlError (List User)} {userId chatId : Int}
    {words : List String} {stdin : Except String String} {prompt : String}
    (hprompt : textOrStdin words stdin = .ok prompt) {next : Nat}
    {hnext : s.db.chats.find? (next : Int) = none} {db : Database}
    (hcreate : createChat sqlError users s.db userId (chatTitle prompt) next hnext =
      (.ok chatId, db))
    (hrun₁ : Run Fleet.Step { s with db := db } evs₁ s₁) {id : Int} {db₁ : Database}
    (hinsert : insertAgentic s₁.db chatId prompt = (.ok id, db₁))
    (hrun : Run Fleet.Step { s₁ with db := db₁ } evs t) :
    ∃ rows user job, users = .ok rows ∧ rows.find? (·.id = userId) = some user ∧
      t.db.get id = .ok (some job) ∧ job.id = id ∧ job.chatId = chatId ∧ job.content = prompt ∧
      trim prompt ≠ "" ∧ job.requester = some ⟨userId, user.companyId, false⟩ ∧
      (∀ w, t.pc w = some (.read id) →
        ((ClaimPc.read id).step t.db).2 = .returned (.ok (some job))) ∧
      ∀ client cfg workspace access inherited,
        (∀ session, jobSession client cfg workspace job.requester access inherited =
          some session → session.scope = ⟨user.companyId, userId, false⟩) ∧
        ∀ connection name session tool,
          Server.call (jobSession client cfg workspace job.requester access inherited) connection
            name = some (.ok (.tool session tool)) → tool.adminOnly = false := by
  obtain ⟨rows, user, rfl, hfind, rfl, rfl⟩ := createChat_ok hcreate
  -- a chat is no job, so the workers hold jobs still
  have hheld : s.HeldJobs := Fleet.heldJobs_run hrun₀ hidle.heldJobs
  have hheld₁ : s₁.HeldJobs := Fleet.heldJobs_run hrun₁ hheld
  have hinserted : Fleet.Step s₁ (.insert next prompt (.ok id)) { s₁ with db := db₁ } := by
    have hstep := Fleet.Step.insert s₁ next prompt
    rwa [show s₁.db.insert next prompt = _ from hinsert] at hstep
  obtain ⟨hlen, hrow⟩ := insertAgentic_row hinsert
  have hposted : PostedAs t.db id next prompt :=
    Fleet.postedAs_run hrun (hinserted.heldJobs hheld₁) ⟨_, hrow, rfl, rfl, rfl⟩
  have hchat : t.db.chats.find? (next : Int) = some ⟨next, userId, user.companyId⟩ := by
    rw [Fleet.chats_run hrun, hinserted.chats, Fleet.chats_run hrun₁]
    exact (Table.find?_insert s.db.chats ⟨next, userId, user.companyId⟩ hnext next).trans
      (if_pos rfl)
  obtain ⟨job, hget, hid, hjobChat, hcontent, hrequester⟩ := hposted.get hchat
  refine ⟨rows, user, job, rfl, hfind, hget, hid, hjobChat, hcontent,
    textOrStdin_ok hprompt, hrequester, ?_, ?_⟩
  · intro w _
    rw [ClaimPc.step_read, hget]
  · intro client cfg workspace access inherited
    have hscope : ∀ session, jobSession client cfg workspace job.requester access inherited =
        some session → session.scope = ⟨user.companyId, userId, false⟩ := by
      intro session hsession
      obtain ⟨r, hr, hscope⟩ := jobSession_scope hsession
      rw [hrequester] at hr
      cases hr
      exact hscope
    refine ⟨hscope, fun connection name session tool hcall => ?_⟩
    obtain ⟨hsession, hauth⟩ := Server.call_runs hcall
    rw [hscope session hsession] at hauth
    simpa using hauth

/-- The user of the sample command. -/
def ann : User := ⟨3, 4, some "Ann"⟩

/-- A worker has claimed the job and is about to read it. -/
theorem ann_enqueued : ∃ (t : Fleet Unit) (job : Job), t.pc () = some (.read 1) ∧
    t.db.get 1 = .ok (some job) ∧ job.requester = some ⟨3, 4, false⟩ := by
  let db := Fleet.emptyFleet.db.addChat ⟨8, 3, 4⟩ rfl
  let s : Fleet Unit := { Fleet.emptyFleet with db := db }
  let s₀ : Fleet Unit := { s with db := (db.insert 8 "x").2 }
  let s₁ := s₀.setPc () (some .first)
  let s₂ := s₁.proceed () (.select 4)
  let s₃ := s₂.proceed () (.update 1 4)
  have hrun := Run.cons (Fleet.Step.begin s₀ () rfl) <|
    Run.cons (Fleet.Step.statement s₁ () (.select 4) rfl) <|
    Run.single (Fleet.Step.statement s₂ () (.update 1 4) rfl)
  have hcreate : createChat (fun _ => .other "") (.ok [ann]) Fleet.emptyFleet.db 3
      (chatTitle "x") 8 rfl = (.ok 8, db) := by
    rfl
  obtain ⟨rows, user, job, hrows, hfind, hget, -, -, -, -, hrequester, -⟩ :=
    enqueued_acts_for_user Fleet.emptyFleet_idle (.nil _)
      (show textOrStdin ["x"] (.ok "") = .ok "x" by decide +kernel) hcreate (.nil s)
      (show insertAgentic db 8 "x" = (.ok 1, _) from rfl) hrun
  cases hrows
  cases hfind
  exact ⟨s₃, job, rfl, hget, hrequester⟩

end Jobctl

end JobRunner
