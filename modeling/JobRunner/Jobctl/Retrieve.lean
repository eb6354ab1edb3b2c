import Mathlib.Data.List.Flatten
import JobRunner.Jobctl.Args
import JobRunner.Jobctl.Watch
import JobRunner.Lib.Decimal

/-!
# What a chat shows (`jobctl retrieve`, `main.rs` and `chats.rs`)

The command reads a chat, and then its messages by their ids, while workers claim, finish and
requeue.

- `retrieveArgs`, `messages`, `retrieve`: the arguments and the two reads.
- `Retrieved.shown`: what is printed.
- `Step.written`, `Step.answer_cases`: rows stay as they were written, and which are new.
- `Transcribed`, `Step.transcribed`: questions and answers along a run.
- `retrieve_along`: a chat only grows, and an answer stands below its question.
-/

open Text Decimal

namespace JobRunner.Jobctl

open Keyed Transition

/-! ## The command -/

/-- `parse_num`, for an `i64`; `debug` is the `Debug` form of a text. -/
def parseNum (debug : String → String) (name raw : String) : Except String Int :=
  match parseI64 (trim raw) with
  | some n => .ok n
  | none => .error (name ++ " must be a number, got " ++ debug raw)

/-- `cmd_retrieve` up to its connection: the chat, and whether JSON is asked for. -/
def retrieveArgs (debug : String → String) (raw : List String) : Except String (Int × Bool) :=
  match Args.parse raw retrieveOpts.valueOpts retrieveOpts.flagOpts with
  | .error err => .error err
  | .ok args =>
    match args.positional with
    | [chatId] => (parseNum debug "CHAT" chatId).map fun chatId => (chatId, args.flag "--json")
    | _ => .error "usage: jobctl retrieve [--json] CHAT"

/-- A command line with one positional argument, the id of a chat as it is printed, asks for
that chat, and for JSON if it has the flag, wherever that stands. -/
theorem retrieveArgs_render (debug : String → String) {line : CommandLine retrieveOpts} {id : Int}
    (hchat : line.positional = [toString id]) (hrange : Machine.InRange id) :
    retrieveArgs debug line.render = .ok (id, line.hasFlag "--json") := by
  obtain ⟨args, hargs, hdenotes⟩ := parse_render line
  have hpositional : args.positional = [toString id] := hdenotes.positional.trans hchat
  have hnum : parseNum debug "CHAT" (toString id) = .ok id := by
    rw [parseNum, trim_toString, parseI64_toString_eq, checked_of_inRange hrange]
  rw [retrieveArgs, hargs]
  simp only [hpositional, hnum, hdenotes.flags]
  rfl

/-- `messages`: those of a chat, oldest first. -/
def messages (db : Database) (chatId : Int) : List ChatMessage :=
  (db.messages.ordered fun m => m.chatId = chatId).map .fromRow

/-- What `cmd_retrieve` has read. -/
structure Retrieved where
  chat : Chat
  messages : List ChatMessage

/-- The two reads of `cmd_retrieve`, which find the tables `db₁` and `db₂`. -/
def retrieve (db₁ db₂ : Database) (chatId : Int) : Except String Retrieved :=
  match db₁.chats.find? chatId with
  | none => .error ("chat " ++ toString chatId ++ " does not exist")
  | some chat => .ok ⟨chat, messages db₂ chatId⟩

/-- The columns that the tables here do not have, and how a document is printed. -/
structure ChatTexts where
  title : String
  chatCreated : String
  created : Int → String
  print : Json → String

/-- `to_json`; `json!` sorts the members. -/
def ChatMessage.toJson (created : String) (row : ChatMessage) : Json :=
  .obj [("chat_id", .int row.chatId), ("content", .str row.content),
    ("created_at", .str created), ("id", .int row.id), ("is_agentic", .bool row.isAgentic),
    ("payload", row.payload.getD .null), ("sender", .str row.sender),
    ("status", .ofOption row.status)]

/-- The line above a message. -/
def ChatMessage.header (created : String) (row : ChatMessage) : String :=
  let head := "#" ++ toString row.id ++ " " ++ row.sender ++ "  " ++ created
  if row.sender = "user" ∧ row.isAgentic = true then
    head ++ "  [status " ++ row.status.getD "NULL" ++ "]" ++
      (row.payloadStr "error").elim "" fun error => "  error: " ++ error
  else head

/-- A line to stdout, or to stderr. -/
inductive Printed where
  | out (line : String)
  | log (line : String)
deriving DecidableEq, Repr

def Printed.out? : Printed → Option String
  | out line => some line
  | log _ => none

/-- What `cmd_retrieve` prints. -/
def Retrieved.shown (texts : ChatTexts) (json : Bool) (r : Retrieved) : List Printed :=
  if json then r.messages.map fun m => .out (texts.print (m.toJson (texts.created m.id)))
  else
    .log ("chat " ++ toString r.chat.id ++ " (user " ++ toString r.chat.userId ++ ", " ++
        texts.chatCreated ++ "): " ++ texts.title) ::
      r.messages.flatMap (fun m =>
        [.out "", .log (m.header (texts.created m.id)), .out m.content]) ++
      if r.messages.isEmpty then [.log "(no messages)"] else []

end JobRunner.Jobctl

/-! ## What stays of a row -/

namespace JobRunner

open Keyed Transition

/-- A message without what an `UPDATE` assigns. -/
def Message.written (m : Message) : Message := { m with payload := none, status := .new }

/-- Messages that were written alike. -/
theorem Message.of_written {m m' : Message} (h : m'.written = m.written) :
    m'.id = m.id ∧ m'.chatId = m.chatId ∧ m'.sender = m.sender ∧ m'.content = m.content :=
  ⟨congrArg (·.id) h, congrArg (·.chatId) h, congrArg (·.sender) h, congrArg (·.content) h⟩

namespace Database

theorem written_update (db : Database) (p : Message → Bool) (status : JobStatus)
    (payload : Option Json → Option Json) {r : Message} (hr : r ∈ db.messages.rows) :
    ∃ r' ∈ (db.update p status payload).1.messages.rows, r'.written = r.written := by
  rw [update_rows]
  refine ⟨_, List.mem_map_of_mem hr, ?_⟩
  split <;> rfl

theorem written_of_update {db : Database} {p : Message → Bool} {status : JobStatus}
    {payload : Option Json → Option Json} {r : Message}
    (hr : r ∈ (db.update p status payload).1.messages.rows) :
    ∃ r₀ ∈ db.messages.rows, r₀.written = r.written := by
  rw [update_rows] at hr
  obtain ⟨r₀, hr₀, rfl⟩ := List.mem_map.mp hr
  refine ⟨r₀, hr₀, ?_⟩
  split <;> rfl

theorem written_add (db : Database) (m : Message) (hid : db.messages.find? m.id = none)
    (hchat : (db.chats.find? m.chatId).isSome) {r : Message} (hr : r ∈ db.messages.rows) :
    ∃ r' ∈ (db.add m hid hchat).messages.rows, r'.written = r.written :=
  ⟨r, List.mem_append_left _ hr, rfl⟩

/-- The rows after an answer are the old ones, as they were written, and the reply. -/
theorem written_answered {db : Database} {m : Message} (text : Text)
    (hchat : (db.chats.find? m.chatId).isSome) :
    (∀ r ∈ db.messages.rows, ∃ r' ∈ (db.answered m text hchat).messages.rows,
      r'.written = r.written) ∧
    (∃ r ∈ (db.answered m text hchat).messages.rows, r.written = (db.replyRow m text).written) ∧
    ∀ r ∈ (db.answered m text hchat).messages.rows,
      (∃ r₀ ∈ db.messages.rows, r₀.written = r.written) ∨
        r.written = (db.replyRow m text).written := by
  have hrows : (db.add (db.replyRow m text) (db.find?_of_nextId_le le_rfl) hchat).messages.rows =
      db.messages.rows ++ [db.replyRow m text] := add_rows ..
  refine ⟨fun r hr => ?_, ?_, fun r hr => ?_⟩
  · exact written_update _ _ _ _ (by rw [hrows]; exact List.mem_append_left _ hr)
  · exact written_update _ _ _ _ (by rw [hrows]; exact List.mem_append_right _ (by simp))
  · obtain ⟨r₁, hr₁, heq⟩ := written_of_update hr
    rw [hrows, List.mem_append, List.mem_singleton] at hr₁
    rcases hr₁ with hr₁ | rfl
    · exact .inl ⟨r₁, hr₁, heq⟩
    · exact .inr heq.symm

end Database

namespace Fleet

variable {ω : Type} [DecidableEq ω] {s t : Fleet ω} {evs : List (FleetEvent ω)}

/-- No step changes a chat, so the header that `retrieve` prints is the same in
every run. -/
theorem Step.chats {e : FleetEvent ω} (h : Step s e t) : t.db.chats = s.db.chats := by
  have heffect := h.tableEffect
  generalize t.db = db at heffect
  cases heffect with
  | stay | reserve | insert | post | claim | requeue => rfl
  | finish w id outcome db hmem hfin =>
    cases outcome with
    | success result =>
      obtain ⟨m, hlen, hchat, -, -, rfl⟩ := Database.finishDone_ok hfin
      rfl
    | failed error result =>
      have hpending := Database.finish_ok_pending hfin
      rw [Database.finish_failed, Database.finishFailed_eq, if_pos hpending] at hfin
      cases hfin
      rfl

theorem chats_run (hrun : Run Step s evs t) : t.db.chats = s.db.chats :=
  hrun.stateInvariant (I := fun u => u.db.chats = s.db.chats) rfl
    fun hu hstep => hstep.chats.trans hu

/-- Every message stays, as it was written: its text, its sender and its chat are
assigned by no `UPDATE`. -/
theorem Step.written {e : FleetEvent ω} (h : Step s e t) {r : Message}
    (hr : r ∈ s.db.messages.rows) : ∃ r' ∈ t.db.messages.rows, r'.written = r.written := by
  have heffect := h.tableEffect
  generalize t.db = db at heffect
  cases heffect with
  | stay | reserve => exact ⟨r, hr, rfl⟩
  | insert _ _ m hid hchat => exact Database.written_add _ m hid hchat hr
  | post m hid hchat => exact Database.written_add _ m hid hchat hr
  | claim | requeue => exact Database.written_update _ _ _ _ hr
  | finish w id outcome db hmem hfin =>
    cases outcome with
    | success result =>
      obtain ⟨m, hlen, hchat, -, -, rfl⟩ := Database.finishDone_ok hfin
      exact (Database.written_answered _ hchat).1 r hr
    | failed error result =>
      have hpending := Database.finish_ok_pending hfin
      rw [Database.finish_failed, Database.finishFailed_eq, if_pos hpending] at hfin
      cases hfin
      exact Database.written_update _ _ _ _ hr

theorem written_run (hrun : Run Step s evs t) {r : Message} (hr : r ∈ s.db.messages.rows) :
    ∃ r' ∈ t.db.messages.rows, r'.written = r.written :=
  hrun.stateInvariant (I := fun u => ∃ r' ∈ u.db.messages.rows, r'.written = r.written)
    ⟨r, hr, rfl⟩ fun hu hstep => by
      obtain ⟨r₁, hr₁, heq₁⟩ := hu
      obtain ⟨r₂, hr₂, heq₂⟩ := hstep.written hr₁
      exact ⟨r₂, hr₂, heq₂.trans heq₁⟩

end Fleet

/-! ## Questions and answers -/

/-- A worker has recorded `r` as the answer of `m`: it is in the same chat, below it. -/
structure Answers {ω : Type} (evs : List (FleetEvent ω)) (m r : Message) : Prop where
  sender : r.sender = .ai
  chat : r.chatId = m.chatId
  below : m.id < r.id
  recorded : ∃ w, .finish w m.id (.success r.content.val) (.ok ()) ∈ evs

theorem Answers.mono {ω : Type} {evs : List (FleetEvent ω)} {m r r' : Message}
    (h : Answers evs m r) (e : FleetEvent ω) (hwritten : r'.written = r.written) :
    Answers (evs ++ [e]) m r' := by
  obtain ⟨hid, hchat, hsender, hcontent⟩ := Message.of_written hwritten
  obtain ⟨w, hw⟩ := h.recorded
  exact ⟨hsender.trans h.sender, hchat.trans h.chat, hid ▸ h.below,
    w, by rw [hcontent]; exact List.mem_append_left _ hw⟩

/-- What the messages say about each other, in a state that the events `evs` have led to from
the table `db₀`. -/
structure Transcribed {ω : Type} (db₀ : Database) (evs : List (FleetEvent ω)) (db : Database) :
    Prop where
  answer : ∀ r ∈ db.messages.rows, r.sender = .ai → db₀.messages.find? r.id = none →
    ∃ m, db.jobRow m.id = some m ∧ m.status = .done ∧ Answers evs m r
  question : ∀ m, db.jobRow m.id = some m → m.status = .done →
    db₀.jobStatus m.id = some .done ∨ ∃ r ∈ db.messages.rows, Answers evs m r

theorem Transcribed.nil {ω : Type} (db : Database) :
    Transcribed db ([] : List (FleetEvent ω)) db where
  answer r hr _ hnew :=
    absurd rfl (Table.find?_eq_none_iff.mp hnew r hr)
  question m hm hdone := .inl (by rw [Database.jobStatus_of_jobRow hm, hdone])

namespace Fleet

variable {ω : Type} [DecidableEq ω] {s t : Fleet ω} {evs : List (FleetEvent ω)}

/-- A `finish` that records an answer: the job, and its answer. -/
theorem Step.answers_new {w : ω} {id : Int} {text : String}
    (h : Step s (.finish w id (.success text) (.ok ())) t) (hheld : s.HeldJobs)
    (evs : List (FleetEvent ω)) :
    ∃ m, t.db.jobRow id = some m ∧ m.id = id ∧ m.status = .done ∧
      (∃ r ∈ t.db.messages.rows,
        Answers (evs ++ [.finish w id (.success text) (.ok ())]) m r) ∧
      ∀ r ∈ t.db.messages.rows, (∃ r₀ ∈ s.db.messages.rows, r₀.written = r.written) ∨
        Answers (evs ++ [.finish w id (.success text) (.ok ())]) m r := by
  obtain ⟨hmem, hfin⟩ := h.finished
  obtain ⟨a, ha⟩ := Option.ne_none_iff_exists'.mp (hheld w id hmem)
  obtain ⟨m, hm, -⟩ := Database.jobStatus_eq_some_iff.mp ha
  have hid : m.id = id := Database.jobRow_id hm
  have hafter := Database.jobRow_finish hm hfin id
  rw [if_pos rfl] at hafter
  obtain ⟨m', hlen, hchat, hpending, -, hdb⟩ := Database.finishDone_ok hfin
  have hsame := Database.pendingRow_of_finish hm hfin
  rw [hpending, Option.some.injEq] at hsame
  subst hsame
  have hbelow : m'.id < (s.db.nextId : Int) :=
    s.db.idsBelow m' (Table.mem_of_find? (Database.jobRow_find? hm))
  have hanswers : ∀ r : Message, r.written = (s.db.replyRow m' ⟨text, hlen⟩).written →
      Answers (evs ++ [.finish w id (.success text) (.ok ())])
        (Database.assign (JobOutcome.success text).status
          (s.db.outcomePayload (.success text)) m') r := by
    intro r hr
    obtain ⟨hrid, hchat, hsender, hcontent⟩ := Message.of_written hr
    refine ⟨hsender, hchat, ?_, w, ?_⟩
    · show m'.id < r.id
      rw [hrid]
      exact hbelow
    · show FleetEvent.finish w m'.id _ _ ∈ _
      rw [hcontent, hid]
      simp
  obtain ⟨-, ⟨r, hr, hreply⟩, hback⟩ := Database.written_answered ⟨text, hlen⟩ hchat
  rw [← hdb] at hr hback
  exact ⟨_, hafter, hid, rfl, ⟨r, hr, hanswers r hreply⟩, fun r hr =>
    (hback r hr).imp_right (hanswers r)⟩

/-- A new row of an `ai` is the answer that the step records. -/
theorem Step.answer_cases {e : FleetEvent ω} (h : Step s e t) {r : Message}
    (hr : r ∈ t.db.messages.rows) (hai : r.sender = .ai) :
    (∃ r₀ ∈ s.db.messages.rows, r₀.written = r.written) ∨
      ∃ w id text, e = .finish w id (.success text) (.ok ()) := by
  have huser : ∀ (m : Message) (hid : s.db.messages.find? m.id = none)
      (hchat : (s.db.chats.find? m.chatId).isSome), m.sender = .user →
      r ∈ (s.db.add m hid hchat).messages.rows →
      ∃ r₀ ∈ s.db.messages.rows, r₀.written = r.written := by
    intro m hid hchat hsender hmem
    rw [Database.add_rows, List.mem_append, List.mem_singleton] at hmem
    rcases hmem with hmem | rfl
    · exact ⟨r, hmem, rfl⟩
    · rw [hsender] at hai
      cases hai
  have heffect := h.tableEffect
  generalize t.db = db at heffect hr
  cases heffect with
  | stay | reserve => exact .inl ⟨r, hr, rfl⟩
  | insert _ _ m hid hchat hjob => exact .inl (huser m hid hchat (Database.isJob_sender hjob) hr)
  | post m hid hchat hsender => exact .inl (huser m hid hchat hsender hr)
  | claim | requeue => exact .inl (Database.written_of_update hr)
  | finish w id outcome db hmem hfin =>
    cases outcome with
    | success text => exact .inr ⟨w, id, text, rfl⟩
    | failed error result =>
      have hpending := Database.finish_ok_pending hfin
      rw [Database.finish_failed, Database.finishFailed_eq, if_pos hpending] at hfin
      cases hfin
      exact .inl (Database.written_of_update hr)

/-- **Step lemma.** Questions and answers go together after a step. -/
theorem Step.transcribed {db₀ : Database} {e : FleetEvent ω} (h : Step s e t)
    (hheld : s.HeldJobs) (hs : Transcribed db₀ evs s.db) :
    Transcribed db₀ (evs ++ [e]) t.db where
  answer r hr hai hnew := by
    -- an old answer keeps its question, which is done and moves no more
    have hold : (∃ r₀ ∈ s.db.messages.rows, r₀.written = r.written) →
        ∃ m, t.db.jobRow m.id = some m ∧ m.status = .done ∧ Answers (evs ++ [e]) m r := by
      rintro ⟨r₀, hr₀, heq⟩
      obtain ⟨hid, -, hsender, -⟩ := Message.of_written heq
      obtain ⟨m, hm, hdone, hanswers⟩ :=
        hs.answer r₀ hr₀ (hsender.trans hai) (by rwa [hid])
      obtain ⟨m', hm', hmove⟩ := h.rowMove hheld hm
      cases hmove with
      | stay => exact ⟨m, hm', hdone, hanswers.mono e heq.symm⟩
      | claim _ hnew' => exact absurd (hdone.symm.trans hnew') (by decide)
      | requeue _ hpending => exact absurd (hdone.symm.trans hpending) (by decide)
      | finish _ _ hpending => exact absurd (hdone.symm.trans hpending) (by decide)
    rcases h.answer_cases hr hai with hr₀ | ⟨w, id, text, rfl⟩
    · exact hold hr₀
    · obtain ⟨m, hm, hid, hdone, -, hback⟩ := h.answers_new hheld evs
      rcases hback r hr with hr₀ | hanswers
      · exact hold hr₀
      · exact ⟨m, by rwa [hid], hdone, hanswers⟩
  question m' hm' hdone := by
    cases hj : s.db.jobRow m'.id with
    | none =>
      -- a job that appears is not done
      have hnone : s.db.jobStatus m'.id = none := by
        rw [Database.jobStatus, hj]
        rfl
      obtain ⟨hnew, -⟩ := h.jobStatus_appears hheld hnone (Database.jobStatus_of_jobRow hm')
      exact absurd (hdone.symm.trans hnew) (by decide)
    | some m =>
      obtain ⟨m'', hm'', hmove⟩ := h.rowMove hheld hj
      rw [hm', Option.some.injEq] at hm''
      subst hm''
      cases hmove with
      | stay =>
        refine (hs.question _ hj hdone).imp_right ?_
        rintro ⟨r, hr, hanswers⟩
        obtain ⟨r', hr', heq⟩ := h.written hr
        exact ⟨r', hr', hanswers.mono e heq⟩
      | claim | requeue => cases hdone
      | finish o hrec =>
        cases o with
        | failed error result => cases hdone
        | success text =>
          obtain ⟨w, rfl⟩ := FleetEvent.recorded_eq_some hrec
          obtain ⟨m₁, hm₁, -, -, hreply, -⟩ := h.answers_new hheld evs
          rw [hm', Option.some.injEq] at hm₁
          subst hm₁
          exact .inr hreply

theorem transcribed_run {s₀ : Fleet ω} (hidle : s₀.Idle) (hrun : Run Step s₀ evs s) :
    Transcribed s₀.db evs s.db :=
  (hrun.invariant (I := fun evs u => u.HeldJobs ∧ Transcribed s₀.db evs u.db)
    ⟨hidle.heldJobs, .nil s₀.db⟩
    fun hu hstep => ⟨hstep.heldJobs hu.1, hstep.transcribed hu.1 hu.2⟩).2

end Fleet

namespace Jobctl

variable {ω : Type} [DecidableEq ω] {s₀ s s' t t' : Fleet ω}
  {evs₀ evs₁ evs₂ evs₃ : List (FleetEvent ω)} {chatId : Int}

/-- The columns of a row that no `UPDATE` assigns. -/
def ChatMessage.written (row : ChatMessage) : Int × Int × String × Bool × String :=
  (row.id, row.chatId, row.sender, row.isAgentic, row.content)

theorem written_fromRow {m m' : Message} (h : m'.written = m.written) :
    (ChatMessage.fromRow m').written = (ChatMessage.fromRow m).written := by
  show (ChatMessage.fromRow m'.written).written = (ChatMessage.fromRow m.written).written
  rw [h]

theorem mem_chat {db : Database} {m : Message} :
    m ∈ db.messages.ordered (fun m => m.chatId = chatId) ↔
      m ∈ db.messages.rows ∧ m.chatId = chatId := by
  rw [Table.mem_ordered, decide_eq_true_eq]

/-- Without `--json`, stdout has the texts of the messages. -/
theorem stdout_shown (texts : ChatTexts) (r : Retrieved) :
    (r.shown texts false).filterMap Printed.out? =
      (r.messages.map ChatMessage.written).flatMap fun row => ["", row.2.2.2.2] := by
  have hempty : (if r.messages.isEmpty then [Printed.log "(no messages)"] else []).filterMap
      Printed.out? = [] := by
    split <;> rfl
  rw [Retrieved.shown, if_neg (by decide), List.filterMap_append, hempty, List.append_nil,
    List.filterMap_cons, List.filterMap_flatMap, List.flatMap_map]
  rfl

/-- The line above a job that is done says so. -/
theorem header_done {m : Message} (hjob : m.isJob = true) (hdone : m.status = .done)
    (created : String) :
    (ChatMessage.fromRow m).header created =
      "#" ++ toString m.id ++ " user  " ++ created ++ "  [status done]" ++
        ((ChatMessage.fromRow m).payloadStr "error").elim "" fun error => "  error: " ++ error := by
  have huser : (ChatMessage.fromRow m).sender = "user" :=
    congrArg senderText (Database.isJob_sender hjob)
  have hagentic : (ChatMessage.fromRow m).isAgentic = true := by
    simp only [Message.isJob, Bool.and_eq_true, decide_eq_true_eq] at hjob
    simp [ChatMessage.fromRow, hjob.2]
  have hstatus : (ChatMessage.fromRow m).status = some "done" := congrArg JobStatus.toDb hdone
  have hbracket : "  [status " ++ ("done" ++ "]") = "  [status done]" := by decide
  have hname : " " ++ ("user" ++ "  ") = " user  " := by decide
  simp only [ChatMessage.header, huser, hagentic, hstatus, and_self, if_true, Option.getD_some,
    String.append_assoc, ← hbracket, ← hname]
  rfl

/-- A later read finds all messages of an earlier one, in the same order. -/
theorem messages_grow (hrun : Run Fleet.Step s evs₀ t) :
    ((messages s.db chatId).map ChatMessage.written).Sublist
      ((messages t.db chatId).map ChatMessage.written) := by
  unfold messages
  rw [List.map_map, List.map_map]
  refine Table.map_ordered_sublist (k := Prod.fst) (fun _ => rfl) fun r hr => ?_
  obtain ⟨hmem, hchat⟩ := mem_chat.mp hr
  obtain ⟨r', hr', heq⟩ := Fleet.written_run hrun hmem
  have hsame := (Message.of_written heq).2.1
  exact ⟨r', mem_chat.mpr ⟨hr', hsame.trans hchat⟩, written_fromRow heq⟩

omit [DecidableEq ω] in
/-- A question and its answer, in a chat. -/
theorem answers_sublist {db : Database} {evs : List (FleetEvent ω)} {m r : Message}
    (hm : m ∈ db.messages.rows) (hr : r ∈ db.messages.rows) (h : Answers evs m r)
    (hchat : r.chatId = chatId) :
    [ChatMessage.fromRow m, .fromRow r].Sublist (messages db chatId) := by
  have hpair := Table.pair_sublist_ordered (mem_chat.mpr ⟨hm, h.chat.symm.trans hchat⟩)
    (mem_chat.mpr ⟨hr, hchat⟩) h.below
  exact hpair.map ChatMessage.fromRow

/-- **A chat only grows, and answers stand below their questions.** The command is run twice in
the course of any run, which goes on between its reads.

- The second time, the chat is the same, and the messages of the first time are there, with
  their sender and their text, in the same order; so are the lines of the first stdout.
- An answer that was not there at the start stands below a question of the chat, above which it
  says `done`; a worker has recorded the answer for that question.
- A job that is `done`, and was not at the start, has such an answer below it. -/
theorem retrieve_along (hidle : s₀.Idle) (hrun₀ : Run Fleet.Step s₀ evs₀ s)
    (hrun₁ : Run Fleet.Step s evs₁ s') {first : Retrieved}
    (hfirst : retrieve s.db s'.db chatId = .ok first) (hrun₂ : Run Fleet.Step s' evs₂ t)
    (hrun₃ : Run Fleet.Step t evs₃ t') :
    ∃ second, retrieve t.db t'.db chatId = .ok second ∧ second.chat = first.chat ∧
      (first.messages.map ChatMessage.written).Sublist
        (second.messages.map ChatMessage.written) ∧
      (∀ texts, ((first.shown texts false).filterMap Printed.out?).Sublist
        ((second.shown texts false).filterMap Printed.out?)) ∧
      (∀ answer ∈ second.messages, answer.sender = "ai" →
        s₀.db.messages.find? answer.id = none →
        ∃ question w, [question, answer].Sublist second.messages ∧
          (∀ created, ∃ rest, question.header created = "#" ++ toString question.id ++
            " user  " ++ created ++ "  [status done]" ++ rest) ∧
          .finish w question.id (.success answer.content) (.ok ()) ∈
            evs₀ ++ evs₁ ++ evs₂ ++ evs₃) ∧
      ∀ question ∈ second.messages, t'.db.jobStatus question.id ≠ none →
        question.status = some "done" → s₀.db.jobStatus question.id ≠ some .done →
        ∃ answer w, [question, answer].Sublist second.messages ∧ answer.sender = "ai" ∧
          .finish w question.id (.success answer.content) (.ok ()) ∈
            evs₀ ++ evs₁ ++ evs₂ ++ evs₃ := by
  have hrun := ((hrun₀.append hrun₁).append hrun₂).append hrun₃
  have htranscribed := Fleet.transcribed_run hidle hrun
  unfold retrieve at hfirst ⊢
  rw [Fleet.chats_run hrun₂, Fleet.chats_run hrun₁]
  cases hchat : s.db.chats.find? chatId with
  | none =>
    rw [hchat] at hfirst
    cases hfirst
  | some chat =>
    rw [hchat] at hfirst
    cases hfirst
    have hgrow : ((messages s'.db chatId).map ChatMessage.written).Sublist
        ((messages t'.db chatId).map ChatMessage.written) := messages_grow (hrun₂.append hrun₃)
    refine ⟨_, rfl, rfl, hgrow, fun texts => ?_, ?_, ?_⟩
    · rw [stdout_shown, stdout_shown]
      exact hgrow.flatMap _
    · intro answer hanswer hai hnew
      obtain ⟨r, hr, rfl⟩ := List.mem_map.mp hanswer
      obtain ⟨hmem, hin⟩ := mem_chat.mp hr
      have hsender : r.sender = .ai := by
        cases hs : r.sender with
        | ai => rfl
        | user =>
          rw [show (ChatMessage.fromRow r).sender = senderText r.sender from rfl, hs] at hai
          exact absurd hai (by decide)
      obtain ⟨m, hm, hdone, hanswers⟩ := htranscribed.answer r hmem hsender hnew
      obtain ⟨w, hw⟩ := hanswers.recorded
      obtain ⟨hquestion, -, hjob⟩ := Database.jobRow_eq_some_iff.mp hm
      exact ⟨.fromRow m, w, answers_sublist hquestion hmem hanswers hin,
        fun created => ⟨_, header_done hjob hdone created⟩, hw⟩
    · intro question hquestion hjob hdone hbefore
      obtain ⟨m, hm, rfl⟩ := List.mem_map.mp hquestion
      obtain ⟨hmem, hin⟩ := mem_chat.mp hm
      have hstatus : m.status = .done := by
        have hdb : m.status.toDb = some "done" := hdone
        cases hs : m.status with
        | done => rfl
        | new | pending | failed =>
          rw [hs] at hdb
          exact absurd hdb (by decide)
      obtain ⟨a, ha⟩ := Option.ne_none_iff_exists'.mp hjob
      obtain ⟨m', hm', -⟩ := Database.jobStatus_eq_some_iff.mp ha
      obtain ⟨hmem', hid, -⟩ := Database.jobRow_eq_some_iff.mp hm'
      obtain rfl : m' = m := t'.db.messages.eq_of_key_eq hmem' hmem hid
      rcases htranscribed.question m' hm' hstatus with hold | ⟨r, hr, hanswers⟩
      · exact absurd hold hbefore
      · obtain ⟨w, hw⟩ := hanswers.recorded
        refine ⟨.fromRow r, w, answers_sublist hmem hr hanswers (hanswers.chat.trans hin), ?_, hw⟩
        show senderText r.sender = "ai"
        rw [hanswers.sender]
        rfl

/-- A worker answers between two commands. -/
theorem startFleet_retrieved : ∃ (t : Fleet Unit) (second : Retrieved),
    t.db.jobStatus 1 = some .done ∧ retrieve t.db t.db 7 = .ok second ∧
      ((messages Fleet.startFleet.db 7).map ChatMessage.written).Sublist
        (second.messages.map ChatMessage.written) := by
  obtain ⟨evs, t, hrun, hdone⟩ := Fleet.startFleet_run
  obtain ⟨second, hsecond, -, hgrow, -⟩ :=
    retrieve_along Fleet.startFleet_fresh.toIdle (.nil Fleet.startFleet) (.nil Fleet.startFleet)
      (show retrieve Fleet.startFleet.db Fleet.startFleet.db 7 = .ok ⟨⟨7, 1, 1⟩, _⟩ from rfl)
      hrun (.nil t)
  exact ⟨t, second, hdone, hsecond, hgrow⟩

end Jobctl

end JobRunner
