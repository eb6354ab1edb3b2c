import JobRunner.Lib.Table
import JobRunner.Store.Job

/-!
# The tables (`schema/mysql.sql`)

The columns the runner reads or writes, typed as the schema types them: a `TEXT`
value carries its bound of 65535 bytes, `sender` is an enumeration, `status` is
`JobStatus` (whose `new` is `NULL`). `Database` carries what InnoDB enforces:
primary keys, the foreign key from messages to chats, and an `AUTO_INCREMENT`
counter above every id of the table.

- `Database.add`: one row added under an id no row has.
- `Database.update`: `UPDATE chat_messages SET status = …, payload = … WHERE …`;
  no statement of the program assigns any other column.
-/

namespace JobRunner

open Keyed

/-- A value of a `TEXT` column: at most 65535 bytes of UTF-8. -/
structure Text where
  val : String
  fits : val.utf8ByteSize ≤ 65535

/-- The question of the sample jobs fits. -/
theorem Text.sample_fits : "x".utf8ByteSize ≤ 65535 := by decide

/-- The `sender` enumeration. -/
inductive Sender where
  | user
  | ai
deriving DecidableEq, Repr

/-- A row of `chats`. -/
structure Chat where
  id : Int
  userId : Int
  companyId : Int
deriving DecidableEq, Repr

/-- A row of `chat_messages`. -/
structure Message where
  id : Int
  chatId : Int
  sender : Sender
  content : Text
  isAgentic : Option Int
  payload : Option Json
  status : JobStatus

/-- `sender = 'user' AND is_agentic = 1`. -/
def Message.isJob (m : Message) : Bool :=
  m.sender = .user && m.isAgentic = some 1

/-- The largest value of an `INT` column. -/
def intMax : Nat := 2147483647

/-- The two tables. -/
structure Database where
  chats : Table Chat.id
  messages : Table Message.id
  /-- The `AUTO_INCREMENT` counter of `chat_messages`. -/
  nextId : Nat
  /-- `fk_chat_messages_chat`. -/
  chatExists : ∀ m ∈ messages.rows, (chats.find? m.chatId).isSome
  /-- The counter is above every id that was handed out. -/
  idsBelow : ∀ m ∈ messages.rows, m.id < nextId

namespace Database

/-- The counter's value is not the id of a row, nor is any larger number, so the
next insert finds its id free. -/
theorem find?_of_nextId_le (db : Database) {id : Int} (h : (db.nextId : Int) ≤ id) :
    db.messages.find? id = none := by
  rw [Table.find?_eq_none_iff]
  intro m hm heq
  have := db.idsBelow m hm
  omega

/-- A row with a fresh id in an existing chat. -/
def add (db : Database) (m : Message) (hid : db.messages.find? m.id = none)
    (hchat : (db.chats.find? m.chatId).isSome) : Database where
  chats := db.chats
  messages := db.messages.insert m hid
  nextId := max db.nextId (m.id.toNat + 1)
  chatExists := by
    intro r hr
    rw [Table.insert_rows, List.mem_append, List.mem_singleton] at hr
    rcases hr with hr | rfl
    · exact db.chatExists r hr
    · exact hchat
  idsBelow := by
    intro r hr
    rw [Table.insert_rows, List.mem_append, List.mem_singleton] at hr
    rcases hr with hr | rfl
    · have := db.idsBelow r hr
      omega
    · omega

@[simp] theorem add_chats (db : Database) (m : Message) (hid : db.messages.find? m.id = none)
    (hchat : (db.chats.find? m.chatId).isSome) : (db.add m hid hchat).chats = db.chats := rfl

@[simp] theorem add_rows (db : Database) (m : Message) (hid : db.messages.find? m.id = none)
    (hchat : (db.chats.find? m.chatId).isSome) :
    (db.add m hid hchat).messages.rows = db.messages.rows ++ [m] := rfl

theorem find?_add (db : Database) (m : Message) (hid : db.messages.find? m.id = none)
    (hchat : (db.chats.find? m.chatId).isSome) (id : Int) :
    (db.add m hid hchat).messages.find? id =
      if m.id = id then some m else db.messages.find? id :=
  Table.find?_insert db.messages m hid id

/-- The counter handed out the ids up to `n` to transactions that have not
committed: ids become visible in another order than they are given, or never. -/
def reserve (db : Database) (n : Nat) (h : db.nextId ≤ n) : Database where
  chats := db.chats
  messages := db.messages
  nextId := n
  chatExists := db.chatExists
  idsBelow m hm := by
    have := db.idsBelow m hm
    omega

/-- The `SET` clause of every `UPDATE` of the program, on one row. -/
def assign (status : JobStatus) (payload : Option Json → Option Json) (m : Message) : Message :=
  { m with status := status, payload := payload m.payload }

@[simp] theorem assign_id (status : JobStatus) (payload : Option Json → Option Json)
    (m : Message) : (assign status payload m).id = m.id := rfl

@[simp] theorem assign_chatId (status : JobStatus) (payload : Option Json → Option Json)
    (m : Message) : (assign status payload m).chatId = m.chatId := rfl

@[simp] theorem assign_isJob (status : JobStatus) (payload : Option Json → Option Json)
    (m : Message) : (assign status payload m).isJob = m.isJob := rfl

/-- `UPDATE chat_messages SET status = …, payload = … WHERE p`, with
`rows_affected` (each statement of the program changes the status of every row
it selects, so matched and changed rows are the same). -/
def update (db : Database) (p : Message → Bool) (status : JobStatus)
    (payload : Option Json → Option Json) : Database × Nat :=
  ({ chats := db.chats
     messages := db.messages.update p (assign status payload) (assign_id status payload)
     nextId := db.nextId
     chatExists := by
       intro r hr
       rw [Table.update_rows, List.mem_map] at hr
       obtain ⟨m, hm, rfl⟩ := hr
       have hkeep : (if p m then assign status payload m else m).chatId = m.chatId := by
         split <;> rfl
       rw [hkeep]
       exact db.chatExists m hm
     idsBelow := by
       intro r hr
       rw [Table.update_rows, List.mem_map] at hr
       obtain ⟨m, hm, rfl⟩ := hr
       have hkeep : (if p m then assign status payload m else m).id = m.id := by
         split <;> rfl
       rw [hkeep]
       exact db.idsBelow m hm },
    db.messages.matching p)

@[simp] theorem update_chats (db : Database) (p : Message → Bool) (status : JobStatus)
    (payload : Option Json → Option Json) : (db.update p status payload).1.chats = db.chats := rfl

@[simp] theorem update_nextId (db : Database) (p : Message → Bool) (status : JobStatus)
    (payload : Option Json → Option Json) :
    (db.update p status payload).1.nextId = db.nextId := rfl

theorem update_rows (db : Database) (p : Message → Bool) (status : JobStatus)
    (payload : Option Json → Option Json) :
    (db.update p status payload).1.messages.rows =
      db.messages.rows.map fun m => if p m then assign status payload m else m := rfl

/-- Read by id, an `UPDATE` assigns to the row if the `WHERE` clause selects it;
whether the row is there, and what the others are, does not change. -/
theorem find?_update (db : Database) (p : Message → Bool) (status : JobStatus)
    (payload : Option Json → Option Json) (id : Int) :
    (db.update p status payload).1.messages.find? id =
      (db.messages.find? id).map fun m => if p m then assign status payload m else m :=
  Table.find?_update db.messages p (assign status payload) (assign_id status payload) id

/-- An `UPDATE` that selects no row leaves the database as it is. A lost race in
`try_claim` is such a statement. -/
theorem update_eq_self (db : Database) {p : Message → Bool} (status : JobStatus)
    (payload : Option Json → Option Json) (h : ∀ m ∈ db.messages.rows, p m = false) :
    (db.update p status payload).1 = db := by
  have hrows :
      db.messages.update p (assign status payload) (assign_id status payload) = db.messages :=
    Table.update_eq_self h
  cases db
  simp only [update] at hrows ⊢
  congr

/-- One chat with one message in it. -/
def single (chat : Chat) (m : Message) (h : chat.id = m.chatId) : Database where
  chats := ⟨[chat], List.nodup_singleton _⟩
  messages := ⟨[m], List.nodup_singleton _⟩
  nextId := m.id.toNat + 1
  chatExists := by
    intro r hr
    rw [List.mem_singleton.mp hr]
    have hfound : Table.find? (⟨[chat], List.nodup_singleton _⟩ : Table Chat.id) m.chatId =
        some chat := Table.find?_eq_some_iff.mpr ⟨List.mem_singleton_self _, h⟩
    rw [hfound]
    rfl
  idsBelow := by
    intro r hr
    rw [List.mem_singleton.mp hr]
    omega

/-! ## Jobs -/

/-- The agentic user message with this id, if there is one. -/
def jobRow (db : Database) (id : Int) : Option Message :=
  (db.messages.find? id).filter Message.isJob

/-- The job of an id is the row of that id that passes the job filter: of other
rows, even of the same chat, the jobs say nothing. -/
theorem jobRow_eq_some_iff {db : Database} {id : Int} {m : Message} :
    db.jobRow id = some m ↔ m ∈ db.messages.rows ∧ m.id = id ∧ m.isJob = true := by
  unfold jobRow
  rw [Option.filter_eq_some_iff, Table.find?_eq_some_iff, and_assoc]

theorem jobRow_id {db : Database} {id : Int} {m : Message} (h : db.jobRow id = some m) :
    m.id = id :=
  (jobRow_eq_some_iff.mp h).2.1

/-- The status of the job with this id; `none` if there is no such job. -/
def jobStatus (db : Database) (id : Int) : Option JobStatus :=
  (db.jobRow id).map Message.status

end Database

end JobRunner
