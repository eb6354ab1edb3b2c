import JobRunner.Store.Operations

/-!
# What the operations of the store do

For each operation, what it does to the job a caller looks up (`jobRow`,
`jobStatus`) and to the replies recorded for a job (`replies`). Later modules
reason with these lemmas and do not unfold the operations.

- `tryClaim_won_iff`, `jobRow_tryClaim`: a claim succeeds exactly on an
  unclaimed job and touches nothing else.
- `finish_error`: a refused `finish` changes nothing.
- `finishDone_ok`, `finishFailed_eq`: the database after a successful `finish`.
- `get_eq`: `get` returns the job row as the runner sees it.
-/

namespace JobRunner

open Keyed

/-- The job an `ai` message answers: `payload.in_reply_to`. -/
def Message.inReplyTo (m : Message) : Option Int :=
  match m.payload.bind (·.get? "in_reply_to") with
  | some (.int id) => some id
  | _ => none

namespace Database

/-- The `ai` messages that answer job `id`. -/
def replies (db : Database) (id : Int) : List Message :=
  db.messages.rows.filter fun m => m.sender = .ai && m.inReplyTo = some id

/-! ## Adding and updating rows -/

theorem jobRow_add (db : Database) (m : Message) (hid : db.messages.find? m.id = none)
    (hchat : (db.chats.find? m.chatId).isSome) (id : Int) :
    (db.add m hid hchat).jobRow id =
      if m.id = id then (if m.isJob then some m else none) else db.jobRow id := by
  unfold jobRow
  rw [find?_add]
  split
  · cases hm : m.isJob <;> simp [hm]
  · rfl

/-- An `UPDATE` maps the job of each id. What it assigns never changes whether a row
is a job, so the filter may be applied before or after. -/
theorem jobRow_update (db : Database) (p : Message → Bool) (status : JobStatus)
    (payload : Option Json → Option Json) (id : Int) :
    (db.update p status payload).1.jobRow id =
      (db.jobRow id).map fun m => if p m then assign status payload m else m := by
  unfold jobRow
  rw [find?_update]
  cases db.messages.find? id with
  | none => rfl
  | some m =>
    have hkeep : (if p m then assign status payload m else m).isJob = m.isJob := by
      split <;> rfl
    rw [Option.map_some, Option.filter_some, Option.filter_some, hkeep]
    split <;> rfl

/-- A new row is a reply to a job only if an AI sent it and it names the job. -/
theorem replies_add (db : Database) (m : Message) (hid : db.messages.find? m.id = none)
    (hchat : (db.chats.find? m.chatId).isSome) (id : Int) :
    (db.add m hid hchat).replies id =
      db.replies id ++ if m.sender = .ai ∧ m.inReplyTo = some id then [m] else [] := by
  unfold replies
  rw [add_rows, List.filter_append]
  congr 1
  by_cases h : m.sender = .ai ∧ m.inReplyTo = some id
  · rw [if_pos h]
    simp [h.1, h.2]
  · rw [if_neg h]
    simpa using h

/-- An update of user rows leaves the replies alone. The store updates no other
rows, so replies are only ever added. -/
theorem replies_update (db : Database) {p : Message → Bool} (status : JobStatus)
    (payload : Option Json → Option Json)
    (hp : ∀ m ∈ db.messages.rows, p m = true → m.sender = .user) (id : Int) :
    (db.update p status payload).1.replies id = db.replies id := by
  unfold replies
  rw [update_rows]
  generalize db.messages.rows = rows at hp
  induction rows with
  | nil => rfl
  | cons m rows ih =>
    have ih' := ih fun m' hm' => hp m' (List.mem_cons_of_mem m hm')
    rw [List.map_cons, List.filter_cons, List.filter_cons, ih']
    by_cases hpm : p m = true
    · have huser := hp m (List.mem_cons_self ..) hpm
      simp [hpm, assign, huser]
    · simp [hpm]

theorem replies_eq_nil_iff {db : Database} {id : Int} :
    db.replies id = [] ↔
      ∀ m ∈ db.messages.rows, m.sender = .ai → m.inReplyTo ≠ some id := by
  unfold replies
  rw [List.filter_eq_nil_iff]
  simp

theorem jobStatus_eq_some_iff {db : Database} {id : Int} {s : JobStatus} :
    db.jobStatus id = some s ↔ ∃ m, db.jobRow id = some m ∧ m.status = s := by
  unfold jobStatus
  rw [Option.map_eq_some_iff]

theorem jobStatus_of_jobRow {db : Database} {id : Int} {m : Message}
    (h : db.jobRow id = some m) : db.jobStatus id = some m.status := by
  unfold jobStatus
  rw [h]
  rfl

theorem jobRow_find? {db : Database} {id : Int} {m : Message} (h : db.jobRow id = some m) :
    db.messages.find? id = some m := by
  rw [jobRow_eq_some_iff] at h
  exact Table.find?_eq_some_iff.mpr ⟨h.1, h.2.1⟩

theorem jobRow_isJob {db : Database} {id : Int} {m : Message} (h : db.jobRow id = some m) :
    m.isJob = true :=
  (jobRow_eq_some_iff.mp h).2.2

theorem isJob_sender {m : Message} (h : m.isJob = true) : m.sender = .user := by
  unfold Message.isJob at h
  simpa using (Bool.and_eq_true_iff.mp h).1

/-! ## `get` -/

/-- A job row as the runner sees it. -/
def toJob (db : Database) (m : Message) : Job where
  id := m.id
  chatId := m.chatId
  content := m.content.val
  status := m.status
  replyId := (m.payload.bind (·.get? "reply_id")).bind Json.asI64
  error := (m.payload.bind (·.get? "error")).bind Json.asStr
  requester := (db.chats.find? m.chatId).map fun c => ⟨c.userId, c.companyId, isAdmin m.payload⟩

/-- `get` finds exactly the agentic user messages; the status of a stored row is
never unknown. -/
theorem get_eq (db : Database) (id : Int) :
    db.get id = .ok ((db.jobRow id).map db.toJob) := by
  unfold get selectJob
  cases db.jobRow id with
  | none => rfl
  | some m =>
    simp only [Option.map_some, Job.tryFrom, JobStatus.fromDb_toDb]
    cases hc : db.chats.find? m.chatId <;> simp [toJob, hc, Except.map]

/-! ## `oldest_unclaimed_id` and `try_claim` -/

/-- There is no candidate exactly when no job is unclaimed; the limit of one row
hides none. -/
theorem oldestUnclaimedId_eq_none_iff {db : Database} :
    db.oldestUnclaimedId = none ↔ ∀ id, db.jobStatus id ≠ some .new := by
  unfold oldestUnclaimedId
  rw [Option.map_eq_none_iff, Table.least?_eq_none_iff]
  constructor
  · intro h id hs
    obtain ⟨m, hm, hnew⟩ := jobStatus_eq_some_iff.mp hs
    obtain ⟨hmem, -, hjob⟩ := jobRow_eq_some_iff.mp hm
    simpa [hjob, hnew] using h m hmem
  · intro h m hm
    refine Bool.eq_false_iff.mpr fun hp => ?_
    obtain ⟨hjob, hnew⟩ := Bool.and_eq_true_iff.mp hp
    refine h m.id (jobStatus_eq_some_iff.mpr ⟨m, ?_, by simpa using hnew⟩)
    exact jobRow_eq_some_iff.mpr ⟨hm, rfl, hjob⟩

/-- The candidate is an unclaimed job, and no unclaimed job is older. This is about
the moment of the `SELECT`: the claim itself looks again. -/
theorem oldestUnclaimedId_eq_some {db : Database} {id : Int}
    (h : db.oldestUnclaimedId = some id) :
    db.jobStatus id = some .new ∧ ∀ j, db.jobStatus j = some .new → id ≤ j := by
  unfold oldestUnclaimedId at h
  obtain ⟨m, hm, rfl⟩ := Option.map_eq_some_iff.mp h
  obtain ⟨hmem, hp⟩ := Table.least?_mem hm
  obtain ⟨hjob, hnew⟩ := Bool.and_eq_true_iff.mp hp
  refine ⟨jobStatus_eq_some_iff.mpr
    ⟨m, jobRow_eq_some_iff.mpr ⟨hmem, rfl, hjob⟩, by simpa using hnew⟩, ?_⟩
  intro j hj
  obtain ⟨m', hm', hnew'⟩ := jobStatus_eq_some_iff.mp hj
  obtain ⟨hmem', rfl, hjob'⟩ := jobRow_eq_some_iff.mp hm'
  exact Table.least?_le hm hmem' (by simp [hjob', hnew'])

/-- The `WHERE` clause of `try_claim`. -/
private def claimable (id : Int) (m : Message) : Bool :=
  m.id = id && m.isJob && m.status = .new

private theorem tryClaim_fst (db : Database) (id : Int) :
    (db.tryClaim id).1 = (db.update (claimable id) .pending fun payload => payload).1 := rfl

private theorem tryClaim_snd (db : Database) (id : Int) :
    (db.tryClaim id).2 = decide (db.messages.matching (claimable id) = 1) := rfl

private theorem claimable_id {id : Int} {m : Message} (h : claimable id m = true) :
    m.id = id := by
  simp only [claimable, Bool.and_eq_true, decide_eq_true_eq] at h
  exact h.1.1

/-- A claim succeeds exactly when the job is unclaimed at that moment, since the
`UPDATE` names the id and selects only unclaimed jobs. -/
theorem tryClaim_won_iff {db : Database} {id : Int} :
    (db.tryClaim id).2 = true ↔ db.jobStatus id = some .new := by
  rw [tryClaim_snd, decide_eq_true_iff,
    Table.matching_of_key db.messages (k := id) (fun _ => claimable_id)]
  unfold jobStatus jobRow
  cases hf : db.messages.find? id with
  | none => simp
  | some m =>
    have hid : m.id = id := Table.find?_key hf
    cases hjob : m.isJob <;> simp [claimable, hid, hjob]

/-- A lost claim changes nothing. -/
theorem tryClaim_lost {db : Database} {id : Int} (h : (db.tryClaim id).2 = false) :
    (db.tryClaim id).1 = db := by
  rw [tryClaim_fst]
  refine update_eq_self db _ _ fun m hm => Bool.eq_false_iff.mpr fun hc => ?_
  have hnew : db.jobStatus id = some .new := by
    refine jobStatus_eq_some_iff.mpr ⟨m, jobRow_eq_some_iff.mpr ⟨hm, claimable_id hc, ?_⟩, ?_⟩
    all_goals simp only [claimable, Bool.and_eq_true, decide_eq_true_eq] at hc
    · exact hc.1.2
    · exact hc.2
  rw [tryClaim_won_iff.mpr hnew] at h
  cases h

/-- What `try_claim` does to each job, won or lost: the job it names becomes pending
if it was unclaimed, and nothing else of any job changes. -/
theorem jobRow_tryClaim (db : Database) (id j : Int) :
    (db.tryClaim id).1.jobRow j =
      (db.jobRow j).map fun m =>
        if m.id = id ∧ m.status = .new then { m with status := .pending } else m := by
  rw [tryClaim_fst, jobRow_update]
  cases hj : db.jobRow j with
  | none => rfl
  | some m =>
    have hjob := jobRow_isJob hj
    simp only [Option.map_some, claimable, hjob, Bool.and_eq_true, decide_eq_true_eq, and_true]
    rfl

/-- The same for the statuses, with the condition on the state before the claim. -/
theorem jobStatus_tryClaim (db : Database) (id j : Int) :
    (db.tryClaim id).1.jobStatus j =
      if j = id ∧ db.jobStatus id = some .new then some .pending else db.jobStatus j := by
  unfold jobStatus
  rw [jobRow_tryClaim]
  cases hj : db.jobRow j with
  | none =>
    by_cases h : j = id
    · subst h
      simp [hj]
    · simp [h]
  | some m =>
    have hid : m.id = j := jobRow_id hj
    by_cases h : j = id
    · subst h
      by_cases hnew : m.status = .new <;> simp [hj, hid, hnew]
    · simp [h, hid]

/-! ## `insert` -/

theorem insertMessage_ok {db db' : Database} {chatId : Int} {sender : Sender}
    {content : String} {isAgentic : Option Int} {payload : Option Json} {last : Nat}
    (h : db.insertMessage chatId sender content isAgentic payload = .ok (db', last)) :
    ∃ hlen hchat, last = db.nextId ∧ db.nextId ≤ intMax ∧
      db' = db.add ⟨db.nextId, chatId, sender, ⟨content, hlen⟩, isAgentic, payload, .new⟩
        (db.find?_of_nextId_le (Int.le_refl _)) hchat := by
  unfold insertMessage at h
  split at h
  · rename_i hlen
    split at h
    · rename_i hchat
      split at h
      · rename_i hmax
        cases h
        exact ⟨hlen, hchat, rfl, hmax, rfl⟩
      · cases h
    · cases h
  · cases h

/-- An id in the range of `INT` passes `insert_id`. -/
theorem insertId_of_le {raw : Nat} (h : raw ≤ intMax) : insertId raw = .ok raw := by
  unfold insertId intMax at *
  rw [if_pos (by omega)]

/-- A refused `insert` changes nothing, whichever of its checks has refused it. -/
theorem insert_error {db db' : Database} {chatId : Int} {content : String} {e : StoreError}
    (h : db.insert chatId content = (.error e, db')) : db' = db := by
  unfold insert at h
  cases hm : db.insertMessage chatId .user content (some 1) none with
  | error e =>
    rw [hm] at h
    cases h
    rfl
  | ok r =>
    obtain ⟨db₁, last⟩ := r
    obtain ⟨-, -, rfl, hmax, -⟩ := insertMessage_ok hm
    rw [hm] at h
    simp only [insertId_of_le hmax] at h
    cases h

/-- A successful `insert` adds one unclaimed job under an id no row had, and answers
with that id. -/
theorem insert_ok {db db' : Database} {chatId id : Int} {content : String}
    (h : db.insert chatId content = (.ok id, db')) :
    ∃ m hid hchat, m.id = id ∧ m.isJob = true ∧ m.status = .new ∧
      db.messages.find? id = none ∧ db' = db.add m hid hchat := by
  unfold insert at h
  cases hm : db.insertMessage chatId .user content (some 1) none with
  | error e =>
    rw [hm] at h
    cases h
  | ok r =>
    obtain ⟨db₁, last⟩ := r
    obtain ⟨hlen, hchat, rfl, hmax, rfl⟩ := insertMessage_ok hm
    rw [hm] at h
    simp only [insertId_of_le hmax] at h
    cases h
    exact ⟨_, _, hchat, rfl, rfl, rfl, db.find?_of_nextId_le le_rfl, rfl⟩

/-! ## `finish` -/

/-- The `ai` row `finish_done` inserts for the pending row `m`. -/
abbrev replyRow (db : Database) (m : Message) (result : Text) : Message :=
  ⟨db.nextId, m.chatId, .ai, result, some 1, some (.obj [("in_reply_to", .int m.id)]), .new⟩

theorem pendingRow_eq_some_iff {db : Database} {id : Int} {m : Message} :
    db.pendingRow id = some m ↔ db.messages.find? id = some m ∧ m.status = .pending := by
  unfold pendingRow
  rw [Option.filter_eq_some_iff, decide_eq_true_iff]

theorem pendingRow_of_jobStatus {db : Database} {id : Int}
    (h : db.jobStatus id = some .pending) :
    ∃ m, db.jobRow id = some m ∧ db.pendingRow id = some m := by
  obtain ⟨m, hm, hs⟩ := jobStatus_eq_some_iff.mp h
  exact ⟨m, hm, pendingRow_eq_some_iff.mpr ⟨jobRow_find? hm, hs⟩⟩

/-- The database after a successful `finish_done` of the pending row `m`. -/
def answered (db : Database) (m : Message) (result : Text)
    (hchat : (db.chats.find? m.chatId).isSome) : Database :=
  ((db.add (db.replyRow m result) (db.find?_of_nextId_le le_rfl) hchat).update
    (fun r => r.id = m.id) .done (setPayload "reply_id" (.int db.nextId))).1

theorem finishDone_none {db : Database} {id : Int} (h : db.pendingRow id = none)
    (result : String) : db.finishDone id result = (.error (.notPending id), db) := by
  unfold finishDone insertReply
  rw [h]
  rfl

/-- `finish_done` on a pending row: it fails, with nothing changed, exactly when
the answer does not fit its column or the table has no id left. -/
theorem finishDone_some {db : Database} {id : Int} {m : Message}
    (h : db.pendingRow id = some m) (result : String) :
    db.finishDone id result =
      if hlen : result.utf8ByteSize ≤ 65535 then
        if db.nextId ≤ intMax then
          (.ok (), db.answered m ⟨result, hlen⟩
            (db.chatExists m (Table.mem_of_find? (pendingRow_eq_some_iff.mp h).1)))
        else (.error (.database .autoIncrement), db)
      else (.error (.database .dataTooLong), db) := by
  obtain ⟨hfind, -⟩ := pendingRow_eq_some_iff.mp h
  have hid : m.id = id := Table.find?_key hfind
  have hchat := db.chatExists m (Table.mem_of_find? hfind)
  subst hid
  unfold finishDone insertReply
  simp only [h]
  unfold insertMessage
  by_cases hlen : result.utf8ByteSize ≤ 65535
  · rw [dif_pos hlen, dif_pos hlen, dif_pos hchat]
    by_cases hmax : db.nextId ≤ intMax
    · rw [if_pos hmax, if_pos hmax]
      simp only [insertId_of_le hmax]
      rfl
    · rw [if_neg hmax, if_neg hmax]
  · rw [dif_neg hlen, dif_neg hlen]

/-- A refused `finish_done` changes nothing, although it writes the reply before the
status: the transaction is rolled back. -/
theorem finishDone_error {db db' : Database} {id : Int} {result : String} {e : StoreError}
    (h : db.finishDone id result = (.error e, db')) : db' = db := by
  cases hp : db.pendingRow id with
  | none =>
    rw [finishDone_none hp] at h
    cases h
    rfl
  | some m =>
    rw [finishDone_some hp] at h
    split at h
    · split at h
      · cases h
      · cases h
        rfl
    · cases h
      rfl

/-- What was written by a `finish_done` that succeeded, and the three things it had
checked: that the job was pending, that the answer fits its column, that there is an
id left. -/
theorem finishDone_ok {db db' : Database} {id : Int} {result : String}
    (h : db.finishDone id result = (.ok (), db')) :
    ∃ m hlen hchat, db.pendingRow id = some m ∧ db.nextId ≤ intMax ∧
      db' = db.answered m ⟨result, hlen⟩ hchat := by
  cases hp : db.pendingRow id with
  | none =>
    rw [finishDone_none hp] at h
    cases h
  | some m =>
    rw [finishDone_some hp] at h
    split at h
    · rename_i hlen
      split at h
      · rename_i hmax
        cases h
        exact ⟨m, hlen, _, rfl, hmax, rfl⟩
      · cases h
    · cases h

/-- The database after a successful `finish_failed`. -/
def rejected (db : Database) (id : Int) (error : String) (result : Option String) : Database :=
  (db.update (fun m => m.id = id && m.status = .pending) .failed
    (failurePayload error result)).1

/-- `finish_failed` succeeds exactly on a pending row, whatever the texts. -/
theorem finishFailed_eq (db : Database) (id : Int) (error : String)
    (result : Option String) :
    db.finishFailed id error result =
      if (db.pendingRow id).isSome then (.ok (), db.rejected id error result)
      else (.error (.notPending id), db) := by
  have hmatch : db.messages.matching (fun m => m.id = id && m.status = .pending) =
      if (db.pendingRow id).isSome then 1 else 0 := by
    rw [Table.matching_of_key db.messages (k := id) (by intro m hm; simp at hm; exact hm.1)]
    unfold pendingRow
    cases hf : db.messages.find? id with
    | none => rfl
    | some m =>
      have hid : m.id = id := Table.find?_key hf
      by_cases hs : m.status = .pending <;> simp [hid, hs]
  show (if db.messages.matching _ = 1 then _ else _) = _
  rw [hmatch]
  cases hp : db.pendingRow id with
  | some m => rfl
  | none =>
    refine congrArg (Prod.mk _) (update_eq_self db _ _ fun m hm => ?_)
    refine Bool.eq_false_iff.mpr fun hc => ?_
    simp only [Bool.and_eq_true, decide_eq_true_eq] at hc
    have hrow : db.pendingRow id = some m :=
      pendingRow_eq_some_iff.mpr ⟨Table.find?_eq_some_iff.mpr ⟨hm, hc.1⟩, hc.2⟩
    rw [hp] at hrow
    cases hrow

@[simp] theorem finish_success (db : Database) (id : Int) (result : String) :
    db.finish id (.success result) = db.finishDone id result := rfl

@[simp] theorem finish_failed (db : Database) (id : Int) (error : String)
    (result : Option String) :
    db.finish id (.failed error result) = db.finishFailed id error result := rfl

/-- A refused `finish` changes nothing. -/
theorem finish_error {db db' : Database} {id : Int} {o : JobOutcome} {e : StoreError}
    (h : db.finish id o = (.error e, db')) : db' = db := by
  cases o with
  | success result => exact finishDone_error h
  | failed error result =>
    rw [finish_failed, finishFailed_eq] at h
    split at h
    · cases h
    · cases h
      rfl

/-- `finish` refuses every job that is not pending, so an outcome is recorded at
most once for each claim. -/
theorem finish_ok_pending {db db' : Database} {id : Int} {o : JobOutcome}
    (h : db.finish id o = (.ok (), db')) : (db.pendingRow id).isSome := by
  cases o with
  | success result =>
    obtain ⟨m, -, -, hp, -, -⟩ := finishDone_ok h
    rw [hp]
    rfl
  | failed error result =>
    rw [finish_failed, finishFailed_eq] at h
    split at h
    · assumption
    · cases h

/-- Answering a job changes that job's row, and the new reply is no job: all other
jobs read as before. -/
theorem jobRow_answered {db : Database} {m : Message} (hm : db.jobRow m.id = some m)
    (t : Text) (hchat : (db.chats.find? m.chatId).isSome) (j : Int) :
    (db.answered m t hchat).jobRow j =
      if j = m.id then some (assign .done (setPayload "reply_id" (.int db.nextId)) m)
      else db.jobRow j := by
  unfold answered
  rw [jobRow_update, jobRow_add]
  have hfresh : db.jobRow db.nextId = none := by
    unfold jobRow
    rw [db.find?_of_nextId_le le_rfl]
    rfl
  by_cases hnew : (db.replyRow m t).id = j
  · have hj : (db.nextId : Int) = j := hnew
    have hne : j ≠ m.id := by
      rintro rfl
      rw [hj, hm] at hfresh
      cases hfresh
    rw [if_pos hnew, if_neg hne, ← hj, hfresh]
    rfl
  · rw [if_neg hnew]
    by_cases hj : j = m.id
    · subst hj
      rw [if_pos rfl, hm]
      simp
    · rw [if_neg hj]
      cases hrow : db.jobRow j with
      | none => rfl
      | some r =>
        have hr : r.id = j := jobRow_id hrow
        have hne : r.id ≠ m.id := hr ▸ hj
        simp [hne]

/-- A successful `finish_done` of a job records one reply, in the job's chat. -/
theorem replies_answered {db : Database} {m : Message} (hm : db.jobRow m.id = some m)
    (t : Text) (hchat : (db.chats.find? m.chatId).isSome) (j : Int) :
    (db.answered m t hchat).replies j =
      db.replies j ++ if m.id = j then [db.replyRow m t] else [] := by
  unfold answered
  rw [replies_update, replies_add]
  · congr 1
    by_cases hj : m.id = j <;> simp [hj, replyRow, Message.inReplyTo, Json.get?, Json.members]
  · intro r hr hid
    rw [add_rows, List.mem_append, List.mem_singleton] at hr
    obtain ⟨hmem, -, hjob⟩ := jobRow_eq_some_iff.mp hm
    rcases hr with hr | rfl
    · rw [db.messages.eq_of_key_eq hr hmem (by simpa using hid)]
      exact isJob_sender hjob
    · have := db.idsBelow m hmem
      have hnext : (db.nextId : Int) = m.id := by simpa [replyRow] using hid
      omega

theorem jobRow_rejected (db : Database) (id : Int) (error : String) (result : Option String)
    (j : Int) :
    (db.rejected id error result).jobRow j =
      (db.jobRow j).map fun m =>
        if m.id = id ∧ m.status = .pending then
          assign .failed (failurePayload error result) m
        else m := by
  unfold rejected
  rw [jobRow_update]
  simp

theorem replies_rejected {db : Database} {id : Int} {m : Message}
    (hm : db.jobRow id = some m) (error : String) (result : Option String) (j : Int) :
    (db.rejected id error result).replies j = db.replies j := by
  unfold rejected
  refine replies_update db _ _ (fun r hr hp => ?_) j
  obtain ⟨hmem, hid, hjob⟩ := jobRow_eq_some_iff.mp hm
  simp only [Bool.and_eq_true, decide_eq_true_eq] at hp
  rw [db.messages.eq_of_key_eq hr hmem (hp.1.trans hid.symm)]
  exact isJob_sender hjob

/-- The row a successful `finish` of a job is about was pending. -/
theorem pendingRow_of_finish {db db' : Database} {id : Int} {o : JobOutcome} {m : Message}
    (hm : db.jobRow id = some m) (h : db.finish id o = (.ok (), db')) :
    db.pendingRow id = some m := by
  obtain ⟨m', hp⟩ := Option.isSome_iff_exists.mp (finish_ok_pending h)
  have hfind := (pendingRow_eq_some_iff.mp hp).1
  rw [jobRow_find? hm, Option.some.injEq] at hfind
  rw [hp, hfind]

/-- The `SET payload = …` of a successful `finish`; a success names the reply
row, whose id is the counter's value. -/
def outcomePayload (db : Database) : JobOutcome → Option Json → Option Json
  | .success _ => setPayload "reply_id" (.int db.nextId)
  | .failed error result => failurePayload error result

/-- What a successful `finish` of a job does to the job rows: the job it names gets
the status and the payload of its outcome, and the others stay. -/
theorem jobRow_finish {db db' : Database} {id : Int} {o : JobOutcome} {m : Message}
    (hm : db.jobRow id = some m) (h : db.finish id o = (.ok (), db')) (j : Int) :
    db'.jobRow j =
      if j = id then some (assign o.status (db.outcomePayload o) m) else db.jobRow j := by
  have hid : m.id = id := jobRow_id hm
  subst hid
  have hpending := pendingRow_of_finish hm h
  cases o with
  | success result =>
    obtain ⟨m', hlen, hchat, hp, -, rfl⟩ := finishDone_ok h
    rw [hpending, Option.some.injEq] at hp
    subst hp
    rw [jobRow_answered hm]
    rfl
  | failed error result =>
    rw [finish_failed, finishFailed_eq, hpending] at h
    cases h
    have hs := (pendingRow_eq_some_iff.mp hpending).2
    rw [jobRow_rejected]
    by_cases hj : j = m.id
    · rw [hj, hm, if_pos rfl, Option.map_some, if_pos ⟨rfl, hs⟩]
      rfl
    · rw [if_neg hj]
      cases hrow : db.jobRow j with
      | none => rfl
      | some r =>
        have hr : r.id = j := jobRow_id hrow
        have hne : r.id ≠ m.id := hr ▸ hj
        simp [hne]

/-- A `finish` that succeeded found the job pending, whatever its outcome. -/
theorem jobStatus_of_finish {db db' : Database} {id : Int} {o : JobOutcome}
    (hjob : db.jobStatus id ≠ none) (h : db.finish id o = (.ok (), db')) :
    db.jobStatus id = some .pending := by
  obtain ⟨a, ha⟩ := Option.ne_none_iff_exists'.mp hjob
  obtain ⟨m, hm, -⟩ := jobStatus_eq_some_iff.mp ha
  have hs := (pendingRow_eq_some_iff.mp (pendingRow_of_finish hm h)).2
  rw [jobStatus_of_jobRow hm, hs]

/-- What a successful `finish` of a job does to the statuses of jobs. -/
theorem jobStatus_finish {db db' : Database} {id : Int} {o : JobOutcome}
    (hjob : db.jobStatus id ≠ none) (h : db.finish id o = (.ok (), db')) (j : Int) :
    db'.jobStatus j = if j = id then some o.status else db.jobStatus j := by
  obtain ⟨a, ha⟩ := Option.ne_none_iff_exists'.mp hjob
  obtain ⟨m, hm, -⟩ := jobStatus_eq_some_iff.mp ha
  unfold jobStatus
  rw [jobRow_finish hm h]
  split <;> rfl

/-! ## `requeue_pending` -/

/-- `requeue_pending` puts back every pending job and changes only the status. -/
theorem jobRow_requeuePending (db : Database) (j : Int) :
    db.requeuePending.2.jobRow j =
      (db.jobRow j).map fun m =>
        if m.status = .pending then { m with status := .new } else m := by
  show (db.update _ _ _).1.jobRow j = _
  rw [jobRow_update]
  simp [assign]

theorem jobStatus_requeuePending (db : Database) (j : Int) :
    db.requeuePending.2.jobStatus j =
      if db.jobStatus j = some .pending then some .new else db.jobStatus j := by
  unfold jobStatus
  rw [jobRow_requeuePending]
  cases db.jobRow j with
  | none => rfl
  | some m => by_cases hs : m.status = .pending <;> simp [hs]

end Database

end JobRunner
