import JobRunner.Store.ClaimCall

/-!
# Rows that are no jobs

A row that is not an agentic user message is to be left alone by every operation of
the store. `insert` and `claim_next` do that on any table. The `WHERE` clauses of
`finish` and `requeue_pending` ask for a `pending` row and for nothing else, so they
leave such rows alone only as long as none of them is `pending`.

- `Database.Spares`: the rows that are no jobs keep status, payload and content.
- `spares_update`, `not_spares_update`: what an `UPDATE` has to select for it.
- `StoreOp.Strays`: the operation is about to write a row that is no job.
- `spares_iff`: each operation spares the other rows exactly when it does not stray.
-/

namespace JobRunner

open Keyed

namespace Database

/-- Every row that is no job keeps its status, its payload and its content. -/
def Spares (db db' : Database) : Prop :=
  ∀ m ∈ db.messages.rows, m.isJob = false → ∃ m', db'.messages.find? m.id = some m' ∧
    m'.status = m.status ∧ m'.payload = m.payload ∧ m'.content = m.content

theorem Spares.refl (db : Database) : db.Spares db := by
  intro m hm _
  exact ⟨m, Table.find?_eq_some_iff.mpr ⟨hm, rfl⟩, rfl, rfl, rfl⟩

/-- A new row changes no other. -/
theorem spares_add (db : Database) (m : Message) (hid : db.messages.find? m.id = none)
    (hchat : (db.chats.find? m.chatId).isSome) : db.Spares (db.add m hid hchat) := by
  intro r hr _
  have hne : m.id ≠ r.id := fun heq => Table.find?_eq_none_iff.mp hid r hr heq.symm
  refine ⟨r, ?_, rfl, rfl, rfl⟩
  rw [find?_add, if_neg hne]
  exact Table.find?_eq_some_iff.mpr ⟨hr, rfl⟩

theorem find?_update_of_mem {db : Database} {m : Message} (hm : m ∈ db.messages.rows)
    (p : Message → Bool) (status : JobStatus) (payload : Option Json → Option Json) :
    (db.update p status payload).1.messages.find? m.id =
      some (if p m then assign status payload m else m) := by
  rw [find?_update, Table.find?_eq_some_iff.mpr ⟨hm, rfl⟩]
  rfl

/-- An `UPDATE` that selects only jobs spares the rest. The claims of a worker are
of this kind, whatever they find. -/
theorem spares_update {db : Database} {p : Message → Bool} (status : JobStatus)
    (payload : Option Json → Option Json)
    (h : ∀ m ∈ db.messages.rows, p m = true → m.isJob = true) :
    db.Spares (db.update p status payload).1 := by
  intro m hm hjob
  have hp : ¬p m = true := fun hp => by
    rw [h m hm hp] at hjob
    cases hjob
  refine ⟨m, ?_, rfl, rfl, rfl⟩
  rw [find?_update_of_mem hm, if_neg hp]

/-- An `UPDATE` that gives another status to a row that is no job does not. It is
enough that one such row is selected. -/
theorem not_spares_update {db : Database} {p : Message → Bool} {status : JobStatus}
    (payload : Option Json → Option Json) {m : Message} (hm : m ∈ db.messages.rows)
    (hjob : m.isJob = false) (hp : p m = true) (hstatus : status ≠ m.status) :
    ¬db.Spares (db.update p status payload).1 := by
  intro h
  obtain ⟨m', hfind, hsame, -⟩ := h m hm hjob
  rw [find?_update_of_mem hm, if_pos hp, Option.some.injEq] at hfind
  subst hfind
  exact hstatus hsame

theorem mem_of_pendingRow {db : Database} {id : Int} {m : Message}
    (h : db.pendingRow id = some m) :
    m ∈ db.messages.rows ∧ m.id = id ∧ m.status = .pending := by
  obtain ⟨hfind, hstatus⟩ := pendingRow_eq_some_iff.mp h
  obtain ⟨hmem, hid⟩ := Table.find?_eq_some_iff.mp hfind
  exact ⟨hmem, hid, hstatus⟩

/-! ## Claims -/

theorem spares_tryClaim (db : Database) (id : Int) : db.Spares (db.tryClaim id).1 := by
  refine spares_update _ _ fun m _ hp => ?_
  simp only [Bool.and_eq_true] at hp
  exact hp.1.2

/-! ## `finish` -/

/-- What becomes of a row when the pending row `m` is answered. -/
theorem find?_answered {db : Database} {m r : Message} (hr : r ∈ db.messages.rows) (t : Text)
    (hchat : (db.chats.find? m.chatId).isSome) :
    (db.answered m t hchat).messages.find? r.id =
      some (if r.id = m.id then assign .done (setPayload "reply_id" (.int db.nextId)) r
        else r) := by
  have hmem :
      r ∈ (db.add (db.replyRow m t) (db.find?_of_nextId_le le_rfl) hchat).messages.rows := by
    rw [add_rows]
    exact List.mem_append_left _ hr
  unfold answered
  rw [find?_update_of_mem hmem]
  simp

/-- A `finish_done` spares the other rows unless the row it answers is no job. -/
theorem spares_finishDone {db : Database} {id : Int} {m : Message}
    (hm : db.pendingRow id = some m) (result : String) :
    db.Spares (db.finishDone id result).2 ↔
      ¬(m.isJob = false ∧ result.utf8ByteSize ≤ 65535 ∧ db.nextId ≤ intMax) := by
  obtain ⟨hmem, hid, hstatus⟩ := mem_of_pendingRow hm
  rw [finishDone_some hm]
  by_cases hlen : result.utf8ByteSize ≤ 65535
  · by_cases hmax : db.nextId ≤ intMax
    · rw [dif_pos hlen, if_pos hmax]
      constructor
      · rintro h ⟨hjob, -, -⟩
        obtain ⟨m', hfind, hsame, -⟩ := h m hmem hjob
        rw [find?_answered hmem, if_pos rfl, Option.some.injEq] at hfind
        subst hfind
        rw [hstatus] at hsame
        cases hsame
      · intro h r hr hjob
        have hne : r.id ≠ m.id := fun heq => by
          rw [db.messages.eq_of_key_eq hr hmem heq] at hjob
          exact h ⟨hjob, hlen, hmax⟩
        refine ⟨r, ?_, rfl, rfl, rfl⟩
        rw [find?_answered hr, if_neg hne]
    · rw [dif_pos hlen, if_neg hmax]
      exact iff_of_true (.refl db) fun h => hmax h.2.2
  · rw [dif_neg hlen]
    exact iff_of_true (.refl db) fun h => hlen h.2.1

/-- A `finish_failed` spares the other rows unless the row it fails is no job. -/
theorem spares_finishFailed {db : Database} {id : Int} {m : Message}
    (hm : db.pendingRow id = some m) (error : String) (result : Option String) :
    db.Spares (db.finishFailed id error result).2 ↔ m.isJob = true := by
  obtain ⟨hmem, hid, hstatus⟩ := mem_of_pendingRow hm
  rw [finishFailed_eq, hm]
  show db.Spares (db.rejected id error result) ↔ _
  unfold rejected
  constructor
  · intro h
    by_contra hjob
    rw [Bool.not_eq_true] at hjob
    refine not_spares_update _ hmem hjob ?_ ?_ h
    · simp [hid, hstatus]
    · simp [hstatus]
  · intro hjob
    refine spares_update _ _ fun r hr hp => ?_
    simp only [Bool.and_eq_true, decide_eq_true_eq] at hp
    rwa [db.messages.eq_of_key_eq hr hmem (hp.1.trans hid.symm)]

end Database

/-! ## The operations of the daemon -/

/-- A call of the store; `faults` is what becomes of the statements of the claim. -/
inductive StoreOp where
  | insert (chatId : Int) (content : String)
  | claimNext (faults : Nat → Fault)
  | finish (id : Int) (outcome : JobOutcome)
  | requeuePending

/-- The table after the call, with nobody else at work. -/
def StoreOp.run (db : Database) : StoreOp → Database
  | .insert chatId content => (db.insert chatId content).2
  | .claimNext faults => (JobRunner.claimNext (fun _ db => db) faults db).db
  | .finish id outcome => (db.finish id outcome).2
  | .requeuePending => db.requeuePending.2

/-- The call selects a `pending` row that is no job. A `finish` with an answer that
MySQL refuses selects it to no effect. -/
def StoreOp.Strays (db : Database) : StoreOp → Prop
  | .insert _ _ | .claimNext _ => False
  | .finish id (.success result) =>
    ∃ m, db.pendingRow id = some m ∧ m.isJob = false ∧ result.utf8ByteSize ≤ 65535 ∧
      db.nextId ≤ intMax
  | .finish id (.failed _ _) => ∃ m, db.pendingRow id = some m ∧ m.isJob = false
  | .requeuePending => ∃ m ∈ db.messages.rows, m.isJob = false ∧ m.status = .pending

namespace Database

theorem spares_insert (db : Database) (chatId : Int) (content : String) :
    db.Spares (db.insert chatId content).2 := by
  cases hins : db.insert chatId content with
  | mk answer db' =>
    cases answer with
    | error err =>
      rw [insert_error hins]
      exact .refl db
    | ok id =>
      obtain ⟨m, hid, hchat, -, -, -, -, rfl⟩ := insert_ok hins
      exact spares_add db m hid hchat

/-- `claim_next` asks for the job filter in its `WHERE` clauses, so it spares the
rest under all faults. -/
theorem spares_claimNext (db : Database) (faults : Nat → Fault) :
    db.Spares (claimNext (fun _ db => db) faults db).db := by
  rcases claimLoop_alone faults claimAttempts 0 db with ⟨-, hdb⟩ | ⟨id, -, -, hdb⟩
  · rw [claimNext, hdb]
    exact .refl db
  · rw [claimNext, hdb]
    exact spares_tryClaim db id

/-- `finish` asks only that the row is pending, so it spares the rest exactly when
it is refused or the pending row of its id is a job. -/
theorem spares_finish (db : Database) (id : Int) (outcome : JobOutcome) :
    db.Spares (db.finish id outcome).2 ↔ ¬(StoreOp.finish id outcome).Strays db := by
  cases hm : db.pendingRow id with
  | none =>
    -- the call is refused
    have hsame : (db.finish id outcome).2 = db := by
      cases hfin : db.finish id outcome with
      | mk answer db' =>
        cases answer with
        | error err => exact finish_error hfin
        | ok u =>
          have hpending := finish_ok_pending hfin
          rw [hm] at hpending
          cases hpending
    rw [hsame]
    refine iff_of_true (.refl db) ?_
    cases outcome <;> simp [StoreOp.Strays, hm]
  | some m =>
    cases outcome with
    | success result =>
      rw [finish_success, spares_finishDone hm]
      simp [StoreOp.Strays, hm]
    | failed error result =>
      rw [finish_failed, spares_finishFailed hm]
      simp [StoreOp.Strays, hm]

/-- `requeue_pending` asks for no job filter, so it spares the rest exactly when
every pending row is a job. -/
theorem spares_requeuePending (db : Database) :
    db.Spares db.requeuePending.2 ↔ ¬StoreOp.requeuePending.Strays db := by
  constructor
  · rintro h ⟨m, hm, hjob, hstatus⟩
    refine not_spares_update _ hm hjob ?_ ?_ h
    · simp [hstatus]
    · simp [hstatus]
  · intro h
    refine spares_update _ _ fun m hm hp => ?_
    by_contra hjob
    rw [Bool.not_eq_true] at hjob
    exact h ⟨m, hm, hjob, by simpa using hp⟩

/-- **The store leaves the rows that are no jobs alone** exactly when it does not
stray. -/
theorem spares_iff (db : Database) (op : StoreOp) : db.Spares (op.run db) ↔ ¬op.Strays db := by
  cases op with
  | insert chatId content => exact iff_of_true (spares_insert db chatId content) id
  | claimNext faults => exact iff_of_true (spares_claimNext db faults) id
  | finish id outcome => exact spares_finish db id outcome
  | requeuePending => exact spares_requeuePending db

/-- A plain chat message, which is no job, whose status is `pending`. -/
def plainPending : Message := ⟨1, 7, .user, ⟨"hi", by decide⟩, none, none, .pending⟩

theorem plainPending_chat : Chat.id ⟨7, 1, 1⟩ = plainPending.chatId := rfl

/-- The table that holds only that message. -/
def plainDb : Database := single ⟨7, 1, 1⟩ plainPending plainPending_chat

/-- `requeue_pending` gives the plain message the status `NULL`. -/
theorem requeue_touches_plain_message :
    ¬∀ (db : Database) (op : StoreOp), db.Spares (op.run db) := by
  intro hall
  obtain ⟨m', hfind, hsame, -⟩ :=
    hall plainDb .requeuePending plainPending (List.mem_singleton_self _) rfl
  have hrow : (StoreOp.requeuePending.run plainDb).messages.find? plainPending.id =
      some { plainPending with status := .new } := rfl
  rw [hrow, Option.some.injEq] at hfind
  subst hfind
  cases hsame

end Database

end JobRunner
