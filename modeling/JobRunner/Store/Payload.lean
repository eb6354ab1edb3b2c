import JobRunner.Store.Effects

/-!
# The `payload` codec: what `finish` writes and `get` reads

`finish` records its bookkeeping with
`JSON_SET(COALESCE(payload, JSON_OBJECT()), '$.key', …)` and `TryFrom<JobRow>`
reads it back with `Value::get`. The two meet on a column that admits any JSON
value, while `COALESCE` replaces only SQL `NULL` and `JSON_SET` ignores a
`$.key` path on a value that is not an object.

- `setPayload_get_self`, `setPayload_get_other`: the write is read back, and
  every other member is kept.
- `setPayload_of_nonobject`: on any other JSON value nothing is written.
- `finish_recorded_iff`: after a successful `finish` the bookkeeping can be read
  back **exactly when** the payload was `NULL` or an object.
-/

namespace JobRunner

open Keyed

namespace Database

/-! ## One `JSON_SET` -/

/-- `JSON_SET` of a member of an object, or of `NULL`, is read back. -/
theorem setPayload_get_self {payload : Option Json} (h : payload.all Json.isObject = true)
    (key : String) (v : Json) : (setPayload key v payload).bind (·.get? key) = some v := by
  have hobj : (payload.getD (.obj [])).isObject = true := by
    cases payload with
    | none => rfl
    | some doc => exact h
  exact Json.get?_set_self hobj key v

theorem setPayload_get_other (payload : Option Json) {key k : String} (h : key ≠ k)
    (v : Json) :
    (setPayload key v payload).bind (·.get? k) = payload.bind (·.get? k) := by
  show ((payload.getD (.obj [])).set key v).get? k = _
  rw [Json.get?_set_other _ h]
  cases payload <;> rfl

/-- On a JSON value that is not an object, nothing is written, and `JSON_SET`
reports no error. This is the case the round trip fails on. -/
theorem setPayload_of_nonobject {payload : Option Json}
    (h : payload.all Json.isObject = false) (key : String) (v : Json) :
    setPayload key v payload = payload := by
  cases payload with
  | none => cases h
  | some doc => exact congrArg some (Json.set_nonobject h key v)

theorem get_of_nonobject {payload : Option Json} (h : payload.all Json.isObject = false)
    (key : String) : payload.bind (·.get? key) = none := by
  cases payload with
  | none => cases h
  | some doc => exact Json.get?_nonobject h key

/-! ## The payload of a failure -/

/-- The text of a failure is read back under `error`, with or without a result
beside it. -/
theorem failurePayload_get_error {payload : Option Json}
    (h : payload.all Json.isObject = true) (error : String) (result : Option String) :
    (failurePayload error result payload).bind (·.get? "error") = some (.str error) := by
  cases result with
  | none => exact setPayload_get_self h "error" _
  | some result =>
    show (setPayload "result" _ (setPayload "error" _ payload)).bind _ = _
    rw [setPayload_get_other _ (by decide), setPayload_get_self h]

theorem failurePayload_get_other (payload : Option Json) {k : String} (herror : "error" ≠ k)
    (hresult : "result" ≠ k) (error : String) (result : Option String) :
    (failurePayload error result payload).bind (·.get? k) = payload.bind (·.get? k) := by
  cases result with
  | none => exact setPayload_get_other payload herror _
  | some result =>
    show (setPayload "result" _ (setPayload "error" _ payload)).bind _ = _
    rw [setPayload_get_other _ hresult, setPayload_get_other _ herror]

theorem failurePayload_of_nonobject {payload : Option Json}
    (h : payload.all Json.isObject = false) (error : String) (result : Option String) :
    failurePayload error result payload = payload := by
  cases result with
  | none => exact setPayload_of_nonobject h "error" _
  | some result =>
    show setPayload "result" _ (setPayload "error" _ payload) = payload
    rw [setPayload_of_nonobject h, setPayload_of_nonobject h]

/-! ## `finish`, then `get` -/

/-- The row `finish_done` inserts is the one new row, and its id is the
counter's value. -/
theorem finishDone_inserts {db db' : Database} {id : Int} {result : String} {m : Message}
    (hm : db.jobRow id = some m) (h : db.finish id (.success result) = (.ok (), db')) :
    (db.nextId ≤ intMax) ∧
      ∃ r ∈ db'.messages.rows, r.id = db.nextId ∧ r.sender = .ai ∧ r.content.val = result := by
  have hpending := pendingRow_of_finish hm h
  obtain ⟨m', hlen, hchat, hp, hmax, rfl⟩ := finishDone_ok h
  rw [hpending, Option.some.injEq] at hp
  subst hp
  refine ⟨hmax, db.replyRow m ⟨result, hlen⟩, ?_, rfl, rfl, rfl⟩
  have hmem : db.replyRow m ⟨result, hlen⟩ ∈ (db.answered m ⟨result, hlen⟩ hchat).replies m.id := by
    have hid : m.id = id := jobRow_id hm
    rw [replies_answered (hid ▸ hm), if_pos rfl]
    exact List.mem_append_right _ (List.mem_singleton_self _)
  exact (List.mem_filter.mp hmem).1

/-- What `get` should find after `finish(id, outcome)` on the job row `m`: the id
of the inserted `ai` row or the error, and every other member of the payload. -/
structure Recorded (db db' : Database) (id : Int) (m : Message) (outcome : JobOutcome) :
    Prop where
  reply : ∀ result, outcome = .success result →
    ∃ job r, db'.get id = .ok (some job) ∧ r ∈ db'.messages.rows ∧
      db.messages.find? r.id = none ∧ r.sender = .ai ∧ job.replyId = some r.id
  error : ∀ error result, outcome = .failed error result →
    ∃ job, db'.get id = .ok (some job) ∧ job.error = some error
  members : ∃ m', db'.jobRow id = some m' ∧
    ∀ key v, key ≠ "reply_id" → key ≠ "error" → key ≠ "result" →
      m.payload.bind (·.get? key) = some v → m'.payload.bind (·.get? key) = some v

/-- An outcome keeps every member of the payload that it does not write, so
`requester_is_admin` is still there for a job that runs again. -/
theorem outcomePayload_get_other (db : Database) (o : JobOutcome) (payload : Option Json)
    {key : String} (hreply : key ≠ "reply_id") (herror : key ≠ "error")
    (hresult : key ≠ "result") :
    (db.outcomePayload o payload).bind (·.get? key) = payload.bind (·.get? key) := by
  cases o with
  | success result => exact setPayload_get_other payload hreply.symm _
  | failed error result =>
    exact failurePayload_get_other payload herror.symm hresult.symm error result

/-- An id in the range of `INT` is read back as an `i64`. -/
theorem asI64_of_le {n : Nat} (h : n ≤ intMax) : (Json.int n).asI64 = some (n : Int) := by
  unfold intMax at h
  exact if_pos ⟨by omega, by omega⟩

/-- **The codec round trip.** After a successful `finish` the bookkeeping can be
read back exactly when the payload was SQL `NULL` or a JSON object. -/
theorem finish_recorded_iff {db db' : Database} {id : Int} {outcome : JobOutcome}
    {m : Message} (hm : db.jobRow id = some m)
    (h : db.finish id outcome = (.ok (), db')) :
    Recorded db db' id m outcome ↔ m.payload.all Json.isObject = true := by
  have hrow : db'.jobRow id = some (assign outcome.status (db.outcomePayload outcome) m) := by
    rw [jobRow_finish hm h, if_pos rfl]
  have hget : db'.get id =
      .ok (some (db'.toJob (assign outcome.status (db.outcomePayload outcome) m))) := by
    rw [get_eq, hrow]
    rfl
  constructor
  -- a payload that is no object takes no member
  · intro hrec
    by_contra hobj
    rw [Bool.not_eq_true] at hobj
    cases outcome with
    | success result =>
      obtain ⟨job, r, hjob, -, -, -, hreply⟩ := hrec.reply result rfl
      rw [hget] at hjob
      cases hjob
      have hnone : (setPayload "reply_id" (.int db.nextId) m.payload).bind
          (·.get? "reply_id") = none := by
        rw [setPayload_of_nonobject hobj]
        exact get_of_nonobject hobj _
      simp only [toJob, assign, outcomePayload, hnone] at hreply
      cases hreply
    | failed error result =>
      obtain ⟨job, hjob, herror⟩ := hrec.error error result rfl
      rw [hget] at hjob
      cases hjob
      have hnone : (failurePayload error result m.payload).bind (·.get? "error") = none := by
        rw [failurePayload_of_nonobject hobj]
        exact get_of_nonobject hobj _
      simp only [toJob, assign, outcomePayload, hnone] at herror
      cases herror
  · intro hobj
    refine ⟨?_, ?_, _, hrow, ?_⟩
    · rintro result rfl
      obtain ⟨hmax, r, hmem, hrid, hai, -⟩ := finishDone_inserts hm h
      refine ⟨_, r, hget, hmem, hrid ▸ db.find?_of_nextId_le le_rfl, hai, ?_⟩
      have hsome := setPayload_get_self hobj "reply_id" (.int db.nextId)
      simp only [toJob, assign, outcomePayload, hsome, Option.bind_some, asI64_of_le hmax, hrid]
    · rintro error result rfl
      refine ⟨_, hget, ?_⟩
      simp only [toJob, assign, outcomePayload, failurePayload_get_error hobj,
        Option.bind_some, Json.asStr]
    · intro key v hreply herror hresult hv
      show (db.outcomePayload outcome m.payload).bind _ = _
      rw [outcomePayload_get_other db outcome m.payload hreply herror hresult]
      exact hv

/-- A pending job of chat 7 whose payload column holds `payload`. -/
def pendingJob (payload : Option Json) : Message :=
  ⟨1, 7, .user, ⟨"x", Text.sample_fits⟩, some 1, payload, .pending⟩

theorem pendingJob_chat (payload : Option Json) :
    Chat.id ⟨7, 1, 1⟩ = (pendingJob payload).chatId := rfl

/-- The database that holds only that job. -/
def pendingDb (payload : Option Json) : Database :=
  single ⟨7, 1, 1⟩ (pendingJob payload) (pendingJob_chat payload)

/-- The payload `enqueue` gives the prompt of an administrator. -/
def adminPayload : Option Json := some (.obj [("requester_is_admin", .bool true)])

/-- A job without a payload fails. An administrator's job is answered, and keeps the flag. -/
theorem finish_recorded_null_admin :
    Recorded (pendingDb none) ((pendingDb none).finish 1 (.failed "nope" none)).2 1
      (pendingJob none) (.failed "nope" none) ∧
    Recorded (pendingDb adminPayload) ((pendingDb adminPayload).finish 1 (.success "hi")).2 1
      (pendingJob adminPayload) (.success "hi") ∧
    ((pendingDb adminPayload).finish 1 (.success "hi")).2.get 1 =
      .ok (some ⟨1, 7, "x", .done, some 2, none, some ⟨1, 1, true⟩⟩) :=
  ⟨(finish_recorded_iff rfl rfl).mpr rfl, (finish_recorded_iff rfl rfl).mpr rfl, rfl⟩

/-- The payload `[]` swallows the error: `finish` answers `Ok`, and `get` finds
no error. -/
theorem array_payload_loses_error :
    ¬ ∀ (db db' : Database) (id : Int) (m : Message) (outcome : JobOutcome),
        db.jobRow id = some m → db.finish id outcome = (.ok (), db') →
          Recorded db db' id m outcome := by
  intro hall
  let db := pendingDb (some (.arr []))
  have hrec := hall db (db.finish 1 (.failed "nope" none)).2 1 _ (.failed "nope" none) rfl rfl
  obtain ⟨job, hjob, herror⟩ := hrec.error "nope" none rfl
  have hget : (db.finish 1 (.failed "nope" none)).2.get 1 =
      .ok (some ⟨1, 7, "x", .failed, none, none, some ⟨1, 1, false⟩⟩) := rfl
  rw [hget] at hjob
  cases hjob
  cases herror

end Database

end JobRunner
