import JobRunner.Http.View
import JobRunner.Lib.Text
import JobRunner.Store.ClaimCall

/-!
# `POST /jobs` (`http.rs`)

The handler parses and validates the body, inserts the row and reads it back. The three
statements are autocommitted, and each can fail, before it takes effect or after; other
parties run theirs in between. Every error becomes a response in `handle`, far from the
insert.

- `readView`: `load_view` with failures; `readView_eq_loadView` is the case without.
- `postJobs`: the arm of `route`; `Posted.response` is what `handle` makes of it.
- `Stranded`: the row is there, and the response does not say so; indexed by its status.
- `post_jobs_error`: an error response leaves a row in exactly these cases, with this status.
-/

open Text

namespace JobRunner

/-- `CreateJob`. -/
structure CreateJob where
  chatId : Int
  content : String

/-- The request's body, as far as it could be read. -/
inductive RequestBody where
  | failed (err : String)
  | bytes (bytes : List UInt8)

/-- `read_json`; `parse` is `serde_json::from_slice` at `CreateJob`. -/
def readJson (parse : List UInt8 → Except String CreateJob) :
    RequestBody → Except ApiError CreateJob
  | .failed err => .error (.badRequest ("could not read body: " ++ err))
  | .bytes bytes =>
    match parse bytes with
    | .ok create => .ok create
    | .error err => .error (.badRequest ("invalid JSON body: " ++ err))

/-- `ApiError::status`. -/
def ApiError.status : ApiError → Nat
  | .notFound => 404
  | .badRequest _ => 400
  | .store _ => 500

/-- How an `ApiError` is displayed. -/
def ApiError.text : ApiError → String
  | .notFound => "not found"
  | .badRequest reason => "bad request: " ++ reason
  | .store _ => "internal error"

/-- A response: its status, and the job or the text of `ErrorBody`. -/
structure ApiResponse where
  status : Nat
  body : Except String JobView

/-- The error of a statement that failed. -/
def ApiError.connection : ApiError := .store (.database .connection)

section Request

variable (env : Nat → Database → Database) (faults : Nat → Fault)

/-- `load_view`, its first statement being the `n`-th of the request. -/
def readView (n : Nat) (id : Int) (db : Database) : Except ApiError JobView × Database :=
  let db₁ := env n db
  if faults n = .none then
    match db₁.get id with
    | .error source => (.error (.store source), db₁)
    | .ok none => (.error .notFound, db₁)
    | .ok (some job) =>
      match job.replyId with
      | none => (.ok ⟨job, none⟩, db₁)
      | some replyId =>
        let db₂ := env (n + 1) db₁
        if faults (n + 1) = .none then (.ok ⟨job, db₂.reply replyId⟩, db₂)
        else (.error .connection, db₂)
  else (.error .connection, db₁)

/-- How a `POST /jobs` ended: the outcome of `route`, the database, and the row that the
`INSERT` of the request added, if it took effect. -/
structure Posted where
  outcome : Except ApiError JobView
  db : Database
  inserted : Option Int

/-- The row that an `insert` added. -/
def insertedId : Except StoreError Int → Option Int
  | .ok id => some id
  | .error _ => none

/-- The `POST /jobs` arm of `route`. `env n` is what the other parties do to the database
before the `n`-th statement of the request, and `faults n` what becomes of that statement. -/
def postJobs (parse : List UInt8 → Except String CreateJob) (body : RequestBody)
    (db : Database) : Posted :=
  match readJson parse body with
  | .error err => ⟨.error err, db, none⟩
  | .ok create =>
    if trim create.content = "" then
      ⟨.error (.badRequest "content must not be empty"), db, none⟩
    else
      let db₁ := env 0 db
      let (answer, db₂) := db₁.insert create.chatId create.content
      match faults 0 with
      | .failed => ⟨.error .connection, db₁, none⟩
      | .lost => ⟨.error .connection, db₂, insertedId answer⟩
      | .none =>
        match answer with
        | .error source => ⟨.error (.store source), db₂, none⟩
        | .ok id =>
          let (outcome, db₃) := readView env faults 1 id db₂
          ⟨outcome, db₃, some id⟩

end Request

/-- `handle`: the response to the request. -/
def Posted.response (p : Posted) : ApiResponse :=
  match p.outcome with
  | .ok view => ⟨201, .ok view⟩
  | .error err => ⟨err.status, .error err.text⟩

/-! ## The read-back -/

section ReadView

variable (env : Nat → Database → Database) (faults : Nat → Fault)

/-- The job cannot be read, with the error of `load_view`: a `SELECT` fails, or the row is no
job any more. -/
inductive Unread (n : Nat) (id : Int) (db : Database) : ApiError → Prop where
  | job (hfault : faults n ≠ .none) : Unread n id db .connection
  | absent (hread : faults n = .none) (hrow : (env n db).jobRow id = none) :
      Unread n id db .notFound
  | reply (m : Message) (replyId : Int) (hread : faults n = .none)
      (hrow : (env n db).jobRow id = some m)
      (hreply : ((env n db).toJob m).replyId = some replyId) (hfault : faults (n + 1) ≠ .none) :
      Unread n id db .connection

variable {env faults} {n : Nat} {id : Int} {db : Database}

/-- Without failures, and with the others' work in between, this is `load_view`. -/
theorem readView_eq_loadView (hn : faults n = .none) (hn' : faults (n + 1) = .none) :
    (readView env faults n id db).1 = loadView (env n db) (env (n + 1) (env n db)) id := by
  rw [readView, loadView]
  simp only [hn, hn', if_true]
  rcases (env n db).get id with source | _ | job
  · rfl
  · rfl
  · rcases hreply : job.replyId with _ | replyId
    · simp [hreply]
    · simp [hreply]

/-- What a read-back can come to: a view, one of the two failed statements, or no
such job. Only the first is answered with the row. -/
theorem readView_cases (env : Nat → Database → Database) (faults : Nat → Fault) (n : Nat)
    (id : Int) (db : Database) :
    (∃ view, (readView env faults n id db).1 = .ok view ∧ view.job.id = id ∧
      ∀ err, ¬ Unread env faults n id db err) ∨
    ∃ err, (readView env faults n id db).1 = .error err ∧ Unread env faults n id db err := by
  by_cases hn : faults n = .none
  swap
  -- the job itself cannot be read
  · refine .inr ⟨.connection, ?_, .job hn⟩
    simp only [readView, if_neg hn]
  simp only [readView, if_pos hn, Database.get_eq]
  rcases hrow : (env n db).jobRow id with _ | m
  · exact .inr ⟨.notFound, rfl, .absent hn hrow⟩
  have hid : m.id = id := Database.jobRow_id hrow
  simp only [Option.map_some]
  -- only a job with a reply takes a second statement
  rcases hreply : ((env n db).toJob m).replyId with _ | replyId
  · refine .inl ⟨_, rfl, hid, fun err hunread => ?_⟩
    cases hunread with
    | job hfault => exact hfault hn
    | absent _ habsent =>
      rw [hrow] at habsent
      cases habsent
    | reply m' replyId _ hrow' hreply' _ =>
      rw [hrow] at hrow'
      cases hrow'
      rw [hreply] at hreply'
      cases hreply'
  by_cases hn' : faults (n + 1) = .none
  · simp only [if_pos hn']
    refine .inl ⟨_, rfl, hid, fun err hunread => ?_⟩
    cases hunread with
    | job hfault => exact hfault hn
    | absent _ habsent =>
      rw [hrow] at habsent
      cases habsent
    | reply _ _ _ _ _ hfault => exact hfault hn'
  · simp only [if_neg hn']
    exact .inr ⟨_, rfl, .reply m replyId hn hrow hreply hn'⟩

end ReadView

/-! ## The whole request -/

section Post

variable (env : Nat → Database → Database) (faults : Nat → Fault)
  (parse : List UInt8 → Except String CreateJob) (body : RequestBody) (db : Database)

/-- The request gets as far as its `INSERT`, which adds the row `id` if it takes effect. -/
structure Inserts (id : Int) (db₂ : Database) : Prop where
  valid : ∃ create, readJson parse body = .ok create ∧ trim create.content ≠ "" ∧
    (env 0 db).insert create.chatId create.content = (.ok id, db₂)

/-- The row of the request is in the table and the response does not say so, with the status
of the response: the answer to the `INSERT` was lost, or a `SELECT` failed, or found no such
job. -/
inductive Stranded : Nat → Prop where
  | lost (id : Int) (db₂ : Database) (hinserts : Inserts env parse body db id db₂)
      (hfault : faults 0 = .lost) : Stranded 500
  | unread (id : Int) (db₂ : Database) (hinserts : Inserts env parse body db id db₂)
      (hfault : faults 0 = .none) (hunread : Unread env faults 1 id db₂ .connection) :
      Stranded 500
  | absent (id : Int) (db₂ : Database) (hinserts : Inserts env parse body db id db₂)
      (hfault : faults 0 = .none) (habsent : Unread env faults 1 id db₂ .notFound) :
      Stranded 404

/-- What a request does, and what it answers. -/
inductive PostEffect : Posted → Prop where
  | refused (reason : String) (hnone : ∀ id db₂, ¬ Inserts env parse body db id db₂) :
      PostEffect ⟨.error (.badRequest reason), db, none⟩
  /-- The `INSERT` fails without effect, or MySQL refuses it. -/
  | failed (source : StoreError)
      (hnone : faults 0 = .failed ∨ ∀ id db₂, ¬ Inserts env parse body db id db₂) :
      PostEffect ⟨.error (.store source), env 0 db, none⟩
  | lost (id : Int) (db₂ : Database) (hinserts : Inserts env parse body db id db₂)
      (hfault : faults 0 = .lost) : PostEffect ⟨.error .connection, db₂, some id⟩
  | unread (id : Int) (db₂ : Database) (err : ApiError)
      (hinserts : Inserts env parse body db id db₂) (hfault : faults 0 = .none)
      (hunread : Unread env faults 1 id db₂ err) :
      PostEffect ⟨.error err, (readView env faults 1 id db₂).2, some id⟩
  | created (id : Int) (db₂ : Database) (view : JobView)
      (hinserts : Inserts env parse body db id db₂) (hfault : faults 0 = .none)
      (hread : ∀ err, ¬ Unread env faults 1 id db₂ err) (hview : view.job.id = id) :
      PostEffect ⟨.ok view, (readView env faults 1 id db₂).2, some id⟩

variable {env faults parse body db}

theorem readJson_error {err : ApiError} (h : readJson parse body = .error err) :
    ∃ reason, err = .badRequest reason := by
  unfold readJson at h
  split at h
  · cases h
    exact ⟨_, rfl⟩
  · split at h
    · cases h
    · cases h
      exact ⟨_, rfl⟩

/-- The insert of a request is the one of its body, so nothing of the other clients
can be taken for it. -/
theorem Inserts.eq {id : Int} {db₂ : Database} {create : CreateJob}
    (h : Inserts env parse body db id db₂) (hread : readJson parse body = .ok create) :
    trim create.content ≠ "" ∧
      (env 0 db).insert create.chatId create.content = (.ok id, db₂) := by
  obtain ⟨create', hread', hcontent, hinsert⟩ := h.valid
  rw [hread] at hread'
  cases hread'
  exact ⟨hcontent, hinsert⟩

/-- **Every way through the request**, in the order of the handler: the body, the
insert with its answer, and the read-back. -/
theorem postJobs_effect :
    PostEffect env faults parse body db (postJobs env faults parse body db) := by
  rw [postJobs]
  rcases hread : readJson parse body with err | create
  · obtain ⟨reason, rfl⟩ := readJson_error hread
    refine .refused reason fun id db₂ h => ?_
    obtain ⟨create, hread', -⟩ := h.valid
    rw [hread] at hread'
    cases hread'
  by_cases hcontent : trim create.content = ""
  · simp only [if_pos hcontent]
    exact .refused _ fun id db₂ h => (h.eq hread).1 hcontent
  simp only [if_neg hcontent]
  rcases hinsert : (env 0 db).insert create.chatId create.content with ⟨source | id, db₂⟩
  · have hnone : ∀ id db₂, ¬ Inserts env parse body db id db₂ := by
      intro id db₂ h
      have hinsert' := (h.eq hread).2
      rw [hinsert] at hinsert'
      cases hinsert'
    -- a refused `INSERT` leaves no row, whatever becomes of its answer
    obtain rfl := Database.insert_error hinsert
    cases faults 0 with
    | none => exact .failed source (.inr hnone)
    | failed => exact .failed _ (.inr hnone)
    | lost => exact .failed _ (.inr hnone)
  · have hinserts : Inserts env parse body db id db₂ := ⟨create, hread, hcontent, hinsert⟩
    cases hfault : faults 0 with
    | failed => exact .failed _ (.inl hfault)
    | lost => exact .lost id db₂ hinserts hfault
    | none =>
      rcases readView_cases env faults 1 id db₂ with
        ⟨view, hview, hid, hread⟩ | ⟨err, herr, hunread⟩
      · show PostEffect _ _ _ _ _ ⟨(readView env faults 1 id db₂).1, _, some id⟩
        rw [hview]
        exact .created id db₂ view hinserts hfault hread hid
      · show PostEffect _ _ _ _ _ ⟨(readView env faults 1 id db₂).1, _, some id⟩
        rw [herr]
        exact .unread id db₂ err hinserts hfault hunread

/-- Two inserts of one request are the same. -/
theorem Inserts.unique {id id' : Int} {db₂ db₂' : Database} (h : Inserts env parse body db id db₂)
    (h' : Inserts env parse body db id' db₂') : id = id' ∧ db₂ = db₂' := by
  obtain ⟨create, hread, -, hinsert⟩ := h.valid
  have hinsert' := (h'.eq hread).2
  rw [hinsert, Prod.mk.injEq, Except.ok.injEq] at hinsert'
  exact hinsert'

/-- A row that cannot be read is stranded, with the status of the error that its
reading ended in. -/
theorem Unread.stranded {id : Int} {db₂ : Database} {err : ApiError}
    (h : Unread env faults 1 id db₂ err) (hinserts : Inserts env parse body db id db₂)
    (hfault : faults 0 = .none) : Stranded env faults parse body db err.status := by
  cases h with
  | job hread => exact .unread id db₂ hinserts hfault (.job hread)
  | absent hread hrow => exact .absent id db₂ hinserts hfault (.absent hread hrow)
  | reply m replyId hread hrow hreply hread' =>
    exact .unread id db₂ hinserts hfault (.reply m replyId hread hrow hreply hread')

theorem readView_alone (faults : Nat → Fault) (n : Nat) (id : Int) (db : Database) :
    (readView (fun _ db => db) faults n id db).2 = db := by
  rw [readView]
  split
  · split
    · rfl
    · rfl
    · split
      · rfl
      · split <;> rfl
  · rfl

/-- With nobody else at work, `inserted` is what the request did to the table. This
is what it stands for while others write as well. -/
theorem postJobs_alone (faults : Nat → Fault) (parse : List UInt8 → Except String CreateJob)
    (body : RequestBody) (db : Database) :
    ((postJobs (fun _ db => db) faults parse body db).inserted = none ∧
      (postJobs (fun _ db => db) faults parse body db).db = db) ∨
    ∃ m hid hchat, (postJobs (fun _ db => db) faults parse body db).inserted = some m.id ∧
      m.isJob = true ∧ m.status = .new ∧
      (postJobs (fun _ db => db) faults parse body db).db = db.add m hid hchat := by
  have heffect : PostEffect (fun _ db => db) faults parse body db
      (postJobs (fun _ db => db) faults parse body db) := postJobs_effect
  generalize postJobs (fun _ db => db) faults parse body db = p at heffect
  have hadds : ∀ {id db₂}, Inserts (fun _ db => db) parse body db id db₂ →
      ∃ m hid hchat, m.id = id ∧ m.isJob = true ∧ m.status = .new ∧ db₂ = db.add m hid hchat := by
    rintro id db₂ ⟨create, -, -, hinsert⟩
    obtain ⟨m, hid, hchat, hm, hjob, hnew, -, hdb⟩ := Database.insert_ok hinsert
    exact ⟨m, hid, hchat, hm, hjob, hnew, hdb⟩
  cases heffect with
  | refused => exact .inl ⟨rfl, rfl⟩
  | failed => exact .inl ⟨rfl, rfl⟩
  | lost id db₂ hinserts hfault =>
    obtain ⟨m, hid, hchat, rfl, hjob, hnew, rfl⟩ := hadds hinserts
    exact .inr ⟨m, hid, hchat, rfl, hjob, hnew, rfl⟩
  | unread id db₂ err hinserts hfault hunread =>
    obtain ⟨m, hid, hchat, rfl, hjob, hnew, rfl⟩ := hadds hinserts
    exact .inr ⟨m, hid, hchat, rfl, hjob, hnew, readView_alone _ _ _ _⟩
  | created id db₂ view hinserts hfault hread hview =>
    obtain ⟨m, hid, hchat, rfl, hjob, hnew, rfl⟩ := hadds hinserts
    exact .inr ⟨m, hid, hchat, rfl, hjob, hnew, readView_alone _ _ _ _⟩

/-- The error of a row that cannot be read is settled by what becomes of the statements. -/
theorem Unread.unique {n : Nat} {id : Int} {db₂ : Database} {err err' : ApiError}
    (h : Unread env faults n id db₂ err) (h' : Unread env faults n id db₂ err') : err = err' := by
  cases h with
  | job hfault =>
    cases h' with
    | job | reply => rfl
    | absent hread _ => exact absurd hread hfault
  | absent hread hrow =>
    cases h' with
    | job hfault => exact absurd hread hfault
    | absent => rfl
    | reply _ _ _ hrow' _ _ =>
      rw [hrow] at hrow'
      cases hrow'
  | reply _ _ hread hrow _ _ =>
    cases h' with
    | job | reply => rfl
    | absent _ hrow' =>
      rw [hrow] at hrow'
      cases hrow'

/-- A stranded row, by the fault of the `INSERT`: either its answer was lost, or the row could
not be read, with the error that sets the status. -/
theorem Stranded.cases {status : Nat} (h : Stranded env faults parse body db status) :
    ∃ id db₂, Inserts env parse body db id db₂ ∧
      ((faults 0 = .lost ∧ status = 500) ∨
        ∃ err, faults 0 = .none ∧ Unread env faults 1 id db₂ err ∧ status = err.status) := by
  cases h with
  | lost id db₂ hinserts hfault => exact ⟨id, db₂, hinserts, .inl ⟨hfault, rfl⟩⟩
  | unread id db₂ hinserts hfault hunread =>
    exact ⟨id, db₂, hinserts, .inr ⟨_, hfault, hunread, rfl⟩⟩
  | absent id db₂ hinserts hfault habsent =>
    exact ⟨id, db₂, hinserts, .inr ⟨_, hfault, habsent, rfl⟩⟩

/-- A stranded row shows in the table, and its status is that of the response. This
is the direction from the faults to the client. -/
theorem PostEffect.of_stranded {p : Posted} {status : Nat}
    (heffect : PostEffect env faults parse body db p)
    (h : Stranded env faults parse body db status) :
    p.inserted ≠ none ∧ p.response.status = status := by
  obtain ⟨id, db₂, hinserts, hhow⟩ := h.cases
  cases heffect with
  | refused reason hnone => exact absurd hinserts (hnone id db₂)
  | failed source hnone =>
    rcases hnone with hfailed | hnone
    · rw [hfailed] at hhow
      rcases hhow with ⟨hlost, -⟩ | ⟨err, hnone, -, -⟩
      · cases hlost
      · cases hnone
    · exact absurd hinserts (hnone id db₂)
  | lost id' db₂' hinserts' hfault =>
    rcases hhow with ⟨-, rfl⟩ | ⟨err, hnone, -, -⟩
    · exact ⟨by simp, rfl⟩
    · rw [hfault] at hnone
      cases hnone
  | unread id' db₂' err hinserts' hfault hunread =>
    obtain ⟨rfl, rfl⟩ := hinserts.unique hinserts'
    rcases hhow with ⟨hlost, -⟩ | ⟨err', -, hunread', rfl⟩
    · rw [hfault] at hlost
      cases hlost
    · obtain rfl := hunread.unique hunread'
      exact ⟨by simp, rfl⟩
  | created id' db₂' view hinserts' hfault hread hview =>
    obtain ⟨rfl, rfl⟩ := hinserts.unique hinserts'
    rcases hhow with ⟨hlost, -⟩ | ⟨err', -, hunread', -⟩
    · rw [hfault] at hlost
      cases hlost
    · exact absurd hunread' (hread err')

/-- A row that the response does not show is stranded. This is the direction from
the client to the faults. -/
theorem PostEffect.stranded {p : Posted} (heffect : PostEffect env faults parse body db p)
    (hstatus : p.response.status ≠ 201) (hinserted : p.inserted ≠ none) :
    ∃ status, Stranded env faults parse body db status := by
  cases heffect with
  | refused | failed => exact absurd rfl hinserted
  | lost id db₂ hinserts hfault => exact ⟨500, .lost id db₂ hinserts hfault⟩
  | unread id db₂ err hinserts hfault hunread =>
    exact ⟨err.status, hunread.stranded hinserts hfault⟩
  | created => exact absurd rfl hstatus

/-- **An error and a row.** For every request body, interference and pattern of failures: a
response other than `201` leaves a row of the request exactly if the answer to the `INSERT`
was lost or the row could not be read back, and the response has the status of that case; a
`400` never leaves one; a `201` is the row's. -/
theorem post_jobs_error (env : Nat → Database → Database) (faults : Nat → Fault)
    (parse : List UInt8 → Except String CreateJob) (body : RequestBody) (db : Database) :
    ((postJobs env faults parse body db).response.status ≠ 201 →
      ((postJobs env faults parse body db).inserted ≠ none ↔
        ∃ status, Stranded env faults parse body db status)) ∧
    (∀ status, Stranded env faults parse body db status →
      (postJobs env faults parse body db).response.status = status) ∧
    ((postJobs env faults parse body db).response.status = 400 →
      (postJobs env faults parse body db).inserted = none) ∧
    ∀ view, (postJobs env faults parse body db).response = ⟨201, .ok view⟩ →
      (postJobs env faults parse body db).inserted = some view.job.id := by
  have heffect : PostEffect env faults parse body db (postJobs env faults parse body db) :=
    postJobs_effect
  generalize postJobs env faults parse body db = p at heffect
  refine ⟨fun hstatus => ⟨heffect.stranded hstatus, fun ⟨_, h⟩ => (heffect.of_stranded h).1⟩,
    fun _ h => (heffect.of_stranded h).2, fun hbad => ?_, fun view hview => ?_⟩
  · by_contra hinserted
    obtain ⟨status, h⟩ := heffect.stranded (by omega) hinserted
    have hstatus := (heffect.of_stranded h).2
    -- no stranded row is answered with a `400`
    cases h <;> omega
  · cases heffect with
    | refused | failed | lost => cases hview
    | unread => cases congrArg ApiResponse.body hview
    | created id db₂ view' hinserts hfault hread hview' =>
      cases hview
      rw [hview']

end Post

/-! ## A prompt that is enqueued twice -/

/-- A prompt for the chat of `unclaimedDb`. -/
def sampleCreate : CreateJob := ⟨7, "Summarise README.md."⟩

/-- The body that carries `sampleCreate`. -/
def sampleCreateBody : List UInt8 :=
  utf8 "\x7b\"chat_id\":7,\"content\":\"Summarise README.md.\"\x7d"

/-- `serde_json::from_slice` on `sampleCreateBody` and on no body. -/
def sampleCreateParse (bytes : List UInt8) : Except String CreateJob :=
  if bytes = sampleCreateBody then .ok sampleCreate
  else .error "EOF while parsing a value at line 1 column 0"

/-- Only the read-back of the first request fails. The client sees `500` and sends the
request again: the prompt is in the table twice. -/
theorem retry_enqueues_twice :
    let body := RequestBody.bytes sampleCreateBody
    let first := postJobs (fun _ db => db) (fun n => if n = 1 then .failed else .none)
      sampleCreateParse body unclaimedDb
    let second := postJobs (fun _ db => db) (fun _ => .none) sampleCreateParse body first.db
    first.response.status = 500 ∧ first.inserted = some 2 ∧ second.response.status = 201 ∧
      second.db.messages.rows.map (·.content.val) =
        ["x", "Summarise README.md.", "Summarise README.md."] := by
  decide +kernel

end JobRunner
