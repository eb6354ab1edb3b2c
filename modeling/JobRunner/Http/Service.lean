import JobRunner.Jobctl.Ask
import JobRunner.Lib.Sessions

/-!
# The HTTP API under concurrent requests (`http.rs`)

Any number of requests are served at once, while workers claim, finish and requeue, and other
clients of the database insert rows. A request runs one statement at a time. A statement can
fail, the answer to the `INSERT` can be lost, and a request whose connection is gone is dropped
where it stands.

- `route`: what a request comes to before its first statement.
- `HttpPc`: where it stands; `HttpPc.Act`, `HttpPc.Own`: its moves.
- `alone_post`: a `POST /jobs` without failures is `postJobs`.
- `inserted_told`: the row that the API inserted tells what was recorded for it.
- `Reading.found`: what the statements of `load_view` find while the system goes on.
-/

open Text Keyed Transition

namespace JobRunner.Http

open Jobctl (viewJson respond ViewPc ViewStands ViewTells ViewMove parseJobId)

/-- `Method`. -/
inductive Method where
  | get
  | post
  | other (name : String)
deriving DecidableEq, Repr

/-- `Request<Incoming>`: its method, its path and its body. -/
structure HttpRequest where
  method : Method
  path : String
  body : RequestBody

/-- The response to an error. -/
def errorResponse (err : ApiError) : Jobctl.Response := respond err.status (.error err)

/-- The response to `GET /health`. -/
def healthy : Jobctl.Response := ⟨200, .obj [("status", .str "ok")]⟩

/-- Where a request stands. -/
inductive HttpPc where
  /-- Not arrived yet. -/
  | idle
  /-- Before the `INSERT` of `POST /jobs`. -/
  | insert (create : CreateJob)
  /-- In `load_view`; `code` is the status of a success. -/
  | view (code : Nat) (id : Int) (view : ViewPc)
  | ended (response : Jobctl.Response)
  /-- The connection was gone before the end. -/
  | dropped

/-- `route`, up to the first statement. -/
def route (parse : List UInt8 → Except String CreateJob) (req : HttpRequest) : HttpPc :=
  if req.method = .get ∧ req.path = "/health" then .ended healthy
  else if req.method = .post ∧ req.path = "/jobs" then
    match readJson parse req.body with
    | .error err => .ended (errorResponse err)
    | .ok create =>
      if trim create.content = "" then
        .ended (errorResponse (.badRequest "content must not be empty"))
      else .insert create
  else if req.method = .get ∧ startsWith "/jobs/" req.path then
    match parseJobId req.path with
    | none => .ended (errorResponse .notFound)
    | some id => .view 200 id .job
  else .ended (errorResponse .notFound)

namespace HttpPc

/-- The answer to the `INSERT` arrives. -/
def inserted : Except StoreError Int → HttpPc
  | .ok id => view 201 id .job
  | .error source => ended (errorResponse (.store source))

/-- The request up to its next statement, which finds the table `db`. -/
def read (db : Database) (code : Nat) (id : Int) (view : ViewPc) : HttpPc :=
  match view.step db id with
  | .inl view => .view code id view
  | .inr answer => ended (respond code answer)

/-- The `INSERT`, and its answer, which may be lost; the connection may be gone meanwhile. -/
inductive Act {ω : Type} : HttpPc → FleetEvent ω → HttpPc → Prop where
  | answered (create : CreateJob) (answer : Except StoreError Int) :
      Act (.insert create) (.insert create.chatId create.content answer) (inserted answer)
  | lost (create : CreateJob) (answer : Except StoreError Int) :
      Act (.insert create) (.insert create.chatId create.content answer)
        (.ended (errorResponse .connection))
  | dropped (create : CreateJob) (answer : Except StoreError Int) :
      Act (.insert create) (.insert create.chatId create.content answer) .dropped

/-- What else can happen to a request. -/
inductive Label where
  | arrive (req : HttpRequest)
  /-- A `SELECT` of `load_view`. -/
  | read
  /-- The next statement fails without effect. -/
  | fail
  | drop

/-- A move of a request that leaves the table as it is. -/
inductive Own {ω : Type} (parse : List UInt8 → Except String CreateJob) (s : Fleet ω) :
    HttpPc → Label → HttpPc → Prop where
  | arrive (req : HttpRequest) : Own parse s .idle (.arrive req) (route parse req)
  | read (code : Nat) (id : Int) (view : ViewPc) :
      Own parse s (.view code id view) .read (read s.db code id view)
  | failInsert (create : CreateJob) :
      Own parse s (.insert create) .fail (.ended (errorResponse .connection))
  | failView (code : Nat) (id : Int) (view : ViewPc) :
      Own parse s (.view code id view) .fail (.ended (errorResponse .connection))
  | dropInsert (create : CreateJob) : Own parse s (.insert create) .drop .dropped
  | dropView (code : Nat) (id : Int) (view : ViewPc) :
      Own parse s (.view code id view) .drop .dropped

end HttpPc

/-- What happens to the daemon: `ρ` are the requests, `ω` the workers. -/
abbrev HttpEvent (ρ ω : Type) := Sessions.Event ρ (FleetEvent ω) HttpPc.Label

/-- The runs of the daemon. -/
abbrev ServiceRun {ρ ω : Type} [DecidableEq ρ] [DecidableEq ω]
    (parse : List UInt8 → Except String CreateJob) (x : Fleet ω × (ρ → HttpPc))
    (evs : List (HttpEvent ρ ω)) (y : Fleet ω × (ρ → HttpPc)) : Prop :=
  Run (Sessions.Step Fleet.Step HttpPc.Act (HttpPc.Own parse)) x evs y

/-- What the client asked for, when it asked for a row to be inserted. -/
structure Creates (parse : List UInt8 → Except String CreateJob) (req : HttpRequest)
    (create : CreateJob) : Prop where
  method : req.method = .post
  path : req.path = "/jobs"
  body : readJson parse req.body = .ok create
  content : trim create.content ≠ ""

/-- The request asks for job `id`. -/
structure Gets (req : HttpRequest) (id : Int) : Prop where
  method : req.method = .get
  path : parseJobId req.path = some id

/-! ## Routing -/

/-- What `route` comes to. Without a statement, the answer is a `200`, a `400` or a `404`. -/
inductive Routed (parse : List UInt8 → Except String CreateJob) (req : HttpRequest) :
    HttpPc → Prop where
  | ended (response : Jobctl.Response)
      (hstatus : response.status ∈ [200, 400, 404]) : Routed parse req (.ended response)
  | create (create : CreateJob) (h : Creates parse req create) : Routed parse req (.insert create)
  | get (id : Int) (h : Gets req id) : Routed parse req (.view 200 id .job)

/-- **The routes.** Every request falls under one of them, and the handler is the
one of that route. -/
theorem route_routed (parse : List UInt8 → Except String CreateJob) (req : HttpRequest) :
    Routed parse req (route parse req) := by
  unfold route
  split
  · exact .ended _ (by decide)
  · split
    next hpost =>
      split
      next err hread =>
        obtain ⟨reason, rfl⟩ := readJson_error hread
        exact .ended _ (show 400 ∈ [200, 400, 404] by decide)
      next create hread =>
        split
        · exact .ended _ (by decide)
        next hcontent => exact .create create ⟨hpost.1, hpost.2, hread, hcontent⟩
    · split
      next hget =>
        split
        · exact .ended _ (by decide)
        next id hid => exact .get id ⟨hget.1, hid⟩
      · exact .ended _ (by decide)

theorem route_status {parse : List UInt8 → Except String CreateJob} {req : HttpRequest}
    {response : Jobctl.Response} (h : route parse req = .ended response) :
    response.status ∈ [200, 400, 404] := by
  have hrouted := route_routed parse req
  rw [h] at hrouted
  cases hrouted with
  | ended _ hstatus => exact hstatus

/-- A request for a job gets to `load_view`. -/
theorem route_get {parse : List UInt8 → Except String CreateJob} {req : HttpRequest} {id : Int}
    (h : Gets req id) : route parse req = .view 200 id .job := by
  have hhealth : req.path ≠ "/health" := by
    intro heq
    have hpath := h.path
    rw [heq, (by decide : parseJobId "/health" = none)] at hpath
    cases hpath
  have hjobs : startsWith "/jobs/" req.path = true := by
    obtain ⟨hsome, -⟩ := Option.filter_eq_some_iff.mp h.path
    obtain ⟨rest, hrest, -⟩ := Option.bind_eq_some_iff.mp hsome
    rw [stripPrefix_eq_some_iff.mp hrest, startsWith_iff, String.toList_append]
    exact List.prefix_append _ _
  unfold route
  rw [if_neg fun hand => hhealth hand.2, if_neg fun hand => ?_, if_pos ⟨h.method, hjobs⟩, h.path]
  rw [h.method] at hand
  cases hand.1

/-! ## One request alone -/

/-- The statement of a request, which finds the table `db`, with its answer. -/
def HttpPc.next (db : Database) : HttpPc → Database × HttpPc
  | insert create =>
    ((db.insert create.chatId create.content).2,
      inserted (db.insert create.chatId create.content).1)
  | view code id pc => (db, read db code id pc)
  | idle => (db, idle)
  | ended response => (db, ended response)
  | dropped => (db, dropped)

/-- The first statements of a request; `env n` is what the others do before the `n`-th. -/
def HttpPc.alone (env : Nat → Database → Database) : Nat → Nat → Database → HttpPc → HttpPc
  | 0, _, _, k => k
  | fuel + 1, n, db, k => alone env fuel (n + 1) (k.next (env n db)).1 (k.next (env n db)).2

theorem HttpPc.alone_ended (env : Nat → Database → Database) (response : Jobctl.Response) :
    ∀ fuel n db, HttpPc.alone env fuel n db (.ended response) = .ended response
  | 0, _, _ => rfl
  | fuel + 1, n, db => HttpPc.alone_ended env response fuel (n + 1) (env n db)

/-- The response as it is sent. -/
def sent (response : ApiResponse) : Jobctl.Response :=
  match response.body with
  | .ok v => ⟨response.status, viewJson v⟩
  | .error text => ⟨response.status, .obj [("error", .str text)]⟩

/-- The read-back of `postJobs` takes two statements at most. -/
theorem alone_view (env : Nat → Database → Database) (n : Nat) (id : Int) (db : Database) :
    HttpPc.alone env 2 n db (.view 201 id .job) =
      .ended (sent (Posted.response
        ⟨(readView env (fun _ => .none) n id db).1, (readView env (fun _ => .none) n id db).2,
          some id⟩)) := by
  rw [HttpPc.alone, readView, if_pos rfl]
  simp only [HttpPc.next, HttpPc.read, ViewPc.step, Database.get_eq]
  cases (env n db).jobRow id with
  | none => rfl
  | some m =>
    simp only [Option.map_some]
    cases ((env n db).toJob m).replyId with
    | none => rfl
    | some replyId => rfl

/-- Without failures, a `POST /jobs` is `postJobs`: three statements at most. What
is proved of the handler as one function so holds of its statements one by one. -/
theorem alone_post (parse : List UInt8 → Except String CreateJob)
    (env : Nat → Database → Database) (body : RequestBody) (db : Database) :
    HttpPc.alone env 3 0 db (route parse ⟨.post, "/jobs", body⟩) =
      .ended (sent (postJobs env (fun _ => .none) parse body db).response) := by
  have hpath : ¬ ((⟨.post, "/jobs", body⟩ : HttpRequest).method = .get ∧
      (⟨.post, "/jobs", body⟩ : HttpRequest).path = "/health") := fun h => by cases h.1
  rw [route, if_neg hpath, if_pos ⟨rfl, rfl⟩, postJobs]
  cases readJson parse body with
  | error err => exact HttpPc.alone_ended _ _ _ _ _
  | ok create =>
    by_cases hcontent : trim create.content = ""
    · simp only [if_pos hcontent]
      exact HttpPc.alone_ended _ _ _ _ _
    simp only [if_neg hcontent]
    rw [HttpPc.alone]
    simp only [HttpPc.next]
    obtain ⟨answer, db₂⟩ := (env 0 db).insert create.chatId create.content
    cases answer with
    | error source => exact HttpPc.alone_ended _ _ _ _ _
    | ok id => exact alone_view env 1 id db₂

/-! ## The rows of the API -/

section Inserted

variable {ω : Type} [DecidableEq ω] {s t : Fleet ω} {evs : List (FleetEvent ω)}

/-- A row is there before an outcome is recorded for it, since `finish` answers `Ok`
only for a row it has found. -/
theorem find?_of_recorded {e : FleetEvent ω} (h : Fleet.Step s e t) {j : Int}
    (hrec : e.recorded j ≠ none) : s.db.messages.find? j ≠ none := by
  obtain ⟨o, ho⟩ := Option.ne_none_iff_exists'.mp hrec
  obtain ⟨w, rfl⟩ := FleetEvent.recorded_eq_some ho
  obtain ⟨m, hm⟩ := Option.isSome_iff_exists.mp (Database.finish_ok_pending h.finished.2)
  rw [(Database.pendingRow_eq_some_iff.mp hm).1]
  exact Option.some_ne_none m

/-- No row is ever removed. -/
theorem find?_ne_none_step {e : FleetEvent ω} (h : Fleet.Step s e t) {j : Int}
    (hj : s.db.messages.find? j ≠ none) : t.db.messages.find? j ≠ none := by
  obtain ⟨m, hm⟩ := Option.ne_none_iff_exists'.mp hj
  obtain ⟨m', hm', -⟩ := h.keepsRows j m hm
  rw [hm']
  exact Option.some_ne_none m'

/-- The insertion of a row, under an id no row had. -/
theorem inserted_step {chatId j : Int} {content : String}
    (h : Fleet.Step s (.insert chatId content (.ok j)) t) :
    s.db.messages.find? j = none ∧
      ∃ hlen, t.db.jobRow j = some ⟨j, chatId, .user, ⟨content, hlen⟩, some 1, none, .new⟩ := by
  generalize hanswer : (Except.ok j : Except StoreError Int) = answer at h
  cases h with
  | insert _ _ =>
    have hinsert : s.db.insert chatId content = (.ok j, (s.db.insert chatId content).2) := by
      rw [hanswer]
    obtain ⟨m, -, -, -, -, -, habsent, -⟩ := Database.insert_ok hinsert
    exact ⟨habsent, Jobctl.insertAgentic_row hinsert⟩

/-- Nothing is recorded for a row that is not there, nor was it ever, as no row is
removed. -/
theorem recordings_of_absent (hrun : Run Fleet.Step s evs t) {j : Int}
    (hj : t.db.messages.find? j = none) : recordings j evs = [] := by
  by_contra hne
  refine hrun.invariant (I := fun evs t => recordings j evs ≠ [] →
    t.db.messages.find? j ≠ none) (fun h => absurd rfl h) ?_ hne hj
  intro evs t e u ih hstep hrec
  rw [recordings_snoc] at hrec
  by_cases hrec' : e.recorded j = none
  · rw [hrec', Option.toList_none, List.append_nil] at hrec
    exact find?_ne_none_step hstep (ih hrec)
  · exact find?_ne_none_step hstep (find?_of_recorded hstep hrec')

omit [DecidableEq ω] in
/-- A step keeps the chat and the prompt of a job. -/
theorem rowMove_keeps {e : FleetEvent ω} {j : Int} {db : Database} {m m' : Message}
    (h : Fleet.RowMove e j db m m') : m'.chatId = m.chatId ∧ m'.content = m.content := by
  cases h <;> exact ⟨rfl, rfl⟩

/-- What the row of job `j` is, from the request that inserted it and from what is recorded. -/
structure Inserted (db : Database) (chatId : Int) (content : String) (j : Int)
    (recorded : List JobOutcome) (m : Message) : Prop where
  row : db.jobRow j = some m
  chatId : m.chatId = chatId
  content : m.content.val = content
  told : Told db m recorded

theorem Inserted.row_eq {db : Database} {chatId j : Int} {content : String}
    {recorded : List JobOutcome} {m m' : Message} (h : Inserted db chatId content j recorded m)
    (hrow : db.jobRow j = some m') : m = m' :=
  Option.some.inj (h.row.symm.trans hrow)

/-- **A row the API inserted tells what was recorded for it**, along every run. The
history before the insert has nothing for it to tell. -/
theorem inserted_told (hrun : Run Fleet.Step s evs t) (hheld : s.HeldJobs) {chatId j : Int}
    {content : String} (hinserted : .insert chatId content (.ok j) ∈ evs) :
    ∃ m, Inserted t.db chatId content j (recordings j evs) m := by
  induction hrun with
  | nil => cases hinserted
  | @snoc t u evs e hrun hstep ih =>
    have hheld' := Fleet.heldJobs_run hrun hheld
    rw [recordings_snoc]
    rcases List.mem_append.mp hinserted with hearlier | hlast
    · obtain ⟨m, hrow, hchat, hcontent, htold⟩ := ih hearlier
      obtain ⟨m', hrow', htold'⟩ := hstep.told hheld' hrow htold
      obtain ⟨m'', hrow'', hmove⟩ := hstep.rowMove hheld' hrow
      rw [hrow', Option.some.injEq] at hrow''
      subst hrow''
      obtain ⟨hchat', hcontent'⟩ := rowMove_keeps hmove
      exact ⟨m', hrow', hchat'.trans hchat, by rw [hcontent', hcontent], htold'⟩
    · -- the row is new, and nothing was recorded for its id
      obtain rfl := List.mem_singleton.mp hlast
      obtain ⟨habsent, hlen, hrow⟩ := inserted_step hstep
      have hnone : recordings j evs = [] := recordings_of_absent hrun habsent
      refine ⟨_, hrow, rfl, rfl, ?_⟩
      rw [hnone]
      exact .unclaimed rfl ⟨rfl, rfl, rfl⟩ rfl

end Inserted

/-! ## One view -/

section View

variable {ω : Type} [DecidableEq ω] {s₀ s t : Fleet ω} {evs : List (FleetEvent ω)} {id : Int}

/-- If the API inserted job `id`, the view is the one of its row, and tells what is recorded. -/
def Tells (evs : List (FleetEvent ω)) (id : Int) (v : JobView) : Prop :=
  ∀ chatId content, .insert chatId content (.ok id) ∈ evs →
    v.job.chatId = chatId ∧ v.job.content = content ∧ ViewTells id (recordings id evs) v

/-- A view in progress. -/
inductive Reading (evs : List (FleetEvent ω)) (db : Database) (id : Int) : ViewPc → Prop where
  | job : Reading evs db id .job
  | reply (found : Job) (replyId : Int) (hrow : db.messages.find? id ≠ none)
      (hid : found.id = id)
      (hfits : ∀ chatId content, .insert chatId content (.ok id) ∈ evs →
        found.chatId = chatId ∧ found.content = content ∧
          ViewStands db id (recordings id evs) (.reply found replyId)) :
      Reading evs db id (.reply found replyId)

/-- What a statement of `load_view` finds. -/
inductive Found (evs : List (FleetEvent ω)) (db : Database) (id : Int) :
    ViewPc ⊕ Except ApiError JobView → Prop where
  | reply (found : Job) (replyId : Int) (h : Reading evs db id (.reply found replyId)) :
      Found evs db id (.inl (.reply found replyId))
  | view (v : JobView) (hid : v.job.id = id) (h : Tells evs id v) : Found evs db id (.inr (.ok v))
  | absent (hnone : ∀ chatId content, .insert chatId content (.ok id) ∉ evs) :
      Found evs db id (.inr (.error .notFound))

/-! The first statement of `load_view` finds no job, one without a reply, or one with a reply. -/

theorem step_job_absent {db : Database} (hrow : db.jobRow id = none) :
    ViewPc.job.step db id = .inr (.error .notFound) := by
  simp only [ViewPc.step, Database.get_eq, hrow, Option.map_none]

theorem step_job_view {db : Database} {m : Message} (hrow : db.jobRow id = some m)
    (hreply : (db.toJob m).replyId = none) :
    ViewPc.job.step db id = .inr (.ok ⟨db.toJob m, none⟩) := by
  simp only [ViewPc.step, Database.get_eq, hrow, Option.map_some, hreply]

theorem step_job_reply {db : Database} {m : Message} {replyId : Int}
    (hrow : db.jobRow id = some m) (hreply : (db.toJob m).replyId = some replyId) :
    ViewPc.job.step db id = .inl (.reply (db.toJob m) replyId) := by
  simp only [ViewPc.step, Database.get_eq, hrow, Option.map_some, hreply]

/-- The first statement, on a row that is there: if the API inserted it, it is the row of the
request, and fits what is recorded. -/
theorem job_move (hrun : Run Fleet.Step s₀ evs s) (hheld : s₀.HeldJobs) {m : Message}
    (hrow : s.db.jobRow id = some m) {chatId : Int} {content : String}
    (hinserted : .insert chatId content (.ok id) ∈ evs) :
    (s.db.toJob m).chatId = chatId ∧ (s.db.toJob m).content = content ∧
      ViewMove s.db id (recordings id evs) .job (ViewPc.job.step s.db id) := by
  obtain ⟨m', hm⟩ := inserted_told hrun hheld hinserted
  obtain rfl := hm.row_eq hrow
  exact ⟨hm.chatId, hm.content, ViewStands.job.step hrow hm.told⟩

/-- **What a statement finds**, from what the view has found before. The cases are
the statements of `load_view`, each with its row there or not. -/
theorem Reading.found (hrun : Run Fleet.Step s₀ evs s) (hheld : s₀.HeldJobs) {view : ViewPc}
    (h : Reading evs s.db id view) : Found evs s.db id (view.step s.db id) := by
  cases h with
  | reply found replyId hrow hid hfits =>
    refine .view _ hid fun chatId content hinserted => ?_
    obtain ⟨m, hm⟩ := inserted_told hrun hheld hinserted
    obtain ⟨hchat, hcontent, hstands⟩ := hfits chatId content hinserted
    have hmove := hstands.step hm.row hm.told
    generalize hnext : (ViewPc.reply found replyId).step s.db id = next at hmove
    cases hmove with
    | view _ v htells =>
      cases hnext
      exact ⟨hchat, hcontent, htells⟩
  | job =>
    cases hrow : s.db.jobRow id with
    | none =>
      rw [step_job_absent hrow]
      refine .absent fun chatId content hinserted => ?_
      obtain ⟨m, hm⟩ := inserted_told hrun hheld hinserted
      have hrow' := hm.row
      rw [hrow] at hrow'
      cases hrow'
    | some m =>
      have hid : (s.db.toJob m).id = id := Database.jobRow_id hrow
      have hfind : s.db.messages.find? id ≠ none := by
        rw [Database.jobRow_find? hrow]
        exact Option.some_ne_none m
      cases hreply : (s.db.toJob m).replyId with
      | none =>
        have hstep := step_job_view hrow hreply
        rw [hstep]
        refine .view _ hid fun chatId content hinserted => ?_
        obtain ⟨hchat, hcontent, hmove⟩ := job_move hrun hheld hrow hinserted
        rw [hstep] at hmove
        cases hmove with
        | view _ _ htells => exact ⟨hchat, hcontent, htells⟩
      | some replyId =>
        have hstep := step_job_reply hrow hreply
        rw [hstep]
        refine .reply _ _ (.reply _ _ hfind hid fun chatId content hinserted => ?_)
        obtain ⟨hchat, hcontent, hmove⟩ := job_move hrun hheld hrow hinserted
        rw [hstep] at hmove
        cases hmove with
        | reply _ _ _ hstands => exact ⟨hchat, hcontent, hstands⟩

/-- A view in progress stays one while the system goes on: a row that was found is
still there, and a reply that was named is still to be read. -/
theorem Reading.step (hrun : Run Fleet.Step s₀ evs s) (hheld : s₀.HeldJobs) {view : ViewPc}
    {e : FleetEvent ω} (hstep : Fleet.Step s e t) (h : Reading evs s.db id view) :
    Reading (evs ++ [e]) t.db id view := by
  cases h with
  | job => exact .job
  | reply found replyId hrow hid hfits =>
    refine .reply found replyId (find?_ne_none_step hstep hrow) hid
      fun chatId content hinserted => ?_
    rcases List.mem_append.mp hinserted with hearlier | hlast
    · obtain ⟨hchat, hcontent, hstands⟩ := hfits chatId content hearlier
      obtain ⟨m, hm⟩ := inserted_told (hrun.snoc hstep) hheld hinserted
      have htold := hm.told
      rw [recordings_snoc] at htold ⊢
      refine ⟨hchat, hcontent, hstands.mono hstep.keepsRows fun o ho => ?_⟩
      rw [ho] at htold
      exact htold.append
    · -- the row was there before, so this is not its insertion
      obtain rfl := List.mem_singleton.mp hlast
      exact absurd (inserted_step hstep).1 hrow

end View

end JobRunner.Http
