import JobRunner.Store.Lifecycle
import JobRunner.Store.Payload

/-!
# `GET /jobs/{id}` (`http.rs`)

`load_view` reads the job and then, in a second statement, the reply its payload
names. Workers claim, finish and requeue in between. The two reads still fit
together: a reply is written before the job that names it is `done`, no row is ever
deleted, and no statement assigns `content` or `sender`.

- `loadView`: the view from the table of the first read and that of the second.
- `Extends`, `Step.keepsRows`: rows stay, with their sender and their content.
- `RowMove`, `Step.rowMove`: what a step does to the row of a job.
- `Bookkeeping`: what a job's row says about the outcomes recorded for it.
- `view_consistent`: the view of a job, wherever the reads fall.
-/

namespace JobRunner

open Keyed Transition

/-- `JobView`: the row plus the answer text, if any. -/
structure JobView where
  job : Job
  reply : Option String
deriving DecidableEq, Repr

/-- `ApiError`. -/
inductive ApiError where
  | notFound
  | badRequest (reason : String)
  | store (source : StoreError)
deriving DecidableEq, Repr

/-- `load_view`: the job is read from `db₁`, and its reply, later, from `db₂`. -/
def loadView (db₁ db₂ : Database) (id : Int) : Except ApiError JobView :=
  match db₁.get id with
  | .error source => .error (.store source)
  | .ok none => .error .notFound
  | .ok (some job) => .ok ⟨job, job.replyId.bind db₂.reply⟩

theorem loadView_of_jobRow {db₁ : Database} {id : Int} {m : Message}
    (h : db₁.jobRow id = some m) (db₂ : Database) :
    loadView db₁ db₂ id =
      .ok ⟨db₁.toJob m, (db₁.toJob m).replyId.bind db₂.reply⟩ := by
  unfold loadView
  rw [Database.get_eq, h]
  rfl

/-! ## Rows stay -/

namespace Database

/-- Every row is still there, with its sender and its content. -/
def Extends (db db' : Database) : Prop :=
  ∀ k m, db.messages.find? k = some m → ∃ m', db'.messages.find? k = some m' ∧
    m'.sender = m.sender ∧ m'.content = m.content

theorem Extends.refl (db : Database) : db.Extends db := fun _ m h => ⟨m, h, rfl, rfl⟩

theorem Extends.trans {db₁ db₂ db₃ : Database} (h₁ : db₁.Extends db₂)
    (h₂ : db₂.Extends db₃) : db₁.Extends db₃ := by
  intro k m hm
  obtain ⟨m', hm', hsender, hcontent⟩ := h₁ k m hm
  obtain ⟨m'', hm'', hsender', hcontent'⟩ := h₂ k m' hm'
  exact ⟨m'', hm'', hsender'.trans hsender, hcontent'.trans hcontent⟩

theorem extends_add (db : Database) (m : Message) (hid : db.messages.find? m.id = none)
    (hchat : (db.chats.find? m.chatId).isSome) : db.Extends (db.add m hid hchat) := by
  intro k r hr
  refine ⟨r, ?_, rfl, rfl⟩
  rw [find?_add, if_neg, hr]
  rintro rfl
  rw [hid] at hr
  cases hr

theorem extends_update (db : Database) (p : Message → Bool) (status : JobStatus)
    (payload : Option Json → Option Json) :
    db.Extends (db.update p status payload).1 := by
  intro k r hr
  refine ⟨if p r then assign status payload r else r, ?_, ?_, ?_⟩
  · rw [find?_update, hr]
    rfl
  · split <;> rfl
  · split <;> rfl

theorem extends_finish {db db' : Database} {id : Int} {outcome : JobOutcome}
    (h : db.finish id outcome = (.ok (), db')) : db.Extends db' := by
  cases outcome with
  | success result =>
    obtain ⟨m, hlen, hchat, -, -, rfl⟩ := finishDone_ok h
    exact (extends_add db _ _ _).trans (extends_update _ _ _ _)
  | failed error result =>
    have hpending := finish_ok_pending h
    rw [finish_failed, finishFailed_eq, if_pos hpending] at h
    cases h
    exact extends_update db _ _ _

/-- A reply that can be read once can be read ever after, as the same text. This is
why a view may read it in a second statement. -/
theorem Extends.reply {db db' : Database} (h : db.Extends db') {id : Int} {text : String}
    (hreply : db.reply id = some text) : db'.reply id = some text := by
  unfold Database.reply at hreply ⊢
  obtain ⟨m, hm, rfl⟩ := Option.map_eq_some_iff.mp hreply
  obtain ⟨hfind, hai⟩ := Option.filter_eq_some_iff.mp hm
  obtain ⟨m', hm', hsender, hcontent⟩ := h id m hfind
  have hai' : decide (m'.sender = .ai) = true := by rwa [hsender]
  rw [hm', Option.filter_some, if_pos hai', Option.map_some, hcontent]

end Database

namespace Fleet

variable {ω : Type} [DecidableEq ω] {s t : Fleet ω} {evs : List (FleetEvent ω)}

/-- No step removes a row or changes its sender or content, whichever party makes
it. -/
theorem Step.keepsRows {e : FleetEvent ω} (h : Step s e t) : s.db.Extends t.db := by
  have heffect := h.tableEffect
  generalize t.db = db at heffect
  cases heffect with
  | stay | reserve => exact .refl _
  | insert _ _ m hid hchat => exact Database.extends_add _ _ hid hchat
  | post m hid hchat => exact Database.extends_add _ _ hid hchat
  | claim w id hnew => exact Database.extends_update _ _ _ _
  | finish w id outcome db hmem hfin => exact Database.extends_finish hfin
  | requeue => exact Database.extends_update _ _ _ _

theorem keepsRows_run (hrun : Run Step s evs t) : s.db.Extends t.db :=
  hrun.stateInvariant (I := fun u => s.db.Extends u.db) (.refl _)
    fun ht hstep => ht.trans hstep.keepsRows

/-! ## The row of a job -/

/-- What an event does to the row `m` of job `j` in the table `db`. -/
inductive RowMove (e : FleetEvent ω) (j : Int) (db : Database) (m : Message) :
    Message → Prop where
  | stay (hrec : e.recorded j = none) : RowMove e j db m m
  | claim (hrec : e.recorded j = none) (hnew : m.status = .new) :
      RowMove e j db m { m with status := .pending }
  | requeue (hrec : e.recorded j = none) (hpending : m.status = .pending) :
      RowMove e j db m { m with status := .new }
  | finish (o : JobOutcome) (hrec : e.recorded j = some o) (hpending : m.status = .pending) :
      RowMove e j db m (Database.assign o.status (db.outcomePayload o) m)

/-- **Step lemma.** A step moves the row of a job, or leaves it. The moves are a
claim, an outcome and a requeue, and each of them starts from one status. -/
theorem Step.rowMove {e : FleetEvent ω} (h : Step s e t) (hheld : s.HeldJobs) {j : Int}
    {m : Message} (hm : s.db.jobRow j = some m) :
    ∃ m', t.db.jobRow j = some m' ∧ RowMove e j s.db m m' := by
  -- a new row has an id of its own
  have hadd : ∀ (r : Message) (hr : s.db.messages.find? r.id = none)
      (hchat : (s.db.chats.find? r.chatId).isSome), (s.db.add r hr hchat).jobRow j = some m := by
    intro r hr hchat
    have hne : r.id ≠ j := by
      rintro rfl
      rw [Database.jobRow_find? hm] at hr
      cases hr
    rw [Database.jobRow_add, if_neg hne, hm]
  have heffect := h.tableEffect
  generalize t.db = db at heffect
  cases heffect with
  | stay hobserve => exact ⟨m, hm, .stay (FleetEvent.recorded_of_observe hobserve j)⟩
  | reserve next h => exact ⟨m, hm, .stay rfl⟩
  | insert _ _ r hr hchat => exact ⟨m, hadd r hr hchat, .stay rfl⟩
  | post r hr hchat => exact ⟨m, hadd r hr hchat, .stay rfl⟩
  | claim w id hnew =>
    rw [Database.jobRow_tryClaim, hm, Option.map_some]
    refine ⟨_, rfl, ?_⟩
    split
    next hclaim => exact .claim rfl hclaim.2
    · exact .stay rfl
  | finish w id outcome db hmem hfin =>
    by_cases hj : id = j
    · subst hj
      refine ⟨_, ?_, .finish outcome (if_pos rfl) ?_⟩
      · rw [Database.jobRow_finish hm hfin, if_pos rfl]
      · exact (Database.pendingRow_eq_some_iff.mp (Database.pendingRow_of_finish hm hfin)).2
    · -- what is recorded for another job does not touch this row
      obtain ⟨a, ha⟩ := Option.ne_none_iff_exists'.mp (hheld w id hmem)
      obtain ⟨r, hr, -⟩ := Database.jobStatus_eq_some_iff.mp ha
      refine ⟨m, ?_, .stay (if_neg hj)⟩
      rw [Database.jobRow_finish hr hfin, if_neg (Ne.symm hj), hm]
  | requeue =>
    rw [Database.jobRow_requeuePending, hm, Option.map_some]
    refine ⟨_, rfl, ?_⟩
    split
    next hpending => exact .requeue rfl hpending
    · exact .stay rfl

end Fleet

/-! ## What the row says -/

/-- A payload as the chat application may insert it: `NULL`, or an object without the
runner's own keys. -/
structure CleanPayload (payload : Option Json) : Prop where
  object : payload.all Json.isObject = true
  noReply : payload.bind (·.get? "reply_id") = none
  noError : payload.bind (·.get? "error") = none

/-- What the row `m` of a job says about the outcomes recorded for the job. -/
inductive Bookkeeping (db : Database) (m : Message) : List JobOutcome → Prop where
  | unfinished (hterm : m.status.isTerminal = false) (hclean : CleanPayload m.payload) :
      Bookkeeping db m []
  | done (text : String) (replyId : Int) (hdone : m.status = .done)
      (hreplyId : (m.payload.bind (·.get? "reply_id")).bind Json.asI64 = some replyId)
      (hnoError : m.payload.bind (·.get? "error") = none)
      (hreply : db.reply replyId = some text) : Bookkeeping db m [.success text]
  | failed (error : String) (result : Option String) (hfailed : m.status = .failed)
      (hnoReply : m.payload.bind (·.get? "reply_id") = none)
      (herror : m.payload.bind (·.get? "error") = some (.str error)) :
      Bookkeeping db m [.failed error result]

namespace Bookkeeping

variable {db db' : Database} {m : Message} {recorded : List JobOutcome}

/-- A table with the same rows and more says the same. -/
theorem mono (h : Bookkeeping db m recorded) (hdb : db.Extends db') :
    Bookkeeping db' m recorded := by
  cases h with
  | unfinished hterm hclean => exact .unfinished hterm hclean
  | done text replyId hdone hreplyId hnoError hreply =>
    exact .done text replyId hdone hreplyId hnoError (hdb.reply hreply)
  | failed error result hfailed hnoReply herror =>
    exact .failed error result hfailed hnoReply herror

/-- Nothing is recorded yet of a job that is not finished. -/
theorem of_status (h : Bookkeeping db m recorded) (hterm : m.status.isTerminal = false) :
    recorded = [] ∧ CleanPayload m.payload := by
  cases h with
  | unfinished _ hclean => exact ⟨rfl, hclean⟩
  | done text replyId hdone =>
    rw [hdone] at hterm
    cases hterm
  | failed error result hfailed =>
    rw [hfailed] at hterm
    cases hterm

end Bookkeeping

namespace Database

/-- `finish` on a clean row leaves the bookkeeping of the outcome: the status, and
under its member the id of the reply or the text of the error. -/
theorem bookkeeping_finish {db db' : Database} {id : Int} {o : JobOutcome} {m : Message}
    (hm : db.jobRow id = some m) (hclean : CleanPayload m.payload)
    (h : db.finish id o = (.ok (), db')) :
    Bookkeeping db' (assign o.status (db.outcomePayload o) m) [o] := by
  cases o with
  | success result =>
    obtain ⟨hmax, r, hmem, hrid, hai, hcontent⟩ := finishDone_inserts hm h
    refine .done result db.nextId rfl ?_ ?_ ?_
    · show ((setPayload "reply_id" (.int db.nextId) m.payload).bind _).bind _ = _
      rw [setPayload_get_self hclean.object]
      exact asI64_of_le hmax
    · show (setPayload "reply_id" (.int db.nextId) m.payload).bind _ = none
      rw [setPayload_get_other _ (by simp), hclean.noError]
    · have hfind : db'.messages.find? db.nextId = some r :=
        Table.find?_eq_some_iff.mpr ⟨hmem, hrid⟩
      unfold reply
      rw [hfind]
      simp [hai, hcontent]
  | failed error result =>
    refine .failed error result rfl ?_ (failurePayload_get_error hclean.object error result)
    show (failurePayload error result m.payload).bind _ = none
    rw [failurePayload_get_other _ (by simp) (by simp), hclean.noReply]

end Database

namespace Fleet

variable {ω : Type} [DecidableEq ω] {s t : Fleet ω} {evs : List (FleetEvent ω)}

/-- A step keeps the row of a job and the outcomes recorded for it in agreement: it
records an outcome and writes it at once, or does neither. -/
theorem Step.bookkeeping {e : FleetEvent ω} (h : Step s e t) (hheld : s.HeldJobs) {j : Int}
    {m : Message} (hm : s.db.jobRow j = some m) {recorded : List JobOutcome}
    (hbook : Bookkeeping s.db m recorded) :
    ∃ m', t.db.jobRow j = some m' ∧
      Bookkeeping t.db m' (recorded ++ (e.recorded j).toList) := by
  obtain ⟨m', hm', hmove⟩ := h.rowMove hheld hm
  refine ⟨m', hm', ?_⟩
  cases hmove with
  | stay hrec =>
    rw [hrec, Option.toList_none, List.append_nil]
    exact hbook.mono h.keepsRows
  | claim hrec hnew =>
    obtain ⟨rfl, hclean⟩ := hbook.of_status (by rw [hnew]; rfl)
    rw [hrec]
    exact .unfinished rfl hclean
  | requeue hrec hpending =>
    obtain ⟨rfl, hclean⟩ := hbook.of_status (by rw [hpending]; rfl)
    rw [hrec]
    exact .unfinished rfl hclean
  | finish o hrec hpending =>
    obtain ⟨rfl, hclean⟩ := hbook.of_status (by rw [hpending]; rfl)
    rw [hrec]
    obtain ⟨w, rfl⟩ := FleetEvent.recorded_eq_some hrec
    exact Database.bookkeeping_finish hm hclean h.finished.2

/-- From a clean unclaimed row on, the row says what was recorded. -/
theorem bookkeeping_run (hrun : Run Step s evs t) (hheld : s.HeldJobs) {j : Int}
    {m : Message} (hm : s.db.jobRow j = some m) (hnew : m.status = .new)
    (hclean : CleanPayload m.payload) :
    ∃ m', t.db.jobRow j = some m' ∧ Bookkeeping t.db m' (recordings j evs) := by
  have hstart : Bookkeeping s.db m (recordings (ω := ω) j []) :=
    .unfinished (by rw [hnew]; rfl) hclean
  refine (hrun.invariant (I := fun evs u => u.HeldJobs ∧ ∃ m', u.db.jobRow j = some m' ∧
    Bookkeeping u.db m' (recordings j evs)) ⟨hheld, m, hm, hstart⟩ ?_).2
  rintro evs t e u ⟨hheld', m', hm', hbook⟩ hstep
  rw [recordings_snoc]
  exact ⟨hstep.heldJobs hheld', hstep.bookkeeping hheld' hm' hbook⟩

end Fleet

/-! ## The view -/

/-- The view fits the outcomes recorded for the job. -/
structure JobView.Consistent (v : JobView) (recorded : List JobOutcome) : Prop where
  reply_iff : (∃ text, v.reply = some text) ↔ v.job.status = .done
  reply_text : ∀ text, v.reply = some text →
    recorded = [.success text] ∧ v.job.error = none
  error_iff : v.job.error ≠ none ↔ v.job.status = .failed

/-- The job read from `db₁` and the reply from a table with the same rows and more.
The statuses are those of `db₁`, and what came later cannot change the reply they
name. -/
theorem Bookkeeping.consistent {db₁ db₂ : Database} {m : Message}
    {recorded : List JobOutcome} (h : Bookkeeping db₁ m recorded) (hdb : db₁.Extends db₂) :
    JobView.Consistent ⟨db₁.toJob m, (db₁.toJob m).replyId.bind db₂.reply⟩ recorded := by
  cases h with
  | unfinished hterm hclean =>
    -- an unfinished job is neither done nor failed
    have hreply : (db₁.toJob m).replyId = none := by simp [Database.toJob, hclean.noReply]
    have herror : (db₁.toJob m).error = none := by simp [Database.toJob, hclean.noError]
    have hstatus : (db₁.toJob m).status = m.status := rfl
    constructor
    · simp only [hreply, hstatus, Option.bind_none]
      refine iff_of_false (by simp) fun hdone => ?_
      rw [hdone] at hterm
      cases hterm
    · simp [hreply]
    · simp only [herror, hstatus]
      refine iff_of_false (by simp) fun hfailed => ?_
      rw [hfailed] at hterm
      cases hterm
  | done text replyId hdone hreplyId hnoError hreply =>
    have hid : (db₁.toJob m).replyId = some replyId := hreplyId
    have herror : (db₁.toJob m).error = none := by simp [Database.toJob, hnoError]
    have hstatus : (db₁.toJob m).status = .done := hdone
    constructor
    · simp [hid, hdb.reply hreply, hstatus]
    · simp [hid, hdb.reply hreply, herror]
    · simp [herror, hstatus]
  | failed error result hfailed hnoReply herror =>
    have hid : (db₁.toJob m).replyId = none := by simp [Database.toJob, hnoReply]
    have herror' : (db₁.toJob m).error = some error := by
      simp [Database.toJob, herror, Json.asStr]
    have hstatus : (db₁.toJob m).status = .failed := hfailed
    constructor
    · simp [hid, hstatus]
    · simp [hid]
    · simp [herror', hstatus]

namespace Fleet

variable {ω : Type} [DecidableEq ω] {s₀ s t₁ t₂ : Fleet ω}
  {evs₀ evs₁ evs₂ : List (FleetEvent ω)}

/-- **The two reads of a view fit together.** A job is inserted, with a clean
payload, in the course of any run; later the job is read, and later still its reply.
Whatever is claimed, finished or put back in between, the view is one that a single
read could have returned. -/
theorem view_consistent (hidle : s₀.Idle) (hrun₀ : Run Step s₀ evs₀ s) {j : Int} {m : Message}
    (hinserted : s.db.jobRow j = some m) (hnew : m.status = .new)
    (hclean : CleanPayload m.payload) (hrun₁ : Run Step s evs₁ t₁)
    (hrun₂ : Run Step t₁ evs₂ t₂) :
    ∃ v, loadView t₁.db t₂.db j = .ok v ∧ v.Consistent (recordings j evs₁) := by
  have hheld := heldJobs_run hrun₀ hidle.heldJobs
  obtain ⟨m', hm', hbook⟩ := bookkeeping_run hrun₁ hheld hinserted hnew hclean
  exact ⟨_, loadView_of_jobRow hm' _, hbook.consistent (keepsRows_run hrun₂)⟩

/-- Worker `false` claims job 1. -/
def claimEvents : List (FleetEvent Bool) :=
  [.begin false, .statement false none, .statement false (some 1)]

/-- Worker `false` answers job 1. -/
def answerEvents : List (FleetEvent Bool) :=
  [.statement false none, .finish false 1 (.success "hi") (.ok ())]

/-- Worker `true` claims job 2, which is put back. -/
def putBackEvents : List (FleetEvent Bool) :=
  [.begin true, .statement true none, .statement true (some 2), .requeue]

theorem pairFleet_answered : ∃ t₀ t₁ t₂, Run Step pairFleet claimEvents t₀ ∧
    Run Step t₀ answerEvents t₁ ∧ Run Step t₁ putBackEvents t₂ ∧
    t₀.db.jobStatus 1 = some .pending ∧ t₁.db.jobStatus 1 = some .done := by
  have hclaim := Run.cons (Step.begin pairFleet false rfl) <|
    Run.cons (Step.statement _ false (.select 4) rfl) <|
    Run.single (Step.statement _ false (.update 1 4) rfl)
  exact ⟨_, _, _, hclaim,
    Run.cons (Step.statement _ false (.read 1) rfl) <|
    Run.single (Step.finish _ false 1 (.success "hi") (by decide)),
    Run.cons (Step.begin _ true rfl) <|
    Run.cons (Step.statement _ true (.select 4) rfl) <|
    Run.cons (Step.statement _ true (.update 2 4) rfl) <|
    Run.single (Step.requeue _), rfl, rfl⟩

/-- A view of job 1 while it is being answered, and one while job 2 is claimed and put
back. -/
theorem pairFleet_view : ∃ (t₀ t₁ t₂ : Fleet Bool) (v v' : JobView),
    Run Step pairFleet claimEvents t₀ ∧ Run Step t₀ answerEvents t₁ ∧
    Run Step t₁ putBackEvents t₂ ∧
    t₀.db.jobStatus 1 = some .pending ∧ loadView t₀.db t₁.db 1 = .ok v ∧ v.Consistent [] ∧
    t₁.db.jobStatus 1 = some .done ∧ loadView t₁.db t₂.db 1 = .ok v' ∧
      v'.Consistent [.success "hi"] := by
  obtain ⟨t₀, t₁, t₂, hclaim, hanswer, hputBack, hpending, hdone⟩ := pairFleet_answered
  obtain ⟨v, hv, hconsistent⟩ := view_consistent pairFleet_idle (.nil pairFleet)
    (j := 1) rfl rfl ⟨rfl, rfl, rfl⟩ hclaim hanswer
  obtain ⟨v', hv', hconsistent'⟩ := view_consistent pairFleet_idle (.nil pairFleet)
    (j := 1) rfl rfl ⟨rfl, rfl, rfl⟩ (hclaim.append hanswer) hputBack
  exact ⟨t₀, t₁, t₂, v, v', hclaim, hanswer, hputBack, hpending, hv, hconsistent, hdone, hv',
    hconsistent'⟩

end Fleet

end JobRunner
