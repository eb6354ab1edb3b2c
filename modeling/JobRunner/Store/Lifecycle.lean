import JobRunner.Store.Fleet

/-!
# The life of a job

Every run of workers and clients over one table, from a table without finished
jobs and without replies, keeps the promises of the `status` column and of the
replies.

- `recordings`: the outcomes of a job that a `finish` call answered `Ok` for.
- `Keeps`, `Step.keeps`: what a step that records no answer leaves alone.
- `RepliesMatch`: the replies of a job are its recorded answer, along every run.
- `lifecycle`: the status moves, their finality, the one reply of a job that is
  done and the one `Ok` of `finish`.
-/

namespace JobRunner

open Keyed Transition

/-! ## Replies as texts -/

namespace Database

/-- The chat and the text of every reply to job `j`. -/
def texts (db : Database) (j : Int) : List (Int × String) :=
  (db.replies j).map fun m => (m.chatId, m.content.val)

/-- The chat of job `j`. -/
def chatOf (db : Database) (j : Int) : Option Int :=
  (db.jobRow j).map Message.chatId

/-- Job `j` keeps its chat and its replies. -/
def Keeps (j : Int) (db db' : Database) : Prop :=
  (∀ c, db.chatOf j = some c → db'.chatOf j = some c) ∧ db'.texts j = db.texts j

theorem Keeps.refl (j : Int) (db : Database) : Keeps j db db :=
  ⟨fun _ h => h, rfl⟩

theorem chatOf_update (db : Database) (p : Message → Bool) (status : JobStatus)
    (payload : Option Json → Option Json) (j : Int) :
    (db.update p status payload).1.chatOf j = db.chatOf j := by
  unfold chatOf
  rw [jobRow_update]
  cases db.jobRow j with
  | none => rfl
  | some m =>
    rw [Option.map_some, Option.map_some, Option.map_some]
    split <;> rfl

/-- An update that leaves the payload alone keeps every reply, in its chat and in
its order. -/
theorem texts_update_status (db : Database) (p : Message → Bool) (status : JobStatus) (j : Int) :
    (db.update p status fun payload => payload).1.texts j = db.texts j := by
  unfold texts replies
  rw [update_rows]
  induction db.messages.rows with
  | nil => rfl
  | cons m rows ih =>
    have hsender : (if p m then assign status (fun payload => payload) m else m).sender =
        m.sender := by
      split <;> rfl
    have hreply : (if p m then assign status (fun payload => payload) m else m).inReplyTo =
        m.inReplyTo := by
      split <;> rfl
    have hchat : (if p m then assign status (fun payload => payload) m else m).chatId =
        m.chatId := by
      split <;> rfl
    have hcontent : (if p m then assign status (fun payload => payload) m else m).content =
        m.content := by
      split <;> rfl
    rw [List.map_cons, List.filter_cons, List.filter_cons, hsender, hreply]
    split
    · rw [List.map_cons, List.map_cons, ih, hchat, hcontent]
    · exact ih

theorem keeps_status (db : Database) (p : Message → Bool) (status : JobStatus) (j : Int) :
    Keeps j db (db.update p status fun payload => payload).1 :=
  ⟨fun _ h => (chatOf_update ..).trans h, texts_update_status ..⟩

/-- A new user row is nobody's reply. -/
theorem keeps_add (db : Database) {m : Message} (hid : db.messages.find? m.id = none)
    (hchat : (db.chats.find? m.chatId).isSome) (huser : m.sender = .user) (j : Int) :
    Keeps j db (db.add m hid hchat) := by
  constructor
  · intro c hc
    unfold chatOf at hc ⊢
    rw [jobRow_add]
    by_cases hj : m.id = j
    · subst hj
      unfold jobRow at hc
      rw [hid] at hc
      cases hc
    · rwa [if_neg hj]
  · unfold texts
    rw [replies_add, if_neg (by simp [huser]), List.append_nil]

/-- A recorded failure keeps every reply. -/
theorem keeps_finishFailed {db db' : Database} {id : Int} (hjob : db.jobStatus id ≠ none)
    {error : String} {result : Option String}
    (h : db.finish id (.failed error result) = (.ok (), db')) (j : Int) : Keeps j db db' := by
  have hpend := finish_ok_pending h
  obtain ⟨m, hm, -⟩ := jobStatus_eq_some_iff.mp (jobStatus_of_finish hjob h)
  rw [finish_failed, finishFailed_eq, if_pos hpend] at h
  cases h
  refine ⟨fun c hc => (chatOf_update ..).trans hc, ?_⟩
  unfold texts
  rw [replies_rejected hm]

/-- A recorded answer adds one reply to its own job, in the job's chat, and none to
any other job. No job changes its chat. -/
theorem texts_finishDone {db db' : Database} {id : Int} (hjob : db.jobStatus id ≠ none)
    {result : String} (h : db.finish id (.success result) = (.ok (), db')) :
    ∃ c, db.chatOf id = some c ∧ (∀ j, db'.chatOf j = db.chatOf j) ∧
      ∀ j, db'.texts j = db.texts j ++ if id = j then [(c, result)] else [] := by
  obtain ⟨m, hm, -⟩ := jobStatus_eq_some_iff.mp (jobStatus_of_finish hjob h)
  have hid : m.id = id := jobRow_id hm
  subst hid
  have hpending := pendingRow_of_finish hm h
  obtain ⟨m', hlen, hchat, hp, -, rfl⟩ := finishDone_ok h
  rw [hpending, Option.some.injEq] at hp
  subst hp
  refine ⟨m.chatId, by rw [chatOf, hm]; rfl, fun j => ?_, fun j => ?_⟩
  · unfold chatOf
    rw [jobRow_answered hm]
    split
    · rename_i hj
      rw [hj, hm]
      rfl
    · rfl
  · unfold texts
    rw [replies_answered hm, List.map_append]
    split <;> rfl

end Database

/-! ## Recorded outcomes -/

/-- The outcome of job `j` an event recorded: that of a `finish` that answered
`Ok`. -/
def FleetEvent.recorded {ω : Type} (j : Int) : FleetEvent ω → Option JobOutcome
  | .finish _ id outcome (.ok ()) => if id = j then some outcome else none
  | _ => none

theorem FleetEvent.recorded_of_observe {ω : Type} {e : FleetEvent ω} (h : e.observe = none)
    (j : Int) : e.recorded j = none := by
  cases e with
  | finish w id outcome answer =>
    cases answer with
    | ok u => cases h
    | error err => rfl
  | _ => rfl

/-- The outcomes of job `j` recorded along a run. -/
def recordings {ω : Type} (j : Int) (evs : List (FleetEvent ω)) : List JobOutcome :=
  evs.filterMap (FleetEvent.recorded j)

theorem recordings_snoc {ω : Type} (j : Int) (evs : List (FleetEvent ω)) (e : FleetEvent ω) :
    recordings j (evs ++ [e]) = recordings j evs ++ (e.recorded j).toList := by
  rw [recordings, List.filterMap_append]
  cases h : e.recorded j <;> simp [recordings, h]

theorem FleetEvent.recorded_eq_some {ω : Type} {j : Int} {e : FleetEvent ω} {o : JobOutcome}
    (h : e.recorded j = some o) : ∃ w, e = .finish w j o (.ok ()) := by
  unfold recorded at h
  split at h
  · split at h
    · rename_i w id outcome hid
      cases h
      exact ⟨w, by rw [hid]⟩
    · cases h
  · cases h

/-- The queue sees the recorded outcomes as its resolutions, so what the queue
proves of resolutions holds of `finish` calls that were answered `Ok`. -/
theorem resolutions_observe {ω : Type} (j : Int) (evs : List (FleetEvent ω)) :
    WorkQueue.resolutions j (evs.filterMap FleetEvent.observe) =
      (recordings j evs).map JobOutcome.status := by
  unfold WorkQueue.resolutions recordings
  rw [List.filterMap_filterMap, List.map_filterMap]
  refine List.filterMap_congr fun e _ => ?_
  cases e with
  | insert _ _ answer => cases answer <;> rfl
  | post m =>
    show (if m.isJob then _ else _ : Option _).bind _ = none
    split <;> rfl
  | statement _ claimed => cases claimed <;> rfl
  | finish _ id outcome answer =>
    cases answer with
    | error => rfl
    | ok u =>
      show (if id = j then some outcome.status else none) =
        (if id = j then some outcome else none : Option _).map _
      split <;> rfl
  | reserve | begin | abort | requeue | crash => rfl

namespace Fleet

variable {ω : Type} [DecidableEq ω] {s t : Fleet ω} {evs : List (FleetEvent ω)}

/-- A step that records no answer of job `j` keeps its chat and its replies. -/
theorem Step.keeps {e : FleetEvent ω} (h : Step s e t) (hheld : s.HeldJobs) (j : Int) :
    (∃ result, e.recorded j = some (.success result)) ∨ Database.Keeps j s.db t.db := by
  have heffect := h.tableEffect
  generalize t.db = db at heffect
  cases heffect with
  | stay hobserve => exact .inr (.refl ..)
  | reserve next h => exact .inr (.refl ..)
  | insert chatId content m hid hchat hjob hstatus =>
    exact .inr (Database.keeps_add _ hid hchat (Database.isJob_sender hjob) j)
  | post m hid hchat huser hstatus => exact .inr (Database.keeps_add _ hid hchat huser j)
  | claim w id hnew => exact .inr (Database.keeps_status ..)
  | finish w id outcome db hmem hfin =>
    cases outcome with
    | failed error result => exact .inr (Database.keeps_finishFailed (hheld w id hmem) hfin j)
    | success result =>
      by_cases hj : id = j
      · exact .inl ⟨result, if_pos hj⟩
      · obtain ⟨c, -, hchat, htexts⟩ := Database.texts_finishDone (hheld w id hmem) hfin
        refine .inr ⟨fun c hc => (hchat j).trans hc, ?_⟩
        rw [htexts, if_neg hj, List.append_nil]
  | requeue => exact .inr (Database.keeps_status ..)

/-- A step that records an answer of job `j` adds it to the replies. -/
theorem Step.texts_recorded {e : FleetEvent ω} {j : Int} {result : String} (h : Step s e t)
    (hheld : s.HeldJobs) (hrec : e.recorded j = some (.success result)) :
    s.db.jobStatus j = some .pending ∧
      ∃ c, t.db.chatOf j = some c ∧ t.db.texts j = s.db.texts j ++ [(c, result)] := by
  obtain ⟨w, rfl⟩ := FleetEvent.recorded_eq_some hrec
  obtain ⟨hmem, hfin⟩ := h.finished
  obtain ⟨c, hc, hchat, htexts⟩ := Database.texts_finishDone (hheld w j hmem) hfin
  refine ⟨Database.jobStatus_of_finish (hheld w j hmem) hfin, c, (hchat j).trans hc, ?_⟩
  rw [htexts, if_pos rfl]

/-! ## The history and the replies -/

/-- The table before anything happened: no finished job, no reply, and workers
that hold nothing. -/
structure Fresh (s : Fleet ω) : Prop extends s.Idle where
  unfinished : ∀ j a, s.db.jobStatus j = some a → a.isTerminal = false
  silent : ∀ j, s.db.replies j = []

/-- From a fresh start, the recorded outcomes of a job are what its status says.
This is the history invariant of the queue, carried over by the refinement. -/
theorem Fresh.recordings_status (h : Fresh s) (hrun : Run Step s evs t) (j : Int) :
    (recordings j evs).map JobOutcome.status = (t.db.queue j).outcome := by
  have hstart : (s.db.queue j).outcome = [] := by
    show (phase (s.db.jobStatus j)).outcome = []
    cases hs : s.db.jobStatus j with
    | none => rfl
    | some a =>
      have ha := h.unfinished j a hs
      cases a <;> first | rfl | cases ha
  have happend := WorkQueue.Run.outcome_append (toQueue hrun h.heldJobs) j
  rwa [hstart, List.nil_append, resolutions_observe] at happend

/-- The replies of job `j` are its recorded answer, if there is one. -/
structure RepliesMatch (evs : List (FleetEvent ω)) (db : Database) (j : Int) : Prop where
  answered : ∀ result, .success result ∈ recordings j evs →
    ∃ c, db.chatOf j = some c ∧ db.texts j = [(c, result)]
  silent : (∀ result, .success result ∉ recordings j evs) → db.texts j = []

/-- Replies match the history along every run: a job that was answered has one reply
with that text in its own chat, and every other job has none. -/
theorem Fresh.repliesMatch (h : Fresh s) (hrun : Run Step s evs t) (j : Int) :
    RepliesMatch evs t.db j := by
  induction hrun with
  | nil =>
    refine ⟨fun _ hmem => absurd hmem List.not_mem_nil, fun _ => ?_⟩
    rw [Database.texts, h.silent j]
    rfl
  | @snoc t u evs e hrun hstep ih =>
    have hheld := heldJobs_run hrun h.heldJobs
    by_cases hrec : ∃ result, e.recorded j = some (.success result)
    · -- the job was pending, so nothing had been recorded for it before
      obtain ⟨result, hrec⟩ := hrec
      obtain ⟨hpending, c, hc, htexts⟩ := hstep.texts_recorded hheld hrec
      have hnone : recordings j evs = [] := by
        have hstatus := h.recordings_status hrun j
        rw [Database.queue, hpending] at hstatus
        exact List.map_eq_nil_iff.mp hstatus
      rw [ih.silent (by simp [hnone]), List.nil_append] at htexts
      refine ⟨fun result' hmem => ?_, fun hno => ?_⟩
      · rw [recordings_snoc, hnone, hrec] at hmem
        obtain rfl : result' = result := by simpa using hmem
        exact ⟨c, hc, htexts⟩
      · refine absurd ?_ (hno result)
        rw [recordings_snoc, hrec]
        simp
    · -- no answer of the job was recorded, so its replies are the ones before
      obtain ⟨hchat, htexts⟩ := (hstep.keeps hheld j).resolve_left hrec
      have hsame : ∀ result, .success result ∈ recordings j (evs ++ [e]) ↔
          .success result ∈ recordings j evs := by
        intro result
        rw [recordings_snoc, List.mem_append, Option.mem_toList]
        exact or_iff_left fun hmem => hrec ⟨result, hmem⟩
      refine ⟨fun result hmem => ?_, fun hno => ?_⟩
      · obtain ⟨c, hc, ht⟩ := ih.answered result ((hsame result).mp hmem)
        exact ⟨c, hchat c hc, htexts.trans ht⟩
      · exact htexts.trans (ih.silent fun result hmem => hno result ((hsame result).mpr hmem))

end Fleet

/-! ## Status moves -/

/-- How the status of job `j` may change in an event: `NULL → pending → done` or
`failed`, and `pending → NULL` by a requeue. -/
inductive StatusMove {ω : Type} (e : FleetEvent ω) (j : Int) : JobStatus → JobStatus → Prop where
  | stay (a : JobStatus) : StatusMove e j a a
  | claim (w : ω) (he : e = .statement w (some j)) : StatusMove e j .new .pending
  | finish (w : ω) (o : JobOutcome) (he : e = .finish w j o (.ok ())) :
      StatusMove e j .pending o.status
  | requeue (he : e = .requeue) : StatusMove e j .pending .new

section Observe

variable {ω : Type} {e : FleetEvent ω} {j : Int}

theorem FleetEvent.observe_take (h : e.observe = some (.take j)) :
    ∃ w, e = .statement w (some j) := by
  unfold observe at h
  split at h
  case h_2 => split at h <;> cases h
  case h_3 w id =>
    cases h
    exact ⟨w, rfl⟩
  all_goals cases h

theorem FleetEvent.observe_resolve {a : JobStatus} (h : e.observe = some (.resolve j a)) :
    ∃ w o, e = .finish w j o (.ok ()) ∧ o.status = a := by
  unfold observe at h
  split at h
  case h_2 => split at h <;> cases h
  case h_4 w id o =>
    cases h
    exact ⟨w, o, rfl, rfl⟩
  all_goals cases h

theorem FleetEvent.observe_recover (h : e.observe = some .recover) : e = .requeue := by
  unfold observe at h
  split at h
  case h_2 => split at h <;> cases h
  case h_5 => rfl
  all_goals cases h

end Observe

namespace Fleet

variable {ω : Type} [DecidableEq ω] {s t : Fleet ω} {evs : List (FleetEvent ω)}

/-- **Step lemma.** A status moves along the life of a job, and each move is made by
the event that is allowed to make it. -/
theorem Step.statusMove {e : FleetEvent ω} (h : Step s e t) (hheld : s.HeldJobs) {j : Int}
    {a : JobStatus} (ha : s.db.jobStatus j = some a) :
    ∃ b, t.db.jobStatus j = some b ∧ StatusMove e j a b := by
  have hmove := h.answers hheld
  cases he : e.observe with
  | none =>
    rw [he] at hmove
    have hsame : t.db.queue j = s.db.queue j := congrFun hmove j
    exact ⟨a, (phase_injective hsame).trans ha, .stay a⟩
  | some d =>
    rw [he] at hmove
    have hmove := hmove j
    unfold Database.queue at hmove
    rw [ha] at hmove
    generalize hp : phase (some a) = p, hp' : phase (t.db.jobStatus j) = p' at hmove
    cases hmove with
    | submit => simp at hp
    | take =>
      obtain ⟨w, rfl⟩ := FleetEvent.observe_take he
      obtain rfl : a = .new := by simpa using hp
      exact ⟨.pending, phase_eq_running.mp hp', .claim w rfl⟩
    | resolve st =>
      obtain ⟨w, o, rfl, rfl⟩ := FleetEvent.observe_resolve he
      obtain rfl : a = .pending := by simpa using hp
      exact ⟨o.status, phase_resolved hp', .finish w o rfl⟩
    | recover =>
      obtain rfl := FleetEvent.observe_recover he
      obtain rfl : a = .pending := by simpa using hp
      exact ⟨.new, phase_eq_waiting.mp hp', .requeue rfl⟩
    | keep | other => exact ⟨a, phase_injective (hp'.trans hp.symm), .stay a⟩

/-- A job becomes visible unclaimed, by an insert, whoever made it. -/
theorem Step.jobStatus_appears {e : FleetEvent ω} (h : Step s e t) (hheld : s.HeldJobs)
    {j : Int} {b : JobStatus} (hj : s.db.jobStatus j = none)
    (hb : t.db.jobStatus j = some b) : b = .new ∧ e.observe = some (.submit j) := by
  have hmove := h.answers hheld
  cases he : e.observe with
  | none =>
    rw [he] at hmove
    have hsame : t.db.queue j = s.db.queue j := congrFun hmove j
    have heq := phase_injective hsame
    rw [hj, hb] at heq
    cases heq
  | some d =>
    rw [he] at hmove
    have hmove := hmove j
    unfold Database.queue at hmove
    rw [hj, hb] at hmove
    generalize hp : phase (some b) = p at hmove
    cases hmove with
    | submit => exact ⟨by simpa using hp, rfl⟩
    | keep | other => exact absurd (phase_eq_absent.mp hp) (Option.some_ne_none b)

/-- A finished job stays finished, with the same status. -/
theorem final (hrun : Run Step s evs t) (hheld : s.HeldJobs) {j : Int} {a : JobStatus}
    (ha : s.db.jobStatus j = some a) (hterm : a.isTerminal = true) :
    t.db.jobStatus j = some a := by
  refine phase_resolved (WorkQueue.Run.final (toQueue hrun hheld) ?_)
  show phase (s.db.jobStatus j) = _
  rw [ha, phase_of_isTerminal hterm]

/-- What holds in a state that a run with the events `evs` has reached. -/
structure Lifecycle (evs : List (FleetEvent ω)) (t : Fleet ω) : Prop where
  moves : ∀ e u, Step t e u → ∀ j a, t.db.jobStatus j = some a →
    ∃ b, u.db.jobStatus j = some b ∧ StatusMove e j a b
  appears : ∀ e u, Step t e u → ∀ j b, t.db.jobStatus j = none → u.db.jobStatus j = some b →
    b = .new
  final : ∀ evs' u, Run Step t evs' u → ∀ j a, t.db.jobStatus j = some a →
    a.isTerminal = true → u.db.jobStatus j = some a
  answered : ∀ j, t.db.jobStatus j = some .done → ∃ row reply result,
    recordings j evs = [.success result] ∧ t.db.jobRow j = some row ∧
      t.db.replies j = [reply] ∧ reply.chatId = row.chatId ∧ reply.content.val = result
  silent : ∀ j, t.db.jobStatus j ≠ some .done → t.db.replies j = []
  once : ∀ j, (recordings j evs).length ≤ 1

/-- **The life of a job**, along every run from a fresh table. -/
theorem lifecycle (h : Fresh s) (hrun : Run Step s evs t) : Lifecycle evs t where
  moves _ _ hstep _ _ ha := hstep.statusMove (heldJobs_run hrun h.heldJobs) ha
  appears _ _ hstep _ _ hj hb := (hstep.jobStatus_appears (heldJobs_run hrun h.heldJobs) hj hb).1
  final _ _ hrun' _ _ ha hterm := final hrun' (heldJobs_run hrun h.heldJobs) ha hterm
  answered j hdone := by
    have hstatus := h.recordings_status hrun j
    -- a `done` job has exactly one recorded outcome, an answer
    rw [Database.queue, hdone] at hstatus
    obtain ⟨o, hrec, ho⟩ := List.map_eq_singleton_iff.mp hstatus
    cases o with
    | failed error result => cases ho
    | success result =>
      obtain ⟨c, hc, ht⟩ := (h.repliesMatch hrun j).answered result (by simp [hrec])
      obtain ⟨row, hrow, rfl⟩ := Option.map_eq_some_iff.mp hc
      obtain ⟨reply, hreply, heq⟩ := List.map_eq_singleton_iff.mp ht
      rw [Prod.mk.injEq] at heq
      exact ⟨row, reply, result, hrec, hrow, hreply, heq⟩
  silent j hdone := by
    have hstatus := h.recordings_status hrun j
    refine List.map_eq_nil_iff.mp ((h.repliesMatch hrun j).silent fun result hmem => hdone ?_)
    have hmem' : JobStatus.done ∈ (t.db.queue j).outcome := by
      rw [← hstatus]
      exact List.mem_map_of_mem hmem
    unfold Database.queue at hmem'
    cases hp : phase (t.db.jobStatus j) with
    | resolved a =>
      rw [hp, WorkQueue.Phase.outcome, List.mem_singleton] at hmem'
      rw [hmem']
      exact phase_resolved hp
    | absent | waiting | running =>
      rw [hp] at hmem'
      cases hmem'
  once j := by
    have hstatus := congrArg List.length (h.recordings_status hrun j)
    rw [List.length_map] at hstatus
    rw [hstatus]
    exact WorkQueue.Phase.outcome_length_le _

/-- One worker and one unclaimed job. -/
def startFleet : Fleet Unit := ⟨unclaimedDb, fun _ => none, fun _ => []⟩

theorem startFleet_fresh : startFleet.Fresh where
  idle _ := rfl
  empty _ := rfl
  unfinished j a h := by
    obtain ⟨m, hm, rfl⟩ := Database.jobStatus_eq_some_iff.mp h
    obtain ⟨hmem, -, -⟩ := Database.jobRow_eq_some_iff.mp hm
    rw [List.mem_singleton.mp hmem]
    rfl
  silent j := by
    rw [Database.replies_eq_nil_iff]
    intro m hmem hai
    rw [List.mem_singleton.mp hmem] at hai
    cases hai

/-- The worker claims the job and answers it. -/
theorem startFleet_run : ∃ evs t, Run Step startFleet evs t ∧ t.db.jobStatus 1 = some .done := by
  let s₁ := startFleet.setPc () (some .first)
  let s₂ := s₁.proceed () (.select 4)
  let s₃ := s₂.proceed () (.update 1 4)
  let s₄ := s₃.proceed () (.read 1)
  have hrun := Run.cons (Step.begin startFleet () rfl) <|
    Run.cons (Step.statement s₁ () (.select 4) rfl) <|
    Run.cons (Step.statement s₂ () (.update 1 4) rfl) <|
    Run.cons (Step.statement s₃ () (.read 1) rfl) <|
    Run.single (Step.finish s₄ () 1 (.success "hi") (by decide))
  exact ⟨_, _, hrun, rfl⟩

theorem startFleet_answers : ∃ evs t, Run Step startFleet evs t ∧
    t.db.jobStatus 1 = some .done ∧ Lifecycle evs t := by
  obtain ⟨evs, t, hrun, hdone⟩ := startFleet_run
  exact ⟨evs, t, hrun, hdone, lifecycle startFleet_fresh hrun⟩

/-- Two workers and two unclaimed jobs. -/
def pairFleet : Fleet Bool := ⟨twoJobsDb, fun _ => none, fun _ => []⟩

theorem pairFleet_idle : pairFleet.Idle := ⟨fun _ => rfl, fun _ => rfl⟩

end Fleet

end JobRunner
