import JobRunner.Daemon.Startup
import JobRunner.Worker.Permits

/-!
# One daemon after another

The process may be killed at any point, and started again. What survives is the table: rows
that were being worked on are left `pending`, and the next start puts them back. Messages
arrive whether a daemon runs or not.

- `Daemon`, `Daemon.Step`: the daemon, on or off, and its table.
- `Pool.Step.queue`: a step of the worker, as the queue of jobs sees it.
- `Step.tables`: what a step of the system does to the table.
- `Alive`: the state of a daemon that is on, from its start.
- `restarts_recover`: what holds over any number of lifetimes.
-/

namespace JobRunner

open Transition

/-! ## The system -/

/-- A daemon, whose loops have the type `ℓ`, or the table without one. -/
inductive Daemon (ℓ : Type) where
  | off (db : Database)
  | on (pool : Pool ℓ)

inductive DaemonEvent (ℓ : Type) where
  /-- A user message becomes visible while there is no daemon. -/
  | post (m : Message)
  | reserve (next : Nat)
  /-- A start that comes as far as the worker has put these jobs back. -/
  | start (script : StartScript) (putBack : List Int)
  /-- So has one that fails before. -/
  | startFails (script : StartScript) (putBack : List Int)
  | pool (e : PoolEvent ℓ)
  /-- The process ends, or is killed. -/
  | stop

/-- `requeue_pending` is asked for. -/
def StartScript.Requeues (script : StartScript) : Prop :=
  ∃ config, script.config = .ok config ∧ config.requeuePendingOnStart = true

/-- The jobs that were pending and are waiting again. -/
def putBack (db db' : Database) : List Int :=
  (db.messages.rows.filter fun m =>
    db.jobStatus m.id = some .pending ∧ db'.jobStatus m.id = some .new).map Message.id

/-- A worker with `k` slots, before its first step. -/
def Pool.fresh (ℓ : Type) (db : Database) (k : Nat) : Pool ℓ :=
  ⟨db, k, fun _ => false, fun _ => .ready, []⟩

namespace Daemon

variable {ℓ : Type}

/-- The table. -/
def db : Daemon ℓ → Database
  | off db => db
  | on pool => pool.db

@[simp] theorem off_db (db : Database) : (off db : Daemon ℓ).db = db := rfl

@[simp] theorem on_db (pool : Pool ℓ) : (on pool).db = pool.db := rfl

variable [DecidableEq ℓ]

/-- One step of the system. `run` spawns the worker before it binds the listener, so that the
worker may have begun when that fails. -/
inductive Step : Daemon ℓ → DaemonEvent ℓ → Daemon ℓ → Prop where
  | post (db : Database) (m : Message) (hid : db.messages.find? m.id = none)
      (hchat : (db.chats.find? m.chatId).isSome) (huser : m.sender = .user)
      (hstatus : m.status = .new) : Step (.off db) (.post m) (.off (db.add m hid hchat))
  | reserve (db : Database) (next : Nat) (h : db.nextId ≤ next) :
      Step (.off db) (.reserve next) (.off (db.reserve next h))
  | start (db : Database) (script : StartScript) (root : Option (List DirEntry)) (k : Nat)
      (answer : Except StartError Unit) (w : World) (h : startUp script ⟨db, root⟩ = (answer, w))
      (hworker : answer = .ok () ∨ ∃ err, answer = .error (.listener err)) :
      Step (.off db) (.start script (putBack db w.db)) (.on (.fresh ℓ w.db k))
  | startFails (db : Database) (script : StartScript) (root : Option (List DirEntry))
      (err : StartError) (w : World) (h : startUp script ⟨db, root⟩ = (.error err, w)) :
      Step (.off db) (.startFails script (putBack db w.db)) (.off w.db)
  | pool (p p' : Pool ℓ) (e : PoolEvent ℓ) (h : Pool.Step p e p') : Step (.on p) (.pool e) (.on p')
  | stop (p : Pool ℓ) : Step (.on p) .stop (.off p.db)

end Daemon

namespace DaemonEvent

variable {ℓ : Type}

/-- The row an event claims. -/
def claims : DaemonEvent ℓ → List Int
  | .pool e => (e.claim?.map Prod.snd).toList
  | _ => []

/-- The jobs an event puts back. -/
def returns : DaemonEvent ℓ → List Int
  | .start _ ids | .startFails _ ids => ids
  | _ => []

/-- The outcome of job `j` an event records. -/
def recorded (j : Int) : DaemonEvent ℓ → Option JobOutcome
  | .pool e => e.observe.bind (FleetEvent.recorded j)
  | _ => none

end DaemonEvent

namespace Daemon

variable {ℓ : Type}

/-- The claims along a run. -/
def claimsIn (evs : List (DaemonEvent ℓ)) : List Int := evs.flatMap DaemonEvent.claims

/-- The jobs put back along a run, start by start. -/
def returnsIn (evs : List (DaemonEvent ℓ)) : List Int := evs.flatMap DaemonEvent.returns

/-- The outcomes of job `j` recorded along a run. -/
def recordedIn (j : Int) (evs : List (DaemonEvent ℓ)) : List JobOutcome :=
  evs.filterMap (DaemonEvent.recorded j)

/-- The steps of the worker since the last start. -/
def lifetime (evs : List (DaemonEvent ℓ)) : List (PoolEvent ℓ) :=
  evs.foldl (fun current e =>
    match e with
    | .pool e => current ++ [e]
    | .start _ _ => []
    | _ => current) []

end Daemon

/-- One if somebody has claimed the job, and no start has put it back. -/
def Database.begun (db : Database) (j : Int) : Nat := (db.queue j).taken

theorem Database.begun_eq (db : Database) (j : Int) :
    db.begun j = if db.jobStatus j = none ∨ db.jobStatus j = some .new then 0 else 1 := by
  unfold begun queue
  rcases db.jobStatus j with _ | (_ | _ | _ | _) <;> rfl

/-! ## The worker and the queue of jobs -/

/-- What an event of the worker means for the queue of jobs. -/
def PoolEvent.queue? {ℓ : Type} (e : PoolEvent ℓ) : Option (WorkQueue.Event Int JobStatus) :=
  e.observe.bind FleetEvent.observe

namespace Pool

variable {ℓ : Type} [DecidableEq ℓ] {s t : Pool ℓ} {e : PoolEvent ℓ}

/-- **Step lemma.** A step of the worker moves the jobs as its event says, or not at
all. It is seen as a step of the fleet, and so as one of the queue. -/
theorem Step.queue {f : Fleet ℓ} (h : Step s e t) (hseen : s.SeenAs f) (hheld : f.HeldJobs) :
    Run.Answers WorkQueue.Step s.db.queue t.db.queue e.queue? := by
  obtain ⟨f', hseen', hstep⟩ := h.seenAs hseen
  rw [← hseen.db, ← hseen'.db]
  unfold PoolEvent.queue?
  cases hobs : e.observe with
  | none =>
    rw [hobs] at hstep
    cases hstep
    rfl
  | some d =>
    rw [hobs] at hstep
    exact Fleet.Step.answers hstep hheld

omit [DecidableEq ℓ] in
theorem queue?_ne_recover (e : PoolEvent ℓ) : e.queue? ≠ some .recover := by
  cases e with
  | enqueue m =>
    show (if m.isJob then _ else _) ≠ _
    split <;> rintro ⟨⟩
  | statement l claimed returned => cases claimed <;> rintro ⟨⟩
  | finish l id outcome answer => cases answer <;> rintro ⟨⟩
  | _ => rintro ⟨⟩

omit [DecidableEq ℓ] in
/-- The claims of an event are what the queue sees taken. -/
theorem count_claims (e : PoolEvent ℓ) (j : Int) :
    (DaemonEvent.claims (.pool e)).count j = (e.queue?.map (WorkQueue.Event.takes j)).getD 0 := by
  cases e with
  | enqueue m =>
    show 0 = (Option.map _ (if m.isJob then _ else _)).getD 0
    split <;> rfl
  | statement l claimed returned =>
    cases claimed with
    | none => rfl
    | some id =>
      show [id].count j = if id = j then 1 else 0
      rw [List.count_singleton]
      simp
  | finish l id outcome answer => cases answer <;> rfl
  | _ => rfl

omit [DecidableEq ℓ] in
theorem recorded_queue (e : PoolEvent ℓ) (j : Int) :
    (DaemonEvent.recorded j (.pool e)).map JobOutcome.status =
      e.queue?.bind (WorkQueue.Event.resolution j) := by
  cases e with
  | enqueue m =>
    show none = Option.bind (if m.isJob then _ else _) _
    split <;> rfl
  | statement l claimed returned => cases claimed <;> rfl
  | finish l id outcome answer =>
    cases answer with
    | error => rfl
    | ok u =>
      show (if id = j then some outcome else none : Option _).map _ =
        if id = j then some outcome.status else none
      split <;> rfl
  | _ => rfl

end Pool

/-- A job is pending after a step if it was before, or the step claims it: a worker
puts no job into that state by any other call. -/
theorem Pool.Step.pending_cases {ℓ : Type} [DecidableEq ℓ] {s t : Pool ℓ} {e : PoolEvent ℓ}
    {f : Fleet ℓ} (h : Pool.Step s e t) (hseen : s.SeenAs f) (hheld : f.HeldJobs) {j : Int}
    (hj : t.db.jobStatus j = some .pending) :
    s.db.jobStatus j = some .pending ∨ j ∈ DaemonEvent.claims (.pool e) := by
  have hmove := h.queue hseen hheld
  have hrecover := Pool.queue?_ne_recover e
  have hcount := Pool.count_claims e j
  cases hq : e.queue? with
  | none =>
    rw [hq] at hmove
    left
    exact (phase_injective (congrFun hmove j)).symm.trans hj
  | some q =>
    rw [hq] at hmove hcount
    have hj' : t.db.queue j = .running := phase_eq_running.mpr hj
    have hmove := hmove j
    rw [hj'] at hmove
    generalize hp : s.db.queue j = p at hmove
    cases hmove with
    | take =>
      right
      rw [← List.count_pos_iff, hcount]
      simp [WorkQueue.Event.takes]
    | keep hrunning => exact absurd rfl hrunning
    | other => exact .inl (phase_eq_running.mp hp)

/-! ## Starts -/

/-- Up to the moment it serves, a start has left the table or requeued it, whether
it goes on to serve or fails. -/
theorem startUp_table (s : StartScript) (w : World) :
    (startUp s w).2.db = w.db ∨ (startUp s w).2.db = w.db.requeuePending.2 := by
  unfold startUp
  split
  · exact .inl rfl
  next config hconfig =>
  split
  · exact .inl rfl
  have htable := requeueOnStart_table config s.requeue w.db
  have hor := htable.imp_right And.left
  split
  next hrequeue =>
    rwa [hrequeue] at hor
  next hrequeue =>
    rw [hrequeue] at hor
    split
    · exact hor
    · split <;> exact hor

/-- A start that comes as far as the worker has requeued, if that is asked for. -/
theorem startUp_requeues {s : StartScript} {w w' : World} {answer : Except StartError Unit}
    (h : startUp s w = (answer, w'))
    (hworker : answer = .ok () ∨ ∃ err, answer = .error (.listener err)) (hon : s.Requeues) :
    w'.db = w.db.requeuePending.2 := by
  obtain ⟨config, hconfig, hflag⟩ := hon
  have hbefore {err : StartError} (hanswer : answer = .error err) : err.stage = 6 := by
    rcases hworker with rfl | ⟨err', rfl⟩
    · cases hanswer
    · cases hanswer
      rfl
  unfold startUp at h
  rw [hconfig] at h
  dsimp only at h
  split at h
  · cases h
    cases hbefore rfl
  split at h
  next hrequeue =>
    cases h
    have hstage := requeueOnStart_error hrequeue
    have hlast := hbefore rfl
    omega
  next db hrequeue =>
  have hdb : db = w.db.requeuePending.2 := by
    unfold requeueOnStart at hrequeue
    rw [if_pos hflag] at hrequeue
    cases hfault : s.requeue with
    | none =>
      rw [hfault] at hrequeue
      cases hrequeue
      rfl
    | failed | lost =>
      rw [hfault] at hrequeue
      cases hrequeue
  split at h
  · cases h
    exact hdb
  · split at h
    · cases h
      exact hdb
    · cases h
      exact hdb

/-- A job is put back at most once by a start, and only if it was pending before. -/
theorem count_putBack (db db' : Database) (j : Int) : (putBack db db').count j =
    if db.jobStatus j = some .pending ∧ db'.jobStatus j = some .new then 1 else 0 := by
  have hnodup : (putBack db db').Nodup :=
    db.messages.nodup.sublist (List.filter_sublist.map Message.id)
  have hmem : j ∈ putBack db db' ↔
      db.jobStatus j = some .pending ∧ db'.jobStatus j = some .new := by
    unfold putBack
    rw [List.mem_map]
    constructor
    · rintro ⟨m, hm, rfl⟩
      exact of_decide_eq_true (List.mem_filter.mp hm).2
    · intro h
      obtain ⟨m, hrow, -⟩ := Database.jobStatus_eq_some_iff.mp h.1
      obtain ⟨hm, rfl, -⟩ := Database.jobRow_eq_some_iff.mp hrow
      exact ⟨m, List.mem_filter.mpr ⟨hm, decide_eq_true h⟩, rfl⟩
  split
  next h => exact List.count_eq_one_of_mem hnodup (hmem.mpr h)
  next h => exact List.count_eq_zero.mpr fun hj => h (hmem.mp hj)

/-! ## Steps -/

namespace Daemon

variable {ℓ : Type} [DecidableEq ℓ] {d d' : Daemon ℓ} {evs : List (DaemonEvent ℓ)}
  {e : DaemonEvent ℓ} {db : Database} {p first : Pool ℓ} {k : Nat}

/-- The daemon is on: since its last start the worker has run from `first`, where nothing is
pending if every start requeues. -/
structure Alive (evs : List (DaemonEvent ℓ)) (first : Pool ℓ) (k : Nat) (p : Pool ℓ) : Prop where
  starts : first.Starts k
  run : Run Pool.Step first (lifetime evs) p
  none_pending : (∀ script ids, .start script ids ∈ evs → script.Requeues) →
    ∀ j, first.db.jobStatus j ≠ some .pending

/-- What the table sees of a daemon that is on. -/
theorem Alive.seenAs (h : Alive evs first k p) : ∃ f, p.SeenAs f ∧ f.HeldJobs := by
  obtain ⟨f, hseen, hfleet⟩ := Pool.toFleet h.starts h.run
  exact ⟨f, hseen, Fleet.heldJobs_run hfleet first.startFleet_idle.heldJobs⟩

/-- **Step lemma.** A daemon that is on runs a worker that began with this lifetime,
on the table its start has left. -/
theorem Step.alive (h : Step d e d') (hd : ∀ p, d = .on p → ∃ first k, Alive evs first k p)
    (hd' : d' = .on p) : ∃ first k, Alive (evs ++ [e]) first k p := by
  cases h with
  | post | reserve | startFails | stop => cases hd'
  | start db script root k answer w hstart hworker =>
    cases hd'
    refine ⟨.fresh ℓ w.db k, k, ⟨rfl, fun _ => rfl, rfl⟩, ?_, fun hon j => ?_⟩
    · rw [lifetime, List.foldl_append]
      exact .nil _
    · show w.db.jobStatus j ≠ _
      rw [startUp_requeues hstart hworker (hon script _ (List.mem_append_right _
        (List.mem_singleton_self _))), Database.jobStatus_requeuePending]
      split
      · rintro ⟨⟩
      next h => exact h
  | pool p₀ p' e hstep =>
    cases hd'
    obtain ⟨first, k, halive⟩ := hd p₀ rfl
    refine ⟨first, k, halive.starts, ?_, fun hon => halive.none_pending fun script ids hmem =>
      hon script ids (List.mem_append_left _ hmem)⟩
    rw [lifetime, List.foldl_append]
    exact halive.run.snoc hstep

theorem alive_run (hrun : Run Step (.off db) evs d) :
    ∀ p, d = .on p → ∃ first k, Alive evs first k p := by
  refine hrun.invariant
    (I := fun evs d => ∀ p, d = .on p → ∃ first k, Alive evs first k p) ?_ ?_
  · rintro p ⟨⟩
  · intro evs d e d' hd hstep p hp
    exact hstep.alive hd hp

/-- **Step lemma.** A step moves the jobs as its event says and puts none back, or it is a
start, which leaves the table or requeues it. -/
theorem Step.tables (h : Step d e d') (hd : ∀ p, d = .on p → ∃ first k, Alive evs first k p) :
    (e.returns = [] ∧ ∃ q : Option (WorkQueue.Event Int JobStatus), q ≠ some .recover ∧
      Run.Answers WorkQueue.Step d.db.queue d'.db.queue q ∧
      (∀ j, e.claims.count j = (q.map (WorkQueue.Event.takes j)).getD 0) ∧
      ∀ j, (e.recorded j).map JobOutcome.status = q.bind (WorkQueue.Event.resolution j)) ∨
    e.claims = [] ∧ (∀ j, e.recorded j = none) ∧ e.returns = putBack d.db d'.db ∧
      (d'.db = d.db ∨ d'.db = d.db.requeuePending.2) := by
  cases h with
  | post db m hid hchat huser hstatus =>
    left
    cases hjob : m.isJob with
    | true =>
      exact ⟨rfl, some (.submit m.id), by rintro ⟨⟩, Database.queue_add hid hchat hjob hstatus,
        fun _ => rfl, fun _ => rfl⟩
    | false =>
      exact ⟨rfl, none, by rintro ⟨⟩, Database.queue_add_other hid hchat hjob, fun _ => rfl,
        fun _ => rfl⟩
  | reserve db next h => exact .inl ⟨rfl, none, by rintro ⟨⟩, rfl, fun _ => rfl, fun _ => rfl⟩
  | start db script root k answer w hstart hworker =>
    have htable := startUp_table script ⟨db, root⟩
    rw [hstart] at htable
    exact .inr ⟨rfl, fun _ => rfl, rfl, htable⟩
  | startFails db script root err w hstart =>
    have htable := startUp_table script ⟨db, root⟩
    rw [hstart] at htable
    exact .inr ⟨rfl, fun _ => rfl, rfl, htable⟩
  | pool p p' e hstep =>
    obtain ⟨first, k, halive⟩ := hd p rfl
    obtain ⟨f, hseen, hheld⟩ := halive.seenAs
    exact .inl ⟨rfl, e.queue?, Pool.queue?_ne_recover e, hstep.queue hseen hheld,
      Pool.count_claims e, Pool.recorded_queue e⟩
  | stop p => exact .inl ⟨rfl, none, by rintro ⟨⟩, rfl, fun _ => rfl, fun _ => rfl⟩

/-- A start puts back what it makes waiting again. -/
theorem begun_putBack {db db' : Database} (h : db' = db ∨ db' = db.requeuePending.2) (j : Int) :
    db.begun j = (putBack db db').count j + db'.begun j := by
  rw [count_putBack, Database.begun_eq, Database.begun_eq]
  rcases h with rfl | rfl
  · have hnot : ¬(db'.jobStatus j = some .pending ∧ db'.jobStatus j = some .new) := by
      rintro ⟨hpending, hnew⟩
      rw [hpending] at hnew
      cases hnew
    rw [if_neg hnot, Nat.zero_add]
  · rw [Database.jobStatus_requeuePending]
    by_cases hpending : db.jobStatus j = some .pending
    · simp [hpending]
    · simp [hpending]

/-- The accounts of a job over one step: a claim begins it, a start that puts it
back makes it wait again, and nothing else does either. -/
theorem Step.begun (h : Step d e d') (hd : ∀ p, d = .on p → ∃ first k, Alive evs first k p)
    (j : Int) : e.claims.count j + d.db.begun j = e.returns.count j + d'.db.begun j := by
  rcases h.tables hd with ⟨hreturns, q, hrecover, hmove, hclaims, -⟩ | ⟨hclaims, -, hreturns, hdb⟩
  · rw [hreturns, hclaims, List.count_nil, Nat.zero_add]
    cases q with
    | none =>
      have hsame : d'.db.queue = d.db.queue := hmove
      rw [Database.begun, Database.begun, hsame]
      exact Nat.zero_add _
    | some q => exact (hmove j).takes (by simpa using hrecover)
  · rw [hclaims, hreturns, List.count_nil, Nat.zero_add]
    exact begun_putBack hdb j

/-- Its recorded outcomes over one step: a start adds none, and a step of the worker
adds the one it records. -/
theorem Step.outcome (h : Step d e d') (hd : ∀ p, d = .on p → ∃ first k, Alive evs first k p)
    (j : Int) : (d.db.queue j).outcome ++ (e.recorded j).toList.map JobOutcome.status =
      (d'.db.queue j).outcome := by
  rcases h.tables hd with ⟨-, q, -, hmove, -, hrecorded⟩ | ⟨-, hrecorded, -, hdb⟩
  · rw [← Option.toList_map, hrecorded]
    cases q with
    | none =>
      have hsame : d'.db.queue = d.db.queue := hmove
      rw [hsame]
      exact List.append_nil _
    | some q => exact (hmove j).outcome
  · rw [hrecorded]
    rcases hdb with hdb | hdb
    · rw [hdb]
      exact List.append_nil _
    · rw [hdb]
      exact (Database.queue_requeuePending d.db j).outcome

theorem Step.jobStatus_ne_none (h : Step d e d')
    (hd : ∀ p, d = .on p → ∃ first k, Alive evs first k p) {j : Int}
    (hj : d.db.jobStatus j ≠ none) : d'.db.jobStatus j ≠ none := by
  have hphase : d.db.queue j ≠ .absent := by simpa [Database.queue] using hj
  suffices d'.db.queue j ≠ .absent by simpa [Database.queue] using this
  rcases h.tables hd with ⟨-, q, -, hmove, -⟩ | ⟨-, -, -, hdb⟩
  · cases q with
    | none =>
      have hsame : d'.db.queue = d.db.queue := hmove
      rwa [hsame]
    | some q => exact (hmove j).ne_absent hphase
  · rcases hdb with hdb | hdb
    · rwa [hdb]
    · rw [hdb]
      exact (Database.queue_requeuePending d.db j).ne_absent hphase

/-! ## Lifetimes -/

/-- What is pending, this lifetime has claimed, if its start left nothing pending. -/
theorem Alive.claimed (h : Alive evs first k p) (hnone : ∀ j, first.db.jobStatus j ≠ some .pending)
    {j : Int} (hj : p.db.jobStatus j = some .pending) :
    j ∈ (Pool.claimsOf (lifetime evs)).map Prod.snd := by
  obtain ⟨hstarts, hrun, -⟩ := h
  generalize lifetime evs = pevs at hrun ⊢
  induction hrun with
  | nil => exact absurd hj (hnone j)
  | @snoc p p' pevs e hrun hstep ih =>
    obtain ⟨f, hseen, hfleet⟩ := Pool.toFleet hstarts hrun
    have hheld := Fleet.heldJobs_run hfleet first.startFleet_idle.heldJobs
    rw [Pool.claimsOf, List.filterMap_append, List.map_append, List.mem_append]
    rcases hstep.pending_cases hseen hheld hj with hbefore | hclaims
    · exact .inl (ih hbefore)
    · right
      rw [DaemonEvent.claims, Option.mem_toList] at hclaims
      obtain ⟨c, hc, rfl⟩ := Option.map_eq_some_iff.mp hclaims
      exact List.mem_map_of_mem (List.mem_filterMap.mpr ⟨e, List.mem_singleton_self e, hc⟩)

/-- A lifetime claims no job twice. -/
theorem Alive.nodup (h : Alive evs first k p) :
    ((Pool.claimsOf (lifetime evs)).map Prod.snd).Nodup := by
  obtain ⟨f, -, hfleet⟩ := Pool.toFleet h.starts h.run
  rw [← Pool.claimedIds_observe]
  exact Fleet.claimedIds_nodup first.startFleet_idle.heldJobs hfleet
    (Pool.requeue_not_observed _)

/-- A worker that has come to its end with no failed store call leaves nothing pending. -/
theorem Alive.stopped [Fintype ℓ] (h : Alive evs first k p)
    (hnone : ∀ j, first.db.jobStatus j ≠ some .pending) (hok : ∀ e ∈ lifetime evs, e.Succeeds)
    (hstopped : ∀ l, p.loop l = .stopped) (j : Int) : p.db.jobStatus j ≠ some .pending := by
  intro hj
  have hid := h.claimed hnone hj
  obtain ⟨⟨l, id⟩, hclaim, rfl⟩ := List.mem_map.mp hid
  have hrecord := Pool.stopped_recorded h.starts h.run hok (hstopped l) hclaim
  rcases Pool.claimed_status h.starts h.run hid with ⟨-, hrec⟩ | ⟨⟨a, ha, hterm⟩, -⟩
  · rw [Pool.recordings_observe hok, Pool.sum_ofJob, List.count_eq_zero] at hrec
    exact hrec (List.mem_map_of_mem hrecord)
  · rw [hj] at ha
    cases ha
    cases hterm

/-- **Restarts lose no job, and repeat none without need.** Over any number of lifetimes, each
ended at any point:

- no job disappears;
- a job is claimed once more only after a start has put it back: its claims are as many as
  these starts, and one more once it has begun;
- a job has one recorded outcome if it is finished, and none before;
- a lifetime claims no job twice, and if every start requeues, what is pending is a job that
  the lifetime itself has claimed;
- a worker whose store calls succeed and that has come to its end leaves nothing pending. -/
theorem restarts_recover [Fintype ℓ] (hrun : Run Step (.off db) evs d) :
    (∀ j, db.jobStatus j ≠ none → d.db.jobStatus j ≠ none) ∧
    (∀ j, (claimsIn evs).count j + db.begun j = (returnsIn evs).count j + d.db.begun j) ∧
    (∀ j a, (∀ b, db.jobStatus j = some b → b.isTerminal = false) → d.db.jobStatus j = some a →
      (recordedIn j evs).map JobOutcome.status = if a.isTerminal then [a] else []) ∧
    ∀ p, d = .on p → ((Pool.claimsOf (lifetime evs)).map Prod.snd).Nodup ∧
      ((∀ script ids, .start script ids ∈ evs → script.Requeues) →
        (∀ j, p.db.jobStatus j = some .pending →
          j ∈ (Pool.claimsOf (lifetime evs)).map Prod.snd) ∧
        ((∀ e ∈ lifetime evs, e.Succeeds) → (∀ l, p.loop l = .stopped) →
          ∀ j, p.db.jobStatus j ≠ some .pending)) := by
  have halive := alive_run hrun
  refine ⟨fun j hj => ?_, fun j => ?_, fun j a hfresh ha => ?_, fun p hp => ?_⟩
  · clear halive
    induction hrun with
    | nil => exact hj
    | snoc hrun hstep ih => exact hstep.jobStatus_ne_none (alive_run hrun) ih
  · clear halive
    induction hrun with
    | nil => rfl
    | @snoc d d' evs e hrun hstep ih =>
      have he := hstep.begun (alive_run hrun) j
      simp only [claimsIn, returnsIn, List.flatMap_append, List.count_append] at ih ⊢
      simp only [List.flatMap_cons, List.flatMap_nil, List.append_nil]
      omega
  · have houtcome : (db.queue j).outcome ++ (recordedIn j evs).map JobOutcome.status =
        (d.db.queue j).outcome := by
      clear halive ha
      induction hrun with
      | nil => exact List.append_nil _
      | @snoc d d' evs e hrun hstep ih =>
        rw [← hstep.outcome (alive_run hrun) j, ← ih, recordedIn, recordedIn,
          List.filterMap_append, List.map_append, List.append_assoc]
        cases h : e.recorded j <;> simp [h]
    have hstart : (db.queue j).outcome = [] := by
      unfold Database.queue
      cases hs : db.jobStatus j with
      | none => rfl
      | some b =>
        have hb := hfresh b hs
        cases b <;> first | rfl | cases hb
    rw [hstart, List.nil_append] at houtcome
    rw [houtcome]
    unfold Database.queue
    rw [ha]
    cases a <;> rfl
  · obtain ⟨first, k, h⟩ := halive p hp
    exact ⟨h.nodup, fun hon => ⟨fun j hj => h.claimed (h.none_pending hon) hj,
      fun hok hstopped => h.stopped (h.none_pending hon) hok hstopped⟩⟩

/-- A start at which everything goes well. -/
def plainStart : StartScript := { addressInUse with bind := .ok () }

theorem plainStart_startUp (db : Database) :
    startUp plainStart ⟨db, none⟩ = (.ok (), ⟨db.requeuePending.2, some []⟩) := rfl

/-- The daemon is killed after it has claimed the job, and started again. -/
def killedEvents : List (DaemonEvent Unit) :=
  [.start plainStart [], .pool (.reap ()), .pool (.acquire ()), .pool (.statement () none none),
    .pool (.statement () (some 1) none), .stop, .start plainStart [1]]

theorem killedEvents_run : ∃ p, Run Step (.off unclaimedDb) killedEvents (.on p) ∧
    p.db.jobStatus 1 = some .new := by
  have hrun := Run.cons
      (Step.start unclaimedDb plainStart none 1 _ _ (plainStart_startUp _) (.inl rfl)) <|
    Run.cons (Step.pool _ _ _ (Pool.Step.reap (.fresh Unit _ 1) () rfl)) <|
    Run.cons (Step.pool _ _ _ (Pool.Step.acquire _ () rfl (by decide))) <|
    Run.cons (Step.pool _ _ _ (Pool.Step.statement _ () (.select 4) rfl)) <|
    Run.cons (Step.pool _ _ _ (Pool.Step.statement _ () (.update 1 4) rfl)) <|
    Run.cons (Step.stop _) <|
    Run.single (Step.start _ plainStart none 1 _ _ (plainStart_startUp _) (.inl rfl))
  exact ⟨_, hrun, rfl⟩

/-- The job is waiting again, and has been claimed once. -/
theorem killedEvents_recover : ∃ p : Pool Unit,
    p.db.begun 1 = 0 ∧ (returnsIn killedEvents).count 1 = 1 ∧
      (claimsIn killedEvents).count 1 = (returnsIn killedEvents).count 1 + p.db.begun 1 := by
  obtain ⟨p, hrun, hnew⟩ := killedEvents_run
  refine ⟨p, ?_, by decide, (restarts_recover hrun).2.1 1⟩
  rw [Database.begun_eq, hnew]
  rfl

end Daemon

end JobRunner
