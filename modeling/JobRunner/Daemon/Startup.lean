import JobRunner.Qbo.Crypto
import JobRunner.Store.ClaimCall
import JobRunner.Store.Payload

/-!
# The start of the daemon (`main.rs`, `workspace.rs`)

`run` reads the configuration, connects, puts `pending` rows back, prepares the
workspace root and sweeps it, builds the QuickBooks broker, spawns the worker and
binds the listener. Each of these can fail, and nothing is undone when a later one
does.

The daemon runs on tokio's current-thread runtime, which polls a spawned task only
when `run` waits. Between `spawn` and the answer of `bind` there is nothing to wait
for, so a worker whose daemon does not get its address has not run a statement.

- `WorkspaceRoot.sweep`: the loop over the directory, entry by entry.
- `SweptFrom`: what it may leave of the entries.
- `startUp`: the whole sequence, with what the world answers as input.
- `RootLeft`, `Leaves`: what a start that failed may have changed, and from which step on.
- `startUp_error_leaves`: it has changed nothing else.
-/

open Text

namespace JobRunner

/-! ## The workspace root -/

/-- An entry of the workspace root, with what lies under it. -/
structure DirEntry where
  name : List UInt8
  isDir : Bool
  files : List String
deriving DecidableEq, Repr

/-- `DIR_PREFIX`. -/
def dirPrefix : String := "job-"

/-- `is_ours`: a name that is not UTF-8 is not ours. -/
def DirEntry.isOurs (e : DirEntry) : Bool :=
  match fromUtf8 e.name with
  | none => false
  | some name => dirPrefix.toList.isPrefixOf name.toList

/-- A directory the runner may have made. -/
def DirEntry.isWorkspace (e : DirEntry) : Bool := e.isOurs && e.isDir

/-- `WorkspaceError`: what was being done, and the OS error. -/
structure WorkspaceError where
  action : String
  source : String
deriving DecidableEq, Repr

/-- What the file system answers about one entry of the sweep. -/
inductive EntryFate where
  | fine
  /-- `next_entry` fails. -/
  | unlisted (err : String)
  /-- `file_type` fails. -/
  | untyped
  /-- `remove_dir_all` fails, and these files are not removed. -/
  | stuck (keeps : String → Bool)

/-- The loop of `WorkspaceRoot::sweep`, from its `n`-th entry on: how many directories
were removed, and what is left of the entries. -/
def sweepFrom (fate : Nat → EntryFate) :
    Nat → List DirEntry → Except WorkspaceError Nat × List DirEntry
  | n, [] =>
    match fate n with
    | .unlisted err => (.error ⟨"listing workspace root", err⟩, [])
    | _ => (.ok 0, [])
  | n, e :: entries =>
    match fate n with
    | .unlisted err => (.error ⟨"listing workspace root", err⟩, e :: entries)
    | .untyped => ((sweepFrom fate (n + 1) entries).1, e :: (sweepFrom fate (n + 1) entries).2)
    | .stuck keeps =>
      -- only a warning
      ((sweepFrom fate (n + 1) entries).1,
        (if e.isWorkspace then { e with files := e.files.filter keeps } else e) ::
          (sweepFrom fate (n + 1) entries).2)
    | .fine =>
      if e.isWorkspace then
        ((sweepFrom fate (n + 1) entries).1.map (· + 1), (sweepFrom fate (n + 1) entries).2)
      else ((sweepFrom fate (n + 1) entries).1, e :: (sweepFrom fate (n + 1) entries).2)

/-- `entries'` is what a sweep may leave of `entries`: each entry stays as it is, or it is a
workspace and has lost some of its files, or is gone. -/
inductive SweptFrom : List DirEntry → List DirEntry → Prop where
  | nil : SweptFrom [] []
  | same (e : DirEntry) {entries entries' : List DirEntry} (h : SweptFrom entries entries') :
      SweptFrom (e :: entries) (e :: entries')
  | partly {e : DirEntry} (hours : e.isWorkspace = true) {files : List String}
      (hfiles : files.Sublist e.files) {entries entries' : List DirEntry}
      (h : SweptFrom entries entries') :
      SweptFrom (e :: entries) ({ e with files := files } :: entries')
  | gone {e : DirEntry} (hours : e.isWorkspace = true) {entries entries' : List DirEntry}
      (h : SweptFrom entries entries') : SweptFrom (e :: entries) entries'

theorem SweptFrom.refl (entries : List DirEntry) : SweptFrom entries entries := by
  induction entries with
  | nil => exact .nil
  | cons e entries ih => exact .same e ih

/-- The sweep touches nothing but workspaces, also when it fails half-way. By
induction on the listing, with a case for each way an entry can fare. -/
theorem sweepFrom_swept (fate : Nat → EntryFate) (n : Nat) (entries : List DirEntry) :
    SweptFrom entries (sweepFrom fate n entries).2 := by
  induction entries generalizing n with
  | nil =>
    have hnil : (sweepFrom fate n []).2 = [] := by
      unfold sweepFrom
      split <;> rfl
    rw [hnil]
    exact .nil
  | cons e entries ih =>
    have hrest := ih (n + 1)
    unfold sweepFrom
    split
    -- `next_entry` fails: the rest is not looked at
    · exact .refl _
    · exact .same e hrest
    · next keeps _ =>
      by_cases hours : e.isWorkspace = true
      · rw [if_pos hours]
        exact .partly hours List.filter_sublist hrest
      · rw [if_neg hours]
        exact .same e hrest
    · by_cases hours : e.isWorkspace = true
      · rw [if_pos hours]
        exact .gone hours hrest
      · rw [if_neg hours]
        exact .same e hrest

/-- `WorkspaceRoot::sweep`; `listing` is what `read_dir` answers. -/
def sweep (listing : Except String Unit) (fate : Nat → EntryFate) (entries : List DirEntry) :
    Except WorkspaceError Nat × List DirEntry :=
  match listing with
  | .error err => (.error ⟨"listing workspace root", err⟩, entries)
  | .ok () => sweepFrom fate 0 entries

theorem sweep_swept (listing : Except String Unit) (fate : Nat → EntryFate)
    (entries : List DirEntry) : SweptFrom entries (sweep listing fate entries).2 := by
  unfold sweep
  split
  · exact .refl entries
  · exact sweepFrom_swept fate 0 entries

/-! ## The sequence -/

/-- What a start works on. The root may not exist yet. -/
structure World where
  db : Database
  root : Option (List DirEntry)

/-- What `run` reads of `Config` before it serves. -/
structure StartConfig where
  requeuePendingOnStart : Bool
  jobctlMcp : Bool
  qbo : Bool
deriving DecidableEq, Repr

/-- What the world answers to the steps of a start, in order. -/
structure StartScript where
  /-- `Config::from_env`. -/
  config : Except String StartConfig
  /-- `JobStore::connect`. -/
  connect : Except DbError Unit
  /-- What becomes of the statement of `requeue_pending`. -/
  requeue : Fault
  /-- `create_dir_all` and `canonicalize`. -/
  createDir : Except String Unit
  canonicalize : Except String Unit
  /-- `read_dir` and the entries of the sweep. -/
  listing : Except String Unit
  fate : Nat → EntryFate
  /-- `QboBroker::new`. -/
  broker : Except QboError Unit
  /-- `http::bind`. -/
  bind : Except String Unit

/-- The error `run` ends with. -/
inductive StartError where
  | config (err : String)
  | connect (source : StoreError)
  | requeue (source : StoreError)
  | prepare (source : WorkspaceError)
  | sweep (source : WorkspaceError)
  | qbo (source : QboError)
  | listener (err : String)

/-- `requeue_pending`, if the configuration asks for it. -/
def requeueOnStart (config : StartConfig) (fault : Fault) (db : Database) :
    Except StartError Unit × Database :=
  if config.requeuePendingOnStart then
    match fault with
    | .none => (.ok (), db.requeuePending.2)
    | .failed => (.error (.requeue (.database .connection)), db)
    | .lost => (.error (.requeue (.database .connection)), db.requeuePending.2)
  else (.ok (), db)

/-- `WorkspaceRoot::prepare`. -/
def prepare (createDir canonicalize : Except String Unit) (root : Option (List DirEntry)) :
    Except StartError Unit × Option (List DirEntry) :=
  match createDir with
  | .error err => (.error (.prepare ⟨"creating workspace root", err⟩), root)
  | .ok () =>
    match canonicalize with
    | .error err => (.error (.prepare ⟨"resolving workspace root", err⟩), some (root.getD []))
    | .ok () => (.ok (), some (root.getD []))

/-- `run` after the sweep, up to the listener: the broker is only built for a runner
that has both `AES_KEY` and `jobctl-mcp`. -/
def serveOnStart (config : StartConfig) (s : StartScript) : Except StartError Unit :=
  match if config.qbo && config.jobctlMcp then s.broker else .ok () with
  | .error source => .error (.qbo source)
  | .ok () =>
    match s.bind with
    | .error err => .error (.listener err)
    | .ok () => .ok ()

/-- `run` up to the moment the daemon serves. -/
def startUp (s : StartScript) (w : World) : Except StartError Unit × World :=
  match s.config with
  | .error err => (.error (.config err), w)
  | .ok config =>
    match s.connect with
    | .error err => (.error (.connect (.database err)), w)
    | .ok () =>
      match requeueOnStart config s.requeue w.db with
      | (.error err, db) => (.error err, { w with db := db })
      | (.ok (), db) =>
        match prepare s.createDir s.canonicalize w.root with
        | (.error err, root) => (.error err, ⟨db, root⟩)
        | (.ok (), root) =>
          match sweep s.listing s.fate (root.getD []) with
          | (.error err, entries) => (.error (.sweep err), ⟨db, some entries⟩)
          | (.ok _, entries) => (serveOnStart config s, ⟨db, some entries⟩)

/-! ## What a failed start leaves -/

/-- How far a start came, by the error it ended with. -/
def StartError.stage : StartError → Nat
  | .config _ => 0
  | .connect _ => 1
  | .requeue _ => 2
  | .prepare _ => 3
  | .sweep _ => 4
  | .qbo _ => 5
  | .listener _ => 6

/-- What may have become of the root in a start that ended with `err`: nothing; it was made,
and is empty; or it was swept. -/
inductive RootLeft (err : StartError) : Option (List DirEntry) → Option (List DirEntry) → Prop
    where
  | same (root : Option (List DirEntry)) : RootLeft err root root
  | made (hstage : 3 ≤ err.stage) : RootLeft err none (some [])
  | swept (hstage : 4 ≤ err.stage) {entries entries' : List DirEntry}
      (h : SweptFrom entries entries') : RootLeft err (some entries) (some entries')

/-- What a start that ended with `err` has changed at most: `pending` rows are back to
`NULL`, which takes the configuration's consent and the requeue, and the root was made or
swept, as far as the start came. -/
structure Leaves (s : StartScript) (err : StartError) (w w' : World) : Prop where
  table : w'.db = w.db ∨ w'.db = w.db.requeuePending.2 ∧ 2 ≤ err.stage ∧
    ∃ config, s.config = .ok config ∧ config.requeuePendingOnStart = true
  root : RootLeft err w.root w'.root

/-- The requeue of a start: all or nothing, and nothing at all unless
`REQUEUE_PENDING_ON_START` is set. -/
theorem requeueOnStart_table (config : StartConfig) (fault : Fault) (db : Database) :
    (requeueOnStart config fault db).2 = db ∨
      (requeueOnStart config fault db).2 = db.requeuePending.2 ∧
        config.requeuePendingOnStart = true := by
  unfold requeueOnStart
  split
  · rename_i hconsent
    cases fault with
    | none => exact .inr ⟨rfl, hconsent⟩
    | failed => exact .inl rfl
    | lost => exact .inr ⟨rfl, hconsent⟩
  · exact .inl rfl

/-- A start that came as far as the requeue has left the table, or requeued it with the
configuration's consent. -/
theorem requeueOnStart_leaves {s : StartScript} {config : StartConfig}
    (hconfig : s.config = .ok config) {db db' : Database} {answer : Except StartError Unit}
    (h : requeueOnStart config s.requeue db = (answer, db')) {err : StartError}
    (hstage : 2 ≤ err.stage) :
    db' = db ∨ db' = db.requeuePending.2 ∧ 2 ≤ err.stage ∧
      ∃ config, s.config = .ok config ∧ config.requeuePendingOnStart = true := by
  have htable := requeueOnStart_table config s.requeue db
  rw [h] at htable
  rcases htable with hsame | ⟨hrequeued, hconsent⟩
  · exact .inl hsame
  · exact .inr ⟨hrequeued, hstage, config, hconfig, hconsent⟩

theorem requeueOnStart_error {config : StartConfig} {fault : Fault} {db db' : Database}
    {err : StartError} (h : requeueOnStart config fault db = (.error err, db')) :
    err.stage = 2 := by
  unfold requeueOnStart at h
  split at h
  · cases fault with
    | none => cases h
    | failed | lost =>
      cases h
      rfl
  · cases h

/-- `create_dir_all` leaves a root that is there. -/
theorem prepare_error {createDir canonicalize : Except String Unit}
    {root root' : Option (List DirEntry)} {err : StartError}
    (h : prepare createDir canonicalize root = (.error err, root')) :
    err.stage = 3 ∧ (root' = root ∨ root' = some (root.getD [])) := by
  unfold prepare at h
  split at h
  · cases h
    exact ⟨rfl, .inl rfl⟩
  · split at h
    · cases h
      exact ⟨rfl, .inr rfl⟩
    · cases h

theorem prepare_ok {createDir canonicalize : Except String Unit}
    {root root' : Option (List DirEntry)}
    (h : prepare createDir canonicalize root = (.ok (), root')) :
    root' = some (root.getD []) := by
  unfold prepare at h
  split at h
  · cases h
  · split at h
    · cases h
    · cases h
      rfl

/-- A sweep of a root that was prepared. -/
theorem RootLeft.of_swept {err : StartError} {root : Option (List DirEntry)}
    {entries : List DirEntry} (hstage : 4 ≤ err.stage) (h : SweptFrom (root.getD []) entries) :
    RootLeft err root (some entries) := by
  cases root with
  | none =>
    cases h
    exact .made (by omega)
  | some _ => exact .swept hstage h

theorem serveOnStart_error {config : StartConfig} {s : StartScript} {err : StartError}
    (h : serveOnStart config s = .error err) : 5 ≤ err.stage := by
  unfold serveOnStart at h
  split at h
  · cases h
    exact Nat.le_refl 5
  · split at h
    · cases h
      exact Nat.le_succ 5
    · cases h

/-- **A start that fails** has put `pending` rows back, made the root or swept workspaces, as
far as it came, and has changed nothing else. -/
theorem startUp_error_leaves {s : StartScript} {w w' : World} {err : StartError}
    (h : startUp s w = (.error err, w')) : Leaves s err w w' := by
  rw [startUp] at h
  split at h
  · cases h
    exact ⟨.inl rfl, .same _⟩
  next config hconfig =>
  split at h
  · cases h
    exact ⟨.inl rfl, .same _⟩
  split at h
  next db hrequeue =>
    cases h
    have hstage := requeueOnStart_error hrequeue
    exact ⟨requeueOnStart_leaves hconfig hrequeue (by omega), .same _⟩
  next db hrequeue =>
  split at h
  next root hprepare =>
    cases h
    obtain ⟨hstage, hroot⟩ := prepare_error hprepare
    refine ⟨requeueOnStart_leaves hconfig hrequeue (by omega), ?_⟩
    show RootLeft _ w.root root
    rcases hroot with rfl | rfl
    · exact .same _
    · cases hbefore : w.root with
      | none => exact .made hstage.ge
      | some entries => exact .same _
  next root hprepare =>
  -- from here on the workspaces are the swept ones
  have hswept := sweep_swept s.listing s.fate (root.getD [])
  rw [prepare_ok hprepare, Option.getD_some] at h hswept
  split at h
  next entries hsweep =>
    cases h
    rw [hsweep] at hswept
    exact ⟨requeueOnStart_leaves hconfig hrequeue (Nat.le_add_left 2 2),
      .of_swept (Nat.le_refl 4) hswept⟩
  next entries hsweep =>
    rw [hsweep] at hswept
    obtain ⟨hserve, rfl⟩ := Prod.mk.inj h
    have hstage := serveOnStart_error hserve
    exact ⟨requeueOnStart_leaves hconfig hrequeue (by omega), .of_swept (by omega) hswept⟩

/-- The directory of a job, and another directory. -/
def jobDir (files : List String) : DirEntry := ⟨utf8 "job-1-5", true, files⟩

def otherDir : DirEntry := ⟨utf8 "keep-me", true, ["todo.md"]⟩

/-- The table and the root of a daemon that is running a job, next to what an earlier one
has left. -/
def liveWorld : World :=
  ⟨Database.pendingDb none, some [jobDir ["draft.md", "notes.md"], otherDir, jobDir []]⟩

/-- A start next to it, which may not delete `notes.md` and finds the address in use. -/
def addressInUse : StartScript where
  config := .ok ⟨true, true, false⟩
  connect := .ok ()
  requeue := .none
  createDir := .ok ()
  canonicalize := .ok ()
  listing := .ok ()
  fate := fun n => if n = 0 then .stuck fun file => file = "notes.md" else .fine
  broker := .ok ()
  bind := .error "Address already in use (os error 98)"

/-- The job is `NULL` again, and of the workspaces there is what could not be deleted. -/
theorem addressInUse_startUp : startUp addressInUse liveWorld =
    (.error (.listener "Address already in use (os error 98)"),
      ⟨(Database.pendingDb none).requeuePending.2, some [jobDir ["notes.md"], otherDir]⟩) := by
  have hours : ∀ files, (jobDir files).isWorkspace = true := by
    intro files
    simp only [jobDir, DirEntry.isWorkspace, DirEntry.isOurs, fromUtf8_utf8]
    decide
  have hother : otherDir.isWorkspace = false := by
    simp only [otherDir, DirEntry.isWorkspace, DirEntry.isOurs, fromUtf8_utf8]
    decide
  have hswept : sweepFrom addressInUse.fate 0
      [jobDir ["draft.md", "notes.md"], otherDir, jobDir []] =
        (.ok 1, [jobDir ["notes.md"], otherDir]) := by
    simp [sweepFrom, addressInUse, hours, hother, Except.map]
    rfl
  have hsweep : sweep addressInUse.listing addressInUse.fate
      [jobDir ["draft.md", "notes.md"], otherDir, jobDir []] =
        (.ok 1, [jobDir ["notes.md"], otherDir]) := hswept
  have hrequeue :
      requeueOnStart ⟨true, true, false⟩ addressInUse.requeue (Database.pendingDb none) =
        (.ok (), (Database.pendingDb none).requeuePending.2) := rfl
  have hprepare : ∀ root, prepare addressInUse.createDir addressInUse.canonicalize (some root) =
      (.ok (), some root) := fun _ => rfl
  rw [startUp, show addressInUse.config = .ok ⟨true, true, false⟩ from rfl]
  simp only [show addressInUse.connect = .ok () from rfl, liveWorld, hrequeue, hprepare,
    Option.getD_some, hsweep]
  rfl

/-- A start that makes the root and cannot resolve it. -/
def unresolvedRoot : StartScript :=
  { addressInUse with canonicalize := .error "Permission denied (os error 13)" }

/-- What the two starts leave, of the live root and of a root that was not there. -/
theorem failed_starts_leave :
    (∃ err w', startUp addressInUse liveWorld = (.error err, w') ∧
      w'.root = some [jobDir ["notes.md"], otherDir] ∧ Leaves addressInUse err liveWorld w') ∧
    ∃ err w', startUp unresolvedRoot ⟨Database.pendingDb none, none⟩ = (.error err, w') ∧
      w'.root = some [] ∧ Leaves unresolvedRoot err ⟨Database.pendingDb none, none⟩ w' :=
  ⟨⟨_, _, addressInUse_startUp, rfl, startUp_error_leaves addressInUse_startUp⟩,
    ⟨_, _, rfl, rfl, startUp_error_leaves rfl⟩⟩

/-- A start that fails does not leave everything as it was. -/
theorem failed_start_requeues_and_sweeps :
    ¬∀ (s : StartScript) (w w' : World) (err : StartError), startUp s w = (.error err, w') →
        (∀ m ∈ w.db.messages.rows, ∃ m', w'.db.messages.find? m.id = some m' ∧
          m'.status = m.status) ∧
        ∀ entries, w.root = some entries → ∀ e ∈ entries, e.isWorkspace = true →
          e ∈ w'.root.getD [] := by
  intro hall
  have hboth := hall _ _ _ _ addressInUse_startUp
  obtain ⟨m', hfind, hsame⟩ := hboth.1 (Database.pendingJob none) (List.mem_singleton_self _)
  have hrow : (Database.pendingDb none).requeuePending.2.messages.find?
      (Database.pendingJob none).id = some { Database.pendingJob none with status := .new } := rfl
  rw [hrow, Option.some.injEq] at hfind
  subst hfind
  cases hsame

end JobRunner
