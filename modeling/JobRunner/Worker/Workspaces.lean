import JobRunner.Daemon.Startup
import JobRunner.Lib.Decimal
import JobRunner.Lib.Split
import JobRunner.Worker.Loop

/-!
# The workspaces of running jobs (`workspace.rs`)

Every call of `Worker::execute` makes a directory under the root, runs `claude` in it and
removes it again. Here any number of calls (indexed by `ι`) share a root. The sandbox lets a
session write in its own directory and nowhere else.

- `workspaceName`: the name of a directory; `workspaceName_inj`: it tells the job.
- `Site`, `Site.Step`: the root, and what the calls do to it.
- `Step.taskMove`: a call moves as a task of the worker does.
- `Tidy`, `Step.tidy`: what every step keeps.
- `workspaces_kept_apart`: what holds along every run.
- `swept_after_run`: what the sweep of the next start leaves.
-/

open Text Transition

namespace JobRunner

/-! ## Names -/

/-- The name that `Workspace::create` gives to a directory. -/
def workspaceName (job : Int) (nanos : Nat) : List UInt8 :=
  utf8 (dirPrefix ++ toString job ++ "-" ++ toString nanos)

theorem toString_int_inj {m n : Int} (h : toString m = toString n) : m = n := by
  have hlist := congrArg String.toList h
  rw [Decimal.toList_toString, Decimal.toList_toString] at hlist
  have habs : Nat.toDigits 10 m.natAbs = Nat.toDigits 10 n.natAbs → m.natAbs = n.natAbs := by
    intro hdigits
    have hread := Decimal.digits?_toDigits m.natAbs
    rw [hdigits, Decimal.digits?_toDigits] at hread
    exact (Option.some.inj hread).symm
  -- a digit is no sign
  have hsign : ∀ (a b : Int), '-' :: Nat.toDigits 10 a.natAbs ≠ Nat.toDigits 10 b.natAbs := by
    intro a b heq
    have hdigit : Char.isDigit '-' = true :=
      Decimal.isDigit_of_mem_natAbs (heq ▸ List.mem_cons_self)
    revert hdigit
    decide
  split at hlist <;> split at hlist
  · have := habs (List.cons.inj hlist).2
    omega
  · exact absurd hlist (hsign m n)
  · exact absurd hlist.symm (hsign n m)
  · have := habs hlist
    omega

/-- The name of a directory tells its job and its time: the job's digits end at the
dash, so two names agree only if both numbers do. -/
theorem workspaceName_inj {job job' : Int} {nanos nanos' : Nat}
    (h : workspaceName job nanos = workspaceName job' nanos') : job = job' ∧ nanos = nanos' := by
  have htext := congrArg String.toList (utf8_inj h)
  simp only [String.toList_append, List.append_assoc, List.append_cancel_left_eq] at htext
  have hdash (n : Nat) : '-' ∉ (toString n).toList := by
    rw [Nat.toString_eq_repr, Nat.toList_repr]
    intro hmem
    have hdigit : Char.isDigit '-' = true :=
      Nat.isDigit_of_mem_toDigits (by omega) (by omega) hmem
    revert hdigit
    decide
  obtain ⟨hjob, hnanos⟩ := Split.append_last_inj (hdash nanos) (hdash nanos') htext
  have hcast : toString (nanos : Int) = toString (nanos' : Int) := String.toList_inj.mp hnanos
  exact ⟨toString_int_inj (String.toList_inj.mp hjob), by exact_mod_cast toString_int_inj hcast⟩

/-! ## The system -/

/-- Where a call of `execute` stands. -/
inductive ExecuteStage where
  /-- Before its directory is created. -/
  | starting
  /-- In the `select!`. -/
  | running (dir : List UInt8)
  /-- Removing its directory. -/
  | removing (dir : List UInt8) (outcome : JobOutcome)
  | returned (outcome : JobOutcome)

namespace ExecuteStage

/-- The directory of the call. -/
def dir? : ExecuteStage → Option (List UInt8)
  | running dir | removing dir _ => some dir
  | starting | returned _ => none

/-- The stage of its task. -/
def task : ExecuteStage → TaskStage
  | starting => .starting
  | running _ => .running
  | removing _ outcome => .removing outcome
  | returned outcome => .finishing outcome

end ExecuteStage

/-- The root, and the calls that work on it. -/
structure Site (ι : Type) where
  entries : List DirEntry
  stage : ι → ExecuteStage

inductive SiteEvent (ι : Type) where
  /-- `Workspace::create` succeeds, at this time. -/
  | create (i : ι) (nanos : Nat)
  | createFails (i : ι) (err : String)
  /-- The session of a call leaves these files in its directory. -/
  | work (i : ι) (files : List String)
  /-- The `select!` of a call ends. -/
  | select (i : ι) (run : RunEnd)
  /-- `Workspace::remove` succeeds. -/
  | remove (i : ι)
  /-- It fails, with these files left. -/
  | removeFails (i : ι) (left : List String)

/-- The directory `name` has these files from now on. -/
def setFiles (name : List UInt8) (files : List String) (entries : List DirEntry) :
    List DirEntry :=
  entries.map fun e => if e.name = name then { e with files := files } else e

/-- The directory `name` is removed. -/
def discard (name : List UInt8) (entries : List DirEntry) : List DirEntry :=
  entries.filter fun e => e.name ≠ name

namespace Site

variable {ι : Type} [DecidableEq ι] (job : ι → Int)

/-- Call `i` goes to `stage`. -/
def goto (s : Site ι) (i : ι) (stage : ExecuteStage) : Site ι :=
  { s with stage := Function.update s.stage i stage }

@[simp] theorem goto_stage (s : Site ι) (i : ι) (stage : ExecuteStage) :
    (s.goto i stage).stage = Function.update s.stage i stage := rfl

/-- One step of the system; `job i` is the job of call `i`. -/
inductive Step : Site ι → SiteEvent ι → Site ι → Prop where
  -- `create_dir` makes no directory whose name is taken
  | create (s : Site ι) (i : ι) (nanos : Nat) (hi : s.stage i = .starting)
      (hfree : ∀ e ∈ s.entries, e.name ≠ workspaceName (job i) nanos) :
      Step s (.create i nanos)
        { s.goto i (.running (workspaceName (job i) nanos)) with
          entries := s.entries ++ [⟨workspaceName (job i) nanos, true, []⟩] }
  | createFails (s : Site ι) (i : ι) (err : String) (run : RunEnd) (hi : s.stage i = .starting) :
      Step s (.createFails i err) (s.goto i (.returned (execute (.error err) run)))
  | work (s : Site ι) (i : ι) (dir : List UInt8) (files : List String)
      (hi : s.stage i = .running dir) :
      Step s (.work i files) { s with entries := setFiles dir files s.entries }
  | select (s : Site ι) (i : ι) (dir : List UInt8) (run : RunEnd) (hi : s.stage i = .running dir) :
      Step s (.select i run) (s.goto i (.removing dir (execute (.ok ()) run)))
  | remove (s : Site ι) (i : ι) (dir : List UInt8) (outcome : JobOutcome)
      (hi : s.stage i = .removing dir outcome) :
      Step s (.remove i) { s.goto i (.returned outcome) with entries := discard dir s.entries }
  -- the error is logged
  | removeFails (s : Site ι) (i : ι) (dir : List UInt8) (outcome : JobOutcome)
      (left : List String) (hi : s.stage i = .removing dir outcome) :
      Step s (.removeFails i left)
        { s.goto i (.returned outcome) with entries := setFiles dir left s.entries }

variable {job} {s t : Site ι} {e : SiteEvent ι}

/-- A call moves as a task of the worker does, or is interrupted. So the calls on a
root do nothing that the tasks of a worker could not. -/
theorem Step.taskMove (h : Step job s e t) (i : ι) :
    t.stage i = s.stage i ∨ TaskMove (s.stage i).task (t.stage i).task ∨
      (s.stage i).task = .running ∧ (t.stage i).task = .removing shutdownOutcome := by
  have hgoto {i' : ι} {stage : ExecuteStage}
      (hmove : TaskMove (s.stage i').task stage.task ∨
        (s.stage i').task = .running ∧ stage.task = .removing shutdownOutcome) :
      (s.goto i' stage).stage i = s.stage i ∨
        TaskMove (s.stage i).task ((s.goto i' stage).stage i).task ∨
        (s.stage i).task = .running ∧
          ((s.goto i' stage).stage i).task = .removing shutdownOutcome := by
    by_cases hi : i = i'
    · subst hi
      right
      rwa [goto_stage, Function.update_self]
    · exact .inl (Function.update_of_ne hi _ _)
  cases h with
  | create i' nanos hi =>
    exact hgoto (.inl (by rw [hi]; exact .create))
  | createFails i' err run hi =>
    exact hgoto (.inl (by rw [hi]; exact .createFails err run))
  | work => exact .inl rfl
  | select i' dir run hi =>
    cases run with
    | returned run => exact hgoto (.inl (by rw [hi]; exact .run run))
    | cancelled => exact hgoto (.inr (by rw [hi]; exact ⟨rfl, rfl⟩))
  | remove i' dir outcome hi =>
    exact hgoto (.inl (by rw [hi]; exact .remove outcome))
  | removeFails i' dir outcome left hi =>
    exact hgoto (.inl (by rw [hi]; exact .remove outcome))

/-! ## What every step keeps -/

end Site

namespace SiteEvent

variable {ι : Type} [DecidableEq ι]

/-- What a session leaves in its directory. -/
def work? (i : ι) : SiteEvent ι → Option (List String)
  | work j files => if j = i then some files else none
  | _ => none

end SiteEvent

section Lists

variable {name : List UInt8} {files : List String} {entries : List DirEntry} {e : DirEntry}

theorem setFiles_names (name : List UInt8) (files : List String) (entries : List DirEntry) :
    (setFiles name files entries).map DirEntry.name = entries.map DirEntry.name := by
  unfold setFiles
  rw [List.map_map]
  refine List.map_congr_left fun e _ => ?_
  rw [Function.comp_apply]
  split <;> rfl

theorem setFiles_eq_self (h : ∀ e ∈ entries, e.name ≠ name) :
    setFiles name files entries = entries := by
  unfold setFiles
  conv_rhs => rw [← List.map_id entries]
  exact List.map_congr_left fun e he => if_neg (h e he)

theorem discard_eq_self (h : ∀ e ∈ entries, e.name ≠ name) : discard name entries = entries :=
  List.filter_eq_self.mpr fun e he => decide_eq_true (h e he)

theorem mem_discard : e ∈ discard name entries ↔ e ∈ entries ∧ e.name ≠ name := by
  unfold discard
  rw [List.mem_filter, decide_eq_true_eq]

/-- An entry is as it was, or it is the one that was written to. -/
theorem mem_setFiles (h : e ∈ setFiles name files entries) :
    (e ∈ entries ∧ e.name ≠ name) ∨
      ∃ e₀ ∈ entries, e₀.name = name ∧ e = { e₀ with files := files } := by
  obtain ⟨e₀, he₀, rfl⟩ := List.mem_map.mp h
  split
  next hname => exact .inr ⟨e₀, he₀, hname, rfl⟩
  next hname => exact .inl ⟨he₀, hname⟩

theorem mem_setFiles_of_ne (he : e ∈ entries) (hname : e.name ≠ name) :
    e ∈ setFiles name files entries :=
  List.mem_map.mpr ⟨e, he, if_neg hname⟩

theorem mem_setFiles_self (he : e ∈ entries) (hname : e.name = name) :
    { e with files := files } ∈ setFiles name files entries :=
  List.mem_map.mpr ⟨e, he, if_pos hname⟩

end Lists

namespace Site

variable {ι : Type} [DecidableEq ι] {job : ι → Int} {s t : Site ι} {e : SiteEvent ι}
  {start made : List DirEntry} {evs : List (SiteEvent ι)}

/-- What the session of call `i` has left in its directory so far. -/
def filesOf (i : ι) (evs : List (SiteEvent ι)) : List String :=
  ((evs.filterMap (SiteEvent.work? i)).getLast?).getD []

theorem filesOf_work (i : ι) (files : List String) :
    filesOf i (evs ++ [.work i files]) = files := by
  simp [filesOf, SiteEvent.work?]

theorem filesOf_other {i : ι} (h : e.work? i = none) : filesOf i (evs ++ [e]) = filesOf i evs := by
  simp [filesOf, h]

theorem work?_other {i j : ι} (h : i ≠ j) (files : List String) :
    (SiteEvent.work j files).work? i = none :=
  if_neg (Ne.symm h)

/-- The directory of call `i`, with its files. -/
def ownEntry (evs : List (SiteEvent ι)) (i : ι) (dir : List UInt8) : DirEntry :=
  ⟨dir, true, filesOf i evs⟩

/-- Where an entry that a call has made comes from. -/
inductive Accounted (job : ι → Int) (evs : List (SiteEvent ι)) (s : Site ι) (e : DirEntry) : Prop
  /-- It is the directory of a call, with the files of its session. -/
  | own (i : ι) (hdir : (s.stage i).dir? = some e.name) (heq : e = ownEntry evs i e.name)
  /-- A call could not remove it. -/
  | left (i : ι) (nanos : Nat) (files : List String) (hcreate : .create i nanos ∈ evs)
      (hfails : .removeFails i files ∈ evs)
      (heq : e = ⟨workspaceName (job i) nanos, true, files⟩)

/-- The root is as it was at the start, with the entries `made` behind it. -/
structure Tidy (job : ι → Int) (start made : List DirEntry) (evs : List (SiteEvent ι))
    (s : Site ι) : Prop where
  entries : s.entries = start ++ made
  names : (s.entries.map DirEntry.name).Nodup
  accounted : ∀ e ∈ made, Accounted job evs s e
  /-- The directory of a call is there, and has the name of its job. -/
  own : ∀ i dir, (s.stage i).dir? = some dir → ownEntry evs i dir ∈ made ∧
    ∃ nanos, .create i nanos ∈ evs ∧ dir = workspaceName (job i) nanos
  exclusive : ∀ i j dir, (s.stage i).dir? = some dir → (s.stage j).dir? = some dir → i = j
  fresh : ∀ i, s.stage i = .starting → filesOf i evs = []

/-- No entry of the start has the name of a directory. -/
theorem Tidy.start_ne (h : Tidy job start made evs s) {i : ι} {dir : List UInt8}
    (hdir : (s.stage i).dir? = some dir) : ∀ e ∈ start, e.name ≠ dir := by
  intro e he hname
  have hnames := h.names
  rw [h.entries, List.map_append] at hnames
  have hown : (ownEntry evs i dir).name ∈ made.map DirEntry.name :=
    List.mem_map_of_mem (h.own i dir hdir).1
  exact (List.nodup_append.mp hnames).2.2 e.name (List.mem_map_of_mem he) dir hown hname

/-- The directory of a call is the only entry with its name. -/
theorem Tidy.eq_own (h : Tidy job start made evs s) {i : ι} {dir : List UInt8}
    (hdir : (s.stage i).dir? = some dir) {e : DirEntry} (he : e ∈ made) (hname : e.name = dir) :
    e = ownEntry evs i dir := by
  refine List.inj_on_of_nodup_map h.names ?_ ?_ hname
  · rw [h.entries]
    exact List.mem_append_right _ he
  · rw [h.entries]
    exact List.mem_append_right _ (h.own i dir hdir).1

theorem dir?_goto (s : Site ι) (i j : ι) (stage : ExecuteStage) :
    ((s.goto i stage).stage j).dir? = if j = i then stage.dir? else (s.stage j).dir? := by
  rw [goto_stage]
  by_cases h : j = i
  · rw [if_pos h, h, Function.update_self]
  · rw [if_neg h, Function.update_of_ne h]

/-- An entry is still accounted for if its call is where it was and has not written. -/
theorem Accounted.keep {entry : DirEntry} (h : Accounted job evs s entry)
    (hkeep : ∀ i, (s.stage i).dir? = some entry.name →
      (t.stage i).dir? = some entry.name ∧ e.work? i = none) :
    Accounted job (evs ++ [e]) t entry := by
  cases h with
  | own i hdir heq =>
    obtain ⟨hdir', hwork⟩ := hkeep i hdir
    refine .own i hdir' (heq.trans ?_)
    rw [ownEntry, ownEntry, filesOf_other hwork]
  | left i nanos files hcreate hfails heq =>
    exact .left i nanos files (List.mem_append_left _ hcreate) (List.mem_append_left _ hfails) heq

/-- A call that goes on without touching the root. -/
theorem Tidy.goto (h : Tidy job start made evs s) {i : ι} {stage : ExecuteStage}
    (hwork : ∀ j, e.work? j = none) (hstage : stage ≠ .starting)
    (hdir : stage.dir? = (s.stage i).dir?) :
    Tidy job start made (evs ++ [e]) (s.goto i stage) := by
  have hdirs (j : ι) : ((s.goto i stage).stage j).dir? = (s.stage j).dir? := by
    rw [dir?_goto]
    split
    next hj => rw [hj, hdir]
    · rfl
  refine ⟨h.entries, h.names, fun entry hentry => ?_, fun j dir hj => ?_, fun j k dir hj hk => ?_,
    fun j hj => ?_⟩
  · refine (h.accounted entry hentry).keep fun j hj => ⟨?_, hwork j⟩
    rw [hdirs, hj]
  · rw [hdirs] at hj
    obtain ⟨hown, nanos, hcreate, hname⟩ := h.own j dir hj
    rw [ownEntry, filesOf_other (hwork j)]
    exact ⟨hown, nanos, List.mem_append_left _ hcreate, hname⟩
  · rw [hdirs] at hj hk
    exact h.exclusive j k dir hj hk
  · rw [filesOf_other (hwork j)]
    by_cases hji : j = i
    · rw [hji, goto_stage, Function.update_self] at hj
      exact absurd hj hstage
    · rw [goto_stage, Function.update_of_ne hji] at hj
      exact h.fresh j hj

/-- A new directory, under a name that was free: it is the directory of its call,
with nothing in it yet. -/
theorem Tidy.create (h : Tidy job start made evs s) {i : ι} {nanos : Nat}
    (hi : s.stage i = .starting)
    (hfree : ∀ e ∈ s.entries, e.name ≠ workspaceName (job i) nanos) :
    Tidy job start (made ++ [⟨workspaceName (job i) nanos, true, []⟩])
      (evs ++ [.create i nanos])
      { s.goto i (.running (workspaceName (job i) nanos)) with
        entries := s.entries ++ [⟨workspaceName (job i) nanos, true, []⟩] } := by
  have hnone : (s.stage i).dir? = none := by rw [hi]; rfl
  have hother {j : ι} {dir : List UInt8} (hj : (s.stage j).dir? = some dir) : j ≠ i := by
    rintro rfl
    rw [hnone] at hj
    cases hj
  -- nobody has the new name yet
  have htaken {j : ι} : (s.stage j).dir? ≠ some (workspaceName (job i) nanos) := by
    intro hj
    refine hfree _ ?_ (show (ownEntry evs j _).name = _ from rfl)
    rw [h.entries]
    exact List.mem_append_right _ (h.own j _ hj).1
  have hdirs (j : ι) := dir?_goto s i j (.running (workspaceName (job i) nanos))
  refine ⟨?_, ?_, fun entry hentry => ?_, fun j dir hj => ?_, fun j k dir hj hk => ?_,
    fun j hj => ?_⟩
  · show s.entries ++ _ = _
    rw [h.entries, List.append_assoc]
  · show ((s.entries ++ _).map DirEntry.name).Nodup
    rw [List.map_append, List.nodup_append]
    refine ⟨h.names, List.nodup_singleton _, fun name hname name' hname' => ?_⟩
    obtain ⟨entry, hentry, rfl⟩ := List.mem_map.mp hname
    rw [List.map_singleton, List.mem_singleton] at hname'
    rw [hname']
    exact hfree entry hentry
  · rcases List.mem_append.mp hentry with hentry | hentry
    · refine (h.accounted entry hentry).keep fun j hj => ⟨?_, rfl⟩
      exact (hdirs j).trans ((if_neg (hother hj)).trans hj)
    · rw [List.mem_singleton.mp hentry]
      refine .own i ((hdirs i).trans (if_pos rfl)) ?_
      rw [ownEntry, filesOf_other rfl, h.fresh i hi]
  · have hj' : (if j = i then some (workspaceName (job i) nanos) else (s.stage j).dir?) =
        some dir := (hdirs j).symm.trans hj
    rw [ownEntry, filesOf_other rfl]
    split at hj'
    next hji =>
      cases hj'
      rw [hji, h.fresh i hi]
      exact ⟨by simp, nanos, by simp, rfl⟩
    · obtain ⟨hown, nanos', hcreate, hname⟩ := h.own j dir hj'
      exact ⟨List.mem_append_left _ hown, nanos', List.mem_append_left _ hcreate, hname⟩
  · have hj' := (hdirs j).symm.trans hj
    have hk' := (hdirs k).symm.trans hk
    split at hj' <;> split at hk'
    · simp_all
    · cases hj'
      exact absurd hk' htaken
    · cases hk'
      exact absurd hj' htaken
    · exact h.exclusive j k dir hj' hk'
  · rw [filesOf_other rfl]
    by_cases hji : j = i
    · rw [hji, h.fresh i hi]
    · refine h.fresh j ?_
      have hstage : (Function.update s.stage i
        (ExecuteStage.running (workspaceName (job i) nanos))) j = .starting := hj
      rwa [Function.update_of_ne hji] at hstage

/-- The root is as a session leaves it. A session writes in its own directory, which
no other call has, so no other entry is touched. -/
theorem Tidy.work (h : Tidy job start made evs s) {i : ι} {dir : List UInt8}
    (files : List String) (hi : s.stage i = .running dir) :
    Tidy job start (setFiles dir files made) (evs ++ [.work i files])
      { s with entries := setFiles dir files s.entries } := by
  have hdir : (s.stage i).dir? = some dir := by rw [hi]; rfl
  refine ⟨?_, ?_, fun entry hentry => ?_, fun j dir' hj => ?_, h.exclusive, fun j hj => ?_⟩
  · show setFiles dir files s.entries = _
    rw [h.entries]
    unfold setFiles
    rw [List.map_append]
    exact congrArg (· ++ _) (setFiles_eq_self (h.start_ne hdir))
  · show ((setFiles dir files s.entries).map DirEntry.name).Nodup
    rw [setFiles_names]
    exact h.names
  · rcases mem_setFiles hentry with ⟨hentry, hname⟩ | ⟨e₀, he₀, hname, rfl⟩
    · refine (h.accounted entry hentry).keep fun j hj => ⟨hj, work?_other ?_ files⟩
      rintro rfl
      exact hname (Option.some.inj (hj.symm.trans hdir))
    · refine .own i (hdir.trans (congrArg some hname.symm)) ?_
      rw [h.eq_own hdir he₀ hname]
      show (⟨dir, true, files⟩ : DirEntry) = ⟨dir, true, filesOf i (evs ++ [.work i files])⟩
      rw [filesOf_work]
  · obtain ⟨hown, nanos, hcreate, hname⟩ := h.own j dir' hj
    refine ⟨?_, nanos, List.mem_append_left _ hcreate, hname⟩
    by_cases hji : j = i
    · subst hji
      cases hj.symm.trans hdir
      rw [ownEntry, filesOf_work]
      exact mem_setFiles_self hown rfl
    · rw [ownEntry, filesOf_other (work?_other hji files)]
      refine mem_setFiles_of_ne hown fun heq => hji (h.exclusive j i dir ?_ hdir)
      exact hj.trans (congrArg some heq)
  · have hji : j ≠ i := by
      rintro rfl
      have hstage : s.stage j = .starting := hj
      rw [hi] at hstage
      cases hstage
    rw [filesOf_other (work?_other hji files)]
    exact h.fresh j hj

/-- A call gives its directory up: it is gone, or left behind. -/
theorem Tidy.giveUp (h : Tidy job start made evs s) (change : List DirEntry → List DirEntry)
    {i : ι} {dir : List UInt8} {outcome : JobOutcome} (hdir : (s.stage i).dir? = some dir)
    (hwork : ∀ j, e.work? j = none) (happend : change (start ++ made) = start ++ change made)
    (hnames : ((change (start ++ made)).map DirEntry.name).Nodup)
    (hothers : ∀ entry ∈ made, entry.name ≠ dir → entry ∈ change made)
    (hchanged : ∀ entry ∈ change made, entry ∈ made ∧ entry.name ≠ dir ∨
      Accounted job (evs ++ [e]) { s.goto i (.returned outcome) with
        entries := change s.entries } entry) :
    Tidy job start (change made) (evs ++ [e])
      { s.goto i (.returned outcome) with entries := change s.entries } := by
  have hdirs (j : ι) := dir?_goto s i j (.returned outcome)
  have hback {j : ι} {dir' : List UInt8}
      (hj : ((s.goto i (.returned outcome)).stage j).dir? = some dir') :
      j ≠ i ∧ (s.stage j).dir? = some dir' := by
    have hj' := (hdirs j).symm.trans hj
    split at hj'
    · cases hj'
    next hji => exact ⟨hji, hj'⟩
  refine ⟨?_, ?_, fun entry hentry => ?_, fun j dir' hj => ?_, fun j k dir' hj hk => ?_,
    fun j hj => ?_⟩
  · show change s.entries = _
    rw [h.entries, happend]
  · show ((change s.entries).map DirEntry.name).Nodup
    rw [h.entries]
    exact hnames
  · rcases hchanged entry hentry with ⟨hentry, hname⟩ | haccounted
    · refine (h.accounted entry hentry).keep fun j hj => ⟨(hdirs j).trans ?_, hwork j⟩
      rw [if_neg, hj]
      rintro rfl
      exact hname (Option.some.inj (hj.symm.trans hdir))
    · exact haccounted
  · obtain ⟨hji, hj⟩ := hback hj
    obtain ⟨hown, nanos, hcreate, hname⟩ := h.own j dir' hj
    rw [ownEntry, filesOf_other (hwork j)]
    refine ⟨hothers _ hown fun heq => hji (h.exclusive j i dir ?_ hdir), nanos,
      List.mem_append_left _ hcreate, hname⟩
    exact hj.trans (congrArg some heq)
  · exact h.exclusive j k dir' (hback hj).2 (hback hk).2
  · rw [filesOf_other (hwork j)]
    by_cases hji : j = i
    · rw [hji] at hj
      have hstage : (Function.update s.stage i (ExecuteStage.returned outcome)) i = .starting := hj
      rw [Function.update_self] at hstage
      cases hstage
    · refine h.fresh j ?_
      have hstage : (Function.update s.stage i (ExecuteStage.returned outcome)) j = .starting := hj
      rwa [Function.update_of_ne hji] at hstage

/-- **Step lemma.** The entries of the start stay in front, and those behind them are
accounted for. -/
theorem Step.tidy (hstep : Step job s e t) (h : Tidy job start made evs s) :
    ∃ made', Tidy job start made' (evs ++ [e]) t := by
  cases hstep with
  | create i nanos hi hfree => exact ⟨_, h.create hi hfree⟩
  | createFails i err run hi =>
    refine ⟨made, h.goto (fun j => rfl) (by rintro ⟨⟩) ?_⟩
    rw [hi]
    rfl
  | work i dir files hi => exact ⟨_, h.work files hi⟩
  | select i dir run hi =>
    refine ⟨made, h.goto (fun j => rfl) (by rintro ⟨⟩) ?_⟩
    rw [hi]
    rfl
  | remove i dir outcome hi =>
    have hdir : (s.stage i).dir? = some dir := by rw [hi]; rfl
    refine ⟨_, h.giveUp (discard dir) hdir (fun j => rfl) ?_ ?_
      (fun entry he hne => mem_discard.mpr ⟨he, hne⟩)
      fun entry he => .inl (mem_discard.mp he)⟩
    · rw [discard, List.filter_append]
      exact congrArg (· ++ _) (discard_eq_self (h.start_ne hdir))
    · rw [← h.entries]
      exact h.names.sublist (List.filter_sublist.map _)
  | removeFails i dir outcome left hi =>
    have hdir : (s.stage i).dir? = some dir := by rw [hi]; rfl
    refine ⟨_, h.giveUp (setFiles dir left) hdir (fun j => rfl) ?_ ?_
      (fun entry he hne => mem_setFiles_of_ne he hne) fun entry he => ?_⟩
    · rw [setFiles, List.map_append]
      exact congrArg (· ++ _) (setFiles_eq_self (h.start_ne hdir))
    · rw [setFiles_names, ← h.entries]
      exact h.names
    · refine (mem_setFiles he).imp_right ?_
      rintro ⟨e₀, he₀, hname, rfl⟩
      obtain ⟨-, nanos, hcreate, hdirname⟩ := h.own i dir hdir
      refine .left i nanos left (List.mem_append_left _ hcreate) (by simp) ?_
      rw [h.eq_own hdir he₀ hname, ← hdirname]
      rfl

/-! ## Along every run -/

/-- No call has begun, and no two entries of the root share a name. -/
structure Starts (s : Site ι) : Prop where
  names : (s.entries.map DirEntry.name).Nodup
  starting : ∀ i, s.stage i = .starting

theorem Starts.tidy (h : s.Starts) : Tidy job s.entries [] [] s := by
  have hnone (i : ι) : (s.stage i).dir? = none := by rw [h.starting i]; rfl
  refine ⟨(List.append_nil _).symm, h.names, by simp, fun i dir hi => ?_, fun i j dir hi _ => ?_,
    fun i _ => rfl⟩
  · rw [hnone i] at hi
    cases hi
  · rw [hnone i] at hi
    cases hi

theorem tidy_run (h : s.Starts) (hrun : Run (Step job) s evs t) :
    ∃ made, Tidy job s.entries made evs t := by
  refine hrun.invariant (I := fun evs t => ∃ made, Tidy job s.entries made evs t)
    ⟨[], h.tidy⟩ ?_
  rintro evs t e u ⟨made, htidy⟩ hstep
  exact hstep.tidy htidy

/-- **Workspaces are kept apart, and cleaned up.** In every run of any number of calls on one
root:

- the directory of a call holds what its session has left there, and nobody else has it;
- the entries of the start stay as they are, and every other one is the directory of a call
  or one that could not be removed;
- a name is taken only by an entry of the start, or by a call for the same job at the same
  nanosecond;
- once no call has a directory, and if none could not be removed, the root is as it was. -/
theorem workspaces_kept_apart (h : s.Starts) (hrun : Run (Step job) s evs t) :
    (∀ i dir, (t.stage i).dir? = some dir →
      (∀ e ∈ t.entries, e.name = dir ↔ e = ownEntry evs i dir) ∧ ownEntry evs i dir ∈ t.entries ∧
      ∀ j, (t.stage j).dir? = some dir → j = i) ∧
    (∃ made, t.entries = s.entries ++ made ∧ ∀ e ∈ made, Accounted job evs t e) ∧
    (∀ i nanos, (∃ e ∈ t.entries, e.name = workspaceName (job i) nanos) →
      (∃ e ∈ s.entries, e.name = workspaceName (job i) nanos) ∨
        ∃ j, job j = job i ∧ .create j nanos ∈ evs) ∧
    ((∀ i, (t.stage i).dir? = none) → (∀ i files, .removeFails i files ∉ evs) →
      t.entries = s.entries) := by
  obtain ⟨made, htidy⟩ := tidy_run h hrun
  refine ⟨fun i dir hdir => ⟨fun e he => ?_, ?_, fun j hj => htidy.exclusive j i dir hj hdir⟩,
    ⟨made, htidy.entries, htidy.accounted⟩, ?_, fun hnone hremoved => ?_⟩
  · constructor
    · intro hname
      rw [htidy.entries] at he
      rcases List.mem_append.mp he with he | he
      · exact absurd hname (htidy.start_ne hdir e he)
      · exact htidy.eq_own hdir he hname
    · rintro rfl
      rfl
  · rw [htidy.entries]
    exact List.mem_append_right _ (htidy.own i dir hdir).1
  · rintro i nanos ⟨e, he, hname⟩
    rw [htidy.entries] at he
    rcases List.mem_append.mp he with he | he
    · exact .inl ⟨e, he, hname⟩
    -- the name tells the job and the time
    · right
      cases htidy.accounted e he with
      | own j hdir heq =>
        obtain ⟨-, nanos', hcreate, hname'⟩ := htidy.own j _ hdir
        obtain ⟨hjob, rfl⟩ := workspaceName_inj (hname'.symm.trans hname)
        exact ⟨j, hjob, hcreate⟩
      | left j nanos' files hcreate hfails heq =>
        rw [heq] at hname
        obtain ⟨hjob, rfl⟩ := workspaceName_inj hname
        exact ⟨j, hjob, hcreate⟩
  · have hmade : made = [] := by
      rw [List.eq_nil_iff_forall_not_mem]
      intro e he
      cases htidy.accounted e he with
      | own i hdir heq =>
        rw [hnone i] at hdir
        cases hdir
      | left i nanos files hcreate hfails heq => exact hremoved i files hfails
    rw [htidy.entries, hmade, List.append_nil]

/-- The sweep knows the directories that `create` makes. -/
theorem isWorkspace_workspaceName (job : Int) (nanos : Nat) (files : List String) :
    DirEntry.isWorkspace ⟨workspaceName job nanos, true, files⟩ = true := by
  simp only [DirEntry.isWorkspace, DirEntry.isOurs, workspaceName, fromUtf8_utf8,
    String.toList_append, List.append_assoc, Bool.and_true]
  exact List.isPrefixOf_iff_prefix.mpr (List.prefix_append _ _)

/-- A sweep without failures. -/
theorem sweepFrom_fine (n : Nat) (entries : List DirEntry) :
    sweepFrom (fun _ => .fine) n entries =
      (.ok (entries.countP DirEntry.isWorkspace), entries.filter (!·.isWorkspace)) := by
  induction entries generalizing n with
  | nil => rfl
  | cons e entries ih =>
    rw [sweepFrom, ih]
    cases hours : e.isWorkspace <;> simp [hours, Except.map]

/-- **The next start sweeps up.** Wherever the calls are stopped, a sweep without failures
leaves of the root what it was before they began, less the workspaces that were there. -/
theorem swept_after_run (h : s.Starts) (hrun : Run (Step job) s evs t) :
    sweep (.ok ()) (fun _ => .fine) t.entries =
      (.ok (t.entries.countP DirEntry.isWorkspace), s.entries.filter (!·.isWorkspace)) := by
  obtain ⟨made, htidy⟩ := tidy_run h hrun
  have hours : ∀ e ∈ made, e.isWorkspace = true := by
    intro e he
    cases htidy.accounted e he with
    | own i hdir heq =>
      obtain ⟨-, nanos, -, hname⟩ := htidy.own i _ hdir
      rw [heq, hname]
      exact isWorkspace_workspaceName (job i) nanos _
    | left i nanos files hcreate hfails heq =>
      rw [heq]
      exact isWorkspace_workspaceName (job i) nanos files
  have hmade : made.filter (!·.isWorkspace) = [] :=
    List.filter_eq_nil_iff.mpr fun e he => by simp [hours e he]
  rw [sweep, sweepFrom_fine, htidy.entries, List.filter_append, hmade, List.append_nil]

/-- A root without workspaces, and two calls. -/
def twoCalls : Site Bool := ⟨[], fun _ => .starting⟩

/-- The jobs of the two calls. -/
def twoJobs (i : Bool) : Int := if i then 2 else 1

/-- The first call has its directory. -/
def oneMade : Site Bool :=
  ⟨[⟨workspaceName 1 5, true, []⟩],
    Function.update (fun _ => .starting) false (.running (workspaceName 1 5))⟩

/-- So has the second. -/
def bothMade : Site Bool :=
  ⟨[⟨workspaceName 1 5, true, []⟩, ⟨workspaceName 2 5, true, []⟩],
    Function.update (Function.update (fun _ => .starting) false (.running (workspaceName 1 5)))
      true (.running (workspaceName 2 5))⟩

theorem bothMade_run :
    Run (Step twoJobs) twoCalls [.create false 5, .create true 5] bothMade := by
  have hfirst : Step twoJobs twoCalls (.create false 5) oneMade :=
    .create twoCalls false 5 rfl fun e he => absurd he List.not_mem_nil
  have hsecond : Step twoJobs oneMade (.create true 5) bothMade := by
    refine .create oneMade true 5 rfl fun e he hname => ?_
    rw [List.mem_singleton.mp he] at hname
    cases (workspaceName_inj hname).1
  exact Run.cons hfirst (Run.single hsecond)

/-- Two jobs that start at the same time have a directory each. -/
theorem bothMade_apart : ownEntry [.create false 5, .create true 5] true (workspaceName 2 5) ∈
    bothMade.entries := by
  have hstarts : twoCalls.Starts := ⟨List.nodup_nil, fun _ => rfl⟩
  exact ((workspaces_kept_apart hstarts bothMade_run).1 true (workspaceName 2 5) rfl).2.1

/-- The directories of two calls that were killed are swept. -/
theorem bothMade_swept : sweep (.ok ()) (fun _ => .fine) bothMade.entries =
    (.ok (bothMade.entries.countP DirEntry.isWorkspace), []) := by
  have hstarts : twoCalls.Starts := ⟨List.nodup_nil, fun _ => rfl⟩
  exact swept_after_run hstarts bothMade_run

end Site

end JobRunner
