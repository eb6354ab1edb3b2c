import JobRunner.Store.Effects

/-!
# One `claim_next` call

`claim_next` is a retry loop over three autocommitted statements: the `SELECT`
of the oldest candidate, the `UPDATE` that claims it, and the `SELECT` that
reads it back. Other parties run their own statements in between, and every
statement can fail.

- `ClaimPc`, `ClaimPc.step`: the call as a machine that runs one statement at a
  time. The systems of workers interleave these machines.
- `claimNext`: the call as the source writes it, with what the others do before
  each statement (`env`) and which statements fail (`faults`) as inputs;
  `claimNext_eq_drive` says that it is the machine run to its end.
- `claim_error_iff`: a call that answers `Err` has left no row changed exactly
  when it was not *stranded*: its `UPDATE` won a row and then the answer to the
  `UPDATE`, or the read-back, was lost.
-/

namespace JobRunner

/-- `CLAIM_ATTEMPTS`. -/
def claimAttempts : Nat := 5

/-! ## The call as a machine -/

/-- Where a call stands: the statement it runs next, and how many rounds it has
left after this one. -/
inductive ClaimPc where
  | select (left : Nat)
  | update (id : Int) (left : Nat)
  | read (id : Int)
deriving DecidableEq, Repr

/-- What a call does after a statement. -/
inductive ClaimNext where
  | goto (pc : ClaimPc)
  | returned (answer : Except StoreError (Option Job))

/-- The head of the `for` loop with `left` rounds to go. -/
def ClaimNext.round : Nat → ClaimNext
  | 0 => .returned (.ok none)
  | left + 1 => .goto (.select left)

/-- A call that has not run a statement yet. -/
def ClaimNext.start : ClaimNext := .round claimAttempts

/-- One statement of a call. -/
def ClaimPc.step (db : Database) : ClaimPc → Database × ClaimNext
  | .select left =>
    match db.oldestUnclaimedId with
    | none => (db, .returned (.ok none))
    | some id => (db, .goto (.update id left))
  | .update id left =>
    match db.tryClaim id with
    | (db', true) => (db', .goto (.read id))
    -- another worker got there first; look for the next row
    | (db', false) => (db', .round left)
  | .read id => (db, .returned (db.get id))

theorem ClaimPc.step_update (db : Database) (id : Int) (left : Nat) :
    (ClaimPc.update id left).step db =
      ((db.tryClaim id).1,
        if (db.tryClaim id).2 then .goto (.read id) else .round left) := by
  rw [step]
  cases hc : db.tryClaim id with
  | mk db' won => cases won <;> rfl

@[simp] theorem ClaimPc.step_read (db : Database) (id : Int) :
    (ClaimPc.read id).step db = (db, .returned (db.get id)) := rfl

/-- The row the next statement of a call claims, if it claims one. -/
def ClaimPc.claims (db : Database) : ClaimPc → Option Int
  | .update id _ => if (db.tryClaim id).2 then some id else none
  | _ => none

/-- A statement claims a job exactly when it is the `UPDATE` and finds the job
unclaimed. The `SELECT` before it and the read-back after it claim nothing. -/
theorem ClaimPc.claims_eq_some_iff {db : Database} {pc : ClaimPc} {id : Int} :
    pc.claims db = some id ↔ (∃ left, pc = .update id left) ∧ db.jobStatus id = some .new := by
  cases pc with
  | select left => simp [claims]
  | read id' => simp [claims]
  | update id' left =>
    rw [claims, ← Database.tryClaim_won_iff]
    by_cases h : (db.tryClaim id').2 = true
    · rw [if_pos h]
      constructor
      · rintro ⟨⟩
        exact ⟨⟨left, rfl⟩, h⟩
      · rintro ⟨⟨left', heq⟩, -⟩
        cases heq
        rfl
    · rw [if_neg h]
      constructor
      · rintro ⟨⟩
      · rintro ⟨⟨left', heq⟩, hwon⟩
        cases heq
        exact absurd hwon h

/-- What one statement of a call can do: the database it leaves, what the call
does next and the row it claimed. -/
inductive ClaimPc.Effect (db : Database) :
    ClaimPc → Database → ClaimNext → Option Int → Prop where
  | empty {left : Nat} (h : db.oldestUnclaimedId = none) :
      Effect db (.select left) db (.returned (.ok none)) none
  | found {left : Nat} {id : Int} (h : db.oldestUnclaimedId = some id) :
      Effect db (.select left) db (.goto (.update id left)) none
  | won {id : Int} {left : Nat} (h : db.jobStatus id = some .new) :
      Effect db (.update id left) (db.tryClaim id).1 (.goto (.read id)) (some id)
  | retry {id : Int} {left : Nat} (h : db.jobStatus id ≠ some .new) :
      Effect db (.update id (left + 1)) db (.goto (.select left)) none
  | giveUp {id : Int} (h : db.jobStatus id ≠ some .new) :
      Effect db (.update id 0) db (.returned (.ok none)) none
  | read {id : Int} :
      Effect db (.read id) db (.returned (.ok ((db.jobRow id).map db.toJob))) none

/-- **What one statement does**, for all three of them, to the table and to the
call. The runs of the claimers and of the fleet are derived from this. -/
theorem ClaimPc.step_effect (db : Database) (pc : ClaimPc) :
    pc.Effect db (pc.step db).1 (pc.step db).2 (pc.claims db) := by
  cases pc with
  | select left =>
    cases h : db.oldestUnclaimedId with
    | none =>
      simp only [step, claims, h]
      exact .empty h
    | some id =>
      simp only [step, claims, h]
      exact .found h
  | update id left =>
    rw [step_update, claims]
    cases hwon : (db.tryClaim id).2 with
    | true => exact .won (Database.tryClaim_won_iff.mp hwon)
    | false =>
      have hnew : db.jobStatus id ≠ some .new := fun h => by
        rw [Database.tryClaim_won_iff.mpr h] at hwon
        cases hwon
      rw [Database.tryClaim_lost hwon]
      cases left with
      | zero => exact .giveUp hnew
      | succ left => exact .retry hnew
  | read id =>
    simp only [step_read, claims, Database.get_eq]
    exact .read

/-! ## The call under interference and faults -/

/-- What becomes of a statement: it runs and answers, it fails without effect, or
it takes effect and its answer is lost. -/
inductive Fault where
  | none
  | failed
  | lost
deriving DecidableEq, Repr

/-- How a call ended: its answer, the database it left, and the row its `UPDATE`
changed, if it changed one. -/
structure CallResult where
  answer : Except StoreError (Option Job)
  db : Database
  changed : Option Int

/-- The error of a statement whose answer did not arrive. -/
def connectionError {α : Type} : Except StoreError α :=
  .error (.database .connection)

/-- The `for` loop of `claim_next`. `env n` is what the other parties do to the
database before the `n`-th statement of the call, and `faults n` what becomes of
that statement. -/
def claimLoop (env : Nat → Database → Database) (faults : Nat → Fault) :
    Nat → Nat → Database → CallResult
  | 0, _, db => ⟨.ok none, db, none⟩
  | left + 1, n, db =>
    let db₁ := env n db
    if faults n = .none then
      match db₁.oldestUnclaimedId with
      | none => ⟨.ok none, db₁, none⟩
      | some id =>
        let db₂ := env (n + 1) db₁
        let (db₃, won) := db₂.tryClaim id
        match faults (n + 1) with
        | .failed => ⟨connectionError, db₂, none⟩
        | .lost => ⟨connectionError, db₃, if won then some id else none⟩
        | .none =>
          if won then
            let db₄ := env (n + 2) db₃
            if faults (n + 2) = .none then ⟨db₄.get id, db₄, some id⟩
            else ⟨connectionError, db₄, some id⟩
          else claimLoop env faults left (n + 2) db₃
    else ⟨connectionError, db₁, none⟩

/-- `JobStore::claim_next`. -/
def claimNext (env : Nat → Database → Database) (faults : Nat → Fault) (db : Database) :
    CallResult :=
  claimLoop env faults claimAttempts 0 db

/-- The machine under the same inputs, with fuel for its statements. -/
def drive (env : Nat → Database → Database) (faults : Nat → Fault) :
    Nat → Nat → Database → Option Int → ClaimNext → Option CallResult
  | _, _, db, changed, .returned answer => some ⟨answer, db, changed⟩
  | 0, _, _, _, .goto _ => none
  | fuel + 1, n, db, changed, .goto pc =>
    let db₁ := env n db
    let changed' := (pc.claims db₁).or changed
    match faults n with
    | .failed => some ⟨connectionError, db₁, changed⟩
    | .lost => some ⟨connectionError, (pc.step db₁).1, changed'⟩
    | .none => drive env faults fuel (n + 1) (pc.step db₁).1 changed' (pc.step db₁).2

/-- Round by round, the machine does what the loop does. A round is two statements,
and the read-back after a won race is the one more that the fuel allows. -/
theorem drive_round (env : Nat → Database → Database) (faults : Nat → Fault) (left n : Nat)
    (db : Database) :
    drive env faults (2 * left + 1) n db none (.round left) =
      some (claimLoop env faults left n db) := by
  induction left generalizing n db with
  | zero => rfl
  | succ left ih =>
    show drive env faults (2 * left + 2 + 1) n db none (.goto (.select left)) = _
    rw [drive, claimLoop]
    cases hn : faults n with
    | failed => rfl
    | lost =>
      cases hold : (env n db).oldestUnclaimedId <;> simp [ClaimPc.step, ClaimPc.claims, hold]
    | none =>
      cases hold : (env n db).oldestUnclaimedId with
      | none => simp [ClaimPc.step, ClaimPc.claims, hold, drive]
      | some id =>
        simp only [ClaimPc.step, ClaimPc.claims, hold, Option.none_or, if_true]
        rw [drive]
        cases hwon : ((env (n + 1) (env n db)).tryClaim id).2 with
        | true =>
          cases hn₁ : faults (n + 1) <;>
            cases hn₂ : faults (n + 2) <;>
            simp [ClaimPc.step_update, ClaimPc.claims, hwon, drive, hn₂]
        | false =>
          cases hn₁ : faults (n + 1) <;>
            simp [ClaimPc.step_update, ClaimPc.claims, hwon, ih]

/-- `claimNext` is the machine, run from its start to its end. So what is proved of
the call alone and of calls that are interleaved is about one definition. -/
theorem claimNext_eq_drive (env : Nat → Database → Database) (faults : Nat → Fault)
    (db : Database) :
    drive env faults (2 * claimAttempts + 1) 0 db none .start =
      some (claimNext env faults db) :=
  drive_round env faults claimAttempts 0 db

/-! ## When a call strands a job -/

/-- The table as the `k`-th statement from `n` on finds it, as long as the call
itself has changed nothing. -/
def seen (env : Nat → Database → Database) (n : Nat) : Nat → Database → Database
  | 0, db => env n db
  | k + 1, db => env (n + k + 1) (seen env n k db)

theorem seen_add_two (env : Nat → Database → Database) (n k : Nat) (db : Database) :
    seen env n (k + 2) db = seen env (n + 2) k (seen env n 1 db) := by
  induction k with
  | zero => rfl
  | succ k ih =>
    show env (n + (k + 2) + 1) (seen env n (k + 2) db) =
      env (n + 2 + k + 1) (seen env (n + 2) k (seen env n 1 db))
    rw [ih, show n + (k + 2) + 1 = n + 2 + k + 1 by omega]

/-- The candidate round `r` finds, if its `SELECT` answers. -/
def candidate (env : Nat → Database → Database) (faults : Nat → Fault) (n : Nat)
    (db : Database) (r : Nat) : Option Int :=
  if faults (n + 2 * r) = .none then (seen env n (2 * r) db).oldestUnclaimedId else none

/-- Round `r` ends with its `UPDATE` matching no row. -/
def LosesRound (env : Nat → Database → Database) (faults : Nat → Fault) (n : Nat)
    (db : Database) (r : Nat) : Prop :=
  ∃ id, candidate env faults n db r = some id ∧ faults (n + 2 * r + 1) = .none ∧
    (seen env n (2 * r + 1) db).jobStatus id ≠ some .new

/-- In round `r` the candidate is still unclaimed when the `UPDATE` arrives, and
then the answer to the `UPDATE`, or the read-back, fails. -/
def StrandsRound (env : Nat → Database → Database) (faults : Nat → Fault) (n : Nat)
    (db : Database) (r : Nat) : Prop :=
  ∃ id, candidate env faults n db r = some id ∧
    (seen env n (2 * r + 1) db).jobStatus id = some .new ∧
    (faults (n + 2 * r + 1) = .lost ∨
      faults (n + 2 * r + 1) = .none ∧ faults (n + 2 * r + 2) ≠ .none)

/-- Within `left` rounds from statement `n` on, a round strands its candidate after
all earlier ones were lost to other claimers. -/
def Strands (env : Nat → Database → Database) (faults : Nat → Fault) (left n : Nat)
    (db : Database) : Prop :=
  ∃ r < left, (∀ q < r, LosesRound env faults n db q) ∧ StrandsRound env faults n db r

section Rounds

variable {env : Nat → Database → Database} {faults : Nat → Fault} {left n : Nat}
  {db : Database}

theorem candidate_zero :
    candidate env faults n db 0 =
      if faults n = .none then (env n db).oldestUnclaimedId else none := rfl

theorem candidate_succ (r : Nat) :
    candidate env faults n db (r + 1) = candidate env faults (n + 2) (seen env n 1 db) r := by
  unfold candidate
  rw [show 2 * (r + 1) = 2 * r + 2 by omega, seen_add_two,
    show n + (2 * r + 2) = n + 2 + 2 * r by omega]

theorem losesRound_succ (r : Nat) :
    LosesRound env faults n db (r + 1) ↔
      LosesRound env faults (n + 2) (seen env n 1 db) r := by
  unfold LosesRound
  rw [candidate_succ, show 2 * (r + 1) + 1 = 2 * r + 1 + 2 by omega, seen_add_two,
    show n + 2 * (r + 1) + 1 = n + 2 + 2 * r + 1 by omega]

theorem strandsRound_succ (r : Nat) :
    StrandsRound env faults n db (r + 1) ↔
      StrandsRound env faults (n + 2) (seen env n 1 db) r := by
  unfold StrandsRound
  rw [candidate_succ, show 2 * (r + 1) + 1 = 2 * r + 1 + 2 by omega, seen_add_two,
    show n + 2 * (r + 1) + 1 = n + 2 + 2 * r + 1 by omega,
    show n + 2 * (r + 1) + 2 = n + 2 + 2 * r + 2 by omega]

/-- The first round decides, or hands over to the others, and it hands over only by
losing its race: the table is then as the other clients left it. -/
theorem strands_succ :
    Strands env faults (left + 1) n db ↔
      StrandsRound env faults n db 0 ∨
        LosesRound env faults n db 0 ∧ Strands env faults left (n + 2) (seen env n 1 db) := by
  constructor
  · rintro ⟨r, hr, hloses, hstrands⟩
    cases r with
    | zero => exact .inl hstrands
    | succ r =>
      refine .inr ⟨hloses 0 (Nat.succ_pos r), r, Nat.lt_of_succ_lt_succ hr, ?_, ?_⟩
      · intro q hq
        exact (losesRound_succ q).mp (hloses (q + 1) (Nat.succ_lt_succ hq))
      · exact (strandsRound_succ r).mp hstrands
  · rintro (hstrands | ⟨hloses, r, hr, hrest, hstrands⟩)
    · exact ⟨0, Nat.succ_pos left, fun q hq => absurd hq (Nat.not_lt_zero q), hstrands⟩
    · refine ⟨r + 1, Nat.succ_lt_succ hr, ?_, (strandsRound_succ r).mpr hstrands⟩
      intro q hq
      cases q with
      | zero => exact hloses
      | succ q => exact (losesRound_succ q).mpr (hrest q (Nat.lt_of_succ_lt_succ hq))

/-- How a round with a candidate goes depends on whether the candidate is still
unclaimed, and then on the faults of the `UPDATE` and of the read-back. -/
theorem strandsRound_iff {r : Nat} {id : Int} (h : candidate env faults n db r = some id) :
    StrandsRound env faults n db r ↔ (seen env n (2 * r + 1) db).jobStatus id = some .new ∧
      (faults (n + 2 * r + 1) = .lost ∨
        faults (n + 2 * r + 1) = .none ∧ faults (n + 2 * r + 2) ≠ .none) := by
  unfold StrandsRound
  simp only [h, Option.some.injEq, exists_eq_left']

theorem losesRound_iff {r : Nat} {id : Int} (h : candidate env faults n db r = some id) :
    LosesRound env faults n db r ↔ faults (n + 2 * r + 1) = .none ∧
      (seen env n (2 * r + 1) db).jobStatus id ≠ some .new := by
  unfold LosesRound
  simp only [h, Option.some.injEq, exists_eq_left']

/-- A candidate comes from a `SELECT` that answers. -/
theorem candidate_zero_eq_some {id : Int} (h : candidate env faults n db 0 = some id) :
    faults n = .none ∧ (env n db).oldestUnclaimedId = some id := by
  rw [candidate_zero] at h
  split at h
  next hn => exact ⟨hn, h⟩
  · cases h

/-- Without a candidate the call ends in its first round. -/
theorem not_strands_of_candidate (h : candidate env faults n db 0 = none) :
    ¬Strands env faults left n db := by
  cases left with
  | zero =>
    rintro ⟨r, hr, -⟩
    exact absurd hr (Nat.not_lt_zero r)
  | succ left =>
    rw [strands_succ]
    rintro (⟨id, hid, -⟩ | ⟨⟨id, hid, -⟩, -⟩) <;>
    · rw [h] at hid
      cases hid

end Rounds

/-- A call that answers `Err` has changed nothing. -/
def ErrKeepsTable (r : CallResult) : Prop :=
  ∀ e, r.answer = .error e → r.changed = none

/-- The equivalence for the loop, from any round on: by induction on the rounds that
are left, the first round decided by its candidate. -/
theorem claimLoop_error_iff (env : Nat → Database → Database) (faults : Nat → Fault)
    (left n : Nat) (db : Database) :
    ErrKeepsTable (claimLoop env faults left n db) ↔ ¬Strands env faults left n db := by
  induction left generalizing n db with
  | zero =>
    refine iff_of_true (fun e h => rfl) ?_
    rintro ⟨r, hr, -⟩
    exact absurd hr (Nat.not_lt_zero r)
  | succ left ih =>
    cases hcand : candidate env faults n db 0 with
    | none =>
      refine iff_of_true (fun e h => ?_) (not_strands_of_candidate hcand)
      rw [candidate_zero] at hcand
      rw [claimLoop] at h ⊢
      by_cases hn : faults n = .none
      · rw [if_pos hn] at hcand
        simp only [hn, hcand, if_true]
      · simp only [hn, if_false]
    | some id =>
      obtain ⟨hn, holdest⟩ := candidate_zero_eq_some hcand
      have hseen : env (n + 1) (env n db) = seen env n 1 db := rfl
      rw [claimLoop, strands_succ, strandsRound_iff hcand, losesRound_iff hcand]
      simp only [hn, if_true, holdest, hseen, Nat.mul_zero, Nat.add_zero, Nat.zero_add]
      -- an `UPDATE` that won is claimed for good; one that lost starts the next round
      cases hwon : ((seen env n 1 db).tryClaim id).2 with
      | true =>
        have hnew : (seen env n 1 db).jobStatus id = some .new :=
          Database.tryClaim_won_iff.mp hwon
        cases hn₁ : faults (n + 1) <;>
          cases hn₂ : faults (n + 2) <;>
          simp [ErrKeepsTable, hnew, connectionError, Database.get_eq]
      | false =>
        have hlost : (seen env n 1 db).jobStatus id ≠ some .new := fun hnew => by
          rw [Database.tryClaim_won_iff.mpr hnew] at hwon
          cases hwon
        rw [Database.tryClaim_lost hwon]
        cases hn₁ : faults (n + 1) with
        | failed => simp [ErrKeepsTable, hlost]
        | lost => simp [ErrKeepsTable, hlost]
        | none => simpa [hlost] using ih (n + 2) (seen env n 1 db)

/-- **A call that answers `Err` has left no row changed exactly when it did not
strand a job.** -/
theorem claim_error_iff (env : Nat → Database → Database) (faults : Nat → Fault)
    (db : Database) :
    ErrKeepsTable (claimNext env faults db) ↔ ¬Strands env faults claimAttempts 0 db :=
  claimLoop_error_iff env faults claimAttempts 0 db

/-- `changed` is what the call did to the table: with nobody else at work, the table
afterwards is the one before, or the one with that row claimed. This is what it
stands for while other clients write as well. -/
theorem claimLoop_alone (faults : Nat → Fault) (left n : Nat) (db : Database) :
    let r := claimLoop (fun _ db => db) faults left n db
    (r.changed = none ∧ r.db = db) ∨
      ∃ id, r.changed = some id ∧ db.jobStatus id = some .new ∧ r.db = (db.tryClaim id).1 := by
  induction left generalizing n with
  | zero => exact .inl ⟨rfl, rfl⟩
  | succ left ih =>
    rw [claimLoop]
    by_cases hn : faults n = .none
    · cases hcand : db.oldestUnclaimedId with
      | none => simp [hn]
      | some id =>
        have hnew := (Database.oldestUnclaimedId_eq_some hcand).1
        have hwon := Database.tryClaim_won_iff.mpr hnew
        cases hn₁ : faults (n + 1) with
        | failed => simp [hn]
        | lost => exact .inr ⟨id, by simp [hn, hwon], hnew, by simp [hn]⟩
        | none =>
          refine .inr ⟨id, ?_, hnew, ?_⟩ <;>
            by_cases hn₂ : faults (n + 2) = .none <;>
            simp [hn, hwon, hn₂]
    · simp [hn]

/-- The database with one unclaimed job in it. -/
def unclaimedDb : Database :=
  .single ⟨7, 1, 1⟩ ⟨1, 7, .user, ⟨"x", Text.sample_fits⟩, some 1, none, .new⟩ rfl

/-- The same database with a second unclaimed job. -/
def twoJobsDb : Database :=
  unclaimedDb.add ⟨2, 7, .user, ⟨"x", Text.sample_fits⟩, some 1, none, .new⟩ rfl rfl

/-- Only the read-back fails: the call answers `Err`, and the job it claimed is
left `pending`. -/
theorem failed_read_strands_job :
    let r := claimNext (fun _ db => db) (fun n => if n = 2 then .failed else .none) unclaimedDb
    r.answer = connectionError ∧ unclaimedDb.jobStatus 1 = some .new ∧
      r.db.jobStatus 1 = some .pending ∧ ¬ErrKeepsTable r := by
  refine ⟨rfl, rfl, rfl, fun h => ?_⟩
  have hnone := h _ rfl
  cases hnone

end JobRunner
