import JobRunner.Http.View
import JobRunner.Lib.Beside

/-!
# A client that follows a job

A client reads the row of a job again and again, and at last its reply, while workers claim,
finish and requeue. Two programs do so: `jobctl enqueue` in the database, and `jobctl ask`
through the HTTP API.

- `Told`, `Step.told`: what the row of a job says along a run, its partial answer included.
- `Follows`: what a client has to show of its reads.
- `Follows.run`: where the client stands fits what was recorded for the job.
- `Follows.reads`: once an outcome is recorded, so many reads are left.
-/

namespace JobRunner

open Keyed Transition

/-! ## The `result` member -/

/-- The partial answer that was recorded. -/
def recordedResult : List JobOutcome → Option String
  | [.failed _ result] => result
  | _ => none

/-- What the row of a job says about the outcomes recorded for it, its `result` member
included. -/
structure Told (db : Database) (m : Message) (recorded : List JobOutcome) : Prop where
  book : Bookkeeping db m recorded
  result : m.payload.bind (·.get? "result") = (recordedResult recorded).map .str

/-- A row nobody has claimed says that nothing was recorded. -/
theorem Told.unclaimed {db : Database} {m : Message} (hnew : m.status = .new)
    (hclean : CleanPayload m.payload) (hresult : m.payload.bind (·.get? "result") = none) :
    Told db m [] :=
  ⟨.unfinished (by rw [hnew]; rfl) hclean, hresult⟩

/-- A row that is finished has one outcome recorded, and no second one follows. -/
theorem Told.append {db : Database} {m : Message} {o : JobOutcome} {more : List JobOutcome}
    (h : Told db m ([o] ++ more)) : more = [] := by
  have hbook := h.book
  generalize hrec : [o] ++ more = recorded at hbook
  cases hbook with
  | unfinished => cases hrec
  | done | failed => simpa using congrArg List.tail hrec

/-- `JSON_SET` leaves an object. -/
theorem setPayload_isObject {payload : Option Json} (h : payload.all Json.isObject = true)
    (key : String) (v : Json) : (Database.setPayload key v payload).all Json.isObject = true := by
  cases payload with
  | none => rfl
  | some doc =>
    cases doc with
    | obj members => rfl
    | _ => cases h

theorem failurePayload_get_result {payload : Option Json}
    (h : payload.all Json.isObject = true) (error : String) (result : Option String) :
    (Database.failurePayload error result payload).bind (·.get? "result") =
      (result.map Json.str).or (payload.bind (·.get? "result")) := by
  cases result with
  | none => exact Database.setPayload_get_other payload (by decide) _
  | some result =>
    exact Database.setPayload_get_self (setPayload_isObject h "error" _) "result" _

namespace Fleet

variable {ω : Type} [DecidableEq ω] {s t : Fleet ω} {evs : List (FleetEvent ω)}

/-- A step keeps the row of a job, its `result` member included, and the outcomes
recorded for it in agreement. Clients of the API and of the database are followed by
this alone. -/
theorem Step.told {e : FleetEvent ω} (h : Step s e t) (hheld : s.HeldJobs) {j : Int}
    {m : Message} (hm : s.db.jobRow j = some m) {recorded : List JobOutcome}
    (htold : Told s.db m recorded) :
    ∃ m', t.db.jobRow j = some m' ∧ Told t.db m' (recorded ++ (e.recorded j).toList) := by
  obtain ⟨m', hm', hbook⟩ := h.bookkeeping hheld hm htold.book
  obtain ⟨m'', hm'', hmove⟩ := h.rowMove hheld hm
  rw [hm', Option.some.injEq] at hm''
  subst hm''
  refine ⟨m', hm', hbook, ?_⟩
  cases hmove with
  | stay hrec | claim hrec | requeue hrec =>
    rw [hrec, Option.toList_none, List.append_nil]
    exact htold.result
  | finish o hrec hpending =>
    obtain ⟨rfl, hclean⟩ := htold.book.of_status (by rw [hpending]; rfl)
    have hnone : m.payload.bind (·.get? "result") = none := htold.result
    rw [hrec]
    cases o with
    | success text =>
      show (Database.setPayload "reply_id" _ m.payload).bind _ = _
      rw [Database.setPayload_get_other _ (by decide), hnone]
      rfl
    | failed error result =>
      show (Database.failurePayload error result m.payload).bind _ = _
      rw [failurePayload_get_result hclean.object, hnone, Option.or_none]
      rfl

end Fleet

/-! ## Clients -/

section Follow

variable {κ ω : Type} [DecidableEq ω] {j : Int} {read : Database → κ → κ → Prop}
  {Stands : Database → List JobOutcome → κ → Prop} {left : κ → Nat}

/-- A client of job `j` whose reads keep `Stands`, a relation between the table, the outcomes
recorded for the job, and the client. Once an outcome is recorded, each read leaves fewer. -/
structure Follows (j : Int) (read : Database → κ → κ → Prop)
    (Stands : Database → List JobOutcome → κ → Prop) (left : κ → Nat) : Prop where
  /-- More rows, and nothing more recorded after an outcome. -/
  mono {db db' : Database} {recorded more : List JobOutcome} {k : κ} :
    Stands db recorded k → db.Extends db' → (∀ o, recorded = [o] → more = []) →
      Stands db' (recorded ++ more) k
  read {db : Database} {m : Message} {recorded : List JobOutcome} {k k' : κ} :
    db.jobRow j = some m → Told db m recorded → Stands db recorded k → read db k k' →
      Stands db recorded k' ∧ (recorded ≠ [] → left k' < left k)

/-- The runs of a fleet and of a client beside it. -/
abbrev FollowRun (read : Database → κ → κ → Prop) (x : Fleet ω × κ)
    (evs : List (Option (FleetEvent ω))) (y : Fleet ω × κ) : Prop :=
  Run (Beside.Step Fleet.Step fun s => read s.db) x evs y

/-- The job's row, what it tells, and where the client stands. -/
structure Followed (j : Int) (Stands : Database → List JobOutcome → κ → Prop)
    (recorded : List JobOutcome) (s : Fleet ω) (k : κ) : Prop where
  held : s.HeldJobs
  row : ∃ m, s.db.jobRow j = some m ∧ Told s.db m recorded
  stands : Stands s.db recorded k

namespace Follows

variable {s t : Fleet ω} {recorded : List JobOutcome} {k k' : κ}
  {evs : List (Option (FleetEvent ω))}

/-- A step of the system leaves the client where it stands, and where it stands
still fits, with what has been recorded meanwhile. -/
theorem system (h : Follows j read Stands left) {e : FleetEvent ω}
    (hk : Followed j Stands recorded s k) (hstep : Fleet.Step s e t) :
    Followed j Stands (recorded ++ (e.recorded j).toList) t k := by
  obtain ⟨m, hm, htold⟩ := hk.row
  obtain ⟨m', hm', htold'⟩ := hstep.told hk.held hm htold
  refine ⟨hstep.heldJobs hk.held, ⟨m', hm', htold'⟩, h.mono hk.stands hstep.keepsRows ?_⟩
  rintro o rfl
  exact htold'.append

omit [DecidableEq ω] in
/-- A read of the client fits as well, and once an outcome is recorded it brings the
client nearer to its end. -/
theorem client (h : Follows j read Stands left) (hk : Followed j Stands recorded s k)
    (hread : read s.db k k') :
    Followed j Stands recorded s k' ∧ (recorded ≠ [] → left k' < left k) := by
  obtain ⟨m, hm, htold⟩ := hk.row
  obtain ⟨hstands, hless⟩ := h.read hm htold hk.stands hread
  exact ⟨⟨hk.held, hk.row, hstands⟩, hless⟩

/-- **Run rule.** Where the client stands fits what was recorded for its job. By
induction along the run, whose steps are the system's or the client's. -/
theorem run (h : Follows j read Stands left) (hrun : FollowRun read (s, k) evs (t, k'))
    (hk : Followed j Stands recorded s k) :
    Followed j Stands (recorded ++ recordings j (Beside.events evs)) t k' := by
  refine Beside.invariant
    (I := fun evs s k => Followed j Stands (recorded ++ recordings j evs) s k) hrun ?_ ?_ ?_
  · rwa [recordings, List.filterMap_nil, List.append_nil]
  · intro evs s e t k hk hstep
    rw [recordings_snoc, ← List.append_assoc]
    exact h.system hk hstep
  · intro evs s k k' hk hread
    exact (h.client hk hread).1

/-- Once an outcome is recorded, the client reads as often as is left to it, at
most: every read uses one up, and the system's steps use up none. -/
theorem reads_le (h : Follows j read Stands left) {o : JobOutcome}
    (hrun : FollowRun read (s, k) evs (t, k')) (hk : Followed j Stands [o] s k) :
    Beside.reads evs + left k' ≤ left k := by
  refine Beside.reads_bound (J := Followed j Stands [o]) left ?_ ?_ hrun hk
  · intro s e t k hk hstep
    have hk' := h.system hk hstep
    obtain ⟨m, -, htold⟩ := hk'.row
    rwa [htold.append, List.append_nil] at hk'
  · intro s k k' hk hread
    obtain ⟨hk', hless⟩ := h.client hk hread
    exact ⟨hk', hless (List.cons_ne_nil o [])⟩

/-- **Bounded reads.** From the first state on in which an outcome is recorded. -/
theorem reads (h : Follows j read Stands left) {bound : Nat} (hbound : ∀ k, left k ≤ bound)
    (hrun : FollowRun read (s, k) evs (t, k')) (hk : Followed j Stands [] s k)
    {xs ys : List (Option (FleetEvent ω))} (hsplit : evs = xs ++ ys)
    (hrec : recordings j (Beside.events xs) ≠ []) : Beside.reads ys + left k' ≤ bound := by
  subst hsplit
  obtain ⟨⟨u, k₁⟩, hrun₁, hrun₂⟩ := hrun.split
  have hmid := h.run hrun₁ hk
  rw [List.nil_append] at hmid
  obtain ⟨m', -, htold⟩ := hmid.row
  -- one outcome at most is recorded
  have hone : ∃ o, recordings j (Beside.events xs) = [o] := by
    have hbook := htold.book
    generalize recordings j (Beside.events xs) = recorded at hbook hrec
    cases hbook with
    | unfinished => exact absurd rfl hrec
    | done | failed => exact ⟨_, rfl⟩
  obtain ⟨o, ho⟩ := hone
  rw [ho] at hmid
  exact (h.reads_le hrun₂ hmid).trans (hbound k₁)

end Follows

end Follow

end JobRunner
