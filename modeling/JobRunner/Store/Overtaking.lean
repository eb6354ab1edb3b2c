import JobRunner.Store.ClaimOrder

/-!
# How long a job waits, and when a worker goes to sleep

`claim_next` takes the oldest unclaimed job its `SELECT` saw, so a younger job is claimed
before an older one only by a call that had already chosen it. And it answers `None` only
when there was nothing to claim, or when others claimed something in each of its rounds; a
polling loop sleeps after that answer.

- `overtakes`, `stale`: a claim of a younger job, and a call that is about to make one.
- `overtaken_once`: a waiting job is overtaken at most once by each worker.
- `othersClaims`, `Searching`: what the lost rounds of a call stand for.
- `none_means_empty_or_busy`: what `None` says.
-/

namespace JobRunner

open Transition

/-! ## Overtaking -/

/-- The call is about to claim a job younger than `j`. -/
def stale (j : Int) : Option ClaimPc → Nat
  | some (.update id _) => if j < id then 1 else 0
  | _ => 0

theorem stale_le (j : Int) (pc : Option ClaimPc) : stale j pc ≤ 1 := by
  unfold stale
  split
  · split <;> omega
  · omega

theorem stale_pos {j : Int} {pc : Option ClaimPc} (h : stale j pc ≠ 0) :
    ∃ id left, pc = some (.update id left) ∧ j < id := by
  unfold stale at h
  split at h
  next id left =>
    by_cases hlt : j < id
    · exact ⟨id, left, rfl, hlt⟩
    · rw [if_neg hlt] at h
      exact absurd rfl h
  · exact absurd rfl h

namespace Fleet

variable {ω : Type} [DecidableEq ω] {s₀ s t : Fleet ω} {evs₀ evs : List (FleetEvent ω)}

/-- Worker `w` claims a job younger than `j`. -/
def overtakes (j : Int) (w : ω) : FleetEvent ω → Bool
  | .statement w' (some id) => w' = w ∧ j < id
  | _ => false

theorem overtakes_eq_true {j : Int} {w : ω} {e : FleetEvent ω} (h : overtakes j w e = true) :
    ∃ id, e = .statement w (some id) ∧ j < id := by
  unfold overtakes at h
  split at h
  next w' id =>
    obtain ⟨rfl, hlt⟩ := of_decide_eq_true h
    exact ⟨id, rfl, hlt⟩
  · cases h

/-- **Step lemma.** While `j` waits, no call turns to a younger job: who claims one
was about to. So an overtaking uses up a stale candidate, and none is made. -/
theorem Step.overtakes {e : FleetEvent ω} (h : Step s e t) {j : Int}
    (hj : s.db.jobStatus j = some .new) (w : ω) :
    (if overtakes j w e then 1 else 0) + stale j (t.pc w) ≤ stale j (s.pc w) := by
  by_cases hstale : stale j (t.pc w) = 0
  · rw [hstale, Nat.add_zero]
    split
    next hover =>
      obtain ⟨id, rfl, hlt⟩ := overtakes_eq_true hover
      obtain ⟨⟨left, hpc⟩, -⟩ := h.claimed
      rw [hpc, stale, if_pos hlt]
    · exact Nat.zero_le _
  · obtain ⟨id, left, hpc, hlt⟩ := stale_pos hstale
    -- the `SELECT` of a step would have found `j` or an older job
    have hbefore : s.pc w = some (.update id left) := by
      rcases h.candidate hpc with hpc | ⟨-, hold⟩
      · exact hpc
      · have := (Database.oldestUnclaimedId_eq_some hold).2 j hj
        omega
    have hnot : Fleet.overtakes j w e = false := by
      by_contra hover
      obtain ⟨id', rfl, -⟩ := overtakes_eq_true (Bool.not_eq_false _ ▸ hover)
      obtain ⟨-, -, -, hread⟩ := h.claimed
      rw [hpc] at hread
      cases hread
    rw [hnot, hpc, hbefore]
    simp

/-- An unclaimed job stays unclaimed until a worker claims it. `requeue_pending`
leaves it as it is, and the other steps are about other jobs. -/
theorem Step.unclaimed {e : FleetEvent ω} (h : Step s e t) (hheld : s.HeldJobs) {j : Int}
    (hj : s.db.jobStatus j = some .new) :
    t.db.jobStatus j = some .new ∨ ∃ w, e = .statement w (some j) := by
  obtain ⟨b, hb, hmove⟩ := h.statusMove hheld hj
  generalize hnew : JobStatus.new = a at hmove
  cases hmove with
  | stay => exact .inl (hnew ▸ hb)
  | claim w he => exact .inr ⟨w, he⟩
  | finish | requeue => cases hnew

/-- **Run lemma.** The overtakings of a worker and the stale candidate it still has
are at most the one it had when `j` was first seen waiting. -/
theorem overtakes_run (hrun : Run Step s evs t) (hheld : s.HeldJobs) {j : Int}
    (hj : s.db.jobStatus j = some .new) (hwaits : ∀ w, .statement w (some j) ∉ evs) (w : ω) :
    t.db.jobStatus j = some .new ∧
      evs.countP (overtakes j w) + stale j (t.pc w) ≤ stale j (s.pc w) := by
  induction hrun with
  | nil => exact ⟨hj, by simp⟩
  | @snoc t u evs e hrun hstep ih =>
    obtain ⟨hnew, hle⟩ := ih fun w' hmem => hwaits w' (List.mem_append_left _ hmem)
    have hstill : u.db.jobStatus j = some .new := by
      rcases hstep.unclaimed (heldJobs_run hrun hheld) hnew with hstill | ⟨w', rfl⟩
      · exact hstill
      · exact absurd (List.mem_append_right _ (List.mem_singleton_self _)) (hwaits w')
    have hone := hstep.overtakes hnew w
    refine ⟨hstill, ?_⟩
    rw [List.countP_append, List.countP_singleton]
    omega

/-- A call that is about to claim a younger job had chosen it before `j` was there.
It is the same call, since a new one would have chosen `j` or an older job. -/
theorem chosen_before (hrun : Run Step s evs t) (hheld : s.HeldJobs) {j : Int}
    (hj : s.db.jobStatus j = some .new) (hwaits : ∀ w, .statement w (some j) ∉ evs) {w : ω}
    {id : Int} {left : Nat} (hlt : j < id) (hpc : t.pc w = some (.update id left)) :
    s.pc w = some (.update id left) := by
  induction hrun with
  | nil => exact hpc
  | @snoc t u evs e hrun hstep ih =>
    have hbefore : ∀ w', .statement w' (some j) ∉ evs :=
      fun w' hmem => hwaits w' (List.mem_append_left _ hmem)
    refine ih hbefore ?_
    rcases hstep.candidate hpc with hpc | ⟨-, hold⟩
    · exact hpc
    · have hnew := (overtakes_run hrun hheld hj hbefore w).1
      have := (Database.oldestUnclaimedId_eq_some hold).2 j hnew
      omega

/-- **Bounded overtaking.** While job `j` waits, each worker claims at most one younger job,
and only the one its call had chosen before `j` was there. -/
theorem overtaken_once (hidle : s₀.Idle) (hrun₀ : Run Step s₀ evs₀ s) {j : Int}
    (hj : s.db.jobStatus j = some .new) (hrun : Run Step s evs t)
    (hwaits : ∀ w, .statement w (some j) ∉ evs) (w : ω) :
    evs.countP (overtakes j w) ≤ 1 ∧
      ∀ id, .statement w (some id) ∈ evs → j < id → ∃ left, s.pc w = some (.update id left) := by
  have hheld := heldJobs_run hrun₀ hidle.heldJobs
  refine ⟨?_, fun id hmem hlt => ?_⟩
  · have hle := (overtakes_run hrun hheld hj hwaits w).2
    have hone := stale_le j (s.pc w)
    omega
  · obtain ⟨xs, ys, rfl⟩ := List.append_of_mem hmem
    obtain ⟨m, hxs, hrest⟩ := hrun.split
    obtain ⟨u, hstep, -⟩ := hrest.cons_inv
    obtain ⟨⟨left, hpc⟩, -⟩ := hstep.claimed
    have hbefore : ∀ w', .statement w' (some j) ∉ xs :=
      fun w' hmem => hwaits w' (List.mem_append_left _ hmem)
    exact ⟨left, chosen_before hxs hheld hj hbefore hlt hpc⟩

/-- A job with a smaller id becomes visible while the worker has chosen job 1. -/
theorem startFleet_overtaken : ∃ s t : Fleet Unit, Run Step s [.statement () (some 1)] t ∧
    s.db.jobStatus 0 = some .new ∧
      [FleetEvent.statement () (some 1)].countP (overtakes 0 ()) ≤ 1 := by
  let m : Message := ⟨0, 7, .user, ⟨"x", Text.sample_fits⟩, some 1, none, .new⟩
  let s₁ := startFleet.setPc () (some .first)
  let s₂ := s₁.proceed () (.select 4)
  let s₃ : Fleet Unit := { s₂ with db := s₂.db.add m rfl rfl }
  have hrun₀ := Run.cons (Step.begin startFleet () rfl) <|
    Run.cons (Step.statement s₁ () (.select 4) rfl) <|
    Run.single (Step.post s₂ m rfl rfl rfl rfl)
  have hrun : Run Step s₃ [.statement () (some 1)] (s₃.proceed () (.update 1 4)) :=
    Run.single (Step.statement s₃ () (.update 1 4) rfl)
  exact ⟨s₃, _, hrun, rfl,
    (overtaken_once startFleet_fresh.toIdle hrun₀ rfl hrun (by simp) ()).1⟩

/-! ## What `None` says -/

/-- Another worker claims a job. -/
def othersClaims (w : ω) : FleetEvent ω → Bool
  | .statement w' (some _) => w' ≠ w
  | _ => false

/-- Worker `w` goes on with the call it is in: it does not begin another one, and neither the
call nor the worker dies. -/
def GoesOn (w : ω) (e : FleetEvent ω) : Prop :=
  e ≠ .begin w ∧ e ≠ .abort w ∧ e ≠ .crash w

/-- Where the call of worker `w` stands, when `lost` claims were made by others since it
began. `held` are the jobs it held then. -/
inductive Searching (w : ω) (held : List Int) (lost : Nat) (s : Fleet ω) : Prop where
  | select (left : Nat) (hpc : s.pc w = some (.select left)) (hheld : s.held w = held)
      (hlost : claimAttempts ≤ lost + left + 1) : Searching w held lost s
  /-- A candidate that is claimed by now was claimed by another worker. -/
  | update (id : Int) (left : Nat) (hpc : s.pc w = some (.update id left))
      (hheld : s.held w = held) (hlost : claimAttempts ≤ lost + left + 1)
      (htaken : s.db.jobStatus id = some .new ∨ claimAttempts ≤ lost + left) :
      Searching w held lost s
  | won (id : Int) (hpc : s.pc w = some (.read id)) (hheld : s.held w = held) :
      Searching w held lost s
  | returned (id : Int) (hpc : s.pc w = none) (hheld : s.held w = id :: held) :
      Searching w held lost s
  | gaveUp (hpc : s.pc w = none) (hlost : claimAttempts ≤ lost) : Searching w held lost s

/-- A step of somebody else leaves the call of `w` where it stands, and what `w` holds. -/
theorem Step.others {e : FleetEvent ω} (h : Step s e t) {w : ω} (hon : GoesOn w e)
    (hother : ∀ claimed, e ≠ .statement w claimed) :
    t.pc w = s.pc w ∧ t.held w = s.held w := by
  obtain ⟨hbegin, habort, hcrash⟩ := hon
  cases h with
  | insert | reserve | post | finish | requeue => exact ⟨rfl, rfl⟩
  | begin w' hidle =>
    have hne : w ≠ w' := by
      rintro rfl
      exact hbegin rfl
    exact ⟨Function.update_of_ne hne _ _, rfl⟩
  | abort w' =>
    have hne : w ≠ w' := by
      rintro rfl
      exact habort rfl
    exact ⟨Function.update_of_ne hne _ _, rfl⟩
  | crash w' =>
    have hne : w ≠ w' := by
      rintro rfl
      exact hcrash rfl
    exact ⟨Function.update_of_ne hne _ _, Function.update_of_ne hne _ _⟩
  | statement w' pc hpc =>
    have hne : w ≠ w' := by
      rintro rfl
      exact hother _ rfl
    unfold proceed
    generalize (pc.step s.db).1 = db, (pc.step s.db).2 = next
    cases next with
    | goto pc' => exact ⟨Function.update_of_ne hne _ _, rfl⟩
    | returned answer => exact ⟨Function.update_of_ne hne _ _, Function.update_of_ne hne _ _⟩

omit [DecidableEq ω] in
/-- More claims of others do no harm. -/
theorem Searching.mono {w : ω} {held : List Int} {lost lost' : Nat} (h : Searching w held lost s)
    (hle : lost ≤ lost') : Searching w held lost' s := by
  cases h with
  | select left hpc hheld hlost => exact .select left hpc hheld (by omega)
  | update id left hpc hheld hlost htaken =>
    exact .update id left hpc hheld (by omega) (htaken.imp_right fun h => by omega)
  | won id hpc hheld => exact .won id hpc hheld
  | returned id hpc hheld => exact .returned id hpc hheld
  | gaveUp hpc hlost => exact .gaveUp hpc (by omega)

/-- The call's own statement: it finds nothing, or it goes on searching. A round it
loses is paid for by a claim of somebody else that has been counted. -/
theorem Searching.statement {w : ω} {held : List Int} {lost : Nat} (h : Searching w held lost s)
    (hread : s.ReadJobs) {pc : ClaimPc} (hpc : s.pc w = some pc) :
    Searching w held lost (s.proceed w pc) ∨ s.db.oldestUnclaimedId = none := by
  have heffect := pc.step_effect s.db
  unfold proceed
  generalize (pc.step s.db).1 = db, (pc.step s.db).2 = next, pc.claims s.db = claimed at heffect
  cases h with
  | returned _ hidle | gaveUp hidle =>
    rw [hpc] at hidle
    cases hidle
  | select left hpc' hheld hlost =>
    rw [hpc] at hpc'
    cases hpc'
    cases heffect with
    | empty hnone => exact .inr hnone
    | @found _ id hold =>
      obtain ⟨hnew, -⟩ := Database.oldestUnclaimedId_eq_some hold
      exact .inl (.update id left (by simp [advance]) hheld hlost (.inl hnew))
  | update id left hpc' hheld hlost htaken =>
    rw [hpc] at hpc'
    cases hpc'
    refine .inl ?_
    cases heffect with
    | won => exact .won id (by simp [advance]) hheld
    | @retry _ left hnot =>
      -- the candidate was claimed, so one more round is accounted for
      have hmore := htaken.resolve_left hnot
      exact .select left (by simp [advance]) hheld (by omega)
    | giveUp hnot =>
      have hmore := htaken.resolve_left hnot
      exact .gaveUp (by simp [advance]) (by omega)
  | won id hpc' hheld =>
    rw [hpc] at hpc'
    cases hpc'
    refine .inl ?_
    cases heffect with
    | read =>
      obtain ⟨a, ha⟩ := Option.ne_none_iff_exists'.mp (hread w id hpc)
      obtain ⟨m, hm, -⟩ := Database.jobStatus_eq_some_iff.mp ha
      refine .returned m.id (by simp [advance]) ?_
      rw [advance_held_returned, Function.update_self, hm, hheld]
      rfl

/-- **Step lemma.** As long as there is something to claim, the call goes on searching, and
what others claim counts. -/
theorem Searching.step {w : ω} {held : List Int} {lost : Nat} {e : FleetEvent ω}
    (h : Searching w held lost s) (hstep : Step s e t) (hheld : s.HeldJobs) (hread : s.ReadJobs)
    (hon : GoesOn w e) :
    Searching w held (lost + [e].countP (othersClaims w)) t ∨ s.db.oldestUnclaimedId = none := by
  by_cases hown : ∃ claimed, e = .statement w claimed
  · obtain ⟨claimed, rfl⟩ := hown
    cases hstep with
    | statement _ pc hpc => exact (h.statement hread hpc).imp_left fun h => h.mono (by omega)
  · have hother : ∀ claimed, e ≠ .statement w claimed := fun claimed he => hown ⟨claimed, he⟩
    obtain ⟨hpc', hheld'⟩ := hstep.others hon hother
    refine .inl ?_
    cases h with
    | select left hpc hw hlost => exact .select left (hpc'.trans hpc) (hheld'.trans hw) (by omega)
    | won id hpc hw => exact .won id (hpc'.trans hpc) (hheld'.trans hw)
    | returned id hpc hw => exact .returned id (hpc'.trans hpc) (hheld'.trans hw)
    | gaveUp hpc hlost => exact .gaveUp (hpc'.trans hpc) (by omega)
    | update id left hpc hw hlost htaken =>
      refine .update id left (hpc'.trans hpc) (hheld'.trans hw) (by omega) ?_
      rcases htaken with hnew | htaken
      · rcases hstep.unclaimed hheld hnew with hstill | ⟨w', rfl⟩
        · exact .inl hstill
        · -- another worker has claimed the candidate
          have hne : w' ≠ w := by
            rintro rfl
            exact hother _ rfl
          have hone : [FleetEvent.statement w' (some id)].countP (othersClaims w) = 1 := by
            simp [othersClaims, hne]
          exact .inr (by omega)
      · exact .inr (by omega)

/-- **What `None` says.** A worker begins a call of `claim_next` in the course of any run and
gets no job. Then some state it met had no unclaimed job, or others claimed a job in each of
its rounds. -/
theorem none_means_empty_or_busy (hidle : s₀.Idle) (hrun₀ : Run Step s₀ evs₀ s) {w : ω}
    (hbegun : s.pc w = some .first) (hrun : Run Step s evs t) (hon : ∀ e ∈ evs, GoesOn w e)
    (hend : t.pc w = none) (hnone : t.held w = s.held w) :
    (∃ xs ys u, evs = xs ++ ys ∧ Run Step s xs u ∧ u.db.oldestUnclaimedId = none) ∨
      claimAttempts ≤ evs.countP (othersClaims w) := by
  have hheld := heldJobs_run hrun₀ hidle.heldJobs
  suffices Searching w (s.held w) (evs.countP (othersClaims w)) t ∨
      ∃ xs ys u, evs = xs ++ ys ∧ Run Step s xs u ∧ u.db.oldestUnclaimedId = none by
    rcases this with hsearch | hempty
    · cases hsearch with
      | select _ hpc | update _ _ hpc | won _ hpc =>
        rw [hend] at hpc
        cases hpc
      | returned id hpc hheld =>
        rw [hnone] at hheld
        exact absurd hheld (List.cons_ne_self id _).symm
      | gaveUp hpc hlost => exact .inr hlost
    · exact .inl hempty
  clear hend hnone
  induction hrun with
  | nil => exact .inl (.select 4 hbegun rfl (by simp [claimAttempts]))
  | @snoc t u evs e hrun hstep ih =>
    rcases ih fun e' hmem => hon e' (List.mem_append_left _ hmem) with hsearch | hempty
    · have hread := readJobs_run (hrun₀.append hrun) hidle
      have hon' := hon e (List.mem_append_right _ (List.mem_singleton_self e))
      rcases hsearch.step hstep (heldJobs_run hrun hheld) hread hon' with hsearch | hempty
      · refine .inl ?_
        rwa [List.countP_append]
      · exact .inr ⟨evs, [e], t, rfl, hrun, hempty⟩
    · obtain ⟨xs, ys, u', rfl, hxs, hempty⟩ := hempty
      exact .inr ⟨xs, ys ++ [e], u', List.append_assoc .., hxs, hempty⟩

/-- One worker, one chat, and no messages. -/
def emptyFleet : Fleet Unit where
  db := {
    chats := ⟨[⟨7, 1, 1⟩], List.nodup_singleton _⟩
    messages := ⟨[], List.nodup_nil⟩
    nextId := 1
    chatExists := by simp
    idsBelow := by simp }
  pc _ := none
  held _ := []

theorem emptyFleet_idle : emptyFleet.Idle := ⟨fun _ => rfl, fun _ => rfl⟩

/-- A round worker `false` loses: it finds a job, and worker `true` claims it first (its call
then fails). -/
def lostRound (id : Int) : List (FleetEvent Bool) :=
  [.statement false none, .begin true, .statement true none, .statement true (some id),
    .abort true, .statement false none]

/-- A statement of a call, by what it does. -/
theorem Step.call {w : ω} {pc : ClaimPc} {db : Database} {next : ClaimNext} {claimed : Option Int}
    (hpc : s.pc w = some pc) (hnext : pc.step s.db = (db, next))
    (hclaims : pc.claims s.db = claimed) :
    Step s (.statement w claimed) (s.advance w db next) := by
  have hstep := Step.statement s w pc hpc
  rwa [proceed, hnext, hclaims] at hstep

/-- Any round can be lost: both calls find the oldest job, and one `UPDATE` claims it. -/
theorem lost_round {s : Fleet Bool} {left : Nat} {j : Int} (hpc : s.pc false = some (.select left))
    (hidle : s.pc true = none) (hold : s.db.oldestUnclaimedId = some j) :
    ∃ t, Run Step s (lostRound j) t ∧
      t.pc false = (if left = 0 then none else some (.select (left - 1))) ∧ t.pc true = none ∧
      t.held false = s.held false ∧ t.db = (s.db.tryClaim j).1 := by
  have hnew := (Database.oldestUnclaimedId_eq_some hold).1
  have hselect : ∀ left, (ClaimPc.select left).step s.db = (s.db, .goto (.update j left)) := by
    intro left
    rw [ClaimPc.step, hold]
  have hwon : (s.db.tryClaim j).2 = true := Database.tryClaim_won_iff.mpr hnew
  have hlost : ((s.db.tryClaim j).1.tryClaim j).2 = false := by
    rw [Bool.eq_false_iff, Ne, Database.tryClaim_won_iff, Database.jobStatus_tryClaim,
      if_pos ⟨rfl, hnew⟩]
    decide
  let s₁ := s.advance false s.db (.goto (.update j left))
  let s₂ := s₁.setPc true (some .first)
  let s₃ := s₂.advance true s.db (.goto (.update j 4))
  let s₄ := s₃.advance true (s.db.tryClaim j).1 (.goto (.read j))
  let s₅ := s₄.setPc true none
  let s₆ := s₅.advance false (s.db.tryClaim j).1 (.round left)
  have hwin : (ClaimPc.update j 4).step s.db = ((s.db.tryClaim j).1, .goto (.read j)) := by
    rw [ClaimPc.step_update, if_pos hwon]
  have hlose : (ClaimPc.update j left).step (s.db.tryClaim j).1 =
      ((s.db.tryClaim j).1, .round left) := by
    rw [ClaimPc.step_update, if_neg (by simp [hlost]), Database.tryClaim_lost hlost]
  have hrun : Run Step s (lostRound j) s₆ :=
    Run.cons (Step.call hpc (hselect left) rfl) <|
    Run.cons (Step.begin s₁ true hidle) <|
    Run.cons (Step.call (s := s₂) rfl (hselect 4) rfl) <|
    Run.cons (Step.call (s := s₃) rfl hwin (by simp [ClaimPc.claims, s₃, s₂, s₁, advance, hwon])) <|
    Run.cons (Step.abort s₄ true) <|
    Run.single (Step.call (s := s₅) rfl hlose (by simp [ClaimPc.claims, s₅, s₄, hlost]))
  refine ⟨s₆, hrun, ?_⟩
  cases left with
  | zero => exact ⟨rfl, rfl, rfl, rfl⟩
  | succ left => exact ⟨rfl, rfl, rfl, rfl⟩

/-- Two workers and six unclaimed jobs. -/
def sixFleet : Fleet Bool where
  db := (List.range 6).foldl (fun db _ => (db.insert 7 "x").2) emptyFleet.db
  pc _ := none
  held _ := []

theorem sixFleet_idle : sixFleet.Idle := ⟨fun _ => rfl, fun _ => rfl⟩

/-- Five rounds in a row are lost, and the sixth job is still there. -/
theorem sixFleet_lost : ∃ t, Run Step (sixFleet.setPc false (some .first))
    (lostRound 1 ++ lostRound 2 ++ lostRound 3 ++ lostRound 4 ++ lostRound 5) t ∧
    t.pc false = none ∧ t.held false = [] ∧ t.db.oldestUnclaimedId = some 6 := by
  obtain ⟨t₁, hrun₁, hpc₁, hidle₁, hheld₁, hdb₁⟩ :=
    lost_round (s := sixFleet.setPc false (some .first)) (j := 1) rfl rfl rfl
  obtain ⟨t₂, hrun₂, hpc₂, hidle₂, hheld₂, hdb₂⟩ :=
    lost_round (j := 2) hpc₁ hidle₁ (by rw [hdb₁]; rfl)
  obtain ⟨t₃, hrun₃, hpc₃, hidle₃, hheld₃, hdb₃⟩ :=
    lost_round (j := 3) hpc₂ hidle₂ (by rw [hdb₂, hdb₁]; rfl)
  obtain ⟨t₄, hrun₄, hpc₄, hidle₄, hheld₄, hdb₄⟩ :=
    lost_round (j := 4) hpc₃ hidle₃ (by rw [hdb₃, hdb₂, hdb₁]; rfl)
  obtain ⟨t₅, hrun₅, hpc₅, -, hheld₅, hdb₅⟩ :=
    lost_round (j := 5) hpc₄ hidle₄ (by rw [hdb₄, hdb₃, hdb₂, hdb₁]; rfl)
  refine ⟨t₅, (((hrun₁.append hrun₂).append hrun₃).append hrun₄).append hrun₅, hpc₅, ?_, ?_⟩
  · rw [hheld₅, hheld₄, hheld₃, hheld₂, hheld₁]
    rfl
  · rw [hdb₅, hdb₄, hdb₃, hdb₂, hdb₁]
    rfl

/-- The two reasons for `None`: a worker asks an empty table, and a worker loses five rounds. -/
theorem idle_and_busy : (∃ s t : Fleet Unit, Run Step s [.statement () none] t ∧
    ((∃ xs ys u, [.statement () none] = xs ++ ys ∧ Run Step s xs u ∧
      u.db.oldestUnclaimedId = none) ∨
        claimAttempts ≤ [FleetEvent.statement () none].countP (othersClaims ()))) ∧
    ∃ s t evs, Run Step s evs t ∧ t.db.oldestUnclaimedId = some 6 ∧
      evs.countP (othersClaims false) = 5 ∧
      ((∃ xs ys u, evs = xs ++ ys ∧ Run Step s xs u ∧ u.db.oldestUnclaimedId = none) ∨
        claimAttempts ≤ evs.countP (othersClaims false)) := by
  constructor
  · let s₁ := emptyFleet.setPc () (some .first)
    have hrun : Run Step s₁ [.statement () none] (s₁.proceed () (.select 4)) :=
      Run.single (Step.statement s₁ () (.select 4) rfl)
    have hon : ∀ e ∈ [FleetEvent.statement () none], GoesOn () e := by simp [GoesOn]
    exact ⟨s₁, _, hrun, none_means_empty_or_busy emptyFleet_idle
      (Run.single (Step.begin emptyFleet () rfl)) rfl hrun hon rfl rfl⟩
  · obtain ⟨t, hrun, hend, hnone, hsixth⟩ := sixFleet_lost
    have hon : ∀ e ∈ lostRound 1 ++ lostRound 2 ++ lostRound 3 ++ lostRound 4 ++ lostRound 5,
        GoesOn false e := by
      simp [lostRound, GoesOn]
    exact ⟨_, t, _, hrun, hsixth, rfl, none_means_empty_or_busy sixFleet_idle
      (Run.single (Step.begin sixFleet false rfl)) rfl hrun hon hend hnone⟩

end Fleet

end JobRunner
