import JobRunner.Qbo.Interleaving

/-!
# No refresh token is spent twice

When every successful refresh is written back, the row lock makes the interleaving of
runners and chat application safe: who posts a refresh token has read it under the lock,
and nobody else can have spent it since.

- `Holds`: a row decrypts to Intuit's newest pair.
- `Step.coherent`, `Step.phaseSound`, `Step.fresh`: kept by every step.
- `Step.settled`: kept by every step that loses no grant.
- `refreshes_safe`: what follows for every run.
-/

open Text Machine RowLock Transition

namespace JobRunner

/-- QuickBooks is turned on for the company, and the realm id is there. -/
structure CompanyRow.Usable (row : CompanyRow) : Prop where
  enabled : row.enabled = true
  realm : (row.realmId.map trim).getD "" ≠ ""

namespace Connections

variable {A : Crypto} {key : A.Key} {ι : Type} {client : ι → Client A key}
  {s t : Connections ι} {e : Event ι}

/-! ## What holds in a state -/

/-- The row decrypts to the newest pair Intuit issued. A company that never connected has
no refresh token. -/
def Holds (key : A.Key) (row : Option CompanyRow) (issued : List TokenPair) : Prop :=
  match issued.getLast? with
  | none => ∀ r, row = some r → r.refreshToken = none
  | some pair => ∃ r, row = some r ∧
      r.accessToken.bind (decrypt A key) = some pair.accessToken ∧
      r.refreshToken.bind (decrypt A key) = some pair.refreshToken

/-- A posted token is the one in the row that was read, and a runner goes on only with a
usable row. -/
def PhaseSound (client : Client A key) : Phase → Prop
  | .posting _ row _ token =>
    row.refreshToken.bind (decrypt A key) = some token ∧ (client ≠ .app → row.Usable)
  | .writing _ row _ _ => client ≠ .app → row.Usable
  | _ => True

theorem connection_usable {row : CompanyRow} {c : Connection} (henabled : row.enabled = true)
    (hc : row.connection = some c) : row.Usable ∧ row.refreshToken = some c.refreshBlob := by
  unfold CompanyRow.connection at hc
  simp only at hc
  split at hc
  · next accessBlob refreshBlob accessExpires refreshExpires _ hrefresh _ _ =>
    split at hc
    · cases hc
    next hrealm =>
    cases hc
    exact ⟨⟨henabled, hrealm⟩, hrefresh⟩
  · cases hc

/-- No refresh token is issued twice. -/
def Fresh (s : Connections ι) : Prop :=
  ∀ c, ((s.issued c).map (·.refreshToken)).Nodup

theorem fresh_issue (hs : Fresh s) {c : Int} {token : String} {tokens : TokenSet}
    (haccepts : s.Accepts c token tokens) : Fresh (s.issue c tokens.toTokenPair) := by
  intro d
  by_cases hd : d = c
  · subst hd
    simp only [Connections.issue, Function.update_self, List.map_append, List.map_cons,
      List.map_nil]
    rw [← List.concat_eq_append, List.nodup_concat]
    exact ⟨haccepts.fresh, hs d⟩
  · simp only [Connections.issue, Function.update_of_ne hd]
    exact hs d

/-- Between a grant and its write-back the pair is in a party's hands; at any other time
it is in the row. -/
structure Settled (key : A.Key) (s : Connections ι) (c : Int) : Prop where
  granted : ∀ p row realmId tokens, s.phase p = .writing c row realmId tokens →
    (s.issued c).getLast? = some tokens.toTokenPair
  holds : (∀ p row realmId tokens, s.phase p ≠ .writing c row realmId tokens) →
    Holds key (s.rows.row c) (s.issued c)

/-- Only the row, the issued pairs and the grants in flight matter. -/
theorem Settled.congr {c : Int} (hs : Settled key s c) (hrow : t.rows.row c = s.rows.row c)
    (hissued : t.issued c = s.issued c)
    (hphase : ∀ p row realmId tokens, t.phase p = .writing c row realmId tokens ↔
      s.phase p = .writing c row realmId tokens) : Settled key t c := by
  constructor
  · intro p row realmId tokens hp
    rw [hissued]
    exact hs.granted p row realmId tokens ((hphase p row realmId tokens).mp hp)
  · intro hnone
    rw [hrow, hissued]
    refine hs.holds fun p row realmId tokens hp => ?_
    exact hnone p row realmId tokens ((hphase p row realmId tokens).mpr hp)

/-- While a party has the row of `c` locked, no other party has a grant for `c`: a
grant is only held under the lock. -/
theorem writing_exclusive (hs : Coherent s.rows s.view) {p q : ι} {c : Int} {ph : Phase}
    {row row' : CompanyRow} {realmId : String} {tokens : TokenSet} (hp : s.phase p = ph)
    (hview : ph.view = some (c, some row)) (hq : s.phase q = .writing c row' realmId tokens) :
    q = p := by
  have hpview : s.view p = some (c, some row) := (congrArg Phase.view hp).trans hview
  exact hs.exclusive (congrArg Phase.view hq) hpview

/-- **A token in flight is the newest.** The row was up to date when it was read,
and while it is locked nobody else can have another one issued. -/
theorem posting_newest (hco : Coherent s.rows s.view) (hset : ∀ c, Settled key s c) {p : ι}
    {c : Int} {ph : Phase} {row : CompanyRow} {token : String} (hp : s.phase p = ph)
    (hview : ph.view = some (c, some row))
    (hwriting : ∀ row realmId tokens, ph ≠ .writing c row realmId tokens)
    (hdec : row.refreshToken.bind (decrypt A key) = some token) :
    ((s.issued c).getLast?).map (·.refreshToken) = some token := by
  have hrow := (hco.holds ((congrArg Phase.view hp).trans hview)).2
  have hholds : Holds key (s.rows.row c) (s.issued c) := by
    refine (hset c).holds fun q row' realmId tokens hq => ?_
    have hqp := writing_exclusive hco hp hview hq
    subst hqp
    exact hwriting row' realmId tokens (hp.symm.trans hq)
  unfold Holds at hholds
  rw [hrow] at hholds
  cases hlast : (s.issued c).getLast? with
  | none =>
    -- a company that never connected has nothing to post
    rw [hlast] at hholds
    rw [hholds row rfl] at hdec
    cases hdec
  | some pair =>
    rw [hlast] at hholds
    obtain ⟨r, hr, -, hrefresh⟩ := hholds
    cases hr
    rw [hrefresh] at hdec
    exact hdec

variable [DecidableEq ι]

/-! ## The lock -/

theorem view_goto (p : ι) (ph : Phase) :
    (s.goto p ph).view = Function.update s.view p ph.view := by
  funext q
  by_cases hq : q = p
  · subst hq
    simp [Connections.view, Connections.goto]
  · simp [Connections.view, Connections.goto, hq]

/-- Moves that lock and unlock nothing. -/
theorem coherent_goto (hs : Coherent s.rows s.view) {p : ι} {old new : Phase}
    (hold : s.phase p = old) (hview : new.view = old.view) :
    Coherent (s.goto p new).rows (s.goto p new).view := by
  have hsame : (s.goto p new).view = s.view := by
    rw [view_goto, hview, ← hold]
    exact Function.update_eq_self p s.view
  rw [hsame]
  exact hs

/-- The ends of a transaction that changed nothing. -/
theorem coherent_leave (hs : Coherent s.rows s.view) {p : ι} {c : Int} {ph : Phase}
    {row : Option CompanyRow} (hph : s.phase p = ph) (hview : ph.view = some (c, row)) :
    Coherent (s.leave p c).rows (s.leave p c).view := by
  have hleave : (s.leave p c).view = Function.update s.view p none := view_goto p .idle
  rw [hleave]
  exact hs.release ((congrArg Phase.view hph).trans hview)

theorem coherent_store (hs : Coherent s.rows s.view) {p : ι} {c : Int} {ph : Phase}
    {row : Option CompanyRow} (hph : s.phase p = ph) (hview : ph.view = some (c, row))
    (r : CompanyRow) : Coherent (s.store p c r).rows (s.store p c r).view := by
  have hstore : (s.store p c r).view = Function.update s.view p none := view_goto p .idle
  rw [hstore]
  exact hs.commit ((congrArg Phase.view hph).trans hview) (some r)

/-- The lock excludes, and what a party read under it is the committed row. A case
for each step; most of them lock and unlock nothing. -/
theorem Step.coherent (h : Step client s e t) (hs : Coherent s.rows s.view) :
    Coherent t.rows t.view := by
  -- each step acquires, releases, commits, or leaves the lock alone
  cases h with
  | begins hidle => exact coherent_goto hs hidle rfl
  | @locks p c row hwaiting hfree hrow =>
    have hlock : (s.lock p c row).view = Function.update s.view p (some (c, some row)) :=
      view_goto p (.deciding c row)
    rw [hlock, ← hrow]
    exact hs.acquire hfree (congrArg Phase.view hwaiting)
  | absent hwaiting _ => exact coherent_goto hs hwaiting rfl
  | stopsWaiting hwaiting => exact coherent_goto hs hwaiting rfl
  | stopsDeciding hdeciding => exact coherent_leave hs hdeciding rfl
  | answers _ hdeciding _ => exact coherent_leave hs hdeciding rfl
  | reuses _ _ hdeciding _ => exact coherent_leave hs hdeciding rfl
  | runnerPosts _ hdeciding hplan =>
    -- the plan posts for the row it was made from
    obtain ⟨c, left, hrow, -⟩ := Broker.plan_refresh_inv hplan
    cases hrow
    exact coherent_goto hs hdeciding rfl
  | appPosts _ _ hdeciding _ => exact coherent_goto hs hdeciding rfl
  | @grants p c row realmId token tokens hposting _ =>
    exact coherent_goto (s := s.issue c tokens.toTokenPair) hs hposting rfl
  | fails hposting => exact coherent_leave hs hposting rfl
  | @losesReply p c row realmId token tokens hposting _ =>
    exact coherent_leave (s := s.issue c tokens.toTokenPair) hs hposting rfl
  | runnerStores _ _ hwriting _ _ _ => exact coherent_store hs hwriting rfl _
  | appStores _ _ hwriting _ _ => exact coherent_store hs hwriting rfl _
  | abandons hwriting => exact coherent_leave hs hwriting rfl

/-! ## What a party knows -/

theorem Step.phaseSound (h : Step client s e t) (hs : ∀ p, PhaseSound (client p) (s.phase p)) :
    ∀ p, PhaseSound (client p) (t.phase p) := by
  intro q
  by_cases hq : q = e.party
  · subst hq
    cases h with
    | @runnerPosts p c row b hb clock row' realmId request _ hdeciding hplan =>
      obtain ⟨c, left, hrow, henabled, hc, -, -, -, hdec⟩ := Broker.plan_refresh_inv hplan
      cases hrow
      obtain ⟨husable, hrefresh⟩ := connection_usable henabled hc
      show PhaseSound _ ((s.goto p _).phase p)
      rw [s.goto_phase_self]
      refine ⟨?_, fun _ => husable⟩
      rw [hrefresh, ← hb]
      exact hdec
    | @appPosts p c row token _ happ _ hdec =>
      show PhaseSound _ ((s.goto p _).phase p)
      rw [s.goto_phase_self]
      exact ⟨hdec, fun hne => absurd happ hne⟩
    | @grants p c row realmId token tokens hposting _ =>
      have hsound := hs p
      rw [hposting] at hsound
      show PhaseSound _ (((s.issue c _).goto p _).phase p)
      rw [Connections.goto_phase_self]
      exact hsound.2
    | _ =>
      simp [PhaseSound, Event.party, Connections.goto, Connections.lock, Connections.leave,
        Connections.store]
  · rw [h.phase_of_ne hq]
    exact hs q

/-! ## What Intuit issued -/

theorem Step.fresh (h : Step client s e t) (hs : Fresh s) : Fresh t := by
  cases h with
  | grants _ haccepts => exact fresh_issue hs haccepts
  | losesReply _ haccepts => exact fresh_issue hs haccepts
  | _ => exact hs

/-! ## Rows and Intuit -/

/-- A move between phases without a grant for `d`. -/
theorem writing_update_iff {p : ι} {new : Phase} {d : Int}
    (hold : ∀ row realmId tokens, s.phase p ≠ .writing d row realmId tokens)
    (hnew : ∀ row realmId tokens, new ≠ .writing d row realmId tokens)
    (q : ι) (row : CompanyRow) (realmId : String) (tokens : TokenSet) :
    Function.update s.phase p new q = .writing d row realmId tokens ↔
      s.phase q = .writing d row realmId tokens := by
  by_cases hq : q = p
  · subst hq
    rw [Function.update_self]
    exact iff_of_false (hnew row realmId tokens) (hold row realmId tokens)
  · rw [Function.update_of_ne hq]

/-- A grant is issued: its party now has the newest token, and the row is behind
until it is written. -/
theorem settled_grant (hco : Coherent s.rows s.view) (hset : ∀ c, Settled key s c) {p : ι}
    {c : Int} {row : CompanyRow} {realmId token : String} {tokens : TokenSet}
    (hp : s.phase p = .posting c row realmId token) {d : Int} :
    Settled key ((s.issue c tokens.toTokenPair).goto p (.writing c row realmId tokens)) d := by
  by_cases hd : d = c
  · subst hd
    constructor
    · intro q row' realmId' tokens' hq
      -- `p` has the lock, so no other party can have a grant for `d`
      by_cases hqp : q = p
      · subst hqp
        rw [Connections.goto_phase_self] at hq
        cases hq
        simp [Connections.goto, Connections.issue]
      · have hq' : s.phase q = .writing d row' realmId' tokens' := by
          simpa [Connections.goto, Connections.issue, hqp] using hq
        exact absurd (writing_exclusive hco hp rfl hq') hqp
    · intro hnone
      exact absurd (Connections.goto_phase_self _ _ _) (hnone p row realmId tokens)
  · refine (hset d).congr rfl (by simp [Connections.goto, Connections.issue, hd])
      (writing_update_iff (s := s) ?_ ?_)
    · intro row' realmId' tokens' h
      rw [hp] at h
      cases h
    · intro row' realmId' tokens' h
      cases h
      exact hd rfl

/-- A write-back brings the granted pair into the row, and the row is up to date
again. -/
theorem settled_store (hco : Coherent s.rows s.view) (hset : ∀ c, Settled key s c) {p : ι}
    {c : Int} {row rotated : CompanyRow} {realmId : String} {tokens : TokenSet}
    (hp : s.phase p = .writing c row realmId tokens)
    (haccess : rotated.accessToken.bind (decrypt A key) = some tokens.accessToken)
    (hrefresh : rotated.refreshToken.bind (decrypt A key) = some tokens.refreshToken)
    {d : Int} : Settled key (s.store p c rotated) d := by
  by_cases hd : d = c
  · subst hd
    constructor
    · intro q row' realmId' tokens' hq
      by_cases hqp : q = p
      · subst hqp
        simp [Connections.store] at hq
      · have hq' : s.phase q = .writing d row' realmId' tokens' := by
          simpa [Connections.store, hqp] using hq
        exact absurd (writing_exclusive hco hp rfl hq') hqp
    · intro _
      have hlast := (hset d).granted p row realmId tokens hp
      show Holds key ((s.rows.commit d (some rotated)).row d) (s.issued d)
      rw [Rows.commit_row_self, Holds, hlast]
      exact ⟨rotated, rfl, haccess, hrefresh⟩
  · refine (hset d).congr (s.rows.commit_row_of_ne hd _) rfl (writing_update_iff (s := s) ?_ ?_)
    · intro row' realmId' tokens' h
      rw [hp] at h
      cases h
      exact hd rfl
    · intro row' realmId' tokens' h
      cases h

/-- A move that touches neither rows nor grants. -/
theorem settled_move (hset : ∀ c, Settled key s c) {p : ι} {old new : Phase} {d : Int}
    (hp : s.phase p = old) (hold : old.isWriting = false) (hnew : new.isWriting = false)
    (hrow : t.rows.row = s.rows.row) (hissued : t.issued = s.issued)
    (hphase : t.phase = Function.update s.phase p new) : Settled key t d := by
  refine (hset d).congr (congrFun hrow d) (congrFun hissued d) ?_
  rw [hphase]
  refine writing_update_iff ?_ ?_
  · intro row realmId tokens h
    rw [← hp, h] at hold
    cases hold
  · intro row realmId tokens h
    rw [h] at hnew
    cases hnew

/-- **Step lemma.** For every company the row holds the newest token, or the party
that has it will write it. Losing a grant is the one step that breaks this. -/
theorem Step.settled (h : Step client s e t) (hA : A.Lawful) (hkept : ¬ e.LosesGrant)
    (hco : Coherent s.rows s.view) (hset : ∀ c, Settled key s c) (d : Int) :
    Settled key t d := by
  cases h with
  | begins hidle => exact settled_move hset hidle rfl rfl rfl rfl rfl
  | locks hwaiting _ _ => exact settled_move hset hwaiting rfl rfl rfl rfl rfl
  | absent hwaiting _ => exact settled_move hset hwaiting rfl rfl rfl rfl rfl
  | stopsWaiting hwaiting => exact settled_move hset hwaiting rfl rfl rfl rfl rfl
  | stopsDeciding hdeciding => exact settled_move hset hdeciding rfl rfl rfl rfl rfl
  | answers _ hdeciding _ => exact settled_move hset hdeciding rfl rfl rfl rfl rfl
  | reuses _ _ hdeciding _ => exact settled_move hset hdeciding rfl rfl rfl rfl rfl
  | runnerPosts _ hdeciding _ => exact settled_move hset hdeciding rfl rfl rfl rfl rfl
  | appPosts _ _ hdeciding _ => exact settled_move hset hdeciding rfl rfl rfl rfl rfl
  | grants hposting _ => exact settled_grant hco hset hposting
  | fails hposting => exact settled_move hset hposting rfl rfl rfl rfl rfl
  -- a grant whose reply is lost, or whose write-back is abandoned, is lost
  | losesReply _ _ => exact absurd trivial hkept
  | @runnerStores p c row realmId tokens b hb clock accessIv refreshIv rotated accessExpires
      commit _ hwriting _ hrotated _ =>
    obtain ⟨_, _, _, _, haccess, hrefresh, -, -, rfl⟩ := Broker.rotatedRow_ok_iff.mp hrotated
    rw [hb] at haccess hrefresh
    refine settled_store hco hset hwriting ?_ ?_
    · exact decrypt_encrypt hA haccess
    · exact decrypt_encrypt hA hrefresh
  | appStores _ _ hwriting haccess hrefresh =>
    refine settled_store hco hset hwriting ?_ ?_
    · exact decrypt_encrypt hA haccess
    · exact decrypt_encrypt hA hrefresh
  | abandons _ => exact absurd trivial hkept

/-! ## Whole runs -/

/-- Everyone is idle, nothing is locked, and the table is in step with Intuit. -/
structure Start (key : A.Key) (s : Connections ι) : Prop where
  idle : ∀ p, s.phase p = .idle
  free : ∀ c, s.rows.holder c = none
  fresh : Fresh s
  holds : ∀ c, Holds key (s.rows.row c) (s.issued c)

/-- The invariant of the runs that lose no grant. -/
structure InStep (client : ι → Client A key) (s : Connections ι) : Prop where
  coherent : Coherent s.rows s.view
  sound : ∀ p, PhaseSound (client p) (s.phase p)
  fresh : Fresh s
  settled : ∀ c, Settled key s c

omit [DecidableEq ι] in
theorem Start.inStep (h : Start key s) : InStep client s where
  coherent :=
    { holds := by
        intro p c row hp
        rw [Connections.view, h.idle p] at hp
        cases hp
      viewed := by
        intro p c hc
        rw [h.free c] at hc
        cases hc }
  sound := by
    intro p
    rw [h.idle p]
    trivial
  fresh := h.fresh
  settled := by
    intro c
    constructor
    · intro p row realmId tokens hp
      rw [h.idle p] at hp
      cases hp
    · intro _
      exact h.holds c

/-- Along a run without lost grants the invariant holds. -/
theorem inStep_of_run (hA : A.Lawful) {evs : List (Event ι)} (hstart : InStep client s)
    (hrun : Run (Step client) s evs t) (hkept : ∀ e ∈ evs, ¬ e.LosesGrant) :
    InStep client t := by
  induction hrun with
  | nil => exact hstart
  | snoc _ hstep ih =>
    have hpre := ih fun e he => hkept e (List.mem_append_left _ he)
    have hlast := hkept _ (List.mem_append_right _ (List.mem_singleton_self _))
    exact ⟨hstep.coherent hpre.coherent, hstep.phaseSound hpre.sound, hstep.fresh hpre.fresh,
      hstep.settled hA hlast hpre.coherent hpre.settled⟩

/-- Between two write-backs a row stays. -/
theorem row_of_run {evs : List (Event ι)} (hrun : Run (Step client) s evs t) {c : Int}
    (hnone : ∀ e ∈ evs, ¬ e.StoresAt c) : t.rows.row c = s.rows.row c := by
  induction hrun with
  | nil => rfl
  | snoc _ hstep ih =>
    rw [hstep.row_eq (hnone _ (List.mem_append_right _ (List.mem_singleton_self _)))]
    exact ih fun e he => hnone e (List.mem_append_left _ he)

/-! ## A token is posted once -/

/-- The token of a posted request comes from the row read under the lock, decrypted
with the key of the party. -/
theorem Step.posted_inv {p : ι} {c : Int} {clock : Option UInt64} {token : String}
    (h : Step client s (.posted p c clock token) t) :
    ∃ row, s.phase p = .deciding c row ∧
      row.refreshToken.bind (decrypt A key) = some token := by
  generalize he : Event.posted p c clock token = e at h
  cases h with
  | runnerPosts hclient hdeciding hplan =>
    rename_i hb _ _ _ _
    cases he
    obtain ⟨_, _, hrow, henabled, hc, -, -, -, hdec⟩ := Broker.plan_refresh_inv hplan
    cases hrow
    refine ⟨_, hdeciding, ?_⟩
    rw [(connection_usable henabled hc).2, ← hb]
    exact hdec
  | appPosts _ _ hdeciding hdec =>
    cases he
    exact ⟨_, hdeciding, hdec⟩
  | _ => cases he

theorem InStep.posted_newest (h : InStep client s) {p : ι} {c : Int} {clock : Option UInt64}
    {token : String} (hpost : Step client s (.posted p c clock token) t) :
    ∃ spent, (s.issued c).map (·.refreshToken) = spent ++ [token] ∧ token ∉ spent := by
  obtain ⟨row, hdeciding, hdec⟩ := hpost.posted_inv
  have hnewest := posting_newest h.coherent h.settled hdeciding rfl (by simp) hdec
  obtain ⟨pair, hlast, rfl⟩ := Option.map_eq_some_iff.mp hnewest
  obtain ⟨init, hinit⟩ := List.getLast?_eq_some_iff.mp hlast
  have hnodup := h.fresh c
  rw [hinit, List.map_append, List.map_cons, List.map_nil] at hnodup
  refine ⟨init.map (·.refreshToken), ?_, ?_⟩
  · rw [hinit, List.map_append, List.map_cons, List.map_nil]
  · rw [← List.concat_eq_append, List.nodup_concat] at hnodup
    exact hnodup.1

omit [DecidableEq ι] in
/-- The row of a free lock is up to date. -/
theorem InStep.free_holds (h : InStep client s) {c : Int} (hfree : s.rows.holder c = none) :
    Holds key (s.rows.row c) (s.issued c) := by
  refine (h.settled c).holds fun p row realmId tokens hp => ?_
  exact h.coherent.not_viewed hfree (congrArg Phase.view hp)

/-! ## Who waited reuses -/

/-- What a write-back leaves in the row. -/
theorem Step.stored_inv (hA : A.Lawful) {q : ι} {c : Int} {tokens : TokenSet}
    {accessExpires : Int64} {ending : Ending}
    (h : Step client s (.stored q c tokens accessExpires ending) t) :
    ∃ row realmId accessToken refreshToken refreshExpires,
      s.phase q = .writing c row realmId tokens ∧
      t.rows.row c =
        some (row.withTokens accessToken refreshToken accessExpires refreshExpires) ∧
      decrypt A key (utf8 accessToken) = some tokens.accessToken := by
  generalize he : Event.stored q c tokens accessExpires ending = e at h
  cases h with
  | @runnerStores p c row realmId tokens b hb clock accessIv refreshIv rotated accessExpires
      commit _ hwriting _ hrotated hexpires =>
    cases he
    obtain ⟨access, token, _, re, haccess, -, -, -, rfl⟩ := Broker.rotatedRow_ok_iff.mp hrotated
    cases hexpires
    rw [hb] at haccess
    exact ⟨row, realmId, access, token, re, hwriting, s.rows.commit_row_self _ _,
      decrypt_encrypt hA haccess⟩
  | appStores _ _ hwriting haccess _ =>
    cases he
    exact ⟨_, _, _, _, _, hwriting, s.rows.commit_row_self _ _, decrypt_encrypt hA haccess⟩
  | _ => cases he

theorem withTokens_usable {row : CompanyRow} {accessToken refreshToken : String}
    {accessExpires refreshExpires : Int64} :
    (row.withTokens accessToken refreshToken accessExpires refreshExpires).Usable ↔
      row.Usable :=
  ⟨fun h => ⟨h.enabled, h.realm⟩, fun h => ⟨h.enabled, h.realm⟩⟩

theorem withTokens_connection {row : CompanyRow} (h : row.Usable)
    (accessToken refreshToken : String) (accessExpires refreshExpires : Int64) :
    (row.withTokens accessToken refreshToken accessExpires refreshExpires).connection =
      some ⟨(row.realmId.map trim).getD "", utf8 accessToken, utf8 refreshToken,
        accessExpires, refreshExpires⟩ := by
  show (if (row.realmId.map trim).getD "" = "" then none else _) = _
  rw [if_neg h.realm]
  rfl

/-- A stored token that lives long enough is handed out. -/
theorem plan_of_covers {b : Broker A} {row : CompanyRow} {c : Connection} {token : String}
    {clock : Option UInt64} (henabled : row.enabled = true) (hc : row.connection = some c)
    (hdec : decrypt A b.key c.accessBlob = some token)
    (hcovers : (b.validFor.toNat : Int) ≤ c.accessExpires.toInt - (unixNow clock).toInt) :
    b.plan (some row) (unixNow clock) = .reuse (b.connected c.realmId token) := by
  have hexpires := inRange_toInt c.accessExpires
  have hnow := unixNow_nonneg clock
  have hrange : InRange (c.accessExpires.toInt - (unixNow clock).toInt) :=
    ⟨by omega, by have := hexpires.2; omega⟩
  obtain ⟨left, hsub, hleft⟩ := sub_inRange b.overflow hrange
  refine Broker.plan_reuse henabled hc hsub ?_ hdec
  rw [Int64.le_iff_toInt_le, hleft]
  show (saturate b.validFor).toInt ≤ _
  rw [saturate_toInt]
  omega

/-- A runner that decides carries out its plan. -/
theorem Step.decision (h : Step client s e t) {b : Broker A} {hb : b.key = key} {p : ι} {c : Int}
    {row : CompanyRow} {clock : Option UInt64} (hclient : client p = .runner b hb)
    (hdeciding : s.phase p = .deciding c row) (hparty : e.party = p)
    (hclock : e.DecidedBy clock) :
    (∃ result, b.plan (some row) (unixNow clock) = .answer result ∧
      e = .answered p c clock result) ∨
    (∃ access, ∃ commit : CommitFate, b.plan (some row) (unixNow clock) = .reuse access ∧
      e = .reused p c clock (commit.ending access)) ∨
    ∃ row' realmId request, b.plan (some row) (unixNow clock) = .refresh row' realmId request := by
  subst hparty
  cases h with
  | answers hclient' hdeciding' hplan =>
    cases hclock
    cases hclient.symm.trans hclient'
    cases hdeciding.symm.trans hdeciding'
    exact .inl ⟨_, hplan, rfl⟩
  | reuses commit hclient' hdeciding' hplan =>
    cases hclock
    cases hclient.symm.trans hclient'
    cases hdeciding.symm.trans hdeciding'
    exact .inr (.inl ⟨_, commit, hplan, rfl⟩)
  | runnerPosts hclient' hdeciding' hplan =>
    cases hclock
    cases hclient.symm.trans hclient'
    cases hdeciding.symm.trans hdeciding'
    exact .inr (.inr ⟨_, _, _, hplan⟩)
  | appPosts _ happ _ _ => cases hclient.symm.trans happ
  | _ => cases hclock

/-- With QuickBooks off, or without a realm id, the plan does not look at the token. -/
theorem plan_of_not_usable (b : Broker A) {row : CompanyRow} (h : ¬ row.Usable) (now : Int64) :
    b.plan (some row) now = .answer (.ok notConnected) ∨
      b.plan (some row) now = .answer (.ok turnedOff) := by
  rcases Broker.plan_cases b (some row) now with hplan | hplan | ⟨r, c, hr, henabled, hc⟩
  · exact .inl hplan
  · exact .inr hplan
  · cases hr
    exact absurd (connection_usable henabled hc).1 h

/-- Whoever reads the row after a write-back, and before the next one, plans to
reuse the token written there, if it lives long enough. The row must be usable,
which a runner has checked before it refreshed, and the application has not. -/
theorem plan_after_store (hA : A.Lawful) {xs ys : List (Event ι)} {q : ι} {c : Int}
    {tokens : TokenSet} {accessExpires : Int64} {ending : Ending}
    (hstart : InStep client s)
    (hrun : Run (Step client) s (xs ++ .stored q c tokens accessExpires ending :: ys) t)
    (hkept : ∀ e ∈ xs ++ .stored q c tokens accessExpires ending :: ys, ¬ e.LosesGrant)
    (hlast : ∀ e ∈ ys, ¬ e.StoresAt c) {p : ι} {b : Broker A} {row : CompanyRow}
    {clock : Option UInt64} (hkey : b.key = key) (hdeciding : t.phase p = .deciding c row)
    (happ : client q = .app → row.Usable)
    (hcovers : (b.validFor.toNat : Int) ≤ accessExpires.toInt - (unixNow clock).toInt) :
    b.plan (some row) (unixNow clock) =
      .reuse (b.connected ((row.realmId.map trim).getD "") tokens.accessToken) := by
  have hend := inStep_of_run hA hstart hrun hkept
  obtain ⟨m₁, hrun₁, hrun₂⟩ := hrun.split
  obtain ⟨m₂, hstore, hrun₃⟩ := hrun₂.cons_inv
  have hm₁ := inStep_of_run hA hstart hrun₁ fun e he => hkept e (List.mem_append_left _ he)
  obtain ⟨old, realmId, accessToken, refreshToken, refreshExpires, hwriting, hrow, hdec⟩ :=
    hstore.stored_inv hA
  -- the row read under the lock is the committed one, which is the one `q` wrote
  have hread : t.rows.row c = some row :=
    (hend.coherent.holds (congrArg Phase.view hdeciding)).2
  rw [row_of_run hrun₃ hlast, hrow, Option.some.injEq] at hread
  subst hread
  have husable : old.Usable := by
    by_cases hq : client q = .app
    · exact withTokens_usable.mp (happ hq)
    · have hsound := hm₁.sound q
      rw [hwriting] at hsound
      exact hsound hq
  rw [← hkey] at hdec
  exact plan_of_covers (withTokens_usable.mpr husable).enabled
    (withTokens_connection husable accessToken refreshToken accessExpires refreshExpires)
    hdec hcovers

/-- What the row lock is held for, after the events `evs` and in the state `t`. -/
structure Safe (client : ι → Client A key) (evs : List (Event ι)) (t : Connections ι) :
    Prop where
  /-- Every posted token is the newest of the company, and none that was spent. -/
  posted_newest : ∀ {p c clock token u}, Step client t (.posted p c clock token) u →
    ∃ spent, (t.issued c).map (·.refreshToken) = spent ++ [token] ∧ token ∉ spent
  /-- While nobody has the lock, the row decrypts to the newest pair. -/
  free_holds : ∀ c, t.rows.holder c = none → Holds key (t.rows.row c) (t.issued c)
  /-- A runner that gets the lock after another party's write-back, however long it waited,
  returns the token written there and posts nothing, if that token covers the job. For a
  refresh by the application, QuickBooks must be turned on for the company. -/
  waiter_reuses : ∀ {xs ys q c tokens accessExpires ending},
    evs = xs ++ .stored q c tokens accessExpires ending :: ys →
    (∀ e ∈ ys, ¬ e.StoresAt c) →
    ∀ {p b hb row clock}, client p = .runner b hb → t.phase p = .deciding c row →
      (client q = .app → row.Usable) →
      (b.validFor.toNat : Int) ≤ accessExpires.toInt - (unixNow clock).toInt →
      ∀ {e u}, Step client t e u → e.party = p → e.DecidedBy clock →
        ∃ (commit : CommitFate) (realmId : String),
          e = .reused p c clock (commit.ending (b.connected realmId tokens.accessToken))
  /-- Without that, the runner answers that there is no QuickBooks access, whatever the
  row holds. -/
  waiter_refused : ∀ {p b hb c row clock}, client p = .runner b hb →
    t.phase p = .deciding c row → ¬ row.Usable →
    ∀ {e u}, Step client t e u → e.party = p → e.DecidedBy clock →
      e = .answered p c clock (.ok notConnected) ∨ e = .answered p c clock (.ok turnedOff)
  /-- A call touches no other company's row. -/
  isolated : ∀ {e u d}, Step client t e u → d ≠ e.company → u.rows.row d = t.rows.row d

/-- **The row lock protects the refresh token.** Whatever the interleaving, as long
as every successful refresh is written back: nobody spends a token twice, and a
party that waited decides on the row that was written. -/
theorem refreshes_safe (hA : A.Lawful) {evs : List (Event ι)} (hstart : Start key s)
    (hrun : Run (Step client) s evs t) (hkept : ∀ e ∈ evs, ¬ e.LosesGrant) :
    Safe client evs t where
  posted_newest := (inStep_of_run hA hstart.inStep hrun hkept).posted_newest
  free_holds := fun _ hfree => (inStep_of_run hA hstart.inStep hrun hkept).free_holds hfree
  waiter_reuses := by
    intro xs ys q c tokens accessExpires ending hevs hlast p b hb row clock hclient hdeciding
      happ hcovers e u hstep hparty hclock
    subst hevs
    have hplan := plan_after_store hA hstart.inStep hrun hkept hlast hb hdeciding happ hcovers
    obtain ⟨result, hplan', -⟩ | ⟨access, commit, hplan', he⟩ | ⟨_, _, _, hplan'⟩ :=
      hstep.decision hclient hdeciding hparty hclock
    · cases hplan.symm.trans hplan'
    · cases hplan.symm.trans hplan'
      exact ⟨commit, _, he⟩
    · cases hplan.symm.trans hplan'
  waiter_refused := by
    intro p b hb c row clock hclient hdeciding husable e u hstep hparty hclock
    have hrefused := plan_of_not_usable b husable (unixNow clock)
    obtain ⟨result, hplan, he⟩ | ⟨access, commit, hplan, -⟩ | ⟨_, _, _, hplan⟩ :=
      hstep.decision hclient hdeciding hparty hclock
    · rw [he]
      rw [hplan, Plan.answer.injEq, Plan.answer.injEq] at hrefused
      exact hrefused.imp (fun h => by rw [h]) fun h => by rw [h]
    · rw [hplan] at hrefused
      rcases hrefused with h | h <;> cases h
    · rw [hplan] at hrefused
      rcases hrefused with h | h <;> cases h
  isolated := fun hstep hd => (hstep.frame hd).1

/-! ## Two runners and one expired token -/

def twoRunners : Bool → Client sampleCrypto sampleKey :=
  fun _ => .runner (sampleBroker 2100) rfl

/-- Company 1 has this row, with the tokens `access-1` and `refresh-1`. -/
def startWith (row : CompanyRow) : Connections Bool where
  rows := ⟨fun c => if c = 1 then some row else none, fun _ => none⟩
  issued := fun c => if c = 1 then [⟨"access-1", "refresh-1"⟩] else []
  phase := fun _ => .idle

theorem startWith_start {row : CompanyRow} (haccess : row.accessToken = (sampleRow 0).accessToken)
    (hrefresh : row.refreshToken = (sampleRow 0).refreshToken) :
    Start sampleKey (startWith row) where
  idle := fun _ => rfl
  free := fun _ => rfl
  fresh := by
    intro c
    by_cases hc : c = 1 <;> simp [startWith, hc]
  holds := by
    intro c
    by_cases hc : c = 1
    · subst hc
      have haccess' : row.accessToken.bind (decrypt sampleCrypto sampleKey) = some "access-1" := by
        rw [haccess]
        exact (Option.bind_some ..).trans (decrypt_sample "access-1")
      have hrefresh' :
          row.refreshToken.bind (decrypt sampleCrypto sampleKey) = some "refresh-1" := by
        rw [hrefresh]
        exact (Option.bind_some ..).trans (decrypt_sample "refresh-1")
      rw [show (startWith row).rows.row 1 = some row from rfl,
        show (startWith row).issued 1 = [⟨"access-1", "refresh-1"⟩] from rfl]
      exact ⟨row, rfl, haccess', hrefresh'⟩
    · simp [startWith, Holds, hc]

/-- Company 1 is connected, its access token has expired. -/
def twoRunnersStart : Connections Bool := startWith (sampleRow 0)

theorem twoRunnersStart_start : Start sampleKey twoRunnersStart := startWith_start rfl rfl

/-- The second runner waits while the first refreshes. -/
def waitingEvents : List (Event Bool) :=
  [.begun false 1, .begun true 1, .locked false 1, .posted false 1 (some 1000) "refresh-1",
    .granted false 1 sampleTokens,
    .stored false 1 sampleTokens 4601
      (.returned (.ok ((sampleBroker 2100).connected "9130" "access-2"))),
    .locked true 1]

theorem twoRunners_run : ∃ t, Run (Step twoRunners) twoRunnersStart waitingEvents t ∧
    t.phase true = .deciding 1 sampleRotated := by
  have hplan : (sampleBroker 2100).plan (some (sampleRow 0)) (unixNow (some 1000)) =
      .refresh (sampleRow 0) "9130" ⟨"app-client-id", "app-client-secret", "refresh-1"⟩ :=
    sampleBroker_plan (by decide)
  have hfresh : "refresh-2" ∉ ["refresh-1"] := by simp
  exact ⟨_, Run.cons (.begins rfl) <| Run.cons (.begins rfl) <|
    Run.cons (.locks rfl rfl rfl) <| Run.cons (.runnerPosts rfl rfl hplan) <|
    Run.cons (.grants rfl ⟨rfl, hfresh⟩) <|
    Run.cons (.runnerStores .done rfl rfl rfl (sampleScript_updated 2100).rotated rfl) <|
    Run.single (.locks rfl rfl (Rows.commit_row_self _ _ _)), rfl⟩

/-- `refreshes_safe` for this run. -/
theorem waiting_runner_safe :
    ∃ t, Run (Step twoRunners) twoRunnersStart waitingEvents t ∧
      Safe twoRunners waitingEvents t := by
  obtain ⟨t, hrun, -⟩ := twoRunners_run
  have hkept : ∀ e ∈ waitingEvents, ¬ e.LosesGrant := by
    simp [waitingEvents, Event.LosesGrant]
  exact ⟨t, hrun, refreshes_safe sampleCrypto_lawful twoRunnersStart_start hrun hkept⟩

/-! ## A waiter that is given no token -/

/-- The application and a runner. -/
def appAndRunner : Bool → Client sampleCrypto sampleKey
  | false => .app
  | true => .runner (sampleBroker 2100) rfl

/-- The row of a company for which QuickBooks was turned off. -/
def turnedOffRow : CompanyRow := { sampleRow 0 with enabled := false }

/-- The runner waits while the application refreshes. -/
def appEvents : List (Event Bool) :=
  [.begun false 1, .begun true 1, .locked false 1, .posted false 1 (some 1000) "refresh-1",
    .granted false 1 sampleTokens, .stored false 1 sampleTokens 4601 .dropped, .locked true 1]

/-- The token of the application covers the job, but the runner answers that QuickBooks is
turned off. In the run of `waiting_runner_safe` the token covers the job too, and the
runner's own `COMMIT` fails. -/
theorem waiter_without_token :
    (∃ t u, Run (Step appAndRunner) (startWith turnedOffRow) appEvents t ∧
      Start sampleKey (startWith turnedOffRow) ∧ (∀ e ∈ appEvents, ¬ e.LosesGrant) ∧
      (2100 : Int) ≤ (4601 : Int64).toInt - (unixNow (some 1002)).toInt ∧
      Step appAndRunner t (.answered true 1 (some 1002) (.ok turnedOff)) u) ∧
    ∃ t u, Run (Step twoRunners) twoRunnersStart waitingEvents t ∧
      (2100 : Int) ≤ (4601 : Int64).toInt - (unixNow (some 1002)).toInt ∧
      Step twoRunners t (.reused true 1 (some 1002) (.returned (.error .database))) u := by
  have hcovers : (2100 : Int) ≤ (4601 : Int64).toInt - (unixNow (some 1002)).toInt := by decide
  have hfresh : "refresh-2" ∉ ["refresh-1"] := by simp
  constructor
  · have hrun : Run (Step appAndRunner) (startWith turnedOffRow) appEvents _ :=
      Run.cons (.begins rfl) <| Run.cons (.begins rfl) <|
      Run.cons (.locks rfl rfl rfl) <|
      Run.cons (.appPosts (some 1000) rfl rfl (decrypt_sample "refresh-1")) <|
      Run.cons (.grants rfl ⟨rfl, hfresh⟩) <|
      Run.cons (@Step.appStores _ _ _ _ _ _ _ _ _ _ _ _ _ _ _ _ 8641001 .dropped rfl rfl
        (encrypt_sample "access-2") (encrypt_sample "refresh-2")) <|
      Run.single (.locks rfl rfl (Rows.commit_row_self _ _ _))
    exact ⟨_, _, hrun, startWith_start rfl rfl, by simp [appEvents, Event.LosesGrant], hcovers,
      .answers rfl rfl rfl⟩
  · obtain ⟨t, hrun, hdeciding⟩ := twoRunners_run
    have husable : (sampleRow 0).Usable := (connection_usable rfl (sampleRow_connection 0)).1
    have hplan : (sampleBroker 2100).plan (some sampleRotated) (unixNow (some 1002)) = _ :=
      plan_of_covers rfl (withTokens_connection husable _ _ _ _) (decrypt_sample "access-2")
        hcovers
    exact ⟨t, _, hrun, hcovers, .reuses (.failed false) rfl hdeciding hplan⟩

end Connections

end JobRunner
