import JobRunner.Qbo.Interleaving

/-!
# One call as a run of the interleaved system

`Broker.tryAccess` describes a whole call as a function of what the world did, `Step`
the same call as steps that others can interleave with. The two agree: a call that is
alone on its row does to the row and to Intuit what the function says.

- `Realizes`: a run of the party alone with the effect of a call.
- `tryAccess_realized`: every call is realized.
-/

open Text Machine RowLock Transition

namespace JobRunner

namespace Connections

variable {A : Crypto} {key : A.Key} {ι : Type} [DecidableEq ι] {client : ι → Client A key}
  {parse : String → Except String TokenSet} {s : Connections ι} {p : ι} {c : Int}
  {row : CompanyRow} {call : Called}

/-- A step of `p` for company `c`. -/
def OwnStep (client : ι → Client A key) (p : ι) (c : Int) (s : Connections ι) (e : Event ι)
    (t : Connections ι) : Prop :=
  Step client s e t ∧ e.party = p ∧ e.company = c

/-- A run of `p` alone from `s` has the effect of `call` on company `c`, and gives the lock
back. -/
def Realizes (client : ι → Client A key) (s : Connections ι) (p : ι) (c : Int)
    (call : Called) : Prop :=
  ∃ evs t, Run (OwnStep client p c) s evs t ∧ t.phase p = .idle ∧ t.rows.holder c = none ∧
    t.rows.row c = call.row ∧ t.issued c = s.issued c ++ call.issued.toList

/-- The state in which `p` has read the row. -/
def deciding (s : Connections ι) (p : ι) (c : Int) (row : CompanyRow) :
    Connections ι :=
  (s.goto p (.waiting c)).lock p c row

theorem deciding_phase : (s.deciding p c row).phase p = .deciding c row := by
  simp [Connections.deciding, Connections.lock]

theorem deciding_run (hidle : s.phase p = .idle) (hfree : s.rows.holder c = none)
    (hrow : s.rows.row c = some row) :
    Run (OwnStep client p c) s [.begun p c, .locked p c] (s.deciding p c row) := by
  have hlock : Step client (s.goto p (.waiting c)) (.locked p c) (s.deciding p c row) :=
    .locks (s.goto_phase_self p _) hfree hrow
  exact Run.cons ⟨.begins hidle, rfl, rfl⟩ (Run.single ⟨hlock, rfl, rfl⟩)

/-- A call that ends before it reads the row. -/
theorem realizes_unread (hidle : s.phase p = .idle) (hfree : s.rows.holder c = none)
    (hrow : s.rows.row c = some row) (ending : Ending) :
    Realizes client s p c ⟨ending, some row, none⟩ :=
  ⟨[], s, .nil s, hidle, hfree, hrow, (List.append_nil _).symm⟩

/-- A call that ends after it read the row, and posts nothing. -/
theorem realizes_unposted (hidle : s.phase p = .idle) (hfree : s.rows.holder c = none)
    (hrow : s.rows.row c = some row) (ending : Ending) {e : Event ι}
    (hstep : OwnStep client p c (s.deciding p c row) e ((s.deciding p c row).leave p c)) :
    Realizes client s p c ⟨ending, some row, none⟩ := by
  refine ⟨_, _, (deciding_run hidle hfree hrow).snoc hstep, ?_, ?_, hrow, ?_⟩
  · simp [Connections.leave]
  · simp [Connections.leave, Rows.release]
  · exact (List.append_nil _).symm

/-- A call that posts `token`, and what became of it. -/
theorem realizes_posted (hidle : s.phase p = .idle) (hfree : s.rows.holder c = none)
    (hrow : s.rows.row c = some row) {clock : Option UInt64} {realmId token : String}
    (hpost : Step client (s.deciding p c row) (.posted p c clock token)
      ((s.deciding p c row).goto p (.posting c row realmId token)))
    {evs : List (Event ι)} {t : Connections ι}
    (hrest : Run (OwnStep client p c)
      ((s.deciding p c row).goto p (.posting c row realmId token)) evs t)
    (hphase : t.phase p = .idle) (hholder : t.rows.holder c = none)
    (hcall : t.rows.row c = call.row)
    (hissued : t.issued c = s.issued c ++ call.issued.toList) :
    Realizes client s p c call := by
  have hread : Run (OwnStep client p c) s _ (s.deciding p c row) := deciding_run hidle hfree hrow
  exact ⟨_, t, (hread.snoc ⟨hpost, rfl, rfl⟩).append hrest, hphase, hholder, hcall, hissued⟩

/-- A grant that is written back. -/
theorem granted_run {b : Broker A} {hb : b.key = key} {script : Script parse}
    {tokens : TokenSet} {rotated : CompanyRow} {token : String} (realmId : String)
    (hclient : client p = .runner b hb) (happlied : script.commit.applied = true)
    (haccepts : s.Accepts c token tokens) (hupdated : b.Updated row script tokens rotated) :
    ∃ evs, Run (OwnStep client p c)
      ((s.deciding p c row).goto p (.posting c row realmId token)) evs
      ((((s.deciding p c row).goto p (.posting c row realmId token)).issue c
        tokens.toTokenPair).goto p (.writing c row realmId tokens) |>.store p c rotated) := by
  obtain ⟨_, _, accessExpires, _, -, -, -, -, hrow⟩ :=
    Broker.rotatedRow_ok_iff.mp hupdated.rotated
  have hexpires : rotated.accessExpires = some accessExpires := by
    rw [hrow]
    rfl
  have hgrant : Step client ((s.deciding p c row).goto p (.posting c row realmId token))
      (.granted p c tokens) _ :=
    .grants (Connections.goto_phase_self _ p _) ⟨haccepts.newest, haccepts.fresh⟩
  have hstore := Step.runnerStores script.commit hclient
    (Connections.goto_phase_self ((((s.deciding p c row).goto p
      (.posting c row realmId token)).issue c tokens.toTokenPair)) p
      (.writing c row realmId tokens)) happlied hupdated.rotated hexpires
  exact ⟨_, Run.cons ⟨hgrant, rfl, rfl⟩ (Run.single ⟨hstore, rfl, rfl⟩)⟩

/-- A call that posts `token`, whose grant is written back. -/
theorem realizes_stored {b : Broker A} {hb : b.key = key} {script : Script parse}
    {realmId token : String} (hclient : client p = .runner b hb) (hidle : s.phase p = .idle)
    (hfree : s.rows.holder c = none) (hrow : s.rows.row c = some row)
    (hpost : Step client (s.deciding p c row) (.posted p c script.clock token)
      ((s.deciding p c row).goto p (.posting c row realmId token)))
    (haccepts : ∀ pair, script.post.rotated = some pair →
      ∀ expiresIn xRefreshTokenExpiresIn,
        s.Accepts c token ⟨pair, expiresIn, xRefreshTokenExpiresIn⟩)
    {tokens : TokenSet} {rotated : CompanyRow} (hupdated : b.Updated row script tokens rotated)
    (happlied : script.commit.applied = true) (ending : Ending) :
    Realizes client s p c
      ⟨ending, some (b.storeGrant row realmId script).2, script.post.rotated⟩ := by
  obtain ⟨reply, hreply, hparse⟩ := hupdated.reply
  have hissued := script.post.honest reply tokens hreply hparse
  obtain ⟨evs, hrest⟩ := granted_run realmId hclient happlied
    (haccepts _ hissued tokens.expiresIn tokens.xRefreshTokenExpiresIn) hupdated
  refine realizes_posted hidle hfree hrow hpost hrest ?_ ?_ ?_ ?_
  · simp [Connections.store]
  · simp [Connections.store, Rows.commit]
  · rw [Broker.storeGrant_updated hupdated, if_pos happlied]
    exact Rows.commit_row_self _ c (some rotated)
  · rw [hissued]
    simp [Connections.store, Connections.goto, Connections.issue, Connections.deciding,
      Connections.lock]

/-- A call that posts `token`, and leaves the row as it was. -/
theorem realizes_lost {realmId token : String} {clock : Option UInt64}
    (hidle : s.phase p = .idle) (hfree : s.rows.holder c = none)
    (hrow : s.rows.row c = some row)
    (hpost : Step client (s.deciding p c row) (.posted p c clock token)
      ((s.deciding p c row).goto p (.posting c row realmId token)))
    {issued : Option TokenPair} (haccepts : ∀ pair, issued = some pair →
      s.Accepts c token ⟨pair, 0, 0⟩) (ending : Ending) :
    Realizes client s p c ⟨ending, some row, issued⟩ := by
  have hposting := (s.deciding p c row).goto_phase_self p (.posting c row realmId token)
  cases issued with
  | none =>
    have hstep : Step client _ (.failed p c) _ := .fails hposting
    refine realizes_posted hidle hfree hrow hpost (Run.single ⟨hstep, rfl, rfl⟩) ?_ ?_ hrow ?_
    · simp [Connections.leave]
    · simp [Connections.leave, Rows.release]
    · exact (List.append_nil _).symm
  | some pair =>
    -- whatever the reply was, it is gone
    have haccepts' := haccepts pair rfl
    have hstep : Step client _ (.replyLost p c ⟨pair, 0, 0⟩) _ :=
      .losesReply hposting ⟨haccepts'.newest, haccepts'.fresh⟩
    refine realizes_posted hidle hfree hrow hpost (Run.single ⟨hstep, rfl, rfl⟩) ?_ ?_ hrow ?_
    · simp [Connections.leave]
    · simp [Connections.leave, Rows.release]
    · simp [Connections.leave, Connections.goto, Connections.issue, Connections.deciding,
        Connections.lock]

/-- **Every call is realized.** A call that finds its row unlocked, and for which
Intuit rotates only on the newest refresh token, is a run of its party. So what is
proved of single calls is about the same code as the interleavings are. -/
theorem tryAccess_realized {b : Broker A} {hb : b.key = key} (hclient : client p = .runner b hb)
    (hidle : s.phase p = .idle) (hfree : s.rows.holder c = none)
    (hrow : s.rows.row c = some row) (script : Script parse)
    (haccepts : ∀ r realmId request pair,
      b.plan (some row) (unixNow script.clock) = .refresh r realmId request →
      script.post.rotated = some pair → ∀ expiresIn xRefreshTokenExpiresIn,
        s.Accepts c request.refreshToken ⟨pair, expiresIn, xRefreshTokenExpiresIn⟩) :
    Realizes client s p c (b.tryAccess (some row) script) := by
  have hdeciding : (s.deciding p c row).phase p = .deciding c row := deciding_phase
  unfold Broker.tryAccess
  split
  · exact realizes_unread hidle hfree hrow _
  · exact realizes_unread hidle hfree hrow _
  split
  · exact realizes_unposted hidle hfree hrow _ ⟨.stopsDeciding hdeciding, rfl, rfl⟩
  · exact realizes_unposted hidle hfree hrow _ ⟨.stopsDeciding hdeciding, rfl, rfl⟩
  split
  · exact realizes_unposted hidle hfree hrow _ ⟨.stopsDeciding hdeciding, rfl, rfl⟩
  next result hplan =>
    exact realizes_unposted hidle hfree hrow _ ⟨.answers hclient hdeciding hplan, rfl, rfl⟩
  next access hplan =>
    exact realizes_unposted hidle hfree hrow _
      ⟨.reuses script.commit hclient hdeciding hplan, rfl, rfl⟩
  next r realmId request hplan =>
    -- the row is locked from here on, so what is committed is what was read
    obtain ⟨_, _, hr, -⟩ := Broker.plan_refresh_inv hplan
    cases hr
    have hpost : Step client (s.deciding p c row) (.posted p c script.clock request.refreshToken)
        ((s.deciding p c row).goto p (.posting c row realmId request.refreshToken)) :=
      .runnerPosts hclient hdeciding hplan
    by_cases hstored : (∃ tokens rotated, b.Updated row script tokens rotated) ∧
        script.commit.applied = true
    · obtain ⟨⟨tokens, rotated, hupdated⟩, happlied⟩ := hstored
      exact realizes_stored hclient hidle hfree hrow hpost (fun pair => haccepts _ _ _ pair hplan)
        hupdated happlied _
    · have hkept : (b.storeGrant row realmId script).2 = row := by
        by_cases hupdated : ∃ tokens rotated, b.Updated row script tokens rotated
        · obtain ⟨tokens, rotated, hu⟩ := id hupdated
          rw [Broker.storeGrant_updated hu]
          exact if_neg fun happlied => hstored ⟨hupdated, happlied⟩
        · exact (Broker.storeGrant_not_updated hupdated realmId).1
      rw [hkept]
      exact realizes_lost hidle hfree hrow hpost
        (fun pair hrotated => haccepts _ _ _ pair hplan hrotated 0 0) _

end Connections

end JobRunner
