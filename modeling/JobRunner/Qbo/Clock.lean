import JobRunner.Qbo.Lifetime

/-!
# QuickBooks time over the integers

The daemon adds and subtracts seconds from its configuration, the company row, the clock
and Intuit's replies. `valid_for` and the clock are converted with a bound, the sums and
differences are not: with overflow checks they panic, without them they wrap.

- `Broker.exactPlan`: the decisions of `try_access`, taken over the integers.
- `Broker.OverIntegers`: the code decides and stores what the integers say.
- `Broker.ClockFits`: the condition on the inputs.
- `over_integers_iff`: the two are equivalent.
-/

open Text Machine

namespace JobRunner

/-- The clock in seconds; what lies before the epoch counts as the epoch. -/
def seconds : Option UInt64 → Int
  | none => 0
  | some secs => secs.toNat

theorem seconds_bounds (clock : Option UInt64) :
    0 ≤ seconds clock ∧ seconds clock < 18446744073709551616 := by
  cases clock with
  | none => exact ⟨by decide, by decide⟩
  | some secs =>
    have := secs.toNat_lt
    exact ⟨by simp only [seconds]; omega, by simp only [seconds]; omega⟩

theorem unixNow_toInt (clock : Option UInt64) :
    (unixNow clock).toInt = min (seconds clock) 9223372036854775807 := by
  cases clock with
  | none => decide
  | some secs => exact saturate_toInt secs

/-- What `try_access` decides about a connected company. -/
inductive Decision where
  /-- The stored token covers the job. -/
  | stored
  /-- The refresh token is as good as expired. -/
  | expired
  | refresh
deriving DecidableEq

/-- The decision over the integers. -/
def exactDecision (validFor : Int) (c : Connection) (now : Int) : Decision :=
  if validFor ≤ c.accessExpires.toInt - now then .stored
  else if c.refreshExpires.toInt ≤ now + 60 then .expired
  else .refresh

namespace Broker

variable {A : Crypto}

/-! ## Decisions -/

section Decision

variable (b : Broker A)

/-- The decision of the code; `none` is a panic. -/
def decision (c : Connection) (now : Int64) : Option Decision :=
  match sub b.overflow c.accessExpires now with
  | none => none
  | some left =>
    if b.needed ≤ left then some .stored
    else
      match add b.overflow now 60 with
      | none => none
      | some soon => if c.refreshExpires ≤ soon then some .expired else some .refresh

/-- What follows from the decision. -/
def carryOut (row : CompanyRow) (c : Connection) : Option Decision → Plan
  | none => .panic
  | some .stored =>
    match decrypt A b.key c.accessBlob with
    | none => .answer (.error (.decrypt "access token"))
    | some token => .reuse (b.connected c.realmId token)
  | some .expired => .answer (.ok expired)
  | some .refresh =>
    match decrypt A b.key c.refreshBlob with
    | none => .answer (.error (.decrypt "refresh token"))
    | some refreshToken =>
      match b.clientCredentials row with
      | .error err => .answer (.error err)
      | .ok (clientId, clientSecret) =>
        .refresh row c.realmId ⟨clientId, clientSecret, refreshToken⟩

theorem carryOut_refresh {r : CompanyRow} {c : Connection}
    {refreshToken clientId clientSecret : String}
    (hdec : decrypt A b.key c.refreshBlob = some refreshToken)
    (hcredentials : b.clientCredentials r = .ok (clientId, clientSecret)) :
    b.carryOut r c (some .refresh) =
      .refresh r c.realmId ⟨clientId, clientSecret, refreshToken⟩ := by
  simp only [carryOut, hdec, hcredentials]

/-- `plan` is its decision, carried out. The decision is the part with the
arithmetic, and so the only part in which machine numbers and integers can differ. -/
theorem plan_eq_carryOut {r : CompanyRow} {c : Connection} (henabled : r.enabled = true)
    (hc : r.connection = some c) (now : Int64) :
    b.plan (some r) now = b.carryOut r c (b.decision c now) := by
  rw [plan_of_connection henabled hc, decision]
  rcases sub b.overflow c.accessExpires now with _ | left
  · rfl
  by_cases hleft : b.needed ≤ left
  · simp only [if_pos hleft]
    rfl
  · simp only [if_neg hleft]
    rw [planRefresh]
    rcases add b.overflow now 60 with _ | soon
    · rfl
    by_cases hexpires : c.refreshExpires ≤ soon
    · simp only [if_pos hexpires]
      rfl
    · simp only [if_neg hexpires]
      rfl

/-- The decision that a plan shows. -/
def decided : Plan → Option Decision
  | .panic => none
  | .reuse _ => some .stored
  | .answer (.ok _) => some .expired
  | .answer (.error (.decrypt value)) =>
    if value = "access token" then some .stored else some .refresh
  | .answer (.error _) => some .refresh
  | .refresh _ _ _ => some .refresh

theorem decided_carryOut (r : CompanyRow) (c : Connection) :
    Function.LeftInverse decided (b.carryOut r c) := by
  rintro (_ | _ | _ | _)
  · rfl
  · rw [carryOut]
    split <;> rfl
  · rfl
  · rw [carryOut]
    split
    · rfl
    split
    next err herr =>
      obtain ⟨text, rfl⟩ := clientCredentials_error herr
      rfl
    · rfl

/-- The plan of `try_access`, decided over the integers. -/
def exactPlan (validFor : Int) (row : Option CompanyRow) (now : Int) : Plan :=
  match row with
  | none => .answer (.ok notConnected)
  | some row =>
    if row.enabled = false then .answer (.ok turnedOff)
    else
      match row.connection with
      | none => .answer (.ok notConnected)
      | some c => b.carryOut row c (some (exactDecision validFor c now))

theorem exactPlan_of_connection {r : CompanyRow} {c : Connection} (henabled : r.enabled = true)
    (hc : r.connection = some c) (validFor now : Int) :
    b.exactPlan validFor (some r) now =
      b.carryOut r c (some (exactDecision validFor c now)) := by
  simp [exactPlan, henabled, hc]

/-- The plans agree where the decisions do. -/
theorem plan_eq_exactPlan_iff {validFor : Int} {row : Option CompanyRow} {now : Int64}
    {clock : Int} :
    b.plan row now = b.exactPlan validFor row clock ↔
      ∀ r c, row = some r → r.enabled = true → r.connection = some c →
        b.decision c now = some (exactDecision validFor c clock) := by
  rcases row with _ | r
  · refine iff_of_true rfl ?_
    rintro r c ⟨⟩
  rcases henabled : r.enabled with _ | _
  · refine iff_of_true ?_ ?_
    · simp [plan, exactPlan, henabled]
    · rintro r' c ⟨⟩ henabled'
      rw [henabled] at henabled'
      cases henabled'
  -- without a connection nothing is decided
  rcases hc : r.connection with _ | c
  · refine iff_of_true ?_ ?_
    · simp [plan, exactPlan, henabled, hc]
    · rintro r' c ⟨⟩ - hc'
      rw [hc] at hc'
      cases hc'
  rw [b.plan_eq_carryOut henabled hc, b.exactPlan_of_connection henabled hc,
    (b.decided_carryOut r c).injective.eq_iff]
  constructor
  · rintro h r' c' ⟨⟩ - hc'
    rw [hc, Option.some_inj] at hc'
    subst hc'
    exact h
  · intro h
    exact h r c rfl henabled hc

end Decision

/-! ## Conditions -/

/-- In range the decision is exact, on the bounded numbers. -/
theorem decision_exact {b : Broker A} {c : Connection} {now : Int64}
    (hsub : InRange (c.accessExpires.toInt - now.toInt))
    (hadd : b.needed.toInt ≤ c.accessExpires.toInt - now.toInt ∨ InRange (now.toInt + 60)) :
    b.decision c now = some (exactDecision b.needed.toInt c now.toInt) := by
  obtain ⟨left, hleft, hleftInt⟩ := sub_inRange b.overflow hsub
  simp only [decision, hleft, exactDecision, Int64.le_iff_toInt_le, hleftInt]
  by_cases hneeded : b.needed.toInt ≤ c.accessExpires.toInt - now.toInt
  · rw [if_pos hneeded, if_pos hneeded]
  obtain ⟨soon, hsoon, hsoonInt⟩ := add_inRange b.overflow (b := 60) (hadd.resolve_left hneeded)
  have hsixty : (60 : Int64).toInt = 60 := rfl
  simp only [if_neg hneeded, hsoon, hsoonInt, hsixty]
  split <;> rfl

/-- With overflow checks, a decision was taken in range. -/
theorem decision_panics {b : Broker A} (hb : b.overflow = .panics) {c : Connection} {now : Int64}
    {d : Decision} (h : b.decision c now = some d) :
    InRange (c.accessExpires.toInt - now.toInt) ∧
      (b.needed.toInt ≤ c.accessExpires.toInt - now.toInt ∨ InRange (now.toInt + 60)) := by
  rw [decision, hb] at h
  rcases hsub : sub .panics c.accessExpires now with _ | left
  · rw [hsub] at h
    cases h
  have hleftInt := sub_panics_eq_some_iff.mp hsub
  refine ⟨by rw [← hleftInt]; exact inRange_toInt left, ?_⟩
  by_cases hneeded : b.needed ≤ left
  · rw [Int64.le_iff_toInt_le, hleftInt] at hneeded
    exact .inl hneeded
  · simp only [hsub, if_neg hneeded] at h
    rcases hadd : add .panics now 60 with _ | soon
    · rw [hadd] at h
      cases h
    · right
      have hsoon := add_panics_eq_some_iff.mp hadd
      rw [show (60 : Int64).toInt = 60 from rfl] at hsoon
      rw [← hsoon]
      exact inRange_toInt soon

theorem exactDecision_eq_stored_iff {validFor : Int} {c : Connection} {now : Int} :
    exactDecision validFor c now = .stored ↔ validFor ≤ c.accessExpires.toInt - now := by
  rw [exactDecision]
  split
  next h => exact iff_of_true rfl h
  next h => exact iff_of_false (by split <;> simp) h

/-- The broker that `run` builds, with `valid_for` and the build's way with overflow. -/
def started (b : Broker A) (overflow : Overflow) (validFor : UInt64) : Broker A :=
  { b with overflow, validFor }

/-- The decision fits into `i64`: the stored token covers the job; or what is left of it is
in range, the next minute is too, and `valid_for` is not cut to exactly what is left. -/
def DecisionFits (validFor : Int) (c : Connection) (now : Int) : Prop :=
  validFor ≤ c.accessExpires.toInt - now ∨
    (-9223372036854775808 ≤ c.accessExpires.toInt - now ∧ now + 60 < 9223372036854775808 ∧
      ¬ (9223372036854775808 ≤ validFor ∧
        c.accessExpires.toInt - now = 9223372036854775807))

/-- **Exactly when both builds decide as the integers do.** -/
theorem decision_started_iff (b : Broker A) (v : UInt64) (c : Connection)
    (clock : Option UInt64) :
    (∀ o, (b.started o v).decision c (unixNow clock) =
      some (exactDecision v.toNat c (seconds clock))) ↔
      DecisionFits v.toNat c (seconds clock) := by
  have hneeded : ∀ o, (b.started o v).needed.toInt = min (v.toNat : Int) 9223372036854775807 :=
    fun _ => saturate_toInt v
  have hnow := unixNow_toInt clock
  have hclock := seconds_bounds clock
  obtain ⟨-, haccess⟩ := inRange_toInt c.accessExpires
  constructor
  · intro h
    obtain ⟨hsub, hadd⟩ := decision_panics (b := b.started .panics v) rfl (h .panics)
    have hsame := (decision_exact hsub hadd).symm.trans (h .panics)
    rw [Option.some_inj] at hsame
    by_cases hcovers : (v.toNat : Int) ≤ c.accessExpires.toInt - seconds clock
    · exact .inl hcovers
    -- the code does not take the token for one that covers the job either
    have hnot : ¬ (b.started .panics v).needed.toInt ≤
        c.accessExpires.toInt - (unixNow clock).toInt := by
      rw [← exactDecision_eq_stored_iff, hsame, exactDecision_eq_stored_iff]
      exact hcovers
    obtain ⟨-, hsoon⟩ := hadd.resolve_left hnot
    obtain ⟨hlow, -⟩ := hsub
    rw [hneeded] at hnot
    refine .inr ⟨by omega, by omega, ?_⟩
    rintro ⟨hcut, hleft⟩
    omega
  · intro h o
    have hfits : InRange (c.accessExpires.toInt - (unixNow clock).toInt) ∧
        ((b.started o v).needed.toInt ≤ c.accessExpires.toInt - (unixNow clock).toInt ∨
          InRange ((unixNow clock).toInt + 60)) ∧
        exactDecision (b.started o v).needed.toInt c (unixNow clock).toInt =
          exactDecision v.toNat c (seconds clock) := by
      rw [hneeded]
      rcases h with hcovers | ⟨hlow, hsoon, hcut⟩
      · have hexact : (unixNow clock).toInt = seconds clock := by omega
        rw [hexact]
        refine ⟨⟨by omega, by omega⟩, .inl (by omega), ?_⟩
        rw [exactDecision_eq_stored_iff.mpr hcovers, exactDecision_eq_stored_iff]
        omega
      · have hexact : (unixNow clock).toInt = seconds clock := by omega
        rw [hexact]
        refine ⟨⟨hlow, by omega⟩, .inr ⟨by omega, hsoon⟩, ?_⟩
        have hsame : min (v.toNat : Int) 9223372036854775807 ≤
            c.accessExpires.toInt - seconds clock ↔
              (v.toNat : Int) ≤ c.accessExpires.toInt - seconds clock := by
          omega
        rw [exactDecision, exactDecision]
        simp only [hsame]
    obtain ⟨hsub, hadd, hsame⟩ := hfits
    rw [decision_exact hsub hadd, hsame]

/-! ## The whole call -/

variable {parse : String → Except String TokenSet}

/-- The expiries of a granted pair fit into `i64`. -/
def GrantFits (clock : Option UInt64) (tokens : TokenSet) : Prop :=
  seconds clock < 9223372036854775808 ∧
    seconds clock + tokens.expiresIn.toInt < 9223372036854775808 ∧
    seconds clock + tokens.xRefreshTokenExpiresIn.toInt < 9223372036854775808

/-- A grant is to be written back: over the integers the call refreshes, Intuit's reply
carries `tokens`, and both can be encrypted. -/
structure Grants (b : Broker A) (validFor : Int) (row : Option CompanyRow) (s : Script parse)
    (r : CompanyRow) (tokens : TokenSet) (accessToken refreshToken : String) : Prop where
  plan : ∃ realmId request,
    b.exactPlan validFor row (seconds s.clock) = .refresh r realmId request
  reply : s.post.tokens = some tokens
  access : encrypt A b.key s.accessIv tokens.accessToken = .ok accessToken
  refresh : encrypt A b.key s.refreshIv tokens.refreshToken = .ok refreshToken

/-- The condition on the inputs: the timeout, the row with the clock, and the reply with
the clock after it. -/
structure ClockFits (b : Broker A) (timeoutSecs : UInt64) (row : Option CompanyRow)
    (s : Script parse) : Prop where
  timeout : timeoutSecs.toNat + 300 < 18446744073709551616
  decision : ∀ r c, row = some r → r.enabled = true → r.connection = some c →
    DecisionFits (timeoutSecs.toNat + 300) c (seconds s.clock)
  grant : ∀ r tokens accessToken refreshToken,
    b.Grants (timeoutSecs.toNat + 300) row s r tokens accessToken refreshToken →
      GrantFits s.clockAfter tokens

/-- In both builds the start-up and the call are those of the integers: nothing panics, the
decision is exact, and so are the two expiries of a grant. -/
structure OverIntegers (b : Broker A) (timeoutSecs : UInt64) (row : Option CompanyRow)
    (s : Script parse) : Prop where
  starts : ∃ v, validForTimeout timeoutSecs = some v ∧ v.toNat = timeoutSecs.toNat + 300
  decides : ∀ v, validForTimeout timeoutSecs = some v → ∀ o,
    (b.started o v).plan row (unixNow s.clock) =
      b.exactPlan (timeoutSecs.toNat + 300) row (seconds s.clock)
  stores : ∀ v, validForTimeout timeoutSecs = some v → ∀ o r tokens accessToken refreshToken,
    b.Grants (timeoutSecs.toNat + 300) row s r tokens accessToken refreshToken →
      ∃ accessExpires refreshExpires : Int64,
        (b.started o v).rotatedRow r tokens (unixNow s.clockAfter) s.accessIv s.refreshIv =
          some (.ok (r.withTokens accessToken refreshToken accessExpires refreshExpires)) ∧
        accessExpires.toInt = seconds s.clockAfter + tokens.expiresIn.toInt ∧
        refreshExpires.toInt = seconds s.clockAfter + tokens.xRefreshTokenExpiresIn.toInt
  returns : ∀ v, validForTimeout timeoutSecs = some v → ∀ o,
    ((b.started o v).tryAccess row s).ending ≠ .panicked

/-- **Exactly when both builds store what the integers say.** -/
theorem rotatedRow_exact_iff {b : Broker A} {v : UInt64} {r : CompanyRow} {tokens : TokenSet}
    {clock : Option UInt64} {accessIv refreshIv : Option Nonce}
    {accessToken refreshToken : String}
    (haccess : encrypt A b.key accessIv tokens.accessToken = .ok accessToken)
    (hrefresh : encrypt A b.key refreshIv tokens.refreshToken = .ok refreshToken) :
    (∀ o, ∃ accessExpires refreshExpires : Int64,
      (b.started o v).rotatedRow r tokens (unixNow clock) accessIv refreshIv =
        some (.ok (r.withTokens accessToken refreshToken accessExpires refreshExpires)) ∧
      accessExpires.toInt = seconds clock + tokens.expiresIn.toInt ∧
      refreshExpires.toInt = seconds clock + tokens.xRefreshTokenExpiresIn.toInt) ↔
    GrantFits clock tokens := by
  have hnow := unixNow_toInt clock
  have hclock := seconds_bounds clock
  obtain ⟨hlow, -⟩ := inRange_toInt tokens.expiresIn
  obtain ⟨hlow', -⟩ := inRange_toInt tokens.xRefreshTokenExpiresIn
  constructor
  · intro h
    obtain ⟨ae, re, hrow, hae, hre⟩ := h .panics
    obtain ⟨_, _, ae', re', -, -, haddAccess, haddRefresh, hsame⟩ := rotatedRow_ok_iff.mp hrow
    obtain rfl : ae = ae' := Option.some.inj (congrArg CompanyRow.accessExpires hsame)
    obtain rfl : re = re' := Option.some.inj (congrArg CompanyRow.refreshExpires hsame)
    -- a sum that did not panic is exact
    have haeInt := add_panics_eq_some_iff.mp haddAccess
    have hreInt := add_panics_eq_some_iff.mp haddRefresh
    obtain ⟨-, hhigh⟩ := inRange_toInt ae
    obtain ⟨-, hhigh'⟩ := inRange_toInt re
    exact ⟨by omega, by omega, by omega⟩
  · rintro ⟨hfits, haccessFits, hrefreshFits⟩ o
    have hexact : (unixNow clock).toInt = seconds clock := by omega
    obtain ⟨ae, hae, haeInt⟩ := add_inRange o (a := unixNow clock) (b := tokens.expiresIn)
      ⟨by omega, by omega⟩
    obtain ⟨re, hre, hreInt⟩ := add_inRange o (a := unixNow clock)
      (b := tokens.xRefreshTokenExpiresIn) ⟨by omega, by omega⟩
    exact ⟨ae, re, rotatedRow_ok_iff.mpr ⟨_, _, ae, re, haccess, hrefresh, hae, hre, rfl⟩,
      by rw [haeInt, hexact], by rw [hreInt, hexact]⟩

theorem exactPlan_ne_panic (b : Broker A) (validFor : Int) (row : Option CompanyRow)
    (now : Int) : b.exactPlan validFor row now ≠ .panic := by
  intro h
  unfold exactPlan at h
  split at h
  · cases h
  split at h
  · cases h
  split at h
  · cases h
  next r _ _ c _ =>
    have hdecided := b.decided_carryOut r c (some (exactDecision validFor c now))
    rw [h] at hdecided
    cases hdecided

/-- After the request only the write-back can panic. -/
theorem storeGrant_panicked {b : Broker A} {r : CompanyRow} {realmId : String}
    {s : Script parse} (h : (b.storeGrant r realmId s).1 = .panicked) :
    ∃ tokens, s.post.tokens = some tokens ∧
      b.rotatedRow r tokens (unixNow s.clockAfter) s.accessIv s.refreshIv = none := by
  rw [storeGrant] at h
  split at h
  · cases h
  next reply hreply =>
  split at h
  · cases h
  next tokens hparse =>
  have htokens : s.post.tokens = some tokens := by
    rw [Exchange.tokens, hreply, Option.bind_some, hparse]
    rfl
  split at h
  next hnone => exact ⟨tokens, htokens, hnone⟩
  · cases h
  split at h
  · cases h
  · cases h
  · exact absurd h CommitFate.ending_inv.2

/-- A panic of the call is a panic of its plan or of its write-back. -/
theorem tryAccess_panicked {b : Broker A} {row : Option CompanyRow} {s : Script parse}
    (h : (b.tryAccess row s).ending = .panicked) :
    b.plan row (unixNow s.clock) = .panic ∨
      ∃ r realmId request tokens, b.plan row (unixNow s.clock) = .refresh r realmId request ∧
        s.post.tokens = some tokens ∧
        b.rotatedRow r tokens (unixNow s.clockAfter) s.accessIv s.refreshIv = none := by
  rcases tryAccess_cases b row s with ⟨e, hcall, -, hpanic⟩ |
    ⟨r, realmId, request, -, -, hplan, hcall⟩
  · rw [hcall] at h
    exact .inl (hpanic h)
  · rw [hcall] at h
    obtain ⟨tokens, htokens, hnone⟩ := storeGrant_panicked h
    exact .inr ⟨r, realmId, request, tokens, hplan, htokens, hnone⟩

/-- A write-back panics on its sums only. -/
theorem rotatedRow_eq_none {b : Broker A} {r : CompanyRow} {tokens : TokenSet} {now : Int64}
    {accessIv refreshIv : Option Nonce}
    (h : b.rotatedRow r tokens now accessIv refreshIv = none) :
    ∃ accessToken refreshToken, encrypt A b.key accessIv tokens.accessToken = .ok accessToken ∧
      encrypt A b.key refreshIv tokens.refreshToken = .ok refreshToken := by
  unfold rotatedRow at h
  split at h
  · cases h
  next accessToken haccess =>
  split at h
  · cases h
  next refreshToken hrefresh => exact ⟨accessToken, refreshToken, haccess, hrefresh⟩

theorem validForTimeout_eq_some_iff {timeoutSecs v : UInt64} :
    validForTimeout timeoutSecs = some v ↔ v.toNat = timeoutSecs.toNat + 300 := by
  have hv := v.toNat_lt
  rw [validForTimeout]
  split
  next hlt =>
    have hsum : (timeoutSecs + 300).toNat = timeoutSecs.toNat + 300 := by
      rw [UInt64.toNat_add]
      exact Nat.mod_eq_of_lt hlt
    rw [Option.some_inj, ← UInt64.toNat_inj, hsum]
    exact eq_comm
  next hlt => exact iff_of_false (by simp) (by omega)

section Fits

variable {b : Broker A} {timeoutSecs v : UInt64} {row : Option CompanyRow} {s : Script parse}

theorem ClockFits.decides (h : b.ClockFits timeoutSecs row s)
    (hv : validForTimeout timeoutSecs = some v) (o : Overflow) :
    (b.started o v).plan row (unixNow s.clock) =
      b.exactPlan (timeoutSecs.toNat + 300) row (seconds s.clock) := by
  have hvInt : (v.toNat : Int) = timeoutSecs.toNat + 300 := by
    have := validForTimeout_eq_some_iff.mp hv
    omega
  refine ((b.started o v).plan_eq_exactPlan_iff).mpr fun r c hr henabled hc => ?_
  have hfits := h.decision r c hr henabled hc
  rw [← hvInt, ← decision_started_iff b] at hfits
  rw [← hvInt]
  exact hfits o

theorem ClockFits.stores (h : b.ClockFits timeoutSecs row s) (o : Overflow) {r : CompanyRow}
    {tokens : TokenSet} {accessToken refreshToken : String}
    (hgrants : b.Grants (timeoutSecs.toNat + 300) row s r tokens accessToken refreshToken) :
    ∃ accessExpires refreshExpires : Int64,
      (b.started o v).rotatedRow r tokens (unixNow s.clockAfter) s.accessIv s.refreshIv =
        some (.ok (r.withTokens accessToken refreshToken accessExpires refreshExpires)) ∧
      accessExpires.toInt = seconds s.clockAfter + tokens.expiresIn.toInt ∧
      refreshExpires.toInt = seconds s.clockAfter + tokens.xRefreshTokenExpiresIn.toInt :=
  (rotatedRow_exact_iff hgrants.access hgrants.refresh).mpr
    (h.grant r tokens accessToken refreshToken hgrants) o

theorem ClockFits.returns (h : b.ClockFits timeoutSecs row s)
    (hv : validForTimeout timeoutSecs = some v) (o : Overflow) :
    ((b.started o v).tryAccess row s).ending ≠ .panicked := by
  intro hpanicked
  rcases tryAccess_panicked hpanicked with hpanic | ⟨r, realmId, request, tokens, hplan,
    htokens, hnone⟩
  · rw [h.decides hv o] at hpanic
    exact b.exactPlan_ne_panic _ _ _ hpanic
  · obtain ⟨accessToken, refreshToken, haccess, hrefresh⟩ := rotatedRow_eq_none hnone
    rw [h.decides hv o] at hplan
    obtain ⟨ae, re, hrow, -⟩ := h.stores (v := v) o
      ⟨⟨realmId, request, hplan⟩, htokens, haccess, hrefresh⟩
    rw [hnone] at hrow
    cases hrow

end Fits

/-- **Exactly when no computation overflows.** For every timeout, row, clock, reply and nonce,
and in both builds, the start-up and the call do what they would do over the integers if and
only if the inputs fit. -/
theorem over_integers_iff (b : Broker A) (timeoutSecs : UInt64) (row : Option CompanyRow)
    (s : Script parse) :
    b.OverIntegers timeoutSecs row s ↔ b.ClockFits timeoutSecs row s := by
  constructor
  · intro h
    obtain ⟨v, hstart, hv⟩ := h.starts
    have hvInt : (v.toNat : Int) = timeoutSecs.toNat + 300 := by omega
    refine ⟨by have := v.toNat_lt; omega, fun r c hr henabled hc => ?_, ?_⟩
    · rw [← hvInt, ← decision_started_iff b]
      intro o
      rw [hvInt]
      exact ((b.started o v).plan_eq_exactPlan_iff).mp (h.decides v hstart o) r c hr henabled hc
    · intro r tokens accessToken refreshToken hgrants
      rw [← rotatedRow_exact_iff hgrants.access hgrants.refresh]
      exact fun o => h.stores v hstart o r tokens accessToken refreshToken hgrants
  · intro h
    have hsum : (timeoutSecs + 300).toNat = timeoutSecs.toNat + 300 := by
      rw [UInt64.toNat_add]
      exact Nat.mod_eq_of_lt h.timeout
    exact ⟨⟨_, validForTimeout_eq_some_iff.mpr hsum, hsum⟩, fun v hv o => h.decides hv o,
      fun v _ o r tokens accessToken refreshToken hgrants => h.stores o hgrants,
      fun v hv o => h.returns hv o⟩

/-- A row with the smallest expiry: checked arithmetic panics, and wrapped arithmetic hands
out the token that expired before all others. -/
theorem expired_token_reused :
    ((sampleBroker 2100).started .panics 2100).plan (some (sampleRow Int64.minValue)) 1000 =
        .panic ∧
      ((sampleBroker 2100).started .wraps 2100).plan (some (sampleRow Int64.minValue)) 1000 =
        .reuse ((sampleBroker 2100).connected "9130" "access-1") ∧
      (∃ realmId request,
        (sampleBroker 2100).exactPlan 2100 (some (sampleRow Int64.minValue)) 1000 =
          .refresh (sampleRow Int64.minValue) realmId request) ∧
      ¬ (sampleBroker 2100).OverIntegers 1800 (some (sampleRow Int64.minValue)) sampleScript := by
  have hc := sampleRow_connection Int64.minValue
  -- the debug build stops at `access_expires - now`
  have hpanics : ((sampleBroker 2100).started .panics 2100).plan
      (some (sampleRow Int64.minValue)) 1000 = .panic := by
    have hsub : sub ((sampleBroker 2100).started .panics 2100).overflow Int64.minValue 1000 =
        none := by decide
    rw [plan_eq_carryOut _ rfl hc, decision, hsub]
    rfl
  refine ⟨hpanics, ?_, ?_, ?_⟩
  · have hsub : sub .wraps Int64.minValue 1000 = some 9223372036854774808 := rfl
    have hleft : saturate 2100 ≤ 9223372036854774808 := by decide
    have hdec : decrypt sampleCrypto ((sampleBroker 2100).started .wraps 2100).key
        (utf8 (sampleStored "access-1")) = some "access-1" := decrypt_sample "access-1"
    exact plan_reuse rfl hc hsub hleft hdec
  · have hdecision : exactDecision 2100 ⟨"9130", utf8 (sampleStored "access-1"),
        utf8 (sampleStored "refresh-1"), Int64.minValue, 9000000⟩ 1000 = .refresh := by decide
    rw [exactPlan_of_connection _ rfl hc, hdecision]
    exact ⟨_, _, carryOut_refresh _ (decrypt_sample "refresh-1") rfl⟩
  · intro h
    have hstart : validForTimeout 1800 = some 2100 := by decide
    have hdecides := h.decides 2100 hstart .panics
    have hclock : unixNow sampleScript.clock = 1000 := rfl
    rw [hclock, hpanics] at hdecides
    exact exactPlan_ne_panic _ _ _ _ hdecides.symm

end Broker

end JobRunner
