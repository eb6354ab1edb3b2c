import JobRunner.Qbo.Broker

/-!
# How long a handed-out access token lives

`QboJobAccess::Connected` promises a token that is valid for at least the job's
lifetime. The stored token is checked against `valid_for` before it is handed out;
a refreshed token is handed out whatever lifetime Intuit gave it.

- `Broker.handOut`: the token of a call, its expiry over the integers, and the last
  clock reading the call took.
- `Broker.CoversJob`: the condition on the inputs, path by path.
- `outlives_iff`: the promise is kept **exactly** under that condition.
-/

namespace JobRunner

open Machine

/-- A token on its way to a job. -/
structure HandOut where
  token : String
  /-- When the token expires, not rounded to 64 bits. -/
  expires : Int
  /-- The clock reading by which the code decided to hand the token out. -/
  decided : Int

/-- The token set of a reply that parses. -/
def Exchange.tokens {parse : String → Except String TokenSet} (e : Exchange parse) :
    Option TokenSet :=
  e.reply.bind fun reply => (refresh parse reply).toOption

namespace Broker

variable {A : Crypto} {parse : String → Except String TokenSet} (b : Broker A)

/-- The stored token lives until `qbo_access_expires`; a refreshed one for `expires_in`
seconds from the reading after Intuit's reply. -/
def handOut (row : Option CompanyRow) (s : Script parse) : Option HandOut :=
  match b.plan row (unixNow s.clock) with
  | .reuse _ => do
    let c ← row.bind (·.connection)
    let token ← decrypt A b.key c.accessBlob
    some ⟨token, c.accessExpires.toInt, (unixNow s.clock).toInt⟩
  | .refresh _ _ _ => do
    let tokens ← s.post.tokens
    let now := (unixNow s.clockAfter).toInt
    some ⟨tokens.accessToken, now + tokens.expiresIn.toInt, now⟩
  | _ => none

/-- The token is valid for `valid_for` seconds from the clock reading `since`. -/
def Outlives (out : HandOut) (since : Int) : Prop :=
  (b.validFor.toNat : Int) ≤ out.expires - since

/-- `access_expires - now` does not underflow, and `valid_for` is an `i64`. -/
def StoredCovers (row : Option CompanyRow) (now : Int64) : Prop :=
  b.validFor.toNat < 9223372036854775808 ∧
    ∀ c, row.bind (·.connection) = some c → InRange (c.accessExpires.toInt - now.toInt)

/-- Counted from `since`, Intuit's lifetime is long enough. -/
def GrantCovers (s : Script parse) (since : Int) : Prop :=
  ∀ tokens, s.post.tokens = some tokens →
    (b.validFor.toNat : Int) ≤
      tokens.expiresIn.toInt + ((unixNow s.clockAfter).toInt - since)

/-- The condition on the path the call takes. -/
def CoversJob (row : Option CompanyRow) (s : Script parse) (since : Int) : Prop :=
  match b.plan row (unixNow s.clock) with
  | .reuse _ => b.StoredCovers row (unixNow s.clock)
  | _ => b.GrantCovers s since

variable {b}

/-- On the stored path the code compares in `i64`, with `valid_for` cut to
`i64::MAX`. The two comparisons differ only where `valid_for` is beyond `i64`. -/
theorem stored_outlives_iff {r : CompanyRow} {c : Connection} {now left : Int64}
    (hc : r.connection = some c) (hnow : 0 ≤ now.toInt)
    (hsub : sub b.overflow c.accessExpires now = some left) (hleft : b.needed ≤ left) :
    (b.validFor.toNat : Int) ≤ c.accessExpires.toInt - now.toInt ↔
      b.StoredCovers (some r) now := by
  have hexpires := inRange_toInt c.accessExpires
  have hneeded : min (b.validFor.toNat : Int) 9223372036854775807 ≤ left.toInt := by
    rw [← saturate_toInt]
    exact Int64.le_iff_toInt_le.mp hleft
  constructor
  · -- a remaining lifetime is not negative, so the difference fits
    intro hvalid
    refine ⟨by have := hexpires.2; omega, fun c' hc' => ?_⟩
    have heq : r.connection = some c' := hc'
    rw [hc, Option.some.injEq] at heq
    subst heq
    exact ⟨by omega, by have := hexpires.2; omega⟩
  · -- below `i64::MAX` nothing is cut off, so the code's comparison is the real one
    rintro ⟨hmax, hrange⟩
    obtain ⟨left', hsub', hexact⟩ := sub_inRange b.overflow (hrange c hc)
    rw [hsub, Option.some.injEq] at hsub'
    subst hsub'
    omega

theorem handOut_reuse {row : Option CompanyRow} {s : Script parse} {access : QboJobAccess}
    {r : CompanyRow} {c : Connection} {token : String}
    (hplan : b.plan row (unixNow s.clock) = .reuse access) (hrow : row = some r)
    (hc : r.connection = some c) (hdec : decrypt A b.key c.accessBlob = some token) :
    b.handOut row s = some ⟨token, c.accessExpires.toInt, (unixNow s.clock).toInt⟩ := by
  subst hrow
  simp [handOut, hplan, hc, hdec]

theorem handOut_refresh {row : Option CompanyRow} {s : Script parse} {r : CompanyRow}
    {realmId : String} {request : TokenRequest} {tokens : TokenSet}
    (hplan : b.plan row (unixNow s.clock) = .refresh r realmId request)
    (htokens : s.post.tokens = some tokens) :
    b.handOut row s = some ⟨tokens.accessToken,
      (unixNow s.clockAfter).toInt + tokens.expiresIn.toInt, (unixNow s.clockAfter).toInt⟩ := by
  simp [handOut, hplan, htokens]

/-- **Exactly when a handed-out token outlives the job.** The token of a call that
returns `Connected` is valid for `valid_for` seconds exactly when the path's condition
holds, counted from the last clock reading and from the first one alike. -/
theorem outlives_iff {row : Option CompanyRow} {s : Script parse}
    {realmId token apiBase : String}
    (h : (b.tryAccess row s).ending = .returned (.ok (.connected realmId token apiBase))) :
    ∃ out, b.handOut row s = some out ∧ out.token = token ∧
      (b.Outlives out out.decided ↔ b.CoversJob row s out.decided) ∧
      (b.Outlives out (unixNow s.clock).toInt ↔
        b.CoversJob row s (unixNow s.clock).toInt) := by
  rcases tryAccess_connected h with hplan | ⟨r, request, tokens, rotated, hplan, hupdated, rfl⟩
  · obtain ⟨r, c, left, token', hrow, -, hc, hsub, hleft, hdec, haccess⟩ := plan_reuse_inv hplan
    cases haccess
    have hcovers := stored_outlives_iff hc (unixNow_nonneg s.clock) hsub hleft
    subst hrow
    have hpath : ∀ since, b.CoversJob (some r) s since ↔
        b.StoredCovers (some r) (unixNow s.clock) := by
      intro since
      simp only [CoversJob, hplan]
    refine ⟨_, handOut_reuse hplan rfl hc hdec, rfl, ?_, ?_⟩
    · exact hcovers.trans (hpath _).symm
    · exact hcovers.trans (hpath _).symm
  · obtain ⟨reply, hreply, hparse⟩ := hupdated.reply
    have htokens : s.post.tokens = some tokens := by
      simp [Exchange.tokens, hreply, hparse, Except.toOption]
    have hcovers : ∀ since, b.CoversJob row s since ↔
        (b.validFor.toNat : Int) ≤
          tokens.expiresIn.toInt + ((unixNow s.clockAfter).toInt - since) := by
      intro since
      simp only [CoversJob, hplan, GrantCovers, htokens, Option.some.injEq, forall_eq']
    refine ⟨_, handOut_refresh hplan htokens, rfl, ?_, ?_⟩
    · rw [hcovers]
      simp only [Outlives]
      omega
    · rw [hcovers]
      simp only [Outlives]
      omega

/-- The default timeout of half an hour fits into Intuit's hour. -/
theorem half_hour_job_covered :
    validForTimeout 1800 = some 2100 ∧
      ∃ out, (sampleBroker 2100).handOut (some (sampleRow 0)) sampleScript = some out ∧
        out.token = "access-2" ∧
        ((sampleBroker 2100).Outlives out out.decided ↔
          (sampleBroker 2100).CoversJob (some (sampleRow 0)) sampleScript out.decided) ∧
        ((sampleBroker 2100).Outlives out 1000 ↔
          (sampleBroker 2100).CoversJob (some (sampleRow 0)) sampleScript 1000) :=
  ⟨by decide, outlives_iff (tryAccess_sample (by decide))⟩

/-- A job of an hour gets a token that expires five minutes before the promise ends:
`valid_for` is 3900 seconds, and Intuit's tokens live 3600. -/
theorem hour_job_outlives_token :
    validForTimeout 3600 = some 3900 ∧
      ((sampleBroker 3900).tryAccess (some (sampleRow 0)) sampleScript).ending =
        .returned (.ok (.connected "9130" "access-2"
          "https://sandbox-quickbooks.api.intuit.com")) ∧
      ∃ out, (sampleBroker 3900).handOut (some (sampleRow 0)) sampleScript = some out ∧
        out.token = "access-2" ∧ ¬ (sampleBroker 3900).Outlives out out.decided ∧
        ¬ (sampleBroker 3900).Outlives out 1000 := by
  have hplan : (sampleBroker 3900).plan (some (sampleRow 0)) 1000 = _ :=
    sampleBroker_plan (by decide)
  have htokens : sampleScript.post.tokens = some sampleTokens := by
    simp [Exchange.tokens, sampleScript, sampleExchange, refresh_sampleBody, Except.toOption]
  refine ⟨by decide, tryAccess_sample (by decide), _, handOut_refresh hplan htokens, rfl, ?_, ?_⟩
  · simp only [Outlives]
    decide
  · simp only [Outlives]
    decide

end Broker

end JobRunner
