import JobRunner.Qbo.Broker

/-!
# Rotated refresh tokens that do not reach the row

Intuit rotates the refresh token in the middle of `try_access`; the row learns of it
only with the `COMMIT`. Whatever ends the call in between (an error, or the future
being dropped by a shutdown) leaves Intuit with a token the row does not have.

- `Broker.Posts`, `Script.Rotates`, `Broker.Records`: how far the call and Intuit get.
- `holds_newest_iff`: the row holds Intuit's newest refresh token after the call
  **exactly when** a rotation, if there is one, is recorded.
-/

open Text Machine

namespace JobRunner

/-- The refresh token Intuit issued last, `before` being the one before the call. -/
def Called.newest (call : Called) (before : String) : String :=
  (call.issued.map (·.refreshToken)).getD before

/-- Intuit issues another refresh token than `before`. -/
def Script.Rotates {parse : String → Except String TokenSet} (s : Script parse)
    (before : String) : Prop :=
  ∃ pair, s.post.rotated = some pair ∧ pair.refreshToken ≠ before

namespace Broker

variable {A : Crypto} {parse : String → Except String TokenSet} (b : Broker A)

/-- The row's refresh token. -/
def storedRefresh (row : Option CompanyRow) : Option String :=
  (row.bind (·.refreshToken)).bind (decrypt A b.key)

/-- The call gets as far as its request to Intuit. -/
def Posts (row : Option CompanyRow) (s : Script parse) : Prop :=
  s.beginTx = .done ∧ s.select = .done ∧
    ∃ r realmId request, b.plan row (unixNow s.clock) = .refresh r realmId request

/-- From the reply on nothing fails before the `COMMIT`, and the `COMMIT` takes effect. -/
structure Records (s : Script parse) : Prop where
  stored : ∃ reply tokens, s.post.reply = some reply ∧ refresh parse reply = .ok tokens ∧
    (∃ stored, encrypt A b.key s.accessIv tokens.accessToken = .ok stored) ∧
    (∃ stored, encrypt A b.key s.refreshIv tokens.refreshToken = .ok stored) ∧
    (∃ expires, add b.overflow (unixNow s.clockAfter) tokens.expiresIn = some expires) ∧
    (∃ expires, add b.overflow (unixNow s.clockAfter) tokens.xRefreshTokenExpiresIn =
      some expires)
  update : s.update = .done
  commit : s.commit.applied = true

variable {b}

theorem records_iff {s : Script parse} (row : CompanyRow) :
    b.Records s ↔ (∃ tokens rotated, b.Updated row s tokens rotated) ∧
      s.commit.applied = true := by
  constructor
  · rintro ⟨⟨reply, tokens, hreply, hparse, ⟨access, haccess⟩, ⟨token, htoken⟩, ⟨ae, hae⟩,
      ⟨re, hre⟩⟩, hupdate, hcommit⟩
    have hrotated : b.rotatedRow row tokens (unixNow s.clockAfter) s.accessIv s.refreshIv =
        some (.ok (row.withTokens access token ae re)) :=
      rotatedRow_ok_iff.mpr ⟨access, token, ae, re, haccess, htoken, hae, hre, rfl⟩
    exact ⟨⟨tokens, _, ⟨reply, hreply, hparse⟩, hrotated, hupdate⟩, hcommit⟩
  · rintro ⟨⟨tokens, rotated, ⟨reply, hreply, hparse⟩, hrotated, hupdate⟩, hcommit⟩
    obtain ⟨_, _, _, _, haccess, hrefresh, hexpires, hrefreshes, -⟩ :=
      rotatedRow_ok_iff.mp hrotated
    exact ⟨⟨reply, tokens, hreply, hparse, ⟨_, haccess⟩, ⟨_, hrefresh⟩, ⟨_, hexpires⟩,
      ⟨_, hrefreshes⟩⟩, hupdate, hcommit⟩

/-- The `UPDATE` stores the refresh token of the reply: encrypted with the key of
the runner, it is decrypted by the next call to the same text. -/
theorem storedRefresh_rotated (hA : A.Lawful) {row rotated : CompanyRow} {tokens : TokenSet}
    {now : Int64} {accessIv refreshIv : Option Nonce}
    (h : b.rotatedRow row tokens now accessIv refreshIv = some (.ok rotated)) :
    b.storedRefresh (some rotated) = some tokens.refreshToken := by
  obtain ⟨_, _, _, _, -, hrefresh, -, -, rfl⟩ := rotatedRow_ok_iff.mp h
  exact decrypt_encrypt hA hrefresh

/-- A call that posts nothing changes nothing, here or at Intuit, however it ends. -/
theorem tryAccess_not_posts {row : Option CompanyRow} {s : Script parse}
    (h : ¬ b.Posts row s) :
    (b.tryAccess row s).row = row ∧ (b.tryAccess row s).issued = none := by
  rcases tryAccess_cases b row s with ⟨e, hcall, -⟩ |
    ⟨r, realmId, request, hbegin, hselect, hplan, -⟩
  · rw [hcall]
    exact ⟨rfl, rfl⟩
  · exact absurd ⟨hbegin, hselect, r, realmId, request, hplan⟩ h

theorem tryAccess_posts {row : Option CompanyRow} {s : Script parse} {r : CompanyRow}
    {realmId : String} {request : TokenRequest} (hbegin : s.beginTx = .done)
    (hselect : s.select = .done)
    (hplan : b.plan row (unixNow s.clock) = .refresh r realmId request) :
    b.tryAccess row s = ⟨(b.storeGrant r realmId s).1, some (b.storeGrant r realmId s).2,
      s.post.rotated⟩ := by
  simp only [tryAccess, hbegin, hselect, hplan]

/-- An unchanged row is up to date exactly when Intuit did not rotate. -/
theorem unrotated_iff {before : String} {s : Script parse} :
    some before = some ((s.post.rotated.map (·.refreshToken)).getD before) ↔
      ¬ s.Rotates before := by
  unfold Script.Rotates
  cases s.post.rotated with
  | none => simp
  | some pair => simp [eq_comm]

/-- **Exactly when the row keeps up with Intuit.** If the row holds the newest
refresh token before a call, it holds the newest after the call, however that ended,
exactly when a rotation by Intuit is recorded. What can come between the two are the
failures after the reply and a future that is dropped. -/
theorem holds_newest_iff (hA : A.Lawful) {row : Option CompanyRow} {before : String}
    (hbefore : b.storedRefresh row = some before) (s : Script parse) :
    b.storedRefresh (b.tryAccess row s).row = some ((b.tryAccess row s).newest before) ↔
      (b.Posts row s → s.Rotates before → b.Records s) := by
  by_cases hposts : b.Posts row s
  · obtain ⟨hbegin, hselect, r, realmId, request, hplan⟩ := id hposts
    obtain ⟨c, left, hrow, -⟩ := plan_refresh_inv hplan
    subst hrow
    rw [tryAccess_posts hbegin hselect hplan]
    simp only [Called.newest, hposts, true_imp_iff]
    by_cases hupdated : ∃ tokens rotated, b.Updated r s tokens rotated
    · obtain ⟨tokens, rotated, hu⟩ := id hupdated
      obtain ⟨reply, hreply, hparse⟩ := hu.reply
      rw [storeGrant_updated hu]
      by_cases hcommit : s.commit.applied = true
      · -- committed: the row has the pair of the reply, which is what Intuit issued
        rw [if_pos hcommit, storedRefresh_rotated hA hu.rotated,
          s.post.honest reply tokens hreply hparse]
        exact iff_of_true rfl fun _ => (records_iff r).mpr ⟨hupdated, hcommit⟩
      · rw [if_neg hcommit, hbefore, unrotated_iff]
        exact imp_congr_right fun _ => iff_of_false id fun h => hcommit h.commit
    · rw [(storeGrant_not_updated hupdated realmId).1, hbefore, unrotated_iff]
      exact imp_congr_right fun _ =>
        iff_of_false id fun h => hupdated ((records_iff r).mp h).1
  · obtain ⟨hrow, hissued⟩ := tryAccess_not_posts hposts
    rw [hrow, Called.newest, hissued, hbefore]
    exact iff_of_true rfl fun h => absurd h hposts

theorem storedRefresh_sample (validFor : UInt64) (accessExpires : Int64) :
    (sampleBroker validFor).storedRefresh (some (sampleRow accessExpires)) = some "refresh-1" := by
  simp only [storedRefresh, sampleRow, Option.bind_some]
  exact decrypt_sample "refresh-1"

/-- A call whose `COMMIT` took effect, though its answer was lost. -/
def lostAnswerScript : Script sampleParse :=
  { sampleScript with commit := .failed true }

theorem lost_answer_keeps_newest :
    (sampleBroker 2100).storedRefresh
        ((sampleBroker 2100).tryAccess (some (sampleRow 0)) lostAnswerScript).row =
      some (((sampleBroker 2100).tryAccess (some (sampleRow 0)) lostAnswerScript).newest
        "refresh-1") ↔
      ((sampleBroker 2100).Posts (some (sampleRow 0)) lostAnswerScript →
        lostAnswerScript.Rotates "refresh-1" → (sampleBroker 2100).Records lostAnswerScript) :=
  holds_newest_iff sampleCrypto_lawful (storedRefresh_sample 2100 0) lostAnswerScript

/-- The job is cancelled by a shutdown after Intuit rotated, before the reply arrived. -/
def cancelledScript : Script sampleParse where
  beginTx := .done
  select := .done
  clock := some 1000
  post :=
    { rotated := some sampleTokens.toTokenPair
      reply := none
      honest := by
        intro reply tokens hreply
        cases hreply }
  clockAfter := some 1001
  accessIv := some sampleNonce
  refreshIv := some sampleNonce
  update := .done
  commit := .done

/-- The row keeps `refresh-1`, which Intuit no longer accepts. -/
theorem cancelled_call_loses_grant :
    (sampleBroker 2100).storedRefresh (some (sampleRow 0)) = some "refresh-1" ∧
      ((sampleBroker 2100).tryAccess (some (sampleRow 0)) cancelledScript).ending = .dropped ∧
      (sampleBroker 2100).storedRefresh
        ((sampleBroker 2100).tryAccess (some (sampleRow 0)) cancelledScript).row =
          some "refresh-1" ∧
      ((sampleBroker 2100).tryAccess (some (sampleRow 0)) cancelledScript).newest
        "refresh-1" = "refresh-2" := by
  have hbefore := storedRefresh_sample 2100 0
  have hplan : (sampleBroker 2100).plan (some (sampleRow 0)) (unixNow cancelledScript.clock) =
      _ := sampleBroker_plan (by decide)
  rw [tryAccess_posts rfl rfl hplan]
  exact ⟨hbefore, rfl, hbefore, rfl⟩

end Broker

end JobRunner
