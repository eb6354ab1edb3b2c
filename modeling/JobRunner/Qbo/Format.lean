import JobRunner.Qbo.Clock
import JobRunner.Qbo.RefreshSafety

/-!
# The format of stored values (`decrypt` / `encrypt`)

A stored value is the base64 text of `iv(12) | tag(16) | ciphertext`. `encrypt` writes it,
`decrypt` reads it, with whitespace around it or without.

- `Broker.rotated_connection`: how a later call sees a row that was written back.
- `Broker.stored_after_refresh`: the token on the stored path is the one handed out.
- `stored_format`: the two directions, and the token.
-/

open Text Machine

namespace JobRunner

variable {A : Crypto} {key : A.Key}

/-! ## After a refresh -/

namespace Broker

variable {parse : String → Except String TokenSet} {b b' : Broker A}

/-- The realm id of a connection is the row's. -/
theorem connection_realmId {r : CompanyRow} {c : Connection} (hc : r.connection = some c) :
    c.realmId = (r.realmId.map trim).getD "" := by
  rw [CompanyRow.connection] at hc
  split at hc
  · split at hc
    · cases hc
    · cases hc
      rfl
  · cases hc

/-- A written-back row, as a later call sees it: the stored token is the granted
one, and the realm id is what it was. -/
theorem rotated_connection (hA : A.Lawful) {r rotated : CompanyRow} {c : Connection}
    {s : Script parse} {tokens : TokenSet} (henabled : r.enabled = true)
    (hc : r.connection = some c) (hupdated : b.Updated r s tokens rotated) :
    rotated.enabled = true ∧ ∃ c', rotated.connection = some c' ∧ c'.realmId = c.realmId ∧
      decrypt A b.key c'.accessBlob = some tokens.accessToken := by
  obtain ⟨accessToken, refreshToken, accessExpires, refreshExpires, henc, -, -, -, rfl⟩ :=
    rotatedRow_ok_iff.mp hupdated.rotated
  have husable := (Connections.connection_usable henabled hc).1
  exact ⟨henabled, _, Connections.withTokens_connection husable accessToken refreshToken
    accessExpires refreshExpires, (connection_realmId hc).symm, decrypt_encrypt hA henc⟩

/-- A plan to hand out the stored token, or to fail on it, is the stored decision. -/
theorem stored_of_decided {r : CompanyRow} {c : Connection} (henabled : r.enabled = true)
    (hc : r.connection = some c) {now : Int64}
    (h : decided (b.plan (some r) now) = some .stored) :
    b.plan (some r) now = b.carryOut r c (some .stored) := by
  rw [b.plan_eq_carryOut henabled hc, b.decided_carryOut r c] at h
  rw [b.plan_eq_carryOut henabled hc, h]

/-- **After a refresh that handed out a token**, the stored path hands out that token and
nothing else, and never fails to read it. -/
theorem stored_after_refresh (hA : A.Lawful) (hkey : b'.key = b.key) {row : Option CompanyRow}
    {s : Script parse} {r : CompanyRow} {realmId plannedId token apiBase : String}
    {request : TokenRequest}
    (hplan : b.plan row (unixNow s.clock) = .refresh r plannedId request)
    (hreturned : (b.tryAccess row s).ending = .returned (.ok (.connected realmId token apiBase)))
    (now : Int64) :
    (∀ access, b'.plan (b.tryAccess row s).row now = .reuse access →
      access = b'.connected realmId token) ∧
    b'.plan (b.tryAccess row s).row now ≠ .answer (.error (.decrypt "access token")) := by
  -- the call planned a refresh, so what it returned was granted and written back
  obtain ⟨r', realmId', request', tokens, rotated, hplan', hupdated, hconnected, hrow⟩ :=
    ((tryAccess_granted hreturned).resolve_left (by simp [hplan])).resolve_left (by simp [hplan])
  cases hconnected
  obtain ⟨c, -, rfl, henabled, hc, rfl, -⟩ := plan_refresh_inv hplan'
  obtain ⟨hrotated, c', hc', hrealm, hdec⟩ := rotated_connection hA henabled hc hupdated
  have hstored : ∀ {plan}, b'.plan (some rotated) now = plan → decided plan = some .stored →
      plan = .reuse (b'.connected c.realmId tokens.accessToken) := by
    rintro plan rfl hdecided
    rw [stored_of_decided hrotated hc' hdecided, carryOut, hkey, hdec, hrealm]
  rw [hrow]
  constructor
  · intro access haccess
    cases hstored haccess rfl
    rfl
  · intro hfailed
    cases hstored hfailed rfl

end Broker

/-- **The stored format.** What `encrypt` writes is the base64 text of nonce, tag and
ciphertext, and is read with any whitespace around it; `decrypt` reads nothing but this
format; and the stored token after a refresh is the one the refresh handed out. -/
theorem stored_format (hA : A.Lawful) (key : A.Key) :
    (∀ (iv : Option Nonce) (text stored : String), encrypt A key iv text = .ok stored →
      (∃ (nonce : Nonce) (tag ciphertext : List UInt8), iv = some nonce ∧ tag.length = 16 ∧
        A.sealInPlaceSeparateTag key nonce.toList (utf8 text) = some (ciphertext, tag) ∧
        stored = String.ofList (A.encode (nonce.toList ++ tag ++ ciphertext))) ∧
      ∀ w₁ w₂, Blank w₁ → Blank w₂ → decrypt A key (utf8 (w₁ ++ stored ++ w₂)) = some text) ∧
    (∀ (bytes : List UInt8) (text : String),
      decrypt A key bytes = some text ↔ StoredAs A key bytes text) ∧
    ∀ (parse : String → Except String TokenSet) (b b' : Broker A) (row : Option CompanyRow)
      (s : Script parse) (r : CompanyRow) (realmId plannedId token apiBase : String)
      (request : TokenRequest), b.key = key → b'.key = key →
      b.plan row (unixNow s.clock) = .refresh r plannedId request →
      (b.tryAccess row s).ending = .returned (.ok (.connected realmId token apiBase)) →
      ∀ now, (∀ access, b'.plan (b.tryAccess row s).row now = .reuse access →
          access = b'.connected realmId token) ∧
        b'.plan (b.tryAccess row s).row now ≠ .answer (.error (.decrypt "access token")) := by
  refine ⟨fun iv text stored h => ⟨?_, fun w₁ w₂ h₁ h₂ => ?_⟩, fun _ _ => decrypt_eq_some_iff, ?_⟩
  · obtain ⟨nonce, ciphertext, tag, hiv, hseal, hstored⟩ := encrypt_ok h
    exact ⟨nonce, tag, ciphertext, hiv, hA.aead.tag_length hseal, hseal, hstored⟩
  · rw [decrypt_around h₁ h₂, decrypt_encrypt hA h]
  · intro parse b b' row s r realmId plannedId token apiBase request hb hb' hplan hreturned
    exact Broker.stored_after_refresh hA (hb'.trans hb.symm) hplan hreturned

/-- The token of the sample refresh is read back from the row, at any later clock. -/
theorem sample_stored_format :
    decrypt sampleCrypto sampleKey (utf8 ("\n " ++ sampleStored "" ++ " ")) = some "" ∧
      ∀ now access, (sampleBroker 600).plan
          ((sampleBroker 600).tryAccess (some (sampleRow 0)) sampleScript).row now =
            .reuse access →
        access = (sampleBroker 600).connected "9130" "access-2" := by
  have hleft : Blank "\n " := List.all_eq_true.mp (by decide +kernel)
  have hright : Blank " " := List.all_eq_true.mp (by decide +kernel)
  have hneeded : ¬ saturate 600 ≤ -1000 := by decide
  obtain ⟨hwritten, -, hstored⟩ := stored_format sampleCrypto_lawful sampleKey
  constructor
  · exact (hwritten _ _ _ (encrypt_sample "")).2 _ _ hleft hright
  · intro now
    exact (hstored sampleParse (sampleBroker 600) (sampleBroker 600) (some (sampleRow 0))
      sampleScript _ _ _ _ _ _ rfl rfl (sampleBroker_plan hneeded)
      (tryAccess_sample hneeded) now).1

end JobRunner
