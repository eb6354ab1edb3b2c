import JobRunner.Lib.MachineInt
import JobRunner.Qbo.Crypto

/-!
# The QuickBooks broker (`QboBroker::try_access`)

`try_access` locks the company's row, decides from it and the clock what to do,
and where the stored access token would not outlive the job, asks Intuit for a
new pair and writes it back. The model separates the decision, which is pure,
from the awaits around it.

- `Broker.plan`: everything between the `SELECT … FOR UPDATE` and the next await.
- `refresh`: what the code makes of Intuit's reply.
- `Broker.rotatedRow`: the row the `UPDATE` writes.
- `Broker.tryAccess`: the whole call, with the fate of every await as input.
- `plan_refresh_inv`, `plan_reuse_inv`: what the two interesting plans rest on.
- `tryAccess_cases`, `tryAccess_granted`: what a call does, and where its access comes from.
-/

open Text Machine

namespace JobRunner

/-- `QboEnvironment`. -/
inductive QboEnvironment where
  | sandbox
  | production
deriving DecidableEq, Repr

/-- `QboEnvironment::api_base`. -/
def QboEnvironment.apiBase : QboEnvironment → String
  | .sandbox => "https://sandbox-quickbooks.api.intuit.com"
  | .production => "https://quickbooks.api.intuit.com"

/-- `QboJobAccess`. -/
inductive QboJobAccess where
  | connected (realmId accessToken apiBase : String)
  | unavailable (reason : String)
deriving DecidableEq, Repr

/-- `CompanyRow`: the `company` columns the broker reads. -/
structure CompanyRow where
  enabled : Bool
  realmId : Option String
  accessToken : Option (List UInt8)
  refreshToken : Option (List UInt8)
  accessExpires : Option Int64
  refreshExpires : Option Int64
  clientId : Option (List UInt8)
  clientSecret : Option (List UInt8)
deriving DecidableEq

/-- An access token and the refresh token issued with it. -/
structure TokenPair where
  accessToken : String
  refreshToken : String
deriving DecidableEq, Repr

/-- `TokenSet`: Intuit's token response. -/
structure TokenSet extends TokenPair where
  expiresIn : Int64
  xRefreshTokenExpiresIn : Int64
deriving DecidableEq

/-- `Inner`, without the connection pool and the HTTP client. `overflow` is how the
runner was built. -/
structure Broker (A : Crypto) where
  key : A.Key
  appCredentials : Option (String × String)
  environment : QboEnvironment
  /-- `valid_for.as_secs()`. -/
  validFor : UInt64
  overflow : Overflow

/-- `main`: `config.claude.timeout + Duration::from_mins(5)`, in seconds; `none` is
the panic of a duration that overflows. -/
def validForTimeout (timeoutSecs : UInt64) : Option UInt64 :=
  if timeoutSecs.toNat + 300 < 18446744073709551616 then some (timeoutSecs + 300) else none

/-- `unix_now`; the argument is `SystemTime::now().duration_since(UNIX_EPOCH)` in
seconds, `none` before the epoch. -/
def unixNow : Option UInt64 → Int64
  | none => 0
  | some secs => saturate secs

theorem unixNow_nonneg (clock : Option UInt64) : 0 ≤ (unixNow clock).toInt := by
  cases clock with
  | none => decide
  | some secs =>
    show 0 ≤ (saturate secs).toInt
    rw [saturate_toInt]
    omega

def notConnected : QboJobAccess :=
  .unavailable "QuickBooks is not connected for this company."

def turnedOff : QboJobAccess := .unavailable "QuickBooks is turned off for this company."

def expired : QboJobAccess :=
  .unavailable "The QuickBooks connection has expired; an admin needs to reconnect QuickBooks."

/-- What `try_access` needs of a connected row. -/
structure Connection where
  realmId : String
  accessBlob : List UInt8
  refreshBlob : List UInt8
  accessExpires : Int64
  refreshExpires : Int64

/-- The trimmed realm id, the two tokens and their expiries, if none is missing. -/
def CompanyRow.connection (row : CompanyRow) : Option Connection :=
  let realmId := (row.realmId.map trim).getD ""
  match row.accessToken, row.refreshToken, row.accessExpires, row.refreshExpires with
  | some accessBlob, some refreshBlob, some accessExpires, some refreshExpires =>
    if realmId = "" then none
    else some ⟨realmId, accessBlob, refreshBlob, accessExpires, refreshExpires⟩
  | _, _, _, _ => none

/-- The request that spends a refresh token. -/
structure TokenRequest where
  clientId : String
  clientSecret : String
  refreshToken : String
deriving DecidableEq, Repr

/-- What `try_access` does after reading the row. -/
inductive Plan where
  /-- Return at once; the transaction is rolled back. -/
  | answer (result : Except QboError QboJobAccess)
  /-- Commit the empty transaction and hand out the stored token. -/
  | reuse (access : QboJobAccess)
  /-- Post the request, keeping `row` locked. -/
  | refresh (row : CompanyRow) (realmId : String) (request : TokenRequest)
  | panic

/-- `MIN_CREDENTIAL_LEN`. -/
def minCredentialLen : Nat := 10

variable {A : Crypto}

namespace Broker

variable (b : Broker A)

def needed : Int64 := saturate b.validFor

def connected (realmId accessToken : String) : QboJobAccess :=
  .connected realmId accessToken b.environment.apiBase

/-- `own` of `client_credentials`. -/
def ownCredential (blob : Option (List UInt8)) : Option String :=
  ((blob.bind (decrypt A b.key)).map trim).filter fun value =>
    minCredentialLen ≤ value.utf8ByteSize

/-- `QboBroker::client_credentials`. -/
def clientCredentials (row : CompanyRow) : Except QboError (String × String) :=
  match b.ownCredential row.clientId, b.ownCredential row.clientSecret with
  | some id, some secret => .ok (id, secret)
  | _, _ =>
    match b.appCredentials with
    | some credentials => .ok credentials
    | none => .error (.config
        "no QuickBooks app credentials: set QBO_CLIENT_ID and QBO_CLIENT_SECRET")

/-- The part of `try_access` that spends the refresh token, up to the request. -/
def planRefresh (row : CompanyRow) (c : Connection) (now : Int64) : Plan :=
  match add b.overflow now 60 with
  | none => .panic
  | some soon =>
    -- a refresh token with less than a minute left is not tried
    if c.refreshExpires ≤ soon then .answer (.ok expired)
    else
      match decrypt A b.key c.refreshBlob with
      | none => .answer (.error (.decrypt "refresh token"))
      | some refreshToken =>
        match b.clientCredentials row with
        | .error err => .answer (.error err)
        | .ok (clientId, clientSecret) =>
          .refresh row c.realmId ⟨clientId, clientSecret, refreshToken⟩

/-- The part of `try_access` between the `SELECT` and its next await. -/
def plan (row : Option CompanyRow) (now : Int64) : Plan :=
  match row with
  | none => .answer (.ok notConnected)
  | some row =>
    if row.enabled = false then .answer (.ok turnedOff)
    else
      match row.connection with
      | none => .answer (.ok notConnected)
      | some c =>
        match sub b.overflow c.accessExpires now with
        | none => .panic
        | some left =>
          -- the stored token covers the job, as far as `i64` can tell
          if b.needed ≤ left then
            match decrypt A b.key c.accessBlob with
            | none => .answer (.error (.decrypt "access token"))
            | some token => .reuse (b.connected c.realmId token)
          else b.planRefresh row c now

theorem clientCredentials_error {b : Broker A} {row : CompanyRow} {err : QboError}
    (h : b.clientCredentials row = .error err) : ∃ text, err = .config text := by
  rw [clientCredentials] at h
  split at h
  · cases h
  · split at h
    · cases h
    · cases h
      exact ⟨_, rfl⟩

/-! ### What a plan rests on -/

section Plan

variable {b : Broker A} {row : Option CompanyRow} {now : Int64}

theorem planRefresh_ne_reuse (r : CompanyRow) (c : Connection) (now : Int64)
    (access : QboJobAccess) : b.planRefresh r c now ≠ .reuse access := by
  unfold planRefresh
  split
  · simp
  split
  · simp
  split
  · simp
  split <;> simp

theorem planRefresh_refresh_inv {r r' : CompanyRow} {c : Connection} {realmId : String}
    {request : TokenRequest} (h : b.planRefresh r c now = .refresh r' realmId request) :
    r' = r ∧ realmId = c.realmId ∧
      decrypt A b.key c.refreshBlob = some request.refreshToken := by
  unfold planRefresh at h
  split at h
  · cases h
  split at h
  · cases h
  split at h
  · cases h
  next hdec =>
  split at h
  · cases h
  · cases h
    exact ⟨rfl, rfl, hdec⟩

theorem planRefresh_answer_inv {r : CompanyRow} {c : Connection} {access : QboJobAccess}
    (h : b.planRefresh r c now = .answer (.ok access)) : access = expired := by
  unfold planRefresh at h
  split at h
  · cases h
  split at h
  · cases h
    rfl
  split at h
  · cases h
  split at h <;> cases h

/-- Past the checks of the row, everything hangs on how long the stored token lives. -/
theorem plan_of_connection {r : CompanyRow} {c : Connection} (henabled : r.enabled = true)
    (hc : r.connection = some c) :
    b.plan (some r) now =
      match sub b.overflow c.accessExpires now with
      | none => .panic
      | some left =>
        if b.needed ≤ left then
          match decrypt A b.key c.accessBlob with
          | none => .answer (.error (.decrypt "access token"))
          | some token => .reuse (b.connected c.realmId token)
        else b.planRefresh r c now := by
  simp only [plan, henabled, hc]
  rfl

/-- The one way to a refresh. -/
theorem plan_refresh {r : CompanyRow} {c : Connection} {left soon : Int64}
    {refreshToken clientId clientSecret : String} (henabled : r.enabled = true)
    (hc : r.connection = some c) (hsub : sub b.overflow c.accessExpires now = some left)
    (hleft : ¬ b.needed ≤ left) (hadd : add b.overflow now 60 = some soon)
    (hexpires : ¬ c.refreshExpires ≤ soon)
    (hdec : decrypt A b.key c.refreshBlob = some refreshToken)
    (hcredentials : b.clientCredentials r = .ok (clientId, clientSecret)) :
    b.plan (some r) now = .refresh r c.realmId ⟨clientId, clientSecret, refreshToken⟩ := by
  simp only [plan_of_connection henabled hc, hsub, if_neg hleft, planRefresh, hadd,
    if_neg hexpires, hdec, hcredentials]

/-- The one way to the stored token. -/
theorem plan_reuse {r : CompanyRow} {c : Connection} {left : Int64} {token : String}
    (henabled : r.enabled = true) (hc : r.connection = some c)
    (hsub : sub b.overflow c.accessExpires now = some left) (hleft : b.needed ≤ left)
    (hdec : decrypt A b.key c.accessBlob = some token) :
    b.plan (some r) now = .reuse (b.connected c.realmId token) := by
  simp only [plan_of_connection henabled hc, hsub, if_pos hleft, hdec]

/-- The plan is an answer that hands out no token, or the row is usable. The checks
before this are about the row alone, and look at no token. -/
theorem plan_cases (b : Broker A) (row : Option CompanyRow) (now : Int64) :
    b.plan row now = .answer (.ok notConnected) ∨ b.plan row now = .answer (.ok turnedOff) ∨
      ∃ r c, row = some r ∧ r.enabled = true ∧ r.connection = some c := by
  rcases row with _ | r
  · exact .inl rfl
  rcases henabled : r.enabled with _ | _
  · refine .inr (.inl ?_)
    simp [plan, henabled]
  rcases hc : r.connection with _ | c
  · refine .inl ?_
    simp [plan, henabled, hc]
  · exact .inr (.inr ⟨r, c, rfl, henabled, hc⟩)

/-- An answer at once hands out no token. -/
theorem plan_answer_inv {access : QboJobAccess} (h : b.plan row now = .answer (.ok access)) :
    ∃ reason, access = .unavailable reason := by
  rcases plan_cases b row now with hp | hp | ⟨r, c, rfl, henabled, hc⟩
  · rw [hp] at h
    cases h
    exact ⟨_, rfl⟩
  · rw [hp] at h
    cases h
    exact ⟨_, rfl⟩
  rw [plan_of_connection henabled hc] at h
  split at h
  · cases h
  split at h
  · split at h <;> cases h
  · rw [planRefresh_answer_inv h]
    exact ⟨_, rfl⟩

/-- A reused token is the one in the row, and the code's difference covers the job.
Everything that reuses a token goes through this. -/
theorem plan_reuse_inv {access : QboJobAccess} (h : b.plan row now = .reuse access) :
    ∃ r c left token, row = some r ∧ r.enabled = true ∧ r.connection = some c ∧
      sub b.overflow c.accessExpires now = some left ∧ b.needed ≤ left ∧
      decrypt A b.key c.accessBlob = some token ∧ access = b.connected c.realmId token := by
  rcases plan_cases b row now with hp | hp | ⟨r, c, rfl, henabled, hc⟩
  · rw [hp] at h
    cases h
  · rw [hp] at h
    cases h
  rw [plan_of_connection henabled hc] at h
  rcases hsub : sub b.overflow c.accessExpires now with _ | left
  · rw [hsub] at h
    cases h
  simp only [hsub] at h
  by_cases hleft : b.needed ≤ left
  · rw [if_pos hleft] at h
    rcases hdec : decrypt A b.key c.accessBlob with _ | token
    · rw [hdec] at h
      cases h
    · rw [hdec] at h
      cases h
      exact ⟨r, c, left, token, rfl, henabled, hc, hsub, hleft, hdec, rfl⟩
  · rw [if_neg hleft] at h
    exact absurd h (planRefresh_ne_reuse r c now access)

/-- A posted refresh token is the one in the row, and the code's difference does not
cover the job. It is decrypted before the request, so a row that cannot be read
costs no token. -/
theorem plan_refresh_inv {r : CompanyRow} {realmId : String} {request : TokenRequest}
    (h : b.plan row now = .refresh r realmId request) :
    ∃ c left, row = some r ∧ r.enabled = true ∧ r.connection = some c ∧ realmId = c.realmId ∧
      sub b.overflow c.accessExpires now = some left ∧ ¬ b.needed ≤ left ∧
      decrypt A b.key c.refreshBlob = some request.refreshToken := by
  rcases plan_cases b row now with hp | hp | ⟨r', c, rfl, henabled, hc⟩
  · rw [hp] at h
    cases h
  · rw [hp] at h
    cases h
  rw [plan_of_connection henabled hc] at h
  rcases hsub : sub b.overflow c.accessExpires now with _ | left
  · rw [hsub] at h
    cases h
  simp only [hsub] at h
  by_cases hleft : b.needed ≤ left
  · rw [if_pos hleft] at h
    rcases hdec : decrypt A b.key c.accessBlob with _ | token
    · rw [hdec] at h
      cases h
    · rw [hdec] at h
      cases h
  · rw [if_neg hleft] at h
    obtain ⟨rfl, rfl, hdec⟩ := planRefresh_refresh_inv h
    exact ⟨c, left, rfl, henabled, hc, rfl, hsub, hleft, hdec⟩

end Plan

end Broker

/-! ## Intuit's reply -/

/-- An HTTP response; `statusText` is how `StatusCode` is displayed. -/
structure Response where
  status : Nat
  statusText : String
  body : String

/-- What `send` and `text` gave: an error of the transport or a response. -/
inductive Reply where
  | failed (err : String)
  | response (response : Response)

/-- `QboBroker::refresh` after the request went out. `parse` is
`serde_json::from_str` at `TokenSet`. -/
def refresh (parse : String → Except String TokenSet) : Reply → Except QboError TokenSet
  | .failed err => .error (.http ("QuickBooks token refresh: " ++ err))
  | .response r =>
    if 200 ≤ r.status ∧ r.status < 300 then
      -- a `200` may still carry no token set
      match parse r.body with
      | .ok tokens => .ok tokens
      | .error err => .error (.http ("QuickBooks token refresh: bad response: " ++ err))
    else
      .error (.http ("QuickBooks token refresh: HTTP " ++ r.statusText ++ ": " ++
        String.ofList (r.body.toList.take 300)))

/-! ## The write-back -/

/-- The four columns of the `UPDATE`. -/
def CompanyRow.withTokens (row : CompanyRow) (accessToken refreshToken : String)
    (accessExpires refreshExpires : Int64) : CompanyRow :=
  { row with
    accessToken := some (utf8 accessToken)
    refreshToken := some (utf8 refreshToken)
    accessExpires := some accessExpires
    refreshExpires := some refreshExpires }

/-- The row after the `UPDATE`, with the values bound in the code's order; `none` is a
panic of one of the two additions. -/
def Broker.rotatedRow (b : Broker A) (row : CompanyRow) (tokens : TokenSet) (now : Int64)
    (accessIv refreshIv : Option Nonce) : Option (Except QboError CompanyRow) :=
  match encrypt A b.key accessIv tokens.accessToken with
  | .error err => some (.error err)
  | .ok accessToken =>
    match encrypt A b.key refreshIv tokens.refreshToken with
    | .error err => some (.error err)
    | .ok refreshToken =>
      match add b.overflow now tokens.expiresIn,
        add b.overflow now tokens.xRefreshTokenExpiresIn with
      | some accessExpires, some refreshExpires =>
        some (.ok (row.withTokens accessToken refreshToken accessExpires refreshExpires))
      | _, _ => none

/-- The write-back fails on the nonces, the cipher or the sums, and on nothing else. -/
theorem Broker.rotatedRow_ok_iff {b : Broker A} {row rotated : CompanyRow} {tokens : TokenSet}
    {now : Int64} {accessIv refreshIv : Option Nonce} :
    b.rotatedRow row tokens now accessIv refreshIv = some (.ok rotated) ↔
      ∃ accessToken refreshToken accessExpires refreshExpires,
        encrypt A b.key accessIv tokens.accessToken = .ok accessToken ∧
        encrypt A b.key refreshIv tokens.refreshToken = .ok refreshToken ∧
        add b.overflow now tokens.expiresIn = some accessExpires ∧
        add b.overflow now tokens.xRefreshTokenExpiresIn = some refreshExpires ∧
        rotated = row.withTokens accessToken refreshToken accessExpires refreshExpires := by
  constructor
  · intro h
    unfold rotatedRow at h
    split at h
    · cases h
    next accessToken haccess =>
    split at h
    · cases h
    next refreshToken hrefresh =>
    split at h
    · next accessExpires refreshExpires hexpires hrefreshes =>
      cases h
      exact ⟨_, _, _, _, haccess, hrefresh, hexpires, hrefreshes, rfl⟩
    · cases h
  · rintro ⟨accessToken, refreshToken, accessExpires, refreshExpires, haccess, hrefresh,
      hexpires, hrefreshes, rfl⟩
    simp only [rotatedRow, haccess, hrefresh, hexpires, hrefreshes]

/-! ## The whole call -/

/-- The fate of an await on the database: it was answered, it failed, or the future was
dropped while it waited. -/
inductive Await where
  | done
  | failed
  | dropped
deriving DecidableEq

/-- The fate of `COMMIT`. An error or a drop leaves open whether it took effect. -/
inductive CommitFate where
  | done
  | failed (applied : Bool)
  | dropped (applied : Bool)
deriving DecidableEq

def CommitFate.applied : CommitFate → Bool
  | .done => true
  | .failed applied => applied
  | .dropped applied => applied

/-- The request to Intuit: the pair it issued, if it rotated the refresh token, and the
reply, if the future was still there to see it. A reply that parses is Intuit's. -/
structure Exchange (parse : String → Except String TokenSet) where
  rotated : Option TokenPair
  reply : Option Reply
  honest : ∀ r tokens, reply = some r → refresh parse r = .ok tokens →
    rotated = some tokens.toTokenPair

/-- What the world did during one call; where a call stops early the rest is unused.
`select` fails too when a column does not decode. -/
structure Script (parse : String → Except String TokenSet) where
  beginTx : Await
  select : Await
  clock : Option UInt64
  post : Exchange parse
  clockAfter : Option UInt64
  accessIv : Option Nonce
  refreshIv : Option Nonce
  update : Await
  commit : CommitFate

/-- How a call ends. -/
inductive Ending where
  | returned (result : Except QboError QboJobAccess)
  | dropped
  | panicked

/-- After `COMMIT`, `try_access` returns `access`. -/
def CommitFate.ending (access : QboJobAccess) : CommitFate → Ending
  | .done => .returned (.ok access)
  | .failed _ => .returned (.error .database)
  | .dropped _ => .dropped

theorem CommitFate.ending_inv {commit : CommitFate} {access : QboJobAccess} :
    (∀ access', commit.ending access = .returned (.ok access') →
      commit = .done ∧ access' = access) ∧ commit.ending access ≠ .panicked := by
  cases commit with
  | done => exact ⟨by rintro access' ⟨⟩; exact ⟨rfl, rfl⟩, nofun⟩
  | failed applied => exact ⟨nofun, nofun⟩
  | dropped applied => exact ⟨nofun, nofun⟩

/-- A finished call: its end, the committed row after it, and the pair Intuit issued
during it. -/
structure Called where
  ending : Ending
  row : Option CompanyRow
  issued : Option TokenPair

namespace Broker

variable {parse : String → Except String TokenSet} (b : Broker A)

/-- The part of `try_access` after the request went out. -/
def storeGrant (row : CompanyRow) (realmId : String) (s : Script parse) :
    Ending × CompanyRow :=
  match s.post.reply with
  | none => (.dropped, row)
  | some reply =>
    match refresh parse reply with
    | .error err => (.returned (.error err), row)
    | .ok tokens =>
      match b.rotatedRow row tokens (unixNow s.clockAfter) s.accessIv s.refreshIv with
      | none => (.panicked, row)
      | some (.error err) => (.returned (.error err), row)
      | some (.ok rotated) =>
        match s.update with
        | .failed => (.returned (.error .database), row)
        | .dropped => (.dropped, row)
        | .done => (s.commit.ending (b.connected realmId tokens.accessToken),
            if s.commit.applied then rotated else row)

/-- `QboBroker::try_access` on the latest committed row of the company. -/
def tryAccess (row : Option CompanyRow) (s : Script parse) : Called :=
  -- an early return drops the transaction, which rolls it back
  match s.beginTx with
  | .failed => ⟨.returned (.error .database), row, none⟩
  | .dropped => ⟨.dropped, row, none⟩
  | .done =>
    match s.select with
    | .failed => ⟨.returned (.error .database), row, none⟩
    | .dropped => ⟨.dropped, row, none⟩
    | .done =>
      match b.plan row (unixNow s.clock) with
      | .panic => ⟨.panicked, row, none⟩
      | .answer result => ⟨.returned result, row, none⟩
      | .reuse access => ⟨s.commit.ending access, row, none⟩
      | .refresh r realmId _ =>
        ⟨(b.storeGrant r realmId s).1, some (b.storeGrant r realmId s).2, s.post.rotated⟩

/-- The reply carried `tokens`, and the `UPDATE` to `rotated` was executed. -/
structure Updated (row : CompanyRow) (s : Script parse) (tokens : TokenSet)
    (rotated : CompanyRow) : Prop where
  reply : ∃ reply, s.post.reply = some reply ∧ refresh parse reply = .ok tokens
  rotated : b.rotatedRow row tokens (unixNow s.clockAfter) s.accessIv s.refreshIv =
    some (.ok rotated)
  update : s.update = .done

variable {b}

theorem storeGrant_updated {row rotated : CompanyRow} {s : Script parse} {tokens : TokenSet}
    (h : b.Updated row s tokens rotated) (realmId : String) :
    b.storeGrant row realmId s = (s.commit.ending (b.connected realmId tokens.accessToken),
      if s.commit.applied then rotated else row) := by
  obtain ⟨reply, hreply, hparse⟩ := h.reply
  simp only [storeGrant, hreply, hparse, h.rotated, h.update]

/-- Short of the `UPDATE` the row stays, and the call returns no access, whether the
reply was no grant or the new row could not be made. -/
theorem storeGrant_not_updated {row : CompanyRow} {s : Script parse}
    (h : ¬ ∃ tokens rotated, b.Updated row s tokens rotated) (realmId : String) :
    (b.storeGrant row realmId s).2 = row ∧
      ∀ access, (b.storeGrant row realmId s).1 ≠ .returned (.ok access) := by
  unfold storeGrant
  split
  · exact ⟨rfl, by simp⟩
  next reply hreply =>
  split
  · exact ⟨rfl, by simp⟩
  next tokens hparse =>
  split
  · exact ⟨rfl, by simp⟩
  · exact ⟨rfl, by simp⟩
  next rotated hrotated =>
  split
  · exact ⟨rfl, by simp⟩
  · exact ⟨rfl, by simp⟩
  next hupdate =>
    exact absurd ⟨tokens, rotated, ⟨reply, hreply, hparse⟩, hrotated, hupdate⟩ h

/-- What one call can do. Short of a request it leaves the row and Intuit alone, and the
access it returns or its panic is the plan's; otherwise the request goes out. -/
theorem tryAccess_cases (b : Broker A) (row : Option CompanyRow) (s : Script parse) :
    (∃ e, b.tryAccess row s = ⟨e, row, none⟩ ∧
      (∀ access, e = .returned (.ok access) →
        b.plan row (unixNow s.clock) = .answer (.ok access) ∨
          b.plan row (unixNow s.clock) = .reuse access) ∧
      (e = .panicked → b.plan row (unixNow s.clock) = .panic)) ∨
    ∃ r realmId request, s.beginTx = .done ∧ s.select = .done ∧
      b.plan row (unixNow s.clock) = .refresh r realmId request ∧
      b.tryAccess row s =
        ⟨(b.storeGrant r realmId s).1, some (b.storeGrant r realmId s).2, s.post.rotated⟩ := by
  rw [tryAccess]
  split
  · exact .inl ⟨_, rfl, nofun, nofun⟩
  · exact .inl ⟨_, rfl, nofun, nofun⟩
  next hbegin =>
  split
  · exact .inl ⟨_, rfl, nofun, nofun⟩
  · exact .inl ⟨_, rfl, nofun, nofun⟩
  next hselect =>
  split
  next hplan => exact .inl ⟨_, rfl, nofun, fun _ => hplan⟩
  next result hplan =>
    refine .inl ⟨_, rfl, fun access h => .inl ?_, nofun⟩
    cases h
    exact hplan
  next access hplan =>
    refine .inl ⟨_, rfl, fun access' h => .inr ?_, fun h => absurd h CommitFate.ending_inv.2⟩
    obtain ⟨-, rfl⟩ := CommitFate.ending_inv.1 access' h
    exact hplan
  -- only here does the call go on
  next r realmId request hplan =>
    exact .inr ⟨r, realmId, request, hbegin, hselect, hplan, rfl⟩

/-- A call that returns access after a request has written the grant back. -/
theorem storeGrant_granted {row : CompanyRow} {realmId : String} {s : Script parse}
    {access : QboJobAccess} (h : (b.storeGrant row realmId s).1 = .returned (.ok access)) :
    ∃ tokens rotated, b.Updated row s tokens rotated ∧
      access = b.connected realmId tokens.accessToken ∧
      (b.storeGrant row realmId s).2 = rotated := by
  by_cases hupdated : ∃ tokens rotated, b.Updated row s tokens rotated
  · obtain ⟨tokens, rotated, hu⟩ := hupdated
    rw [storeGrant_updated hu] at h ⊢
    obtain ⟨hcommit, haccess⟩ := CommitFate.ending_inv.1 access h
    refine ⟨tokens, rotated, hu, haccess, ?_⟩
    rw [hcommit]
    rfl
  · exact absurd h ((storeGrant_not_updated hupdated realmId).2 access)

/-- Access comes from the plan, or from a request whose grant was written back. -/
theorem tryAccess_granted {row : Option CompanyRow} {s : Script parse} {access : QboJobAccess}
    (h : (b.tryAccess row s).ending = .returned (.ok access)) :
    b.plan row (unixNow s.clock) = .answer (.ok access) ∨
      b.plan row (unixNow s.clock) = .reuse access ∨
      ∃ r realmId request tokens rotated,
        b.plan row (unixNow s.clock) = .refresh r realmId request ∧
        b.Updated r s tokens rotated ∧ access = b.connected realmId tokens.accessToken ∧
        (b.tryAccess row s).row = some rotated := by
  rcases tryAccess_cases b row s with ⟨e, hcall, haccess, -⟩ |
    ⟨r, realmId, request, -, -, hplan, hcall⟩
  · rw [hcall] at h
    exact (haccess access h).imp_right .inl
  · rw [hcall] at h ⊢
    obtain ⟨tokens, rotated, hupdated, hconnected, hrow⟩ := storeGrant_granted h
    exact .inr (.inr ⟨r, realmId, request, tokens, rotated, hplan, hupdated, hconnected,
      congrArg some hrow⟩)

/-- The two ways to hand out a token. -/
theorem tryAccess_connected {row : Option CompanyRow} {s : Script parse}
    {realmId token apiBase : String}
    (h : (b.tryAccess row s).ending = .returned (.ok (.connected realmId token apiBase))) :
    b.plan row (unixNow s.clock) = .reuse (.connected realmId token apiBase) ∨
      ∃ r request tokens rotated, b.plan row (unixNow s.clock) = .refresh r realmId request ∧
        b.Updated r s tokens rotated ∧ token = tokens.accessToken := by
  rcases tryAccess_granted h with hplan | hplan |
    ⟨r, realmId', request, tokens, rotated, hplan, hupdated, hconnected, -⟩
  · obtain ⟨reason, hreason⟩ := plan_answer_inv hplan
    cases hreason
  · exact .inl hplan
  · cases hconnected
    exact .inr ⟨r, request, tokens, rotated, hplan, hupdated, rfl⟩

/-- Access is always to the API of the runner's environment. -/
theorem tryAccess_apiBase {row : Option CompanyRow} {s : Script parse}
    {realmId token apiBase : String}
    (h : (b.tryAccess row s).ending = .returned (.ok (.connected realmId token apiBase))) :
    apiBase = b.environment.apiBase := by
  rcases tryAccess_granted h with hplan | hplan | ⟨_, _, _, _, _, -, -, hconnected, -⟩
  · obtain ⟨reason, hreason⟩ := plan_answer_inv hplan
    cases hreason
  · obtain ⟨-, c, -, token', -, -, -, -, -, -, hconnected⟩ := plan_reuse_inv hplan
    cases hconnected
    rfl
  · cases hconnected
    rfl

/-- `QboBroker::access`: errors become a reason. -/
def access : Except QboError QboJobAccess → QboJobAccess
  | .ok access => access
  | .error _ => .unavailable "QuickBooks could not be reached right now; try again later."

end Broker

/-! ## A connected company, for concrete runs -/

/-- Twelve equal bytes. -/
def sampleNonce : Nonce := Vector.replicate nonceLen 7

/-- The text `encrypt` gives for `text` under `sampleKey` and `sampleNonce`. -/
def sampleStored (text : String) : String :=
  String.ofList (Base64.encode (sampleNonce.toList ++
    List.replicate tagLen (5 : UInt8) ++ (utf8 text).map (· ^^^ 5)))

theorem encrypt_sample (text : String) :
    encrypt sampleCrypto sampleKey (some sampleNonce) text = .ok (sampleStored text) := rfl

theorem decrypt_sample (text : String) :
    decrypt sampleCrypto sampleKey (utf8 (sampleStored text)) = some text :=
  decrypt_encrypt sampleCrypto_lawful (encrypt_sample text)

/-- A row with the tokens `access-1` and `refresh-1`; the access token expires at
`accessExpires`. -/
def sampleRow (accessExpires : Int64) : CompanyRow where
  enabled := true
  realmId := some "9130"
  accessToken := some (utf8 (sampleStored "access-1"))
  refreshToken := some (utf8 (sampleStored "refresh-1"))
  accessExpires := some accessExpires
  refreshExpires := some 9000000
  clientId := none
  clientSecret := none

/-- A broker of a runner with the job timeout of `validFor` less five minutes. -/
def sampleBroker (validFor : UInt64) : Broker sampleCrypto where
  key := sampleKey
  appCredentials := some ("app-client-id", "app-client-secret")
  environment := .sandbox
  validFor := validFor
  overflow := .wraps

/-- Intuit's usual answer: an hour for the access token, a hundred days for the
refresh token. -/
def sampleTokens : TokenSet where
  accessToken := "access-2"
  refreshToken := "refresh-2"
  expiresIn := 3600
  xRefreshTokenExpiresIn := 8640000

/-- The body that carries `sampleTokens`. -/
def sampleBody : String :=
  "\x7b\"access_token\":\"access-2\",\"refresh_token\":\"refresh-2\",\"expires_in\":3600," ++
    "\"x_refresh_token_expires_in\":8640000\x7d"

def sampleParse (body : String) : Except String TokenSet :=
  if body = sampleBody then .ok sampleTokens else .error "expected value at line 1 column 1"

theorem sampleRow_connection (accessExpires : Int64) :
    (sampleRow accessExpires).connection =
      some ⟨"9130", utf8 (sampleStored "access-1"), utf8 (sampleStored "refresh-1"),
        accessExpires, 9000000⟩ := by
  have hrealm : trim "9130" = "9130" := by decide +kernel
  have hne : ¬ "9130" = "" := by decide
  simp only [CompanyRow.connection, sampleRow, Option.map_some, Option.getD_some, hrealm,
    if_neg hne]

/-- A thousand seconds after the token expired, it is refreshed. -/
theorem sampleBroker_plan {validFor : UInt64} (h : ¬ saturate validFor ≤ -1000) :
    (sampleBroker validFor).plan (some (sampleRow 0)) 1000 =
      .refresh (sampleRow 0) "9130" ⟨"app-client-id", "app-client-secret", "refresh-1"⟩ := by
  have hleft : sub (sampleBroker validFor).overflow 0 1000 = some (-1000) := rfl
  have hsoon : add (sampleBroker validFor).overflow 1000 60 = some 1060 := rfl
  have hexpires : ¬ (9000000 : Int64) ≤ 1060 := by decide
  exact Broker.plan_refresh rfl (sampleRow_connection 0) hleft h hsoon
    hexpires (decrypt_sample "refresh-1") rfl

theorem refresh_sampleBody :
    refresh sampleParse (.response ⟨200, "200 OK", sampleBody⟩) = .ok sampleTokens := by
  simp [refresh, sampleParse]

/-- Intuit rotates and answers with `sampleTokens`. -/
def sampleExchange : Exchange sampleParse where
  rotated := some sampleTokens.toTokenPair
  reply := some (.response ⟨200, "200 OK", sampleBody⟩)
  honest := by
    intro reply tokens hreply hparse
    cases hreply
    rw [refresh_sampleBody] at hparse
    cases hparse
    rfl

/-- A call at second 1000 in which nothing fails. -/
def sampleScript : Script sampleParse where
  beginTx := .done
  select := .done
  clock := some 1000
  post := sampleExchange
  clockAfter := some 1001
  accessIv := some sampleNonce
  refreshIv := some sampleNonce
  update := .done
  commit := .done

/-- `sampleRow` after the refresh. -/
def sampleRotated : CompanyRow :=
  (sampleRow 0).withTokens (sampleStored "access-2") (sampleStored "refresh-2") 4601 8641001

theorem sampleScript_updated (validFor : UInt64) :
    (sampleBroker validFor).Updated (sampleRow 0) sampleScript sampleTokens sampleRotated where
  reply := ⟨_, rfl, refresh_sampleBody⟩
  rotated := rfl
  update := rfl

theorem tryAccess_sample {validFor : UInt64} (h : ¬ saturate validFor ≤ -1000) :
    ((sampleBroker validFor).tryAccess (some (sampleRow 0)) sampleScript).ending =
      .returned (.ok (.connected "9130" "access-2"
        "https://sandbox-quickbooks.api.intuit.com")) := by
  have hplan := sampleBroker_plan h
  have hstore := Broker.storeGrant_updated (sampleScript_updated validFor) "9130"
  have hclock : unixNow sampleScript.clock = 1000 := rfl
  unfold Broker.tryAccess
  rw [hclock, hplan]
  show (Broker.storeGrant _ _ _ _).1 = _
  rw [hstore]
  rfl

end JobRunner
