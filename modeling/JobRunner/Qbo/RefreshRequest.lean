import JobRunner.Qbo.Rotation
import JobRunner.Qbo.TokenForm

/-!
# The request that spends a refresh token (`QboBroker::refresh`)

The credentials go into a header, the refresh token into a form. The form is read back on
the other side, so what Intuit issued comes back to it as it was, by way of the row. How the
header is written is the HTTP client's, and a parameter here.

- `TokenRequest.post`: the request.
- `readForm`: the way back.
- `plan_credentials`: whose credentials are sent.
- `next_refresh_reads_back`: the request after a rotation.
-/

open Text Machine

namespace JobRunner

/-- `TOKEN_URL`. -/
def tokenUrl : String := "https://oauth.platform.intuit.com/oauth2/v1/tokens/bearer"

/-- A `POST`. -/
structure HttpPost where
  url : String
  headers : List (String × String)
  body : String
deriving DecidableEq, Repr

/-- The request of `refresh`; `basicAuth` writes the header of a user and a password. -/
def TokenRequest.post (basicAuth : String → String → String) (request : TokenRequest) :
    HttpPost where
  url := tokenUrl
  headers := [("Authorization", basicAuth request.clientId request.clientSecret),
    ("Accept", "application/json"), ("Content-Type", "application/x-www-form-urlencoded")]
  body := tokenForm request.refreshToken

/-! ## Reading it back -/

/-- The fields of a form, in which a plus stands for a blank. -/
def readForm (body : String) : Option (List (String × String)) :=
  Percent.decodePairs (body.toList.map fun c => if c = '+' then ' ' else c)

/-- The encoder leaves no plus. -/
theorem plus_not_mem_encodeText (text : String) : '+' ∉ Percent.encodeText text := by
  have hall : ∀ byte, '+' ∉ Percent.symbols byte := Hex.forall_byte (by decide +kernel)
  intro hmem
  obtain ⟨byte, -, hsymbol⟩ := List.mem_flatMap.mp hmem
  exact hall byte hsymbol

/-- **A token is read back**, whatever it contains: the characters that mean
something in a form are written as bytes. -/
theorem readForm_tokenForm (refreshToken : String) :
    readForm (tokenForm refreshToken) =
      some [("grant_type", "refresh_token"), ("refresh_token", refreshToken)] := by
  have hplus : '+' ∉ (tokenForm refreshToken).toList := by
    have hfixed : '+' ∉ "grant_type=refresh_token&refresh_token=".toList := by decide +kernel
    show '+' ∉ ("grant_type=refresh_token&refresh_token=" ++ percentEncode refreshToken).toList
    rw [String.toList_append, toList_percentEncode, List.mem_append]
    rintro (hmem | hmem)
    · exact hfixed hmem
    · exact plus_not_mem_encodeText refreshToken hmem
  have hsame : ((tokenForm refreshToken).toList.map fun c => if c = '+' then ' ' else c) =
      (tokenForm refreshToken).toList := by
    refine (List.map_congr_left fun c hc => if_neg ?_).trans (List.map_id _)
    rintro rfl
    exact hplus hc
  rw [readForm, hsame, decodePairs_tokenForm]

namespace Broker

variable {A : Crypto} {b b' : Broker A} {row rotated r : CompanyRow} {now : Int64}
  {realmId : String} {request : TokenRequest}

/-! ## Whose credentials -/

/-- The credentials of a planned request are those of the row. -/
theorem plan_credentials (h : b.plan (some row) now = .refresh r realmId request) :
    b.clientCredentials row = .ok (request.clientId, request.clientSecret) := by
  obtain ⟨c, left, hrow, henabled, hc, -, hsub, hleft, -⟩ := plan_refresh_inv h
  cases hrow
  simp only [plan_of_connection henabled hc, hsub, if_neg hleft] at h
  unfold planRefresh at h
  split at h
  · cases h
  split at h
  · cases h
  split at h
  · cases h
  split at h
  · cases h
  next hcredentials =>
    cases h
    exact hcredentials

theorem connection_refreshToken {c : Connection} (h : row.connection = some c) :
    row.refreshToken = some c.refreshBlob := by
  rw [CompanyRow.connection] at h
  split at h
  next accessBlob refreshBlob accessExpires refreshExpires _ hrefresh _ _ =>
    split at h
    · cases h
    · cases h
      exact hrefresh
  · cases h

/-- A company's own app is used if both its credentials can be read and are long
enough; otherwise the application's own are, as far as they are configured. -/
theorem clientCredentials_ok_iff {id secret : String} :
    b.clientCredentials row = .ok (id, secret) ↔
      (b.ownCredential row.clientId = some id ∧ b.ownCredential row.clientSecret = some secret) ∨
      ((b.ownCredential row.clientId = none ∨ b.ownCredential row.clientSecret = none) ∧
        b.appCredentials = some (id, secret)) := by
  unfold clientCredentials
  rcases b.ownCredential row.clientId with _ | ownId <;>
    rcases b.ownCredential row.clientSecret with _ | ownSecret <;>
      rcases b.appCredentials with _ | app <;> simp

/-! ## The next request -/

/-- **What Intuit issued comes back to it.** After a rotation has been stored, the next request
for the company, from whichever runner with the same key:

- has the refresh token of that rotation in its form, whatever characters it has;
- authenticates as the company's own app, if its two credentials can be read and are long
  enough, and as the runner's otherwise. -/
theorem next_refresh_reads_back (hA : A.Lawful) (hkey : b'.key = b.key) {tokens : TokenSet}
    {stored : Int64} {accessIv refreshIv : Option Nonce}
    (hrotated : b.rotatedRow row tokens stored accessIv refreshIv = some (.ok rotated))
    (hplan : b'.plan (some rotated) now = .refresh r realmId request)
    (basicAuth : String → String → String) :
    readForm (request.post basicAuth).body =
      some [("grant_type", "refresh_token"), ("refresh_token", tokens.refreshToken)] ∧
    ∀ header, ("Authorization", header) ∈ (request.post basicAuth).headers →
      ∃ clientId clientSecret, header = basicAuth clientId clientSecret ∧
        ((b'.ownCredential row.clientId = some clientId ∧
            b'.ownCredential row.clientSecret = some clientSecret) ∨
          ((b'.ownCredential row.clientId = none ∨ b'.ownCredential row.clientSecret = none) ∧
            b'.appCredentials = some (clientId, clientSecret))) := by
  have hcredentials := clientCredentials_ok_iff.mp (plan_credentials hplan)
  obtain ⟨c, -, hrow, -, hc, -, -, -, hdec⟩ := plan_refresh_inv hplan
  cases hrow
  -- the row holds the token of the rotation, and its request decrypts what the row holds
  have hstored := storedRefresh_rotated hA hrotated
  obtain ⟨access, token, ae, re, -, -, -, -, rfl⟩ := rotatedRow_ok_iff.mp hrotated
  have hblob : c.refreshBlob = utf8 token :=
    (Option.some.inj (connection_refreshToken hc)).symm
  have htoken : request.refreshToken = tokens.refreshToken := by
    rw [hblob, hkey] at hdec
    have hsame : decrypt A b.key (utf8 token) = some tokens.refreshToken := hstored
    rw [hdec] at hsame
    exact Option.some.inj hsame
  constructor
  · rw [← htoken]
    exact readForm_tokenForm request.refreshToken
  · intro header hmem
    have hheader : header = basicAuth request.clientId request.clientSecret := by
      simpa [TokenRequest.post] using hmem
    exact ⟨_, _, hheader, hcredentials⟩

end Broker

/-- The header of basic authentication. -/
def sampleBasicAuth (user password : String) : String :=
  "Basic " ++ String.ofList (Base64.standard.encode (utf8 (user ++ ":" ++ password)))

/-- The token that was rotated in is sent when it is spent, with the credentials of the
runner, since the company has no app of its own. -/
theorem sampleRotated_spent :
    ∃ request, (sampleBroker 900).plan (some sampleRotated) 10000 =
        .refresh sampleRotated "9130" request ∧
      readForm (request.post sampleBasicAuth).body =
        some [("grant_type", "refresh_token"), ("refresh_token", "refresh-2")] ∧
      (∃ header, ("Authorization", header) ∈ (request.post sampleBasicAuth).headers) ∧
      ∀ header, ("Authorization", header) ∈ (request.post sampleBasicAuth).headers →
        header = "Basic YXBwLWNsaWVudC1pZDphcHAtY2xpZW50LXNlY3JldA==" := by
  have hrealm : trim "9130" = "9130" := by decide +kernel
  have hne : ¬ "9130" = "" := by decide
  have hconnection : sampleRotated.connection = some ⟨"9130", utf8 (sampleStored "access-2"),
      utf8 (sampleStored "refresh-2"), 4601, 8641001⟩ := by
    simp only [CompanyRow.connection, sampleRotated, CompanyRow.withTokens, sampleRow,
      Option.map_some, Option.getD_some, hrealm, if_neg hne]
  have hleft : sub (sampleBroker 900).overflow 4601 10000 = some (-5399) := rfl
  have hshort : ¬ (sampleBroker 900).needed ≤ -5399 := by decide
  have hsoon : add (sampleBroker 900).overflow 10000 60 = some 10060 := rfl
  have hexpires : ¬ (8641001 : Int64) ≤ 10060 := by decide
  have hplan : (sampleBroker 900).plan (some sampleRotated) 10000 =
      .refresh sampleRotated "9130" ⟨"app-client-id", "app-client-secret", "refresh-2"⟩ :=
    Broker.plan_refresh rfl hconnection hleft hshort hsoon hexpires (decrypt_sample "refresh-2")
      rfl
  have hrotated : (sampleBroker 900).rotatedRow (sampleRow 0) sampleTokens 1001
      (some sampleNonce) (some sampleNonce) = some (.ok sampleRotated) := rfl
  have hown : (sampleBroker 900).ownCredential (sampleRow 0).clientId = none := rfl
  obtain ⟨hbody, hheaders⟩ :=
    Broker.next_refresh_reads_back sampleCrypto_lawful rfl hrotated hplan sampleBasicAuth
  refine ⟨_, hplan, hbody, ⟨_, List.mem_cons_self⟩, fun header hmem => ?_⟩
  obtain ⟨clientId, clientSecret, rfl, ⟨hid, -⟩ | ⟨-, happ⟩⟩ := hheaders header hmem
  · rw [hown] at hid
    cases hid
  · cases happ
    decide +kernel

end JobRunner
