import JobRunner.Lib.RowLock
import JobRunner.Lib.Trace
import JobRunner.Qbo.Broker

/-!
# Runners and the chat application on one `company` table

Any number of `QboBroker::access` calls, from any number of runner processes, and
refreshes of the chat application run interleaved. Each locks a company's row before it
reads it and keeps the lock until it is done; Intuit issues token pairs and accepts the
newest refresh token only. Every way a call can be cut short is a step too, with or
without Intuit having rotated the token.

- `Connections`: the rows and their locks, what Intuit issued, where each party is.
- `Step`: one constructor per statement that others can see.
- `Step.frame`: a step touches one party and one company.
- `Step.row_eq`: only a write-back changes a row.
-/

open Text Machine RowLock

namespace JobRunner

namespace Connections

/-- A party that locks company rows, with the AES key all of them share. -/
inductive Client (A : Crypto) (key : A.Key) where
  /-- A call of a runner's broker. -/
  | runner (b : Broker A) (sameKey : b.key = key)
  /-- The chat application. -/
  | app

/-- Where a party is. `row` is what it read under the lock. -/
inductive Phase where
  | idle
  | waiting (c : Int)
  | deciding (c : Int) (row : CompanyRow)
  | posting (c : Int) (row : CompanyRow) (realmId token : String)
  | writing (c : Int) (row : CompanyRow) (realmId : String) (tokens : TokenSet)

/-- The locked row, as the party read it. -/
def Phase.view : Phase → Option (Int × Option CompanyRow)
  | .idle => none
  | .waiting _ => none
  | .deciding c row => some (c, some row)
  | .posting c row _ _ => some (c, some row)
  | .writing c row _ _ => some (c, some row)

/-- The party has a grant that is not in the row yet. -/
def Phase.isWriting : Phase → Bool
  | .writing _ _ _ _ => true
  | _ => false

end Connections

open Connections in
/-- The parties `ι`, the table and Intuit. `issued c` are the token pairs Intuit issued
for the connection of company `c`, the newest last. -/
structure Connections (ι : Type) where
  rows : Rows Int (Option CompanyRow) ι
  issued : Int → List TokenPair
  phase : ι → Phase

namespace Connections

/-- What happens, with the party and the company; `clock` is the reading a decision was
taken by. -/
inductive Event (ι : Type) where
  | begun (p : ι) (c : Int)
  | locked (p : ι) (c : Int)
  /-- There is no row to lock. -/
  | absent (p : ι) (c : Int)
  /-- Dropped, panicked, or (the application) content with the row. -/
  | left (p : ι) (c : Int)
  | answered (p : ι) (c : Int) (clock : Option UInt64) (result : Except QboError QboJobAccess)
  | reused (p : ι) (c : Int) (clock : Option UInt64) (ending : Ending)
  | posted (p : ι) (c : Int) (clock : Option UInt64) (token : String)
  | granted (p : ι) (c : Int) (tokens : TokenSet)
  /-- The request failed, and Intuit did not rotate. -/
  | failed (p : ι) (c : Int)
  /-- Intuit rotated, and the reply was lost. -/
  | replyLost (p : ι) (c : Int) (tokens : TokenSet)
  /-- `UPDATE` and `COMMIT` took effect. -/
  | stored (p : ι) (c : Int) (tokens : TokenSet) (accessExpires : Int64) (ending : Ending)
  /-- The grant was not written back. -/
  | abandoned (p : ι) (c : Int)

namespace Event

variable {ι : Type}

def party : Event ι → ι
  | .begun p _ | .locked p _ | .absent p _ | .left p _ | .answered p _ _ _ | .reused p _ _ _
  | .posted p _ _ _ | .granted p _ _ | .failed p _ | .replyLost p _ _ | .stored p _ _ _ _
  | .abandoned p _ => p

def company : Event ι → Int
  | .begun _ c | .locked _ c | .absent _ c | .left _ c | .answered _ c _ _ | .reused _ c _ _
  | .posted _ c _ _ | .granted _ c _ | .failed _ c | .replyLost _ c _ | .stored _ c _ _ _
  | .abandoned _ c => c

/-- The event is a decision of a runner by this clock reading. -/
def DecidedBy (clock : Option UInt64) : Event ι → Prop
  | .answered _ _ clock' _ => clock' = clock
  | .reused _ _ clock' _ => clock' = clock
  | .posted _ _ clock' _ => clock' = clock
  | _ => False

/-- A refresh succeeded at Intuit and is not followed by a successful write-back. -/
def LosesGrant : Event ι → Prop
  | .replyLost _ _ _ => True
  | .abandoned _ _ => True
  | _ => False

/-- A write-back to the row of company `c`. -/
def StoresAt (c : Int) : Event ι → Prop
  | .stored _ c' _ _ _ => c' = c
  | _ => False

end Event

section Moves

variable {ι : Type} [DecidableEq ι] (s : Connections ι)

/-- What every party has locked and read. -/
def view (p : ι) : Option (Int × Option CompanyRow) := (s.phase p).view

def goto (p : ι) (ph : Phase) : Connections ι :=
  { s with phase := Function.update s.phase p ph }

/-- `p` locks the row of `c`. -/
def lock (p : ι) (c : Int) (row : CompanyRow) : Connections ι :=
  { s with
    rows := s.rows.acquire p c
    phase := Function.update s.phase p (.deciding c row) }

/-- The transaction of `p` ends without having changed anything. -/
def leave (p : ι) (c : Int) : Connections ι :=
  { s with rows := s.rows.release c, phase := Function.update s.phase p .idle }

/-- The transaction of `p` commits the row of `c`. -/
def store (p : ι) (c : Int) (row : CompanyRow) : Connections ι :=
  { s with rows := s.rows.commit c (some row), phase := Function.update s.phase p .idle }

/-- Intuit issues a pair for `c`. -/
def issue (c : Int) (pair : TokenPair) : Connections ι :=
  { s with issued := Function.update s.issued c (s.issued c ++ [pair]) }

/-- Intuit accepts `token` for `c` and answers with `tokens`: it accepts the newest refresh
token only, and never issues one twice. -/
structure Accepts (c : Int) (token : String) (tokens : TokenSet) : Prop where
  newest : (s.issued c).getLast?.map (·.refreshToken) = some token
  fresh : tokens.refreshToken ∉ (s.issued c).map (·.refreshToken)

@[simp] theorem goto_phase_self (p : ι) (ph : Phase) : (s.goto p ph).phase p = ph := by
  simp [goto]

end Moves

/-- One step of one party, or of Intuit for it. -/
inductive Step {A : Crypto} {key : A.Key} {ι : Type} [DecidableEq ι] (client : ι → Client A key) :
    Connections ι → Event ι → Connections ι → Prop where
  /-- `SELECT … FOR UPDATE` is sent. -/
  | begins {s p c} : s.phase p = .idle → Step client s (.begun p c) (s.goto p (.waiting c))
  /-- The lock is granted, and the latest committed row read. -/
  | locks {s p c row} : s.phase p = .waiting c → s.rows.holder c = none →
      s.rows.row c = some row → Step client s (.locked p c) (s.lock p c row)
  | absent {s p c} : s.phase p = .waiting c → s.rows.row c = none →
      Step client s (.absent p c) (s.goto p .idle)
  | stopsWaiting {s p c} : s.phase p = .waiting c →
      Step client s (.left p c) (s.goto p .idle)
  | stopsDeciding {s p c row} : s.phase p = .deciding c row →
      Step client s (.left p c) (s.leave p c)
  | answers {s p c row b hb clock result} : client p = .runner b hb →
      s.phase p = .deciding c row → b.plan (some row) (unixNow clock) = .answer result →
      Step client s (.answered p c clock result) (s.leave p c)
  | reuses {s p c row b hb clock access} (commit : CommitFate) : client p = .runner b hb →
      s.phase p = .deciding c row → b.plan (some row) (unixNow clock) = .reuse access →
      Step client s (.reused p c clock (commit.ending access)) (s.leave p c)
  | runnerPosts {s p c row b hb clock row' realmId request} : client p = .runner b hb →
      s.phase p = .deciding c row →
      b.plan (some row) (unixNow clock) = .refresh row' realmId request →
      Step client s (.posted p c clock request.refreshToken)
        (s.goto p (.posting c row' realmId request.refreshToken))
  | appPosts {s p c row token} (clock : Option UInt64) : client p = .app →
      s.phase p = .deciding c row → row.refreshToken.bind (decrypt A key) = some token →
      Step client s (.posted p c clock token) (s.goto p (.posting c row "" token))
  | grants {s p c row realmId token tokens} : s.phase p = .posting c row realmId token →
      s.Accepts c token tokens →
      Step client s (.granted p c tokens)
        ((s.issue c tokens.toTokenPair).goto p (.writing c row realmId tokens))
  | fails {s p c row realmId token} : s.phase p = .posting c row realmId token →
      Step client s (.failed p c) (s.leave p c)
  | losesReply {s p c row realmId token tokens} : s.phase p = .posting c row realmId token →
      s.Accepts c token tokens →
      Step client s (.replyLost p c tokens) ((s.issue c tokens.toTokenPair).leave p c)
  | runnerStores {s p c row realmId tokens b hb clock accessIv refreshIv rotated accessExpires}
      (commit : CommitFate) : client p = .runner b hb →
      s.phase p = .writing c row realmId tokens → commit.applied = true →
      b.rotatedRow row tokens (unixNow clock) accessIv refreshIv = some (.ok rotated) →
      rotated.accessExpires = some accessExpires →
      Step client s
        (.stored p c tokens accessExpires
          (commit.ending (b.connected realmId tokens.accessToken)))
        (s.store p c rotated)
  /-- The application writes the same columns in the same format. -/
  | appStores {s p c row realmId tokens accessIv refreshIv accessToken refreshToken
      accessExpires refreshExpires} (ending : Ending) : client p = .app →
      s.phase p = .writing c row realmId tokens →
      encrypt A key accessIv tokens.accessToken = .ok accessToken →
      encrypt A key refreshIv tokens.refreshToken = .ok refreshToken →
      Step client s (.stored p c tokens accessExpires ending)
        (s.store p c (row.withTokens accessToken refreshToken accessExpires refreshExpires))
  | abandons {s p c row realmId tokens} : s.phase p = .writing c row realmId tokens →
      Step client s (.abandoned p c) (s.leave p c)

namespace Step

variable {A : Crypto} {key : A.Key} {ι : Type} [DecidableEq ι] {client : ι → Client A key}
  {s t : Connections ι} {e : Event ι}

/-- Every other party is where it was. -/
theorem phase_of_ne (h : Step client s e t) {q : ι} (hq : q ≠ e.party) :
    t.phase q = s.phase q := by
  cases h <;> exact Function.update_of_ne hq _ _

/-- The row of every other company, and what Intuit issued for it, is as before. -/
theorem frame (h : Step client s e t) {d : Int} (hd : d ≠ e.company) :
    t.rows.row d = s.rows.row d ∧ t.issued d = s.issued d := by
  cases h with
  | grants _ _ => exact ⟨rfl, Function.update_of_ne hd _ _⟩
  | losesReply _ _ => exact ⟨rfl, Function.update_of_ne hd _ _⟩
  | runnerStores => exact ⟨s.rows.commit_row_of_ne hd _, rfl⟩
  | appStores => exact ⟨s.rows.commit_row_of_ne hd _, rfl⟩
  | _ => exact ⟨rfl, rfl⟩

/-- Only a write-back changes a row. -/
theorem row_eq (h : Step client s e t) {c : Int} (hstore : ¬ e.StoresAt c) :
    t.rows.row c = s.rows.row c := by
  cases h with
  | runnerStores => exact s.rows.commit_row_of_ne (fun heq => hstore heq.symm) _
  | appStores => exact s.rows.commit_row_of_ne (fun heq => hstore heq.symm) _
  | _ => rfl

end Step

end Connections

end JobRunner
