import Mathlib.Algebra.GroupWithZero.Nat
import JobRunner.Lib.Trace
import JobRunner.Mcp.Server

/-!
# The database connection of `jobctl-mcp`

The connection is opened by the first call that needs it and kept between messages. A call
that finds it broken drops it, and the next one opens another.

- `Called.opens`, `Called.breaks`, `Called.Uses`: what a call does to the connection.
- `ConnMove`, `call_connMove`: the ways a call can treat it.
- `serve_run`: the calls of the loop are a run of the connection.
- `connections_accounted`: along every input, connections opened and dropped balance, and each
  statement and each tool runs on an open one.
-/

open Text Transition

namespace JobRunner.Mcp

variable {codec : Codec} {w : World} {s : Server}

/-! ## What a call does to the connection -/

/-- A statement or a tool, which runs on the connection. -/
def Contact.isUse : Contact → Bool
  | .connect => false
  | .query _ | .tool _ => true

@[simp] theorem Contact.connect_isUse : Contact.connect.isUse = false := rfl

namespace Called

/-- The call came to an error of the connection. -/
def broken (c : Called) : Bool :=
  match c.outcome with
  | .done (some (.error (.database (.connection _)))) => true
  | _ => false

/-- Something ran on the connection. -/
def Uses (c : Called) : Prop := c.contacts.any Contact.isUse = true

instance (c : Called) : Decidable c.Uses := inferInstanceAs (Decidable (_ = true))

/-- The call opened a connection. -/
def opens (c : Called) : Nat := if .connect ∈ c.contacts ∧ c.Uses then 1 else 0

/-- The connection broke under the call. -/
def breaks (c : Called) : Nat := if c.Uses ∧ c.broken = true then 1 else 0

end Called

/-- How a call treats the connection: `conn` says whether it is open before. -/
inductive ConnMove (conn : Bool) (c : Called) : Prop where
  /-- Nothing is asked for. -/
  | quiet (hcontacts : c.contacts = []) (hconn : c.server.conn = conn)
  /-- It cannot be opened. -/
  | unopened (hclosed : conn = false) (hcontacts : c.contacts = [.connect])
      (hconn : c.server.conn = false)
  /-- It is used, and opened before if need be. -/
  | used (contact : Contact) (huse : contact.isUse = true)
      (hcontacts : c.contacts = (if conn then [] else [.connect]) ++ [contact])
      (hconn : c.server.conn = !c.broken)

/-- What `Server::connection` comes to. -/
inductive ConnectionMove (s : Server) : Except ToolError Server × List Contact → Prop where
  | kept (hopen : s.conn = true) : ConnectionMove s (.ok s, [])
  | unset (err : ToolError) (hclosed : s.conn = false) : ConnectionMove s (.error err, [])
  | refused (err : ToolError) (hclosed : s.conn = false) :
      ConnectionMove s (.error err, [.connect])
  | opened (hclosed : s.conn = false) : ConnectionMove s (.ok { s with conn := true }, [.connect])

/-- Opening the connection: it is open already, it is opened, or it could not be. -/
theorem connectionMove (w : World) (s : Server) : ConnectionMove s (s.connection w) := by
  unfold Server.connection connect
  split
  next hopen => exact .kept hopen
  next hopen =>
    have hclosed : s.conn = false := by simpa using hopen
    cases w.databaseUrl with
    | error text => exact .unset _ hclosed
    | ok _ =>
      cases w.connect with
      | error err => exact .refused _ hclosed
      | ok _ => exact .opened hclosed

/-- What `forget_broken_connection` leaves of an open connection: nothing if the
error says that it is broken, and otherwise the connection. -/
theorem forget_conn {α : Type} (outcome : Except ToolError α) (hopen : s.conn = true)
    {c : Called}
    (hbroken : c.broken = true ↔ ∃ text, outcome = .error (.database (.connection text))) :
    (s.forgetBrokenConnection outcome).conn = !c.broken := by
  unfold Server.forgetBrokenConnection
  split
  next text => rw [hbroken.mpr ⟨text, rfl⟩, Bool.not_true]
  next hnot =>
    have hfalse : c.broken = false := by
      rw [Bool.eq_false_iff]
      intro htrue
      obtain ⟨text, htext⟩ := hbroken.mp htrue
      exact hnot text htext
    rw [hopen, hfalse, Bool.not_false]

theorem broken_done_iff {α : Type} {outcome : Except ToolError String}
    {raw : Except ToolError α} {s : Server} {contacts : List Contact}
    (h : ∀ err, outcome = .error err ↔ raw = .error err) :
    (⟨.done (some outcome), s, contacts⟩ : Called).broken = true ↔
      ∃ text, raw = .error (.database (.connection text)) := by
  constructor
  · intro hb
    unfold Called.broken at hb
    split at hb
    next text heq =>
      cases heq
      exact ⟨text, (h _).mp rfl⟩
    · cases hb
  · rintro ⟨text, htext⟩
    rw [(h _).mpr htext]
    rfl

/-- `Server::sql`. -/
theorem sql_connMove (statement : String) : ConnMove s.conn (s.sql w statement) := by
  unfold Server.sql
  split
  · exact .quiet rfl rfl
  have hmove := connectionMove w s
  generalize s.connection w = r at hmove
  cases hmove with
  | unset err hclosed => exact .quiet rfl rfl
  | refused err hclosed => exact .unopened hclosed rfl hclosed
  | kept hopen =>
    refine .used (.query statement) rfl (by simp [hopen]) ?_
    exact forget_conn _ hopen (broken_done_iff fun err => Iff.rfl)
  | opened hclosed =>
    refine .used (.query statement) rfl (by simp [hclosed]) ?_
    exact forget_conn _ rfl (broken_done_iff fun err => Iff.rfl)

/-- A tool, on an open connection. -/
theorem runTool_connMove (session : Session) (t : Tool) (args : Json) {contacts : List Contact}
    {conn : Bool} (hopen : s.conn = true)
    (hcontacts : contacts = if conn then [] else [.connect]) :
    ConnMove conn (s.runTool codec w session t args contacts) := by
  unfold Server.runTool
  cases htool : w.tool session t args with
  | none => exact .used (.tool t) rfl (by simp [hcontacts]) (by simp [hopen, Called.broken])
  | some outcome =>
    refine .used (.tool t) rfl (by simp [hcontacts]) ?_
    refine forget_conn _ hopen (broken_done_iff fun err => ?_)
    cases outcome <;> simp [Except.map]

/-- **Step lemma.** How a call treats the connection, whichever tool it is for. Only
`sql` and the tools of QuickBooks touch it. -/
theorem call_connMove (codec : Codec) (w : World) (s : Server) (name : String) (args : Json) :
    ConnMove s.conn (s.call codec w name args) := by
  unfold Server.call
  split
  · exact sql_connMove _
  cases stripPrefix "qbo_" name with
  | none => exact .quiet rfl rfl
  | some rest =>
    show ConnMove s.conn (s.qboCall codec w rest args)
    unfold Server.qboCall
    cases s.qbo with
    | none => exact .quiet rfl rfl
    | some session =>
      dsimp only
      rcases authorize_cases session rest with ⟨tool, rfl, hauth, hmay⟩ | ⟨-, hauth | hauth⟩
      · rw [hauth, Session.select_of_may hmay]
        dsimp only
        have hmove := connectionMove w s
        generalize s.connection w = r at hmove
        cases hmove with
        | unset err hclosed => exact .quiet rfl rfl
        | refused err hclosed => exact .unopened hclosed rfl hclosed
        | kept hopen => exact runTool_connMove session tool args hopen (by simp [hopen])
        | opened hclosed => exact runTool_connMove session tool args rfl (by simp [hclosed])
      · rw [hauth]
        exact .quiet rfl rfl
      · rw [hauth]
        exact .quiet rfl rfl

/-! ## Along an input -/

/-- A call as a step between connections. -/
def CallStep (conn : Bool) (c : Called) (conn' : Bool) : Prop :=
  ConnMove conn c ∧ conn' = c.server.conn

theorem handle_run (codec : Codec) (w : World) (s : Server) (message : Json) :
    Run CallStep s.conn (s.handle codec w message).call.toList
      (s.handle codec w message).server.conn := by
  unfold Server.handle
  split
  · exact .nil _
  dsimp only
  split
  · exact .nil _
  split
  · exact .nil _
  split
  -- only `tools/call` makes a call
  · split <;> exact Run.single ⟨call_connMove codec w s _ _, rfl⟩
  split <;> exact .nil _

/-- One line: a step if it asks for a call, and nothing otherwise. -/
theorem answer_run (codec : Codec) (w : World) (s : Server) (line : String) :
    Run CallStep s.conn (answer codec w s line).call.toList
      (answer codec w s line).server.conn := by
  unfold answer
  split
  · exact handle_run codec w s _
  · exact .nil _

/-- The calls of the loop are a run of the connection, from the one that the server
had at the start. -/
theorem serve_run (codec : Codec) (s : Server) (input : List (World × Except String String)) :
    Run CallStep s.conn (serve codec s input).calls (serve codec s input).server.conn := by
  fun_induction serve codec s input with
  | case1 s => exact .nil _
  | case2 s w err rest => exact .nil _
  | case3 s w line rest hblank later ih => exact ih
  | case4 s w line rest hblank done => exact answer_run codec w s line
  | case5 s w line rest hblank done reply => exact answer_run codec w s line
  | case6 s w line rest hblank done reply _ _ later ih =>
    exact (answer_run codec w s line).append ih

/-- Connections opened and dropped by these calls. -/
def opened (calls : List Called) : Nat := (calls.map Called.opens).sum
def dropped (calls : List Called) : Nat := (calls.map Called.breaks).sum

@[simp] theorem opened_nil : opened [] = 0 := rfl

@[simp] theorem dropped_nil : dropped [] = 0 := rfl

@[simp] theorem opened_snoc (calls : List Called) (c : Called) :
    opened (calls ++ [c]) = opened calls + c.opens := by
  simp [opened]

@[simp] theorem dropped_snoc (calls : List Called) (c : Called) :
    dropped (calls ++ [c]) = dropped calls + c.breaks := by
  simp [dropped]

/-- What one call opens and drops is the change of the connection. -/
theorem ConnMove.balance {conn : Bool} {c : Called} (h : ConnMove conn c) :
    conn.toNat + c.opens = c.server.conn.toNat + c.breaks := by
  unfold Called.opens Called.breaks Called.Uses
  cases h with
  | quiet hcontacts hconn => simp [hcontacts, hconn]
  | unopened hclosed hcontacts hconn => simp [hclosed, hcontacts, hconn]
  | used contact huse hcontacts hconn =>
    have hne : Contact.connect ≠ contact := by
      rintro rfl
      cases huse
    cases conn <;> cases hbroken : c.broken <;> simp [hcontacts, hconn, hbroken, huse, hne]

/-- Opened and dropped so far differ by the connection that is open: by induction
along the run, from the balance of one call. -/
theorem run_balance {conn conn' : Bool} {calls : List Called}
    (h : Run CallStep conn calls conn') :
    conn.toNat + opened calls = conn'.toNat + dropped calls := by
  refine h.invariant (I := fun calls conn' =>
    conn.toNat + opened calls = conn'.toNat + dropped calls) rfl ?_
  rintro calls t c u hI ⟨hmove, rfl⟩
  have hbalance := hmove.balance
  rw [opened_snoc, dropped_snoc]
  omega

/-- A call that connects found no connection; where one runs a statement or a tool, a
connection is open. -/
theorem ConnMove.contacts {conn : Bool} {c : Called} (h : ConnMove conn c) :
    (.connect ∈ c.contacts → conn = false) ∧ (c.Uses → conn.toNat + c.opens = 1) := by
  unfold Called.opens Called.Uses
  cases h with
  | quiet hcontacts hconn => simp [hcontacts]
  | unopened hclosed hcontacts hconn => simp [hclosed, hcontacts]
  | used contact huse hcontacts hconn =>
    have hne : Contact.connect ≠ contact := by
      rintro rfl
      cases huse
    cases conn <;> simp [hcontacts, huse, hne]

/-- **The connection along every input.** A call connects only if every connection opened
before it has been dropped, a statement or a tool runs only on the one connection that is
open, and at the end what was opened and not dropped is what the server holds. -/
theorem connections_accounted (codec : Codec) (qbo : Option Session)
    (input : List (World × Except String String)) :
    (∀ before c after, (serve codec ⟨false, qbo⟩ input).calls = before ++ c :: after →
      (.connect ∈ c.contacts → opened before = dropped before) ∧
      (c.Uses → opened before + c.opens = dropped before + 1)) ∧
    opened (serve codec ⟨false, qbo⟩ input).calls =
      dropped (serve codec ⟨false, qbo⟩ input).calls +
        (serve codec ⟨false, qbo⟩ input).server.conn.toNat := by
  have hrun := serve_run codec ⟨false, qbo⟩ input
  refine ⟨fun before c after hsplit => ?_, ?_⟩
  · rw [hsplit] at hrun
    obtain ⟨conn, hbefore, hrest⟩ := hrun.split
    obtain ⟨_, ⟨hmove, -⟩, -⟩ := hrest.cons_inv
    have hbalance := run_balance hbefore
    obtain ⟨hconnect, huse⟩ := hmove.contacts
    rw [Bool.toNat_false] at hbalance
    refine ⟨fun hmem => ?_, fun hmem => ?_⟩
    · rw [hconnect hmem, Bool.toNat_false] at hbalance
      omega
    · have hone := huse hmem
      omega
  · have hbalance := run_balance hrun
    rw [Bool.toNat_false] at hbalance
    omega

end JobRunner.Mcp
