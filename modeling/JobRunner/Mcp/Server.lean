import JobRunner.Jobctl.Api
import JobRunner.Mcp.Catalogue

/-!
# `jobctl-mcp`

The server reads JSON-RPC messages line by line and answers those that have an id. A
`tools/call` goes through `Server::call`, which knows `sql`, and `Server::qbo`, which asks
the session before the database is opened. The connection is kept between messages.

- `World`: the database and QuickBooks while one line is handled.
- `Server.call`, `Server.handle`, `serve`: the server.
- `Server.call_cases`: a call is refused **exactly when** its name is not listed.
- `Server.runs`: what a call runs is what the session selects.
- `answered_handle`: the reply to a message.
- `serve_cons`: one turn of the loop.
- `serves`: what holds of every input.
-/

open Text

namespace JobRunner.Mcp

/-- `serde_json`, and `{:?}` of a text. -/
structure Codec where
  parse : String → Except String Json
  display : Json → String
  debug : String → String

/-- What the server meets while it handles a line: anything, but that no tool gives the
answer of `authorize` itself. -/
structure World where
  /-- `DATABASE_URL`, read and parsed. -/
  databaseUrl : Except String Unit
  /-- `MySqlConnection::connect_with`. -/
  connect : Except SqlError Unit
  /-- `sql::query`. -/
  query : String → Except SqlError String
  /-- A tool, up to the printing of its value; `none` if it panics. -/
  tool : Session → Tool → Json → Option (Except ToolError Json)
  tool_ne (session : Session) (t : Tool) (args : Json) :
    tool session t args ≠ some (.error Session.adminsOnly)
  /-- Whether a reply can be written to stdout. -/
  written : Bool

/-- Whom the server turns to. -/
inductive Contact where
  | connect
  | query (statement : String)
  /-- The tool asks the database and QuickBooks. -/
  | tool (t : Tool)
deriving DecidableEq, Repr

/-- `Server`; of the connection, whether there is one. -/
structure Server where
  conn : Bool
  qbo : Option Session
deriving DecidableEq, Repr

/-- What came of a call: `none` is an unknown name. -/
inductive Outcome where
  | done (outcome : Option (Except ToolError String))
  | panicked

/-- A call, the server after it and whom it turned to. -/
structure Called where
  outcome : Outcome
  server : Server
  contacts : List Contact

/-! ## Calls -/

/-- `Error::to_string`. -/
def errorText (codec : Codec) : ToolError → String
  | .database (.connection text) | .database (.other text) => text
  | .config text | .notFound text | .http text | .invalidArgument text | .denied text
  | .io text => text
  | .invalidRealm realmId => "invalid QuickBooks realm id " ++ codec.debug realmId

/-- `connect`. -/
def connect (w : World) : Except ToolError Unit × List Contact :=
  match w.databaseUrl with
  | .error text => (.error (.config text), [])
  | .ok () => (w.connect.mapError .database, [.connect])

namespace Server

variable (codec : Codec) (w : World) (s : Server)

/-- `Server::connection`. -/
def connection : Except ToolError Server × List Contact :=
  if s.conn then (.ok s, [])
  else ((connect w).1.map fun () => { s with conn := true }, (connect w).2)

/-- `Server::forget_broken_connection`. -/
def forgetBrokenConnection {α : Type} (outcome : Except ToolError α) : Server :=
  match outcome with
  | .error (.database (.connection _)) => { s with conn := false }
  | _ => s

/-- `Server::sql`. -/
def sql (statement : String) : Called :=
  if trim statement = "" then
    ⟨.done (some (.error (.config "the sql argument is empty"))), s, []⟩
  else
    match s.connection w with
    | (.error err, contacts) => ⟨.done (some (.error err)), s, contacts⟩
    | (.ok s, contacts) =>
      let outcome := (w.query statement).mapError ToolError.database
      ⟨.done (some outcome), s.forgetBrokenConnection outcome, contacts ++ [.query statement]⟩

/-- `MAX_OUTPUT_CHARS`. -/
def maxOutputChars : Nat := 100000

/-- The end of `Session::call`: the tool itself, and the printing of its value. -/
def runTool (session : Session) (t : Tool) (args : Json) (contacts : List Contact) : Called :=
  match w.tool session t args with
  | none => ⟨.panicked, s, contacts ++ [.tool t]⟩
  | some outcome =>
    ⟨.done (some (outcome.map fun value => Jobctl.truncate (codec.display value) maxOutputChars)),
      s.forgetBrokenConnection outcome, contacts ++ [.tool t]⟩

/-- `Server::qbo`. -/
def qboCall (name : String) (args : Json) : Called :=
  match s.qbo with
  | none => ⟨.done none, s, []⟩
  | some session =>
    match session.authorize name with
    | none => ⟨.done none, s, []⟩
    | some (.error err) => ⟨.done (some (.error err)), s, []⟩
    | some (.ok ()) =>
      match s.connection w with
      | (.error err, contacts) => ⟨.done (some (.error err)), s, contacts⟩
      | (.ok s, contacts) =>
        -- `Session::call` authorizes once more
        match session.select name with
        | none => ⟨.done none, s, contacts⟩
        | some (.error err) =>
          ⟨.done (some (.error err)),
            s.forgetBrokenConnection (.error err : Except ToolError String), contacts⟩
        | some (.ok t) => s.runTool codec w session t args contacts

/-- `Server::call`. -/
def call (name : String) (args : Json) : Called :=
  if name = "sql" then s.sql w (((args.index "sql").asStr).getD "")
  else
    match stripPrefix "qbo_" name with
    | none => ⟨.done none, s, []⟩
    | some rest => s.qboCall codec w rest args

end Server

/-! ## Messages -/

/-- `error`. -/
def errorReply (id : Json) (code : Int) (message : String) : Json :=
  .obj [("jsonrpc", .str "2.0"), ("id", id),
    ("error", .obj [("code", .int code), ("message", .str message)])]

/-- The reply with a result. -/
def resultReply (id result : Json) : Json :=
  .obj [("jsonrpc", .str "2.0"), ("id", id), ("result", result)]

/-- `DEFAULT_PROTOCOL_VERSION`. -/
def defaultProtocolVersion : String := "2025-06-18"

/-- `CARGO_PKG_VERSION`. -/
def cargoPkgVersion : String := "0.1.0"

/-- The result of `initialize`. -/
def initializeResult (params : Json) : Json :=
  .obj [
    ("protocolVersion",
      .str (((params.index "protocolVersion").asStr).getD defaultProtocolVersion)),
    ("capabilities", .obj [("tools", .obj [])]),
    ("serverInfo", .obj [("name", .str "jobctl"), ("version", .str cargoPkgVersion)])]

/-- The reply to `tools/call`. -/
def callReply (codec : Codec) (id : Json) (name : String) :
    Option (Except ToolError String) → Json
  | none => errorReply id (-32602) ("unknown tool " ++ codec.debug name)
  | some outcome =>
    let text :=
      match outcome with
      | .ok text => text
      | .error err => errorText codec err
    let isError :=
      match outcome with
      | .ok _ => false
      | .error _ => true
    resultReply id (.obj [
      ("content", .arr [.obj [("type", .str "text"), ("text", .str text)]]),
      ("isError", .bool isError)])

/-- What came of a message. -/
structure Handled where
  /-- The reply, if there is one; `none` if a tool panicked. -/
  reply : Option (Option Json)
  server : Server
  /-- The call that it made, if it made one. -/
  call : Option Called

/-- `Server::handle`. -/
def Server.handle (codec : Codec) (w : World) (s : Server) (message : Json) : Handled :=
  match message.get? "id" with
  | none => ⟨some none, s, none⟩
  | some id =>
    let params := message.index "params"
    let method := ((message.index "method").asStr).getD ""
    if method = "initialize" then ⟨some (some (resultReply id (initializeResult params))), s, none⟩
    else if method = "tools/list" then
      ⟨some (some (resultReply id (.obj [("tools", .arr (tools s.qbo))]))), s, none⟩
    else if method = "tools/call" then
      let name := ((params.index "name").asStr).getD ""
      let called := s.call codec w name (params.index "arguments")
      match called.outcome with
      | .panicked => ⟨none, called.server, some called⟩
      | .done outcome => ⟨some (some (callReply codec id name outcome)), called.server, some called⟩
    else if method = "ping" then ⟨some (some (resultReply id (.obj []))), s, none⟩
    else ⟨some (some (errorReply id (-32601) ("method not found: " ++ method))), s, none⟩

/-! ## The loop -/

/-- How the process ends. -/
inductive Exit where
  | endOfInput
  | unreadable
  | unwritten
  | panicked
deriving DecidableEq, Repr

/-- The lines that were handled, each with its reply if it got one, and the end; besides, the
calls that were made, and the server after the last. -/
structure Serving where
  handled : List (String × Option Json)
  exit : Exit
  calls : List Called
  server : Server

/-- What the loop of `main` does with a line that is not blank. -/
def answer (codec : Codec) (w : World) (s : Server) (line : String) : Handled :=
  match codec.parse line with
  | .ok message => s.handle codec w message
  | .error err => ⟨some (some (errorReply .null (-32700) ("parse error: " ++ err))), s, none⟩

/-- The loop of `main`; what `next_line` gives is a line or an error. -/
def serve (codec : Codec) (s : Server) : List (World × Except String String) → Serving
  | [] => ⟨[], .endOfInput, [], s⟩
  | (_, .error _) :: _ => ⟨[], .unreadable, [], s⟩
  | (w, .ok line) :: rest =>
    if trim line = "" then
      let later := serve codec s rest
      { later with handled := (line, none) :: later.handled }
    else
      let done := answer codec w s line
      match done.reply with
      | none => ⟨[], .panicked, done.call.toList, done.server⟩
      | some reply =>
        if reply.isSome ∧ w.written = false then
          ⟨[], .unwritten, done.call.toList, done.server⟩
        else
          let later := serve codec done.server rest
          { later with
            handled := (line, reply) :: later.handled
            calls := done.call.toList ++ later.calls }

/-! ## Which calls are refused -/

/-- The name is unknown, or for admins only. -/
def Refused (outcome : Outcome) : Prop :=
  outcome = .done none ∨ outcome = .done (some (.error Session.adminsOnly))

/-- What `authorize` says is what the list shows. -/
theorem authorize_cases (session : Session) (name : String) :
    (∃ tool : Tool, name = tool.name ∧ session.authorize name = some (.ok ()) ∧
      (tool.adminOnly = true → session.scope.isAdmin = true)) ∨
    "qbo_" ++ name ∉ listedNames (some session) ∧
      (session.authorize name = none ∨
        session.authorize name = some (.error Session.adminsOnly)) := by
  have hnot : session.authorize name ≠ some (.ok ()) →
      "qbo_" ++ name ∉ listedNames (some session) := by
    intro hne hlisted
    obtain ⟨_, tool, hsession, hmay, rfl⟩ := qbo_mem_listedNames_iff.mp hlisted
    cases hsession
    exact hne (Session.authorize_of_may hmay)
  cases hauth : session.authorize name with
  | none => exact .inr ⟨hnot (by simp [hauth]), .inl rfl⟩
  | some checked =>
    cases checked with
    | ok _ =>
      obtain ⟨tool, hname, hmay⟩ := Session.authorize_ok hauth
      exact .inl ⟨tool, hname, rfl, hmay⟩
    | error err =>
      exact .inr ⟨hnot (by simp [hauth]), .inr (by rw [Session.authorize_error hauth])⟩

variable {codec : Codec} {w : World} {s : Server}

theorem not_refused {outcome : Except ToolError String} (h : outcome ≠ .error Session.adminsOnly) :
    ¬ Refused (.done (some outcome)) := by
  rintro (hrefused | hrefused)
  · cases hrefused
  · cases hrefused
    exact h rfl

theorem panicked_not_refused : ¬ Refused .panicked := by
  rintro (h | h) <;> cases h

/-- Opening the database fails with an error of its own. -/
theorem connection_error {err : ToolError} {contacts : List Contact}
    (h : s.connection w = (.error err, contacts)) : err ≠ Session.adminsOnly := by
  unfold Server.connection connect at h
  split at h
  · cases h
  split at h
  · cases h
    exact ToolError.noConfusion
  · rcases hconnect : w.connect with sqlErr | _ <;> rw [hconnect] at h <;> cases h
    exact ToolError.noConfusion

theorem sql_not_refused (statement : String) : ¬ Refused (s.sql w statement).outcome := by
  unfold Server.sql
  split
  · exact not_refused (by rintro ⟨⟩)
  split
  next err contacts hconn =>
    refine not_refused fun h => connection_error hconn ?_
    cases h
    rfl
  · refine not_refused ?_
    cases w.query statement <;> rintro ⟨⟩

/-- A tool that runs has not refused. -/
theorem runTool_not_refused (session : Session) (t : Tool) (args : Json)
    (contacts : List Contact) :
    ¬ Refused (s.runTool codec w session t args contacts).outcome := by
  unfold Server.runTool
  split
  · exact panicked_not_refused
  next outcome htool =>
    refine not_refused fun h => w.tool_ne session t args ?_
    cases outcome with
    | ok value => cases h
    | error err =>
      cases h
      exact htool

/-- **The ways a call can go.** Its name is listed, and it is not refused; or it is
not listed, and nothing has happened but the refusal. An unlisted call so reaches
neither the database nor a tool. -/
theorem Server.call_cases (codec : Codec) (w : World) (s : Server) (name : String) (args : Json) :
    (name ∈ listedNames s.qbo ∧ ¬ Refused (s.call codec w name args).outcome) ∨
    (name ∉ listedNames s.qbo ∧ ∃ outcome, Refused outcome ∧
      s.call codec w name args = ⟨outcome, s, []⟩) := by
  unfold Server.call
  split
  next hsql => exact .inl ⟨mem_listedNames_iff.mpr (.inl hsql), sql_not_refused _⟩
  next hsql =>
    split
    next hprefix => exact .inr ⟨not_mem_listedNames hsql hprefix, _, .inl rfl, rfl⟩
    next rest hprefix =>
      rw [stripPrefix_eq_some_iff.mp hprefix]
      unfold Server.qboCall
      cases hqbo : s.qbo with
      | none =>
        refine .inr ⟨fun hlisted => ?_, _, .inl rfl, rfl⟩
        obtain ⟨_, _, hnone, -⟩ := qbo_mem_listedNames_iff.mp hlisted
        cases hnone
      -- what is listed for a session is what `authorize` lets it use
      | some session =>
        rcases authorize_cases session rest with ⟨tool, rfl, hauth, hmay⟩ | ⟨hnot, hauth⟩
        · refine .inl ⟨qbo_mem_listedNames_iff.mpr ⟨session, tool, rfl, hmay, rfl⟩, ?_⟩
          simp only [hauth, Session.select_of_may hmay]
          split
          next err contacts hconn =>
            refine not_refused fun h => connection_error hconn ?_
            cases h
            rfl
          · exact runTool_not_refused _ _ _ _
        · refine .inr ⟨hnot, ?_⟩
          rcases hauth with hauth | hauth
          · simp only [hauth]
            exact ⟨_, .inl rfl, rfl⟩
          · simp only [hauth]
            exact ⟨_, .inr rfl, rfl⟩

/-! ## What a call runs -/

/-- What a call comes to if this is what it runs. -/
inductive Runs (codec : Codec) (w : World) (s : Server) (args : Json) :
    Option (Except ToolError JobRunner.Server.Running) → Called → Prop
  | unknown {called : Called} : called.outcome = .done none → Runs codec w s args none called
  | failed {err : ToolError} {called : Called} :
      called.outcome = .done (some (.error err)) → Runs codec w s args (some (.error err)) called
  | sql : Runs codec w s args (some (.ok .sql)) (s.sql w (((args.index "sql").asStr).getD ""))
  | tool (session : Session) (t : Tool) (s' : Server) (contacts : List Contact) :
      Runs codec w s args (some (.ok (.tool session t)))
        (s'.runTool codec w session t args contacts)

/-- A call runs what `Server.call` of the session selects. This connects the server
with the rules about who may use which tool. -/
theorem Server.runs (codec : Codec) (w : World) (s : Server) (name : String) (args : Json) :
    Runs codec w s args
      (JobRunner.Server.call s.qbo ((s.connection w).1.map fun _ => ()) name)
      (s.call codec w name args) := by
  unfold JobRunner.Server.call Server.call
  by_cases hsql : name = "sql"
  · rw [if_pos hsql, if_pos hsql]
    exact .sql
  rw [if_neg hsql, if_neg hsql]
  cases stripPrefix "qbo_" name with
  | none => exact .unknown rfl
  | some rest =>
    show Runs codec w s args (JobRunner.Server.qbo s.qbo _ rest) (s.qboCall codec w rest args)
    unfold JobRunner.Server.qbo Server.qboCall
    cases s.qbo with
    | none => exact .unknown rfl
    | some session =>
      dsimp only
      rcases session.authorize rest with _ | err | _
      · exact .unknown rfl
      · exact .failed rfl
      rcases s.connection w with ⟨err | s', contacts⟩
      · exact .failed rfl
      dsimp only [Except.map]
      rcases session.select rest with _ | err | t
      · exact .unknown rfl
      · exact .failed rfl
      · exact .tool session t s' contacts

/-! ## Replies -/

/-- A reply to a request with this id. -/
structure RepliesTo (id reply : Json) : Prop where
  version : reply.get? "jsonrpc" = some (.str "2.0")
  id : reply.get? "id" = some id
  /-- Of a result and an error, exactly one. -/
  exclusive : (reply.get? "result").isSome ↔ reply.get? "error" = none

theorem repliesTo_result (id result : Json) : RepliesTo id (resultReply id result) := by
  refine ⟨rfl, rfl, ?_⟩
  simp [resultReply, Json.get?, Json.members]

theorem repliesTo_error (id : Json) (code : Int) (message : String) :
    RepliesTo id (errorReply id code message) := by
  refine ⟨rfl, rfl, ?_⟩
  simp [errorReply, Json.get?, Json.members]

/-- What a line is answered with: nothing, or a reply to its id. -/
inductive Answered (expected : Option Json) : Option Json → Prop
  | silent : expected = none → Answered expected none
  | reply {id r : Json} : expected = some id → RepliesTo id r → Answered expected (some r)

/-- A message is answered if it has an id, and with that id. The methods differ in
the result, not in this. -/
theorem answered_handle {message : Json} {reply : Option Json}
    (h : (s.handle codec w message).reply = some reply) :
    Answered (message.get? "id") reply := by
  unfold Server.handle at h
  cases hid : message.get? "id" with
  | none =>
    rw [hid] at h
    cases h
    exact .silent rfl
  | some id =>
    rw [hid] at h
    simp only at h
    split at h
    · cases h
      exact .reply rfl (repliesTo_result _ _)
    split at h
    · cases h
      exact .reply rfl (repliesTo_result _ _)
    split at h
    · split at h
      · cases h
      next outcome _ =>
        cases h
        cases outcome with
        | none => exact .reply rfl (repliesTo_error _ _ _)
        | some outcome => exact .reply rfl (repliesTo_result _ _)
    split at h
    · cases h
      exact .reply rfl (repliesTo_result _ _)
    · cases h
      exact .reply rfl (repliesTo_error _ _ _)

/-! ## Lines -/

/-- The id that a line is to be answered with: a line that is blank gets no reply, and one
that does not parse gets the id `null`. -/
def expectedId (codec : Codec) (line : String) : Option Json :=
  if trim line = "" then none
  else
    match codec.parse line with
    | .ok message => message.get? "id"
    | .error _ => some .null

theorem answered_answer {line : String} {reply : Option Json} (hblank : trim line ≠ "")
    (h : (answer codec w s line).reply = some reply) :
    Answered (expectedId codec line) reply := by
  unfold expectedId
  rw [if_neg hblank]
  unfold answer at h
  cases hparse : codec.parse line with
  | ok message =>
    rw [hparse] at h
    exact answered_handle h
  | error err =>
    rw [hparse] at h
    cases h
    exact .reply rfl (repliesTo_error _ _ _)

/-- Nothing ends the process at a line: it can be read, no tool panics, and the reply can be
written. -/
structure Steady (turn : World × Except String String) : Prop where
  read : ∃ line, turn.2 = .ok line
  tools (session : Session) (t : Tool) (args : Json) : turn.1.tool session t args ≠ none
  written : turn.1.written = true

/-- A call panics only if a tool does. -/
theorem call_ne_panicked (h : ∀ session t args, w.tool session t args ≠ none) (name : String)
    (args : Json) : (s.call codec w name args).outcome ≠ .panicked := by
  have hrun : ∀ (s : Server) session t contacts,
      (s.runTool codec w session t args contacts).outcome ≠ .panicked := by
    intro s session t contacts
    unfold Server.runTool
    split
    next htool => exact absurd htool (h session t args)
    · exact Outcome.noConfusion
  unfold Server.call Server.sql Server.qboCall
  repeat' split
  all_goals first | exact Outcome.noConfusion | exact hrun _ _ _ _

theorem handle_ne_none (h : ∀ session t args, w.tool session t args ≠ none) (message : Json) :
    (s.handle codec w message).reply ≠ none := by
  unfold Server.handle
  split
  · exact Option.some_ne_none _
  · dsimp only
    repeat' split
    all_goals first | exact Option.some_ne_none _ | skip
    next hpanicked => exact absurd hpanicked (call_ne_panicked h _ _)

theorem answer_ne_none (h : ∀ session t args, w.tool session t args ≠ none) (line : String) :
    (answer codec w s line).reply ≠ none := by
  unfold answer
  cases codec.parse line with
  | ok message => exact handle_ne_none h message
  | error err => exact Option.some_ne_none _

/-- **One turn of the loop**: the process ends there, or the line is answered as its
id says and the server goes on, in whatever state the line has left it. -/
theorem serve_cons (codec : Codec) (s : Server) (turn : World × Except String String)
    (rest : List (World × Except String String)) :
    (¬ Steady turn ∧ (serve codec s (turn :: rest)).handled = []) ∨
    ∃ line reply s', turn.2 = .ok line ∧ Answered (expectedId codec line) reply ∧
      (serve codec s (turn :: rest)).handled =
        (line, reply) :: (serve codec s' rest).handled := by
  obtain ⟨w, read⟩ := turn
  cases read with
  | error err =>
    refine .inl ⟨fun hsteady => ?_, rfl⟩
    obtain ⟨_, hread⟩ := hsteady.read
    cases hread
  | ok line =>
    rw [serve]
    -- a blank line is skipped
    split
    next hblank => exact .inr ⟨line, none, s, rfl, .silent (if_pos hblank), rfl⟩
    next hblank =>
      dsimp only
      cases hanswer : (answer codec w s line).reply with
      | none =>
        exact .inl ⟨fun hsteady => answer_ne_none hsteady.tools line hanswer, rfl⟩
      | some reply =>
        dsimp only
        split
        next hlost =>
          refine .inl ⟨fun hsteady => ?_, rfl⟩
          cases hlost.2.symm.trans hsteady.written
        · exact .inr ⟨line, reply, _, rfl, answered_answer hblank hanswer, rfl⟩

/-- Every line that is handled is answered as it should be. -/
theorem answered_of_mem (codec : Codec) (s : Server) (input : List (World × Except String String))
    {line : String} {reply : Option Json} (h : (line, reply) ∈ (serve codec s input).handled) :
    Answered (expectedId codec line) reply := by
  induction input generalizing s with
  | nil => exact absurd h List.not_mem_nil
  | cons turn rest ih =>
    rcases serve_cons codec s turn rest with ⟨-, hnil⟩ | ⟨line', reply', s', -, hanswered, hcons⟩
    · rw [hnil] at h
      exact absurd h List.not_mem_nil
    · rw [hcons, List.mem_cons] at h
      rcases h with heq | hrest
      · cases heq
        exact hanswered
      · exact ih s' hrest

/-- The lines that are handled are those that are read, in their order, up to where
the process ends. -/
theorem handled_prefix (codec : Codec) (s : Server) (input : List (World × Except String String)) :
    (serve codec s input).handled.map (fun h => (.ok h.1 : Except String String)) <+:
      input.map Prod.snd := by
  induction input generalizing s with
  | nil => exact List.prefix_refl _
  | cons turn rest ih =>
    rcases serve_cons codec s turn rest with ⟨-, hnil⟩ | ⟨line, reply, s', hread, -, hcons⟩
    · rw [hnil]
      exact List.nil_prefix
    · rw [hcons, List.map_cons, List.map_cons, hread]
      exact (List.prefix_cons_inj _).mpr (ih s')

/-- All of them are handled if nothing ends the process. -/
theorem handled_all (codec : Codec) (s : Server) {input : List (World × Except String String)}
    (h : ∀ turn ∈ input, Steady turn) :
    (serve codec s input).handled.map (fun h => (.ok h.1 : Except String String)) =
      input.map Prod.snd := by
  induction input generalizing s with
  | nil => rfl
  | cons turn rest ih =>
    obtain ⟨hsteady, hrest⟩ := List.forall_mem_cons.mp h
    rcases serve_cons codec s turn rest with ⟨hnot, -⟩ | ⟨line, reply, s', hread, -, hcons⟩
    · exact absurd hsteady hnot
    · rw [hcons, List.map_cons, List.map_cons, hread, ih s' hrest]

/-- **What the server promises**, for every session, every input and any behaviour of the
database and QuickBooks: the lines that are read are handled in their order, each of them is
answered or not as its id says, and if nothing ends the process all of them are handled; and a
call is refused exactly when its name is not listed, and then does nothing else. -/
theorem serves (codec : Codec) (s : Server) (input : List (World × Except String String)) :
    (∀ handled ∈ (serve codec s input).handled,
      Answered (expectedId codec handled.1) handled.2) ∧
    (serve codec s input).handled.map (fun h => (.ok h.1 : Except String String)) <+:
      input.map Prod.snd ∧
    ((∀ turn ∈ input, Steady turn) →
      (serve codec s input).handled.map (fun h => (.ok h.1 : Except String String)) =
        input.map Prod.snd) ∧
    ∀ (w : World) (name : String) (args : Json),
      (Refused (s.call codec w name args).outcome ↔ name ∉ listedNames s.qbo) ∧
      (Refused (s.call codec w name args).outcome →
        (s.call codec w name args).contacts = [] ∧ (s.call codec w name args).server = s) := by
  refine ⟨fun _ h => answered_of_mem codec s input h, handled_prefix codec s input,
    handled_all codec s, fun w name args => ?_⟩
  rcases s.call_cases codec w name args with ⟨hlisted, hnot⟩ | ⟨hnot, outcome, hrefused, hcall⟩
  · exact ⟨⟨fun h => absurd h hnot, fun h => absurd hlisted h⟩, fun h => absurd h hnot⟩
  · rw [hcall]
    exact ⟨⟨fun _ => hnot, fun _ => hrefused⟩, fun _ => ⟨rfl, rfl⟩⟩

/-- A world without a database. -/
def bareWorld : World where
  databaseUrl := .error "DATABASE_URL is not set; no database is configured for this job"
  connect := .ok ()
  query _ := .ok "(no rows)"
  tool _ _ _ := some (.error (.http "QuickBooks is down"))
  tool_ne _ _ _ h := by cases h
  written := true

/-- A parser that reads nothing, with the message for a line that has nothing in it. -/
def emptyCodec : Codec where
  parse _ := .error "EOF while parsing a value at line 1 column 0"
  display _ := ""
  debug s := s

/-- A blank line does not parse and gets no reply. -/
theorem blank_line_skipped :
    (serve emptyCodec ⟨false, none⟩ [(bareWorld, .ok "")]).handled.map Prod.snd = [none] ∧
    emptyCodec.parse "" = .error "EOF while parsing a value at line 1 column 0" := by
  have hblank : trim "" = "" := by decide +kernel
  refine ⟨?_, rfl⟩
  unfold serve
  rw [if_pos hblank]
  rfl

end JobRunner.Mcp
