import JobRunner.Jobctl.Tools
import JobRunner.Mcp.Server

/-!
# One company's data

The database holds many companies. `sql` reads all of it, and only the prompt holds the model
back; the QuickBooks tools read a company's rows themselves.

- `Turn`: one line of input, with the tools of `jobctl` behind it.
- `run_congr`: a tool does the same on two databases that hold the same of its company.
- `serve_congr`: so does the server, wherever its world looks the same to it.
- `replies_depend_on_company`: the replies to everything but `sql` tell nothing of others.
-/

namespace JobRunner

namespace Jobctl

/-! ## The tools -/

/-- Two databases hold the same of a company: its live customers, and its users. -/
structure Crm.SameCompany (companyId : Int) (crm crm' : Crm) : Prop where
  customers : crm.live companyId = crm'.live companyId
  users : crm.users.filter (·.companyId = companyId) =
    crm'.users.filter (·.companyId = companyId)

/-- What the statements of a tool find: the same error, or the same of the company. -/
inductive SameFound (companyId : Int) : Except SqlError Crm → Except SqlError Crm → Prop where
  | failed (err : SqlError) : SameFound companyId (.error err) (.error err)
  | found {crm crm' : Crm} (h : crm.SameCompany companyId crm') :
      SameFound companyId (.ok crm) (.ok crm')

variable {companyId : Int} {crm crm' : Crm}

/-- The links of a company are found in its own rows. -/
theorem linkedCrmCustomers_congr (h : crm.SameCompany companyId crm') (qboIds : List String) :
    linkedCrmCustomers (.ok crm) companyId qboIds =
      linkedCrmCustomers (.ok crm') companyId qboIds := by
  unfold linkedCrmCustomers
  simp only [h.customers]

theorem customer?_congr (h : crm.SameCompany companyId crm') (id : Int) :
    crm.customer? companyId id = crm'.customer? companyId id := by
  unfold Crm.customer?
  rw [h.customers]

/-- The user is looked up among the users of the company, so an id of another
company's user finds nobody. -/
theorem userName_eq (crm : Crm) (scope : Scope) :
    crm.userName scope =
      (((crm.users.filter (·.companyId = scope.companyId)).find? (·.id = scope.userId)).bind
        User.name).getD "" := by
  unfold Crm.userName
  rw [List.find?_filter]
  congr 3
  funext u
  rw [Bool.and_comm]
  simp

theorem userName_congr {scope : Scope} (h : crm.SameCompany scope.companyId crm') :
    crm.userName scope = crm'.userName scope := by
  rw [userName_eq, userName_eq, h.users]

/-- A tool does the same, from its questions to its result. The tools ask the
database for customers, links and the user's name, and each of these is found in the
company's rows. -/
theorem run_congr (P : Platform) {session : Session} {crm crm' : Except SqlError Crm}
    (h : SameFound session.scope.companyId crm crm') (args : Json) (t : Tool) :
    t.run P session crm args = t.run P session crm' args := by
  cases h with
  | failed err => rfl
  | found h =>
    cases t with
    | searchCustomers => simp only [Tool.run, searchCustomers, linkedCrmCustomers_congr h]
    | customerInvoices =>
      simp only [Tool.run, customerInvoices, crmCustomerInvoices, linkedCrmCustomers_congr h,
        customer?_congr h]
    | invoice => simp only [Tool.run, invoice, linkedCrmCustomers_congr h]
    | salesRep => simp only [Tool.run, salesRep, userName_congr h]
    -- the tools for admins read nothing of the database
    | invoicesInRange | classSales | query | report => rfl

end Jobctl

namespace Mcp

open Jobctl

/-! ## The server -/

variable {codec : Codec} {w w' : World} {s : Server}

/-- Two worlds look the same to a server with this session, but for `sql`. -/
structure World.Alike (qbo : Option Session) (w w' : World) : Prop where
  databaseUrl : w.databaseUrl = w'.databaseUrl
  connect : w.connect = w'.connect
  written : w.written = w'.written
  tool : ∀ session, qbo = some session → ∀ t args, w.tool session t args = w'.tool session t args

theorem connection_congr (h : w.Alike s.qbo w') : s.connection w = s.connection w' := by
  unfold Server.connection Mcp.connect
  rw [h.databaseUrl, h.connect]

/-- A call comes to the same, apart from `sql`, whose statement may read what the
login allows. -/
theorem call_congr (h : w.Alike s.qbo w') {name : String}
    (hsql : name = "sql" → w.query = w'.query) (args : Json) :
    s.call codec w name args = s.call codec w' name args := by
  unfold Server.call
  split
  next hname =>
    unfold Server.sql
    rw [connection_congr h, hsql hname]
  · split
    · rfl
    · unfold Server.qboCall
      rw [connection_congr h]
      cases hqbo : s.qbo with
      | none => rfl
      | some session =>
        unfold Server.runTool
        simp only [h.tool session hqbo]

/-- The line calls `sql`. -/
def CallsSql (codec : Codec) (line : String) : Prop :=
  ∃ message, codec.parse line = .ok message ∧ (message.get? "id").isSome = true ∧
    (message.index "method").asStr = some "tools/call" ∧
    ((message.index "params").index "name").asStr = some "sql"

theorem getD_asStr {value : Json} {text : String} (hne : text ≠ "")
    (h : value.asStr.getD "" = text) : value.asStr = some text := by
  cases hstr : value.asStr with
  | none =>
    rw [hstr] at h
    exact absurd h.symm hne
  | some found =>
    rw [hstr] at h
    exact congrArg some h

theorem answer_congr (h : w.Alike s.qbo w') {line : String}
    (hsql : CallsSql codec line → w.query = w'.query) :
    answer codec w s line = answer codec w' s line := by
  unfold answer
  cases hparse : codec.parse line with
  | error err => rfl
  | ok message =>
    show s.handle codec w message = s.handle codec w' message
    unfold Server.handle
    cases hid : message.get? "id" with
    | none => rfl
    | some id =>
      dsimp only
      by_cases hmethod : (message.index "method").asStr.getD "" = "tools/call"
      · have hcall (args : Json) :
            s.call codec w (((message.index "params").index "name").asStr.getD "") args =
              s.call codec w' (((message.index "params").index "name").asStr.getD "") args :=
          call_congr h (fun hname => hsql ⟨message, hparse, by simp [hid],
            getD_asStr (by decide) hmethod, getD_asStr (by decide) hname⟩) args
        rw [hcall]
      · simp only [if_neg hmethod]

theorem forgetBrokenConnection_qbo {α : Type} (outcome : Except ToolError α) :
    (s.forgetBrokenConnection outcome).qbo = s.qbo := by
  unfold Server.forgetBrokenConnection
  split <;> rfl

theorem connection_qbo {s' : Server} {contacts : List Contact}
    (h : s.connection w = (.ok s', contacts)) : s'.qbo = s.qbo := by
  unfold Server.connection at h
  split at h
  · cases h
    rfl
  · cases hconnect : (Mcp.connect w).1 with
    | error err =>
      rw [hconnect] at h
      cases h
    | ok _ =>
      rw [hconnect] at h
      cases h
      rfl

/-- A call keeps the session. -/
theorem call_qbo (codec : Codec) (w : World) (s : Server) (name : String) (args : Json) :
    (s.call codec w name args).server.qbo = s.qbo := by
  unfold Server.call
  split
  · unfold Server.sql
    split
    · rfl
    · split
      · rfl
      next hconn => exact (forgetBrokenConnection_qbo _).trans (connection_qbo hconn)
  · split
    · rfl
    · unfold Server.qboCall
      split
      · rfl
      · split
        · rfl
        · rfl
        · split
          · rfl
          next hconn =>
            split
            · exact connection_qbo hconn
            · exact (forgetBrokenConnection_qbo _).trans (connection_qbo hconn)
            · unfold Server.runTool
              split
              · exact connection_qbo hconn
              · exact (forgetBrokenConnection_qbo _).trans (connection_qbo hconn)

theorem answer_qbo (codec : Codec) (w : World) (s : Server) (line : String) :
    (answer codec w s line).server.qbo = s.qbo := by
  unfold answer
  split
  · unfold Server.handle
    split
    · rfl
    · dsimp only
      repeat' split
      all_goals first | rfl | exact call_qbo _ _ _ _ _
  · rfl

/-- **Congruence of the loop.** Two inputs with the same lines are served the same,
if every line finds a world that looks the same, and the same answer of the database
where it calls `sql`. By induction on the input, as the server keeps its session. -/
theorem serve_congr {qbo : Option Session} (hqbo : s.qbo = qbo)
    {input input' : List (World × Except String String)}
    (h : List.Forall₂ (fun turn turn' => turn.2 = turn'.2 ∧ turn.1.Alike qbo turn'.1 ∧
      ∀ line, turn.2 = .ok line → CallsSql codec line → turn.1.query = turn'.1.query)
      input input') :
    serve codec s input = serve codec s input' := by
  induction h generalizing s with
  | nil => rfl
  | @cons turn turn' rest rest' hturn hrest ih =>
    obtain ⟨w, read⟩ := turn
    obtain ⟨w', read'⟩ := turn'
    obtain ⟨hread, halike, hsql⟩ := hturn
    dsimp only at hread
    subst hread
    cases read with
    | error err => rfl
    | ok line =>
      have hsame : answer codec w s line = answer codec w' s line := by
        subst hqbo
        exact answer_congr halike (hsql line rfl)
      have hlater := ih ((answer_qbo codec w' s line).trans hqbo)
      rw [serve, serve, hsame, halike.written, ih hqbo]
      -- the session of the server is still the same behind the line
      dsimp only
      rw [hlater]

/-! ## With the tools of `jobctl` -/

/-- One line of input, and what it meets. -/
structure Turn where
  line : Except String String
  databaseUrl : Except String Unit
  connect : Except SqlError Unit
  query : String → Except SqlError String
  crm : Except SqlError Crm
  answers : Request → Answer
  written : Bool

/-- The world of a turn: a call runs the tool. -/
def Turn.world (P : Platform) (turn : Turn) : World where
  databaseUrl := turn.databaseUrl
  connect := turn.connect
  query := turn.query
  tool session t args := some ((t.run P session turn.crm args).eval turn.answers)
  tool_ne session t args h := by
    have hmeets : (t.run P session turn.crm args).Meets (toolContract true) :=
      run_meets session turn.crm args fun _ => rfl
    exact hmeets.error_of_eval (Option.some.inj h) rfl
  written := turn.written

/-- `serve` with the tools of `jobctl`. -/
def serveTools (P : Platform) (codec : Codec) (s : Server) (turns : List Turn) : Serving :=
  serve codec s (turns.map fun turn => (turn.world P, turn.line))

/-- Two turns that differ in what the database holds of other companies, and in what `sql`
answers where the line does not call it. -/
structure Turn.SameFor (codec : Codec) (companyId : Int) (turn turn' : Turn) : Prop where
  line : turn.line = turn'.line
  databaseUrl : turn.databaseUrl = turn'.databaseUrl
  connect : turn.connect = turn'.connect
  query : ∀ line, turn.line = .ok line → CallsSql codec line → turn.query = turn'.query
  crm : SameFound companyId turn.crm turn'.crm
  answers : turn.answers = turn'.answers
  written : turn.written = turn'.written

/-- **Isolation.** Along every input, what a session's server replies is the same for any two
databases that hold the same of the session's company, apart from the answers to `sql`. -/
theorem replies_depend_on_company (P : Platform) (codec : Codec) (conn : Bool)
    (session : Session) {turns turns' : List Turn}
    (h : List.Forall₂ (Turn.SameFor codec session.scope.companyId) turns turns') :
    serveTools P codec ⟨conn, some session⟩ turns =
      serveTools P codec ⟨conn, some session⟩ turns' := by
  refine serve_congr rfl (List.forall₂_map_left_iff.mpr (List.forall₂_map_right_iff.mpr (h.imp ?_)))
  intro turn turn' hsame
  refine ⟨hsame.line, ⟨hsame.databaseUrl, hsame.connect, hsame.written, ?_⟩, hsame.query⟩
  rintro _ ⟨⟩ t args
  show some _ = some _
  rw [run_congr P hsame.crm, hsame.answers]

/-- A call of `qbo_search_customers`. -/
def searchLine : String :=
  "\x7b\"jsonrpc\":\"2.0\",\"id\":1,\"method\":\"tools/call\",\"params\":" ++
    "\x7b\"name\":\"qbo_search_customers\",\"arguments\":\x7b\"name\":\"Acme\"\x7d\x7d\x7d"

/-- A text in quotes, for texts without control characters; `"` is 34, a backslash 92. -/
def printedText (s : String) : String :=
  "\"" ++ String.ofList (s.toList.flatMap fun c =>
    if c.toNat = 34 ∨ c.toNat = 92 then [Char.ofNat 92, c] else [c]) ++ "\""

mutual

/-- `Value::to_string`, for such texts. -/
def printed : Json → String
  | .null => "null"
  | .bool b => toString b
  | .int n => toString n
  | .dec m e => toString m ++ "e" ++ toString e
  | .str s => printedText s
  | .arr items => "[" ++ ",".intercalate (printedItems items) ++ "]"
  | .obj members => "\x7b" ++ ",".intercalate (printedMembers members) ++ "\x7d"

def printedItems : List Json → List String
  | [] => []
  | item :: items => printed item :: printedItems items

def printedMembers : List (String × Json) → List String
  | [] => []
  | (key, value) :: members => (printedText key ++ ":" ++ printed value) :: printedMembers members

end

/-- `serde_json` on `searchLine`, and on the customers that it finds. -/
def searchCodec : Codec where
  parse line :=
    if line = searchLine then
      .ok (.obj [("jsonrpc", .str "2.0"), ("id", .int 1), ("method", .str "tools/call"), ("params",
        .obj [("name", .str "qbo_search_customers"), ("arguments", .obj [("name", .str "Acme")])])])
    else .error "expected value at line 1 column 1"
  display := printed
  debug := printedText

/-- A search, with these customers in the database. -/
def searchTurn (customers : List Customer) : Turn where
  line := .ok searchLine
  databaseUrl := .ok ()
  connect := .ok ()
  query _ := .ok "(no rows)"
  crm := .ok ⟨customers, []⟩
  answers _ := .queried "Customer" [.obj [("Id", .str "9"), ("DisplayName", .str "Acme")]]
  written := true

/-- The reply: QuickBooks has the customer, and so has company 4. -/
def searchReply : String :=
  "\x7b\"jsonrpc\":\"2.0\",\"id\":1,\"result\":\x7b\"content\":[\x7b\"type\":\"text\",\"text\":" ++
    printedText ("[\x7b\"qboCustomerId\":\"9\",\"displayName\":\"Acme\",\"email\":null," ++
      "\"crmCustomers\":[\x7b\"customerId\":1,\"name\":\"Acme\"\x7d]\x7d]") ++
    "\x7d],\"isError\":false\x7d\x7d"

/-- Company 4 finds the same whether or not company 5 has the customer too. -/
theorem search_tells_nothing :
    serveTools wholePlatform searchCodec ⟨false, some plainSession⟩
        [searchTurn [⟨1, 4, some "Acme", some 9, none, false⟩]] =
      serveTools wholePlatform searchCodec ⟨false, some plainSession⟩
        [searchTurn [⟨1, 4, some "Acme", some 9, none, false⟩,
          ⟨2, 5, some "Acme", some 9, none, false⟩]] ∧
    (serveTools wholePlatform searchCodec ⟨false, some plainSession⟩
        [searchTurn [⟨1, 4, some "Acme", some 9, none, false⟩]]).handled.map
          (fun handled => handled.2.map printed) = [some searchReply] := by
  refine ⟨replies_depend_on_company wholePlatform searchCodec false plainSession
    (.cons ⟨rfl, rfl, rfl, ?_, .found ⟨?_, rfl⟩, rfl, rfl⟩ .nil), ?_⟩
  · intro line _ _
    rfl
  · decide
  · decide +kernel

end Mcp

end JobRunner
