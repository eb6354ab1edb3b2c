import JobRunner.Jobctl.Session
import JobRunner.Store.Effects

/-!
# From the broker's access to the session of `jobctl-mcp`

The runner writes the access and the requester of a job into six variables, and
`jobctl-mcp` reads them back. Whatever the runner itself inherited, a job sees its own
values of them or none.

- `environment_cases`: what the six variables hold.
- `fromEnv_ok`: what a session rests on.
- `acts_for_requester`: a session acts for the owner of the chat, and as an admin only if
  the payload says so.
- `agrees_iff`: the session is the one the runner meant **exactly when** the realm id is a
  number and the token is not blank.
-/

open Text Decimal Machine

namespace JobRunner

/-! ## What a job sees -/

/-- The six variables, as the runner sets them. -/
structure Granted (env : Env) (realmId token apiBase : String) (r : Requester) : Prop where
  accessToken : env "QBO_ACCESS_TOKEN" = some (utf8 token)
  realmId : env "QBO_REALM_ID" = some (utf8 realmId)
  apiBase : env "QBO_API_BASE" = some (utf8 apiBase)
  companyId : env "QBO_COMPANY_ID" = some (utf8 (toString r.companyId))
  userId : env "QBO_USER_ID" = some (utf8 (toString r.userId))
  isAdmin : env "QBO_REQUESTER_IS_ADMIN" = some (utf8 (if r.isAdmin then "1" else "0"))

namespace ClaudeConfig

variable {cfg : ClaudeConfig} {workspace : String} {inherited : Env}

/-- What `jobctl-mcp` inherits for its own variables is decided by the part about
QuickBooks: the removals come before it, and nothing after it is about them. -/
theorem environment_jobctl (requester : Option Requester) (qbo : Option QboJobAccess)
    {name : String} (h : name ∈ qboJobEnv) :
    (cfg.commandWithQbo workspace requester qbo).environment inherited name =
      (cfg.qboPart requester qbo
        ((runnerOnlyEnv ++ qboJobEnv).foldl EnvChanges.envRemove .none)).2.apply inherited name :=
  lastChanges_apply _ _ h

/-- A job with access and `jobctl-mcp` sees the runner's values, whatever the runner
itself has inherited under these names. -/
theorem environment_connected {jobctl : String} (hmcp : cfg.jobctlMcp = some jobctl)
    (r : Requester) (realmId token apiBase : String) :
    Granted ((cfg.commandWithQbo workspace (some r)
      (some (.connected realmId token apiBase))).environment inherited)
        realmId token apiBase r := by
  have hpart : ∀ changes, (cfg.qboPart (some r) (some (.connected realmId token apiBase))
      changes).2 =
      (((((changes.env "QBO_ACCESS_TOKEN" token).env "QBO_REALM_ID" realmId).env
        "QBO_API_BASE" apiBase).env "QBO_COMPANY_ID" (toString r.companyId)).env
        "QBO_USER_ID" (toString r.userId)).env
        "QBO_REQUESTER_IS_ADMIN" (if r.isAdmin then "1" else "0") := by
    intro changes
    unfold qboPart
    rw [hmcp]
  constructor <;> rw [environment_jobctl _ _ (by simp [qboJobEnv]), hpart] <;>
    simp [EnvChanges.env_apply]

/-- Any other job sees none of them: they are removed before the access is looked
at. -/
theorem environment_cases (requester : Option Requester) (qbo : Option QboJobAccess) :
    (∃ realmId token apiBase r, requester = some r ∧
      Granted ((cfg.commandWithQbo workspace requester qbo).environment inherited)
        realmId token apiBase r) ∨
    ∀ name ∈ qboJobEnv,
      (cfg.commandWithQbo workspace requester qbo).environment inherited name = none := by
  by_cases hconnected : ∃ realmId token apiBase r jobctl,
      qbo = some (.connected realmId token apiBase) ∧ requester = some r ∧
        cfg.jobctlMcp = some jobctl
  · obtain ⟨realmId, token, apiBase, r, jobctl, rfl, rfl, hmcp⟩ := hconnected
    exact .inl ⟨realmId, token, apiBase, r, rfl, environment_connected hmcp r _ _ _⟩
  · -- the `match` sets nothing, and the six variables were removed before it
    refine .inr fun name hname => ?_
    have hpart : ∀ changes, (cfg.qboPart requester qbo changes).2 = changes := by
      intro changes
      unfold qboPart
      split
      next realmId token apiBase r jobctl hmcp =>
        exact absurd ⟨realmId, token, apiBase, r, jobctl, rfl, rfl, hmcp⟩ hconnected
      · rfl
      · rfl
    rw [environment_jobctl _ _ hname, hpart, cleared_apply inherited hname]

end ClaudeConfig

/-! ## Reading the variables back -/

namespace Env

variable {env : Env} {name : String}

theorem var_none (h : env name = none) : env.var name = none := by
  unfold var
  rw [h]
  rfl

theorem var_utf8 {v : String} (h : env name = some (utf8 v)) :
    env.var name = if trim v = "" then none else some v := by
  unfold var
  rw [h, Option.bind_some, fromUtf8_utf8]
  by_cases hv : trim v = "" <;> simp [hv]

theorem required_utf8 {v : String} (h : env name = some (utf8 v)) (hv : trim v ≠ "") :
    env.required name = .ok v := by
  unfold required
  rw [var_utf8 h, if_neg hv]

/-- An id is printed, and read back if it is an `i64`. For another number the
variable is refused, so no session acts for a wrong id. -/
theorem id_utf8 {n : Int} (h : env name = some (utf8 (toString n))) :
    env.id name = (checked n).elim (.error (.config (name ++ " is not a number"))) .ok := by
  have hne : trim (toString n) ≠ "" := by
    rw [trim_toString]
    exact fun hempty => toList_toString_ne_nil n (congrArg String.toList hempty)
  simp only [Env.id, required_utf8 h hne, Except.bind_ok, trim_toString, parseI64_toString_eq]
  cases checked n <;> rfl

theorem id_utf8_ok {n m : Int} (h : env name = some (utf8 (toString n)))
    (hid : env.id name = .ok m) : m = n := by
  rw [id_utf8 h] at hid
  rcases hchecked : checked n with _ | n'
  · rw [hchecked] at hid
    cases hid
  · rw [hchecked] at hid
    cases hid
    exact (checked_eq_some hchecked).1

end Env

variable {client : Except String Unit} {env : Env} {session : Session}

theorem Session.new_ok {apiBase realmId token : String} {scope : Scope}
    (h : Session.new client apiBase realmId token scope = .ok session) :
    isEntityId realmId = true ∧
      session = ⟨trimEndMatches '/' apiBase ++ "/v3/company/" ++ realmId, token, scope⟩ := by
  unfold Session.new at h
  split at h
  · cases h
  next hrealm =>
    split at h
    · cases h
    · cases h
      exact ⟨by simpa using hrealm, rfl⟩

/-- What a session rests on: every variable it needs was there, in order and not
blank. -/
theorem fromEnv_ok (h : fromEnv client env = .ok (some session)) :
    ∃ token realmId apiBase, env.var "QBO_ACCESS_TOKEN" = some token ∧
      env.required "QBO_REALM_ID" = .ok realmId ∧ env.required "QBO_API_BASE" = .ok apiBase ∧
      env.id "QBO_COMPANY_ID" = .ok session.scope.companyId ∧
      env.id "QBO_USER_ID" = .ok session.scope.userId ∧
      session.scope.isAdmin = decide (env.var "QBO_REQUESTER_IS_ADMIN" = some "1") ∧
      isEntityId realmId = true ∧ session.token = token ∧
      session.companyUrl = trimEndMatches '/' apiBase ++ "/v3/company/" ++ realmId := by
  unfold fromEnv at h
  split at h
  · cases h
  next token htoken =>
  obtain ⟨realmId, hrealm, h⟩ := Except.bind_eq_ok.mp h
  obtain ⟨apiBase, hbase, h⟩ := Except.bind_eq_ok.mp h
  obtain ⟨companyId, hcompany, h⟩ := Except.bind_eq_ok.mp h
  obtain ⟨userId, huser, h⟩ := Except.bind_eq_ok.mp h
  obtain ⟨s, hnew, h⟩ := Except.bind_eq_ok.mp h
  cases h
  obtain ⟨hentity, rfl⟩ := Session.new_ok hnew
  exact ⟨token, realmId, apiBase, htoken, hrealm, hbase, hcompany, huser, rfl, hentity, rfl, rfl⟩

theorem fromEnv_of_startSession (h : startSession client env = some session) :
    fromEnv client env = .ok (some session) := by
  unfold startSession at h
  split at h
  next s hs => rw [hs, h]
  · cases h

/-- Without the variables there is no session. -/
theorem not_granted {env : Env} (hnone : ∀ name ∈ qboJobEnv, env name = none) :
    fromEnv client env ≠ .ok (some session) := by
  intro h
  obtain ⟨token, -, -, htoken, -⟩ := fromEnv_ok h
  rw [Env.var_none (hnone _ (by simp [qboJobEnv]))] at htoken
  cases htoken

theorem trim_of_isEntityId {v : String} (h : isEntityId v = true) : trim v = v := by
  rw [isEntityId, Bool.and_eq_true, List.all_eq_true] at h
  exact trim_of_no_whitespace fun c hc => isWhitespace_of_isDigit (h.2 c hc)

theorem ne_empty_of_isEntityId {v : String} (h : isEntityId v = true) : v ≠ "" := by
  rintro rfl
  cases h

namespace Granted

variable {realmId token apiBase : String} {r : Requester}

/-- The session is about the requester. The ids that `jobctl-mcp` reads are the
printed ones, and the flag it reads is the requester's. -/
theorem scope_eq (hgranted : Granted env realmId token apiBase r)
    (h : fromEnv client env = .ok (some session)) :
    session.scope = ⟨r.companyId, r.userId, r.isAdmin⟩ := by
  obtain ⟨-, -, -, -, -, -, hcompany, huser, hadmin, -⟩ := fromEnv_ok h
  have hflag : env.var "QBO_REQUESTER_IS_ADMIN" = some (if r.isAdmin then "1" else "0") := by
    have hne : trim (if r.isAdmin then "1" else "0") ≠ "" := by
      cases r.isAdmin <;> decide +kernel
    rw [Env.var_utf8 hgranted.isAdmin, if_neg hne]
  have hscope : session.scope.isAdmin = r.isAdmin := by
    rw [hadmin, hflag]
    cases r.isAdmin <;> simp
  have hc := Env.id_utf8_ok hgranted.companyId hcompany
  have hu := Env.id_utf8_ok hgranted.userId huser
  rcases hs : session.scope with ⟨companyId, userId, isAdmin⟩
  rw [hs] at hscope hc hu
  simp only at hscope hc hu
  rw [hscope, hc, hu]

/-- The session of a numeric realm and a token that is not blank. Nothing of the
access is changed on the way, since no such value is trimmed. -/
theorem fromEnv_eq (hgranted : Granted env realmId token apiBase r)
    (hcompany : InRange r.companyId) (huser : InRange r.userId) (hbase : trim apiBase ≠ "")
    (hrealm : isEntityId realmId = true) (htoken : trim token ≠ "") :
    fromEnv (.ok ()) env = .ok (some
      ⟨trimEndMatches '/' apiBase ++ "/v3/company/" ++ realmId, token,
        ⟨r.companyId, r.userId, r.isAdmin⟩⟩) := by
  have hid : ∀ {name n}, env name = some (utf8 (toString n)) → InRange n →
      env.id name = .ok n := by
    intro name n h hn
    rw [Env.id_utf8 h, checked_of_inRange hn, Option.elim_some]
  -- digits are no whitespace, so the realm id is not taken for a missing one
  have hblank : trim realmId ≠ "" := by
    rw [trim_of_isEntityId hrealm]
    exact ne_empty_of_isEntityId hrealm
  have hnew : ∀ scope, Session.new (.ok ()) apiBase realmId token scope =
      .ok ⟨trimEndMatches '/' apiBase ++ "/v3/company/" ++ realmId, token, scope⟩ := by
    intro scope
    unfold Session.new
    rw [if_neg (by simp [hrealm])]
  have hfrom : ∃ scope, fromEnv (.ok ()) env = .ok (some
      ⟨trimEndMatches '/' apiBase ++ "/v3/company/" ++ realmId, token, scope⟩) := by
    refine ⟨⟨r.companyId, r.userId, env.var "QBO_REQUESTER_IS_ADMIN" = some "1"⟩, ?_⟩
    unfold fromEnv
    rw [Env.var_utf8 hgranted.accessToken, if_neg htoken]
    simp only [Env.required_utf8 hgranted.realmId hblank, Env.required_utf8 hgranted.apiBase hbase,
      hid hgranted.companyId hcompany, hid hgranted.userId huser, hnew, Except.bind_ok]
    rfl
  -- the scope read back is the requester's, whatever was printed
  obtain ⟨scope, hscope⟩ := hfrom
  rw [hscope]
  have heq := hgranted.scope_eq hscope
  simp only at heq
  rw [heq]

/-- `jobctl-mcp` has the session that the runner meant exactly when the realm id is a
number and the token is not blank. -/
theorem fromEnv_eq_iff (hgranted : Granted env realmId token apiBase r)
    (hcompany : InRange r.companyId) (huser : InRange r.userId) (hbase : trim apiBase ≠ "") :
    fromEnv (.ok ()) env = .ok (some
      ⟨trimEndMatches '/' apiBase ++ "/v3/company/" ++ realmId, token,
        ⟨r.companyId, r.userId, r.isAdmin⟩⟩) ↔
      isEntityId realmId = true ∧ trim token ≠ "" := by
  constructor
  · intro h
    obtain ⟨token', realmId', -, htoken', hrealm', -, -, -, -, hentity, -⟩ := fromEnv_ok h
    rw [Env.var_utf8 hgranted.accessToken] at htoken'
    -- with a blank token `from_env` ends without a session
    have htoken : trim token ≠ "" := by
      intro hblank
      rw [if_pos hblank] at htoken'
      cases htoken'
    refine ⟨?_, htoken⟩
    unfold Env.required at hrealm'
    rw [Env.var_utf8 hgranted.realmId] at hrealm'
    by_cases hblank : trim realmId = ""
    · rw [if_pos hblank] at hrealm'
      cases hrealm'
    · rw [if_neg hblank] at hrealm'
      cases hrealm'
      exact hentity
  · rintro ⟨hrealm, htoken⟩
    exact hgranted.fromEnv_eq hcompany huser hbase hrealm htoken

end Granted

/-! ## The session of a job -/

/-- The session of the `jobctl-mcp` of a job, which `claude` starts with its own
environment. -/
def jobSession (client : Except String Unit) (cfg : ClaudeConfig) (workspace : String)
    (requester : Option Requester) (access : Option QboJobAccess) (inherited : Env) :
    Option Session :=
  startSession client ((cfg.commandWithQbo workspace requester access).environment inherited)

variable {cfg : ClaudeConfig} {workspace : String} {requester : Option Requester}
  {access : Option QboJobAccess} {inherited : Env}

/-- A session is about the requester of the job: without a requester the variables
are missing, and there is none. -/
theorem jobSession_scope
    (h : jobSession client cfg workspace requester access inherited = some session) :
    ∃ r, requester = some r ∧ session.scope = ⟨r.companyId, r.userId, r.isAdmin⟩ := by
  have hfrom := fromEnv_of_startSession h
  rcases @ClaudeConfig.environment_cases cfg workspace inherited requester access with
    hgranted | hnone
  · obtain ⟨realmId, token, apiBase, r, hr, hgranted⟩ := hgranted
    exact ⟨r, hr, hgranted.scope_eq hfrom⟩
  · exact absurd hfrom (not_granted hnone)

/-- `true` and `1` are the only payload flags of an admin; a text or another number
is no flag. -/
theorem isAdmin_eq_true_iff {payload : Option Json} :
    isAdmin payload = true ↔
      payload.bind (·.get? "requester_is_admin") = some (.bool true) ∨
        payload.bind (·.get? "requester_is_admin") = some (.int 1) := by
  unfold isAdmin
  rcases payload.bind (·.get? "requester_is_admin") with _ | v
  · simp
  · cases v with
    | bool flag => simp [Json.asBool, Json.asI64]
    | int n =>
      simp only [Json.asBool, Json.asI64]
      by_cases hn : n = 1
      · simp [hn]
      · simp [hn]
    | _ => simp [Json.asBool, Json.asI64]

/-- **Identity.** Whatever the payload, the configuration, the access and the inherited
environment are, the session of a job acts for the owner of its chat, and runs an admin's
tool only if the payload has the flag. -/
theorem acts_for_requester {db : Database} {id : Int} {m : Message} {job : Job}
    (hm : db.jobRow id = some m) (hjob : db.get id = .ok (some job))
    (client : Except String Unit) (cfg : ClaudeConfig) (workspace : String)
    (access : Option QboJobAccess) (inherited : Env) :
    (∀ connection name session tool,
      Server.call (jobSession client cfg workspace job.requester access inherited) connection
        name = some (.ok (.tool session tool)) → tool.adminOnly = true →
      m.payload.bind (·.get? "requester_is_admin") = some (.bool true) ∨
        m.payload.bind (·.get? "requester_is_admin") = some (.int 1)) ∧
    ∀ session, jobSession client cfg workspace job.requester access inherited = some session →
      ∃ c, db.chats.find? m.chatId = some c ∧ session.scope.companyId = c.companyId ∧
        session.scope.userId = c.userId := by
  have hrequester : job.requester =
      (db.chats.find? m.chatId).map fun c => ⟨c.userId, c.companyId, isAdmin m.payload⟩ := by
    rw [Database.get_eq, hm] at hjob
    cases hjob
    rfl
  have hscope : ∀ session,
      jobSession client cfg workspace job.requester access inherited = some session →
      ∃ c, db.chats.find? m.chatId = some c ∧
        session.scope = ⟨c.companyId, c.userId, isAdmin m.payload⟩ := by
    intro session hsession
    obtain ⟨r, hr, hscope⟩ := jobSession_scope hsession
    rw [hrequester] at hr
    obtain ⟨c, hc, rfl⟩ := Option.map_eq_some_iff.mp hr
    exact ⟨c, hc, hscope⟩
  constructor
  · intro connection name session tool hcall hadmin
    obtain ⟨hsession, hauth⟩ := Server.call_runs hcall
    obtain ⟨c, -, hs⟩ := hscope session hsession
    have hflag := hauth hadmin
    rw [hs] at hflag
    exact isAdmin_eq_true_iff.mp hflag
  · intro session hsession
    obtain ⟨c, hc, hs⟩ := hscope session hsession
    exact ⟨c, hc, by rw [hs], by rw [hs]⟩

/-- A runner with `jobctl-mcp`, otherwise with the defaults. -/
def sampleConfig : ClaudeConfig where
  binary := "claude"
  model := none
  maxTurns := 50
  maxBudgetUsd := none
  permissionMode := .acceptEdits
  effort := .xHigh
  allowedDomains := []
  persistSessions := false
  configDir := none
  mcpConfig := none
  jobctlMcp := some "jobctl-mcp"
  agentDatabaseUrl := none

/-- A question of user 3 of company 4, an admin. -/
def adminQuestion : Message :=
  ⟨1, 7, .user, ⟨"x", Text.sample_fits⟩, some 1,
    some (.obj [("requester_is_admin", .bool true)]), .new⟩

def adminDb : Database := .single ⟨7, 3, 4⟩ adminQuestion rfl

def adminSession : Session :=
  ⟨"https://quickbooks.api.intuit.com/v3/company/9130", "access-1", ⟨4, 3, true⟩⟩

/-- The admin's session runs `query`. -/
theorem admin_runs_query :
    (∃ session, Server.call (jobSession (.ok ()) sampleConfig "/srv/job-1"
        (adminDb.toJob adminQuestion).requester
        (some (.connected "9130" "access-1" "https://quickbooks.api.intuit.com"))
        (fun _ => none)) (.ok ()) "qbo_query" = some (.ok (.tool session .query))) ∧
      (adminQuestion.payload.bind (·.get? "requester_is_admin") = some (.bool true) ∨
        adminQuestion.payload.bind (·.get? "requester_is_admin") = some (.int 1)) := by
  have hm : adminDb.jobRow 1 = some adminQuestion :=
    Database.jobRow_eq_some_iff.mpr ⟨List.mem_singleton_self _, rfl, rfl⟩
  have hjob : adminDb.get 1 = .ok (some (adminDb.toJob adminQuestion)) := by
    rw [Database.get_eq, hm, Option.map_some]
  have hsession : jobSession (.ok ()) sampleConfig "/srv/job-1"
      (adminDb.toJob adminQuestion).requester
      (some (.connected "9130" "access-1" "https://quickbooks.api.intuit.com"))
      (fun _ => none) = some adminSession := by
    unfold jobSession startSession
    rw [show (adminDb.toJob adminQuestion).requester = some ⟨3, 4, true⟩ from rfl,
      (ClaudeConfig.environment_connected rfl _ _ _ _).fromEnv_eq (by decide) (by decide)
        (by decide +kernel) (by decide +kernel) (by decide +kernel)]
    decide +kernel
  have hcall := @Server.call_of_may adminSession .query fun _ => rfl
  rw [show "qbo_" ++ Tool.query.name = "qbo_query" from rfl, ← hsession] at hcall
  exact ⟨⟨_, hcall⟩, (acts_for_requester hm hjob _ _ _ _ _).1 _ _ _ _ hcall rfl⟩

/-! ## The two ends of an access -/

variable {A : Crypto} {b : Broker A} {parse : String → Except String TokenSet}

/-- **Exactly when the two crates agree.** An access that the broker hands out reaches
`jobctl-mcp` as it is when its realm id is a number of at most 32 digits and its token is
not blank, and in no other case, while the model is told of the tools in all of them. -/
theorem agrees_iff {row : Option CompanyRow} {s : Script parse} {realmId token apiBase : String}
    (hcall : (b.tryAccess row s).ending = .returned (.ok (.connected realmId token apiBase)))
    {cfg : ClaudeConfig} {jobctl : String} (hmcp : cfg.jobctlMcp = some jobctl)
    (workspace : String) (userId companyId : Int64) (isAdmin : Bool) (inherited : Env) :
    let cmd := cfg.commandWithQbo workspace (some ⟨userId.toInt, companyId.toInt, isAdmin⟩)
      (some (.connected realmId token apiBase))
    .quickBooks isAdmin ∈ cmd.prompt ∧
      (fromEnv (.ok ()) (cmd.environment inherited) = .ok (some
        ⟨trimEndMatches '/' apiBase ++ "/v3/company/" ++ realmId, token,
          ⟨companyId.toInt, userId.toInt, isAdmin⟩⟩) ↔
        isEntityId realmId = true ∧ trim token ≠ "") := by
  constructor
  · rw [ClaudeConfig.prompt_commandWithQbo]
    unfold ClaudeConfig.systemPrompt ClaudeConfig.qboPart
    simp [hmcp]
  · have hbase : trim apiBase ≠ "" := by
      rw [Broker.tryAccess_apiBase hcall]
      cases b.environment <;> decide +kernel
    exact (ClaudeConfig.environment_connected hmcp _ _ _ _).fromEnv_eq_iff (inRange_toInt _)
      (inRange_toInt _) hbase

/-- The refreshed token of `sampleRow`, whose realm id is `9130`, arrives. -/
theorem sample_agrees :
    fromEnv (.ok ()) ((sampleConfig.commandWithQbo "/srv/job-1" (some ⟨3, 4, true⟩)
      (some (.connected "9130" "access-2" "https://sandbox-quickbooks.api.intuit.com"))).environment
        (fun _ => none)) = .ok (some
      ⟨trimEndMatches '/' "https://sandbox-quickbooks.api.intuit.com" ++ "/v3/company/" ++ "9130",
        "access-2", ⟨4, 3, true⟩⟩) := by
  have hcall := @tryAccess_sample 3600 (by decide)
  have hmcp : sampleConfig.jobctlMcp = some "jobctl-mcp" := rfl
  exact (agrees_iff hcall hmcp "/srv/job-1" 3 4 true fun _ => none).2.mpr
    ⟨by decide +kernel, by decide +kernel⟩

/-- `sampleRow` with a realm id that is not a number; its token lasts. -/
def letteredRow : CompanyRow := { sampleRow 100000 with realmId := some "12a" }

/-- The broker hands out the access, the model is told of the tools, and `jobctl-mcp`
refuses the realm id. -/
theorem lettered_realm_refused :
    ((sampleBroker 3600).tryAccess (some letteredRow) sampleScript).ending = .returned (.ok
        (.connected "12a" "access-1" "https://sandbox-quickbooks.api.intuit.com")) ∧
      (.quickBooks true ∈ (sampleConfig.commandWithQbo "/srv/job-1" (some ⟨3, 4, true⟩)
        (some (.connected "12a" "access-1"
          "https://sandbox-quickbooks.api.intuit.com"))).prompt) ∧
      fromEnv (.ok ()) ((sampleConfig.commandWithQbo "/srv/job-1" (some ⟨3, 4, true⟩)
        (some (.connected "12a" "access-1"
          "https://sandbox-quickbooks.api.intuit.com"))).environment fun _ => none) =
        .error (.invalidRealm "12a") := by
  have hconnection : letteredRow.connection = some ⟨"12a", utf8 (sampleStored "access-1"),
      utf8 (sampleStored "refresh-1"), 100000, 9000000⟩ := by
    have hrealm : trim "12a" = "12a" := by decide +kernel
    have hne : ¬ "12a" = "" := by decide
    simp only [CompanyRow.connection, letteredRow, sampleRow, Option.map_some, Option.getD_some,
      hrealm, if_neg hne]
  have hleft : sub (sampleBroker 3600).overflow 100000 1000 = some 99000 := rfl
  have hplan : (sampleBroker 3600).plan (some letteredRow) 1000 =
      .reuse ((sampleBroker 3600).connected "12a" "access-1") :=
    Broker.plan_reuse rfl hconnection hleft (by decide) (decrypt_sample "access-1")
  refine ⟨?_, ?_, ?_⟩
  · have hclock : unixNow sampleScript.clock = 1000 := rfl
    unfold Broker.tryAccess
    rw [hclock, hplan]
    rfl
  · rw [ClaudeConfig.prompt_commandWithQbo]
    simp [ClaudeConfig.systemPrompt, ClaudeConfig.qboPart, sampleConfig]
  · have hmcp : sampleConfig.jobctlMcp = some "jobctl-mcp" := rfl
    have hgranted := @ClaudeConfig.environment_connected sampleConfig "/srv/job-1" (fun _ => none)
      "jobctl-mcp" hmcp ⟨3, 4, true⟩ "12a" "access-1" "https://sandbox-quickbooks.api.intuit.com"
    unfold fromEnv
    rw [Env.var_utf8 hgranted.accessToken, if_neg (by decide +kernel)]
    have hcompany := Env.id_utf8 hgranted.companyId
    have huser := Env.id_utf8 hgranted.userId
    simp only [checked_of_inRange (show InRange 4 by decide),
      checked_of_inRange (show InRange 3 by decide), Option.elim_some] at hcompany huser
    simp only [Env.required_utf8 hgranted.realmId (by decide +kernel),
      Env.required_utf8 hgranted.apiBase (by decide +kernel), hcompany, huser, Except.bind_ok]
    have hnew : ∀ scope, Session.new (.ok ()) "https://sandbox-quickbooks.api.intuit.com" "12a"
        "access-1" scope = .error (.invalidRealm "12a") := by
      intro scope
      unfold Session.new
      rw [if_pos (by decide +kernel)]
    rw [hnew]
    rfl

end JobRunner
