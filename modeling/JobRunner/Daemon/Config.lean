import JobRunner.Claude.Secrets
import JobRunner.Daemon.Startup
import JobRunner.Lib.Ascent

/-!
# The configuration (`config.rs`)

`Config::from_env` reads the environment variable by variable and stops at the first that is
missing or cannot be parsed. A blank variable counts as one that is not set.

- `raw`, `required`, `optional`, `list`: the readers.
- `claudeFromEnv`, `Config.fromEnv`: what is read, in the order of the source.
- `order`: the variables in this order.
- `config_errors_advance`: whoever mends the variable of an error gets past it.
- `config_withholds_secrets`: no job depends on the secrets among them.
-/

open Decimal Dialogue Text

namespace JobRunner

/-! ## Readers -/

/-- `ConfigError`. -/
inductive ConfigError where
  | missing (name : String)
  | invalid (name reason : String)
deriving DecidableEq, Repr

/-- The variable an error names. -/
def ConfigError.name : ConfigError → String
  | missing name => name
  | invalid name _ => name

/-- `{0}` of the error. -/
def ConfigError.text : ConfigError → String
  | missing name => "missing required environment variable " ++ name
  | invalid name reason => "invalid value for " ++ name ++ ": " ++ reason

namespace Config

/-- A computation that reads variables. -/
abbrev Reader (α : Type) := Dialogue String (Option (List UInt8)) ConfigError α

/-- `raw`. -/
def raw (name : String) : Reader (Option String) := do
  match ← query name with
  | none => return none
  | some bytes =>
    match fromUtf8 bytes with
    | none => fail (.invalid name "not valid unicode")
    | some value => return if trim value = "" then none else some value

/-- `required`. -/
def required (name : String) : Reader String := do
  match ← raw name with
  | none => fail (.missing name)
  | some value => return value

/-- `optional`; `parse` is `FromStr`, its errors as texts. -/
def optional {α : Type} (parse : String → Except String α) (name : String) :
    Reader (Option α) := do
  match ← raw name with
  | none => return none
  | some value =>
    match parse (trim value) with
    | .error reason => fail (.invalid name reason)
    | .ok a => return some a

/-- `list`. -/
def list (name : String) : Reader (List String) := do
  match ← raw name with
  | none => return []
  | some value =>
    return (((value.toList.splitOn ',').map fun item => trim (String.ofList item)).filter
      fun item => item ≠ "")

/-! ## Values -/

/-- `str::parse::<NonZeroUsize>`. -/
def parseNonZero (s : String) : Except String Nat :=
  match parseUnsigned 18446744073709551616 s with
  | .error err => .error err
  | .ok 0 => .error "number would be zero for non-zero type"
  | .ok n => .ok n

/-- `str::parse::<bool>`. -/
def parseBool (s : String) : Except String Bool :=
  if s = "true" then .ok true
  else if s = "false" then .ok false
  else .error "provided string was not `true` or `false`"

end Config

/-- Other parts of the standard library. -/
structure ConfigTexts where
  /-- `f64` and `SocketAddr`, parsed and written again. -/
  f64 : String → Except String String
  socketAddr : String → Except String String
  /-- The `Debug` form of a text. -/
  debug : String → String

/-- `PermissionMode::from_str`. -/
def PermissionMode.fromStr (texts : ConfigTexts) (s : String) : Except String PermissionMode :=
  if s = "acceptEdits" then .ok .acceptEdits
  else if s = "bypassPermissions" then .ok .bypassPermissions
  else .error ("unknown permission mode " ++ texts.debug s ++
    ": expected acceptEdits or bypassPermissions")

/-- `Effort::from_str`. -/
def Effort.fromStr (texts : ConfigTexts) (s : String) : Except String Effort :=
  if s = "low" then .ok .low
  else if s = "medium" then .ok .medium
  else if s = "high" then .ok .high
  else if s = "xhigh" then .ok .xHigh
  else if s = "max" then .ok .max
  else .error ("unknown effort level " ++ texts.debug s ++
    ": expected low, medium, high, xhigh or max")

/-- `QboConfig`. -/
structure QboConfig where
  aesKeyHex : String
  clientId : Option String
  clientSecret : Option String
  environment : QboEnvironment
deriving DecidableEq

/-- `QboEnvironment::from_env_value`. -/
def QboEnvironment.fromEnvValue (raw : String) : QboEnvironment :=
  if trim raw = "production" then .production else .sandbox

/-! ## The configuration -/

/-- `Config`, with durations in seconds. -/
structure Config where
  databaseUrl : String
  dbMaxConnections : Nat
  workspaceRoot : String
  pollIntervalSecs : Nat
  maxConcurrentJobs : Nat
  httpAddr : String
  requeuePendingOnStart : Bool
  claude : ClaudeConfig
  claudeTimeoutSecs : Nat
  qbo : Option QboConfig

namespace Config

/-- Texts and paths are any text. -/
def parseText (s : String) : Except String String := .ok s

/-- `jobctl_mcp`; `sibling` is the file next to this executable, if there is one. -/
def jobctlMcpFromEnv (sibling : Option String) : Reader (Option String) := do
  match ← optional parseText "JOBCTL_MCP_BIN" with
  | some path => return some path
  | none => return sibling

/-- `ClaudeConfig` of `from_env`, and its timeout. -/
def claudeFromEnv (texts : ConfigTexts) (sibling : Option String) :
    Reader (ClaudeConfig × Nat) := do
  let binary ← optional parseText "CLAUDE_BIN"
  let model ← optional parseText "CLAUDE_MODEL"
  let maxTurns ← optional (parseUnsigned 4294967296) "CLAUDE_MAX_TURNS"
  let maxBudgetUsd ← optional texts.f64 "CLAUDE_MAX_BUDGET_USD"
  let timeout ← optional (parseUnsigned 18446744073709551616) "CLAUDE_TIMEOUT_SECS"
  let permissionMode ← optional (PermissionMode.fromStr texts) "CLAUDE_PERMISSION_MODE"
  let effort ← optional (Effort.fromStr texts) "CLAUDE_EFFORT"
  let allowedDomains ← list "CLAUDE_ALLOWED_DOMAINS"
  let persistSessions ← optional parseBool "CLAUDE_PERSIST_SESSIONS"
  let configDir ← optional parseText "CLAUDE_CONFIG_DIR"
  let mcpConfig ← optional parseText "CLAUDE_MCP_CONFIG"
  let jobctlMcp ← jobctlMcpFromEnv sibling
  let agentDatabaseUrl ← optional parseText "AGENT_DATABASE_URL"
  return ({
    binary := binary.getD "claude"
    model := some (model.getD "opus")
    maxTurns := .ofNat (maxTurns.getD 50)
    maxBudgetUsd := maxBudgetUsd
    permissionMode := permissionMode.getD .acceptEdits
    effort := effort.getD .low
    allowedDomains := allowedDomains
    persistSessions := persistSessions.getD false
    configDir := configDir
    mcpConfig := mcpConfig
    jobctlMcp := jobctlMcp
    agentDatabaseUrl := agentDatabaseUrl }, timeout.getD (30 * 60))

/-- `qbo`. -/
def qboFromEnv : Reader (Option QboConfig) := do
  match ← raw "AES_KEY" with
  | none => return none
  | some aesKeyHex =>
    let clientId ← raw "QBO_CLIENT_ID"
    let clientSecret ← raw "QBO_CLIENT_SECRET"
    let environment ← raw "QBO_ENV"
    return some ⟨aesKeyHex, clientId, clientSecret, .fromEnvValue (environment.getD "")⟩

/-- `Config::from_env`. -/
def fromEnv (texts : ConfigTexts) (sibling : Option String) : Reader Config := do
  let (claude, timeout) ← claudeFromEnv texts sibling
  let databaseUrl ← required "DATABASE_URL"
  let dbMaxConnections ← optional (parseUnsigned 4294967296) "DB_MAX_CONNECTIONS"
  let workspaceRoot ← optional parseText "WORKSPACE_ROOT"
  let pollInterval ← optional (parseUnsigned 18446744073709551616) "POLL_INTERVAL_SECS"
  let maxConcurrentJobs ← optional parseNonZero "MAX_CONCURRENT_JOBS"
  let httpAddr ← optional texts.socketAddr "HTTP_ADDR"
  let requeuePendingOnStart ← optional parseBool "REQUEUE_PENDING_ON_START"
  let qbo ← qboFromEnv
  return {
    databaseUrl := databaseUrl
    dbMaxConnections := dbMaxConnections.getD 5
    workspaceRoot := workspaceRoot.getD "workspaces"
    pollIntervalSecs := pollInterval.getD 5
    maxConcurrentJobs := maxConcurrentJobs.getD 1
    httpAddr := httpAddr.getD "127.0.0.1:8080"
    requeuePendingOnStart := requeuePendingOnStart.getD true
    claude := claude
    claudeTimeoutSecs := timeout
    qbo := qbo }

/-- What a start reads of it. -/
def start (config : Config) : StartConfig :=
  ⟨config.requeuePendingOnStart, config.claude.jobctlMcp.isSome, config.qbo.isSome⟩

/-! ## The order -/

/-- The variables, as they are read. -/
def order : List String :=
  ["CLAUDE_BIN", "CLAUDE_MODEL", "CLAUDE_MAX_TURNS", "CLAUDE_MAX_BUDGET_USD",
    "CLAUDE_TIMEOUT_SECS", "CLAUDE_PERMISSION_MODE", "CLAUDE_EFFORT", "CLAUDE_ALLOWED_DOMAINS",
    "CLAUDE_PERSIST_SESSIONS", "CLAUDE_CONFIG_DIR", "CLAUDE_MCP_CONFIG", "JOBCTL_MCP_BIN",
    "AGENT_DATABASE_URL", "DATABASE_URL", "DB_MAX_CONNECTIONS", "WORKSPACE_ROOT",
    "POLL_INTERVAL_SECS", "MAX_CONCURRENT_JOBS", "HTTP_ADDR", "REQUEUE_PENDING_ON_START",
    "AES_KEY", "QBO_CLIENT_ID", "QBO_CLIENT_SECRET", "QBO_ENV"]

section Checks

variable {α : Type} (name : String)

theorem raw_checks : Checks ConfigError.name name (raw name) := by
  refine (checks_query name).bind ?_
  rintro (_ | bytes)
  · exact .ok none
  · dsimp only
    cases fromUtf8 bytes with
    | none => exact .error rfl
    | some value => exact .ok _

theorem required_checks : Checks ConfigError.name name (required name) :=
  (raw_checks name).bind fun
    | none => .error rfl
    | some value => .ok value

theorem list_checks : Checks ConfigError.name name (list name) :=
  (raw_checks name).bind fun
    | none => .ok []
    | some _ => .ok _

theorem optional_checks (parse : String → Except String α) :
    Checks ConfigError.name name (optional parse name) := by
  refine (raw_checks name).bind ?_
  rintro (_ | value)
  · exact .ok none
  · dsimp only
    cases parse (trim value) with
    | error reason => exact .error rfl
    | ok a => exact .ok (some a)

theorem jobctlMcpFromEnv_checks (sibling : Option String) :
    Checks ConfigError.name "JOBCTL_MCP_BIN" (jobctlMcpFromEnv sibling) :=
  (optional_checks "JOBCTL_MCP_BIN" parseText).bind fun
    | none => .ok sibling
    | some path => .ok (some path)

end Checks

/-- The rank of a variable. -/
def position (name : String) : Nat := order.idxOf name

/-- The variables of QuickBooks, the last to be read. -/
theorem qboFromEnv_ascends : Ascends position ConfigError.name none 20 24 qboFromEnv := by
  refine (raw_checks "AES_KEY").ascends_bind (by decide) (by decide) ?_
  rintro (_ | key)
  · exact .ok none
  refine (raw_checks "QBO_CLIENT_ID").ascends_bind (by decide) (by decide) fun clientId => ?_
  refine (raw_checks "QBO_CLIENT_SECRET").ascends_bind (by decide) (by decide) fun secret => ?_
  refine (raw_checks "QBO_ENV").ascends_bind (by decide) (by decide) fun environment => ?_
  exact .ok _

/-- The first variables, up to the settings of `claude`. Each piece checks its own
variable, and the pieces follow in the order of the positions. -/
theorem claudeFromEnv_ascends (texts : ConfigTexts) (sibling : Option String) :
    Ascends position ConfigError.name none 0 13 (claudeFromEnv texts sibling) := by
  refine (optional_checks "CLAUDE_BIN" _).ascends_bind (by decide) (by decide) fun binary => ?_
  refine (optional_checks "CLAUDE_MODEL" _).ascends_bind (by decide) (by decide) fun model => ?_
  refine (optional_checks "CLAUDE_MAX_TURNS" _).ascends_bind (by decide) (by decide)
    fun maxTurns => ?_
  refine (optional_checks "CLAUDE_MAX_BUDGET_USD" _).ascends_bind (by decide) (by decide)
    fun maxBudgetUsd => ?_
  refine (optional_checks "CLAUDE_TIMEOUT_SECS" _).ascends_bind (by decide) (by decide)
    fun timeout => ?_
  refine (optional_checks "CLAUDE_PERMISSION_MODE" _).ascends_bind (by decide) (by decide)
    fun permissionMode => ?_
  refine (optional_checks "CLAUDE_EFFORT" _).ascends_bind (by decide) (by decide)
    fun effort => ?_
  refine (list_checks "CLAUDE_ALLOWED_DOMAINS").ascends_bind (by decide) (by decide)
    fun allowedDomains => ?_
  refine (optional_checks "CLAUDE_PERSIST_SESSIONS" _).ascends_bind (by decide) (by decide)
    fun persistSessions => ?_
  refine (optional_checks "CLAUDE_CONFIG_DIR" _).ascends_bind (by decide) (by decide)
    fun configDir => ?_
  refine (optional_checks "CLAUDE_MCP_CONFIG" _).ascends_bind (by decide) (by decide)
    fun mcpConfig => ?_
  refine (jobctlMcpFromEnv_checks sibling).ascends_bind (by decide) (by decide)
    fun jobctlMcp => ?_
  refine (optional_checks "AGENT_DATABASE_URL" _).ascends_bind (by decide) (by decide)
    fun agentDatabaseUrl => ?_
  exact .ok _

/-- All of them: the order in which `from_env` reads them is the order in which
their errors are found. -/
theorem fromEnv_ascends (texts : ConfigTexts) (sibling : Option String) :
    Ascends position ConfigError.name none 0 24 (fromEnv texts sibling) := by
  refine (claudeFromEnv_ascends texts sibling).bind (by decide) (by decide) fun claude => ?_
  refine (required_checks "DATABASE_URL").ascends_bind (by decide) (by decide)
    fun databaseUrl => ?_
  refine (optional_checks "DB_MAX_CONNECTIONS" _).ascends_bind (by decide) (by decide)
    fun dbMaxConnections => ?_
  refine (optional_checks "WORKSPACE_ROOT" _).ascends_bind (by decide) (by decide)
    fun workspaceRoot => ?_
  refine (optional_checks "POLL_INTERVAL_SECS" _).ascends_bind (by decide) (by decide)
    fun pollInterval => ?_
  refine (optional_checks "MAX_CONCURRENT_JOBS" _).ascends_bind (by decide) (by decide)
    fun maxConcurrentJobs => ?_
  refine (optional_checks "HTTP_ADDR" _).ascends_bind (by decide) (by decide)
    fun httpAddr => ?_
  refine (optional_checks "REQUEUE_PENDING_ON_START" _).ascends_bind (by decide) (by decide)
    fun requeuePendingOnStart => ?_
  have hqbo : Ascends position ConfigError.name none (position "REQUEUE_PENDING_ON_START" + 1) 24
      qboFromEnv := qboFromEnv_ascends.mono (by decide) (Nat.le_refl _)
  exact hqbo.bind (by decide) (Nat.le_refl _) fun qbo => .ok _

/-- **Configuration errors move on.** An error names a variable that is read. If that variable
is changed and no other, the next error is about a later one, or about the new value. -/
theorem config_errors_advance {texts : ConfigTexts} {sibling : Option String} {env env' : Env}
    {err err' : ConfigError} (h : (fromEnv texts sibling).eval env = .error err)
    (h' : (fromEnv texts sibling).eval env' = .error err')
    (hagree : ∀ name, name ≠ err.name → env' name = env name) :
    err.name ∈ order ∧ (err'.name = err.name ∨ position err.name < position err'.name) := by
  have hascends := fromEnv_ascends texts sibling
  refine ⟨?_, hascends.advance h h' hagree⟩
  rcases hascends.rank_lt h with hlast | hlt
  · cases hlast
  · exact List.idxOf_lt_length_iff.mp hlt

/-- A parser that takes everything. -/
def plainTexts : ConfigTexts := ⟨.ok, .ok, fun s => s⟩

/-- This many slots, and a flag that is no flag. -/
def slotsEnv (slots : String) : Env
  | "DATABASE_URL" => some (utf8 "mysql://runner@db/crm")
  | "MAX_CONCURRENT_JOBS" => some (utf8 slots)
  | "REQUEUE_PENDING_ON_START" => some (utf8 "maybe")
  | _ => none

/-- Behind the slots comes the flag. -/
theorem slots_before_flag :
    position "MAX_CONCURRENT_JOBS" < position "REQUEUE_PENDING_ON_START" := by
  have hslots : (fromEnv plainTexts none).eval (slotsEnv "0") =
      .error (.invalid "MAX_CONCURRENT_JOBS" "number would be zero for non-zero type") := rfl
  have hflag : (fromEnv plainTexts none).eval (slotsEnv "2") = .error
      (.invalid "REQUEUE_PENDING_ON_START" "provided string was not `true` or `false`") := rfl
  have hagree : ∀ name, name ≠ "MAX_CONCURRENT_JOBS" → slotsEnv "2" name = slotsEnv "0" name := by
    intro name hname
    unfold slotsEnv
    split <;> simp_all
  exact (config_errors_advance hslots hflag hagree).2.resolve_left (by decide)

/-! ## Secrets -/

/-- The settings of `claude` are read from variables that are no secrets. The
database login and the keys are read by other parts of `from_env`. -/
theorem claudeFromEnv_asks (texts : ConfigTexts) (sibling : Option String) :
    (claudeFromEnv texts sibling).Asks fun name => name ∉ runnerSecrets := by
  refine (claudeFromEnv_ascends texts sibling).asks.mono fun name hname => ?_
  have hread : name ∈ order.take 13 := by
    have horder : name ∈ order := List.idxOf_lt_length_iff.mp (Nat.lt_trans hname.2 (by decide))
    exact (List.mem_take_iff_idxOf_lt horder).mpr hname.2
  have hpublic : ∀ name ∈ order.take 13, name ∉ runnerSecrets := by decide
  exact hpublic name hread

/-- What the configuration has of them, taken out of a `from_env` that succeeds as a
whole. -/
theorem claude_of_fromEnv {texts : ConfigTexts} {sibling : Option String} {env : Env}
    {config : Config} (h : (fromEnv texts sibling).eval env = .ok config) :
    ∃ timeout, (claudeFromEnv texts sibling).eval env = .ok (config.claude, timeout) := by
  unfold fromEnv at h
  rw [eval_bind, Except.bind_eq_ok] at h
  obtain ⟨⟨claude, timeout⟩, hclaude, h⟩ := h
  refine ⟨timeout, ?_⟩
  simp only [eval_bind, Except.bind_eq_ok, eval_pure, Except.ok.injEq] at h
  obtain ⟨_, -, _, -, _, -, _, -, _, -, _, -, _, -, _, -, rfl⟩ := h
  exact hclaude

/-- **No job depends on a secret of the configuration.** Runners that start with environments
which differ in secrets alone start the same process for a job. -/
theorem config_withholds_secrets {texts : ConfigTexts} {sibling : Option String} {env₁ env₂ : Env}
    {config₁ config₂ : Config} (h₁ : (fromEnv texts sibling).eval env₁ = .ok config₁)
    (h₂ : (fromEnv texts sibling).eval env₂ = .ok config₂)
    (hagree : ∀ name, name ∉ runnerSecrets → env₁ name = env₂ name) (workspace : String)
    (requester : Option Requester) (qbo : Option QboJobAccess) :
    (config₁.claude.commandWithQbo workspace requester qbo).child env₁ =
      (config₂.claude.commandWithQbo workspace requester qbo).child env₂ := by
  obtain ⟨timeout₁, hclaude₁⟩ := claude_of_fromEnv h₁
  obtain ⟨timeout₂, hclaude₂⟩ := claude_of_fromEnv h₂
  have hsame : config₁.claude = config₂.claude := by
    rw [(claudeFromEnv_asks texts sibling).eval_congr hagree, hclaude₂] at hclaude₁
    exact (congrArg Prod.fst (Except.ok.inj hclaude₁)).symm
  rw [hsame]
  have henv : (config₂.claude.commandWithQbo workspace requester qbo).env.apply env₁ =
      (config₂.claude.commandWithQbo workspace requester qbo).env.apply env₂ :=
    EnvChanges.apply_eq_iff.mpr fun name hname => hagree name fun hsecret =>
      hname (ClaudeConfig.decides_secret workspace requester qbo hsecret)
  unfold Command.child Command.environment
  rw [henv]

/-- A runner with this login and this key. -/
def secretEnv (url key : String) : Env
  | "DATABASE_URL" => some (utf8 url)
  | "AES_KEY" => some (utf8 key)
  | _ => none

/-- Two logins, one job. -/
theorem login_withheld : ∃ config₁ config₂ : Config,
    config₁.databaseUrl = "mysql://a@db/crm" ∧ config₂.databaseUrl = "mysql://b@db/crm" ∧
      (config₁.claude.commandWithQbo "/srv/job-1" none none).child
          (secretEnv "mysql://a@db/crm" "k1") =
        (config₂.claude.commandWithQbo "/srv/job-1" none none).child
          (secretEnv "mysql://b@db/crm" "k2") := by
  obtain ⟨config₁, h₁, hurl₁⟩ : ∃ config, (fromEnv plainTexts none).eval
      (secretEnv "mysql://a@db/crm" "k1") = .ok config ∧
        config.databaseUrl = "mysql://a@db/crm" := ⟨_, rfl, rfl⟩
  obtain ⟨config₂, h₂, hurl₂⟩ : ∃ config, (fromEnv plainTexts none).eval
      (secretEnv "mysql://b@db/crm" "k2") = .ok config ∧
        config.databaseUrl = "mysql://b@db/crm" := ⟨_, rfl, rfl⟩
  have hagree : ∀ name, name ∉ runnerSecrets →
      secretEnv "mysql://a@db/crm" "k1" name = secretEnv "mysql://b@db/crm" "k2" name := by
    intro name hname
    simp only [runnerSecrets, runnerOnlyEnv, qboJobEnv, List.mem_cons, List.mem_append,
      not_or] at hname
    unfold secretEnv
    split <;> first | rfl | simp_all
  exact ⟨config₁, config₂, hurl₁, hurl₂,
    config_withholds_secrets h₁ h₂ hagree "/srv/job-1" none none⟩

end Config

end JobRunner
