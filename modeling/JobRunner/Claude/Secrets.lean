import JobRunner.Claude.Access

/-!
# What a job learns of its runner (`claude.rs`)

A job inherits the environment of the runner with the changes of its command. Every
variable that holds a secret of the runner is among those the command decides about, so
its inherited value does not matter.

- `EnvChanges.Decides`: the variables whose inherited value is lost.
- `apply_eq_iff`: two inherited environments end in one **exactly when** they agree on all
  other variables.
- `decides_secret`: the command decides about every secret, whatever the settings.
- `secrets_withheld`: no secret reaches the job, and the token is not among the arguments.
-/

open Text

namespace JobRunner

/-! ## Changes that hide a variable -/

namespace EnvChanges

/-- The changes set or remove the variable. -/
def Decides (changes : EnvChanges) (name : String) : Prop :=
  (changes name).isSome

variable {changes : EnvChanges} {name : String}

theorem decides_env (other value : String) :
    (changes.env other value).Decides name ↔ name = other ∨ changes.Decides name := by
  unfold Decides env
  rw [Function.update_apply]
  by_cases h : name = other <;> simp [h]

theorem decides_envRemove (other : String) :
    (changes.envRemove other).Decides name ↔ name = other ∨ changes.Decides name := by
  unfold Decides envRemove
  rw [Function.update_apply]
  by_cases h : name = other <;> simp [h]

/-- A list of removals decides about every variable of the list. -/
theorem decides_foldl_envRemove (names : List String) (changes : EnvChanges) :
    (names.foldl envRemove changes).Decides name ↔ name ∈ names ∨ changes.Decides name := by
  induction names generalizing changes with
  | nil => simp
  | cons other names ih =>
    rw [List.foldl_cons, ih, decides_envRemove, List.mem_cons]
    tauto

/-- What is inherited counts **exactly** where the changes decide nothing. This
reduces the secrets to which variables the command decides about. -/
theorem apply_eq_iff {env₁ env₂ : Env} :
    changes.apply env₁ = changes.apply env₂ ↔
      ∀ name, ¬ changes.Decides name → env₁ name = env₂ name := by
  constructor
  · intro h name hname
    have hnone : changes name = .none := by
      simpa [Decides] using hname
    simpa [apply, hnone] using congrFun h name
  · intro h
    funext name
    show (changes name).getD (env₁ name) = (changes name).getD (env₂ name)
    cases hname : changes name with
    | some value => rfl
    | none => exact h name (by simp [Decides, hname])

end EnvChanges

/-! ## The secrets of the runner -/

/-- What only the runner may know, and the variables of an access that it may itself have
inherited. -/
def runnerSecrets : List String :=
  "DATABASE_URL" :: "CLAUDECODE" :: (runnerOnlyEnv ++ qboJobEnv)

/-- The process that `spawn` starts. -/
structure Child where
  program : String
  args : List Arg
  currentDir : String
  environment : Env

/-- The job, as a runner with this environment starts it. -/
def Command.child (cmd : Command) (inherited : Env) : Child where
  program := cmd.program
  args := cmd.args
  currentDir := cmd.currentDir
  environment := cmd.environment inherited

namespace ClaudeConfig

variable {cfg : ClaudeConfig} {changes : EnvChanges} {name : String}

/-- The access of a job only adds to what is decided. -/
theorem decides_qboPart (requester : Option Requester) (qbo : Option QboJobAccess)
    (h : changes.Decides name) : (cfg.qboPart requester qbo changes).2.Decides name := by
  unfold qboPart
  split
  · simp only [EnvChanges.decides_env]
    tauto
  · exact h
  · exact h

/-- The last changes only add to what is decided, the database login among it. -/
theorem decides_lastChanges (h : name ∈ ["DATABASE_URL", "CLAUDECODE"] ∨ changes.Decides name) :
    (cfg.lastChanges changes).Decides name := by
  simp only [List.mem_cons, List.not_mem_nil, or_false] at h
  unfold lastChanges
  rcases cfg.configDir with _ | dir <;> rcases cfg.agentDatabaseUrl with _ | url <;>
    simp only [EnvChanges.decides_env, EnvChanges.decides_envRemove] <;> tauto

/-- **The command decides about every secret**, with any settings and any access,
since the removals are made first and what follows only adds to them. -/
theorem decides_secret (workspace : String) (requester : Option Requester)
    (qbo : Option QboJobAccess) (h : name ∈ runnerSecrets) :
    (cfg.commandWithQbo workspace requester qbo).env.Decides name := by
  apply decides_lastChanges
  rw [runnerSecrets, List.mem_cons, List.mem_cons] at h
  rcases h with rfl | rfl | h
  · exact .inl (by simp)
  · exact .inl (by simp)
  · exact .inr (decides_qboPart _ _ ((EnvChanges.decides_foldl_envRemove _ _).mpr (.inl h)))

/-- The prompt does not depend on the token: it is told of the access, which stands
for the tools, and not of the token that makes them work. -/
theorem systemPrompt_connected (requester : Option Requester) (realmId apiBase : String)
    (token₁ token₂ : String) :
    cfg.systemPrompt requester (some (.connected realmId token₁ apiBase)) =
      cfg.systemPrompt requester (some (.connected realmId token₂ apiBase)) := by
  unfold systemPrompt qboPart
  rcases requester with _ | r
  · rfl
  · rcases cfg.jobctlMcp with _ | jobctl <;> rfl

/-- **No secret of the runner reaches a job.** Runners whose environments differ in the
secrets alone start the same process, and the token of an access is in none of its
arguments. -/
theorem secrets_withheld (cfg : ClaudeConfig) (workspace : String)
    (requester : Option Requester) :
    (∀ (qbo : Option QboJobAccess) (env₁ env₂ : Env),
      (∀ name, name ∉ runnerSecrets → env₁ name = env₂ name) →
      (cfg.commandWithQbo workspace requester qbo).child env₁ =
        (cfg.commandWithQbo workspace requester qbo).child env₂) ∧
    ∀ realmId token₁ token₂ apiBase : String,
      (cfg.commandWithQbo workspace requester (some (.connected realmId token₁ apiBase))).args =
        (cfg.commandWithQbo workspace requester
          (some (.connected realmId token₂ apiBase))).args := by
  refine ⟨?_, ?_⟩
  · intro qbo env₁ env₂ hagree
    have henv : (cfg.commandWithQbo workspace requester qbo).env.apply env₁ =
        (cfg.commandWithQbo workspace requester qbo).env.apply env₂ :=
      EnvChanges.apply_eq_iff.mpr fun name hname =>
        hagree name fun hsecret => hname (decides_secret workspace requester qbo hsecret)
    unfold Command.child Command.environment
    rw [henv]
  · intro realmId token₁ token₂ apiBase
    show _ ++ _ ++ (if _ then _ else _) = _ ++ _ ++ (if _ then _ else _)
    rw [cfg.systemPrompt_connected requester realmId apiBase token₁ token₂]

/-- A runner that was started from a session, with its key and its database login. -/
def runnerEnv : Env
  | "AES_KEY" => some (utf8 "k3y")
  | "DATABASE_URL" => some (utf8 "mysql://runner@db/crm")
  | "CLAUDECODE" => some (utf8 "1")
  | "PATH" => some (utf8 "/usr/bin")
  | _ => none

/-- The same runner without them. -/
def bareEnv : Env
  | "PATH" => some (utf8 "/usr/bin")
  | _ => none

theorem runnerEnv_agrees {name : String} (h : name ∉ runnerSecrets) :
    runnerEnv name = bareEnv name := by
  simp only [runnerSecrets, runnerOnlyEnv, qboJobEnv, List.mem_cons, List.mem_append, not_or] at h
  unfold runnerEnv bareEnv
  split <;> first | rfl | simp_all

/-- With the key or without it, the same job is started. -/
theorem key_withheld :
    (sampleConfig.commandWithQbo "/srv/job-1" (some ⟨3, 4, false⟩)
        (some (.connected "9130" "access-1" "https://quickbooks.api.intuit.com"))).child runnerEnv =
      (sampleConfig.commandWithQbo "/srv/job-1" (some ⟨3, 4, false⟩)
        (some (.connected "9130" "access-1" "https://quickbooks.api.intuit.com"))).child bareEnv :=
  (secrets_withheld sampleConfig "/srv/job-1" (some ⟨3, 4, false⟩)).1 _ _ _
    fun _ => runnerEnv_agrees

end ClaudeConfig

end JobRunner
