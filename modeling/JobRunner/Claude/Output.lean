import JobRunner.Lib.Record
import JobRunner.Lib.Text
import JobRunner.Worker.Process

/-!
# What `claude` prints (`claude.rs`)

`CliRunner::run` waits for the process and reads a report from its stdout. A report counts
whatever the exit status; without one, the status decides which error is recorded.

- `reportFields`, `parseReport`: `RawReport` and its reading.
- `ProcessEnd`, `runClaude`: the part of `run` behind the command line.
- `Says`: a document that holds an answer.
- `intoOutcome_success_iff`: a job succeeds **exactly when** stdout says so.
- `every_end_recorded`: what becomes of the row, for every way the process can end.
-/

open Text

namespace JobRunner

/-! ## Reports -/

/-- `serde_json` and the texts of the standard library. -/
structure ClaudeTexts where
  /-- `serde_json::from_slice`, up to the type. -/
  parse : List UInt8 → Except String Json
  /-- What it says of a document that is no `RawReport`. -/
  mismatch : List UInt8 → String
  /-- `String::from_utf8_lossy`. -/
  lossy : List UInt8 → String

/-- The types of the fields of `RawReport`. -/
inductive FieldType where
  | string
  | bool
  | optionString
  | optionF64
  | optionU32
  | vec
deriving DecidableEq, Repr

/-- The values of a type. -/
def FieldType.accepts : FieldType → Json → Bool
  | string, .str _ => true
  | bool, .bool _ => true
  | optionString, .str _ | optionString, .null => true
  | optionF64, .int _ | optionF64, .dec _ _ | optionF64, .null => true
  | optionU32, .int n => 0 ≤ n && n < 4294967296
  | optionU32, .null => true
  | vec, .arr _ => true
  | _, _ => false

/-- `RawReport`. -/
def reportFields : List Record.Field :=
  [⟨"result", FieldType.optionString.accepts⟩, ⟨"is_error", FieldType.bool.accepts⟩,
    ⟨"subtype", FieldType.string.accepts⟩, ⟨"session_id", FieldType.optionString.accepts⟩,
    ⟨"total_cost_usd", FieldType.optionF64.accepts⟩, ⟨"num_turns", FieldType.optionU32.accepts⟩,
    ⟨"permission_denials", FieldType.vec.accepts⟩]

/-- `RunReport::from`, with the defaults of the fields that are missing. -/
def RunReport.ofFields (found : List (String × Json)) : RunReport where
  result := ((Json.obj found).get? "result").bind Json.asStr
  isError := (((Json.obj found).get? "is_error").bind Json.asBool).getD false
  subtype := (((Json.obj found).get? "subtype").bind Json.asStr).getD ""

/-- `CliRunner::parse_report`. -/
def parseReport (texts : ClaudeTexts) (stdout : List UInt8) : Except String RunReport :=
  match texts.parse stdout with
  | .error err => .error err
  | .ok doc =>
    match Record.fromValue reportFields doc with
    | none => .error (texts.mismatch stdout)
    | some found => .ok (.ofFields found)

/-! ## The process -/

/-- `RunError`, with the OS errors by their texts. -/
inductive RunError where
  | spawn (binary source : String)
  | io (source : String)
  | timeout (limit : String)
  | exited (status stderr : String)
  | invalidOutput (source stdout : String)
deriving DecidableEq, Repr

/-- `chain` of a `RunError`. -/
def RunError.chain : RunError → String
  | spawn binary source => "could not start " ++ binary ++ ": " ++ source
  | io source => "i/o error while running claude: " ++ source
  | timeout limit => "claude did not finish within " ++ limit
  | exited status stderr => "claude exited with " ++ status ++ ": " ++ stderr
  | invalidOutput source _ => "could not parse claude output: " ++ source

/-- How the process ends, or does not begin. -/
inductive ProcessEnd where
  | spawnFails (binary err : String)
  | noStdin
  | waitFails (err : String)
  | timedOut (limit : String)
  | exited (success : Bool) (status : String) (stdout stderr : List UInt8)

/-- `CliRunner::run`, from `spawn` on. -/
def runClaude (texts : ClaudeTexts) : ProcessEnd → Except RunError RunReport
  | .spawnFails binary err => .error (.spawn binary err)
  | .noStdin => .error (.io "child stdin was not captured")
  | .waitFails err => .error (.io err)
  | .timedOut limit => .error (.timeout limit)
  | .exited success status stdout stderr =>
    match parseReport texts stdout with
    | .ok report => .ok report
    | .error source =>
      if success then .error (.invalidOutput source (texts.lossy stdout))
      else .error (.exited status (trim (texts.lossy stderr)))

/-- How the `select!` of `execute` ends with it. -/
def claudeEnd (texts : ClaudeTexts) (p : ProcessEnd) : RunEnd :=
  .returned ((runClaude texts p).mapError RunError.chain)

/-! ## Documents that hold an answer -/

/-- The fields have values of their types, and none comes twice. -/
structure WellTyped (members : List (String × Json)) : Prop where
  distinct : ((Record.known reportFields members).map Prod.fst).Nodup
  typed : ∀ m ∈ Record.known reportFields members, Record.Accepted reportFields m

/-- The document reports this answer: an object, whatever else it holds, or the fields in
their order. -/
inductive Says (text : String) : Json → Prop where
  | object (members : List (String × Json)) (htyped : WellTyped members)
      (hresult : (Json.obj members).get? "result" = some (.str text))
      (herror : (Json.obj members).get? "is_error" ≠ some (.bool true)) : Says text (.obj members)
  | array (rest : List Json) (hlength : rest.length ≤ 6)
      (htyped : ∀ fv ∈ (reportFields.tail).zip rest, fv.1.accepts fv.2 = true)
      (herror : rest.head? ≠ some (.bool true)) : Says text (.arr (.str text :: rest))

/-- `into_outcome` gives an answer exactly for a report with a result and without
the error flag; the subtype and the rest do not count. -/
theorem intoOutcome_success_iff {report : RunReport} {text : String} :
    report.intoOutcome = .success text ↔ report.result = some text ∧ report.isError = false := by
  obtain ⟨result, isError, subtype⟩ := report
  cases isError <;> cases result <;> simp [RunReport.intoOutcome, JobOutcome.ofError]

theorem asStr_bind_eq_some {value : Option Json} {text : String} :
    value.bind Json.asStr = some text ↔ value = some (.str text) := by
  constructor
  · intro h
    obtain ⟨v, rfl, hv⟩ := Option.bind_eq_some_iff.mp h
    cases v <;> cases hv
    rfl
  · rintro rfl
    rfl

theorem asBool_getD_eq_false {value : Option Json} :
    (value.bind Json.asBool).getD false = false ↔ value ≠ some (.bool true) := by
  constructor
  · rintro h rfl
    cases h
  · intro h
    cases value with
    | none => rfl
    | some v =>
      cases v with
      | bool b =>
        cases b with
        | false => rfl
        | true => exact absurd rfl h
      | _ => rfl

/-- What the report of these fields comes to. -/
theorem ofFields_success_iff {found : List (String × Json)} {text : String} :
    (RunReport.ofFields found).intoOutcome = .success text ↔
      (Json.obj found).get? "result" = some (.str text) ∧
        (Json.obj found).get? "is_error" ≠ some (.bool true) := by
  rw [intoOutcome_success_iff]
  exact and_congr asStr_bind_eq_some asBool_getD_eq_false

/-- **What is read.** A document is read as a report with an answer exactly when it
says so. This is the reading of the fields and `into_outcome` in one, so the two are
not taken apart again. -/
theorem fromValue_says_iff {doc : Json} {text : String} :
    (∃ found, Record.fromValue reportFields doc = some found ∧
      (RunReport.ofFields found).intoOutcome = .success text) ↔ Says text doc := by
  simp only [ofFields_success_iff]
  constructor
  · rintro ⟨found, hfound, hresult, herror⟩
    cases doc with
    | obj members =>
      obtain ⟨rfl, hdistinct, htyped⟩ := Record.fromValue_obj_iff.mp hfound
      rw [Record.get?_known rfl] at hresult herror
      exact .object members ⟨hdistinct, htyped⟩ hresult herror
    | arr items =>
      obtain ⟨hlength, rfl, htyped⟩ := Record.visitSeq_eq_some_iff.mp hfound
      cases items with
      | nil => cases hresult
      | cons value rest =>
        have hvalue : value = .str text := by
          simpa [reportFields, Json.get?, Json.members] using hresult
        subst hvalue
        refine .array rest (Nat.le_of_succ_le_succ hlength) ?_ ?_
        · exact (List.forall_mem_cons.mp htyped).2
        · rintro hhead
          cases rest with
          | nil => cases hhead
          | cons flag rest =>
            rw [List.head?_cons, Option.some.injEq] at hhead
            subst hhead
            exact herror (by simp [reportFields, Json.get?, Json.members])
    | _ => cases hfound
  · rintro (⟨members, ⟨hdistinct, htyped⟩, hresult, herror⟩ | ⟨rest, hlength, htyped, herror⟩)
    · refine ⟨_, Record.fromValue_obj_iff.mpr ⟨rfl, hdistinct, htyped⟩, ?_⟩
      rw [Record.get?_known rfl, Record.get?_known rfl]
      exact ⟨hresult, herror⟩
    · refine ⟨_, Record.visitSeq_eq_some_iff.mpr ⟨?_, rfl, ?_⟩, ?_, ?_⟩
      · exact Nat.succ_le_succ hlength
      · exact List.forall_mem_cons.mpr ⟨rfl, htyped⟩
      · simp [reportFields, Json.get?, Json.members]
      · cases rest with
        | nil => simp [reportFields, Json.get?, Json.members]
        | cons flag rest => simpa [reportFields, Json.get?, Json.members] using herror

/-! ## What is recorded -/

/-- The process has exited, with whatever status, and its stdout says `text`. -/
def PrintedAnswer (texts : ClaudeTexts) (p : ProcessEnd) (text : String) : Prop :=
  ∃ success status stdout stderr doc,
    p = .exited success status stdout stderr ∧ texts.parse stdout = .ok doc ∧ Says text doc

/-- The process has exited, and its stdout reports an error with this much of an answer. -/
def PrintedError (texts : ClaudeTexts) (p : ProcessEnd) (answer : Option String) : Prop :=
  ∃ success status stdout stderr doc found,
    p = .exited success status stdout stderr ∧ texts.parse stdout = .ok doc ∧
      Record.fromValue reportFields doc = some found ∧
      (RunReport.ofFields found).isError = true ∧ (RunReport.ofFields found).result = answer

/-- How `execute` ends with an error of `run`. -/
theorem execute_error {texts : ClaudeTexts} {p : ProcessEnd} {err : RunError}
    (h : runClaude texts p = .error err) :
    execute (.ok ()) (claudeEnd texts p) = .ofError err.chain := by
  rw [claudeEnd, h]
  rfl

/-- How it ends with a report. -/
theorem execute_report {texts : ClaudeTexts} {success : Bool} {status : String}
    {stdout stderr : List UInt8} {doc : Json} {found : List (String × Json)}
    (hparse : texts.parse stdout = .ok doc)
    (hfound : Record.fromValue reportFields doc = some found) :
    execute (.ok ()) (claudeEnd texts (.exited success status stdout stderr)) =
      (RunReport.ofFields found).intoOutcome := by
  simp only [claudeEnd, runClaude, parseReport, hparse, hfound]
  rfl

/-- Either a report has been read, or the outcome is an error without an answer. The
exit status is looked at only where stdout is no report. -/
theorem execute_cases (texts : ClaudeTexts) (p : ProcessEnd) :
    (∃ success status stdout stderr doc found,
      p = .exited success status stdout stderr ∧ texts.parse stdout = .ok doc ∧
        Record.fromValue reportFields doc = some found ∧
        execute (.ok ()) (claudeEnd texts p) = (RunReport.ofFields found).intoOutcome) ∨
    ((∀ success status stdout stderr doc found,
      p = .exited success status stdout stderr → texts.parse stdout = .ok doc →
        Record.fromValue reportFields doc ≠ some found) ∧
      ∃ err : RunError, execute (.ok ()) (claudeEnd texts p) = .ofError err.chain) := by
  cases p with
  | exited success status stdout stderr =>
    -- without a report, the status chooses the error
    have hnone (source : String) (hreport : parseReport texts stdout = .error source) :
        ∃ err : RunError,
          execute (.ok ()) (claudeEnd texts (.exited success status stdout stderr)) =
            .ofError err.chain := by
      obtain ⟨err, herr⟩ :
          ∃ err, runClaude texts (.exited success status stdout stderr) = .error err := by
        simp only [runClaude, hreport]
        cases success <;> exact ⟨_, rfl⟩
      exact ⟨err, execute_error herr⟩
    cases hparse : texts.parse stdout with
    | error source =>
      refine .inr ⟨?_, hnone source (by simp only [parseReport, hparse])⟩
      rintro _ _ _ _ _ _ ⟨⟩ hdoc
      rw [hparse] at hdoc
      cases hdoc
    | ok doc =>
      cases hfound : Record.fromValue reportFields doc with
      | none =>
        refine .inr ⟨?_, hnone (texts.mismatch stdout) (by simp only [parseReport, hparse, hfound])⟩
        rintro _ _ _ _ _ _ ⟨⟩ hdoc
        rw [hparse] at hdoc
        cases hdoc
        simp [hfound]
      | some found =>
        exact .inl ⟨_, _, _, _, doc, found, rfl, hparse, hfound, execute_report hparse hfound⟩
  | spawnFails | noStdin | waitFails | timedOut =>
    refine .inr ⟨?_, _, execute_error rfl⟩
    rintro _ _ _ _ _ _ ⟨⟩

/-- A job succeeds exactly when stdout says so. An exit status other than zero does
not take an answer back. -/
theorem execute_claude_iff {texts : ClaudeTexts} {p : ProcessEnd} {text : String} :
    execute (.ok ()) (claudeEnd texts p) = .success text ↔ PrintedAnswer texts p text := by
  rcases execute_cases texts p with
    ⟨success, status, stdout, stderr, doc, found, rfl, hparse, hfound, heq⟩ | ⟨hnone, err, heq⟩
  · rw [heq]
    constructor
    · intro h
      exact ⟨success, status, stdout, stderr, doc, rfl, hparse,
        fromValue_says_iff.mp ⟨found, hfound, h⟩⟩
    · rintro ⟨_, _, _, _, doc', ⟨⟩, hparse', hsays⟩
      cases hparse.symm.trans hparse'
      obtain ⟨found', hfound', h⟩ := fromValue_says_iff.mpr hsays
      cases hfound.symm.trans hfound'
      exact h
  · rw [heq]
    refine iff_of_false (by rintro ⟨⟩) ?_
    rintro ⟨success, status, stdout, stderr, doc, rfl, hparse, hsays⟩
    obtain ⟨found, hfound, -⟩ := fromValue_says_iff.mpr hsays
    exact hnone _ _ _ _ _ found rfl hparse hfound

/-- A failure that keeps part of an answer is one that `claude` has reported. -/
theorem toldError_of_failed {texts : ClaudeTexts} {p : ProcessEnd} {error answer : String}
    (h : execute (.ok ()) (claudeEnd texts p) = .failed error (some answer)) :
    PrintedError texts p (some answer) := by
  rcases execute_cases texts p with
    ⟨success, status, stdout, stderr, doc, found, rfl, hparse, hfound, heq⟩ | ⟨-, err, heq⟩
  · refine ⟨success, status, stdout, stderr, doc, found, rfl, hparse, hfound, ?_⟩
    rw [heq] at h
    generalize RunReport.ofFields found = report at h
    obtain ⟨result, isError, subtype⟩ := report
    cases isError with
    | true =>
      cases h
      exact ⟨rfl, rfl⟩
    | false => cases result <;> cases h
  · rw [heq] at h
    cases h

namespace Database

/-- A failure is recorded as such. -/
theorem jobStatus_finish_failed {db : Database} {id : Int}
    (hpending : db.jobStatus id = some .pending) (error : String) (result : Option String) :
    (db.finish id (.failed error result)).2.jobStatus id = some .failed := by
  obtain ⟨m, -, hp⟩ := pendingRow_of_jobStatus hpending
  have hfinish : db.finish id (.failed error result) =
      (.ok (), db.rejected id error result) := by
    rw [finish_failed, finishFailed_eq, hp]
    rfl
  rw [hfinish, jobStatus_finish (by simp [hpending]) hfinish, if_pos rfl]
  rfl

/-- So is an answer that fits. -/
theorem jobStatus_finish_success {db : Database} {id : Int}
    (hpending : db.jobStatus id = some .pending) {result : String}
    (hlen : result.utf8ByteSize ≤ 65535) (hmax : db.nextId ≤ intMax) :
    (db.finish id (.success result)).2.jobStatus id = some .done := by
  obtain ⟨m, -, hp⟩ := pendingRow_of_jobStatus hpending
  have hfinish := finishDone_some hp result
  rw [dif_pos hlen, if_pos hmax, ← finish_success] at hfinish
  rw [hfinish, jobStatus_finish (by simp [hpending]) hfinish, if_pos rfl]
  rfl

end Database

/-- **Every end of `claude` is recorded**, if the answer fits:

- the job is `done` exactly when stdout says an answer that fits, whatever the exit status,
  and then the reply is that answer;
- it is `failed` exactly when stdout says no answer;
- it stays `pending` exactly when the answer does not fit the column, or no id is left;
- a failure keeps part of an answer only if `claude` reported it. -/
theorem every_end_recorded {db : Database} {id : Int} (hpending : db.jobStatus id = some .pending)
    (texts : ClaudeTexts) (p : ProcessEnd) :
    let r := process db id (.ok ()) (claudeEnd texts p)
    (r.2.jobStatus id = some .done ↔
      ∃ text, PrintedAnswer texts p text ∧ text.utf8ByteSize ≤ 65535 ∧ db.nextId ≤ intMax) ∧
    (r.2.jobStatus id = some .failed ↔ ∀ text, ¬PrintedAnswer texts p text) ∧
    (r.2.jobStatus id = some .pending ↔
      ∃ text, PrintedAnswer texts p text ∧ ¬(text.utf8ByteSize ≤ 65535 ∧ db.nextId ≤ intMax)) ∧
    (∀ text, PrintedAnswer texts p text → r.2.jobStatus id = some .done →
      ∃ reply, r.2.replies id = db.replies id ++ [reply] ∧ reply.content.val = text) ∧
    ∀ error answer, r.1 = .failed error (some answer) → PrintedError texts p (some answer) := by
  simp only [← execute_claude_iff, process]
  cases houtcome : execute (.ok ()) (claudeEnd texts p) with
  | failed error result =>
    have hstatus := Database.jobStatus_finish_failed hpending error result
    generalize (db.finish id (.failed error result)).2 = db' at hstatus ⊢
    refine ⟨by simp [hstatus], by simp [hstatus], by simp [hstatus], by simp, ?_⟩
    rintro error answer ⟨⟩
    exact toldError_of_failed houtcome
  | success text =>
    by_cases hfits : text.utf8ByteSize ≤ 65535 ∧ db.nextId ≤ intMax
    · have hstatus := Database.jobStatus_finish_success hpending hfits.1 hfits.2
      have hreply := (Database.processed_success hpending hfits.1 hfits.2).reply text rfl
      generalize (db.finish id (.success text)).2 = db' at hstatus hreply ⊢
      refine ⟨by simpa [hstatus] using hfits, by simp [hstatus],
        by simpa [hstatus] using hfits, ?_, by rintro error answer ⟨⟩⟩
      rintro _ ⟨⟩ -
      exact hreply
    · -- the transaction is rolled back
      have hstuck := Database.finish_success_stuck hpending hfits
      generalize (db.finish id (.success text)).2 = db' at hstuck ⊢
      subst hstuck
      refine ⟨by simpa [hpending] using hfits, by simp [hpending],
        by simpa [hpending] using hfits, ?_, by rintro error answer ⟨⟩⟩
      intro _ _ hdone
      rw [hpending] at hdone
      cases hdone

/-- The report of a run that answers `42`. -/
def sampleReport : Json :=
  .obj [("type", .str "result"), ("subtype", .str "success"), ("is_error", .bool false),
    ("num_turns", .int 3), ("result", .str "42")]

/-- `claude` prints it. -/
def sampleStdout : List UInt8 :=
  utf8 ("\x7b\"type\":\"result\",\"subtype\":\"success\",\"is_error\":false," ++
    "\"num_turns\":3,\"result\":\"42\"\x7d\n")

/-- `serde_json` on `sampleStdout` and on no output. -/
def sampleTexts : ClaudeTexts where
  parse stdout :=
    if stdout = sampleStdout then .ok sampleReport
    else .error "EOF while parsing a value at line 1 column 0"
  mismatch _ := "invalid type: sequence, expected a string"
  lossy bytes := (fromUtf8 bytes).getD "\uFFFD"

/-- The answer is recorded although the exit status says otherwise. -/
theorem answer_of_failed_exit_recorded :
    (process Database.claimedDb 1 (.ok ()) (claudeEnd sampleTexts
      (.exited false "exit status: 1" sampleStdout (utf8 "out of credit")))).2.jobStatus 1 =
        some .done := by
  have hpending : Database.claimedDb.jobStatus 1 = some .pending := rfl
  have hparse : sampleTexts.parse sampleStdout = .ok sampleReport := by simp [sampleTexts]
  have htyped : WellTyped sampleReport.members := by
    refine ⟨by decide, fun m hm field hfield => ?_⟩
    have hm' : m = ("subtype", .str "success") ∨ m = ("is_error", .bool false) ∨
        m = ("num_turns", .int 3) ∨ m = ("result", .str "42") := by
      simpa [sampleReport, Json.members, Record.known, reportFields, Record.field?] using hm
    rcases hm' with rfl | rfl | rfl | rfl <;> cases hfield <;> rfl
  refine (every_end_recorded hpending sampleTexts _).1.mpr ⟨"42", ?_, by decide, by decide⟩
  exact ⟨_, _, _, _, _, rfl, hparse, .object _ htyped rfl (by rintro ⟨⟩)⟩

end JobRunner
