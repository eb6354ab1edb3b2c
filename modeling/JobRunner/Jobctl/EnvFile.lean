import JobRunner.Jobctl.Session

/-!
# Where `jobctl` finds the database (`jobctl::db`)

An env file that is named comes first, then `DATABASE_URL`, then the env file under the home
directory. Of an env file only lines `DB_…=value` count, and of several with one name the last.

- `lines`: `str::lines`.
- `parseDbVars`, `fromEnvFile`, `resolve`: the code.
- `lines_write`: a file is read line by line, with either line end.
- `get_parseDbVars`: the value of a variable stands behind its last line.
- `env_file_reads`: what a named env file gives, or which variables it lacks.
-/

open Decimal Text

namespace JobRunner.Jobctl.Db

/-! ## Lines -/

/-- A carriage return in front of a newline belongs to it. -/
def stripReturn (piece : List Char) : List Char :=
  if piece.getLast? = some '\r' then piece.dropLast else piece

/-- The lines of what stands between newlines. Nothing behind the last one is no line. -/
def linesOf : List (List Char) → List (List Char)
  | [] => []
  | [last] => if last = [] then [] else [last]
  | piece :: rest => stripReturn piece :: linesOf rest

/-- `str::lines`. -/
def lines (text : String) : List String :=
  (linesOf (text.toList.splitOn '\n')).map String.ofList

/-! ## Env files -/

/-- A name of `parse_db_vars`. -/
def isDbKey (key : String) : Bool :=
  startsWith "DB_" key && key.toList.all fun c => c.isAlphanum || c = '_'

/-- What a line sets. -/
def dbVar (line : String) : Option (String × String) :=
  (splitOnce '=' line).filter fun var => isDbKey var.1

/-- `parse_db_vars`. -/
def parseDbVars (text : String) : Std.HashMap String String :=
  ((lines text).filterMap dbVar).foldl (fun env var => env.insert var.1 var.2) ∅

/-- `MySqlConnectOptions`, as far as they are set here. -/
structure ConnectOptions where
  host : String
  port : Nat
  username : String
  password : String
  database : String
deriving DecidableEq, Repr

/-- The variables that a file must have. -/
def needed : List String := ["DB_HOST", "DB_USER", "DB_PASSWORD"]

/-- `from_env_file`; `text` is what the file holds, and `debug` the `Debug` form of a text. -/
def fromEnvFile (debug : String → String) (path : String) (text : Except String String)
    (database : String) : Except ToolError ConnectOptions :=
  match text with
  | .error err => .error (.config ("cannot read env file " ++ path ++ ": " ++ err))
  | .ok text =>
    let env := parseDbVars text
    let missing := needed.filter fun key => env[key]?.isNone
    if missing ≠ [] then .error (.config (path ++ " lacks " ++ ", ".intercalate missing))
    else
      let port : Except String Nat :=
        match env["DB_PORT"]? with
        | none => .ok 3306
        | some raw => (parseUnsigned 65536 raw).mapError fun _ => raw
      match port with
      | .error raw => .error (.config ("invalid DB_PORT " ++ debug raw))
      -- none of the three is missing here
      | .ok port => .ok ⟨env["DB_HOST"]?.getD "", port, env["DB_USER"]?.getD "",
          env["DB_PASSWORD"]?.getD "", database⟩

/-- What `resolve` asks the system. -/
structure Os where
  readFile : String → Except String String
  env : Env
  homeDir : Option String
  /-- `MySqlConnectOptions::from_str`. -/
  parseUrl : String → Except String ConnectOptions
  debug : String → String

/-- `default_env_file`. -/
def defaultEnvFile (homeDir : Option String) : Except ToolError String :=
  match homeDir with
  | none => .error (.config "cannot locate the home directory")
  | some home =>
    .ok ((if home.toList.getLast? = some '/' then home else home ++ "/") ++ "general_datebase/.env")

/-- `from_url`. -/
def fromUrl (parseUrl : String → Except String ConnectOptions) (url : String) :
    Except ToolError ConnectOptions :=
  (parseUrl url).mapError fun err => .config ("invalid DATABASE_URL: " ++ err)

/-- `resolve`. -/
def resolve (os : Os) (envFile : Option String) (database : String) :
    Except ToolError ConnectOptions :=
  match envFile with
  | some path => fromEnvFile os.debug path (os.readFile path) database
  | none =>
    match os.env.var "DATABASE_URL" with
    | some url => fromUrl os.parseUrl url
    | none =>
      match defaultEnvFile os.homeDir with
      | .error err => .error err
      | .ok path => fromEnvFile os.debug path (os.readFile path) database

/-! ## Files, line by line -/

/-- A line, and whether it ends with a carriage return and a newline. -/
structure FileLine where
  text : String
  crlf : Bool

/-- The line is one that can stand in a file. -/
def FileLine.Fits (line : FileLine) : Prop :=
  '\n' ∉ line.text.toList ∧ (line.crlf = false → line.text.toList.getLast? ≠ some '\r')

/-- The file, with what stands behind its last newline. -/
def write (tail : String) : List FileLine → String
  | [] => tail
  | line :: rest => line.text ++ (if line.crlf then "\r\n" else "\n") ++ write tail rest

theorem stripReturn_line {line : FileLine} (h : line.Fits) :
    stripReturn (line.text.toList ++ if line.crlf then ['\r'] else []) = line.text.toList := by
  unfold stripReturn
  cases hcrlf : line.crlf with
  | true => simp
  | false => simp [h.2 hcrlf]

theorem linesOf_cons {piece : List Char} {pieces : List (List Char)} (h : pieces ≠ []) :
    linesOf (piece :: pieces) = stripReturn piece :: linesOf pieces := by
  cases pieces with
  | nil => exact absurd rfl h
  | cons next rest => rfl

/-- A file is read line by line, with either line end; the last line needs none.
`str::lines` takes a carriage return only where it stands before the line end. -/
theorem lines_write {file : List FileLine} (h : ∀ line ∈ file, line.Fits) {tail : String}
    (htail : '\n' ∉ tail.toList) :
    lines (write tail file) = file.map FileLine.text ++ if tail = "" then [] else [tail] := by
  suffices hlines : linesOf ((write tail file).toList.splitOn '\n') =
      (file.map fun line => line.text.toList) ++ linesOf [tail.toList] by
    rw [lines, hlines, List.map_append, List.map_map]
    congr 1
    · exact List.map_congr_left fun line _ => String.ofList_toList
    · simp only [linesOf, String.toList_eq_nil_iff]
      split <;> simp
  induction file with
  | nil => rw [write, List.splitOn_eq_singleton htail, List.map_nil, List.nil_append]
  | cons line rest ih =>
    obtain ⟨hline, hrest⟩ := List.forall_mem_cons.mp h
    have htext : (write tail (line :: rest)).toList =
        (line.text.toList ++ if line.crlf then ['\r'] else []) ++
          '\n' :: (write tail rest).toList := by
      rw [write, String.toList_append, String.toList_append]
      cases line.crlf <;> simp
    have hnewline : '\n' ∉ line.text.toList ++ if line.crlf then ['\r'] else [] := by
      rw [List.mem_append, not_or]
      exact ⟨hline.1, by cases line.crlf <;> simp⟩
    rw [htext, List.splitOn_append_cons_self_of_not_mem hnewline,
      linesOf_cons (List.splitOn_ne_nil _ _), stripReturn_line hline, ih hrest, List.map_cons,
      List.cons_append]

/-! ## Variables -/

/-- A name has no `=`. -/
theorem not_mem_dbKey {key : String} (h : isDbKey key = true) : '=' ∉ key.toList := by
  intro hmem
  have hall := (Bool.and_eq_true_iff.mp h).2
  have hequals := List.all_eq_true.mp hall '=' hmem
  revert hequals
  decide

/-- A line sets the variable with whose name and `=` it starts. -/
theorem dbVar_eq_some_iff {key line value : String} (hkey : isDbKey key = true) :
    dbVar line = some (key, value) ↔ stripPrefix (key ++ "=") line = some value := by
  unfold dbVar
  rw [Option.filter_eq_some_iff, splitOnce_eq_some_iff, stripPrefix_eq_some_iff]
  have hline : line = key ++ "=" ++ value ↔ line.toList = key.toList ++ '=' :: value.toList := by
    rw [← String.toList_inj, String.toList_append, String.toList_append, List.append_assoc]
    rfl
  rw [hline]
  exact ⟨fun h => h.1.2, fun h => ⟨⟨not_mem_dbKey hkey, h⟩, hkey⟩⟩

/-- The last of several settings counts, as `collect` inserts them one after the
other. -/
theorem get_foldl_insert (vars : List (String × String)) (key : String) :
    (vars.foldl (fun env var => env.insert var.1 var.2)
      (∅ : Std.HashMap String String))[key]? =
      ((vars.filter fun var => var.1 = key).map Prod.snd).getLast? := by
  induction vars using List.reverseRecOn with
  | nil => simp
  | append_singleton vars var ih =>
    rw [List.foldl_append, List.filter_append, List.map_append]
    show (Std.HashMap.insert _ var.1 var.2)[key]? = _
    rw [Std.HashMap.getElem?_insert, ih]
    by_cases hkey : var.1 = key
    · simp [hkey]
    · simp [hkey]

/-- What the last line that starts with the name and `=` has behind it. -/
def lastValue (lines : List String) (key : String) : Option String :=
  (lines.filterMap (stripPrefix (key ++ "="))).getLast?

/-- **The last line wins.** A line counts if it starts with the name and `=`. -/
theorem get_parseDbVars (text : String) {key : String} (hkey : isDbKey key = true) :
    (parseDbVars text)[key]? = lastValue (lines text) key := by
  unfold parseDbVars lastValue
  rw [get_foldl_insert]
  congr 1
  induction lines text with
  | nil => rfl
  | cons line rest ih =>
    rw [List.filterMap_cons, List.filterMap_cons]
    have hvalue : ∀ value, dbVar line = some (key, value) ↔
        stripPrefix (key ++ "=") line = some value := fun _ => dbVar_eq_some_iff hkey
    have hnone : (∀ value, dbVar line ≠ some (key, value)) →
        stripPrefix (key ++ "=") line = none := fun hne =>
      Option.eq_none_iff_forall_ne_some.mpr fun value hstrip =>
        hne value ((hvalue value).mpr hstrip)
    cases hvar : dbVar line with
    | none =>
      rw [hnone fun value hsome => by rw [hvar] at hsome; cases hsome]
      exact ih
    | some var =>
      obtain ⟨name, value⟩ := var
      by_cases hname : name = key
      · subst hname
        rw [(hvalue value).mp hvar]
        simpa using ih
      · have hother : ∀ value, dbVar line ≠ some (key, value) := fun _ hsome => by
          rw [hvar] at hsome
          cases hsome
          exact hname rfl
        rw [hnone hother]
        simpa [hname] using ih

/-! ## Credentials -/

/-- The port that is set, or MySQL's. -/
def PortIs (raw : Option String) (port : Nat) : Prop :=
  (raw = none ∧ port = 3306) ∨ ∃ text, raw = some text ∧ parseUnsigned 65536 text = .ok port

/-- The variables of a file that it should have and has not. -/
def lacking (lines : List String) : List String :=
  needed.filter fun key => (lastValue lines key).isNone

theorem lacking_eq_nil_iff {lines : List String} :
    lacking lines = [] ↔ ∀ key ∈ needed, ∃ value, lastValue lines key = some value := by
  rw [lacking, List.filter_eq_nil_iff]
  refine forall₂_congr fun key _ => ?_
  rw [Option.isNone_iff_eq_none, ← ne_eq, Option.ne_none_iff_exists']

theorem isDbKey_of_needed {key : String} (h : key ∈ needed) : isDbKey key = true := by
  revert key
  decide

theorem fromEnvFile_lacking (debug : String → String) (path : String) (database : String)
    {text : String} (hlacking : lacking (lines text) ≠ []) :
    fromEnvFile debug path (.ok text) database =
      .error (.config (path ++ " lacks " ++ ", ".intercalate (lacking (lines text)))) := by
  have hmissing : (needed.filter fun key => (parseDbVars text)[key]?.isNone) =
      lacking (lines text) := List.filter_congr fun key hkey => by
    rw [get_parseDbVars _ (isDbKey_of_needed hkey)]
  simp only [fromEnvFile, hmissing, if_pos hlacking]

/-- A file that lacks nothing is about its port: there is none, it is a number a
port can have, or the error shows the text. -/
theorem fromEnvFile_complete (debug : String → String) (path : String) (database : String)
    {text host user password : String}
    (hhost : lastValue (lines text) "DB_HOST" = some host)
    (huser : lastValue (lines text) "DB_USER" = some user)
    (hpassword : lastValue (lines text) "DB_PASSWORD" = some password) :
    (∀ o, fromEnvFile debug path (.ok text) database = .ok o ↔
      PortIs (lastValue (lines text) "DB_PORT") o.port ∧
        o = ⟨host, o.port, user, password, database⟩) ∧
    ∀ err, fromEnvFile debug path (.ok text) database = .error err →
      ∃ raw, lastValue (lines text) "DB_PORT" = some raw ∧
        (∀ port, parseUnsigned 65536 raw ≠ .ok port) ∧
        err = .config ("invalid DB_PORT " ++ debug raw) := by
  have hget : ∀ key, isDbKey key = true → (parseDbVars text)[key]? = lastValue (lines text) key :=
    fun key hkey => get_parseDbVars _ hkey
  have hmissing : (needed.filter fun key => (parseDbVars text)[key]?.isNone) = [] := by
    rw [List.filter_eq_nil_iff]
    intro key hkey
    rw [hget key (isDbKey_of_needed hkey)]
    simp only [needed, List.mem_cons, List.not_mem_nil, or_false] at hkey
    obtain rfl | rfl | rfl := hkey
    · simp [hhost]
    · simp [huser]
    · simp [hpassword]
  simp only [fromEnvFile, hmissing, hget _ (by decide : isDbKey "DB_HOST" = true),
    hget _ (by decide : isDbKey "DB_USER" = true), hhost, huser, hpassword,
    hget _ (by decide : isDbKey "DB_PASSWORD" = true),
    hget _ (by decide : isDbKey "DB_PORT" = true), ne_eq, not_true_eq_false, if_false,
    Option.getD_some]
  cases hport : lastValue (lines text) "DB_PORT" with
  | none =>
    refine ⟨fun o => ?_, by rintro err ⟨⟩⟩
    constructor
    · rintro ⟨⟩
      exact ⟨.inl ⟨rfl, rfl⟩, rfl⟩
    · rintro ⟨⟨_, hdefault⟩ | ⟨_, hnone, _⟩, ho⟩
      · rw [ho, hdefault]
      · cases hnone
  | some raw =>
    cases hparse : parseUnsigned 65536 raw with
    | error message =>
      simp only [hparse, Except.mapError]
      refine ⟨fun o => ⟨by rintro ⟨⟩, ?_⟩, ?_⟩
      · rintro ⟨⟨hnone, _⟩ | ⟨_, ⟨⟩, hok⟩, _⟩
        · cases hnone
        · rw [hparse] at hok
          cases hok
      · rintro err ⟨⟩
        refine ⟨raw, rfl, fun port hok => ?_, rfl⟩
        rw [hparse] at hok
        cases hok
    | ok port =>
      simp only [hparse, Except.mapError]
      refine ⟨fun o => ?_, by rintro err ⟨⟩⟩
      constructor
      · rintro ⟨⟩
        exact ⟨.inr ⟨raw, rfl, hparse⟩, rfl⟩
      · rintro ⟨⟨hnone, _⟩ | ⟨_, ⟨⟩, hok⟩, ho⟩
        · cases hnone
        · rw [hparse] at hok
          cases hok
          rw [ho]

/-- **What a named env file gives.** Whatever else is in it:

- it gives the credentials of its last lines exactly when it has all three and a port that is
  one, if any;
- otherwise the error lists exactly the variables that it lacks, or it lacks none and the error is
  about the port;
- neither `DATABASE_URL` nor the home directory matters. -/
theorem env_file_reads (os : Os) {path text : String}
    (hread : os.readFile path = .ok text) (database : String) :
    (∀ o, resolve os (some path) database = .ok o ↔
      lastValue (lines text) "DB_HOST" = some o.host ∧
        lastValue (lines text) "DB_USER" = some o.username ∧
        lastValue (lines text) "DB_PASSWORD" = some o.password ∧
        PortIs (lastValue (lines text) "DB_PORT") o.port ∧ o.database = database) ∧
    (∀ err, resolve os (some path) database = .error err →
      (lacking (lines text) ≠ [] ∧
        err = .config (path ++ " lacks " ++ ", ".intercalate (lacking (lines text)))) ∨
      lacking (lines text) = [] ∧ ∃ raw, lastValue (lines text) "DB_PORT" = some raw ∧
        (∀ port, parseUnsigned 65536 raw ≠ .ok port) ∧
        err = .config ("invalid DB_PORT " ++ os.debug raw)) ∧
    ∀ env homeDir, resolve { os with env := env, homeDir := homeDir } (some path) database =
      resolve os (some path) database := by
  have hresolve : resolve os (some path) database =
      fromEnvFile os.debug path (.ok text) database := by
    rw [resolve, hread]
  refine and_assoc.mp ⟨?_, fun _ _ => rfl⟩
  rw [hresolve]
  by_cases hlacking : lacking (lines text) = []
  · have hset := lacking_eq_nil_iff.mp hlacking
    obtain ⟨host, hhost⟩ := hset "DB_HOST" (by decide)
    obtain ⟨user, huser⟩ := hset "DB_USER" (by decide)
    obtain ⟨password, hpassword⟩ := hset "DB_PASSWORD" (by decide)
    obtain ⟨hok, herr⟩ := fromEnvFile_complete os.debug path database hhost huser hpassword
    refine ⟨fun o => (hok o).trans ?_, fun err herror => .inr ⟨hlacking, herr err herror⟩⟩
    rw [hhost, huser, hpassword]
    constructor
    · rintro ⟨hport, ho⟩
      rw [ho]
      exact ⟨rfl, rfl, rfl, hport, rfl⟩
    · rintro ⟨⟨⟩, ⟨⟩, ⟨⟩, hport, ⟨⟩⟩
      exact ⟨hport, rfl⟩
  · rw [fromEnvFile_lacking os.debug path database hlacking]
    refine ⟨fun o => ⟨by rintro ⟨⟩, ?_⟩, ?_⟩
    · rintro ⟨hhost, huser, hpassword, _⟩
      refine absurd (lacking_eq_nil_iff.mpr fun key hkey => ?_) hlacking
      simp only [needed, List.mem_cons, List.not_mem_nil, or_false] at hkey
      obtain rfl | rfl | rfl := hkey
      · exact ⟨_, hhost⟩
      · exact ⟨_, huser⟩
      · exact ⟨_, hpassword⟩
    · rintro err ⟨⟩
      exact .inl ⟨hlacking, rfl⟩

/-- A file with either line end, a comment and two hosts; the password stands behind the last
newline. -/
def twoHostsFile : List FileLine :=
  [⟨"# login", true⟩, ⟨"DB_HOST=old", false⟩, ⟨"DB_HOST=new", true⟩, ⟨"DB_USER=root", false⟩]

def twoHosts : Os where
  readFile _ := .ok (write "DB_PASSWORD=a=b" twoHostsFile)
  env _ := none
  homeDir := none
  parseUrl := .error
  debug := id

theorem lines_twoHosts : lines (write "DB_PASSWORD=a=b" twoHostsFile) =
    ["# login", "DB_HOST=old", "DB_HOST=new", "DB_USER=root", "DB_PASSWORD=a=b"] := by
  have hfits : ∀ line ∈ twoHostsFile, line.Fits := by
    unfold FileLine.Fits
    decide
  rw [lines_write hfits (by decide)]
  rfl

theorem twoHosts_read :
    resolve twoHosts (some "creds.env") "main" = .ok ⟨"new", 3306, "root", "a=b", "main"⟩ := by
  refine ((env_file_reads twoHosts rfl "main").1 _).mpr ?_
  rw [lines_twoHosts]
  exact ⟨by decide +kernel, by decide +kernel, by decide +kernel,
    .inl ⟨by decide +kernel, rfl⟩, rfl⟩

end JobRunner.Jobctl.Db
