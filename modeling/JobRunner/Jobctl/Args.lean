import JobRunner.Lib.Text

/-!
# Command lines (`jobctl`, `Args::parse`)

The arguments of a subcommand are options with a value, flags and positional arguments. One
loop goes through them and takes a second one where a value stands apart from its name.

- `Args.parse`: the loop, with its two errors.
- `Opts`, `Item`, `CommandLine`: what a command line is made of, and how it is written.
- `parseFrom_item`: what the loop does with one item.
- `parse_undoes_rendering`: command lines are read back, and nothing else is accepted.
-/

open Text

namespace JobRunner.Jobctl

/-- `Args`. -/
structure Args where
  values : Std.HashMap String String := ∅
  flags : Std.HashSet String := ∅
  positional : List String := []

namespace Args

/-- `Args::value`. -/
def value (args : Args) (name : String) : Option String := args.values[name]?

/-- `Args::flag`. -/
def flag (args : Args) (name : String) : Bool := args.flags.contains name

def insertValue (args : Args) (name value : String) : Args :=
  { args with values := args.values.insert name value }

def insertFlag (args : Args) (name : String) : Args :=
  { args with flags := args.flags.insert name }

def push (args : Args) (arg : String) : Args :=
  { args with positional := args.positional ++ [arg] }

/-- The name in an argument, and the value after the first `=`. -/
def nameInline (arg : String) : String × Option String :=
  match splitOnce '=' arg with
  | some (name, value) => (name, some value)
  | none => (arg, none)

/-- The loop of `Args::parse`. -/
def parseFrom (valueOpts flagOpts : List String) (args : Args) :
    List String → Except String Args
  | [] => .ok args
  | arg :: rest =>
    if arg = "--" then .ok { args with positional := args.positional ++ rest }
    else if startsWith "--" arg = false then parseFrom valueOpts flagOpts (args.push arg) rest
    else if (nameInline arg).1 ∈ valueOpts then
      match (nameInline arg).2, rest with
      | some value, rest =>
        parseFrom valueOpts flagOpts (args.insertValue (nameInline arg).1 value) rest
      -- the next argument is the value, whatever it looks like
      | none, value :: rest =>
        parseFrom valueOpts flagOpts (args.insertValue (nameInline arg).1 value) rest
      | none, [] => .error ((nameInline arg).1 ++ " needs a value")
    else if (nameInline arg).1 ∈ flagOpts ∧ (nameInline arg).2 = none then
      parseFrom valueOpts flagOpts (args.insertFlag (nameInline arg).1) rest
    else .error ("unknown option " ++ arg ++ "; see jobctl --help")

/-- `Args::parse`. -/
def parse (raw valueOpts flagOpts : List String) : Except String Args :=
  parseFrom valueOpts flagOpts {} raw

end Args

/-! ## Command lines -/

/-- An argument that is looked up among the options. -/
structure IsOption (arg : String) : Prop where
  dashes : startsWith "--" arg = true
  ne : arg ≠ "--"

/-- A name that an option can have. -/
structure IsOptionName (name : String) : Prop extends IsOption name where
  noEq : '=' ∉ name.toList

/-- The options of a subcommand. -/
structure Opts where
  valueOpts : List String
  flagOpts : List String
  names : ∀ name ∈ valueOpts ++ flagOpts, IsOptionName name
  disjoint : ∀ name ∈ valueOpts, name ∉ flagOpts

/-- An item of a command line. -/
inductive Item (opts : Opts) where
  | value (name value : String) (isInline : Bool) (hname : name ∈ opts.valueOpts)
  | flag (name : String) (hname : name ∈ opts.flagOpts)
  | positional (arg : String) (harg : startsWith "--" arg = false)

/-- Items, and what follows a `--`. -/
structure CommandLine (opts : Opts) where
  items : List (Item opts)
  afterDashes : Option (List String)

variable {opts : Opts}

namespace Item

/-- `--name=value`, or `--name value`. -/
def render : Item opts → List String
  | .value name v true _ => [name ++ "=" ++ v]
  | .value name v false _ => [name, v]
  | .flag name _ => [name]
  | .positional arg _ => [arg]

/-- The value of the option `name`. -/
def value? (name : String) : Item opts → Option String
  | .value name' v _ _ => if name' = name then some v else none
  | _ => none

def isFlag (name : String) : Item opts → Bool
  | .flag name' _ => name' = name
  | _ => false

def positional? : Item opts → Option String
  | .positional arg _ => some arg
  | _ => none

end Item

namespace CommandLine

def render (line : CommandLine opts) : List String :=
  line.items.flatMap Item.render ++ line.afterDashes.elim [] ("--" :: ·)

/-- The last value of an option. -/
def lastValue (line : CommandLine opts) (name : String) : Option String :=
  (line.items.filterMap (Item.value? name)).getLast?

/-- The flag is given. -/
def hasFlag (line : CommandLine opts) (name : String) : Bool :=
  line.items.any (Item.isFlag name)

/-- The positional arguments, those after `--` included. -/
def positional (line : CommandLine opts) : List String :=
  line.items.filterMap Item.positional? ++ line.afterDashes.getD []

end CommandLine

/-! ## One item -/

/-- A value after `=` is split off. -/
theorem nameInline_inline {name : String} (h : '=' ∉ name.toList) (v : String) :
    Args.nameInline (name ++ "=" ++ v) = (name, some v) := by
  have hsplit : splitOnce '=' (name ++ "=" ++ v) = some (name, v) := by
    refine splitOnce_eq_some_iff.mpr ⟨h, ?_⟩
    rw [String.toList_append, String.toList_append, List.append_assoc]
    rfl
  rw [Args.nameInline, hsplit]

theorem nameInline_name {name : String} (h : '=' ∉ name.toList) :
    Args.nameInline name = (name, none) := by
  rw [Args.nameInline, splitOnce_eq_none_iff.mpr h]

/-- Put together again: the first `=` is the one the argument is split at, so the
name has none. -/
theorem eq_of_nameInline {arg name : String} {inlined : Option String}
    (h : Args.nameInline arg = (name, inlined)) :
    arg = inlined.elim name fun v => name ++ "=" ++ v := by
  rw [Args.nameInline] at h
  split at h
  next name' v hsplit =>
    cases h
    obtain ⟨-, harg⟩ := splitOnce_eq_some_iff.mp hsplit
    rw [← String.toList_inj, harg, Option.elim_some, String.toList_append,
      String.toList_append, List.append_assoc]
    rfl
  · cases h
    rfl

namespace Args

variable {valueOpts flagOpts : List String} {args : Args}

/-- What an item adds. -/
def add (args : Args) : Item opts → Args
  | .value name v _ _ => args.insertValue name v
  | .flag name _ => args.insertFlag name
  | .positional arg _ => args.push arg

theorem parseFrom_dashes (rest : List String) :
    parseFrom valueOpts flagOpts args ("--" :: rest) =
      .ok { args with positional := args.positional ++ rest } := by
  rw [parseFrom.eq_def]
  exact if_pos rfl

theorem parseFrom_positional {arg : String} (harg : startsWith "--" arg = false)
    (rest : List String) :
    parseFrom valueOpts flagOpts args (arg :: rest) =
      parseFrom valueOpts flagOpts (args.push arg) rest := by
  have hne : arg ≠ "--" := by
    rintro rfl
    cases harg
  rw [parseFrom.eq_def]
  exact (if_neg hne).trans (if_pos harg)

section Option

variable {arg name : String} {inlined : Option String} (harg : IsOption arg)
  (hinline : nameInline arg = (name, inlined))

include harg hinline

theorem parseFrom_value (hname : name ∈ valueOpts) {v : String} {rest rest' : List String}
    (hvalue : inlined = some v ∧ rest = rest' ∨ inlined = none ∧ rest = v :: rest') :
    parseFrom valueOpts flagOpts args (arg :: rest) =
      parseFrom valueOpts flagOpts (args.insertValue name v) rest' := by
  rw [parseFrom.eq_def]
  dsimp only
  rw [if_neg harg.ne, if_neg (by simp [harg.dashes]), hinline, if_pos hname]
  rcases hvalue with ⟨rfl, rfl⟩ | ⟨rfl, rfl⟩
  · rfl
  · rfl

theorem parseFrom_missing (hname : name ∈ valueOpts) (hinlined : inlined = none) :
    parseFrom valueOpts flagOpts args [arg] = .error (name ++ " needs a value") := by
  rw [parseFrom.eq_def]
  dsimp only
  rw [if_neg harg.ne, if_neg (by simp [harg.dashes]), hinline, if_pos hname, hinlined]

theorem parseFrom_flag (hvalue : name ∉ valueOpts) (hname : name ∈ flagOpts ∧ inlined = none)
    (rest : List String) :
    parseFrom valueOpts flagOpts args (arg :: rest) =
      parseFrom valueOpts flagOpts (args.insertFlag name) rest := by
  rw [parseFrom.eq_def]
  dsimp only
  rw [if_neg harg.ne, if_neg (by simp [harg.dashes]), hinline, if_neg hvalue, if_pos hname]

theorem parseFrom_unknown (hvalue : name ∉ valueOpts)
    (hname : ¬ (name ∈ flagOpts ∧ inlined = none)) (rest : List String) :
    parseFrom valueOpts flagOpts args (arg :: rest) =
      .error ("unknown option " ++ arg ++ "; see jobctl --help") := by
  rw [parseFrom.eq_def]
  dsimp only
  rw [if_neg harg.ne, if_neg (by simp [harg.dashes]), hinline, if_neg hvalue, if_neg hname]

end Option

/-- A name with a value behind it is an option, too. -/
theorem isOption_inline {name : String} (h : IsOption name) (v : String) :
    IsOption (name ++ "=" ++ v) := by
  refine ⟨startsWith_append (startsWith_append h.dashes _) _, fun heq => ?_⟩
  have hmem : '=' ∈ (name ++ "=" ++ v).toList := by simp
  rw [heq] at hmem
  revert hmem
  decide

/-- **One item is taken as a whole**, in both spellings of a value, whatever follows
it. A value is taken even if it looks like an option. -/
theorem parseFrom_item (item : Item opts) (rest : List String) :
    parseFrom opts.valueOpts opts.flagOpts args (item.render ++ rest) =
      parseFrom opts.valueOpts opts.flagOpts (args.add item) rest := by
  cases item with
  | value name v isInline hname =>
    have hopt := opts.names name (List.mem_append_left _ hname)
    cases isInline with
    | true =>
      exact parseFrom_value (isOption_inline hopt.toIsOption v) (nameInline_inline hopt.noEq v)
        hname (.inl ⟨rfl, rfl⟩)
    | false =>
      exact parseFrom_value hopt.toIsOption (nameInline_name hopt.noEq) hname (.inr ⟨rfl, rfl⟩)
  | flag name hname =>
    have hopt := opts.names name (List.mem_append_right _ hname)
    have hvalue : name ∉ opts.valueOpts := fun h => opts.disjoint name h hname
    exact parseFrom_flag hopt.toIsOption (nameInline_name hopt.noEq) hvalue ⟨hname, rfl⟩ rest
  | positional arg harg => exact parseFrom_positional harg rest

/-- So are all, one after the other, up to where the items end. -/
theorem parseFrom_items (items : List (Item opts)) (rest : List String) :
    parseFrom opts.valueOpts opts.flagOpts args (items.flatMap Item.render ++ rest) =
      parseFrom opts.valueOpts opts.flagOpts (items.foldl add args) rest := by
  induction items generalizing args with
  | nil => rfl
  | cons item items ih =>
    rw [List.flatMap_cons, List.append_assoc, parseFrom_item, ih, List.foldl_cons]

/-! ## What is read -/

theorem value_add (args : Args) (item : Item opts) (name : String) :
    (args.add item).value name = (item.value? name).or (args.value name) := by
  cases item with
  | value name' v isInline hname =>
    show (args.values.insert name' v)[name]? = _
    rw [Std.HashMap.getElem?_insert, Item.value?]
    by_cases h : name' = name
    · rw [if_pos (beq_iff_eq.mpr h), if_pos h]
      rfl
    · rw [if_neg (by simpa using h), if_neg h]
      rfl
  | flag => rfl
  | positional => rfl

theorem flag_add (args : Args) (item : Item opts) (name : String) :
    (args.add item).flag name = (item.isFlag name || args.flag name) := by
  cases item with
  | value => rfl
  | flag name' hname => exact Std.HashSet.contains_insert
  | positional => rfl

theorem positional_add (args : Args) (item : Item opts) :
    (args.add item).positional = args.positional ++ item.positional?.toList := by
  cases item with
  | value => exact (List.append_nil _).symm
  | flag => exact (List.append_nil _).symm
  | positional => rfl

/-- The last value counts, as each one replaces the one before. -/
theorem value_foldl (items : List (Item opts)) (args : Args) (name : String) :
    (items.foldl add args).value name =
      (items.filterMap (Item.value? name)).getLast?.or (args.value name) := by
  induction items generalizing args with
  | nil => rfl
  | cons item items ih =>
    rw [List.foldl_cons, ih, value_add, ← Option.or_assoc]
    congr 1
    cases hv : item.value? name with
    | none => rw [List.filterMap_cons_none hv, Option.or_none]
    | some v =>
      rw [List.filterMap_cons_some hv, List.getLast?_cons]
      cases (items.filterMap (Item.value? name)).getLast? <;> rfl

theorem flag_foldl (items : List (Item opts)) (args : Args) (name : String) :
    (items.foldl add args).flag name = (items.any (Item.isFlag name) || args.flag name) := by
  induction items generalizing args with
  | nil => rfl
  | cons item items ih =>
    rw [List.foldl_cons, ih, flag_add, List.any_cons, ← Bool.or_assoc,
      Bool.or_comm (items.any _)]

theorem positional_foldl (items : List (Item opts)) (args : Args) :
    (items.foldl add args).positional =
      args.positional ++ items.filterMap Item.positional? := by
  induction items generalizing args with
  | nil => exact (List.append_nil _).symm
  | cons item items ih =>
    rw [List.foldl_cons, ih, positional_add, List.append_assoc]
    congr 1
    cases hv : item.positional? with
    | none => rw [List.filterMap_cons_none hv]; rfl
    | some v => rw [List.filterMap_cons_some hv]; rfl

end Args

/-- `args` is what the command line says. -/
structure CommandLine.Denotes (line : CommandLine opts) (args : Args) : Prop where
  values : ∀ name, args.value name = line.lastValue name
  flags : ∀ name, args.flag name = line.hasFlag name
  positional : args.positional = line.positional

/-- **A command line is read back.** -/
theorem parse_render (line : CommandLine opts) :
    ∃ args, Args.parse line.render opts.valueOpts opts.flagOpts = .ok args ∧
      line.Denotes args := by
  have hvalues := Args.value_foldl line.items {}
  have hflags := Args.flag_foldl line.items {}
  have hpositional := Args.positional_foldl line.items {}
  rw [List.nil_append] at hpositional
  obtain ⟨items, afterDashes⟩ := line
  have hempty : ∀ name, Args.value {} name = none := fun name => Std.HashMap.getElem?_empty
  have hnone : ∀ name, Args.flag {} name = false := fun name => Std.HashSet.contains_empty
  simp only [hempty, Option.or_none] at hvalues
  simp only [hnone, Bool.or_false] at hflags
  rw [CommandLine.render, Args.parse, Args.parseFrom_items]
  cases afterDashes with
  | none => exact ⟨_, rfl, hvalues, hflags, hpositional.trans (List.append_nil _).symm⟩
  | some rest =>
    exact ⟨_, Args.parseFrom_dashes rest, hvalues, hflags, congrArg (· ++ rest) hpositional⟩

/-! ## What is refused -/

/-- The arguments begin with an option that is unknown, or lacks its value. -/
inductive Refused (opts : Opts) : List String → String → Prop where
  | missing {name : String} (hname : name ∈ opts.valueOpts) :
      Refused opts [name] (name ++ " needs a value")
  | unknown {arg : String} (harg : IsOption arg)
      (hvalue : (Args.nameInline arg).1 ∉ opts.valueOpts)
      (hflag : ¬ ((Args.nameInline arg).1 ∈ opts.flagOpts ∧ (Args.nameInline arg).2 = none))
      (rest : List String) :
      Refused opts (arg :: rest) ("unknown option " ++ arg ++ "; see jobctl --help")

theorem Refused.parseFrom {raw : List String} {err : String} (h : Refused opts raw err)
    (args : Args) : Args.parseFrom opts.valueOpts opts.flagOpts args raw = .error err := by
  cases h with
  | @missing name hname =>
    have hopt := opts.names name (List.mem_append_left _ hname)
    exact Args.parseFrom_missing hopt.toIsOption (nameInline_name hopt.noEq) hname rfl
  | unknown harg hvalue hflag rest => exact Args.parseFrom_unknown harg rfl hvalue hflag rest

/-- Arguments begin with an item, or with `--`, or with what is refused. There is
nothing else, so what is given can be taken apart from the front. -/
theorem begins (opts : Opts) (arg : String) (rest : List String) :
    (∃ (item : Item opts) (rest' : List String), arg :: rest = item.render ++ rest') ∨
      arg = "--" ∨ ∃ err, Refused opts (arg :: rest) err := by
  by_cases hne : arg = "--"
  · exact .inr (.inl hne)
  by_cases hpositional : startsWith "--" arg = false
  · exact .inl ⟨.positional arg hpositional, rest, rfl⟩
  have harg : IsOption arg := ⟨by simpa using hpositional, hne⟩
  rcases hinline : Args.nameInline arg with ⟨name, inlined⟩
  have heq := eq_of_nameInline hinline
  by_cases hvalue : name ∈ opts.valueOpts
  · rcases inlined with _ | v
    · -- the value is the next argument
      obtain rfl : arg = name := heq
      rcases rest with _ | ⟨v, rest⟩
      · exact .inr (.inr ⟨_, .missing hvalue⟩)
      · exact .inl ⟨.value arg v false hvalue, rest, rfl⟩
    · exact .inl ⟨.value name v true hvalue, rest, congrArg (· :: rest) heq⟩
  · by_cases hflag : name ∈ opts.flagOpts ∧ inlined = none
    · obtain ⟨hname, rfl⟩ := hflag
      exact .inl ⟨.flag name hname, rest, congrArg (· :: rest) heq⟩
    · refine .inr (.inr ⟨_, .unknown harg ?_ ?_ rest⟩)
      · rwa [hinline]
      · rwa [hinline]

/-- All arguments are items, up to the end, to a `--` or to what is refused. By
induction on their number, since an item may take two of them. -/
theorem exists_items (opts : Opts) (raw : List String) :
    ∃ (items : List (Item opts)) (rest : List String), raw = items.flatMap Item.render ++ rest ∧
      (rest = [] ∨ (∃ after, rest = "--" :: after) ∨ ∃ err, Refused opts rest err) := by
  induction hlen : raw.length using Nat.strong_induction_on generalizing raw with
  | _ n ih =>
    rcases raw with _ | ⟨arg, rest⟩
    · exact ⟨[], [], rfl, .inl rfl⟩
    rcases begins opts arg rest with ⟨item, rest', hitem⟩ | rfl | hrefused
    · have hshort : rest'.length < n := by
        have hpos : 0 < item.render.length := by
          rcases item with ⟨_, _, _ | _, _⟩ | _ | _ <;> exact Nat.succ_pos _
        rw [← hlen, hitem, List.length_append]
        omega
      obtain ⟨items, last, rfl, hlast⟩ := ih _ hshort rest' rfl
      refine ⟨item :: items, last, ?_, hlast⟩
      rw [hitem, List.flatMap_cons, List.append_assoc]
    · exact ⟨[], _, rfl, .inr (.inl ⟨rest, rfl⟩)⟩
    · exact ⟨[], _, rfl, .inr (.inr hrefused)⟩

/-- **Nothing else is accepted.** What is no command line has a first option that is unknown
or lacks its value, behind some items, and the error says so. -/
theorem parse_refused {raw : List String} (h : ∀ line : CommandLine opts, line.render ≠ raw) :
    ∃ (items : List (Item opts)) (rest : List String) (err : String),
      raw = items.flatMap Item.render ++ rest ∧ Refused opts rest err ∧
        Args.parse raw opts.valueOpts opts.flagOpts = .error err := by
  obtain ⟨items, rest, hraw, rfl | ⟨after, rfl⟩ | ⟨err, hrefused⟩⟩ := exists_items opts raw
  · exact absurd hraw.symm (h ⟨items, none⟩)
  · exact absurd hraw.symm (h ⟨items, some after⟩)
  · refine ⟨items, rest, err, hraw, hrefused, ?_⟩
    rw [Args.parse, hraw, Args.parseFrom_items]
    exact hrefused.parseFrom _

/-- **`Args::parse` undoes every rendering of a command line.** For all disjoint options with
names of options, a command line in any rendering is read as what it says, and everything
that is no such rendering fails. -/
theorem parse_undoes_rendering (opts : Opts) :
    (∀ line : CommandLine opts, ∃ args,
      Args.parse line.render opts.valueOpts opts.flagOpts = .ok args ∧ line.Denotes args) ∧
    ∀ raw : List String, (∀ line : CommandLine opts, line.render ≠ raw) →
      ∃ err, Args.parse raw opts.valueOpts opts.flagOpts = .error err := by
  refine ⟨parse_render, fun raw h => ?_⟩
  obtain ⟨_, _, err, -, -, herr⟩ := parse_refused h
  exact ⟨err, herr⟩

/-! ## The subcommands -/

instance (arg : String) : Decidable (IsOption arg) :=
  decidable_of_iff (startsWith "--" arg = true ∧ arg ≠ "--")
    ⟨fun h => ⟨h.1, h.2⟩, fun h => ⟨h.dashes, h.ne⟩⟩

instance (name : String) : Decidable (IsOptionName name) :=
  decidable_of_iff (IsOption name ∧ '=' ∉ name.toList)
    ⟨fun h => ⟨h.1, h.2⟩, fun h => ⟨h.toIsOption, h.noEq⟩⟩

/-- `DB_VALUES`. -/
def dbValues : List String := ["--env-file", "--database"]

/-- The options of `cmd_sql`. -/
def sqlOpts : Opts := ⟨dbValues, [], by decide, by decide⟩

/-- The options of `cmd_retrieve`. -/
def retrieveOpts : Opts := ⟨dbValues, ["--json"], by decide, by decide⟩

/-- The options of `cmd_enqueue`. -/
def enqueueOpts : Opts :=
  ⟨dbValues ++ ["--chat", "--user", "--show", "--poll-secs"], ["--no-wait"], by decide, by decide⟩

/-- The options of `cmd_ask`. -/
def askOpts : Opts := ⟨["--chat"], ["--stop", "--no-start"], by decide, by decide⟩

/-- Values in both spellings, a flag, and an argument behind `--` that looks like one. -/
def enqueueLine : CommandLine enqueueOpts where
  items := [.value "--chat" "12" false (by decide), .flag "--no-wait" (by decide),
    .positional "hello" (by decide), .value "--user" "3" true (by decide)]
  afterDashes := some ["--not-a-flag"]

/-- It is read, and an option that nobody knows is not. -/
theorem enqueueLine_read :
    (∃ args, Args.parse ["--chat", "12", "--no-wait", "hello", "--user=3", "--", "--not-a-flag"]
        enqueueOpts.valueOpts enqueueOpts.flagOpts = .ok args ∧
      args.value "--chat" = some "12" ∧ args.value "--user" = some "3" ∧
      args.flag "--no-wait" = true ∧ args.positional = ["hello", "--not-a-flag"]) ∧
    ∃ err, Args.parse ["--nope"] [] [] = .error err := by
  constructor
  · obtain ⟨args, hargs, hdenotes⟩ := (parse_undoes_rendering enqueueOpts).1 enqueueLine
    refine ⟨args, hargs, ?_, ?_, ?_, ?_⟩
    · rw [hdenotes.values]
      decide
    · rw [hdenotes.values]
      decide
    · rw [hdenotes.flags]
      decide
    · rw [hdenotes.positional]
      decide
  · refine (parse_undoes_rendering ⟨[], [], by decide, by decide⟩).2 ["--nope"] ?_
    rintro ⟨_ | ⟨item, items⟩, afterDashes⟩ hrender
    · rcases afterDashes with _ | after
      · cases hrender
      · exact absurd (List.cons.inj hrender).1 (by decide)
    · cases item with
      | value name v isInline hname => cases hname
      | flag name hname => cases hname
      | positional arg harg =>
        obtain rfl : arg = "--nope" := (List.cons.inj hrender).1
        cases harg

end JobRunner.Jobctl
