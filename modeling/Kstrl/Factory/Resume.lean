import Kstrl.Base.Json
import Kstrl.Base.Keyed
import Kstrl.Base.Runs
import Mathlib.Data.List.Nodup
import Mathlib.Data.List.Pairwise

/-!
# The flags and limits that retries carry

A run of `ks factory` records the options of its command line and the limits it runs under
(`kstrl/pipeline/launch_record.py`).  `ks retry` reads the record of the run its manifest names, spells the options
as a command line, and re-enters `ks factory` with it (`kstrl/factory/retry_plan.py`, `kstrl/cli/cli_architect.py`).
The retried run records its own, so that a second retry resumes the first.

Between two runs the environment and kstrl.toml change, records are deleted or damaged, the project moves, and an
older manifest comes back.

* **`parseArgs_optionArgv`**: the command line of a retry is parsed to the options it was spelled from.
* **`limits_kept`**: along every chain of retries a limit stays, unless a retry states it or the configuration changes
  at it while the confirmation is open.
* **`options_inherited`**: every run has the options that the statements of its chain of retries come to.
-/

namespace Kstrl

namespace Factory

namespace Resume

open Runs

/-! ## The options of a command -/

/-- An option of `ks factory`: its type converts a token, or checks a value.  Only a flag has a switch that turns it
off. -/
structure Param where
  name : String
  long : String
  secondary : Option String := none
  isFlag : Bool := false
  convert : Json → Except String Json
  flag_of_secondary : secondary.isSome → isFlag = true := by decide

/-- The switches of an option. -/
def Param.switches (p : Param) : List String := p.long :: p.secondary.toList

/-- A command, no name and no switch of which stands for two options. -/
structure Command where
  name : String
  params : List Param
  names : (params.map Param.name).Nodup
  spelled : (params.flatMap Param.switches).Nodup

/-- The option of a name. -/
def Command.param? (command : Command) (name : String) : Option Param := command.params.find? fun p => p.name = name

def isBool : Json → Bool
  | .bool _ => true
  | _ => false

/-- The tokens of a value that its option takes: a switch, or the option and the text of the value. -/
def switchOf (p : Param) (value : Json) : List String :=
  if p.isFlag then
    match p.secondary with
    | some off => [if value.truthy then p.long else off]
    | none => if value.truthy then [p.long] else []
  else [p.long, value.pyStr]

/-- `_spell` -/
def spell (p : Param) (value : Json) : Except String (List String) :=
  if isBool value ≠ p.isFlag then .error (p.long ++ " " ++ value.pyRepr ++ ": wrong kind of value")
  else match p.convert value with
    | .error message => .error (p.long ++ " " ++ value.pyRepr ++ ": " ++ message)
    | .ok _ => .ok (switchOf p value)

/-- The tokens of an option; `None` is not passed. -/
def optionTokens (p : Param) (value : Json) : Except String (List String) :=
  match value with
  | .null => .ok []
  | _ => spell p value

/-- `option_argv` -/
def optionArgv (command : Command) : List (String × Json) → Except String (List String)
  | [] => .ok []
  | (name, value) :: rest =>
      match command.param? name with
      | none => .error ("`ks " ++ command.name ++ "` has no option for '" ++ name ++ "'")
      | some p => (optionTokens p value).bind fun tokens => (optionArgv command rest).map (tokens ++ ·)

/-- The command line, parsed: every option in the order in which it stands, with its converted value. -/
def parseArgs (command : Command) : List String → Option (List (String × Json))
  | [] => some []
  | token :: rest =>
      match command.params.find? fun p => p.long = token with
      | some p =>
          if p.isFlag then (parseArgs command rest).map ((p.name, .bool true) :: ·)
          else match rest with
            | [] => none
            | value :: rest =>
                match p.convert (.str value) with
                | .ok converted => (parseArgs command rest).map ((p.name, converted) :: ·)
                | .error _ => none
      | none =>
          match command.params.find? fun p => p.secondary = some token with
          | some p => (parseArgs command rest).map ((p.name, .bool false) :: ·)
          | none => none

/-! ## The launch record -/

/-- `NOT_REPLAYED`. -/
def notReplayed : List (String × String) :=
  [("spec", "a retry resumes the manifest; it never decomposes a spec again"),
    ("manifest_path", "retry names its own manifest with --manifest"),
    ("root", "retry names its own root with --root"),
    ("project_name", "used only with --spec"),
    ("base_branch", "used only with --spec; the manifest carries its base branch"),
    ("single_pr", "the manifest is authoritative for single_pr"),
    ("progress_log", "a path of one invocation; retry takes its own --progress-log"),
    ("force_lock", "overrides another run's lock once; never carried to a later run"),
    ("yes", "retry asks its own confirmation and takes its own --yes"),
    ("ui", "display only; retry takes its own --ui"),
    ("no_color", "display only; retry takes its own --no-color")]

/-- The names of `REMOVED_OPTIONS`. -/
def removedOptions : List String :=
  ["verify_command", "test_command", "typecheck_command", "lint_command", "contract_test_cmd", "dead_code_cleanup",
    "dead_code_command", "mutation_testing", "mutation_threshold", "tui"]

/-- An option that a retry replays. -/
def Replayed (name : String) : Prop := name ∉ notReplayed.map Prod.fst

instance (name : String) : Decidable (Replayed name) := inferInstanceAs (Decidable (¬ _))

/-- The limits of `run_limits`, by option name. -/
def limitNames : List String :=
  ["max_cost_usd", "max_total_tokens", "max_adversarial_calls", "agent_timeout", "component_timeout"]

/-- `run_limits` of the configuration with the options applied. -/
def runLimits (config : String → Json) (given : List (String × Json)) : List (String × Json) :=
  limitNames.map fun name => (name, (given.lookup name).getD (config name))

/-- `value > 0` of a number. -/
def positive : Json → Bool
  | .int n => 0 < n
  | .float text => !Json.zeroLiteral text && text.toList.head? ≠ some '-' && text ≠ "NaN"
  | _ => false

/-- `math.isfinite` of a number. -/
def isFinite : Json → Bool
  | .int _ => true
  | .float text => text ∉ ["NaN", "Infinity", "-Infinity"]
  | _ => false

def isNumber : Json → Bool
  | .int _ | .float _ => true
  | _ => false

/-- `_is_flag_value` -/
def isFlagValue : Json → Bool
  | .str _ | .int _ | .float _ | .bool _ => true
  | _ => false

/-- `replayable_flags`, in the order of the command. -/
def replayableFlags (command : Command) (given : List (String × Json)) : List (String × Json) :=
  command.params.filterMap fun p => (if Replayed p.name then given.lookup p.name else none).map (p.name, ·)

/-- A launch record on the disk. -/
inductive LaunchFile where
  | missing
  | unreadable (why : String)
  | payload (j : Json)

/-- What `write_launch_record` writes. -/
def launchPayload (runId manifest version : String) (flags limits : List (String × Json)) : Json :=
  .obj [("runId", .str runId), ("manifest", .str manifest), ("flags", .obj flags), ("limits", .obj limits),
    ("kstrlVersion", .str version)]

structure LaunchRecord where
  runId : String
  manifest : String
  flags : List (String × Json)
  limits : List (String × Json)

structure LaunchRecordError where
  message : String
  cause : String := ""
  paths : List (String × String) := []

def unreadableCause : String := "the run's launch record cannot be read"

def anotherRun : String := "the launch record belongs to another run"

def moved : String :=
  "the launch record names a manifest at another path: this project moved " ++ "or was copied after the run"

def malformed : String := "the run's launch record is malformed"

/-- `_limits_problem` -/
def limitsProblem : Json → Option String
  | .obj fields => fields.findSome? fun e =>
      if isNumber e.2 = false then some ("limits['" ++ e.1 ++ "'] is " ++ e.2.pyRepr ++ ", not a number")
      else if isFinite e.2 = false then
        some ("limits['" ++ e.1 ++ "'] is " ++ e.2.pyRepr ++ ", not a finite number")
      else none
  | _ => some "limits is not a JSON object"

/-- `_shape_problem`; a record of an older version has the cost ceiling alone. -/
def shapeProblem (payload : Json) : Option String :=
  match payload.get? "flags" with
  | some (.obj flags) =>
      match flags.find? fun e => isFlagValue e.2 = false with
      | some e => some ("flags['" ++ e.1 ++ "'] is " ++ e.2.pyRepr ++ ", not a string, number or boolean")
      | none =>
          match payload.get? "limits" with
          | some limits => limitsProblem limits
          | none =>
              if isNumber (payload.field "maxCostUsd") = false then
                some ("maxCostUsd is " ++ (payload.field "maxCostUsd").pyRepr ++ ", not a number")
              else if isFinite (payload.field "maxCostUsd") = false ∨
                  (positive (payload.field "maxCostUsd") = false ∧ (payload.field "maxCostUsd").truthy) then
                some ("maxCostUsd is " ++ (payload.field "maxCostUsd").pyRepr ++ ", not a finite number >= 0")
              else none
  | _ => some "flags is not a JSON object"

/-- `payload.get(key) != text` -/
def differs (payload : Json) (key text : String) : Bool :=
  match payload.get? key with
  | some (.str found) => found ≠ text
  | _ => true

/-- `_record_problem`, with the cause it shows as. -/
def recordProblem (payload : Json) (runId manifestFile : String) : Option (String × String) :=
  match payload with
  | .obj _ =>
      if differs payload "runId" runId then
        some ("runId is " ++ (payload.field "runId").pyRepr ++ ", but the manifest names run '" ++ runId ++ "'",
          anotherRun)
      else if differs payload "manifest" manifestFile then
        some ("manifest is " ++ (payload.field "manifest").pyRepr ++ ", not '" ++ manifestFile ++ "'", moved)
      else (shapeProblem payload).map (·, malformed)
  | _ => some ("the record is not a JSON object", malformed)

/-- The entries of an object. -/
def entriesOf : Json → List (String × Json)
  | .obj fields => fields
  | _ => []

/-- `read_launch_record`, of the record at `path`. -/
def readLaunchRecord (path : String) (file : LaunchFile) (runId manifestFile : String) :
    Except LaunchRecordError (Option LaunchRecord) :=
  if runId = "" then .ok none
  else match file with
    | .missing => .ok none
    | .unreadable why => .error ⟨path ++ " cannot be read: " ++ why, unreadableCause, [("launch record", path)]⟩
    | .payload payload =>
        match recordProblem payload runId manifestFile with
        | some (problem, cause) => .error
            { message := path ++ " is not the record of this run: " ++ problem
              cause
              paths := ("launch record", path) :: if cause = moved then
                [("it names", (payload.field "manifest").pyStr), ("this project's", manifestFile)] else [] }
        | none => .ok (some
            { runId
              manifest := manifestFile
              flags := entriesOf (payload.field "flags")
              limits := match payload.get? "limits" with
                | some limits => entriesOf limits
                | none => [("max_cost_usd", payload.field "maxCostUsd")] })

/-! ## The plan of a retry -/

/-- The options of `ks retry` that win over the recorded ones. -/
structure RetryOptions where
  maxCostUsd : Option Json := none
  maxParallel : Option Json := none
  keepWorktreesOnFailure : Bool := false
  maxTotalTokens : Option Json := none
  maxAdversarialCalls : Option Json := none
  agentTimeout : Option Json := none
  componentTimeout : Option Json := none

/-- The options of the factory that a retry states. -/
def RetryOptions.overrides (o : RetryOptions) : List (String × Json) :=
  [("max_cost_usd", o.maxCostUsd), ("max_parallel", o.maxParallel),
    ("keep_worktrees_on_failure", if o.keepWorktreesOnFailure then some (.bool true) else none),
    ("max_total_tokens", o.maxTotalTokens), ("max_adversarial_calls", o.maxAdversarialCalls),
    ("agent_timeout", o.agentTimeout), ("component_timeout", o.componentTimeout)].filterMap fun e =>
      e.2.map (e.1, ·)

/-- `flags_argv` -/
def flagsArgv (command : Command) (flags : List (String × Json)) : Except String (List String) :=
  match flags.findSome? fun e => (notReplayed.lookup e.1).map (e.1, ·) with
  | some (name, why) => .error ("'" ++ name ++ "' is never replayed (" ++ why ++ ")")
  | none => optionArgv command flags

/-- `_opt` -/
def opt (name : String) : String := "--" ++ name.map fun c => if c = '_' then '-' else c

structure UnkeptLimit where
  name : String
  /-- what the resumed run ran under, where its record says -/
  ranUnder : Option Json

structure ResumePlan where
  runId : String
  carried : Bool
  argv : List String
  limits : List (String × Json)
  dropped : List String
  flags : List (String × Json)

/-- `_unkept_limits` -/
def unkeptLimits (record : Option LaunchRecord) (resolved : List (String × Json)) (stated : List String) :
    List UnkeptLimit :=
  let ranUnder := Keyed.dict ((record.map LaunchRecord.limits).getD [])
  (Keyed.dict (ranUnder ++ resolved)).filterMap fun e =>
    if e.1 ∈ stated ∨ (resolved.lookup e.1).any positive then none
    else match ranUnder.lookup e.1 with
      | none => some ⟨e.1, none⟩
      | some value => if positive value then some ⟨e.1, some value⟩ else none

/-- `_LIMIT_REMEDY` -/
def limitRemedy : String :=
  "pass each option named above to the retry: a value to keep that limit, or 0 to run without it"

/-- `_ceiling_problems` -/
def ceilingProblems (runId : String) (unkept : List UnkeptLimit) : List String :=
  (unkept.map fun limit => match limit.ranUnder with
    | none => opt limit.name ++ ": run " ++ (if runId = "" then "(none)" else runId) ++
        " left no launch record of this " ++
        "limit, so the value it ran under is unknown, and the environment and " ++ "kstrl.toml set none"
    | some value => opt limit.name ++ ": run " ++ runId ++ " ran under " ++ opt limit.name ++ " " ++ value.pyStr ++
        ", and " ++ "this retry resolves none: the limit came from the environment or " ++
        "kstrl.toml, which no longer set it") ++ [limitRemedy]

/-- The recorded flags that are still options, and what the retry states in their place. -/
def replayed (record : Option LaunchRecord) (o : RetryOptions) : List (String × Json) :=
  o.overrides.foldl (fun flags e => Keyed.set e.1 e.2 flags)
    ((Keyed.dict ((record.map LaunchRecord.flags).getD [])).filter fun e => e.1 ∉ removedOptions)

/-- `plan_resume`; a refusal has its problems, and the limits it names. -/
def planResume (command : Command) (path : String) (file : LaunchFile) (runId manifestFile : String)
    (config : String → Json) (o : RetryOptions) : Except (List String × List UnkeptLimit) ResumePlan :=
  match readLaunchRecord path file runId manifestFile with
  | .error e => .error ([e.message, "delete " ++ path ++ " to retry without the recorded flags"], [])
  | .ok record =>
      match flagsArgv command (replayed record o) with
      | .error message => .error ([message, "delete " ++ path ++ " to retry without the recorded flags"], [])
      | .ok argv =>
          match unkeptLimits record (runLimits config (replayed record o)) (o.overrides.map Prod.fst) with
          | [] => .ok
              { runId
                carried := record.isSome
                argv
                limits := runLimits config (replayed record o)
                dropped := ((Keyed.dict ((record.map LaunchRecord.flags).getD [])).map Prod.fst).filter
                  (· ∈ removedOptions)
                flags := replayed record o }
          | limit :: more => .error (ceilingProblems runId (limit :: more), limit :: more)

/-! ## Runs and retries -/

/-- What a retry was: what it stated, whether it found a record, and the limits of the configuration when it was
planned and when the command it re-enters loaded them. -/
structure Resumed where
  stated : List (String × Json)
  carried : Bool
  planned : String → Json
  loaded : String → Json

/-- A run, with the runs it descends from. -/
inductive Run where
  | launched (id : String) (given : List (String × Json)) (config : String → Json)
  | retried (parent : Run) (resumed : Resumed) (id : String) (given : List (String × Json))

namespace Run

def id : Run → String
  | launched id _ _ => id
  | retried _ _ id _ => id

/-- The options of its command line. -/
def given : Run → List (String × Json)
  | launched _ given _ => given
  | retried _ _ _ given => given

/-- The limits of the configuration it loaded. -/
def config : Run → String → Json
  | launched _ _ config => config
  | retried _ resumed _ _ => resumed.loaded

/-- The limits it runs under. -/
def limits (run : Run) : List (String × Json) := runLimits run.config run.given

/-- The options that the statements of its chain come to. -/
def inherited (name : String) : Run → Option Json
  | launched _ given _ => given.lookup name
  | retried parent resumed _ _ =>
      (resumed.stated.lookup name).or (if resumed.carried then inherited name parent else none)

end Run

/-- `b` descends from `a` by retries that meet `P`. -/
inductive Chain (P : Resumed → Prop) (a : Run) : Run → Prop where
  | refl : Chain P a a
  | retry {parent : Run} {resumed : Resumed} {id : String} {given : List (String × Json)} (chain : Chain P a parent)
      (meets : P resumed) : Chain P a (.retried parent resumed id given)

/-- The configuration, the place of the manifest, the records, the runs so far, and the run the manifest names. -/
structure Desk where
  config : String → Json
  manifestFile : String
  files : String → LaunchFile
  runs : List Run
  current : Option Run

/-- Options that a command line gives: each is one of the command, with a value that its type returned. -/
def Given (command : Command) (given : List (String × Json)) : Prop :=
  ∀ e ∈ given, ∃ p ∈ command.params, p.name = e.1 ∧
    if p.isFlag then ∃ b, e.2 = .bool b ∧ (b = false → p.secondary.isSome) else ∃ w, p.convert w = .ok e.2

inductive Action where
  /-- the environment or kstrl.toml changes -/
  | edit (config : String → Json)
  /-- the project moves -/
  | move (manifestFile : String)
  /-- a record goes, or cannot be read any more -/
  | lose (runId : String)
  | damage (runId why : String)
  /-- an older manifest comes back -/
  | restore (run : Run)
  /-- `ks factory`; `wrote` where the run comes as far as its record -/
  | launch (id : String) (given : List (String × Json)) (wrote : Bool)
  /-- `ks retry`, with the tokens of its own options, and the configuration that `ks factory` loads -/
  | retry (o : RetryOptions) (own : List String) (loaded : String → Json) (id : String) (wrote : Bool)

variable (command : Command) (pathOf : String → String) (version : String)

/-- A run begins: the manifest names it, and it leaves its record. -/
def Desk.begin (s : Desk) (run : Run) (wrote : Bool) : Desk where
  config := s.config
  manifestFile := s.manifestFile
  files := fun y =>
    if y = run.id then
      if wrote then
        .payload (launchPayload run.id s.manifestFile version (replayableFlags command run.given) run.limits)
      else .missing
    else s.files y
  runs := run :: s.runs
  current := some run

def Desk.Fresh (s : Desk) (id : String) : Prop := id ≠ "" ∧ ∀ run ∈ s.runs, run.id ≠ id

/-- One step.  A retry of a manifest that names no run is a launch. -/
def Step (s : Desk) (a : Action) (t : Desk) : Prop :=
  match a with
  | .edit config => t = { s with config }
  | .move manifestFile => t = { s with manifestFile }
  | .lose runId => t = { s with files := fun y => if y = runId then .missing else s.files y }
  | .damage runId why => t = { s with files := fun y => if y = runId then .unreadable why else s.files y }
  | .restore run => run ∈ s.runs ∧ t = { s with current := some run }
  | .launch id given wrote =>
      s.Fresh id ∧ Given command given ∧ (given.map Prod.fst).Nodup ∧
        t = s.begin command version (.launched id given s.config) wrote
  | .retry o own loaded id wrote =>
      s.Fresh id ∧ Given command o.overrides ∧ ∃ run plan mine parsed, s.current = some run ∧
        planResume command (pathOf run.id) (s.files run.id) run.id s.manifestFile s.config o = .ok plan ∧
        parseArgs command own = some mine ∧ (∀ e ∈ mine, ¬ Replayed e.1) ∧
        parseArgs command (own ++ plan.argv) = some parsed ∧
        t = s.begin command version
          (.retried run ⟨o.overrides, plan.carried, s.config, loaded⟩ id (Keyed.dict parsed)) wrote

/-- What the options of a command are to `plan_resume`: a type reads back from its text what it returned, and the
removed options are gone. -/
structure Command.Steady : Prop where
  texts : ∀ p ∈ command.params, p.isFlag = false → ∀ w v, p.convert w = .ok v →
    v ≠ .null ∧ isBool v = false ∧ p.convert (.str v.pyStr) = .ok v
  removed : ∀ p ∈ command.params, p.name ∉ removedOptions

/-! ## The command line of a retry -/

section Parse

variable {command} {p q : Param} {values given : List (String × Json)} {argv rest : List String} {name : String}

lemma Command.eq_of_switch (hp : p ∈ command.params) (hq : q ∈ command.params) {token : String}
    (h : token ∈ p.switches) (h' : token ∈ q.switches) : q = p := by
  by_contra hne
  obtain ⟨-, hpair⟩ := List.nodup_flatMap.mp command.spelled
  have : Std.Symm (Function.onFun List.Disjoint Param.switches) := ⟨fun _ _ h _ hb ha => h ha hb⟩
  exact hpair.forall hp hq (Ne.symm hne) h h'

lemma Command.eq_of_name (hp : p ∈ command.params) (hq : q ∈ command.params) (h : q.name = p.name) : q = p :=
  List.inj_on_of_nodup_map command.names hq hp h

lemma find_of_unique {α : Type} {f : α → Bool} {l : List α} {a : α} (ha : a ∈ l) (hf : f a = true)
    (hunique : ∀ b ∈ l, f b = true → b = a) : l.find? f = some a := by
  cases h : l.find? f with
  | none => exact absurd hf (by simpa using List.find?_eq_none.mp h a ha)
  | some b => rw [hunique b (List.mem_of_find?_eq_some h) (List.find?_some h)]

lemma Command.param?_eq (hp : p ∈ command.params) : command.param? p.name = some p :=
  find_of_unique hp (by simp) fun q hq h => command.eq_of_name hp hq (by simpa using h)

lemma Command.mem_of_param? (h : command.param? name = some p) : p ∈ command.params ∧ p.name = name :=
  ⟨List.mem_of_find?_eq_some h, by simpa using List.find?_some h⟩

lemma Command.find_long (hp : p ∈ command.params) : (command.params.find? fun q => q.long = p.long) = some p :=
  find_of_unique hp (by simp) fun q hq h =>
    command.eq_of_switch hp hq List.mem_cons_self (by simp [Param.switches, of_decide_eq_true h])

lemma Command.find_secondary (hp : p ∈ command.params) {off : String} (hoff : p.secondary = some off) :
    (command.params.find? fun q => q.long = off) = none ∧
      (command.params.find? fun q => q.secondary = some off) = some p := by
  have hmem : off ∈ p.switches := by simp [Param.switches, hoff]
  constructor
  · rw [List.find?_eq_none]
    intro q hq h
    obtain rfl := command.eq_of_switch hp hq hmem (by simp [Param.switches, of_decide_eq_true h])
    have hnodup := (List.nodup_flatMap.mp command.spelled).1 q hq
    rw [Param.switches, hoff, of_decide_eq_true h] at hnodup
    simp at hnodup
  · exact find_of_unique hp (by simp [hoff]) fun q hq h =>
      command.eq_of_switch hp hq hmem (by simp [Param.switches, of_decide_eq_true h])

/-! ### One option -/

lemma parseArgs_on (hp : p ∈ command.params) (hflag : p.isFlag = true) :
    parseArgs command (p.long :: rest) = (parseArgs command rest).map ((p.name, .bool true) :: ·) := by
  rw [parseArgs, command.find_long hp]
  simp [hflag]

lemma parseArgs_off (hp : p ∈ command.params) {off : String} (hoff : p.secondary = some off) :
    parseArgs command (off :: rest) = (parseArgs command rest).map ((p.name, .bool false) :: ·) := by
  obtain ⟨hlong, hfind⟩ := command.find_secondary hp hoff
  rw [parseArgs, hlong, hfind]

lemma parseArgs_value (hp : p ∈ command.params) (hflag : p.isFlag = false) {text : String} {value : Json}
    (hvalue : p.convert (.str text) = .ok value) :
    parseArgs command (p.long :: text :: rest) = (parseArgs command rest).map ((p.name, value) :: ·) := by
  rw [parseArgs, command.find_long hp]
  simp [hflag, hvalue]

/-- An option that `option_argv` spells: not `None`, and no plain flag that is off. -/
def Passed (command : Command) (e : String × Json) : Bool :=
  match e.2 with
  | .null => false
  | .bool false => (command.param? e.1).any fun p => p.secondary.isSome
  | _ => true

lemma spell_ok {value : Json} {tokens : List String} (h : spell p value = .ok tokens) :
    isBool value = p.isFlag ∧ tokens = switchOf p value := by
  rw [spell] at h
  by_cases hkind : isBool value = p.isFlag
  · rw [if_neg (not_not.mpr hkind)] at h
    cases hconvert : p.convert value <;> rw [hconvert] at h <;> cases h
    exact ⟨hkind, rfl⟩
  · rw [if_pos hkind] at h
    cases h

/-- One option that is spelled is parsed to its value. -/
lemma parseArgs_spell (hsteady : command.Steady) (hp : p ∈ command.params) {value : Json} (hnull : value ≠ .null)
    (htyped : p.isFlag = false → ∃ w, p.convert w = .ok value) {tokens : List String}
    (h : spell p value = .ok tokens) :
    parseArgs command (tokens ++ rest) =
      (parseArgs command rest).map (([(p.name, value)].filter (Passed command)) ++ ·) := by
  obtain ⟨hkind, rfl⟩ := spell_ok h
  cases hflag : p.isFlag with
  | false =>
      rw [hflag] at hkind
      obtain ⟨w, hw⟩ := htyped hflag
      have hpassed : Passed command (p.name, value) = true := by
        cases value <;> first | exact absurd rfl hnull | rfl | cases hkind
      have htext := (hsteady.texts p hp hflag w value hw).2.2
      simp [switchOf, hflag, parseArgs_value hp hflag htext, hpassed]
  | true =>
      rw [hflag] at hkind
      cases value with
      | bool b =>
          cases b with
          | true =>
              have hswitch : switchOf p (.bool true) = [p.long] := by
                cases hoff : p.secondary <;> simp [switchOf, hflag, hoff, Json.truthy]
              have hpassed : Passed command (p.name, .bool true) = true := rfl
              simp [hswitch, parseArgs_on hp hflag, hpassed]
          | false =>
              cases hoff : p.secondary with
              | none => simp [switchOf, hflag, hoff, Json.truthy, Passed, command.param?_eq hp]
              | some off =>
                  simp [switchOf, hflag, hoff, Json.truthy, parseArgs_off hp hoff, Passed, command.param?_eq hp]
      | _ => cases hkind

/-- **The command line of a retry** is parsed to the options it was spelled from. -/
lemma parseArgs_optionArgv (hsteady : command.Steady) (htyped : ∀ e ∈ values, e.2 ≠ .null →
      ∀ p ∈ command.params, p.name = e.1 → p.isFlag = false → ∃ w, p.convert w = .ok e.2)
    (h : optionArgv command values = .ok argv) : parseArgs command argv = some (values.filter (Passed command)) := by
  induction values generalizing argv with
  | nil =>
      cases h
      rfl
  | cons e values ih =>
      obtain ⟨name, value⟩ := e
      rw [optionArgv] at h
      cases hparam : command.param? name with
      | none =>
          rw [hparam] at h
          cases h
      | some p =>
          rw [hparam] at h
          obtain ⟨hp, rfl⟩ := Command.mem_of_param? hparam
          obtain ⟨tokens, htokens, h⟩ := Except.bind_eq_ok h
          obtain ⟨more, hmore, rfl⟩ := Except.map_eq_ok h
          have hrest := ih (fun e he => htyped e (List.mem_cons_of_mem _ he)) hmore
          by_cases hnull : value = .null
          · subst hnull
            cases htokens
            simp [hrest, Passed]
          · have hspell : spell p value = .ok tokens := by
              cases value <;> first | exact absurd rfl hnull | exact htokens
            rw [parseArgs_spell hsteady hp hnull (htyped _ List.mem_cons_self hnull p hp rfl) hspell, hrest]
            simp [← List.filter_append]

/-- A command line in front of another. -/
lemma parseArgs_append (h : parseArgs command argv = some given) :
    parseArgs command (argv ++ rest) = (parseArgs command rest).map (given ++ ·) := by
  fun_induction parseArgs command argv generalizing given with
  | case1 =>
      cases h
      simp
  | case2 token argv p hlong hflag ih =>
      obtain ⟨more, hmore, rfl⟩ := Option.map_eq_some_iff.mp h
      rw [List.cons_append, parseArgs, hlong]
      simp [hflag, ih hmore, Function.comp_def]
  | case3 token p hlong hflag => cases h
  | case4 token p hlong hflag text argv value hvalue ih =>
      obtain ⟨more, hmore, rfl⟩ := Option.map_eq_some_iff.mp h
      rw [List.cons_append, List.cons_append, parseArgs, hlong]
      simp [hflag, hvalue, ih hmore, Function.comp_def]
  | case5 token p hlong hflag text argv message hvalue => cases h
  | case6 token argv hlong p hoff ih =>
      obtain ⟨more, hmore, rfl⟩ := Option.map_eq_some_iff.mp h
      rw [List.cons_append, parseArgs, hlong, hoff]
      simp [ih hmore, Function.comp_def]
  | case7 token argv hlong hoff => cases h

/-- What a command line gives, its types returned. -/
lemma given_of_parseArgs (h : parseArgs command argv = some given) : Given command given := by
  fun_induction parseArgs command argv generalizing given with
  | case1 =>
      cases h
      exact List.forall_mem_nil _
  | case2 token argv p hlong hflag ih =>
      obtain ⟨more, hmore, rfl⟩ := Option.map_eq_some_iff.mp h
      refine List.forall_mem_cons.mpr ⟨⟨p, List.mem_of_find?_eq_some hlong, rfl, ?_⟩, ih hmore⟩
      rw [if_pos hflag]
      exact ⟨true, rfl, by rintro ⟨⟩⟩
  | case3 token p hlong hflag => cases h
  | case4 token p hlong hflag text argv value hvalue ih =>
      obtain ⟨more, hmore, rfl⟩ := Option.map_eq_some_iff.mp h
      refine List.forall_mem_cons.mpr ⟨⟨p, List.mem_of_find?_eq_some hlong, rfl, ?_⟩, ih hmore⟩
      rw [if_neg hflag]
      exact ⟨.str text, hvalue⟩
  | case5 token p hlong hflag text argv message hvalue => cases h
  | case6 token argv hlong p hoff ih =>
      obtain ⟨more, hmore, rfl⟩ := Option.map_eq_some_iff.mp h
      have hsome : p.secondary.isSome := by
        have hfound := List.find?_some hoff
        rw [of_decide_eq_true hfound]
        rfl
      refine List.forall_mem_cons.mpr ⟨⟨p, List.mem_of_find?_eq_some hoff, rfl, ?_⟩, ih hmore⟩
      rw [if_pos (p.flag_of_secondary hsome)]
      exact ⟨false, rfl, fun _ => hsome⟩
  | case7 token argv hlong hoff => cases h

end Parse

/-! ## What a retry carries -/

section Carries

variable {command} {s t : Desk} {a b run : Run} {name path manifest manifestFile : String} {file : LaunchFile}
  {o : RetryOptions} {config : String → Json} {plan : ResumePlan} {given parsed : List (String × Json)}

/-- The records that a desk can hold of a run. -/
inductive Recorded (command : Command) (version : String) (run : Run) : LaunchFile → Prop where
  | missing : Recorded command version run .missing
  | unreadable {why : String} : Recorded command version run (.unreadable why)
  | payload {manifest : String} : Recorded command version run
      (.payload (launchPayload run.id manifest version (replayableFlags command run.given) run.limits))

lemma readLaunchRecord_payload {version runId : String} {flags limits : List (String × Json)} (hid : runId ≠ "")
    {record : Option LaunchRecord}
    (h : readLaunchRecord path (.payload (launchPayload runId manifest version flags limits)) runId manifestFile =
      .ok record) : record = some ⟨runId, manifestFile, flags, limits⟩ := by
  rw [readLaunchRecord, if_neg hid] at h
  cases hproblem : recordProblem (launchPayload runId manifest version flags limits) runId manifestFile with
  | some problem =>
      rw [hproblem] at h
      cases h
  | none =>
      rw [hproblem] at h
      cases h
      rfl

/-- What a retry found: no record, or the options and limits of the run. -/
lemma readLaunchRecord_recorded {version : String} (hid : run.id ≠ "") (hfile : Recorded command version run file)
    {record : Option LaunchRecord} (h : readLaunchRecord path file run.id manifestFile = .ok record) :
    record = none ∨ record = some ⟨run.id, manifestFile, replayableFlags command run.given, run.limits⟩ := by
  cases hfile with
  | missing =>
      rw [readLaunchRecord, if_neg hid] at h
      cases h
      exact .inl rfl
  | unreadable =>
      rw [readLaunchRecord, if_neg hid] at h
      cases h
  | payload => exact .inr (readLaunchRecord_payload hid h)

lemma planResume_ok (h : planResume command path file name manifestFile config o = .ok plan) :
    ∃ record, readLaunchRecord path file name manifestFile = .ok record ∧ plan.carried = record.isSome ∧
      flagsArgv command (replayed record o) = .ok plan.argv ∧
      unkeptLimits record (runLimits config (replayed record o)) (o.overrides.map Prod.fst) = [] := by
  unfold planResume at h
  cases hread : readLaunchRecord path file name manifestFile with
  | error e =>
      rw [hread] at h
      cases h
  | ok record =>
      rw [hread] at h
      dsimp only at h
      cases hargv : flagsArgv command (replayed record o) with
      | error message =>
          rw [hargv] at h
          cases h
      | ok argv =>
          rw [hargv] at h
          dsimp only at h
          cases hunkept : unkeptLimits record (runLimits config (replayed record o)) (o.overrides.map Prod.fst) with
          | nil =>
              rw [hunkept] at h
              cases h
              exact ⟨record, rfl, rfl, hargv, hunkept⟩
          | cons limit more =>
              rw [hunkept] at h
              cases h

/-! ### The replayed options -/

lemma keys_filterMap (f : Param → Option Json) (params : List Param) :
    List.Sublist ((params.filterMap fun p => (f p).map (p.name, ·)).map Prod.fst) (params.map Param.name) := by
  induction params with
  | nil => exact .slnil
  | cons p params ih =>
      cases hf : f p with
      | none => simpa [hf] using ih.cons p.name
      | some value => simpa [hf] using ih

lemma lookup_filterMap_names (f : Param → Option Json) {params : List Param} (hnodup : (params.map Param.name).Nodup)
    {p : Param} (hp : p ∈ params) : (params.filterMap fun q => (f q).map (q.name, ·)).lookup p.name = f p := by
  cases hf : f p with
  | some value =>
      refine Keyed.lookup_of_mem ((keys_filterMap f params).nodup hnodup) (List.mem_filterMap.mpr ⟨p, hp, ?_⟩)
      rw [hf, Option.map_some]
  | none =>
      refine List.lookup_eq_none_iff.mpr fun e he => bne_iff_ne.mpr fun heq => ?_
      obtain ⟨q, hq, hmap⟩ := List.mem_filterMap.mp he
      obtain ⟨value, hvalue, rfl⟩ := Option.map_eq_some_iff.mp hmap
      rw [List.inj_on_of_nodup_map hnodup hq hp heq.symm, hf] at hvalue
      cases hvalue

/-- What is recorded of a replayed option is what the run was given. -/
lemma lookup_replayableFlags (hgiven : Given command given) (hname : Replayed name) :
    (replayableFlags command given).lookup name = given.lookup name := by
  by_cases hp : ∃ p ∈ command.params, p.name = name
  · obtain ⟨p, hp, rfl⟩ := hp
    rw [replayableFlags, lookup_filterMap_names _ command.names hp, if_pos hname]
  · have hnone : given.lookup name = none := by
      refine List.lookup_eq_none_iff.mpr fun e he => bne_iff_ne.mpr fun heq => ?_
      obtain ⟨p, hmem, hkey, -⟩ := hgiven e he
      exact hp ⟨p, hmem, hkey.trans heq.symm⟩
    rw [hnone]
    refine List.lookup_eq_none_iff.mpr fun e he => bne_iff_ne.mpr fun heq => ?_
    obtain ⟨p, hmem, hmap⟩ := List.mem_filterMap.mp he
    obtain ⟨value, -, rfl⟩ := Option.map_eq_some_iff.mp hmap
    exact hp ⟨p, hmem, heq.symm⟩

lemma nodup_replayableFlags : ((replayableFlags command given).map Prod.fst).Nodup :=
  (keys_filterMap _ _).nodup command.names

lemma given_replayableFlags (hgiven : Given command given) : Given command (replayableFlags command given) := by
  intro e he
  obtain ⟨p, hp, hmap⟩ := List.mem_filterMap.mp he
  obtain ⟨value, hvalue, rfl⟩ := Option.map_eq_some_iff.mp hmap
  split_ifs at hvalue
  exact hgiven (p.name, value) (Keyed.mem_of_lookup hvalue)

lemma nodup_overrides : (o.overrides.map Prod.fst).Nodup := by
  have hsublist (l : List (String × Option Json)) :
      List.Sublist ((l.filterMap fun e => e.2.map (e.1, ·)).map Prod.fst) (l.map Prod.fst) := by
    induction l with
    | nil => exact .slnil
    | cons e l ih =>
        obtain ⟨name, value⟩ := e
        cases value with
        | none => simpa using ih.cons name
        | some value => simpa using ih
  refine (hsublist _).nodup ?_
  simp only [List.map_cons, List.map_nil]
  decide

/-- Options that are given are passed. -/
lemma passed_of_given (hsteady : command.Steady) (h : Given command given) :
    given.filter (Passed command) = given := by
  refine List.filter_eq_self.mpr fun e he => ?_
  obtain ⟨name, value⟩ := e
  obtain ⟨p, hp, rfl, hvalue⟩ := h _ he
  split_ifs at hvalue with hflag
  · obtain ⟨b, rfl, hoff⟩ := hvalue
    cases b with
    | true => rfl
    | false => simpa [Passed, command.param?_eq hp] using hoff rfl
  · obtain ⟨w, hw⟩ := hvalue
    obtain ⟨hnull, hbool, -⟩ := hsteady.texts p hp (by simpa using hflag) w value hw
    cases value <;> first | exact absurd rfl hnull | rfl | cases hbool

/-! ### A retry that is planned -/

lemma lookup_reverse {l : List (String × Json)} (h : (l.map Prod.fst).Nodup) :
    l.reverse.lookup name = l.lookup name := by
  rw [← Keyed.lookup_dict, Keyed.dict_of_nodup h]

lemma lookup_foldl_set (l d : List (String × Json)) :
    (l.foldl (fun d e => Keyed.set e.1 e.2 d) d).lookup name = (l.reverse.lookup name).or (d.lookup name) := by
  induction l using List.reverseRecOn with
  | nil => rfl
  | append_singleton l e ih =>
      rw [List.foldl_append, List.foldl_cons, List.foldl_nil, Keyed.lookup_set, ih, List.reverse_append,
        List.reverse_singleton, List.singleton_append]
      obtain ⟨key, value⟩ := e
      rw [List.lookup_cons]
      cases name == key <;> rfl

lemma foldl_set_forall {P : String × Json → Prop} {l d : List (String × Json)} (hl : ∀ e ∈ l, P e)
    (hd : ∀ e ∈ d, P e) : ∀ e ∈ l.foldl (fun d e => Keyed.set e.1 e.2 d) d, P e := by
  induction l generalizing d with
  | nil => exact hd
  | cons e l ih =>
      refine ih (fun x hx => hl x (List.mem_cons_of_mem _ hx)) fun x hx => ?_
      rcases Keyed.mem_of_mem_set hx with rfl | hmem
      · exact hl _ List.mem_cons_self
      · exact hd x hmem

lemma foldl_set_nodup {l d : List (String × Json)} (hd : (d.map Prod.fst).Nodup) :
    ((l.foldl (fun d e => Keyed.set e.1 e.2 d) d).map Prod.fst).Nodup := by
  induction l generalizing d with
  | nil => exact hd
  | cons e l ih => exact ih (Keyed.nodup_set hd)

/-- The options of a record that are still options: all of them. -/
lemma filter_removed (hsteady : command.Steady) (hgiven : Given command given) :
    (given.filter fun e => e.1 ∉ removedOptions) = given := by
  refine List.filter_eq_self.mpr fun e he => ?_
  obtain ⟨p, hp, hkey, -⟩ := hgiven e he
  exact decide_eq_true (hkey ▸ hsteady.removed p hp)

/-- The options that a record gives. -/
def flagsOf (record : Option LaunchRecord) : List (String × Json) := (record.map LaunchRecord.flags).getD []

lemma replayed_spec (hsteady : command.Steady) {record : Option LaunchRecord}
    (hflags : Given command (flagsOf record)) (hnodup : ((flagsOf record).map Prod.fst).Nodup)
    (ho : Given command o.overrides) :
    Given command (replayed record o) ∧ ((replayed record o).map Prod.fst).Nodup ∧
      ∀ name, (replayed record o).lookup name = (o.overrides.lookup name).or ((flagsOf record).lookup name) := by
  have hstart : replayed record o = o.overrides.foldl (fun d e => Keyed.set e.1 e.2 d) (flagsOf record) := by
    rw [replayed, ← flagsOf, Keyed.dict_of_nodup hnodup, filter_removed hsteady hflags]
  rw [hstart]
  refine ⟨foldl_set_forall ho hflags, foldl_set_nodup hnodup, fun name => ?_⟩
  rw [lookup_foldl_set, lookup_reverse nodup_overrides]

lemma unkept_nil {record : Option LaunchRecord} {resolved : List (String × Json)} {stated : List String}
    {value : Json} (h : unkeptLimits record resolved stated = []) (hvalue : resolved.lookup name = some value) :
    name ∈ stated ∨ positive value = true ∨
      ∃ under, (Keyed.dict ((record.map LaunchRecord.limits).getD [])).lookup name = some under ∧
        positive under = false := by
  have hkey : name ∈ (Keyed.dict (Keyed.dict ((record.map LaunchRecord.limits).getD []) ++ resolved)).map Prod.fst :=
    Keyed.mem_keys_dict.mpr (by
      rw [List.map_append]
      exact List.mem_append_right _ (List.mem_map.mpr ⟨_, Keyed.mem_of_lookup hvalue, rfl⟩))
  obtain ⟨e, he, rfl⟩ := List.mem_map.mp hkey
  have hnone := List.filterMap_eq_nil_iff.mp h e he
  split_ifs at hnone with hkept
  · rw [hvalue] at hkept
    exact hkept.imp id fun hpositive => .inl hpositive
  · cases hunder : (Keyed.dict ((record.map LaunchRecord.limits).getD [])).lookup e.1 with
    | none =>
        rw [hunder] at hnone
        cases hnone
    | some under =>
        rw [hunder] at hnone
        dsimp only at hnone
        split_ifs at hnone with hpositive
        exact .inr (.inr ⟨under, rfl, by simpa using hpositive⟩)

lemma lookup_runLimits (hname : name ∈ limitNames) :
    (runLimits config given).lookup name = some ((given.lookup name).getD (config name)) := by
  refine Keyed.lookup_of_mem ?_ (List.mem_map.mpr ⟨name, hname, rfl⟩)
  rw [runLimits, List.map_map]
  exact (by decide : limitNames.Nodup)

lemma nodup_runLimits : ((runLimits config given).map Prod.fst).Nodup := by
  rw [runLimits, List.map_map]
  exact (by decide : limitNames.Nodup)

/-- What a retry carries over from the run it resumes. -/
structure Carries (parent : Run) (resumed : Resumed) (given : List (String × Json)) : Prop where
  options : ∀ name, Replayed name → given.lookup name =
    (resumed.stated.lookup name).or (if resumed.carried then parent.given.lookup name else none)
  limits : ∀ name ∈ limitNames, name ∉ resumed.stated.map Prod.fst →
    positive ((parent.given.lookup name).getD (parent.config name)) = true →
      positive ((given.lookup name).getD (resumed.planned name)) = true

/-- **A planned retry** carries over the options and the limits of the run it resumes. -/
lemma carries_of_plan (hsteady : command.Steady) {version : String} {own : List String}
    {mine : List (String × Json)} (hid : run.id ≠ "") (hgiven : Given command run.given)
    (hfile : Recorded command version run file) (ho : Given command o.overrides)
    (hplan : planResume command path file run.id manifestFile config o = .ok plan)
    (hmine : parseArgs command own = some mine) (hself : ∀ e ∈ mine, ¬ Replayed e.1)
    (hparsed : parseArgs command (own ++ plan.argv) = some parsed) (loaded : String → Json) :
    Given command (Keyed.dict parsed) ∧
      Carries run ⟨o.overrides, plan.carried, config, loaded⟩ (Keyed.dict parsed) := by
  obtain ⟨record, hread, hcarried, hargv, hunkept⟩ := planResume_ok hplan
  have hrecord := readLaunchRecord_recorded hid hfile hread
  have hflags : Given command (flagsOf record) ∧ ((flagsOf record).map Prod.fst).Nodup ∧
      ∀ name, Replayed name →
        (flagsOf record).lookup name = if record.isSome then run.given.lookup name else none := by
    rcases hrecord with rfl | rfl
    · exact ⟨List.forall_mem_nil _, List.nodup_nil, fun _ _ => rfl⟩
    · exact ⟨given_replayableFlags hgiven, nodup_replayableFlags, fun _ hname => lookup_replayableFlags hgiven hname⟩
  obtain ⟨hreplayed, hnodup, hlookup⟩ := replayed_spec hsteady hflags.1 hflags.2.1 ho
  have hoption : optionArgv command (replayed record o) = .ok plan.argv := by
    unfold flagsArgv at hargv
    split at hargv
    · cases hargv
    · exact hargv
  have hplanned : parseArgs command plan.argv = some (replayed record o) := by
    rw [parseArgs_optionArgv hsteady ?_ hoption, passed_of_given hsteady hreplayed]
    intro e he _ p hp hkey hflag
    obtain ⟨q, hq, hname, hvalue⟩ := hreplayed e he
    obtain rfl := command.eq_of_name hp hq (hname.trans hkey.symm)
    rwa [hflag, if_neg Bool.false_ne_true] at hvalue
  have hall : parsed = mine ++ replayed record o := by
    rw [parseArgs_append hmine, hplanned] at hparsed
    exact (Option.some.inj hparsed).symm
  have hagain : ∀ name, Replayed name → (Keyed.dict parsed).lookup name = (replayed record o).lookup name := by
    intro name hname
    have hnone : mine.reverse.lookup name = none := by
      refine List.lookup_eq_none_iff.mpr fun e he => bne_iff_ne.mpr ?_
      rintro rfl
      exact hself e (List.mem_reverse.mp he) hname
    rw [Keyed.lookup_dict, hall, List.reverse_append, List.lookup_append, hnone, Option.or_none,
      lookup_reverse hnodup]
  refine ⟨?_, ?_, ?_⟩
  · exact foldl_set_forall (given_of_parseArgs hparsed) (List.forall_mem_nil _)
  · intro name hname
    rw [hagain name hname, hlookup, hflags.2.2 name hname, hcarried]
  · intro name hname hstated hpositive
    have hreplay : Replayed name := (by decide : ∀ name ∈ limitNames, Replayed name) name hname
    rw [hagain name hreplay]
    rcases unkept_nil hunkept (lookup_runLimits hname) with hmem | hkept | ⟨under, hunder, hzero⟩
    · exact absurd hmem hstated
    · exact hkept
    · -- the record says what the run ran under
      rcases hrecord with rfl | rfl
      · cases hunder
      · have hran : (Keyed.dict run.limits).lookup name = some under := hunder
        rw [Run.limits, Keyed.dict_of_nodup nodup_runLimits, lookup_runLimits hname] at hran
        rw [Option.some.inj hran, hzero] at hpositive
        cases hpositive

/-! ## Every run -/

/-- The runs that the steps make. -/
inductive Lawful (command : Command) : Run → Prop where
  | launched {id : String} {given : List (String × Json)} {config : String → Json} (valid : Given command given) :
      Lawful command (.launched id given config)
  | retried {parent : Run} {resumed : Resumed} {id : String} {given : List (String × Json)}
      (lawful : Lawful command parent) (valid : Given command given) (carries : Carries parent resumed given) :
      Lawful command (.retried parent resumed id given)

lemma Lawful.valid {run : Run} (h : Lawful command run) : Given command run.given := by
  cases h with
  | launched valid => exact valid
  | retried _ valid _ => exact valid

/-- What holds of every desk. -/
structure Inv (command : Command) (version : String) (s : Desk) : Prop where
  lawful : ∀ run ∈ s.runs, Lawful command run
  ids : ∀ run ∈ s.runs, run.id ≠ ""
  recorded : ∀ run ∈ s.runs, Recorded command version run (s.files run.id)
  current : ∀ run, s.current = some run → run ∈ s.runs

lemma Inv.begin {version : String} (h : Inv command version s) {id : String} (hfresh : s.Fresh id) (hid : run.id = id)
    (hlawful : Lawful command run) (wrote : Bool) : Inv command version (s.begin command version run wrote) := by
  subst hid
  refine ⟨List.forall_mem_cons.mpr ⟨hlawful, h.lawful⟩, List.forall_mem_cons.mpr ⟨hfresh.1, h.ids⟩,
    List.forall_mem_cons.mpr ⟨?_, ?_⟩, ?_⟩
  · cases wrote with
    | true => simpa [Desk.begin] using .payload
    | false => simpa [Desk.begin] using .missing
  · intro other hother
    simpa [Desk.begin, hfresh.2 other hother] using h.recorded other hother
  · rintro other ⟨⟩
    exact List.mem_cons_self

/-- **One step** keeps it. -/
lemma Inv.step {pathOf : String → String} {version : String} (hsteady : command.Steady) (h : Inv command version s)
    {action : Action} (hstep : Step command pathOf version s action t) : Inv command version t := by
  cases action with
  | edit config =>
      cases hstep
      exact ⟨h.lawful, h.ids, h.recorded, h.current⟩
  | move manifestFile =>
      cases hstep
      exact ⟨h.lawful, h.ids, h.recorded, h.current⟩
  | lose runId =>
      cases hstep
      refine ⟨h.lawful, h.ids, fun run hrun => ?_, h.current⟩
      dsimp only
      split_ifs
      · exact .missing
      · exact h.recorded run hrun
  | damage runId why =>
      cases hstep
      refine ⟨h.lawful, h.ids, fun run hrun => ?_, h.current⟩
      dsimp only
      split_ifs
      · exact .unreadable
      · exact h.recorded run hrun
  | restore run =>
      obtain ⟨hmem, rfl⟩ := hstep
      exact ⟨h.lawful, h.ids, h.recorded, by rintro other ⟨⟩; exact hmem⟩
  | launch id given wrote =>
      obtain ⟨hfresh, hgiven, -, rfl⟩ := hstep
      exact h.begin hfresh rfl (.launched hgiven) wrote
  | retry o own loaded id wrote =>
      obtain ⟨hfresh, ho, run, plan, mine, parsed, hcurrent, hplan, hmine, hself, hparsed, rfl⟩ := hstep
      have hrun := h.current run hcurrent
      obtain ⟨hvalid, hcarries⟩ := carries_of_plan hsteady (h.ids run hrun) (h.lawful run hrun).valid
        (h.recorded run hrun) ho hplan hmine hself hparsed loaded
      exact h.begin hfresh rfl (.retried (h.lawful run hrun) hvalid hcarries) wrote

/-- The desk before the first run. -/
structure Desk.Start (s : Desk) : Prop where
  runs : s.runs = []
  current : s.current = none

lemma inv_of_reaches {pathOf : String → String} {version : String} {start : Desk} (hsteady : command.Steady)
    (hstart : start.Start) (hrun : Reaches (Step command pathOf version) Always start s) : Inv command version s := by
  refine hrun.invariant ⟨?_, ?_, ?_, ?_⟩ fun _ _ _ h _ hstep => h.step hsteady hstep
  · rw [hstart.runs]
    exact List.forall_mem_nil _
  · rw [hstart.runs]
    exact List.forall_mem_nil _
  · rw [hstart.runs]
    exact List.forall_mem_nil _
  · intro run hcurrent
    rw [hstart.current] at hcurrent
    cases hcurrent

/-- The limit of a run. -/
def Run.limit (run : Run) (name : String) : Json := (run.given.lookup name).getD (run.config name)

/-! ### A run that is retried twice -/

/-- `LIMIT_INT`, of the numbers below ten. -/
def intType : Json → Except String Json
  | .int n => if 0 ≤ n ∧ n < 10 then .ok (.int n) else .error "not in the range"
  | .str text =>
      match (List.range 10).find? fun n : ℕ => toString (Int.ofNat n) = text with
      | some n => .ok (.int (Int.ofNat n))
      | none => .error "not a valid integer."
  | _ => .error "not a valid integer."

def pathType : Json → Except String Json
  | .str path => .ok (.str path)
  | _ => .error "not a path"

def boolType : Json → Except String Json
  | .bool b => .ok (.bool b)
  | _ => .error "not a valid boolean."

def factoryCommand : Command where
  name := "factory"
  params := [⟨"manifest_path", "--manifest", none, false, pathType, by decide⟩,
    ⟨"create_prs", "--create-prs", some "--no-prs", true, boolType, fun _ => rfl⟩,
    ⟨"keep_worktrees_on_failure", "--keep-worktrees-on-failure", none, true, boolType, by decide⟩,
    ⟨"max_adversarial_calls", "--max-adversarial-calls", none, false, intType, by decide⟩,
    ⟨"max_parallel", "--max-parallel", none, false, intType, by decide⟩]
  names := by decide
  spelled := by decide

lemma intType_steady {w v : Json} (h : intType w = .ok v) :
    v ≠ .null ∧ isBool v = false ∧ intType (.str v.pyStr) = .ok v := by
  have hdigit : ∃ n < 10, v = .int (Int.ofNat n) := by
    cases w with
    | int n =>
        simp only [intType] at h
        split_ifs at h with hrange
        cases h
        exact ⟨n.toNat, by omega, by rw [Int.ofNat_eq_natCast, Int.toNat_of_nonneg hrange.1]⟩
    | str text =>
        simp only [intType] at h
        split at h
        · rename_i n hfind
          cases h
          exact ⟨n, List.mem_range.mp (List.mem_of_find?_eq_some hfind), rfl⟩
        · cases h
    | _ => cases h
  obtain ⟨n, hn, rfl⟩ := hdigit
  have hall : ∀ n < 10,
      (List.range 10).find? (fun m : ℕ => toString (Int.ofNat m) = toString (Int.ofNat n)) = some n := by
    decide +kernel
  have htext : intType (.str (toString (Int.ofNat n))) = .ok (.int (Int.ofNat n)) := by
    rw [intType, hall n hn]
  exact ⟨by rintro ⟨⟩, rfl, htext⟩

lemma pathType_steady {w v : Json} (h : pathType w = .ok v) :
    v ≠ .null ∧ isBool v = false ∧ pathType (.str v.pyStr) = .ok v := by
  cases w <;> cases h
  exact ⟨by rintro ⟨⟩, rfl, rfl⟩

lemma factoryCommand_steady : factoryCommand.Steady := by
  refine ⟨?_, by decide⟩
  intro p hp hflag w v hv
  simp only [factoryCommand, List.mem_cons, List.not_mem_nil, or_false] at hp
  rcases hp with rfl | rfl | rfl | rfl | rfl
  · exact pathType_steady hv
  · cases hflag
  · cases hflag
  · exact intType_steady hv
  · exact intType_steady hv

def firstDesk : Desk where
  config := fun _ => .int 0
  manifestFile := "/p/manifest.json"
  files := fun _ => .missing
  runs := []
  current := none

/-- `ks factory --no-prs --max-adversarial-calls 6`. -/
def firstRun : Run :=
  .launched "r1" [("create_prs", .bool false), ("max_adversarial_calls", .int 6)] firstDesk.config

def launchedDesk : Desk := firstDesk.begin factoryCommand "1" firstRun true

/-- `ks retry --max-parallel 2`. -/
def secondOptions : RetryOptions := { maxParallel := some (.int 2) }

def secondPlan : ResumePlan :=
  (planResume factoryCommand "launch.json" (launchedDesk.files "r1") "r1" "/p/manifest.json" firstDesk.config
    secondOptions).toOption.get (by decide +kernel)

def secondGiven : List (String × Json) :=
  Keyed.dict ((parseArgs factoryCommand (["--manifest", "m"] ++ secondPlan.argv)).get (by decide +kernel))

def secondRun : Run :=
  .retried firstRun ⟨secondOptions.overrides, secondPlan.carried, firstDesk.config, firstDesk.config⟩ "r2" secondGiven

lemma planResume_second : planResume factoryCommand "launch.json" (launchedDesk.files "r1") "r1" "/p/manifest.json"
    firstDesk.config secondOptions = .ok secondPlan := by
  have hget (x : Except (List String × List UnkeptLimit) ResumePlan) (h : x.toOption.isSome) :
      x = .ok (x.toOption.get h) := by
    cases x with
    | error e => cases h
    | ok plan => rfl
  exact hget _ _

/-- The first run, and its retry. -/
lemma secondDesk_reaches : Reaches (Step factoryCommand (fun _ => "launch.json") "1") Always firstDesk
    (launchedDesk.begin factoryCommand "1" secondRun true) := by
  have hfirst : Given factoryCommand [("create_prs", .bool false), ("max_adversarial_calls", .int 6)] :=
    given_of_parseArgs (rfl : parseArgs factoryCommand ["--no-prs", "--max-adversarial-calls", "6"] = _)
  have hsecond : Given factoryCommand secondOptions.overrides :=
    given_of_parseArgs (rfl : parseArgs factoryCommand ["--max-parallel", "2"] = _)
  have hlaunch : Step factoryCommand (fun _ => "launch.json") "1" firstDesk
      (.launch "r1" [("create_prs", .bool false), ("max_adversarial_calls", .int 6)] true) launchedDesk :=
    ⟨⟨by decide, List.forall_mem_nil _⟩, hfirst, by decide, rfl⟩
  refine .tail (.single trivial hlaunch) trivial
    (a := .retry secondOptions ["--manifest", "m"] firstDesk.config "r2" true)
    ⟨⟨by decide, ?_⟩, hsecond, firstRun, secondPlan, [("manifest_path", .str "m")], _, rfl, planResume_second, rfl,
      ?_, (Option.some_get _).symm, rfl⟩
  · intro run hrun
    obtain rfl := List.mem_singleton.mp hrun
    decide
  · intro e he
    obtain rfl := List.mem_singleton.mp he
    decide

/-- **Retries keep the limits.**  In every history of launches, retries, edits of the configuration and losses of
records, a run that descends by retries from one with a limit has the limit too, unless a retry on the way stated the
option or the configuration changed at it while the confirmation was open. -/
theorem limits_kept {pathOf : String → String} {version : String} {start : Desk} (hsteady : command.Steady)
    (hstart : start.Start) (hrun : Reaches (Step command pathOf version) Always start s) (hb : b ∈ s.runs)
    (hname : name ∈ limitNames)
    (chain : Chain (fun r => name ∉ r.stated.map Prod.fst ∧ r.loaded name = r.planned name) a b)
    (hlimit : positive (a.limit name) = true) : positive (b.limit name) = true := by
  have hlawful := (inv_of_reaches hsteady hstart hrun).lawful b hb
  clear hb
  induction chain with
  | refl => exact hlimit
  | retry chain hmeets ih =>
      cases hlawful with
      | retried hparent hvalid hcarries =>
          have := hcarries.limits name hname hmeets.1 (ih hparent)
          rwa [← hmeets.2] at this

/-- The cap of the first run is the second's. -/
theorem limits_kept_second : positive (secondRun.limit "max_adversarial_calls") = true :=
  limits_kept factoryCommand_steady ⟨rfl, rfl⟩ secondDesk_reaches List.mem_cons_self (by decide)
    (.retry (.refl (a := firstRun)) ⟨by decide, rfl⟩) (by decide +kernel)

/-- **Retries keep the options.**  In every such history, the options of every run are those that the statements of
its retries come to: what the last retry that stated an option said, and before it what the launch was given, as far
as every retry found the record of the run it resumed. -/
theorem options_inherited {pathOf : String → String} {version : String} {start : Desk} (hsteady : command.Steady)
    (hstart : start.Start) (hrun : Reaches (Step command pathOf version) Always start s) (hb : b ∈ s.runs)
    (hname : Replayed name) : b.given.lookup name = b.inherited name := by
  have hlawful := (inv_of_reaches hsteady hstart hrun).lawful b hb
  clear hb
  induction hlawful with
  | launched hvalid => rfl
  | retried hparent hvalid hcarries ih =>
      rw [Run.inherited, ← ih]
      exact hcarries.options name hname

/-- The second run opens no PRs either. -/
theorem options_inherited_second : secondRun.given.lookup "create_prs" = secondRun.inherited "create_prs" :=
  options_inherited factoryCommand_steady ⟨rfl, rfl⟩ secondDesk_reaches List.mem_cons_self (by decide)

end Carries

end Resume

end Factory

end Kstrl
