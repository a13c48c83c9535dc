import Kstrl.Base.JsonLayout
import Kstrl.Base.PyText

/-!
# The `[stack]` table

`kstrl/project/stack.py`: every reason a table is no usable stack (`stack_errors`), the stack in an accepted one and its
digest.
-/

namespace Kstrl

def notChecked : String := "has not been checked for a confirmation"

/-- One loaded `[stack]`. -/
structure Stack where
  instructions : String
  setup : String
  checks : List (String × String)
  env : List String
  writable : List String := []
  readable : List String := []
  browser : Bool := false
  up : String := ""
  /-- why no command of it may run; empty when it may -/
  unconfirmed : String := notChecked
  confirmedBy : String := ""
  deriving DecidableEq

end Kstrl

namespace Kstrl.Stack

def stackKeys : List String := ["instructions", "setup", "checks", "env"]

def stackRungKeys : List String := ["writable", "readable", "browser"]

def allKeys : List String := stackKeys ++ stackRungKeys ++ ["up"]

def secretNameFragments : List String := ["API_KEY", "SECRET", "TOKEN", "PASSWORD", "CREDENTIAL"]

def kstrlEnvPrefix : String := "KSTRL_"

/-- `_ENV_NAME.fullmatch`. -/
def matchesEnvName (s : String) : Bool :=
  match s.toList with
  | c :: rest => (c.isAlpha || c = '_') && rest.all fun c => c.isAlphanum || c = '_'
  | [] => false

def nonemptyText : Json → Bool
  | .str s => PyText.strip s ≠ ""
  | _ => false

def envNameErrors (index : ℕ) (name : Json) : List String :=
  let where_ := "env[" ++ toString index ++ "]"
  match name with
  | .str s =>
      if !matchesEnvName s then [where_ ++ " must be a variable name, got " ++ name.pyRepr]
      else if secretNameFragments.any fun fragment => PyText.contains s.toUpper fragment then
        [where_ ++ " " ++ s ++ " looks like a secret (" ++ String.intercalate ", " secretNameFragments ++
          "); a check never sees a secret"]
      else if kstrlEnvPrefix.toList.isPrefixOf s.toList then
        [where_ ++ " " ++ s ++ " is kstrl's own; kstrl sets what a check needs"]
      else []
  | _ => [where_ ++ " must be a variable name, got " ++ name.pyRepr]

def envErrors : Json → List String
  | .arr names => names.zipIdx.flatMap fun (name, index) => envNameErrors index name
  | value => ["env must be a list of variable names, got " ++ value.pyRepr]

def pathsErrors (key : String) : Json → List String
  | .arr paths => (paths.zipIdx.filter fun entry => !nonemptyText entry.1).map fun (path, index) =>
      key ++ "[" ++ toString index ++ "] must be a non-empty path, got " ++ path.pyRepr
  | value => [key ++ " must be a list of paths, got " ++ value.pyRepr]

def checksErrors : Json → List String
  | .obj [] => ["checks is empty; a stack runs at least one check"]
  | .obj checks => (checks.filter fun check => !nonemptyText check.2).map fun (name, command) =>
      "checks." ++ name ++ " must be a non-empty command string, got " ++ command.pyRepr
  | value => ["checks must be a table of name = command, got " ++ value.pyRepr]

def isText : Json → Bool
  | .str _ => true
  | _ => false

def isBool : Json → Bool
  | .bool _ => true
  | _ => false

/-- Why a value that stands under a key is refused, and nothing where the key is absent. -/
def errorsAt (raw : Json) (key : String) (errors : Json → List String) : List String :=
  ((raw.get? key).map errors).getD []

def stackErrors (fields : List (String × Json)) : List String :=
  let raw := Json.obj fields
  ((fields.filter fun f => f.1 ∉ allKeys).map fun f =>
      f.1 ++ " is not a [stack] key; the keys are " ++ String.intercalate ", " allKeys) ++
    ((stackKeys.filter fun key => (raw.get? key).isNone).map (· ++ " is required")) ++
    (errorsAt raw "instructions" fun value =>
      if nonemptyText value then [] else ["instructions must be non-empty text, got " ++ value.pyRepr]) ++
    (errorsAt raw "setup" fun value =>
      if isText value then [] else ["setup must be a command string, or \"\" for none, got " ++ value.pyRepr]) ++
    errorsAt raw "checks" checksErrors ++
    errorsAt raw "env" envErrors ++
    (["writable", "readable"].flatMap fun key => errorsAt raw key (pathsErrors key)) ++
    (errorsAt raw "up" fun value =>
      if isText value then [] else ["up must be a command string, or \"\" for none, got " ++ value.pyRepr]) ++
    errorsAt raw "browser" fun value =>
      if isBool value then [] else ["browser must be true or false, got " ++ value.pyRepr]

/-! ## The stack in a table -/

/-- The text of every entry of a list. -/
def textsOf (value : Json) : Option (List String) := value.iter?.map (·.map Json.pyStr)

/-- The stack in a table; none for a table it cannot be read from. -/
def stackFromTable (fields : List (String × Json)) : Option Stack := do
  let raw := Json.obj fields
  let checks ← match ← raw.get? "checks" with
    | .obj checks => some checks
    | _ => none
  some {
    instructions := (← raw.get? "instructions").pyStr
    setup := (← raw.get? "setup").pyStr
    checks := checks.map fun check => (check.1, check.2.pyStr)
    env := ← textsOf (← raw.get? "env")
    writable := ← textsOf ((raw.get? "writable").getD (.arr []))
    readable := ← textsOf ((raw.get? "readable").getD (.arr []))
    browser := ((raw.get? "browser").getD (.bool false)).truthy
    up := ((raw.get? "up").getD (.str "")).pyStr }

def strings (l : List String) : Json := .arr (l.map .str)

/-- The canonical JSON of a stack, its keys in order. -/
def canonical (s : Stack) : Json :=
  .obj [("browser", .bool s.browser),
    ("checks", .arr (s.checks.map fun check => strings [check.1, check.2])),
    ("env", strings s.env),
    ("instructions", .str s.instructions),
    ("readable", strings s.readable),
    ("setup", .str s.setup),
    ("up", .str s.up),
    ("writable", strings s.writable)]

/-- What a stack is: the SHA-256 of its canonical JSON. -/
def digest (sha256 : String → String) (s : Stack) : String := sha256 (s.canonical.dumpsIn .compact)

end Kstrl.Stack
