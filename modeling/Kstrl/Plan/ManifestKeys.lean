import Kstrl.Plan.Manifest

/-!
# What a manifest document may hold

`Manifest.validate_schema` with the key vocabulary and the name rules it calls
(`kstrl/plan/manifest.py`, `kstrl/plan/manifest_keys.py`, `kstrl/plan/names.py`).

* **`validateSchema`** lists what is wrong with a document; `Manifest.load` takes one with nothing wrong.
* `repr` of a value in a message is `Json.pyRepr`, which writes a text without escapes.
-/

namespace Kstrl

/-! ## Names -/

def maxBranchNameLength : ℕ := 200

def componentIdPattern : String := "^[a-z0-9][a-z0-9._-]\x7b0,63\x7d$"

/-- A pattern that ends in `$` leaves one line break at the end alone. -/
def beforeLineEnd (s : String) : List Char :=
  if s.toList.getLast? = some '\n' then s.toList.dropLast else s.toList

def isLowerOrDigit (c : Char) : Bool := ('a' ≤ c && c ≤ 'z') || ('0' ≤ c && c ≤ '9')

/-- `_COMPONENT_ID_RE.match`. -/
def matchesComponentId (s : String) : Bool :=
  match beforeLineEnd s with
  | [] => false
  | c :: rest =>
      isLowerOrDigit c && rest.length ≤ 63 && rest.all fun c => isLowerOrDigit c || c ∈ ['.', '_', '-']

/-- `_BRANCH_CHARSET_RE.match`. -/
def matchesBranchCharset (s : String) : Bool :=
  beforeLineEnd s ≠ [] &&
    (beforeLineEnd s).all fun c => c.isAlphanum || c ∈ ['.', '_', '/', '-']

/-- `s.endswith(suffix)`. -/
def endsWith (s suffix : String) : Bool := suffix.toList.isSuffixOf s.toList

def validateComponentId (compId : String) : Option String :=
  let invalid := "component id " ++ PyText.repr compId ++ " is invalid: "
  if compId = "" then some "component id must be a non-empty string"
  else if !matchesComponentId compId then
    some (invalid ++ "ids must match " ++ componentIdPattern ++ " - start with a lowercase letter or " ++
      "digit, contain only lowercase letters, digits, '.', '_', '-', and be at most 64 characters " ++
      "(no '/', no spaces, no uppercase, ASCII only); e.g. 'auth-service'")
  else if PyText.contains compId ".." then some (invalid ++ "'..' is not allowed")
  else if endsWith compId "." then some (invalid ++ "must not end with '.'")
  else if endsWith compId ".lock" then some (invalid ++ "must not end with '.lock'")
  else none

def validateBranchName (branch : String) : Option String :=
  let named := "branch name " ++ PyText.repr branch ++ " "
  if branch = "" then some "branch name must be a non-empty string"
  else if maxBranchNameLength < branch.toList.length then
    some ("branch name is too long (" ++ toString branch.toList.length ++ " chars, max " ++
      toString maxBranchNameLength ++ ")")
  else if !matchesBranchCharset branch then
    some (named ++ "contains disallowed characters: only ASCII letters, digits, '.', '_', '/', '-' " ++
      "are allowed (no whitespace, no ':', no non-ASCII characters)")
  else if branch.toList.head? = some '-' then
    some (named ++ "must not start with '-' (git would parse it as a command-line option)")
  else if PyText.contains branch ".." then some (named ++ "must not contain '..'")
  else if branch.toList.head? = some '/' ∨ endsWith branch "/" ∨ PyText.contains branch "//" then
    some (named ++ "must not have empty path segments (leading '/', trailing '/', or '//')")
  else if (branch.toList.splitOn '/').any fun seg => seg.head? = some '.' then
    some (named ++ "must not have a path segment starting with '.'")
  else if endsWith branch "." then some (named ++ "must not end with '.'")
  else if endsWith branch ".lock" then some (named ++ "must not end with '.lock'")
  else none

/-! ## Keys -/

def manifestRequiredKeys : List String :=
  ["version", "specFile", "projectName", "baseBranch", "singlePr", "components"]

def manifestOptionalStringKeys : List String :=
  ["runId", "completedAt", "policyHash", "kstrlVersion", "featureBaseSha", "planAwaitingApproval",
    "specPath"]

def componentRequiredKeys : List String :=
  ["id", "title", "description", "dependencies", "prdPath", "branchName"]

def componentOptionalKeys : List String :=
  ["status", "error", "planId", "retries", "firstAttempt", "prNumber", "prUrl", "mergeSha", "judgedSha",
    "rejudgeSha", "linearIssueId", "linearIssueIdentifier", "startedAt", "completedAt",
    "durationSeconds", "iterationCount", "verificationPassed", "reviewPassed", "reviewFindings",
    "findings", "scaffold", "failedPhase", "failedCheck", "evidenceWorktree", "evidenceDebugDir",
    "journalOffsetStart", "journalOffsetEnd"]

/-- The keys of an object. -/
def keysOf : Json → List String
  | .obj fields => fields.map Prod.fst
  | _ => []

def isStr : Json → Bool
  | .str _ => true
  | _ => false

/-- `bool` of a value; of a `float`, whether a digit in front of the exponent is not zero. -/
def isTruthy : Json → Bool
  | .null => false
  | .bool b => b
  | .int n => n ≠ 0
  | .float text =>
      text ∈ ["NaN", "Infinity", "-Infinity"] ||
        (text.toList.takeWhile fun c => c ≠ 'e' ∧ c ≠ 'E').any fun c => '1' ≤ c ∧ c ≤ '9'
  | .str s => s ≠ ""
  | .arr js => !js.isEmpty
  | .obj fields => !fields.isEmpty

/-- `", ".join(sorted(keys))`. -/
def joinSorted (keys : List String) : String := String.intercalate ", " (Manifest.sortedIds keys)

def isLowerHex (c : Char) : Bool := ('0' ≤ c && c ≤ '9') || ('a' ≤ c && c ≤ 'f')

/-- Whether a text is as many lowercase hex characters. -/
def isHexText (length : ℕ) (s : String) : Bool :=
  s.toList.length = length && s.toList.all isLowerHex

/-! ## Components -/

def planIdErrors (comp : Json) (where_ : String) : List String :=
  match (comp.get? "planId").getD (.str "") with
  | .str planId =>
      if planId ≠ "" ∧ (validateComponentId planId).isSome then
        [where_ ++ ".planId: " ++ PyText.repr planId ++ " is invalid: a plan id must match " ++
          componentIdPattern ++ " and contain no '..'"]
      else []
  | _ => [where_ ++ ".planId: must be a string"]

def rejudgeShaErrors (comp : Json) (where_ : String) : List String :=
  let refused (value : Json) :=
    [where_ ++ ".rejudgeSha: must be \"\" or a full commit id, got " ++ value.pyRepr]
  match (comp.get? "rejudgeSha").getD (.str "") with
  | .str sha => if sha = "" ∨ isHexText 40 sha ∨ isHexText 64 sha then [] else refused (.str sha)
  | value => refused value

/-- A required text of a component, with the rule for it. -/
def stringFieldErrors (comp : Json) (where_ key : String) (rule : String → Option String) :
    List String :=
  match comp.get? key with
  | some (.str value) => ((rule value).map fun message => where_ ++ "." ++ key ++ ": " ++ message).toList
  | _ => [where_ ++ "." ++ key ++ ": must be a string"]

def dependenciesErrors (comp : Json) (where_ : String) : List String :=
  match comp.get? "dependencies" with
  | some (.arr deps) =>
      if deps.all isStr then [] else [where_ ++ ".dependencies: all items must be strings"]
  | _ => [where_ ++ ".dependencies: must be an array"]

def statusErrors (comp : Json) (where_ : String) : List String :=
  match comp.get? "status" with
  | none => []
  | some (.str status) =>
      if status ∈ componentStatusValues then []
      else [where_ ++ ".status: " ++ PyText.repr status ++ " is not a valid status; must be one of: " ++
        String.intercalate ", " componentStatusValues]
  | some _ => [where_ ++ ".status: must be a string"]

def firstAttemptErrors (comp : Json) (where_ : String) : List String :=
  match (comp.get? "firstAttempt").getD (.int 1) with
  | .int first =>
      if first < 1 then [where_ ++ ".firstAttempt: must be an integer of at least 1"] else []
  | _ => [where_ ++ ".firstAttempt: must be an integer of at least 1"]

/-- Type-check one component's fields. -/
def validateComponentFields (comp : Json) (where_ : String) : List String :=
  stringFieldErrors comp where_ "id" validateComponentId ++
    stringFieldErrors comp where_ "title" (fun _ => none) ++
    stringFieldErrors comp where_ "description" (fun _ => none) ++
    stringFieldErrors comp where_ "prdPath" (fun _ => none) ++
    stringFieldErrors comp where_ "branchName" validateBranchName ++
    dependenciesErrors comp where_ ++ statusErrors comp where_ ++ planIdErrors comp where_ ++
    rejudgeShaErrors comp where_ ++ firstAttemptErrors comp where_

/-- One entry of `components`. -/
def componentSchemaErrors (i : ℕ) (comp : Json) : List String :=
  let where_ := "components[" ++ toString i ++ "]"
  match comp with
  | .obj fields =>
      let keys := fields.map Prod.fst
      let missing := componentRequiredKeys.filter (· ∉ keys)
      let extra := keys.filter (· ∉ componentRequiredKeys ++ componentOptionalKeys)
      if missing ≠ [] then [where_ ++ ": missing keys: " ++ joinSorted missing]
      else if extra ≠ [] then [where_ ++ ": unexpected keys: " ++ joinSorted extra]
      else validateComponentFields comp where_
  | _ => [where_ ++ ": must be an object"]

/-! ## The document -/

/-- `specDigest`, when present, is 64 lowercase hex and names a `specPath`. -/
def specPinSchemaErrors (data : Json) : List String :=
  let refused (digest : Json) :=
    ["specDigest must be 64 lowercase hex characters (a sha256), got " ++ digest.pyRepr]
  match data.get? "specDigest" with
  | none => []
  | some (.str digest) =>
      if !isHexText 64 digest then refused (.str digest)
      else if ((data.get? "specPath").map isTruthy).getD false then []
      else ["specPath must be a non-empty string when specDigest is set"]
  | some digest => refused digest

/-- A text every document has. -/
def mustBeString (data : Json) (key : String) : List String :=
  if ((data.get? key).map isStr).getD false then [] else [key ++ " must be a string"]

/-- Everything wrong with a manifest outside its `components` entries. -/
def manifestTopLevelErrors (data : Json) : List String :=
  match data with
  | .obj fields =>
      let missing := manifestRequiredKeys.filter (· ∉ fields.map Prod.fst)
      if missing ≠ [] then ["Missing required keys: " ++ joinSorted missing]
      else
        ["version", "specFile", "projectName", "baseBranch"].flatMap (mustBeString data) ++
        (match data.get? "projectName" with
          | some (.str "") => ["projectName must be non-empty"]
          | _ => []) ++
        (match data.get? "baseBranch" with
          | some (.str branch) => ((validateBranchName branch).map ("baseBranch: " ++ ·)).toList
          | _ => []) ++
        (match data.get? "singlePr" with
          | some (.bool _) => []
          | _ => ["singlePr must be a boolean"]) ++
        (manifestOptionalStringKeys.filter fun key =>
          ((data.get? key).map fun v => !isStr v).getD false).map (· ++ " must be a string") ++
        specPinSchemaErrors data
  | _ => ["Manifest must be a JSON object"]

/-- Validate the schema of a document: the list of its errors. -/
def validateSchema (data : Json) : List String :=
  manifestTopLevelErrors data ++
    if manifestRequiredKeys.any (· ∉ keysOf data) then []
    else match data.get? "components" with
      | some (.arr components) => (components.zipIdx.map fun (comp, i) => componentSchemaErrors i comp).flatten
      | _ => ["components must be an array"]

end Kstrl
