import Kstrl.Base.Json
import Kstrl.Base.PyText
import Mathlib.Data.List.Sort
import Mathlib.Data.String.Basic

/-!
# The requirements of a spec

`kstrl/plan/requirements.py`: the checks of one field that the validators of the architect's reply share, and
the `requirements` array, entry by entry and against the user stories.

* **`requirementsPayloadErrors`** lists what is wrong with the array; `parseRequirements` takes one with nothing
  wrong.
-/

namespace Kstrl

/-! ## One field -/

def requiredFieldError (where_ name : String) : Json → Option String
  | .str s => if PyText.strip s = "" then some (where_ ++ "." ++ name ++ ": must not be empty") else none
  | value => some (where_ ++ "." ++ name ++ ": must be a string, got " ++ value.typeName)

/-- `f"{sorted(valid)}"` -/
def sortedRepr (valid : List String) : String :=
  (Json.arr ((valid.insertionSort (· ≤ ·)).map Json.str)).pyRepr

def enumFieldError (where_ name : String) (value : Json) (valid : List String) : Option String :=
  match value with
  | .str s =>
      if s ∈ valid then none
      else some (where_ ++ "." ++ name ++ ": " ++ PyText.repr s ++ " is not one of " ++ sortedRepr valid ++
        " (match is case-exact)")
  | value => some (where_ ++ "." ++ name ++ ": must be a string, got " ++ value.typeName)

lemma requiredFieldError_eq_none (where_ name : String) {value : Json} :
    requiredFieldError where_ name value = none ↔ ∃ s, value = .str s ∧ PyText.strip s ≠ "" := by
  cases value with
  | str s => by_cases hs : PyText.strip s = "" <;> simp [requiredFieldError, hs]
  | null => simp [requiredFieldError]
  | bool b => simp [requiredFieldError]
  | int n => simp [requiredFieldError]
  | float text => simp [requiredFieldError]
  | arr entries => simp [requiredFieldError]
  | obj fields => simp [requiredFieldError]

lemma enumFieldError_eq_none {where_ name : String} {value : Json} {valid : List String} :
    enumFieldError where_ name value valid = none ↔ ∃ s, value = .str s ∧ s ∈ valid := by
  cases value with
  | str s => by_cases hs : s ∈ valid <;> simp [enumFieldError, hs]
  | null => simp [enumFieldError]
  | bool b => simp [enumFieldError]
  | int n => simp [enumFieldError]
  | float text => simp [enumFieldError]
  | arr entries => simp [enumFieldError]
  | obj fields => simp [enumFieldError]

/-! ## The array -/

def kindRequirement : String := "requirement"

def kindNonGoal : String := "non_goal"

def requirementKinds : List String := [kindRequirement, kindNonGoal]

/-- `_REQUIREMENT_ID.fullmatch`. -/
def matchesRequirementId (s : String) : Bool :=
  match s.toList with
  | 'R' :: '-' :: c :: rest => ('1' ≤ c && c ≤ '9') && rest.all Char.isDigit
  | _ => false

/-- One requirement or non-goal, with the ids of the stories that build it. -/
structure SpecRequirement where
  id : String
  kind : String
  statement : String
  stories : List String
  deriving DecidableEq, Repr

namespace SpecRequirement

/-- Whether an entry is a string that is not empty. -/
def isStoryId : Json → Bool
  | .str s => s ≠ ""
  | _ => false

def idError (where_ : String) (rawId : Json) : Option String :=
  match requiredFieldError where_ "id" rawId with
  | some error => some error
  | none =>
      if matchesRequirementId rawId.pyStr then none
      else some (where_ ++ ".id: " ++ rawId.pyRepr ++ " is not of the form 'R-<n>', for example 'R-1'")

def storiesErrors (where_ : String) (kind stories : Json) : List String :=
  match stories with
  | .arr ids =>
      if !ids.all isStoryId then [where_ ++ ".stories: must be an array of story ids"]
      else if kind.pyStr = kindNonGoal ∧ ids.isEmpty = false then
        [where_ ++ ".stories: a non_goal is built by no story, so it must be []"]
      else []
  | _ => [where_ ++ ".stories: must be an array of story ids"]

def entryErrors (index : ℕ) (entry : Json) : List String :=
  let where_ := "requirements[" ++ toString index ++ "]"
  match entry with
  | .obj _ =>
      [idError where_ (entry.field "id"), enumFieldError where_ "kind" (entry.field "kind") requirementKinds,
          requiredFieldError where_ "statement" (entry.field "statement")].reduceOption ++
        storiesErrors where_ (entry.field "kind") (entry.field "stories")
  | _ => [where_ ++ ": must be an object, got " ++ entry.typeName]

/-- The id of an entry, where it is a string. -/
def rawId (entry : Json) : Option String :=
  match entry.get? "id" with
  | some (.str s) => some s
  | _ => none

/-- An id that an entry before this one has. -/
def duplicateErrors (index : ℕ) (before : List Json) (entry : Json) : List String :=
  match rawId entry with
  | some id =>
      if some id ∈ before.map rawId then
        ["requirements[" ++ toString index ++ "].id: duplicate id " ++ PyText.repr id]
      else []
  | none => []

/-- The story ids that an entry of kind `requirement` names. -/
def named (entry : Json) : List String :=
  if entry.asStr "kind" = kindRequirement then (entry.arrOf "stories").map Json.pyStr else []

def namedErrors (index : ℕ) (storyIds : List String) (entry : Json) : List String :=
  let where_ := "requirements[" ++ toString index ++ "].stories: "
  if entry.asStr "kind" ≠ kindRequirement then []
  else
    (if (entry.arrOf "stories").isEmpty then
        [where_ ++ "a requirement must name the stories that build it, at least one"]
      else []) ++
      ((named entry).filter (· ∉ storyIds)).map fun story => where_ ++ "unknown story id " ++ PyText.repr story

/-- Every requirement names known stories, and every story is named. -/
def joinErrors (raw : List Json) (storyIds : List String) : List String :=
  (raw.zipIdx.flatMap fun (entry, index) => namedErrors index storyIds entry) ++
    ((storyIds.insertionSort (· ≤ ·)).filter (· ∉ raw.flatMap named)).map fun story =>
      "requirements: story " ++ PyText.repr story ++ " is named by no requirement; name it in the 'stories' of the " ++
        "requirement it builds"

end SpecRequirement

/-- What is wrong with the `requirements` of a payload; `storyIds` is absent for a payload without stories. -/
def requirementsPayloadErrors (data : Json) (storyIds : Option (List String)) : List String :=
  match data with
  | .obj _ =>
      match data.get? "requirements" with
      | none =>
          if storyIds.isNone then [] else ["'requirements' is required when 'components' is not empty"]
      | some (.arr raw) =>
          let errors := raw.zipIdx.flatMap fun (entry, index) =>
            SpecRequirement.entryErrors index entry ++ SpecRequirement.duplicateErrors index (raw.take index) entry
          match storyIds with
          | none => errors
          | some ids => if errors.isEmpty then SpecRequirement.joinErrors raw ids else errors
      | some raw => ["'requirements' must be an array, got " ++ raw.typeName]
  | _ => ["output must be a JSON object"]

/-- The requirements of a payload that `requirementsPayloadErrors` passed. -/
def parseRequirements (data : Json) : List SpecRequirement :=
  (data.arrOf "requirements").map fun entry =>
    { id := entry.asStr "id"
      kind := entry.asStr "kind"
      statement := PyText.strip (entry.asStr "statement")
      stories := (entry.arrOf "stories").map Json.pyStr }

end Kstrl
