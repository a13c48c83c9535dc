import Kstrl.Base.JsonLayout
import Kstrl.Base.Kahn
import Kstrl.Base.PyText
import Mathlib.Data.List.Sort

/-!
# The factory manifest

Components, their statuses and the dependency graph between them (`kstrl/plan/manifest.py`).

A manifest is a list of components.  Python changes a component in place, here
`Manifest.update` replaces it.

* **`validateDag`** accepts a graph of distinct ids, known dependencies and no cycle.
* **`cascadeSkip`** skips the dependents of a failed component, **`resetForRetry`** takes a failed
  component and the dependents it skipped back to `PENDING`.
* **`getReadyComponents`** and **`computeTiers`** are what the scheduler and the contract phase read.
-/

namespace Kstrl

open Worklist

/-! ## Components -/

/-- Component execution states. -/
inductive ComponentStatus where
  | pending
  | running
  | verifying
  | completed
  /-- the PR was created and its merge not confirmed -/
  | mergePending
  /-- every gate passed and the merge gate had nobody to ask -/
  | awaitingApproval
  | failed
  | skipped
  deriving DecidableEq, Repr

/-- The value of the status, as it stands in the manifest. -/
def ComponentStatus.value : ComponentStatus → String
  | .pending => "pending"
  | .running => "running"
  | .verifying => "verifying"
  | .completed => "completed"
  | .mergePending => "merge_pending"
  | .awaitingApproval => "awaiting_approval"
  | .failed => "failed"
  | .skipped => "skipped"

/-- `COMPONENT_STATUS_VALUES`. -/
def componentStatusValues : List String :=
  [ComponentStatus.pending, .running, .verifying, .completed, .mergePending, .awaitingApproval,
    .failed, .skipped].map ComponentStatus.value

/-- One adversarial finding. -/
structure Finding where
  phase : String
  category : String
  severity : String := ""
  location : String := ""
  explanation : String := ""
  suggestion : String := ""
  owasp : String := ""
  cwe : String := ""
  tags : List String := []
  deriving DecidableEq, Repr

/-- `_INFRASTRUCTURE_CATEGORY`. -/
def infrastructureCategory : String := "infrastructure_error"

/-- Whether the finding stands for a role that did not run. -/
def Finding.isInfrastructureError (f : Finding) : Bool := f.category = infrastructureCategory

/-- `Component.failed_check` of a component that a hard-mode adversarial phase refused. -/
def adversarialBudgetCheck : String := "adversarial_budget"

/-- A Python `float`, given by its `repr`. -/
abbrev PyFloat := { text : String // Json.FloatText text }

def PyFloat.zero : PyFloat := ⟨"0.0", by decide⟩

/-- A single component of the manifest. -/
structure Component where
  id : String
  title : String := ""
  description : String := ""
  dependencies : List String := []
  prdPath : String := ""
  branchName : String := ""
  status : ComponentStatus := .pending
  error : String := ""
  planId : String := ""
  retries : ℤ := 0
  /-- the first attempt the run in flight answers for -/
  firstAttempt : ℤ := 1
  prNumber : Option ℤ := none
  prUrl : String := ""
  mergeSha : String := ""
  judgedSha : String := ""
  /-- the approved head `ks retry` kept -/
  rejudgeSha : String := ""
  linearIssueId : String := ""
  linearIssueIdentifier : String := ""
  startedAt : String := ""
  completedAt : String := ""
  durationSeconds : PyFloat := PyFloat.zero
  iterationCount : ℤ := 0
  verificationPassed : Option Bool := none
  reviewPassed : Option Bool := none
  findings : List Finding := []
  reviewFindings : String := ""
  /-- the setup command of the component's worktree -/
  scaffold : String := ""
  failedPhase : String := ""
  failedCheck : String := ""
  evidenceWorktree : String := ""
  evidenceDebugDir : String := ""
  journalOffsetStart : ℤ := -1
  journalOffsetEnd : ℤ := -1
  deriving DecidableEq, Repr

/-- The manifest that describes the component graph. -/
structure Manifest where
  version : String := "1"
  specFile : String := ""
  projectName : String := ""
  baseBranch : String := "main"
  singlePr : Bool := false
  components : List Component := []
  runId : String := ""
  completedAt : String := ""
  linearProjectId : String := ""
  linearSyncKey : String := ""
  policyHash : String := ""
  kstrlVersion : String := ""
  featureBaseSha : String := ""
  /-- the digest of the plan a run parked for approval -/
  planAwaitingApproval : String := ""
  specPath : String := ""
  specDigest : String := ""
  stackDigest : String := ""
  acceptanceDigest : String := ""
  deriving DecidableEq, Repr

namespace Manifest

variable (m : Manifest)

def ids : List String := m.components.map (·.id)

/-- Look up a component by its id. -/
def getComponent (componentId : String) : Option Component :=
  m.components.find? fun c => c.id = componentId

/-- Change the component with this id. -/
def update (componentId : String) (f : Component → Component) : Manifest :=
  { m with components := m.components.map fun c => if c.id = componentId then f c else c }

/-- Change every component with an id in the list. -/
def updateAll (componentIds : List String) (f : Component → Component) : Manifest :=
  { m with components := m.components.map fun c => if c.id ∈ componentIds then f c else c }

/-- The dependencies of a component, by its id. -/
def dependenciesOf (componentId : String) : List String :=
  ((m.getComponent componentId).map (·.dependencies)).getD []

/-- Who depends on a component, once for each time it names it. -/
def dependents (componentId : String) : List String :=
  if componentId ∈ m.ids then
    m.components.flatMap fun c => (c.dependencies.filter (· = componentId)).map fun _ => c.id
  else []

/-! ## The graph -/

/-- The ids that stand further left already, with the message for each. -/
def duplicateErrors : List String → List String → List String
  | _, [] => []
  | seen, cid :: rest =>
      if cid ∈ seen then ("Duplicate component ID: " ++ cid) :: duplicateErrors (cid :: seen) rest
      else duplicateErrors (cid :: seen) rest

def unknownErrors : List String :=
  m.components.flatMap fun c => (c.dependencies.filter (· ∉ m.ids)).map fun dep =>
    "Component '" ++ c.id ++ "' depends on unknown component '" ++ dep ++ "'"

/-- Validate the dependency graph: the list of its errors. -/
def validateDag : List String :=
  let errors := duplicateErrors [] m.ids ++ m.unknownErrors
  if errors ≠ [] then errors
  else if (Kahn.order m.ids m.dependenciesOf id).length ≠ m.components.length then
    ["Dependency cycle detected in component graph"]
  else []

/-- `sorted` of ids. -/
def sortedIds (l : List String) : List String := l.insertionSort (· ≤ ·)

/-- The component ids in topological order. -/
def topologicalOrder : Except String (List String) :=
  match m.validateDag with
  | error :: _ => .error error
  | [] => .ok (Kahn.order m.ids m.dependenciesOf sortedIds)

/-- The components that are `PENDING` with every dependency `COMPLETED`. -/
def getReadyComponents : List Component :=
  let completed := (m.components.filter (·.status = .completed)).map (·.id)
  m.components.filter fun c => c.status = .pending ∧ ∀ dep ∈ c.dependencies, dep ∈ completed

/-- One level of `compute_tiers`: the numbers after it, and the next level. -/
def tierVisit (acc : (String → ℤ) × List String) (node : String) : (String → ℤ) × List String :=
  (m.dependents node).foldl Kahn.release acc

/-- The levels from `current` on; every level but the last is followed by a non-empty one. -/
def tiersFrom : ℕ → (String → ℤ) → List String → List (List String)
  | 0, _, _ => []
  | _ + 1, _, [] => []
  | fuel + 1, inDegree, current =>
      let next := current.foldl m.tierVisit (inDegree, [])
      sortedIds current :: tiersFrom fuel next.1 next.2

/-- The dependencies named under an id. -/
def inDegree (componentId : String) : ℤ :=
  ((m.components.filter (·.id = componentId)).flatMap (·.dependencies)).length

/-- The tiers of the graph; an error for a graph with a cycle or an unknown dependency. -/
def computeTiers : Except String (List (List String)) :=
  match m.validateDag.filter fun e => PyText.contains (PyText.lower e) "cycle" with
  | error :: _ => .error error
  | [] =>
      if m.unknownErrors ≠ [] then .error "KeyError"
      else .ok (m.tiersFrom m.components.length m.inDegree
        (m.ids.eraseDups.filter fun c => m.inDegree c = 0))

/-! ## Skipping -/

/-- A component skipped because `failedId` failed. -/
def skip (failedId now : String) (c : Component) : Component :=
  { c with status := .skipped, error := "Dependency '" ++ failedId ++ "' failed",
           completedAt := now }

/-- The state of the search through the dependents. -/
structure Cascade where
  manifest : Manifest
  visited : List String
  skipped : List String

/-- One dependent: unless it was visited, is completed or is skipped already, it is skipped and its
    own dependents come later. -/
def cascadeDependent (failedId now : String) (acc : Cascade × List String) (dependentId : String) :
    Cascade × List String :=
  if dependentId ∈ acc.1.visited then acc
  else
    let s := { acc.1 with visited := acc.1.visited ++ [dependentId] }
    match s.manifest.getComponent dependentId with
    | none => (s, acc.2)
    | some c =>
        if c.status ∉ [ComponentStatus.completed, .skipped] then
          ({ s with manifest := s.manifest.update dependentId (skip failedId now),
                    skipped := s.skipped ++ [dependentId] }, acc.2 ++ [dependentId])
        else (s, acc.2)

def cascadeVisit (failedId now : String) (s : Cascade) (current : String) :
    Cascade × List String :=
  (m.dependents current).foldl (cascadeDependent failedId now) (s, [])

/-- The search from `failedId`, with what is left of its queue. -/
def cascadeRun (failedId now : String) : Cascade × List String :=
  drain (m.cascadeVisit failedId now) (m.components.length + 1)
    { manifest := m, visited := [failedId], skipped := [] } [failedId]

/-- Mark all transitive dependents of a failed component as `SKIPPED`; the ids marked. -/
def cascadeSkip (failedId now : String) : Manifest × List String :=
  let s := (m.cascadeRun failedId now).1
  (s.manifest, s.skipped)

/-! ## Retrying -/

def dependentsVisit (found : List String) (current : String) : List String × List String :=
  (m.dependents current).foldl (fun acc dependentId =>
    if dependentId ∈ acc.1 then acc else (acc.1 ++ [dependentId], acc.2 ++ [dependentId])) (found, [])

/-- All components that transitively depend on `componentId`. -/
def transitiveDependents (componentId : String) : List String :=
  (drain m.dependentsVisit (m.components.length + 1) [] [componentId]).1

/-- The ids `resetForRetry` accepts. -/
def retryableComponentIds : List String :=
  (m.components.filter (·.status = .failed)).map (·.id)

/-- The statuses of a dependency that does not keep a dependent from running. -/
def runnable : List ComponentStatus := [.completed, .pending]

/-- Whether `dep` is part of the reset or will be runnable without it. -/
def willRun (resetIds : List String) (dep : String) : Prop :=
  dep ∈ resetIds ∨ ∃ d ∈ m.getComponent dep, d.status ∈ runnable

instance (resetIds : List String) (dep : String) : Decidable (m.willRun resetIds dep) :=
  match h : m.getComponent dep with
  | none => decidable_of_iff (dep ∈ resetIds) (by simp [willRun, h])
  | some d => decidable_of_iff (dep ∈ resetIds ∨ d.status ∈ runnable) (by simp [willRun, h])

/-- One component in topological order: a skipped dependent joins the reset if all its dependencies
    will run. -/
def resetStep (dependents : List String) (resetIds : List String) (cid : String) : List String :=
  if cid ∉ dependents then resetIds
  else match m.getComponent cid with
    | none => resetIds
    | some c =>
        if c.status = .skipped ∧ ∀ dep ∈ c.dependencies, m.willRun resetIds dep then
          resetIds ++ [cid]
        else resetIds

/-- A component as a reset leaves it. -/
def reset (c : Component) : Component :=
  { c with
    status := .pending
    error := ""
    retries := 0
    firstAttempt := 1
    startedAt := ""
    completedAt := ""
    durationSeconds := PyFloat.zero
    iterationCount := 0
    prNumber := none
    prUrl := ""
    verificationPassed := none
    reviewPassed := none
    findings := []
    reviewFindings := ""
    failedPhase := ""
    failedCheck := ""
    rejudgeSha := ""
    evidenceWorktree := ""
    evidenceDebugDir := ""
    journalOffsetStart := -1
    journalOffsetEnd := -1 }

/-- Reset a failed component and its skipped dependents to `PENDING`; the ids of the dependents. -/
def resetForRetry (componentId : String) : Except String (Manifest × List String) :=
  match m.getComponent componentId with
  | none => .error ("Unknown component '" ++ componentId ++ "'")
  | some comp =>
      if comp.status ≠ .failed then
        .error ("Component '" ++ componentId ++ "' is '" ++ comp.status.value ++ "', not '" ++
          ComponentStatus.failed.value ++ "'; only failed components can be retried")
      else do
        let order ← m.topologicalOrder
        let resetIds := order.foldl (m.resetStep (m.transitiveDependents componentId)) [componentId]
        .ok (m.updateAll resetIds reset, resetIds.tail)

end Manifest

end Kstrl
