import Kstrl.Base.Json
import Kstrl.Base.PyText
import Kstrl.Base.Rows
import Kstrl.Plan.Manifest
import Kstrl.Serve.Outcome
import Mathlib.Data.Rat.Defs

/-!
# The event reducer

Every surface renders from the state that `apply` folds out of a run's events
(`kstrl/events/reducer.py`, with the events of `kstrl/events/event_catalog.py`).

An event that names a component makes the component's row when it is the first to do so; an event of a
kind the reducer has no branch for still marks the row (`EventKind.other`).  The fields of an event that
no branch reads are left out.

* **`apply`** is one step and `fold` the fold of a stream.
* A dollar amount is of any type `K` that has a zero and an addition, a time and a duration are rational
  numbers.
-/

namespace Kstrl

namespace Events

open Rows

/-! ## Events -/

/-- What happened. -/
inductive EventKind (K : Type) where
  | unknown
  | runStarted (project : String) (pid : ℤ) (architectRunId : String)
  | runCompleted
  | runPlan (components : List Json) (maxTotalTokens maxAdversarialCalls : ℤ) (maxCostUsd : K)
  | contractResult (tier : ℤ) (passed : Bool) (breaker : Option String)
  | budgetCoverage (ceiling axis : String) (calls coveredCalls uncoveredCalls uncoveredTokens : ℤ)
      (uncoveredRoles : List String) (detail : String)
  | specIssueRecorded (severity kind summary location suggestion : String)
  | artifactWritten (label path : String)
  | log (severity text : String)
  | componentStarted
  | componentScopeResolved (manifestStatus : String)
  | phaseStarted (phase : String) (attempt : ℤ)
  | phaseCompleted (phase : String) (passed : Bool) (detail : String) (durationSeconds : ℚ)
  | componentCompleted (iterations : ℤ)
  | componentFailed (error : String)
  | componentSkipped (reason : String)
  | circuitBreakerTripped (error : String)
  | componentRetrying (attempt : ℤ)
  | iterationStarted (iteration maxIterations : ℤ)
  | workerHeartbeat
  | componentUsage (phase : String) (calls unreportedCalls tokenCalls costCalls totalTokens : ℤ)
      (costUsd : K)
  | findingRecorded (phase category severity location explanation : String) (attempt : ℤ)
      (model : String)
  | prCreated (prNumber : ℤ) (prUrl : String)
  | prMerged (prNumber : ℤ) (prUrl mergeSha : String)
  | prMergePending (prUrl error : String)
  | mergePendingV1 (prUrl error : String)
  | checkpointRequested (kind : String)
  | checkpointResolved (decision : String)
  /-- the two dollar amounts are given as the message prints them -/
  | budgetExceeded (totalTokens maxTotalTokens : ℤ) (costText maxCostText condition : String)
      (ceilings : List String)
  | verificationResult (phase : String) (failures gateLogs : List String)
  | reviewResult (mode : String)
  /-- an event of another kind, with its type -/
  | other (type : String)

/-- An event with its envelope. -/
structure Event (K : Type) where
  kind : EventKind K
  ts : ℚ := 0
  runId : String := ""
  component : String := ""
  kstrlVersion : String := ""

/-- The `type` of an event. -/
def EventKind.type {K : Type} : EventKind K → String
  | unknown => "unknown"
  | runStarted .. => "factory_started"
  | runCompleted => "factory_completed"
  | runPlan .. => "run_plan"
  | contractResult .. => "contract_result"
  | budgetCoverage .. => "budget_coverage"
  | specIssueRecorded .. => "spec_issue_recorded"
  | artifactWritten .. => "artifact_written"
  | log .. => "log"
  | componentStarted => "component_started"
  | componentScopeResolved .. => "component_scope_resolved"
  | phaseStarted .. => "phase_started"
  | phaseCompleted .. => "phase_completed"
  | componentCompleted .. => "component_completed"
  | componentFailed .. => "component_failed"
  | componentSkipped .. => "component_skipped"
  | circuitBreakerTripped .. => "circuit_breaker_tripped"
  | componentRetrying .. => "component_retrying"
  | iterationStarted .. => "iteration_started"
  | workerHeartbeat => "worker_heartbeat"
  | componentUsage .. => "component_usage"
  | findingRecorded .. => "finding_recorded"
  | prCreated .. => "pr_created"
  | prMerged .. => "pr_merged"
  | prMergePending .. => "pr_merge_pending"
  | mergePendingV1 .. => "merge_pending"
  | checkpointRequested .. => "checkpoint_requested"
  | checkpointResolved .. => "checkpoint_resolved"
  | budgetExceeded .. => "budget_exceeded"
  | verificationResult .. => "verification_result"
  | reviewResult .. => "review_result"
  | other type => type

/-! ## The state -/

structure RecentFinding where
  phase : String
  category : String
  severity : String
  location : String
  explanation : String
  attempt : ℤ
  model : String
  deriving DecidableEq, Repr

/-- A completed phase; the last two fields are there once a failed gate is attached. -/
structure PhaseEntry where
  phase : String
  passed : Bool
  detail : String
  durationSeconds : ℚ
  attempt : ℤ
  failures : List String := []
  gateLogs : List String := []
  deriving DecidableEq, Repr

structure PendingGate where
  phase : String
  failures : List String
  gateLogs : List String
  deriving DecidableEq, Repr

/-- Per-component temporal state. -/
structure ComponentState (K : Type) [Zero K] where
  componentId : String
  title : String := ""
  deps : List String := []
  status : String := "pending"
  phase : String := ""
  /-- a `phase_started` was seen -/
  phaseExplicit : Bool := false
  attempt : ℤ := 0
  iteration : ℤ := 0
  maxIterations : ℤ := 0
  lastEvent : String := ""
  lastEventTs : ℚ := 0
  lastHeartbeatTs : ℚ := 0
  usageCalls : ℤ := 0
  unreportedCalls : ℤ := 0
  tokenCalls : ℤ := 0
  costCalls : ℤ := 0
  totalTokens : ℤ := 0
  costUsd : K := 0
  recentFindings : List RecentFinding := []
  phaseHistory : List PhaseEntry := []
  prUrl : String := ""
  prNumber : ℤ := 0
  prState : String := ""
  mergeSha : String := ""
  checkpointOpen : String := ""
  error : String := ""
  carried : Bool := false
  startedTs : ℚ := 0
  pendingGate : Option PendingGate := none

structure CoverageGap where
  ceiling : String
  axis : String
  calls : ℤ
  coveredCalls : ℤ
  uncoveredCalls : ℤ
  uncoveredTokens : ℤ
  uncoveredRoles : List String
  detail : String
  deriving DecidableEq, Repr

structure SpecIssueRow where
  severity : String
  kind : String
  summary : String
  location : String
  suggestion : String
  deriving DecidableEq, Repr

structure ArtifactRow where
  label : String
  path : String
  component : String
  deriving DecidableEq, Repr

/-- Run-level temporal state.  A dictionary is the list of its entries, in the order they were made. -/
structure RunState (K : Type) [Zero K] where
  runId : String := ""
  project : String := ""
  kstrlVersion : String := ""
  pid : ℤ := 0
  architectRunId : String := ""
  startedTs : ℚ := 0
  lastEventTs : ℚ := 0
  finished : Bool := false
  planOrder : List String := []
  components : List (ComponentState K) := []
  usageCalls : ℤ := 0
  unreportedCalls : ℤ := 0
  tokenCalls : ℤ := 0
  costCalls : ℤ := 0
  totalTokens : ℤ := 0
  costUsd : K := 0
  maxTotalTokens : ℤ := 0
  maxAdversarialCalls : ℤ := 0
  maxCostUsd : K := 0
  coverageGaps : List (String × CoverageGap) := []
  unknownEvents : ℤ := 0
  specIssueCounts : List (String × ℤ) := []
  specIssues : List SpecIssueRow := []
  artifacts : List ArtifactRow := []
  errorBlock : List String := []

def maxRecentFindings : ℕ := 50

def maxSpecIssues : ℕ := 100

def maxArtifacts : ℕ := 100

def maxErrorDetailLines : ℕ := 4

def specIssueSeverities : List String := ["blocker", "major", "minor"]

def unrecordedStatus : String := "unknown"

section Apply

variable {K : Type} [Zero K] [Add K]

/-- The row of a component that no event has named. -/
def freshRow (componentId : String) : ComponentState K := { componentId := componentId }

/-- `_component`, and what is done to it. -/
def RunState.touch (state : RunState K) (componentId : String)
    (f : ComponentState K → ComponentState K) : RunState K :=
  { state with
    components := Rows.touch ComponentState.componentId freshRow componentId f state.components }

/-! ## One step -/

/-- The phase an event implies. -/
def inferPhase : EventKind K → Option String
  | .componentStarted => some "engineer"
  | .componentUsage phase .. => if phase = "" then none else some phase
  | .verificationResult .. => some "verify"
  | .reviewResult mode =>
      some (if "security".toList.isPrefixOf mode.toList then "security" else "review")
  | .componentRetrying .. => some "retrying"
  | .componentFailed .. => some "failed"
  | .componentCompleted .. => some "done"
  | .budgetExceeded .. => some "budget-halt"
  | _ => none

/-- The status a run starts a component in. -/
def statusAtRunStart (recorded : String) : String :=
  if recorded = ComponentStatus.running.value ∨ recorded = ComponentStatus.verifying.value then
    ComponentStatus.pending.value
  else if recorded ∈ componentStatusValues then recorded
  else unrecordedStatus

/-- The component's error line for a budget halt. -/
def budgetHaltError (totalTokens maxTotalTokens : ℤ) (costText maxCostText condition : String)
    (ceilings : List String) : String :=
  let kind := budgetHaltKind condition ceilings
  if kind = "unreadable" then
    "budget halt unreadable: the record names no ceilings, so it was written " ++
      "before #180 and its cause is not known"
  else if kind = "unenforceable" then
    "budget ceiling unenforceable (" ++ String.intercalate ", " ceilings ++
      "): no configured ceiling can still fire"
  else if kind = "cost" then "cost budget exceeded: $" ++ costText ++ " >= $" ++ maxCostText
  else "token budget exceeded: " ++ toString totalTokens ++ " >= " ++ toString maxTotalTokens

/-- `x or y` of two texts. -/
def orText (x y : String) : String := if x = "" then y else x

/-- `x or y` of two numbers. -/
def orInt (x y : ℤ) : ℤ := if x = 0 then y else x

/-- The run id and the version, from the first event that carries each. -/
def noteRunIdentity (state : RunState K) (event : Event K) : RunState K :=
  { state with
    runId := orText state.runId event.runId
    kstrlVersion := orText state.kstrlVersion event.kstrlVersion }

/-- The latest error headline and its detail lines. -/
def noteErrorLine (block : List String) (text : String) : List String :=
  if PyText.startsWithSpace text ∧ block ≠ [] then
    if block.length ≤ maxErrorDetailLines then block ++ [PyText.strip text] else block
  else [PyText.strip text]

/-- The text of an error line, without the white space behind it. -/
def errorLine? : EventKind K → Option String
  | .log severity text =>
      if severity ≠ "error" then none
      else if PyText.isBlank (PyText.rstrip text) then none
      else some (PyText.rstrip text)
  | _ => none

def noteErrorLog (state : RunState K) (event : Event K) : RunState K :=
  match errorLine? event.kind with
  | some text => { state with errorBlock := noteErrorLine state.errorBlock text }
  | none => state

/-- The clock, the identity and the error block, which every known event moves. -/
def noteEvent (state : RunState K) (event : Event K) : RunState K :=
  let clocked := if event.ts = 0 then state else { state with
    startedTs := if state.startedTs = 0 then event.ts else state.startedTs
    lastEventTs := max state.lastEventTs event.ts }
  noteErrorLog (noteRunIdentity clocked event) event

/-- One entry of a plan. -/
def planEntry (state : RunState K) (entry : Json) : RunState K :=
  match entry.get? "id" with
  | some (.str cid) =>
      if cid = "" then state
      else
        { state with planOrder := state.planOrder ++ [cid] }.touch cid fun comp => { comp with
          title := match entry.get? "title" with
            | some (.str title) => title
            | _ => comp.title
          deps := match entry.get? "deps" with
            | some (.arr deps) => deps.map Json.pyStr
            | _ => comp.deps }
  | _ => state

/-- Count a severity. -/
def countSeverity (severity : String) : List (String × ℤ) → List (String × ℤ)
  | [] => [(severity, 1)]
  | (s, n) :: rest => if s = severity then (s, n + 1) :: rest else (s, n) :: countSeverity severity rest

/-- `coverage_gaps[axis] = gap`. -/
def setGap (axis : String) (gap : CoverageGap) : List (String × CoverageGap) → List (String × CoverageGap)
  | [] => [(axis, gap)]
  | (a, g) :: rest => if a = axis then (axis, gap) :: rest else (a, g) :: setGap axis gap rest

/-- `CEILING_AXES.get(ceiling, "")`. -/
def ceilingAxis (ceiling : String) : String :=
  if ceiling = "max_cost_usd" then "cost" else if ceiling = "max_total_tokens" then "token" else ""

/-- A failed gate's cause, held until the phase that reported it is completed. -/
def foldGateDetail (comp : ComponentState K) (kind : EventKind K) : ComponentState K :=
  match kind with
  | .verificationResult phase failures gateLogs =>
      { comp with pendingGate := some ⟨orText phase "verify", failures, gateLogs⟩ }
  | .phaseCompleted phase .. =>
      match comp.pendingGate with
      | none => comp
      | some pending =>
          if phase ≠ pending.phase ∨ comp.phaseHistory = [] then comp
          else { comp with
            pendingGate := none
            phaseHistory := if pending.failures = [] ∧ pending.gateLogs = [] then comp.phaseHistory
              else comp.phaseHistory.modifyLast fun entry => { entry with
                failures := pending.failures
                gateLogs := pending.gateLogs } }
  | _ => comp

/-- `isinstance(event, ComponentScopeResolved)` -/
def EventKind.isScope : EventKind K → Bool
  | componentScopeResolved _ => true
  | _ => false

/-- What every event that names a component does to its row. -/
def markRow (event : Event K) (comp : ComponentState K) : ComponentState K :=
  { comp with
    lastEvent := event.kind.type
    carried := event.kind.isScope
    lastEventTs := if event.ts = 0 then comp.lastEventTs else max comp.lastEventTs event.ts
    startedTs := if comp.startedTs ≠ 0 ∨ event.ts = 0 ∨ event.kind.isScope then comp.startedTs else event.ts
    phase := if comp.phaseExplicit then comp.phase else (inferPhase event.kind).getD comp.phase }

/-- What the branch of an event does to the row. -/
def moveRow (event : Event K) (comp : ComponentState K) : ComponentState K :=
  match event.kind with
  | .componentStarted => { comp with status := "running", error := "" }
  | .componentScopeResolved manifestStatus => { comp with status := statusAtRunStart manifestStatus }
  | .phaseStarted phase attempt => { comp with
      phaseExplicit := true
      phase := phase
      attempt := max comp.attempt attempt
      status := if phase ≠ "" ∧ phase ≠ "engineer" ∧ comp.status = "running" then "verifying"
        else comp.status }
  | .phaseCompleted phase passed detail durationSeconds => { comp with
      phaseExplicit := true
      phaseHistory := comp.phaseHistory ++ [⟨phase, passed, detail, durationSeconds,
        orInt comp.attempt 1, [], []⟩]
      error := if !passed && detail ≠ "" then detail else comp.error }
  | .componentCompleted iterations => { comp with
      status := "completed"
      iteration := orInt iterations comp.iteration
      phase := if comp.phaseExplicit then "done" else comp.phase }
  | .componentFailed error => { comp with
      status := "failed"
      error := error
      phase := if comp.phaseExplicit then "failed" else comp.phase }
  | .componentSkipped reason => { comp with
      status := "skipped"
      error := reason
      phase := if comp.phaseExplicit then "skipped" else comp.phase }
  | .circuitBreakerTripped error => { comp with error := error }
  | .componentRetrying attempt => { comp with
      status := "running"
      attempt := max comp.attempt attempt }
  | .iterationStarted iteration maxIterations => { comp with
      iteration := iteration
      maxIterations := maxIterations }
  | .workerHeartbeat => { comp with lastHeartbeatTs := max comp.lastHeartbeatTs event.ts }
  | .componentUsage _ calls unreportedCalls tokenCalls costCalls totalTokens costUsd => { comp with
      usageCalls := comp.usageCalls + calls
      unreportedCalls := comp.unreportedCalls + unreportedCalls
      totalTokens := comp.totalTokens + totalTokens
      costUsd := comp.costUsd + costUsd
      tokenCalls := comp.tokenCalls + tokenCalls
      costCalls := comp.costCalls + costCalls }
  | .findingRecorded phase category severity location explanation attempt model => { comp with
      recentFindings := pushBounded maxRecentFindings comp.recentFindings
        ⟨phase, category, severity, location, explanation, attempt, model⟩ }
  | .prCreated prNumber prUrl => { comp with
      prUrl := orText prUrl comp.prUrl
      prNumber := orInt prNumber comp.prNumber
      prState := "created" }
  | .prMerged prNumber prUrl mergeSha => { comp with
      prUrl := orText prUrl comp.prUrl
      prNumber := orInt prNumber comp.prNumber
      prState := "merged"
      mergeSha := mergeSha }
  | .prMergePending prUrl error => { comp with
      prUrl := orText prUrl comp.prUrl
      prState := "merge_pending"
      status := "merge_pending"
      error := orText error comp.error }
  | .mergePendingV1 prUrl error =>
      -- the twin of the richer event, which wins
      if comp.prState = "merge_pending" then comp
      else { comp with
        prUrl := orText prUrl comp.prUrl
        prState := "merge_pending"
        status := "merge_pending"
        error := orText error comp.error }
  | .checkpointRequested kind => { comp with checkpointOpen := orText kind "checkpoint" }
  | .checkpointResolved decision => { comp with
      checkpointOpen := ""
      status := if decision = "parked" then ComponentStatus.awaitingApproval.value else comp.status }
  | .budgetExceeded totalTokens maxTotalTokens costText maxCostText condition ceilings => { comp with
      error := budgetHaltError totalTokens maxTotalTokens costText maxCostText condition ceilings }
  | _ => comp

/-- The run's totals move with a usage event. -/
def countUsage (state : RunState K) : EventKind K → RunState K
  | .componentUsage _ calls unreportedCalls tokenCalls costCalls totalTokens costUsd => { state with
      usageCalls := state.usageCalls + calls
      unreportedCalls := state.unreportedCalls + unreportedCalls
      totalTokens := state.totalTokens + totalTokens
      costUsd := state.costUsd + costUsd
      tokenCalls := state.tokenCalls + tokenCalls
      costCalls := state.costCalls + costCalls }
  | _ => state

/-- An event that names a component. -/
def applyComponent (state : RunState K) (event : Event K) : RunState K :=
  (countUsage state event.kind).touch event.component fun comp =>
    foldGateDetail (moveRow event (markRow event comp)) event.kind

/-- The row of a contract's breaker. -/
def blameRow (event : Event K) (tier : ℤ) (passed : Bool) (comp : ComponentState K) :
    ComponentState K :=
  { comp with
    lastEvent := event.kind.type
    lastEventTs := if event.ts = 0 then comp.lastEventTs else event.ts
    error := if passed then comp.error else "contract failed at tier " ++ toString tier }

/-- `apply` of a known event, behind the notes. -/
def applyKnown (state : RunState K) (event : Event K) : RunState K :=
  match event.kind with
  | .runStarted project pid architectRunId => { state with
      project := orText project state.project
      pid := pid
      architectRunId := architectRunId }
  | .runCompleted => { state with finished := true }
  | .runPlan components maxTotalTokens maxAdversarialCalls maxCostUsd =>
      components.foldl planEntry { state with
        maxTotalTokens := maxTotalTokens
        maxAdversarialCalls := maxAdversarialCalls
        maxCostUsd := maxCostUsd
        planOrder := [] }
  | .contractResult tier passed breaker =>
      if breaker.getD "" = "" then state
      else state.touch (breaker.getD "") (blameRow event tier passed)
  | .budgetCoverage ceiling axis calls coveredCalls uncoveredCalls uncoveredTokens uncoveredRoles
      detail =>
      let axis := orText axis (ceilingAxis ceiling)
      { state with coverageGaps := setGap axis ⟨ceiling, axis, calls, coveredCalls, uncoveredCalls,
          uncoveredTokens, uncoveredRoles, detail⟩ state.coverageGaps }
  | .specIssueRecorded severity kind summary location suggestion =>
      let severity := if severity ∈ specIssueSeverities then severity else "unknown"
      { state with
        specIssueCounts := countSeverity severity state.specIssueCounts
        specIssues := pushBounded maxSpecIssues state.specIssues
          ⟨severity, kind, summary, location, suggestion⟩ }
  | .artifactWritten label path => { state with
      artifacts := pushBounded maxArtifacts state.artifacts ⟨label, path, event.component⟩ }
  | _ => if event.component = "" then state else applyComponent state event

/-- Fold one event into the state. -/
def apply (state : RunState K) (event : Event K) : RunState K :=
  match event.kind with
  | .unknown => { state with
      unknownEvents := state.unknownEvents + 1
      lastEventTs := if event.ts = 0 then state.lastEventTs else max state.lastEventTs event.ts }
  | _ => applyKnown (noteEvent state event) event

/-- Fold a stream; a run id filters to that run's events. -/
def fold (events : List (Event K)) (runId : String := "") : RunState K :=
  (events.filter fun event => runId = "" ∨ event.runId = runId).foldl apply { runId := runId }

end Apply

end Events

end Kstrl
