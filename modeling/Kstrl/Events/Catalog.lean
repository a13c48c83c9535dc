import Kstrl.Base.JsonLimits
import Kstrl.Base.JsonPrefix

/-!
# The event vocabulary

`kstrl/events/event_catalog.py`: the registered event classes with their fields and defaults, an event with the
envelope it is written in, and the line it is written as.

A class has the fields it declares, and a payload has a value of its type for each of them.  What a field whose
default is `None` holds, and the entries of a tuple, are any value of JSON.

* **`EventClass.ofType?_type`**: `_REGISTRY` finds a class under its type.
-/

namespace Kstrl

namespace Events

namespace Catalog

/-! ## Fields -/

/-- A `float`, by its literal. -/
structure PyFloat where
  text : String
  deriving DecidableEq, Repr

/-- The default of a field, which says what type it has. -/
inductive Default where
  | none
  | bool (b : Bool)
  | float (x : PyFloat)
  | int (n : ℤ)
  | str (s : String)
  /-- `()` -/
  | tuple

/-- What a field of a default holds. -/
def Default.Value : Default → Type
  | none => Json
  | bool _ => Bool
  | float _ => PyFloat
  | int _ => ℤ
  | str _ => String
  | tuple => List Json

/-- The default itself. -/
def Default.value : (d : Default) → d.Value
  | none => Json.null
  | bool b => b
  | float x => x
  | int n => n
  | str s => s
  | tuple => ([] : List Json)

/-- What `to_dict` makes of a value. -/
def Default.encode : (d : Default) → d.Value → Json
  | none, (j : Json) => j
  | bool _, (b : Bool) => .bool b
  | float _, (x : PyFloat) => .float x.text
  | int _, (n : ℤ) => .int n
  | str _, (s : String) => .str s
  | tuple, (l : List Json) => .arr l

/-- A field with its default. -/
abbrev Field := String × Default

/-! ## The classes -/

/-- The event classes, `UnknownEvent` apart. -/
inductive EventClass where
  | runStarted
  | componentStarted
  | componentCompleted
  | componentFailed
  | componentSkipped
  | circuitBreakerTripped
  | componentRetrying
  | verificationResultEvent
  | reviewResultEvent
  | componentUsage
  | budgetExceeded
  | budgetCoverage
  | contractResult
  | runCompleted
  | mergePendingV1
  | phaseSkipped
  | diffFetchFailed
  | reviewDivergence
  | adversarialAgentSelected
  | runPlan
  | componentScopeResolved
  | phaseStarted
  | phaseCompleted
  | iterationStarted
  | iterationCompleted
  | workerHeartbeat
  | checkpointRequested
  | checkpointResolved
  | prCreated
  | prMerged
  | prMergePending
  | distillResult
  | factUtilizationMeasured
  | findingRecorded
  | specIssueRecorded
  | artifactWritten
  | autonomyTransition
  | autonomyLevelApplied
  | journalRepaired
  | log
  deriving DecidableEq, Repr

namespace EventClass

/-- Every class. -/
def all : List EventClass :=
  [.runStarted, .componentStarted, .componentCompleted, .componentFailed, .componentSkipped,
    .circuitBreakerTripped, .componentRetrying, .verificationResultEvent, .reviewResultEvent, .componentUsage,
    .budgetExceeded, .budgetCoverage, .contractResult, .runCompleted, .mergePendingV1, .phaseSkipped,
    .diffFetchFailed, .reviewDivergence, .adversarialAgentSelected, .runPlan, .componentScopeResolved,
    .phaseStarted, .phaseCompleted, .iterationStarted, .iterationCompleted, .workerHeartbeat,
    .checkpointRequested, .checkpointResolved, .prCreated, .prMerged, .prMergePending, .distillResult,
    .factUtilizationMeasured, .findingRecorded, .specIssueRecorded, .artifactWritten, .autonomyTransition,
    .autonomyLevelApplied, .journalRepaired, .log]

/-- The key of a class in `_REGISTRY`. -/
def type : EventClass → String
  | runStarted => "factory_started"
  | componentStarted => "component_started"
  | componentCompleted => "component_completed"
  | componentFailed => "component_failed"
  | componentSkipped => "component_skipped"
  | circuitBreakerTripped => "circuit_breaker_tripped"
  | componentRetrying => "component_retrying"
  | verificationResultEvent => "verification_result"
  | reviewResultEvent => "review_result"
  | componentUsage => "component_usage"
  | budgetExceeded => "budget_exceeded"
  | budgetCoverage => "budget_coverage"
  | contractResult => "contract_result"
  | runCompleted => "factory_completed"
  | mergePendingV1 => "merge_pending"
  | phaseSkipped => "phase_skipped"
  | diffFetchFailed => "diff_fetch_failed"
  | reviewDivergence => "review_divergence"
  | adversarialAgentSelected => "adversarial_agent_selected"
  | runPlan => "run_plan"
  | componentScopeResolved => "component_scope_resolved"
  | phaseStarted => "phase_started"
  | phaseCompleted => "phase_completed"
  | iterationStarted => "iteration_started"
  | iterationCompleted => "iteration_completed"
  | workerHeartbeat => "worker_heartbeat"
  | checkpointRequested => "checkpoint_requested"
  | checkpointResolved => "checkpoint_resolved"
  | prCreated => "pr_created"
  | prMerged => "pr_merged"
  | prMergePending => "pr_merge_pending"
  | distillResult => "distill_result"
  | factUtilizationMeasured => "fact_utilization_measured"
  | findingRecorded => "finding_recorded"
  | specIssueRecorded => "spec_issue_recorded"
  | artifactWritten => "artifact_written"
  | autonomyTransition => "autonomy_transition"
  | autonomyLevelApplied => "autonomy_level_applied"
  | journalRepaired => "journal_repair"
  | log => "log"

/-- The payload fields of a class. -/
def fields : EventClass → List Field
  | runStarted => [("project", .str ""), ("components", .int 0), ("pid", .int 0), ("architect_run_id", .str "")]
  | componentStarted => []
  | componentCompleted => [("duration_seconds", .float ⟨"0.0"⟩), ("iterations", .int 0)]
  | componentFailed => [("error", .str "")]
  | componentSkipped => [("reason", .str "")]
  | circuitBreakerTripped => [("iterations", .int 0), ("error", .str "")]
  | componentRetrying => [("attempt", .int 0), ("reason", .str "")]
  | verificationResultEvent => [("passed", .bool false), ("checks", .tuple), ("failures", .tuple),
      ("duration_seconds", .float ⟨"0.0"⟩), ("phase", .str ""), ("advisory", .bool false),
      ("not_measured", .tuple), ("isolation", .str ""), ("gate_logs", .tuple)]
  | reviewResultEvent => [("passed", .bool false), ("mode", .str ""), ("fail_count", .int 0),
      ("advisory_count", .int 0), ("duration_seconds", .float ⟨"0.0"⟩)]
  | componentUsage => [("phase", .str ""), ("calls", .int 0), ("known_calls", .int 0), ("token_calls", .int 0),
      ("cost_calls", .int 0), ("unreported_calls", .int 0), ("input_tokens", .int 0), ("output_tokens", .int 0),
      ("cache_read_tokens", .int 0), ("cache_creation_tokens", .int 0), ("total_tokens", .int 0),
      ("cost_usd", .float ⟨"0.0"⟩), ("duration_seconds", .float ⟨"0.0"⟩)]
  | budgetExceeded => [("total_tokens", .int 0), ("max_total_tokens", .int 0), ("cost_usd", .float ⟨"0.0"⟩),
      ("max_cost_usd", .float ⟨"0.0"⟩), ("ceiling", .str ""), ("condition", .str ""), ("ceilings", .tuple),
      ("coverage", .tuple)]
  | budgetCoverage => [("ceiling", .str ""), ("axis", .str ""), ("calls", .int 0), ("covered_calls", .int 0),
      ("uncovered_calls", .int 0), ("uncovered_tokens", .int 0), ("uncovered_roles", .tuple),
      ("detail", .str "")]
  | contractResult => [("tier", .int 0), ("passed", .bool false), ("breaker", .none),
      ("duration_seconds", .float ⟨"0.0"⟩)]
  | runCompleted => [("completed", .int 0), ("failed", .int 0), ("skipped", .int 0),
      ("duration_seconds", .float ⟨"0.0"⟩), ("release_ref", .str ""), ("release_ref_rule", .str ""),
      ("release_withheld", .str "")]
  | mergePendingV1 => [("pr_url", .str ""), ("error", .str "")]
  | phaseSkipped => [("phase", .str ""), ("reason", .str "")]
  | diffFetchFailed => [("error", .str "")]
  | reviewDivergence => [("attempts", .tuple), ("lines_changed", .tuple), ("files_changed", .tuple),
      ("blocking_findings", .tuple), ("blocked", .bool false)]
  | adversarialAgentSelected => [("phase", .str ""), ("agent_source", .str ""), ("identity", .str ""),
      ("agent_type", .none), ("model", .none), ("homogeneous", .bool false)]
  | runPlan => [("components", .tuple), ("max_total_tokens", .int 0), ("max_adversarial_calls", .int 0),
      ("max_cost_usd", .float ⟨"0.0"⟩)]
  | componentScopeResolved => [("scope_source", .str ""), ("origin", .str ""), ("allowed_paths", .tuple),
      ("harness_paths", .tuple), ("error", .str ""), ("manifest_status", .str "")]
  | phaseStarted => [("phase", .str ""), ("attempt", .int 0)]
  | phaseCompleted => [("phase", .str ""), ("passed", .bool false), ("detail", .str ""),
      ("duration_seconds", .float ⟨"0.0"⟩)]
  | iterationStarted => [("iteration", .int 0), ("max_iterations", .int 0)]
  | iterationCompleted => [("iteration", .int 0), ("duration_seconds", .float ⟨"0.0"⟩),
      ("completed", .bool false), ("timed_out", .bool false), ("fast_checks_failed", .tuple)]
  | workerHeartbeat => [("pid", .int 0), ("elapsed_seconds", .float ⟨"0.0"⟩)]
  | checkpointRequested => [("kind", .str ""), ("question", .str "")]
  | checkpointResolved => [("kind", .str ""), ("decision", .str ""), ("decided_by", .str "")]
  | prCreated => [("pr_number", .int 0), ("pr_url", .str "")]
  | prMerged => [("pr_number", .int 0), ("pr_url", .str ""), ("merge_sha", .str "")]
  | prMergePending => [("pr_url", .str ""), ("error", .str "")]
  | distillResult => [("facts_written", .int 0), ("duration_seconds", .float ⟨"0.0"⟩),
      ("parse_failed", .bool false)]
  | factUtilizationMeasured => [("measured", .bool false), ("injected", .int 0), ("referenced", .int 0),
      ("reason", .str ""), ("core_injected", .int 0), ("core_referenced", .int 0),
      ("dependency_injected", .int 0), ("dependency_referenced", .int 0), ("sibling_injected", .int 0),
      ("sibling_referenced", .int 0)]
  | findingRecorded => [("phase", .str ""), ("category", .str ""), ("severity", .str ""), ("location", .str ""),
      ("explanation", .str ""), ("attempt", .int 0), ("model", .str "")]
  | specIssueRecorded => [("severity", .str ""), ("kind", .str ""), ("summary", .str ""), ("location", .str ""),
      ("suggestion", .str "")]
  | artifactWritten => [("label", .str ""), ("path", .str "")]
  | autonomyTransition => [("direction", .str ""), ("from_level", .int 0), ("to_level", .int 0),
      ("actor", .str ""), ("trigger", .str ""), ("reason", .str "")]
  | autonomyLevelApplied => [("level", .int 0), ("label", .str ""), ("flags", .tuple), ("overrides", .tuple)]
  | journalRepaired => [("detail", .str "")]
  | log => [("severity", .str "info"), ("kind", .str "line"), ("key", .str ""), ("text", .str "")]

/-- `_REGISTRY.get(name)`; `UnknownEvent` stands there as no other class does. -/
def ofType? (name : String) : Option EventClass := all.find? fun cls => cls.type = name

/-- **A class is found under its type.** -/
@[simp] theorem ofType?_type (cls : EventClass) : ofType? cls.type = some cls := by
  cases cls <;> decide +kernel

/-- The fields of a class have names of their own. -/
lemma fields_nodup (cls : EventClass) : (cls.fields.map Prod.fst).Nodup := by
  cases cls <;> decide +kernel

end EventClass

/-! ## Events -/

/-- A value for each field. -/
inductive Payload : List Field → Type where
  | nil : Payload []
  | cons {name : String} {d : Default} {fields : List Field} (value : d.Value) (rest : Payload fields) :
      Payload ((name, d) :: fields)

/-- `data` of a line. -/
def Payload.document : {fields : List Field} → Payload fields → List (String × Json)
  | [], nil => []
  | (name, d) :: _, cons value rest => (name, d.encode value) :: rest.document

/-- The envelope fields. -/
structure Envelope where
  ts : PyFloat := ⟨"0.0"⟩
  runId : String := ""
  component : String := ""
  source : String := "orchestrator"
  seq : ℤ := 0
  kstrlVersion : String := ""
  deriving DecidableEq, Repr

inductive Event where
  | known (cls : EventClass) (payload : Payload cls.fields) (envelope : Envelope)
  /-- `UnknownEvent` -/
  | unknown (typeName : String) (raw : List (String × Json)) (envelope : Envelope)

/-- `SCHEMA_VERSION`. -/
def schemaVersion : ℤ := 2

/-- `Event.to_dict`. -/
def Envelope.toDict (envelope : Envelope) (type : String) (data : List (String × Json)) : List (String × Json) :=
  [("schema", .int schemaVersion), ("event", .str type), ("ts", .float envelope.ts.text),
    ("run_id", .str envelope.runId), ("component", .str envelope.component), ("source", .str envelope.source),
    ("seq", .int envelope.seq), ("kstrl_version", .str envelope.kstrlVersion), ("data", .obj data)]

/-- `to_dict`, with that of `UnknownEvent`. -/
def Event.toDict : Event → List (String × Json)
  | known cls payload envelope => envelope.toDict cls.type payload.document
  | unknown typeName raw envelope =>
      if raw = [] then envelope.toDict "unknown" [("type_name", .str typeName), ("raw", .obj [])] else raw

/-- `to_json_line`; none where it raises. -/
def Event.toJsonLine (e : Event) : Option String := Json.dumpsWithin .compact (.obj e.toDict)

/-! ## What JSON represents -/

/-- A value of a field that JSON represents. -/
def Default.Represents : (d : Default) → d.Value → Prop
  | none, (j : Json) => j.WellFormed
  | float _, (x : PyFloat) => Json.FloatText x.text
  | tuple, (l : List Json) => Json.AllWellFormed l
  | _, _ => True

/-- A payload that holds only such values. -/
def Payload.Represented : {fields : List Field} → Payload fields → Prop
  | [], nil => True
  | (_, d) :: _, cons value rest => d.Represents value ∧ rest.Represented

/-- An event whose payload JSON represents. -/
def Event.Represented : Event → Prop
  | known _ payload envelope => payload.Represented ∧ Json.FloatText envelope.ts.text
  | unknown _ raw envelope => (Json.obj raw).WellFormed ∧ Json.FloatText envelope.ts.text

lemma Default.encode_wellFormed {d : Default} {value : d.Value} (h : d.Represents value) :
    (d.encode value).WellFormed := by
  cases d with
  | none => exact h
  | float x => exact h
  | tuple => exact h
  | bool b => trivial
  | int n => trivial
  | str s => trivial

namespace Payload

/-- The names of the fields. -/
lemma map_document {fields : List Field} (payload : Payload fields) :
    payload.document.map Prod.fst = fields.map Prod.fst := by
  induction payload with
  | nil => rfl
  | cons value rest ih => rw [document, List.map_cons, List.map_cons, ih]

lemma fieldsWellFormed {fields : List Field} {payload : Payload fields} (h : payload.Represented) :
    Json.FieldsWellFormed payload.document := by
  induction payload with
  | nil => trivial
  | cons value rest ih => exact ⟨Default.encode_wellFormed h.1, ih h.2⟩

end Payload

lemma Envelope.toDict_wellFormed {envelope : Envelope} {type : String} {data : List (String × Json)}
    (hts : Json.FloatText envelope.ts.text) (hdata : (Json.obj data).WellFormed) :
    (Json.obj (envelope.toDict type data)).WellFormed := by
  refine ⟨?_, trivial, trivial, hts, trivial, trivial, trivial, trivial, trivial, hdata, trivial⟩
  show ["schema", "event", "ts", "run_id", "component", "source", "seq", "kstrl_version", "data"].Nodup
  decide

/-- What is written of an event is a document. -/
lemma Event.toDict_wellFormed {e : Event} (h : e.Represented) : (Json.obj e.toDict).WellFormed := by
  cases e with
  | known cls payload envelope =>
      refine Envelope.toDict_wellFormed h.2 ⟨?_, Payload.fieldsWellFormed h.1⟩
      rw [Payload.map_document]
      exact cls.fields_nodup
  | unknown typeName raw envelope =>
      rw [toDict]
      split_ifs
      · refine Envelope.toDict_wellFormed h.2 ⟨?_, trivial, ⟨List.nodup_nil, trivial⟩, trivial⟩
        show ["type_name", "raw"].Nodup
        decide
      · exact h.1

end Catalog

end Events

end Kstrl
