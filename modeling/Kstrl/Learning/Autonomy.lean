import Kstrl.Base.Json
import Kstrl.Base.PyText
import Mathlib.Order.Basic

/-!
# The autonomy ladder

`AutonomyState` of `kstrl/learning/autonomy.py`: the level, the evidence counted at the level, the history of the
level changes, and the file they are kept in.

What `json.loads` makes of the file is the file here; a text it refuses is `LadderFile.damaged`.

* **`load_written`**: what `save` wrote is loaded as it was.
* **`promote_history`**, **`demote_history`**: a level change goes to the end of the history, and the level is
  the one it names.
-/

namespace Kstrl

namespace Learning

/-! ## Levels -/

/-- Ordered autonomy levels. -/
inductive AutonomyLevel where
  | l1Supervised
  | l2GatedMerge
  | l3EnvelopedAuto
  | l4Deploy
  deriving DecidableEq, Repr

namespace AutonomyLevel

def value : AutonomyLevel → ℤ
  | l1Supervised => 1
  | l2GatedMerge => 2
  | l3EnvelopedAuto => 3
  | l4Deploy => 4

def label : AutonomyLevel → String
  | l1Supervised => "L1 Supervised"
  | l2GatedMerge => "L2 Gated-merge"
  | l3EnvelopedAuto => "L3 Enveloped auto-merge"
  | l4Deploy => "L4 Deploy"

/-- `AutonomyLevel(n)`. -/
def ofValue? (n : ℤ) : Option AutonomyLevel :=
  [l1Supervised, l2GatedMerge, l3EnvelopedAuto, l4Deploy].find? fun level => level.value = n

/-- The level above; L4 has none. -/
def above : AutonomyLevel → AutonomyLevel
  | l1Supervised => l2GatedMerge
  | l2GatedMerge => l3EnvelopedAuto
  | l3EnvelopedAuto => l4Deploy
  | l4Deploy => l4Deploy

/-- The level below; L1 has none. -/
def below : AutonomyLevel → AutonomyLevel
  | l1Supervised => l1Supervised
  | l2GatedMerge => l1Supervised
  | l3EnvelopedAuto => l2GatedMerge
  | l4Deploy => l3EnvelopedAuto

@[simp] lemma ofValue?_value (level : AutonomyLevel) : ofValue? level.value = some level := by
  cases level <;> rfl

lemma value_injective : Function.Injective value := fun level level' h => by
  rw [← Option.some_inj, ← ofValue?_value level, ← ofValue?_value level', h]

end AutonomyLevel

/-- Why a level was revoked. -/
inductive DemotionTrigger where
  | policyViolation
  | calibrationRegression
  | healthBreach
  | humanRejectedAutoMerge
  | manual
  deriving DecidableEq, Repr

def DemotionTrigger.label : DemotionTrigger → String
  | .policyViolation => "policy_violation"
  | .calibrationRegression => "calibration_regression"
  | .healthBreach => "health_breach"
  | .humanRejectedAutoMerge => "human_rejected_auto_merge"
  | .manual => "manual"

/-! ## Thresholds -/

/-- `L2_MERGED_COMPONENTS_REQUIRED`. -/
def l2MergedComponentsRequired : ℤ := 5

/-- `L3_CLEAN_MERGES_REQUIRED`. -/
def l3CleanMergesRequired : ℤ := 15

/-- `L4_MERGED_COMPONENTS_REQUIRED`. -/
def l4MergedComponentsRequired : ℤ := 30

/-- `DEMOTION_COOLDOWN_RUNS`. -/
def demotionCooldownRuns : ℤ := 10

/-- `MIN_DECISIVE_RUNS`. -/
def minDecisiveRuns : ℤ := 8

/-! ## The state -/

/-- One recorded level change. -/
structure Transition where
  at_ : String
  fromLevel : ℤ
  toLevel : ℤ
  direction : String
  actor : String
  reason : String
  trigger : String := ""
  evidence : List (String × Json) := []

structure AutonomyState where
  level : AutonomyLevel := .l1Supervised
  since : String
  componentsMergedAtLevel : ℤ := 0
  cleanMergesAtLevel : ℤ := 0
  policyViolationsAtLevel : ℤ := 0
  decisiveRunsAtLevel : ℤ := 0
  /-- decisive runs still to elapse before a promotion is allowed -/
  cooldownRunsRemaining : ℤ := 0
  lastPromotedBy : String := ""
  history : List Transition := []
  /-- why `load` discarded the stored record -/
  degradedReason : Option String := none

/-- `autonomy.json`. -/
inductive LadderFile where
  /-- no file, and what stands in the way of a first run -/
  | absent (legacyRefusal : Option String)
  /-- a file that is no JSON document -/
  | damaged (reason : String)
  | document (data : Json)

/-! ## Reading -/

/-- `type(value).__name__`. -/
def typeName : Json → String
  | .null => "NoneType"
  | .bool _ => "bool"
  | .int _ => "int"
  | .float _ => "float"
  | .str _ => "str"
  | .arr _ => "list"
  | .obj _ => "dict"

/-- `_require_int`. -/
def requireInt (data : Json) (key : String) (default : ℤ) : Except String ℤ :=
  match data.get? key with
  | none => .ok default
  | some (.int n) => .ok n
  | some value => .error (key ++ " must be an integer, got " ++ typeName value)

/-- `data.get(key, "")`, which has to be a text. -/
def requireStr (data : Json) (key refusal : String) : Except String String :=
  match data.get? key with
  | none => .ok ""
  | some (.str s) => .ok s
  | some _ => .error refusal

/-- `not value` of a value that is no object. -/
def falsy : Json → Bool
  | .null => true
  | .bool b => !b
  | .int n => n = 0
  -- every digit of the mantissa is zero
  | .float text => (text.toList.takeWhile fun c => c ≠ 'e' ∧ c ≠ 'E').all fun c => c = '0' ∨ c = '.' ∨ c = '-'
  | .str s => s = ""
  | .arr entries => entries.isEmpty
  | .obj fields => fields.isEmpty

/-- `item.get("evidence", {}) or {}`. -/
def requireEvidence (item : Json) : Except String (List (String × Json)) :=
  match item.get? "evidence" with
  | none => .ok []
  | some (.obj fields) => .ok fields
  | some value => if falsy value then .ok [] else .error "history evidence must be an object"

/-- One entry of the history. -/
def parseTransition (item : Json) : Except String Transition :=
  match item with
  | .obj _ => do
      let evidence ← requireEvidence item
      let at_ ← requireStr item "at" "history at must be a string"
      let direction ← requireStr item "direction" "history direction must be a string"
      let actor ← requireStr item "actor" "history actor must be a string"
      let reason ← requireStr item "reason" "history reason must be a string"
      let trigger ← requireStr item "trigger" "history trigger must be a string"
      let fromLevel ← requireInt item "from_level" 1
      let toLevel ← requireInt item "to_level" 1
      .ok { at_, fromLevel, toLevel, direction, actor, reason, trigger, evidence }
  | _ => .error "history entries must be objects"

/-- `_parse_history`. -/
def parseHistory : Option Json → Except String (List Transition)
  | none => .ok []
  | some (.arr entries) => entries.mapM parseTransition
  | some _ => .error "history must be an array"

/-- `AutonomyLevel(_require_int(data, "level", 1))`. -/
def parseLevel (data : Json) : Except String AutonomyLevel := do
  let n ← requireInt data "level" 1
  match AutonomyLevel.ofValue? n with
  | some level => .ok level
  | none => .error (toString n ++ " is not a valid AutonomyLevel")

/-- The state of a document. -/
def AutonomyState.ofDocument (data : Json) : Except String AutonomyState := do
  let level ← parseLevel data
  let history ← parseHistory (data.get? "history")
  let since ← requireStr data "since" "since must be a string"
  let lastPromotedBy ← requireStr data "last_promoted_by" "last_promoted_by must be a string"
  let componentsMergedAtLevel ← requireInt data "components_merged_at_level" 0
  let cleanMergesAtLevel ← requireInt data "clean_merges_at_level" 0
  let policyViolationsAtLevel ← requireInt data "policy_violations_at_level" 0
  let decisiveRunsAtLevel ← requireInt data "decisive_runs_at_level" 0
  let cooldownRunsRemaining ← requireInt data "cooldown_runs_remaining" 0
  .ok { level, since, componentsMergedAtLevel, cleanMergesAtLevel, policyViolationsAtLevel,
        decisiveRunsAtLevel, cooldownRunsRemaining, lastPromotedBy, history }

/-- `_warn_rejected_state`. -/
def rejectedState (path reason : String) : String :=
  "autonomy: rejected ladder state " ++ path ++ " (" ++ reason ++ "); failing closed to L1 Supervised"

/-- A fresh state at L1, and why it is not the stored one. -/
def AutonomyState.failClosed (now path reason : String) : AutonomyState :=
  { since := now, degradedReason := some (rejectedState path reason) }

/-- `AutonomyState.load`. -/
def AutonomyState.load (path now : String) : LadderFile → AutonomyState
  | .absent none => { since := now }
  | .absent (some refusal) => failClosed now path refusal
  | .damaged reason => failClosed now path reason
  | .document (.obj fields) =>
      match ofDocument (.obj fields) with
      | .ok state => { state with since := if state.since = "" then now else state.since }
      | .error reason => failClosed now path reason
  | .document _ => failClosed now path "top-level value is not an object"

/-! ## Writing -/

/-- `asdict` of a transition. -/
def Transition.document (t : Transition) : Json :=
  .obj [("at", .str t.at_), ("from_level", .int t.fromLevel), ("to_level", .int t.toLevel),
    ("direction", .str t.direction), ("actor", .str t.actor), ("reason", .str t.reason),
    ("trigger", .str t.trigger), ("evidence", .obj t.evidence)]

namespace AutonomyState

variable (s : AutonomyState)

/-- The payload of `save`. -/
def document : Json :=
  .obj [("schema_version", .int 1), ("level", .int s.level.value), ("since", .str s.since),
    ("components_merged_at_level", .int s.componentsMergedAtLevel),
    ("clean_merges_at_level", .int s.cleanMergesAtLevel),
    ("policy_violations_at_level", .int s.policyViolationsAtLevel),
    ("decisive_runs_at_level", .int s.decisiveRunsAtLevel),
    ("cooldown_runs_remaining", .int s.cooldownRunsRemaining), ("last_promoted_by", .str s.lastPromotedBy),
    ("history", .arr (s.history.map Transition.document))]

/-- `save`: a state that `load` failed closed on is not written. -/
def save (file : LadderFile) : LadderFile := if s.degradedReason.isSome then file else .document s.document

/-! ## Level changes -/

/-- `_reset_level_counters`. -/
def resetLevelCounters : AutonomyState :=
  { s with
    componentsMergedAtLevel := 0
    cleanMergesAtLevel := 0
    policyViolationsAtLevel := 0
    decisiveRunsAtLevel := 0 }

/-- The criterion of the target that the merges have to meet. -/
def mergeBlockers : AutonomyLevel → List String
  | .l2GatedMerge =>
      if s.componentsMergedAtLevel < l2MergedComponentsRequired then
        [toString s.componentsMergedAtLevel ++ "/" ++ toString l2MergedComponentsRequired ++
          " components merged at L1"]
      else []
  | .l3EnvelopedAuto =>
      if s.cleanMergesAtLevel < l3CleanMergesRequired then
        [toString s.cleanMergesAtLevel ++ "/" ++ toString l3CleanMergesRequired ++
          " consecutive merges approved without edits"]
      else []
  | .l4Deploy =>
      if s.componentsMergedAtLevel < l4MergedComponentsRequired then
        [toString s.componentsMergedAtLevel ++ "/" ++ toString l4MergedComponentsRequired ++
          " components merged while holding L3"]
      else []
  | .l1Supervised => []

/-- `promotion_blockers`. -/
def promotionBlockers (target : AutonomyLevel) : List String :=
  if target.value ≤ s.level.value then ["already at " ++ s.level.label]
  else
    (if s.level.value + 1 < target.value then
      ["cannot skip levels: " ++ s.level.label ++ " -> " ++ target.label] else []) ++
    (if 0 < s.cooldownRunsRemaining then
      ["demotion cool-down active: " ++ toString s.cooldownRunsRemaining ++ " more decisive run(s) required"]
      else []) ++
    (if s.decisiveRunsAtLevel < minDecisiveRuns then
      ["insufficient evidence: " ++ toString s.decisiveRunsAtLevel ++
        " decisive run(s) at this level, need " ++ toString minDecisiveRuns] else []) ++
    (if s.policyViolationsAtLevel ≠ 0 then
      [toString s.policyViolationsAtLevel ++ " policy violation(s) at this level; need zero"] else []) ++
    s.mergeBlockers target

/-- The transition a promotion records. -/
def promotion (now actor ack : String) (blockers : List String) : Transition where
  at_ := now
  fromLevel := s.level.value
  toLevel := s.level.above.value
  direction := "promote"
  actor := actor
  reason := ack
  evidence :=
    [("components_merged_at_level", .int s.componentsMergedAtLevel),
      ("clean_merges_at_level", .int s.cleanMergesAtLevel),
      ("decisive_runs_at_level", .int s.decisiveRunsAtLevel)] ++
    if blockers = [] then [] else [("forced_over_blockers", .arr (blockers.map .str))]

/-- Why `promote` refuses. -/
def promotionRefusal (actor ack : String) (signalBlockers : List String) (force : Bool) : Option String :=
  let blockers := s.promotionBlockers s.level.above ++ signalBlockers
  if PyText.isBlank actor then some "promotion requires an actor: agents cannot promote themselves"
  else if PyText.isBlank ack then some "promotion requires an explicit acknowledgement of the evidence"
  else if s.level = .l4Deploy then some "already at the highest level (L4 Deploy)"
  else if blockers ≠ [] ∧ force = false then
    some ("cannot promote " ++ s.level.label ++ " -> " ++ s.level.above.label ++ ": " ++
      String.intercalate "; " blockers)
  else none

/-- `promote`. -/
def promote (now actor ack : String) (signalBlockers : List String) (force : Bool) :
    Except String (Transition × AutonomyState) :=
  match s.promotionRefusal actor ack signalBlockers force with
  | some refusal => .error refusal
  | none =>
      let record := s.promotion now actor ack (s.promotionBlockers s.level.above ++ signalBlockers)
      .ok (record, { s.resetLevelCounters with
        level := s.level.above
        since := now
        lastPromotedBy := actor
        history := s.history ++ [record] })

/-- `demote`; there is nothing below L1. -/
def demote (now : String) (trigger : DemotionTrigger) (reason actor : String) (evidence : List (String × Json)) :
    Option (Transition × AutonomyState) :=
  if s.level = .l1Supervised then none
  else
    let record : Transition :=
      { at_ := now, fromLevel := s.level.value, toLevel := s.level.below.value, direction := "demote",
        actor := actor, reason := reason, trigger := trigger.label, evidence := evidence }
    some (record, { s.resetLevelCounters with
      level := s.level.below
      since := now
      cooldownRunsRemaining := demotionCooldownRuns
      history := s.history ++ [record] })

/-! ## Evidence -/

/-- `record_decisive_run`. -/
def recordDecisiveRun (count : ℤ) : AutonomyState :=
  { s with
    decisiveRunsAtLevel := s.decisiveRunsAtLevel + count
    cooldownRunsRemaining :=
      if 0 < s.cooldownRunsRemaining then max 0 (s.cooldownRunsRemaining - count) else s.cooldownRunsRemaining }

/-- `record_merged_component`. -/
def recordMergedComponent (humanEdited : Bool) : AutonomyState :=
  { s with
    componentsMergedAtLevel := s.componentsMergedAtLevel + 1
    cleanMergesAtLevel := if humanEdited then 0 else s.cleanMergesAtLevel + 1 }

/-- `record_policy_violation`. -/
def recordPolicyViolation (count : ℤ) : AutonomyState :=
  { s with policyViolationsAtLevel := s.policyViolationsAtLevel + count }

end AutonomyState

/-! ## What is stored -/

lemma requireEvidence_document (t : Transition) : requireEvidence t.document = .ok t.evidence := rfl

lemma parseTransition_document (t : Transition) : parseTransition t.document = .ok t := rfl

lemma parseHistory_document (history : List Transition) :
    parseHistory (some (.arr (history.map Transition.document))) = .ok history := by
  show (history.map Transition.document).mapM parseTransition = .ok history
  induction history with
  | nil => rfl
  | cons t rest ih =>
      rw [List.map_cons, List.mapM_cons, parseTransition_document, ih]
      rfl

lemma parseLevel_document (s : AutonomyState) : parseLevel s.document = .ok s.level := by
  show (match AutonomyLevel.ofValue? s.level.value with
    | some level => Except.ok level
    | none => .error (toString s.level.value ++ " is not a valid AutonomyLevel")) = _
  rw [AutonomyLevel.ofValue?_value]

namespace AutonomyState

variable {s s' : AutonomyState} {now path : String} {record : Transition}

lemma load_of_ok {fields : List (String × Json)} (path now : String) (h : ofDocument (.obj fields) = .ok s) :
    load path now (.document (.obj fields)) = { s with since := if s.since = "" then now else s.since } := by
  rw [load, h]

lemma load_of_error {fields : List (String × Json)} {reason : String} (path now : String)
    (h : ofDocument (.obj fields) = .error reason) :
    load path now (.document (.obj fields)) = failClosed now path reason := by
  rw [load, h]

lemma ofDocument_document (h : s.degradedReason = none) : ofDocument s.document = .ok s := by
  unfold ofDocument
  rw [parseLevel_document]
  show (parseHistory (some (.arr (s.history.map Transition.document))) >>= _) = _
  rw [parseHistory_document]
  show Except.ok _ = Except.ok _
  rw [← h]

/-- **The round trip of the file.** -/
theorem load_written (h : s.degradedReason = none) (file : LadderFile) :
    load path now (s.save file) = { s with since := if s.since = "" then now else s.since } := by
  have hsave : s.save file = .document s.document := if_neg (by simp [h])
  rw [hsave]
  exact load_of_ok path now (ofDocument_document h)

/-- A document that is read gives a state that is the stored one. -/
lemma degradedReason_ofDocument {data : Json} (h : ofDocument data = .ok s) : s.degradedReason = none := by
  unfold ofDocument at h
  obtain ⟨level, -, h⟩ := Except.bind_eq_ok h
  obtain ⟨history, -, h⟩ := Except.bind_eq_ok h
  obtain ⟨since, -, h⟩ := Except.bind_eq_ok h
  obtain ⟨lastPromotedBy, -, h⟩ := Except.bind_eq_ok h
  obtain ⟨componentsMerged, -, h⟩ := Except.bind_eq_ok h
  obtain ⟨cleanMerges, -, h⟩ := Except.bind_eq_ok h
  obtain ⟨policyViolations, -, h⟩ := Except.bind_eq_ok h
  obtain ⟨decisiveRuns, -, h⟩ := Except.bind_eq_ok h
  obtain ⟨cooldownRuns, -, h⟩ := Except.bind_eq_ok h
  cases h
  rfl

/-- What `load` gives is what is stored, or a fresh state at L1. -/
lemma load_cases (path now : String) (file : LadderFile) :
    (load path now file).degradedReason = none ∨ ∃ reason, load path now file = failClosed now path reason := by
  cases file with
  | absent refusal =>
      cases refusal with
      | none => exact .inl rfl
      | some refusal => exact .inr ⟨refusal, rfl⟩
  | damaged reason => exact .inr ⟨reason, rfl⟩
  | document data =>
      cases data with
      | obj fields =>
          cases hread : ofDocument (.obj fields) with
          | ok state =>
              have hnone : state.degradedReason = none := degradedReason_ofDocument hread
              left
              rw [load_of_ok path now hread]
              exact hnone
          | error reason => exact .inr ⟨reason, load_of_error path now hread⟩
      | _ => exact .inr ⟨_, rfl⟩

lemma level_of_degraded {file : LadderFile} (h : (load path now file).degradedReason ≠ none) :
    (load path now file).level = .l1Supervised := by
  rcases load_cases path now file with hnone | ⟨reason, hclosed⟩
  · exact absurd hnone h
  · rw [hclosed]
    rfl

theorem promote_history {actor ack : String} {signalBlockers : List String} {force : Bool}
    (h : s.promote now actor ack signalBlockers force = .ok (record, s')) :
    s'.history = s.history ++ [record] ∧ s'.level.value = record.toLevel ∧
      s'.degradedReason = s.degradedReason := by
  unfold promote at h
  split at h
  · cases h
  · cases h
    exact ⟨rfl, rfl, rfl⟩

theorem demote_history {trigger : DemotionTrigger} {reason actor : String} {evidence : List (String × Json)}
    (h : s.demote now trigger reason actor evidence = some (record, s')) :
    s'.history = s.history ++ [record] ∧ s'.level.value = record.toLevel ∧
      s'.degradedReason = s.degradedReason := by
  unfold demote at h
  split_ifs at h
  cases h
  exact ⟨rfl, rfl, rfl⟩

end AutonomyState

/-! ## The stored record -/

/-- The stored history; `load` reads it with any clock. -/
def LadderFile.history (file : LadderFile) : List Transition := (AutonomyState.load "" "" file).history

/-- The stored level. -/
def LadderFile.level (file : LadderFile) : AutonomyLevel := (AutonomyState.load "" "" file).level

lemma load_stored (path now : String) (file : LadderFile) :
    (AutonomyState.load path now file).history = file.history ∧
      (AutonomyState.load path now file).level = file.level := by
  cases file with
  | absent refusal => cases refusal <;> exact ⟨rfl, rfl⟩
  | damaged reason => exact ⟨rfl, rfl⟩
  | document data =>
      cases data with
      | obj fields =>
          unfold LadderFile.history LadderFile.level
          cases hread : AutonomyState.ofDocument (.obj fields) with
          | ok state =>
              rw [AutonomyState.load_of_ok path now hread, AutonomyState.load_of_ok "" "" hread]
              exact ⟨rfl, rfl⟩
          | error reason =>
              rw [AutonomyState.load_of_error path now hread, AutonomyState.load_of_error "" "" hread]
              exact ⟨rfl, rfl⟩
      | _ => exact ⟨rfl, rfl⟩

/-- A state that is the stored one is stored by `save`. -/
lemma stored_save {s : AutonomyState} (h : s.degradedReason = none) (file : LadderFile) :
    (s.save file).history = s.history ∧ (s.save file).level = s.level := by
  rw [LadderFile.history, LadderFile.level, AutonomyState.load_written h]
  exact ⟨rfl, rfl⟩

end Learning

end Kstrl
