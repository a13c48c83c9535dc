import Kstrl.Base.Json
import Kstrl.Plan.Manifest

/-!
# What a finished factory run means

`classifyRun` turns the outcome of one factory invocation, with what the run left on disk, into a
verdict for its queue item (`kstrl/serve/serve_outcome.py`).  One verdict alone, `RETRY_INFRA`,
authorizes spending again.

The files a run leaves come in through `Artifacts`: the event stream and the base-gates record of
each run, and the manifest.

* **`classifyRun_retryInfra_iff`** lists every way to the retrying verdict.
* **`halted_not_retried_iff`** is the case of a manifest that records an exhausted adversarial
  budget.  The halt is looked for on a timeout and among the failed components, and nowhere else, so
  a run killed by a signal and a run that lost the lock are retried in spite of it.
-/

namespace Kstrl

/-- What the evidence says about a finished run. -/
inductive Verdict where
  | success
  | retryInfra
  | specFailure
  | unclassifiable
  /-- the run halted itself on a configured ceiling -/
  | budgetHalt
  /-- the merge gate parked work and nothing failed -/
  | awaitingApproval
  /-- the architect escalated a question to the owner -/
  | awaitingAnswer
  /-- the base branch fails its own gates -/
  | redBase
  deriving DecidableEq, Repr

/-- Only one verdict authorizes spending again. -/
def Verdict.mayRetry (v : Verdict) : Bool := v = .retryInfra

/-- A verdict with the evidence that produced it. -/
structure Outcome where
  verdict : Verdict
  reason : String
  evidence : List (String × Json) := []

/-- The raw result of one factory invocation. -/
structure RunOutcome where
  returncode : ℤ
  timedOut : Bool := false
  /-- non-empty when the launch itself failed -/
  launchError : String := ""
  outputTail : String := ""
  /-- whether the timeout path confirmed that the process group is gone -/
  groupReaped : Bool := false
  groupReapDetail : String := ""
  groupOccupiedDetail : String := ""

/-- An event of a run's stream. -/
inductive RunEvent where
  | budgetExceeded (condition : String) (ceilings : List String)
  | other (type : String)
  deriving DecidableEq, Repr

/-- A base-gates record, as the classifier reads it out of the JSON object. -/
structure BaseGates where
  /-- whether `refused` is literally `true` -/
  refused : Bool
  /-- the entries of `reasons` that are strings -/
  reasons : List String
  baseBranch : String
  baseSha : String

/-- What runs leave on disk. -/
structure Artifacts where
  /-- the events of a run; `none` for an `OSError` -/
  readRunDir : String → Option (List RunEvent)
  /-- the base-gates record of a run; `none` for one that cannot be read -/
  baseGates : String → Option BaseGates
  baseGatesPath : String → String
  /-- `Manifest.load`; an error is the text of the exception -/
  loadManifest : String → Except String Manifest

variable (art : Artifacts)

/-! ## Run-level ceilings -/

/-- `budget_halt_kind`. -/
def budgetHaltKind (condition : String) (ceilings : List String) : String :=
  if condition = "unenforceable" then "unenforceable"
  else if ceilings = [] then "unreadable"
  else if ceilings = ["max_cost_usd"] then "cost" else "token"

def budgetHaltSentence (runId kind named : String) : String :=
  if kind = "unreadable" then
    "the run halted in " ++ runId ++ " on a budget record that names no ceilings " ++
      "(written before #180), so the cause cannot be read"
  else if kind = "unenforceable" then
    "the run halted in " ++ runId ++ " because no configured ceiling (" ++ named ++
      ") can still fire: no metered call reported that axis, so the cap could never stop the " ++
      "spend. Fix the coverage or the configuration - raising a limit would change nothing"
  else
    "the run halted on a configured ceiling (" ++ named ++ ") in " ++ runId ++
      ": raising the ceiling or narrowing the spec is a human decision, and retrying would " ++
      "re-run the same work against the same limit at a higher cost"

/-- The sentence of the first budget event of a stream. -/
def firstBudgetHalt (runId : String) : List RunEvent → Option String
  | [] => none
  | .budgetExceeded condition ceilings :: _ =>
      some (budgetHaltSentence runId (budgetHaltKind condition ceilings)
        (String.intercalate ", " ceilings))
  | .other _ :: rest => firstBudgetHalt runId rest

/-- Why an owned run halted on a run-level ceiling, or the empty text. -/
def budgetHaltReason : List String → String
  | [] => ""
  | runId :: rest =>
      if runId = "" then budgetHaltReason rest
      else match (art.readRunDir runId).bind (firstBudgetHalt runId) with
        | some sentence => sentence
        | none => budgetHaltReason rest

/-! ## The manifest branches -/

/-- Whether a component's failure was infrastructural. -/
def infraCasualty (c : Component) : Bool := c.findings.any Finding.isInfrastructureError

/-- `id: error` for each component the caller can only name. -/
def unevidencedDetail (unevidenced : List Component) : String :=
  String.intercalate "; " (unevidenced.map fun c =>
    c.id ++ ": " ++ if c.error = "" then "no error recorded" else c.error)

def idList (l : List Component) : Json := .arr (l.map fun c => .str c.id)

def componentErrors (l : List Component) : Json := .obj (l.map fun c => (c.id, .str c.error))

def joinedIds (l : List Component) : String := String.intercalate ", " (l.map (·.id))

/-- The evidence a verdict records about failures it can only name. -/
def unevidencedEvidence (unevidenced : List Component) (returncode : ℤ) : List (String × Json) :=
  [("returncode", .int returncode), ("unevidenced_failures", idList unevidenced),
   ("component_errors", componentErrors unevidenced)]

def failedComponents (m : Manifest) : List Component := m.components.filter (·.status = .failed)

/-- `BUDGET_HALT` when the adversarial call cap ended the run. -/
def budgetHaltOutcome (failed : List Component) (returncode : ℤ) : Option Outcome :=
  let halted := failed.filter (·.failedCheck = adversarialBudgetCheck)
  if halted = [] then none
  else
    let others := failed.filter (·.failedCheck ≠ adversarialBudgetCheck)
    let detail := unevidencedDetail others
    let also := if detail = "" then "" else "; also failed, for other reasons - " ++ detail
    some {
      verdict := .budgetHalt
      reason := "the run halted on max_adversarial_calls: " ++ joinedIds halted ++
        " reached a hard-mode review or security phase with the adversarial call budget " ++
        "already spent. Raise the cap or set the mode to advisory; retrying would re-run the " ++
        "same work against the same cap" ++ also
      evidence := [("returncode", .int returncode), ("budget_halted", idList halted),
        ("other_failures", idList others), ("component_errors", componentErrors others)] }

/-- A run killed on its deadline.  The manifest is read for positive evidence only. -/
def timeoutOutcome (manifestPath : Option String) (returncode : ℤ) : Outcome :=
  let killed : Outcome := {
    verdict := .retryInfra
    reason := "run exceeded serve.factory_timeout_seconds and was killed"
    evidence := [("timed_out", .bool true)] }
  match manifestPath.map art.loadManifest with
  | some (.ok manifest) =>
      match budgetHaltOutcome (failedComponents manifest) returncode with
      | some halted => { halted with evidence := halted.evidence ++ [("timed_out", .bool true)] }
      | none => killed
  | _ => killed

/-- `sorted({str(c.status) ...})`. -/
def statusSet (m : Manifest) : List String :=
  ((m.components.map (·.status.value)).eraseDups).insertionSort (· ≤ ·)

/-- A nonzero exit whose manifest blames no component. -/
def unfailedOutcome (m : Manifest) (returncode : ℤ) : Outcome :=
  let parked := m.components.filter (·.status = .awaitingApproval)
  if m.planAwaitingApproval ≠ "" then
    { verdict := .awaitingApproval
      reason := "awaiting plan approval: nothing was run; `ks inbox approve <id>` runs the plan, " ++
        "`ks inbox reject <id> --comment ...` refuses it"
      evidence := [("returncode", .int returncode),
        ("plan_awaiting_approval", .str m.planAwaitingApproval)] }
  else if parked ≠ [] then
    { verdict := .awaitingApproval
      reason := "awaiting merge approval: " ++ joinedIds parked ++ " passed every gate and the " ++
        "merge gate parked it with nothing pushed; `ks inbox approve <id>` merges it and " ++
        "continues the run"
      evidence := [("returncode", .int returncode), ("awaiting_approval", idList parked)] }
  else
    { verdict := .unclassifiable
      reason := "exit " ++ toString returncode ++ " with no failed component to attribute it to " ++
        "(unconfirmed merge, contract failure, or an interrupted run); a human decides whether " ++
        "to resume"
      evidence := [("returncode", .int returncode),
        ("statuses", .arr ((statusSet m).map Json.str))] }

/-- Whether named failures were the spec's fault, unproven, or infrastructure. -/
def meritsOutcome (failed : List Component) (returncode : ℤ) : Outcome :=
  let judged := failed.filter fun c =>
    c.findings ≠ [] ∧ infraCasualty c = false ∧ c.failedCheck ≠ "merge_gate"
  let unevidenced := failed.filter fun c => c.findings = [] ∨ c.failedCheck = "merge_gate"
  let detail := unevidencedDetail unevidenced
  let siblingNote := if detail = "" then "" else
    "; also failed with no finding to explain it - " ++ detail
  let evidence := unevidencedEvidence unevidenced returncode
  if judged ≠ [] then
    { verdict := .specFailure
      reason := "spec-level failure: " ++ joinedIds judged ++
        " failed on their own merits, not on infrastructure" ++ siblingNote
      evidence := evidence ++ [("judged_failures", idList judged)] }
  else if unevidenced ≠ [] then
    { verdict := .unclassifiable
      reason := "failed with no finding to attribute it to, so the cause is unproven - " ++ detail
      evidence := evidence }
  else
    { verdict := .retryInfra
      reason := "every failed component carried an infrastructure_error finding: " ++
        joinedIds failed
      evidence := [("returncode", .int returncode), ("infra_failures", idList failed)] }

/-! ## Refusals -/

def lockRefusalMarker : String := "--force-lock"

def specBlockerMarker : String := "Spec issues written to:"

/-- The verdict on one refused base. -/
def redBaseVerdict (runId : String) (record : BaseGates) : Outcome :=
  let reasons := String.intercalate "; " record.reasons
  { verdict := .redBase
    reason := "factory exited 2: the base branch " ++ record.baseBranch ++ " at " ++
      String.ofList (record.baseSha.toList.take 12) ++ " fails its own gates (" ++
      (if reasons = "" then "no reason recorded" else reasons) ++ "), recorded in " ++
      art.baseGatesPath runId
    evidence := [("returncode", .int 2), ("cause", .str "red_base"), ("run_id", .str runId),
      ("record", .str (art.baseGatesPath runId)), ("base_branch", .str record.baseBranch),
      ("base_sha", .str record.baseSha), ("reasons", .arr (record.reasons.map Json.str))] }

/-- `RED_BASE` when an owned run recorded a refused base. -/
def redBaseOutcome : List String → Option Outcome
  | [] => none
  | runId :: rest =>
      if runId = "" then redBaseOutcome rest
      else match art.baseGates runId with
        | some record =>
            if record.refused then some (redBaseVerdict art runId record) else redBaseOutcome rest
        | none => redBaseOutcome rest

/-- The last characters of a text. -/
def lastChars (n : ℕ) (s : String) : String :=
  String.ofList (s.toList.drop (s.toList.length - n))

/-- What the factory's exit 2 means. -/
def refusalOutcome (tail : String) (ownedRunIds : List String) : Outcome :=
  match redBaseOutcome art ownedRunIds with
  | some redBase => redBase
  | none =>
      if PyText.contains tail lockRefusalMarker then
        { verdict := .retryInfra
          reason := "factory exited 2 because another run held the run lock; " ++
            "contention is infrastructural"
          evidence := [("returncode", .int 2), ("cause", .str "lock_contention")] }
      else if PyText.contains tail specBlockerMarker then
        { verdict := .awaitingAnswer
          reason := "factory exited 2: the architect escalated a question only the owner can answer"
          evidence := [("returncode", .int 2), ("cause", .str "spec_blocker")] }
      else
        { verdict := .unclassifiable
          reason := "factory exited 2 but its output named neither a spec blocker nor lock " ++
            "contention; refusing to guess which refusal it was"
          evidence := [("returncode", .int 2), ("output_tail", .str (lastChars 500 tail))] }

/-! ## The classifier -/

/-- The branches that read the manifest. -/
def manifestOutcome (manifestPath : Option String) (returncode : ℤ) : Outcome :=
  match manifestPath with
  | none =>
      { verdict := .unclassifiable
        reason := "exit " ++ toString returncode ++ " and this invocation produced no run " ++
          "artifacts of its own; refusing to classify from another run’s manifest"
        evidence := [("returncode", .int returncode)] }
  | some path =>
      match art.loadManifest path with
      | .error exc =>
          { verdict := .unclassifiable
            reason := "exit " ++ toString returncode ++ " and the manifest could not be read (" ++
              exc ++ "); refusing to guess whether this was infrastructural"
            evidence := [("returncode", .int returncode), ("manifest", .str path)] }
      | .ok manifest =>
          let failed := failedComponents manifest
          if failed = [] then unfailedOutcome manifest returncode
          else (budgetHaltOutcome failed returncode).getD (meritsOutcome failed returncode)

/-- Decide what a finished factory run means for its queue item. -/
def classifyRun (run : RunOutcome) (manifestPath : Option String) (ownedRunIds : List String) :
    Outcome :=
  if run.launchError ≠ "" then
    { verdict := .retryInfra
      reason := "launch failed before any spend: " ++ run.launchError
      evidence := [("launch_error", .str run.launchError)] }
  else if budgetHaltReason art ownedRunIds ≠ "" then
    { verdict := .budgetHalt
      reason := budgetHaltReason art ownedRunIds
      evidence := [("returncode", .int run.returncode),
        ("owned_run_ids", .arr (ownedRunIds.map Json.str))] }
  else if run.timedOut then timeoutOutcome art manifestPath run.returncode
  else if run.returncode = 0 then
    { verdict := .success
      reason := "factory exited 0"
      evidence := [("returncode", .int 0)] }
  else if run.returncode < 0 then
    { verdict := .retryInfra
      reason := "killed by signal " ++ toString (-run.returncode) ++
        " (external cause, not a verdict on the spec)"
      evidence := [("signal", .int (-run.returncode))] }
  else if run.returncode = 2 then refusalOutcome art run.outputTail ownedRunIds
  else manifestOutcome art manifestPath run.returncode

/-! ## Which branches retry -/

variable {art}

lemma budgetHaltOutcome_verdict {failed : List Component} {returncode : ℤ} {o : Outcome}
    (h : budgetHaltOutcome failed returncode = some o) : o.verdict = .budgetHalt := by
  unfold budgetHaltOutcome at h
  simp only at h
  split_ifs at h <;> cases h <;> rfl

/-- The cap is seen exactly when a failed component names it. -/
lemma budgetHaltOutcome_eq_none {failed : List Component} {returncode : ℤ} :
    budgetHaltOutcome failed returncode = none ↔
      ∀ c ∈ failed, c.failedCheck ≠ adversarialBudgetCheck := by
  unfold budgetHaltOutcome
  simp only
  split_ifs with hnone
  · simpa using hnone
  · simp only [false_iff]
    intro hall
    exact hnone (List.filter_eq_nil_iff.mpr fun c hc => by simpa using hall c hc)

lemma redBaseOutcome_verdict {ids : List String} {o : Outcome}
    (h : redBaseOutcome art ids = some o) : o.verdict = .redBase := by
  induction ids with
  | nil => cases h
  | cons runId rest ih =>
      unfold redBaseOutcome at h
      split_ifs at h
      · exact ih h
      · split at h
        · split_ifs at h
          · cases h
            rfl
          · exact ih h
        · exact ih h

lemma unfailedOutcome_ne (m : Manifest) (returncode : ℤ) :
    (unfailedOutcome m returncode).verdict ≠ .retryInfra := by
  unfold unfailedOutcome
  simp only
  split_ifs <;> simp

/-- A refusal is retried on the lock marker alone, and only without a red base. -/
lemma refusalOutcome_retryInfra_iff {tail : String} {ids : List String} :
    (refusalOutcome art tail ids).verdict = .retryInfra ↔
      redBaseOutcome art ids = none ∧ PyText.contains tail lockRefusalMarker = true := by
  unfold refusalOutcome
  cases hred : redBaseOutcome art ids with
  | some o => simp [redBaseOutcome_verdict hred]
  | none =>
      simp only [true_and]
      split_ifs with hlock hspec <;> simp [hlock]

/-- A timeout is retried unless the manifest records the cap. -/
lemma timeoutOutcome_retryInfra_iff {manifestPath : Option String} {returncode : ℤ} :
    (timeoutOutcome art manifestPath returncode).verdict = .retryInfra ↔
      ∀ path m, manifestPath = some path → art.loadManifest path = .ok m →
        ∀ c ∈ failedComponents m, c.failedCheck ≠ adversarialBudgetCheck := by
  unfold timeoutOutcome
  cases manifestPath with
  | none => simp
  | some path =>
      cases hload : art.loadManifest path with
      | error exc =>
          simp only [Option.map_some, hload, true_iff]
          rintro p m hp hm
          cases hp
          rw [hload] at hm
          cases hm
      | ok m =>
          cases hb : budgetHaltOutcome (failedComponents m) returncode with
          | none =>
              have hall := budgetHaltOutcome_eq_none.mp hb
              simp only [Option.map_some, hload, hb, true_iff]
              rintro p m' hp hm'
              cases hp
              rw [hload] at hm'
              cases hm'
              exact hall
          | some o =>
              have hv := budgetHaltOutcome_verdict hb
              simp only [Option.map_some, hload, hb, hv, reduceCtorEq, false_iff]
              intro hall
              rw [budgetHaltOutcome_eq_none.mpr (hall path m rfl hload)] at hb
              cases hb

/-- **Every way to a retry** once the run was launched. -/
theorem classifyRun_retryInfra_iff {run : RunOutcome} {manifestPath : Option String}
    {ids : List String} (hlaunch : run.launchError = "") :
    (classifyRun art run manifestPath ids).verdict = .retryInfra ↔
      budgetHaltReason art ids = "" ∧
        ((run.timedOut = true ∧
            (timeoutOutcome art manifestPath run.returncode).verdict = .retryInfra) ∨
          (run.timedOut = false ∧ run.returncode < 0) ∨
          (run.timedOut = false ∧ run.returncode = 2 ∧ redBaseOutcome art ids = none ∧
            PyText.contains run.outputTail lockRefusalMarker = true) ∨
          (run.timedOut = false ∧ 0 < run.returncode ∧ run.returncode ≠ 2 ∧
            (manifestOutcome art manifestPath run.returncode).verdict = .retryInfra)) := by
  unfold classifyRun
  rw [if_neg (not_not.mpr hlaunch)]
  by_cases hhalt : budgetHaltReason art ids = ""
  swap
  · simp [hhalt]
  rw [if_neg (not_not.mpr hhalt)]
  cases htime : run.timedOut with
  | true => simp [hhalt]
  | false =>
      simp only [hhalt, Bool.false_eq_true, if_false, false_and, true_and, false_or]
      split_ifs with hzero hneg htwo
      · simp [hzero]
      · simp [hneg]
      · simp [htwo, refusalOutcome_retryInfra_iff]
      · simp [hneg, htwo, show 0 < run.returncode by omega]

/-! ## A recorded halt on the adversarial budget -/

/-- An owned run recorded a blown run-level ceiling. -/
def HaltRecorded (art : Artifacts) (ids : List String) : Prop :=
  ∃ runId ∈ ids, runId ≠ "" ∧ ∃ events, art.readRunDir runId = some events ∧
    ∃ condition ceilings, RunEvent.budgetExceeded condition ceilings ∈ events

/-- An owned run recorded a refused base. -/
def RedBaseRecorded (art : Artifacts) (ids : List String) : Prop :=
  ∃ runId ∈ ids, runId ≠ "" ∧ ∃ record, art.baseGates runId = some record ∧ record.refused = true

lemma budgetHaltSentence_ne (runId kind named : String) :
    budgetHaltSentence runId kind named ≠ "" := by
  have hne : ∀ a b : String, a ≠ "" → a ++ b ≠ "" := by
    intro a b ha h
    have := congrArg String.toList h
    rw [String.toList_append, String.toList_empty, List.append_eq_nil_iff] at this
    exact ha (String.toList_inj.mp (by rw [this.1, String.toList_empty]))
  unfold budgetHaltSentence
  split_ifs <;> (repeat' apply hne) <;> decide

lemma firstBudgetHalt_isSome {runId : String} {events : List RunEvent} :
    (firstBudgetHalt runId events).isSome ↔
      ∃ condition ceilings, RunEvent.budgetExceeded condition ceilings ∈ events := by
  induction events with
  | nil => simp [firstBudgetHalt]
  | cons e events ih =>
      cases e with
      | budgetExceeded condition ceilings =>
          simp only [firstBudgetHalt, Option.isSome_some, true_iff]
          exact ⟨condition, ceilings, List.mem_cons_self ..⟩
      | other type => simp [firstBudgetHalt, ih]

lemma firstBudgetHalt_ne {runId sentence : String} {events : List RunEvent}
    (h : firstBudgetHalt runId events = some sentence) : sentence ≠ "" := by
  induction events with
  | nil => cases h
  | cons e events ih =>
      cases e with
      | budgetExceeded condition ceilings =>
          cases h
          exact budgetHaltSentence_ne _ _ _
      | other type => exact ih h

/-- The reason is given exactly when an owned run recorded the event. -/
lemma budgetHaltReason_ne_iff {ids : List String} :
    budgetHaltReason art ids ≠ "" ↔ HaltRecorded art ids := by
  induction ids with
  | nil => simp [budgetHaltReason, HaltRecorded]
  | cons runId rest ih =>
      have hcons : HaltRecorded art (runId :: rest) ↔
          (runId ≠ "" ∧ ∃ events, art.readRunDir runId = some events ∧
            (firstBudgetHalt runId events).isSome) ∨ HaltRecorded art rest := by
        simp [HaltRecorded, firstBudgetHalt_isSome]
      rw [hcons, ← ih, budgetHaltReason]
      split_ifs with hid
      · simp [hid]
      · cases hread : art.readRunDir runId with
        | none => simp
        | some events =>
            cases hfirst : firstBudgetHalt runId events with
            | none => simp [hfirst]
            | some sentence => simp [hfirst, hid, firstBudgetHalt_ne hfirst]

lemma redBaseOutcome_isSome_iff {ids : List String} :
    (redBaseOutcome art ids).isSome ↔ RedBaseRecorded art ids := by
  induction ids with
  | nil => simp [redBaseOutcome, RedBaseRecorded]
  | cons runId rest ih =>
      have hcons : RedBaseRecorded art (runId :: rest) ↔
          (runId ≠ "" ∧ ∃ record, art.baseGates runId = some record ∧ record.refused = true) ∨
            RedBaseRecorded art rest := by
        simp [RedBaseRecorded]
      rw [hcons, ← ih, redBaseOutcome]
      split_ifs with hid
      · simp [hid]
      · cases hgates : art.baseGates runId with
        | none => simp
        | some record => cases hr : record.refused <;> simp [hid, hr]

/-- The condition under which a recorded halt on the adversarial budget is terminal: the run
    recorded a run-level ceiling too, or was timed out, or it was not killed by a signal and its
    exit 2, if it had one, is a refused base or names no lock. -/
def HaltSeen (art : Artifacts) (run : RunOutcome) (ids : List String) : Prop :=
  HaltRecorded art ids ∨ run.timedOut = true ∨
    (0 ≤ run.returncode ∧ (run.returncode = 2 → RedBaseRecorded art ids ∨
      PyText.contains run.outputTail lockRefusalMarker = false))

/-- **A recorded halt is terminal exactly where it is looked for.** -/
theorem halted_not_retried_iff {run : RunOutcome} {path : String} {ids : List String}
    {m : Manifest} (hlaunch : run.launchError = "") (hload : art.loadManifest path = .ok m)
    (hhalt : ∃ c ∈ m.components, c.status = .failed ∧ c.failedCheck = adversarialBudgetCheck) :
    (classifyRun art run (some path) ids).verdict ≠ .retryInfra ↔ HaltSeen art run ids := by
  obtain ⟨c, hc, hfailed, hcheck⟩ := hhalt
  have hmem : c ∈ failedComponents m := List.mem_filter.mpr ⟨hc, by simpa using hfailed⟩
  have htimeout : (timeoutOutcome art (some path) run.returncode).verdict ≠ .retryInfra := fun h =>
    timeoutOutcome_retryInfra_iff.mp h path m rfl hload c hmem hcheck
  have hmanifest : (manifestOutcome art (some path) run.returncode).verdict ≠ .retryInfra := by
    unfold manifestOutcome
    simp only [hload]
    rw [if_neg (List.ne_nil_of_mem hmem)]
    cases hb : budgetHaltOutcome (failedComponents m) run.returncode with
    | none => exact absurd hcheck (budgetHaltOutcome_eq_none.mp hb c hmem)
    | some o => simp [budgetHaltOutcome_verdict hb]
  have hred : redBaseOutcome art ids = none ↔ ¬ RedBaseRecorded art ids := by
    rw [← redBaseOutcome_isSome_iff, Option.not_isSome_iff_eq_none]
  have hsafe : ∀ b : Bool, b = true ↔ ¬ b = false := by decide
  have hevent : budgetHaltReason art ids = "" ↔ ¬ HaltRecorded art ids := by
    rw [← budgetHaltReason_ne_iff, not_not]
  rw [ne_eq, classifyRun_retryInfra_iff hlaunch, hevent, hred]
  unfold HaltSeen
  constructor
  · intro hnot
    by_contra hseen
    rw [not_or, not_or, not_and_or, not_le, Classical.not_imp, not_or] at hseen
    obtain ⟨hrec, htime, hcode⟩ := hseen
    refine hnot ⟨hrec, Or.inr ?_⟩
    have htime : run.timedOut = false := by simpa using htime
    rcases hcode with hneg | ⟨htwo, hbase, hlock⟩
    · exact Or.inl ⟨htime, hneg⟩
    · exact Or.inr (Or.inl ⟨htime, htwo, hbase, (hsafe _).mpr hlock⟩)
  · rintro hseen ⟨hrec, hway⟩
    rcases hseen with h | htime | ⟨hpos, htwo⟩
    · exact hrec h
    · rcases hway with ⟨_, h⟩ | ⟨hf, _⟩ | ⟨hf, _⟩ | ⟨hf, _⟩
      · exact htimeout h
      all_goals rw [htime] at hf; cases hf
    · rcases hway with ⟨_, h⟩ | ⟨_, hneg⟩ | ⟨_, hcode, hbase, hlock⟩ | ⟨_, _, _, h⟩
      · exact htimeout h
      · omega
      · rcases htwo hcode with h | h
        · exact hbase h
        · rw [hlock] at h
          cases h
      · exact hmanifest h

/-! ### A run killed by a signal after its halt -/

/-- A component refused by the exhausted adversarial budget. -/
def haltedComponent : Component where
  id := "api"
  status := .failed
  failedPhase := "review"
  failedCheck := adversarialBudgetCheck
  findings := [{ phase := "review", category := infrastructureCategory }]

def haltedArtifacts : Artifacts where
  readRunDir _ := some [.other "component_failed"]
  baseGates _ := none
  baseGatesPath runId := ".kstrl/runs/" ++ runId ++ "/base-gates.json"
  loadManifest _ := .ok { components := [haltedComponent], runId := "run-1" }

lemma halted_mem : ∃ c ∈ [haltedComponent], c.status = .failed ∧
    c.failedCheck = adversarialBudgetCheck :=
  ⟨haltedComponent, List.mem_singleton.mpr rfl, rfl, rfl⟩

/-- The same run is terminal when it exits 1. -/
theorem halted_not_retried_exit_one :
    (classifyRun haltedArtifacts { returncode := 1 } (some "manifest.json") ["run-1"]).verdict
      ≠ .retryInfra :=
  (halted_not_retried_iff rfl rfl halted_mem).mpr
    (Or.inr (Or.inr ⟨by decide, fun h => absurd h (by decide)⟩))

/-- **Killed by SIGKILL after the halt was recorded**, the run is retried. -/
theorem killed_after_halt_retried :
    ¬ ∀ (art : Artifacts) (run : RunOutcome) (path : String) (ids : List String) (m : Manifest),
      run.launchError = "" → art.loadManifest path = .ok m →
      (∃ c ∈ m.components, c.status = .failed ∧ c.failedCheck = adversarialBudgetCheck) →
      (classifyRun art run (some path) ids).verdict ≠ .retryInfra := by
  intro h
  exact h haltedArtifacts { returncode := -9 } "manifest.json" ["run-1"] _ rfl rfl halted_mem
    (by decide)

end Kstrl
