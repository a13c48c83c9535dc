import Kstrl.Acceptance.BaseReading
import Kstrl.Acceptance.Dispute
import Kstrl.Owner.Inbox

/-!
# The head record

What is recorded of a component's checks on one head (`kstrl/acceptance/acceptance_record.py`), with the approval that
covers the checks that did not pass (`covering_override` of `kstrl/owner/waivers.py`).

* **`row_pass_iff`**: a check of the record passes when it ran and every run exited 0.
* **`coveringOverride_covers`**: an approval that covers was taken on this head and names every failing check.
-/

namespace Kstrl.Acceptance

open Owner

def headRuns : ℕ := 3

def heldOutReadDenied : String := "unknown"

/-! ## The approval of a halt -/

/-- An approval as a record keeps it. -/
structure Override where
  item : String
  decidedBy : String
  decidedAt : String
  deriving DecidableEq, Repr

/-- The checks an item names. -/
def namedChecks (item : InboxItem) : List String :=
  ((((item.evidence.lookup "check").getD (.str "")).pyStr.toList).splitOn ',').map fun name =>
    PyText.strip (String.ofList name)

/-- Whether an item was filed on a commit. -/
def takenOn (item : InboxItem) (headSha : String) : Bool :=
  match item.evidence.lookup "head_sha" with
  | some (.str sha) => sha = headSha
  | _ => false

/-- An approval taken on this head that names every failing check. -/
def Covers (item : InboxItem) (headSha : String) (failing : List String) : Prop :=
  takenOn item headSha = true ∧ ∀ id ∈ failing, id ∈ namedChecks item

instance (item : InboxItem) (headSha : String) (failing : List String) : Decidable (Covers item headSha failing) :=
  inferInstanceAs (Decidable (_ ∧ _))

/-- `covering_override` -/
def coveringOverride (items : List InboxItem) (headSha : String) (failing : List String) : Option Override :=
  (items.find? fun item => failing ≠ [] ∧ Covers item headSha failing).map fun item =>
    ⟨item.id, item.decidedBy, item.decidedAt⟩

lemma coveringOverride_covers {items : List InboxItem} {headSha : String} {failing : List String} {o : Override}
    (h : coveringOverride items headSha failing = some o) :
    ∃ item ∈ items, item.id = o.item ∧ Covers item headSha failing := by
  obtain ⟨item, hitem, rfl⟩ := Option.map_eq_some_iff.mp h
  have hcovers := List.find?_some hitem
  exact ⟨item, List.mem_of_find?_eq_some hitem, rfl, (of_decide_eq_true hcovers).2⟩

/-! ## The record -/

/-- What each check exited on each run. -/
structure Row where
  id : String
  sha256 : String
  heldOut : Bool
  baseExit : Option ℤ
  headExits : List (Option ℤ)
  seconds : List String
  logSha256 : List String
  verdict : Verdict
  deriving DecidableEq, Repr

def Row.kind (row : Row) : String := if row.heldOut then "held out" else "visible"

/-- A visible check that did not pass, with what its last failed run printed. -/
structure VisibleFailure where
  id : String
  argv : List String
  tail : List String
  deriving DecidableEq, Repr

structure HeadRecord where
  run : String
  component : String
  attempt : ℕ
  planId : String
  writtenBy : String
  checksDigest : String
  baseSha : String
  headSha : String
  base : String
  headRuns : ℕ
  heldOutReadDenied : String
  replay : Replay
  checks : List Row
  removed : List String
  override : Option Override
  visibleFailures : List VisibleFailure
  dispute : Dispute
  engineerSandbox : String

/-- One evaluation of a component head: what was planned and measured, and what the record is made of. -/
structure Evaluation where
  plan : PinnedPlan
  base : BaseReading
  part : ComponentPlan
  comp : String
  headSha : String
  attempt : ℕ
  run : String
  replay : Replay
  runs : Runs
  logSha : String → ℕ → String
  overrides : List InboxItem
  progress : Option Progress
  engineerSandbox : String

namespace Evaluation

variable (e : Evaluation)

def row (check : Check) : Row :=
  let stages := e.runs.get e.comp check.id
  let exits := stages.map Stage.exit
  { id := check.id
    sha256 := check.sha256
    heldOut := check.heldOut
    baseExit := e.base.exits e.comp check.id
    headExits := exits
    seconds := stages.map Stage.seconds
    logSha256 := (List.range stages.length).map fun i => e.logSha check.id (i + 1)
    verdict := headVerdict exits }

def rows : List Row := e.part.checks.map e.row

/-- The checks that did not pass. -/
def failing : List String := (e.rows.filter fun row => row.verdict ≠ .pass).map Row.id

/-- What the last run that did not exit 0 printed. -/
def failedTail (check : Check) : List String :=
  (((e.runs.get e.comp check.id).reverse.find? fun stage => stage.exit ≠ some 0).map Stage.tail).getD []

/-- `visible_failures` -/
def visibleFailures : List VisibleFailure :=
  (e.part.checks.filter fun check => !check.heldOut ∧ check.id ∈ e.failing).map fun check =>
    ⟨check.id, check.argv, e.failedTail check⟩

/-- The planned checks that no head runs. -/
def removed : List String :=
  match e.plan.components.lookup e.comp with
  | some planned => (planned.checks.filter fun check => check ∉ e.part.checks).map Check.id
  | none => []

section Record

variable (sha256 : List UInt8 → String) (u : CharTables)

def checksDigest : String :=
  entrySha sha256 (.obj [("checks", stringsJson (e.part.checks.map Check.sha256))])

/-- `head_record`, with what `judge_head` adds to it. -/
def record : HeadRecord where
  run := e.run
  component := e.comp
  attempt := e.attempt
  planId := e.plan.digest
  writtenBy := if e.plan.designed then "designer" else "operator"
  checksDigest := e.checksDigest sha256
  baseSha := e.base.sha
  headSha := e.headSha
  base := (e.base.said.lookup e.comp).getD ""
  headRuns := Acceptance.headRuns
  heldOutReadDenied := Acceptance.heldOutReadDenied
  replay := e.replay
  checks := e.rows
  removed := e.removed
  override := coveringOverride e.overrides e.headSha e.failing
  visibleFailures := e.visibleFailures
  dispute := readDispute u e.part.checks e.failing e.progress
  engineerSandbox := e.engineerSandbox

end Record

end Evaluation

/-! ## What a record says -/

section Facts

variable {e : Evaluation}

/-- **A check of the record passes** when it ran and every run exited 0. -/
lemma row_pass_iff {check : Check} : (e.row check).verdict = .pass ↔
    e.runs.get e.comp check.id ≠ [] ∧ ∀ stage ∈ e.runs.get e.comp check.id, stage.exit = some 0 := by
  rw [Evaluation.row, headVerdict_eq_pass, ne_eq, List.map_eq_nil_iff, List.forall_mem_map]

lemma mem_failing_iff {id : String} :
    id ∈ e.failing ↔ ∃ check ∈ e.part.checks, check.id = id ∧ (e.row check).verdict ≠ .pass := by
  rw [Evaluation.failing, Evaluation.rows, List.mem_map]
  constructor
  · rintro ⟨row, hrow, hid⟩
    obtain ⟨hrow, hverdict⟩ := List.mem_filter.mp hrow
    obtain ⟨check, hcheck, rfl⟩ := List.mem_map.mp hrow
    exact ⟨check, hcheck, hid, of_decide_eq_true hverdict⟩
  · rintro ⟨check, hcheck, hid, hverdict⟩
    exact ⟨e.row check, List.mem_filter.mpr ⟨List.mem_map_of_mem hcheck, decide_eq_true hverdict⟩, hid⟩

lemma failing_eq_nil_iff : e.failing = [] ↔ ∀ check ∈ e.part.checks, (e.row check).verdict = .pass := by
  rw [List.eq_nil_iff_forall_not_mem]
  constructor
  · intro h check hcheck
    by_contra hverdict
    exact h check.id (mem_failing_iff.mpr ⟨check, hcheck, rfl, hverdict⟩)
  · rintro h id hid
    obtain ⟨check, hcheck, -, hverdict⟩ := mem_failing_iff.mp hid
    exact hverdict (h check hcheck)

end Facts

/-! ## The document -/

def Row.toJson (row : Row) : Json :=
  .obj [("id", .str row.id),
    ("sha256", .str row.sha256),
    ("kind", .str row.kind),
    ("heldOut", .bool row.heldOut),
    ("baseExit", intJson row.baseExit),
    ("headExits", .arr (row.headExits.map intJson)),
    ("seconds", .arr (row.seconds.map .float)),
    ("logSha256", stringsJson row.logSha256),
    ("verdict", .str row.verdict.value)]

def Override.toJson (o : Override) : Json :=
  .obj [("item", .str o.item), ("by", .str o.decidedBy), ("at", .str o.decidedAt)]

def VisibleFailure.toJson (failure : VisibleFailure) : Json :=
  .obj [("id", .str failure.id), ("argv", stringsJson failure.argv), ("tail", stringsJson failure.tail)]

def Dispute.toJson (d : Dispute) : Json :=
  .obj [("accepted", .arr (d.accepted.map fun entry => .obj [("id", .str entry.id), ("cause", .str entry.cause)])),
    ("rejected", stringsJson d.rejected)]

/-- `record.json` -/
def HeadRecord.toJson (record : HeadRecord) : Json :=
  .obj [("run", .str record.run),
    ("component", .str record.component),
    ("attempt", .int record.attempt),
    ("planId", .str record.planId),
    ("writtenBy", .str record.writtenBy),
    ("stackDigest", .str record.replay.stackDigest),
    ("checksDigest", .str record.checksDigest),
    ("baseSha", .str record.baseSha),
    ("headSha", .str record.headSha),
    ("isolation", record.replay.isolationJson),
    ("base", .str record.base),
    ("headRuns", .int record.headRuns),
    ("heldOutReadDenied", .str record.heldOutReadDenied),
    ("replay", record.replay.replayJson),
    ("checks", .arr (record.checks.map Row.toJson)),
    ("removed", stringsJson record.removed),
    ("override", (record.override.map Override.toJson).getD .null),
    ("visibleFailures", .arr (record.visibleFailures.map VisibleFailure.toJson)),
    ("dispute", record.dispute.toJson),
    ("engineerSandbox", .str record.engineerSandbox)]

end Kstrl.Acceptance
