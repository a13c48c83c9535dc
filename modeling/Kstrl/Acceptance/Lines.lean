import Kstrl.Acceptance.HeadRecord

/-!
# The lines of a head record

`kstrl/acceptance/acceptance_lines.py`: what the terminal and the pull request show of a record, what a retry tells
the engineer, and what a halt says.

* **`told_heldOut`**: of a held-out check a retry is told its row line alone.
-/

namespace Kstrl.Acceptance

def hostLabel : String := "none: ran on the host"

def designedLine : String := "- the verification designer wrote these checks"

def designedStopLine : String :=
  "- the verification designer wrote these checks, so a check that did not pass can be incorrect, or the code can be"

def engineerLine (harness : String) : String :=
  if harness = "" then "- the engineer ran with no sandbox" else "- the engineer ran in the sandbox of " ++ harness

/-- `row_line` -/
def rowLine (row : Row) (runs : ℕ) : String :=
  let passed := toString (row.headExits.count (some 0))
  let said := match row.verdict with
    | .pass => "passed " ++ passed ++ " of " ++ toString runs ++ " runs"
    | .fail => "passed " ++ passed ++ " of " ++ toString runs ++ " runs -> fail"
    | .notRun => "did not run (" ++ String.intercalate ", " (row.headExits.map codeText) ++ ")"
  let base := match row.baseExit with
    | none => "no base exit"
    | some code => "base exit " ++ toString code
  "- " ++ row.id ++ " (" ++ row.kind ++ "): " ++ said ++ "; " ++ base

/-- `_shown` -/
def shownLines (failure : VisibleFailure) : List String :=
  ("  argv: " ++ shlexJoin failure.argv) :: failure.tail.map ("  | " ++ ·)

/-- `rejected_lines` -/
def rejectedLines (record : HeadRecord) : List String :=
  record.dispute.rejected.map fun reason => "- dispute rejected: " ++ reason

/-- A check the engineer disputes, with what it ran and printed. -/
def disputedLines (record : HeadRecord) (entry : Accepted) : List String :=
  ("- the engineer disputes " ++ entry.id ++ ": " ++ entry.cause) ::
    match record.visibleFailures.find? fun failure => failure.id = entry.id with
    | some failure => shownLines failure
    | none => []

def designedStopLines (record : HeadRecord) : List String :=
  if record.writtenBy = "designer" ∧ ∃ row ∈ record.checks, row.verdict ≠ .pass then
    designedStopLine :: record.visibleFailures.flatMap fun failure =>
      if failure.id ∈ record.dispute.accepted.map Accepted.id then []
      else ("- " ++ failure.id ++ ":") :: shownLines failure
  else []

/-- `stop_lines` -/
def stopLines (record : HeadRecord) : List String :=
  record.dispute.accepted.flatMap (disputedLines record) ++ designedStopLines record

def overrideLines (record : HeadRecord) : List String :=
  match record.override with
  | none => []
  | some o =>
      let failing := (record.checks.filter fun row => row.verdict ≠ .pass).map Row.id
      ["- merged over the failing checks " ++ String.intercalate ", " failing ++ " by inbox approval " ++
        String.ofList (o.item.toList.take 8) ++ " (" ++ o.decidedBy ++ " at " ++ o.decidedAt ++ ")"]

/-- The isolation a record ran its checks under. -/
def testIsolation (replay : Replay) : String := (replay.isolation.lookup testZone).getD hostLabel

/-- `render_lines` -/
def renderLines (record : HeadRecord) : List String :=
  let base := if record.base = "" then "" else ", " ++ record.base
  let stopped := if record.replay.error ≠ "" then record.replay.error else record.replay.detail
  ["Acceptance for " ++ record.component ++ ", attempt " ++ toString record.attempt ++ ": plan " ++
      short record.planId ++ ", head " ++ short record.headSha ++ base ++ "; " ++ testIsolation record.replay] ++
    (if record.writtenBy = "designer" then [designedLine] else []) ++
    [engineerLine record.engineerSandbox] ++
    (if record.replay.error ≠ "" ∨ record.replay.failed ≠ "" then ["- the head replay stopped: " ++ stopped] else []) ++
    (record.checks.map fun row => rowLine row record.headRuns) ++
    stopLines record ++ rejectedLines record ++ overrideLines record

/-- What a retry tells of a visible check that did not pass. -/
def visibleLines (record : HeadRecord) (check : Check) : List String :=
  ["  criterion: " ++ check.criterion, "  command: " ++ shlexJoin check.argv] ++
    match record.visibleFailures.find? fun failure => failure.id = check.id with
    | some failure => failure.tail.map ("  | " ++ ·)
    | none => []

/-- What a retry tells of one check. -/
def toldRow (record : HeadRecord) (checks : List Check) (row : Row) : List String :=
  if row.verdict = .pass then []
  else rowLine row record.headRuns ::
    match checks.find? fun check => !check.heldOut ∧ check.id = row.id with
    | some check => visibleLines record check
    | none => []

/-- `told_lines` -/
def toldLines (record : HeadRecord) (checks : List Check) : List String :=
  (if record.replay.failed ≠ "" then ["- the head replay stopped: " ++ record.replay.detail] else []) ++
    record.checks.flatMap (toldRow record checks) ++ rejectedLines record

/-- **Of a held-out check a retry is told its row line alone**: its id, its exits and its base exit. -/
theorem told_heldOut {e : Evaluation} {check : Check} (hcheck : check ∈ e.part.checks) (hheld : check.heldOut = true)
    (record : HeadRecord) : toldRow record e.part.checks (e.row check) =
      if (e.row check).verdict = .pass then [] else [rowLine (e.row check) record.headRuns] := by
  have hnone : (e.part.checks.find? fun c => !c.heldOut ∧ c.id = (e.row check).id) = none := by
    refine List.find?_eq_none.mpr fun c hc hfound => ?_
    obtain ⟨hvisible, hid⟩ := of_decide_eq_true hfound
    rw [List.inj_on_of_nodup_map e.part.ids_nodup hc hcheck hid, hheld] at hvisible
    cases hvisible
  rw [toldRow, hnone]

end Kstrl.Acceptance
