import Kstrl.Acceptance.HeadRecord

/-!
# The checks that Phase 3 replays

`replay_merged` and `_failing_lines` of `kstrl/acceptance/acceptance_carried.py`: the checks of the merged components
and the carried ones run on the merged commit, and what did not pass is printed.

* **`replayMerged_passed`**: Phase 3 passes when every check it wanted passed.
-/

namespace Kstrl.Acceptance

def labelPrefix : String := "carried:"

/-- One carried check, with its plan copy. -/
structure Carried where
  plan : PinnedPlan
  component : String
  check : Check

/-- A check that Phase 3 wants to run; a carried one with the digest of its plan. -/
structure Wanted where
  digest : Option String := none
  component : String
  check : Check
  deriving DecidableEq, Repr

/-- The label a check runs under: a carried one names its plan by twelve characters of the digest. -/
def Wanted.label (wanted : Wanted) : String :=
  match wanted.digest with
  | none => wanted.component
  | some digest => labelPrefix ++ short digest ++ "/" ++ wanted.component

def Carried.wanted (c : Carried) : Wanted := ⟨some c.plan.digest, c.component, c.check⟩

/-- A check with its stages. -/
structure Item where
  wanted : Wanted
  stages : List Stage
  deriving DecidableEq, Repr

namespace Item

def verdict (item : Item) : Verdict := headVerdict (item.stages.map Stage.exit)

/-- What the last run of a visible check printed. -/
def lastTail (item : Item) : List String :=
  if item.wanted.check.heldOut then [] else ((item.stages.getLast?).map Stage.tail).getD []

/-- What is printed of a check. -/
def lines (item : Item) : List String :=
  if item.verdict = .pass then []
  else ("acceptance:" ++ item.wanted.check.id ++ " (" ++ item.wanted.label ++ "): " ++ item.verdict.value ++ ", exits [" ++
    String.intercalate ", " (item.stages.map fun stage => codeText stage.exit) ++ "]") :: item.lastTail

/-- A held-out check that failed. -/
def heldOutFailed (item : Item) : Bool := item.wanted.check.heldOut ∧ item.verdict = .fail

end Item

def Wanted.item (runs : Runs) (wanted : Wanted) : Item := ⟨wanted, runs.get wanted.label wanted.check.id⟩

/-- `_failing_lines` -/
def failingLines (items : List Item) : List String × List String :=
  (items.flatMap Item.lines, (items.filter Item.heldOutFailed).map fun item => item.wanted.check.id)

/-- `_wanted` -/
def wantedOf (plan : PinnedPlan) (merged : List String) : List Wanted :=
  merged.flatMap fun comp => (plan.checksOf comp).map fun check => ⟨none, comp, check⟩

/-- What the replay of the merged commit says. -/
structure Merged where
  passed : Bool
  lines : List String := []
  heldOut : List String := []
  broken : List Carried := []

def Replay.stoppedLine (record : Replay) : String :=
  if record.error ≠ "" then record.error
  else if record.failed ≠ "" then record.failed ++ ": " ++ record.detail else ""

section Merged

variable (plan : Option PinnedPlan) (merged : List String) (carried : List Carried)

/-- Everything Phase 3 wants to run. -/
def mergedWanted : List Wanted :=
  ((plan.map fun plan => wantedOf plan merged).getD []) ++ carried.map Carried.wanted

/-- The checks as the probe takes them. -/
def mergedChecks : List (String × Check) :=
  (mergedWanted plan merged carried).map fun wanted => (wanted.label, wanted.check)

/-- The verdict on what was replayed. -/
def mergedOf (sha : String) (record : Replay) (runs : Runs) : Merged :=
  let items := (mergedWanted plan merged carried).map (Wanted.item runs)
  if (failingLines items).1 = [] then { passed := true }
  else
    { passed := false
      lines := (if record.stoppedLine = "" then []
        else ["acceptance replay at " ++ short sha ++ " stopped: " ++ record.stoppedLine]) ++ (failingLines items).1
      heldOut := (failingLines items).2
      broken := carried.filter fun c => (c.wanted.item runs).verdict ≠ .pass }

/-- `replay_merged` -/
def replayMerged (w : World) (stack : Option Stack) (cwd sha : String) : Except String Merged :=
  match stack with
  | none => .ok { passed := true }
  | some stack =>
      if mergedWanted plan merged carried = [] then .ok { passed := true }
      else if sha = "" then
        .ok { passed := false, lines := ["acceptance: the commit of " ++ cwd ++ " cannot be read, so no check ran"] }
      else (replayStack w stack sha (some (probe w (mergedChecks plan merged carried) headRuns))).map fun (record, runs) =>
        mergedOf plan merged carried sha record runs

end Merged

lemma lines_eq_nil_iff {item : Item} : item.lines = [] ↔ item.verdict = .pass := by
  unfold Item.lines
  split_ifs with h
  · exact iff_of_true rfl h
  · exact iff_of_false id h

lemma failingLines_eq_nil_iff {items : List Item} :
    (failingLines items).1 = [] ↔ ∀ item ∈ items, item.verdict = .pass := by
  rw [failingLines, List.flatMap_eq_nil_iff]
  exact forall₂_congr fun item _ => lines_eq_nil_iff

/-- **Phase 3 passes** when every check it wanted ran and every run exited 0. -/
theorem replayMerged_passed {w : World} {stack : Stack} {plan : Option PinnedPlan} {merged : List String}
    {carried : List Carried} {cwd sha : String} {result : Merged}
    (h : replayMerged plan merged carried w (some stack) cwd sha = .ok result) (hpassed : result.passed = true)
    (hwanted : mergedWanted plan merged carried ≠ []) :
    ∃ record runs, replayStack w stack sha (some (probe w (mergedChecks plan merged carried) headRuns)) =
        .ok (record, runs) ∧
      ∀ wanted ∈ mergedWanted plan merged carried, (wanted.item runs).stages ≠ [] ∧
        ∀ stage ∈ (wanted.item runs).stages, stage.exit = some 0 := by
  rw [replayMerged, if_neg hwanted] at h
  split_ifs at h
  · cases h
    cases hpassed
  · obtain ⟨⟨record, runs⟩, hreplay, rfl⟩ := Except.map_eq_ok h
    refine ⟨record, runs, hreplay, fun wanted hmem => ?_⟩
    dsimp only [mergedOf] at hpassed
    split_ifs at hpassed with hnil
    · have hpass := failingLines_eq_nil_iff.mp hnil _ (List.mem_map_of_mem hmem)
      obtain ⟨hne, hzero⟩ := headVerdict_eq_pass.mp hpass
      exact ⟨fun hempty => hne (List.map_eq_nil_iff.mpr hempty), List.forall_mem_map.mp hzero⟩

end Kstrl.Acceptance
