import Kstrl.Base.Json
import Kstrl.Base.LatestLog
import Kstrl.Base.PyText
import Kstrl.Base.SortedSet
import Mathlib.Data.String.Basic

/-!
# Component PRDs

The stories of a component (`kstrl/plan/prd.py`), and what an engineer may not change of them.

* **`tamperChanges_eq_nil`**: two PRDs of one branch whose stories agree in all that is pinned have no change.
-/

namespace Kstrl

/-- A single user story. -/
structure UserStory where
  id : String
  title : String
  acceptanceCriteria : List String
  priority : ℤ
  passes : Bool
  notes : String
  deriving DecidableEq, Repr

/-- Product Requirements Document. -/
structure Prd where
  branchName : String
  userStories : List UserStory
  allowedPaths : Option (List String) := none
  specIssues : Option (List Json) := none

namespace UserStory

/-- A story with the fields blanked that an engineer writes. -/
def pinned (s : UserStory) : UserStory := { s with passes := false, notes := "" }

/-- The names of the fields in which two stories differ. -/
def moved (before after : UserStory) : List String :=
  [("id", decide (before.id ≠ after.id)), ("title", decide (before.title ≠ after.title)),
    ("acceptance_criteria", decide (before.acceptanceCriteria ≠ after.acceptanceCriteria)),
    ("priority", decide (before.priority ≠ after.priority)), ("passes", decide (before.passes ≠ after.passes)),
    ("notes", decide (before.notes ≠ after.notes))].filterMap fun (name, differs) => if differs then some name else none

lemma moved_self (s : UserStory) : s.moved s = [] := by simp [moved]

end UserStory

namespace Prd

/-- The stories by id; of two stories of one id the later counts. -/
def pinnedStories (prd : Prd) : List UserStory := LatestLog.latest UserStory.id (prd.userStories.map UserStory.pinned)

/-- The ids of some stories, sorted. -/
def storyIds (stories : List UserStory) : List String := (SortedSet.ofList (stories.map UserStory.id)).toList

/-- `', '.join(ids) or '(none)'` -/
def idsText (ids : List String) : String := if ids = [] then "(none)" else String.intercalate ", " ids

/-- The clause for a story of both sides. -/
def storyChange (before after : List UserStory) (id : String) : Option String :=
  match before.find? (·.id = id), after.find? (·.id = id) with
  | some b, some a =>
      if b.moved a = [] then none
      else some ("rewrote " ++ String.intercalate ", " (b.moved a) ++ " on story " ++ id)
  | _, _ => none

/-- How a PRD differs from the one before the run in ways no engineer may. -/
def tamperChanges (prd preRun : Prd) : List String :=
  let before := preRun.pinnedStories
  let after := prd.pinnedStories
  let branch :=
    if preRun.branchName ≠ prd.branchName then
      ["changed branchName from " ++ PyText.repr preRun.branchName ++ " to " ++ PyText.repr prd.branchName]
    else []
  let stories :=
    if storyIds before ≠ storyIds after then
      ["changed the story set from " ++ idsText (storyIds before) ++ " to " ++ idsText (storyIds after)]
    else (storyIds before).filterMap (storyChange before after)
  branch ++ stories

/-- A story is no change of itself. -/
lemma storyChange_self (stories : List UserStory) (id : String) : storyChange stories stories id = none := by
  rw [storyChange]
  cases stories.find? (·.id = id) with
  | none => rfl
  | some s => simp only [UserStory.moved_self, if_true]

/-- **Stories that agree in what is pinned are no change.** -/
lemma tamperChanges_eq_nil {prd preRun : Prd} (hbranch : preRun.branchName = prd.branchName)
    (hstories : preRun.userStories.map UserStory.pinned = prd.userStories.map UserStory.pinned) :
    prd.tamperChanges preRun = [] := by
  have hsame : preRun.pinnedStories = prd.pinnedStories := congrArg (LatestLog.latest UserStory.id) hstories
  rw [tamperChanges]
  simp only [hbranch, hsame, ne_eq, not_true_eq_false, if_false, List.nil_append]
  exact List.filterMap_eq_nil_iff.mpr fun id _ => storyChange_self _ id

end Prd

end Kstrl
