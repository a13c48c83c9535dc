import Kstrl.Plan.ManifestFile

/-!
# The second-opinion review

`parse_review_output`, `apply_coverage_check` and `run_review` (`kstrl/review/review.py`), with the reported diffstat
of `kstrl/git/git_diff.py`.

What `extract_json` finds in a reply is a parameter, `none` standing for its `ValueError`; so is the name of the file
the raw reply is dumped to.

* **`runReview_passes`**: what a hard review that passed has read, and what was left out of it.
-/

namespace Kstrl.Review

/-! ## The reported diffstat -/

/-- The shape of a change, as `git diff --numstat` reports it. -/
structure DiffStat where
  files : ℤ
  insertions : ℤ
  deletions : ℤ
  deriving DecidableEq, Repr

def DiffStat.render (d : DiffStat) : String :=
  toString d.files ++ " files, +" ++ toString d.insertions ++ "/-" ++ toString d.deletions

/-- A count that is an integer and not negative. -/
def observedCount : Json → Option ℤ
  | .int n => if n < 0 then none else some n
  | _ => none

def parseObservedDiffstat (value : Json) : Option DiffStat := do
  let files ← observedCount (value.field "files")
  let insertions ← observedCount (value.field "insertions")
  let deletions ← observedCount (value.field "deletions")
  pure ⟨files, insertions, deletions⟩

/-- How a reviewer's reported diffstat disagrees with git's. -/
def diffstatDisagreement (claimed : Option DiffStat) (actual : DiffStat) : Option String :=
  match claimed with
  | none => some "the reviewer reported no diffstat, so nothing says it read the change"
  | some stat =>
      if stat = actual then none
      else some ("the reviewer reports it reviewed " ++ stat.render ++ " but git reports " ++ actual.render ++
        " for this change")

def coverageSuggestion : String :=
  "Check that the reviewer can run git in the worktree and is reading the same base ref the harness measures against."

def coverageMarkerText (label disagreement : String) : String :=
  "Unverified " ++ label ++ " coverage (#266): " ++ disagreement ++ ". The findings below may not cover the whole " ++
    "change."

def coverageNotesPrefix (label disagreement : String) : String :=
  "Hard-mode " ++ label ++ " coverage unverified: " ++ disagreement ++ " (#266)."

/-! ## Results -/

inductive ReviewMode where
  | hard
  | advisory
  | skip
  deriving DecidableEq, Repr

def validConcernCategories : List String :=
  ["scope_creep", "security_concern", "test_quality", "test_weakening", "unrelated_change", "dead_code",
    "error_handling", "copy_paste", "other"]

def validConcernSeverities : List String := ["fail", "advisory"]

def validCriterionVerdicts : List String := ["pass", "fail", "advisory"]

/-- The comparison form of a story id. -/
def normalizeStoryId (value : String) : String := PyText.lower (PyText.strip value)

/-- Review verdict for a single acceptance criterion. -/
structure CriterionReview where
  criterion : String
  verdict : String
  explanation : String
  suggestion : String := ""
  storyId : String := ""
  deriving DecidableEq, Repr

/-- A cross-cutting concern beyond the criteria. -/
structure ReviewConcern where
  category : String
  severity : String
  location : String
  explanation : String
  suggestion : String := ""
  deriving DecidableEq, Repr

/-- Aggregated review result across all stories. -/
structure ReviewResult where
  passed : Bool
  mode : Option ReviewMode := none
  criteria : List CriterionReview := []
  concerns : List ReviewConcern := []
  overallNotes : String := ""
  rawOutput : String := ""
  exhaustivelySearched : Bool := false
  infrastructureError : Bool := false
  observedDiffstat : Option DiffStat := none
  diffstatDisagreement : String := ""
  reviewerModel : String := ""
  droppedConcerns : ℕ := 0
  concernsNotList : Bool := false
  deriving DecidableEq, Repr

/-! ## Parsing a reply -/

/-- Whether a value is an object. -/
def isObject : Json → Bool
  | .obj _ => true
  | _ => false

/-- The entries of the criteria arrays, each with the id of its story; what is no object is left out. -/
def criterionEntries (stories : List Json) : List (String × Json) :=
  stories.flatMap fun story =>
    ((story.arrOf "criteria").filter isObject).map fun entry => (PyText.strip (textOf story "storyId"), entry)

/-- The verdict of an entry, as it is compared. -/
def verdictOf (entry : Json) : String := PyText.lower (PyText.strip (textOf entry "verdict"))

def readCriterion (storyId : String) (entry : Json) : CriterionReview where
  criterion := textOf entry "criterion"
  verdict := verdictOf entry
  explanation := textOf entry "explanation"
  suggestion := textOf entry "suggestion"
  storyId := storyId

/-- `str(verdict)[:40] or "<missing>"` -/
def shownVerdict (entry : Json) : String :=
  if textOf entry "verdict" = "" then "<missing>" else String.ofList ((textOf entry "verdict").toList.take 40)

/-- The fields of a concern. -/
def concernOf (entry : Json) : ReviewConcern where
  category := PyText.strip (textOf entry "category")
  severity := PyText.strip (textOf entry "severity")
  location := PyText.strip (textOf entry "location")
  explanation := PyText.strip (textOf entry "explanation")
  suggestion := textOf entry "suggestion"

/-- The concern of an entry; none for one that is malformed. -/
def readConcern (entry : Json) : Option ReviewConcern :=
  if !isObject entry then none
  else if (concernOf entry).category ∉ validConcernCategories then none
  else if (concernOf entry).severity ∉ validConcernSeverities then none
  else if (concernOf entry).explanation = "" then none
  else some (concernOf entry)

section Parse

variable (extractJson : String → Option Json) (dumped : String → Option String)

/-- `text[:2000]` -/
def rawExcerpt (rawOutput : String) : String := String.ofList (rawOutput.toList.take 2000)

/-- The result of a review that did not happen. -/
def infra (rawOutput notes label : String) : ReviewResult where
  passed := false
  overallNotes := match dumped label with
    | some path => notes ++ " [full raw output: " ++ path ++ "]"
    | none => notes
  rawOutput := rawExcerpt rawOutput
  infrastructureError := true

/-- The ids no entry with an accepted verdict covers. -/
def uncovered (entries : List (String × Json)) (expected : List String) : List String :=
  expected.filter fun id => normalizeStoryId id ∉
    ((entries.filter fun e => verdictOf e.2 ∈ validCriterionVerdicts ∧ e.1 ≠ "").map fun e => normalizeStoryId e.1)

/-- The result of a reply whose verdicts are accepted and cover the stories. -/
def readReview (data : Json) (rawOutput : String) (entries : List (String × Json)) : ReviewResult :=
  let criteria := entries.map fun e => readCriterion e.1 e.2
  let concerns := (data.arrOf "concerns").filterMap readConcern
  { passed := !(criteria.any (·.verdict = "fail") || concerns.any (·.severity = "fail"))
    criteria := criteria
    concerns := concerns
    exhaustivelySearched := ((data.get? "exhaustively_searched").map isTruthy).getD false
    observedDiffstat := parseObservedDiffstat (data.field "observedDiffstat")
    overallNotes := textOf data "overallNotes"
    rawOutput := rawExcerpt rawOutput
    droppedConcerns := (data.arrOf "concerns").countP fun entry => (readConcern entry).isNone
    concernsNotList := !((data.field "concerns") matches .arr _) }

/-- The entries whose verdict is none of the accepted ones. -/
def invalidVerdicts (entries : List (String × Json)) : List (String × Json) :=
  entries.filter fun e => verdictOf e.2 ∉ validCriterionVerdicts

/-- The result of a reply with these entries. -/
def judgeEntries (data : Json) (rawOutput : String) (entries : List (String × Json)) (expected : List String) :
    ReviewResult :=
  if invalidVerdicts entries ≠ [] then
    infra dumped rawOutput ("Review output contained unrecognized verdicts: " ++
      String.intercalate ", " ((invalidVerdicts entries).map fun e => PyText.repr (shownVerdict e.2)) ++
      " (valid: pass/fail/advisory)") "invalid_verdict"
  else if uncovered entries expected ≠ [] then
    infra dumped rawOutput ("Review coverage incomplete: no verdict for story ids " ++
      String.intercalate ", " (uncovered entries expected) ++
      " (CRIT-5: a partial or empty review cannot pass)") "coverage_gap"
  else readReview data rawOutput entries

def parseReviewOutput (rawOutput : String) (expected : List String) : ReviewResult :=
  match extractJson rawOutput with
  | none => infra dumped rawOutput "Failed to parse reviewer output as JSON" "no_json"
  | some (.obj fields) =>
      match ((Json.obj fields).get? "stories").getD (.arr []) with
      | .arr stories => judgeEntries dumped (.obj fields) rawOutput (criterionEntries stories) expected
      | _ => infra dumped rawOutput "Invalid review output: 'stories' is not an array" "stories_not_array"
  | some data =>
      infra dumped rawOutput ("Review output was not a JSON object (got " ++ data.typeName ++ ")") "non_dict_json"

/-! ## Running a review -/

/-- The concern that keeps a disagreement visible. -/
def coverageMarker (disagreement : String) : ReviewConcern where
  category := "other"
  severity := "advisory"
  location := ""
  explanation := coverageMarkerText "review" disagreement
  suggestion := coverageSuggestion

/-- A result with the disagreement on it. -/
def markDisagreement (result : ReviewResult) (disagreement : String) : ReviewResult :=
  { result with
    diffstatDisagreement := disagreement
    concerns := result.concerns ++ [coverageMarker disagreement] }

/-- A hard review that nothing says has read the change. -/
def refuseCoverage (result : ReviewResult) (disagreement : String) : ReviewResult :=
  { markDisagreement result disagreement with
    passed := false
    infrastructureError := true
    overallNotes := PyText.strip (coverageNotesPrefix "review" disagreement ++ " " ++ result.overallNotes) }

def applyCoverageCheck (result : ReviewResult) (actual : DiffStat) (mode : ReviewMode) : ReviewResult :=
  if result.infrastructureError then result
  else
    match diffstatDisagreement result.observedDiffstat actual with
    | none => result
    | some disagreement =>
        if mode = .hard then refuseCoverage result disagreement else markDisagreement result disagreement

/-- What calling the reviewer came to. -/
inductive ReviewCall where
  | tooLarge (why : String)
  /-- the agent failed, or the change or the PRD could not be read -/
  | failed (why : String)
  /-- a reply, with the story ids of the PRD and the diffstat git measured -/
  | replied (rawOutput : String) (expected : List String) (actual : DiffStat)

/-- Advisory mode downgrades every failure. -/
def downgrade (result : ReviewResult) : ReviewResult :=
  { result with
    criteria := result.criteria.map fun c => if c.verdict = "fail" then { c with verdict := "advisory" } else c
    concerns := result.concerns.map fun c => if c.severity = "fail" then { c with severity := "advisory" } else c
    passed := true }

def runReview (mode : ReviewMode) (reviewerModel : String) (call : ReviewCall) : ReviewResult :=
  if mode = .skip then { passed := true, mode := some mode }
  else
    match call with
    | .tooLarge why =>
        { passed := mode ≠ .hard, mode := some mode, overallNotes := "Reviewer agent output too large: " ++ why,
          infrastructureError := true, reviewerModel }
    | .failed why =>
        { passed := mode ≠ .hard, mode := some mode, overallNotes := "Reviewer agent failed: " ++ why,
          infrastructureError := true, reviewerModel }
    | .replied rawOutput expected actual =>
        let parsed :=
          { parseReviewOutput extractJson dumped rawOutput expected with
            mode := some mode
            reviewerModel := reviewerModel }
        let checked := applyCoverageCheck parsed actual mode
        if mode = .advisory then downgrade checked else checked

/-! ## What a passing hard review has read -/

/-- A concern that states a failure as the prompt asks for it: a known category, the severity, an explanation. -/
structure StatesFail (entry : Json) : Prop where
  object : isObject entry = true
  category : (concernOf entry).category ∈ validConcernCategories
  severity : (concernOf entry).severity = "fail"
  explanation : (concernOf entry).explanation ≠ ""

/-- What a hard review that passed has read of its reply. -/
structure Passes (data : Json) (stories : List Json) (expected : List String) (result : ReviewResult) : Prop where
  /-- every expected story has an accepted verdict -/
  covered : ∀ id ∈ expected, ∃ e ∈ criterionEntries stories,
    verdictOf e.2 ∈ validCriterionVerdicts ∧ normalizeStoryId e.1 = normalizeStoryId id
  /-- every verdict is accepted and none is a failure -/
  verdicts : ∀ e ∈ criterionEntries stories, verdictOf e.2 ∈ validCriterionVerdicts ∧ verdictOf e.2 ≠ "fail"
  /-- no concern states a failure as the prompt asks for it -/
  concerns : ∀ entry ∈ data.arrOf "concerns", ¬ StatesFail entry
  /-- every concern that is kept is on the result, the others are counted there -/
  kept : result.concerns = (data.arrOf "concerns").filterMap readConcern
  counted : result.droppedConcerns = (data.arrOf "concerns").countP fun entry => (readConcern entry).isNone

lemma readConcern_of_statesFail {entry : Json} (h : StatesFail entry) : readConcern entry = some (concernOf entry) := by
  have hvalid : (concernOf entry).severity ∈ validConcernSeverities := by
    rw [h.severity]
    decide
  rw [readConcern, if_neg (by simp [h.object]), if_neg (not_not.mpr h.category), if_neg (not_not.mpr hvalid),
    if_neg h.explanation]

lemma judgeEntries_passes {data : Json} {rawOutput : String} {stories : List Json} {expected : List String}
    (h : (judgeEntries dumped data rawOutput (criterionEntries stories) expected).passed = true) :
    Passes data stories expected (judgeEntries dumped data rawOutput (criterionEntries stories) expected) := by
  unfold judgeEntries at h ⊢
  split_ifs at h ⊢ with hinvalid hcovered
  · cases h
  · cases h
  · rw [not_not] at hinvalid hcovered
    have haccepted (e) (he : e ∈ criterionEntries stories) : verdictOf e.2 ∈ validCriterionVerdicts := by
      have hnot := List.filter_eq_nil_iff.mp hinvalid e he
      rwa [decide_eq_true_eq, not_not] at hnot
    simp only [readReview, Bool.not_eq_true', Bool.or_eq_false_iff, List.any_eq_false, decide_eq_true_eq] at h
    refine ⟨?_, ?_, ?_, rfl, rfl⟩
    · intro id hid
      have hnot := List.filter_eq_nil_iff.mp hcovered id hid
      rw [decide_eq_true_eq, not_not, List.mem_map] at hnot
      obtain ⟨e, he, heq⟩ := hnot
      exact ⟨e, List.mem_of_mem_filter he, haccepted e (List.mem_of_mem_filter he), heq⟩
    · intro e he
      have hnofail := h.1 (readCriterion e.1 e.2) (List.mem_map.mpr ⟨e, he, rfl⟩)
      exact ⟨haccepted e he, hnofail⟩
    · intro entry hentry hfail
      exact h.2 _ (List.mem_filterMap.mpr ⟨entry, hentry, readConcern_of_statesFail hfail⟩) hfail.severity

/-- What a parsed reply that passes was. -/
lemma parseReviewOutput_passes {rawOutput : String} {expected : List String}
    (h : (parseReviewOutput extractJson dumped rawOutput expected).passed = true) :
    ∃ fields stories, extractJson rawOutput = some (.obj fields) ∧
      ((Json.obj fields).get? "stories").getD (.arr []) = .arr stories ∧
      Passes (.obj fields) stories expected (parseReviewOutput extractJson dumped rawOutput expected) := by
  unfold parseReviewOutput at h ⊢
  split at h
  · cases h
  · rename_i fields hfields
    split at h
    · rename_i stories hstories
      exact ⟨fields, stories, hfields, hstories, judgeEntries_passes dumped h⟩
    · cases h
  · cases h

lemma diffstatDisagreement_eq_none {claimed : Option DiffStat} {actual : DiffStat} :
    diffstatDisagreement claimed actual = none ↔ claimed = some actual := by
  cases claimed with
  | none => simp [diffstatDisagreement]
  | some stat => by_cases h : stat = actual <;> simp [diffstatDisagreement, h]

lemma applyCoverageCheck_passed {result : ReviewResult} {actual : DiffStat}
    (h : (applyCoverageCheck result actual .hard).passed = true) :
    result.passed = true ∧ (result.infrastructureError = true ∨ result.observedDiffstat = some actual) ∧
      applyCoverageCheck result actual .hard = result := by
  by_cases hinfra : result.infrastructureError = true
  · rw [applyCoverageCheck, if_pos hinfra] at h ⊢
    exact ⟨h, Or.inl hinfra, rfl⟩
  · rw [applyCoverageCheck, if_neg hinfra] at h ⊢
    cases hagree : diffstatDisagreement result.observedDiffstat actual with
    | none =>
        simp only [hagree] at h ⊢
        exact ⟨h, Or.inr (diffstatDisagreement_eq_none.mp hagree), trivial⟩
    | some disagreement =>
        simp only [hagree, if_true] at h
        cases h

/-- **What a hard review that passed has read.** -/
theorem runReview_passes {reviewerModel : String} {call : ReviewCall}
    (h : (runReview extractJson dumped .hard reviewerModel call).passed = true) :
    ∃ rawOutput expected actual fields stories, call = .replied rawOutput expected actual ∧
      extractJson rawOutput = some (.obj fields) ∧
      ((Json.obj fields).get? "stories").getD (.arr []) = .arr stories ∧
      Passes (.obj fields) stories expected (runReview extractJson dumped .hard reviewerModel call) := by
  cases call with
  | tooLarge why => simp [runReview] at h
  | failed why => simp [runReview] at h
  | replied rawOutput expected actual =>
      simp only [runReview, reduceCtorEq, if_false] at h ⊢
      obtain ⟨hpassed, -, hsame⟩ := applyCoverageCheck_passed h
      obtain ⟨fields, stories, hextract, hstories, hpasses⟩ := parseReviewOutput_passes extractJson dumped hpassed
      rw [hsame]
      exact ⟨rawOutput, expected, actual, fields, stories, rfl, hextract, hstories, hpasses.covered,
        hpasses.verdicts, hpasses.concerns, hpasses.kept, hpasses.counted⟩

end Parse

end Kstrl.Review
