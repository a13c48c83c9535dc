import Kstrl.Serve.Outcome

/-!
# What an escalated run may print

An architect that escalates a question halts the run with exit 2, and the handler prints the
question, the owner's decision and where the records are
(`kstrl/architect/decompose_audit.py`, `kstrl/cli/cli_factory.py`).  `classify_run` looks for the
last of these in the tail of the output that `run_supervised` kept
(`kstrl/serve/serve_process.py`).

* **`PrintedLate`** is a text that the tail still has: it begins in the last 8000 characters.
* **`escalation_verdict_iff`** is what the classifier makes of two outputs of one run: the verdicts
  agree exactly when the same one of the two markers decides both.
* **`question_turns_escalation_into_retry`** is a question that names the lock option.
-/

namespace Kstrl

/-! ## What the run prints -/

/-- A question of the architect, with what the owner has to decide. -/
structure SpecDecision where
  question : String
  resolution : String

/-- Raised when the architect escalated at least one question. -/
structure SpecBlockerError where
  escalations : List SpecDecision
  artifactPath : Option String := none
  decisionsPath : Option String := none

namespace SpecBlockerError

/-- `str(exc)`. -/
def message (e : SpecBlockerError) : String :=
  "Architect escalated; the owner must answer before re-running:\n" ++
    String.intercalate "\n" (e.escalations.map fun d =>
      "- " ++ d.question ++ "\n  owner must decide: " ++ d.resolution)

/-- Where the operator should go to answer, one line per record. -/
def artifactLines (e : SpecBlockerError) : List String :=
  (e.artifactPath.elim [] fun path => ["Spec issues written to: " ++ path]) ++
    e.decisionsPath.elim [] fun path => ["Architect decisions written to: " ++ path]

/-- What the handler prints before it exits with 2. -/
def printed (e : SpecBlockerError) : String :=
  String.intercalate "\n" (e.message :: e.artifactLines)

end SpecBlockerError

/-- `OUTPUT_TAIL_CHARS`. -/
def outputTailChars : ℕ := 8000

/-- `_tail`. -/
def tailOf (output : String) : String := lastChars outputTailChars output

/-- A run that came to its end with exit 2, as `run_supervised` returns it. -/
def exitedTwo (output : String) : RunOutcome where
  returncode := 2
  outputTail := tailOf output

/-! ## Which texts the tail keeps -/

/-- The text `needle` is printed within the last characters of an output. -/
def PrintedLate (needle output : String) : Prop :=
  ∃ pre post : List Char, output.toList = pre ++ (needle.toList ++ post) ∧
    (needle.toList ++ post).length ≤ outputTailChars

lemma contains_tailOf_iff {needle output : String} :
    PyText.contains (tailOf output) needle = true ↔ PrintedLate needle output := by
  unfold PyText.contains tailOf lastChars
  rw [PyText.isInfix_iff, String.toList_ofList]
  set cut := output.toList.length - outputTailChars with hcut
  constructor
  · rintro ⟨a, b, hab⟩
    refine ⟨output.toList.take cut ++ a, b, ?_, ?_⟩
    · rw [List.append_assoc, ← List.append_assoc a, hab, List.take_append_drop]
    · have hlen := congrArg List.length hab
      simp only [List.length_append, List.length_drop] at hlen ⊢
      omega
  · rintro ⟨pre, post, hout, hlen⟩
    have hpre : cut ≤ pre.length := by
      have := congrArg List.length hout
      simp only [List.length_append] at this hlen
      omega
    rw [hout, List.drop_append_of_le_length hpre]
    exact ⟨pre.drop cut, post, by rw [List.append_assoc]⟩

/-- A short output is all tail. -/
lemma printedLate_of_short {needle output : String} (h : output.toList.length ≤ outputTailChars) :
    PrintedLate needle output ↔ PyText.contains output needle = true := by
  rw [← contains_tailOf_iff, tailOf, lastChars, Nat.sub_eq_zero_of_le h, List.drop_zero,
    String.ofList_toList]

instance (needle output : String) : Decidable (PrintedLate needle output) :=
  decidable_of_iff _ contains_tailOf_iff

/-! ## The verdict -/

variable {art : Artifacts}

/-- An exit 2 whose run recorded neither a blown ceiling nor a refused base. -/
lemma classifyRun_exitedTwo {output : String} {manifestPath : Option String} {ids : List String}
    (hhalt : ¬ HaltRecorded art ids) (hred : ¬ RedBaseRecorded art ids) :
    (classifyRun art (exitedTwo output) manifestPath ids).verdict =
      if PrintedLate lockRefusalMarker output then .retryInfra
      else if PrintedLate specBlockerMarker output then .awaitingAnswer
      else .unclassifiable := by
  have hnone : redBaseOutcome art ids = none := by
    rwa [← redBaseOutcome_isSome_iff, Option.not_isSome_iff_eq_none] at hred
  have hevent : budgetHaltReason art ids = "" := by
    rwa [← budgetHaltReason_ne_iff, not_not] at hhalt
  have hrefusal : classifyRun art (exitedTwo output) manifestPath ids
      = refusalOutcome art (tailOf output) ids := by
    simp [classifyRun, exitedTwo, hevent]
  rw [hrefusal, refusalOutcome, hnone]
  simp only [contains_tailOf_iff]
  split_ifs <;> rfl

/-- A blown ceiling or a refused base decides without the output. -/
lemma classifyRun_exitedTwo_congr {output output' : String} {manifestPath : Option String}
    {ids : List String} (h : HaltRecorded art ids ∨ RedBaseRecorded art ids) :
    (classifyRun art (exitedTwo output) manifestPath ids).verdict
      = (classifyRun art (exitedTwo output') manifestPath ids).verdict := by
  by_cases hhalt : budgetHaltReason art ids = ""
  swap
  · simp [classifyRun, exitedTwo, hhalt]
  rw [← budgetHaltReason_ne_iff, or_iff_right (not_not.mpr hhalt), ← redBaseOutcome_isSome_iff,
    Option.isSome_iff_exists] at h
  obtain ⟨o, hred⟩ := h
  simp [classifyRun, exitedTwo, hhalt, refusalOutcome, hred]

/-- The same one of the two texts decides two outputs. -/
def SameMarker (output output' : String) : Prop :=
  (PrintedLate lockRefusalMarker output ↔ PrintedLate lockRefusalMarker output') ∧
    (¬ PrintedLate lockRefusalMarker output →
      (PrintedLate specBlockerMarker output ↔ PrintedLate specBlockerMarker output'))

/-- **What else an escalated run printed.**  Two outputs of a run that exits with 2 get one verdict if
    and only if the run recorded a blown ceiling or a refused base, or the same text decides both: the
    lock option where it is printed late, else the line of the spec issues where that is. -/
theorem escalation_verdict_iff (art : Artifacts) (output output' : String)
    (manifestPath : Option String) (ids : List String) :
    (classifyRun art (exitedTwo output) manifestPath ids).verdict
        = (classifyRun art (exitedTwo output') manifestPath ids).verdict ↔
      HaltRecorded art ids ∨ RedBaseRecorded art ids ∨ SameMarker output output' := by
  rw [← or_assoc]
  by_cases hrecord : HaltRecorded art ids ∨ RedBaseRecorded art ids
  · exact iff_of_true (classifyRun_exitedTwo_congr hrecord) (Or.inl hrecord)
  obtain ⟨hhalt, hred⟩ := not_or.mp hrecord
  rw [classifyRun_exitedTwo hhalt hred, classifyRun_exitedTwo hhalt hred, or_iff_right hrecord]
  unfold SameMarker
  by_cases hlock : PrintedLate lockRefusalMarker output <;>
    by_cases hlock' : PrintedLate lockRefusalMarker output'
  · simp [hlock, hlock']
  · simp only [hlock, hlock', if_true, if_false]
    split_ifs <;> simp
  · simp only [hlock, hlock', if_true, if_false]
    split_ifs <;> simp
  · by_cases hspec : PrintedLate specBlockerMarker output <;>
      by_cases hspec' : PrintedLate specBlockerMarker output' <;>
      simp [hlock, hlock', hspec, hspec']

/-! ### A question that names the lock option -/

def quietArtifacts : Artifacts where
  readRunDir _ := some []
  baseGates _ := none
  baseGatesPath runId := ".kstrl/runs/" ++ runId ++ "/base-gates.json"
  loadManifest _ := .error "No such file or directory"

/-- The architect escalates one question. -/
def escalation (question : String) : SpecBlockerError where
  escalations := [⟨question, "keep it or drop it"⟩]
  artifactPath := some "spec-issues.json"

lemma toList_escalation (question : String) :
    (escalation question).printed.toList =
      ("Architect escalated; the owner must answer before re-running:\n".toList ++
        ("- ".toList ++ question.toList ++ "\n  owner must decide: ".toList ++
          "keep it or drop it".toList)) ++ "\n".toList ++
      ("Spec issues written to: ".toList ++ "spec-issues.json".toList) := by
  have h : (escalation question).printed =
      ("Architect escalated; the owner must answer before re-running:\n" ++
        ("- " ++ question ++ "\n  owner must decide: " ++ "keep it or drop it")) ++ "\n" ++
      ("Spec issues written to: " ++ "spec-issues.json") := rfl
  rw [h]
  simp only [String.toList_append]

lemma escalation_spec (question : String) :
    PyText.contains (escalation question).printed specBlockerMarker = true := by
  have hline : specBlockerMarker.toList <+: "Spec issues written to: ".toList := by decide
  rw [PyText.contains, PyText.isInfix_iff, toList_escalation]
  exact (hline.trans (List.prefix_append _ _)).isInfix.trans (List.suffix_append _ _).isInfix

/-- A question of at most a hundred characters is printed late. -/
lemma escalation_lock_iff {question : String} (h : question.toList.length ≤ 100) :
    PrintedLate lockRefusalMarker (escalation question).printed ↔
      PyText.isInfix lockRefusalMarker.toList (escalation question).printed.toList = true := by
  refine printedLate_of_short ?_
  rw [toList_escalation]
  simp only [List.length_append]
  have hpieces : ("Architect escalated; the owner must answer before re-running:\n".toList.length,
      "- ".toList.length, "\n  owner must decide: ".toList.length, "keep it or drop it".toList.length,
      "\n".toList.length, "Spec issues written to: ".toList.length,
      "spec-issues.json".toList.length) = (62, 2, 22, 18, 1, 24, 16) := by decide
  simp only [Prod.mk.injEq] at hpieces
  obtain ⟨h1, h2, h3, h4, h5, h6, h7⟩ := hpieces
  rw [h1, h2, h3, h4, h5, h6, h7, outputTailChars]
  omega

/-- **A spec turns an escalation into a retry.**  Both runs printed the line of the spec issues; the
    question of the second names `--force-lock`. -/
theorem question_turns_escalation_into_retry :
    ¬ ∀ (art : Artifacts) (output output' : String) (manifestPath : Option String)
      (ids : List String), ¬ RedBaseRecorded art ids →
      PyText.contains output specBlockerMarker = true →
      PyText.contains output' specBlockerMarker = true →
      (classifyRun art (exitedTwo output) manifestPath ids).verdict
        = (classifyRun art (exitedTwo output') manifestPath ids).verdict := by
  intro hall
  have hhalt : ¬ HaltRecorded quietArtifacts ["factory-1"] := by
    rintro ⟨_, _, _, events, hread, _, _, hmem⟩
    cases hread
    cases hmem
  have hred : ¬ RedBaseRecorded quietArtifacts ["factory-1"] := by
    rintro ⟨_, _, _, record, hrec, _⟩
    cases hrec
  have h := hall quietArtifacts (escalation "What does --all do?").printed
    (escalation "What does --force-lock do?").printed none ["factory-1"] hred
    (escalation_spec _) (escalation_spec _)
  have hlock : PrintedLate lockRefusalMarker (escalation "What does --force-lock do?").printed := by
    rw [escalation_lock_iff (by decide), toList_escalation]
    decide +kernel
  have hnot : ¬ PrintedLate lockRefusalMarker (escalation "What does --all do?").printed := by
    rw [escalation_lock_iff (by decide), toList_escalation]
    decide +kernel
  rw [classifyRun_exitedTwo hhalt hred, classifyRun_exitedTwo hhalt hred, if_pos hlock,
    if_neg hnot] at h
  split_ifs at h

end Kstrl
