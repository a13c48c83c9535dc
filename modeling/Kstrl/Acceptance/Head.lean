import Kstrl.Acceptance.Lines

/-!
# Judging a component head

`judge_head` (`kstrl/acceptance/acceptance.py`): the checks that the base keeps run on the head in one replay, the
record is written, and the outcome says how it went.

* **`judgeHead_sound`**: a component passes when every check that the base kept ran three times on that head and
  exited 0 each time, or when one approval taken on that head names every check that did not.
-/

namespace Kstrl.Acceptance

open Owner

/-- What one head run of a component's checks printed and recorded. -/
structure HeadOutcome where
  passed : Bool
  lines : List String
  checks : List String := []
  failures : List String := []
  isolation : String := hostLabel
  failing : List String := []
  heldOut : List String := []
  told : List String := []
  disputed : List String := []
  stopped : List String := []

/-- The settings of the run that a head is judged under. -/
structure HeadConfig where
  acceptancePlan : Option PinnedPlan
  acceptanceBase : Option BaseReading
  projectStack : Option Stack
  engineerSandbox : String := ""

/-- The directory the evidence of an attempt goes to. -/
structure EvidenceDir where
  path : String
  recordPath : String
  mkdirError : Option String := none
  logSha : String → ℕ → String
  writeError : Option String := none

/-- What is judged. -/
structure Head where
  comp : String
  headSha : String
  run : String
  attempt : ℕ
  overrides : List InboxItem := []
  progress : Option Progress := none

/-- An outcome that shows one line. -/
def unjudged (line : String) : HeadOutcome := { passed := false, lines := [line], failures := [line] }

/-- `_unwritten` -/
def unwritten (comp : String) (evidence : EvidenceDir) (exc : String) : HeadOutcome :=
  unjudged ("Acceptance for " ++ comp ++ ": the evidence cannot be written at " ++ evidence.path ++ ": " ++ exc)

section Judge

variable (sha256 : List UInt8 → String) (u : CharTables)

/-- The outcome that a record has. -/
def outcomeOf (evidence : EvidenceDir) (e : Evaluation) : HeadOutcome :=
  let record := e.record sha256 u
  { passed := e.failing = [] ∨ record.override.isSome
    lines := renderLines record ++ ["- record: " ++ evidence.recordPath]
    checks := record.checks.map Row.id
    failures := (record.checks.filter fun row => row.verdict ≠ .pass).map fun row => rowLine row headRuns
    isolation := testIsolation e.replay
    failing := e.failing
    heldOut := (record.checks.filter fun row => row.heldOut ∧ row.verdict = .fail).map Row.id
    told := if e.replay.unreplayed then [] else toldLines record e.part.checks
    disputed := record.dispute.accepted.map Accepted.id
    stopped := stopLines record }

/-- The outcome and the record, written or not. -/
def judged (evidence : EvidenceDir) (e : Evaluation) : HeadOutcome × Option HeadRecord :=
  match evidence.writeError with
  | some exc => (unwritten e.comp evidence exc, none)
  | none => (outcomeOf sha256 u evidence e, some (e.record sha256 u))

def evaluationOf (config : HeadConfig) (evidence : EvidenceDir) (head : Head) (plan : PinnedPlan) (base : BaseReading)
    (part : ComponentPlan) (result : Replay × Runs) : Evaluation where
  plan := plan
  base := base
  part := part
  comp := head.comp
  headSha := head.headSha
  attempt := head.attempt
  run := head.run
  replay := result.1
  runs := result.2
  logSha := evidence.logSha
  overrides := head.overrides
  progress := head.progress
  engineerSandbox := config.engineerSandbox

/-- `judge_head`: the outcome with the record it wrote, or nothing when the run has no plan for the component. -/
def judgeHead (w : World) (config : HeadConfig) (evidence : EvidenceDir) (head : Head) :
    Except String (Option (HeadOutcome × Option HeadRecord)) :=
  match config.acceptancePlan, config.acceptanceBase, config.projectStack with
  | some plan, some base, some stack =>
      match base.kept.lookup head.comp with
      | none => .ok none
      | some part =>
          if head.headSha = "" then
            .ok (some (unjudged ("Acceptance for " ++ head.comp ++
              ": the head commit cannot be read, so no check ran"), none))
          else match evidence.mkdirError with
            | some exc => .ok (some (unwritten head.comp evidence exc, none))
            | none =>
                (replayStack w stack head.headSha (some (probe w (part.checks.map fun check => (head.comp, check))
                  headRuns))).map fun result =>
                    some (judged sha256 u evidence (evaluationOf config evidence head plan base part result))
  | _, _, _ => .ok none

end Judge

/-! ## Soundness -/

/-- The exits that a record states of a check. -/
def HeadRecord.exitsOf (record : HeadRecord) (id : String) : List (Option ℤ) :=
  ((record.checks.find? fun row => row.id = id).map Row.headExits).getD []

/-- **A check ran clean**: the exits are those of all its runs on the head commit, and each is 0. -/
structure RanClean (w : World) (head : Head) (check : Check) (exits : List (Option ℤ)) : Prop where
  count : exits.length = headRuns
  zero : ∀ code ∈ exits, code = some 0
  ran : ∃ stages, runTimes w headRuns head.headSha head.comp check = .ok stages ∧ exits = stages.map Stage.exit

section Sound

variable {sha256 : List UInt8 → String} {u : CharTables} {w : World} {config : HeadConfig} {evidence : EvidenceDir}
  {head : Head}

lemma exitsOf_record {e : Evaluation} {check : Check} (hcheck : check ∈ e.part.checks) :
    (e.record sha256 u).exitsOf check.id = (e.runs.get e.comp check.id).map Stage.exit := by
  have hfind : (e.rows.find? fun row => row.id = check.id) = some (e.row check) := by
    obtain ⟨row, hrow⟩ : ∃ row, (e.rows.find? fun row => row.id = check.id) = some row := by
      rw [← Option.isSome_iff_exists, List.find?_isSome]
      exact ⟨e.row check, List.mem_map_of_mem hcheck, decide_eq_true rfl⟩
    obtain ⟨c, hc, rfl⟩ := List.mem_map.mp (List.mem_of_find?_eq_some hrow)
    have hid : c.id = check.id := of_decide_eq_true (List.find?_some (p := fun row : Row => row.id = check.id) hrow)
    rw [hrow, List.inj_on_of_nodup_map e.part.ids_nodup hc hcheck hid]
  show (((e.rows.find? fun row => row.id = check.id).map Row.headExits).getD []) = _
  rw [hfind]
  rfl

/-- What a head run records of a check: all its runs on the head, or none. -/
lemma runs_cases {part : ComponentPlan} {stack : Stack}
    {result : Replay × Runs} (hhead : head.headSha ≠ "")
    (h : replayStack w stack head.headSha (some (probe w (part.checks.map fun check => (head.comp, check)) headRuns)) =
      .ok result) {check : Check} (hcheck : check ∈ part.checks) :
    result.2.get head.comp check.id = [] ∨
      runTimes w headRuns head.headSha head.comp check = .ok (result.2.get head.comp check.id) := by
  have hids : ((part.checks.map fun check => (head.comp, check)).map fun e => (e.1, e.2.id)).Nodup := by
    rw [List.map_map]
    exact List.Nodup.of_map Prod.snd (by rw [List.map_map]; exact part.ids_nodup)
  rcases replayStack_cases hhead h with ⟨hnone, -⟩ | hprobe
  · exact .inl (by rw [hnone, Runs.get_nil])
  · exact .inr (get_probe hids hprobe (List.mem_map_of_mem hcheck))

/-- A check of the record passes exactly when it ran clean. -/
lemma row_pass_iff_ranClean {e : Evaluation} {check : Check} (hcheck : check ∈ e.part.checks) (hcomp : e.comp = head.comp)
    (hruns : e.runs.get head.comp check.id = [] ∨
      runTimes w headRuns head.headSha head.comp check = .ok (e.runs.get head.comp check.id)) :
    (e.row check).verdict = .pass ↔ RanClean w head check ((e.record sha256 u).exitsOf check.id) := by
  rw [row_pass_iff, exitsOf_record hcheck, hcomp]
  constructor
  · rintro ⟨hne, hzero⟩
    have hran := hruns.resolve_left hne
    refine ⟨?_, List.forall_mem_map.mpr hzero, _, hran, rfl⟩
    rw [List.length_map, runTimes_length hran]
  · intro hclean
    refine ⟨fun hnil => ?_, List.forall_mem_map.mp hclean.zero⟩
    have hcount := hclean.count
    rw [hnil] at hcount
    cases hcount

/-- A record that is written, of a component that passes. -/
lemma judged_passed {e : Evaluation} {outcome : HeadOutcome} {record : Option HeadRecord}
    (h : judged sha256 u evidence e = (outcome, record)) (hpassed : outcome.passed = true) :
    record = some (e.record sha256 u) ∧
      (e.failing = [] ∨ ∃ item ∈ e.overrides, Covers item e.headSha e.failing) := by
  unfold judged at h
  split at h
  · cases h
    cases hpassed
  · cases h
    refine ⟨rfl, (of_decide_eq_true hpassed).imp_right fun hsome => ?_⟩
    obtain ⟨o, ho⟩ := Option.isSome_iff_exists.mp hsome
    obtain ⟨item, hitem, -, hcovers⟩ := coveringOverride_covers ho
    exact ⟨item, hitem, hcovers⟩

/-- A component without checks is not judged. -/
lemma judgeHead_none {plan : PinnedPlan} {reading : BaseReading} (hplan : config.acceptancePlan = some plan)
    (hreading : config.acceptanceBase = some reading) (hkept : reading.kept.lookup head.comp = none) :
    judgeHead sha256 u w config evidence head = .ok none := by
  rw [judgeHead, hplan, hreading]
  cases config.projectStack with
  | none => rfl
  | some stack =>
      show (match reading.kept.lookup head.comp with | none => _ | some part => _) = _
      rw [hkept]

/-- What it takes to pass, of the checks that are kept. -/
lemma judgeHead_passed {plan : PinnedPlan} {reading : BaseReading} {part : ComponentPlan}
    (hplan : config.acceptancePlan = some plan) (hreading : config.acceptanceBase = some reading)
    (hkept : reading.kept.lookup head.comp = some part) {outcome : HeadOutcome} {record : Option HeadRecord}
    (h : judgeHead sha256 u w config evidence head = .ok (some (outcome, record))) (hpassed : outcome.passed = true) :
    ∃ r, record = some r ∧ ((∀ check ∈ part.checks, RanClean w head check (r.exitsOf check.id)) ∨
      ∃ item ∈ head.overrides, takenOn item head.headSha = true ∧
        ∀ check ∈ part.checks, ¬RanClean w head check (r.exitsOf check.id) → check.id ∈ namedChecks item) := by
  unfold judgeHead at h
  rw [hplan, hreading] at h
  cases hstack : config.projectStack with
  | none => rw [hstack] at h; cases h
  | some stack =>
      simp only [hstack, hkept] at h
      split_ifs at h with hhead
      · cases h
        cases hpassed
      · split at h
        · cases h
          cases hpassed
        · obtain ⟨result, hresult, hjudged⟩ := Except.map_eq_ok h
          obtain ⟨hrecord, hwhy⟩ := judged_passed (Option.some.inj hjudged) hpassed
          have hclean : ∀ check ∈ part.checks,
              (((evaluationOf config evidence head plan reading part result).row check).verdict = .pass ↔
                RanClean w head check
                  (((evaluationOf config evidence head plan reading part result).record sha256 u).exitsOf check.id)) :=
            fun check hcheck => row_pass_iff_ranClean hcheck rfl (runs_cases hhead hresult hcheck)
          refine ⟨_, hrecord, hwhy.imp ?_ ?_⟩
          · intro hfailing check hcheck
            exact (hclean check hcheck).mp (failing_eq_nil_iff.mp hfailing check hcheck)
          · rintro ⟨item, hitem, htaken, hnamed⟩
            refine ⟨item, hitem, htaken, fun check hcheck hnot => hnamed check.id ?_⟩
            exact mem_failing_iff.mpr ⟨check, hcheck, rfl, fun hverdict => hnot ((hclean check hcheck).mp hverdict)⟩

/-- **The acceptance gate is sound.**  The base keeps every planned check but those of a designed plan that its rule
names; a component it leaves without a check is not judged; and one that passes had every kept check run three times
on its head with exit 0 each time, or has one approval that was taken on that head and names every kept check that
did not. -/
theorem judgeHead_sound {wb : World} {stack : Stack} {plan : PinnedPlan} {baseBranch : String} {base : BaseReplay}
    (hbase : replayBase wb stack plan baseBranch = .ok (.ok base)) (hplan : config.acceptancePlan = some plan)
    (hreading : config.acceptanceBase = some base.reading) :
    (∀ check, check ∈ keptChecks plan base.reading.exits head.comp ↔ check ∈ plan.checksOf head.comp ∧
      ¬(plan.designed = true ∧ RemovedByBase (plan.checksOf head.comp) (base.reading.exits head.comp) check)) ∧
    (keptChecks plan base.reading.exits head.comp = [] → judgeHead sha256 u w config evidence head = .ok none) ∧
    ∀ outcome record, judgeHead sha256 u w config evidence head = .ok (some (outcome, record)) →
      outcome.passed = true → ∃ r, record = some r ∧
        ((∀ check ∈ keptChecks plan base.reading.exits head.comp, RanClean w head check (r.exitsOf check.id)) ∨
          ∃ item ∈ head.overrides, takenOn item head.headSha = true ∧
            ∀ check ∈ keptChecks plan base.reading.exits head.comp,
              ¬RanClean w head check (r.exitsOf check.id) → check.id ∈ namedChecks item) := by
  have hkept := replayBase_kept hbase
  cases hlookup : base.reading.kept.lookup head.comp with
  | none =>
      have hnone : judgeHead sha256 u w config evidence head = .ok none := judgeHead_none hplan hreading hlookup
      refine ⟨fun check => mem_keptChecks_iff, fun _ => hnone, fun outcome record h _ => ?_⟩
      rw [hnone] at h
      cases h
  | some part =>
      have hchecks : keptChecks plan base.reading.exits head.comp = part.checks := keptChecks_eq (hkept ▸ hlookup)
      refine ⟨fun check => mem_keptChecks_iff, fun hnil => absurd (hchecks ▸ hnil) part.checks_ne,
        fun outcome record h hpassed => ?_⟩
      rw [hchecks]
      exact judgeHead_passed hplan hreading hlookup h hpassed

end Sound

/-! ### A run of the gate -/

def firstCheck : Check := ⟨"a", "it adds", ["./a"], .fails, true, "e1"⟩

def firstPart : ComponentPlan := ⟨false, [firstCheck], List.cons_ne_nil _ _, List.nodup_singleton _⟩

def firstPlan : PinnedPlan := ⟨"d1", [("c", firstPart)], List.nodup_singleton _, false⟩

/-- A machine where every check fails on the commit `base` and passes elsewhere. -/
def firstWorld : World where
  baseBranch := "main"
  resolveBase _ := .ok "base"
  checkout _ := none
  zones := .ok (⟨"proven", "", none⟩, ⟨"proven", "", none⟩)
  setup _ := .ok ⟨.exited 0, "", "0.1"⟩
  up _ := .ok ⟨some 0, "", "0.1"⟩
  stackCheck _ _ := .ok ⟨.exited 0, "", "0.1"⟩
  acceptance commit _ _ _ := .ok (.ok ⟨.exited (if commit = "base" then 1 else 0), "", "0.1"⟩)
  cleanup := none
  setupLimit := "60"
  checkLimit := "60"

def firstStack : Stack := { digest := "s1", setup := "", checks := [] }

def firstTables : CharTables := ⟨Char.isAlphanum, Char.isDigit, PyText.repr⟩

def firstBase : BaseReplay :=
  let runs : Runs := [(("c", "a"), [⟨"acceptance:a", "./a", some 1, "", "0.1", [], replayBaseContradiction⟩])]
  readBase firstPlan "base"
    { stackDigest := "s1", baseBranch := "main", baseSha := "base", isolation := [("setup", "proven"), ("test", "proven")] }
    runs

def firstHead : Head := { comp := "c", headSha := "head", run := "r", attempt := 1 }

lemma firstBase_replay : replayBase firstWorld firstStack firstPlan "main" = .ok (.ok firstBase) := by
  rfl

def firstConfig : HeadConfig :=
  { acceptancePlan := some firstPlan, acceptanceBase := some firstBase.reading, projectStack := some firstStack }

def firstEvidence : EvidenceDir := { path := "e", recordPath := "e/record.json", logSha := fun _ _ => "" }

/-- What the run of the gate is judged on. -/
def firstEvaluation : Evaluation :=
  evaluationOf firstConfig firstEvidence firstHead firstPlan firstBase.reading firstPart
    ({ stackDigest := "s1", baseBranch := "main", baseSha := "head", isolation := [("setup", "proven"), ("test", "proven")] },
      [(("c", "a"), List.replicate 3 ⟨"acceptance:a", "./a", some 0, "", "0.1", [], ""⟩)])

/-- The held-out check passes on the head, in three runs. -/
theorem judgeHead_sound_first :
    ∃ r, judgeHead (fun _ => "") firstTables firstWorld firstConfig firstEvidence firstHead =
        .ok (some (outcomeOf (fun _ => "") firstTables firstEvidence firstEvaluation, some r)) ∧
      RanClean firstWorld firstHead firstCheck (r.exitsOf "a") := by
  have hjudged : judgeHead (fun _ => "") firstTables firstWorld firstConfig firstEvidence firstHead =
      .ok (some (outcomeOf (fun _ => "") firstTables firstEvidence firstEvaluation,
        some (firstEvaluation.record (fun _ => "") firstTables))) := rfl
  obtain ⟨r, hr, hwhy⟩ := (judgeHead_sound firstBase_replay rfl rfl).2.2 _ _ hjudged (by rfl)
  refine ⟨r, hr ▸ hjudged, ?_⟩
  rcases hwhy with hclean | ⟨item, hitem, -⟩
  · exact hclean firstCheck List.mem_cons_self
  · cases hitem

end Kstrl.Acceptance
