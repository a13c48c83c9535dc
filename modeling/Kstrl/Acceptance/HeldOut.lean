import Kstrl.Acceptance.Carried
import Kstrl.Acceptance.Lines
import Kstrl.Acceptance.PlanFiles

/-!
# Held-out checks stay held out

What an engineer is shown of an acceptance run does not depend on what its held-out checks run, say or print.  To
redact a run is to blank the criterion, the argv and the digest of each held-out check and what its stages printed, and
the plan's digest with them; ids, flags, exits and the reasons of a stop are kept.

* **`toldLines_redact`**, **`stopLines_redact`**, **`rejectedLines_redact`**, **`visibleFailures_redact`**: what a
  retry, a halt and the record show of a head is the same after redaction.
* **`lines_redact`**: so is what Phase 3 prints, and **`baseDocument_redact`** the base reading, under one digest.
* **`heldOut_hidden`**: two runs with one redaction show the same.
* **`planId_shown`**: the digest itself is shown, and it tells plans apart.
-/

namespace Kstrl.Acceptance

/-! ## Redaction -/

/-- A check without what only its own author may read. -/
def Check.redact (check : Check) : Check :=
  if check.heldOut then { check with criterion := "", argv := [], sha256 := "" } else check

def Stage.redact (stage : Stage) : Stage := { stage with command := "", tail := [] }

@[simp] lemma Check.redact_id (check : Check) : check.redact.id = check.id := by
  unfold Check.redact
  split_ifs <;> rfl

@[simp] lemma Check.redact_heldOut (check : Check) : check.redact.heldOut = check.heldOut := by
  unfold Check.redact
  split_ifs <;> rfl

@[simp] lemma Check.redact_onBase (check : Check) : check.redact.onBase = check.onBase := by
  unfold Check.redact
  split_ifs <;> rfl

lemma Check.redact_visible {check : Check} (h : check.heldOut = false) : check.redact = check := by
  rw [Check.redact, h, if_neg Bool.false_ne_true]

lemma map_redact_id (checks : List Check) : (checks.map Check.redact).map Check.id = checks.map Check.id := by
  rw [List.map_map]
  exact List.map_congr_left fun check _ => check.redact_id

def ComponentPlan.redact (part : ComponentPlan) : ComponentPlan where
  createsApp := part.createsApp
  checks := part.checks.map Check.redact
  checks_ne := fun h => part.checks_ne (List.map_eq_nil_iff.mp h)
  ids_nodup := by rw [map_redact_id]; exact part.ids_nodup

def redactParts (components : List (String × ComponentPlan)) : List (String × ComponentPlan) :=
  components.map fun e => (e.1, e.2.redact)

lemma keys_redactParts (components : List (String × ComponentPlan)) :
    (redactParts components).map Prod.fst = components.map Prod.fst := by
  rw [redactParts, List.map_map]
  rfl

def PinnedPlan.redact (plan : PinnedPlan) : PinnedPlan where
  digest := ""
  components := redactParts plan.components
  keys_nodup := by rw [keys_redactParts]; exact plan.keys_nodup
  designed := plan.designed

/-- Whether the checks under a key are all held out. -/
def heldKey (wanted : List (String × Check)) (key : String × String) : Bool :=
  wanted.all fun e => (e.1, e.2.id) ≠ key || e.2.heldOut

def redactRuns (wanted : List (String × Check)) (runs : Runs) : Runs :=
  runs.map fun e => (e.1, if heldKey wanted e.1 then e.2.map Stage.redact else e.2)

def BaseReading.redact (reading : BaseReading) : BaseReading := { reading with kept := redactParts reading.kept }

/-- The checks of the head with their component. -/
def Evaluation.wanted (e : Evaluation) : List (String × Check) := e.part.checks.map fun check => (e.comp, check)

def Evaluation.redact (e : Evaluation) : Evaluation :=
  { e with
    plan := e.plan.redact
    base := e.base.redact
    part := e.part.redact
    runs := redactRuns e.wanted e.runs
    logSha := fun _ _ => "" }

/-! ## Runs -/

lemma lookup_map_value {κ α β : Type} [BEq κ] (f : κ → α → β) (l : List (κ × α)) (hf : ∀ {j k : κ}, j == k → f j = f k)
    (k : κ) : (l.map fun e => (e.1, f e.1 e.2)).lookup k = (l.lookup k).map (f k) := by
  induction l with
  | nil => rfl
  | cons e l ih =>
      rw [List.map_cons, List.lookup_cons, List.lookup_cons]
      cases hk : k == e.1 with
      | true => rw [Option.map_some, hf hk]
      | false => exact ih

lemma get_redactRuns (wanted : List (String × Check)) (runs : Runs) (comp id : String) :
    (redactRuns wanted runs).get comp id =
      if heldKey wanted (comp, id) then (runs.get comp id).map Stage.redact else runs.get comp id := by
  have hlookup : (redactRuns wanted runs).reverse.lookup (comp, id) = (runs.reverse.lookup (comp, id)).map
      fun stages : List Stage => if heldKey wanted (comp, id) then stages.map Stage.redact else stages := by
    rw [redactRuns, ← List.map_reverse]
    refine lookup_map_value (fun key (stages : List Stage) => if heldKey wanted key then stages.map Stage.redact else stages) _ ?_ _
    intro j k hjk
    rw [eq_of_beq hjk]
  rw [Runs.get, hlookup, Runs.get]
  cases runs.reverse.lookup (comp, id) with
  | none => split_ifs <;> rfl
  | some stages => rfl

/-- The exits stay. -/
lemma exits_redactRuns (wanted : List (String × Check)) (runs : Runs) (comp id : String) :
    ((redactRuns wanted runs).get comp id).map Stage.exit = (runs.get comp id).map Stage.exit := by
  rw [get_redactRuns]
  split_ifs
  · rw [List.map_map]
    rfl
  · rfl

/-- The stages of a visible check stay. -/
lemma get_redactRuns_visible {wanted : List (String × Check)} {comp : String} {check : Check}
    (hwanted : (comp, check) ∈ wanted) (hvisible : check.heldOut = false) (runs : Runs) :
    (redactRuns wanted runs).get comp check.id = runs.get comp check.id := by
  have hkey : heldKey wanted (comp, check.id) = false := by
    rw [← Bool.not_eq_true, heldKey, List.all_eq_true]
    intro hall
    have hthis := hall _ hwanted
    rw [hvisible, Bool.or_false, decide_eq_true_eq] at hthis
    exact hthis rfl
  rw [get_redactRuns, hkey, if_neg Bool.false_ne_true]

/-! ## The head record -/

section Head

variable {sha256 : List UInt8 → String} {u : CharTables} {e : Evaluation}

lemma headExits_redact (check : Check) : (e.redact.row check.redact).headExits = (e.row check).headExits := by
  show ((redactRuns e.wanted e.runs).get e.comp check.redact.id).map Stage.exit = _
  rw [exits_redactRuns, Check.redact_id]
  rfl

lemma verdict_redact (check : Check) : (e.redact.row check.redact).verdict = (e.row check).verdict :=
  congrArg headVerdict (headExits_redact check)

lemma rowLine_redact (check : Check) (n : ℕ) : rowLine (e.redact.row check.redact) n = rowLine (e.row check) n := by
  have hid : (e.redact.row check.redact).id = (e.row check).id := check.redact_id
  have hkind : (e.redact.row check.redact).kind = (e.row check).kind := by
    show (if check.redact.heldOut then _ else _) = _
    rw [check.redact_heldOut]
    rfl
  have hbase : (e.redact.row check.redact).baseExit = (e.row check).baseExit := by
    show e.base.exits e.comp check.redact.id = _
    rw [check.redact_id]
    rfl
  rw [rowLine, rowLine, headExits_redact, verdict_redact, hid, hkind, hbase]

lemma rows_redact : e.redact.rows = e.part.checks.map fun check => e.redact.row check.redact := by
  rw [Evaluation.rows, Evaluation.redact, ComponentPlan.redact, List.map_map]
  rfl

lemma failing_redact : e.redact.failing = e.failing := by
  rw [Evaluation.failing, Evaluation.failing, rows_redact, Evaluation.rows, List.filter_map, List.filter_map,
    List.map_map, List.map_map]
  have hfilter : ((fun row : Row => decide (row.verdict ≠ .pass)) ∘ fun check : Check => e.redact.row check.redact) =
      (fun row : Row => decide (row.verdict ≠ .pass)) ∘ e.row := by
    funext check
    simp only [Function.comp_apply, verdict_redact]
  rw [hfilter]
  exact List.map_congr_left fun check _ => check.redact_id

lemma failedTail_redact {check : Check} (hcheck : check ∈ e.part.checks) (hvisible : check.heldOut = false) :
    e.redact.failedTail check = e.failedTail check := by
  have hwanted : (e.comp, check) ∈ e.wanted := List.mem_map_of_mem hcheck
  show ((((redactRuns e.wanted e.runs).get e.comp check.id).reverse.find? _).map Stage.tail).getD [] = _
  rw [get_redactRuns_visible hwanted hvisible]
  rfl

/-- **The record names the same visible failures.** -/
theorem visibleFailures_redact : e.redact.visibleFailures = e.visibleFailures := by
  have hchecks : e.redact.part.checks = e.part.checks.map Check.redact := rfl
  rw [Evaluation.visibleFailures, Evaluation.visibleFailures, hchecks, failing_redact, List.filter_map, List.map_map]
  have hfilter : ((fun check : Check => decide ((!check.heldOut) = true ∧ check.id ∈ e.failing)) ∘ Check.redact) =
      fun check => decide ((!check.heldOut) = true ∧ check.id ∈ e.failing) := by
    funext check
    simp only [Function.comp_apply, Check.redact_heldOut, Check.redact_id]
  rw [hfilter]
  refine List.map_congr_left fun check hcheck => ?_
  obtain ⟨hcheck, hkeep⟩ := List.mem_filter.mp hcheck
  have hvisible : check.heldOut = false := by simpa using (of_decide_eq_true hkeep).1
  rw [Function.comp_apply, Check.redact_visible hvisible, failedTail_redact hcheck hvisible]

lemma refusal_redact (checks : List Check) (failing : List String) (line : String) (found : Option (String × String))
    (taken : List String) :
    refusal u (checks.map Check.redact) failing line found taken = refusal u checks failing line found taken := by
  cases found with
  | none => rfl
  | some found =>
      obtain ⟨name, cause⟩ := found
      have hfind : ((checks.map Check.redact).find? fun check => check.id = name) =
          (checks.find? fun check => check.id = name).map Check.redact := by
        rw [List.find?_map]
        simp only [Function.comp_def, Check.redact_id]
      rw [refusal, refusal, hfind]
      cases checks.find? fun check => check.id = name with
      | none => rfl
      | some check => rw [Option.map_some]; simp only [Check.redact_heldOut]

lemma readDispute_redact (checks : List Check) (failing : List String) (progress : Option Progress) :
    readDispute u (checks.map Check.redact) failing progress = readDispute u checks failing progress := by
  have hline : readLine u (checks.map Check.redact) failing = readLine u checks failing := by
    funext fileName d numbered
    simp only [readLine, refusal_redact]
  simp only [readDispute, hline]

lemma dispute_redact : (e.redact.record sha256 u).dispute = (e.record sha256 u).dispute := by
  show readDispute u (e.part.checks.map Check.redact) e.redact.failing e.progress = _
  rw [readDispute_redact, failing_redact]
  rfl

lemma visible_redact : (e.redact.record sha256 u).visibleFailures = (e.record sha256 u).visibleFailures :=
  visibleFailures_redact

/-- **A halt and a retry reject the same disputes.** -/
theorem rejectedLines_redact : rejectedLines (e.redact.record sha256 u) = rejectedLines (e.record sha256 u) := by
  rw [rejectedLines, rejectedLines, dispute_redact]

/-- Whether a check of the record did not pass. -/
lemma notPassed_redact : (∃ row ∈ (e.redact.record sha256 u).checks, row.verdict ≠ .pass) ↔
    ∃ row ∈ (e.record sha256 u).checks, row.verdict ≠ .pass := by
  show (∃ row ∈ e.redact.rows, row.verdict ≠ .pass) ↔ ∃ row ∈ e.rows, row.verdict ≠ .pass
  rw [rows_redact, Evaluation.rows]
  simp only [List.mem_map, exists_exists_and_eq_and, verdict_redact]

/-- **A halt says the same.** -/
theorem stopLines_redact : stopLines (e.redact.record sha256 u) = stopLines (e.record sha256 u) := by
  have hdisputed : disputedLines (e.redact.record sha256 u) = disputedLines (e.record sha256 u) := by
    funext entry
    rw [disputedLines, disputedLines, visible_redact]
  have hwritten : (e.redact.record sha256 u).writtenBy = (e.record sha256 u).writtenBy := rfl
  have hdesigned : designedStopLines (e.redact.record sha256 u) = designedStopLines (e.record sha256 u) := by
    rw [designedStopLines, designedStopLines, hwritten, visible_redact, dispute_redact]
    simp only [notPassed_redact]
  rw [stopLines, stopLines, hdisputed, dispute_redact, hdesigned]

lemma visibleLines_redact (check : Check) :
    visibleLines (e.redact.record sha256 u) check = visibleLines (e.record sha256 u) check := by
  rw [visibleLines, visibleLines, visible_redact]

lemma toldRow_redact (check : Check) :
    toldRow (e.redact.record sha256 u) e.redact.part.checks (e.redact.row check.redact) =
      toldRow (e.record sha256 u) e.part.checks (e.row check) := by
  have hfind : (e.redact.part.checks.find? fun c => (!c.heldOut) = true ∧ c.id = (e.redact.row check.redact).id) =
      e.part.checks.find? fun c => (!c.heldOut) = true ∧ c.id = (e.row check).id := by
    show ((e.part.checks.map Check.redact).find? fun c => (!c.heldOut) = true ∧ c.id = check.redact.id) =
      e.part.checks.find? fun c => (!c.heldOut) = true ∧ c.id = check.id
    rw [List.find?_map]
    simp only [Function.comp_def, Check.redact_id, Check.redact_heldOut]
    cases hfound : e.part.checks.find? fun c => (!c.heldOut) = true ∧ c.id = check.id with
    | none => rfl
    | some c =>
        have hc := of_decide_eq_true (List.find?_some (p := fun c : Check => (!c.heldOut) = true ∧ c.id = check.id) hfound)
        rw [Option.map_some, Check.redact_visible (by simpa using hc.1)]
  have hruns : (e.redact.record sha256 u).headRuns = (e.record sha256 u).headRuns := rfl
  rw [toldRow, toldRow, verdict_redact, rowLine_redact, hruns, hfind]
  simp only [visibleLines_redact]

/-- **A retry is told the same.** -/
theorem toldLines_redact : toldLines (e.redact.record sha256 u) e.redact.part.checks =
    toldLines (e.record sha256 u) e.part.checks := by
  have hrows : (e.redact.record sha256 u).checks.flatMap (toldRow (e.redact.record sha256 u) e.redact.part.checks) =
      (e.record sha256 u).checks.flatMap (toldRow (e.record sha256 u) e.part.checks) := by
    show e.redact.rows.flatMap _ = e.rows.flatMap _
    rw [rows_redact, Evaluation.rows, List.flatMap_map, List.flatMap_map]
    exact List.flatMap_congr fun check _ => toldRow_redact check
  have hreplay : (e.redact.record sha256 u).replay = (e.record sha256 u).replay := rfl
  rw [toldLines, toldLines, hrows, rejectedLines_redact, hreplay]

end Head

/-! ## Phase 3 -/

namespace Item

/-- The item as it would be shown under a digest. -/
def under (digest : String) (item : Item) : Item :=
  { item with wanted := { item.wanted with digest := item.wanted.digest.map fun _ => digest } }

def redact (item : Item) : Item where
  wanted := ⟨item.wanted.digest.map fun _ => "", item.wanted.component, item.wanted.check.redact⟩
  stages := if item.wanted.check.heldOut then item.stages.map Stage.redact else item.stages

lemma exits_redact (item : Item) : item.redact.stages.map Stage.exit = item.stages.map Stage.exit := by
  unfold redact
  dsimp only
  split_ifs
  · rw [List.map_map]
    rfl
  · rfl

lemma verdict_redact (item : Item) : item.redact.verdict = item.verdict := congrArg headVerdict item.exits_redact

lemma lastTail_redact (item : Item) : item.redact.lastTail = item.lastTail := by
  unfold lastTail redact
  dsimp only
  rw [Check.redact_heldOut]
  split_ifs <;> rfl

lemma heldOutFailed_redact (item : Item) : item.redact.heldOutFailed = item.heldOutFailed := by
  rw [heldOutFailed, heldOutFailed, verdict_redact]
  simp only [redact, Check.redact_heldOut]

/-- **What is printed of a check** is the same after redaction, under one digest. -/
theorem lines_redact (item : Item) (digest : String) : (item.redact.under digest).lines = (item.under digest).lines := by
  have hexits : ((item.redact.under digest).stages.map fun stage => codeText stage.exit) =
      (item.under digest).stages.map fun stage => codeText stage.exit := by
    have h := congrArg (List.map codeText) item.exits_redact
    rwa [List.map_map, List.map_map] at h
  have hlabel : (item.redact.under digest).wanted.label = (item.under digest).wanted.label := by
    unfold redact under Wanted.label
    cases item.wanted.digest <;> rfl
  have hid : (item.redact.under digest).wanted.check.id = (item.under digest).wanted.check.id :=
    item.wanted.check.redact_id
  have hverdict : (item.redact.under digest).verdict = (item.under digest).verdict := item.verdict_redact
  have htail : (item.redact.under digest).lastTail = (item.under digest).lastTail := item.lastTail_redact
  rw [lines, lines, hlabel, hid, hverdict, htail, hexits]

end Item

/-- **Phase 3 prints the same.** -/
theorem failingLines_redact (items : List Item) (digest : String) :
    failingLines ((items.map Item.redact).map (Item.under digest)) = failingLines (items.map (Item.under digest)) := by
  have hlines : ((items.map Item.redact).map (Item.under digest)).flatMap Item.lines =
      (items.map (Item.under digest)).flatMap Item.lines := by
    rw [List.flatMap_map, List.flatMap_map, List.flatMap_map]
    exact List.flatMap_congr fun item _ => item.lines_redact digest
  have hfailed : ((items.map Item.redact).map (Item.under digest)).filter Item.heldOutFailed =
      ((items.filter Item.heldOutFailed).map Item.redact).map (Item.under digest) := by
    rw [List.filter_map, List.filter_map]
    have hkeep : (Item.heldOutFailed ∘ Item.under digest) ∘ Item.redact = Item.heldOutFailed :=
      funext fun item => item.heldOutFailed_redact
    rw [hkeep]
  have hfailed' : (items.map (Item.under digest)).filter Item.heldOutFailed =
      (items.filter Item.heldOutFailed).map (Item.under digest) := by
    rw [List.filter_map]
    rfl
  rw [failingLines, failingLines, hlines, hfailed, hfailed', List.map_map, List.map_map, List.map_map]
  exact congrArg _ (List.map_congr_left fun item _ => item.wanted.check.redact_id)

/-! ## The base reading -/

/-- A reading of the base: what was planned and replayed. -/
structure BaseEvaluation where
  run : String
  plan : PinnedPlan
  sha : String
  replay : Replay
  runs : Runs

namespace BaseEvaluation

variable (b : BaseEvaluation)

def read : BaseReplay := readBase b.plan b.sha b.replay b.runs

/-- The document that is written, under a digest. -/
def document (digest : String) : Json :=
  baseDocument b.run { b.plan with digest := digest } b.replay b.read.reading b.runs b.read.errors

/-- `base.json` -/
def written : Json := b.document b.plan.digest

def redact : BaseEvaluation := { b with plan := b.plan.redact, runs := redactRuns b.plan.wanted b.runs }

end BaseEvaluation

section Base

lemma firstExit_eq (runs : Runs) (comp id : String) :
    firstExit runs comp id = ((runs.get comp id).map Stage.exit).head?.join := by
  unfold firstExit
  cases runs.get comp id <;> rfl

lemma firstExit_redact (wanted : List (String × Check)) (runs : Runs) :
    firstExit (redactRuns wanted runs) = firstExit runs := by
  funext comp id
  rw [firstExit_eq, firstExit_eq, exits_redactRuns]

lemma holds_redact (part : ComponentPlan) (exits : String → Option ℤ) : holds part.redact exits = holds part exits := by
  rw [holds, holds, ComponentPlan.redact, List.any_map]
  simp only [Function.comp_def, Check.redact_id, Check.redact_onBase]

lemma whyRemoved_redact (check : Check) (verdict : Verdict) (code : Option ℤ) (holds : Bool) :
    whyRemoved check.redact verdict code holds = whyRemoved check verdict code holds := by
  rw [whyRemoved, whyRemoved, check.redact_onBase]

lemma removedOnBase_redact (part : ComponentPlan) (exits : String → Option ℤ) :
    removedOnBase part.redact exits = removedOnBase part exits := by
  have hwhy : ((fun check : Check => decide
      (whyRemoved check (verdictOf (exits check.id)) (exits check.id) (holds part exits) ≠ "")) ∘ Check.redact) =
      fun check => decide (whyRemoved check (verdictOf (exits check.id)) (exits check.id) (holds part exits) ≠ "") := by
    funext check
    rw [Function.comp_apply, check.redact_id, whyRemoved_redact]
  rw [removedOnBase, removedOnBase, holds_redact]
  show ((part.checks.map Check.redact).filter _).map Check.id = _
  rw [List.filter_map, hwhy, map_redact_id]

lemma narrow_redact (part : ComponentPlan) {keep : Check → Bool} (hkeep : ∀ check : Check, keep check.redact = keep check) :
    part.redact.narrow keep = (part.narrow keep).map ComponentPlan.redact := by
  have hfilter : part.redact.checks.filter keep = (part.checks.filter keep).map Check.redact := by
    show (part.checks.map Check.redact).filter keep = _
    rw [List.filter_map]
    exact congrArg (fun p => (part.checks.filter p).map Check.redact) (funext hkeep)
  unfold ComponentPlan.narrow
  by_cases h : part.checks.filter keep = []
  · have hnil : part.redact.checks.filter keep = [] := by rw [hfilter, h, List.map_nil]
    rw [dif_neg (not_not.mpr h), dif_neg (not_not.mpr hnil), Option.map_none]
  · rw [dif_pos h, dif_pos (fun hnil => h (List.map_eq_nil_iff.mp (hfilter.symm.trans hnil))), Option.map_some]
    exact congrArg some (ComponentPlan.ext rfl hfilter)

lemma keptPart_redact (part : ComponentPlan) (exits : String → Option ℤ) :
    keptPart part.redact exits = (keptPart part exits).map ComponentPlan.redact := by
  rw [keptPart, removedOnBase_redact]
  exact narrow_redact part fun check => by rw [check.redact_id]

lemma keptOnBase_redact (plan : PinnedPlan) (exits : String → String → Option ℤ) :
    keptOnBase plan.redact exits = (redactParts (keptOnBase plan exits).1, (keptOnBase plan exits).2) := by
  have hdesigned : plan.redact.designed = plan.designed := rfl
  have hcomponents : plan.redact.components = redactParts plan.components := rfl
  rw [keptOnBase, keptOnBase, hdesigned, hcomponents]
  split_ifs with h
  · refine Prod.ext ?_ ?_
    · dsimp only
      rw [redactParts, redactParts, Keyed.filterMap, Keyed.filterMap, List.filterMap_map, List.map_filterMap]
      refine List.filterMap_congr fun e _ => ?_
      rw [Function.comp_apply, keptPart_redact, Option.map_map, Option.map_map]
      rfl
    · dsimp only
      rw [redactParts, List.filter_map, List.map_map]
      have hkeep : ((fun e : String × ComponentPlan => (keptPart e.2 (exits e.1)).isNone) ∘
          fun e : String × ComponentPlan => (e.1, e.2.redact)) = fun e => (keptPart e.2 (exits e.1)).isNone := by
        funext e
        rw [Function.comp_apply, keptPart_redact, Option.isNone_map]
      rw [hkeep]
      rfl
  · rfl

lemma contradiction_redact (comp : String) (check : Check) (verdict : Verdict) (code : Option ℤ) (stopped : String) :
    contradiction comp check.redact verdict code stopped = contradiction comp check verdict code stopped := by
  rw [contradiction, contradiction, check.redact_id, check.redact_onBase]

lemma baseErrors_redact (components : List (String × ComponentPlan)) (record : Replay)
    (exits : String → String → Option ℤ) :
    baseErrors (redactParts components) record exits = baseErrors components record exits := by
  rw [baseErrors, baseErrors]
  by_cases h : record.unreplayed = true
  · rw [if_pos h, if_pos h]
  · rw [if_neg h, if_neg h]
    show (components.map fun e => (e.1, e.2.redact)).flatMap _ = _
    rw [List.flatMap_map]
    refine List.flatMap_congr fun e _ => ?_
    show (e.2.checks.map Check.redact).flatMap _ = _
    rw [List.flatMap_map]
    refine List.flatMap_congr fun check _ => ?_
    dsimp only [ComponentPlan.redact]
    rw [check.redact_id, contradiction_redact]
    rfl

lemma notRunnable_redact (components : List (String × ComponentPlan)) (record : Replay)
    (exits : String → String → Option ℤ) :
    notRunnable (redactParts components) record exits = notRunnable components record exits := by
  have hkeep : ∀ e : String × ComponentPlan,
      (e.2.redact.createsApp = true ∧ ∃ check ∈ e.2.redact.checks, verdictOf (exits e.1 check.id) = .notRun) ↔
        (e.2.createsApp = true ∧ ∃ check ∈ e.2.checks, verdictOf (exits e.1 check.id) = .notRun) := by
    intro e
    simp only [ComponentPlan.redact, List.mem_map, exists_exists_and_eq_and, Check.redact_id]
  rw [notRunnable, notRunnable]
  split_ifs with h
  · rfl
  · rw [redactParts, List.filter_map, List.map_map]
    simp only [Function.comp_def, hkeep]

variable {b : BaseEvaluation}

/-- The reading of a redacted base. -/
lemma read_redact : b.redact.read.reading = b.read.reading.redact ∧ b.redact.read.errors = b.read.errors := by
  have hexits : firstExit b.redact.runs = firstExit b.runs := firstExit_redact b.plan.wanted b.runs
  have hkept := keptOnBase_redact b.plan (firstExit b.runs)
  have hplan : b.redact.plan = b.plan.redact := rfl
  have hreplay : b.redact.replay = b.replay := rfl
  rw [BaseEvaluation.read, BaseEvaluation.read, readBase, readBase, hexits, hplan, hkept, hreplay, notRunnable_redact,
    baseErrors_redact]
  exact ⟨rfl, rfl⟩

lemma mem_wanted {plan : PinnedPlan} {comp : String} {part : ComponentPlan} {check : Check}
    (hpart : (comp, part) ∈ plan.components) (hcheck : check ∈ part.checks) : (comp, check) ∈ plan.wanted :=
  List.mem_flatMap.mpr ⟨_, hpart, List.mem_map_of_mem hcheck⟩

/-- What the base keeps of a component is a part of what is planned for it. -/
lemma kept_subset {comp : String} {part kept : ComponentPlan} (hpart : (comp, part) ∈ b.plan.components)
    (hkept : b.read.reading.kept.lookup comp = some kept) : kept.checks ⊆ part.checks := by
  intro check hcheck
  have hmem : check ∈ keptChecks b.plan (firstExit b.runs) comp := by
    rw [keptChecks_eq hkept]
    exact hcheck
  have hplanned := (mem_keptChecks_iff.mp hmem).1
  rwa [PinnedPlan.checksOf, Keyed.lookup_of_mem b.plan.keys_nodup hpart, Option.map_some, Option.getD_some] at hplanned

/-- Whether the base removed a check. -/
lemma removed_redact {comp : String} {part kept : ComponentPlan} {check : Check}
    (hpart : (comp, part) ∈ b.plan.components) (hcheck : check ∈ part.checks)
    (hkept : b.read.reading.kept.lookup comp = some kept) :
    check.redact ∈ kept.redact.checks ↔ check ∈ kept.checks := by
  constructor
  · intro hmem
    obtain ⟨c, hc, heq⟩ := List.mem_map.mp hmem
    have hid : c.id = check.id := by rw [← c.redact_id, heq, check.redact_id]
    rwa [← List.inj_on_of_nodup_map part.ids_nodup (kept_subset hpart hkept hc) hcheck hid]
  · exact fun hmem => List.mem_map_of_mem hmem

lemma removed_lookup_redact {comp : String} {part : ComponentPlan} {check : Check}
    (hpart : (comp, part) ∈ b.plan.components) (hcheck : check ∈ part.checks) :
    (match (redactParts b.read.reading.kept).lookup comp with
      | none => true
      | some part => decide (check.redact ∉ part.checks)) =
      match b.read.reading.kept.lookup comp with
      | none => true
      | some part => decide (check ∉ part.checks) := by
  rw [redactParts, lookup_map_value (fun _ => ComponentPlan.redact) _ fun _ => rfl]
  cases hkept : b.read.reading.kept.lookup comp with
  | none => rfl
  | some kept => exact decide_eq_decide.mpr (not_congr (removed_redact hpart hcheck hkept))

lemma baseRow_redact {comp : String} {part : ComponentPlan} {check : Check} (hpart : (comp, part) ∈ b.plan.components)
    (hcheck : check ∈ part.checks) :
    baseRow b.read.reading.redact b.redact.runs comp check.redact = baseRow b.read.reading b.runs comp check := by
  have htail : ((b.redact.runs.get comp check.redact.id).flatMap fun stage =>
      stage.tail.filter fun _ => !check.redact.heldOut) =
      (b.runs.get comp check.id).flatMap fun stage => stage.tail.filter fun _ => !check.heldOut := by
    rw [check.redact_id, check.redact_heldOut]
    cases hheld : check.heldOut with
    | true =>
        have hnil : ∀ stages : List Stage, (stages.flatMap fun stage => stage.tail.filter fun _ => !true) = [] :=
          fun stages => List.flatMap_eq_nil_iff.mpr fun stage _ => List.filter_eq_nil_iff.mpr fun _ _ => Bool.false_ne_true
        rw [hnil, hnil]
    | false =>
        show ((redactRuns b.plan.wanted b.runs).get comp check.id).flatMap _ = _
        rw [get_redactRuns_visible (mem_wanted hpart hcheck) hheld]
  have hexits : b.read.reading.redact.exits comp check.redact.id = b.read.reading.exits comp check.id := by
    rw [check.redact_id]
    rfl
  rw [baseRow, baseRow, htail, hexits, check.redact_id, check.redact_onBase]
  refine congrArg (fun removed => Json.obj [_, _, _, ("removed", .bool removed), _]) ?_
  exact removed_lookup_redact hpart hcheck

/-- **The base reading is written the same**, under one digest. -/
theorem baseDocument_redact (digest : String) : b.redact.document digest = b.document digest := by
  obtain ⟨hreading, herrors⟩ := read_redact (b := b)
  have hcomponents : (b.redact.plan.components.map fun e => (e.1,
      Json.obj [("base", .str ((b.redact.read.reading.said.lookup e.1).getD "")),
        ("checks", .arr (e.2.checks.map (baseRow b.redact.read.reading b.redact.runs e.1)))])) =
      b.plan.components.map fun e => (e.1,
        Json.obj [("base", .str ((b.read.reading.said.lookup e.1).getD "")),
          ("checks", .arr (e.2.checks.map (baseRow b.read.reading b.runs e.1)))]) := by
    rw [hreading]
    show (redactParts b.plan.components).map _ = _
    rw [redactParts, List.map_map]
    refine List.map_congr_left fun e he => ?_
    have hrows : (e.2.checks.map Check.redact).map (baseRow b.read.reading.redact b.redact.runs e.1) =
        e.2.checks.map (baseRow b.read.reading b.runs e.1) := by
      rw [List.map_map]
      exact List.map_congr_left fun check hcheck => baseRow_redact he hcheck
    exact congrArg (fun rows => (e.1, Json.obj [_, ("checks", .arr rows)])) hrows
  rw [BaseEvaluation.document, BaseEvaluation.document, baseDocument, baseDocument, herrors]
  refine congrArg (fun components => Json.obj [_, _, _, _, _, _, ("components", .obj components), _]) ?_
  exact hcomponents

end Base

/-! ## Two runs -/

/-- What an acceptance run leaves: its base reading, a head of a component and what Phase 3 replayed. -/
structure AcceptanceRun where
  base : BaseEvaluation
  head : Evaluation
  items : List Item

/-- The run without what its held-out checks run, say and print. -/
def AcceptanceRun.redact (r : AcceptanceRun) : AcceptanceRun :=
  ⟨r.base.redact, r.head.redact, r.items.map Item.redact⟩

/-- What an engineer is shown of a run or can read back, with a digest in the place of its own. -/
structure Shown where
  told : List String
  stopped : List String
  rejected : List String
  visibleFailures : List VisibleFailure
  failing : List String × List String
  base : Json

def AcceptanceRun.shown (sha256 : List UInt8 → String) (u : CharTables) (r : AcceptanceRun) (digest : String) : Shown where
  told := toldLines (r.head.record sha256 u) r.head.part.checks
  stopped := stopLines (r.head.record sha256 u)
  rejected := rejectedLines (r.head.record sha256 u)
  visibleFailures := (r.head.record sha256 u).visibleFailures
  failing := failingLines (r.items.map (Item.under digest))
  base := r.base.document digest

/-- What is shown does not change under redaction. -/
lemma shown_redact (sha256 : List UInt8 → String) (u : CharTables) (r : AcceptanceRun) (digest : String) :
    r.redact.shown sha256 u digest = r.shown sha256 u digest := by
  rw [AcceptanceRun.shown, AcceptanceRun.shown]
  show Shown.mk (toldLines (r.head.redact.record sha256 u) r.head.redact.part.checks)
    (stopLines (r.head.redact.record sha256 u)) (rejectedLines (r.head.redact.record sha256 u))
    (r.head.redact.record sha256 u).visibleFailures (failingLines ((r.items.map Item.redact).map (Item.under digest)))
    (r.base.redact.document digest) = _
  rw [toldLines_redact, stopLines_redact, rejectedLines_redact, visible_redact, failingLines_redact, baseDocument_redact]

/-- **Held-out checks stay held out.**  Two runs that differ only in what their held-out checks run, say and print show
an engineer the same, under one plan digest. -/
theorem heldOut_hidden (sha256 : List UInt8 → String) (u : CharTables) {r r' : AcceptanceRun}
    (h : r.redact = r'.redact) (digest : String) : r.shown sha256 u digest = r'.shown sha256 u digest := by
  rw [← shown_redact, h, shown_redact]

/-! ### A run of one held-out check -/

/-- The plan of one check, as it is read. -/
def onePlan (command : String) : PinnedPlan :=
  planOf bytesText (onePlanFiles command) [("c", onePart bytesText command)]

lemma onePlan_read {command : String} (h : planErrors (onePlanJson command) ["c"] = []) :
    readPlan bytesText "d" (onePlanFiles command) ["c"] = .ok (onePlan command) := by
  have hfile : (onePlanFiles command).get planFile = some (onePlanFile command) := by
    simp [Tree.get, onePlanFiles]
  have hparsed : parsed bytesText (onePlanJson command) = some [("c", onePart bytesText command)] := rfl
  rw [readPlan, hfile]
  simp only [onePlanFile_json, h, hparsed]
  rfl

def oneBase (command : String) : BaseEvaluation where
  run := "r"
  plan := onePlan command
  sha := "base"
  replay := { stackDigest := "s1", baseBranch := "main", baseSha := "base" }
  runs := [(("c", "a"), [⟨"acceptance:a", shlexJoin [command], some 1, "", "0.1", [], ""⟩])]

lemma onePart_redact (command command' : String) :
    (onePart bytesText command).redact = (onePart bytesText command').redact := ComponentPlan.ext rfl rfl

lemma onePlan_designed (command : String) : (onePlan command).designed = false := by
  have hget : (onePlanFiles command).get designerFile = none := by
    simp [Tree.get, onePlanFiles, designerFile, planFile]
  rw [onePlan, planOf, hget]
  rfl

lemma onePlan_redact (command command' : String) : (onePlan command).redact = (onePlan command').redact := by
  have hcomponents : redactParts (onePlan command).components = redactParts (onePlan command').components := by
    show [("c", (onePart bytesText command).redact)] = [("c", (onePart bytesText command').redact)]
    rw [onePart_redact command command']
  simp only [PinnedPlan.redact, hcomponents, onePlan_designed]

lemma oneBase_redact (command command' : String) : (oneBase command).redact = (oneBase command').redact := by
  have hruns : ∀ command, redactRuns (oneBase command).plan.wanted (oneBase command).runs =
      [(("c", "a"), [⟨"acceptance:a", "", some 1, "", "0.1", [], ""⟩])] := fun _ => rfl
  have hplan : (oneBase command).plan.redact = (oneBase command').plan.redact := onePlan_redact command command'
  simp only [BaseEvaluation.redact, hruns, hplan]
  rfl

/-- A head where the held-out check fails, and prints what it runs. -/
def oneHead (command : String) : Evaluation where
  plan := onePlan command
  base := ⟨"base", fun _ _ => some 1, [], [("c", onePart bytesText command)]⟩
  part := onePart bytesText command
  comp := "c"
  headSha := "head"
  attempt := 1
  run := "r"
  replay := { stackDigest := "s1", baseBranch := "main", baseSha := "head" }
  runs := [(("c", "a"), List.replicate 3 ⟨"acceptance:a", shlexJoin [command], some 1, "", "0.1", [command], ""⟩)]
  logSha := fun _ _ => command
  overrides := []
  progress := none
  engineerSandbox := ""

def oneRun (command : String) : AcceptanceRun where
  base := oneBase command
  head := oneHead command
  items := [⟨⟨some (onePlan command).digest, "c", oneCheck bytesText command⟩,
    List.replicate 3 ⟨"acceptance:a", shlexJoin [command], some 1, "", "0.1", [command], ""⟩⟩]

lemma oneHead_redact (command command' : String) : (oneHead command).redact = (oneHead command').redact := by
  have hruns : ∀ command, redactRuns (oneHead command).wanted (oneHead command).runs =
      [(("c", "a"), List.replicate 3 ⟨"acceptance:a", "", some 1, "", "0.1", [], ""⟩)] := fun _ => rfl
  have hplan : (oneHead command).plan.redact = (oneHead command').plan.redact := onePlan_redact command command'
  have hpart : (oneHead command).part.redact = (oneHead command').part.redact := onePart_redact command command'
  have hbase : (oneHead command).base.redact = (oneHead command').base.redact := by
    show BaseReading.mk _ _ _ [("c", (onePart bytesText command).redact)] =
      BaseReading.mk _ _ _ [("c", (onePart bytesText command').redact)]
    rw [onePart_redact command command']
    rfl
  simp only [Evaluation.redact, hruns, hplan, hpart, hbase]
  rfl

/-- A held-out check with another argv and another output. -/
theorem heldOut_hidden_first : (oneRun "./a").shown bytesText ⟨Char.isAlphanum, Char.isDigit, PyText.repr⟩ "d" =
    (oneRun "./b").shown bytesText ⟨Char.isAlphanum, Char.isDigit, PyText.repr⟩ "d" := by
  refine heldOut_hidden bytesText _ ?_ "d"
  rw [AcceptanceRun.redact, AcceptanceRun.redact]
  refine congr (congrArg₂ AcceptanceRun.mk (oneBase_redact _ _) (oneHead_redact _ _)) ?_
  simp [oneRun, Item.redact, Check.redact, oneCheck, Stage.redact]

/-! ### The digest is shown -/

lemma onePlanFiles_injective : Function.Injective onePlanFiles := by
  intro command command' h
  have hfile := congrArg (fun t : Tree => (t.get planFile).bind File.json) h
  have hget : ∀ command, ((onePlanFiles command).get planFile).bind File.json = some (onePlanJson command) := fun command => by
    rw [← onePlanFile_json command]
    simp [Tree.get, onePlanFiles]
  simp only [hget] at hfile
  simpa [onePlanJson] using hfile

/-- **The base reading shows the plan's digest**: two plans that differ only in the argv of a held-out check are read
from their files, and their base readings, which differ in nothing else, are written differently. -/
theorem planId_shown :
    readPlan bytesText "d" (onePlanFiles "./a") ["c"] = .ok (oneBase "./a").plan ∧
      readPlan bytesText "d" (onePlanFiles "./b") ["c"] = .ok (oneBase "./b").plan ∧
      (oneBase "./a").redact = (oneBase "./b").redact ∧ (oneBase "./a").written ≠ (oneBase "./b").written := by
  refine ⟨onePlan_read (by decide +kernel), onePlan_read (by decide +kernel), oneBase_redact _ _, fun h => ?_⟩
  have hplanId : ∀ command, (oneBase command).written.get? "planId" = some (.str (digest bytesText (onePlanFiles command))) :=
    fun command => by rfl
  have hdigest := (hplanId "./a").symm.trans ((congrArg (Json.get? · "planId") h).trans (hplanId "./b"))
  have hcommand := onePlanFiles_injective (digest_injective bytesText_injective (Json.str.inj (Option.some.inj hdigest)))
  exact absurd hcommand (by decide)

end Kstrl.Acceptance
