import Kstrl.Acceptance.Replay

/-!
# The base reading

Which checks the base keeps (`kstrl/acceptance/acceptance_base.py`), and the reading of the base with the document it
is written as (`replay_base`, `_base_errors` and `_write_base` of `kstrl/acceptance/acceptance.py`).

* **`removed_iff`**: the base removes a check of a designed plan by the rule `RemovedByBase` alone.
* **`lookup_keptOnBase`**: the checks that every head of a component runs.
* `replayBase_kept` says so of the reading.
-/

namespace Kstrl.Acceptance

def noDesignedCheck : String := "no designed acceptance check"
def baseNotRunnable : String := "base not runnable"

/-- `str` of an exit status. -/
def codeText : Option ℤ → String
  | none => "None"
  | some code => toString code

def exitSaid : Option ℤ → String
  | none => "no exit"
  | some code => "exit " ++ toString code

/-! ## Which checks the base keeps -/

/-- `_why_removed` -/
def whyRemoved (check : Check) (verdict : Verdict) (code : Option ℤ) (holds : Bool) : String :=
  if check.onBase = .fails ∧ verdict = .pass then
    "passes on the base (exit " ++ codeText code ++ "), so it cannot tell the change from no change"
  else if check.onBase = .passes ∧ verdict ≠ .pass ∧ holds then
    (if verdict = .fail then "fails" else "could not run") ++ " on the base (" ++ exitSaid code ++
      "), where it says it passes, so it cannot measure kept behaviour on this base"
  else ""

section Kept

variable (part : ComponentPlan) (exits : String → Option ℤ)

/-- Whether a check of the component fails on the base as it says. -/
def holds : Bool := part.checks.any fun c => c.onBase = .fails ∧ verdictOf (exits c.id) = .fail

/-- `_removed_on_base` -/
def removedOnBase : List String :=
  (part.checks.filter fun check =>
    whyRemoved check (verdictOf (exits check.id)) (exits check.id) (holds part exits) ≠ "").map Check.id

/-- The part with some of its checks, if one is left. -/
def ComponentPlan.narrow (keep : Check → Bool) : Option ComponentPlan :=
  if h : part.checks.filter keep ≠ [] then
    some ⟨part.createsApp, part.checks.filter keep, h, part.ids_nodup.sublist (List.filter_sublist.map _)⟩
  else none

def keptPart : Option ComponentPlan := part.narrow fun check => check.id ∉ removedOnBase part exits

end Kept

/-- `kept_on_base` -/
def keptOnBase (plan : PinnedPlan) (exits : String → String → Option ℤ) :
    List (String × ComponentPlan) × List (String × String) :=
  if plan.designed then
    (Keyed.filterMap (fun comp part => keptPart part (exits comp)) plan.components,
      (plan.components.filter fun e => (keptPart e.2 (exits e.1)).isNone).map fun e => (e.1, noDesignedCheck))
  else (plan.components, [])

/-! ## The rule -/

/-- **When the base removes a designed check**: it passes where it should fail, or it does not pass where it should
and another check of its component fails as it says. -/
def RemovedByBase (checks : List Check) (exits : String → Option ℤ) (check : Check) : Prop :=
  check.onBase = .fails ∧ verdictOf (exits check.id) = .pass ∨
    check.onBase = .passes ∧ verdictOf (exits check.id) ≠ .pass ∧
      ∃ c ∈ checks, c.onBase = .fails ∧ verdictOf (exits c.id) = .fail

lemma holds_iff {part : ComponentPlan} {exits : String → Option ℤ} :
    holds part exits = true ↔ ∃ c ∈ part.checks, c.onBase = .fails ∧ verdictOf (exits c.id) = .fail := by
  simp only [holds, List.any_eq_true, decide_eq_true_eq]

lemma whyRemoved_ne {check : Check} {verdict : Verdict} {code : Option ℤ} {holds : Bool} :
    whyRemoved check verdict code holds ≠ "" ↔
      check.onBase = .fails ∧ verdict = .pass ∨ check.onBase = .passes ∧ verdict ≠ .pass ∧ holds = true := by
  rw [whyRemoved]
  split_ifs with hfails hpasses hverdict
  · exact iff_of_true (append_ne_empty (append_ne_empty (by decide))) (.inl hfails)
  · exact iff_of_true (append_ne_empty (append_ne_empty (append_ne_empty (by decide)))) (.inr hpasses)
  · exact iff_of_true (append_ne_empty (append_ne_empty (append_ne_empty (by decide)))) (.inr hpasses)
  · exact iff_of_false (fun h => h rfl) (not_or_intro hfails hpasses)

/-- **A designed check is removed by the rule alone.** -/
theorem removed_iff {part : ComponentPlan} {exits : String → Option ℤ} {check : Check} (hcheck : check ∈ part.checks) :
    check.id ∈ removedOnBase part exits ↔ RemovedByBase part.checks exits check := by
  have hrule : RemovedByBase part.checks exits check ↔
      whyRemoved check (verdictOf (exits check.id)) (exits check.id) (holds part exits) ≠ "" := by
    rw [whyRemoved_ne, holds_iff]
    rfl
  rw [hrule, removedOnBase, List.mem_map]
  constructor
  · rintro ⟨c, hc, hid⟩
    obtain ⟨hc, hwhy⟩ := List.mem_filter.mp hc
    rw [List.inj_on_of_nodup_map part.ids_nodup hc hcheck hid] at hwhy
    exact of_decide_eq_true hwhy
  · exact fun hwhy => ⟨check, List.mem_filter.mpr ⟨hcheck, decide_eq_true hwhy⟩, rfl⟩

lemma narrow_eq_some {part kept : ComponentPlan} {keep : Check → Bool} (h : part.narrow keep = some kept) :
    kept.checks = part.checks.filter keep := by
  unfold ComponentPlan.narrow at h
  split_ifs at h
  cases h
  rfl

lemma narrow_eq_none {part : ComponentPlan} {keep : Check → Bool} :
    part.narrow keep = none ↔ ∀ check ∈ part.checks, ¬keep check = true := by
  rw [← List.filter_eq_nil_iff]
  unfold ComponentPlan.narrow
  split_ifs with h
  · exact iff_of_false (fun hsome => nomatch hsome) h
  · exact iff_of_true rfl (not_not.mp h)

/-- **What every head of a component runs.** -/
theorem lookup_keptOnBase (plan : PinnedPlan) (exits : String → String → Option ℤ) (comp : String) :
    (keptOnBase plan exits).1.lookup comp =
      if plan.designed then (plan.components.lookup comp).bind fun part => keptPart part (exits comp)
      else plan.components.lookup comp := by
  rw [keptOnBase]
  split_ifs
  · exact Keyed.lookup_filterMap (fun comp part => keptPart part (exits comp)) plan.keys_nodup comp
  · rfl

/-- The planned checks of a component. -/
def PinnedPlan.checksOf (plan : PinnedPlan) (comp : String) : List Check :=
  ((plan.components.lookup comp).map ComponentPlan.checks).getD []

/-- The checks of a component that the base keeps. -/
def keptChecks (plan : PinnedPlan) (exits : String → String → Option ℤ) (comp : String) : List Check :=
  (((keptOnBase plan exits).1.lookup comp).map ComponentPlan.checks).getD []

/-- **Which planned checks the base does not keep**: those of a designed plan that the rule names. -/
theorem mem_keptChecks_iff {plan : PinnedPlan} {exits : String → String → Option ℤ} {comp : String} {check : Check} :
    check ∈ keptChecks plan exits comp ↔ check ∈ plan.checksOf comp ∧
      ¬(plan.designed = true ∧ RemovedByBase (plan.checksOf comp) (exits comp) check) := by
  rw [keptChecks, lookup_keptOnBase, PinnedPlan.checksOf]
  cases hpart : plan.components.lookup comp with
  | none => simp
  | some part =>
      by_cases hdesigned : plan.designed = true
      · rw [if_pos hdesigned, Option.bind_some, Option.map_some, Option.getD_some]
        have hfilter : (((keptPart part (exits comp)).map ComponentPlan.checks).getD []) =
            part.checks.filter fun check => check.id ∉ removedOnBase part (exits comp) := by
          cases hkept : keptPart part (exits comp) with
          | none => exact (List.filter_eq_nil_iff.mpr (narrow_eq_none.mp hkept)).symm
          | some kept => exact narrow_eq_some hkept
        rw [hfilter, List.mem_filter]
        refine and_congr_right fun hcheck => ?_
        rw [decide_eq_true_eq, removed_iff hcheck, and_iff_right hdesigned]
      · rw [if_neg hdesigned, Option.map_some, Option.getD_some]
        exact (and_iff_left fun h => hdesigned h.1).symm

lemma keptChecks_eq {plan : PinnedPlan} {exits : String → String → Option ℤ} {comp : String} {part : ComponentPlan}
    (h : (keptOnBase plan exits).1.lookup comp = some part) : keptChecks plan exits comp = part.checks := by
  rw [keptChecks, h, Option.map_some, Option.getD_some]

/-! ## The reading -/

/-- What the base replay found. -/
structure BaseReading where
  sha : String
  exits : String → String → Option ℤ
  said : List (String × String)
  kept : List (String × ComponentPlan)

/-- `_first_exit` -/
def firstExit (runs : Runs) (comp id : String) : Option ℤ :=
  match runs.get comp id with
  | stage :: _ => stage.exit
  | [] => none

/-- `_contradiction` -/
def contradiction (comp : String) (check : Check) (verdict : Verdict) (code : Option ℤ) (stopped : String) :
    List String :=
  if verdict = .notRun then
    [comp ++ ": the check " ++ check.id ++ " could not run on the base (" ++ exitSaid code ++ ")" ++ stopped]
  else if verdict = .pass ∧ check.onBase = .fails then
    [comp ++ ": the check " ++ check.id ++ " passes on the base, so it cannot tell the change from no change " ++
      "(onBase: fails)"]
  else if verdict = .fail ∧ check.onBase = .passes then
    [comp ++ ": the check " ++ check.id ++ " fails on the base (exit " ++ codeText code ++ "); onBase: passes"]
  else []

section Errors

variable (components : List (String × ComponentPlan)) (record : Replay) (exits : String → String → Option ℤ)

/-- Whether the replay did not get as far as the checks for a reason of its own. -/
def Replay.unreplayed : Bool := record.error ≠ "" ∨ record.failed = replayBoundaryRefused

def Replay.stopped : String :=
  if record.failed = "" then "" else "; the replay stopped at " ++ record.failed ++ ": " ++ record.detail

/-- The components recorded as not runnable on the base. -/
def notRunnable : List String :=
  if record.unreplayed then []
  else (components.filter fun e =>
    e.2.createsApp ∧ ∃ check ∈ e.2.checks, verdictOf (exits e.1 check.id) = .notRun).map Prod.fst

/-- Why the base refuses the plan. -/
def baseErrors : List String :=
  if record.unreplayed then
    ["the acceptance checks could not be replayed on the base: " ++
      if record.error ≠ "" then record.error else record.detail]
  else components.flatMap fun (comp, part) => part.checks.flatMap fun check =>
    let verdict := verdictOf (exits comp check.id)
    if verdict = .notRun ∧ part.createsApp then []
    else contradiction comp check verdict (exits comp check.id) record.stopped

end Errors

def intJson : Option ℤ → Json
  | none => .null
  | some n => .int n

def Replay.isolationJson (record : Replay) : Json := .obj (record.isolation.map fun e => (e.1, .str e.2))

def Replay.replayJson (record : Replay) : Json :=
  .obj [("failed", .str record.failed), ("detail", .str record.detail), ("error", .str record.error)]

/-- A check in the base document.  The output of a held-out one is left out. -/
def baseRow (reading : BaseReading) (runs : Runs) (comp : String) (check : Check) : Json :=
  .obj [("id", .str check.id),
    ("onBase", .str check.onBase.value),
    ("exit", intJson (reading.exits comp check.id)),
    ("removed", .bool (match reading.kept.lookup comp with
      | none => true
      | some part => check ∉ part.checks)),
    ("tail", stringsJson ((runs.get comp check.id).flatMap fun stage =>
      stage.tail.filter fun _ => !check.heldOut))]

/-- The document of `_write_base`. -/
def baseDocument (run : String) (plan : PinnedPlan) (record : Replay) (reading : BaseReading) (runs : Runs)
    (errors : List String) : Json :=
  .obj [("run", .str run),
    ("planId", .str plan.digest),
    ("stackDigest", .str record.stackDigest),
    ("baseSha", .str reading.sha),
    ("isolation", record.isolationJson),
    ("replay", record.replayJson),
    ("components", .obj (plan.components.map fun (comp, part) =>
      (comp, .obj [("base", .str ((reading.said.lookup comp).getD "")),
        ("checks", .arr (part.checks.map (baseRow reading runs comp)))]))),
    ("refused", stringsJson errors)]

/-- The checks of a plan with their components. -/
def PinnedPlan.wanted (plan : PinnedPlan) : List (String × Check) :=
  plan.components.flatMap fun (comp, part) => part.checks.map fun check => (comp, check)

/-- What a replay of the base says. -/
structure BaseReplay where
  record : Replay
  runs : Runs
  reading : BaseReading
  errors : List String

/-- What is read from a replay of the base. -/
def readBase (plan : PinnedPlan) (sha : String) (record : Replay) (runs : Runs) : BaseReplay :=
  let exits := firstExit runs
  let kept := (keptOnBase plan exits).1
  let said := (notRunnable kept record exits).map fun comp => (comp, baseNotRunnable)
  { record, runs, reading := ⟨sha, exits, said ++ (keptOnBase plan exits).2, kept⟩, errors := baseErrors kept record exits }

/-- `replay_base`: the reading of the base, or why the branch did not resolve. -/
def replayBase (w : World) (stack : Stack) (plan : PinnedPlan) (baseBranch : String) :
    Except String (Except String BaseReplay) :=
  match w.resolveBase baseBranch with
  | .error exc => .ok (.error ("the base branch " ++ baseBranch ++ " did not resolve: " ++ exc))
  | .ok sha => (replayStack w stack sha (some (probe w plan.wanted 1))).map fun (record, runs) =>
      .ok (readBase plan sha record runs)

lemma replayBase_kept {w : World} {stack : Stack} {plan : PinnedPlan} {baseBranch : String} {base : BaseReplay}
    (h : replayBase w stack plan baseBranch = .ok (.ok base)) :
    base.reading.kept = (keptOnBase plan base.reading.exits).1 := by
  unfold replayBase at h
  split at h
  · cases h
  · obtain ⟨⟨record, runs⟩, -, hread⟩ := Except.map_eq_ok h
    cases hread
    rfl

end Kstrl.Acceptance
