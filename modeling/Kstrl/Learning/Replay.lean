import Kstrl.Base.SortedSet
import Kstrl.Learning.Ladder
import Mathlib.Data.String.Basic

/-!
# The replay of the ladder

`kstrl/learning/autonomy_replay.py`: what the autonomy ladder would have done over the recorded runs.  Every decisive
run is counted, its merges are fed to the ladder, a run with a failed component demotes, and where nothing stands in
the way of a promotion the simulated level goes up.

The replay moves at most one level a run (`replayRun_cases`), and its counters are those of the runs since the level
last changed (`Holds`).

* **`promotion_earned`**: every promotion that the replay predicts is earned by the runs since the last level change:
  their number, their merges, and above L1 that none of them failed.
* **`replay_report`**: the replay never raises, its final level is the balance of its entries, and eight decisive runs
  stand behind every promotion.
-/

namespace Kstrl

namespace Learning

namespace Replay

/-! ## The recorded runs -/

/-- A row of the experiments, with the columns that the replay reads. -/
structure RunRecord where
  runId : String
  timestamp : String
  project : String
  completed : ℤ
  failed : ℤ
  commonFailure : String
  merged : Option ℤ := none
  cleanMerged : Option ℤ := none

/-- `INFRASTRUCTURE_CHECKS`. -/
def infrastructureChecks : List String :=
  ["provisioning", "aborted", "token_budget", "pr", "diff", "adversarial_budget"]

/-- `_REPLAY_ONLY_PREFIXES`. -/
def replayOnlyPrefixes : List String := ["scope_unreadable:", "git:", "infra:", "timeout:"]

/-- `INFRA_FAILURE_PREFIXES`. -/
def infraFailurePrefixes : List String :=
  (SortedSet.ofList (infrastructureChecks.map (fun check => check ++ ":") ++ replayOnlyPrefixes)).toList

namespace RunRecord

variable (run : RunRecord)

def infraAborted : Bool := infraFailurePrefixes.any fun start => start.toList.isPrefixOf run.commonFailure.toList

def decisive : Bool := if run.infraAborted then false else 0 < run.completed + run.failed

/-- The merges of the run that a human edited. -/
def edits : ℕ := (run.merged.map fun merged => (max (merged - run.cleanMerged.getD 0) 0).toNat).getD 0

/-- The merges of the run as the gates judged them; a row that knows of no merges has none. -/
def cleans : ℕ := (run.merged.map fun _ => (run.cleanMerged.getD 0).toNat).getD 0

end RunRecord

/-! ## The replay -/

/-- The simulated ladder, and the entries of the report so far. -/
structure Simulated where
  state : AutonomyState
  wouldPromote : List String := []
  wouldDemote : List String := []

structure ReplayReport where
  totalRuns : ℕ
  decisiveRuns : ℕ
  infraAbortedRuns : ℕ
  projects : List String
  componentsMerged : ℤ
  mergedInExcludedRuns : ℤ
  mergedUnknownRuns : ℕ
  wouldPromote : List String
  wouldDemote : List String
  finalLevel : ℤ

/-- `sufficient_data`. -/
def ReplayReport.sufficientData (report : ReplayReport) : Bool := minDecisiveRuns ≤ report.decisiveRuns

/-- `_replay_merges`: the edits first. -/
def replayMerges (s : AutonomyState) (run : RunRecord) : AutonomyState :=
  (fun s => s.recordMergedComponent false)^[run.cleans] ((fun s => s.recordMergedComponent true)^[run.edits] s)

/-- A decisive run and its merges are counted. -/
def counted (s : AutonomyState) (run : RunRecord) : AutonomyState := replayMerges (s.recordDecisiveRun 1) run

/-- The line of the report for a level change. -/
def entry (run : RunRecord) (record : Transition) (note : String) : String :=
  run.timestamp ++ " " ++ run.runId ++ ": L" ++ toString record.fromLevel ++ " -> L" ++ toString record.toLevel ++
    " (" ++ note ++ ")"

variable (now : String)

/-- A run with failed components demotes. -/
def demoteFailed (run : RunRecord) (sim : Simulated) : Simulated :=
  if run.failed ≠ 0 ∧ run.infraAborted = false then
    match sim.state.demote now .calibrationRegression
        ("replay: " ++ toString run.failed ++ " component(s) failed in " ++ run.runId) "system" [] with
    | some (record, state) =>
        { sim with state, wouldDemote := sim.wouldDemote ++ [entry run record record.trigger] }
    | none => sim
  else sim

/-- The simulated level goes up where nothing stands in the way. -/
def promoteEligible (run : RunRecord) (sim : Simulated) : Except String Simulated :=
  if sim.state.level ≠ .l4Deploy ∧ sim.state.promotionBlockers sim.state.level.above = [] then
    (sim.state.promote now "replay" ("simulated: criteria met at " ++ run.runId) [] false).map fun promoted =>
      { sim with
        state := promoted.2
        wouldPromote := sim.wouldPromote ++
          [entry run promoted.1 "eligible; human ack still required in reality"] }
  else .ok sim

/-- One run of the loop of `replay`. -/
def replayRun (sim : Simulated) (run : RunRecord) : Except String Simulated :=
  if run.decisive = false then .ok sim
  else promoteEligible now run (demoteFailed now run { sim with state := counted sim.state run })

/-- The loop of `replay`. -/
def replayRuns (runs : List RunRecord) : Except String Simulated :=
  runs.foldlM (replayRun now) { state := { since := now } }

/-- `replay`. -/
def replay (runs : List RunRecord) : Except String ReplayReport :=
  (replayRuns now runs).map fun sim =>
    { totalRuns := runs.length
      decisiveRuns := (runs.filter fun run => run.decisive).length
      infraAbortedRuns := (runs.filter fun run => run.infraAborted).length
      projects := (SortedSet.ofList ((runs.map RunRecord.project).filter (· ≠ ""))).toList
      componentsMerged := ((runs.filter fun run => run.decisive).map fun run => run.merged.getD 0).sum
      mergedInExcludedRuns := ((runs.filter fun run => run.decisive = false).map fun run => run.merged.getD 0).sum
      mergedUnknownRuns := (runs.filter fun run => run.decisive && run.merged.isNone).length
      wouldPromote := sim.wouldPromote
      wouldDemote := sim.wouldDemote
      finalLevel := sim.state.level.value }

/-! ## What the runs earn -/

/-- The decisive runs among some. -/
def decisiveOf (runs : List RunRecord) : List RunRecord := runs.filter fun run => run.decisive

/-- The components that they merged. -/
def mergesOf (runs : List RunRecord) : ℕ :=
  (decisiveOf runs).foldl (fun merges run => merges + (run.edits + run.cleans)) 0

/-- The merges without an edit at their end, where the edits of a run come before its other merges. -/
def streakOf (runs : List RunRecord) : ℕ :=
  (decisiveOf runs).foldl (fun streak run => if run.edits = 0 then streak + run.cleans else run.cleans) 0

/-- None of the decisive ones failed. -/
def NoneFailed (runs : List RunRecord) : Prop := ∀ run ∈ decisiveOf runs, run.failed = 0

/-- The level behind some runs. -/
def levelAfter (runs : List RunRecord) : Except String AutonomyLevel := (replayRuns now runs).map fun sim => sim.state.level

/-- The level is the one it started with, or the last run changed it. -/
def Changed (runs : List RunRecord) : Prop :=
  runs = [] ∨ ∃ before run, runs = before ++ [run] ∧ levelAfter now before ≠ levelAfter now runs

/-- The last run took a level away. -/
def Fell (runs : List RunRecord) : Prop :=
  ∃ before run level, runs = before ++ [run] ∧ levelAfter now before = .ok level ∧
    levelAfter now runs = .ok level.below ∧ level ≠ .l1Supervised

/-- What the runs since the last level change have to show for a promotion from a level. -/
def Meets (level : AutonomyLevel) (since : List RunRecord) : Prop :=
  minDecisiveRuns ≤ (decisiveOf since).length ∧
    match level with
    | .l1Supervised => l2MergedComponentsRequired ≤ mergesOf since
    | .l2GatedMerge => l3CleanMergesRequired ≤ streakOf since ∧ NoneFailed since
    | .l3EnvelopedAuto => l4MergedComponentsRequired ≤ mergesOf since ∧ NoneFailed since
    | .l4Deploy => False

/-! ## One run -/

section Counted

variable (s : AutonomyState) (run : RunRecord)

lemma recordMerged_iterate (edited : Bool) (n : ℕ) :
    (fun s => AutonomyState.recordMergedComponent s edited)^[n] s =
      { s with
        componentsMergedAtLevel := s.componentsMergedAtLevel + n
        cleanMergesAtLevel :=
          if edited = true then if n = 0 then s.cleanMergesAtLevel else 0 else s.cleanMergesAtLevel + n } := by
  induction n with
  | zero => cases edited <;> simp
  | succ n ih =>
      rw [Function.iterate_succ_apply', ih, AutonomyState.recordMergedComponent]
      cases edited <;> simp [Int.add_assoc]

lemma counted_eq :
    counted s run = { s.recordDecisiveRun 1 with
      componentsMergedAtLevel := s.componentsMergedAtLevel + (run.edits + run.cleans : ℕ)
      cleanMergesAtLevel := if run.edits = 0 then s.cleanMergesAtLevel + run.cleans else run.cleans } := by
  rw [counted, replayMerges, recordMerged_iterate, recordMerged_iterate]
  by_cases hedits : run.edits = 0 <;>
    simp [hedits, AutonomyState.recordDecisiveRun, Int.add_assoc]

end Counted

variable {now} {sim sim' : Simulated} {run : RunRecord}

/-- The run takes the level away. -/
structure Falls (sim : Simulated) (run : RunRecord) (sim' : Simulated) : Prop where
  failed : run.failed ≠ 0
  above : sim.state.level ≠ .l1Supervised
  level : sim'.state.level = sim.state.level.below
  reset : sim'.state.CountersReset
  cooldown : sim'.state.cooldownRunsRemaining = demotionCooldownRuns
  promotions : sim'.wouldPromote = sim.wouldPromote
  demotions : sim'.wouldDemote.length = sim.wouldDemote.length + 1

/-- The run takes the level up. -/
structure Rises (sim : Simulated) (run : RunRecord) (sim' : Simulated) : Prop where
  stays : run.failed = 0 ∨ sim.state.level = .l1Supervised
  below : sim.state.level ≠ .l4Deploy
  free : (counted sim.state run).promotionBlockers sim.state.level.above = []
  level : sim'.state.level = sim.state.level.above
  reset : sim'.state.CountersReset
  cooldown : sim'.state.cooldownRunsRemaining = (counted sim.state run).cooldownRunsRemaining
  promotions : sim'.wouldPromote.length = sim.wouldPromote.length + 1
  demotions : sim'.wouldDemote = sim.wouldDemote

lemma counted_level (s : AutonomyState) (run : RunRecord) : (counted s run).level = s.level := by
  rw [counted_eq]
  rfl

/-- A cool-down stands in the way of every promotion. -/
lemma blockers_of_cooldown {s : AutonomyState} (h : 0 < s.cooldownRunsRemaining) (target : AutonomyLevel) :
    s.promotionBlockers target ≠ [] := by
  unfold AutonomyState.promotionBlockers
  rw [if_pos h]
  split_ifs <;> simp

variable (now) in
/-- What nothing stands in the way of is not refused. -/
lemma promote_ok {s : AutonomyState} (hlevel : s.level ≠ .l4Deploy) (hfree : s.promotionBlockers s.level.above = [])
    (runId : String) : ∃ record state, s.promote now "replay" ("simulated: criteria met at " ++ runId) [] false =
      .ok (record, state) ∧ state.level = s.level.above ∧ state.CountersReset ∧
        state.cooldownRunsRemaining = s.cooldownRunsRemaining := by
  have hactor : PyText.isBlank "replay" = false := by decide
  have hack : PyText.isBlank ("simulated: criteria met at " ++ runId) = false := by
    rw [PyText.isBlank, String.toList_append, List.all_append, Bool.and_eq_false_iff]
    exact .inl (by decide)
  have hrefusal : s.promotionRefusal "replay" ("simulated: criteria met at " ++ runId) [] false = none := by
    rw [AutonomyState.promotionRefusal, hactor, hack, hfree]
    simp [hlevel]
  rw [AutonomyState.promote, hrefusal]
  exact ⟨_, _, rfl, rfl, ⟨rfl, rfl, rfl, rfl⟩, rfl⟩

variable (now) in
/-- **One run** leaves the ladder, counts, takes the level away or takes it up. -/
lemma replayRun_cases (sim : Simulated) (run : RunRecord) :
    ∃ sim', replayRun now sim run = .ok sim' ∧
      (run.decisive = false ∧ sim' = sim ∨
        run.decisive = true ∧ (Falls sim run sim' ∨ Rises sim run sim' ∨
          (run.failed = 0 ∨ sim.state.level = .l1Supervised) ∧ sim' = { sim with state := counted sim.state run })) := by
  unfold replayRun
  cases hdecisive : run.decisive with
  | false => exact ⟨sim, if_pos rfl, .inl ⟨rfl, rfl⟩⟩
  | true =>
      have hinfra : run.infraAborted = false := by
        unfold RunRecord.decisive at hdecisive
        by_contra hinfra
        rw [if_pos (eq_true_of_ne_false hinfra)] at hdecisive
        cases hdecisive
      rw [if_neg (by decide)]
      have hlevel := counted_level sim.state run
      by_cases hstays : run.failed = 0 ∨ sim.state.level = .l1Supervised
      · -- no demotion: the level stays, or it goes up
        have hsame : demoteFailed now run { sim with state := counted sim.state run } =
            { sim with state := counted sim.state run } := by
          unfold demoteFailed AutonomyState.demote
          split_ifs with hfailed hl1
          · rfl
          · rcases hstays with hzero | hl1'
            · exact absurd hzero hfailed.1
            · exact absurd (hlevel.trans hl1') hl1
          · rfl
        rw [hsame, promoteEligible]
        split_ifs with heligible
        · obtain ⟨hnot, hfree⟩ := heligible
          obtain ⟨record, state, hpromote, habove, hreset, hcooldown⟩ := promote_ok now hnot hfree run.runId
          rw [hpromote]
          rw [hlevel] at hnot hfree habove
          refine ⟨_, rfl, .inr ⟨rfl, .inr (.inl ?_)⟩⟩
          exact ⟨hstays, hnot, hfree, habove, hreset, hcooldown, by simp, rfl⟩
        · exact ⟨_, rfl, .inr ⟨rfl, .inr (.inr ⟨hstays, rfl⟩)⟩⟩
      · rw [not_or] at hstays
        obtain ⟨hfailed, hl1⟩ := hstays
        have hl1' : (counted sim.state run).level ≠ .l1Supervised := hlevel ▸ hl1
        unfold demoteFailed AutonomyState.demote
        rw [if_pos ⟨hfailed, hinfra⟩, if_neg hl1', promoteEligible, if_neg]
        · refine ⟨_, rfl, .inr ⟨rfl, .inl ?_⟩⟩
          exact ⟨hfailed, hl1, congrArg AutonomyLevel.below hlevel, ⟨rfl, rfl, rfl, rfl⟩, rfl, rfl, by simp⟩
        · rintro ⟨-, hfree⟩
          exact blockers_of_cooldown (show 0 < demotionCooldownRuns by decide) _ hfree

/-! ## The runs since the level changed -/

section Since

lemma replayRuns_concat (runs : List RunRecord) (run : RunRecord) :
    replayRuns now (runs ++ [run]) = (replayRuns now runs).bind fun sim => replayRun now sim run := by
  rw [replayRuns, List.foldlM_append, ← replayRuns]
  cases replayRuns now runs with
  | error message => rfl
  | ok sim =>
      show [run].foldlM (replayRun now) sim = _
      rw [List.foldlM_cons]
      cases hrun : replayRun now sim run <;> simp [Except.bind, hrun]

lemma decisiveOf_concat (since : List RunRecord) {run : RunRecord} (h : run.decisive = true) :
    decisiveOf (since ++ [run]) = decisiveOf since ++ [run] := by
  simp [decisiveOf, h]

lemma decisiveOf_concat_of_not (since : List RunRecord) {run : RunRecord} (h : run.decisive = false) :
    decisiveOf (since ++ [run]) = decisiveOf since := by
  simp [decisiveOf, h]

lemma mergesOf_concat (since : List RunRecord) {run : RunRecord} (h : run.decisive = true) :
    mergesOf (since ++ [run]) = mergesOf since + (run.edits + run.cleans) := by
  simp [mergesOf, decisiveOf_concat since h]

lemma streakOf_concat (since : List RunRecord) {run : RunRecord} (h : run.decisive = true) :
    streakOf (since ++ [run]) = if run.edits = 0 then streakOf since + run.cleans else run.cleans := by
  simp [streakOf, decisiveOf_concat since h]

variable (now) in
/-- The counters are those of the runs since the level changed. -/
structure Holds (earlier since : List RunRecord) (owed : ℤ) (s : AutonomyState) : Prop where
  changed : Changed now earlier
  level : ∀ part, part <+: since → levelAfter now (earlier ++ part) = .ok s.level
  runs : s.decisiveRunsAtLevel = (decisiveOf since).length
  merged : s.componentsMergedAtLevel = mergesOf since
  clean : s.cleanMergesAtLevel = streakOf since
  violations : s.policyViolationsAtLevel = 0
  cooldown : s.cooldownRunsRemaining = max 0 (owed - (decisiveOf since).length)
  fell : Fell now earlier → owed = demotionCooldownRuns
  failed : s.level ≠ .l1Supervised → NoneFailed since

variable {earlier since : List RunRecord} {owed : ℤ} {s : AutonomyState}

lemma levelAfter_concat {sim sim' : Simulated} {past : List RunRecord} (hpast : replayRuns now past = .ok sim)
    (hstep : replayRun now sim run = .ok sim') :
    replayRuns now (past ++ [run]) = .ok sim' ∧ levelAfter now past = .ok sim.state.level ∧
      levelAfter now (past ++ [run]) = .ok sim'.state.level := by
  have hruns : replayRuns now (past ++ [run]) = .ok sim' := by
    rw [replayRuns_concat, hpast]
    exact hstep
  refine ⟨hruns, ?_, ?_⟩
  · rw [levelAfter, hpast]
    rfl
  · rw [levelAfter, hruns]
    rfl

/-- A level change starts the counters again. -/
lemma Holds.start {past : List RunRecord} {sim sim' : Simulated} (hpast : replayRuns now past = .ok sim)
    (hstep : replayRun now sim run = .ok sim') (hne : sim.state.level ≠ sim'.state.level)
    (hreset : sim'.state.CountersReset) (howed : 0 ≤ owed) (hcooldown : sim'.state.cooldownRunsRemaining = owed)
    (hfell : Fell now (past ++ [run]) → owed = demotionCooldownRuns) :
    Holds now (past ++ [run]) [] owed sim'.state := by
  obtain ⟨-, hbefore, hafter⟩ := levelAfter_concat hpast hstep
  obtain ⟨hmerged, hclean, hviolations, hruns⟩ := hreset
  refine ⟨.inr ⟨past, run, rfl, ?_⟩, ?_, hruns, hmerged, hclean, hviolations, ?_, hfell, fun _ => ?_⟩
  · rw [hbefore, hafter]
    exact fun hsame => hne (Except.ok.inj hsame)
  · intro part hpart
    rw [List.prefix_nil.mp hpart, List.append_nil]
    exact hafter
  · rw [hcooldown]
    simp [decisiveOf, howed]
  · exact List.forall_mem_nil _

/-- A run that leaves the level. -/
lemma Holds.stay {past : List RunRecord} {sim sim' : Simulated} (h : Holds now earlier since owed sim.state)
    (hsplit : past = earlier ++ since) (hpast : replayRuns now past = .ok sim)
    (hstep : replayRun now sim run = .ok sim') (hlevel : sim'.state.level = sim.state.level)
    (hruns : sim'.state.decisiveRunsAtLevel = (decisiveOf (since ++ [run])).length)
    (hmerged : sim'.state.componentsMergedAtLevel = mergesOf (since ++ [run]))
    (hclean : sim'.state.cleanMergesAtLevel = streakOf (since ++ [run]))
    (hviolations : sim'.state.policyViolationsAtLevel = 0)
    (hcooldown : sim'.state.cooldownRunsRemaining = max 0 (owed - (decisiveOf (since ++ [run])).length))
    (hfailed : sim.state.level ≠ .l1Supervised → NoneFailed (since ++ [run])) :
    Holds now earlier (since ++ [run]) owed sim'.state := by
  obtain ⟨-, -, hafter⟩ := levelAfter_concat hpast hstep
  refine ⟨h.changed, ?_, hruns, hmerged, hclean, hviolations, hcooldown, h.fell, fun hl1 => hfailed (hlevel ▸ hl1)⟩
  intro part hpart
  rcases List.prefix_concat_iff.mp hpart with rfl | hpart
  · rw [← List.append_assoc, ← hsplit]
    exact hafter
  · rw [hlevel]
    exact h.level part hpart

/-- **The counters are those of the runs since the level changed**, one run on. -/
lemma holds_next {past : List RunRecord} {sim sim' : Simulated} (h : Holds now earlier since owed sim.state)
    (hsplit : past = earlier ++ since) (hpast : replayRuns now past = .ok sim)
    (hstep : replayRun now sim run = .ok sim') :
    ∃ earlier' since' owed', past ++ [run] = earlier' ++ since' ∧ Holds now earlier' since' owed' sim'.state := by
  obtain ⟨sim'', hstep', hcases⟩ := replayRun_cases now sim run
  cases hstep.symm.trans hstep'
  obtain ⟨-, hbefore, hafter⟩ := levelAfter_concat hpast hstep
  rcases hcases with ⟨hnot, rfl⟩ | ⟨hdecisive, hfalls | hrises | ⟨hstays, rfl⟩⟩
  · refine ⟨earlier, since ++ [run], owed, by rw [hsplit, List.append_assoc], ?_⟩
    have hsame := decisiveOf_concat_of_not since hnot
    refine h.stay hsplit hpast hstep rfl ?_ ?_ ?_ h.violations ?_ ?_ <;>
      simp only [mergesOf, streakOf, NoneFailed, hsame]
    · exact h.runs
    · exact h.merged
    · exact h.clean
    · exact h.cooldown
    · exact h.failed
  · refine ⟨past ++ [run], [], demotionCooldownRuns, (List.append_nil _).symm, ?_⟩
    refine Holds.start hpast hstep ?_ hfalls.reset (by decide) hfalls.cooldown fun _ => rfl
    rw [hfalls.level]
    have hne := hfalls.above
    cases hl : sim.state.level <;> first | exact absurd hl hne | decide
  · refine ⟨past ++ [run], [], 0, (List.append_nil _).symm, ?_⟩
    have hbelow := hrises.below
    have hcooldown : sim'.state.cooldownRunsRemaining = 0 := by
      rw [hrises.cooldown]
      have hnone : ¬ 0 < (counted sim.state run).cooldownRunsRemaining := fun hpos =>
        blockers_of_cooldown hpos _ hrises.free
      have hcool := h.cooldown
      rw [counted_eq] at hnone ⊢
      simp only [AutonomyState.recordDecisiveRun] at hnone ⊢
      split_ifs at hnone ⊢ <;> omega
    refine Holds.start hpast hstep ?_ hrises.reset (Int.le_refl 0) hcooldown fun hfell => ?_
    · rw [hrises.level]
      cases hl : sim.state.level <;> first | exact absurd hl hbelow | decide
    · -- the last run took the level up
      obtain ⟨before, last, level, hruns, hwas, his, -⟩ := hfell
      obtain ⟨rfl, -⟩ := List.append_inj' hruns rfl
      rw [hbefore] at hwas
      rw [hafter, ← Except.ok.inj hwas, hrises.level] at his
      have hsame := Except.ok.inj his
      cases hl : sim.state.level <;> rw [hl] at hsame hbelow <;> first | exact absurd rfl hbelow | cases hsame
  · refine ⟨earlier, since ++ [run], owed, by rw [hsplit, List.append_assoc], ?_⟩
    have hcool := h.cooldown
    refine h.stay hsplit hpast hstep (counted_level _ _) ?_ ?_ ?_ ?_ ?_ fun hl1 => ?_
    · simp [counted_eq, AutonomyState.recordDecisiveRun, h.runs, decisiveOf_concat since hdecisive]
    · simp [counted_eq, h.merged, mergesOf_concat since hdecisive]
    · simp only [counted_eq, h.clean, streakOf_concat since hdecisive]
      split_ifs <;> simp
    · simp [counted_eq, AutonomyState.recordDecisiveRun, h.violations]
    · simp only [counted_eq, AutonomyState.recordDecisiveRun, decisiveOf_concat since hdecisive, List.length_append,
        List.length_singleton]
      split_ifs <;> omega
    · intro r hr
      rw [decisiveOf_concat since hdecisive, List.mem_append, List.mem_singleton] at hr
      rcases hr with hr | rfl
      · exact h.failed hl1 r hr
      · exact hstays.resolve_right hl1

variable (now) in
/-- Every replay goes through, and its counters are those of the runs since the level changed. -/
lemma holds_runs (runs : List RunRecord) :
    ∃ sim earlier since owed, replayRuns now runs = .ok sim ∧ runs = earlier ++ since ∧
      Holds now earlier since owed sim.state := by
  induction runs using List.reverseRecOn with
  | nil =>
      refine ⟨_, [], [], 0, rfl, rfl, .inl rfl, ?_, rfl, rfl, rfl, rfl, rfl, ?_, fun _ => List.forall_mem_nil _⟩
      · intro part hpart
        rw [List.prefix_nil.mp hpart]
        rfl
      · rintro ⟨before, run, level, hnil, -⟩
        exact absurd hnil.symm (List.append_ne_nil_of_right_ne_nil _ (List.cons_ne_nil _ _))
  | append_singleton past run ih =>
      obtain ⟨sim, earlier, since, owed, hpast, hsplit, h⟩ := ih
      obtain ⟨sim', hstep, -⟩ := replayRun_cases now sim run
      obtain ⟨earlier', since', owed', hsplit', h'⟩ := holds_next h hsplit hpast hstep
      exact ⟨sim', earlier', since', owed', (levelAfter_concat hpast hstep).1, hsplit', h'⟩

end Since

/-! ## The report -/

/-- Where nothing stands in the way there are the runs, and the merges. -/
lemma free_needs {s : AutonomyState} (hlevel : s.level ≠ .l4Deploy)
    (hfree : s.promotionBlockers s.level.above = []) :
    minDecisiveRuns ≤ s.decisiveRunsAtLevel ∧ s.mergeBlockers s.level.above = [] := by
  have habove := AutonomyLevel.value_above hlevel
  unfold AutonomyState.promotionBlockers at hfree
  rw [if_neg (by omega)] at hfree
  simp only [List.append_eq_nil_iff, ite_eq_right_iff, List.cons_ne_nil, imp_false] at hfree
  obtain ⟨⟨⟨⟨-, -⟩, hdecisive⟩, -⟩, hmerges⟩ := hfree
  exact ⟨Int.not_lt.mp hdecisive, hmerges⟩

/-- What nothing stands in the way of meets its criteria. -/
lemma meets_of_free {s : AutonomyState} {since : List RunRecord} (hlevel : s.level ≠ .l4Deploy)
    (hfree : s.promotionBlockers s.level.above = []) (hruns : s.decisiveRunsAtLevel = (decisiveOf since).length)
    (hmerged : s.componentsMergedAtLevel = mergesOf since) (hclean : s.cleanMergesAtLevel = streakOf since)
    (hfailed : s.level ≠ .l1Supervised → NoneFailed since) : Meets s.level since := by
  obtain ⟨hdecisive, hmerges⟩ := free_needs hlevel hfree
  refine ⟨hruns ▸ hdecisive, ?_⟩
  cases hl : s.level <;> rw [hl] at hmerges hfailed
  · simp only [AutonomyLevel.above, AutonomyState.mergeBlockers, ite_eq_right_iff, List.cons_ne_nil, imp_false,
      hmerged] at hmerges
    exact Int.not_lt.mp hmerges
  · simp only [AutonomyLevel.above, AutonomyState.mergeBlockers, ite_eq_right_iff, List.cons_ne_nil, imp_false,
      hclean] at hmerges
    exact ⟨Int.not_lt.mp hmerges, hfailed (by decide)⟩
  · simp only [AutonomyLevel.above, AutonomyState.mergeBlockers, ite_eq_right_iff, List.cons_ne_nil, imp_false,
      hmerged] at hmerges
    exact ⟨Int.not_lt.mp hmerges, hfailed (by decide)⟩
  · exact hlevel hl

/-- **A promotion of the replay is earned** by the runs since the level last changed. -/
theorem promotion_earned {past : List RunRecord} {level : AutonomyLevel} (hbefore : levelAfter now past = .ok level)
    (hup : levelAfter now (past ++ [run]) = .ok level.above) (hlevel : level ≠ .l4Deploy) :
    run.decisive = true ∧ ∃ earlier since, past = earlier ++ since ∧ Changed now earlier ∧
      (∀ part, part <+: since → levelAfter now (earlier ++ part) = .ok level) ∧ Meets level (since ++ [run]) ∧
      (Fell now earlier → demotionCooldownRuns ≤ (decisiveOf (since ++ [run])).length) := by
  obtain ⟨sim, earlier, since, owed, hpast, hsplit, h⟩ := holds_runs now past
  obtain ⟨sim', hstep, hcases⟩ := replayRun_cases now sim run
  obtain ⟨-, hwas, his⟩ := levelAfter_concat hpast hstep
  obtain rfl : sim.state.level = level := Except.ok.inj (hwas.symm.trans hbefore)
  have hlast : sim'.state.level = sim.state.level.above := Except.ok.inj (his.symm.trans hup)
  have hsame : sim.state.level ≠ sim.state.level.above := by
    intro hsame
    have habove := AutonomyLevel.value_above hlevel
    rw [← hsame] at habove
    omega
  rcases hcases with ⟨-, rfl⟩ | ⟨hdecisive, hfalls | hrises | ⟨-, rfl⟩⟩
  · exact absurd hlast hsame
  · have habove := AutonomyLevel.value_above hlevel
    have hbelow := AutonomyLevel.value_below hfalls.above
    rw [← hlast, hfalls.level] at habove
    omega
  · have hlevel' := counted_level sim.state run
    have hfree := hrises.free
    rw [← hlevel'] at hfree
    refine ⟨hdecisive, earlier, since, hsplit, h.changed, h.level, ?_, fun hfell => ?_⟩
    · rw [← hlevel']
      refine meets_of_free (hlevel' ▸ hlevel) hfree ?_ ?_ ?_ fun hl1 => ?_
      · simp [counted_eq, AutonomyState.recordDecisiveRun, h.runs, decisiveOf_concat since hdecisive]
      · simp [counted_eq, h.merged, mergesOf_concat since hdecisive]
      · simp only [counted_eq, h.clean, streakOf_concat since hdecisive]
        split_ifs <;> simp
      · intro r hr
        rw [decisiveOf_concat since hdecisive, List.mem_append, List.mem_singleton] at hr
        rcases hr with hr | rfl
        · exact h.failed (hlevel' ▸ hl1) r hr
        · exact hrises.stays.resolve_right (hlevel' ▸ hl1)
    · have hcool := h.cooldown
      have hnone : ¬ 0 < (counted sim.state run).cooldownRunsRemaining := fun hpos =>
        blockers_of_cooldown hpos _ hrises.free
      rw [h.fell hfell] at hcool
      simp only [counted_eq, AutonomyState.recordDecisiveRun] at hnone
      rw [decisiveOf_concat since hdecisive, List.length_append, List.length_singleton]
      split_ifs at hnone <;> omega
  · exact absurd ((counted_level _ _).symm.trans hlast) hsame

/-- The balance of the entries, and the runs behind the promotions. -/
lemma balance {runs : List RunRecord} {sim : Simulated} (h : replayRuns now runs = .ok sim) :
    sim.state.level.value = 1 + sim.wouldPromote.length - sim.wouldDemote.length ∧ 0 ≤ sim.state.decisiveRunsAtLevel ∧
      minDecisiveRuns * sim.wouldPromote.length + sim.state.decisiveRunsAtLevel ≤ (decisiveOf runs).length := by
  induction runs using List.reverseRecOn generalizing sim with
  | nil =>
      cases h
      exact ⟨rfl, Int.le_refl 0, Int.le_refl 0⟩
  | append_singleton past run ih =>
      rw [replayRuns_concat] at h
      obtain ⟨before, hpast, hstep⟩ := Except.bind_eq_ok h
      obtain ⟨hlevel, hpos, hruns⟩ := ih hpast
      obtain ⟨after, hstep', hcases⟩ := replayRun_cases now before run
      cases hstep'.symm.trans hstep
      rcases hcases with ⟨hnot, rfl⟩ | ⟨hdecisive, hcases⟩
      · rw [decisiveOf_concat_of_not past hnot]
        exact ⟨hlevel, hpos, hruns⟩
      rw [decisiveOf_concat past hdecisive, List.length_append, List.length_singleton]
      have hcounted : (counted before.state run).decisiveRunsAtLevel = before.state.decisiveRunsAtLevel + 1 := by
        rw [counted_eq]
        rfl
      rcases hcases with hfalls | hrises | ⟨-, rfl⟩
      · obtain ⟨-, -, -, hzero⟩ := hfalls.reset
        have hbelow := AutonomyLevel.value_below hfalls.above
        rw [hfalls.level, hbelow, hfalls.promotions, hfalls.demotions, hzero]
        exact ⟨by omega, Int.le_refl 0, by omega⟩
      · obtain ⟨-, -, -, hzero⟩ := hrises.reset
        have habove := AutonomyLevel.value_above hrises.below
        have hfree := hrises.free
        rw [← counted_level before.state run] at hfree
        have hneed := (free_needs ((counted_level _ _).trans_ne hrises.below) hfree).1
        rw [hcounted] at hneed
        rw [hrises.level, habove, hrises.promotions, hrises.demotions, hzero]
        refine ⟨by omega, Int.le_refl 0, ?_⟩
        rw [Nat.cast_add, Int.mul_add]
        omega
      · rw [hcounted, counted_level]
        refine ⟨hlevel, by omega, ?_⟩
        show minDecisiveRuns * (before.wouldPromote.length : ℤ) + _ ≤ _
        omega

variable (now) in
/-- **The report of every history**: the replay goes through, the entries add up to the final level, and eight decisive
runs stand behind every promotion, so that a report on too few runs predicts nothing. -/
theorem replay_report (runs : List RunRecord) :
    ∃ report, replay now runs = .ok report ∧
      report.finalLevel = 1 + report.wouldPromote.length - report.wouldDemote.length ∧
      minDecisiveRuns * report.wouldPromote.length ≤ report.decisiveRuns ∧
      (report.sufficientData = false → report.wouldPromote = [] ∧ report.wouldDemote = [] ∧ report.finalLevel = 1) := by
  obtain ⟨sim, -, -, -, hsim, -⟩ := holds_runs now runs
  obtain ⟨hlevel, hpos, hruns⟩ := balance hsim
  have hbounds := AutonomyLevel.value_bounds sim.state.level
  have hdecisive : ((runs.filter fun run => run.decisive).length : ℤ) = (decisiveOf runs).length := rfl
  rw [replay, hsim]
  refine ⟨_, rfl, hlevel, ?_, fun hfew => ?_⟩
  · show minDecisiveRuns * (sim.wouldPromote.length : ℤ) ≤ (decisiveOf runs).length
    omega
  · have hfew : ¬ minDecisiveRuns ≤ ((decisiveOf runs).length : ℤ) := of_decide_eq_false hfew
    have hnone : sim.wouldPromote.length = 0 := by
      by_contra hsome
      have hone : (1 : ℤ) ≤ sim.wouldPromote.length := by omega
      have hmul : minDecisiveRuns * 1 ≤ minDecisiveRuns * (sim.wouldPromote.length : ℤ) :=
        Int.mul_le_mul_of_nonneg_left hone (by decide)
      omega
    have hnone' : sim.wouldDemote.length = 0 := by omega
    exact ⟨List.length_eq_zero_iff.mp hnone, List.length_eq_zero_iff.mp hnone', by
      show sim.state.level.value = 1
      omega⟩

/-! ### A promotion -/

/-- A run in which one component is merged. -/
def mergedRun (failed : ℤ) : RunRecord where
  runId := "run"
  timestamp := "2026-01-01T00:00:00Z"
  project := "api"
  completed := 1
  failed := failed
  commonFailure := ""
  merged := some 1
  cleanMerged := some 1

/-- **Eight runs earn L2**, whether or not they failed. -/
theorem promotion_earned_l2 :
    levelAfter "" (List.replicate 7 (mergedRun 1)) = .ok .l1Supervised ∧
      (mergedRun 0).decisive = true ∧ ∃ earlier since, List.replicate 7 (mergedRun 1) = earlier ++ since ∧
        Changed "" earlier ∧ (∀ part, part <+: since → levelAfter "" (earlier ++ part) = .ok .l1Supervised) ∧
        Meets .l1Supervised (since ++ [mergedRun 0]) ∧
        (Fell "" earlier → demotionCooldownRuns ≤ (decisiveOf (since ++ [mergedRun 0])).length) := by
  have hbefore : levelAfter "" (List.replicate 7 (mergedRun 1)) = .ok .l1Supervised := by decide +kernel
  have hup : levelAfter "" (List.replicate 7 (mergedRun 1) ++ [mergedRun 0]) = .ok .l2GatedMerge := by decide +kernel
  exact ⟨hbefore, promotion_earned hbefore hup (by decide)⟩

end Replay

end Learning

end Kstrl
