import Kstrl.Base.Runs
import Kstrl.Learning.Autonomy
import Kstrl.Owner.Waivers
import Kstrl.Plan.Manifest

/-!
# Level changes from several processes

The end of a factory run (`_record_autonomy_outcome` of `kstrl/factory/factory_autonomy.py`, with
`apply_demotion` and `commit_transition` of `kstrl/learning/autonomy_transitions.py`) and the operator's
`ks autonomy promote`, `promote --force` and `demote` (`kstrl/cli/cli_learning.py`), each a process that loads
the ladder state, changes it and saves it.  A save is atomic, what lies between a load and a save is not.

What the processes read elsewhere is given with the command or the run: the terminal, the place of the control
state, the entry signals, the health breaches.  The journal, the event stream and the inbox are left out.

* **`World.next`** is the system.
* **`history_grows`**: in a run whose saves find the history their process loaded, the stored history is the
  one of the start with every reported level change behind it.
* **`transitions_kept`** says so of each level change, and of the level.
* `stale_save_drops_demotion` is a run that loses a demotion.
-/

namespace Kstrl

namespace Learning

open Runs

/-! ## What a run demonstrated -/

/-- Why a merge counts as clean or not. -/
inductive MergeVerdict where
  | clean
  | edited
  | headUnknown
  deriving DecidableEq, Repr

/-- A breach of a control limit. -/
structure HealthBreach where
  metric : String
  rule : String
  value : String
  limit : String
  windowRuns : ℤ

/-- The end of a run, as the ladder reads it. -/
structure RunEnd where
  manifest : Manifest
  /-- `FactoryResult.completed` -/
  completed : List String
  /-- `FactoryResult.failed` -/
  failed : List String
  /-- `FactoryResult.merged`: the component, and the head GitHub merged -/
  merged : List (String × String)
  /-- the level the run operated at -/
  runLevel : AutonomyLevel
  runId : String
  demoteOnHealthBreach : Bool
  /-- `health_breaches` -/
  breaches : List HealthBreach

namespace RunEnd

variable (e : RunEnd)

/-- `by_id`: of two components with one id the later one. -/
def byId (componentId : String) : Option Component := e.manifest.components.reverse.find? (·.id = componentId)

/-- `classify_merges`. -/
def classifyMerges : List (String × MergeVerdict) :=
  e.merged.map fun merge =>
    let judgedSha := ((e.byId merge.1).map (·.judgedSha)).getD ""
    (merge.1,
      if judgedSha = "" ∨ merge.2 = "" then .headUnknown
      else if judgedSha = merge.2 then .clean
      else .edited)

/-- `_infra_casualty`. -/
def infraCasualty (componentId : String) : Bool :=
  (e.byId componentId).any fun c => c.findings.any Finding.isInfrastructureError

/-- A verdict about the judgement of the factory. -/
def decisive : Bool := e.completed ≠ [] ∨ e.failed.any fun componentId => !e.infraCasualty componentId

/-- The components with a policy finding. -/
def violations : List String :=
  (e.manifest.components.filter fun c => c.findings.any fun f =>
    Owner.policyCategoryPrefix.toList.isPrefixOf f.category.toList && f.severity ≠ "advisory").map (·.id)

/-- `HITL_REJECT_CHECK` and `PR_CLOSED_CHECK`. -/
def humanRejectionChecks : List String := ["hitl_reject", "pr_closed"]

/-- `_human_rejections`. -/
def humanRejections : List String :=
  if e.runLevel.value < AutonomyLevel.l3EnvelopedAuto.value then []
  else
    ((e.failed.filter fun componentId =>
      (e.byId componentId).any fun c => c.failedCheck ∈ humanRejectionChecks).dedup).insertionSort (· ≤ ·)

end RunEnd

/-! ## The three changes -/

namespace AutonomyState

variable (s : AutonomyState)

/-- `apply_demotion`: the level change, where there is one, and the state that is saved. -/
def applyDemotion (now : String) (trigger : DemotionTrigger) (reason : String) (evidence : List (String × Json)) :
    Option Transition × AutonomyState :=
  match s.demote now trigger reason "system" evidence with
  | none => (none, s)
  | some (record, demoted) => (some record, demoted)

/-- `_demote_once`; with nothing to demote for, the state is saved as it is. -/
def demoteOnce (now : String) (e : RunEnd) : Option Transition × AutonomyState :=
  let violations := e.violations.insertionSort (· ≤ ·)
  if violations ≠ [] then
    s.applyDemotion now .policyViolation ("policy violation in " ++ String.intercalate ", " violations)
      ([("components", .arr (violations.map .str)), ("run_id", .str e.runId)] ++
        if e.humanRejections = [] then [] else [("human_rejected", .arr (e.humanRejections.map .str))])
  else if e.humanRejections ≠ [] then
    s.applyDemotion now .humanRejectedAutoMerge
      ("a human rejected " ++ String.intercalate ", " e.humanRejections ++ " at L3 or above")
      [("components", .arr (e.humanRejections.map .str)), ("run_id", .str e.runId)]
  else (none, s)

/-- The counters of `_record_autonomy_outcome`. -/
def recordEvidence (e : RunEnd) : AutonomyState :=
  let afterRun := if e.decisive then s.recordDecisiveRun 1 else s
  let afterMerges :=
    e.classifyMerges.foldl (fun s merge => s.recordMergedComponent (merge.2 ≠ .clean)) afterRun
  if e.violations ≠ [] then afterMerges.recordPolicyViolation e.violations.length else afterMerges

/-- Whether `_record_health_breaches` demotes. -/
def demotesOnHealth (e : RunEnd) : Bool :=
  e.breaches ≠ [] ∧ e.demoteOnHealthBreach ∧ s.cooldownRunsRemaining ≤ 0

def HealthBreach.document (b : HealthBreach) : Json :=
  .obj [("metric", .str b.metric), ("rule", .str b.rule), ("value", .float b.value), ("limit", .float b.limit),
    ("window_runs", .int b.windowRuns)]

/-- The demotion of `_record_health_breaches`. -/
def demoteOnHealth (now : String) (e : RunEnd) : Option Transition × AutonomyState :=
  s.applyDemotion now .healthBreach
    ((e.breaches.head?.map fun first => first.metric ++ ": " ++ first.rule).getD "")
    [("breaches", .arr (e.breaches.map HealthBreach.document)), ("run_id", .str e.runId)]

end AutonomyState

/-- `ks autonomy promote`. -/
structure PromoteCommand where
  actor : String
  ack : String
  force : Bool
  /-- `promotion_authority_error` found a terminal -/
  interactive : Bool
  /-- `control_relocation_error` -/
  relocationError : AutonomyLevel → Option String
  /-- `entry_signal_blockers` -/
  signalBlockers : AutonomyLevel → List String

/-- Why the command stops before it saves. -/
def PromoteCommand.refusal (c : PromoteCommand) (s : AutonomyState) : Option String :=
  match c.relocationError s.level.above with
  | some error => some error
  | none => s.promotionRefusal c.actor c.ack (c.signalBlockers s.level) c.force

/-- What the command records and saves. -/
def PromoteCommand.promote (c : PromoteCommand) (now : String) (s : AutonomyState) :
    Option (Transition × AutonomyState) :=
  match c.relocationError s.level.above with
  | some _ => none
  | none =>
      match s.promote now c.actor c.ack (c.signalBlockers s.level) c.force with
      | .ok committed => some committed
      | .error _ => none

/-! ## The system -/

/-- A process that has loaded the state. -/
inductive Process where
  | promoting (command : PromoteCommand) (state : AutonomyState)
  | demoting (trigger : DemotionTrigger) (reason : String) (state : AutonomyState)
  /-- the end of a run, before its first save -/
  | recording (e : RunEnd) (state : AutonomyState)
  /-- the end of a run, before `_record_health_breaches` -/
  | checkingHealth (e : RunEnd) (state : AutonomyState)
  | ended

/-- What a process does up to its next save. -/
structure Effect where
  /-- the state it saves -/
  saved : Option AutonomyState
  /-- the level change it reports -/
  reported : Option Transition
  next : Process

/-- It ends, and saves nothing. -/
def Effect.nothing : Effect := { saved := none, reported := none, next := .ended }

/-- It saves a level change, reports it and ends, where there is one. -/
def Effect.ofCommand : Option (Transition × AutonomyState) → Effect
  | some committed => { saved := some committed.2, reported := some committed.1, next := .ended }
  | none => .nothing

namespace Process

/-- The state the process holds. -/
def state? : Process → Option AutonomyState
  | promoting _ state | demoting _ _ state | recording _ state | checkingHealth _ state => some state
  | ended => none

/-- From the load, or the last save, to the next save. -/
def effect (now : String) : Process → Effect
  | promoting command state => .ofCommand (command.promote now state)
  | demoting trigger reason state => .ofCommand (state.demote now trigger reason "operator" [])
  | recording e state =>
      let committed := (state.recordEvidence e).demoteOnce now e
      { saved := some committed.2, reported := committed.1, next := checkingHealth e committed.2 }
  | checkingHealth e state =>
      if state.demotesOnHealth e then
        let committed := state.demoteOnHealth now e
        { saved := some committed.2, reported := committed.1, next := ended }
      else .nothing
  | ended => .nothing

end Process

structure World where
  file : LadderFile
  processes : List Process := []
  /-- the level changes that were reported, in the order of their saves -/
  reported : List Transition := []

namespace World

inductive Action where
  | promote (now : String) (command : PromoteCommand)
  | demote (now : String) (trigger : DemotionTrigger) (reason : String)
  | runEnd (now : String) (e : RunEnd)
  /-- a process goes on to its next save -/
  | save (process : ℕ) (now : String)
  /-- a process ends early -/
  | stop (process : ℕ)

variable (path : String) (w : World)

/-- A process that has just loaded the state. -/
def start (now : String) (p : AutonomyState → Process) : World :=
  { w with processes := w.processes ++ [p (.load path now w.file)] }

/-- One step; `none` where it is not the step's turn. -/
def next : Action → Option World
  | .promote now command => some (if command.interactive then w.start path now (.promoting command) else w)
  | .demote now trigger reason => some (w.start path now (.demoting trigger reason))
  | .runEnd now e => some (w.start path now (.recording e))
  | .save process now =>
      (w.processes[process]?).map fun p =>
        let effect := p.effect now
        { file := (effect.saved.map fun state => state.save w.file).getD w.file
          processes := w.processes.set process effect.next
          reported := w.reported ++ effect.reported.toList }
  | .stop process => some { w with processes := w.processes.set process .ended }

/-- The transition relation. -/
def Step (w : World) (a : Action) (w' : World) : Prop := w.next path a = some w'

end World

/-! ## A save that finds what was loaded -/

/-- A process that saves finds the history it holds, and a promotion does not go over a record that `load`
refused. -/
def Process.Fresh (file : LadderFile) : Process → Prop
  | .promoting command state =>
      command.refusal state = none → state.history = file.history ∧ state.degradedReason = none
  | .demoting _ _ state => state.level ≠ .l1Supervised → state.history = file.history
  | .recording _ state => state.history = file.history
  | .checkingHealth e state => state.demotesOnHealth e → state.history = file.history
  | .ended => True

/-- Every save of the step is fresh. -/
def World.Fresh (w : World) : World.Action → Prop
  | .save process _ => ∀ p ∈ w.processes[process]?, p.Fresh w.file
  | _ => True

/-! ## The level changes of a state -/

/-- The level after level changes, from the level `start`. -/
def levelAfter (start : ℤ) (records : List Transition) : ℤ := ((records.getLast?).map (·.toLevel)).getD start

@[simp] lemma levelAfter_concat (start : ℤ) (records : List Transition) (record : Transition) :
    levelAfter start (records ++ [record]) = record.toLevel := by
  rw [levelAfter, List.getLast?_concat]
  rfl

/-- The history and the level are those of `file` with `records` behind. -/
structure Follows (file : LadderFile) (history : List Transition) (level : AutonomyLevel)
    (records : List Transition) : Prop where
  history : history = file.history ++ records
  level : level.value = levelAfter file.level.value records

/-- `s'` is `s` with counters changed, or with the one level change `record` behind. -/
structure Extends (s s' : AutonomyState) (record : Option Transition) : Prop where
  history : s'.history = s.history ++ record.toList
  level : s'.level.value = levelAfter s.level.value record.toList
  degraded : s'.degradedReason = s.degradedReason

lemma Extends.same {s s' : AutonomyState} (hhistory : s'.history = s.history) (hlevel : s'.level = s.level)
    (hdegraded : s'.degradedReason = s.degradedReason) : Extends s s' none where
  history := by rw [hhistory, Option.toList_none, List.append_nil]
  level := by
    rw [hlevel]
    rfl
  degraded := hdegraded

/-- A change behind a change of counters. -/
lemma Extends.of_same {s s' s'' : AutonomyState} {record : Option Transition} (h : Extends s s' none)
    (h' : Extends s' s'' record) : Extends s s'' record where
  history := by rw [h'.history, h.history, Option.toList_none, List.append_nil]
  level := by
    have hlevel : s'.level.value = s.level.value := h.level
    rw [h'.level, hlevel]
  degraded := h'.degraded.trans h.degraded

namespace AutonomyState

variable {s s' : AutonomyState} {now : String} {e : RunEnd}

lemma applyDemotion_extends (trigger : DemotionTrigger) (reason : String) (evidence : List (String × Json)) :
    Extends s (s.applyDemotion now trigger reason evidence).2 (s.applyDemotion now trigger reason evidence).1 := by
  unfold applyDemotion
  cases hdemote : s.demote now trigger reason "system" evidence with
  | none => exact Extends.same rfl rfl rfl
  | some committed =>
      obtain ⟨hhistory, hlevel, hdegraded⟩ := demote_history hdemote
      exact ⟨hhistory, hlevel, hdegraded⟩

/-- There is no level to revoke at L1. -/
lemma applyDemotion_l1 (h : s.level = .l1Supervised) (trigger : DemotionTrigger) (reason : String)
    (evidence : List (String × Json)) : s.applyDemotion now trigger reason evidence = (none, s) := by
  rw [applyDemotion, demote, if_pos h]

lemma demoteOnce_extends : Extends s (s.demoteOnce now e).2 (s.demoteOnce now e).1 := by
  unfold demoteOnce
  dsimp only
  split
  · exact applyDemotion_extends _ _ _
  · split
    · exact applyDemotion_extends _ _ _
    · exact Extends.same rfl rfl rfl

lemma demoteOnce_l1 (h : s.level = .l1Supervised) : (s.demoteOnce now e).1 = none := by
  unfold demoteOnce
  dsimp only
  split
  · rw [applyDemotion_l1 h]
  · split
    · rw [applyDemotion_l1 h]
    · rfl

/-- Merges change counters alone. -/
lemma recordMerges_extends (merges : List (String × MergeVerdict)) :
    Extends s (merges.foldl (fun s merge => s.recordMergedComponent (merge.2 ≠ .clean)) s) none := by
  induction merges generalizing s with
  | nil => exact Extends.same rfl rfl rfl
  | cons merge rest ih =>
      have hfirst : Extends s (s.recordMergedComponent (merge.2 ≠ .clean)) none := Extends.same rfl rfl rfl
      exact hfirst.of_same ih

/-- What a run demonstrated changes counters alone. -/
lemma recordEvidence_extends : Extends s (s.recordEvidence e) none := by
  have hrun : Extends s (if e.decisive then s.recordDecisiveRun 1 else s) none := by
    split_ifs <;> exact Extends.same rfl rfl rfl
  have hmerges := hrun.of_same (recordMerges_extends e.classifyMerges)
  by_cases hviolations : e.violations ≠ []
  · rw [recordEvidence, if_pos hviolations]
    exact hmerges.of_same (Extends.same rfl rfl rfl)
  · rw [recordEvidence, if_neg hviolations]
    exact hmerges

lemma recordEvidence_l1 (h : s.level = .l1Supervised) : (s.recordEvidence e).level = .l1Supervised := by
  have hvalue : (s.recordEvidence e).level.value = s.level.value := recordEvidence_extends.level
  rw [h] at hvalue
  exact AutonomyLevel.value_injective hvalue

end AutonomyState

namespace PromoteCommand

variable {command : PromoteCommand} {s s' : AutonomyState} {now : String} {record : Transition}

/-- A promotion that is saved was not refused. -/
lemma promote_eq_some (h : command.promote now s = some (record, s')) :
    command.refusal s = none ∧ Extends s s' (some record) := by
  unfold promote at h
  unfold refusal
  cases hrelocation : command.relocationError s.level.above with
  | some error =>
      rw [hrelocation] at h
      cases h
  | none =>
      rw [hrelocation] at h
      cases hpromote : s.promote now command.actor command.ack (command.signalBlockers s.level) command.force with
      | error refusal =>
          simp only [hpromote] at h
          cases h
      | ok committed =>
          simp only [hpromote] at h
          cases h
          obtain ⟨hhistory, hlevel, hdegraded⟩ := AutonomyState.promote_history hpromote
          refine ⟨?_, hhistory, hlevel, hdegraded⟩
          unfold AutonomyState.promote at hpromote
          cases hrefusal : s.promotionRefusal command.actor command.ack (command.signalBlockers s.level)
            command.force with
          | none => rfl
          | some refusal =>
              rw [hrefusal] at hpromote
              cases hpromote

end PromoteCommand

/-! ## One step -/

/-- What a process does to the state it holds. -/
structure Effect.Of (s : AutonomyState) (effect : Effect) : Prop where
  /-- only a process that saves reports a level change -/
  silent : effect.saved = none → effect.reported = none
  saved : ∀ s', effect.saved = some s' → Extends s s' effect.reported
  /-- a process goes on with the state it saved -/
  held : ∀ s', effect.next.state? = some s' → effect.saved = some s'

lemma Effect.of_nothing (s : AutonomyState) : Effect.Of s .nothing where
  silent _ := rfl
  saved _ h := by cases h
  held _ h := by cases h

/-- The end of a process that saves. -/
lemma Effect.of_saved {s s' : AutonomyState} {record : Option Transition} {p : Process} (h : Extends s s' record)
    (hp : ∀ u, p.state? = some u → s' = u) : Effect.Of s { saved := some s', reported := record, next := p } where
  silent hnone := by cases hnone
  saved _ hsaved := by
    cases hsaved
    exact h
  held u hu := congrArg some (hp u hu)

lemma Effect.of_command {s : AutonomyState} {committed : Option (Transition × AutonomyState)}
    (h : ∀ record s', committed = some (record, s') → Extends s s' (some record)) :
    Effect.Of s (.ofCommand committed) := by
  cases committed with
  | none => exact Effect.of_nothing s
  | some committed => exact Effect.of_saved (h _ _ rfl) nofun

namespace Process

variable {p : Process} {s : AutonomyState} {file : LadderFile} {now : String}

/-- **What each process does.** -/
lemma effect_of (h : p.state? = some s) : Effect.Of s (p.effect now) := by
  cases p with
  | promoting command state =>
      cases h
      exact Effect.of_command fun _ _ hcommitted => (PromoteCommand.promote_eq_some hcommitted).2
  | demoting trigger reason state =>
      cases h
      refine Effect.of_command fun record s' hcommitted => ?_
      obtain ⟨hhistory, hlevel, hdegraded⟩ := AutonomyState.demote_history hcommitted
      exact ⟨hhistory, hlevel, hdegraded⟩
  | recording e state =>
      cases h
      exact Effect.of_saved (AutonomyState.recordEvidence_extends.of_same AutonomyState.demoteOnce_extends)
        fun _ hu => Option.some.inj hu
  | checkingHealth e state =>
      cases h
      by_cases hdemotes : s.demotesOnHealth e
      · rw [effect, if_pos hdemotes]
        exact Effect.of_saved (AutonomyState.applyDemotion_extends _ _ _) nofun
      · rw [effect, if_neg hdemotes]
        exact Effect.of_nothing s
  | ended => cases h

/-- A process whose save is fresh finds the history it holds. -/
lemma history_of_fresh (h : p.state? = some s) (hfresh : p.Fresh file) (hsaved : (p.effect now).saved ≠ none) :
    s.history = file.history := by
  cases p with
  | promoting command state =>
      cases h
      cases hpromote : command.promote now s with
      | none =>
          rw [effect, hpromote] at hsaved
          exact absurd rfl hsaved
      | some committed => exact (hfresh (PromoteCommand.promote_eq_some hpromote).1).1
  | demoting trigger reason state =>
      cases h
      refine hfresh fun hlevel => hsaved ?_
      rw [effect, AutonomyState.demote, if_pos hlevel]
      rfl
  | recording e state =>
      cases h
      exact hfresh
  | checkingHealth e state =>
      cases h
      by_cases hdemotes : s.demotesOnHealth e
      · exact hfresh hdemotes
      · rw [effect, if_neg hdemotes] at hsaved
        exact absurd rfl hsaved
  | ended => cases h

/-- A level change over a record that `load` refused is not reported. -/
lemma stored_of_reported (h : p.state? = some s) (hfresh : p.Fresh file)
    (hlevel : s.degradedReason ≠ none → s.level = .l1Supervised) (hreported : (p.effect now).reported ≠ none) :
    s.degradedReason = none := by
  by_contra hdegraded
  have hl1 := hlevel hdegraded
  refine hreported ?_
  cases p with
  | promoting command state =>
      cases h
      cases hpromote : command.promote now s with
      | none =>
          rw [effect, hpromote]
          rfl
      | some committed => exact absurd (hfresh (PromoteCommand.promote_eq_some hpromote).1).2 hdegraded
  | demoting trigger reason state =>
      cases h
      rw [effect, AutonomyState.demote, if_pos hl1]
      rfl
  | recording e state =>
      cases h
      exact AutonomyState.demoteOnce_l1 (AutonomyState.recordEvidence_l1 hl1)
  | checkingHealth e state =>
      cases h
      by_cases hdemotes : s.demotesOnHealth e
      · rw [effect, if_pos hdemotes, AutonomyState.demoteOnHealth, AutonomyState.applyDemotion_l1 hl1]
      · rw [effect, if_neg hdemotes]
        rfl
  | ended => cases h

end Process

lemma Follows.of_extends {file : LadderFile} {s s' : AutonomyState} {records : List Transition}
    {record : Option Transition} (h : Follows file s.history s.level records) (h' : Extends s s' record) :
    Follows file s'.history s'.level (records ++ record.toList) where
  history := by rw [h'.history, h.history, List.append_assoc]
  level := by
    rw [h'.level, h.level]
    cases record with
    | none => rw [Option.toList_none, List.append_nil]; rfl
    | some record => rw [Option.toList_some, levelAfter_concat]; rfl

namespace World

variable {path : String} {file : LadderFile} {w w' : World}

/-- The start: a file, and no process. -/
def init (file : LadderFile) : World := { file := file }

/-- **The invariant.** -/
structure Inv (file : LadderFile) (w : World) : Prop where
  /-- the stored record has every reported level change behind the one of the start -/
  stored : Follows file w.file.history w.file.level w.reported
  /-- a process holds a record that was stored once -/
  held : ∀ p ∈ w.processes, ∀ s, p.state? = some s → ∃ records, Follows file s.history s.level records
  /-- or a fresh one -/
  degraded : ∀ p ∈ w.processes, ∀ s, p.state? = some s → s.degradedReason ≠ none → s.level = .l1Supervised

lemma inv_init (file : LadderFile) : Inv file (init file) where
  stored := ⟨(List.append_nil _).symm, rfl⟩
  held _ hp := by cases hp
  degraded _ hp := by cases hp

/-- A load gives what is stored. -/
lemma inv_start (h : Inv file w) {now : String} {p : AutonomyState → Process}
    (hp : ∀ state, (p state).state? = some state) : Inv file (w.start path now p) where
  stored := h.stored
  held q hq s hs := by
    rcases List.mem_append.mp hq with hq | hq
    · exact h.held q hq s hs
    · rw [List.mem_singleton.mp hq, hp] at hs
      cases hs
      obtain ⟨hhistory, hlevel⟩ := load_stored path now w.file
      exact ⟨w.reported, hhistory ▸ hlevel ▸ h.stored⟩
  degraded q hq s hs := by
    rcases List.mem_append.mp hq with hq | hq
    · exact h.degraded q hq s hs
    · rw [List.mem_singleton.mp hq, hp] at hs
      cases hs
      exact AutonomyState.level_of_degraded

/-- A process that goes on with no state. -/
lemma inv_set (h : Inv file w) (process : ℕ) {q : Process} (hq : q.state? = none) :
    Inv file { w with processes := w.processes.set process q } where
  stored := h.stored
  held p hp s hs := by
    rcases List.mem_or_eq_of_mem_set hp with hp | rfl
    · exact h.held p hp s hs
    · cases hq.symm.trans hs
  degraded p hp s hs := by
    rcases List.mem_or_eq_of_mem_set hp with hp | rfl
    · exact h.degraded p hp s hs
    · cases hq.symm.trans hs

/-- A process that holds a record `load` refused reports nothing. -/
lemma silent_of_degraded (h : Inv file w) {p : Process} (hp : p ∈ w.processes) (hfresh : p.Fresh w.file)
    {s : AutonomyState} (hs : p.state? = some s) (hdegraded : s.degradedReason ≠ none) (now : String) :
    (p.effect now).reported = none := by
  by_contra hreported
  exact hdegraded (Process.stored_of_reported hs hfresh (h.degraded p hp s hs) hreported)

/-- A fresh save puts what the process reports behind what is stored. -/
lemma follows_save (h : Inv file w) {p : Process} (hp : p ∈ w.processes) (hfresh : p.Fresh w.file) {now : String}
    {s s' : AutonomyState} (hs : p.state? = some s) (hsaved : (p.effect now).saved = some s') :
    Follows file s'.history s'.level (w.reported ++ (p.effect now).reported.toList) ∧
      Follows file (s'.save w.file).history (s'.save w.file).level (w.reported ++ (p.effect now).reported.toList) := by
  have hextends : Extends s s' (p.effect now).reported := (Process.effect_of hs).saved s' hsaved
  -- the process holds the history that is stored, so it holds the level that is
  have hheld : Follows file s.history s.level w.reported := by
    obtain ⟨records, hrecords⟩ := h.held p hp s hs
    have hhistory : s.history = w.file.history :=
      Process.history_of_fresh hs hfresh (by rw [hsaved]; exact Option.some_ne_none s')
    have hsame : records = w.reported := by
      refine List.append_cancel_left (hrecords.history.symm.trans (hhistory.trans h.stored.history))
    rwa [← hsame]
  have hfollows := hheld.of_extends hextends
  refine ⟨hfollows, ?_⟩
  by_cases hdegraded : s.degradedReason = none
  · obtain ⟨hhistory, hlevel⟩ := stored_save (hextends.degraded.trans hdegraded) w.file
    rwa [hhistory, hlevel]
  · -- the save is refused, and nothing is reported
    have hreported := silent_of_degraded h hp hfresh hs hdegraded now
    have hrefused : s'.save w.file = w.file :=
      if_pos (by rw [hextends.degraded]; exact Option.isSome_iff_ne_none.mpr hdegraded)
    rw [hrefused, hreported, Option.toList_none, List.append_nil]
    exact h.stored

/-- A process that has no state does nothing. -/
lemma effect_ended {p : Process} (h : p.state? = none) (now : String) : p.effect now = .nothing := by
  cases p with
  | ended => rfl
  | _ => cases h

/-- Nothing is saved. -/
lemma inv_silent (h : Inv file w) (process : ℕ) {effect : Effect} (hsaved : effect.saved = none)
    (hreported : effect.reported = none) (hnext : effect.next.state? = none) :
    Inv file
      { file := (effect.saved.map fun state => state.save w.file).getD w.file
        processes := w.processes.set process effect.next
        reported := w.reported ++ effect.reported.toList } := by
  rw [hsaved, hreported, Option.toList_none, List.append_nil]
  exact inv_set h process hnext

/-- **A fresh save keeps the invariant.** -/
lemma inv_save (h : Inv file w) {process : ℕ} {p : Process} (hp : w.processes[process]? = some p)
    (hfresh : p.Fresh w.file) (now : String) :
    Inv file
      { file := ((p.effect now).saved.map fun state => state.save w.file).getD w.file
        processes := w.processes.set process (p.effect now).next
        reported := w.reported ++ (p.effect now).reported.toList } := by
  have hmem : p ∈ w.processes := List.mem_of_getElem? hp
  cases hs : p.state? with
  | none =>
      rw [effect_ended hs]
      exact inv_silent h process rfl rfl rfl
  | some s =>
      have heffect : Effect.Of s (p.effect now) := Process.effect_of hs
      cases hsaved : (p.effect now).saved with
      | none =>
          rw [← hsaved]
          refine inv_silent h process hsaved (heffect.silent hsaved) ?_
          by_contra hnext
          obtain ⟨s', hs'⟩ := Option.ne_none_iff_exists'.mp hnext
          cases hsaved.symm.trans (heffect.held s' hs')
      | some s' =>
          obtain ⟨hheld, hstored⟩ := follows_save h hmem hfresh hs hsaved
          have hextends := heffect.saved s' hsaved
          exact
            { stored := hstored
              held := fun q hq u hu => by
                rcases List.mem_or_eq_of_mem_set hq with hq | rfl
                · exact h.held q hq u hu
                · cases hsaved.symm.trans (heffect.held u hu)
                  exact ⟨_, hheld⟩
              degraded := fun q hq u hu hdegraded => by
                rcases List.mem_or_eq_of_mem_set hq with hq | rfl
                · exact h.degraded q hq u hu hdegraded
                · cases hsaved.symm.trans (heffect.held u hu)
                  rw [hextends.degraded] at hdegraded
                  have hlevel := hextends.level
                  rw [silent_of_degraded h hmem hfresh hs hdegraded now,
                    h.degraded p hmem s hs hdegraded] at hlevel
                  exact AutonomyLevel.value_injective hlevel }

/-- **Every step keeps the invariant.** -/
theorem inv_next (h : Inv file w) {a : Action} (hfresh : Fresh w a) (hstep : Step path w a w') : Inv file w' := by
  unfold Step next at hstep
  cases a with
  | promote now command =>
      cases hstep
      split_ifs
      · exact inv_start h fun _ => rfl
      · exact h
  | demote now trigger reason =>
      cases hstep
      exact inv_start h fun _ => rfl
  | runEnd now e =>
      cases hstep
      exact inv_start h fun _ => rfl
  | save process now =>
      obtain ⟨p, hp, rfl⟩ := Option.map_eq_some_iff.mp hstep
      exact inv_save h hp (hfresh p hp) now
  | stop process =>
      cases hstep
      exact inv_set h process rfl

/-- **The stored history grows by what is reported.** -/
theorem history_grows (run : Reaches (Step path) Fresh (init file) w) :
    Follows file w.file.history w.file.level w.reported :=
  (run.invariant (inv_init file) fun _ _ _ hinv hfresh hstep => inv_next hinv hfresh hstep).stored

/-- **No level change is lost**, in a run whose saves are fresh: each one that was reported is in the stored
history, and the stored level is the one after the last of them. -/
theorem transitions_kept (run : Reaches (Step path) Fresh (init file) w) :
    (∀ record ∈ w.reported, record ∈ w.file.history) ∧
      ∀ record, w.reported.getLast? = some record → w.file.level.value = record.toLevel := by
  have hgrows := history_grows run
  refine ⟨fun record hrecord => ?_, fun record hlast => ?_⟩
  · rw [hgrows.history]
    exact List.mem_append_right _ hrecord
  · rw [hgrows.level, levelAfter, hlast]
    rfl

/-! ## Runs -/

/-- A stored record at L2. -/
def storedL2 : LadderFile :=
  .document { level := .l2GatedMerge, since := "2026-01-01" : AutonomyState }.document

/-- A run that completed a component. -/
def cleanRunEnd : RunEnd where
  manifest := {}
  completed := ["a"]
  failed := []
  merged := []
  runLevel := .l2GatedMerge
  runId := "r"
  demoteOnHealthBreach := false
  breaches := []

/-- One demotion by the operator. -/
theorem transitions_kept_operator : ∃ w : World, w.reported ≠ [] ∧
    (∀ record ∈ w.reported, record ∈ w.file.history) ∧
      ∀ record, w.reported.getLast? = some record → w.file.level.value = record.toLevel := by
  have hload : Reaches (Step "autonomy.json") Fresh (init storedL2) _ :=
    Reaches.single (a := .demote "12:00" .manual "too many rejections") trivial rfl
  have hfresh : Fresh (start "autonomy.json" (init storedL2) "12:00" (.demoting .manual "too many rejections"))
      (.save 0 "12:01") := fun p hp => by
    cases hp
    exact fun _ => rfl
  have hsave : Reaches (Step "autonomy.json") Fresh (init storedL2) _ := hload.tail hfresh rfl
  exact ⟨_, List.cons_ne_nil _ _, transitions_kept hsave⟩

/-- The operator demotes between the load and the save of the end of a run. -/
def staleSave : List Action :=
  [.runEnd "12:00" cleanRunEnd, .demote "12:00" .manual "too many rejections", .save 1 "12:01", .save 0 "12:02"]

/-- The demotion is reported; it is not in the stored history, and the level is the one before it. -/
theorem stale_save_drops_demotion : ∃ w, Reaches (Step "autonomy.json") Always (init storedL2) w ∧
    (∃ record ∈ w.reported, record ∉ w.file.history ∧ record.toLevel = 1) ∧ w.file.level = .l2GatedMerge := by
  have hrun : ∃ w record, staleSave.foldlM (fun w a => w.next "autonomy.json" a) (init storedL2) = some w ∧
      w.reported = [record] ∧ record.toLevel = 1 ∧ w.file.history = [] ∧ w.file.level = .l2GatedMerge :=
    ⟨_, _, rfl, rfl, rfl, rfl, rfl⟩
  obtain ⟨w, record, hw, hreported, hdemoted, hhistory, hlevel⟩ := hrun
  refine ⟨w, Reaches.of_foldlM hw, ⟨record, ?_, ?_, hdemoted⟩, hlevel⟩
  · rw [hreported]
    exact List.mem_singleton_self record
  · rw [hhistory]
    exact List.not_mem_nil

/-- `ks autonomy promote --force`. -/
def forcedPromotion : PromoteCommand where
  actor := "me"
  ack := "seen"
  force := true
  interactive := true
  relocationError _ := none
  signalBlockers _ := []

/-- A promotion forced over a damaged file, with no other process about. -/
def forcedOverDamage : List Action := [.promote "12:00" forcedPromotion, .save 0 "12:01"]

/-- It is reported, and it is not stored. -/
theorem forced_promotion_not_stored : ∃ w, Reaches (Step "autonomy.json") Always (init (.damaged "not JSON")) w ∧
    (∃ record ∈ w.reported, record ∉ w.file.history) := by
  have hrun : ∃ w record, forcedOverDamage.foldlM (fun w a => w.next "autonomy.json" a)
      (init (.damaged "not JSON")) = some w ∧ w.reported = [record] ∧ w.file.history = [] :=
    ⟨_, _, rfl, rfl, rfl⟩
  obtain ⟨w, record, hw, hreported, hhistory⟩ := hrun
  refine ⟨w, Reaches.of_foldlM hw, record, ?_, ?_⟩
  · rw [hreported]
    exact List.mem_singleton_self record
  · rw [hhistory]
    exact List.not_mem_nil

end World

end Learning

end Kstrl
