import Kstrl.Learning.Autonomy
import Mathlib.Algebra.Ring.Int.Defs

/-!
# The ladder over any sequence of operations

`AutonomyState` (`kstrl/learning/autonomy.py`) under `record_decisive_run`, `record_merged_component`,
`record_policy_violation`, `promote`, a forced `promote` and `demote`, from a fresh state.

* **`Climbs`** says that the records of a history chain, one step each.
* **`ladder_sound`**: they do, the counters start again at every level change, and there is no promotion
  without force in the cool-down of a demotion.
-/

namespace Kstrl

namespace Learning

/-! ## Operations -/

/-- One operation on the state. -/
inductive LadderOp where
  | decisiveRuns (count : ℕ)
  | mergedComponent (humanEdited : Bool)
  | policyViolations (count : ℕ)
  | promote (now actor ack : String) (signalBlockers : List String) (force : Bool)
  | demote (now : String) (trigger : DemotionTrigger) (reason actor : String) (evidence : List (String × Json))

namespace LadderOp

/-- The state after it, and the level change it recorded; a refused one leaves the state. -/
def apply (s : AutonomyState) : LadderOp → AutonomyState × Option Transition
  | decisiveRuns count => (s.recordDecisiveRun count, none)
  | mergedComponent humanEdited => (s.recordMergedComponent humanEdited, none)
  | policyViolations count => (s.recordPolicyViolation count, none)
  | promote now actor ack signalBlockers force =>
      match s.promote now actor ack signalBlockers force with
      | .ok (record, promoted) => (promoted, some record)
      | .error _ => (s, none)
  | demote now trigger reason actor evidence =>
      match s.demote now trigger reason actor evidence with
      | some (record, demoted) => (demoted, some record)
      | none => (s, none)

/-- The decisive runs it records. -/
def decisive : LadderOp → ℤ
  | decisiveRuns count => count
  | _ => 0

end LadderOp

/-- The state after a sequence of operations. -/
def runOps (s : AutonomyState) (ops : List LadderOp) : AutonomyState := ops.foldl (fun s op => (op.apply s).1) s

/-- The decisive runs recorded along the way. -/
def decisiveRuns (ops : List LadderOp) : ℤ := (ops.map LadderOp.decisive).sum

/-! ## Histories -/

/-- One step up, or one step down. -/
def Transition.OneStep (t : Transition) : Prop :=
  (t.direction = "promote" ∧ t.toLevel = t.fromLevel + 1) ∨ (t.direction = "demote" ∧ t.toLevel = t.fromLevel - 1)

/-- The records lead from one level to another, each one a step from where the last one led. -/
def Climbs : ℤ → List Transition → ℤ → Prop
  | start, [], last => start = last
  | start, t :: rest, last => t.fromLevel = start ∧ t.OneStep ∧ Climbs t.toLevel rest last

lemma Climbs.concat {start last : ℤ} {history : List Transition} {t : Transition} (h : Climbs start history last)
    (hfrom : t.fromLevel = last) (hstep : t.OneStep) : Climbs start (history ++ [t]) t.toLevel := by
  induction history generalizing start with
  | nil => exact ⟨hfrom.trans h.symm, hstep, rfl⟩
  | cons u rest ih =>
      obtain ⟨hstart, hu, hrest⟩ := h
      exact ⟨hstart, hu, ih hrest⟩

namespace AutonomyLevel

lemma value_bounds (level : AutonomyLevel) : 1 ≤ level.value ∧ level.value ≤ 4 := by
  cases level <;> decide

lemma value_above {level : AutonomyLevel} (h : level ≠ .l4Deploy) : level.above.value = level.value + 1 := by
  cases level <;> first | rfl | exact absurd rfl h

lemma value_below {level : AutonomyLevel} (h : level ≠ .l1Supervised) : level.below.value = level.value - 1 := by
  cases level <;> first | rfl | exact absurd rfl h

end AutonomyLevel

/-! ## One operation -/

/-- The counters of a level, at their start. -/
def AutonomyState.CountersReset (s : AutonomyState) : Prop :=
  s.componentsMergedAtLevel = 0 ∧ s.cleanMergesAtLevel = 0 ∧ s.policyViolationsAtLevel = 0 ∧
    s.decisiveRunsAtLevel = 0

namespace LadderOp

variable {s : AutonomyState} {record : Transition}

/-- What a level change does: one step from the level, at the end of the history, with the counters reset. -/
structure Records (s s' : AutonomyState) (record : Transition) : Prop where
  fromLevel : record.fromLevel = s.level.value
  oneStep : record.OneStep
  toLevel : s'.level.value = record.toLevel
  history : s'.history = s.history ++ [record]
  reset : s'.CountersReset

lemma promotionRefusal_l4 {actor ack : String} {signalBlockers : List String} {force : Bool}
    (h : s.promotionRefusal actor ack signalBlockers force = none) : s.level ≠ .l4Deploy := by
  intro hlevel
  unfold AutonomyState.promotionRefusal at h
  split_ifs at h

/-- **Every operation** records a level change, or leaves the level and the history. -/
lemma apply_cases (op : LadderOp) :
    (∃ record, (op.apply s).2 = some record ∧ Records s (op.apply s).1 record) ∨
      ((op.apply s).2 = none ∧ (op.apply s).1.level = s.level ∧ (op.apply s).1.history = s.history) := by
  cases op with
  | decisiveRuns count => exact .inr ⟨rfl, rfl, rfl⟩
  | mergedComponent humanEdited => exact .inr ⟨rfl, rfl, rfl⟩
  | policyViolations count => exact .inr ⟨rfl, rfl, rfl⟩
  | promote now actor ack signalBlockers force =>
      rw [apply, AutonomyState.promote]
      cases hrefusal : s.promotionRefusal actor ack signalBlockers force with
      | some refusal => exact .inr ⟨rfl, rfl, rfl⟩
      | none =>
          have habove := AutonomyLevel.value_above (promotionRefusal_l4 hrefusal)
          exact .inl ⟨_, rfl, rfl, .inl ⟨rfl, habove⟩, rfl, rfl, rfl, rfl, rfl, rfl⟩
  | demote now trigger reason actor evidence =>
      rw [apply, AutonomyState.demote]
      by_cases hlevel : s.level = .l1Supervised
      · rw [if_pos hlevel]
        exact .inr ⟨rfl, rfl, rfl⟩
      · rw [if_neg hlevel]
        have hbelow := AutonomyLevel.value_below hlevel
        exact .inl ⟨_, rfl, rfl, .inr ⟨rfl, hbelow⟩, rfl, rfl, rfl, rfl, rfl, rfl⟩

lemma apply_records {op : LadderOp} (h : (op.apply s).2 = some record) : Records s (op.apply s).1 record := by
  rcases op.apply_cases (s := s) with ⟨record', hrecord', hrecords⟩ | ⟨hnone, -, -⟩
  · cases h.symm.trans hrecord'
    exact hrecords
  · cases h.symm.trans hnone

/-! ## The cool-down -/

/-- The cool-down goes down by no more than the decisive runs. -/
lemma cooldown_apply (op : LadderOp) (hs : s.cooldownRunsRemaining ≤ demotionCooldownRuns) :
    s.cooldownRunsRemaining - op.decisive ≤ (op.apply s).1.cooldownRunsRemaining ∧
      (op.apply s).1.cooldownRunsRemaining ≤ demotionCooldownRuns := by
  have hsame : s.cooldownRunsRemaining - 0 ≤ s.cooldownRunsRemaining ∧
      s.cooldownRunsRemaining ≤ demotionCooldownRuns := ⟨by omega, hs⟩
  cases op with
  | decisiveRuns count =>
      simp only [apply, AutonomyState.recordDecisiveRun, decisive, demotionCooldownRuns] at hs ⊢
      split_ifs <;> omega
  | mergedComponent humanEdited => exact hsame
  | policyViolations count => exact hsame
  | promote now actor ack signalBlockers force =>
      rw [apply, AutonomyState.promote]
      cases s.promotionRefusal actor ack signalBlockers force with
      | some refusal => exact hsame
      | none => exact hsame
  | demote now trigger reason actor evidence =>
      rw [apply, AutonomyState.demote]
      by_cases hlevel : s.level = .l1Supervised
      · rw [if_pos hlevel]
        exact hsame
      · rw [if_neg hlevel]
        exact ⟨by simpa [decisive] using hs, Int.le_refl _⟩

/-- A demotion starts the cool-down. -/
lemma cooldown_demote {now reason actor : String} {trigger : DemotionTrigger} {evidence : List (String × Json)}
    (h : ((demote now trigger reason actor evidence).apply s).2 = some record) :
    ((demote now trigger reason actor evidence).apply s).1.cooldownRunsRemaining = demotionCooldownRuns := by
  rw [apply, AutonomyState.demote] at h ⊢
  by_cases hlevel : s.level = .l1Supervised
  · rw [if_pos hlevel] at h
    cases h
  · rw [if_neg hlevel]

/-- There is no promotion without force in the cool-down. -/
lemma cooldown_promote {now actor ack : String} {signalBlockers : List String}
    (h : ((promote now actor ack signalBlockers false).apply s).2 = some record) : s.cooldownRunsRemaining ≤ 0 := by
  rw [apply, AutonomyState.promote] at h
  cases hrefusal : s.promotionRefusal actor ack signalBlockers false with
  | some refusal =>
      rw [hrefusal] at h
      cases h
  | none =>
      by_contra hcooldown
      have habove := AutonomyLevel.value_above (promotionRefusal_l4 hrefusal)
      unfold AutonomyState.promotionRefusal at hrefusal
      dsimp only at hrefusal
      split_ifs at hrefusal with hactor hack hl4 hblockers
      refine hblockers ⟨?_, rfl⟩
      rw [AutonomyState.promotionBlockers, if_neg (by omega), if_pos (by omega : 0 < s.cooldownRunsRemaining)]
      simp

end LadderOp

/-! ## Every sequence -/

section Runs

variable {s : AutonomyState}

lemma runOps_concat (s : AutonomyState) (ops : List LadderOp) (op : LadderOp) :
    runOps s (ops ++ [op]) = (op.apply (runOps s ops)).1 := by
  rw [runOps, List.foldl_append]
  rfl

lemma cooldown_runOps (hs : s.cooldownRunsRemaining ≤ demotionCooldownRuns) (ops : List LadderOp) :
    s.cooldownRunsRemaining - decisiveRuns ops ≤ (runOps s ops).cooldownRunsRemaining ∧
      (runOps s ops).cooldownRunsRemaining ≤ demotionCooldownRuns := by
  induction ops using List.reverseRecOn with
  | nil => exact ⟨by simp [decisiveRuns, runOps], hs⟩
  | append_singleton ops op ih =>
      obtain ⟨hlower, hupper⟩ := op.cooldown_apply ih.2
      rw [runOps_concat]
      have hsum : decisiveRuns (ops ++ [op]) = decisiveRuns ops + op.decisive := by simp [decisiveRuns]
      exact ⟨by omega, hupper⟩

/-- The history chains from L1, and every record names levels of the ladder. -/
lemma climbs_runOps (now : String) (ops : List LadderOp) :
    Climbs 1 (runOps { since := now } ops).history (runOps { since := now } ops).level.value ∧
      ∀ t ∈ (runOps { since := now } ops).history, t.OneStep ∧ 1 ≤ t.toLevel ∧ t.toLevel ≤ 4 := by
  induction ops using List.reverseRecOn with
  | nil => exact ⟨rfl, fun _ ht => by cases ht⟩
  | append_singleton ops op ih =>
      rw [runOps_concat]
      rcases op.apply_cases with ⟨record, -, hrecords⟩ | ⟨-, hlevel, hhistory⟩
      · rw [hrecords.history, hrecords.toLevel]
        refine ⟨ih.1.concat hrecords.fromLevel hrecords.oneStep, fun t ht => ?_⟩
        rcases List.mem_append.mp ht with ht | ht
        · exact ih.2 t ht
        · rw [List.mem_singleton.mp ht, ← hrecords.toLevel]
          exact ⟨hrecords.oneStep, AutonomyLevel.value_bounds _⟩
      · rw [hhistory, hlevel]
        exact ih

end Runs

/-- **The ladder is sound** over every sequence of operations from a fresh state. -/
theorem ladder_sound (now : String) (ops : List LadderOp) :
    -- the records chain up to the level, one step each, inside the ladder
    (Climbs 1 (runOps { since := now } ops).history (runOps { since := now } ops).level.value ∧
      ∀ t ∈ (runOps { since := now } ops).history, t.OneStep ∧ 1 ≤ t.toLevel ∧ t.toLevel ≤ 4) ∧
    -- an operation that records none leaves the level, one that does resets the counters
    (∀ op : LadderOp, match (op.apply (runOps { since := now } ops)).2 with
      | none => (runOps { since := now } (ops ++ [op])).level = (runOps { since := now } ops).level ∧
          (runOps { since := now } (ops ++ [op])).history = (runOps { since := now } ops).history
      | some record => (runOps { since := now } (ops ++ [op])).CountersReset ∧
          (runOps { since := now } (ops ++ [op])).history = (runOps { since := now } ops).history ++ [record]) ∧
    -- a promotion without force comes after the cool-down of every demotion
    ∀ (demotedAt reason actor : String) (trigger : DemotionTrigger) (evidence : List (String × Json))
      (between : List LadderOp) (promotedAt promotedBy ack : String) (signalBlockers : List String),
      ((LadderOp.demote demotedAt trigger reason actor evidence).apply (runOps { since := now } ops)).2 ≠ none →
      ((LadderOp.promote promotedAt promotedBy ack signalBlockers false).apply (runOps { since := now }
        (ops ++ .demote demotedAt trigger reason actor evidence :: between))).2 ≠ none →
      demotionCooldownRuns ≤ decisiveRuns between := by
  refine ⟨climbs_runOps now ops, fun op => ?_, ?_⟩
  · rw [runOps_concat]
    rcases op.apply_cases with ⟨record, hrecord, hrecords⟩ | ⟨hnone, hlevel, hhistory⟩
    · rw [hrecord]
      exact ⟨hrecords.reset, hrecords.history⟩
    · rw [hnone]
      exact ⟨hlevel, hhistory⟩
  · intro demotedAt reason actor trigger evidence between promotedAt promotedBy ack signalBlockers hdemoted hpromoted
    obtain ⟨_, hdemoted⟩ := Option.ne_none_iff_exists'.mp hdemoted
    obtain ⟨_, hpromoted⟩ := Option.ne_none_iff_exists'.mp hpromoted
    have hstart := LadderOp.cooldown_demote hdemoted
    have hend := LadderOp.cooldown_promote hpromoted
    have hsplit : runOps { since := now } (ops ++ .demote demotedAt trigger reason actor evidence :: between)
        = runOps (runOps { since := now } (ops ++ [.demote demotedAt trigger reason actor evidence])) between := by
      rw [runOps, runOps, runOps, ← List.foldl_append, List.append_assoc]
      rfl
    rw [hsplit, runOps_concat] at hend
    have hcooldown := (cooldown_runOps (Int.le_of_eq hstart) between).1
    omega

end Learning

end Kstrl
