import Kstrl.Loop.LoopBudget
import Mathlib.Algebra.Order.Group.Defs
import Mathlib.Algebra.BigOperators.Group.Finset.Basic
import Mathlib.Tactic.Abel

/-!
# The engineer loop

`run_loop` of `kstrl/loop/loop.py`: an agent is run again and again until a marker, a guard, a ceiling, a breaker, a
clock or a person ends it.  What an iteration does and how long each part of it takes is given by a script.  Time
passes while the agent runs, in the guard, in the probe of the breaker, in the pause and in the sleep.

* **`calls_spec`**: when each call starts, and that no ceiling was reached before it.
* **`completed_spec`**: what it takes to report completion.
* **`runLoop_within_iff`**: the loop keeps its limits if and only if no pause and sleep together outlast the rest of
  the component's budget.
-/

namespace Kstrl.Loop

open Events.Usage

/-! ## What an iteration does -/

/-- One iteration, by what it does and how long that takes. -/
structure Iteration (T A : Type) where
  /-- what `stop_check` answers before it -/
  stop : Bool
  /-- the run of the agent and the fast checks after it -/
  duration : T
  completionSeen : Bool
  timedOut : Bool
  /-- the calls it reports -/
  records : List (UsageRecord A)
  guardOk : Bool
  violations : List String
  guarding : T
  /-- what `record_iteration` of the breaker answers -/
  stalled : Bool
  probing : T
  /-- the answer at the pause: Continue, Skip interactive or Quit, or none -/
  choice : Option ℕ
  pause : T
  slept : T

structure LoopConfig (T A : Type) where
  /-- the branch is checked out and the guard has its baseline -/
  ready : Bool
  maxIterations : ℤ
  /-- there are allowed paths, and a repository -/
  guarded : Bool
  interactive : Bool
  canPrompt : Bool
  agentIteration : T
  componentTotal : T
  budget : Option (LoopBudget A)

/-- The exit code of a loop that was asked to stop. -/
def stopExitCode : ℤ := 130

structure LoopResult (T A : Type) where
  completed : Bool
  iterations : ℤ
  exitCode : ℤ
  durationSeconds : T
  iterationDurations : List T := []
  timeoutLimit : Option String := none
  timedOutIterations : ℕ := 0
  usage : UsageTotals A
  noProgress : Bool := false
  budgetHalt : Option BudgetHalt := none
  guardViolations : List String := []

/-- A call of the agent: in which iteration and when, with what time limit, and the usage reported before it. -/
structure Call (T A : Type) where
  iteration : ℕ
  start : T
  timeout : Option T
  usage : UsageTotals A

/-- What the loop holds between two iterations. -/
structure LoopState (T A : Type) where
  now : T
  records : List (UsageRecord A)
  durations : List T
  timedOut : ℕ
  interactive : Bool

section

variable {T A : Type} [AddCommGroup T] [LinearOrder T] [Add A] [Zero A] [LinearOrder A]

/-! ## The time limit of a call -/

/-- `_iteration_timeout` -/
def iterationTimeout (agentIteration componentBudget iterStart loopStart : T) : Option T :=
  let limit := if 0 < agentIteration then some agentIteration else none
  if 0 < componentBudget then
    let remaining := componentBudget - (iterStart - loopStart)
    match limit with
    | some limit => some (min limit remaining)
    | none => some remaining
  else limit

/-- The deadline of a `DeadlineStreamer` made at a time; one without a positive limit has none. -/
def streamerDeadline (now : T) : Option T → Option T
  | some timeout => if 0 < timeout then some (now + timeout) else none
  | none => none

def Call.deadline (call : Call T A) : Option T := streamerDeadline call.start call.timeout

/-! ## The verdicts -/

variable (p : Printing A) (c : LoopConfig T A) (loopStart : T)

/-- What the agent has reported. -/
def LoopState.usage (s : LoopState T A) : UsageTotals A := UsageTotals.usageOf s.records

/-- `_run_one_iteration` -/
def runOneIteration (it : Iteration T A) (s : LoopState T A) : LoopState T A :=
  { s with
    now := s.now + it.duration
    records := s.records ++ it.records
    durations := s.durations ++ [it.duration]
    timedOut := if it.timedOut then s.timedOut + 1 else s.timedOut }

/-- A result after so many iterations, at a time. -/
def ended (completed : Bool) (exitCode : ℤ) (iterations : ℤ) (now : T) (s : LoopState T A) : LoopResult T A where
  completed := completed
  iterations := iterations
  exitCode := exitCode
  durationSeconds := now - loopStart
  iterationDurations := s.durations
  timedOutIterations := s.timedOut
  usage := s.usage

/-- `_guard_verdict` -/
def guardVerdict (it : Iteration T A) (iteration : ℕ) (s : LoopState T A) : Option (LoopResult T A) :=
  if c.guarded && !it.guardOk then
    some { ended loopStart false 1 iteration (s.now + it.guarding) s with guardViolations := it.violations }
  else none

/-- The completion marker. -/
def completionVerdict (it : Iteration T A) (iteration : ℕ) (s : LoopState T A) : Option (LoopResult T A) :=
  if it.completionSeen then some (ended loopStart true 0 iteration (s.now + it.guarding) s) else none

/-- `_budget_verdict` -/
def budgetVerdict (it : Iteration T A) (iteration : ℕ) (s : LoopState T A) : Option (LoopResult T A) :=
  match c.budget.bind fun budget => budget.haltVerdict p s.usage with
  | some halt => some { ended loopStart false 1 iteration (s.now + it.guarding) s with budgetHalt := some halt }
  | none => none

/-- `_breaker_verdict` -/
def breakerVerdict (it : Iteration T A) (iteration : ℕ) (s : LoopState T A) : Option (LoopResult T A) :=
  if it.stalled then
    some { ended loopStart false 1 iteration (s.now + it.guarding + it.probing) s with noProgress := true }
  else none

/-- When the clock is read for the verdicts of an iteration. -/
def checkedAt (it : Iteration T A) (s : LoopState T A) : T := s.now + it.guarding + it.probing

/-- `_wall_clock_verdict` -/
def wallClockVerdict (it : Iteration T A) (iteration : ℕ) (s : LoopState T A) : Option (LoopResult T A) :=
  if 0 < c.componentTotal ∧ c.componentTotal ≤ checkedAt it s - loopStart then
    some { ended loopStart false 1 iteration (checkedAt it s) s with timeoutLimit := some "component" }
  else none

/-- `_resolve_iteration_pause`: the result that ends the run, and whether the run stays interactive. -/
def resolveIterationPause (it : Iteration T A) (iteration : ℕ) (s : LoopState T A) :
    Option (LoopResult T A) × Bool :=
  let quit : LoopResult T A :=
    { completed := false, iterations := iteration, exitCode := 0, durationSeconds := 0, usage := s.usage }
  if !(s.interactive && c.canPrompt) then (none, s.interactive)
  else match it.choice with
    | some 1 => (none, false)
    | some 2 => (some quit, s.interactive)
    | none => (some quit, s.interactive)
    | some _ => (none, s.interactive)

/-- `_iteration_verdict`, but for the pause. -/
def limitVerdict (it : Iteration T A) (iteration : ℕ) (s : LoopState T A) : Option (LoopResult T A) :=
  (guardVerdict c loopStart it iteration s).or <|
    (completionVerdict loopStart it iteration s).or <|
      (budgetVerdict p c loopStart it iteration s).or <|
        (breakerVerdict loopStart it iteration s).or (wallClockVerdict c loopStart it iteration s)

/-- `_iteration_verdict` -/
def iterationVerdict (it : Iteration T A) (iteration : ℕ) (s : LoopState T A) : Option (LoopResult T A) × Bool :=
  match limitVerdict p c loopStart it iteration s with
  | some result => (some result, s.interactive)
  | none => resolveIterationPause c it iteration s

/-! ## The loop -/

/-- What the loop holds when the next iteration begins; there is no sleep after the last one. -/
def rested (it : Iteration T A) (last interactive : Bool) (s : LoopState T A) : LoopState T A :=
  { s with
    now := checkedAt it s + it.pause + if last then 0 else it.slept
    interactive := interactive }

/-- The call that an iteration makes. -/
def callOf (iteration : ℕ) (s : LoopState T A) : Call T A where
  iteration := iteration
  start := s.now
  timeout := iterationTimeout c.agentIteration c.componentTotal s.now loopStart
  usage := s.usage

variable (script : ℕ → Iteration T A)

/-- `for iteration in range(1, max_iterations + 1)`, from the iteration after `k`: the result, and the calls made. -/
def loopFrom : ℕ → ℕ → LoopState T A → LoopResult T A × List (Call T A)
  | 0, _, s => (ended loopStart false 1 c.maxIterations s.now s, [])
  | fuel + 1, k, s =>
      let it := script k
      if it.stop then (ended loopStart false stopExitCode k s.now s, [])
      else
        let after := runOneIteration it s
        match iterationVerdict p c loopStart it (k + 1) after with
        | (some result, _) => (result, [callOf c loopStart (k + 1) s])
        | (none, interactive) =>
            let rest := loopFrom fuel (k + 1) (rested it (fuel = 0) interactive after)
            (rest.1, callOf c loopStart (k + 1) s :: rest.2)

/-- What the loop starts with. -/
def started : LoopState T A where
  now := loopStart
  records := []
  durations := []
  timedOut := 0
  interactive := c.interactive

def runLoop : LoopResult T A × List (Call T A) :=
  if c.ready then loopFrom p c loopStart script c.maxIterations.toNat 0 (started c loopStart)
  else ({ completed := false, iterations := 0, exitCode := 2, durationSeconds := 0, usage := 0 }, [])

/-! ## One turn of the loop -/

variable {p c loopStart script}

/-- What is known of an iteration that is followed by another. -/
lemma limitVerdict_none {it : Iteration T A} {iteration : ℕ} {s : LoopState T A}
    (h : limitVerdict p c loopStart it iteration s = none) :
    (c.guarded = true → it.guardOk = true) ∧ it.completionSeen = false ∧
      (∀ budget, c.budget = some budget → ¬ budget.Reached s.usage) ∧ it.stalled = false ∧
      (0 < c.componentTotal → checkedAt it s - loopStart < c.componentTotal) := by
  simp only [limitVerdict, Option.or_eq_none_iff] at h
  obtain ⟨hguard, hdone, hbudget, hbreaker, hclock⟩ := h
  refine ⟨fun hon => ?_, ?_, fun budget hsome => ?_, ?_, fun hon => ?_⟩
  · unfold guardVerdict at hguard
    split_ifs at hguard with hbad
    simpa [hon] using hbad
  · unfold completionVerdict at hdone
    split_ifs at hdone with hseen
    simpa using hseen
  · unfold budgetVerdict at hbudget
    split at hbudget
    · cases hbudget
    · next hhalt =>
        rw [hsome] at hhalt
        exact LoopBudget.not_reached_of_none p hhalt
  · unfold breakerVerdict at hbreaker
    split_ifs at hbreaker with hstalled
    simpa using hstalled
  · unfold wallClockVerdict at hclock
    split_ifs at hclock with hspent
    exact not_le.mp fun hle => hspent ⟨hon, hle⟩

/-- Only the completion verdict reports completion, and only where the guard has passed. -/
lemma limitVerdict_completed {it : Iteration T A} {iteration : ℕ} {s : LoopState T A} {result : LoopResult T A}
    (h : limitVerdict p c loopStart it iteration s = some result) (hcompleted : result.completed = true) :
    it.completionSeen = true ∧ (c.guarded = true → it.guardOk = true) ∧ result.iterations = iteration := by
  unfold limitVerdict at h
  cases hguard : guardVerdict c loopStart it iteration s with
  | some found =>
      rw [hguard, Option.some_or] at h
      cases h
      unfold guardVerdict at hguard
      split_ifs at hguard
      cases hguard
      cases hcompleted
  | none =>
      rw [hguard, Option.none_or] at h
      have hpassed : c.guarded = true → it.guardOk = true := by
        unfold guardVerdict at hguard
        split_ifs at hguard with hbad
        intro hon
        simpa [hon] using hbad
      cases hdone : completionVerdict loopStart it iteration s with
      | some found =>
          rw [hdone, Option.some_or] at h
          cases h
          unfold completionVerdict at hdone
          split_ifs at hdone with hseen
          cases hdone
          exact ⟨hseen, hpassed, rfl⟩
      | none =>
          rw [hdone, Option.none_or] at h
          have hother : result.completed = false := by
            unfold budgetVerdict breakerVerdict wallClockVerdict at h
            split at h
            · cases h
              rfl
            · rw [Option.none_or] at h
              split_ifs at h <;> cases h <;> rfl
          rw [hother] at hcompleted
          cases hcompleted

omit [LinearOrder T] [LinearOrder A] in
lemma resolveIterationPause_completed {it : Iteration T A} {iteration : ℕ} {s : LoopState T A}
    {result : LoopResult T A} {interactive : Bool}
    (h : resolveIterationPause c it iteration s = (some result, interactive)) : result.completed = false := by
  unfold resolveIterationPause at h
  dsimp only at h
  split_ifs at h
  · cases h
  · split at h <;> cases h <;> rfl

lemma iterationVerdict_none {it : Iteration T A} {iteration : ℕ} {s : LoopState T A} {interactive : Bool}
    (h : iterationVerdict p c loopStart it iteration s = (none, interactive)) :
    limitVerdict p c loopStart it iteration s = none := by
  unfold iterationVerdict at h
  split at h
  · cases h
  · assumption

lemma iterationVerdict_completed {it : Iteration T A} {iteration : ℕ} {s : LoopState T A} {result : LoopResult T A}
    {interactive : Bool} (h : iterationVerdict p c loopStart it iteration s = (some result, interactive))
    (hcompleted : result.completed = true) :
    it.completionSeen = true ∧ (c.guarded = true → it.guardOk = true) ∧ result.iterations = iteration := by
  unfold iterationVerdict at h
  split at h
  · next hlimit =>
      cases h
      exact limitVerdict_completed hlimit hcompleted
  · rw [resolveIterationPause_completed h] at hcompleted
    cases hcompleted

/-! ## The calls of a run -/

/-- How long an iteration takes until the clock is read for its verdicts. -/
def Iteration.untilChecked (it : Iteration T A) : T := it.duration + it.guarding + it.probing

/-- How long it takes until the next one begins. -/
def Iteration.lap (it : Iteration T A) : T := it.untilChecked + (it.pause + it.slept)

/-- The time from the start of the loop to the iteration after `k` of the script. -/
def elapsed (script : ℕ → Iteration T A) (k : ℕ) : T := ∑ i ∈ Finset.range k, (script i).lap

omit [LinearOrder T] [Add A] [Zero A] [LinearOrder A] in
lemma elapsed_succ (script : ℕ → Iteration T A) (k : ℕ) :
    elapsed script (k + 1) = elapsed script k + (script k).lap := Finset.sum_range_succ _ _

/-- The call of the iteration after `j`, by when it is made. -/
structure CallAt (c : LoopConfig T A) (loopStart : T) (script : ℕ → Iteration T A) (j : ℕ) (call : Call T A) :
    Prop where
  iteration : call.iteration = j + 1
  start : call.start = loopStart + elapsed script j
  timeout : call.timeout = iterationTimeout c.agentIteration c.componentTotal call.start loopStart

/-- No ceiling is reached. -/
def Cleared (c : LoopConfig T A) (usage : UsageTotals A) : Prop :=
  ∀ budget, c.budget = some budget → ¬ budget.Reached usage

omit [LinearOrder T] [Add A] [Zero A] [LinearOrder A] in
/-- What the loop holds after an iteration that is followed by another. -/
lemma rested_now {k : ℕ} {s : LoopState T A} (hnow : s.now = loopStart + elapsed script k) (interactive : Bool) :
    (rested (script k) false interactive (runOneIteration (script k) s)).now = loopStart + elapsed script (k + 1) := by
  show s.now + (script k).duration + (script k).guarding + (script k).probing + (script k).pause + (script k).slept = _
  rw [elapsed_succ, hnow, Iteration.lap, Iteration.untilChecked]
  abel

/-- **When the calls are made**, and that no ceiling is reached before one that is not the first: by induction on the
iterations left. -/
lemma calls_spec (fuel : ℕ) : ∀ (k : ℕ) (s : LoopState T A), s.now = loopStart + elapsed script k →
    ∀ call ∈ (loopFrom p c loopStart script fuel k s).2, ∃ j, k ≤ j ∧ CallAt c loopStart script j call ∧
      (j = k → call.usage = s.usage) ∧ (k < j → Cleared c call.usage) := by
  induction fuel with
  | zero => simp [loopFrom]
  | succ fuel ih =>
      intro k s hnow call hcall
      have hfirst : CallAt c loopStart script k (callOf c loopStart (k + 1) s) := ⟨rfl, hnow, rfl⟩
      rw [loopFrom] at hcall
      split_ifs at hcall with hstop
      · cases hcall
      · dsimp only at hcall
        split at hcall
        · obtain rfl := List.mem_singleton.mp hcall
          exact ⟨k, le_rfl, hfirst, fun _ => rfl, fun hlt => absurd hlt (lt_irrefl k)⟩
        · next interactive hverdict =>
            rcases List.mem_cons.mp hcall with rfl | hcall
            · exact ⟨k, le_rfl, hfirst, fun _ => rfl, fun hlt => absurd hlt (lt_irrefl k)⟩
            · cases fuel with
              | zero => cases hcall
              | succ fuel =>
                  obtain ⟨j, hj, hat, husage, hcleared⟩ :=
                    ih (k + 1) _ (rested_now hnow interactive) call hcall
                  refine ⟨j, Nat.le_of_succ_le hj, hat, fun heq => absurd heq (by omega), fun _ => ?_⟩
                  rcases Nat.eq_or_lt_of_le hj with heq | hlt
                  · rw [husage heq.symm]
                    exact (limitVerdict_none (iterationVerdict_none hverdict)).2.2.1
                  · exact hcleared hlt

/-- **What it takes to report completion.** -/
lemma completed_spec (fuel : ℕ) : ∀ (k : ℕ) (s : LoopState T A),
    (loopFrom p c loopStart script fuel k s).1.completed = true →
      ∃ j call, (loopFrom p c loopStart script fuel k s).2.getLast? = some call ∧ call.iteration = j + 1 ∧
        (loopFrom p c loopStart script fuel k s).1.iterations = j + 1 ∧ (script j).completionSeen = true ∧
        (c.guarded = true → (script j).guardOk = true) := by
  induction fuel with
  | zero =>
      intro k s h
      cases h
  | succ fuel ih =>
      intro k s h
      rw [loopFrom] at h ⊢
      split_ifs at h ⊢ with hstop
      · cases h
      · dsimp only at h ⊢
        split at h
        · next result interactive hverdict =>
            obtain ⟨hseen, hguard, hiterations⟩ := iterationVerdict_completed hverdict h
            exact ⟨k, _, rfl, rfl, hiterations, hseen, hguard⟩
        · obtain ⟨j, call, hlast, hrest⟩ := ih _ _ h
          exact ⟨j, call, by rw [List.getLast?_cons, hlast]; rfl, hrest⟩

/-! ## The limits -/

variable [IsOrderedAddMonoid T]

/-- A time limit leaves the agent until the end of the budget, if that has not come. -/
lemma deadline_spec {iterStart : T} (agentIteration componentBudget : T) (hon : 0 < componentBudget) :
    (∃ deadline, streamerDeadline iterStart (iterationTimeout agentIteration componentBudget iterStart loopStart) =
        some deadline ∧ iterStart < deadline ∧ deadline ≤ loopStart + componentBudget) ↔
      iterStart - loopStart < componentBudget := by
  have hremaining : iterStart + (componentBudget - (iterStart - loopStart)) = loopStart + componentBudget := by abel
  unfold iterationTimeout
  simp only [if_pos hon]
  constructor
  · rintro ⟨deadline, hdeadline, hlt, hle⟩
    have hend : iterStart < loopStart + componentBudget := hlt.trans_le hle
    rwa [sub_lt_iff_lt_add, add_comm]
  · intro hbefore
    have hpos : 0 < componentBudget - (iterStart - loopStart) := sub_pos.mpr hbefore
    split
    · next limit hlimit =>
        have hlimitPos : 0 < limit := by
          split_ifs at hlimit with hset
          cases hlimit
          exact hset
        refine ⟨_, if_pos (lt_min hlimitPos hpos), lt_add_of_pos_right _ (lt_min hlimitPos hpos), ?_⟩
        rw [← hremaining]
        exact add_le_add_right (min_le_right _ _) _
    · exact ⟨_, if_pos hpos, lt_add_of_pos_right _ hpos, hremaining.le⟩

/-- The limits of a loop: on what it reports, on what it starts, and on the calls it makes. -/
structure Within (c : LoopConfig T A) (loopStart : T) (script : ℕ → Iteration T A)
    (run : LoopResult T A × List (Call T A)) : Prop where
  /-- completed only with the marker seen and the guard passed in the last iteration -/
  completed : run.1.completed = true → ∃ j call, run.2.getLast? = some call ∧ call.iteration = j + 1 ∧
    run.1.iterations = j + 1 ∧ (script j).completionSeen = true ∧ (c.guarded = true → (script j).guardOk = true)
  /-- none but the first iteration starts once a ceiling is reached -/
  ceilings : ∀ call ∈ run.2, call.iteration ≠ 1 → Cleared c call.usage
  /-- or once the budget of the component is over -/
  clock : ∀ call ∈ run.2, call.iteration ≠ 1 → 0 < c.componentTotal → call.start - loopStart < c.componentTotal
  /-- every call under such a budget has a deadline, after its start and no later than the end of the budget -/
  deadlines : ∀ call ∈ run.2, 0 < c.componentTotal →
    ∃ deadline, call.deadline = some deadline ∧ call.start < deadline ∧ deadline ≤ loopStart + c.componentTotal

/-- **The loop keeps its limits if and only if** the pause and the sleep after each iteration that is followed by
another are shorter than what was left of the component's budget when the clock was read for its verdicts. -/
theorem runLoop_within_iff (p : Printing A) (c : LoopConfig T A) (loopStart : T) (script : ℕ → Iteration T A) :
    Within c loopStart script (runLoop p c loopStart script) ↔
      ∀ call ∈ (runLoop p c loopStart script).2, ∀ k, call.iteration = k + 2 → 0 < c.componentTotal →
        (script k).pause + (script k).slept < c.componentTotal - (elapsed script k + (script k).untilChecked) := by
  have hcalls : ∀ call ∈ (runLoop p c loopStart script).2, ∃ j, CallAt c loopStart script j call ∧
      (0 < j → Cleared c call.usage) := by
    intro call hcall
    unfold runLoop at hcall
    split_ifs at hcall with hready
    · obtain ⟨j, -, hat, -, hcleared⟩ := calls_spec _ 0 (started c loopStart)
        (by simp [started, elapsed]) call hcall
      exact ⟨j, hat, hcleared⟩
    · cases hcall
  -- the next iteration starts before the end of the budget
  have hgap : ∀ k, elapsed script (k + 1) < c.componentTotal ↔
      (script k).pause + (script k).slept < c.componentTotal - (elapsed script k + (script k).untilChecked) := by
    intro k
    rw [elapsed_succ, Iteration.lap, lt_sub_iff_add_lt', add_assoc]
  constructor
  · intro hwithin call hcall k hk hon
    obtain ⟨j, hat, -⟩ := hcalls call hcall
    have hj : j = k + 1 := by have := hat.iteration; omega
    subst hj
    have hclock := hwithin.clock call hcall (by omega) hon
    rw [hat.start, add_sub_cancel_left] at hclock
    exact (hgap k).mp hclock
  · intro hshort
    have hclock : ∀ call ∈ (runLoop p c loopStart script).2, 0 < c.componentTotal →
        call.start - loopStart < c.componentTotal := by
      intro call hcall hon
      obtain ⟨j, hat, -⟩ := hcalls call hcall
      rw [hat.start, add_sub_cancel_left]
      cases j with
      | zero => simpa [elapsed] using hon
      | succ k => exact (hgap k).mpr (hshort call hcall k hat.iteration hon)
    refine ⟨fun h => ?_, fun call hcall hfirst => ?_, fun call hcall _ => hclock call hcall, fun call hcall hon => ?_⟩
    · unfold runLoop at h ⊢
      split_ifs at h ⊢ with hready
      exact completed_spec _ 0 _ h
    · obtain ⟨j, hat, hcleared⟩ := hcalls call hcall
      exact hcleared (Nat.pos_of_ne_zero fun hzero => hfirst (by rw [hat.iteration, hzero]))
    · obtain ⟨j, hat, -⟩ := hcalls call hcall
      rw [Call.deadline, hat.timeout]
      exact (deadline_spec c.agentIteration c.componentTotal hon).mpr (hclock call hcall hon)

end

/-! ## A pause that outlasts the budget -/

/-- An iteration of a minute, with a pause of so many seconds after it. -/
def pausing (pause : ℤ) : Iteration ℤ ℤ where
  stop := false
  duration := 60
  completionSeen := false
  timedOut := false
  records := []
  guardOk := true
  violations := []
  guarding := 0
  stalled := false
  probing := 0
  choice := some 0
  pause := pause
  slept := 0

/-- Two iterations, with a person to ask in between, under ten minutes. -/
def tenMinutes : LoopConfig ℤ ℤ where
  ready := true
  maxIterations := 2
  guarded := false
  interactive := true
  canPrompt := true
  agentIteration := 0
  componentTotal := 600
  budget := none

def noPrinting : Printing ℤ where
  sixDigits := fun _ => ""
  str := fun _ => ""

/-- The two calls of a run in which a person takes so long. -/
def pausedCalls (pause : ℤ) : List (Call ℤ ℤ) :=
  [{ iteration := 1, start := 0, timeout := some 600, usage := 0 },
    { iteration := 2, start := 60 + pause, timeout := some (600 - (60 + pause)), usage := 0 }]

/-- **After a pause of an hour the agent runs without a deadline.** -/
theorem pause_outlasts_budget :
    ¬ Within tenMinutes 0 (fun _ => pausing 3600) (runLoop noPrinting tenMinutes 0 fun _ => pausing 3600) := by
  intro h
  have hcalls : (runLoop noPrinting tenMinutes 0 fun _ => pausing 3600).2 = pausedCalls 3600 := rfl
  obtain ⟨deadline, hdeadline, -⟩ := h.deadlines { iteration := 2, start := 3660, timeout := some (-3060), usage := 0 }
    (hcalls ▸ List.mem_cons_of_mem _ List.mem_cons_self) (by decide)
  cases hdeadline

/-- A pause of a minute is within the budget. -/
theorem runLoop_within_minute :
    Within tenMinutes 0 (fun _ => pausing 60) (runLoop noPrinting tenMinutes 0 fun _ => pausing 60) := by
  refine (runLoop_within_iff noPrinting tenMinutes 0 fun _ => pausing 60).mpr fun call hcall k hk _ => ?_
  have hcalls : (runLoop noPrinting tenMinutes 0 fun _ => pausing 60).2 = pausedCalls 60 := rfl
  rw [hcalls] at hcall
  simp only [pausedCalls, List.mem_cons, List.not_mem_nil, or_false] at hcall
  rcases hcall with rfl | rfl
  · simp at hk
  · obtain rfl : k = 0 := by simpa using hk.symm
    decide

end Kstrl.Loop
