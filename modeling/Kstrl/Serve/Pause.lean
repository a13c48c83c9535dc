import Kstrl.Queue.Items
import Kstrl.Serve.Spend

/-!
# The pause of the queue

The pause marker (`PauseState` of `kstrl/queue/workqueue_items.py`, `pause` and `resume` of
`kstrl/queue/workqueue_store.py`) under the operator's `ks queue pause` and `ks queue resume`, `ks inbox`, and the
steps of `serve_cycle` (`kstrl/serve/serve.py` with `kstrl/serve/serve_gates.py`): the clearing of an elapsed pause
under the lock, the gates outside it, and `_pause_queue` under the lock again.  What runs under `queue_lock` is one
step, and the daemon can die between any two.

* **`step`** is the system; `State.standing` says that the operator has paused the queue and not resumed it.
* **`pause_kept_iff`**: the operator's pause holds at every later time of a history exactly when the daemon never
  writes a pause that lapses while it stands.
* `budget_pause_replaces` is a history in which the daily budget's pause replaces it.
-/

namespace Kstrl

namespace Serve

namespace Pause

/-! ## The marker -/

/-- `PauseState`. -/
structure PauseState where
  paused : Bool := false
  reason : String := ""
  since : String := ""
  resumeAfter : String := ""
  deriving DecidableEq, Repr

/-- `PauseState.active`. -/
def PauseState.active (fmt : IsoFormat) (p : PauseState) (now : ℕ) : Bool :=
  if p.paused then
    match parseIso fmt p.resumeAfter with
    | none => true
    | some deadline => now < deadline
  else false

/-- The file of the marker. -/
inductive Marker where
  | missing
  /-- one that cannot be read or is no marker, with the reason `pause_state` gives -/
  | unreadable (reason : String)
  | holds (state : PauseState)
  deriving DecidableEq, Repr

/-- `Queue.pause_state`. -/
def pauseState : Marker → PauseState
  | .missing => {}
  | .unreadable reason => { paused := true, reason := reason }
  | .holds state => state

/-! ## The gates -/

/-- `Admission`. -/
structure Admission where
  allowed : Bool
  reason : String := ""
  pauseReason : String := ""
  resumeAfter : String := ""
  deriving DecidableEq, Repr

/-- What the gates read of the configuration. -/
structure GateConfig where
  dailyBudgetUsd : ℚ
  allowUncoveredCost : Bool
  maxConsecutivePoison : ℤ

/-- What the gates read of the repository: the ledger, and the calls the progress log records with whether one of
them reported a cost. -/
structure GateReading where
  state : ServeState
  logPath : String
  calls : ℕ
  reported : Bool

section Gates

variable (fmt : IsoFormat) (money : ℚ → String) (config : GateConfig) (reading : GateReading)

/-- `check_poison_breaker`. -/
def checkPoisonBreaker : Admission :=
  if reading.state.consecutivePoison < config.maxConsecutivePoison then { allowed := true }
  else
    { allowed := false
      reason := toString reading.state.consecutivePoison ++ " items poisoned in a row"
      pauseReason := toString reading.state.consecutivePoison ++ " consecutive items poisoned (limit " ++
        toString config.maxConsecutivePoison ++ "); something systemic is failing, not one bad spec" }

/-- `check_cost_coverage`. -/
def checkCostCoverage : Admission :=
  if config.dailyBudgetUsd ≤ 0 ∨ config.allowUncoveredCost then { allowed := true }
  else if reading.state.costCoverageSeen ∨ reading.reported then { allowed := true }
  else if reading.calls = 0 then
    { allowed := false
      reason := "daily_budget_usd is $" ++ money config.dailyBudgetUsd ++ " but no agent call is recorded on this " ++
        "repo yet: the daemon has run nothing and " ++ reading.logPath ++ " holds no component_usage event, so " ++
        "nothing shows the configured agent reports cost. The unreported spend is deliberately NOT estimated. Run " ++
        "`ks factory` on this repo once so its calls record their cost in that log, then run `ks queue resume`, " ++
        "because this refusal pauses the queue, and start `ks serve` again."
      pauseReason := "daily budget is unproven: no agent call recorded yet" }
  else
    { allowed := false
      reason := "daily_budget_usd is $" ++ money config.dailyBudgetUsd ++ " but none of the " ++
        toString reading.calls ++ " agent call(s) recorded in " ++ reading.logPath ++ " reported a cost figure, " ++
        "and no daemon run has either, so the cap can never fire. The unreported spend is deliberately NOT " ++
        "estimated. Use a cost-reporting agent (the codex adapter reports tokens and no cost), or set [serve] " ++
        "allow_uncovered_cost = true to accept an unenforceable budget."
      pauseReason := "daily budget is unenforceable: no cost coverage" }

/-- `_floor_note`. -/
def floorNote (spend : DailySpend) : String :=
  let uncovered := max 0 (spend.totalCalls - spend.coveredCalls)
  let parts := (if 0 < uncovered then [toString uncovered ++ " call(s) reported no cost"] else []) ++
    (if spend.unmeteredPhases = [] then [] else ["unmetered: " ++ String.intercalate ", " spend.unmeteredPhases])
  if parts = [] then "" else " (a FLOOR: " ++ String.intercalate "; " parts ++ ")"

/-- `check_budget`: its pause lapses at the next midnight. -/
def checkBudget (midnight : ℕ) : Admission :=
  if config.dailyBudgetUsd ≤ 0 then { allowed := true }
  else if reading.state.spend.spentUsd < config.dailyBudgetUsd then { allowed := true }
  else
    { allowed := false
      reason := "daily budget reached: $" ++ money reading.state.spend.spentUsd ++ " of $" ++
        money config.dailyBudgetUsd ++ " over " ++ toString reading.state.spend.runs ++ " run(s)" ++
        floorNote reading.state.spend
      pauseReason := "daily budget $" ++ money config.dailyBudgetUsd ++ " reached ($" ++
        money reading.state.spend.spentUsd ++ " spent" ++ floorNote reading.state.spend ++ ")"
      resumeAfter := fmt.isoformat midnight }

/-- The first gate that refuses, or leave to go on. -/
def gates (midnight : ℕ) : Admission :=
  (([checkPoisonBreaker config reading, checkCostCoverage money config reading,
    checkBudget fmt money config reading midnight]).find? fun a => !a.allowed).getD { allowed := true }

end Gates

/-! ## The system -/

/-- Where the daemon is in its cycle. -/
inductive Phase where
  | idle
  /-- before the clearing of an elapsed pause, at the moment of the cycle -/
  | recovered (moment : ℕ)
  /-- the queue was not paused -/
  | admitting
  /-- a gate refused and wants a pause -/
  | pausing (admission : Admission)
  /-- an item is run -/
  | working
  deriving DecidableEq, Repr

structure State where
  now : ℕ := 0
  marker : Marker := .missing
  phase : Phase := .idle
  /-- the operator has paused the queue, and not resumed it since -/
  standing : Bool := false
  deriving DecidableEq, Repr

inductive Action where
  | tick (elapsed : ℕ)
  /-- `ks queue pause` -/
  | operatorPauses (reason : String)
  /-- `ks queue resume` -/
  | operatorResumes
  /-- `ks inbox`, on spend it cannot read -/
  | inboxPauses (reason : String)
  | cycleBegins
  /-- the elapsed pause is cleared under the lock -/
  | clears
  /-- the gates, outside the lock -/
  | asksGates (reading : GateReading) (midnight : ℕ)
  /-- `_pause_queue` -/
  | pauses
  /-- the run is over, and its spend cannot be read or the base is red -/
  | pausesAfterRun (reason : String)
  /-- the cycle comes to its end -/
  | cycleEnds
  | dies

section System

variable (fmt : IsoFormat) (money : ℚ → String) (config : GateConfig)

/-- `Queue.pause`. -/
def pause (now : ℕ) (reason resumeAfter : String) : Marker :=
  .holds { paused := true, reason := reason, since := fmt.isoformat now, resumeAfter := resumeAfter }

/-- `Queue.resume`. -/
def resume : Marker := .holds {}

/-- The block that clears an elapsed pause: what it leaves, and whether the queue is still paused. -/
def clearElapsed (marker : Marker) (moment : ℕ) : Marker × Bool :=
  let found := pauseState marker
  let left := if found.paused ∧ found.active fmt moment = false then resume else marker
  (left, (pauseState left).active fmt moment)

/-- `x or y`. -/
def orText (x y : String) : String := if x = "" then y else x

/-- One step; an action that is not at its place in the cycle does nothing. -/
def step (s : State) : Action → State
  | .tick elapsed => { s with now := s.now + elapsed }
  | .operatorPauses reason => { s with marker := pause fmt s.now reason "", standing := true }
  | .operatorResumes => { s with marker := resume, standing := false }
  | .inboxPauses reason => { s with marker := pause fmt s.now reason "" }
  | .cycleBegins => if s.phase = .idle then { s with phase := .recovered s.now } else s
  | .clears =>
    match s.phase with
    | .recovered moment =>
      { s with
        marker := (clearElapsed fmt s.marker moment).1
        phase := if (clearElapsed fmt s.marker moment).2 then .idle else .admitting }
    | _ => s
  | .asksGates reading midnight =>
    match s.phase with
    | .admitting =>
      let admission := gates fmt money config reading midnight
      { s with
        phase := if admission.allowed then .working
          else if admission.pauseReason = "" then .idle
          else .pausing admission }
    | _ => s
  | .pauses =>
    match s.phase with
    | .pausing admission =>
      { s with
        marker := pause fmt s.now (orText admission.pauseReason admission.reason) admission.resumeAfter
        phase := .idle }
    | _ => s
  | .pausesAfterRun reason =>
    match s.phase with
    | .working => { s with marker := pause fmt s.now reason "", phase := .idle }
    | _ => s
  | .cycleEnds | .dies => { s with phase := .idle }

/-- A history. -/
def run (s : State) (actions : List Action) : State := actions.foldl (step fmt money config) s

/-- While the operator's pause stands, the queue is paused, whatever time it is. -/
def Kept (s : State) : Prop := s.standing → ∀ t ≥ s.now, (pauseState s.marker).active fmt t

/-- The daemon writes a pause that lapses while the operator's stands. -/
def Replaces (s : State) (a : Action) : Prop :=
  a matches .pauses ∧ s.standing ∧ ∃ admission deadline, s.phase = .pausing admission ∧
    parseIso fmt admission.resumeAfter = some deadline

/-! ## The operator's pause -/

variable {fmt money config} {s : State} {a : Action}

/-- A pause without an end, which every moment is within. -/
def PauseState.Endless (fmt : IsoFormat) (p : PauseState) : Prop := p.paused ∧ parseIso fmt p.resumeAfter = none

lemma PauseState.Endless.active {p : PauseState} (h : p.Endless fmt) (t : ℕ) : p.active fmt t := by
  rw [PauseState.active, if_pos h.1, h.2]

/-- A pause that holds from some moment on has no end. -/
lemma endless_of_active {p : PauseState} {now : ℕ} (h : ∀ t ≥ now, p.active fmt t) : p.Endless fmt := by
  have hpaused : p.paused := by
    by_contra hnot
    have hnow := h now le_rfl
    rw [PauseState.active, if_neg hnot] at hnow
    cases hnow
  refine ⟨hpaused, ?_⟩
  cases hend : parseIso fmt p.resumeAfter with
  | none => rfl
  | some deadline =>
      have hlate := h (max now deadline) (le_max_left _ _)
      rw [PauseState.active, if_pos hpaused, hend] at hlate
      exact absurd (of_decide_eq_true hlate) (not_lt.mpr (le_max_right _ _))

lemma kept_iff : Kept fmt s ↔ (s.standing → (pauseState s.marker).Endless fmt) := by
  refine ⟨fun h hstanding => endless_of_active (h hstanding), fun h hstanding t _ => (h hstanding).active t⟩

lemma endless_pause (now : ℕ) (reason : String) : (pauseState (pause fmt now reason "")).Endless fmt :=
  ⟨rfl, parseIso_empty fmt⟩

/-- The clearing leaves a pause without an end alone. -/
lemma clearElapsed_endless {marker : Marker} (h : (pauseState marker).Endless fmt) (moment : ℕ) :
    (clearElapsed fmt marker moment).1 = marker := by
  simp only [clearElapsed, h.active moment, Bool.true_eq_false, and_false, if_false]

/-- **One step** keeps the operator's pause, unless it replaces it. -/
lemma step_kept (h : Kept fmt s) (hnot : ¬ Replaces fmt s a) : Kept fmt (step fmt money config s a) := by
  rw [kept_iff] at h ⊢
  cases a with
  | tick elapsed => exact h
  | operatorPauses reason => exact fun _ => endless_pause _ _
  | operatorResumes => exact nofun
  | inboxPauses reason => exact fun _ => endless_pause _ _
  | cycleBegins =>
      simp only [step]
      split_ifs <;> exact h
  | clears =>
      simp only [step]
      split
      · intro hstanding
        simp only [clearElapsed_endless (h hstanding)]
        exact h hstanding
      · exact h
  | asksGates reading midnight =>
      simp only [step]
      split <;> exact h
  | pauses =>
      simp only [step]
      split
      · rename_i admission hphase
        intro hstanding
        refine ⟨rfl, ?_⟩
        cases hend : parseIso fmt admission.resumeAfter with
        | none => exact hend
        | some deadline => exact absurd ⟨rfl, hstanding, admission, deadline, hphase, hend⟩ hnot
      · exact h
  | pausesAfterRun reason =>
      simp only [step]
      split
      · exact fun _ => endless_pause _ _
      · exact h
  | cycleEnds => exact h
  | dies => exact h

/-- A step that replaces it does not keep it. -/
lemma not_kept_of_replaces (h : Replaces fmt s a) : ¬ Kept fmt (step fmt money config s a) := by
  obtain ⟨hpauses, hstanding, admission, deadline, hphase, hend⟩ := h
  cases a <;> try cases hpauses
  rw [kept_iff]
  intro hkept
  simp only [step, hphase] at hkept
  have hnone := (hkept hstanding).2
  simp only [pauseState, pause, hend] at hnone
  cases hnone

/-- From any state in which no pause of the operator stands, over any history: his pauses are kept until he resumes
exactly when none is replaced. -/
theorem pause_kept_iff (fmt : IsoFormat) (money : ℚ → String) (config : GateConfig) (now : ℕ) (marker : Marker)
    (phase : Phase) (actions : List Action) :
    (∀ front rest, actions = front ++ rest → Kept fmt (run fmt money config ⟨now, marker, phase, false⟩ front)) ↔
      ∀ front a rest, actions = front ++ a :: rest →
        ¬ Replaces fmt (run fmt money config ⟨now, marker, phase, false⟩ front) a := by
  constructor
  · intro h front a rest hactions hreplaces
    have hafter := h (front ++ [a]) rest (by simp [hactions])
    rw [run, List.foldl_append, List.foldl_cons, List.foldl_nil] at hafter
    exact not_kept_of_replaces hreplaces hafter
  · intro h front
    induction front using List.reverseRecOn with
    | nil => exact fun _ _ => nofun
    | append_singleton front a ih =>
        intro rest hactions
        have hcons : actions = front ++ a :: rest := by simp [hactions]
        rw [run, List.foldl_append, List.foldl_cons, List.foldl_nil]
        exact step_kept (ih (a :: rest) hcons) (h front a rest hcons)

end System

/-- A ledger with 20 dollars spent today. -/
def overBudget : GateReading where
  state := { spend := { spentUsd := 20 }, costCoverageSeen := true }
  logPath := ""
  calls := 1
  reported := true

/-- The gates find the daily budget reached, the operator pauses the queue, and the daemon writes its pause, which
ends at midnight. -/
def budgetAfterOperator : List Action :=
  [.cycleBegins, .clears, .asksGates overBudget 86400000000, .operatorPauses "the base is broken", .pauses,
    .tick 86400000000]

/-- The state at midnight, under a daily budget of 10 dollars. -/
def atMidnight : State := run IsoTime.utc (fun _ => "") ⟨10, false, 3⟩ {} budgetAfterOperator

/-- The queue runs again, and the operator has not resumed it. -/
theorem budget_pause_replaces :
    atMidnight.standing = true ∧ (pauseState atMidnight.marker).active IsoTime.utc atMidnight.now = false ∧
      ¬ Kept IsoTime.utc atMidnight := by
  have hstanding : atMidnight.standing = true := by decide +kernel
  have hover : (pauseState atMidnight.marker).active IsoTime.utc atMidnight.now = false := by decide +kernel
  refine ⟨hstanding, hover, fun hkept => ?_⟩
  have hactive := hkept hstanding atMidnight.now le_rfl
  rw [hover] at hactive
  cases hactive

end Pause

end Serve

end Kstrl
