import Mathlib.Algebra.Order.Field.Basic
import Mathlib.Algebra.BigOperators.Group.List.Basic
import Mathlib.Tactic.FieldSimp
import Mathlib.Tactic.NormNum
import Kstrl.Base.Json

/-!
# Health of the factory

The control charts of `kstrl/learning/health.py`: a metric is one number a decisive run, the last three of them
are watched against the mean and the deviation of those before, and the first of three one-sided rules that holds
of them is reported, with the point and the limit it is about.

The numbers are those of an ordered field.  `statistics.fmean` and `statistics.pstdev` are parameters, so every
mean and every deviation of a baseline is covered.

* **`reading_faithful_iff`**: the breach of a reading is there exactly when a rule holds, and its value is beyond
  its limit, if and only if the series does not end at a point within the limit after two points beyond it.
* **`healthBreaches_beyond_iff`**: the same for the breaches of a whole history.
* `settled_series_misreported` is a series whose breach names a value below its limit.
-/

namespace Kstrl

namespace Learning

namespace Health

/-! ## The arithmetic of one metric -/

/-- `MIN_DECISIVE_RUNS`. -/
def minDecisiveRuns : ℕ := 8

/-- `MONITORED_RUNS`. -/
def monitoredRuns : ℕ := 3

def ruleOnePoint : String := "1 point beyond 3 sigma"

def ruleTwoOfThree : String := "2 of 3 beyond 2 sigma"

def ruleEwma : String := "EWMA(0.2) beyond 3 sigma"

section Reading

variable {K : Type*} [Field K] [LinearOrder K]

/-- `HealthBreach`. -/
structure HealthBreach (K : Type*) where
  metric : String
  rule : String
  value : K
  limit : K
  windowRuns : ℕ

/-- `LAMBDA`. -/
def healthLambda : K := 1 / 5

/-- `(LAMBDA / (2.0 - LAMBDA)) ** 0.5`. -/
def ewmaSpread : K := 1 / 3

/-- `ewma`. -/
def ewma (values : List K) (start : K) : K :=
  values.foldl (fun z x => healthLambda * x + (1 - healthLambda) * z) start

/-- `MetricReading`. -/
structure MetricReading (K : Type*) where
  metric : String
  values : List K
  mean : Option K := none
  sigma : Option K := none
  ewma : Option K := none
  breach : Option (HealthBreach K) := none

namespace MetricReading

/-- What the three limits have in common: none below the floor or without variance. -/
def limit (width : K → K) (r : MetricReading K) : Option K :=
  match r.mean, r.sigma with
  | some mean, some sigma => if sigma ≤ 0 then none else some (mean + width sigma)
  | _, _ => none

/-- `limit_2sigma`. -/
def limit2sigma (r : MetricReading K) : Option K := r.limit fun sigma => 2 * sigma

/-- `limit_3sigma`. -/
def limit3sigma (r : MetricReading K) : Option K := r.limit fun sigma => 3 * sigma

/-- `limit_ewma`. -/
def limitEwma (r : MetricReading K) : Option K := r.limit fun sigma => 3 * (sigma * ewmaSpread)

end MetricReading

/-- `series[:-MONITORED_RUNS]`. -/
def baseline (series : List K) : List K := series.take (series.length - monitoredRuns)

/-- `series[-MONITORED_RUNS:]`. -/
def monitored (series : List K) : List K := series.drop (series.length - monitoredRuns)

/-- `max` of the monitored points, of which there is at least one. -/
def worst : List K → K
  | [] => 0
  | x :: rest => rest.foldl max x

/-- The rules of `_reading`, in order, each with the point and the limit it reports. -/
def breachOf (metric : String) (series : List K) (level limit2 limit3 limitE : K) : Option (HealthBreach K) :=
  if limit3 < worst (monitored series) then
    some ⟨metric, ruleOnePoint, worst (monitored series), limit3, series.length⟩
  else if 2 ≤ ((monitored series).filter fun x => limit2 < x).length then
    some ⟨metric, ruleTwoOfThree, (monitored series).getLastD 0, limit2, series.length⟩
  else if limitE < level then some ⟨metric, ruleEwma, level, limitE, series.length⟩
  else none

/-- `_reading`. -/
def reading (fmean pstdev : List K → K) (metric : String) (values : List K) : MetricReading K :=
  if values.length < minDecisiveRuns then { metric, values }
  else
    let mean := fmean (baseline values)
    let sigma := pstdev (baseline values)
    if sigma ≤ 0 then { metric, values, mean := some mean, sigma := some sigma }
    else
      let level := ewma values mean
      let scored : MetricReading K :=
        { metric, values, mean := some mean, sigma := some sigma, ewma := some level }
      match scored.limit2sigma, scored.limit3sigma, scored.limitEwma with
      | some limit2, some limit3, some limitE =>
        { scored with breach := breachOf metric values level limit2 limit3 limitE }
      | _, _, _ => scored

end Reading

/-! ## The history -/

section History

variable {K : Type*} [Field K] [LinearOrder K]

/-- What the health of the factory reads of a `RunRecord`. -/
structure RunRecord (K : Type*) where
  runId : String
  completed : ℕ
  failed : ℕ
  retryRate : K
  commonFailure : String
  totalCostUsd : Option K := none

variable (infraFailurePrefixes : List String)

/-- `RunRecord.infra_aborted`, for the prefixes of `INFRA_FAILURE_PREFIXES`. -/
def RunRecord.infraAborted (run : RunRecord K) : Bool :=
  infraFailurePrefixes.any fun start => start.toList.isPrefixOf run.commonFailure.toList

/-- `RunRecord.decisive`. -/
def RunRecord.decisive (run : RunRecord K) : Bool :=
  if run.infraAborted infraFailurePrefixes then false else 0 < run.completed + run.failed

/-- `_entry_infra_count`. -/
def entryInfraCount (entry : Json) : Option (String × Option ℤ) :=
  match entry.get? "event_type", entry.get? "run_id" with
  | some (.str kind), some (.str runId) =>
    if kind ≠ "component_result" ∨ runId = "" then none
    else
      match (entry.field "findings_summary").get? "infrastructure_errors" with
      | some (.int count) => some (runId, some count)
      | _ => some (runId, none)
  | _, _ => none

/-- `_infra_rate_by_run`, at one run: nothing without counts, or when one of them is malformed. -/
def infraRateByRun (entries : List Json) (runId : String) : Option K :=
  let counts := ((entries.filterMap entryInfraCount).filter fun c => c.1 = runId).map (·.2)
  let valid := counts.filterMap id
  if counts ≠ [] ∧ valid.length = counts.length then some ((valid.sum : ℤ) / (valid.length : K)) else none

/-- `_run_series`: three series over the decisive runs. -/
def runSeries (runs : List (RunRecord K)) (infraByRun : String → Option K) : List (String × List K) :=
  let decisive := runs.filter fun run => run.decisive infraFailurePrefixes
  [("retry_rate", decisive.map (·.retryRate)),
   ("cost_per_merged_component", decisive.filterMap fun run =>
     match run.totalCostUsd with
     | some cost => if 0 < run.completed then some (cost / (run.completed : K)) else none
     | none => none),
   ("infrastructure_error_rate", decisive.filterMap fun run => infraByRun run.runId)]

/-- `readings_from`, on journal entries without the carried results. -/
def readingsFrom (fmean pstdev : List K → K) (runs : List (RunRecord K)) (entries : List Json) :
    List (MetricReading K) :=
  (runSeries infraFailurePrefixes runs (infraRateByRun entries)).map fun s => reading fmean pstdev s.1 s.2

/-- `_breaches`. -/
def breaches (readings : List (MetricReading K)) : List (HealthBreach K) := readings.filterMap (·.breach)

/-- `health_breaches`, on what `load_runs` and `read_progress_events` return. -/
def healthBreaches (fmean pstdev : List K → K) (runs : List (RunRecord K)) (entries : List Json) :
    List (HealthBreach K) :=
  breaches (readingsFrom infraFailurePrefixes fmean pstdev runs entries)

end History

/-! ## The documented rules -/

section Rules

variable {K : Type*} [Field K] [LinearOrder K]

/-- One point beyond three sigma. -/
def OnePoint (mean sigma : K) (series : List K) : Prop := ∃ x ∈ monitored series, mean + 3 * sigma < x

/-- Two of the last three monitored points beyond two sigma. -/
def TwoOfThree (mean sigma : K) (series : List K) : Prop :=
  2 ≤ ((monitored series).filter fun x => mean + 2 * sigma < x).length

/-- The weighted average of the series beyond its own three sigma. -/
def RunRule (mean sigma : K) (series : List K) : Prop :=
  mean + 3 * (sigma * ewmaSpread) < ewma series mean

/-- A series the rules are about: at the floor or over it, and with variance in its baseline. -/
def Scored (pstdev : List K → K) (series : List K) : Prop :=
  minDecisiveRuns ≤ series.length ∧ 0 < pstdev (baseline series)

/-- One of the rules holds of a series. -/
def RuleHolds (fmean pstdev : List K → K) (series : List K) : Prop :=
  Scored pstdev series ∧
    (OnePoint (fmean (baseline series)) (pstdev (baseline series)) series ∨
      TwoOfThree (fmean (baseline series)) (pstdev (baseline series)) series ∨
      RunRule (fmean (baseline series)) (pstdev (baseline series)) series)

/-- What a reading promises: a breach exactly when a rule holds, and a value beyond the limit in it. -/
def MetricReading.Faithful (fmean pstdev : List K → K) (r : MetricReading K) : Prop :=
  (∀ b, r.breach = some b → b.limit < b.value) ∧ (r.breach.isSome ↔ RuleHolds fmean pstdev r.values)

/-- The second rule is the first that holds, and the series has come back within its limit at the last point. -/
def Settled (fmean pstdev : List K → K) (series : List K) : Prop :=
  Scored pstdev series ∧
    ¬ OnePoint (fmean (baseline series)) (pstdev (baseline series)) series ∧
    TwoOfThree (fmean (baseline series)) (pstdev (baseline series)) series ∧
    (monitored series).getLastD 0 ≤ fmean (baseline series) + 2 * pstdev (baseline series)

end Rules

/-! ## The rules of the code -/

section Faithful

variable {K : Type*} [Field K] [LinearOrder K]

/-- The factor of the averaged limit is the root the source takes. -/
lemma ewmaSpread_sq [IsStrictOrderedRing K] :
    (ewmaSpread : K) ^ 2 = healthLambda / (2 - healthLambda) := by
  have htwo : (2 : K) - 1 / 5 = 9 / 5 := by norm_num
  rw [ewmaSpread, healthLambda, htwo]
  norm_num

lemma lt_foldl_max {c z : K} {xs : List K} : c < xs.foldl max z ↔ c < z ∨ ∃ x ∈ xs, c < x := by
  induction xs generalizing z with
  | nil => simp
  | cons x rest ih => simp [ih, or_assoc]

/-- The worst point is beyond a limit exactly when some point is. -/
lemma lt_worst_iff {c : K} {xs : List K} (h : xs ≠ []) : c < worst xs ↔ ∃ x ∈ xs, c < x := by
  cases xs with
  | nil => exact absurd rfl h
  | cons x rest => simp [worst, lt_foldl_max]

omit [Field K] [LinearOrder K] in
lemma monitored_ne_nil {series : List K} (h : minDecisiveRuns ≤ series.length) : monitored series ≠ [] := by
  simp only [minDecisiveRuns] at h
  intro hnil
  have hlen := congrArg List.length hnil
  simp only [monitored, monitoredRuns, List.length_drop, List.length_nil] at hlen
  omega

section BreachOf

variable {metric : String} {series : List K} {level limit2 limit3 limitE : K}

lemma breachOf_isSome :
    (breachOf metric series level limit2 limit3 limitE).isSome ↔
      limit3 < worst (monitored series) ∨ 2 ≤ ((monitored series).filter fun x => limit2 < x).length ∨
        limitE < level := by
  simp only [breachOf]
  split_ifs with hone htwo haverage <;> simp [*]

/-- Only the second rule reports a point it did not compare. -/
lemma breachOf_beyond :
    (∀ b, breachOf metric series level limit2 limit3 limitE = some b → b.limit < b.value) ↔
      ¬ (¬ limit3 < worst (monitored series) ∧ 2 ≤ ((monitored series).filter fun x => limit2 < x).length ∧
        (monitored series).getLastD 0 ≤ limit2) := by
  simp only [breachOf]
  split_ifs with hone htwo haverage <;> simp [*]

end BreachOf

section OneReading

variable {fmean pstdev : List K → K} {metric : String} {values : List K}

lemma reading_values : (reading fmean pstdev metric values).values = values := by
  simp only [reading]
  split_ifs
  · rfl
  · rfl
  · split <;> rfl

lemma reading_breach_scored (h : Scored pstdev values) :
    (reading fmean pstdev metric values).breach =
      breachOf metric values (ewma values (fmean (baseline values)))
        (fmean (baseline values) + 2 * pstdev (baseline values))
        (fmean (baseline values) + 3 * pstdev (baseline values))
        (fmean (baseline values) + 3 * (pstdev (baseline values) * ewmaSpread)) := by
  simp only [reading, if_neg (not_lt.mpr h.1), if_neg (not_le.mpr h.2), MetricReading.limit2sigma,
    MetricReading.limit3sigma, MetricReading.limitEwma, MetricReading.limit]

lemma reading_breach_unscored (h : ¬ Scored pstdev values) :
    (reading fmean pstdev metric values).breach = none := by
  simp only [reading]
  split_ifs with hfloor hflat
  · rfl
  · rfl
  · exact absurd ⟨not_lt.mp hfloor, not_le.mp hflat⟩ h

/-- The value of a breach is beyond its limit, unless the series is settled. -/
lemma reading_beyond_iff :
    (∀ b, (reading fmean pstdev metric values).breach = some b → b.limit < b.value) ↔
      ¬ Settled fmean pstdev values := by
  by_cases h : Scored pstdev values
  · rw [reading_breach_scored h, breachOf_beyond, lt_worst_iff (monitored_ne_nil h.1)]
    simp only [Settled, h, true_and]
    rfl
  · simp [reading_breach_unscored h, Settled, h]

/-- There is a breach exactly when a rule holds. -/
lemma reading_isSome_iff :
    (reading fmean pstdev metric values).breach.isSome ↔ RuleHolds fmean pstdev values := by
  by_cases h : Scored pstdev values
  · rw [reading_breach_scored h, breachOf_isSome, lt_worst_iff (monitored_ne_nil h.1)]
    simp only [RuleHolds, h, true_and]
    rfl
  · simp [reading_breach_unscored h, RuleHolds, h]

end OneReading

/-- A reading is faithful to the rules unless its series is settled, for every series, mean and deviation. -/
theorem reading_faithful_iff (fmean pstdev : List K → K) (metric : String) (values : List K) :
    (reading fmean pstdev metric values).Faithful fmean pstdev ↔ ¬ Settled fmean pstdev values := by
  rw [MetricReading.Faithful, reading_values, reading_beyond_iff]
  exact and_iff_left reading_isSome_iff

/-- All breaches of a history are beyond their limits exactly when none of its series is settled. -/
theorem healthBreaches_beyond_iff (infraFailurePrefixes : List String) (fmean pstdev : List K → K)
    (runs : List (RunRecord K)) (entries : List Json) :
    (∀ b ∈ healthBreaches infraFailurePrefixes fmean pstdev runs entries, b.limit < b.value) ↔
      ∀ s ∈ runSeries infraFailurePrefixes runs (infraRateByRun entries), ¬ Settled fmean pstdev s.2 := by
  simp only [healthBreaches, breaches, readingsFrom, List.mem_filterMap, List.mem_map]
  constructor
  · intro h s hs
    refine (@reading_beyond_iff _ _ _ fmean pstdev s.1 s.2).mp ?_
    intro b hb
    exact h b ⟨_, ⟨s, hs, rfl⟩, hb⟩
  · rintro h b ⟨_, ⟨s, hs, rfl⟩, hb⟩
    exact reading_beyond_iff.mpr (h s hs) b hb

end Faithful

/-- A series whose baseline has the mean 2 and the deviation 1, and that is back at the mean at the last point. -/
def settledSeries : List ℚ := [1, 3, 1, 3, 1, 3, 9 / 2, 9 / 2, 2]

/-- `statistics.fmean`, on numbers without rounding. -/
def meanOf (xs : List ℚ) : ℚ := xs.sum / xs.length

/-- Two of its points are beyond two sigma: what is reported is the mean, as beyond the limit 4. -/
theorem settled_series_misreported :
    meanOf (baseline settledSeries) = 2 ∧ meanOf ((baseline settledSeries).map fun x => (x - 2) ^ 2) = 1 ^ 2 ∧
      (reading meanOf (fun _ => 1) "retry_rate" settledSeries).breach.map (fun b => (b.value, b.limit)) =
        some (2, 4) ∧
      ¬ (reading meanOf (fun _ => 1) "retry_rate" settledSeries).Faithful meanOf fun _ => 1 := by
  have hbreach : (reading meanOf (fun _ => 1) "retry_rate" settledSeries).breach.map
      (fun b => (b.value, b.limit)) = some (2, 4) := by decide +kernel
  refine ⟨by decide +kernel, by decide +kernel, hbreach, ?_⟩
  rintro ⟨hbeyond, -⟩
  obtain ⟨b, hb, hpair⟩ := Option.map_eq_some_iff.mp hbreach
  obtain ⟨hvalue, hlimit⟩ := Prod.mk.inj hpair
  have hlt := hbeyond b hb
  rw [hvalue, hlimit] at hlt
  exact absurd hlt (by norm_num)

end Health

end Learning

end Kstrl
