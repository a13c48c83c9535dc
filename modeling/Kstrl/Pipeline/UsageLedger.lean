import Kstrl.Base.Rounding
import Kstrl.Base.Rows
import Kstrl.Plan.Manifest
import Mathlib.Algebra.Order.Ring.Rat

/-!
# The usage meter and what a run takes over

`UsageTotals` (`kstrl/events/usage.py`), the usage meter of a run and the takeover of the spend of an
interrupted run (`kstrl/pipeline/pipeline_ledger.py`, `EvolutionJournal.carry_superseded` of
`kstrl/learning/evolution.py`).

* A run's ledger is its event stream.  Of the events the ones the takeover reads are kept: the usage of a
  component and a phase, and an attempt that was sent back.
* **`spentBy`** sums a ledger per component and phase; `total_spentBy` says that nothing is lost in it.
* **`takeOverAttempts`** says which attempts of an interrupted run a resume answers for.
* Amounts are added exactly, and a ledger holds them as `to_dict` rounds them.
-/

namespace Kstrl

namespace Pipeline

open Rows

/-! ## Totals -/

/-- Aggregate of the usage records of a phase, a component or a run. -/
@[ext]
structure UsageTotals where
  calls : ℕ := 0
  knownCalls : ℕ := 0
  tokenCalls : ℕ := 0
  costCalls : ℕ := 0
  inputTokens : ℤ := 0
  outputTokens : ℤ := 0
  cacheReadTokens : ℤ := 0
  cacheCreationTokens : ℤ := 0
  totalTokens : ℤ := 0
  costUsd : ℚ := 0
  durationSeconds : ℚ := 0
  deriving DecidableEq, Repr

namespace UsageTotals

/-- Fold another totals object into this one. -/
def merge (a b : UsageTotals) : UsageTotals where
  calls := a.calls + b.calls
  knownCalls := a.knownCalls + b.knownCalls
  tokenCalls := a.tokenCalls + b.tokenCalls
  costCalls := a.costCalls + b.costCalls
  inputTokens := a.inputTokens + b.inputTokens
  outputTokens := a.outputTokens + b.outputTokens
  cacheReadTokens := a.cacheReadTokens + b.cacheReadTokens
  cacheCreationTokens := a.cacheCreationTokens + b.cacheCreationTokens
  totalTokens := a.totalTokens + b.totalTokens
  costUsd := a.costUsd + b.costUsd
  durationSeconds := a.durationSeconds + b.durationSeconds

instance : Zero UsageTotals := ⟨{}⟩

instance : Add UsageTotals := ⟨merge⟩

instance : AddCommMonoid UsageTotals where
  add_assoc a b c := by ext <;> exact add_assoc _ _ _
  zero_add a := by ext <;> exact zero_add _
  add_zero a := by ext <;> exact add_zero _
  add_comm a b := by ext <;> exact add_comm _ _
  nsmul := nsmulRec

/-- `to_dict`: a ledger holds a cost of six decimal places and a duration of two. -/
def toDict (t : UsageTotals) : UsageTotals :=
  { t with
    costUsd := (Rounding.decimal 6).round t.costUsd
    durationSeconds := (Rounding.decimal 2).round t.durationSeconds }

end UsageTotals

/-! ## Ledgers -/

/-- The events of a run's stream that a takeover reads. -/
inductive LedgerEvent where
  | usage (component phase : String) (totals : UsageTotals)
  | retrying (component : String) (attempt : ℤ) (reason : String)
  deriving DecidableEq, Repr

/-- What an event adds to the spend. -/
def LedgerEvent.spend : LedgerEvent → UsageTotals
  | usage _ _ totals => totals
  | retrying .. => 0

/-- The spend of a ledger. -/
def total (events : List LedgerEvent) : UsageTotals := (events.map LedgerEvent.spend).sum

/-- How often a ledger says that an attempt was sent back. -/
def retriesOf (events : List LedgerEvent) (component : String) (attempt : ℤ) : ℕ :=
  events.countP fun
    | .retrying c k _ => c = component ∧ k = attempt
    | _ => false

/-- The row of a component and a phase. -/
abbrev SpentRow := (String × String) × UsageTotals

def SpentRow.fresh (key : String × String) : SpentRow := (key, 0)

def SpentRow.add (totals : UsageTotals) (row : SpentRow) : SpentRow := (row.1, row.2 + totals)

/-- Every `component_usage`, summed per component and phase. -/
def spentBy (events : List LedgerEvent) : List SpentRow :=
  events.foldl (fun spent event => match event with
    | .usage component phase totals =>
        touch Prod.fst SpentRow.fresh (component, phase) (SpentRow.add totals) spent
    | .retrying .. => spent) []

/-- `_record_usage`: what the meter and the ledger get. -/
def recordUsage (component phase : String) (totals : UsageTotals) : UsageTotals × List LedgerEvent :=
  if totals.calls = 0 then (0, []) else (totals, [.usage component phase totals.toDict])

/-! ## The takeover -/

def carriedReasonPrefix : String := "carried from run "

/-- A reason marked as carried, once. -/
def carriedReason (priorRunId reason : String) : String :=
  if carriedReasonPrefix.toList.isPrefixOf reason.toList then reason
  else carriedReasonPrefix ++ priorRunId ++ ": " ++ reason

/-- The attempts of each component a resume takes over, the first and the last. -/
abbrev Owed := List (String × (ℤ × ℤ))

/-- The owed attempts of a component; of two entries of one id the later counts. -/
def Owed.range? (owed : Owed) (component : String) : Option (ℤ × ℤ) := owed.reverse.lookup component

/-- `attempt in owed.get(component, range(0))`. -/
def Owed.covers (owed : Owed) (component : String) (attempt : ℤ) : Bool :=
  match owed.range? component with
  | some (first, last) => first ≤ attempt && attempt ≤ last
  | none => false

/-- The attempts of an interrupted run that a resume takes over: those of the components it runs again. -/
def owedAttempts (components : List Component) (carrying : Bool) : Owed :=
  if carrying then
    (components.filter (·.status = .pending)).map fun c => (c.id, (c.firstAttempt, c.retries))
  else []

/-- Set the first attempt each component answers for in this run; the earlier attempts it takes over. -/
def takeOverAttempts (components : List Component) (carrying : Bool) : Owed × List Component :=
  let owed := owedAttempts components carrying
  (owed, components.map fun c =>
    if c.id ∈ owed.map Prod.fst then c else { c with firstAttempt := c.retries + 1 })

/-- A retried attempt of the interrupted run, written again. -/
def carriedRetry? (prior : String) (owed : Owed) : LedgerEvent → Option LedgerEvent
  | .retrying component attempt reason =>
      if owed.covers component attempt then
        some (.retrying component attempt (carriedReason prior reason))
      else none
  | .usage .. => none

/-- What is recorded again of a ledger: its spend for each component and phase, and the retried attempts. -/
def carriedEvents (prior : String) (owed : Owed) (events : List LedgerEvent) : List LedgerEvent :=
  (spentBy events).map (fun row => .usage row.1.1 row.1.2 row.2) ++
    events.filterMap ( carriedRetry? prior owed)

/-- A row of the evolution journal about a superseded attempt. -/
structure Reading where
  runId : String
  component : String
  attempt : ℤ
  carriedFromRun : String := ""
  deriving DecidableEq, Repr

/-- How often the journal holds an attempt under a run. -/
def readingsOf (journal : List Reading) (runId component : String) (attempt : ℤ) : ℕ :=
  journal.countP fun r => r.runId = runId ∧ r.component = component ∧ r.attempt = attempt

/-- `carry_superseded`: the rows of one run written again under another. -/
def carrySuperseded (journal : List Reading) (fromRunId toRunId : String) (owed : Owed) :
    List Reading :=
  (journal.filter fun r => r.runId = fromRunId ∧ owed.covers r.component r.attempt = true).map fun r =>
    { r with
      runId := toRunId
      carriedFromRun := if r.carriedFromRun = "" then fromRunId else r.carriedFromRun }

/-- The crash recovery of a start: components left in flight are `PENDING` again. -/
def resetInFlight (c : Component) : Component :=
  if c.status ∈ [ComponentStatus.running, .verifying] then { c with status := .pending } else c

/-! ## Nothing is lost in the sums -/

lemma total_usage (component phase : String) (totals : UsageTotals) :
    total [.usage component phase totals] = totals := add_zero totals

lemma total_retrying (component : String) (attempt : ℤ) (reason : String) :
    total [.retrying component attempt reason] = 0 := add_zero 0

lemma total_append (events events' : List LedgerEvent) :
    total (events ++ events') = total events + total events' := by
  rw [total, List.map_append, List.sum_append]
  rfl

/-- **The rows of a ledger add up to its spend.** -/
lemma total_spentBy (events : List LedgerEvent) :
    ((spentBy events).map Prod.snd).sum = total events := by
  induction events using List.reverseRecOn with
  | nil => rfl
  | append_singleton events event ih =>
      rw [spentBy, List.foldl_append, ← spentBy, total_append]
      cases event with
      | usage component phase totals =>
          rw [total_usage, ← ih]
          exact sum_touch (fun row => rfl) rfl
      | retrying component attempt reason => rw [total_retrying, add_zero, ← ih]; rfl

/-- Totals as a ledger holds them: of a call at least, and rounded. -/
structure Recorded (t : UsageTotals) : Prop where
  calls : t.calls ≠ 0
  cost : Rounding.IsDecimal 6 t.costUsd
  duration : Rounding.IsDecimal 2 t.durationSeconds

lemma Recorded.toDict_eq {t : UsageTotals} (h : Recorded t) : t.toDict = t := by
  rw [UsageTotals.toDict, h.cost.round_eq, h.duration.round_eq]

lemma recorded_toDict {t : UsageTotals} (h : t.calls ≠ 0) : Recorded t.toDict :=
  ⟨h, Rounding.isDecimal_round _ _, Rounding.isDecimal_round _ _⟩

/-- A ledger that `_record_usage` wrote. -/
def RecordedLedger (events : List LedgerEvent) : Prop :=
  ∀ component phase totals, LedgerEvent.usage component phase totals ∈ events → Recorded totals

lemma RecordedLedger.append {events events' : List LedgerEvent} (h : RecordedLedger events)
    (h' : RecordedLedger events') : RecordedLedger (events ++ events') := by
  intro component phase totals hmem
  rcases List.mem_append.mp hmem with hmem | hmem
  · exact h _ _ _ hmem
  · exact h' _ _ _ hmem

/-- The rows of such a ledger are recorded as they are. -/
lemma recorded_spentBy {events : List LedgerEvent} (h : RecordedLedger events) :
    ∀ row ∈ spentBy events, Recorded row.2 := by
  suffices hrows : (spentBy events).Pairwise (fun a b => a.1 ≠ b.1) ∧
      ∀ row ∈ spentBy events, Recorded row.2 from hrows.2
  induction events using List.reverseRecOn with
  | nil => exact ⟨List.Pairwise.nil, List.forall_mem_nil _⟩
  | append_singleton events event ih =>
      obtain ⟨hapart, hrows⟩ := ih fun c p t ht => h c p t (List.mem_append_left _ ht)
      rw [spentBy, List.foldl_append, ← spentBy]
      cases event with
      | usage component phase totals =>
          have hnew := h component phase totals (by simp)
          refine ⟨pairwise_touch (fun row => rfl) rfl hapart, forall_touch hapart
            (fun row hrow _ => hrows row hrow) (fun row hrow _ => ?_) fun _ => ?_⟩
          · have hold := hrows row hrow
            exact ⟨by show row.2.calls + totals.calls ≠ 0; have := hold.calls; omega,
              hold.cost.add hnew.cost, hold.duration.add hnew.duration⟩
          · show Recorded (0 + totals)
            rwa [zero_add]
      | retrying component attempt reason => exact ⟨hapart, hrows⟩

/-! ## The attempts that are written again -/

lemma retriesOf_append (events events' : List LedgerEvent) (component : String) (attempt : ℤ) :
    retriesOf (events ++ events') component attempt
      = retriesOf events component attempt + retriesOf events' component attempt := by
  rw [retriesOf, List.countP_append]
  rfl

/-- An owed attempt is written as often as it was, another one not at all. -/
lemma retriesOf_carriedEvents (prior : String) (owed : Owed) (events : List LedgerEvent)
    (component : String) (attempt : ℤ) :
    retriesOf (carriedEvents prior owed events) component attempt
      = if owed.covers component attempt then retriesOf events component attempt else 0 := by
  have hspent : retriesOf ((spentBy events).map fun row => .usage row.1.1 row.1.2 row.2) component attempt
      = 0 := by
    rw [retriesOf, List.countP_eq_zero]
    intro event hevent
    obtain ⟨row, -, rfl⟩ := List.mem_map.mp hevent
    simp
  rw [carriedEvents, retriesOf_append, hspent, zero_add, retriesOf, List.countP_filterMap]
  split_ifs with hcovers
  · refine List.countP_congr fun event _ => ?_
    cases event with
    | usage => simp [ carriedRetry?]
    | retrying c k reason =>
        rw [ carriedRetry?]
        by_cases hc : owed.covers c k = true
        · simp [hc]
        · have hne : ¬ (c = component ∧ k = attempt) := by
            rintro ⟨rfl, rfl⟩
            exact hc hcovers
          simp [hc, hne]
  · rw [List.countP_eq_zero]
    intro event _
    cases event with
    | usage => simp [ carriedRetry?]
    | retrying c k reason =>
        rw [ carriedRetry?]
        by_cases hc : owed.covers c k = true
        · have hne : ¬ (c = component ∧ k = attempt) := by
            rintro ⟨rfl, rfl⟩
            exact hcovers hc
          simp [hc, hne]
        · simp [hc]

lemma total_carriedEvents (prior : String) (owed : Owed) (events : List LedgerEvent) :
    total (carriedEvents prior owed events) = total events := by
  have hretries : total (events.filterMap ( carriedRetry? prior owed)) = 0 := by
    refine List.sum_eq_zero fun t ht => ?_
    obtain ⟨event, hevent, rfl⟩ := List.mem_map.mp ht
    obtain ⟨old, -, hold⟩ := List.mem_filterMap.mp hevent
    cases old with
    | usage => cases hold
    | retrying component attempt reason =>
        rw [ carriedRetry?] at hold
        split_ifs at hold
        cases hold
        rfl
  rw [carriedEvents, total_append, hretries, add_zero, ← total_spentBy events, total, List.map_map]
  rfl

/-- What is written again of the journal, as often as it was. -/
lemma readingsOf_carrySuperseded (journal : List Reading) (fromRunId toRunId : String) (owed : Owed)
    (component : String) (attempt : ℤ) :
    readingsOf (carrySuperseded journal fromRunId toRunId owed) toRunId component attempt
      = if owed.covers component attempt then readingsOf journal fromRunId component attempt else 0 := by
  rw [carrySuperseded, readingsOf, List.countP_map, List.countP_filter]
  split_ifs with hcovers
  · refine List.countP_congr fun r _ => ?_
    by_cases hr : r.component = component ∧ r.attempt = attempt
    · obtain ⟨rfl, rfl⟩ := hr
      simp [hcovers]
    · simp only [Function.comp_apply, Bool.and_eq_true, decide_eq_true_eq, true_and]
      exact ⟨fun h => absurd h.1 hr, fun h => absurd h.2 hr⟩
  · rw [List.countP_eq_zero]
    intro r _ hr
    simp only [Function.comp_apply, Bool.and_eq_true, decide_eq_true_eq, true_and] at hr
    obtain ⟨⟨rfl, rfl⟩, -, hc⟩ := hr
    exact hcovers hc

/-- They are rows of the new run. -/
lemma readingsOf_carrySuperseded_ne (journal : List Reading) {fromRunId toRunId runId : String}
    (hne : runId ≠ toRunId) (owed : Owed) (component : String) (attempt : ℤ) :
    readingsOf (carrySuperseded journal fromRunId toRunId owed) runId component attempt = 0 := by
  rw [readingsOf, List.countP_eq_zero]
  intro row hrow
  obtain ⟨r, -, rfl⟩ := List.mem_map.mp hrow
  simp only [decide_eq_true_eq]
  exact fun h => hne h.1.symm

lemma readingsOf_append (journal journal' : List Reading) (runId component : String) (attempt : ℤ) :
    readingsOf (journal ++ journal') runId component attempt
      = readingsOf journal runId component attempt + readingsOf journal' runId component attempt :=
  List.countP_append

/-! ## Who is taken over -/

lemma mem_owedAttempts {components : List Component} {carrying : Bool} {entry : String × (ℤ × ℤ)} :
    entry ∈ owedAttempts components carrying ↔ carrying = true ∧ ∃ c ∈ components,
      c.status = .pending ∧ entry = (c.id, (c.firstAttempt, c.retries)) := by
  cases carrying with
  | false => simp [owedAttempts]
  | true =>
      simp only [owedAttempts, if_true, List.mem_map, List.mem_filter, decide_eq_true_eq, true_and]
      constructor
      · rintro ⟨c, ⟨hc, hstatus⟩, rfl⟩
        exact ⟨c, hc, hstatus, rfl⟩
      · rintro ⟨c, hc, hstatus, rfl⟩
        exact ⟨c, ⟨hc, hstatus⟩, rfl⟩

lemma nodup_owedAttempts {components : List Component} (hids : (components.map (·.id)).Nodup)
    (carrying : Bool) : ((owedAttempts components carrying).map Prod.fst).Nodup := by
  cases carrying with
  | false => exact List.nodup_nil
  | true =>
      rw [owedAttempts, if_pos rfl, List.map_map]
      exact hids.sublist (List.filter_sublist.map _)

/-- **What a resume answers for.** -/
lemma covers_owedAttempts {components : List Component} (hids : (components.map (·.id)).Nodup)
    {carrying : Bool} {c : Component} (hc : c ∈ components) (attempt : ℤ) :
    (owedAttempts components carrying).covers c.id attempt = true ↔
      carrying = true ∧ c.status = .pending ∧ c.firstAttempt ≤ attempt ∧ attempt ≤ c.retries := by
  have hnodup : ((owedAttempts components carrying).reverse.map Prod.fst).Nodup := by
    rw [List.map_reverse, List.nodup_reverse]
    exact nodup_owedAttempts hids carrying
  rw [Owed.covers]
  by_cases howed : carrying = true ∧ c.status = .pending
  · have hmem : (c.id, (c.firstAttempt, c.retries)) ∈ (owedAttempts components carrying).reverse :=
      List.mem_reverse.mpr (mem_owedAttempts.mpr ⟨howed.1, c, hc, howed.2, rfl⟩)
    rw [Owed.range?, lookup_of_mem hnodup hmem]
    simp [howed]
  · have hnone : (owedAttempts components carrying).range? c.id = none := by
      rw [Owed.range?, List.lookup_eq_none_iff]
      intro entry hentry
      obtain ⟨hcarrying, d, hd, hstatus, rfl⟩ := mem_owedAttempts.mp (List.mem_reverse.mp hentry)
      rw [bne_iff_ne]
      intro hid
      have hsame : c = d := List.inj_on_of_nodup_map hids hc hd hid
      exact howed ⟨hcarrying, hsame ▸ hstatus⟩
    rw [hnone]
    exact ⟨nofun, fun h => absurd ⟨h.1, h.2.1⟩ howed⟩

/-- A component that a resume leaves with attempts to answer for was taken over. -/
lemma mem_takeOverAttempts {components : List Component} (hids : (components.map (·.id)).Nodup)
    {carrying : Bool} {c : Component} (hc : c ∈ (takeOverAttempts components carrying).2)
    (hrange : c.firstAttempt ≤ c.retries) :
    c ∈ components ∧ carrying = true ∧ c.status = .pending := by
  obtain ⟨d, hd, hdc⟩ := List.mem_map.mp hc
  split_ifs at hdc with howed
  · subst hdc
    obtain ⟨entry, hentry, hid⟩ := List.mem_map.mp howed
    obtain ⟨hcarrying, e, he, hstatus, rfl⟩ := mem_owedAttempts.mp hentry
    have hsame : e = d := List.inj_on_of_nodup_map hids he hd hid
    exact ⟨hd, hcarrying, hsame ▸ hstatus⟩
  · subst hdc
    exact absurd hrange (by simp)

lemma takeOverAttempts_retries (components : List Component) (carrying : Bool) :
    (takeOverAttempts components carrying).2.map (fun c => (c.id, c.retries))
      = components.map fun c => (c.id, c.retries) := by
  rw [takeOverAttempts, List.map_map]
  refine List.map_congr_left fun c _ => ?_
  show (_ : String × ℤ) = _
  simp only [Function.comp_apply]
  split_ifs <;> rfl

end Pipeline

end Kstrl
