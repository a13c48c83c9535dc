import Kstrl.Base.Runs
import Kstrl.Pipeline.UsageLedger
import Kstrl.Plan.ManifestGraph

/-!
# Chains of factory runs over one manifest

A run meters the architect, takes the interrupted run over, saves the manifest under its own id and works
until it finishes or is killed (`_run_factory_locked` of `kstrl/factory/factory.py`, `_resume_manifest` and
`_start_manifest` of `kstrl/factory/factory_run.py`).  It holds the run lock, so no two run at once, and it
has its progress log on.

A step is what happens between two points where a kill makes a difference.  What a run does to the
statuses and the other fields of the components is left open (`Action.work`); attempts change with a retry
only.

* **`World.next`** is the system.  A world also keeps the accounts no code reads: the calls, the runs the
  manifest named since the last one that finished, and the attempts sent back, as the manifest counts them.
* **`World.Sound`** is the invariant.
* **`spend_conserved`** is the result, and `completed_attempt_not_carried` a chain that leaves an attempt
  behind.
-/

namespace Kstrl

namespace Pipeline

/-! ## The system -/

/-- How far a run is. -/
inductive Stage where
  | opened
  | metered
  /-- the events that are still to be written again -/
  | carrying (owed : Owed) (todo : List LedgerEvent)
  | carried
  | running
  | finished
  deriving DecidableEq, Repr

/-- A factory run. -/
structure FactoryRun where
  runId : String
  stage : Stage
  /-- the manifest in memory -/
  manifest : Manifest
  /-- `run_usage` -/
  meter : UsageTotals

structure World where
  /-- the event stream of each run -/
  ledgers : String → List LedgerEvent
  journal : List Reading
  /-- the manifest on disk -/
  manifest : Manifest
  live : Option FactoryRun
  /-- the run ids that are taken -/
  used : List String
  /-- the agent calls that were recorded, with their run -/
  calls : List (String × UsageTotals)
  /-- the runs the manifest named before the one it names now, since the last that finished -/
  interrupted : List String
  /-- the attempts a gate sent back -/
  sentBack : List (String × ℤ)
  /-- the attempts that were sent back, those of a contract test with them -/
  retried : List (String × ℤ)

namespace World

/-- A manifest that no run has operated on. -/
def init (m : Manifest) : World where
  ledgers _ := []
  journal := []
  manifest := m
  live := none
  used := []
  calls := []
  interrupted := []
  sentBack := []
  retried := []

/-- What a step is. -/
inductive Action where
  | start (runId : String)
  /-- `record_architect_usage`; no call where the run resumes a manifest -/
  | architect (totals : UsageTotals)
  /-- the DAG check, the crash recovery and the reading of the interrupted run -/
  | resume
  /-- one event written again -/
  | carry
  | carryReadings
  /-- the manifest saved under the run's id -/
  | name
  | work (m : Manifest)
  | save
  | usage (component phase : String) (totals : UsageTotals)
  /-- an attempt sent back by a gate, or by a contract test -/
  | retry (component reason : String) (byGate : Bool)
  /-- a kill behind the journal row of a retry, or behind its event -/
  | cutRetry (component reason : String) (emitted : Bool)
  | finish (now : String)
  | kill

/-- Whether the manifest names a run that stopped before its summary. -/
def interruptedRun (m : Manifest) : Bool := m.runId ≠ "" ∧ m.completedAt = ""

/-- What the runs count of the attempts. -/
def attempts (m : Manifest) : List (String × (ℤ × ℤ)) :=
  m.components.map fun c => (c.id, (c.firstAttempt, c.retries))

variable (w : World) (r : FactoryRun)

/-- The events written to a run's stream. -/
def emit (events : List LedgerEvent) : World :=
  { w with ledgers := Function.update w.ledgers r.runId (w.ledgers r.runId ++ events) }

/-- A call of the run itself. -/
def record (component phase : String) (totals : UsageTotals) (stage : Stage) : World :=
  { w.emit r (recordUsage component phase totals).2 with
    live := some { r with
      stage := stage
      meter := r.meter + (recordUsage component phase totals).1 }
    calls := w.calls ++ if totals.calls = 0 then [] else [(r.runId, totals)] }

/-- One of the events of the interrupted run. -/
def carryOne (owed : Owed) (event : LedgerEvent) (todo : List LedgerEvent) : World :=
  match event with
  | .usage component phase totals =>
      { w.emit r (recordUsage component phase totals).2 with
        live := some { r with
          stage := .carrying owed todo
          meter := r.meter + (recordUsage component phase totals).1 } }
  | .retrying component attempt reason =>
      { w.emit r [.retrying component attempt reason] with
        live := some { r with stage := .carrying owed todo } }

/-- The takeover of a start. -/
def resume : World :=
  if r.manifest.validateDag ≠ [] then { w with live := none }
  else
    let carrying := interruptedRun r.manifest
    let taken := takeOverAttempts (r.manifest.components.map resetInFlight) carrying
    { w with
      live := some { r with
        manifest := { r.manifest with components := taken.2 }
        stage := if carrying then
            .carrying taken.1 (carriedEvents r.manifest.runId taken.1 (w.ledgers r.manifest.runId))
          else .carried } }

/-- A component as a retry leaves it. -/
def sendBack (reason : String) (c : Component) : Component :=
  { c with retries := c.retries + 1, status := .pending, error := reason }

/-- `retry_or_fail` with a retry left, or the reset of a contract breaker. -/
def retry (c : Component) (reason : String) (byGate : Bool) : World :=
  let attempt := c.retries + 1
  let m := r.manifest.update c.id (sendBack reason)
  { w.emit r (if byGate then [.retrying c.id attempt reason] else []) with
    journal := w.journal ++ [{ runId := r.runId, component := c.id, attempt := attempt }]
    manifest := m
    live := some { r with manifest := m }
    sentBack := if byGate then w.sentBack ++ [(c.id, attempt)] else w.sentBack
    retried := w.retried ++ [(c.id, attempt)] }

/-- A retry that is cut before the manifest is saved. -/
def cutRetry (c : Component) (reason : String) (emitted : Bool) : World :=
  { w.emit r (if emitted then [.retrying c.id (c.retries + 1) reason] else []) with
    journal := w.journal ++ [{ runId := r.runId, component := c.id, attempt := c.retries + 1 }]
    live := none }

/-- The manifest saved under the run's id. -/
def name : World :=
  let m := { r.manifest with runId := r.runId, completedAt := "" }
  { w with
    manifest := m
    live := some { r with manifest := m, stage := .running }
    interrupted := if interruptedRun w.manifest then w.interrupted ++ [w.manifest.runId] else [] }

/-- The summary. -/
def finish (now : String) : World :=
  let m := { r.manifest with completedAt := now }
  { w with
    manifest := m
    live := some { r with manifest := m, stage := .finished } }

/-- One step; `none` where it is not the step's turn. -/
def next (w : World) : Action → Option World
  | .start runId =>
      if runId ≠ "" ∧ runId ∉ w.used ∧ ∀ r ∈ w.live, r.stage = .finished then
        some { w with
          used := runId :: w.used
          live := some { runId := runId, stage := .opened, manifest := w.manifest, meter := 0 } }
      else none
  | .kill => w.live.map fun _ => { w with live := none }
  | action => w.live.bind fun r =>
      match action, r.stage with
      | .architect totals, .opened => some (w.record r "@architect" "architect" totals .metered)
      | .resume, .metered => some (w.resume r)
      | .carry, .carrying owed (event :: todo) => some (w.carryOne r owed event todo)
      | .carryReadings, .carrying owed [] => some { w with
          journal := w.journal ++ carrySuperseded w.journal r.manifest.runId r.runId owed
          live := some { r with stage := .carried } }
      | .name, .carried => some (w.name r)
      | .work m, .running =>
          if attempts m = attempts r.manifest ∧ m.runId = r.manifest.runId ∧
              m.completedAt = r.manifest.completedAt then
            some { w with live := some { r with manifest := m } }
          else none
      | .save, .running => some { w with manifest := r.manifest }
      | .usage component phase totals, .running => some (w.record r component phase totals .running)
      | .retry component reason byGate, .running =>
          (r.manifest.getComponent component).map fun c => w.retry r c reason byGate
      | .cutRetry component reason emitted, .running =>
          (r.manifest.getComponent component).map fun c => w.cutRetry r c reason emitted
      | .finish now, .running => if now ≠ "" then some (w.finish r now) else none
      | _, _ => none

/-- The transition relation. -/
def Step (w : World) (a : Action) (w' : World) : Prop := w.next a = some w'

/-! ## The accounts -/

/-- What the ledger of a run holds of its own calls. -/
def recordedSpend (calls : List (String × UsageTotals)) (runId : String) : UsageTotals :=
  ((calls.filter (·.1 = runId)).map fun call => call.2.toDict).sum

/-- The spend of a run's own calls. -/
def ownSpend (calls : List (String × UsageTotals)) (runId : String) : UsageTotals :=
  ((calls.filter (·.1 = runId)).map Prod.snd).sum

/-- The spend of several runs, as their ledgers hold it. -/
def chainSpend (calls : List (String × UsageTotals)) (runIds : List String) : UsageTotals :=
  (runIds.map (recordedSpend calls)).sum

/-- The interrupted runs whose records the run named on disk stands for, that run with them. -/
def predecessors (w : World) : List String :=
  if interruptedRun w.manifest then w.interrupted ++ [w.manifest.runId] else []

/-- How many retries each component has used. -/
def retriesUsed (m : Manifest) : List (String × ℤ) := m.components.map fun c => (c.id, c.retries)

/-- An attempt is on record once if it was sent back, and not at all if it was not. -/
structure Counted (w : World) (runId component : String) (attempt : ℤ) : Prop where
  events : retriesOf (w.ledgers runId) component attempt = if (component, attempt) ∈ w.sentBack then 1 else 0
  readings : readingsOf w.journal runId component attempt
    = if (component, attempt) ∈ w.retried then 1 else 0

/-- Nothing of an attempt is on record. -/
structure Unwritten (w : World) (runId component : String) (attempt : ℤ) : Prop where
  events : retriesOf (w.ledgers runId) component attempt = 0
  readings : readingsOf w.journal runId component attempt = 0

/-- The records of a run that stands for several: their spend, and the attempts it answers for. -/
structure Answered (w : World) (runId : String) (runIds : List String)
    (counts : List (String × (ℤ × ℤ))) : Prop where
  apart : runIds.Nodup
  used : ∀ q ∈ runIds, q ∈ w.used
  spend : total (w.ledgers runId) = chainSpend w.calls runIds
  counted : ∀ a ∈ counts, ∀ k, a.2.1 ≤ k → k ≤ a.2.2 → Counted w runId a.1 k

/-- A run that the manifest does not name yet. -/
structure Unnamed (w : World) (r : FactoryRun) : Prop where
  used : r.runId ∈ w.used
  ne : r.runId ≠ ""
  apart : r.runId ∉ w.predecessors
  prior : r.manifest.runId = w.manifest.runId ∧ r.manifest.completedAt = w.manifest.completedAt
  retries : retriesUsed r.manifest = retriesUsed w.manifest

/-- A run before the takeover. -/
structure Opened (w : World) (r : FactoryRun) : Prop extends Unnamed w r where
  same : r.manifest = w.manifest
  spend : total (w.ledgers r.runId) = recordedSpend w.calls r.runId
  meter : r.meter = ownSpend w.calls r.runId
  unwritten : ∀ c k, Unwritten w r.runId c k

/-- A run in the middle of the takeover. -/
structure Carrying (w : World) (r : FactoryRun) (owed : Owed) (todo : List LedgerEvent) : Prop
    extends Unnamed w r where
  interrupted : interruptedRun w.manifest = true
  ids : r.manifest.ids.Nodup
  recorded : RecordedLedger todo
  spend : total (w.ledgers r.runId) + total todo
    = recordedSpend w.calls r.runId + chainSpend w.calls w.predecessors
  meter : r.meter + total todo = ownSpend w.calls r.runId + chainSpend w.calls w.predecessors
  events : ∀ c k, retriesOf (w.ledgers r.runId) c k + retriesOf todo c k
    = if owed.covers c k then retriesOf (w.ledgers w.manifest.runId) c k else 0
  readings : ∀ c k, readingsOf w.journal r.runId c k = 0
  owes : ∀ a ∈ attempts r.manifest, ∀ k, a.2.1 ≤ k → k ≤ a.2.2 →
    owed.covers a.1 k = true ∧ Counted w w.manifest.runId a.1 k
  later : ∀ a ∈ attempts r.manifest, ∀ k > a.2.2, owed.covers a.1 k = false

/-- A run behind the takeover. -/
structure Carried (w : World) (r : FactoryRun) : Prop extends Unnamed w r where
  ids : r.manifest.ids.Nodup
  spend : total (w.ledgers r.runId)
    = recordedSpend w.calls r.runId + chainSpend w.calls w.predecessors
  meter : r.meter = ownSpend w.calls r.runId + chainSpend w.calls w.predecessors
  counted : ∀ a ∈ attempts r.manifest, ∀ k, a.2.1 ≤ k → k ≤ a.2.2 → Counted w r.runId a.1 k
  later : ∀ a ∈ attempts r.manifest, ∀ k > a.2.2, Unwritten w r.runId a.1 k

/-- A run at work. -/
structure Working (w : World) (r : FactoryRun) : Prop where
  used : r.runId ∈ w.used
  ne : r.runId ≠ ""
  disk : w.manifest.runId = r.runId ∧ w.manifest.completedAt = ""
  memory : r.manifest.runId = r.runId ∧ r.manifest.completedAt = ""
  same : attempts r.manifest = attempts w.manifest
  ids : r.manifest.ids.Nodup
  meter : r.meter = ownSpend w.calls r.runId + chainSpend w.calls w.interrupted
  later : ∀ a ∈ attempts r.manifest, ∀ k > a.2.2, Unwritten w r.runId a.1 k

/-- A run behind its summary. -/
structure Finished (w : World) (r : FactoryRun) : Prop where
  answered : Answered w r.runId (w.interrupted ++ [r.runId]) (attempts r.manifest)
  meter : r.meter = ownSpend w.calls r.runId + chainSpend w.calls w.interrupted
  disk : interruptedRun w.manifest = false

/-- What holds of a run, by how far it is. -/
def RunSound (w : World) (r : FactoryRun) : Prop :=
  match r.stage with
  | .opened | .metered => Opened w r
  | .carrying owed todo => Carrying w r owed todo
  | .carried => Carried w r
  | .running => Working w r
  | .finished => Finished w r

/-- **The invariant.** -/
structure Sound (w : World) : Prop where
  recorded : ∀ q, RecordedLedger (w.ledgers q)
  unused : ∀ q ∉ w.used, w.ledgers q = [] ∧ (∀ c k, readingsOf w.journal q c k = 0) ∧
    ∀ call ∈ w.calls, call.1 ≠ q
  ahead : ∀ a ∈ attempts w.manifest, ∀ k > a.2.2, (a.1, k) ∉ w.sentBack ∧ (a.1, k) ∉ w.retried
  named : interruptedRun w.manifest = true →
    Answered w w.manifest.runId (w.interrupted ++ [w.manifest.runId]) (attempts w.manifest)
  live : ∀ r, w.live = some r → RunSound w r

variable {w w' : World} {r : FactoryRun}

lemma recordedSpend_append (calls calls' : List (String × UsageTotals)) (q : String) :
    recordedSpend (calls ++ calls') q = recordedSpend calls q + recordedSpend calls' q := by
  simp [recordedSpend, List.filter_append]

lemma ownSpend_append (calls calls' : List (String × UsageTotals)) (q : String) :
    ownSpend (calls ++ calls') q = ownSpend calls q + ownSpend calls' q := by
  simp [ownSpend, List.filter_append]

lemma recordedSpend_eq_zero {calls : List (String × UsageTotals)} {q : String}
    (h : ∀ call ∈ calls, call.1 ≠ q) : recordedSpend calls q = 0 := by
  have hnone : calls.filter (·.1 = q) = [] := by
    rw [List.filter_eq_nil_iff]
    intro call hcall
    simpa using h call hcall
  rw [recordedSpend, hnone]
  rfl

lemma ownSpend_eq_zero {calls : List (String × UsageTotals)} {q : String}
    (h : ∀ call ∈ calls, call.1 ≠ q) : ownSpend calls q = 0 := by
  have hnone : calls.filter (·.1 = q) = [] := by
    rw [List.filter_eq_nil_iff]
    intro call hcall
    simpa using h call hcall
  rw [ownSpend, hnone]
  rfl

lemma chainSpend_append (calls : List (String × UsageTotals)) (ids ids' : List String) :
    chainSpend calls (ids ++ ids') = chainSpend calls ids + chainSpend calls ids' := by
  simp [chainSpend]

lemma chainSpend_singleton (calls : List (String × UsageTotals)) (q : String) :
    chainSpend calls [q] = recordedSpend calls q := by
  simp [chainSpend]

lemma chainSpend_congr {calls calls' : List (String × UsageTotals)} {ids : List String}
    (h : ∀ q ∈ ids, recordedSpend calls' q = recordedSpend calls q) :
    chainSpend calls' ids = chainSpend calls ids :=
  congrArg List.sum (List.map_congr_left h)

/-! ## Steps beside the named run -/

/-- A world that differs in the records of one run alone. -/
structure Beside (w w' : World) (id : String) : Prop where
  ledgers : ∀ q ≠ id, w'.ledgers q = w.ledgers q
  readings : ∀ q ≠ id, ∀ c k, readingsOf w'.journal q c k = readingsOf w.journal q c k
  spend : ∀ q ≠ id, recordedSpend w'.calls q = recordedSpend w.calls q
  calls : ∀ call ∈ w'.calls, call ∈ w.calls ∨ call.1 = id
  used : ∀ q ∈ w.used, q ∈ w'.used
  onlyUsed : ∀ q ∈ w'.used, q ∈ w.used ∨ q = id
  manifest : w'.manifest = w.manifest
  interrupted : w'.interrupted = w.interrupted
  sentBack : w'.sentBack = w.sentBack
  retried : w'.retried = w.retried

variable {id : String}

lemma Beside.counted (h : Beside w w' id) {q c : String} {k : ℤ} (hq : q ≠ id) (hc : Counted w q c k) :
    Counted w' q c k where
  events := by rw [h.ledgers q hq, h.sentBack]; exact hc.events
  readings := by rw [h.readings q hq, h.retried]; exact hc.readings

lemma Beside.predecessors (h : Beside w w' id) : w'.predecessors = w.predecessors := by
  unfold World.predecessors
  rw [h.manifest, h.interrupted]

lemma Beside.chainSpend (h : Beside w w' id) {ids : List String} (hids : id ∉ ids) :
    chainSpend w'.calls ids = chainSpend w.calls ids :=
  chainSpend_congr fun q hq => h.spend q fun he => hids (he ▸ hq)

lemma Sound.beside (h : Sound w) (id : String) (hb : Beside w w' id) (hapart : id ∉ w.predecessors)
    (hused : id ∈ w'.used) (hrecorded : RecordedLedger (w'.ledgers id))
    (hlive : ∀ r, w'.live = some r → RunSound w' r) : Sound w' where
  recorded q := by
    by_cases hq : q = id
    · rw [hq]
      exact hrecorded
    · rw [hb.ledgers q hq]
      exact h.recorded q
  unused q hq := by
    have hne : q ≠ id := fun he => hq (he ▸ hused)
    obtain ⟨hledger, hreadings, hcalls⟩ := h.unused q fun hmem => hq (hb.used q hmem)
    refine ⟨(hb.ledgers q hne).trans hledger, fun c k => (hb.readings q hne c k).trans (hreadings c k), ?_⟩
    intro call hcall
    rcases hb.calls call hcall with hold | hnew
    · exact hcalls call hold
    · exact fun he => hne (he.symm.trans hnew)
  ahead := by
    rw [hb.manifest, hb.sentBack, hb.retried]
    exact h.ahead
  named hinterrupted := by
    rw [hb.manifest] at hinterrupted ⊢
    rw [hb.interrupted]
    have hold := h.named hinterrupted
    have hids : id ∉ w.interrupted ++ [w.manifest.runId] := by
      rwa [World.predecessors, if_pos hinterrupted] at hapart
    have hne : w.manifest.runId ≠ id := fun he => hids (by rw [← he]; simp)
    exact ⟨hold.apart, fun q hq => hb.used q (hold.used q hq),
      by rw [hb.ledgers _ hne, hb.chainSpend hids, hold.spend],
      fun a ha k hlo hhi => hb.counted hne (hold.counted a ha k hlo hhi)⟩
  live := hlive

/-- What a call of the run itself does to the records. -/
lemma record_spend (component phase : String) (totals : UsageTotals) (runId : String) :
    total (recordUsage component phase totals).2
        = recordedSpend (if totals.calls = 0 then [] else [(runId, totals)]) runId ∧
      (recordUsage component phase totals).1
        = ownSpend (if totals.calls = 0 then [] else [(runId, totals)]) runId ∧
      RecordedLedger (recordUsage component phase totals).2 := by
  unfold recordUsage
  split_ifs with hcalls
  · exact ⟨rfl, rfl, fun _ _ _ h => by cases h⟩
  · refine ⟨?_, ?_, fun c p t ht => ?_⟩
    · simp [recordedSpend, total_usage]
    · simp [ownSpend]
    · rw [List.mem_singleton] at ht
      cases ht
      exact recorded_toDict hcalls

lemma record_beside (w : World) (r : FactoryRun) (component phase : String) (totals : UsageTotals)
    (stage : Stage) : Beside w (w.record r component phase totals stage) r.runId where
  ledgers q hq := Function.update_of_ne hq _ _
  readings _ _ _ _ := rfl
  spend q hq := by
    have hnone : ∀ call ∈ (if totals.calls = 0 then [] else [(r.runId, totals)]), call.1 ≠ q := by
      intro call hcall
      split_ifs at hcall
      · cases hcall
      · rw [List.mem_singleton.mp hcall]
        exact Ne.symm hq
    show recordedSpend (w.calls ++ _) q = _
    rw [recordedSpend_append, recordedSpend_eq_zero hnone, add_zero]
  calls call hcall := by
    rcases List.mem_append.mp hcall with hcall | hcall
    · exact Or.inl hcall
    · split_ifs at hcall
      · cases hcall
      · rw [List.mem_singleton.mp hcall]
        exact Or.inr rfl
  used _ h := h
  onlyUsed _ h := Or.inl h
  manifest := rfl
  interrupted := rfl
  sentBack := rfl
  retried := rfl

/-- The ledger of a run behind an emission. -/
lemma ledgers_emit (w : World) (r : FactoryRun) (events : List LedgerEvent) :
    (w.emit r events).ledgers r.runId = w.ledgers r.runId ++ events := Function.update_self _ _ _

lemma retriesOf_recordUsage (component phase c : String) (totals : UsageTotals) (k : ℤ) :
    retriesOf (recordUsage component phase totals).2 c k = 0 := by
  unfold recordUsage
  split_ifs <;> rfl

/-! ## One step -/

lemma sound_start (h : Sound w) {runId : String} (hne : runId ≠ "") (hfresh : runId ∉ w.used) :
    Sound { w with
      used := runId :: w.used
      live := some { runId := runId, stage := .opened, manifest := w.manifest, meter := 0 } } := by
  obtain ⟨hledger, hreadings, hcalls⟩ := h.unused runId hfresh
  have hapart : runId ∉ w.predecessors := by
    unfold World.predecessors
    split_ifs with hinterrupted
    · exact fun hmem => hfresh ((h.named hinterrupted).used _ hmem)
    · exact List.not_mem_nil
  refine h.beside runId ⟨fun _ _ => rfl, fun _ _ _ _ => rfl, fun _ _ => rfl,
    fun _ hc => Or.inl hc, fun _ hq => List.mem_cons_of_mem _ hq, fun q hq => ?_, rfl, rfl, rfl, rfl⟩
    hapart List.mem_cons_self (h.recorded runId) ?_
  · rcases List.mem_cons.mp hq with rfl | hq
    · exact Or.inr rfl
    · exact Or.inl hq
  · intro r hr
    cases hr
    exact
      { used := List.mem_cons_self
        ne := hne
        apart := hapart
        prior := ⟨rfl, rfl⟩
        retries := rfl
        same := rfl
        spend := by
          show total (w.ledgers runId) = recordedSpend w.calls runId
          rw [hledger, recordedSpend_eq_zero hcalls]
          rfl
        meter := by
          show 0 = ownSpend w.calls runId
          rw [ownSpend_eq_zero hcalls]
        unwritten := fun c k => ⟨by show retriesOf (w.ledgers runId) c k = 0; rw [hledger]; rfl,
          hreadings c k⟩ }

lemma sound_kill (h : Sound w) : Sound { w with live := none } where
  recorded := h.recorded
  unused := h.unused
  ahead := h.ahead
  named := fun hinterrupted =>
    have hold := h.named hinterrupted
    ⟨hold.apart, hold.used, hold.spend, fun a ha k hlo hhi =>
      ⟨(hold.counted a ha k hlo hhi).events, (hold.counted a ha k hlo hhi).readings⟩⟩
  live := fun _ hr => by cases hr

lemma sound_architect (h : Sound w) (hr : w.live = some r) (hstage : r.stage = .opened)
    (totals : UsageTotals) : Sound (w.record r "@architect" "architect" totals .metered) := by
  have hopened : Opened w r := by
    have := h.live r hr
    rwa [RunSound, hstage] at this
  obtain ⟨hspend, hmeter, hrecorded⟩ := record_spend "@architect" "architect" totals r.runId
  have hbeside := record_beside w r "@architect" "architect" totals .metered
  refine h.beside r.runId hbeside hopened.apart hopened.used ?_ ?_
  · show RecordedLedger ((w.emit r _).ledgers r.runId)
    rw [ledgers_emit]
    exact (h.recorded r.runId).append hrecorded
  · intro r' hr'
    cases hr'
    exact
      { used := hopened.used
        ne := hopened.ne
        apart := hopened.apart
        prior := hopened.prior
        retries := hopened.retries
        same := hopened.same
        spend := by
          show total ((w.emit r _).ledgers r.runId) = recordedSpend (w.calls ++ _) r.runId
          rw [ledgers_emit, total_append, hopened.spend, hspend, recordedSpend_append]
        meter := by
          show r.meter + _ = ownSpend (w.calls ++ _) r.runId
          rw [hopened.meter, hmeter, ownSpend_append]
        unwritten := fun c k => ⟨by
          show retriesOf ((w.emit r _).ledgers r.runId) c k = 0
          rw [ledgers_emit, retriesOf_append, (hopened.unwritten c k).events, retriesOf_recordUsage],
          (hopened.unwritten c k).readings⟩ }

lemma beside_live (w : World) (live : Option FactoryRun) (id : String) :
    Beside w { w with live := live } id :=
  ⟨fun _ _ => rfl, fun _ _ _ _ => rfl, fun _ _ => rfl, fun _ hc => Or.inl hc, fun _ hq => hq,
    fun _ hq => Or.inl hq, rfl, rfl, rfl, rfl⟩

lemma map_resetInFlight {β : Type} {f : Component → β} (hf : ∀ c, f { c with status := .pending } = f c)
    (components : List Component) : (components.map resetInFlight).map f = components.map f := by
  rw [List.map_map]
  refine List.map_congr_left fun c _ => ?_
  show f (resetInFlight c) = f c
  unfold resetInFlight
  split_ifs
  · exact hf c
  · rfl

lemma recordedLedger_carriedEvents {events : List LedgerEvent} (h : RecordedLedger events)
    (prior : String) (owed : Owed) : RecordedLedger (carriedEvents prior owed events) := by
  intro c p t ht
  rcases List.mem_append.mp ht with ht | ht
  · obtain ⟨row, hrow, he⟩ := List.mem_map.mp ht
    cases he
    exact recorded_spentBy h row hrow
  · obtain ⟨event, -, hevent⟩ := List.mem_filterMap.mp ht
    cases event with
    | usage => cases hevent
    | retrying =>
        rw [ carriedRetry?] at hevent
        split_ifs at hevent
        cases hevent

/-- **The takeover answers for what the interrupted run had on record.** -/
lemma sound_resume (h : Sound w) (hr : w.live = some r) (hstage : r.stage = .metered) :
    Sound (w.resume r) := by
  have hopened : Opened w r := by
    have := h.live r hr
    rwa [RunSound, hstage] at this
  unfold World.resume
  split_ifs with hdag
  · exact sound_kill h
  rw [ne_eq, not_not] at hdag
  set reset := r.manifest.components.map resetInFlight with hreset
  have hids : (reset.map (·.id)).Nodup := by
    rw [hreset, map_resetInFlight fun _ => rfl]
    exact (Manifest.validateDag_eq_nil.mp hdag).unique
  have hentry : ∀ c ∈ reset, (c.id, (c.firstAttempt, c.retries)) ∈ attempts w.manifest := by
    intro c hc
    rw [← hopened.same, attempts, ← map_resetInFlight fun _ => rfl]
    exact List.mem_map_of_mem hc
  have hretries : ∀ carrying, retriesUsed { r.manifest with
      components := (takeOverAttempts reset carrying).2 } = retriesUsed w.manifest := by
    intro carrying
    rw [← hopened.same]
    refine (takeOverAttempts_retries reset carrying).trans ?_
    rw [hreset, map_resetInFlight fun _ => rfl]
    rfl
  have hnodup : ∀ carrying, ((takeOverAttempts reset carrying).2.map (·.id)).Nodup := by
    intro carrying
    have hfst := congrArg (List.map Prod.fst) (takeOverAttempts_retries reset carrying)
    rw [List.map_map, List.map_map] at hfst
    exact hfst ▸ hids
  -- a component behind the takeover, and the one it was
  have hwas : ∀ carrying, ∀ c ∈ (takeOverAttempts reset carrying).2, ∃ d ∈ reset, d.id = c.id ∧
      d.retries = c.retries := by
    intro carrying c hc
    obtain ⟨d, hd, rfl⟩ := List.mem_map.mp hc
    refine ⟨d, hd, ?_, ?_⟩ <;> split_ifs <;> rfl
  refine h.beside r.runId (beside_live w _ r.runId) hopened.apart hopened.used (h.recorded r.runId) ?_
  intro r' hr'
  cases hr'
  cases hcarrying : interruptedRun r.manifest with
  | true =>
      have hinterrupted : interruptedRun w.manifest = true := hopened.same ▸ hcarrying
      have hnamed := h.named hinterrupted
      have hpredecessors : w.predecessors = w.interrupted ++ [w.manifest.runId] := if_pos hinterrupted
      have hprior : r.manifest.runId = w.manifest.runId := hopened.prior.1
      exact
        { used := hopened.used
          ne := hopened.ne
          apart := hopened.apart
          prior := hopened.prior
          retries := hretries true
          interrupted := hinterrupted
          ids := hnodup true
          recorded := recordedLedger_carriedEvents (h.recorded _) _ _
          spend := by
            show total (w.ledgers r.runId) + total (carriedEvents _ _ (w.ledgers r.manifest.runId))
              = recordedSpend w.calls r.runId + chainSpend w.calls w.predecessors
            rw [total_carriedEvents, hopened.spend, hprior, hnamed.spend, hpredecessors]
          meter := by
            show r.meter + total (carriedEvents _ _ (w.ledgers r.manifest.runId))
              = ownSpend w.calls r.runId + chainSpend w.calls w.predecessors
            rw [total_carriedEvents, hopened.meter, hprior, hnamed.spend, hpredecessors]
          events := fun c k => by
            show retriesOf (w.ledgers r.runId) c k
              + retriesOf (carriedEvents _ _ (w.ledgers r.manifest.runId)) c k = _
            rw [(hopened.unwritten c k).events, zero_add, retriesOf_carriedEvents, hprior]
          readings := fun c k => (hopened.unwritten c k).readings
          owes := fun a ha k hlo hhi => by
            obtain ⟨c, hc, rfl⟩ := List.mem_map.mp ha
            obtain ⟨hmem, -, hpending⟩ := mem_takeOverAttempts hids hc (le_trans hlo hhi)
            have hcounted := hnamed.counted _ (hentry c hmem) k hlo hhi
            exact ⟨(covers_owedAttempts hids hmem k).mpr ⟨rfl, hpending, hlo, hhi⟩,
              hcounted.events, hcounted.readings⟩
          later := fun a ha k hk => by
            obtain ⟨c, hc, rfl⟩ := List.mem_map.mp ha
            obtain ⟨d, hd, hid, hretry⟩ := hwas true c hc
            show (owedAttempts reset true).covers c.id k = false
            rw [Bool.eq_false_iff, ← hid]
            intro hcovers
            have hlast := ((covers_owedAttempts hids hd k).mp hcovers).2.2.2
            have hk' : k > c.retries := hk
            omega }
  | false =>
      have hinterrupted : interruptedRun w.manifest = false := hopened.same ▸ hcarrying
      have hpredecessors : w.predecessors = [] := if_neg (by rw [hinterrupted]; decide)
      exact
        { used := hopened.used
          ne := hopened.ne
          apart := hopened.apart
          prior := hopened.prior
          retries := hretries false
          ids := hnodup false
          spend := by
            show total (w.ledgers r.runId)
              = recordedSpend w.calls r.runId + chainSpend w.calls w.predecessors
            rw [hopened.spend, hpredecessors]
            exact (add_zero _).symm
          meter := by
            show r.meter = ownSpend w.calls r.runId + chainSpend w.calls w.predecessors
            rw [hopened.meter, hpredecessors]
            exact (add_zero _).symm
          counted := fun a ha k hlo hhi => by
            obtain ⟨c, hc, rfl⟩ := List.mem_map.mp ha
            exact absurd (mem_takeOverAttempts hids hc (le_trans hlo hhi)).2.1 (by decide)
          later := fun a _ k _ => ⟨(hopened.unwritten a.1 k).events, (hopened.unwritten a.1 k).readings⟩ }

/-- An event written again leaves the sum of what is written and what is to be written. -/
lemma sound_carryOne (h : Sound w) (hr : w.live = some r) {owed : Owed} {event : LedgerEvent}
    {todo : List LedgerEvent} (hstage : r.stage = .carrying owed (event :: todo)) :
    Sound (w.carryOne r owed event todo) := by
  have hcarrying : Carrying w r owed (event :: todo) := by
    have := h.live r hr
    rwa [RunSound, hstage] at this
  have hrecorded : RecordedLedger todo := fun c p t ht =>
    hcarrying.recorded c p t (List.mem_cons_of_mem _ ht)
  -- what the ledger gets, and what the meter gets
  have hwrite : ∀ written spent, total written = total [event] → spent = total [event] →
      (∀ c k, retriesOf written c k = retriesOf [event] c k) → RecordedLedger written →
      Sound { w.emit r written with
        live := some { r with stage := .carrying owed todo, meter := r.meter + spent } } := by
    intro written spent htotal hspent hevents hwritten
    have hne : w.manifest.runId ≠ r.runId := by
      intro he
      refine hcarrying.apart ?_
      rw [World.predecessors, if_pos hcarrying.interrupted, ← he]
      simp
    have hbeside : Beside w { w.emit r written with
        live := some { r with stage := .carrying owed todo, meter := r.meter + spent } } r.runId :=
      ⟨fun q hq => Function.update_of_ne hq _ _, fun _ _ _ _ => rfl, fun _ _ => rfl,
        fun _ hc => Or.inl hc, fun _ hq => hq, fun _ hq => Or.inl hq, rfl, rfl, rfl, rfl⟩
    have hsplit : total (event :: todo) = total [event] + total todo := total_append [event] todo
    have hretries : ∀ c k, retriesOf (event :: todo) c k = retriesOf [event] c k + retriesOf todo c k :=
      fun c k => retriesOf_append [event] todo c k
    refine h.beside r.runId hbeside hcarrying.apart hcarrying.used ?_ ?_
    · show RecordedLedger ((w.emit r written).ledgers r.runId)
      rw [ledgers_emit]
      exact (h.recorded r.runId).append hwritten
    · intro r' hr'
      cases hr'
      exact
        { used := hcarrying.used
          ne := hcarrying.ne
          apart := hcarrying.apart
          prior := hcarrying.prior
          retries := hcarrying.retries
          interrupted := hcarrying.interrupted
          ids := hcarrying.ids
          recorded := hrecorded
          spend := by
            show total ((w.emit r written).ledgers r.runId) + total todo = _
            rw [ledgers_emit, total_append, htotal, add_assoc, ← hsplit]
            exact hcarrying.spend
          meter := by
            show r.meter + spent + total todo = _
            rw [hspent, add_assoc, ← hsplit]
            exact hcarrying.meter
          events := fun c k => by
            show retriesOf ((w.emit r written).ledgers r.runId) c k + retriesOf todo c k
              = if owed.covers c k then retriesOf ((w.emit r written).ledgers w.manifest.runId) c k else 0
            rw [ledgers_emit, retriesOf_append, hevents, hbeside.ledgers _ hne, add_assoc, ← hretries]
            exact hcarrying.events c k
          readings := hcarrying.readings
          owes := fun a ha k hlo hhi =>
            ⟨(hcarrying.owes a ha k hlo hhi).1, hbeside.counted hne (hcarrying.owes a ha k hlo hhi).2⟩
          later := hcarrying.later }
  cases event with
  | usage component phase totals =>
      have htotals := hcarrying.recorded component phase totals List.mem_cons_self
      have hrecord : recordUsage component phase totals = (totals, [.usage component phase totals]) := by
        rw [recordUsage, if_neg htotals.calls, htotals.toDict_eq]
      unfold carryOne
      simp only [hrecord]
      refine hwrite _ _ rfl (total_usage _ _ _).symm (fun _ _ => rfl) fun c p t ht => ?_
      rw [List.mem_singleton] at ht
      cases ht
      exact htotals
  | retrying component attempt reason =>
      have := hwrite [.retrying component attempt reason] 0 rfl (total_retrying _ _ _).symm
        (fun _ _ => rfl) fun c p t ht => by simp at ht
      rwa [add_zero] at this

lemma sound_carryReadings (h : Sound w) (hr : w.live = some r) {owed : Owed}
    (hstage : r.stage = .carrying owed []) :
    Sound { w with
      journal := w.journal ++ carrySuperseded w.journal r.manifest.runId r.runId owed
      live := some { r with stage := .carried } } := by
  have hcarrying : Carrying w r owed [] := by
    have := h.live r hr
    rwa [RunSound, hstage] at this
  have hprior : r.manifest.runId = w.manifest.runId := hcarrying.prior.1
  have hreadings : ∀ c k, readingsOf (w.journal ++ carrySuperseded w.journal r.manifest.runId r.runId owed)
      r.runId c k = if owed.covers c k then readingsOf w.journal w.manifest.runId c k else 0 := by
    intro c k
    rw [readingsOf_append, hcarrying.readings, zero_add, readingsOf_carrySuperseded, hprior]
  have hevents : ∀ c k, retriesOf (w.ledgers r.runId) c k
      = if owed.covers c k then retriesOf (w.ledgers w.manifest.runId) c k else 0 := hcarrying.events
  refine h.beside r.runId ⟨fun _ _ => rfl, fun q hq c k => ?_, fun _ _ => rfl,
    fun _ hc => Or.inl hc, fun _ hq => hq, fun _ hq => Or.inl hq, rfl, rfl, rfl, rfl⟩ hcarrying.apart
    hcarrying.used (h.recorded r.runId) ?_
  · exact (readingsOf_append _ _ _ _ _).trans
      (by rw [readingsOf_carrySuperseded_ne _ hq, add_zero])
  · intro r' hr'
    cases hr'
    exact
      { used := hcarrying.used
        ne := hcarrying.ne
        apart := hcarrying.apart
        prior := hcarrying.prior
        retries := hcarrying.retries
        ids := hcarrying.ids
        spend := by
          have hspend := hcarrying.spend
          rwa [show total [] = 0 from rfl, add_zero] at hspend
        meter := by
          have hmeter := hcarrying.meter
          rwa [show total [] = 0 from rfl, add_zero] at hmeter
        counted := fun a ha k hlo hhi => by
          obtain ⟨hcovers, hcounted⟩ := hcarrying.owes a ha k hlo hhi
          refine ⟨(hevents a.1 k).trans ?_, (hreadings a.1 k).trans ?_⟩
          · rw [if_pos hcovers]
            exact hcounted.events
          · rw [if_pos hcovers]
            exact hcounted.readings
        later := fun a ha k hk => by
          have hcovers : ¬ owed.covers a.1 k = true := by
            rw [hcarrying.later a ha k hk]
            decide
          exact ⟨(hevents a.1 k).trans (if_neg hcovers), (hreadings a.1 k).trans (if_neg hcovers)⟩ }

/-- A manifest with the same retries is behind the same attempts. -/
lemma ahead_of_retriesUsed {m m' : Manifest} {P : String → ℤ → Prop}
    (h : ∀ a ∈ attempts m, ∀ k > a.2.2, P a.1 k) (hsame : retriesUsed m' = retriesUsed m) :
    ∀ a ∈ attempts m', ∀ k > a.2.2, P a.1 k := by
  intro a ha k hk
  obtain ⟨c, hc, rfl⟩ := List.mem_map.mp ha
  have hmem : (c.id, c.retries) ∈ retriesUsed m := hsame ▸ List.mem_map_of_mem hc
  obtain ⟨d, hd, he⟩ := List.mem_map.mp hmem
  obtain ⟨hid, hretries⟩ := Prod.mk.inj he
  have hd' := h (d.id, (d.firstAttempt, d.retries)) (List.mem_map_of_mem hd) k (by
    show k > d.retries
    rw [hretries]
    exact hk)
  rwa [show (d.id, (d.firstAttempt, d.retries)).1 = c.id from hid] at hd'

/-- **The manifest names the run, which answers for its predecessors and itself.** -/
lemma sound_name (h : Sound w) (hr : w.live = some r) (hstage : r.stage = .carried) :
    Sound (w.name r) := by
  have hcarried : Carried w r := by
    have := h.live r hr
    rwa [RunSound, hstage] at this
  have hpredecessors : w.predecessors.Nodup ∧ ∀ q ∈ w.predecessors, q ∈ w.used := by
    unfold World.predecessors
    split_ifs with hinterrupted
    · exact ⟨(h.named hinterrupted).apart, (h.named hinterrupted).used⟩
    · exact ⟨List.nodup_nil, List.forall_mem_nil _⟩
  have hanswered : Answered (w.name r) r.runId (w.predecessors ++ [r.runId]) (attempts r.manifest) :=
    { apart := List.nodup_append.mpr ⟨hpredecessors.1, List.nodup_singleton _, fun q hq q' hq' => by
        rw [List.mem_singleton.mp hq']
        exact fun he => hcarried.apart (he ▸ hq)⟩
      used := fun q hq => by
        rcases List.mem_append.mp hq with hq | hq
        · exact hpredecessors.2 q hq
        · rw [List.mem_singleton.mp hq]
          exact hcarried.used
      spend := by
        show total (w.ledgers r.runId) = chainSpend w.calls _
        rw [chainSpend_append, chainSpend_singleton, hcarried.spend, add_comm]
      counted := fun a ha k hlo hhi =>
        ⟨(hcarried.counted a ha k hlo hhi).events, (hcarried.counted a ha k hlo hhi).readings⟩ }
  exact
    { recorded := h.recorded
      unused := h.unused
      ahead := ahead_of_retriesUsed (P := fun c k => (c, k) ∉ w.sentBack ∧ (c, k) ∉ w.retried) h.ahead
        hcarried.retries
      named := fun _ => hanswered
      live := fun r' hr' => by
        cases hr'
        exact
          { used := hcarried.used
            ne := hcarried.ne
            disk := ⟨rfl, rfl⟩
            memory := ⟨rfl, rfl⟩
            same := rfl
            ids := hcarried.ids
            meter := hcarried.meter
            later := fun a ha k hk =>
              ⟨(hcarried.later a ha k hk).events, (hcarried.later a ha k hk).readings⟩ } }

/-! ## Steps of the named run -/

lemma Sound.working (h : Sound w) (hr : w.live = some r) (hstage : r.stage = .running) :
    Working w r := by
  have := h.live r hr
  rwa [RunSound, hstage] at this

lemma Working.interruptedRun (h : Working w r) : interruptedRun w.manifest = true := by
  unfold World.interruptedRun
  rw [h.disk.1, h.disk.2]
  simpa using h.ne

/-- The run answers for the runs before it and itself. -/
lemma Sound.answered (h : Sound w) (hw : Working w r) :
    Answered w r.runId (w.interrupted ++ [r.runId]) (attempts r.manifest) := by
  have hnamed := h.named hw.interruptedRun
  rwa [hw.disk.1, ← hw.same] at hnamed

lemma sound_work (h : Sound w) (hr : w.live = some r) (hstage : r.stage = .running) {m : Manifest}
    (hm : attempts m = attempts r.manifest ∧ m.runId = r.manifest.runId ∧
      m.completedAt = r.manifest.completedAt) :
    Sound { w with live := some { r with manifest := m } } := by
  have hw := h.working hr hstage
  have hids : m.ids = r.manifest.ids := by
    have := congrArg (List.map Prod.fst) hm.1
    rwa [attempts, attempts, List.map_map, List.map_map] at this
  exact
    { recorded := h.recorded
      unused := h.unused
      ahead := h.ahead
      named := fun hi => ⟨(h.named hi).apart, (h.named hi).used, (h.named hi).spend,
        fun a ha k hlo hhi =>
          ⟨((h.named hi).counted a ha k hlo hhi).events, ((h.named hi).counted a ha k hlo hhi).readings⟩⟩
      live := fun r' hr' => by
        cases hr'
        show RunSound _ { r with manifest := m }
        rw [RunSound, show ({ r with manifest := m } : FactoryRun).stage = .running from hstage]
        exact
          { used := hw.used
            ne := hw.ne
            disk := hw.disk
            memory := ⟨hm.2.1.trans hw.memory.1, hm.2.2.trans hw.memory.2⟩
            same := hm.1.trans hw.same
            ids := hids ▸ hw.ids
            meter := hw.meter
            later := fun a ha k hk =>
              have hold := hw.later a (hm.1 ▸ ha) k hk
              ⟨hold.events, hold.readings⟩ } }

lemma sound_save (h : Sound w) (hr : w.live = some r) (hstage : r.stage = .running) :
    Sound { w with manifest := r.manifest } := by
  have hw := h.working hr hstage
  have hanswered := h.answered hw
  exact
    { recorded := h.recorded
      unused := h.unused
      ahead := by
        show ∀ a ∈ attempts r.manifest, _
        rw [hw.same]
        exact h.ahead
      named := fun _ => by
        show Answered _ r.manifest.runId (w.interrupted ++ [r.manifest.runId]) (attempts r.manifest)
        rw [hw.memory.1]
        exact ⟨hanswered.apart, hanswered.used, hanswered.spend, fun a ha k hlo hhi =>
          ⟨(hanswered.counted a ha k hlo hhi).events, (hanswered.counted a ha k hlo hhi).readings⟩⟩
      live := fun r' hr' => by
        have hsame : r' = r := Option.some.inj (hr'.symm.trans hr)
        subst hsame
        rw [RunSound, hstage]
        exact
          { used := hw.used
            ne := hw.ne
            disk := hw.memory
            memory := hw.memory
            same := rfl
            ids := hw.ids
            meter := hw.meter
            later := fun a ha k hk => ⟨(hw.later a ha k hk).events, (hw.later a ha k hk).readings⟩ } }

lemma sound_finish (h : Sound w) (hr : w.live = some r) (hstage : r.stage = .running) {now : String}
    (hnow : now ≠ "") : Sound (w.finish r now) := by
  have hw := h.working hr hstage
  have hanswered := h.answered hw
  have hover : interruptedRun { r.manifest with completedAt := now } = false := by
    simp [World.interruptedRun, hnow]
  exact
    { recorded := h.recorded
      unused := h.unused
      ahead := by
        show ∀ a ∈ attempts r.manifest, _
        rw [hw.same]
        exact h.ahead
      named := fun hi => absurd (hover.symm.trans hi) Bool.false_ne_true
      live := fun r' hr' => by
        cases hr'
        exact
          { answered := ⟨hanswered.apart, hanswered.used, hanswered.spend, fun a ha k hlo hhi =>
              ⟨(hanswered.counted a ha k hlo hhi).events,
                (hanswered.counted a ha k hlo hhi).readings⟩⟩
            meter := hw.meter
            disk := hover } }

lemma not_mem_interrupted (h : Answered w r.runId (w.interrupted ++ [r.runId]) (attempts r.manifest)) :
    r.runId ∉ w.interrupted := fun hmem =>
  (List.nodup_append.mp h.apart).2.2 _ hmem _ (List.mem_singleton_self _) rfl

/-- A call of the named run. -/
lemma sound_usage (h : Sound w) (hr : w.live = some r) (hstage : r.stage = .running)
    (component phase : String) (totals : UsageTotals) :
    Sound (w.record r component phase totals .running) := by
  have hw := h.working hr hstage
  have hanswered := h.answered hw
  obtain ⟨hspend, hmeter, hrecorded⟩ := record_spend component phase totals r.runId
  have hbeside := record_beside w r component phase totals .running
  have hinterrupted := not_mem_interrupted hanswered
  have hretries : ∀ c k, retriesOf ((w.record r component phase totals .running).ledgers r.runId) c k
      = retriesOf (w.ledgers r.runId) c k := by
    intro c k
    show retriesOf ((w.emit r _).ledgers r.runId) c k = _
    rw [ledgers_emit, retriesOf_append, retriesOf_recordUsage, add_zero]
  have hledger : ∀ q, RecordedLedger ((w.record r component phase totals .running).ledgers q) := by
    intro q
    by_cases hq : q = r.runId
    · subst hq
      show RecordedLedger ((w.emit r _).ledgers r.runId)
      rw [ledgers_emit]
      exact (h.recorded r.runId).append hrecorded
    · rw [hbeside.ledgers q hq]
      exact h.recorded q
  have hnow : Answered (w.record r component phase totals .running) r.runId (w.interrupted ++ [r.runId])
      (attempts r.manifest) :=
    { apart := hanswered.apart
      used := hanswered.used
      spend := by
        show total ((w.emit r _).ledgers r.runId) = chainSpend (w.calls ++ _) _
        rw [ledgers_emit, total_append, hanswered.spend, hspend, chainSpend_append, chainSpend_append,
          chainSpend_singleton, chainSpend_singleton, recordedSpend_append, ← add_assoc]
        congr 2
        exact (hbeside.chainSpend hinterrupted).symm
      counted := fun a ha k hlo hhi =>
        ⟨(hretries a.1 k).trans (hanswered.counted a ha k hlo hhi).events,
          (hanswered.counted a ha k hlo hhi).readings⟩ }
  exact
    { recorded := hledger
      unused := fun q hq => by
        have hne : q ≠ r.runId := fun he => hq (he ▸ hw.used)
        obtain ⟨hold, hreadings, hcalls⟩ := h.unused q hq
        refine ⟨(hbeside.ledgers q hne).trans hold, hreadings, fun call hcall => ?_⟩
        rcases hbeside.calls call hcall with hcall | hcall
        · exact hcalls call hcall
        · exact fun he => hne (he.symm.trans hcall)
      ahead := h.ahead
      named := fun _ => by
        show Answered _ w.manifest.runId (w.interrupted ++ [w.manifest.runId]) (attempts w.manifest)
        rw [hw.disk.1, ← hw.same]
        exact hnow
      live := fun r' hr' => by
        cases hr'
        exact
          { used := hw.used
            ne := hw.ne
            disk := hw.disk
            memory := hw.memory
            same := hw.same
            ids := hw.ids
            meter := by
              show r.meter + _ = ownSpend (w.calls ++ _) r.runId + chainSpend (w.calls ++ _) w.interrupted
              rw [hw.meter, hmeter, ownSpend_append, add_right_comm]
              congr 1
              exact (hbeside.chainSpend hinterrupted).symm
            later := fun a ha k hk =>
              ⟨(hretries a.1 k).trans (hw.later a ha k hk).events, (hw.later a ha k hk).readings⟩ } }

/-! ## Retries -/

lemma retriesOf_retrying (component reason c : String) (attempt k : ℤ) :
    retriesOf [.retrying component attempt reason] c k = if component = c ∧ attempt = k then 1 else 0 := by
  rw [retriesOf, List.countP_singleton]
  simp

lemma readingsOf_singleton (runId component c : String) (attempt k : ℤ) :
    readingsOf [{ runId := runId, component := component, attempt := attempt }] runId c k
      = if component = c ∧ attempt = k then 1 else 0 := by
  rw [readingsOf, List.countP_singleton]
  simp

/-- The attempts counted of a component, which is the only one of its id. -/
lemma eq_of_mem_attempts {m : Manifest} (hids : m.ids.Nodup) {c : Component} (hc : c ∈ m.components)
    {a : String × (ℤ × ℤ)} (ha : a ∈ attempts m) (hid : a.1 = c.id) :
    a = (c.id, (c.firstAttempt, c.retries)) := by
  obtain ⟨d, hd, rfl⟩ := List.mem_map.mp ha
  have hsame : d = c := List.inj_on_of_nodup_map hids hd hc hid
  rw [hsame]

/-- A retry counts one attempt more of its component. -/
lemma mem_attempts_update {m : Manifest} (hids : m.ids.Nodup) {c : Component} (hc : c ∈ m.components)
    {reason : String} {a : String × (ℤ × ℤ)} (ha : a ∈ attempts (m.update c.id (sendBack reason))) :
    a = (c.id, (c.firstAttempt, c.retries + 1)) ∨ (a ∈ attempts m ∧ a.1 ≠ c.id) := by
  rw [attempts, Manifest.update, List.map_map] at ha
  obtain ⟨d, hd, rfl⟩ := List.mem_map.mp ha
  simp only [Function.comp_apply]
  by_cases hid : d.id = c.id
  · have hsame : d = c := List.inj_on_of_nodup_map hids hd hc hid
    left
    rw [if_pos hid, hsame]
    rfl
  · right
    rw [if_neg hid]
    exact ⟨List.mem_map_of_mem hd, hid⟩

lemma ids_update (m : Manifest) (componentId reason : String) :
    (m.update componentId (sendBack reason)).ids = m.ids := by
  rw [Manifest.ids, Manifest.update, List.map_map]
  refine List.map_congr_left fun c _ => ?_
  simp only [Function.comp_apply]
  split_ifs <;> rfl

/-- What a retry writes to the run's stream. -/
def sent (c : Component) (reason : String) (written : Bool) : List LedgerEvent :=
  if written then [.retrying c.id (c.retries + 1) reason] else []

lemma retriesOf_sent (w : World) (r : FactoryRun) (c : Component) (reason : String) (written : Bool)
    (component : String) (k : ℤ) :
    retriesOf ((w.emit r (sent c reason written)).ledgers r.runId) component k
      = retriesOf (w.ledgers r.runId) component k
        + if written ∧ c.id = component ∧ c.retries + 1 = k then 1 else 0 := by
  rw [ledgers_emit, retriesOf_append, sent]
  cases written with
  | true => simp [retriesOf_retrying]
  | false => simp [retriesOf]

lemma recordedLedger_sent (c : Component) (reason : String) (written : Bool) :
    RecordedLedger (sent c reason written) := by
  intro component phase totals hmem
  cases written <;> simp [sent] at hmem

lemma total_sent (c : Component) (reason : String) (written : Bool) : total (sent c reason written) = 0 := by
  cases written with
  | true => exact total_retrying _ _ _
  | false => rfl

/-- The journal row of a retry. -/
def row (r : FactoryRun) (c : Component) : Reading :=
  { runId := r.runId, component := c.id, attempt := c.retries + 1 }

lemma readingsOf_row (w : World) (r : FactoryRun) (c : Component) (component : String) (k : ℤ) :
    readingsOf (w.journal ++ [row r c]) r.runId component k
      = readingsOf w.journal r.runId component k
        + if c.id = component ∧ c.retries + 1 = k then 1 else 0 := by
  rw [readingsOf_append, row, readingsOf_singleton]

lemma readingsOf_row_ne (w : World) {r : FactoryRun} {q : String} (hq : q ≠ r.runId) (c : Component)
    (component : String) (k : ℤ) :
    readingsOf (w.journal ++ [row r c]) q component k = readingsOf w.journal q component k := by
  rw [readingsOf_append, row, readingsOf, readingsOf, List.countP_singleton]
  simp [Ne.symm hq]

/-- The attempt a retry writes is behind the ones counted so far. -/
lemma ne_sent {m : Manifest} (hids : m.ids.Nodup) {c : Component} (hc : c ∈ m.components)
    {a : String × (ℤ × ℤ)} (ha : a ∈ attempts m) {k : ℤ} (hk : k ≤ a.2.2) :
    ¬ (c.id = a.1 ∧ c.retries + 1 = k) := by
  rintro ⟨hid, rfl⟩
  have hentry := congrArg (fun b => b.2.2) (eq_of_mem_attempts hids hc ha hid.symm)
  have hretries : a.2.2 = c.retries := hentry
  omega

/-- A retry that is cut leaves the record of every attempt the manifest counts. -/
lemma sound_cutRetry (h : Sound w) (hr : w.live = some r) (hstage : r.stage = .running) {c : Component}
    (hc : c ∈ r.manifest.components) (reason : String) (emitted : Bool) :
    Sound (w.cutRetry r c reason emitted) := by
  have hw := h.working hr hstage
  have hanswered := h.answered hw
  show Sound { w.emit r (sent c reason emitted) with
    journal := w.journal ++ [row r c]
    live := none }
  have hledgers : ∀ q ≠ r.runId, (w.emit r (sent c reason emitted)).ledgers q = w.ledgers q :=
    fun q hq => Function.update_of_ne hq _ _
  exact
    { recorded := fun q => by
        show RecordedLedger ((w.emit r (sent c reason emitted)).ledgers q)
        by_cases hq : q = r.runId
        · rw [hq, ledgers_emit]
          exact (h.recorded r.runId).append (recordedLedger_sent c reason emitted)
        · rw [hledgers q hq]
          exact h.recorded q
      unused := fun q hq => by
        have hne : q ≠ r.runId := fun he => hq (he ▸ hw.used)
        obtain ⟨hledger, hreadings, hcalls⟩ := h.unused q hq
        exact ⟨(hledgers q hne).trans hledger,
          fun component k => (readingsOf_row_ne w hne c component k).trans (hreadings component k), hcalls⟩
      ahead := h.ahead
      named := fun _ => by
        show Answered _ w.manifest.runId (w.interrupted ++ [w.manifest.runId]) (attempts w.manifest)
        rw [hw.disk.1, ← hw.same]
        exact
          { apart := hanswered.apart
            used := hanswered.used
            spend := by
              show total ((w.emit r (sent c reason emitted)).ledgers r.runId)
                = chainSpend w.calls (w.interrupted ++ [r.runId])
              rw [ledgers_emit, total_append, hanswered.spend, total_sent, add_zero]
            counted := fun a ha k hlo hhi => by
              have hcounted := hanswered.counted a ha k hlo hhi
              have hne := ne_sent hw.ids hc ha hhi
              refine ⟨(retriesOf_sent w r c reason emitted a.1 k).trans ?_,
                (readingsOf_row w r c a.1 k).trans ?_⟩
              · rw [if_neg fun hand => hne hand.2, add_zero]
                exact hcounted.events
              · rw [if_neg hne, add_zero]
                exact hcounted.readings }
      live := fun _ hr' => by cases hr' }

/-- What a retry counts: its own attempt, and what was counted before it. -/
lemma sent_iff {l : List (String × ℤ)} {c : Component} {written : Bool} {component : String} {k : ℤ} :
    (component, k) ∈ (if written then l ++ [(c.id, c.retries + 1)] else l)
      ↔ (component, k) ∈ l ∨ (written ∧ c.id = component ∧ c.retries + 1 = k) := by
  cases written with
  | true =>
      rw [if_pos rfl, List.mem_append, List.mem_singleton, Prod.mk.injEq]
      simp [eq_comm]
  | false => simp

/-- **A retry puts its attempt on record once.** -/
lemma sound_retry (h : Sound w) (hr : w.live = some r) (hstage : r.stage = .running) {c : Component}
    (hc : c ∈ r.manifest.components) (reason : String) (byGate : Bool) :
    Sound (w.retry r c reason byGate) := by
  have hw := h.working hr hstage
  have hanswered := h.answered hw
  set m := r.manifest.update c.id (sendBack reason) with hm
  show Sound { w.emit r (sent c reason byGate) with
    journal := w.journal ++ [row r c]
    manifest := m
    live := some { r with manifest := m }
    sentBack := if byGate then w.sentBack ++ [(c.id, c.retries + 1)] else w.sentBack
    retried := w.retried ++ [(c.id, c.retries + 1)] }
  set w' : World := { w.emit r (sent c reason byGate) with
    journal := w.journal ++ [row r c]
    manifest := m
    live := some { r with manifest := m }
    sentBack := if byGate then w.sentBack ++ [(c.id, c.retries + 1)] else w.sentBack
    retried := w.retried ++ [(c.id, c.retries + 1)] }
  have hledgers : ∀ q ≠ r.runId, w'.ledgers q = w.ledgers q :=
    fun q hq => Function.update_of_ne hq _ _
  have hevents : ∀ component k, retriesOf (w'.ledgers r.runId) component k
      = retriesOf (w.ledgers r.runId) component k
        + if byGate ∧ c.id = component ∧ c.retries + 1 = k then 1 else 0 :=
    retriesOf_sent w r c reason byGate
  have hreadings : ∀ component k, readingsOf w'.journal r.runId component k
      = readingsOf w.journal r.runId component k
        + if c.id = component ∧ c.retries + 1 = k then 1 else 0 := readingsOf_row w r c
  have hsentBack : ∀ component k, (component, k) ∈ w'.sentBack
      ↔ (component, k) ∈ w.sentBack ∨ (byGate ∧ c.id = component ∧ c.retries + 1 = k) :=
    fun _ _ => sent_iff
  have hretried : ∀ component k, (component, k) ∈ w'.retried
      ↔ (component, k) ∈ w.retried ∨ (c.id = component ∧ c.retries + 1 = k) := by
    intro component k
    show (component, k) ∈ w.retried ++ [(c.id, c.retries + 1)] ↔ _
    rw [List.mem_append, List.mem_singleton, Prod.mk.injEq, eq_comm (a := component), eq_comm (a := k)]
  have hentry : (c.id, (c.firstAttempt, c.retries)) ∈ attempts r.manifest := List.mem_map_of_mem hc
  have hahead : ∀ a ∈ attempts r.manifest, ∀ k > a.2.2,
      (a.1, k) ∉ w.sentBack ∧ (a.1, k) ∉ w.retried := hw.same ▸ h.ahead
  -- an attempt that is not the one sent back keeps its record
  have hkept : ∀ component k, ¬ (c.id = component ∧ c.retries + 1 = k) →
      Counted w r.runId component k → Counted w' r.runId component k := by
    intro component k hne hcounted
    refine ⟨?_, ?_⟩
    · rw [hevents, if_neg fun hand => hne hand.2, add_zero, hcounted.events]
      simp [hsentBack, hne]
    · rw [hreadings, if_neg hne, add_zero, hcounted.readings]
      simp [hretried, hne]
  have hcounted : ∀ a ∈ attempts m, ∀ k, a.2.1 ≤ k → k ≤ a.2.2 → Counted w' r.runId a.1 k := by
    intro a ha k hlo hhi
    rcases mem_attempts_update hw.ids hc ha with rfl | ⟨hold, hne⟩
    · by_cases hk : c.retries + 1 = k
      · subst hk
        have hunwritten := hw.later _ hentry (c.retries + 1) (by simp)
        have hnew := hahead _ hentry (c.retries + 1) (by simp)
        refine ⟨?_, ?_⟩
        · rw [hevents, hunwritten.events]
          simp [hsentBack, hnew.1]
        · rw [hreadings, hunwritten.readings]
          simp [hretried]
      · refine hkept c.id k (fun hand => hk hand.2) (hanswered.counted _ hentry k hlo ?_)
        have hk' : k ≤ c.retries + 1 := hhi
        show k ≤ c.retries
        omega
    · exact hkept a.1 k (fun hand => hne hand.1.symm) (hanswered.counted a hold k hlo hhi)
  -- what is behind the attempts counted now was behind them before
  have hbehind : ∀ a ∈ attempts m, ∀ k > a.2.2, ¬ (c.id = a.1 ∧ c.retries + 1 = k) ∧
      ∃ b ∈ attempts r.manifest, b.1 = a.1 ∧ k > b.2.2 := by
    intro a ha k hk
    rcases mem_attempts_update hw.ids hc ha with rfl | ⟨hold, hne⟩
    · have hk' : k > c.retries + 1 := hk
      refine ⟨fun hand => ?_, _, hentry, rfl, ?_⟩
      · omega
      · show k > c.retries
        omega
    · exact ⟨fun hand => hne hand.1.symm, a, hold, rfl, hk⟩
  exact
    { recorded := fun q => by
        by_cases hq : q = r.runId
        · subst hq
          show RecordedLedger ((w.emit r _).ledgers r.runId)
          rw [ledgers_emit]
          exact (h.recorded r.runId).append (recordedLedger_sent c reason byGate)
        · rw [hledgers q hq]
          exact h.recorded q
      unused := fun q hq => by
        have hne : q ≠ r.runId := fun he => hq (he ▸ hw.used)
        obtain ⟨hledger, hold, hcalls⟩ := h.unused q hq
        exact ⟨(hledgers q hne).trans hledger,
          fun component k => (readingsOf_row_ne w hne c component k).trans (hold component k), hcalls⟩
      ahead := fun a ha k hk => by
        obtain ⟨hne, b, hb, hid, hkb⟩ := hbehind a ha k hk
        obtain ⟨hsent, hrow⟩ := hahead b hb k hkb
        rw [hid] at hsent hrow
        refine ⟨?_, ?_⟩
        · rw [hsentBack]
          exact not_or.mpr ⟨hsent, fun hand => hne hand.2⟩
        · rw [hretried]
          exact not_or.mpr ⟨hrow, hne⟩
      named := fun _ => by
        show Answered w' r.manifest.runId (w.interrupted ++ [r.manifest.runId]) (attempts m)
        rw [hw.memory.1]
        exact
          { apart := hanswered.apart
            used := hanswered.used
            spend := by
              show total ((w.emit r (sent c reason byGate)).ledgers r.runId)
                = chainSpend w.calls (w.interrupted ++ [r.runId])
              rw [ledgers_emit, total_append, hanswered.spend, total_sent, add_zero]
            counted := hcounted }
      live := fun r' hr' => by
        cases hr'
        show RunSound w' { r with manifest := m }
        rw [RunSound, show ({ r with manifest := m } : FactoryRun).stage = .running from hstage]
        exact
          { used := hw.used
            ne := hw.ne
            disk := hw.memory
            memory := hw.memory
            same := rfl
            ids := (ids_update r.manifest c.id reason).symm ▸ hw.ids
            meter := hw.meter
            later := fun a ha k hk => by
              obtain ⟨hne, b, hb, hid, hkb⟩ := hbehind a ha k hk
              have hold := hw.later b hb k hkb
              rw [hid] at hold
              refine ⟨?_, ?_⟩
              · rw [hevents, if_neg fun hand => hne hand.2, add_zero]
                exact hold.events
              · rw [hreadings, if_neg hne, add_zero]
                exact hold.readings } }

/-! ## Runs -/

lemma mem_of_getComponent {m : Manifest} {component : String} {c : Component}
    (h : m.getComponent component = some c) : c ∈ m.components := List.mem_of_find?_eq_some h

/-- **Every step keeps the invariant.** -/
theorem sound_next (h : Sound w) {a : Action} (hstep : Step w a w') : Sound w' := by
  unfold Step World.next at hstep
  cases a with
  | start runId =>
      simp only at hstep
      split_ifs at hstep with hturn
      cases hstep
      exact sound_start h hturn.1 hturn.2.1
  | kill =>
      obtain ⟨r, -, rfl⟩ := Option.map_eq_some_iff.mp hstep
      exact sound_kill h
  | architect totals =>
      obtain ⟨r, hr, hstep⟩ := Option.bind_eq_some_iff.mp hstep
      cases hstage : r.stage <;> rw [hstage] at hstep <;> cases hstep
      exact sound_architect h hr hstage totals
  | resume =>
      obtain ⟨r, hr, hstep⟩ := Option.bind_eq_some_iff.mp hstep
      cases hstage : r.stage <;> rw [hstage] at hstep <;> cases hstep
      exact sound_resume h hr hstage
  | carry =>
      obtain ⟨r, hr, hstep⟩ := Option.bind_eq_some_iff.mp hstep
      cases hstage : r.stage with
      | carrying owed todo =>
          rw [hstage] at hstep
          cases todo <;> cases hstep
          exact sound_carryOne h hr hstage
      | _ => rw [hstage] at hstep; cases hstep
  | carryReadings =>
      obtain ⟨r, hr, hstep⟩ := Option.bind_eq_some_iff.mp hstep
      cases hstage : r.stage with
      | carrying owed todo =>
          rw [hstage] at hstep
          cases todo <;> cases hstep
          exact sound_carryReadings h hr hstage
      | _ => rw [hstage] at hstep; cases hstep
  | name =>
      obtain ⟨r, hr, hstep⟩ := Option.bind_eq_some_iff.mp hstep
      cases hstage : r.stage <;> rw [hstage] at hstep <;> cases hstep
      exact sound_name h hr hstage
  | work m =>
      obtain ⟨r, hr, hstep⟩ := Option.bind_eq_some_iff.mp hstep
      cases hstage : r.stage with
      | running =>
          rw [hstage] at hstep
          simp only at hstep
          split_ifs at hstep with hm
          cases hstep
          exact hstage ▸ sound_work h hr hstage hm
      | _ => rw [hstage] at hstep; cases hstep
  | save =>
      obtain ⟨r, hr, hstep⟩ := Option.bind_eq_some_iff.mp hstep
      cases hstage : r.stage <;> rw [hstage] at hstep <;> cases hstep
      exact sound_save h hr hstage
  | usage component phase totals =>
      obtain ⟨r, hr, hstep⟩ := Option.bind_eq_some_iff.mp hstep
      cases hstage : r.stage <;> rw [hstage] at hstep <;> cases hstep
      exact sound_usage h hr hstage component phase totals
  | retry component reason byGate =>
      obtain ⟨r, hr, hstep⟩ := Option.bind_eq_some_iff.mp hstep
      cases hstage : r.stage with
      | running =>
          rw [hstage] at hstep
          obtain ⟨c, hc, rfl⟩ := Option.map_eq_some_iff.mp hstep
          exact sound_retry h hr hstage (mem_of_getComponent hc) reason byGate
      | _ => rw [hstage] at hstep; cases hstep
  | cutRetry component reason emitted =>
      obtain ⟨r, hr, hstep⟩ := Option.bind_eq_some_iff.mp hstep
      cases hstage : r.stage with
      | running =>
          rw [hstage] at hstep
          obtain ⟨c, hc, rfl⟩ := Option.map_eq_some_iff.mp hstep
          exact sound_cutRetry h hr hstage (mem_of_getComponent hc) reason emitted
      | _ => rw [hstage] at hstep; cases hstep
  | finish now =>
      obtain ⟨r, hr, hstep⟩ := Option.bind_eq_some_iff.mp hstep
      cases hstage : r.stage with
      | running =>
          rw [hstage] at hstep
          simp only at hstep
          split_ifs at hstep with hnow
          cases hstep
          exact sound_finish h hr hstage hnow
      | _ => rw [hstage] at hstep; cases hstep

lemma sound_init {m : Manifest} (hm : interruptedRun m = false) : Sound (init m) where
  recorded _ _ _ _ hmem := by cases hmem
  unused _ _ := ⟨rfl, fun _ _ => rfl, List.forall_mem_nil _⟩
  ahead _ _ _ _ := ⟨List.not_mem_nil, List.not_mem_nil⟩
  named hinterrupted := absurd (hm.symm.trans hinterrupted) Bool.false_ne_true
  live _ hr := by cases hr

/-- **Every chain of runs keeps the books.** -/
theorem sound_reaches {m : Manifest} (hm : interruptedRun m = false)
    (run : Runs.Reaches Step Runs.Always (init m) w) : Sound w :=
  run.invariant (sound_init hm) fun _ _ _ hsound _ hstep => sound_next hsound hstep

/-- A manifest of one component. -/
def oneComponent : Manifest := { components := [{ id := "api" }] }

def oneCall : UsageTotals := { calls := 1, knownCalls := 1, totalTokens := 10 }

/-- A run that is killed behind a retry, and the run that takes it over. -/
def killedPending : List Action :=
  [.start "first", .architect oneCall, .resume, .name, .retry "api" "lint" true, .kill,
    .start "second", .architect {}, .resume, .carry, .carry, .carryReadings, .name,
    .usage "api" "build" oneCall, .finish "12:00"]

/-- What the component is where it was completed behind its retry. -/
def completedComponent : Manifest :=
  { components := [{ id := "api", status := .completed, retries := 1 }], runId := "first" }

/-- A run that is killed behind the completion of a component it sent back once, and the run that takes it
over. -/
def killedCompleted : List Action :=
  [.start "first", .architect oneCall, .resume, .name, .retry "api" "lint" true,
    .work completedComponent, .save, .kill,
    .start "second", .architect {}, .resume, .carry, .carryReadings, .name, .finish "12:00"]

end World

end Pipeline

end Kstrl
