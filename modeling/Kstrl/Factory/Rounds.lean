import Kstrl.Acceptance.Contract
import Kstrl.Base.Runs
import Kstrl.Plan.Cascade

/-!
# The transitions of a factory run

What one factory run does to the statuses of the components and to the lists of its result: the decisions of parked
components at its start, the scheduling passes and the contract rounds (`repoll_merge_pending` and
`apply_merge_decisions` of `kstrl/pipeline/pipeline_merge.py`, `Transitions` of
`kstrl/pipeline/pipeline_transitions.py`, `_run_scheduling_pass` and the round loop of `kstrl/factory/factory.py`,
`_reset_contract_breakers` and `_record_contract_failures` of `kstrl/factory/factory_acceptance.py`).

What the agents, the gates, GitHub and the operator say comes in with the steps.

* **`next`** is the system.
* **`failing_spec`** is what a failure with its cascade does to the manifest.
* **`Sound`** is the invariant of the loop: what runs, or is about to, has its dependencies completed.
-/

namespace Kstrl

namespace Manifest

variable {m : Manifest}

lemma getComponent_some_id {a : String} {c : Component} (h : m.getComponent a = some c) : c.id = a := by
  simpa using List.find?_some h

lemma mem_ids_of_getComponent {a : String} {c : Component} (h : m.getComponent a = some c) : a ∈ m.ids :=
  getComponent_some_id h ▸ List.mem_map_of_mem (List.mem_of_find?_eq_some h)

lemma exists_getComponent {a : String} (h : a ∈ m.ids) : ∃ c, m.getComponent a = some c := by
  obtain ⟨c, hc, rfl⟩ := List.mem_map.mp h
  cases hfind : m.getComponent c.id with
  | none => exact absurd (decide_eq_true rfl) (List.find?_eq_none.mp hfind c hc)
  | some d => exact ⟨d, rfl⟩

lemma update_eq_updateAll (a : String) (f : Component → Component) : m.update a f = m.updateAll [a] f := by
  simp [update, updateAll]

lemma getComponent_update {f : Component → Component} (hf : ∀ c, (f c).id = c.id) (a b : String) :
    (m.update a f).getComponent b = if b = a then (m.getComponent b).map f else m.getComponent b := by
  rw [update_eq_updateAll, getComponent_updateAll hf]
  cases hget : m.getComponent b with
  | none => split_ifs <;> rfl
  | some c =>
      rw [Option.map_some, getComponent_some_id hget]
      simp only [List.mem_singleton]
      split_ifs <;> rfl

lemma ids_updateAll {f : Component → Component} (hf : ∀ c, (f c).id = c.id) (componentIds : List String) :
    (m.updateAll componentIds f).ids = m.ids := by
  show ((m.components.map _).map fun c : Component => c.id) = m.components.map fun c => c.id
  rw [List.map_map]
  refine List.map_congr_left fun c _ => ?_
  show (if c.id ∈ componentIds then f c else c).id = c.id
  rw [apply_ite Component.id, hf]
  exact ite_self _

/-- A graph is well formed whatever its components went through. -/
lemma WellFormedGraph.of_same {m' : Manifest} (h : m.WellFormedGraph) (hids : m'.ids = m.ids)
    (hdepends : m'.DependsOn = m.DependsOn) : m'.WellFormedGraph where
  unique := hids ▸ h.unique
  known c hc dep hdep := by
    have hedge : m.DependsOn c.id dep := hdepends ▸ ⟨c, hc, rfl, hdep⟩
    exact hids ▸ (mem_ids_of_dependsOn h.known hedge).2
  acyclic a := hdepends ▸ h.acyclic a

end Manifest

namespace Factory

namespace Rounds

/-! ## The run -/

/-- The lists of `FactoryResult` that the transitions write. -/
structure RunResult where
  completed : List String := []
  failed : List String := []
  skipped : List String := []
  scheduled : List String := []
  deriving DecidableEq, Repr

structure RunConfig where
  maxRetries : ℤ
  maxParallel : ℤ
  contractMode : ContractMode
  /-- `create_prs` without `single_pr` -/
  componentsMerged : Bool

/-- `slots_cap` -/
def RunConfig.slotsCap (cfg : RunConfig) : ℕ := (max 1 cfg.maxParallel).toNat

/-- Where the run is. -/
inductive Stage where
  /-- the merge-pending components still to poll -/
  | repolling (rest : List String)
  /-- the parked components still to decide -/
  | deciding (rest : List String)
  | top
  /-- the components to launch, and whether one changed state with no launch -/
  | filling (ready : List String) (transitioned : Bool)
  /-- `begin_attempt` has run for the first -/
  | launching (component : String) (ready : List String) (transitioned : Bool)
  | waiting
  /-- past a deadline -/
  | expiring
  | aborting
  /-- the pass is over -/
  | contract
  | ended
  deriving DecidableEq, Repr

structure State where
  manifest : Manifest
  result : RunResult := {}
  /-- the components of `running_futures` -/
  running : List String := []
  stage : Stage

/-- How an attempt ends, or what a decision makes of a component. -/
inductive Outcome where
  /-- routed through `retry_or_fail`; `diverging` is what the convergence check says against a retry -/
  | retryOrFail (error phase check : String) (diverging : Option String)
  | fail (error phase check : String)
  | complete
  | mergePending (error : String)
  /-- nobody answered the merge gate; whether there is an open item to approve -/
  | park (asked : Bool)
  deriving DecidableEq, Repr

/-- The transition that an outcome comes to. -/
inductive Verdict where
  | back (error phase check : String)
  | failed (error phase check : String)
  | completed
  | mergePending (error : String)
  | awaitingApproval
  deriving DecidableEq, Repr

/-- The error of a park with nothing to approve it. -/
def nothingToApprove (componentId : String) : String :=
  "Stopped at the merge gate with nothing to approve it: no open merge_gate inbox item ([inbox] disabled or " ++
    "unwritable), so nothing was pushed; `ks retry " ++ componentId ++ "` rebuilds it"

/-- `retry_or_fail`, `fail`, `complete`, `_park_merge_pending` and `_park_awaiting_approval`, as far as they choose. -/
def resolve (cfg : RunConfig) (c : Component) : Outcome → Verdict
  | .retryOrFail error phase check diverging =>
      if c.retries < cfg.maxRetries then
        match diverging with
        | some message => .failed message "engineer" "convergence"
        | none => .back error phase check
      else .failed error phase check
  | .fail error phase check => .failed error phase check
  | .complete => .completed
  | .mergePending error => .mergePending error
  | .park true => .awaitingApproval
  | .park false => .failed (nothingToApprove c.id) "pr" "merge_gate"

/-- A component sent back for its next attempt. -/
def sendBack (error phase check : String) (c : Component) : Component :=
  { c with status := .pending, error := error, retries := c.retries + 1, failedPhase := phase, failedCheck := check }

def failAs (now error phase check : String) (c : Component) : Component :=
  { c with status := .failed, error := error, completedAt := now, failedPhase := phase, failedCheck := check }

def completeAs (now : String) (c : Component) : Component :=
  { c with status := .completed, error := "", completedAt := now }

def parkAs (status : ComponentStatus) (error : String) (c : Component) : Component :=
  { c with status := status, error := error }

/-- A component whose attempt begins. -/
def beginAttempt (c : Component) : Component :=
  { c with status := .running, failedPhase := "", failedCheck := "", completedAt := "" }

/-- The error of a component that waits for the answer of its merge gate. -/
def awaitingApprovalError : String :=
  "Parked awaiting merge approval (pause_before_pr_merge, nobody answered the gate); `ks inbox approve <id>` merges it"

/-- A component is failed, and its dependents are skipped. -/
def failCascade (m : Manifest) (now x error phase check : String) : Manifest × List String :=
  (m.update x (failAs now error phase check)).cascadeSkip x now

/-- The transition of a component. -/
def apply (now x : String) (s : State) : Verdict → State
  | .back error phase check => { s with manifest := s.manifest.update x (sendBack error phase check) }
  | .failed error phase check =>
      let (manifest, skipped) := failCascade s.manifest now x error phase check
      { s with
        manifest := manifest
        result := { s.result with skipped := s.result.skipped ++ skipped, failed := s.result.failed ++ [x] } }
  | .completed =>
      { s with
        manifest := s.manifest.update x (completeAs now)
        result := { s.result with completed := s.result.completed ++ [x] } }
  | .mergePending error => { s with manifest := s.manifest.update x (parkAs .mergePending error) }
  | .awaitingApproval =>
      { s with manifest := s.manifest.update x (parkAs .awaitingApproval awaitingApprovalError) }

/-- The outcome of a component; none for one that the manifest does not have. -/
def settle (cfg : RunConfig) (now x : String) (o : Outcome) (s : State) : State :=
  match s.manifest.getComponent x with
  | none => s
  | some c => apply now x s (resolve cfg c o)

/-- What GitHub says of a merge-pending PR. -/
inductive Poll where
  | unknown
  | merged
  | closed (error : String)
  deriving DecidableEq, Repr

def Poll.outcome : Poll → Option Outcome
  | unknown => none
  | merged => some .complete
  | closed error => some (.fail error "pr" "pr_closed")

/-- What becomes of a parked component: `apply_merge_decisions` with `_merge_approved`. -/
inductive Decision where
  | waiting
  | rejected (comment : String)
  /-- approved, and the branch has moved -/
  | moved (error : String)
  /-- merged, or there is no `gh` -/
  | merged
  | pending (error : String)
  | prFailed (error check : String)
  deriving DecidableEq, Repr

def Decision.outcome : Decision → Option Outcome
  | waiting => none
  | rejected comment => some (.fail ("Rejected at the merge gate: " ++ comment) "pr" "hitl_reject")
  | moved error => some (.fail error "pr" "merge_gate")
  | merged => some .complete
  | pending error => some (.mergePending error)
  | prFailed error check => some (.fail error "pr" check)

/-! ### Contract rounds -/

/-- The breaker of a result; an empty id is none. -/
def breakerOf (r : ContractResult) : Option String := r.breaker.filter fun id => id ≠ ""

/-- A breaker that has a retry left goes back to `PENDING`. -/
def resetBreaker (cfg : RunConfig) (acc : State × Bool) (r : ContractResult) : State × Bool :=
  match breakerOf r with
  | none => acc
  | some id =>
      match acc.1.manifest.getComponent id with
      | none => acc
      | some c =>
          if c.retries < cfg.maxRetries ∧ r.heldOut = [] then
            ({ acc.1 with
                manifest := acc.1.manifest.update id fun c =>
                  { c with
                    status := .pending
                    retries := c.retries + 1
                    error := "Contract test failed at tier " ++ toString r.tier }
                result := { acc.1.result with completed := acc.1.result.completed.erase id } }, true)
          else acc

/-- `_stop_reason` -/
def stopReason (r : ContractResult) : String :=
  if r.heldOut ≠ [] then "a held-out check failed, no retry" else "retries exhausted"

/-- A contract failure that has no retry left. -/
def recordFailure (now : String) (s : State) (r : ContractResult) : State :=
  match breakerOf r with
  | none => s
  | some id =>
      { s with
        manifest := s.manifest.update id (failAs now
          ("Contract test failed at tier " ++ toString r.tier ++ " (" ++ stopReason r ++ ")") "contract"
          ("tier_" ++ toString r.tier))
        result := { s.result with
          completed := s.result.completed.erase id
          failed := if id ∈ s.result.failed then s.result.failed else s.result.failed ++ [id] } }

/-- `_run_contract_round` -/
def contractRound (cfg : RunConfig) (now : String) (w : Phase3) (baseSha : String) (s : State) : State :=
  match runContractTesting w s.manifest cfg.contractMode cfg.componentsMerged baseSha with
  | .error _ => { s with stage := .ended }
  | .ok results =>
      let failures := results.filter fun r => !r.passed
      let (reset, anyReset) := failures.foldl (resetBreaker cfg) (s, false)
      if anyReset then { reset with stage := .top }
      else { failures.foldl (recordFailure now) reset with stage := .ended }

/-! ### The system -/

inductive Action where
  | repoll (poll : Poll)
  | repolled
  | decide (decision : Decision)
  | decided
  /-- the ready components are read -/
  | ready
  /-- failed before the launch -/
  | refuse (error phase check : String)
  /-- `begin_attempt` -/
  | start
  /-- no engineer is launched: no worktree, or a kept head that is judged -/
  | settleEarly (outcome : Outcome)
  | submit
  | filled
  /-- a completed worker -/
  | collect (component : String) (outcome : Outcome)
  /-- a component past its deadline -/
  | expire (component : String)
  | expired
  | stop
  | abort (component reason : String)
  | aborted
  | contract (w : Phase3) (baseSha : String)
  /-- a stopped run does no contract round -/
  | skipContract

/-- The ids of the components with a status. -/
def idsIn (m : Manifest) (status : ComponentStatus) : List String :=
  (m.components.filter fun c => c.status = status).map fun c => c.id

/-- `_resume_manifest`: what a crash left in flight is pending again. -/
def resumed (m : Manifest) : Manifest :=
  m.updateAll (idsIn m .running ++ idsIn m .verifying) fun c => { c with status := .pending }

/-- The start of a run. -/
def init (m : Manifest) : State where
  manifest := resumed m
  stage := .repolling (idsIn (resumed m) .mergePending)

/-- One step at a time of the clock; `none` where it is not the step's turn. -/
def next (cfg : RunConfig) (s : State) (now : String) : Action → Option State
  | .repoll poll =>
      match s.stage with
      | .repolling (x :: rest) =>
          let s' := match poll.outcome with
            | none => s
            | some o => settle cfg now x o s
          some { s' with stage := .repolling rest }
      | _ => none
  | .repolled =>
      match s.stage with
      | .repolling [] => some { s with stage := .deciding (idsIn s.manifest .awaitingApproval) }
      | _ => none
  | .decide decision =>
      match s.stage with
      | .deciding (x :: rest) =>
          let s' := match decision.outcome with
            | none => s
            | some o => settle cfg now x o s
          some { s' with stage := .deciding rest }
      | _ => none
  | .decided =>
      match s.stage with
      | .deciding [] => some { s with stage := .top }
      | _ => none
  | .ready =>
      match s.stage with
      | .top =>
          let ready := (s.manifest.getReadyComponents.take (cfg.slotsCap - s.running.length)).map fun c => c.id
          some { s with stage := .filling ready false }
      | _ => none
  | .refuse error phase check =>
      match s.stage with
      | .filling (x :: rest) _ =>
          some { settle cfg now x (.fail error phase check) s with stage := .filling rest true }
      | _ => none
  | .start =>
      match s.stage with
      | .filling (x :: rest) transitioned =>
          some { s with
            manifest := s.manifest.update x beginAttempt
            stage := .launching x rest transitioned }
      | _ => none
  | .settleEarly outcome =>
      match s.stage with
      | .launching x rest _ => some { settle cfg now x outcome s with stage := .filling rest true }
      | _ => none
  | .submit =>
      match s.stage with
      | .launching x rest transitioned =>
          some { s with
            running := s.running ++ [x]
            result := { s.result with scheduled := s.result.scheduled ++ [x] }
            stage := .filling rest transitioned }
      | _ => none
  | .filled =>
      match s.stage with
      | .filling [] transitioned =>
          if s.running ≠ [] then some { s with stage := .waiting }
          else if transitioned then some { s with stage := .top }
          else some { s with stage := .contract }
      | _ => none
  | .collect x outcome =>
      match s.stage with
      | .waiting =>
          if x ∈ s.running then
            some { settle cfg now x outcome s with running := s.running.erase x, stage := .top }
          else none
      | _ => none
  | .expire x =>
      match s.stage with
      | .waiting | .expiring =>
          if x ∈ s.running then
            some { settle cfg now x (.fail "component timeout" "engineer" "scheduler_backstop") s with
              running := s.running.erase x, stage := .expiring }
          else none
      | _ => none
  | .expired =>
      match s.stage with
      | .expiring => some { s with stage := .top }
      | _ => none
  | .stop =>
      match s.stage with
      | .top | .waiting => some { s with stage := .aborting }
      | _ => none
  | .abort x reason =>
      match s.stage with
      | .aborting =>
          if x ∈ s.running then
            some { settle cfg now x (.fail ("aborted: " ++ reason) "aborted" "shutdown") s with
              running := s.running.erase x, stage := .aborting }
          else none
      | _ => none
  | .aborted =>
      match s.stage with
      | .aborting => if s.running = [] then some { s with stage := .ended } else none
      | _ => none
  | .contract w baseSha =>
      match s.stage with
      | .contract => some (contractRound cfg now w baseSha s)
      | _ => none
  | .skipContract =>
      match s.stage with
      | .contract => some { s with stage := .ended }
      | _ => none

/-- The transition relation; an action stands with the time it happens at. -/
def Step (cfg : RunConfig) (s : State) (a : String × Action) (s' : State) : Prop := next cfg s a.1 a.2 = some s'

/-! ## What a failure does -/

open Relation

variable {m : Manifest}

lemma dependsOn_of_chain {a b : String} (h : TransGen m.OpenDependsOn a b) : TransGen m.DependsOn a b :=
  TransGen.mono (fun _ _ edge => edge.1) _ _ h

/-- The chains to a component do not go through it. -/
lemma openChain_congr {m m' : Manifest} {x : String} (hdepends : m'.DependsOn = m.DependsOn)
    (hopen : ∀ a, a ≠ x → m'.isOpen a = m.isOpen a) (hacyclic : ¬ TransGen m.DependsOn x x) {z : String}
    (h : TransGen m.OpenDependsOn z x) : TransGen m'.OpenDependsOn z x := by
  have hedge : ∀ {a b : String}, a ≠ x → m.OpenDependsOn a b → m'.OpenDependsOn a b := by
    intro a b ha h
    exact ⟨hdepends ▸ h.1, (hopen a ha).trans h.2⟩
  induction h using TransGen.head_induction_on with
  | @single a edge =>
      refine .single (hedge ?_ edge)
      rintro rfl
      exact hacyclic (.single edge.1)
  | @head a c edge rest ih =>
      refine .head (hedge ?_ edge) ih
      rintro rfl
      exact hacyclic (.head edge.1 (dependsOn_of_chain rest))

/-- A component is failed, and the open components with an open chain down to it are skipped. -/
structure Failing (m : Manifest) (now x error phase check : String) (m' : Manifest) (skipped : List String) : Prop where
  ids : m'.ids = m.ids
  depends : m'.DependsOn = m.DependsOn
  self : m'.getComponent x = (m.getComponent x).map (failAs now error phase check)
  skips : ∀ z ∈ skipped, m'.getComponent z = (m.getComponent z).map (Manifest.skip x now)
  others : ∀ z, z ≠ x → z ∉ skipped → m'.getComponent z = m.getComponent z
  mem : ∀ z, z ∈ skipped ↔ TransGen m.OpenDependsOn z x
  nodup : skipped.Nodup

/-- **The effect of a failure.** -/
theorem failing_spec (hm : m.WellFormedGraph) {x : String} (hx : x ∈ m.ids) (now error phase check : String) :
    Failing m now x error phase check (failCascade m now x error phase check).1
      (failCascade m now x error phase check).2 := by
  have hf : ∀ c, (failAs now error phase check c).id = c.id := fun _ => rfl
  have hskip : ∀ c, (Manifest.skip x now c).id = c.id := fun _ => rfl
  rw [failCascade]
  set m₁ := m.update x (failAs now error phase check) with hm₁
  have hids : m₁.ids = m.ids := by rw [hm₁, Manifest.update_eq_updateAll, Manifest.ids_updateAll hf]
  have hdepends : m₁.DependsOn = m.DependsOn := by
    rw [hm₁, Manifest.update_eq_updateAll, Manifest.dependsOn_updateAll hf fun _ => rfl]
  have hget := Manifest.getComponent_update (m := m) hf x
  rw [← hm₁] at hget
  have hopen : ∀ a, a ≠ x → m₁.isOpen a = m.isOpen a := by
    intro a ha
    rw [Manifest.isOpen, Manifest.isOpen, hget, if_neg ha]
  have hx₁ : x ∈ m₁.ids := hids ▸ hx
  have hmem : ∀ z, z ∈ (m₁.cascadeSkip x now).2 ↔ z ≠ x ∧ TransGen m₁.OpenDependsOn z x :=
    fun z => Manifest.mem_cascadeSkip hx₁
  have hresult : (m₁.cascadeSkip x now).1 = m₁.updateAll (m₁.cascadeSkip x now).2 (Manifest.skip x now) :=
    congrArg Prod.fst (Manifest.cascadeSkip_eq x now).1
  have hlater : ∀ z, (m₁.cascadeSkip x now).1.getComponent z =
      if z ∈ (m₁.cascadeSkip x now).2 then (m₁.getComponent z).map (Manifest.skip x now) else m₁.getComponent z := by
    intro z
    rw [hresult, Manifest.getComponent_updateAll hskip]
    cases hz : m₁.getComponent z with
    | none => split_ifs <;> rfl
    | some c =>
        rw [Option.map_some, Manifest.getComponent_some_id hz]
        split_ifs <;> rfl
  refine ⟨?_, ?_, ?_, fun z hz => ?_, fun z hne hz => ?_, fun z => ?_, ?_⟩
  · rw [hresult, Manifest.ids_updateAll hskip, hids]
  · rw [hresult, Manifest.dependsOn_updateAll hskip fun _ => rfl, hdepends]
  · have hnot : x ∉ (m₁.cascadeSkip x now).2 := fun h => ((hmem x).mp h).1 rfl
    rw [hlater, if_neg hnot, hget, if_pos rfl]
  · have hne := ((hmem z).mp hz).1
    rw [hlater, if_pos hz, hget, if_neg hne]
  · rw [hlater, if_neg hz, hget, if_neg hne]
  · refine (hmem z).trans ⟨fun h => ?_, fun h => ⟨?_, ?_⟩⟩
    · exact openChain_congr hdepends.symm (fun a ha => (hopen a ha).symm) (hdepends ▸ hm.acyclic x) h.2
    · rintro rfl
      exact hm.acyclic z (dependsOn_of_chain h)
    · exact openChain_congr hdepends hopen (hm.acyclic x) h
  · exact Manifest.cascadeSkip_nodup x now

/-! ## Statuses -/

def HasStatus (m : Manifest) (status : ComponentStatus) (x : String) : Prop :=
  ∃ c, m.getComponent x = some c ∧ c.status = status

/-- A component with a status, its dependencies completed. -/
def Stands (m : Manifest) (status : ComponentStatus) (x : String) : Prop :=
  ∃ c, m.getComponent x = some c ∧ c.status = status ∧ ∀ dep ∈ c.dependencies, HasStatus m .completed dep

lemma HasStatus.unique {status status' : ComponentStatus} {x : String} (h : HasStatus m status x)
    (h' : HasStatus m status' x) : status = status' := by
  obtain ⟨c, hc, rfl⟩ := h
  obtain ⟨d, hd, rfl⟩ := h'
  rw [hc] at hd
  cases hd
  rfl

lemma Stands.hasStatus {status : ComponentStatus} {x : String} (h : Stands m status x) : HasStatus m status x := by
  obtain ⟨c, hc, hstatus, -⟩ := h
  exact ⟨c, hc, hstatus⟩

/-- The first component of an open chain is open. -/
lemma open_of_chain {z x : String} (h : TransGen m.OpenDependsOn z x) :
    ∃ c, m.getComponent z = some c ∧ c.status ≠ .completed ∧ c.status ≠ .skipped := by
  obtain ⟨y, hedge, -⟩ := TransGen.head'_iff.mp h
  obtain ⟨c, hc, hopen⟩ := (Option.any_eq_true _ _).mp hedge.2
  simp only [decide_eq_true_eq, List.mem_cons, List.not_mem_nil, or_false, not_or] at hopen
  exact ⟨c, hc, hopen⟩

lemma not_chain_of_closed {z x : String} {status : ComponentStatus} (h : HasStatus m status z)
    (hclosed : status = .completed ∨ status = .skipped) : ¬ TransGen m.OpenDependsOn z x := by
  intro hchain
  obtain ⟨c, hc, hcompleted, hskipped⟩ := open_of_chain hchain
  obtain ⟨d, hd, rfl⟩ := h
  rw [hc] at hd
  cases hd
  exact hclosed.elim hcompleted hskipped

/-- A component whose dependencies are completed waits for nothing that fails. -/
lemma not_chain_of_stands (hn : m.ids.Nodup) {z x : String} {status status' : ComponentStatus} (hz : Stands m status z)
    (hx : HasStatus m status' x) (hne : status' ≠ .completed) : ¬ TransGen m.OpenDependsOn z x := by
  intro hchain
  obtain ⟨c, hc, -, hdeps⟩ := hz
  obtain ⟨y, hedge, hrest⟩ := TransGen.head'_iff.mp hchain
  have hy : y ∈ c.dependencies := by
    have hmem := (Manifest.mem_dependenciesOf hn).mpr hedge.1
    rwa [Manifest.dependenciesOf, hc] at hmem
  have hcompleted := hdeps y hy
  rcases ReflTransGen.cases_head hrest with rfl | ⟨w, hw, -⟩
  · exact hne (hx.unique hcompleted)
  · exact not_chain_of_closed hcompleted (.inl rfl) (.single hw)

/-! ## The effect of a transition -/

/-- What a transition makes of its component. -/
def Verdict.change (now : String) : Verdict → Component → Component
  | back error phase check => sendBack error phase check
  | failed error phase check => failAs now error phase check
  | completed => completeAs now
  | mergePending error => parkAs .mergePending error
  | awaitingApproval => parkAs .awaitingApproval awaitingApprovalError

def Verdict.fails : Verdict → Bool
  | failed _ _ _ => true
  | _ => false

/-- The effect of a transition on the components and on the lists. -/
structure Applied (s : State) (now x : String) (v : Verdict) (s' : State) : Prop where
  ids : s'.manifest.ids = s.manifest.ids
  depends : s'.manifest.DependsOn = s.manifest.DependsOn
  self : s'.manifest.getComponent x = (s.manifest.getComponent x).map (v.change now)
  skips : v.fails = true → ∀ z, TransGen s.manifest.OpenDependsOn z x →
    s'.manifest.getComponent z = (s.manifest.getComponent z).map (Manifest.skip x now)
  others : ∀ z, z ≠ x → (v.fails = true → ¬ TransGen s.manifest.OpenDependsOn z x) →
    s'.manifest.getComponent z = s.manifest.getComponent z
  completed : s'.result.completed = s.result.completed ++ if v = .completed then [x] else []
  failed : s'.result.failed = s.result.failed ++ if v.fails = true then [x] else []
  skipped : ∃ skipped : List String, s'.result.skipped = s.result.skipped ++ skipped ∧ skipped.Nodup ∧
    ∀ z, z ∈ skipped ↔ v.fails = true ∧ TransGen s.manifest.OpenDependsOn z x
  scheduled : s'.result.scheduled = s.result.scheduled

/-- A transition that changes one component. -/
lemma applied_update {s s' : State} {now x : String} {v : Verdict} (hfails : v.fails = false)
    (hmanifest : s'.manifest = s.manifest.update x (v.change now))
    (hcompleted : s'.result.completed = s.result.completed ++ if v = .completed then [x] else [])
    (hfailed : s'.result.failed = s.result.failed) (hskipped : s'.result.skipped = s.result.skipped)
    (hscheduled : s'.result.scheduled = s.result.scheduled) : Applied s now x v s' := by
  have hid : ∀ c, (v.change now c).id = c.id := fun c => by cases v <;> rfl
  have hdeps : ∀ c, (v.change now c).dependencies = c.dependencies := fun c => by cases v <;> rfl
  refine ⟨?_, ?_, ?_, ?_, ?_, hcompleted, ?_, ⟨[], ?_, List.nodup_nil, ?_⟩, hscheduled⟩
  · rw [hmanifest, Manifest.update_eq_updateAll, Manifest.ids_updateAll hid]
  · rw [hmanifest, Manifest.update_eq_updateAll, Manifest.dependsOn_updateAll hid hdeps]
  · rw [hmanifest, Manifest.getComponent_update hid, if_pos rfl]
  · intro hyes
    rw [hfails] at hyes
    cases hyes
  · intro z hz _
    rw [hmanifest, Manifest.getComponent_update hid, if_neg hz]
  · rw [hfailed, hfails]
    simp
  · rw [hskipped, List.append_nil]
  · simp [hfails]

/-- **The effect of a transition.** -/
theorem applied_apply {s : State} (hm : s.manifest.WellFormedGraph) {x : String} (hx : x ∈ s.manifest.ids) (now : String)
    (v : Verdict) : Applied s now x v (apply now x s v) := by
  cases v with
  | failed error phase check =>
      have hspec := failing_spec hm hx now error phase check
      exact
        { ids := hspec.ids
          depends := hspec.depends
          self := hspec.self
          skips := fun _ z hz => hspec.skips z ((hspec.mem z).mpr hz)
          others := fun z hz hnot => hspec.others z hz fun hmem => hnot rfl ((hspec.mem z).mp hmem)
          completed := (List.append_nil _).symm
          failed := rfl
          skipped := ⟨_, rfl, hspec.nodup, fun z => (hspec.mem z).trans ⟨fun hz => ⟨rfl, hz⟩, fun hz => hz.2⟩⟩
          scheduled := rfl }
  | back error phase check => exact applied_update rfl rfl (List.append_nil _).symm rfl rfl rfl
  | completed => exact applied_update rfl rfl rfl rfl rfl rfl
  | mergePending error => exact applied_update rfl rfl (List.append_nil _).symm rfl rfl rfl
  | awaitingApproval => exact applied_update rfl rfl (List.append_nil _).symm rfl rfl rfl

namespace Applied

variable {s s' : State} {now x : String} {v : Verdict}

lemma graph (h : Applied s now x v s') (hm : s.manifest.WellFormedGraph) : s'.manifest.WellFormedGraph :=
  hm.of_same h.ids h.depends

/-- A completed component other than the one the transition is about stays as it is. -/
lemma completed_kept (h : Applied s now x v s') {z : String} (hz : HasStatus s.manifest .completed z) (hne : z ≠ x) :
    HasStatus s'.manifest .completed z := by
  obtain ⟨c, hc, hstatus⟩ := id hz
  exact ⟨c, by rw [h.others z hne fun _ => not_chain_of_closed hz (.inl rfl), hc], hstatus⟩

/-- **A component whose dependencies are completed stands** through the transition of another one. -/
lemma stands (h : Applied s now x v s') (hn : s.manifest.ids.Nodup) {z : String} {status status' : ComponentStatus}
    (hz : Stands s.manifest status z) (hne : z ≠ x) (hx : HasStatus s.manifest status' x) (hopen : status' ≠ .completed) :
    Stands s'.manifest status z := by
  have hchain := not_chain_of_stands hn hz hx hopen
  obtain ⟨c, hc, hstatus, hdeps⟩ := hz
  refine ⟨c, by rw [h.others z hne fun _ => hchain, hc], hstatus, fun dep hdep => h.completed_kept (hdeps dep hdep) ?_⟩
  rintro rfl
  exact hopen (hx.unique (hdeps dep hdep))

end Applied

/-! ## The invariant of the loop -/

/-- What is known of the components where the run is. -/
def Placed (s : State) : Prop :=
  match s.stage with
  | .repolling rest | .deciding rest => s.running = [] ∧ ∀ x ∈ rest, x ∈ s.manifest.ids
  | .filling ready _ => ready.Nodup ∧ ∀ x ∈ ready, Stands s.manifest .pending x
  | .launching x ready _ =>
      Stands s.manifest .running x ∧ x ∉ s.running ∧ ready.Nodup ∧ ∀ y ∈ ready, Stands s.manifest .pending y
  | .contract => s.running = []
  | _ => True

/-- **The invariant.** -/
structure Sound (s : State) : Prop where
  graph : s.manifest.WellFormedGraph
  once : s.running.Nodup
  runs : ∀ x ∈ s.running, Stands s.manifest .running x
  placed : Placed s

/-- The component a step settles, and its outcome. -/
def settled (s : State) : Action → Option (String × Outcome)
  | .repoll poll =>
      match s.stage with
      | .repolling (x :: _) => poll.outcome.map fun o => (x, o)
      | _ => none
  | .decide decision =>
      match s.stage with
      | .deciding (x :: _) => decision.outcome.map fun o => (x, o)
      | _ => none
  | .refuse error phase check =>
      match s.stage with
      | .filling (x :: _) _ => some (x, .fail error phase check)
      | _ => none
  | .settleEarly outcome =>
      match s.stage with
      | .launching x _ _ => some (x, outcome)
      | _ => none
  | .collect x outcome => some (x, outcome)
  | .expire x => some (x, .fail "component timeout" "engineer" "scheduler_backstop")
  | .abort x reason => some (x, .fail ("aborted: " ++ reason) "aborted" "shutdown")
  | _ => none

/-- The run is at the decisions of its start. -/
def State.starting (s : State) : Prop :=
  match s.stage with
  | .repolling _ | .deciding _ => True
  | _ => False

/-- A step that settles a component. -/
structure Settles (cfg : RunConfig) (now : String) (s : State) (x : String) (o : Outcome) (c : Component) (s' : State) :
    Prop where
  found : s.manifest.getComponent x = some c
  applied : Applied s now x (resolve cfg c o) s'
  source : s.starting ∨ Stands s.manifest .pending x ∨ Stands s.manifest .running x

/-- A step that settles none. -/
inductive Unsettled (cfg : RunConfig) (now : String) (s s' : State) : Prop where
  | still (manifest : s'.manifest = s.manifest) (result : s'.result = s.result)
  | start (x : String) (pending : Stands s.manifest .pending x)
      (manifest : s'.manifest = s.manifest.update x beginAttempt) (result : s'.result = s.result)
  | submit (x : String) (manifest : s'.manifest = s.manifest)
      (result : s'.result = { s.result with scheduled := s.result.scheduled ++ [x] })
  | contract (w : Phase3) (baseSha : String) (idle : s.running = []) (round : s' = contractRound cfg now w baseSha s)

section Next

variable {cfg : RunConfig} {now : String} {s s' : State} {a : Action}

lemma settle_running (x : String) (o : Outcome) : (settle cfg now x o s).running = s.running := by
  unfold settle
  cases s.manifest.getComponent x with
  | none => rfl
  | some c =>
      dsimp only
      cases resolve cfg c o <;> rfl

lemma Applied.of_same {x : String} {v : Verdict} {s₁ : State} (h : Applied s now x v s₁)
    (hmanifest : s'.manifest = s₁.manifest) (hresult : s'.result = s₁.result) : Applied s now x v s' := by
  obtain ⟨hids, hdepends, hself, hskips, hothers, hcompleted, hfailed, hskipped, hscheduled⟩ := h
  rw [← hmanifest] at hids hdepends hself
  simp only [← hmanifest] at hskips hothers
  rw [← hresult] at hcompleted hfailed hscheduled
  simp only [← hresult] at hskipped
  exact ⟨hids, hdepends, hself, hskips, hothers, hcompleted, hfailed, hskipped, hscheduled⟩

lemma applied_settle (hm : s.manifest.WellFormedGraph) {x : String} (hx : x ∈ s.manifest.ids) (o : Outcome) :
    ∃ c, s.manifest.getComponent x = some c ∧ Applied s now x (resolve cfg c o) (settle cfg now x o s) := by
  obtain ⟨c, hc⟩ := Manifest.exists_getComponent hx
  refine ⟨c, hc, ?_⟩
  rw [settle, hc]
  exact applied_apply hm hx now _

lemma Stands.mem_ids {status : ComponentStatus} {x : String} (h : Stands m status x) : x ∈ m.ids := by
  obtain ⟨c, hc, -⟩ := h
  exact Manifest.mem_ids_of_getComponent hc

/-- A settled component, whatever else the step does. -/
lemma settles_of (h : Sound s) {x : String} (hx : x ∈ s.manifest.ids)
    (hsource : s.starting ∨ Stands s.manifest .pending x ∨ Stands s.manifest .running x) (o : Outcome)
    (hmanifest : s'.manifest = (settle cfg now x o s).manifest) (hresult : s'.result = (settle cfg now x o s).result) :
    ∃ x' o' c, some (x, o) = some (x', o') ∧ Settles cfg now s x' o' c s' := by
  obtain ⟨c, hc, happlied⟩ := @applied_settle cfg now s h.graph x hx o
  exact ⟨x, o, c, rfl, hc, happlied.of_same hmanifest hresult, hsource⟩

lemma nodup_snoc {l : List String} {x : String} (h : l.Nodup) (hx : x ∉ l) : (l ++ [x]).Nodup := by
  rw [← List.concat_eq_append]
  exact List.Nodup.concat hx h

/-- **What a step does.** -/
theorem next_effect (h : Sound s) (hstep : next cfg s now a = some s') :
    (∃ x o c, settled s a = some (x, o) ∧ Settles cfg now s x o c s') ∨
      settled s a = none ∧ Unsettled cfg now s s' := by
  have hplaced := h.placed
  unfold Placed at hplaced
  cases a with
  | repoll poll =>
      simp only [next] at hstep
      split at hstep
      · rename_i x rest hstage
        rw [hstage] at hplaced
        have hx := hplaced.2 x List.mem_cons_self
        have hstarting : s.starting := by rw [State.starting, hstage]; trivial
        simp only [settled, hstage]
        cases houtcome : poll.outcome with
        | none =>
            rw [houtcome] at hstep
            cases hstep
            exact .inr ⟨rfl, .still rfl rfl⟩
        | some o =>
            rw [houtcome] at hstep
            cases hstep
            exact .inl (settles_of h hx (.inl hstarting) o rfl rfl)
      · cases hstep
  | repolled =>
      simp only [next] at hstep
      split at hstep <;> cases hstep
      exact .inr ⟨rfl, .still rfl rfl⟩
  | decide decision =>
      simp only [next] at hstep
      split at hstep
      · rename_i x rest hstage
        rw [hstage] at hplaced
        have hx := hplaced.2 x List.mem_cons_self
        have hstarting : s.starting := by rw [State.starting, hstage]; trivial
        simp only [settled, hstage]
        cases houtcome : decision.outcome with
        | none =>
            rw [houtcome] at hstep
            cases hstep
            exact .inr ⟨rfl, .still rfl rfl⟩
        | some o =>
            rw [houtcome] at hstep
            cases hstep
            exact .inl (settles_of h hx (.inl hstarting) o rfl rfl)
      · cases hstep
  | decided =>
      simp only [next] at hstep
      split at hstep <;> cases hstep
      exact .inr ⟨rfl, .still rfl rfl⟩
  | ready =>
      simp only [next] at hstep
      split at hstep <;> cases hstep
      exact .inr ⟨rfl, .still rfl rfl⟩
  | refuse error phase check =>
      simp only [next] at hstep
      split at hstep <;> cases hstep
      rename_i x rest transitioned hstage
      rw [hstage] at hplaced
      have hx := hplaced.2 x List.mem_cons_self
      simp only [settled, hstage]
      exact .inl (settles_of h hx.mem_ids (.inr (.inl hx)) (.fail error phase check) rfl rfl)
  | start =>
      simp only [next] at hstep
      split at hstep <;> cases hstep
      rename_i x rest transitioned hstage
      rw [hstage] at hplaced
      exact .inr ⟨rfl, .start x (hplaced.2 x List.mem_cons_self) rfl rfl⟩
  | settleEarly outcome =>
      simp only [next] at hstep
      split at hstep <;> cases hstep
      rename_i x rest transitioned hstage
      rw [hstage] at hplaced
      simp only [settled, hstage]
      exact .inl (settles_of h hplaced.1.mem_ids (.inr (.inr hplaced.1)) outcome rfl rfl)
  | submit =>
      simp only [next] at hstep
      split at hstep <;> cases hstep
      rename_i x rest transitioned hstage
      exact .inr ⟨rfl, .submit x rfl rfl⟩
  | filled =>
      simp only [next] at hstep
      split at hstep
      · split_ifs at hstep <;> cases hstep <;> exact .inr ⟨rfl, .still rfl rfl⟩
      · cases hstep
  | collect x outcome =>
      simp only [next] at hstep
      split at hstep
      · split_ifs at hstep with hx
        cases hstep
        have hruns := h.runs x hx
        exact .inl (settles_of h hruns.mem_ids (.inr (.inr hruns)) outcome rfl rfl)
      · cases hstep
  | expire x =>
      simp only [next] at hstep
      split at hstep
      all_goals first
        | cases hstep
        | split_ifs at hstep with hx
          cases hstep
          have hruns := h.runs x hx
          exact .inl (settles_of h hruns.mem_ids (.inr (.inr hruns)) _ rfl rfl)
  | expired =>
      simp only [next] at hstep
      split at hstep <;> cases hstep
      exact .inr ⟨rfl, .still rfl rfl⟩
  | stop =>
      simp only [next] at hstep
      split at hstep <;> cases hstep <;> exact .inr ⟨rfl, .still rfl rfl⟩
  | abort x reason =>
      simp only [next] at hstep
      split at hstep
      · split_ifs at hstep with hx
        cases hstep
        have hruns := h.runs x hx
        exact .inl (settles_of h hruns.mem_ids (.inr (.inr hruns)) _ rfl rfl)
      · cases hstep
  | aborted =>
      simp only [next] at hstep
      split at hstep
      · split_ifs at hstep
        cases hstep
        exact .inr ⟨rfl, .still rfl rfl⟩
      · cases hstep
  | contract w baseSha =>
      simp only [next] at hstep
      split at hstep
      · rename_i hstage
        rw [hstage] at hplaced
        exact .inr ⟨rfl, .contract w baseSha hplaced (Option.some.inj hstep).symm⟩
      · cases hstep
  | skipContract =>
      simp only [next] at hstep
      split at hstep <;> cases hstep
      exact .inr ⟨rfl, .still rfl rfl⟩

end Next

/-! ## Contract rounds -/

/-- A breaker that goes back. -/
def retryBreaker (error : String) (c : Component) : Component :=
  { c with status := .pending, retries := c.retries + 1, error := error }

/-- A completed breaker with a retry left goes back to `PENDING`. -/
structure Resets (cfg : RunConfig) (s s' : State) (id : String) (c : Component) (error : String) : Prop where
  found : s.manifest.getComponent id = some c
  completed : c.status = .completed
  left : c.retries < cfg.maxRetries
  manifest : s'.manifest = s.manifest.update id (retryBreaker error)
  result : s'.result = { s.result with completed := s.result.completed.erase id }
  running : s'.running = s.running

/-- A completed breaker fails. -/
structure Records (now : String) (s s' : State) (id : String) (c : Component) (error check : String) : Prop where
  found : s.manifest.getComponent id = some c
  completed : c.status = .completed
  manifest : s'.manifest = s.manifest.update id (failAs now error "contract" check)
  result : s'.result = { s.result with
    completed := s.result.completed.erase id
    failed := if id ∈ s.result.failed then s.result.failed else s.result.failed ++ [id] }
  running : s'.running = s.running

def Reset (cfg : RunConfig) (s s' : State) : Prop := ∃ id c error, Resets cfg s s' id c error

def Record (now : String) (s s' : State) : Prop := ∃ id c error check, Records now s s' id c error check

section Contract

variable {cfg : RunConfig} {now : String} {s : State}

lemma HasStatus.update_of_ne {f : Component → Component} (hf : ∀ c, (f c).id = c.id) {status : ComponentStatus}
    {x y : String} (h : HasStatus m status y) (hne : y ≠ x) : HasStatus (m.update x f) status y := by
  obtain ⟨c, hc, hstatus⟩ := h
  exact ⟨c, by rw [Manifest.getComponent_update hf, if_neg hne, hc], hstatus⟩

/-- One breaker of the first loop. -/
lemma resetBreaker_cases {r : ContractResult} (hcompleted : ∀ id ∈ breakerOf r, HasStatus s.manifest .completed id) (b : Bool) :
    resetBreaker cfg (s, b) r = (s, b) ∨
      ∃ s' id c error, breakerOf r = some id ∧ resetBreaker cfg (s, b) r = (s', true) ∧ Resets cfg s s' id c error := by
  unfold resetBreaker
  cases hbreaker : breakerOf r with
  | none => exact .inl rfl
  | some id =>
      obtain ⟨c, hc, hstatus⟩ := hcompleted id hbreaker
      dsimp only
      rw [hc]
      dsimp only
      split_ifs with hleft
      · exact .inr ⟨_, id, c, _, rfl, rfl, hc, hstatus, hleft.1, rfl, rfl, rfl⟩
      · exact .inl rfl

/-- **The first loop** resets breakers, or leaves the run as it is. -/
lemma foldl_resetBreaker (failures : List ContractResult) (hnodup : (failures.filterMap breakerOf).Nodup)
    (hcompleted : ∀ id ∈ failures.filterMap breakerOf, HasStatus s.manifest .completed id) (b : Bool) :
    (failures.foldl (resetBreaker cfg) (s, b) = (s, b)) ∨
      ∃ s', failures.foldl (resetBreaker cfg) (s, b) = (s', true) ∧ TransGen (Reset cfg) s s' := by
  induction failures generalizing s b with
  | nil => exact .inl rfl
  | cons r rest ih =>
      rw [List.foldl_cons]
      have hr : ∀ id ∈ breakerOf r, HasStatus s.manifest .completed id := fun id hid =>
        hcompleted id (List.mem_filterMap.mpr ⟨r, List.mem_cons_self, hid⟩)
      have hrest : (rest.filterMap breakerOf).Nodup := hnodup.sublist ((List.sublist_cons_self r rest).filterMap _)
      have hlater : ∀ id ∈ rest.filterMap breakerOf, HasStatus s.manifest .completed id := fun id hid =>
        hcompleted id (((List.sublist_cons_self r rest).filterMap _).subset hid)
      rcases @resetBreaker_cases cfg s r hr b with hsame | ⟨s', id, c, error, hbreaker, hone, hreset⟩
      · rw [hsame]
        exact ih hrest hlater b
      · rw [hone]
        have hkept : ∀ id' ∈ rest.filterMap breakerOf, HasStatus s'.manifest .completed id' := by
          intro id' hid'
          rw [hreset.manifest]
          refine (hlater id' hid').update_of_ne (f := retryBreaker error) (fun _ => rfl) ?_
          rintro rfl
          rw [List.filterMap_cons_some hbreaker] at hnodup
          exact (List.nodup_cons.mp hnodup).1 hid'
        have hfirst : TransGen (Reset cfg) s s' := .single ⟨id, c, error, hreset⟩
        rcases ih hrest hkept true with hend | ⟨s'', hend, hmore⟩
        · exact .inr ⟨s', hend, hfirst⟩
        · exact .inr ⟨s'', hend, hfirst.trans hmore⟩

/-- **The second loop** fails breakers. -/
lemma foldl_recordFailure (failures : List ContractResult) (hnodup : (failures.filterMap breakerOf).Nodup)
    (hcompleted : ∀ id ∈ failures.filterMap breakerOf, HasStatus s.manifest .completed id) :
    ReflTransGen (Record now) s (failures.foldl (recordFailure now) s) := by
  induction failures generalizing s with
  | nil => exact .refl
  | cons r rest ih =>
      rw [List.foldl_cons]
      cases hbreaker : breakerOf r with
      | none =>
          rw [List.filterMap_cons_none hbreaker] at hnodup hcompleted
          have hsame : recordFailure now s r = s := by rw [recordFailure, hbreaker]
          rw [hsame]
          exact ih hnodup hcompleted
      | some id =>
          rw [List.filterMap_cons_some hbreaker] at hnodup hcompleted
          obtain ⟨hnot, hrest⟩ := List.nodup_cons.mp hnodup
          obtain ⟨c, hc, hstatus⟩ := hcompleted id List.mem_cons_self
          have hrecord : ∃ error check, Records now s (recordFailure now s r) id c error check := by
            rw [recordFailure, hbreaker]
            exact ⟨_, _, hc, hstatus, rfl, rfl, rfl⟩
          obtain ⟨error, check, hrecord⟩ := hrecord
          refine .head ⟨id, c, error, check, hrecord⟩ (ih hrest fun id' hid' => ?_)
          rw [hrecord.manifest]
          refine (hcompleted id' (List.mem_cons_of_mem _ hid')).update_of_ne (f := failAs now error "contract" check)
            (fun _ => rfl) ?_
          rintro rfl
          exact hnot hid'

lemma hasStatus_of_mem_completedIds (hn : m.ids.Nodup) {id : String} (h : id ∈ completedIds m) :
    HasStatus m .completed id := by
  obtain ⟨c, hc, rfl⟩ := List.mem_map.mp h
  obtain ⟨hc, hstatus⟩ := List.mem_filter.mp hc
  exact ⟨c, Manifest.getComponent_id hn hc, of_decide_eq_true hstatus⟩

/-- **A contract round** sends breakers back and schedules again, or it fails breakers and ends the loop. -/
theorem contractRound_spec (hn : s.manifest.ids.Nodup) (w : Phase3) (baseSha : String) :
    (∃ s', TransGen (Reset cfg) s s' ∧ contractRound cfg now w baseSha s = { s' with stage := .top }) ∨
      ∃ s', ReflTransGen (Record now) s s' ∧ contractRound cfg now w baseSha s = { s' with stage := .ended } := by
  unfold contractRound
  cases hrun : runContractTesting w s.manifest cfg.contractMode cfg.componentsMerged baseSha with
  | error _ => exact .inr ⟨s, .refl, rfl⟩
  | ok results =>
      dsimp only
      obtain ⟨hnodup, hmem⟩ := contract_breakers hrun
      set failures := results.filter fun r => !r.passed with hfailures
      have hsub : (failures.filterMap breakerOf).Sublist (results.filterMap (·.breaker)) := by
        have hfilter : failures.filterMap breakerOf = (failures.filterMap (·.breaker)).filter fun id => id ≠ "" := by
          rw [List.filter_filterMap]
          rfl
        rw [hfilter]
        exact List.filter_sublist.trans (List.filter_sublist.filterMap _)
      have hcompleted : ∀ id ∈ failures.filterMap breakerOf, HasStatus s.manifest .completed id := fun id hid =>
        hasStatus_of_mem_completedIds hn (hmem id (hsub.subset hid))
      rcases @foldl_resetBreaker cfg s failures (hnodup.sublist hsub) hcompleted false with hsame | ⟨s', hreset, hsteps⟩
      · rw [hsame]
        exact .inr ⟨_, foldl_recordFailure failures (hnodup.sublist hsub) hcompleted, rfl⟩
      · rw [hreset]
        exact .inl ⟨s', hsteps, rfl⟩

end Contract

/-! ## The invariant is kept -/

section Kept

variable {cfg : RunConfig} {now : String} {s s' : State} {a : Action}

lemma graph_settle (hm : s.manifest.WellFormedGraph) (x : String) (o : Outcome) :
    (settle cfg now x o s).manifest.WellFormedGraph ∧ (settle cfg now x o s).manifest.ids = s.manifest.ids := by
  cases hc : s.manifest.getComponent x with
  | none =>
      have hsame : settle cfg now x o s = s := by rw [settle, hc]
      rw [hsame]
      exact ⟨hm, rfl⟩
  | some c =>
      obtain ⟨_, -, happlied⟩ := @applied_settle cfg now s hm x (Manifest.mem_ids_of_getComponent hc) o
      exact ⟨happlied.graph hm, happlied.ids⟩

lemma stands_settle (hm : s.manifest.WellFormedGraph) {x y : String} {status status' : ComponentStatus}
    (hx : Stands s.manifest status x) (hopen : status ≠ .completed) (o : Outcome)
    (hy : Stands s.manifest status' y) (hne : y ≠ x) : Stands (settle cfg now x o s).manifest status' y := by
  obtain ⟨_, -, happlied⟩ := @applied_settle cfg now s hm x hx.mem_ids o
  exact happlied.stands hm.unique hy hne hx.hasStatus hopen

/-- A component whose status is changed, and that was not completed. -/
lemma stands_update {f : Component → Component} (hf : ∀ c, (f c).id = c.id) (hdeps : ∀ c, (f c).dependencies = c.dependencies)
    {status status' : ComponentStatus} (hstatus : ∀ c, (f c).status = status') {x : String} (hx : Stands m status x)
    (hopen : status ≠ .completed) :
    Stands (m.update x f) status' x ∧
      ∀ {y st}, Stands m st y → y ≠ x → Stands (m.update x f) st y := by
  have hkept : ∀ {dep}, HasStatus m .completed dep → HasStatus (m.update x f) .completed dep := by
    intro dep hdep
    refine hdep.update_of_ne hf ?_
    rintro rfl
    exact hopen (hx.hasStatus.unique hdep)
  constructor
  · obtain ⟨c, hc, -, hcdeps⟩ := hx
    refine ⟨f c, by rw [Manifest.getComponent_update hf, if_pos rfl, hc, Option.map_some], hstatus c, fun dep hdep => ?_⟩
    exact hkept (hcdeps dep (hdeps c ▸ hdep))
  · intro y st hy hne
    obtain ⟨d, hd, hst, hddeps⟩ := hy
    exact ⟨d, by rw [Manifest.getComponent_update hf, if_neg hne, hd], hst, fun dep hdep => hkept (hddeps dep hdep)⟩

/-- The components that are read as ready. -/
lemma stands_ready (hn : m.ids.Nodup) (k : ℕ) :
    ((m.getReadyComponents.take k).map fun c => c.id).Nodup ∧
      ∀ x ∈ (m.getReadyComponents.take k).map fun c => c.id, Stands m .pending x := by
  have hsub : (m.getReadyComponents.take k).Sublist m.components :=
    (List.take_sublist _ _).trans List.filter_sublist
  refine ⟨hn.sublist (hsub.map _), fun x hx => ?_⟩
  obtain ⟨c, hc, rfl⟩ := List.mem_map.mp hx
  obtain ⟨hmem, hready⟩ := List.mem_filter.mp (List.mem_of_mem_take hc)
  obtain ⟨hstatus, hdeps⟩ := of_decide_eq_true hready
  refine ⟨c, Manifest.getComponent_id hn hmem, hstatus, fun dep hdep => ?_⟩
  obtain ⟨d, hd, rfl⟩ := List.mem_map.mp (hdeps dep hdep)
  obtain ⟨hd, hcompleted⟩ := List.mem_filter.mp hd
  exact ⟨d, Manifest.getComponent_id hn hd, of_decide_eq_true hcompleted⟩

lemma graph_update {f : Component → Component} (hf : ∀ c, (f c).id = c.id)
    (hdeps : ∀ c, (f c).dependencies = c.dependencies) (hm : m.WellFormedGraph) (x : String) :
    (m.update x f).WellFormedGraph := by
  rw [Manifest.update_eq_updateAll]
  exact hm.of_same (Manifest.ids_updateAll hf _) (Manifest.dependsOn_updateAll hf hdeps _)

lemma graph_reset (hm : s.manifest.WellFormedGraph) (h : TransGen (Reset cfg) s s') :
    s'.manifest.WellFormedGraph ∧ s'.running = s.running := by
  induction h with
  | single hreset =>
      obtain ⟨id, c, error, hreset⟩ := hreset
      exact ⟨hreset.manifest ▸ graph_update (f := retryBreaker error) (fun _ => rfl) (fun _ => rfl) hm id, hreset.running⟩
  | tail _ hreset ih =>
      obtain ⟨id, c, error, hreset⟩ := hreset
      exact ⟨hreset.manifest ▸ graph_update (f := retryBreaker error) (fun _ => rfl) (fun _ => rfl) ih.1 id,
        hreset.running.trans ih.2⟩

lemma graph_record (hm : s.manifest.WellFormedGraph) (h : ReflTransGen (Record now) s s') :
    s'.manifest.WellFormedGraph ∧ s'.running = s.running := by
  induction h with
  | refl => exact ⟨hm, rfl⟩
  | tail _ hrecord ih =>
      obtain ⟨id, c, error, check, hrecord⟩ := hrecord
      exact ⟨hrecord.manifest ▸ graph_update (f := failAs now error "contract" check) (fun _ => rfl) (fun _ => rfl) ih.1 id,
        hrecord.running.trans ih.2⟩

/-- A component that runs is settled. -/
lemma sound_settle_running (h : Sound s) {x : String} (hx : x ∈ s.running) (o : Outcome) {stage : Stage}
    (hstage : stage = .top ∨ stage = .expiring ∨ stage = .aborting) :
    Sound { settle cfg now x o s with running := s.running.erase x, stage := stage } where
  graph := (graph_settle h.graph x o).1
  once := h.once.erase x
  runs y hy := by
    obtain ⟨hne, hmem⟩ := (h.once.mem_erase_iff).mp hy
    exact stands_settle h.graph (h.runs x hx) (by decide) o (h.runs y hmem) hne
  placed := by rcases hstage with rfl | rfl | rfl <;> trivial

/-- A component that is about to run is settled. -/
lemma sound_settle_next (h : Sound s) {x : String} {rest : List String} {status : ComponentStatus}
    (hx : Stands s.manifest status x) (hopen : status ≠ .completed) (hnot : x ∉ s.running) (hrest : rest.Nodup)
    (hstands : ∀ y ∈ rest, Stands s.manifest .pending y) (hfresh : x ∉ rest) (o : Outcome) (transitioned : Bool) :
    Sound { settle cfg now x o s with stage := .filling rest transitioned } where
  graph := (graph_settle h.graph x o).1
  once := by
    show (settle cfg now x o s).running.Nodup
    rw [settle_running]
    exact h.once
  runs y hy := by
    have hy : y ∈ s.running := by
      have hmem : y ∈ (settle cfg now x o s).running := hy
      rwa [settle_running] at hmem
    exact stands_settle h.graph hx hopen o (h.runs y hy) fun hsame => hnot (hsame ▸ hy)
  placed := ⟨hrest, fun y hy => stands_settle h.graph hx hopen o (hstands y hy) fun hsame => hfresh (hsame ▸ hy)⟩

/-- A parked component is decided. -/
lemma sound_decide (h : Sound s) (hidle : s.running = []) {rest : List String} (hrest : ∀ y ∈ rest, y ∈ s.manifest.ids)
    (x : String) (o : Option Outcome) {stage : Stage} (hstage : stage = .repolling rest ∨ stage = .deciding rest) :
    Sound { (match o with
      | none => s
      | some o => settle cfg now x o s) with stage := stage } := by
  cases o with
  | none =>
      refine ⟨h.graph, h.once, h.runs, ?_⟩
      rcases hstage with rfl | rfl <;> exact ⟨hidle, hrest⟩
  | some o =>
      have hgraph := @graph_settle cfg now s h.graph x o
      have hrunning : (settle cfg now x o s).running = [] := (settle_running x o).trans hidle
      refine ⟨hgraph.1, ?_, fun y hy => ?_, ?_⟩
      · exact hrunning ▸ List.nodup_nil
      · have hmem : y ∈ (settle cfg now x o s).running := hy
        rw [hrunning] at hmem
        cases hmem
      · have hids : ∀ y ∈ rest, y ∈ (settle cfg now x o s).manifest.ids := fun y hy => hgraph.2 ▸ hrest y hy
        rcases hstage with rfl | rfl <;> exact ⟨hrunning, hids⟩

lemma mem_ids_of_idsIn {status : ComponentStatus} {x : String} (h : x ∈ idsIn m status) : x ∈ m.ids := by
  obtain ⟨c, hc, rfl⟩ := List.mem_map.mp h
  exact List.mem_map_of_mem (List.mem_filter.mp hc).1

/-- **The invariant is kept by every step.** -/
theorem sound_next (h : Sound s) (hstep : next cfg s now a = some s') : Sound s' := by
  have hplaced := h.placed
  unfold Placed at hplaced
  have hsame : ∀ {stage : Stage}, Placed { s with stage := stage } → Sound { s with stage := stage } :=
    fun hstage => ⟨h.graph, h.once, h.runs, hstage⟩
  cases a with
  | repoll poll =>
      simp only [next] at hstep
      split at hstep <;> cases hstep
      rename_i x rest hstage
      rw [hstage] at hplaced
      exact sound_decide h hplaced.1 (fun y hy => hplaced.2 y (List.mem_cons_of_mem _ hy)) x poll.outcome (.inl rfl)
  | repolled =>
      simp only [next] at hstep
      split at hstep <;> cases hstep
      rename_i hstage
      rw [hstage] at hplaced
      exact hsame ⟨hplaced.1, fun x hx => mem_ids_of_idsIn hx⟩
  | decide decision =>
      simp only [next] at hstep
      split at hstep <;> cases hstep
      rename_i x rest hstage
      rw [hstage] at hplaced
      exact sound_decide h hplaced.1 (fun y hy => hplaced.2 y (List.mem_cons_of_mem _ hy)) x decision.outcome (.inr rfl)
  | decided =>
      simp only [next] at hstep
      split at hstep <;> cases hstep
      exact hsame trivial
  | ready =>
      simp only [next] at hstep
      split at hstep <;> cases hstep
      exact hsame (stands_ready h.graph.unique _)
  | refuse error phase check =>
      simp only [next] at hstep
      split at hstep <;> cases hstep
      rename_i x rest transitioned hstage
      rw [hstage] at hplaced
      obtain ⟨hnodup, hstands⟩ := hplaced
      obtain ⟨hfresh, hrest⟩ := List.nodup_cons.mp hnodup
      have hx := hstands x List.mem_cons_self
      refine sound_settle_next h hx (by decide) (fun hmem => ?_) hrest
        (fun y hy => hstands y (List.mem_cons_of_mem _ hy)) hfresh _ true
      exact absurd (hx.hasStatus.unique (h.runs x hmem).hasStatus) (by decide)
  | start =>
      simp only [next] at hstep
      split at hstep <;> cases hstep
      rename_i x rest transitioned hstage
      rw [hstage] at hplaced
      obtain ⟨hnodup, hstands⟩ := hplaced
      obtain ⟨hfresh, hrest⟩ := List.nodup_cons.mp hnodup
      have hx := hstands x List.mem_cons_self
      have hnot : x ∉ s.running := fun hmem =>
        absurd (hx.hasStatus.unique (h.runs x hmem).hasStatus) (by decide)
      have hruns : ∀ c, (beginAttempt c).status = .running := fun _ => rfl
      obtain ⟨hself, hothers⟩ := stands_update (f := beginAttempt) (fun _ => rfl) (fun _ => rfl) hruns hx (by decide)
      refine ⟨graph_update (f := beginAttempt) (fun _ => rfl) (fun _ => rfl) h.graph x, h.once, fun y hy => ?_, hself, hnot, hrest, fun y hy => ?_⟩
      · exact hothers (h.runs y hy) fun hsame => hnot (hsame ▸ hy)
      · exact hothers (hstands y (List.mem_cons_of_mem _ hy)) fun hsame => hfresh (hsame ▸ hy)
  | settleEarly outcome =>
      simp only [next] at hstep
      split at hstep <;> cases hstep
      rename_i x rest transitioned hstage
      rw [hstage] at hplaced
      obtain ⟨hx, hnot, hrest, hstands⟩ := hplaced
      refine sound_settle_next h hx (by decide) hnot hrest hstands (fun hmem => ?_) outcome true
      exact absurd (hx.hasStatus.unique (hstands x hmem).hasStatus) (by decide)
  | submit =>
      simp only [next] at hstep
      split at hstep <;> cases hstep
      rename_i x rest transitioned hstage
      rw [hstage] at hplaced
      obtain ⟨hx, hnot, hrest, hstands⟩ := hplaced
      refine ⟨h.graph, nodup_snoc h.once hnot, fun y hy => ?_, hrest, hstands⟩
      rcases List.mem_append.mp hy with hy | hy
      · exact h.runs y hy
      · rw [List.mem_singleton.mp hy]
        exact hx
  | filled =>
      simp only [next] at hstep
      split at hstep
      · split_ifs at hstep with hrunning htransitioned <;> cases hstep
        · exact hsame trivial
        · exact hsame trivial
        · exact hsame (not_not.mp hrunning)
      · cases hstep
  | collect x outcome =>
      simp only [next] at hstep
      split at hstep
      · split_ifs at hstep with hx
        cases hstep
        exact sound_settle_running h hx outcome (.inl rfl)
      · cases hstep
  | expire x =>
      simp only [next] at hstep
      split at hstep
      · split_ifs at hstep with hx
        cases hstep
        exact sound_settle_running h hx _ (.inr (.inl rfl))
      · split_ifs at hstep with hx
        cases hstep
        exact sound_settle_running h hx _ (.inr (.inl rfl))
      · cases hstep
  | expired =>
      simp only [next] at hstep
      split at hstep <;> cases hstep
      exact hsame trivial
  | stop =>
      simp only [next] at hstep
      split at hstep <;> cases hstep <;> exact hsame trivial
  | abort x reason =>
      simp only [next] at hstep
      split at hstep
      · split_ifs at hstep with hx
        cases hstep
        exact sound_settle_running h hx _ (.inr (.inr rfl))
      · cases hstep
  | aborted =>
      simp only [next] at hstep
      split at hstep
      · split_ifs at hstep
        cases hstep
        exact hsame trivial
      · cases hstep
  | contract w baseSha =>
      simp only [next] at hstep
      split at hstep
      · rename_i hstage
        rw [hstage] at hplaced
        cases hstep
        rcases @contractRound_spec cfg now s h.graph.unique w baseSha with
          ⟨s₁, hreset, hround⟩ | ⟨s₁, hrecord, hround⟩
        · obtain ⟨hgraph, hrunning⟩ := graph_reset h.graph hreset
          rw [hround]
          refine ⟨hgraph, hrunning ▸ h.once, fun y hy => ?_, trivial⟩
          have hmem : y ∈ s₁.running := hy
          rw [hrunning, hplaced] at hmem
          cases hmem
        · obtain ⟨hgraph, hrunning⟩ := graph_record h.graph hrecord
          rw [hround]
          refine ⟨hgraph, hrunning ▸ h.once, fun y hy => ?_, trivial⟩
          have hmem : y ∈ s₁.running := hy
          rw [hrunning, hplaced] at hmem
          cases hmem
      · cases hstep
  | skipContract =>
      simp only [next] at hstep
      split at hstep <;> cases hstep
      exact hsame trivial

/-- The start of a run over a valid graph. -/
lemma sound_init (hm : m.WellFormedGraph) : Sound (init m) where
  graph := by
    have hf : ∀ c : Component, ({ c with status := .pending } : Component).id = c.id := fun _ => rfl
    exact hm.of_same (Manifest.ids_updateAll hf _) (Manifest.dependsOn_updateAll hf (fun _ => rfl) _)
  once := List.nodup_nil
  runs _ hx := by cases hx
  placed := ⟨rfl, fun _ hx => mem_ids_of_idsIn hx⟩

end Kept

end Rounds

end Factory

end Kstrl
