import Kstrl.Learning.Transitions

/-!
# Policy violations over a chain of factory runs

The automatic demotion at the end of a run (`_record_autonomy_outcome` of `kstrl/factory/factory_autonomy.py`)
over the runs of one manifest: `_resume_manifest` (`kstrl/factory/factory_run.py`), `begin_attempt` and
`_add_findings` (`kstrl/pipeline/pipeline_attempt.py`), `ks retry` (`Manifest.resetForRetry`), and runs that die
anywhere.

What the pipeline else makes of the manifest is left open, but for the findings.  The control state can be
changed by anyone at any time.  Attempts are numbered as they begin, over all runs.

* **`Chain.next`** is the system.
* **`counted_once_iff`**: the runs in which each attempt counts for one policy demotion at most are those in
  which no run above L1 ends with a violation that was recorded before the last policy demotion.
* `stale_violation_demotes` is a chain in which one violation demotes twice.
-/

namespace Kstrl

namespace Learning

open Runs

/-! ## Attempts -/

/-- `ATTEMPT_TAG_PREFIX`. -/
def attemptTagPrefix : String := "attempt:"

/-- `tag_finding_with_attempt`. -/
def tagFindingWithAttempt (attempt : ℤ) (f : Finding) : Finding :=
  if f.tags.any fun tag => attemptTagPrefix.toList.isPrefixOf tag.toList then f
  else { f with tags := f.tags ++ [attemptTagPrefix ++ toString attempt] }

/-- `_add_findings`. -/
def addFindings (newFindings : List Finding) (c : Component) : Component :=
  { c with findings := c.findings ++ newFindings.map (tagFindingWithAttempt (c.retries + 1)) }

/-- `begin_attempt`. -/
def beginAttempt (now : String) (journalOffset : ℤ) (c : Component) : Component :=
  { c with
    findings := []
    reviewFindings := ""
    failedPhase := ""
    failedCheck := ""
    completedAt := ""
    evidenceWorktree := ""
    evidenceDebugDir := ""
    journalOffsetStart := journalOffset
    journalOffsetEnd := -1
    status := .running
    startedAt := now }

/-- Crash recovery of `_resume_manifest`. -/
def resumeComponent (c : Component) : Component :=
  if c.status = .running ∨ c.status = .verifying then { c with status := .pending } else c

/-- A finding that blocks, of the policy. -/
def isViolation (f : Finding) : Bool :=
  Owner.policyCategoryPrefix.toList.isPrefixOf f.category.toList && f.severity ≠ "advisory"

/-- The components of a manifest with a policy finding. -/
def policyViolations (m : Manifest) : List String :=
  (m.components.filter fun c => c.findings.any isViolation).map (·.id)

/-! ## The system -/

/-- A copy of the manifest, with the number of the attempt that recorded the findings of a component. -/
structure Copy where
  manifest : Manifest
  attempt : String → ℕ

inductive Stage where
  | idle
  /-- a run holds the manifest; the components it has begun an attempt of -/
  | running (held : Copy) (begun : List String)
  /-- its outcome is folded into the ladder -/
  | closing (held : Copy) (p : Process)

/-- The runs over one manifest, one after another. -/
structure Chain where
  disk : Copy
  stage : Stage
  file : LadderFile
  /-- the attempts begun so far -/
  attempts : ℕ
  /-- the policy demotions so far: the components each one counts, with the attempts that recorded their findings -/
  demotions : List (List (String × ℕ))
  /-- the attempts begun before the last of them -/
  lastDemotion : ℕ

/-- What a save demotes for. -/
def Process.counted (attempt : String → ℕ) (now : String) : Process → Option (List (String × ℕ))
  | .recording e state =>
      if e.violations ≠ [] ∧ ((state.recordEvidence e).demoteOnce now e).1.isSome then
        some (e.violations.map fun componentId => (componentId, attempt componentId))
      else none
  | _ => none

namespace Chain

/-- A manifest, with findings of attempts before the first run. -/
def init (m : Manifest) (file : LadderFile) : Chain where
  disk := { manifest := m, attempt := fun _ => 1 }
  stage := .idle
  file := file
  attempts := 1
  demotions := []
  lastDemotion := 0

inductive Action where
  | start (runId version policyHash : String)
  | begin (componentId now : String) (journalOffset : ℤ)
  | record (componentId : String) (findings : List Finding)
  /-- anything else the pipeline, or a command between two runs, makes of the manifest -/
  | progress (m : Manifest)
  | save
  /-- the run ends; with no ladder there is no outcome to fold -/
  | finish (now : String) (outcome : Option RunEnd)
  | fold (now : String)
  | crash
  | retry (componentId : String)
  /-- another process writes the control state -/
  | ladder (file : LadderFile)

/-- The ids and the findings are the same. -/
def SameFindings (m m' : Manifest) : Prop :=
  m'.components.map (fun c => (c.id, c.findings)) = m.components.map fun c => (c.id, c.findings)

instance (m m' : Manifest) : Decidable (SameFindings m m') := inferInstanceAs (Decidable (_ = _))

section

variable (w : Chain)

/-- `_resume_manifest`, and what `_start_manifest` saves. -/
def start (runId version policyHash : String) : Chain :=
  let m : Manifest :=
    { w.disk.manifest with
      components := w.disk.manifest.components.map resumeComponent
      runId := runId
      kstrlVersion := version
      completedAt := ""
      policyHash := policyHash }
  { w with disk := { w.disk with manifest := m }, stage := .running { w.disk with manifest := m } [] }

/-- An attempt begins. -/
def beginAttempt (held : Copy) (begun : List String) (componentId now : String) (journalOffset : ℤ) : Chain :=
  let held : Copy :=
    { manifest := held.manifest.update componentId (Learning.beginAttempt now journalOffset)
      attempt := Function.update held.attempt componentId (w.attempts + 1) }
  { w with stage := .running held (begun ++ [componentId]), attempts := w.attempts + 1 }

/-- The summary saves the manifest, and the ladder state is loaded. -/
def finish (path : String) (held : Copy) (now : String) (outcome : Option RunEnd) : Chain :=
  let held : Copy := { held with manifest := { held.manifest with completedAt := now } }
  { w with
    disk := held
    stage :=
      match outcome with
      | none => .idle
      | some e => .closing held (.recording { e with manifest := held.manifest } (.load path now w.file)) }

/-- To the next save of the ladder state. -/
def fold (held : Copy) (p : Process) (now : String) : Chain :=
  let effect := p.effect now
  { w with
    file := (effect.saved.map fun state => state.save w.file).getD w.file
    stage := if effect.next.state?.isSome then .closing held effect.next else .idle
    demotions := w.demotions ++ (p.counted held.attempt now).toList
    lastDemotion := if (p.counted held.attempt now).isSome then w.attempts else w.lastDemotion }

/-- One step; `none` where it is not the step's turn. -/
def next (path : String) (w : Chain) (a : Action) : Option Chain :=
  match w.stage, a with
  | .idle, .start runId version policyHash =>
      if w.disk.manifest.validateDag = [] then some (w.start runId version policyHash) else none
  | .idle, .progress m =>
      if SameFindings w.disk.manifest m then some { w with disk := { w.disk with manifest := m } } else none
  | .idle, .retry componentId =>
      match w.disk.manifest.resetForRetry componentId with
      | .ok (m, _) => some { w with disk := { w.disk with manifest := m } }
      | .error _ => none
  | .running held begun, .begin componentId now journalOffset =>
      some (w.beginAttempt held begun componentId now journalOffset)
  | .running held begun, .record componentId findings =>
      -- the mechanical checks judge an attempt in flight; no other finding is of the policy
      if componentId ∈ begun ∨ ¬findings.any isViolation then
        let held : Copy := { held with manifest := held.manifest.update componentId (addFindings findings) }
        some { w with stage := .running held begun }
      else none
  | .running held begun, .progress m =>
      if SameFindings held.manifest m then some { w with stage := .running { held with manifest := m } begun }
      else none
  | .running held _, .save => some { w with disk := held }
  | .running held _, .finish now outcome => some (w.finish path held now outcome)
  | .closing held p, .fold now => some (w.fold held p now)
  | _, .crash => some { w with stage := .idle }
  | _, .ladder file => some { w with file := file }
  | _, _ => none

end

/-- The transition relation. -/
def Step (path : String) (w : Chain) (a : Action) (w' : Chain) : Prop := w.next path a = some w'

/-- Each attempt counts for one policy demotion at most. -/
def CountedOnce (w : Chain) : Prop := ∀ a : String × ℕ, w.demotions.countP (a ∈ ·) ≤ 1

/-- A run above L1 ends with no violation that was recorded before the last policy demotion. -/
def Fresh (w : Chain) : Action → Prop
  | .fold _ => ∀ held e state, w.stage = .closing held (.recording e state) → state.level ≠ .l1Supervised →
      ∀ componentId ∈ e.violations, w.lastDemotion < held.attempt componentId
  | _ => True

end Chain

/-! ## The violations of a manifest -/

@[simp] lemma isViolation_tagFindingWithAttempt (attempt : ℤ) (f : Finding) :
    isViolation (tagFindingWithAttempt attempt f) = isViolation f := by
  unfold tagFindingWithAttempt
  split <;> rfl

lemma mem_policyViolations {m : Manifest} {componentId : String} :
    componentId ∈ policyViolations m ↔
      ∃ p ∈ m.components.map fun c => (c.id, c.findings), p.1 = componentId ∧ p.2.any isViolation := by
  simp only [policyViolations, List.mem_map, List.mem_filter, exists_exists_and_eq_and]
  constructor
  · rintro ⟨c, ⟨hc, hany⟩, rfl⟩
    exact ⟨c, hc, rfl, hany⟩
  · rintro ⟨c, hc, rfl, hany⟩
    exact ⟨c, ⟨hc, hany⟩, rfl⟩

/-- The violations are read off the findings. -/
lemma Chain.SameFindings.policyViolations_subset {m m' : Manifest} (h : Chain.SameFindings m m') :
    policyViolations m' ⊆ policyViolations m := by
  intro componentId hid
  rw [mem_policyViolations, h] at hid
  exact mem_policyViolations.mpr hid

/-- Every component keeps its id, and gets no violation. -/
lemma policyViolations_map_subset {m m' : Manifest} {f : Component → Component}
    (hm : m'.components = m.components.map f) (hid : ∀ c ∈ m.components, (f c).id = c.id)
    (hf : ∀ c ∈ m.components, (f c).findings.any isViolation → c.findings.any isViolation) :
    policyViolations m' ⊆ policyViolations m := by
  intro componentId h
  simp only [policyViolations, hm, List.mem_map, List.mem_filter] at h ⊢
  obtain ⟨_, ⟨⟨c, hc, rfl⟩, hany⟩, rfl⟩ := h
  exact ⟨c, ⟨hc, hf c hc hany⟩, (hid c hc).symm⟩

/-- Only the component that changes can get a violation. -/
lemma mem_policyViolations_update {m : Manifest} {f : Component → Component} {changed componentId : String}
    (hf : ∀ c, (f c).id = c.id) (h : componentId ∈ policyViolations (m.update changed f)) :
    componentId = changed ∨ componentId ∈ policyViolations m := by
  simp only [policyViolations, Manifest.update, List.mem_map, List.mem_filter] at h ⊢
  obtain ⟨_, ⟨⟨c, hc, rfl⟩, hany⟩, rfl⟩ := h
  by_cases hchanged : c.id = changed
  · rw [if_pos hchanged, hf]
    exact .inl hchanged
  · rw [if_neg hchanged] at hany ⊢
    exact .inr ⟨c, ⟨hc, hany⟩, rfl⟩

lemma policyViolations_resetForRetry {m m' : Manifest} {componentId : String} {dependents : List String}
    (h : m.resetForRetry componentId = .ok (m', dependents)) : policyViolations m' ⊆ policyViolations m := by
  unfold Manifest.resetForRetry at h
  split at h
  · cases h
  · split at h
    · cases h
    · obtain ⟨order, -, h⟩ := Except.bind_eq_ok h
      cases h
      refine policyViolations_map_subset rfl (fun c _ => ?_) fun c _ => ?_
      · split <;> rfl
      · split
        · exact fun hany => by cases hany
        · exact id

lemma policyViolations_resume (m : Manifest) :
    policyViolations { m with components := m.components.map resumeComponent } ⊆ policyViolations m := by
  refine policyViolations_map_subset rfl (fun c _ => ?_) fun c _ => ?_
  · unfold resumeComponent
    split <;> rfl
  · unfold resumeComponent
    split <;> exact id

/-- Findings that are no violations. -/
lemma policyViolations_addFindings {m : Manifest} {componentId : String} {findings : List Finding}
    (h : ¬findings.any isViolation) :
    policyViolations (m.update componentId (addFindings findings)) ⊆ policyViolations m := by
  refine policyViolations_map_subset rfl (fun c _ => ?_) fun c _ hany => ?_
  · split <;> rfl
  · split at hany
    · rw [addFindings, List.any_append, List.any_map, Bool.or_eq_true] at hany
      refine hany.resolve_right fun hnew => h ?_
      simpa [Function.comp_def] using hnew
    · exact hany

/-! ## What a save demotes for -/

namespace Process

variable {p : Process} {e : RunEnd} {state : AutonomyState} {now : String} {attempt : String → ℕ}

/-- A demotion for a violation happens above L1. -/
lemma counted_recording :
    (recording e state).counted attempt now =
      if e.violations ≠ [] ∧ state.level ≠ .l1Supervised then
        some (e.violations.map fun componentId => (componentId, attempt componentId))
      else none := by
  refine if_congr (and_congr_right fun hviolations => ?_) rfl rfl
  have hsorted : e.violations.insertionSort (· ≤ ·) ≠ [] := fun hnil =>
    hviolations ((List.perm_insertionSort (· ≤ ·) e.violations).symm.trans (by rw [hnil])).eq_nil
  have hlevel : (state.recordEvidence e).level = state.level :=
    AutonomyLevel.value_injective AutonomyState.recordEvidence_extends.level
  rw [AutonomyState.demoteOnce, if_pos hsorted, AutonomyState.applyDemotion, AutonomyState.demote, hlevel]
  by_cases hl1 : state.level = .l1Supervised
  · simp [hl1]
  · simp [hl1]

lemma eq_recording_of_counted {counted : List (String × ℕ)} (h : p.counted attempt now = some counted) :
    ∃ e state, p = recording e state ∧ state.level ≠ .l1Supervised ∧
      counted = e.violations.map fun componentId => (componentId, attempt componentId) := by
  cases p with
  | recording e state =>
      rw [counted_recording] at h
      split_ifs at h with hcounted
      cases h
      exact ⟨e, state, rfl, hcounted.2, rfl⟩
  | _ => cases h

lemma ofCommand_next (committed : Option (Transition × AutonomyState)) :
    (Effect.ofCommand committed).next = ended := by
  cases committed <;> rfl

/-- A process does not go back to the evidence. -/
lemma next_ne_recording : (p.effect now).next ≠ recording e state := by
  intro hnext
  cases p with
  | promoting command state =>
      rw [effect, ofCommand_next] at hnext
      cases hnext
  | demoting trigger reason state =>
      rw [effect, ofCommand_next] at hnext
      cases hnext
  | recording e state => cases hnext
  | checkingHealth e state =>
      rw [effect] at hnext
      split_ifs at hnext
      cases hnext
  | ended => cases hnext

end Process

/-! ## One step -/

/-- The copy a run holds. -/
def Stage.held? : Stage → Option Copy
  | idle => none
  | running held _ | closing held _ => some held

namespace Chain

variable {path : String} {w w' : Chain} {a : Action}

/-- What a step is. -/
inductive Turn (path : String) (w : Chain) : Action → Chain → Prop where
  | start (runId version policyHash) (stage : w.stage = .idle) :
      Turn path w (.start runId version policyHash) (w.start runId version policyHash)
  /-- the findings between two runs do not get more -/
  | edit (a : Action) (m : Manifest) (stage : w.stage = .idle)
      (fewer : policyViolations m ⊆ policyViolations w.disk.manifest) :
      Turn path w a { w with disk := { w.disk with manifest := m } }
  | begin (held begun componentId now journalOffset) (stage : w.stage = .running held begun) :
      Turn path w (.begin componentId now journalOffset) (w.beginAttempt held begun componentId now journalOffset)
  | record (held begun componentId findings) (stage : w.stage = .running held begun) (inFlight : componentId ∈ begun) :
      Turn path w (.record componentId findings)
        { w with stage := .running
                   (Copy.mk (held.manifest.update componentId (addFindings findings)) held.attempt) begun }
  | progress (a : Action) (held begun) (m : Manifest) (stage : w.stage = .running held begun)
      (fewer : policyViolations m ⊆ policyViolations held.manifest) :
      Turn path w a { w with stage := .running { held with manifest := m } begun }
  | save (held begun) (stage : w.stage = .running held begun) : Turn path w .save { w with disk := held }
  | finish (held begun now outcome) (stage : w.stage = .running held begun) :
      Turn path w (.finish now outcome) (w.finish path held now outcome)
  | fold (held p now) (stage : w.stage = .closing held p) : Turn path w (.fold now) (w.fold held p now)
  | crash : Turn path w .crash { w with stage := .idle }
  | ladder (file) : Turn path w (.ladder file) { w with file := file }

/-- **Every step is one of these.** -/
lemma turn_of_step (h : Step path w a w') : Turn path w a w' := by
  unfold Step next at h
  split at h
  next runId version policyHash hstage =>
    split_ifs at h
    cases h
    exact .start _ _ _ hstage
  next m hstage =>
    split_ifs at h with hsame
    cases h
    exact .edit _ m hstage hsame.policyViolations_subset
  next componentId hstage =>
    split at h
    next m dependents hreset =>
      cases h
      exact .edit _ m hstage (policyViolations_resetForRetry hreset)
    · cases h
  next held begun componentId now journalOffset hstage =>
    cases h
    exact .begin held begun _ _ _ hstage
  next held begun componentId findings hstage =>
    dsimp only at h
    split_ifs at h with hrecord
    cases h
    by_cases hflight : componentId ∈ begun
    · exact .record held begun _ _ hstage hflight
    · exact .progress _ held begun _ hstage (policyViolations_addFindings (hrecord.resolve_left hflight))
  next held begun m hstage =>
    split_ifs at h with hsame
    cases h
    exact .progress _ held begun m hstage hsame.policyViolations_subset
  next held begun hstage =>
    cases h
    exact .save held begun hstage
  next held begun now outcome hstage =>
    cases h
    exact .finish held begun _ _ hstage
  next held p now hstage =>
    cases h
    exact .fold held p _ hstage
  · cases h
    exact .crash
  · cases h
    exact .ladder _
  · cases h

/-! ## The invariant -/

/-- The copies of the manifest. -/
def copies (w : Chain) : List Copy := w.disk :: w.stage.held?.toList

/-- A violation that was there at the last policy demotion has counted for one. -/
def HasCounted (w : Chain) (copy : Copy) : Prop :=
  ∀ componentId ∈ policyViolations copy.manifest, copy.attempt componentId ≤ w.lastDemotion →
    ∃ d ∈ w.demotions, (componentId, copy.attempt componentId) ∈ d

/-- **The invariant.** -/
structure Inv (w : Chain) : Prop where
  begun : ∀ copy ∈ w.copies, ∀ componentId, copy.attempt componentId ≤ w.attempts
  last : w.lastDemotion ≤ w.attempts
  demoted : ∀ d ∈ w.demotions, ∀ a ∈ d, a.2 ≤ w.lastDemotion
  counted : ∀ copy ∈ w.copies, w.HasCounted copy
  /-- there is no policy demotion in a run before it ends -/
  inFlight : ∀ held begun, w.stage = .running held begun →
    ∀ componentId ∈ begun, w.lastDemotion < held.attempt componentId
  /-- a run saves the manifest before its outcome is folded -/
  closing : ∀ held e state, w.stage = .closing held (.recording e state) → w.disk = held ∧ e.manifest = held.manifest

lemma disk_mem_copies (w : Chain) : w.disk ∈ w.copies := List.mem_cons_self

lemma held_mem_copies {held : Copy} (h : w.stage.held? = some held) : held ∈ w.copies := by
  rw [copies, h]
  exact List.mem_cons_of_mem _ (List.mem_singleton_self held)

lemma mem_copies {copy : Copy} (h : copy ∈ w.copies) : copy = w.disk ∨ w.stage.held? = some copy :=
  (List.mem_cons.mp h).imp_right Option.mem_toList.mp

lemma inv_init (m : Manifest) (file : LadderFile) : Inv (init m file) where
  begun copy hcopy componentId := by
    rw [List.mem_singleton.mp hcopy]
    exact le_refl 1
  last := zero_le_one
  demoted _ hd := by cases hd
  counted copy hcopy _ _ hle := by
    rw [List.mem_singleton.mp hcopy] at hle
    exact absurd hle (Nat.not_succ_le_zero 0)
  inFlight _ _ hstage := by cases hstage
  closing _ _ _ hstage := by cases hstage

/-- Fewer violations, and no more attempts. -/
lemma HasCounted.fewer {copy copy' : Copy} (h : w.HasCounted copy) (hattempt : copy'.attempt = copy.attempt)
    (hfewer : policyViolations copy'.manifest ⊆ policyViolations copy.manifest) : w.HasCounted copy' :=
  fun componentId hid hle => hattempt ▸ h componentId (hfewer hid) (hattempt ▸ hle)

/-- A copy that has what another one has. -/
def Covered (w : Chain) (copy' : Copy) : Prop :=
  ∃ copy ∈ w.copies, copy'.attempt = copy.attempt ∧ policyViolations copy'.manifest ⊆ policyViolations copy.manifest

lemma covered_of_mem {copy : Copy} (h : copy ∈ w.copies) : w.Covered copy := ⟨copy, h, rfl, fun _ => id⟩

/-- A step that begins no attempt and demotes for no policy violation. -/
lemma Inv.quiet (h : Inv w) (hattempts : w'.attempts = w.attempts) (hlast : w'.lastDemotion = w.lastDemotion)
    (hdemotions : w'.demotions = w.demotions) (hcopies : ∀ copy ∈ w'.copies, w.Covered copy)
    (hflight : ∀ held begun, w'.stage = .running held begun →
      ∀ componentId ∈ begun, w'.lastDemotion < held.attempt componentId)
    (hclosing : ∀ held e state, w'.stage = .closing held (.recording e state) →
      w'.disk = held ∧ e.manifest = held.manifest) : Inv w' where
  begun copy hcopy componentId := by
    obtain ⟨old, hold, hattempt, -⟩ := hcopies copy hcopy
    rw [hattempts, hattempt]
    exact h.begun old hold componentId
  last := by
    rw [hattempts, hlast]
    exact h.last
  demoted := by
    rw [hdemotions, hlast]
    exact h.demoted
  counted copy hcopy := by
    obtain ⟨old, hold, hattempt, hfewer⟩ := hcopies copy hcopy
    have hcounted := (h.counted old hold).fewer hattempt hfewer
    unfold HasCounted at hcounted ⊢
    rwa [hdemotions, hlast]
  inFlight := hflight
  closing := hclosing

/-- An attempt begins. -/
lemma inv_begin (h : Inv w) {held : Copy} {begun : List String} (hstage : w.stage = .running held begun)
    (componentId now : String) (journalOffset : ℤ) :
    Inv (w.beginAttempt held begun componentId now journalOffset) := by
  have hheld : held ∈ w.copies := held_mem_copies (by rw [hstage]; rfl)
  have hfresh : w.lastDemotion < w.attempts + 1 := Nat.lt_succ_of_le h.last
  have hcopies : ∀ copy ∈ (w.beginAttempt held begun componentId now journalOffset).copies, copy = w.disk ∨
      copy = { manifest := held.manifest.update componentId (Learning.beginAttempt now journalOffset)
               attempt := Function.update held.attempt componentId (w.attempts + 1) } := fun copy hcopy =>
    (mem_copies hcopy).imp_right fun hnew => (Option.some.inj hnew).symm
  exact
    { begun := fun copy hcopy id => by
        rcases hcopies copy hcopy with rfl | rfl
        · exact Nat.le_succ_of_le (h.begun _ w.disk_mem_copies id)
        · dsimp only [beginAttempt]
          rw [Function.update_apply]
          split_ifs
          · exact le_refl _
          · exact Nat.le_succ_of_le (h.begun held hheld id)
      last := Nat.le_succ_of_le h.last
      demoted := h.demoted
      counted := fun copy hcopy id hid hle => by
        rcases hcopies copy hcopy with rfl | rfl
        · exact h.counted _ w.disk_mem_copies id hid hle
        · by_cases hsame : id = componentId
          · subst hsame
            dsimp only at hle
            rw [Function.update_self] at hle
            exact absurd hle (Nat.not_le.mpr hfresh)
          · dsimp only at hle ⊢
            rw [Function.update_of_ne hsame] at hle ⊢
            exact h.counted held hheld id
              ((mem_policyViolations_update (f := Learning.beginAttempt now journalOffset) (fun _ => rfl) hid).resolve_left
                hsame) hle
      inFlight := fun held' begun' hstage' id hid => by
        cases hstage'
        dsimp only [beginAttempt]
        rw [Function.update_apply]
        split_ifs with hsame
        · exact hfresh
        · refine h.inFlight held begun hstage id ((List.mem_append.mp hid).resolve_right fun hlast => ?_)
          exact hsame (List.mem_singleton.mp hlast)
      closing := fun _ _ _ hstage' => by cases hstage' }

/-- A finding is recorded on a component that was begun behind the last policy demotion. -/
lemma inv_record (h : Inv w) {held : Copy} {begun : List String} {componentId : String} {findings : List Finding}
    (hstage : w.stage = .running held begun) (hflight : componentId ∈ begun) :
    Inv { w with stage := .running
                   (Copy.mk (held.manifest.update componentId (addFindings findings)) held.attempt) begun } := by
  have hheld : held ∈ w.copies := held_mem_copies (by rw [hstage]; rfl)
  exact
    { begun := fun copy hcopy id => by
        rcases mem_copies hcopy with rfl | hnew
        · exact h.begun _ w.disk_mem_copies id
        · cases hnew
          exact h.begun held hheld id
      last := h.last
      demoted := h.demoted
      counted := fun copy hcopy id hid hle => by
        rcases mem_copies hcopy with rfl | hnew
        · exact h.counted _ w.disk_mem_copies id hid hle
        · cases hnew
          rcases mem_policyViolations_update (f := addFindings findings) (fun _ => rfl) hid with rfl | hold
          · exact absurd hle (Nat.not_le.mpr (h.inFlight held begun hstage id hflight))
          · exact h.counted held hheld id hold hle
      inFlight := fun held' begun' hstage' => by
        cases hstage'
        exact h.inFlight held begun hstage
      closing := fun _ _ _ hstage' => by cases hstage' }

/-- A save of the ladder state. -/
lemma inv_fold (h : Inv w) {held : Copy} {p : Process} (hstage : w.stage = .closing held p) (now : String) :
    Inv (w.fold held p now) := by
  have hheld : held ∈ w.copies := held_mem_copies (by rw [hstage]; rfl)
  have hcopies : ∀ copy ∈ (w.fold held p now).copies, copy = w.disk ∨ copy = held := fun copy hcopy =>
    (mem_copies hcopy).imp_right fun hnew => by
      unfold fold at hnew
      dsimp only at hnew
      split_ifs at hnew
      · exact (Option.some.inj hnew).symm
      · cases hnew
  have hnotRunning : ∀ held' begun', (w.fold held p now).stage ≠ .running held' begun' := fun held' begun' => by
    unfold fold
    dsimp only
    split_ifs <;> exact nofun
  have hclosing : ∀ held' e state, (w.fold held p now).stage = .closing held' (.recording e state) →
      (w.fold held p now).disk = held' ∧ e.manifest = held'.manifest := fun held' e state hstage' => by
    unfold fold at hstage'
    dsimp only at hstage'
    split_ifs at hstage'
    exact absurd (Stage.closing.inj hstage').2 Process.next_ne_recording
  cases hcounted : p.counted held.attempt now with
  | none =>
      refine h.quiet rfl ?_ ?_ (fun copy hcopy => ?_) (fun held' begun' hrunning => ?_) hclosing
      · rw [fold, hcounted]
        rfl
      · rw [fold, hcounted]
        exact List.append_nil _
      · rcases hcopies copy hcopy with rfl | rfl
        · exact covered_of_mem w.disk_mem_copies
        · exact covered_of_mem hheld
      · exact absurd hrunning (hnotRunning held' begun')
  | some counted =>
      obtain ⟨e, state, rfl, -, rfl⟩ := Process.eq_recording_of_counted hcounted
      obtain ⟨hdisk, hmanifest⟩ := h.closing held e state hstage
      have hlast : (w.fold held (.recording e state) now).lastDemotion = w.attempts := by
        rw [fold, hcounted]
        rfl
      have hdemotions : (w.fold held (.recording e state) now).demotions =
          w.demotions ++ [e.violations.map fun componentId => (componentId, held.attempt componentId)] := by
        rw [fold, hcounted]
        rfl
      have hcopy : ∀ copy ∈ (w.fold held (.recording e state) now).copies, copy = held := fun copy hcopy =>
        (hcopies copy hcopy).elim (fun heq => heq.trans hdisk) id
      exact
        { begun := fun copy hmem id => by
            rw [hcopy copy hmem]
            exact h.begun held hheld id
          last := hlast.le
          demoted := fun d hd a ha => by
            rw [hlast]
            rw [hdemotions] at hd
            rcases List.mem_append.mp hd with hd | hd
            · exact (h.demoted d hd a ha).trans h.last
            · rw [List.mem_singleton.mp hd] at ha
              obtain ⟨componentId, -, rfl⟩ := List.mem_map.mp ha
              exact h.begun held hheld componentId
          counted := fun copy hmem id hid _ => by
            rw [hcopy copy hmem] at hid ⊢
            rw [hdemotions]
            refine ⟨_, List.mem_append_right _ (List.mem_singleton_self _), List.mem_map.mpr ⟨id, ?_, rfl⟩⟩
            rw [← hmanifest] at hid
            exact hid
          inFlight := fun held' begun' hrunning => absurd hrunning (hnotRunning held' begun')
          closing := hclosing }

/-- **Every step keeps the invariant.** -/
theorem inv_next (h : Inv w) (hstep : Step path w a w') : Inv w' := by
  cases turn_of_step hstep with
  | start runId version policyHash hstage =>
      refine h.quiet rfl rfl rfl (fun copy hcopy => ?_) (fun held begun hrunning => ?_) fun _ _ _ hclosing => ?_
      · have hfewer := policyViolations_resume w.disk.manifest
        rcases mem_copies hcopy with rfl | hnew
        · exact ⟨w.disk, w.disk_mem_copies, rfl, hfewer⟩
        · cases hnew
          exact ⟨w.disk, w.disk_mem_copies, rfl, hfewer⟩
      · cases hrunning
        exact fun _ hid => by cases hid
      · cases hclosing
  | edit _ m hstage hfewer =>
      refine h.quiet rfl rfl rfl (fun copy hcopy => ?_) h.inFlight fun _ _ _ hclosing => ?_
      · rcases mem_copies hcopy with rfl | hnew
        · exact ⟨w.disk, w.disk_mem_copies, rfl, hfewer⟩
        · exact covered_of_mem (held_mem_copies hnew)
      · cases hstage.symm.trans hclosing
  | begin held begun componentId now journalOffset hstage => exact inv_begin h hstage componentId now journalOffset
  | record held begun componentId findings hstage hflight => exact inv_record h hstage hflight
  | progress _ held begun m hstage hfewer =>
      have hheld : held ∈ w.copies := held_mem_copies (by rw [hstage]; rfl)
      refine h.quiet rfl rfl rfl (fun copy hcopy => ?_) (fun held' begun' hrunning => ?_) fun _ _ _ hclosing => ?_
      · rcases mem_copies hcopy with rfl | hnew
        · exact covered_of_mem w.disk_mem_copies
        · cases hnew
          exact ⟨held, hheld, rfl, hfewer⟩
      · cases hrunning
        exact h.inFlight held begun hstage
      · cases hclosing
  | save held begun hstage =>
      have hheld : w.stage.held? = some held := by rw [hstage]; rfl
      refine h.quiet rfl rfl rfl (fun copy hcopy => ?_) h.inFlight fun _ _ _ hclosing => ?_
      · rcases mem_copies hcopy with rfl | hnew
        · exact covered_of_mem (held_mem_copies hheld)
        · exact covered_of_mem (held_mem_copies hnew)
      · cases hstage.symm.trans hclosing
  | finish held begun now outcome hstage =>
      have hheld : held ∈ w.copies := held_mem_copies (by rw [hstage]; rfl)
      cases outcome with
      | none =>
          refine h.quiet rfl rfl rfl (fun copy hcopy => ?_) (fun _ _ hrunning => ?_) fun _ _ _ hclosing => ?_
          · rw [List.mem_singleton.mp hcopy]
            exact ⟨held, hheld, rfl, fun _ => id⟩
          · cases hrunning
          · cases hclosing
      | some e =>
          refine h.quiet rfl rfl rfl (fun copy hcopy => ?_) (fun _ _ hrunning => ?_) fun _ _ _ hclosing => ?_
          · rcases mem_copies hcopy with rfl | hnew
            · exact ⟨held, hheld, rfl, fun _ => id⟩
            · cases hnew
              exact ⟨held, hheld, rfl, fun _ => id⟩
          · cases hrunning
          · cases hclosing
            exact ⟨rfl, rfl⟩
  | fold held p now hstage => exact inv_fold h hstage now
  | crash =>
      refine h.quiet rfl rfl rfl (fun copy hcopy => ?_) (fun _ _ hrunning => ?_) fun _ _ _ hclosing => ?_
      · rw [List.mem_singleton.mp hcopy]
        exact covered_of_mem w.disk_mem_copies
      · cases hrunning
      · cases hclosing
  | ladder file =>
      exact h.quiet rfl rfl rfl (fun copy hcopy => covered_of_mem hcopy) h.inFlight h.closing

/-! ## What counts twice -/

lemma fresh_of_stage (h : ∀ held p, w.stage ≠ .closing held p) : Fresh w a := by
  cases a with
  | fold now => exact fun held e state hstage => absurd hstage (h held _)
  | _ => trivial

/-- Only a save of the ladder state adds to the demotions. -/
lemma demotions_of_step (hstep : Step path w a w') :
    (∃ held p now, a = .fold now ∧ w.stage = .closing held p ∧
      w'.demotions = w.demotions ++ (p.counted held.attempt now).toList) ∨
      Fresh w a ∧ w'.demotions = w.demotions := by
  cases turn_of_step hstep with
  | fold held p now hstage => exact .inl ⟨held, p, now, rfl, hstage, rfl⟩
  | edit _ m hstage _ => exact .inr ⟨fresh_of_stage (fun held p => by rw [hstage]; exact nofun), rfl⟩
  | progress _ held begun m hstage _ => exact .inr ⟨fresh_of_stage (fun held p => by rw [hstage]; exact nofun), rfl⟩
  | start => exact .inr ⟨trivial, rfl⟩
  | begin => exact .inr ⟨trivial, rfl⟩
  | record => exact .inr ⟨trivial, rfl⟩
  | save => exact .inr ⟨trivial, rfl⟩
  | finish => exact .inr ⟨trivial, rfl⟩
  | crash => exact .inr ⟨trivial, rfl⟩
  | ladder => exact .inr ⟨trivial, rfl⟩

/-- An attempt begun behind the last policy demotion has counted for none. -/
lemma countP_eq_zero (h : Inv w) {attempt : String × ℕ} (hattempt : w.lastDemotion < attempt.2) :
    w.demotions.countP (attempt ∈ ·) = 0 :=
  List.countP_eq_zero.mpr fun d hd hmem =>
    Nat.not_lt.mpr (h.demoted d hd attempt (of_decide_eq_true hmem)) hattempt

/-- **A fresh step counts no attempt again.** -/
lemma countedOnce_next (h : Inv w) (hfresh : Fresh w a) (hstep : Step path w a w') (honce : w.CountedOnce) :
    w'.CountedOnce := by
  intro attempt
  rcases demotions_of_step hstep with ⟨held, p, now, rfl, hstage, hdemotions⟩ | ⟨-, hdemotions⟩
  · rw [hdemotions, List.countP_append]
    cases hcounted : p.counted held.attempt now with
    | none => exact honce attempt
    | some counted =>
        obtain ⟨e, state, rfl, hlevel, rfl⟩ := Process.eq_recording_of_counted hcounted
        rw [Option.toList_some, List.countP_singleton]
        split_ifs with hmem
        · obtain ⟨componentId, hid, rfl⟩ := List.mem_map.mp (of_decide_eq_true hmem)
          have hnew := hfresh held e state hstage hlevel componentId hid
          rw [countP_eq_zero h hnew]
        · exact honce attempt
  · rw [hdemotions]
    exact honce attempt

/-- **A step that is not fresh does.** -/
lemma fresh_of_countedOnce (h : Inv w) (hstep : Step path w a w') (honce : w'.CountedOnce) :
    Fresh w a ∧ w.CountedOnce := by
  rcases demotions_of_step hstep with ⟨held, p, now, rfl, hstage, hdemotions⟩ | ⟨hfresh, hdemotions⟩
  · refine ⟨fun held' e state hstage' hlevel componentId hid => ?_, fun attempt => ?_⟩
    · cases hstage.symm.trans hstage'
      by_contra hstale
      obtain ⟨-, hmanifest⟩ := h.closing held e state hstage
      have hviolation : componentId ∈ policyViolations held.manifest := by
        rw [← hmanifest]
        exact hid
      have hheld : held ∈ w.copies := held_mem_copies (by rw [hstage]; rfl)
      obtain ⟨d, hd, hmem⟩ := h.counted held hheld componentId hviolation (Nat.not_lt.mp hstale)
      -- the attempt is in a demotion of before, and in the new one
      have hbefore : 0 < w.demotions.countP ((componentId, held.attempt componentId) ∈ ·) :=
        List.countP_pos_iff.mpr ⟨d, hd, decide_eq_true hmem⟩
      have hboth := honce (componentId, held.attempt componentId)
      rw [hdemotions, Process.counted_recording, if_pos ⟨List.ne_nil_of_mem hid, hlevel⟩, List.countP_append,
        Option.toList_some, List.countP_singleton,
        if_pos (decide_eq_true (List.mem_map.mpr ⟨componentId, hid, rfl⟩))] at hboth
      omega
    · have hle := honce attempt
      rw [hdemotions, List.countP_append] at hle
      exact (Nat.le_add_right _ _).trans hle
  · refine ⟨hfresh, ?_⟩
    unfold CountedOnce at honce ⊢
    rwa [hdemotions] at honce

lemma inv_reaches {m : Manifest} {file : LadderFile} {cond : Chain → Action → Prop}
    (run : Reaches (Step path) cond (init m file) w) : Inv w :=
  run.invariant (inv_init m file) fun _ _ _ hinv _ hstep => inv_next hinv hstep

/-- **One violation demotes once.**  The chains in which each attempt counts for one policy demotion at most are
those in which no run above L1 ends with a violation that was recorded before the last policy demotion. -/
theorem counted_once_iff (path : String) (m : Manifest) (file : LadderFile) (w : Chain) :
    Reaches (Step path) Fresh (init m file) w ↔
      Reaches (Step path) Always (init m file) w ∧ w.CountedOnce := by
  constructor
  · intro run
    refine ⟨run.mono fun _ _ _ => trivial, ?_⟩
    induction run with
    | refl => exact fun _ => Nat.zero_le 1
    | tail run hfresh hstep ih => exact countedOnce_next (inv_reaches run) hfresh hstep ih
  · rintro ⟨run, honce⟩
    induction run with
    | refl => exact .refl
    | tail run _ hstep ih =>
        obtain ⟨hfresh, hbefore⟩ := fresh_of_countedOnce (inv_reaches run) hstep honce
        exact (ih hbefore).tail hfresh hstep

/-! ## A chain -/

/-- A change that breaks the policy. -/
def brokenPolicy : Finding where
  phase := "verify"
  category := "policy_path"
  severity := "high"

def oneViolation : Manifest :=
  { components := [{ id := "api", status := .failed, findings := [tagFindingWithAttempt 1 brokenPolicy] }] }

/-- A stored record at L3. -/
def storedL3 : LadderFile :=
  .document { level := .l3EnvelopedAuto, since := "2026-01-01" : AutonomyState }.document

/-- The end of a run in which these components failed. -/
def runEndOf (failed : List String) : RunEnd where
  manifest := {}
  completed := []
  failed := failed
  merged := []
  runLevel := .l3EnvelopedAuto
  runId := "r"
  demoteOnHealthBreach := false
  breaches := []

/-- A run records a violation and ends, and another one resumes and ends. -/
def resumedTwice : List Action :=
  [.start "r1" "1" "p", .begin "api" "12:00" 0, .record "api" [brokenPolicy], .progress oneViolation,
    .finish "12:01" (some (runEndOf ["api"])), .fold "12:01", .fold "12:01",
    .start "r2" "1" "p", .finish "12:02" (some (runEndOf [])), .fold "12:02", .fold "12:02"]

/-- The violation demotes twice, from L3 to L1. -/
theorem stale_violation_demotes : ∃ w, Reaches (Step "autonomy.json") Always
    (init { components := [{ id := "api" }] } storedL3) w ∧
      w.file.level = .l1Supervised ∧ w.demotions = [[("api", 2)], [("api", 2)]] ∧ ¬w.CountedOnce := by
  have hrun : ∃ w, resumedTwice.foldlM (next "autonomy.json")
      (init { components := [{ id := "api" }] } storedL3) = some w ∧ w.file.level = .l1Supervised ∧
        w.demotions = [[("api", 2)], [("api", 2)]] := by
    refine ⟨_, rfl, rfl, rfl⟩
  obtain ⟨w, hw, hlevel, hdemotions⟩ := hrun
  refine ⟨w, Reaches.of_foldlM hw, hlevel, hdemotions, fun honce => ?_⟩
  have htwice := honce ("api", 2)
  rw [hdemotions] at htwice
  exact absurd htwice (by decide)

end Chain

end Learning

end Kstrl
