import Kstrl.Architect.DecomposeReply
import Kstrl.Architect.Register
import Kstrl.Base.CrashProg
import Kstrl.Base.Runs

/-!
# Writing a plan

`_write_plan` (`kstrl/architect/decompose_plan.py`) with the register commit of `kstrl/architect/decompose.py`, and
the writes of one decompose around it.

A file is written atomically, so a write changes its file or leaves it; making the directory of a file is part of
writing it.  The manifest and the register carry, as ghosts, the number of the decompose that wrote them.

* **`writePlan_allOrNothing`**: with one failing write the plan is written, or everything is as before, unless the
  write that fails is the register's.
* **`bound_register_own`**: over the decomposes of a project, killed anywhere, the register that binds the stored
  manifest is of the same decompose, as long as none is cut off between the two files while the old register matches
  the new manifest.
-/

namespace Kstrl.Architect

open CrashProg

/-! ## The files -/

/-- Where the PRD of a component is. -/
inductive PrdPath where
  /-- `.kstrl/plan/<plan id>/<component id>/prd.json` -/
  | planned (planId componentId : String)
  /-- a path in the root checkout -/
  | root (path : String)
  deriving DecidableEq, Repr

/-- The copy of a component's PRD that a run starts from. -/
def preRunPrdPath (c : Component) : PrdPath := if c.planId ≠ "" then .planned c.planId c.id else .root c.prdPath

/-- The files of a plan. -/
structure PlanDisk where
  prds : PrdPath → Option Json
  manifest : Option Manifest
  register : RegisterFile
  /-- ghost: the decompose that wrote the manifest -/
  manifestBy : Option ℕ
  /-- ghost: the decompose that wrote the register -/
  registerBy : Option ℕ

/-! ## One decompose -/

/-- A component that is put in the plan, with the PRD that passed the checks of the retry loop. -/
structure PlanEntry where
  component : PlannedComponent
  branchName : String
  linearIssueId : String := ""
  linearIssueIdentifier : String := ""
  prd : Json

/-- How a decompose gets the run lock. -/
inductive LockChoice where
  /-- the caller holds one -/
  | held
  /-- it takes its own -/
  | own
  /-- another process holds it -/
  | refused
  deriving DecidableEq, Repr

/-- What one decompose has to write. -/
structure Decompose where
  entries : List PlanEntry
  /-- the validator of the reply refuses a duplicate id -/
  distinct : (entries.map fun entry => entry.component.id).Nodup
  decisions : List SpecDecision := []
  requirements : List SpecRequirement := []
  projectName : String
  baseBranch : String := "main"
  singlePr : Bool := false
  /-- `spec_path.name` -/
  specFile : String
  specSource : String := ""
  /-- the digest of the spec's text -/
  pin : String
  stackPin : String := ""
  linearProjectId : String := ""
  linearSyncKey : String := ""
  answeredItems : List String := []
  answersDigest : String := ""
  generatedAt : String := ""
  lock : LockChoice := .own

/-- The PRDs written so far, for the cleanup, and what went wrong. -/
structure WriteError where
  written : List PrdPath
  message : String
  deriving DecidableEq, Repr

namespace PlanEntry

def path (planId : String) (entry : PlanEntry) : PrdPath := .planned planId entry.component.id

/-- The component of the manifest. -/
def manifestComponent (planId : String) (entry : PlanEntry) : Component :=
  { id := entry.component.id
    title := entry.component.title
    description := entry.component.description
    dependencies := entry.component.dependencies
    prdPath := "scripts/kstrl/feature/" ++ entry.component.id ++ "/prd.json"
    branchName := entry.branchName
    status := .pending
    planId := planId
    linearIssueId := entry.linearIssueId
    linearIssueIdentifier := entry.linearIssueIdentifier }

end PlanEntry

namespace PlanDisk

def putPrd (path : PrdPath) (prd : Json) (s : PlanDisk) : PlanDisk :=
  { s with prds := Function.update s.prds path (some prd) }

def removePrd (path : PrdPath) (s : PlanDisk) : PlanDisk := { s with prds := Function.update s.prds path none }

def saveManifest (number : ℕ) (m : Manifest) (s : PlanDisk) : PlanDisk :=
  { s with manifest := some m, manifestBy := some number }

def commitRegister (number : ℕ) (data : Json) (s : PlanDisk) : PlanDisk :=
  { s with register := .document data, registerBy := some number }

end PlanDisk

namespace Decompose

def manifest (d : Decompose) (planId : String) : Manifest :=
  { version := "1"
    specFile := d.specFile
    projectName := d.projectName
    baseBranch := d.baseBranch
    singlePr := d.singlePr
    components := d.entries.map (PlanEntry.manifestComponent planId)
    linearProjectId := d.linearProjectId
    linearSyncKey := d.linearSyncKey
    specPath := d.specSource
    specDigest := d.pin
    stackDigest := d.stackPin }

def registerDocument (d : Decompose) (halted : Bool) : Json :=
  Architect.registerDocument d.decisions d.requirements
    { projectName := d.projectName, specFile := d.specFile, halted, specDigest := d.pin,
      answeredItems := d.answeredItems, answersDigest := d.answersDigest } d.generatedAt

end Decompose

/-- The PRDs of the plan, each behind the list of those before it. -/
def writeComponentPrds (planId : String) : List PlanEntry → List PrdPath → Prog PlanDisk WriteError (List PrdPath)
  | [], written => pure written
  | entry :: rest, written => do
      write (PlanDisk.putPrd (entry.path planId) entry.prd) ⟨written, "OSError"⟩
      writeComponentPrds planId rest (written ++ [entry.path planId])

/-- `held_or_acquired_run_lock` -/
def takeRunLock (lock : LockChoice) (written : List PrdPath) : Prog PlanDisk WriteError Unit :=
  match lock with
  | .held => pure ()
  | .own => write id ⟨written, "OSError"⟩
  | .refused => raise ⟨written, "FactoryLockHeldError"⟩

/-- What the cleanup guards. -/
def writeBody (number : ℕ) (d : Decompose) (planId : String) : Prog PlanDisk WriteError Unit := do
  let written ← writeComponentPrds planId d.entries []
  takeRunLock d.lock written
  write (PlanDisk.saveManifest number (d.manifest planId)) ⟨written, "OSError"⟩
  write (PlanDisk.commitRegister number (d.registerDocument false)) ⟨written, "OSError"⟩

/-- Unlink the PRDs that were written; one that is gone already is no fault. -/
def cleanup : List PrdPath → Prog PlanDisk WriteError Unit
  | [] => pure ()
  | path :: rest => do
      writeQuiet (PlanDisk.removePrd path)
      cleanup rest

def writePlan (number : ℕ) (d : Decompose) (planId : String) : Prog PlanDisk WriteError Unit :=
  catching (writeBody number d planId) fun error => do
    cleanup error.written
    raise { error with written := [] }

/-- The writes of one decompose: the spec issues, whose failure is said and no more, then the plan, or for a halt
the register alone. -/
def decompose (number : ℕ) (d : Decompose) (planId : String) : Prog PlanDisk WriteError Unit := do
  writeQuiet id
  if (escalations d.decisions).isEmpty then writePlan number d planId
  else do
    writeQuiet (PlanDisk.commitRegister number (d.registerDocument true))
    raise ⟨[], "SpecBlockerError"⟩

/-! ## The body is a script -/

abbrev Step := (PlanDisk → PlanDisk) × WriteError

def prdSteps (planId : String) : List PlanEntry → List PrdPath → List Step
  | [], _ => []
  | entry :: rest, written =>
      (PlanDisk.putPrd (entry.path planId) entry.prd, ⟨written, "OSError"⟩) ::
        prdSteps planId rest (written ++ [entry.path planId])

namespace Decompose

variable (d : Decompose) (planId : String)

/-- The PRDs of the plan. -/
def paths : List PrdPath := d.entries.map (PlanEntry.path planId)

def lockSteps : List Step := if d.lock = .own then [(id, ⟨d.paths planId, "OSError"⟩)] else []

/-- What is written in front of the manifest. -/
def earlySteps : List Step := prdSteps planId d.entries [] ++ d.lockSteps planId

def manifestStep (number : ℕ) : Step :=
  (PlanDisk.saveManifest number (d.manifest planId), ⟨d.paths planId, "OSError"⟩)

def registerStep (number : ℕ) : Step :=
  (PlanDisk.commitRegister number (d.registerDocument false), ⟨d.paths planId, "OSError"⟩)

/-- The number of writes in front of the register's. -/
def registerWrite : ℕ := d.entries.length + (if d.lock = .own then 1 else 0) + 1

end Decompose

lemma length_prdSteps (planId : String) (entries : List PlanEntry) (written : List PrdPath) :
    (prdSteps planId entries written).length = entries.length := by
  induction entries generalizing written with
  | nil => rfl
  | cons entry rest ih => rw [prdSteps, List.length_cons, List.length_cons, ih]

lemma length_earlySteps (d : Decompose) (planId : String) : (d.earlySteps planId).length + 1 = d.registerWrite := by
  rw [Decompose.earlySteps, List.length_append, length_prdSteps, Decompose.lockSteps, Decompose.registerWrite]
  split_ifs <;> rfl

lemma writeComponentPrds_bind {α : Type} (planId : String) (entries : List PlanEntry) (written : List PrdPath)
    (k : List PrdPath → Prog PlanDisk WriteError α) :
    writeComponentPrds planId entries written >>= k =
      script (prdSteps planId entries written) >>= fun _ => k (written ++ entries.map (PlanEntry.path planId)) := by
  induction entries generalizing written with
  | nil => rw [List.map_nil, List.append_nil]; rfl
  | cons entry rest ih =>
      have hcons := ih (written ++ [entry.path planId])
      rw [List.append_assoc, List.singleton_append] at hcons
      rw [writeComponentPrds, prdSteps, script, bind_bind, bind_bind, List.map_cons]
      simp only [hcons]

/-- With the lock at hand the body is one sequence of writes. -/
lemma writeBody_eq_script (number : ℕ) {d : Decompose} (planId : String) (hlock : d.lock ≠ .refused) :
    writeBody number d planId =
      script (d.earlySteps planId ++ [d.manifestStep planId number, d.registerStep planId number]) := by
  rw [writeBody, writeComponentPrds_bind, Decompose.earlySteps, script_append, script_append, bind_bind,
    List.nil_append]
  congr 1
  funext _
  have hlast : (script [d.manifestStep planId number, d.registerStep planId number] : Prog PlanDisk WriteError Unit) =
      write (d.manifestStep planId number).1 (d.manifestStep planId number).2 >>= fun _ =>
        write (d.registerStep planId number).1 (d.registerStep planId number).2 := by
    rw [script, script_singleton]
  rw [Decompose.lockSteps, hlast]
  cases hl : d.lock with
  | held => rfl
  | own =>
      rw [if_pos rfl, script_singleton]
      rfl
  | refused => exact absurd hl hlock

/-- Without the lock the body stops behind the PRDs. -/
lemma writeBody_eq_refused {number : ℕ} {d : Decompose} {planId : String} (hlock : d.lock = .refused) :
    writeBody number d planId =
      script (prdSteps planId d.entries []) >>= fun _ => raise ⟨d.paths planId, "FactoryLockHeldError"⟩ := by
  rw [writeBody, writeComponentPrds_bind, hlock, List.nil_append]
  rfl

/-! ## What the steps in front of the register do -/

/-- The stored manifest and register, with who wrote them. -/
def PlanDisk.stored (s : PlanDisk) : Option Manifest × RegisterFile × Option ℕ × Option ℕ :=
  (s.manifest, s.register, s.manifestBy, s.registerBy)

lemma PlanDisk.ext_stored {s t : PlanDisk} (hprds : s.prds = t.prds) (hstored : s.stored = t.stored) : s = t := by
  cases s
  cases t
  simp only [stored, Prod.mk.injEq] at hstored
  simp only [mk.injEq]
  exact ⟨hprds, hstored⟩

lemma prdSteps_keep (planId : String) (entries : List PlanEntry) (written : List PrdPath) :
    ∀ step ∈ prdSteps planId entries written, ∀ s : PlanDisk, (step.1 s).stored = s.stored := by
  induction entries generalizing written with
  | nil => simp [prdSteps]
  | cons entry rest ih =>
      intro step hstep s
      rcases List.mem_cons.mp hstep with rfl | hstep
      · rfl
      · exact ih _ step hstep s

lemma lockSteps_id {d : Decompose} {planId : String} : ∀ step ∈ d.lockSteps planId, step.1 = id := by
  intro step hstep
  rw [Decompose.lockSteps] at hstep
  split_ifs at hstep
  · rw [List.mem_singleton.mp hstep]
  · cases hstep

lemma earlySteps_keep {d : Decompose} {planId : String} :
    ∀ step ∈ d.earlySteps planId, ∀ s : PlanDisk, (step.1 s).stored = s.stored := by
  intro step hstep s
  rcases List.mem_append.mp hstep with hprd | hlock
  · exact prdSteps_keep _ _ _ step hprd s
  · rw [lockSteps_id step hlock]
    rfl

lemma prdSteps_take (planId : String) (entries : List PlanEntry) (written : List PrdPath) (n : ℕ) :
    (prdSteps planId entries written).take n = prdSteps planId (entries.take n) written := by
  induction entries generalizing n written with
  | nil => simp [prdSteps]
  | cons entry rest ih =>
      cases n with
      | zero => rfl
      | succ n => rw [prdSteps, List.take_succ_cons, List.take_succ_cons, prdSteps, ih]

lemma prdSteps_written {planId : String} {entries : List PlanEntry} {written : List PrdPath} {n : ℕ} {step : Step}
    (h : (prdSteps planId entries written)[n]? = some step) :
    step.2.written = written ++ (entries.take n).map (PlanEntry.path planId) := by
  induction entries generalizing n written with
  | nil => simp [prdSteps] at h
  | cons entry rest ih =>
      cases n with
      | zero =>
          obtain rfl := Option.some.inj h
          simp
      | succ n =>
          rw [ih h]
          simp

/-- Where a write in front of the register's fails, the PRDs written so far are those the cleanup is told of. -/
lemma early_error {number : ℕ} {d : Decompose} {planId : String} {n : ℕ} {step : Step} (hn : n < d.registerWrite)
    (h : (d.earlySteps planId ++ [d.manifestStep planId number, d.registerStep planId number])[n]? = some step)
    (s : PlanDisk) :
    step.2.written = (d.entries.take n).map (PlanEntry.path planId) ∧
      applied ((d.earlySteps planId ++ [d.manifestStep planId number, d.registerStep planId number]).take n) s =
        applied (prdSteps planId (d.entries.take n) []) s := by
  have hlen := length_earlySteps d planId
  have hpaths (hall : d.entries.length ≤ n) : d.paths planId = (d.entries.take n).map (PlanEntry.path planId) := by
    rw [List.take_of_length_le hall, Decompose.paths]
  have hlock (k : ℕ) : applied ((d.lockSteps planId).take k) (applied (prdSteps planId (d.entries.take n) []) s) =
      applied (prdSteps planId (d.entries.take n) []) s := by
    refine applied_keeps id (fun step hstep t => ?_) _
    rw [lockSteps_id step (List.mem_of_mem_take hstep)]
    rfl
  have htake : applied ((d.earlySteps planId).take n) s = applied (prdSteps planId (d.entries.take n) []) s := by
    rw [Decompose.earlySteps, List.take_append, applied_append, prdSteps_take, hlock]
  rw [List.take_append_of_le_length (by omega)]
  refine ⟨?_, htake⟩
  rcases Nat.lt_or_ge n (d.earlySteps planId).length with hearly | hmanifest
  · rw [List.getElem?_append_left hearly, Decompose.earlySteps] at h
    rcases Nat.lt_or_ge n d.entries.length with hprd | hall
    · rw [List.getElem?_append_left (by rwa [length_prdSteps])] at h
      exact prdSteps_written h
    · rw [List.getElem?_append_right (by rwa [length_prdSteps]), Decompose.lockSteps] at h
      split_ifs at h
      · rw [← hpaths hall]
        have hmem := List.mem_of_getElem? h
        rw [List.mem_singleton.mp hmem]
      · simp at h
  · obtain rfl : n = (d.earlySteps planId).length := by omega
    rw [List.getElem?_append_right le_rfl, Nat.sub_self] at h
    obtain rfl := Option.some.inj h
    refine hpaths ?_
    rw [Decompose.earlySteps, List.length_append, length_prdSteps]
    omega

/-! ## The cleanup -/

def removePrds (paths : List PrdPath) (s : PlanDisk) : PlanDisk := paths.foldl (fun t path => t.removePrd path) s

lemma cleanup_undisturbed (paths : List PrdPath) (s : PlanDisk) :
    cleanup paths [] s = (.done (), [], removePrds paths s) := by
  induction paths generalizing s with
  | nil => rfl
  | cons path rest ih => exact ih (s.removePrd path)

lemma stored_removePrds (paths : List PrdPath) (s : PlanDisk) : (removePrds paths s).stored = s.stored := by
  induction paths generalizing s with
  | nil => rfl
  | cons path rest ih => exact ih (s.removePrd path)

lemma prds_removePrds (paths : List PrdPath) (s : PlanDisk) (path : PrdPath) :
    (removePrds paths s).prds path = if path ∈ paths then none else s.prds path := by
  induction paths generalizing s with
  | nil => rfl
  | cons first rest ih =>
      rw [show removePrds (first :: rest) s = removePrds rest (s.removePrd first) from rfl, ih]
      by_cases hrest : path ∈ rest
      · simp [hrest]
      · by_cases hfirst : path = first
        · subst hfirst
          simp [PlanDisk.removePrd]
        · simp [hrest, hfirst, PlanDisk.removePrd]

/-- The steps of the PRDs touch no other path. -/
lemma prds_prdSteps {planId : String} {entries : List PlanEntry} {path : PrdPath}
    (h : path ∉ entries.map (PlanEntry.path planId)) (written : List PrdPath) (s : PlanDisk) :
    (applied (prdSteps planId entries written) s).prds path = s.prds path := by
  induction entries generalizing written s with
  | nil => rfl
  | cons entry rest ih =>
      rw [List.map_cons, List.mem_cons, not_or] at h
      have hrest := ih h.2 (written ++ [entry.path planId]) (s.putPrd (entry.path planId) entry.prd)
      exact hrest.trans (Function.update_of_ne h.1 _ _)

/-- An id that `mint_run_id` gave: nothing of the project names it. -/
structure Minted (s : PlanDisk) (planId : String) : Prop where
  named : planId ≠ ""
  unwritten : ∀ componentId, s.prds (.planned planId componentId) = none
  unplanned : ∀ m, s.manifest = some m → ∀ c ∈ m.components, c.planId ≠ planId

/-- Written and removed again, the PRDs of a fresh plan leave no trace. -/
lemma removePrds_restores {s : PlanDisk} {planId : String} (h : Minted s planId) (entries : List PlanEntry)
    (written : List PrdPath) :
    removePrds (entries.map (PlanEntry.path planId)) (applied (prdSteps planId entries written) s) = s := by
  refine PlanDisk.ext_stored ?_ ?_
  · funext path
    rw [prds_removePrds]
    split_ifs with hmem
    · obtain ⟨entry, -, rfl⟩ := List.mem_map.mp hmem
      exact (h.unwritten _).symm
    · exact prds_prdSteps hmem written s
  · rw [stored_removePrds]
    exact applied_keeps PlanDisk.stored (prdSteps_keep _ _ _) s

/-- A cleanup of which one unlink fails leaves that one file. -/
lemma cleanup_error {paths : List PrdPath} {n : ℕ} (hn : n < paths.length) (s : PlanDisk) :
    cleanup paths (List.replicate n .pass ++ [.error]) s = (.done (), [], removePrds (paths.eraseIdx n) s) := by
  induction paths generalizing n s with
  | nil => cases hn
  | cons path rest ih =>
      cases n with
      | zero => exact cleanup_undisturbed rest s
      | succ n => exact ih (Nat.lt_of_succ_lt_succ hn) (s.removePrd path)

lemma cleanup_before_error {paths : List PrdPath} {n : ℕ} (hn : paths.length ≤ n) (s : PlanDisk) :
    cleanup paths (List.replicate n .pass ++ [.error]) s =
      (.done (), List.replicate (n - paths.length) .pass ++ [.error], removePrds paths s) := by
  induction paths generalizing n s with
  | nil => rfl
  | cons path rest ih =>
      obtain ⟨n, rfl⟩ : ∃ m, n = m + 1 := ⟨n - 1, by simp only [List.length_cons] at hn; omega⟩
      rw [List.length_cons, Nat.add_sub_add_right]
      exact ih (by simpa using hn) (s.removePrd path)

/-- The steps of the PRDs leave a file at every path of theirs. -/
lemma isSome_prdSteps {planId : String} {entries : List PlanEntry} {path : PrdPath}
    (h : path ∈ entries.map (PlanEntry.path planId)) (written : List PrdPath) (s : PlanDisk) :
    ((applied (prdSteps planId entries written) s).prds path).isSome := by
  induction entries generalizing written s with
  | nil => cases h
  | cons entry rest ih =>
      by_cases hrest : path ∈ rest.map (PlanEntry.path planId)
      · exact ih hrest (written ++ [entry.path planId]) (s.putPrd (entry.path planId) entry.prd)
      · rcases List.mem_cons.mp h with rfl | hmem
        · have hkept := prds_prdSteps hrest (written ++ [entry.path planId])
            (s.putPrd (entry.path planId) entry.prd)
          show ((applied (prdSteps planId rest (written ++ [entry.path planId]))
            (s.putPrd (entry.path planId) entry.prd)).prds (entry.path planId)).isSome
          rw [hkept]
          simp [PlanDisk.putPrd]
        · exact absurd hmem hrest

/-! ## All or nothing -/

/-- Every PRD path that the stored manifest names exists. -/
def NamesExist (s : PlanDisk) : Prop :=
  ∀ m, s.manifest = some m → ∀ c ∈ m.components, (s.prds (preRunPrdPath c)).isSome

/-- A decompose that fails leaves every file as it was, or at the least a manifest whose PRDs exist. -/
def AllOrNothing (before : PlanDisk) (result : Exit WriteError Unit × List Fault × PlanDisk) : Prop :=
  ∀ error, result.1 = .raised error →
    (result.2.2.manifest = before.manifest ∧ result.2.2.register = before.register ∧
        result.2.2.prds = before.prds) ∨ NamesExist result.2.2

/-- The run in which the write behind the first `n` fails, and no other. -/
def failing (n : ℕ) : List Fault := List.replicate n .pass ++ [.error]

section AllOrNothing

variable {number : ℕ} {d : Decompose} {planId : String} {n : ℕ} {s : PlanDisk}

lemma writePlan_of_raised {fs fs' : List Fault} {t : PlanDisk} {error : WriteError}
    (h : writeBody number d planId fs s = (.raised error, fs', t)) :
    writePlan number d planId fs s =
      (cleanup error.written >>= fun _ => raise { error with written := [] }) fs' t := by
  rw [writePlan, catching, h]

lemma cleanup_raise {paths : List PrdPath} {fs fs' : List Fault} {error : WriteError} {t u : PlanDisk}
    (h : cleanup paths fs t = (.done (), fs', u)) :
    (cleanup paths >>= fun _ => (raise error : Prog PlanDisk WriteError Unit)) fs t = (.raised error, fs', u) := by
  show Prog.bind (cleanup paths) _ fs t = _
  rw [Prog.bind, h]
  rfl

/-- A failure in front of the register's write leaves no trace. -/
lemma failing_early (number : ℕ) (hminted : Minted s planId) (hlock : d.lock ≠ .refused) (hn : n < d.registerWrite) :
    ∃ error, writePlan number d planId (failing n) s = (.raised error, [], s) := by
  have hlen := length_earlySteps d planId
  have hbound : n < (d.earlySteps planId ++ [d.manifestStep planId number, d.registerStep planId number]).length := by
    rw [List.length_append, List.length_cons, List.length_singleton]
    omega
  have hstep := List.getElem?_eq_getElem hbound
  obtain ⟨hwritten, happlied⟩ := early_error hn hstep s
  have hbody := congrFun (congrFun (writeBody_eq_script number planId hlock) (failing n)) s
  rw [failing, script_error hstep, happlied] at hbody
  refine ⟨_, (writePlan_of_raised hbody).trans (cleanup_raise ?_)⟩
  rw [hwritten, cleanup_undisturbed, removePrds_restores hminted]

/-- A failure of the register's write leaves the new manifest and takes its PRDs away. -/
lemma failing_register (number : ℕ) (hminted : Minted s planId) (hlock : d.lock ≠ .refused) :
    ∃ error, writePlan number d planId (failing d.registerWrite) s =
      (.raised error, [], s.saveManifest number (d.manifest planId)) := by
  have hlen := length_earlySteps d planId
  have hstep : (d.earlySteps planId ++ [d.manifestStep planId number, d.registerStep planId number])[d.registerWrite]? =
      some (d.registerStep planId number) := by
    rw [← hlen, List.getElem?_append_right (by omega), Nat.add_sub_cancel_left]
    rfl
  have hearly : applied (d.earlySteps planId) s = applied (prdSteps planId d.entries []) s := by
    rw [Decompose.earlySteps, applied_append]
    exact applied_keeps id (fun step hstep t => by rw [lockSteps_id step hstep]; rfl) _
  have hbody : writeBody number d planId (failing d.registerWrite) s = (.raised ⟨d.paths planId, "OSError"⟩, [],
      (applied (prdSteps planId d.entries []) s).saveManifest number (d.manifest planId)) := by
    rw [writeBody_eq_script number planId hlock, failing, script_error hstep, ← hlen, List.take_append,
      List.take_of_length_le (by omega), Nat.add_sub_cancel_left, applied_append, hearly]
    rfl
  refine ⟨_, (writePlan_of_raised hbody).trans (cleanup_raise ?_)⟩
  rw [cleanup_undisturbed]
  refine congrArg (fun t => (Exit.done (), [], t)) (PlanDisk.ext_stored ?_ ?_)
  · have hrestored := congrArg PlanDisk.prds (removePrds_restores hminted d.entries [])
    funext path
    rw [prds_removePrds]
    have hpath := congrFun hrestored path
    rw [prds_removePrds] at hpath
    exact hpath
  · rw [stored_removePrds]
    have hkept := applied_keeps PlanDisk.stored (prdSteps_keep planId d.entries []) s
    simp only [PlanDisk.stored, Prod.mk.injEq] at hkept
    simp only [PlanDisk.stored, PlanDisk.saveManifest, hkept]

/-- Without the lock a failure among the PRDs leaves no trace. -/
lemma refused_early (number : ℕ) (hminted : Minted s planId) (hlock : d.lock = .refused) (hn : n < d.entries.length) :
    ∃ error, writePlan number d planId (failing n) s = (.raised error, [], s) := by
  have hbound : n < (prdSteps planId d.entries []).length := by rwa [length_prdSteps]
  have hstep := List.getElem?_eq_getElem hbound
  have hbody : writeBody number d planId (failing n) s = (.raised ((prdSteps planId d.entries [])[n]).2, [],
      applied (prdSteps planId (d.entries.take n) []) s) := by
    rw [writeBody_eq_refused hlock, failing]
    show Prog.bind (script (prdSteps planId d.entries [])) _ _ s = _
    rw [Prog.bind, script_error hstep, prdSteps_take]
  refine ⟨_, (writePlan_of_raised hbody).trans (cleanup_raise ?_)⟩
  rw [prdSteps_written hstep, List.nil_append, cleanup_undisturbed, removePrds_restores hminted]

/-- Without the lock and with all PRDs written, the cleanup meets the failure, or it comes too late. -/
lemma refused_late (number : ℕ) (planId : String) (s : PlanDisk) (hlock : d.lock = .refused) (hn : d.entries.length ≤ n) :
    ∃ error fs', writePlan number d planId (failing n) s = (.raised error, fs',
      removePrds (if n < 2 * d.entries.length then (d.paths planId).eraseIdx (n - d.entries.length)
        else d.paths planId) (applied (prdSteps planId d.entries []) s)) := by
  have hpaths : (d.paths planId).length = d.entries.length := List.length_map ..
  have hbody : writeBody number d planId (failing n) s = (.raised ⟨d.paths planId, "FactoryLockHeldError"⟩,
      failing (n - d.entries.length), applied (prdSteps planId d.entries []) s) := by
    rw [writeBody_eq_refused hlock, failing]
    show Prog.bind (script (prdSteps planId d.entries [])) _ _ s = _
    rw [Prog.bind, script_before_error (by rwa [length_prdSteps]), length_prdSteps]
    rfl
  split_ifs with hcleanup
  · have hbound : n - d.entries.length < (d.paths planId).length := by omega
    exact ⟨_, _, (writePlan_of_raised hbody).trans (cleanup_raise (cleanup_error hbound _))⟩
  · have hbound : (d.paths planId).length ≤ n - d.entries.length := by omega
    exact ⟨_, _, (writePlan_of_raised hbody).trans (cleanup_raise (cleanup_before_error hbound _))⟩

/-- A manifest that was there before names no path of the plan. -/
lemma preRunPrdPath_notMem (d : Decompose) (hminted : Minted s planId) {m : Manifest} (hm : s.manifest = some m) {c : Component}
    (hc : c ∈ m.components) : preRunPrdPath c ∉ d.paths planId := by
  intro hmem
  obtain ⟨entry, -, hpath⟩ := List.mem_map.mp hmem
  have hother := hminted.unplanned m hm c hc
  rw [preRunPrdPath] at hpath
  split_ifs at hpath
  · rw [PlanEntry.path, PrdPath.planned.injEq] at hpath
    exact hother hpath.1.symm
  · cases hpath

lemma nodup_paths (d : Decompose) (planId : String) : (d.paths planId).Nodup := by
  have hmap : d.paths planId = (d.entries.map fun entry => entry.component.id).map (PrdPath.planned planId) := by
    rw [Decompose.paths, List.map_map]
    rfl
  rw [hmap]
  exact d.distinct.map fun _ _ h => (PrdPath.planned.inj h).2

/-- An unlink of the cleanup that fails leaves a PRD nothing names. -/
lemma refused_allOrNothing (hminted : Minted s planId) (hlock : d.lock = .refused) :
    AllOrNothing s (writePlan number d planId (failing n) s) ↔
      ¬ (d.entries.length ≤ n ∧ n < 2 * d.entries.length ∧ ¬ NamesExist s) := by
  rcases Nat.lt_or_ge n d.entries.length with hn | hn
  · obtain ⟨error, hrun⟩ := refused_early number hminted hlock hn
    rw [hrun]
    refine iff_of_true (fun _ _ => Or.inl ⟨rfl, rfl, rfl⟩) fun h => ?_
    omega
  · obtain ⟨error, fs', hrun⟩ := refused_late number planId s hlock hn
    rw [hrun]
    have hkept := applied_keeps PlanDisk.stored (prdSteps_keep planId d.entries []) s
    by_cases hcleanup : n < 2 * d.entries.length
    · rw [if_pos hcleanup]
      set t := removePrds ((d.paths planId).eraseIdx (n - d.entries.length))
        (applied (prdSteps planId d.entries []) s) with ht
      have hstored : t.stored = s.stored := by rw [ht, stored_removePrds, hkept]
      simp only [PlanDisk.stored, Prod.mk.injEq] at hstored
      have hbound : n - d.entries.length < (d.paths planId).length := by
        rw [Decompose.paths, List.length_map]
        omega
      have hleft : t.prds ((d.paths planId)[n - d.entries.length]) ≠
          s.prds ((d.paths planId)[n - d.entries.length]) := by
        obtain ⟨entry, -, hentry⟩ := List.mem_map.mp (List.getElem_mem hbound)
        have hnot : (d.paths planId)[n - d.entries.length] ∉ (d.paths planId).eraseIdx (n - d.entries.length) := by
          rw [List.mem_eraseIdx_iff_getElem]
          rintro ⟨j, hj, hne, heq⟩
          exact hne ((nodup_paths d planId).getElem_inj_iff.mp heq)
        have hsome := isSome_prdSteps (List.getElem_mem hbound) [] s
        rw [ht, prds_removePrds, if_neg hnot, ← hentry, PlanEntry.path, hminted.unwritten]
        rw [← hentry, PlanEntry.path] at hsome
        exact fun hnone => by rw [hnone] at hsome; cases hsome
      have hnames : NamesExist t ↔ NamesExist s := by
        unfold NamesExist
        rw [hstored.1]
        refine forall_congr' fun m => forall_congr' fun hm => forall_congr' fun c => forall_congr' fun hc => ?_
        have hnot := preRunPrdPath_notMem d hminted hm hc
        rw [ht, prds_removePrds, if_neg fun h => hnot (List.mem_of_mem_eraseIdx h), prds_prdSteps hnot]
      have hiff : AllOrNothing s (.raised error, fs', t) ↔ NamesExist s := by
        rw [← hnames]
        constructor
        · intro h
          exact (h error rfl).resolve_left fun hsame => hleft (congrFun hsame.2.2 _)
        · exact fun h _ _ => Or.inr h
      rw [hiff]
      tauto
    · rw [if_neg hcleanup, Decompose.paths, removePrds_restores hminted]
      exact iff_of_true (fun _ _ => Or.inl ⟨rfl, rfl, rfl⟩) fun h => hcleanup h.2.1

/-- **Writing a plan is all or nothing** with one failing write, exactly where that write is not the register's of
a plan with components; where the run lock is refused, also not an unlink of the cleanup while the earlier manifest
names a PRD that does not exist. -/
theorem writePlan_allOrNothing (number : ℕ) (d : Decompose) (planId : String) (n : ℕ) (s : PlanDisk)
    (hminted : Minted s planId) :
    AllOrNothing s (writePlan number d planId (failing n) s) ↔
      ¬ (d.lock ≠ .refused ∧ n = d.registerWrite ∧ d.entries ≠ []) ∧
        ¬ (d.lock = .refused ∧ d.entries.length ≤ n ∧ n < 2 * d.entries.length ∧ ¬ NamesExist s) := by
  by_cases hlock : d.lock = .refused
  · rw [refused_allOrNothing hminted hlock]
    simp [hlock]
  simp only [hlock, false_and, not_false_eq_true, and_true, ne_eq, true_and]
  rcases lt_trichotomy n d.registerWrite with hn | rfl | hn
  · obtain ⟨error, hrun⟩ := failing_early number hminted hlock hn
    rw [hrun]
    exact iff_of_true (fun _ _ => Or.inl ⟨rfl, rfl, rfl⟩) fun h => by omega
  · obtain ⟨error, hrun⟩ := failing_register number hminted hlock
    rw [hrun]
    by_cases hentries : d.entries = []
    · refine iff_of_true (fun _ _ => Or.inr ?_) fun h => h.2 hentries
      intro m hm c hc
      obtain rfl := Option.some.inj hm
      rw [Decompose.manifest, hentries] at hc
      cases hc
    · refine iff_of_false (fun h => ?_) fun h => h ⟨rfl, hentries⟩
      obtain ⟨entry, rest, hcons⟩ := List.exists_cons_of_ne_nil hentries
      have hmem : entry.manifestComponent planId ∈ (d.manifest planId).components := by
        rw [Decompose.manifest, hcons]
        exact List.mem_cons_self ..
      rcases h error rfl with ⟨hmanifest, -, -⟩ | hnames
      · exact hminted.unplanned _ hmanifest.symm _ hmem rfl
      · have hsome := hnames _ rfl _ hmem
        have hpath : preRunPrdPath (entry.manifestComponent planId) = .planned planId entry.component.id :=
          if_pos hminted.named
        rw [hpath] at hsome
        exact absurd hsome (by simp [PlanDisk.saveManifest, hminted.unwritten])
  · have hrun : ∃ fs' t, writePlan number d planId (failing n) s = (.done (), fs', t) := by
      have hlen := length_earlySteps d planId
      have hbody := congrFun (congrFun (writeBody_eq_script number planId hlock) (failing n)) s
      rw [failing, script_before_error (by rw [List.length_append, List.length_cons, List.length_singleton]; omega)]
        at hbody
      exact ⟨_, _, by rw [writePlan, catching, failing, hbody]⟩
    obtain ⟨fs', t, hrun⟩ := hrun
    rw [hrun]
    exact iff_of_true (fun _ h => nomatch h) fun h => by omega

end AllOrNothing

/-- A plan of one component. -/
def onePlan : Decompose where
  entries := [{ component := ⟨"auth", "Auth", "Sign in.", []⟩, branchName := "kstrl/factory/auth", prd := .obj [] }]
  distinct := by decide
  projectName := "shop"
  specFile := "spec.md"
  pin := "5f2b"

/-- A project without a plan. -/
def noPlan : PlanDisk where
  prds := fun _ => none
  manifest := none
  register := .missing
  manifestBy := none
  registerBy := none

lemma noPlan_minted : Minted noPlan "decompose-1" :=
  ⟨by decide, fun _ => rfl, fun _ h => nomatch h⟩

/-- A failing PRD leaves a project without a plan as it was. -/
theorem writePlan_allOrNothing_first : AllOrNothing noPlan (writePlan 0 onePlan "decompose-1" (failing 0) noPlan) :=
  (writePlan_allOrNothing 0 onePlan "decompose-1" 0 noPlan noPlan_minted).mpr
    ⟨fun h => absurd h.2.1 (by decide), fun h => absurd h.1 (by decide)⟩

/-- A register that cannot be written leaves a manifest that names a PRD the cleanup removed. -/
theorem register_failure_strands_manifest :
    Minted noPlan "decompose-1" ∧
      ¬ AllOrNothing noPlan (writePlan 0 onePlan "decompose-1" (failing 3) noPlan) := by
  refine ⟨noPlan_minted, fun h => ?_⟩
  rcases h _ rfl with ⟨hmanifest, -, -⟩ | hnames
  · cases hmanifest
  · have hsome := hnames _ rfl _ (List.mem_cons_self ..)
    exact absurd hsome (by decide)

/-! ## Which register binds -/

/-- The register that `bind_register` returns for the stored manifest. -/
def boundRegister (s : PlanDisk) (m : Manifest) : Except String DecisionRegister :=
  bindRegister (readDecisions s.register) m.projectName m.specFile m.specDigest

/-- Whatever binds the stored manifest was written by the decompose that wrote it. -/
def BindsOwn (s : PlanDisk) : Prop :=
  ∀ m register, s.manifest = some m → boundRegister s m = .ok register → register.status = .ok →
    ∃ number, s.manifestBy = some number ∧ s.registerBy = some number

/-- A decompose that is cut off when the manifest is saved and the register is not. -/
structure CutBeforeRegister (d : Decompose) (faults : List Fault) : Prop where
  decomposed : escalations d.decisions = []
  locked : d.lock ≠ .refused
  /-- the process outlives the spec issues -/
  audited : faults[0]? ≠ some .crash
  saved : ∀ n < d.registerWrite, faults[n + 1]? = some .pass
  cut : faults[d.registerWrite + 1]? = some .error ∨ faults[d.registerWrite + 1]? = some .crash

/-- How a decompose leaves the manifest and the register. -/
inductive Left (number : ℕ) (d : Decompose) (planId : String) (faults : List Fault) (s t : PlanDisk) : Prop where
  | kept (h : t.stored = s.stored)
  | halted (h : t.stored = (s.commitRegister number (d.registerDocument true)).stored)
  | cut (hcut : CutBeforeRegister d faults) (h : t.stored = (s.saveManifest number (d.manifest planId)).stored)
  | written (h : t.stored =
      ((s.saveManifest number (d.manifest planId)).commitRegister number (d.registerDocument false)).stored)

lemma stored_cleanup (paths : List PrdPath) (fs : List Fault) (s : PlanDisk) :
    (cleanup paths fs s).2.2.stored = s.stored := by
  induction paths generalizing fs s with
  | nil => rfl
  | cons path rest ih =>
      match fs with
      | [] => exact ih [] (s.removePrd path)
      | .pass :: fs => exact ih fs (s.removePrd path)
      | .error :: fs => exact ih fs s
      | .crash :: fs => rfl

/-- The cleanup leaves the manifest and the register as the body left them. -/
lemma stored_writePlan (number : ℕ) (d : Decompose) (planId : String) (fs : List Fault) (s : PlanDisk) :
    (writePlan number d planId fs s).2.2.stored = (writeBody number d planId fs s).2.2.stored := by
  rw [writePlan, catching]
  rcases writeBody number d planId fs s with ⟨_ | error | _, fs', t⟩
  · rfl
  · show (Prog.bind (cleanup error.written) _ fs' t).2.2.stored = t.stored
    rw [Prog.bind, ← stored_cleanup error.written fs' t]
    rcases cleanup error.written fs' t with ⟨_ | _ | _, fs'', u⟩ <;> rfl
  · rfl

/-- The manifest and the register after the first writes of the body. -/
lemma stored_script_take (number : ℕ) (d : Decompose) (planId : String) (n : ℕ) (s : PlanDisk) :
    n < d.registerWrite →
      (applied ((d.earlySteps planId ++ [d.manifestStep planId number, d.registerStep planId number]).take n) s).stored =
        s.stored := by
  intro hn
  have hlen := length_earlySteps d planId
  rw [List.take_append_of_le_length (by omega)]
  exact applied_keeps PlanDisk.stored (fun step hstep => earlySteps_keep step (List.mem_of_mem_take hstep)) s

lemma stored_saveManifest {number : ℕ} {m : Manifest} {s t : PlanDisk} (h : t.stored = s.stored) :
    (t.saveManifest number m).stored = (s.saveManifest number m).stored := by
  simp only [PlanDisk.stored, Prod.mk.injEq] at h
  simp only [PlanDisk.stored, PlanDisk.saveManifest, h]

/-- **One plan write**: it is as before, the manifest alone is new, or both files are. -/
lemma writePlan_left (number : ℕ) (d : Decompose) (planId : String) (fs : List Fault) (s : PlanDisk) :
    (writePlan number d planId fs s).2.2.stored = s.stored ∨
      (d.lock ≠ .refused ∧ (∀ n < d.registerWrite, fs[n]? = some .pass) ∧
        (fs[d.registerWrite]? = some .error ∨ fs[d.registerWrite]? = some .crash) ∧
        (writePlan number d planId fs s).2.2.stored = (s.saveManifest number (d.manifest planId)).stored) ∨
      (writePlan number d planId fs s).2.2.stored =
        ((s.saveManifest number (d.manifest planId)).commitRegister number (d.registerDocument false)).stored := by
  rw [stored_writePlan]
  by_cases hlock : d.lock = .refused
  · refine Or.inl ?_
    rw [writeBody_eq_refused hlock]
    show (Prog.bind (script (prdSteps planId d.entries [])) _ fs s).2.2.stored = s.stored
    have hkept (n : ℕ) : (applied ((prdSteps planId d.entries []).take n) s).stored = s.stored :=
      applied_keeps PlanDisk.stored (fun step hstep => prdSteps_keep _ _ _ step (List.mem_of_mem_take hstep)) s
    rcases script_cases (prdSteps planId d.entries []) fs s with hrun | ⟨n, step, -, -, ⟨-, hrun⟩ | ⟨-, hrun⟩⟩
    · rw [Prog.bind, hrun]
      exact applied_keeps PlanDisk.stored (prdSteps_keep _ _ _) s
    · rw [Prog.bind, hrun]
      exact hkept n
    · rw [Prog.bind, hrun]
      exact hkept n
  rw [writeBody_eq_script number planId hlock]
  have hlen := length_earlySteps d planId
  have hearly : (applied (d.earlySteps planId) s).stored = s.stored :=
    applied_keeps PlanDisk.stored earlySteps_keep s
  have hstop (n : ℕ) (hn : n ≤ d.registerWrite) (hpass : ∀ m < n, fs[m]? = some .pass)
      (hfault : fs[n]? = some .error ∨ fs[n]? = some .crash) {t : PlanDisk} (ht : t = applied ((d.earlySteps planId ++
        [d.manifestStep planId number, d.registerStep planId number]).take n) s) :
      t.stored = s.stored ∨ (d.lock ≠ .refused ∧ (∀ n < d.registerWrite, fs[n]? = some .pass) ∧
        (fs[d.registerWrite]? = some .error ∨ fs[d.registerWrite]? = some .crash) ∧
        t.stored = (s.saveManifest number (d.manifest planId)).stored) := by
    rcases hn.lt_or_eq with hlt | rfl
    · exact Or.inl (by rw [ht, stored_script_take number d planId n s hlt])
    · refine Or.inr ⟨hlock, hpass, hfault, ?_⟩
      rw [ht, ← hlen, List.take_append, List.take_of_length_le (by omega), Nat.add_sub_cancel_left, applied_append]
      exact stored_saveManifest hearly
  rcases script_cases (d.earlySteps planId ++ [d.manifestStep planId number, d.registerStep planId number]) fs s with
    hrun | ⟨n, step, hstep, hpass, hend⟩
  · rw [hrun, applied_append]
    refine Or.inr (Or.inr ?_)
    simp only [PlanDisk.stored, Prod.mk.injEq] at hearly
    simp only [applied, List.foldl_cons, List.foldl_nil, Decompose.manifestStep, Decompose.registerStep,
      PlanDisk.saveManifest, PlanDisk.commitRegister, PlanDisk.stored]
  · have hn : n ≤ d.registerWrite := by
      have hbound := (List.getElem?_eq_some_iff.mp hstep).1
      rw [List.length_append, List.length_cons, List.length_singleton] at hbound
      omega
    rw [← or_assoc]
    rcases hend with ⟨hfault, hrun⟩ | ⟨hfault, hrun⟩
    · rw [hrun]
      exact Or.inl (hstop n hn hpass (Or.inl hfault) rfl)
    · rw [hrun]
      exact Or.inl (hstop n hn hpass (Or.inr hfault) rfl)

/-- What follows the spec issues, for a process that outlives them. -/
lemma audited_left (number : ℕ) (d : Decompose) (planId : String) {fs : List Fault} (s : PlanDisk)
    (haudited : fs[0]? ≠ some .crash)
    (hrun : decompose number d planId fs s =
      (if (escalations d.decisions).isEmpty then writePlan number d planId
        else writeQuiet (PlanDisk.commitRegister number (d.registerDocument true)) >>= fun _ =>
          raise ⟨[], "SpecBlockerError"⟩) fs.tail s) :
    Left number d planId fs s (decompose number d planId fs s).2.2 := by
  rw [hrun]
  by_cases hhalt : (escalations d.decisions).isEmpty = true
  · rw [if_pos hhalt]
    rcases writePlan_left number d planId fs.tail s with hkept | ⟨hlock, hpass, hfault, hcut⟩ | hwritten
    · exact .kept hkept
    · refine .cut ⟨List.isEmpty_iff.mp hhalt, hlock, haudited, ?_, ?_⟩ hcut
      · simpa only [List.getElem?_tail] using hpass
      · simpa only [List.getElem?_tail] using hfault
    · exact .written hwritten
  · rw [if_neg hhalt]
    match fs.tail with
    | [] => exact .halted rfl
    | .pass :: _ => exact .halted rfl
    | .error :: _ => exact .kept rfl
    | .crash :: _ => exact .kept rfl

/-- **One decompose** leaves the manifest alone new only where it is cut off in front of the register. -/
lemma decompose_left (number : ℕ) (d : Decompose) (planId : String) (fs : List Fault) (s : PlanDisk) :
    Left number d planId fs s (decompose number d planId fs s).2.2 := by
  match fs with
  | [] => exact audited_left number d planId s (by simp) rfl
  | .pass :: fs => exact audited_left number d planId s (by simp) rfl
  | .error :: fs => exact audited_left number d planId s (by simp) rfl
  | .crash :: fs => exact .kept rfl

/-! ### Runs -/

/-- A project, and the number of decomposes there were. -/
structure Project where
  disk : PlanDisk
  decomposes : ℕ

/-- One decompose, with what becomes of its writes. -/
structure Attempt where
  plan : Decompose
  planId : String
  faults : List Fault

def Project.attempt (p : Project) (a : Attempt) : Project :=
  ⟨(decompose p.decomposes a.plan a.planId a.faults p.disk).2.2, p.decomposes + 1⟩

/-- The register in the project is readable, not halted, and under the plan's project and spec. -/
def MatchesPlan (s : PlanDisk) (d : Decompose) : Prop :=
  Matches (readDecisions s.register) d.projectName d.specFile d.pin

/-- No decompose is cut off between its manifest and its register while the old register matches its plan. -/
def NotTorn (p : Project) (a : Attempt) : Prop := ¬ (CutBeforeRegister a.plan a.faults ∧ MatchesPlan p.disk a.plan)

lemma bindsOwn_of_stored {s t : PlanDisk} (h : t.stored = s.stored) (hs : BindsOwn s) : BindsOwn t := by
  simp only [PlanDisk.stored, Prod.mk.injEq] at h
  obtain ⟨hmanifest, hregister, hmanifestBy, hregisterBy⟩ := h
  intro m register hm hbound hok
  rw [hmanifest] at hm
  rw [boundRegister, hregister] at hbound
  rw [hmanifestBy, hregisterBy]
  exact hs m register hm hbound hok

/-- One decompose keeps the property unless it is torn. -/
lemma bindsOwn_attempt {p : Project} {a : Attempt} (hp : BindsOwn p.disk) (hcond : NotTorn p a) :
    BindsOwn (p.attempt a).disk := by
  rcases decompose_left p.decomposes a.plan a.planId a.faults p.disk with h | h | ⟨hcut, h⟩ | h
  · exact bindsOwn_of_stored h hp
  · refine bindsOwn_of_stored h ?_
    intro m register _ hbound hok
    obtain ⟨-, hmatches⟩ := bindRegister_ok hbound hok
    exact absurd hmatches (not_matches_of_halted rfl)
  · refine bindsOwn_of_stored h ?_
    intro m register hm hbound hok
    obtain rfl := Option.some.inj hm
    exact absurd ⟨hcut, (bindRegister_ok hbound hok).2⟩ hcond
  · exact bindsOwn_of_stored h fun _ _ _ _ _ => ⟨p.decomposes, rfl, rfl⟩

/-- **The register a run binds is the plan's own**: over all decomposes of a project that starts without a
manifest, each finished, failed or killed at any write, as long as none is torn. -/
theorem bound_register_own (start p : Project) (hstart : start.disk.manifest = none)
    (hrun : Runs.Reaches (fun p a q => p.attempt a = q) NotTorn start p) : BindsOwn p.disk := by
  refine hrun.invariant (I := fun p => BindsOwn p.disk) ?_ ?_
  · intro m _ hm _ _
    rw [hstart] at hm
    cases hm
  · rintro p a q hp hcond rfl
    exact bindsOwn_attempt hp hcond

/-- The project after one decompose that finished. -/
def planned : Project := Project.attempt ⟨noPlan, 0⟩ ⟨onePlan, "decompose-1", []⟩

lemma planned_bound : ∃ m register, planned.disk.manifest = some m ∧ boundRegister planned.disk m = .ok register ∧
    register.status = .ok := ⟨_, _, rfl, rfl, rfl⟩

/-- After one decompose its register binds its manifest. -/
theorem bound_register_own_first : ∃ m register, planned.disk.manifest = some m ∧
    boundRegister planned.disk m = .ok register ∧
      ∃ number, planned.disk.manifestBy = some number ∧ planned.disk.registerBy = some number := by
  obtain ⟨m, register, hm, hbound, hok⟩ := planned_bound
  refine ⟨m, register, hm, hbound, bound_register_own ⟨noPlan, 0⟩ planned rfl (.single ?_ rfl) m register hm
    hbound hok⟩
  exact fun h => absurd h.1.cut (by simp)

/-- **A torn decompose**: the second decompose of one text is killed behind its manifest, and the register of the
first binds it. -/
theorem torn_decompose_binds_older : ∃ p : Project,
    Runs.Reaches (fun p a q => Project.attempt p a = q) Runs.Always ⟨noPlan, 0⟩ p ∧ ¬ BindsOwn p.disk := by
  refine ⟨planned.attempt ⟨onePlan, "decompose-2", [.pass, .pass, .pass, .pass, .crash]⟩,
    .tail (.single trivial rfl) trivial rfl, fun h => ?_⟩
  obtain ⟨number, hmanifest, hregister⟩ := h _ _ rfl rfl rfl
  have hone : some 1 = some number := hmanifest
  have hzero : some 0 = some number := hregister
  rw [← hzero] at hone
  cases hone

end Kstrl.Architect
