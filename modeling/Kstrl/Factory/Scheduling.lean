import Kstrl.Base.Runs
import Kstrl.Base.WorkerPool
import Kstrl.Plan.Manifest
import Mathlib.Data.Rat.Defs

/-!
# The scheduling loop and its backstop

`_run_scheduling_pass` of `kstrl/factory/factory.py` with `_fill_slots`, `_await_next`, `_collect_completion`
and `_fail_expired`, over a pool of workers that goes on while the loop does something else.  A run has one
pass after another; each has a pool of its own.

What the pipeline makes of the manifest between two launches is left open: a step carries the manifest that
comes out.  Times are rational numbers of seconds.

* **`Pass.next`** is the system.
* **`backstop_sound`**: where every component is submitted to a pool with a free worker, the backstop fails
  the components alone whose worker ran for the whole window.
* `waiting_component_failed` is a run in which a component fails that never ran.
-/

namespace Kstrl

namespace Factory

open WorkerPool

/-! ## The loop -/

/-- Where the loop is. -/
inductive Stage where
  | top
  /-- components to launch, and how many changed state with no launch -/
  | filling (ready : List Component) (transitioned : ℕ)
  /-- a component is submitted and its deadline is not set -/
  | arming (future : ℕ) (ready : List Component) (transitioned : ℕ)
  | waiting
  /-- the wait timed out -/
  | expiring
  | ended
  | stopped

/-- A component the backstop failed. -/
structure BackstopFailure where
  component : String
  job : Job ℚ
  deadline : ℚ
  failedAt : ℚ

/-- The part of `_PassContext` the loop reads. -/
structure PassContext where
  maxParallel : ℤ
  backstopSeconds : ℚ

/-- `slots_cap`, and the workers of the pool. -/
def PassContext.slotsCap (ctx : PassContext) : ℕ := (max 1 ctx.maxParallel).toNat

/-- `_new_executor`: whether the worker runs inside `submit`. -/
def PassContext.inline (ctx : PassContext) : Bool := ctx.maxParallel ≤ 1

structure Pass where
  clock : ℚ
  manifest : Manifest
  pool : Pool ℚ
  /-- `running_futures`: the place in the pool, and the component -/
  running : List (ℕ × String)
  /-- `future_deadlines` -/
  deadlines : List (ℕ × ℚ)
  leaked : List String
  scheduled : List String
  stage : Stage
  /-- what the backstop did -/
  failures : List BackstopFailure

namespace Pass

/-- The start of a run. -/
def init (m : Manifest) (clock : ℚ) : Pass where
  clock := clock
  manifest := m
  pool := []
  running := []
  deadlines := []
  leaked := []
  scheduled := []
  stage := .top
  failures := []

/-- What a step is. -/
inductive Action where
  | tick (seconds : ℚ)
  /-- a worker returns -/
  | ret (future : ℕ)
  | top
  /-- refused before the launch, or no worktree -/
  | refuse (m : Manifest)
  | submit (m : Manifest)
  | arm
  | wait
  | collect (future : ℕ) (m : Manifest)
  | timeout
  | expire (now : String) (worktreePaths : String → Option String)
  | stop (m : Manifest)
  /-- the next pass, behind a contract round -/
  | newPass (m : Manifest)

variable (ctx : PassContext) (s : Pass)

/-- `future.done()`. -/
def done (future : ℕ) : Bool := s.pool[future]?.any fun t => t.ended.isSome

/-- `_expired_futures`. -/
def expiredFutures : List (ℕ × String) :=
  s.running.filter fun r => !s.done r.1 && (s.deadlines.lookup r.1).any fun deadline => deadline ≤ s.clock

/-- The failure fields `fail_scheduler_backstop` writes. -/
def timedOut (now : String) (worktree : Option String) (c : Component) : Component :=
  { c with
    status := .failed
    error := "component timeout"
    completedAt := now
    failedPhase := "engineer"
    failedCheck := "scheduler_backstop"
    evidenceWorktree := worktree.getD c.evidenceWorktree }

/-- `fail_scheduler_backstop`: what it does to the manifest. -/
def failSchedulerBackstop (now : String) (worktreePaths : String → Option String) (m : Manifest)
    (componentId : String) : Manifest :=
  if (m.getComponent componentId).isSome then
    ((m.update componentId (timedOut now (worktreePaths componentId))).cascadeSkip componentId now).1
  else m

/-- The record of a failure. -/
def record (r : ℕ × String) : Option BackstopFailure :=
  (s.pool[r.1]?).bind fun job => (s.deadlines.lookup r.1).map fun deadline =>
    { component := r.2, job := job, deadline := deadline, failedAt := s.clock }

/-- `_fail_expired`. -/
def failExpired (now : String) (worktreePaths : String → Option String) : Pass :=
  let expired := s.expiredFutures
  { s with
    running := s.running.filter (· ∉ expired)
    deadlines := s.deadlines.filter fun d => d.1 ∉ expired.map Prod.fst
    leaked := s.leaked ++ expired.map Prod.snd
    manifest := (expired.map Prod.snd).foldl (failSchedulerBackstop now worktreePaths) s.manifest
    stage := .top
    failures := s.failures ++ expired.filterMap s.record }

/-- `executor.submit`. -/
def submitComponent (c : Component) (rest : List Component) (transitioned : ℕ) (m : Manifest) : Pass :=
  { s with
    manifest := m
    pool := submit ctx.slotsCap s.clock s.pool
    running := s.running ++ [(s.pool.length, c.id)]
    scheduled := s.scheduled ++ [c.id]
    stage := .arming s.pool.length rest transitioned }

/-- One step; `none` where it is not the step's turn. -/
def next : Action → Option Pass
  | .tick seconds => if 0 ≤ seconds then some { s with clock := s.clock + seconds } else none
  | .ret future => some { s with pool := finish ctx.slotsCap s.clock future s.pool }
  | .newPass m =>
      match s.stage with
      | .ended => some { s with manifest := m, pool := [], running := [], deadlines := [], stage := .top }
      | _ => none
  | .top =>
      match s.stage with
      | .top => some { s with
          stage := .filling (s.manifest.getReadyComponents.take (ctx.slotsCap - s.running.length)) 0 }
      | _ => none
  | .refuse m =>
      match s.stage with
      | .filling (_ :: rest) transitioned =>
          some { s with manifest := m, stage := .filling rest (transitioned + 1) }
      | _ => none
  | .submit m =>
      match s.stage with
      | .filling (c :: rest) transitioned => some (s.submitComponent ctx c rest transitioned m)
      | _ => none
  | .arm =>
      match s.stage with
      | .arming future rest transitioned =>
          -- an inline worker has returned when `submit` has
          if ctx.inline ∧ ¬ s.done future then none
          else some { s with
            deadlines :=
              if 0 < ctx.backstopSeconds then s.deadlines ++ [(future, s.clock + ctx.backstopSeconds)]
              else s.deadlines
            stage := .filling rest transitioned }
      | _ => none
  | .wait =>
      match s.stage with
      | .filling [] transitioned =>
          if s.running ≠ [] then some { s with stage := .waiting }
          else if transitioned ≠ 0 then some { s with stage := .top }
          else some { s with stage := .ended }
      | _ => none
  | .collect future m =>
      match s.stage with
      | .waiting =>
          if s.done future ∧ future ∈ s.running.map Prod.fst then
            some { s with
              running := s.running.filter (·.1 ≠ future)
              deadlines := s.deadlines.filter (·.1 ≠ future)
              manifest := m
              stage := .top }
          else none
      | _ => none
  | .timeout =>
      match s.stage with
      | .waiting =>
          if (∀ r ∈ s.running, s.done r.1 = false) ∧ s.deadlines ≠ [] then some { s with stage := .expiring }
          else none
      | _ => none
  | .expire now worktreePaths =>
      match s.stage with
      | .expiring => some (s.failExpired now worktreePaths)
      | _ => none
  | .stop m =>
      match s.stage with
      | .top | .waiting => some { s with manifest := m, running := [], stage := .stopped }
      | _ => none

/-- The transition relation. -/
def Step (s : Pass) (a : Action) (s' : Pass) : Prop := s.next ctx a = some s'

/-! ## The window -/

end Pass

/-- The worker of a failed component ran for the whole window before the deadline. -/
def BackstopFailure.RanWholeWindow (ctx : PassContext) (f : BackstopFailure) : Prop :=
  ∃ start, f.job.started = some start ∧ start + ctx.backstopSeconds ≤ f.deadline ∧ f.deadline ≤ f.failedAt ∧
    f.job.ended = none

namespace Pass

/-- A component is submitted to a pool with a free worker. -/
def FreeWorker (ctx : PassContext) (s : Pass) : Action → Prop
  | .submit _ => s.pool.countP Job.unfinished < ctx.slotsCap
  | _ => True

instance (ctx : PassContext) (s : Pass) : (a : Action) → Decidable (FreeWorker ctx s a)
  | .submit _ => inferInstanceAs (Decidable (s.pool.countP Job.unfinished < ctx.slotsCap))
  | .tick _ | .ret _ | .top | .refuse _ | .arm | .wait | .collect _ _ | .timeout | .expire _ _ | .stop _
  | .newPass _ => isTrue trivial

/-- **The invariant.** -/
structure Sound (ctx : PassContext) (s : Pass) : Prop where
  prompt : Prompt s.pool
  armed : ∀ d ∈ s.deadlines, ∃ t, s.pool[d.1]? = some t ∧ t.submitted + ctx.backstopSeconds ≤ d.2
  arming : ∀ future ready transitioned, s.stage = .arming future ready transitioned →
    ∃ t, s.pool[future]? = some t ∧ t.submitted ≤ s.clock
  failures : ∀ f ∈ s.failures, f.RanWholeWindow ctx

variable {ctx : PassContext} {s s' : Pass}

lemma sound_init (m : Manifest) (clock : ℚ) : Sound ctx (init m clock) where
  prompt _ ht := by cases ht
  armed _ hd := by cases hd
  arming _ _ _ hstage := by cases hstage
  failures _ hf := by cases hf

/-- A step that leaves the pool and the failures, and sets no deadline. -/
lemma Sound.of_same (h : Sound ctx s) (hpool : s'.pool = s.pool) (hdeadlines : ∀ d ∈ s'.deadlines, d ∈ s.deadlines)
    (hclock : s.clock ≤ s'.clock) (hfailures : s'.failures = s.failures)
    (hstage : ∀ future ready transitioned, s'.stage = .arming future ready transitioned →
      s.stage = .arming future ready transitioned) : Sound ctx s' where
  prompt := hpool ▸ h.prompt
  armed d hd := hpool ▸ h.armed d (hdeadlines d hd)
  arming future ready transitioned harming := by
    obtain ⟨t, ht, hsubmitted⟩ := h.arming future ready transitioned (hstage _ _ _ harming)
    exact ⟨t, hpool ▸ ht, hsubmitted.trans hclock⟩
  failures := hfailures ▸ h.failures

/-- A worker that returns. -/
lemma sound_ret (h : Sound ctx s) (future : ℕ) :
    Sound ctx { s with pool := finish ctx.slotsCap s.clock future s.pool } where
  prompt := prompt_finish h.prompt future
  armed d hd := by
    obtain ⟨t, ht, hdeadline⟩ := h.armed d hd
    obtain ⟨u, hu, hsubmitted, -⟩ := getElem?_finish ctx.slotsCap s.clock h.prompt future ht
    exact ⟨u, hu, hsubmitted ▸ hdeadline⟩
  arming i ready transitioned hstage := by
    obtain ⟨t, ht, hclock⟩ := h.arming i ready transitioned hstage
    obtain ⟨u, hu, hsubmitted, -⟩ := getElem?_finish ctx.slotsCap s.clock h.prompt future ht
    exact ⟨u, hu, hsubmitted ▸ hclock⟩
  failures := h.failures

/-- A component that finds a free worker starts at once. -/
lemma sound_submit (h : Sound ctx s) (hfree : s.pool.countP Job.unfinished < ctx.slotsCap) (c : Component)
    (rest : List Component) (transitioned : ℕ) (m : Manifest) :
    Sound ctx (s.submitComponent ctx c rest transitioned m) := by
  have hpool : (s.submitComponent ctx c rest transitioned m).pool
      = s.pool ++ [{ submitted := s.clock, started := some s.clock, ended := none }] :=
    submit_eq h.prompt hfree
  exact
    { prompt := prompt_submit h.prompt hfree
      armed := fun d hd => by
        obtain ⟨t, ht, hdeadline⟩ := h.armed d hd
        refine ⟨t, ?_, hdeadline⟩
        rw [hpool, List.getElem?_append_left (List.getElem?_eq_some_iff.mp ht).1]
        exact ht
      arming := fun future ready transitioned' hstage => by
        cases hstage
        refine ⟨{ submitted := s.clock, started := some s.clock, ended := none }, ?_, le_refl s.clock⟩
        rw [hpool, List.getElem?_concat_length]
      failures := h.failures }

lemma sound_arm (h : Sound ctx s) {future : ℕ} {ready : List Component} {transitioned : ℕ}
    (hstage : s.stage = .arming future ready transitioned) :
    Sound ctx { s with
      deadlines :=
        if 0 < ctx.backstopSeconds then s.deadlines ++ [(future, s.clock + ctx.backstopSeconds)]
        else s.deadlines
      stage := .filling ready transitioned } where
  prompt := h.prompt
  armed d hd := by
    simp only at hd
    split_ifs at hd
    · rcases List.mem_append.mp hd with hd | hd
      · exact h.armed d hd
      · rw [List.mem_singleton.mp hd]
        obtain ⟨t, ht, hclock⟩ := h.arming future ready transitioned hstage
        exact ⟨t, ht, add_le_add_left hclock _⟩
    · exact h.armed d hd
  arming _ _ _ hfilling := by cases hfilling
  failures := h.failures

/-- **What the backstop fails ran for the whole window.** -/
lemma sound_expire (h : Sound ctx s) (now : String) (worktreePaths : String → Option String) :
    Sound ctx (s.failExpired now worktreePaths) where
  prompt := h.prompt
  armed d hd := h.armed d (List.mem_of_mem_filter hd)
  arming _ _ _ hstage := by cases hstage
  failures f hf := by
    rcases List.mem_append.mp hf with hf | hf
    · exact h.failures f hf
    obtain ⟨r, hr, hrecord⟩ := List.mem_filterMap.mp hf
    obtain ⟨job, hjob, hrecord⟩ := Option.bind_eq_some_iff.mp hrecord
    obtain ⟨deadline, hdeadline, rfl⟩ := Option.map_eq_some_iff.mp hrecord
    obtain ⟨-, hexpired⟩ := List.mem_filter.mp hr
    rw [hdeadline, Bool.and_eq_true] at hexpired
    have hmem : (r.1, deadline) ∈ s.deadlines := by
      obtain ⟨before, after, hsplit, -⟩ := List.lookup_eq_some_iff.mp hdeadline
      rw [hsplit]
      simp
    obtain ⟨t, ht, hwindow⟩ := h.armed _ hmem
    have hsame : t = job := Option.some.inj (ht.symm.trans hjob)
    subst hsame
    refine ⟨t.submitted, h.prompt t (List.mem_of_getElem? ht), hwindow, ?_, ?_⟩
    · simpa using hexpired.2
    · have hdone := hexpired.1
      simp only [done, ht, Option.any_some, Bool.not_eq_true', Option.isSome_eq_false_iff,
        Option.isNone_iff_eq_none] at hdone
      exact hdone

/-- **Every step keeps the invariant.** -/
theorem sound_next (h : Sound ctx s) {a : Action} (hfree : FreeWorker ctx s a) (hstep : Step ctx s a s') :
    Sound ctx s' := by
  unfold Step next at hstep
  cases a with
  | tick seconds =>
      simp only at hstep
      split_ifs at hstep with hseconds
      cases hstep
      exact h.of_same rfl (fun _ hd => hd) (le_add_of_nonneg_right hseconds) rfl fun _ _ _ hs => hs
  | ret future =>
      cases hstep
      exact sound_ret h future
  | newPass m =>
      cases hstage : s.stage <;> rw [hstage] at hstep <;> cases hstep
      exact
        { prompt := fun _ ht => by cases ht
          armed := fun _ hd => by cases hd
          arming := fun _ _ _ hs => by cases hs
          failures := h.failures }
  | top =>
      cases hstage : s.stage <;> rw [hstage] at hstep <;> cases hstep
      exact h.of_same rfl (fun _ hd => hd) (le_refl _) rfl nofun
  | refuse m =>
      cases hstage : s.stage with
      | filling ready transitioned =>
          rw [hstage] at hstep
          cases ready <;> cases hstep
          exact h.of_same rfl (fun _ hd => hd) (le_refl _) rfl nofun
      | _ => rw [hstage] at hstep; cases hstep
  | submit m =>
      cases hstage : s.stage with
      | filling ready transitioned =>
          rw [hstage] at hstep
          cases ready <;> cases hstep
          exact sound_submit h hfree _ _ _ m
      | _ => rw [hstage] at hstep; cases hstep
  | arm =>
      cases hstage : s.stage with
      | arming future ready transitioned =>
          rw [hstage] at hstep
          by_cases hinline : ctx.inline ∧ ¬ s.done future
          · exact absurd ((if_pos hinline).symm.trans hstep) nofun
          · cases (if_neg hinline).symm.trans hstep
            exact sound_arm h hstage
      | _ => rw [hstage] at hstep; cases hstep
  | wait =>
      cases hstage : s.stage with
      | filling ready transitioned =>
          rw [hstage] at hstep
          cases ready with
          | nil =>
              simp only at hstep
              split_ifs at hstep <;> cases hstep <;>
                exact h.of_same rfl (fun _ hd => hd) (le_refl _) rfl nofun
          | cons => cases hstep
      | _ => rw [hstage] at hstep; cases hstep
  | collect future m =>
      cases hstage : s.stage with
      | waiting =>
          rw [hstage] at hstep
          simp only at hstep
          split_ifs at hstep
          cases hstep
          exact h.of_same rfl (fun _ hd => List.mem_of_mem_filter hd) (le_refl _) rfl nofun
      | _ => rw [hstage] at hstep; cases hstep
  | timeout =>
      cases hstage : s.stage with
      | waiting =>
          rw [hstage] at hstep
          simp only at hstep
          split_ifs at hstep
          cases hstep
          exact h.of_same rfl (fun _ hd => hd) (le_refl _) rfl nofun
      | _ => rw [hstage] at hstep; cases hstep
  | expire now worktreePaths =>
      cases hstage : s.stage <;> rw [hstage] at hstep <;> cases hstep
      exact sound_expire h now worktreePaths
  | stop m =>
      cases hstage : s.stage <;> rw [hstage] at hstep <;> cases hstep <;>
        exact h.of_same rfl (fun _ hd => hd) (le_refl _) rfl nofun

/-- **The backstop fails hung workers alone**, in every run that submits each component to a pool with a free
worker. -/
theorem backstop_sound {m : Manifest} {clock : ℚ}
    (run : Runs.Reaches (Step ctx) (FreeWorker ctx) (init m clock) s) :
    ∀ f ∈ s.failures, f.RanWholeWindow ctx :=
  (run.invariant (sound_init m clock) fun _ _ _ hsound hfree hstep => sound_next hsound hfree hstep).failures

/-! ## Two runs -/

/-- Three components, of which two can run at once, and a window of ten seconds. -/
def threeComponents : Manifest := { components := [{ id := "a" }, { id := "b" }, { id := "c" }] }

def twoWorkers : PassContext := { maxParallel := 2, backstopSeconds := 10 }

/-- `threeComponents` with the first components at work. -/
def atWork (ids : List String) : Manifest := threeComponents.updateAll ids fun c => { c with status := .running }

/-- Two workers hang, and their components are failed. -/
def hungWorkers : List Action :=
  [.top, .submit (atWork ["a"]), .arm, .submit (atWork ["a", "b"]), .arm, .wait, .tick 10, .timeout,
    .expire "12:00" fun _ => none]

/-- A hung component, failed when its worker had run for the whole window. -/
theorem backstop_sound_hungWorkers :
    ∃ s : Pass, ∃ f ∈ s.failures, f.component = "a" ∧ f.RanWholeWindow twoWorkers := by
  have hrun : (hungWorkers.foldlM (fun s a => if FreeWorker twoWorkers s a then next twoWorkers s a else none)
      (init threeComponents 0)).any (fun s => s.failures.any fun f => f.component = "a") = true := by
    decide +kernel
  obtain ⟨s, hs, hfailures⟩ := (Option.any_eq_true _ _).mp hrun
  obtain ⟨f, hf, hcomponent⟩ := List.any_eq_true.mp hfailures
  exact ⟨s, f, hf, of_decide_eq_true hcomponent, backstop_sound (Runs.Reaches.of_foldlM_if hs) f hf⟩

/-- Behind them the third component is submitted, and it waits. -/
def behindHungWorkers : List Action :=
  hungWorkers ++ [.top, .submit (atWork ["a", "b", "c"]), .arm, .wait, .tick 10, .timeout,
    .expire "12:01" fun _ => none]

/-- The third component is failed for its window, and it never started. -/
theorem waiting_component_failed : ∃ s : Pass, Runs.Reaches (Step twoWorkers) Runs.Always
    (init threeComponents 0) s ∧ ∃ f ∈ s.failures, f.component = "c" ∧ f.job.started = none := by
  have hrun : (behindHungWorkers.foldlM (fun s a => if True then next twoWorkers s a else none)
      (init threeComponents 0)).any (fun s =>
        s.failures.any fun f => f.component = "c" ∧ f.job.started = none) = true := by
    decide +kernel
  obtain ⟨s, hs, hfailures⟩ := (Option.any_eq_true _ _).mp hrun
  obtain ⟨f, hf, hwaiting⟩ := List.any_eq_true.mp hfailures
  have hreaches : Runs.Reaches (Step twoWorkers) (fun _ _ => True) (init threeComponents 0) s :=
    Runs.Reaches.of_foldlM_if hs
  exact ⟨s, hreaches, f, hf, of_decide_eq_true hwaiting⟩

end Pass

end Factory

end Kstrl
