import Kstrl.Base.Runs
import Kstrl.Pipeline.RetryContext

/-!
# The attempts of a component

The attempts of one component in a factory run, each through the phases of `process_result` and `_judge_attempt`
(`kstrl/pipeline/pipeline.py`, with `pipeline_checks.py`, `pipeline_review.py`, `pipeline_verdicts.py`,
`pipeline_security.py`, `pipeline_delivery.py` and `pipeline_merge.py`), `retry_or_fail` and
`record_contract_failure` (`pipeline_transitions.py`), and the readings of `pipeline_attempt.py`.

What a phase says is its answer; the texts it hands on are given with it.  The retry context is kept as its text
between two attempts.

* **`ComponentRun.next`** is the system.
* **`sound_runGates`**: one gate fires, and the phases before it judged the attempt.
-/

namespace Kstrl

namespace Pipeline

open Runs

/-! ## Gates -/

/-- What decides which phases there are. -/
structure AttemptConfig where
  maxRetries : ℤ
  /-- `--no-verify` -/
  skipVerification : Bool
  /-- the acceptance plan has checks of the component -/
  accepted : Bool
  /-- `create_prs and not single_pr` -/
  componentPrs : Bool

/-- What a gate adds to the retry context. -/
inductive Note where
  | record (iteration : ℤ) (error : Option String)
  | entry (phase : Phase) (text : String) (infrastructure : Bool)

/-- Where an attempt ends. -/
inductive Ending where
  /-- the component fails for good, or waits for an approval or a merge -/
  | stopped
  | retry (notes : List Note)
  | completed

/-- What a phase does: whether it gave a verdict, and whether it produced a reading. -/
inductive Gate where
  | pass (verdict reading : Bool)
  | stop (ending : Ending) (verdict reading : Bool)

/-- What became of the engineer loop. -/
inductive EngineerAnswer where
  | completed
  /-- a budget, or the breaker -/
  | halted
  | failed (iterations : ℤ) (error : Option String) (guardViolations : Bool)
  /-- the future of the worker raises -/
  | lost (error : String)

def EngineerAnswer.isLost : EngineerAnswer → Bool
  | lost _ => true
  | _ => false

/-- `error or default`. -/
def errorOr (error : Option String) (default : String) : String :=
  match error with
  | none => default
  | some text => if text = "" then default else text

/-- What `process_result` records of a failed loop. -/
def engineerNotes (iterations : ℤ) (error : Option String) (guardViolations : Bool) : List Note :=
  [.record iterations error,
    .entry .engineer
      (if guardViolations then "diff_scope: FAIL - " ++ errorOr error "files outside allowed scope"
        else errorOr error "Unknown error") false]

/-- The engineer; `rejudge_kept_head` skips it. -/
def engineerGate (rejudge : Bool) (answer : EngineerAnswer) : Gate :=
  if rejudge then .pass false false
  else
    match answer with
    | .completed => .pass true false
    | .halted => .stop .stopped false false
    | .failed iterations error guardViolations =>
        .stop (.retry (engineerNotes iterations error guardViolations)) true false
    -- the result is made anew, with no iterations and no context
    | .lost error => .stop (.retry (engineerNotes 0 (some error) false)) true false

inductive VerifyAnswer where
  /-- the worktree setup failed -/
  | setupFailed (error : String)
  | passed
  | failed (context : String)
  /-- a check could not read the scope -/
  | scopeUnreadable

/-- `_phase_verify`. -/
def verifyGate (cfg : AttemptConfig) (answer : VerifyAnswer) : Gate :=
  if cfg.skipVerification then .pass false false
  else
    match answer with
    | .setupFailed error => .stop (.retry [.entry .verification error true]) false false
    | .passed => .pass true false
    | .failed context => .stop (.retry [.entry .verification context false]) true false
    | .scopeUnreadable => .stop .stopped true false

inductive AcceptanceAnswer where
  | passed
  | halted
  | failed (told : List String)

/-- `ACCEPTANCE_RETRY_PROMPT`. -/
def acceptanceRetryPrompt (told : List String) : String :=
  "The operator's acceptance checks ran against your last commit, in a fresh checkout of it, and did not all " ++
    "pass. A check passes only when every run of it exits 0. A held-out check is named by its id only: what it runs " ++
    "and what it printed are withheld. Make the component meet its criteria for every input, not only for the inputs " ++
    "a check names.\n" ++ String.intercalate "\n" told

/-- `_phase_acceptance`. -/
def acceptanceGate : AcceptanceAnswer → Gate
  | .passed => .pass true false
  | .halted => .stop .stopped true false
  | .failed told => .stop (.retry [.entry .acceptance (acceptanceRetryPrompt told) false]) true false

inductive DiffAnswer where
  | fetched
  | failed (base error : String)

/-- `_phase_diff`. -/
def diffGate : DiffAnswer → Gate
  | .fetched => .pass true false
  | .failed base error =>
      .stop (.retry [.entry .diff ("git diff against " ++ base ++ " failed: " ++ error) true]) false false

/-- A reviewer that crashed gave no verdict; one that did not see the whole change is blind. -/
inductive ReviewAnswer where
  | skipped
  /-- the adversarial budget is spent -/
  | refused
  | passed (crashed blind : Bool)
  /-- a budget, the coverage of the review or its divergence stops the component -/
  | halted (crashed blind : Bool)
  | failed (text : String) (crashed blind : Bool)

/-- `_phase_review` and `_phase_security`; `_produced_a_reading` is the last flag. -/
def reviewGate (phase : Phase) : ReviewAnswer → Gate
  | .skipped => .pass false false
  | .refused => .stop .stopped false false
  | .passed crashed blind => .pass (!crashed) (!crashed && !blind)
  | .halted crashed blind => .stop .stopped (!crashed) (!crashed && !blind)
  | .failed text crashed blind => .stop (.retry [.entry phase text crashed]) (!crashed) (!crashed && !blind)

inductive DeliveryAnswer where
  | delivered
  /-- rejected, parked, or no merge -/
  | stopped
  | changesRequested
  | conflict (iterations : ℤ)

def conflictError : String :=
  "The previous attempt's PR hit a merge conflict with the base branch; this attempt starts from the freshly merged " ++
    "base, which already contains the sibling changes"

/-- `_deliver`. -/
def deliveryGate : DeliveryAnswer → Gate
  | .delivered => .pass true false
  | .stopped => .stop .stopped false false
  | .changesRequested =>
      .stop (.retry [.entry .pr "Human reviewer requested changes at PR checkpoint" false]) true false
  | .conflict iterations => .stop (.retry [.record iterations (some conflictError)]) false false

/-- The answers of the phases in one attempt. -/
structure Answers where
  engineer : EngineerAnswer := .completed
  verify : VerifyAnswer := .passed
  acceptance : AcceptanceAnswer := .passed
  diff : DiffAnswer := .fetched
  review : ReviewAnswer := .passed false false
  security : ReviewAnswer := .skipped
  delivery : DeliveryAnswer := .delivered
  /-- `failure_counts_not_converging` -/
  notConverging : Bool := false

/-! ## An attempt -/

/-- The phases of an attempt, in their order. -/
def gates (cfg : AttemptConfig) (rejudge : Bool) (a : Answers) : List (Phase × Gate) :=
  [(.engineer, engineerGate rejudge a.engineer), (.verification, verifyGate cfg a.verify)] ++
    (if cfg.accepted then [(.acceptance, acceptanceGate a.acceptance)] else []) ++
    [(.diff, diffGate a.diff), (.review, reviewGate .review a.review),
      (.security, reviewGate .security a.security)] ++
    if cfg.componentPrs then [(.pr, deliveryGate a.delivery)] else []

/-- What an attempt comes to: the phases that gave a verdict with what it was, and those that produced a reading. -/
structure Outcome where
  ending : Ending
  verdicts : List (Phase × Bool)
  readings : List Phase

/-- One phase after another, up to the first that stops. -/
def runGates : List (Phase × Gate) → Outcome
  | [] => { ending := .completed, verdicts := [], readings := [] }
  | (phase, .pass verdict reading) :: rest =>
      let outcome := runGates rest
      { outcome with
        verdicts := (if verdict then [(phase, true)] else []) ++ outcome.verdicts
        readings := (if reading then [phase] else []) ++ outcome.readings }
  | (phase, .stop ending verdict reading) :: _ =>
      { ending := ending
        verdicts := if verdict then [(phase, false)] else []
        readings := if reading then [phase] else [] }

/-! ## The system -/

/-- A phase gave a verdict in an attempt. -/
structure Verdict where
  attempt : ℤ
  phase : Phase
  passed : Bool
  deriving DecidableEq, Repr

namespace IterationContext

/-- A note of an attempt. -/
def note (attempt : ℤ) (ctx : IterationContext) : Note → IterationContext
  | .record iteration error => ctx.addIteration { iteration, success := false, error, attempt }
  | .entry phase text infrastructure => ctx.add text attempt phase infrastructure

/-- The entries of the notes of an attempt. -/
def entriesOf (attempt : ℤ) (notes : List Note) : List FailureEntry :=
  notes.flatMap fun
    | .record _ _ => []
    | .entry phase text infrastructure => if text = "" then [] else [{ attempt, phase, text, infrastructure }]

/-- `_merge_phase_readings`. -/
def merge (readings : List PhaseReading) (ctx : IterationContext) : IterationContext :=
  readings.foldl (fun ctx r => ctx.addPhaseReading r.phase r.attempt) ctx

end IterationContext

inductive ComponentStage where
  | pending
  | completed
  | ended
  deriving DecidableEq, Repr

/-- One component in one factory run. -/
structure ComponentRun where
  retries : ℕ
  /-- `component_contexts` -/
  context : Option String
  /-- `_phase_readings` -/
  readings : List PhaseReading
  /-- the next attempt judges a kept head -/
  rejudge : Bool
  stage : ComponentStage
  /-- the verdicts of all attempts -/
  verdicts : List Verdict
  /-- the entries of all attempts -/
  recorded : List FailureEntry
  /-- a result came without the context of its worker -/
  lost : Bool

namespace ComponentRun

/-- A component before its first attempt in the run, or one that an earlier run completed. -/
def init (retries : ℕ) (rejudge completed : Bool) : ComponentRun where
  retries := retries
  context := none
  readings := []
  rejudge := rejudge && !completed
  stage := if completed then .completed else .pending
  verdicts := []
  recorded := []
  lost := false

inductive Action where
  | attempt (answers : Answers)
  /-- the contract test blames the component -/
  | contractFailure (testOutput : String)

variable (cfg : AttemptConfig) (s : ComponentRun)

/-- The number of the attempt in flight, or of the one that completed. -/
def number : ℤ := s.retries + 1

/-- The attempt is superseded, with this context for the next one; `notes` are those of the attempt. -/
def supersede (notes : List Note) (ctx : IterationContext) : ComponentRun :=
  { s with
    retries := s.retries + 1
    stage := .pending
    context := some (ctx.merge s.readings).toJson
    recorded := s.recorded ++ IterationContext.entriesOf s.number notes }

/-- `retry_or_fail`, of a gate with a context. -/
def retryOrFail (notConverging : Bool) (notes : List Note) (contextJson : String) : Except ContextError ComponentRun :=
  if s.retries < cfg.maxRetries ∧ ¬notConverging then do
    let ctx ← IterationContext.fromJson contextJson
    .ok (s.supersede notes ctx)
  else .ok { s with stage := .ended }

/-- The attempt, with its verdicts and readings. -/
def judged (o : Outcome) : ComponentRun :=
  { s with
    rejudge := false
    readings := o.readings.map fun phase => { attempt := s.number, phase }
    verdicts := s.verdicts ++ o.verdicts.map fun v => { attempt := s.number, phase := v.1, passed := v.2 } }

/-- An attempt. -/
def attempt (a : Answers) : Except ContextError ComponentRun :=
  let o := runGates (gates cfg s.rejudge a)
  match o.ending with
  | .stopped => .ok { s.judged o with stage := .ended }
  | .completed => .ok { s.judged o with stage := .completed }
  | .retry notes => do
      -- the context that came back with the result
      let given := if a.engineer.isLost && !s.rejudge then none else s.context
      let ctx ← IterationContext.fromJson (given.getD "\x7b\x7d")
      let noted := notes.foldl (IterationContext.note s.number) ctx
      let s' : ComponentRun := { s.judged o with lost := s.lost || (a.engineer.isLost && !s.rejudge) }
      s'.retryOrFail cfg a.notConverging notes noted.toJson

/-- `_reset_contract_breakers` with `record_contract_failure`. -/
def contractFailure (testOutput : String) : Except ContextError ComponentRun := do
  let ctx ← IterationContext.fromJson (s.context.getD "\x7b\x7d")
  let note : Note := .entry .contract (String.ofList (testOutput.toList.take 500)) false
  let s' : ComponentRun :=
    { s with
      verdicts := s.verdicts ++ [{ attempt := s.number, phase := .contract, passed := false }] }
  .ok (s'.supersede [note] (ctx.note s.number note))

/-- One step. -/
def next (s : ComponentRun) : Action → Option ComponentRun
  | .attempt a => if s.stage = .pending then (s.attempt cfg a).toOption else none
  | .contractFailure testOutput =>
      -- where each component has a pull request, the contract test blames none
      if s.stage = .completed ∧ cfg.componentPrs = false ∧ s.retries < cfg.maxRetries then
        (s.contractFailure testOutput).toOption
      else none

/-- The transition relation. -/
def Step (s : ComponentRun) (a : Action) (s' : ComponentRun) : Prop := s.next cfg a = some s'

end ComponentRun

/-! ## What an attempt comes to -/

/-- The verdicts of phases that are passed. -/
def passedIn (l : List (Phase × Gate)) : List (Phase × Bool) :=
  l.filterMap fun g =>
    match g.2 with
    | .pass true _ => some (g.1, true)
    | _ => none

/-- Their readings. -/
def readIn (l : List (Phase × Gate)) : List Phase :=
  l.filterMap fun g =>
    match g.2 with
    | .pass _ true => some g.1
    | _ => none

/-- The phase goes on. -/
def Gate.Passes : Gate → Prop
  | pass _ _ => True
  | stop _ _ _ => False

/-- Every phase is passed, or one stops. -/
inductive Ran (l : List (Phase × Gate)) : Outcome → Prop where
  | completed (passes : ∀ g ∈ l, g.2.Passes) :
      Ran l { ending := .completed, verdicts := passedIn l, readings := readIn l }
  | stopped (before : List (Phase × Gate)) (phase : Phase) (ending : Ending) (verdict reading : Bool)
      (after : List (Phase × Gate)) (split : l = before ++ (phase, .stop ending verdict reading) :: after)
      (passes : ∀ g ∈ before, g.2.Passes) :
      Ran l
        { ending := ending
          verdicts := passedIn before ++ if verdict then [(phase, false)] else []
          readings := readIn before ++ if reading then [phase] else [] }

/-- **What `runGates` does.** -/
lemma ran_runGates (l : List (Phase × Gate)) : Ran l (runGates l) := by
  induction l with
  | nil => exact .completed nofun
  | cons g rest ih =>
      obtain ⟨phase, gate⟩ := g
      cases gate with
      | stop ending verdict reading => exact .stopped [] phase ending verdict reading rest rfl nofun
      | pass verdict reading =>
          have hverdicts : ∀ l, passedIn ((phase, .pass verdict reading) :: l) =
              (if verdict then [(phase, true)] else []) ++ passedIn l := by
            cases verdict <;> exact fun _ => rfl
          have hreadings : ∀ l, readIn ((phase, .pass verdict reading) :: l) =
              (if reading then [phase] else []) ++ readIn l := by
            cases reading <;> exact fun _ => rfl
          rw [runGates]
          generalize runGates rest = outcome at ih ⊢
          cases ih with
          | completed passes =>
              dsimp only
              rw [← hverdicts, ← hreadings]
              exact .completed (List.forall_mem_cons.mpr ⟨trivial, passes⟩)
          | stopped before stopPhase ending verdict' reading' after split passes =>
              dsimp only
              rw [← List.append_assoc, ← List.append_assoc, ← hverdicts, ← hreadings]
              exact .stopped _ stopPhase ending verdict' reading' after (by rw [split]; rfl)
                (List.forall_mem_cons.mpr ⟨trivial, passes⟩)

/-! ## What the phases do -/

/-- The phase can be in an attempt. -/
def Phase.Live (cfg : AttemptConfig) : Phase → Prop
  | verification => cfg.skipVerification = false
  | acceptance => cfg.accepted = true
  | contract => cfg.componentPrs = false
  | pr => cfg.componentPrs = true
  | _ => True

/-- Whoever gets past the phase was judged by it. -/
structure Phase.Judges (cfg : AttemptConfig) (rejudge : Bool) (p : Phase) : Prop where
  inferred : p.skippable = false
  live : p.Live cfg
  gated : p ≠ contract
  ran : p = engineer → rejudge = false

/-- The notes of a phase that stops; the flag is whether it gave a verdict. -/
inductive NotesOf (phase : Phase) : List Note → Bool → Prop where
  | failed (text infrastructure) : NotesOf phase [.entry phase text infrastructure] (!infrastructure)
  | recorded (iteration error text) (some : text ≠ "") :
      NotesOf phase [.record iteration error, .entry phase text false] true
  | restarted (iteration error) : NotesOf phase [.record iteration error] false

/-- What a gate of a phase does. -/
inductive GateOf (cfg : AttemptConfig) (rejudge : Bool) (phase : Phase) : Gate → Prop where
  | pass (verdict reading) (judges : phase.Judges cfg rejudge → verdict = true)
      (read : reading = true → verdict = true) : GateOf cfg rejudge phase (.pass verdict reading)
  | stop (ending verdict reading) (ends : ending ≠ .completed) (live : phase.Live cfg)
      (read : reading = true → verdict = true) (notes : ∀ notes, ending = .retry notes → NotesOf phase notes verdict) :
      GateOf cfg rejudge phase (.stop ending verdict reading)

section

variable {cfg : AttemptConfig} {rejudge : Bool} {phase : Phase}

lemma GateOf.stopped (verdict reading : Bool) (live : phase.Live cfg) (read : reading = true → verdict = true) :
    GateOf cfg rejudge phase (.stop .stopped verdict reading) :=
  .stop _ _ _ nofun live read nofun

lemma GateOf.retry {notes : List Note} {verdict : Bool} (reading : Bool) (live : phase.Live cfg)
    (read : reading = true → verdict = true) (h : NotesOf phase notes verdict) :
    GateOf cfg rejudge phase (.stop (.retry notes) verdict reading) :=
  .stop _ _ _ nofun live read fun _ heq => Ending.retry.inj heq ▸ h

lemma errorOr_ne (error : Option String) {default : String} (h : default ≠ "") : errorOr error default ≠ "" := by
  unfold errorOr
  split
  · exact h
  · split_ifs with htext
    · exact h
    · exact htext

lemma engineerNotes_notesOf (iterations : ℤ) (error : Option String) (guardViolations : Bool) :
    NotesOf .engineer (engineerNotes iterations error guardViolations) true := by
  refine .recorded iterations error _ ?_
  split_ifs
  · intro hempty
    have hlength := congrArg String.length hempty
    rw [String.length_append] at hlength
    exact absurd hlength (by simp)
  · exact errorOr_ne error (by decide)

lemma engineerGate_of (answer : EngineerAnswer) : GateOf cfg rejudge .engineer (engineerGate rejudge answer) := by
  unfold engineerGate
  split_ifs with hrejudge
  · exact .pass _ _ (fun h => absurd (h.ran rfl) (by simp [hrejudge])) nofun
  · cases answer with
    | completed => exact .pass _ _ (fun _ => rfl) nofun
    | halted => exact .stopped _ _ trivial nofun
    | failed iterations error guardViolations =>
        exact .retry _ trivial nofun (engineerNotes_notesOf iterations error guardViolations)
    | lost error => exact .retry _ trivial nofun (engineerNotes_notesOf 0 (some error) false)

lemma verifyGate_of (answer : VerifyAnswer) : GateOf cfg rejudge .verification (verifyGate cfg answer) := by
  unfold verifyGate
  split_ifs with hskip
  · exact .pass _ _ (fun h => absurd h.live (by simp [Phase.Live, hskip])) nofun
  · have hlive : Phase.Live cfg .verification := Bool.eq_false_iff.mpr hskip
    cases answer with
    | setupFailed error => exact .retry _ hlive nofun (.failed error true)
    | passed => exact .pass _ _ (fun _ => rfl) nofun
    | failed context => exact .retry _ hlive nofun (.failed context false)
    | scopeUnreadable => exact .stopped _ _ hlive nofun

lemma acceptanceGate_of (h : cfg.accepted = true) (answer : AcceptanceAnswer) :
    GateOf cfg rejudge .acceptance (acceptanceGate answer) := by
  cases answer with
  | passed => exact .pass _ _ (fun _ => rfl) nofun
  | halted => exact .stopped _ _ h nofun
  | failed told => exact .retry _ h nofun (.failed _ false)

lemma diffGate_of (answer : DiffAnswer) : GateOf cfg rejudge .diff (diffGate answer) := by
  cases answer with
  | fetched => exact .pass _ _ (fun _ => rfl) nofun
  | failed base error => exact .retry _ trivial nofun (.failed _ true)

lemma reviewGate_of (phase : Phase) (hskippable : phase.skippable = true) (hlive : phase.Live cfg) (answer : ReviewAnswer) :
    GateOf cfg rejudge phase (reviewGate phase answer) := by
  have hnever : ∀ verdict : Bool, phase.Judges cfg rejudge → verdict = true := fun _ h =>
    absurd (h.inferred.symm.trans hskippable) nofun
  have hread : ∀ crashed blind : Bool, (!crashed && !blind) = true → (!crashed) = true := fun _ _ h =>
    (Bool.and_eq_true _ _ ▸ h).1
  cases answer with
  | skipped => exact .pass _ _ (hnever _) nofun
  | refused => exact .stopped _ _ hlive nofun
  | passed crashed blind => exact .pass _ _ (hnever _) (hread crashed blind)
  | halted crashed blind => exact .stopped _ _ hlive (hread crashed blind)
  | failed text crashed blind => exact .retry _ hlive (hread crashed blind) (.failed text crashed)

lemma deliveryGate_of (h : cfg.componentPrs = true) (answer : DeliveryAnswer) :
    GateOf cfg rejudge .pr (deliveryGate answer) := by
  cases answer with
  | delivered => exact .pass _ _ (fun _ => rfl) nofun
  | stopped => exact .stopped _ _ h nofun
  | changesRequested => exact .retry _ h nofun (.failed _ false)
  | conflict iterations => exact .retry _ h nofun (.restarted iterations _)

/-- **Each phase of an attempt has its gate.** -/
lemma gateOf_of_mem {a : Answers} {g : Phase × Gate} (h : g ∈ gates cfg rejudge a) :
    GateOf cfg rejudge g.1 g.2 := by
  simp only [gates, List.mem_append, List.mem_cons, List.not_mem_nil, or_false, List.mem_ite_nil_right] at h
  rcases h with ((((rfl | rfl) | ⟨haccepted, rfl⟩) | (rfl | rfl | rfl)) | ⟨hprs, rfl⟩)
  · exact engineerGate_of a.engineer
  · exact verifyGate_of a.verify
  · exact acceptanceGate_of haccepted a.acceptance
  · exact diffGate_of a.diff
  · exact reviewGate_of .review rfl trivial a.review
  · exact reviewGate_of .security rfl trivial a.security
  · exact deliveryGate_of hprs a.delivery

/-- The phases stand in the order of their ranks. -/
lemma gates_sorted (cfg : AttemptConfig) (rejudge : Bool) (a : Answers) : (gates cfg rejudge a).Pairwise fun g g' => g.1.rank < g'.1.rank := by
  unfold gates
  split_ifs <;> simp [Phase.rank]

/-- A phase that judges whoever gets past it is there. -/
lemma exists_gate {a : Answers} (h : phase.Judges cfg rejudge) : ∃ g ∈ gates cfg rejudge a, g.1 = phase := by
  have hlive := h.live
  simp only [gates, List.mem_append, List.mem_cons, List.not_mem_nil, or_false, List.mem_ite_nil_right]
  cases phase with
  | engineer => exact ⟨_, .inl (.inl (.inl (.inl rfl))), rfl⟩
  | verification => exact ⟨_, .inl (.inl (.inl (.inr rfl))), rfl⟩
  | acceptance => exact ⟨_, .inl (.inl (.inr ⟨hlive, rfl⟩)), rfl⟩
  | diff => exact ⟨_, .inl (.inr (.inl rfl)), rfl⟩
  | review => exact ⟨_, .inl (.inr (.inr (.inl rfl))), rfl⟩
  | security => exact ⟨_, .inl (.inr (.inr (.inr rfl))), rfl⟩
  | contract => exact absurd rfl h.gated
  | pr => exact ⟨_, .inr ⟨hlive, rfl⟩, rfl⟩

lemma mem_passedIn {l : List (Phase × Gate)} {v : Phase × Bool} :
    v ∈ passedIn l ↔ ∃ reading, (v.1, Gate.pass true reading) ∈ l ∧ v.2 = true := by
  simp only [passedIn, List.mem_filterMap]
  constructor
  · rintro ⟨⟨p, gate⟩, hg, hv⟩
    split at hv
    · next reading heq =>
        cases hv
        exact ⟨reading, heq ▸ hg, rfl⟩
    · cases hv
  · rintro ⟨reading, hg, hpassed⟩
    refine ⟨_, hg, ?_⟩
    obtain ⟨p, passed⟩ := v
    cases hpassed
    rfl

lemma mem_readIn {l : List (Phase × Gate)} {p : Phase} :
    p ∈ readIn l ↔ ∃ verdict, (p, Gate.pass verdict true) ∈ l := by
  simp only [readIn, List.mem_filterMap]
  constructor
  · rintro ⟨⟨q, gate⟩, hg, hp⟩
    split at hp
    · next verdict heq =>
        cases hp
        exact ⟨verdict, heq ▸ hg⟩
    · cases hp
  · rintro ⟨verdict, hg⟩
    exact ⟨_, hg, rfl⟩

/-- What an attempt comes to. -/
structure Outcome.Sound (cfg : AttemptConfig) (rejudge : Bool) (o : Outcome) : Prop where
  read : ∀ p ∈ o.readings, ∃ passed, (p, passed) ∈ o.verdicts
  passed : o.ending = .completed → ∀ v ∈ o.verdicts, v.2 = true
  judged : o.ending = .completed → ∀ q : Phase, q.Judges cfg rejudge → (q, true) ∈ o.verdicts
  /-- one gate fired, and what lies before it was passed -/
  fired : ∀ notes, o.ending = .retry notes → ∃ p verdict, NotesOf p notes verdict ∧ p.Live cfg ∧
    (verdict = true → (p, false) ∈ o.verdicts) ∧
      (∀ v ∈ o.verdicts, v.2 = false → v.1 = p ∧ verdict = true) ∧
        ∀ q : Phase, q.Judges cfg rejudge → q.rank < p.rank → (q, true) ∈ o.verdicts

/-- A phase that is passed judges. -/
lemma mem_passedIn_of_judges {l : List (Phase × Gate)} {q : Phase} (hl : ∀ g ∈ l, GateOf cfg rejudge g.1 g.2)
    (hpasses : ∀ g ∈ l, g.2.Passes) (hq : q.Judges cfg rejudge) {g : Phase × Gate} (hg : g ∈ l) (heq : g.1 = q) :
    (q, true) ∈ passedIn l := by
  obtain ⟨p, gate⟩ := g
  cases heq
  have hgate := hl _ hg
  have hpass := hpasses _ hg
  cases hgate with
  | stop => exact absurd hpass id
  | pass verdict reading judges _ =>
      cases judges hq
      exact mem_passedIn.mpr ⟨reading, hg, rfl⟩

/-- A reading comes with a verdict. -/
lemma mem_passedIn_of_readIn {l : List (Phase × Gate)} (hl : ∀ g ∈ l, GateOf cfg rejudge g.1 g.2) {p : Phase}
    (hp : p ∈ readIn l) : (p, true) ∈ passedIn l := by
  obtain ⟨verdict, hg⟩ := mem_readIn.mp hp
  have hgate := hl _ hg
  cases hgate with
  | pass _ _ _ read =>
      cases read rfl
      exact mem_passedIn.mpr ⟨true, hg, rfl⟩

lemma passed_of_mem_passedIn {l : List (Phase × Gate)} {v : Phase × Bool} (h : v ∈ passedIn l) : v.2 = true := by
  obtain ⟨_, -, hpassed⟩ := mem_passedIn.mp h
  exact hpassed

/-- **What an attempt comes to.** -/
theorem sound_runGates (cfg : AttemptConfig) (rejudge : Bool) (a : Answers) : Outcome.Sound cfg rejudge (runGates (gates cfg rejudge a)) := by
  have hgate : ∀ g ∈ gates cfg rejudge a, GateOf cfg rejudge g.1 g.2 := fun _ hg => gateOf_of_mem hg
  have hran := ran_runGates (gates cfg rejudge a)
  generalize runGates (gates cfg rejudge a) = o at hran
  cases hran with
  | completed passes =>
      refine ⟨fun p hp => ⟨true, mem_passedIn_of_readIn hgate hp⟩, fun _ v hv => passed_of_mem_passedIn hv,
        fun _ q hq => ?_, nofun⟩
      obtain ⟨g, hg, heq⟩ := exists_gate (a := a) hq
      exact mem_passedIn_of_judges hgate passes hq hg heq
  | stopped before p ending verdict reading after split passes =>
      have hbefore : ∀ g ∈ before, GateOf cfg rejudge g.1 g.2 := fun g hg =>
        hgate g (split ▸ List.mem_append_left _ hg)
      have hstop : GateOf cfg rejudge p (.stop ending verdict reading) :=
        hgate (p, .stop ending verdict reading) (split ▸ List.mem_append_right _ List.mem_cons_self)
      cases hstop with
      | stop _ _ _ ends live read notes =>
          refine ⟨fun q hq => ?_, fun hending => absurd hending ends, fun hending => absurd hending ends,
            fun notes' hending => ?_⟩
          · rcases List.mem_append.mp hq with hq | hq
            · exact ⟨true, List.mem_append_left _ (mem_passedIn_of_readIn hbefore hq)⟩
            · rw [List.mem_ite_nil_right, List.mem_singleton] at hq
              obtain ⟨hreading, rfl⟩ := hq
              rw [if_pos (read hreading)]
              exact ⟨false, List.mem_append_right _ (List.mem_singleton_self _)⟩
          · refine ⟨p, verdict, notes notes' hending, live, fun hverdict => ?_, fun v hv hfailed => ?_,
              fun q hq hlt => ?_⟩
            · rw [if_pos hverdict]
              exact List.mem_append_right _ (List.mem_singleton_self _)
            · rcases List.mem_append.mp hv with hv | hv
              · exact absurd (hfailed.symm.trans (passed_of_mem_passedIn hv)) nofun
              · rw [List.mem_ite_nil_right, List.mem_singleton] at hv
                exact ⟨congrArg Prod.fst hv.2, hv.1⟩
            · -- what ranks below the gate stands before it
              obtain ⟨g, hg, rfl⟩ := exists_gate (a := a) hq
              refine List.mem_append_left _ (mem_passedIn_of_judges hbefore passes hq ?_ rfl)
              have hsorted := gates_sorted cfg rejudge a
              rw [split] at hg hsorted
              rcases List.mem_append.mp hg with hg | hg
              · exact hg
              · rcases List.mem_cons.mp hg with rfl | hg
                · exact absurd hlt (lt_irrefl _)
                · have hafter := (List.pairwise_cons.mp (List.pairwise_append.mp hsorted).2.1).1 g hg
                  exact absurd hlt (not_lt.mpr hafter.le)

end

end Pipeline

end Kstrl
