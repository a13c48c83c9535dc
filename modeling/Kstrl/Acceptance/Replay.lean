import Kstrl.Acceptance.Plan

/-!
# The replay of a stack's recipe

`kstrl/acceptance/replay.py`: in a worktree of one commit the setup, then `up`, then the stack's checks or a probe
in their place; the first stage that fails ends the replay.  The probe of `kstrl/acceptance/acceptance.py` runs each
check it is given a number of times.

The machine comes in through `World`: what each command gives on a commit.  A function of it that ends in an error
raises, and then the replay has no record.

* **`replayStack_cases`**: the replay ends before the probe and says why, or the probe ran on the commit it was given.
* **`get_probe`**: the runs of a check are all there, in order.
-/

namespace Kstrl.Acceptance

/-! ## Verdicts -/

/-- A check's verdict, from its exit status alone. -/
inductive Verdict where
  | pass
  | fail
  | notRun
  deriving DecidableEq, Repr

def Verdict.value : Verdict → String
  | pass => "pass"
  | fail => "fail"
  | notRun => "not_run"

def shellCouldNotRun : List ℤ := [126, 127]

/-- One run's verdict. -/
def verdictOf (code : Option ℤ) : Verdict :=
  match code with
  | none => .notRun
  | some code => if code = 0 then .pass else if code ∈ shellCouldNotRun then .notRun else .fail

/-- Pass only when there were runs and every one exited 0. -/
def headVerdict (exits : List (Option ℤ)) : Verdict :=
  let verdicts := exits.map verdictOf
  if verdicts ≠ [] ∧ ∀ verdict ∈ verdicts, verdict = .pass then .pass
  else if .fail ∈ verdicts then .fail else .notRun

lemma verdictOf_eq_pass {code : Option ℤ} : verdictOf code = .pass ↔ code = some 0 := by
  cases code with
  | none => simp [verdictOf]
  | some code =>
      rw [verdictOf, Option.some.injEq]
      split_ifs <;> simp_all

/-- **A check passes** when it ran and every run exited 0. -/
lemma headVerdict_eq_pass {exits : List (Option ℤ)} :
    headVerdict exits = .pass ↔ exits ≠ [] ∧ ∀ code ∈ exits, code = some 0 := by
  have hall : (∀ verdict ∈ exits.map verdictOf, verdict = .pass) ↔ ∀ code ∈ exits, code = some 0 := by
    rw [List.forall_mem_map]
    exact forall₂_congr fun code _ => verdictOf_eq_pass
  have hne : exits.map verdictOf ≠ [] ↔ exits ≠ [] := not_congr List.map_eq_nil_iff
  rw [← hall, ← hne]
  constructor
  · intro h
    by_contra hnot
    rw [headVerdict, if_neg hnot] at h
    split_ifs at h
  · exact fun hpass => if_pos hpass

/-! ## Stages -/

/-- One command of the replay. -/
structure Stage where
  name : String
  command : String
  exit : Option ℤ
  stopped : String
  seconds : String
  tail : List String
  failed : String := ""
  deriving DecidableEq, Repr

/-- How a command ended. -/
inductive Given where
  | exited (code : ℤ)
  | timedOut
  | undecodable
  deriving DecidableEq, Repr

/-- What a command gave. -/
structure Output where
  given : Given
  text : String
  seconds : String
  deriving DecidableEq, Repr

def Given.code : Given → Option ℤ
  | exited code => some code
  | timedOut => none
  | undecodable => none

def Given.stopped (limit : String) : Given → String
  | exited _ => ""
  | timedOut => "timed out after " ++ limit ++ "s"
  | undecodable => "output not utf-8"

/-- What a failed setup is called after. -/
def Given.said : Given → String
  | exited code => toString code
  | timedOut => "timeout"
  | undecodable => "undecodable"

def replayBoundaryRefused : String := "boundary_refused"
def replaySetupFailed : String := "setup_failed"
def replayUpFailed : String := "up_failed"
def replayUpTimeout : String := "up_timeout"
def replayCheckNotRunnable : String := "check_not_runnable"
def replayBaseContradiction : String := "base_contradiction"

def tailLines : ℕ := 5

/-- `_tail` -/
def tailOf (text : String) : List String :=
  let lines := (TextLines.splitlines (PyText.strip text).toList).map String.ofList
  lines.drop (lines.length - tailLines)

/-- The replay's failure that a command other than the setup is. -/
def checkFailed (given : Given) : String :=
  match verdictOf given.code with
  | .pass => ""
  | .notRun => replayCheckNotRunnable
  | .fail => replayBaseContradiction

def setupFailed (given : Given) : String :=
  if given.code = some 0 then "" else replaySetupFailed ++ ":" ++ given.said

/-- `_ran` -/
def ran (name command : String) (out : Output) (limit : String) : Stage :=
  ⟨name, command, out.given.code, out.given.stopped limit, out.seconds, tailOf out.text,
    if name = "setup" then setupFailed out.given else checkFailed out.given⟩

/-- What waiting for `up` gave: an exit status, or none in time. -/
structure UpOutput where
  code : Option ℤ
  text : String
  seconds : String

/-- `_ready` -/
def ready (command : String) (out : UpOutput) (limit : String) : Stage :=
  let failed := match out.code with
    | none => replayUpTimeout
    | some code => if code = 0 then "" else replayUpFailed ++ ":" ++ toString code
  let stopped := match out.code with
    | none => "was not ready after " ++ limit ++ "s"
    | some _ => ""
  ⟨"up", command, out.code, stopped, out.seconds, tailOf out.text, failed⟩

/-! ## The replay -/

/-- A `[stack]` as far as the replay reads it. -/
structure Stack where
  digest : String
  setup : String
  checks : List (String × String)
  up : String := ""
  unconfirmed : String := ""

/-- The rung of a zone; `platform` is the platform of a host fallback. -/
structure Zone where
  label : String
  refusal : String := ""
  platform : Option String := none

def setupZone : String := "setup"
def testZone : String := "test"

/-- The record of one replay. -/
structure Replay where
  stackDigest : String
  baseBranch : String
  baseSha : String := ""
  isolation : List (String × String) := []
  stages : List Stage := []
  failed : String := ""
  detail : String := ""
  error : String := ""

/-- The machine a replay runs on.  A check's run may end in an `OSError`, whose text is the inner error. -/
structure World where
  baseBranch : String
  resolveBase : String → Except String String
  checkout : String → Option String
  zones : Except String (Zone × Zone)
  setup : String → Except String Output
  up : String → Except String UpOutput
  stackCheck : String → String → Except String Output
  acceptance : String → String → Check → ℕ → Except String (Except String Output)
  cleanup : Option String
  setupLimit : String
  checkLimit : String

/-- The stages of every check, by component and id; a later entry stands for an earlier one of its name. -/
abbrev Runs : Type := List ((String × String) × List Stage)

def Runs.get (runs : Runs) (comp id : String) : List Stage := (runs.reverse.lookup (comp, id)).getD []

/-- The record after a stage. -/
def Replay.after (record : Replay) (stage : Stage) : Replay :=
  if stage.failed = "" then { record with stages := record.stages ++ [stage] }
  else
    let said := match stage.exit with
      | some code => "exited " ++ toString code
      | none => stage.stopped
    let lines := if stage.tail = [] then "(no output)" else String.intercalate " | " stage.tail
    { record with
      stages := record.stages ++ [stage]
      failed := stage.failed
      detail := stage.name ++ " `" ++ stage.command ++ "` " ++ said ++ "; last lines: " ++ lines }

section Stages

variable (w : World) (stack : Stack) (commit : String)

def runChecks : Replay → List (String × String) → Except String Replay
  | record, [] => .ok record
  | record, (name, command) :: rest =>
      (w.stackCheck commit name).bind fun out =>
        let stage := ran ("check:" ++ name) command out w.checkLimit
        if stage.failed ≠ "" then .ok (record.after stage) else runChecks (record.after stage) rest

/-- The probe, or the stack's checks. -/
def runProbe (probe : Option (String → Except String Runs)) (record : Replay) : Except String (Replay × Runs) :=
  match probe with
  | some probe => (probe commit).map fun runs => (record, runs)
  | none => (runChecks w commit record stack.checks).map fun record => (record, [])

def runUp (probe : Option (String → Except String Runs)) (record : Replay) : Except String (Replay × Runs) :=
  if stack.up = "" then runProbe w stack commit probe record
  else (w.up commit).bind fun out =>
    let stage := ready stack.up out w.checkLimit
    if stage.failed ≠ "" then .ok (record.after stage, []) else runProbe w stack commit probe (record.after stage)

/-- `_run_stages` -/
def runStages (probe : Option (String → Except String Runs)) (record : Replay) : Except String (Replay × Runs) :=
  if stack.setup = "" then runUp w stack commit probe record
  else (w.setup commit).bind fun out =>
    let stage := ran "setup" stack.setup out w.setupLimit
    if stage.failed ≠ "" then .ok (record.after stage, []) else runUp w stack commit probe (record.after stage)

/-- Why nothing may run in the zones. -/
def refusedZones (zones : Zone × Zone) : List String :=
  let refused := [(setupZone, zones.1), (testZone, zones.2)].filterMap fun (name, zone) =>
    if zone.refusal = "" then none else some ("the " ++ name ++ " zone is " ++ zone.refusal)
  match zones.1.platform with
  | some platform =>
      if stack.unconfirmed = "" then refused
      else refused ++ ["the [stack] in kstrl.toml " ++ stack.unconfirmed ++ ", and with no isolation rung on " ++
        platform ++ " its commands would run on the host"]
  | none => refused

def Zone.said (zone : Zone) : String := if zone.refusal = "" then zone.label else zone.refusal

/-- `_replay_in_rungs` -/
def replayInRungs (probe : Option (String → Except String Runs)) (record : Replay) : Except String (Replay × Runs) :=
  w.zones.bind fun zones =>
    let record := { record with isolation := [(setupZone, zones.1.said), (testZone, zones.2.said)] }
    if refusedZones stack zones ≠ [] then
      .ok ({ record with
        failed := replayBoundaryRefused
        detail := String.intercalate "; " (refusedZones stack zones) }, [])
    else runStages w stack commit probe record

end Stages

section World

variable (w : World) (stack : Stack)

/-- The first characters of a commit or of a digest. -/
def short (sha : String) : String := String.ofList (sha.toList.take 12)

/-- The worktree is removed, whatever happened in it. -/
def cleanedUp (result : Replay × Runs) : Replay × Runs :=
  match w.cleanup with
  | none => result
  | some exc =>
      if result.1.error ≠ "" then result
      else ({ result.1 with error := "the replay worktree survived: " ++ exc }, result.2)

def replayAt (commit : String) (probe : Option (String → Except String Runs)) (record : Replay) :
    Except String (Replay × Runs) :=
  match w.checkout commit with
  | some checkoutError =>
      .ok ({ record with error := "the base " ++ short commit ++ " was not checked out: " ++ checkoutError }, [])
  | none => (replayInRungs w stack commit probe record).map (cleanedUp w)

/-- `replay_stack`, with the runs of its probe. -/
def replayStack (at_ : String) (probe : Option (String → Except String Runs)) : Except String (Replay × Runs) :=
  let record : Replay := { stackDigest := stack.digest, baseBranch := w.baseBranch, baseSha := at_ }
  if at_ ≠ "" then replayAt w stack at_ probe record
  else match w.resolveBase w.baseBranch with
    | .error exc =>
        .ok ({ record with error := "the base branch " ++ w.baseBranch ++ " did not resolve: " ++ exc }, [])
    | .ok sha => replayAt w stack sha probe { record with baseSha := sha }

end World

/-! ## The probe -/

/-- `shlex.quote` -/
def shlexQuote (s : String) : String :=
  if s = "" then "''"
  else if s.toList.all fun c => c.isAlphanum || c ∈ "_@%+=:,./-".toList then s
  else "'" ++ String.ofList (s.toList.flatMap fun c => if c = '\'' then "'\"'\"'".toList else [c]) ++ "'"

/-- `shlex.join` -/
def shlexJoin (argv : List String) : String := String.intercalate " " (argv.map shlexQuote)

section Probe

variable (w : World)

/-- `_run_check` -/
def runCheck (commit comp : String) (check : Check) (run : ℕ) : Except String Stage :=
  (w.acceptance commit comp check run).map fun
    | .ok out => ran ("acceptance:" ++ check.id) (shlexJoin check.argv) out w.checkLimit
    | .error exc =>
        ⟨"acceptance:" ++ check.id, String.intercalate " " check.argv, none, "did not run: " ++ exc, "0.0", [], ""⟩

/-- A check, run a number of times. -/
def runTimes (times : ℕ) (commit comp : String) (check : Check) : Except String (List Stage) :=
  ((List.range times).map (· + 1)).mapM (runCheck w commit comp check)

/-- `_probe` -/
def probe (wanted : List (String × Check)) (times : ℕ) (commit : String) : Except String Runs :=
  wanted.mapM fun e => (runTimes w times commit e.1 e.2).map fun stages => ((e.1, e.2.id), stages)

end Probe

/-! ## What a replay leaves -/

lemma Replay.after_failed {record : Replay} {stage : Stage} (h : stage.failed ≠ "") :
    (record.after stage).failed = stage.failed := by
  rw [Replay.after, if_neg h]

section Cases

variable {w : World} {stack : Stack} {commit : String} {probe : String → Except String Runs} {record : Replay}
  {result : Replay × Runs}

/-- The probe ran, or a stage before it failed. -/
lemma runProbe_cases (h : runProbe w stack commit (some probe) record = .ok result) :
    result.1 = record ∧ probe commit = .ok result.2 := by
  obtain ⟨runs, hruns, rfl⟩ := Except.map_eq_ok h
  exact ⟨rfl, hruns⟩

lemma runUp_cases (h : runUp w stack commit (some probe) record = .ok result) :
    result.2 = [] ∧ result.1.failed ≠ "" ∨ probe commit = .ok result.2 := by
  unfold runUp at h
  split_ifs at h with hup
  · exact .inr (runProbe_cases h).2
  · obtain ⟨out, -, h⟩ := Except.bind_eq_ok h
    by_cases hfailed : (ready stack.up out w.checkLimit).failed ≠ ""
    · rw [if_pos hfailed] at h
      cases h
      exact .inl ⟨rfl, Replay.after_failed hfailed ▸ hfailed⟩
    · rw [if_neg hfailed] at h
      exact .inr (runProbe_cases h).2

lemma runStages_cases (h : runStages w stack commit (some probe) record = .ok result) :
    result.2 = [] ∧ result.1.failed ≠ "" ∨ probe commit = .ok result.2 := by
  unfold runStages at h
  split_ifs at h with hsetup
  · exact runUp_cases h
  · obtain ⟨out, -, h⟩ := Except.bind_eq_ok h
    by_cases hfailed : (ran "setup" stack.setup out w.setupLimit).failed ≠ ""
    · rw [if_pos hfailed] at h
      cases h
      exact .inl ⟨rfl, Replay.after_failed hfailed ▸ hfailed⟩
    · rw [if_neg hfailed] at h
      exact runUp_cases h

lemma replayInRungs_cases (h : replayInRungs w stack commit (some probe) record = .ok result) :
    result.2 = [] ∧ result.1.failed ≠ "" ∨ probe commit = .ok result.2 := by
  obtain ⟨zones, -, h⟩ := Except.bind_eq_ok h
  by_cases hrefused : refusedZones stack zones ≠ []
  · rw [if_pos hrefused] at h
    cases h
    exact .inl ⟨rfl, by show replayBoundaryRefused ≠ ""; decide⟩
  · rw [if_neg hrefused] at h
    exact runStages_cases h

lemma append_ne_empty {s t : String} (h : s ≠ "") : s ++ t ≠ "" :=
  fun hempty => h (String.append_eq_empty_iff.mp hempty).1

lemma append_ne_empty' {s t : String} (h : t ≠ "") : s ++ t ≠ "" :=
  fun hempty => h (String.append_eq_empty_iff.mp hempty).2

lemma replayAt_cases (h : replayAt w stack commit (some probe) record = .ok result) :
    result.2 = [] ∧ (result.1.error ≠ "" ∨ result.1.failed ≠ "") ∨ probe commit = .ok result.2 := by
  unfold replayAt at h
  cases hcheckout : w.checkout commit with
  | some checkoutError =>
      rw [hcheckout] at h
      cases h
      refine .inl ⟨rfl, .inl ?_⟩
      exact append_ne_empty (append_ne_empty (append_ne_empty (by decide)))
  | none =>
      rw [hcheckout] at h
      obtain ⟨inner, hinner, rfl⟩ := Except.map_eq_ok h
      have hkept : (cleanedUp w inner).2 = inner.2 ∧ (cleanedUp w inner).1.failed = inner.1.failed := by
        unfold cleanedUp
        split
        · exact ⟨rfl, rfl⟩
        · split_ifs <;> exact ⟨rfl, rfl⟩
      rw [hkept.1, hkept.2]
      exact (replayInRungs_cases hinner).imp_left fun hstopped => ⟨hstopped.1, .inr hstopped.2⟩

/-- **How a replay of a commit ends**: before the probe, with the reason, or behind it. -/
theorem replayStack_cases {at_ : String} (hat : at_ ≠ "") (h : replayStack w stack at_ (some probe) = .ok result) :
    result.2 = [] ∧ (result.1.error ≠ "" ∨ result.1.failed ≠ "") ∨ probe at_ = .ok result.2 := by
  rw [replayStack, if_pos hat] at h
  exact replayAt_cases h

end Cases

/-! ## The runs of a probe -/

section Runs

variable {w : World} {wanted : List (String × Check)} {times : ℕ} {commit : String} {runs : Runs}

lemma mapM_ok_mem {ε α β : Type} {f : α → Except ε β} {l : List α} {bs : List β} (h : l.mapM f = .ok bs) {a : α}
    (ha : a ∈ l) : ∃ b ∈ bs, f a = .ok b := by
  induction l generalizing bs with
  | nil => cases ha
  | cons x l ih =>
      rw [List.mapM_cons] at h
      obtain ⟨b, hb, h⟩ := Except.bind_eq_ok h
      obtain ⟨bs, hbs, h⟩ := Except.bind_eq_ok h
      cases h
      rcases List.mem_cons.mp ha with rfl | ha
      · exact ⟨b, List.mem_cons_self, hb⟩
      · obtain ⟨c, hc, hfc⟩ := ih hbs ha
        exact ⟨c, List.mem_cons_of_mem _ hc, hfc⟩

lemma mapM_ok_length {ε α β : Type} {f : α → Except ε β} {l : List α} {bs : List β} (h : l.mapM f = .ok bs) :
    bs.length = l.length := by
  induction l generalizing bs with
  | nil => cases h; rfl
  | cons x l ih =>
      rw [List.mapM_cons] at h
      obtain ⟨b, -, h⟩ := Except.bind_eq_ok h
      obtain ⟨bs, hbs, h⟩ := Except.bind_eq_ok h
      cases h
      rw [List.length_cons, List.length_cons, ih hbs]

lemma runTimes_length {comp : String} {check : Check} {stages : List Stage}
    (h : runTimes w times commit comp check = .ok stages) : stages.length = times := by
  rw [mapM_ok_length h, List.length_map, List.length_range]

lemma probe_keys (h : probe w wanted times commit = .ok runs) :
    runs.map Prod.fst = wanted.map fun e => (e.1, e.2.id) := by
  induction wanted generalizing runs with
  | nil => cases h; rfl
  | cons e wanted ih =>
      rw [probe, List.mapM_cons] at h
      obtain ⟨b, hb, h⟩ := Except.bind_eq_ok h
      obtain ⟨bs, hbs, h⟩ := Except.bind_eq_ok h
      obtain ⟨stages, -, rfl⟩ := Except.map_eq_ok hb
      cases h
      rw [List.map_cons, List.map_cons, ih hbs]

/-- **The runs of a check** are what running it gave, all of them. -/
theorem get_probe (hids : (wanted.map fun e => (e.1, e.2.id)).Nodup) (h : probe w wanted times commit = .ok runs)
    {comp : String} {check : Check} (hcheck : (comp, check) ∈ wanted) :
    runTimes w times commit comp check = .ok (runs.get comp check.id) := by
  obtain ⟨run, hrun, hmap⟩ := mapM_ok_mem h hcheck
  obtain ⟨stages, hstages, rfl⟩ := Except.map_eq_ok hmap
  have hkeys : (runs.reverse.map Prod.fst).Nodup := by
    rw [List.map_reverse, List.nodup_reverse, probe_keys h]
    exact hids
  have hlookup : runs.reverse.lookup (comp, check.id) = some stages :=
    Keyed.lookup_of_mem hkeys (List.mem_reverse.mpr hrun)
  rw [Runs.get, hlookup, Option.getD_some]
  exact hstages

@[simp] lemma Runs.get_nil (comp id : String) : Runs.get [] comp id = [] := rfl

end Runs

end Kstrl.Acceptance
