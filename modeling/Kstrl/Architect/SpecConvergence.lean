import Kstrl.Architect.SpecIssues

/-!
# The convergence report of the spec audits

The trend of the spec audits of one project (`kstrl/architect/spec_convergence.py`), over the audits that
`get_spec_audits` and `get_spec_issue_runs` of `kstrl/learning/journal_reads.py` take from the journal, and
the accounting of the audits the trend leaves out.

* **`audits_partition`**: every audit is in one bucket.
* **`counted_le_window`** and `window_suffix`: the trend counts audits of the window, the last ones of this project.
* **`report_accounts`**: the printed numbers add up, for any journal, project, spec file and lookback.
-/

namespace Kstrl.Architect

/-! ## The audits of the journal -/

def specIssuesEvent : String := "spec_issues"

/-- Whether a row of the journal is a spec audit. -/
def isSpecAudit (entry : Json) : Bool :=
  match entry.get? "event_type" with
  | some (.str event) => event = specIssuesEvent
  | _ => false

/-- What the report reads of the journal: its rows, and how far back the trend looks. -/
structure Journal where
  entries : List Json
  lookbackRuns : ℤ

def getSpecAudits (journal : Journal) : List Json := journal.entries.filter isSpecAudit

/-- The last `lastN` audits of a project. -/
def getSpecIssueRuns (project : String) (lastN : ℤ) (audits : List Json) : List Json :=
  let runs := audits.filter fun entry => isSpecAudit entry && entry.asStr "project" = project
  if 0 < lastN then runs.drop (runs.length - lastN.toNat) else []

/-- One read of the audits: all of them, those the trend scores, and how far back these reach. -/
structure AuditSnapshot where
  audits : List Json
  window : List Json
  lookback : ℤ

def journalSnapshot (journal : Option Journal) (projectName : String) : AuditSnapshot :=
  match journal with
  | none => { audits := [], window := [], lookback := 0 }
  | some journal =>
      { audits := getSpecAudits journal
        window := getSpecIssueRuns projectName journal.lookbackRuns (getSpecAudits journal)
        lookback := journal.lookbackRuns }

/-! ## The trend -/

/-- The issue in one entry of a stored list. -/
def storedIssue : Json → Option SpecIssue
  | .obj fields =>
      let entry := Json.obj fields
      some { severity := entry.asStr "severity", kind := entry.asStr "kind", summary := entry.asStr "summary" }
  | _ => none

/-- The issues an audit recorded; none for an audit that cannot be scored. -/
def storedIssues (entry : Json) : Option (List SpecIssue) :=
  match entry.get? "issues" with
  | some (.arr raw) =>
      let stored := raw.filterMap storedIssue
      if stored.any fun i => i.severity ∉ severityOrder then none else some stored
  | _ => none

/-- `_issue_counts`, worst severity first. -/
def issueCounts (issues : List SpecIssue) : List (String × ℕ) :=
  severityOrder.map fun severity => (severity, issues.countP fun i => i.severity = severity)

/-- How many issues are blockers. -/
def blockers (issues : List SpecIssue) : ℕ := issues.countP fun i => i.severity = severityBlocker

/-- `" ".join(text.split())` -/
def collapsed (text : String) : String :=
  String.intercalate " " (((text.toList.splitOnP PyText.isSpace).filter (· ≠ [])).map String.ofList)

/-- This audit measured against the earlier ones of the same project. -/
structure SpecConvergence where
  currentCounts : List (String × ℕ)
  previousCounts : List (String × ℕ)
  currentSpecFile : String
  previousSpecFile : String
  repeated : ℕ
  blockerTrend : List ℕ

def SpecConvergence.previousTotal (report : SpecConvergence) : ℕ := (report.previousCounts.map Prod.snd).sum

section Report

variable (casefold : String → String)

/-- The match key of an issue; `casefold` is that of `str`. -/
def issueIdentity (issue : SpecIssue) : String × String := (issue.kind, casefold (collapsed issue.summary))

/-- The audits of a history that can be scored, with the spec file of each. -/
def scorable (history : List Json) : List (String × List SpecIssue) :=
  history.filterMap fun entry => (storedIssues entry).map fun stored => (entry.asStr "spec_file", stored)

/-- Compare this run's issues with the earlier audits, oldest first. -/
def buildConvergence (issues : List SpecIssue) (specFile : String) (history : List Json) :
    Option SpecConvergence :=
  match (scorable history).getLast? with
  | none => none
  | some (previousSpecFile, previousIssues) =>
      some
        { currentCounts := issueCounts issues
          previousCounts := issueCounts previousIssues
          currentSpecFile := specFile
          previousSpecFile := previousSpecFile
          repeated := previousIssues.countP fun i =>
            issueIdentity casefold i ∈ issues.map (issueIdentity casefold)
          blockerTrend := (scorable history).map (fun audit => blockers audit.2) ++
            [((issueCounts issues).lookup severityBlocker).getD 0] }

end Report

/-- How many earlier audits the trend counts. -/
def countedAudits (report : Option SpecConvergence) : ℕ :=
  match report with
  | some report => report.blockerTrend.length - 1
  | none => 0

/-! ## The audits it leaves out -/

inductive AuditBucket where
  | own
  | other
  | unattributed
  deriving DecidableEq, Repr

def auditBucket (entry : Json) (projectName : String) : AuditBucket :=
  if entry.asStr "project" = projectName then .own
  else if entry.asStr "project" = "" then .unattributed
  else .other

/-- The spec audits under one other project name. -/
structure ExcludedProject where
  project : String
  audits : ℕ
  specFiles : List String
  readThisSpec : Bool
  lastRecorded : String

/-- The order they are named in: those that read this spec file first, then by how much they hold. -/
def ExcludedProject.le (a b : ExcludedProject) : Prop :=
  a.readThisSpec = true ∧ b.readThisSpec = false ∨
    a.readThisSpec = b.readThisSpec ∧ (b.audits < a.audits ∨ a.audits = b.audits ∧ a.project ≤ b.project)

instance (a b : ExcludedProject) : Decidable (a.le b) := by unfold ExcludedProject.le; infer_instance

/-- `by_project.setdefault(project, []).append(file)` -/
def push (project file : String) : List (String × List String) → List (String × List String)
  | [] => [(project, [file])]
  | (p, files) :: rest =>
      if p = project then (p, files ++ [file]) :: rest else (p, files) :: push project file rest

/-- The audits of the other projects. -/
def otherAuditsOf (audits : List Json) (projectName : String) : List Json :=
  audits.filter fun entry => auditBucket entry projectName = .other

/-- The spec files of the audits of each other project. -/
def byProject (audits : List Json) (projectName : String) : List (String × List String) :=
  (otherAuditsOf audits projectName).foldl
    (fun d entry => push (entry.asStr "project") (entry.asStr "spec_file") d) []

/-- The last timestamp that an audit of a project carries. -/
def lastSeen (audits : List Json) (project : String) : String :=
  (((audits.filter fun entry => entry.asStr "project" = project).map fun entry => entry.asStr "timestamp").filter
    (· ≠ "")).getLastD ""

def excludedProject (audits : List Json) (projectName specFile : String) (e : String × List String) :
    ExcludedProject where
  project := e.1
  audits := e.2.length
  specFiles := ((e.2.filter (· ≠ "")).dedup).insertionSort (· ≤ ·)
  readThisSpec := e.2.contains specFile
  lastRecorded := lastSeen (otherAuditsOf audits projectName) e.1

def excludedProjects (audits : List Json) (projectName specFile : String) : List ExcludedProject :=
  ((byProject audits projectName).map (excludedProject audits projectName specFile)).insertionSort
    ExcludedProject.le

/-- Every spec audit of the journal that the trend does not count. -/
structure ExcludedHistory where
  ownRecorded : ℕ
  projects : List ExcludedProject
  unattributed : ℕ
  lookback : ℤ

namespace ExcludedHistory

def otherAudits (e : ExcludedHistory) : ℕ := (e.projects.map ExcludedProject.audits).sum

/-- The audits of this project that the trend was offered and could not score. -/
def unreadable (e : ExcludedHistory) (counted : ℕ) : ℕ :=
  (if 0 < e.lookback then min e.ownRecorded e.lookback.toNat else 0) - counted

/-- The audits of this project outside the window. -/
def windowedOut (e : ExcludedHistory) (counted : ℕ) : ℕ := e.ownRecorded - counted - e.unreadable counted

end ExcludedHistory

def excludedHistory (audits : List Json) (projectName specFile : String) (lookback : ℤ) : ExcludedHistory where
  ownRecorded := audits.countP fun entry => auditBucket entry projectName = .own
  projects := excludedProjects audits projectName specFile
  unattributed := audits.countP fun entry => auditBucket entry projectName = .unattributed
  lookback := lookback

/-! ## Every audit is in one bucket -/

lemma sum_push (project file : String) (d : List (String × List String)) :
    ((push project file d).map fun e => e.2.length).sum = (d.map fun e => e.2.length).sum + 1 := by
  induction d with
  | nil => simp [push]
  | cons e d ih =>
      obtain ⟨p, files⟩ := e
      rw [push]
      split_ifs with hp
      · simp; omega
      · simp [ih]; omega

/-- Grouping loses no audit: by induction on the audits, for any groups before them. -/
lemma sum_byProject (audits : List Json) (projectName : String) :
    ((byProject audits projectName).map fun e => e.2.length).sum =
      (otherAuditsOf audits projectName).length := by
  have hfold : ∀ (l : List Json) (d : List (String × List String)),
      ((l.foldl (fun d entry => push (entry.asStr "project") (entry.asStr "spec_file") d) d).map
        fun e => e.2.length).sum = (d.map fun e => e.2.length).sum + l.length := by
    intro l
    induction l with
    | nil => intro d; simp
    | cons entry l ih => intro d; rw [List.foldl_cons, ih, sum_push, List.length_cons]; omega
  simpa [byProject] using hfold (otherAuditsOf audits projectName) []

lemma otherAudits_eq (audits : List Json) (projectName specFile : String) (lookback : ℤ) :
    (excludedHistory audits projectName specFile lookback).otherAudits =
      audits.countP fun entry => auditBucket entry projectName = .other := by
  have hperm := (List.perm_insertionSort ExcludedProject.le ((byProject audits projectName).map
    (excludedProject audits projectName specFile))).map ExcludedProject.audits
  rw [ExcludedHistory.otherAudits, excludedHistory, excludedProjects, hperm.sum_nat, List.map_map,
    List.countP_eq_length_filter]
  exact sum_byProject audits projectName

/-- **Every audit is in one bucket.** -/
theorem audits_partition (audits : List Json) (projectName specFile : String) (lookback : ℤ) :
    let excluded := excludedHistory audits projectName specFile lookback
    excluded.ownRecorded + excluded.otherAudits + excluded.unattributed = audits.length := by
  intro excluded
  rw [otherAudits_eq audits projectName specFile lookback]
  show audits.countP _ + _ + audits.countP _ = _
  induction audits with
  | nil => rfl
  | cons entry audits ih =>
      simp only [List.countP_cons, List.length_cons]
      cases auditBucket entry projectName <;> simp at ih ⊢ <;> omega

/-! ## The window -/

lemma auditBucket_own {entry : Json} {projectName : String} :
    auditBucket entry projectName = .own ↔ entry.asStr "project" = projectName := by
  unfold auditBucket
  split_ifs with hown hblank <;> simp [hown]

/-- The audits of this project, oldest first. -/
def ownAudits (audits : List Json) (projectName : String) : List Json :=
  audits.filter fun entry => auditBucket entry projectName = .own

lemma ownRecorded_eq (audits : List Json) (projectName specFile : String) (lookback : ℤ) :
    (excludedHistory audits projectName specFile lookback).ownRecorded =
      (ownAudits audits projectName).length :=
  List.countP_eq_length_filter

/-- The window is over the audits that the accounting calls this project's own. -/
lemma getSpecIssueRuns_audits (journal : Journal) (project : String) (lastN : ℤ) :
    getSpecIssueRuns project lastN (getSpecAudits journal) =
      if 0 < lastN then
        (ownAudits (getSpecAudits journal) project).drop
          ((ownAudits (getSpecAudits journal) project).length - lastN.toNat)
      else [] := by
  have hruns : (getSpecAudits journal).filter
      (fun entry => isSpecAudit entry && entry.asStr "project" = project) =
        ownAudits (getSpecAudits journal) project := by
    refine List.filter_congr fun entry hentry => ?_
    rw [(List.mem_filter.mp hentry).2, Bool.true_and]
    simp [auditBucket_own]
  rw [getSpecIssueRuns, hruns]

/-- The audits of this project end with those of the window. -/
lemma window_suffix (journal : Option Journal) (projectName : String) :
    ∃ outside, ownAudits (journalSnapshot journal projectName).audits projectName =
      outside ++ (journalSnapshot journal projectName).window := by
  cases journal with
  | none => exact ⟨[], rfl⟩
  | some journal =>
      simp only [journalSnapshot, getSpecIssueRuns_audits]
      split_ifs with hlast
      · exact ⟨_, (List.take_append_drop _ _).symm⟩
      · exact ⟨_, (List.append_nil _).symm⟩

/-- The window holds as many audits of this project as it offers. -/
lemma window_length (journal : Option Journal) (projectName specFile : String) :
    let snapshot := journalSnapshot journal projectName
    let excluded := excludedHistory snapshot.audits projectName specFile snapshot.lookback
    snapshot.window.length =
      if 0 < excluded.lookback then min excluded.ownRecorded excluded.lookback.toNat else 0 := by
  intro snapshot excluded
  have hown : excluded.ownRecorded = (ownAudits snapshot.audits projectName).length :=
    ownRecorded_eq _ _ _ _
  rw [hown]
  cases journal with
  | none => rfl
  | some journal =>
      show (getSpecIssueRuns projectName journal.lookbackRuns (getSpecAudits journal)).length = _
      rw [getSpecIssueRuns_audits]
      show _ = if 0 < journal.lookbackRuns then
        min (ownAudits (getSpecAudits journal) projectName).length journal.lookbackRuns.toNat else 0
      split_ifs with hlast
      · rw [List.length_drop]; omega
      · rfl

/-! ## What the trend counts -/

lemma lookup_issueCounts (issues : List SpecIssue) :
    ((issueCounts issues).lookup severityBlocker).getD 0 = blockers issues := rfl

lemma length_scorable (history : List Json) :
    (scorable history).length = history.countP fun entry => (storedIssues entry).isSome := by
  induction history with
  | nil => rfl
  | cons entry history ih =>
      rw [scorable, List.filterMap_cons, List.countP_cons]
      cases storedIssues entry with
      | none => simpa [scorable] using ih
      | some stored => simpa [scorable] using ih

section

variable (casefold : String → String)

/-- **The trend counts the scorable audits of its history.** -/
theorem countedAudits_eq (issues : List SpecIssue) (specFile : String) (history : List Json) :
    countedAudits (buildConvergence casefold issues specFile history) =
      history.countP fun entry => (storedIssues entry).isSome := by
  rw [← length_scorable]
  unfold buildConvergence
  cases hlast : (scorable history).getLast? with
  | none => rw [List.getLast?_eq_none_iff.mp hlast]; rfl
  | some audit => simp [countedAudits]

lemma counted_le_window (issues : List SpecIssue) (specFile : String) (history : List Json) :
    countedAudits (buildConvergence casefold issues specFile history) ≤ history.length := by
  rw [countedAudits_eq]
  exact List.countP_le_length

/-- The audits that can be scored are those whose issues are read. -/
lemma map_scorable (f : List SpecIssue → ℕ) (history : List Json) :
    (scorable history).map (fun audit => f audit.2) = (history.filterMap storedIssues).map f := by
  simp [scorable, List.map_filterMap, Option.map_map, Function.comp_def]

lemma buildConvergence_eq_none (issues : List SpecIssue) (specFile : String) (history : List Json) :
    buildConvergence casefold issues specFile history = none ↔ history.filterMap storedIssues = [] := by
  have hscored := congrArg List.length (map_scorable List.length history)
  rw [List.length_map, List.length_map] at hscored
  rw [← List.length_eq_zero_iff, ← hscored, List.length_eq_zero_iff, ← List.getLast?_eq_none_iff]
  unfold buildConvergence
  cases (scorable history).getLast? <;> simp

lemma trend_eq {issues : List SpecIssue} {specFile : String} {history : List Json} {report : SpecConvergence}
    (h : buildConvergence casefold issues specFile history = some report) :
    report.blockerTrend = (history.filterMap storedIssues).map blockers ++ [blockers issues] := by
  unfold buildConvergence at h
  split at h
  · cases h
  · cases h
    rw [map_scorable, lookup_issueCounts]

lemma severity_of_stored {entry : Json} {stored : List SpecIssue} (h : storedIssues entry = some stored) :
    ∀ i ∈ stored, i.severity ∈ severityOrder := by
  unfold storedIssues at h
  split at h
  · simp only at h
    split_ifs at h with hany
    cases h
    intro i hi
    by_contra hsev
    exact hany (List.any_eq_true.mpr ⟨i, hi, by simpa using hsev⟩)
  · cases h

/-- Every issue of a known severity is counted under it. -/
lemma sum_issueCounts {issues : List SpecIssue} (h : ∀ i ∈ issues, i.severity ∈ severityOrder) :
    ((issueCounts issues).map Prod.snd).sum = issues.length := by
  induction issues with
  | nil => rfl
  | cons i issues ih =>
      have hrest := ih fun j hj => h j (List.mem_cons_of_mem _ hj)
      have hsev := h i List.mem_cons_self
      simp only [issueCounts, severityOrder, severityBlocker, List.map_cons, List.map_nil, List.sum_cons,
        List.sum_nil, List.countP_cons, List.length_cons, List.mem_cons, List.not_mem_nil, or_false] at *
      rcases hsev with hs | hs | hs <;> simp [hs] <;> omega

lemma repeated_le {issues : List SpecIssue} {specFile : String} {history : List Json} {report : SpecConvergence}
    (h : buildConvergence casefold issues specFile history = some report) :
    report.repeated ≤ report.previousTotal := by
  unfold buildConvergence at h
  split at h
  · cases h
  · next previousSpecFile previousIssues hlast =>
      cases h
      obtain ⟨entry, -, hentry⟩ := List.mem_filterMap.mp (List.mem_of_getLast? hlast)
      obtain ⟨stored, hstored, hpair⟩ := Option.map_eq_some_iff.mp hentry
      obtain ⟨-, rfl⟩ := Prod.mk.inj hpair
      rw [SpecConvergence.previousTotal, sum_issueCounts (severity_of_stored hstored)]
      exact List.countP_le_length

/-- **The report accounts for every audit.**  The three buckets add up to the audits; the audits of this project
are those counted, those of the window that cannot be scored, and those outside the window; the trend is that of
the scorable audits of the window, in order; and no more issues are repeated than there were. -/
theorem report_accounts (journal : Option Journal) (projectName specFile : String) (issues : List SpecIssue) :
    let snapshot := journalSnapshot journal projectName
    let excluded := excludedHistory snapshot.audits projectName specFile snapshot.lookback
    let report := buildConvergence casefold issues specFile snapshot.window
    let counted := countedAudits report
    (excluded.ownRecorded = (ownAudits snapshot.audits projectName).length ∧
      excluded.otherAudits = snapshot.audits.countP (fun entry => auditBucket entry projectName = .other) ∧
      excluded.unattributed =
        snapshot.audits.countP (fun entry => auditBucket entry projectName = .unattributed) ∧
      excluded.ownRecorded + excluded.otherAudits + excluded.unattributed = snapshot.audits.length) ∧
    counted + excluded.unreadable counted + excluded.windowedOut counted = excluded.ownRecorded ∧
    excluded.unreadable counted = snapshot.window.countP (fun entry => (storedIssues entry).isNone) ∧
    (∃ outside, ownAudits snapshot.audits projectName = outside ++ snapshot.window ∧
      excluded.windowedOut counted = outside.length) ∧
    counted = (snapshot.window.filterMap storedIssues).length ∧
    (report = none ↔ snapshot.window.filterMap storedIssues = []) ∧
    ∀ r, report = some r →
      r.blockerTrend = (snapshot.window.filterMap storedIssues).map blockers ++ [blockers issues] ∧
      r.repeated ≤ r.previousTotal := by
  intro snapshot excluded report counted
  have hown : excluded.ownRecorded = (ownAudits snapshot.audits projectName).length := ownRecorded_eq _ _ _ _
  have hoffered := window_length journal projectName specFile
  have hcounted : counted ≤ snapshot.window.length := counted_le_window casefold issues specFile _
  have hcount : counted = snapshot.window.countP fun entry => (storedIssues entry).isSome :=
    countedAudits_eq casefold issues specFile _
  have hunread : excluded.unreadable counted = snapshot.window.length - counted := by
    rw [ExcludedHistory.unreadable, ← hoffered]
  obtain ⟨outside, hsuffix⟩ := window_suffix journal projectName
  have hlength : excluded.ownRecorded = outside.length + snapshot.window.length := by
    rw [hown, hsuffix, List.length_append]
  have hout : excluded.windowedOut counted = outside.length := by
    rw [ExcludedHistory.windowedOut, hunread]; omega
  have hscored : counted = (snapshot.window.filterMap storedIssues).length := by
    rw [hcount, List.length_filterMap_eq_countP]
  refine ⟨⟨hown, otherAudits_eq _ _ _ _, rfl, audits_partition _ _ _ _⟩, ?_, ?_,
    ⟨outside, hsuffix, hout⟩, hscored, buildConvergence_eq_none casefold issues specFile _, ?_⟩
  · rw [hunread, hout]; omega
  · have hsplit := List.length_eq_countP_add_countP (fun entry => (storedIssues entry).isSome)
      (l := snapshot.window)
    rw [hunread, hcount, hsplit, Nat.add_sub_cancel_left]
    exact congrArg (fun p => List.countP p snapshot.window) (funext fun entry => by
      cases storedIssues entry <;> rfl)
  · intro r hr
    exact ⟨trend_eq casefold hr, repeated_le casefold hr⟩

end

end Kstrl.Architect
