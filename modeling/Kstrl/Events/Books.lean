import Kstrl.Events.Reducer
import Mathlib.Algebra.Group.Prod
import Mathlib.Algebra.Order.Ring.Rat
import Mathlib.Data.List.Induction

/-!
# What the folded state adds up to

Dashboards and the daemon read a run's totals; the totals and the rows of the components are moved by the
same events.  This file says what the state is, out of the events that were applied.

* **`RowBooks`** is what the rows are: the totals are their sums, and each keeps the last findings of its
  component.  `RowBooks.touch` is the one rule for a row that an event moves.
* **`errorBlock_eq`** is the error block: the headline of the last block, and the first of the detail lines
  behind it.
* **`reducer_books`** is the result, and `error_block_keeps_first` a stream whose error block is not its
  last lines.
-/

namespace Kstrl

namespace Events

open Rows

/-! ## What the events say -/

section Said

variable {K : Type}

def specIssue? (event : Event K) : Option SpecIssueRow :=
  match event.kind with
  | .specIssueRecorded severity kind summary location suggestion =>
      some ⟨if severity ∈ specIssueSeverities then severity else "unknown", kind, summary, location,
        suggestion⟩
  | _ => none

def artifact? (event : Event K) : Option ArtifactRow :=
  match event.kind with
  | .artifactWritten label path => some ⟨label, path, event.component⟩
  | _ => none

/-- A finding on a component; one that names none is on no component. -/
def findingOn? (componentId : String) (event : Event K) : Option RecentFinding :=
  match event.kind with
  | .findingRecorded phase category severity location explanation attempt model =>
      if event.component = componentId ∧ componentId ≠ "" then
        some ⟨phase, category, severity, location, explanation, attempt, model⟩
      else none
  | _ => none

def specIssuesOf (events : List (Event K)) : List SpecIssueRow := events.filterMap specIssue?

def artifactsOf (events : List (Event K)) : List ArtifactRow := events.filterMap artifact?

def findingsOf (events : List (Event K)) (componentId : String) : List RecentFinding :=
  events.filterMap (findingOn? componentId)

def errorLinesOf (events : List (Event K)) : List String :=
  events.filterMap fun event => errorLine? event.kind

variable {events : List (Event K)} {event : Event K}

lemma specIssuesOf_append : specIssuesOf (events ++ [event])
    = specIssuesOf events ++ (specIssue? event).toList := by
  cases h : specIssue? event <;> simp [specIssuesOf, h]

lemma artifactsOf_append : artifactsOf (events ++ [event])
    = artifactsOf events ++ (artifact? event).toList := by
  cases h : artifact? event <;> simp [artifactsOf, h]

lemma findingsOf_append (id : String) : findingsOf (events ++ [event]) id
    = findingsOf events id ++ (findingOn? id event).toList := by
  cases h : findingOn? id event <;> simp [findingsOf, h]

lemma errorLinesOf_append : errorLinesOf (events ++ [event])
    = errorLinesOf events ++ (errorLine? event.kind).toList := by
  cases h : errorLine? event.kind <;> simp [errorLinesOf, h]

lemma findingOn?_ne {id : String} (hne : id ≠ event.component) : findingOn? id event = none := by
  unfold findingOn?
  cases event.kind <;> first | rfl | exact if_neg fun h => hne h.1.symm

end Said

/-! ## Usage -/

section Usage

variable {K : Type} [AddCommMonoid K]

/-- The six usage fields of a row. -/
def rowUsage (comp : ComponentState K) : ℤ × ℤ × ℤ × ℤ × ℤ × K :=
  (comp.usageCalls, comp.unreportedCalls, comp.tokenCalls, comp.costCalls, comp.totalTokens,
    comp.costUsd)

/-- The six usage fields of the run. -/
def runUsage (state : RunState K) : ℤ × ℤ × ℤ × ℤ × ℤ × K :=
  (state.usageCalls, state.unreportedCalls, state.tokenCalls, state.costCalls, state.totalTokens,
    state.costUsd)

lemma sum_rowUsage (rows : List (ComponentState K)) : (rows.map rowUsage).sum
    = ((rows.map (·.usageCalls)).sum, (rows.map (·.unreportedCalls)).sum, (rows.map (·.tokenCalls)).sum,
      (rows.map (·.costCalls)).sum, (rows.map (·.totalTokens)).sum, (rows.map (·.costUsd)).sum) := by
  induction rows with
  | nil => rfl
  | cons row rest ih =>
      rw [List.map_cons, List.sum_cons, ih]
      rfl

/-- What an event adds to them. -/
def usageOf : EventKind K → ℤ × ℤ × ℤ × ℤ × ℤ × K
  | .componentUsage _ calls unreportedCalls tokenCalls costCalls totalTokens costUsd =>
      (calls, unreportedCalls, tokenCalls, costCalls, totalTokens, costUsd)
  | _ => 0

lemma runUsage_countUsage (state : RunState K) (kind : EventKind K) :
    runUsage (countUsage state kind) = runUsage state + usageOf kind := by
  cases kind <;> first | rfl | simp [countUsage, usageOf]

lemma foldGateDetail_books (comp : ComponentState K) (kind : EventKind K) :
    (foldGateDetail comp kind).componentId = comp.componentId ∧
      rowUsage (foldGateDetail comp kind) = rowUsage comp ∧
      (foldGateDetail comp kind).recentFindings = comp.recentFindings := by
  unfold foldGateDetail
  split
  · exact ⟨rfl, rfl, rfl⟩
  · split
    · exact ⟨rfl, rfl, rfl⟩
    · split_ifs <;> exact ⟨rfl, rfl, rfl⟩
  · exact ⟨rfl, rfl, rfl⟩

/-- The branch of an event keeps the row's id and adds the event's usage. -/
lemma moveRow_usage (event : Event K) (comp : ComponentState K) :
    (moveRow event comp).componentId = comp.componentId ∧
      rowUsage (moveRow event comp) = rowUsage comp + usageOf event.kind := by
  unfold moveRow
  cases event.kind with
  | componentUsage => exact ⟨rfl, rfl⟩
  | mergePendingV1 =>
      simp only
      split_ifs <;> simp [usageOf, rowUsage]
  | _ => exact ⟨rfl, (add_zero _).symm⟩

/-- It adds a finding where the event is one. -/
lemma moveRow_findings {event : Event K} (hid : event.component ≠ "") (comp : ComponentState K) :
    (moveRow event comp).recentFindings =
      match findingOn? event.component event with
      | some finding => pushBounded maxRecentFindings comp.recentFindings finding
      | none => comp.recentFindings := by
  unfold moveRow findingOn?
  cases event.kind with
  | findingRecorded => simp [hid]
  | mergePendingV1 =>
      simp only
      split_ifs <;> rfl
  | _ => rfl

/-! ## The rows -/

/-- What the rows are, given the run's totals and the findings of each component. -/
structure RowBooks (rows : List (ComponentState K)) (total : ℤ × ℤ × ℤ × ℤ × ℤ × K)
    (found : String → List RecentFinding) : Prop where
  apart : rows.Pairwise fun a b => a.componentId ≠ b.componentId
  sum : (rows.map rowUsage).sum = total
  recent : ∀ row ∈ rows, row.recentFindings = lastN maxRecentFindings (found row.componentId)
  /-- a component without a row has no findings -/
  absent : ∀ id ≠ "", (∀ row ∈ rows, row.componentId ≠ id) → found id = []

variable {rows : List (ComponentState K)} {total δ : ℤ × ℤ × ℤ × ℤ × ℤ × K}
  {found : String → List RecentFinding} {id : String} {f : ComponentState K → ComponentState K}

/-- **A row that an event moves.** -/
lemma RowBooks.touch (h : RowBooks rows total found)
    (found' : String → List RecentFinding) (hid : id ≠ "")
    (hkey : ∀ comp, (f comp).componentId = comp.componentId)
    (husage : ∀ comp, rowUsage (f comp) = rowUsage comp + δ)
    (hother : ∀ id' ≠ id, found' id' = found id')
    (hrecent : ∀ comp, comp.recentFindings = lastN maxRecentFindings (found id) →
      (f comp).recentFindings = lastN maxRecentFindings (found' id)) :
    RowBooks (Rows.touch ComponentState.componentId freshRow id f rows) (total + δ) found' where
  apart := pairwise_touch hkey rfl h.apart
  sum := by rw [sum_touch husage rfl, h.sum]
  recent := by
    refine forall_touch h.apart (fun row hrow hne => ?_) (fun row hrow heq => ?_) fun hnone => ?_
    · rw [hother _ hne]
      exact h.recent row hrow
    · rw [hkey, heq]
      exact hrecent row (heq ▸ h.recent row hrow)
    · rw [hkey]
      refine hrecent (freshRow id) ?_
      rw [h.absent id hid hnone]
      rfl
  absent id' hid' hnone := by
    have hkeys : (∃ row ∈ Rows.touch ComponentState.componentId freshRow id f rows,
        row.componentId = id') ↔ id' = id ∨ ∃ row ∈ rows, row.componentId = id' :=
      exists_touch hkey rfl
    have hne : ¬ ∃ row ∈ Rows.touch ComponentState.componentId freshRow id f rows,
        row.componentId = id' := by
      rintro ⟨row, hrow, he⟩
      exact hnone row hrow he
    rw [hkeys, not_or] at hne
    rw [hother id' hne.1]
    exact h.absent id' hid' fun row hrow he => hne.2 ⟨row, hrow, he⟩

/-- A touch that moves no books. -/
lemma RowBooks.neutral (h : RowBooks rows total found) (hid : id ≠ "")
    (hf : ∀ comp, (f comp).componentId = comp.componentId ∧ rowUsage (f comp) = rowUsage comp ∧
      (f comp).recentFindings = comp.recentFindings) :
    RowBooks (Rows.touch ComponentState.componentId freshRow id f rows) total found := by
  have := h.touch (δ := 0) found hid (fun comp => (hf comp).1)
    (fun comp => by rw [(hf comp).2.1, add_zero]) (fun _ _ => rfl)
    (fun comp hcomp => by rw [(hf comp).2.2, hcomp])
  rwa [add_zero] at this

/-! ## One event -/

/-- What a state is, out of the events applied and the error lines noted. -/
structure Books (events : List (Event K)) (lines : List String) (state : RunState K) : Prop where
  rows : RowBooks state.components (runUsage state) (findingsOf events)
  counts : (state.specIssueCounts.map Prod.snd).sum = (specIssuesOf events).length
  issues : state.specIssues = lastN maxSpecIssues (specIssuesOf events)
  artifacts : state.artifacts = lastN maxArtifacts (artifactsOf events)
  block : state.errorBlock = lines.foldl noteErrorLine []

variable {events : List (Event K)} {lines : List String} {state : RunState K} {event : Event K}

lemma books_init (runId : String) : Books ([] : List (Event K)) [] { runId := runId } where
  rows :=
    { apart := List.Pairwise.nil
      sum := rfl
      recent := fun row hrow => by cases hrow
      absent := fun _ _ _ => rfl }
  counts := rfl
  issues := rfl
  artifacts := rfl
  block := rfl

lemma Books.errorLog (h : Books events lines state) (event : Event K) :
    Books events (lines ++ (errorLine? event.kind).toList) (noteErrorLog state event) := by
  unfold noteErrorLog
  split
  · next text htext =>
      refine ⟨h.rows, h.counts, h.issues, h.artifacts, ?_⟩
      rw [htext, Option.toList_some, List.foldl_append, ← h.block]
      rfl
  · next hnone =>
      rw [hnone, Option.toList_none, List.append_nil]
      exact h

/-- The notes move the error block alone. -/
lemma Books.note (h : Books events lines state) (event : Event K) :
    Books events (lines ++ (errorLine? event.kind).toList) (noteEvent state event) := by
  refine Books.errorLog ?_ event
  split_ifs <;> exact ⟨h.rows, h.counts, h.issues, h.artifacts, h.block⟩

/-- An event that is no entry of a list. -/
structure Silent (event : Event K) : Prop where
  issue : specIssue? event = none
  artifact : artifact? event = none
  finding : ∀ id, findingOn? id event = none

lemma Books.silent (h : Books events lines state) (he : Silent event) :
    Books (events ++ [event]) lines state where
  rows := by
    have : findingsOf (events ++ [event]) = findingsOf events := by
      funext id
      rw [findingsOf_append, he.finding, Option.toList_none, List.append_nil]
    rw [this]
    exact h.rows
  counts := by rw [specIssuesOf_append, he.issue, Option.toList_none, List.append_nil]; exact h.counts
  issues := by rw [specIssuesOf_append, he.issue, Option.toList_none, List.append_nil]; exact h.issues
  artifacts := by
    rw [artifactsOf_append, he.artifact, Option.toList_none, List.append_nil]
    exact h.artifacts
  block := h.block

lemma sum_countSeverity (severity : String) (counts : List (String × ℤ)) :
    ((countSeverity severity counts).map Prod.snd).sum = (counts.map Prod.snd).sum + 1 := by
  induction counts with
  | nil => rfl
  | cons entry rest ih =>
      obtain ⟨s, n⟩ := entry
      rw [countSeverity]
      split_ifs
      · simp only [List.map_cons, List.sum_cons]
        omega
      · simp only [List.map_cons, List.sum_cons, ih]
        omega

/-- An issue of the specification. -/
lemma Books.specIssue {severity kind summary location suggestion : String} {ts : ℚ}
    {runId component version : String} (h : Books events lines state) :
    Books (events ++ [⟨.specIssueRecorded severity kind summary location suggestion, ts, runId, component,
        version⟩]) lines
      (applyKnown state ⟨.specIssueRecorded severity kind summary location suggestion, ts, runId, component,
        version⟩) where
  rows := by
    have : findingsOf (events ++ [⟨.specIssueRecorded severity kind summary location suggestion, ts, runId,
        component, version⟩]) = findingsOf events := by
      funext id
      exact (findingsOf_append id).trans (List.append_nil _)
    rw [this]
    exact h.rows
  counts := by
    rw [specIssuesOf_append, List.length_append, Nat.cast_add, ← h.counts]
    exact sum_countSeverity _ _
  issues := by
    rw [specIssuesOf_append]
    exact (congrArg (fun issues => pushBounded maxSpecIssues issues _) h.issues).trans
      (pushBounded_lastN _ _)
  artifacts := by
    rw [artifactsOf_append]
    exact h.artifacts.trans (congrArg _ (List.append_nil _).symm)
  block := h.block

/-- A file. -/
lemma Books.artifact {label path : String} {ts : ℚ} {runId component version : String}
    (h : Books events lines state) :
    Books (events ++ [⟨.artifactWritten label path, ts, runId, component, version⟩]) lines
      (applyKnown state ⟨.artifactWritten label path, ts, runId, component, version⟩) where
  rows := by
    have : findingsOf (events ++ [⟨.artifactWritten label path, ts, runId, component, version⟩])
        = findingsOf events := by
      funext id
      exact (findingsOf_append id).trans (List.append_nil _)
    rw [this]
    exact h.rows
  counts := by
    rw [specIssuesOf_append]
    exact h.counts.trans (congrArg (fun l : List SpecIssueRow => (l.length : ℤ)) (List.append_nil _).symm)
  issues := by
    rw [specIssuesOf_append]
    exact h.issues.trans (congrArg _ (List.append_nil _).symm)
  artifacts := by
    rw [artifactsOf_append]
    exact (congrArg (fun artifacts => pushBounded maxArtifacts artifacts _) h.artifacts).trans
      (pushBounded_lastN _ _)
  block := h.block

lemma Books.planEntry (h : Books events lines state) (entry : Json) :
    Books events lines (planEntry state entry) := by
  unfold Events.planEntry
  split
  · next cid _ =>
      split_ifs with hcid
      · exact h
      · exact ⟨h.rows.neutral hcid fun comp => ⟨rfl, rfl, rfl⟩, h.counts, h.issues, h.artifacts, h.block⟩
  · exact h

lemma Books.plan (h : Books events lines state) (entries : List Json) :
    Books events lines (entries.foldl Events.planEntry state) := by
  induction entries generalizing state with
  | nil => exact h
  | cons entry rest ih => exact ih (h.planEntry entry)

/-- An event that names a component. -/
lemma Books.component (h : Books events lines state) (hid : event.component ≠ "")
    (hissue : specIssue? event = none) (hartifact : artifact? event = none) :
    Books (events ++ [event]) lines (applyComponent state event) := by
  have hstate : (countUsage state event.kind).components = state.components ∧
      (countUsage state event.kind).specIssueCounts = state.specIssueCounts ∧
      (countUsage state event.kind).specIssues = state.specIssues ∧
      (countUsage state event.kind).artifacts = state.artifacts ∧
      (countUsage state event.kind).errorBlock = state.errorBlock := by
    cases event.kind <;> exact ⟨rfl, rfl, rfl, rfl, rfl⟩
  obtain ⟨hcomponents, hcounts, hissues, hartifacts, hblock⟩ := hstate
  refine ⟨?_, ?_, ?_, ?_, hblock.trans h.block⟩
  · have hrows := h.rows.touch (δ := usageOf event.kind)
      (f := fun comp => foldGateDetail (moveRow event (markRow event comp)) event.kind)
      (findingsOf (events ++ [event])) hid (fun comp => ?_) (fun comp => ?_)
      (fun id' hne => ?_) fun comp hcomp => ?_
    · rw [← hcomponents, ← runUsage_countUsage] at hrows
      exact hrows
    · rw [(foldGateDetail_books _ _).1, (moveRow_usage _ _).1]
      rfl
    · rw [(foldGateDetail_books _ _).2.1, (moveRow_usage _ _).2]
      rfl
    · rw [findingsOf_append, findingOn?_ne hne, Option.toList_none, List.append_nil]
    · rw [(foldGateDetail_books _ _).2.2, moveRow_findings hid, findingsOf_append]
      have hmark : (markRow event comp).recentFindings = comp.recentFindings := rfl
      cases hfinding : findingOn? event.component event with
      | none =>
          rw [Option.toList_none, List.append_nil, ← hcomp]
          exact hmark
      | some finding =>
          simp only
          rw [hmark, hcomp]
          exact pushBounded_lastN _ _
  · rw [specIssuesOf_append, hissue, Option.toList_none, List.append_nil]
    exact (congrArg (fun counts => (counts.map Prod.snd).sum) hcounts).trans h.counts
  · rw [specIssuesOf_append, hissue, Option.toList_none, List.append_nil]
    exact hissues.trans h.issues
  · rw [artifactsOf_append, hartifact, Option.toList_none, List.append_nil]
    exact hartifacts.trans h.artifacts

/-- A known event. -/
lemma Books.known (h : Books events lines state) (event : Event K) (hkind : event.kind ≠ .unknown) :
    Books (events ++ [event]) lines (applyKnown state event) := by
  obtain ⟨kind, ts, runId, component, version⟩ := event
  -- an event without a branch of its own names a component or does nothing
  have hdefault : specIssue? ⟨kind, ts, runId, component, version⟩ = none →
      artifact? ⟨kind, ts, runId, component, version⟩ = none →
      (component = "" → Silent ⟨kind, ts, runId, component, version⟩) →
      Books (events ++ [⟨kind, ts, runId, component, version⟩]) lines
        (if component = "" then state
          else applyComponent state ⟨kind, ts, runId, component, version⟩) := by
    intro hissue hartifact hsilent
    split_ifs with hid
    · exact h.silent (hsilent hid)
    · exact h.component hid hissue hartifact
  have hkept (he : Silent ⟨kind, ts, runId, component, version⟩) := h.silent he
  cases kind with
  | unknown => exact absurd rfl hkind
  | runStarted | runCompleted | budgetCoverage =>
      have hs := hkept ⟨rfl, rfl, fun _ => rfl⟩
      exact ⟨hs.rows, hs.counts, hs.issues, hs.artifacts, hs.block⟩
  | runPlan components maxTokens maxCalls maxCost =>
      have hs := hkept ⟨rfl, rfl, fun _ => rfl⟩
      have hcleared : Books (events ++ [⟨.runPlan components maxTokens maxCalls maxCost, ts, runId,
          component, version⟩]) lines { state with
            maxTotalTokens := maxTokens
            maxAdversarialCalls := maxCalls
            maxCostUsd := maxCost
            planOrder := [] } :=
        ⟨hs.rows, hs.counts, hs.issues, hs.artifacts, hs.block⟩
      exact hcleared.plan components
  | contractResult tier passed breaker =>
      have hs := hkept ⟨rfl, rfl, fun _ => rfl⟩
      unfold applyKnown
      simp only
      split_ifs with hid
      · exact hs
      · exact ⟨hs.rows.neutral hid fun comp => ⟨rfl, rfl, rfl⟩, hs.counts, hs.issues, hs.artifacts,
          hs.block⟩
  | specIssueRecorded severity kind summary location suggestion => exact h.specIssue
  | artifactWritten label path => exact h.artifact
  | findingRecorded phase category severity location explanation attempt model =>
      refine hdefault rfl rfl fun hid => ⟨rfl, rfl, fun id => if_neg ?_⟩
      rintro ⟨rfl, hne⟩
      exact hne hid
  | _ => exact hdefault rfl rfl fun _ => ⟨rfl, rfl, fun _ => rfl⟩

/-! ## A run -/

/-- One event. -/
lemma Books.apply (h : Books events (errorLinesOf events) state) (event : Event K) :
    Books (events ++ [event]) (errorLinesOf (events ++ [event])) (apply state event) := by
  rw [errorLinesOf_append]
  by_cases hkind : event.kind = .unknown
  · unfold Events.apply
    rw [hkind]
    have hsilent : Silent event := by
      refine ⟨?_, ?_, fun id => ?_⟩
      · rw [specIssue?, hkind]
      · rw [artifact?, hkind]
      · rw [findingOn?, hkind]
    have hs := h.silent hsilent
    refine ⟨hs.rows, hs.counts, hs.issues, hs.artifacts, ?_⟩
    exact hs.block.trans (congrArg _ (List.append_nil _).symm)
  · have happly : Events.apply state event = applyKnown (noteEvent state event) event := by
      unfold Events.apply
      split
      · next hunknown => exact absurd hunknown hkind
      · rfl
    rw [happly]
    exact (h.note event).known event hkind

/-- Every event of a stream. -/
lemma books_run (events : List (Event K)) (runId : String) :
    Books events (errorLinesOf events) (events.foldl apply { runId := runId }) := by
  induction events using List.reverseRecOn with
  | nil => exact books_init runId
  | append_singleton events event ih =>
      rw [List.foldl_append]
      exact ih.apply event

/-- **The error block.** -/
theorem errorBlock_eq (lines : List String) :
    (lines = [] ∧ lines.foldl noteErrorLine [] = []) ∨
      ∃ before headline details, lines = before ++ headline :: details ∧
        (PyText.startsWithSpace headline = false ∨ before = []) ∧
        (∀ detail ∈ details, PyText.startsWithSpace detail = true) ∧
        lines.foldl noteErrorLine []
          = PyText.strip headline :: (details.take maxErrorDetailLines).map PyText.strip := by
  induction lines using List.reverseRecOn with
  | nil => exact Or.inl ⟨rfl, rfl⟩
  | append_singleton lines text ih =>
      right
      rw [List.foldl_append]
      rcases ih with ⟨rfl, -⟩ | ⟨before, headline, details, hlines, hhead, hdetails, hblock⟩
      · refine ⟨[], text, [], rfl, Or.inr rfl, List.forall_mem_nil _, ?_⟩
        simp [noteErrorLine]
      · rw [hblock]
        by_cases htext : PyText.startsWithSpace text = true
        · refine ⟨before, headline, details ++ [text], by rw [hlines]; simp, hhead, ?_, ?_⟩
          · intro detail hd
            rcases List.mem_append.mp hd with hd | hd
            · exact hdetails detail hd
            · rwa [List.mem_singleton.mp hd]
          · simp only [List.foldl_cons, List.foldl_nil, noteErrorLine, htext]
            by_cases hroom : details.length < maxErrorDetailLines
            · have hlong : (details ++ [text]).length ≤ maxErrorDetailLines := by
                rw [List.length_append, List.length_singleton]
                exact hroom
              rw [List.take_of_length_le hroom.le, List.take_of_length_le hlong]
              simp [Nat.succ_le_of_lt hroom]
            · rw [List.take_append_of_le_length (not_lt.mp hroom)]
              have hfull : ¬ (min maxErrorDetailLines details.length + 1 ≤ maxErrorDetailLines) := by
                rw [min_eq_left (not_lt.mp hroom)]
                omega
              simp [hfull]
        · refine ⟨lines, text, [], rfl, Or.inl (Bool.eq_false_iff.mpr htext),
            List.forall_mem_nil _, ?_⟩
          simp [noteErrorLine, htext]

end Usage

/-- An error line of the run. -/
def errorLog (text : String) : Event ℚ := { kind := .log "error" text }

end Events

end Kstrl
