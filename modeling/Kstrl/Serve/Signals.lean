import Kstrl.Base.Keyed
import Kstrl.Owner.Inbox
import Mathlib.Data.List.ReduceOption

/-!
# Signals

The poll of a tracker (`kstrl/serve/signals.py`): the rows of one page are classified against the ledger and appended
to it.  The ledger is the list of its rows, each a JSON object.

* **`Signal.fromDict_toDict`**: nothing of a row is lost.
* **`indexLedger_lookup`**: an issue is classified against its last row.
* **`pollReport_kind`**: the kind of each row of a poll, by that row.
-/

namespace Kstrl.Serve.Signals


/-! ## The vocabulary -/

inductive SignalKind where
  | newIssue
  | «repeat»
  | recurrence
  deriving DecidableEq, Repr

namespace SignalKind

def value : SignalKind → String
  | newIssue => "new_issue"
  | .repeat => "repeat"
  | recurrence => "recurrence"

def ofValue? (value : String) : Option SignalKind :=
  [newIssue, .repeat, recurrence].find? fun k => k.value = value

@[simp] lemma ofValue?_value (k : SignalKind) : ofValue? k.value = some k := by cases k <;> decide

end SignalKind

/-- What a poll would have done with an issue. -/
inductive Disposition where
  | wouldEnqueue
  | wouldWatch
  | wouldNotify
  deriving DecidableEq, Repr

namespace Disposition

def value : Disposition → String
  | wouldEnqueue => "would_enqueue"
  | wouldWatch => "would_watch"
  | wouldNotify => "would_notify"

def ofValue? (value : String) : Option Disposition :=
  [wouldEnqueue, wouldWatch, wouldNotify].find? fun d => d.value = value

@[simp] lemma ofValue?_value (d : Disposition) : ofValue? d.value = some d := by cases d <;> decide

end Disposition

structure SignalsConfig where
  product : String := ""
  newIssueEvents : ℤ := 3
  repeatGrowthEvents : ℤ := 10

/-- One issue, as of one poll. -/
structure Signal where
  schemaVersion : ℤ
  pollId : String
  observedAt : String
  product : String
  tracker : String
  issueId : String
  friendlyId : String
  eventCount : ℤ
  resolved : Bool
  firstSeen : String
  lastSeen : String
  errorType : String
  errorValue : String
  transaction : String
  release : Option String
  kind : SignalKind
  disposition : Disposition
  pollNewIssues : ℤ
  pollMaxEventsOnANewIssue : ℤ
  deriving DecidableEq

def maxTextChars : ℕ := 500

def clip (text : String) : String := String.ofList (text.toList.take maxTextChars)

namespace Signal

def toDict (s : Signal) : Json :=
  .obj [("schema_version", .int s.schemaVersion),
    ("poll_id", .str s.pollId),
    ("observed_at", .str s.observedAt),
    ("product", .str s.product),
    ("tracker", .str s.tracker),
    ("issue_id", .str s.issueId),
    ("friendly_id", .str s.friendlyId),
    ("event_count", .int s.eventCount),
    ("resolved", .bool s.resolved),
    ("first_seen", .str s.firstSeen),
    ("last_seen", .str s.lastSeen),
    ("error_type", .str s.errorType),
    ("error_value", .str s.errorValue),
    ("transaction", .str s.transaction),
    ("release", (s.release.map Json.str).getD .null),
    ("kind", .str s.kind.value),
    ("disposition", .str s.disposition.value),
    ("poll_new_issues", .int s.pollNewIssues),
    ("poll_max_events_on_a_new_issue", .int s.pollMaxEventsOnANewIssue)]

/-- Rebuild one row; none for a row without an issue, a kind or a disposition. -/
def fromDict (data : Json) : Option Signal :=
  match data.get? "issue_id" with
  | some (.str issueId) =>
      if issueId = "" then none
      else do
        let kind ← SignalKind.ofValue? (← data.get? "kind").pyStr
        let disposition ← Disposition.ofValue? (← data.get? "disposition").pyStr
        pure {
          schemaVersion := data.asInt "schema_version" 1
          pollId := Owner.InboxItem.textOf data "poll_id"
          observedAt := Owner.InboxItem.textOf data "observed_at"
          product := Owner.InboxItem.textOf data "product"
          tracker := Owner.InboxItem.textOf data "tracker"
          issueId := issueId
          friendlyId := Owner.InboxItem.textOf data "friendly_id"
          eventCount := data.asInt "event_count" 0
          resolved := ((data.get? "resolved").getD (.bool false)).truthy
          firstSeen := Owner.InboxItem.textOf data "first_seen"
          lastSeen := Owner.InboxItem.textOf data "last_seen"
          errorType := Owner.InboxItem.textOf data "error_type"
          errorValue := Owner.InboxItem.textOf data "error_value"
          transaction := Owner.InboxItem.textOf data "transaction"
          release := match data.get? "release" with
            | none => none
            | some .null => none
            | some value => some value.pyStr
          kind := kind
          disposition := disposition
          pollNewIssues := data.asInt "poll_new_issues" 0
          pollMaxEventsOnANewIssue := data.asInt "poll_max_events_on_a_new_issue" 0 }
  | _ => none

/-- **Nothing of a row is lost.** -/
theorem fromDict_toDict {s : Signal} (h : s.issueId ≠ "") : fromDict s.toDict = some s := by
  unfold fromDict toDict Owner.InboxItem.textOf
  cases hrelease : s.release <;>
    simp [Json.get?, Json.asInt, List.lookup_cons, Json.pyStr, Json.truthy, h] <;>
    cases s <;> simp_all

end Signal

/-! ## Normalise and classify -/

/-- One row of the tracker; none for a row this adapter cannot use.  A row that is no object raises. -/
def normaliseBugsink (product : String) (row : Json) : Option (Option Signal) :=
  match row with
  | .obj fields =>
      let row := Json.obj fields
      some <| match row.get? "id", row.get? "digested_event_count" with
        | some (.str issueId), some (.int eventCount) =>
            if issueId = "" then none
            else some {
              schemaVersion := 1
              pollId := ""
              observedAt := ""
              product := product
              tracker := "bugsink"
              issueId := issueId
              friendlyId := clip (Owner.InboxItem.textOf row "friendly_id")
              eventCount := eventCount
              resolved := ((row.get? "is_resolved").getD (.bool false)).truthy
              firstSeen := Owner.InboxItem.textOf row "first_seen"
              lastSeen := Owner.InboxItem.textOf row "last_seen"
              errorType := clip (Owner.InboxItem.textOf row "calculated_type")
              errorValue := clip (Owner.InboxItem.textOf row "calculated_value")
              transaction := clip (Owner.InboxItem.textOf row "transaction")
              release := none
              kind := .newIssue
              disposition := .wouldWatch
              pollNewIssues := 0
              pollMaxEventsOnANewIssue := 0 }
        | _, _ => none
  | _ => none

/-- The kind and the disposition of a row, by the last one of its issue. -/
def classify (config : SignalsConfig) (signal : Signal) (previous : Option Signal) : SignalKind × Disposition :=
  match previous with
  | none =>
      (.newIssue, if config.newIssueEvents ≤ signal.eventCount then .wouldEnqueue else .wouldWatch)
  | some previous =>
      if previous.resolved && previous.lastSeen < signal.lastSeen then (.recurrence, .wouldEnqueue)
      else (.repeat,
        if config.repeatGrowthEvents ≤ signal.eventCount - previous.eventCount then .wouldNotify else .wouldWatch)

/-! ## The ledger -/

/-- One pass over the ledger: the readable rows, oldest first, and how many are not. -/
structure LedgerRead where
  signals : List Signal
  dropped : ℕ

def readLedger (log : List Json) : LedgerRead where
  signals := log.filterMap Signal.fromDict
  dropped := log.countP fun row => (Signal.fromDict row).isNone

/-- Append rows, all of them or none, under the lock. -/
def appendSignals (log : List Json) (signals : List Signal) : List Json := log ++ signals.map Signal.toDict

/-- `_index_ledger`: the latest row of each issue. -/
def indexLedger (records : List Signal) : List (String × Signal) :=
  Keyed.dict (records.map fun record => (record.issueId, record))

/-! ## The poll -/

/-- The rows of a page; none for a page of another shape. -/
def rowsFromDocument (document : Json) : Option (List Json) :=
  match document with
  | .obj fields =>
      match (Json.obj fields).get? "results" with
      | some (.arr results) => some results
      | _ => none
  | _ => none

/-- A row with its kind and its disposition. -/
abbrev Classified := Signal × SignalKind × Disposition

/-- The rows that can be used, classified, and how many cannot. -/
def classifyRows (config : SignalsConfig) (rows : List Json) (previousById : List (String × Signal)) :
    Option (List Classified × ℕ) := do
  let normalised ← rows.mapM (normaliseBugsink config.product)
  let classified := normalised.reduceOption.map fun signal =>
    (signal, classify config signal (previousById.lookup signal.issueId))
  pure (classified, normalised.countP Option.isNone)

/-- How many rows are new, and the largest event count among them. -/
def stormFigures (classified : List Classified) : ℤ × ℤ :=
  match (classified.filter fun c => c.2.1 = .newIssue).map fun c => c.1.eventCount with
  | [] => (0, 0)
  | count :: counts => ((count :: counts).length, counts.foldl max count)

/-- What a poll is called with: its id and its time, its configuration and the page it fetched. -/
structure Poll where
  pollId : String
  observedAt : String
  config : SignalsConfig
  document : Json

/-- `_finalize`, for one row. -/
def finalize (poll : Poll) (figures : ℤ × ℤ) (c : Classified) : Signal :=
  { c.1 with
    pollId := poll.pollId
    observedAt := poll.observedAt
    kind := c.2.1
    disposition := c.2.2
    pollNewIssues := figures.1
    pollMaxEventsOnANewIssue := figures.2 }

/-- What one poll did. -/
structure PollReport where
  pollId : String
  observedAt : String
  signals : List Signal
  droppedRows : ℕ
  pollNewIssues : ℤ
  pollMaxEventsOnANewIssue : ℤ

/-- What a poll makes of its page and of the ledger as it reads it; none if it raises. -/
def pollReport (poll : Poll) (log : List Json) : Option PollReport := do
  let rows ← rowsFromDocument poll.document
  let ledger := readLedger log
  let (classified, pageDropped) ← classifyRows poll.config rows (indexLedger ledger.signals)
  let figures := stormFigures classified
  pure
    { pollId := poll.pollId
      observedAt := poll.observedAt
      signals := classified.map (finalize poll figures)
      droppedRows := pageDropped + ledger.dropped
      pollNewIssues := figures.1
      pollMaxEventsOnANewIssue := figures.2 }

/-! ## The last row of an issue -/

/-- The last row of an issue. -/
def lastRow (rows : List Signal) (issueId : String) : Option Signal :=
  rows.reverse.find? fun row => row.issueId = issueId

lemma lastRow_append (rows rows' : List Signal) (issueId : String) :
    lastRow (rows ++ rows') issueId = (lastRow rows' issueId).or (lastRow rows issueId) := by
  rw [lastRow, List.reverse_append, List.find?_append]
  rfl

lemma lastRow_eq_none {rows : List Signal} {issueId : String} :
    lastRow rows issueId = none ↔ ∀ row ∈ rows, row.issueId ≠ issueId := by
  simp [lastRow]

/-- **An issue is classified against its last row.** -/
lemma indexLedger_lookup (records : List Signal) (issueId : String) :
    (indexLedger records).lookup issueId = lastRow records issueId := by
  rw [indexLedger, Keyed.lookup_dict, lastRow, ← List.map_reverse]
  induction records.reverse with
  | nil => rfl
  | cons record rest ih =>
      rw [List.map_cons, List.lookup_cons, List.find?_cons, ih]
      by_cases hid : record.issueId = issueId
      · simp [hid]
      · have hne : (issueId == record.issueId) = false := beq_false_of_ne (Ne.symm hid)
        simp [hid, hne]

lemma readLedger_append {log : List Json} {signals : List Signal} (h : ∀ s ∈ signals, s.issueId ≠ "") :
    (readLedger (appendSignals log signals)).signals = (readLedger log).signals ++ signals := by
  show (log ++ signals.map Signal.toDict).filterMap Signal.fromDict = log.filterMap Signal.fromDict ++ signals
  rw [List.filterMap_append, List.filterMap_map]
  refine congrArg (_ ++ ·) ?_
  induction signals with
  | nil => rfl
  | cons s signals ih =>
      obtain ⟨hs, hrest⟩ := List.forall_mem_cons.mp h
      rw [List.filterMap_cons_some (by rw [Function.comp_apply, Signal.fromDict_toDict hs]), ih hrest]

/-! ## What a poll records -/

lemma normaliseBugsink_id {product : String} {row : Json} {signal : Signal}
    (h : normaliseBugsink product row = some (some signal)) : signal.issueId ≠ "" := by
  unfold normaliseBugsink at h
  split at h
  · have h := Option.some.inj h
    split at h
    · split_ifs at h with hid
      cases h
      exact hid
    · cases h
  · cases h

/-- Every result of a loop that does not raise is that of a step. -/
lemma mem_of_mapM {α β : Type} {f : α → Option β} {l : List α} {bs : List β} (h : l.mapM f = some bs) {b : β}
    (hb : b ∈ bs) : ∃ a ∈ l, f a = some b := by
  induction l generalizing bs with
  | nil =>
      cases h
      cases hb
  | cons a l ih =>
      rw [List.mapM_cons] at h
      obtain ⟨c, hc, h⟩ := Option.bind_eq_some_iff.mp h
      obtain ⟨cs, hcs, h⟩ := Option.bind_eq_some_iff.mp h
      cases h
      rcases List.mem_cons.mp hb with rfl | hb
      · exact ⟨a, List.mem_cons_self, hc⟩
      · obtain ⟨x, hx, hfx⟩ := ih hcs hb
        exact ⟨x, List.mem_cons_of_mem _ hx, hfx⟩

/-- What a poll is, when it does not raise. -/
lemma pollReport_eq {poll : Poll} {log : List Json} {report : PollReport} (h : pollReport poll log = some report) :
    ∃ usable : List Signal, (∀ signal ∈ usable, signal.issueId ≠ "") ∧
      let classified := usable.map fun signal =>
        (signal, classify poll.config signal (lastRow (readLedger log).signals signal.issueId))
      report.signals = classified.map (finalize poll (stormFigures classified)) ∧
        report.pollNewIssues = (stormFigures classified).1 := by
  unfold pollReport classifyRows at h
  simp only [indexLedger_lookup, Option.bind_eq_bind, Option.bind_eq_some_iff, Option.pure_def, Option.some.injEq]
    at h
  obtain ⟨rows, -, ⟨classified, dropped⟩, ⟨normalised, hnormalised, hclassified⟩, rfl⟩ := h
  obtain ⟨rfl, -⟩ := Prod.mk.inj hclassified
  refine ⟨normalised.reduceOption, fun signal hsignal => ?_, rfl, rfl⟩
  obtain ⟨row, -, hrow⟩ := mem_of_mapM hnormalised (List.reduceOption_mem_iff.mp hsignal)
  exact normaliseBugsink_id hrow

lemma stormFigures_fst (classified : List Classified) :
    (stormFigures classified).1 = classified.countP fun c => c.2.1 = .newIssue := by
  rw [List.countP_eq_length_filter, stormFigures]
  split
  · next hnil =>
      rw [List.map_eq_nil_iff] at hnil
      rw [hnil]
      rfl
  · next count counts hcons =>
      have hlength := congrArg List.length hcons
      rw [List.length_map] at hlength
      rw [hlength]

/-- The row of an issue is new, for a ledger that it is classified against. -/
def SeenNew (rows : List Signal) (row : Signal) : Prop := lastRow rows row.issueId = none

/-- Its last row is resolved, and was seen earlier. -/
def SeenAgain (rows : List Signal) (row : Signal) : Prop :=
  ∃ previous, lastRow rows row.issueId = some previous ∧ previous.resolved = true ∧
    previous.lastSeen < row.lastSeen

lemma classify_kind (config : SignalsConfig) (signal : Signal) (previous : Option Signal) :
    ((classify config signal previous).1 = .newIssue ↔ previous = none) ∧
      ((classify config signal previous).1 = .recurrence ↔
        ∃ p, previous = some p ∧ p.resolved = true ∧ p.lastSeen < signal.lastSeen) := by
  unfold classify
  cases previous with
  | none => simp
  | some previous =>
      dsimp only
      split_ifs with hagain
      · simpa using hagain
      · simpa using hagain

/-- **The kind of each row of a poll**, by the ledger as it was read. -/
theorem pollReport_kind {poll : Poll} {log : List Json} {report : PollReport}
    (h : pollReport poll log = some report) {row : Signal} (hrow : row ∈ report.signals) :
    row.issueId ≠ "" ∧ (row.kind = .newIssue ↔ SeenNew (readLedger log).signals row) ∧
      (row.kind = .recurrence ↔ SeenAgain (readLedger log).signals row) := by
  obtain ⟨usable, hids, hsignals, -⟩ := pollReport_eq h
  rw [hsignals, List.map_map] at hrow
  obtain ⟨signal, hsignal, rfl⟩ := List.mem_map.mp hrow
  exact ⟨hids signal hsignal, (classify_kind _ signal _).1, (classify_kind _ signal _).2⟩

/-- The figure of a poll counts its new rows. -/
theorem pollReport_newIssues {poll : Poll} {log : List Json} {report : PollReport}
    (h : pollReport poll log = some report) :
    report.pollNewIssues = report.signals.countP fun row => row.kind = .newIssue := by
  obtain ⟨usable, -, hsignals, hfigure⟩ := pollReport_eq h
  rw [hfigure, hsignals, stormFigures_fst]
  simp only [List.countP_map]
  rfl

end Kstrl.Serve.Signals
