import Kstrl.Base.IsoTime
import Kstrl.Base.Json
import Kstrl.Base.LatestLog
import Kstrl.Base.PyText
import Mathlib.Data.List.Sort

/-!
# The exception inbox

One append-only log for everything that waits for a human (`kstrl/owner/inbox.py`).  Every emission
and every decision is one appended row, and the state of an item is its latest row.

* **`InboxItem`** is a row, with its dict form; `fromDict_toDict` says that nothing of it is lost.
* **`findByDedupeKey`** is the item a repeat collapses onto: an open one, else the newest.
* **`add`**, **`approve`**, **`reject`**, **`resolve`** and **`snooze`** each read the log and append
  one row to it, in one hold of the control lock.
* An item is open by its status, or by the clock once its snooze has lapsed: `InboxItem.isOpen`.
-/

namespace Kstrl

namespace Owner

open LatestLog

/-! ## Kinds, statuses and priorities -/

/-- What kind of decision an item asks for. -/
inductive ItemKind where
  | policyException
  | mergeGate
  | haltedRun
  | budgetOverrun
  | demotionNotice
  | calibrationDrift
  | testAdequacy
  | healthBreach
  | specEscalation
  | planGate
  | stackConfirmation
  deriving DecidableEq, Repr

namespace ItemKind

def value : ItemKind → String
  | policyException => "policy_exception"
  | mergeGate => "merge_gate"
  | haltedRun => "halted_run"
  | budgetOverrun => "budget_overrun"
  | demotionNotice => "demotion_notice"
  | calibrationDrift => "calibration_drift"
  | testAdequacy => "test_adequacy"
  | healthBreach => "health_breach"
  | specEscalation => "spec_escalation"
  | planGate => "plan_gate"
  | stackConfirmation => "stack_confirmation"

def all : List ItemKind :=
  [policyException, mergeGate, haltedRun, budgetOverrun, demotionNotice, calibrationDrift,
    testAdequacy, healthBreach, specEscalation, planGate, stackConfirmation]

def ofValue? (value : String) : Option ItemKind := all.find? fun k => k.value = value

@[simp] lemma ofValue?_value (k : ItemKind) : ofValue? k.value = some k := by cases k <;> decide

end ItemKind

inductive ItemStatus where
  | «open»
  | approved
  | rejected
  | snoozed
  | resolved
  deriving DecidableEq, Repr

namespace ItemStatus

def value : ItemStatus → String
  | .open => "open"
  | approved => "approved"
  | rejected => "rejected"
  | snoozed => "snoozed"
  | resolved => "resolved"

def all : List ItemStatus := [.open, approved, rejected, snoozed, resolved]

def ofValue? (value : String) : Option ItemStatus := all.find? fun s => s.value = value

@[simp] lemma ofValue?_value (s : ItemStatus) : ofValue? s.value = some s := by cases s <;> decide

end ItemStatus

inductive Priority where
  | high
  | normal
  | low
  deriving DecidableEq, Repr

namespace Priority

def value : Priority → String
  | high => "high"
  | normal => "normal"
  | low => "low"

def ofValue? (value : String) : Option Priority := [high, normal, low].find? fun p => p.value = value

@[simp] lemma ofValue?_value (p : Priority) : ofValue? p.value = some p := by cases p <;> decide

/-- `_PRIORITY_ORDER`. -/
def order : Priority → ℕ
  | high => 0
  | normal => 1
  | low => 2

end Priority

/-- `DEFAULT_PRIORITY`; a kind without an entry is normal. -/
def defaultPriority : ItemKind → Priority
  | .policyException => .high
  | .budgetOverrun => .high
  | .demotionNotice => .high
  | .calibrationDrift => .low
  | _ => .normal

/-- `UNDECIDED`. -/
def undecided : List ItemStatus := [.open, .snoozed]

/-! ## Items -/

/-- One decision awaiting (or having received) a human. -/
structure InboxItem where
  id : String
  kind : ItemKind
  title : String
  createdAt : String
  detail : String := ""
  priority : Priority := .normal
  component : String := ""
  runId : String := ""
  dedupeKey : String := ""
  evidence : List (String × Json) := []
  status : ItemStatus := .open
  occurrences : ℤ := 1
  lastSeenAt : String := ""
  decidedAt : String := ""
  decidedBy : String := ""
  decisionComment : String := ""
  snoozeUntil : String := ""

/-- `_utc_now`, of a clock that counts microseconds: the moment without its fraction. -/
def utcNow (clock : ℕ) : ℕ := clock - clock % 1000000

namespace InboxItem

/-- Open now: never decided, or snoozed past its TTL. -/
def isOpen (fmt : IsoFormat) (clock : ℕ) (item : InboxItem) : Bool :=
  match item.status with
  | .open => true
  | .snoozed =>
      match fmt.fromisoformat item.snoozeUntil with
      | none => true
      | some until_ => until_ ≤ utcNow clock
  | _ => false

/-- The order of `items()`. -/
def sortKeyLe (a b : InboxItem) : Prop :=
  a.priority.order < b.priority.order ∨
    a.priority.order = b.priority.order ∧ a.createdAt ≤ b.createdAt

instance (a b : InboxItem) : Decidable (sortKeyLe a b) := by unfold sortKeyLe; infer_instance

def toDict (item : InboxItem) : Json :=
  .obj [("id", .str item.id),
    ("kind", .str item.kind.value),
    ("title", .str item.title),
    ("created_at", .str item.createdAt),
    ("detail", .str item.detail),
    ("priority", .str item.priority.value),
    ("component", .str item.component),
    ("run_id", .str item.runId),
    ("dedupe_key", .str item.dedupeKey),
    ("evidence", .obj item.evidence),
    ("status", .str item.status.value),
    ("occurrences", .int item.occurrences),
    ("last_seen_at", .str item.lastSeenAt),
    ("decided_at", .str item.decidedAt),
    ("decided_by", .str item.decidedBy),
    ("decision_comment", .str item.decisionComment),
    ("snooze_until", .str item.snoozeUntil)]

/-- `str(data.get(key, default))`. -/
def textOf (data : Json) (key : String) (default : String := "") : String :=
  ((data.get? key).map Json.pyStr).getD default

/-- Rebuild an item; `none` for anything unrecognizable. -/
def fromDict (data : Json) : Option InboxItem :=
  match data.get? "id" with
  | some (.str id) =>
      if id = "" then none
      else do
        let kind ← ItemKind.ofValue? (textOf data "kind")
        let status ← ItemStatus.ofValue? (textOf data "status" ItemStatus.open.value)
        let priority ← Priority.ofValue? (textOf data "priority" Priority.normal.value)
        pure {
          id := id
          kind := kind
          title := textOf data "title"
          createdAt := textOf data "created_at"
          detail := textOf data "detail"
          priority := priority
          component := textOf data "component"
          runId := textOf data "run_id"
          dedupeKey := textOf data "dedupe_key"
          evidence := match data.get? "evidence" with
            | some (.obj fields) => fields
            | _ => []
          status := status
          occurrences := data.asInt "occurrences" 1
          lastSeenAt := textOf data "last_seen_at"
          decidedAt := textOf data "decided_at"
          decidedBy := textOf data "decided_by"
          decisionComment := textOf data "decision_comment"
          snoozeUntil := textOf data "snooze_until" }
  | _ => none

/-- **Nothing is lost.** -/
theorem fromDict_toDict {item : InboxItem} (h : item.id ≠ "") : fromDict item.toDict = some item := by
  unfold fromDict toDict textOf
  simp [Json.get?, Json.asInt, List.lookup_cons, Json.pyStr, h]

end InboxItem

/-! ## Reading the log -/

/-- `InboxError`, or the error of a deadline no calendar has. -/
inductive InboxError where
  | refused (msg : String)
  | badDeadline
  deriving DecidableEq, Repr

/-- The latest row of each item, in the order the ids first appeared. -/
def folded (log : List Json) : List InboxItem :=
  latest InboxItem.id (log.filterMap InboxItem.fromDict)

/-- Every item, by priority and age. -/
def items (log : List Json) : List InboxItem := (folded log).insertionSort InboxItem.sortKeyLe

/-- `open_items`, at a time. -/
def openItems (fmt : IsoFormat) (clock : ℕ) (log : List Json) : List InboxItem :=
  (items log).filter (InboxItem.isOpen fmt clock)

/-- Find by exact id or by a unique prefix of it. -/
def get (log : List Json) (itemId : String) : Except InboxError (Option InboxItem) :=
  match (items log).find? fun item => item.id = itemId with
  | some item => .ok item
  | none =>
      match (items log).filter fun item => itemId.toList.isPrefixOf item.id.toList with
      | [] => .ok none
      | [item] => .ok item
      | found => .error (.refused ("ambiguous item id " ++ PyText.repr itemId ++ ": matches " ++
          String.intercalate ", "
            ((found.take 5).map fun m => String.ofList (m.id.toList.take 8))))

/-- The generation of `key` that a repeat should collapse onto: an open one, else the newest. -/
def findByDedupeKey (log : List Json) (key : String) : Option InboxItem :=
  if key = "" then none
  else
    let found := (folded log).filter fun item => item.dedupeKey = key
    match found.find? fun item => item.status = .open with
    | some item => some item
    | none => found.getLast?

/-! ## Writing it -/

def inboxSchemaVersion : ℤ := 1

/-- Append one row. -/
def append (log : List Json) (item : InboxItem) : List Json :=
  log ++ [match item.toDict with
    | .obj fields => .obj (("schema_version", .int inboxSchemaVersion) :: fields)
    | other => other]

/-- The arguments of `add`. -/
structure Emission where
  kind : ItemKind
  title : String
  detail : String := ""
  component : String := ""
  runId : String := ""
  dedupeKey : String := ""
  evidence : List (String × Json) := []
  priority : Option Priority := none

section Writers

variable (fmt : IsoFormat) (clock : ℕ) (log : List Json)

/-- `_iso(_utc_now())`. -/
def nowText : String := fmt.isoformat (utcNow clock)

/-- A repeat of an open item. -/
def bumped (e : Emission) (existing : InboxItem) : InboxItem :=
  { existing with
    occurrences := existing.occurrences + 1
    lastSeenAt := nowText fmt clock
    detail := if e.detail = "" then existing.detail else e.detail
    evidence := if e.evidence = [] then existing.evidence else e.evidence }

/-- The item of a first emission, under a fresh id. -/
def opened (id : String) (e : Emission) : InboxItem where
  id := id
  kind := e.kind
  title := e.title
  createdAt := nowText fmt clock
  detail := e.detail
  priority := e.priority.getD (defaultPriority e.kind)
  component := e.component
  runId := e.runId
  dedupeKey := e.dedupeKey
  evidence := e.evidence
  lastSeenAt := nowText fmt clock

/-- Record an exception, collapsing repeats onto one item.  `id` is the fresh id, used if needed. -/
def add (id : String) (e : Emission) : InboxItem × List Json :=
  match findByDedupeKey log e.dedupeKey with
  | some existing =>
      if existing.status = .open then
        (bumped fmt clock e existing, append log (bumped fmt clock e existing))
      else (opened fmt clock id e, append log (opened fmt clock id e))
  | none => (opened fmt clock id e, append log (opened fmt clock id e))

/-- What is decided about an item. -/
structure Decision where
  status : ItemStatus
  actor : String
  comment : String := ""
  snoozeUntil : Option ℕ := none
  onlyFrom : Option (List ItemStatus) := none

/-- An item as a decision leaves it. -/
def decided (d : Decision) (item : InboxItem) : InboxItem :=
  { item with
    status := d.status
    decidedAt := nowText fmt clock
    decidedBy := d.actor
    decisionComment := d.comment
    snoozeUntil := (d.snoozeUntil.map fmt.isoformat).getD "" }

/-- `_decide`; the row, if one was appended, and the log. -/
def decide (itemId : String) (d : Decision) :
    Except InboxError (Option InboxItem × List Json) := do
  match ← get log itemId with
  | none => .error (.refused ("no inbox item matching " ++ PyText.repr itemId))
  | some item =>
      if d.onlyFrom.any fun statuses => item.status ∉ statuses then pure (none, log)
      else pure (some (decided fmt clock d item), append log (decided fmt clock d item))

def approve (itemId actor : String) (comment : String := "") :
    Except InboxError (Option InboxItem × List Json) :=
  decide fmt clock log itemId { status := .approved, actor := actor, comment := comment }

/-- Reject.  A comment is required. -/
def reject (itemId actor comment : String) : Except InboxError (Option InboxItem × List Json) :=
  if PyText.isBlank comment then .error (.refused "rejection requires a comment explaining why")
  else decide fmt clock log itemId { status := .rejected, actor := actor, comment := comment }

def resolve (itemId : String) (actor : String := "system") (comment : String := "")
    (onlyFrom : Option (List ItemStatus) := none) :
    Except InboxError (Option InboxItem × List Json) :=
  decide fmt clock log itemId
    { status := .resolved, actor := actor, comment := comment, onlyFrom := onlyFrom }

/-- A number of hours, by what is done with it. -/
structure Hours where
  /-- whether it is not `<= 0` -/
  positive : Bool
  /-- the microseconds of its `timedelta`, if it has one -/
  micros : Option ℕ
  text : String

/-- `_utc_now() + timedelta(hours=...)`; no moment is past the year 9999. -/
def snoozeDeadline (ttl : Hours) : Option ℕ :=
  ttl.micros.bind fun micros =>
    if utcNow clock + micros < 253402300800000000 then some (utcNow clock + micros) else none

/-- Snooze, for the hours given or for those of the configuration. -/
def snooze (snoozeHours : Hours) (itemId actor : String) (hours : Option Hours := none) :
    Except InboxError (Option InboxItem × List Json) :=
  let ttl := hours.getD snoozeHours
  if !ttl.positive then
    .error (.refused "snooze needs a positive TTL; use approve/reject to close")
  else match snoozeDeadline clock ttl with
    | none => .error .badDeadline
    | some deadline =>
        decide fmt clock log itemId
          { status := .snoozed, actor := actor, comment := "snoozed " ++ ttl.text ++ "h"
            snoozeUntil := some deadline }

end Writers

/-! ## What a row does to the view -/

lemma bumped_id (fmt : IsoFormat) (clock : ℕ) (e : Emission) (item : InboxItem) :
    (bumped fmt clock e item).id = item.id := rfl

lemma decided_id (fmt : IsoFormat) (clock : ℕ) (d : Decision) (item : InboxItem) :
    (decided fmt clock d item).id = item.id := rfl

lemma InboxItem.fromDict_schema (item : InboxItem) (version : ℤ) (h : item.id ≠ "") :
    InboxItem.fromDict (match item.toDict with
      | .obj fields => .obj (("schema_version", .int version) :: fields)
      | other => other) = some item := by
  unfold fromDict toDict textOf
  simp [Json.get?, Json.asInt, List.lookup_cons, Json.pyStr, h]

lemma folded_append (log : List Json) {item : InboxItem} (h : item.id ≠ "") :
    ∀ it, it ∈ folded (append log item) ↔ it = item ∨ it ∈ folded log ∧ it.id ≠ item.id := by
  intro it
  unfold folded append
  rw [List.filterMap_append, List.filterMap_cons_some (InboxItem.fromDict_schema item _ h),
    List.filterMap_nil]
  exact mem_latest_append

lemma mem_items {log : List Json} {item : InboxItem} : item ∈ items log ↔ item ∈ folded log :=
  List.mem_insertionSort _

lemma eq_of_mem_folded {log : List Json} {a b : InboxItem} (ha : a ∈ folded log)
    (hb : b ∈ folded log) (h : a.id = b.id) : a = b :=
  eq_of_mem_latest ha hb h

lemma mem_of_get {log : List Json} {itemId : String} {item : InboxItem}
    (h : get log itemId = .ok (some item)) : item ∈ folded log := by
  unfold get at h
  split at h
  · next found hfind =>
      cases h
      exact mem_items.mp (List.mem_of_find?_eq_some hfind)
  · split at h
    · cases h
    · next found hfilter =>
        cases h
        have : item ∈ (items log).filter fun it => itemId.toList.isPrefixOf it.id.toList := by
          rw [hfilter]
          exact List.mem_singleton.mpr rfl
        exact mem_items.mp (List.mem_filter.mp this).1
    · cases h

/-- A repeat collapses onto an item of its key, and onto an open one if there is one. -/
lemma mem_of_findByDedupeKey {log : List Json} {key : String} {item : InboxItem}
    (h : findByDedupeKey log key = some item) :
    item ∈ folded log ∧ item.dedupeKey = key ∧ key ≠ "" ∧
      (item.status ≠ .open → ∀ it ∈ folded log, it.dedupeKey = key → it.status ≠ .open) := by
  unfold findByDedupeKey at h
  split_ifs at h with hkey
  have hmem : ∀ it, it ∈ (folded log).filter (fun it => it.dedupeKey = key) ↔
      it ∈ folded log ∧ it.dedupeKey = key := by simp
  simp only at h
  split at h
  · next found hfind =>
      cases h
      obtain ⟨hm, hk⟩ := (hmem _).mp (List.mem_of_find?_eq_some hfind)
      refine ⟨hm, hk, hkey, fun hne => absurd ?_ hne⟩
      simpa using List.find?_some hfind
  · next hfind =>
      obtain ⟨hm, hk⟩ := (hmem _).mp (List.mem_of_getLast? h)
      refine ⟨hm, hk, hkey, fun _ it hit hitk => ?_⟩
      have := List.find?_eq_none.mp hfind it ((hmem it).mpr ⟨hit, hitk⟩)
      simpa using this

lemma findByDedupeKey_none {log : List Json} {key : String} (hkey : key ≠ "")
    (h : findByDedupeKey log key = none) : ∀ it ∈ folded log, it.dedupeKey ≠ key := by
  unfold findByDedupeKey at h
  rw [if_neg hkey] at h
  simp only at h
  split at h
  · cases h
  · intro it hit hk
    have hnil := List.getLast?_eq_none_iff.mp h
    have : it ∈ (folded log).filter fun it => it.dedupeKey = key := by simp [hit, hk]
    rw [hnil] at this
    cases this

end Owner

end Kstrl
