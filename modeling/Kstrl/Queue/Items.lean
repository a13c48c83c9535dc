import Kstrl.Base.Json
import Kstrl.Base.IsoTime
import Mathlib.Data.List.Basic

/-!
# The records of the work queue

The item states and the legal transitions between them, the item ids, and the records that go
to `meta.json` and to the journal, with their dict form (`kstrl/queue/workqueue_items.py`).

* **`QueueItem`** is one unit of intake.  `QueueItem.toDict` and `QueueItem.fromDict` are its
  sidecar form; `fromDict` is tolerant, and `fromDict_toDict` says that it loses nothing of an
  item that has an id, a title and a safe spec filename.
* **`legalTransitions`** is the table of legal moves.
* **`isSafeComponent`** guards every string that becomes part of a queue path.
-/

namespace Kstrl

/-! ## Path components -/

/-- `PurePosixPath(name).name`: the last component that is neither empty nor a lone dot. -/
def pathName (name : List Char) : List Char :=
  (((name.splitOn '/').filter fun part => part ≠ [] ∧ part ≠ ['.']).getLast?).getD []

/-- Whether `name` is a single path component that is safe to join. -/
def isSafeComponent (name : String) : Bool :=
  let cs := name.toList
  !(name ∈ ["", ".", ".."]) && !(cs.head? = some '.') &&
    !(cs.contains '/' || cs.contains '\\' || cs.contains '\x00') && pathName cs = cs

/-! ## States -/

/-- Where an item is.  `name` is also the on-disk directory name. -/
inductive ItemState where
  | queued
  | leased
  | running
  | done
  | failed
  | poison
  | awaitingApproval
  | awaitingAnswer
  deriving DecidableEq, Repr

/-- The value of the state, as it stands in `meta.json` and in the journal. -/
def ItemState.name : ItemState → String
  | .queued => "queued"
  | .leased => "leased"
  | .running => "running"
  | .done => "done"
  | .failed => "failed"
  | .poison => "poison"
  | .awaitingApproval => "awaiting_approval"
  | .awaitingAnswer => "awaiting_answer"

/-- Every state directory, in the order a scan visits them. -/
def allStates : List ItemState :=
  [.queued, .leased, .running, .done, .failed, .poison, .awaitingApproval, .awaitingAnswer]

@[simp] lemma mem_allStates (s : ItemState) : s ∈ allStates := by cases s <;> decide

/-- `ItemState(value)`; `none` stands for the `ValueError`. -/
def ItemState.ofName? (value : String) : Option ItemState :=
  allStates.find? fun s => s.name = value

@[simp] lemma ItemState.ofName?_name (s : ItemState) : ItemState.ofName? s.name = some s := by
  cases s <;> decide

/-- The legal moves.  Anything absent raises. -/
def legalTransitions : ItemState → List ItemState
  | .queued => [.leased, .poison]
  | .leased => [.queued, .running, .failed, .poison]
  | .running => [.done, .failed, .poison, .awaitingApproval, .awaitingAnswer]
  | .failed => [.queued, .poison]
  | .poison => [.queued]
  | .done => []
  | .awaitingApproval => [.done, .poison]
  | .awaitingAnswer => [.queued]

/-- No state is left for itself. -/
lemma ne_of_mem_legalTransitions {s t : ItemState} (h : t ∈ legalTransitions s) : s ≠ t := by
  revert h; cases s <;> cases t <;> decide

/-- Whether a finished item's PR merges without a human. -/
inductive MergeDisposition where
  | stopAtPr
  | autoMerge
  deriving DecidableEq, Repr

def MergeDisposition.name : MergeDisposition → String
  | .stopAtPr => "stop_at_pr"
  | .autoMerge => "auto_merge"

def MergeDisposition.ofName? (value : String) : Option MergeDisposition :=
  [MergeDisposition.stopAtPr, .autoMerge].find? fun d => d.name = value

@[simp] lemma MergeDisposition.ofName?_name (d : MergeDisposition) :
    MergeDisposition.ofName? d.name = some d := by cases d <;> decide

/-- Where an item came from. -/
inductive ItemSource where
  | «local»
  | github
  | linear
  deriving DecidableEq, Repr

def ItemSource.name : ItemSource → String
  | .local => "local"
  | .github => "github"
  | .linear => "linear"

def ItemSource.ofName? (value : String) : Option ItemSource :=
  [ItemSource.local, .github, .linear].find? fun s => s.name = value

@[simp] lemma ItemSource.ofName?_name (s : ItemSource) : ItemSource.ofName? s.name = some s := by
  cases s <;> decide

/-! ## Items -/

def queueSchemaVersion : ℤ := 1

/-- One unit of intake: a spec plus everything decided about it. -/
structure QueueItem where
  itemId : String
  title : String
  specFilename : String
  state : ItemState := .queued
  /-- higher runs first; ties break by `itemId` -/
  priority : ℤ := 0
  createdAt : String := ""
  updatedAt : String := ""
  /-- execution attempts charged so far -/
  attempts : ℤ := 0
  maxAttempts : ℤ := 3
  mergeDisposition : MergeDisposition := .stopAtPr
  source : ItemSource := .local
  sourceRef : String := ""
  targetRepo : String := ""
  projectName : String := ""
  leasePid : ℤ := 0
  leaseHost : String := ""
  leaseExpiresAt : String := ""
  lastError : String := ""
  lastRunId : String := ""
  poisonReason : String := ""
  /-- earliest time this item may be claimed again -/
  notBefore : String := ""
  prUrls : List String := []
  designAcceptance : Bool := false
  schemaVersion : ℤ := queueSchemaVersion
  deriving DecidableEq, Repr

/-- `_parse_iso`: the moment of a text; the empty text and an unreadable one have none. -/
def parseIso (fmt : IsoFormat) (value : String) : Option ℕ :=
  if value = "" then none else fmt.fromisoformat value

@[simp] lemma parseIso_isoformat (fmt : IsoFormat) (t : ℕ) :
    parseIso fmt (fmt.isoformat t) = some t := by
  rw [parseIso, if_neg (fmt.nonempty t), fmt.roundTrip]

@[simp] lemma parseIso_empty (fmt : IsoFormat) : parseIso fmt "" = none := rfl

namespace QueueItem

def attemptsRemaining (item : QueueItem) : ℤ := max 0 (item.maxAttempts - item.attempts)

lemma attemptsRemaining_pos (item : QueueItem) :
    0 < item.attemptsRemaining ↔ item.attempts < item.maxAttempts := by
  unfold attemptsRemaining; omega

/-- Whether the retry backoff has elapsed.  An unreadable `notBefore` counts as not ready. -/
def readyAt (fmt : IsoFormat) (item : QueueItem) (now : ℕ) : Bool :=
  if item.notBefore = "" then true
  else match parseIso fmt item.notBefore with
    | none => false
    | some deadline => deadline ≤ now

/-- Whether the lease has lapsed.  A missing or unreadable expiry counts as expired. -/
def leaseExpired (fmt : IsoFormat) (item : QueueItem) (now : ℕ) : Bool :=
  match parseIso fmt item.leaseExpiresAt with
  | none => true
  | some expires => expires ≤ now

/-- Highest priority first, then oldest first. -/
def sortKeyLe (a b : QueueItem) : Prop :=
  a.priority > b.priority ∨ (a.priority = b.priority ∧ a.itemId ≤ b.itemId)

instance (a b : QueueItem) : Decidable (sortKeyLe a b) := by unfold sortKeyLe; infer_instance

/-- The sidecar form of an item. -/
def toDict (item : QueueItem) : Json :=
  .obj [("schema_version", .int item.schemaVersion),
    ("item_id", .str item.itemId),
    ("title", .str item.title),
    ("spec_filename", .str item.specFilename),
    ("state", .str item.state.name),
    ("priority", .int item.priority),
    ("created_at", .str item.createdAt),
    ("updated_at", .str item.updatedAt),
    ("attempts", .int item.attempts),
    ("max_attempts", .int item.maxAttempts),
    ("merge_disposition", .str item.mergeDisposition.name),
    ("source", .str item.source.name),
    ("source_ref", .str item.sourceRef),
    ("target_repo", .str item.targetRepo),
    ("project_name", .str item.projectName),
    ("lease_pid", .int item.leasePid),
    ("lease_host", .str item.leaseHost),
    ("lease_expires_at", .str item.leaseExpiresAt),
    ("last_error", .str item.lastError),
    ("last_run_id", .str item.lastRunId),
    ("poison_reason", .str item.poisonReason),
    ("not_before", .str item.notBefore),
    ("pr_urls", .arr (item.prUrls.map Json.str)),
    ("design_acceptance", .bool item.designAcceptance)]

/-- Decode a sidecar.  `none` only when the item has no identity or no safe spec; every other
    malformed field falls back to its default. -/
def fromDict (data : Json) : Option QueueItem :=
  let itemId := data.asStr "item_id"
  let specFilename := data.asStr "spec_filename"
  if itemId = "" ∨ specFilename = "" then none
  else if !isSafeComponent specFilename then none
  else
    let title := data.asStr "title"
    some {
      itemId := itemId
      title := if title = "" then itemId else title
      specFilename := specFilename
      state := (ItemState.ofName? (data.asStr "state" ItemState.queued.name)).getD .queued
      priority := data.asInt "priority" 0
      createdAt := data.asStr "created_at"
      updatedAt := data.asStr "updated_at"
      attempts := data.asInt "attempts" 0
      maxAttempts := data.asInt "max_attempts" 3
      mergeDisposition := (MergeDisposition.ofName?
        (data.asStr "merge_disposition" MergeDisposition.stopAtPr.name)).getD .stopAtPr
      source := (ItemSource.ofName? (data.asStr "source" ItemSource.local.name)).getD .local
      sourceRef := data.asStr "source_ref"
      targetRepo := data.asStr "target_repo"
      projectName := data.asStr "project_name"
      leasePid := data.asInt "lease_pid" 0
      leaseHost := data.asStr "lease_host"
      leaseExpiresAt := data.asStr "lease_expires_at"
      lastError := data.asStr "last_error"
      lastRunId := data.asStr "last_run_id"
      poisonReason := data.asStr "poison_reason"
      notBefore := data.asStr "not_before"
      prUrls := data.asStrTuple "pr_urls"
      designAcceptance := data.isTrue "design_acceptance"
      schemaVersion := data.asInt "schema_version" queueSchemaVersion }

/-- An item with everything `fromDict` insists on. -/
structure Sound (item : QueueItem) : Prop where
  itemId : item.itemId ≠ ""
  title : item.title ≠ ""
  specFilename : item.specFilename ≠ ""
  safe : isSafeComponent item.specFilename = true

/-- **Round trip of the sidecar.** -/
lemma fromDict_toDict (item : QueueItem) (h : item.Sound) : fromDict item.toDict = some item := by
  have hne : ¬ (item.itemId = "" ∨ item.specFilename = "") :=
    not_or.mpr ⟨h.itemId, h.specFilename⟩
  obtain ⟨hid, htitle, hspec, hsafe⟩ := h
  cases item
  simp only at hid htitle hspec hsafe
  simp [fromDict, toDict, Json.asStr, Json.asInt, Json.asStrTuple, Json.isTrue, Json.get?,
    List.lookup_cons, hid, htitle, hspec, hsafe]

/-- What `fromDict` accepts is sound. -/
lemma sound_of_fromDict {data : Json} {item : QueueItem} (h : fromDict data = some item) :
    item.Sound := by
  unfold fromDict at h
  simp only at h
  split_ifs at h with hne hsafe htitle
  · cases h
    obtain ⟨hid, hspec⟩ := not_or.mp hne
    exact ⟨hid, hid, hspec, by simpa using hsafe⟩
  · cases h
    obtain ⟨hid, hspec⟩ := not_or.mp hne
    exact ⟨hid, htitle, hspec, by simpa using hsafe⟩

end QueueItem

/-! ## Item ids -/

/-- The characters of a minted id: those of a time stamp, of a hexadecimal nonce and dashes. -/
def isIdChar (c : Char) : Bool := c.isDigit || c ∈ ['q', '-', '.', 'a', 'b', 'c', 'd', 'e', 'f']

/-- What `mint_item_id` returns, `q-YYYYMMDD-HHMMSS.ffffff-<nonce>`. -/
structure MintedId where
  /-- the microsecond stamp -/
  stamp : List Char
  /-- the nonce -/
  nonce : List Char
  stamp_chars : stamp.all isIdChar = true
  nonce_chars : nonce.all isIdChar = true

/-- The id itself. -/
def MintedId.itemId (m : MintedId) : String :=
  String.ofList ('q' :: '-' :: (m.stamp ++ '-' :: m.nonce))

lemma pathName_of_not_mem {cs : List Char} (hne : cs ≠ []) (hdot : cs ≠ ['.'])
    (hsep : '/' ∉ cs) : pathName cs = cs := by
  have hsplit : cs.splitOn '/' = [cs] := List.splitOn_eq_singleton hsep
  simp [pathName, hsplit, hne, hdot]

/-- A name without separators that does not start with a dot is safe to join. -/
lemma isSafeComponent_ofList {cs : List Char} (hne : cs ≠ []) (hdot : cs.head? ≠ some '.')
    (hsep : '/' ∉ cs) (hback : '\\' ∉ cs) (hnul : '\x00' ∉ cs) :
    isSafeComponent (String.ofList cs) = true := by
  have hnot : String.ofList cs ∉ ["", ".", ".."] := by
    intro hmem
    simp only [List.mem_cons, List.not_mem_nil, or_false] at hmem
    rcases hmem with h | h | h <;> have h := congrArg String.toList h <;>
      rw [String.toList_ofList] at h <;> subst h
    · exact hne rfl
    · exact hdot rfl
    · exact hdot rfl
  have hpath : pathName cs = cs :=
    pathName_of_not_mem hne (fun h => hdot (by rw [h]; rfl)) hsep
  simp [isSafeComponent, hnot, hdot, hsep, hback, hnul, hpath]

/-- A minted id is safe to join. -/
lemma MintedId.isSafeComponent (m : MintedId) : isSafeComponent m.itemId = true := by
  have hnot : ∀ c, isIdChar c = false → c ∉ 'q' :: '-' :: (m.stamp ++ '-' :: m.nonce) := by
    intro c hc hmem
    have hall : isIdChar c = true := by
      simp only [List.mem_cons, List.mem_append] at hmem
      rcases hmem with rfl | rfl | hmem | rfl | hmem
      · decide
      · decide
      · exact List.all_eq_true.mp m.stamp_chars c hmem
      · decide
      · exact List.all_eq_true.mp m.nonce_chars c hmem
    rw [hall] at hc
    cases hc
  exact isSafeComponent_ofList (by simp) (by simp) (hnot _ (by decide)) (hnot _ (by decide))
    (hnot _ (by decide))

/-- The text after the last dash; the whole text when there is none. -/
def afterLastDash (cs : List Char) : List Char := (cs.reverse.takeWhile (· ≠ '-')).reverse

/-- `q-20260923-205005.895694-793181` becomes `q-793181`. -/
def shortItemId (itemId : String) : String :=
  let tail := String.ofList (afterLastDash itemId.toList)
  if tail ≠ "" ∧ tail ≠ itemId then "q-" ++ tail else itemId

/-! ## Configuration and journal -/

/-- The `[queue]` section; the lease time in microseconds. -/
structure QueueConfig where
  maxAttempts : ℤ := 3
  leaseTtl : ℕ := 3600000000
  deriving DecidableEq, Repr

/-- One recorded transition. -/
structure JournalEntry where
  ts : String
  itemId : String
  fromState : String
  toState : String
  reason : String := ""
  actor : String := ""
  attempts : ℤ := 0
  detail : Json := .obj []

end Kstrl
