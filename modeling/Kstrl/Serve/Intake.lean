import Kstrl.Base.Keyed
import Kstrl.Queue.WorkQueue
import Mathlib.Data.String.Basic

/-!
# What the GitHub intake keeps

The configuration, the allowlist and the ledger that the issue intake and the steering channel share
(`kstrl/serve/intake_gh.py`, `kstrl/serve/intake_issue.py`), and the part of a checkout they write.

The ledger is one file: the entries of what was taken in, and beside them one `since` cursor for each pull
request.  A process holds the ledger it loaded and writes the whole of it back.

* **`ProcessedLedger.load_toJson`**: what was written is what is loaded.
* **`ProcessedLedger.withWatermark`** only ever raises a cursor.
-/

namespace Kstrl

open CrashProg

namespace Serve

/-! ## Configuration -/

/-- What Python makes of the letters of a text. -/
structure Letters where
  casefold : String → String
  upper : String → String
  lower : String → String

/-- `[intake_github]`, as far as the intake reads it. -/
structure GitHubIntakeConfig where
  enabled : Bool := false
  repo : String := ""
  queuedLabel : String := "kstrl:queued"
  maxItemsPerSync : ℤ := 5
  defaultPriority : ℤ := 0
  dryRun : Bool := false
  allowedActors : List String := []
  steerEnabled : Bool := false
  label_not_blank : PyText.isBlank queuedLabel = false := by decide
  one_or_more : 1 ≤ maxItemsPerSync := by decide

/-- Whether `actor` is on `allowed_actors`. -/
def actorAllowed (letters : Letters) (config : GitHubIntakeConfig) (actor : String) : Bool :=
  letters.casefold (PyText.strip actor) ∈
    config.allowedActors.map fun name => letters.casefold (PyText.strip name)

/-! ## The ledger -/

/-- What has been taken in, and the `since` cursors of the pull requests. -/
structure ProcessedLedger where
  entries : List (String × List (String × Json)) := []
  watermarks : List (String × String) := []
  deriving Inhabited

namespace ProcessedLedger

/-- The entries of an object whose values are objects. -/
def dictsOf (fields : List (String × Json)) : List (String × List (String × Json)) :=
  fields.filterMap fun e => match e.2 with
    | .obj entry => some (e.1, entry)
    | _ => none

/-- The entries of an object whose values are texts. -/
def textsOf (fields : List (String × Json)) : List (String × String) :=
  fields.filterMap fun e => match e.2 with
    | .str text => some (e.1, text)
    | _ => none

/-- The ledger of a file's value; `none` for a file that is missing or no JSON. -/
def load : Option Json → ProcessedLedger
  | none => {}
  | some data =>
      { entries := match data.get? "processed" with
          | some (.obj fields) => dictsOf fields
          | _ => []
        watermarks := match data.get? "watermarks" with
          | some (.obj fields) => textsOf fields
          | _ => [] }

/-- What `_write` puts into the file. -/
def toJson (ledger : ProcessedLedger) : Json :=
  .obj [("version", .int 1),
    ("processed", .obj (ledger.entries.map fun e => (e.1, .obj e.2))),
    ("watermarks", .obj (ledger.watermarks.map fun e => (e.1, .str e.2)))]

def contains (ledger : ProcessedLedger) (sourceRef : String) : Bool :=
  (ledger.entries.lookup sourceRef).isSome

/-- The ledger with an entry more. -/
def withEntry (ledger : ProcessedLedger) (sourceRef itemId stamp : String) : ProcessedLedger :=
  let entry := [("item_id", .str itemId), ("first_seen", .str stamp)]
  { ledger with entries := Keyed.set sourceRef entry ledger.entries }

/-- The cursor of `key`, or the empty text. -/
def watermark (ledger : ProcessedLedger) (key : String) : String := (ledger.watermarks.lookup key).getD ""

/-- The ledger with a cursor moved; `none` when the value does not advance it. -/
def withWatermark (ledger : ProcessedLedger) (key value : String) : Option ProcessedLedger :=
  if value ≤ ledger.watermark key then none
  else some { ledger with watermarks := Keyed.set key value ledger.watermarks }

/-! ### What its operations do -/

lemma dictsOf_map (entries : List (String × List (String × Json))) :
    dictsOf (entries.map fun e => (e.1, .obj e.2)) = entries := by
  induction entries with
  | nil => rfl
  | cons e entries ih =>
      simp only [dictsOf, List.map_cons, List.filterMap_cons] at ih ⊢
      rw [ih]

lemma textsOf_map (watermarks : List (String × String)) :
    textsOf (watermarks.map fun e => (e.1, .str e.2)) = watermarks := by
  induction watermarks with
  | nil => rfl
  | cons e watermarks ih =>
      simp only [textsOf, List.map_cons, List.filterMap_cons] at ih ⊢
      rw [ih]

/-- **What was written is what is loaded.** -/
@[simp] theorem load_toJson (ledger : ProcessedLedger) : load (some ledger.toJson) = ledger := by
  show ProcessedLedger.mk (dictsOf (ledger.entries.map _)) (textsOf (ledger.watermarks.map _)) = ledger
  rw [dictsOf_map, textsOf_map]

lemma contains_withEntry (ledger : ProcessedLedger) (ref itemId stamp key : String) :
    (ledger.withEntry ref itemId stamp).contains key = (decide (key = ref) || ledger.contains key) := by
  simp only [contains, withEntry, Keyed.lookup_set, beq_iff_eq]
  by_cases h : key = ref
  · simp [h]
  · simp [h]

lemma contains_withEntry_self (ledger : ProcessedLedger) (ref itemId stamp : String) :
    (ledger.withEntry ref itemId stamp).contains ref = true := by
  simp [contains_withEntry]

lemma contains_withEntry_of (ledger : ProcessedLedger) (ref itemId stamp : String) {key : String}
    (h : ledger.contains key = true) : (ledger.withEntry ref itemId stamp).contains key = true := by
  simp [contains_withEntry, h]

@[simp] lemma watermark_withEntry (ledger : ProcessedLedger) (ref itemId stamp key : String) :
    (ledger.withEntry ref itemId stamp).watermark key = ledger.watermark key := rfl

section WithWatermark

variable {ledger ledger' : ProcessedLedger} {key value : String}

lemma entries_withWatermark (h : ledger.withWatermark key value = some ledger') :
    ledger'.entries = ledger.entries := by
  unfold withWatermark at h
  split_ifs at h
  cases h
  rfl

lemma contains_withWatermark (h : ledger.withWatermark key value = some ledger') (ref : String) :
    ledger'.contains ref = ledger.contains ref := by
  simp [contains, entries_withWatermark h]

/-- A cursor that moves is the new value, and the others stay. -/
lemma watermark_withWatermark (h : ledger.withWatermark key value = some ledger') (other : String) :
    ledger'.watermark other = if other = key then value else ledger.watermark other := by
  unfold withWatermark at h
  split_ifs at h
  cases h
  simp only [watermark, Keyed.lookup_set, beq_iff_eq]
  split_ifs <;> rfl

lemma lt_of_withWatermark (h : ledger.withWatermark key value = some ledger') :
    ledger.watermark key < value := by
  unfold withWatermark at h
  split_ifs at h with hle
  exact not_le.mp hle

/-- **A cursor never goes back.** -/
theorem watermark_le_withWatermark (h : ledger.withWatermark key value = some ledger') (other : String) :
    ledger.watermark other ≤ ledger'.watermark other := by
  rw [watermark_withWatermark h]
  split_ifs with hkey
  · exact hkey ▸ (lt_of_withWatermark h).le
  · exact le_rfl

end WithWatermark

end ProcessedLedger

/-! ## What the intake writes -/

/-- The memory file of the operator. -/
inductive MemoryFile where
  | missing
  /-- a file that cannot be read, with the error -/
  | unreadable (exc : String)
  | text (chars : String)

/-- What reached the checkout, and which comment or issue it was for. -/
inductive Effect where
  /-- a line of the memory file, for a comment of a pull request -/
  | appended (number id : ℤ)
  /-- a queue item, for a comment of a pull request -/
  | requeued (number id : ℤ)
  /-- a queue item, for an issue -/
  | admitted (number : ℤ)
  deriving DecidableEq, Repr

/-- The files of a checkout that the intake writes.  `effects` is no file: it is the account of what was
    written, in the order it was written. -/
structure Checkout where
  ledgerFile : Option Json
  memory : MemoryFile
  queue : Disk
  effects : List Effect

/-- The errors the intake raises or turns into a message. -/
inductive IntakeError where
  | queue (e : QueueError)
  /-- `OSError` -/
  | os (msg : String)
  /-- `RuntimeError` -/
  | runtime (msg : String)

abbrev IntakeProg (α : Type) : Type := Prog Checkout IntakeError α

namespace Checkout

/-- The ledger on disk. -/
def ledger (s : Checkout) : ProcessedLedger := ProcessedLedger.load s.ledgerFile

def withLedger (s : Checkout) (ledger : ProcessedLedger) : Checkout :=
  { s with ledgerFile := some ledger.toJson }

@[simp] lemma ledger_withLedger (s : Checkout) (ledger : ProcessedLedger) :
    (s.withLedger ledger).ledger = ledger := ProcessedLedger.load_toJson ledger

@[simp] lemma effects_withLedger (s : Checkout) (ledger : ProcessedLedger) :
    (s.withLedger ledger).effects = s.effects := rfl

@[simp] lemma queue_withLedger (s : Checkout) (ledger : ProcessedLedger) :
    (s.withLedger ledger).queue = s.queue := rfl

/-- The directories of the queue that `d` has and the checkout has not. -/
def newPlaces (s : Checkout) (d : Disk) : List Place := d.dirs.keys.filter fun place => place ∉ s.queue.dirs

/-- The checkout with the queue as it is now; every directory that came to be is an effect. -/
def withQueue (s : Checkout) (effect : Effect) (d : Disk) : Checkout :=
  { s with queue := d, effects := s.effects ++ (s.newPlaces d).map fun _ => effect }

end Checkout

namespace ProcessedLedger

/-- Write the ledger.  -/
def save (ledger : ProcessedLedger) : IntakeProg Unit :=
  write (fun s => s.withLedger ledger) (.os "github-processed.json")

/-- Enter `sourceRef` and write the ledger. -/
def record (ledger : ProcessedLedger) (sourceRef itemId stamp : String) : IntakeProg ProcessedLedger := do
  let ledger := ledger.withEntry sourceRef itemId stamp
  ledger.save
  pure ledger

/-- Advance the cursor of `key` and write the ledger; nothing is written when it does not advance. -/
def setWatermark (ledger : ProcessedLedger) (key value : String) : IntakeProg ProcessedLedger :=
  match ledger.withWatermark key value with
  | none => pure ledger
  | some ledger => do
      ledger.save
      pure ledger

end ProcessedLedger

/-- A queue operation of the intake, made for `effect`. -/
def onQueue {α : Type} (effect : Effect) (c : QueueProg α) : IntakeProg α := fun fs s =>
  match c fs s.queue with
  | (.done a, fs', d) => (.done a, fs', s.withQueue effect d)
  | (.raised e, fs', d) => (.raised (.queue e), fs', s.withQueue effect d)
  | (.crashed, fs', d) => (.crashed, fs', s.withQueue effect d)

end Serve

end Kstrl
