import Kstrl.Base.Keyed
import Kstrl.Base.Runs
import Kstrl.Owner.Decisions
import Kstrl.Owner.InboxGate
import Kstrl.Project.StackToml

/-!
# The confirmation of a stack

Which stack may run (`confirmed_stack` of `kstrl/project/stack.py`), over the log of the inbox: the newest line that
approves a stack item decides, and the newest line that carries a replay record says what the replay failed at.

* **`latestApproval_append`**: what a line does to the reading.
* **`confirmed_sound`**: a stack that is confirmed is the one approved last, the approval stands, and the replay of it
  filed last did not fail, in the runs in which no decision is made on an item whose own replay passed while a replay
  filed later failed; and a log that cannot be read confirms nothing.
* `older_pass_restored` is the run that a decision on the older item breaks.
-/

namespace Kstrl.Stack

open Owner (InboxItem ItemKind ItemStatus InboxScan InboxError Hours folded append)
open Runs

/-! ## Replay records -/

def replayBoundaryRefused : String := "boundary_refused"

def replayStages : List String := [replayBoundaryRefused, "up_timeout", "check_not_runnable", "base_contradiction"]

def replayStagesWithExit : List String := ["setup_failed", "up_failed"]

/-- Whether a record's `failed` can be read. -/
def replayFailureKnown : Json → Bool
  | .str failed =>
      let stage := failed.toList.takeWhile (· ≠ ':')
      match failed.toList.drop stage.length with
      | _ :: given => String.ofList stage ∈ replayStagesWithExit && !given.isEmpty
      | [] => failed = "" || failed ∈ replayStages
  | _ => false

/-- A failure at a stage that ran. -/
def replayRefuses (failed : String) : Bool := failed ∉ ["", replayBoundaryRefused]

abbrev Replay := List (String × Json)

def failedAt (replay : Replay) : String := Owner.InboxItem.textOf (.obj replay) "failed"

/-- A failure at a stage that ran, or a pass without an error. -/
def replayDecides (replay : Replay) : Bool :=
  replayRefuses (failedAt replay) ||
    !(failedAt replay ≠ "" || (((Json.obj replay).get? "error").getD .null).truthy)

/-! ## Reading the log -/

def stackKey : String := "stack:"

def stackDedupeKey (digest : String) : String := stackKey ++ digest

/-- `_DIGEST.fullmatch` -/
def isDigest (text : String) : Bool :=
  text.toList.length = 64 && text.toList.all fun c => ('0' ≤ c && c ≤ '9') || ('a' ≤ c && c ≤ 'f')

/-- Why a line that claims to be a stack decision cannot be read. -/
def recordErrors (record : Json) : List String :=
  match InboxItem.fromDict record with
  | none => ["it is not an inbox item kstrl can read"]
  | some item =>
      let digest := (item.evidence.lookup "stack_digest").getD .null
      let replay := (item.evidence.lookup "replay").getD .null
      (if item.kind = .stackConfirmation then []
        else ["its kind is " ++ PyText.repr item.kind.value ++ ", not " ++ PyText.repr ItemKind.stackConfirmation.value]) ++
      (match digest with
        | .str digest =>
            if !isDigest digest then ["its evidence.stack_digest " ++ PyText.repr digest ++ " is not a sha256"]
            else if item.dedupeKey ≠ stackDedupeKey digest then
              ["its dedupe_key " ++ PyText.repr item.dedupeKey ++ " does not name its digest"]
            else []
        | other => ["its evidence.stack_digest " ++ other.pyRepr ++ " is not a sha256"]) ++
      (match replay with
        | .null => []
        | .obj record =>
            let failed := ((Json.obj record).get? "failed").getD .null
            if replayFailureKnown failed then []
            else ["its evidence.replay names no replay outcome kstrl can read (" ++ failed.pyRepr ++ ")"]
        | other =>
            ["its evidence.replay names no replay outcome kstrl can read (" ++ PyText.repr other.typeName ++ ")"])

def isStackRecord (record : Json) : Bool :=
  (match record.get? "kind" with
    | some (.str kind) => kind = ItemKind.stackConfirmation.value
    | _ => false) ||
  stackKey.toList.isPrefixOf (Owner.InboxItem.textOf record "dedupe_key").toList

/-- The digest an item is for. -/
def digestOf (item : InboxItem) : String := ((item.evidence.lookup "stack_digest").map Json.pyStr).getD ""

/-- What the replay that an item carries failed at, where it decides. -/
def replayOf (item : InboxItem) : Option String :=
  match item.evidence.lookup "replay" with
  | some (.obj replay) => if replayDecides replay then some (failedAt replay) else none
  | _ => none

/-- What has been read: the items, what the newest replay of each digest failed at, and the item of the newest
approval. -/
structure Reading where
  items : List (String × InboxItem) := []
  replays : List (String × String) := []
  newest : String := ""

def Reading.add (acc : Reading) (item : InboxItem) : Reading where
  items := Keyed.set item.id item acc.items
  replays := match replayOf item with
    | some failed => Keyed.set (digestOf item) failed acc.replays
    | none => acc.replays
  newest := if item.status = .approved then item.id else acc.newest

section Confirmation

variable (path : String)

def readRecord (acc : Reading) (entry : Json × ℕ) : Except String Reading :=
  if isStackRecord entry.1 then
    if recordErrors entry.1 = [] then
      match InboxItem.fromDict entry.1 with
      | some item => .ok (acc.add item)
      | none => .ok acc
    else .error ("record " ++ toString (entry.2 + 1) ++ " of " ++ path ++ " is a stack decision kstrl cannot read: " ++
      String.intercalate "; " (recordErrors entry.1))
  else .ok acc

def readRecords (records : List Json) : Except String Reading := records.zipIdx.foldlM (readRecord path) {}

/-- The item of the newest approval, with whether it is still approved, and the replays; or why the log cannot be
read. -/
def latestApproval (scan : InboxScan) : Except String (Option (InboxItem × Bool) × List (String × String)) :=
  if scan.unreadable then .error (path ++ " cannot be read")
  else if scan.skippedLines ≠ 0 then
    .error (toString scan.skippedLines ++ " line(s) of " ++ path ++
      " are not JSON objects, and any of them could be a newer stack decision")
  else (readRecords path scan.records).map fun acc =>
    ((acc.items.lookup acc.newest).map fun latest => (latest, latest.status = .approved), acc.replays)

def confirmedInRun : String := "operator"

def confirmedInInbox : String := "inbox"

def short (digest : String) : String := String.ofList (digest.toList.take 12)

variable (sha256 : String → String)

/-- Why a stack may not run, or nothing and how it was confirmed.  `[inbox]` is whether it is enabled, or why it cannot
be read. -/
def refusal (inbox : Except String Bool) (confirmedThisRun : List String) (scan : InboxScan) (stack : Stack) :
    String × String :=
  match inbox with
  | .error exc => ("cannot be checked: [inbox] cannot be read: " ++ exc, "")
  | .ok false =>
      if stack.digest sha256 ∈ confirmedThisRun then ("", confirmedInRun)
      else ("is not confirmed, and [inbox] is disabled, so only an answer at the prompt of ks factory in a terminal " ++
        "can confirm it, for that run only", "")
  | .ok true =>
      match latestApproval path scan with
      | .error exc => ("cannot be checked: the inbox is unreadable: " ++ exc, "")
      | .ok (none, _) => ("is not confirmed: no inbox approval names " ++ short (stack.digest sha256), "")
      | .ok (some (latest, stillApproved), replays) =>
          let approved := digestOf latest
          if !stillApproved then
            ("is not confirmed: the newest confirmation, of " ++ short approved ++ ", was " ++ latest.status.value ++
              " by " ++ latest.decidedBy ++ " at " ++ latest.decidedAt, "")
          else if approved = stack.digest sha256 then
            let failed := (replays.lookup (stack.digest sha256)).getD ""
            if replayRefuses failed then
              ("failed its clean replay at " ++ failed ++ " (ks doctor --measure), so its confirmation of " ++
                short approved ++ " does not hold: fix the recipe and run ks doctor --measure again", "")
            else ("", confirmedInInbox)
          else
            ("has changed since " ++ short approved ++ ", confirmed by " ++ latest.decidedBy ++ " at " ++
              latest.decidedAt ++ ": it now reads " ++ short (stack.digest sha256) ++ ", which is not confirmed", "")

/-- The stack of the table when a person confirmed this text, else the stack with why it is refused. -/
def confirmedStack (inbox : Except String Bool) (confirmedThisRun : List String) (scan : InboxScan) (stack : Stack) :
    Except Stack Stack :=
  match refusal path sha256 inbox confirmedThisRun scan stack with
  | ("", confirmedBy) => .ok { stack with unconfirmed := "", confirmedBy := confirmedBy }
  | (reason, _) => .error { stack with unconfirmed := reason }

/-! ## Filing -/

/-- What a filing is called with. -/
structure Filing where
  stack : Stack
  runId : String := ""
  replay : Option Replay := none
  proposal : String := ""

variable (source : String)

def stackEvidence (stack : Stack) : List (String × Json) :=
  [("stack_digest", .str (stack.digest sha256)),
    ("stack", .obj [("instructions", .str stack.instructions),
      ("setup", .str stack.setup),
      ("checks", .arr (stack.checks.map fun check => strings [check.1, check.2])),
      ("env", strings stack.env),
      ("up", .str stack.up)]),
    ("source", .str source)]

def Filing.evidence (f : Filing) : List (String × Json) :=
  stackEvidence sha256 source f.stack ++ ((f.replay.map fun replay => [("replay", .obj replay)]).getD []) ++
    if f.proposal = "" then [] else [("toml", .str f.stack.stackToml)]

/-- The commands of a stack, as an item says them. -/
def Filing.checksText (f : Filing) : String :=
  let replayed := (f.replay.map fun replay =>
    " Its clean replay " ++ (if failedAt replay = "" then "passed" else "failed at " ++ failedAt replay) ++ ".").getD ""
  String.intercalate ", " (f.stack.checks.map fun check => check.1 ++ " `" ++ check.2 ++ "`") ++
    (if f.stack.setup = "" then "; no setup" else "; setup `" ++ f.stack.setup ++ "`") ++
    (if f.stack.up = "" then "" else "; up `" ++ f.stack.up ++ "`") ++ "." ++ replayed

def Filing.emission (f : Filing) : Owner.Emission where
  kind := .stackConfirmation
  title :=
    if f.proposal = "" then "Confirm the [stack] " ++ short (f.stack.digest sha256) ++ " in kstrl.toml"
    else "Proposed [stack] " ++ short (f.stack.digest sha256) ++ " from " ++ f.proposal
  detail :=
    if f.proposal = "" then
      "kstrl runs no command of a [stack] a person has not confirmed. Checks, in order: " ++ f.checksText ++
        " ks inbox approve <id> confirms this text; ks inbox reject <id> --comment ... refuses it."
    else
      "Proposed from " ++ f.proposal ++ ": " ++ f.checksText ++ " Nothing runs them until a person adopts them: " ++
        "write the table below into kstrl.toml as its [stack], in place of any [verify] command keys, edit it if it " ++
        "is wrong, then confirm it (ks inbox approve <id> confirms this text unchanged).\n\n" ++ f.stack.stackToml
  runId := f.runId
  dedupeKey := stackDedupeKey (f.stack.digest sha256)
  evidence := f.evidence sha256 source

variable (fmt : IsoFormat)

/-- File the item of a stack, or bump the open one; nothing is filed where the log cannot be read. -/
def fileStackItem (inbox : Except String Bool) (clock : ℕ) (log : List Json) (id : String) (f : Filing) :
    Except String (InboxItem × List Json) :=
  match inbox with
  | .error exc => .error exc
  | .ok false => .error "[inbox] is disabled"
  | .ok true => (latestApproval path { records := log }).map fun _ => Owner.add fmt clock log id (f.emission sha256 source)

end Confirmation

/-! ## Runs -/

/-- What happened, as far as a confirmation is about it. -/
inductive Event where
  | filed (id : String) (stack : Stack) (replay : Option Replay)
  | approved (id : String)
  /-- rejected or snoozed -/
  | withdrawn (id : String)

structure World where
  log : List Json
  clock : ℕ
  history : List Event

def World.init (clock : ℕ) : World := ⟨[], clock, []⟩

inductive Op where
  | file (inbox : Except String Bool) (id : String) (f : Filing)
  | approve (itemId actor comment : String)
  | reject (itemId actor comment : String)
  | snooze (itemId actor : String) (snoozeHours : Hours) (hours : Option Hours)
  | advance (micros : ℕ)

/-- Behind a command that decides about an item; one that raises leaves everything. -/
def World.after (w : World) (event : String → Event) (r : Except InboxError (Option InboxItem × List Json)) : World :=
  match r with
  | .ok (some item, log) => { w with log := log, history := w.history ++ [event item.id] }
  | _ => w

section System

variable (path source : String) (sha256 : String → String) (fmt : IsoFormat)

def World.next (w : World) : Op → World
  | .file inbox id f =>
      match fileStackItem path sha256 source fmt inbox w.clock w.log id f with
      | .ok (item, log) => { w with log := log, history := w.history ++ [.filed item.id f.stack f.replay] }
      | .error _ => w
  | .approve itemId actor comment => w.after .approved (Owner.approve fmt w.clock w.log itemId actor comment)
  | .reject itemId actor comment => w.after .withdrawn (Owner.reject fmt w.clock w.log itemId actor comment)
  | .snooze itemId actor snoozeHours hours =>
      w.after .withdrawn (Owner.snooze fmt w.clock w.log snoozeHours itemId actor hours)
  | .advance micros => { w with clock := w.clock + micros }

/-- A new id is one that no item has. -/
def Op.Fresh (w : World) : Op → Prop
  | .file _ id _ => id ≠ "" ∧ ∀ it ∈ folded w.log, it.id ≠ id
  | _ => True

def Step (w : World) (a : Op) (v : World) : Prop := a.Fresh w ∧ v = w.next path source sha256 fmt a

/-- What the replay filed last for a digest failed at, of those that decide. -/
def lastReplay (history : List Event) (digest : String) : Option String :=
  history.reverse.findSome? fun
    | .filed _ stack (some replay) =>
        if stack.digest sha256 = digest ∧ replayDecides replay then some (failedAt replay) else none
    | _ => none

/-- Where the item carries a replay that passed, the replay filed last for its digest did not fail. -/
def Current (w : World) (itemId : String) : Prop :=
  ∀ item, Owner.get w.log itemId = .ok (some item) → ∀ passed, replayOf item = some passed →
    replayRefuses passed = false → ∀ failed, lastReplay sha256 w.history (digestOf item) = some failed →
      replayRefuses failed = false

/-- The condition of a decision; a filing has none. -/
def DecidesCurrent (w : World) : Op → Prop
  | .approve itemId _ _ => Current sha256 w itemId
  | .reject itemId _ _ => Current sha256 w itemId
  | .snooze itemId _ _ _ => Current sha256 w itemId
  | .file _ _ _ => True
  | .advance _ => True

end System

/-! ## What a line does to the reading -/

variable {path source : String} {sha256 : String → String} {fmt : IsoFormat}

lemma readRecords_append {log : List Json} {row : Json} {acc : Reading}
    (h : readRecords path (log ++ [row]) = .ok acc) :
    ∃ acc', readRecords path log = .ok acc' ∧ readRecord path acc' (row, log.length) = .ok acc := by
  rw [readRecords, List.zipIdx_append, List.foldlM_append] at h
  obtain ⟨acc', hacc, hlast⟩ := Except.bind_eq_ok h
  refine ⟨acc', hacc, ?_⟩
  simpa using hlast

/-- The row of an item. -/
lemma append_row (log : List Json) {item : InboxItem} (hid : item.id ≠ "") :
    ∃ row, append log item = log ++ [row] ∧ InboxItem.fromDict row = some item ∧
      row.get? "kind" = some (.str item.kind.value) :=
  ⟨_, rfl, InboxItem.fromDict_schema item _ hid, rfl⟩

/-- The row of a stack item is read as the item, if it can be read. -/
lemma readRecords_row {log : List Json} {item : InboxItem} {acc : Reading} (hid : item.id ≠ "")
    (hkind : item.kind = .stackConfirmation) (h : readRecords path (append log item) = .ok acc) :
    ∃ acc', readRecords path log = .ok acc' ∧ acc = acc'.add item := by
  obtain ⟨row, hrow, hitem, hrowKind⟩ := append_row log hid
  rw [hrow] at h
  obtain ⟨acc', hacc, hlast⟩ := readRecords_append h
  refine ⟨acc', hacc, ?_⟩
  have hstack : isStackRecord row = true := by simp [isStackRecord, hrowKind, hkind]
  rw [readRecord, if_pos hstack, hitem] at hlast
  split_ifs at hlast with herrors
  cases hlast
  rfl

/-! ## What a step does -/

lemma decide_ok {clock : ℕ} {log log' : List Json} {itemId : String} {d : Owner.Decision} {row : InboxItem}
    (h : Owner.decide fmt clock log itemId d = .ok (some row, log')) :
    ∃ old, Owner.get log itemId = .ok (some old) ∧ row = Owner.decided fmt clock d old ∧ log' = append log row := by
  unfold Owner.decide at h
  obtain ⟨found, hget, h⟩ := Except.bind_eq_ok h
  cases found with
  | none => cases h
  | some old =>
      dsimp only at h
      split_ifs at h
      · cases h
      · cases h
        exact ⟨old, hget, rfl, rfl⟩

/-- A row that a filing writes: that of an open item of its key, or of a new one. -/
structure FiledRow (sha256 : String → String) (source : String) (w : World) (id : String) (f : Filing)
    (item : InboxItem) : Prop where
  status : item.status = .open
  evidence : item.evidence = f.evidence sha256 source
  key : item.dedupeKey = stackDedupeKey (f.stack.digest sha256)
  old : (∃ old ∈ folded w.log, old.id = item.id ∧ old.kind = item.kind ∧ old.dedupeKey = item.dedupeKey) ∨
    item.id = id ∧ item.kind = .stackConfirmation

/-- A row that a decision writes. -/
structure DecidedRow (sha256 : String → String) (fmt : IsoFormat) (w : World) (a : Op) (event : String → Event)
    (item : InboxItem) : Prop where
  row : ∃ itemId old d, Owner.get w.log itemId = .ok (some old) ∧ item = Owner.decided fmt w.clock d old ∧
    (DecidesCurrent sha256 w a → Current sha256 w itemId)
  event : event = .approved ∧ item.status = .approved ∨ event = .withdrawn ∧ item.status ≠ .approved

/-- What a step does: nothing to the log, the row of a filing, or that of a decision. -/
inductive Effect (sha256 : String → String) (source : String) (fmt : IsoFormat) (w : World) (a : Op) (v : World) : Prop where
  | idle (log : v.log = w.log) (history : v.history = w.history)
  | filed {inbox : Except String Bool} {id : String} {f : Filing} {item : InboxItem} (op : a = .file inbox id f)
      (log : v.log = append w.log item) (history : v.history = w.history ++ [.filed item.id f.stack f.replay])
      (row : FiledRow sha256 source w id f item)
  | decided {event : String → Event} {item : InboxItem} (log : v.log = append w.log item)
      (history : v.history = w.history ++ [event item.id]) (row : DecidedRow sha256 fmt w a event item)

lemma evidence_bumped (f : Filing) (clock : ℕ) (item : InboxItem) :
    (Owner.bumped fmt clock (f.emission sha256 source) item).evidence = f.evidence sha256 source := by
  have hne : (f.emission sha256 source).evidence ≠ [] := by simp [Filing.emission, Filing.evidence, stackEvidence]
  simp only [Owner.bumped, if_neg hne]
  rfl

lemma file_cases {inbox : Except String Bool} {w : World} {id : String} {f : Filing} {item : InboxItem}
    {log : List Json} (h : fileStackItem path sha256 source fmt inbox w.clock w.log id f = .ok (item, log)) :
    log = append w.log item ∧ FiledRow sha256 source w id f item := by
  unfold fileStackItem at h
  cases inbox with
  | error exc => cases h
  | ok enabled =>
      cases enabled with
      | false => cases h
      | true =>
          obtain ⟨-, -, hadd⟩ := Except.map_eq_ok h
          have hopened : (Owner.opened fmt w.clock id (f.emission sha256 source),
              append w.log (Owner.opened fmt w.clock id (f.emission sha256 source))) = (item, log) →
              log = append w.log item ∧ FiledRow sha256 source w id f item := by
            rintro heq
            cases heq
            exact ⟨rfl, rfl, rfl, rfl, .inr ⟨rfl, rfl⟩⟩
          unfold Owner.add at hadd
          cases hfind : Owner.findByDedupeKey w.log (f.emission sha256 source).dedupeKey with
          | none =>
              rw [hfind] at hadd
              exact hopened hadd
          | some existing =>
              rw [hfind] at hadd
              dsimp only at hadd
              split_ifs at hadd with hopen
              · cases hadd
                obtain ⟨hmem, hkey, -, -⟩ := Owner.mem_of_findByDedupeKey hfind
                refine ⟨rfl, hopen, evidence_bumped f w.clock existing, hkey, .inl ⟨existing, hmem, rfl, rfl, rfl⟩⟩
              · exact hopened hadd

lemma after_effect {w : World} {event : String → Event} {itemId : String} {d : Owner.Decision} {a : Op}
    (hevent : event = .approved ∧ d.status = .approved ∨ event = .withdrawn ∧ d.status ≠ .approved)
    (hcurrent : DecidesCurrent sha256 w a → Current sha256 w itemId) :
    Effect sha256 source fmt w a (w.after event (Owner.decide fmt w.clock w.log itemId d)) := by
  unfold World.after
  split
  · next item log hdecide =>
      obtain ⟨old, hget, rfl, rfl⟩ := decide_ok hdecide
      exact .decided rfl rfl ⟨⟨itemId, old, d, hget, rfl, hcurrent⟩, hevent⟩
  · exact .idle rfl rfl

/-- **What one step can do.** -/
lemma next_effect (w : World) (a : Op) : Effect sha256 source fmt w a (w.next path source sha256 fmt a) := by
  cases a with
  | file inbox id f =>
      simp only [World.next]
      split
      · next item log hfile =>
          obtain ⟨rfl, hrow⟩ := file_cases hfile
          exact .filed rfl rfl rfl hrow
      · exact .idle rfl rfl
  | approve itemId actor comment => exact after_effect (.inl ⟨rfl, rfl⟩) id
  | reject itemId actor comment =>
      simp only [World.next, Owner.reject]
      split_ifs
      · exact .idle rfl rfl
      · exact after_effect (.inr ⟨rfl, fun h => by cases h⟩) id
  | snooze itemId actor snoozeHours hours =>
      simp only [World.next, Owner.snooze]
      split_ifs
      · exact .idle rfl rfl
      · split
        · exact .idle rfl rfl
        · exact after_effect (.inr ⟨rfl, fun h => by cases h⟩) id
  | advance micros => exact .idle rfl rfl

/-! ## The invariant -/

/-- Every item of the log is that of a stack that was filed. -/
def ItemsFiled (sha256 : String → String) (w : World) : Prop :=
  ∀ it ∈ folded w.log, it.kind = .stackConfirmation ∧ it.dedupeKey = stackDedupeKey (digestOf it) ∧
    ∃ stack replay, .filed it.id stack replay ∈ w.history ∧ stack.digest sha256 = digestOf it

/-- The item of the newest approval is that of the last one that happened. -/
structure LastApproved (sha256 : String → String) (w : World) (newest : String) : Prop where
  mem : ∃ it ∈ folded w.log, it.id = newest
  last : ∃ before rest, w.history = before ++ .approved newest :: rest ∧ (∀ id, .approved id ∉ rest) ∧
    (∃ stack replay, .filed newest stack replay ∈ before ∧
      ∀ it ∈ folded w.log, it.id = newest → digestOf it = stack.digest sha256) ∧
    ∀ it ∈ folded w.log, it.id = newest → it.status = .approved → .withdrawn newest ∉ rest

/-- What has been read agrees with what happened. -/
structure Agrees (sha256 : String → String) (w : World) (acc : Reading) : Prop where
  items : ∀ id it, acc.items.lookup id = some it ↔ it ∈ folded w.log ∧ it.id = id
  newest : acc.newest ≠ "" → LastApproved sha256 w acc.newest
  replays : ∀ digest failed, lastReplay sha256 w.history digest = some failed → replayRefuses failed = true →
    ∃ read, acc.replays.lookup digest = some read ∧ replayRefuses read = true

structure Inv (path : String) (sha256 : String → String) (w : World) : Prop where
  filed : ItemsFiled sha256 w
  agrees : ∀ acc, readRecords path w.log = .ok acc → Agrees sha256 w acc

lemma digestOf_eq {item : InboxItem} {f : Filing} (h : item.evidence = f.evidence sha256 source) :
    digestOf item = f.stack.digest sha256 := by
  rw [digestOf, h]
  rfl

lemma replayOf_eq {item : InboxItem} {f : Filing} (h : item.evidence = f.evidence sha256 source) :
    replayOf item = f.replay.bind fun replay => if replayDecides replay then some (failedAt replay) else none := by
  rw [replayOf, h, Filing.evidence, stackEvidence]
  cases f.replay with
  | none => by_cases hproposal : f.proposal = "" <;> simp [hproposal, List.lookup_cons]
  | some replay => simp [List.lookup_cons]

lemma stackDedupeKey_inj {digest digest' : String} (h : stackDedupeKey digest = stackDedupeKey digest') :
    digest = digest' := by
  simpa [stackDedupeKey] using h

lemma lastReplay_append (history : List Event) (event : Event) (digest : String) :
    lastReplay sha256 (history ++ [event]) digest =
      (lastReplay sha256 [event] digest).or (lastReplay sha256 history digest) := by
  rw [lastReplay, List.reverse_append, List.findSome?_append]
  rfl

lemma lastReplay_filed (id : String) (stack : Stack) (replay : Option Replay) (digest : String) :
    lastReplay sha256 [.filed id stack replay] digest =
      if stack.digest sha256 = digest then
        replay.bind fun replay => if replayDecides replay then some (failedAt replay) else none
      else none := by
  cases replay with
  | none => simp [lastReplay]
  | some replay => by_cases hdigest : stack.digest sha256 = digest <;> simp [lastReplay, hdigest]

lemma DecidedRow.filed {w : World} {a : Op} {event : String → Event} {item : InboxItem}
    (h : DecidedRow sha256 fmt w a event item) :
    ∃ old ∈ folded w.log, old.id = item.id ∧ old.kind = item.kind ∧ old.dedupeKey = item.dedupeKey ∧
      old.evidence = item.evidence := by
  obtain ⟨itemId, old, d, hget, rfl, -⟩ := h.row
  exact ⟨old, Owner.mem_of_get hget, rfl, rfl, rfl, rfl⟩

lemma digestOf_congr {it item : InboxItem} (h : it.evidence = item.evidence) : digestOf it = digestOf item := by
  rw [digestOf, digestOf, h]

/-- What the row of a step is about. -/
structure Effect.Row (sha256 : String → String) (w v : World) (item : InboxItem) : Prop where
  log : v.log = append w.log item
  id_ne : item.id ≠ ""
  kind : item.kind = .stackConfirmation
  key : item.dedupeKey = stackDedupeKey (digestOf item)
  /-- its digest is that of the item it replaces -/
  digest : ∀ it ∈ folded w.log, it.id = item.id → digestOf it = digestOf item

lemma FiledRow.facts {w v : World} {id : String} {f : Filing} {item : InboxItem} (hinv : ItemsFiled sha256 w)
    (hfresh : id ≠ "" ∧ ∀ it ∈ folded w.log, it.id ≠ id) (h : FiledRow sha256 source w id f item)
    (hlog : v.log = append w.log item) : Effect.Row sha256 w v item := by
  have hdigest := digestOf_eq h.evidence
  rcases h.old with ⟨old, hold, hid, hkind, hkey⟩ | ⟨hid, hkind⟩
  · obtain ⟨holdKind, holdKey, -⟩ := hinv old hold
    refine ⟨hlog, hid ▸ Owner.id_ne_of_mem_folded hold, hkind ▸ holdKind, by rw [h.key, hdigest], fun it hit hitId => ?_⟩
    rw [Owner.eq_of_mem_folded hit hold (hitId.trans hid.symm), hdigest]
    exact stackDedupeKey_inj (holdKey.symm.trans (hkey.trans h.key))
  · exact ⟨hlog, hid ▸ hfresh.1, hkind, by rw [h.key, hdigest], fun it hit hitId => absurd (hitId.trans hid) (hfresh.2 it hit)⟩

lemma DecidedRow.facts {w v : World} {a : Op} {event : String → Event} {item : InboxItem} (hinv : ItemsFiled sha256 w)
    (h : DecidedRow sha256 fmt w a event item) (hlog : v.log = append w.log item) : Effect.Row sha256 w v item := by
  obtain ⟨old, hold, hid, hkind, hkey, hevidence⟩ := h.filed
  obtain ⟨holdKind, holdKey, -⟩ := hinv old hold
  refine ⟨hlog, hid ▸ Owner.id_ne_of_mem_folded hold, hkind ▸ holdKind, ?_, fun it hit hitId => ?_⟩
  · rw [← hkey, holdKey, digestOf_congr hevidence]
  · rw [Owner.eq_of_mem_folded hit hold (hitId.trans hid.symm), digestOf_congr hevidence]

/-- Items of stacks stay so. -/
lemma Effect.Row.itemsFiled {w v : World} {item : InboxItem} (h : Effect.Row sha256 w v item) (hinv : ItemsFiled sha256 w)
    {event : Event} (hhistory : v.history = w.history ++ [event])
    (hitem : ∃ stack replay, .filed item.id stack replay ∈ v.history ∧ stack.digest sha256 = digestOf item) :
    ItemsFiled sha256 v := by
  intro it hit
  rw [h.log, Owner.folded_append _ h.id_ne] at hit
  rcases hit with rfl | ⟨hit, -⟩
  · exact ⟨h.kind, h.key, hitem⟩
  · obtain ⟨hkind, hkey, stack, replay, hfiled, hdigest⟩ := hinv it hit
    exact ⟨hkind, hkey, stack, replay, hhistory ▸ List.mem_append_left _ hfiled, hdigest⟩

lemma itemsFiled_step {w v : World} {a : Op} (hinv : ItemsFiled sha256 w) (hfresh : a.Fresh w)
    (h : Effect sha256 source fmt w a v) : ItemsFiled sha256 v := by
  cases h with
  | idle log history => 
      unfold ItemsFiled
      rw [log, history]
      exact hinv
  | @filed inbox id f item op log history row =>
      subst op
      refine (row.facts hinv hfresh log).itemsFiled hinv history ⟨f.stack, f.replay, ?_, (digestOf_eq row.evidence).symm⟩
      rw [history]
      exact List.mem_append_right _ (List.mem_singleton_self _)
  | @decided event item log history row =>
      refine (row.facts hinv log).itemsFiled hinv history ?_
      obtain ⟨old, hold, hid, -, -, hevidence⟩ := row.filed
      obtain ⟨-, -, stack, replay, hfiled, hdigest⟩ := hinv old hold
      refine ⟨stack, replay, ?_, hdigest.trans (digestOf_congr hevidence)⟩
      rw [history, ← hid]
      exact List.mem_append_left _ hfiled

lemma items_add {w v : World} {item : InboxItem} {acc : Reading} (row : Effect.Row sha256 w v item)
    (h : ∀ id it, acc.items.lookup id = some it ↔ it ∈ folded w.log ∧ it.id = id) (id : String) (it : InboxItem) :
    (acc.add item).items.lookup id = some it ↔ it ∈ folded v.log ∧ it.id = id := by
  rw [row.log, Owner.folded_append _ row.id_ne, Reading.add, Keyed.lookup_set]
  simp only [beq_iff_eq]
  split_ifs with hid
  · rw [Option.some.injEq]
    constructor
    · rintro rfl
      exact ⟨.inl rfl, hid.symm⟩
    · rintro ⟨rfl | ⟨-, hne⟩, hit⟩
      · rfl
      · exact absurd (hit.trans hid) hne
  · rw [h]
    constructor
    · rintro ⟨hit, rfl⟩
      exact ⟨.inr ⟨hit, hid⟩, rfl⟩
    · rintro ⟨rfl | ⟨hit, -⟩, hitId⟩
      · exact absurd hitId.symm hid
      · exact ⟨hit, hitId⟩

/-- An approval is the last one. -/
lemma lastApproved_approved {w v : World} {item : InboxItem} (row : Effect.Row sha256 w v item)
    (hhistory : v.history = w.history ++ [.approved item.id])
    (hfiled : ∃ stack replay, .filed item.id stack replay ∈ w.history ∧ stack.digest sha256 = digestOf item) :
    LastApproved sha256 v item.id := by
  have hfolded := Owner.folded_append w.log row.id_ne
  obtain ⟨stack, replay, hmem, hdigest⟩ := hfiled
  refine ⟨⟨item, row.log ▸ (hfolded item).mpr (.inl rfl), rfl⟩, w.history, [], hhistory, nofun,
    ⟨stack, replay, hmem, fun it hit hid => ?_⟩, fun _ _ _ _ => nofun⟩
  rw [row.log, hfolded] at hit
  rcases hit with rfl | ⟨-, hne⟩
  · exact hdigest.symm
  · exact absurd hid hne

/-- Another event leaves the last approval. -/
lemma LastApproved.later {w v : World} {item : InboxItem} {newest : String} {event : Event}
    (h : LastApproved sha256 w newest) (row : Effect.Row sha256 w v item) (hhistory : v.history = w.history ++ [event])
    (hstatus : item.status ≠ .approved) (hnot : ∀ id, event ≠ .approved id)
    (hwithdrawn : ∀ id, event = .withdrawn id → id = item.id) : LastApproved sha256 v newest := by
  have hfolded := Owner.folded_append w.log row.id_ne
  obtain ⟨⟨found, hfound, hfoundId⟩, before, rest, hsplit, hlast, ⟨stack, replay, hmem, hdigest⟩, hstands⟩ := h
  refine ⟨?_, before, rest ++ [event], by rw [hhistory, hsplit, List.append_assoc, List.cons_append], ?_,
    ⟨stack, replay, hmem, ?_⟩, ?_⟩
  · by_cases hid : found.id = item.id
    · exact ⟨item, row.log ▸ (hfolded item).mpr (.inl rfl), hid.symm.trans hfoundId⟩
    · exact ⟨found, row.log ▸ (hfolded found).mpr (.inr ⟨hfound, hid⟩), hfoundId⟩
  · intro id hin
    rcases List.mem_append.mp hin with hin | hin
    · exact hlast id hin
    · exact hnot id (List.mem_singleton.mp hin).symm
  · intro it hit hitId
    rw [row.log, hfolded] at hit
    rcases hit with rfl | ⟨hit, -⟩
    · rw [← row.digest found hfound (hfoundId.trans hitId.symm)]
      exact hdigest found hfound hfoundId
    · exact hdigest it hit hitId
  · intro it hit hitId happroved hin
    rw [row.log, hfolded] at hit
    rcases hit with rfl | ⟨hit, hne⟩
    · exact hstatus happroved
    · rcases List.mem_append.mp hin with hin | hin
      · exact hstands it hit hitId happroved hin
      · exact hne (hitId.trans (hwithdrawn newest (List.mem_singleton.mp hin).symm))

lemma replays_add (acc : Reading) (item : InboxItem) (digest : String) :
    (acc.add item).replays.lookup digest =
      if digest = digestOf item then (replayOf item).or (acc.replays.lookup digest) else acc.replays.lookup digest := by
  rw [Reading.add]
  cases replayOf item with
  | none => simp
  | some failed =>
      rw [Keyed.lookup_set]
      simp only [beq_iff_eq, Option.some_or]

/-- A failure that was filed last is still read behind a filing. -/
lemma replays_filed {w : World} {id : String} {f : Filing} {item : InboxItem} {acc : Reading}
    (row : FiledRow sha256 source w id f item)
    (h : ∀ digest failed, lastReplay sha256 w.history digest = some failed → replayRefuses failed = true →
      ∃ read, acc.replays.lookup digest = some read ∧ replayRefuses read = true)
    (digest failed : String)
    (hlast : lastReplay sha256 (w.history ++ [.filed item.id f.stack f.replay]) digest = some failed)
    (hfailed : replayRefuses failed = true) :
    ∃ read, (acc.add item).replays.lookup digest = some read ∧ replayRefuses read = true := by
  rw [lastReplay_append, lastReplay_filed, ← replayOf_eq row.evidence, ← digestOf_eq row.evidence] at hlast
  rw [replays_add]
  by_cases hdigest : digestOf item = digest
  · rw [if_pos hdigest] at hlast
    rw [if_pos hdigest.symm]
    cases hreplay : replayOf item with
    | none =>
        rw [hreplay, Option.none_or] at hlast
        exact h digest failed hlast hfailed
    | some read =>
        rw [hreplay, Option.some_or] at hlast
        cases hlast
        exact ⟨failed, rfl, hfailed⟩
  · rw [if_neg hdigest, Option.none_or] at hlast
    rw [if_neg fun heq => hdigest heq.symm]
    exact h digest failed hlast hfailed

/-- A failure that was filed last is still read behind a decision that meets the condition. -/
lemma replays_decided {w : World} {a : Op} {event : String → Event} {item : InboxItem} {acc : Reading}
    (row : DecidedRow sha256 fmt w a event item) (hcurrent : DecidesCurrent sha256 w a)
    (h : ∀ digest failed, lastReplay sha256 w.history digest = some failed → replayRefuses failed = true →
      ∃ read, acc.replays.lookup digest = some read ∧ replayRefuses read = true)
    (digest failed : String) (hlast : lastReplay sha256 (w.history ++ [event item.id]) digest = some failed)
    (hfailed : replayRefuses failed = true) :
    ∃ read, (acc.add item).replays.lookup digest = some read ∧ replayRefuses read = true := by
  have hno : lastReplay sha256 [event item.id] digest = none := by
    rcases row.event with ⟨rfl, -⟩ | ⟨rfl, -⟩ <;> rfl
  rw [lastReplay_append, hno, Option.none_or] at hlast
  obtain ⟨read, hread, hrefuses⟩ := h digest failed hlast hfailed
  obtain ⟨itemId, old, d, hget, rfl, hmeets⟩ := row.row
  rw [replays_add]
  split_ifs with hdigest
  · subst hdigest
    cases hreplay : replayOf (Owner.decided fmt w.clock d old) with
    | none => exact ⟨read, hread, hrefuses⟩
    | some passed =>
        refine ⟨passed, rfl, ?_⟩
        by_contra hpassed
        have hold := hmeets hcurrent old hget passed hreplay (by simpa using hpassed) failed hlast
        rw [hfailed] at hold
        cases hold
  · exact ⟨read, hread, hrefuses⟩

lemma inv_init (clock : ℕ) : Inv path sha256 (.init clock) where
  filed := fun it hit => by cases hit
  agrees acc hacc := by
    cases hacc
    refine ⟨fun id it => ?_, fun h => absurd rfl h, fun digest failed h => ?_⟩
    · constructor
      · rintro ⟨⟩
      · rintro ⟨hit, -⟩
        cases hit
    · cases h

/-- **What a step that meets the condition keeps.** -/
lemma inv_step {w v : World} {a : Op} (hinv : Inv path sha256 w) (hcurrent : DecidesCurrent sha256 w a)
    (hstep : Step path source sha256 fmt w a v) : Inv path sha256 v := by
  obtain ⟨hfresh, rfl⟩ := hstep
  have heffect := @next_effect path source sha256 fmt w a
  refine ⟨itemsFiled_step hinv.filed hfresh heffect, fun acc hacc => ?_⟩
  cases heffect with
  | idle log history =>
      rw [log] at hacc
      obtain ⟨hitems, hnewest, hreplays⟩ := hinv.agrees acc hacc
      refine ⟨by rwa [log], fun hne => ?_, by rwa [history]⟩
      obtain ⟨hmem, hlast⟩ := hnewest hne
      exact ⟨by rwa [log], by rwa [log, history]⟩
  | @filed inbox id f item op log history row =>
      subst op
      have hrow := row.facts hinv.filed hfresh log
      rw [log] at hacc
      obtain ⟨acc, hread, rfl⟩ := readRecords_row hrow.id_ne hrow.kind hacc
      obtain ⟨hitems, hnewest, hreplays⟩ := hinv.agrees acc hread
      have hstatus : item.status ≠ .approved := by rw [row.status]; nofun
      refine ⟨items_add hrow hitems, fun hne => ?_, history ▸ replays_filed row hreplays⟩
      have hsame : (acc.add item).newest = acc.newest := if_neg hstatus
      rw [hsame] at hne ⊢
      exact (hnewest hne).later hrow history hstatus nofun nofun
  | @decided event item log history row =>
      have hrow := row.facts hinv.filed log
      rw [log] at hacc
      obtain ⟨acc, hread, rfl⟩ := readRecords_row hrow.id_ne hrow.kind hacc
      obtain ⟨hitems, hnewest, hreplays⟩ := hinv.agrees acc hread
      refine ⟨items_add hrow hitems, fun hne => ?_, history ▸ replays_decided row hcurrent hreplays⟩
      rcases row.event with ⟨rfl, hstatus⟩ | ⟨rfl, hstatus⟩
      · have hsame : (acc.add item).newest = item.id := if_pos hstatus
        rw [hsame]
        obtain ⟨old, hold, hid, -, -, hevidence⟩ := row.filed
        obtain ⟨-, -, stack, replay, hfiled, hdigest⟩ := hinv.filed old hold
        exact lastApproved_approved hrow history
          ⟨stack, replay, hid ▸ hfiled, hdigest.trans (digestOf_congr hevidence)⟩
      · have hsame : (acc.add item).newest = acc.newest := if_neg hstatus
        rw [hsame] at hne ⊢
        refine (hnewest hne).later hrow history hstatus nofun fun id heq => ?_
        cases heq
        rfl

/-! ## What is confirmed -/

lemma canonical_wellFormed (s : Stack) : s.canonical.WellFormed := by
  have hchecks : ∀ checks : List (String × String),
      Json.AllWellFormed (checks.map fun check => strings [check.1, check.2]) := by
    intro checks
    induction checks with
    | nil => trivial
    | cons check checks ih => exact ⟨strings_wellFormed _, ih⟩
  exact ⟨by simp, trivial, hchecks s.checks, strings_wellFormed _, trivial, strings_wellFormed _, trivial, trivial,
    strings_wellFormed _, trivial⟩

/-- The digest says what a stack is. -/
lemma canonical_of_digest (hsha : Function.Injective sha256) {s t : Stack} (h : s.digest sha256 = t.digest sha256) :
    s.canonical = t.canonical := by
  have htext := congrArg Json.loads (hsha h)
  rw [Json.dumpsIn, Json.dumpsIn, Json.Layout.loads_line _ _ (canonical_wellFormed s),
    Json.Layout.loads_line _ _ (canonical_wellFormed t)] at htext
  exact Option.some.inj htext

lemma digest_of_canonical {s t : Stack} (h : s.canonical = t.canonical) : s.digest sha256 = t.digest sha256 := by
  rw [digest, digest, h]

/-- The replay filed last. -/
lemma lastReplay_eq {before rest : List Event} {id digest : String} {stack : Stack} {replay : Replay}
    (hdigest : stack.digest sha256 = digest) (hdecides : replayDecides replay = true)
    (hlater : ∀ id' stack' replay', .filed id' stack' (some replay') ∈ rest → stack'.digest sha256 = digest →
      replayDecides replay' = false) :
    lastReplay sha256 (before ++ .filed id stack (some replay) :: rest) digest = some (failedAt replay) := by
  have hnone : lastReplay sha256 rest digest = none := by
    rw [lastReplay, List.findSome?_eq_none_iff]
    intro event hevent
    rw [List.mem_reverse] at hevent
    match event, hevent with
    | .filed id' stack' (some replay'), hevent =>
        refine if_neg ?_
        rintro ⟨hd, hdec⟩
        rw [hlater id' stack' replay' hevent hd] at hdec
        cases hdec
    | .filed _ _ none, _ | .approved _, _ | .withdrawn _, _ => rfl
  rw [lastReplay, List.reverse_append, List.reverse_cons, List.append_assoc, List.findSome?_append]
  rw [lastReplay] at hnone
  rw [hnone, Option.none_or, List.singleton_append, List.findSome?_cons_of_isSome]
  · exact if_pos ⟨hdigest, hdecides⟩
  · dsimp only
    rw [if_pos ⟨hdigest, hdecides⟩]
    rfl

/-- A person confirmed this text last, the confirmation stands, and the replay of it filed last did not fail. -/
structure Confirmed (history : List Event) (stack : Stack) : Prop where
  approved : ∃ before id rest, history = before ++ .approved id :: rest ∧ (∀ other, .approved other ∉ rest) ∧
    .withdrawn id ∉ rest ∧ ∃ filed replay, .filed id filed replay ∈ before ∧ filed.canonical = stack.canonical
  replay : ∀ before id filed replay rest, history = before ++ .filed id filed (some replay) :: rest →
    filed.canonical = stack.canonical → replayDecides replay = true →
    (∀ id' filed' replay', .filed id' filed' (some replay') ∈ rest → filed'.canonical = stack.canonical →
      replayDecides replay' = false) → replayRefuses (failedAt replay) = false

/-- A log that cannot be read, with a line that is no object, or with one that claims to be a stack decision and cannot
be read as one. -/
def Unreadable (scan : InboxScan) : Prop :=
  scan.unreadable = true ∨ scan.skippedLines ≠ 0 ∨
    ∃ record ∈ scan.records, isStackRecord record = true ∧ recordErrors record ≠ []

lemma readRecords_ok {records : List Json} {acc : Reading} (h : readRecords path records = .ok acc) :
    ∀ record ∈ records, isStackRecord record = true → recordErrors record = [] := by
  induction records using List.reverseRecOn generalizing acc with
  | nil => exact nofun
  | append_singleton records record ih =>
      obtain ⟨acc', hacc, hlast⟩ := readRecords_append h
      intro r hr hstack
      rcases List.mem_append.mp hr with hr | hr
      · exact ih hacc r hr hstack
      · rw [List.mem_singleton.mp hr] at hstack ⊢
        rw [readRecord, if_pos hstack] at hlast
        split_ifs at hlast with herrors
        exact herrors

lemma latestApproval_ok {scan : InboxScan} {found : Option (InboxItem × Bool)} {replays : List (String × String)}
    (h : latestApproval path scan = .ok (found, replays)) :
    ¬ Unreadable scan ∧ ∃ acc, readRecords path scan.records = .ok acc ∧
      found = (acc.items.lookup acc.newest).map (fun latest => (latest, decide (latest.status = .approved))) ∧
      replays = acc.replays := by
  unfold latestApproval at h
  split_ifs at h with hunreadable hskipped
  obtain ⟨acc, hacc, heq⟩ := Except.map_eq_ok h
  obtain ⟨rfl, rfl⟩ := Prod.mk.inj heq
  refine ⟨?_, acc, hacc, rfl, rfl⟩
  rintro (hu | hs | ⟨record, hrecord, hstack, herrors⟩)
  · exact hunreadable hu
  · exact hs (not_not.mp hskipped)
  · exact herrors (readRecords_ok hacc record hrecord hstack)

/-- What a confirmation was read from, where nobody answered the prompt of this run. -/
lemma confirmedStack_ok {inbox : Except String Bool} {scan : InboxScan} {stack s : Stack}
    (h : confirmedStack path sha256 inbox [] scan stack = .ok s) :
    ∃ latest replays, latestApproval path scan = .ok (some (latest, true), replays) ∧
      digestOf latest = stack.digest sha256 ∧
      replayRefuses ((replays.lookup (stack.digest sha256)).getD "") = false := by
  have hreason : (refusal path sha256 inbox [] scan stack).1 = "" := by
    unfold confirmedStack at h
    split at h
    · next heq => rw [heq]
    · cases h
  unfold refusal at hreason
  split at hreason
  · simp at hreason
  · simp at hreason
  · split at hreason
    · simp at hreason
    · simp at hreason
    · next latest stillApproved replays happroval =>
        dsimp only at hreason
        split_ifs at hreason with hstill hdigest hfailed
        · simp at hreason
        · simp at hreason
        · have htrue : stillApproved = true := by simpa using hstill
          exact ⟨latest, replays, htrue ▸ happroval, hdigest, by simpa using hfailed⟩
        · simp at hreason

/-- **Only the stack that a person confirmed last runs.** -/
theorem confirmed_sound (hsha : Function.Injective sha256) :
    (∀ start w, Reaches (Step path source sha256 fmt) (DecidesCurrent sha256) (.init start) w →
      ∀ inbox stack s, confirmedStack path sha256 inbox [] { records := w.log } stack = .ok s →
        Confirmed w.history stack) ∧
      ∀ inbox scan stack, Unreadable scan → ∃ refused, confirmedStack path sha256 inbox [] scan stack = .error refused := by
  constructor
  · intro start w run inbox stack s h
    have hinv : Inv path sha256 w := run.invariant (inv_init start) fun _ _ _ hinv hcurrent hstep =>
      inv_step hinv hcurrent hstep
    obtain ⟨latest, replays, happroval, hdigest, hpassed⟩ := confirmedStack_ok h
    obtain ⟨-, acc, hacc, hfound, rfl⟩ := latestApproval_ok happroval
    obtain ⟨hitems, hnewest, hreplays⟩ := hinv.agrees acc hacc
    obtain ⟨found, hlookup, heq⟩ := Option.map_eq_some_iff.mp hfound.symm
    obtain ⟨rfl, hstatus⟩ := Prod.mk.inj heq
    obtain ⟨hmem, hid⟩ := (hitems _ _).mp hlookup
    obtain ⟨-, before, rest, hhistory, hlast, ⟨filed, replay, hfiled, hfiledDigest⟩, hstands⟩ :=
      hnewest (hid ▸ Owner.id_ne_of_mem_folded hmem)
    have hsame : filed.canonical = stack.canonical :=
      canonical_of_digest hsha ((hfiledDigest found hmem hid).symm.trans hdigest)
    refine ⟨⟨before, acc.newest, rest, hhistory, hlast, hstands found hmem hid (of_decide_eq_true hstatus), filed, replay,
      hfiled, hsame⟩, ?_⟩
    intro before' id filed' replay' rest' hhistory' hsame' hdecides hlater
    have hlastReplay : lastReplay sha256 w.history (stack.digest sha256) = some (failedAt replay') := by
      rw [hhistory']
      exact lastReplay_eq (digest_of_canonical hsame') hdecides fun id' stack' replay' hin hd =>
        hlater id' stack' replay' hin (canonical_of_digest hsha hd)
    by_contra hfailed
    obtain ⟨read, hread, hrefuses⟩ := hreplays _ _ hlastReplay (by simpa using hfailed)
    rw [hread, Option.getD_some, hrefuses] at hpassed
    cases hpassed
  · intro inbox scan stack hunreadable
    cases h : confirmedStack path sha256 inbox [] scan stack with
    | error refused => exact ⟨refused, rfl⟩
    | ok s =>
        obtain ⟨latest, replays, happroval, -, -⟩ := confirmedStack_ok h
        exact absurd hunreadable (latestApproval_ok happroval).1

/-! ### A recipe is replayed twice -/

def exampleStack : Stack := { instructions := "Use make.", setup := "", checks := [("tests", "make test")], env := [] }

/-- A digest that has the form of one for the example's text. -/
def exampleSha (text : String) : String :=
  Equiv.swap (exampleStack.canonical.dumpsIn .compact) (String.ofList (List.replicate 64 '0')) text

lemma exampleSha_injective : Function.Injective exampleSha := (Equiv.swap _ _).injective

def replayedOnce : World :=
  (World.init 0).next "inbox.jsonl" "kstrl.toml" exampleSha .utc
    (.file (.ok true) "a" { stack := exampleStack, replay := some [("failed", .str "")] })

def confirmedOnce : World := replayedOnce.next "inbox.jsonl" "kstrl.toml" exampleSha .utc (.approve "a" "me" "")

lemma replayedOnce_step : Step "inbox.jsonl" "kstrl.toml" exampleSha .utc (.init 0)
    (.file (.ok true) "a" { stack := exampleStack, replay := some [("failed", .str "")] }) replayedOnce :=
  ⟨⟨by decide, fun it hit => by cases hit⟩, rfl⟩

theorem confirmed_sound_once : Confirmed confirmedOnce.history exampleStack := by
  have hok : (confirmedStack "inbox.jsonl" exampleSha (.ok true) [] { records := confirmedOnce.log } exampleStack).toBool =
      true := by decide +kernel
  have hcurrent : DecidesCurrent exampleSha replayedOnce (.approve "a" "me" "") := by
    intro item hget passed hreplay hpassed failed hlast
    have hhistory : replayedOnce.history = [.filed "a" exampleStack (some [("failed", .str "")])] := rfl
    rw [hhistory, lastReplay_filed] at hlast
    split_ifs at hlast
    cases hlast
    rfl
  cases h : confirmedStack "inbox.jsonl" exampleSha (.ok true) [] { records := confirmedOnce.log } exampleStack with
  | error refused =>
      rw [h] at hok
      cases hok
  | ok s =>
      exact (confirmed_sound exampleSha_injective).1 0 confirmedOnce
        (.tail (.single (a := .file _ _ _) trivial replayedOnce_step) hcurrent ⟨trivial, rfl⟩) (.ok true) exampleStack s h

/-- The replay passes and the stack is confirmed; a later replay fails. -/
def replayedTwice : World :=
  confirmedOnce.next "inbox.jsonl" "kstrl.toml" exampleSha .utc
    (.file (.ok true) "b" { stack := exampleStack, replay := some [("failed", .str "up_timeout")] })

/-- The older item is approved again. -/
def confirmedAgain : World := replayedTwice.next "inbox.jsonl" "kstrl.toml" exampleSha .utc (.approve "a" "me" "")

lemma history_after {w : World} {event : String → Event} {id : String}
    {r : Except InboxError (Option InboxItem × List Json)} (h : (Owner.rowOf r).map InboxItem.id = some id) :
    (w.after event r).history = w.history ++ [event id] := by
  match r, h with
  | .ok (some item, log), h => rw [← Option.some.inj h]; rfl

lemma history_file {w : World} {inbox : Except String Bool} {newId id : String} {f : Filing}
    (h : (fileStackItem path sha256 source fmt inbox w.clock w.log newId f).toOption.map (fun r => r.1.id) = some id) :
    (w.next path source sha256 fmt (.file inbox newId f)).history = w.history ++ [.filed id f.stack f.replay] := by
  simp only [World.next]
  split
  · next item log hfile =>
      rw [hfile] at h
      rw [← Option.some.inj h]
  · next exc hfile =>
      rw [hfile] at h
      cases h

/-- **A decision on the older item lifts the failure of the newer one.** -/
theorem older_pass_restored :
    Reaches (Step "inbox.jsonl" "kstrl.toml" exampleSha .utc) Always (.init 0) confirmedAgain ∧
      (∃ s, confirmedStack "inbox.jsonl" exampleSha (.ok true) [] { records := confirmedAgain.log } exampleStack = .ok s) ∧
      ¬ Confirmed confirmedAgain.history exampleStack := by
  have hok : (confirmedStack "inbox.jsonl" exampleSha (.ok true) [] { records := confirmedAgain.log } exampleStack).toBool =
      true := by decide +kernel
  have hids : ∀ it ∈ folded confirmedOnce.log, it.id ≠ "b" := by decide +kernel
  have hfirst : confirmedOnce.history = replayedOnce.history ++ [.approved "a"] := history_after (by decide +kernel)
  have hfiled : (fileStackItem "inbox.jsonl" exampleSha "kstrl.toml" .utc (.ok true) confirmedOnce.clock
      confirmedOnce.log "b" { stack := exampleStack, replay := some [("failed", .str "up_timeout")] }).toOption.map
        (fun r => r.1.id) = some "b" := by decide +kernel
  have hsecond := history_file hfiled
  have hrow : (Owner.rowOf (Owner.approve .utc replayedTwice.clock replayedTwice.log "a" "me" "")).map InboxItem.id =
      some "a" := by decide +kernel
  have hhistory : (replayedTwice.after .approved (Owner.approve .utc replayedTwice.clock replayedTwice.log "a" "me" "")).history =
      replayedTwice.history ++ [.approved "a"] := history_after hrow
  rw [replayedTwice, hsecond, hfirst, List.append_assoc] at hhistory
  refine ⟨?_, ?_, fun hconfirmed => ?_⟩
  · exact .tail (a := .approve "a" "me" "") (.tail (a := .file _ "b" _) (.tail (a := .approve "a" "me" "")
      (.single (a := .file _ _ _) trivial replayedOnce_step) trivial ⟨trivial, rfl⟩) trivial ⟨⟨by decide, hids⟩, rfl⟩)
      trivial ⟨trivial, rfl⟩
  · cases h : confirmedStack "inbox.jsonl" exampleSha (.ok true) [] { records := confirmedAgain.log } exampleStack with
    | error refused =>
        rw [h] at hok
        cases hok
    | ok s => exact ⟨s, rfl⟩
  · have hpassed := hconfirmed.replay _ "b" exampleStack _ [.approved "a"] hhistory rfl (by decide) (by simp)
    exact absurd hpassed (by decide)

end Kstrl.Stack
