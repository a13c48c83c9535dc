import Kstrl.Queue.Store

/-!
# The life of an item

The operations of the work queue (`kstrl/queue/workqueue.py`) as crash programs over the disk.

Every move of an item goes through `Queue.transition`: the sidecar is written first, with an
attempt charged if one is, and the directory is renamed second.  The rename is the commit.
`adoptLease`, `relinkRun` and `setPriority` rewrite the sidecar where it is, `add` assembles an
item under `.staging` and renames it into `queued/`, and `remove` unlinks a directory file by
file.

An operation is given an `Env`, the process and the time it runs at.
-/

namespace Kstrl

open CrashProg

/-- What an operation knows of the process that runs it. -/
structure Env where
  fmt : IsoFormat
  config : QueueConfig
  /-- `os.getpid()` -/
  pid : ℤ
  /-- `socket.gethostname()` -/
  hostname : String
  /-- `_utc_now()`, in microseconds -/
  now : ℕ
  /-- the hexadecimal digest of a file's bytes -/
  sha256 : Content → String

/-- `_iso(_utc_now())`. -/
def Env.stamp (env : Env) : String := env.fmt.isoformat env.now

/-! ## Writes -/

/-- The disk after one file of an item directory was written. -/
def Disk.putFile (d : Disk) (place : Place) (name : String) (content : Content) : Disk :=
  { d with dirs := d.dirs.insert place (((d.dirs.lookup place).getD ∅).insert name content) }

/-- The disk after the sidecar of an item directory was written. -/
def Disk.putMeta (d : Disk) (place : Place) (item : QueueItem) : Disk :=
  d.putFile place metaFilename (.json item.toDict)

/-- The disk after `os.replace` of an item directory. -/
def Disk.rename (d : Disk) (source target : Place) : Disk :=
  match d.dirs.lookup source with
  | some files => { d with dirs := (d.dirs.erase source).insert target files }
  | none => d

/-- The disk after a staged directory was renamed into a state directory. -/
def Disk.publish (d : Disk) (name : String) (target : Place) : Disk :=
  match d.staging.lookup name with
  | some files => { d with dirs := d.dirs.insert target files, staging := d.staging.erase name }
  | none => d

/-- The disk after one file of a staged directory was written. -/
def Disk.stageFile (d : Disk) (name file : String) (content : Content) : Disk :=
  { d with staging := d.staging.insert name (((d.staging.lookup name).getD ∅).insert file content) }

/-! ## Field updates -/

/-- The keyword arguments a transition sets on the item. -/
inductive Update where
  | attempts (v : ℤ)
  | leasePid (v : ℤ)
  | leaseHost (v : String)
  | leaseExpiresAt (v : String)
  | lastError (v : String)
  | lastRunId (v : String)
  | poisonReason (v : String)
  | notBefore (v : String)
  | prUrls (v : List String)

/-- `setattr(item, key, value)`. -/
def Update.set (item : QueueItem) : Update → QueueItem
  | .attempts v => { item with attempts := v }
  | .leasePid v => { item with leasePid := v }
  | .leaseHost v => { item with leaseHost := v }
  | .leaseExpiresAt v => { item with leaseExpiresAt := v }
  | .lastError v => { item with lastError := v }
  | .lastRunId v => { item with lastRunId := v }
  | .poisonReason v => { item with poisonReason := v }
  | .notBefore v => { item with notBefore := v }
  | .prUrls v => { item with prUrls := v }

/-- All keyword arguments, in order. -/
def setAll (item : QueueItem) (updates : List Update) : QueueItem := updates.foldl Update.set item

namespace Queue

variable (env : Env)

/-- `<state>/<itemId>`, refused for an id that is no plain name. -/
def itemDir (item : QueueItem) : QueueProg Place := do
  require (isSafeComponent item.itemId = true)
    (.refused ("unsafe queue item id " ++ PyText.repr item.itemId))
  pure (item.state, item.itemId)

def writeMeta (item : QueueItem) (place : Place) : QueueProg Unit :=
  write (fun d => d.putMeta place item) (.os "meta.json")

/-- A place as an error message shows it. -/
def placeName (place : Place) : String := place.1.name ++ "/" ++ place.2

/-- The legal targets of a state, as an error message lists them. -/
def allowed (legal : List ItemState) : String :=
  if legal = [] then "nothing"
  else String.intercalate ", " ((legal.map ItemState.name).insertionSort (· ≤ ·))

/-- The item as a transition writes it to the sidecar. -/
def moved (item : QueueItem) (toState : ItemState) (chargeAttempt : Bool)
    (updates : List Update) : QueueItem :=
  let item := setAll item updates
  { item with
    attempts := if chargeAttempt then item.attempts + 1 else item.attempts
    state := toState
    updatedAt := env.stamp }

/-- Move `item` to `toState`: sidecar first, rename second. -/
def transition (item : QueueItem) (toState : ItemState) (reason actor : String)
    (chargeAttempt : Bool) (detail : Json) (updates : List Update) : QueueProg QueueItem := do
  let fromState := item.state
  let legal := legalTransitions fromState
  require (toState ∈ legal)
    (.refused ("illegal queue transition " ++ fromState.name ++ " -> " ++ toState.name ++ " for " ++
      item.itemId ++ " (legal: " ++ allowed legal ++ ")"))
  let source ← itemDir item
  let d ← read
  require (source ∈ d.dirs)
    (.refused ("queue item " ++ item.itemId ++ " is not in " ++ fromState.name ++ " (expected " ++
      placeName source ++ ")"))
  let target : Place := (toState, item.itemId)
  require (target ∉ d.dirs)
    (.refused ("queue item " ++ item.itemId ++ " already exists in " ++ toState.name))
  let item := moved env item toState chargeAttempt updates
  writeMeta item source
  write (fun d => d.rename source target) (.os "rename")
  journal { ts := item.updatedAt, itemId := item.itemId, fromState := fromState.name,
            toState := toState.name, reason := reason, actor := actor,
            attempts := item.attempts, detail := detail }
  pure item

/-! ## Adding -/

/-- `PurePath(name).stem`: the name without its suffix. -/
def pathStem (name : String) : String :=
  let cs := name.toList
  let suffix := cs.reverse.takeWhile (· ≠ '.')
  let i := cs.length - suffix.length - 1
  if '.' ∈ cs ∧ suffix ≠ [] ∧ 0 < i then String.ofList (cs.take i) else name

/-- Where the spec of a new item comes from. -/
inductive SpecSource where
  /-- a file, by its name -/
  | path (name chars : String) (parsed : Option Json)
  /-- literal text -/
  | text (chars : String) (parsed : Option Json)

/-- The keyword arguments of `add`. -/
structure AddArgs where
  title : String := ""
  priority : ℤ := 0
  mergeDisposition : MergeDisposition := .stopAtPr
  source : ItemSource := .local
  sourceRef : String := ""
  targetRepo : String := ""
  projectName : String := ""
  maxAttempts : Option ℤ := none
  specFilename : String := "spec.md"
  designAcceptance : Bool := false
  actor : String := ""

def SpecSource.chars : SpecSource → String
  | .path _ chars _ => chars
  | .text chars _ => chars

def SpecSource.content : SpecSource → Content
  | .path _ chars parsed => .text chars parsed
  | .text chars parsed => .text chars parsed

/-- The spec's filename: that of the file, or the one given for literal text. -/
def SpecSource.filename (spec : SpecSource) (args : AddArgs) : String :=
  match spec with
  | .path name _ _ => name
  | .text _ _ => args.specFilename

def SpecSource.title (spec : SpecSource) (args : AddArgs) : String :=
  match spec with
  | .path name _ _ => if args.title = "" then pathStem name else args.title
  | .text _ _ => if args.title = "" then "untitled" else args.title

/-- The attempts a new item is given. -/
def AddArgs.resolvedAttempts (args : AddArgs) : ℤ := args.maxAttempts.getD env.config.maxAttempts

/-- The record of a new item. -/
def newItem (mint : MintedId) (spec : SpecSource) (args : AddArgs) : QueueItem :=
  { itemId := mint.itemId
    title := spec.title args
    specFilename := spec.filename args
    state := .queued
    priority := args.priority
    createdAt := env.stamp
    updatedAt := env.stamp
    maxAttempts := args.resolvedAttempts env
    mergeDisposition := args.mergeDisposition
    source := args.source
    sourceRef := args.sourceRef
    targetRepo := args.targetRepo
    projectName := args.projectName
    designAcceptance := args.designAcceptance }

/-- Write the staged files of an item and rename it into `queued/`. -/
def buildAndPublish (item : QueueItem) (content : Content) : QueueProg Unit := do
  write (fun d => d.stageFile item.itemId item.specFilename content) (.os "spec")
  write (fun d => d.stageFile item.itemId metaFilename (.json item.toDict)) (.os "meta.json")
  write (fun d => d.publish item.itemId (.queued, item.itemId)) (.os "rename")

/-- Enqueue a spec. -/
def add (mint : MintedId) (spec : SpecSource) (args : AddArgs) : QueueProg QueueItem := do
  require (PyText.isBlank spec.chars = false) (.refused "refusing to enqueue an empty spec")
  require (isSafeComponent (spec.filename args) = true)
    (.refused ("spec filename must be a plain basename, got " ++
      PyText.repr (spec.filename args)))
  require (1 ≤ args.resolvedAttempts env)
    (.refused ("max_attempts must be >= 1, got " ++ toString (args.resolvedAttempts env)))
  let item := newItem env mint spec args
  let d ← read
  require ((ItemState.queued, item.itemId) ∉ d.dirs)
    (.refused ("queue item " ++ item.itemId ++ " already exists"))
  require (item.itemId ∉ d.staging) (.os "staging directory exists")
  write (fun d => { d with staging := d.staging.insert item.itemId ∅ }) (.os "staging")
  catching (buildAndPublish item spec.content) fun e => do
    writeQuiet fun d => { d with staging := d.staging.erase item.itemId }
    raise e
  journal { ts := env.stamp, itemId := item.itemId, fromState := "",
            toState := ItemState.queued.name, reason := "added", actor := args.actor,
            attempts := item.attempts,
            detail := .obj [("source", .str args.source.name),
              ("source_ref", .str args.sourceRef)] }
  pure item

/-! ## Running -/

/-- Claim a queued item for this worker.  Spends nothing. -/
def lease (item : QueueItem) (pid : ℤ := 0) (host : String := "") (actor : String := "") :
    QueueProg QueueItem :=
  transition env item .leased "leased" actor false (.obj [])
    [.leasePid (if pid = 0 then env.pid else pid),
     .leaseHost (if host = "" then env.hostname else host),
     .leaseExpiresAt (env.fmt.isoformat (env.now + env.config.leaseTtl))]

/-- Begin execution.  This is where the attempt is charged, and where the bound is enforced. -/
def start (item : QueueItem) (runId : String := "") (actor : String := "") :
    QueueProg QueueItem := do
  require (0 < item.attemptsRemaining)
    (.budgetExhausted (item.itemId ++ " has used all " ++ toString item.maxAttempts ++
      " attempts; refusing to start (poison it or reset attempts explicitly)"))
  transition env item .running "started" actor true (.obj []) [.lastRunId runId]

/-- Re-point a held lease at the process that does the work.  The item stays where it is. -/
def adoptLease (item : QueueItem) (pid : ℤ) (host : String := "") (actor : String := "") :
    QueueProg QueueItem := do
  require (item.state = .leased ∨ item.state = .running)
    (.refused ("cannot adopt a lease on " ++ item.itemId ++ " in state " ++ item.state.name))
  let directory ← itemDir item
  let d ← read
  require (directory ∈ d.dirs) (.refused ("queue item " ++ item.itemId ++ " is not at " ++ placeName directory))
  let item := { item with
    leasePid := pid
    leaseHost := if host = "" then env.hostname else host
    leaseExpiresAt := env.fmt.isoformat (env.now + env.config.leaseTtl)
    updatedAt := env.stamp }
  writeMeta item directory
  journal { ts := item.updatedAt, itemId := item.itemId, fromState := item.state.name,
            toState := item.state.name, reason := "lease adopted by the run process",
            actor := actor, attempts := item.attempts, detail := .obj [("lease_pid", .int pid)] }
  pure item

/-- The pull request URLs of the item with those of the run, each once. -/
def unionUrls (item : QueueItem) (prUrls : List String) : List String :=
  (item.prUrls ++ prUrls).eraseDups

/-- The detail of a finish: the URLs, when there are any. -/
def urlsDetail (urls : List String) : Json :=
  if urls = [] then .obj [] else .obj [("pr_urls", .arr (urls.map Json.str))]

/-- A green finish. -/
def finishOk (item : QueueItem) (actor : String := "") (prUrls : List String := []) :
    QueueProg QueueItem :=
  let union := unionUrls item prUrls
  transition env item .done "completed" actor false (urlsDetail union)
    [.lastError "", .prUrls union]

/-- A red finish that may be retried. -/
def finishFailed (item : QueueItem) (error : String := "") (actor : String := "")
    (prUrls : List String := []) : QueueProg QueueItem :=
  let union := unionUrls item prUrls
  transition env item .failed "failed" actor false (urlsDetail union)
    [.lastError error, .prUrls union]

/-- A run that parked work at the merge gate. -/
def awaitApproval (item : QueueItem) (reason runId : String) (actor : String := "")
    (prUrls : List String := []) : QueueProg QueueItem :=
  transition env item .awaitingApproval "awaiting approval" actor false
    (.obj [("reason", .str reason), ("run_id", .str runId)])
    [.prUrls (unionUrls item prUrls), .lastRunId runId]

/-- A run whose architect escalated a question to the owner. -/
def awaitAnswer (item : QueueItem) (reason runId : String) (actor : String := "") :
    QueueProg QueueItem :=
  transition env item .awaitingAnswer "awaiting an answer" actor false
    (.obj [("reason", .str reason), ("run_id", .str runId)]) [.lastRunId runId]

/-! ## Answering -/

/-- The fields a requeue clears. -/
def clearedLease : List Update := [.leasePid 0, .leaseHost "", .leaseExpiresAt ""]

/-- The fields an answer sets. -/
def answerUpdates (resetAttempts : Bool) : List Update :=
  clearedLease ++ [.notBefore "", .poisonReason ""] ++ if resetAttempts then [.attempts 0] else []

/-- Replace an awaiting item's spec with `text` and requeue it.  The spec is written before the
    rename; every check runs before anything is written. -/
def answer (item : QueueItem) (text : String) (parsed : Option Json) (actor : String := "")
    (resetAttempts : Bool := false) (escalationRow escalatedRun : String := "") :
    QueueProg QueueItem := do
  let escalated := item.state = .poison ∧ escalationRow ≠ ""
  require (item.state = .awaitingAnswer ∨ escalated)
    (.refused (item.itemId ++ " is " ++ item.state.name ++ "; only an item awaiting an answer " ++
      "can be answered, or a poisoned item an undecided spec_escalation row names"))
  require (PyText.isBlank text = false)
    (.refused ("the answered spec is empty; " ++ item.itemId ++ " keeps its spec"))
  require (resetAttempts = true ∨ 0 < item.attemptsRemaining)
    (.refused (item.itemId ++ " has used all " ++ toString item.maxAttempts ++
      " attempts; pass --reset-attempts to authorize spending again"))
  let directory ← itemDir item
  require (isSafeComponent item.specFilename = true)
    (.refused ("unsafe spec filename " ++ PyText.repr item.specFilename ++ " on " ++ item.itemId))
  let d ← read
  match (d.dirs.lookup directory).bind fun files => files.lookup item.specFilename with
  | none => raise (.os "spec")
  | some old =>
    let new := Content.text text parsed
    let before := env.sha256 old
    let after := env.sha256 new
    write (fun d => d.putFile directory item.specFilename new) (.os "spec")
    let detail : Json := .obj
      [("spec_sha256_before", .str before), ("spec_sha256_after", .str after),
       ("unchanged", .bool (before = after)),
       ("escalated_run", .str (if escalatedRun = "" then item.lastRunId else escalatedRun)),
       ("escalation_row", .str escalationRow)]
    transition env item .queued "answered" actor false detail (answerUpdates resetAttempts)

/-! ## In-place rewrites -/

/-- Point an awaiting item at the run that parked its next component. -/
def relinkRun (item : QueueItem) (runId reason : String) (actor : String := "") :
    QueueProg QueueItem := do
  require (item.state = .awaitingApproval)
    (.refused ("cannot relink " ++ item.itemId ++ " in state " ++ item.state.name))
  let directory ← itemDir item
  let d ← read
  require (directory ∈ d.dirs) (.refused ("queue item " ++ item.itemId ++ " is not at " ++ placeName directory))
  let item := { item with lastRunId := runId, updatedAt := env.stamp }
  writeMeta item directory
  journal { ts := item.updatedAt, itemId := item.itemId, fromState := item.state.name,
            toState := item.state.name, reason := "parked again", actor := actor,
            attempts := item.attempts,
            detail := .obj [("run_id", .str runId), ("reason", .str reason)] }
  pure item

/-- Change a queued item's priority.  It takes an id: the item is read again here. -/
def setPriority (itemId : String) (priority : ℤ) (actor : String) : QueueProg (QueueItem × ℤ) := do
  let d ← read
  match Queue.get d itemId with
  | .error e => raise e
  | .ok none => raise (.refused (itemId ++ " is no longer in the queue; nothing changed"))
  | .ok (some item) =>
    require (item.itemId = itemId)
      (.refused (itemId ++ " is no longer in the queue; nothing changed"))
    require (item.state = .queued)
      (.refused (itemId ++ " is " ++ item.state.name ++
        "; only a queued item's priority can change, so nothing changed"))
    let old := item.priority
    if old = priority then pure (item, old)
    else do
      let item := { item with priority := priority, updatedAt := env.stamp }
      let directory ← itemDir item
      writeMeta item directory
      journal { ts := item.updatedAt, itemId := item.itemId, fromState := item.state.name,
                toState := item.state.name,
                reason := "priority " ++ toString old ++ " -> " ++ toString priority,
                actor := actor, attempts := item.attempts,
                detail := .obj [("priority_from", .int old), ("priority_to", .int priority)] }
      pure (item, old)

/-! ## Leaving the loop -/

/-- Park an item that must never be retried automatically. -/
def poison (item : QueueItem) (reason : String) (actor : String := "") : QueueProg QueueItem := do
  require (PyText.isBlank reason = false) (.refused "poison requires a reason")
  transition env item .poison "poisoned" actor false (.obj []) [.poisonReason reason]

/-- The fields a requeue sets.  A human who authorizes a fresh run does not wait out a backoff. -/
def requeueUpdates (resetAttempts : Bool) (notBefore : Option String) : List Update :=
  clearedLease ++ (notBefore.elim [] fun moment => [.notBefore moment]) ++
    if resetAttempts then [.attempts 0, .poisonReason "", .notBefore ""] else []

/-- Send an item back to `queued/`.  `resetAttempts` is for an explicit human retry only. -/
def requeue (item : QueueItem) (reason : String := "requeued") (actor : String := "")
    (resetAttempts : Bool := false) (notBefore : Option String := none) : QueueProg QueueItem :=
  transition env item .queued reason actor false (.obj []) (requeueUpdates resetAttempts notBefore)

/-- `shutil.rmtree` of an item directory: its files one by one, in the order `order` gives, then
    the directory. -/
def rmtree (place : Place) (files : Files) (order : List String) : QueueProg Unit := do
  let names := order.filter (· ∈ files) ++ files.keys.filter (· ∉ order)
  names.foldlM (fun _ name =>
    write (fun d => { d with
      dirs := d.dirs.insert place (((d.dirs.lookup place).getD ∅).erase name) }) (.os name)) ()
  write (fun d => { d with dirs := d.dirs.erase place }) (.os "rmdir")

/-- Delete an item outright.  Refused while it runs. -/
def remove (item : QueueItem) (order : List String := []) (actor : String := "") :
    QueueProg Unit := do
  require (item.state ≠ .running)
    (.refused (item.itemId ++ " is running; stop the run before removing it"))
  let directory ← itemDir item
  let d ← read
  match d.dirs.lookup directory with
  | none => raise (.os "no such directory")
  | some files =>
    rmtree directory files order
    journal { ts := env.stamp, itemId := item.itemId, fromState := item.state.name,
              toState := "removed", reason := "removed", actor := actor,
              attempts := item.attempts }

end Queue

end Kstrl
