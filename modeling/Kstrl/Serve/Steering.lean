import Kstrl.Base.CrashRuns
import Kstrl.Base.TextLines
import Kstrl.Serve.Intake

/-!
# Steering commands

What an allowed actor writes as a comment on a pull request, and what one poll makes of it
(`kstrl/serve/intake_steering.py`, with the memory file of `kstrl/project/operator_guidance.py`).

A `/memory` appends a line to the memory file, an `/iterate` appends its text, if it has one, and then
enqueues the item of the pull request again.  The entry in the ledger comes after both, and the
acknowledgement after the entry.

* **`actOnOne_cases`**: what one comment of a poll comes to, and what it leaves of the ledger.
* **`computeWatermarks_spec`**: a cursor that is moved is a stamp that was seen, and below every comment
  that is still open.
-/

namespace Kstrl

open CrashProg TextLines

namespace Serve

/-! ## Comments -/

/-- A `/memory` or `/iterate` comment on an open pull request. -/
structure SteerCommand where
  prNumber : ℤ
  prUrl : String
  commentId : ℤ
  login : String
  association : String
  command : String
  text : String
  updatedAt : String
  deriving DecidableEq, Repr

/-- The key of a comment in the ledger. -/
def commentKey (repo : String) (number id : ℤ) : String :=
  "pr-comment:" ++ repo ++ "#" ++ toString number ++ ":" ++ toString id

def SteerCommand.ledgerKey (cmd : SteerCommand) (repo : String) : String :=
  commentKey repo cmd.prNumber cmd.commentId

def steerMemory : String := "/memory"

def steerIterate : String := "/iterate"

def steerAssociations : List String := ["COLLABORATOR", "MEMBER", "OWNER"]

/-- Whether one raw row is a comment that can be acted on. -/
def isCommentRecord (row : Json) : Bool :=
  (match row with | .obj _ => true | _ => false) &&
  (match row.get? "id" with | some (.int _) => true | _ => false) &&
  (match row.get? "body" with | some (.str _) => true | _ => false) &&
  (match row.get? "author_association" with | some (.str _) => true | _ => false) &&
  (match row.get? "updated_at" with | some (.str _) => true | _ => false) &&
  (match row.get? "user" with | some (.obj _) | some .null | none => true | _ => false)

/-- `text.split(None, 1)` -/
def splitOnce (text : String) : List String :=
  let chars := text.toList.dropWhile PyText.isSpace
  let token := chars.takeWhile fun c => !PyText.isSpace c
  let rest := (chars.drop token.length).dropWhile PyText.isSpace
  if token = [] then [] else if rest = [] then [String.ofList token]
  else [String.ofList token, String.ofList rest]

/-- `updated_at` of a row. -/
def updatedAt (row : Json) : String := row.asStr "updated_at"

/-- A row as a command; `none` for ordinary prose. -/
def parseCommand (letters : Letters) (row : Json) (number : ℤ) (url : String) : Option SteerCommand :=
  match splitOnce (PyText.strip (row.asStr "body")) with
  | [] => none
  | token :: rest =>
      if token ≠ steerMemory ∧ token ≠ steerIterate then none
      else some
        { prNumber := number
          prUrl := url
          commentId := row.asInt "id" 0
          login := (row.field "user").asStr "login"
          association := letters.upper (PyText.strip (row.asStr "author_association"))
          command := token
          text := match rest with
            | [] => ""
            | text :: _ => PyText.strip text
          updatedAt := updatedAt row }

/-- The page of a pull request. -/
def prUrlOf (repo : String) (number : ℤ) : String :=
  "https://github.com/" ++ repo ++ "/pull/" ++ toString number

/-- What `gh api` comes back with. -/
inductive Answer where
  | failed (error : String)
  | unparseable (exc : String)
  | value (data : Json)

/-- The commands of the rows, and the stamps of all of them. -/
def readRows (letters : Letters) (repo : String) (number : ℤ) :
    List Json → ℕ → Except String (List SteerCommand × List String)
  | [], _ => .ok ([], [])
  | row :: rows, index =>
      if isCommentRecord row = false then
        .error ("comment row " ++ toString index ++ " on PR #" ++ toString number ++
          " is not a comment record: " ++ String.ofList (row.pyRepr.toList.take 120))
      else match readRows letters repo number rows (index + 1) with
        | .error e => .error e
        | .ok (commands, seen) =>
            .ok ((parseCommand letters row number (prUrlOf repo number)).toList ++ commands,
              updatedAt row :: seen)

/-- The commands on one pull request and the stamp of every comment, or an error. -/
def prSteeringCommands (letters : Letters) (repo : String) (number : ℤ) :
    Answer → Except String (List SteerCommand × List String)
  | .failed error => .error ("could not read comments on PR #" ++ toString number ++ ": " ++ error)
  | .unparseable exc => .error ("comments on PR #" ++ toString number ++ " were unparseable: " ++ exc)
  | .value (.arr rows) => readRows letters repo number rows 0
  | .value data => .error ("comments on PR #" ++ toString number ++ " returned " ++ data.typeName ++
      ", expected a list")

/-- Why a comment may not steer, or the empty text. -/
def steerRefusal (letters : Letters) (config : GitHubIntakeConfig) (cmd : SteerCommand) : String :=
  if cmd.login = "" then
    "comment " ++ toString cmd.commentId ++ " has no author login, so it cannot be authorised"
  else if config.allowedActors ≠ [] then
    if actorAllowed letters config cmd.login then ""
    else "@" ++ cmd.login ++ " is not in [intake_github] allowed_actors (" ++
      String.intercalate ", " config.allowedActors ++ ")"
  else if cmd.association ∉ steerAssociations then
    "@" ++ cmd.login ++ " has author_association " ++
      (if cmd.association = "" then "NONE" else cmd.association) ++ ", not one of " ++
      String.intercalate ", " steerAssociations
  else ""

/-! ## The memory file -/

def guidanceHeading : String := "## Guidance"

def maxMemoryChars : ℕ := 500

/-- Why a text may not be appended, or the empty text. -/
def memoryTextRefusal (text : String) : String :=
  if text = "" then "the command carried no text"
  else if maxMemoryChars < text.toList.length then
    "the text is " ++ toString text.toList.length ++ " characters, over the " ++
      toString maxMemoryChars ++ " character limit"
  else if (splitlines text.toList).any fun line => (line.dropWhile PyText.isSpace).head? = some '#' then
    "the text has a line starting with `#`, which would restructure the file"
  else ""

/-- The last line equal to `heading` and the end of its section. -/
def headingSpan (lines : List String) (heading : String) : Option (ℕ × ℕ) :=
  match (lines.zipIdx.filter fun e => PyText.rstrip e.1 = heading).getLast? with
  | none => none
  | some (_, start) =>
      let body := (lines.drop (start + 1)).takeWhile fun line => !"## ".toList.isPrefixOf line.toList
      some (start, start + 1 + body.length)

/-- `body` with `record` at the end of its guidance section. -/
def insertUnderGuidance (body record : String) : String :=
  let lines := (body.toList.splitOn '\n').map String.ofList
  match headingSpan lines guidanceHeading with
  | none =>
      (if body.toList.getLast? = some '\n' then body else body ++ "\n") ++ "\n" ++ guidanceHeading ++
        "\n" ++ record ++ "\n"
  | some (heading, stop) =>
      let inside := (lines.take stop).drop (heading + 1)
      let kept := (inside.reverse.dropWhile fun line => PyText.isBlank line).reverse
      let place := heading + 1 + kept.length
      let joined := String.intercalate "\n" (lines.take place ++ record :: lines.drop place)
      if joined.toList.getLast? = some '\n' then joined else joined ++ "\n"

/-! ## What a command does -/

/-- What one command did.  A text in `error` means that the next poll tries again. -/
structure SteerOutcome where
  comment : String := ""
  itemId : String := ""
  error : String := ""

/-- What one poll did. -/
structure SteerResult where
  repo : String := ""
  applied : List String := []
  enqueued : List String := []
  skipped : List (String × String) := []
  errors : List String := []

/-- What the handlers of one poll need. -/
structure SteerContext where
  config : GitHubIntakeConfig
  repo : String
  /-- `_utc_now_iso()` when the context was built -/
  stamp : String
  /-- the memory file, as a message names it -/
  display : String
  /-- `DEFAULT_MEMORY` -/
  defaultMemory : String

/-- What the outside is when one command is run. -/
structure SteerTurn where
  env : Env
  mint : MintedId
  /-- `_utc_now_iso()[:10]` -/
  today : String
  /-- the text of a spec file, or why it cannot be read -/
  readText : Content → Except String String
  /-- `gh pr comment`: the error, or the empty text -/
  post : ℤ → String → String

def guidanceRecord (turn : SteerTurn) (cmd : SteerCommand) : String :=
  "- " ++ cmd.text ++ " (from PR #" ++ toString cmd.prNumber ++ " by @" ++ cmd.login ++ ", " ++
    turn.today ++ ")"

def recordedComment (ctx : SteerContext) (cmd : SteerCommand) : String :=
  "Recorded to " ++ ctx.display ++ ": \"" ++ cmd.text ++ "\". Commit it to keep it."

/-- The checkout with a line more in the memory file. -/
def Checkout.withMemory (s : Checkout) (effect : Effect) (chars : String) : Checkout :=
  { s with memory := .text chars, effects := s.effects ++ [effect] }

/-- The text of an error that is an `OSError`, a `ValueError` or a `QueueError`. -/
def IntakeError.caught : IntakeError → Option String
  | .queue (.refused msg) | .queue (.budgetExhausted msg) | .queue (.os msg) | .os msg => some msg
  | .queue .overflow | .runtime _ => none

/-- Append `record`; the empty text, or an error that may be tried again. -/
def appendGuidanceRecord (ctx : SteerContext) (effect : Effect) (record : String) : IntakeProg String := do
  let s ← read
  match s.memory with
  | .unreadable exc => pure ("could not read " ++ ctx.display ++ ": " ++ exc)
  | .missing => append ctx.defaultMemory
  | .text body => append body
where
  append (body : String) : IntakeProg String :=
    catching (do
      write (fun s => s.withMemory effect (insertUnderGuidance body record)) (.os "memory")
      pure "") fun e => match e.caught with
        | some msg => pure ("could not write " ++ ctx.display ++ ": " ++ msg)
        | none => raise e

/-- Validate the text and append it.  The flag tells that it was appended. -/
def recordMemory (ctx : SteerContext) (turn : SteerTurn) (cmd : SteerCommand) (refusalPrefix : String) :
    IntakeProg (SteerOutcome × Bool) :=
  let refusal := memoryTextRefusal cmd.text
  if refusal ≠ "" then pure ({ comment := refusalPrefix ++ refusal }, false)
  else do
    let error ← appendGuidanceRecord ctx (.appended cmd.prNumber cmd.commentId) (guidanceRecord turn cmd)
    if error ≠ "" then pure ({ error := error }, false)
    else pure ({ comment := recordedComment ctx cmd }, true)

def memoryOutcome (ctx : SteerContext) (turn : SteerTurn) (cmd : SteerCommand) : IntakeProg SteerOutcome := do
  let (outcome, _) ← recordMemory ctx turn cmd "Not recorded: "
  pure outcome

/-- `text.strip().rstrip("/").casefold()` -/
def prKey (letters : Letters) (text : String) : String :=
  letters.casefold (String.ofList ((PyText.strip text).toList.reverse.dropWhile (· = '/')).reverse)

/-- Whether a recorded address is that of the pull request. -/
def samePr (letters : Letters) (recorded url : String) : Bool := prKey letters recorded = prKey letters url

/-- The item whose run produced the pull request, in any state. -/
def itemForPr (letters : Letters) (d : Disk) (url : String) : Option QueueItem :=
  (items d).find? fun item => item.prUrls.any fun recorded => samePr letters recorded url

/-- The text of the item's spec file. -/
def readSpec (turn : SteerTurn) (item : QueueItem) : QueueProg Queue.SpecSource := do
  let place ← Queue.itemDir item
  require (isSafeComponent item.specFilename = true)
    (.refused ("unsafe spec filename " ++ PyText.repr item.specFilename ++ " on " ++ item.itemId))
  let d ← read
  match (d.dirs.lookup place).bind fun files => files.lookup item.specFilename with
  | none => raise (.os (placeText place item))
  | some content =>
      match turn.readText content with
      | .error exc => raise (.os exc)
      | .ok chars => pure (.text chars content.readJson)
where
  placeText (place : Place) (item : QueueItem) : String :=
    Queue.placeName place ++ "/" ++ item.specFilename

/-- The arguments of a re-run. -/
def requeueArgs (original : QueueItem) (cmd : SteerCommand) : Queue.AddArgs where
  title := original.title
  priority := original.priority
  mergeDisposition := .stopAtPr
  source := .local
  sourceRef := (if original.sourceRef = "" then original.itemId else original.sourceRef) ++ "#iterate-" ++
    toString cmd.commentId
  targetRepo := original.targetRepo
  projectName := original.projectName
  maxAttempts := some original.maxAttempts
  specFilename := original.specFilename
  designAcceptance := original.designAcceptance
  actor := "steer"

/-- Enqueue a re-run of `original`. -/
def requeue (turn : SteerTurn) (original : QueueItem) (cmd : SteerCommand) : QueueProg QueueItem := do
  let spec ← readSpec turn original
  Queue.add turn.env turn.mint spec (requeueArgs original cmd)

/-- The text first, then the re-run. -/
def iterateOutcome (letters : Letters) (ctx : SteerContext) (turn : SteerTurn) (cmd : SteerCommand) :
    IntakeProg SteerOutcome :=
  if cmd.text = "" then again []
  else do
    let (outcome, ok) ← recordMemory ctx turn cmd "Not recorded and not queued: "
    if ok then again [outcome.comment] else pure outcome
where
  again (lines : List String) : IntakeProg SteerOutcome := do
    let s ← read
    match itemForPr letters s.queue cmd.prUrl with
    | none =>
        pure { comment := String.intercalate "\n"
                (lines ++ ["Cannot iterate: no queue item recorded this PR"]) }
    | some original =>
        catching (do
          let item ← onQueue (.requeued cmd.prNumber cmd.commentId) (requeue turn original cmd)
          pure { itemId := item.itemId, comment := String.intercalate "\n"
                  (lines ++ ["Queued a re-run as " ++ item.itemId ++
                    "; it starts once this PR is merged or closed (open-PR bound)."]) })
          fun e => match e.caught with
            | some msg => pure { error := "could not re-queue " ++ original.itemId ++ ": " ++ msg }
            | none => raise e

def runCommand (letters : Letters) (ctx : SteerContext) (turn : SteerTurn) (cmd : SteerCommand) :
    IntakeProg SteerOutcome :=
  if cmd.command = steerMemory then memoryOutcome ctx turn cmd
  else if cmd.command = steerIterate then iterateOutcome letters ctx turn cmd
  else raise (.runtime ("no steering handler registered for " ++ PyText.repr cmd.command ++
    "; refusing rather than silently falling through to /iterate, which would re-queue work"))

/-- Acknowledge on the pull request. -/
def postPrComment (turn : SteerTurn) (number : ℤ) (body : String) : String :=
  if body = "" then "" else turn.post number body

/-- Run a command, record it, acknowledge it.  The flag tells that it was recorded. -/
def applyOne (letters : Letters) (ctx : SteerContext) (turn : SteerTurn) (ledger : ProcessedLedger)
    (cmd : SteerCommand) (result : SteerResult) : IntakeProg (Bool × ProcessedLedger × SteerResult) := do
  let outcome ← runCommand letters ctx turn cmd
  let key := cmd.ledgerKey result.repo
  if outcome.error ≠ "" then pure (false, ledger, { result with errors := result.errors ++ [outcome.error] })
  else do
    let ledger ← ledger.record key outcome.itemId ctx.stamp
    let postError := postPrComment turn cmd.prNumber outcome.comment
    pure (true, ledger, { result with
      applied := result.applied ++ [key]
      enqueued := result.enqueued ++ if outcome.itemId = "" then [] else [outcome.itemId]
      errors := result.errors ++ if postError = "" then [] else [postError] })

/-- What one comment came to: whether it is resolved (`none`: it was already), and whether it counts
    against the cap. -/
structure Turned where
  resolved : Option Bool
  consumedCap : Bool
  ledger : ProcessedLedger
  result : SteerResult

/-- One command through the gate: seen, authorised, capped, dry run, act. -/
def actOnOne (letters : Letters) (ctx : SteerContext) (turn : SteerTurn) (ledger : ProcessedLedger)
    (cmd : SteerCommand) (result : SteerResult) (acted : ℤ) : IntakeProg Turned :=
  let key := cmd.ledgerKey result.repo
  let reason := steerRefusal letters ctx.config cmd
  let skipped (reason : String) := { result with skipped := Keyed.set key reason result.skipped }
  if ledger.contains key then pure ⟨none, false, ledger, result⟩
  else if reason ≠ "" then pure ⟨some true, false, ledger, skipped reason⟩
  else if ctx.config.maxItemsPerSync ≤ acted then
    pure ⟨some false, false, ledger, skipped "the per-cycle cap is full; it waits for the next cycle"⟩
  else if ctx.config.dryRun then
    pure ⟨some false, true, ledger, skipped ("dry run: would apply " ++ cmd.command ++ " from comment " ++
      toString cmd.commentId)⟩
  else do
    let (resolved, ledger, result) ← applyOne letters ctx turn ledger cmd result
    pure ⟨some resolved, true, ledger, result⟩

/-- The cursor each pull request has earned. -/
def computeWatermarks (seenByPr unresolvedByPr : List (ℤ × List String)) : List (ℤ × String) :=
  seenByPr.filterMap fun e =>
    let eligible := match ((unresolvedByPr.lookup e.1).getD []).min? with
      | none => e.2
      | some floor => e.2.filter fun stamp => stamp < floor
    eligible.max?.map fun stamp => (e.1, stamp)

/-! ## What is read -/

/-- A poll whose rows were all comments. -/
lemma readRows_ok {letters : Letters} {repo : String} {number : ℤ} {rows : List Json} {index : ℕ}
    {commands : List SteerCommand} {seen : List String}
    (h : readRows letters repo number rows index = .ok (commands, seen)) :
    commands = rows.filterMap (fun row => parseCommand letters row number (prUrlOf repo number)) ∧
      seen = rows.map updatedAt := by
  induction rows generalizing index commands seen with
  | nil =>
      cases h
      exact ⟨rfl, rfl⟩
  | cons row rows ih =>
      rw [readRows] at h
      split_ifs at h
      split at h
      · simp only [reduceCtorEq] at h
      next commands' seen' hrest =>
        obtain ⟨rfl, rfl⟩ := Prod.mk.inj (Except.ok.inj h)
        obtain ⟨rfl, rfl⟩ := ih hrest
        refine ⟨?_, rfl⟩
        rw [List.filterMap_cons]
        cases parseCommand letters row number (prUrlOf repo number) <;> rfl

lemma parseCommand_place {letters : Letters} {row : Json} {number : ℤ} {url : String} {cmd : SteerCommand}
    (h : parseCommand letters row number url = some cmd) :
    cmd.prNumber = number ∧ cmd.updatedAt = updatedAt row := by
  unfold parseCommand at h
  split at h
  · cases h
  · split_ifs at h
    cases h
    exact ⟨rfl, rfl⟩

/-! ## The cursors -/

/-- **What a cursor is moved to**: a stamp that was seen, below every comment that is still open. -/
theorem computeWatermarks_spec {seen unresolved : List (ℤ × List String)} {number : ℤ} {value : String}
    (h : (number, value) ∈ computeWatermarks seen unresolved) :
    ∃ stamps, (number, stamps) ∈ seen ∧ value ∈ stamps ∧
      ∀ stamp ∈ (unresolved.lookup number).getD [], value < stamp := by
  obtain ⟨⟨n, stamps⟩, hmem, heq⟩ := List.mem_filterMap.mp h
  obtain ⟨top, htop, htup⟩ := Option.map_eq_some_iff.mp heq
  obtain ⟨rfl, rfl⟩ := Prod.mk.inj htup
  refine ⟨stamps, hmem, ?_⟩
  have hin := List.max?_mem htop
  split at hin
  next hnone =>
    rw [List.min?_eq_none_iff.mp hnone]
    exact ⟨hin, fun _ h => (List.not_mem_nil h).elim⟩
  next floor hfloor =>
    obtain ⟨hstamp, hlt⟩ := List.mem_filter.mp hin
    refine ⟨hstamp, fun stamp hs => lt_of_lt_of_le (of_decide_eq_true hlt) ?_⟩
    exact (List.min?_eq_some_iff.mp hfloor).2 stamp hs

/-- The key of a pull request's cursor. -/
def cursorKey (repo : String) (number : ℤ) : String := repo ++ "#" ++ toString number

lemma cursorKey_injective {repo : String} {m n : ℤ} (h : cursorKey repo m = cursorKey repo n) : m = n :=
  PyText.intText_injective ((String.append_right_inj _).mp h)

/-- **One cursor**: it does not move, it is moved and written, or the poll ends here. -/
lemma setWatermark_run (ledger : ProcessedLedger) (key value : String) (fs : List CrashProg.Fault) (s : Checkout) :
    ledger.setWatermark key value fs s = (.done ledger, fs, s) ∨
      (∃ ledger', ledger.withWatermark key value = some ledger' ∧
        ledger.setWatermark key value fs s = (.done ledger', fs.tail, s.withLedger ledger')) ∨
      ((ledger.setWatermark key value fs s).2.2 = s ∧ ∀ l, (ledger.setWatermark key value fs s).1 ≠ .done l) := by
  unfold ProcessedLedger.setWatermark
  cases hmove : ledger.withWatermark key value with
  | none => exact Or.inl rfl
  | some ledger' =>
      dsimp only
      rw [ProcessedLedger.save]
      cases hthrough : through 1 fs with
      | true => exact Or.inr (Or.inl ⟨ledger', rfl, run_bind_done (run_write _ _ hthrough)⟩)
      | false =>
          refine Or.inr (Or.inr ?_)
          rcases run_write_bind_stopped _ _ _ hthrough with h | h <;> rw [h] <;> exact ⟨rfl, fun l hl => nomatch hl⟩

/-! ## What one comment comes to -/

section Ledger

variable {letters : Letters} {ctx : SteerContext} {turn : SteerTurn} {file : Option Json}

/-- No command touches the ledger. -/
def KeepsLedger (file : Option Json) {α : Type} (c : IntakeProg α) : Prop :=
  Triple (fun s => s.ledgerFile = file) c (fun _ s => s.ledgerFile = file) (fun _ s => s.ledgerFile = file)
    fun s => s.ledgerFile = file

lemma KeepsLedger.pure {α : Type} (a : α) : KeepsLedger file (Pure.pure a : IntakeProg α) :=
  Triple.pure fun _ h => h

lemma KeepsLedger.raise {α : Type} (e : IntakeError) : KeepsLedger file (CrashProg.raise e : IntakeProg α) :=
  Triple.raise fun _ h => h

lemma KeepsLedger.bind {α β : Type} {c : IntakeProg α} {k : α → IntakeProg β} (hc : KeepsLedger file c)
    (hk : ∀ a, KeepsLedger file (k a)) : KeepsLedger file (c >>= k) :=
  Triple.bind hc hk

lemma KeepsLedger.read_bind {β : Type} {k : Checkout → IntakeProg β} (hk : ∀ s, KeepsLedger file (k s)) :
    KeepsLedger file (CrashProg.read >>= k) :=
  KeepsLedger.bind (Triple.read fun _ h => h) hk

lemma KeepsLedger.catching {α : Type} {c : IntakeProg α} {h : IntakeError → IntakeProg α}
    (hc : KeepsLedger file c) (hh : ∀ e, KeepsLedger file (h e)) : KeepsLedger file (CrashProg.catching c h) :=
  Triple.catching hc hh

lemma KeepsLedger.onQueue {α : Type} (effect : Effect) (c : QueueProg α) :
    KeepsLedger file (Serve.onQueue effect c) := by
  intro fs s hs
  unfold Serve.onQueue
  rcases c fs s.queue with ⟨_ | _ | _, fs', d⟩ <;> exact hs

lemma KeepsLedger.ite {α : Type} {p : Prop} [Decidable p] {c d : IntakeProg α} (hc : KeepsLedger file c)
    (hd : KeepsLedger file d) : KeepsLedger file (if p then c else d) :=
  Triple.ite (fun _ => hc) fun _ => hd

lemma keepsLedger_appendGuidanceRecord (effect : Effect) (record : String) :
    KeepsLedger file (appendGuidanceRecord ctx effect record) := by
  have happend : ∀ body, KeepsLedger file (appendGuidanceRecord.append ctx effect record body) := by
    intro body
    refine KeepsLedger.catching (KeepsLedger.bind ?_ fun _ => .pure _) fun e => ?_
    · exact Triple.write (fun _ h => h) (fun _ h => h) fun _ h => h
    · split
      · exact .pure _
      · exact .raise _
  refine KeepsLedger.read_bind fun s => ?_
  cases s.memory with
  | missing => exact happend _
  | unreadable => exact .pure _
  | text => exact happend _

lemma keepsLedger_recordMemory (cmd : SteerCommand) (refusalPrefix : String) :
    KeepsLedger file (recordMemory ctx turn cmd refusalPrefix) := by
  unfold recordMemory
  refine KeepsLedger.ite (.pure _) ?_
  refine KeepsLedger.bind (keepsLedger_appendGuidanceRecord _ _) fun error => ?_
  exact .ite (.pure _) (.pure _)

lemma keepsLedger_again (cmd : SteerCommand) (lines : List String) :
    KeepsLedger file (iterateOutcome.again letters turn cmd lines) := by
  refine KeepsLedger.read_bind fun s => ?_
  cases itemForPr letters s.queue cmd.prUrl with
  | none => exact .pure _
  | some original =>
      refine KeepsLedger.catching (KeepsLedger.bind (.onQueue _ _) fun _ => .pure _) fun e => ?_
      split
      · exact .pure _
      · exact .raise _

/-- **No command touches the ledger.** -/
theorem keepsLedger_runCommand (cmd : SteerCommand) : KeepsLedger file (runCommand letters ctx turn cmd) := by
  unfold runCommand
  refine KeepsLedger.ite ?_ (.ite ?_ (.raise _))
  · exact KeepsLedger.bind (keepsLedger_recordMemory _ _) fun _ => .pure _
  · unfold iterateOutcome
    refine .ite (keepsLedger_again _ _) ?_
    refine KeepsLedger.bind (keepsLedger_recordMemory _ _) fun r => ?_
    exact .ite (keepsLedger_again _ _) (.pure _)

/-- How a comment of a poll was dealt with, and what that leaves of the ledger. -/
inductive OneCases (letters : Letters) (ctx : SteerContext) (ledger : ProcessedLedger) (cmd : SteerCommand)
    (result : SteerResult) (file : Option Json) (exit : Exit IntakeError Turned) (file' : Option Json) : Prop where
  /-- it was in the ledger -/
  | seen (known : ledger.contains (cmd.ledgerKey result.repo) = true) (same : file' = file)
      (done : ∃ r, exit = .done ⟨none, false, ledger, r⟩ ∧ r.repo = result.repo)
  /-- its author may not steer -/
  | refused (reason : steerRefusal letters ctx.config cmd ≠ "") (same : file' = file)
      (done : ∃ r, exit = .done ⟨some true, false, ledger, r⟩ ∧ r.repo = result.repo)
  /-- it waits: the cap is full, or it is a dry run, or it failed -/
  | waits (same : file' = file)
      (done : ∃ cap r, exit = .done ⟨some false, cap, ledger, r⟩ ∧ r.repo = result.repo)
  /-- it was run and entered -/
  | entered (itemId : String)
      (written : file' = some (ledger.withEntry (cmd.ledgerKey result.repo) itemId ctx.stamp).toJson)
      (done : ∃ r, exit = .done ⟨some true, true,
        ledger.withEntry (cmd.ledgerKey result.repo) itemId ctx.stamp, r⟩ ∧ r.repo = result.repo)
  /-- the poll ends here, by an error or a crash -/
  | ended (same : file' = file) (stopped : ∀ t, exit ≠ .done t)

/-- **What one comment of a poll comes to.** -/
theorem actOnOne_cases (ledger : ProcessedLedger) (cmd : SteerCommand) (result : SteerResult) (acted : ℤ)
    (fs : List CrashProg.Fault) (s : Checkout) :
    OneCases letters ctx ledger cmd result s.ledgerFile
      (actOnOne letters ctx turn ledger cmd result acted fs s).1
      (actOnOne letters ctx turn ledger cmd result acted fs s).2.2.ledgerFile := by
  unfold actOnOne
  dsimp only
  split_ifs with hseen hreason hcap hdry
  · exact .seen hseen rfl ⟨_, rfl, rfl⟩
  · exact .refused hreason rfl ⟨_, rfl, rfl⟩
  · exact .waits rfl ⟨_, _, rfl, rfl⟩
  · exact .waits rfl ⟨_, _, rfl, rfl⟩
  have hkept := @keepsLedger_runCommand letters ctx turn s.ledgerFile cmd fs s rfl
  rcases hrun : runCommand letters ctx turn cmd fs s with ⟨outcome | e | _, fs', t⟩
  · rw [hrun] at hkept
    rw [applyOne, bind_bind, run_bind_done hrun]
    dsimp only
    by_cases herror : outcome.error ≠ ""
    · rw [if_pos herror]
      exact .waits hkept ⟨_, _, rfl, rfl⟩
    · rw [if_neg herror, ProcessedLedger.record, ProcessedLedger.save, bind_bind, bind_bind]
      cases hthrough : through 1 fs' with
      | true =>
          rw [run_bind_done (run_write _ _ hthrough)]
          exact .entered outcome.itemId rfl ⟨_, rfl, rfl⟩
      | false =>
          rcases run_write_bind_stopped _ _ _ hthrough with h | h <;> rw [h] <;>
            exact .ended hkept fun t => by simp
  · rw [hrun] at hkept
    rw [applyOne, bind_bind, run_bind_raised hrun]
    exact .ended hkept fun t => by simp
  · rw [hrun] at hkept
    rw [applyOne, bind_bind, run_bind_crashed hrun]
    exact .ended hkept fun t => by simp

end Ledger
end Serve

end Kstrl
