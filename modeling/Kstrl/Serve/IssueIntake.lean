import Kstrl.Serve.SteeringEffects

/-!
# Issues, and which of them are taken in

The issue intake of `kstrl/serve/intake_github.py` with the rules of `kstrl/serve/intake_issue.py`: the list
of issues, the labelling that authorizes one, the plan of a sync and its commit.

A plan decides over the issues one after the other, and its cap counts what it admits.  The commit publishes an
item first and enters its issue in the ledger after it; where the entry cannot be written, the item is removed
again.  The ledger that the process holds has the entry by then.

* **`planSync_admitted`**: a plan admits the first of the issues that may be admitted, up to the cap.
* **`commitAdmissions_entered`**: which issues the ledger has after a commit.  An issue whose entry failed is
  among them exactly if a later one of the same commit was entered.
-/

namespace Kstrl

open CrashProg

namespace Serve.Issues

/-! ## Issues -/

/-- One issue, as the adapter sees it. -/
structure RemoteIssue where
  number : ℤ
  title : String
  body : String
  url : String := ""
  labels : List String := []
  deriving DecidableEq, Repr

/-- `owner/name#123` -/
def RemoteIssue.sourceRef (issue : RemoteIssue) (repo : String) : String := repo ++ "#" ++ toString issue.number

/-- `str(entry.get(key) or default)` -/
def textOr (entry : Json) (key default : String) : String :=
  if (entry.field key).truthy then (entry.field key).pyStr else default

/-- The names of an entry's labels. -/
def labelNames (entry : Json) : List String :=
  (entry.arrOf "labels").filterMap fun item => match item.get? "name" with
    | some (.str name) => some name
    | _ => none

/-- One entry of the list; `none` for one that is no issue. -/
def readIssue (entry : Json) : Option RemoteIssue :=
  match entry.get? "number" with
  | some (.int number) => some
      { number := number
        title := textOr entry "title" ("issue #" ++ toString number)
        body := textOr entry "body" ""
        url := textOr entry "url" ""
        labels := labelNames entry }
  | _ => none

/-- The issues of `gh issue list`, the oldest first, or an error. -/
def parseIssueList : Answer → Except String (List RemoteIssue)
  | .failed error => .error error
  | .unparseable exc => .error ("could not parse `gh issue list` output: " ++ exc)
  | .value (.arr entries) => .ok ((entries.filterMap readIssue).insertionSort fun a b => a.number ≤ b.number)
  | .value data => .error ("`gh issue list` returned " ++ data.typeName ++ ", expected a list")

def pollPageSize : ℤ := 30

def maxPollPages : ℕ := 4

def maxPollLimit : ℤ := 200

/-- The rungs below the last one, at most `rungs` of them. -/
def lowerRungs : ℕ → ℤ → List ℤ
  | 0, _ => []
  | rungs + 1, limit => if limit < maxPollLimit then limit :: lowerRungs rungs (min (limit * 2) maxPollLimit) else []

/-- The page sizes to try, the smallest first. -/
def pollLadder (config : GitHubIntakeConfig) : List ℤ :=
  lowerRungs (maxPollPages - 1) (max pollPageSize config.maxItemsPerSync) ++ [maxPollLimit]

/-! ## Which repository -/

/-- Whether a text has exactly one `/`. -/
def isRepoName (name : String) : Bool := name.toList.count '/' = 1

/-- `nameWithOwner` of `gh repo view`, or the error of the call, told by `failed` and `unparseable`. -/
def viewedRepo (failed unparseable : String) : Answer → Except String String
  | .failed error => .error (failed ++ error)
  | .unparseable exc => .error (unparseable ++ exc)
  | .value data =>
      match data.get? "nameWithOwner" with
      | some (.str name) =>
          if isRepoName name then .ok name else .error "`gh repo view` returned no usable nameWithOwner"
      | _ => .error "`gh repo view` returned no usable nameWithOwner"

def resolveRepo (config : GitHubIntakeConfig) (answer : Answer) : Except String String :=
  if config.repo ≠ "" then .ok config.repo
  else viewedRepo "could not resolve the repo from the checkout: " "could not parse `gh repo view` output: " answer

def checkoutRepo (answer : Answer) : Except String String :=
  viewedRepo "could not resolve the checkout's repo: " "could not parse the checkout's repo: " answer

/-- The inbox repository, which has to be the one of the checkout. -/
def resolveSyncRepos (letters : Letters) (config : GitHubIntakeConfig) (inbox checkout : Answer) :
    Except String String :=
  match resolveRepo config inbox with
  | .error error => .error error
  | .ok repo =>
      match checkoutRepo checkout with
      | .error error =>
          .error ("refusing to admit work without confirming the execution repository: " ++ error)
      | .ok localRepo =>
          if letters.lower localRepo ≠ letters.lower repo then
            .error ("refusing cross-repository intake: the inbox is " ++ repo ++ " but this checkout is " ++
              localRepo ++ ", and a run would execute against " ++ localRepo ++
              ". Point [intake_github] repo at " ++ localRepo ++
              ", or run the daemon from a checkout of the inbox repository.")
          else .ok repo

/-! ## Who authorized it -/

/-- Whether the bytes of an issue are the ones that were authorized.  `actor` is what GitHub names as the
    login, of whatever type. -/
structure Authorization where
  ok : Bool
  reason : String := ""
  actor : Json := .str ""
  labeledAt : String := ""
  lastEditedAt : String := ""

/-- `value.get(key, default)` -/
def pyGet (key : String) (default : Json) : Json → Except String Json
  | .obj fields => .ok ((fields.lookup key).getD default)
  | value => .error ("AttributeError: '" ++ value.typeName ++ "' object has no attribute 'get'")

/-- The issue of the answer.  An error is an exception that nothing catches. -/
def issueNode (payload : Json) : Except String Json :=
  match payload with
  | .obj _ => do
      let data ← pyGet "data" (.obj []) payload
      let repository ← pyGet "repository" (.obj []) data
      pyGet "issue" .null repository
  | _ => .ok .null

/-- Who a labelling is by. -/
def loginOf (node : Json) : Json := ((node.field "actor").get? "login").getD (.str "")

/-- The latest labelling with the trigger label so far: when, and by whom. -/
def latestLabel (queuedLabel : String) (latest : String × Json) (node : Json) : String × Json :=
  match (node.field "label").get? "name", node.get? "createdAt" with
  | some (.str name), some (.str created) =>
      if name = queuedLabel ∧ latest.1 ≤ created then (created, loginOf node) else latest
  | _, _ => latest

/-- `raw_nodes or []`, as a loop goes through it. -/
def timelineNodes (issue : Json) : Except String (List Json) :=
  if ((issue.field "timelineItems").field "nodes").truthy then
    match ((issue.field "timelineItems").field "nodes").iter? with
    | some nodes => .ok nodes
    | none => .error ("TypeError: '" ++ ((issue.field "timelineItems").field "nodes").typeName ++
        "' object is not iterable")
  else .ok []

/-- `actor or 'an unknown actor'` -/
def actorText (actor : Json) : String := if actor.truthy then actor.pyStr else "an unknown actor"

/-- The labelling against the last edit. -/
def judgeTimeline (queuedLabel : String) (latest : String × Json) (editedAt : Json) : Authorization :=
  if latest.1 = "" then
    { ok := false
      reason := "no " ++ PyText.repr queuedLabel ++ " labelling event found; refusing to treat a label of " ++
        "unknown provenance as authorization" }
  else match editedAt with
    | .str editedAt =>
        if latest.1 < editedAt then
          { ok := false, actor := latest.2, labeledAt := latest.1, lastEditedAt := editedAt
            reason := "the issue body was edited at " ++ editedAt ++ ", after it was labelled at " ++ latest.1 ++
              " by " ++ actorText latest.2 ++ "; re-apply the label to authorize the current text" }
        else { ok := true, actor := latest.2, labeledAt := latest.1, lastEditedAt := editedAt }
    | _ => { ok := true, actor := latest.2, labeledAt := latest.1 }

/-- Confirm that the issue was not edited since it was labelled.  An error is an exception that nothing
    catches. -/
def verifyAuthorization (config : GitHubIntakeConfig) (repo : String) (answer : Answer) :
    Except String Authorization :=
  if repo.toList.takeWhile (· ≠ '/') = [] ∨ (repo.toList.dropWhile (· ≠ '/')).tail = [] then
    .ok { ok := false, reason := "unusable repo " ++ PyText.repr repo }
  else match answer with
    | .failed error => .ok { ok := false, reason := "could not read the authorization timeline: " ++ error }
    | .unparseable exc => .ok { ok := false, reason := "unparseable authorization timeline: " ++ exc }
    | .value payload => do
        match ← issueNode payload with
        | .obj fields =>
            let nodes ← timelineNodes (.obj fields)
            pure (judgeTimeline config.queuedLabel (nodes.foldl (latestLabel config.queuedLabel) ("", .str ""))
              (Json.field (.obj fields) "lastEditedAt"))
        | _ => pure { ok := false, reason := "authorization timeline had no issue node" }

/-- `_actor_allowed`, of a login of whatever type. -/
def actorIsAllowed (letters : Letters) (config : GitHubIntakeConfig) : Json → Except String Bool
  | .str actor => .ok (actorAllowed letters config actor)
  | actor => .error ("AttributeError: '" ++ actor.typeName ++ "' object has no attribute 'strip'")

/-- Why the issue is not authorized, or the empty text. -/
def authorizationRefusal (letters : Letters) (config : GitHubIntakeConfig) (auth : Authorization) :
    Except String String :=
  if auth.ok = false then
    .ok (if auth.reason = "" then "the authorization check refused without saying why" else auth.reason)
  else if config.allowedActors = [] then .ok ""
  else do
    if ← actorIsAllowed letters config auth.actor then pure ""
    else pure (config.queuedLabel ++ " was applied by " ++ actorText auth.actor ++
      ", who is not in [intake_github] allowed_actors (" ++ String.intercalate ", " config.allowedActors ++ ")")

/-! ## The spec of an issue -/

def maxSpecChars : ℕ := 60000

def bugReportPrompt : String :=
  "> This item is a bug report. At least one acceptance check must reproduce\n" ++
  "> the reported failure: that check has \"onBase\": \"fails\".\n\n"

/-- Whether the issue carries the human `bug` label. -/
def isBugReport (letters : Letters) (issue : RemoteIssue) : Bool :=
  issue.labels.any fun label => letters.casefold label = "bug"

def specHeader (letters : Letters) (repo : String) (issue : RemoteIssue) : String :=
  "# " ++ issue.title ++ "\n\n> Sourced from " ++ issue.sourceRef repo ++
    (if issue.url = "" then "" else " (" ++ issue.url ++ ")") ++ "\n\n" ++
    if isBugReport letters issue then bugReportPrompt else ""

/-- The spec text the factory will decompose. -/
def specFromIssue (letters : Letters) (repo : String) (issue : RemoteIssue) : String :=
  if maxSpecChars < (specHeader letters repo issue ++ PyText.strip issue.body).toList.length then
    specHeader letters repo issue ++
      String.ofList ((PyText.strip issue.body).toList.take
        (maxSpecChars - (specHeader letters repo issue).toList.length - 80)) ++
      "\n\n[truncated by kstrl: issue body exceeded " ++ toString maxSpecChars ++ " characters]\n"
  else specHeader letters repo issue ++ PyText.strip issue.body

/-! ## The plan -/

inductive Decision where
  /-- `admit` -/
  | admitted
  | skipProcessed
  | skipInQueue
  | skipEmptyBody
  | skipCap
  | refuseUnauthorized
  deriving DecidableEq, Repr

def Decision.admits (decision : Decision) : Bool := decision = .admitted

/-- One issue with the decision and the reason for it. -/
structure PlannedIssue where
  issue : RemoteIssue
  decision : Decision
  reason : String := ""
  authorization : Option Authorization := none

section Plan

variable (letters : Letters) (config : GitHubIntakeConfig) (repo : String)

/-- The decisions that ask nobody. -/
def skipOf (ledger : ProcessedLedger) (inQueue : String → Bool) (admitted : ℤ) (issue : RemoteIssue) :
    Option (Decision × String) :=
  if ledger.contains (issue.sourceRef repo) then some (.skipProcessed, "already processed")
  else if inQueue (issue.sourceRef repo) then some (.skipInQueue, "already in the queue")
  else if PyText.isBlank issue.body then some (.skipEmptyBody, "issue body is empty; nothing to build")
  else if config.maxItemsPerSync ≤ admitted then
    some (.skipCap, "per-sync cap of " ++ toString config.maxItemsPerSync ++ " reached")
  else none

/-- The decision on an issue whose authorization was asked for. -/
def judgeIssue (issue : RemoteIssue) (auth : Authorization) : Except String PlannedIssue := do
  let refusal ← authorizationRefusal letters config auth
  if refusal ≠ "" then pure ⟨issue, .refuseUnauthorized, refusal, some auth⟩
  else pure ⟨issue, .admitted, "", some auth⟩

/-- The decision on one issue, when `admitted` are admitted before it. -/
def planIssue (ledger : ProcessedLedger) (inQueue : String → Bool)
    (authorizer : RemoteIssue → Except String Authorization) (admitted : ℤ) (issue : RemoteIssue) :
    Except String PlannedIssue :=
  match skipOf config repo ledger inQueue admitted issue with
  | some (decision, reason) => .ok { issue := issue, decision := decision, reason := reason }
  | none => do
      let auth ← authorizer issue
      judgeIssue letters config issue auth

/-- The count of the admitted, after one more decision. -/
def countAdmitted (admitted : ℤ) (entry : PlannedIssue) : ℤ :=
  if entry.decision.admits then admitted + 1 else admitted

/-- Decide over the issues one after the other. -/
def planFrom (ledger : ProcessedLedger) (inQueue : String → Bool)
    (authorizer : RemoteIssue → Except String Authorization) : ℤ → List RemoteIssue →
    Except String (List PlannedIssue)
  | _, [] => .ok []
  | admitted, issue :: rest => do
      let entry ← planIssue letters config repo ledger inQueue authorizer admitted issue
      let others ← planFrom ledger inQueue authorizer (countAdmitted admitted entry) rest
      pure (entry :: others)

/-- Decide what to do with each polled issue.  Nothing is written. -/
def planSync (ledger : ProcessedLedger) (inQueue : String → Bool)
    (authorizer : RemoteIssue → Except String Authorization) (issues : List RemoteIssue) :
    Except String (List PlannedIssue) := planFrom letters config repo ledger inQueue authorizer 0 issues

end Plan

/-! ## The commit -/

/-- What the outside is when one issue is admitted. -/
structure CommitTurn where
  env : Env
  mint : MintedId
  /-- the spec as JSON, where it is some -/
  parsed : Option Json := none
  /-- the order in which a directory lists its files -/
  order : List String := []

/-- How one admission came out. -/
inductive Verdict where
  /-- in the queue and in the ledger -/
  | enqueued
  /-- published, not entered, and removed again as far as that went -/
  | unrecorded (error : String)
  /-- not published -/
  | refused (error : String)
  deriving DecidableEq, Repr

/-- The item was published. -/
def Verdict.published : Verdict → Bool
  | .refused _ => false
  | _ => true

section Commit

variable (letters : Letters) (config : GitHubIntakeConfig) (repo stamp : String)

/-- The arguments of `queue.add`.  Where the item stops is not the issue's to say. -/
def admitArgs (issue : RemoteIssue) : Queue.AddArgs where
  title := issue.title
  priority := config.defaultPriority
  mergeDisposition := .stopAtPr
  source := .github
  sourceRef := issue.sourceRef repo
  targetRepo := repo
  specFilename := "spec.md"
  designAcceptance := isBugReport letters issue
  actor := "intake-github"

/-- Remove the item that could not be entered. -/
def rollback (turn : CommitTurn) (number : ℤ) (item : QueueItem) : IntakeProg String :=
  catching (do
    onQueue (.admitted number) (Queue.remove turn.env item turn.order "intake-github")
    pure "the queued item was rolled back")
    fun e => match e.caught with
      | some exc => pure ("AND the rollback failed (" ++ exc ++ "); remove " ++ item.itemId ++ " by hand")
      | none => raise e

/-- Enter the item that was published.  The entry is in the ledger the process holds, also where the write
    fails. -/
def recordOne (turn : CommitTurn) (ledger : ProcessedLedger) (issue : RemoteIssue) (item : QueueItem) :
    IntakeProg (ProcessedLedger × Verdict) :=
  catching (do
    let ledger ← ledger.record (issue.sourceRef repo) item.itemId stamp
    pure (ledger, .enqueued))
    fun e => match e with
      | .os exc => do
          let undone ← rollback turn issue.number item
          pure (ledger.withEntry (issue.sourceRef repo) item.itemId stamp,
            .unrecorded (issue.sourceRef repo ++ ": could not record the dedupe entry (" ++ exc ++ "); " ++ undone))
      | e => raise e

/-- Publish the item of one issue and enter it. -/
def commitOne (turn : CommitTurn) (ledger : ProcessedLedger) (issue : RemoteIssue) :
    IntakeProg (ProcessedLedger × Verdict) := do
  let added ← catching (do
      let item ← onQueue (.admitted issue.number) (Queue.add turn.env turn.mint
        (.text (specFromIssue letters repo issue) turn.parsed) (admitArgs letters config repo issue))
      pure (Except.ok item))
    fun e => match e.caught with
      | some exc => pure (.error (issue.sourceRef repo ++ ": could not enqueue (" ++ exc ++ ")"))
      | none => raise e
  match added with
  | .error error => pure (ledger, .refused error)
  | .ok item => recordOne repo stamp turn ledger issue item

/-- Enqueue the admitted issues. -/
def commitAdmissions : ProcessedLedger → List (CommitTurn × PlannedIssue) →
    IntakeProg (ProcessedLedger × List (RemoteIssue × Verdict))
  | ledger, [] => pure (ledger, [])
  | ledger, (turn, entry) :: rest =>
      if entry.decision.admits then do
        let (ledger, verdict) ← commitOne letters config repo stamp turn ledger entry.issue
        let (ledger, verdicts) ← commitAdmissions ledger rest
        pure (ledger, (entry.issue, verdict) :: verdicts)
      else commitAdmissions ledger rest

end Commit

/-! ## What a plan admits -/

section Plan

variable {letters : Letters} {config : GitHubIntakeConfig} {repo : String} {ledger : ProcessedLedger}
  {inQueue : String → Bool} {authorizer : RemoteIssue → Except String Authorization}

/-- Whether an issue may be admitted, the cap apart. -/
def eligible (letters : Letters) (config : GitHubIntakeConfig) (repo : String) (ledger : ProcessedLedger)
    (inQueue : String → Bool) (authorizer : RemoteIssue → Except String Authorization) (issue : RemoteIssue) :
    Bool :=
  !ledger.contains (issue.sourceRef repo) && !inQueue (issue.sourceRef repo) && !PyText.isBlank issue.body &&
    match authorizer issue with
    | .ok auth => match authorizationRefusal letters config auth with
        | .ok refusal => refusal = ""
        | .error _ => false
    | .error _ => false

lemma judgeIssue_ok {issue : RemoteIssue} {auth : Authorization} {entry : PlannedIssue}
    (h : judgeIssue letters config issue auth = .ok entry) :
    entry.issue = issue ∧ entry.authorization = some auth ∧
      (entry.decision.admits = true ↔ authorizationRefusal letters config auth = .ok "") := by
  obtain ⟨refusal, hrefusal, hentry⟩ := Except.bind_eq_ok h
  split_ifs at hentry with hempty
  · cases hentry
    rw [hrefusal]
    exact ⟨rfl, rfl, by simp [Decision.admits, hempty]⟩
  · cases hentry
    rw [hrefusal, not_not.mp hempty]
    exact ⟨rfl, rfl, by simp [Decision.admits]⟩

/-- **One decision**: it is about the issue, and it admits one that may be, as long as the cap is not full. -/
lemma planIssue_ok {admitted : ℤ} {issue : RemoteIssue} {entry : PlannedIssue}
    (h : planIssue letters config repo ledger inQueue authorizer admitted issue = .ok entry) :
    entry.issue = issue ∧ (entry.decision.admits = true ↔ admitted < config.maxItemsPerSync ∧
      eligible letters config repo ledger inQueue authorizer issue = true) := by
  rw [planIssue] at h
  by_cases hledger : ledger.contains (issue.sourceRef repo) = true
  · rw [skipOf, if_pos hledger] at h
    cases h
    simp [Decision.admits, eligible, hledger]
  by_cases hqueue : inQueue (issue.sourceRef repo) = true
  · rw [skipOf, if_neg hledger, if_pos hqueue] at h
    cases h
    simp [Decision.admits, eligible, hqueue]
  by_cases hblank : PyText.isBlank issue.body = true
  · rw [skipOf, if_neg hledger, if_neg hqueue, if_pos hblank] at h
    cases h
    simp [Decision.admits, eligible, hblank]
  by_cases hcap : config.maxItemsPerSync ≤ admitted
  · rw [skipOf, if_neg hledger, if_neg hqueue, if_neg hblank, if_pos hcap] at h
    cases h
    simp [Decision.admits, hcap]
  rw [skipOf, if_neg hledger, if_neg hqueue, if_neg hblank, if_neg hcap] at h
  obtain ⟨auth, hauth, hjudge⟩ := Except.bind_eq_ok h
  obtain ⟨hissue, -, hadmits⟩ := judgeIssue_ok hjudge
  refine ⟨hissue, hadmits.trans ?_⟩
  rw [Bool.not_eq_true] at hledger hqueue hblank
  simp only [eligible, hledger, hqueue, hblank, hauth, not_le.mp hcap, Bool.not_false, Bool.true_and, true_and]
  cases authorizationRefusal letters config auth with
  | error exc => simp
  | ok refusal => simp

lemma planFrom_admitted {admitted : ℤ} {issues : List RemoteIssue} {planned : List PlannedIssue}
    (h : planFrom letters config repo ledger inQueue authorizer admitted issues = .ok planned) :
    (planned.filter fun entry => entry.decision.admits).map PlannedIssue.issue =
      (issues.filter (eligible letters config repo ledger inQueue authorizer)).take
        (config.maxItemsPerSync - admitted).toNat := by
  induction issues generalizing admitted planned with
  | nil =>
      cases h
      simp
  | cons issue rest ih =>
      obtain ⟨entry, hentry, h⟩ := Except.bind_eq_ok h
      obtain ⟨others, hothers, h⟩ := Except.bind_eq_ok h
      cases h
      obtain ⟨hissue, hadmits⟩ := planIssue_ok hentry
      have hrest := ih hothers
      cases hdecision : entry.decision.admits with
      | true =>
          obtain ⟨hroom, heligible⟩ := hadmits.mp hdecision
          have hcount : (config.maxItemsPerSync - admitted).toNat
              = (config.maxItemsPerSync - countAdmitted admitted entry).toNat + 1 := by
            rw [countAdmitted, if_pos hdecision]
            omega
          rw [List.filter_cons_of_pos (by simpa using hdecision), List.filter_cons_of_pos heligible, List.map_cons,
            hcount, List.take_succ_cons, hrest, hissue]
      | false =>
          rw [countAdmitted, hdecision, if_neg Bool.false_ne_true] at hrest
          rw [List.filter_cons_of_neg (by simp [hdecision]), hrest]
          by_cases heligible : eligible letters config repo ledger inQueue authorizer issue = true
          · -- there is no room for an issue that may be admitted
            have hfull : ¬ admitted < config.maxItemsPerSync := fun hroom =>
              absurd (hadmits.mpr ⟨hroom, heligible⟩) (by simp [hdecision])
            rw [show (config.maxItemsPerSync - admitted).toNat = 0 by omega, List.take_zero, List.take_zero]
          · rw [List.filter_cons_of_neg heligible]

/-- **A plan admits the first of the issues that may be admitted, up to the cap**: those with a body that are
    neither in the ledger nor in the queue and whose labelling authorizes the text. -/
theorem planSync_admitted (letters : Letters) (config : GitHubIntakeConfig) (repo : String)
    (ledger : ProcessedLedger) (inQueue : String → Bool)
    (authorizer : RemoteIssue → Except String Authorization) (issues : List RemoteIssue)
    (planned : List PlannedIssue) (h : planSync letters config repo ledger inQueue authorizer issues = .ok planned) :
    (planned.filter fun entry => entry.decision.admits).map PlannedIssue.issue =
      (issues.filter (eligible letters config repo ledger inQueue authorizer)).take
        config.maxItemsPerSync.toNat := by
  have hadmitted := planFrom_admitted h
  rwa [sub_zero] at hadmitted

def sampleIssue (number : ℤ) (body : String) : RemoteIssue where
  number := number
  title := "tabs"
  body := body

/-- Two issues may be admitted, and one is. -/
theorem planSync_admitted_one : ∃ planned : List PlannedIssue,
    (planned.filter fun entry => entry.decision.admits).map PlannedIssue.issue = [sampleIssue 2 "Use tabs."] := by
  let config : GitHubIntakeConfig := { sampleSteerConfig with maxItemsPerSync := 1, one_or_more := le_rfl }
  have h := planSync_admitted sampleLetters config "o/r" {} (fun _ => false) (fun _ => .ok { ok := true })
    [sampleIssue 1 " ", sampleIssue 2 "Use tabs.", sampleIssue 3 "Use spaces."] _ rfl
  exact ⟨_, h.trans rfl⟩

end Plan

/-! ## What a commit enters -/

/-- The item of the reference was published, and its issue or a later one was entered. -/
def EnteredBy (repo ref : String) (verdicts : List (RemoteIssue × Verdict)) : Prop :=
  ∃ before own after, verdicts = before ++ own :: after ∧ own.1.sourceRef repo = ref ∧
    own.2.published = true ∧ ∃ e ∈ own :: after, e.2 = .enqueued

/-- What one admission makes of the ledger the process holds and of the one on disk. -/
inductive Commits (ref stamp : String) (held disk : ProcessedLedger) :
    Verdict → ProcessedLedger → ProcessedLedger → Prop where
  | enqueued (itemId : String) :
      Commits ref stamp held disk .enqueued (held.withEntry ref itemId stamp) (held.withEntry ref itemId stamp)
  | unrecorded (itemId error : String) :
      Commits ref stamp held disk (.unrecorded error) (held.withEntry ref itemId stamp) disk
  | refused (error : String) : Commits ref stamp held disk (.refused error) held disk

/-- What is on disk is held. -/
lemma Commits.sub {ref stamp : String} {held held' disk disk' : ProcessedLedger} {verdict : Verdict}
    (h : Commits ref stamp held disk verdict held' disk')
    (hsub : ∀ key, disk.contains key = true → held.contains key = true) (key : String)
    (hkey : disk'.contains key = true) : held'.contains key = true := by
  cases h with
  | enqueued itemId => exact hkey
  | unrecorded itemId error => exact ProcessedLedger.contains_withEntry_of _ _ _ _ (hsub key hkey)
  | refused error => exact hsub key hkey

section Commit

variable {letters : Letters} {config : GitHubIntakeConfig} {repo stamp : String} {disk : ProcessedLedger}

/-- The ledger on disk is `disk`. -/
abbrev OnDisk (disk : ProcessedLedger) (s : Checkout) : Prop := s.ledger = disk

/-- An operation of the queue leaves the ledger alone. -/
lemma onQueue_triple {α : Type} (effect : Effect) (c : QueueProg α) :
    Triple (OnDisk disk) (onQueue effect c) (fun _ => OnDisk disk) (fun _ => OnDisk disk) (fun _ => True) := by
  intro fs s hs
  rw [onQueue]
  rcases c fs s.queue with ⟨_ | _ | _, fs', d⟩
  · exact hs
  · exact hs
  · trivial

lemma rollback_triple (turn : CommitTurn) (number : ℤ) (item : QueueItem) :
    Triple (OnDisk disk) (rollback turn number item) (fun _ => OnDisk disk) (fun _ _ => True)
      (fun _ => True) := by
  refine Triple.catching (Triple.bind (onQueue_triple _ _) fun _ => Triple.pure fun _ => id) fun e => ?_
  cases e.caught with
  | none => exact Triple.raise fun _ _ => trivial
  | some exc => exact Triple.pure fun _ => id

/-- **The entry** is written with all that the process holds, or it is held and not written. -/
lemma recordOne_triple (turn : CommitTurn) (held : ProcessedLedger) (issue : RemoteIssue) (item : QueueItem) :
    Triple (OnDisk disk) (recordOne repo stamp turn held issue item)
      (fun r t => Commits (issue.sourceRef repo) stamp held disk r.2 r.1 t.ledger) (fun _ _ => True)
      (fun _ => True) := by
  rw [recordOne]
  refine Triple.catching (M := fun _ => OnDisk disk) ?_ fun e => ?_
  · rw [ProcessedLedger.record, ProcessedLedger.save, bind_bind]
    refine Triple.bind (Triple.write (Q := fun _ t =>
      t.ledger = held.withEntry (issue.sourceRef repo) item.itemId stamp) (fun s _ => ?_) (fun _ => id)
      fun _ _ => trivial) fun _ => Triple.pure fun t ht => ?_
    · exact Checkout.ledger_withLedger s _
    · rw [ht]
      exact .enqueued item.itemId
  · cases e with
    | os exc =>
        refine Triple.bind (rollback_triple turn issue.number item) fun undone => Triple.pure fun t ht => ?_
        rw [show t.ledger = disk from ht]
        exact .unrecorded item.itemId _
    | queue e => exact Triple.raise fun _ _ => trivial
    | runtime msg => exact Triple.raise fun _ _ => trivial

lemma commitOne_triple (turn : CommitTurn) (held : ProcessedLedger) (issue : RemoteIssue) :
    Triple (OnDisk disk) (commitOne letters config repo stamp turn held issue)
      (fun r t => Commits (issue.sourceRef repo) stamp held disk r.2 r.1 t.ledger) (fun _ _ => True)
      (fun _ => True) := by
  rw [commitOne]
  generalize specFromIssue letters repo issue = spec
  refine Triple.bind (Q := fun _ => OnDisk disk) (Triple.catching (M := fun _ => OnDisk disk) ?_ fun e => ?_)
    fun added => ?_
  · exact Triple.bind (onQueue_triple _ _) fun _ => Triple.pure fun _ => id
  · cases e.caught with
    | none => exact Triple.raise fun _ _ => trivial
    | some exc => exact Triple.pure fun _ => id
  · cases added with
    | error error =>
        refine Triple.pure fun t ht => ?_
        rw [show t.ledger = disk from ht]
        exact .refused error
    | ok item => exact recordOne_triple turn held issue item

lemma enteredBy_cons {ref : String} {own : RemoteIssue × Verdict} {verdicts : List (RemoteIssue × Verdict)} :
    EnteredBy repo ref (own :: verdicts) ↔
      (own.1.sourceRef repo = ref ∧ own.2.published = true ∧ ∃ e ∈ own :: verdicts, e.2 = .enqueued) ∨
        EnteredBy repo ref verdicts := by
  constructor
  · rintro ⟨before, e, after, hsplit, hown⟩
    cases before with
    | nil =>
        obtain ⟨rfl, rfl⟩ := List.cons.inj hsplit
        exact Or.inl hown
    | cons b before =>
        obtain ⟨rfl, rfl⟩ := List.cons.inj hsplit
        exact Or.inr ⟨before, e, after, rfl, hown⟩
  · rintro (hown | ⟨before, e, after, rfl, hown⟩)
    · exact ⟨[], own, verdicts, rfl, hown⟩
    · exact ⟨own :: before, e, after, rfl, hown⟩

/-- What a commit leaves, given what the process held when it began. -/
def Entered (repo : String) (held disk disk' : ProcessedLedger) (verdicts : List (RemoteIssue × Verdict)) : Prop :=
  ∀ ref, disk'.contains ref = true ↔ disk.contains ref = true ∨
    (held.contains ref = true ∧ ∃ e ∈ verdicts, e.2 = .enqueued) ∨ EnteredBy repo ref verdicts

/-- **One admission more.** -/
lemma Entered.cons {issue : RemoteIssue} {verdict : Verdict} {verdicts : List (RemoteIssue × Verdict)}
    {held held' disk' disk'' : ProcessedLedger} (hsub : ∀ ref, disk.contains ref = true → held.contains ref = true)
    (hone : Commits (issue.sourceRef repo) stamp held disk verdict held' disk')
    (h : Entered repo held' disk' disk'' verdicts) :
    Entered repo held disk disk'' ((issue, verdict) :: verdicts) := by
  intro ref
  have hsub := hsub ref
  rw [h ref, enteredBy_cons]
  cases hone with
  | enqueued itemId =>
      simp only [ProcessedLedger.contains_withEntry, Bool.or_eq_true, decide_eq_true_eq, List.exists_mem_cons_iff,
        Verdict.published, true_or, and_true]
      constructor
      · rintro ((rfl | hheld) | ⟨rfl | hheld, -⟩ | hrest)
        · exact Or.inr (Or.inr (Or.inl rfl))
        · exact Or.inr (Or.inl hheld)
        · exact Or.inr (Or.inr (Or.inl rfl))
        · exact Or.inr (Or.inl hheld)
        · exact Or.inr (Or.inr (Or.inr hrest))
      · rintro (hdisk | hheld | rfl | hrest)
        · exact Or.inl (Or.inr (hsub hdisk))
        · exact Or.inl (Or.inr hheld)
        · exact Or.inl (Or.inl rfl)
        · exact Or.inr (Or.inr hrest)
  | unrecorded itemId error =>
      simp only [ProcessedLedger.contains_withEntry, Bool.or_eq_true, decide_eq_true_eq, List.exists_mem_cons_iff,
        Verdict.published, reduceCtorEq, false_or, true_and]
      constructor
      · rintro (hdisk | ⟨rfl | hheld, hlater⟩ | hrest)
        · exact Or.inl hdisk
        · exact Or.inr (Or.inr (Or.inl ⟨rfl, hlater⟩))
        · exact Or.inr (Or.inl ⟨hheld, hlater⟩)
        · exact Or.inr (Or.inr (Or.inr hrest))
      · rintro (hdisk | ⟨hheld, hlater⟩ | ⟨rfl, hlater⟩ | hrest)
        · exact Or.inl hdisk
        · exact Or.inr (Or.inl ⟨Or.inr hheld, hlater⟩)
        · exact Or.inr (Or.inl ⟨Or.inl rfl, hlater⟩)
        · exact Or.inr (Or.inr hrest)
  | refused error => simp [Verdict.published]

lemma commitAdmissions_triple (batch : List (CommitTurn × PlannedIssue)) (held disk : ProcessedLedger)
    (hsub : ∀ ref, disk.contains ref = true → held.contains ref = true) :
    Triple (OnDisk disk) (commitAdmissions letters config repo stamp held batch)
      (fun r t => Entered repo held disk t.ledger r.2 ∧
        r.2.map Prod.fst = ((batch.map Prod.snd).filter fun entry => entry.decision.admits).map PlannedIssue.issue)
      (fun _ _ => True) (fun _ => True) := by
  induction batch generalizing held disk with
  | nil =>
      refine Triple.pure fun t ht => ⟨fun ref => ?_, rfl⟩
      simp [show t.ledger = disk from ht, EnteredBy]
  | cons first rest ih =>
      obtain ⟨turn, entry⟩ := first
      rw [commitAdmissions]
      refine Triple.ite (fun hadmits => ?_) fun hskips => ?_
      · have hfirst := @commitOne_triple letters config repo stamp disk turn held entry.issue
        generalize commitOne letters config repo stamp turn held entry.issue = first at hfirst
        refine Triple.bind hfirst fun r => ?_
        obtain ⟨held', verdict⟩ := r
        refine fun fs s hone => ?_
        refine (Triple.bind (ih held' s.ledger (hone.sub hsub)) fun r => Triple.pure fun t ht => ?_) fs s rfl
        obtain ⟨held'', verdicts⟩ := r
        refine ⟨Entered.cons hsub hone ht.1, ?_⟩
        rw [List.map_cons, ht.2, List.map_cons, List.filter_cons_of_pos (by exact hadmits), List.map_cons]
      · rw [List.map_cons, List.filter_cons_of_neg (by exact hskips)]
        exact ih held disk hsub

/-- **What the ledger has after a commit**: what it had before, and the issues whose item was published, as
    long as that issue or a later one of the commit was entered.  So an issue whose entry failed, and whose item
    was removed again, counts as taken in exactly if a later one was entered. -/
theorem commitAdmissions_entered (letters : Letters) (config : GitHubIntakeConfig) (repo stamp : String)
    (batch : List (CommitTurn × PlannedIssue)) (fs fs' : List CrashProg.Fault) (s t : Checkout)
    (held : ProcessedLedger) (verdicts : List (RemoteIssue × Verdict))
    (hrun : commitAdmissions letters config repo stamp s.ledger batch fs s = (.done (held, verdicts), fs', t)) :
    (verdicts.map Prod.fst =
      ((batch.map Prod.snd).filter fun entry => entry.decision.admits).map PlannedIssue.issue) ∧
    ∀ ref, t.ledger.contains ref = true ↔ s.ledger.contains ref = true ∨ EnteredBy repo ref verdicts := by
  have htriple := @commitAdmissions_triple letters config repo stamp batch s.ledger s.ledger (fun _ => id) fs s rfl
  rw [hrun] at htriple
  obtain ⟨hentered, hissues⟩ := htriple
  refine ⟨hissues, fun ref => (hentered ref).trans ?_⟩
  constructor
  · rintro (hdisk | ⟨hheld, -⟩ | hby)
    · exact Or.inl hdisk
    · exact Or.inl hheld
    · exact Or.inr hby
  · rintro (hdisk | hby)
    · exact Or.inl hdisk
    · exact Or.inr (Or.inr hby)

end Commit

/-! ### A run on fixed inputs -/

def sampleCommit (nonce : String) (hnonce : nonce.toList.all isIdChar = true) : CommitTurn where
  env := sampleEnv
  mint := { sampleMint with nonce := nonce.toList, nonce_chars := hnonce }

def sampleBatch : List (CommitTurn × PlannedIssue) :=
  [(sampleCommit "1" (by decide), { issue := sampleIssue 1 "Use tabs.", decision := .admitted }),
    (sampleCommit "2" (by decide), { issue := sampleIssue 2 "Use spaces.", decision := .admitted })]

def sampleIntake : GitHubIntakeConfig := { sampleSteerConfig with enabled := true, allowedActors := ["ann"] }

/-- The entry of the first issue fails. -/
def sampleCommitted : Exit IntakeError (ProcessedLedger × List (RemoteIssue × Verdict)) ×
    List CrashProg.Fault × Checkout :=
  commitAdmissions sampleLetters sampleIntake "o/r" "2026-09-02T16:12:00Z" {} sampleBatch
    [.pass, .pass, .pass, .pass, .pass, .error] (SteerWorld.start .missing Disk.empty).store

/-- The verdicts of a commit that came to its end. -/
def verdictsOf : Exit IntakeError (ProcessedLedger × List (RemoteIssue × Verdict)) → List (RemoteIssue × Verdict)
  | .done r => r.2
  | _ => []

/-- The item of the first issue is gone, and its issue counts as taken in. -/
theorem commitAdmissions_entered_rolledBack : ∃ t : Checkout, t.ledger.contains "o/r#1" = true ∧
    (items t.queue).map QueueItem.sourceRef = ["o/r#2"] := by
  have hverdicts : verdictsOf sampleCommitted.1 = [(sampleIssue 1 "Use tabs.", .unrecorded
      ("o/r#1: could not record the dedupe entry (github-processed.json); the queued item was rolled back")),
        (sampleIssue 2 "Use spaces.", .enqueued)] := by
    decide +kernel
  have hqueue : (items sampleCommitted.2.2.queue).map QueueItem.sourceRef = ["o/r#2"] := by
    decide +kernel
  refine ⟨_, ?_, hqueue⟩
  rcases hrun : sampleCommitted with ⟨⟨held, verdicts⟩ | _ | _, fs', t⟩
  · rw [hrun] at hverdicts
    have hentered := (commitAdmissions_entered sampleLetters sampleIntake "o/r" "2026-09-02T16:12:00Z"
      sampleBatch _ fs' (SteerWorld.start .missing Disk.empty).store t held verdicts hrun).2 "o/r#1"
    refine hentered.mpr (Or.inr ?_)
    rw [show verdicts = _ from hverdicts]
    exact ⟨[], _, _, rfl, by decide +kernel, rfl, _, List.mem_cons_of_mem _ List.mem_cons_self, rfl⟩
  · rw [hrun] at hverdicts
    cases hverdicts
  · rw [hrun] at hverdicts
    cases hverdicts

end Serve.Issues

end Kstrl
