import Kstrl.Serve.IssueIntake

/-!
# Syncs of the issue intake, and what their specs were authorized by

The issues of one repository on GitHub, and the syncs that take them in (`sync` in
`kstrl/serve/intake_github.py`).  Issues are edited and labelled at any time, also between two steps of a sync.
A sync polls the issues, perhaps more than once, asks for the labelling of each issue it would admit, once an
issue, plans again over what it polled last, and commits.  It can end in front of any step.

The body is of one read and the labelling of another one, and GitHub's stamps are whole seconds.  So what is
handed to the queue need not be the text that was labelled.

* **`Grants`** is what a labelling that passes says of the issue's history, as it was when it was read.
* **`handed_authorized`** is the result: a text that is handed to the queue is the one that the label was put
  on, or the issue was edited in one of three places.
-/

namespace Kstrl

open CrashProg Runs

namespace Serve.Issues

/-! ## Issues on GitHub -/

/-- What happens to an issue.  A label that is taken off, and a new title, change nothing that is read here. -/
inductive Change where
  /-- its body is another one -/
  | edited (body : String)
  /-- a label is put on; the login is missing for an account that is gone -/
  | labeled (name : String) (login : Option String)
  deriving DecidableEq, Repr

structure IssueEvent where
  stamp : String
  change : Change
  deriving DecidableEq, Repr

def IssueEvent.isEdit (e : IssueEvent) : Bool := match e.change with
  | .edited _ => true
  | .labeled _ _ => false

/-- The trigger label is put on. -/
def IssueEvent.isTrigger (queuedLabel : String) (e : IssueEvent) : Bool := match e.change with
  | .edited _ => false
  | .labeled name _ => name = queuedLabel

/-- The body after the events, when it was `first` before them. -/
def bodyAt (first : String) (events : List IssueEvent) : String :=
  events.foldl (fun body e => match e.change with | .edited new => new | .labeled _ _ => body) first

/-- A labelling as the timeline has it. -/
def IssueEvent.node (e : IssueEvent) : Option Json := match e.change with
  | .edited _ => none
  | .labeled name login => some (.obj [("createdAt", .str e.stamp), ("label", .obj [("name", .str name)]),
      ("actor", match login with | some login => .obj [("login", .str login)] | none => .null)])

/-- `lastEditedAt` -/
def lastEditedAt (events : List IssueEvent) : Json :=
  match (events.filter IssueEvent.isEdit).getLast? with
  | some e => .str e.stamp
  | none => .null

/-- `last:50` -/
def lastFifty (nodes : List Json) : List Json := nodes.drop (nodes.length - 50)

/-- What the query returns. -/
def timelineJson (events : List IssueEvent) : Json :=
  .obj [("data", .obj [("repository", .obj [("issue", .obj [("lastEditedAt", lastEditedAt events),
    ("timelineItems", .obj [("nodes", .arr (lastFifty (events.filterMap IssueEvent.node)))])])])])]

/-- How the query ends. -/
inductive Reply where
  | timeline
  | failed (error : String)
  | unparseable (exc : String)

def Reply.answer (events : List IssueEvent) : Reply → Answer
  | .timeline => .value (timelineJson events)
  | .failed error => .failed error
  | .unparseable exc => .unparseable exc

/-! ## The system -/

/-- What one sync holds.  `polledAt` and `readAt` are no data of it: they tell how long the history of each
    issue was at the last poll, and when its labelling was read. -/
structure Sync where
  repo : String
  ledger : ProcessedLedger
  checked : List (ℤ × Authorization) := []
  issues : List RemoteIssue := []
  polledAt : ℤ → ℕ := fun _ => 0
  readAt : ℤ → ℕ := fun _ => 0

/-- Where a sync is. -/
inductive SyncPhase where
  | idle
  /-- polling, with the page sizes that are left -/
  | polling (ladder : List ℤ) (sync : Sync)
  /-- deciding over the issues that are left; `final` under the guard -/
  | planning (ladder : List ℤ) (exhausted final : Bool) (todo : List RemoteIssue) (planned : List PlannedIssue)
      (sync : Sync)
  /-- committing the admitted issues that are left -/
  | committing (todo : List PlannedIssue) (sync : Sync)

/-- An issue that was handed to `queue.add`, and when its body and its labelling were read. -/
structure Handed where
  issue : RemoteIssue
  polledAt : ℕ
  readAt : ℕ
  deriving DecidableEq, Repr

structure SyncWorld where
  /-- GitHub's clock -/
  now : String
  /-- the body an issue was opened with -/
  first : ℤ → String
  history : ℤ → List IssueEvent
  store : Checkout
  handed : List Handed
  phase : SyncPhase

/-- Nothing has happened to an issue yet. -/
def SyncWorld.start (first : ℤ → String) (store : Checkout) : SyncWorld where
  now := ""
  first := first
  history := fun _ => []
  store := store
  handed := []
  phase := .idle

inductive SyncAct where
  | tick (now : String)
  | change (number : ℤ) (change : Change)
  /-- the rest of the program and the operator -/
  | elsewhere (store : Checkout)
  | begin (inbox checkout : Answer)
  | poll (answer : Answer)
  | consider (reply : Reply)
  | turn
  | enqueue (stamp : String) (turn : CommitTurn) (faults : List CrashProg.Fault)
  /-- the sync is over, has raised, or its process has died -/
  | stop

/-- `queue.find_by_source_ref(ref) is not None` -/
def inQueue (d : Disk) (ref : String) : Bool := ref ≠ "" && (items d).any fun item => item.sourceRef = ref

/-- The admitted so far. -/
def admittedOf (planned : List PlannedIssue) : ℤ := planned.foldl countAdmitted 0

/-- The authorization of an issue, read once in a sync. -/
def Sync.authorize (sync : Sync) (config : GitHubIntakeConfig) (number : ℤ) (events : List IssueEvent)
    (reply : Reply) : Except String (Authorization × Sync) :=
  match sync.checked.lookup number with
  | some auth => .ok (auth, sync)
  | none => (verifyAuthorization config sync.repo (reply.answer events)).map fun auth =>
      (auth, { sync with checked := (number, auth) :: sync.checked
                         readAt := Function.update sync.readAt number events.length })

/-- The phase after one admission, and after one that ended the sync. -/
def SyncPhase.afterEnqueue (todo : List PlannedIssue) (sync : Sync) :
    Exit IntakeError (ProcessedLedger × Verdict) → SyncPhase
  | .done r => .committing todo { sync with ledger := r.1 }
  | _ => .idle

section

variable (letters : Letters) (config : GitHubIntakeConfig)

/-- One step; `none` where there is no such step. -/
def SyncWorld.next (w : SyncWorld) : SyncAct → Option SyncWorld
  | .tick now => some { w with now := now }
  | .change number change =>
      some { w with history := Function.update w.history number (w.history number ++ [⟨w.now, change⟩]) }
  | .elsewhere store => some { w with store := store }
  | .begin inbox checkout =>
      match w.phase with
      | .idle =>
          if config.enabled then
            match resolveSyncRepos letters config inbox checkout with
            | .error _ => some w
            | .ok repo => some { w with
                phase := .polling (pollLadder config) { repo := repo, ledger := w.store.ledger } }
          else some w
      | _ => none
  | .poll answer =>
      match w.phase with
      | .polling (limit :: ladder) sync =>
          match parseIssueList answer with
          | .error _ => some { w with phase := .idle }
          | .ok issues => some { w with
              phase := .planning ladder (issues.length < limit) false issues []
                { sync with issues := issues, polledAt := fun number => (w.history number).length } }
      | _ => none
  | .consider reply =>
      match w.phase with
      | .planning ladder exhausted final (issue :: todo) planned sync =>
          match skipOf config sync.repo sync.ledger (inQueue w.store.queue) (admittedOf planned) issue with
          | some (decision, reason) => some { w with
              phase := .planning ladder exhausted final todo (planned ++ [⟨issue, decision, reason, none⟩]) sync }
          | none =>
              match sync.authorize config issue.number (w.history issue.number) reply with
              | .error _ => some { w with phase := .idle }
              | .ok (auth, sync) =>
                  match judgeIssue letters config issue auth with
                  | .error _ => some { w with phase := .idle }
                  | .ok entry => some { w with
                      phase := .planning ladder exhausted final todo (planned ++ [entry]) sync }
      | _ => none
  | .turn =>
      match w.phase with
      | .planning ladder exhausted false [] planned sync =>
          if config.maxItemsPerSync ≤ admittedOf planned ∨ exhausted ∨ ladder = [] then
            if config.dryRun then some { w with phase := .idle }
            else some { w with
              phase := .planning [] exhausted true sync.issues [] { sync with ledger := w.store.ledger } }
          else some { w with phase := .polling ladder sync }
      | .planning _ _ true [] planned sync => some { w with
          phase := .committing (planned.filter fun entry => entry.decision.admits) sync }
      | _ => none
  | .enqueue stamp turn faults =>
      match w.phase with
      | .committing (entry :: todo) sync =>
          some { w with
            store := (commitOne letters config sync.repo stamp turn sync.ledger entry.issue faults w.store).2.2
            handed := w.handed ++
              [⟨entry.issue, sync.polledAt entry.issue.number, sync.readAt entry.issue.number⟩]
            phase := .afterEnqueue todo sync
              (commitOne letters config sync.repo stamp turn sync.ledger entry.issue faults w.store).1 }
      | _ => none
  | .stop => some { w with phase := .idle }

/-- A step of the system. -/
def SyncStep (w : SyncWorld) (a : SyncAct) (w' : SyncWorld) : Prop := w.next letters config a = some w'

/-- What is asked of GitHub: its clock does not go back, and a poll returns the bodies of the moment. -/
def gitHubAnswers (w : SyncWorld) : SyncAct → Bool
  | .tick now => w.now ≤ now
  | .poll answer =>
      match parseIssueList answer with
      | .error _ => true
      | .ok issues => issues.all fun issue => issue.body = bodyAt (w.first issue.number) (w.history issue.number)
  | _ => true

end

/-! ## What a labelling grants -/

/-- Some event is an edit. -/
def Edited (events : List IssueEvent) : Prop := ∃ e ∈ events, e.isEdit = true

/-- **What a labelling that passes says of the events it was read from**: the last time the trigger label was
    put on, it was by the actor, and whatever edited the issue after it did so within the same second. -/
def Grants (queuedLabel : String) (events : List IssueEvent) (auth : Authorization) : Prop :=
  ∃ before login after, events = before ++ ⟨auth.labeledAt, .labeled queuedLabel login⟩ :: after ∧
    auth.actor = .str (login.getD "") ∧ (∀ e ∈ after, e.isTrigger queuedLabel = false) ∧
    ∀ e ∈ after, e.isEdit = true → e.stamp = auth.labeledAt

lemma bodyAt_append (first : String) (before after : List IssueEvent) :
    bodyAt first (before ++ after) = bodyAt (bodyAt first before) after := List.foldl_append

/-- Without an edit the body stays. -/
lemma bodyAt_of_not_edited {first : String} {events : List IssueEvent} (h : ¬ Edited events) :
    bodyAt first events = first := by
  induction events with
  | nil => rfl
  | cons e events ih =>
      have hrest : ¬ Edited events := fun ⟨x, hx, hedit⟩ => h ⟨x, List.mem_cons_of_mem _ hx, hedit⟩
      rw [← ih hrest]
      obtain ⟨stamp, new | ⟨name, login⟩⟩ := e
      · exact absurd ⟨_, List.mem_cons_self, rfl⟩ h
      · rw [ih hrest]
        exact ih hrest

/-- The last edit is stamped at or after every edit. -/
lemma lastEditedAt_le {events : List IssueEvent} (hsorted : events.Pairwise fun a b => a.stamp ≤ b.stamp)
    {e : IssueEvent} (he : e ∈ events) (hedit : e.isEdit = true) :
    ∃ stamp, lastEditedAt events = .str stamp ∧ e.stamp ≤ stamp := by
  have hmem : e ∈ events.filter IssueEvent.isEdit := List.mem_filter.mpr ⟨he, hedit⟩
  have hsorted := hsorted.filter IssueEvent.isEdit
  rw [lastEditedAt]
  generalize events.filter IssueEvent.isEdit = edits at hmem hsorted
  rcases List.eq_nil_or_concat edits with rfl | ⟨edits, last, rfl⟩
  · exact absurd hmem List.not_mem_nil
  · rw [List.concat_eq_append] at hmem hsorted ⊢
    refine ⟨last.stamp, by simp, ?_⟩
    rcases List.mem_append.mp hmem with hold | hlast
    · exact (List.pairwise_append.mp hsorted).2.2 e hold last List.mem_cons_self
    · rw [List.mem_singleton.mp hlast]

lemma empty_le (s : String) : "" ≤ s := by
  refine not_lt.mp fun h => ?_
  rw [String.lt_iff_toList_lt] at h
  exact List.not_lt_nil _ h

/-- What is left of the labellings after the first ones belongs to what is left of the events. -/
lemma drop_filterMap_node (events : List IssueEvent) (k : ℕ) :
    ∃ early late, events = early ++ late ∧
      (events.filterMap IssueEvent.node).drop k = late.filterMap IssueEvent.node := by
  induction events generalizing k with
  | nil => exact ⟨[], [], rfl, List.drop_nil⟩
  | cons e events ih =>
      cases hnode : e.node with
      | none =>
          obtain ⟨early, late, rfl, hdrop⟩ := ih k
          exact ⟨e :: early, late, rfl, by rw [List.filterMap_cons_none hnode, hdrop]⟩
      | some node =>
          cases k with
          | zero => exact ⟨[], e :: events, rfl, rfl⟩
          | succ k =>
              obtain ⟨early, late, rfl, hdrop⟩ := ih k
              exact ⟨e :: early, late, rfl, by rw [List.filterMap_cons_some hnode, List.drop_succ_cons, hdrop]⟩

/-- A labelling in front of the loop over the timeline. -/
lemma latestLabel_node (queuedLabel : String) (latest : String × Json) (e : IssueEvent) (node : Json)
    (hnode : e.node = some node) :
    (e.isTrigger queuedLabel = false ∧ latestLabel queuedLabel latest node = latest) ∨
      ∃ login, e.change = .labeled queuedLabel login ∧ (latest.1 ≤ e.stamp →
        latestLabel queuedLabel latest node = (e.stamp, .str (login.getD ""))) := by
  obtain ⟨stamp, new | ⟨name, login⟩⟩ := e
  · cases hnode
  · cases hnode
    by_cases hname : name = queuedLabel
    · subst hname
      refine Or.inr ⟨login, rfl, fun hle => ?_⟩
      cases login with
      | none => exact if_pos ⟨rfl, hle⟩
      | some login => exact if_pos ⟨rfl, hle⟩
    · refine Or.inl ⟨by simp [IssueEvent.isTrigger, hname], ?_⟩
      exact if_neg fun h => hname h.1

/-- **The loop over the timeline** ends with the last time the trigger label was put on. -/
lemma foldl_latestLabel (queuedLabel : String) {events : List IssueEvent}
    (hsorted : events.Pairwise fun a b => a.stamp ≤ b.stamp) :
    ((events.filterMap IssueEvent.node).foldl (latestLabel queuedLabel) ("", .str "") = ("", .str "")) ∨
      ∃ before stamp login after, events = before ++ ⟨stamp, .labeled queuedLabel login⟩ :: after ∧
        (∀ e ∈ after, e.isTrigger queuedLabel = false) ∧
        (events.filterMap IssueEvent.node).foldl (latestLabel queuedLabel) ("", .str "") =
          (stamp, .str (login.getD "")) := by
  induction events using List.reverseRecOn with
  | nil => exact Or.inl rfl
  | append_singleton events e ih =>
      obtain ⟨hsorted, -, hlast⟩ := List.pairwise_append.mp hsorted
      have ih := ih hsorted
      rw [List.filterMap_append, List.foldl_append]
      cases hnode : e.node with
      | none =>
          have hother : e.isTrigger queuedLabel = false := by
            obtain ⟨stamp, new | ⟨name, login⟩⟩ := e
            · rfl
            · cases hnode
          rw [List.filterMap_cons_none hnode, List.filterMap_nil, List.foldl_nil]
          rcases ih with hnone | ⟨before, stamp, login, after, rfl, hafter, hfold⟩
          · exact Or.inl hnone
          · refine Or.inr ⟨before, stamp, login, after ++ [e], by simp, ?_, hfold⟩
            exact List.forall_mem_append.mpr ⟨hafter, List.forall_mem_singleton.mpr hother⟩
      | some node =>
          rw [List.filterMap_cons_some hnode, List.filterMap_nil, List.foldl_cons, List.foldl_nil]
          rcases latestLabel_node queuedLabel
            ((events.filterMap IssueEvent.node).foldl (latestLabel queuedLabel) ("", .str "")) e node hnode with
            ⟨hother, hsame⟩ | ⟨login, hchange, hlatest⟩
          · rw [hsame]
            rcases ih with hnone | ⟨before, stamp, login, after, rfl, hafter, hfold⟩
            · exact Or.inl hnone
            · refine Or.inr ⟨before, stamp, login, after ++ [e], by simp, ?_, hfold⟩
              exact List.forall_mem_append.mpr ⟨hafter, List.forall_mem_singleton.mpr hother⟩
          · refine Or.inr ⟨events, e.stamp, login, [], ?_, List.forall_mem_nil _, hlatest ?_⟩
            · rw [← hchange]
            · rcases ih with hnone | ⟨before, stamp, login, after, rfl, -, hfold⟩
              · rw [hnone]
                exact empty_le _
              · rw [hfold]
                exact hlast ⟨stamp, .labeled queuedLabel login⟩ (by simp) e List.mem_cons_self

lemma timelineNodes_arr {issue : Json} {nodes : List Json}
    (h : (issue.field "timelineItems").field "nodes" = .arr nodes) : timelineNodes issue = .ok nodes := by
  rw [timelineNodes, h]
  cases nodes with
  | nil => rfl
  | cons node nodes => rfl

/-- What the check makes of a timeline that it can read. -/
lemma verify_timeline {config : GitHubIntakeConfig} {repo : String} {events : List IssueEvent} {auth : Authorization}
    (h : verifyAuthorization config repo (.value (timelineJson events)) = .ok auth) (hok : auth.ok = true) :
    auth = judgeTimeline config.queuedLabel ((lastFifty (events.filterMap IssueEvent.node)).foldl
      (latestLabel config.queuedLabel) ("", .str "")) (lastEditedAt events) := by
  unfold verifyAuthorization at h
  split_ifs at h with hrepo
  · cases h
    cases hok
  · obtain ⟨issue, hissue, h⟩ := Except.bind_eq_ok h
    cases hissue
    obtain ⟨nodes, hnodes, hauth⟩ := Except.bind_eq_ok h
    cases (timelineNodes_arr rfl).symm.trans hnodes
    cases hauth
    rfl

/-- A judgement that passes: there is a labelling, and no edit after it. -/
lemma judgeTimeline_ok {queuedLabel : String} {latest : String × Json} {editedAt : Json}
    (h : (judgeTimeline queuedLabel latest editedAt).ok = true) :
    latest.1 ≠ "" ∧ (judgeTimeline queuedLabel latest editedAt).actor = latest.2 ∧
      (judgeTimeline queuedLabel latest editedAt).labeledAt = latest.1 ∧
      ∀ stamp, editedAt = .str stamp → stamp ≤ latest.1 := by
  by_cases hnone : latest.1 = ""
  · simp [judgeTimeline, hnone] at h
  cases editedAt with
  | str stamp =>
      by_cases hlt : latest.1 < stamp
      · simp [judgeTimeline, hnone, hlt] at h
      · refine ⟨hnone, by simp [judgeTimeline, hnone, hlt], by simp [judgeTimeline, hnone, hlt], ?_⟩
        rintro _ ⟨⟩
        exact not_lt.mp hlt
  | _ => exact ⟨hnone, by simp [judgeTimeline, hnone], by simp [judgeTimeline, hnone], by rintro _ ⟨⟩⟩

/-- **An authorization that passes** grants what the label was put on. -/
lemma grants_of_verify {config : GitHubIntakeConfig} {repo : String} {events : List IssueEvent} {reply : Reply}
    {auth : Authorization} (hsorted : events.Pairwise fun a b => a.stamp ≤ b.stamp)
    (h : verifyAuthorization config repo (reply.answer events) = .ok auth) (hok : auth.ok = true) :
    Grants config.queuedLabel events auth := by
  cases reply with
  | failed error =>
      unfold verifyAuthorization at h
      split_ifs at h <;> cases h <;> cases hok
  | unparseable exc =>
      unfold verifyAuthorization at h
      split_ifs at h <;> cases h <;> cases hok
  | timeline =>
      have hauth := verify_timeline h hok
      -- the loop goes through the last fifty labellings, which are those of the later events
      obtain ⟨early, late, rfl, hdrop⟩ :=
        drop_filterMap_node events ((events.filterMap IssueEvent.node).length - 50)
      rw [lastFifty, hdrop] at hauth
      rcases foldl_latestLabel config.queuedLabel (List.pairwise_append.mp hsorted).2.1 with
        hnone | ⟨before, stamp, login, after, rfl, hafter, hfold⟩
      · rw [hauth, hnone] at hok
        exact absurd rfl (judgeTimeline_ok hok).1
      · rw [hfold] at hauth
        obtain ⟨-, hactor, hlabeled, hedited⟩ := judgeTimeline_ok (hauth ▸ hok)
        rw [← hauth] at hactor hlabeled
        refine ⟨early ++ before, login, after, ?_, hactor, hafter, fun e he hedit => ?_⟩
        · rw [hlabeled, List.append_assoc]
        · have hmem : e ∈ early ++ (before ++ ⟨stamp, .labeled config.queuedLabel login⟩ :: after) := by simp [he]
          obtain ⟨last, hlast, hle⟩ := lastEditedAt_le hsorted hmem hedit
          have hge := (List.pairwise_cons.mp (List.pairwise_append.mp
            (List.pairwise_append.mp hsorted).2.1).2.1).1 e he
          rw [hlabeled]
          exact le_antisymm (hle.trans (hedited last hlast)) hge

/-! ## What a sync knows -/

section Runs

variable {letters : Letters} {config : GitHubIntakeConfig} {w w' : SyncWorld} {sync sync' : Sync}

/-- A labelling that is not refused passed, and is by someone who may. -/
lemma ok_of_refusal {auth : Authorization} (h : authorizationRefusal letters config auth = .ok "") :
    auth.ok = true ∧ (config.allowedActors = [] ∨ ∀ actor, auth.actor = .str actor →
      actorAllowed letters config actor = true) := by
  unfold authorizationRefusal at h
  split_ifs at h with hok hreason hall
  · exact absurd (Except.ok.inj h) (by decide)
  · exact absurd (Except.ok.inj h) hreason
  · exact ⟨by simpa using hok, Or.inl hall⟩
  · refine ⟨by simpa using hok, Or.inr fun actor hactor => ?_⟩
    obtain ⟨allowed, hallowed, h⟩ := Except.bind_eq_ok h
    rw [hactor] at hallowed
    cases hallowed
    split_ifs at h with hmay
    · exact hmay
    · -- the text of a refusal is not empty
      have h := congrArg String.length (Except.ok.inj h)
      simp only [String.length_append] at h
      exact absurd h (by simp)

/-- What a sync holds of the issues is what they were. -/
structure Sync.Read (config : GitHubIntakeConfig) (w : SyncWorld) (sync : Sync) : Prop where
  polled : ∀ issue ∈ sync.issues, sync.polledAt issue.number ≤ (w.history issue.number).length ∧
    issue.body = bodyAt (w.first issue.number) ((w.history issue.number).take (sync.polledAt issue.number))
  checked : ∀ number auth, sync.checked.lookup number = some auth →
    sync.readAt number ≤ (w.history number).length ∧
      (auth.ok = true → Grants config.queuedLabel ((w.history number).take (sync.readAt number)) auth)

/-- The issue was polled, and its labelling authorizes it. -/
def Sync.Cleared (letters : Letters) (config : GitHubIntakeConfig) (sync : Sync) (entry : PlannedIssue) : Prop :=
  entry.issue ∈ sync.issues ∧ ∃ auth, sync.checked.lookup entry.issue.number = some auth ∧
    authorizationRefusal letters config auth = .ok ""

/-- What is true of a sync in its phase. -/
def SyncWorld.Knows (letters : Letters) (config : GitHubIntakeConfig) (w : SyncWorld) : SyncPhase → Prop
  | .idle => True
  | .polling _ sync => sync.Read config w
  | .planning _ _ _ todo planned sync => sync.Read config w ∧ (∀ issue ∈ todo, issue ∈ sync.issues) ∧
      ∀ entry ∈ planned, entry.decision.admits = true → sync.Cleared letters config entry
  | .committing todo sync => sync.Read config w ∧ ∀ entry ∈ todo, sync.Cleared letters config entry

/-- What was handed over was polled, and a labelling authorized it. -/
def Handed.Cleared (letters : Letters) (config : GitHubIntakeConfig) (w : SyncWorld) (a : Handed) : Prop :=
  a.polledAt ≤ (w.history a.issue.number).length ∧ a.readAt ≤ (w.history a.issue.number).length ∧
    a.issue.body = bodyAt (w.first a.issue.number) ((w.history a.issue.number).take a.polledAt) ∧
    ∃ auth, Grants config.queuedLabel ((w.history a.issue.number).take a.readAt) auth ∧
      authorizationRefusal letters config auth = .ok ""

/-- **The invariant.** -/
structure Traced (letters : Letters) (config : GitHubIntakeConfig) (w : SyncWorld) : Prop where
  sorted : ∀ number, (w.history number).Pairwise fun a b => a.stamp ≤ b.stamp
  past : ∀ number, ∀ e ∈ w.history number, e.stamp ≤ w.now
  knows : w.Knows letters config w.phase
  handed : ∀ a ∈ w.handed, a.Cleared letters config w

/-- The histories have grown. -/
def Grown (w w' : SyncWorld) : Prop :=
  w'.first = w.first ∧ ∀ number, ∃ more, w'.history number = w.history number ++ more

lemma Grown.of_eq (hfirst : w'.first = w.first) (hhistory : w'.history = w.history) : Grown w w' :=
  ⟨hfirst, fun number => ⟨[], by rw [hhistory, List.append_nil]⟩⟩

lemma Grown.take (h : Grown w w') {number : ℤ} {n : ℕ} (hn : n ≤ (w.history number).length) :
    n ≤ (w'.history number).length ∧ (w'.history number).take n = (w.history number).take n := by
  obtain ⟨more, hmore⟩ := h.2 number
  rw [hmore, List.length_append, List.take_append_of_le_length hn]
  exact ⟨by omega, rfl⟩

lemma Sync.Read.grow (h : sync.Read config w) (hgrown : Grown w w') : sync.Read config w' where
  polled issue hissue := by
    obtain ⟨hle, hbody⟩ := h.polled issue hissue
    obtain ⟨hle', htake⟩ := hgrown.take hle
    exact ⟨hle', by rw [htake, hgrown.1]; exact hbody⟩
  checked number auth hauth := by
    obtain ⟨hle, hgrants⟩ := h.checked number auth hauth
    obtain ⟨hle', htake⟩ := hgrown.take hle
    exact ⟨hle', by rw [htake]; exact hgrants⟩

lemma Handed.Cleared.grow {a : Handed} (h : a.Cleared letters config w) (hgrown : Grown w w') :
    a.Cleared letters config w' := by
  obtain ⟨hpolled, hread, hbody, hauth⟩ := h
  obtain ⟨hpolled', htake⟩ := hgrown.take hpolled
  obtain ⟨hread', htake'⟩ := hgrown.take hread
  exact ⟨hpolled', hread', by rw [htake, hgrown.1]; exact hbody, by rw [htake']; exact hauth⟩

lemma SyncWorld.Knows.grow {phase : SyncPhase} (h : w.Knows letters config phase) (hgrown : Grown w w') :
    w'.Knows letters config phase := by
  cases phase with
  | idle => trivial
  | polling ladder sync => exact Sync.Read.grow h hgrown
  | planning ladder exhausted final todo planned sync => exact ⟨h.1.grow hgrown, h.2⟩
  | committing todo sync => exact ⟨h.1.grow hgrown, h.2⟩

/-- A step that leaves GitHub and the account alone. -/
lemma Traced.inside (h : Traced letters config w) {store : Checkout} {phase : SyncPhase}
    (hphase : w.Knows letters config phase) :
    Traced letters config { w with store := store, phase := phase } where
  sorted := h.sorted
  past := h.past
  knows := hphase.grow (.of_eq rfl rfl)
  handed a ha := (h.handed a ha).grow (.of_eq rfl rfl)

/-! ### The steps -/

lemma Traced.tick (h : Traced letters config w) {now : String} (hnow : w.now ≤ now) :
    Traced letters config { w with now := now } where
  sorted := h.sorted
  past number e he := (h.past number e he).trans hnow
  knows := h.knows.grow (.of_eq rfl rfl)
  handed a ha := (h.handed a ha).grow (.of_eq rfl rfl)

/-- Whatever happens to an issue is stamped by the clock. -/
lemma Traced.change (h : Traced letters config w) (number : ℤ) (change : Change) :
    Traced letters config { w with
      history := Function.update w.history number (w.history number ++ [⟨w.now, change⟩]) } := by
  have hgrown : Grown w { w with
      history := Function.update w.history number (w.history number ++ [⟨w.now, change⟩]) } := by
    refine ⟨rfl, fun other => ?_⟩
    by_cases hother : other = number
    · subst hother
      exact ⟨[⟨w.now, change⟩], Function.update_self _ _ _⟩
    · exact ⟨[], by rw [List.append_nil]; exact Function.update_of_ne hother _ _⟩
  refine ⟨fun other => ?_, fun other e he => ?_, h.knows.grow hgrown, fun a ha => (h.handed a ha).grow hgrown⟩
  · by_cases hother : other = number
    · subst hother
      simp only [Function.update_self]
      refine List.pairwise_append.mpr ⟨h.sorted other, List.pairwise_singleton _ _, fun a ha b hb => ?_⟩
      rw [List.mem_singleton.mp hb]
      exact h.past other a ha
    · simp only [Function.update_of_ne hother]
      exact h.sorted other
  · by_cases hother : other = number
    · subst hother
      simp only [Function.update_self, List.mem_append, List.mem_singleton] at he
      rcases he with he | rfl
      · exact h.past other e he
      · exact le_rfl
    · simp only [Function.update_of_ne hother] at he
      exact h.past other e he

/-- **A poll** holds what the issues are. -/
lemma Traced.poll (h : Traced letters config w) {ladder : List ℤ} (hknows : sync.Read config w)
    {issues : List RemoteIssue} (exhausted : Bool)
    (hbodies : ∀ issue ∈ issues, issue.body = bodyAt (w.first issue.number) (w.history issue.number)) :
    Traced letters config { w with
      phase := .planning ladder exhausted false issues []
        { sync with issues := issues, polledAt := fun number => (w.history number).length } } := by
  refine h.inside ⟨⟨fun issue hissue => ⟨le_rfl, ?_⟩, hknows.checked⟩, fun _ => id, List.forall_mem_nil _⟩
  rw [List.take_length]
  exact hbodies issue hissue

section Authorize

variable {number : ℤ} {reply : Reply} {auth : Authorization}

/-- A labelling is read once, and from then on held. -/
lemma Sync.authorize_ok (h : sync.authorize config number (w.history number) reply = .ok (auth, sync')) :
    sync'.issues = sync.issues ∧ sync'.polledAt = sync.polledAt ∧ sync'.checked.lookup number = some auth ∧
      (∀ other a, sync.checked.lookup other = some a → sync'.checked.lookup other = some a) ∧
      ∀ other a, sync'.checked.lookup other = some a →
        (sync.checked.lookup other = some a ∧ sync'.readAt other = sync.readAt other) ∨
          other = number ∧ sync'.readAt other = (w.history number).length ∧
            verifyAuthorization config sync.repo (reply.answer (w.history number)) = .ok a := by
  unfold Sync.authorize at h
  cases hlookup : sync.checked.lookup number with
  | some known =>
      rw [hlookup] at h
      cases h
      exact ⟨rfl, rfl, hlookup, fun _ _ => id, fun _ _ h => Or.inl ⟨h, rfl⟩⟩
  | none =>
      rw [hlookup] at h
      obtain ⟨new, hnew, hpair⟩ := Except.map_eq_ok h
      cases hpair
      refine ⟨rfl, rfl, Keyed.lookup_cons_self _ _ _, fun other a hother => ?_, fun other a hother => ?_⟩
      · have hne : other ≠ number := by
          rintro rfl
          rw [hlookup] at hother
          cases hother
        exact (Keyed.lookup_cons_ne hne _ _).trans hother
      · by_cases hne : other = number
        · subst hne
          rw [show _ = some auth from Keyed.lookup_cons_self _ _ _] at hother
          cases hother
          exact Or.inr ⟨rfl, Function.update_self _ _ _, hnew⟩
        · rw [show List.lookup other _ = _ from Keyed.lookup_cons_ne hne _ _] at hother
          exact Or.inl ⟨hother, Function.update_of_ne hne _ _⟩

/-- What is read of a labelling is what it grants. -/
lemma Sync.Read.authorize (hread : sync.Read config w)
    (hsorted : ∀ number, (w.history number).Pairwise fun a b => a.stamp ≤ b.stamp)
    (h : sync.authorize config number (w.history number) reply = .ok (auth, sync')) : sync'.Read config w := by
  obtain ⟨hissues, hpolled, -, -, hold⟩ := Sync.authorize_ok h
  refine ⟨fun issue hissue => ?_, fun other a hother => ?_⟩
  · rw [hpolled]
    exact hread.polled issue (hissues ▸ hissue)
  · rcases hold other a hother with ⟨hlookup, hat⟩ | ⟨rfl, hat, hverify⟩
    · rw [hat]
      exact hread.checked other a hlookup
    · rw [hat, List.take_length]
      exact ⟨le_rfl, grants_of_verify (hsorted other) hverify⟩

lemma Sync.Cleared.authorize {entry : PlannedIssue} (hcleared : sync.Cleared letters config entry)
    (h : sync.authorize config number (w.history number) reply = .ok (auth, sync')) :
    sync'.Cleared letters config entry := by
  obtain ⟨hissues, -, -, hkept, -⟩ := Sync.authorize_ok h
  obtain ⟨hissue, known, hlookup, hrefusal⟩ := hcleared
  exact ⟨hissues ▸ hissue, known, hkept _ _ hlookup, hrefusal⟩

end Authorize

section Plan

variable {ladder : List ℤ} {exhausted final : Bool} {issue : RemoteIssue} {todo : List RemoteIssue}
  {planned : List PlannedIssue}

/-- A decision without an authorization admits nothing. -/
lemma skipOf_admits {ledger : ProcessedLedger} {taken : String → Bool} {admitted : ℤ} {decision : Decision}
    {reason repo : String} (h : skipOf config repo ledger taken admitted issue = some (decision, reason)) :
    decision.admits = false := by
  unfold skipOf at h
  split_ifs at h <;> cases h <;> rfl

lemma Traced.skip (h : Traced letters config w)
    (hknows : w.Knows letters config (.planning ladder exhausted final (issue :: todo) planned sync))
    {entry : PlannedIssue} (hskip : entry.decision.admits = false) :
    Traced letters config { w with phase := .planning ladder exhausted final todo (planned ++ [entry]) sync } := by
  obtain ⟨hread, htodo, hplanned⟩ := hknows
  refine h.inside ⟨hread, fun i hi => htodo i (List.mem_cons_of_mem _ hi), fun e he hadmits => ?_⟩
  rcases List.mem_append.mp he with he | he
  · exact hplanned e he hadmits
  · rw [List.mem_singleton.mp he, hskip] at hadmits
    cases hadmits

/-- **A judgement** rests on the labelling as it was read in this sync. -/
lemma Traced.judge (h : Traced letters config w)
    (hknows : w.Knows letters config (.planning ladder exhausted final (issue :: todo) planned sync))
    {reply : Reply} {auth : Authorization} {entry : PlannedIssue}
    (hauth : sync.authorize config issue.number (w.history issue.number) reply = .ok (auth, sync'))
    (hjudge : judgeIssue letters config issue auth = .ok entry) :
    Traced letters config { w with phase := .planning ladder exhausted final todo (planned ++ [entry]) sync' } := by
  obtain ⟨hread, htodo, hplanned⟩ := hknows
  obtain ⟨hissues, -, hlookup, -, -⟩ := Sync.authorize_ok hauth
  obtain ⟨rfl, -, hadmitted⟩ := judgeIssue_ok hjudge
  refine h.inside ⟨hread.authorize h.sorted hauth, fun i hi => hissues ▸ htodo i (List.mem_cons_of_mem _ hi),
    fun e he hadmits => ?_⟩
  rcases List.mem_append.mp he with he | he
  · exact (hplanned e he hadmits).authorize hauth
  · obtain rfl := List.mem_singleton.mp he
    exact ⟨hissues ▸ htodo _ List.mem_cons_self, auth, hlookup, hadmitted.mp hadmits⟩

end Plan

/-- A step of the planning is `planIssue`, with the queue of the moment and the labellings that are held. -/
lemma consider_planIssue {ladder : List ℤ} {exhausted final : Bool} {issue : RemoteIssue} {todo : List RemoteIssue}
    {planned : List PlannedIssue} {reply : Reply}
    (hphase : w.phase = .planning ladder exhausted final (issue :: todo) planned sync)
    (hstep : SyncStep letters config w (.consider reply) w') :
    w'.phase = .idle ∨ ∃ entry sync', w'.phase = .planning ladder exhausted final todo (planned ++ [entry]) sync' ∧
      planIssue letters config sync.repo sync.ledger (inQueue w.store.queue)
        (fun issue => (sync.authorize config issue.number (w.history issue.number) reply).map Prod.fst)
        (admittedOf planned) issue = .ok entry := by
  simp only [SyncStep, SyncWorld.next, hphase] at hstep
  unfold planIssue
  cases hskip : skipOf config sync.repo sync.ledger (inQueue w.store.queue) (admittedOf planned) issue with
  | some skip =>
      rw [hskip] at hstep
      cases hstep
      exact Or.inr ⟨_, _, rfl, rfl⟩
  | none =>
      rw [hskip] at hstep
      cases hauth : sync.authorize config issue.number (w.history issue.number) reply with
      | error e =>
          rw [hauth] at hstep
          cases hstep
          exact Or.inl rfl
      | ok pair =>
          obtain ⟨auth, sync'⟩ := pair
          rw [hauth] at hstep
          cases hjudge : judgeIssue letters config issue auth with
          | error e =>
              simp only [hjudge] at hstep
              cases hstep
              exact Or.inl rfl
          | ok entry =>
              simp only [hjudge] at hstep
              cases hstep
              exact Or.inr ⟨entry, sync', rfl, by simp only [hauth]; exact hjudge⟩

/-- **What is handed over** was cleared. -/
lemma Traced.enqueue (h : Traced letters config w) {entry : PlannedIssue} {todo : List PlannedIssue}
    (hknows : w.Knows letters config (.committing (entry :: todo) sync)) (store : Checkout)
    (exit : Exit IntakeError (ProcessedLedger × Verdict)) :
    Traced letters config { w with
      store := store
      handed := w.handed ++ [⟨entry.issue, sync.polledAt entry.issue.number, sync.readAt entry.issue.number⟩]
      phase := .afterEnqueue todo sync exit } := by
  obtain ⟨hread, htodo⟩ := hknows
  obtain ⟨hentry, htodo⟩ := List.forall_mem_cons.mp htodo
  refine ⟨h.sorted, h.past, ?_, fun a ha => ?_⟩
  · cases exit with
    | done r => exact ⟨⟨hread.polled, hread.checked⟩, htodo⟩
    | raised e => trivial
    | crashed => trivial
  · rcases List.mem_append.mp ha with ha | ha
    · exact (h.handed a ha).grow (.of_eq rfl rfl)
    · obtain rfl := List.mem_singleton.mp ha
      obtain ⟨hissue, auth, hlookup, hrefusal⟩ := hentry
      obtain ⟨hpolled, hbody⟩ := hread.polled _ hissue
      obtain ⟨hreadAt, hgrants⟩ := hread.checked _ auth hlookup
      exact ⟨hpolled, hreadAt, hbody, auth, hgrants (ok_of_refusal hrefusal).1, hrefusal⟩

/-- **One step** keeps the invariant. -/
theorem Traced.step (h : Traced letters config w) {a : SyncAct} (hgithub : gitHubAnswers w a = true)
    (hstep : SyncStep letters config w a w') : Traced letters config w' := by
  have hknows := h.knows
  unfold SyncStep SyncWorld.next at hstep
  cases a with
  | tick now =>
      cases hstep
      exact h.tick (by simpa [gitHubAnswers] using hgithub)
  | change number change =>
      cases hstep
      exact h.change number change
  | elsewhere store =>
      cases hstep
      exact h.inside hknows
  | begin inbox checkout =>
      dsimp only at hstep
      split at hstep
      · split_ifs at hstep
        · split at hstep
          · cases hstep
            exact h
          · cases hstep
            refine h.inside ⟨List.forall_mem_nil _, fun number auth hlookup => ?_⟩
            cases hlookup
        · cases hstep
          exact h
      · cases hstep
  | poll answer =>
      dsimp only at hstep
      split at hstep
      next limit ladder sync hphase =>
        rw [hphase] at hknows
        cases hparse : parseIssueList answer with
        | error e =>
            rw [hparse] at hstep
            cases hstep
            exact h.inside trivial
        | ok issues =>
            rw [hparse] at hstep
            cases hstep
            simp only [gitHubAnswers, hparse, List.all_eq_true, decide_eq_true_eq] at hgithub
            exact h.poll hknows _ hgithub
      · cases hstep
  | consider reply =>
      dsimp only at hstep
      split at hstep
      next ladder exhausted final issue todo planned sync hphase =>
        rw [hphase] at hknows
        split at hstep
        next decision reason hskip =>
          cases hstep
          exact h.skip hknows (skipOf_admits hskip)
        next =>
          split at hstep
          next =>
            cases hstep
            exact h.inside trivial
          next auth sync' hauth =>
            split at hstep
            next =>
              cases hstep
              exact h.inside trivial
            next entry hjudge =>
              cases hstep
              exact h.judge hknows hauth hjudge
      · cases hstep
  | turn =>
      dsimp only at hstep
      split at hstep
      next ladder exhausted planned sync hphase =>
        rw [hphase] at hknows
        split_ifs at hstep
        · cases hstep
          exact h.inside trivial
        · cases hstep
          exact h.inside ⟨⟨hknows.1.polled, hknows.1.checked⟩, fun _ => id, List.forall_mem_nil _⟩
        · cases hstep
          exact h.inside hknows.1
      next ladder exhausted planned sync hphase =>
        rw [hphase] at hknows
        cases hstep
        refine h.inside ⟨hknows.1, fun entry hentry => ?_⟩
        obtain ⟨hmem, hadmits⟩ := List.mem_filter.mp hentry
        exact hknows.2.2 entry hmem hadmits
      · cases hstep
  | enqueue stamp turn faults =>
      dsimp only at hstep
      split at hstep
      next entry todo sync hphase =>
        rw [hphase] at hknows
        cases hstep
        exact h.enqueue hknows _ _
      · cases hstep
  | stop =>
      cases hstep
      exact h.inside trivial

lemma traced_start (first : ℤ → String) (store : Checkout) : Traced letters config (.start first store) where
  sorted _ := List.Pairwise.nil
  past _ := List.forall_mem_nil _
  knows := trivial
  handed := List.forall_mem_nil _

/-! ## What is handed to the queue -/

lemma Edited.mono {events more : List IssueEvent} (h : Edited events) (hsub : ∀ e ∈ events, e ∈ more) :
    Edited more := by
  obtain ⟨e, he, hedit⟩ := h
  exact ⟨e, hsub e he, hedit⟩

/-- **Where a body can differ from the one that was labelled**: in an edit between the poll and the label, in
    one after the label within its second, or in one between the reading of the labelling and a later poll. -/
lemma body_of_grants {first : String} {history before after : List IssueEvent} {label : IssueEvent}
    {polledAt readAt : ℕ} (hread : readAt ≤ history.length) (hlabel : label.isEdit = false)
    (hsplit : history.take readAt = before ++ label :: after) (hbefore : ¬ Edited (before.drop polledAt))
    (hafter : ¬ Edited after) (hlate : ¬ Edited ((history.take polledAt).drop readAt)) :
    bodyAt first (history.take polledAt) = bodyAt first before := by
  have hnone : ¬ Edited (label :: after) := by
    rintro ⟨e, he, hedit⟩
    rcases List.mem_cons.mp he with rfl | he
    · rw [hlabel] at hedit
      cases hedit
    · exact hafter ⟨e, he, hedit⟩
  rcases Nat.lt_or_ge readAt polledAt with hlater | hearlier
  · -- polled after the labelling was read
    have hpolled : history.take polledAt = before ++ label :: after ++ (history.take polledAt).drop readAt := by
      rw [← hsplit, ← List.take_append_drop readAt (history.take polledAt), List.take_take,
        Nat.min_eq_left hlater.le, List.drop_append_of_le_length (by simp [hread])]
      simp
    rw [hpolled, bodyAt_append, bodyAt_append, bodyAt_of_not_edited hlate, bodyAt_of_not_edited hnone]
  · have hpolled : history.take polledAt = (before ++ label :: after).take polledAt := by
      rw [← hsplit, List.take_take, Nat.min_eq_left hearlier]
    rw [hpolled]
    rcases Nat.lt_or_ge before.length polledAt with hlater | hearlier
    · rw [List.take_append, List.take_of_length_le hlater.le, bodyAt_append]
      exact bodyAt_of_not_edited fun h => hnone (h.mono fun e he => List.mem_of_mem_take he)
    · rw [List.take_append_of_le_length hearlier]
      calc bodyAt first (before.take polledAt)
          = bodyAt (bodyAt first (before.take polledAt)) (before.drop polledAt) :=
            (bodyAt_of_not_edited hbefore).symm
        _ = bodyAt first before := by rw [← bodyAt_append, List.take_append_drop]

/-- **The text that is handed over.**  In every run of edits, labels and syncs, whatever else happens to the
    checkout and wherever a sync is cut off, an issue that is handed to the queue had the trigger label put on,
    the last time before its labelling was read, by someone who may; and its text is the one that label was put
    on, unless the issue was edited between the poll and the label, after the label within the same second, or
    between the reading of the labelling and a later poll of the same sync. -/
theorem handed_authorized (letters : Letters) (config : GitHubIntakeConfig) (first : ℤ → String) (store : Checkout)
    (w : SyncWorld) (run : Reaches (SyncStep letters config) (fun w a => gitHubAnswers w a = true)
      (.start first store) w) (a : Handed) (ha : a ∈ w.handed) :
    ∃ before stamp login after,
      (w.history a.issue.number).take a.readAt = before ++ ⟨stamp, .labeled config.queuedLabel login⟩ :: after ∧
      (∀ e ∈ after, e.isTrigger config.queuedLabel = false) ∧
      (config.allowedActors = [] ∨ actorAllowed letters config (login.getD "") = true) ∧
      (a.issue.body = bodyAt (w.first a.issue.number) before ∨ Edited (before.drop a.polledAt) ∨
        (∃ e ∈ after, e.isEdit = true ∧ e.stamp = stamp) ∨
        Edited (((w.history a.issue.number).take a.polledAt).drop a.readAt)) := by
  have htraced : Traced letters config w :=
    run.invariant (traced_start first store) fun _ _ _ h hgithub hstep => h.step hgithub hstep
  obtain ⟨-, hread, hbody, auth, ⟨before, login, after, hsplit, hactor, htrigger, hedits⟩, hrefusal⟩ :=
    htraced.handed a ha
  refine ⟨before, auth.labeledAt, login, after, hsplit, htrigger, ?_, ?_⟩
  · exact (ok_of_refusal hrefusal).2.imp_right fun hmay => hmay _ hactor
  by_cases hbefore : Edited (before.drop a.polledAt)
  · exact Or.inr (Or.inl hbefore)
  by_cases hafter : Edited after
  · obtain ⟨e, he, hedit⟩ := hafter
    exact Or.inr (Or.inr (Or.inl ⟨e, he, hedit, hedits e he hedit⟩))
  by_cases hlate : Edited (((w.history a.issue.number).take a.polledAt).drop a.readAt)
  · exact Or.inr (Or.inr (Or.inr hlate))
  · exact Or.inl (hbody.trans (body_of_grants hread rfl hsplit hbefore hafter hlate))

end Runs

/-! ### A run on fixed inputs -/

def samplePage (body : String) : Answer :=
  .value (.arr [.obj [("number", .int 7), ("title", .str "tabs"), ("body", .str body)]])

def sampleView : Answer := .value (.obj [("nameWithOwner", .str "o/r")])

/-- The issue is polled, edited and labelled again before its labelling is read. -/
def sampleSync : List SyncAct :=
  [.tick "2026-09-02T16:11:25Z", .change 7 (.labeled "kstrl:queued" (some "ann")), .begin sampleView sampleView,
    .poll (samplePage "Use tabs."), .tick "2026-09-02T16:12:00Z", .change 7 (.edited "Use spaces."),
    .change 7 (.labeled "kstrl:queued" (some "ann")), .consider .timeline, .turn, .consider .timeline, .turn,
    .enqueue "2026-09-02T16:12:01Z" (sampleCommit "7" (by decide)) []]

/-- What is handed over is the text before the edit, and the label it rests on was put on after it. -/
theorem handed_authorized_edited : ∃ w : SyncWorld, ∃ before stamp login after,
    w.handed = [⟨sampleIssue 7 "Use tabs.", 1, 3⟩] ∧
    (w.history 7).take 3 = before ++ ⟨stamp, .labeled "kstrl:queued" login⟩ :: after ∧
    actorAllowed sampleLetters sampleIntake (login.getD "") = true := by
  have hrun : (sampleSync.foldlM (fun w a => if gitHubAnswers w a = true
      then SyncWorld.next sampleLetters sampleIntake w a else none)
        (.start (fun _ => "Use tabs.") (SteerWorld.start .missing Disk.empty).store)).map (fun w => w.handed) =
          some [⟨sampleIssue 7 "Use tabs.", 1, 3⟩] := by
    decide +kernel
  obtain ⟨w, hw, hhanded⟩ := Option.map_eq_some_iff.mp hrun
  obtain ⟨before, stamp, login, after, hsplit, -, hmay, -⟩ := handed_authorized sampleLetters sampleIntake
    (fun _ => "Use tabs.") (SteerWorld.start .missing Disk.empty).store w (Reaches.of_foldlM_if hw)
    ⟨sampleIssue 7 "Use tabs.", 1, 3⟩ (by rw [hhanded]; exact List.mem_cons_self)
  exact ⟨w, before, stamp, login, after, hhanded, hsplit, hmay.resolve_left (by decide)⟩

end Serve.Issues

end Kstrl
