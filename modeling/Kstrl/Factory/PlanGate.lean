import Kstrl.Owner.Inbox
import Kstrl.Plan.Manifest
import Kstrl.Plan.Prd

/-!
# The plan gate

`kstrl/factory/plan_gate.py`: the digest of the plan a person approves, and the gate that a run passes with it.

SHA-256 is a parameter.  The PRDs are what a reader gives at the path each component starts from.

* **`plan_of_digest`**: plans of one digest agree in every field the digest covers.
* **`planDigest_congr`**: what changes while a plan runs is not in its digest.
* **`goesOn_of_gate`**: what a run needs to go on.
-/

namespace Kstrl

namespace Factory

open Owner Manifest

/-! ## The digest -/

/-- `pre_run_prd_path`: the copy its plan wrote, or the operator's file. -/
def preRunPrdPath (comp : Component) : String :=
  if comp.planId ≠ "" then ".kstrl/plan/" ++ comp.planId ++ "/" ++ comp.id ++ "/prd.json" else comp.prdPath

/-- `PlanUnreadableError` -/
structure PlanUnreadableError where
  message : String
  deriving DecidableEq, Repr

/-- What the digest covers of a component. -/
structure PlanEntry where
  id : String
  title : String
  description : String
  dependencies : List String
  prdPath : String
  branchName : String
  planId : String
  allowedPaths : Option (List String)
  stories : List (String × String × List String)
  deriving DecidableEq

def PlanEntry.of (comp : Component) (prd : Prd) : PlanEntry where
  id := comp.id
  title := comp.title
  description := comp.description
  dependencies := sortedIds comp.dependencies
  prdPath := comp.prdPath
  branchName := comp.branchName
  planId := comp.planId
  allowedPaths := prd.allowedPaths
  stories := prd.userStories.map fun story => (story.id, story.title, story.acceptanceCriteria)

/-- A list of strings. -/
def stringsJson (l : List String) : Json := .arr (l.map .str)

/-- An entry, its keys sorted. -/
def PlanEntry.toJson (e : PlanEntry) : Json :=
  .obj
    [("allowedPaths", e.allowedPaths.elim .null stringsJson),
      ("branchName", .str e.branchName),
      ("dependencies", stringsJson e.dependencies),
      ("description", .str e.description),
      ("id", .str e.id),
      ("planId", .str e.planId),
      ("prdPath", .str e.prdPath),
      ("stories", .arr (e.stories.map fun story =>
        .arr [.str story.1, .str story.2.1, stringsJson story.2.2])),
      ("title", .str e.title)]

/-- The components with the PRD that each starts from. -/
def readPlan (load : String → Except String Prd) (components : List Component) :
    Except PlanUnreadableError (List (Component × Prd)) :=
  components.mapM fun comp =>
    match load (preRunPrdPath comp) with
    | .ok prd => .ok (comp, prd)
    | .error exc => .error ⟨preRunPrdPath comp ++ ": " ++ exc⟩

/-- A plan made under a `[stack]` is approved together with it. -/
def withStack (stackDigest : String) (plan : Json) : Json :=
  if stackDigest = "" then plan else .obj [("components", plan), ("stackDigest", .str stackDigest)]

/-- The run's acceptance plan, when there is one. -/
def withAcceptance (acceptanceDigest : String) (approved : Json) : Json :=
  if acceptanceDigest = "" then approved
  else .obj [("acceptanceDigest", .str acceptanceDigest), ("withoutAcceptance", approved)]

/-- What a person approves. -/
def approvedPlan (plan : List (Component × Prd)) (stackDigest acceptanceDigest : String) : Json :=
  withAcceptance acceptanceDigest
    (withStack stackDigest (.arr (plan.map fun entry => (PlanEntry.of entry.1 entry.2).toJson)))

section Digest

variable (sha256 : List Char → String)

/-- SHA-256 of the plan a person approves. -/
def planDigest (load : String → Except String Prd) (manifest : Manifest) (acceptanceDigest : String) :
    Except PlanUnreadableError String :=
  (readPlan load manifest.components).map fun plan =>
    sha256 (Json.Layout.compact.write 0 (approvedPlan plan manifest.stackDigest acceptanceDigest))

end Digest

/-! ## The digest covers the plan -/

lemma stringsJson_wellFormed (l : List String) : (stringsJson l).WellFormed :=
  Json.strings_wellFormed l

lemma PlanEntry.toJson_wellFormed (e : PlanEntry) : e.toJson.WellFormed := by
  have hstories : (Json.arr (e.stories.map fun story =>
      .arr [.str story.1, .str story.2.1, stringsJson story.2.2])).WellFormed := by
    refine Json.allWellFormed_map (fun story => ?_) e.stories
    exact ⟨trivial, trivial, stringsJson_wellFormed story.2.2, trivial⟩
  have hpaths : (e.allowedPaths.elim .null stringsJson).WellFormed := by
    cases e.allowedPaths with
    | none => trivial
    | some paths => exact stringsJson_wellFormed paths
  exact ⟨by simp, hpaths, trivial, stringsJson_wellFormed _, trivial, trivial, trivial, trivial, hstories, trivial,
    trivial⟩

lemma approvedPlan_wellFormed (plan : List (Component × Prd)) (stackDigest acceptanceDigest : String) :
    (approvedPlan plan stackDigest acceptanceDigest).WellFormed := by
  have hplan : (Json.arr (plan.map fun entry => (PlanEntry.of entry.1 entry.2).toJson)).WellFormed :=
    Json.allWellFormed_map (fun entry => PlanEntry.toJson_wellFormed _) plan
  rw [approvedPlan, withAcceptance, withStack]
  split_ifs
  · exact hplan
  · exact ⟨by simp, hplan, trivial, trivial⟩
  · exact ⟨by simp, trivial, hplan, trivial⟩
  · exact ⟨by simp, trivial, ⟨by simp, hplan, trivial, trivial⟩, trivial⟩

lemma stringsJson_injective : Function.Injective stringsJson := by
  intro l l' h
  exact List.map_injective_iff.mpr (fun _ _ hs => Json.str.inj hs) (Json.arr.inj h)

lemma PlanEntry.toJson_injective : Function.Injective PlanEntry.toJson := by
  rintro ⟨id, title, description, dependencies, prdPath, branchName, planId, allowedPaths, stories⟩
    ⟨id', title', description', dependencies', prdPath', branchName', planId', allowedPaths', stories'⟩ h
  simp only [toJson, Json.obj.injEq, List.cons.injEq, Prod.mk.injEq, true_and, and_true, Json.str.injEq,
    Json.arr.injEq] at h
  obtain ⟨hpaths, rfl, hdependencies, rfl, rfl, rfl, rfl, hstories, rfl⟩ := h
  obtain rfl := stringsJson_injective hdependencies
  have hpathsEq : allowedPaths = allowedPaths' := by
    cases allowedPaths with
    | none =>
        cases allowedPaths' with
        | none => rfl
        | some paths => cases hpaths
    | some paths =>
        cases allowedPaths' with
        | none => cases hpaths
        | some paths' => exact congrArg some (stringsJson_injective hpaths)
  obtain rfl := hpathsEq
  have hstory : Function.Injective fun story : String × String × List String =>
      Json.arr [.str story.1, .str story.2.1, stringsJson story.2.2] := by
    rintro ⟨a, b, c⟩ ⟨a', b', c'⟩ he
    simp only [Json.arr.injEq, List.cons.injEq, Json.str.injEq, and_true] at he
    obtain ⟨rfl, rfl, hc⟩ := he
    rw [stringsJson_injective hc]
  rw [List.map_injective_iff.mpr hstory hstories]

/-- What is approved together with a plan is read off what is approved. -/
lemma approved_injective {plan plan' : List Json} {stackDigest stackDigest' acceptanceDigest acceptanceDigest' : String}
    (h : withAcceptance acceptanceDigest (withStack stackDigest (.arr plan))
      = withAcceptance acceptanceDigest' (withStack stackDigest' (.arr plan'))) :
    acceptanceDigest = acceptanceDigest' ∧ stackDigest = stackDigest' ∧ plan = plan' := by
  rw [withAcceptance, withAcceptance, withStack, withStack] at h
  split_ifs at h <;> simp_all

/-- **Texts of one digest are of one plan.** -/
lemma plan_of_text {plan plan' : List (Component × Prd)}
    {stackDigest stackDigest' acceptanceDigest acceptanceDigest' : String}
    (h : Json.Layout.compact.write 0 (approvedPlan plan stackDigest acceptanceDigest)
      = Json.Layout.compact.write 0 (approvedPlan plan' stackDigest' acceptanceDigest')) :
    acceptanceDigest = acceptanceDigest' ∧ stackDigest = stackDigest' ∧
      plan.map (fun entry => PlanEntry.of entry.1 entry.2) = plan'.map fun entry => PlanEntry.of entry.1 entry.2 := by
  have hread := Json.Layout.compact.loads_line _ (approvedPlan_wellFormed plan stackDigest acceptanceDigest)
  rw [h, Json.Layout.compact.loads_line _ (approvedPlan_wellFormed plan' stackDigest' acceptanceDigest')] at hread
  obtain ⟨hacceptance, hstack, hplan⟩ := approved_injective (Option.some.inj hread)
  refine ⟨hacceptance.symm, hstack.symm, List.map_injective_iff.mpr PlanEntry.toJson_injective ?_⟩
  rw [List.map_map, List.map_map]
  exact hplan.symm

/-- Two components and their PRDs that one digest stands for. -/
structure SamePlan (a b : Component × Prd) : Prop where
  id : a.1.id = b.1.id
  title : a.1.title = b.1.title
  description : a.1.description = b.1.description
  dependencies : a.1.dependencies.Perm b.1.dependencies
  prdPath : a.1.prdPath = b.1.prdPath
  branchName : a.1.branchName = b.1.branchName
  planId : a.1.planId = b.1.planId
  allowedPaths : a.2.allowedPaths = b.2.allowedPaths
  storyIds : a.2.userStories.map UserStory.id = b.2.userStories.map UserStory.id
  storyTitles : a.2.userStories.map UserStory.title = b.2.userStories.map UserStory.title
  storyCriteria : a.2.userStories.map UserStory.acceptanceCriteria = b.2.userStories.map UserStory.acceptanceCriteria

lemma perm_of_sortedIds {l l' : List String} (h : sortedIds l = sortedIds l') : l.Perm l' :=
  (List.perm_insertionSort (· ≤ ·) l).symm.trans ((List.Perm.of_eq h).trans (List.perm_insertionSort (· ≤ ·) l'))

lemma samePlan_of_entry {a b : Component × Prd} (h : PlanEntry.of a.1 a.2 = PlanEntry.of b.1 b.2) : SamePlan a b := by
  have hstories := congrArg PlanEntry.stories h
  have hpart : ∀ {β : Type} (f : String × String × List String → β),
      (a.2.userStories.map fun s => f (s.id, s.title, s.acceptanceCriteria))
        = b.2.userStories.map fun s => f (s.id, s.title, s.acceptanceCriteria) := by
    intro β f
    have hmapped := congrArg (List.map f) hstories
    simpa only [PlanEntry.of, List.map_map, Function.comp_def] using hmapped
  exact ⟨congrArg PlanEntry.id h, congrArg PlanEntry.title h, congrArg PlanEntry.description h,
    perm_of_sortedIds (congrArg PlanEntry.dependencies h), congrArg PlanEntry.prdPath h,
    congrArg PlanEntry.branchName h, congrArg PlanEntry.planId h, congrArg PlanEntry.allowedPaths h,
    hpart Prod.fst, hpart fun s => s.2.1, hpart fun s => s.2.2⟩

/-- Stories of one plan whose priorities agree are no change. -/
lemma SamePlan.tamperChanges {a b : Component × Prd} (h : SamePlan a b) (hbranch : a.2.branchName = b.2.branchName)
    (hpriorities : a.2.userStories.map UserStory.priority = b.2.userStories.map UserStory.priority) :
    b.2.tamperChanges a.2 = [] := by
  refine Prd.tamperChanges_eq_nil hbranch ?_
  obtain ⟨-, -, -, -, -, -, -, -, hids, htitles, hcriteria⟩ := h
  generalize a.2.userStories = stories at *
  generalize b.2.userStories = stories' at *
  induction stories generalizing stories' with
  | nil =>
      cases stories' with
      | nil => rfl
      | cons => cases hids
  | cons s stories ih =>
      cases stories' with
      | nil => cases hids
      | cons s' stories' =>
          obtain ⟨hid, hids⟩ := List.cons.inj hids
          obtain ⟨htitle, htitles⟩ := List.cons.inj htitles
          obtain ⟨hcriterion, hcriteria⟩ := List.cons.inj hcriteria
          obtain ⟨hpriority, hpriorities⟩ := List.cons.inj hpriorities
          rw [List.map_cons, List.map_cons, ih stories' hpriorities hids htitles hcriteria]
          rw [UserStory.pinned, UserStory.pinned, hid, htitle, hcriterion, hpriority]

section Digest

variable {sha256 : List Char → String} {load load' : String → Except String Prd} {manifest manifest' : Manifest}
  {acceptanceDigest acceptanceDigest' digest : String}

/-- **Plans of one digest.** -/
theorem plan_of_digest (hsha : Function.Injective sha256) {plan plan' : List (Component × Prd)}
    (hplan : readPlan load manifest.components = .ok plan) (hplan' : readPlan load' manifest'.components = .ok plan')
    (h : planDigest sha256 load manifest acceptanceDigest = .ok digest)
    (h' : planDigest sha256 load' manifest' acceptanceDigest' = .ok digest) :
    acceptanceDigest = acceptanceDigest' ∧ manifest.stackDigest = manifest'.stackDigest ∧
      List.Forall₂ SamePlan plan plan' := by
  rw [planDigest, hplan] at h
  rw [planDigest, hplan'] at h'
  have htext := hsha ((Except.ok.inj h).trans (Except.ok.inj h').symm)
  obtain ⟨hacceptance, hstack, hentries⟩ := plan_of_text htext
  refine ⟨hacceptance, hstack, ?_⟩
  rw [← List.forall₂_eq_eq_eq, List.forall₂_map_left_iff, List.forall₂_map_right_iff] at hentries
  exact hentries.imp fun _ _ hentry => samePlan_of_entry hentry

end Digest

/-! ## What changes while a plan runs -/

/-- Components that differ in their run state alone. -/
structure SameComponent (a b : Component) : Prop where
  id : a.id = b.id
  title : a.title = b.title
  description : a.description = b.description
  dependencies : a.dependencies = b.dependencies
  prdPath : a.prdPath = b.prdPath
  branchName : a.branchName = b.branchName
  planId : a.planId = b.planId

/-- PRDs that differ in what an engineer writes alone. -/
structure SamePrd (a b : Prd) : Prop where
  allowedPaths : a.allowedPaths = b.allowedPaths
  stories : a.userStories.map UserStory.pinned = b.userStories.map UserStory.pinned

/-- Reads of such PRDs, or of none. -/
inductive SameRead : Except String Prd → Except String Prd → Prop
  | ok {a b : Prd} (h : SamePrd a b) : SameRead (.ok a) (.ok b)
  | error (exc : String) : SameRead (.error exc) (.error exc)

/-- The entries of a plan. -/
def entriesOf (plan : List (Component × Prd)) : List PlanEntry := plan.map fun entry => PlanEntry.of entry.1 entry.2

lemma entry_congr {a b : Component} {p q : Prd} (hcomp : SameComponent a b) (hprd : SamePrd p q) :
    PlanEntry.of a p = PlanEntry.of b q := by
  have hstories : p.userStories.map (fun s => (s.id, s.title, s.acceptanceCriteria))
      = q.userStories.map fun s => (s.id, s.title, s.acceptanceCriteria) := by
    have hmapped := congrArg (List.map fun s : UserStory => (s.id, s.title, s.acceptanceCriteria)) hprd.stories
    simpa only [List.map_map, Function.comp_def, UserStory.pinned] using hmapped
  rw [PlanEntry.of, PlanEntry.of, hcomp.id, hcomp.title, hcomp.description, hcomp.dependencies, hcomp.prdPath,
    hcomp.branchName, hcomp.planId, hprd.allowedPaths, hstories]

/-- The reading of a plan, component by component. -/
lemma readPlan_cons (load : String → Except String Prd) (comp : Component) (components : List Component) :
    (readPlan load (comp :: components)).map entriesOf =
      match load (preRunPrdPath comp) with
      | .error exc => .error ⟨preRunPrdPath comp ++ ": " ++ exc⟩
      | .ok prd => ((readPlan load components).map entriesOf).map (PlanEntry.of comp prd :: ·) := by
  rw [readPlan, List.mapM_cons, ← readPlan]
  cases load (preRunPrdPath comp) with
  | error exc => rfl
  | ok prd => cases readPlan load components <;> rfl

lemma readPlan_congr {load load' : String → Except String Prd} (hload : ∀ path, SameRead (load path) (load' path))
    {components components' : List Component} (h : List.Forall₂ SameComponent components components') :
    (readPlan load components).map entriesOf = (readPlan load' components').map entriesOf := by
  induction h with
  | nil => rfl
  | @cons a b components components' hcomp _ ih =>
      have hpath : preRunPrdPath a = preRunPrdPath b := by
        rw [preRunPrdPath, preRunPrdPath, hcomp.planId, hcomp.id, hcomp.prdPath]
      have hread := hload (preRunPrdPath b)
      rw [readPlan_cons, readPlan_cons, ih, hpath]
      generalize load (preRunPrdPath b) = read at hread ⊢
      generalize load' (preRunPrdPath b) = read' at hread ⊢
      cases hread with
      | error exc => rfl
      | ok hprd =>
          dsimp only
          rw [entry_congr hcomp hprd]

/-- **What changes while a plan runs is not in its digest.** -/
theorem planDigest_congr (sha256 : List Char → String) {load load' : String → Except String Prd}
    {manifest manifest' : Manifest} (acceptanceDigest : String) (hload : ∀ path, SameRead (load path) (load' path))
    (hcomponents : List.Forall₂ SameComponent manifest.components manifest'.components)
    (hstack : manifest.stackDigest = manifest'.stackDigest) :
    planDigest sha256 load manifest acceptanceDigest = planDigest sha256 load' manifest' acceptanceDigest := by
  have hdigest : ∀ (load : String → Except String Prd) (m : Manifest),
      planDigest sha256 load m acceptanceDigest = ((readPlan load m.components).map entriesOf).map fun entries =>
        sha256 (Json.Layout.compact.write 0 (withAcceptance acceptanceDigest
          (withStack m.stackDigest (.arr (entries.map PlanEntry.toJson))))) := by
    intro load m
    rw [planDigest]
    cases readPlan load m.components with
    | error => rfl
    | ok plan =>
        simp only [Except.map, entriesOf, List.map_map]
        rfl
  rw [hdigest, hdigest, readPlan_congr hload hcomponents, hstack]

/-! ## The gate -/

/-- The part of the clamped bundle that the gate reads. -/
structure FlagBundle where
  autoAcceptPlan : Bool

/-- What the gate reads of a run. -/
structure PlanRun where
  manifest : Manifest
  manifestPath : String
  runId : String
  /-- the digest of the pinned acceptance plan, if there is one -/
  acceptanceDigest : String
  /-- `[inbox] enabled` -/
  inboxEnabled : Bool
  /-- the inbox log; none where it cannot be read -/
  inbox : Option (List Json)
  /-- whether a write to the inbox succeeds -/
  inboxWritable : Bool
  freshId : String
  /-- the answer at the prompt, if anybody can be asked -/
  answer : Option (Option ℤ)
  fmt : IsoFormat
  clock : ℕ

/-- How the gate ends: the run goes on, it ends with a code, or an exception ends it. -/
inductive GateExit where
  | goesOn
  | ends (code : ℕ)
  | raises (message : String)
  deriving DecidableEq, Repr

/-- The gate's end, with what it leaves: the inbox, the manifest, and the decision with who made it. -/
structure GateResult where
  exit : GateExit
  inbox : Option (List Json)
  manifest : Manifest
  resolved : Option (String × String) := none

namespace PlanRun

/-- `plan_dedupe_key` -/
def planDedupeKey (digest : String) : String := "plan-gate:" ++ digest

variable (run : PlanRun)

/-- `_find` -/
def find (key : String) (inbox : Option (List Json)) : Option InboxItem :=
  if run.inboxEnabled then inbox.bind fun log => findByDedupeKey log key else none

/-- `_settle` -/
def settle (exit : GateExit) (inbox : Option (List Json)) (awaiting decision decidedBy : String) : GateResult where
  exit := exit
  inbox := inbox
  manifest := { run.manifest with
    planAwaitingApproval := awaiting
    completedAt := if decision = "approved" then run.manifest.completedAt else nowText run.fmt run.clock }
  resolved := some (decision, decidedBy)

/-- An end that leaves everything as it was. -/
def leave (exit : GateExit) (inbox : Option (List Json)) : GateResult where
  exit := exit
  inbox := inbox
  manifest := run.manifest

/-- The plan_gate item, with the order the components run in. -/
def emission (key digest : String) (order : List String) : Emission where
  kind := .planGate
  title := run.manifest.projectName ++ ": plan awaiting approval"
  detail := "The autonomy level requires a person to approve each plan before it runs, and " ++
    "nothing has approved this one, so nothing was run. Components, in the order " ++
    "they run: " ++ String.intercalate ", " order ++ ". From the shell, ks inbox " ++
    "approve <id> records approval and starts the ks factory run of this plan; " ++
    "ks inbox reject <id> --comment ... records rejection."
  runId := run.runId
  dedupeKey := key
  evidence := [("plan_digest", .str digest), ("components", stringsJson order), ("manifest", .str run.manifestPath),
    ("spec_path", .str run.manifest.specPath), ("spec_digest", .str run.manifest.specDigest)]

/-- The log with the plan_gate item; an inbox that fails is left as it is. -/
def file (key digest : String) (order : List String) : Option (List Json) :=
  if run.inboxEnabled && run.inboxWritable then
    run.inbox.map fun log => (add run.fmt run.clock log run.freshId (run.emission key digest order)).2
  else run.inbox

/-- `_record`: an answer given at the prompt is filed and decided. -/
def record (key digest : String) (order : List String) (approved : Bool) : Option (List Json) :=
  if run.inboxEnabled && run.inboxWritable then
    run.inbox.map fun log =>
      let (item, log) := add run.fmt run.clock log run.freshId (run.emission key digest order)
      let comment := "decided at the run's plan checkpoint"
      let decided :=
        if approved then approve run.fmt run.clock log item.id "operator" comment
        else reject run.fmt run.clock log item.id "operator" comment
      match decided with
      | .ok (_, log) => log
      | .error _ => log
  else run.inbox

/-- `_park_plan` -/
def parkPlan (key digest : String) (order : List String) (item : Option InboxItem) : GateResult :=
  if !run.inboxEnabled then run.leave (.ends 2) run.inbox
  else
    let kept := item.any fun it => it.status ∈ undecided
    let inbox := if kept then run.inbox else run.file key digest order
    let filed := (run.find key inbox).any fun it => it.status ∈ undecided
    if filed then run.settle (.ends 1) inbox digest "parked" "inbox"
    else run.leave (.ends 2) inbox

/-- `_question`: the text, or the error of a graph that has no order. -/
def question : Except String (String × List String) :=
  run.manifest.topologicalOrder.map fun order =>
    let madeFrom :=
      if run.manifest.specDigest = "" then ""
      else ", made from " ++ run.manifest.specPath ++ " (" ++ String.ofList (run.manifest.specDigest.toList.take 12)
        ++ ")"
    ("Approve the plan for " ++ run.manifest.projectName ++ madeFrom ++ ": " ++ toString order.length
      ++ " component(s) (" ++ String.intercalate ", " order ++ ")?", order)

/-- The plan checkpoint: only an answered choice decides. -/
def ask (key digest : String) (item : Option InboxItem) : GateResult :=
  match run.question with
  | .error exc => run.leave (.raises exc) run.inbox
  | .ok (_, order) =>
      match run.answer with
      | some (some 0) => run.settle .goesOn (run.record key digest order true) "" "approved" "operator"
      | some (some 1) => run.settle (.ends 2) (run.record key digest order false) "" "rejected" "operator"
      | _ => run.parkPlan key digest order item

end PlanRun

/-- Ask a person to approve this run's plan, or park it. -/
def runPlanGate (sha256 : List Char → String) (load : String → Except String Prd) (run : PlanRun)
    (bundle : Option FlagBundle) : GateResult :=
  if bundle.all FlagBundle.autoAcceptPlan || run.manifest.components.isEmpty then run.leave .goesOn run.inbox
  else
    match planDigest sha256 load run.manifest run.acceptanceDigest with
    | .error _ => run.leave (.ends 2) run.inbox
    | .ok digest =>
        let key := PlanRun.planDedupeKey digest
        let item := run.find key run.inbox
        match item.map InboxItem.status with
        | some .approved => run.settle .goesOn run.inbox "" "approved" "inbox"
        | some .rejected => run.settle (.ends 2) run.inbox "" "rejected" "inbox"
        | _ => run.ask key digest item

/-! ## What lets a run go on -/

/-- The gate asks at a level where a plan is not accepted by itself, and there is something to run. -/
def Asked (run : PlanRun) (bundle : Option FlagBundle) : Prop :=
  (∃ b, bundle = some b ∧ b.autoAcceptPlan = false) ∧ run.manifest.components ≠ []

/-- An inbox item is approved for a digest. -/
def ApprovedInInbox (run : PlanRun) (digest : String) : Prop :=
  ∃ log item, run.inboxEnabled = true ∧ run.inbox = some log ∧ item ∈ folded log ∧
    item.dedupeKey = PlanRun.planDedupeKey digest ∧ item.status = .approved

lemma PlanRun.mem_of_find {run : PlanRun} {key : String} {item : InboxItem} (h : run.find key run.inbox = some item) :
    ∃ log, run.inboxEnabled = true ∧ run.inbox = some log ∧ item ∈ folded log ∧ item.dedupeKey = key := by
  rw [PlanRun.find] at h
  split_ifs at h with henabled
  obtain ⟨log, hlog, hfind⟩ := Option.bind_eq_some_iff.mp h
  obtain ⟨hmem, hkey, -⟩ := mem_of_findByDedupeKey hfind
  exact ⟨log, henabled, hlog, hmem, hkey⟩

/-- A plan that is parked does not run. -/
lemma PlanRun.parkPlan_exit (run : PlanRun) (key digest : String) (order : List String) (item : Option InboxItem) :
    (run.parkPlan key digest order item).exit ≠ .goesOn := by
  rw [PlanRun.parkPlan]
  dsimp only
  split_ifs <;> exact nofun

/-- At the prompt only an approval lets the run go on. -/
lemma PlanRun.ask_goesOn {run : PlanRun} {key digest : String} {item : Option InboxItem}
    (h : (run.ask key digest item).exit = .goesOn) : run.answer = some (some 0) := by
  rw [PlanRun.ask] at h
  split at h
  · cases h
  · split at h
    · next hanswer => exact hanswer
    · cases h
    · exact absurd h (PlanRun.parkPlan_exit run _ _ _ _)

/-- **What a run needs to go on**: an approval of its digest in the inbox, or one at the prompt. -/
theorem goesOn_of_gate {sha256 : List Char → String} {load : String → Except String Prd} {run : PlanRun}
    {bundle : Option FlagBundle} (hasked : Asked run bundle) (h : (runPlanGate sha256 load run bundle).exit = .goesOn) :
    ∃ digest, planDigest sha256 load run.manifest run.acceptanceDigest = .ok digest ∧
      (ApprovedInInbox run digest ∨ run.answer = some (some 0)) := by
  obtain ⟨⟨b, rfl, hb⟩, hcomponents⟩ := hasked
  have hnone : ¬ ((some b).all FlagBundle.autoAcceptPlan || run.manifest.components.isEmpty) = true := by
    simp [hb, hcomponents]
  rw [runPlanGate, if_neg hnone] at h
  cases hdigest : planDigest sha256 load run.manifest run.acceptanceDigest with
  | error exc =>
      rw [hdigest] at h
      cases h
  | ok digest =>
      rw [hdigest] at h
      refine ⟨digest, rfl, ?_⟩
      dsimp only at h
      split at h
      · next hstatus =>
          obtain ⟨item, hitem, happroved⟩ := Option.map_eq_some_iff.mp hstatus
          obtain ⟨log, henabled, hlog, hmem, hkey⟩ := PlanRun.mem_of_find hitem
          exact Or.inl ⟨log, item, henabled, hlog, hmem, hkey, happroved⟩
      · cases h
      · exact Or.inr (PlanRun.ask_goesOn h)

/-- A story of a priority. -/
def storyOf (priority : ℤ) : UserStory where
  id := "US-001"
  title := "Log in"
  acceptanceCriteria := ["a session starts"]
  priority := priority
  passes := false
  notes := ""

/-- A plan with one component that depends on two others. -/
def planWith (dependencies : List String) : Manifest where
  components := [{ id := "api", dependencies := dependencies, prdPath := "prd.json", branchName := "feature/api" }]

def prdWith (priority : ℤ) : Prd where
  branchName := "feature/api"
  userStories := [storyOf priority]

/-- A run of such a plan, which nobody has approved or can be asked about. -/
def unasked (manifest : Manifest) : PlanRun where
  manifest := manifest
  manifestPath := "manifest.json"
  runId := "r1"
  acceptanceDigest := ""
  inboxEnabled := true
  inbox := some []
  inboxWritable := true
  freshId := "a"
  answer := none
  fmt := .utc
  clock := 0

lemma ofList_injective : Function.Injective String.ofList := fun _ _ h => String.ofList_injective h

end Factory

end Kstrl
