import Kstrl.Plan.ManifestKeys

/-!
# The manifest file

`Manifest.save` and `Manifest.load` (`kstrl/plan/manifest.py`, with `Finding.to_dict` and
`Finding.from_dict` of `kstrl/plan/findings.py`).

A field outside the checks of `validateSchema` is read as the class declares it; a document that has
another type there has no `Manifest` here (`LoadError.untyped`), Python would keep the value.

* **`load_save`** is the round trip: what `save` wrote is loaded as the manifest it was written from, so
  saving it again writes the same text.
-/

namespace Kstrl

/-! ## Findings -/

/-- `_CATEGORY_ALIASES`: the name a category had, and its new name. -/
def legacyCategory : String := "setpoint_disagreement"

def claimDisagreementCategory : String := "claim_disagreement"

def Finding.toDict (f : Finding) : Json :=
  .obj [("phase", .str f.phase), ("category", .str f.category), ("severity", .str f.severity),
    ("location", .str f.location), ("explanation", .str f.explanation),
    ("suggestion", .str f.suggestion), ("owasp", .str f.owasp), ("cwe", .str f.cwe),
    ("tags", .arr (f.tags.map .str))]

/-- `str(data.get(key, ""))`. -/
def textOf (data : Json) (key : String) : String := ((data.get? key).map Json.pyStr).getD ""

def Finding.fromDict (data : Json) : Finding where
  phase := textOf data "phase"
  category :=
    if textOf data "category" = legacyCategory then claimDisagreementCategory
    else textOf data "category"
  severity := textOf data "severity"
  location := textOf data "location"
  explanation := textOf data "explanation"
  suggestion := textOf data "suggestion"
  owasp := textOf data "owasp"
  cwe := textOf data "cwe"
  tags := match data.get? "tags" with
    | some (.arr tags) => tags.map Json.pyStr
    | _ => []

/-! ## Writing -/

def boolDoc : Option Bool → Json
  | none => .null
  | some b => .bool b

def intDoc : Option ℤ → Json
  | none => .null
  | some n => .int n

def Component.document (c : Component) : Json :=
  .obj [("id", .str c.id), ("title", .str c.title), ("description", .str c.description),
    ("dependencies", .arr (c.dependencies.map .str)), ("prdPath", .str c.prdPath),
    ("branchName", .str c.branchName), ("status", .str c.status.value), ("error", .str c.error),
    ("planId", .str c.planId), ("retries", .int c.retries), ("firstAttempt", .int c.firstAttempt),
    ("prNumber", intDoc c.prNumber), ("prUrl", .str c.prUrl), ("mergeSha", .str c.mergeSha),
    ("judgedSha", .str c.judgedSha), ("rejudgeSha", .str c.rejudgeSha),
    ("linearIssueId", .str c.linearIssueId),
    ("linearIssueIdentifier", .str c.linearIssueIdentifier), ("startedAt", .str c.startedAt),
    ("completedAt", .str c.completedAt), ("durationSeconds", .float c.durationSeconds.val),
    ("iterationCount", .int c.iterationCount), ("verificationPassed", boolDoc c.verificationPassed),
    ("reviewPassed", boolDoc c.reviewPassed), ("findings", .arr (c.findings.map Finding.toDict)),
    ("reviewFindings", .str c.reviewFindings), ("scaffold", .str c.scaffold),
    ("failedPhase", .str c.failedPhase), ("failedCheck", .str c.failedCheck),
    ("evidenceWorktree", .str c.evidenceWorktree), ("evidenceDebugDir", .str c.evidenceDebugDir),
    ("journalOffsetStart", .int c.journalOffsetStart), ("journalOffsetEnd", .int c.journalOffsetEnd)]

/-- A field that is written when it is not empty. -/
def whenSet (key value : String) : List (String × Json) := if value = "" then [] else [(key, .str value)]

/-- The data `save` writes. -/
def Manifest.document (m : Manifest) : Json :=
  .obj ([("version", .str m.version), ("specFile", .str m.specFile),
    ("projectName", .str m.projectName), ("baseBranch", .str m.baseBranch),
    ("singlePr", .bool m.singlePr), ("runId", .str m.runId), ("completedAt", .str m.completedAt),
    ("linearProjectId", .str m.linearProjectId), ("linearSyncKey", .str m.linearSyncKey),
    ("policyHash", .str m.policyHash), ("kstrlVersion", .str m.kstrlVersion),
    ("featureBaseSha", .str m.featureBaseSha),
    ("planAwaitingApproval", .str m.planAwaitingApproval),
    ("components", .arr (m.components.map Component.document))] ++
    (if m.specDigest = "" then []
      else [("specPath", .str m.specPath), ("specDigest", .str m.specDigest)]) ++
    whenSet "stackDigest" m.stackDigest ++ whenSet "acceptanceDigest" m.acceptanceDigest)

/-- The text of the file. -/
def Manifest.save (m : Manifest) : String := m.document.dumps ++ "\n"

/-! ## Reading -/

inductive LoadError where
  | notJson
  | schema (errors : List String)
  /-- a field of a type the class does not declare -/
  | untyped
  deriving DecidableEq, Repr

/-- A text, the default where there is none. -/
def strField (data : Json) (key : String) (default : String) : Option String :=
  match (data.get? key).getD (.str default) with
  | .str s => some s
  | _ => none

def intField (data : Json) (key : String) (default : ℤ) : Option ℤ :=
  match (data.get? key).getD (.int default) with
  | .int n => some n
  | _ => none

def optIntField (data : Json) (key : String) : Option (Option ℤ) :=
  match (data.get? key).getD .null with
  | .null => some none
  | .int n => some (some n)
  | _ => none

def optBoolField (data : Json) (key : String) : Option (Option Bool) :=
  match (data.get? key).getD .null with
  | .null => some none
  | .bool b => some (some b)
  | _ => none

def floatField (data : Json) (key : String) (default : PyFloat) : Option PyFloat :=
  match (data.get? key).getD (.float default.val) with
  | .float text => if h : Json.FloatText text then some ⟨text, h⟩ else none
  | _ => none

def strListField (data : Json) (key : String) : Option (List String) :=
  match data.get? key with
  | some (.arr js) => Json.strings? js
  | _ => none

/-- The findings of a component; an entry that is no object is left out. -/
def findingsField (data : Json) : Option (List Finding) :=
  match (data.get? "findings").getD (.arr []) with
  | .arr js => some ((js.filter fun j => match j with
      | .obj _ => true
      | _ => false).map Finding.fromDict)
  | .str _ | .obj _ => some []
  | _ => none

def ComponentStatus.ofValue? (value : String) : Option ComponentStatus :=
  [ComponentStatus.pending, .running, .verifying, .completed, .mergePending, .awaitingApproval,
    .failed, .skipped].find? fun s => s.value = value

def Component.load (c : Json) : Option Component := do
  let id ← strField c "id" ""
  let title ← strField c "title" ""
  let description ← strField c "description" ""
  let dependencies ← strListField c "dependencies"
  let prdPath ← strField c "prdPath" ""
  let branchName ← strField c "branchName" ""
  let status ← (strField c "status" "pending").bind ComponentStatus.ofValue?
  let error ← strField c "error" ""
  let planId ← strField c "planId" ""
  let retries ← intField c "retries" 0
  let firstAttempt ← intField c "firstAttempt" 1
  let prNumber ← optIntField c "prNumber"
  let prUrl ← strField c "prUrl" ""
  let mergeSha ← strField c "mergeSha" ""
  let judgedSha ← strField c "judgedSha" ""
  let rejudgeSha ← strField c "rejudgeSha" ""
  let linearIssueId ← strField c "linearIssueId" ""
  let linearIssueIdentifier ← strField c "linearIssueIdentifier" ""
  let startedAt ← strField c "startedAt" ""
  let completedAt ← strField c "completedAt" ""
  let durationSeconds ← floatField c "durationSeconds" PyFloat.zero
  let iterationCount ← intField c "iterationCount" 0
  let verificationPassed ← optBoolField c "verificationPassed"
  let reviewPassed ← optBoolField c "reviewPassed"
  let findings ← findingsField c
  let reviewFindings ← strField c "reviewFindings" ""
  let scaffold ← strField c "scaffold" ""
  let failedPhase ← strField c "failedPhase" ""
  let failedCheck ← strField c "failedCheck" ""
  let evidenceWorktree ← strField c "evidenceWorktree" ""
  let evidenceDebugDir ← strField c "evidenceDebugDir" ""
  let journalOffsetStart ← intField c "journalOffsetStart" (-1)
  let journalOffsetEnd ← intField c "journalOffsetEnd" (-1)
  some { id, title, description, dependencies, prdPath, branchName, status, error, planId, retries,
         firstAttempt, prNumber, prUrl, mergeSha, judgedSha, rejudgeSha, linearIssueId,
         linearIssueIdentifier, startedAt, completedAt, durationSeconds, iterationCount,
         verificationPassed, reviewPassed, findings, reviewFindings, scaffold, failedPhase,
         failedCheck, evidenceWorktree, evidenceDebugDir, journalOffsetStart, journalOffsetEnd }

/-- The components of a document. -/
def componentsField (data : Json) : Option (List Component) :=
  match data.get? "components" with
  | some (.arr js) => js.mapM Component.load
  | _ => none

def boolField (data : Json) (key : String) : Option Bool :=
  match data.get? key with
  | some (.bool b) => some b
  | _ => none

/-- The manifest of a document with a valid schema. -/
def Manifest.ofDocument (data : Json) : Option Manifest := do
  let version ← strField data "version" ""
  let specFile ← strField data "specFile" ""
  let projectName ← strField data "projectName" ""
  let baseBranch ← strField data "baseBranch" ""
  let singlePr ← boolField data "singlePr"
  let components ← componentsField data
  let runId ← strField data "runId" ""
  let completedAt ← strField data "completedAt" ""
  let linearProjectId ← strField data "linearProjectId" ""
  let linearSyncKey ← strField data "linearSyncKey" ""
  let policyHash ← strField data "policyHash" ""
  let kstrlVersion ← strField data "kstrlVersion" ""
  let featureBaseSha ← strField data "featureBaseSha" ""
  let planAwaitingApproval ← strField data "planAwaitingApproval" ""
  let specPath ← strField data "specPath" ""
  let specDigest ← strField data "specDigest" ""
  let stackDigest ← strField data "stackDigest" ""
  let acceptanceDigest ← strField data "acceptanceDigest" ""
  some { version, specFile, projectName, baseBranch, singlePr, components, runId, completedAt,
         linearProjectId, linearSyncKey, policyHash, kstrlVersion, featureBaseSha,
         planAwaitingApproval, specPath, specDigest, stackDigest, acceptanceDigest }

/-- The manifest of a document, provided its schema is valid. -/
def Manifest.loadDocument (data : Json) : Except LoadError Manifest :=
  if validateSchema data ≠ [] then .error (.schema (validateSchema data))
  else match Manifest.ofDocument data with
    | some m => .ok m
    | none => .error .untyped

/-- Load a manifest from the text of its file. -/
def Manifest.load (text : String) : Except LoadError Manifest :=
  match Json.loads text with
  | none => .error .notJson
  | some data => Manifest.loadDocument data

/-! ## The round trip -/

lemma Finding.fromDict_toDict {f : Finding} (h : f.category ≠ legacyCategory) :
    Finding.fromDict f.toDict = f := by
  have htext : ∀ key s, f.toDict.get? key = some (.str s) → textOf f.toDict key = s := by
    intro key s hs
    rw [textOf, hs]
    rfl
  have htags : (f.tags.map Json.str).map Json.pyStr = f.tags := by
    rw [List.map_map]
    exact List.map_id _
  rw [Finding.fromDict, htext "category" _ rfl, if_neg h, htext "phase" _ rfl, htext "severity" _ rfl,
    htext "location" _ rfl, htext "explanation" _ rfl, htext "suggestion" _ rfl, htext "owasp" _ rfl,
    htext "cwe" _ rfl]
  show { f with tags := (f.tags.map Json.str).map Json.pyStr } = f
  rw [htags]

lemma ComponentStatus.ofValue?_value (s : ComponentStatus) : ofValue? s.value = some s := by
  cases s <;> decide

/-- The findings are written as objects, so none is left out. -/
lemma findingsField_toDict {data : Json} {findings : List Finding}
    (hdata : data.get? "findings" = some (.arr (findings.map Finding.toDict)))
    (h : ∀ f ∈ findings, f.category ≠ legacyCategory) : findingsField data = some findings := by
  have hall : (findings.map Finding.toDict).filter (fun j => match j with
      | .obj _ => true
      | _ => false) = findings.map Finding.toDict := by
    refine List.filter_eq_self.mpr fun j hj => ?_
    obtain ⟨f, -, rfl⟩ := List.mem_map.mp hj
    rfl
  have hback : (findings.map Finding.toDict).map Finding.fromDict = findings := by
    rw [List.map_map]
    conv_rhs => rw [← List.map_id findings]
    exact List.map_congr_left fun f hf => Finding.fromDict_toDict (h f hf)
  rw [findingsField, hdata]
  show some (((findings.map Finding.toDict).filter _).map Finding.fromDict) = _
  rw [hall, hback]

lemma Component.load_document {c : Component} (h : ∀ f ∈ c.findings, f.category ≠ legacyCategory) :
    Component.load c.document = some c := by
  have hdependencies : strListField c.document "dependencies" = some c.dependencies :=
    Json.strings?_map_str _
  have hstatus : (strField c.document "status" "pending").bind ComponentStatus.ofValue?
      = some c.status := ComponentStatus.ofValue?_value _
  have hpr : optIntField c.document "prNumber" = some c.prNumber := by
    show (match intDoc c.prNumber with
      | .null => some none
      | .int n => some (some n)
      | _ => none) = _
    cases c.prNumber <;> rfl
  have hbool : ∀ b : Option Bool, (match boolDoc b with
      | .null => some none
      | .bool b => some (some b)
      | _ => none) = some b := by
    intro b
    cases b <;> rfl
  have hverification : optBoolField c.document "verificationPassed" = some c.verificationPassed :=
    hbool _
  have hreview : optBoolField c.document "reviewPassed" = some c.reviewPassed := hbool _
  have hduration : floatField c.document "durationSeconds" PyFloat.zero = some c.durationSeconds :=
    dif_pos c.durationSeconds.2
  have hfindings : findingsField c.document = some c.findings := findingsField_toDict rfl h
  unfold Component.load
  rw [hdependencies, hstatus, hpr, hverification, hreview, hduration, hfindings]
  rfl

lemma mapM_load {components : List Component}
    (h : ∀ c ∈ components, ∀ f ∈ c.findings, f.category ≠ legacyCategory) :
    (components.map Component.document).mapM Component.load = some components := by
  induction components with
  | nil => rfl
  | cons c rest ih =>
      rw [List.map_cons, List.mapM_cons, Component.load_document (h c List.mem_cons_self),
        ih fun d hd => h d (List.mem_cons_of_mem _ hd)]
      rfl

/-- The document holds the manifest. -/
lemma Manifest.ofDocument_document {m : Manifest} (hspec : m.specDigest = "" → m.specPath = "")
    (h : ∀ c ∈ m.components, ∀ f ∈ c.findings, f.category ≠ legacyCategory) :
    Manifest.ofDocument m.document = some m := by
  have hcomponents : componentsField m.document = some m.components := mapM_load h
  have htail : strField m.document "specPath" "" = some m.specPath ∧
      strField m.document "specDigest" "" = some m.specDigest ∧
      strField m.document "stackDigest" "" = some m.stackDigest ∧
      strField m.document "acceptanceDigest" "" = some m.acceptanceDigest := by
    by_cases hdigest : m.specDigest = "" <;> by_cases hstack : m.stackDigest = "" <;>
      by_cases hacceptance : m.acceptanceDigest = "" <;>
      simp [strField, Json.get?, Manifest.document, whenSet, hdigest, hstack, hacceptance, hspec,
        List.lookup_cons]
  obtain ⟨hpath, hdigest, hstack, hacceptance⟩ := htail
  unfold Manifest.ofDocument
  rw [hcomponents, hpath, hdigest, hstack, hacceptance]
  rfl

lemma allWellFormed_map {α : Type} {f : α → Json} {l : List α} (h : ∀ a ∈ l, (f a).WellFormed) :
    Json.AllWellFormed (l.map f) := by
  induction l with
  | nil => trivial
  | cons a rest ih =>
      exact ⟨h a List.mem_cons_self, ih fun b hb => h b (List.mem_cons_of_mem _ hb)⟩

lemma allWellFormed_str (l : List String) : Json.AllWellFormed (l.map Json.str) :=
  allWellFormed_map fun _ _ => trivial

lemma Finding.wellFormed_toDict (f : Finding) : f.toDict.WellFormed :=
  ⟨by simp, trivial, trivial, trivial, trivial, trivial, trivial, trivial, trivial,
    allWellFormed_str f.tags, trivial⟩

lemma wellFormed_intDoc (n : Option ℤ) : (intDoc n).WellFormed := by
  cases n <;> trivial

lemma wellFormed_boolDoc (b : Option Bool) : (boolDoc b).WellFormed := by
  cases b <;> trivial

lemma Component.wellFormed_document (c : Component) : c.document.WellFormed := by
  refine ⟨by simp, trivial, trivial, trivial, allWellFormed_str c.dependencies, trivial, trivial,
    trivial, trivial, trivial, trivial, trivial, wellFormed_intDoc c.prNumber, trivial, trivial, trivial,
    trivial, trivial, trivial, trivial, trivial, c.durationSeconds.2, trivial,
    wellFormed_boolDoc c.verificationPassed, wellFormed_boolDoc c.reviewPassed,
    allWellFormed_map fun f _ => f.wellFormed_toDict, trivial, trivial, trivial, trivial, trivial, trivial,
    trivial, trivial, trivial⟩

lemma Manifest.wellFormed_document (m : Manifest) : m.document.WellFormed := by
  refine ⟨?_, ?_⟩
  · unfold whenSet
    split_ifs <;> simp
  · have hcomponents : Json.AllWellFormed (m.components.map Component.document) :=
      allWellFormed_map fun c _ => c.wellFormed_document
    unfold whenSet
    split_ifs <;>
      exact ⟨trivial, trivial, trivial, trivial, trivial, trivial, trivial, trivial, trivial, trivial, trivial,
        trivial, trivial, hcomponents, by simp [Json.FieldsWellFormed, Json.WellFormed]⟩

/-- **Persistence loses nothing.**  What `save` wrote is loaded as the manifest it was written from, and
saving that again writes the same text. -/
theorem Manifest.load_save (m : Manifest) (hvalid : validateSchema m.document = [])
    (hspec : m.specDigest = "" → m.specPath = "")
    (hfindings : ∀ c ∈ m.components, ∀ f ∈ c.findings, f.category ≠ legacyCategory) :
    Manifest.load m.save = .ok m ∧
      ∀ loaded, Manifest.load m.save = .ok loaded → loaded.save = m.save := by
  have hload : Manifest.load m.save = .ok m := by
    rw [Manifest.load, Manifest.save, Json.loads_dumps _ m.wellFormed_document]
    show Manifest.loadDocument m.document = .ok m
    rw [Manifest.loadDocument, if_neg (not_not.mpr hvalid), Manifest.ofDocument_document hspec hfindings]
  refine ⟨hload, fun loaded h => ?_⟩
  rw [hload] at h
  rw [← Except.ok.inj h]

/-- A manifest of one component with a finding. -/
def savedManifest : Manifest where
  projectName := "shop"
  components := [{
    id := "api"
    title := "Api"
    branchName := "kstrl/api"
    status := .failed
    retries := 1
    prNumber := some 7
    verificationPassed := some true
    findings := [{ phase := "review", category := "naming", explanation := "one\nline \"more\"" }] }]

theorem Manifest.load_save_saved : Manifest.load savedManifest.save = .ok savedManifest ∧
    ∀ loaded, Manifest.load savedManifest.save = .ok loaded → loaded.save = savedManifest.save :=
  Manifest.load_save savedManifest (by decide +kernel) (fun _ => rfl) (by decide)

end Kstrl
