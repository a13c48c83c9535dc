import Kstrl.Architect.Decisions
import Kstrl.Plan.ManifestKeys

/-!
# The stored decision register

The register document of `kstrl/architect/decisions.py`: what a decompose writes beside its manifest, how it is
read back, and which manifest it may bind.  A file is the value its text holds.

* **`bindRegister_ok`**: what binds a manifest is readable, not halted, and under the manifest's project and spec.
* **`not_matches_of_halted`**: what a halting decompose wrote binds nothing.
-/

namespace Kstrl.Architect

/-- What reading the register reports about it. -/
inductive RegisterStatus where
  | ok
  | missing
  | unreadable
  deriving DecidableEq, Repr

/-- The persisted register plus the identity it was written under. -/
structure DecisionRegister where
  decisions : List SpecDecision := []
  project : String := ""
  specFile : String := ""
  specDigest : String := ""
  requirements : List SpecRequirement := []
  halted : Bool := false
  status : RegisterStatus := .missing
  detail : String := ""
  deriving DecidableEq, Repr

/-- Whether a register belongs to another spec; a manifest that names a digest is matched on it alone. -/
def otherSpec (register : DecisionRegister) (specFile specDigest : String) : Bool :=
  if specDigest ≠ "" then register.specDigest ≠ specDigest else register.specFile ≠ specFile

/-- `digest[:12] or 'no digest'` -/
def shownDigest (digest : String) : String :=
  if digest = "" then "no digest" else String.ofList (digest.toList.take 12)

/-- The register that may bind a manifest, or the reason there is none. -/
def bindRegister (register : DecisionRegister) (projectName specFile specDigest : String) :
    Except String DecisionRegister :=
  if register.status = .missing ∨ specFile = "" then .ok {}
  else if register.status ≠ .ok then
    .error ("architect decision register is unreadable: " ++ register.detail ++
      ". Re-run the decompose, or delete scripts/kstrl/decisions.json to run without one.")
  else if register.halted then
    .error ("architect decision register was written by a HALTED decompose, so no manifest was saved for it. " ++
      "Answer the escalated question and re-run the decompose.")
  else if register.project ≠ projectName ∨ otherSpec register specFile specDigest then
    .error ("architect decision register belongs to project " ++ PyText.repr register.project ++ " / spec " ++
      PyText.repr register.specFile ++ " (" ++ shownDigest register.specDigest ++ "), but this run is " ++
      PyText.repr projectName ++ " / " ++ PyText.repr specFile ++ " (" ++ shownDigest specDigest ++
      "). Re-run the decompose for this spec.")
  else .ok register

/-- What a decompose writes the register under. -/
structure RegisterIdentity where
  projectName : String
  specFile : String
  halted : Bool
  specDigest : String := ""
  answeredItems : List String := []
  answersDigest : String := ""
  deriving DecidableEq, Repr

/-- The payload of `write_decisions`. -/
def registerDocument (decisions : List SpecDecision) (requirements : List SpecRequirement) (id : RegisterIdentity)
    (generatedAt : String) : Json :=
  .obj [("project", .str id.projectName), ("specFile", .str id.specFile), ("specDigest", .str id.specDigest),
    ("answeredItems", .arr (id.answeredItems.map Json.str)), ("answersDigest", .str id.answersDigest),
    ("generatedAt", .str generatedAt), ("halted", .bool id.halted),
    ("counts", .obj (dispositionOrder.map fun disposition =>
      (disposition, .int (decisions.countP fun d => d.disposition = disposition)))),
    ("decisions", .arr (decisions.map SpecDecision.document)),
    ("requirements", .arr (requirements.map fun r => .obj [("id", .str r.id), ("kind", .str r.kind),
      ("statement", .str r.statement), ("stories", .arr (r.stories.map Json.str))]))]

/-- The file of the register. -/
inductive RegisterFile where
  | missing
  /-- a file that cannot be read, with what reading it said -/
  | unreadable (why : String)
  | document (data : Json)

def specDecisionsRelPath : String := "scripts/kstrl/decisions.json"

def readDecisions : RegisterFile → DecisionRegister
  | .missing => { status := .missing, detail := "no register at " ++ specDecisionsRelPath }
  | .unreadable why => { status := .unreadable, detail := specDecisionsRelPath ++ ": " ++ why }
  | .document raw =>
      let errors :=
        if (decisionsPayloadErrors raw).isEmpty then requirementsPayloadErrors raw none
        else decisionsPayloadErrors raw
      if errors.isEmpty then
        { decisions := parseDecisions raw
          project := SpecDecision.clean (raw.field "project")
          specFile := SpecDecision.clean (raw.field "specFile")
          specDigest := SpecDecision.clean (raw.field "specDigest")
          requirements := parseRequirements raw
          halted := ((raw.get? "halted").map isTruthy).getD false
          status := .ok }
      else
        { status := .unreadable
          detail := specDecisionsRelPath ++ ": " ++ String.intercalate "; " (errors.take 3) }

/-! ## What binds -/

/-- A register that is readable, not halted, and under a manifest's project and spec. -/
structure Matches (register : DecisionRegister) (projectName specFile specDigest : String) : Prop where
  isOk : register.status = .ok
  fromSpec : specFile ≠ ""
  notHalted : register.halted = false
  project : register.project = projectName
  spec : otherSpec register specFile specDigest = false

/-- A register that is returned and no placeholder is the stored one, and matches the manifest. -/
theorem bindRegister_ok {register bound : DecisionRegister} {projectName specFile specDigest : String}
    (h : bindRegister register projectName specFile specDigest = .ok bound) (hok : bound.status = .ok) :
    bound = register ∧ Matches register projectName specFile specDigest := by
  unfold bindRegister at h
  split_ifs at h with hnone hstatus hhalted hother
  · obtain rfl := Except.ok.inj h
    cases hok
  · obtain rfl := Except.ok.inj h
    simp only [not_or, not_not, Bool.not_eq_true] at hnone hstatus hhalted hother
    exact ⟨rfl, hstatus, hnone.2, hhalted, hother.1, hother.2⟩

/-- What a halting decompose wrote does not read as a register that was not halted. -/
lemma not_matches_of_halted {decisions : List SpecDecision} {requirements : List SpecRequirement}
    {id : RegisterIdentity} {generatedAt projectName specFile specDigest : String} (hhalted : id.halted = true) :
    ¬ Matches (readDecisions (.document (registerDocument decisions requirements id generatedAt))) projectName
      specFile specDigest := by
  intro hmatches
  have hget : (registerDocument decisions requirements id generatedAt).get? "halted" = some (.bool true) := by
    rw [registerDocument, hhalted]
    rfl
  have hstatus := hmatches.isOk
  have hnot := hmatches.notHalted
  simp only [readDecisions] at hstatus hnot
  split_ifs at hstatus hnot
  rw [hget] at hnot
  cases hnot

end Kstrl.Architect
