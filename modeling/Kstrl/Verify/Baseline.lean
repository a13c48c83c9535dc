import Kstrl.Base.Json
import Kstrl.Base.LatestLog
import Kstrl.Verify.FailureSignatures
import Kstrl.Verify.Secrets
import Mathlib.Data.List.Sort
import Mathlib.Data.String.Basic

/-!
# The check baseline

`kstrl/verify/baseline.py`: a check run reduced to its failure signatures, the document it is kept in, and what a later
run added to it.

* **`fromDocument_toDocument`**: a baseline of a run is read back as it was, exactly if no check of it has an empty
  name.
* **`compare_partition`** and **`regressed_iff`** are the comparison's buckets and its verdict.
-/

namespace Kstrl

namespace Verify

/-! ## Check runs -/

/-- A check that was asked for and produced no measurement. -/
structure NotMeasured where
  check : String
  reason : String
  detail : String
  deriving DecidableEq

/-- Aggregated result of all mechanical checks. -/
structure VerificationResult where
  passed : Bool
  checks : List CheckResult
  notMeasured : List NotMeasured := []

/-- Every check has a name. -/
def VerificationResult.Named (result : VerificationResult) : Prop :=
  (∀ check ∈ result.checks, check.name ≠ "") ∧ ∀ gap ∈ result.notMeasured, gap.check ≠ ""

/-! ## Baselines -/

/-- One check measurement, reduced to what a later run can be compared to. -/
structure Baseline where
  generatedAt : String
  baseRef : Option String
  project : String
  passed : Bool
  checkSchemaVersion : ℤ
  verifyDigest : String
  measuredChecks : List String
  unmeasuredChecks : List String
  unmeasuredReasons : List (String × String)
  signatures : List (String × ℤ)
  deriving DecidableEq

def baselineSchemaVersion : ℤ := 2

/-- The checks kstrl removed. -/
def retiredChecks : List String :=
  ["dead_code", "dead_code_ruff", "diff_mutation", "mutation_testing", "patch_coverage", "test_adequacy"]

def noReasonRecorded : String := "the check produced no row at all in this run"

/-- `sorted(names)` -/
def sortNames (names : List String) : List String := names.insertionSort (· ≤ ·)

/-- `dict(sorted(d.items()))`: the keys are distinct. -/
def sortItems {β : Type} (items : List (String × β)) : List (String × β) :=
  items.insertionSort fun a b => a.1 ≤ b.1

/-- The rows that measured, and why the others did not. -/
def measuredAndUnmeasured (result : VerificationResult) : List CheckResult × List (String × String) :=
  let gaps := result.notMeasured.map fun gap => (gap.check, gap.reason ++ ": " ++ gap.detail)
  let rows := (result.checks.filter fun check => !check.measured).map fun check =>
    (check.name, if check.message = "" then noReasonRecorded else check.message)
  let reasons := LatestLog.latest Prod.fst (gaps ++ rows)
  (result.checks.filter fun check => check.measured && check.name ∉ reasons.map Prod.fst, reasons)

/-- Each failed check's one signature, with its count, by signature. -/
def signatureCounts (stripped lower : String → String) (checks : List CheckResult) : List (String × ℤ) :=
  let failed := (checks.filter fun check => !check.passed).map fun check =>
    signatureForError stripped lower check.name check.message
  (SortedSet.ofList failed).toList.map fun signature => (signature, (failed.count signature : ℤ))

/-- What a baseline records beside the run. -/
structure Provenance where
  baseRef : Option String
  project : String
  generatedAt : String
  checkSchemaVersion : ℤ
  digest : String

/-- Reduce a check run to a baseline. -/
def baselineFromResult (stripped lower : String → String) (info : Provenance) (result : VerificationResult) :
    Baseline :=
  let (measured, reasons) := measuredAndUnmeasured result
  { generatedAt := info.generatedAt
    baseRef := info.baseRef
    project := info.project
    passed := result.passed
    checkSchemaVersion := info.checkSchemaVersion
    verifyDigest := info.digest
    measuredChecks := (SortedSet.ofList (measured.map CheckResult.name)).toList
    unmeasuredChecks := sortNames (reasons.map Prod.fst)
    unmeasuredReasons := sortItems reasons
    signatures := signatureCounts stripped lower measured }

/-! ## The document -/

/-- The JSON of a baseline, with every collection sorted. -/
def Baseline.toDocument (b : Baseline) : Json :=
  .obj
    [("schema_version", .int baselineSchemaVersion),
      ("generated_at", .str b.generatedAt),
      ("base_ref", b.baseRef.elim .null .str),
      ("project", .str b.project),
      ("passed", .bool b.passed),
      ("check_schema_version", .int b.checkSchemaVersion),
      ("verify_digest", .str b.verifyDigest),
      ("measured_checks", .arr ((sortNames b.measuredChecks).map .str)),
      ("unmeasured_checks", .arr ((sortNames b.unmeasuredChecks).map .str)),
      ("unmeasured_reasons", .obj ((sortItems b.unmeasuredReasons).map fun e => (e.1, .str e.2))),
      ("signatures", .obj ((sortItems b.signatures).map fun e => (e.1, .int e.2)))]

abbrev Document := List (String × Json)

def Document.field (document : Document) (key : String) : Except String Json :=
  match document.lookup key with
  | some value => .ok value
  | none => .error ("baseline is missing " ++ PyText.repr key)

/-- `baseline 'key' must be ..., got ...` -/
def wrongType {α : Type} (key expected : String) (value : Json) : Except String α :=
  .error ("baseline " ++ PyText.repr key ++ " must be " ++ expected ++ ", got " ++ value.typeName)

def Document.boolField (document : Document) (key : String) : Except String Bool :=
  (document.field key).bind fun
    | .bool b => .ok b
    | value => wrongType key "a boolean" value

def Document.intField (document : Document) (key : String) : Except String ℤ :=
  (document.field key).bind fun
    | .int n => .ok n
    | value => wrongType key "an integer" value

def Document.optionalStrField (document : Document) (key : String) : Except String (Option String) :=
  (document.field key).bind fun
    | .str s => .ok (some s)
    | .null => .ok none
    | value => wrongType key "a string or null" value

def Document.strField (document : Document) (key : String) : Except String String :=
  (document.field key).bind fun
    | .str s => .ok s
    | value => wrongType key "a string" value

/-- The strings of an array from an index on. -/
def strItems (key : String) (index : ℕ) : List Json → Except String (List String)
  | [] => .ok []
  | .str s :: items =>
      if s = "" then .error ("baseline " ++ PyText.repr key ++ "[" ++ toString index
        ++ "] must be a non-empty string, got ''")
      else (strItems key (index + 1) items).map (s :: ·)
  | item :: _ => .error ("baseline " ++ PyText.repr key ++ "[" ++ toString index
      ++ "] must be a non-empty string, got " ++ item.pyRepr)

def Document.strTupleField (document : Document) (key : String) : Except String (List String) :=
  (document.field key).bind fun
    | .arr items => strItems key 0 items
    | value => wrongType key "an array" value

/-- The entries of an object, each of which has a key that is not empty. -/
def mapItems {β : Type} (key : String) (read : String → Json → Except String β) : Document → Except String (List (String × β))
  | [] => .ok []
  | (name, value) :: items =>
      if name = "" then .error ("baseline " ++ PyText.repr key ++ " has a key that is not a non-empty string: ''")
      else (read name value).bind fun b => (mapItems key read items).map ((name, b) :: ·)

/-- A reason. -/
def readReason (key name : String) : Json → Except String String
  | .str "" => .error ("baseline " ++ PyText.repr key ++ "[" ++ PyText.repr name
      ++ "] must be a non-empty string, got ''")
  | .str reason => .ok reason
  | value => .error ("baseline " ++ PyText.repr key ++ "[" ++ PyText.repr name
      ++ "] must be a non-empty string, got " ++ value.pyRepr)

/-- A count. -/
def readCount (key name : String) : Json → Except String ℤ
  | .int n =>
      if n < 1 then .error ("baseline " ++ PyText.repr key ++ "[" ++ PyText.repr name
        ++ "] must be a positive integer, got " ++ toString n)
      else .ok n
  | value => .error ("baseline " ++ PyText.repr key ++ "[" ++ PyText.repr name
      ++ "] must be a positive integer, got " ++ value.pyRepr)

def Document.mapField {β : Type} (document : Document) (key : String)
    (read : String → String → Json → Except String β) : Except String (List (String × β)) :=
  (document.field key).bind fun
    | .obj items => mapItems key (read key) items
    | value => wrongType key "an object" value

/-- `_str_map_field` -/
def Document.strMapField (document : Document) (key : String) : Except String (List (String × String)) :=
  document.mapField key readReason

/-- `_signatures_field` -/
def Document.signaturesField (document : Document) (key : String) : Except String (List (String × ℤ)) :=
  document.mapField key readCount

/-- `str` of a list of strings. -/
def listRepr (names : List String) : String := "[" ++ String.intercalate ", " (names.map PyText.repr) ++ "]"

/-- `set(names) == set(others)` -/
def sameNames (names others : List String) : Bool := names.all (· ∈ others) && others.all (· ∈ names)

/-- Every hole in a baseline carries the reason it is there. -/
def checkReasons (unmeasured : List String) (reasons : List (String × String)) : Except String Unit :=
  if sameNames (reasons.map Prod.fst) unmeasured then .ok ()
  else .error ("baseline 'unmeasured_reasons' names " ++ listRepr (sortNames (reasons.map Prod.fst))
    ++ " but 'unmeasured_checks' names " ++ listRepr (sortNames unmeasured)
    ++ "; every hole in a baseline carries the reason it is there. "
    ++ "Regenerate it with ks check --write-baseline --force")

def checkVersion (version : ℤ) : Except String Unit :=
  if version = baselineSchemaVersion then .ok ()
  else .error ("baseline schema_version is " ++ toString version ++ ", expected " ++ toString baselineSchemaVersion
    ++ "; run ks check --write-baseline --force to regenerate it")

/-- The baseline of a document's fields. -/
def Baseline.fromFields (raw : Document) : Except String Baseline := do
  checkVersion (← raw.intField "schema_version")
  let unmeasured ← raw.strTupleField "unmeasured_checks"
  let reasons ← raw.strMapField "unmeasured_reasons"
  checkReasons unmeasured reasons
  let generatedAt ← raw.optionalStrField "generated_at"
  let baseRef ← raw.optionalStrField "base_ref"
  let project ← raw.strField "project"
  let passed ← raw.boolField "passed"
  let checkSchemaVersion ← raw.intField "check_schema_version"
  let verifyDigest ← raw.strField "verify_digest"
  let measuredChecks ← raw.strTupleField "measured_checks"
  let signatures ← raw.signaturesField "signatures"
  return {
    generatedAt := generatedAt.getD ""
    baseRef := baseRef
    project := project
    passed := passed
    checkSchemaVersion := checkSchemaVersion
    verifyDigest := verifyDigest
    measuredChecks := measuredChecks
    unmeasuredChecks := unmeasured
    unmeasuredReasons := reasons
    signatures := signatures }

/-- Validate the raw payload entry by entry, then build. -/
def Baseline.fromDocument : Json → Except String Baseline
  | .obj raw => fromFields raw
  | raw => .error ("baseline must be a JSON object, got " ++ raw.typeName)

/-! ## A comparison -/

/-- What a branch added to, and removed from, a baseline. -/
structure Comparison where
  new : List (String × ℤ)
  /-- with the count of the baseline and the current one -/
  increased : List (String × (ℤ × ℤ))
  fixed : List (String × ℤ)
  unmeasured : List (String × ℤ)
  stoppedMeasuring : List (String × String)
  retired : List String
  checkSchemaChanged : Option (ℤ × ℤ)
  projectChanged : Option (String × String)

/-- The single verdict. -/
def Comparison.regressed (c : Comparison) : Bool :=
  !c.new.isEmpty || !c.increased.isEmpty || !c.stoppedMeasuring.isEmpty

/-- `(a, b) if a != b else None` -/
def changed {β : Type} [DecidableEq β] (a b : β) : Option (β × β) := if a ≠ b then some (a, b) else none

/-- Whether the check that a signature names measured something now. -/
def measuredNow (current : Baseline) (signature : String) : Bool :=
  (splitSignature signature).1 ∈ current.measuredChecks

/-- Bucket every signature on either side. -/
def compare (baseline current : Baseline) : Comparison :=
  let absent := (sortItems baseline.signatures).filter fun e => e.1 ∉ current.signatures.map Prod.fst
  let dark := baseline.measuredChecks.filter fun check => check ∉ current.measuredChecks
  { new := (sortItems current.signatures).filter fun e => (baseline.signatures.lookup e.1).isNone
    increased := (sortItems current.signatures).filterMap fun e =>
      (baseline.signatures.lookup e.1).bind fun before =>
        if before < e.2 then some (e.1, (before, e.2)) else none
    fixed := absent.filter fun e => measuredNow current e.1
    unmeasured := absent.filter fun e => !measuredNow current e.1
    stoppedMeasuring := (SortedSet.ofList (dark.filter fun check => check ∉ retiredChecks)).toList.map fun check =>
      (check, (current.unmeasuredReasons.lookup check).getD noReasonRecorded)
    retired := (SortedSet.ofList (dark.filter fun check => check ∈ retiredChecks)).toList
    checkSchemaChanged := changed baseline.checkSchemaVersion current.checkSchemaVersion
    projectChanged := changed baseline.project current.project }

/-! ## The buckets -/

/-- Where a comparison puts a failure. -/
inductive Bucket where
  | new
  | preExisting
  | fixed
  | unmeasured

/-- The failures of a baseline. -/
def Baseline.failures (b : Baseline) : List String := b.signatures.map Prod.fst

/-- A comparison has a failure in a bucket; a pre-existing one is in both sides. -/
def Bucket.Holds (baseline current : Baseline) (signature : String) : Bucket → Prop
  | new => signature ∈ (compare baseline current).new.map Prod.fst
  | preExisting => signature ∈ baseline.failures ∧ signature ∈ current.failures
  | fixed => signature ∈ (compare baseline current).fixed.map Prod.fst
  | unmeasured => signature ∈ (compare baseline current).unmeasured.map Prod.fst

section Buckets

variable {baseline current : Baseline} {signature : String}

lemma mem_sortItems {β : Type} {items : List (String × β)} {e : String × β} : e ∈ sortItems items ↔ e ∈ items :=
  List.mem_insertionSort _

lemma lookup_isNone_iff {β : Type} {items : List (String × β)} {key : String} :
    (items.lookup key).isNone = true ↔ key ∉ items.map Prod.fst := by
  rw [Option.isNone_iff_eq_none, List.lookup_eq_none_iff, List.mem_map]
  constructor
  · rintro h ⟨e, he, rfl⟩
    exact absurd (h e he) (by simp)
  · intro h e he
    exact bne_iff_ne.mpr fun hkey => h ⟨e, he, hkey.symm⟩

/-- The keys of the entries that are kept for their keys. -/
lemma mem_keys_filter {β : Type} {items : List (String × β)} (keep : String → Bool) {key : String} :
    key ∈ ((sortItems items).filter fun e => keep e.1).map Prod.fst ↔ key ∈ items.map Prod.fst ∧ keep key = true := by
  simp only [List.mem_map, List.mem_filter, mem_sortItems]
  constructor
  · rintro ⟨e, ⟨he, hkeep⟩, rfl⟩
    exact ⟨⟨e, he, rfl⟩, hkeep⟩
  · rintro ⟨⟨e, he, rfl⟩, hkeep⟩
    exact ⟨e, ⟨he, hkeep⟩, rfl⟩

lemma holds_new : Bucket.new.Holds baseline current signature ↔
    signature ∈ current.failures ∧ signature ∉ baseline.failures := by
  rw [Bucket.Holds, compare]
  exact (mem_keys_filter fun s => (baseline.signatures.lookup s).isNone).trans
    (and_congr_right fun _ => lookup_isNone_iff)

lemma holds_fixed : Bucket.fixed.Holds baseline current signature ↔
    signature ∈ baseline.failures ∧ signature ∉ current.failures ∧ measuredNow current signature = true := by
  rw [Bucket.Holds, compare]
  simp only [List.filter_filter]
  rw [mem_keys_filter (fun s => measuredNow current s && decide (s ∉ current.signatures.map Prod.fst))]
  rw [Bool.and_eq_true, decide_eq_true_iff, and_comm (a := measuredNow current signature = true)]
  rfl

lemma holds_unmeasured : Bucket.unmeasured.Holds baseline current signature ↔
    signature ∈ baseline.failures ∧ signature ∉ current.failures ∧ measuredNow current signature = false := by
  rw [Bucket.Holds, compare]
  simp only [List.filter_filter]
  rw [mem_keys_filter (fun s => !measuredNow current s && decide (s ∉ current.signatures.map Prod.fst))]
  rw [Bool.and_eq_true, decide_eq_true_iff, and_comm (a := (!measuredNow current signature) = true),
    Bool.not_eq_true']
  rfl

/-- **Every failure of either side is in exactly one bucket.** -/
theorem compare_partition (h : signature ∈ baseline.failures ∨ signature ∈ current.failures) :
    ∃! bucket : Bucket, bucket.Holds baseline current signature := by
  by_cases hbefore : signature ∈ baseline.failures
  · by_cases hnow : signature ∈ current.failures
    · refine ⟨.preExisting, ⟨hbefore, hnow⟩, fun bucket hbucket => ?_⟩
      cases bucket with
      | new => exact absurd hbefore (holds_new.mp hbucket).2
      | preExisting => rfl
      | fixed => exact absurd hnow (holds_fixed.mp hbucket).2.1
      | unmeasured => exact absurd hnow (holds_unmeasured.mp hbucket).2.1
    · cases hmeasured : measuredNow current signature with
      | true =>
          refine ⟨.fixed, holds_fixed.mpr ⟨hbefore, hnow, hmeasured⟩, fun bucket hbucket => ?_⟩
          cases bucket with
          | new => exact absurd (holds_new.mp hbucket).1 hnow
          | preExisting => exact absurd hbucket.2 hnow
          | fixed => rfl
          | unmeasured => exact absurd (hmeasured.symm.trans (holds_unmeasured.mp hbucket).2.2) (by decide)
      | false =>
          refine ⟨.unmeasured, holds_unmeasured.mpr ⟨hbefore, hnow, hmeasured⟩, fun bucket hbucket => ?_⟩
          cases bucket with
          | new => exact absurd (holds_new.mp hbucket).1 hnow
          | preExisting => exact absurd hbucket.2 hnow
          | fixed => exact absurd (hmeasured.symm.trans (holds_fixed.mp hbucket).2.2) (by decide)
          | unmeasured => rfl
  · have hnow : signature ∈ current.failures := h.resolve_left hbefore
    refine ⟨.new, holds_new.mpr ⟨hnow, hbefore⟩, fun bucket hbucket => ?_⟩
    cases bucket with
    | new => rfl
    | preExisting => exact absurd hbucket.1 hbefore
    | fixed => exact absurd (holds_fixed.mp hbucket).1 hbefore
    | unmeasured => exact absurd (holds_unmeasured.mp hbucket).1 hbefore

lemma nonempty_iff {β : Type} {l : List β} : (!l.isEmpty) = true ↔ ∃ x, x ∈ l := by
  rw [Bool.not_eq_true', List.isEmpty_eq_false_iff_exists_mem]

lemma exists_key {β : Type} {items : List (String × β)} : (∃ e, e ∈ items) ↔ ∃ key, key ∈ items.map Prod.fst := by
  constructor
  · rintro ⟨e, he⟩
    exact ⟨e.1, List.mem_map_of_mem he⟩
  · rintro ⟨key, hkey⟩
    obtain ⟨e, he, -⟩ := List.mem_map.mp hkey
    exact ⟨e, he⟩

lemma exists_new : (∃ e, e ∈ (compare baseline current).new) ↔
    ∃ signature ∈ current.failures, signature ∉ baseline.failures :=
  exists_key.trans (exists_congr fun _ => holds_new)

lemma exists_increased : (∃ e, e ∈ (compare baseline current).increased) ↔
    ∃ signature before count, (signature, count) ∈ current.signatures ∧
      baseline.signatures.lookup signature = some before ∧ before < count := by
  rw [compare]
  simp only [List.mem_filterMap, mem_sortItems, Option.bind_eq_some_iff, Option.ite_none_right_eq_some]
  constructor
  · rintro ⟨-, ⟨signature, count⟩, hmem, before, hbefore, hlt, -⟩
    exact ⟨signature, before, count, hmem, hbefore, hlt⟩
  · rintro ⟨signature, before, count, hmem, hbefore, hlt⟩
    exact ⟨_, (signature, count), hmem, before, hbefore, hlt, rfl⟩

lemma exists_stoppedMeasuring : (∃ e, e ∈ (compare baseline current).stoppedMeasuring) ↔
    ∃ check ∈ baseline.measuredChecks, check ∉ current.measuredChecks ∧ check ∉ retiredChecks := by
  rw [compare]
  simp only [List.mem_map, SortedSet.mem_toList_ofList, List.mem_filter, decide_eq_true_eq]
  constructor
  · rintro ⟨-, check, ⟨⟨hmem, hdark⟩, hretired⟩, -⟩
    exact ⟨check, hmem, hdark, hretired⟩
  · rintro ⟨check, hmem, hdark, hretired⟩
    exact ⟨_, check, ⟨⟨hmem, hdark⟩, hretired⟩, rfl⟩

/-- **The verdict.** -/
theorem regressed_iff (baseline current : Baseline) :
    (compare baseline current).regressed = true ↔
      (∃ signature ∈ current.failures, signature ∉ baseline.failures) ∨
        (∃ signature before count, (signature, count) ∈ current.signatures ∧
          baseline.signatures.lookup signature = some before ∧ before < count) ∨
        ∃ check ∈ baseline.measuredChecks, check ∉ current.measuredChecks ∧ check ∉ retiredChecks := by
  rw [Comparison.regressed, Bool.or_eq_true, Bool.or_eq_true, or_assoc, nonempty_iff, nonempty_iff, nonempty_iff,
    exists_new, exists_increased, exists_stoppedMeasuring]

end Buckets

/-! ## Reading a baseline back -/

lemma strItems_map (key : String) (index : ℕ) {names : List String} (h : "" ∉ names) :
    strItems key index (names.map .str) = .ok names := by
  induction names generalizing index with
  | nil => rfl
  | cons name names ih =>
      obtain ⟨hname, hnames⟩ := not_or.mp (mt List.mem_cons.mpr h)
      rw [List.map_cons, strItems, if_neg (Ne.symm hname), ih (index + 1) hnames]
      rfl

lemma strItems_map_empty (key : String) (index : ℕ) {names read : List String} (h : "" ∈ names) :
    strItems key index (names.map .str) ≠ .ok read := by
  induction names generalizing index read with
  | nil => exact absurd h List.not_mem_nil
  | cons name names ih =>
      rw [List.map_cons, strItems]
      split_ifs with hname
      · exact nofun
      · intro hread
        obtain ⟨rest, hrest, -⟩ := Except.map_eq_ok hread
        exact ih (index + 1) ((List.mem_cons.mp h).resolve_left fun he => hname he.symm) hrest

lemma mapItems_map {β : Type} {key : String} {read : String → Json → Except String β} {write : β → Json}
    {items : List (String × β)} (hkeys : ∀ e ∈ items, e.1 ≠ "")
    (hread : ∀ e ∈ items, read e.1 (write e.2) = .ok e.2) :
    mapItems key read (items.map fun e => (e.1, write e.2)) = .ok items := by
  induction items with
  | nil => rfl
  | cons e items ih =>
      obtain ⟨hkey, hkeys⟩ := List.forall_mem_cons.mp hkeys
      obtain ⟨hhead, hread⟩ := List.forall_mem_cons.mp hread
      rw [List.map_cons, mapItems, if_neg hkey, hhead, ih hkeys hread]
      rfl

/-- What a baseline of a run is: sorted, with a reason for each hole, and with counts of what there is. -/
structure Baseline.Recorded (b : Baseline) : Prop where
  measured : b.measuredChecks.Pairwise (· ≤ ·)
  unmeasured : b.unmeasuredChecks.Pairwise (· ≤ ·)
  reasons : b.unmeasuredReasons.Pairwise fun x y => x.1 ≤ y.1
  signatures : b.signatures.Pairwise fun x y => x.1 ≤ y.1
  mem_unmeasured : ∀ name, name ∈ b.unmeasuredChecks ↔ name ∈ b.unmeasuredReasons.map Prod.fst
  reason_ne_empty : ∀ e ∈ b.unmeasuredReasons, e.2 ≠ ""
  signature_ne_empty : ∀ e ∈ b.signatures, e.1 ≠ ""
  count_pos : ∀ e ∈ b.signatures, 1 ≤ e.2

lemma sameNames_iff {names others : List String} :
    sameNames names others = true ↔ ∀ name, name ∈ names ↔ name ∈ others := by
  simp only [sameNames, Bool.and_eq_true, List.all_eq_true, decide_eq_true_eq]
  exact ⟨fun h name => ⟨h.1 name, h.2 name⟩, fun h => ⟨fun name => (h name).mp, fun name => (h name).mpr⟩⟩

lemma readReason_str {key name reason : String} (h : reason ≠ "") : readReason key name (.str reason) = .ok reason := by
  rw [readReason]
  rintro rfl
  exact h rfl

lemma readCount_int {key name : String} {n : ℤ} (h : 1 ≤ n) : readCount key name (.int n) = .ok n := by
  rw [readCount, if_neg (Int.not_lt.mpr h)]

/-- The document's own fields, read. -/
lemma fromDocument_toDocument_eq (b : Baseline) : Baseline.fromDocument b.toDocument = (do
    let unmeasured ← strItems "unmeasured_checks" 0 ((sortNames b.unmeasuredChecks).map .str)
    let reasons ← mapItems "unmeasured_reasons" (readReason "unmeasured_reasons")
      ((sortItems b.unmeasuredReasons).map fun e => (e.1, .str e.2))
    checkReasons unmeasured reasons
    let measured ← strItems "measured_checks" 0 ((sortNames b.measuredChecks).map .str)
    let signatures ← mapItems "signatures" (readCount "signatures")
      ((sortItems b.signatures).map fun e => (e.1, .int e.2))
    return { b with
      measuredChecks := measured
      unmeasuredChecks := unmeasured
      unmeasuredReasons := reasons
      signatures := signatures }) := by
  obtain ⟨generatedAt, baseRef, project, passed, version, digest, measured, unmeasured, reasons, signatures⟩ := b
  cases baseRef <;> rfl

/-- **A recorded baseline is read back**, exactly if it names no check without a name. -/
lemma Baseline.Recorded.fromDocument_toDocument {b : Baseline} (h : b.Recorded) :
    fromDocument b.toDocument = .ok b ↔ "" ∉ b.measuredChecks ∧ "" ∉ b.unmeasuredChecks := by
  have hsorted : sortNames b.measuredChecks = b.measuredChecks ∧ sortNames b.unmeasuredChecks = b.unmeasuredChecks ∧
      sortItems b.unmeasuredReasons = b.unmeasuredReasons ∧ sortItems b.signatures = b.signatures :=
    ⟨h.measured.insertionSort_eq, h.unmeasured.insertionSort_eq, h.reasons.insertionSort_eq,
      h.signatures.insertionSort_eq⟩
  obtain ⟨hmeasured, hunmeasured, hreasons, hsignatures⟩ := hsorted
  rw [fromDocument_toDocument_eq, hmeasured, hunmeasured, hreasons, hsignatures]
  constructor
  · intro hok
    obtain ⟨unmeasured, hu, hok⟩ := Except.bind_eq_ok hok
    obtain ⟨reasons, _, hok⟩ := Except.bind_eq_ok hok
    obtain ⟨_, _, hok⟩ := Except.bind_eq_ok hok
    obtain ⟨measured, hm, -⟩ := Except.bind_eq_ok hok
    exact ⟨fun he => strItems_map_empty _ _ he hm, fun he => strItems_map_empty _ _ he hu⟩
  · rintro ⟨hm, hu⟩
    have hkeys : ∀ e ∈ b.unmeasuredReasons, e.1 ≠ "" := fun e he hempty =>
      hu ((h.mem_unmeasured "").mpr (hempty ▸ List.mem_map_of_mem he))
    have hsame : checkReasons b.unmeasuredChecks b.unmeasuredReasons = .ok () := by
      rw [checkReasons, if_pos (sameNames_iff.mpr fun name => (h.mem_unmeasured name).symm)]
    rw [strItems_map _ _ hu, strItems_map _ _ hm,
      mapItems_map hkeys fun e he => readReason_str (h.reason_ne_empty e he),
      mapItems_map h.signature_ne_empty fun e he => readCount_int (h.count_pos e he)]
    show (checkReasons b.unmeasuredChecks b.unmeasuredReasons).bind _ = _
    rw [hsame]
    rfl

/-! ## The baseline of a run -/

section Recorded

variable (stripped lower : String → String) (info : Provenance) (result : VerificationResult)

lemma measured_fst_eq : (measuredAndUnmeasured result).1 = result.checks.filter fun check =>
    check.measured && check.name ∉ (measuredAndUnmeasured result).2.map Prod.fst := rfl

lemma reason_ne_empty {e : String × String} (he : e ∈ (measuredAndUnmeasured result).2) : e.2 ≠ "" := by
  rcases List.mem_append.mp (LatestLog.mem_of_mem_latest he) with he | he
  · obtain ⟨gap, -, rfl⟩ := List.mem_map.mp he
    intro hempty
    have hlist := congrArg String.toList hempty
    rw [String.toList_append, String.toList_append] at hlist
    simp at hlist
  · obtain ⟨check, -, rfl⟩ := List.mem_map.mp he
    show (if check.message = "" then noReasonRecorded else check.message) ≠ ""
    split_ifs with hmessage
    · decide
    · exact hmessage

/-- The names that did not measure. -/
lemma mem_unmeasured_iff {name : String} : name ∈ (measuredAndUnmeasured result).2.map Prod.fst ↔
    (∃ gap ∈ result.notMeasured, gap.check = name) ∨
      ∃ check ∈ result.checks, check.measured = false ∧ check.name = name := by
  rw [List.mem_map]
  refine LatestLog.exists_mem_latest_iff.trans ?_
  simp only [List.mem_append, or_and_right, exists_or, List.mem_map, List.mem_filter, Bool.not_eq_true',
    exists_exists_and_eq_and, and_assoc]
  refine or_congr_right ⟨?_, ?_⟩
  · rintro ⟨-, ⟨check, hcheck, hmeasured, rfl⟩, hname⟩
    exact ⟨check, hcheck, hmeasured, hname⟩
  · rintro ⟨check, hcheck, hmeasured, hname⟩
    exact ⟨_, ⟨check, hcheck, hmeasured, rfl⟩, hname⟩

lemma recorded_baselineFromResult : (baselineFromResult stripped lower info result).Recorded where
  measured := (SortedSet.ofList _).sorted.imp fun hlt => hlt.le
  unmeasured := List.pairwise_insertionSort (· ≤ ·) _
  reasons := List.pairwise_insertionSort (fun a b : String × String => a.1 ≤ b.1) _
  signatures := by
    refine List.pairwise_map.mpr ((SortedSet.ofList _).sorted.imp fun hlt => hlt.le)
  mem_unmeasured name := by
    refine (List.mem_insertionSort _).trans ?_
    exact ((List.perm_insertionSort (fun a b : String × String => a.1 ≤ b.1) _).map Prod.fst).mem_iff.symm
  reason_ne_empty e he := reason_ne_empty result (mem_sortItems.mp he)
  signature_ne_empty e he := by
    obtain ⟨signature, hsignature, rfl⟩ := List.mem_map.mp he
    obtain ⟨check, -, rfl⟩ := List.mem_map.mp (SortedSet.mem_toList_ofList.mp hsignature)
    exact signatureForError_ne_empty stripped lower check.name check.message
  count_pos e he := by
    obtain ⟨signature, hsignature, rfl⟩ := List.mem_map.mp he
    exact Int.toNat_le.mp (List.count_pos_iff.mpr (SortedSet.mem_toList_ofList.mp hsignature))

/-- The names of the checks that measured. -/
lemma mem_measured_iff {name : String} : name ∈ (baselineFromResult stripped lower info result).measuredChecks ↔
    ∃ check ∈ (measuredAndUnmeasured result).1, check.name = name :=
  SortedSet.mem_toList_ofList.trans List.mem_map

/-- All checks are in a baseline of the run, measured or not. -/
lemma named_iff : result.Named ↔
    "" ∉ (baselineFromResult stripped lower info result).measuredChecks ∧
      "" ∉ (baselineFromResult stripped lower info result).unmeasuredChecks := by
  have hunmeasured : "" ∈ (baselineFromResult stripped lower info result).unmeasuredChecks ↔
      "" ∈ (measuredAndUnmeasured result).2.map Prod.fst := List.mem_insertionSort _
  rw [hunmeasured, mem_measured_iff]
  constructor
  · rintro ⟨hchecks, hgaps⟩
    refine ⟨?_, fun h => ?_⟩
    · rintro ⟨check, hcheck, hname⟩
      exact hchecks check (List.mem_of_mem_filter hcheck) hname
    · rcases (mem_unmeasured_iff result).mp h with ⟨gap, hgap, hname⟩ | ⟨check, hcheck, -, hname⟩
      · exact hgaps gap hgap hname
      · exact hchecks check hcheck hname
  · rintro ⟨hm, hu⟩
    refine ⟨fun check hcheck hname => ?_, fun gap hgap hname => hu ((mem_unmeasured_iff result).mpr
      (Or.inl ⟨gap, hgap, hname⟩))⟩
    cases hmeasured : check.measured with
    | false => exact hu ((mem_unmeasured_iff result).mpr (Or.inr ⟨check, hcheck, hmeasured, hname⟩))
    | true =>
        refine hm ⟨check, List.mem_filter.mpr ⟨hcheck, ?_⟩, hname⟩
        rw [hmeasured, hname, Bool.true_and]
        exact decide_eq_true hu

/-- **The baseline of a run is read back**, exactly if every check of the run has a name. -/
theorem fromDocument_toDocument :
    Baseline.fromDocument (baselineFromResult stripped lower info result).toDocument
        = .ok (baselineFromResult stripped lower info result) ↔ result.Named :=
  (recorded_baselineFromResult stripped lower info result).fromDocument_toDocument.trans
    (named_iff stripped lower info result).symm

/-- **A failure is fixed only if the check it is of measured something now.** -/
theorem fixed_measured {current : Baseline} {check : CheckResult}
    (hfixed : Bucket.fixed.Holds (baselineFromResult stripped lower info result) current
      (signatureForError stripped lower check.name check.message)) :
    signatureName check.name ∈ current.measuredChecks := by
  have hnow := (holds_fixed.mp hfixed).2.2
  rw [measuredNow, splitSignature_signatureForError] at hnow
  exact of_decide_eq_true hnow

/-- What is a failure of a baseline. -/
lemma mem_failures_iff {signature : String} :
    signature ∈ (baselineFromResult stripped lower info result).failures ↔
      ∃ check ∈ (measuredAndUnmeasured result).1, check.passed = false ∧
        signatureForError stripped lower check.name check.message = signature := by
  show signature ∈ (signatureCounts stripped lower (measuredAndUnmeasured result).1).map Prod.fst ↔ _
  rw [signatureCounts]
  simp only [List.map_map, Function.comp_def, List.map_id', SortedSet.mem_toList_ofList, List.mem_map, List.mem_filter,
    Bool.not_eq_true', and_assoc]

end Recorded

/-! ## Comparing runs -/

/-- **What a baseline and a comparison promise.** The baseline of a run is read back as it was, exactly if every check
of the run has a name. Every failure of either side is in exactly one bucket: new, pre-existing, fixed or unmeasured,
and it is fixed only if its check measured something now. A regression is a failure that is new, a count that rose, or
a check that stopped measuring and that kstrl still has. -/
theorem baseline_comparison (stripped lower : String → String) :
    (∀ info result, Baseline.fromDocument (baselineFromResult stripped lower info result).toDocument
        = .ok (baselineFromResult stripped lower info result) ↔ result.Named) ∧
      (∀ (baseline current : Baseline) (signature : String),
        signature ∈ baseline.failures ∨ signature ∈ current.failures →
          ∃! bucket : Bucket, bucket.Holds baseline current signature) ∧
      (∀ (baseline current : Baseline) (signature : String), Bucket.unmeasured.Holds baseline current signature ↔
        signature ∈ baseline.failures ∧ signature ∉ current.failures ∧
          (splitSignature signature).1 ∉ current.measuredChecks) ∧
      (∀ (baseline current : Baseline) (signature : String), Bucket.fixed.Holds baseline current signature →
        (splitSignature signature).1 ∈ current.measuredChecks) ∧
      (∀ info result (current : Baseline) (check : CheckResult),
        Bucket.fixed.Holds (baselineFromResult stripped lower info result) current
          (signatureForError stripped lower check.name check.message) →
            signatureName check.name ∈ current.measuredChecks) ∧
      ∀ baseline current : Baseline, (compare baseline current).regressed = true ↔
        (∃ signature ∈ current.failures, signature ∉ baseline.failures) ∨
          (∃ signature before count, (signature, count) ∈ current.signatures ∧
            baseline.signatures.lookup signature = some before ∧ before < count) ∨
          ∃ check ∈ baseline.measuredChecks, check ∉ current.measuredChecks ∧ check ∉ retiredChecks := by
  refine ⟨fun info result => fromDocument_toDocument stripped lower info result, fun _ _ _ => compare_partition,
    fun _ _ _ => ?_, fun _ _ _ h => of_decide_eq_true (holds_fixed.mp h).2.2,
    fun info result _ _ h => fixed_measured stripped lower info result h, regressed_iff⟩
  rw [holds_unmeasured, measuredNow, decide_eq_false_iff_not]

/-- A run with one check of a name. -/
def runOf (name message : String) (passed measured : Bool) : VerificationResult where
  passed := passed
  checks := [{ name := name, passed := passed, message := message, measured := measured }]

def someRun : Provenance where
  baseRef := none
  project := "owner/repo"
  generatedAt := ""
  checkSchemaVersion := 3
  digest := "0123456789abcdef"

/-- A failure of a check with a colon in its name, which passes now. -/
theorem baseline_comparison_tests :
    ∃! bucket : Bucket, bucket.Holds (baselineFromResult id id someRun (runOf "stack:tests" "exited 1" false true))
      (baselineFromResult id id someRun (runOf "stack:tests" "exited 0" true true)) "stack:tests:exited-1" :=
  (baseline_comparison id id).2.1 _ _ _ (Or.inl (by decide +kernel))

/-- A failing check times out now: its failure is not new, not in both sides, and not fixed. And a check that kstrl
removed stops being measured without being a regression. -/
theorem timed_out_in_no_bucket :
    ¬ ((∀ base now : VerificationResult, ∀ signature,
          let baseline := baselineFromResult id id someRun base
          let current := baselineFromResult id id someRun now
          signature ∈ baseline.failures ∨ signature ∈ current.failures →
            Bucket.new.Holds baseline current signature ∨ Bucket.preExisting.Holds baseline current signature ∨
              Bucket.fixed.Holds baseline current signature) ∨
        ∀ base now : VerificationResult, ∀ check,
          let baseline := baselineFromResult id id someRun base
          let current := baselineFromResult id id someRun now
          check ∈ baseline.measuredChecks → check ∉ current.measuredChecks →
            (compare baseline current).regressed = true) := by
  rintro (h | h)
  · have hnone := h (runOf "stack:tests" "exited 1" false true) (runOf "stack:tests" "timed out" false false)
      "stack:tests:exited-1" (Or.inl (by decide +kernel))
    rcases hnone with hnew | hboth | hfixed
    · exact absurd hnew (by rw [Bucket.Holds]; decide +kernel)
    · exact absurd hboth.2 (by decide +kernel)
    · exact absurd hfixed (by rw [Bucket.Holds]; decide +kernel)
  · have hquiet := h (runOf "dead_code" "" true true) (runOf "stack:tests" "" true false) "dead_code"
      (by decide +kernel) (by decide +kernel)
    revert hquiet
    decide +kernel

end Verify

end Kstrl
