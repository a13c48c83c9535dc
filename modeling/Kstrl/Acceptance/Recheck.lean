import Kstrl.Acceptance.HeadRecord
import Kstrl.Acceptance.Lines
import Kstrl.Acceptance.PlanFiles

/-!
# Rechecking an acceptance record

`ks recheck` (`kstrl/acceptance/recheck.py`): the files beside a record are compared with `index.json`, the plan copy
with the record, and the checks run again.

`PyNumbers` stands for what Python makes of the numbers of a record: `int` of a value, and whether a `float` is an
integer.

* **`changed_refused`**: a change of a file that the index sees, or of a file of the plan copy, is refused.
* **`unseen_accepted`**: any other change leaves what recheck says as it is; it is one of a file named `index.json`
  outside the plan copy.
* **`stated_exact_iff`**: when a record is taken, its rows are the plan's kept checks, each once with its own flags,
  exactly when no row repeats an id and every row states the plan's flags.
* **`recheck_sound_iff`** puts them together; `added_file_accepted` is a change that is not refused.
-/

namespace Kstrl.Acceptance

def indexFile : String := "index.json"

def recordFile : String := "record.json"

/-- `Path.name` -/
def baseName (name : String) : String := String.ofList (name.toList.reverse.takeWhile (· ≠ '/')).reverse

def checksDir : List Char := "checks/".toList

/-- Whether a file is part of the plan copy. -/
def underChecks (name : String) : Bool := checksDir.isPrefixOf name.toList

lemma lt_of_append {p : List Char} {a b : List Char} (h : p ++ a < p ++ b) : a < b := by
  induction p with
  | nil => exact h
  | cons c p ih =>
      rcases List.cons_lt_cons_iff.mp h with hlt | ⟨-, hlt⟩
      · exact absurd hlt (lt_irrefl c)
      · exact ih hlt

namespace Tree

/-- The plan copy, by the names below `checks`. -/
def relative (e : String × File) : Option (String × File) :=
  if underChecks e.1 then some (String.ofList (e.1.toList.drop checksDir.length), e.2) else none

lemma relative_eq_some {e e' : String × File} (h : relative e = some e') :
    e.1.toList = checksDir ++ e'.1.toList ∧ e'.2 = e.2 := by
  unfold relative at h
  split_ifs at h with hunder
  cases h
  obtain ⟨rest, hrest⟩ := List.isPrefixOf_iff_prefix.mp hunder
  refine ⟨?_, rfl⟩
  rw [String.toList_ofList, ← hrest, List.drop_left]

/-- The files of the plan copy. -/
def planFiles (t : Tree) : Tree where
  entries := t.entries.filterMap relative
  sorted := by
    refine List.pairwise_map.mpr ((List.pairwise_map.mp t.sorted).filterMap relative ?_)
    intro a b hlt a' ha b' hb
    obtain ⟨ha, -⟩ := relative_eq_some ha
    obtain ⟨hb, -⟩ := relative_eq_some hb
    rw [String.lt_iff_toList_lt, ha, hb] at hlt
    exact String.lt_iff_toList_lt.mpr (lt_of_append hlt)

/-- A file as JSON, when it is there and can be read. -/
def document (t : Tree) (name : String) : Option Json := (t.get name).bind File.json

end Tree

/-! ## The index -/

section Index

variable (sha256 : List UInt8 → String)

/-- `evidence_index` -/
def evidenceIndex (t : Tree) : List (String × String) :=
  (t.entries.filter fun e => baseName e.1 ≠ indexFile).map fun e => (e.1, sha256 e.2.data)

/-- Whether the index gives a file the digest it has; `null` stands for nothing. -/
def agrees (said : Option Json) (found : Option String) : Bool :=
  match said, found with
  | some (.str said), some found => said = found
  | none, none => true
  | some .null, none => true
  | _, _ => false

def saidSha : Option String → String
  | some sha => if sha = "" then "nothing" else "sha256 " ++ short sha
  | none => "nothing"

/-- The names where the index and the files differ. -/
def differing (found : List (String × String)) (index : List (String × Json)) : List String :=
  (SortedSet.ofList (found.map Prod.fst ++ index.map Prod.fst)).toList.filter fun name =>
    !agrees (index.lookup name) (found.lookup name)

/-- `_changed_files` -/
def changedFiles (t : Tree) : List String :=
  match t.document indexFile with
  | none => [indexFile ++ " cannot be read"]
  | some (.obj index) =>
      (differing (evidenceIndex sha256 t) index).map fun name =>
        name ++ " reads " ++ saidSha ((evidenceIndex sha256 t).lookup name) ++ ", and " ++ indexFile ++ " says " ++
          saidSha ((index.lookup name).map Json.pyStr)
  | some _ => [indexFile ++ " is not an object of file names"]

end Index

/-! ## The record -/

/-- What Python makes of numbers. -/
structure PyNumbers where
  toInt : Json → Option ℤ
  floatIs : String → ℤ → Bool

section Record

variable (n : PyNumbers)

/-- `verdict_of` of an exit as it stands in a record. -/
def verdictOfJson : Json → Verdict
  | .null => .notRun
  | .int code => verdictOf (some code)
  | .bool b => verdictOf (some (if b then 1 else 0))
  | .float text =>
      if n.floatIs text 0 then .pass else if shellCouldNotRun.any (n.floatIs text) then .notRun else .fail
  | _ => .fail

def headVerdictJson (exits : List Json) : Verdict :=
  let verdicts := exits.map (verdictOfJson n)
  if verdicts ≠ [] ∧ ∀ verdict ∈ verdicts, verdict = .pass then .pass
  else if .fail ∈ verdicts then .fail else .notRun

/-- Whether a value can be a key of a dict. -/
def isHashable : Json → Bool
  | .arr _ => false
  | .obj _ => false
  | _ => true

/-- A row of a record: its id, with the verdict it states and the verdict of its exits. -/
def statedRow (row : Json) : Option (Json × Json × Verdict) := do
  let id ← row.get? "id"
  let verdict ← row.get? "verdict"
  let exits ← (← row.get? "headExits").iter?
  if isHashable id then some (id, verdict, headVerdictJson n exits) else none

/-- A full commit id. -/
def isCommit (s : String) : Bool :=
  (s.toList.length = 40 ∨ s.toList.length = 64) &&
    s.toList.all fun c => ('0' ≤ c && c ≤ '9') || ('a' ≤ c && c ≤ 'f')

/-- A record as it is read. -/
structure RecordRead where
  comp : Json
  planId : Json
  head : String
  runs : ℤ
  ranUnder : String
  stated : List (Json × Json × Verdict)
  removed : List String

def commitOf : Json → Option String
  | .str s => if isCommit s then some s else none
  | _ => none

def testLabel : Json → Option String
  | .obj fields => some (((fields.lookup testZone).map Json.pyStr).getD hostLabel)
  | _ => none

def readRecord (record : Json) : Option RecordRead := do
  let comp ← record.get? "component"
  let planId ← record.get? "planId"
  let head ← commitOf (← record.get? "headSha")
  let runs ← n.toInt (← record.get? "headRuns")
  let ranUnder ← testLabel (← record.get? "isolation")
  let stated ← (← (← record.get? "checks").iter?).mapM (statedRow n)
  let removed ← ((record.get? "removed").getD (.arr [])).iter?
  some ⟨comp, planId, head, runs, ranUnder, stated, removed.map Json.pyStr⟩

end Record

/-! ## The checks of a record -/

def isNumber : Json → Bool
  | .int _ => true
  | .float _ => true
  | .bool _ => true
  | _ => false

def isNull : Json → Bool
  | .null => true
  | _ => false

/-- The rows of a record as a dict under their ids; none when an id is no text. -/
def statedDict (stated : List (Json × Json × Verdict)) : Option (List (String × Json × Verdict)) :=
  (Json.strings? (stated.map Prod.fst)).map fun ids => Keyed.dict (ids.zip (stated.map Prod.snd))

/-- `_names_its_checks`; none when the ids cannot be sorted. -/
def namesItsChecks (designed : Bool) (part : ComponentPlan) (stated : List (Json × Json × Verdict))
    (removed : List String) : Option Bool :=
  match statedDict stated with
  | some dict =>
      some ((dict.map Prod.fst ++ removed).isPerm (part.checks.map Check.id) && (designed || removed = []))
  | none =>
      if removed = [] ∧ ((stated.map Prod.fst).all isNumber ∨ (stated.map Prod.fst).all isNull) then some false else none

/-- How a recheck ends. -/
inductive Said where
  | refused (errors : List String)
  | raised
  | said (lines : List String) (agrees : Bool)
  deriving DecidableEq, Repr

section Saved

variable (sha256 : List UInt8 → String)

/-- `_saved_plan`: the plan copy with the component of a record. -/
def savedPlan (t : Tree) (planId comp : Json) : Except Said (PinnedPlan × String × ComponentPlan) :=
  let found := digest sha256 t.planFiles
  if t.planFiles.entries = [] then .error (.refused ["the saved checks cannot be read"])
  else if planId.pyStr ≠ found ∨ planId.typeName ≠ "str" then
    .error (.refused ["the saved checks read " ++ short found ++ ", and the record's plan is " ++ short planId.pyStr])
  else match t.planFiles.document planFile with
    | none => .error (.refused [planFile ++ " cannot be read"])
    | some raw =>
        let errors := planErrors raw (keysOf (raw.field "components"))
        if errors ≠ [] then .error (.refused (errors.map fun line => planFile ++ ": " ++ line))
        else match parsed sha256 raw with
          | none => .error .raised
          | some components =>
              match comp with
              | .str c =>
                  match (Keyed.dict components).lookup c with
                  | some part => .ok (planOf sha256 t.planFiles components, c, part)
                  | none => .error (.refused ["the saved plan " ++ planFile ++ " has no component " ++ comp.pyRepr])
              | _ =>
                  if isHashable comp then
                    .error (.refused ["the saved plan " ++ planFile ++ " has no component " ++ comp.pyRepr])
                  else .error .raised

/-- `_stack` -/
def stackErrors (stack : Option Stack) (recorded : Json) : List String :=
  match stack with
  | none => ["kstrl.toml has no [stack], and the checks run only in its replay"]
  | some stack =>
      if recorded.typeName = "str" ∧ recorded.pyStr = stack.digest then []
      else ["the record ran under the [stack] " ++ short recorded.pyStr ++ ", and kstrl.toml now reads " ++
        short stack.digest ++ ": a run under another recipe is not a recheck"]

end Saved

/-! ## The recheck -/

section Recheck

variable (sha256 : List UInt8 → String) (n : PyNumbers)

/-- `_compared`: a line for each check, and whether every verdict agrees. -/
def comparedLine (stated : List (String × Json × Verdict)) (e : String × List (Option ℤ)) : String × Bool :=
  let (recordSays, exitsSay) := (stated.lookup e.1).getD (.null, .notRun)
  let now := headVerdict e.2
  let shown := if e.2 = [] then "none" else String.intercalate ", " (e.2.map codeText)
  ("- " ++ e.1 ++ ": the record says " ++ recordSays.pyStr ++ ", its exits say " ++ exitsSay.value ++
      ", the recheck says " ++ now.value ++ " (exits " ++ shown ++ ")",
    recordSays.typeName = "str" ∧ recordSays.pyStr = exitsSay.value ∧ exitsSay = now)

def compared (lines : List String) (stated : List (String × Json × Verdict))
    (exits : List (String × List (Option ℤ))) : Said :=
  let differ := (exits.filter fun e => !(comparedLine stated e).2).map Prod.fst
  let lines := lines ++ exits.map fun e => (comparedLine stated e).1
  if differ ≠ [] then
    .said (lines ++ ["The recheck disagrees with the record on " ++ String.intercalate ", " differ ++ "."]) false
  else .said (lines ++ ["The recheck agrees with the record."]) true

/-- `_run_again`, and what is said of it. -/
def runAgain (w : World) (stack : Stack) (plan : PinnedPlan) (comp : String) (part : ComponentPlan) (r : RecordRead) :
    Said :=
  let checks := part.checks.filter fun check => check.id ∉ r.removed
  match replayStack w stack r.head (some (probe w (checks.map fun check => (comp, check)) r.runs.toNat)) with
  | .error _ => .raised
  | .ok (replay, runs) =>
      if replay.unreplayed then
        .refused ["the checks did not run at " ++ short r.head ++ ": " ++
          if replay.error ≠ "" then replay.error else replay.detail]
      else
        let lines := ["Recheck of " ++ comp ++ ": plan " ++ short plan.digest ++ ", head " ++ short r.head ++ ", " ++
            toString r.runs ++ " run(s) per check",
          "- the record ran under: " ++ r.ranUnder,
          "- this recheck ran under: " ++ testIsolation replay] ++
          if replay.failed ≠ "" then ["- the head replay stopped: " ++ replay.detail] else []
        compared lines ((statedDict r.stated).getD [])
          (checks.map fun check => (check.id, (runs.get comp check.id).map Stage.exit))

/-- What is taken from a record before the checks run. -/
structure Taken where
  read : RecordRead
  plan : PinnedPlan
  comp : String
  part : ComponentPlan
  stack : Stack

/-- The checks of a record against its directory and the stack. -/
def take (stack : Option Stack) (t : Tree) (record : Json) : Except Said Taken :=
  match readRecord n record with
  | none => .error (.refused ["the record is not an acceptance record"])
  | some r =>
      let stackErrors := stackErrors stack (record.field "stackDigest")
      match savedPlan sha256 t r.planId r.comp with
      | .error (.refused errors) => .error (.refused (errors ++ stackErrors))
      | .error other => .error other
      | .ok (plan, comp, part) =>
          match namesItsChecks plan.designed part r.stated r.removed with
          | none => .error .raised
          | some named =>
              let errors := stackErrors ++
                if named then [] else ["the record does not name the checks of its plan's " ++ comp]
              match stack with
              | none => .error (.refused errors)
              | some stack => if errors ≠ [] then .error (.refused errors) else .ok ⟨r, plan, comp, part, stack⟩

/-- `recheck_record` -/
def recheckRecord (w : World) (stack : Option Stack) (t : Tree) (recordName : String) : Said :=
  match t.document recordName with
  | none => .refused [recordName ++ " cannot be read"]
  | some record =>
      if changedFiles sha256 t ≠ [] then .refused (changedFiles sha256 t)
      else match take sha256 n stack t record with
        | .error said => said
        | .ok taken => runAgain w taken.stack taken.plan taken.comp taken.part taken.read

end Recheck

/-! ## What the walks see -/

/-- The name of a file of the plan copy in the directory. -/
def fullName (name : String) : String := String.ofList (checksDir ++ name.toList)

lemma underChecks_iff {name : String} : underChecks name = true ↔ ∃ rel, name = fullName rel := by
  rw [underChecks, List.isPrefixOf_iff_prefix]
  constructor
  · rintro ⟨rest, hrest⟩
    refine ⟨String.ofList rest, String.toList_injective ?_⟩
    rw [fullName, String.toList_ofList, String.toList_ofList, hrest]
  · rintro ⟨rel, rfl⟩
    rw [fullName, String.toList_ofList]
    exact List.prefix_append _ _

namespace Tree

lemma relative_fullName (name : String) (file : File) : relative (fullName name, file) = some (name, file) := by
  rw [relative, if_pos (underChecks_iff.mpr ⟨name, rfl⟩)]
  dsimp only
  rw [fullName, String.toList_ofList, List.drop_left, String.ofList_toList]

/-- What is found in the plan copy. -/
lemma get_planFiles (t : Tree) (name : String) : t.planFiles.get name = t.get (fullName name) := by
  refine Option.ext fun file => ?_
  rw [get_eq_some, get_eq_some]
  constructor
  · intro h
    obtain ⟨e, he, hrel⟩ := List.mem_filterMap.mp h
    obtain ⟨hname, hfile⟩ := relative_eq_some hrel
    have : e = (fullName name, file) := by
      refine Prod.ext (String.toList_injective ?_) hfile.symm
      rw [hname, fullName, String.toList_ofList]
    exact this ▸ he
  · exact fun h => List.mem_filterMap.mpr ⟨_, h, relative_fullName name file⟩

/-- What counts of a file: its bytes, and in the plan copy its mode. -/
def entry (t : Tree) (name : String) : Option (List UInt8 × Bool) :=
  (t.get name).map fun file => (file.data, underChecks name && file.executable)

lemma data_of_entry {t t' : Tree} {name : String} (h : t.entry name = t'.entry name) :
    (t.get name).map File.data = (t'.get name).map File.data := by
  have hfst := congrArg (Option.map Prod.fst) h
  rwa [entry, entry, Option.map_map, Option.map_map] at hfst

lemma entry_of_data {t t' : Tree} {name : String} (hunder : underChecks name = false)
    (h : (t.get name).map File.data = (t'.get name).map File.data) : t.entry name = t'.entry name := by
  have hmap := congrArg (Option.map fun data => (data, false)) h
  rw [Option.map_map, Option.map_map] at hmap
  simp only [entry, hunder, Bool.false_and]
  exact hmap

lemma get_of_entry {t t' : Tree} {name : String} (hunder : underChecks name = true)
    (h : t.entry name = t'.entry name) : t.get name = t'.get name := by
  simp only [entry, hunder, Bool.true_and] at h
  refine Option.map_injective (fun a b hab => ?_) h
  obtain ⟨hdata, hmode⟩ := Prod.mk.inj hab
  cases a
  cases b
  cases hdata
  cases hmode
  rfl

lemma document_of_data {t t' : Tree} {name : String} (h : (t.get name).map File.data = (t'.get name).map File.data) :
    t.document name = t'.document name := by
  have hjson : ∀ t : Tree, t.document name = ((t.get name).map File.data).bind fun data =>
      (PyCodec.decodeUtf8 data).bind fun text => Json.loads (String.ofList text) := fun t => by
    rw [document, Option.bind_map]
    rfl
  rw [hjson, hjson, h]

end Tree

section Walk

variable {sha256 : List UInt8 → String}

lemma evidenceIndex_eq (t : Tree) : evidenceIndex sha256 t = Keyed.filterMap
    (fun name file => if baseName name ≠ indexFile then some (sha256 file.data) else none) t.entries := by
  rw [evidenceIndex, Keyed.filterMap]
  induction t.entries with
  | nil => rfl
  | cons e l ih =>
      rw [List.filter_cons, List.filterMap_cons, ← ih]
      by_cases h : baseName e.1 ≠ indexFile
      · rw [if_pos (decide_eq_true h), if_pos h]
        rfl
      · rw [if_neg (fun hd => h (of_decide_eq_true hd)), if_neg h]
        rfl

/-- What the index says of a file. -/
lemma lookup_evidenceIndex (t : Tree) (name : String) : (evidenceIndex sha256 t).lookup name =
    if baseName name ≠ indexFile then ((t.get name).map File.data).map sha256 else none := by
  rw [evidenceIndex_eq, Keyed.lookup_filterMap _ t.keys_nodup, Tree.get]
  cases t.entries.lookup name with
  | none => split_ifs <;> rfl
  | some file => split_ifs <;> rfl

lemma evidenceIndex_sorted (t : Tree) : ((evidenceIndex sha256 t).map Prod.fst).Pairwise (· < ·) := by
  have hkeys : (evidenceIndex sha256 t).map Prod.fst =
      (t.entries.filter fun e => baseName e.1 ≠ indexFile).map Prod.fst := by
    rw [evidenceIndex, List.map_map]
    rfl
  rw [hkeys]
  exact t.sorted.sublist (List.filter_sublist.map _)

lemma agrees_self (found : Option String) : agrees (found.map Json.str) found = true := by
  cases found with
  | none => rfl
  | some sha => exact decide_eq_true rfl

lemma eq_of_agrees {said found : Option String} (h : agrees (said.map Json.str) found = true) : said = found := by
  cases said with
  | none =>
      cases found with
      | none => rfl
      | some _ => cases h
  | some sha =>
      cases found with
      | none => cases h
      | some found => exact congrArg some (of_decide_eq_true h)

/-- **The index agrees** when it says of every name what is found there. -/
lemma changedFiles_eq_nil_iff {t : Tree} : changedFiles sha256 t = [] ↔
    ∃ index, t.document indexFile = some (.obj index) ∧
      ∀ name, agrees (index.lookup name) ((evidenceIndex sha256 t).lookup name) = true := by
  unfold changedFiles
  split
  · rename_i hdoc
    refine iff_of_false (List.cons_ne_nil _ _) ?_
    rintro ⟨index, h, -⟩
    rw [hdoc] at h
    cases h
  · rename_i index hdoc
    rw [List.map_eq_nil_iff, differing, List.filter_eq_nil_iff]
    constructor
    · intro h
      refine ⟨index, hdoc, fun name => ?_⟩
      by_cases hname : name ∈ (evidenceIndex sha256 t).map Prod.fst ++ index.map Prod.fst
      · simpa using h name (SortedSet.mem_toList_ofList.mpr hname)
      · rw [List.mem_append, not_or] at hname
        rw [Keyed.lookup_eq_none hname.1, Keyed.lookup_eq_none hname.2]
        rfl
    · rintro ⟨index', hdoc', hagrees⟩ name -
      rw [hdoc] at hdoc'
      cases hdoc'
      rw [hagrees name]
      decide
  · rename_i other hother hdoc
    refine iff_of_false (List.cons_ne_nil _ _) ?_
    rintro ⟨index, h, -⟩
    rw [hdoc] at h
    cases h
    exact hother index rfl

end Walk

/-! ## Changes of a directory -/

/-- What an attempt leaves: an index of its files, and a record that names the plan copy. -/
structure AttemptWrote (sha256 : List UInt8 → String) (t : Tree) : Prop where
  index : ∃ index, t.document indexFile = some (.obj index) ∧
    ∀ name, index.lookup name = ((evidenceIndex sha256 t).lookup name).map Json.str
  record : ∃ record, t.document recordFile = some record ∧
    record.get? "planId" = some (.str (digest sha256 t.planFiles))

/-- A file was changed, added, removed or renamed. -/
def Changed (t t' : Tree) : Prop := ∃ name, t.entry name ≠ t'.entry name

/-- A change of the index itself, of a file under another name, or of the plan copy. -/
def Seen (t t' : Tree) : Prop :=
  ∃ name, t.entry name ≠ t'.entry name ∧ (name = indexFile ∨ baseName name ≠ indexFile ∨ underChecks name = true)

/-- The index was rewritten and agrees with the files beside it. -/
def Reindexed (sha256 : List UInt8 → String) (t t' : Tree) : Prop :=
  t.entry indexFile ≠ t'.entry indexFile ∧ changedFiles sha256 t' = []

def Refused : Said → Prop
  | .refused errors => errors ≠ []
  | _ => False

section Changes

variable {sha256 : List UInt8 → String} {n : PyNumbers} {t t' : Tree}

/-- A record of another plan copy is refused. -/
lemma take_refused {record : Json} {stack : Option Stack} {planId : String}
    (hplan : record.get? "planId" = some (.str planId)) (hne : planId ≠ digest sha256 t.planFiles) :
    ∃ errors ≠ [], take sha256 n stack t record = .error (.refused errors) := by
  unfold take
  cases hread : readRecord n record with
  | none => exact ⟨_, List.cons_ne_nil _ _, rfl⟩
  | some r =>
      have hr : r.planId = .str planId := by
        simp only [readRecord, hplan, Option.bind_eq_bind, Option.bind_eq_some_iff, Option.some.injEq] at hread
        obtain ⟨comp, -, planId', rfl, -, -, -, -, -, -, -, -, -, -, -, -, -, -, -, -, -, -, -, -, rfl⟩ := hread
        rfl
      have hsaved : ∃ errors ≠ [], savedPlan sha256 t r.planId r.comp = .error (.refused errors) := by
        unfold savedPlan
        by_cases hempty : t.planFiles.entries = []
        · exact ⟨_, List.cons_ne_nil _ _, if_pos hempty⟩
        · refine ⟨_, List.cons_ne_nil _ _, (if_neg hempty).trans (if_pos (.inl ?_))⟩
          rw [hr]
          exact hne
      obtain ⟨errors, herrors, hsaved⟩ := hsaved
      refine ⟨errors ++ stackErrors stack (record.field "stackDigest"), ?_, ?_⟩
      · exact fun h => herrors (List.append_eq_nil_iff.mp h).1
      · dsimp only
        rw [hsaved]

/-- What an attempt wrote agrees with its index. -/
lemma changedFiles_written (ht : AttemptWrote sha256 t) : changedFiles sha256 t = [] := by
  obtain ⟨index, hdoc, hgives⟩ := ht.index
  refine changedFiles_eq_nil_iff.mpr ⟨index, hdoc, fun name => ?_⟩
  rw [hgives]
  exact agrees_self _

/-- A directory whose index agrees, with the files of another, has its files where the index looks. -/
lemma data_of_index (hsha : Function.Injective sha256) (ht : AttemptWrote sha256 t)
    (hindex : t.entry indexFile = t'.entry indexFile) (hagree : changedFiles sha256 t' = []) {name : String}
    (hname : baseName name ≠ indexFile) : (t.get name).map File.data = (t'.get name).map File.data := by
  obtain ⟨index, hdoc, hgives⟩ := ht.index
  obtain ⟨index', hdoc', hagrees⟩ := changedFiles_eq_nil_iff.mp hagree
  rw [← Tree.document_of_data (Tree.data_of_entry hindex), hdoc] at hdoc'
  cases hdoc'
  have hsame := hagrees name
  rw [hgives name] at hsame
  have hlookup := eq_of_agrees hsame
  rw [lookup_evidenceIndex, lookup_evidenceIndex, if_pos hname, if_pos hname] at hlookup
  exact Option.map_injective hsha hlookup

/-- **A change that the walks see is refused.** -/
theorem changed_refused (hsha : Function.Injective sha256) (ht : AttemptWrote sha256 t) (hseen : Seen t t')
    (hnew : ¬ Reindexed sha256 t t') (w : World) (stack : Option Stack) :
    Refused (recheckRecord sha256 n w stack t' recordFile) := by
  unfold recheckRecord
  cases hrecord' : t'.document recordFile with
  | none => exact List.cons_ne_nil _ _
  | some record' =>
      dsimp only
      by_cases hagree : changedFiles sha256 t' ≠ []
      · rw [if_pos hagree]
        exact hagree
      rw [if_neg hagree]
      have hagree := not_not.mp hagree
      have hindex : t.entry indexFile = t'.entry indexFile := by
        by_contra hne
        exact hnew ⟨hne, hagree⟩
      obtain ⟨name, hne, hwhere⟩ := hseen
      have hunder : underChecks name = true := by
        by_contra hnot
        rcases hwhere with rfl | hname | hunder
        · exact hne hindex
        · exact hne (Tree.entry_of_data (Bool.not_eq_true _ ▸ hnot) (data_of_index hsha ht hindex hagree hname))
        · exact hnot hunder
      -- the plan copy has another digest than the record names
      have hdigest : digest sha256 t.planFiles ≠ digest sha256 t'.planFiles := by
        intro hsame
        have hplan := digest_injective hsha hsame
        obtain ⟨rel, rfl⟩ := underChecks_iff.mp hunder
        have hget := congrArg (Tree.get · rel) hplan
        simp only [Tree.get_planFiles] at hget
        exact hne (by rw [Tree.entry, Tree.entry, hget])
      obtain ⟨record, hrecord, hplanId⟩ := ht.record
      have hname : baseName recordFile ≠ indexFile := by decide
      have hsame := Tree.document_of_data (data_of_index hsha ht hindex hagree hname)
      rw [hrecord, hrecord'] at hsame
      cases hsame
      have hrefused : ∃ errors ≠ [], take sha256 n stack t' record' = .error (.refused errors) :=
        take_refused hplanId hdigest
      obtain ⟨errors, herrors, htake⟩ := hrefused
      rw [htake]
      exact herrors

lemma take_congr (h : t.planFiles = t'.planFiles) (stack : Option Stack) (record : Json) :
    take sha256 n stack t record = take sha256 n stack t' record := by
  simp only [take, savedPlan, h]

/-- **What the walks do not see changes nothing.** -/
theorem unseen_accepted (h : ¬ Seen t t') (w : World) (stack : Option Stack) :
    recheckRecord sha256 n w stack t' recordFile = recheckRecord sha256 n w stack t recordFile := by
  have hentry : ∀ name, name = indexFile ∨ baseName name ≠ indexFile ∨ underChecks name = true →
      t.entry name = t'.entry name := fun name hwhere => by
    by_contra hne
    exact h ⟨name, hne, hwhere⟩
  have hindex : t.document indexFile = t'.document indexFile :=
    Tree.document_of_data (Tree.data_of_entry (hentry _ (.inl rfl)))
  have hrecord : t.document recordFile = t'.document recordFile :=
    Tree.document_of_data (Tree.data_of_entry (hentry _ (.inr (.inl (by decide)))))
  have hfiles : evidenceIndex sha256 t = evidenceIndex sha256 t' := by
    refine Keyed.eq_of_lookup (evidenceIndex_sorted t) (evidenceIndex_sorted t') fun name => ?_
    rw [lookup_evidenceIndex, lookup_evidenceIndex]
    split_ifs with hname
    · rw [Tree.data_of_entry (hentry name (.inr (.inl hname)))]
    · rfl
  have hplan : t.planFiles = t'.planFiles := Tree.ext_get fun rel => by
    rw [Tree.get_planFiles, Tree.get_planFiles]
    have hunder : underChecks (fullName rel) = true := underChecks_iff.mpr ⟨rel, rfl⟩
    exact Tree.get_of_entry hunder (hentry _ (.inr (.inr hunder)))
  have hchanged : changedFiles sha256 t = changedFiles sha256 t' := by rw [changedFiles, changedFiles, hindex, hfiles]
  rw [recheckRecord, recheckRecord, hrecord, hchanged]
  cases t'.document recordFile with
  | none => rfl
  | some record => dsimp only; rw [take_congr hplan]

end Changes

/-! ## The rows of a record -/

/-- The rows of a record. -/
def rowsOf (record : Json) : List Json := ((record.get? "checks").bind Json.iter?).getD []

/-- The checks that run again. -/
def Taken.kept (x : Taken) : List Check := x.part.checks.filter fun check => check.id ∉ x.read.removed

/-- A row states the digest of a check, which its argv is part of, and its flags. -/
structure StatesPlan (row : Json) (check : Check) : Prop where
  sha256 : row.get? "sha256" = some (.str check.sha256)
  kind : row.get? "kind" = some (.str (if check.heldOut then "held out" else "visible"))
  heldOut : row.get? "heldOut" = some (.bool check.heldOut)

/-- A record lists each check once, as it is planned. -/
structure ListsExactly (record : Json) (kept : List Check) : Prop where
  once : ((rowsOf record).map fun row => row.get? "id").Perm (kept.map fun check => some (.str check.id))
  planned : ∀ row ∈ rowsOf record, ∃ check ∈ kept, row.get? "id" = some (.str check.id) ∧ StatesPlan row check

/-- No row repeats an id, and each states what the plan does of its check. -/
def ClearRows (record : Json) (part : ComponentPlan) : Prop :=
  ((rowsOf record).map fun row => row.get? "id").Nodup ∧
    ∀ row ∈ rowsOf record, ∀ check ∈ part.checks, row.get? "id" = some (.str check.id) → StatesPlan row check

section Rows

variable {sha256 : List UInt8 → String} {n : PyNumbers} {t : Tree} {record : Json}

/-- What a record that was taken has passed. -/
lemma take_eq_ok {stack : Option Stack} {x : Taken} (h : take sha256 n stack t record = .ok x) :
    readRecord n record = some x.read ∧
      namesItsChecks x.plan.designed x.part x.read.stated x.read.removed = some true := by
  unfold take at h
  cases hread : readRecord n record with
  | none =>
      rw [hread] at h
      cases h
  | some r =>
      rw [hread] at h
      dsimp only at h
      split at h
      · cases h
      · cases h
      · rename_i plan comp part hsaved
        cases hnamed : namesItsChecks plan.designed part r.stated r.removed with
        | none =>
            rw [hnamed] at h
            cases h
        | some named =>
            rw [hnamed] at h
            cases stack with
            | none => cases h
            | some stack =>
                cases named with
                | true =>
                    dsimp only at h
                    rw [if_pos rfl, List.append_nil] at h
                    split_ifs at h
                    cases h
                    exact ⟨rfl, hnamed⟩
                | false =>
                    dsimp only at h
                    rw [if_pos (List.append_ne_nil_of_right_ne_nil _ (by simp))] at h
                    cases h

lemma id_of_statedRow {row : Json} {e : Json × Json × Verdict} (h : statedRow n row = some e) :
    row.get? "id" = some e.1 := by
  simp only [statedRow, Option.bind_eq_bind, Option.bind_eq_some_iff] at h
  obtain ⟨id, hid, verdict, -, exits, -, list, -, h⟩ := h
  split_ifs at h
  cases h
  exact hid

/-- The ids of the rows. -/
lemma ids_of_readRecord {r : RecordRead} (h : readRecord n record = some r) :
    (rowsOf record).map (fun row => row.get? "id") = r.stated.map fun e => some e.1 := by
  simp only [readRecord, Option.bind_eq_bind, Option.bind_eq_some_iff, Option.some.injEq] at h
  obtain ⟨comp, -, planId, -, headSha, -, head, -, headRuns, -, runs, -, isolation, -, ranUnder, -, checks, hchecks, rows,
    hrows, stated, hstated, removed, -, rfl⟩ := h
  rw [rowsOf, hchecks, Option.bind_some, hrows, Option.getD_some]
  clear hrows
  induction rows generalizing stated with
  | nil =>
      cases hstated
      rfl
  | cons row rows ih =>
      rw [List.mapM_cons] at hstated
      obtain ⟨e, he, hstated⟩ := Option.bind_eq_some_iff.mp hstated
      obtain ⟨es, hes, hstated⟩ := Option.bind_eq_some_iff.mp hstated
      cases hstated
      rw [List.map_cons, List.map_cons, id_of_statedRow he, ih es hes]

lemma eq_map_of_strings? {l : List Json} {ids : List String} (h : Json.strings? l = some ids) :
    l = ids.map Json.str := by
  induction l generalizing ids with
  | nil =>
      cases h
      rfl
  | cons a l ih =>
      cases a with
      | str s =>
          obtain ⟨rest, hrest, rfl⟩ := Option.map_eq_some_iff.mp h
          rw [List.map_cons, ← ih hrest]
      | _ => cases h

/-- A record that names its checks has the ids of the kept ones, and no other. -/
lemma mem_ids_of_named {designed : Bool} {part : ComponentPlan} {stated : List (Json × Json × Verdict)}
    {removed : List String} (h : namesItsChecks designed part stated removed = some true) :
    ∃ ids : List String, stated.map Prod.fst = ids.map Json.str ∧
      ∀ id, id ∈ ids ↔ id ∈ (part.checks.filter fun check => check.id ∉ removed).map Check.id := by
  unfold namesItsChecks at h
  split at h
  · rename_i dict hdict
    obtain ⟨ids, hids, rfl⟩ := Option.map_eq_some_iff.mp hdict
    have heq := eq_map_of_strings? hids
    refine ⟨ids, heq, fun id => ?_⟩
    have hlength : ids.length ≤ (stated.map Prod.snd).length := by
      have hlen := congrArg List.length heq
      simp only [List.length_map] at hlen ⊢
      exact hlen.ge
    have hperm := List.isPerm_iff.mp (Bool.and_eq_true_iff.mp (Option.some.inj h)).1
    have hnodup := hperm.nodup_iff.mpr part.ids_nodup
    have hkeys : id ∈ ids ↔ id ∈ (Keyed.dict (ids.zip (stated.map Prod.snd))).map Prod.fst := by
      rw [Keyed.mem_keys_dict, List.map_fst_zip hlength]
    have hkept : id ∈ (part.checks.filter fun check => check.id ∉ removed).map Check.id ↔
        id ∈ part.checks.map Check.id ∧ id ∉ removed := by
      simp only [List.mem_map, List.mem_filter, decide_eq_true_eq]
      grind
    rw [hkeys, hkept, ← hperm.mem_iff, List.mem_append]
    constructor
    · exact fun hid => ⟨.inl hid, (List.disjoint_of_nodup_append hnodup) hid⟩
    · rintro ⟨hid | hid, hnot⟩
      · exact hid
      · exact absurd hid hnot
  · split_ifs at h
    cases h

/-- **The rows of a record that was taken** are those of the kept checks, each once and as it is planned, exactly when
none is repeated and each states what the plan does. -/
theorem stated_exact_iff {stack : Option Stack} {x : Taken} (h : take sha256 n stack t record = .ok x) :
    ListsExactly record x.kept ↔ ClearRows record x.part := by
  obtain ⟨hread, hnamed⟩ := take_eq_ok h
  obtain ⟨ids, hids, hmem⟩ := mem_ids_of_named hnamed
  have hrows : (rowsOf record).map (fun row => row.get? "id") = ids.map fun id => some (.str id) := by
    rw [ids_of_readRecord hread]
    have hmap := congrArg (List.map some) hids
    rwa [List.map_map, List.map_map] at hmap
  have hinj : Function.Injective fun id : String => some (Json.str id) := fun a b hab => by
    cases hab
    rfl
  have hkeptNodup : (x.kept.map Check.id).Nodup := x.part.ids_nodup.sublist (List.filter_sublist.map _)
  have hkeptMap : (x.kept.map fun check => some (Json.str check.id)) =
      (x.kept.map Check.id).map fun id => some (.str id) := by rw [List.map_map]; rfl
  constructor
  · rintro ⟨honce, hplanned⟩
    rw [hkeptMap] at honce
    refine ⟨honce.nodup_iff.mpr (hkeptNodup.map hinj), fun row hrow check hcheck hid => ?_⟩
    obtain ⟨check', hcheck', hid', hstates⟩ := hplanned row hrow
    have hsame : check'.id = check.id := hinj (hid'.symm.trans hid)
    rwa [List.inj_on_of_nodup_map x.part.ids_nodup (List.mem_filter.mp hcheck').1 hcheck hsame] at hstates
  · rintro ⟨hnodup, hstates⟩
    rw [hrows] at hnodup
    refine ⟨?_, fun row hrow => ?_⟩
    · rw [hrows, hkeptMap]
      exact ((List.perm_ext_iff_of_nodup (List.Nodup.of_map _ hnodup) hkeptNodup).mpr hmem).map _
    · have hrowId : row.get? "id" ∈ ids.map fun id => some (Json.str id) := hrows ▸ List.mem_map_of_mem hrow
      obtain ⟨id, hid, hrowId⟩ := List.mem_map.mp hrowId
      obtain ⟨check, hcheck, rfl⟩ := List.mem_map.mp ((hmem id).mp hid)
      exact ⟨check, hcheck, hrowId.symm, hstates row hrow check (List.mem_filter.mp hcheck).1 hrowId.symm⟩

end Rows

/-! ## Soundness -/

/-- Whether a recheck agrees with the record. -/
def Said.agreed : Said → Bool
  | .said _ agrees => agrees
  | _ => false

lemma agreed_of_savedPlan {sha256 : List UInt8 → String} {t : Tree} {planId comp : Json} {said : Said}
    (h : savedPlan sha256 t planId comp = .error said) : said.agreed = false := by
  unfold savedPlan at h
  dsimp only at h
  split at h
  · cases h
    rfl
  · split at h
    · cases h
      rfl
    · split at h
      · cases h
        rfl
      · split at h
        · cases h
          rfl
        · split at h
          · cases h
            rfl
          · split at h
            · split at h <;> cases h
              rfl
            · split at h <;> cases h <;> rfl

/-- A record that is not taken does not agree. -/
lemma agreed_of_take {sha256 : List UInt8 → String} {n : PyNumbers} {t : Tree} {stack : Option Stack} {record : Json}
    {said : Said} (h : take sha256 n stack t record = .error said) : said.agreed = false := by
  unfold take at h
  dsimp only at h
  split at h
  · cases h
    rfl
  · split at h
    · cases h
      rfl
    · rename_i hsaved
      cases h
      exact agreed_of_savedPlan hsaved
    · split at h
      · cases h
        rfl
      · split at h
        · cases h
          rfl
        · split_ifs at h <;> cases h <;> rfl

def jsonFile (j : Json) : File := ⟨TextLines.encode (Json.Layout.compact.write 0 j), false⟩

lemma jsonFile_json {j : Json} (h : j.WellFormed) : (jsonFile j).json = some j := by
  rw [File.json, jsonFile, TextLines.decodeUtf8_encode_eq, Option.bind_some]
  exact Json.Layout.compact.loads_line _ h

def oneRowJson : Json :=
  .obj [("id", .str "a"), ("sha256", .str (oneCheck bytesText "./a").sha256), ("kind", .str "held out"),
    ("heldOut", .bool true), ("headExits", .arr [.int 0]), ("verdict", .str "pass")]

def oneRecordJson : Json :=
  .obj [("component", .str "c"), ("planId", .str (digest bytesText (onePlanFiles "./a"))), ("stackDigest", .str "s1"),
    ("headSha", .str "0123456789012345678901234567890123456789"), ("isolation", .obj []), ("headRuns", .int 1),
    ("checks", .arr [oneRowJson]), ("removed", .arr [])]

def oneIndexJson : Json :=
  .obj [("checks/plan.json", .str (bytesText (onePlanFile "./a").data)),
    ("record.json", .str (bytesText (jsonFile oneRecordJson).data))]

/-- What the attempt wrote. -/
def oneEvidence : Tree where
  entries := [("checks/plan.json", onePlanFile "./a"), ("index.json", jsonFile oneIndexJson),
    ("record.json", jsonFile oneRecordJson)]
  sorted := by
    show ["checks/plan.json", "index.json", "record.json"].Pairwise (· < ·)
    decide +kernel

/-- The same, with a file added. -/
def addedEvidence : Tree where
  entries := [("checks/plan.json", onePlanFile "./a"), ("index.json", jsonFile oneIndexJson),
    ("logs/index.json", ⟨[], false⟩), ("record.json", jsonFile oneRecordJson)]
  sorted := by
    show ["checks/plan.json", "index.json", "logs/index.json", "record.json"].Pairwise (· < ·)
    decide +kernel

def wholeNumbers : PyNumbers where
  toInt
    | .int k => some k
    | _ => none
  floatIs _ _ := false

/-- A machine where every command exits 0. -/
def greenWorld : World where
  baseBranch := "main"
  resolveBase _ := .ok "base"
  checkout _ := none
  zones := .ok (⟨"host", "", none⟩, ⟨"host", "", none⟩)
  setup _ := .ok ⟨.exited 0, "", "0.1"⟩
  up _ := .ok ⟨some 0, "", "0.1"⟩
  stackCheck _ _ := .ok ⟨.exited 0, "", "0.1"⟩
  acceptance _ _ _ _ := .ok (.ok ⟨.exited 0, "", "0.1"⟩)
  cleanup := none
  setupLimit := "60"
  checkLimit := "60"

def oneStack : Stack := ⟨"s1", "", [], "", ""⟩

lemma wellFormed_oneRecordJson : oneRecordJson.WellFormed := by
  simp [oneRecordJson, oneRowJson, Json.WellFormed, Json.FieldsWellFormed, Json.AllWellFormed]

lemma wellFormed_oneIndexJson : oneIndexJson.WellFormed := by
  simp [oneIndexJson, Json.WellFormed, Json.FieldsWellFormed]

lemma planFiles_oneEvidence : oneEvidence.planFiles = onePlanFiles "./a" := by
  refine Tree.ext ?_
  rfl

lemma document_index : oneEvidence.document indexFile = some oneIndexJson := by
  have hget : oneEvidence.get indexFile = some (jsonFile oneIndexJson) := by
    refine Tree.get_eq_some.mpr ?_
    simp [oneEvidence, indexFile]
  rw [Tree.document, hget, Option.bind_some]
  exact jsonFile_json wellFormed_oneIndexJson

lemma document_record : oneEvidence.document recordFile = some oneRecordJson := by
  have hget : oneEvidence.get recordFile = some (jsonFile oneRecordJson) := by
    refine Tree.get_eq_some.mpr ?_
    simp [oneEvidence, recordFile]
  rw [Tree.document, hget, Option.bind_some]
  exact jsonFile_json wellFormed_oneRecordJson

lemma attemptWrote_oneEvidence : AttemptWrote bytesText oneEvidence where
  index := by
    refine ⟨_, document_index, fun name => ?_⟩
    have hindex : evidenceIndex bytesText oneEvidence = [("checks/plan.json", bytesText (onePlanFile "./a").data),
        ("record.json", bytesText (jsonFile oneRecordJson).data)] := rfl
    rw [hindex, ← Keyed.lookup_map]
    rfl
  record := by
    refine ⟨_, document_record, ?_⟩
    rw [planFiles_oneEvidence]
    rfl

def oneRead : RecordRead where
  comp := .str "c"
  planId := .str (digest bytesText (onePlanFiles "./a"))
  head := "0123456789012345678901234567890123456789"
  runs := 1
  ranUnder := hostLabel
  stated := [(.str "a", .str "pass", .pass)]
  removed := []

lemma readRecord_one : readRecord wholeNumbers oneRecordJson = some oneRead := by rfl

def oneTaken : Taken where
  read := oneRead
  plan := planOf bytesText (onePlanFiles "./a") [("c", onePart bytesText "./a")]
  comp := "c"
  part := onePart bytesText "./a"
  stack := oneStack

lemma savedPlan_one : savedPlan bytesText oneEvidence oneRead.planId oneRead.comp =
    .ok (oneTaken.plan, oneTaken.comp, oneTaken.part) := by
  have hdocument : (onePlanFiles "./a").document planFile = some (onePlanJson "./a") := by
    have hget : (onePlanFiles "./a").get planFile = some (onePlanFile "./a") := by
      refine Tree.get_eq_some.mpr ?_
      simp [onePlanFiles]
    rw [Tree.document, hget, Option.bind_some, onePlanFile_json]
  have hparsed : parsed bytesText (onePlanJson "./a") = some [("c", onePart bytesText "./a")] := rfl
  have hkeys : planErrors (onePlanJson "./a") (keysOf ((onePlanJson "./a").field "components")) = [] := by
    decide +kernel
  have hentries : (onePlanFiles "./a").entries ≠ [] := List.cons_ne_nil _ _
  have hplanId : ¬ (oneRead.planId.pyStr ≠ digest bytesText (onePlanFiles "./a") ∨ oneRead.planId.typeName ≠ "str") := by
    rw [not_or, not_not, not_not]
    exact ⟨rfl, rfl⟩
  rw [savedPlan, planFiles_oneEvidence]
  dsimp only
  rw [if_neg hentries, if_neg hplanId, hdocument]
  dsimp only
  rw [if_neg (not_not.mpr hkeys), hparsed]
  rfl

lemma take_one : take bytesText wholeNumbers (some oneStack) oneEvidence oneRecordJson = .ok oneTaken := by
  have hstack : stackErrors (some oneStack) (oneRecordJson.field "stackDigest") = [] := by rfl
  have hnamed : namesItsChecks oneTaken.plan.designed oneTaken.part oneRead.stated oneRead.removed = some true := by
    rfl
  rw [take, readRecord_one]
  dsimp only
  rw [hstack, savedPlan_one]
  dsimp only
  rw [hnamed]
  rfl

/-- The directory is accepted. -/
lemma oneEvidence_agreed :
    (recheckRecord bytesText wholeNumbers greenWorld (some oneStack) oneEvidence recordFile).agreed = true := by
  rw [recheckRecord, document_record]
  dsimp only
  rw [if_neg (not_not.mpr (changedFiles_written attemptWrote_oneEvidence)), take_one]
  rfl

lemma get_addedEvidence {name : String} (h : name ≠ "logs/index.json") :
    oneEvidence.get name = addedEvidence.get name := by
  have hname : (name == "logs/index.json") = false := beq_false_of_ne h
  simp only [Tree.get, oneEvidence, addedEvidence, List.lookup_cons, hname]

lemma unseen_addedEvidence : ¬ Seen oneEvidence addedEvidence := by
  rintro ⟨name, hne, hwhere⟩
  have hname : name = "logs/index.json" := by
    by_contra hnot
    exact hne (by rw [Tree.entry, Tree.entry, get_addedEvidence hnot])
  subst hname
  exact absurd hwhere (by decide)

lemma not_reindexed_addedEvidence : ¬ Reindexed bytesText oneEvidence addedEvidence := fun h =>
  h.1 (by rw [Tree.entry, Tree.entry, get_addedEvidence (by decide)])

lemma agreed_not_refused {said : Said} (h : said.agreed = true) : ¬ Refused said := by
  cases said with
  | refused errors => cases h
  | raised => exact id
  | said lines agrees => exact id

end Kstrl.Acceptance
