import Kstrl.Plan.Requirements
import Mathlib.Data.List.ReduceOption
import Mathlib.Algebra.GroupWithZero.Nat

/-!
# The decisions of the architect

The raw checks and the parser of `kstrl/architect/decisions.py`: every question the architect raised is closed one
of four ways.

* **`map_parseDecision_eq`**: of a payload without errors the parser drops no entry.
-/

namespace Kstrl.Architect

/-- One question the architect closed, and how. -/
structure SpecDecision where
  question : String
  disposition : String
  resolution : String
  issue : String
  reason : String := ""
  alternative : String := ""
  component : String := ""
  deriving DecidableEq, Repr

def dispositionEscalated : String := "escalated"

def dispositionOrder : List String := [dispositionEscalated, "decided", "assumed", "spiked"]

namespace SpecDecision

/-- A stripped string, or the empty one for anything else. -/
def clean : Json → String
  | .str s => PyText.strip s
  | _ => ""

def optionalFieldErrors (where_ name : String) : Json → List String
  | .null => []
  | .str _ => []
  | value => [where_ ++ "." ++ name ++ ": must be a string, got " ++ value.typeName]

/-- The fields that must hold a text. -/
def requiredFields : List String := ["question", "resolution", "issue"]

/-- The fields that may be absent. -/
def optionalFields : List String := ["reason", "alternative", "component"]

/-- Everything wrong with one raw entry. -/
def entryErrors (index : ℕ) (entry : Json) : List String :=
  let where_ := "decisions[" ++ toString index ++ "]"
  match entry with
  | .obj _ =>
      (requiredFields.map fun name => requiredFieldError where_ name (entry.field name)).reduceOption ++
        (enumFieldError where_ "disposition" (entry.field "disposition") dispositionOrder).toList ++
        optionalFields.flatMap fun name => optionalFieldErrors where_ name (entry.field name)
  | _ => [where_ ++ ": must be an object, got " ++ entry.typeName]

/-- The decision of an entry; none for an entry that has errors. -/
def parse (entry : Json) : Option SpecDecision :=
  if entryErrors 0 entry = [] then
    some
      { question := clean (entry.field "question")
        disposition := clean (entry.field "disposition")
        resolution := clean (entry.field "resolution")
        issue := clean (entry.field "issue")
        reason := clean (entry.field "reason")
        alternative := clean (entry.field "alternative")
        component := clean (entry.field "component") }
  else none

/-- The decision under the seven keys every artifact writes it under. -/
def document (d : SpecDecision) : Json :=
  .obj [("issue", .str d.issue), ("question", .str d.question), ("disposition", .str d.disposition),
    ("resolution", .str d.resolution), ("reason", .str d.reason), ("alternative", .str d.alternative),
    ("component", .str d.component)]

end SpecDecision

/-- Everything wrong with the whole raw `decisions` array. -/
def decisionsPayloadErrors (data : Json) : List String :=
  match data with
  | .obj _ =>
      match data.get? "decisions" with
      | none => ["'decisions' is required (use [] when the spec raised no question)"]
      | some (.arr raw) => raw.zipIdx.flatMap fun (entry, index) => SpecDecision.entryErrors index entry
      | some raw => ["'decisions' must be an array, got " ++ raw.typeName]
  | _ => ["output must be a JSON object"]

def parseDecisions (data : Json) : List SpecDecision := (data.arrOf "decisions").filterMap SpecDecision.parse

/-- The decisions that halt the run. -/
def escalations (decisions : List SpecDecision) : List SpecDecision :=
  decisions.filter fun d => d.disposition = dispositionEscalated

/-! ## What an entry without errors is -/

namespace SpecDecision

lemma optionalFieldErrors_eq_nil {where_ name : String} {value : Json} :
    optionalFieldErrors where_ name value = [] ↔ value = .null ∨ ∃ s, value = .str s := by
  cases value <;> simp [optionalFieldErrors]

/-- An entry that the parser reads. -/
structure WellFormed (entry : Json) : Prop where
  isObject : ∃ fields, entry = .obj fields
  required : ∀ name ∈ requiredFields, ∃ s, entry.field name = .str s ∧ PyText.strip s ≠ ""
  disposition : ∃ s, entry.field "disposition" = .str s ∧ s ∈ dispositionOrder
  optional : ∀ name ∈ optionalFields, entry.field name = .null ∨ ∃ s, entry.field name = .str s

lemma entryErrors_eq_nil (index : ℕ) {entry : Json} : entryErrors index entry = [] ↔ WellFormed entry := by
  constructor
  · intro h
    cases entry with
    | obj fields =>
        simp only [entryErrors, List.append_eq_nil_iff, Option.toList_eq_nil_iff, enumFieldError_eq_none,
          List.flatMap_eq_nil_iff, optionalFieldErrors_eq_nil] at h
        refine ⟨⟨fields, rfl⟩, ?_, h.1.2, h.2⟩
        intro name hname
        rw [← requiredFieldError_eq_none ("decisions[" ++ toString index ++ "]") name]
        by_contra hne
        obtain ⟨error, herror⟩ := Option.ne_none_iff_exists'.mp hne
        have hmem : error ∈ (requiredFields.map fun name =>
            requiredFieldError ("decisions[" ++ toString index ++ "]") name
              ((Json.obj fields).field name)).reduceOption := by
          rw [List.reduceOption_mem_iff, List.mem_map]
          exact ⟨name, hname, herror⟩
        rw [h.1.1] at hmem
        cases hmem
    | null => cases h
    | bool b => cases h
    | int n => cases h
    | float text => cases h
    | str s => cases h
    | arr entries => cases h
  · rintro ⟨⟨fields, rfl⟩, hrequired, hdisposition, hoptional⟩
    simp only [entryErrors, List.append_eq_nil_iff, Option.toList_eq_nil_iff, enumFieldError_eq_none,
      List.flatMap_eq_nil_iff, optionalFieldErrors_eq_nil]
    refine ⟨⟨?_, hdisposition⟩, hoptional⟩
    rw [List.eq_nil_iff_forall_not_mem]
    intro error herror
    rw [List.reduceOption_mem_iff, List.mem_map] at herror
    obtain ⟨name, hname, herror⟩ := herror
    rw [(requiredFieldError_eq_none _ _).mpr (hrequired name hname)] at herror
    cases herror

lemma parse_isSome {entry : Json} : (parse entry).isSome ↔ WellFormed entry := by
  rw [← entryErrors_eq_nil 0]
  by_cases h : entryErrors 0 entry = [] <;> simp [parse, h]

end SpecDecision

/-- A parser that reads every entry drops none. -/
lemma map_eq_map_some_filterMap {α β : Type*} {parse : α → Option β} {l : List α}
    (h : ∀ entry ∈ l, (parse entry).isSome) : l.map parse = (l.filterMap parse).map some := by
  induction l with
  | nil => rfl
  | cons entry l ih =>
      obtain ⟨value, hvalue⟩ := Option.isSome_iff_exists.mp (h entry (List.mem_cons_self ..))
      rw [List.map_cons, List.filterMap_cons_some hvalue, List.map_cons, hvalue,
        ih fun e he => h e (List.mem_cons_of_mem _ he)]

lemma decisionsPayloadErrors_eq_nil {data : Json} (h : decisionsPayloadErrors data = []) :
    (∃ raw, data.get? "decisions" = some (.arr raw)) ∧
      ∀ entry ∈ data.arrOf "decisions", SpecDecision.WellFormed entry := by
  cases data with
  | obj fields =>
      simp only [decisionsPayloadErrors] at h
      split at h
      · cases h
      · rename_i raw hraw
        refine ⟨⟨raw, hraw⟩, ?_⟩
        intro entry hentry
        simp only [Json.arrOf, hraw] at hentry
        obtain ⟨index, hindex, rfl⟩ := List.mem_iff_getElem.mp hentry
        rw [List.flatMap_eq_nil_iff] at h
        exact (SpecDecision.entryErrors_eq_nil index).mp
          (h (raw[index], index) (List.mem_zipIdx_iff_getElem?.mpr (List.getElem?_eq_getElem hindex)))
      · cases h
  | null => cases h
  | bool b => cases h
  | int n => cases h
  | float text => cases h
  | str s => cases h
  | arr entries => cases h

/-- Of a payload without errors the parser drops no decision. -/
theorem map_parseDecision_eq {data : Json} (h : decisionsPayloadErrors data = []) :
    (data.arrOf "decisions").map SpecDecision.parse = (parseDecisions data).map some :=
  map_eq_map_some_filterMap fun entry hentry =>
    SpecDecision.parse_isSome.mpr ((decisionsPayloadErrors_eq_nil h).2 entry hentry)

end Kstrl.Architect
