import Kstrl.Architect.Decisions

/-!
# The spec issues of the architect

The parser of `kstrl/architect/spec_issues.py`, and the raw check of the same entries that
`kstrl/architect/decompose_reply.py` makes before.

* **`specIssueErrors_ok`**: where the check finds nothing the parser drops no entry, no two issues share an id, and
  the check has the severity of each.
-/

namespace Kstrl.Architect

/-- A red-team finding raised by the architect during decomposition. -/
structure SpecIssue where
  severity : String
  kind : String
  summary : String
  location : String := ""
  suggestion : String := ""
  issueId : String := ""
  deriving DecidableEq, Repr

def severityBlocker : String := "blocker"

/-- Severities, worst first. -/
def severityOrder : List String := [severityBlocker, "major", "minor"]

def validKinds : List String :=
  ["ambiguity", "missing_detail", "contradiction", "unstated_assumption", "undefined_failure_mode",
    "out_of_scope_creep", "other"]

namespace SpecIssue

/-- `str(entry.get(name, "")).strip()` -/
def text (entry : Json) (name : String) : String := PyText.strip ((entry.get? name).getD (.str "")).pyStr

/-- The issue of an entry; none for one with an unknown severity or kind or without a summary. -/
def parse (entry : Json) : Option SpecIssue :=
  match entry with
  | .obj _ =>
      if text entry "severity" ∉ severityOrder then none
      else if text entry "kind" ∉ validKinds then none
      else if text entry "summary" = "" then none
      else some
        { severity := text entry "severity"
          kind := text entry "kind"
          summary := text entry "summary"
          location := text entry "location"
          suggestion := text entry "suggestion"
          issueId := text entry "id" }
  | _ => none

end SpecIssue

def parseSpecIssues (data : Json) : List SpecIssue := (data.arrOf "spec_issues").filterMap SpecIssue.parse

/-! ## The raw check -/

/-- What is wrong with the severity, the kind and the summary of a raw entry. -/
def specIssueFieldErrors (where_ : String) (entry : Json) : List String :=
  (enumFieldError where_ "severity" (entry.field "severity") severityOrder).toList ++
    (enumFieldError where_ "kind" (entry.field "kind") validKinds).toList ++
    (requiredFieldError where_ "summary" (entry.field "summary")).toList

/-- One raw entry against the ids before it: its id and severity, or what is wrong with it. -/
def specIssueEntry (index : ℕ) (severities : List (String × String)) (entry : Json) :
    Except (List String) (String × String) :=
  let where_ := "spec_issues[" ++ toString index ++ "]"
  match entry with
  | .obj _ =>
      match entry.field "id" with
      | .str s =>
          let issueId := PyText.strip s
          if issueId = "" then .error [where_ ++ ".id: must be a non-empty string, unique in this payload"]
          else if issueId ∈ severities.map Prod.fst then
            .error [where_ ++ ".id: " ++ PyText.repr issueId ++ " is already used by an earlier issue"]
          else if specIssueFieldErrors where_ entry = [] then .ok (issueId, (entry.field "severity").pyStr)
          else .error (specIssueFieldErrors where_ entry)
      | _ => .error [where_ ++ ".id: must be a non-empty string, unique in this payload"]
  | _ => .error [where_ ++ ": must be an object, got " ++ entry.typeName]

/-- The errors of the entries from one on, and the severities by id after them. -/
def specIssueLoop : ℕ → List (String × String) → List Json → List String × List (String × String)
  | _, severities, [] => ([], severities)
  | index, severities, entry :: rest =>
      match specIssueEntry index severities entry with
      | .error errors =>
          let (more, after) := specIssueLoop (index + 1) severities rest
          (errors ++ more, after)
      | .ok issue => specIssueLoop (index + 1) (severities ++ [issue]) rest

/-- The errors of the raw spec issues and, when there are none, the severity of each id. -/
def specIssueErrors (data : Json) : List String × List (String × String) :=
  match data.field "spec_issues" with
  | .null => ([], [])
  | .arr raw => specIssueLoop 0 [] raw
  | raw => (["'spec_issues' must be an array, got " ++ raw.typeName], [])

/-! ## The check and the parser agree -/

/-- What the check keeps of an issue. -/
def SpecIssue.keyed (issue : SpecIssue) : String × String := (issue.issueId, issue.severity)

lemma text_of_field {entry : Json} {name s : String} (h : entry.field name = .str s) :
    SpecIssue.text entry name = PyText.strip s := by
  unfold Json.field at h
  cases hget : entry.get? name with
  | none => simp [hget] at h
  | some value =>
      simp only [hget, Option.getD_some] at h
      simp only [SpecIssue.text, hget, Option.getD_some, h, Json.pyStr]

lemma strip_severity {s : String} (h : s ∈ severityOrder) : PyText.strip s = s := by
  revert s
  decide

lemma strip_kind {s : String} (h : s ∈ validKinds) : PyText.strip s = s := by
  revert s
  decide

/-- An object whose severity, kind and summary are right is read under its stripped id. -/
lemma parse_of_fieldErrors {where_ s : String} {fields : List (String × Json)}
    (hid : (Json.obj fields).field "id" = .str s) (h : specIssueFieldErrors where_ (.obj fields) = []) :
    ∃ parsed, SpecIssue.parse (.obj fields) = some parsed ∧
      parsed.keyed = (PyText.strip s, ((Json.obj fields).field "severity").pyStr) := by
  simp only [specIssueFieldErrors, List.append_eq_nil_iff, Option.toList_eq_nil_iff, enumFieldError_eq_none,
    requiredFieldError_eq_none] at h
  obtain ⟨⟨⟨severity, hseverity, hvalid⟩, kind, hkind, hknown⟩, summary, hsummary, hsaid⟩ := h
  refine ⟨⟨severity, kind, PyText.strip summary, SpecIssue.text (.obj fields) "location",
    SpecIssue.text (.obj fields) "suggestion", PyText.strip s⟩, ?_, ?_⟩
  · rw [SpecIssue.parse, text_of_field hseverity, text_of_field hkind, text_of_field hsummary, text_of_field hid,
      strip_severity hvalid, strip_kind hknown, if_neg (not_not.mpr hvalid), if_neg (not_not.mpr hknown),
      if_neg hsaid]
  · rw [SpecIssue.keyed, hseverity, Json.pyStr]

/-- An entry the check takes is one the parser reads, under an id no earlier entry has. -/
lemma specIssueEntry_ok {index : ℕ} {severities : List (String × String)} {entry : Json}
    {issue : String × String} (h : specIssueEntry index severities entry = .ok issue) :
    ∃ parsed, SpecIssue.parse entry = some parsed ∧ issue = parsed.keyed ∧
      issue.1 ∉ severities.map Prod.fst := by
  cases entry with
  | obj fields =>
      simp only [specIssueEntry] at h
      split at h
      · rename_i s hid
        split_ifs at h with hblank hused herrors
        obtain ⟨parsed, hparsed, hkeyed⟩ := parse_of_fieldErrors hid herrors
        obtain rfl := Except.ok.inj h
        exact ⟨parsed, hparsed, hkeyed.symm, hused⟩
      · simp at h
  | null => simp [specIssueEntry] at h
  | bool b => simp [specIssueEntry] at h
  | int n => simp [specIssueEntry] at h
  | float text => simp [specIssueEntry] at h
  | str s => simp [specIssueEntry] at h
  | arr entries => simp [specIssueEntry] at h

/-- An entry the check refuses has an error. -/
lemma specIssueEntry_error {index : ℕ} {severities : List (String × String)} {entry : Json}
    (h : specIssueEntry index severities entry = .error []) : False := by
  cases entry with
  | obj fields =>
      simp only [specIssueEntry] at h
      split at h
      · split_ifs at h with hblank hused herrors
        · simp at h
        · simp at h
        · exact herrors (Except.error.inj h)
      · simp at h
  | null => simp [specIssueEntry] at h
  | bool b => simp [specIssueEntry] at h
  | int n => simp [specIssueEntry] at h
  | float text => simp [specIssueEntry] at h
  | str s => simp [specIssueEntry] at h
  | arr entries => simp [specIssueEntry] at h

/-- Induction on the entries, for any ids before them. -/
lemma specIssueLoop_ok (raw : List Json) :
    ∀ (index : ℕ) (severities after : List (String × String)),
      specIssueLoop index severities raw = ([], after) →
        (∀ entry ∈ raw, (SpecIssue.parse entry).isSome) ∧
          after = severities ++ (raw.filterMap SpecIssue.parse).map SpecIssue.keyed ∧
          ((severities.map Prod.fst).Nodup → (after.map Prod.fst).Nodup) := by
  induction raw with
  | nil =>
      intro index severities after h
      cases h
      simp
  | cons entry rest ih =>
      intro index severities after h
      rw [specIssueLoop] at h
      cases hentry : specIssueEntry index severities entry with
      | error errors =>
          simp only [hentry, Prod.mk.injEq, List.append_eq_nil_iff] at h
          rw [h.1.1] at hentry
          exact (specIssueEntry_error hentry).elim
      | ok issue =>
          simp only [hentry] at h
          obtain ⟨parsed, hparsed, rfl, hfresh⟩ := specIssueEntry_ok hentry
          obtain ⟨hrest, hafter, hnodup⟩ := ih _ _ _ h
          refine ⟨?_, ?_, ?_⟩
          · intro e he
            rcases List.mem_cons.mp he with rfl | he
            · simp [hparsed]
            · exact hrest e he
          · rw [hafter, List.filterMap_cons_some hparsed]
            simp
          · intro hsev
            refine hnodup ?_
            rw [List.map_append, List.map_singleton]
            exact List.nodup_append'.mpr ⟨hsev, List.nodup_singleton _, by simpa using hfresh⟩

/-- Where the raw check finds nothing, the parser drops no issue and no two share an id. -/
theorem specIssueErrors_ok {data : Json} (h : (specIssueErrors data).1 = []) :
    (data.arrOf "spec_issues").map SpecIssue.parse = (parseSpecIssues data).map some ∧
      (specIssueErrors data).2 = (parseSpecIssues data).map SpecIssue.keyed ∧
      ((parseSpecIssues data).map SpecIssue.issueId).Nodup := by
  have hno {value : Json} (hfield : data.field "spec_issues" = value) (hvalue : ∀ raw, value ≠ .arr raw) :
      data.arrOf "spec_issues" = [] := by
    rw [Json.arrOf]
    split
    · rename_i raw hraw
      simp only [Json.field, hraw, Option.getD_some] at hfield
      exact absurd hfield.symm (hvalue raw)
    · rfl
  unfold specIssueErrors at h ⊢
  cases hfield : data.field "spec_issues" with
  | null => simp [parseSpecIssues, hno hfield (by simp)]
  | arr raw =>
      have harr : data.arrOf "spec_issues" = raw := by
        unfold Json.field at hfield
        cases hget : data.get? "spec_issues" with
        | none => simp [hget] at hfield
        | some value =>
            simp only [hget, Option.getD_some] at hfield
            simp [Json.arrOf, hget, hfield]
      simp only [hfield] at h ⊢
      obtain ⟨hsome, hafter, hnodup⟩ := specIssueLoop_ok raw 0 [] _ (Prod.ext h rfl)
      rw [parseSpecIssues, harr]
      refine ⟨map_eq_map_some_filterMap hsome, by simpa using hafter, ?_⟩
      have hdistinct := hnodup List.nodup_nil
      rw [hafter, List.nil_append, List.map_map] at hdistinct
      exact hdistinct
  | bool b => simp [hfield] at h
  | int n => simp [hfield] at h
  | float text => simp [hfield] at h
  | str s => simp [hfield] at h
  | obj fields => simp [hfield] at h

end Kstrl.Architect
