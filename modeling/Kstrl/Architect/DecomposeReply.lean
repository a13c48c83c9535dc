import Kstrl.Architect.SpecIssues
import Kstrl.Plan.ManifestKeys
import Kstrl.Project.Stack

/-!
# The reply of the architect

`_validate_decompose_output` (`kstrl/architect/decompose_reply.py`) with the checks it calls.  The errors of a reply
go back to the architect; a reply without errors is read by the parsers.

* **`Accepted`** is what the parsers get of a reply: nothing dropped, every issue closed once, a blocker exactly
  where the decision escalates.
* **`decompose_output_validated`**: the validator returns, and what it passes is accepted, unless an object among the
  components has `dependencies` that no loop goes through.
-/

namespace Kstrl.Architect

/-! ## The scope of a component -/

/-- The reasons no path of the worktree can match an entry. -/
inductive ScopeHazard where
  | root
  | absolute
  | traversal
  | whitespace
  deriving DecidableEq, Repr

/-- An entry without the `./` in front. -/
def dropDotSlash : List Char → List Char
  | '.' :: '/' :: rest => dropDotSlash rest
  | cs => cs

/-- `text.rstrip("/")` -/
def rstripSlash (cs : List Char) : List Char := (cs.reverse.dropWhile (· = '/')).reverse

def scopeEntryHazard (entry : String) : Option ScopeHazard :=
  let stripped := (PyText.strip entry).toList
  if stripped.head? = some '/' then
    if rstripSlash stripped = [] then some .root else some .absolute
  else if ['.', '.'] ∈ stripped.splitOn '/' then some .traversal
  else if rstripSlash (dropDotSlash stripped) ∈ [[], ['.']] then some .root
  else if entry ≠ PyText.strip entry then some .whitespace
  else none

/-- The sentence the architect is told. -/
def ScopeHazard.advice : ScopeHazard → String
  | .root => "grants whole-repo scope; list specific source/test/feature path prefixes instead"
  | .absolute => "is an absolute path; entries must be repo-relative prefixes"
  | .traversal => "contains '..'; path traversal outside the worktree is not allowed"
  | .whitespace => "has leading or trailing whitespace; scope matching is exact, so it would authorise nothing"

def allowedPathsExclude : List String := [".kstrl", ".github", "kstrl", "kstrl.toml", "scripts/kstrl"]

def validateAllowedPathEntry (entry : String) : Option String :=
  match scopeEntryHazard entry with
  | some hazard => some ("entry '" ++ entry ++ "' " ++ hazard.advice)
  | none =>
      if String.ofList (rstripSlash (dropDotSlash (PyText.strip entry).toList)) ∈ allowedPathsExclude then
        some ("entry '" ++ entry ++ "' is on the DECOMPOSE_PROMPT EXCLUDE list (harness state, CI config, " ++
          "kstrl.toml, and the harness's own packages are never in scope; for scripts/kstrl list only this " ++
          "component's own scripts/kstrl/feature/<id>/ subtree)")
      else none

/-! ## The register -/

/-- A decision that escalates an issue which is no blocker, or the other way round. -/
def severityErrors (where_ issueId severity disposition : String) : List String :=
  if severity = severityBlocker ↔ disposition = dispositionEscalated then []
  else [where_ ++ ": issue " ++ PyText.repr issueId ++ " is severity " ++ PyText.repr severity ++ " and disposition " ++
    PyText.repr disposition ++ ". 'blocker' means 'you escalated this': a blocker needs an 'escalated' decision and " ++
    "an 'escalated' decision needs a 'blocker' issue."]

/-- One decision against the issues and the decisions before it: its errors, and what is closed after it. -/
def joinEntry (severities : List (String × String)) (index : ℕ) (closedBy : List (String × ℕ)) (entry : Json) :
    List String × List (String × ℕ) :=
  let issueId := PyText.strip (entry.field "issue").pyStr
  let disposition := (entry.field "disposition").pyStr
  let where_ := "decisions[" ++ toString index ++ "]"
  match severities.lookup issueId, closedBy.lookup issueId with
  | none, _ =>
      ([where_ ++ ".issue: " ++ PyText.repr issueId ++ " is not the id of any entry in 'spec_issues'"], closedBy)
  | some _, some earlier =>
      ([where_ ++ ".issue: " ++ PyText.repr issueId ++ " is already closed by decisions[" ++ toString earlier ++ "]"],
        closedBy)
  | some severity, none => (severityErrors where_ issueId severity disposition, closedBy ++ [(issueId, index)])

/-- The errors of the decisions from one on, and what is closed after them. -/
def joinLoop (severities : List (String × String)) :
    ℕ → List (String × ℕ) → List Json → List String × List (String × ℕ)
  | _, closedBy, [] => ([], closedBy)
  | index, closedBy, entry :: rest =>
      let (errors, closed) := joinEntry severities index closedBy entry
      let (more, after) := joinLoop severities (index + 1) closed rest
      (errors ++ more, after)

/-- Every issue closed once, and blocker iff escalated. -/
def decisionJoinErrors (rawDecisions : List Json) (severities : List (String × String)) : List String :=
  let (errors, closedBy) := joinLoop severities 0 [] rawDecisions
  errors ++ ((severities.map Prod.fst).filter (· ∉ closedBy.map Prod.fst)).map fun issueId =>
    "spec_issues: " ++ PyText.repr issueId ++ " was raised and never closed; every issue needs one 'decisions' " ++
      "entry naming it"

def decisionRegisterErrors (data : Json) : List String :=
  let errors := decisionsPayloadErrors data ++ (specIssueErrors data).1
  if errors.isEmpty then decisionJoinErrors (data.arrOf "decisions") (specIssueErrors data).2 else errors

/-- Every decision must name a component that exists, or none. -/
def decisionComponentErrors (decisions : List SpecDecision) (knownIds : List String) : List String :=
  (decisions.filter fun d => d.component ≠ "" ∧ d.component ∉ knownIds).map fun d =>
    "decisions: '" ++ String.ofList (d.question.toList.take 60) ++ "' names unknown component '" ++ d.component ++
      "'; use a component id from this payload, or leave it empty for a decision that binds the whole run"

/-- Whether an empty `components` array is a legal halt. -/
def emptyComponentsErrors (data : Json) (errors : List String) : List String :=
  if errors.isEmpty ∧ (escalations (parseDecisions data)).isEmpty = false then errors
  else errors ++ ["'components' must not be empty (no well-formed escalated decision to justify a halt)"]

def stackOutputErrors (data : Json) (hasStack : Bool) : List String :=
  match data.field "stack" with
  | .null =>
      if hasStack then []
      else ["stack: kstrl.toml has no [stack], so 'stack' must propose one, not be null or missing"]
  | .obj fields => (Stack.stackErrors fields).map ("stack: " ++ ·)
  | raw => ["stack: must be an object or null, got " ++ raw.typeName]

/-! ## The components -/

/-- The ids met so far. -/
structure Seen where
  ids : List String := []
  storyIds : List String := []
  deriving DecidableEq, Repr

/-- The errors of a component's id, and the ids after it. -/
def componentIdErrors (where_ : String) (seen : List String) : Json → List String × List String
  | .str compId =>
      match validateComponentId compId with
      | some error => ([where_ ++ ".id: " ++ error], seen)
      | none =>
          if compId ∈ seen then ([where_ ++ ".id: duplicate ID '" ++ compId ++ "'"], seen)
          else ([], seen ++ [compId])
  | _ => ([where_ ++ ".id: must be a non-empty string"], seen)

def textFieldErrors (where_ name : String) : Json → List String
  | .str _ => []
  | _ => [where_ ++ "." ++ name ++ ": must be a string"]

def dependenciesErrors (where_ : String) : Json → List String
  | .arr deps => if deps.all isStr then [] else [where_ ++ ".dependencies: all items must be strings"]
  | _ => [where_ ++ ".dependencies: must be an array"]

def allowedPathsErrors (where_ : String) (comp : Json) : List String :=
  match comp.get? "allowedPaths" with
  | none => [where_ ++ ".allowedPaths: required field missing. The architect must declare a per-component write " ++
      "scope; see DECOMPOSE_PROMPT rule #12. To halt on vague layout instead, return an empty `components` array " ++
      "with a `spec_issues` entry."]
  | some (.arr []) => [where_ ++ ".allowedPaths: must be non-empty -- an empty array silently disables diff-scope " ++
      "enforcement"]
  | some (.arr paths) =>
      if paths.all SpecRequirement.isStoryId then
        (paths.filterMap fun path => validateAllowedPathEntry path.pyStr).map fun error =>
          where_ ++ ".allowedPaths: " ++ error
      else [where_ ++ ".allowedPaths: all items must be non-empty strings"]
  | some _ => [where_ ++ ".allowedPaths: must be an array"]

/-- The errors of a user story, and the story ids after it. -/
def storyErrors (where_ : String) (seen : List String) (story : Json) : List String × List String :=
  match story with
  | .obj _ =>
      let storyId := story.asStr "id"
      let criteria := match story.get? "acceptanceCriteria" with
        | some (.arr []) => [where_ ++ ".acceptanceCriteria: must not be empty -- a story with no criteria is " ++
            "vacuously satisfiable"]
        | _ => []
      let passes :=
        if story.isTrue "passes" then
          [where_ ++ ".passes: must be false -- stories start unimplemented; passes:true would skip the story and " ++
            "auto-pass review"]
        else []
      let duplicate :=
        if storyId ≠ "" ∧ storyId ∈ seen then [where_ ++ ".id: duplicate story ID '" ++ storyId ++ "'"] else []
      (duplicate ++ criteria ++ passes, if storyId ≠ "" ∧ storyId ∉ seen then seen ++ [storyId] else seen)
  | _ => ([where_ ++ ": must be an object"], seen)

/-- The errors of the user stories from one on, and the story ids after them. -/
def storyLoop (where_ : String) : ℕ → List String → List Json → List String × List String
  | _, seen, [] => ([], seen)
  | index, seen, story :: rest =>
      let (errors, after) := storyErrors (where_ ++ ".userStories[" ++ toString index ++ "]") seen story
      let (more, last) := storyLoop where_ (index + 1) after rest
      (errors ++ more, last)

def userStoriesErrors (where_ : String) (seen : List String) : Json → List String × List String
  | .arr stories =>
      let (errors, after) := storyLoop where_ 0 seen stories
      ((if stories.isEmpty then
          [where_ ++ ".userStories: must not be empty -- every component needs at least one user story"]
        else []) ++ errors, after)
  | _ => ([where_ ++ ".userStories: must be an array"], seen)

/-- The errors of one component, and the ids after it. -/
def componentErrors (index : ℕ) (seen : Seen) (comp : Json) : List String × Seen :=
  let where_ := "components[" ++ toString index ++ "]"
  match comp with
  | .obj _ =>
      let (ofId, ids) := componentIdErrors where_ seen.ids (comp.field "id")
      let (ofStories, storyIds) := userStoriesErrors where_ seen.storyIds (comp.field "userStories")
      (ofId ++ textFieldErrors where_ "title" (comp.field "title") ++
        textFieldErrors where_ "description" (comp.field "description") ++
        dependenciesErrors where_ (comp.field "dependencies") ++ allowedPathsErrors where_ comp ++ ofStories,
        ⟨ids, storyIds⟩)
  | _ => ([where_ ++ ": must be an object"], seen)

/-- The errors of the components from one on, and the ids after them. -/
def componentLoop : ℕ → Seen → List Json → List String × Seen
  | _, seen, [] => ([], seen)
  | index, seen, comp :: rest =>
      let (errors, after) := componentErrors index seen comp
      let (more, last) := componentLoop (index + 1) after rest
      (errors ++ more, last)

/-- The references to components that do not exist; an error for a value that no loop goes through. -/
def referenceErrors (ids : List String) : List Json → Except String (List String)
  | [] => .ok []
  | comp :: rest =>
      match comp with
      | .obj _ =>
          let dependencies := (comp.get? "dependencies").getD (.arr [])
          match dependencies.iter? with
          | none => .error ("TypeError: '" ++ dependencies.typeName ++ "' object is not iterable")
          | some deps =>
              let unknown := (deps.filter fun dep => isStr dep && dep.pyStr ∉ ids).map fun dep =>
                "Component '" ++ ((comp.get? "id").getD (.str "?")).pyStr ++ "' depends on unknown component '" ++
                  dep.pyStr ++ "'"
              (referenceErrors ids rest).map (unknown ++ ·)
      | _ => referenceErrors ids rest

/-- What is wrong with a decomposition; an error is an exception that leaves the function. -/
def validateDecomposeOutput (data : Json) (hasStack : Bool) : Except String (List String) :=
  match data with
  | .obj _ =>
      match data.get? "components" with
      | none => .ok ["Output must have a 'components' key"]
      | some (.arr []) =>
          .ok (emptyComponentsErrors data
            (decisionRegisterErrors data ++ stackOutputErrors data hasStack ++ requirementsPayloadErrors data none))
      | some (.arr components) =>
          let (ofComponents, seen) := componentLoop 0 {} components
          (referenceErrors seen.ids components).map fun ofReferences =>
            decisionRegisterErrors data ++ stackOutputErrors data hasStack ++ ofComponents ++ ofReferences ++
              decisionComponentErrors (parseDecisions data) seen.ids ++
              requirementsPayloadErrors data (some seen.storyIds)
      | some _ => .ok ["'components' must be an array"]
  | _ => .ok ["Output must be a JSON object"]

/-! ## What the parsers get -/

/-- What the manifest takes of a component. -/
structure PlannedComponent where
  id : String
  title : String
  description : String
  dependencies : List String
  deriving DecidableEq, Repr

/-- The manifest entry of a component; none where a field is missing or has another type. -/
def readComponent (comp : Json) : Option PlannedComponent :=
  match comp.field "id", comp.field "title", comp.field "description", comp.field "dependencies" with
  | .str id, .str title, .str description, .arr deps =>
      (Json.strings? deps).map fun dependencies => ⟨id, title, description, dependencies⟩
  | _, _, _, _ => none

def parseComponents (data : Json) : List PlannedComponent := (data.arrOf "components").filterMap readComponent

/-- Whether the run halts on a reply. -/
def halts (data : Json) : Bool := !(escalations (parseDecisions data)).isEmpty

/-- A reply that can be trusted. -/
structure Accepted (data : Json) : Prop where
  /-- No component is dropped. -/
  components : (data.arrOf "components").map readComponent = (parseComponents data).map some
  /-- No decision is dropped. -/
  decisions : (data.arrOf "decisions").map SpecDecision.parse = (parseDecisions data).map some
  /-- No issue is dropped. -/
  issues : (data.arrOf "spec_issues").map SpecIssue.parse = (parseSpecIssues data).map some
  /-- Every issue is closed by exactly one decision. -/
  closedOnce : ∀ issue ∈ parseSpecIssues data, (parseDecisions data).countP (fun d => d.issue = issue.issueId) = 1
  /-- Every decision closes an issue of the reply. -/
  closes : ∀ d ∈ parseDecisions data, ∃ issue ∈ parseSpecIssues data, issue.issueId = d.issue
  /-- An issue is a blocker iff its decision escalates it. -/
  blocker : ∀ issue ∈ parseSpecIssues data, ∀ d ∈ parseDecisions data, d.issue = issue.issueId →
    (issue.severity = severityBlocker ↔ d.disposition = dispositionEscalated)
  /-- The run halts iff some decision of the reply escalates. -/
  halts : halts data = true ↔ ∃ entry ∈ data.arrOf "decisions", entry.field "disposition" = .str dispositionEscalated
  /-- A reply with no components has an escalation. -/
  halted : data.arrOf "components" = [] → Architect.halts data = true

/-! ## A register without errors -/

lemma parse_some {entry : Json} {d : SpecDecision} (h : SpecDecision.parse entry = some d) :
    d.issue = PyText.strip (entry.field "issue").pyStr ∧ entry.field "disposition" = .str d.disposition := by
  have hwf := SpecDecision.parse_isSome.mp (Option.isSome_iff_exists.mpr ⟨d, h⟩)
  obtain ⟨issue, hissue, -⟩ := hwf.required "issue" (by decide)
  obtain ⟨disposition, hdisposition, hknown⟩ := hwf.disposition
  have hstrip : PyText.strip disposition = disposition := by
    clear hdisposition
    revert disposition
    decide
  rw [SpecDecision.parse, if_pos ((SpecDecision.entryErrors_eq_nil 0).mpr hwf)] at h
  obtain rfl := Option.some.inj h
  simp only [hissue, hdisposition, SpecDecision.clean, Json.pyStr, hstrip, and_self]

lemma severityErrors_eq_nil {where_ issueId severity disposition : String} :
    severityErrors where_ issueId severity disposition = [] ↔
      (severity = severityBlocker ↔ disposition = dispositionEscalated) := by
  rw [severityErrors]
  split_ifs with h
  · simp [h]
  · simp [h]

/-- A decision without errors closes an issue that no decision before it closes. -/
lemma joinEntry_ok {severities : List (String × String)} {index : ℕ} {closedBy after : List (String × ℕ)}
    {entry : Json} {d : SpecDecision} (hparse : SpecDecision.parse entry = some d)
    (h : joinEntry severities index closedBy entry = ([], after)) :
    (∃ severity, severities.lookup d.issue = some severity ∧
        (severity = severityBlocker ↔ d.disposition = dispositionEscalated)) ∧
      after = closedBy ++ [(d.issue, index)] ∧ d.issue ∉ closedBy.map Prod.fst := by
  obtain ⟨hissue, hdisposition⟩ := parse_some hparse
  simp only [joinEntry] at h
  rw [← hissue, hdisposition] at h
  split at h
  · simp at h
  · simp at h
  · rename_i severity hseverity hopen
    rw [Prod.mk.injEq] at h
    refine ⟨⟨severity, hseverity, severityErrors_eq_nil.mp h.1⟩, h.2.symm, ?_⟩
    · intro hmem
      obtain ⟨pair, hpair, hid⟩ := List.mem_map.mp hmem
      have hother := List.lookup_eq_none_iff.mp hopen pair hpair
      simp [hid] at hother

/-- Induction on the decisions, for anything closed before them. -/
lemma joinLoop_ok {severities : List (String × String)} (raw : List Json) :
    ∀ (index : ℕ) (closedBy after : List (String × ℕ)),
      joinLoop severities index closedBy raw = ([], after) →
        (∀ entry ∈ raw, (SpecDecision.parse entry).isSome) →
          (∀ d ∈ raw.filterMap SpecDecision.parse, ∃ severity, severities.lookup d.issue = some severity ∧
              (severity = severityBlocker ↔ d.disposition = dispositionEscalated)) ∧
            after.map Prod.fst = closedBy.map Prod.fst ++ (raw.filterMap SpecDecision.parse).map SpecDecision.issue ∧
            ((closedBy.map Prod.fst).Nodup → (after.map Prod.fst).Nodup) := by
  induction raw with
  | nil =>
      intro index closedBy after h _
      cases h
      simp
  | cons entry rest ih =>
      intro index closedBy after h hread
      obtain ⟨d, hparse⟩ := Option.isSome_iff_exists.mp (hread entry (List.mem_cons_self ..))
      cases hentry : joinEntry severities index closedBy entry with
      | mk errors closed =>
      cases hloop : joinLoop severities (index + 1) closed rest with
      | mk more last =>
      simp only [joinLoop, hentry, hloop, Prod.mk.injEq, List.append_eq_nil_iff] at h
      obtain ⟨⟨rfl, rfl⟩, rfl⟩ := h
      obtain ⟨hjoined, hclosed, hfresh⟩ := joinEntry_ok hparse hentry
      obtain ⟨hrest, hkeys, hnodup⟩ := ih _ _ _ hloop fun e he => hread e (List.mem_cons_of_mem _ he)
      rw [List.filterMap_cons_some hparse]
      refine ⟨?_, ?_, ?_⟩
      · intro e he
        rcases List.mem_cons.mp he with rfl | he
        · exact hjoined
        · exact hrest e he
      · rw [hkeys, hclosed]
        simp
      · intro hdistinct
        refine hnodup ?_
        rw [hclosed, List.map_append, List.map_singleton]
        exact List.nodup_append'.mpr ⟨hdistinct, List.nodup_singleton _, by simpa using hfresh⟩

/-- Of distinct issues the severity under an id is the one of the issue with that id. -/
lemma lookup_keyed {issues : List SpecIssue} (hdistinct : (issues.map SpecIssue.issueId).Nodup) {issue : SpecIssue}
    (h : issue ∈ issues) : (issues.map SpecIssue.keyed).lookup issue.issueId = some issue.severity := by
  induction issues with
  | nil => cases h
  | cons first rest ih =>
      rw [List.map_cons, List.nodup_cons] at hdistinct
      rcases List.mem_cons.mp h with rfl | hrest
      · simp [SpecIssue.keyed]
      · have hne : issue.issueId ≠ first.issueId := fun heq =>
          hdistinct.1 (heq ▸ List.mem_map_of_mem hrest)
        simp only [List.map_cons, SpecIssue.keyed, List.lookup_cons, beq_eq_false_iff_ne.mpr hne]
        exact ih hdistinct.2 hrest

/-- What a register without errors is. -/
structure RegisterAccepted (data : Json) : Prop where
  decisions : (data.arrOf "decisions").map SpecDecision.parse = (parseDecisions data).map some
  issues : (data.arrOf "spec_issues").map SpecIssue.parse = (parseSpecIssues data).map some
  distinct : ((parseSpecIssues data).map SpecIssue.issueId).Nodup
  once : ((parseDecisions data).map SpecDecision.issue).Nodup
  closed : ∀ issue ∈ parseSpecIssues data, issue.issueId ∈ (parseDecisions data).map SpecDecision.issue
  joined : ∀ d ∈ parseDecisions data, ∃ severity,
    ((parseSpecIssues data).map SpecIssue.keyed).lookup d.issue = some severity ∧
      (severity = severityBlocker ↔ d.disposition = dispositionEscalated)

lemma decisionRegisterErrors_ok {data : Json} (h : decisionRegisterErrors data = []) : RegisterAccepted data := by
  unfold decisionRegisterErrors at h
  by_cases hraw : (decisionsPayloadErrors data ++ (specIssueErrors data).1).isEmpty = true
  · simp only [hraw, if_true, decisionJoinErrors, List.append_eq_nil_iff, List.map_eq_nil_iff] at h
    obtain ⟨hdecisions, hissues⟩ := List.append_eq_nil_iff.mp (List.isEmpty_iff.mp hraw)
    obtain ⟨hkept, hkeyed, hdistinct⟩ := specIssueErrors_ok hissues
    obtain ⟨hjoined, hkeys, hnodup⟩ := joinLoop_ok (data.arrOf "decisions") 0 [] _ (Prod.ext h.1 rfl)
      fun entry hentry => SpecDecision.parse_isSome.mpr ((decisionsPayloadErrors_eq_nil hdecisions).2 entry hentry)
    rw [hkeyed] at hjoined hkeys hnodup h
    rw [List.map_nil, List.nil_append] at hkeys
    refine ⟨map_parseDecision_eq hdecisions, hkept, hdistinct, ?_, ?_, hjoined⟩
    · rw [hkeys] at hnodup
      exact hnodup List.nodup_nil
    · intro issue hissue
      have hall := List.filter_eq_nil_iff.mp h.2 issue.issueId
        (List.mem_map.mpr ⟨issue.keyed, List.mem_map_of_mem hissue, rfl⟩)
      rw [hkeys, decide_eq_true_eq, not_not] at hall
      exact hall
  · simp only [hraw, Bool.false_eq_true, if_false] at h
    rw [h] at hraw
    exact absurd rfl hraw

namespace RegisterAccepted

variable {data : Json}

lemma closedOnce (h : RegisterAccepted data) {issue : SpecIssue} (hissue : issue ∈ parseSpecIssues data) :
    (parseDecisions data).countP (fun d => d.issue = issue.issueId) = 1 := by
  have hcount := List.count_eq_one_of_mem h.once (h.closed issue hissue)
  rw [List.count, List.countP_map] at hcount
  exact hcount

lemma lookup_issue {issues : List SpecIssue} {id severity : String}
    (h : (issues.map SpecIssue.keyed).lookup id = some severity) : ∃ issue ∈ issues, issue.issueId = id := by
  induction issues with
  | nil => cases h
  | cons first rest ih =>
      by_cases heq : id = first.issueId
      · exact ⟨first, List.mem_cons_self .., heq.symm⟩
      · simp only [List.map_cons, SpecIssue.keyed, List.lookup_cons, beq_eq_false_iff_ne.mpr heq] at h
        obtain ⟨issue, hissue, hid⟩ := ih h
        exact ⟨issue, List.mem_cons_of_mem _ hissue, hid⟩

lemma closes (h : RegisterAccepted data) {d : SpecDecision} (hd : d ∈ parseDecisions data) :
    ∃ issue ∈ parseSpecIssues data, issue.issueId = d.issue := by
  obtain ⟨severity, hlookup, -⟩ := h.joined d hd
  exact lookup_issue hlookup

lemma blocker (h : RegisterAccepted data) {issue : SpecIssue} {d : SpecDecision}
    (hissue : issue ∈ parseSpecIssues data) (hd : d ∈ parseDecisions data) (hcloses : d.issue = issue.issueId) :
    issue.severity = severityBlocker ↔ d.disposition = dispositionEscalated := by
  obtain ⟨severity, hlookup, hiff⟩ := h.joined d hd
  rw [hcloses, lookup_keyed h.distinct hissue] at hlookup
  obtain rfl := Option.some.inj hlookup
  exact hiff

lemma halts_iff (h : RegisterAccepted data) :
    halts data = true ↔
      ∃ entry ∈ data.arrOf "decisions", entry.field "disposition" = .str dispositionEscalated := by
  have hhalts : halts data = true ↔ ∃ d ∈ parseDecisions data, d.disposition = dispositionEscalated := by
    simp [halts, escalations]
  rw [hhalts]
  constructor
  · rintro ⟨d, hd, hescalated⟩
    obtain ⟨entry, hentry, hparse⟩ := List.mem_filterMap.mp hd
    exact ⟨entry, hentry, by rw [(parse_some hparse).2, hescalated]⟩
  · rintro ⟨entry, hentry, hescalated⟩
    have hmem : SpecDecision.parse entry ∈ (data.arrOf "decisions").map SpecDecision.parse :=
      List.mem_map_of_mem hentry
    rw [h.decisions] at hmem
    obtain ⟨d, hd, hparse⟩ := List.mem_map.mp hmem
    have hdisposition := (parse_some hparse.symm).2
    rw [hescalated] at hdisposition
    exact ⟨d, hd, (Json.str.inj hdisposition).symm⟩

end RegisterAccepted

/-! ## Components without errors -/

lemma strings?_isSome {deps : List Json} (h : deps.all isStr = true) : (Json.strings? deps).isSome := by
  induction deps with
  | nil => rfl
  | cons dep deps ih =>
      simp only [List.all_cons, Bool.and_eq_true] at h
      cases dep with
      | str s => simpa [Json.strings?] using ih h.2
      | null => simp [isStr] at h
      | bool b => simp [isStr] at h
      | int n => simp [isStr] at h
      | float text => simp [isStr] at h
      | arr entries => simp [isStr] at h
      | obj fields => simp [isStr] at h

lemma componentIdErrors_ok {where_ : String} {seen : List String} {value : Json}
    (h : (componentIdErrors where_ seen value).1 = []) : ∃ s, value = .str s := by
  cases value <;> simp_all [componentIdErrors]

lemma textFieldErrors_ok {where_ name : String} {value : Json} (h : textFieldErrors where_ name value = []) :
    ∃ s, value = .str s := by
  cases value <;> simp_all [textFieldErrors]

lemma dependenciesErrors_ok {where_ : String} {value : Json} (h : dependenciesErrors where_ value = []) :
    ∃ deps, value = .arr deps ∧ deps.all isStr = true := by
  cases value <;> simp_all [dependenciesErrors]

lemma readComponent_isSome {index : ℕ} {seen : Seen} {comp : Json} (h : (componentErrors index seen comp).1 = []) :
    (readComponent comp).isSome := by
  cases comp with
  | obj fields =>
      simp only [componentErrors, List.append_eq_nil_iff] at h
      obtain ⟨⟨⟨⟨⟨hid, htitle⟩, hdescription⟩, hdeps⟩, -⟩, -⟩ := h
      obtain ⟨id, hid⟩ := componentIdErrors_ok hid
      obtain ⟨title, htitle⟩ := textFieldErrors_ok htitle
      obtain ⟨description, hdescription⟩ := textFieldErrors_ok hdescription
      obtain ⟨deps, hdeps, hall⟩ := dependenciesErrors_ok hdeps
      simp only [readComponent, hid, htitle, hdescription, hdeps, Option.isSome_map]
      exact strings?_isSome hall
  | null => simp [componentErrors] at h
  | bool b => simp [componentErrors] at h
  | int n => simp [componentErrors] at h
  | float text => simp [componentErrors] at h
  | str s => simp [componentErrors] at h
  | arr entries => simp [componentErrors] at h

/-- Induction on the components, for any ids before them. -/
lemma componentLoop_ok (components : List Json) :
    ∀ (index : ℕ) (seen : Seen), (componentLoop index seen components).1 = [] →
      ∀ comp ∈ components, (readComponent comp).isSome := by
  induction components with
  | nil => simp
  | cons comp rest ih =>
      intro index seen h c hc
      simp only [componentLoop, List.append_eq_nil_iff] at h
      rcases List.mem_cons.mp hc with rfl | hc
      · exact readComponent_isSome h.1
      · exact ih _ _ h.2 c hc

/-! ## The loop over the references -/

/-- A value that no loop goes through. -/
def isScalar : Json → Bool
  | .null | .bool _ | .int _ | .float _ => true
  | .str _ | .arr _ | .obj _ => false

lemma iter?_eq_none {value : Json} : value.iter? = none ↔ isScalar value = true := by
  cases value <;> simp [Json.iter?, isScalar]

/-- A component whose dependencies are null, a boolean or a number. -/
def ScalarDependencies (comp : Json) : Prop := ∃ value, comp.get? "dependencies" = some value ∧ isScalar value = true

lemma referenceErrors_returns (ids : List String) (components : List Json) :
    (∃ errors, referenceErrors ids components = .ok errors) ↔ ∀ comp ∈ components, ¬ ScalarDependencies comp := by
  induction components with
  | nil => simp [referenceErrors]
  | cons comp rest ih =>
      have hskip (hnone : comp.get? "dependencies" = none) : ¬ ScalarDependencies comp := by
        rintro ⟨value, hvalue, -⟩
        rw [hnone] at hvalue
        cases hvalue
      rw [List.forall_mem_cons, ← ih]
      cases comp with
      | obj fields =>
          rw [referenceErrors]
          cases hget : (Json.obj fields).get? "dependencies" with
          | none =>
              simp only [Option.getD_none, Json.iter?]
              refine ⟨fun ⟨errors, h⟩ => ⟨hskip hget, ?_⟩, fun ⟨_, errors, h⟩ => ⟨_, by rw [h]; rfl⟩⟩
              obtain ⟨more, hmore, -⟩ := Except.map_eq_ok h
              exact ⟨more, hmore⟩
          | some value =>
              have hscalar : ScalarDependencies (.obj fields) ↔ value.iter? = none := by
                rw [iter?_eq_none]
                constructor
                · rintro ⟨v, hv, hs⟩
                  rw [hget] at hv
                  obtain rfl := Option.some.inj hv
                  exact hs
                · exact fun hs => ⟨value, hget, hs⟩
              simp only [Option.getD_some, hscalar]
              cases hiter : value.iter? with
              | none => simp
              | some deps =>
                  simp only [reduceCtorEq, not_false_eq_true, true_and]
                  refine ⟨fun ⟨errors, h⟩ => ?_, fun ⟨errors, h⟩ => ⟨_, by rw [h]; rfl⟩⟩
                  obtain ⟨more, hmore, -⟩ := Except.map_eq_ok h
                  exact ⟨more, hmore⟩
      | null => simp [referenceErrors, hskip rfl]
      | bool b => simp [referenceErrors, hskip rfl]
      | int n => simp [referenceErrors, hskip rfl]
      | float text => simp [referenceErrors, hskip rfl]
      | str s => simp [referenceErrors, hskip rfl]
      | arr entries => simp [referenceErrors, hskip rfl]

/-! ## The validator -/

/-- The validator returns unless the loop over the references meets a value it cannot go through. -/
lemma validate_returns (data : Json) (hasStack : Bool) :
    (∃ errors, validateDecomposeOutput data hasStack = .ok errors) ↔
      ∀ comp ∈ data.arrOf "components", ¬ ScalarDependencies comp := by
  cases data with
  | obj fields =>
      simp only [validateDecomposeOutput, Json.arrOf]
      split
      · rename_i hget
        simp [hget]
      · rename_i hget
        simp [hget]
      · rename_i components _ hget
        simp only [hget]
        rw [← referenceErrors_returns (componentLoop 0 {} components).2.ids]
        constructor
        · rintro ⟨errors, h⟩
          obtain ⟨ofReferences, h, -⟩ := Except.map_eq_ok h
          exact ⟨ofReferences, h⟩
        · rintro ⟨errors, h⟩
          exact ⟨_, by rw [h]; rfl⟩
      · rename_i value _ hother hget
        cases value with
        | arr entries => exact (hother entries rfl).elim
        | null => simp [hget]
        | bool b => simp [hget]
        | int n => simp [hget]
        | float text => simp [hget]
        | str s => simp [hget]
        | obj fields => simp [hget]
  | null => simp [validateDecomposeOutput, Json.arrOf, Json.get?]
  | bool b => simp [validateDecomposeOutput, Json.arrOf, Json.get?]
  | int n => simp [validateDecomposeOutput, Json.arrOf, Json.get?]
  | float text => simp [validateDecomposeOutput, Json.arrOf, Json.get?]
  | str s => simp [validateDecomposeOutput, Json.arrOf, Json.get?]
  | arr entries => simp [validateDecomposeOutput, Json.arrOf, Json.get?]

/-- A reply the validator passes has a register without errors, components that are read, and where it has no
components an escalation. -/
lemma validate_ok {data : Json} {hasStack : Bool} (h : validateDecomposeOutput data hasStack = .ok []) :
    decisionRegisterErrors data = [] ∧ (∀ comp ∈ data.arrOf "components", (readComponent comp).isSome) ∧
      (data.arrOf "components" = [] → halts data = true) := by
  cases data with
  | obj fields =>
      simp only [validateDecomposeOutput] at h
      split at h
      · simp at h
      · rename_i hget
        have h := Except.ok.inj h
        unfold emptyComponentsErrors at h
        split_ifs at h with hlegal
        · simp only [List.append_eq_nil_iff] at h
          refine ⟨h.1.1, by simp [Json.arrOf, hget], fun _ => ?_⟩
          simp [halts, hlegal.2]
        · simp at h
      · rename_i components hne hget
        obtain ⟨ofReferences, -, h⟩ := Except.map_eq_ok h
        simp only [List.append_eq_nil_iff] at h
        obtain ⟨⟨⟨⟨⟨hregister, -⟩, hcomponents⟩, -⟩, -⟩, -⟩ := h
        refine ⟨hregister, ?_, ?_⟩
        · simpa only [Json.arrOf, hget] using componentLoop_ok components 0 {} hcomponents
        · simp only [Json.arrOf, hget]
          exact fun hnil => absurd hnil hne
      · simp at h
  | null => simp [validateDecomposeOutput] at h
  | bool b => simp [validateDecomposeOutput] at h
  | int n => simp [validateDecomposeOutput] at h
  | float text => simp [validateDecomposeOutput] at h
  | str s => simp [validateDecomposeOutput] at h
  | arr entries => simp [validateDecomposeOutput] at h

/-- A reply without errors is accepted. -/
theorem accepted_of_validate {data : Json} {hasStack : Bool} (h : validateDecomposeOutput data hasStack = .ok []) :
    Accepted data := by
  obtain ⟨hregister, hcomponents, hempty⟩ := validate_ok h
  have hr := decisionRegisterErrors_ok hregister
  exact
    { components := map_eq_map_some_filterMap hcomponents
      decisions := hr.decisions
      issues := hr.issues
      closedOnce := fun _ hissue => hr.closedOnce hissue
      closes := fun _ hd => hr.closes hd
      blocker := fun _ hissue _ hd hcloses => hr.blocker hissue hd hcloses
      halts := hr.halts_iff
      halted := hempty }

/-- **The reply of the architect is validated before it is trusted** exactly where no object among the components
has `dependencies` that are null, a boolean or a number: the validator returns its errors, and a reply without
errors is accepted. -/
theorem decompose_output_validated (data : Json) (hasStack : Bool) :
    ((∃ errors, validateDecomposeOutput data hasStack = .ok errors) ∧
        (validateDecomposeOutput data hasStack = .ok [] → Accepted data)) ↔
      ∀ comp ∈ data.arrOf "components", ¬ ScalarDependencies comp := by
  rw [← validate_returns data hasStack]
  exact ⟨fun h => h.1, fun h => ⟨h, accepted_of_validate⟩⟩

/-- A reply with a component that has no dependencies and says so with null. -/
def nullDependencies : Json :=
  .obj [("components", .arr [.obj [("id", .str "auth"), ("title", .str "Auth"), ("description", .str "Sign in."),
    ("dependencies", .null)]]), ("decisions", .arr [])]

/-- On such a reply the loop over the dependencies raises: the run ends, and nothing is retried. -/
theorem null_dependencies_raise :
    validateDecomposeOutput nullDependencies true = .error "TypeError: 'NoneType' object is not iterable" ∧
      ¬ ∀ (data : Json) (hasStack : Bool),
        (∃ errors, validateDecomposeOutput data hasStack = .ok errors) ∧
          (validateDecomposeOutput data hasStack = .ok [] → Accepted data) := by
  have hraises : validateDecomposeOutput nullDependencies true =
      .error "TypeError: 'NoneType' object is not iterable" := rfl
  refine ⟨hraises, fun h => ?_⟩
  obtain ⟨errors, hreturns⟩ := (h nullDependencies true).1
  rw [hraises] at hreturns
  cases hreturns

end Kstrl.Architect
