import Kstrl.Base.Json
import Kstrl.Base.PyText
import Mathlib.Data.List.Dedup
import Mathlib.Data.List.Sort

/-!
# The CI state of a commit

The pure half of `kstrl/serve/ci_state.py`: the reply of the checks query, a list of pages, is validated entry
by entry and then folded into one of four states.

* **`pageContexts_ok`**, **`entryState_ok`**: what the two validators read, said without them.
* **`classifyReply_of_reply`**: a reply whose pages add up is judged by its entries alone.
* **`classifyReply_sound`**: what it takes for a reply to be passed.
-/

namespace Kstrl.Serve

/-! ## The vocabulary -/

def maxTextChars : ℕ := 500

inductive CiState where
  | passed
  | failed
  | running
  | unknown
  deriving DecidableEq, Repr

/-- `_CHECK_RUN_RUNNING`: the states of a check run that has not finished. -/
def checkRunRunning : List String := ["REQUESTED", "QUEUED", "IN_PROGRESS", "WAITING", "PENDING"]

/-- `_CHECK_RUN_CONCLUSIONS`, of a check run that has finished. -/
def checkRunConclusions : List (String × CiState) :=
  [("SUCCESS", .passed), ("NEUTRAL", .passed), ("SKIPPED", .passed), ("FAILURE", .failed),
    ("TIMED_OUT", .failed), ("CANCELLED", .failed), ("ACTION_REQUIRED", .failed), ("STARTUP_FAILURE", .failed),
    ("STALE", .failed)]

/-- `_STATUS_CONTEXT_STATES` -/
def statusContextStates : List (String × CiState) :=
  [("SUCCESS", .passed), ("FAILURE", .failed), ("ERROR", .failed), ("PENDING", .running), ("EXPECTED", .running)]

def clip (text : String) : String := String.ofList (text.toList.take maxTextChars)

/-! ## Validation -/

/-- How a step fails: with the text of an `_Unreadable`, or with any other exception. -/
inductive Fault where
  | unreadable (reason : String)
  | raised
  deriving DecidableEq, Repr

/-- `mapping[key]`, which raises where there is nothing under the key, or no mapping. -/
def item (mapping : Json) (key : String) : Except Fault Json :=
  match mapping.get? key with
  | some value => .ok value
  | none => .error .raised

/-- `table[key]` -/
def tableEntry (table : List (String × CiState)) (key : String) : Except Fault CiState :=
  match table.lookup key with
  | some state => .ok state
  | none => .error .raised

def isDict : Json → Bool
  | .obj _ => true
  | _ => false

/-- `_field` -/
def fieldOf (mapping : Json) (key where_ : String) : Except Fault Json :=
  if !isDict mapping then .error (.unreadable (where_ ++ " is not an object"))
  else if (mapping.get? key).isNone then .error (.unreadable (where_ ++ " has no " ++ PyText.repr key))
  else item mapping key

/-- `_text` -/
def textField (mapping : Json) (key where_ : String) : Except Fault String := do
  match ← fieldOf mapping key where_ with
  | .str s => .ok s
  | value => .error (.unreadable (where_ ++ ": " ++ key ++ " is " ++ value.pyRepr ++ ", not a string"))

/-- The state and the name of one entry. -/
def entryState (index : ℕ) (node : Json) : Except Fault (CiState × String) := do
  let where_ := "check " ++ toString index
  let kind ← textField node "__typename" where_
  if kind = "CheckRun" then
    let name ← textField node "name" where_
    let status ← textField node "status" where_
    if status ∈ checkRunRunning then .ok (.running, name)
    else if status ≠ "COMPLETED" then
      .error (.unreadable
        (where_ ++ " (" ++ name ++ "): status " ++ PyText.repr status ++ " is not one kstrl reads"))
    else
      let conclusion ← textField node "conclusion" where_
      if (checkRunConclusions.lookup conclusion).isNone then
        .error (.unreadable
          (where_ ++ " (" ++ name ++ "): conclusion " ++ PyText.repr conclusion ++ " is not one kstrl reads"))
      else
        let state ← tableEntry checkRunConclusions conclusion
        .ok (state, name)
  else if kind = "StatusContext" then
    let name ← textField node "context" where_
    let value ← textField node "state" where_
    if (statusContextStates.lookup value).isNone then
      .error (.unreadable
        (where_ ++ " (" ++ name ++ "): state " ++ PyText.repr value ++ " is not one kstrl reads"))
    else
      let state ← tableEntry statusContextStates value
      .ok (state, name)
  else .error (.unreadable (where_ ++ ": type " ++ PyText.repr kind ++ " is not one kstrl reads"))

/-- The stated total and the entries under `statusCheckRollup`; a commit without one has no checks. -/
def rollupContexts (rollup : Json) : Except Fault (ℤ × List Json) :=
  match rollup with
  | .null => .ok (0, [])
  | rollup => do
      let contexts ← fieldOf rollup "contexts" "statusCheckRollup"
      let total ← fieldOf contexts "totalCount" "contexts"
      let nodes ← fieldOf contexts "nodes" "contexts"
      match total, nodes with
      | .int total, .arr nodes => .ok (total, nodes)
      | .int _, _ => .error (.unreadable "contexts: nodes is not a list")
      | total, _ => .error (.unreadable ("contexts: totalCount is " ++ total.pyRepr ++ ", not an integer"))

/-- The stated total and the entries of one page. -/
def pageContexts (page : Json) : Except Fault (ℤ × List Json) :=
  if isDict page && (page.get? "errors").isSome then do
    let errors ← item page "errors"
    .error (.unreadable ("GitHub answered with errors: " ++ errors.pyRepr))
  else do
    let data ← fieldOf page "data" "the reply"
    match ← fieldOf data "repository" "data" with
    | .null => .error (.unreadable "GitHub found no repository for this checkout")
    | repository =>
        match ← fieldOf repository "object" "repository" with
        | .null => .error (.unreadable "GitHub has no commit with this sha")
        | commit =>
            if !isDict commit || (commit.get? "statusCheckRollup").isNone then
              .error (.unreadable "the object with this sha is not a commit")
            else do
              let rollup ← item commit "statusCheckRollup"
              rollupContexts rollup

/-- The state of every entry of every page. -/
def entryStates (pages : Json) : Except Fault (List (CiState × String)) :=
  match pages with
  | .arr [] => .error (.unreadable "gh returned no pages")
  | .arr pages => do
      let read ← pages.mapM pageContexts
      let nodes := read.flatMap Prod.snd
      match (read.map Prod.fst).dedup with
      | [total] =>
          if (nodes.length : ℤ) ≠ total then
            .error (.unreadable ("read " ++ toString nodes.length ++ " of " ++ toString total ++ " checks"))
          else nodes.zipIdx.mapM fun (node, index) => entryState index node
      | totals =>
          .error (.unreadable ("the pages disagree on the check count: [" ++
            String.intercalate ", " ((totals.insertionSort (· ≤ ·)).map toString) ++ "]"))
  | _ => .error (.unreadable "gh's reply is not a list of pages")

/-! ## The fold -/

/-- The names of the entries in a state. -/
def named (state : CiState) (states : List (CiState × String)) : List String :=
  (states.filter fun entry => entry.1 = state).map Prod.snd

/-- The state, the reason and the number of checks of the entries read. -/
def foldStates (states : List (CiState × String)) : CiState × String × ℕ :=
  if states = [] then (.unknown, "GitHub reports no checks for this commit", 0)
  else if named .failed states ≠ [] then
    (.failed, clip ("failed: " ++ String.intercalate ", " (named .failed states)), states.length)
  else if named .running states ≠ [] then
    (.running, clip ("running: " ++ String.intercalate ", " (named .running states)), states.length)
  else (.passed, toString states.length ++ " checks passed", states.length)

/-- What the entries read, or the reason that they are not, come to; another exception passes through. -/
def judged (states : Except Fault (List (CiState × String))) : Except Fault (CiState × String × ℕ) :=
  match states with
  | .error (.unreadable reason) => .ok (.unknown, clip reason, 0)
  | .error .raised => .error .raised
  | .ok states => .ok (foldStates states)

def classifyReply (pages : Json) : Except Fault (CiState × String × ℕ) := judged (entryStates pages)

/-! ## Nothing else is raised -/

/-- A step that raises nothing but an `_Unreadable`. -/
def Guarded {α : Type} (x : Except Fault α) : Prop := x ≠ .error .raised

lemma guarded_ok {α : Type} (a : α) : Guarded (.ok a) := by simp [Guarded]

lemma guarded_unreadable {α : Type} (reason : String) : Guarded (.error (.unreadable reason) : Except Fault α) := by
  simp [Guarded]

lemma Guarded.bind {α β : Type} {x : Except Fault α} {f : α → Except Fault β} (hx : Guarded x)
    (hf : ∀ a, x = .ok a → Guarded (f a)) : Guarded (x >>= f) := by
  cases x with
  | error e => exact fun h => hx (by cases h; rfl)
  | ok a => exact hf a rfl

lemma Guarded.mapM {α β : Type} {f : α → Except Fault β} {l : List α} (h : ∀ a ∈ l, Guarded (f a)) :
    Guarded (l.mapM f) := by
  induction l with
  | nil => exact guarded_ok []
  | cons a l ih =>
      obtain ⟨ha, hl⟩ := List.forall_mem_cons.mp h
      rw [List.mapM_cons]
      exact ha.bind fun b _ => (ih hl).bind fun bs _ => guarded_ok _

lemma guarded_item {mapping : Json} {key : String} (h : (mapping.get? key).isSome) : Guarded (item mapping key) := by
  obtain ⟨value, hvalue⟩ := Option.isSome_iff_exists.mp h
  rw [item, hvalue]
  exact guarded_ok value

lemma guarded_fieldOf (mapping : Json) (key where_ : String) : Guarded (fieldOf mapping key where_) := by
  unfold fieldOf
  split_ifs with hdict hkey
  · exact guarded_unreadable _
  · exact guarded_unreadable _
  · exact guarded_item (Option.isSome_iff_ne_none.mpr fun hnone => hkey (by rw [hnone]; rfl))

lemma guarded_textField (mapping : Json) (key where_ : String) : Guarded (textField mapping key where_) := by
  refine (guarded_fieldOf mapping key where_).bind fun value _ => ?_
  split
  · exact guarded_ok _
  · exact guarded_unreadable _

lemma guarded_tableEntry {table : List (String × CiState)} {key : String} (h : ¬ (table.lookup key).isNone) :
    Guarded (tableEntry table key) := by
  unfold tableEntry
  split
  · exact guarded_ok _
  · next hnone => exact absurd (by rw [hnone]; rfl) h

lemma guarded_entryState (index : ℕ) (node : Json) : Guarded (entryState index node) := by
  refine (guarded_textField _ _ _).bind fun kind _ => ?_
  split_ifs with hrun hcontext
  · refine (guarded_textField _ _ _).bind fun name _ => (guarded_textField _ _ _).bind fun status _ => ?_
    split_ifs with hrunning hdone
    · exact guarded_ok _
    · exact guarded_unreadable _
    · refine (guarded_textField _ _ _).bind fun conclusion _ => ?_
      split_ifs with hknown
      · exact guarded_unreadable _
      · exact (guarded_tableEntry hknown).bind fun state _ => guarded_ok _
  · refine (guarded_textField _ _ _).bind fun name _ => (guarded_textField _ _ _).bind fun value _ => ?_
    split_ifs with hknown
    · exact guarded_unreadable _
    · exact (guarded_tableEntry hknown).bind fun state _ => guarded_ok _
  · exact guarded_unreadable _

lemma guarded_rollupContexts (rollup : Json) : Guarded (rollupContexts rollup) := by
  unfold rollupContexts
  split
  · exact guarded_ok _
  · refine (guarded_fieldOf _ _ _).bind fun contexts _ => (guarded_fieldOf _ _ _).bind fun total _ =>
      (guarded_fieldOf _ _ _).bind fun nodes _ => ?_
    split
    · exact guarded_ok _
    · exact guarded_unreadable _
    · exact guarded_unreadable _

lemma guarded_pageContexts (page : Json) : Guarded (pageContexts page) := by
  unfold pageContexts
  split_ifs with herrors
  · exact (guarded_item (Bool.and_eq_true_iff.mp herrors).2).bind fun errors _ => guarded_unreadable _
  · refine (guarded_fieldOf _ _ _).bind fun data _ => (guarded_fieldOf _ _ _).bind fun repository _ => ?_
    split
    · exact guarded_unreadable _
    · refine (guarded_fieldOf _ _ _).bind fun commit _ => ?_
      split
      · exact guarded_unreadable _
      · split_ifs with hcommit
        · exact guarded_unreadable _
        · rw [Bool.or_eq_true, not_or] at hcommit
          refine (guarded_item (Option.isSome_iff_ne_none.mpr fun hnone => hcommit.2 (by rw [hnone]; rfl))).bind
            fun rollup _ => guarded_rollupContexts rollup

lemma guarded_entryStates (pages : Json) : Guarded (entryStates pages) := by
  unfold entryStates
  split
  · exact guarded_unreadable _
  · refine (Guarded.mapM fun page _ => guarded_pageContexts page).bind fun read _ => ?_
    dsimp only
    split
    · split_ifs
      · exact guarded_unreadable _
      · exact Guarded.mapM fun node _ => guarded_entryState _ _
    · exact guarded_unreadable _
  · exact guarded_unreadable _

lemma judged_ok {states : Except Fault (List (CiState × String))} (h : Guarded states) :
    ∃ answer, judged states = .ok answer := by
  cases states with
  | ok states => exact ⟨_, rfl⟩
  | error fault =>
      cases fault with
      | unreadable reason => exact ⟨_, rfl⟩
      | raised => exact absurd rfl h

/-! ## What a page says -/

/-- A page with a stated total and entries, where the query looks for them. -/
def PageOf (page : Json) (total : ℤ) (nodes : List Json) : Prop :=
  page.get? "errors" = none ∧ ∃ data repository commit rollup,
    page.get? "data" = some data ∧ data.get? "repository" = some repository ∧
      repository.get? "object" = some commit ∧ commit.get? "statusCheckRollup" = some rollup ∧
      (rollup = .null ∧ total = 0 ∧ nodes = [] ∨
        ∃ contexts, rollup.get? "contexts" = some contexts ∧ contexts.get? "totalCount" = some (.int total) ∧
          contexts.get? "nodes" = some (.arr nodes))

lemma item_ok {mapping value : Json} {key : String} :
    item mapping key = .ok value ↔ mapping.get? key = some value := by
  unfold item
  cases mapping.get? key <;> simp

lemma tableEntry_ok {table : List (String × CiState)} {key : String} {state : CiState} :
    tableEntry table key = .ok state ↔ table.lookup key = some state := by
  unfold tableEntry
  cases table.lookup key <;> simp

lemma isDict_of_get {mapping value : Json} {key : String} (h : mapping.get? key = some value) :
    isDict mapping = true := by
  cases mapping with
  | obj fields => rfl
  | null => simp [Json.get?] at h
  | bool b => simp [Json.get?] at h
  | int n => simp [Json.get?] at h
  | float text => simp [Json.get?] at h
  | str s => simp [Json.get?] at h
  | arr entries => simp [Json.get?] at h

lemma fieldOf_ok {mapping value : Json} {key where_ : String} :
    fieldOf mapping key where_ = .ok value ↔ mapping.get? key = some value := by
  unfold fieldOf
  split_ifs with hdict hkey
  · refine iff_of_false (by simp) fun h => ?_
    rw [isDict_of_get h] at hdict
    cases hdict
  · refine iff_of_false (by simp) fun h => ?_
    rw [h] at hkey
    cases hkey
  · exact item_ok

lemma bind_ok {ε α β : Type} {x : Except ε α} {f : α → Except ε β} {b : β} :
    x >>= f = .ok b ↔ ∃ a, x = .ok a ∧ f a = .ok b := by
  constructor
  · exact fun h => Except.bind_eq_ok h
  · rintro ⟨a, rfl, h⟩
    exact h

lemma rollupContexts_ok {rollup : Json} {total : ℤ} {nodes : List Json} :
    rollupContexts rollup = .ok (total, nodes) ↔
      rollup = .null ∧ total = 0 ∧ nodes = [] ∨
        ∃ contexts, rollup.get? "contexts" = some contexts ∧ contexts.get? "totalCount" = some (.int total) ∧
          contexts.get? "nodes" = some (.arr nodes) := by
  unfold rollupContexts
  split
  · simp [Json.get?, eq_comm]
  · next hnull =>
      simp only [bind_ok, fieldOf_ok]
      constructor
      · rintro ⟨contexts, hcontexts, total', htotal, nodes', hnodes, h⟩
        split at h <;> cases h
        exact .inr ⟨contexts, hcontexts, htotal, hnodes⟩
      · rintro (⟨rfl, -⟩ | ⟨contexts, hcontexts, htotal, hnodes⟩)
        · exact absurd rfl hnull
        · exact ⟨contexts, hcontexts, _, htotal, _, hnodes, rfl⟩

/-- **What the validator of a page reads.** -/
theorem pageContexts_ok {page : Json} {total : ℤ} {nodes : List Json} :
    pageContexts page = .ok (total, nodes) ↔ PageOf page total nodes := by
  unfold pageContexts PageOf
  split_ifs with herrors
  · rw [Bool.and_eq_true, Option.isSome_iff_ne_none] at herrors
    refine iff_of_false (fun h => ?_) fun h => herrors.2 h.1
    obtain ⟨errors, -, h⟩ := bind_ok.mp h
    cases h
  · have hnone : page.get? "errors" = none := by
      rw [Bool.and_eq_true, not_and] at herrors
      by_contra hsome
      obtain ⟨errors, hget⟩ := Option.ne_none_iff_exists'.mp hsome
      exact herrors (isDict_of_get hget) (by rw [hget]; rfl)
    simp only [bind_ok, fieldOf_ok, hnone, true_and]
    constructor
    · rintro ⟨data, hdata, repository, hrepository, h⟩
      split at h
      · cases h
      · obtain ⟨commit, hcommit, h⟩ := bind_ok.mp h
        rw [fieldOf_ok] at hcommit
        split at h
        · cases h
        · split_ifs at h with hcheck
          obtain ⟨rollup, hrollup, h⟩ := bind_ok.mp h
          exact ⟨data, repository, commit, rollup, hdata, hrepository, hcommit, item_ok.mp hrollup,
            rollupContexts_ok.mp h⟩
    · rintro ⟨data, repository, commit, rollup, hdata, hrepository, hcommit, hrollup, h⟩
      refine ⟨data, hdata, repository, hrepository, ?_⟩
      split
      · simp [Json.get?] at hcommit
      · refine bind_ok.mpr ⟨commit, fieldOf_ok.mpr hcommit, ?_⟩
        split
        · simp [Json.get?] at hrollup
        · rw [if_neg (by simp [isDict_of_get hrollup, hrollup])]
          exact bind_ok.mpr ⟨rollup, item_ok.mpr hrollup, rollupContexts_ok.mpr h⟩

/-! ## What an entry says -/

/-- A check run in a state. -/
def CheckRunOf (node : Json) (state : CiState) (name : String) : Prop :=
  node.get? "__typename" = some (.str "CheckRun") ∧ node.get? "name" = some (.str name) ∧
    ∃ status, node.get? "status" = some (.str status) ∧
      (status ∈ checkRunRunning ∧ state = .running ∨
        status = "COMPLETED" ∧ ∃ conclusion, node.get? "conclusion" = some (.str conclusion) ∧
          checkRunConclusions.lookup conclusion = some state)

/-- A commit status in a state. -/
def StatusContextOf (node : Json) (state : CiState) (name : String) : Prop :=
  node.get? "__typename" = some (.str "StatusContext") ∧ node.get? "context" = some (.str name) ∧
    ∃ value, node.get? "state" = some (.str value) ∧ statusContextStates.lookup value = some state

/-- An entry of either kind. -/
def EntryOf (node : Json) (state : CiState) (name : String) : Prop :=
  CheckRunOf node state name ∨ StatusContextOf node state name

lemma textField_ok {mapping : Json} {key where_ s : String} :
    textField mapping key where_ = .ok s ↔ mapping.get? key = some (.str s) := by
  unfold textField
  rw [bind_ok]
  simp only [fieldOf_ok]
  constructor
  · rintro ⟨value, hvalue, h⟩
    split at h <;> cases h
    exact hvalue
  · exact fun h => ⟨_, h, rfl⟩

/-- **What the validator of an entry reads**, at any index. -/
theorem entryState_ok {index : ℕ} {node : Json} {state : CiState} {name : String} :
    entryState index node = .ok (state, name) ↔ EntryOf node state name := by
  unfold entryState EntryOf CheckRunOf StatusContextOf
  simp only [bind_ok, textField_ok]
  constructor
  · rintro ⟨kind, hkind, h⟩
    split_ifs at h with hrun hcontext
    · subst hrun
      obtain ⟨name', hname, h⟩ := bind_ok.mp h
      obtain ⟨status, hstatus, h⟩ := bind_ok.mp h
      rw [textField_ok] at hname hstatus
      split_ifs at h with hrunning hdone
      · cases h
        exact .inl ⟨hkind, hname, status, hstatus, .inl ⟨hrunning, rfl⟩⟩
      · obtain ⟨conclusion, hconclusion, h⟩ := bind_ok.mp h
        rw [textField_ok] at hconclusion
        split_ifs at h with hunknown
        obtain ⟨state', hlookup, h⟩ := bind_ok.mp h
        rw [tableEntry_ok] at hlookup
        cases h
        exact .inl ⟨hkind, hname, status, hstatus, .inr ⟨not_not.mp hdone, conclusion, hconclusion, hlookup⟩⟩
    · subst hcontext
      obtain ⟨name', hname, h⟩ := bind_ok.mp h
      obtain ⟨value, hvalue, h⟩ := bind_ok.mp h
      rw [textField_ok] at hname hvalue
      split_ifs at h with hunknown
      obtain ⟨state', hlookup, h⟩ := bind_ok.mp h
      rw [tableEntry_ok] at hlookup
      cases h
      exact .inr ⟨hkind, hname, value, hvalue, hlookup⟩
  · rintro (⟨hkind, hname, status, hstatus, h⟩ | ⟨hkind, hname, value, hvalue, hlookup⟩)
    · refine ⟨_, hkind, ?_⟩
      rw [if_pos rfl]
      refine bind_ok.mpr ⟨name, textField_ok.mpr hname, bind_ok.mpr ⟨status, textField_ok.mpr hstatus, ?_⟩⟩
      rcases h with ⟨hrunning, rfl⟩ | ⟨rfl, conclusion, hconclusion, hlookup⟩
      · rw [if_pos hrunning]
      · rw [if_neg (by decide), if_neg (by decide)]
        refine bind_ok.mpr ⟨conclusion, textField_ok.mpr hconclusion, ?_⟩
        rw [if_neg (by simp [hlookup])]
        exact bind_ok.mpr ⟨state, tableEntry_ok.mpr hlookup, rfl⟩
    · refine ⟨_, hkind, ?_⟩
      rw [if_neg (by decide), if_pos rfl]
      refine bind_ok.mpr ⟨name, textField_ok.mpr hname, bind_ok.mpr ⟨value, textField_ok.mpr hvalue, ?_⟩⟩
      rw [if_neg (by simp [hlookup])]
      exact bind_ok.mpr ⟨state, tableEntry_ok.mpr hlookup, rfl⟩

lemma EntryOf.unique {node : Json} {state state' : CiState} {name name' : String} (h : EntryOf node state name)
    (h' : EntryOf node state' name') : state = state' ∧ name = name' := by
  have hstates := (@entryState_ok 0 _ _ _).mpr h
  rw [(@entryState_ok 0 _ _ _).mpr h'] at hstates
  cases hstates
  exact ⟨rfl, rfl⟩

/-! ## What a reply says -/

/-- A reply of at least one page, with these entries over all its pages, and with their number stated on each. -/
def Reply (pages : Json) (entries : List Json) : Prop :=
  ∃ ps split, pages = .arr ps ∧ ps ≠ [] ∧ entries = split.flatten ∧
    List.Forall₂ (fun page nodes => PageOf page entries.length nodes) ps split

lemma dedup_eq_singleton {α : Type} [DecidableEq α] {l : List α} {a : α} :
    l.dedup = [a] ↔ l ≠ [] ∧ ∀ b ∈ l, b = a := by
  constructor
  · intro h
    refine ⟨fun hnil => ?_, fun b hb => ?_⟩
    · rw [hnil] at h
      cases h
    · exact List.mem_singleton.mp (h ▸ List.mem_dedup.mpr hb)
  · rintro ⟨hne, hall⟩
    have hrep : l.dedup = List.replicate l.dedup.length a :=
      List.eq_replicate_of_mem fun b hb => hall b (List.mem_dedup.mp hb)
    have hle : l.dedup.length ≤ 1 := List.nodup_replicate.mp (hrep ▸ List.nodup_dedup l)
    have hpos : 0 < l.dedup.length :=
      List.length_pos_iff.mpr fun hnil => hne ((List.dedup_eq_nil l).mp hnil)
    rw [hrep, le_antisymm hle hpos]
    rfl

/-- The pages that are read, with the totals that they state all the number of entries. -/
lemma reply_iff {ps : List Json} (hps : ps ≠ []) (entries : List Json) :
    Reply (.arr ps) entries ↔ ∃ read, ps.mapM pageContexts = .ok read ∧ read.flatMap Prod.snd = entries ∧
      (read.map Prod.fst).dedup = [(entries.length : ℤ)] := by
  constructor
  · rintro ⟨_, split, heq, -, hentries, hpages⟩
    obtain rfl := Json.arr.inj heq
    refine ⟨split.map fun nodes => ((entries.length : ℤ), nodes), ?_, ?_, ?_⟩
    · rw [Except.mapM_eq_ok_iff, List.forall₂_map_right_iff]
      exact hpages.imp fun page nodes => pageContexts_ok.mpr
    · rw [List.flatMap_map, hentries]
      exact List.flatMap_id'
    · rw [dedup_eq_singleton]
      refine ⟨fun hnil => hps ?_, ?_⟩
      · rw [List.map_map, List.map_eq_nil_iff] at hnil
        exact List.forall₂_nil_right_iff.mp (hnil ▸ hpages)
      · simp
  · rintro ⟨read, hread, rfl, htotals⟩
    obtain ⟨-, hall⟩ := dedup_eq_singleton.mp htotals
    refine ⟨ps, read.map Prod.snd, rfl, hps, List.flatMap_def, ?_⟩
    have hstated : read = (read.map Prod.snd).map fun nodes =>
        (((read.flatMap Prod.snd).length : ℤ), nodes) := by
      rw [List.map_map]
      refine (List.map_id'' (fun _ => rfl) read).symm.trans (List.map_congr_left fun r hr => ?_)
      exact Prod.ext (hall r.1 (List.mem_map_of_mem hr)) rfl
    have hzip : List.Forall₂ (fun page r => pageContexts page = .ok r) ps ((read.map Prod.snd).map fun nodes =>
        (((read.flatMap Prod.snd).length : ℤ), nodes)) := by
      rw [← hstated]
      exact Except.mapM_eq_ok_iff.mp hread
    rw [List.forall₂_map_right_iff] at hzip
    exact hzip.imp fun page nodes => pageContexts_ok.mp

/-- The entries are judged one by one. -/
def judgeEntries (entries : List Json) : Except Fault (CiState × String × ℕ) :=
  judged (entries.zipIdx.mapM fun (node, index) => entryState index node)

/-- **A reply whose pages add up is judged by its entries alone**, however they are split into pages. -/
theorem classifyReply_of_reply {pages : Json} {entries : List Json} (h : Reply pages entries) :
    classifyReply pages = judgeEntries entries := by
  obtain ⟨ps, split, rfl, hps, -⟩ := id h
  obtain ⟨read, hread, hentries, htotals⟩ := (reply_iff hps entries).mp h
  have hstates : entryStates (.arr ps) = entries.zipIdx.mapM fun (node, index) => entryState index node := by
    unfold entryStates
    split
    · next heq => exact absurd (Json.arr.inj heq) hps
    · next heq =>
        cases heq
        rw [hread]
        show (match (read.map Prod.fst).dedup with | [total] => _ | totals => _) = _
        rw [htotals, hentries]
        exact if_neg (not_not.mpr rfl)
    · next hother => exact absurd rfl (hother ps)
  rw [classifyReply, judgeEntries, hstates]

/-! ## What it takes to be passed -/

lemma named_eq_nil {state : CiState} {states : List (CiState × String)} :
    named state states = [] ↔ ∀ entry ∈ states, entry.1 ≠ state := by
  simp [named, List.filter_eq_nil_iff]

/-- No entry is read as unknown. -/
lemma EntryOf.ne_unknown {node : Json} {state : CiState} {name : String} (h : EntryOf node state name) :
    state ≠ .unknown := by
  have htable : ∀ {table : List (String × CiState)} {key : String}, (∀ row ∈ table, row.2 ≠ CiState.unknown) →
      table.lookup key = some state → state ≠ .unknown := by
    intro table key hrows hlookup
    induction table with
    | nil => cases hlookup
    | cons row table ih =>
        rw [List.lookup_cons] at hlookup
        split at hlookup
        · cases hlookup
          exact hrows row List.mem_cons_self
        · exact ih (fun r hr => hrows r (List.mem_cons_of_mem _ hr)) hlookup
  rcases h with ⟨-, -, status, -, ⟨-, rfl⟩ | ⟨-, conclusion, -, hlookup⟩⟩ | ⟨-, -, value, -, hlookup⟩
  · decide
  · exact htable (by decide) hlookup
  · exact htable (by decide) hlookup

lemma foldStates_passed {states : List (CiState × String)} (hknown : ∀ entry ∈ states, entry.1 ≠ .unknown) :
    (foldStates states).1 = .passed ↔ states ≠ [] ∧ ∀ entry ∈ states, entry.1 = .passed := by
  unfold foldStates
  split_ifs with hnone hfailed hrunning
  · simp [hnone]
  · obtain ⟨entry, hentry, hstate⟩ : ∃ entry ∈ states, entry.1 = .failed := by
      by_contra hno
      exact hfailed (named_eq_nil.mpr fun entry hentry hstate => hno ⟨entry, hentry, hstate⟩)
    refine iff_of_false (by simp) fun h => ?_
    rw [h.2 entry hentry] at hstate
    cases hstate
  · obtain ⟨entry, hentry, hstate⟩ : ∃ entry ∈ states, entry.1 = .running := by
      by_contra hno
      exact hrunning (named_eq_nil.mpr fun entry hentry hstate => hno ⟨entry, hentry, hstate⟩)
    refine iff_of_false (by simp) fun h => ?_
    rw [h.2 entry hentry] at hstate
    cases hstate
  · refine iff_of_true rfl ⟨hnone, fun entry hentry => ?_⟩
    have hnotFailed := named_eq_nil.mp (not_not.mp hfailed) entry hentry
    have hnotRunning := named_eq_nil.mp (not_not.mp hrunning) entry hentry
    have hnotUnknown := hknown entry hentry
    cases hstate : entry.1 <;> simp_all

/-- The states read are those of the entries, in order. -/
lemma mapM_entryState {entries : List Json} {states : List (CiState × String)} :
    (entries.zipIdx.mapM fun (node, index) => entryState index node) = .ok states ↔
      List.Forall₂ (fun node entry => EntryOf node entry.1 entry.2) entries states := by
  rw [Except.mapM_eq_ok_iff]
  suffices hfrom : ∀ (start : ℕ) (states : List (CiState × String)),
      List.Forall₂ (fun (a : Json × ℕ) b => entryState a.2 a.1 = .ok b) (entries.zipIdx start) states ↔
        List.Forall₂ (fun node entry => EntryOf node entry.1 entry.2) entries states from hfrom 0 states
  induction entries with
  | nil => simp
  | cons node entries ih =>
      intro start states
      rw [List.zipIdx_cons, List.forall₂_cons_left_iff, List.forall₂_cons_left_iff]
      simp only [ih]
      constructor
      · rintro ⟨⟨state, name⟩, rest, hentry, hrest, rfl⟩
        exact ⟨(state, name), rest, entryState_ok.mp hentry, hrest, rfl⟩
      · rintro ⟨⟨state, name⟩, rest, hentry, hrest, rfl⟩
        exact ⟨(state, name), rest, entryState_ok.mpr hentry, hrest, rfl⟩

/-- The entries that are read, one by one. -/
lemma passed_iff {entries : List Json} {states : List (CiState × String)}
    (h : List.Forall₂ (fun node entry => EntryOf node entry.1 entry.2) entries states) :
    (∀ entry ∈ states, entry.1 = .passed) ↔ ∀ node ∈ entries, ∃ name, EntryOf node .passed name := by
  induction h with
  | nil => simp
  | @cons node entry entries states hentry hrest ih =>
      rw [List.forall_mem_cons, List.forall_mem_cons, ih]
      refine and_congr_left' ⟨fun hpassed => ⟨entry.2, hpassed ▸ hentry⟩, ?_⟩
      rintro ⟨name, hname⟩
      exact (hentry.unique hname).1

lemma known_of_read {entries : List Json} {states : List (CiState × String)}
    (h : List.Forall₂ (fun node entry => EntryOf node entry.1 entry.2) entries states) :
    ∀ entry ∈ states, entry.1 ≠ .unknown := by
  induction h with
  | nil => simp
  | cons hentry _ ih => exact List.forall_mem_cons.mpr ⟨hentry.ne_unknown, ih⟩

lemma exists_read {entries : List Json} (h : ∀ node ∈ entries, ∃ name, EntryOf node .passed name) :
    ∃ states, List.Forall₂ (fun node (entry : CiState × String) => EntryOf node entry.1 entry.2) entries states := by
  induction entries with
  | nil => exact ⟨[], .nil⟩
  | cons node entries ih =>
      obtain ⟨⟨name, hname⟩, hrest⟩ := List.forall_mem_cons.mp h
      obtain ⟨states, hstates⟩ := ih hrest
      exact ⟨(.passed, name) :: states, .cons hname hstates⟩

lemma judgeEntries_passed (entries : List Json) :
    (∃ reason checks, judgeEntries entries = .ok (.passed, reason, checks)) ↔
      entries ≠ [] ∧ ∀ node ∈ entries, ∃ name, EntryOf node .passed name := by
  unfold judgeEntries
  cases hstates : entries.zipIdx.mapM fun (node, index) => entryState index node with
  | error fault =>
      refine iff_of_false ?_ fun h => ?_
      · rintro ⟨reason, checks, h⟩
        cases fault <;> simp [judged] at h
      · obtain ⟨states, hread⟩ := exists_read h.2
        rw [mapM_entryState.mpr hread] at hstates
        cases hstates
  | ok states =>
      have hread := mapM_entryState.mp hstates
      have hfold : (∃ reason checks, judged (.ok states) = .ok (.passed, reason, checks)) ↔
          (foldStates states).1 = .passed := by
        constructor
        · rintro ⟨reason, checks, h⟩
          rw [Except.ok.inj h]
        · exact fun h => ⟨_, _, congrArg Except.ok (Prod.ext h rfl)⟩
      rw [hfold, foldStates_passed (known_of_read hread), passed_iff hread]
      refine and_congr_left' (not_congr ⟨fun hnil => ?_, fun hnil => ?_⟩)
      · exact List.forall₂_nil_right_iff.mp (hnil ▸ hread)
      · exact List.forall₂_nil_left_iff.mp (hnil ▸ hread)

/-- Without pages that add up the state is unknown. -/
lemma reply_of_known {pages : Json} {state : CiState} {reason : String} {checks : ℕ}
    (h : classifyReply pages = .ok (state, reason, checks)) (hknown : state ≠ .unknown) :
    ∃ entries, Reply pages entries := by
  unfold classifyReply at h
  cases hstates : entryStates pages with
  | error fault =>
      rw [hstates] at h
      cases fault with
      | unreadable reason =>
          cases h
          exact absurd rfl hknown
      | raised => cases h
  | ok states =>
      unfold entryStates at hstates
      split at hstates
      · cases hstates
      · next ps hps =>
          obtain ⟨read, hread, hstates⟩ := bind_ok.mp hstates
          dsimp only at hstates
          split at hstates
          · next total htotals =>
              split_ifs at hstates with hcount
              exact ⟨_, (reply_iff (fun hnil => hps (hnil ▸ rfl)) _).mpr
                ⟨read, hread, rfl, by rw [htotals, not_not.mp hcount]⟩⟩
          · cases hstates
      · cases hstates

/-- **CI state is read soundly.**  Every reply has a state, and nothing is raised.  It is passed if and only if every
page and every entry is read, the totals that the pages state are the number of entries, there is an entry, and
every entry has passed.  Two replies with the same entries, with their number stated on every page, have the same
answer. -/
theorem classifyReply_sound (pages : Json) :
    (∃ state reason checks, classifyReply pages = .ok (state, reason, checks)) ∧
    ((∃ reason checks, classifyReply pages = .ok (.passed, reason, checks)) ↔
      ∃ entries, Reply pages entries ∧ entries ≠ [] ∧ ∀ node ∈ entries, ∃ name, EntryOf node .passed name) ∧
    ∀ pages' entries, Reply pages entries → Reply pages' entries → classifyReply pages = classifyReply pages' := by
  refine ⟨?_, ⟨?_, ?_⟩, fun pages' entries h h' => ?_⟩
  · obtain ⟨⟨state, reason, checks⟩, hanswer⟩ := judged_ok (guarded_entryStates pages)
    exact ⟨state, reason, checks, hanswer⟩
  · rintro ⟨reason, checks, hpassed⟩
    obtain ⟨entries, hreply⟩ := reply_of_known hpassed (by decide)
    rw [classifyReply_of_reply hreply] at hpassed
    exact ⟨entries, hreply, (judgeEntries_passed entries).mp ⟨reason, checks, hpassed⟩⟩
  · rintro ⟨entries, hreply, hpassed⟩
    rw [classifyReply_of_reply hreply]
    exact (judgeEntries_passed entries).mpr hpassed
  · rw [classifyReply_of_reply h, classifyReply_of_reply h']

end Kstrl.Serve
