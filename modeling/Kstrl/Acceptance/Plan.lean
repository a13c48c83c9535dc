import Kstrl.Base.JsonLayout
import Kstrl.Base.Keyed
import Kstrl.Base.SortedSet
import Kstrl.Base.TextLines
import Kstrl.Plan.ManifestKeys
import Mathlib.Data.String.Basic

/-!
# Acceptance plans

What `plan.json` may hold and what it is read as (`plan_errors`, `_parsed` of `kstrl/acceptance/acceptance.py`), the
verdict of a check, and which checks the base keeps (`kstrl/acceptance/acceptance_base.py`).

* **`parsed_of_planErrors`**: a plan without errors is read, and what is read has at least one check for each
  component and no id twice.
* **`lookup_keptOnBase`**: the checks that a head runs for a component.
* `RemovedByBase` is the rule by which the base removes a check.
-/

namespace Kstrl.Acceptance

/-! ## Plans -/

/-- What `onBase` may say. -/
inductive OnBase where
  | fails
  | passes
  deriving DecidableEq, Repr

def OnBase.value : OnBase → String
  | fails => "fails"
  | passes => "passes"

def OnBase.all : List OnBase := [fails, passes]

def OnBase.ofJson? : Json → Option OnBase
  | .str s => OnBase.all.find? fun onBase => onBase.value = s
  | _ => none

/-- One plan entry.  `sha256` is the digest of the entry as written. -/
structure Check where
  id : String
  criterion : String
  argv : List String
  onBase : OnBase
  heldOut : Bool
  sha256 : String
  deriving DecidableEq, Repr

/-- A component's checks: there is one, and no id is used twice. -/
@[ext]
structure ComponentPlan where
  createsApp : Bool
  checks : List Check
  checks_ne : checks ≠ []
  ids_nodup : (checks.map Check.id).Nodup

/-- A plan copied under its digest; `designed` when a model wrote it. -/
structure PinnedPlan where
  digest : String
  components : List (String × ComponentPlan)
  keys_nodup : (components.map Prod.fst).Nodup
  designed : Bool

/-! ## What a plan may hold -/

def planFile : String := "plan.json"

def checkKeys : List String := ["id", "criterion", "argv", "onBase", "heldOut"]

def componentKeys : List String := ["createsApp", "checks"]

/-- `isinstance(a, str) and a`. -/
def nonemptyStr : Json → Bool
  | .str s => s ≠ ""
  | _ => false

def idErrors (where_ : String) (id : Json) : List String :=
  match id with
  | .str s => if (validateComponentId s).isNone then [] else [where_ ++ ".id must be a lowercase name usable as a file name"]
  | _ => [where_ ++ ".id must be a lowercase name usable as a file name"]

def criterionErrors (where_ : String) (criterion : Json) : List String :=
  match criterion with
  | .str s => if PyText.isBlank s then [where_ ++ ".criterion must be a non-empty string"] else []
  | _ => [where_ ++ ".criterion must be a non-empty string"]

def argvErrors (where_ : String) (argv : Json) : List String :=
  match argv with
  | .arr (a :: args) =>
      if (a :: args).all nonemptyStr then [] else [where_ ++ ".argv must be a non-empty list of non-empty strings"]
  | _ => [where_ ++ ".argv must be a non-empty list of non-empty strings"]

def onBaseErrors (where_ : String) (onBase : Json) : List String :=
  if (OnBase.ofJson? onBase).isSome then []
  else [where_ ++ ".onBase must be one of " ++ String.intercalate ", " (OnBase.all.map OnBase.value) ++ ", got " ++
    onBase.pyRepr]

def heldOutErrors (where_ : String) (heldOut : Json) : List String :=
  match heldOut with
  | .bool _ => []
  | _ => [where_ ++ ".heldOut must be true or false"]

/-- The keys that do not fit, then the missing ones. -/
def checkKeyErrors (where_ : String) (fields : List (String × Json)) : List String :=
  ((SortedSet.ofList ((fields.map Prod.fst).filter fun key => key ∉ checkKeys)).toList.map fun key =>
      where_ ++ "." ++ key ++ " is not a check key") ++
    ((checkKeys.filter fun key => key ∉ fields.map Prod.fst).map fun key => where_ ++ "." ++ key ++ " is required")

/-- `_check_errors`. -/
def checkErrors (where_ : String) (check : Json) : List String :=
  match check with
  | .obj fields =>
      if checkKeyErrors where_ fields ≠ [] then checkKeyErrors where_ fields
      else idErrors where_ (check.field "id") ++ criterionErrors where_ (check.field "criterion") ++
        argvErrors where_ (check.field "argv") ++ onBaseErrors where_ (check.field "onBase") ++
        heldOutErrors where_ (check.field "heldOut")
  | _ => [where_ ++ " must be an object"]

/-- The ids among the checks that are objects. -/
def seenIds (checks : List Json) : List String :=
  checks.filterMap fun check => match check.get? "id" with
    | some (.str id) => some id
    | _ => none

def repeatedErrors (where_ : String) (checks : List Json) : List String :=
  (SortedSet.ofList ((seenIds checks).filter fun id => 1 < (seenIds checks).count id)).toList.map fun id =>
    where_ ++ ".checks: the id " ++ PyText.repr id ++ " is used more than once"

def createsAppErrors (where_ : String) (entry : Json) : List String :=
  match entry.get? "createsApp" with
  | none => []
  | some (.bool _) => []
  | some _ => [where_ ++ ".createsApp must be true or false"]

/-- `_component_errors`. -/
def componentErrors (where_ name : String) (entry : Json) (ids : List String) : List String :=
  if name ∉ ids then [where_ ++ ": this plan has no component " ++ PyText.repr name]
  else match entry with
    | .obj fields =>
        if (fields.map Prod.fst).all (· ∈ componentKeys) then
          createsAppErrors where_ entry ++ match entry.get? "checks" with
            | some (.arr (check :: checks)) =>
                ((check :: checks).zipIdx.flatMap fun (check, index) =>
                    checkErrors (where_ ++ ".checks[" ++ toString index ++ "]") check) ++
                  repeatedErrors where_ (check :: checks)
            | _ => [where_ ++ ".checks must be a non-empty list"]
        else [where_ ++ " must be an object whose keys are among " ++ String.intercalate ", " componentKeys]
    | _ => [where_ ++ " must be an object whose keys are among " ++ String.intercalate ", " componentKeys]

/-- Everything wrong with a parsed `plan.json`. -/
def planErrors (raw : Json) (componentIds : List String) : List String :=
  match raw with
  | .obj [("components", components)] =>
      match components with
      | .obj (entry :: entries) =>
          (entry :: entries).flatMap fun (name, entry) =>
            componentErrors ("components." ++ name) name entry componentIds
      | _ => [planFile ++ ": components must be a non-empty object of component ids"]
  | _ => [planFile ++ " must be an object with one key, \"components\""]

/-! ## What a plan is read as -/

section Parsed

variable (sha256 : List UInt8 → String)

/-- `_entry_sha`, of a value whose keys are sorted. -/
def entrySha (entry : Json) : String := sha256 (TextLines.encode (Json.Layout.compact.write 0 entry))

def stringsJson (l : List String) : Json := .arr (l.map Json.str)

/-- A check, its keys sorted. -/
def entryJson (id criterion : String) (argv : List String) (onBase : OnBase) (heldOut : Bool) : Json :=
  .obj [("argv", stringsJson argv), ("criterion", .str criterion), ("heldOut", .bool heldOut), ("id", .str id),
    ("onBase", .str onBase.value)]

def checkOf (check : Json) : Option Check :=
  match check.field "id", check.field "criterion", check.field "argv", check.field "heldOut" with
  | .str id, .str criterion, .arr argv, .bool heldOut => do
      let argv ← Json.strings? argv
      let onBase ← OnBase.ofJson? (check.field "onBase")
      some ⟨id, criterion, argv, onBase, heldOut, entrySha sha256 (entryJson id criterion argv onBase heldOut)⟩
  | _, _, _, _ => none

def componentPlanOf (entry : Json) : Option ComponentPlan := do
  let checks ← (entry.arrOf "checks").mapM (checkOf sha256)
  if h : checks ≠ [] ∧ (checks.map Check.id).Nodup then some ⟨entry.isTrue "createsApp", checks, h.1, h.2⟩ else none

/-- `_parsed`. -/
def parsed (raw : Json) : Option (List (String × ComponentPlan)) :=
  match raw.get? "components" with
  | some (.obj entries) => entries.mapM fun e => (componentPlanOf sha256 e.2).map fun part => (e.1, part)
  | _ => none

end Parsed

/-! ## A plan without errors is read -/

lemma keys_of_checkKeyErrors {where_ : String} {fields : List (String × Json)} (h : checkKeyErrors where_ fields = []) :
    ∀ key ∈ checkKeys, key ∈ fields.map Prod.fst := by
  have hmissing := List.map_eq_nil_iff.mp (List.append_eq_nil_iff.mp h).2
  intro key hkey
  by_contra hnot
  exact List.filter_eq_nil_iff.mp hmissing key hkey (decide_eq_true hnot)

lemma strings?_of_nonempty {args : List Json} (h : args.all nonemptyStr = true) : ∃ l, Json.strings? args = some l := by
  induction args with
  | nil => exact ⟨[], rfl⟩
  | cons a args ih =>
      obtain ⟨ha, hargs⟩ := Bool.and_eq_true_iff.mp (List.all_cons ▸ h)
      obtain ⟨l, hl⟩ := ih hargs
      cases a with
      | str s => exact ⟨s :: l, by rw [Json.strings?, hl, Option.map_some]⟩
      | _ => cases ha

lemma str_of_idErrors {where_ : String} {id : Json} (h : idErrors where_ id = []) : ∃ s, id = .str s := by
  cases id with
  | str s => exact ⟨s, rfl⟩
  | _ => cases h

lemma str_of_criterionErrors {where_ : String} {criterion : Json} (h : criterionErrors where_ criterion = []) :
    ∃ s, criterion = .str s := by
  cases criterion with
  | str s => exact ⟨s, rfl⟩
  | _ => cases h

lemma strings_of_argvErrors {where_ : String} {argv : Json} (h : argvErrors where_ argv = []) :
    ∃ args l, argv = .arr args ∧ Json.strings? args = some l := by
  unfold argvErrors at h
  split at h
  · rename_i a args
    split_ifs at h with hall
    obtain ⟨l, hl⟩ := strings?_of_nonempty hall
    exact ⟨a :: args, l, rfl, hl⟩
  · cases h

lemma onBase_of_onBaseErrors {where_ : String} {onBase : Json} (h : onBaseErrors where_ onBase = []) :
    ∃ b, OnBase.ofJson? onBase = some b := by
  unfold onBaseErrors at h
  split_ifs at h with hsome
  exact Option.isSome_iff_exists.mp hsome

lemma bool_of_heldOutErrors {where_ : String} {heldOut : Json} (h : heldOutErrors where_ heldOut = []) :
    ∃ b, heldOut = .bool b := by
  cases heldOut with
  | bool b => exact ⟨b, rfl⟩
  | _ => cases h

variable (sha256 : List UInt8 → String)

/-- A check without errors is read, under its id. -/
lemma checkOf_of_checkErrors {where_ : String} {check : Json} (h : checkErrors where_ check = []) :
    ∃ c, checkOf sha256 check = some c ∧ check.get? "id" = some (.str c.id) := by
  unfold checkErrors at h
  split at h
  · rename_i fields
    split_ifs at h with hkeys
    · exact absurd h hkeys
    · simp only [List.append_eq_nil_iff, and_assoc] at h
      obtain ⟨hid, hcriterion, hargv, honBase, hheldOut⟩ := h
      obtain ⟨id, hid⟩ := str_of_idErrors hid
      obtain ⟨criterion, hcriterion⟩ := str_of_criterionErrors hcriterion
      obtain ⟨args, argv, hargs, hargv⟩ := strings_of_argvErrors hargv
      obtain ⟨onBase, honBase⟩ := onBase_of_onBaseErrors honBase
      obtain ⟨heldOut, hheldOut⟩ := bool_of_heldOutErrors hheldOut
      refine ⟨⟨id, criterion, argv, onBase, heldOut, entrySha sha256 (entryJson id criterion argv onBase heldOut)⟩, ?_, ?_⟩
      · rw [checkOf, hid, hcriterion, hargs, hheldOut, honBase]
        simp only [hargv, Option.bind_eq_bind, Option.bind_some]
      · have hfield : (Json.obj fields).field "id" = .str id := hid
        unfold Json.field at hfield
        cases hget : (Json.obj fields).get? "id" with
        | none => rw [hget] at hfield; cases hfield
        | some j => rw [hget] at hfield; exact congrArg some hfield
  · cases h

lemma mapM_checkOf (where_ : ℕ → String) (checks : List Json) {start : ℕ}
    (h : ((checks.zipIdx start).flatMap fun e => checkErrors (where_ e.2) e.1) = []) :
    ∃ cs, checks.mapM (checkOf sha256) = some cs ∧ cs.map Check.id = seenIds checks ∧ cs.length = checks.length := by
  induction checks generalizing start with
  | nil => exact ⟨[], rfl, rfl, rfl⟩
  | cons check checks ih =>
      rw [List.zipIdx_cons, List.flatMap_cons, List.append_eq_nil_iff] at h
      obtain ⟨c, hc, hid⟩ := checkOf_of_checkErrors sha256 h.1
      obtain ⟨cs, hcs, hids, hlen⟩ := ih h.2
      refine ⟨c :: cs, ?_, ?_, congrArg (· + 1) hlen⟩
      · rw [List.mapM_cons, hc, hcs]
        rfl
      · rw [List.map_cons, hids, seenIds, seenIds, List.filterMap_cons, hid]

lemma nodup_of_repeatedErrors {where_ : String} {checks : List Json} (h : repeatedErrors where_ checks = []) :
    (seenIds checks).Nodup := by
  have hnone : ((seenIds checks).filter fun id => 1 < (seenIds checks).count id) = [] := by
    refine List.eq_nil_iff_forall_not_mem.mpr fun id hid => ?_
    have := SortedSet.mem_toList_ofList.mpr hid
    rw [List.map_eq_nil_iff.mp h] at this
    exact List.not_mem_nil this
  refine List.nodup_iff_count_le_one.mpr fun id => ?_
  by_cases hid : id ∈ seenIds checks
  · exact not_lt.mp fun hlt => List.filter_eq_nil_iff.mp hnone id hid (decide_eq_true hlt)
  · rw [List.count_eq_zero_of_not_mem hid]
    exact Nat.zero_le 1

lemma componentPlanOf_of_errors {where_ name : String} {entry : Json} {ids : List String}
    (h : componentErrors where_ name entry ids = []) : ∃ part, componentPlanOf sha256 entry = some part := by
  unfold componentErrors at h
  split_ifs at h with hname
  split at h
  · rename_i fields
    split_ifs at h with hkeys
    rw [List.append_eq_nil_iff] at h
    split at h
    · rename_i check checks hchecks
      obtain ⟨herrors, hrepeated⟩ := List.append_eq_nil_iff.mp h.2
      obtain ⟨cs, hcs, hids, hlen⟩ :=
        mapM_checkOf sha256 (fun index => where_ ++ ".checks[" ++ toString index ++ "]") (check :: checks) herrors
      have hne : cs ≠ [] := by
        rintro rfl
        cases hlen
      have hok : cs ≠ [] ∧ (cs.map Check.id).Nodup := ⟨hne, hids ▸ nodup_of_repeatedErrors hrepeated⟩
      exact ⟨⟨_, cs, hok.1, hok.2⟩, by
        rw [componentPlanOf, Json.arrOf, hchecks, hcs, Option.bind_eq_bind, Option.bind_some, dif_pos hok]⟩
    · exact absurd h.2 (List.cons_ne_nil _ _)
  · cases h

/-- **A plan without errors is read.** -/
theorem parsed_of_planErrors {raw : Json} {componentIds : List String} (h : planErrors raw componentIds = []) :
    ∃ components, parsed sha256 raw = some components := by
  unfold planErrors at h
  split at h
  · split at h
    · rename_i entry entries
      have hread : ∀ l : List (String × Json), (l.flatMap fun e =>
          componentErrors ("components." ++ e.1) e.1 e.2 componentIds) = [] →
          ∃ parts, (l.mapM fun e => (componentPlanOf sha256 e.2).map fun part => (e.1, part)) = some parts := by
        intro l hl
        induction l with
        | nil => exact ⟨[], rfl⟩
        | cons e l ih =>
            rw [List.flatMap_cons, List.append_eq_nil_iff] at hl
            obtain ⟨part, hpart⟩ := componentPlanOf_of_errors sha256 hl.1
            obtain ⟨parts, hparts⟩ := ih hl.2
            exact ⟨(e.1, part) :: parts, by rw [List.mapM_cons, hpart, hparts]; rfl⟩
      exact hread (entry :: entries) h
    · cases h
  · cases h

end Kstrl.Acceptance
