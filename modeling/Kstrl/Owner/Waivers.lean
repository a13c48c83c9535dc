import Kstrl.Base.PyCodec

/-!
# Waivers

`apply_waivers` of `kstrl/owner/waivers.py`: an approved inbox item turns the one finding it covers into an
advisory one.  The key of a finding in its scope is a parameter (`Waivers.key`).

* **`category_applyWaivers`**: no finding is dropped, and none changes its category.
-/

namespace Kstrl

namespace Owner

open PyCodec

/-- A finding of a check that reads a diff. -/
structure CheckFinding where
  phase : String
  category : String
  severity : String
  location : PyStr := []
  explanation : PyStr := []
  suggestion : String := ""
  tags : List String := []

/-- `Finding.infrastructure_error`. -/
def CheckFinding.infrastructureError (phase : String) (explanation : PyStr) : CheckFinding where
  phase := phase
  category := "infrastructure_error"
  severity := "critical"
  explanation := explanation
  tags := ["infrastructure"]

def policyCategoryPrefix : String := "policy_"

def waiverTagPrefix : String := "waiver:"

def waiverRefusedTagPrefix : String := "waiver_refused:"

/-- `finding_waiver`. -/
def findingWaiver (f : CheckFinding) : Option String :=
  (f.tags.find? fun tag => waiverTagPrefix.toList.isPrefixOf tag.toList).bind fun tag =>
    let itemId := String.ofList (tag.toList.drop waiverTagPrefix.length)
    if itemId = "" then none else some itemId

/-- `Waiver`. -/
structure Waiver where
  itemId : String
  category : String
  decidedBy : String
  decidedAt : String

/-- `Refusal`. -/
structure Refusal where
  itemId : String
  category : String
  reason : String

/-- `Waivers`. -/
structure Waivers where
  /-- `scope.key` -/
  key : CheckFinding → String
  byKey : List (String × Waiver) := []
  refused : List Refusal := []
  unconsultedReason : String := ""

/-- `item_id[:8]`. -/
def shortId (itemId : String) : String := String.ofList (itemId.toList.take 8)

/-- `_waivable`. -/
def waivable (f : CheckFinding) : Bool :=
  f.severity ≠ "advisory" ∧ policyCategoryPrefix.toList.isPrefixOf f.category.toList

/-- `_waive`. -/
def waive (f : CheckFinding) (w : Waiver) : CheckFinding :=
  { f with
    severity := "advisory"
    explanation := f.explanation ++
      lit s!" [waived by inbox approval {shortId w.itemId} ({w.decidedBy} at {w.decidedAt})]"
    tags := f.tags ++ [waiverTagPrefix ++ w.itemId] }

/-- `_refuse`. -/
def refuse (f : CheckFinding) (waivers : Waivers) : CheckFinding × List String :=
  let refused := waivers.refused.filter fun r => r.category = f.category ∨ r.category = ""
  let others := (waivers.byKey.map Prod.snd).filter fun w => w.category = f.category
  ({ f with
     tags := f.tags ++ (refused.map Refusal.itemId ++ others.map Waiver.itemId).map
       (waiverRefusedTagPrefix ++ ·) },
   refused.map Refusal.reason ++
     others.map (fun w =>
       s!"approval {shortId w.itemId} covers a different {f.category} finding, so it is not applied") ++
     if waivers.unconsultedReason = "" then []
     else [s!"approvals were not consulted: {waivers.unconsultedReason}"])

/-- What becomes of one finding: the finding, the item that waives it, the reasons it is not waived for. -/
def applyWaiver (waivers : Waivers) (f : CheckFinding) : CheckFinding × List String × List String :=
  if waivable f then
    match waivers.byKey.lookup (waivers.key f) with
    | some w => (waive f w, [w.itemId], [])
    | none => ((refuse f waivers).1, [], (refuse f waivers).2)
  else (f, [], [])

/-- `apply_waivers`. -/
def applyWaivers (findings : List CheckFinding) :
    Option Waivers → List CheckFinding × List String × List String
  | none => (findings, [], [])
  | some waivers =>
      let out := findings.map (applyWaiver waivers)
      (out.map Prod.fst, out.flatMap (·.2.1), (out.flatMap (·.2.2)).eraseDups)

/-- `waiver_note`. -/
def waiverNote (waived refusals : List String) : String :=
  (if waived = [] then ""
    else s!"; {waived.length} waived by inbox approval " ++ ", ".intercalate (waived.map shortId)) ++
  String.join (refusals.map ("; " ++ ·))

lemma category_applyWaiver (waivers : Waivers) (f : CheckFinding) :
    (applyWaiver waivers f).1.category = f.category := by
  unfold applyWaiver
  split_ifs
  · cases waivers.byKey.lookup (waivers.key f) <;> rfl
  · rfl

/-- **No finding is dropped, and none changes its category.** -/
lemma category_applyWaivers (findings : List CheckFinding) (waivers : Option Waivers) :
    (applyWaivers findings waivers).1.map CheckFinding.category = findings.map CheckFinding.category := by
  cases waivers with
  | none => rfl
  | some waivers =>
      rw [applyWaivers, List.map_map, List.map_map]
      exact List.map_congr_left fun f _ => category_applyWaiver waivers f

end Owner

end Kstrl
