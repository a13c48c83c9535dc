import Kstrl.Base.JsonText
import Kstrl.Owner.InboxGate
import Kstrl.Owner.Waivers
import Mathlib.Data.Set.Function

/-!
# The approvals that waive a finding

`waiver_key`, `load_approvals` and `ApprovalSnapshot.for_scope` of `kstrl/owner/waivers.py`: which approved items
of the inbox become waivers of a component's findings.  The digest is a parameter.

* **`canonical_injective`**: the text under the digest has the scope and the finding in it, field by field.
* **`waivers_sound`** is what becomes of every finding: waived by the latest row of an approved item that records
  its component, its key, its category, its location, its explanation and the diff; or kept, with tags at most.
* `refused_finding_tagged` is a finding that is kept and gets a tag.
-/

namespace Kstrl

namespace Owner

open PyCodec LatestLog

/-! ## The canonical text -/

/-- One character inside a string of `json.dumps`. -/
def escapePy : PyChar → List Char
  | .char c => Json.escapeChar c
  | .byte b => Json.unitEscape (0xDC00 + b.toNat)

/-- `json.dumps` of a text. -/
def quotePy (s : PyStr) : List Char := '"' :: (s.flatMap escapePy ++ ['"'])

/-- The code units of a character. -/
def unitsPy : PyChar → List ℕ
  | .char c => Json.unitsOf c
  | .byte b => [0xDC00 + b.toNat]

/-- The character of one code unit. -/
def charOfUnit (u : ℕ) : PyChar := if Json.isLow u then .byte (UInt8.ofNat (u - 0xDC00)) else .char (Char.ofNat u)

/-- The text of code units. -/
def textOfUnits : List ℕ → PyStr
  | [] => []
  | [u] => [charOfUnit u]
  | u :: v :: rest =>
      if Json.isHigh u && Json.isLow v then
        .char (Char.ofNat (0x10000 + (u - 0xD800) * 0x400 + (v - 0xDC00))) :: textOfUnits rest
      else charOfUnit u :: textOfUnits (v :: rest)

/-- `WaiverScope`. -/
structure WaiverScope where
  project : String
  specFile : String
  planId : String
  component : String
  deriving DecidableEq, Repr

/-- `json.dumps(payload, sort_keys=True, separators=(",", ":"))` of `waiver_key`. -/
def canonical (scope : WaiverScope) (category : String) (location explanation : PyStr) : List Char :=
  "\x7b\"category\":".toList ++ (quotePy (lit category) ++ (",\"component\":".toList ++ (quotePy (lit scope.component) ++
    (",\"explanation\":".toList ++ (quotePy explanation ++ (",\"location\":".toList ++ (quotePy location ++
      (",\"plan_id\":".toList ++ (quotePy (lit scope.planId) ++ (",\"project\":".toList ++ (quotePy (lit scope.project) ++
        (",\"spec_file\":".toList ++ (quotePy (lit scope.specFile) ++ ",\"v\":1\x7d".toList)))))))))))))

/-! ## Approvals -/

section Approvals

variable (sha256 : List Char → String)

def waiverKey (scope : WaiverScope) (category : String) (location explanation : PyStr) : String :=
  sha256 (canonical scope category location explanation)

/-- `WaiverScope.key`. -/
def WaiverScope.key (scope : WaiverScope) (f : CheckFinding) : String :=
  waiverKey sha256 scope f.category f.location f.explanation

/-- `NON_WAIVABLE_CATEGORIES`. -/
def nonWaivableCategories : List String := [policyCategoryPrefix ++ "enforcement_machinery"]

/-- `_HEX64.fullmatch`. -/
def isHex64 (s : String) : Bool :=
  s.toList.length = 64 && s.toList.all fun c => ('0' ≤ c && c ≤ '9') || ('a' ≤ c && c ≤ 'f')

/-- An approved item of the kind in `WAIVABLE`. -/
structure ApprovedItem where
  item : InboxItem
  kind : item.kind = .policyException
  status : item.status = .approved

/-- `_evidence_refusal`; `none` for the empty reason. -/
def evidenceRefusal (approved : ApprovedItem) : Option String :=
  let item := approved.item
  let tag := s!"approval {shortId item.id}"
  let shown := ((item.evidence.lookup "category").getD .null).pyRepr
  let notPolicy := s!"{tag}: evidence.category {shown} is not a {policyCategoryPrefix}* category"
  match item.evidence.lookup "category" with
  | some (.str category) =>
      if !policyCategoryPrefix.toList.isPrefixOf category.toList then some notPolicy
      else if category ∈ nonWaivableCategories then
        some s!"{tag}: {category} is non-overridable, so the approval is not applied"
      else match item.evidence.lookup "waiver_key" with
        | none => some s!"{tag}: filed before an approval could waive a finding (no evidence.waiver_key)"
        | some (.str key) =>
            if !isHex64 key then some s!"{tag}: evidence.waiver_key is not a 64-character hex digest"
            else match item.evidence.lookup "location", item.evidence.lookup "explanation" with
              | some (.str _), some (.str _) =>
                  match item.evidence.lookup "diff_sha" with
                  | none => some s!"{tag}: filed before an approval was bound to its change (no evidence.diff_sha)"
                  | some .null =>
                      some s!"{tag}: filed before an approval was bound to its change (no evidence.diff_sha)"
                  | some (.str diffSha) =>
                      if isHex64 diffSha then none
                      else some (s!"{tag}: evidence.diff_sha is not a 64-character hex digest, " ++
                        "so it names no change")
                  | some _ => some (s!"{tag}: evidence.diff_sha is not a 64-character hex digest, " ++
                      "so it names no change")
              | some (.str _), _ => some s!"{tag}: evidence.explanation is not a string"
              | _, _ => some s!"{tag}: evidence.location is not a string"
        | some _ => some s!"{tag}: evidence.waiver_key is not a 64-character hex digest"
  | _ => some notPolicy

/-- A field of the evidence that is a string. -/
def evidenceText (item : InboxItem) (name : String) : String :=
  match item.evidence.lookup name with
  | some (.str s) => s
  | _ => ""

/-- `_refusal`; `none` for the empty reason. -/
def refusal (approved : ApprovedItem) (scope : WaiverScope) (diffSha : String) : Option String :=
  match evidenceRefusal approved with
  | some reason => some reason
  | none =>
      let item := approved.item
      let tag := s!"approval {shortId item.id}"
      let recomputed := waiverKey sha256 scope (evidenceText item "category") (lit (evidenceText item "location"))
        (lit (evidenceText item "explanation"))
      if recomputed ≠ evidenceText item "waiver_key" then
        some (s!"{tag}: evidence.waiver_key does not match this run's project " ++
          s!"{PyText.repr scope.project}, spec {PyText.repr scope.specFile}, plan {PyText.repr scope.planId} and " ++
          s!"component {PyText.repr scope.component}")
      else if evidenceText item "diff_sha" ≠ diffSha then
        let judged := if diffSha = "" then "a diff that could not be read"
          else s!"diff {String.ofList (diffSha.toList.take 12)}"
        let taken := String.ofList ((evidenceText item "diff_sha").toList.take 12)
        some (s!"{tag}: taken on diff {taken}, " ++
          s!"this attempt judges {judged}; a regenerated change is asked again")
      else none

/-- The part of `ApprovalSnapshot` that `for_scope` reads. -/
structure ApprovalSnapshot where
  approved : List ApprovedItem := []
  unconsultedReason : String := ""

/-- An item that is applied, under its key. -/
def granted (scope : WaiverScope) (diffSha : String) (approved : ApprovedItem) : Option (String × Waiver) :=
  match refusal sha256 approved scope diffSha with
  | some _ => none
  | none =>
      some (evidenceText approved.item "waiver_key",
        { itemId := approved.item.id, category := evidenceText approved.item "category"
          decidedBy := approved.item.decidedBy, decidedAt := approved.item.decidedAt })

/-- An item that is not, with its reason. -/
def refusedItem (scope : WaiverScope) (diffSha : String) (approved : ApprovedItem) : Option Refusal :=
  (refusal sha256 approved scope diffSha).map fun reason =>
    { itemId := approved.item.id, category := evidenceText approved.item "category", reason := reason }

/-- `ApprovalSnapshot.for_scope`. -/
def ApprovalSnapshot.forScope (snapshot : ApprovalSnapshot) (scope : WaiverScope) (diffSha : String) : Waivers :=
  if snapshot.unconsultedReason ≠ "" then
    { key := scope.key sha256, unconsultedReason := snapshot.unconsultedReason }
  else
    let mine := snapshot.approved.filter fun approved => approved.item.component = scope.component
    { key := scope.key sha256
      byKey := latest Prod.fst (mine.filterMap (granted sha256 scope diffSha))
      refused := mine.filterMap (refusedItem sha256 scope diffSha) }

end Approvals

/-- The item, if it is approved and of a waivable kind. -/
def approved? (item : InboxItem) : Option ApprovedItem :=
  if h : item.kind = .policyException ∧ item.status = .approved then some ⟨item, h.1, h.2⟩ else none

/-- `load_approvals`, from the scan of the inbox at `path`. -/
def loadApprovals (scan : InboxScan) (path : String) : ApprovalSnapshot :=
  if scan.unreadable then { unconsultedReason := s!"the inbox at {path} could not be read" }
  else
    let unparseable := scan.unparseableCount
    if unparseable ≠ 0 then
      { unconsultedReason := s!"{unparseable} line(s) of the inbox at {path} could not be parsed" }
    else { approved := (folded scan.records).filterMap approved? }

/-! ## Two findings with one canonical text -/

lemma units?_escapePy (ch : PyChar) (rest : List Char) :
    Json.units? (escapePy ch ++ rest) = (Json.units? rest).map fun p => (unitsPy ch ++ p.1, p.2) := by
  cases ch with
  | char c => exact Json.units?_escapeChar c rest
  | byte b =>
      have hb := b.toNat_lt
      exact Json.units?_unitEscape (by omega) rest

lemma units?_quotePy (s : PyStr) (rest : List Char) :
    Json.units? (s.flatMap escapePy ++ '"' :: rest) = some (s.flatMap unitsPy, rest) := by
  induction s with
  | nil => rfl
  | cons ch s ih => simp [units?_escapePy, ih]

lemma textOfUnits_single {u : ℕ} (h : Json.isHigh u = false) (us : List ℕ) :
    textOfUnits (u :: us) = charOfUnit u :: textOfUnits us := by
  cases us with
  | nil => rfl
  | cons v us => simp [textOfUnits, h]

lemma textOfUnits_char (c : Char) (us : List ℕ) : textOfUnits (Json.unitsOf c ++ us) = .char c :: textOfUnits us := by
  have hsurrogate := Json.not_surrogate c
  unfold Json.unitsOf
  split_ifs with h
  · have hhigh : Json.isHigh c.toNat = false := by
      simp only [Json.isHigh, Bool.and_eq_false_iff, decide_eq_false_iff_not]
      omega
    have hlow : Json.isLow c.toNat = false := by
      simp only [Json.isLow, Bool.and_eq_false_iff, decide_eq_false_iff_not]
      omega
    rw [List.singleton_append, textOfUnits_single hhigh, charOfUnit, hlow, Char.ofNat_toNat]
    rfl
  · have hmax : c.toNat < 0x110000 := by
      rcases c.valid with h | h
      · exact lt_trans h (by decide)
      · exact h.2
    have hhigh : Json.isHigh (0xD800 + (c.toNat - 0x10000) / 0x400) = true := by
      simp only [Json.isHigh, Bool.and_eq_true, decide_eq_true_eq]
      omega
    have hlow : Json.isLow (0xDC00 + (c.toNat - 0x10000) % 0x400) = true := by
      simp only [Json.isLow, Bool.and_eq_true, decide_eq_true_eq]
      omega
    have hvalue : 0x10000 + (0xD800 + (c.toNat - 0x10000) / 0x400 - 0xD800) * 0x400
        + (0xDC00 + (c.toNat - 0x10000) % 0x400 - 0xDC00) = c.toNat := by omega
    show textOfUnits (_ :: _ :: us) = _
    rw [textOfUnits, hhigh, hlow, hvalue, Char.ofNat_toNat]
    rfl

lemma textOfUnits_byte (b : UInt8) (us : List ℕ) : textOfUnits ((0xDC00 + b.toNat) :: us) = .byte b :: textOfUnits us := by
  have hb := b.toNat_lt
  have hhigh : Json.isHigh (0xDC00 + b.toNat) = false := by
    simp only [Json.isHigh, Bool.and_eq_false_iff, decide_eq_false_iff_not]
    omega
  have hlow : Json.isLow (0xDC00 + b.toNat) = true := by
    simp only [Json.isLow, Bool.and_eq_true, decide_eq_true_eq]
    omega
  rw [textOfUnits_single hhigh, charOfUnit, hlow, if_pos rfl, Nat.add_sub_cancel_left, UInt8.ofNat_toNat]

lemma textOfUnits_flatMap (s : PyStr) : textOfUnits (s.flatMap unitsPy) = s := by
  induction s with
  | nil => rfl
  | cons ch s ih =>
      cases ch with
      | char c => rw [List.flatMap_cons, unitsPy, textOfUnits_char, ih]
      | byte b => rw [List.flatMap_cons, unitsPy, List.singleton_append, textOfUnits_byte, ih]

/-- A quoted text ends where it ends, whatever stands behind it. -/
lemma quotePy_inj {a b : PyStr} {rest rest' : List Char} (h : quotePy a ++ rest = quotePy b ++ rest') :
    a = b ∧ rest = rest' := by
  have hread : ∀ (s : PyStr) (rest : List Char), Json.units? ((quotePy s ++ rest).tail) = some (s.flatMap unitsPy, rest) := by
    intro s rest
    rw [quotePy, List.cons_append, List.tail_cons, List.append_assoc, List.singleton_append, units?_quotePy]
  have hboth := hread a rest
  rw [h, hread b rest'] at hboth
  simp only [Option.some.injEq, Prod.mk.injEq] at hboth
  refine ⟨?_, hboth.2.symm⟩
  rw [← textOfUnits_flatMap a, ← hboth.1, textOfUnits_flatMap]

lemma lit_injective {a b : String} (h : lit a = lit b) : a = b := by
  have hchars : a.toList = b.toList := by
    refine List.map_injective_iff.mpr ?_ h
    intro c d hcd
    exact PyChar.char.inj hcd
  exact String.toList_injective hchars

/-- **The canonical text has its fields in it.** -/
theorem canonical_injective {scope scope' : WaiverScope} {category category' : String}
    {location location' explanation explanation' : PyStr}
    (h : canonical scope category location explanation = canonical scope' category' location' explanation') :
    scope = scope' ∧ category = category' ∧ location = location' ∧ explanation = explanation' := by
  unfold canonical at h
  obtain ⟨hcategory, h⟩ := quotePy_inj (List.append_cancel_left h)
  obtain ⟨hcomponent, h⟩ := quotePy_inj (List.append_cancel_left h)
  obtain ⟨hexplanation, h⟩ := quotePy_inj (List.append_cancel_left h)
  obtain ⟨hlocation, h⟩ := quotePy_inj (List.append_cancel_left h)
  obtain ⟨hplan, h⟩ := quotePy_inj (List.append_cancel_left h)
  obtain ⟨hproject, h⟩ := quotePy_inj (List.append_cancel_left h)
  obtain ⟨hspec, -⟩ := quotePy_inj (List.append_cancel_left h)
  refine ⟨?_, lit_injective hcategory, hlocation, hexplanation⟩
  cases scope
  cases scope'
  simp only [WaiverScope.mk.injEq]
  exact ⟨lit_injective hproject, lit_injective hspec, lit_injective hplan, lit_injective hcomponent⟩

/-! ## What an applied item records -/

variable {sha256 : List Char → String} {scope : WaiverScope} {diffSha : String} {approved : ApprovedItem}

/-- What the evidence of an item that is applied has. -/
structure Records (item : InboxItem) (category key location explanation diffSha : String) : Prop where
  category : item.evidence.lookup "category" = some (.str category)
  key : item.evidence.lookup "waiver_key" = some (.str key)
  location : item.evidence.lookup "location" = some (.str location)
  explanation : item.evidence.lookup "explanation" = some (.str explanation)
  diff : item.evidence.lookup "diff_sha" = some (.str diffSha)

lemma evidenceText_of {item : InboxItem} {name s : String} (h : item.evidence.lookup name = some (.str s)) :
    evidenceText item name = s := by
  unfold evidenceText
  rw [h]

lemma evidenceRefusal_none (h : evidenceRefusal approved = none) :
    ∃ category key location explanation diffSha,
      Records approved.item category key location explanation diffSha ∧ category ∉ nonWaivableCategories := by
  unfold evidenceRefusal at h
  dsimp only at h
  cases hcategory : approved.item.evidence.lookup "category" with
  | none => simp [hcategory] at h
  | some value =>
      rw [hcategory] at h
      cases value with
      | str category =>
          dsimp only at h
          split_ifs at h with hfront hnon
          cases hkey : approved.item.evidence.lookup "waiver_key" with
          | none => simp [hkey] at h
          | some value =>
              rw [hkey] at h
              cases value with
              | str key =>
                  dsimp only at h
                  split_ifs at h with hhex
                  split at h
                  · next location explanation hlocation hexplanation =>
                      split at h
                      · cases h
                      · cases h
                      · next diffSha hdiff =>
                          exact ⟨category, key, location, explanation, diffSha,
                            ⟨hcategory, hkey, hlocation, hexplanation, hdiff⟩, hnon⟩
                      · cases h
                  · cases h
                  · cases h
              | _ => simp at h
      | _ => simp at h

/-- What an applied item is, whose finding it covers and which change. -/
structure Covers (sha256 : List Char → String) (item : InboxItem) (scope : WaiverScope) (diffSha : String)
    (f : CheckFinding) : Prop where
  kind : item.kind = .policyException
  status : item.status = .approved
  component : item.component = scope.component
  category : item.evidence.lookup "category" = some (.str f.category)
  key : item.evidence.lookup "waiver_key" = some (.str (scope.key sha256 f))
  location : ∃ location, item.evidence.lookup "location" = some (.str location) ∧ f.location = lit location
  explanation : ∃ explanation, item.evidence.lookup "explanation" = some (.str explanation) ∧
    f.explanation = lit explanation
  diff : item.evidence.lookup "diff_sha" = some (.str diffSha)
  waivable : f.category ∉ nonWaivableCategories

lemma refusal_none (h : refusal sha256 approved scope diffSha = none) :
    ∃ category location explanation,
      Records approved.item category (waiverKey sha256 scope category (lit location) (lit explanation)) location
        explanation diffSha ∧ category ∉ nonWaivableCategories := by
  unfold refusal at h
  split at h
  · cases h
  · next hevidence =>
      obtain ⟨category, key, location, explanation, diff, hrecords, hnon⟩ := evidenceRefusal_none hevidence
      dsimp only at h
      rw [evidenceText_of hrecords.category, evidenceText_of hrecords.location, evidenceText_of hrecords.explanation,
        evidenceText_of hrecords.key, evidenceText_of hrecords.diff] at h
      split_ifs at h with hkey hdiff
      rw [not_not] at hkey hdiff
      exact ⟨category, location, explanation, hkey.symm ▸ hdiff ▸ hrecords, hnon⟩

/-- The texts whose digests a decision about some findings compares. -/
def hashed (scan : InboxScan) (scope : WaiverScope) (findings : List CheckFinding) : Set (List Char) :=
  {text | (∃ f ∈ findings, text = canonical scope f.category f.location f.explanation) ∨
    ∃ item ∈ folded scan.records, text = canonical scope (evidenceText item "category")
      (lit (evidenceText item "location")) (lit (evidenceText item "explanation"))}

lemma byKey_nil {snapshot : ApprovalSnapshot} (h : snapshot.approved = []) (sha256 : List Char → String)
    (scope : WaiverScope) (diffSha : String) : (snapshot.forScope sha256 scope diffSha).byKey = [] := by
  unfold ApprovalSnapshot.forScope
  split_ifs
  · rfl
  · simp [h]

/-- A log that does not read, or has a line that does not parse, has no approvals. -/
lemma approved_nil {scan : InboxScan} (h : scan.unreadable = true ∨ scan.unparseableCount ≠ 0) (path : String) :
    (loadApprovals scan path).approved = [] := by
  unfold loadApprovals
  dsimp only
  split_ifs with hread hparse
  · rfl
  · rfl
  · exact absurd h (by simp only [not_or]; exact ⟨hread, hparse⟩)

lemma mem_of_lookup {α β : Type*} [DecidableEq α] {k : α} {v : β} {l : List (α × β)} (h : l.lookup k = some v) :
    (k, v) ∈ l := by
  obtain ⟨front, back, rfl, -⟩ := List.lookup_eq_some_iff.mp h
  exact List.mem_append_right _ List.mem_cons_self

/-- **A waiver of a finding** is an approved item that covers it. -/
lemma covers_of_lookup {scan : InboxScan} {path : String} {findings : List CheckFinding} {f : CheckFinding} {w : Waiver}
    (hsha : Set.InjOn sha256 (hashed scan scope findings)) (hf : f ∈ findings)
    (h : ((loadApprovals scan path).forScope sha256 scope diffSha).byKey.lookup (scope.key sha256 f) = some w) :
    ∃ item ∈ folded scan.records, Covers sha256 item scope diffSha f ∧ w.itemId = item.id := by
  by_cases hbad : scan.unreadable = true ∨ scan.unparseableCount ≠ 0
  · rw [byKey_nil (approved_nil hbad path) sha256 scope diffSha] at h
    cases h
  simp only [not_or, not_not] at hbad
  have hload : loadApprovals scan path = { approved := (folded scan.records).filterMap approved? } := by
    rw [loadApprovals, if_neg hbad.1]
    simp only [hbad.2, ne_eq, not_true_eq_false, if_false]
  rw [hload, ApprovalSnapshot.forScope, if_neg (by simp)] at h
  have hmem := mem_of_mem_latest (mem_of_lookup h)
  obtain ⟨approved, happroved, hgranted⟩ := List.mem_filterMap.mp hmem
  obtain ⟨happroved, hcomponent⟩ := List.mem_filter.mp happroved
  obtain ⟨item, hitem, hsome⟩ := List.mem_filterMap.mp happroved
  unfold approved? at hsome
  split_ifs at hsome with hkind
  cases hsome
  unfold granted at hgranted
  split at hgranted
  · cases hgranted
  · next hrefusal =>
      obtain ⟨category, location, explanation, hrecords, hnon⟩ := refusal_none hrefusal
      rw [evidenceText_of hrecords.key] at hgranted
      have hkey : waiverKey sha256 scope category (lit location) (lit explanation) = scope.key sha256 f :=
        (Prod.mk.inj (Option.some.inj hgranted)).1
      have hsame := hsha (Or.inr ⟨item, hitem, by
        rw [evidenceText_of hrecords.category, evidenceText_of hrecords.location,
          evidenceText_of hrecords.explanation]⟩) (Or.inl ⟨f, hf, rfl⟩) hkey
      obtain ⟨-, hcategory, hlocation, hexplanation⟩ := canonical_injective hsame
      refine ⟨item, hitem, ?_, by rw [← (Prod.mk.inj (Option.some.inj hgranted)).2]⟩
      exact {
        kind := hkind.1
        status := hkind.2
        component := of_decide_eq_true hcomponent
        category := hcategory ▸ hrecords.category
        key := hkey ▸ hrecords.key
        location := ⟨location, hrecords.location, hlocation.symm⟩
        explanation := ⟨explanation, hrecords.explanation, hexplanation.symm⟩
        diff := hrecords.diff
        waivable := hcategory ▸ hnon }

/-! ## What becomes of a finding -/

/-- A finding that is kept: nothing of it but its tags changes, and these only where it could be waived. -/
inductive Kept (f : CheckFinding) : CheckFinding → Prop where
  | same : Kept f f
  | tagged (tags : List String) (h : waivable f = true) : Kept f { f with tags := f.tags ++ tags }

/-- A finding is waived by an item that covers it, or kept. -/
inductive Judged (sha256 : List Char → String) (scan : InboxScan) (scope : WaiverScope) (diffSha : String)
    (f : CheckFinding) : CheckFinding → Prop where
  | waived (item : InboxItem) (mem : item ∈ folded scan.records) (covers : Covers sha256 item scope diffSha f)
      (h : waivable f = true) (w : Waiver) (named : w.itemId = item.id) : Judged sha256 scan scope diffSha f (waive f w)
  | kept {g : CheckFinding} (h : Kept f g) : Judged sha256 scan scope diffSha f g

lemma kept_refuse {f : CheckFinding} (h : waivable f = true) (waivers : Waivers) : Kept f (refuse f waivers).1 :=
  .tagged _ h

lemma applyWaiver_judged {scan : InboxScan} {path : String} {findings : List CheckFinding} {f : CheckFinding}
    (hsha : Set.InjOn sha256 (hashed scan scope findings)) (hf : f ∈ findings) :
    Judged sha256 scan scope diffSha f
      (applyWaiver ((loadApprovals scan path).forScope sha256 scope diffSha) f).1 := by
  have hkey : ((loadApprovals scan path).forScope sha256 scope diffSha).key = scope.key sha256 := by
    unfold ApprovalSnapshot.forScope
    split_ifs <;> rfl
  unfold applyWaiver
  by_cases hwaivable : waivable f = true
  · rw [if_pos hwaivable, hkey]
    split
    · next w hw =>
        obtain ⟨item, hmem, hcovers, hnamed⟩ := covers_of_lookup hsha hf hw
        exact .waived item hmem hcovers hwaivable w hnamed
    · exact .kept (kept_refuse hwaivable _)
  · rw [if_neg hwaivable]
    exact .kept .same

/-- Without approvals every finding is kept. -/
lemma applyWaiver_kept {waivers : Waivers} (h : waivers.byKey = []) (f : CheckFinding) :
    Kept f (applyWaiver waivers f).1 := by
  unfold applyWaiver
  by_cases hwaivable : waivable f = true
  · rw [if_pos hwaivable, h]
    exact kept_refuse hwaivable _
  · rw [if_neg hwaivable]
    exact .same

/-- **Waivers are sound.**  Under a digest that does not collide on the texts it is compared on, every finding is,
in order, waived by an approved item that covers it, whose latest row the fold has, or kept; a log that does not
read or has a line that does not parse waives nothing; and the key of a finding is the key of no other scope and
no other finding. -/
theorem waivers_sound {scan : InboxScan} {findings : List CheckFinding}
    (hsha : Set.InjOn sha256 (hashed scan scope findings)) (path : String) (diffSha : String) :
    List.Forall₂ (Judged sha256 scan scope diffSha) findings
        (applyWaivers findings (some ((loadApprovals scan path).forScope sha256 scope diffSha))).1 ∧
      (scan.unreadable = true ∨ scan.unparseableCount ≠ 0 →
        List.Forall₂ Kept findings
          (applyWaivers findings (some ((loadApprovals scan path).forScope sha256 scope diffSha))).1) ∧
      ∀ f scope' category location explanation,
        Set.InjOn sha256 {canonical scope' category location explanation,
          canonical scope f.category f.location f.explanation} →
        waiverKey sha256 scope' category location explanation = scope.key sha256 f →
          scope' = scope ∧ category = f.category ∧ location = f.location ∧ explanation = f.explanation := by
  rw [applyWaivers]
  dsimp only
  rw [List.map_map]
  refine ⟨?_, ?_, ?_⟩
  · exact List.forall₂_map_right_iff.mpr (List.forall₂_same.mpr fun f hf => applyWaiver_judged hsha hf)
  · intro hbad
    have hnone := byKey_nil (approved_nil hbad path) sha256 scope diffSha
    exact List.forall₂_map_right_iff.mpr (List.forall₂_same.mpr fun f _ => applyWaiver_kept hnone f)
  · intro f scope' category location explanation hinj hkey
    exact canonical_injective (hinj (Set.mem_insert _ _) (Set.mem_insert_of_mem _ rfl) hkey)

/-! ### An approved path -/

def demoScope : WaiverScope := { project := "demo", specFile := "spec.md", planId := "p1", component := "api" }

def demoFinding : CheckFinding where
  phase := "verify"
  category := "policy_protected_path"
  severity := "critical"
  location := lit "src/auth.py"
  explanation := lit "protected path changed"

/-- The digest of the finding's canonical text. -/
def demoDigest (text : List Char) : String :=
  if text = canonical demoScope demoFinding.category demoFinding.location demoFinding.explanation then
    "dcc8e26598a3a2028f4d1311cf235befe317923668b2cd57020b83aeaf3c3f35"
  else ""

/-- The digest of the diff. -/
def demoDiff : String := "84765aa2f16eb7af0e6e920c355fc22b81c60dea313df343d19a0add227d8535"

/-- The item of the finding, approved. -/
def demoApproval : InboxItem where
  id := "w1"
  kind := .policyException
  title := "api: protected path"
  createdAt := "2026-10-09T10:00:00+00:00"
  component := "api"
  evidence := [("category", .str "policy_protected_path"), ("location", .str "src/auth.py"),
    ("explanation", .str "protected path changed"), ("waiver_key", .str (demoScope.key demoDigest demoFinding)),
    ("diff_sha", .str demoDiff)]
  status := .approved
  decidedAt := "2026-10-09T11:00:00+00:00"
  decidedBy := "me"

def demoScan : InboxScan := { records := [inboxRow demoApproval] }

/-- The item waives the finding. -/
theorem waivers_sound_approved :
    Set.InjOn demoDigest (hashed demoScan demoScope [demoFinding]) ∧
    (applyWaivers [demoFinding] (some ((loadApprovals demoScan "inbox.jsonl").forScope demoDigest demoScope
      demoDiff))).2.1 = ["w1"] ∧
    List.Forall₂ (Judged demoDigest demoScan demoScope demoDiff) [demoFinding]
      (applyWaivers [demoFinding] (some ((loadApprovals demoScan "inbox.jsonl").forScope demoDigest demoScope
        demoDiff))).1 := by
  have hsha : Set.InjOn demoDigest (hashed demoScan demoScope [demoFinding]) := by
    have hone : ∀ text ∈ hashed demoScan demoScope [demoFinding],
        text = canonical demoScope demoFinding.category demoFinding.location demoFinding.explanation := by
      rintro text (⟨f, hf, rfl⟩ | ⟨item, hitem, rfl⟩)
      · rw [List.mem_singleton.mp hf]
      · have hall : ∀ item ∈ folded demoScan.records, evidenceText item "category" = demoFinding.category ∧
            lit (evidenceText item "location") = demoFinding.location ∧
            lit (evidenceText item "explanation") = demoFinding.explanation := by decide +kernel
        obtain ⟨hcategory, hlocation, hexplanation⟩ := hall item hitem
        rw [hcategory, hlocation, hexplanation]
    intro a ha b hb _
    rw [hone a ha, hone b hb]
  exact ⟨hsha, by decide +kernel, (waivers_sound hsha "inbox.jsonl" demoDiff).1⟩

/-- **A finding that is kept is not returned as it was**: it is tagged with the approval that is not applied, here
the one of another diff. -/
theorem refused_finding_tagged :
    (applyWaivers [demoFinding] (some ((loadApprovals demoScan "inbox.jsonl").forScope demoDigest demoScope
      ""))).2.1 = [] ∧
    (applyWaivers [demoFinding] (some ((loadApprovals demoScan "inbox.jsonl").forScope demoDigest demoScope
      ""))).1.map CheckFinding.tags = [["waiver_refused:w1"]] := by
  decide +kernel

end Owner

end Kstrl
