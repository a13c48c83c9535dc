import Kstrl.Base.JsonPrefix
import Kstrl.Base.PyCells
import Kstrl.Base.PyStrip
import Kstrl.Base.TextLines

/-!
# Knowledge facts

The facts that a distiller's reply yields, and the file of each (`kstrl/knowledge/knowledge_facts.py`).

A fact is a file of its own: a line of JSON between two delimiters, and the claim.  The writer checks a fact
before it cuts its texts to their limits; the reader checks what it finds once more, and reads its lines under
universal newlines.

* **`coerceFacts_accepted`**: what the facts of a reply have in common.
* **`parseFactMd_render`**: such a fact is read back, unless its claim holds a carriage return or a text that was
  cut matches an injection pattern.
-/

namespace Kstrl.Knowledge

open PyText (stripped trimEnd isSpace Trimmed)
open TextLines (translate)

/-! ## Facts -/

structure Fact where
  id : String
  componentId : String
  createdIter : ℤ
  createdRunId : String
  scope : String
  evidence : List String
  confidence : String
  claim : String
  tags : List String
  deriving DecidableEq

def validScopes : List String := ["handler", "adapter", "schema", "contract", "invariant", "gotcha"]

def validConfidences : List String := ["review_passed", "test_verified", "asserted"]

def maxClaimLength : ℕ := 500

def maxEvidenceItems : ℕ := 10

def maxEvidenceItemLength : ℕ := 200

def maxTagItems : ℕ := 8

/-- `_FACT_ID_RE.match`: three digits of any script, and at most a line feed behind them. -/
def factIdMatches (id : String) : Bool :=
  "fact-".toList.isPrefixOf id.toList &&
    match id.toList.drop 5 with
    | [a, b, c] => [a, b, c].all fun d => (PyText.decimalValue d).isSome
    | [a, b, c, '\n'] => [a, b, c].all fun d => (PyText.decimalValue d).isSome
    | _ => false

/-- `text.strip()` -/
def strip (text : String) : String := String.ofList (stripped text.toList)

/-- `text.rstrip()` -/
def rstrip (text : String) : String := String.ofList (trimEnd text.toList)

/-- `text[:n]` -/
def cut (n : ℕ) (text : String) : String := String.ofList (text.toList.take n)

section

-- `_is_injection_attempt`
variable (isInjectionAttempt : String → Bool)

/-! ## Facts of a reply -/

/-- The texts among the values of a list. -/
def textsOf (values : List Json) : List String :=
  values.filterMap fun
    | .str s => some s
    | _ => none

/-- The evidence of a raw fact, `none` where the fact is skipped for it. -/
def coerceEvidence : Json → Option (List String)
  | .arr values =>
      if values = [] then none
      else
        let evidence := ((textsOf values).map strip).filter (· ≠ "")
        if evidence.any isInjectionAttempt then none
        else
          let evidence := ((evidence.map fun e => rstrip (cut maxEvidenceItemLength e)).filter (· ≠ "")).take maxEvidenceItems
          if evidence = [] then none else some evidence
  | _ => none

/-- A claim within its limit. -/
def cutClaim (claim : String) : String :=
  if maxClaimLength < claim.toList.length then rstrip (cut maxClaimLength claim) ++ "..." else claim

def coerceTags : Json → List String
  | .arr values => (((textsOf values).map strip).filter fun t => t ≠ "" && !isInjectionAttempt t).take maxTagItems
  | _ => []

/-- `str(raw.get(key, "")).strip()` -/
def textAt (raw : List (String × Json)) (key : String) : String := strip ((raw.lookup key).getD (.str "")).pyStr

/-- One raw fact, `none` where it is skipped. -/
def coerceFact (componentId : String) (iterationCount : ℤ) (runId : String) (seenIds : List String)
    (raw : List (String × Json)) : Option Fact :=
  let id := textAt raw "id"
  if !factIdMatches id || id ∈ seenIds then none
  else if textAt raw "scope" ∉ validScopes then none
  else if textAt raw "confidence" ∉ validConfidences then none
  else
    match coerceEvidence isInjectionAttempt ((raw.lookup "evidence").getD (.arr [])) with
    | none => none
    | some evidence =>
        let claim := textAt raw "claim"
        if claim = "" then none
        else if isInjectionAttempt claim then none
        else some
          { id, componentId, createdIter := iterationCount, createdRunId := runId
            scope := textAt raw "scope", evidence, confidence := textAt raw "confidence", claim := cutClaim claim
            tags := coerceTags isInjectionAttempt ((raw.lookup "tags").getD (.arr [])) }

/-- The facts of the raw ones, behind those that were accepted before. -/
def coerceFrom (componentId : String) (iterationCount : ℤ) (runId : String) (maxFacts : ℤ) :
    List Fact → List (List (String × Json)) → List Fact
  | facts, [] => facts
  | facts, raw :: rest =>
      if (facts.length : ℤ) ≥ maxFacts then facts
      else
        coerceFrom componentId iterationCount runId maxFacts
          (facts ++ (coerceFact isInjectionAttempt componentId iterationCount runId (facts.map Fact.id) raw).toList) rest

def coerceFacts (rawFacts : List (List (String × Json))) (componentId : String) (iterationCount : ℤ)
    (runId : String) (maxFacts : ℤ) : List Fact :=
  coerceFrom isInjectionAttempt componentId iterationCount runId maxFacts [] rawFacts

/-- The raw facts of a reply: the objects in its `facts` list. -/
def rawFacts : Json → List (List (String × Json))
  | .obj fields =>
      match fields.lookup "facts" with
      | some (.arr values) => values.filterMap fun
          | .obj raw => some raw
          | _ => none
      | _ => []
  | _ => []

/-- The confidence that a distilled fact keeps: none that it cites no existing path for, and none above the
    ceiling of an unreviewed run. -/
def settleConfidence (citesExistingPath : List String → Bool) (reviewPassed : Option Bool) (f : Fact) : Fact :=
  let f := if f.confidence = "test_verified" ∧ citesExistingPath f.evidence = false then
    { f with confidence := "asserted" } else f
  if reviewPassed ≠ some true ∧ f.confidence ∈ ["review_passed", "test_verified"] then
    { f with confidence := "asserted" } else f

/-! ### What the facts of a reply have in common -/

/-- A fact that the writer stores. -/
structure Accepted (f : Fact) : Prop where
  id : factIdMatches f.id = true
  scope : f.scope ∈ validScopes
  confidence : f.confidence ∈ validConfidences
  claim_ne : f.claim ≠ ""
  claim_trimmed : Trimmed f.claim.toList
  claim_length : f.claim.toList.length ≤ maxClaimLength + 3
  evidence_ne : f.evidence ≠ []
  evidence_count : f.evidence.length ≤ maxEvidenceItems
  evidence_length : ∀ e ∈ f.evidence, e.toList.length ≤ maxEvidenceItemLength
  tags_count : f.tags.length ≤ maxTagItems
  tags_clean : ∀ t ∈ f.tags, isInjectionAttempt t = false

lemma strip_trimmed (text : String) : Trimmed (strip text).toList := by
  rw [strip, String.toList_ofList]
  exact PyText.stripped_ends _

lemma length_rstrip_cut (n : ℕ) (text : String) : (rstrip (cut n text)).toList.length ≤ n := by
  rw [rstrip, String.toList_ofList, cut, String.toList_ofList]
  exact (PyText.trimEnd_prefix _).length_le.trans (List.length_take_le _ _)

/-- A claim that is cut keeps its first character, and ends with a period. -/
lemma trimmed_cut {claim : String} (h : Trimmed claim.toList) (hne : claim.toList ≠ []) {n : ℕ} (hn : n ≠ 0) :
    (rstrip (cut n claim) ++ "...").toList ≠ [] ∧ Trimmed (rstrip (cut n claim) ++ "...").toList := by
  have hhead : ∀ c ∈ (cut n claim).toList.head?, isSpace c = false := by
    rw [cut, String.toList_ofList, List.head?_take, if_neg hn]
    exact h.head
  have hcut : (cut n claim).toList ≠ [] := by
    rw [cut, String.toList_ofList, ne_eq, List.take_eq_nil_iff, not_or]
    exact ⟨hn, hne⟩
  have hkeep := PyText.trimEnd_head hhead hcut
  have hkept : trimEnd (cut n claim).toList ≠ [] := by
    intro hnil
    rw [hnil, List.head?_nil, eq_comm, List.head?_eq_none_iff] at hkeep
    exact hcut hkeep
  rw [String.toList_append, rstrip, String.toList_ofList]
  refine ⟨List.append_ne_nil_of_left_ne_nil hkept _, ?_, ?_⟩
  · rw [List.head?_append_of_ne_nil _ hkept, hkeep]
    exact hhead
  · rw [List.getLast?_append_of_ne_nil _ (by decide)]
    decide

lemma cutClaim_trimmed {claim : String} (h : Trimmed claim.toList) : Trimmed (cutClaim claim).toList := by
  rw [cutClaim]
  split_ifs with hlong
  · have hne : claim.toList ≠ [] := by
      intro hnil
      rw [hnil] at hlong
      exact absurd hlong (by decide)
    exact (trimmed_cut h hne (by decide)).2
  · exact h

lemma cutClaim_ne {claim : String} (h : claim ≠ "") : cutClaim claim ≠ "" := by
  rw [cutClaim]
  split_ifs
  · intro heq
    have hlist := congrArg String.toList heq
    rw [String.toList_append] at hlist
    exact absurd (List.append_eq_nil_iff.mp hlist).2 (by decide)
  · exact h

lemma length_cutClaim (claim : String) : (cutClaim claim).toList.length ≤ maxClaimLength + 3 := by
  rw [cutClaim]
  split_ifs with hlong
  · rw [String.toList_append, List.length_append]
    have hcut := length_rstrip_cut maxClaimLength claim
    have hdots : "...".toList.length = 3 := by decide
    omega
  · omega

lemma coerceEvidence_some {value : Json} {evidence : List String}
    (h : coerceEvidence isInjectionAttempt value = some evidence) :
    evidence ≠ [] ∧ evidence.length ≤ maxEvidenceItems ∧ ∀ e ∈ evidence, e.toList.length ≤ maxEvidenceItemLength := by
  cases value with
  | arr values =>
      simp only [coerceEvidence] at h
      split_ifs at h with hvalues hclean hsome
      obtain rfl := Option.some.inj h
      refine ⟨hsome, List.length_take_le _ _, fun e he => ?_⟩
      obtain ⟨raw, -, rfl⟩ := List.mem_map.mp (List.mem_of_mem_filter (List.mem_of_mem_take he))
      exact length_rstrip_cut _ _
  | _ => simp [coerceEvidence] at h

lemma coerceTags_clean (value : Json) : (coerceTags isInjectionAttempt value).length ≤ maxTagItems ∧
    ∀ t ∈ coerceTags isInjectionAttempt value, isInjectionAttempt t = false := by
  cases value with
  | arr values =>
      refine ⟨List.length_take_le _ _, fun t ht => ?_⟩
      have hkept := (List.mem_filter.mp (List.mem_of_mem_take ht)).2
      simp only [Bool.and_eq_true, Bool.not_eq_true'] at hkept
      exact hkept.2
  | _ => exact ⟨Nat.zero_le _, nofun⟩

lemma coerceFact_some {componentId runId : String} {iterationCount : ℤ} {seenIds : List String}
    {raw : List (String × Json)} {f : Fact}
    (h : coerceFact isInjectionAttempt componentId iterationCount runId seenIds raw = some f) :
    Accepted isInjectionAttempt f ∧ f.id ∉ seenIds := by
  have htrimmed : Trimmed (textAt raw "claim").toList := strip_trimmed _
  rw [coerceFact] at h
  generalize textAt raw "id" = id, textAt raw "scope" = scope, textAt raw "confidence" = confidence at h
  generalize textAt raw "claim" = claim at h htrimmed
  simp only [Option.ite_none_left_eq_some, Bool.or_eq_true, Bool.not_eq_true', decide_eq_true_eq, not_or,
    Bool.not_eq_false, not_not] at h
  obtain ⟨⟨hid, hfresh⟩, hscope, hconfidence, h⟩ := h
  split at h
  · cases h
  · rename_i evidence hevidence
    simp only [Option.ite_none_left_eq_some] at h
    obtain ⟨hclaim, -, h⟩ := h
    obtain rfl := Option.some.inj h
    obtain ⟨hne, hcount, hlength⟩ := coerceEvidence_some isInjectionAttempt hevidence
    obtain ⟨htags, hinjected⟩ := coerceTags_clean isInjectionAttempt ((raw.lookup "tags").getD (.arr []))
    exact ⟨{ id := hid
             scope := hscope
             confidence := hconfidence
             claim_ne := cutClaim_ne hclaim
             claim_trimmed := cutClaim_trimmed htrimmed
             claim_length := length_cutClaim _
             evidence_ne := hne
             evidence_count := hcount
             evidence_length := hlength
             tags_count := htags
             tags_clean := hinjected }, hfresh⟩

/-- Accepted facts with distinct ids. -/
def AllAccepted (facts : List Fact) : Prop :=
  (∀ f ∈ facts, Accepted isInjectionAttempt f) ∧ (facts.map Fact.id).Nodup

lemma coerceFrom_accepted (componentId runId : String) (iterationCount maxFacts : ℤ)
    (raws : List (List (String × Json))) (facts : List Fact) (h : AllAccepted isInjectionAttempt facts) :
    AllAccepted isInjectionAttempt
      (coerceFrom isInjectionAttempt componentId iterationCount runId maxFacts facts raws) := by
  induction raws generalizing facts with
  | nil => exact h
  | cons raw rest ih =>
      rw [coerceFrom]
      split_ifs
      · exact h
      · refine ih _ ?_
        cases hfact : coerceFact isInjectionAttempt componentId iterationCount runId (facts.map Fact.id) raw with
        | none => rwa [Option.toList_none, List.append_nil]
        | some f =>
            obtain ⟨haccepted, hfresh⟩ := coerceFact_some isInjectionAttempt hfact
            rw [Option.toList_some]
            refine ⟨?_, ?_⟩
            · intro g hg
              rcases List.mem_append.mp hg with hg | hg
              · exact h.1 g hg
              · rwa [List.mem_singleton.mp hg]
            · rw [List.map_append, List.map_singleton]
              exact h.2.append (List.nodup_singleton _) (List.disjoint_singleton.mpr hfresh)

/-- **The facts of a reply** are accepted, and no two have one id. -/
theorem coerceFacts_accepted (raws : List (List (String × Json))) (componentId runId : String)
    (iterationCount maxFacts : ℤ) :
    AllAccepted isInjectionAttempt (coerceFacts isInjectionAttempt raws componentId iterationCount runId maxFacts) :=
  coerceFrom_accepted isInjectionAttempt componentId runId iterationCount maxFacts raws []
    ⟨nofun, List.nodup_nil⟩

lemma settleConfidence_id (citesExistingPath : List String → Bool) (reviewPassed : Option Bool) (f : Fact) :
    (settleConfidence citesExistingPath reviewPassed f).id = f.id := by
  simp only [settleConfidence]
  split_ifs <;> rfl

lemma Accepted.asserted {f : Fact} (h : Accepted isInjectionAttempt f) :
    Accepted isInjectionAttempt { f with confidence := "asserted" } :=
  { h with confidence := show "asserted" ∈ validConfidences by decide }

lemma Accepted.settleConfidence {f : Fact} (h : Accepted isInjectionAttempt f)
    (citesExistingPath : List String → Bool) (reviewPassed : Option Bool) :
    Accepted isInjectionAttempt (settleConfidence citesExistingPath reviewPassed f) := by
  simp only [Knowledge.settleConfidence]
  split_ifs
  · exact (h.asserted _).asserted _
  · exact h.asserted _
  · exact h.asserted _
  · exact h

/-! ## Fact files -/

def frontmatterDelimiter : List Char := "---".toList

def Fact.meta (f : Fact) : List (String × Json) :=
  [("id", .str f.id), ("component_id", .str f.componentId), ("created_iter", .int f.createdIter),
   ("created_run_id", .str f.createdRunId), ("scope", .str f.scope), ("evidence", .arr (f.evidence.map .str)),
   ("confidence", .str f.confidence), ("tags", .arr (f.tags.map .str))]

def renderFactMd (f : Fact) : List Char :=
  frontmatterDelimiter ++ '\n' :: (Json.Layout.compact.write 0 (.obj f.meta) ++ '\n' :: (frontmatterDelimiter ++
    '\n' :: '\n' :: (trimEnd f.claim.toList ++ ['\n'])))

/-- Why a fact file is rejected. -/
inductive FactError where
  | noOpening | noClosing | notJson | notAnObject | createdIter | evidenceNotAList | tagsNotAList
  | badId (id : String) | unknownScope (scope : String) | unknownConfidence (confidence : String)
  | emptyClaim | longClaim | injectedClaim | noEvidence | tooManyEvidence | longEvidence | injectedEvidence
  | tooManyTags | injectedTag

def validateFactContent (f : Fact) : Option FactError :=
  if !factIdMatches f.id then some (.badId f.id)
  else if f.scope ∉ validScopes then some (.unknownScope f.scope)
  else if f.confidence ∉ validConfidences then some (.unknownConfidence f.confidence)
  else if f.claim = "" then some .emptyClaim
  else if f.claim.toList.length > maxClaimLength + 3 then some .longClaim
  else if isInjectionAttempt f.claim then some .injectedClaim
  else if f.evidence = [] then some .noEvidence
  else if f.evidence.length > maxEvidenceItems then some .tooManyEvidence
  else
    match f.evidence.findSome? (fun item =>
        if item.toList.length > maxEvidenceItemLength then some FactError.longEvidence
        else if isInjectionAttempt item then some .injectedEvidence else none) with
    | some e => some e
    | none =>
        if f.tags.length > maxTagItems then some .tooManyTags
        else if f.tags.any isInjectionAttempt then some .injectedTag else none

/-- `int` of a value that `json.loads` returned.  `floatInt` is the integer a `float` is cut to. -/
def intOf (floatInt : String → Option ℤ) : Json → Option ℤ
  | .int n => some n
  | .bool b => some (if b then 1 else 0)
  | .float text => floatInt text
  | .str s => PyText.int (stripped s.toList)
  | _ => none

variable (floatInt : String → Option ℤ)

/-- The text between the two delimiters, and the lines behind them. -/
def frontmatter (content : List Char) : Except FactError (List Char × List (List Char)) :=
  match content.splitOn '\n' with
  | first :: second :: third :: rest =>
      if first ≠ frontmatterDelimiter then .error .noOpening
      else
        match (third :: rest).dropWhile (· ≠ frontmatterDelimiter) with
        | [] => .error .noClosing
        | _ :: claimLines =>
            .ok (['\n'].intercalate (second :: (third :: rest).takeWhile (· ≠ frontmatterDelimiter)), claimLines)
  | _ => .error .noOpening

def metaFields (text : List Char) : Except FactError (List (String × Json)) :=
  match Json.loads (String.ofList text) with
  | none => .error .notJson
  | some (.obj fields) => .ok fields
  | some _ => .error .notAnObject

/-- The claim without the blank lines before it and the line feeds behind it. -/
def claimOf (claimLines : List (List Char)) : List Char :=
  let text := ['\n'].intercalate (claimLines.dropWhile fun line => line.all isSpace)
  (text.reverse.dropWhile (· = '\n')).reverse

/-- A value of the frontmatter, or its default. -/
def valueAt (fields : List (String × Json)) (key : String) (default : Json) : Json := (fields.lookup key).getD default

def textList (error : FactError) : Json → Except FactError (List String)
  | .arr values => .ok (textsOf values)
  | _ => .error error

def factOf (fields : List (String × Json)) (claim : List Char) : Except FactError Fact := do
  let createdIter ← match intOf floatInt (valueAt fields "created_iter" (.int 0)) with
    | none => .error .createdIter
    | some n => .ok n
  let evidence ← textList .evidenceNotAList (valueAt fields "evidence" (.arr []))
  let tags ← textList .tagsNotAList (valueAt fields "tags" (.arr []))
  return { id := (valueAt fields "id" (.str "")).pyStr
           componentId := (valueAt fields "component_id" (.str "")).pyStr
           createdIter
           createdRunId := (valueAt fields "created_run_id" (.str "")).pyStr
           scope := (valueAt fields "scope" (.str "")).pyStr
           evidence
           confidence := (valueAt fields "confidence" (.str "asserted")).pyStr
           claim := String.ofList claim
           tags }

def checked (fact : Fact) : Except FactError Fact :=
  (validateFactContent isInjectionAttempt fact).elim (.ok fact) .error

def parseFactMd (content : List Char) : Except FactError Fact := do
  let (metaText, claimLines) ← frontmatter content
  let fields ← metaFields metaText
  let fact ← factOf floatInt fields (claimOf claimLines)
  checked isInjectionAttempt fact

/-! ### A fact that was written is read back -/

lemma splitOn_cons_of_ne {c : Char} (hc : c ≠ '\n') (rest : List Char) :
    ∃ line lines, (c :: rest).splitOn '\n' = (c :: line) :: lines := by
  rw [List.splitOn_cons_eq_if_modifyHead, if_neg (by simpa using hc)]
  cases hsplit : rest.splitOn '\n' with
  | nil => exact absurd hsplit (List.splitOn_ne_nil _ _)
  | cons line lines => exact ⟨line, lines, rfl⟩

/-- The claim of a fact is what its lines hold. -/
lemma claimOf_lines {claim : List Char} (htrimmed : Trimmed claim) (hne : claim ≠ []) :
    claimOf ([] :: (claim ++ ['\n']).splitOn '\n') = claim := by
  cases claim with
  | nil => exact absurd rfl hne
  | cons c rest =>
      have hc : isSpace c = false := htrimmed.head c rfl
      have hline : c ≠ '\n' := by
        rintro rfl
        exact absurd hc (by decide)
      obtain ⟨line, lines, hsplit⟩ := splitOn_cons_of_ne hline (rest ++ ['\n'])
      have hdrop : (([] : List Char) :: ((c :: rest) ++ ['\n']).splitOn '\n').dropWhile (fun line => line.all isSpace) =
          ((c :: rest) ++ ['\n']).splitOn '\n' := by
        rw [List.cons_append, hsplit, List.dropWhile_cons_of_pos rfl, List.dropWhile_cons_of_neg]
        rw [List.all_cons, hc, Bool.false_and]
        decide
      have hlast : ∀ d ∈ (c :: rest).reverse.head?, d ≠ '\n' := by
        intro d hd hnewline
        rw [List.head?_reverse] at hd
        exact absurd (hnewline ▸ htrimmed.last d hd) (by decide)
      simp only [claimOf, hdrop]
      rw [List.intercalate_splitOn, List.reverse_append, List.reverse_singleton, List.singleton_append,
        List.dropWhile_cons_of_pos (by decide)]
      cases hreverse : (c :: rest).reverse with
      | nil => exact absurd (List.reverse_eq_nil_iff.mp hreverse) hne
      | cons d tail =>
          rw [hreverse] at hlast
          rw [List.dropWhile_cons_of_neg (by simpa using hlast d rfl), ← hreverse, List.reverse_reverse]

lemma textsOf_str (texts : List String) : textsOf (texts.map .str) = texts := by
  rw [textsOf, List.filterMap_map]
  exact List.filterMap_some

lemma meta_wellFormed (f : Fact) : (Json.obj f.meta).WellFormed :=
  ⟨show (f.meta.map Prod.fst).Nodup by rw [show f.meta.map Prod.fst = ["id", "component_id", "created_iter",
      "created_run_id", "scope", "evidence", "confidence", "tags"] from rfl]; decide,
    trivial, trivial, trivial, trivial, trivial, Json.strings_wellFormed f.evidence, trivial,
    Json.strings_wellFormed f.tags, trivial⟩

lemma factOf_meta (f : Fact) : factOf floatInt f.meta f.claim.toList = .ok f := by
  have hevidence : textList .evidenceNotAList (.arr (f.evidence.map .str)) = .ok f.evidence := by
    rw [textList, textsOf_str]
  have htags : textList .tagsNotAList (.arr (f.tags.map .str)) = .ok f.tags := by rw [textList, textsOf_str]
  show (textList .evidenceNotAList (.arr (f.evidence.map .str)) >>= fun evidence =>
    textList .tagsNotAList (.arr (f.tags.map .str)) >>= fun tags =>
      Except.ok { f with evidence, tags, claim := String.ofList f.claim.toList }) = .ok f
  rw [hevidence, htags, String.ofList_toList]
  rfl

/-- The lines of a fact file. -/
lemma frontmatter_render (f : Fact) : frontmatter (renderFactMd f) =
    .ok (Json.Layout.compact.write 0 (.obj f.meta), [] :: (trimEnd f.claim.toList ++ ['\n']).splitOn '\n') := by
  have hmeta : '\n' ∉ Json.Layout.compact.write 0 (.obj f.meta) := fun h =>
    absurd (Json.Layout.write_forall Json.compact_characters _ (meta_wellFormed f) 0 _ h) (by decide)
  have hlines : (renderFactMd f).splitOn '\n' =
      frontmatterDelimiter :: Json.Layout.compact.write 0 (.obj f.meta) :: frontmatterDelimiter :: [] ::
        (trimEnd f.claim.toList ++ ['\n']).splitOn '\n' := by
    rw [renderFactMd, List.splitOn_append_cons_self_of_not_mem (by decide),
      List.splitOn_append_cons_self_of_not_mem hmeta, List.splitOn_append_cons_self_of_not_mem (by decide)]
    exact congrArg _ (congrArg _ (congrArg _ (List.splitOn_append_cons_self_of_not_mem List.not_mem_nil _)))
  rw [frontmatter, hlines]
  simp

/-- A fact whose stored text is read as it stands: no carriage return in the claim, and no injection pattern in
    the claim or the evidence that is left after a cut. -/
structure Durable (f : Fact) : Prop where
  no_return : '\r' ∉ f.claim.toList
  claim_clean : isInjectionAttempt f.claim = false
  evidence_clean : ∀ e ∈ f.evidence, isInjectionAttempt e = false

lemma validateFactContent_eq_none {f : Fact} (h : Accepted isInjectionAttempt f) (hdurable : Durable isInjectionAttempt f) :
    validateFactContent isInjectionAttempt f = none := by
  have hevidence : f.evidence.findSome? (fun item =>
      if item.toList.length > maxEvidenceItemLength then some FactError.longEvidence
      else if isInjectionAttempt item then some .injectedEvidence else none) = none := by
    refine List.findSome?_eq_none_iff.mpr fun e he => ?_
    rw [if_neg (not_lt.mpr (h.evidence_length e he)), hdurable.evidence_clean e he]
    rfl
  have htags : f.tags.any isInjectionAttempt = false :=
    List.any_eq_false.mpr fun t ht => by rw [h.tags_clean t ht]; decide
  rw [validateFactContent, h.id, if_neg (by decide), if_neg (not_not.mpr h.scope), if_neg (not_not.mpr h.confidence),
    if_neg h.claim_ne, if_neg (not_lt.mpr h.claim_length), hdurable.claim_clean, if_neg (by decide),
    if_neg h.evidence_ne, if_neg (not_lt.mpr h.evidence_count), hevidence, htags]
  exact if_neg (not_lt.mpr h.tags_count)

lemma translate_render {f : Fact} (h : '\r' ∉ f.claim.toList) : translate (renderFactMd f) = renderFactMd f := by
  have hmeta : '\r' ∉ Json.Layout.compact.write 0 (.obj f.meta) := fun hmem =>
    absurd (Json.Layout.write_forall Json.compact_characters _ (meta_wellFormed f) 0 _ hmem) (by decide)
  have hclaim : '\r' ∉ trimEnd f.claim.toList := fun hmem => h ((PyText.trimEnd_prefix _).subset hmem)
  refine TextLines.translate_of_plain ?_
  rw [renderFactMd]
  simp only [List.mem_append, List.mem_cons, not_or]
  exact ⟨by decide, by decide, hmeta, by decide, by decide, by decide, by decide, hclaim, by decide, nofun⟩

/-- **A fact that was written is read back** as it was. -/
theorem parseFactMd_render {f : Fact} (h : Accepted isInjectionAttempt f) (hdurable : Durable isInjectionAttempt f) :
    parseFactMd isInjectionAttempt floatInt (translate (renderFactMd f)) = .ok f := by
  have hclaim : f.claim.toList ≠ [] := fun hnil => h.claim_ne (String.toList_eq_nil_iff.mp hnil)
  have hfields : metaFields (Json.Layout.compact.write 0 (.obj f.meta)) = .ok f.meta := by
    rw [metaFields, Json.Layout.loads_line _ _ (meta_wellFormed f)]
  have hchecked : checked isInjectionAttempt f = .ok f := by
    rw [checked, validateFactContent_eq_none isInjectionAttempt h hdurable, Option.elim_none]
  rw [parseFactMd, translate_render hdurable.no_return, frontmatter_render, h.claim_trimmed.trimEnd_eq]
  simp only [bind, Except.bind, hfields, claimOf_lines h.claim_trimmed hclaim, factOf_meta, hchecked]

end

end Kstrl.Knowledge
