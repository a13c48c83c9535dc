import Kstrl.Knowledge.Facts
import Kstrl.Plan.ManifestKeys

/-!
# The knowledge prefix

The prompt text that a component's engineer gets (`kstrl/knowledge/knowledge.py`).  The facts of each tier are packed
into the budget of the tier and rendered one behind another under the heading of the tier.

* **`keptFacts_stored`**: what is packed are facts such as the writer stores, some with a shorter claim.
-/

namespace Kstrl.Knowledge

open PyText (stripped trimEnd isSpace Trimmed)

/-! ## Packing -/

def estimateTokens (text : List Char) : ℕ := max 1 (text.length / 4)

/-- The rank of a confidence, the strongest first. -/
def confidenceRank (confidence : String) : ℕ :=
  (["test_verified", "review_passed", "asserted"].findIdx? (· = confidence)).getD 3

def sortForPacking (facts : List Fact) : List Fact :=
  let byRecency := facts.mergeSort fun a b => decide (b.createdRunId ≤ a.createdRunId)
  byRecency.mergeSort fun a b => decide (confidenceRank a.confidence ≤ confidenceRank b.confidence)

/-- What is kept of sorted facts, and whether one did not fit.  The first that does not fit is cut, where enough is
    left for it. -/
def packFull (budget : ℤ) : (used : ℤ) → (truncationUsed : Bool) → List Fact → List Fact × Bool
  | _, _, [] => ([], false)
  | used, truncationUsed, f :: rest =>
      let cost := (estimateTokens (renderFactMd f) : ℤ)
      let remaining := budget - used - estimateTokens (renderFactMd { f with claim := "" })
      if used + cost ≤ budget then
        let (kept, overflowed) := packFull budget (used + cost) truncationUsed rest
        (f :: kept, overflowed)
      else if truncationUsed = false ∧ remaining > 30 then
        let (kept, _) := packFull budget budget true rest
        ({ f with claim := rstrip (cut (remaining * 4 - 20).toNat f.claim) ++ "..." } :: kept, true)
      else ((packFull budget used truncationUsed rest).1, true)

def packFactsFull (facts : List Fact) (budgetTokens : ℤ) : List Fact × Bool :=
  packFull budgetTokens 0 false (sortForPacking facts)

/-- Whether what follows a mark ends a sentence: white space and a capital, or nothing more. -/
def endsSentence (rest : List Char) : Bool :=
  match rest.dropWhile isSpace with
  | [] => true
  | c :: _ => 'A' ≤ c && c ≤ 'Z' && (rest.head?.map isSpace).getD false

/-- `_SENTENCE_END_RE.search`: the text up to the first mark that ends a sentence. -/
def sentence? : List Char → Option (List Char)
  | [] => none
  | c :: rest =>
      if c ∈ ['.', '!', '?'] ∧ endsSentence rest = true then some [c] else (sentence? rest).map (c :: ·)

def firstSentence (claim : List Char) : List Char :=
  let text := stripped claim
  if text = [] then []
  else
    match sentence? text with
    | none => text
    | some sentence => trimEnd sentence

def summary (f : Fact) : Fact := { f with claim := String.ofList (firstSentence f.claim.toList) }

def packSummaries (budget : ℤ) : (used : ℤ) → List Fact → List Fact × Bool
  | _, [] => ([], false)
  | used, f :: rest =>
      let cost := (estimateTokens (renderFactMd (summary f)) : ℤ)
      if used + cost ≤ budget then
        let (kept, overflowed) := packSummaries budget (used + cost) rest
        (summary f :: kept, overflowed)
      else ((packSummaries budget used rest).1, true)

def packFactsSummary (facts : List Fact) (budgetTokens : ℤ) : List Fact × Bool :=
  packSummaries budgetTokens 0 (sortForPacking facts)

/-! ## Rendering -/

inductive Tier where
  | core | dependency | sibling
  deriving DecidableEq

def factTiers : List Tier := [.core, .dependency, .sibling]

def Tier.name : Tier → String
  | core => "core"
  | dependency => "dependency"
  | sibling => "sibling"

def coreSectionPrefix : String := "Current component ("

def dependencySectionTitle : String := "Dependencies"

def siblingSectionTitle : String := "Other components (summary)"

def coreSectionTitle (componentId : String) : String := coreSectionPrefix ++ componentId ++ ")"

def Tier.title (componentId : String) : Tier → String
  | core => coreSectionTitle componentId
  | dependency => dependencySectionTitle
  | sibling => siblingSectionTitle

/-- The tier of a heading, `none` for one that is not of this module. -/
def tierForSection (title : List Char) : Option Tier :=
  if coreSectionPrefix.toList.isPrefixOf title then some .core
  else if title = dependencySectionTitle.toList then some .dependency
  else if title = siblingSectionTitle.toList then some .sibling
  else none

def factLine (f : Fact) : List Char :=
  let scopeLabel := if f.scope = "" then "" else "[" ++ f.scope ++ "]"
  let evidenceLabel := if f.evidence = [] then "" else " (evidence: " ++ ", ".intercalate f.evidence ++ ")"
  let confidenceLabel := " \x7b" ++ f.confidence ++ "\x7d"
  ("- **" ++ f.componentId ++ "**" ++ scopeLabel ++ confidenceLabel ++ ": " ++ f.claim ++ evidenceLabel).toList

def formatSection (title : String) (facts : List Fact) : List Char :=
  if facts = [] then [] else ['\n'].intercalate (("### " ++ title).toList :: facts.map factLine)

structure KnowledgeConfig where
  maxCoreTokens : ℤ
  maxDependencyTokens : ℤ
  maxSiblingTokens : ℤ

def Tier.pack (config : KnowledgeConfig) (facts : List Fact) : Tier → List Fact × Bool
  | core => packFactsFull facts config.maxCoreTokens
  | dependency => packFactsFull facts config.maxDependencyTokens
  | sibling => packFactsSummary facts config.maxSiblingTokens

def knowledgeContextPrompt : String :=
  "## Component Knowledge\nDurable facts captured from prior successful iterations. Treat as" ++
    " ground truth unless contradicted by the current diff."

def knowledgeOverflowPrompt (tiers : List String) : String :=
  "*Note: " ++ ", ".intercalate tiers ++ " tier" ++ (if tiers.length > 1 then "s" else "") ++
    " exceeded the token budget; some facts were truncated or dropped.*"

section

variable (componentId : String) (config : KnowledgeConfig) (tiers : Tier → List Fact)

/-- The facts of a tier that are rendered. -/
def keptFacts (tier : Tier) : List Fact := (tier.pack config (tiers tier)).1

/-- A part of the text and the blank line behind it, where there is something in it. -/
def withBlank (part : List Char) : List (List Char) := if part = [] then [] else [part, []]

def overflowFlags : List String :=
  (factTiers.filter fun tier => (tier.pack config (tiers tier)).2).map Tier.name

def overflowNote : List (List Char) :=
  if overflowFlags config tiers = [] then [] else [(knowledgeOverflowPrompt (overflowFlags config tiers)).toList, []]

def contextParts : List (List Char) :=
  [knowledgeContextPrompt.toList, []] ++
    factTiers.flatMap (fun tier => withBlank (formatSection (tier.title componentId) (keptFacts config tiers tier))) ++
    overflowNote config tiers

/-- `build_knowledge_context`, from the facts of each tier on. -/
def buildKnowledgeContext : List Char :=
  if ∀ tier ∈ factTiers, keptFacts config tiers tier = [] then []
  else trimEnd (['\n'].intercalate (contextParts componentId config tiers)) ++ ['\n']

end

/-! ## Stored facts -/

/-- The characters of a component id. -/
def IsIdChar (c : Char) : Prop := isLowerOrDigit c = true ∨ c ∈ ['.', '_', '-']

instance (c : Char) : Decidable (IsIdChar c) := inferInstanceAs (Decidable (_ ∨ _))

lemma IsIdChar.toNat_mem {c : Char} (h : IsIdChar c) : c.toNat ∈ Finset.Icc 45 122 := by
  rw [Finset.mem_Icc]
  rcases h with h | h
  · simp only [isLowerOrDigit, Bool.or_eq_true, Bool.and_eq_true, decide_eq_true_eq, Char.le_def, UInt32.le_iff_toNat_le] at h
    rw [Char.toNat]
    rcases h with ⟨hlow, hhigh⟩ | ⟨hlow, hhigh⟩
    · exact ⟨le_trans (by decide) hlow, hhigh⟩
    · exact ⟨le_trans (by decide) hlow, le_trans hhigh (by decide)⟩
  · simp only [List.mem_cons, List.not_mem_nil, or_false] at h
    rcases h with rfl | rfl | rfl <;> decide

/-- A component id is one line of id characters. -/
lemma isIdChar_of_valid {id : String} (h : validateComponentId id = none) (hline : '\n' ∉ id.toList) :
    id.toList ≠ [] ∧ ∀ c ∈ id.toList, IsIdChar c := by
  have hend : beforeLineEnd id = id.toList := if_neg fun hlast => hline (List.mem_of_getLast? hlast)
  have hmatches : matchesComponentId id = true := by
    by_contra hno
    rw [validateComponentId] at h
    split_ifs at h with hempty hbad
    all_goals exact hbad (by simpa using hno)
  rw [matchesComponentId, hend] at hmatches
  cases hid : id.toList with
  | nil => simp [hid] at hmatches
  | cons c rest =>
      rw [hid] at hmatches
      simp only [Bool.and_eq_true, List.all_eq_true, Bool.or_eq_true, decide_eq_true_eq] at hmatches
      obtain ⟨⟨hc, -⟩, hrest⟩ := hmatches
      exact ⟨List.cons_ne_nil _ _, List.forall_mem_cons.mpr ⟨Or.inl hc, hrest⟩⟩

/-- A fact as the writer stores it. -/
structure Stored (f : Fact) : Prop where
  valid : validateComponentId f.componentId = none
  oneLine : '\n' ∉ f.componentId.toList
  scope : f.scope ∈ validScopes
  confidence : f.confidence ∈ validConfidences
  claim_ne : f.claim.toList ≠ []
  claim_trimmed : Trimmed f.claim.toList
  evidence_ne : f.evidence ≠ []

lemma Accepted.stored {isInjectionAttempt : String → Bool} {f : Fact} (h : Accepted isInjectionAttempt f)
    (hvalid : validateComponentId f.componentId = none) (hline : '\n' ∉ f.componentId.toList) : Stored f :=
  ⟨hvalid, hline, h.scope, h.confidence, fun hnil => h.claim_ne (String.toList_eq_nil_iff.mp hnil), h.claim_trimmed,
    h.evidence_ne⟩

lemma Stored.withClaim {f : Fact} (h : Stored f) {claim : String} (hne : claim.toList ≠ [])
    (htrimmed : Trimmed claim.toList) : Stored { f with claim } :=
  { h with claim_ne := hne, claim_trimmed := htrimmed }

/-! ### Packed facts are stored facts -/

lemma sentence?_prefix {text sentence : List Char} (h : sentence? text = some sentence) :
    sentence <+: text ∧ sentence ≠ [] ∧ ∀ c ∈ sentence.getLast?, c ∈ ['.', '!', '?'] := by
  induction text generalizing sentence with
  | nil => cases h
  | cons c rest ih =>
      rw [sentence?] at h
      split_ifs at h with hmark
      · obtain rfl := Option.some.inj h
        refine ⟨⟨rest, rfl⟩, List.cons_ne_nil _ _, fun d hd => ?_⟩
        obtain rfl := Option.some.inj hd
        exact hmark.1
      · obtain ⟨sentence, hrest, rfl⟩ := Option.map_eq_some_iff.mp h
        obtain ⟨hfront, hne, hlast⟩ := ih hrest
        refine ⟨List.cons_prefix_cons.mpr ⟨rfl, hfront⟩, List.cons_ne_nil _ _, fun d hd => hlast d ?_⟩
        rwa [List.getLast?_cons_of_ne_nil hne] at hd

lemma Trimmed.firstSentence {claim : List Char} (h : Trimmed claim) (hne : claim ≠ []) :
    Trimmed (firstSentence claim) ∧ Knowledge.firstSentence claim ≠ [] := by
  have hstripped : stripped claim = claim := by
    have hkeep := @PyText.stripped_append [] claim [] h.head h.last hne
    simpa [trimEnd] using hkeep
  simp only [Knowledge.firstSentence, hstripped, if_neg hne]
  cases hfind : sentence? claim with
  | none => exact ⟨h, hne⟩
  | some sentence =>
      obtain ⟨⟨more, rfl⟩, hsome, hlast⟩ := sentence?_prefix hfind
      have htrimmed : Trimmed sentence := by
        constructor
        · intro c hc
          exact h.head c (by rw [List.head?_append_of_ne_nil _ hsome]; exact hc)
        · intro c hc
          have hmark := hlast c hc
          simp only [List.mem_cons, List.not_mem_nil, or_false] at hmark
          rcases hmark with rfl | rfl | rfl <;> decide
      simp only [htrimmed.trimEnd_eq]
      exact ⟨htrimmed, hsome⟩

lemma Stored.summary {f : Fact} (h : Stored f) : Stored (summary f) := by
  obtain ⟨htrimmed, hne⟩ := Trimmed.firstSentence h.claim_trimmed h.claim_ne
  exact h.withClaim (by rwa [String.toList_ofList]) (by rwa [String.toList_ofList])

lemma packFull_stored (budget : ℤ) {facts : List Fact} (h : ∀ f ∈ facts, Stored f) (used : ℤ) (truncationUsed : Bool) :
    ∀ f ∈ (packFull budget used truncationUsed facts).1, Stored f := by
  induction facts generalizing used truncationUsed with
  | nil => exact nofun
  | cons g rest ih =>
      obtain ⟨hg, hrest⟩ := List.forall_mem_cons.mp h
      rw [packFull]
      split_ifs with hfits hcut
      · exact List.forall_mem_cons.mpr ⟨hg, ih hrest _ _⟩
      · obtain ⟨hne, htrimmed⟩ := trimmed_cut hg.claim_trimmed hg.claim_ne
          (n := ((budget - used - estimateTokens (renderFactMd { g with claim := "" })) * 4 - 20).toNat) (by omega)
        exact List.forall_mem_cons.mpr ⟨hg.withClaim hne htrimmed, ih hrest _ _⟩
      · exact ih hrest _ _

lemma packSummaries_stored (budget : ℤ) {facts : List Fact} (h : ∀ f ∈ facts, Stored f) (used : ℤ) :
    ∀ f ∈ (packSummaries budget used facts).1, Stored f := by
  induction facts generalizing used with
  | nil => exact nofun
  | cons g rest ih =>
      obtain ⟨hg, hrest⟩ := List.forall_mem_cons.mp h
      rw [packSummaries]
      split_ifs
      · exact List.forall_mem_cons.mpr ⟨hg.summary, ih hrest _⟩
      · exact ih hrest _

lemma mem_sortForPacking {f : Fact} {facts : List Fact} (h : f ∈ sortForPacking facts) : f ∈ facts :=
  List.mem_mergeSort.mp (List.mem_mergeSort.mp h)

lemma keptFacts_stored (config : KnowledgeConfig) {tiers : Tier → List Fact} (h : ∀ tier, ∀ f ∈ tiers tier, Stored f)
    (tier : Tier) : ∀ f ∈ keptFacts config tiers tier, Stored f := by
  have hsorted : ∀ f ∈ sortForPacking (tiers tier), Stored f := fun f hf => h tier f (mem_sortForPacking hf)
  cases tier with
  | core => exact packFull_stored _ hsorted 0 false
  | dependency => exact packFull_stored _ hsorted 0 false
  | sibling => exact packSummaries_stored _ hsorted 0

end Kstrl.Knowledge
