import Kstrl.Base.Markers
import Kstrl.Base.PyStrip
import Kstrl.Review.Review

/-!
# The divergence detector

`detect_divergence` (`kstrl/pipeline/divergence.py`) over the readings of the attempts of a component, with the keys
of their blocking findings.  `str.lower` is a parameter.

* **`divergence_keeps_findings`**: where the detector trips, the attempts it counts are consecutive, the change got
  larger at every step, and every blocking finding of an attempt has one with the same identity in the next.
* **`divergence_retires`**: the findings are not counted.  Of two with one key, one may be gone.
-/

namespace Kstrl.Review

/-- `str.lower`.  It makes no colon. -/
structure Lowercase where
  lower : List Char → List Char
  colon : ∀ a : List Char, ':' ∈ lower a → ':' ∈ a

/-! ## The identity of a finding -/

/-- `re.sub(r"\s+", " ", text)`; `seen` says that the last character was a space. -/
def collapseSpaces : Bool → List Char → List Char
  | _, [] => []
  | seen, c :: cs =>
      if PyText.isSpace c then
        if seen then collapseSpaces true cs else ' ' :: collapseSpaces true cs
      else c :: collapseSpaces false cs

/-- What a review failed the component on. -/
inductive BlockingFinding where
  | criterion (review : CriterionReview)
  | concern (concern : ReviewConcern)
  deriving DecidableEq, Repr

def blockingFindings (result : ReviewResult) : List BlockingFinding :=
  ((result.criteria.filter fun c => c.verdict = "fail").map .criterion) ++
    (result.concerns.filter fun c => c.severity = "fail").map .concern

section Keys

variable (L : Lowercase)

/-- Whitespace and case collapsed. -/
def normalize (text : String) : List Char := L.lower (collapseSpaces false (PyText.strip text).toList)

def normalizedStory (value : String) : List Char := L.lower (PyText.strip value).toList

/-- The file part of a reviewer location, without the line number. -/
def locationKey (location : String) : List Char := PyText.stripped ((normalize L location).takeWhile (· ≠ ':'))

def criterionTag : List Char := "criterion:".toList

def concernTag : List Char := "concern:".toList

def findingKey : BlockingFinding → List Char
  | .criterion c => criterionTag ++ (normalizedStory L c.storyId ++ ':' :: normalize L c.criterion)
  | .concern c => concernTag ++
      (normalize L c.category ++ ':' :: (locationKey L c.location ++ ':' :: normalize L c.explanation))

/-- Stable identities for the blocking findings of one review. -/
def reviewFindingKeys (result : ReviewResult) : Finset (List Char) :=
  ((blockingFindings result).map (findingKey L)).toFinset

end Keys

/-! ## The detector -/

/-- One attempt's reading of the change and of the review verdict. -/
structure AttemptReading where
  attempt : ℕ
  linesChanged : ℕ
  filesChanged : ℕ
  findingKeys : Finset (List Char)
  blockingCount : ℕ
  deriving DecidableEq

inductive DivergenceMode where
  | skip
  | advisory
  | block
  deriving DecidableEq, Repr

structure DivergenceConfig where
  mode : DivergenceMode := .advisory
  growthSteps : ℕ := 2
  steps_pos : 1 ≤ growthSteps := by decide

/-- The evidence behind a trip. -/
structure DivergenceVerdict where
  readings : List AttemptReading
  deriving DecidableEq

/-- `sep.join(str(n) for n in ns)` -/
def joinCounts (sep : String) (ns : List ℕ) : String := sep.intercalate (ns.map toString)

/-- What happened, with the numbers, and what to do about it. -/
def DivergenceVerdict.message (v : DivergenceVerdict) : String :=
  "divergence detector tripped: the change is outgrowing the reviewer. Across attempts " ++
    joinCounts ", " (v.readings.map (·.attempt)) ++
    " the review failed every time, the change got larger at every step (" ++
    joinCounts " -> " (v.readings.map (·.linesChanged)) ++ " lines changed, added plus removed, across " ++
    joinCounts " -> " (v.readings.map (·.filesChanged)) ++
    " files), and not one of the reviewer's blocking findings was retired at any step (" ++
    joinCounts " -> " (v.readings.map (·.blockingCount)) ++
    " blocking findings). Another retry buys another engineer run on a change that is getting larger and no closer " ++
    "to passing. Split this component into smaller ones, or narrow its PRD, then run it again."

/-- A step at which the change grew and nothing was retired. -/
def growing (previous current : AttemptReading) : Bool :=
  if current.attempt ≠ previous.attempt + 1 then false
  else if current.linesChanged ≤ previous.linesChanged then false
  else previous.findingKeys ⊆ current.findingKeys

def detectDivergence (readings : List AttemptReading) (config : DivergenceConfig) : Option DivergenceVerdict :=
  let window := config.growthSteps + 1
  if readings.length < window then none
  else
    let tail := readings.drop (readings.length - window)
    if tail.any fun reading => reading.findingKeys = ∅ then none
    else if (tail.zip tail.tail).all fun step => growing step.1 step.2 then some ⟨tail⟩
    else none

/-! ## The history of a component -/

/-- An attempt whose review failed. -/
structure ReviewedAttempt where
  retries : ℕ
  result : ReviewResult
  /-- files and lines of the change, none when git could not be asked -/
  size : Option (ℕ × ℕ)
  /-- the parser drops a concern of no known category -/
  valid : ∀ c ∈ result.concerns, c.category ∈ validConcernCategories

/-- `ReviewResult.fail_count` -/
def failCount (result : ReviewResult) : ℕ :=
  result.criteria.countP (·.verdict = "fail") + result.concerns.countP (·.severity = "fail")

/-- The reading of an attempt, where there is one. -/
def readingOf (L : Lowercase) (a : ReviewedAttempt) : Option AttemptReading :=
  if a.result.infrastructureError then none
  else if reviewFindingKeys L a.result = ∅ then none
  else a.size.map fun size =>
    { attempt := a.retries + 1
      linesChanged := size.2
      filesChanged := size.1
      findingKeys := reviewFindingKeys L a.result
      blockingCount := failCount a.result }

/-- The attempts that have a reading, each with it. -/
def recorded (L : Lowercase) (history : List ReviewedAttempt) : List (ReviewedAttempt × AttemptReading) :=
  history.filterMap fun a => (readingOf L a).map fun reading => (a, reading)

/-- `Pipeline.review_readings` of a component after its history. -/
def readings (L : Lowercase) (history : List ReviewedAttempt) : List AttemptReading :=
  (recorded L history).map Prod.snd

/-! ## Identities -/

/-- Two blocking findings with one identity. -/
def SameFinding (L : Lowercase) : BlockingFinding → BlockingFinding → Prop
  | .criterion a, .criterion b => ':' ∉ normalizedStory L a.storyId → ':' ∉ normalizedStory L b.storyId →
      normalizedStory L a.storyId = normalizedStory L b.storyId ∧ normalize L a.criterion = normalize L b.criterion
  | .concern a, .concern b => normalize L a.category = normalize L b.category ∧
      locationKey L a.location = locationKey L b.location ∧ normalize L a.explanation = normalize L b.explanation
  | _, _ => False

section

variable {L : Lowercase}

lemma mem_of_mem_collapse {c : Char} (hc : c ≠ ' ') {text : List Char} {seen : Bool}
    (h : c ∈ collapseSpaces seen text) : c ∈ text := by
  induction text generalizing seen with
  | nil => cases h
  | cons d text ih =>
      rw [collapseSpaces] at h
      split_ifs at h with hspace hseen
      · exact List.mem_cons_of_mem _ (ih h)
      · exact List.mem_cons_of_mem _ (ih ((List.mem_cons.mp h).resolve_left hc))
      · rcases List.mem_cons.mp h with rfl | h
        · exact List.mem_cons_self ..
        · exact List.mem_cons_of_mem _ (ih h)

lemma mem_of_mem_stripped {c : Char} {text : List Char} (h : c ∈ PyText.stripped text) : c ∈ text := by
  rw [PyText.stripped_eq] at h
  exact (PyText.trimEnd_prefix text).subset ((List.dropWhile_sublist _).subset h)

/-- A known category has no colon. -/
lemma colon_not_mem_category {category : String} (h : category ∈ validConcernCategories) :
    ':' ∉ normalize L category := by
  have hnone : ∀ c ∈ validConcernCategories, ':' ∉ (PyText.strip c).toList := by decide +kernel
  exact fun hmem => hnone category h (mem_of_mem_collapse (by decide) (L.colon _ hmem))

lemma colon_not_mem_locationKey (location : String) : ':' ∉ locationKey L location := by
  intro hmem
  have := List.mem_takeWhile_imp (mem_of_mem_stripped hmem)
  simp at this

lemma tag_ne (x y : List Char) : criterionTag ++ x ≠ concernTag ++ y := by
  have hcriterion : criterionTag = 'c' :: 'r' :: "iterion:".toList := by decide
  have hconcern : concernTag = 'c' :: 'o' :: "ncern:".toList := by decide
  intro h
  simp only [hcriterion, hconcern, List.cons_append] at h
  exact absurd (List.cons.inj (List.cons.inj h).2).1 (by decide)

/-- **Two findings with one key** have one identity. -/
lemma sameFinding_of_key {a b : BlockingFinding}
    (ha : ∀ c, a = .concern c → c.category ∈ validConcernCategories)
    (hb : ∀ c, b = .concern c → c.category ∈ validConcernCategories)
    (h : findingKey L a = findingKey L b) : SameFinding L a b := by
  match a, b with
  | .criterion a, .criterion b =>
      intro hcolon hcolon'
      exact Markers.append_sep_inj hcolon hcolon' (List.append_cancel_left h)
  | .criterion a, .concern b => exact absurd h (tag_ne _ _)
  | .concern a, .criterion b => exact absurd h.symm (tag_ne _ _)
  | .concern a, .concern b =>
      obtain ⟨hcategory, hrest⟩ := Markers.append_sep_inj (colon_not_mem_category (ha a rfl))
        (colon_not_mem_category (hb b rfl)) (List.append_cancel_left h)
      obtain ⟨hlocation, htext⟩ := Markers.append_sep_inj (colon_not_mem_locationKey _)
        (colon_not_mem_locationKey _) hrest
      exact ⟨hcategory, hlocation, htext⟩

lemma ReviewedAttempt.valid_of_blocking {a : ReviewedAttempt} {f : BlockingFinding}
    (h : f ∈ blockingFindings a.result) : ∀ c, f = .concern c → c.category ∈ validConcernCategories := by
  rintro c rfl
  simp only [blockingFindings, List.mem_append, List.mem_map, List.mem_filter, reduceCtorEq, and_false,
    exists_false, false_or, BlockingFinding.concern.injEq, exists_eq_right] at h
  exact a.valid c h.1

/-- A key that is kept keeps the finding. -/
lemma finding_kept {p c : ReviewedAttempt} (h : reviewFindingKeys L p.result ⊆ reviewFindingKeys L c.result)
    {f : BlockingFinding} (hf : f ∈ blockingFindings p.result) :
    ∃ g ∈ blockingFindings c.result, SameFinding L f g := by
  have hkey : findingKey L f ∈ reviewFindingKeys L p.result :=
    List.mem_toFinset.mpr (List.mem_map_of_mem hf)
  obtain ⟨g, hg, heq⟩ := List.mem_map.mp (List.mem_toFinset.mp (h hkey))
  exact ⟨g, hg, sameFinding_of_key (ReviewedAttempt.valid_of_blocking hf) (ReviewedAttempt.valid_of_blocking hg)
    heq.symm⟩

/-! ## What a trip says -/

/-- A step the detector counts. -/
structure CountedStep (L : Lowercase) (p c : ReviewedAttempt × AttemptReading) : Prop where
  consecutive : c.1.retries = p.1.retries + 1
  larger : p.2.linesChanged < c.2.linesChanged
  kept : ∀ f ∈ blockingFindings p.1.result, ∃ g ∈ blockingFindings c.1.result, SameFinding L f g

lemma growing_iff {p c : AttemptReading} : growing p c = true ↔
    c.attempt = p.attempt + 1 ∧ p.linesChanged < c.linesChanged ∧ p.findingKeys ⊆ c.findingKeys := by
  unfold growing
  split_ifs with hattempt hlines
  · exact iff_of_false (by simp) fun h => hattempt h.1
  · exact iff_of_false (by simp) fun h => absurd h.2.1 (not_lt.mpr hlines)
  · exact decide_eq_true_iff.trans ⟨fun h => ⟨not_not.mp hattempt, not_le.mp hlines, h⟩, fun h => h.2.2⟩

/-- A loop over neighbours is a chain. -/
lemma all_zip_tail {α : Type} (p : α → α → Bool) (xs : List α) :
    ((xs.zip xs.tail).all fun step => p step.1 step.2) = true ↔ xs.IsChain fun a b => p a b = true := by
  induction xs with
  | nil => simp
  | cons a xs ih =>
      cases xs with
      | nil => simp
      | cons b xs => simp only [List.tail_cons, List.zip_cons_cons, List.all_cons, Bool.and_eq_true,
          List.isChain_cons_cons] at ih ⊢; rw [← ih]

/-- What trips the detector. -/
lemma detectDivergence_eq_some {rs : List AttemptReading} {config : DivergenceConfig} {v : DivergenceVerdict}
    (h : detectDivergence rs config = some v) : config.growthSteps + 1 ≤ rs.length ∧
      v.readings = rs.drop (rs.length - (config.growthSteps + 1)) ∧
      v.readings.IsChain fun p c => growing p c = true := by
  simp only [detectDivergence] at h
  split_ifs at h with hlen hkeys hsteps
  obtain rfl := Option.some.inj h
  exact ⟨not_lt.mp hlen, rfl, (all_zip_tail growing _).mp hsteps⟩

lemma readingOf_eq_some {a : ReviewedAttempt} {r : AttemptReading} (h : readingOf L a = some r) :
    r.attempt = a.retries + 1 ∧ r.findingKeys = reviewFindingKeys L a.result := by
  simp only [readingOf] at h
  split_ifs at h
  obtain ⟨size, _, rfl⟩ := Option.map_eq_some_iff.mp h
  exact ⟨rfl, rfl⟩

lemma of_mem_recorded {history : List ReviewedAttempt} {e : ReviewedAttempt × AttemptReading}
    (h : e ∈ recorded L history) : readingOf L e.1 = some e.2 := by
  obtain ⟨a, _, hread⟩ := List.mem_filterMap.mp h
  obtain ⟨r, hr, rfl⟩ := Option.map_eq_some_iff.mp hread
  exact hr

end

/-- **A trip keeps every finding.**  The attempts counted are the last ones recorded, one more than the steps asked
    for, and at each step the change got larger and every blocking finding is still there under its identity. -/
theorem divergence_keeps_findings (L : Lowercase) (history : List ReviewedAttempt) (config : DivergenceConfig)
    {v : DivergenceVerdict} (h : detectDivergence (readings L history) config = some v) :
    ∃ counted, counted <:+ recorded L history ∧ counted.length = config.growthSteps + 1 ∧
      v.readings = counted.map Prod.snd ∧ counted.IsChain (CountedStep L) := by
  obtain ⟨hlen, hreadings, hchain⟩ := detectDivergence_eq_some h
  rw [readings, List.length_map] at hlen hreadings
  rw [← List.map_drop] at hreadings
  set counted := (recorded L history).drop ((recorded L history).length - (config.growthSteps + 1)) with hcounted
  have hsuffix : counted <:+ recorded L history := List.drop_suffix _ _
  refine ⟨counted, hsuffix, by rw [hcounted, List.length_drop]; omega, hreadings, ?_⟩
  rw [hreadings, List.isChain_map] at hchain
  refine hchain.imp_of_mem_imp fun p c hp hc hgrow => ?_
  obtain ⟨hattempt, hlines, hkeys⟩ := growing_iff.mp hgrow
  obtain ⟨hpn, hpk⟩ := readingOf_eq_some (of_mem_recorded (hsuffix.subset hp))
  obtain ⟨hcn, hck⟩ := readingOf_eq_some (of_mem_recorded (hsuffix.subset hc))
  rw [hpk, hck] at hkeys
  exact ⟨by omega, hlines, fun f hf => finding_kept hkeys hf⟩

/-! ### Histories of two attempts -/

/-- `str.lower` of texts in lower case. -/
def plainLowercase : Lowercase := ⟨id, fun _ h => h⟩

def sampleConcern (location : String) : ReviewConcern :=
  { category := "error_handling", severity := "fail", location := location, explanation := "the error is dropped" }

/-- An attempt whose review failed on concerns at these locations. -/
def sampleAttempt (retries lines : ℕ) (locations : List String) : ReviewedAttempt where
  retries := retries
  result := { passed := false, concerns := locations.map sampleConcern }
  size := some (1, lines)
  valid c hc := by
    obtain ⟨_, _, rfl⟩ := List.mem_map.mp hc
    show "error_handling" ∈ validConcernCategories
    decide

def oneStep : DivergenceConfig := { growthSteps := 1 }

/-- One objection that stays while the change grows. -/
theorem divergence_keeps_findings_sample : ∃ counted,
    counted <:+ recorded plainLowercase [sampleAttempt 0 10 ["a.py:10"], sampleAttempt 1 20 ["a.py:12"]] ∧
      counted.length = 2 ∧ counted.IsChain (CountedStep plainLowercase) := by
  obtain ⟨v, hv⟩ := Option.isSome_iff_exists.mp (show (detectDivergence (readings plainLowercase
    [sampleAttempt 0 10 ["a.py:10"], sampleAttempt 1 20 ["a.py:12"]]) oneStep).isSome by decide +kernel)
  obtain ⟨counted, hsuffix, hlen, _, hchain⟩ := divergence_keeps_findings plainLowercase _ oneStep hv
  exact ⟨counted, hsuffix, hlen, hchain⟩

/-- A location without the line numbers at its end. -/
def dropLineNumber (location : List Char) : List Char :=
  let file := location.takeWhile (· ≠ ':')
  if (location.drop file.length).all fun c => c.isDigit || c = ':' || c = '-' then file else location

/-- A finding modulo white space, letter case and line numbers. -/
def modulo (L : Lowercase) : BlockingFinding → List (List Char)
  | .criterion c => [normalizedStory L c.storyId, normalize L c.criterion]
  | .concern c => [normalize L c.category, dropLineNumber (normalize L c.location), normalize L c.explanation]

def moduloFindings (L : Lowercase) (a : ReviewedAttempt) : List (List (List Char)) :=
  (blockingFindings a.result).map (modulo L)

/-- **What a trip does not say.**  Of two objections with one key, one was retired; and an objection was retired
    where another one of the same text names the same file behind a colon. -/
theorem divergence_retires :
    (¬ ∀ L history config v, detectDivergence (readings L history) config = some v → ∀ counted,
        counted <:+ recorded L history → counted.length = config.growthSteps + 1 →
          counted.IsChain fun p c => (moduloFindings L p.1).Subperm (moduloFindings L c.1)) ∧
      ¬ ∀ L history config v, detectDivergence (readings L history) config = some v → ∀ counted,
        counted <:+ recorded L history → counted.length = config.growthSteps + 1 →
          counted.IsChain fun p c => moduloFindings L p.1 ⊆ moduloFindings L c.1 := by
  constructor
  · intro hall
    let history := [sampleAttempt 0 10 ["a.py:10", "a.py:99"], sampleAttempt 1 20 ["a.py:10"]]
    obtain ⟨v, hv⟩ := Option.isSome_iff_exists.mp
      (show (detectDivergence (readings plainLowercase history) oneStep).isSome by decide +kernel)
    have hchain := hall _ _ _ v hv (recorded plainLowercase history) (List.suffix_refl _) (by decide +kernel)
    have hmap := (List.isChain_map (f := Prod.fst) (R := fun p c => (moduloFindings plainLowercase p).Subperm
      (moduloFindings plainLowercase c))).mpr hchain
    have hattempts : (recorded plainLowercase history).map Prod.fst = history := by rfl
    rw [hattempts] at hmap
    exact absurd (List.isChain_pair.mp hmap).length_le (by decide)
  · intro hall
    let history := [sampleAttempt 0 10 ["a.py:load"], sampleAttempt 1 20 ["a.py:save"]]
    obtain ⟨v, hv⟩ := Option.isSome_iff_exists.mp
      (show (detectDivergence (readings plainLowercase history) oneStep).isSome by decide +kernel)
    have hchain := hall _ _ _ v hv (recorded plainLowercase history) (List.suffix_refl _) (by decide +kernel)
    have hmap := (List.isChain_map (f := Prod.fst) (R := fun p c => moduloFindings plainLowercase p ⊆
      moduloFindings plainLowercase c)).mpr hchain
    have hattempts : (recorded plainLowercase history).map Prod.fst = history := by rfl
    rw [hattempts] at hmap
    exact absurd (List.isChain_pair.mp hmap) (by decide +kernel)

end Kstrl.Review
