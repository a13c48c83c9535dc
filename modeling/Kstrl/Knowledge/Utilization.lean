import Kstrl.Knowledge.PrefixClaims

/-!
# Fact utilization

How many of the facts that an engineer was given are found in what the engineer wrote (`kstrl/knowledge/knowledge.py`): in
an artifact, or on an added line of the diff.

The diff is the text that git prints, read under universal newlines.  Its lines are split once more at every line
break, so what stands behind a line break inside a line is judged by its own first character.

* **`measure_sound_iff`**: when the facts are read back from the prefix as they were rendered, and counted only for
  what the engineer wrote.
-/

namespace Kstrl.Knowledge

open PyText (stripped trimEnd isSpace Trimmed)
open TextLines (splitlines splitFrom isLineBreak translate)

/-! ## Lower case -/

/-- `str.lower`.  It maps a text piece by piece where a line break or a plus sign stands between the pieces, and makes
    no line feed. -/
structure Lowering where
  lower : List Char → List Char
  nil : lower [] = []
  split : ∀ (a b : List Char) (c : Char), isLineBreak c = true ∨ c = '+' → lower (a ++ c :: b) = lower a ++ c :: lower b
  noFeed : ∀ a : List Char, '\n' ∉ a → '\n' ∉ lower a

/-! ## The measurement -/

/-- Whether `diff_added_content` keeps a line. -/
def addedLine (line : List Char) : Bool := ['+'].isPrefixOf line && !("+++ ".toList.isPrefixOf line)

def diffAddedContent (diffText : List Char) : List Char :=
  ['\n'].intercalate (((splitlines diffText).filter addedLine).map List.tail)

structure Utilization where
  injected : ℕ
  referenced : ℕ
  tierInjected : Tier → ℕ
  tierReferenced : Tier → ℕ

def Utilization.zero : Utilization := ⟨0, 0, fun _ => 0, fun _ => 0⟩

def Utilization.count (u : Utilization) (tier : Option Tier) (hit : Bool) : Utilization where
  injected := u.injected + 1
  referenced := if hit then u.referenced + 1 else u.referenced
  tierInjected := fun t => if tier = some t then u.tierInjected t + 1 else u.tierInjected t
  tierReferenced := fun t => if tier = some t ∧ hit = true then u.tierReferenced t + 1 else u.tierReferenced t

section

variable (L : Lowering)

def haystack (artifacts : List (List Char)) (diff : List Char) : List Char :=
  L.lower (['\n'].intercalate (artifacts ++ if diff = [] then [] else [diffAddedContent diff]))

def snippetLength : ℕ := 30

def snippet (claim : List Char) : List Char := L.lower (stripped ((firstSentence claim).take snippetLength))

def isHit (searched : List Char) (claim : List Char) : Bool :=
  decide (snippet L claim ≠ []) && decide (snippet L claim <:+: searched)

def measureFactUtilization (knowledgePrefix : List Char) (artifacts : List (List Char)) (diff : List Char) :
    Utilization :=
  (extractPrefixClaims knowledgePrefix).foldl
    (fun u entry => u.count entry.2 (isHit L (haystack L artifacts diff) entry.1)) .zero

end

/-! ## The diff -/

/-- A line of the text that git prints: a line of a hunk, or one around the hunks. -/
inductive DiffLine where
  | header (text : List Char)
  | context (text : List Char)
  | added (text : List Char)
  | removed (text : List Char)
  deriving DecidableEq

def DiffLine.raw : DiffLine → List Char
  | header text => text
  | context text => ' ' :: text
  | added text => '+' :: text
  | removed text => '-' :: text

/-- A diff: no line holds a line feed, and a header that begins with a plus sign names a file. -/
structure Diff where
  lines : List DiffLine
  oneLine : ∀ line ∈ lines, '\n' ∉ line.raw
  header : ∀ text, .header text ∈ lines → '+' ∈ text.head? → "+++ ".toList <+: text

/-- The text that git prints, as it is read. -/
def Diff.text (diff : Diff) : List Char := translate (diff.lines.flatMap fun line => line.raw ++ ['\n'])

/-! ## What is searched -/

/-- A text without the separator is found in joined parts where it is found in one of them. -/
lemma infix_intercalate {sep : Char} {needle : List Char} (hne : needle ≠ []) (h : sep ∉ needle) (parts : List (List Char)) :
    needle <:+: [sep].intercalate parts ↔ ∃ part ∈ parts, needle <:+: part := by
  have hcut : ∀ a b : List Char, needle <:+: a ++ sep :: b → needle <:+: a ∨ needle <:+: b := by
    intro a b hin
    induction a with
    | nil =>
        rcases List.infix_cons_iff.mp hin with hfront | hinside
        · cases needle with
          | nil => exact absurd rfl hne
          | cons c needle => exact absurd ((List.cons_prefix_cons.mp hfront).1 ▸ List.mem_cons_self) h
        · exact Or.inr hinside
    | cons c a ih =>
        rw [List.cons_append] at hin
        rcases List.infix_cons_iff.mp hin with hfront | hinside
        · exact Or.inl ((prefix_append_cons (a := c :: a) h).mp hfront).isInfix
        · exact (ih hinside).imp_left fun hin => hin.trans (List.suffix_cons c a).isInfix
  induction parts with
  | nil => simpa using hne
  | cons part parts ih =>
      cases parts with
      | nil => simp
      | cons next parts =>
          have hjoin : [sep].intercalate (part :: next :: parts) = part ++ sep :: [sep].intercalate (next :: parts) := by
            rw [List.intercalate_cons_cons, List.append_assoc, List.singleton_append]
          rw [hjoin, List.exists_mem_cons_iff]
          refine Iff.trans ⟨hcut _ _, ?_⟩ (or_congr_right ih)
          · rintro (hin | hin)
            · exact hin.trans (List.prefix_append _ _).isInfix
            · exact hin.trans ((List.suffix_cons sep _).trans (List.suffix_append part _)).isInfix

lemma Lowering.intercalate (L : Lowering) (parts : List (List Char)) :
    L.lower (['\n'].intercalate parts) = ['\n'].intercalate (parts.map L.lower) := by
  induction parts with
  | nil => exact L.nil
  | cons part parts ih =>
      cases parts with
      | nil => simp
      | cons next parts =>
          rw [List.map_cons, List.map_cons, List.intercalate_cons_cons, List.intercalate_cons_cons, List.append_assoc,
            List.singleton_append, L.split _ _ _ (Or.inl (by decide)), ih, List.map_cons, List.append_assoc,
            List.singleton_append]

/-- A claim of one line has a snippet of one line. -/
lemma newline_not_mem_snippet (L : Lowering) {claim : List Char} (h : ∀ c ∈ claim, isLineBreak c = false) :
    '\n' ∉ snippet L claim := by
  have hclaim : '\n' ∉ claim := fun hmem => absurd (h _ hmem) (by decide)
  have hstripped : ∀ text : List Char, '\n' ∉ text → '\n' ∉ stripped text := fun text htext hmem => by
    rw [PyText.stripped_eq] at hmem
    exact htext ((PyText.trimEnd_prefix text).subset ((List.dropWhile_suffix isSpace).subset hmem))
  have hsentence : '\n' ∉ firstSentence claim := by
    simp only [firstSentence]
    split_ifs
    · exact List.not_mem_nil
    · cases hfind : sentence? (stripped claim) with
      | none => exact hstripped claim hclaim
      | some sentence =>
          obtain ⟨hfront, -, -⟩ := sentence?_prefix hfind
          exact fun hmem => hstripped claim hclaim (hfront.subset ((PyText.trimEnd_prefix sentence).subset hmem))
  exact L.noFeed _ (hstripped _ fun hmem => hsentence (List.mem_of_mem_take hmem))

/-- **What a hit is**: a snippet that is found in an artifact, or on a line that `diff_added_content` keeps. -/
lemma isHit_iff (L : Lowering) {claim : List Char} (h : ∀ c ∈ claim, isLineBreak c = false)
    (artifacts : List (List Char)) (diff : List Char) :
    isHit L (haystack L artifacts diff) claim = true ↔ snippet L claim ≠ [] ∧
      ((∃ artifact ∈ artifacts, snippet L claim <:+: L.lower artifact) ∨
        ∃ line ∈ splitlines diff, addedLine line = true ∧ snippet L claim <:+: L.lower line.tail) := by
  have hfeed := newline_not_mem_snippet L h
  rw [isHit, Bool.and_eq_true, decide_eq_true_eq, decide_eq_true_eq]
  refine and_congr_right fun hne => ?_
  have hdiff : (∃ part ∈ (if diff = [] then [] else [diffAddedContent diff]), snippet L claim <:+: L.lower part) ↔
      ∃ line ∈ splitlines diff, addedLine line = true ∧ snippet L claim <:+: L.lower line.tail := by
    have hcontent : snippet L claim <:+: L.lower (diffAddedContent diff) ↔
        ∃ line ∈ splitlines diff, addedLine line = true ∧ snippet L claim <:+: L.lower line.tail := by
      rw [diffAddedContent, L.intercalate, infix_intercalate hne hfeed]
      constructor
      · rintro ⟨part, hpart, hin⟩
        obtain ⟨tail, htail, rfl⟩ := List.mem_map.mp hpart
        obtain ⟨line, hline, rfl⟩ := List.mem_map.mp htail
        obtain ⟨hmem, hadded⟩ := List.mem_filter.mp hline
        exact ⟨line, hmem, hadded, hin⟩
      · rintro ⟨line, hmem, hadded, hin⟩
        exact ⟨_, List.mem_map_of_mem (List.mem_map_of_mem (List.mem_filter.mpr ⟨hmem, hadded⟩)), hin⟩
    split_ifs with hempty
    · subst hempty
      simp [splitlines, splitFrom]
    · simp only [List.mem_singleton, exists_eq_left]
      exact hcontent
  rw [haystack, L.intercalate, infix_intercalate hne hfeed]
  simp only [List.map_append, List.mem_append, List.mem_map, or_and_right, exists_or, exists_exists_and_eq_and]
  exact or_congr_right hdiff

/-! ## The lines of a diff -/

lemma splitlines_translate (text : List Char) : splitlines (translate text) = splitlines text := by
  have hfrom : ∀ line, splitFrom line (translate text) = splitFrom line text := by
    induction text using TextLines.translate.induct with
    | case1 => exact fun _ => rfl
    | case2 rest ih =>
        intro line
        rw [TextLines.translate, splitFrom, TextLines.splitFrom_cons (by decide), if_pos (by decide), ih]
    | case3 rest hrest ih =>
        intro line
        rw [TextLines.translate, TextLines.splitFrom_cons (by decide), if_pos (by decide), ih,
          TextLines.splitFrom_break (by decide) fun _ tail htail => hrest tail htail]
        exact hrest
    | case4 c rest hfeed hreturn ih =>
        intro line
        rw [TextLines.translate, TextLines.splitFrom_cons hreturn, TextLines.splitFrom_cons hreturn, ih, ih]
        · exact fun tail hc _ => hreturn hc
        · exact hreturn
  exact hfrom []

/-- A line is in lower case where its text is. -/
lemma lower_infix (L : Lowering) (line text : List Char) :
    ∀ part ∈ splitFrom line text, L.lower part <:+: L.lower (line ++ text) := by
  have hbehind : ∀ (a b : List Char) (c : Char), isLineBreak c = true → L.lower a <:+: L.lower (a ++ c :: b) ∧
      L.lower b <:+: L.lower (a ++ c :: b) := by
    intro a b c hc
    rw [L.split a b c (Or.inl hc)]
    exact ⟨(List.prefix_append _ _).isInfix, ((List.suffix_cons c _).trans (List.suffix_append _ _)).isInfix⟩
  induction line, text using TextLines.splitFrom.induct with
  | case1 => simp [splitFrom]
  | case2 line h => simp [splitFrom, h]
  | case3 line text ih =>
      rw [splitFrom, List.forall_mem_cons]
      have hreturn := hbehind line ('\n' :: text) '\r' (by decide)
      have hfeed := hbehind [] text '\n' (by decide)
      exact ⟨hreturn.1, fun part hpart => (ih part hpart).trans (hfeed.2.trans hreturn.2)⟩
  | case4 line c text hcr hbreak ih =>
      rw [TextLines.splitFrom_break hbreak fun hc tail htail => hcr tail hc htail, List.forall_mem_cons]
      have hcut := hbehind line text c hbreak
      exact ⟨hcut.1, fun part hpart => (ih part hpart).trans hcut.2⟩
  | case5 line c text hcr hbreak ih =>
      have hc : c ≠ '\r' := by
        rintro rfl
        exact hbreak (by decide)
      rw [TextLines.splitFrom_cons hc, if_neg hbreak]
      rwa [List.append_assoc, List.singleton_append] at ih

lemma splitlines_text (diff : Diff) :
    splitlines diff.text = diff.lines.flatMap fun line => splitlines (line.raw ++ ['\n']) := by
  rw [Diff.text, splitlines_translate]
  induction diff.lines with
  | nil => rfl
  | cons line lines ih =>
      rw [List.flatMap_cons, List.flatMap_cons, List.append_assoc, List.singleton_append, splitlines,
        TextLines.splitFrom_newline, ← splitlines, ← splitlines, ih]

/-- What is kept of an added line is in it. -/
lemma kept_of_added (L : Lowering) {text part : List Char} (hfeed : '\n' ∉ part)
    (hpart : part ∈ splitlines ('+' :: text ++ ['\n'])) (hadded : addedLine part = true) :
    L.lower part.tail <:+: L.lower text := by
  have hin := lower_infix L [] _ part hpart
  have hplus : ∀ text, L.lower ('+' :: text) = '+' :: L.lower text := fun text => by
    rw [← List.nil_append ('+' :: text), L.split _ _ _ (Or.inr rfl), L.nil, List.nil_append]
  rw [addedLine, Bool.and_eq_true, List.isPrefixOf_iff_prefix] at hadded
  obtain ⟨rest, rfl⟩ := hadded.1
  have hnewline : L.lower ('+' :: text ++ ['\n']) = ['\n'].intercalate [L.lower ('+' :: text), []] := by
    rw [L.split _ _ _ (Or.inl (by decide)), L.nil]
    simp
  rw [List.nil_append, hnewline, infix_intercalate (by simp [hplus]) (L.noFeed _ hfeed), List.singleton_append, hplus, hplus] at hin
  obtain ⟨next, hnext, hin⟩ := hin
  rw [List.singleton_append, List.tail_cons]
  rcases List.mem_cons.mp hnext with rfl | hnext
  · rcases List.infix_cons_iff.mp hin with hfront | hinside
    · exact (List.cons_prefix_cons.mp hfront).2.isInfix
    · exact (List.suffix_cons '+' _).isInfix.trans hinside
  · rw [List.mem_singleton.mp hnext] at hin
    exact absurd (List.infix_nil.mp hin) (List.cons_ne_nil _ _)

lemma first_prefix {line text first : List Char} {more : List (List Char)} (h : splitFrom line text = first :: more) :
    first <+: line ++ text := by
  induction line, text using TextLines.splitFrom.induct with
  | case1 => simp [splitFrom] at h
  | case2 line hline =>
      rw [splitFrom, if_neg hline] at h
      rw [(List.cons.inj h).1, List.append_nil]
  | case3 line text ih =>
      rw [splitFrom] at h
      rw [← (List.cons.inj h).1]
      exact List.prefix_append _ _
  | case4 line c text hcr hbreak ih =>
      rw [TextLines.splitFrom_break hbreak fun hc tail htail => hcr tail hc htail] at h
      rw [← (List.cons.inj h).1]
      exact List.prefix_append _ _
  | case5 line c text hcr hbreak ih =>
      have hc : c ≠ '\r' := by
        rintro rfl
        exact hbreak (by decide)
      rw [TextLines.splitFrom_cons hc, if_neg hbreak] at h
      have hfront := ih h
      rwa [List.append_assoc, List.singleton_append] at hfront

lemma head_of_addedLine {part text : List Char} (hadded : addedLine part = true) (hfront : part <+: text ++ ['\n']) :
    text.head? = some '+' := by
  rw [addedLine, Bool.and_eq_true, List.isPrefixOf_iff_prefix] at hadded
  cases text with
  | nil => exact absurd (List.cons_prefix_cons.mp (hadded.1.trans hfront)).1 (by decide)
  | cons c text => rw [List.head?_cons, (List.cons_prefix_cons.mp (hadded.1.trans hfront)).1]

/-- The first part of a line that is not added is not kept. -/
lemma kept_of_not_added (diff : Diff) {line : DiffLine} (hline : line ∈ diff.lines) (hno : ∀ text, line ≠ .added text)
    {part : List Char} (hpart : part ∈ splitlines (line.raw ++ ['\n'])) (hadded : addedLine part = true) :
    part ∈ (splitlines (line.raw ++ ['\n'])).tail := by
  cases hsplit : splitlines (line.raw ++ ['\n']) with
  | nil =>
      rw [hsplit] at hpart
      cases hpart
  | cons first more =>
      rw [hsplit] at hpart
      refine (List.mem_cons.mp hpart).resolve_left ?_
      rintro rfl
      have hfront : part <+: [] ++ (line.raw ++ ['\n']) := first_prefix hsplit
      have hhead := head_of_addedLine hadded hfront
      cases line with
      | context text => exact absurd (Option.some.inj hhead) (by decide)
      | removed text => exact absurd (Option.some.inj hhead) (by decide)
      | added text => exact hno text rfl
      | header text =>
          -- the header of a file is left out
          obtain ⟨rest, rfl⟩ := diff.header text hline hhead
          obtain ⟨next, later, hnext⟩ := @splitlines_solid "+++ ".toList (by decide) _
            (List.append_ne_nil_of_right_ne_nil rest (List.cons_ne_nil '\n' []))
          rw [DiffLine.raw, List.append_assoc, hnext] at hsplit
          rw [addedLine, ← (List.cons.inj hsplit).1, List.isPrefixOf_iff_prefix.mpr (List.prefix_append _ _), Bool.not_true,
            Bool.and_false] at hadded
          cases hadded

/-! ## Soundness -/

section

variable (L : Lowering) (artifacts : List (List Char)) (diff : Diff)

/-- The snippet of a claim is in an artifact, or on an added line. -/
def Written (claim : List Char) : Prop :=
  (∃ artifact ∈ artifacts, snippet L claim <:+: L.lower artifact) ∨
    ∃ text, .added text ∈ diff.lines ∧ snippet L claim <:+: L.lower text

/-- The snippet of a claim stands behind a line break and a plus sign inside a line that is not added. -/
def Stray (claim : List Char) : Prop :=
  snippet L claim ≠ [] ∧ ∃ line ∈ diff.lines, (∀ text, line ≠ .added text) ∧
    ∃ part ∈ (splitlines (line.raw ++ ['\n'])).tail, addedLine part = true ∧ snippet L claim <:+: L.lower part.tail

/-- **What a hit is**: a snippet that the engineer wrote, or one that only looks so. -/
lemma written_or_stray {claim : List Char} (h : ∀ c ∈ claim, isLineBreak c = false)
    (hhit : isHit L (haystack L artifacts diff.text) claim = true) : Written L artifacts diff claim ∨ Stray L diff claim := by
  obtain ⟨hne, hartifact | ⟨part, hpart, hadded, hin⟩⟩ := (isHit_iff L h artifacts diff.text).mp hhit
  · exact Or.inl (Or.inl hartifact)
  rw [splitlines_text] at hpart
  obtain ⟨line, hline, hpart⟩ := List.mem_flatMap.mp hpart
  by_cases hno : ∀ text, line ≠ .added text
  · exact Or.inr ⟨hne, line, hline, hno, part, kept_of_not_added diff hline hno hpart hadded, hadded, hin⟩
  · obtain ⟨text, hline'⟩ := not_forall_not.mp hno
    subst hline'
    have hfeed : '\n' ∉ part := fun hmem => absurd (TextLines.not_isLineBreak_of_mem
      (show ∀ c ∈ ([] : List Char), isLineBreak c = false by simp) part hpart _ hmem) (by decide)
    exact Or.inl (Or.inr ⟨text, hline, hin.trans (kept_of_added L hfeed hpart hadded)⟩)

lemma isHit_of_stray {claim : List Char} (h : ∀ c ∈ claim, isLineBreak c = false) (hstray : Stray L diff claim) :
    isHit L (haystack L artifacts diff.text) claim = true := by
  obtain ⟨hne, line, hline, -, part, hpart, hadded, hin⟩ := hstray
  refine (isHit_iff L h artifacts diff.text).mpr ⟨hne, Or.inr ⟨part, ?_, hadded, hin⟩⟩
  rw [splitlines_text]
  exact List.mem_flatMap.mpr ⟨line, hline, List.mem_of_mem_tail hpart⟩

/-- The facts are read back from the prefix as they were rendered, and each that is counted as referenced is one that
    the engineer wrote about. -/
structure Sound (componentId : String) (config : KnowledgeConfig) (tiers : Tier → List Fact) : Prop where
  read : extractPrefixClaims (buildKnowledgeContext componentId config tiers) =
    factTiers.flatMap fun tier => entries tier (keptFacts config tiers tier)
  written : ∀ tier ∈ factTiers, ∀ f ∈ keptFacts config tiers tier,
    isHit L (haystack L artifacts diff.text) f.claim.toList = true → Written L artifacts diff f.claim.toList

/-- **The measurement is sound** exactly when every rendered fact is legible and no snippet of one is found only behind
    a line break inside a line that is not added. -/
theorem measure_sound_iff {componentId : String} (hvalid : validateComponentId componentId = none)
    (hline : '\n' ∉ componentId.toList) (config : KnowledgeConfig) {tiers : Tier → List Fact}
    (h : ∀ tier, ∀ f ∈ tiers tier, Stored f) :
    Sound L artifacts diff componentId config tiers ↔
      (∀ tier ∈ factTiers, LegibleSection tier (keptFacts config tiers tier)) ∧
        ∀ tier ∈ factTiers, ∀ f ∈ keptFacts config tiers tier, Stray L diff f.claim.toList →
          Written L artifacts diff f.claim.toList := by
  have hread := extractPrefixClaims_iff hvalid hline config h
  constructor
  · rintro ⟨hclaims, hwritten⟩
    have hlegible := hread.mp hclaims
    exact ⟨hlegible, fun tier htier f hf hstray => hwritten tier htier f hf
      (isHit_of_stray L artifacts diff ((hlegible tier htier).legible f hf).oneLine.1 hstray)⟩
  · rintro ⟨hlegible, hstray⟩
    exact ⟨hread.mpr hlegible, fun tier htier f hf hhit =>
      (written_or_stray L artifacts diff ((hlegible tier htier).legible f hf).oneLine.1 hhit).elim id
        (hstray tier htier f hf)⟩

end

/-- What the measurement counts. -/
lemma measureFactUtilization_counts (L : Lowering) (knowledgePrefix : List Char) (artifacts : List (List Char))
    (diff : List Char) (hit : List Char → Bool) (hhit : hit = isHit L (haystack L artifacts diff)) :
    (measureFactUtilization L knowledgePrefix artifacts diff).injected = (extractPrefixClaims knowledgePrefix).length ∧
      (measureFactUtilization L knowledgePrefix artifacts diff).referenced =
        (extractPrefixClaims knowledgePrefix).countP fun entry => hit entry.1 := by
  have hfold : ∀ (claims : List (List Char × Option Tier)) (u : Utilization),
      (claims.foldl (fun u entry => u.count entry.2 (hit entry.1)) u).injected = u.injected + claims.length ∧
        (claims.foldl (fun u entry => u.count entry.2 (hit entry.1)) u).referenced =
          u.referenced + claims.countP fun entry => hit entry.1 := by
    intro claims
    induction claims with
    | nil => exact fun _ => ⟨rfl, rfl⟩
    | cons entry claims ih =>
        intro u
        obtain ⟨hinjected, hreferenced⟩ := ih (u.count entry.2 (hit entry.1))
        rw [List.foldl_cons, hinjected, hreferenced, List.length_cons, List.countP_cons, Utilization.count]
        constructor
        · dsimp only
          omega
        · dsimp only
          split_ifs <;> omega
  subst hhit
  obtain ⟨hinjected, hreferenced⟩ := hfold (extractPrefixClaims knowledgePrefix) .zero
  rw [measureFactUtilization, hinjected, hreferenced]
  exact ⟨Nat.zero_add _, Nat.zero_add _⟩

/-! ### One fact -/

lemma map_toLower_split (a b : List Char) (c : Char) (hc : isLineBreak c = true ∨ c = '+') :
    (a ++ c :: b).map Char.toLower = a.map Char.toLower ++ c :: b.map Char.toLower := by
  have hfixed : c.toLower = c := by
    rcases hc with hc | rfl
    · have hall : ∀ c ∈ ['\n', '\x0b', '\x0c', '\r', '\x1c', '\x1d', '\x1e', '\u0085', '\u2028', '\u2029'],
          c.toLower = c := by decide
      exact hall c (by simpa [isLineBreak] using hc)
    · rfl
  rw [List.map_append, List.map_cons, hfixed]

lemma feed_not_mem_toLower (a : List Char) (h : '\n' ∉ a) : '\n' ∉ a.map Char.toLower := by
  intro hmem
  obtain ⟨c, hc, hlower⟩ := List.mem_map.mp hmem
  delta Char.toLower at hlower
  split_ifs at hlower with hupper
  · have hlow : (65 : ℕ) ≤ c.val.toNat := hupper.1
    have hhigh : c.val.toNat ≤ 90 := hupper.2
    have hval : (c.val.toNat + 32) % 2 ^ 32 = 10 := congrArg (fun d : Char => d.val.toNat) hlower
    omega
  · exact h (hlower ▸ hc)

/-- Lower case for a text of ASCII letters. -/
def Lowering.ascii : Lowering where
  lower := List.map Char.toLower
  nil := rfl
  split := map_toLower_split
  noFeed := feed_not_mem_toLower

def oneFact (claim : String) : Fact where
  id := "fact-001"
  componentId := "a"
  createdIter := 1
  createdRunId := "r"
  scope := "gotcha"
  evidence := ["a:1"]
  confidence := "asserted"
  claim := claim
  tags := []

/-- One fact, in the tier of the component. -/
def oneTier (claim : String) : Tier → List Fact
  | .core => [oneFact claim]
  | _ => []

def wideConfig : KnowledgeConfig := ⟨1000, 1000, 1000⟩

lemma sortForPacking_singleton (f : Fact) : sortForPacking [f] = [f] := by
  rw [sortForPacking, List.mergeSort_singleton, List.mergeSort_singleton]

lemma oneTier_stored {claim : String} (hne : claim.toList ≠ []) (htrimmed : Trimmed claim.toList) :
    ∀ tier, ∀ f ∈ oneTier claim tier, Stored f := by
  have hf : Stored (oneFact claim) :=
    ⟨show validateComponentId "a" = none by decide +kernel, show '\n' ∉ "a".toList by decide,
      show "gotcha" ∈ validScopes by decide, show "asserted" ∈ validConfidences by decide, hne, htrimmed,
      List.cons_ne_nil _ _⟩
  intro tier f hmem
  cases tier with
  | core => rwa [List.mem_singleton.mp hmem]
  | dependency => cases hmem
  | sibling => cases hmem

lemma keptFacts_oneTier {claim : String} (hfits : estimateTokens (renderFactMd (oneFact claim)) ≤ 1000) :
    keptFacts wideConfig (oneTier claim) .core = [oneFact claim] := by
  have hcost : (0 : ℤ) + estimateTokens (renderFactMd (oneFact claim)) ≤ 1000 := by omega
  rw [keptFacts, Tier.pack, packFactsFull, oneTier, sortForPacking_singleton, packFull]
  simp only [wideConfig, if_pos hcost, packFull]

def noDiff : Diff := ⟨[], by simp, by simp⟩

theorem measure_sound_one :
    Sound .ascii [] noDiff "a" wideConfig (oneTier "b") ↔
      (∀ tier ∈ factTiers, LegibleSection tier (keptFacts wideConfig (oneTier "b") tier)) ∧
        ∀ tier ∈ factTiers, ∀ f ∈ keptFacts wideConfig (oneTier "b") tier, Stray .ascii noDiff f.claim.toList →
          Written .ascii [] noDiff f.claim.toList :=
  measure_sound_iff .ascii [] noDiff (by decide +kernel) (by decide) wideConfig
    (oneTier_stored (by decide) ⟨by decide, by decide⟩)

/-- A context line with a form feed in it, and a plus sign behind that. -/
def formFeedDiff : Diff := ⟨[.context "a\x0c+b".toList], by decide, by simp⟩

/-- A claim of two lines is read back as its first line, and a fact is counted for a text that was there before. -/
theorem measure_unsound : ¬Sound .ascii [] noDiff "a" wideConfig (oneTier "b\nc") ∧
    ¬Sound .ascii [] formFeedDiff "a" wideConfig (oneTier "b") := by
  constructor
  · intro hsound
    have hkept : keptFacts wideConfig (oneTier "b\nc") .core = [oneFact "b\nc"] := keptFacts_oneTier (by decide +kernel)
    have hlegible := (@extractPrefixClaims_iff "a" (by decide +kernel) (by decide) wideConfig (oneTier "b\nc")
      (oneTier_stored (by decide) ⟨by decide, by decide⟩)).mp hsound.read .core (by decide)
    rw [hkept] at hlegible
    exact absurd ((hlegible.legible _ List.mem_cons_self).oneLine.1 '\n' (by decide)) (by decide)
  · intro hsound
    have hkept : keptFacts wideConfig (oneTier "b") .core = [oneFact "b"] := keptFacts_oneTier (by decide +kernel)
    have hstray : Stray .ascii formFeedDiff "b".toList :=
      ⟨by decide, _, List.mem_cons_self, nofun, "+b".toList, by decide, by decide, by decide⟩
    have hhit := isHit_of_stray .ascii [] formFeedDiff (by decide) hstray
    have hwritten := hsound.written .core (by decide) (oneFact "b") (by rw [hkept]; exact List.mem_cons_self) hhit
    rcases hwritten with ⟨artifact, hmem, -⟩ | ⟨text, hmem, -⟩
    · cases hmem
    · exact absurd (List.mem_singleton.mp hmem) nofun

end Kstrl.Knowledge
