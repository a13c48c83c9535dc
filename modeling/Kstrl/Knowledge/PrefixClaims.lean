import Kstrl.Knowledge.Context

/-!
# The claims of a knowledge prefix

How the measurement of fact utilization reads the claims back from the prompt text (`kstrl/knowledge/knowledge.py`): line by
line, by the headings and the list marks.

* **`extractPrefixClaims_iff`**: when the claims and tiers that are read back are those that were rendered.
-/

namespace Kstrl.Knowledge

open PyText (stripped trimEnd isSpace Trimmed)
open TextLines (splitlines splitFrom isLineBreak isLineBreak_of_not_isSpace)

/-! ## Reading -/

/-- What stands behind a mark. -/
def behind (mark : String) (line : List Char) : Option (List Char) :=
  if mark.toList.isPrefixOf line then some (line.drop mark.toList.length) else none

/-- What stands behind a run of characters other than `stop`. -/
def behindRun (stop : Char) (line : List Char) : Option (List Char) :=
  if line.takeWhile (· ≠ stop) = [] then none else some (line.dropWhile (· ≠ stop))

def behindBlanks (line : List Char) : Option (List Char) :=
  if line.takeWhile isSpace = [] then none else some (line.dropWhile isSpace)

/-- `_PREFIX_SECTION_RE`: the title of a heading. -/
def sectionTitle? (line : List Char) : Option (List Char) :=
  match behind "###" line with
  | none => none
  | some rest =>
      let blanks := rest.takeWhile isSpace
      let title := rest.dropWhile isSpace
      -- of blanks alone, the last one is the title
      if title = [] then if blanks.length < 2 then none else some (blanks.drop (blanks.length - 1))
      else if blanks = [] then none
      else some (trimEnd title)

def evidenceMark : List Char := "(evidence:".toList

/-- Up to white space and the mark of the evidence, or the end. -/
def claimEnd : List Char → List Char
  | [] => []
  | c :: rest =>
      let next := rest.dropWhile isSpace
      if next = [] ∨ evidenceMark.isPrefixOf next then [c] else c :: claimEnd rest

/-- `_PREFIX_CLAIM_RE`: the claim of a list entry.  A match of white space alone is an empty claim. -/
def prefixClaim? (line : List Char) : Option (List Char) := do
  let line ← behind "- **" line
  let line ← behindRun '*' line
  let line ← behind "**[" line
  let line ← behindRun ']' line
  let line ← behind "]" line
  let line ← behindBlanks line
  let line ← behind "\x7b" line
  let line ← behindRun '\x7d' line
  let line ← behind "\x7d:" line
  let claim := stripped (claimEnd (line.dropWhile isSpace))
  if claim = [] then none else some claim

/-- What a line of the prefix is read as. -/
inductive PrefixLine where
  | heading (tier : Option Tier)
  | claim (text : List Char)
  | other
  deriving DecidableEq

def readLine (line : List Char) : PrefixLine :=
  match sectionTitle? line with
  | some title => .heading (tierForSection title)
  | none =>
      match prefixClaim? line with
      | some claim => .claim claim
      | none => .other

def claimsFrom (tier : Option Tier) : List (List Char) → List (List Char × Option Tier)
  | [] => []
  | line :: rest =>
      match readLine line with
      | .heading tier => claimsFrom tier rest
      | .claim text => (text, tier) :: claimsFrom tier rest
      | .other => claimsFrom tier rest

def extractPrefixClaims (knowledgePrefix : List Char) : List (List Char × Option Tier) :=
  claimsFrom none (splitlines knowledgePrefix)

/-- The tier behind some lines. -/
def tierAfter (tier : Option Tier) : List (List Char) → Option Tier
  | [] => tier
  | line :: rest =>
      match readLine line with
      | .heading tier => tierAfter tier rest
      | _ => tierAfter tier rest

lemma claimsFrom_append (tier : Option Tier) (a b : List (List Char)) :
    claimsFrom tier (a ++ b) = claimsFrom tier a ++ claimsFrom (tierAfter tier a) b := by
  induction a generalizing tier with
  | nil => rfl
  | cons line a ih =>
      rw [List.cons_append, claimsFrom, claimsFrom, tierAfter]
      cases readLine line with
      | heading next => exact ih next
      | claim text => exact congrArg _ (ih tier)
      | other => exact ih tier

lemma tierAfter_append (tier : Option Tier) (a b : List (List Char)) :
    tierAfter tier (a ++ b) = tierAfter (tierAfter tier a) b := by
  induction a generalizing tier with
  | nil => rfl
  | cons line a ih =>
      rw [List.cons_append, tierAfter, tierAfter]
      cases readLine line with
      | heading next => exact ih next
      | _ => exact ih tier

lemma claimsFrom_eq_nil {lines : List (List Char)} {tier : Option Tier} :
    claimsFrom tier lines = [] ↔ ∀ line ∈ lines, ∀ text, readLine line ≠ .claim text := by
  induction lines generalizing tier with
  | nil => simp [claimsFrom]
  | cons line lines ih =>
      rw [claimsFrom, List.forall_mem_cons]
      cases hread : readLine line with
      | heading next => simp [ih]
      | claim text => simp
      | other => simp [ih]

/-! ## The lines of a fact -/

/-- What stands before the claim of a fact. -/
def factHead (f : Fact) : List Char :=
  "- **".toList ++ (f.componentId.toList ++ ("**[".toList ++ (f.scope.toList ++ ("]".toList ++ (' ' ::
    ("\x7b".toList ++ (f.confidence.toList ++ ("\x7d:".toList ++ [' ']))))))))

/-- The claim of a fact and its evidence. -/
def factText (f : Fact) : List Char :=
  f.claim.toList ++ (' ' :: evidenceMark ++ (' ' :: (", ".intercalate f.evidence).toList ++ [')']))

lemma factLine_eq {f : Fact} (h : Stored f) : factLine f = factHead f ++ factText f := by
  have hscope : f.scope ≠ "" := fun heq => absurd (heq ▸ h.scope) (by decide)
  have hlabel : " (evidence: ".toList = ' ' :: evidenceMark ++ [' '] := by decide
  simp only [factLine, if_neg hscope, if_neg h.evidence_ne, String.toList_append, hlabel, factHead, factText]
  simp

def factLines (f : Fact) : List (List Char) := splitlines (factLine f ++ ['\n'])

/-- The lines of a fact behind its first one. -/
def laterLines (f : Fact) : List (List Char) := (factLines f).tail

lemma isLineBreak_of_isIdChar {c : Char} (h : IsIdChar c) : isLineBreak c = false := by
  have hrange := Finset.mem_Icc.mp h.toNat_mem
  simp only [isLineBreak, List.mem_cons, List.not_mem_nil, or_false, decide_eq_false_iff_not, not_or]
  refine ⟨?_, ?_, ?_, ?_, ?_, ?_, ?_, ?_, ?_, ?_⟩ <;> rintro rfl <;> exact absurd hrange (by decide)

lemma factHead_solid {f : Fact} (h : Stored f) : ∀ c ∈ factHead f, isLineBreak c = false := by
  have hid : ∀ c ∈ f.componentId.toList, isLineBreak c = false :=
    fun c hc => isLineBreak_of_isIdChar ((isIdChar_of_valid h.valid h.oneLine).2 c hc)
  have hscopes : ∀ scope ∈ validScopes, ∀ c ∈ scope.toList, isLineBreak c = false := by decide
  have hconfidences : ∀ confidence ∈ validConfidences, ∀ c ∈ confidence.toList, isLineBreak c = false := by decide
  simp only [factHead, List.forall_mem_append, List.forall_mem_cons]
  exact ⟨by decide, hid, by decide, hscopes _ h.scope, by decide, by decide, by decide,
    hconfidences _ h.confidence, by decide, by decide, List.forall_mem_nil _⟩

/-- The first line of a fact has what stands before its claim. -/
lemma factLines_eq {f : Fact} (h : Stored f) : ∃ first later, splitlines (factText f ++ ['\n']) = first :: later ∧
    factLines f = (factHead f ++ first) :: later := by
  obtain ⟨first, later, hread, hline⟩ :=
    TextLines.splitFrom_append (factHead f) (List.append_ne_nil_of_right_ne_nil (factText f) (List.cons_ne_nil '\n' []))
  refine ⟨first, later, hread, ?_⟩
  rw [factLines, factLine_eq h, List.append_assoc, splitlines, TextLines.splitFrom_solid (factHead_solid h), List.nil_append,
    hline]

/-! ### The claim on the first line -/

lemma behind_append (mark : String) (rest : List Char) : behind mark (mark.toList ++ rest) = some rest := by
  rw [behind, if_pos (List.isPrefixOf_iff_prefix.mpr (List.prefix_append _ _)), List.drop_left]

lemma behindRun_append {stop : Char} {run rest : List Char} (hne : run ≠ []) (hrun : stop ∉ run)
    (hrest : rest.head? = some stop) : behindRun stop (run ++ rest) = some rest := by
  have hkeep : ∀ c ∈ run, decide (c ≠ stop) = true := fun c hc => decide_eq_true fun heq => hrun (heq ▸ hc)
  cases rest with
  | nil => cases hrest
  | cons c rest =>
      obtain rfl := Option.some.inj hrest
      rw [behindRun, List.takeWhile_append_of_pos hkeep, List.dropWhile_append_of_pos hkeep,
        List.takeWhile_cons_of_neg (by simp), List.dropWhile_cons_of_neg (by simp), List.append_nil, if_neg hne]

lemma behindBlanks_space {rest : List Char} (h : ∀ c ∈ rest.head?, isSpace c = false) :
    behindBlanks (' ' :: rest) = some rest := by
  have hstop : rest.dropWhile isSpace = rest := by
    cases rest with
    | nil => rfl
    | cons c rest => exact List.dropWhile_cons_of_neg (by rw [h c rfl]; decide)
  rw [behindBlanks, List.takeWhile_cons_of_pos (by decide), List.dropWhile_cons_of_pos (by decide), hstop,
    if_neg (List.cons_ne_nil _ _)]

/-- The first line of a fact is read as the claim at its start. -/
lemma readLine_factHead {f : Fact} (h : Stored f) {first : List Char} (hhead : ∀ c ∈ first.head?, isSpace c = false)
    (hclaim : stripped (claimEnd first) ≠ []) : readLine (factHead f ++ first) = .claim (stripped (claimEnd first)) := by
  obtain ⟨hne, hid⟩ := isIdChar_of_valid h.valid h.oneLine
  have hstar : '*' ∉ f.componentId.toList := fun hmem => absurd (hid _ hmem) (by decide)
  have hscopes : ∀ scope ∈ validScopes, scope.toList ≠ [] ∧ ']' ∉ scope.toList := by decide
  have hconfidences : ∀ confidence ∈ validConfidences, confidence.toList ≠ [] ∧ '\x7d' ∉ confidence.toList := by decide
  obtain ⟨hscope, hbracket⟩ := hscopes _ h.scope
  obtain ⟨hconfidence, hbrace⟩ := hconfidences _ h.confidence
  have hdrop : (' ' :: first).dropWhile isSpace = first := by
    rw [List.dropWhile_cons_of_pos (by decide)]
    cases first with
    | nil => rfl
    | cons c rest => exact List.dropWhile_cons_of_neg (by rw [hhead c rfl]; decide)
  have htitle : sectionTitle? (factHead f ++ first) = none := by
    rw [sectionTitle?, behind, if_neg]
    rw [factHead, List.append_assoc]
    exact Bool.false_ne_true
  have hcomponent : ∀ rest, behindRun '*' (f.componentId.toList ++ ("**[".toList ++ rest)) = some ("**[".toList ++ rest) :=
    fun _ => behindRun_append hne hstar rfl
  have hscopeEnd : ∀ rest, behindRun ']' (f.scope.toList ++ ("]".toList ++ rest)) = some ("]".toList ++ rest) :=
    fun _ => behindRun_append hscope hbracket rfl
  have hblank : ∀ rest, behindBlanks (' ' :: ("\x7b".toList ++ rest)) = some ("\x7b".toList ++ rest) := by
    refine fun rest => behindBlanks_space fun c hc => ?_
    obtain rfl := Option.some.inj hc
    decide
  have hconfidenceEnd : ∀ rest, behindRun '\x7d' (f.confidence.toList ++ ("\x7d:".toList ++ rest)) =
      some ("\x7d:".toList ++ rest) := fun _ => behindRun_append hconfidence hbrace rfl
  have hread : prefixClaim? (factHead f ++ first) = some (stripped (claimEnd first)) := by
    simp only [prefixClaim?, factHead, List.append_assoc, List.cons_append, List.nil_append, behind_append, hcomponent,
      hscopeEnd, hblank, hconfidenceEnd, Option.bind_eq_bind, Option.bind_some, hdrop, if_neg hclaim]
  rw [readLine, htitle, hread]

lemma prefix_append_cons {p a m : List Char} {c : Char} (hc : c ∉ p) : p <+: a ++ c :: m ↔ p <+: a := by
  constructor
  · intro h
    rcases List.prefix_or_prefix_of_prefix h (List.prefix_append a (c :: m)) with hp | ⟨s, rfl⟩
    · exact hp
    · cases s with
      | nil => rw [List.append_nil]
      | cons d s =>
          have hd : d = c := (List.cons_prefix_cons.mp ((List.prefix_append_right_inj a).mp h)).1
          exact absurd (List.mem_append_right a (hd ▸ List.mem_cons_self)) hc
  · exact fun h => h.trans (List.prefix_append _ _)

/-- Up to the mark of the evidence behind a claim: the claim, unless it holds the mark behind its first character. -/
lemma claimEnd_append {claim : List Char} (hne : claim ≠ []) (hlast : ∀ c ∈ claim.getLast?, isSpace c = false)
    (more : List Char) :
    (evidenceMark <:+: claim.tail → (claimEnd (claim ++ ' ' :: (evidenceMark ++ more))).length < claim.length) ∧
      (¬evidenceMark <:+: claim.tail → claimEnd (claim ++ ' ' :: (evidenceMark ++ more)) = claim) := by
  induction claim with
  | nil => exact absurd rfl hne
  | cons c rest ih =>
      by_cases hrest : rest = []
      · subst hrest
        refine ⟨fun h => absurd (List.infix_nil.mp h) (by decide), fun _ => ?_⟩
        have hmark : (' ' :: (evidenceMark ++ more)).dropWhile isSpace = evidenceMark ++ more := rfl
        rw [List.singleton_append, claimEnd, hmark, if_pos]
        exact Or.inr (List.isPrefixOf_iff_prefix.mpr (List.prefix_append _ _))
      · have hlast' : ∀ c ∈ rest.getLast?, isSpace c = false := by rwa [List.getLast?_cons_of_ne_nil hrest] at hlast
        obtain ⟨hmarked, hunmarked⟩ := ih hrest hlast'
        have hsome : rest.dropWhile isSpace ≠ [] := by
          intro hnil
          obtain ⟨d, hd⟩ := Option.ne_none_iff_exists'.mp (mt List.getLast?_eq_none_iff.mp hrest)
          have hblank := List.dropWhile_eq_nil_iff.mp hnil d (List.mem_of_getLast? hd)
          rw [hlast' d hd] at hblank
          cases hblank
        have hnext : (rest ++ ' ' :: (evidenceMark ++ more)).dropWhile isSpace =
            rest.dropWhile isSpace ++ ' ' :: (evidenceMark ++ more) := by
          rw [List.dropWhile_append, if_neg (by simpa using hsome)]
        have hstop : (rest.dropWhile isSpace ++ ' ' :: (evidenceMark ++ more) = [] ∨
            evidenceMark.isPrefixOf (rest.dropWhile isSpace ++ ' ' :: (evidenceMark ++ more)) = true) ↔
              evidenceMark <+: rest.dropWhile isSpace := by
          rw [List.isPrefixOf_iff_prefix, prefix_append_cons (by decide), or_iff_right]
          exact List.append_ne_nil_of_left_ne_nil hsome _
        have hmark : evidenceMark <:+: rest ↔ evidenceMark <+: rest.dropWhile isSpace ∨ evidenceMark <:+: rest.tail := by
          constructor
          · intro h
            cases rest with
            | nil => exact absurd rfl hrest
            | cons d rest =>
                rcases List.infix_cons_iff.mp h with hfront | hinside
                · have hd : d = '(' := (List.cons_prefix_cons.mp hfront).1.symm
                  rw [List.dropWhile_cons_of_neg (by rw [hd]; decide)]
                  exact Or.inl hfront
                · exact Or.inr hinside
          · rintro (h | h)
            · exact h.isInfix.trans (List.dropWhile_suffix isSpace).isInfix
            · exact h.trans (List.tail_suffix rest).isInfix
        rw [List.cons_append, claimEnd, hnext, List.tail_cons]
        simp only [hstop, hmark]
        split_ifs with hhere
        · refine ⟨fun _ => ?_, fun h => absurd (Or.inl hhere) h⟩
          rw [List.length_singleton, List.length_cons]
          exact Nat.succ_lt_succ (List.length_pos_iff.mpr hrest)
        · refine ⟨fun h => ?_, fun h => ?_⟩
          · rw [List.length_cons, List.length_cons]
            exact Nat.succ_lt_succ (hmarked (h.resolve_left hhere))
          · rw [hunmarked fun hin => h (Or.inr hin)]

lemma claimEnd_front (text : List Char) : claimEnd text <+: text := by
  induction text with
  | nil => exact List.prefix_rfl
  | cons c rest ih =>
      rw [claimEnd]
      split_ifs
      · exact ⟨rest, rfl⟩
      · exact List.cons_prefix_cons.mpr ⟨rfl, ih⟩

lemma claimEnd_cons (c : Char) (rest : List Char) : (claimEnd (c :: rest)).head? = some c := by
  rw [claimEnd]
  split_ifs <;> rfl

/-- The first line behind some characters that are no line breaks. -/
lemma splitlines_solid {row : List Char} (hrow : ∀ c ∈ row, isLineBreak c = false) {text : List Char} (h : text ≠ []) :
    ∃ first later, splitlines (row ++ text) = (row ++ first) :: later := by
  obtain ⟨first, later, -, hline⟩ := TextLines.splitFrom_append row h
  exact ⟨first, later, by rw [splitlines, TextLines.splitFrom_solid hrow, List.nil_append, hline]⟩

/-- A claim is one line, and does not look like its end inside. -/
def OneLine (f : Fact) : Prop := (∀ c ∈ f.claim.toList, isLineBreak c = false) ∧ ¬evidenceMark <:+: f.claim.toList.tail

lemma factText_eq (f : Fact) : factText f ++ ['\n'] = (f.claim.toList ++ ' ' :: evidenceMark) ++
    (' ' :: (", ".intercalate f.evidence).toList ++ [')', '\n']) := by
  rw [factText]
  generalize (", ".intercalate f.evidence).toList = evidence
  simp only [List.append_assoc, List.cons_append, List.nil_append]

/-- The first line begins as the claim does. -/
lemma head_first {f : Fact} (h : Stored f) {first : List Char} {later : List (List Char)}
    (htext : splitlines (factText f ++ ['\n']) = first :: later) : first.head? = f.claim.toList.head? := by
  obtain ⟨c, rest, hclaim⟩ := List.exists_cons_of_ne_nil h.claim_ne
  have hc : isSpace c = false := h.claim_trimmed.head c (by rw [hclaim]; rfl)
  have hrow : ∀ d ∈ [c], isLineBreak d = false := List.forall_mem_singleton.mpr (isLineBreak_of_not_isSpace hc)
  obtain ⟨next, later', hnext⟩ := splitlines_solid hrow (List.append_ne_nil_of_right_ne_nil (rest ++ ' ' :: evidenceMark)
    (List.append_ne_nil_of_right_ne_nil (' ' :: (", ".intercalate f.evidence).toList) (List.cons_ne_nil ')' ['\n'])))
  rw [factText_eq, hclaim, List.cons_append, List.cons_append, ← List.singleton_append, hnext] at htext
  rw [← (List.cons.inj htext).1, hclaim]
  rfl

/-- The first line has a claim of one line, and the mark behind it. -/
lemma first_eq {f : Fact} (hone : ∀ c ∈ f.claim.toList, isLineBreak c = false) {first : List Char}
    {later : List (List Char)} (htext : splitlines (factText f ++ ['\n']) = first :: later) :
    ∃ more, first = f.claim.toList ++ ' ' :: (evidenceMark ++ more) := by
  have hrow : ∀ c ∈ f.claim.toList ++ ' ' :: evidenceMark, isLineBreak c = false := by
    rw [List.forall_mem_append]
    exact ⟨hone, by decide⟩
  obtain ⟨next, later', hnext⟩ := splitlines_solid hrow
    (List.append_ne_nil_of_right_ne_nil (' ' :: (", ".intercalate f.evidence).toList) (List.cons_ne_nil ')' ['\n']))
  rw [factText_eq, hnext] at htext
  refine ⟨next, ?_⟩
  rw [← (List.cons.inj htext).1, List.append_assoc, List.cons_append]

/-- **The lines of a fact** are read as one claim and what its later lines are read as. -/
lemma factLines_read {f : Fact} (h : Stored f) : ∃ text,
    (∀ tier, claimsFrom tier (factLines f) = (text, tier) :: claimsFrom tier (laterLines f)) ∧
      (∀ tier, tierAfter tier (factLines f) = tierAfter tier (laterLines f)) ∧ (text = f.claim.toList ↔ OneLine f) := by
  obtain ⟨first, later, htext, hlines⟩ := factLines_eq h
  have hlater : laterLines f = later := by rw [laterLines, hlines, List.tail_cons]
  have hsolid : ∀ c ∈ first, isLineBreak c = false := by
    have hmem : first ∈ splitlines (factText f ++ ['\n']) := by
      rw [htext]
      exact List.mem_cons_self
    exact TextLines.not_isLineBreak_of_mem (show ∀ c ∈ ([] : List Char), isLineBreak c = false by simp) first hmem
  obtain ⟨c, rest, hfirst⟩ := List.exists_cons_of_ne_nil (l := first) fun hnil => h.claim_ne
    (List.head?_eq_none_iff.mp (by rw [← head_first h htext, hnil]; rfl))
  have hc : isSpace c = false := h.claim_trimmed.head c (by rw [← head_first h htext, hfirst]; rfl)
  have hhead : ∀ d ∈ (claimEnd first).head?, isSpace d = false := by
    intro d hd
    rw [hfirst, claimEnd_cons] at hd
    rwa [← Option.some.inj hd]
  have hstripped : stripped (claimEnd first) = trimEnd (claimEnd first) := PyText.stripped_of_head hhead
  have hne : stripped (claimEnd first) ≠ [] := by
    rw [hstripped, ne_eq, PyText.trimEnd_eq_nil_iff]
    intro hblank
    have hmem : c ∈ claimEnd first := List.mem_of_head? (by rw [hfirst, claimEnd_cons])
    rw [hblank c hmem] at hc
    cases hc
  have hstart : ∀ d ∈ first.head?, isSpace d = false := by
    intro d hd
    rw [hfirst, List.head?_cons] at hd
    rw [← Option.some.inj hd]
    exact hc
  have hread := readLine_factHead h hstart hne
  refine ⟨stripped (claimEnd first), fun tier => ?_, fun tier => ?_, ?_⟩
  · rw [hlines, hlater, claimsFrom, hread]
  · rw [hlines, hlater, tierAfter, hread]
  rw [hstripped]
  by_cases hone : ∀ d ∈ f.claim.toList, isLineBreak d = false
  · obtain ⟨more, hmore⟩ := first_eq hone htext
    obtain ⟨hmarked, hunmarked⟩ := claimEnd_append h.claim_ne h.claim_trimmed.last more
    rw [← hmore] at hmarked hunmarked
    by_cases hmark : evidenceMark <:+: f.claim.toList.tail
    · refine ⟨fun heq => ?_, fun hread => absurd hmark hread.2⟩
      have hlength := (PyText.trimEnd_prefix (claimEnd first)).length_le
      rw [heq] at hlength
      exact absurd (hmarked hmark) (not_lt.mpr hlength)
    · rw [hunmarked hmark, h.claim_trimmed.trimEnd_eq]
      exact iff_of_true rfl ⟨hone, hmark⟩
  · refine ⟨fun heq => absurd (fun d hd => ?_) hone, fun hread => absurd hread.1 hone⟩
    have hmem : d ∈ claimEnd first := (PyText.trimEnd_prefix _).subset (heq ▸ hd)
    exact hsolid d ((claimEnd_front first).subset hmem)

/-! ## The facts of a section -/

/-- A fact that is read back as it was rendered: a claim of one line, and no claim on the lines behind it. -/
structure Legible (f : Fact) : Prop where
  oneLine : OneLine f
  single : ∀ line ∈ laterLines f, ∀ text, readLine line ≠ .claim text

/-- The facts of a tier that are read back: none but the last has a heading of another tier in its evidence. -/
structure LegibleSection (tier : Tier) (facts : List Fact) : Prop where
  legible : ∀ f ∈ facts, Legible f
  keepsTier : ∀ f ∈ facts.dropLast, tierAfter (some tier) (laterLines f) = some tier

/-- The claims of facts, under a tier. -/
def entries (tier : Tier) (facts : List Fact) : List (List Char × Option Tier) :=
  facts.map fun f => (f.claim.toList, some tier)

lemma append_eq_append_iff_of_le {α : Type} {a b c d : List α} (hac : c.length ≤ a.length) (hbd : d.length ≤ b.length) :
    a ++ b = c ++ d ↔ a = c ∧ b = d := by
  constructor
  · intro h
    have hlength := congrArg List.length h
    rw [List.length_append, List.length_append] at hlength
    exact List.append_inj h (by omega)
  · rintro ⟨rfl, rfl⟩
    rfl

/-- No fact is lost. -/
lemma length_claimsFrom {facts : List Fact} (h : ∀ f ∈ facts, Stored f) (tier : Option Tier) :
    facts.length ≤ (claimsFrom tier (facts.flatMap factLines)).length := by
  induction facts generalizing tier with
  | nil => exact Nat.zero_le _
  | cons f facts ih =>
      obtain ⟨hf, hfacts⟩ := List.forall_mem_cons.mp h
      obtain ⟨text, hread, -, -⟩ := factLines_read hf
      have hrest := ih hfacts (tierAfter tier (factLines f))
      rw [List.flatMap_cons, claimsFrom_append, hread, List.length_append, List.length_cons, List.length_cons]
      omega

/-- The first claim of some facts is under the tier before them. -/
lemma tier_of_entries {facts : List Fact} (h : ∀ f ∈ facts, Stored f) (hne : facts ≠ []) {tier : Tier}
    {before : Option Tier} (heq : claimsFrom before (facts.flatMap factLines) = entries tier facts) :
    before = some tier := by
  cases facts with
  | nil => exact absurd rfl hne
  | cons f facts =>
      obtain ⟨text, hread, -, -⟩ := factLines_read (h f List.mem_cons_self)
      rw [List.flatMap_cons, claimsFrom_append, hread, List.cons_append] at heq
      exact (Prod.mk.inj (List.cons.inj heq).1).2

/-- **The claims of a section** are read back exactly when its facts are legible. -/
theorem claimsFrom_section_iff {facts : List Fact} (h : ∀ f ∈ facts, Stored f) (tier : Tier) :
    claimsFrom (some tier) (facts.flatMap factLines) = entries tier facts ↔ LegibleSection tier facts := by
  induction facts with
  | nil => exact iff_of_true rfl ⟨nofun, nofun⟩
  | cons f facts ih =>
      obtain ⟨hf, hfacts⟩ := List.forall_mem_cons.mp h
      obtain ⟨text, hread, htier, htext⟩ := factLines_read hf
      have hsplit : claimsFrom (some tier) ((f :: facts).flatMap factLines) = entries tier (f :: facts) ↔
          Legible f ∧ claimsFrom (tierAfter (some tier) (laterLines f)) (facts.flatMap factLines) = entries tier facts := by
        have hentries : entries tier (f :: facts) = [(f.claim.toList, some tier)] ++ entries tier facts := rfl
        rw [List.flatMap_cons, claimsFrom_append, hread, htier, hentries, append_eq_append_iff_of_le]
        · rw [List.cons.injEq, Prod.mk.injEq, claimsFrom_eq_nil, htext]
          exact and_congr_left' ⟨fun ⟨⟨hone, _⟩, hsingle⟩ => ⟨hone, hsingle⟩, fun hf => ⟨⟨hf.oneLine, rfl⟩, hf.single⟩⟩
        · exact Nat.succ_le_succ (Nat.zero_le _)
        · rw [entries, List.length_map]
          exact length_claimsFrom hfacts _
      rw [hsplit]
      cases facts with
      | nil => exact ⟨fun ⟨hf, _⟩ => ⟨List.forall_mem_singleton.mpr hf, nofun⟩, fun hs => ⟨hs.legible f List.mem_cons_self, rfl⟩⟩
      | cons g facts =>
          constructor
          · rintro ⟨hlegible, hrest⟩
            have hkeeps := tier_of_entries hfacts (List.cons_ne_nil g facts) hrest
            rw [hkeeps] at hrest
            obtain ⟨hall, hlast⟩ := (ih hfacts).mp hrest
            exact ⟨List.forall_mem_cons.mpr ⟨hlegible, hall⟩, List.forall_mem_cons.mpr ⟨hkeeps, hlast⟩⟩
          · rintro ⟨hall, hlast⟩
            obtain ⟨hlegible, hall⟩ := List.forall_mem_cons.mp hall
            obtain ⟨hkeeps, hlast⟩ := List.forall_mem_cons.mp hlast
            rw [hkeeps]
            exact ⟨hlegible, (ih hfacts).mpr ⟨hall, hlast⟩⟩

/-! ## The parts of the text -/

/-- The lines of the parts, each ended by a line feed. -/
def linesOf (parts : List (List Char)) : List (List Char) := parts.flatMap fun part => splitlines (part ++ ['\n'])

/-- Parts that end with one that ends in a visible character, and a blank one. -/
def EndsVisibly (parts : List (List Char)) : Prop :=
  ∃ front last c, parts = front ++ [last ++ [c], []] ∧ isSpace c = false

lemma EndsVisibly.append {a b : List (List Char)} (ha : EndsVisibly a) (hb : b = [] ∨ EndsVisibly b) : EndsVisibly (a ++ b) := by
  rcases hb with rfl | ⟨front, last, c, rfl, hc⟩
  · rwa [List.append_nil]
  · exact ⟨a ++ front, last, c, (List.append_assoc _ _ _).symm, hc⟩

lemma intercalate_concat (front : List (List Char)) (last : List Char) : ∃ before,
    ['\n'].intercalate (front ++ [last]) = before ++ last ∧
      ['\n'].intercalate (front ++ [last, []]) = before ++ last ++ ['\n'] := by
  induction front with
  | nil => exact ⟨[], by simp, by simp⟩
  | cons part front ih =>
      obtain ⟨before, hshort, hlong⟩ := ih
      refine ⟨part ++ '\n' :: before, ?_, ?_⟩
      · rw [List.cons_append, List.intercalate_cons_of_ne_nil (by simp), hshort]
        simp
      · rw [List.cons_append, List.intercalate_cons_of_ne_nil (by simp), hlong]
        simp

/-- Without the blank part at the end. -/
lemma splitlines_trimEnd {parts : List (List Char)} (h : EndsVisibly parts) :
    splitlines (trimEnd (['\n'].intercalate parts) ++ ['\n']) ++ [[]] = linesOf parts := by
  obtain ⟨front, last, c, rfl, hc⟩ := h
  obtain ⟨before, hshort, hlong⟩ := intercalate_concat front (last ++ [c])
  have htrim : trimEnd (['\n'].intercalate (front ++ [last ++ [c], []])) = ['\n'].intercalate (front ++ [last ++ [c]]) := by
    have hstop : ∀ d ∈ (before ++ (last ++ [c])).getLast?, isSpace d = false := by
      intro d hd
      rw [← List.append_assoc, List.getLast?_concat] at hd
      rw [← Option.some.inj hd]
      exact hc
    rw [hlong, hshort, PyText.trimEnd_append_stop hstop]
    exact List.append_nil _
  have hblank : linesOf [[]] = [[]] := by decide
  have hsplit : linesOf (front ++ [last ++ [c], []]) = linesOf (front ++ [last ++ [c]]) ++ [[]] := by
    rw [← hblank, linesOf, linesOf, linesOf, ← List.flatMap_append, List.append_assoc]
    rfl
  rw [htrim, hsplit]
  cases front with
  | nil => exact congrArg (· ++ [[]]) (TextLines.splitlines_join (last ++ [c]) [])
  | cons part front => exact congrArg (· ++ [[]]) (TextLines.splitlines_join part (front ++ [last ++ [c]]))

/-! ### What the parts are read as -/

lemma claimsFrom_blank (tier : Option Tier) (lines : List (List Char)) :
    claimsFrom tier (lines ++ [[]]) = claimsFrom tier lines := by
  have hblank : ∀ tier, claimsFrom tier [[]] = [] := fun _ => rfl
  rw [claimsFrom_append, hblank, List.append_nil]

/-- A heading is read as its title. -/
lemma sectionTitle?_heading {title : List Char} (hhead : ∀ c ∈ title.head?, isSpace c = false)
    (hlast : ∀ c ∈ title.getLast?, isSpace c = false) (hne : title ≠ []) :
    sectionTitle? ("### ".toList ++ title) = some title := by
  have hbehind : behind "###" ("### ".toList ++ title) = some (' ' :: title) := behind_append "###" (' ' :: title)
  have hstop : title.takeWhile isSpace = [] ∧ title.dropWhile isSpace = title := by
    cases title with
    | nil => exact ⟨rfl, rfl⟩
    | cons c rest =>
        have hc : ¬isSpace c = true := by rw [hhead c rfl]; decide
        exact ⟨List.takeWhile_cons_of_neg hc, List.dropWhile_cons_of_neg hc⟩
  have htrim : trimEnd title = title := Trimmed.trimEnd_eq ⟨hhead, hlast⟩
  simp only [sectionTitle?, hbehind, List.takeWhile_cons_of_pos (show isSpace ' ' = true by decide),
    List.dropWhile_cons_of_pos (show isSpace ' ' = true by decide), hstop, htrim, if_neg hne, if_neg (List.cons_ne_nil _ _)]

/-- The heading of a tier is a line of its own. -/
lemma readLine_title {componentId : String} (hvalid : validateComponentId componentId = none)
    (hline : '\n' ∉ componentId.toList) (tier : Tier) :
    splitlines (("### " ++ tier.title componentId).toList ++ ['\n']) = [("### " ++ tier.title componentId).toList] ∧
      readLine ("### " ++ tier.title componentId).toList = .heading (some tier) := by
  cases tier with
  | core =>
      have htitle : ("### " ++ Tier.core.title componentId).toList =
          "### ".toList ++ (coreSectionPrefix.toList ++ (componentId.toList ++ [')'])) := by
        simp only [Tier.title, coreSectionTitle, String.toList_append, List.append_assoc]
        rfl
      have hsolid : ∀ c ∈ "### ".toList ++ (coreSectionPrefix.toList ++ (componentId.toList ++ [')'])),
          isLineBreak c = false := by
        simp only [List.forall_mem_append]
        exact ⟨by decide, by decide, fun c hc => isLineBreak_of_isIdChar ((isIdChar_of_valid hvalid hline).2 c hc), by decide⟩
      have hlast : ∀ c ∈ (coreSectionPrefix.toList ++ (componentId.toList ++ [')'])).getLast?, isSpace c = false := by
        intro c hc
        rw [← List.append_assoc, List.getLast?_concat] at hc
        rw [← Option.some.inj hc]
        decide
      have hhead : ∀ c ∈ (coreSectionPrefix.toList ++ (componentId.toList ++ [')'])).head?, isSpace c = false := by
        rw [List.head?_append_of_ne_nil _ (by decide)]
        decide
      rw [htitle]
      constructor
      · rw [splitlines, TextLines.splitFrom_row hsolid, List.nil_append, splitFrom, if_pos rfl]
      · rw [readLine, sectionTitle?_heading hhead hlast (List.append_ne_nil_of_left_ne_nil (by decide) _)]
        have htier : tierForSection (coreSectionPrefix.toList ++ (componentId.toList ++ [')'])) = some .core :=
          if_pos (List.isPrefixOf_iff_prefix.mpr (List.prefix_append _ _))
        simp only [htier]
  | dependency =>
      exact show splitlines (("### " ++ dependencySectionTitle).toList ++ ['\n']) =
          [("### " ++ dependencySectionTitle).toList] ∧
        readLine ("### " ++ dependencySectionTitle).toList = .heading (some .dependency) by decide +kernel
  | sibling =>
      exact show splitlines (("### " ++ siblingSectionTitle).toList ++ ['\n']) = [("### " ++ siblingSectionTitle).toList] ∧
        readLine ("### " ++ siblingSectionTitle).toList = .heading (some .sibling) by decide +kernel

lemma factLine_last {f : Fact} (h : Stored f) : ∃ front, factLine f = front ++ [')'] := by
  refine ⟨factHead f ++ (f.claim.toList ++ (' ' :: evidenceMark ++ ' ' :: (", ".intercalate f.evidence).toList)), ?_⟩
  rw [factLine_eq h, factText]
  simp only [List.append_assoc, List.cons_append]

lemma section_last (title : List Char) {facts : List Fact} (h : ∀ f ∈ facts, Stored f) (hne : facts ≠ []) :
    ∃ front, ['\n'].intercalate (title :: facts.map factLine) = front ++ [')'] := by
  obtain ⟨before, hshort, -⟩ := intercalate_concat (title :: facts.dropLast.map factLine) (factLine (facts.getLast hne))
  obtain ⟨front, hlast⟩ := factLine_last (h _ (List.getLast_mem hne))
  have hfacts : title :: facts.map factLine = title :: facts.dropLast.map factLine ++ [factLine (facts.getLast hne)] := by
    rw [List.cons_append, ← List.map_singleton, ← List.map_append, List.dropLast_append_getLast]
  refine ⟨before ++ front, ?_⟩
  rw [hfacts, hshort, hlast, List.append_assoc]

lemma section_endsVisibly (title : String) {facts : List Fact} (h : ∀ f ∈ facts, Stored f) :
    withBlank (formatSection title facts) = [] ∨ EndsVisibly (withBlank (formatSection title facts)) := by
  rw [formatSection]
  split_ifs with hempty
  · exact Or.inl rfl
  · obtain ⟨front, hlast⟩ := section_last ("### " ++ title).toList h hempty
    refine Or.inr ⟨[], front, ')', ?_, by decide⟩
    rw [hlast, withBlank, if_neg (by simp), List.nil_append]

/-- **What a section is read as**: its heading gives the tier of its facts. -/
lemma claimsFrom_withBlank {componentId : String} (hvalid : validateComponentId componentId = none)
    (hline : '\n' ∉ componentId.toList) (tier : Tier) {facts : List Fact} (h : ∀ f ∈ facts, Stored f)
    (before : Option Tier) : claimsFrom before (linesOf (withBlank (formatSection (tier.title componentId) facts))) =
      claimsFrom (some tier) (facts.flatMap factLines) := by
  rw [formatSection]
  split_ifs with hempty
  · subst hempty
    rfl
  · obtain ⟨htitle, hread⟩ := readLine_title hvalid hline tier
    have hne : ['\n'].intercalate (("### " ++ tier.title componentId).toList :: facts.map factLine) ≠ [] := by
      obtain ⟨front, hlast⟩ := section_last ("### " ++ tier.title componentId).toList h hempty
      rw [hlast]
      simp
    have hlines : linesOf (withBlank (['\n'].intercalate (("### " ++ tier.title componentId).toList :: facts.map factLine))) =
        (("### " ++ tier.title componentId).toList :: facts.flatMap factLines) ++ [[]] := by
      rw [withBlank, if_neg hne, linesOf, List.flatMap_cons, TextLines.splitlines_join, List.flatMap_cons, htitle,
        List.flatMap_map]
      rfl
    rw [hlines, claimsFrom_blank, claimsFrom, hread]

/-- The text before the sections and the note behind them hold no claim. -/
lemma claimsFrom_prompt (lines : List (List Char)) :
    claimsFrom none (linesOf [knowledgeContextPrompt.toList, []] ++ lines) = claimsFrom none lines := by
  have hprompt : claimsFrom none (linesOf [knowledgeContextPrompt.toList, []]) = [] ∧
      tierAfter none (linesOf [knowledgeContextPrompt.toList, []]) = none := by decide +kernel
  rw [claimsFrom_append, hprompt.1, hprompt.2, List.nil_append]

lemma overflowNote_cases (config : KnowledgeConfig) (tiers : Tier → List Fact) :
    (overflowNote config tiers = [] ∨ EndsVisibly (overflowNote config tiers)) ∧
      ∀ tier, claimsFrom tier (linesOf (overflowNote config tiers)) = [] := by
  have hnotes : ∀ omitted ∈ factTiers.sublists, omitted ≠ [] →
      splitlines ((knowledgeOverflowPrompt (omitted.map Tier.name)).toList ++ ['\n']) =
          [(knowledgeOverflowPrompt (omitted.map Tier.name)).toList] ∧
        readLine (knowledgeOverflowPrompt (omitted.map Tier.name)).toList = .other ∧
        (knowledgeOverflowPrompt (omitted.map Tier.name)).toList.getLast? = some '*' := by decide +kernel
  have hover : factTiers.filter (fun tier => (tier.pack config (tiers tier)).2) ∈ factTiers.sublists :=
    List.mem_sublists.mpr List.filter_sublist
  rw [overflowNote, overflowFlags]
  split_ifs with hempty
  · exact ⟨Or.inl rfl, fun _ => rfl⟩
  · obtain ⟨hline, hread, hlast⟩ := hnotes _ hover (mt List.map_eq_nil_iff.mpr hempty)
    constructor
    · obtain ⟨front, hfront⟩ := List.getLast?_eq_some_iff.mp hlast
      exact Or.inr ⟨[], front, '*', by rw [hfront, List.nil_append], by decide⟩
    · intro tier
      have hlines : linesOf [(knowledgeOverflowPrompt ((factTiers.filter fun tier =>
          (tier.pack config (tiers tier)).2).map Tier.name)).toList, []] =
            [(knowledgeOverflowPrompt ((factTiers.filter fun tier =>
              (tier.pack config (tiers tier)).2).map Tier.name)).toList] ++ [[]] := by
        rw [linesOf, List.flatMap_cons, hline]
        rfl
      rw [hlines, claimsFrom_blank, claimsFrom, hread]
      rfl

/-- The claims of all sections. -/
lemma claimsFrom_sections {componentId : String} (hvalid : validateComponentId componentId = none)
    (hline : '\n' ∉ componentId.toList) {facts : Tier → List Fact} (h : ∀ tier, ∀ f ∈ facts tier, Stored f)
    {note : List (List Char)} (hnote : ∀ tier, claimsFrom tier note = []) (order : List Tier) (before : Option Tier) :
    claimsFrom before (linesOf (order.flatMap fun tier => withBlank (formatSection (tier.title componentId) (facts tier))) ++
      note) = order.flatMap fun tier => claimsFrom (some tier) ((facts tier).flatMap factLines) := by
  induction order generalizing before with
  | nil => exact hnote before
  | cons tier order ih =>
      rw [List.flatMap_cons, List.flatMap_cons, linesOf, List.flatMap_append, ← linesOf, ← linesOf, List.append_assoc,
        claimsFrom_append, claimsFrom_withBlank hvalid hline tier (h tier), ih]

/-- The sections are read back one by one. -/
lemma sections_iff {facts : Tier → List Fact} (h : ∀ tier, ∀ f ∈ facts tier, Stored f) (order : List Tier) :
    (order.flatMap fun tier => claimsFrom (some tier) ((facts tier).flatMap factLines)) =
        order.flatMap (fun tier => entries tier (facts tier)) ↔
      ∀ tier ∈ order, LegibleSection tier (facts tier) := by
  have hlength : ∀ tier, (entries tier (facts tier)).length ≤
      (claimsFrom (some tier) ((facts tier).flatMap factLines)).length := by
    intro tier
    rw [entries, List.length_map]
    exact length_claimsFrom (h tier) _
  have hlengths : ∀ order : List Tier, (order.flatMap fun tier => entries tier (facts tier)).length ≤
      (order.flatMap fun tier => claimsFrom (some tier) ((facts tier).flatMap factLines)).length := by
    intro order
    induction order with
    | nil => exact le_rfl
    | cons tier order ih =>
        simp only [List.flatMap_cons, List.length_append]
        exact Nat.add_le_add (hlength tier) ih
  induction order with
  | nil => exact iff_of_true rfl nofun
  | cons tier order ih =>
      rw [List.flatMap_cons, List.flatMap_cons, append_eq_append_iff_of_le (hlength tier) (hlengths order),
        List.forall_mem_cons]
      exact and_congr (claimsFrom_section_iff (h tier) tier) ih

/-- **The claims and tiers that are read back** are those that were rendered exactly when the facts of each tier are
    legible. -/
theorem extractPrefixClaims_iff {componentId : String} (hvalid : validateComponentId componentId = none)
    (hline : '\n' ∉ componentId.toList) (config : KnowledgeConfig) {tiers : Tier → List Fact}
    (h : ∀ tier, ∀ f ∈ tiers tier, Stored f) :
    extractPrefixClaims (buildKnowledgeContext componentId config tiers) =
        factTiers.flatMap (fun tier => entries tier (keptFacts config tiers tier)) ↔
      ∀ tier ∈ factTiers, LegibleSection tier (keptFacts config tiers tier) := by
  have hkept := keptFacts_stored config h
  rw [buildKnowledgeContext]
  split_ifs with hempty
  · have hentries : factTiers.flatMap (fun tier => entries tier (keptFacts config tiers tier)) = [] :=
      List.flatMap_eq_nil_iff.mpr fun tier htier => by rw [hempty tier htier]; rfl
    rw [hentries]
    exact iff_of_true rfl fun tier htier => by rw [hempty tier htier]; exact ⟨nofun, nofun⟩
  · obtain ⟨hnote, hnoteClaims⟩ := overflowNote_cases config tiers
    have hprompt : EndsVisibly [knowledgeContextPrompt.toList, []] :=
      ⟨[], knowledgeContextPrompt.toList.dropLast, '.', by decide +kernel, by decide⟩
    have hsections : ∀ order : List Tier,
        (order.flatMap fun tier => withBlank (formatSection (tier.title componentId) (keptFacts config tiers tier))) = [] ∨
          EndsVisibly (order.flatMap fun tier =>
            withBlank (formatSection (tier.title componentId) (keptFacts config tiers tier))) := by
      intro order
      induction order with
      | nil => exact Or.inl rfl
      | cons tier order ih =>
          rw [List.flatMap_cons]
          rcases section_endsVisibly (tier.title componentId) (hkept tier) with hnone | hends
          · rwa [hnone, List.nil_append]
          · exact Or.inr (hends.append ih)
    have hparts : EndsVisibly (contextParts componentId config tiers) := (hprompt.append (hsections factTiers)).append hnote
    have hsplit : linesOf (contextParts componentId config tiers) = linesOf [knowledgeContextPrompt.toList, []] ++
        (linesOf (factTiers.flatMap fun tier =>
          withBlank (formatSection (tier.title componentId) (keptFacts config tiers tier))) ++
            linesOf (overflowNote config tiers)) := by
      simp only [contextParts, linesOf, List.flatMap_append, List.append_assoc]
    rw [extractPrefixClaims, ← claimsFrom_blank, splitlines_trimEnd hparts, hsplit, claimsFrom_prompt,
      claimsFrom_sections hvalid hline hkept hnoteClaims, sections_iff hkept]

end Kstrl.Knowledge
