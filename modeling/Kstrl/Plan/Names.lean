import Kstrl.Plan.ManifestKeys

/-!
# The names a manifest carries

`validate_component_id` and `validate_branch_name` of `kstrl/plan/names.py` against the languages their docstrings
describe and against the rules git has for a reference name.

* **`names_sound_iff`**: the validators accept the documented languages, and only valid references, up to a line
  break at the end of the name and an inner segment that ends in `.lock`.
-/

namespace Kstrl

/-! ## The documented languages -/

/-- A lowercase alphanumeric start, then letters, digits and three marks only, 64 characters in all, no `..`. -/
structure ComponentIdRules (id : List Char) : Prop where
  start : ∃ c ∈ id.head?, isLowerOrDigit c = true
  charset : ∀ c ∈ id, isLowerOrDigit c = true ∨ c ∈ ['.', '_', '-']
  short : id.length ≤ 64
  noTraversal : ¬ ['.', '.'] <:+: id

/-- A component id: in addition no suffix `.` or `.lock`. -/
structure ComponentIdName (id : List Char) : Prop where
  rules : ComponentIdRules id
  noDot : ¬ ['.'] <:+ id
  noLock : ¬ ['.', 'l', 'o', 'c', 'k'] <:+ id

def isBranchChar (c : Char) : Bool := c.isAlphanum || c ∈ ['.', '_', '/', '-']

/-- The rules of a branch name that do not look at its end or its characters. -/
structure BranchRules (branch : List Char) : Prop where
  short : branch.length ≤ maxBranchNameLength
  noOption : branch.head? ≠ some '-'
  noTraversal : ¬ ['.', '.'] <:+: branch
  noLeadingSlash : branch.head? ≠ some '/'
  noDoubleSlash : ¬ ['/', '/'] <:+: branch
  noHidden : ∀ segment ∈ branch.splitOn '/', segment.head? ≠ some '.'

/-- A branch name: a text of allowed characters that also ends as it should. -/
structure BranchName (branch : List Char) : Prop where
  nonempty : branch ≠ []
  charset : ∀ c ∈ branch, isBranchChar c = true
  rules : BranchRules branch
  noTrailingSlash : ¬ ['/'] <:+ branch
  noDot : ¬ ['.'] <:+ branch
  noLock : ¬ ['.', 'l', 'o', 'c', 'k'] <:+ branch

/-- A character git refuses in a reference name. -/
def isRefused (c : Char) : Bool := c.toNat ≤ 32 || c.toNat = 127 || c ∈ ['~', '^', ':', '?', '*', '[', '\\']

/-- What git asks of a reference name. -/
structure RefName (name : List Char) : Prop where
  nonempty : name ≠ []
  charset : ∀ c ∈ name, isRefused c = false
  noTraversal : ¬ ['.', '.'] <:+: name
  noReflog : ¬ ['@', '\x7b'] <:+: name
  noLeadingSlash : name.head? ≠ some '/'
  noDoubleSlash : ¬ ['/', '/'] <:+: name
  noTrailingSlash : ¬ ['/'] <:+ name
  noDot : ¬ ['.'] <:+ name
  component : ∀ segment ∈ name.splitOn '/', segment.head? ≠ some '.' ∧ ¬ ['.', 'l', 'o', 'c', 'k'] <:+ segment

/-! ## What the validators accept -/

/-- A text that keeps the rules, with one line break behind it. -/
def LineEndedId (id : List Char) : Prop := ∃ word, id = word ++ ['\n'] ∧ ComponentIdRules word

/-- A text of allowed characters with one line break behind it, that keeps the rules. -/
def LineEndedBranch (branch : List Char) : Prop :=
  BranchRules branch ∧ ∃ word, branch = word ++ ['\n'] ∧ word ≠ [] ∧ ∀ c ∈ word, isBranchChar c = true

/-- A segment that ends in `.lock`, which git keeps for itself. -/
def HasLockSegment (branch : List Char) : Prop := ∃ segment ∈ branch.splitOn '/', ['.', 'l', 'o', 'c', 'k'] <:+ segment

lemma ite_some_eq_none {α : Type} {p : Prop} [Decidable p] {message : α} {rest : Option α} :
    (if p then some message else rest) = none ↔ ¬ p ∧ rest = none := by
  by_cases h : p
  · rw [if_pos h]
    exact iff_of_false (Option.some_ne_none _) fun hno => hno.1 h
  · rw [if_neg h, and_iff_right h]

/-- A pattern that ends in `$` and has no line break takes a text, or a text with a line break behind it. -/
lemma beforeLineEnd_iff {P : List Char → Prop} (h : ∀ word, P word → '\n' ∉ word) (s : String) :
    P (beforeLineEnd s) ↔ P s.toList ∨ ∃ word, s.toList = word ++ ['\n'] ∧ P word := by
  unfold beforeLineEnd
  by_cases hlast : s.toList.getLast? = some '\n'
  · have hsplit : s.toList = s.toList.dropLast ++ ['\n'] := (List.dropLast_append_getLast? '\n' hlast).symm
    rw [if_pos hlast]
    constructor
    · exact fun hword => Or.inr ⟨_, hsplit, hword⟩
    · rintro (hword | ⟨word, hs, hword⟩)
      · exact absurd (List.mem_of_getLast? hlast) (h _ hword)
      · rwa [hs, List.dropLast_concat]
  · rw [if_neg hlast]
    refine (or_iff_left ?_).symm
    rintro ⟨word, hs, -⟩
    exact hlast (by rw [hs, List.getLast?_concat])

lemma not_suffix_newline {word l : List Char} {c : Char} (hc : c ≠ '\n') : ¬ l ++ [c] <:+ word ++ ['\n'] := by
  rintro ⟨rest, hsame⟩
  have hlast := congrArg List.getLast? hsame
  rw [← List.append_assoc, List.getLast?_concat, List.getLast?_concat] at hlast
  exact hc (Option.some.inj hlast)

lemma endsWith_iff {s suffix : String} : endsWith s suffix = true ↔ suffix.toList <:+ s.toList :=
  List.isSuffixOf_iff_suffix

lemma contains_iff {s needle : String} : PyText.contains s needle = true ↔ needle.toList <:+: s.toList :=
  PyText.isInfix_iff _ _

/-- What does not end in a line break stands in front of it. -/
lemma infix_of_append_newline {word l : List Char} {c : Char} (hc : c ≠ '\n') (h : l ++ [c] <:+: word ++ ['\n']) :
    l ++ [c] <:+: word := by
  obtain ⟨before, after, hsame⟩ := h
  rcases List.eq_nil_or_concat after with rfl | ⟨after, d, rfl⟩
  · rw [List.append_nil] at hsame
    exact absurd ⟨before, hsame⟩ (not_suffix_newline hc)
  · rw [List.concat_eq_append, ← List.append_assoc] at hsame
    exact ⟨before, after, (List.append_inj' hsame rfl).1⟩

/-! ## Component ids -/

lemma newline_not_mem_id {word : List Char} (h : ∀ c ∈ word, isLowerOrDigit c = true ∨ c ∈ ['.', '_', '-']) :
    '\n' ∉ word := fun hmem => absurd (h _ hmem) (by decide)

/-- What the pattern asks of a text without a line break at its end. -/
def IdPattern (word : List Char) : Prop :=
  (∃ c ∈ word.head?, isLowerOrDigit c = true) ∧ (∀ c ∈ word, isLowerOrDigit c = true ∨ c ∈ ['.', '_', '-']) ∧
    word.length ≤ 64

lemma matchesComponentId_iff (s : String) : matchesComponentId s = true ↔ IdPattern (beforeLineEnd s) := by
  unfold matchesComponentId IdPattern
  cases beforeLineEnd s with
  | nil => simp
  | cons c rest =>
      simp only [Bool.and_eq_true, decide_eq_true_eq, List.all_eq_true, Bool.or_eq_true, List.head?_cons,
        Option.mem_def, Option.some.injEq, exists_eq_left', List.forall_mem_cons, List.length_cons]
      constructor
      · rintro ⟨⟨hc, hlength⟩, hrest⟩
        exact ⟨hc, ⟨Or.inl hc, hrest⟩, by omega⟩
      · rintro ⟨hc, ⟨-, hrest⟩, hlength⟩
        exact ⟨⟨hc, by omega⟩, hrest⟩

/-- **What `validate_component_id` accepts.** -/
lemma validateComponentId_iff (s : String) :
    validateComponentId s = none ↔ ComponentIdName s.toList ∨ LineEndedId s.toList := by
  have hchecks : validateComponentId s = none ↔ s ≠ "" ∧ IdPattern (beforeLineEnd s) ∧ ¬ ['.', '.'] <:+: s.toList ∧
      ¬ ['.'] <:+ s.toList ∧ ¬ ['.', 'l', 'o', 'c', 'k'] <:+ s.toList := by
    simp only [validateComponentId, ite_some_eq_none, Bool.not_eq_true', Bool.not_eq_false, matchesComponentId_iff,
      contains_iff, endsWith_iff, and_true]
    rfl
  rw [hchecks, beforeLineEnd_iff (P := IdPattern) (fun word h => newline_not_mem_id h.2.1)]
  constructor
  · rintro ⟨-, ⟨hstart, hcharset, hshort⟩ | ⟨word, hs, hstart, hcharset, hshort⟩, hdots, hdot, hlock⟩
    · exact Or.inl ⟨⟨hstart, hcharset, hshort, hdots⟩, hdot, hlock⟩
    · refine Or.inr ⟨word, hs, hstart, hcharset, hshort, fun h => hdots ?_⟩
      rw [hs]
      exact h.trans (List.prefix_append _ _).isInfix
  · rintro (⟨⟨hstart, hcharset, hshort, hdots⟩, hdot, hlock⟩ | ⟨word, hs, hstart, hcharset, hshort, hdots⟩)
    · refine ⟨?_, Or.inl ⟨hstart, hcharset, hshort⟩, hdots, hdot, hlock⟩
      rintro rfl
      obtain ⟨c, hc, -⟩ := hstart
      cases hc
    · refine ⟨?_, Or.inr ⟨word, hs, hstart, hcharset, hshort⟩, fun h => hdots ?_, ?_, ?_⟩
      · rintro rfl
        exact List.append_ne_nil_of_right_ne_nil word (List.cons_ne_nil _ _) hs.symm
      · rw [hs] at h
        exact infix_of_append_newline (l := ['.']) (by decide) h
      · rw [hs]
        exact not_suffix_newline (l := []) (by decide)
      · rw [hs]
        exact not_suffix_newline (l := ['.', 'l', 'o', 'c']) (by decide)

/-! ## Branch names -/

/-- What the pattern asks of a text without a line break at its end. -/
def BranchPattern (word : List Char) : Prop := word ≠ [] ∧ ∀ c ∈ word, isBranchChar c = true

lemma matchesBranchCharset_iff (s : String) : matchesBranchCharset s = true ↔ BranchPattern (beforeLineEnd s) := by
  unfold matchesBranchCharset BranchPattern
  rw [Bool.and_eq_true, List.all_eq_true, decide_eq_true_eq]
  rfl

/-- **What `validate_branch_name` accepts.** -/
lemma validateBranchName_iff (s : String) :
    validateBranchName s = none ↔ BranchName s.toList ∨ LineEndedBranch s.toList := by
  have hchecks : validateBranchName s = none ↔ s ≠ "" ∧ BranchPattern (beforeLineEnd s) ∧ BranchRules s.toList ∧
      ¬ ['/'] <:+ s.toList ∧ ¬ ['.'] <:+ s.toList ∧ ¬ ['.', 'l', 'o', 'c', 'k'] <:+ s.toList := by
    simp only [validateBranchName, ite_some_eq_none, Bool.not_eq_true', Bool.not_eq_false, matchesBranchCharset_iff,
      contains_iff, endsWith_iff, and_true, not_or, List.any_eq_true, decide_eq_true_eq, not_exists, not_and, not_lt]
    constructor
    · rintro ⟨hne, hshort, hpattern, hoption, hdots, ⟨hslash, htrailing, hdouble⟩, hhidden, hdot, hlock⟩
      exact ⟨hne, hpattern, ⟨hshort, hoption, hdots, hslash, hdouble, hhidden⟩, htrailing, hdot, hlock⟩
    · rintro ⟨hne, hpattern, ⟨hshort, hoption, hdots, hslash, hdouble, hhidden⟩, htrailing, hdot, hlock⟩
      exact ⟨hne, hshort, hpattern, hoption, hdots, ⟨hslash, htrailing, hdouble⟩, hhidden, hdot, hlock⟩
  have hline : ∀ word, BranchPattern word → '\n' ∉ word := fun word h hmem => absurd (h.2 _ hmem) (by decide)
  rw [hchecks, beforeLineEnd_iff hline]
  constructor
  · rintro ⟨-, ⟨hne, hcharset⟩ | ⟨word, hs, hword⟩, hrules, htrailing, hdot, hlock⟩
    · exact Or.inl ⟨hne, hcharset, hrules, htrailing, hdot, hlock⟩
    · exact Or.inr ⟨hrules, word, hs, hword⟩
  · rintro (⟨hne, hcharset, hrules, htrailing, hdot, hlock⟩ | ⟨hrules, word, hs, hword⟩)
    · refine ⟨?_, Or.inl ⟨hne, hcharset⟩, hrules, htrailing, hdot, hlock⟩
      rintro rfl
      exact hne rfl
    · refine ⟨?_, Or.inr ⟨word, hs, hword⟩, hrules, ?_, ?_, ?_⟩
      · rintro rfl
        exact List.append_ne_nil_of_right_ne_nil word (List.cons_ne_nil _ _) hs.symm
      · rw [hs]
        exact not_suffix_newline (l := []) (by decide)
      · rw [hs]
        exact not_suffix_newline (l := []) (by decide)
      · rw [hs]
        exact not_suffix_newline (l := ['.', 'l', 'o', 'c']) (by decide)

lemma isRefused_of_isBranchChar {c : Char} (h : isBranchChar c = true) : isRefused c = false ∧ c ≠ '@' := by
  simp only [isBranchChar, Bool.or_eq_true, decide_eq_true_eq, List.mem_cons, List.not_mem_nil, or_false] at h
  rcases h with h | rfl | rfl | rfl | rfl
  · have hrange : (65 ≤ c.toNat ∧ c.toNat ≤ 90) ∨ (97 ≤ c.toNat ∧ c.toNat ≤ 122) ∨ (48 ≤ c.toNat ∧ c.toNat ≤ 57) := by
      have hascii : (decide (65 ≤ c.val ∧ c.val ≤ 90) || decide (97 ≤ c.val) && decide (c.val ≤ 122) ||
          decide (48 ≤ c.val) && decide (c.val ≤ 57)) = true := h
      simpa [or_assoc, UInt32.le_iff_toNat_le] using hascii
    have hne : ∀ d : Char, ¬ ((65 ≤ d.toNat ∧ d.toNat ≤ 90) ∨ (97 ≤ d.toNat ∧ d.toNat ≤ 122) ∨
        (48 ≤ d.toNat ∧ d.toNat ≤ 57)) → c ≠ d := fun d hd hsame => hd (hsame ▸ hrange)
    refine ⟨?_, hne '@' (by decide)⟩
    simp only [isRefused, Bool.or_eq_false_iff, decide_eq_false_iff_not, List.mem_cons, List.not_mem_nil, or_false, not_or]
    exact ⟨⟨by omega, by omega⟩, hne _ (by decide), hne _ (by decide), hne _ (by decide), hne _ (by decide),
      hne _ (by decide), hne _ (by decide), hne _ (by decide)⟩
  all_goals decide

/-- A branch name of the documented language is a reference, unless git keeps one of its segments for itself. -/
lemma refName_iff {branch : List Char} (h : BranchName branch) : RefName branch ↔ ¬ HasLockSegment branch := by
  constructor
  · rintro href ⟨segment, hmem, hlock⟩
    exact (href.component segment hmem).2 hlock
  · intro hlock
    refine ⟨h.nonempty, fun c hc => (isRefused_of_isBranchChar (h.charset c hc)).1, h.rules.noTraversal, fun hinside => ?_,
      h.rules.noLeadingSlash, h.rules.noDoubleSlash, h.noTrailingSlash, h.noDot,
      fun segment hmem => ⟨h.rules.noHidden segment hmem, fun hsuffix => hlock ⟨segment, hmem, hsuffix⟩⟩⟩
    exact (isRefused_of_isBranchChar (h.charset '@' (hinside.subset List.mem_cons_self))).2 rfl

/-! ## The two slips -/

lemma not_componentIdName_of_lineEnded {id : List Char} (h : LineEndedId id) : ¬ ComponentIdName id := by
  obtain ⟨word, rfl, -⟩ := h
  exact fun hname => newline_not_mem_id hname.rules.charset (List.mem_append_right _ List.mem_cons_self)

lemma not_branchName_of_lineEnded {branch : List Char} (h : LineEndedBranch branch) :
    ¬ BranchName branch ∧ ¬ RefName branch := by
  obtain ⟨-, word, rfl, -⟩ := h
  have hmem : '\n' ∈ word ++ ['\n'] := List.mem_append_right _ List.mem_cons_self
  exact ⟨fun hname => absurd (hname.charset _ hmem) (by decide), fun href => absurd (href.charset _ hmem) (by decide)⟩

/-- **The validators against their documentation and against git.**  They accept exactly the documented languages,
and only valid references, for a text that is no name with a line break behind it and no branch name with an inner
segment that ends in `.lock`. -/
theorem names_sound_iff (s : String) :
    ((validateComponentId s = none ↔ ComponentIdName s.toList) ∧ (validateBranchName s = none ↔ BranchName s.toList) ∧
        (validateBranchName s = none → RefName s.toList)) ↔
      ¬ LineEndedId s.toList ∧ ¬ LineEndedBranch s.toList ∧ ¬ (BranchName s.toList ∧ HasLockSegment s.toList) := by
  rw [validateComponentId_iff, validateBranchName_iff]
  constructor
  · rintro ⟨hid, hbranch, href⟩
    refine ⟨fun h => ?_, fun h => ?_, fun h => ?_⟩
    · exact not_componentIdName_of_lineEnded h (hid.mp (Or.inr h))
    · exact (not_branchName_of_lineEnded h).1 (hbranch.mp (Or.inr h))
    · exact (refName_iff h.1).mp (href (Or.inl h.1)) h.2
  · rintro ⟨hid, hbranch, hlock⟩
    refine ⟨or_iff_left hid, or_iff_left hbranch, fun haccepted => ?_⟩
    have hname := haccepted.resolve_right hbranch
    exact (refName_iff hname).mpr fun h => hlock ⟨hname, h⟩

/-- A line break passes both validators, and a lock file's name passes as an inner segment. -/
theorem names_unsound :
    (validateComponentId "a\n" = none ∧ ¬ ComponentIdName "a\n".toList) ∧
      (validateBranchName "a\n" = none ∧ ¬ BranchName "a\n".toList ∧ ¬ RefName "a\n".toList) ∧
      validateBranchName "a.lock/b" = none ∧ ¬ RefName "a.lock/b".toList := by
  refine ⟨⟨by decide +kernel, fun h => ?_⟩, ⟨by decide +kernel, fun h => ?_, fun h => ?_⟩, by decide +kernel, fun h => ?_⟩
  · exact absurd (h.rules.charset '\n' (by decide)) (by decide)
  · exact absurd (h.charset '\n' (by decide)) (by decide)
  · exact absurd (h.charset '\n' (by decide)) (by decide)
  · exact (h.component "a.lock".toList (by decide +kernel)).2 (by decide)

end Kstrl
