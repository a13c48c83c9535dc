import Kstrl.Verify.Policy

/-!
# The paths of a glob

`match_glob` of `kstrl/verify/policy.py` against the semantics its docstring gives a pattern.

* **`matchGlob_sound_iff`**: for a path without a line feed every pattern matches as documented, and a path below a
  denied directory is denied; for a path with one some pattern does not.
-/

namespace Kstrl

namespace Verify

open PyCodec

/-! ## The documented semantics -/

/-- The texts a pattern stands for.  `**` crosses the separators, `**/` stands for any leading directories or none,
`*` and `?` stay within one segment, and the whole text is matched. -/
inductive GlobMatches : List Char → PyStr → Prop where
  | nil : GlobMatches [] []
  | dirs {rest : List Char} {path : PyStr} (leading : PyStr) (hdirs : leading = [] ∨ leading.getLast? = some slash)
      (h : GlobMatches rest path) : GlobMatches ('*' :: '*' :: '/' :: rest) (leading ++ path)
  | cross {rest : List Char} {path : PyStr} (text : PyStr) (hnext : rest.head? ≠ some '/') (h : GlobMatches rest path) :
      GlobMatches ('*' :: '*' :: rest) (text ++ path)
  | within {rest : List Char} {path : PyStr} (text : PyStr) (hnext : rest.head? ≠ some '*') (htext : slash ∉ text)
      (h : GlobMatches rest path) : GlobMatches ('*' :: rest) (text ++ path)
  | one {rest : List Char} {path : PyStr} (c : PyChar) (hc : c ≠ slash) (h : GlobMatches rest path) :
      GlobMatches ('?' :: rest) (c :: path)
  | char {rest : List Char} {path : PyStr} (c : Char) (hstar : c ≠ '*') (hmark : c ≠ '?') (h : GlobMatches rest path) :
      GlobMatches (c :: rest) (.char c :: path)

/-- What `match_glob` should answer: the first pattern the path is a text of. -/
def FirstMatch (path : PyStr) (patterns : List String) : Option String → Prop
  | none => ∀ pattern ∈ patterns, ¬ GlobMatches pattern.toList path
  | some pattern => ∃ before after, patterns = before ++ pattern :: after ∧ GlobMatches pattern.toList path ∧
      ∀ other ∈ before, ¬ GlobMatches other.toList path

/-! ## The parts of the regular expression -/

/-- A part of the text in front, and the rest. -/
lemma exists_cut {s : PyStr} {P : PyStr → PyStr → Prop} :
    (∃ n < s.length + 1, P (s.take n) (s.drop n)) ↔ ∃ a b, s = a ++ b ∧ P a b := by
  constructor
  · rintro ⟨n, -, h⟩
    exact ⟨s.take n, s.drop n, (List.take_append_drop n s).symm, h⟩
  · rintro ⟨a, b, rfl, h⟩
    refine ⟨a.length, by rw [List.length_append]; omega, ?_⟩
    rwa [List.take_left', List.drop_left'] <;> rfl

lemma matchPieces_anything (rest : List GlobPiece) (s : PyStr) :
    matchPieces (.anything :: rest) s = true ↔ ∃ a b, s = a ++ b ∧ lf ∉ a ∧ matchPieces rest b = true := by
  rw [matchPieces, List.any_eq_true]
  simp only [List.mem_range, Bool.decide_and, Bool.and_eq_true, decide_eq_true_eq]
  exact exists_cut (P := fun a b => lf ∉ a ∧ matchPieces rest b = true)

lemma matchPieces_segment (rest : List GlobPiece) (s : PyStr) :
    matchPieces (.segment :: rest) s = true ↔ ∃ a b, s = a ++ b ∧ slash ∉ a ∧ matchPieces rest b = true := by
  rw [matchPieces, List.any_eq_true]
  simp only [List.mem_range, Bool.decide_and, Bool.and_eq_true, decide_eq_true_eq]
  exact exists_cut (P := fun a b => slash ∉ a ∧ matchPieces rest b = true)

lemma matchPieces_dirs (rest : List GlobPiece) (s : PyStr) :
    matchPieces (.dirs :: rest) s = true ↔
      matchPieces rest s = true ∨ ∃ a b, s = a ++ slash :: b ∧ lf ∉ a ∧ matchPieces rest b = true := by
  rw [matchPieces, Bool.or_eq_true, List.any_eq_true]
  simp only [List.mem_range, Bool.decide_and, Bool.and_eq_true, decide_eq_true_eq]
  refine or_congr_right ⟨?_, ?_⟩
  · rintro ⟨n, hn, hlf, hslash, h⟩
    refine ⟨s.take n, s.drop (n + 1), ?_, hlf, h⟩
    obtain ⟨hlt, hget⟩ := List.getElem?_eq_some_iff.mp hslash
    rw [← hget, ← List.drop_eq_getElem_cons, List.take_append_drop]
  · rintro ⟨a, b, rfl, hlf, h⟩
    refine ⟨a.length, by simp, ?_, by simp, ?_⟩
    · rwa [List.take_left']
      rfl
    · rw [← List.drop_drop, List.drop_left' rfl]
      exact h

lemma matchPieces_one (rest : List GlobPiece) (s : PyStr) :
    matchPieces (.one :: rest) s = true ↔ ∃ c b, s = c :: b ∧ c ≠ slash ∧ matchPieces rest b = true := by
  rw [matchPieces]
  cases s with
  | nil => simp
  | cons c b => simp

lemma matchPieces_char (c : Char) (rest : List GlobPiece) (s : PyStr) :
    matchPieces (.char c :: rest) s = true ↔ ∃ b, s = .char c :: b ∧ matchPieces rest b = true := by
  rw [matchPieces]
  cases s with
  | nil => simp
  | cons d b =>
      simp only [List.head?_cons, Option.some.injEq, List.tail_cons, Bool.decide_and, Bool.and_eq_true, decide_eq_true_eq,
        List.cons.injEq]
      constructor
      · rintro ⟨rfl, h⟩
        exact ⟨b, ⟨rfl, rfl⟩, h⟩
      · rintro ⟨_, ⟨rfl, rfl⟩, h⟩
        exact ⟨rfl, h⟩

/-! ## A text without a line feed -/

lemma not_mem_of_append {a b : PyStr} (h : lf ∉ a ++ b) : lf ∉ a ∧ lf ∉ b := by
  rwa [List.mem_append, not_or] at h

/-- **Without a line feed the regular expression means what the glob means.** -/
lemma matchPieces_iff (pattern : List Char) {path : PyStr} (hlf : lf ∉ path) :
    matchPieces (globToRegex pattern) path = true ↔ GlobMatches pattern path := by
  fun_induction globToRegex pattern generalizing path with
  | case1 rest ih =>
      rw [matchPieces_dirs]
      constructor
      · rintro (h | ⟨a, b, rfl, -, h⟩)
        · exact .dirs [] (Or.inl rfl) ((ih hlf).mp h)
        · have hb : lf ∉ b := fun hmem => (not_mem_of_append hlf).2 (List.mem_cons_of_mem _ hmem)
          have hcut : a ++ slash :: b = (a ++ [slash]) ++ b := by simp
          rw [hcut]
          exact .dirs (a ++ [slash]) (Or.inr List.getLast?_concat) ((ih hb).mp h)
      · intro h
        cases h with
        | dirs leading hdirs h =>
            obtain ⟨hleading, hpath⟩ := not_mem_of_append hlf
            rcases hdirs with rfl | hdirs
            · exact Or.inl ((ih hlf).mpr h)
            · obtain ⟨a, rfl⟩ := List.getLast?_eq_some_iff.mp hdirs
              refine Or.inr ⟨a, _, by simp, (not_mem_of_append hleading).1, (ih hpath).mpr h⟩
        | cross text hnext h => exact absurd rfl hnext
        | within text hnext htext h => exact absurd rfl hnext
        | char c hstar => exact absurd rfl hstar
  | case2 rest hnext ih =>
      rw [matchPieces_anything]
      constructor
      · rintro ⟨a, b, rfl, -, h⟩
        refine .cross a (fun hhead => ?_) ((ih (not_mem_of_append hlf).2).mp h)
        obtain ⟨tail, rfl⟩ := List.head?_eq_some_iff.mp hhead
        exact hnext tail rfl
      · intro h
        cases h with
        | dirs leading hdirs h => exact absurd rfl (hnext _)
        | cross text hnext h =>
            obtain ⟨htext, hpath⟩ := not_mem_of_append hlf
            exact ⟨text, _, rfl, htext, (ih hpath).mpr h⟩
        | within text hnext htext h => exact absurd rfl hnext
        | char c hstar => exact absurd rfl hstar
  | case3 rest hnext hnext' ih =>
      rw [matchPieces_segment]
      constructor
      · rintro ⟨a, b, rfl, ha, h⟩
        refine .within a (fun hhead => ?_) ha ((ih (not_mem_of_append hlf).2).mp h)
        obtain ⟨tail, rfl⟩ := List.head?_eq_some_iff.mp hhead
        exact hnext' tail rfl
      · intro h
        cases h with
        | dirs leading hdirs h => exact absurd rfl (hnext _)
        | cross text hnext h => exact absurd rfl (hnext' _)
        | within text hnext htext h => exact ⟨text, _, rfl, htext, (ih (not_mem_of_append hlf).2).mpr h⟩
        | char c hstar => exact absurd rfl hstar
  | case4 rest ih =>
      rw [matchPieces_one]
      constructor
      · rintro ⟨c, b, rfl, hc, h⟩
        exact .one c hc ((ih fun hmem => hlf (List.mem_cons_of_mem _ hmem)).mp h)
      · intro h
        cases h with
        | one c hc h => exact ⟨c, _, rfl, hc, (ih fun hmem => hlf (List.mem_cons_of_mem _ hmem)).mpr h⟩
        | char c hstar hmark => exact absurd rfl hmark
  | case5 c rest h1 h2 h3 h4 ih =>
      rw [matchPieces_char]
      constructor
      · rintro ⟨b, rfl, h⟩
        exact .char c h3 h4 ((ih fun hmem => hlf (List.mem_cons_of_mem _ hmem)).mp h)
      · intro h
        cases h with
        | dirs => exact absurd rfl h3
        | cross => exact absurd rfl h3
        | within => exact absurd rfl h3
        | one => exact absurd rfl h4
        | char c hstar hmark h => exact ⟨_, rfl, (ih fun hmem => hlf (List.mem_cons_of_mem _ hmem)).mpr h⟩
  | case6 =>
      have hend : matchPieces [] path = true ↔ path = [] := by
        rw [matchPieces, decide_eq_true_eq, or_iff_left]
        rintro rfl
        exact hlf List.mem_cons_self
      rw [hend]
      constructor
      · rintro rfl
        exact .nil
      · intro h
        cases h
        rfl

/-- A list of patterns. -/
lemma firstMatch_of_agree {path : PyStr} {patterns : List String}
    (h : ∀ pattern ∈ patterns, matchPieces (globToRegex pattern.toList) path = true ↔ GlobMatches pattern.toList path) :
    FirstMatch path patterns (matchGlob path patterns) := by
  cases hfind : matchGlob path patterns with
  | none => exact fun pattern hmem hmatch => List.find?_eq_none.mp hfind pattern hmem ((h pattern hmem).mpr hmatch)
  | some pattern =>
      obtain ⟨hmatch, before, after, hsplit, hbefore⟩ := List.find?_eq_some_iff_append.mp hfind
      refine ⟨before, after, hsplit, (h pattern (hsplit ▸ by simp)).mp hmatch, fun other hmem hother => ?_⟩
      have hno := hbefore other hmem
      rw [(h other (hsplit ▸ List.mem_append_left _ hmem)).mpr hother] at hno
      cases hno

/-- A path below a directory. -/
lemma globMatches_below {dir : List Char} (hstar : '*' ∉ dir) (hmark : '?' ∉ dir) (path : PyStr) :
    GlobMatches (dir ++ ['/', '*', '*']) (ofChars (dir ++ ['/']) ++ path) := by
  induction dir with
  | nil =>
      refine .char '/' (by decide) (by decide) ?_
      have hpath : GlobMatches ['*', '*'] (path ++ []) := .cross path (by simp) .nil
      rwa [List.append_nil] at hpath
  | cons c dir ih =>
      exact .char c (fun hc => hstar (hc ▸ List.mem_cons_self)) (fun hc => hmark (hc ▸ List.mem_cons_self))
        (ih (fun hmem => hstar (List.mem_cons_of_mem _ hmem)) fun hmem => hmark (List.mem_cons_of_mem _ hmem))

/-! ## A text with a line feed -/

/-- A line feed before the end stops `**`. -/
lemma not_matches_cross {path : PyStr} (h : lf ∈ path.dropLast) : matchPieces (globToRegex ['*', '*']) path = false := by
  rw [Bool.eq_false_iff]
  intro hmatch
  obtain ⟨a, b, rfl, ha, hend⟩ := (matchPieces_anything [] path).mp hmatch
  rw [matchPieces, decide_eq_true_eq] at hend
  rcases hend with rfl | rfl
  · rw [List.append_nil] at h
    exact ha (List.mem_of_mem_dropLast h)
  · rw [List.dropLast_concat] at h
    exact ha h

/-- A pattern for every path of this shape: a `?` for each character that is no separator. -/
def marks (path : PyStr) : List Char := path.map fun c => if c = slash then '/' else '?'

/-- The pattern matches a line feed behind the text, too. -/
lemma matches_marks (path : PyStr) : matchPieces (globToRegex (marks path)) (path ++ [lf]) = true := by
  induction path with
  | nil => decide
  | cons c path ih =>
      by_cases hc : c = slash
      · have hpattern : marks (c :: path) = '/' :: marks path := by rw [marks, List.map_cons, if_pos hc]; rfl
        have hpieces : globToRegex ('/' :: marks path) = .char '/' :: globToRegex (marks path) := by
          rw [globToRegex] <;> simp
        rw [hpattern, hpieces, matchPieces_char, hc]
        exact ⟨path ++ [lf], rfl, ih⟩
      · have hpattern : marks (c :: path) = '?' :: marks path := by rw [marks, List.map_cons, if_neg hc]; rfl
        have hpieces : globToRegex ('?' :: marks path) = .one :: globToRegex (marks path) := by
          rw [globToRegex]
        rw [hpattern, hpieces, matchPieces_one]
        exact ⟨c, path ++ [lf], rfl, hc, ih⟩

/-- The texts of a pattern without `*` are as long as it. -/
lemma length_of_globMatches {pattern : List Char} {path : PyStr} (h : GlobMatches pattern path) (hstar : '*' ∉ pattern) :
    path.length = pattern.length := by
  induction h with
  | nil => rfl
  | dirs | cross | within => exact absurd List.mem_cons_self hstar
  | one c hc h ih => rw [List.length_cons, List.length_cons, ih fun hmem => hstar (List.mem_cons_of_mem _ hmem)]
  | char c hc hmark h ih => rw [List.length_cons, List.length_cons, ih fun hmem => hstar (List.mem_cons_of_mem _ hmem)]

lemma star_not_mem_marks (path : PyStr) : '*' ∉ marks path := by
  intro hmem
  obtain ⟨c, -, hc⟩ := List.mem_map.mp hmem
  split_ifs at hc <;> cases hc

/-- A path with a line feed has a pattern that does not mean what it should. -/
lemma exists_pattern_of_lf {path : PyStr} (hlf : lf ∈ path) :
    ∃ pattern : List Char, ¬ (matchPieces (globToRegex pattern) path = true ↔ GlobMatches pattern path) := by
  by_cases hinner : lf ∈ path.dropLast
  · refine ⟨['*', '*'], fun hagree => ?_⟩
    have hall : GlobMatches ['*', '*'] (path ++ []) := .cross path (by simp) .nil
    rw [List.append_nil] at hall
    have hmatch := hagree.mpr hall
    rw [not_matches_cross hinner] at hmatch
    cases hmatch
  · have hsplit : path.dropLast ++ [lf] = path := by
      rcases List.eq_nil_or_concat path with rfl | ⟨front, c, rfl⟩
      · cases hlf
      · rw [List.concat_eq_append] at hlf hinner ⊢
        rw [List.dropLast_concat] at hinner ⊢
        rw [List.mem_singleton.mp ((List.mem_append.mp hlf).resolve_left hinner)]
    refine ⟨marks path.dropLast, fun hagree => ?_⟩
    have hmatch := matches_marks path.dropLast
    rw [hsplit] at hmatch
    have hlength := length_of_globMatches (hagree.mp hmatch) (star_not_mem_marks _)
    rw [marks, List.length_map, List.length_dropLast] at hlength
    have := List.length_pos_of_mem hlf
    omega

/-- **For which paths the globs mean what they say.**  Every list of patterns is answered as documented, and a path
below a directory is denied by the directory's `**`, exactly where the path has no line feed. -/
theorem matchGlob_sound_iff (path : PyStr) :
    ((∀ patterns, FirstMatch path patterns (matchGlob path patterns)) ∧
        ∀ dir : String, '*' ∉ dir.toList → '?' ∉ dir.toList → lit dir ++ [slash] <+: path →
          matchGlob path [dir ++ "/**"] = some (dir ++ "/**")) ↔
      lf ∉ path := by
  constructor
  · rintro ⟨hfirst, -⟩ hlf
    obtain ⟨pattern, hdisagree⟩ := exists_pattern_of_lf hlf
    refine hdisagree ?_
    have hone := hfirst [String.ofList pattern]
    have hfind : matchGlob path [String.ofList pattern]
        = if matchPieces (globToRegex pattern) path = true then some (String.ofList pattern) else none := by
      rw [matchGlob, List.find?_cons, String.toList_ofList]
      cases matchPieces (globToRegex pattern) path <;> rfl
    rw [hfind] at hone
    by_cases hmatch : matchPieces (globToRegex pattern) path = true
    · rw [if_pos hmatch] at hone
      obtain ⟨-, -, -, hglob, -⟩ := hone
      rw [String.toList_ofList] at hglob
      exact iff_of_true hmatch hglob
    · rw [if_neg hmatch] at hone
      have hglob := hone _ (List.mem_singleton_self _)
      rw [String.toList_ofList] at hglob
      exact iff_of_false hmatch hglob
  · intro hlf
    refine ⟨fun patterns => firstMatch_of_agree fun pattern _ => matchPieces_iff pattern.toList hlf, ?_⟩
    rintro dir hstar hmark ⟨rest, rfl⟩
    have hglob := globMatches_below hstar hmark rest
    have hpath : ofChars (dir.toList ++ ['/']) ++ rest = lit dir ++ [slash] ++ rest := by
      rw [ofChars, List.map_append]
      rfl
    have hpattern : (dir ++ "/**").toList = dir.toList ++ ['/', '*', '*'] := String.toList_append
    rw [hpath, ← hpattern] at hglob
    rw [matchGlob, List.find?_cons, (matchPieces_iff _ hlf).mpr hglob]

/-- A name with a line feed below a denied directory, and one behind a denied name. -/
theorem matchGlob_line_feed :
    matchGlob (lit ".kstrl/a" ++ [lf] ++ lit "b") [".kstrl/**"] = none ∧
      matchGlob (lit "kstrl.toml" ++ [lf]) ["kstrl.toml"] = some "kstrl.toml" := by
  constructor <;> decide

end Verify

end Kstrl
