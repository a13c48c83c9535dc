import Kstrl.Base.JsonPrefix

/-!
# Where a JSON text has its backquotes and control characters

A scan of a text that only tells strings from what is between them.  It fails at a backquote outside a string and
at a control character inside one; what reads as a document passes it.

* **`scans_all`**: what the readers take from a text passes the scan.
* **`loads_scan`**: so does a document.
-/

namespace Json

/-! ## The scan -/

/-- Where a scan stands: between the strings, in a string, or behind a backslash. -/
inductive Place where
  | between
  | inside
  | escaped
  deriving DecidableEq

/-- The scan of a text, from a place to a place. -/
def scan : Place → List Char → Option Place
  | place, [] => some place
  | .between, c :: rest =>
      if c = '`' then none else if c = '"' then scan .inside rest else scan .between rest
  | .inside, c :: rest =>
      if c = '"' then scan .between rest
      else if c = '\\' then scan .escaped rest
      else if c.toNat < 32 then none
      else scan .inside rest
  | .escaped, c :: rest => if c.toNat < 32 then none else scan .inside rest

lemma scan_append (place : Place) (a b : List Char) : scan place (a ++ b) = (scan place a).bind fun p => scan p b := by
  induction a generalizing place with
  | nil => rfl
  | cons c a ih =>
      cases place <;> simp only [List.cons_append, scan] <;> split_ifs <;> first | rfl | exact ih _

/-- What stands before `rest` passes the scan. -/
def Passes (text rest : List Char) : Prop := ∃ taken, text = taken ++ rest ∧ scan .between taken = some .between

lemma Passes.refl (text : List Char) : Passes text text := ⟨[], rfl, rfl⟩

lemma Passes.trans {a b c : List Char} (h : Passes a b) (h' : Passes b c) : Passes a c := by
  obtain ⟨taken, rfl, hscan⟩ := h
  obtain ⟨taken', rfl, hscan'⟩ := h'
  exact ⟨taken ++ taken', (List.append_assoc _ _ _).symm, by rw [scan_append, hscan]; exact hscan'⟩

/-- A character that neither opens a string nor fails. -/
def IsPlain (c : Char) : Prop := c ≠ '`' ∧ c ≠ '"'

instance (c : Char) : Decidable (IsPlain c) := inferInstanceAs (Decidable (_ ∧ _))

lemma scan_plain {text : List Char} (h : ∀ c ∈ text, IsPlain c) : scan .between text = some .between := by
  induction text with
  | nil => rfl
  | cons c text ih =>
      obtain ⟨⟨hback, hquote⟩, h⟩ := List.forall_mem_cons.mp h
      rw [scan, if_neg hback, if_neg hquote, ih h]

lemma Passes.plain {taken : List Char} (h : ∀ c ∈ taken, IsPlain c) (rest : List Char) : Passes (taken ++ rest) rest :=
  ⟨taken, rfl, scan_plain h⟩

lemma Passes.cons {c : Char} (h : IsPlain c) (rest : List Char) : Passes (c :: rest) rest :=
  ⟨[c], rfl, scan_plain (List.forall_mem_singleton.mpr h)⟩

lemma isPlain_of_isBlank {c : Char} (h : isBlank c = true) : IsPlain c := by
  constructor <;> rintro rfl <;> exact absurd h (by decide)

lemma isPlain_of_isNumberChar {c : Char} (h : isNumberChar c = true) : IsPlain c := by
  constructor <;> rintro rfl <;> exact absurd h (by decide)

lemma passes_skipBlank (text : List Char) : Passes text (skipBlank text) := by
  have hsplit := List.takeWhile_append_dropWhile (p := isBlank) (l := text)
  conv => lhs; rw [← hsplit]
  exact Passes.plain (fun c hc => isPlain_of_isBlank (List.mem_takeWhile_imp hc)) _

/-! ## Strings -/

lemma scan_hex {c : Char} {n : ℕ} (h : hexValue? c = some n) (rest : List Char) :
    scan .inside (c :: rest) = scan .inside rest := by
  have hne : c ≠ '"' ∧ c ≠ '\\' ∧ ¬ c.toNat < 32 := by
    refine ⟨?_, ?_, fun hsmall => ?_⟩
    · rintro rfl
      exact nomatch (show hexValue? '"' = none by decide).symm.trans h
    · rintro rfl
      exact nomatch (show hexValue? '\\' = none by decide).symm.trans h
    · have hlow : ∀ d : Char, 32 ≤ d.toNat → ¬ d ≤ c := fun d hd hle => by
        have : d.toNat ≤ c.toNat := hle
        omega
      unfold hexValue? at h
      rw [if_neg fun hc => hlow _ (by decide) hc.1, if_neg fun hc => hlow _ (by decide) hc.1,
        if_neg fun hc => hlow _ (by decide) hc.1] at h
      cases h
  rw [scan, if_neg hne.1, if_neg hne.2.1, if_neg hne.2.2]

lemma escape_large {c d : Char} (h : shortEscape? c = some d) : ¬ c.toNat < 32 := by
  unfold shortEscape? at h
  split_ifs at h with h1 h2 h3 h4 h5 h6
  · rcases h1 with rfl | rfl | rfl <;> decide
  all_goals
    subst_vars
    decide

/-- **A string** passes the scan. -/
lemma units?_scan {text rest : List Char} {us : List ℕ} (h : units? text = some (us, rest)) :
    ∃ taken, text = taken ++ rest ∧ scan .inside taken = some .between := by
  induction text using units?.induct generalizing us with
  | case1 => simp [units?] at h
  | case2 tail =>
      rw [units?] at h
      cases h
      exact ⟨['"'], rfl, rfl⟩
  | case3 a b c d tail ih =>
      rw [units?] at h
      simp only [Option.bind_eq_bind, Option.bind_eq_some_iff] at h
      obtain ⟨u, hu, ⟨vs, r⟩, hrest, hsome⟩ := h
      cases hsome
      obtain ⟨taken, rfl, hscan⟩ := ih hrest
      simp only [unit?, Option.bind_eq_bind, Option.bind_eq_some_iff] at hu
      obtain ⟨_, ha, _, hb, _, hc, _, hd, -⟩ := hu
      refine ⟨'\\' :: 'u' :: a :: b :: c :: d :: taken, rfl, ?_⟩
      show scan .inside (a :: b :: c :: d :: taken) = _
      rw [scan_hex ha, scan_hex hb, scan_hex hc, scan_hex hd, hscan]
  | case4 c tail hnot ih =>
      rw [units?.eq_4 _ _ hnot] at h
      simp only [Option.bind_eq_bind, Option.bind_eq_some_iff] at h
      obtain ⟨u, hu, ⟨vs, r⟩, hrest, hsome⟩ := h
      cases hsome
      obtain ⟨taken, rfl, hscan⟩ := ih hrest
      refine ⟨'\\' :: c :: taken, rfl, ?_⟩
      show scan .escaped (c :: taken) = _
      rw [scan, if_neg (escape_large hu), hscan]
  | case5 c tail hquote hslash hslash' hsmall =>
      rw [units?.eq_5 _ _ hquote hslash hslash', if_pos hsmall] at h
      cases h
  | case6 c tail hquote hslash hslash' hlarge ih =>
      rw [units?.eq_5 _ _ hquote hslash hslash', if_neg hlarge] at h
      simp only [Option.bind_eq_bind, Option.bind_eq_some_iff] at h
      obtain ⟨⟨vs, r⟩, hrest, hsome⟩ := h
      cases hsome
      obtain ⟨taken, rfl, hscan⟩ := ih hrest
      have hne : c ≠ '\\' := by
        rintro rfl
        cases htail : taken ++ r with
        | nil => rw [htail] at hrest; cases hrest
        | cons d tail => exact hslash' d tail rfl htail
      refine ⟨c :: taken, rfl, ?_⟩
      rw [scan, if_neg hquote, if_neg hne, if_neg hlarge, hscan]

lemma passes_unquote {text rest : List Char} {s : String} (h : unquote? text = some (s, rest)) :
    Passes ('"' :: text) rest := by
  unfold unquote? at h
  simp only [Option.bind_eq_bind, Option.bind_eq_some_iff] at h
  obtain ⟨⟨us, r⟩, hunits, cs, hjoin, hsome⟩ := h
  cases hsome
  obtain ⟨taken, rfl, hscan⟩ := units?_scan hunits
  exact ⟨'"' :: taken, rfl, hscan⟩

lemma passes_atom {text rest : List Char} {v : Json} (h : atom? text = some (v, rest)) : Passes text rest := by
  unfold atom? at h
  split at h
  · next word hfind =>
      cases h
      have hmem : word ∈ literals := List.mem_of_find?_eq_some hfind
      have hfront := List.find?_some hfind
      obtain ⟨tail, htail⟩ : word.1 <+: text := List.isPrefixOf_iff_prefix.mp hfront
      rw [← htail, List.drop_left]
      have hplain : ∀ word ∈ literals, ∀ c ∈ word.1, c ≠ '`' ∧ c ≠ '"' := by decide
      exact Passes.plain (hplain word hmem) tail
  · simp only [Option.map_eq_some_iff] at h
    obtain ⟨w, hnumber, hsome⟩ := h
    cases hsome
    have hsplit := List.takeWhile_append_dropWhile (p := isNumberChar) (l := text)
    conv => lhs; rw [← hsplit]
    exact Passes.plain (fun c hc => isPlain_of_isNumberChar (List.mem_takeWhile_imp hc)) _

/-! ## Documents -/

/-- What the readers take under a bound passes the scan. -/
structure Scans (n : ℕ) : Prop where
  value : ∀ {text v rest}, value? n text = some (v, rest) → Passes text rest
  entries : ∀ {text js rest}, entries? n text = some (js, rest) → Passes text rest
  field : ∀ {text field rest}, field? n text = some (field, rest) → Passes text rest
  fields : ∀ {text fields rest}, fields? n text = some (fields, rest) → Passes text rest

namespace Scans

variable {n : ℕ}

lemma passes_cons {text tail : List Char} {c : Char} (h : skipBlank text = c :: tail) : Passes text (c :: tail) :=
  h ▸ passes_skipBlank text

lemma value_succ (ih : Scans n) {text v rest} (h : value? (n + 1) text = some (v, rest)) : Passes text rest := by
  rw [value?] at h
  cases hskip : skipBlank text with
  | nil => rw [hskip] at h; cases h
  | cons c tail =>
      rw [hskip] at h
      refine (passes_cons hskip).trans ?_
      simp only at h
      by_cases hquote : c = '"'
      · rw [if_pos hquote] at h
        simp only [Option.map_eq_some_iff] at h
        obtain ⟨⟨s, r⟩, hs, hsome⟩ := h
        cases hsome
        exact hquote ▸ passes_unquote hs
      rw [if_neg hquote] at h
      by_cases hopen : c = '['
      · rw [if_pos hopen] at h
        subst hopen
        refine (Passes.cons (by decide) tail).trans ?_
        cases hskip' : skipBlank tail with
        | nil => rw [hskip'] at h; cases h
        | cons d tail' =>
            rw [hskip'] at h
            refine (passes_cons hskip').trans ?_
            simp only at h
            by_cases hclose : d = ']'
            · rw [if_pos hclose] at h
              cases h
              exact hclose ▸ Passes.cons (by decide) _
            rw [if_neg hclose] at h
            simp only [Option.bind_eq_bind, Option.bind_eq_some_iff] at h
            obtain ⟨⟨j, r⟩, hj, ⟨js, r'⟩, hjs, hsome⟩ := h
            cases hsome
            exact (ih.value hj).trans (ih.entries hjs)
      rw [if_neg hopen] at h
      by_cases hbrace : c = '\x7b'
      · rw [if_pos hbrace] at h
        subst hbrace
        refine (Passes.cons (by decide) tail).trans ?_
        cases hskip' : skipBlank tail with
        | nil => rw [hskip'] at h; cases h
        | cons d tail' =>
            rw [hskip'] at h
            refine (passes_cons hskip').trans ?_
            simp only at h
            by_cases hclose : d = '\x7d'
            · rw [if_pos hclose] at h
              cases h
              exact hclose ▸ Passes.cons (by decide) _
            rw [if_neg hclose] at h
            simp only [Option.bind_eq_bind, Option.bind_eq_some_iff] at h
            obtain ⟨⟨f, r⟩, hf, ⟨fs, r'⟩, hfs, hsome⟩ := h
            cases hsome
            exact (ih.field hf).trans (ih.fields hfs)
      rw [if_neg hbrace] at h
      exact passes_atom h

lemma entries_succ (ih : Scans n) {text js rest} (h : entries? (n + 1) text = some (js, rest)) : Passes text rest := by
  rw [entries?] at h
  cases hskip : skipBlank text with
  | nil => rw [hskip] at h; cases h
  | cons c tail =>
      rw [hskip] at h
      refine (passes_cons hskip).trans ?_
      simp only at h
      by_cases hclose : c = ']'
      · rw [if_pos hclose] at h
        cases h
        exact hclose ▸ Passes.cons (by decide) _
      rw [if_neg hclose] at h
      by_cases hcomma : c = ','
      · rw [if_pos hcomma] at h
        simp only [Option.bind_eq_bind, Option.bind_eq_some_iff] at h
        obtain ⟨⟨j, r⟩, hj, ⟨js, r'⟩, hjs, hsome⟩ := h
        cases hsome
        subst hcomma
        exact (Passes.cons (by decide) tail).trans ((ih.value hj).trans (ih.entries hjs))
      · rw [if_neg hcomma] at h
        cases h

lemma field_succ (ih : Scans n) {text field rest} (h : field? (n + 1) text = some (field, rest)) :
    Passes text rest := by
  rw [field?] at h
  cases hskip : skipBlank text with
  | nil => rw [hskip] at h; cases h
  | cons c tail =>
      rw [hskip] at h
      refine (passes_cons hskip).trans ?_
      simp only at h
      by_cases hquote : c = '"'
      · rw [if_pos hquote] at h
        simp only [Option.bind_eq_bind, Option.bind_eq_some_iff] at h
        obtain ⟨⟨key, r⟩, hkey, h⟩ := h
        refine (hquote ▸ passes_unquote hkey).trans ?_
        simp only at h
        cases hskip' : skipBlank r with
        | nil => rw [hskip'] at h; cases h
        | cons d tail' =>
            rw [hskip'] at h
            refine (passes_cons hskip').trans ?_
            simp only at h
            by_cases hcolon : d = ':'
            · rw [if_pos hcolon] at h
              simp only [Option.bind_eq_some_iff] at h
              obtain ⟨⟨j, r'⟩, hj, hsome⟩ := h
              cases hsome
              subst hcolon
              exact (Passes.cons (by decide) tail').trans (ih.value hj)
            · rw [if_neg hcolon] at h
              cases h
      · rw [if_neg hquote] at h
        cases h

lemma fields_succ (ih : Scans n) {text fields rest} (h : fields? (n + 1) text = some (fields, rest)) :
    Passes text rest := by
  rw [fields?] at h
  cases hskip : skipBlank text with
  | nil => rw [hskip] at h; cases h
  | cons c tail =>
      rw [hskip] at h
      refine (passes_cons hskip).trans ?_
      simp only at h
      by_cases hclose : c = '\x7d'
      · rw [if_pos hclose] at h
        cases h
        exact hclose ▸ Passes.cons (by decide) _
      rw [if_neg hclose] at h
      by_cases hcomma : c = ','
      · rw [if_pos hcomma] at h
        simp only [Option.bind_eq_bind, Option.bind_eq_some_iff] at h
        obtain ⟨⟨f, r⟩, hf, ⟨fs, r'⟩, hfs, hsome⟩ := h
        cases hsome
        subst hcomma
        exact (Passes.cons (by decide) tail).trans ((ih.field hf).trans (ih.fields hfs))
      · rw [if_neg hcomma] at h
        cases h

end Scans

/-- **What the readers take** from a text passes the scan. -/
theorem scans_all (n : ℕ) : Scans n := by
  induction n with
  | zero => exact ⟨nofun, nofun, nofun, nofun⟩
  | succ n ih => exact ⟨ih.value_succ, ih.entries_succ, ih.field_succ, ih.fields_succ⟩

/-- **A document** passes the scan. -/
theorem loads_scan {text : List Char} {v : Json} (h : loads (String.ofList text) = some v) :
    scan .between text = some .between := by
  obtain ⟨rest, hvalue, hrest⟩ := loads_eq_some h
  obtain ⟨taken, htext, hscan⟩ := ((scans_all _).value hvalue).trans (hrest ▸ passes_skipBlank rest)
  rw [htext, List.append_nil, hscan]

end Json
