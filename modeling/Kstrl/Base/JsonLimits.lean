import Kstrl.Base.JsonLayout

/-!
# The length of an integer in a JSON text

Python converts no integer of more than `sys.get_int_max_str_digits()` digits to a text or from one: `json.dumps`
raises on it, and so does `json.loads` wherever a document has one.

* **`overlong`** looks for such an integer in a text, past the strings.
* **`loadsWithin_dumpsWithin`**: what is written is read back.
-/

namespace Json

/-- The default of `sys.get_int_max_str_digits()`. -/
def maxStrDigits : ℕ := 4300

/-! ## Reading -/

/-- A run of number characters that is an integer of too many digits. -/
def tooLong (run : List Char) : Bool :=
  run.all (fun c => c ∉ ['.', 'e', 'E']) && maxStrDigits < (run.filter Char.isDigit).length

/-- Where a text is looked at. -/
inductive Mode where
  /-- in a run of number characters -/
  | plain (run : List Char)
  | string
  /-- behind a backslash -/
  | escaped

/-- An integer of too many digits, from a mode on. -/
def overlongFrom : Mode → List Char → Bool
  | .plain run, [] => tooLong run
  | .plain run, c :: rest =>
      if isNumberChar c then overlongFrom (.plain (run ++ [c])) rest
      else tooLong run || overlongFrom (if c = '"' then .string else .plain []) rest
  | .string, [] => false
  | .string, c :: rest => overlongFrom (if c = '"' then .plain [] else if c = '\\' then .escaped else .string) rest
  | .escaped, [] => false
  | .escaped, _ :: rest => overlongFrom .string rest

/-- A text has an integer of too many digits. -/
def overlong (text : List Char) : Bool := overlongFrom (.plain []) text

/-- `json.loads`, which raises on such an integer as on a text that is no document. -/
def loadsWithin (text : String) : Option Json := if overlong text.toList then none else loads text

/-! ## Writing -/

mutual

/-- Every integer of a value has a text. -/
def fits : Json → Bool
  | .int n => (natText n.natAbs).length ≤ maxStrDigits
  | .arr js => allFit js
  | .obj fields => fieldsFit fields
  | _ => true

def allFit : List Json → Bool
  | [] => true
  | j :: js => fits j && allFit js

def fieldsFit : List (String × Json) → Bool
  | [] => true
  | field :: fields => fits field.2 && fieldsFit fields

end

/-- `json.dumps` in a layout, which raises on such an integer. -/
def dumpsWithin (L : Layout) (j : Json) : Option String := if j.fits then some (j.dumpsIn L) else none

/-! ## What is written is read -/

/-- A number ends where a character of another kind stands. -/
lemma overlongFrom_run {run rest : List Char} (hrun : ∀ c ∈ run, isNumberChar c = true) (hrest : EndsNumber rest)
    (before : List Char) :
    overlongFrom (.plain before) (run ++ rest) = (tooLong (before ++ run) || overlong rest) := by
  induction run generalizing before with
  | nil =>
      rw [List.append_nil, List.nil_append]
      cases rest with
      | nil => exact (Bool.or_false _).symm
      | cons c rest =>
          have hc : isNumberChar c = false := hrest c rfl
          simp only [overlong, overlongFrom, hc, Bool.false_eq_true, if_false, show tooLong [] = false by rfl,
            Bool.false_or]
  | cons c run ih =>
      obtain ⟨hc, hrun⟩ := List.forall_mem_cons.mp hrun
      rw [List.cons_append, overlongFrom, if_pos hc, ih hrun, List.append_assoc, List.singleton_append]

lemma overlong_number {run rest : List Char} (hrun : ∀ c ∈ run, isNumberChar c = true) (hrest : EndsNumber rest)
    (hshort : tooLong run = false) : overlong (run ++ rest) = overlong rest := by
  rw [overlong, overlongFrom_run hrun hrest, List.nil_append, hshort, Bool.false_or]

/-- What stands between the parts of a text. -/
lemma overlong_cons {c : Char} (hnumber : isNumberChar c = false) (hquote : c ≠ '"') (rest : List Char) :
    overlong (c :: rest) = overlong rest := by
  rw [overlong, overlongFrom, hnumber, if_neg hquote]
  rfl

lemma overlong_gap {gap : List Char} (h : ∀ c ∈ gap, isBlank c = true) (rest : List Char) :
    overlong (gap ++ rest) = overlong rest := by
  have hblank : ∀ c ∈ [' ', '\t', '\n', '\r'], isNumberChar c = false ∧ c ≠ '"' := by decide
  induction gap with
  | nil => rfl
  | cons c gap ih =>
      obtain ⟨hc, hgap⟩ := List.forall_mem_cons.mp h
      obtain ⟨hnumber, hquote⟩ := hblank c (of_decide_eq_true hc)
      rw [List.cons_append, overlong_cons hnumber hquote, ih hgap]

lemma overlong_literal (word : List Char × Json) (h : word ∈ literals) {rest : List Char} (hrest : EndsNumber rest) :
    overlong (word.1 ++ rest) = overlong rest := by
  -- a word is read up to its last run of number characters
  have hends : ∀ before run : List Char, (∀ c ∈ run, isNumberChar c = true) → tooLong (before ++ run) = false →
      overlongFrom (.plain before) (run ++ rest) = overlong rest := fun before run hrun hshort => by
    rw [overlongFrom_run hrun hrest, hshort, Bool.false_or]
  simp only [literals, List.mem_cons, List.not_mem_nil, or_false] at h
  rcases h with rfl | rfl | rfl | rfl | rfl | rfl
  · exact hends [] [] nofun rfl
  · exact hends [] ['e'] (by decide) (by decide)
  · exact hends [] ['e'] (by decide) (by decide)
  · exact hends [] [] nofun rfl
  · exact hends [] [] nofun rfl
  · exact hends [] [] nofun rfl

lemma tooLong_intText {n : ℤ} (h : (natText n.natAbs).length ≤ maxStrDigits) : tooLong (intText n) = false := by
  have hdigits : ∀ c ∈ natText n.natAbs, c.isDigit = true := natText_isDigit _
  have hfilter : ((intText n).filter Char.isDigit).length ≤ maxStrDigits := by
    unfold intText
    split_ifs
    · rw [List.filter_cons_of_neg (by decide)]
      exact (List.length_filter_le _ _).trans h
    · exact (List.length_filter_le _ _).trans h
  rw [tooLong, decide_eq_false (not_lt.mpr hfilter), Bool.and_false]

/-- What follows the digits of a number with a fraction or an exponent. -/
lemma isFraction_head {rest : List Char} (h : isFraction rest = true) : ∃ c ∈ rest, c ∈ ['.', 'e', 'E'] := by
  have hexponent : ∀ l : List Char, isExponent l = true → ∃ c ∈ l, c ∈ ['.', 'e', 'E'] := fun l hl => by
    unfold isExponent at hl
    split at hl
    all_goals first
      | cases hl
      | simp only [Bool.and_eq_true, Bool.or_eq_true, decide_eq_true_eq] at hl
        exact ⟨_, List.mem_cons_self, by rcases hl.1.1 with rfl | rfl <;> decide⟩
  unfold isFraction at h
  split at h
  · exact ⟨'.', List.mem_cons_self, by decide⟩
  · exact hexponent _ h

/-- A number with a fraction or an exponent is no integer. -/
lemma tooLong_float {run : List Char} {text : String} (h : number? run = some (.float text)) : tooLong run = false := by
  have hunsigned : ∀ body sign, unsigned? run body sign = some (.float text) → ∃ c ∈ body, c ∈ ['.', 'e', 'E'] := by
    intro body sign hv
    unfold unsigned? at hv
    simp only at hv
    split_ifs at hv with _ _ hfraction
    · cases hv
    · obtain ⟨c, hc, hmem⟩ := isFraction_head hfraction
      exact ⟨c, List.dropWhile_subset _ hc, hmem⟩
  have hrun : ∃ c ∈ run, c ∈ ['.', 'e', 'E'] := by
    unfold number? at h
    split at h
    · obtain ⟨c, hc, hmem⟩ := hunsigned _ _ h
      exact ⟨c, List.mem_cons_of_mem _ hc, hmem⟩
    · exact hunsigned _ _ h
  obtain ⟨c, hc, hmem⟩ := hrun
  have hall : (run.all fun c => decide (c ∉ ['.', 'e', 'E'])) = false :=
    List.all_eq_false.mpr ⟨c, hc, by rw [decide_eq_true_eq]; exact not_not.mpr hmem⟩
  rw [tooLong, hall, Bool.false_and]

namespace Layout

variable (L : Layout)

/-- What a character becomes does not end the string. -/
def Escapes : Prop := ∀ c rest, overlongFrom .string (L.escape c ++ rest) = overlongFrom .string rest

variable {L}

/-- A string is passed over. -/
lemma overlong_quoted (h : L.Escapes) (s : String) (rest : List Char) :
    overlong ('"' :: (L.quoted s ++ rest)) = overlong rest := by
  have hchars : ∀ cs : List Char, overlongFrom .string (cs.flatMap L.escape ++ ('"' :: rest)) = overlong rest := by
    intro cs
    induction cs with
    | nil => rfl
    | cons c cs ih => rw [List.flatMap_cons, List.append_assoc, h, ih]
  rw [quoted, List.append_assoc, List.singleton_append, ← hchars]
  rfl

mutual

/-- A value whose integers have a text is passed over. -/
theorem overlong_write (h : L.Escapes) (j : Json) (hj : j.WellFormed) (hfits : j.fits = true) (depth : ℕ)
    {rest : List Char} (hrest : EndsNumber rest) : overlong (L.write depth j ++ rest) = overlong rest := by
  match j, hj, hfits with
  | .null, _, _ => exact overlong_literal ("null".toList, .null) (by simp [literals]) hrest
  | .bool true, _, _ => exact overlong_literal ("true".toList, .bool true) (by simp [literals]) hrest
  | .bool false, _, _ => exact overlong_literal ("false".toList, .bool false) (by simp [literals]) hrest
  | .int n, _, hfits =>
      exact overlong_number (intText_isNumberChar n) hrest (tooLong_intText (of_decide_eq_true hfits))
  | .float text, hj, _ =>
      rcases floatText_cases hj with hword | ⟨hrun, hnumber⟩
      · exact overlong_literal _ hword hrest
      · exact overlong_number hrun hrest (tooLong_float hnumber)
  | .str s, _, _ =>
      rw [write]
      exact overlong_quoted h s rest
  | .arr [], _, _ => rfl
  | .obj [], _, _ => rfl
  | .arr (j :: js), hj, hfits =>
      obtain ⟨hj, hjs⟩ := hj
      obtain ⟨hfit, hfits⟩ := Bool.and_eq_true_iff.mp hfits
      simp only [write, List.cons_append, List.append_assoc, List.nil_append]
      rw [overlong_cons (by decide) (by decide), overlong_gap (L.first_blank _),
        overlong_write h j hj hfit _ (L.endsNumber_entries depth js _), overlong_entries h js hjs hfits,
        overlong_gap (L.last_blank _), overlong_cons (by decide) (by decide)]
  | .obj ((key, j) :: fields), hj, hfits =>
      obtain ⟨-, hj, hfields⟩ := hj
      obtain ⟨hfit, hfits⟩ := Bool.and_eq_true_iff.mp hfits
      simp only [write, List.cons_append, List.append_assoc, List.nil_append]
      rw [overlong_cons (by decide) (by decide), overlong_gap (L.first_blank _), overlong_quoted h,
        overlong_cons (by decide) (by decide), overlong_gap L.colon_blank,
        overlong_write h j hj hfit _ (L.endsNumber_fields depth fields _), overlong_fields h fields hfields hfits,
        overlong_gap (L.last_blank _), overlong_cons (by decide) (by decide)]

theorem overlong_entries (h : L.Escapes) (js : List Json) (hjs : AllWellFormed js) (hfits : allFit js = true)
    (depth : ℕ) (rest : List Char) :
    overlong (L.writeEntries (depth + 1) js ++ (L.last depth ++ ']' :: rest)) =
      overlong (L.last depth ++ ']' :: rest) := by
  match js, hjs, hfits with
  | [], _, _ => rfl
  | j :: js, hjs, hfits =>
      obtain ⟨hj, hjs⟩ := hjs
      obtain ⟨hfit, hfits⟩ := Bool.and_eq_true_iff.mp hfits
      simp only [writeEntries, List.cons_append, List.append_assoc]
      rw [overlong_cons (by decide) (by decide), overlong_gap (L.next_blank _),
        overlong_write h j hj hfit _ (L.endsNumber_entries depth js _), overlong_entries h js hjs hfits]

theorem overlong_fields (h : L.Escapes) (fields : List (String × Json)) (hfields : FieldsWellFormed fields)
    (hfits : fieldsFit fields = true) (depth : ℕ) (rest : List Char) :
    overlong (L.writeFields (depth + 1) fields ++ (L.last depth ++ '\x7d' :: rest)) =
      overlong (L.last depth ++ '\x7d' :: rest) := by
  match fields, hfields, hfits with
  | [], _, _ => rfl
  | (key, j) :: fields, hfields, hfits =>
      obtain ⟨hj, hfields⟩ := hfields
      obtain ⟨hfit, hfits⟩ := Bool.and_eq_true_iff.mp hfits
      simp only [writeFields, List.cons_append, List.append_assoc]
      rw [overlong_cons (by decide) (by decide), overlong_gap (L.next_blank _), overlong_quoted h,
        overlong_cons (by decide) (by decide), overlong_gap L.colon_blank,
        overlong_write h j hj hfit _ (L.endsNumber_fields depth fields _), overlong_fields h fields hfields hfits]

end

/-- **What is written is read back.** -/
theorem loadsWithin_dumpsWithin (h : L.Escapes) {j : Json} (hj : j.WellFormed) {text : String}
    (htext : dumpsWithin L j = some text) : loadsWithin text = some j := by
  unfold dumpsWithin at htext
  split_ifs at htext with hfits
  cases htext
  have hshort : overlong (L.write 0 j) = false := by
    have hwrite : overlong (L.write 0 j ++ []) = overlong [] := overlong_write h j hj hfits 0 nofun
    rwa [List.append_nil] at hwrite
  rw [loadsWithin, dumpsIn, String.toList_ofList, hshort]
  exact L.loads_line j hj

end Layout

/-! ### The layouts -/

lemma overlongFrom_chars {cs : List Char} (h : ∀ c ∈ cs, c ≠ '"' ∧ c ≠ '\\') (rest : List Char) :
    overlongFrom .string (cs ++ rest) = overlongFrom .string rest := by
  induction cs with
  | nil => rfl
  | cons c cs ih =>
      obtain ⟨⟨hquote, hslash⟩, hcs⟩ := List.forall_mem_cons.mp h
      rw [List.cons_append, overlongFrom, if_neg hquote, if_neg hslash, ih hcs]

lemma overlongFrom_unit {u : ℕ} (h : u < 0x10000) (rest : List Char) :
    overlongFrom .string (unitEscape u ++ rest) = overlongFrom .string rest := by
  have hdigit : ∀ n < 16, hexDigit n ≠ '"' ∧ hexDigit n ≠ '\\' := by decide
  have hdigits : ∀ c ∈ [hexDigit (u / 4096), hexDigit (u / 256 % 16), hexDigit (u / 16 % 16), hexDigit (u % 16)],
      c ≠ '"' ∧ c ≠ '\\' := by
    simp only [List.forall_mem_cons]
    exact ⟨hdigit _ (by omega), hdigit _ (by omega), hdigit _ (by omega), hdigit _ (by omega), nofun⟩
  exact overlongFrom_chars hdigits rest

/-- A layout of one line escapes what would end a string. -/
lemma escapes_line (gap : List Char) (hgap : ∀ c ∈ gap, isBlank c = true) : (Layout.line gap hgap).Escapes := by
  intro c rest
  have hmax : c.toNat < 0x110000 := by
    rcases c.valid with h | h
    · exact lt_trans h (by decide)
    · exact h.2
  show overlongFrom .string (escapeChar c ++ rest) = _
  unfold escapeChar
  split_ifs with hquote hslash _ _ _ _ _ hascii hunit
  · rfl
  · rfl
  · rfl
  · rfl
  · rfl
  · rfl
  · rfl
  · exact overlongFrom_chars (List.forall_mem_singleton.mpr ⟨hquote, hslash⟩) rest
  · exact overlongFrom_unit hunit rest
  · rw [List.append_assoc, overlongFrom_unit (by omega), overlongFrom_unit (by omega)]

end Json
