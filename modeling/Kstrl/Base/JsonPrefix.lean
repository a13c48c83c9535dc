import Kstrl.Base.JsonLayout

/-!
# What is left of a torn JSON text

A text of which the end is missing, and the characters a text has.

* **`extends_all`**: what the readers take from a text, they take with more behind it too, but for a number at
  the end.
* **`loads_torn`** and **`loads_prefix`**: so nothing but the whole text of an object reads at all.
* **`write_forall`** is what holds of every character of a text.
-/

namespace Json

/-! ## More behind a text -/

lemma units?_append {text rest : List Char} {us : List ℕ} (h : units? text = some (us, rest)) (more : List Char) :
    units? (text ++ more) = some (us, rest ++ more) := by
  induction text using units?.induct generalizing us with
  | case1 => simp [units?] at h
  | case2 tail =>
      rw [units?] at h
      cases h
      rfl
  | case3 a b c d tail ih =>
      rw [units?] at h
      simp only [Option.bind_eq_bind, Option.bind_eq_some_iff] at h
      obtain ⟨u, hu, ⟨vs, r⟩, hrest, hsome⟩ := h
      cases hsome
      simp only [List.cons_append]
      rw [units?, hu, ih hrest]
      rfl
  | case4 c tail hnot ih =>
      rw [units?.eq_4 _ _ hnot] at h
      simp only [Option.bind_eq_bind, Option.bind_eq_some_iff] at h
      obtain ⟨u, hu, ⟨vs, r⟩, hrest, hsome⟩ := h
      cases hsome
      have hne : c ≠ 'u' := by
        rintro rfl
        cases hu
      rw [List.cons_append, List.cons_append, units?_short hu hne, ih hrest]
      rfl
  | case5 c tail hquote hslash hslash' hsmall =>
      rw [units?.eq_5 _ _ hquote hslash hslash', if_pos hsmall] at h
      cases h
  | case6 c tail hquote hslash hslash' hlarge ih =>
      rw [units?.eq_5 _ _ hquote hslash hslash', if_neg hlarge] at h
      simp only [Option.bind_eq_bind, Option.bind_eq_some_iff] at h
      obtain ⟨⟨vs, r⟩, hrest, hsome⟩ := h
      cases hsome
      have hne : c ≠ '\\' := by
        rintro rfl
        cases tail with
        | nil => cases hrest
        | cons d tail => exact hslash' d tail rfl rfl
      rw [List.cons_append, units?_raw hquote hne (by omega), ih hrest]
      rfl

lemma unquote?_append {text rest : List Char} {s : String} (h : unquote? text = some (s, rest)) (more : List Char) :
    unquote? (text ++ more) = some (s, rest ++ more) := by
  unfold unquote? at h ⊢
  simp only [Option.bind_eq_bind, Option.bind_eq_some_iff] at h ⊢
  obtain ⟨⟨us, r⟩, hunits, cs, hjoin, hsome⟩ := h
  cases hsome
  exact ⟨(us, r ++ more), units?_append hunits more, cs, hjoin, rfl⟩

/-- A number, which more digits continue. -/
def isNumber : Json → Bool
  | .int _ => true
  | .float _ => true
  | _ => false

lemma number?_isNumber {run : List Char} {v : Json} (h : number? run = some v) : v.isNumber = true := by
  have hunsigned : ∀ body sign, unsigned? run body sign = some v → v.isNumber = true := by
    intro body sign hv
    unfold unsigned? at hv
    simp only at hv
    split_ifs at hv <;> cases hv <;> rfl
  unfold number? at h
  split at h <;> exact hunsigned _ _ h

lemma atom?_append {text rest : List Char} {v : Json} (h : atom? text = some (v, rest))
    (hends : rest ≠ [] ∨ v.isNumber = false) (more : List Char) :
    atom? (text ++ more) = some (v, rest ++ more) := by
  unfold atom? at h
  split at h
  · next word hfind =>
      cases h
      have hmem : word ∈ literals := List.mem_of_find?_eq_some hfind
      have hfront := List.find?_some hfind
      obtain ⟨tail, htail⟩ : word.1 <+: text := List.isPrefixOf_iff_prefix.mp hfront
      rw [← htail, List.drop_left, List.append_assoc]
      exact atom?_literal hmem _
  · simp only [Option.map_eq_some_iff] at h
    obtain ⟨w, hnumber, hsome⟩ := h
    cases hsome
    rw [number?_isNumber hnumber] at hends
    have hne : text.dropWhile isNumberChar ≠ [] := hends.resolve_right nofun
    obtain ⟨c, tail, htail⟩ := List.exists_cons_of_ne_nil hne
    have hc : isNumberChar c = false := by
      have := List.head_dropWhile_not isNumberChar hne
      simpa [htail] using this
    have hsplit : text ++ more = text.takeWhile isNumberChar ++ (text.dropWhile isNumberChar ++ more) := by
      rw [← List.append_assoc, List.takeWhile_append_dropWhile]
    rw [hsplit]
    refine atom?_number (fun d hd => List.mem_takeWhile_imp hd) hnumber ?_
    rw [htail]
    exact endsNumber_cons hc _

lemma skipBlank_append_of_cons {text tail : List Char} {c : Char} (h : skipBlank text = c :: tail)
    (more : List Char) : skipBlank (text ++ more) = c :: (tail ++ more) := by
  unfold skipBlank at h ⊢
  rw [List.dropWhile_append, h]
  rfl

lemma entries?_nil (n : ℕ) : entries? n [] = none := by
  cases n <;> rfl

lemma fields?_nil (n : ℕ) : fields? n [] = none := by
  cases n <;> rfl

/-- What reads under a bound reads with `more` behind it, under any higher bound; a number must not stand at the
end. -/
structure Extends (n : ℕ) (more : List Char) : Prop where
  value : ∀ {text v rest}, value? n text = some (v, rest) → (rest ≠ [] ∨ v.isNumber = false) →
    ∀ m ≥ n, value? m (text ++ more) = some (v, rest ++ more)
  entries : ∀ {text js rest}, entries? n text = some (js, rest) →
    ∀ m ≥ n, entries? m (text ++ more) = some (js, rest ++ more)
  field : ∀ {text field rest}, field? n text = some (field, rest) → (rest ≠ [] ∨ field.2.isNumber = false) →
    ∀ m ≥ n, field? m (text ++ more) = some (field, rest ++ more)
  fields : ∀ {text fields rest}, fields? n text = some (fields, rest) →
    ∀ m ≥ n, fields? m (text ++ more) = some (fields, rest ++ more)

namespace Extends

variable {n : ℕ} {more : List Char}

lemma value_succ (ih : Extends n more) {text v rest} (h : value? (n + 1) text = some (v, rest))
    (hends : rest ≠ [] ∨ v.isNumber = false) : ∀ m ≥ n + 1, value? m (text ++ more) = some (v, rest ++ more) := by
  intro m hm
  obtain ⟨m, rfl⟩ : ∃ k, m = k + 1 := ⟨m - 1, by omega⟩
  have hle : n ≤ m := by omega
  rw [value?] at h ⊢
  cases hskip : skipBlank text with
  | nil => rw [hskip] at h; cases h
  | cons c tail =>
      rw [hskip] at h
      rw [skipBlank_append_of_cons hskip]
      simp only at h ⊢
      by_cases hquote : c = '"'
      · rw [if_pos hquote] at h ⊢
        simp only [Option.map_eq_some_iff] at h ⊢
        obtain ⟨⟨s, r⟩, hs, hsome⟩ := h
        cases hsome
        exact ⟨(s, r ++ more), unquote?_append hs more, rfl⟩
      rw [if_neg hquote] at h ⊢
      by_cases hopen : c = '['
      · rw [if_pos hopen] at h ⊢
        cases hskip' : skipBlank tail with
        | nil => rw [hskip'] at h; cases h
        | cons d tail' =>
            rw [hskip'] at h
            rw [skipBlank_append_of_cons hskip']
            simp only at h ⊢
            by_cases hclose : d = ']'
            · rw [if_pos hclose] at h ⊢
              cases h
              rfl
            rw [if_neg hclose] at h ⊢
            simp only [Option.bind_eq_bind, Option.bind_eq_some_iff] at h ⊢
            obtain ⟨⟨j, r⟩, hj, ⟨js, r'⟩, hjs, hsome⟩ := h
            cases hsome
            refine ⟨_, ih.value hj (Or.inl ?_) m hle, _, ih.entries hjs m hle, rfl⟩
            rintro rfl
            rw [entries?_nil] at hjs
            cases hjs
      rw [if_neg hopen] at h ⊢
      by_cases hbrace : c = '\x7b'
      · rw [if_pos hbrace] at h ⊢
        cases hskip' : skipBlank tail with
        | nil => rw [hskip'] at h; cases h
        | cons d tail' =>
            rw [hskip'] at h
            rw [skipBlank_append_of_cons hskip']
            simp only at h ⊢
            by_cases hclose : d = '\x7d'
            · rw [if_pos hclose] at h ⊢
              cases h
              rfl
            rw [if_neg hclose] at h ⊢
            simp only [Option.bind_eq_bind, Option.bind_eq_some_iff] at h ⊢
            obtain ⟨⟨f, r⟩, hf, ⟨fs, r'⟩, hfs, hsome⟩ := h
            cases hsome
            refine ⟨_, ih.field hf (Or.inl ?_) m hle, _, ih.fields hfs m hle, rfl⟩
            rintro rfl
            rw [fields?_nil] at hfs
            cases hfs
      rw [if_neg hbrace] at h ⊢
      exact atom?_append h hends more

lemma entries_succ (ih : Extends n more) {text js rest} (h : entries? (n + 1) text = some (js, rest)) :
    ∀ m ≥ n + 1, entries? m (text ++ more) = some (js, rest ++ more) := by
  intro m hm
  obtain ⟨m, rfl⟩ : ∃ k, m = k + 1 := ⟨m - 1, by omega⟩
  have hle : n ≤ m := by omega
  rw [entries?] at h ⊢
  cases hskip : skipBlank text with
  | nil => rw [hskip] at h; cases h
  | cons c tail =>
      rw [hskip] at h
      rw [skipBlank_append_of_cons hskip]
      simp only at h ⊢
      by_cases hclose : c = ']'
      · rw [if_pos hclose] at h ⊢
        cases h
        rfl
      rw [if_neg hclose] at h ⊢
      by_cases hcomma : c = ','
      · rw [if_pos hcomma] at h ⊢
        simp only [Option.bind_eq_bind, Option.bind_eq_some_iff] at h ⊢
        obtain ⟨⟨j, r⟩, hj, ⟨js, r'⟩, hjs, hsome⟩ := h
        cases hsome
        refine ⟨_, ih.value hj (Or.inl ?_) m hle, _, ih.entries hjs m hle, rfl⟩
        rintro rfl
        rw [entries?_nil] at hjs
        cases hjs
      · rw [if_neg hcomma] at h
        cases h

lemma field_succ (ih : Extends n more) {text field rest} (h : field? (n + 1) text = some (field, rest))
    (hends : rest ≠ [] ∨ field.2.isNumber = false) :
    ∀ m ≥ n + 1, field? m (text ++ more) = some (field, rest ++ more) := by
  intro m hm
  obtain ⟨m, rfl⟩ : ∃ k, m = k + 1 := ⟨m - 1, by omega⟩
  have hle : n ≤ m := by omega
  rw [field?] at h ⊢
  cases hskip : skipBlank text with
  | nil => rw [hskip] at h; cases h
  | cons c tail =>
      rw [hskip] at h
      rw [skipBlank_append_of_cons hskip]
      simp only at h ⊢
      by_cases hquote : c = '"'
      · rw [if_pos hquote] at h ⊢
        simp only [Option.bind_eq_bind, Option.bind_eq_some_iff] at h ⊢
        obtain ⟨⟨key, r⟩, hkey, h⟩ := h
        refine ⟨_, unquote?_append hkey more, ?_⟩
        simp only at h ⊢
        cases hskip' : skipBlank r with
        | nil => rw [hskip'] at h; cases h
        | cons d tail' =>
            rw [hskip'] at h
            rw [skipBlank_append_of_cons hskip']
            simp only at h ⊢
            by_cases hcolon : d = ':'
            · rw [if_pos hcolon] at h ⊢
              simp only [Option.bind_eq_some_iff] at h ⊢
              obtain ⟨⟨j, r'⟩, hj, hsome⟩ := h
              cases hsome
              exact ⟨_, ih.value hj hends m hle, rfl⟩
            · rw [if_neg hcolon] at h
              cases h
      · rw [if_neg hquote] at h
        cases h

lemma fields_succ (ih : Extends n more) {text fields rest} (h : fields? (n + 1) text = some (fields, rest)) :
    ∀ m ≥ n + 1, fields? m (text ++ more) = some (fields, rest ++ more) := by
  intro m hm
  obtain ⟨m, rfl⟩ : ∃ k, m = k + 1 := ⟨m - 1, by omega⟩
  have hle : n ≤ m := by omega
  rw [fields?] at h ⊢
  cases hskip : skipBlank text with
  | nil => rw [hskip] at h; cases h
  | cons c tail =>
      rw [hskip] at h
      rw [skipBlank_append_of_cons hskip]
      simp only at h ⊢
      by_cases hclose : c = '\x7d'
      · rw [if_pos hclose] at h ⊢
        cases h
        rfl
      rw [if_neg hclose] at h ⊢
      by_cases hcomma : c = ','
      · rw [if_pos hcomma] at h ⊢
        simp only [Option.bind_eq_bind, Option.bind_eq_some_iff] at h ⊢
        obtain ⟨⟨f, r⟩, hf, ⟨fs, r'⟩, hfs, hsome⟩ := h
        cases hsome
        refine ⟨_, ih.field hf (Or.inl ?_) m hle, _, ih.fields hfs m hle, rfl⟩
        rintro rfl
        rw [fields?_nil] at hfs
        cases hfs
      · rw [if_neg hcomma] at h
        cases h

end Extends

/-- **What reads, reads with more behind it.** -/
theorem extends_all (n : ℕ) (more : List Char) : Extends n more := by
  induction n with
  | zero => exact ⟨nofun, nofun, nofun, nofun⟩
  | succ n ih => exact ⟨ih.value_succ, ih.entries_succ, ih.field_succ, ih.fields_succ⟩

/-- What starts with a brace reads as an object. -/
lemma value?_brace {n : ℕ} {text rest : List Char} {v : Json} (h : value? n ('\x7b' :: text) = some (v, rest)) :
    v.isNumber = false := by
  cases n with
  | zero => cases h
  | succ n =>
      rw [value?, skipBlank_cons (by decide)] at h
      simp only [if_neg (show ¬ '\x7b' = '"' by decide), if_neg (show ¬ '\x7b' = '[' by decide), if_true] at h
      cases hskip : skipBlank text with
      | nil => rw [hskip] at h; cases h
      | cons d tail =>
          rw [hskip] at h
          simp only at h
          split_ifs at h
          · cases h
            rfl
          · simp only [Option.bind_eq_bind, Option.bind_eq_some_iff] at h
            obtain ⟨_, _, _, _, hsome⟩ := h
            cases hsome
            rfl

lemma loads_eq_some {text : List Char} {v : Json} (h : loads (String.ofList text) = some v) :
    ∃ rest, value? (text.length + 1) text = some (v, rest) ∧ skipBlank rest = [] := by
  rw [loads, String.toList_ofList] at h
  split at h
  · next j rest hvalue =>
      split_ifs at h with hrest
      cases h
      exact ⟨rest, hvalue, hrest⟩
  · cases h

/-- **Nothing but the whole text of an object** reads. -/
theorem loads_torn {object text more : List Char} {v : Json} (hobject : loads (String.ofList object) = some v)
    (hopen : object.head? = some '\x7b') (hmore : object = text ++ more) (hlast : ∀ c ∈ more.getLast?, isBlank c = false)
    (hne : more ≠ []) : loads (String.ofList text) = none := by
  cases hread : loads (String.ofList text) with
  | none => rfl
  | some w =>
      exfalso
      obtain ⟨rest, hvalue, hrest⟩ := loads_eq_some hread
      obtain ⟨rest', hvalue', hrest'⟩ := loads_eq_some hobject
      have hnumber : w.isNumber = false := by
        cases text with
        | nil => cases hvalue
        | cons c text =>
            rw [hmore] at hopen
            rw [Option.some.inj hopen] at hvalue
            exact value?_brace hvalue
      have hlong := (extends_all _ more).value hvalue (Or.inr hnumber) (object.length + 1)
        (by rw [hmore, List.length_append]; omega)
      rw [← hmore, hvalue'] at hlong
      have hends : rest' = rest ++ more := (Prod.mk.inj (Option.some.inj hlong)).2
      have hblank := List.dropWhile_eq_nil_iff.mp (hends ▸ hrest')
      have hmem := List.getLast_mem hne
      have hlast' := hlast _ (List.getLast?_eq_some_getLast hne)
      rw [hblank _ (List.mem_append_right _ hmem)] at hlast'
      cases hlast'

namespace Layout

variable (L : Layout)

lemma write_obj (depth : ℕ) (fields : List (String × Json)) :
    ∃ tail, L.write depth (.obj fields) = '\x7b' :: tail := by
  cases fields with
  | nil => exact ⟨_, rfl⟩
  | cons field fields => exact ⟨_, rfl⟩

lemma write_obj_last (depth : ℕ) (fields : List (String × Json)) :
    ∃ init, L.write depth (.obj fields) = init ++ ['\x7d'] := by
  cases fields with
  | nil => exact ⟨['\x7b'], rfl⟩
  | cons field fields =>
      refine ⟨'\x7b' :: (L.first (depth + 1) ++ ('"' :: (L.quoted field.1 ++ (':' :: (L.colon ++
        (L.write (depth + 1) field.2 ++ (L.writeFields (depth + 1) fields ++ L.last depth))))))), ?_⟩
      simp [write]

/-- **A torn object is no document.** -/
theorem loads_prefix {fields : List (String × Json)} (hj : (Json.obj fields).WellFormed) {text : List Char}
    (h : text <+: L.write 0 (.obj fields)) (hne : text ≠ L.write 0 (.obj fields)) :
    loads (String.ofList text) = none := by
  obtain ⟨more, hmore⟩ := h
  obtain ⟨tail, htail⟩ := L.write_obj 0 fields
  obtain ⟨init, hinit⟩ := L.write_obj_last 0 fields
  have hnil : more ≠ [] := by
    rintro rfl
    exact hne (by rw [← hmore, List.append_nil])
  refine loads_torn (L.loads_line _ hj) (by rw [htail]; rfl) hmore.symm ?_ hnil
  have hlast := congrArg List.getLast? (hmore.trans hinit)
  rw [List.getLast?_append_of_ne_nil _ hnil, List.getLast?_concat] at hlast
  rw [hlast]
  decide

end Layout

/-! ## The characters of a text -/

/-- Printable ASCII. -/
def Printable (c : Char) : Prop := 32 ≤ c.toNat ∧ c.toNat ≤ 126

instance (c : Char) : Decidable (Printable c) := inferInstanceAs (Decidable (_ ∧ _))

lemma printable_of_isNumberChar {c : Char} (h : isNumberChar c = true) : Printable c := by
  unfold isNumberChar Char.isDigit at h
  unfold Printable
  simp only [Bool.or_eq_true, Bool.and_eq_true, decide_eq_true_eq, List.mem_cons, List.not_mem_nil, or_false] at h
  rcases h with ⟨hlo, hhi⟩ | rfl | rfl | rfl | rfl | rfl
  · have hlo' : 48 ≤ c.toNat := hlo
    have hhi' : c.toNat ≤ 57 := hhi
    omega
  all_goals decide

lemma printable_of_floatText {text : String} (h : FloatText text) : ∀ c ∈ text.toList, Printable c := by
  rcases h with h | ⟨h, -⟩
  · simp only [List.mem_cons, List.not_mem_nil, or_false] at h
    rcases h with rfl | rfl | rfl <;> decide
  · exact fun c hc => printable_of_isNumberChar (h c hc)

namespace Layout

variable (L : Layout)

/-- What holds of every printable character, of what stands between the parts and of what a character becomes. -/
structure Characters (P : Char → Prop) : Prop where
  printable : ∀ c, Printable c → P c
  escape : ∀ c, ∀ d ∈ L.escape c, P d
  first : ∀ depth, ∀ c ∈ L.first depth, P c
  next : ∀ depth, ∀ c ∈ L.next depth, P c
  last : ∀ depth, ∀ c ∈ L.last depth, P c
  colon : ∀ c ∈ L.colon, P c

variable {L} {P : Char → Prop}

lemma Characters.quoted (h : L.Characters P) (s : String) : ∀ c ∈ L.quoted s, P c := by
  intro c hc
  rcases List.mem_append.mp hc with hc | hc
  · obtain ⟨d, -, hd⟩ := List.mem_flatMap.mp hc
    exact h.escape d c hd
  · rw [List.mem_singleton.mp hc]
    exact h.printable _ (by decide)

lemma Characters.word (h : L.Characters P) (word : List Char) (hword : ∀ c ∈ word, Printable c) :
    ∀ c ∈ word, P c :=
  fun c hc => h.printable c (hword c hc)

mutual

/-- It holds of every character of a text. -/
theorem write_forall (h : L.Characters P) (j : Json) (hj : j.WellFormed) (depth : ℕ) :
    ∀ c ∈ L.write depth j, P c := by
  match j, hj with
  | .null, _ => exact h.word "null".toList (by decide)
  | .bool true, _ => exact h.word "true".toList (by decide)
  | .bool false, _ => exact h.word "false".toList (by decide)
  | .int n, _ => exact h.word _ fun c hc => printable_of_isNumberChar (intText_isNumberChar n c hc)
  | .float text, hj => exact h.word _ (printable_of_floatText hj)
  | .str s, _ =>
      rw [write]
      exact List.forall_mem_cons.mpr ⟨h.printable _ (by decide), h.quoted s⟩
  | .arr [], _ => exact h.word ['[', ']'] (by decide)
  | .obj [], _ => exact h.word ['\x7b', '\x7d'] (by decide)
  | .arr (j :: js), hj =>
      rw [write]
      simp only [List.forall_mem_cons, List.forall_mem_append]
      exact ⟨h.printable _ (by decide), h.first _, write_forall h j hj.1 _, writeEntries_forall h js hj.2 _,
        h.last _, h.printable _ (by decide), nofun⟩
  | .obj ((key, j) :: fields), hj =>
      rw [write]
      simp only [List.forall_mem_cons, List.forall_mem_append]
      exact ⟨h.printable _ (by decide), h.first _, h.printable _ (by decide), h.quoted key,
        h.printable _ (by decide), h.colon, write_forall h j hj.2.1 _, writeFields_forall h fields hj.2.2 _,
        h.last _, h.printable _ (by decide), nofun⟩

theorem writeEntries_forall (h : L.Characters P) (js : List Json) (hjs : AllWellFormed js) (depth : ℕ) :
    ∀ c ∈ L.writeEntries depth js, P c := by
  match js, hjs with
  | [], _ => exact nofun
  | j :: js, hjs =>
      rw [writeEntries]
      simp only [List.forall_mem_cons, List.forall_mem_append]
      exact ⟨h.printable _ (by decide), h.next _, write_forall h j hjs.1 _, writeEntries_forall h js hjs.2 _⟩

theorem writeFields_forall (h : L.Characters P) (fields : List (String × Json)) (hfields : FieldsWellFormed fields)
    (depth : ℕ) : ∀ c ∈ L.writeFields depth fields, P c := by
  match fields, hfields with
  | [], _ => exact nofun
  | (key, j) :: fields, hfields =>
      rw [writeFields]
      simp only [List.forall_mem_cons, List.forall_mem_append]
      exact ⟨h.printable _ (by decide), h.next _, h.printable _ (by decide), h.quoted key,
        h.printable _ (by decide), h.colon, write_forall h j hfields.1 _, writeFields_forall h fields hfields.2 _⟩

end

end Layout

/-! ### The characters of the layouts -/

lemma unitEscape_printable {u : ℕ} (h : u < 0x10000) : ∀ c ∈ unitEscape u, Printable c := by
  have hdigit : ∀ n < 16, Printable (hexDigit n) := by decide
  unfold unitEscape
  simp only [List.forall_mem_cons]
  exact ⟨by decide, by decide, hdigit _ (by omega), hdigit _ (by omega), hdigit _ (by omega), hdigit _ (by omega),
    nofun⟩

lemma escapeChar_printable (c : Char) : ∀ d ∈ escapeChar c, Printable d := by
  have hmax : c.toNat < 0x110000 := by
    rcases c.valid with h | h
    · exact lt_trans h (by decide)
    · exact h.2
  unfold escapeChar
  split_ifs with _ _ _ _ _ _ _ h8 h9
  · decide
  · decide
  · decide
  · decide
  · decide
  · decide
  · decide
  · exact List.forall_mem_singleton.mpr h8
  · exact unitEscape_printable h9
  · exact List.forall_mem_append.mpr ⟨unitEscape_printable (by omega), unitEscape_printable (by omega)⟩

lemma plainChar_visible (c : Char) : ∀ d ∈ plainChar c, 32 ≤ d.toNat := by
  unfold plainChar
  split_ifs with _ _ _ _ _ _ _ h8
  · decide
  · decide
  · decide
  · decide
  · decide
  · decide
  · decide
  · exact fun d hd => (unitEscape_printable (by omega) d hd).1
  · exact List.forall_mem_singleton.mpr (by omega)

/-- One line of printable ASCII. -/
lemma line_characters {gap : List Char} {hgap : ∀ c ∈ gap, isBlank c = true} (h : ∀ c ∈ gap, Printable c) :
    (Layout.line gap hgap).Characters Printable where
  printable := fun _ hc => hc
  escape := escapeChar_printable
  first := fun _ => nofun
  next := fun _ => h
  last := fun _ => nofun
  colon := h

lemma spaced_characters : Layout.spaced.Characters Printable := line_characters (by decide)

lemma compact_characters : Layout.compact.Characters Printable := line_characters nofun

/-- One line without control characters. -/
lemma plain_characters : Layout.plain.Characters fun c => 32 ≤ c.toNat where
  printable := fun _ hc => hc.1
  escape := plainChar_visible
  first := fun _ => nofun
  next := fun _ => show ∀ c ∈ [' '], 32 ≤ c.toNat by decide
  last := fun _ => nofun
  colon := by decide

end Json
