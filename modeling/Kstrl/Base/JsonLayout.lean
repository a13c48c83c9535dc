import Kstrl.Base.JsonText

/-!
# The layouts of a JSON text

`json.dumps` under its arguments: with an indentation or on one line, with its separators, and with
characters outside ASCII escaped or as they are.

* **`Layout`** is a choice of these; whatever it puts between the parts of a text is white space, and what it
  writes for a character reads as that character.
* **`loads_write`** is the round trip, and `loads_dumps` the one of `dumps`.
* **`loads_prefix`** says that nothing but the whole text of an object reads at all: what a torn write leaves
  of it is no document.
-/

namespace Json

/-- How a text is laid out. -/
structure Layout where
  /-- a character inside a string -/
  escape : Char → List Char
  /-- the code units it reads as -/
  units : Char → List ℕ
  /-- behind an opening bracket -/
  first : ℕ → List Char
  /-- behind a comma -/
  next : ℕ → List Char
  /-- in front of a closing bracket -/
  last : ℕ → List Char
  /-- behind a colon -/
  colon : List Char
  escape_units : ∀ c rest, units? (escape c ++ rest) = (units? rest).map fun p => (units c ++ p.1, p.2)
  units_join : ∀ c us, joinUnits (units c ++ us) = (joinUnits us).map (c :: ·)
  first_blank : ∀ depth, ∀ c ∈ first depth, isBlank c = true
  next_blank : ∀ depth, ∀ c ∈ next depth, isBlank c = true
  last_blank : ∀ depth, ∀ c ∈ last depth, isBlank c = true
  colon_blank : ∀ c ∈ colon, isBlank c = true

namespace Layout

variable (L : Layout)

/-- A string literal behind its opening quote. -/
def quoted (s : String) : List Char := s.toList.flatMap L.escape ++ ['"']

mutual

/-- The text of a value, at a depth. -/
def write (depth : ℕ) : Json → List Char
  | .null => "null".toList
  | .bool true => "true".toList
  | .bool false => "false".toList
  | .int n => intText n
  | .float text => text.toList
  | .str s => '"' :: L.quoted s
  | .arr [] => ['[', ']']
  | .arr (j :: js) =>
      '[' :: (L.first (depth + 1) ++ (write (depth + 1) j ++ (writeEntries (depth + 1) js ++
        (L.last depth ++ [']']))))
  | .obj [] => ['\x7b', '\x7d']
  | .obj ((key, j) :: fields) =>
      '\x7b' :: (L.first (depth + 1) ++ ('"' :: (L.quoted key ++ (':' :: (L.colon ++ (write (depth + 1) j ++
        (writeFields (depth + 1) fields ++ (L.last depth ++ ['\x7d']))))))))

/-- The entries behind the first one. -/
def writeEntries (depth : ℕ) : List Json → List Char
  | [] => []
  | j :: js => ',' :: (L.next depth ++ (write depth j ++ writeEntries depth js))

/-- The fields behind the first one. -/
def writeFields (depth : ℕ) : List (String × Json) → List Char
  | [] => []
  | (key, j) :: fields =>
      ',' :: (L.next depth ++ ('"' :: (L.quoted key ++ (':' :: (L.colon ++ (write depth j ++
        writeFields depth fields))))))

end

/-! ## The parts of a text -/

lemma unquote?_quoted (s : String) (rest : List Char) : unquote? (L.quoted s ++ rest) = some (s, rest) := by
  have hunits : ∀ cs : List Char,
      units? (cs.flatMap L.escape ++ ('"' :: rest)) = some (cs.flatMap L.units, rest) := by
    intro cs
    induction cs with
    | nil => rfl
    | cons c cs ih => simp [L.escape_units, ih]
  have hjoin : ∀ cs : List Char, joinUnits (cs.flatMap L.units) = some cs := by
    intro cs
    induction cs with
    | nil => rfl
    | cons c cs ih => rw [List.flatMap_cons, L.units_join, ih, Option.map_some]
  rw [quoted, List.append_assoc, List.singleton_append, unquote?, hunits]
  show (joinUnits _).bind _ = _
  rw [hjoin]
  simp

end Layout

lemma skipBlank_append {gap : List Char} (h : ∀ c ∈ gap, isBlank c = true) (text : List Char) :
    skipBlank (gap ++ text) = skipBlank text :=
  List.dropWhile_append_of_pos h

lemma newline_blank (depth : ℕ) : ∀ c ∈ newline depth, isBlank c = true := by
  intro c hc
  rcases List.mem_cons.mp hc with rfl | hc
  · rfl
  · rw [List.eq_of_mem_replicate hc]
    rfl

lemma skipBlank_cons {c : Char} (h : isBlank c = false) (text : List Char) : skipBlank (c :: text) = c :: text := by
  simp [skipBlank, h]

lemma setField_fresh {key : String} {j : Json} {fields : List (String × Json)}
    (h : key ∉ fields.map Prod.fst) : setField key j fields = fields ++ [(key, j)] := by
  induction fields with
  | nil => rfl
  | cons field rest ih =>
      obtain ⟨k, v⟩ := field
      rw [List.map_cons, List.mem_cons, not_or] at h
      rw [setField, if_neg (Ne.symm h.1), ih h.2]
      rfl

lemma dictOf_eq {fields : List (String × Json)} (h : (fields.map Prod.fst).Nodup) :
    dictOf fields = fields := by
  induction fields using List.reverseRecOn with
  | nil => rfl
  | append_singleton fields field ih =>
      rw [List.map_append, List.nodup_append] at h
      rw [dictOf, List.foldl_append, ← dictOf, ih h.1]
      refine setField_fresh fun hmem => ?_
      exact h.2.2 _ hmem _ (List.mem_map_of_mem List.mem_cons_self) rfl

/-- The characters a value starts with. -/
lemma isDigit_of_number {run : List Char} {v : Json} (h : number? run = some v) :
    ∃ c rest, run = c :: rest ∧ isBlank c = false ∧ c ∉ ['"', '[', ']', '\x7b'] := by
  obtain ⟨c, rest, hc, hdigit⟩ := number?_head h
  rcases hc with rfl | rfl
  · have hall : ∀ d ∈ [' ', '\t', '\n', '\r', '"', '[', ']', '\x7b'], Char.isDigit d = false := by decide
    have hne : c ∉ [' ', '\t', '\n', '\r', '"', '[', ']', '\x7b'] := by
      intro hmem
      rw [hall c hmem] at hdigit
      cases hdigit
    refine ⟨c, rest, rfl, decide_eq_false fun hmem => hne ?_, fun hmem => hne ?_⟩
    · exact List.mem_append_left ['"', '[', ']', '\x7b'] hmem
    · exact List.mem_append_right [' ', '\t', '\n', '\r'] hmem
  · exact ⟨'-', c :: rest, rfl, by decide, by decide⟩

/-- What is read of a value is what is read behind the white space in front of it. -/
lemma value?_skipBlank (n : ℕ) (text : List Char) : value? n (skipBlank text) = value? n text := by
  have hidem : skipBlank (skipBlank text) = skipBlank text := List.dropWhile_idempotent _ text
  cases n with
  | zero => rfl
  | succ n => rw [value?, value?, hidem]

lemma field?_skipBlank (n : ℕ) (text : List Char) : field? n (skipBlank text) = field? n text := by
  have hidem : skipBlank (skipBlank text) = skipBlank text := List.dropWhile_idempotent _ text
  cases n with
  | zero => rfl
  | succ n => rw [field?, field?, hidem]

lemma value?_gap {gap : List Char} (h : ∀ c ∈ gap, isBlank c = true) (n : ℕ) (text : List Char) :
    value? n (gap ++ text) = value? n text := by
  rw [← value?_skipBlank, skipBlank_append h, value?_skipBlank]

lemma field?_gap {gap : List Char} (h : ∀ c ∈ gap, isBlank c = true) (n : ℕ) (text : List Char) :
    field? n (gap ++ text) = field? n text := by
  rw [← field?_skipBlank, skipBlank_append h, field?_skipBlank]

lemma endsNumber_cons {c : Char} (hc : isNumberChar c = false) (rest : List Char) : EndsNumber (c :: rest) := by
  rintro d ⟨⟩
  exact hc

lemma endsNumber_gap {gap : List Char} (h : ∀ c ∈ gap, isBlank c = true) {rest : List Char}
    (hrest : EndsNumber rest) : EndsNumber (gap ++ rest) := by
  cases gap with
  | nil => exact hrest
  | cons c gap =>
      have hall : ∀ d ∈ [' ', '\t', '\n', '\r'], isNumberChar d = false := by decide
      exact endsNumber_cons (hall c (of_decide_eq_true (h c List.mem_cons_self))) _

/-- A word or a number. -/
lemma value?_atom {n : ℕ} {text rest : List Char} {v : Json} {c : Char} {tail : List Char}
    (htext : text = c :: tail) (hblank : isBlank c = false) (hc : c ∉ ['"', '[', ']', '\x7b'])
    (h : atom? (text ++ rest) = some (v, rest)) : value? (n + 1) (text ++ rest) = some (v, rest) := by
  subst htext
  simp only [List.mem_cons, List.not_mem_nil, or_false, not_or] at hc
  rw [value?, List.cons_append, skipBlank_cons hblank]
  simp only [if_neg hc.1, if_neg hc.2.1, if_neg hc.2.2.2]
  exact h

lemma atom?_literal {word : List Char × Json} (h : word ∈ literals) (rest : List Char) :
    atom? (word.1 ++ rest) = some (word.2, rest) := by
  simp only [literals, List.mem_cons, List.not_mem_nil, or_false] at h
  rcases h with rfl | rfl | rfl | rfl | rfl | rfl <;> rfl

lemma literal_head {word : List Char × Json} (h : word ∈ literals) :
    ∃ c tail, word.1 = c :: tail ∧ isBlank c = false ∧ c ∉ ['"', '[', ']', '\x7b'] := by
  simp only [literals, List.mem_cons, List.not_mem_nil, or_false] at h
  rcases h with rfl | rfl | rfl | rfl | rfl | rfl <;> exact ⟨_, _, rfl, by decide, by decide⟩

/-- A word reads back. -/
lemma value?_literal (word : List Char × Json) (h : word ∈ literals) (n : ℕ) (rest : List Char) :
    value? (n + 1) (word.1 ++ rest) = some (word.2, rest) := by
  obtain ⟨c, tail, hc, hblank, hne⟩ := literal_head h
  exact value?_atom hc hblank hne (atom?_literal h rest)

/-- A number reads back. -/
lemma value?_number {run rest : List Char} {v : Json} (hrun : ∀ c ∈ run, isNumberChar c = true)
    (hv : number? run = some v) (hrest : EndsNumber rest) (n : ℕ) :
    value? (n + 1) (run ++ rest) = some (v, rest) := by
  obtain ⟨c, tail, hc, hblank, hne⟩ := isDigit_of_number hv
  exact value?_atom hc hblank hne (atom?_number hrun hv hrest)

/-- A `float` is a word or a number. -/
lemma floatText_cases {text : String} (h : FloatText text) :
    (text.toList, .float text) ∈ literals ∨
      (∀ c ∈ text.toList, isNumberChar c = true) ∧ number? text.toList = some (.float text) := by
  rcases h with h | h
  · simp only [List.mem_cons, List.not_mem_nil, or_false] at h
    rcases h with rfl | rfl | rfl <;> exact Or.inl (by simp [literals])
  · exact Or.inr ⟨h.1, eq_of_isFloat h.2⟩

/-! ## The round trip -/

namespace Layout

variable (L : Layout)

/-- What a value starts with. -/
lemma write_head (j : Json) (hj : j.WellFormed) (depth : ℕ) :
    ∃ c tail, L.write depth j = c :: tail ∧ isBlank c = false ∧ c ≠ ']' := by
  have hatom : ∀ text : List Char,
      (∃ c tail, text = c :: tail ∧ isBlank c = false ∧ c ∉ ['"', '[', ']', '\x7b']) →
      ∃ c tail, text = c :: tail ∧ isBlank c = false ∧ c ≠ ']' := by
    rintro text ⟨c, tail, htext, hblank, hc⟩
    exact ⟨c, tail, htext, hblank, fun hsame => hc (by simp [hsame])⟩
  cases j with
  | null => exact ⟨'n', _, rfl, by decide, by decide⟩
  | bool b => cases b <;> exact ⟨_, _, rfl, by decide, by decide⟩
  | int n => exact hatom _ (isDigit_of_number (number?_intText n))
  | float text =>
      rcases floatText_cases hj with hword | ⟨-, hnumber⟩
      · exact hatom _ (literal_head hword)
      · exact hatom _ (isDigit_of_number hnumber)
  | str s => exact ⟨'"', _, rfl, by decide, by decide⟩
  | arr js => cases js <;> exact ⟨'[', _, rfl, by decide, by decide⟩
  | obj fields =>
      cases fields with
      | nil => exact ⟨'\x7b', _, rfl, by decide, by decide⟩
      | cons field rest => exact ⟨'\x7b', _, rfl, by decide, by decide⟩

lemma skipBlank_write (j : Json) (hj : j.WellFormed) (depth : ℕ) (rest : List Char) :
    ∃ c tail, L.write depth j ++ rest = c :: tail ∧ skipBlank (L.write depth j ++ rest) = c :: tail ∧
      c ≠ ']' := by
  obtain ⟨c, tail, hwrite, hblank, hc⟩ := L.write_head j hj depth
  refine ⟨c, tail ++ rest, by rw [hwrite]; rfl, ?_, hc⟩
  rw [hwrite, List.cons_append, skipBlank_cons hblank]

/-- What follows an entry ends a number. -/
lemma endsNumber_entries (depth : ℕ) (js : List Json) (rest : List Char) :
    EndsNumber (L.writeEntries (depth + 1) js ++ (L.last depth ++ ']' :: rest)) := by
  cases js with
  | nil => exact endsNumber_gap (L.last_blank depth) (endsNumber_cons (by decide) rest)
  | cons j js => exact endsNumber_cons (by decide) _

lemma endsNumber_fields (depth : ℕ) (fields : List (String × Json)) (rest : List Char) :
    EndsNumber (L.writeFields (depth + 1) fields ++ (L.last depth ++ '\x7d' :: rest)) := by
  cases fields with
  | nil => exact endsNumber_gap (L.last_blank depth) (endsNumber_cons (by decide) rest)
  | cons field fields => exact endsNumber_cons (by decide) _

lemma field?_write (key : String) {j : Json} {n depth : ℕ} {text rest : List Char}
    (h : value? n (L.write depth j ++ text) = some (j, rest)) :
    field? (n + 1) ('"' :: (L.quoted key ++ (':' :: (L.colon ++ (L.write depth j ++ text))))) =
      some ((key, j), rest) := by
  rw [field?, skipBlank_cons (by decide)]
  simp only [if_true]
  rw [unquote?_quoted]
  simp only [Option.bind_eq_bind, Option.bind_some, skipBlank_cons (show isBlank ':' = false by decide), if_true]
  rw [value?_gap L.colon_blank, h]
  rfl

mutual

/-- A value reads back from its text. -/
theorem value?_write (j : Json) (hj : j.WellFormed) (depth n : ℕ) (rest : List Char)
    (hn : (L.write depth j).length ≤ n) (hrest : EndsNumber rest) :
    value? n (L.write depth j ++ rest) = some (j, rest) := by
  have hpos : 0 < n := by
    obtain ⟨c, tail, hwrite, -⟩ := L.write_head j hj depth
    rw [hwrite, List.length_cons] at hn
    omega
  obtain ⟨n, rfl⟩ := Nat.exists_eq_add_one_of_ne_zero hpos.ne'
  match j, hj with
  | .null, _ => exact value?_literal ("null".toList, .null) (by simp [literals]) n rest
  | .bool true, _ => exact value?_literal ("true".toList, .bool true) (by simp [literals]) n rest
  | .bool false, _ => exact value?_literal ("false".toList, .bool false) (by simp [literals]) n rest
  | .int m, _ => exact value?_number (intText_isNumberChar m) (number?_intText m) hrest n
  | .float text, hj =>
      rcases floatText_cases hj with hword | ⟨hrun, hnumber⟩
      · exact value?_literal _ hword n rest
      · exact value?_number hrun hnumber hrest n
  | .str s, _ =>
      rw [write, List.cons_append, value?, skipBlank_cons (by decide)]
      simp only [if_true]
      rw [unquote?_quoted]
      rfl
  | .arr [], _ => rfl
  | .obj [], _ => rfl
  | .arr (j :: js), hj =>
      obtain ⟨hj, hjs⟩ := hj
      simp only [write, List.length_cons, List.length_append] at hn
      simp only [write, List.cons_append, List.append_assoc, List.nil_append]
      have hfirst := value?_write j hj (depth + 1) n
        (L.writeEntries (depth + 1) js ++ (L.last depth ++ ']' :: rest)) (by omega)
        (L.endsNumber_entries depth js _)
      have hothers := entries?_write js hjs depth n rest (by omega)
      obtain ⟨c, tail, hcons, hskip, hc⟩ := L.skipBlank_write j hj (depth + 1)
        (L.writeEntries (depth + 1) js ++ (L.last depth ++ ']' :: rest))
      rw [value?, skipBlank_cons (by decide)]
      simp only [if_neg (show ¬ '[' = '"' by decide), if_true]
      rw [skipBlank_append (L.first_blank _), hskip]
      simp only [if_neg hc]
      rw [← hcons, hfirst]
      show (entries? n _).bind _ = _
      rw [hothers]
      rfl
  | .obj ((key, j) :: fields), hj =>
      obtain ⟨hnodup, hj, hfields⟩ := hj
      simp only [write, List.length_cons, List.length_append] at hn
      simp only [write, List.cons_append, List.append_assoc, List.nil_append]
      obtain ⟨k, rfl⟩ : ∃ k, n = k + 1 := ⟨n - 1, by omega⟩
      have hfirst := value?_write j hj (depth + 1) k
        (L.writeFields (depth + 1) fields ++ (L.last depth ++ '\x7d' :: rest)) (by omega)
        (L.endsNumber_fields depth fields _)
      have hothers := fields?_write fields hfields depth (k + 1) rest (by omega)
      rw [value?, skipBlank_cons (by decide)]
      simp only [if_neg (show ¬ '\x7b' = '"' by decide), if_neg (show ¬ '\x7b' = '[' by decide), if_true]
      rw [skipBlank_append (L.first_blank _), skipBlank_cons (by decide)]
      simp only [if_neg (show ¬ '"' = '\x7d' by decide)]
      rw [L.field?_write key hfirst]
      show ((fields? (k + 1) _).bind fun q => some (Json.obj (dictOf ((key, j) :: q.1)), q.2)) = _
      rw [hothers, Option.bind_some, dictOf_eq hnodup]

theorem entries?_write (js : List Json) (hjs : AllWellFormed js) (depth n : ℕ) (rest : List Char)
    (hn : (L.writeEntries (depth + 1) js).length < n) :
    entries? n (L.writeEntries (depth + 1) js ++ (L.last depth ++ ']' :: rest)) = some (js, rest) := by
  obtain ⟨n, rfl⟩ := Nat.exists_eq_add_one_of_ne_zero (Nat.ne_of_gt (Nat.zero_lt_of_lt hn))
  match js, hjs with
  | [], _ =>
      rw [writeEntries, List.nil_append, entries?, skipBlank_append (L.last_blank depth), skipBlank_cons (by decide)]
      rfl
  | j :: js, hjs =>
      obtain ⟨hj, hjs⟩ := hjs
      simp only [writeEntries, List.length_cons, List.length_append] at hn
      simp only [writeEntries, List.cons_append, List.append_assoc]
      have hfirst := value?_write j hj (depth + 1) n
        (L.writeEntries (depth + 1) js ++ (L.last depth ++ ']' :: rest)) (by omega)
        (L.endsNumber_entries depth js _)
      have hothers := entries?_write js hjs depth n rest (by omega)
      rw [entries?, skipBlank_cons (by decide)]
      simp only [if_neg (show ¬ ',' = ']' by decide), if_true]
      rw [value?_gap (L.next_blank _), hfirst]
      show (entries? n _).bind _ = _
      rw [hothers]
      rfl

theorem fields?_write (fields : List (String × Json)) (hfields : FieldsWellFormed fields) (depth n : ℕ)
    (rest : List Char) (hn : (L.writeFields (depth + 1) fields).length < n) :
    fields? n (L.writeFields (depth + 1) fields ++ (L.last depth ++ '\x7d' :: rest)) = some (fields, rest) := by
  obtain ⟨n, rfl⟩ := Nat.exists_eq_add_one_of_ne_zero (Nat.ne_of_gt (Nat.zero_lt_of_lt hn))
  match fields, hfields with
  | [], _ =>
      rw [writeFields, List.nil_append, fields?, skipBlank_append (L.last_blank depth), skipBlank_cons (by decide)]
      rfl
  | (key, j) :: fields, hfields =>
      obtain ⟨hj, hfields⟩ := hfields
      simp only [writeFields, List.length_cons, List.length_append] at hn
      simp only [writeFields, List.cons_append, List.append_assoc]
      obtain ⟨k, rfl⟩ : ∃ k, n = k + 1 := ⟨n - 1, by omega⟩
      have hfirst := value?_write j hj (depth + 1) k
        (L.writeFields (depth + 1) fields ++ (L.last depth ++ '\x7d' :: rest)) (by omega)
        (L.endsNumber_fields depth fields _)
      have hothers := fields?_write fields hfields depth (k + 1) rest (by omega)
      rw [fields?, skipBlank_cons (by decide)]
      simp only [if_neg (show ¬ ',' = '\x7d' by decide), if_true]
      rw [field?_gap (L.next_blank _), L.field?_write key hfirst]
      show (fields? (k + 1) _).bind _ = _
      rw [hothers]
      rfl

end

/-- **A document reads back as the value it was written from.** -/
theorem loads_write (j : Json) (hj : j.WellFormed) {gap : List Char} (hgap : ∀ c ∈ gap, isBlank c = true) :
    loads (String.ofList (L.write 0 j ++ gap)) = some j := by
  have hends : EndsNumber gap := by
    rw [← List.append_nil gap]
    exact endsNumber_gap hgap fun c hc => nomatch hc
  have hblank : skipBlank gap = [] := List.dropWhile_eq_nil_iff.mpr hgap
  rw [loads, String.toList_ofList, L.value?_write j hj 0 _ gap (by rw [List.length_append]; omega) hends]
  simp only [hblank, if_true]

lemma loads_line (j : Json) (hj : j.WellFormed) : loads (String.ofList (L.write 0 j)) = some j := by
  rw [← List.append_nil (L.write 0 j)]
  exact L.loads_write j hj nofun

end Layout

/-! ## The layouts -/

/-- `json.dumps` with an indentation of two. -/
def Layout.indented : Layout where
  escape := escapeChar
  units := unitsOf
  first := newline
  next := newline
  last := newline
  colon := [' ']
  escape_units := units?_escapeChar
  units_join := joinUnits_unitsOf
  first_blank := newline_blank
  next_blank := newline_blank
  last_blank := newline_blank
  colon_blank := by decide

/-- One character inside a string, under `ensure_ascii=False`. -/
def plainChar (c : Char) : List Char :=
  if c = '"' then ['\\', '"']
  else if c = '\\' then ['\\', '\\']
  else if c = '\n' then ['\\', 'n']
  else if c = '\r' then ['\\', 'r']
  else if c = '\t' then ['\\', 't']
  else if c = '\x0c' then ['\\', 'f']
  else if c = '\x08' then ['\\', 'b']
  else if c.toNat < 32 then unitEscape c.toNat
  else [c]

lemma units?_plainChar (c : Char) (rest : List Char) :
    units? (plainChar c ++ rest) = (units? rest).map fun p => ([c.toNat] ++ p.1, p.2) := by
  unfold plainChar
  split_ifs with h1 h2 h3 h4 h5 h6 h7 h8
  · exact units?_short (by rw [h1]; rfl) (by decide) rest
  · exact units?_short (by rw [h2]; rfl) (by decide) rest
  · exact units?_short (by rw [h3]; rfl) (by decide) rest
  · exact units?_short (by rw [h4]; rfl) (by decide) rest
  · exact units?_short (by rw [h5]; rfl) (by decide) rest
  · exact units?_short (by rw [h6]; rfl) (by decide) rest
  · exact units?_short (by rw [h7]; rfl) (by decide) rest
  · exact units?_unitEscape (by omega) rest
  · exact units?_raw h1 h2 (by omega) rest

/-- One line: `json.dumps` with the white space `gap` behind its separators. -/
def Layout.line (gap : List Char) (hgap : ∀ c ∈ gap, isBlank c = true) : Layout where
  escape := escapeChar
  units := unitsOf
  first := fun _ => []
  next := fun _ => gap
  last := fun _ => []
  colon := gap
  escape_units := units?_escapeChar
  units_join := joinUnits_unitsOf
  first_blank := fun _ => by simp
  next_blank := fun _ => hgap
  last_blank := fun _ => by simp
  colon_blank := hgap

/-- `json.dumps(value)`. -/
def Layout.spaced : Layout := .line [' '] (by decide)

/-- `json.dumps(value, separators=(",", ":"))`. -/
def Layout.compact : Layout := .line [] (by decide)

/-- `json.dumps(value, ensure_ascii=False)`. -/
def Layout.plain : Layout where
  escape := plainChar
  units := fun c => [c.toNat]
  first := fun _ => []
  next := fun _ => [' ']
  last := fun _ => []
  colon := [' ']
  escape_units := units?_plainChar
  units_join := joinUnits_toNat
  first_blank := fun _ => by simp
  next_blank := fun _ => by decide
  last_blank := fun _ => by simp
  colon_blank := by decide

/-- The text of a value in a layout. -/
def dumpsIn (L : Layout) (j : Json) : String := String.ofList (L.write 0 j)

mutual

lemma print_eq (depth : ℕ) (j : Json) : print depth j = Layout.indented.write depth j := by
  match j with
  | .null => rfl
  | .bool true => rfl
  | .bool false => rfl
  | .int n => rfl
  | .float text => rfl
  | .str s => rfl
  | .arr [] => rfl
  | .obj [] => rfl
  | .arr (j :: js) =>
      rw [print, Layout.write, print_eq (depth + 1) j, printEntries_eq (depth + 1) js]
      simp [Layout.indented]
  | .obj ((key, j) :: fields) =>
      rw [print, Layout.write, print_eq (depth + 1) j, printFields_eq (depth + 1) fields]
      simp [Layout.indented, Layout.quoted, quote]

lemma printEntries_eq (depth : ℕ) (js : List Json) :
    printEntries depth js = Layout.indented.writeEntries depth js := by
  match js with
  | [] => rfl
  | j :: js =>
      rw [printEntries, Layout.writeEntries, print_eq depth j, printEntries_eq depth js]
      simp [Layout.indented]

lemma printFields_eq (depth : ℕ) (fields : List (String × Json)) :
    printFields depth fields = Layout.indented.writeFields depth fields := by
  match fields with
  | [] => rfl
  | (key, j) :: fields =>
      rw [printFields, Layout.writeFields, print_eq depth j, printFields_eq depth fields]
      simp [Layout.indented, Layout.quoted, quote]

end

/-- **A saved document reads back.** -/
theorem loads_dumps (j : Json) (hj : j.WellFormed) : loads (j.dumps ++ "\n") = some j := by
  have htext : j.dumps ++ "\n" = String.ofList (Layout.indented.write 0 j ++ ['\n']) := by
    rw [dumps, print_eq, String.ofList_append]
  rw [htext]
  exact Layout.indented.loads_write j hj (by decide)

end Json
