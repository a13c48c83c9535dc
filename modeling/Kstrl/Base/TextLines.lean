import Kstrl.Base.PyCodec
import Kstrl.Base.TornLines

/-!
# The lines of a text

`str.splitlines`, and the lines of a file of UTF-8 beside the lines of its text.

* **`splitlines_eq`**: a text without any break but a line feed has the lines between its line feeds.
* **`lines_encode`**: the lines of the bytes are the bytes of the lines.
-/

namespace TextLines

open PyCodec TornLines

/-- The characters that end a line. -/
def isLineBreak (c : Char) : Bool :=
  c ∈ ['\n', '\x0b', '\x0c', '\r', '\x1c', '\x1d', '\x1e', '\u0085', '\u2028', '\u2029']

lemma isLineBreak_eq_false {P : Char → Prop} {c : Char} (h : P c)
    (hall : ∀ c ∈ ['\n', '\x0b', '\x0c', '\r', '\x1c', '\x1d', '\x1e', '\u0085', '\u2028', '\u2029'], ¬P c) :
    isLineBreak c = false := by
  rw [← Bool.not_eq_true]
  intro hbreak
  exact hall c (by simpa [isLineBreak] using hbreak) h

/-- A line break is white space. -/
lemma isLineBreak_of_not_isSpace {c : Char} (h : PyText.isSpace c = false) : isLineBreak c = false :=
  isLineBreak_eq_false (P := fun c => PyText.isSpace c = false) h (by decide)

/-- `text.splitlines()`, behind what was read of the line. -/
def splitFrom (line : List Char) : List Char → List (List Char)
  | [] => if line = [] then [] else [line]
  | '\r' :: '\n' :: rest => line :: splitFrom [] rest
  | c :: rest => if isLineBreak c then line :: splitFrom [] rest else splitFrom (line ++ [c]) rest

/-- `text.splitlines()`. -/
def splitlines (text : List Char) : List (List Char) := splitFrom [] text

lemma splitFrom_cons {c : Char} {rest : List Char} (hc : c ≠ '\r') (line : List Char) :
    splitFrom line (c :: rest) =
      if isLineBreak c then line :: splitFrom [] rest else splitFrom (line ++ [c]) rest := by
  rw [splitFrom]
  rintro rest rfl
  exact absurd rfl hc

lemma splitFrom_solid {row : List Char} (hrow : ∀ c ∈ row, isLineBreak c = false) (line text : List Char) :
    splitFrom line (row ++ text) = splitFrom (line ++ row) text := by
  induction row generalizing line with
  | nil => rw [List.nil_append, List.append_nil]
  | cons c row ih =>
      obtain ⟨hc, hrow⟩ := List.forall_mem_cons.mp hrow
      have hne : c ≠ '\r' := by
        rintro rfl
        exact absurd hc (by decide)
      rw [List.cons_append, splitFrom_cons hne, if_neg (by rw [hc]; decide), ih hrow, List.append_assoc,
        List.singleton_append]

lemma splitFrom_row {row : List Char} (hrow : ∀ c ∈ row, isLineBreak c = false) (line rest : List Char) :
    splitFrom line (row ++ '\n' :: rest) = (line ++ row) :: splitFrom [] rest := by
  rw [splitFrom_solid hrow, splitFrom_cons (by decide), if_pos (by decide)]

lemma splitFrom_tail {row : List Char} (hrow : ∀ c ∈ row, isLineBreak c = false) (line : List Char) :
    splitFrom line row = if line ++ row = [] then [] else [line ++ row] := by
  have hsolid := splitFrom_solid hrow line []
  rw [List.append_nil] at hsolid
  rw [hsolid, splitFrom]

/-- A break ends the line, and is alone where it is not the first half of a carriage return and a line feed. -/
lemma splitFrom_break {c : Char} {rest : List Char} (hbreak : isLineBreak c = true)
    (h : c = '\r' → ∀ tail, rest ≠ '\n' :: tail) (line : List Char) :
    splitFrom line (c :: rest) = line :: splitFrom [] rest := by
  rw [splitFrom]
  · rw [if_pos hbreak]
  · rintro tail hc rfl
    exact h hc tail rfl

/-- The lines behind a line feed do not depend on what stands before it. -/
lemma splitFrom_newline (line text rest : List Char) :
    splitFrom line (text ++ '\n' :: rest) = splitFrom line (text ++ ['\n']) ++ splitFrom [] rest := by
  have hfeed : ∀ line rest, splitFrom line ('\n' :: rest) = line :: splitFrom [] rest := fun line rest =>
    splitFrom_break (by decide) (fun h => absurd h (by decide)) line
  induction line, text using splitFrom.induct with
  | case1 => rfl
  | case2 line h => rw [List.nil_append, List.nil_append, hfeed, hfeed, splitFrom, if_pos rfl, List.singleton_append]
  | case3 line text ih =>
      simp only [List.cons_append, splitFrom, ih]
  | case4 line c text hcr hbreak ih =>
      cases text with
      | nil =>
          by_cases hc : c = '\r'
          · subst hc
            simp [splitFrom]
          · rw [List.singleton_append, List.singleton_append, splitFrom_break hbreak (fun h => absurd h hc),
              splitFrom_break hbreak (fun h => absurd h hc), hfeed, hfeed, splitFrom, if_pos rfl]
            rfl
      | cons d text =>
          have hnext : ∀ more : List Char, c = '\r' → ∀ tail, d :: text ++ more ≠ '\n' :: tail := by
            rintro more hc tail h
            exact hcr text hc (by rw [(List.cons_eq_cons.mp h).1])
          calc splitFrom line (c :: (d :: text ++ '\n' :: rest))
              _ = line :: (splitFrom [] (d :: text ++ ['\n']) ++ splitFrom [] rest) := by
                rw [splitFrom_break hbreak (hnext _), ih]
              _ = splitFrom line (c :: (d :: text ++ ['\n'])) ++ splitFrom [] rest := by
                rw [splitFrom_break hbreak (hnext _)]
                rfl
  | case5 line c text hcr hbreak ih =>
      have hc : c ≠ '\r' := by
        rintro rfl
        exact hbreak (by decide)
      rw [List.cons_append, List.cons_append, splitFrom_cons hc, splitFrom_cons hc, if_neg hbreak, if_neg hbreak]
      exact ih

/-- The lines of parts that are joined by line feeds. -/
lemma splitlines_join (part : List Char) (parts : List (List Char)) :
    splitlines (['\n'].intercalate (part :: parts) ++ ['\n']) =
      (part :: parts).flatMap fun part => splitlines (part ++ ['\n']) := by
  induction parts generalizing part with
  | nil => simp
  | cons next parts ih =>
      have hjoin : ['\n'].intercalate (part :: next :: parts) ++ ['\n'] =
          part ++ '\n' :: (['\n'].intercalate (next :: parts) ++ ['\n']) := by
        rw [List.intercalate_cons_cons, List.append_assoc, List.append_assoc, List.singleton_append]
      rw [hjoin, splitlines, splitFrom_newline, ← splitlines, ← splitlines, ih]
      rfl

/-- What was read of a line stands before the first line of the rest. -/
lemma splitFrom_append (line : List Char) {text : List Char} (h : text ≠ []) :
    ∃ first more, splitFrom [] text = first :: more ∧ splitFrom line text = (line ++ first) :: more := by
  have hgeneral : ∀ (read text : List Char), text ≠ [] →
      ∃ first more, splitFrom read text = (read ++ first) :: more ∧
        splitFrom (line ++ read) text = (line ++ (read ++ first)) :: more := by
    intro read text
    induction read, text using splitFrom.induct with
    | case1 => exact fun h => absurd rfl h
    | case2 read hread => exact fun h => absurd rfl h
    | case3 read text ih =>
        exact fun _ => ⟨[], splitFrom [] text, by rw [splitFrom, List.append_nil], by rw [splitFrom, List.append_nil]⟩
    | case4 read c text hcr hbreak ih =>
        have hend : c = '\r' → ∀ tail, text ≠ '\n' :: tail := fun hc tail htail => hcr tail hc htail
        exact fun _ => ⟨[], splitFrom [] text, by rw [splitFrom_break hbreak hend, List.append_nil],
          by rw [splitFrom_break hbreak hend, List.append_nil]⟩
    | case5 read c text hcr hbreak ih =>
        have hc : c ≠ '\r' := by
          rintro rfl
          exact hbreak (by decide)
        intro _
        rw [splitFrom_cons hc, splitFrom_cons hc, if_neg hbreak, if_neg hbreak]
        by_cases htext : text = []
        · subst htext
          refine ⟨[c], [], ?_, ?_⟩ <;> simp [splitFrom]
        · obtain ⟨first, more, hread, hline⟩ := ih htext
          refine ⟨c :: first, more, ?_, ?_⟩
          · rw [hread, List.append_assoc, List.singleton_append]
          · rw [List.append_assoc, hline, List.append_assoc, List.singleton_append]
  obtain ⟨first, more, hread, hline⟩ := hgeneral [] text h
  rw [List.nil_append] at hread
  rw [List.append_nil, List.nil_append] at hline
  exact ⟨first, more, hread, hline⟩

/-- No line holds a break. -/
lemma not_isLineBreak_of_mem {line text : List Char} (hline : ∀ c ∈ line, isLineBreak c = false) :
    ∀ part ∈ splitFrom line text, ∀ c ∈ part, isLineBreak c = false := by
  induction line, text using splitFrom.induct with
  | case1 => simp [splitFrom]
  | case2 line h => simpa [splitFrom, h] using hline
  | case3 line text ih =>
      rw [splitFrom, List.forall_mem_cons]
      exact ⟨hline, ih (List.forall_mem_nil _)⟩
  | case4 line c text hcr hbreak ih =>
      rw [splitFrom_break hbreak fun hc tail htail => hcr tail hc htail, List.forall_mem_cons]
      exact ⟨hline, ih (List.forall_mem_nil _)⟩
  | case5 line c text hcr hbreak ih =>
      have hc : c ≠ '\r' := by
        rintro rfl
        exact hbreak (by decide)
      rw [splitFrom_cons hc, if_neg hbreak]
      refine ih ?_
      rw [List.forall_mem_append, List.forall_mem_singleton]
      exact ⟨hline, by simpa using hbreak⟩

/-- **The lines between the line feeds.** -/
theorem splitlines_eq {text : List Char} (h : ∀ c ∈ text, isLineBreak c = true → c = '\n') :
    splitlines text = lines '\n' text := by
  have hbreak : ∀ {row : List Char}, '\n' ∉ row → (∀ c ∈ row, isLineBreak c = true → c = '\n') →
      ∀ c ∈ row, isLineBreak c = false := by
    intro row hrow hall c hc
    rw [← Bool.not_eq_true]
    intro hbad
    exact hrow (hall c hc hbad ▸ hc)
  unfold splitlines
  induction text using rows_induction '\n' with
  | tail row hrow =>
      rw [splitFrom_tail (hbreak hrow h), List.nil_append]
      by_cases hempty : row = []
      · rw [hempty, if_pos rfl]
        rfl
      · rw [if_neg hempty, lines_tail hrow hempty]
  | cons row rest hrow ih =>
      obtain ⟨hleft, hright⟩ := List.forall_mem_append.mp h
      rw [splitFrom_row (hbreak hrow hleft), lines_row hrow, List.nil_append,
        ih fun c hc => hright c (List.mem_cons_of_mem _ hc)]

/-! ## Universal newlines -/

/-- The text of a stream of lines, as a file or a pipe opened for text reads it. -/
def translate : List Char → List Char
  | [] => []
  | '\r' :: '\n' :: rest => '\n' :: translate rest
  | '\r' :: rest => '\n' :: translate rest
  | c :: rest => c :: translate rest

lemma translate_of_plain {text : List Char} (h : '\r' ∉ text) : translate text = text := by
  induction text using translate.induct with
  | case1 => rfl
  | case2 rest ih => exact absurd List.mem_cons_self h
  | case3 rest hrest ih => exact absurd List.mem_cons_self h
  | case4 c rest hfeed hreturn ih =>
      rw [translate, ih fun hmem => h (List.mem_cons_of_mem _ hmem)]
      · exact fun tail hc _ => hreturn hc
      · exact hreturn

/-! ## Bytes -/

/-- `text.encode("utf-8")`. -/
def encode (text : List Char) : List UInt8 := text.flatMap String.utf8EncodeChar

@[simp] lemma encode_nil : encode [] = [] := rfl

@[simp] lemma encode_append (a b : List Char) : encode (a ++ b) = encode a ++ encode b := List.flatMap_append

lemma decodeUtf8_encode_eq (text : List Char) : decodeUtf8 (encode text) = some text := decodeUtf8_encode text

/-- Bytes that decode are the encoding of what they decode to. -/
lemma encode_of_decode {data : List UInt8} {text : List Char} (h : decodeUtf8 data = some text) :
    encode text = data := by
  unfold decodeUtf8 at h
  obtain ⟨chars, hchars, rfl⟩ := Option.map_eq_some_iff.mp h
  have hsome : data.toByteArray.utf8Decode?.isSome := by rw [hchars]; rfl
  have hround := ByteArray.utf8Encode_get_utf8Decode? (h := hsome)
  simp only [hchars, Option.get_some] at hround
  exact List.toByteArray_inj.mp hround

lemma encode_eq_nil {text : List Char} : encode text = [] ↔ text = [] := by
  cases text with
  | nil => simp
  | cons c rest => simp [encode]

/-- A byte below 128 is in no character but its own. -/
lemma ascii_mem_encodeChar {n : ℕ} (hn : n < 128) {c : Char} (h : UInt8.ofNat n ∈ String.utf8EncodeChar c) :
    c.val.toNat = n := by
  have hbyte : ∀ m : ℕ, UInt8.ofNat n = UInt8.ofNat m → m % 256 = n := by
    intro m hm
    have := congrArg UInt8.toNat hm
    simp only [UInt8.toNat_ofNat'] at this
    omega
  have hbig : ∀ m : ℕ, 128 ≤ m → m < 256 → UInt8.ofNat n ≠ UInt8.ofNat m := by
    intro m hlo hhi hm
    have := hbyte m hm
    omega
  unfold String.utf8EncodeChar at h
  dsimp only at h
  split_ifs at h with h1 h2 h3 <;> simp only [List.mem_cons, List.not_mem_nil, or_false] at h
  · have hbytes := hbyte _ h
    omega
  · rcases h with h | h
    · exact absurd h (hbig _ (by omega) (by omega))
    · exact absurd h (hbig _ (by omega) (by omega))
  · rcases h with h | h | h
    · exact absurd h (hbig _ (by omega) (by omega))
    · exact absurd h (hbig _ (by omega) (by omega))
    · exact absurd h (hbig _ (by omega) (by omega))
  · rcases h with h | h | h | h
    · exact absurd h (hbig _ (by omega) (by omega))
    · exact absurd h (hbig _ (by omega) (by omega))
    · exact absurd h (hbig _ (by omega) (by omega))
    · exact absurd h (hbig _ (by omega) (by omega))

/-- A text without an ASCII character has none of its byte. -/
lemma not_mem_encode {a : Char} (ha : a.val.toNat < 128) {text : List Char} (h : a ∉ text) :
    UInt8.ofNat a.val.toNat ∉ encode text := by
  intro hmem
  obtain ⟨c, hc, hbyte⟩ := List.mem_flatMap.mp hmem
  have hval := ascii_mem_encodeChar ha hbyte
  exact h (Char.ext (UInt32.toNat_inj.mp hval) ▸ hc)

lemma newline_not_mem_encode {row : List Char} (h : '\n' ∉ row) : (10 : UInt8) ∉ encode row :=
  not_mem_encode (by decide) h

/-- **The lines of the bytes are the bytes of the lines.** -/
theorem lines_encode (text : List Char) : lines 10 (encode text) = (lines '\n' text).map encode := by
  induction text using rows_induction '\n' with
  | tail row hrow =>
      by_cases hempty : row = []
      · rw [hempty]
        rfl
      · rw [lines_tail hrow hempty, lines_tail (newline_not_mem_encode hrow) (mt encode_eq_nil.mp hempty)]
        rfl
  | cons row rest hrow ih =>
      have hsplit : encode (row ++ '\n' :: rest) = encode row ++ 10 :: encode rest := by
        rw [encode_append]
        rfl
      rw [hsplit, lines_row hrow, lines_row (newline_not_mem_encode hrow), ih, List.map_cons]

end TextLines
