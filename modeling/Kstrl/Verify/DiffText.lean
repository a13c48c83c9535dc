import Mathlib.Tactic.IntervalCases
import Kstrl.Base.PyCodec

/-!
# The diff text and the added lines read from it

The first part is what `git diff` writes for a change: file names, C-quoted where a character asks for it, a
tab behind a name with a space, the file headers and the lines of the hunks.  The second part is
`parse_added_lines` of `kstrl/verify/policy.py` with what it calls.

* **`diffHeaderPath_label`**: a file's header gives its name, less the white space a raw name ends in.
* **`parseAddedLines_render`**: which added lines are read, and the path each is filed under.  A removed line
  `-- …` and an added line `++ …` behind it read as a file header.
-/

namespace Kstrl

namespace Verify

open PyCodec

/-! ## What git writes -/

def lf : PyChar := .char '\n'

def cr : PyChar := .char '\r'

/-- A line without its end. -/
structure Line where
  text : PyStr
  /-- a carriage return stands before the line feed -/
  crlf : Bool
  noBreak : lf ∉ text
  ending : crlf = false → text.getLast? ≠ some cr

/-- The line up to the line feed. -/
def Line.raw (l : Line) : PyStr := l.text ++ if l.crlf then [cr] else []

/-- A path as git stores it. -/
structure GitPath where
  chars : List Char
  nonempty : chars ≠ []
  relative : chars.head? ≠ some '/'
  deriving DecidableEq

/-- A file name: UTF-8, or other bytes, which the diff text shows in some way. -/
inductive FileName where
  | utf8 (path : GitPath)
  | other (shown : Line)

/-- A byte as a backslash and three octal digits. -/
def octal (b : UInt8) : List Char :=
  let n := b.toNat
  ['\\', Char.ofNat (48 + n / 64), Char.ofNat (48 + n / 8 % 8), Char.ofNat (48 + n % 8)]

/-- The letters of the control characters 7 to 13. -/
def controlLetters : List (ℕ × Char) :=
  [(7, 'a'), (8, 'b'), (9, 't'), (10, 'n'), (11, 'v'), (12, 'f'), (13, 'r')]

/-- Whether a character asks for quotes; `quotePath` is `core.quotepath`. -/
def mustQuote (quotePath : Bool) (c : Char) : Bool :=
  c.toNat < 32 ∨ c.toNat = 127 ∨ c = '"' ∨ c = '\\' ∨ (128 ≤ c.toNat ∧ quotePath)

/-- A character between the quotes. -/
def quoteChar (quotePath : Bool) (c : Char) : List Char :=
  if ¬ mustQuote quotePath c then [c]
  else if c = '"' ∨ c = '\\' then ['\\', c]
  else match controlLetters.lookup c.toNat with
    | some letter => ['\\', letter]
    | none => (String.utf8EncodeChar c).flatMap octal

/-- A name behind its prefix, in quotes where it has to be. -/
def quoteName (quotePath : Bool) (start : List Char) (name : List Char) : List Char :=
  if name.any (mustQuote quotePath) then
    '"' :: start ++ name.flatMap (quoteChar quotePath) ++ ['"']
  else start ++ name

/-- The name on a header line; a tab stands behind a name with a space. -/
def label (quotePath : Bool) (start : List Char) (name : List Char) : PyStr :=
  let quoted := quoteName quotePath start name
  ofChars (quoted ++ if ' ' ∈ quoted then ['\t'] else [])

/-- A line of a hunk, or the header of one. -/
inductive BodyLine where
  | hunk (range : Line)
  | context (line : Line)
  | added (line : Line)
  | removed (line : Line)
  | noNewline

def BodyLine.render : BodyLine → PyStr
  | hunk range => lit "@@ " ++ range.raw
  | context line => lit " " ++ line.raw
  | added line => lit "+" ++ line.raw
  | removed line => lit "-" ++ line.raw
  | noNewline => lit "\\ No newline at end of file"

/-- The lines of one file. -/
structure FileDiff where
  name : FileName
  deleted : Bool
  /-- what stands behind `diff --git` and behind `---` -/
  command : Line
  source : Line
  /-- modes, similarity, index -/
  extended : List Line
  body : List BodyLine
  lower : ∀ l ∈ extended, ∃ c, l.raw.head? = some (.char c) ∧ c.isLower
  noAdded : deleted = true → ∀ l, .added l ∉ body

/-- What stands behind `+++`. -/
def FileDiff.target (quotePath : Bool) (f : FileDiff) : PyStr :=
  if f.deleted then lit "/dev/null"
  else match f.name with
    | .utf8 path => label quotePath ['b', '/'] path.chars
    | .other shown => shown.raw

/-- The name a reader that strips the header has: a raw name loses the white space it ends in. -/
def GitPath.shown (quotePath : Bool) (path : GitPath) : PyStr :=
  if path.chars.any (mustQuote quotePath) then ofChars path.chars else rstrip (ofChars path.chars)

def FileDiff.lines (quotePath : Bool) (f : FileDiff) : List PyStr :=
  (lit "diff --git " ++ f.command.raw) :: f.extended.map Line.raw ++
    if f.body.isEmpty then []
    else (lit "--- " ++ f.source.raw) :: (lit "+++ " ++ f.target quotePath) :: f.body.map BodyLine.render

/-- Lines, each ended by a line feed. -/
def joinLines (lines : List PyStr) : PyStr := [lf].intercalate (lines ++ [[]])

/-- The diff text. -/
def render (quotePath : Bool) (files : List FileDiff) : PyStr :=
  joinLines (files.flatMap (FileDiff.lines quotePath))

/-! ## What is read -/

/-- `str.startswith`. -/
def startsWith (s : PyStr) (start : String) : Bool := (lit start).isPrefixOf s

variable (charNamed : List UInt8 → Option ℕ)

/-- `unquote_diff_path`; the error is the path a codec raises on. -/
def unquoteDiffPath (path : PyStr) : Except PyStr PyStr :=
  if ¬ (path.head? = some (.char '"') ∧ path.getLast? = some (.char '"') ∧ 2 ≤ path.length) then .ok path
  else
    match (encodeUtf8 path.tail.dropLast).bind (unicodeEscape charNamed) |>.bind encodeLatin1
      |>.bind decodeUtf8 with
    | some chars => .ok (ofChars chars)
    | none => .error path

/-- `diff_header_path`. -/
def diffHeaderPath (header : PyStr) : Except PyStr PyStr :=
  (unquoteDiffPath charNamed (strip (header.drop 4))).map fun path =>
    if startsWith path "a/" ∨ startsWith path "b/" then path.drop 2 else path

/-- Where `parse_added_lines` is. -/
structure Scan where
  added : List (PyStr × PyStr) := []
  current : Option PyStr := none
  prev : PyStr := []

/-- One line of the diff text. -/
def scanLine (s : Scan) (raw : PyStr) : Except PyStr Scan :=
  let line := removeLast raw cr
  if startsWith line "diff --git" then .ok { s with current := none, prev := line }
  else if startsWith line "+++ " ∧ startsWith s.prev "--- " then
    (diffHeaderPath charNamed line).map fun target =>
      { s with current := if target = lit "/dev/null" then none else some target, prev := line }
  else if startsWith line "+" then
    .ok { s with
      added := match s.current with
        | some path => s.added ++ [(path, line.drop 1)]
        | none => s.added
      prev := line }
  else .ok { s with prev := line }

/-- `parse_added_lines`. -/
def parseAddedLines (diffText : PyStr) : Except PyStr (List (PyStr × PyStr)) :=
  ((diffText.splitOn lf).foldlM (scanLine charNamed) {}).map Scan.added

variable {charNamed}

/-! ## Quoted names -/

/-- Only a backslash is written with the byte of a backslash. -/
lemma bytes_ne_backslash {c : Char} (hc : c ≠ '\\') : ∀ b ∈ String.utf8EncodeChar c, b.toNat ≠ 92 := by
  have hval : c.val.toNat ≠ 92 := fun h => hc (Char.ext (UInt32.toNat_inj.mp h))
  have hbyte : ∀ n < 256, n ≠ 92 → (UInt8.ofNat n).toNat ≠ 92 := by
    intro n hn hne
    rwa [UInt8.toNat_ofNat', Nat.mod_eq_of_lt hn]
  intro b hb
  rw [String.utf8EncodeChar] at hb
  split_ifs at hb <;> simp only [List.mem_cons, List.not_mem_nil, or_false] at hb
  · rcases hb with rfl
    exact hbyte _ (by omega) hval
  · rcases hb with rfl | rfl <;> exact hbyte _ (by omega) (by omega)
  · rcases hb with rfl | rfl | rfl <;> exact hbyte _ (by omega) (by omega)
  · rcases hb with rfl | rfl | rfl | rfl <;> exact hbyte _ (by omega) (by omega)

lemma run_bytes {data : List UInt8} (h : ∀ b ∈ data, b.toNat ≠ 92) (rest : List UInt8) :
    Escape.plain.run charNamed (data ++ rest)
      = (Escape.plain.run charNamed rest).map (data.map UInt8.toNat ++ ·) := by
  induction data with
  | nil => exact Option.map_id'.symm
  | cons b tail ih =>
      rw [List.cons_append, run_plain (h b List.mem_cons_self),
        ih fun b hb => h b (List.mem_cons_of_mem _ hb), Option.map_map]
      rfl

/-- A backslash opens an escape. -/
lemma run_slash (rest : List UInt8) :
    Escape.plain.run charNamed (92 :: rest) = Escape.slash.run charNamed rest := by
  rw [Escape.run]
  exact Option.map_id'

/-- An escape of one letter. -/
lemma run_letter {b : UInt8} {n : ℕ} (h : Escape.slash.step charNamed b = some ([n], .plain))
    (rest : List UInt8) :
    Escape.plain.run charNamed (92 :: b :: rest) = (Escape.plain.run charNamed rest).map (n :: ·) := by
  rw [run_slash, run_step h]
  rfl

/-- The bytes of the digits. -/
lemma encode_digit {n : ℕ} (hn : n < 8) :
    String.utf8EncodeChar (Char.ofNat (48 + n)) = [UInt8.ofNat (48 + n)] := by
  interval_cases n <;> rfl

lemma octalDigit?_digit {n : ℕ} (hn : n < 8) : octalDigit? (UInt8.ofNat (48 + n)) = some n := by
  interval_cases n <;> rfl

/-- A digit behind a backslash opens an octal number. -/
lemma step_slash_digit {n : ℕ} (hn : n < 8) :
    Escape.slash.step charNamed (UInt8.ofNat (48 + n)) = some ([], .octal n 1) := by
  interval_cases n <;> rfl

/-- An octal escape stands for its byte. -/
lemma run_octal (b : UInt8) (rest : List UInt8) :
    Escape.plain.run charNamed ((octal b).flatMap String.utf8EncodeChar ++ rest)
      = (Escape.plain.run charNamed rest).map (b.toNat :: ·) := by
  have hb : b.toNat < 256 := b.toNat_lt
  have hhigh : b.toNat / 64 < 8 := by omega
  have hmiddle : b.toNat / 8 % 8 < 8 := by omega
  have hlow : b.toNat % 8 < 8 := by omega
  have hbytes : (octal b).flatMap String.utf8EncodeChar ++ rest
      = 92 :: UInt8.ofNat (48 + b.toNat / 64) :: UInt8.ofNat (48 + b.toNat / 8 % 8)
        :: UInt8.ofNat (48 + b.toNat % 8) :: rest := by
    simp only [octal, List.flatMap_cons, List.flatMap_nil, encode_digit hhigh, encode_digit hmiddle,
      encode_digit hlow]
    rfl
  have hvalue : (b.toNat / 64 * 8 + b.toNat / 8 % 8) * 8 + b.toNat % 8 = b.toNat := by omega
  have hthird : (Escape.octal (b.toNat / 64) 1).step charNamed (UInt8.ofNat (48 + b.toNat / 8 % 8))
      = some ([], .octal (b.toNat / 64 * 8 + b.toNat / 8 % 8) 2) := by
    rw [Escape.step, octalDigit?_digit hmiddle]
    rfl
  have hfourth : (Escape.octal (b.toNat / 64 * 8 + b.toNat / 8 % 8) 2).step charNamed
      (UInt8.ofNat (48 + b.toNat % 8)) = some ([b.toNat], .plain) := by
    rw [Escape.step, octalDigit?_digit hlow]
    simp only [if_true, hvalue]
  rw [hbytes, run_slash, run_step (step_slash_digit hhigh), run_step hthird, run_step hfourth]
  simp [Function.comp_def]

/-- What a name is quoted to reads as the name. -/
lemma run_quoteChar (quotePath : Bool) (c : Char) (rest : List UInt8) :
    Escape.plain.run charNamed ((quoteChar quotePath c).flatMap String.utf8EncodeChar ++ rest)
      = (Escape.plain.run charNamed rest).map ((String.utf8EncodeChar c).map UInt8.toNat ++ ·) := by
  have hoctal : ∀ data : List UInt8,
      Escape.plain.run charNamed ((data.flatMap octal).flatMap String.utf8EncodeChar ++ rest)
        = (Escape.plain.run charNamed rest).map (data.map UInt8.toNat ++ ·) := by
    intro data
    induction data with
    | nil => exact Option.map_id'.symm
    | cons b tail ih =>
        rw [List.flatMap_cons, List.flatMap_append, List.append_assoc, run_octal, ih, Option.map_map]
        rfl
  unfold quoteChar
  split_ifs with hquote hslash
  · rcases hslash with rfl | rfl
    · exact run_letter rfl rest
    · exact run_letter rfl rest
  · cases hletter : controlLetters.lookup c.toNat with
    | none => exact hoctal _
    | some letter =>
        have hmem : c.toNat ∈ controlLetters.map Prod.fst := by
          obtain ⟨entry, hentry, hkey⟩ := List.lookup_isSome_iff.mp (Option.isSome_of_eq_some hletter)
          exact List.mem_map.mpr ⟨entry, hentry, (beq_iff_eq.mp hkey).symm⟩
        have hc : c = Char.ofNat c.toNat := (Char.ofNat_toNat c).symm
        simp only [controlLetters, List.map_cons, List.map_nil, List.mem_cons, List.not_mem_nil,
          or_false] at hmem
        rcases hmem with hn | hn | hn | hn | hn | hn | hn <;> rw [hn] at hletter hc <;> subst hc <;>
          cases hletter <;> exact run_letter rfl rest
  · rw [List.flatMap_singleton]
    refine run_bytes (bytes_ne_backslash fun hc => ?_) rest
    subst hc
    exact hquote (by simp [mustQuote])

/-- **A quoted name reads as the name.** -/
lemma unquoteDiffPath_quoted (quotePath : Bool) (start name : List Char) (hstart : '\\' ∉ start) :
    unquoteDiffPath charNamed
      (ofChars ('"' :: start ++ name.flatMap (quoteChar quotePath) ++ ['"'])) = .ok (ofChars (start ++ name)) := by
  have hname : ∀ name : List Char,
      Escape.plain.run charNamed ((name.flatMap (quoteChar quotePath)).flatMap String.utf8EncodeChar)
        = some ((name.flatMap String.utf8EncodeChar).map UInt8.toNat) := by
    intro name
    induction name with
    | nil => rfl
    | cons c rest ih =>
        rw [List.flatMap_cons, List.flatMap_append, run_quoteChar, ih, List.flatMap_cons, List.map_append]
        rfl
  have hinner : (ofChars ('"' :: start ++ name.flatMap (quoteChar quotePath) ++ ['"'])).tail.dropLast
      = ofChars (start ++ name.flatMap (quoteChar quotePath)) := by
    simp [ofChars]
  have hescape : unicodeEscape charNamed
      ((start ++ name.flatMap (quoteChar quotePath)).flatMap String.utf8EncodeChar)
        = some (((start ++ name).flatMap String.utf8EncodeChar).map UInt8.toNat) := by
    have hplain : ∀ b ∈ start.flatMap String.utf8EncodeChar, b.toNat ≠ 92 := by
      intro b hb
      obtain ⟨c, hc, hbc⟩ := List.mem_flatMap.mp hb
      exact bytes_ne_backslash (fun he => hstart (he ▸ hc)) b hbc
    rw [unicodeEscape, List.flatMap_append, run_bytes hplain, hname, List.flatMap_append, List.map_append]
    rfl
  rw [unquoteDiffPath, if_neg, hinner, encodeUtf8_ofChars]
  · simp only [Option.bind_some, hescape, encodeLatin1_bytes, decodeUtf8_encode]
  · rw [ofChars, List.map_append, List.map_singleton, List.getLast?_concat]
    simp

/-- A text in which a character that is no white space stands keeps that end. -/
lemma rstrip_append {s t : PyStr} {c : PyChar} (hc : isSpace c = false) :
    rstrip (s ++ c :: t) = s ++ c :: rstrip t := by
  induction t using List.reverseRecOn with
  | nil =>
      show List.rdropWhile _ _ = s ++ [c]
      rw [List.rdropWhile_concat_neg]
      simp [hc]
  | append_singleton t x ih =>
      unfold rstrip at *
      rw [show s ++ c :: (t ++ [x]) = (s ++ c :: t) ++ [x] by simp]
      cases hx : isSpace x with
      | true => rw [List.rdropWhile_concat_pos _ _ _ hx, List.rdropWhile_concat_pos _ _ _ hx, ih]
      | false =>
          rw [List.rdropWhile_concat_neg _ _ _ (by simp [hx]), List.rdropWhile_concat_neg _ _ _ (by simp [hx])]
          simp

lemma strip_of_head {s : PyStr} {c : PyChar} (hc : isSpace c = false) : strip (c :: s) = rstrip (c :: s) := by
  have hcons : rstrip (c :: s) = c :: rstrip s := rstrip_append (s := []) hc
  rw [strip, hcons, List.dropWhile_cons_of_neg (by simp [hc])]

/-- White space at the end does not matter to a reader that strips. -/
lemma rstrip_append_space {s t : PyStr} (ht : ∀ c ∈ t, isSpace c = true) : rstrip (s ++ t) = rstrip s := by
  induction t using List.reverseRecOn with
  | nil => rw [List.append_nil]
  | append_singleton t x ih =>
      rw [← List.append_assoc, rstrip, List.rdropWhile_concat_pos _ _ _ (ht x (by simp))]
      exact ih fun c hc => ht c (List.mem_append_left _ hc)

/-- The tab behind a name with a space does not matter to a reader that strips. -/
lemma strip_label (quotePath : Bool) (start name : List Char) :
    strip (label quotePath start name) = strip (ofChars (quoteName quotePath start name)) := by
  unfold label
  simp only
  split_ifs with hspace
  · rw [ofChars, List.map_append, strip, rstrip_append_space (by simp [isSpace, PyText.isSpace])]
    rfl
  · rw [List.append_nil]

/-- **A file's header gives its name**, less the white space a raw name ends in. -/
lemma diffHeaderPath_label (quotePath : Bool) (path : GitPath) :
    diffHeaderPath charNamed (lit "+++ " ++ label quotePath ['b', '/'] path.chars)
      = .ok (path.shown quotePath) := by
  have hdrop : (lit "+++ " ++ label quotePath ['b', '/'] path.chars).drop 4
      = label quotePath ['b', '/'] path.chars := rfl
  rw [diffHeaderPath, hdrop, strip_label, quoteName, GitPath.shown]
  by_cases hquote : path.chars.any (mustQuote quotePath) = true
  · rw [if_pos hquote, if_pos hquote]
    have hend : ∀ chars : List Char, rstrip (ofChars (chars ++ ['"'])) = ofChars (chars ++ ['"']) := by
      intro chars
      rw [ofChars, List.map_append]
      exact rstrip_append (t := []) rfl
    have hstrip : strip (ofChars ('"' :: ['b', '/'] ++ path.chars.flatMap (quoteChar quotePath) ++ ['"']))
        = ofChars ('"' :: ['b', '/'] ++ path.chars.flatMap (quoteChar quotePath) ++ ['"']) :=
      (strip_of_head rfl).trans (hend ('"' :: ['b', '/'] ++ path.chars.flatMap (quoteChar quotePath)))
    rw [hstrip, unquoteDiffPath_quoted quotePath ['b', '/'] path.chars (by decide)]
    rfl
  · rw [if_neg hquote, if_neg hquote]
    have hstrip : strip (ofChars (['b', '/'] ++ path.chars))
        = .char 'b' :: .char '/' :: rstrip (ofChars path.chars) :=
      (strip_of_head rfl).trans (rstrip_append (s := [.char 'b']) rfl)
    rw [hstrip, unquoteDiffPath, if_pos (by simp)]
    rfl

/-! ## Lines as they are read -/

lemma removeLast_raw (start : PyStr) (l : Line) (hstart : start.getLast? ≠ some cr) :
    removeLast (start ++ l.raw) cr = start ++ l.text := by
  unfold Line.raw removeLast
  cases hcrlf : l.crlf with
  | true =>
      rw [if_pos rfl, ← List.append_assoc, List.getLast?_concat, if_pos rfl, List.dropLast_concat]
  | false =>
      have hending := l.ending hcrlf
      rw [if_neg Bool.false_ne_true, List.append_nil, if_neg]
      rw [List.getLast?_append]
      cases hlast : l.text.getLast? with
      | none => exact hstart
      | some c => rwa [hlast] at hending

/-- A line of a hunk without its end. -/
def BodyLine.line : BodyLine → PyStr
  | hunk range => lit "@@ " ++ range.text
  | context line => lit " " ++ line.text
  | added line => lit "+" ++ line.text
  | removed line => lit "-" ++ line.text
  | noNewline => lit "\\ No newline at end of file"

lemma removeLast_render (x : BodyLine) : removeLast x.render cr = x.line := by
  cases x with
  | hunk | context | added | removed => exact removeLast_raw _ _ (by decide)
  | noNewline => rfl

/-- An added line behind a removed one, which together read as a file header. -/
def ReadsAsHeader (before : List BodyLine) (l : Line) : Prop :=
  ∃ r, before.getLast? = some (.removed r) ∧ startsWith r.text "-- " = true ∧ startsWith l.text "++ " = true

variable (charNamed) in
/-- The path a line that reads as a header files the lines behind it under. -/
def headerTarget (l : Line) : Option PyStr :=
  match diffHeaderPath charNamed (lit "+" ++ l.text) with
  | .ok target => if target = lit "/dev/null" then none else some target
  | .error _ => none

variable (charNamed) in
/-- What the next line is filed under, from the lines before it, the last first. -/
def filedRev (own : Option PyStr) : List BodyLine → Option PyStr
  | [] => own
  | [_] => own
  | x :: y :: rest =>
      match x, y with
      | .added l, .removed r =>
          if startsWith r.text "-- " ∧ startsWith l.text "++ " then headerTarget charNamed l
          else filedRev own (y :: rest)
      | _, _ => filedRev own (y :: rest)

variable (charNamed) in
/-- The path a line is filed under: that of the last line before it that reads as a header, or the file's
own. -/
def filedUnder (own : Option PyStr) (before : List BodyLine) : Option PyStr :=
  filedRev charNamed own before.reverse

lemma filedUnder_header (own : Option PyStr) {before : List BodyLine} {l : Line} (h : ReadsAsHeader before l) :
    filedUnder charNamed own (before ++ [.added l]) = headerTarget charNamed l := by
  obtain ⟨r, hlast, hdash, hplus⟩ := h
  obtain ⟨rest, rfl⟩ := List.getLast?_eq_some_iff.mp hlast
  simp [filedUnder, filedRev, hdash, hplus]

lemma filedUnder_content (own : Option PyStr) {before : List BodyLine} {x : BodyLine}
    (h : ∀ l, x = .added l → ¬ ReadsAsHeader before l) :
    filedUnder charNamed own (before ++ [x]) = filedUnder charNamed own before := by
  induction before using List.reverseRecOn with
  | nil => rfl
  | append_singleton rest y _ =>
      unfold filedUnder
      rw [List.reverse_concat, List.reverse_concat]
      cases x with
      | added l =>
          cases y with
          | removed r =>
              rw [filedRev, if_neg]
              intro hand
              exact h l rfl ⟨r, List.getLast?_concat, hand.1, hand.2⟩
          | _ => rfl
      | _ => rfl

/-! ## The lines of one file -/

/-- An added line of a file with the lines of the hunks before it. -/
def AddedAt (body before : List BodyLine) (l : Line) : Prop := ∃ after, body = before ++ .added l :: after

lemma addedAt_concat {body before : List BodyLine} {x : BodyLine} {l : Line} :
    AddedAt (body ++ [x]) before l ↔ AddedAt body before l ∨ (before = body ∧ x = .added l) := by
  constructor
  · rintro ⟨after, h⟩
    induction after using List.reverseRecOn with
    | nil =>
        obtain ⟨hbody, hx⟩ := List.append_inj' h rfl
        exact Or.inr ⟨hbody.symm, List.singleton_inj.mp hx⟩
    | append_singleton after y _ =>
        rw [← List.cons_append, ← List.append_assoc] at h
        exact Or.inl ⟨after, (List.append_inj' h rfl).1⟩
  · rintro (⟨after, rfl⟩ | ⟨rfl, rfl⟩)
    · exact ⟨after ++ [x], by simp⟩
    · exact ⟨[], rfl⟩

variable (charNamed) in
/-- Every added line that reads as a header has a path. -/
def Decodable (body : List BodyLine) : Prop :=
  ∀ before l, AddedAt body before l → ReadsAsHeader before l →
    ∃ target, diffHeaderPath charNamed (lit "+" ++ l.text) = .ok target

variable (charNamed) in
/-- An added line that is read as one, under a path. -/
def FiledAs (own : Option PyStr) (body : List BodyLine) (path text : PyStr) : Prop :=
  ∃ before l, AddedAt body before l ∧ ¬ ReadsAsHeader before l ∧
    filedUnder charNamed own before = some path ∧ l.text = text

/-- What the scan of a hunk starts from. -/
structure Scan.AtBody (s : Scan) (own : Option PyStr) : Prop where
  current : s.current = own
  prev : startsWith s.prev "--- " = false

variable (charNamed) in
/-- Where the scan is behind some lines of the hunks. -/
structure Scan.Behind (s s' : Scan) (own : Option PyStr) (body : List BodyLine) : Prop where
  current : s'.current = filedUnder charNamed own body
  prev : s'.prev = (body.getLast?.map BodyLine.line).getD s.prev
  added : ∀ path text, (path, text) ∈ s'.added ↔ (path, text) ∈ s.added ∨ FiledAs charNamed own body path text

lemma startsWith_cons (s : PyStr) (c : Char) (start : List Char) :
    startsWith (.char c :: s) (String.ofList (c :: start)) = startsWith s (String.ofList start) := by
  simp [startsWith, lit, ofChars]

/-- Whether the line before was a removed one that opens with two more dashes. -/
lemma startsWith_prev {s s' : Scan} {own : Option PyStr} {body : List BodyLine} (hs : s.AtBody own)
    (h : s.Behind charNamed s' own body) :
    startsWith s'.prev "--- " = true ↔
      ∃ r, body.getLast? = some (.removed r) ∧ startsWith r.text "-- " = true := by
  rw [h.prev]
  cases hlast : body.getLast? with
  | none => simp [hs.prev]
  | some x =>
      cases x with
      | removed r =>
          show startsWith (lit "-" ++ r.text) "--- " = true ↔ _
          have hdash : startsWith (lit "-" ++ r.text) "--- " = startsWith r.text "-- " :=
            startsWith_cons r.text '-' ['-', '-', ' ']
          rw [hdash]
          simp
      | _ => simp [BodyLine.line, startsWith, lit, ofChars]

lemma startsWith_plus (text : PyStr) : startsWith (lit "+" ++ text) "+++ " = startsWith text "++ " :=
  startsWith_cons text '+' ['+', '+', ' ']

/-- A line that is not added leaves what is read. -/
lemma scanLine_rest {s : Scan} {x : BodyLine} (hx : ∀ l, x ≠ .added l) :
    scanLine charNamed s x.render = .ok { s with prev := x.line } := by
  have hopen : startsWith x.line "diff --git" = false ∧ startsWith x.line "+++ " = false ∧
      startsWith x.line "+" = false := by
    cases x with
    | added l => exact absurd rfl (hx l)
    | _ => exact ⟨rfl, rfl, rfl⟩
  rw [scanLine, removeLast_render]
  simp [hopen.1, hopen.2.1, hopen.2.2]

variable (charNamed) in
/-- An added line that reads as a header. -/
lemma scanLine_header {s : Scan} {l : Line} (hdash : startsWith s.prev "--- " = true)
    (hplus : startsWith l.text "++ " = true) :
    scanLine charNamed s (BodyLine.added l).render
      = (diffHeaderPath charNamed (lit "+" ++ l.text)).map fun target =>
          { s with current := if target = lit "/dev/null" then none else some target
                   prev := (BodyLine.added l).line } := by
  have hcommand : startsWith (BodyLine.added l).line "diff --git" = false := rfl
  have hheader : startsWith (BodyLine.added l).line "+++ " = true := (startsWith_plus l.text).trans hplus
  rw [scanLine, removeLast_render]
  simp only [hcommand, hheader, hdash]
  rfl

/-- An added line that is read as one. -/
lemma scanLine_content {s : Scan} {l : Line}
    (h : ¬ (startsWith s.prev "--- " = true ∧ startsWith l.text "++ " = true)) :
    scanLine charNamed s (BodyLine.added l).render = .ok { s with
      added := match s.current with
        | some path => s.added ++ [(path, l.text)]
        | none => s.added
      prev := (BodyLine.added l).line } := by
  have hcommand : startsWith (BodyLine.added l).line "diff --git" = false := rfl
  have hplus : startsWith (BodyLine.added l).line "+" = true := rfl
  have hheader : ¬ (startsWith (BodyLine.added l).line "+++ " = true ∧ startsWith s.prev "--- " = true) := by
    rw [show startsWith (BodyLine.added l).line "+++ " = startsWith l.text "++ " from startsWith_plus l.text]
    exact fun hand => h ⟨hand.2, hand.1⟩
  rw [scanLine, removeLast_render]
  rw [if_neg (by rw [hcommand]; decide), if_neg hheader, if_pos hplus]
  rfl

/-- **What is read of the hunks of a file.** -/
lemma scan_body {s : Scan} {own : Option PyStr} (hs : s.AtBody own) {body : List BodyLine}
    (hok : Decodable charNamed body) :
    ∃ s', (body.map BodyLine.render).foldlM (scanLine charNamed) s = .ok s' ∧
      s.Behind charNamed s' own body := by
  induction body using List.reverseRecOn with
  | nil => exact ⟨s, rfl, hs.current, rfl, fun path text => by simp [FiledAs, AddedAt]⟩
  | append_singleton body x ih =>
      obtain ⟨s', hrun, hbehind⟩ := ih fun before l hat => hok before l (addedAt_concat.mpr (Or.inl hat))
      -- what the last line adds
      have hfiled : ∀ path text, FiledAs charNamed own (body ++ [x]) path text ↔
          FiledAs charNamed own body path text ∨ (∃ l, x = .added l ∧ ¬ ReadsAsHeader body l ∧
            filedUnder charNamed own body = some path ∧ l.text = text) := by
        intro path text
        constructor
        · rintro ⟨before, l, hat, hrest⟩
          rcases addedAt_concat.mp hat with hat | ⟨rfl, rfl⟩
          · exact Or.inl ⟨before, l, hat, hrest⟩
          · exact Or.inr ⟨l, rfl, hrest⟩
        · rintro (⟨before, l, hat, hrest⟩ | ⟨l, rfl, hrest⟩)
          · exact ⟨before, l, addedAt_concat.mpr (Or.inl hat), hrest⟩
          · exact ⟨body, l, addedAt_concat.mpr (Or.inr ⟨rfl, rfl⟩), hrest⟩
      have hlast : ((body ++ [x]).getLast?.map BodyLine.line).getD s.prev = x.line := by
        rw [List.getLast?_concat]
        rfl
      have hstep : ∀ s'', scanLine charNamed s' x.render = .ok s'' →
          ((body ++ [x]).map BodyLine.render).foldlM (scanLine charNamed) s = .ok s'' := by
        intro s'' hs''
        rw [List.map_append, List.foldlM_append, hrun]
        show ([x.render].foldlM (scanLine charNamed) s' : Except PyStr Scan) = .ok s''
        rw [List.foldlM_cons, hs'']
        rfl
      by_cases hadded : ∃ l, x = .added l
      · obtain ⟨l, rfl⟩ := hadded
        by_cases hheader : ReadsAsHeader body l
        · obtain ⟨target, htarget⟩ := hok body l (addedAt_concat.mpr (Or.inr ⟨rfl, rfl⟩)) hheader
          obtain ⟨r, hr, hdash, hplus⟩ := hheader
          refine ⟨_, hstep _ ((scanLine_header charNamed ((startsWith_prev hs hbehind).mpr ⟨r, hr, hdash⟩) hplus).trans
            (congrArg _ htarget)), ?_, hlast.symm, fun path text => ?_⟩
          · rw [filedUnder_header own ⟨r, hr, hdash, hplus⟩, headerTarget, htarget]
          · rw [hfiled]
            refine (hbehind.added path text).trans (or_congr_right (or_iff_left ?_).symm)
            rintro ⟨l', hl', hcontent, -⟩
            cases hl'
            exact hcontent ⟨r, hr, hdash, hplus⟩
        · refine ⟨_, hstep _ (scanLine_content fun hand => hheader ?_), ?_, hlast.symm, fun path text => ?_⟩
          · obtain ⟨r, hr, hdash⟩ := (startsWith_prev hs hbehind).mp hand.1
            exact ⟨r, hr, hdash, hand.2⟩
          · rw [filedUnder_content own fun l' hl' => by cases hl'; exact hheader]
            exact hbehind.current
          · rw [hfiled, ← or_assoc, ← hbehind.added, hbehind.current]
            cases hunder : filedUnder charNamed own body with
            | none => simp
            | some path' =>
                simp only [List.mem_append, List.mem_singleton, Prod.mk.injEq]
                refine or_congr_right ⟨?_, ?_⟩
                · rintro ⟨rfl, rfl⟩
                  exact ⟨l, rfl, hheader, rfl, rfl⟩
                · rintro ⟨l', hl', -, hpath, rfl⟩
                  cases hl'
                  cases hpath
                  exact ⟨rfl, rfl⟩
      · have hne : ∀ l, x ≠ .added l := fun l hl => hadded ⟨l, hl⟩
        refine ⟨_, hstep _ (scanLine_rest hne), ?_, hlast.symm, fun path text => ?_⟩
        · rw [filedUnder_content own fun l hl => absurd hl (hne l)]
          exact hbehind.current
        · rw [hfiled]
          refine (hbehind.added path text).trans (or_congr_right (or_iff_left ?_).symm)
          rintro ⟨l, hl, -⟩
          exact hne l hl

/-- A line that reads as a header of no path stops the scan. -/
lemma scan_body_error {s : Scan} {own : Option PyStr} (hs : s.AtBody own) {body : List BodyLine}
    (hbad : ¬ Decodable charNamed body) :
    ∃ path, (body.map BodyLine.render).foldlM (scanLine charNamed) s = .error path := by
  induction body using List.reverseRecOn with
  | nil => exact absurd (fun before l hat => by simp [AddedAt] at hat) hbad
  | append_singleton body x ih =>
      rw [List.map_append, List.foldlM_append]
      by_cases hok : Decodable charNamed body
      · obtain ⟨s', hrun, hbehind⟩ := scan_body hs hok
        unfold Decodable at hbad
        push Not at hbad
        obtain ⟨before, l, hat, hheader, herror⟩ := hbad
        rcases addedAt_concat.mp hat with hat | ⟨rfl, rfl⟩
        · obtain ⟨target, htarget⟩ := hok before l hat hheader
          exact absurd htarget (herror target)
        · obtain ⟨r, hr, hdash, hplus⟩ := hheader
          have hstep := scanLine_header charNamed (s := s')
            ((startsWith_prev hs hbehind).mpr ⟨r, hr, hdash⟩) hplus
          cases hpath : diffHeaderPath charNamed (lit "+" ++ l.text) with
          | ok target => exact absurd hpath (herror target)
          | error path =>
              rw [hpath] at hstep
              refine ⟨path, ?_⟩
              rw [hrun]
              show ([(BodyLine.added l).render].foldlM (scanLine charNamed) s' : Except PyStr Scan) = .error path
              rw [List.foldlM_cons, hstep]
              rfl
      · obtain ⟨path, herror⟩ := ih hok
        refine ⟨path, ?_⟩
        rw [herror]
        rfl

/-! ## Files -/

/-- The path the lines of a file are filed under at first. -/
def FileDiff.own (quotePath : Bool) (f : FileDiff) : Option PyStr :=
  if f.deleted then none
  else match f.name with
    | .utf8 path => some (path.shown quotePath)
    | .other _ => none

/-- The name is UTF-8. -/
def FileName.isUtf8 : FileName → Prop
  | .utf8 _ => True
  | .other _ => False

lemma shown_ne_devNull (quotePath : Bool) (path : GitPath) : path.shown quotePath ≠ lit "/dev/null" := by
  obtain ⟨chars, hne, hrelative⟩ := path
  cases chars with
  | nil => exact absurd rfl hne
  | cons c rest =>
      have hc : PyChar.char c ≠ .char '/' := fun he => hrelative (by cases he; rfl)
      unfold GitPath.shown
      split_ifs
      · intro he
        exact hc (List.cons.inj he).1
      · intro he
        cases hspace : isSpace (.char c) with
        | false =>
            have hcons : rstrip (ofChars (c :: rest)) = .char c :: rstrip (ofChars rest) :=
              rstrip_append (s := []) hspace
            exact hc (List.cons.inj (hcons.symm.trans he)).1
        | true =>
            have hfront := List.rdropWhile_prefix isSpace (ofChars (c :: rest))
            rw [show List.rdropWhile isSpace (ofChars (c :: rest)) = lit "/dev/null" from he] at hfront
            obtain ⟨t, ht⟩ := hfront
            exact hc (List.cons.inj ht).1.symm

/-- Nothing a name is quoted to is a control character. -/
lemma printable_quoteChar {quotePath : Bool} {c d : Char} (hd : d ∈ quoteChar quotePath c) : 32 ≤ d.toNat := by
  unfold quoteChar at hd
  split_ifs at hd with hquote hslash
  · rcases hslash with rfl | rfl <;> simp at hd <;> rcases hd with rfl | rfl <;> decide
  · cases hletter : controlLetters.lookup c.toNat with
    | none =>
        rw [hletter] at hd
        obtain ⟨b, -, hb⟩ := List.mem_flatMap.mp hd
        have hlt : b.toNat < 256 := b.toNat_lt
        have hdigit : ∀ n < 8, 32 ≤ (Char.ofNat (48 + n)).toNat := by decide
        simp only [octal, List.mem_cons, List.not_mem_nil, or_false] at hb
        rcases hb with rfl | rfl | rfl | rfl
        · decide
        · exact hdigit _ (by omega)
        · exact hdigit _ (by omega)
        · exact hdigit _ (by omega)
    | some letter =>
        rw [hletter] at hd
        have hletters : ∀ entry ∈ controlLetters, 32 ≤ entry.2.toNat := by decide
        simp only [List.mem_cons, List.not_mem_nil, or_false] at hd
        rcases hd with rfl | rfl
        · decide
        · obtain ⟨before, after, hsplit, -⟩ := List.lookup_eq_some_iff.mp hletter
          exact hletters (c.toNat, d) (hsplit ▸ by simp)
  · rw [List.mem_singleton.mp hd]
    simp only [mustQuote, decide_eq_true_eq, not_or, Nat.not_lt] at hquote
    exact hquote.1

lemma not_mem_label (quotePath : Bool) (path : GitPath) {c : Char} (hc : c.toNat < 32) (htab : c ≠ '\t') :
    PyChar.char c ∉ label quotePath ['b', '/'] path.chars := by
  have hquoted : ∀ d ∈ quoteName quotePath ['b', '/'] path.chars, 32 ≤ d.toNat := by
    intro d hd
    unfold quoteName at hd
    split_ifs at hd with hquote
    · simp only [List.cons_append, List.nil_append, List.mem_cons, List.mem_append, List.mem_flatMap,
        List.not_mem_nil, or_false] at hd
      rcases hd with rfl | rfl | rfl | ⟨e, -, he⟩ | rfl
      · decide
      · decide
      · decide
      · exact printable_quoteChar he
      · decide
    · simp only [List.cons_append, List.nil_append, List.mem_cons] at hd
      rcases hd with rfl | rfl | hd
      · decide
      · decide
      · by_contra hlow
        exact hquote (List.any_eq_true.mpr ⟨d, hd, by simp [mustQuote]; omega⟩)
  intro hmem
  obtain ⟨d, hd, hdc⟩ := List.mem_map.mp hmem
  cases hdc
  rcases List.mem_append.mp hd with hd | hd
  · exact absurd (hquoted c hd) (by omega)
  · split_ifs at hd
    · exact htab (List.mem_singleton.mp hd)
    · cases hd

variable (charNamed) in
/-- The header line of a file, behind the line of its source. -/
lemma scan_target {s : Scan} {target : PyStr} (hcr : cr ∉ target) (hprev : startsWith s.prev "--- " = true) :
    scanLine charNamed s (lit "+++ " ++ target) = (diffHeaderPath charNamed (lit "+++ " ++ target)).map fun path =>
      { s with current := if path = lit "/dev/null" then none else some path, prev := lit "+++ " ++ target } := by
  have hline : removeLast (lit "+++ " ++ target) cr = lit "+++ " ++ target := by
    refine if_neg fun hlast => ?_
    rcases List.mem_append.mp (List.mem_of_getLast? hlast) with hmem | hmem
    · exact absurd hmem (by decide)
    · exact hcr hmem
  have hcommand : startsWith (lit "+++ " ++ target) "diff --git" = false := rfl
  have hplus : startsWith (lit "+++ " ++ target) "+++ " = true := rfl
  rw [scanLine, hline]
  simp only [hcommand, hplus, hprev]
  rfl

variable (charNamed) in
/-- The header of a file sets what its lines are filed under. -/
lemma scan_header {s : Scan} (quotePath : Bool) {f : FileDiff} (hname : f.name.isUtf8)
    (hprev : startsWith s.prev "--- " = true) :
    ∃ prev, scanLine charNamed s (lit "+++ " ++ f.target quotePath)
      = .ok { s with current := f.own quotePath, prev := prev } ∧ startsWith prev "--- " = false := by
  have hcr : cr ∉ f.target quotePath := by
    intro hmem
    unfold FileDiff.target at hmem
    split_ifs at hmem
    · exact absurd hmem (by decide)
    · cases hutf8 : f.name with
      | utf8 path =>
          rw [hutf8] at hmem
          exact not_mem_label quotePath path (by decide) (by decide) hmem
      | other shown => rw [hutf8] at hname; exact hname.elim
  have hpath : ∃ target, diffHeaderPath charNamed (lit "+++ " ++ f.target quotePath) = .ok target ∧
      (if target = lit "/dev/null" then none else some target) = f.own quotePath := by
    unfold FileDiff.target FileDiff.own
    split_ifs with hdeleted
    · exact ⟨lit "/dev/null", rfl, if_pos rfl⟩
    · cases hutf8 : f.name with
      | utf8 path => exact ⟨_, diffHeaderPath_label quotePath path, if_neg (shown_ne_devNull quotePath path)⟩
      | other shown => rw [hutf8] at hname; exact hname.elim
  obtain ⟨target, htarget, hown⟩ := hpath
  refine ⟨lit "+++ " ++ f.target quotePath, ?_, rfl⟩
  rw [scan_target charNamed hcr hprev, htarget, ← hown]
  rfl

variable (charNamed) in
/-- The lines between the command and the header of a file leave what is read. -/
lemma scan_extended {s : Scan} (hs : s.current = none) {lines : List Line}
    (hlower : ∀ l ∈ lines, ∃ c, l.raw.head? = some (.char c) ∧ c.isLower) :
    ∃ prev, (lines.map Line.raw).foldlM (scanLine charNamed) s = .ok { s with prev := prev } := by
  induction lines generalizing s with
  | nil => exact ⟨s.prev, rfl⟩
  | cons l rest ih =>
      obtain ⟨c, hc, hclower⟩ := hlower l List.mem_cons_self
      have hline : removeLast l.raw cr = l.text := removeLast_raw [] l (by decide)
      have hhead : ∃ tail, l.text = .char c :: tail := by
        cases htext : l.text with
        | nil =>
            rw [Line.raw, htext] at hc
            cases hcrlf : l.crlf <;> rw [hcrlf] at hc <;> cases hc
            exact absurd hclower (by decide)
        | cons d tail =>
            rw [Line.raw, htext] at hc
            cases hc
            exact ⟨tail, rfl⟩
      obtain ⟨tail, htail⟩ := hhead
      have hplus : ∀ start : List Char, startsWith l.text (String.ofList ('+' :: start)) = false := by
        intro start
        have hne : '+' ≠ c := fun he => by subst he; exact absurd hclower (by decide)
        rw [startsWith, lit, String.toList_ofList, htail, ofChars, List.map_cons, List.isPrefixOf_cons_cons]
        simp [hne]
      have hstep : scanLine charNamed s l.raw = .ok { s with prev := l.text } := by
        have hheader : startsWith l.text "+++ " = false := hplus ['+', '+', ' ']
        have hadded : startsWith l.text "+" = false := hplus []
        rw [scanLine, hline]
        simp only [hheader, hadded, hs]
        split_ifs <;> first | rfl | simp_all
      obtain ⟨prev, hrun⟩ := ih (s := { s with prev := l.text }) hs fun m hm => hlower m (List.mem_cons_of_mem _ hm)
      refine ⟨prev, ?_⟩
      rw [List.map_cons, List.foldlM_cons, hstep]
      exact hrun

variable (charNamed) in
/-- The lines of a file before its header. -/
lemma scan_command (s : Scan) (f : FileDiff) :
    ∃ prev, ((lit "diff --git " ++ f.command.raw) :: f.extended.map Line.raw).foldlM (scanLine charNamed) s
      = .ok { s with current := none, prev := prev } := by
  have hcommand : scanLine charNamed s (lit "diff --git " ++ f.command.raw)
      = .ok { s with current := none, prev := lit "diff --git " ++ f.command.text } := by
    have hline := removeLast_raw (lit "diff --git ") f.command (by decide)
    rw [scanLine, hline]
    exact if_pos rfl
  obtain ⟨prev, hextended⟩ := scan_extended charNamed
    (s := { s with current := none, prev := lit "diff --git " ++ f.command.text }) rfl f.lower
  refine ⟨prev, ?_⟩
  rw [List.foldlM_cons, hcommand]
  exact hextended

variable (charNamed) in
/-- The lines of a file up to its header. -/
lemma scan_source (s : Scan) (quotePath : Bool) {f : FileDiff} (hbody : f.body ≠ []) :
    ∃ s', startsWith s'.prev "--- " = true ∧ s'.added = s.added ∧
      (f.lines quotePath).foldlM (scanLine charNamed) s
        = ((lit "+++ " ++ f.target quotePath) :: f.body.map BodyLine.render).foldlM (scanLine charNamed) s' := by
  obtain ⟨prev, hcommand⟩ := scan_command charNamed s f
  have hsource : scanLine charNamed { s with current := none, prev := prev } (lit "--- " ++ f.source.raw)
      = .ok { s with current := none, prev := lit "--- " ++ f.source.text } := by
    have hline := removeLast_raw (lit "--- ") f.source (by decide)
    rw [scanLine, hline]
    rfl
  refine ⟨{ s with current := none, prev := lit "--- " ++ f.source.text }, rfl, rfl, ?_⟩
  have hempty : f.body.isEmpty = false := by simpa using hbody
  rw [FileDiff.lines, hempty, List.foldlM_append, hcommand]
  show (((lit "--- " ++ f.source.raw) :: _).foldlM (scanLine charNamed) _ : Except PyStr Scan) = _
  rw [List.foldlM_cons, hsource]
  rfl

variable (charNamed) in
/-- The lines of a file up to the first hunk. -/
lemma scan_start (s : Scan) (quotePath : Bool) {f : FileDiff} (hname : f.name.isUtf8) (hbody : f.body ≠ []) :
    ∃ s', Scan.AtBody s' (f.own quotePath) ∧ s'.added = s.added ∧
      (f.lines quotePath).foldlM (scanLine charNamed) s
        = (f.body.map BodyLine.render).foldlM (scanLine charNamed) s' := by
  obtain ⟨s', hprev, hadded, hlines⟩ := scan_source charNamed s quotePath hbody
  obtain ⟨prev', hheader, hprev'⟩ := scan_header charNamed quotePath hname hprev
  refine ⟨{ s' with current := f.own quotePath, prev := prev' }, ⟨rfl, hprev'⟩, hadded, ?_⟩
  rw [hlines, List.foldlM_cons, hheader]
  rfl

variable (charNamed) in
/-- An added line of the change that is read as one, under a path. -/
def Filed (quotePath : Bool) (files : List FileDiff) (path text : PyStr) : Prop :=
  ∃ f ∈ files, FiledAs charNamed (f.own quotePath) f.body path text

/-- The scan of a file. -/
lemma scan_file (s : Scan) (quotePath : Bool) {f : FileDiff} (hname : f.name.isUtf8)
    (hok : Decodable charNamed f.body) :
    ∃ s', (f.lines quotePath).foldlM (scanLine charNamed) s = .ok s' ∧
      ∀ path text, (path, text) ∈ s'.added ↔
        (path, text) ∈ s.added ∨ FiledAs charNamed (f.own quotePath) f.body path text := by
  by_cases hbody : f.body = []
  · obtain ⟨prev, hcommand⟩ := scan_command charNamed s f
    refine ⟨{ s with current := none, prev := prev }, ?_, fun path text => ?_⟩
    · rw [FileDiff.lines, hbody, ← hcommand]
      exact congrArg (fun lines => lines.foldlM (scanLine charNamed) s) (List.append_nil _)
    · simp [FiledAs, AddedAt, hbody]
  · obtain ⟨s', hs', hadded, hlines⟩ := scan_start charNamed s quotePath hname hbody
    obtain ⟨s'', hrun, hbehind⟩ := scan_body hs' hok
    refine ⟨s'', hlines.trans hrun, fun path text => ?_⟩
    rw [← hadded]
    exact hbehind.added path text

lemma scan_file_error (s : Scan) (quotePath : Bool) {f : FileDiff} (hname : f.name.isUtf8)
    (hbad : ¬ Decodable charNamed f.body) :
    ∃ path, (f.lines quotePath).foldlM (scanLine charNamed) s = .error path := by
  have hbody : f.body ≠ [] := fun hnil => hbad (by rw [hnil]; intro before l hat; simp [AddedAt] at hat)
  obtain ⟨s', hs', -, hlines⟩ := scan_start charNamed s quotePath hname hbody
  obtain ⟨path, herror⟩ := scan_body_error hs' hbad
  exact ⟨path, hlines.trans herror⟩

variable (charNamed) in
lemma scan_files (s : Scan) (quotePath : Bool) {files : List FileDiff} (hnames : ∀ f ∈ files, f.name.isUtf8)
    (hok : ∀ f ∈ files, Decodable charNamed f.body) :
    ∃ s', (files.flatMap (FileDiff.lines quotePath)).foldlM (scanLine charNamed) s = .ok s' ∧
      ∀ path text, (path, text) ∈ s'.added ↔
        (path, text) ∈ s.added ∨ Filed charNamed quotePath files path text := by
  induction files generalizing s with
  | nil => exact ⟨s, rfl, fun path text => by simp [Filed]⟩
  | cons f rest ih =>
      obtain ⟨s', hfile, hadded⟩ := scan_file s quotePath (hnames f List.mem_cons_self) (hok f List.mem_cons_self)
      obtain ⟨s'', hrest, hadded'⟩ := ih s' (fun g hg => hnames g (List.mem_cons_of_mem _ hg))
        fun g hg => hok g (List.mem_cons_of_mem _ hg)
      refine ⟨s'', ?_, fun path text => ?_⟩
      · rw [List.flatMap_cons, List.foldlM_append, hfile]
        exact hrest
      · rw [hadded', hadded, or_assoc]
        simp [Filed]

variable (charNamed) in
lemma scan_files_error (s : Scan) (quotePath : Bool) {files : List FileDiff}
    (hnames : ∀ f ∈ files, f.name.isUtf8) (hbad : ∃ f ∈ files, ¬ Decodable charNamed f.body) :
    ∃ path, (files.flatMap (FileDiff.lines quotePath)).foldlM (scanLine charNamed) s = .error path := by
  induction files generalizing s with
  | nil => simp at hbad
  | cons f rest ih =>
      rw [List.flatMap_cons, List.foldlM_append]
      by_cases hok : Decodable charNamed f.body
      · obtain ⟨s', hfile, -⟩ := scan_file s quotePath (hnames f List.mem_cons_self) hok
        have hrest : ∃ g ∈ rest, ¬ Decodable charNamed g.body := by
          obtain ⟨g, hg, hgbad⟩ := hbad
          rcases List.mem_cons.mp hg with rfl | hg
          · exact absurd hok hgbad
          · exact ⟨g, hg, hgbad⟩
        obtain ⟨path, herror⟩ := ih s' (fun g hg => hnames g (List.mem_cons_of_mem _ hg)) hrest
        refine ⟨path, ?_⟩
        rw [hfile]
        exact herror
      · obtain ⟨path, herror⟩ := scan_file_error s quotePath (hnames f List.mem_cons_self) hok
        refine ⟨path, ?_⟩
        rw [herror]
        rfl

/-! ## The whole text -/

lemma lf_not_mem_raw (l : Line) : lf ∉ l.raw := by
  rw [Line.raw, List.mem_append, not_or]
  refine ⟨l.noBreak, ?_⟩
  split_ifs
  · decide
  · exact List.not_mem_nil

lemma lf_not_mem_append {start rest : PyStr} (hstart : lf ∉ start) (hrest : lf ∉ rest) : lf ∉ start ++ rest := by
  rw [List.mem_append, not_or]
  exact ⟨hstart, hrest⟩

/-- No line of the text holds a line feed. -/
lemma lf_not_mem_lines (quotePath : Bool) (f : FileDiff) : ∀ line ∈ f.lines quotePath, lf ∉ line := by
  intro line hline
  rcases List.mem_append.mp hline with hline | hline
  · rcases List.mem_cons.mp hline with rfl | hline
    · exact lf_not_mem_append (by decide) (lf_not_mem_raw _)
    · obtain ⟨l, -, rfl⟩ := List.mem_map.mp hline
      exact lf_not_mem_raw l
  · split_ifs at hline
    · cases hline
    · simp only [List.mem_cons, List.mem_map] at hline
      rcases hline with rfl | rfl | ⟨x, -, rfl⟩
      · exact lf_not_mem_append (by decide) (lf_not_mem_raw _)
      · refine lf_not_mem_append (by decide) ?_
        unfold FileDiff.target
        split_ifs
        · decide
        · cases f.name with
          | utf8 path => exact not_mem_label quotePath path (by decide) (by decide)
          | other shown => exact lf_not_mem_raw shown
      · cases x with
        | noNewline => decide
        | _ => exact lf_not_mem_append (by decide) (lf_not_mem_raw _)

lemma splitOn_render (quotePath : Bool) (files : List FileDiff) :
    (render quotePath files).splitOn lf = files.flatMap (FileDiff.lines quotePath) ++ [[]] := by
  refine List.splitOn_intercalate lf (fun line hline => ?_) (by simp)
  rcases List.mem_append.mp hline with hline | hline
  · obtain ⟨f, -, hf⟩ := List.mem_flatMap.mp hline
    exact lf_not_mem_lines quotePath f line hf
  · rw [List.mem_singleton.mp hline]
    exact List.not_mem_nil

/-- **The added lines read from a diff text.**  They are the added lines that do not read as a header, each
under the path of the last header before it, a line that reads as one counted. -/
theorem parseAddedLines_render (quotePath : Bool) {files : List FileDiff} (hnames : ∀ f ∈ files, f.name.isUtf8)
    (hok : ∀ f ∈ files, Decodable charNamed f.body) :
    ∃ added, parseAddedLines charNamed (render quotePath files) = .ok added ∧
      ∀ path text, (path, text) ∈ added ↔ Filed charNamed quotePath files path text := by
  obtain ⟨s, hrun, hadded⟩ := scan_files charNamed {} quotePath hnames hok
  refine ⟨s.added, ?_, fun path text => (hadded path text).trans (by simp)⟩
  rw [parseAddedLines, splitOn_render, List.foldlM_append, hrun]
  rfl

/-- A line that reads as a header of no path is an error. -/
theorem parseAddedLines_error (quotePath : Bool) {files : List FileDiff} (hnames : ∀ f ∈ files, f.name.isUtf8)
    (hbad : ∃ f ∈ files, ¬ Decodable charNamed f.body) :
    ∃ path, parseAddedLines charNamed (render quotePath files) = .error path := by
  obtain ⟨path, herror⟩ := scan_files_error charNamed {} quotePath hnames hbad
  refine ⟨path, ?_⟩
  rw [parseAddedLines, splitOn_render, List.foldlM_append, herror]
  rfl

/-! ## A database script -/

/-- The header of a hunk of one line on both sides. -/
def oneLineHunk : Line := ⟨lit "-1 +1 @@", false, by decide, by decide⟩

def dbScript : GitPath := ⟨['d', 'b', '.', 's', 'q', 'l'], by decide, by decide⟩

/-- A change of the script. -/
def dbScriptDiff (body : List BodyLine) : FileDiff where
  name := .utf8 dbScript
  deleted := false
  command := ⟨lit "a/db.sql b/db.sql", false, by decide, by decide⟩
  source := ⟨lit "a/db.sql", false, by decide, by decide⟩
  extended := []
  body := body
  lower := List.forall_mem_nil _
  noAdded := nofun

end Verify

end Kstrl
