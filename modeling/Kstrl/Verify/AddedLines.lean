import Kstrl.Base.TextLines
import Kstrl.Verify.DiffText

/-!
# Every added line under the path of its file

`parse_added_lines` of `kstrl/verify/policy.py` on all that git renders, file names of any bytes included.

* **`parseAddedLines_exact_iff`**: it returns exactly the added lines, each with the path of its file, unless an added
  line reads as a file header, or the name of a file with a hunk does not survive its header line.
-/

namespace Kstrl

namespace Verify

open PyCodec

variable {charNamed : List UInt8 → Option ℕ}

/-! ## File names of any bytes -/

/-- The bytes of a name. -/
def nameBytes (name : PyStr) : List UInt8 :=
  name.flatMap fun
    | .char c => String.utf8EncodeChar c
    | .byte b => [b]

/-- Whether a character or a byte of a name asks for quotes. -/
def unitMustQuote (quotePath : Bool) : PyChar → Bool
  | .char c => mustQuote quotePath c
  | .byte _ => quotePath

/-- A character or a byte between the quotes. -/
def quoteUnit (quotePath : Bool) : PyChar → PyStr
  | .char c => ofChars (quoteChar quotePath c)
  | .byte b => if quotePath then ofChars (octal b) else [.byte b]

/-- The name behind its prefix, in quotes where it has to be. -/
def quotedName (quotePath : Bool) (name : PyStr) : PyStr :=
  if name.any (unitMustQuote quotePath) then
    ofChars ['"', 'b', '/'] ++ name.flatMap (quoteUnit quotePath) ++ [.char '"']
  else ofChars ['b', '/'] ++ name

/-- What stands behind `+++` for a name that is not UTF-8. -/
def bytesLabel (quotePath : Bool) (name : PyStr) : PyStr :=
  quotedName quotePath name ++ if PyChar.char ' ' ∈ quotedName quotePath name then [.char '\t'] else []

/-- The path of a file, as a listing that keeps every byte has it. -/
inductive Named (quotePath : Bool) : FileName → PyStr → Prop where
  | utf8 (path : GitPath) : Named quotePath (.utf8 path) (ofChars path.chars)
  | other {name : PyStr} {shown : Line} (notUtf8 : decodeUtf8 (nameBytes name) = none)
      (relative : name.head? ≠ some (.char '/')) (hshown : shown.raw = bytesLabel quotePath name) :
      Named quotePath (.other shown) name

/-- The name a reader that strips the header has. -/
def shownName (quotePath : Bool) (name : PyStr) : PyStr :=
  if name.any (unitMustQuote quotePath) then name else rstrip name

/-- A name whose quoted form no reader can undo: it has a byte that is not UTF-8, and quotes. -/
def Unreadable (quotePath : Bool) (name : PyStr) : Prop :=
  (∃ b, PyChar.byte b ∈ name) ∧ name.any (unitMustQuote quotePath) = true

/-! ## The codecs on such a name -/

lemma encodeUtf8_of_byte {s : PyStr} {b : UInt8} (h : PyChar.byte b ∈ s) : encodeUtf8 s = none := by
  induction s with
  | nil => cases h
  | cons c rest ih =>
      cases c with
      | byte => rfl
      | char c =>
          rcases List.mem_cons.mp h with hhead | hrest
          · cases hhead
          · rw [encodeUtf8, ih hrest]
            rfl

lemma nameBytes_ofChars (chars : List Char) : nameBytes (ofChars chars) = chars.flatMap String.utf8EncodeChar := by
  rw [nameBytes, ofChars, List.flatMap_map]

lemma exists_byte {name : PyStr} (h : decodeUtf8 (nameBytes name) = none) : ∃ b, PyChar.byte b ∈ name := by
  by_contra hno
  have hchars : ∃ chars, name = ofChars chars := by
    clear h
    induction name with
    | nil => exact ⟨[], rfl⟩
    | cons c rest ih =>
        obtain ⟨chars, hrest⟩ := ih fun ⟨b, hb⟩ => hno ⟨b, List.mem_cons_of_mem _ hb⟩
        cases c with
        | byte b => exact absurd ⟨b, List.mem_cons_self⟩ hno
        | char c => exact ⟨c :: chars, by rw [hrest]; rfl⟩
  obtain ⟨chars, rfl⟩ := hchars
  rw [nameBytes_ofChars, decodeUtf8_encode] at h
  cases h

/-- An ASCII byte in front does not make bytes decode. -/
lemma decodeUtf8_ascii_cons {n : ℕ} (hn : n < 128) {data : List UInt8} (h : decodeUtf8 data = none) :
    decodeUtf8 (UInt8.ofNat n :: data) = none := by
  cases hdecode : decodeUtf8 (UInt8.ofNat n :: data) with
  | none => rfl
  | some text =>
      have hencode := TextLines.encode_of_decode hdecode
      cases text with
      | nil => cases hencode
      | cons c rest =>
          have hsplit : String.utf8EncodeChar c ++ TextLines.encode rest = UInt8.ofNat n :: data := hencode
          have hne : String.utf8EncodeChar c ≠ [] := by simp
          obtain ⟨b, tail, hbytes⟩ := List.exists_cons_of_ne_nil hne
          have hb : b = UInt8.ofNat n := by
            rw [hbytes] at hsplit
            exact (List.cons.inj hsplit).1
          have hval : c.val.toNat = n := TextLines.ascii_mem_encodeChar hn (by rw [hbytes, hb]; exact List.mem_cons_self)
          have hone : String.utf8EncodeChar c = [UInt8.ofNat n] := by
            unfold String.utf8EncodeChar
            simp only [hval]
            rw [if_pos (by omega)]
          rw [hone, List.singleton_append] at hsplit
          rw [← (List.cons.inj hsplit).2, TextLines.decodeUtf8_encode_eq] at h
          cases h

/-- What the escapes of a name read as. -/
lemma run_quoteUnits (name : PyStr) : ∃ chars, name.flatMap (quoteUnit true) = ofChars chars ∧
    Escape.plain.run charNamed (chars.flatMap String.utf8EncodeChar) = some ((nameBytes name).map UInt8.toNat) := by
  induction name with
  | nil => exact ⟨[], rfl, rfl⟩
  | cons c rest ih =>
      obtain ⟨chars, hchars, hrun⟩ := ih
      cases c with
      | char c =>
          refine ⟨quoteChar true c ++ chars, ?_, ?_⟩
          · rw [List.flatMap_cons, hchars]
            exact (List.map_append ..).symm
          · have hbytes : nameBytes (.char c :: rest) = String.utf8EncodeChar c ++ nameBytes rest := rfl
            rw [List.flatMap_append, run_quoteChar, hrun, hbytes, List.map_append]
            rfl
      | byte b =>
          refine ⟨octal b ++ chars, ?_, ?_⟩
          · rw [List.flatMap_cons, hchars]
            exact (List.map_append ..).symm
          · rw [List.flatMap_append, run_octal, hrun]
            rfl

/-- **The header of a name that is not UTF-8.** -/
lemma diffHeaderPath_bytes (quotePath : Bool) {name : PyStr} (notUtf8 : decodeUtf8 (nameBytes name) = none) :
    diffHeaderPath charNamed (lit "+++ " ++ bytesLabel quotePath name)
      = if name.any (unitMustQuote quotePath) then .error (quotedName quotePath name) else .ok (rstrip name) := by
  have hstrip : strip (bytesLabel quotePath name) = strip (quotedName quotePath name) := by
    unfold bytesLabel
    split_ifs
    · rw [strip, rstrip_append_space (by simp [isSpace, PyText.isSpace])]
      rfl
    · rw [List.append_nil]
  have hdrop : (lit "+++ " ++ bytesLabel quotePath name).drop 4 = bytesLabel quotePath name := rfl
  rw [diffHeaderPath, hdrop, hstrip]
  by_cases hquote : name.any (unitMustQuote quotePath) = true
  · rw [if_pos hquote]
    have hquoted : quotedName quotePath name
        = .char '"' :: (ofChars ['b', '/'] ++ name.flatMap (quoteUnit quotePath) ++ [.char '"']) := if_pos hquote
    have hends : strip (quotedName quotePath name) = quotedName quotePath name := by
      rw [hquoted, strip_of_head rfl]
      exact rstrip_append (s := .char '"' :: (ofChars ['b', '/'] ++ name.flatMap (quoteUnit quotePath))) (t := []) rfl
    have hinner : (quotedName quotePath name).tail.dropLast
        = ofChars ['b', '/'] ++ name.flatMap (quoteUnit quotePath) := by
      rw [hquoted]
      exact List.dropLast_concat
    have hcodec : ((encodeUtf8 (quotedName quotePath name).tail.dropLast).bind (unicodeEscape charNamed)
        |>.bind encodeLatin1 |>.bind decodeUtf8) = none := by
      rw [hinner]
      cases quotePath with
      | false =>
          obtain ⟨b, hb⟩ := exists_byte notUtf8
          have hmem : PyChar.byte b ∈ ofChars ['b', '/'] ++ name.flatMap (quoteUnit false) :=
            List.mem_append_right _ (List.mem_flatMap.mpr ⟨.byte b, hb, List.mem_singleton_self _⟩)
          rw [encodeUtf8_of_byte hmem]
          rfl
      | true =>
          obtain ⟨chars, hchars, hrun⟩ := run_quoteUnits name
          have hname : ofChars ['b', '/'] ++ name.flatMap (quoteUnit true) = ofChars ('b' :: '/' :: chars) := by
            rw [hchars]
            rfl
          have hescape : unicodeEscape charNamed (('b' :: '/' :: chars).flatMap String.utf8EncodeChar)
              = some ((UInt8.ofNat 98 :: UInt8.ofNat 47 :: nameBytes name).map UInt8.toNat) := by
            have hstart : ('b' :: '/' :: chars).flatMap String.utf8EncodeChar
                = [UInt8.ofNat 98, UInt8.ofNat 47] ++ chars.flatMap String.utf8EncodeChar := rfl
            rw [hstart, unicodeEscape, run_bytes (by decide), hrun]
            rfl
          rw [hname, encodeUtf8_ofChars]
          simp only [Option.bind_some, hescape, encodeLatin1_bytes]
          exact decodeUtf8_ascii_cons (by decide) (decodeUtf8_ascii_cons (by decide) notUtf8)
    rw [hends, unquoteDiffPath, if_neg, hcodec]
    · rfl
    · rw [hquoted, not_not]
      exact ⟨rfl, List.getLast?_concat (l := .char '"' :: (ofChars ['b', '/'] ++ name.flatMap (quoteUnit quotePath))),
        by simp [ofChars]⟩
  · rw [if_neg hquote]
    have hraw : strip (quotedName quotePath name) = .char 'b' :: .char '/' :: rstrip name := by
      rw [quotedName, if_neg hquote]
      exact (strip_of_head rfl).trans (rstrip_append (s := [.char 'b']) rfl)
    rw [hraw, unquoteDiffPath, if_pos (by simp)]
    rfl

lemma rstrip_ne_devNull {name : PyStr} (h : name.head? ≠ some (.char '/')) : rstrip name ≠ lit "/dev/null" := by
  intro hsame
  obtain ⟨t, ht⟩ : rstrip name <+: name := List.rdropWhile_prefix _ _
  rw [hsame] at ht
  exact h (by rw [← ht]; rfl)

lemma unitMustQuote_ofChars (quotePath : Bool) (chars : List Char) :
    (ofChars chars).any (unitMustQuote quotePath) = chars.any (mustQuote quotePath) := by
  rw [ofChars, List.any_map]
  rfl

lemma cr_not_mem_quoteUnit (quotePath : Bool) (c : PyChar) : cr ∉ quoteUnit quotePath c := by
  intro hmem
  cases c with
  | char c =>
      obtain ⟨d, hd, hcr⟩ := List.mem_map.mp hmem
      cases hcr
      exact absurd (printable_quoteChar hd) (by decide)
  | byte b =>
      unfold quoteUnit at hmem
      split_ifs at hmem
      · obtain ⟨d, hd, hcr⟩ := List.mem_map.mp hmem
        cases hcr
        have hdigit : ∀ n < 8, Char.ofNat (48 + n) ≠ '\r' := by decide
        have hlt : b.toNat < 256 := b.toNat_lt
        simp only [octal, List.mem_cons, List.not_mem_nil, or_false] at hd
        rcases hd with hd | hd | hd | hd
        · cases hd
        · exact hdigit _ (by omega) hd.symm
        · exact hdigit _ (by omega) hd.symm
        · exact hdigit _ (by omega) hd.symm
      · simp [cr] at hmem

lemma cr_not_mem_bytesLabel (quotePath : Bool) (name : PyStr) : cr ∉ bytesLabel quotePath name := by
  have hquoted : cr ∉ quotedName quotePath name := by
    unfold quotedName
    split_ifs with hquote
    · simp only [List.mem_append, List.mem_flatMap, not_or, not_exists, not_and]
      exact ⟨⟨by decide, fun c _ => cr_not_mem_quoteUnit quotePath c⟩, by decide⟩
    · rw [List.mem_append, not_or]
      exact ⟨by decide, fun hmem => hquote (List.any_eq_true.mpr ⟨cr, hmem, by cases quotePath <;> decide⟩)⟩
  unfold bytesLabel
  rw [List.mem_append, not_or]
  refine ⟨hquoted, ?_⟩
  split_ifs
  · decide
  · exact List.not_mem_nil

/-- **The header of a file.** -/
lemma target_live {quotePath : Bool} {f : FileDiff} (hlive : f.deleted = false) :
    f.target quotePath = match f.name with
      | .utf8 path => label quotePath ['b', '/'] path.chars
      | .other shown => shown.raw := by
  rw [FileDiff.target, hlive]
  rfl

lemma header_named {quotePath : Bool} {f : FileDiff} {name : PyStr} (hnamed : Named quotePath f.name name)
    (hlive : f.deleted = false) :
    cr ∉ f.target quotePath ∧ shownName quotePath name ≠ lit "/dev/null" ∧
      (Unreadable quotePath name → ∃ path, diffHeaderPath charNamed (lit "+++ " ++ f.target quotePath) = .error path) ∧
      (¬ Unreadable quotePath name →
        diffHeaderPath charNamed (lit "+++ " ++ f.target quotePath) = .ok (shownName quotePath name)) := by
  rw [target_live hlive]
  generalize f.name = fileName at hnamed
  cases hnamed with
  | utf8 path =>
      have hreadable : ¬ Unreadable quotePath (ofChars path.chars) := by
        rintro ⟨⟨b, hb⟩, -⟩
        obtain ⟨c, -, hc⟩ := List.mem_map.mp hb
        cases hc
      have hshown : shownName quotePath (ofChars path.chars) = path.shown quotePath := by
        rw [shownName, GitPath.shown, unitMustQuote_ofChars]
      rw [hshown]
      exact ⟨not_mem_label quotePath path (by decide) (by decide), shown_ne_devNull quotePath path,
        fun h => absurd h hreadable, fun _ => diffHeaderPath_label quotePath path⟩
  | @other name shown notUtf8 relative hshown =>
      dsimp only
      rw [hshown, diffHeaderPath_bytes quotePath notUtf8]
      refine ⟨cr_not_mem_bytesLabel quotePath name, ?_, fun h => ⟨_, if_pos h.2⟩, fun h => ?_⟩
      · unfold shownName
        split_ifs
        · rintro rfl
          exact relative rfl
        · exact rstrip_ne_devNull relative
      · have hraw : ¬ name.any (unitMustQuote quotePath) = true := fun hquote => h ⟨exists_byte notUtf8, hquote⟩
        rw [if_neg hraw, shownName, if_neg hraw]

/-! ## The hunks of a file -/

/-- The added lines of a file. -/
def addedTexts (body : List BodyLine) : List PyStr :=
  body.filterMap fun
    | .added l => some l.text
    | _ => none

/-- No added line reads as a header. -/
def NoHeader (body : List BodyLine) : Prop := ∀ before l, AddedAt body before l → ¬ ReadsAsHeader before l

lemma noHeader_concat {body : List BodyLine} {x : BodyLine} :
    NoHeader (body ++ [x]) ↔ NoHeader body ∧ ∀ l, x = .added l → ¬ ReadsAsHeader body l := by
  constructor
  · intro h
    exact ⟨fun before l hat => h before l (addedAt_concat.mpr (Or.inl hat)),
      fun l hx => h body l (addedAt_concat.mpr (Or.inr ⟨rfl, hx⟩))⟩
  · rintro ⟨hbody, hx⟩ before l hat
    rcases addedAt_concat.mp hat with hat | ⟨rfl, hlast⟩
    · exact hbody before l hat
    · exact hx l hlast

lemma addedTexts_concat (body : List BodyLine) (x : BodyLine) :
    addedTexts (body ++ [x]) = addedTexts body ++ addedTexts [x] := List.filterMap_append

lemma addedTexts_rest {x : BodyLine} (hx : ∀ l, x ≠ .added l) : addedTexts [x] = [] := by
  cases x with
  | added l => exact absurd rfl (hx l)
  | _ => rfl

variable (charNamed) in
lemma foldlM_concat {s s' : Scan} {body : List BodyLine} {x : BodyLine}
    (hrun : (body.map BodyLine.render).foldlM (scanLine charNamed) s = .ok s') :
    ((body ++ [x]).map BodyLine.render).foldlM (scanLine charNamed) s = scanLine charNamed s' x.render := by
  rw [List.map_append, List.foldlM_append, hrun]
  show ([x.render].foldlM (scanLine charNamed) s' : Except PyStr Scan) = _
  rw [List.foldlM_cons]
  cases scanLine charNamed s' x.render <;> rfl

/-- Added lines under one path, or under none. -/
def filedTexts (own : Option PyStr) (texts : List PyStr) : List (PyStr × PyStr) :=
  own.elim [] fun path => texts.map fun text => (path, text)

variable (charNamed) in
/-- The hunks of a file in which no line reads as a header. -/
lemma scan_plain {s : Scan} {own : Option PyStr} (hs : s.AtBody own) {body : List BodyLine} (hplain : NoHeader body) :
    ∃ s', (body.map BodyLine.render).foldlM (scanLine charNamed) s = .ok s' ∧ s'.current = own ∧
      s'.added = s.added ++ filedTexts own (addedTexts body) := by
  induction body using List.reverseRecOn with
  | nil => exact ⟨s, rfl, hs.current, by cases own <;> exact (List.append_nil _).symm⟩
  | append_singleton body x ih =>
      obtain ⟨hbody, hx⟩ := noHeader_concat.mp hplain
      obtain ⟨s', hrun, hcurrent, hadded⟩ := ih hbody
      obtain ⟨s'', hrun', hbehind⟩ := scan_body hs fun before l hat hheader =>
        absurd hheader (hbody before l hat)
      have hsame : s' = s'' := Except.ok.inj (hrun.symm.trans hrun')
      rw [foldlM_concat charNamed hrun, addedTexts_concat]
      by_cases hkind : ∃ l, x = .added l
      · obtain ⟨l, rfl⟩ := hkind
        have hcontent : ¬ (startsWith s'.prev "--- " = true ∧ startsWith l.text "++ " = true) := by
          rintro ⟨hdash, hplus⟩
          obtain ⟨r, hr, hr'⟩ := (startsWith_prev hs (hsame ▸ hbehind)).mp hdash
          exact hx l rfl ⟨r, hr, hr', hplus⟩
        refine ⟨_, scanLine_content hcontent, hcurrent, ?_⟩
        rw [hcurrent, hadded]
        cases own with
        | none => rfl
        | some path =>
            show _ ++ [(path, l.text)] = _ ++ (addedTexts body ++ [l.text]).map _
            rw [List.map_append, ← List.append_assoc]
            rfl
      · have hne : ∀ l, x ≠ .added l := fun l hl => hkind ⟨l, hl⟩
        refine ⟨_, scanLine_rest hne, hcurrent, ?_⟩
        rw [addedTexts_rest hne, List.append_nil]
        exact hadded

variable (charNamed) in
/-- However a line is filed, no line is read twice, and one that reads as a header is not read. -/
lemma scan_count {s s' : Scan} {own : Option PyStr} (hs : s.AtBody own) {body : List BodyLine}
    (hrun : (body.map BodyLine.render).foldlM (scanLine charNamed) s = .ok s') :
    s'.added.length ≤ s.added.length + (addedTexts body).length ∧
      (¬ NoHeader body → s'.added.length < s.added.length + (addedTexts body).length) := by
  induction body using List.reverseRecOn generalizing s' with
  | nil =>
      cases hrun
      exact ⟨Nat.le_refl _, fun h => absurd (fun before l hat => by simp [AddedAt] at hat) h⟩
  | append_singleton body x ih =>
      have hok : Decodable charNamed body := by
        by_contra hbad
        obtain ⟨path, herror⟩ := scan_body_error hs hbad
        rw [List.map_append, List.foldlM_append, herror] at hrun
        cases hrun
      obtain ⟨s'', hfront, hbehind⟩ := scan_body hs hok
      obtain ⟨hle, hlt⟩ := ih hfront
      rw [foldlM_concat charNamed hfront] at hrun
      rw [addedTexts_concat, List.length_append, noHeader_concat, not_and_or]
      by_cases hkind : ∃ l, x = .added l
      · obtain ⟨l, rfl⟩ := hkind
        have hone : (addedTexts [.added l]).length = 1 := rfl
        by_cases hheader : ReadsAsHeader body l
        · obtain ⟨r, hr, hdash, hplus⟩ := hheader
          rw [scanLine_header charNamed ((startsWith_prev hs hbehind).mpr ⟨r, hr, hdash⟩) hplus] at hrun
          cases htarget : diffHeaderPath charNamed (lit "+" ++ l.text) with
          | error path =>
              rw [htarget] at hrun
              cases hrun
          | ok target =>
              rw [htarget] at hrun
              cases hrun
              dsimp only
              omega
        · have hcontent : ¬ (startsWith s''.prev "--- " = true ∧ startsWith l.text "++ " = true) := by
            rintro ⟨hdash, hplus⟩
            obtain ⟨r, hr, hr'⟩ := (startsWith_prev hs hbehind).mp hdash
            exact hheader ⟨r, hr, hr', hplus⟩
          rw [scanLine_content hcontent] at hrun
          have hlength : s'.added.length ≤ s''.added.length + 1 := by
            rw [← Except.ok.inj hrun]
            dsimp only
            cases s''.current with
            | none => exact Nat.le_succ _
            | some path => exact Nat.le_of_eq List.length_append
          refine ⟨by omega, fun h => ?_⟩
          have := hlt (h.resolve_right fun hno => hno fun l' hl' => by cases hl'; exact hheader)
          omega
      · have hne : ∀ l, x ≠ .added l := fun l hl => hkind ⟨l, hl⟩
        rw [scanLine_rest hne] at hrun
        cases hrun
        rw [addedTexts_rest hne, List.length_nil, Nat.add_zero]
        exact ⟨hle, fun h => hlt (h.resolve_right fun hno => hno fun l hl => absurd hl (hne l))⟩

/-! ## Files -/

/-- A changed file, with the path a listing has for it. -/
structure ChangedFile (quotePath : Bool) where
  diff : FileDiff
  path : PyStr
  named : Named quotePath diff.name path

namespace ChangedFile

variable {quotePath : Bool} (c : ChangedFile quotePath)

/-- The added lines of the file, each under its path. -/
def added : List (PyStr × PyStr) := filedTexts (some c.path) (addedTexts c.diff.body)

/-- The file has a header that names it. -/
def isNamed : Prop := c.diff.body ≠ [] ∧ c.diff.deleted = false

/-- The header can be undone, and no added line reads as another one. -/
def Readable : Prop := (c.isNamed → ¬ Unreadable quotePath c.path) ∧ NoHeader c.diff.body

/-- The path the added lines are read under. -/
def readUnder : Option PyStr := if c.diff.deleted then none else some (shownName quotePath c.path)

variable {c}

lemma addedTexts_of_deleted (hdeleted : c.diff.deleted = true) : addedTexts c.diff.body = [] := by
  refine List.filterMap_eq_nil_iff.mpr fun x hx => ?_
  cases x with
  | added l => exact absurd hx (c.diff.noAdded hdeleted l)
  | _ => rfl

variable (charNamed) (c) in
/-- The lines of a file up to its first hunk. -/
lemma scan_open (s : Scan) (hbody : c.diff.body ≠ []) :
    ((c.diff.deleted = false ∧ Unreadable quotePath c.path) ∧
        ∃ path, (c.diff.lines quotePath).foldlM (scanLine charNamed) s = .error path) ∨
      (¬ (c.diff.deleted = false ∧ Unreadable quotePath c.path) ∧ ∃ s', Scan.AtBody s' c.readUnder ∧ s'.added = s.added ∧
        (c.diff.lines quotePath).foldlM (scanLine charNamed) s
          = (c.diff.body.map BodyLine.render).foldlM (scanLine charNamed) s') := by
  obtain ⟨s', hprev, hadded, hlines⟩ := scan_source charNamed s quotePath hbody
  rw [hlines, List.foldlM_cons]
  cases hdeleted : c.diff.deleted with
  | true =>
      refine Or.inr ⟨fun h => Bool.noConfusion h.1, { s' with current := none, prev := lit "+++ " ++ lit "/dev/null" },
        ⟨by rw [readUnder, hdeleted]; rfl, rfl⟩, hadded, ?_⟩
      have htarget : c.diff.target quotePath = lit "/dev/null" := by
        rw [FileDiff.target, hdeleted]
        rfl
      rw [htarget, scan_target charNamed (by decide) hprev]
      rfl
  | false =>
      obtain ⟨hcr, hdev, herror, hok⟩ := header_named c.named hdeleted
      rw [scan_target charNamed hcr hprev]
      by_cases hunreadable : Unreadable quotePath c.path
      · obtain ⟨path, hpath⟩ := herror hunreadable
        refine Or.inl ⟨⟨rfl, hunreadable⟩, path, ?_⟩
        rw [hpath]
        rfl
      · refine Or.inr ⟨fun h => hunreadable h.2,
          { s' with current := c.readUnder, prev := lit "+++ " ++ c.diff.target quotePath }, ⟨rfl, rfl⟩, hadded, ?_⟩
        rw [hok hunreadable, readUnder, hdeleted]
        show Except.bind (Except.map _ (.ok _)) _ = _
        simp only [Except.map, Except.bind, if_neg hdev]
        rfl

variable (charNamed) in
/-- The scan of a file that can be read. -/
lemma scan_readable (s : Scan) (h : c.Readable) :
    ∃ s', (c.diff.lines quotePath).foldlM (scanLine charNamed) s = .ok s' ∧
      s'.added = s.added ++ filedTexts c.readUnder (addedTexts c.diff.body) := by
  by_cases hbody : c.diff.body = []
  · obtain ⟨prev, hcommand⟩ := scan_command charNamed s c.diff
    refine ⟨{ s with current := none, prev := prev }, ?_, ?_⟩
    · rw [FileDiff.lines, hbody, ← hcommand]
      exact congrArg (fun lines => lines.foldlM (scanLine charNamed) s) (List.append_nil _)
    · rw [hbody]
      cases c.readUnder <;> exact (List.append_nil _).symm
  · rcases scan_open charNamed c s hbody with ⟨⟨hlive, hunreadable⟩, -⟩ | ⟨-, s', hs', hadded, hlines⟩
    · exact absurd hunreadable (h.1 ⟨hbody, hlive⟩)
    · obtain ⟨s'', hrun, -, hfiled⟩ := scan_plain charNamed hs' h.2
      exact ⟨s'', hlines.trans hrun, by rw [hfiled, hadded]⟩

variable (charNamed) in
/-- The scan of any file: no line is read twice, and in a file that cannot be read one is missing. -/
lemma scan_any {s s' : Scan} (hrun : (c.diff.lines quotePath).foldlM (scanLine charNamed) s = .ok s') :
    s'.added.length ≤ s.added.length + (addedTexts c.diff.body).length ∧
      (¬ c.Readable → s'.added.length < s.added.length + (addedTexts c.diff.body).length) := by
  by_cases hreadable : c.Readable
  · obtain ⟨s'', hrun', hadded⟩ := scan_readable charNamed s hreadable
    rw [hrun] at hrun'
    cases hrun'
    rw [hadded, List.length_append]
    refine ⟨Nat.add_le_add_left ?_ _, fun h => absurd hreadable h⟩
    cases c.readUnder with
    | none => exact Nat.zero_le _
    | some path => exact Nat.le_of_eq (List.length_map _)
  · have hbody : c.diff.body ≠ [] := by
      intro hnil
      refine hreadable ⟨fun h => absurd hnil h.1, fun before l hat => ?_⟩
      rw [hnil] at hat
      simp [AddedAt] at hat
    rcases scan_open charNamed c s hbody with ⟨-, path, herror⟩ | ⟨hopen, s'', hs'', hadded, hlines⟩
    · rw [herror] at hrun
      cases hrun
    · rw [hlines] at hrun
      obtain ⟨hle, hlt⟩ := scan_count charNamed hs'' hrun
      rw [hadded] at hle hlt
      refine ⟨hle, fun _ => hlt fun hplain => hreadable ⟨fun hnamed hunreadable => ?_, hplain⟩⟩
      exact hopen ⟨hnamed.2, hunreadable⟩

/-- What is read of a readable file. -/
def read (c : ChangedFile quotePath) : List (PyStr × PyStr) := filedTexts c.readUnder (addedTexts c.diff.body)

lemma length_added : c.added.length = (addedTexts c.diff.body).length := List.length_map _

lemma length_read : c.read.length = c.added.length := by
  rw [length_added, read, readUnder]
  cases hdeleted : c.diff.deleted with
  | true =>
      rw [addedTexts_of_deleted hdeleted]
      rfl
  | false => exact List.length_map _

/-- A readable file whose name has the white space at its end that its header keeps. -/
def Clear (c : ChangedFile quotePath) : Prop :=
  c.Readable ∧ (addedTexts c.diff.body ≠ [] → shownName quotePath c.path = c.path)

lemma read_eq_added_iff : c.read = c.added ↔ (addedTexts c.diff.body ≠ [] → shownName quotePath c.path = c.path) := by
  unfold read added
  cases htexts : addedTexts c.diff.body with
  | nil =>
      refine iff_of_true ?_ fun h => absurd rfl h
      cases c.readUnder <;> rfl
  | cons text rest =>
      have hlive : c.diff.deleted = false := by
        cases hdeleted : c.diff.deleted with
        | false => rfl
        | true =>
            rw [addedTexts_of_deleted hdeleted] at htexts
            cases htexts
      have hunder : c.readUnder = some (shownName quotePath c.path) := by
        rw [readUnder, hlive]
        rfl
      rw [hunder]
      constructor
      · exact fun hsame _ => congrArg Prod.fst (List.cons.inj hsame).1
      · intro hname
        rw [hname (List.cons_ne_nil _ _)]

end ChangedFile

/-! ## The whole text -/

section Whole

variable {quotePath : Bool}

variable (charNamed) in
lemma scan_changes_readable (s : Scan) {changes : List (ChangedFile quotePath)} (h : ∀ c ∈ changes, c.Readable) :
    ∃ s', (changes.flatMap fun c => c.diff.lines quotePath).foldlM (scanLine charNamed) s = .ok s' ∧
      s'.added = s.added ++ changes.flatMap ChangedFile.read := by
  induction changes generalizing s with
  | nil => exact ⟨s, rfl, (List.append_nil _).symm⟩
  | cons c rest ih =>
      obtain ⟨hc, hrest⟩ := List.forall_mem_cons.mp h
      obtain ⟨s', hrun, hadded⟩ := ChangedFile.scan_readable charNamed s hc
      obtain ⟨s'', hrun', hadded'⟩ := ih s' hrest
      refine ⟨s'', ?_, ?_⟩
      · rw [List.flatMap_cons, List.foldlM_append, hrun]
        exact hrun'
      · rw [hadded', hadded, List.append_assoc]
        rfl

variable (charNamed) in
lemma scan_changes_any {s s' : Scan} {changes : List (ChangedFile quotePath)}
    (hrun : (changes.flatMap fun c => c.diff.lines quotePath).foldlM (scanLine charNamed) s = .ok s') :
    s'.added.length ≤ s.added.length + (changes.flatMap ChangedFile.added).length ∧
      ((∃ c ∈ changes, ¬ c.Readable) → s'.added.length < s.added.length + (changes.flatMap ChangedFile.added).length) := by
  induction changes generalizing s with
  | nil =>
      cases hrun
      exact ⟨Nat.le_refl _, fun ⟨c, hc, _⟩ => absurd hc List.not_mem_nil⟩
  | cons c rest ih =>
      rw [List.flatMap_cons, List.foldlM_append] at hrun
      cases hfile : (c.diff.lines quotePath).foldlM (scanLine charNamed) s with
      | error path =>
          rw [hfile] at hrun
          cases hrun
      | ok s'' =>
          rw [hfile] at hrun
          obtain ⟨hle, hlt⟩ := ChangedFile.scan_any charNamed hfile
          obtain ⟨hle', hlt'⟩ := ih hrun
          rw [List.flatMap_cons, List.length_append, ChangedFile.length_added]
          refine ⟨by omega, fun ⟨d, hd, hbad⟩ => ?_⟩
          rcases List.mem_cons.mp hd with rfl | hd
          · have := hlt hbad
            omega
          · have := hlt' ⟨d, hd, hbad⟩
            omega

lemma flatMap_read_eq_iff {changes : List (ChangedFile quotePath)} :
    changes.flatMap ChangedFile.read = changes.flatMap ChangedFile.added ↔ ∀ c ∈ changes, c.read = c.added := by
  induction changes with
  | nil => simp
  | cons c rest ih =>
      rw [List.flatMap_cons, List.flatMap_cons, List.forall_mem_cons, ← ih]
      constructor
      · exact fun hsame => List.append_inj hsame ChangedFile.length_read
      · rintro ⟨hc, hrest⟩
        rw [hc, hrest]

/-- **What is read from the diff text of a change.**  It is exactly the added lines, each with the path of its file,
if and only if no added line `++ …` stands right behind a removed line `-- …`, the header of every file with a hunk
can be undone, and no file with added lines has a name that is printed without quotes and ends in white space. -/
theorem parseAddedLines_exact_iff (changes : List (ChangedFile quotePath)) :
    parseAddedLines charNamed (render quotePath (changes.map ChangedFile.diff)) = .ok (changes.flatMap ChangedFile.added) ↔
      ∀ c ∈ changes, c.Clear := by
  have hparse : parseAddedLines charNamed (render quotePath (changes.map ChangedFile.diff))
      = ((changes.flatMap fun c => c.diff.lines quotePath).foldlM (scanLine charNamed) {}).map Scan.added := by
    rw [parseAddedLines, splitOn_render, List.foldlM_append, List.flatMap_map]
    cases (changes.flatMap fun c => c.diff.lines quotePath).foldlM (scanLine charNamed) {} <;> rfl
  rw [hparse]
  constructor
  · intro hread
    cases hrun : (changes.flatMap fun c => c.diff.lines quotePath).foldlM (scanLine charNamed) {} with
    | error path =>
        rw [hrun] at hread
        cases hread
    | ok s =>
        rw [hrun] at hread
        have hadded : s.added = changes.flatMap ChangedFile.added := Except.ok.inj hread
        obtain ⟨-, hlt⟩ := scan_changes_any charNamed hrun
        have hreadable : ∀ c ∈ changes, c.Readable := by
          by_contra hbad
          push Not at hbad
          have := hlt hbad
          rw [hadded, List.length_nil, Nat.zero_add] at this
          exact Nat.lt_irrefl _ this
        obtain ⟨s', hrun', hadded'⟩ := scan_changes_readable charNamed {} hreadable
        rw [hrun] at hrun'
        cases hrun'
        have hsame := flatMap_read_eq_iff.mp (hadded'.symm.trans hadded)
        exact fun c hc => ⟨hreadable c hc, ChangedFile.read_eq_added_iff.mp (hsame c hc)⟩
  · intro hclear
    obtain ⟨s, hrun, hadded⟩ := scan_changes_readable charNamed {} fun c hc => (hclear c hc).1
    rw [hrun]
    show Except.ok s.added = _
    rw [hadded]
    exact congrArg _ (flatMap_read_eq_iff.mpr fun c hc => ChangedFile.read_eq_added_iff.mpr (hclear c hc).2)

/-- A comment of a database script that another line stands in for. -/
def commentReplaced : ChangedFile true where
  diff := dbScriptDiff [.hunk oneLineHunk, .removed ⟨lit "-- a", false, by decide, by decide⟩,
    .added ⟨lit "++ b", false, by decide, by decide⟩]
  path := lit "db.sql"
  named := .utf8 dbScript

/-- The only added line is taken for the header of a file. -/
theorem commentReplaced_not_read :
    parseAddedLines (fun _ => none) (render true [commentReplaced.diff]) = .ok [] ∧
      commentReplaced.added = [(lit "db.sql", lit "++ b")] := by
  constructor <;> decide

end Whole

end Verify

end Kstrl
