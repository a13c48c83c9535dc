import Kstrl.Base.JsonPrefix

/-!
# TOML documents

`tomllib.loads` on lists of characters: the statements of a document in turn, with the data built so far and the names
that are closed.  How a multi-line string, an inline table, a number, a date or a time reads is a parameter.

* **`basic?_quote`**: what a JSON string literal is as a basic string.
* **`value?_strings`**: a JSON list of strings as an array.
* **`loads_lines`**: a document of one-line statements is read line by line.
-/

namespace Toml

/-! ## Keys and strings -/

def isWs (c : Char) : Bool := c = ' ' || c = '\t'

def skipWs (text : List Char) : List Char := text.dropWhile isWs

/-- A control character other than the tab. -/
def illegal (c : Char) : Bool := (c.toNat < 32 && c ≠ '\t') || c.toNat = 127

/-- The character of a code point; a surrogate is none. -/
def scalar? (n : ℕ) : Option Char := if n.isValidChar then some (Char.ofNat n) else none

def shortEscape? (c : Char) : Option Char :=
  if c = '"' ∨ c = '\\' then some c
  else if c = 'b' then some '\x08'
  else if c = 't' then some '\t'
  else if c = 'n' then some '\n'
  else if c = 'f' then some '\x0c'
  else if c = 'r' then some '\r'
  else none

/-- A basic string behind its opening quote. -/
def basic? : List Char → Option (List Char × List Char)
  | [] => none
  | '"' :: rest => some ([], rest)
  | '\\' :: 'u' :: a :: b :: c :: d :: rest => do
      let char ← scalar? (← Json.unit? a b c d)
      let (cs, rest) ← basic? rest
      some (char :: cs, rest)
  | '\\' :: 'U' :: a :: b :: c :: d :: a' :: b' :: c' :: d' :: rest => do
      let char ← scalar? ((← Json.unit? a b c d) * 65536 + (← Json.unit? a' b' c' d'))
      let (cs, rest) ← basic? rest
      some (char :: cs, rest)
  | '\\' :: c :: rest => do
      let char ← shortEscape? c
      let (cs, rest) ← basic? rest
      some (char :: cs, rest)
  | c :: rest =>
      if illegal c then none
      else do
        let (cs, rest) ← basic? rest
        some (c :: cs, rest)

/-- A literal string behind its opening quote. -/
def literal? : List Char → Option (List Char × List Char)
  | [] => none
  | c :: rest =>
      if c = '\x27' then some ([], rest)
      else if illegal c then none
      else do
        let (cs, rest) ← literal? rest
        some (c :: cs, rest)

def isBare (c : Char) : Bool := c.isAlphanum || c = '-' || c = '_'

/-- One part of a key. -/
def keyPart? : List Char → Option (String × List Char)
  | [] => none
  | c :: rest =>
      if isBare c then some (String.ofList ((c :: rest).takeWhile isBare), (c :: rest).dropWhile isBare)
      else if c = '"' then (basic? rest).map fun p => (String.ofList p.1, p.2)
      else if c = '\x27' then (literal? rest).map fun p => (String.ofList p.1, p.2)
      else none

/-- A key, its parts joined by dots, and what follows it and the white space behind it. -/
def key? : ℕ → List Char → Option (List String × List Char)
  | 0, _ => none
  | fuel + 1, text => do
      let (part, rest) ← keyPart? text
      match skipWs rest with
      | '.' :: rest => do
          let (parts, rest) ← key? fuel (skipWs rest)
          some (part :: parts, rest)
      | rest => some ([part], rest)

/-! ## Values -/

/-- White space, line ends and comments inside an array. -/
def skipComments : Bool → List Char → Option (List Char)
  | _, [] => some []
  | true, c :: rest =>
      if c = '\n' then skipComments false rest
      else if illegal c then none
      else skipComments true rest
  | false, c :: rest =>
      if isWs c || c = '\n' then skipComments false rest
      else if c = '#' then skipComments true rest
      else some (c :: rest)

section Values

variable (other : List Char → Option (Json × List Char))

mutual

/-- A value, and what follows it. -/
def value? : ℕ → List Char → Option (Json × List Char)
  | 0, _ => none
  | fuel + 1, text =>
      match text with
      | '"' :: '"' :: '"' :: _ => other text
      | '"' :: rest => (basic? rest).map fun p => (.str (String.ofList p.1), p.2)
      | '\x27' :: '\x27' :: '\x27' :: _ => other text
      | '\x27' :: rest => (literal? rest).map fun p => (.str (String.ofList p.1), p.2)
      | 't' :: 'r' :: 'u' :: 'e' :: rest => some (.bool true, rest)
      | 'f' :: 'a' :: 'l' :: 's' :: 'e' :: rest => some (.bool false, rest)
      | '[' :: rest => do
          match ← skipComments false rest with
          | ']' :: rest => some (.arr [], rest)
          | rest => do
              let (entries, rest) ← entries? fuel rest
              some (.arr entries, rest)
      | _ => other text

/-- The entries of an array from one of them on, and what follows the array. -/
def entries? : ℕ → List Char → Option (List Json × List Char)
  | 0, _ => none
  | fuel + 1, text => do
      let (entry, rest) ← value? fuel text
      match ← skipComments false rest with
      | ']' :: rest => some ([entry], rest)
      | ',' :: rest => do
          match ← skipComments false rest with
          | ']' :: rest => some ([entry], rest)
          | rest => do
              let (entries, rest) ← entries? fuel rest
              some (entry :: entries, rest)
      | _ => none

end

end Values

/-! ## The data -/

abbrev Fields := List (String × Json)

/-- Change the table under a path, which is made where it is missing; the last table of an array stands for it. -/
def updateNest (f : Fields → Option Fields) : List String → Fields → Option Fields
  | [], fields => f fields
  | k :: path, fields =>
      match fields.lookup k with
      | none => do
          let nested ← updateNest f path []
          some (fields ++ [(k, .obj nested)])
      | some (.obj inner) => do
          let nested ← updateNest f path inner
          some (Json.setField k (.obj nested) fields)
      | some (.arr entries) =>
          match entries.getLast? with
          | some (.obj inner) => do
              let nested ← updateNest f path inner
              some (Json.setField k (.arr (entries.dropLast ++ [.obj nested])) fields)
          | _ => none
      | some _ => none

/-- What has been read: the data, the table that the keys are in, the tables that were named or must not be named any
more, and the values that are closed. -/
structure Out where
  data : Fields
  header : List String
  explicit : List (List String)
  pending : List (List String)
  frozen : List (List String)

def Out.empty : Out := ⟨[], [], [], [], []⟩

/-- A closed value stands under a part of the path. -/
def Out.isFrozen (out : Out) (path : List String) : Bool := out.frozen.any fun closed => closed.isPrefixOf path

def Out.finalizePending (out : Out) : Out :=
  { out with explicit := out.explicit ++ out.pending, pending := [] }

/-- A key under the table that is open. -/
def setValue (key : List String) (value : Json) (out : Out) : Option Out :=
  let parent := out.header ++ key.dropLast
  let stem := key.getLastD ""
  -- the tables that a dotted key goes through
  let through := (key.inits.filter fun start => start ≠ [] ∧ start ≠ key).map (out.header ++ ·)
  if through.any fun path => path ∈ out.explicit then none
  else if out.isFrozen parent then none
  else do
    let data ← updateNest
      (fun nest => if (nest.lookup stem).isSome then none else some (nest ++ [(stem, value)])) parent out.data
    let closed := match value with
      | .arr _ | .obj _ => [out.header ++ key]
      | _ => []
    some { out with data := data, pending := out.pending ++ through, frozen := out.frozen ++ closed }

/-- `[key]` -/
def openTable (key : List String) (out : Out) : Option Out :=
  let out := out.finalizePending
  if key ∈ out.explicit ∨ out.isFrozen key then none
  else do
    let data ← updateNest some key out.data
    some { out with data := data, header := key, explicit := out.explicit ++ [key] }

/-- `[[key]]` -/
def openArray (key : List String) (out : Out) : Option Out :=
  let out := out.finalizePending
  if out.isFrozen key then none
  else do
    let data ← updateNest
      (fun nest => match nest.lookup (key.getLastD "") with
        | none => some (nest ++ [(key.getLastD "", .arr [.obj []])])
        | some (.arr entries) => some (Json.setField (key.getLastD "") (.arr (entries ++ [.obj []])) nest)
        | some _ => none) key.dropLast out.data
    some { out with
      data := data
      header := key
      explicit := (out.explicit.filter fun path => !key.isPrefixOf path) ++ [key]
      frozen := out.frozen.filter fun path => !key.isPrefixOf path }

/-! ## The document -/

section Document

variable (other : List Char → Option (Json × List Char))

/-- One statement, and what follows it. -/
def statement? (out : Out) (text : List Char) : Option (Out × List Char) :=
  let fuel := text.length + 1
  match text with
  | '[' :: '[' :: rest => do
      let (key, rest) ← key? fuel (skipWs rest)
      let out ← openArray key out
      match rest with
      | ']' :: ']' :: rest => some (out, rest)
      | _ => none
  | '[' :: rest => do
      let (key, rest) ← key? fuel (skipWs rest)
      let out ← openTable key out
      match rest with
      | ']' :: rest => some (out, rest)
      | _ => none
  | '#' :: _ => some (out, text)
  | _ => do
      let (key, rest) ← key? fuel text
      match rest with
      | '=' :: rest => do
          let (value, rest) ← value? other fuel (skipWs rest)
          let out ← setValue key value out
          some (out, rest)
      | _ => none

/-- A comment up to the end of its line. -/
def skipComment (text : List Char) : Option (List Char) :=
  match text with
  | '#' :: rest =>
      if (rest.takeWhile (· ≠ '\n')).any illegal then none else some (rest.dropWhile (· ≠ '\n'))
  | _ => some text

/-- The statements of a document. -/
def document? : ℕ → Out → List Char → Option Fields
  | 0, _, _ => none
  | fuel + 1, out, text =>
      match skipWs text with
      | [] => some out.data
      | '\n' :: rest => document? fuel out rest
      | rest => do
          let (out, rest) ← statement? other out rest
          match ← skipComment (skipWs rest) with
          | [] => some out.data
          | '\n' :: rest => document? fuel out rest
          | _ => none

/-- `src.replace("\r\n", "\n")` -/
def joinLineEnds : List Char → List Char
  | '\r' :: '\n' :: rest => '\n' :: joinLineEnds rest
  | c :: rest => c :: joinLineEnds rest
  | [] => []

/-- `tomllib.loads` -/
def loads (text : String) : Option Fields :=
  let src := joinLineEnds text.toList
  document? other (src.length + 1) .empty src

end Document

/-! ## JSON strings as basic strings -/

/-- No character of the text lies beyond the basic plane. -/
def InBasicPlane (s : String) : Prop := ∀ c ∈ s.toList, c.toNat < 0x10000

instance : DecidablePred InBasicPlane := fun s => inferInstanceAs (Decidable (∀ c ∈ s.toList, c.toNat < 0x10000))

lemma scalar?_toNat (c : Char) : scalar? c.toNat = some c := by
  have hvalid : c.toNat.isValidChar := c.valid
  rw [scalar?, if_pos hvalid, Char.ofNat_toNat]

lemma scalar?_surrogate {u : ℕ} (hlo : 0xD800 ≤ u) (hhi : u < 0xE000) : scalar? u = none := by
  refine if_neg fun hvalid => ?_
  rcases hvalid with h | h
  · omega
  · omega

lemma basic?_unitEscape {u : ℕ} (h : u < 0x10000) (rest : List Char) :
    basic? (Json.unitEscape u ++ rest) = (scalar? u).bind fun c => (basic? rest).map fun p => (c :: p.1, p.2) := by
  unfold Json.unitEscape
  simp only [List.cons_append, List.nil_append]
  rw [basic?, Json.unit?_unitEscape h]
  show (scalar? u).bind _ = _
  cases scalar? u with
  | none => rfl
  | some c => cases basic? rest <;> rfl

lemma basic?_short {c d : Char} (hd : shortEscape? d = some c) (hu : d ≠ 'u') (hU : d ≠ 'U') (rest : List Char) :
    basic? ('\\' :: d :: rest) = (basic? rest).map fun p => (c :: p.1, p.2) := by
  rw [basic?.eq_5 _ _ (by rintro _ _ _ _ _ rfl; exact absurd rfl hu)
    (by rintro _ _ _ _ _ _ _ _ _ rfl; exact absurd rfl hU), hd]
  cases basic? rest <;> rfl

lemma basic?_raw {c : Char} (hquote : c ≠ '"') (hslash : c ≠ '\\') (h : illegal c = false) (rest : List Char) :
    basic? (c :: rest) = (basic? rest).map fun p => (c :: p.1, p.2) := by
  rw [basic?.eq_6 _ _ hquote (by rintro _ _ _ _ _ rfl; exact absurd rfl hslash)
    (by rintro _ _ _ _ _ _ _ _ _ rfl; exact absurd rfl hslash) (by rintro _ _ rfl; exact absurd rfl hslash), h]
  cases basic? rest <;> rfl

/-- A JSON escape is the TOML escape of the same character. -/
lemma basic?_escapeChar {c : Char} (h : c.toNat < 0x10000) (rest : List Char) :
    basic? (Json.escapeChar c ++ rest) = (basic? rest).map fun p => (c :: p.1, p.2) := by
  have hshort : ∀ d : Char, shortEscape? d = some c → d ≠ 'u' → d ≠ 'U' →
      basic? (['\\', d] ++ rest) = (basic? rest).map fun p => (c :: p.1, p.2) :=
    fun d hd hu hU => basic?_short hd hu hU rest
  unfold Json.escapeChar
  split_ifs with h1 h2 h3 h4 h5 h6 h7 h8
  · exact hshort '"' (by rw [h1]; rfl) (by decide) (by decide)
  · exact hshort '\\' (by rw [h2]; rfl) (by decide) (by decide)
  · exact hshort 'n' (by rw [h3]; rfl) (by decide) (by decide)
  · exact hshort 'r' (by rw [h4]; rfl) (by decide) (by decide)
  · exact hshort 't' (by rw [h5]; rfl) (by decide) (by decide)
  · exact hshort 'f' (by rw [h6]; rfl) (by decide) (by decide)
  · exact hshort 'b' (by rw [h7]; rfl) (by decide) (by decide)
  · refine basic?_raw h1 h2 ?_ rest
    simp only [illegal, Bool.or_eq_false_iff, Bool.and_eq_false_iff, decide_eq_false_iff_not]
    exact ⟨.inl (by omega), by omega⟩
  · rw [basic?_unitEscape h, scalar?_toNat]
    rfl

/-- **The escape of a character beyond the basic plane is no TOML escape**: it starts with a surrogate. -/
lemma basic?_escapeChar_none {c : Char} (h : ¬ c.toNat < 0x10000) (rest : List Char) :
    basic? (Json.escapeChar c ++ rest) = none := by
  have hmax : c.toNat < 0x110000 := by
    rcases c.valid with hc | hc
    · exact lt_trans hc (by decide)
    · exact hc.2
  have hne : ∀ d : Char, d.toNat < 0x10000 → c ≠ d := by
    rintro d hd rfl
    exact h hd
  unfold Json.escapeChar
  rw [if_neg (hne _ (by decide)), if_neg (hne _ (by decide)), if_neg (hne _ (by decide)), if_neg (hne _ (by decide)),
    if_neg (hne _ (by decide)), if_neg (hne _ (by decide)), if_neg (hne _ (by decide)),
    if_neg (fun hc => h (by omega)), if_neg h, List.append_assoc, basic?_unitEscape (by omega),
    scalar?_surrogate (by omega) (by omega)]
  rfl

/-- **What a JSON string is as a basic string.** -/
theorem basic?_quote (cs rest : List Char) :
    basic? (cs.flatMap Json.escapeChar ++ '"' :: rest) =
      if ∀ c ∈ cs, c.toNat < 0x10000 then some (cs, rest) else none := by
  induction cs with
  | nil => simp [basic?]
  | cons c cs ih =>
      have hcons : (∀ d ∈ c :: cs, d.toNat < 0x10000) ↔ c.toNat < 0x10000 ∧ ∀ d ∈ cs, d.toNat < 0x10000 :=
        List.forall_mem_cons (p := fun d : Char => d.toNat < 0x10000)
      rw [List.flatMap_cons, List.append_assoc]
      by_cases hc : c.toNat < 0x10000
      · rw [basic?_escapeChar hc, ih]
        by_cases hcs : ∀ d ∈ cs, d.toNat < 0x10000
        · rw [if_pos hcs, if_pos (hcons.mpr ⟨hc, hcs⟩)]
          rfl
        · rw [if_neg hcs, if_neg fun hall => hcs (hcons.mp hall).2]
          rfl
      · rw [basic?_escapeChar_none hc, if_neg fun hall => hc (hcons.mp hall).1]

lemma basic?_string (s : String) (rest : List Char) :
    basic? (s.toList.flatMap Json.escapeChar ++ '"' :: rest) =
      if InBasicPlane s then some (s.toList, rest) else none :=
  basic?_quote s.toList rest

open Json.Layout (spaced)

lemma write_str (depth : ℕ) (s : String) :
    spaced.write depth (.str s) = '"' :: (s.toList.flatMap Json.escapeChar ++ ['"']) := by
  rw [Json.Layout.write]
  rfl

lemma keyPart?_quote (s : String) (rest : List Char) :
    keyPart? (spaced.write 0 (.str s) ++ rest) = if InBasicPlane s then some (s, rest) else none := by
  rw [write_str, List.cons_append, List.append_assoc, List.singleton_append, keyPart?, if_neg (by decide),
    if_pos rfl, basic?_string]
  by_cases hs : InBasicPlane s
  · rw [if_pos hs, if_pos hs, Option.map_some, String.ofList_toList]
  · rw [if_neg hs, if_neg hs, Option.map_none]

/-! ## JSON values as TOML values -/

section Values

variable (other : List Char → Option (Json × List Char))

/-- The literal of a string is not the start of a multi-line one. -/
lemma flatMap_escape_head (s : String) {rest : List Char} (h : rest.head? ≠ some '"') (tail : List Char) :
    s.toList.flatMap Json.escapeChar ++ '"' :: rest ≠ '"' :: '"' :: tail := by
  cases hs : s.toList with
  | nil =>
      rintro heq
      cases rest with
      | nil => cases heq
      | cons c rest =>
          obtain ⟨rfl, -⟩ := List.cons.inj (List.cons.inj heq).2
          exact h rfl
  | cons c cs =>
      rw [List.flatMap_cons, List.append_assoc]
      have hfirst : ∃ d ds, Json.escapeChar c = d :: ds ∧ d ≠ '"' := by
        unfold Json.escapeChar
        split_ifs with h1
        all_goals first | exact ⟨_, _, rfl, by decide⟩ | exact ⟨_, _, rfl, h1⟩
      obtain ⟨d, ds, hd, hne⟩ := hfirst
      rw [hd]
      rintro heq
      exact hne (List.cons.inj heq).1

lemma value?_quote (fuel : ℕ) (depth : ℕ) (s : String) {rest : List Char} (h : rest.head? ≠ some '"') :
    value? other (fuel + 1) (spaced.write depth (.str s) ++ rest) =
      if InBasicPlane s then some (.str s, rest) else none := by
  rw [write_str, List.cons_append, List.append_assoc, List.singleton_append,
    value?.eq_3 _ _ _ (flatMap_escape_head s h), basic?_string]
  by_cases hs : InBasicPlane s
  · rw [if_pos hs, if_pos hs, Option.map_some, String.ofList_toList]
  · rw [if_neg hs, if_neg hs, Option.map_none]

lemma skipComments_cons {c : Char} (hc : c ∉ [' ', '\t', '\n', '#']) (rest : List Char) :
    skipComments false (c :: rest) = some (c :: rest) := by
  simp only [List.mem_cons, List.not_mem_nil, or_false, not_or] at hc
  simp [skipComments, isWs, hc]

/-- An array of strings from one of them on. -/
lemma entries?_strings (fuel : ℕ) (s : String) (l : List String) (h : l.length ≤ fuel) (rest : List Char) :
    entries? other (fuel + 2) (spaced.write 1 (.str s) ++ (spaced.writeEntries 1 (l.map .str) ++ ']' :: rest)) =
      if ∀ t ∈ s :: l, InBasicPlane t then some ((s :: l).map .str, rest) else none := by
  induction l generalizing s fuel with
  | nil =>
      rw [List.map_nil, Json.Layout.writeEntries, List.nil_append, entries?,
        value?_quote other fuel 1 s (by simp)]
      by_cases hs : InBasicPlane s
      · rw [if_pos hs, if_pos (by simpa using hs)]
        simp only [Option.bind_eq_bind, Option.bind_some, skipComments_cons (show ']' ∉ _ by decide)]
        rfl
      · rw [if_neg hs, if_neg (by simpa using hs)]
        rfl
  | cons t l ih =>
      obtain ⟨fuel, rfl⟩ := Nat.exists_eq_add_of_le' (Nat.le_trans (Nat.le_add_left 1 l.length) h)
      have hnext := ih fuel t (Nat.le_of_succ_le_succ h)
      rw [List.map_cons, Json.Layout.writeEntries, List.cons_append, List.append_assoc, entries?,
        value?_quote other _ 1 s (by simp)]
      by_cases hs : InBasicPlane s
      · rw [if_pos hs]
        have htext : ∃ tail, spaced.write 1 (.str t) ++ (spaced.writeEntries 1 (l.map .str) ++ ']' :: rest) =
            '"' :: tail := by
          rw [write_str]
          exact ⟨_, rfl⟩
        obtain ⟨tail, htail⟩ := htext
        have hblank : skipComments false (spaced.next 1 ++ '"' :: tail) = some ('"' :: tail) :=
          skipComments_cons (c := '"') (by decide) tail
        rw [htail] at hnext
        simp only [Option.bind_eq_bind, Option.bind_some, skipComments_cons (show ',' ∉ _ by decide),
          List.append_assoc, htail, hblank]
        show ((entries? other (fuel + 2) ('"' :: tail)).bind fun a => some (Json.str s :: a.1, a.2)) = _
        rw [hnext]
        by_cases hrest : ∀ u ∈ t :: l, InBasicPlane u
        · rw [if_pos hrest, if_pos (List.forall_mem_cons.mpr ⟨hs, hrest⟩)]
          rfl
        · rw [if_neg hrest, if_neg fun hall => hrest (List.forall_mem_cons.mp hall).2]
          rfl
      · rw [if_neg hs, if_neg fun hall => hs (hall s List.mem_cons_self)]
        rfl

/-- **A JSON list of strings as an array.** -/
theorem value?_strings (fuel : ℕ) (l : List String) (h : l.length ≤ fuel) (rest : List Char) :
    value? other (fuel + 2) (spaced.write 0 (.arr (l.map .str)) ++ rest) =
      if ∀ s ∈ l, InBasicPlane s then some (.arr (l.map .str), rest) else none := by
  cases l with
  | nil =>
      rw [List.map_nil, Json.Layout.write, if_pos (by simp), List.cons_append, List.cons_append, List.nil_append,
        value?]
      simp only [Option.bind_eq_bind, skipComments_cons (show ']' ∉ _ by decide), Option.bind_some]
  | cons s l =>
      obtain ⟨fuel, rfl⟩ := Nat.exists_eq_add_of_le' (Nat.le_trans (Nat.le_add_left 1 l.length) h)
      have hentries := entries?_strings other fuel s l (Nat.le_of_succ_le_succ h) rest
      have htext : spaced.write 0 (.arr ((s :: l).map .str)) ++ rest =
          '[' :: (spaced.write 1 (.str s) ++ (spaced.writeEntries 1 (l.map .str) ++ ']' :: rest)) := by
        have hfirst : spaced.first 1 = [] := rfl
        have hlast : spaced.last 0 = [] := rfl
        rw [List.map_cons, Json.Layout.write.eq_8, hfirst, hlast]
        simp only [List.nil_append, List.cons_append, List.append_assoc]
      obtain ⟨tail, htail⟩ : ∃ tail, spaced.write 1 (.str s) ++
          (spaced.writeEntries 1 (l.map .str) ++ ']' :: rest) = '"' :: tail := by
        rw [write_str]
        exact ⟨_, rfl⟩
      rw [htail] at hentries
      rw [htext, htail, value?]
      simp only [Option.bind_eq_bind, skipComments_cons (show '"' ∉ _ by decide), Option.bind_some]
      show ((entries? other (fuel + 2) ('"' :: tail)).bind fun a => some (Json.arr a.1, a.2)) = _
      rw [hentries]
      by_cases hall : ∀ u ∈ s :: l, InBasicPlane u
      · rw [if_pos hall, if_pos hall]
        rfl
      · rw [if_neg hall, if_neg hall]
        rfl

lemma length_writeEntries (l : List String) : l.length ≤ (spaced.writeEntries 1 (l.map .str)).length := by
  induction l with
  | nil => exact Nat.le_refl 0
  | cons s l ih =>
      rw [List.map_cons, Json.Layout.writeEntries]
      simp only [List.length_cons, List.length_append]
      omega

lemma length_write_strings (l : List String) : l.length + 2 ≤ (spaced.write 0 (.arr (l.map .str))).length := by
  cases l with
  | nil => decide
  | cons s l =>
      have hl := length_writeEntries l
      have hs : 1 ≤ (spaced.write 1 (.str s)).length := by
        rw [write_str]
        exact Nat.le_add_left ..
      rw [List.map_cons, Json.Layout.write.eq_8, Nat.zero_add]
      simp only [List.length_cons, List.length_append]
      omega

lemma value?_bool (fuel : ℕ) (b : Bool) (rest : List Char) :
    value? other (fuel + 1) (spaced.write 0 (.bool b) ++ rest) = some (.bool b, rest) := by
  cases b <;> rfl

end Values

/-! ## Documents of one-line statements -/

lemma skipWs_cons {c : Char} (h : isWs c = false) (rest : List Char) : skipWs (c :: rest) = c :: rest := by
  simp [skipWs, h]

lemma keyPart?_bare {c : Char} {cs rest : List Char} (hbare : ∀ d ∈ c :: cs, isBare d = true)
    (hrest : ∀ d ∈ rest.head?, isBare d = false) :
    keyPart? (c :: cs ++ rest) = some (String.ofList (c :: cs), rest) := by
  have htake : (c :: cs ++ rest).takeWhile isBare = c :: cs := by
    rw [List.takeWhile_append_of_pos hbare]
    cases rest with
    | nil => simp
    | cons d rest => simp [hrest d rfl]
  have hdrop : (c :: cs ++ rest).dropWhile isBare = rest := by
    rw [List.dropWhile_append_of_pos hbare]
    cases rest with
    | nil => rfl
    | cons d rest => simp [hrest d rfl]
  rw [List.cons_append] at htake hdrop ⊢
  rw [keyPart?, if_pos (hbare c List.mem_cons_self), htake, hdrop]

/-- A key of one part in front of an equals sign. -/
lemma key?_single {text rest : List Char} {name : Option String}
    (h : keyPart? text = name.map fun s => (s, ' ' :: '=' :: rest)) (fuel : ℕ) :
    key? (fuel + 1) text = name.map fun s => ([s], '=' :: rest) := by
  rw [key?, h]
  cases name <;> rfl

section Lines

variable (other : List Char → Option (Json × List Char))

/-- A statement on a line of its own, with what it does. -/
structure Line (text : List Char) (effect : Out → Option Out) : Prop where
  head : ∃ c tail, text = c :: tail ∧ isWs c = false ∧ c ≠ '\n'
  read : ∀ out rest, statement? other out (text ++ '\n' :: rest) = (effect out).map fun out => (out, '\n' :: rest)

variable {other}

lemma document?_line {text : List Char} {effect : Out → Option Out} (h : Line other text effect) (fuel : ℕ) (out : Out)
    (rest : List Char) :
    document? other (fuel + 1) out (text ++ '\n' :: rest) =
      (effect out).bind fun out => document? other fuel out rest := by
  obtain ⟨c, tail, rfl, hws, hne⟩ := h.head
  have hread := h.read out rest
  rw [List.cons_append] at hread ⊢
  rw [document?, skipWs_cons hws]
  split
  · next heq => cases heq
  · next heq => exact absurd (List.cons.inj heq).1 hne
  · rw [hread]
    cases effect out with
    | none => rfl
    | some out => simp [skipWs_cons (show isWs '\n' = false by decide), skipComment]

/-- **A document of one-line statements is read line by line.** -/
theorem document?_lines {lines : List (List Char × (Out → Option Out))} (h : ∀ l ∈ lines, Line other l.1 l.2)
    (fuel : ℕ) (out : Out) :
    document? other (lines.length + fuel + 1) out (lines.flatMap fun l => l.1 ++ ['\n']) =
      (lines.foldlM (fun out (l : List Char × (Out → Option Out)) => l.2 out) out).map Out.data := by
  induction lines generalizing out with
  | nil => rfl
  | cons l lines ih =>
      obtain ⟨hl, hlines⟩ := List.forall_mem_cons.mp h
      rw [List.flatMap_cons, List.append_assoc, List.singleton_append, List.length_cons,
        show lines.length + 1 + fuel + 1 = (lines.length + fuel + 1) + 1 by omega, document?_line hl,
        List.foldlM_cons]
      cases heffect : l.2 out with
      | none => rfl
      | some out => exact ih hlines out

/-- `key = value` -/
lemma line_assign {key text : List Char} {name : Option String} {value : Option Json}
    (hhead : ∃ c tail, key = c :: tail ∧ isWs c = false ∧ c ∉ ['\n', '[', '#'])
    (hkey : ∀ rest, keyPart? (key ++ ' ' :: rest) = name.map fun s => (s, ' ' :: rest))
    (hfirst : ∃ c tail, text = c :: tail ∧ isWs c = false)
    (hvalue : ∀ fuel rest, text.length ≤ fuel →
      value? other fuel (text ++ '\n' :: rest) = value.map fun v => (v, '\n' :: rest)) :
    Line other (key ++ [' ', '=', ' '] ++ text) fun out =>
      name.bind fun s => value.bind fun v => setValue [s] v out := by
  obtain ⟨c, tail, rfl, hws, hne⟩ := hhead
  obtain ⟨d, dtail, rfl, hdws⟩ := hfirst
  simp only [List.mem_cons, List.not_mem_nil, or_false, not_or] at hne
  refine ⟨⟨c, _, rfl, hws, hne.1⟩, fun out rest => ?_⟩
  have htext : c :: tail ++ [' ', '=', ' '] ++ d :: dtail ++ '\n' :: rest =
      c :: tail ++ ' ' :: '=' :: ' ' :: (d :: dtail ++ '\n' :: rest) := by simp
  have hlength : (d :: dtail).length ≤ (c :: tail ++ ' ' :: '=' :: ' ' :: (d :: dtail ++ '\n' :: rest)).length + 1 := by
    simp only [List.length_append, List.length_cons]
    omega
  have hread := hvalue _ rest hlength
  have hname := hkey ('=' :: ' ' :: (d :: dtail ++ '\n' :: rest))
  rw [htext]
  simp only [List.cons_append] at hread hname ⊢
  unfold statement?
  split
  · next heq => exact absurd (List.cons.inj heq).1 hne.2.1
  · next heq => exact absurd (List.cons.inj heq).1 hne.2.1
  · next heq => exact absurd (List.cons.inj heq).1 hne.2.2
  · dsimp only
    rw [key?_single hname]
    cases name with
    | none => rfl
    | some s =>
        have hblank : skipWs (' ' :: d :: (dtail ++ '\n' :: rest)) = d :: (dtail ++ '\n' :: rest) :=
          skipWs_cons hdws _
        simp only [Option.bind_eq_bind, Option.bind_some, Option.map_some, hblank, hread]
        cases value with
        | none => rfl
        | some v =>
            simp only [Option.map_some, Option.bind_some]
            cases setValue [s] v out <;> rfl

/-- `[key]` -/
lemma line_table {parts : List String} {text : List Char}
    (hkey : ∀ fuel rest, text.length ≤ fuel → key? fuel (text ++ ']' :: rest) = some (parts, ']' :: rest))
    (hfirst : ∃ c tail, text = c :: tail ∧ isWs c = false ∧ c ≠ '[') :
    Line other ('[' :: text ++ [']']) (openTable parts) := by
  obtain ⟨c, tail, rfl, hws, hne⟩ := hfirst
  refine ⟨⟨'[', _, rfl, by decide, by decide⟩, fun out rest => ?_⟩
  have htext : '[' :: (c :: tail) ++ [']'] ++ '\n' :: rest = '[' :: (c :: tail ++ ']' :: '\n' :: rest) := by simp
  have hread := hkey (('[' :: (c :: tail ++ ']' :: '\n' :: rest)).length + 1) ('\n' :: rest) (by simp; omega)
  rw [htext]
  simp only [List.cons_append] at hread ⊢
  unfold statement?
  split
  · next heq => exact absurd (List.cons.inj (List.cons.inj heq).2).1 hne
  · next heq =>
      obtain ⟨-, rfl⟩ := List.cons.inj heq
      dsimp only
      rw [skipWs_cons hws, hread]
      simp only [Option.bind_eq_bind, Option.bind_some]
      cases openTable parts out <;> rfl
  · next heq => cases heq
  · next hno _ => exact absurd rfl (hno _)

end Lines

lemma joinLineEnds_eq {text : List Char} (h : '\r' ∉ text) : joinLineEnds text = text := by
  induction text with
  | nil => rfl
  | cons c text ih =>
      obtain ⟨hc, htext⟩ := not_or.mp (mt List.mem_cons.mpr h)
      rw [joinLineEnds.eq_2 _ _ (by rintro _ rfl; exact absurd rfl hc), ih htext]

/-- **A text of one-line statements.** -/
theorem loads_lines {other : List Char → Option (Json × List Char)} {lines : List (List Char × (Out → Option Out))}
    (h : ∀ l ∈ lines, Line other l.1 l.2) (hends : ∀ l ∈ lines, '\r' ∉ l.1) :
    loads other (String.ofList (lines.flatMap fun l => l.1 ++ ['\n'])) =
      (lines.foldlM (fun out (l : List Char × (Out → Option Out)) => l.2 out) .empty).map Out.data := by
  have hall : '\r' ∉ lines.flatMap fun l => l.1 ++ ['\n'] := by
    rw [List.mem_flatMap]
    rintro ⟨l, hl, hmem⟩
    rcases List.mem_append.mp hmem with hmem | hmem
    · exact hends l hl hmem
    · simp at hmem
  have hlength : lines.length ≤ (lines.flatMap fun l => l.1 ++ ['\n']).length := by
    clear h hends hall
    induction lines with
    | nil => exact Nat.le_refl 0
    | cons l lines ih =>
        rw [List.flatMap_cons, List.length_append, List.length_append, List.length_cons, List.length_singleton]
        omega
  obtain ⟨fuel, hfuel⟩ := Nat.exists_eq_add_of_le hlength
  unfold loads
  rw [String.toList_ofList, joinLineEnds_eq hall]
  dsimp only
  rw [hfuel]
  exact document?_lines h fuel .empty

end Toml
