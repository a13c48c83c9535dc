import Kstrl.Base.JsonScan
import Kstrl.Base.PyStrip

/-!
# The object of a reply

What `extract_json` of `kstrl/agents/agent_output.py` takes from what an agent said.

The whole text is read first, then what stands in code fences, and at last what the first brace opens.  The brace
that closes it is found by counting, and a brace in a string counts as well.

* **`extractJson_fenced`**: an object in a code fence is found, whatever it holds.
* **`extractJson_finds_iff`**: which objects are found with and without one.
-/

namespace Kstrl.Agents

open Json
open PyText (isSpace stripped trimEnd stripped_append dropWhile_append_stop dropWhile_eq_nil_of_blank
  trimEnd_eq_nil_iff isSpace_getLast_trimEnd isSpace_head_dropWhile trimEnd_prefix)

/-! ## The extraction -/

def readJson (text : List Char) : Option Json := loads (String.ofList text)

def fence : List Char := "```".toList

/-- What ends the body of a fence. -/
def fenceEnd : List Char := "\n```".toList

/-- `(.*?)\n` and three backquotes: the shortest body, and what is behind its end. -/
def bodyUntilEnd : List Char → Option (List Char × List Char)
  | [] => none
  | c :: rest =>
      if fenceEnd.isPrefixOf (c :: rest) then some ([], (c :: rest).drop fenceEnd.length)
      else (bodyUntilEnd rest).map fun p => (c :: p.1, p.2)

/-- `\s*\n` and a body: the white space reaches as far as it can. -/
def bodyBehind (text : List Char) : Option (List Char × List Char) :=
  (List.range (text.takeWhile isSpace).length).reverse.findSome? fun k =>
    if text[k]? = some '\n' then bodyUntilEnd (text.drop (k + 1)) else none

/-- The fence that opens at the start of a text. -/
def fenceAt (text : List Char) : Option (List Char × List Char) :=
  if fence.isPrefixOf text then
    let behind := text.drop fence.length
    let tagged := if "json".toList.isPrefixOf behind then bodyBehind (behind.drop "json".toList.length) else none
    tagged.or (bodyBehind behind)
  else none

/-- `re.findall` of the fences; the number bounds how far the text is read. -/
def fencedFrom : ℕ → List Char → List (List Char)
  | 0, _ => []
  | _ + 1, [] => []
  | n + 1, c :: rest =>
      match fenceAt (c :: rest) with
      | some (body, behind) => body :: fencedFrom n behind
      | none => fencedFrom n rest

def fenced (text : List Char) : List (List Char) := fencedFrom text.length text

/-- How many characters it takes to close as many braces as were opened. -/
def closing : ℕ → List Char → Option ℕ
  | _, [] => none
  | depth, c :: rest =>
      if c = '\x7b' then (closing (depth + 1) rest).map (· + 1)
      else if c = '\x7d' then
        if depth - 1 = 0 then some 1 else (closing (depth - 1) rest).map (· + 1)
      else (closing depth rest).map (· + 1)

/-- What the first brace opens. -/
def braced (text : List Char) : Option Json :=
  let opened := text.dropWhile (· ≠ '\x7b')
  (closing 0 opened).bind fun n => readJson (opened.take n)

/-- `extract_json`, `none` where it raises. -/
def extractJson (text : List Char) : Option Json :=
  let text := stripped text
  (readJson text).or (((fenced text).findSome? fun body => readJson (stripped body)).or (braced text))

/-! ## Replies -/

/-- The text of an object. -/
structure ObjectText where
  text : List Char
  fields : List (String × Json)
  opens : text.head? = some '\x7b'
  closes : text.getLast? = some '\x7d'
  reads : readJson text = some (.obj fields)

/-- What stands around the object: no brace and no code fence. -/
structure IsProse (text : List Char) : Prop where
  noOpen : '\x7b' ∉ text
  noClose : '\x7d' ∉ text
  noFence : ¬ fence <:+: text

/-- The object in a code fence of its own. -/
def inFence (object : List Char) : List Char :=
  fence ++ ("json".toList ++ '\n' :: (object ++ fenceEnd))

/-- The condition on an object and the prose around it, where it has no fence: there is nothing but white space
    around it, or the whole is no document and the braces of the object, those in its strings too, close at its
    end. -/
def Findable (before : List Char) (object : ObjectText) (after : List Char) : Prop :=
  ((∀ c ∈ before, isSpace c = true) ∧ ∀ c ∈ after, isSpace c = true) ∨
    readJson (stripped (before ++ (object.text ++ after))) = none ∧
      closing 0 object.text = some object.text.length

/-! ## Fences -/

lemma scan_fenceEnd (place : Place) (text : List Char) : scan place (fenceEnd ++ text) = none := by
  cases place <;> rfl

lemma scan_fenceStart (place : Place) (text : List Char) :
    scan place ((fence ++ ("json".toList ++ ['\n'])) ++ text) = none := by
  cases place <;> rfl

lemma not_mem_of_scan {word text : List Char} (hword : ∀ place text, scan place (word ++ text) = none)
    (h : scan .between text = some .between) : ¬ word <:+: text := by
  rintro ⟨u, v, rfl⟩
  rw [List.append_assoc, scan_append] at h
  cases hu : scan .between u with
  | none => rw [hu] at h; cases h
  | some place =>
      rw [hu, Option.bind_some, hword] at h
      cases h

/-- **No object holds the end of a fence**, whatever its strings hold. -/
lemma ObjectText.no_fenceEnd (object : ObjectText) : ¬ fenceEnd <:+: object.text :=
  not_mem_of_scan scan_fenceEnd (loads_scan object.reads)

lemma bodyUntilEnd_eq_none {text : List Char} (h : ¬ fenceEnd <:+: text) : bodyUntilEnd text = none := by
  induction text with
  | nil => rfl
  | cons c text ih =>
      have hfront : ¬ fenceEnd.isPrefixOf (c :: text) = true := fun hp =>
        h (List.isPrefixOf_iff_prefix.mp hp).isInfix
      rw [bodyUntilEnd, if_neg hfront, ih fun hin => h (hin.trans (List.suffix_cons c text).isInfix)]
      rfl

/-- The shortest body ends where the object does. -/
lemma bodyUntilEnd_append {body : List Char} (hbody : ¬ fenceEnd <:+: body) (hlast : ∀ c ∈ body.getLast?, c ∉ fenceEnd)
    (rest : List Char) : bodyUntilEnd (body ++ (fenceEnd ++ rest)) = some (body, rest) := by
  induction body with
  | nil => rfl
  | cons c body ih =>
      have hlater : ¬ fenceEnd <:+: body := fun hin => hbody (hin.trans (List.suffix_cons c body).isInfix)
      have hlast' : ∀ d ∈ body.getLast?, d ∉ fenceEnd := fun d hd => by
        cases body with
        | nil => cases hd
        | cons e body => exact hlast d (by rwa [List.getLast?_cons_cons])
      have hfront : ¬ fenceEnd.isPrefixOf (c :: (body ++ (fenceEnd ++ rest))) = true := by
        rw [List.isPrefixOf_iff_prefix]
        intro hp
        rcases List.prefix_or_prefix_of_prefix hp (List.prefix_append (c :: body) (fenceEnd ++ rest)) with hin | hin
        · exact hbody hin.isInfix
        · exact hlast _ (List.getLast?_eq_some_getLast (List.cons_ne_nil c body))
            (hin.subset (List.getLast_mem (List.cons_ne_nil c body)))
      rw [List.cons_append, bodyUntilEnd, if_neg hfront, ih hlater hlast']
      rfl

lemma bodyBehind_eq_none {text : List Char} (h : ¬ fenceEnd <:+: text) : bodyBehind text = none := by
  rw [bodyBehind, List.findSome?_eq_none_iff]
  intro k _
  split_ifs
  · exact bodyUntilEnd_eq_none fun hin => h (hin.trans (List.drop_suffix _ _).isInfix)
  · rfl

lemma fenceAt_eq_none {text : List Char} (h : ¬ fenceEnd <:+: text) : fenceAt text = none := by
  have hdrop : ∀ k, ¬ fenceEnd <:+: text.drop k := fun k hin => h (hin.trans (List.drop_suffix _ _).isInfix)
  unfold fenceAt
  simp only [List.drop_drop, bodyBehind_eq_none (hdrop _)]
  split_ifs <;> rfl

/-- A text without the end of a fence has none. -/
lemma fencedFrom_eq_nil (n : ℕ) {text : List Char} (h : ¬ fenceEnd <:+: text) : fencedFrom n text = [] := by
  induction n generalizing text with
  | zero => rfl
  | succ n ih =>
      cases text with
      | nil => rfl
      | cons c text =>
          rw [fencedFrom, fenceAt_eq_none h]
          exact ih fun hin => h (hin.trans (List.suffix_cons c text).isInfix)

namespace ObjectText

variable (object : ObjectText)

lemma ne_nil : object.text ≠ [] := by
  intro h
  have hopen := object.opens
  rw [h] at hopen
  cases hopen

lemma not_isSpace_head : ∀ c ∈ object.text.head?, isSpace c = false := by
  rw [object.opens]
  rintro c ⟨⟩
  decide

lemma not_isSpace_last : ∀ c ∈ object.text.getLast?, isSpace c = false := by
  rw [object.closes]
  rintro c ⟨⟩
  decide

/-- The body of its fence is the object. -/
lemma fenceAt_inFence (after : List Char) :
    fenceAt (inFence object.text ++ after) = some (object.text, after) := by
  have hlast : ∀ c ∈ object.text.getLast?, c ∉ fenceEnd := by
    rw [object.closes]
    rintro c ⟨⟩
    decide
  have hbody := bodyUntilEnd_append object.no_fenceEnd hlast after
  have hspace : ('\n' :: (object.text ++ (fenceEnd ++ after))).takeWhile isSpace = ['\n'] := by
    cases htext : object.text with
    | nil => exact absurd htext object.ne_nil
    | cons c text =>
        have hc : isSpace c = false := object.not_isSpace_head c (by rw [htext]; rfl)
        rw [List.takeWhile_cons_of_pos (by decide), List.cons_append, List.takeWhile_cons_of_neg (by rw [hc]; decide)]
  have hbehind : bodyBehind ('\n' :: (object.text ++ (fenceEnd ++ after))) = some (object.text, after) := by
    have hrange : (List.range ['\n'].length).reverse = [0] := rfl
    rw [bodyBehind, hspace, hrange, List.findSome?_cons]
    simp only [List.getElem?_cons_zero, if_true, List.drop_succ_cons, List.drop_zero, hbody]
  have htext : inFence object.text ++ after =
      fence ++ ("json".toList ++ ('\n' :: (object.text ++ (fenceEnd ++ after)))) := by
    simp only [inFence, List.append_assoc, List.cons_append]
  have hopens : ∀ word text : List Char, word.isPrefixOf (word ++ text) = true := fun word text =>
    List.isPrefixOf_iff_prefix.mpr (List.prefix_append _ _)
  rw [htext, fenceAt]
  simp only [hopens, if_true, List.drop_left, hbehind, Option.some_or]

end ObjectText

lemma bodyBehind_backquote (text : List Char) : bodyBehind ('`' :: text) = none := by
  rw [bodyBehind, List.takeWhile_cons_of_neg (by decide)]
  rfl

/-- Backquotes at the end of the prose do not open the fence earlier. -/
lemma fenceAt_before {c : Char} {before : List Char} (h : ¬ fence <:+: c :: before) (text after : List Char) :
    fenceAt (c :: (before ++ (inFence text ++ after))) = none := by
  by_cases hopen : fence.isPrefixOf (c :: (before ++ (inFence text ++ after))) = true
  · have hshort : c :: before <+: fence :=
      (List.prefix_or_prefix_of_prefix (List.isPrefixOf_iff_prefix.mp hopen)
        (List.prefix_append (c :: before) (inFence text ++ after))).resolve_left fun hin => h hin.isInfix
    have hne : c :: before ≠ fence := fun heq => h (heq ▸ List.infix_rfl)
    have hcases : ∀ start ∈ fence.inits, start ≠ fence → start ≠ [] → start = ['`'] ∨ start = ['`', '`'] := by decide
    -- one or two backquotes before the fence leave a third one behind the first three
    rcases hcases _ ((List.mem_inits _ _).mpr hshort) hne (List.cons_ne_nil _ _) with hstart | hstart
    · obtain ⟨rfl, rfl⟩ := List.cons_eq_cons.mp hstart
      rw [fenceAt, if_pos hopen]
      exact bodyBehind_backquote _
    · obtain ⟨rfl, rfl⟩ := List.cons_eq_cons.mp hstart
      rw [fenceAt, if_pos hopen]
      exact bodyBehind_backquote _
  · rw [fenceAt, if_neg hopen]

/-- A fence does not open inside the prose before it. -/
lemma fencedFrom_inFence (object : ObjectText) {before : List Char} (hbefore : ¬ fence <:+: before) (after : List Char)
    {n : ℕ} (hn : before.length < n) :
    ∃ more, fencedFrom n (before ++ (inFence object.text ++ after)) = object.text :: more := by
  induction before generalizing n with
  | nil =>
      obtain ⟨n, rfl⟩ : ∃ k, n = k + 1 := ⟨n - 1, by simp at hn; omega⟩
      have hcons : ∃ c text, inFence object.text ++ after = c :: text := ⟨_, _, rfl⟩
      obtain ⟨c, text, hcons⟩ := hcons
      have hat := object.fenceAt_inFence after
      refine ⟨fencedFrom n after, ?_⟩
      rw [List.nil_append, hcons, fencedFrom, ← hcons, hat]
  | cons c before ih =>
      obtain ⟨n, rfl⟩ : ∃ k, n = k + 1 := ⟨n - 1, by simp at hn; omega⟩
      have hlater : ¬ fence <:+: before := fun hin => hbefore (hin.trans (List.suffix_cons c before).isInfix)
      rw [List.cons_append, fencedFrom, fenceAt_before hbefore]
      exact ih hlater (by simpa using hn)

/-- A text within a text around a character that the word does not have. -/
lemma infix_append_cons {word a b : List Char} {c : Char} (hc : c ∉ word) (h : word <:+: a ++ c :: b) :
    word <:+: a ∨ word <:+: b := by
  obtain ⟨s, t, hst⟩ := h
  rw [List.append_assoc] at hst
  rcases List.append_eq_append_iff.mp hst with ⟨d, rfl, hd⟩ | ⟨d, hs, hd⟩
  · rcases List.append_eq_append_iff.mp hd with ⟨e, rfl, -⟩ | ⟨e, hword, he⟩
    · exact Or.inl ⟨s, e, by rw [List.append_assoc]⟩
    · cases e with
      | nil => exact Or.inl ⟨s, [], by rw [hword, List.append_nil, List.append_nil]⟩
      | cons f e =>
          obtain ⟨rfl, -⟩ := List.cons_eq_cons.mp he
          exact absurd (by rw [hword]; simp) hc
  · cases d with
    | nil =>
        cases word with
        | nil => exact Or.inl (List.nil_infix)
        | cons f word =>
            obtain ⟨rfl, -⟩ := List.cons_eq_cons.mp hd
            exact absurd List.mem_cons_self hc
    | cons f d => exact Or.inr ⟨d, t, by rw [List.append_assoc]; exact (List.cons_eq_cons.mp hd).2.symm⟩

/-- What stands around an object without a fence holds no end of one. -/
lemma no_fenceEnd_around (object : ObjectText) {before after : List Char} (hbefore : ¬ fence <:+: before)
    (hafter : ¬ fence <:+: after) : ¬ fenceEnd <:+: before ++ (object.text ++ after) := by
  have hfence : fence <:+: fenceEnd := ⟨['\n'], [], rfl⟩
  obtain ⟨rest, hrest⟩ : ∃ rest, object.text = '\x7b' :: rest := by
    have hopens := object.opens
    cases htext : object.text with
    | nil => exact absurd htext object.ne_nil
    | cons c rest =>
        rw [htext] at hopens
        exact ⟨rest, by rw [Option.some.inj hopens]⟩
  obtain ⟨middle, hmiddle⟩ : ∃ middle, object.text = middle ++ ['\x7d'] :=
    ⟨_, (List.dropLast_append_getLast? _ object.closes).symm⟩
  intro h
  rw [hrest, List.cons_append] at h
  rcases infix_append_cons (by decide) h with hin | hin
  · exact hbefore (hfence.trans hin)
  · have hin' : fenceEnd <:+: middle ++ '\x7d' :: after := by
      have htext : object.text ++ after = middle ++ '\x7d' :: after := by
        rw [hmiddle, List.append_assoc, List.singleton_append]
      rw [← htext, hrest, List.cons_append]
      exact hin.trans (List.suffix_cons _ _).isInfix
    rcases infix_append_cons (by decide) hin' with hin' | hin'
    · exact object.no_fenceEnd (hin'.trans (hmiddle ▸ (List.prefix_append middle _).isInfix))
    · exact hafter (hfence.trans hin')

/-! ## Braces -/

lemma closing_append {depth n : ℕ} {a : List Char} (h : closing depth a = some n) (b : List Char) :
    closing depth (a ++ b) = some n := by
  induction a generalizing depth n with
  | nil => cases h
  | cons c a ih =>
      rw [closing] at h
      rw [List.cons_append, closing]
      split_ifs at h ⊢ with hopen hclose hzero
      · obtain ⟨m, hm, rfl⟩ := Option.map_eq_some_iff.mp h
        rw [ih hm, Option.map_some]
      · exact h
      · obtain ⟨m, hm, rfl⟩ := Option.map_eq_some_iff.mp h
        rw [ih hm, Option.map_some]
      · obtain ⟨m, hm, rfl⟩ := Option.map_eq_some_iff.mp h
        rw [ih hm, Option.map_some]

/-- Nothing closes in a text without braces. -/
lemma closing_append_none {depth : ℕ} {a b : List Char} (h : closing depth a = none) (hopen : '\x7b' ∉ b)
    (hclose : '\x7d' ∉ b) : closing depth (a ++ b) = none := by
  induction a generalizing depth with
  | nil =>
      induction b with
      | nil => rfl
      | cons c b ih =>
          rw [List.mem_cons, not_or] at hopen hclose
          rw [List.nil_append, closing, if_neg (Ne.symm hopen.1), if_neg (Ne.symm hclose.1), ← List.nil_append b,
            ih hopen.2 hclose.2]
          rfl
  | cons c a ih =>
      rw [closing] at h
      rw [List.cons_append, closing]
      split_ifs at h ⊢ with hc hc' hzero
      · rw [ih (Option.map_eq_none_iff.mp h), Option.map_none]
      · rw [ih (Option.map_eq_none_iff.mp h), Option.map_none]
      · rw [ih (Option.map_eq_none_iff.mp h), Option.map_none]

lemma closing_le {depth n : ℕ} {a : List Char} (h : closing depth a = some n) : n ≤ a.length := by
  induction a generalizing depth n with
  | nil => cases h
  | cons c a ih =>
      rw [closing] at h
      rw [List.length_cons]
      split_ifs at h with hopen hclose hzero
      · obtain ⟨m, hm, rfl⟩ := Option.map_eq_some_iff.mp h
        exact Nat.succ_le_succ (ih hm)
      · cases h
        omega
      · obtain ⟨m, hm, rfl⟩ := Option.map_eq_some_iff.mp h
        exact Nat.succ_le_succ (ih hm)
      · obtain ⟨m, hm, rfl⟩ := Option.map_eq_some_iff.mp h
        exact Nat.succ_le_succ (ih hm)

/-- **What the first brace opens** is the object where the braces close at its end, and no document elsewhere. -/
lemma braced_eq (object : ObjectText) {before after : List Char} (hbefore : '\x7b' ∉ before) (hopen : '\x7b' ∉ after)
    (hclose : '\x7d' ∉ after) :
    braced (before ++ (object.text ++ after)) =
      if closing 0 object.text = some object.text.length then some (.obj object.fields) else none := by
  have hskip : (before ++ (object.text ++ after)).dropWhile (fun c => decide (c ≠ '\x7b')) = object.text ++ after := by
    have hhead : ∀ c ∈ (object.text ++ after).head?, decide (c ≠ '\x7b') = false := by
      rw [List.head?_append_of_ne_nil _ object.ne_nil, object.opens]
      rintro c ⟨⟩
      decide
    have hall : ∀ c ∈ before, decide (c ≠ '\x7b') = true := fun c hc => decide_eq_true fun heq => hbefore (heq ▸ hc)
    rw [dropWhile_append_stop hhead, List.dropWhile_eq_nil_iff.mpr hall, List.nil_append]
  rw [braced]
  simp only [hskip]
  cases hcount : closing 0 object.text with
  | none => rw [closing_append_none hcount hopen hclose, Option.bind_none, if_neg nofun]
  | some n =>
      rw [closing_append hcount, Option.bind_some, List.take_append_of_le_length (closing_le hcount)]
      by_cases hwhole : n = object.text.length
      · rw [hwhole, List.take_length, if_pos rfl]
        exact object.reads
      · have hlt : n < object.text.length := lt_of_le_of_ne (closing_le hcount) hwhole
        have hdrop : object.text.drop n ≠ [] := by
          rw [ne_eq, List.drop_eq_nil_iff]
          omega
        rw [if_neg fun h => hwhole (Option.some.inj h)]
        refine loads_torn object.reads object.opens (List.take_append_drop n _).symm ?_ hdrop
        rw [← List.getLast?_append_of_ne_nil (object.text.take n) hdrop, List.take_append_drop, object.closes]
        rintro c ⟨⟩
        decide

/-! ## The whole text -/

/-- What reads as an object starts with a brace. -/
lemma value?_obj {n : ℕ} {text rest : List Char} {fields : List (String × Json)}
    (h : value? n text = some (.obj fields, rest)) : ∃ tail, skipBlank text = '\x7b' :: tail := by
  cases n with
  | zero => cases h
  | succ n =>
      rw [value?] at h
      cases hskip : skipBlank text with
      | nil => rw [hskip] at h; cases h
      | cons c tail =>
          rw [hskip] at h
          simp only at h
          by_cases hbrace : c = '\x7b'
          · exact ⟨tail, by rw [hbrace]⟩
          exfalso
          by_cases hquote : c = '"'
          · rw [if_pos hquote, Option.map_eq_some_iff] at h
            obtain ⟨_, _, hsome⟩ := h
            cases hsome
          rw [if_neg hquote] at h
          by_cases hopen : c = '['
          · rw [if_pos hopen] at h
            cases hskip' : skipBlank tail with
            | nil => rw [hskip'] at h; cases h
            | cons d tail' =>
                rw [hskip'] at h
                simp only at h
                split_ifs at h
                · cases h
                · simp only [Option.bind_eq_bind, Option.bind_eq_some_iff] at h
                  obtain ⟨_, _, _, _, hsome⟩ := h
                  cases hsome
          rw [if_neg hopen, if_neg hbrace] at h
          unfold atom? at h
          split at h
          · next word hfind =>
              have hword : ∀ word ∈ literals, ∀ fields, word.2 ≠ .obj fields := by
                simp [literals]
              exact hword word (List.mem_of_find?_eq_some hfind) fields (Prod.mk.inj (Option.some.inj h)).1
          · obtain ⟨w, hnumber, hsome⟩ := Option.map_eq_some_iff.mp h
            have hw : w = .obj fields := (Prod.mk.inj hsome).1
            have hisNumber := number?_isNumber hnumber
            rw [hw] at hisNumber
            cases hisNumber

/-- Where the whole text is the object, nothing is around it. -/
lemma nil_of_readJson (object : ObjectText) {before after : List Char} {fields : List (String × Json)}
    (hbefore : '\x7b' ∉ before) (hhead : ∀ c ∈ before.head?, isSpace c = false)
    (hlast : ∀ c ∈ after.getLast?, isSpace c = false)
    (h : readJson (before ++ (object.text ++ after)) = some (.obj fields)) : before = [] ∧ after = [] := by
  have hspace : ∀ c, isBlank c = true → isSpace c = true := fun c hc => by
    have hall : ∀ c ∈ [' ', '\t', '\n', '\r'], isSpace c = true := by decide
    exact hall c (by simpa [isBlank] using hc)
  obtain ⟨rest, hvalue, hrest⟩ := loads_eq_some h
  obtain ⟨tail, htail⟩ := value?_obj hvalue
  have hnil : before = [] := by
    cases before with
    | nil => rfl
    | cons c before =>
        have hc : isBlank c = false := by
          rw [← Bool.not_eq_true]
          intro hblank
          have hsolid := hhead c rfl
          rw [hspace c hblank] at hsolid
          cases hsolid
        rw [List.cons_append, skipBlank_cons hc] at htail
        exact absurd (by rw [(List.cons_eq_cons.mp htail).1]; exact List.mem_cons_self) hbefore
  refine ⟨hnil, ?_⟩
  subst hnil
  obtain ⟨rest', hvalue', -⟩ := loads_eq_some object.reads
  have hlong := (extends_all _ after).value hvalue' (Or.inr rfl) (([] ++ (object.text ++ after)).length + 1)
    (by rw [List.nil_append, List.length_append]; omega)
  rw [List.nil_append] at hvalue hlong
  rw [hvalue] at hlong
  have hends : rest = rest' ++ after := (Prod.mk.inj (Option.some.inj hlong)).2
  have hblank := List.dropWhile_eq_nil_iff.mp (hends ▸ hrest)
  by_contra hne
  have hsolid := hlast _ (List.getLast?_eq_some_getLast hne)
  rw [hspace _ (hblank _ (List.mem_append_right _ (List.getLast_mem hne)))] at hsolid
  cases hsolid

section

variable (object : ObjectText) {before after : List Char}

lemma stripped_object : stripped object.text = object.text := by
  have h := @stripped_append [] object.text [] object.not_isSpace_head object.not_isSpace_last object.ne_nil
  simpa [trimEnd] using h

/-- **An object in a code fence** is found, whatever its strings hold and whatever prose is around it. -/
theorem extractJson_fenced (hbefore : IsProse before) :
    extractJson (before ++ (inFence object.text ++ after)) = some (.obj object.fields) := by
  have hne : inFence object.text ≠ [] := by simp [inFence, fence]
  have hlast : inFence object.text = (fence ++ ("json".toList ++ '\n' :: (object.text ++ ['\n', '`', '`']))) ++ ['`'] := by
    simp [inFence, fenceEnd]
  have hstripped : stripped (before ++ (inFence object.text ++ after)) =
      before.dropWhile isSpace ++ (inFence object.text ++ trimEnd after) := by
    refine stripped_append ?_ ?_ hne
    · rintro c ⟨⟩
      decide
    · rw [hlast, List.getLast?_concat]
      rintro c ⟨⟩
      decide
  have hnone : readJson (before.dropWhile isSpace ++ (inFence object.text ++ trimEnd after)) = none := by
    rw [← Option.not_isSome_iff_eq_none]
    intro hsome
    obtain ⟨v, hv⟩ := Option.isSome_iff_exists.mp hsome
    refine not_mem_of_scan scan_fenceStart (loads_scan hv) ?_
    refine ⟨before.dropWhile isSpace, object.text ++ (fenceEnd ++ trimEnd after), ?_⟩
    simp only [inFence, List.append_assoc, List.nil_append, List.cons_append]
  have hfence : ¬ fence <:+: before.dropWhile isSpace := fun hin =>
    hbefore.noFence (hin.trans (List.dropWhile_suffix _).isInfix)
  have hlength : (before.dropWhile isSpace).length <
      (before.dropWhile isSpace ++ (inFence object.text ++ trimEnd after)).length := by
    simp [inFence, fence]
  obtain ⟨more, hmore⟩ := fencedFrom_inFence object hfence (trimEnd after) hlength
  rw [extractJson]
  simp only [hstripped, hnone, fenced, hmore, List.findSome?_cons, stripped_object, object.reads, Option.none_or,
    Option.some_or]

/-- **An object without a fence** is found under the condition. -/
theorem extractJson_unfenced_iff (hbefore : IsProse before) (hafter : IsProse after) :
    extractJson (before ++ (object.text ++ after)) = some (.obj object.fields) ↔ Findable before object after := by
  have hstripped : stripped (before ++ (object.text ++ after)) =
      before.dropWhile isSpace ++ (object.text ++ trimEnd after) :=
    stripped_append object.not_isSpace_head object.not_isSpace_last object.ne_nil
  have hdrop := List.dropWhile_suffix (l := before) isSpace
  have htrim := trimEnd_prefix after
  have hfenced : fenced (before.dropWhile isSpace ++ (object.text ++ trimEnd after)) = [] :=
    fencedFrom_eq_nil _ (no_fenceEnd_around object (fun hin => hbefore.noFence (hin.trans hdrop.isInfix))
      fun hin => hafter.noFence (hin.trans htrim.isInfix))
  have hbraced := braced_eq object (fun hin => hbefore.noOpen (hdrop.subset hin))
    (fun hin => hafter.noOpen (htrim.subset hin)) fun hin => hafter.noClose (htrim.subset hin)
  rw [Findable, extractJson]
  simp only [hstripped, hfenced, hbraced, List.findSome?_nil, Option.none_or]
  by_cases hblank : (∀ c ∈ before, isSpace c = true) ∧ ∀ c ∈ after, isSpace c = true
  · rw [dropWhile_eq_nil_of_blank hblank.1, trimEnd_eq_nil_iff.mpr hblank.2, List.nil_append, List.append_nil,
      object.reads, Option.some_or]
    exact iff_of_true rfl (Or.inl hblank)
  · rw [or_iff_right hblank]
    cases hread : readJson (before.dropWhile isSpace ++ (object.text ++ trimEnd after)) with
    | none => simp
    | some v =>
        rw [Option.some_or]
        refine iff_of_false (fun hv => hblank ?_) fun h => nomatch h.1
        rw [Option.some.inj hv] at hread
        obtain ⟨hnil, hnil'⟩ := nil_of_readJson object (fun hin => hbefore.noOpen (hdrop.subset hin))
          (isSpace_head_dropWhile before) (isSpace_getLast_trimEnd after) hread
        exact ⟨List.dropWhile_eq_nil_iff.mp hnil, trimEnd_eq_nil_iff.mp hnil'⟩

/-- **Which objects are found**, with and without a code fence around them. -/
theorem extractJson_finds_iff (hbefore : IsProse before) (hafter : IsProse after) :
    (extractJson (before ++ (object.text ++ after)) = some (.obj object.fields) ∧
        extractJson (before ++ (inFence object.text ++ after)) = some (.obj object.fields)) ↔
      Findable before object after := by
  rw [extractJson_unfenced_iff object hbefore hafter, and_iff_left (extractJson_fenced object hbefore)]

end

/-- The text of any object, in any layout. -/
def ObjectText.write (L : Layout) {fields : List (String × Json)} (h : (Json.obj fields).WellFormed) : ObjectText where
  text := L.write 0 (.obj fields)
  fields
  opens := by
    obtain ⟨tail, htail⟩ := L.write_obj 0 fields
    rw [htail, List.head?_cons]
  closes := by
    obtain ⟨init, hinit⟩ := L.write_obj_last 0 fields
    rw [hinit, List.getLast?_concat]
  reads := L.loads_line _ h

lemma wellFormed_one (key value : String) : (Json.obj [(key, .str value)]).WellFormed := by
  simp [Json.WellFormed, Json.FieldsWellFormed]

/-- An object with one string. -/
def oneString (value : String) : ObjectText := .write .spaced (wellFormed_one "a" value)

lemma isProse_here : IsProse "Here: ".toList := ⟨by decide, by decide, by decide⟩

lemma isProse_nil : IsProse [] := ⟨by decide, by decide, by decide⟩

theorem extractJson_finds_here :
    extractJson ("Here: ".toList ++ ((oneString "b").text ++ [])) = some (.obj [("a", .str "b")]) ∧
      extractJson ("Here: ".toList ++ (inFence (oneString "b").text ++ [])) = some (.obj [("a", .str "b")]) :=
  (extractJson_finds_iff (oneString "b") isProse_here isProse_nil).mpr
    (Or.inr ⟨by decide +kernel, by decide +kernel⟩)

/-- A brace in a string closes the object too early. -/
theorem extractJson_brace_in_string :
    IsProse "Here: ".toList ∧ IsProse [] ∧
      extractJson ("Here: ".toList ++ ((oneString "\x7d").text ++ [])) ≠ some (.obj (oneString "\x7d").fields) := by
  refine ⟨isProse_here, isProse_nil, fun h => ?_⟩
  have hnone : extractJson ("Here: ".toList ++ ((oneString "\x7d").text ++ [])) = none := by decide +kernel
  rw [hnone] at h
  cases h

end Kstrl.Agents
