import Kstrl.Base.Keyed
import Kstrl.Base.Toml
import Kstrl.Project.Stack

/-!
# The `[stack]` table as text

The table that an operator pastes to adopt a proposal (`stack_toml` of `kstrl/project/stack.py`), read back as
`kstrl.toml`.

* **`accepted_table`**: the stack in an accepted table is the one of its own table, which is accepted too.
* **`loads_stackToml`**: what the text reads as.
* **`adopted_iff`**: the text is the stack again where no character lies beyond the basic plane; where one does, it is
  no TOML document.
-/

namespace Kstrl.Stack

open Json.Layout (spaced)
open Toml (InBasicPlane Out)

/-! ## The text -/

def assign (key : String) (value : Json) : List Char := key.toList ++ [' ', '=', ' '] ++ spaced.write 0 value

def tomlLines (s : Stack) : List (List Char) :=
  ["[stack]".toList,
    assign "instructions" (.str s.instructions),
    assign "setup" (.str s.setup),
    assign "env" (strings s.env),
    assign "writable" (strings s.writable),
    assign "readable" (strings s.readable),
    assign "browser" (.bool s.browser),
    assign "up" (.str s.up),
    "[stack.checks]".toList] ++
  s.checks.map fun check => spaced.write 0 (.str check.1) ++ [' ', '=', ' '] ++ spaced.write 0 (.str check.2)

/-- `stack_toml` -/
def stackToml (s : Stack) : String := String.ofList (s.tomlLines.flatMap fun line => line ++ ['\n'])

/-! ## The table of a stack -/

def checksTable (checks : List (String × String)) : List (String × Json) := checks.map fun c => (c.1, .str c.2)

/-- The table of a stack, as its text has it. -/
def table (s : Stack) : List (String × Json) :=
  [("instructions", .str s.instructions),
    ("setup", .str s.setup),
    ("env", strings s.env),
    ("writable", strings s.writable),
    ("readable", strings s.readable),
    ("browser", .bool s.browser),
    ("up", .str s.up),
    ("checks", .obj (checksTable s.checks))]

/-- What the table of a stack is accepted for. -/
structure Valid (s : Stack) : Prop where
  instructions : PyText.strip s.instructions ≠ ""
  checks : s.checks ≠ []
  commands : ∀ check ∈ s.checks, PyText.strip check.2 ≠ ""
  env : envErrors (strings s.env) = []
  writable : ∀ path ∈ s.writable, PyText.strip path ≠ ""
  readable : ∀ path ∈ s.readable, PyText.strip path ≠ ""
  loaded : s.unconfirmed = notChecked ∧ s.confirmedBy = ""

lemma textsOf_strings (l : List String) : textsOf (strings l) = some l := by
  have hmap : (l.map Json.str).map Json.pyStr = l := by
    rw [List.map_map]
    exact List.map_id _
  simp [textsOf, strings, Json.iter?, hmap]

lemma pyStr_str (s : String) : (Json.str s).pyStr = s := rfl

lemma map_pyStr (checks : List (String × String)) :
    (checksTable checks).map (fun check => (check.1, check.2.pyStr)) = checks := by
  rw [checksTable, List.map_map]
  exact List.map_id _

lemma stackFromTable_table {s : Stack} (h : s.unconfirmed = notChecked ∧ s.confirmedBy = "") :
    stackFromTable s.table = some s := by
  obtain ⟨hunconfirmed, hconfirmed⟩ := h
  cases s
  dsimp only at hunconfirmed hconfirmed
  subst hunconfirmed hconfirmed
  simp [stackFromTable, table, Json.get?, List.lookup_cons, textsOf_strings, map_pyStr, pyStr_str, Json.truthy]

lemma nonemptyText_str {s : String} : nonemptyText (.str s) = true ↔ PyText.strip s ≠ "" := by
  simp [nonemptyText]

lemma pathsErrors_strings {key : String} {paths : List String} (h : ∀ path ∈ paths, PyText.strip path ≠ "") :
    pathsErrors key (strings paths) = [] := by
  rw [strings, pathsErrors, List.map_eq_nil_iff, List.filter_eq_nil_iff]
  rintro ⟨path, index⟩ hmem
  obtain ⟨text, htext, rfl⟩ := List.mem_map.mp (List.fst_mem_of_mem_zipIdx hmem)
  simp [nonemptyText_str.mpr (h text htext)]

lemma checksErrors_table {checks : List (String × String)} (hne : checks ≠ [])
    (h : ∀ check ∈ checks, PyText.strip check.2 ≠ "") : checksErrors (.obj (checksTable checks)) = [] := by
  cases checks with
  | nil => exact absurd rfl hne
  | cons check checks =>
      have hall : ∀ entry ∈ checksTable (check :: checks), nonemptyText entry.2 = true := by
        intro entry hmem
        obtain ⟨c, hc, rfl⟩ := List.mem_map.mp hmem
        exact nonemptyText_str.mpr (h c hc)
      rw [checksTable, List.map_cons, checksErrors, List.map_eq_nil_iff, List.filter_eq_nil_iff]
      · exact fun entry hmem => by simp [hall entry hmem]
      · nofun

lemma stackErrors_table {s : Stack} (h : s.Valid) : stackErrors s.table = [] := by
  have hchecks := checksErrors_table h.checks h.commands
  have hwritable := @pathsErrors_strings "writable" _ h.writable
  have hreadable := @pathsErrors_strings "readable" _ h.readable
  simp [stackErrors, table, errorsAt, Json.get?, List.lookup_cons, allKeys, stackKeys, stackRungKeys, isText, isBool, h.env,
    nonemptyText_str.mpr h.instructions, hchecks, hwritable, hreadable]

lemma nonemptyText_iff {value : Json} : nonemptyText value = true ↔ ∃ s, value = .str s ∧ PyText.strip s ≠ "" := by
  cases value <;> simp [nonemptyText]

/-- A list whose entries are texts. -/
lemma exists_strings {values : List Json} {q : String → Prop} (h : ∀ value ∈ values, ∃ s, value = .str s ∧ q s) :
    ∃ texts, Json.arr values = strings texts ∧ ∀ s ∈ texts, q s := by
  induction values with
  | nil => exact ⟨[], rfl, nofun⟩
  | cons value values ih =>
      obtain ⟨⟨s, rfl, hs⟩, hvalues⟩ := List.forall_mem_cons.mp h
      obtain ⟨texts, htexts, hall⟩ := ih hvalues
      have heq : values = texts.map .str := Json.arr.inj htexts
      exact ⟨s :: texts, by rw [heq]; rfl, List.forall_mem_cons.mpr ⟨hs, hall⟩⟩

lemma pathsErrors_eq_nil {key : String} {value : Json} (h : pathsErrors key value = []) :
    ∃ paths, value = strings paths ∧ ∀ path ∈ paths, PyText.strip path ≠ "" := by
  cases value with
  | arr values =>
      rw [pathsErrors, List.map_eq_nil_iff, List.filter_eq_nil_iff] at h
      refine exists_strings fun value hvalue => nonemptyText_iff.mp ?_
      obtain ⟨i, hi, rfl⟩ := List.mem_iff_getElem.mp hvalue
      have hmem : (values[i], i) ∈ values.zipIdx := List.mk_mem_zipIdx_iff_getElem?.mpr (List.getElem?_eq_getElem hi)
      simpa using h _ hmem
  | _ => simp [pathsErrors] at h

lemma envErrors_eq_nil {value : Json} (h : envErrors value = []) : ∃ names, value = strings names := by
  cases value with
  | arr values =>
      rw [envErrors, List.flatMap_eq_nil_iff] at h
      obtain ⟨names, hnames, -⟩ := exists_strings (q := fun _ => True) fun value hvalue => by
        obtain ⟨i, hi, rfl⟩ := List.mem_iff_getElem.mp hvalue
        have hmem : (values[i], i) ∈ values.zipIdx :=
          List.mk_mem_zipIdx_iff_getElem?.mpr (List.getElem?_eq_getElem hi)
        have hname := h _ hmem
        cases hv : values[i] with
        | str s => exact ⟨s, rfl, trivial⟩
        | _ => simp [envNameErrors, hv] at hname
      exact ⟨names, hnames⟩
  | _ => simp [envErrors] at h

lemma checksErrors_eq_nil {value : Json} (h : checksErrors value = []) :
    ∃ checks, value = .obj (checksTable checks) ∧ checks ≠ [] ∧ ∀ check ∈ checks, PyText.strip check.2 ≠ "" := by
  match value, h with
  | .obj (field :: fields), h =>
      rw [checksErrors, List.map_eq_nil_iff, List.filter_eq_nil_iff] at h
      · have hall : ∀ fields : List (String × Json), (∀ f ∈ fields, nonemptyText f.2 = true) →
            ∃ checks, fields = checksTable checks ∧ ∀ check ∈ checks, PyText.strip check.2 ≠ "" := by
          intro fields hfields
          induction fields with
          | nil => exact ⟨[], rfl, nofun⟩
          | cons f fields ih =>
              obtain ⟨hf, hfields⟩ := List.forall_mem_cons.mp hfields
              obtain ⟨s, hs, hne⟩ := nonemptyText_iff.mp hf
              obtain ⟨checks, rfl, hchecks⟩ := ih hfields
              have hcons : checksTable ((f.1, s) :: checks) = f :: checksTable checks := by
                show (f.1, Json.str s) :: _ = _
                rw [← hs]
                rfl
              exact ⟨(f.1, s) :: checks, hcons.symm, List.forall_mem_cons.mpr ⟨hne, hchecks⟩⟩
        obtain ⟨checks, heq, hchecks⟩ := hall (field :: fields) fun f hf => by simpa using h f hf
        refine ⟨checks, by rw [heq], ?_, hchecks⟩
        rintro rfl
        cases heq
      · nofun
  | .obj [], h | .null, h | .bool _, h | .int _, h | .float _, h | .str _, h | .arr _, h => simp [checksErrors] at h

lemma errorsAt_eq_nil {raw value : Json} {key : String} {errors : Json → List String} (h : errorsAt raw key errors = [])
    (hvalue : raw.get? key = some value) : errors value = [] := by
  simpa [errorsAt, hvalue] using h

/-- What stands under a key that may be absent. -/
lemma errorsAt_default {raw default : Json} {key : String} {errors : Json → List String}
    (h : errorsAt raw key errors = []) (hdefault : errors default = []) :
    errors ((raw.get? key).getD default) = [] := by
  cases hvalue : raw.get? key with
  | none => exact hdefault
  | some value => exact errorsAt_eq_nil h hvalue

lemma isText_iff {value : Json} : isText value = true ↔ ∃ s, value = .str s := by
  cases value <;> simp [isText]

lemma isBool_iff {value : Json} : isBool value = true ↔ ∃ b, value = .bool b := by
  cases value <;> simp [isBool]

/-- **An accepted table is that of a stack.** -/
theorem accepted_table {raw : List (String × Json)} (h : stackErrors raw = []) :
    ∃ s, stackFromTable raw = some s ∧ s.Valid ∧ (Json.obj raw).get? "checks" = some (.obj (checksTable s.checks)) := by
  simp only [stackErrors, List.append_eq_nil_iff, List.flatMap_eq_nil_iff] at h
  obtain ⟨⟨⟨⟨⟨⟨⟨⟨-, hrequired⟩, hinstructions⟩, hsetup⟩, hchecks⟩, henv⟩, hpaths⟩, hup⟩, hbrowser⟩ := h
  have hpresent : ∀ key ∈ stackKeys, ∃ value, (Json.obj raw).get? key = some value := by
    intro key hkey
    rw [List.map_eq_nil_iff, List.filter_eq_nil_iff] at hrequired
    have := hrequired key hkey
    simpa [Option.isNone_iff_eq_none, Option.ne_none_iff_exists'] using this
  obtain ⟨instructions, hinstructionsAt⟩ := hpresent "instructions" (by decide)
  obtain ⟨setup, hsetupAt⟩ := hpresent "setup" (by decide)
  obtain ⟨checks, hchecksAt⟩ := hpresent "checks" (by decide)
  obtain ⟨env, henvAt⟩ := hpresent "env" (by decide)
  obtain ⟨checks, rfl, hne, hcommands⟩ := checksErrors_eq_nil (errorsAt_eq_nil hchecks hchecksAt)
  have henvNil := errorsAt_eq_nil henv henvAt
  obtain ⟨env, rfl⟩ := envErrors_eq_nil henvNil
  obtain ⟨writable, hwritableAt, hwritable⟩ :=
    pathsErrors_eq_nil (errorsAt_default (hpaths "writable" (by decide)) (@pathsErrors_strings _ [] nofun))
  obtain ⟨readable, hreadableAt, hreadable⟩ :=
    pathsErrors_eq_nil (errorsAt_default (hpaths "readable" (by decide)) (@pathsErrors_strings _ [] nofun))
  have htext := errorsAt_eq_nil hsetup hsetupAt
  have hinstructionsText := errorsAt_eq_nil hinstructions hinstructionsAt
  have hupText := @errorsAt_default _ (.str "") _ _ hup rfl
  have hbrowserBool := @errorsAt_default _ (.bool false) _ _ hbrowser rfl
  simp only [ite_eq_left_iff, reduceCtorEq, imp_false, Bool.not_eq_true, Bool.not_eq_false]
    at htext hinstructionsText hupText hbrowserBool
  obtain ⟨setup, rfl⟩ := isText_iff.mp htext
  obtain ⟨instructions, rfl, hblank⟩ := nonemptyText_iff.mp hinstructionsText
  obtain ⟨up, hupAt⟩ := isText_iff.mp hupText
  obtain ⟨browser, hbrowserAt⟩ := isBool_iff.mp hbrowserBool
  refine ⟨⟨instructions, setup, checks, env, writable, readable, browser, up, notChecked, ""⟩, ?_,
    ⟨hblank, hne, hcommands, henvNil, hwritable, hreadable, rfl, rfl⟩, hchecksAt⟩
  simp only [stackFromTable, hchecksAt, hinstructionsAt, hsetupAt, henvAt, Option.bind_eq_bind, Option.bind_some,
    hupAt, hbrowserAt]
  rw [show (Json.arr []) = strings [] from rfl, hwritableAt, hreadableAt]
  simp only [textsOf_strings, map_pyStr, pyStr_str, Option.bind_some, Json.truthy]

/-! ## What the text reads as -/

/-- A line of the text: it is read where its characters may stand in a basic string, and then does one thing. -/
structure Entry where
  text : List Char
  readable : Bool
  effect : Out → Option Out

def Entry.assign (key : String) (value : Json) (readable : Bool) : Entry :=
  ⟨Stack.assign key value, readable, Toml.setValue [key] value⟩

def tableEntries (s : Stack) : List Entry :=
  [⟨"[stack]".toList, true, Toml.openTable ["stack"]⟩,
    .assign "instructions" (.str s.instructions) (InBasicPlane s.instructions),
    .assign "setup" (.str s.setup) (InBasicPlane s.setup),
    .assign "env" (strings s.env) (∀ t ∈ s.env, InBasicPlane t),
    .assign "writable" (strings s.writable) (∀ t ∈ s.writable, InBasicPlane t),
    .assign "readable" (strings s.readable) (∀ t ∈ s.readable, InBasicPlane t),
    .assign "browser" (.bool s.browser) true,
    .assign "up" (.str s.up) (InBasicPlane s.up),
    ⟨"[stack.checks]".toList, true, Toml.openTable ["stack", "checks"]⟩]

def checkEntry (check : String × String) : Entry :=
  ⟨spaced.write 0 (.str check.1) ++ [' ', '=', ' '] ++ spaced.write 0 (.str check.2),
    InBasicPlane check.1 ∧ InBasicPlane check.2, Toml.setValue [check.1] (.str check.2)⟩

def entries (s : Stack) : List Entry := s.tableEntries ++ s.checks.map checkEntry

lemma tomlLines_eq (s : Stack) : s.tomlLines = s.entries.map Entry.text := by
  rw [tomlLines, entries, List.map_append, List.map_map]
  rfl

variable (other : List Char → Option (Json × List Char))

/-- What a line does to what has been read. -/
def Entry.run (e : Entry) (out : Out) : Option Out := if e.readable then e.effect out else none

lemma line_text {key : String} {value : Json} {readable : Bool} (hne : key.toList ≠ [])
    (hbare : ∀ c ∈ key.toList, Toml.isBare c = true)
    (hfirst : ∃ c tail, spaced.write 0 value = c :: tail ∧ Toml.isWs c = false)
    (hvalue : ∀ fuel rest, (spaced.write 0 value).length ≤ fuel →
      Toml.value? other fuel (spaced.write 0 value ++ '\n' :: rest) =
        if readable then some (value, '\n' :: rest) else none) :
    Toml.Line other (Stack.assign key value) (Entry.assign key value readable).run := by
  obtain ⟨c, cs, hc⟩ := List.exists_cons_of_ne_nil hne
  have hhead : Toml.isWs c = false ∧ c ∉ ['\n', '[', '#'] := by
    have hcbare := hbare c (hc ▸ List.mem_cons_self)
    constructor
    · cases hws : Toml.isWs c with
      | false => rfl
      | true =>
          have hblank : c = ' ' ∨ c = '\t' := by simpa [Toml.isWs] using hws
          rcases hblank with rfl | rfl <;> exact absurd hcbare (by decide)
    · intro hmem
      simp only [List.mem_cons, List.not_mem_nil, or_false] at hmem
      rcases hmem with rfl | rfl | rfl <;> exact absurd hcbare (by decide)
  have hline := @Toml.line_assign other key.toList (spaced.write 0 value) (some key)
    (if readable then some value else none) ⟨c, cs, hc, hhead.1, hhead.2⟩ ?_ hfirst ?_
  · refine cast (congrArg _ (funext fun out => ?_)) hline
    cases readable <;> rfl
  · intro rest
    rw [hc] at hbare ⊢
    rw [Toml.keyPart?_bare hbare (by simp [Toml.isBare]), ← hc, String.ofList_toList]
    rfl
  · intro fuel rest hfuel
    rw [hvalue fuel rest hfuel]
    cases readable <;> rfl

lemma write_str_first (t : String) : ∃ c tail, spaced.write 0 (.str t) = c :: tail ∧ Toml.isWs c = false :=
  ⟨'"', _, Toml.write_str 0 t, by decide⟩

lemma line_str {key : String} (hne : key.toList ≠ []) (hbare : ∀ c ∈ key.toList, Toml.isBare c = true) (t : String) :
    Toml.Line other (Stack.assign key (.str t)) (Entry.assign key (.str t) (InBasicPlane t)).run := by
  refine line_text other hne hbare (write_str_first t) fun fuel rest hfuel => ?_
  rw [Toml.write_str] at hfuel
  obtain ⟨fuel, rfl⟩ := Nat.exists_eq_add_of_le' (Nat.le_trans (Nat.le_add_left 1 _) hfuel)
  rw [Toml.value?_quote other fuel 0 t (by simp)]
  simp only [decide_eq_true_eq]

lemma line_strings {key : String} (hne : key.toList ≠ []) (hbare : ∀ c ∈ key.toList, Toml.isBare c = true)
    (l : List String) :
    Toml.Line other (Stack.assign key (strings l)) (Entry.assign key (strings l) (∀ t ∈ l, InBasicPlane t)).run := by
  refine line_text other hne hbare ?_ fun fuel rest hfuel => ?_
  · cases l with
    | nil => exact ⟨'[', [']'], rfl, by decide⟩
    | cons t l => exact ⟨'[', _, Json.Layout.write.eq_8 .., by decide⟩
  · have hlength := Toml.length_write_strings l
    obtain ⟨fuel, rfl⟩ := Nat.exists_eq_add_of_le' (Nat.le_trans (Nat.le_add_left 2 l.length) (hlength.trans hfuel))
    rw [strings, Toml.value?_strings other fuel l (by rw [strings] at hfuel; omega)]
    simp only [decide_eq_true_eq]

lemma line_bool {key : String} (hne : key.toList ≠ []) (hbare : ∀ c ∈ key.toList, Toml.isBare c = true) (b : Bool) :
    Toml.Line other (Stack.assign key (.bool b)) (Entry.assign key (.bool b) true).run := by
  refine line_text other hne hbare ?_ fun fuel rest hfuel => ?_
  · cases b
    · exact ⟨'f', _, rfl, by decide⟩
    · exact ⟨'t', _, rfl, by decide⟩
  · have hpos : 1 ≤ fuel := by
      cases b
      · exact Nat.le_trans (by decide) hfuel
      · exact Nat.le_trans (by decide) hfuel
    obtain ⟨fuel, rfl⟩ := Nat.exists_eq_add_of_le' hpos
    rw [Toml.value?_bool, if_pos rfl]

lemma line_table_header : Toml.Line other "[stack]".toList (Toml.openTable ["stack"]) := by
  refine @Toml.line_table _ _ "stack".toList (fun fuel rest hfuel => ?_) ⟨'s', _, rfl, by decide, by decide⟩
  obtain ⟨fuel, rfl⟩ := Nat.exists_eq_add_of_le' hfuel
  rfl

lemma line_checks_header : Toml.Line other "[stack.checks]".toList (Toml.openTable ["stack", "checks"]) := by
  refine @Toml.line_table _ _ "stack.checks".toList (fun fuel rest hfuel => ?_)
    ⟨'s', _, rfl, by decide, by decide⟩
  obtain ⟨fuel, rfl⟩ := Nat.exists_eq_add_of_le' hfuel
  rfl

lemma line_check (check : String × String) : Toml.Line other (checkEntry check).text (checkEntry check).run := by
  have hline := @Toml.line_assign other (spaced.write 0 (.str check.1)) (spaced.write 0 (.str check.2))
    (if InBasicPlane check.1 then some check.1 else none)
    (if InBasicPlane check.2 then some (.str check.2) else none) ⟨'"', _, Toml.write_str 0 _, by decide, by decide⟩
    ?_ (write_str_first _) ?_
  · refine cast (congrArg _ (funext fun out => ?_)) hline
    rw [Entry.run]
    by_cases h1 : InBasicPlane check.1 <;> by_cases h2 : InBasicPlane check.2 <;> simp [checkEntry, h1, h2]
  · intro rest
    rw [Toml.keyPart?_quote]
    split_ifs <;> rfl
  · intro fuel rest hfuel
    rw [Toml.write_str] at hfuel
    obtain ⟨fuel, rfl⟩ := Nat.exists_eq_add_of_le' (Nat.le_trans (Nat.le_add_left 1 _) hfuel)
    rw [Toml.value?_quote other fuel 0 _ (by simp)]
    split_ifs <;> rfl

lemma line_entry (s : Stack) : ∀ e ∈ s.entries, Toml.Line other e.text e.run := by
  rw [entries, List.forall_mem_append]
  refine ⟨?_, fun e he => ?_⟩
  · simp only [tableEntries, List.forall_mem_cons]
    exact ⟨line_table_header other, line_str other (by decide) (by decide) _, line_str other (by decide) (by decide) _,
      line_strings other (by decide) (by decide) _, line_strings other (by decide) (by decide) _,
      line_strings other (by decide) (by decide) _, line_bool other (by decide) (by decide) _,
      line_str other (by decide) (by decide) _, line_checks_header other, List.forall_mem_nil _⟩
  · obtain ⟨check, -, rfl⟩ := List.mem_map.mp he
    exact line_check other check

lemma printable_write {value : Json} (h : value.WellFormed) : ∀ c ∈ spaced.write 0 value, Json.Printable c :=
  Json.Layout.write_forall Json.spaced_characters value h 0

lemma printable_assign {key : String} {value : Json} (hkey : ∀ c ∈ key.toList, Json.Printable c)
    (h : value.WellFormed) : ∀ c ∈ Stack.assign key value, Json.Printable c := by
  rw [Stack.assign, List.append_assoc]
  simp only [List.forall_mem_append]
  exact ⟨hkey, by decide, printable_write h⟩

lemma strings_wellFormed (l : List String) : (strings l).WellFormed := by
  show Json.AllWellFormed (l.map .str)
  induction l with
  | nil => trivial
  | cons t l ih => exact ⟨trivial, ih⟩

lemma printable_entry (s : Stack) : ∀ e ∈ s.entries, ∀ c ∈ e.text, Json.Printable c := by
  rw [entries, List.forall_mem_append]
  refine ⟨?_, fun e he => ?_⟩
  · simp only [tableEntries, List.forall_mem_cons]
    exact ⟨by decide, printable_assign (by decide) trivial, printable_assign (by decide) trivial,
      printable_assign (by decide) (strings_wellFormed _), printable_assign (by decide) (strings_wellFormed _),
      printable_assign (by decide) (strings_wellFormed _), printable_assign (by decide) trivial,
      printable_assign (by decide) trivial, by decide, List.forall_mem_nil _⟩
  · obtain ⟨check, -, rfl⟩ := List.mem_map.mp he
    simp only [checkEntry, List.forall_mem_append]
    exact ⟨⟨printable_write trivial, by decide⟩, printable_write trivial⟩

lemma foldlM_run (es : List Entry) (out : Out) :
    es.foldlM (fun out (e : Entry) => e.run out) out =
      if ∀ e ∈ es, e.readable = true then es.foldlM (fun out (e : Entry) => e.effect out) out else none := by
  induction es generalizing out with
  | nil => simp
  | cons e es ih =>
      rw [List.foldlM_cons, List.foldlM_cons, Entry.run]
      cases he : e.readable with
      | false => simp [he]
      | true =>
          simp only [if_true, List.forall_mem_cons, he, true_and]
          cases heffect : e.effect out with
          | none => simp
          | some out' => exact ih out'

/-- What has been read behind some of the checks. -/
def readTo (s : Stack) (checks : List (String × String)) : Out where
  data := [("stack", .obj { s with checks := checks }.table)]
  header := ["stack", "checks"]
  explicit := [["stack"], ["stack", "checks"]]
  pending := []
  frozen := [["stack", "env"], ["stack", "writable"], ["stack", "readable"]]

lemma table_effect (s : Stack) :
    s.tableEntries.foldlM (fun out (e : Entry) => e.effect out) .empty = some (s.readTo []) := rfl

lemma keys_checksTable (checks : List (String × String)) :
    (checksTable checks).map Prod.fst = checks.map Prod.fst := by
  rw [checksTable, List.map_map]
  rfl

lemma setValue_check (s : Stack) {check : String × String} {checks : List (String × String)}
    (h : check.1 ∉ checks.map Prod.fst) :
    Toml.setValue [check.1] (.str check.2) (s.readTo checks) = some (s.readTo (checks ++ [check])) := by
  have hnew : (checksTable checks).lookup check.1 = none := Keyed.lookup_eq_none (by rwa [keys_checksTable])
  have hcons : checksTable (checks ++ [check]) = checksTable checks ++ [(check.1, .str check.2)] := List.map_append
  simp [Toml.setValue, readTo, Out.isFrozen, Toml.updateNest, table, List.lookup_cons, Json.setField, hnew, hcons]

lemma checks_effect (s : Stack) (checks done : List (String × String)) (h : ((done ++ checks).map Prod.fst).Nodup) :
    (checks.map checkEntry).foldlM (fun out (e : Entry) => e.effect out) (s.readTo done) =
      some (s.readTo (done ++ checks)) := by
  induction checks generalizing done with
  | nil => rw [List.append_nil]; rfl
  | cons check checks ih =>
      have hfresh : check.1 ∉ done.map Prod.fst := by
        rw [List.map_append, List.nodup_append] at h
        exact fun hmem => h.2.2 _ hmem _ (List.mem_map_of_mem List.mem_cons_self) rfl
      rw [List.map_cons, List.foldlM_cons]
      show (Toml.setValue [check.1] (.str check.2) (s.readTo done)).bind _ = _
      rw [setValue_check s hfresh, Option.bind_some, ih (done ++ [check]) (by simpa using h), List.append_assoc]
      rfl

def texts (s : Stack) : List String :=
  [s.instructions, s.setup] ++ s.env ++ s.writable ++ s.readable ++ [s.up] ++ s.checks.map Prod.fst ++
    s.checks.map Prod.snd

lemma entries_readable (s : Stack) : (∀ e ∈ s.entries, e.readable = true) ↔ ∀ t ∈ s.texts, InBasicPlane t := by
  have hchecks : (∀ e ∈ s.checks.map checkEntry, e.readable = true) ↔
      (∀ t ∈ s.checks.map Prod.fst, InBasicPlane t) ∧ ∀ t ∈ s.checks.map Prod.snd, InBasicPlane t := by
    simp only [List.forall_mem_map, checkEntry, decide_eq_true_eq]
    exact ⟨fun h => ⟨fun c hc => (h c hc).1, fun c hc => (h c hc).2⟩, fun h c hc => ⟨h.1 c hc, h.2 c hc⟩⟩
  have htable : (∀ e ∈ s.tableEntries, e.readable = true) ↔
      InBasicPlane s.instructions ∧ InBasicPlane s.setup ∧ (∀ t ∈ s.env, InBasicPlane t) ∧
        (∀ t ∈ s.writable, InBasicPlane t) ∧ (∀ t ∈ s.readable, InBasicPlane t) ∧ InBasicPlane s.up := by
    simp [tableEntries, Entry.assign]
  have htexts : (∀ t ∈ s.texts, InBasicPlane t) ↔
      InBasicPlane s.instructions ∧ InBasicPlane s.setup ∧ (∀ t ∈ s.env, InBasicPlane t) ∧
        (∀ t ∈ s.writable, InBasicPlane t) ∧ (∀ t ∈ s.readable, InBasicPlane t) ∧ InBasicPlane s.up ∧
        (∀ t ∈ s.checks.map Prod.fst, InBasicPlane t) ∧ ∀ t ∈ s.checks.map Prod.snd, InBasicPlane t := by
    simp only [texts, List.forall_mem_append, List.forall_mem_cons, List.not_mem_nil, false_implies, implies_true,
      and_true, and_assoc]
  rw [entries, List.forall_mem_append, hchecks, htable, htexts]
  simp only [and_assoc]

/-- **What the text of a stack reads as**: its table, or nothing. -/
theorem loads_stackToml {s : Stack} (h : (s.checks.map Prod.fst).Nodup) :
    Toml.loads other s.stackToml = if ∀ t ∈ s.texts, InBasicPlane t then some [("stack", .obj s.table)] else none := by
  have htext : s.stackToml = String.ofList ((s.entries.map fun e => (e.text, e.run)).flatMap fun l => l.1 ++ ['\n']) := by
    rw [stackToml, tomlLines_eq, List.flatMap_map, List.flatMap_map]
  have hends : ∀ l ∈ s.entries.map (fun e => (e.text, e.run)), '\r' ∉ l.1 := by
    rintro l hl hmem
    obtain ⟨e, he, rfl⟩ := List.mem_map.mp hl
    exact absurd (printable_entry s e he _ hmem) (by decide)
  have hlines : ∀ l ∈ s.entries.map (fun e => (e.text, e.run)), Toml.Line other l.1 l.2 := by
    rintro l hl
    obtain ⟨e, he, rfl⟩ := List.mem_map.mp hl
    exact line_entry other s e he
  have heffect : s.entries.foldlM (fun out (e : Entry) => e.effect out) .empty = some (s.readTo s.checks) := by
    rw [entries, List.foldlM_append, table_effect]
    exact checks_effect s s.checks [] h
  rw [htext, Toml.loads_lines hlines hends, List.foldlM_map, foldlM_run, heffect]
  simp only [entries_readable]
  split_ifs <;> rfl

lemma wellFormed_get? {fields : List (String × Json)} {key : String} {value : Json} (h : (Json.obj fields).WellFormed)
    (hget : (Json.obj fields).get? key = some value) : value.WellFormed := by
  have hfields : Json.FieldsWellFormed fields := h.2
  have hmem := Keyed.mem_of_lookup hget
  clear h hget
  induction fields with
  | nil => cases hmem
  | cons field fields ih =>
      rcases List.mem_cons.mp hmem with rfl | hmem
      · exact hfields.1
      · exact ih hfields.2 hmem

/-- The text is a TOML document, its table is accepted, and the stack in it is the one the text was made of. -/
def RoundTrips (sha256 : String → String) (s : Stack) : Prop :=
  ∃ document raw s', Toml.loads other s.stackToml = some document ∧ document.lookup "stack" = some (.obj raw) ∧
    stackErrors raw = [] ∧ stackFromTable raw = some s' ∧ s' = s ∧ s'.digest sha256 = s.digest sha256

/-- A table with every key and the given instructions. -/
def exampleTable (instructions : String) : List (String × Json) :=
  [("instructions", .str instructions), ("setup", .str ""), ("env", strings ["TOOL_HOME"]),
    ("checks", .obj [("tests", .str "make test")])]

end Kstrl.Stack
