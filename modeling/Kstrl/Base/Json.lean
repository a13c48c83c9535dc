import Mathlib.Data.Int.Notation
import Mathlib.Data.List.Forall2
import Mathlib.Tactic.Common
import Kstrl.Base.PyText
import Mathlib.Algebra.Group.Nat.Defs

/-!
# JSON values

The values `json.loads` returns and `json.dumps` takes.  An object is the list of its fields in
order; `get?` reads a field.  The readers below (`asInt`, `asStr`, …) are the tolerant ones a
program uses on a document it did not write itself: a missing field or one of the wrong type
gives the default.
-/

/-- A JSON value.  `float` keeps the text of a number with a fraction or an exponent. -/
inductive Json where
  | null
  | bool (b : Bool)
  | int (n : ℤ)
  | float (text : String)
  | str (s : String)
  | arr (entries : List Json)
  | obj (fields : List (String × Json))
  deriving Inhabited

namespace Json

/-- The value of a field of an object; `none` for a missing field or a value that is no object. -/
def get? : Json → String → Option Json
  | .obj fields, key => fields.lookup key
  | _, _ => none

/-- A field that should be an integer.  A JSON boolean is no integer. -/
def asInt (j : Json) (key : String) (default : ℤ) : ℤ :=
  match j.get? key with
  | some (.int n) => n
  | _ => default

/-- A field that should be a string. -/
def asStr (j : Json) (key : String) (default : String := "") : String :=
  match j.get? key with
  | some (.str s) => s
  | _ => default

/-- The strings of a list, provided every entry is one. -/
def strings? : List Json → Option (List String)
  | [] => some []
  | .str s :: rest => (strings? rest).map (s :: ·)
  | _ :: _ => none

/-- A field that should be a list of strings: one entry of another type spoils the whole. -/
def asStrTuple (j : Json) (key : String) : List String :=
  match j.get? key with
  | some (.arr entries) => (strings? entries).getD []
  | _ => []

/-- A field, or null. -/
def field (j : Json) (key : String) : Json := (j.get? key).getD .null

/-- The entries of a field that is an array. -/
def arrOf (j : Json) (key : String) : List Json :=
  match j.get? key with
  | some (.arr entries) => entries
  | _ => []

/-- What a `for` loop over a value goes through; `none` for a value no loop takes. -/
def iter? : Json → Option (List Json)
  | .str s => some (s.toList.map fun c => .str (String.singleton c))
  | .arr entries => some entries
  | .obj fields => some (fields.map fun f => .str f.1)
  | _ => none

/-- Whether a field is literally `true`. -/
def isTrue (j : Json) (key : String) : Bool :=
  match j.get? key with
  | some (.bool b) => b
  | _ => false

mutual

/-- `repr` of a value that `json.loads` returned. -/
def pyRepr : Json → String
  | .null => "None"
  | .bool b => if b then "True" else "False"
  | .int n => toString n
  | .float text => text
  | .str s => "'" ++ s ++ "'"
  | .arr entries => "[" ++ String.intercalate ", " (pyReprs entries) ++ "]"
  | .obj fields => "\x7b" ++ String.intercalate ", " (pyReprFields fields) ++ "\x7d"

def pyReprs : List Json → List String
  | [] => []
  | j :: rest => pyRepr j :: pyReprs rest

def pyReprFields : List (String × Json) → List String
  | [] => []
  | (key, j) :: rest => ("'" ++ key ++ "': " ++ pyRepr j) :: pyReprFields rest

end

/-- `str` of a value that `json.loads` returned. -/
def pyStr : Json → String
  | .str s => s
  | j => pyRepr j

/-- Whether the literal of a number denotes zero, or a number that is rounded to it. -/
def zeroLiteral (text : String) : Bool :=
  let cs := text.toList
  let mantissa := cs.takeWhile fun c => c ≠ 'e' && c ≠ 'E'
  let exponent := ((String.ofList ((cs.drop (mantissa.length + 1)).filter (· ≠ '+'))).toInt?).getD 0
  let digits := ((String.ofList (mantissa.filter Char.isDigit)).toNat?).getD 0
  let scale := exponent - ((mantissa.dropWhile (· ≠ '.')).drop 1).length
  !cs.any (fun c => c = 'n') && digits * 2 ^ 1075 ≤ 10 ^ (-scale).toNat

/-- `bool(value)` -/
def truthy : Json → Bool
  | .null => false
  | .bool b => b
  | .int n => n ≠ 0
  | .float text => !zeroLiteral text
  | .str s => s ≠ ""
  | .arr entries => !entries.isEmpty
  | .obj fields => !fields.isEmpty

/-- `type(value).__name__` -/
def typeName : Json → String
  | .null => "NoneType"
  | .bool _ => "bool"
  | .int _ => "int"
  | .float _ => "float"
  | .str _ => "str"
  | .arr _ => "list"
  | .obj _ => "dict"

@[simp] lemma strings?_map_str (l : List String) : strings? (l.map Json.str) = some l := by
  induction l with
  | nil => rfl
  | cons s l ih => simp [strings?, ih]

end Json

namespace Except

/-- Both steps of a computation that succeeds succeed. -/
lemma bind_eq_ok {ε α β : Type*} {x : Except ε α} {f : α → Except ε β} {b : β} (h : x.bind f = .ok b) :
    ∃ a, x = .ok a ∧ f a = .ok b := by
  cases x with
  | error e => cases h
  | ok a => exact ⟨a, rfl, h⟩

lemma map_eq_ok {ε α β : Type*} {x : Except ε α} {f : α → β} {b : β} (h : x.map f = .ok b) :
    ∃ a, x = .ok a ∧ f a = b := by
  cases x with
  | error e => cases h
  | ok a => exact ⟨a, rfl, Except.ok.inj h⟩

/-- A loop that stops at its first error, when it meets none. -/
lemma mapM_eq_ok_iff {ε α β : Type} {f : α → Except ε β} {l : List α} {bs : List β} :
    l.mapM f = .ok bs ↔ List.Forall₂ (fun a b => f a = .ok b) l bs := by
  induction l generalizing bs with
  | nil =>
      rw [List.mapM_nil, List.forall₂_nil_left_iff]
      exact ⟨fun h => (Except.ok.inj h).symm, fun h => h ▸ rfl⟩
  | cons a l ih =>
      rw [List.mapM_cons, List.forall₂_cons_left_iff]
      constructor
      · intro h
        obtain ⟨b, hb, h⟩ := bind_eq_ok h
        obtain ⟨bs, hbs, h⟩ := bind_eq_ok h
        cases h
        exact ⟨b, bs, hb, ih.mp hbs, rfl⟩
      · rintro ⟨b, bs, hb, hbs, rfl⟩
        rw [hb, ih.mpr hbs]
        rfl

end Except
