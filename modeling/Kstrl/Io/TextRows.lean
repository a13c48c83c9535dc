import Kstrl.Base.TextLines
import Kstrl.Io.Append

/-!
# Rows of text

The terminated append of rows of text to a file of UTF-8.  A crash cuts the bytes; where the cut falls between
two characters, the file is a text still.

* **`textCall_lines`** is one append: what it leaves of its rows, by the characters that were written.
* **`le_cut_iff`** says which bytes a number of characters are, and `cutAt_ascii` that every cut of an ASCII text
  falls between two characters.
-/

namespace Kstrl

namespace Io

open TornLines TextLines

/-- One append of some records of text, with a repair row or a bare pad, cut off after `cut` bytes. -/
structure TextCall where
  records : List (List Char)
  repair : Option (List Char)
  cut : ℕ

namespace TextCall

variable (c : TextCall)

def bytes : AppendCall := { records := c.records.map encode, repair := c.repair.map encode, cut := c.cut }

/-- The write of the call, as a write of characters that is cut off after `k` of them. -/
def write (k : ℕ) : Write Char := { rows := c.records, repair := c.repair.toList, cut := k }

/-- What the call writes where it finds a torn tail, and where it finds none. -/
def payload (torn : Bool) : List Char :=
  if torn then '\n' :: encodeRows '\n' (c.repair.toList ++ c.records) else encodeRows '\n' c.records

/-- The cut falls behind the first `k` characters of what the call writes. -/
def CutAt (torn : Bool) (k : ℕ) : Prop :=
  (encode (c.payload torn)).take c.cut = encode ((c.payload torn).take k)

/-- There is a record, and no record and no repair row has a line feed. -/
structure Clean : Prop where
  records : c.records ≠ []
  rows : ∀ row ∈ c.repair.toList ++ c.records, '\n' ∉ row

end TextCall

lemma encode_encodeRows (rows : List (List Char)) :
    encode (encodeRows '\n' rows) = encodeRows newline (rows.map encode) := by
  induction rows with
  | nil => rfl
  | cons row rows ih =>
      rw [encodeRows_cons, List.map_cons, encodeRows_cons, ← ih, encode_append]
      rfl

/-- A text is torn where its bytes are. -/
lemma torn_encode (text : List Char) : torn newline (encode text) = torn '\n' text := by
  induction text using rows_induction '\n' with
  | tail row hrow =>
      have hbytes : newline ∉ encode row := newline_not_mem_encode hrow
      rw [Bool.eq_iff_iff, torn_tail hbytes, torn_tail hrow, ne_eq, encode_eq_nil]
  | cons row rest hrow ih =>
      have hsplit : encode (row ++ '\n' :: rest) = encode row ++ newline :: encode rest := by
        rw [encode_append]
        rfl
      rw [hsplit, torn_row, torn_row, ih]

variable {c : TextCall}

lemma bytes_payload (c : TextCall) (text : List Char) :
    c.bytes.write.payload newline (encode text) = encode (c.payload (torn '\n' text)) := by
  rw [Write.payload, TextCall.payload, torn_encode]
  cases torn '\n' text with
  | false => exact (encode_encodeRows c.records).symm
  | true =>
      have hrows : (c.repair.map encode).toList ++ c.records.map encode =
          (c.repair.toList ++ c.records).map encode := by
        cases c.repair <;> simp
      show newline :: encodeRows newline ((c.repair.map encode).toList ++ c.records.map encode) = _
      rw [hrows, ← encode_encodeRows]
      rfl

/-- **One append of text.** -/
theorem textCall_lines (h : c.Clean) {text : List Char} {k : ℕ} (hcut : c.CutAt (torn '\n' text) k) :
    c.bytes.apply (encode text) = .ok (encode (text ++ (c.payload (torn '\n' text)).take k)) ∧
      lines '\n' (text ++ (c.payload (torn '\n' text)).take k) =
        lines '\n' text ++ (c.write k).left (torn '\n' text) := by
  have hrecords : c.bytes.records ≠ [] := by
    show c.records.map encode ≠ []
    simpa using h.records
  constructor
  · rw [apply_eq hrecords, Write.apply, bytes_payload, encode_append]
    exact congrArg _ (congrArg _ hcut)
  · exact lines_append (a := c.write k) h.rows text

/-- No text has fewer bytes than one that goes on. -/
lemma encode_length_lt {text : List Char} {k m : ℕ} (hk : k < m) (hm : m ≤ text.length) :
    (encode (text.take k)).length < (encode (text.take m)).length := by
  obtain ⟨j, rfl⟩ : ∃ j, m = k + (j + 1) := ⟨m - k - 1, by omega⟩
  have hpos : encode ((text.drop k).take (j + 1)) ≠ [] := by
    rw [ne_eq, encode_eq_nil, List.take_eq_nil_iff, List.drop_eq_nil_iff]
    omega
  have := List.length_pos_of_ne_nil hpos
  rw [List.take_add, encode_append, List.length_append]
  omega

/-- The bytes of the first `m` characters are written if and only if these are among the characters that are. -/
lemma le_cut_iff {text : List Char} {cut k m : ℕ} (hcut : (encode text).take cut = encode (text.take k))
    (hm : m ≤ text.length) : (encode (text.take m)).length ≤ cut ↔ m ≤ k := by
  have hlength : min cut (encode text).length = (encode (text.take k)).length := by
    rw [← hcut, List.length_take]
  have hbound : ∀ n, (encode (text.take n)).length ≤ (encode text).length := by
    intro n
    conv_rhs => rw [← List.take_append_drop n text, encode_append, List.length_append]
    omega
  have hm' := hbound m
  constructor
  · intro hle
    by_contra hlt
    have := encode_length_lt (Nat.lt_of_not_le hlt) hm
    omega
  · intro hle
    rcases Nat.eq_or_lt_of_le hle with rfl | hlt
    · omega
    · by_cases hk : k ≤ text.length
      · have := encode_length_lt hlt hk
        omega
      · have hall := List.take_of_length_le (Nat.le_of_not_le hk)
        rw [hall] at hlength
        omega

/-- The bytes of an ASCII text. -/
lemma encode_eq_map {text : List Char} (h : ∀ ch ∈ text, ch.toNat < 128) :
    encode text = text.map fun ch => UInt8.ofNat ch.toNat := by
  induction text with
  | nil => rfl
  | cons ch text ih =>
      obtain ⟨hch, htext⟩ := List.forall_mem_cons.mp h
      have hone : String.utf8EncodeChar ch = [UInt8.ofNat ch.toNat] := by
        unfold String.utf8EncodeChar
        exact if_pos (Nat.le_of_lt_succ hch)
      rw [encode, List.flatMap_cons, hone, List.map_cons, ← ih htext]
      rfl

lemma length_encode_ascii {text : List Char} (h : ∀ ch ∈ text, ch.toNat < 128) :
    (encode text).length = text.length := by
  rw [encode_eq_map h, List.length_map]

/-- Every cut of an ASCII text falls between two characters. -/
lemma cutAt_ascii {torn : Bool} (h : ∀ ch ∈ c.payload torn, ch.toNat < 128) : c.CutAt torn c.cut := by
  rw [TextCall.CutAt, encode_eq_map h, encode_eq_map fun ch hch => h ch (List.mem_of_mem_take hch), List.map_take]

end Io

end Kstrl
