import Kstrl.Base.JsonPrefix
import Kstrl.Io.TextRows
import Kstrl.Queue.Items

/-!
# The queue's journal

`_journal` and `journal_entries` of `kstrl/queue/workqueue_store.py`.  A row is written as it is, without ASCII
escapes; the reader decodes the whole file and splits it with `str.splitlines`.

* **`journal_read`** is what the reader gives after appends that a crash cut off: the entries whose rows were
  written, and in the read of the whole journal the repair rows.
* `journal_read_repair` is the repair row that the read of the whole journal returns.
-/

namespace Kstrl

open Io TextLines TornLines PyCodec

def JournalEntry.toDict (e : JournalEntry) : Json :=
  .obj [("ts", .str e.ts), ("item_id", .str e.itemId), ("from", .str e.fromState), ("to", .str e.toState),
    ("reason", .str e.reason), ("actor", .str e.actor), ("attempts", .int e.attempts), ("detail", e.detail)]

/-- `JOURNAL_REPAIR_EVENT`. -/
def journalRepairEvent : String := "journal_repair"

/-- `_journal_repair_entry`, at a time. -/
def journalRepairEntry (now : String) : Json := .obj [("ts", .str now), ("event", .str journalRepairEvent)]

/-- One append to the journal: the entry, the time of a repair, and how many bytes are written. -/
structure JournalAppend where
  entry : JournalEntry
  now : String
  cut : ℕ

namespace JournalAppend

variable (a : JournalAppend)

/-- `json.dumps(entry.to_dict(), ensure_ascii=False)`. -/
def line : List Char := Json.Layout.plain.write 0 a.entry.toDict

/-- `json.dumps(_journal_repair_entry())`. -/
def repairLine : List Char := Json.Layout.spaced.write 0 (journalRepairEntry a.now)

/-- `_journal`: the file after it. -/
def journal (file : Bytes) : Except String Bytes :=
  (appendTerminated file (encode (a.line ++ ['\n'])) (encode (a.repairLine ++ ['\n']))).map fun written =>
    file ++ written.1.take a.cut

end JournalAppend

/-- A sequence of appends: the file after them, and each append with whether it found a torn tail. -/
def runJournal : Bytes → List JournalAppend → Except String (Bytes × List (JournalAppend × Bool))
  | file, [] => .ok (file, [])
  | file, a :: rest => do
      let after ← a.journal file
      let (last, found) ← runJournal after rest
      .ok (last, (a, endsWithoutNewline file) :: found)

/-- `item_id and data.get("item_id") != item_id` lets the row through. -/
def selects (itemId : String) (data : Json) : Bool :=
  itemId = "" || match data.get? "item_id" with
    | some (.str id) => id = itemId
    | _ => false

/-- One line of the journal. -/
def journalLine (itemId : String) (line : List Char) : Option Json :=
  if PyText.isBlank (String.ofList line) then none
  else match Json.loads (String.ofList line) with
    | some (.obj fields) => if selects itemId (.obj fields) then some (.obj fields) else none
    | _ => none

/-- `journal_entries`. -/
def journalEntries (file : Bytes) (itemId : String := "") : List Json :=
  match decodeUtf8 file with
  | none => []
  | some text => (splitlines text).filterMap (journalLine itemId)

/-! ## What an append leaves -/

namespace JournalAppend

variable (a : JournalAppend)

def call : TextCall := { records := [a.line], repair := some a.repairLine, cut := a.cut }

/-- What is written in front of the entry. -/
def before (torn : Bool) : List Char := if torn then '\n' :: (a.repairLine ++ ['\n']) else []

/-- All bytes of the entry are written. -/
def Written (torn : Bool) : Prop := (encode (a.before torn ++ a.line)).length ≤ a.cut

/-- All bytes of a repair row are written. -/
def RepairWritten (torn : Bool) : Prop := torn = true ∧ (encode ('\n' :: a.repairLine)).length ≤ a.cut

instance (torn : Bool) : Decidable (a.Written torn) := inferInstanceAs (Decidable (_ ≤ _))

instance (torn : Bool) : Decidable (a.RepairWritten torn) := inferInstanceAs (Decidable (_ ∧ _))

/-- The rows that are whole behind the append. -/
def whole (torn : Bool) : List Json :=
  (if a.RepairWritten torn then [journalRepairEntry a.now] else []) ++
    if a.Written torn then [a.entry.toDict] else []

/-- The entry is a value of JSON. -/
def WellFormed : Prop := a.entry.detail.WellFormed

/-- No text of the entry has a line break that JSON does not escape. -/
def Unbroken : Prop := ∀ c ∈ a.line, c ∉ ['\u0085', '\u2028', '\u2029']

/-- The cut falls between two characters. -/
def AtCharacter (torn : Bool) : Prop := ∃ k, a.call.CutAt torn k

end JournalAppend

variable {a : JournalAppend}

lemma JournalEntry.toDict_wellFormed {e : JournalEntry} (h : e.detail.WellFormed) : e.toDict.WellFormed := by
  simp [JournalEntry.toDict, Json.WellFormed, Json.FieldsWellFormed, h]

lemma journalRepairEntry_wellFormed (now : String) : (journalRepairEntry now).WellFormed := by
  simp [journalRepairEntry, Json.WellFormed, Json.FieldsWellFormed]

/-- A row that was cut off is skipped, and a whole one is the row. -/
lemma journalLine_take (L : Json.Layout) {fields : List (String × Json)} (hj : (Json.obj fields).WellFormed)
    (itemId : String) (k : ℕ) :
    journalLine itemId ((L.write 0 (.obj fields)).take k) =
      if (L.write 0 (.obj fields)).length ≤ k ∧ selects itemId (.obj fields) = true then some (.obj fields)
      else none := by
  obtain ⟨tail, htail⟩ := L.write_obj 0 fields
  have hblank : ∀ rest, PyText.isBlank (String.ofList ('\x7b' :: rest)) = false := by
    intro rest
    rw [PyText.isBlank, String.toList_ofList, List.all_cons, Bool.and_eq_false_iff]
    exact Or.inl (by decide)
  by_cases hk : (L.write 0 (.obj fields)).length ≤ k
  · rw [List.take_of_length_le hk, journalLine, L.loads_line _ hj, htail, hblank]
    simp only [Bool.false_eq_true, if_false]
    rw [htail] at hk
    by_cases hselects : selects itemId (.obj fields) = true
    · rw [if_pos hselects, if_pos ⟨hk, hselects⟩]
    · rw [if_neg hselects, if_neg fun h => hselects h.2]
  · have hne : (L.write 0 (.obj fields)).take k ≠ L.write 0 (.obj fields) := by
      intro hsame
      have := congrArg List.length hsame
      rw [List.length_take] at this
      omega
    rw [if_neg fun h => hk h.1, journalLine, L.loads_prefix hj (List.take_prefix _ _) hne]
    simp

/-- One row, whole or cut off, or not begun. -/
lemma filterMap_cutRows (L : Json.Layout) {fields : List (String × Json)} (hj : (Json.obj fields).WellFormed)
    (itemId : String) (k : ℕ) (rest : List (List Char)) :
    (cutRows k (L.write 0 (.obj fields) :: rest)).filterMap (journalLine itemId) =
      ((if (L.write 0 (.obj fields)).length ≤ k then [Json.obj fields] else []).filter (selects itemId)) ++
        (cutRows (k - ((L.write 0 (.obj fields)).length + 1)) rest).filterMap (journalLine itemId) := by
  obtain ⟨tail, htail⟩ := L.write_obj 0 fields
  have hpos : 0 < (L.write 0 (.obj fields)).length := by
    rw [htail]
    exact Nat.succ_pos _
  rw [cutRows]
  by_cases hzero : k = 0
  · rw [if_pos hzero, hzero, if_neg (Nat.not_le.mpr hpos), Nat.zero_sub, cutRows_zero]
    rfl
  · rw [if_neg hzero, List.filterMap_cons, journalLine_take L hj]
    by_cases hk : (L.write 0 (.obj fields)).length ≤ k
    · cases hselects : selects itemId (.obj fields) <;> simp [hk, hselects]
    · simp [hk]

lemma line_eq (a : JournalAppend) : a.line = Json.Layout.plain.write 0 a.entry.toDict := rfl

lemma payload_eq (a : JournalAppend) (torn : Bool) :
    a.call.payload torn = a.before torn ++ a.line ++ ['\n'] := by
  unfold TextCall.payload JournalAppend.before JournalAppend.call
  cases torn <;> simp [encodeRows]

lemma length_pos_of_obj (L : Json.Layout) (fields : List (String × Json)) : 0 < (L.write 0 (.obj fields)).length := by
  obtain ⟨tail, htail⟩ := L.write_obj 0 fields
  rw [htail]
  exact Nat.succ_pos _

lemma written_iff {torn : Bool} {k : ℕ} (hcut : a.call.CutAt torn k) :
    a.Written torn ↔ (a.before torn).length + a.line.length ≤ k := by
  have hbound : (a.before torn ++ a.line).length ≤ (a.call.payload torn).length := by
    rw [payload_eq]
    simp
  have hle := le_cut_iff hcut hbound
  rw [payload_eq, List.take_left' rfl, List.length_append] at hle
  exact hle

lemma repairWritten_iff {k : ℕ} (hcut : a.call.CutAt true k) : a.RepairWritten true ↔ a.repairLine.length ≤ k - 1 := by
  have hpayload : a.call.payload true = ('\n' :: a.repairLine) ++ ('\n' :: (a.line ++ ['\n'])) := by
    rw [payload_eq]
    simp [JournalAppend.before]
  have hbound : ('\n' :: a.repairLine).length ≤ (a.call.payload true).length := by
    rw [hpayload, List.length_append]
    omega
  have hle := le_cut_iff hcut hbound
  rw [hpayload, List.take_left' rfl, List.length_cons] at hle
  have hpos : 0 < a.repairLine.length := length_pos_of_obj _ _
  rw [JournalAppend.RepairWritten, and_iff_right rfl]
  show (encode _).length ≤ a.call.cut ↔ _
  rw [hle]
  omega

/-- **What an append leaves** of its rows. -/
lemma left_filterMap {torn : Bool} {k : ℕ} (h : a.WellFormed) (hcut : a.call.CutAt torn k) (itemId : String) :
    ((a.call.write k).left torn).filterMap (journalLine itemId) = (a.whole torn).filter (selects itemId) := by
  have hentry : ∀ n, (cutRows n [a.line]).filterMap (journalLine itemId) =
      (if a.line.length ≤ n then [a.entry.toDict] else []).filter (selects itemId) := by
    intro n
    rw [line_eq, JournalEntry.toDict, filterMap_cutRows _ (JournalEntry.toDict_wellFormed h)]
    simp [cutRows]
  have hpos : 0 < a.line.length := length_pos_of_obj _ _
  rw [JournalAppend.whole, List.filter_append]
  cases torn with
  | false =>
      have hnone : ¬ a.RepairWritten false := fun h => absurd h.1 Bool.false_ne_true
      have hwritten : a.Written false ↔ a.line.length ≤ k := by
        rw [written_iff hcut]
        simp [JournalAppend.before]
      rw [if_neg hnone]
      show (cutRows k [a.line]).filterMap (journalLine itemId) = _
      rw [hentry]
      simp only [hwritten]
      rfl
  | true =>
      have hwritten : a.Written true ↔ a.line.length ≤ k - 1 - (a.repairLine.length + 1) := by
        rw [written_iff hcut]
        simp only [JournalAppend.before, if_true, List.length_cons, List.length_append, List.length_nil]
        omega
      show (cutRows (k - 1) (a.repairLine :: [a.line])).filterMap (journalLine itemId) = _
      rw [JournalAppend.repairLine, journalRepairEntry, filterMap_cutRows _ (journalRepairEntry_wellFormed a.now)]
      have hrepair := repairWritten_iff hcut
      rw [JournalAppend.repairLine, journalRepairEntry] at hrepair hwritten
      rw [hentry]
      simp only [hwritten, hrepair]

lemma call_clean (h : a.WellFormed) : a.call.Clean where
  records := List.cons_ne_nil _ _
  rows := by
    intro row hrow
    have hvisible : ∀ c : Char, 32 ≤ c.toNat → c ≠ '\n' := by
      rintro c hc rfl
      exact absurd hc (by decide)
    rcases List.mem_cons.mp hrow with rfl | hrow
    · have hrepair := Json.Layout.write_forall Json.spaced_characters _ (journalRepairEntry_wellFormed a.now) 0
      exact fun hmem => hvisible _ (hrepair _ hmem).1 rfl
    · rw [List.mem_singleton.mp hrow]
      have hline := Json.Layout.write_forall Json.plain_characters _ (JournalEntry.toDict_wellFormed h) 0
      exact fun hmem => hvisible _ (hline _ hmem) rfl

/-- The only breaks an append writes are line feeds. -/
lemma payload_breaks (h : a.WellFormed) (hunbroken : a.Unbroken) (torn : Bool) :
    ∀ c ∈ a.call.payload torn, isLineBreak c = true → c = '\n' := by
  have hhigh : ∀ c : Char, 32 ≤ c.toNat → c ∉ ['\u0085', '\u2028', '\u2029'] → isLineBreak c = true → c = '\n' := by
    intro c hc hnot hbreak
    unfold isLineBreak at hbreak
    simp only [List.mem_cons, List.not_mem_nil, or_false, not_or, decide_eq_true_eq] at hbreak hnot
    rcases hbreak with rfl | rfl | rfl | rfl | rfl | rfl | rfl | h | h | h
    · rfl
    all_goals first | exact absurd hc (by decide) | tauto
  have hline : ∀ c ∈ a.line, isLineBreak c = true → c = '\n' := by
    intro c hc
    have hvisible := Json.Layout.write_forall Json.plain_characters _ (JournalEntry.toDict_wellFormed h) 0
    exact hhigh c (hvisible c hc) (hunbroken c hc)
  have hrepair : ∀ c ∈ a.repairLine, isLineBreak c = true → c = '\n' := by
    intro c hc
    have hprintable := Json.Layout.write_forall Json.spaced_characters _ (journalRepairEntry_wellFormed a.now) 0
    have hc' := hprintable c hc
    refine hhigh c hc'.1 fun hmem => ?_
    have hall : ∀ d ∈ ['\u0085', '\u2028', '\u2029'], ¬ Json.Printable d := by decide
    exact hall c hmem hc'
  have hfeed : ∀ c ∈ ['\n'], isLineBreak c = true → c = '\n' := fun c hc _ => List.mem_singleton.mp hc
  rw [payload_eq]
  simp only [List.forall_mem_append]
  refine ⟨⟨?_, hline⟩, hfeed⟩
  cases torn with
  | false => exact List.forall_mem_nil _
  | true => exact List.forall_mem_cons.mpr ⟨fun _ => rfl, List.forall_mem_append.mpr ⟨hrepair, hfeed⟩⟩

/-! ## A run -/

lemma journal_eq (a : JournalAppend) (file : Bytes) : a.journal file = a.call.bytes.apply file := by
  have hrow : ∀ row : List Char, encode (row ++ ['\n']) = encodeRows newline [encode row] := by
    intro row
    rw [encode_append, encodeRows_cons]
    rfl
  rw [JournalAppend.journal, AppendCall.apply, hrow, hrow]
  rfl

/-- No append fails. -/
lemma runJournal_ok {appends : List JournalAppend} (h : ∀ a ∈ appends, a.WellFormed) (file : Bytes) :
    ∃ last found, runJournal file appends = .ok (last, found) := by
  induction appends generalizing file with
  | nil => exact ⟨file, [], rfl⟩
  | cons a rest ih =>
      have hrecords : a.call.bytes.records ≠ [] := List.cons_ne_nil _ _
      obtain ⟨last, found, hrest⟩ := ih (fun b hb => h b (List.mem_cons_of_mem _ hb)) (a.call.bytes.write.apply newline file)
      refine ⟨last, (a, endsWithoutNewline file) :: found, ?_⟩
      rw [runJournal, journal_eq, apply_eq hrecords]
      show (runJournal (a.call.bytes.write.apply newline file) rest).bind _ = _
      rw [hrest]
      rfl

/-- A run over a file of text: the file is a text still, and its lines read as those that were there and the rows
that are whole. -/
lemma runJournal_lines {appends : List JournalAppend} (h : ∀ a ∈ appends, a.WellFormed ∧ a.Unbroken)
    (text : List Char) (htext : ∀ c ∈ text, isLineBreak c = true → c = '\n') {file : Bytes}
    {found : List (JournalAppend × Bool)} (hrun : runJournal (encode text) appends = .ok (file, found))
    (hcuts : ∀ p ∈ found, p.1.AtCharacter p.2) :
    ∃ text', file = encode text' ∧ (∀ c ∈ text', isLineBreak c = true → c = '\n') ∧
      ∀ itemId, (lines '\n' text').filterMap (journalLine itemId) =
        (lines '\n' text).filterMap (journalLine itemId) ++
          (found.flatMap fun p => p.1.whole p.2).filter (selects itemId) := by
  induction appends generalizing text found with
  | nil =>
      cases hrun
      exact ⟨text, rfl, htext, fun itemId => (List.append_nil _).symm⟩
  | cons a rest ih =>
      obtain ⟨hform, hunbroken⟩ := h a List.mem_cons_self
      rw [runJournal, journal_eq] at hrun
      obtain ⟨after, hafter, hrun⟩ := Except.bind_eq_ok hrun
      obtain ⟨⟨last, others⟩, hothers, hrun⟩ := Except.bind_eq_ok hrun
      cases hrun
      obtain ⟨⟨k, hcut⟩, hcuts⟩ := List.forall_mem_cons.mp hcuts
      rw [endsWithoutNewline_eq, torn_encode] at hcut
      obtain ⟨happly, hlines⟩ := textCall_lines (call_clean hform) hcut
      rw [happly] at hafter
      cases hafter
      have hbreaks : ∀ c ∈ text ++ (a.call.payload (torn '\n' text)).take k, isLineBreak c = true → c = '\n' :=
        List.forall_mem_append.mpr
          ⟨htext, fun c hc => payload_breaks hform hunbroken _ c (List.mem_of_mem_take hc)⟩
      obtain ⟨text', hfile, hbreaks', hread⟩ :=
        ih (fun b hb => h b (List.mem_cons_of_mem _ hb)) _ hbreaks hothers hcuts
      refine ⟨text', hfile, hbreaks', fun itemId => ?_⟩
      rw [hread, hlines, List.filterMap_append, left_filterMap hform hcut, List.flatMap_cons, List.filter_append,
        endsWithoutNewline_eq, torn_encode, List.append_assoc]

lemma selects_all (j : Json) : selects "" j = true := rfl

lemma selects_repair {itemId : String} (h : itemId ≠ "") (now : String) :
    selects itemId (journalRepairEntry now) = false := by
  simp [selects, h, journalRepairEntry, Json.get?, List.lookup_cons]

lemma selects_entry {itemId : String} (h : itemId ≠ "") (e : JournalEntry) :
    selects itemId e.toDict = decide (e.itemId = itemId) := by
  simp [selects, h, JournalEntry.toDict, Json.get?, List.lookup_cons]

/-- The rows of one item: no repair row is among them. -/
lemma filter_whole {itemId : String} (h : itemId ≠ "") (found : List (JournalAppend × Bool)) :
    (found.flatMap fun p => p.1.whole p.2).filter (selects itemId) =
      (found.filter fun p => p.1.Written p.2 ∧ p.1.entry.itemId = itemId).map fun p => p.1.entry.toDict := by
  induction found with
  | nil => rfl
  | cons p rest ih =>
      have hone : (p.1.whole p.2).filter (selects itemId) =
          if p.1.Written p.2 ∧ p.1.entry.itemId = itemId then [p.1.entry.toDict] else [] := by
        unfold JournalAppend.whole
        by_cases hrepair : p.1.RepairWritten p.2 <;> by_cases hwritten : p.1.Written p.2 <;>
          by_cases hid : p.1.entry.itemId = itemId <;>
          simp [hrepair, hwritten, hid, selects_repair h, selects_entry h]
      rw [List.flatMap_cons, List.filter_append, ih, hone, List.filter_cons]
      by_cases hkeep : p.1.Written p.2 ∧ p.1.entry.itemId = itemId
      · rw [if_pos hkeep, if_pos (decide_eq_true hkeep)]
        rfl
      · rw [if_neg hkeep, if_neg (by simpa using hkeep)]
        rfl

/-- **What the journal gives back.**  After any sequence of appends, each cut off between two characters, whose
texts have no line break that the writer leaves as it is: the read of one item is its entries that were written,
in order; the read of the whole journal is the entries that were written, and in front of an entry the repair row
of the tear it found. -/
theorem journal_read {appends : List JournalAppend} (h : ∀ a ∈ appends, a.WellFormed ∧ a.Unbroken) :
    ∃ file found, runJournal [] appends = .ok (file, found) ∧
      ((∀ p ∈ found, p.1.AtCharacter p.2) →
        journalEntries file = found.flatMap (fun p => p.1.whole p.2) ∧
        ∀ itemId ≠ "", journalEntries file itemId =
          (found.filter fun p => p.1.Written p.2 ∧ p.1.entry.itemId = itemId).map fun p => p.1.entry.toDict) := by
  obtain ⟨file, found, hrun⟩ := runJournal_ok (fun a ha => (h a ha).1) []
  refine ⟨file, found, hrun, fun hcuts => ?_⟩
  obtain ⟨text, rfl, hbreaks, hread⟩ := runJournal_lines h [] nofun hrun hcuts
  have hentries : ∀ itemId, journalEntries (encode text) itemId =
      (found.flatMap fun p => p.1.whole p.2).filter (selects itemId) := by
    intro itemId
    rw [journalEntries, decodeUtf8_encode_eq]
    show (splitlines text).filterMap _ = _
    rw [splitlines_eq hbreaks, hread, lines_nil]
    rfl
  constructor
  · rw [hentries, List.filter_eq_self.mpr fun j _ => selects_all j]
  · intro itemId hid
    rw [hentries, filter_whole hid]

/-! ### A torn entry -/

/-- Two transitions of an item; the row of the first is cut off after five bytes. -/
def tornAppends : List JournalAppend :=
  [{ entry := { ts := "t1", itemId := "q-1", fromState := "queued", toState := "leased" }, now := "t1", cut := 5 },
   { entry := { ts := "t2", itemId := "q-1", fromState := "leased", toState := "running" }, now := "t2"
     cut := 1000 }]

lemma tornAppends_form : ∀ a ∈ tornAppends, a.WellFormed ∧ a.Unbroken := by
  intro a ha
  simp only [tornAppends, List.mem_cons, List.not_mem_nil, or_false] at ha
  rcases ha with rfl | rfl <;>
    exact ⟨by simp [JournalAppend.WellFormed, Json.WellFormed, Json.FieldsWellFormed],
      by unfold JournalAppend.Unbroken; decide +kernel⟩

theorem journal_read_torn :
    ∃ file found, runJournal [] tornAppends = .ok (file, found) ∧
      ((∀ p ∈ found, p.1.AtCharacter p.2) →
        journalEntries file = found.flatMap (fun p => p.1.whole p.2) ∧
        ∀ itemId ≠ "", journalEntries file itemId =
          (found.filter fun p => p.1.Written p.2 ∧ p.1.entry.itemId = itemId).map fun p => p.1.entry.toDict) :=
  journal_read tornAppends_form

/-- The journal of these appends. -/
def tornJournal : List Char :=
  tornAppends.flatMap fun a => if a.cut = 5 then a.line.take 5 else '\n' :: (a.repairLine ++ '\n' :: (a.line ++ ['\n']))

/-- **The read of the whole journal has a row that is no entry**: one entry was written, and two rows are read. -/
theorem journal_read_repair :
    ((runJournal [] tornAppends).map fun run => (run.1, (run.2.filter fun p => p.1.Written p.2).length)) =
        .ok (encode tornJournal, 1) ∧
      (journalEntries (encode tornJournal)).length = 2 := by
  refine ⟨by decide +kernel, ?_⟩
  rw [journalEntries, decodeUtf8_encode_eq]
  decide +kernel

end Kstrl
