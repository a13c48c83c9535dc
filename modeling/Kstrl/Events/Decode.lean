import Kstrl.Base.PyText
import Kstrl.Base.Rows
import Kstrl.Events.Catalog

/-!
# Reading the event stream

The decoding of `kstrl/events/events.py`: `_coerce`, `_envelope_kwargs`, `event_from_dict` and `parse_event_line`.

`float` of an integer raises `OverflowError` where the integer is beyond the range, and nothing around the two
places that call it catches it.

* **`parse_toJsonLine`**: an event reads back from its line.
* **`eventFromDict_ok_iff`**, **`parseEventLine_ok_iff`**: what is read without an exception.
* `beyond_range_raises` is a line that is not.
-/

namespace Kstrl

namespace Events

namespace Catalog

/-! ## Decoding -/

/-- What escapes from a reader. -/
inductive DecodeError where
  /-- `OverflowError: int too large to convert to float` -/
  | overflow
  deriving DecidableEq, Repr

/-- The first integer that rounds to no `float`: half way between the largest one and `2 ** 1024`. -/
def floatLimit : ℕ := 2 ^ 1024 - 2 ^ 970

/-- `float(n)`: the `float` of the literal with this value. -/
def PyFloat.ofInt (n : ℤ) : Except DecodeError PyFloat :=
  if n.natAbs < floatLimit then .ok ⟨String.ofList (Json.intText n) ++ ".0"⟩ else .error .overflow

/-- `_coerce`. -/
def Default.coerce : (d : Default) → Json → Except DecodeError d.Value
  | none, j => .ok j
  | bool b, j => .ok (match j with | .bool v => v | _ => b)
  | float x, j =>
      match j with
      | .int n => PyFloat.ofInt n
      | .float text => .ok ⟨text⟩
      | _ => .ok x
  | int n, j => .ok (match j with | .int v => v | _ => n)
  | str s, j => .ok (match j with | .str v => v | _ => s)
  | tuple, j => .ok (match j with | .arr l => l | _ => [])

/-- A field, from `data` or its default. -/
def valueOf (data : List (String × Json)) (name : String) (d : Default) : Except DecodeError d.Value :=
  match data.lookup name with
  | some j => d.coerce j
  | none => .ok d.value

/-- The payload of a class. -/
def Payload.decode (data : List (String × Json)) : (fields : List Field) → Except DecodeError (Payload fields)
  | [] => .ok .nil
  | (name, d) :: fields => do
      let value ← valueOf data name d
      let rest ← decode data fields
      .ok (.cons value rest)

/-- `ts` of an envelope. -/
def tsOf (obj : List (String × Json)) : Except DecodeError PyFloat :=
  match obj.lookup "ts" with
  | some (.int n) => PyFloat.ofInt n
  | some (.float text) => .ok ⟨text⟩
  | _ => .ok ⟨"0.0"⟩

/-- `_envelope_kwargs`. -/
def envelopeKwargs (obj : List (String × Json)) : Except DecodeError Envelope := do
  let ts ← tsOf obj
  .ok
    { ts
      runId := (Json.obj obj).asStr "run_id"
      component := (Json.obj obj).asStr "component"
      source := (Json.obj obj).asStr "source" "orchestrator"
      seq := (Json.obj obj).asInt "seq" 0
      kstrlVersion := (Json.obj obj).asStr "kstrl_version" }

/-- `obj.get("event")`, or the empty text where it is none. -/
def typeName (obj : List (String × Json)) : String := (Json.obj obj).asStr "event"

/-- `obj.get("data")`, where it is an object. -/
def rawData (obj : List (String × Json)) : List (String × Json) :=
  match obj.lookup "data" with
  | some (.obj data) => data
  | _ => []

/-- `event_from_dict`. -/
def eventFromDict (obj : List (String × Json)) : Except DecodeError Event := do
  let envelope ← envelopeKwargs obj
  match EventClass.ofType? (typeName obj) with
  | none => .ok (.unknown (typeName obj) obj envelope)
  | some cls => do
      let payload ← Payload.decode (rawData obj) cls.fields
      .ok (.known cls payload envelope)

/-- The object of a line. -/
def objectOf? (line : String) : Option (List (String × Json)) :=
  if PyText.strip line = "" then none
  else
    match Json.loadsWithin (PyText.strip line) with
    | some (.obj obj) => some obj
    | _ => none

/-- `parse_event_line`. -/
def parseEventLine (line : String) : Except DecodeError (Option Event) :=
  match objectOf? line with
  | some obj => (eventFromDict obj).map some
  | none => .ok none

/-- The events of the lines of a file, as `read_events` collects them. -/
def readEvents (lines : List String) : Except DecodeError (List Event) :=
  lines.foldlM (fun events line => do
    let event ← parseEventLine line
    .ok (events ++ event.toList)) []

/-! ## When the reader raises -/

/-- An integer that has no `float`. -/
def TooLarge : Option Json → Prop
  | some (.int n) => floatLimit ≤ n.natAbs
  | _ => False

instance (j : Option Json) : Decidable (TooLarge j) := by
  unfold TooLarge
  split <;> infer_instance

/-- Such an integer stands where the reader takes a `float`. -/
def Overflows (obj : List (String × Json)) : Prop :=
  TooLarge (obj.lookup "ts") ∨
    ∃ cls : EventClass, cls.type = typeName obj ∧
      ∃ name x, (name, Default.float x) ∈ cls.fields ∧ TooLarge ((rawData obj).lookup name)

lemma ofInt_ok_iff {n : ℤ} : (∃ x, PyFloat.ofInt n = .ok x) ↔ n.natAbs < floatLimit := by
  unfold PyFloat.ofInt
  split_ifs with h
  · exact iff_of_true ⟨_, rfl⟩ h
  · exact iff_of_false nofun h

/-- A field is read unless it is such an integer. -/
lemma coerce_ok_iff {d : Default} {j : Json} :
    (∃ value, d.coerce j = .ok value) ↔ ∀ x, d = .float x → ¬TooLarge (some j) := by
  cases d with
  | float x =>
      cases j with
      | int n => exact ofInt_ok_iff.trans ⟨fun h _ _ => not_le.mpr h, fun h => not_le.mp (h x rfl)⟩
      | _ => exact iff_of_true ⟨_, rfl⟩ fun _ _ => id
  | _ => exact iff_of_true ⟨_, rfl⟩ nofun

lemma valueOf_ok_iff {data : List (String × Json)} {name : String} {d : Default} :
    (∃ value, valueOf data name d = .ok value) ↔ ∀ x, d = .float x → ¬TooLarge (data.lookup name) := by
  unfold valueOf
  cases data.lookup name with
  | none => exact iff_of_true ⟨_, rfl⟩ fun _ _ => id
  | some j => exact coerce_ok_iff

/-- **A payload is read** unless one of its fields is. -/
lemma decode_ok_iff {data : List (String × Json)} (fields : List Field) :
    (∃ payload, Payload.decode data fields = .ok payload) ↔
      ∀ name x, (name, Default.float x) ∈ fields → ¬TooLarge (data.lookup name) := by
  induction fields with
  | nil => exact iff_of_true ⟨_, rfl⟩ nofun
  | cons field fields ih =>
      obtain ⟨name, d⟩ := field
      constructor
      · rintro ⟨payload, hpayload⟩ name' x hmem
        obtain ⟨value, hvalue, hrest⟩ := Except.bind_eq_ok hpayload
        obtain ⟨rest, hdecode, -⟩ := Except.bind_eq_ok hrest
        rcases List.mem_cons.mp hmem with heq | hmem
        · obtain ⟨rfl, hd⟩ := Prod.mk.inj heq
          exact valueOf_ok_iff.mp ⟨value, hvalue⟩ x hd.symm
        · exact ih.mp ⟨rest, hdecode⟩ name' x hmem
      · intro h
        obtain ⟨value, hvalue⟩ := valueOf_ok_iff.mpr fun x hd => h name x (hd ▸ List.mem_cons_self)
        obtain ⟨rest, hrest⟩ := ih.mpr fun name' x hmem => h name' x (List.mem_cons_of_mem _ hmem)
        exact ⟨.cons value rest, by rw [Payload.decode, hvalue, hrest]; rfl⟩

lemma tsOf_ok_iff {obj : List (String × Json)} : (∃ ts, tsOf obj = .ok ts) ↔ ¬TooLarge (obj.lookup "ts") := by
  unfold tsOf
  cases obj.lookup "ts" with
  | none => exact iff_of_true ⟨_, rfl⟩ id
  | some j =>
      cases j with
      | int n => exact ofInt_ok_iff.trans not_le.symm
      | _ => exact iff_of_true ⟨_, rfl⟩ id

lemma envelopeKwargs_ok_iff {obj : List (String × Json)} :
    (∃ envelope, envelopeKwargs obj = .ok envelope) ↔ ¬TooLarge (obj.lookup "ts") := by
  rw [← tsOf_ok_iff, envelopeKwargs]
  cases tsOf obj with
  | error err => exact iff_of_false nofun nofun
  | ok ts => exact iff_of_true ⟨_, rfl⟩ ⟨ts, rfl⟩

lemma ofType?_eq_some {name : String} {cls : EventClass} :
    EventClass.ofType? name = some cls ↔ cls.type = name := by
  constructor
  · intro h
    have htype := List.find?_some h
    exact of_decide_eq_true htype
  · rintro rfl
    exact EventClass.ofType?_type cls

/-- **What is decoded.** -/
theorem eventFromDict_ok_iff (obj : List (String × Json)) :
    (∃ e, eventFromDict obj = .ok e) ↔ ¬Overflows obj := by
  rw [Overflows, not_or, ← envelopeKwargs_ok_iff]
  unfold eventFromDict
  cases henvelope : envelopeKwargs obj with
  | error err => exact iff_of_false (fun ⟨_, h⟩ => nomatch h) fun ⟨⟨_, h⟩, _⟩ => nomatch h
  | ok envelope =>
      cases hcls : EventClass.ofType? (typeName obj) with
      | none =>
          refine iff_of_true ⟨_, rfl⟩ ⟨⟨_, rfl⟩, ?_⟩
          rintro ⟨cls, htype, -⟩
          rw [ofType?_eq_some.mpr htype] at hcls
          cases hcls
      | some cls =>
          have hpayload : (∃ payload, Payload.decode (rawData obj) cls.fields = .ok payload) ↔
              ¬∃ cls : EventClass, cls.type = typeName obj ∧
                ∃ name x, (name, Default.float x) ∈ cls.fields ∧ TooLarge ((rawData obj).lookup name) := by
            rw [decode_ok_iff]
            constructor
            · rintro h ⟨cls', htype, name, x, hmem, htoo⟩
              cases hcls.symm.trans (ofType?_eq_some.mpr htype)
              exact h name x hmem htoo
            · exact fun h name x hmem htoo => h ⟨cls, ofType?_eq_some.mp hcls, name, x, hmem, htoo⟩
          rw [← hpayload]
          constructor
          · rintro ⟨e, he⟩
            have hread : (Payload.decode (rawData obj) cls.fields).bind
              (fun payload => Except.ok (.known cls payload envelope)) = Except.ok e := he
            obtain ⟨payload, hdecode, -⟩ := Except.bind_eq_ok hread
            exact ⟨⟨_, rfl⟩, payload, hdecode⟩
          · rintro ⟨-, payload, hdecode⟩
            refine ⟨.known cls payload envelope, ?_⟩
            show (Payload.decode (rawData obj) cls.fields >>= fun payload => Except.ok _) = _
            rw [hdecode]
            rfl

/-- **What is read of a line.** -/
theorem parseEventLine_ok_iff (line : String) :
    (∃ event, parseEventLine line = .ok event) ↔ ∀ obj, objectOf? line = some obj → ¬Overflows obj := by
  unfold parseEventLine
  cases hobject : objectOf? line with
  | none => exact iff_of_true ⟨_, rfl⟩ nofun
  | some obj =>
      have hread : (∃ event, (eventFromDict obj).map some = .ok event) ↔ ∃ e, eventFromDict obj = .ok e := by
        cases eventFromDict obj with
        | error err => exact iff_of_false (fun ⟨_, h⟩ => nomatch h) fun ⟨_, h⟩ => nomatch h
        | ok e => exact iff_of_true ⟨_, rfl⟩ ⟨e, rfl⟩
      exact (hread.trans (eventFromDict_ok_iff obj)).trans
        ⟨fun h _ heq => Option.some.inj heq ▸ h, fun h => h obj rfl⟩

/-- One such line, and nothing of the file is read. -/
theorem readEvents_ok_iff (lines : List String) :
    (∃ events, readEvents lines = .ok events) ↔
      ∀ line ∈ lines, ∀ obj, objectOf? line = some obj → ¬Overflows obj := by
  have hfold : ∀ read : List Event, (∃ events, lines.foldlM (fun events line => do
      let event ← parseEventLine line
      .ok (events ++ event.toList)) read = Except.ok (ε := DecodeError) events) ↔
        ∀ line ∈ lines, ∃ event, parseEventLine line = .ok event := by
    induction lines with
    | nil => exact fun read => iff_of_true ⟨read, rfl⟩ nofun
    | cons line lines ih =>
        intro read
        rw [List.foldlM_cons, List.forall_mem_cons]
        cases hline : parseEventLine line with
        | error err => exact iff_of_false (fun ⟨_, h⟩ => nomatch h) fun ⟨⟨_, h⟩, _⟩ => nomatch h
        | ok event => exact (ih (read ++ event.toList)).trans ⟨fun h => ⟨⟨_, rfl⟩, h⟩, fun h => h.2⟩
  rw [readEvents, hfold []]
  exact forall₂_congr fun line _ => parseEventLine_ok_iff line

/-! ## The round trip -/

/-- An object is read back from its line. -/
lemma objectOf?_line {obj : List (String × Json)} (hobj : (Json.obj obj).WellFormed) {line : String}
    (hline : Json.dumpsWithin .compact (.obj obj) = some line) : objectOf? line = some obj := by
  have hloads : Json.loadsWithin line = some (.obj obj) :=
    Json.Layout.loadsWithin_dumpsWithin (Json.escapes_line _ _) hobj hline
  unfold Json.dumpsWithin at hline
  split_ifs at hline
  cases hline
  obtain ⟨tail, hfirst⟩ := Json.Layout.compact.write_obj 0 obj
  obtain ⟨head, hlast⟩ := Json.Layout.compact.write_obj_last 0 obj
  have hstrip : PyText.strip (Json.dumpsIn .compact (.obj obj)) = Json.dumpsIn .compact (.obj obj) :=
    PyText.strip_eq hfirst hlast (by decide) (by decide)
  have hne : Json.dumpsIn .compact (.obj obj) ≠ "" := by
    intro hempty
    have hchars := congrArg String.toList hempty
    rw [Json.dumpsIn, String.toList_ofList, hfirst] at hchars
    cases hchars
  rw [objectOf?, hstrip, if_neg hne, hloads]

@[simp] lemma coerce_encode {d : Default} (value : d.Value) : d.coerce (d.encode value) = .ok value := by
  cases d <;> rfl

/-- A payload is read from any object that has its fields. -/
lemma decode_of_lookup {fields : List Field} {data : List (String × Json)} (payload : Payload fields)
    (h : ∀ name j, (name, j) ∈ payload.document → data.lookup name = some j) :
    Payload.decode data fields = .ok payload := by
  induction payload with
  | nil => rfl
  | @cons name d fields value rest ih =>
      have hvalue : valueOf data name d = .ok value := by
        rw [valueOf, h name (d.encode value) List.mem_cons_self]
        exact coerce_encode value
      rw [Payload.decode, hvalue, ih fun name j hmem => h name j (List.mem_cons_of_mem _ hmem)]
      rfl

lemma decode_document (cls : EventClass) (payload : Payload cls.fields) :
    Payload.decode payload.document cls.fields = .ok payload := by
  refine decode_of_lookup payload fun name j hmem => Rows.lookup_of_mem ?_ hmem
  rw [Payload.map_document]
  exact cls.fields_nodup

lemma envelopeKwargs_toDict (envelope : Envelope) (type : String) (data : List (String × Json)) :
    envelopeKwargs (envelope.toDict type data) = .ok envelope := rfl

lemma typeName_toDict (envelope : Envelope) (type : String) (data : List (String × Json)) :
    typeName (envelope.toDict type data) = type := rfl

lemma rawData_toDict (envelope : Envelope) (type : String) (data : List (String × Json)) :
    rawData (envelope.toDict type data) = data := rfl

lemma eventFromDict_of_registered {obj : List (String × Json)} {envelope : Envelope} {cls : EventClass}
    {payload : Payload cls.fields} (henvelope : envelopeKwargs obj = .ok envelope)
    (hcls : EventClass.ofType? (typeName obj) = some cls)
    (hpayload : Payload.decode (rawData obj) cls.fields = .ok payload) :
    eventFromDict obj = .ok (.known cls payload envelope) := by
  unfold eventFromDict
  rw [henvelope, hcls]
  show (Payload.decode (rawData obj) cls.fields >>= fun payload => Except.ok _) = _
  rw [hpayload]
  rfl

lemma eventFromDict_of_unregistered {obj : List (String × Json)} {envelope : Envelope}
    (henvelope : envelopeKwargs obj = .ok envelope) (hcls : EventClass.ofType? (typeName obj) = none) :
    eventFromDict obj = .ok (.unknown (typeName obj) obj envelope) := by
  unfold eventFromDict
  rw [henvelope, hcls]
  rfl

/-- A placeholder is the one the reader makes of what it holds. -/
def Event.Genuine : Event → Prop
  | known _ _ _ => True
  | unknown name raw envelope =>
      raw ≠ [] ∧ EventClass.ofType? (typeName raw) = none ∧ name = typeName raw ∧ envelopeKwargs raw = .ok envelope

lemma eventFromDict_unknown_iff {name : String} {obj raw : List (String × Json)} {envelope : Envelope} :
    eventFromDict obj = .ok (.unknown name raw envelope) ↔
      raw = obj ∧ EventClass.ofType? (typeName obj) = none ∧ name = typeName obj ∧ envelopeKwargs obj = .ok envelope := by
  constructor
  · intro h
    unfold eventFromDict at h
    obtain ⟨envelope', henvelope, hrest⟩ := Except.bind_eq_ok h
    cases hcls : EventClass.ofType? (typeName obj) with
    | none =>
        rw [hcls] at hrest
        cases hrest
        exact ⟨rfl, rfl, rfl, henvelope⟩
    | some cls =>
        rw [hcls] at hrest
        obtain ⟨payload, -, hknown⟩ := Except.bind_eq_ok hrest
        cases hknown
  · rintro ⟨rfl, hcls, rfl, henvelope⟩
    exact eventFromDict_of_unregistered henvelope hcls

/-- **An event reads back from its line.** -/
theorem parse_toJsonLine {e : Event} (he : e.Represented) {line : String} (hline : e.toJsonLine = some line) :
    parseEventLine line = .ok (some e) ↔ e.Genuine := by
  have hobject : objectOf? line = some e.toDict := objectOf?_line (Event.toDict_wellFormed he) hline
  have hparse : parseEventLine line = .ok (some e) ↔ eventFromDict e.toDict = .ok e := by
    rw [parseEventLine, hobject]
    show (eventFromDict e.toDict).map some = _ ↔ _
    cases eventFromDict e.toDict with
    | error err => exact iff_of_false nofun nofun
    | ok e' => exact ⟨fun h => by cases h; rfl, fun h => by cases h; rfl⟩
  rw [hparse]
  cases e with
  | known cls payload envelope =>
      refine iff_of_true (eventFromDict_of_registered (envelopeKwargs_toDict _ _ _) ?_ ?_) trivial
      · show EventClass.ofType? (typeName (envelope.toDict cls.type payload.document)) = _
        rw [typeName_toDict, EventClass.ofType?_type]
      · show Payload.decode (rawData (envelope.toDict cls.type payload.document)) cls.fields = _
        rw [rawData_toDict, decode_document]
  | unknown name raw envelope =>
      rw [eventFromDict_unknown_iff, Event.toDict, Event.Genuine]
      split_ifs with hraw
      · refine iff_of_false (fun h => ?_) fun h => h.1 hraw
        rw [hraw] at h
        cases h.1
      · exact ⟨fun h => ⟨hraw, h.2⟩, fun h => ⟨rfl, h.2⟩⟩

/-! ## The stream -/

/-- **The event stream.**  An event reads back from its line if and only if it is no placeholder or one that the
reader makes; and the reader gives an event, a placeholder or nothing if and only if no integer beyond the range
of a `float` stands where it takes one. -/
theorem decode_total_iff (e : Event) (written line : String) (obj : List (String × Json)) :
    (e.Represented → e.toJsonLine = some written → (parseEventLine written = .ok (some e) ↔ e.Genuine)) ∧
      ((∃ e, eventFromDict obj = .ok e) ↔ ¬Overflows obj) ∧
        ((∃ event, parseEventLine line = .ok event) ↔ ∀ obj, objectOf? line = some obj → ¬Overflows obj) :=
  ⟨fun he hline => parse_toJsonLine he hline, eventFromDict_ok_iff obj, parseEventLine_ok_iff line⟩

/-- A heartbeat. -/
def heartbeat : Event :=
  .known .workerHeartbeat (.cons (4711 : ℤ) (.cons ⟨"2.5"⟩ .nil)) { ts := ⟨"1700000000.0"⟩, seq := 3 }

/-- It is read back. -/
theorem decode_total_heartbeat :
    ∃ line, heartbeat.toJsonLine = some line ∧ parseEventLine line = .ok (some heartbeat) := by
  have hfits : (Json.obj heartbeat.toDict).fits = true := by decide +kernel
  have hline : heartbeat.toJsonLine = some (Json.dumpsIn .compact (.obj heartbeat.toDict)) := by
    rw [Event.toJsonLine, Json.dumpsWithin, if_pos hfits]
  have hrepresented : heartbeat.Represented :=
    ⟨⟨trivial, show Json.FloatText "2.5" by decide +kernel, trivial⟩,
      show Json.FloatText "1700000000.0" by decide +kernel⟩
  exact ⟨_, hline, ((decode_total_iff heartbeat _ "" []).1 hrepresented hline).mpr trivial⟩

/-- An integer of 401 digits. -/
def largeTs : ℤ := 10 ^ 400

/-- An object of a line with this integer. -/
def beyondRange : List (String × Json) := [("event", .str "worker_heartbeat"), ("ts", .int largeTs)]

/-- **The reader raises.** -/
theorem beyond_range_raises : parseEventLine (Json.dumpsIn .compact (.obj beyondRange)) = .error .overflow := by
  have hfits : (Json.obj beyondRange).fits = true := by decide +kernel
  have hwellFormed : (Json.obj beyondRange).WellFormed := ⟨by decide, trivial, trivial, trivial⟩
  have hobject : objectOf? (Json.dumpsIn .compact (.obj beyondRange)) = some beyondRange := by
    refine objectOf?_line hwellFormed ?_
    rw [Json.dumpsWithin, if_pos hfits]
  have hlarge : ¬largeTs.natAbs < floatLimit := by decide +kernel
  have hts : tsOf beyondRange = .error .overflow := by
    show PyFloat.ofInt largeTs = _
    rw [PyFloat.ofInt, if_neg hlarge]
  rw [parseEventLine, hobject]
  show (envelopeKwargs beyondRange >>= _).map some = _
  rw [envelopeKwargs, hts]
  rfl

end Catalog

end Events

end Kstrl
