import Kstrl.Base.JsonLayout
import Kstrl.Base.SortedSet
import Mathlib.Data.Prod.Lex
import Mathlib.Data.String.Basic

/-!
# The retry context

`IterationContext` of `kstrl/pipeline/context.py`: what the attempts of a component recorded, how it is sorted
into what is current, what was not measured again and what is resolved, and its text.

A phase is one of `PHASE_RANK`; an entry of another phase, or a value of another type, is refused by `fromJson`
here, where the source fails when it uses it.

* **`buckets_perm`**, **`buckets_disjoint`**: every entry is in one bucket.
* **`fromJson_toJson`**: a context is read back as it was.
-/

namespace Kstrl

namespace Pipeline

/-! ## Phases -/

/-- The keys of `PHASE_RANK`. -/
inductive Phase where
  | engineer
  | verification
  | acceptance
  | diff
  | review
  | security
  | contract
  | pr
  deriving DecidableEq, Repr

namespace Phase

def value : Phase → String
  | engineer => "engineer"
  | verification => "verification"
  | acceptance => "acceptance"
  | diff => "diff"
  | review => "review"
  | security => "security"
  | contract => "contract"
  | pr => "pr"

/-- `PHASE_RANK`. -/
def rank : Phase → ℤ
  | engineer => 0
  | verification => 1
  | acceptance => 2
  | diff => 3
  | review => 4
  | security => 5
  | contract => 6
  | pr => 7

/-- `SKIPPABLE_PHASES`. -/
def skippable (p : Phase) : Bool := p ∈ [review, security]

/-- The phase of a name. -/
def ofValue? (name : String) : Option Phase :=
  [engineer, verification, acceptance, diff, review, security, contract, pr].find? fun p => p.value = name

@[simp] lemma ofValue?_value (p : Phase) : ofValue? p.value = some p := by
  cases p <;> decide

lemma value_injective : Function.Injective value := fun p q h => by
  rw [← Option.some_inj, ← ofValue?_value p, ← ofValue?_value q, h]

lemma rank_injective : Function.Injective rank := by
  intro p q h
  cases p <;> cases q <;> first | rfl | cases h

end Phase

/-! ## Entries -/

/-- `LEGACY_ATTEMPT`. -/
def legacyAttempt : ℤ := 0

/-- The record of an attempt. -/
structure IterationRecord where
  iteration : ℤ
  success : Bool
  error : Option String := none
  summary : String := ""
  attempt : ℤ := legacyAttempt
  deriving DecidableEq, Repr

/-- A failure, the attempt it was measured in, and the phase that measured it. -/
structure FailureEntry where
  attempt : ℤ
  phase : Phase
  text : String
  /-- the check did not run -/
  infrastructure : Bool := false
  deriving DecidableEq, Repr

/-- A phase ran in an attempt, and gave a verdict. -/
structure PhaseReading where
  attempt : ℤ
  phase : Phase
  deriving DecidableEq, Repr

namespace PhaseReading

/-- `(r.attempt, r.phase)`. -/
def key (r : PhaseReading) : ℤ ×ₗ String := toLex (r.attempt, r.phase.value)

lemma key_injective : Function.Injective key := fun r r' h => by
  obtain ⟨hattempt, hphase⟩ := Prod.ext_iff.mp (toLex.injective h)
  cases r
  cases r'
  cases hattempt
  cases Phase.value_injective hphase
  rfl

instance : LinearOrder PhaseReading := LinearOrder.lift' key key_injective

end PhaseReading

structure IterationContext where
  records : List IterationRecord := []
  entries : List FailureEntry := []
  readings : SortedSet PhaseReading := ∅

namespace IterationContext

variable (ctx : IterationContext)

/-! ## Recording -/

def addIteration (record : IterationRecord) : IterationContext := { ctx with records := ctx.records ++ [record] }

/-- `add_phase_reading`. -/
def addPhaseReading (phase : Phase) (attempt : ℤ) : IterationContext :=
  { ctx with readings := insert { attempt, phase } ctx.readings }

/-- `_add`. -/
def add (text : String) (attempt : ℤ) (phase : Phase) (infrastructure : Bool := false) : IterationContext :=
  if text = "" then ctx
  else { ctx with entries := ctx.entries ++ [{ attempt, phase, text, infrastructure }] }

/-! ## Buckets -/

/-- `max(l, default=0)`. -/
def maxOr : List ℤ → ℤ
  | [] => 0
  | x :: l => l.foldl max x

/-- `_latest_attempt`. -/
def latestAttempt : ℤ :=
  max (max (maxOr (ctx.entries.map (·.attempt))) (maxOr (ctx.records.map (·.attempt)))) ctx.records.length

/-- `_phases_read_in`. -/
def phasesReadIn (attempt : ℤ) : List Phase := (ctx.readings.toList.filter (·.attempt = attempt)).map (·.phase)

/-- The entries of the latest attempt. -/
def latest : List FailureEntry := ctx.entries.filter (·.attempt = ctx.latestAttempt)

/-- `q`, the rank of the gate that fired. -/
def gateRank : ℤ := if ctx.latest = [] then -1 else maxOr (ctx.latest.map (·.phase.rank))

def measuredRanks : List ℤ := (ctx.latest.filter (!·.infrastructure)).map (·.phase.rank)

structure Buckets where
  current : List FailureEntry := []
  notRemeasured : List FailureEntry := []
  resolved : List FailureEntry := []
  measuredAttempt : ℤ

inductive Bucket where
  | current
  | notRemeasured
  | resolved
  deriving DecidableEq, Repr

/-- Where an entry goes. -/
def bucketOf (e : FailureEntry) : Bucket :=
  if e.attempt = legacyAttempt then .notRemeasured
  else if e.attempt = ctx.latestAttempt then .current
  else if e.phase.rank = ctx.gateRank then
    if ctx.gateRank ∈ ctx.measuredRanks then .resolved else .notRemeasured
  else if e.phase.skippable then
    if e.phase ∈ ctx.phasesReadIn ctx.latestAttempt then .resolved else .notRemeasured
  else if e.phase.rank < ctx.gateRank then .resolved
  else .notRemeasured

/-- An entry is put into its bucket. -/
def Buckets.put (b : Buckets) (e : FailureEntry) : Bucket → Buckets
  | .current => { b with current := b.current ++ [e] }
  | .notRemeasured => { b with notRemeasured := b.notRemeasured ++ [e] }
  | .resolved => { b with resolved := b.resolved ++ [e] }

/-- `_buckets`. -/
def buckets : Buckets :=
  ctx.entries.foldl (fun b e => b.put e (ctx.bucketOf e)) { measuredAttempt := ctx.latestAttempt }

/-! ## The text -/

end IterationContext

def IterationRecord.document (r : IterationRecord) : Json :=
  .obj [("iteration", .int r.iteration), ("success", .bool r.success),
    ("error", (r.error.map Json.str).getD .null), ("summary", .str r.summary), ("attempt", .int r.attempt)]

def FailureEntry.document (e : FailureEntry) : Json :=
  .obj [("attempt", .int e.attempt), ("phase", .str e.phase.value), ("text", .str e.text),
    ("infrastructure", .bool e.infrastructure)]

def PhaseReading.document (r : PhaseReading) : Json :=
  .obj [("attempt", .int r.attempt), ("phase", .str r.phase.value)]

namespace IterationContext

variable (ctx : IterationContext)

def document : Json :=
  .obj [("records", .arr (ctx.records.map IterationRecord.document)),
    ("entries", .arr (ctx.entries.map FailureEntry.document)),
    ("readings", .arr (ctx.readings.toList.map PhaseReading.document))]

/-- `to_json`. -/
def toJson : String := ctx.document.dumpsIn .spaced

end IterationContext

/-- Why `from_json` raises. -/
inductive ContextError where
  | notJson
  | missing (key : String)
  | unknownPhase (phase : String)
  /-- the shape before R10.2 -/
  | expired
  /-- a value of a type the class does not declare -/
  | untyped
  deriving DecidableEq, Repr

namespace ContextError

/-- `data[key]`. -/
def required (data : Json) (key : String) : Except ContextError Json :=
  match data.get? key with
  | some value => .ok value
  | none => .error (missing key)

def intOf : Json → Except ContextError ℤ
  | .int n => .ok n
  | _ => .error untyped

def boolOf : Json → Except ContextError Bool
  | .bool b => .ok b
  | _ => .error untyped

def strOf : Json → Except ContextError String
  | .str s => .ok s
  | _ => .error untyped

def optStrOf : Json → Except ContextError (Option String)
  | .null => .ok none
  | .str s => .ok (some s)
  | _ => .error untyped

/-- `_require_known_phase`. -/
def phaseOf (value : Json) : Except ContextError Phase := do
  let name ← strOf value
  match Phase.ofValue? name with
  | some phase => .ok phase
  | none => .error (unknownPhase name)

/-- `parsed.get(key, [])`. -/
def listOf (data : Json) (key : String) : Except ContextError (List Json) :=
  match (data.get? key).getD (.arr []) with
  | .arr values => .ok values
  | _ => .error untyped

end ContextError

open ContextError

def IterationRecord.parse (data : Json) : Except ContextError IterationRecord := do
  let iteration ← required data "iteration"
  let success ← required data "success"
  let iteration ← intOf iteration
  let success ← boolOf success
  let error ← optStrOf ((data.get? "error").getD .null)
  let summary ← strOf ((data.get? "summary").getD (.str ""))
  let attempt ← intOf ((data.get? "attempt").getD (.int legacyAttempt))
  .ok { iteration, success, error, summary, attempt }

def FailureEntry.parse (data : Json) : Except ContextError FailureEntry := do
  let attempt ← required data "attempt"
  let phase ← required data "phase"
  let text ← required data "text"
  let attempt ← intOf attempt
  let phase ← phaseOf phase
  let text ← strOf text
  let infrastructure ← boolOf ((data.get? "infrastructure").getD (.bool false))
  .ok { attempt, phase, text, infrastructure }

def PhaseReading.parse (data : Json) : Except ContextError PhaseReading := do
  let phase ← required data "phase"
  let attempt ← required data "attempt"
  let phase ← phaseOf phase
  let attempt ← intOf attempt
  .ok { attempt, phase }

namespace IterationContext

/-- The keys of the shape before R10.2. -/
def expiredKeys : List String := ["review_findings", "verification_failures", "contract_failures"]

/-- `from_json`. -/
def fromJson (data : String) : Except ContextError IterationContext :=
  if data = "" ∨ data = "\x7b\x7d" then .ok {}
  else
    match Json.loads data with
    | some (.obj fields) => do
        let parsed := Json.obj fields
        let records ← (← listOf parsed "records").mapM IterationRecord.parse
        let readings ← (← listOf parsed "readings").mapM PhaseReading.parse
        if (parsed.get? "entries").isNone ∧ ∃ key ∈ expiredKeys, (parsed.get? key).isSome then .error expired
        else do
          let entries ← (← listOf parsed "entries").mapM FailureEntry.parse
          .ok { records, entries, readings := .ofList readings }
    | some _ => .error untyped
    | none => .error notJson

/-! ## One bucket for each entry -/

variable {ctx : IterationContext}

/-- The entries of a bucket, in their order. -/
def entriesIn (ctx : IterationContext) (b : Bucket) : List FailureEntry :=
  ctx.entries.filter fun e => ctx.bucketOf e = b

lemma foldl_put (place : FailureEntry → Bucket) (l : List FailureEntry) (b : Buckets) :
    l.foldl (fun b e => b.put e (place e)) b =
      { current := b.current ++ l.filter fun e => place e = .current
        notRemeasured := b.notRemeasured ++ l.filter fun e => place e = .notRemeasured
        resolved := b.resolved ++ l.filter fun e => place e = .resolved
        measuredAttempt := b.measuredAttempt } := by
  induction l generalizing b with
  | nil => simp only [List.foldl_nil, List.filter_nil, List.append_nil]
  | cons e l ih =>
      rw [List.foldl_cons, ih]
      cases hplace : place e <;> simp [Buckets.put, hplace]

/-- The loop sorts the entries by their bucket. -/
lemma buckets_eq (ctx : IterationContext) :
    ctx.buckets =
      { current := ctx.entriesIn .current, notRemeasured := ctx.entriesIn .notRemeasured
        resolved := ctx.entriesIn .resolved, measuredAttempt := ctx.latestAttempt } := by
  rw [buckets, foldl_put]
  rfl

lemma mem_entriesIn {b : Bucket} {e : FailureEntry} :
    e ∈ ctx.entriesIn b ↔ e ∈ ctx.entries ∧ ctx.bucketOf e = b := by
  simp only [entriesIn, List.mem_filter, decide_eq_true_eq]

lemma mem_current {e : FailureEntry} : e ∈ ctx.buckets.current ↔ e ∈ ctx.entries ∧ ctx.bucketOf e = .current := by
  rw [buckets_eq]
  exact mem_entriesIn

lemma mem_resolved {e : FailureEntry} :
    e ∈ ctx.buckets.resolved ↔ e ∈ ctx.entries ∧ ctx.bucketOf e = .resolved := by
  rw [buckets_eq]
  exact mem_entriesIn

lemma count_entriesIn (ctx : IterationContext) (b : Bucket) (e : FailureEntry) :
    (ctx.entriesIn b).count e = if ctx.bucketOf e = b then ctx.entries.count e else 0 := by
  split_ifs with h
  · exact List.count_filter (by simpa using h)
  · exact List.count_eq_zero_of_not_mem fun he => h (mem_entriesIn.mp he).2

/-- **Every entry is in a bucket**, as often as it was recorded. -/
theorem buckets_perm (ctx : IterationContext) :
    (ctx.buckets.current ++ ctx.buckets.notRemeasured ++ ctx.buckets.resolved).Perm ctx.entries := by
  refine List.perm_iff_count.mpr fun e => ?_
  rw [buckets_eq, List.count_append, List.count_append, count_entriesIn, count_entriesIn, count_entriesIn]
  cases ctx.bucketOf e <;> simp

/-- **In no other one.** -/
theorem buckets_disjoint (ctx : IterationContext) :
    ctx.buckets.current.Disjoint ctx.buckets.notRemeasured ∧ ctx.buckets.current.Disjoint ctx.buckets.resolved ∧
      ctx.buckets.notRemeasured.Disjoint ctx.buckets.resolved := by
  have hdisjoint : ∀ b b' : Bucket, b ≠ b' → (ctx.entriesIn b).Disjoint (ctx.entriesIn b') :=
    fun b b' hne e he he' => hne ((mem_entriesIn.mp he).2.symm.trans (mem_entriesIn.mp he').2)
  rw [buckets_eq]
  exact ⟨hdisjoint _ _ nofun, hdisjoint _ _ nofun, hdisjoint _ _ nofun⟩

/-! ## The latest attempt -/

lemma le_maxOr {l : List ℤ} {x : ℤ} (h : x ∈ l) : x ≤ maxOr l := by
  have hfold : ∀ (l : List ℤ) (y : ℤ), y ≤ l.foldl max y ∧ ∀ x ∈ l, x ≤ l.foldl max y := by
    intro l
    induction l with
    | nil => exact fun y => ⟨le_refl y, nofun⟩
    | cons z l ih =>
        intro y
        obtain ⟨hle, hmem⟩ := ih (max y z)
        refine ⟨(le_max_left y z).trans hle, fun x hx => ?_⟩
        rcases List.mem_cons.mp hx with rfl | hx
        · exact (le_max_right y x).trans hle
        · exact hmem x hx
  cases l with
  | nil => cases h
  | cons y l =>
      rcases List.mem_cons.mp h with rfl | h
      · exact (hfold l x).1
      · exact (hfold l y).2 x h

lemma maxOr_mem {l : List ℤ} (h : l ≠ []) : maxOr l ∈ l := by
  have hfold : ∀ (l : List ℤ) (y : ℤ), l.foldl max y ∈ y :: l := by
    intro l
    induction l with
    | nil => exact fun y => List.mem_cons_self
    | cons z l ih =>
        intro y
        rcases List.mem_cons.mp (ih (max y z)) with hmax | hmem
        · rw [List.foldl_cons, hmax]
          rcases max_choice y z with hy | hz
          · rw [hy]
            exact List.mem_cons_self
          · rw [hz]
            exact List.mem_cons_of_mem _ List.mem_cons_self
        · exact List.mem_cons_of_mem _ (List.mem_cons_of_mem _ hmem)
  cases l with
  | nil => exact absurd rfl h
  | cons y l => exact hfold l y

lemma attempt_le_latest {e : FailureEntry} (h : e ∈ ctx.entries) : e.attempt ≤ ctx.latestAttempt :=
  (le_maxOr (List.mem_map_of_mem h)).trans ((le_max_left _ _).trans (le_max_left _ _))

lemma mem_latest {e : FailureEntry} : e ∈ ctx.latest ↔ e ∈ ctx.entries ∧ e.attempt = ctx.latestAttempt := by
  simp only [latest, List.mem_filter, decide_eq_true_eq]

/-- The gate that fired is a phase of an entry of the latest attempt. -/
lemma exists_of_le_gateRank {r : ℤ} (h : 0 ≤ r) (hr : r ≤ ctx.gateRank) :
    ∃ e ∈ ctx.latest, e.phase.rank = ctx.gateRank := by
  unfold gateRank at hr ⊢
  split_ifs at hr ⊢ with hnone
  · omega
  · obtain ⟨e, he, heq⟩ := List.mem_map.mp (maxOr_mem (mt List.map_eq_nil_iff.mp hnone))
    exact ⟨e, he, heq⟩

/-! ## The round trip -/

lemma mapM_document {α : Type*} {document : α → Json} {parse : Json → Except ContextError α}
    (h : ∀ a, parse (document a) = .ok a) (l : List α) : (l.map document).mapM parse = .ok l := by
  induction l with
  | nil => rfl
  | cons a l ih =>
      rw [List.map_cons, List.mapM_cons, h, ih]
      rfl

lemma phaseOf_value (p : Phase) : phaseOf (.str p.value) = .ok p := by
  show (match Phase.ofValue? p.value with
    | some phase => Except.ok phase
    | none => .error (unknownPhase p.value)) = .ok p
  rw [Phase.ofValue?_value]

lemma parse_record (r : IterationRecord) : IterationRecord.parse r.document = .ok r := by
  obtain ⟨iteration, success, error, summary, attempt⟩ := r
  cases error <;> rfl

lemma parse_entry (e : FailureEntry) : FailureEntry.parse e.document = .ok e := by
  show (phaseOf (.str e.phase.value) >>= fun phase => Except.ok (FailureEntry.mk e.attempt phase e.text e.infrastructure))
    = .ok e
  rw [phaseOf_value]
  rfl

lemma parse_reading (r : PhaseReading) : PhaseReading.parse r.document = .ok r := by
  show (phaseOf (.str r.phase.value) >>= fun phase => Except.ok (PhaseReading.mk r.attempt phase)) = .ok r
  rw [phaseOf_value]
  rfl

lemma document_wellFormed (ctx : IterationContext) : ctx.document.WellFormed := by
  have hrecords := Json.allWellFormed_map (fun r : IterationRecord => show r.document.WellFormed by
    cases herror : r.error <;>
      simp [IterationRecord.document, Json.WellFormed, Json.FieldsWellFormed, herror]) ctx.records
  have hentries := Json.allWellFormed_map (fun e : FailureEntry => show e.document.WellFormed by
    simp [FailureEntry.document, Json.WellFormed, Json.FieldsWellFormed]) ctx.entries
  have hreadings := Json.allWellFormed_map (fun r : PhaseReading => show r.document.WellFormed by
    simp [PhaseReading.document, Json.WellFormed, Json.FieldsWellFormed]) ctx.readings.toList
  simp [document, Json.WellFormed, Json.FieldsWellFormed, hrecords, hentries, hreadings]

/-- The text of a context is neither empty nor the empty object. -/
lemma toJson_ne (ctx : IterationContext) : ¬(ctx.toJson = "" ∨ ctx.toJson = "\x7b\x7d") := by
  have htext : ctx.toJson.toList.take 2 = ['\x7b', '"'] := by
    rw [toJson, Json.dumpsIn, String.toList_ofList]
    rfl
  rintro (h | h) <;> rw [h] at htext <;> exact absurd htext (by decide)

/-- **A context is read back as it was.** -/
theorem fromJson_toJson (ctx : IterationContext) : fromJson ctx.toJson = .ok ctx := by
  have hloads : Json.loads ctx.toJson = some ctx.document := Json.Layout.loads_line _ _ (document_wellFormed ctx)
  rw [fromJson, if_neg (toJson_ne ctx), hloads]
  show ((ctx.records.map IterationRecord.document).mapM IterationRecord.parse >>= fun records =>
    (ctx.readings.toList.map PhaseReading.document).mapM PhaseReading.parse >>= fun readings =>
      (ctx.entries.map FailureEntry.document).mapM FailureEntry.parse >>= fun entries =>
        Except.ok (IterationContext.mk records entries (.ofList readings))) = .ok ctx
  rw [mapM_document parse_record, mapM_document parse_reading, mapM_document parse_entry]
  show Except.ok (IterationContext.mk ctx.records ctx.entries (.ofList ctx.readings.toList)) = .ok ctx
  rw [SortedSet.ofList_toList]

end IterationContext

end Pipeline

end Kstrl
