import Kstrl.Base.Binary64
import Kstrl.Base.Rows
import Mathlib.Data.List.Perm.Basic

/-!
# The usage meters

`kstrl/events/usage.py`, and the meter of a run in `kstrl/pipeline/pipeline_ledger.py`: the record of an agent's call,
totals of records and their merging, and the slots of a run for each component and phase beside the run's total.

The amounts are of any type: in the program they are floating point numbers, whose sums are rounded, and the exact
sums are those of the same meter over `ℕ∞`.

* **`Close`** is what holds between a total and the exact one: the counts and the tokens are the same, and the amounts
  are within so many roundings.
* **`usage_laws`** are the laws of the meters.
-/

namespace Kstrl

namespace Events

namespace Usage

open Binary64 Rows

/-! ## Records -/

/-- A float that a record carries. -/
inductive Reported (A : Type*) where
  | amount (a : A)
  | negative
  | nan

/-- The usage of one call of an agent. -/
structure UsageRecord (A : Type*) where
  inputTokens : Option ℤ := none
  outputTokens : Option ℤ := none
  cacheReadTokens : Option ℤ := none
  cacheCreationTokens : Option ℤ := none
  totalTokens : Option ℤ := none
  costUsd : Option (Reported A) := none
  durationSeconds : Reported A

/-- `_as_int` -/
def asInt (value : Option ℤ) : Option ℤ := value.filter (0 ≤ ·)

/-- `_as_float` -/
def asFloat {A : Type*} : Option (Reported A) → Option A
  | some (.amount a) => some a
  | some .negative => none
  | some .nan => none
  | none => none

/-! ## Totals -/

/-- The counts of totals. -/
@[ext]
structure Tally where
  calls : ℤ := 0
  knownCalls : ℤ := 0
  tokenCalls : ℤ := 0
  costCalls : ℤ := 0
  inputTokens : ℤ := 0
  outputTokens : ℤ := 0
  cacheReadTokens : ℤ := 0
  cacheCreationTokens : ℤ := 0
  totalTokens : ℤ := 0
  deriving DecidableEq

/-- Totals of usage records. -/
structure UsageTotals (A : Type*) extends Tally where
  costUsd : A
  durationSeconds : A
  deriving DecidableEq

/-- The counts of `merge`. -/
def Tally.merge (a b : Tally) : Tally where
  calls := a.calls + b.calls
  knownCalls := a.knownCalls + b.knownCalls
  tokenCalls := a.tokenCalls + b.tokenCalls
  costCalls := a.costCalls + b.costCalls
  inputTokens := a.inputTokens + b.inputTokens
  outputTokens := a.outputTokens + b.outputTokens
  cacheReadTokens := a.cacheReadTokens + b.cacheReadTokens
  cacheCreationTokens := a.cacheCreationTokens + b.cacheCreationTokens
  totalTokens := a.totalTokens + b.totalTokens

instance : Zero Tally := ⟨{}⟩

instance : Add Tally := ⟨Tally.merge⟩

instance : AddCommMonoid Tally where
  add_assoc a b c := by ext <;> exact add_assoc _ _ _
  zero_add a := by ext <;> exact zero_add _
  add_zero a := by ext <;> exact add_zero _
  add_comm a b := by ext <;> exact add_comm _ _
  nsmul := nsmulRec

namespace UsageTotals

variable {A : Type*}

/-- Fold another totals object into this one. -/
def merge [Add A] (a b : UsageTotals A) : UsageTotals A where
  toTally := a.toTally + b.toTally
  costUsd := a.costUsd + b.costUsd
  durationSeconds := a.durationSeconds + b.durationSeconds

/-- `UsageTotals()` -/
instance [Zero A] : Zero (UsageTotals A) := ⟨{ costUsd := 0, durationSeconds := 0 }⟩

instance [Add A] : Add (UsageTotals A) := ⟨merge⟩

@[simp] lemma toTally_zero [Zero A] : (0 : UsageTotals A).toTally = 0 := rfl

@[simp] lemma toTally_add [Add A] (a b : UsageTotals A) : (a + b).toTally = a.toTally + b.toTally := rfl

@[simp] lemma costUsd_add [Add A] (a b : UsageTotals A) : (a + b).costUsd = a.costUsd + b.costUsd := rfl

@[simp] lemma durationSeconds_add [Add A] (a b : UsageTotals A) :
    (a + b).durationSeconds = a.durationSeconds + b.durationSeconds := rfl

/-- Totals are their counts and their amounts. -/
lemma ext_parts {a b : UsageTotals A} (htally : a.toTally = b.toTally) (hcost : a.costUsd = b.costUsd)
    (hduration : a.durationSeconds = b.durationSeconds) : a = b := by
  cases a
  cases b
  cases htally
  cases hcost
  cases hduration
  rfl

instance [AddZeroClass A] : AddZeroClass (UsageTotals A) where
  zero_add a := ext_parts (zero_add a.toTally) (zero_add a.costUsd) (zero_add a.durationSeconds)
  add_zero a := ext_parts (add_zero a.toTally) (add_zero a.costUsd) (add_zero a.durationSeconds)

instance [AddCommMagma A] : AddCommMagma (UsageTotals A) where
  add_comm a b := ext_parts (add_comm a.toTally b.toTally) (add_comm a.costUsd b.costUsd)
    (add_comm a.durationSeconds b.durationSeconds)

instance [AddCommMonoid A] : AddCommMonoid (UsageTotals A) where
  add_assoc a b c := ext_parts (add_assoc a.toTally b.toTally c.toTally)
    (add_assoc a.costUsd b.costUsd c.costUsd) (add_assoc a.durationSeconds b.durationSeconds c.durationSeconds)
  add_comm := add_comm
  zero_add := zero_add
  add_zero := add_zero
  nsmul := nsmulRec

/-- `a if value is None else a + value` -/
def addSome [Add A] (a : A) : Option A → A
  | some value => a + value
  | none => a

/-- `n + 1` for a call that reported something. -/
def count (n : ℤ) (known : Bool) : ℤ := if known then n + 1 else n

/-- Fold one usage record into the totals. -/
def addRecord [Add A] (t : UsageTotals A) (r : UsageRecord A) : UsageTotals A :=
  let input := asInt r.inputTokens
  let output := asInt r.outputTokens
  let cacheRead := asInt r.cacheReadTokens
  let cacheCreation := asInt r.cacheCreationTokens
  let parts := [input, output, cacheRead, cacheCreation].reduceOption
  let partSum := if parts.isEmpty then none else some parts.sum
  let total := asInt r.totalTokens
  let cost := asFloat r.costUsd
  let tokenKnown := !parts.isEmpty || total.isSome
  let costKnown := cost.isSome
  { calls := t.calls + 1
    knownCalls := count t.knownCalls (tokenKnown || costKnown)
    tokenCalls := count t.tokenCalls tokenKnown
    costCalls := count t.costCalls costKnown
    inputTokens := addSome t.inputTokens input
    outputTokens := addSome t.outputTokens output
    cacheReadTokens := addSome t.cacheReadTokens cacheRead
    cacheCreationTokens := addSome t.cacheCreationTokens cacheCreation
    totalTokens := addSome t.totalTokens (total.or partSum)
    costUsd := addSome t.costUsd cost
    durationSeconds := addSome t.durationSeconds (asFloat (some r.durationSeconds)) }

lemma addSome_eq [AddZeroClass A] (a : A) (o : Option A) : addSome a o = a + addSome 0 o := by
  cases o with
  | none => exact (add_zero a).symm
  | some value => rw [addSome, addSome, zero_add]

lemma count_eq (n : ℤ) (known : Bool) : count n known = n + count 0 known := by
  cases known with
  | false => exact (add_zero n).symm
  | true => exact congrArg (n + ·) (zero_add 1).symm

/-- **A record adds what it adds to empty totals.** -/
lemma addRecord_eq [AddZeroClass A] (t : UsageTotals A) (r : UsageRecord A) :
    t.addRecord r = t + addRecord 0 r := by
  refine ext_parts (Tally.ext ?_ ?_ ?_ ?_ ?_ ?_ ?_ ?_ ?_) (addSome_eq _ _) (addSome_eq _ _)
  case refine_1 => exact congrArg (t.calls + ·) (zero_add 1).symm
  case refine_2 | refine_3 | refine_4 => exact count_eq _ _
  all_goals exact addSome_eq _ _

/-- `collect_usage`: the totals of an agent's calls. -/
def usageOf [Add A] [Zero A] (records : List (UsageRecord A)) : UsageTotals A := records.foldl addRecord 0

/-- The calls' totals, merged one after the other. -/
lemma usageOf_eq [AddZeroClass A] (records : List (UsageRecord A)) :
    usageOf records = (records.map (addRecord 0)).foldl (· + ·) 0 := by
  rw [usageOf, List.foldl_map]
  congr 1
  funext t r
  exact addRecord_eq t r

/-- **With exact sums, the calls of two lists together have the totals of both, merged.** -/
lemma usageOf_append [AddCommMonoid A] (records records' : List (UsageRecord A)) :
    usageOf (records ++ records') = usageOf records + usageOf records' := by
  rw [usageOf_eq, usageOf_eq, usageOf_eq, List.map_append, ← List.sum_eq_foldl, ← List.sum_eq_foldl,
    ← List.sum_eq_foldl, List.sum_append]

end UsageTotals

open UsageTotals

/-! ## What is counted of a call -/

/-- A call with a token figure or a cost is known, and a known one has one of them. -/
structure Covered {A : Type*} (t : UsageTotals A) : Prop where
  token_le : t.tokenCalls ≤ t.knownCalls
  cost_le : t.costCalls ≤ t.knownCalls
  known_le : t.knownCalls ≤ t.calls
  known_le_sum : t.knownCalls ≤ t.tokenCalls + t.costCalls

section Covered

variable {A : Type*}

lemma covered_zero [Zero A] : Covered (0 : UsageTotals A) := ⟨le_rfl, le_rfl, le_rfl, le_rfl⟩

lemma Covered.add [Add A] {a b : UsageTotals A} (ha : Covered a) (hb : Covered b) : Covered (a + b) where
  token_le := add_le_add ha.token_le hb.token_le
  cost_le := add_le_add ha.cost_le hb.cost_le
  known_le := add_le_add ha.known_le hb.known_le
  known_le_sum := le_of_le_of_eq (add_le_add ha.known_le_sum hb.known_le_sum) (add_add_add_comm _ _ _ _)

/-- One call. -/
lemma covered_addRecord [Add A] {t : UsageTotals A} (h : Covered t) (r : UsageRecord A) :
    Covered (t.addRecord r) := by
  obtain ⟨htoken, hcost, hknown, hsum⟩ := h
  rw [addRecord]
  generalize (!List.isEmpty _ || Option.isSome _) = tokenKnown
  generalize Option.isSome _ = costKnown
  constructor <;> cases tokenKnown <;> cases costKnown <;> simp [count] <;> omega

/-- All the calls of an agent. -/
lemma covered_usageOf [Add A] [Zero A] (records : List (UsageRecord A)) : Covered (usageOf records) := by
  suffices hfold : ∀ t : UsageTotals A, Covered t → Covered (records.foldl addRecord t) from
    hfold 0 covered_zero
  induction records with
  | nil => exact fun t ht => ht
  | cons r records ih => exact fun t ht => ih _ (covered_addRecord ht r)

end Covered

/-! ## Exact sums -/

/-- A record with the numbers that its amounts are. -/
def Reported.exact : Reported Amount → Reported ℕ∞
  | amount a => amount a.units
  | negative => negative
  | nan => nan

def UsageRecord.exact (r : UsageRecord Amount) : UsageRecord ℕ∞ :=
  { r with
    costUsd := r.costUsd.map Reported.exact
    durationSeconds := r.durationSeconds.exact }

/-- Totals with the numbers that their amounts are. -/
def UsageTotals.exact (t : UsageTotals Amount) : UsageTotals ℕ∞ :=
  { t with
    costUsd := t.costUsd.units
    durationSeconds := t.durationSeconds.units }

/-- Totals that have the counts of exact ones, and amounts within `k` roundings of theirs. -/
structure Close (k : ℕ) (t : UsageTotals Amount) (e : UsageTotals ℕ∞) : Prop where
  tally : t.toTally = e.toTally
  cost : t.costUsd.Near e.costUsd k
  duration : t.durationSeconds.Near e.durationSeconds k

lemma close_exact (t : UsageTotals Amount) : Close 0 t t.exact :=
  ⟨rfl, t.costUsd.near_units, t.durationSeconds.near_units⟩

lemma close_zero : Close 0 0 0 := close_exact 0

lemma Close.mono {j k : ℕ} {t : UsageTotals Amount} {e : UsageTotals ℕ∞} (h : Close j t e) (hle : j ≤ k) :
    Close k t e := ⟨h.tally, h.cost.mono hle, h.duration.mono hle⟩

/-- **The rule for a merge**: one rounding more than the deeper side. -/
lemma Close.add {j k : ℕ} {t u : UsageTotals Amount} {e f : UsageTotals ℕ∞} (ht : Close j t e) (hu : Close k u f) :
    Close (max j k + 1) (t + u) (e + f) where
  tally := congrArg₂ (· + ·) ht.tally hu.tally
  cost := ht.cost.add hu.cost
  duration := ht.duration.add hu.duration

/-- **The rule for merging one after the other.** -/
lemma Close.foldl {k : ℕ} {ts : List (UsageTotals Amount)} {es : List (UsageTotals ℕ∞)}
    (h : List.Forall₂ (Close k) ts es) {j : ℕ} {t : UsageTotals Amount} {e : UsageTotals ℕ∞} (ht : Close j t e)
    (hle : k ≤ j) : Close (j + ts.length) (ts.foldl (· + ·) t) (es.foldl (· + ·) e) := by
  induction h generalizing j t e with
  | nil => exact ht
  | @cons u f us fs hhead _ ih =>
      have hadd : Close (j + 1) (t + u) (e + f) := (ht.add hhead).mono (by omega)
      rw [List.length_cons, Nat.add_comm us.length, ← Nat.add_assoc]
      exact ih hadd (Nat.le_succ_of_le hle)

lemma near_addSome {a : Option Amount} : (addSome 0 a).Near (addSome 0 (a.map Amount.units)) 0 := by
  cases a with
  | none => exact Amount.near_units 0
  | some a =>
      rw [Option.map_some, addSome, addSome, zero_add, zero_add]
      exact a.near_units

lemma asFloat_exact (r : Option (Reported Amount)) :
    asFloat (r.map Reported.exact) = (asFloat r).map Amount.units := by
  rcases r with _ | _ | _ | _ <;> rfl

/-- One call has nothing to round. -/
lemma close_addRecord (r : UsageRecord Amount) : Close 0 (addRecord 0 r) (addRecord 0 r.exact) := by
  refine ⟨?_, ?_, ?_⟩
  · simp only [addRecord, UsageRecord.exact, asFloat_exact, Option.isSome_map]
    rfl
  · simp only [addRecord, UsageRecord.exact, asFloat_exact]
    exact near_addSome
  · have hduration := asFloat_exact (some r.durationSeconds)
    simp only [addRecord, UsageRecord.exact]
    rw [Option.map_some] at hduration
    rw [hduration]
    exact near_addSome

/-- **The totals of calls**: as many roundings as calls. -/
lemma close_usageOf (records : List (UsageRecord Amount)) :
    Close records.length (usageOf records) (usageOf (records.map UsageRecord.exact)) := by
  have hcalls : List.Forall₂ (Close 0) (records.map (addRecord 0)) ((records.map UsageRecord.exact).map (addRecord 0)) := by
    rw [List.map_map, List.forall₂_map_left_iff, List.forall₂_map_right_iff, List.forall₂_same]
    exact fun r _ => close_addRecord r
  have hfold := Close.foldl hcalls close_zero le_rfl
  rwa [List.length_map, Nat.zero_add, ← usageOf_eq, ← usageOf_eq] at hfold

/-! ## The meter of a run -/

/-- Totals that a phase hands in. -/
structure Recording (A : Type*) where
  component : String
  phase : String
  totals : UsageTotals A

/-- `usage_meter`, and `run_usage` beside it. -/
structure Meter (A : Type*) where
  usageMeter : List (String × List (String × UsageTotals A)) := []
  runUsage : UsageTotals A

namespace Meter

variable {A : Type*}

/-- The slot of a phase, in a component's row. -/
def addSlot [Add A] [Zero A] (phase : String) (totals : UsageTotals A) (row : String × List (String × UsageTotals A)) :
    String × List (String × UsageTotals A) :=
  (row.1, touch Prod.fst (fun phase => (phase, 0)) phase (fun slot => (slot.1, slot.2 + totals)) row.2)

/-- `_record_usage` -/
def recordUsage [Add A] [Zero A] (m : Meter A) (r : Recording A) : Meter A :=
  if r.totals.calls = 0 then m
  else
    { usageMeter := touch Prod.fst (fun component => (component, [])) r.component (addSlot r.phase r.totals) m.usageMeter
      runUsage := m.runUsage + r.totals }

/-- The meter of a run, after all that was recorded. -/
def record [Add A] [Zero A] (recordings : List (Recording A)) : Meter A :=
  recordings.foldl recordUsage { runUsage := 0 }

/-- The slots, component by component. -/
def slots (m : Meter A) : List (UsageTotals A) := m.usageMeter.flatMap fun row => row.2.map Prod.snd

/-- What is recorded at all. -/
def recorded (recordings : List (Recording A)) : List (UsageTotals A) :=
  (recordings.map Recording.totals).filter fun t => t.calls ≠ 0

/-- **With exact sums, the slots add up to the run's total.** -/
lemma sum_slots [AddCommMonoid A] (recordings : List (Recording A)) :
    (record recordings).slots.sum = (record recordings).runUsage := by
  have hslots : ∀ m : Meter A, m.slots.sum = (m.usageMeter.map fun row => (row.2.map Prod.snd).sum).sum := by
    intro m
    rw [slots, List.flatMap_def, List.sum_flatten, List.map_map]
    rfl
  have hstep : ∀ (m : Meter A) (r : Recording A), m.slots.sum = m.runUsage →
      (m.recordUsage r).slots.sum = (m.recordUsage r).runUsage := by
    intro m r h
    rw [recordUsage]
    split_ifs
    · exact h
    · rw [hslots, ← h, hslots]
      exact sum_touch (fun row => sum_touch (fun slot => rfl) rfl) rfl
  suffices hfold : ∀ m : Meter A, m.slots.sum = m.runUsage →
      (recordings.foldl recordUsage m).slots.sum = (recordings.foldl recordUsage m).runUsage from hfold _ rfl
  induction recordings with
  | nil => exact fun m h => h
  | cons r recordings ih => exact fun m h => ih _ (hstep m r h)

lemma recorded_cons (r : Recording A) (recordings : List (Recording A)) :
    recorded (r :: recordings)
      = if r.totals.calls = 0 then recorded recordings else r.totals :: recorded recordings := by
  rw [recorded, List.map_cons, List.filter_cons]
  by_cases hcalls : r.totals.calls = 0 <;> simp [hcalls, recorded]

/-- The total is that of what was recorded. -/
lemma runUsage_record [AddCommMonoid A] (recordings : List (Recording A)) :
    (record recordings).runUsage = (recorded recordings).sum := by
  suffices hfold : ∀ m : Meter A,
      (recordings.foldl recordUsage m).runUsage = m.runUsage + (recorded recordings).sum from
    (hfold _).trans (zero_add _)
  induction recordings with
  | nil => exact fun m => (add_zero _).symm
  | cons r recordings ih =>
      intro m
      rw [List.foldl_cons, ih, recordUsage, recorded_cons]
      split_ifs
      · rfl
      · rw [List.sum_cons, ← add_assoc]

/-- What holds of the empty totals and is kept by a merge holds of the run's total and of every slot. -/
lemma forall_record [Add A] [Zero A] {P : UsageTotals A → Prop} {recordings : List (Recording A)} (hzero : P 0)
    (hadd : ∀ a b, P a → P b → P (a + b)) (h : ∀ r ∈ recordings, P r.totals) :
    P (record recordings).runUsage ∧ ∀ slot ∈ (record recordings).slots, P slot := by
  suffices hfold : ∀ m : Meter A, P m.runUsage → (∀ row ∈ m.usageMeter, ∀ slot ∈ row.2, P slot.2) →
      P (recordings.foldl recordUsage m).runUsage ∧
        ∀ row ∈ (recordings.foldl recordUsage m).usageMeter, ∀ slot ∈ row.2, P slot.2 by
    obtain ⟨hrun, hrows⟩ := hfold { runUsage := 0 } hzero (by simp)
    refine ⟨hrun, fun slot hslot => ?_⟩
    obtain ⟨row, hrow, hmem⟩ := List.mem_flatMap.mp hslot
    obtain ⟨entry, hentry, rfl⟩ := List.mem_map.mp hmem
    exact hrows row hrow entry hentry
  induction recordings with
  | nil => exact fun m hrun hrows => ⟨hrun, hrows⟩
  | cons r recordings ih =>
      obtain ⟨hr, hrecordings⟩ := List.forall_mem_cons.mp h
      intro m hrun hrows
      rw [List.foldl_cons, recordUsage]
      split_ifs
      · exact ih hrecordings m hrun hrows
      · have hslots : ∀ entries : List (String × UsageTotals A), (∀ slot ∈ entries, P slot.2) →
            ∀ slot ∈ (addSlot r.phase r.totals (r.component, entries)).2, P slot.2 := fun entries hentries =>
          forall_touch_of hentries (fun slot hslot => hadd _ _ hslot hr) (hadd _ _ hzero hr)
        exact ih hrecordings _ (hadd _ _ hrun hr)
          (forall_touch_of hrows (fun row hrow => hslots row.2 hrow) (hslots [] (by simp)))

end Meter

/-! ## A meter beside the exact one -/

section Exact

def Recording.exact (r : Recording Amount) : Recording ℕ∞ := { r with totals := r.totals.exact }

/-- Slots of one phase. -/
def SlotClose (k : ℕ) (x : String × UsageTotals Amount) (y : String × UsageTotals ℕ∞) : Prop :=
  x.1 = y.1 ∧ Close k x.2 y.2

/-- Rows of one component. -/
def RowClose (k : ℕ) (x : String × List (String × UsageTotals Amount)) (y : String × List (String × UsageTotals ℕ∞)) :
    Prop :=
  x.1 = y.1 ∧ List.Forall₂ (SlotClose k) x.2 y.2

/-- A meter beside the exact one. -/
structure MeterClose (k : ℕ) (m : Meter Amount) (e : Meter ℕ∞) : Prop where
  rows : List.Forall₂ (RowClose k) m.usageMeter e.usageMeter
  run : Close k m.runUsage e.runUsage

variable {k : ℕ}

lemma SlotClose.mono {x : String × UsageTotals Amount} {y : String × UsageTotals ℕ∞} (h : SlotClose k x y) :
    SlotClose (k + 1) x y := ⟨h.1, h.2.mono (Nat.le_succ k)⟩

lemma Close.succ {t u : UsageTotals Amount} {e : UsageTotals ℕ∞} (h : Close k t e) :
    Close (k + 1) (t + u) (e + u.exact) := by
  have hadd := h.add (close_exact u)
  rwa [Nat.max_zero] at hadd

lemma rowClose_addSlot (phase : String) (totals : UsageTotals Amount)
    {x : String × List (String × UsageTotals Amount)} {y : String × List (String × UsageTotals ℕ∞)}
    (h : RowClose k x y) : RowClose (k + 1) (Meter.addSlot phase totals x) (Meter.addSlot phase totals.exact y) := by
  refine ⟨h.1, forall₂_touch (fun x y hxy => hxy.1) (fun x y hxy => hxy.mono)
    (fun x y hxy => ⟨hxy.1, hxy.2.succ⟩) ⟨rfl, ?_⟩ h.2⟩
  exact (close_zero.mono (Nat.zero_le k)).succ

/-- **One recording**: one rounding more. -/
lemma MeterClose.recordUsage {m : Meter Amount} {e : Meter ℕ∞} (h : MeterClose k m e) (r : Recording Amount) :
    MeterClose (k + 1) (m.recordUsage r) (e.recordUsage r.exact) := by
  rw [Meter.recordUsage, Meter.recordUsage, show r.exact.totals.calls = r.totals.calls from rfl]
  have hrows : List.Forall₂ (RowClose (k + 1)) m.usageMeter e.usageMeter :=
    h.rows.imp fun x y hxy => ⟨hxy.1, hxy.2.imp fun s u hsu => hsu.mono⟩
  split_ifs
  · exact ⟨hrows, h.run.mono (Nat.le_succ k)⟩
  · refine ⟨forall₂_touch (fun x y hxy => hxy.1) (fun x y hxy => ⟨hxy.1, hxy.2.imp fun s u hsu => hsu.mono⟩)
      (fun x y hxy => rowClose_addSlot r.phase r.totals hxy)
      (rowClose_addSlot r.phase r.totals ⟨rfl, List.Forall₂.nil⟩) h.rows, h.run.succ⟩

/-- **A run**: as many roundings as recordings. -/
lemma meterClose_record (recordings : List (Recording Amount)) :
    MeterClose recordings.length (Meter.record recordings) (Meter.record (recordings.map Recording.exact)) := by
  rw [Meter.record, Meter.record, List.foldl_map]
  suffices hfold : ∀ (k : ℕ) (m : Meter Amount) (e : Meter ℕ∞), MeterClose k m e →
      MeterClose (k + recordings.length) (recordings.foldl Meter.recordUsage m)
        (recordings.foldl (fun e r => e.recordUsage r.exact) e) by
    have hall := hfold 0 { runUsage := 0 } { runUsage := 0 } ⟨List.Forall₂.nil, close_zero⟩
    rwa [Nat.zero_add] at hall
  induction recordings with
  | nil => exact fun k m e h => h
  | cons r recordings ih =>
      intro k m e h
      rw [List.length_cons, Nat.add_comm recordings.length, ← Nat.add_assoc]
      exact ih _ _ _ (h.recordUsage r)

lemma MeterClose.slots {m : Meter Amount} {e : Meter ℕ∞} (h : MeterClose k m e) :
    List.Forall₂ (Close k) m.slots e.slots := by
  have hslots : ∀ {x y}, List.Forall₂ (SlotClose k) x y → List.Forall₂ (Close k) (x.map Prod.snd) (y.map Prod.snd) := by
    intro x y hxy
    rw [List.forall₂_map_left_iff, List.forall₂_map_right_iff]
    exact hxy.imp fun s u hsu => hsu.2
  exact List.rel_flatMap h.rows fun _ _ hxy => hslots hxy.2

lemma recorded_exact (recordings : List (Recording Amount)) :
    Meter.recorded (recordings.map Recording.exact) = (Meter.recorded recordings).map UsageTotals.exact := by
  rw [Meter.recorded, Meter.recorded, List.map_map, List.filter_map, List.filter_map, List.map_map]
  rfl

/-- **The run's total**, by the exact sum of what was recorded. -/
lemma close_runUsage (recordings : List (Recording Amount)) :
    Close recordings.length (Meter.record recordings).runUsage
      ((Meter.recorded recordings).map UsageTotals.exact).sum := by
  rw [← recorded_exact, ← Meter.runUsage_record]
  exact (meterClose_record recordings).run

/-- **The slots, merged in any order**, by the same sum. -/
lemma close_slots (recordings : List (Recording Amount)) {slots : List (UsageTotals Amount)}
    (h : slots.Perm (Meter.record recordings).slots) :
    Close (recordings.length + slots.length) (slots.foldl (· + ·) 0)
      ((Meter.recorded recordings).map UsageTotals.exact).sum := by
  obtain ⟨exacts, hclose, hperm⟩ := List.perm_comp_forall₂ h (meterClose_record recordings).slots
  rw [← recorded_exact, ← Meter.runUsage_record, ← Meter.sum_slots, ← hperm.sum_eq, List.sum_eq_foldl]
  exact Close.foldl hclose (close_zero.mono (Nat.zero_le _)) le_rfl

end Exact

/-! ## The laws of the meters -/

/-- How totals that are recorded come about: the calls of an agent, totals merged, or totals that an interrupted run
recorded, as its ledger holds them. -/
inductive Spend where
  | calls (records : List (UsageRecord Amount))
  | merged (a b : Spend)
  | carried (a : Spend)

/-- `to_dict`, with its roundings of a cost and of a duration. -/
def UsageTotals.toDict {A : Type*} (roundCost roundDuration : A → A) (t : UsageTotals A) : UsageTotals A :=
  { t with
    costUsd := roundCost t.costUsd
    durationSeconds := roundDuration t.durationSeconds }

/-- The totals. -/
def Spend.totals (roundCost roundDuration : Amount → Amount) : Spend → UsageTotals Amount
  | calls records => usageOf records
  | merged a b => (a.totals roundCost roundDuration).merge (b.totals roundCost roundDuration)
  | carried a => (a.totals roundCost roundDuration).toDict roundCost roundDuration

lemma Spend.covered (roundCost roundDuration : Amount → Amount) (s : Spend) :
    Covered (s.totals roundCost roundDuration) := by
  induction s with
  | calls records => exact covered_usageOf records
  | merged a b ha hb => exact ha.add hb
  | carried a ha => exact ⟨ha.token_le, ha.cost_le, ha.known_le, ha.known_le_sum⟩

/-- What a run records, for each with its component and its phase. -/
def Spend.recordings (roundCost roundDuration : Amount → Amount) (spends : List (String × String × Spend)) :
    List (Recording Amount) :=
  spends.map fun (component, phase, s) => ⟨component, phase, s.totals roundCost roundDuration⟩

/-- Merging two groups of three totals. -/
lemma close_merge_three (a b c : UsageTotals Amount) :
    Close 2 ((a.merge b).merge c) (a.exact + b.exact + c.exact) ∧
      Close 2 (a.merge (b.merge c)) (a.exact + b.exact + c.exact) := by
  refine ⟨((close_exact a).add (close_exact b)).add (close_exact c), ?_⟩
  rw [add_assoc]
  exact (close_exact a).add ((close_exact b).add (close_exact c))

/-- The calls of two lists, together and merged. -/
lemma close_concatenated (records records' : List (UsageRecord Amount)) :
    Close (records.length + records'.length) (usageOf (records ++ records'))
        (usageOf ((records ++ records').map UsageRecord.exact)) ∧
      Close (records.length + records'.length + 1) ((usageOf records).merge (usageOf records'))
        (usageOf ((records ++ records').map UsageRecord.exact)) := by
  refine ⟨?_, ?_⟩
  · have hall := close_usageOf (records ++ records')
    rwa [List.length_append] at hall
  · rw [List.map_append, usageOf_append]
    exact ((close_usageOf records).add (close_usageOf records')).mono (by omega)

/-- **The laws of the meters.** A call with a token figure or a cost is known, and only such a call, in all that is
recorded, in every slot and in the run's total. Merging commutes, and the empty totals change nothing. In whatever way
totals are grouped, ordered or put into slots, the counts and the tokens are the same, and the amounts are the exact
sum within as many roundings as there are additions. -/
theorem usage_laws :
    (∀ roundCost roundDuration (s : Spend), Covered (s.totals roundCost roundDuration)) ∧
      (∀ roundCost roundDuration spends,
        let m := Meter.record (Spend.recordings roundCost roundDuration spends)
        Covered m.runUsage ∧ ∀ slot ∈ m.slots, Covered slot) ∧
      (∀ a b : UsageTotals Amount, a.merge b = b.merge a) ∧
      (∀ a : UsageTotals Amount, UsageTotals.merge 0 a = a ∧ a.merge 0 = a) ∧
      (∀ a b c : UsageTotals Amount, ((a.merge b).merge c).toTally = (a.merge (b.merge c)).toTally ∧
        Close 2 ((a.merge b).merge c) (a.exact + b.exact + c.exact) ∧
        Close 2 (a.merge (b.merge c)) (a.exact + b.exact + c.exact)) ∧
      (∀ records records' : List (UsageRecord Amount),
        let exact := usageOf ((records ++ records').map UsageRecord.exact)
        (usageOf (records ++ records')).toTally = ((usageOf records).merge (usageOf records')).toTally ∧
          Close (records.length + records'.length) (usageOf (records ++ records')) exact ∧
          Close (records.length + records'.length + 1) ((usageOf records).merge (usageOf records')) exact) ∧
      ∀ (recordings : List (Recording Amount)) (slots : List (UsageTotals Amount)),
        slots.Perm (Meter.record recordings).slots →
          let exact := ((Meter.recorded recordings).map UsageTotals.exact).sum
          (slots.foldl UsageTotals.merge 0).toTally = (Meter.record recordings).runUsage.toTally ∧
            Close recordings.length (Meter.record recordings).runUsage exact ∧
            Close (recordings.length + slots.length) (slots.foldl UsageTotals.merge 0) exact := by
  refine ⟨fun roundCost roundDuration s => s.covered roundCost roundDuration, ?_, add_comm,
    fun a => ⟨zero_add a, add_zero a⟩, ?_, ?_, ?_⟩
  · intro roundCost roundDuration spends
    refine Meter.forall_record covered_zero (fun a b ha hb => ha.add hb) fun r hr => ?_
    obtain ⟨⟨component, phase, s⟩, -, rfl⟩ := List.mem_map.mp hr
    exact s.covered roundCost roundDuration
  · intro a b c
    obtain ⟨hleft, hright⟩ := close_merge_three a b c
    exact ⟨hleft.tally.trans hright.tally.symm, hleft, hright⟩
  · intro records records'
    obtain ⟨htogether, hmerged⟩ := close_concatenated records records'
    exact ⟨htogether.tally.trans hmerged.tally.symm, htogether, hmerged⟩
  · intro recordings slots hperm
    have hslots := close_slots recordings hperm
    have hrun := close_runUsage recordings
    exact ⟨hslots.tally.trans hrun.tally.symm, hrun, hslots⟩

/-- A cost of so many tenths of a dollar, as the nearest number. -/
def tenths (n : ℕ) : Amount := Amount.ofSum (n * (2 ^ 1074 / 10))

/-- A call that reported a cost. -/
def costing (cost : Amount) : UsageRecord Amount where
  costUsd := some (.amount cost)
  durationSeconds := .nan

/-- A run with calls of ten, twenty and thirty cents: the laws at it, with its slots as they stand. -/
theorem usage_laws_dimes :
    let recordings : List (Recording Amount) :=
      [⟨"api", "engineer", usageOf [costing (tenths 1)]⟩, ⟨"web", "engineer", usageOf [costing (tenths 2)]⟩,
        ⟨"api", "review", usageOf [costing (tenths 3)]⟩]
    ((Meter.record recordings).slots.foldl UsageTotals.merge 0).toTally = (Meter.record recordings).runUsage.toTally :=
  (usage_laws.2.2.2.2.2.2 _ _ (List.Perm.refl _)).1

/-- Ten, twenty and thirty cents are sixty cents in one grouping, and more in the other. -/
theorem merge_not_associative :
    ¬ ∀ a b c : List (UsageRecord Amount),
      ((usageOf a).merge (usageOf b)).merge (usageOf c) = (usageOf a).merge ((usageOf b).merge (usageOf c)) := by
  intro h
  have hdimes := h [costing (tenths 1)] [costing (tenths 2)] [costing (tenths 3)]
  revert hdimes
  decide +kernel

end Usage

end Events

end Kstrl
