import Kstrl.Base.Runs
import Kstrl.Queue.Operations

/-!
# Runs of queue operations with crashes

A run is any sequence of calls, each given an item freshly read from the store and each cut off
or failed at any of its writes.  `QState` carries, beside the disk, what a run is judged by: the
ids that were added and not removed, and how often each entered `running/` since its attempts
were last reset.

* **`Housed`** is the property of one id: one state directory holds it, the scan reports it once
  and in the state of that directory, and its entries are covered by the attempts on disk, which
  are within the bound.
* The invariant is `QState.Kept`: every live id is located, with its entries covered.
  `call_kept` is the step, `queue_housed` the run.

There is one exception.  An item whose spec file is called `meta.json` keeps spec and sidecar in
one file, and an answer overwrites it: until the sidecar is written again the scan does not list
the item.  `answer_loses_meta_item` is such a run.
-/

namespace Kstrl

open CrashProg Runs

/-- One call of a queue operation, with the fate of its writes. -/
structure Call where
  env : Env
  op : Op
  faults : List Fault

/-- The disk a call leaves. -/
def Call.after (c : Call) (d : Disk) : Disk := (c.op.prog c.env c.faults d).2.2

lemma Call.leaves (c : Call) (d : Disk) : Leaves (c.op.prog c.env) d (c.after d) := ⟨c.faults, rfl⟩

/-- The item was read from this disk, and a minted id is in no state directory. -/
def Call.Fresh (c : Call) (d : Disk) : Prop :=
  match c.op with
  | .add mint _ _ => ∀ state, (state, mint.itemId) ∉ d.dirs
  | op => ∀ item, op.item? = some item → item ∈ items d

/-- The attempts the scan reports for an id. -/
def storedAttempts (d : Disk) (id : String) : Option ℤ :=
  ((items d).find? fun item => item.itemId = id).map (·.attempts)

/-- The call published `id`. -/
def Call.Adds (c : Call) (d : Disk) (id : String) : Prop :=
  match c.op with
  | .add mint _ _ => mint.itemId = id ∧ (.queued, id) ∈ (c.after d).dirs
  | _ => False

/-- The call began to unlink the directory of `id`. -/
def Call.Removes (c : Call) (d : Disk) (id : String) : Prop :=
  match c.op with
  | .remove item _ _ => item.itemId = id ∧
      (c.after d).dirs.lookup (item.state, id) ≠ d.dirs.lookup (item.state, id)
  | _ => False

/-- The id a call mints. -/
def Op.mints? : Op → Option String
  | .add mint _ _ => some mint.itemId
  | _ => none

/-- A queue and what its run is judged by. -/
structure QState where
  disk : Disk
  /-- the ids added and not removed -/
  live : Set String
  /-- the entries into `running/` since the last reset of the attempts -/
  entered : String → ℕ

/-- The queue before its first item. -/
def QState.init : QState := { disk := Disk.empty, live := ∅, entered := fun _ => 0 }

/-- The entries of `id` after a call. -/
def Call.entries (c : Call) (d : Disk) (id : String) (n : ℕ) : ℕ :=
  let d' := c.after d
  if c.op.mints? = some id then 0
  else if c.op.resets ∧ (c.op.item?.map (·.itemId)) = some id ∧ storedAttempts d' id = some 0 then 0
  else if (ItemState.running, id) ∉ d.dirs ∧ (ItemState.running, id) ∈ d'.dirs then n + 1
  else n

/-- One call. -/
def QState.next (s : QState) (c : Call) : QState where
  disk := c.after s.disk
  live := {id | c.Adds s.disk id ∨ (id ∈ s.live ∧ ¬ c.Removes s.disk id)}
  entered id := c.entries s.disk id (s.entered id)

/-- The steps of a queue. -/
def QStep (s : QState) (c : Call) (t : QState) : Prop := c.Fresh s.disk ∧ t = s.next c

/-- **The property of one id.** -/
structure Housed (s : QState) (id : String) (item : QueueItem) : Prop where
  /-- one state directory holds it -/
  place : ∀ state, (state, id) ∈ s.disk.dirs ↔ state = item.state
  /-- the scan reports it once, in that directory's state -/
  listed : (items s.disk).filter (fun it => it.itemId = id) = [item]
  /-- its entries are charged -/
  charged : (s.entered id : ℤ) ≤ item.attempts
  /-- and within the bound -/
  bounded : item.attempts ≤ item.maxAttempts

/-! ## The invariant -/

/-- Every live id is located, with its entries covered. -/
def QState.Kept (s : QState) : Prop :=
  ∀ id ∈ s.live, ∃ item, Located s.disk item ∧ item.itemId = id ∧
    (s.entered id : ℤ) ≤ item.attempts ∧ item.attempts ≤ item.maxAttempts

lemma Located.storedAttempts {d : Disk} {item : QueueItem} (h : Located d item) :
    storedAttempts d item.itemId = some item.attempts := by
  rw [Kstrl.storedAttempts, ← List.head?_filter, h.filter_items]
  rfl

/-- Entries grow only by entering `running/`. -/
lemma Call.entries_le (c : Call) (d : Disk) (id : String) (n : ℕ) :
    c.entries d id n ≤ n + 1 := by
  unfold Call.entries
  simp only
  split_ifs <;> omega

lemma Call.entries_le_of_mem {c : Call} {d : Disk} {id : String} {n : ℕ}
    (h : (ItemState.running, id) ∈ (c.after d).dirs → (ItemState.running, id) ∈ d.dirs) :
    c.entries d id n ≤ n := by
  unfold Call.entries
  simp only
  split_ifs with _ _ hrun
  · omega
  · omega
  · exact absurd (h hrun.2) hrun.1
  · exact le_refl n

/-- An id whose directories a call leaves alone stays kept. -/
lemma kept_elsewhere {s : QState} {c : Call} {id : String}
    (hd : ∀ state, (c.after s.disk).dirs.lookup (state, id) = s.disk.dirs.lookup (state, id))
    {item : QueueItem} (hl : Located s.disk item) (hid : item.itemId = id)
    (hcov : (s.entered id : ℤ) ≤ item.attempts) (hmax : item.attempts ≤ item.maxAttempts) :
    ∃ item, Located (s.next c).disk item ∧ item.itemId = id ∧
      ((s.next c).entered id : ℤ) ≤ item.attempts ∧ item.attempts ≤ item.maxAttempts := by
  refine ⟨item, hl.of_lookup (by rw [hid]; exact hd), hid, ?_, hmax⟩
  have hle : c.entries s.disk id (s.entered id) ≤ s.entered id :=
    Call.entries_le_of_mem fun hmem => by
      rwa [← AList.lookup_isSome, hd, AList.lookup_isSome] at hmem
  exact le_trans (by exact_mod_cast hle) hcov

/-- The id a call is given an item of stays kept. -/
lemma kept_self {s : QState} {c : Call} {item : QueueItem} (hop : c.op.item? = some item)
    (hremove : c.op.isRemove = false) (hclobber : c.op.clobbersMeta = false)
    (hl : Located s.disk item) (hcov : (s.entered item.itemId : ℤ) ≤ item.attempts)
    (hmax : item.attempts ≤ item.maxAttempts) :
    ∃ it, Located (s.next c).disk it ∧ it.itemId = item.itemId ∧
      ((s.next c).entered item.itemId : ℤ) ≤ it.attempts ∧ it.attempts ≤ it.maxAttempts := by
  obtain ⟨it, hl', hid, hmax', hbooks, _⟩ := op_effect hop hremove hclobber hl (c.leaves s.disk)
  have hnonneg : (0 : ℤ) ≤ s.entered item.itemId := Int.natCast_nonneg _
  refine ⟨it, hl', hid, ?_, ?_⟩
  · show ((c.entries s.disk item.itemId (s.entered item.itemId) : ℕ) : ℤ) ≤ it.attempts
    rcases hbooks with ⟨hatt, hrun⟩ | ⟨_, _, hatt⟩ | ⟨hreset, hatt, _⟩
    · have hle : c.entries s.disk item.itemId (s.entered item.itemId) ≤ s.entered item.itemId := by
        refine Call.entries_le_of_mem fun hmem => ?_
        rw [← hid, hl'.mem_iff] at hmem
        exact (hl.mem_iff _).mpr (hrun hmem.symm).symm
      rw [hatt]
      exact le_trans (by exact_mod_cast hle) hcov
    · have hle := c.entries_le s.disk item.itemId (s.entered item.itemId)
      rw [hatt]
      omega
    · have hzero : c.entries s.disk item.itemId (s.entered item.itemId) = 0 := by
        have hstored : storedAttempts (c.after s.disk) item.itemId = some 0 := by
          rw [← hid, hl'.storedAttempts, hatt]
        simp [Call.entries, hreset, hop, hstored]
      rw [hzero, hatt]
      exact le_refl _
  · rcases hbooks with ⟨hatt, _⟩ | ⟨_, hlt, hatt⟩ | ⟨_, hatt, _⟩ <;> omega

/-- A call that is given an item adds nothing, and was given one that is on disk. -/
lemma Call.of_item? {c : Call} {d : Disk} {item : QueueItem} (hop : c.op.item? = some item)
    (hfresh : c.Fresh d) : item ∈ items d ∧ ∀ id, ¬ c.Adds d id := by
  unfold Call.Fresh at hfresh
  unfold Call.Adds
  cases h : c.op with
  | add => rw [h] at hop; simp [Op.item?] at hop
  | _ => rw [h] at hop hfresh; exact ⟨hfresh item hop, fun _ hf => hf⟩

/-- A call of `remove` that leaves its directory alone leaves the id alone. -/
lemma Call.lookup_of_not_removes {c : Call} {d : Disk} {item : QueueItem}
    (hop : c.op.item? = some item) (hremove : c.op.isRemove = true)
    (hnot : ¬ c.Removes d item.itemId) (state : ItemState) :
    (c.after d).dirs.lookup (state, item.itemId) = d.dirs.lookup (state, item.itemId) := by
  have hleaves := c.leaves d
  cases h : c.op with
  | remove it order actor =>
      rw [h] at hop hleaves
      cases hop
      simp only [Call.Removes, h, true_and, not_not] at hnot
      by_cases hstate : state = item.state
      · rw [hstate, hnot]
      · exact remove_leaves hleaves _ fun he => hstate (Prod.mk.inj he).1
  | _ => rw [h] at hremove; cases hremove

/-- **One call keeps the invariant**, wherever it stops. -/
lemma call_kept {s : QState} {c : Call} (hk : s.Kept) (hfresh : c.Fresh s.disk)
    (hclobber : c.op.clobbersMeta = false) : (s.next c).Kept := by
  intro id hid
  have hleaves := c.leaves s.disk
  cases hitem : c.op.item? with
  | some item =>
      obtain ⟨hmem, hadds⟩ := Call.of_item? hitem hfresh
      obtain ⟨hlive, hnot⟩ := hid.resolve_left (hadds id)
      obtain ⟨it, hl, rfl, hcov, hb⟩ := hk id hlive
      by_cases hsame : it.itemId = item.itemId
      · have hit : item = it := hl.eq_of_mem_items hmem hsame.symm
        subst hit
        cases hremove : c.op.isRemove with
        | false => exact kept_self hitem hremove hclobber hl hcov hb
        | true => exact kept_elsewhere (Call.lookup_of_not_removes hitem hremove hnot) hl rfl hcov hb
      · exact kept_elsewhere (fun state => op_elsewhere _ _ hitem hleaves state _ hsame) hl rfl hcov hb
  | none =>
      cases hop : c.op with
      | sweepStaging =>
          rw [hop] at hleaves
          have hd := sweepStaging_leaves (leaves_map_unit.mp hleaves)
          obtain ⟨hlive, _⟩ := hid.resolve_left (by simp [Call.Adds, hop])
          obtain ⟨item, hl, rfl, hcov, hb⟩ := hk id hlive
          exact kept_elsewhere (fun _ => by rw [hd]) hl rfl hcov hb
      | add mint spec args =>
          rw [hop] at hleaves
          have hnew : ∀ state, (state, mint.itemId) ∉ s.disk.dirs := by
            simpa [Call.Fresh, hop] using hfresh
          rcases add_leaves (leaves_map_unit.mp hleaves) with hd | ⟨hp, hsafe, hmax⟩
          · obtain ⟨hlive, _⟩ := hid.resolve_left fun hadds => by
              simp only [Call.Adds, hop, hd] at hadds
              exact hnew .queued (hadds.1 ▸ hadds.2)
            obtain ⟨item, hl, rfl, hcov, hb⟩ := hk id hlive
            exact kept_elsewhere (fun _ => by rw [hd]) hl rfl hcov hb
          · by_cases hsame : id = mint.itemId
            · subst hsame
              refine ⟨_, hp.located (newItem_sound hsafe) mint.isSafeComponent rfl hnew, rfl, ?_, ?_⟩
              · simp [QState.next, Call.entries, hop, Op.mints?, Queue.newItem]
              · show (0 : ℤ) ≤ args.resolvedAttempts c.env
                omega
            · obtain ⟨hlive, _⟩ := hid.resolve_left fun hadds => by
                simp only [Call.Adds, hop] at hadds
                exact hsame hadds.1.symm
              obtain ⟨item, hl, rfl, hcov, hb⟩ := hk id hlive
              exact kept_elsewhere (fun state => hp.elsewhere state _ hsame) hl rfl hcov hb
      | _ => rw [hop] at hitem; cases hitem

lemma init_kept : QState.init.Kept := fun _ h => absurd h (Set.notMem_empty _)

/-- A kept id is housed. -/
lemma QState.Kept.housed {s : QState} (h : s.Kept) {id : String} (hid : id ∈ s.live) :
    ∃ item, Housed s id item := by
  obtain ⟨item, hl, rfl, hcov, hb⟩ := h id hid
  exact ⟨item, hl.mem_iff, hl.filter_items, hcov, hb⟩

/-! ## The run -/

/-- The call does not answer an item whose spec file is its sidecar. -/
def KeepsSidecar (_ : QState) (c : Call) : Prop := c.op.clobbersMeta = false

/-- **No loss, no duplicate, no uncharged entry.**  In every run of calls that never answer an
    item whose spec file is `meta.json`, every id added and not removed is housed in every state
    reached, whatever writes failed or were cut off. -/
theorem queue_housed {s : QState} (run : Reaches QStep KeepsSidecar QState.init s) {id : String}
    (hid : id ∈ s.live) : ∃ item, Housed s id item := by
  have hkept : s.Kept := run.invariant init_kept fun t c u hk hclobber hstep => by
    obtain ⟨hfresh, rfl⟩ := hstep
    exact call_kept hk hfresh hclobber
  exact hkept.housed hid

/-! ## Runs on fixed inputs

The calls of one item on a queue that was empty: `ks queue add` of a spec file, then the claim and
the start of the daemon. -/

/-- The daemon of the runs below. -/
def sampleEnv : Env where
  fmt := IsoFormat.utc
  config := {}
  pid := 4711
  hostname := "host"
  now := 1780000000000001
  sha256 := fun _ => ""

def sampleMint : MintedId where
  stamp := "20260528-202640.000001".toList
  nonce := "793181".toList
  stamp_chars := by decide
  nonce_chars := by decide

/-- The first item the scan reports. -/
def firstItem (d : Disk) : QueueItem :=
  (items d).headD { itemId := "", title := "", specFilename := "" }

lemma firstItem_mem {d : Disk} (h : items d ≠ []) : firstItem d ∈ items d := by
  obtain ⟨item, rest, hl⟩ := List.exists_cons_of_ne_nil h
  simp [firstItem, hl]

/-- `ks queue add <file>`. -/
def addCall (file : String) : Call := ⟨sampleEnv, .add sampleMint (.path file "# Spec" none) {}, []⟩

def leaseCall (d : Disk) : Call := ⟨sampleEnv, .lease (firstItem d) 0 "" "serve", []⟩

def startCall (d : Disk) : Call := ⟨sampleEnv, .start (firstItem d) "" "serve", []⟩

def escalateCall (d : Disk) : Call :=
  ⟨sampleEnv, .awaitAnswer (firstItem d) "question" "run-1" "serve", []⟩

/-- `ks queue answer`, killed after the spec write. -/
def cutAnswerCall (d : Disk) : Call :=
  ⟨sampleEnv, .answer (firstItem d) "# Answered" none "me" false "" "", [.pass, .crash]⟩

def addedState (file : String) : QState := QState.init.next (addCall file)

def leasedState (file : String) : QState := (addedState file).next (leaseCall (addedState file).disk)

def startedState (file : String) : QState :=
  (leasedState file).next (startCall (leasedState file).disk)

def escalatedState (file : String) : QState :=
  (startedState file).next (escalateCall (startedState file).disk)

def cutState (file : String) : QState :=
  (escalatedState file).next (cutAnswerCall (escalatedState file).disk)

lemma fresh_add (file : String) : (addCall file).Fresh Disk.empty := fun _ => AList.notMem_empty _

lemma fresh_of_firstItem {c : Call} {d : Disk} (hadd : c.op.mints? = none)
    (hitem : c.op.item? = some (firstItem d)) (h : items d ≠ []) : c.Fresh d := by
  unfold Call.Fresh
  cases hop : c.op with
  | add => rw [hop] at hadd; cases hadd
  | _ =>
      rw [hop] at hitem
      intro item hi
      rw [hitem] at hi
      cases hi
      exact firstItem_mem h

/-- An item whose spec file is `spec.md`, started: housed, with its one entry charged. -/
theorem queue_housed_started :
    ∃ item, Housed (startedState "spec.md") sampleMint.itemId item := by
  refine queue_housed (.tail (a := startCall _) (.tail (a := leaseCall _)
    (.single (a := addCall "spec.md") rfl ⟨fresh_add _, rfl⟩) rfl
    ⟨fresh_of_firstItem rfl rfl ?_, rfl⟩) rfl ⟨fresh_of_firstItem rfl rfl ?_, rfl⟩) ?_
  · decide +kernel
  · decide +kernel
  · exact Or.inr ⟨Or.inr ⟨Or.inl ⟨rfl, by decide +kernel⟩, fun h => h⟩, fun h => h⟩

/-- **A cut answer loses the item.**  The spec file `meta.json` is accepted; when the answer to
    the escalated item is killed after its first write, the scan lists nothing. -/
theorem answer_loses_meta_item :
    ¬ ∀ s, Reaches QStep Always QState.init s → ∀ id ∈ s.live, ∃ item, Housed s id item := by
  intro hall
  have run : Reaches QStep Always QState.init (cutState "meta.json") := by
    refine .tail (a := cutAnswerCall _) (.tail (a := escalateCall _) (.tail (a := startCall _)
      (.tail (a := leaseCall _) (.single (a := addCall "meta.json") trivial ⟨fresh_add _, rfl⟩)
      trivial ⟨fresh_of_firstItem rfl rfl ?_, rfl⟩) trivial ⟨fresh_of_firstItem rfl rfl ?_, rfl⟩)
      trivial ⟨fresh_of_firstItem rfl rfl ?_, rfl⟩) trivial ⟨fresh_of_firstItem rfl rfl ?_, rfl⟩
    all_goals decide +kernel
  have hlive : sampleMint.itemId ∈ (cutState "meta.json").live :=
    Or.inr ⟨Or.inr ⟨Or.inr ⟨Or.inr ⟨Or.inl ⟨rfl, by decide +kernel⟩, fun h => h⟩, fun h => h⟩,
      fun h => h⟩, fun h => h⟩
  obtain ⟨item, hhoused⟩ := hall _ run _ hlive
  have hnone : items (cutState "meta.json").disk = [] := by decide +kernel
  have hlisted := hhoused.listed
  rw [hnone] at hlisted
  cases hlisted

end Kstrl
