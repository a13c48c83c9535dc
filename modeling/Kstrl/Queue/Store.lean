import Kstrl.Base.CrashProg
import Kstrl.Base.PyText
import Kstrl.Queue.Items
import Mathlib.Data.List.AList
import Mathlib.Data.List.Sort
import Mathlib.Data.List.Perm.Lattice

/-!
# The work queue on disk

The state directories, the scan of them and the journal (`kstrl/queue/workqueue_store.py`).

An item is a directory `<state>/<itemId>` of files, so a **place** is a state with a name and
`Disk.dirs` maps places to directories.  One rename moves a directory from one place to another.
A file is either JSON this program wrote or text somebody else did; `Content.readJson` is what
`read_json` makes of it, so a text that happens to be JSON is no special case.

* **`loadItemDir`** reads one item.  Its id and its state are those of the place, whatever the
  sidecar says (`loadItemDir_place`).
* **`items`** is the scan, in run order; `mem_items` says which items it lists and
  `filter_items` that it lists an item once when one directory holds it.
* **`get`** finds an item by its id, a unique prefix of it or its short form.
-/

namespace Kstrl

open CrashProg

def metaFilename : String := "meta.json"

/-- The contents of a file: text with what `read_json` makes of it, or JSON written here. -/
inductive Content where
  | text (chars : String) (parsed : Option Json)
  | json (value : Json)

/-- `read_json` of a file; `none` for a file it cannot decode. -/
def Content.readJson : Content → Option Json
  | .text _ parsed => parsed
  | .json value => some value

/-- A directory of files. -/
abbrev Files : Type := AList fun _ : String => Content

/-- A state directory with the name of an entry. -/
abbrev Place : Type := ItemState × String

/-- What the queue has on disk. -/
structure Disk where
  /-- the item directories of the state directories -/
  dirs : AList fun _ : Place => Files
  /-- the directories under `.staging`, which no scan reaches -/
  staging : AList fun _ : String => Files
  journal : List JournalEntry

/-- The disk of a queue that was never used. -/
def Disk.empty : Disk := { dirs := ∅, staging := ∅, journal := [] }

/-- The errors of a queue operation. -/
inductive QueueError where
  /-- `QueueError` -/
  | refused (msg : String)
  /-- `QueueBudgetExhausted`, a `QueueError` of its own -/
  | budgetExhausted (msg : String)
  /-- `OSError` -/
  | os (msg : String)
  /-- `OverflowError` -/
  | overflow
  deriving Repr

/-- A queue operation. -/
abbrev QueueProg (α : Type) : Type := Prog Disk QueueError α

/-! ## Reading items -/

/-- Read one item directory.  The directory entry is the item's identity and its state; the
    sidecar's copies are overwritten. -/
def loadItemDir (place : Place) (files : Files) : Option QueueItem :=
  if !isSafeComponent place.2 then none
  else do
    let sidecar ← files.lookup metaFilename
    let data ← sidecar.readJson
    let item ← QueueItem.fromDict data
    pure { item with itemId := place.2, state := place.1 }

/-- The id and the state of an item are those of its directory. -/
lemma loadItemDir_place {place : Place} {files : Files} {item : QueueItem}
    (h : loadItemDir place files = some item) : item.itemId = place.2 ∧ item.state = place.1 := by
  unfold loadItemDir at h
  split_ifs at h
  simp only [Option.bind_eq_bind, Option.bind_eq_some_iff, Option.pure_def, Option.some.injEq] at h
  obtain ⟨_, _, _, _, _, _, rfl⟩ := h
  exact ⟨rfl, rfl⟩

lemma loadItemDir_safe {place : Place} {files : Files} {item : QueueItem}
    (h : loadItemDir place files = some item) : isSafeComponent place.2 = true := by
  unfold loadItemDir at h
  split_ifs at h with hs
  simpa using hs

lemma ne_empty_of_isSafeComponent {name : String} (h : isSafeComponent name = true) :
    name ≠ "" := by
  rintro rfl
  exact absurd h (by decide)

lemma loadItemDir_sound {place : Place} {files : Files} {item : QueueItem}
    (h : loadItemDir place files = some item) : item.Sound := by
  have hsafe := loadItemDir_safe h
  unfold loadItemDir at h
  split_ifs at h
  simp only [Option.bind_eq_bind, Option.bind_eq_some_iff, Option.pure_def, Option.some.injEq] at h
  obtain ⟨_, _, _, _, _, hdict, rfl⟩ := h
  have hs := QueueItem.sound_of_fromDict hdict
  exact ⟨ne_empty_of_isSafeComponent hsafe, hs.title, hs.specFilename, hs.safe⟩

/-- A directory whose sidecar was written from a sound item reads back as that item. -/
lemma loadItemDir_of_meta {place : Place} {files : Files} {item : QueueItem}
    (hsafe : isSafeComponent place.2 = true) (hs : item.Sound)
    (h : files.lookup metaFilename = some (.json item.toDict)) :
    loadItemDir place files = some { item with itemId := place.2, state := place.1 } := by
  rw [loadItemDir, if_neg (by simp [hsafe]), h]
  simp [Content.readJson, QueueItem.fromDict_toDict item hs]

/-- The entries of one state directory, sorted by name; dotted names are left out. -/
def scanState (d : Disk) (state : ItemState) : List QueueItem :=
  (((d.dirs.entries.filter fun e => e.1.1 = state).insertionSort fun a b => a.1.2 ≤ b.1.2).filter
    fun e => e.1.2.toList.head? ≠ some '.').filterMap fun e => loadItemDir e.1 e.2

/-- Every item in the given states, in run order. -/
def items (d : Disk) (states : List ItemState := allStates) : List QueueItem :=
  (states.flatMap (scanState d)).insertionSort QueueItem.sortKeyLe

lemma head?_of_isSafeComponent {name : String} (h : isSafeComponent name = true) :
    name.toList.head? ≠ some '.' := by
  simp only [isSafeComponent, Bool.and_eq_true, Bool.not_eq_true', decide_eq_false_iff_not] at h
  exact h.1.1.2

lemma mem_scanState {d : Disk} {state : ItemState} {item : QueueItem} :
    item ∈ scanState d state ↔
      ∃ id files, d.dirs.lookup (state, id) = some files ∧
        loadItemDir (state, id) files = some item := by
  simp only [scanState, List.mem_filterMap, List.mem_filter, List.mem_insertionSort,
    decide_eq_true_eq]
  constructor
  · rintro ⟨⟨⟨st, id⟩, files⟩, ⟨⟨hmem, rfl⟩, _⟩, hload⟩
    exact ⟨id, files, AList.mem_lookup_iff.mpr hmem, hload⟩
  · rintro ⟨id, files, hlook, hload⟩
    refine ⟨⟨(state, id), files⟩, ⟨⟨AList.mem_lookup_iff.mp hlook, rfl⟩, ?_⟩, hload⟩
    exact head?_of_isSafeComponent (loadItemDir_safe hload)

/-- What the scan lists. -/
lemma mem_items {d : Disk} {states : List ItemState} {item : QueueItem} :
    item ∈ items d states ↔
      ∃ state ∈ states, ∃ id files, d.dirs.lookup (state, id) = some files ∧
        loadItemDir (state, id) files = some item := by
  simp only [items, List.mem_insertionSort, List.mem_flatMap, mem_scanState]

/-- An item the scan lists, at its place. -/
lemma lookup_of_mem_items {d : Disk} {states : List ItemState} {item : QueueItem}
    (h : item ∈ items d states) :
    item.state ∈ states ∧ ∃ files, d.dirs.lookup (item.state, item.itemId) = some files ∧
      loadItemDir (item.state, item.itemId) files = some item := by
  obtain ⟨state, hstate, id, files, hlook, hload⟩ := mem_items.mp h
  obtain ⟨hid, hst⟩ := loadItemDir_place hload
  rw [hst, hid]
  exact ⟨hstate, files, hlook, hload⟩

/-! ### Each directory is listed once -/

/-- Two items of different directories. -/
def Apart (a b : QueueItem) : Prop := (a.state, a.itemId) ≠ (b.state, b.itemId)

lemma Apart.symm {a b : QueueItem} (h : Apart a b) : Apart b a := fun he => h he.symm

lemma pairwise_scanState (d : Disk) (state : ItemState) : (scanState d state).Pairwise Apart := by
  have hkeys : d.dirs.entries.Pairwise fun e e' => e.1 ≠ e'.1 :=
    List.nodupKeys_iff_pairwise.mp d.dirs.nodupKeys
  have hsorted := ((List.perm_insertionSort (fun a b : (_ : Place) × Files => a.1.2 ≤ b.1.2)
    (d.dirs.entries.filter fun e => e.1.1 = state)).pairwise_iff fun h => Ne.symm h).mpr
      (hkeys.filter _)
  refine (hsorted.filter _).filterMap _ ?_
  intro e e' hne a ha b hb
  obtain ⟨hida, hsta⟩ := loadItemDir_place (Option.mem_def.mp ha)
  obtain ⟨hidb, hstb⟩ := loadItemDir_place (Option.mem_def.mp hb)
  rw [Apart, hida, hsta, hidb, hstb]
  exact hne

lemma pairwise_items (d : Disk) {states : List ItemState} (hn : states.Nodup) :
    (items d states).Pairwise Apart := by
  rw [items, (List.perm_insertionSort _ _).pairwise_iff Apart.symm, List.pairwise_flatMap]
  refine ⟨fun state _ => pairwise_scanState d state, hn.imp ?_⟩
  intro s t hne a ha b hb
  obtain ⟨id, files, _, hload⟩ := mem_scanState.mp ha
  obtain ⟨id', files', _, hload'⟩ := mem_scanState.mp hb
  rw [Apart, (loadItemDir_place hload).2, (loadItemDir_place hload').2]
  exact fun he => hne (Prod.mk.inj he).1

/-! ### The order of a scan -/

instance : Std.Total QueueItem.sortKeyLe where
  total a b := by
    unfold QueueItem.sortKeyLe
    rcases lt_trichotomy a.priority b.priority with h | h | h
    · exact Or.inr (Or.inl h)
    · rcases String.le_total a.itemId b.itemId with hid | hid
      · exact Or.inl (Or.inr ⟨h, hid⟩)
      · exact Or.inr (Or.inr ⟨h.symm, hid⟩)
    · exact Or.inl (Or.inl h)

instance : IsTrans QueueItem QueueItem.sortKeyLe where
  trans a b c hab hbc := by
    unfold QueueItem.sortKeyLe at *
    rcases hab with hab | ⟨hab, hid⟩ <;> rcases hbc with hbc | ⟨hbc, hid'⟩
    · exact Or.inl (by omega)
    · exact Or.inl (by omega)
    · exact Or.inl (by omega)
    · exact Or.inr ⟨by omega, String.le_trans hid hid'⟩

/-- Scans that list the same items, each id once, are equal. -/
lemma items_congr {d d' : Disk} {states : List ItemState} (hn : states.Nodup)
    (hmem : ∀ item, item ∈ items d' states ↔ item ∈ items d states)
    (hid : ∀ a ∈ items d states, ∀ b ∈ items d states, a.itemId = b.itemId → a = b) :
    items d' states = items d states := by
  have hnodup : ∀ s : Disk, (items s states).Nodup := fun s =>
    (pairwise_items s hn).imp fun h he => h (by rw [he])
  refine List.Perm.eq_of_pairwise ?_ (List.pairwise_insertionSort QueueItem.sortKeyLe _)
    (List.pairwise_insertionSort QueueItem.sortKeyLe _)
    ((List.perm_ext_iff_of_nodup (hnodup d') (hnodup d)).mpr hmem)
  intro a b ha hb hab hba
  refine hid a ((hmem a).mp ha) b hb ?_
  unfold QueueItem.sortKeyLe at hab hba
  rcases hab with hab | ⟨hab, hle⟩ <;> rcases hba with hba | ⟨hba, hge⟩
  · omega
  · omega
  · omega
  · exact String.le_antisymm hle hge

/-- **Listed once.**  If one state directory holds `id`, and its sidecar is readable, the scan
    lists exactly one item of that id, and gives it the state of that directory. -/
lemma filter_items {d : Disk} {state : ItemState} {id : String} {files : Files}
    {item : QueueItem} (hlook : d.dirs.lookup (state, id) = some files)
    (hload : loadItemDir (state, id) files = some item)
    (honly : ∀ state', (state', id) ∈ d.dirs → state' = state) :
    (items d).filter (fun it => it.itemId = id) = [item] := by
  have hmem : ∀ it, it ∈ (items d).filter (fun it => it.itemId = id) ↔ it = item := by
    intro it
    rw [List.mem_filter, decide_eq_true_eq]
    constructor
    · rintro ⟨hit, rfl⟩
      obtain ⟨_, files', hlook', hload'⟩ := lookup_of_mem_items hit
      have hst := honly it.state (AList.lookup_isSome.mp (by rw [hlook']; rfl))
      rw [hst, hlook] at hlook'
      cases hlook'
      rw [hst, hload] at hload'
      exact (Option.some.inj hload').symm
    · rintro rfl
      exact ⟨mem_items.mpr ⟨state, mem_allStates state, id, files, hlook, hload⟩,
        (loadItemDir_place hload).1⟩
  have hnodup : ((items d).filter (fun it => it.itemId = id)).Nodup :=
    ((pairwise_items d (by decide)).filter _).imp fun h he => h (by rw [he])
  exact List.perm_singleton.mp ((List.perm_ext_iff_of_nodup hnodup (List.nodup_singleton item)).mpr
    fun it => (hmem it).trans List.mem_singleton.symm)

/-! ## Finding one item -/

/-- One item by its full id, a unique prefix of it, or its short form. -/
def Queue.get (d : Disk) (itemId : String) : Except QueueError (Option QueueItem) :=
  match (items d).find? fun item => item.itemId = itemId with
  | some exact => .ok (some exact)
  | none =>
    match (items d).filter fun item =>
        itemId.toList.isPrefixOf item.itemId.toList || shortItemId item.itemId = itemId with
    | [] => .ok none
    | [item] => .ok (some item)
    | prefixed =>
      let found := String.intercalate ", " (prefixed.map (·.itemId))
      .error (.refused (PyText.repr itemId ++ " matches multiple items: " ++ found))

/-- What `get` finds is on disk. -/
lemma Queue.mem_items_of_get {d : Disk} {itemId : String} {item : QueueItem}
    (h : Queue.get d itemId = .ok (some item)) : item ∈ items d := by
  unfold Queue.get at h
  split at h
  · next exact hfind =>
      cases h
      exact List.mem_of_find?_eq_some hfind
  · split at h
    · cases h
    · next one hone =>
        cases h
        exact (List.mem_filter.mp (hone ▸ List.mem_singleton.mpr rfl)).1
    · cases h

/-- An id that is on disk is found as it is. -/
lemma Queue.get_of_lookup {d : Disk} {state : ItemState} {id : String} {files : Files}
    {item : QueueItem} (hlook : d.dirs.lookup (state, id) = some files)
    (hload : loadItemDir (state, id) files = some item)
    (honly : ∀ state', (state', id) ∈ d.dirs → state' = state) :
    Queue.get d id = .ok (some item) := by
  have hfilter := filter_items hlook hload honly
  have hfind : (items d).find? (fun it => it.itemId = id) = some item := by
    rw [← List.head?_filter, hfilter]
    rfl
  rw [Queue.get, hfind]

/-! ## The journal and the staging directory -/

/-- Append one transition.  A failed append is swallowed: the directory is the truth and the
    journal the narration. -/
def journal (entry : JournalEntry) : QueueProg Unit :=
  writeQuiet fun d => { d with journal := d.journal ++ [entry] }

/-- Delete every half-published item, and say how many there were. -/
def sweepStaging (now : String) : QueueProg ℕ := do
  let d ← read
  let names := d.staging.keys.insertionSort (· ≤ ·)
  let swept : ℕ ← names.foldlM (fun count name => do
    writeQuiet fun d => { d with staging := d.staging.erase name }
    pure (count + 1)) 0
  if swept = 0 then pure 0
  else do
    journal { ts := now, itemId := "", fromState := "staging", toState := "swept",
              reason := "abandoned mid-publish", detail := .obj [("count", .int swept)] }
    pure swept

end Kstrl
