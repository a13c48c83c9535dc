import Kstrl.Queue.WorkQueue

/-!
# What the operations do to the disk

Everything later proofs need of an operation is said here, once.  `transition_triple` lists the
disks a transition can leave, at its end, at an error and at a crash: the disk as it was, the
disk with the new sidecar, and the disk with the directory renamed too.  Every operation that
moves an item is a transition behind some checks, so it inherits that list.

* **`Located d item`**: the item is what its directory says, and no other state directory holds
  its id.
* **`SameElsewhere d d' id`**: the directories of all other ids are as they were.
-/

namespace Kstrl

open CrashProg

/-! ## Writes and lookups -/

section Lookups

variable (d : Disk) (place p : Place)

@[simp] lemma lookup_putFile_self (name : String) (c : Content) :
    (d.putFile place name c).dirs.lookup place
      = some (((d.dirs.lookup place).getD ∅).insert name c) := by
  simp [Disk.putFile]

lemma lookup_putFile_ne (name : String) (c : Content) (h : p ≠ place) :
    (d.putFile place name c).dirs.lookup p = d.dirs.lookup p := by
  simp [Disk.putFile, AList.lookup_insert_ne h]

@[simp] lemma staging_putFile (name : String) (c : Content) :
    (d.putFile place name c).staging = d.staging := rfl

@[simp] lemma journal_putFile (name : String) (c : Content) :
    (d.putFile place name c).journal = d.journal := rfl

lemma mem_putFile (name : String) (c : Content) (h : place ∈ d.dirs) :
    p ∈ (d.putFile place name c).dirs ↔ p ∈ d.dirs := by
  rw [Disk.putFile, AList.mem_insert]
  constructor
  · rintro (rfl | hp)
    · exact h
    · exact hp
  · exact Or.inr

lemma mem_putMeta (item : QueueItem) (h : place ∈ d.dirs) :
    p ∈ (d.putMeta place item).dirs ↔ p ∈ d.dirs := mem_putFile d place p _ _ h

variable {d} {source target : Place} {files : Files}

lemma lookup_rename_target (hs : d.dirs.lookup source = some files) :
    (d.rename source target).dirs.lookup target = some files := by
  simp [Disk.rename, hs]

lemma lookup_rename_source (hs : d.dirs.lookup source = some files) (hne : source ≠ target) :
    (d.rename source target).dirs.lookup source = none := by
  simp [Disk.rename, hs, AList.lookup_insert_ne hne, AList.lookup_erase]

lemma lookup_rename_ne (hs : d.dirs.lookup source = some files) {p : Place} (h1 : p ≠ source)
    (h2 : p ≠ target) : (d.rename source target).dirs.lookup p = d.dirs.lookup p := by
  simp [Disk.rename, hs, AList.lookup_insert_ne h2, AList.lookup_erase_ne h1]

lemma mem_rename (hs : d.dirs.lookup source = some files) (p : Place) :
    p ∈ (d.rename source target).dirs ↔ p = target ∨ (p ≠ source ∧ p ∈ d.dirs) := by
  simp [Disk.rename, hs, AList.mem_insert, AList.mem_erase]

end Lookups

/-! ## Located items -/

/-- The item is what its directory says, and no other state directory holds its id. -/
structure Located (d : Disk) (item : QueueItem) : Prop where
  files : ∃ files, d.dirs.lookup (item.state, item.itemId) = some files ∧
    loadItemDir (item.state, item.itemId) files = some item
  only : ∀ state, (state, item.itemId) ∈ d.dirs → state = item.state

namespace Located

variable {d d' : Disk} {item item' : QueueItem}

lemma mem (h : Located d item) : (item.state, item.itemId) ∈ d.dirs := by
  obtain ⟨files, hlook, _⟩ := h.files
  exact AList.lookup_isSome.mp (by rw [hlook]; rfl)

lemma safe (h : Located d item) : isSafeComponent item.itemId = true := by
  obtain ⟨files, _, hload⟩ := h.files
  exact loadItemDir_safe hload

lemma sound (h : Located d item) : item.Sound := by
  obtain ⟨files, _, hload⟩ := h.files
  exact loadItemDir_sound hload

lemma filter_items (h : Located d item) :
    (items d).filter (fun it => it.itemId = item.itemId) = [item] := by
  obtain ⟨files, hlook, hload⟩ := h.files
  exact Kstrl.filter_items hlook hload h.only

lemma get (h : Located d item) : Queue.get d item.itemId = .ok (some item) := by
  obtain ⟨files, hlook, hload⟩ := h.files
  exact Queue.get_of_lookup hlook hload h.only

lemma mem_items (h : Located d item) : item ∈ items d := by
  have : item ∈ (items d).filter (fun it => it.itemId = item.itemId) := by
    rw [h.filter_items]; exact List.mem_singleton.mpr rfl
  exact (List.mem_filter.mp this).1

/-- A scan that lists the id lists the located item. -/
lemma eq_of_mem_items (h : Located d item) {states : List ItemState}
    (hmem : item' ∈ items d states) (hid : item'.itemId = item.itemId) : item' = item := by
  obtain ⟨_, files, hlook, hload⟩ := lookup_of_mem_items hmem
  have hst := h.only item'.state (AList.lookup_isSome.mp (by rw [← hid, hlook]; rfl))
  obtain ⟨files', hlook', hload'⟩ := h.files
  rw [hid, hst, hlook'] at hlook
  cases hlook
  rw [hid, hst, hload'] at hload
  exact (Option.some.inj hload).symm

/-- An item stays where it is when the directories of its id do. -/
lemma of_lookup (h : Located d item)
    (hd : ∀ state, d'.dirs.lookup (state, item.itemId) = d.dirs.lookup (state, item.itemId)) :
    Located d' item where
  files := by
    obtain ⟨files, hlook, hload⟩ := h.files
    exact ⟨files, by rw [hd, hlook], hload⟩
  only state hmem := by
    rw [← AList.lookup_isSome, hd, AList.lookup_isSome] at hmem
    exact h.only state hmem

/-- A located item is in no other state directory. -/
lemma mem_iff (h : Located d item) (state : ItemState) :
    (state, item.itemId) ∈ d.dirs ↔ state = item.state :=
  ⟨h.only state, fun he => he ▸ h.mem⟩

end Located

/-- The item has a directory, whatever is in it, and no other state directory holds its id. -/
structure Placed (d : Disk) (item : QueueItem) : Prop where
  safe : isSafeComponent item.itemId = true
  mem : (item.state, item.itemId) ∈ d.dirs
  only : ∀ state, (state, item.itemId) ∈ d.dirs → state = item.state

lemma Located.placed {d : Disk} {item : QueueItem} (h : Located d item) : Placed d item :=
  ⟨h.safe, h.mem, h.only⟩

lemma Placed.putFile {d : Disk} {item : QueueItem} (h : Placed d item) (name : String)
    (c : Content) : Placed (d.putFile (item.state, item.itemId) name c) item :=
  ⟨h.safe, (mem_putFile d _ _ _ _ h.mem).mpr h.mem,
    fun state hmem => h.only state ((mem_putFile d _ _ _ _ h.mem).mp hmem)⟩

/-- The directories of all other ids are as they were. -/
def SameElsewhere (d d' : Disk) (id : String) : Prop :=
  ∀ state id', id' ≠ id → d'.dirs.lookup (state, id') = d.dirs.lookup (state, id')

namespace SameElsewhere

variable {d d' d'' : Disk} {id : String}

lemma refl (d : Disk) (id : String) : SameElsewhere d d id := fun _ _ _ => rfl

lemma of_dirs (h : d'.dirs = d.dirs) : SameElsewhere d d' id := fun _ _ _ => by rw [h]

lemma trans (h : SameElsewhere d d' id) (h' : SameElsewhere d' d'' id) :
    SameElsewhere d d'' id := fun state id' hne => (h' state id' hne).trans (h state id' hne)

lemma mem (h : SameElsewhere d d' id) {state : ItemState} {id' : String} (hne : id' ≠ id) :
    (state, id') ∈ d'.dirs ↔ (state, id') ∈ d.dirs := by
  rw [← AList.lookup_isSome, ← AList.lookup_isSome, h state id' hne]

lemma located (h : SameElsewhere d d' id) {item : QueueItem} (hne : item.itemId ≠ id)
    (hl : Located d item) : Located d' item := hl.of_lookup fun state => h state _ hne

lemma putFile (d : Disk) (place : Place) (name : String) (c : Content) :
    SameElsewhere d (d.putFile place name c) place.2 := fun state id' hne =>
  lookup_putFile_ne _ _ _ _ _ fun h => hne (by rw [← h])

lemma rename (d : Disk) (source target : Place) (h : target.2 = source.2) :
    SameElsewhere d (d.rename source target) source.2 := by
  intro state id' hne
  cases hs : d.dirs.lookup source with
  | none => simp [Disk.rename, hs]
  | some files =>
      exact lookup_rename_ne hs (fun he => hne (by rw [← he])) fun he => hne (by rw [← h, ← he])

end SameElsewhere

/-! ## Field updates -/

/-- A field no keyword argument sets is kept. -/
lemma setAll_eq {α : Type} (f : QueueItem → α) (hf : ∀ item u, f (Update.set item u) = f item)
    (item : QueueItem) (updates : List Update) : f (setAll item updates) = f item := by
  unfold setAll
  induction updates generalizing item with
  | nil => rfl
  | cons u us ih => rw [List.foldl_cons, ih, hf]

section Kept

variable (item : QueueItem) (updates : List Update)

@[simp] lemma itemId_setAll : (setAll item updates).itemId = item.itemId :=
  setAll_eq _ (fun _ u => by cases u <;> rfl) item updates

@[simp] lemma title_setAll : (setAll item updates).title = item.title :=
  setAll_eq _ (fun _ u => by cases u <;> rfl) item updates

@[simp] lemma specFilename_setAll : (setAll item updates).specFilename = item.specFilename :=
  setAll_eq _ (fun _ u => by cases u <;> rfl) item updates

@[simp] lemma maxAttempts_setAll : (setAll item updates).maxAttempts = item.maxAttempts :=
  setAll_eq _ (fun _ u => by cases u <;> rfl) item updates

end Kept

/-! ## Transitions -/

/-- The checks a transition makes before it writes. -/
structure Enabled (d : Disk) (item : QueueItem) (toState : ItemState) : Prop where
  legal : toState ∈ legalTransitions item.state
  safe : isSafeComponent item.itemId = true
  source : (item.state, item.itemId) ∈ d.dirs
  target : (toState, item.itemId) ∉ d.dirs

/-- A legal move of a placed item passes the checks. -/
lemma Placed.enabled {d : Disk} {item : QueueItem} {toState : ItemState} (h : Placed d item)
    (hlegal : toState ∈ legalTransitions item.state) : Enabled d item toState :=
  ⟨hlegal, h.safe, h.mem, fun hmem => ne_of_mem_legalTransitions hlegal (h.only _ hmem).symm⟩

/-- The disk after both writes of a transition, the journal aside. -/
def Disk.committed (d : Disk) (item written : QueueItem) (toState : ItemState) : Disk :=
  (d.putMeta (item.state, item.itemId) written).rename (item.state, item.itemId)
    (toState, item.itemId)

/-- The disks that differ in the journal only. -/
def SameDirs (d d' : Disk) : Prop := d'.dirs = d.dirs ∧ d'.staging = d.staging

lemma SameDirs.refl (d : Disk) : SameDirs d d := ⟨rfl, rfl⟩

lemma SameDirs.trans {d d' d'' : Disk} (h : SameDirs d d') (h' : SameDirs d' d'') :
    SameDirs d d'' := ⟨h'.1.trans h.1, h'.2.trans h.2⟩

lemma Located.sameDirs {d d' : Disk} {item : QueueItem} (h : Located d item)
    (hd : SameDirs d d') : Located d' item := h.of_lookup fun _ => by rw [hd.1]

/-- A disk a transition of `item` to `toState` can leave, `written` being the sidecar. -/
def MoveLeaves (d : Disk) (item written : QueueItem) (toState : ItemState) (d' : Disk) : Prop :=
  d' = d ∨ Enabled d item toState ∧
    (d' = d.putMeta (item.state, item.itemId) written ∨ SameDirs (d.committed item written toState) d')

section Transition

variable (env : Env) (item : QueueItem) (toState : ItemState) (reason actor : String)
  (chargeAttempt : Bool) (detail : Json) (updates : List Update)

/-- **What a transition does**, at its end, at an error and at a crash. -/
theorem transition_triple (d : Disk) :
    Triple (fun s => s = d)
      (Queue.transition env item toState reason actor chargeAttempt detail updates)
      (fun it d' => Enabled d item toState ∧
        it = Queue.moved env item toState chargeAttempt updates ∧
        SameDirs (d.committed item (Queue.moved env item toState chargeAttempt updates) toState) d')
      (fun _ d' => d' = d ∨ Enabled d item toState ∧ d' = d.putMeta (item.state, item.itemId)
        (Queue.moved env item toState chargeAttempt updates))
      (fun d' => MoveLeaves d item (Queue.moved env item toState chargeAttempt updates) toState d') := by
  set m := Queue.moved env item toState chargeAttempt updates with hm
  have hid : m.itemId = item.itemId := by simp [hm, Queue.moved]
  unfold Queue.transition Queue.itemDir
  refine Triple.bind (Triple.require fun _ s hs => Or.inl hs) fun _ => ?_
  refine Triple.bind (Q := fun place s => (s = d ∧ toState ∈ legalTransitions item.state) ∧
    isSafeComponent item.itemId = true ∧ place = (item.state, item.itemId)) ?_ fun place => ?_
  · refine Triple.bind (Triple.require fun _ s hs => Or.inl hs.1) fun _ => ?_
    exact Triple.pure fun s hs => ⟨hs.1, hs.2, rfl⟩
  refine Triple.bind (Triple.read (Q := fun a s => a = d ∧ (s = d ∧
    toState ∈ legalTransitions item.state) ∧ isSafeComponent item.itemId = true ∧
    place = (item.state, item.itemId)) fun s hs => ⟨hs.1.1, hs⟩) fun a => ?_
  refine Triple.bind (Triple.require fun _ s hs => Or.inl hs.2.1.1) fun _ => ?_
  refine Triple.bind (Triple.require fun _ s hs => Or.inl hs.1.2.1.1) fun _ => ?_
  -- the sidecar
  refine Triple.bind (Q := fun _ s => Enabled d item toState ∧
    place = (item.state, item.itemId) ∧ s = d.putMeta (item.state, item.itemId) m) ?_ fun _ => ?_
  · refine Triple.write ?_ ?_ ?_
    · rintro s ⟨⟨⟨rfl, ⟨rfl, hlegal⟩, hsafe, rfl⟩, hsource⟩, htarget⟩
      exact ⟨⟨hlegal, hsafe, hsource, htarget⟩, rfl, rfl⟩
    · rintro s ⟨⟨⟨_, ⟨rfl, _⟩, _⟩, _⟩, _⟩
      exact Or.inl rfl
    · rintro s ⟨⟨⟨_, ⟨rfl, _⟩, _⟩, _⟩, _⟩
      exact Or.inl rfl
  -- the rename, which commits
  refine Triple.bind (Q := fun _ s => Enabled d item toState ∧ s = d.committed item m toState)
    ?_ fun _ => ?_
  · refine Triple.write ?_ ?_ ?_
    · rintro s ⟨hen, rfl, rfl⟩
      exact ⟨hen, rfl⟩
    · rintro s ⟨hen, _, rfl⟩
      exact Or.inr ⟨hen, rfl⟩
    · rintro s ⟨hen, _, rfl⟩
      exact Or.inr ⟨hen, Or.inl rfl⟩
  refine Triple.bind (Q := fun _ s => Enabled d item toState ∧
    SameDirs (d.committed item m toState) s) ?_ fun _ => ?_
  · refine Triple.writeQuiet ?_ ?_ ?_
    · rintro s ⟨hen, rfl⟩
      exact ⟨hen, rfl, rfl⟩
    · rintro s ⟨hen, rfl⟩
      exact ⟨hen, SameDirs.refl _⟩
    · rintro s ⟨hen, rfl⟩
      exact Or.inr ⟨hen, Or.inr (SameDirs.refl _)⟩
  exact Triple.pure fun s hs => ⟨hs.1, rfl, hs.2⟩

/-- The disk with one more row in the journal. -/
def Disk.logged (d : Disk) (entry : JournalEntry) : Disk := { d with journal := d.journal ++ [entry] }

/-- The journal row of a transition that wrote `written`. -/
def transitionEntry (written : QueueItem) : JournalEntry :=
  { ts := written.updatedAt, itemId := written.itemId, fromState := item.state.name,
    toState := toState.name, reason := reason, actor := actor, attempts := written.attempts,
    detail := detail }

lemma itemDir_trace {item : QueueItem} (h : isSafeComponent item.itemId = true) (d : Disk) :
    Trace (Queue.itemDir item) d [] (item.state, item.itemId) :=
  Trace.bind (Trace.require h _ _) (Trace.pure _ _)

lemma itemDir_undisturbed {item : QueueItem} (h : isSafeComponent item.itemId = true) (d : Disk) :
    Queue.itemDir item [] d = (.done (item.state, item.itemId), [], d) :=
  (itemDir_trace h d).undisturbed

/-- **The three writes of a transition** that passes its checks. -/
theorem transition_trace {d : Disk} (h : Enabled d item toState) :
    let written := Queue.moved env item toState chargeAttempt updates
    Trace (Queue.transition env item toState reason actor chargeAttempt detail updates) d
      [d.putMeta (item.state, item.itemId) written, d.committed item written toState,
        (d.committed item written toState).logged
          (transitionEntry item toState reason actor detail written)] written := by
  intro written
  have hid : written.itemId = item.itemId := by simp [written, Queue.moved]
  refine Trace.bind (Trace.require h.legal _ _) ?_
  refine Trace.bind (itemDir_trace h.safe _) (Trace.bind (Trace.read _) ?_)
  refine Trace.bind (Trace.require h.source _ _) ?_
  refine Trace.bind (Trace.require h.target _ _) ?_
  refine Trace.bind (Trace.write _ _ _) ?_
  refine Trace.bind (Trace.write _ _ _) ?_
  exact Trace.bind (Trace.writeQuiet _ _) (Trace.pure _ _)

/-- Whatever a transition leaves is one of the three disks. -/
lemma transition_leaves {d d' : Disk}
    (h : Leaves (Queue.transition env item toState reason actor chargeAttempt detail updates) d d') :
    MoveLeaves d item (Queue.moved env item toState chargeAttempt updates) toState d' := by
  refine Triple.leaves ((transition_triple env item toState reason actor chargeAttempt detail
    updates d).conseq (fun _ => id) ?_ ?_ fun _ => id) rfl h
  · rintro _ s ⟨hen, _, hs⟩
    exact Or.inr ⟨hen, Or.inr hs⟩
  · rintro _ s (rfl | ⟨hen, rfl⟩)
    · exact Or.inl rfl
    · exact Or.inr ⟨hen, Or.inl rfl⟩

/-- A transition of an item that is not where it says writes nothing. -/
lemma transition_refused {d d' : Disk} (hnot : (item.state, item.itemId) ∉ d.dirs)
    (h : Leaves (Queue.transition env item toState reason actor chargeAttempt detail updates) d d') :
    d' = d :=
  (transition_leaves env item toState reason actor chargeAttempt detail updates h).resolve_right
    fun hen => hnot hen.1.source

end Transition

/-! ### Where the item is afterwards -/

lemma Placed.putMeta {d : Disk} {item written : QueueItem} (h : Placed d item)
    (hid : written.itemId = item.itemId) (hs : written.Sound) :
    Located (d.putMeta (item.state, item.itemId) written) { written with state := item.state } where
  files := by
    refine ⟨_, by rw [hid]; exact lookup_putFile_self _ _ _ _, ?_⟩
    rw [hid, loadItemDir_of_meta h.safe hs (AList.lookup_insert _), ← hid]
  only state hmem := by
    have hmem' : (state, written.itemId) ∈ (d.putMeta (item.state, item.itemId) written).dirs := hmem
    rw [hid, mem_putMeta d _ _ _ h.mem] at hmem'
    exact h.only state hmem'

lemma Placed.committed {d : Disk} {item written : QueueItem} {toState : ItemState}
    (h : Placed d item) (hid : written.itemId = item.itemId) (hs : written.Sound)
    (hstate : written.state = toState) (hen : Enabled d item toState) :
    Located (d.committed item written toState) written := by
  have hput := lookup_putFile_self d (item.state, item.itemId) metaFilename (.json written.toDict)
  have hne : ((item.state, item.itemId) : Place) ≠ (toState, item.itemId) := fun he =>
    ne_of_mem_legalTransitions hen.legal (Prod.mk.inj he).1
  constructor
  · refine ⟨_, by rw [hstate, hid]; exact lookup_rename_target hput, ?_⟩
    rw [hid, hstate, loadItemDir_of_meta h.safe hs (AList.lookup_insert _), ← hid, ← hstate]
  · intro state hmem
    rw [hid] at hmem
    rcases (mem_rename hput _).mp hmem with he | ⟨hns, hmem⟩
    · rw [hstate]
      exact (Prod.mk.inj he).1
    · have hmem := (mem_putMeta d _ _ written h.mem).mp hmem
      exact absurd (by rw [h.only state hmem]) hns

/-- After a transition the item is where it was, with the old sidecar or the new one, or it has
    arrived. -/
lemma MoveLeaves.located {d d' : Disk} {item written : QueueItem} {toState : ItemState}
    (hm : MoveLeaves d item written toState d') (h : Located d item)
    (hid : written.itemId = item.itemId) (hs : written.Sound) (hstate : written.state = toState) :
    ∃ item', Located d' item' ∧
      (item' = item ∨ Enabled d item toState ∧
        (item' = { written with state := item.state } ∨ item' = written)) := by
  rcases hm with rfl | ⟨hen, rfl | hd⟩
  · exact ⟨item, h, Or.inl rfl⟩
  · exact ⟨_, h.placed.putMeta hid hs, Or.inr ⟨hen, Or.inl rfl⟩⟩
  · exact ⟨written, (h.placed.committed hid hs hstate hen).sameDirs hd, Or.inr ⟨hen, Or.inr rfl⟩⟩

lemma MoveLeaves.sameElsewhere {d d' : Disk} {item written : QueueItem} {toState : ItemState}
    (hm : MoveLeaves d item written toState d') : SameElsewhere d d' item.itemId := by
  rcases hm with rfl | ⟨_, rfl | hd⟩
  · exact SameElsewhere.refl _ _
  · exact SameElsewhere.putFile d (item.state, item.itemId) _ _
  · exact ((SameElsewhere.putFile d (item.state, item.itemId) _ _).trans
      (SameElsewhere.rename _ (item.state, item.itemId) (toState, item.itemId) rfl)).trans
        (SameElsewhere.of_dirs hd.1)

section MovedFields

variable (env : Env) (item : QueueItem) (toState : ItemState) (charge : Bool)
  (updates : List Update)

@[simp] lemma itemId_moved : (Queue.moved env item toState charge updates).itemId = item.itemId := by
  simp [Queue.moved]

@[simp] lemma state_moved : (Queue.moved env item toState charge updates).state = toState := rfl

@[simp] lemma maxAttempts_moved :
    (Queue.moved env item toState charge updates).maxAttempts = item.maxAttempts := by
  simp [Queue.moved]

@[simp] lemma specFilename_moved :
    (Queue.moved env item toState charge updates).specFilename = item.specFilename := by
  simp [Queue.moved]

lemma attempts_moved : (Queue.moved env item toState charge updates).attempts
    = if charge then (setAll item updates).attempts + 1 else (setAll item updates).attempts := rfl

lemma sound_moved (h : item.Sound) : (Queue.moved env item toState charge updates).Sound where
  itemId := by simpa using h.itemId
  title := by simpa [Queue.moved] using h.title
  specFilename := by simpa using h.specFilename
  safe := by simpa using h.safe

end MovedFields

/-! ### Undisturbed transitions -/

section Undisturbed

variable (env : Env) (item : QueueItem) (toState : ItemState) (reason actor : String)
  (charge : Bool) (detail : Json) (updates : List Update) {d : Disk}

/-- A transition that passes its checks puts the item it was given into the target state, whatever
    the sidecar said before. -/
lemma transition_after (hp : Placed d item) (hs : item.Sound)
    (hlegal : toState ∈ legalTransitions item.state) :
    Located (after (Queue.transition env item toState reason actor charge detail updates) d)
      (Queue.moved env item toState charge updates) := by
  have hen := hp.enabled hlegal
  rw [(transition_trace env item toState reason actor charge detail updates hen).after]
  exact (hp.committed (itemId_moved _ _ _ _ _) (sound_moved _ _ _ _ _ hs) rfl hen).sameDirs
    ⟨rfl, rfl⟩

/-- An undisturbed transition that does not come to its end has written nothing. -/
lemma transition_stopped
    (h : ∀ it, (Queue.transition env item toState reason actor charge detail updates [] d).1 ≠ .done it) :
    after (Queue.transition env item toState reason actor charge detail updates) d = d := by
  refine (transition_leaves env item toState reason actor charge detail updates
    (leaves_after _ d)).resolve_right ?_
  rintro ⟨hen, _⟩
  refine h (Queue.moved env item toState charge updates) ?_
  rw [(transition_trace env item toState reason actor charge detail updates hen).undisturbed]

/-- **The crash points of a transition**: after fewer than two writes the item is where it was, then
    where it goes; from the third write on the program goes on behind the transition. -/
lemma transition_cut_bind {β : Type} (hl : Located d item)
    (hlegal : toState ∈ legalTransitions item.state) (k : QueueItem → QueueProg β) (n : ℕ) :
    let c := Queue.transition env item toState reason actor charge detail updates
    let written := Queue.moved env item toState charge updates
    (n < 3 ∧ ∃ t it, cutRun n (c >>= k) d = (.crashed, [], t) ∧ SameElsewhere d t item.itemId ∧
        Located t it ∧ it.itemId = item.itemId ∧
        it.state = if n < 2 then item.state else toState) ∨
      ∃ m t, n = 3 + m ∧ cutRun n (c >>= k) d = cutRun m (k written) t ∧
        SameElsewhere d t item.itemId ∧ Located t written := by
  intro c written
  have hen := hl.placed.enabled hlegal
  have hsound := sound_moved env item toState charge updates hl.sound
  have hid : written.itemId = item.itemId := itemId_moved env item toState charge updates
  have hput : SameElsewhere d (d.putMeta (item.state, item.itemId) written) item.itemId :=
    SameElsewhere.putFile d (item.state, item.itemId) _ _
  have hcommit : SameElsewhere d (d.committed item written toState) item.itemId :=
    hput.trans (SameElsewhere.rename _ (item.state, item.itemId) (toState, item.itemId) rfl)
  have hdone : Located (d.committed item written toState) written :=
    hl.placed.committed hid hsound rfl hen
  have htrace := transition_trace env item toState reason actor charge detail updates hen
  rcases htrace.cut_bind k n with ⟨hn, hrun⟩ | ⟨m, rfl, hrun⟩
  · refine Or.inl ⟨hn, ?_⟩
    match n, hn with
    | 0, _ => exact ⟨_, item, hrun, SameElsewhere.refl _ _, hl, rfl, rfl⟩
    | 1, _ => exact ⟨_, _, hrun, hput, hl.placed.putMeta hid hsound, hid, rfl⟩
    | 2, _ => exact ⟨_, _, hrun, hcommit, hdone, hid, rfl⟩
  · exact Or.inr ⟨m, _, rfl, hrun, hcommit.trans (SameElsewhere.of_dirs rfl),
      hdone.sameDirs ⟨rfl, rfl⟩⟩

end Undisturbed

/-! ## Rewrites in place -/

/-- A disk a rewrite of the sidecar of `item` in place can leave. -/
def RewriteLeaves (d : Disk) (item written : QueueItem) (d' : Disk) : Prop :=
  d' = d ∨ (item.state, item.itemId) ∈ d.dirs ∧
    SameDirs (d.putMeta (item.state, item.itemId) written) d'

lemma RewriteLeaves.sameElsewhere {d d' : Disk} {item written : QueueItem}
    (h : RewriteLeaves d item written d') : SameElsewhere d d' item.itemId := by
  rcases h with rfl | ⟨_, hd⟩
  · exact SameElsewhere.refl _ _
  · exact (SameElsewhere.putFile d (item.state, item.itemId) _ _).trans
      (SameElsewhere.of_dirs hd.1)

lemma RewriteLeaves.located {d d' : Disk} {item written : QueueItem}
    (h : RewriteLeaves d item written d') (hl : Located d item)
    (hid : written.itemId = item.itemId) (hs : written.Sound) (hstate : written.state = item.state) :
    ∃ item', Located d' item' ∧ (item' = item ∨ item' = written) := by
  rcases h with rfl | ⟨_, hd⟩
  · exact ⟨item, hl, Or.inl rfl⟩
  · have := (hl.placed.putMeta hid hs).sameDirs hd
    rw [← hstate] at this
    exact ⟨written, this, Or.inr rfl⟩

/-- Write the sidecar of an item where it is, then the journal. -/
lemma rewrite_triple {α : Type} (d : Disk) (item written : QueueItem) (entry : JournalEntry)
    (result : α) (hmem : (item.state, item.itemId) ∈ d.dirs) :
    Triple (fun s => s = d)
      (do Queue.writeMeta written (item.state, item.itemId); journal entry; pure result)
      (fun a d' => a = result ∧ SameDirs (d.putMeta (item.state, item.itemId) written) d')
      (fun _ d' => d' = d) (RewriteLeaves d item written) := by
  refine Triple.bind (Q := fun _ s => s = d.putMeta (item.state, item.itemId) written)
    (Triple.write (fun s hs => by rw [hs]) (fun _ hs => hs) fun _ hs => Or.inl hs) fun _ => ?_
  refine Triple.bind (Q := fun _ s => SameDirs (d.putMeta (item.state, item.itemId) written) s)
    (Triple.writeQuiet ?_ ?_ ?_) fun _ => Triple.pure fun s hs => ⟨rfl, hs⟩
  · rintro s rfl
    exact ⟨rfl, rfl⟩
  · rintro s rfl
    exact SameDirs.refl _
  · rintro s rfl
    exact Or.inr ⟨hmem, SameDirs.refl _⟩

end Kstrl
