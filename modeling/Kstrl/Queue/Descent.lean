import Kstrl.Queue.Operations

/-!
# Where the items of a disk come from

A disk is **tidy** when every directory of a state directory is the place of an item.  A change of
the disk is described backwards: **`Descends R d d'`** says that `d'` is tidy and that every item of
`d'` stems from the item of the same id of `d`, to which `R` relates it.  Removed items need no
word that way, and changes compose when `R` is transitive.

* **`op_descends`** gives it for one operation on an item that is on disk.
* **`Keeps`** is what every operation does that neither charges nor resets: the bound and the
  attempts stay, and the item does not enter `running/`.
* **`quiet_triple`** is the rule for such an operation inside a longer program: it also keeps
  whatever speaks of other ids.
-/

namespace Kstrl

open CrashProg

/-- Every directory is the place of an item. -/
def Tidy (d : Disk) : Prop :=
  ∀ state id, (state, id) ∈ d.dirs → ∃ item, Located d item ∧ item.itemId = id

lemma tidy_empty : Tidy Disk.empty := fun _ _ h => absurd h (AList.notMem_empty _)

/-- What the scan of a tidy disk lists is located. -/
lemma Tidy.located {d : Disk} (h : Tidy d) {states : List ItemState} {item : QueueItem}
    (hmem : item ∈ items d states) : Located d item := by
  obtain ⟨_, files, hlook, _⟩ := lookup_of_mem_items hmem
  obtain ⟨it, hl, hid⟩ := h item.state item.itemId (AList.lookup_isSome.mp (by rw [hlook]; rfl))
  rwa [hl.eq_of_mem_items hmem hid.symm]

lemma Located.unique {d : Disk} {item item' : QueueItem} (h : Located d item)
    (h' : Located d item') (hid : item'.itemId = item.itemId) : item' = item :=
  h.eq_of_mem_items h'.mem_items hid

lemma SameElsewhere.symm {d d' : Disk} {id : String} (h : SameElsewhere d d' id) :
    SameElsewhere d' d id := fun state id' hne => (h state id' hne).symm

/-- A scan of a tidy disk lists an id once. -/
lemma Tidy.pairwise_items {d : Disk} (h : Tidy d) {states : List ItemState} (hn : states.Nodup) :
    (items d states).Pairwise fun a b => a.itemId ≠ b.itemId := by
  refine (Kstrl.pairwise_items d hn).imp_of_mem ?_
  intro a b ha hb hne hid
  have := (h.located ha).unique (h.located hb) hid.symm
  exact hne (by rw [this])

/-- A change of one id that leaves its item somewhere leaves the disk tidy. -/
lemma Tidy.of_elsewhere {d d' : Disk} {item : QueueItem} (ht : Tidy d)
    (helse : SameElsewhere d d' item.itemId) (hl : Located d' item) : Tidy d' := by
  intro state id hmem
  by_cases hsame : id = item.itemId
  · exact ⟨item, hl, hsame.symm⟩
  · obtain ⟨it, hit, rfl⟩ := ht state id ((helse.mem hsame).mp hmem)
    exact ⟨it, helse.located hsame hit, rfl⟩

/-- What the scan of some states lists. -/
lemma Tidy.mem_items_iff {d : Disk} (h : Tidy d) {states : List ItemState} {item : QueueItem} :
    item ∈ items d states ↔ Located d item ∧ item.state ∈ states := by
  constructor
  · exact fun hmem => ⟨h.located hmem, (lookup_of_mem_items hmem).1⟩
  · rintro ⟨hl, hstate⟩
    obtain ⟨files, hlook, hload⟩ := hl.files
    exact mem_items.mpr ⟨_, hstate, _, files, hlook, hload⟩

/-! ## Descent -/

/-- Every item of `d'` stems from the item of its id of `d`. -/
structure Descends (R : QueueItem → QueueItem → Prop) (d d' : Disk) : Prop where
  tidy : Tidy d'
  origin : ∀ item', Located d' item' →
    ∃ item, Located d item ∧ item.itemId = item'.itemId ∧ R item item'

namespace Descends

variable {R S : QueueItem → QueueItem → Prop} {d d' d'' : Disk} {item item' : QueueItem}

lemma of_dirs (hr : ∀ it, R it it) (h : Tidy d) (hd : d'.dirs = d.dirs) : Descends R d d' where
  tidy state id hmem := by
    rw [hd] at hmem
    obtain ⟨it, hl, hid⟩ := h state id hmem
    exact ⟨it, hl.of_lookup fun _ => by rw [hd], hid⟩
  origin it hl := ⟨it, hl.of_lookup fun _ => by rw [hd], rfl, hr it⟩

lemma refl (hr : ∀ it, R it it) (h : Tidy d) : Descends R d d := of_dirs hr h rfl

lemma trans (ht : ∀ a b c, R a b → R b c → R a c) (h : Descends R d d')
    (h' : Descends R d' d'') : Descends R d d'' where
  tidy := h'.tidy
  origin c hc := by
    obtain ⟨b, hb, hid, hbc⟩ := h'.origin c hc
    obtain ⟨a, ha, hid', hab⟩ := h.origin b hb
    exact ⟨a, ha, hid'.trans hid, ht a b c hab hbc⟩

lemma mono (h : Descends R d d') (himp : ∀ a b, R a b → S a b) : Descends S d d' where
  tidy := h.tidy
  origin b hb := by
    obtain ⟨a, ha, hid, hab⟩ := h.origin b hb
    exact ⟨a, ha, hid, himp a b hab⟩

/-- A change of one id. -/
lemma of_self (hr : ∀ it, R it it) (ht : Tidy d) (helse : SameElsewhere d d' item.itemId)
    (hl : Located d item) (hl' : Located d' item') (hid : item'.itemId = item.itemId)
    (hR : R item item') : Descends R d d' where
  tidy := ht.of_elsewhere (hid ▸ helse) hl'
  origin it hit := by
    by_cases hsame : it.itemId = item.itemId
    · obtain rfl := hl'.unique hit (hsame.trans hid.symm)
      exact ⟨item, hl, hid.symm, hR⟩
    · exact ⟨it, helse.symm.located hsame hit, rfl, hr it⟩

/-- Only directories went. -/
lemma of_removed (hr : ∀ it, R it it) (ht : Tidy d)
    (hd : ∀ state id, (state, id) ∈ d'.dirs →
      ∀ state', d'.dirs.lookup (state', id) = d.dirs.lookup (state', id)) : Descends R d d' where
  tidy state id hmem := by
    have hlook := hd state id hmem
    have hmem' : (state, id) ∈ d.dirs := by
      rwa [← AList.lookup_isSome, hlook, AList.lookup_isSome] at hmem
    obtain ⟨it, hit, rfl⟩ := ht state id hmem'
    exact ⟨it, hit.of_lookup fun state' => hlook state', rfl⟩
  origin it hit := ⟨it, hit.of_lookup fun state' => (hd _ _ hit.mem state').symm, rfl, hr it⟩

end Descends

/-- What an operation on `item` makes of the items of the disk. -/
def OpStep (op : Op) (item it it' : QueueItem) : Prop :=
  it' = it ∨ it = item ∧ it'.maxAttempts = it.maxAttempts ∧ Books op it it' ∧
    (it'.state = it.state ∨ op.target? = some it'.state)

/-- **One operation**, given an item that is on disk, wherever it stops. -/
theorem op_descends {env : Env} (op : Op) {item : QueueItem} {d d' : Disk} (ht : Tidy d)
    (hop : op.item? = some item) (hremove : op.isRemove = false)
    (hclobber : op.clobbersMeta = false) (hl : Located d item) (h : Leaves (op.prog env) d d') :
    Descends (OpStep op item) d d' := by
  obtain ⟨item', hl', hid, hmax, hbooks, hstate⟩ := op_effect hop hremove hclobber hl h
  exact Descends.of_self (fun _ => Or.inl rfl) ht (op_elsewhere env op hop h) hl hl' hid
    (Or.inr ⟨rfl, hmax, hbooks, hstate⟩)

/-- The items after an item was published under an id that no directory had. -/
lemma Published.located_iff {d d' : Disk} {new it : QueueItem} (hp : Published d d' new)
    (hnew : Located d' new) : Located d' it ↔ it = new ∨ it.itemId ≠ new.itemId ∧ Located d it := by
  constructor
  · intro hl
    by_cases hid : it.itemId = new.itemId
    · exact Or.inl (hnew.unique hl hid)
    · exact Or.inr ⟨hid, hp.elsewhere.symm.located hid hl⟩
  · rintro (rfl | ⟨hid, hl⟩)
    · exact hnew
    · exact hp.elsewhere.located hid hl

/-- An operation puts no item into a state it does not aim at. -/
lemma op_enters {env : Env} (op : Op) {item : QueueItem} {d d' : Disk} {S : ItemState} (ht : Tidy d)
    (hop : op.item? = some item) (hremove : op.isRemove = false)
    (hclobber : op.clobbersMeta = false) (hl : Located d item) (htarget : op.target? ≠ some S)
    (h : Leaves (op.prog env) d d') :
    Descends (fun it it' => it'.state = S → it.state = S) d d' :=
  (op_descends op ht hop hremove hclobber hl h).mono fun it it' hstep hs => by
    rcases hstep with rfl | ⟨_, _, _, hstate | hto⟩
    · exact hs
    · exact hstate ▸ hs
    · exact absurd (hs ▸ hto) htarget

/-! ## Operations that keep the books -/

/-- The bound and the attempts stay, and the item does not enter `running/`. -/
def Keeps (it it' : QueueItem) : Prop :=
  it'.maxAttempts = it.maxAttempts ∧ it'.attempts = it.attempts ∧
    (it'.state = .running → it.state = .running)

lemma Keeps.refl (it : QueueItem) : Keeps it it := ⟨rfl, rfl, id⟩

lemma Keeps.trans (a b c : QueueItem) (h : Keeps a b) (h' : Keeps b c) : Keeps a c :=
  ⟨h'.1.trans h.1, h'.2.1.trans h.2.1, h.2.2 ∘ h'.2.2⟩

/-- It also leaves what is in `leased/` alone and puts nothing there. -/
def KeepsAside (it it' : QueueItem) : Prop :=
  Keeps it it' ∧ (it'.state = .leased → it' = it)

lemma KeepsAside.refl (it : QueueItem) : KeepsAside it it := ⟨Keeps.refl it, fun _ => rfl⟩

lemma keeps_of_books {op : Op} {it it' : QueueItem} (hstart : op.isStart = false)
    (hreset : op.resets = false) (hmax : it'.maxAttempts = it.maxAttempts)
    (hbooks : Books op it it') : Keeps it it' := by
  rcases hbooks with ⟨hatt, hrun⟩ | ⟨hs, _⟩ | ⟨hr, _⟩
  · exact ⟨hmax, hatt, hrun⟩
  · rw [hstart] at hs; cases hs
  · rw [hreset] at hr; cases hr

/-- An operation that neither charges, nor resets, nor removes, nor writes over a sidecar. -/
structure Op.Quiet (op : Op) (item : QueueItem) : Prop where
  item : op.item? = some item
  start : op.isStart = false
  resets : op.resets = false
  remove : op.isRemove = false
  clobber : op.clobbersMeta = false

lemma quiet_descends {env : Env} (op : Op) {item : QueueItem} {d d' : Disk} (ht : Tidy d)
    (hq : op.Quiet item) (hl : Located d item) (h : Leaves (op.prog env) d d') :
    Descends Keeps d d' :=
  (op_descends op ht hq.item hq.remove hq.clobber hl h).mono fun it it' hstep => by
    rcases hstep with rfl | ⟨_, hmax, hbooks, _⟩
    · exact Keeps.refl it'
    · exact keeps_of_books hq.start hq.resets hmax hbooks

/-- A quiet operation on an item that is not leased and does not become so. -/
lemma quiet_descends_aside {env : Env} (op : Op) {item : QueueItem} {d d' : Disk} (ht : Tidy d)
    (hq : op.Quiet item) (hl : Located d item) (hstate : item.state ≠ .leased)
    (htarget : op.target? ≠ some .leased) (h : Leaves (op.prog env) d d') :
    Descends KeepsAside d d' :=
  (op_descends op ht hq.item hq.remove hq.clobber hl h).mono fun it it' hstep => by
    rcases hstep with rfl | ⟨rfl, hmax, hbooks, hto⟩
    · exact KeepsAside.refl it'
    · refine ⟨keeps_of_books hq.start hq.resets hmax hbooks, fun hleased => ?_⟩
      rcases hto with hto | hto
      · exact absurd (hto.symm.trans hleased) hstate
      · exact absurd (hleased ▸ hto) htarget

/-- **A quiet operation inside a longer program.**  `F` speaks of other ids only. -/
lemma quiet_triple {α : Type} {env : Env} {op : Op} {item : QueueItem} {c : QueueProg α}
    {d : Disk} {F : Disk → Prop} (hc : ∀ s t, Leaves c s t → Leaves (op.prog env) s t)
    (hq : op.Quiet item)
    (hF : ∀ s t, SameElsewhere s t item.itemId → F s → F t) :
    Triple (fun s => Descends Keeps d s ∧ Located s item ∧ F s) c
      (fun _ s => Descends Keeps d s ∧ (∃ it, Located s it ∧ it.itemId = item.itemId) ∧ F s)
      (fun _ => Descends Keeps d) (Descends Keeps d) := by
  refine (Triple.of_leaves (R := fun s => Descends Keeps d s ∧
    (∃ it, Located s it ∧ it.itemId = item.itemId) ∧ F s) ?_).conseq (fun _ => id)
    (fun _ _ => id) (fun _ _ h => h.1) fun _ h => h.1
  rintro s t ⟨hd, hl, hf⟩ hleaves
  have hprog := hc s t hleaves
  obtain ⟨it, hit, hid, _⟩ := op_effect hq.item hq.remove hq.clobber hl hprog
  exact ⟨hd.trans Keeps.trans (quiet_descends op hd.tidy hq hl hprog), ⟨it, hit, hid⟩,
    hF s t (op_elsewhere env op hq.item hprog) hf⟩

end Kstrl
