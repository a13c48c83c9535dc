import Kstrl.Queue.Descent
import Kstrl.Serve.Cycle

/-!
# The blocks keep the books

What each block of `Kstrl.Serve.Cycle` does to the items of a tidy disk.  Every block reads its item
under the lock, so by `quiet_triple` every block but the start keeps the bound and the attempts of
every item and puts none into `running/` (`Keeps`).

The two blocks that are given an item from outside, the start and the one after an exhausted budget,
are stated for an item that is on disk or is not where it says.
-/

namespace Kstrl

open CrashProg

namespace Serve

variable {env : Env} {d d' : Disk}

/-- Reading an item under the lock. -/
lemma getItem_triple {P : Disk → Prop} (id : String) :
    Triple P (getItem id) (fun found s => P s ∧ Queue.get s id = .ok found) (fun _ => P) P := by
  refine Triple.bind (Q := fun a s => P s ∧ a = s) (Triple.read fun s hs => ⟨hs, rfl⟩) fun a => ?_
  cases hget : Queue.get a id with
  | ok found =>
      refine Triple.pure ?_
      rintro s ⟨hs, rfl⟩
      exact ⟨hs, hget⟩
  | error e => exact Triple.raise fun s hs => hs.1

lemma leaves_getItem_bind {α : Type} {id : String} {k : Option QueueItem → QueueProg α}
    (h : Leaves (getItem id >>= k) d d') :
    d' = d ∨ ∃ found, Queue.get d id = .ok found ∧ Leaves (k found) d d' := by
  unfold getItem at h
  rw [bind_bind] at h
  have h := leaves_read_bind.mp h
  cases hget : Queue.get d id with
  | ok found =>
      rw [hget] at h
      exact Or.inr ⟨found, rfl, h⟩
  | error e =>
      rw [hget] at h
      exact Or.inl (leaves_raise.mp h)

lemma backoffMoment_triple {P : Disk → Prop} (moment : ℕ) (attempts : ℤ) :
    Triple P (backoffMoment env moment attempts) (fun _ => P) (fun _ => P) P := by
  unfold backoffMoment
  cases backoffSeconds attempts with
  | some delay => exact Triple.pure fun _ hs => hs
  | none => exact Triple.raise fun _ hs => hs

/-- The item read under the lock is the one of that id, when there is one. -/
lemma located_of_get {item found : QueueItem}
    (hat : ∃ it, Located d it ∧ it.itemId = item.itemId)
    (hget : Queue.get d item.itemId = .ok (some found)) :
    Located d found ∧ found.itemId = item.itemId := by
  obtain ⟨it, hl, hid⟩ := hat
  rw [← hid, hl.get] at hget
  cases hget
  exact ⟨hl, hid⟩

/-! ## Quiet operations -/

section Quiet

variable (item : QueueItem)

lemma quiet_requeue (reason actor : String) (notBefore : Option String) :
    (Op.requeue item reason actor false notBefore).Quiet item := ⟨rfl, rfl, rfl, rfl, rfl⟩

lemma quiet_finishFailed (error actor : String) (prUrls : List String) :
    (Op.finishFailed item error actor prUrls).Quiet item := ⟨rfl, rfl, rfl, rfl, rfl⟩

lemma quiet_poison (reason actor : String) : (Op.poison item reason actor).Quiet item :=
  ⟨rfl, rfl, rfl, rfl, rfl⟩

end Quiet

/-! ## The reaper -/

section Reaper

variable (probe : ℤ → Bool) (moment : ℕ) (actor : String)

/-- Out of `failed/`: back to `queued/` when `p` holds, else to `poison/`. -/
lemma onward_triple {α : Type} {p : Prop} [Decidable p] {F : Disk → Prop} (d : Disk)
    (failed : QueueItem) (reason reason' : String) (x y : α)
    (hF : ∀ s t, SameElsewhere s t failed.itemId → F s → F t) :
    Triple (fun s => Descends Keeps d s ∧ Located s failed ∧ F s)
      (if p then do
        let notBefore ← backoffMoment env moment failed.attempts
        let _ ← Queue.requeue env failed reason actor false (some notBefore)
        pure x
      else do
        let _ ← Queue.poison env failed reason' actor
        pure y)
      (fun _ s => Descends Keeps d s ∧ F s) (fun _ => Descends Keeps d) (Descends Keeps d) := by
  refine Triple.ite (fun _ => ?_) fun _ => ?_
  · refine Triple.bind ((backoffMoment_triple moment failed.attempts).conseq (fun _ => id)
      (fun _ _ => id) (fun _ _ h => h.1) fun _ h => h.1) fun notBefore => ?_
    refine Triple.bind (quiet_triple (fun s t => leaves_map_unit.mpr)
      (quiet_requeue failed reason actor (some notBefore)) hF) fun _ => ?_
    exact Triple.pure fun t ht => ⟨ht.1, ht.2.2⟩
  · refine Triple.bind (quiet_triple (fun s t => leaves_map_unit.mpr)
      (quiet_poison failed reason' actor) hF) fun _ => ?_
    exact Triple.pure fun t ht => ⟨ht.1, ht.2.2⟩

/-- The read between the two moves out of `running/` finds the item again. -/
lemma reread_triple {α : Type} {F : Disk → Prop} {Q : α → Disk → Prop} (d : Disk)
    (item : QueueItem) {k : Option QueueItem → QueueProg α}
    (hnone : Triple (fun s => Descends Keeps d s ∧ F s) (k none) Q (fun _ => Descends Keeps d)
      (Descends Keeps d))
    (hsome : ∀ found, found.itemId = item.itemId →
      Triple (fun s => Descends Keeps d s ∧ Located s found ∧ F s) (k (some found)) Q
        (fun _ => Descends Keeps d) (Descends Keeps d)) :
    Triple (fun s => Descends Keeps d s ∧ (∃ it, Located s it ∧ it.itemId = item.itemId) ∧ F s)
      (getItem item.itemId >>= k) Q (fun _ => Descends Keeps d) (Descends Keeps d) := by
  refine Triple.bind ((getItem_triple item.itemId).conseq (fun _ => id) (fun _ _ => id)
    (fun _ _ h => h.1) fun _ h => h.1) fun found => ?_
  cases found with
  | none => exact hnone.conseq (fun s hs => ⟨hs.1.1, hs.1.2.2⟩) (fun _ _ => id) (fun _ _ => id) fun _ => id
  | some found =>
      by_cases hid : found.itemId = item.itemId
      · refine (hsome found hid).conseq ?_ (fun _ _ => id) (fun _ _ => id) fun _ => id
        rintro s ⟨⟨hd, hat, hf⟩, hget⟩
        exact ⟨hd, (located_of_get hat hget).1, hf⟩
      · rintro fs s ⟨⟨_, hat, _⟩, hget⟩
        exact absurd (located_of_get hat hget).2 hid

/-- The reaper's loops: the items still to come are where the scan saw them. -/
def Reaping (d : Disk) (rest : List QueueItem) (s : Disk) : Prop :=
  rest.Pairwise (fun a b => a.itemId ≠ b.itemId) ∧ Descends Keeps d s ∧ ∀ it ∈ rest, Located s it

/-- A change of the first id leaves the rest where it is. -/
lemma located_rest {item : QueueItem} {rest : List QueueItem}
    (hp : (item :: rest).Pairwise fun a b => a.itemId ≠ b.itemId) (s t : Disk)
    (helse : SameElsewhere s t item.itemId) (h : ∀ it ∈ rest, Located s it) :
    ∀ it ∈ rest, Located t it := fun it hit =>
  helse.located (Ne.symm (List.rel_of_pairwise_cons hp hit)) (h it hit)

/-- One turn of a loop of the reaper. -/
lemma reaping_turn {α : Type} {d : Disk} {item : QueueItem} {rest : List QueueItem}
    {c : QueueProg α}
    (h : (item :: rest).Pairwise (fun a b => a.itemId ≠ b.itemId) →
      Triple (fun s => Descends Keeps d s ∧ Located s item ∧ ∀ it ∈ rest, Located s it) c
        (fun _ s => Descends Keeps d s ∧ ∀ it ∈ rest, Located s it)
        (fun _ => Descends Keeps d) (Descends Keeps d)) :
    Triple (Reaping d (item :: rest)) c (fun _ => Reaping d rest) (fun _ => Descends Keeps d)
      (Descends Keeps d) := by
  refine Triple.given fun hp => (h hp).conseq ?_ ?_ (fun _ _ => id) fun _ => id
  · rintro s ⟨hd, hl⟩
    exact ⟨hd, hl item List.mem_cons_self, fun it hit => hl it (List.mem_cons_of_mem _ hit)⟩
  · rintro _ s ⟨hd, hl⟩
    exact ⟨hp.of_cons, hd, hl⟩

lemma reapLeased_triple (d : Disk) (item : QueueItem) (rest : List QueueItem) (result : ReapResult) :
    Triple (Reaping d (item :: rest)) (reapLeased env probe moment actor result item)
      (fun _ => Reaping d rest) (fun _ => Descends Keeps d) (Descends Keeps d) := by
  refine reaping_turn fun hp => ?_
  refine Triple.ite (fun _ => ?_) fun _ => Triple.pure fun t ht => ⟨ht.1, ht.2.2⟩
  refine Triple.bind (quiet_triple (fun s t => leaves_map_unit.mpr) (quiet_requeue item
    "reaped: lease holder gone before any spend" actor (some "")) (located_rest hp)) fun _ => ?_
  exact Triple.pure fun t ht => ⟨ht.1, ht.2.2⟩

lemma reapRunning_triple (d : Disk) (item : QueueItem) (rest : List QueueItem)
    (result : ReapResult) :
    Triple (Reaping d (item :: rest)) (reapRunning env probe moment actor result item)
      (fun _ => Reaping d rest) (fun _ => Descends Keeps d) (Descends Keeps d) := by
  refine reaping_turn fun hp => ?_
  refine Triple.ite (fun _ => ?_) fun _ => Triple.pure fun t ht => ⟨ht.1, ht.2.2⟩
  refine Triple.bind (quiet_triple (fun s t => leaves_map_unit.mpr) (quiet_finishFailed item
    (reapDetail item) actor []) (located_rest hp)) fun _ => ?_
  refine reread_triple d item (Triple.pure fun t ht => ht) fun reread hid => ?_
  exact onward_triple moment actor d reread _ _ _ _ (hid ▸ located_rest hp)

lemma reapLeases_triple (d : Disk) :
    Triple (Descends Keeps d) (reapLeases env probe moment actor)
      (fun _ => Descends Keeps d) (fun _ => Descends Keeps d) (Descends Keeps d) := by
  -- each of the two scans starts a loop over the items it lists
  have hscan : ∀ states : List ItemState, states.Nodup → ∀ s, Descends Keeps d s →
      Reaping d (items s states) s := fun states hn s hs =>
    ⟨hs.tidy.pairwise_items hn, hs, fun it hit => hs.tidy.located hit⟩
  refine Triple.bind (Q := fun a s => Descends Keeps d s ∧ a = s)
    (Triple.read fun s hs => ⟨hs, rfl⟩) fun a => ?_
  refine Triple.bind (Q := fun _ => Descends Keeps d) ?_ fun result => ?_
  · refine (Triple.foldlM (I := fun rest _ => Reaping d rest)
      (fun item rest result => reapLeased_triple probe moment actor d item rest result)
      (items a [.leased]) {}).conseq ?_ (fun _ _ h => h.2.1) (fun _ _ => id) fun _ => id
    rintro s ⟨hs, rfl⟩
    exact hscan _ (by decide) a hs
  · refine Triple.bind (Q := fun a s => Descends Keeps d s ∧ a = s)
      (Triple.read fun s hs => ⟨hs, rfl⟩) fun b => ?_
    refine (Triple.foldlM (I := fun rest _ => Reaping d rest)
      (fun item rest result => reapRunning_triple probe moment actor d item rest result)
      (items b [.running]) result).conseq ?_ (fun _ _ h => h.2.1) (fun _ _ => id) fun _ => id
    rintro s ⟨hs, rfl⟩
    exact hscan _ (by decide) b hs

lemma recoverBlock_descends (ht : Tidy d) (h : Leaves (recoverBlock env probe moment) d d') :
    Descends Keeps d d' := by
  refine Triple.leaves (P := fun s => s = d) ?_ rfl h
  refine Triple.bind (Q := fun _ => Descends Keeps d) (Triple.of_leaves ?_) fun _ =>
    reapLeases_triple probe moment "reaper" d
  rintro s t rfl hleaves
  exact Descends.of_dirs Keeps.refl ht (sweepStaging_leaves hleaves)

end Reaper

/-! ## The claim and the start -/

/-- A transition that comes to its end: the item as it was written is where it goes. -/
lemma transition_ends {item : QueueItem} {toState : ItemState} {reason actor : String}
    {charge : Bool} {detail : Json} {updates : List Update} (hl : Located d item) :
    Triple (fun s => s = d) (Queue.transition env item toState reason actor charge detail updates)
      (fun it s => SameElsewhere d s item.itemId ∧ Located s it ∧
        it = Queue.moved env item toState charge updates)
      (fun _ _ => True) (fun _ => True) := by
  refine (transition_triple env item toState reason actor charge detail updates d).conseq
    (fun _ => id) ?_ (fun _ _ _ => trivial) fun _ _ => trivial
  rintro _ s ⟨hen, rfl, hdirs⟩
  have hleaves : MoveLeaves d item (Queue.moved env item toState charge updates) toState s :=
    Or.inr ⟨hen, Or.inr hdirs⟩
  have hmoved : Located _ (Queue.moved env item toState charge updates) :=
    hl.placed.committed (itemId_moved _ _ _ _ _) (sound_moved _ _ _ _ _ hl.sound) rfl hen
  exact ⟨hleaves.sameElsewhere, hmoved.sameDirs hdirs, rfl⟩

lemma nextReady_mem {fmt : IsoFormat} {paused : Bool} {moment : ℕ} {item : QueueItem}
    (h : nextReady fmt d paused moment = some item) : item ∈ items d [.queued] := by
  unfold nextReady at h
  split_ifs at h
  exact List.mem_of_find?_eq_some h

/-- The claim; the item it returns is the one now in `leased/`. -/
lemma claimBlock_triple (ht : Tidy d) (moment : ℕ) (paused : Bool) (gate : QueueItem → MergeGate) :
    Triple (fun s => s = d) (claimBlock env moment paused gate)
      (fun found s => Descends Keeps d s ∧
        ∀ leased, found = some leased → Located s leased ∧ leased.state = .leased)
      (fun _ => Descends Keeps d) (Descends Keeps d) := by
  refine Triple.bind (Q := fun a s => a = d ∧ s = d) (Triple.read fun s hs => ⟨hs, hs⟩) fun a => ?_
  refine Triple.given ?_
  rintro rfl
  have hrefl : ∀ s, s = a → Descends Keeps a s := by
    rintro s rfl
    exact Descends.refl Keeps.refl ht
  cases hready : nextReady env.fmt a paused moment with
  | none => exact Triple.pure fun s hs => ⟨hrefl s hs, fun _ h => nomatch h⟩
  | some candidate =>
      have hl : Located a candidate := ht.located (nextReady_mem hready)
      have hquiet : ∀ {α : Type} (op : Op) {c : QueueProg α}, op.Quiet candidate →
          (∀ s t, Leaves c s t → Leaves (op.prog env) s t) →
          Triple (fun s => s = a) c (fun _ => Descends Keeps a) (fun _ => Descends Keeps a)
            (Descends Keeps a) := by
        intro α op c hq hc
        refine Triple.of_leaves ?_
        rintro s t rfl hleaves
        exact quiet_descends op ht hq hl (hc s t hleaves)
      refine Triple.ite (fun _ => ?_) fun _ => ?_
      · refine Triple.bind (Q := fun _ => Descends Keeps a) ?_ fun _ =>
          Triple.pure fun s hs => ⟨hs, fun _ h => nomatch h⟩
        refine Triple.ite (fun _ => Triple.pure hrefl) fun _ => ?_
        refine Triple.bind (Q := fun _ => Descends Keeps a)
          (hquiet _ (quiet_poison candidate _ "serve") fun s t => leaves_map_unit.mpr) fun _ => ?_
        exact (getItem_triple candidate.itemId).conseq (fun _ => id) (fun _ _ h => h.1)
          (fun _ _ => id) fun _ => id
      · refine Triple.bind (((hquiet (.lease candidate 0 "" "serve") ⟨rfl, rfl, rfl, rfl, rfl⟩
          fun s t => leaves_map_unit.mpr).and (transition_ends hl)).conseq (fun _ => id)
          (fun _ _ => id) (fun _ _ h => h.1) fun _ h => h.1) fun leased => ?_
        refine Triple.pure ?_
        rintro s ⟨hd, _, hs, rfl⟩
        refine ⟨hd, ?_⟩
        rintro _ ⟨⟩
        exact ⟨hs, rfl⟩

/-- What the start makes of the item it is given. -/
def Charges (item it it' : QueueItem) : Prop :=
  Keeps it it' ∨ it = item ∧ it'.maxAttempts = it.maxAttempts ∧ it.attempts < it.maxAttempts ∧
    it'.attempts = it.attempts + 1

lemma startBlock_descends {leased : QueueItem} (ht : Tidy d)
    (hat : (leased.state, leased.itemId) ∈ d.dirs → Located d leased)
    (h : Leaves (startBlock env leased) d d') : Descends (Charges leased) d d' := by
  by_cases hmem : (leased.state, leased.itemId) ∈ d.dirs
  · refine (op_descends (.start leased "" "serve") ht rfl rfl rfl (hat hmem)
      (leaves_map_unit.mpr h)).mono ?_
    rintro it it' (rfl | ⟨rfl, hmax, hbooks, _⟩)
    · exact Or.inl (Keeps.refl it')
    · rcases hbooks with ⟨hatt, hrun⟩ | ⟨_, hlt, hatt⟩ | ⟨hr, _⟩
      · exact Or.inl ⟨hmax, hatt, hrun⟩
      · exact Or.inr ⟨rfl, hmax, hlt, hatt⟩
      · cases hr
  · have hsame : d' = d := by
      rcases leaves_require_bind.mp h with ⟨_, h⟩ | ⟨_, rfl⟩
      · exact transition_refused _ _ _ _ _ _ _ _ hmem h
      · rfl
    subst hsame
    exact Descends.refl (fun it => Or.inl (Keeps.refl it)) ht

/-- A start that does not come to its end has written nothing. -/
lemma startBlock_stopped {leased : QueueItem}
    (h : ∀ it, (startBlock env leased [] d).1 ≠ .done it) : after (startBlock env leased) d = d := by
  unfold startBlock Queue.start at h ⊢
  by_cases hleft : 0 < leased.attemptsRemaining
  · rw [require_pos hleft] at h
    rw [after_require_bind, if_pos hleft]
    exact transition_stopped _ _ _ _ _ _ _ _ h
  · rw [after_require_bind, if_neg hleft]

lemma exhaustedBlock_descends {leased : QueueItem} {reason : String} (ht : Tidy d)
    (hat : (leased.state, leased.itemId) ∈ d.dirs → Located d leased)
    (h : Leaves (exhaustedBlock env leased reason) d d') : Descends Keeps d d' := by
  refine Triple.leaves (P := fun s => s = d) ?_ rfl h
  refine Triple.bind (Q := fun _ => Descends Keeps d) (Triple.of_leaves ?_) fun _ =>
    (getItem_triple leased.itemId).conseq (fun _ => id) (fun _ _ h => h.1) (fun _ _ => id) fun _ => id
  rintro s t rfl hleaves
  by_cases hmem : (leased.state, leased.itemId) ∈ s.dirs
  · exact quiet_descends _ ht (quiet_poison leased reason "serve") (hat hmem)
      (leaves_map_unit.mpr hleaves)
  · have hsame : t = s := by
      rcases leaves_require_bind.mp hleaves with ⟨_, h⟩ | ⟨_, rfl⟩
      · exact transition_refused _ _ _ _ _ _ _ _ hmem h
      · rfl
    subst hsame
    exact Descends.refl Keeps.refl ht

/-! ## Blocks that read their item again -/

/-- A block that reads one item and then does one quiet operation on it. -/
lemma descends_of_get {α : Type} {R : QueueItem → QueueItem → Prop} {id : String}
    {k : Option QueueItem → QueueProg α} (hr : ∀ it, R it it) (ht : Tidy d)
    (h : Leaves (getItem id >>= k) d d') (hnone : Leaves (k none) d d' → d' = d)
    (hsome : ∀ current, Located d current → Leaves (k (some current)) d d' → Descends R d d') :
    Descends R d d' := by
  have hrefl : ∀ {t}, t = d → Descends R d t := by
    rintro t rfl
    exact Descends.refl hr ht
  rcases leaves_getItem_bind h with hsame | ⟨found, hget, h⟩
  · exact hrefl hsame
  · cases found with
    | none => exact hrefl (hnone h)
    | some current => exact hsome current (ht.located (Queue.mem_items_of_get hget)) h

lemma adoptBlock_descends {itemId : String} {pid : ℤ} (ht : Tidy d)
    (h : Leaves (adoptBlock env itemId pid) d d') : Descends Keeps d d' :=
  descends_of_get Keeps.refl ht h leaves_pure.mp fun current hl h =>
    quiet_descends (.adoptLease current pid "" "serve") ht ⟨rfl, rfl, rfl, rfl, rfl⟩ hl h

lemma unreapedBlock_descends {itemId detail : String} (ht : Tidy d)
    (h : Leaves (unreapedBlock env itemId detail) d d') : Descends Keeps d d' :=
  descends_of_get Keeps.refl ht h leaves_pure.mp fun current hl h =>
    quiet_descends _ ht (quiet_poison current detail "serve") hl h

lemma settleBlock_descends {itemId runId architectRunId : String} {verdict : Outcome}
    {prUrls : List String} (ht : Tidy d)
    (h : Leaves (settleBlock env itemId verdict prUrls runId architectRunId) d d') :
    Descends Keeps d d' := by
  refine descends_of_get Keeps.refl ht h leaves_pure.mp fun current hl h => ?_
  cases hv : verdict.verdict with
  | success =>
      rw [hv] at h
      exact quiet_descends (.finishOk current "serve" prUrls) ht ⟨rfl, rfl, rfl, rfl, rfl⟩ hl
        (leaves_map_unit.mpr (leaves_map.mp h))
  | awaitingApproval =>
      rw [hv] at h
      exact quiet_descends (.awaitApproval current verdict.reason runId "serve" prUrls) ht
        ⟨rfl, rfl, rfl, rfl, rfl⟩ hl (leaves_map_unit.mpr (leaves_map.mp h))
  | awaitingAnswer =>
      rw [hv] at h
      exact quiet_descends (.awaitAnswer current verdict.reason architectRunId "serve") ht
        ⟨rfl, rfl, rfl, rfl, rfl⟩ hl (leaves_map_unit.mpr (leaves_map.mp h))
  | _ =>
      rw [hv] at h
      rw [leaves_pure.mp h]
      exact Descends.refl Keeps.refl ht

lemma redBaseBlock_descends {itemId reason : String} (ht : Tidy d)
    (h : Leaves (redBaseBlock env itemId reason) d d') : Descends Keeps d d' := by
  refine descends_of_get Keeps.refl ht h leaves_pure.mp fun current hl h => ?_
  refine Triple.leaves (P := fun s => s = d) ?_ rfl h
  -- the requeue is given the item as the finish returned it
  refine Triple.bind (Q := fun failed s => Descends Keeps d s ∧ Located s failed)
    (((Triple.of_leaves (R := Descends Keeps d) ?_).and (transition_ends hl)).conseq (fun _ => id)
      (fun _ _ h => ⟨h.1, h.2.2.1⟩) (fun _ _ h => h.1) fun _ h => h.1) fun failed => ?_
  · rintro s t rfl hleaves
    exact quiet_descends _ ht (quiet_finishFailed current reason "serve" []) hl
      (leaves_map_unit.mpr hleaves)
  · refine Triple.of_leaves ?_
    rintro s t ⟨hd, hs⟩ hleaves
    exact hd.trans Keeps.trans (quiet_descends _ hd.tidy
      (quiet_requeue failed ("red base: " ++ reason) "serve" none) hs hleaves)

lemma failureBranch_descends {itemId : String} {moment : ℕ} {verdict : Outcome} {prUrls : List String}
    (ht : Tidy d) (h : Leaves (failureBranch env moment itemId verdict prUrls) d d') :
    Descends Keeps d d' := by
  refine descends_of_get Keeps.refl ht h leaves_pure.mp fun current hl h => ?_
  refine Triple.leaves (P := fun s => Descends Keeps d s ∧ Located s current ∧ True) ?_
    ⟨Descends.refl Keeps.refl ht, hl, trivial⟩ h
  refine Triple.bind (quiet_triple (F := fun _ => True) (fun s t => leaves_map_unit.mpr)
    (quiet_finishFailed current verdict.reason "serve" prUrls) fun _ _ _ => id) fun _ => ?_
  refine Triple.bind ((getItem_triple itemId).conseq (fun _ => And.left) (fun _ _ => id)
    (fun _ _ => id) fun _ => id) fun found => ?_
  cases found with
  | none => exact Triple.pure fun s hs => hs.1
  | some failed =>
      refine Triple.conseq (P := fun s => Descends Keeps d s ∧ Located s failed ∧ True)
        (onward_triple (F := fun _ => True) moment "serve" d failed _ _ _ _ fun _ _ _ => id) ?_
        (fun _ _ hs => hs.1) (fun _ _ => id) fun _ => id
      rintro s ⟨hd, hget⟩
      exact ⟨hd, hd.tidy.located (Queue.mem_items_of_get hget), trivial⟩

/-- `ks inbox` settles an item that awaits an approval, and no other. -/
lemma settleApprovalBlock_descends {itemId runId actor : String} {parkedNow : Option String}
    {verdict : Outcome} {prUrls : List String} (ht : Tidy d)
    (h : Leaves (settleApprovalBlock env itemId runId actor parkedNow verdict prUrls) d d') :
    Descends KeepsAside d d' := by
  refine descends_of_get KeepsAside.refl ht h leaves_pure.mp fun current hl h => ?_
  have hrefl : ∀ {t}, t = d → Descends KeepsAside d t := by
    rintro t rfl
    exact Descends.refl KeepsAside.refl ht
  rcases leaves_ite.mp h with ⟨_, h⟩ | ⟨hstate, h⟩
  · exact hrefl (leaves_pure.mp h)
  have hleased : current.state ≠ .leased := by
    rw [not_not.mp hstate]
    decide
  cases parkedNow with
  | some reason =>
      rcases leaves_ite.mp h with ⟨_, h⟩ | ⟨_, h⟩
      · exact hrefl (leaves_pure.mp h)
      · exact quiet_descends_aside (.relinkRun current runId reason actor) ht
          ⟨rfl, rfl, rfl, rfl, rfl⟩ hl hleased (by simp [Op.target?]) h
  | none =>
      rcases leaves_ite.mp h with ⟨_, h⟩ | ⟨_, h⟩
      · exact quiet_descends_aside (.finishOk current actor prUrls) ht
          ⟨rfl, rfl, rfl, rfl, rfl⟩ hl hleased (by simp [Op.target?]) h
      · exact quiet_descends_aside _ ht (quiet_poison current verdict.reason actor) hl hleased
          (by simp [Op.target?]) h

end Serve

end Kstrl
