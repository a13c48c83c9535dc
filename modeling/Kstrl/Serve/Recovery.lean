import Kstrl.Serve.Processes

/-!
# Recovery after a crash of the daemon

The daemon dies between two disk writes of one of its blocks; later the reaper makes one pass that
comes to its end.  An item whose lease holder is gone, or that the crash left in `failed/`, should be
back in `queued/` or in `poison/` then.

* **`pass_tookBack`** is what a pass of the reaper that comes to its end does to every item: it takes
  back those of `leased/` and of `running/` whose lease is lost, and nothing else.  It never looks
  into `failed/`.
* **`Site`** is a block of the daemon, with what it was called with, and `Site.Strands` the crash
  points at which it has renamed an item into `failed/` and not yet out of it: after two, three or
  four of the six writes of the pair of transitions.
* **`recovery_complete_iff`** puts the two together, and `failure_branch_strands` is a crash that
  leaves an item in `failed/` for good.
-/

namespace Kstrl

open CrashProg

namespace Serve

variable {env : Env} {probe : ℤ → Bool} {moment : ℕ} {actor : String} {d : Disk}

/-! ## A pass of the reaper -/

/-- The item `it'` that the reaper's loop over the state `S` makes of `it`: items of `S` with a lost
    lease go on, the others stay as they are. -/
def TookBack (S : ItemState) (lost : QueueItem → Bool) (it it' : QueueItem) : Prop :=
  if it.state = S ∧ lost it = true then
    it'.itemId = it.itemId ∧ it'.attempts = it.attempts ∧ it'.maxAttempts = it.maxAttempts ∧
      it'.state = if S = .leased ∨ 0 < it.attemptsRemaining then .queued else .poison
  else it' = it

/-- A turn of a loop of the reaper. -/
def Turn (S : ItemState) (lost : QueueItem → Bool)
    (f : ReapResult → QueueItem → QueueProg ReapResult) : Prop :=
  ∀ d item result, Located d item → item.state = S →
    Triple (fun s => s = d) (f result item)
      (fun _ s => SameElsewhere d s item.itemId ∧ ∃ it', Located s it' ∧ it'.itemId = item.itemId ∧
        TookBack S lost item it')
      (fun _ _ => True) (fun _ => True)

/-- The loop over a scan, by its turns. -/
lemma loop_tookBack {S : ItemState} {lost : QueueItem → Bool}
    {f : ReapResult → QueueItem → QueueProg ReapResult} (hturn : Turn S lost f) (ht : Tidy d)
    (result : ReapResult) :
    Triple (fun s => s = d) ((items d [S]).foldlM f result)
      (fun _ s => Tidy s ∧ ∀ it, Located d it → ∃ it', Located s it' ∧ it'.itemId = it.itemId ∧
        TookBack S lost it it')
      (fun _ _ => True) (fun _ => True) := by
  -- the items still to come are as the scan saw them, the others are settled
  let I : List QueueItem → ReapResult → Disk → Prop := fun rest _ s => Tidy s ∧
    rest.Pairwise (fun a b => a.itemId ≠ b.itemId) ∧
    (∀ x ∈ rest, Located s x ∧ Located d x ∧ x.state = S) ∧
    ∀ it, Located d it → it ∈ rest ∨
      ∃ it', Located s it' ∧ it'.itemId = it.itemId ∧ TookBack S lost it it'
  refine (Triple.foldlM (I := I) ?_ (items d [S]) result).conseq ?_ ?_ (fun _ _ => id) fun _ => id
  · rintro x rest b fs s ⟨hs, hp, hrest, hall⟩
    obtain ⟨hx, hxd, hstate⟩ := hrest x List.mem_cons_self
    have h := hturn s x b hx hstate fs s rfl
    revert h
    rcases f b x fs s with ⟨b' | _ | _, fs', t⟩
    · rintro ⟨helse, x', hx', hid, htook⟩
      refine ⟨hs.of_elsewhere (hid ▸ helse) hx', hp.of_cons, fun y hy => ?_, fun it hit => ?_⟩
      · obtain ⟨hl, hy'⟩ := hrest y (List.mem_cons_of_mem _ hy)
        exact ⟨helse.located (Ne.symm (List.rel_of_pairwise_cons hp hy)) hl, hy'⟩
      · rcases hall it hit with hmem | ⟨it', hl, hid', htook'⟩
        · rcases List.mem_cons.mp hmem with rfl | hmem
          · exact Or.inr ⟨x', hx', hid, htook⟩
          · exact Or.inl hmem
        · by_cases hsame : it'.itemId = x.itemId
          · -- an item of this id is `x` itself
            obtain rfl := hxd.unique hit (hid'.symm.trans hsame)
            exact Or.inr ⟨x', hx', hid, htook⟩
          · exact Or.inr ⟨it', helse.located hsame hl, hid', htook'⟩
    · exact id
    · exact id
  · rintro s rfl
    refine ⟨ht, ht.pairwise_items (by simp), fun x hx => ?_, fun it hit => ?_⟩
    · obtain ⟨hl, hstate⟩ := ht.mem_items_iff.mp hx
      exact ⟨hl, hl, List.mem_singleton.mp hstate⟩
    · by_cases hstate : it.state = S
      · exact Or.inl (ht.mem_items_iff.mpr ⟨hit, List.mem_singleton.mpr hstate⟩)
      · exact Or.inr ⟨it, hit, rfl, by rw [TookBack, if_neg fun h => hstate h.1]⟩
  · rintro _ s ⟨hs, _, _, hall⟩
    exact ⟨hs, fun it hit => (hall it hit).resolve_left (List.not_mem_nil)⟩

lemma reapLeased_turn :
    Turn .leased (leaseLost env probe moment) (reapLeased env probe moment actor) := by
  intro d item result hl hstate
  refine Triple.ite (fun hlost => ?_) fun hheld => Triple.pure ?_
  · refine Triple.bind (transition_ends hl) fun it => Triple.pure ?_
    rintro s ⟨helse, hs, rfl⟩
    refine ⟨helse, _, hs, itemId_moved _ _ _ _ _, ?_⟩
    rw [TookBack, if_pos ⟨hstate, hlost⟩]
    exact ⟨itemId_moved _ _ _ _ _, attempts_requeueUpdates item false _, maxAttempts_moved _ _ _ _ _,
      rfl⟩
  · rintro s rfl
    exact ⟨SameElsewhere.refl _ _, item, hl, rfl, by rw [TookBack, if_neg fun h => hheld h.2]⟩

lemma poison_ends {item : QueueItem} {reason : String} (hl : Located d item) :
    Triple (fun s => s = d) (Queue.poison env item reason actor)
      (fun it s => SameElsewhere d s item.itemId ∧ Located s it ∧
        it = Queue.moved env item .poison false [.poisonReason reason])
      (fun _ _ => True) (fun _ => True) := by
  refine Triple.bind (Triple.require fun _ _ _ => trivial) fun _ => ?_
  exact (transition_ends hl).conseq (fun _ h => h.1) (fun _ _ => id) (fun _ _ => id) fun _ => id

lemma finishFailed_ends {item : QueueItem} {error : String} {prUrls : List String}
    (hl : Located d item) :
    Triple (fun s => s = d) (Queue.finishFailed env item error actor prUrls)
      (fun it s => SameElsewhere d s item.itemId ∧ Located s it ∧
        it = Queue.moved env item .failed false
          [.lastError error, .prUrls (Queue.unionUrls item prUrls)])
      (fun _ _ => True) (fun _ => True) :=
  transition_ends hl

/-- The read between the two moves finds the item that was just moved. -/
lemma reread_ends {α : Type} {item : QueueItem} {k : Option QueueItem → QueueProg α}
    {Q : α → Disk → Prop} (hl : Located d item)
    (hk : Triple (fun s => s = d) (k (some item)) Q (fun _ _ => True) (fun _ => True)) :
    Triple (fun s => s = d) (getItem item.itemId >>= k) Q (fun _ _ => True) (fun _ => True) := by
  refine Triple.bind ((getItem_triple item.itemId).conseq (fun _ => id) (fun _ _ => id)
    (fun _ _ _ => trivial) fun _ _ => trivial) fun found => ?_
  intro fs s ⟨hs, hget⟩
  rw [hs, hl.get] at hget
  cases hget
  exact hk fs s hs

lemma reapRunning_turn :
    Turn .running (leaseLost env probe moment) (reapRunning env probe moment actor) := by
  intro d item result hl hstate
  refine Triple.ite (fun hlost => ?_) fun hheld => Triple.pure ?_
  swap
  · rintro s rfl
    exact ⟨SameElsewhere.refl _ _, item, hl, rfl, by rw [TookBack, if_neg fun h => hheld h.2]⟩
  refine Triple.bind (finishFailed_ends hl) fun failed => ?_
  intro fs s ⟨helse, hs, hfailed⟩
  have hid : failed.itemId = item.itemId := by rw [hfailed]; exact itemId_moved _ _ _ _ _
  have hatt : failed.attempts = item.attempts := by rw [hfailed]; rfl
  have hmax : failed.maxAttempts = item.maxAttempts := by
    rw [hfailed]; exact maxAttempts_moved _ _ _ _ _
  have hleft : failed.attemptsRemaining = item.attemptsRemaining := by
    rw [QueueItem.attemptsRemaining, hatt, hmax, QueueItem.attemptsRemaining]
  -- what either of the two second moves makes of the item
  have hsecond : ∀ (toState : ItemState) (updates : List Update) (t : Disk) (it : QueueItem),
      (setAll failed updates).attempts = failed.attempts →
      toState = (if 0 < item.attemptsRemaining then .queued else .poison) →
      SameElsewhere s t failed.itemId ∧ Located t it ∧
        it = Queue.moved env failed toState false updates →
      SameElsewhere d t item.itemId ∧ ∃ it', Located t it' ∧ it'.itemId = item.itemId ∧
        TookBack .running (leaseLost env probe moment) item it' := by
    rintro toState updates t it hset hto ⟨helse', ht, rfl⟩
    refine ⟨helse.trans (hid ▸ helse'), _, ht, (itemId_moved _ _ _ _ _).trans hid, ?_⟩
    rw [TookBack, if_pos ⟨hstate, hlost⟩]
    refine ⟨(itemId_moved _ _ _ _ _).trans hid, hset.trans hatt,
      (maxAttempts_moved _ _ _ _ _).trans hmax, ?_⟩
    rw [state_moved, hto]
    simp
  rw [← hid]
  refine reread_ends hs ?_ fs s rfl
  refine Triple.ite (fun hpos => ?_) fun hnone => ?_
  · refine Triple.bind ((backoffMoment_triple moment failed.attempts).conseq (fun _ => id)
      (fun _ _ => id) (fun _ _ _ => trivial) fun _ _ => trivial) fun notBefore => ?_
    refine Triple.bind (transition_ends hs) fun it => Triple.pure fun t ht => ?_
    rw [hid]
    exact hsecond _ _ t it (attempts_requeueUpdates failed false _)
      (by rw [if_pos (hleft ▸ hpos)]) ht
  · -- the text of the reason is not evaluated
    generalize reapDetail item ++ noneLeft failed = detail
    refine Triple.bind (poison_ends hs) fun it => Triple.pure fun t ht => ?_
    rw [hid]
    exact hsecond _ _ t it rfl (by rw [if_neg (hleft ▸ hnone)]) ht

/-- **What a pass of the reaper does to an item**, when it comes to its end. -/
def Reaped (lost : QueueItem → Bool) (it it' : QueueItem) : Prop :=
  if (it.state = .leased ∨ it.state = .running) ∧ lost it = true then
    it'.attempts = it.attempts ∧ it'.maxAttempts = it.maxAttempts ∧
      it'.state = if it.state = .leased ∨ 0 < it.attemptsRemaining then .queued else .poison
  else it' = it

lemma Reaped.of_tookBack {lost : QueueItem → Bool} {a b c : QueueItem}
    (h : TookBack .leased lost a b) (h' : TookBack .running lost b c) : Reaped lost a c := by
  unfold TookBack at h h'
  unfold Reaped
  by_cases hlost : lost a = true
  · by_cases hleased : a.state = .leased
    · rw [if_pos ⟨hleased, hlost⟩, if_pos (Or.inl rfl)] at h
      obtain ⟨_, hatt, hmax, hstate⟩ := h
      rw [if_neg (by rw [hstate]; simp)] at h'
      subst h'
      rw [if_pos ⟨Or.inl hleased, hlost⟩, if_pos (Or.inl hleased)]
      exact ⟨hatt, hmax, hstate⟩
    · rw [if_neg fun h => hleased h.1] at h
      subst h
      by_cases hrunning : b.state = .running
      · rw [if_pos ⟨hrunning, hlost⟩] at h'
        rw [if_pos ⟨Or.inr hrunning, hlost⟩]
        obtain ⟨_, hatt, hmax, hstate⟩ := h'
        refine ⟨hatt, hmax, hstate.trans ?_⟩
        simp [hleased]
      · rw [if_neg fun h => hrunning h.1] at h'
        rw [if_neg fun h => h.1.elim hleased hrunning]
        exact h'
  · rw [if_neg fun h => hlost h.2] at h
    subst h
    rw [if_neg fun h => hlost h.2] at h'
    rw [if_neg fun h => hlost h.2]
    exact h'

/-- **The reaper's pass**, when it comes to its end. -/
theorem pass_reaped {result : ReapResult} {fs fs' : List CrashProg.Fault} {d' : Disk} (ht : Tidy d)
    (hdone : reapLeases env probe moment actor fs d = (.done result, fs', d')) :
    Tidy d' ∧ ∀ it, Located d it → ∃ it', Located d' it' ∧ it'.itemId = it.itemId ∧
      Reaped (leaseLost env probe moment) it it' := by
  have htriple : Triple (fun s => s = d) (reapLeases env probe moment actor)
      (fun _ s => Tidy s ∧ ∀ it, Located d it → ∃ it', Located s it' ∧ it'.itemId = it.itemId ∧
        Reaped (leaseLost env probe moment) it it') (fun _ _ => True) (fun _ => True) := by
    refine Triple.bind (Q := fun a s => a = d ∧ s = d) (Triple.read fun s hs => ⟨hs, hs⟩) fun a => ?_
    refine Triple.given ?_
    rintro rfl
    refine Triple.bind (loop_tookBack reapLeased_turn ht {}) fun result => ?_
    refine Triple.bind (Q := fun b s => b = s ∧ Tidy s ∧ ∀ it, Located a it → ∃ it', Located s it' ∧
      it'.itemId = it.itemId ∧ TookBack .leased (leaseLost env probe moment) it it')
      (Triple.read fun s hs => ⟨rfl, hs⟩) fun b => ?_
    rintro fs s ⟨rfl, hs, hall⟩
    refine ((loop_tookBack reapRunning_turn hs result).conseq (fun _ => id) ?_ (fun _ _ => id)
      fun _ => id) fs b rfl
    rintro _ t ⟨ht', hall'⟩
    refine ⟨ht', fun it hit => ?_⟩
    obtain ⟨it₁, hl₁, hid₁, htook₁⟩ := hall it hit
    obtain ⟨it₂, hl₂, hid₂, htook₂⟩ := hall' it₁ hl₁
    exact ⟨it₂, hl₂, hid₂.trans hid₁, Reaped.of_tookBack htook₁ htook₂⟩
  have h := htriple fs d rfl
  rw [hdone] at h
  exact h

/-! ## Crash points -/

/-- No item is in `failed/` that was not there before. -/
def NoneFailed (d d' : Disk) : Prop :=
  ∀ it, Located d' it → it.state = .failed →
    ∃ it₀, Located d it₀ ∧ it₀.itemId = it.itemId ∧ it₀.state = .failed

/-- A loop of the reaper over the state `S`, in front of a turn: the items still to come are as they
    were, none has been left in `failed/`, and the loop over `leased/` has not touched `running/`. -/
structure Swept (d : Disk) (S : ItemState) (rest : List QueueItem) (s : Disk) : Prop where
  tidy : Tidy s
  apart : rest.Pairwise fun a b => a.itemId ≠ b.itemId
  ahead : ∀ x ∈ rest, x.state = S ∧ Located d x ∧ Located s x
  failed : NoneFailed d s
  running : S = .leased → ∀ it, it.state = .running → (Located s it ↔ Located d it)

namespace Swept

variable {S : ItemState} {x x' : QueueItem} {rest : List QueueItem} {s t : Disk}

lemma init (ht : Tidy d) (hs : Tidy s) (hfailed : NoneFailed d s)
    (hsame : ∀ it, it.state = S → (Located s it ↔ Located d it))
    (hrunning : S = .leased → ∀ it, it.state = .running → (Located s it ↔ Located d it)) :
    Swept d S (items d [S]) s where
  tidy := hs
  apart := ht.pairwise_items (by simp)
  ahead y hy := by
    obtain ⟨hl, hstate⟩ := ht.mem_items_iff.mp hy
    have hstate := List.mem_singleton.mp hstate
    exact ⟨hstate, hl, (hsame y hstate).mpr hl⟩
  failed := hfailed
  running := hrunning

lemma skip (h : Swept d S (x :: rest) s) : Swept d S rest s :=
  ⟨h.tidy, h.apart.of_cons, fun y hy => h.ahead y (List.mem_cons_of_mem _ hy), h.failed, h.running⟩

/-- What is in `failed/` after a change of the first item to come. -/
lemma noneFailed_iff (h : Swept d S (x :: rest) s) (hS : S ≠ .failed)
    (helse : SameElsewhere s t x.itemId) (hx' : Located t x') (hid : x'.itemId = x.itemId) :
    NoneFailed d t ↔ x'.state ≠ .failed := by
  obtain ⟨hstate, hxd, _⟩ := h.ahead x List.mem_cons_self
  constructor
  · intro hnone hfailed
    obtain ⟨it₀, hl₀, hid₀, hfailed₀⟩ := hnone x' hx' hfailed
    have := hxd.unique hl₀ (hid₀.trans hid)
    rw [this, hstate] at hfailed₀
    exact hS hfailed₀
  · intro hx it hl hfailed
    by_cases hsame : it.itemId = x.itemId
    · have := hx'.unique hl (hsame.trans hid.symm)
      exact absurd (this ▸ hfailed) hx
    · exact h.failed it (helse.symm.located hsame hl) hfailed

/-- A turn that takes the first item to come where it does not matter. -/
lemma turn (h : Swept d S (x :: rest) s) (hS : S ≠ .failed) (helse : SameElsewhere s t x.itemId)
    (hx' : Located t x') (hid : x'.itemId = x.itemId) (hfailed : x'.state ≠ .failed)
    (hrunning : x'.state ≠ .running) : Swept d S rest t where
  tidy := h.tidy.of_elsewhere (hid ▸ helse) hx'
  apart := h.apart.of_cons
  ahead y hy := by
    obtain ⟨hstate, hyd, hys⟩ := h.ahead y (List.mem_cons_of_mem _ hy)
    exact ⟨hstate, hyd, helse.located (Ne.symm (List.rel_of_pairwise_cons h.apart hy)) hys⟩
  failed := (h.noneFailed_iff hS helse hx' hid).mpr hfailed
  running hS' it hit := by
    obtain ⟨hstate, hxd, _⟩ := h.ahead x List.mem_cons_self
    rw [← h.running hS' it hit]
    constructor
    · intro hl
      by_cases hsame : it.itemId = x.itemId
      · have := hx'.unique hl (hsame.trans hid.symm)
        exact absurd (this ▸ hit) hrunning
      · exact helse.symm.located hsame hl
    · intro hl
      refine helse.located (fun hsame => ?_) hl
      have := hxd.unique ((h.running hS' it hit).mp hl) hsame
      rw [this, hstate, hS'] at hit
      cases hit

end Swept

/-- The writes of the reaper's turn for an item: three a transition, two transitions for `running/`. -/
def reapCost (env : Env) (probe : ℤ → Bool) (moment : ℕ) (item : QueueItem) : ℕ :=
  if leaseLost env probe moment item = true then if item.state = .leased then 3 else 6 else 0

/-- What a cut of the reaper in the turn of `item` after `j` writes leaves. -/
def CutAt (d : Disk) (item : QueueItem) (j : ℕ) (t : Disk) : Prop :=
  NoneFailed d t ↔ ¬ (item.state = .running ∧ 2 ≤ j ∧ j ≤ 4)

lemma reapLeased_cut {α : Type} (x : QueueItem) (rest : List QueueItem) (b : ReapResult) (s : Disk)
    (k : ReapResult → QueueProg α) (n : ℕ) (h : Swept d .leased (x :: rest) s) :
    (n < reapCost env probe moment x ∧ ∃ t,
        cutRun n (reapLeased env probe moment actor b x >>= k) s = (.crashed, [], t) ∧ CutAt d x n t) ∨
      ∃ m b' t, n = reapCost env probe moment x + m ∧
        cutRun n (reapLeased env probe moment actor b x >>= k) s = cutRun m (k b') t ∧
        Swept d .leased rest t := by
  obtain ⟨hstate, _, hl⟩ := h.ahead x List.mem_cons_self
  unfold reapLeased reapCost
  by_cases hlost : leaseLost env probe moment x = true
  swap
  · rw [if_neg hlost, if_neg hlost]
    exact Or.inr ⟨n, b, s, (Nat.zero_add n).symm, rfl, h.skip⟩
  rw [if_pos hlost, if_pos hlost, if_pos hstate, bind_bind]
  rcases transition_cut_bind env x .queued "reaped: lease holder gone before any spend" actor false
    (.obj []) (Queue.requeueUpdates false (some "")) hl (by rw [hstate]; decide) _ n with
    ⟨hn, t, it, hrun, helse, hit, hid, hto⟩ | ⟨m, t, rfl, hrun, helse, hit⟩
  · refine Or.inl ⟨hn, t, hrun, ?_⟩
    have hnot : it.state ≠ .failed := by
      rw [hto, hstate]
      split_ifs <;> decide
    rw [CutAt, h.noneFailed_iff (by decide) helse hit hid, hstate]
    simp [hnot]
  · exact Or.inr ⟨m, _, t, rfl, hrun, h.turn (by decide) helse hit (itemId_moved _ _ _ _ _)
      (by rw [state_moved]; decide) (by rw [state_moved]; decide)⟩

/-- What a run cut after `n` writes is, when it begins with a move of `failed` out of `failed/` and goes
    on with `k`. -/
def OnwardCut {α β : Type} (d : Disk) (failed : QueueItem) (k : α → QueueProg β) (n : ℕ)
    (run : Exit QueueError β × List CrashProg.Fault × Disk) : Prop :=
  (n < 3 ∧ ∃ t it, run = (.crashed, [], t) ∧ SameElsewhere d t failed.itemId ∧ Located t it ∧
      it.itemId = failed.itemId ∧ (it.state = .failed ↔ n < 2) ∧ it.state ≠ .running) ∨
    ∃ m b t it, n = 3 + m ∧ run = cutRun m (k b) t ∧ SameElsewhere d t failed.itemId ∧
      Located t it ∧ it.itemId = failed.itemId ∧ it.state ≠ .failed ∧ it.state ≠ .running

section Onward

variable {α β : Type} {failed : QueueItem}

lemma OnwardCut.of_transition (hl : Located d failed) (hstate : failed.state = .failed)
    (toState : ItemState) (reason : String) (detail : Json) (updates : List Update) (b : α)
    (k : α → QueueProg β) (n : ℕ) (hfailed : toState ≠ .failed) (hrunning : toState ≠ .running)
    (hlegal : toState ∈ legalTransitions .failed) :
    OnwardCut d failed k n (cutRun n (Queue.transition env failed toState reason actor false detail
      updates >>= fun _ => k b) d) := by
  rcases transition_cut_bind env failed toState reason actor false detail updates hl
    (hstate ▸ hlegal) (fun _ => k b) n with
    ⟨hn, t, it, hrun, helse, hit, hid, hto⟩ | ⟨m, t, rfl, hrun, helse, hit⟩
  · refine Or.inl ⟨hn, t, it, hrun, helse, hit, hid, ?_, ?_⟩ <;> rw [hto] <;> split_ifs with h2
    · simp [h2, hstate]
    · simp [h2, hfailed]
    · rw [hstate]; decide
    · exact hrunning
  · refine Or.inr ⟨m, b, t, _, rfl, hrun, helse, hit, itemId_moved _ _ _ _ _, ?_, ?_⟩
    · rw [state_moved]; exact hfailed
    · rw [state_moved]; exact hrunning

/-- Out of `failed/`, cut after `n` writes. -/
lemma onward_cut {p : Prop} [Decidable p] (hl : Located d failed) (hstate : failed.state = .failed)
    (reason reason' : String) (x y : α) (k : α → QueueProg β) (n : ℕ)
    (hraised : ∀ e, (cutRun n ((if p then do
        let notBefore ← backoffMoment env moment failed.attempts
        let _ ← Queue.requeue env failed reason actor false (some notBefore)
        pure x
      else do
        let _ ← Queue.poison env failed reason' actor
        pure y) >>= k) d).1 ≠ .raised e) :
    OnwardCut d failed k n (cutRun n ((if p then do
        let notBefore ← backoffMoment env moment failed.attempts
        let _ ← Queue.requeue env failed reason actor false (some notBefore)
        pure x
      else do
        let _ ← Queue.poison env failed reason' actor
        pure y) >>= k) d) := by
  by_cases hp : p
  · rw [if_pos hp] at hraised ⊢
    unfold backoffMoment at hraised ⊢
    cases hdelay : backoffSeconds failed.attempts with
    | none =>
        rw [hdelay] at hraised
        exact absurd rfl (hraised .overflow)
    | some delay =>
        simp only [bind_bind]
        show OnwardCut d failed k n (cutRun n (Queue.transition env failed .queued reason actor false
          (.obj []) (Queue.requeueUpdates false (some (env.fmt.isoformat (moment + delay))))
          >>= fun _ => k x) d)
        exact .of_transition hl hstate .queued reason _ _ x k n (by decide) (by decide) (by decide)
  · rw [if_neg hp] at hraised ⊢
    unfold Queue.poison at hraised ⊢
    by_cases hblank : PyText.isBlank reason' = false
    · simp only [require_pos hblank, bind_bind]
      exact .of_transition hl hstate .poison "poisoned" (.obj []) [.poisonReason reason'] y k n
        (by decide) (by decide) (by decide)
    · simp only [require_neg hblank] at hraised
      exact absurd rfl (hraised (.refused "poison requires a reason"))

end Onward

/-- The read between the two moves, in a run that is cut later. -/
lemma getItem_cut {β : Type} {item : QueueItem} (hl : Located d item)
    (k : Option QueueItem → QueueProg β) (n : ℕ) :
    cutRun n (getItem item.itemId >>= k) d = cutRun n (k (some item)) d := by
  unfold getItem
  rw [bind_bind, cutRun_read_bind, hl.get]
  rfl

/-- The same, by the id the item had before it was moved. -/
lemma reread_cut {β : Type} {item failed : QueueItem} (hl : Located d failed)
    (hid : failed.itemId = item.itemId) (k : Option QueueItem → QueueProg β) (n : ℕ) :
    cutRun n (getItem item.itemId >>= k) d = cutRun n (k (some failed)) d :=
  hid ▸ getItem_cut hl k n

/-- Out of `running/`, cut after `n` writes. -/
lemma leaveRunning_cut {β : Type} (env : Env) (actor : String) {item : QueueItem} (hl : Located d item)
    (hstate : item.state = .running) (error : String) (prUrls : List String)
    (k : QueueItem → QueueProg β) (n : ℕ) :
    let c : QueueProg β := Queue.finishFailed env item error actor prUrls >>= k
    (n < 3 ∧ ∃ t it, cutRun n c d = (.crashed, [], t) ∧ SameElsewhere d t item.itemId ∧
        Located t it ∧ it.itemId = item.itemId ∧ (it.state = .failed ↔ n = 2)) ∨
      ∃ m t failed, n = 3 + m ∧ cutRun n c d = cutRun m (k failed) t ∧
        SameElsewhere d t item.itemId ∧ Located t failed ∧ failed.itemId = item.itemId ∧
        failed.state = .failed := by
  intro c
  rcases transition_cut_bind env item .failed "failed" actor false
    (Queue.urlsDetail (Queue.unionUrls item prUrls)) [.lastError error,
      .prUrls (Queue.unionUrls item prUrls)] hl (by rw [hstate]; decide) k n with
    ⟨hn, t, it, hrun, helse, hit, hid, hto⟩ | ⟨m, t, rfl, hrun, helse, hit⟩
  · refine Or.inl ⟨hn, t, it, hrun, helse, hit, hid, ?_⟩
    rw [hto, hstate]
    split_ifs with h2
    · simp only [false_iff]; omega
    · simp only [true_iff]; omega
  · exact Or.inr ⟨m, t, _, rfl, hrun, helse, hit, itemId_moved _ _ _ _ _, rfl⟩

lemma reapRunning_cut {α : Type} (x : QueueItem) (rest : List QueueItem) (b : ReapResult) (s : Disk)
    (k : ReapResult → QueueProg α) (n : ℕ) (h : Swept d .running (x :: rest) s)
    (hraised : ∀ e, (cutRun n (reapRunning env probe moment actor b x >>= k) s).1 ≠ .raised e) :
    (n < reapCost env probe moment x ∧ ∃ t,
        cutRun n (reapRunning env probe moment actor b x >>= k) s = (.crashed, [], t) ∧ CutAt d x n t) ∨
      ∃ m b' t, n = reapCost env probe moment x + m ∧
        cutRun n (reapRunning env probe moment actor b x >>= k) s = cutRun m (k b') t ∧
        Swept d .running rest t := by
  obtain ⟨hstate, _, hl⟩ := h.ahead x List.mem_cons_self
  unfold reapRunning at hraised ⊢
  unfold reapCost
  by_cases hlost : leaseLost env probe moment x = true
  swap
  · rw [if_neg hlost, if_neg hlost]
    exact Or.inr ⟨n, b, s, (Nat.zero_add n).symm, rfl, h.skip⟩
  rw [if_pos hlost, bind_bind] at hraised
  rw [if_pos hlost, if_pos hlost, if_neg (by rw [hstate]; decide), bind_bind]
  simp only [bind_bind] at hraised ⊢
  rcases leaveRunning_cut env actor hl hstate (reapDetail x) [] _ n with
    ⟨hn, t, it, hrun, helse, hit, hid, hfailed⟩ | ⟨m, t, failed, rfl, hrun, helse, hit, hid, hto⟩
  · refine Or.inl ⟨by omega, t, hrun, ?_⟩
    rw [CutAt, h.noneFailed_iff (by decide) helse hit hid, ne_eq, hfailed, hstate]
    simp only [true_and]
    omega
  have hrun := hrun.trans (reread_cut hit hid _ m)
  rw [hrun] at hraised
  rcases onward_cut hit hto _ _ _ _ k m hraised with
    ⟨hm, u, it, hrun', helse', hit', hid', hfailed, _⟩ |
    ⟨j, b', u, it, rfl, hrun', helse', hit', hid', hfailed, hrunning⟩
  · refine Or.inl ⟨by omega, u, hrun.trans hrun', ?_⟩
    rw [CutAt, h.noneFailed_iff (by decide) (helse.trans (hid ▸ helse')) hit' (hid'.trans hid),
      ne_eq, hfailed, hstate]
    simp only [true_and]
    omega
  · exact Or.inr ⟨j, b', u, by omega, hrun.trans hrun', h.turn (by decide)
      (helse.trans (hid ▸ helse')) hit' (hid'.trans hid) hfailed hrunning⟩

/-- **The crash points of the reaper.**  A crash of it leaves an item in `failed/` exactly when it cuts
    the turn of an item of `running/` after two, three or four writes. -/
theorem reapLeases_cut (ht : Tidy d) (n : ℕ)
    (hraised : ∀ e, (cutRun n (reapLeases env probe moment actor) d).1 ≠ .raised e) :
    NoneFailed d (cutAfter n (reapLeases env probe moment actor) d) ↔
      ¬ ∃ item j, cutIn (reapCost env probe moment) n (items d [.leased] ++ items d [.running])
        = some (item, j) ∧ item.state = .running ∧ 2 ≤ j ∧ j ≤ 4 := by
  have hnone : NoneFailed d d := fun it hl hfailed => ⟨it, hl, rfl, hfailed⟩
  have hloop : reapLeases env probe moment actor = CrashProg.read >>= fun a =>
      (items a [.leased]).foldlM (reapLeased env probe moment actor) {} >>= fun result =>
        CrashProg.read >>= fun b =>
          (items b [.running]).foldlM (reapRunning env probe moment actor) result >>= Pure.pure := by
    simp only [bind_pure_self]
    rfl
  unfold cutAfter
  rw [hloop, cutRun_read_bind] at hraised ⊢
  have hinit : Swept d .leased (items d [.leased]) d :=
    .init ht ht hnone (fun _ _ => Iff.rfl) fun _ _ _ => Iff.rfl
  rw [cutIn_append]
  rcases cut_foldlM (I := Swept d .leased) (C := CutAt d) (fun x rest b s k n h _ =>
    reapLeased_cut x rest b s k n h) _ _ d _ n hinit hraised with
    ⟨x, j, t, hcut, hrun, hC⟩ | ⟨hcut, m, b, t, rfl, hrun, hI⟩
  · -- cut in the loop over `leased/`
    rw [hrun, hcut]
    have hstate : x.state = .leased :=
      List.mem_singleton.mp (ht.mem_items_iff.mp (cutIn_mem hcut)).2
    refine hC.trans (not_congr ⟨fun h => ⟨x, j, rfl, h⟩, ?_⟩)
    rintro ⟨_, _, he, h⟩
    cases he
    exact h
  rw [hcut]
  rw [hrun] at hraised ⊢
  simp only [Nat.add_sub_cancel_left]
  rw [cutRun_read_bind] at hraised ⊢
  -- the second scan sees the items of `running/` as they were
  have hsame : items t [.running] = items d [.running] := by
    refine items_congr (by simp) (fun it => ?_) fun a ha b hb hid => ?_
    · rw [hI.tidy.mem_items_iff, ht.mem_items_iff]
      exact and_congr_left fun h => hI.running rfl it (List.mem_singleton.mp h)
    · exact ((ht.mem_items_iff.mp hb).1).unique (ht.mem_items_iff.mp ha).1 hid
  rw [hsame] at hraised ⊢
  have hinit' : Swept d .running (items d [.running]) t :=
    .init ht hI.tidy hI.failed (hI.running rfl) fun h => nomatch h
  rcases cut_foldlM (I := Swept d .running) (C := CutAt d) (fun x rest b s k n h hr =>
    reapRunning_cut x rest b s k n h hr) _ b t _ m hinit' hraised with
    ⟨x, j, u, hcut', hrun', hC⟩ | ⟨hcut', j, b', u, rfl, hrun', hI'⟩
  · rw [hrun', hcut']
    refine hC.trans (not_congr ⟨fun h => ⟨x, j, rfl, h⟩, ?_⟩)
    rintro ⟨_, _, he, h⟩
    cases he
    exact h
  · rw [hrun', hcut']
    refine iff_of_true hI'.failed ?_
    rintro ⟨_, _, he, _⟩
    cases he

/-- The second half of the failure branch, given the item it read again. -/
def failureOnward (env : Env) (moment : ℕ) (verdict : Outcome) : Option QueueItem → QueueProg Unit
  | none => pure ()
  | some failed =>
      if verdict.verdict.mayRetry ∧ 0 < failed.attemptsRemaining then do
        let notBefore ← backoffMoment env moment failed.attempts
        let _ ← Queue.requeue env failed ("retry: " ++ verdict.reason) "serve" false (some notBefore)
        pure ()
      else do
        let _ ← Queue.poison env failed (verdict.reason ++
          if verdict.verdict.mayRetry then noneLeft failed else "") "serve"
        pure ()

lemma failureBranch_run {item : QueueItem} (verdict : Outcome) (prUrls : List String) (n : ℕ)
    (hl : Located d item) :
    cutRun n (failureBranch env moment item.itemId verdict prUrls) d
      = cutRun n (do
          let _ ← Queue.finishFailed env item verdict.reason "serve" prUrls
          getItem item.itemId >>= failureOnward env moment verdict) d := by
  unfold failureBranch
  rw [getItem_cut hl]
  refine congrArg (fun k => cutRun n (Queue.finishFailed env item verdict.reason "serve" prUrls
    >>= fun _ => getItem item.itemId >>= k) d) (funext fun found => ?_)
  cases found <;> rfl

/-- **The crash points of a pair of transitions**, out of `running/` and with `k` out of `failed/`. -/
lemma leaveRunning_onward {item : QueueItem} {error : String} {prUrls : List String}
    {k : QueueItem → QueueProg Unit} {n : ℕ} (hl : Located d item) (hstate : item.state = .running)
    (hk : ∀ m t failed, Located t failed → failed.itemId = item.itemId → failed.state = .failed →
      (∀ e, (cutRun m (k failed) t).1 ≠ .raised e) →
      OnwardCut t failed (Pure.pure : Unit → QueueProg Unit) m (cutRun m (k failed) t))
    (hraised : ∀ e, (cutRun n (Queue.finishFailed env item error "serve" prUrls >>= k) d).1
      ≠ .raised e) :
    NoneFailed d (cutAfter n (Queue.finishFailed env item error "serve" prUrls >>= k) d) ↔
      ¬ (2 ≤ n ∧ n ≤ 4) := by
  -- nothing but the item moves
  have hsame : ∀ {t : Disk} {it : QueueItem}, SameElsewhere d t item.itemId → Located t it →
      it.itemId = item.itemId → (NoneFailed d t ↔ it.state ≠ .failed) := by
    intro t it helse hit hid
    constructor
    · intro hnone hfailed
      obtain ⟨it₀, hl₀, hid₀, hfailed₀⟩ := hnone it hit hfailed
      rw [hl.unique hl₀ (hid₀.trans hid), hstate] at hfailed₀
      cases hfailed₀
    · intro hit' it₂ hl₂ hfailed
      by_cases hid₂ : it₂.itemId = item.itemId
      · exact absurd (hit.unique hl₂ (hid₂.trans hid.symm) ▸ hfailed) hit'
      · exact ⟨it₂, helse.symm.located hid₂ hl₂, rfl, hfailed⟩
  unfold cutAfter
  rcases leaveRunning_cut env "serve" hl hstate error prUrls k n with
    ⟨hn, t, it, hrun, helse, hit, hid, hfailed⟩ | ⟨m, t, failed, rfl, hrun, helse, hit, hid, hto⟩
  · rw [hrun, hsame helse hit hid, ne_eq, hfailed]
    omega
  rw [hrun] at hraised ⊢
  rcases hk m t failed hit hid hto hraised with
    ⟨hm, u, it, hrun', helse', hit', hid', hfailed, _⟩ |
    ⟨j, b', u, it, rfl, hrun', helse', hit', hid', hfailed, _⟩
  · rw [hrun', hsame (helse.trans (hid ▸ helse')) hit' (hid'.trans hid), ne_eq, hfailed]
    omega
  · rw [hrun']
    refine (hsame (helse.trans (hid ▸ helse')) hit' (hid'.trans hid)).trans ?_
    refine iff_of_true hfailed ?_
    omega

lemma failureBranch_cut {item : QueueItem} {verdict : Outcome} {prUrls : List String} {n : ℕ}
    (hl : Located d item) (hstate : item.state = .running)
    (hraised : ∀ e, (cutRun n (failureBranch env moment item.itemId verdict prUrls) d).1 ≠ .raised e) :
    NoneFailed d (cutAfter n (failureBranch env moment item.itemId verdict prUrls) d) ↔
      ¬ (2 ≤ n ∧ n ≤ 4) := by
  unfold cutAfter
  rw [failureBranch_run verdict prUrls n hl] at hraised ⊢
  refine leaveRunning_onward hl hstate (fun m t failed hit hid hto hr => ?_) hraised
  rw [reread_cut hit hid] at hr ⊢
  rw [← bind_pure_self (failureOnward env moment verdict (some failed))] at hr ⊢
  exact onward_cut hit hto _ _ _ _ Pure.pure m hr

lemma redBaseBlock_cut {item : QueueItem} {reason : String} {n : ℕ} (hl : Located d item)
    (hstate : item.state = .running)
    (hraised : ∀ e, (cutRun n (redBaseBlock env item.itemId reason) d).1 ≠ .raised e) :
    NoneFailed d (cutAfter n (redBaseBlock env item.itemId reason) d) ↔ ¬ (2 ≤ n ∧ n ≤ 4) := by
  unfold redBaseBlock cutAfter at *
  rw [getItem_cut hl] at hraised ⊢
  refine leaveRunning_onward hl hstate (fun m t failed hit _ hto _ => ?_) hraised
  exact .of_transition hit hto .queued _ _ _ () Pure.pure m (by decide) (by decide) (by decide)

/-! ## The blocks a crash can hit -/

/-- Nothing enters `failed/`. -/
def NotToFailed (it it' : QueueItem) : Prop := it'.state = .failed → it.state = .failed

lemma NoneFailed.of_descends {d' : Disk} (h : Descends NotToFailed d d') : NoneFailed d d' := by
  intro it hl hfailed
  obtain ⟨it₀, hl₀, hid, himp⟩ := h.origin it hl
  exact ⟨it₀, hl₀, hid, himp hfailed⟩

lemma claimBlock_notToFailed {d' : Disk} {paused : Bool} {gate : QueueItem → MergeGate}
    (ht : Tidy d) (h : Leaves (claimBlock env moment paused gate) d d') :
    Descends NotToFailed d d' := by
  have h := leaves_read_bind.mp h
  cases hready : nextReady env.fmt d paused moment with
  | none =>
      rw [hready] at h
      rw [leaves_pure.mp h]
      exact Descends.refl (fun _ => id) ht
  | some candidate =>
      rw [hready] at h
      have hl : Located d candidate := ht.located (nextReady_mem hready)
      rcases leaves_ite.mp h with ⟨_, h⟩ | ⟨_, h⟩
      · rcases leaves_ite.mp (leaves_map.mp h) with ⟨_, h⟩ | ⟨_, h⟩
        · rw [leaves_pure.mp h]
          exact Descends.refl (fun _ => id) ht
        · -- the read that follows leaves the disk alone
          have h := leaves_bind_of_reads (fun _ u v hread => by
            rcases leaves_getItem_bind (k := Pure.pure) (by rwa [bind_pure_self]) with
              hsame | ⟨_, _, hpure⟩
            · exact hsame
            · exact leaves_pure.mp hpure) h
          exact op_enters (.poison candidate _ "serve") ht rfl rfl rfl hl (by simp [Op.target?])
            (leaves_map_unit.mpr h)
      · exact op_enters (.lease candidate 0 "" "serve") ht rfl rfl rfl hl (by simp [Op.target?])
          (leaves_map_unit.mpr (leaves_map.mp h))

lemma startBlock_notToFailed {d' : Disk} {leased : QueueItem} (ht : Tidy d)
    (hat : (leased.state, leased.itemId) ∈ d.dirs → Located d leased)
    (h : Leaves (startBlock env leased) d d') : Descends NotToFailed d d' := by
  by_cases hmem : (leased.state, leased.itemId) ∈ d.dirs
  · exact op_enters (.start leased "" "serve") ht rfl rfl rfl (hat hmem) (by simp [Op.target?])
      (leaves_map_unit.mpr h)
  · have hsame : d' = d := by
      rcases leaves_require_bind.mp h with ⟨_, h⟩ | ⟨_, rfl⟩
      · exact transition_refused _ _ _ _ _ _ _ _ hmem h
      · rfl
    rw [hsame]
    exact Descends.refl (fun _ => id) ht

lemma adoptBlock_notToFailed {d' : Disk} {itemId : String} {pid : ℤ} (ht : Tidy d)
    (h : Leaves (adoptBlock env itemId pid) d d') : Descends NotToFailed d d' :=
  descends_of_get (fun _ => id) ht h leaves_pure.mp fun current hl h =>
    op_enters (.adoptLease current pid "" "serve") ht rfl rfl rfl hl (by simp [Op.target?]) h

lemma exhaustedBlock_notToFailed {d' : Disk} {leased : QueueItem} {reason : String} (ht : Tidy d)
    (hat : (leased.state, leased.itemId) ∈ d.dirs → Located d leased)
    (h : Leaves (do let _ ← exhaustedBlock env leased reason) d d') :
    Descends NotToFailed d d' := by
  have h := leaves_bind_of_reads (fun _ u v hread => by
    rcases leaves_getItem_bind (k := Pure.pure) (by rwa [bind_pure_self]) with
      hsame | ⟨_, _, hpure⟩
    · exact hsame
    · exact leaves_pure.mp hpure) (leaves_map_unit.mp h)
  by_cases hmem : (leased.state, leased.itemId) ∈ d.dirs
  · exact op_enters (.poison leased reason "serve") ht rfl rfl rfl (hat hmem) (by simp [Op.target?])
      (leaves_map_unit.mpr h)
  · have hsame : d' = d := by
      rcases leaves_require_bind.mp h with ⟨_, h⟩ | ⟨_, rfl⟩
      · exact transition_refused _ _ _ _ _ _ _ _ hmem h
      · rfl
    rw [hsame]
    exact Descends.refl (fun _ => id) ht

lemma unreapedBlock_notToFailed {d' : Disk} {itemId detail : String} (ht : Tidy d)
    (h : Leaves (unreapedBlock env itemId detail) d d') : Descends NotToFailed d d' :=
  descends_of_get (fun _ => id) ht h leaves_pure.mp fun current hl h =>
    op_enters (.poison current detail "serve") ht rfl rfl rfl hl (by simp [Op.target?]) h

lemma settleBlock_notToFailed {d' : Disk} {itemId runId architectRunId : String} {verdict : Outcome}
    {prUrls : List String} (ht : Tidy d)
    (h : Leaves (do let _ ← settleBlock env itemId verdict prUrls runId architectRunId) d d') :
    Descends NotToFailed d d' := by
  refine descends_of_get (fun _ => id) ht (leaves_map_unit.mp h) leaves_pure.mp
    fun current hl h => ?_
  cases hv : verdict.verdict <;> rw [hv] at h
  case success =>
      exact op_enters (.finishOk current "serve" prUrls) ht rfl rfl rfl hl (by simp [Op.target?])
        (leaves_map_unit.mpr (leaves_map.mp h))
  case awaitingApproval =>
      exact op_enters (.awaitApproval current verdict.reason runId "serve" prUrls) ht rfl rfl rfl hl
        (by simp [Op.target?]) (leaves_map_unit.mpr (leaves_map.mp h))
  case awaitingAnswer =>
      exact op_enters (.awaitAnswer current verdict.reason architectRunId "serve") ht rfl rfl rfl hl
        (by simp [Op.target?]) (leaves_map_unit.mpr (leaves_map.mp h))
  all_goals
    rw [leaves_pure.mp h]
    exact Descends.refl (fun _ => id) ht

/-- A block of the daemon that a crash can hit: the reaper's pass, or a block of a cycle from the claim to
    the settling of the run. -/
inductive Site where
  | reap (env : Env) (probe : ℤ → Bool) (moment : ℕ) (actor : String)
  | claim (env : Env) (moment : ℕ) (paused : Bool) (gate : QueueItem → MergeGate)
  | start (env : Env) (leased : QueueItem)
  | exhausted (env : Env) (leased : QueueItem) (reason : String)
  | adopt (env : Env) (itemId : String) (childPid : ℤ)
  | unreaped (env : Env) (itemId detail : String)
  | settle (env : Env) (itemId : String) (verdict : Outcome) (prUrls : List String)
      (runId architectRunId : String)
  | redBase (env : Env) (itemId reason : String)
  | failure (env : Env) (moment : ℕ) (itemId : String) (verdict : Outcome) (prUrls : List String)

namespace Site

def prog : Site → QueueProg Unit
  | reap env probe moment actor => do let _ ← reapLeases env probe moment actor
  | claim env moment paused gate => do let _ ← claimBlock env moment paused gate
  | start env leased => do let _ ← startBlock env leased
  | exhausted env leased reason => do let _ ← exhaustedBlock env leased reason
  | adopt env itemId childPid => adoptBlock env itemId childPid
  | unreaped env itemId detail => unreapedBlock env itemId detail
  | settle env itemId verdict prUrls runId architectRunId => do
      let _ ← settleBlock env itemId verdict prUrls runId architectRunId
  | redBase env itemId reason => redBaseBlock env itemId reason
  | failure env moment itemId verdict prUrls => failureBranch env moment itemId verdict prUrls

/-- The start is given the item as it was leased, and a pair of transitions an item that runs. -/
def Ready (d : Disk) : Site → Prop
  | start _ leased => (leased.state, leased.itemId) ∈ d.dirs → Located d leased
  | exhausted _ leased _ => (leased.state, leased.itemId) ∈ d.dirs → Located d leased
  | redBase _ itemId _ => ∃ item, Located d item ∧ item.itemId = itemId ∧ item.state = .running
  | failure _ _ itemId _ _ => ∃ item, Located d item ∧ item.itemId = itemId ∧ item.state = .running
  | _ => True

/-- The crash comes behind the rename into `failed/` and not behind the rename out of it: after two,
    three or four of the six writes of the two transitions. -/
def Strands (d : Disk) (n : ℕ) : Site → Prop
  | reap env probe moment _ => ∃ item j, cutIn (reapCost env probe moment) n
      (items d [.leased] ++ items d [.running]) = some (item, j) ∧ item.state = .running ∧
      2 ≤ j ∧ j ≤ 4
  | redBase .. => 2 ≤ n ∧ n ≤ 4
  | failure .. => 2 ≤ n ∧ n ≤ 4
  | _ => False

/-- The process died at the crash point, or the block had come to its end; it did not stop with an
    error of its own before. -/
def Crashes (d : Disk) (n : ℕ) (site : Site) : Prop :=
  ∀ e, (cutRun n site.prog d).1 ≠ .raised e

lemma tidy {site : Site} {d : Disk} (ht : Tidy d) (hready : site.Ready d) (n : ℕ) :
    Tidy (cutAfter n site.prog d) := by
  have hleaves := leaves_cutAfter n site.prog d
  cases site with
  | reap env probe moment actor =>
      refine (Triple.leaves (P := Descends Keeps d) (R := Descends Keeps d)
        (reapLeases_triple probe moment actor d) (Descends.refl Keeps.refl ht)
        (leaves_map_unit.mp hleaves)).tidy
  | claim => exact (claimBlock_notToFailed ht (leaves_map_unit.mp hleaves)).tidy
  | start => exact (startBlock_notToFailed ht hready (leaves_map_unit.mp hleaves)).tidy
  | exhausted => exact (exhaustedBlock_notToFailed ht hready hleaves).tidy
  | adopt => exact (adoptBlock_notToFailed ht hleaves).tidy
  | unreaped => exact (unreapedBlock_notToFailed ht hleaves).tidy
  | settle => exact (settleBlock_notToFailed ht hleaves).tidy
  | redBase => exact (redBaseBlock_descends ht hleaves).tidy
  | failure => exact (failureBranch_descends ht hleaves).tidy

/-- **What a crash leaves in `failed/`.** -/
theorem noneFailed_iff {site : Site} {d : Disk} {n : ℕ} (ht : Tidy d) (hready : site.Ready d)
    (hcrash : site.Crashes d n) :
    NoneFailed d (cutAfter n site.prog d) ↔ ¬ site.Strands d n := by
  have hleaves := leaves_cutAfter n site.prog d
  have hfalse : ∀ {p : Prop}, p → (p ↔ ¬ False) := fun hp => iff_of_true hp id
  cases site with
  | reap env probe moment actor =>
      obtain ⟨hstore, herror⟩ := cutRun_map (s := d) n (reapLeases env probe moment actor) fun _ => ()
      have hraised : ∀ e, (cutRun n (reapLeases env probe moment actor) d).1 ≠ .raised e :=
        fun e he => hcrash e ((herror e).mpr he)
      have hcut : cutAfter n (reap env probe moment actor).prog d
          = cutAfter n (reapLeases env probe moment actor) d := congrArg Prod.snd hstore
      rw [hcut]
      exact reapLeases_cut ht n hraised
  | claim => exact hfalse (.of_descends (claimBlock_notToFailed ht (leaves_map_unit.mp hleaves)))
  | start => exact hfalse (.of_descends (startBlock_notToFailed ht hready (leaves_map_unit.mp hleaves)))
  | exhausted => exact hfalse (.of_descends (exhaustedBlock_notToFailed ht hready hleaves))
  | adopt => exact hfalse (.of_descends (adoptBlock_notToFailed ht hleaves))
  | unreaped => exact hfalse (.of_descends (unreapedBlock_notToFailed ht hleaves))
  | settle => exact hfalse (.of_descends (settleBlock_notToFailed ht hleaves))
  | redBase =>
      obtain ⟨item, hl, rfl, hstate⟩ := hready
      exact redBaseBlock_cut hl hstate hcrash
  | failure =>
      obtain ⟨item, hl, rfl, hstate⟩ := hready
      exact failureBranch_cut hl hstate hcrash

end Site

/-! ## Recovery -/

/-- An item that nobody works on, in `leased/` or `running/`, or that was put into `failed/` and was not
    there on the disk `d`. -/
def LeftBehind (lost : QueueItem → Bool) (d : Disk) (it : QueueItem) : Prop :=
  ((it.state = .leased ∨ it.state = .running) ∧ lost it = true) ∨
    it.state = .failed ∧ ¬ ∃ it₀ ∈ items d, it₀.itemId = it.itemId ∧ it₀.state = .failed

/-- Queued again with attempts left, or poisoned with none. -/
def Back (it : QueueItem) : Prop :=
  it.state = .queued ∧ 0 < it.attemptsRemaining ∨ it.state = .poison ∧ it.attemptsRemaining = 0

/-- **Recovery is complete.**  A crash took the disk `d` to `d₁`, a pass of the reaper took that to `d₂`:
    what was left behind is back, and nothing is left behind. -/
def Recovered (lost : QueueItem → Bool) (d d₁ d₂ : Disk) : Prop :=
  (∀ it ∈ items d₁, LeftBehind lost d it → ∃ it' ∈ items d₂, it'.itemId = it.itemId ∧ Back it') ∧
    ∀ it ∈ items d₂, ¬ LeftBehind lost d it

lemma attemptsRemaining_congr {a b : QueueItem} (hatt : b.attempts = a.attempts)
    (hmax : b.maxAttempts = a.maxAttempts) : b.attemptsRemaining = a.attemptsRemaining := by
  rw [QueueItem.attemptsRemaining, hatt, hmax, QueueItem.attemptsRemaining]

lemma attemptsRemaining_nonneg (it : QueueItem) : 0 ≤ it.attemptsRemaining := le_max_left _ _

/-- What a pass makes of an item that nobody works on is back, but for an item of `leased/` that has no
    attempts left. -/
lemma Reaped.back_iff {lost : QueueItem → Bool} {it it' : QueueItem} (h : Reaped lost it it')
    (hstate : it.state = .leased ∨ it.state = .running) (hlost : lost it = true) :
    Back it' ↔ (it.state = .leased → 0 < it.attemptsRemaining) := by
  rw [Reaped, if_pos ⟨hstate, hlost⟩] at h
  obtain ⟨hatt, hmax, hto⟩ := h
  have hnonneg := attemptsRemaining_nonneg it
  unfold Back
  rw [attemptsRemaining_congr hatt hmax, hto]
  rcases hstate with hs | hs
  · simp [hs]
  · by_cases hleft : 0 < it.attemptsRemaining
    · simp [hs, hleft]
    · have : it.attemptsRemaining = 0 := by omega
      simp [hs, this]

/-- **When recovery is complete.**  The process dies after `n` writes of a block; later, from the disk it
    left, a pass of the reaper comes to its end.  Recovery is complete if and only if the crash was not
    between the rename into `failed/` and the rename out of it, and no item of `leased/` whose lease is
    lost is without attempts when the pass begins. -/
theorem recovery_complete_iff {site : Site} {n : ℕ} {result : ReapResult} {fs fs' : List CrashProg.Fault}
    {d₂ : Disk} (ht : Tidy d) (hready : site.Ready d) (hcrash : site.Crashes d n)
    (hpass : reapLeases env probe moment actor fs (cutAfter n site.prog d) = (.done result, fs', d₂)) :
    Recovered (leaseLost env probe moment) d (cutAfter n site.prog d) d₂ ↔
      ¬ site.Strands d n ∧ ∀ it ∈ items (cutAfter n site.prog d) [.leased],
        leaseLost env probe moment it = true → 0 < it.attemptsRemaining := by
  have ht₁ := Site.tidy ht hready n
  obtain ⟨ht₂, hall⟩ := pass_reaped ht₁ hpass
  have hdesc : Descends Keeps (cutAfter n site.prog d) d₂ := by
    have h := @reapLeases_triple env probe moment actor (cutAfter n site.prog d) fs _
      (Descends.refl Keeps.refl ht₁)
    rwa [hpass] at h
  rw [← Site.noneFailed_iff ht hready hcrash]
  set d₁ := cutAfter n site.prog d
  set lost := leaseLost env probe moment
  have hfailed : ∀ it : QueueItem, (¬ ∃ it₀ ∈ items d, it₀.itemId = it.itemId ∧ it₀.state = .failed) ↔
      ¬ ∃ it₀, Located d it₀ ∧ it₀.itemId = it.itemId ∧ it₀.state = .failed := by
    intro it
    refine not_congr (exists_congr fun it₀ => ?_)
    exact and_congr_left fun _ => ⟨ht.located, Located.mem_items⟩
  constructor
  · rintro ⟨hback, hnone⟩
    refine ⟨fun it hl hstate => ?_, fun it hit hlost => ?_⟩
    · -- the pass does not look into `failed/`
      obtain ⟨it', hl', _, hreaped⟩ := hall it hl
      rw [Reaped, if_neg (by rw [hstate]; simp)] at hreaped
      subst hreaped
      by_contra hnot
      exact hnone it' hl'.mem_items (Or.inr ⟨hstate, (hfailed it').mpr hnot⟩)
    · obtain ⟨hl, hstate⟩ := ht₁.mem_items_iff.mp hit
      have hstate := List.mem_singleton.mp hstate
      obtain ⟨it', hit', hid, hb⟩ := hback it hl.mem_items (Or.inl ⟨Or.inl hstate, hlost⟩)
      obtain ⟨it'', hl'', hid'', hreaped⟩ := hall it hl
      obtain rfl := hl''.unique (ht₂.located hit') (hid.trans hid''.symm)
      exact (hreaped.back_iff (Or.inl hstate) hlost).mp hb hstate
  · rintro ⟨hnone, hleft⟩
    refine ⟨fun it hit hbehind => ?_, fun it' hit' hbehind => ?_⟩
    · have hl := ht₁.located hit
      rcases hbehind with ⟨hstate, hlost⟩ | ⟨hstate, hnew⟩
      · obtain ⟨it', hl', hid, hreaped⟩ := hall it hl
        refine ⟨it', hl'.mem_items, hid, (hreaped.back_iff hstate hlost).mpr fun hs => ?_⟩
        exact hleft it (ht₁.mem_items_iff.mpr ⟨hl, List.mem_singleton.mpr hs⟩) hlost
      · exact absurd (hnone it hl hstate) ((hfailed it).mp hnew)
    · -- an item of `d₂` stems from one of `d₁`, and the pass has made it what it is
      have hl' := ht₂.located hit'
      obtain ⟨it, hl, hid, _⟩ := hdesc.origin it' hl'
      obtain ⟨it'', hl'', hid'', hreaped⟩ := hall it hl
      obtain rfl := hl''.unique hl' (hid.symm.trans hid''.symm)
      by_cases hgone : (it.state = .leased ∨ it.state = .running) ∧ lost it = true
      · rw [Reaped, if_pos hgone] at hreaped
        have hto := hreaped.2.2
        split_ifs at hto <;> rcases hbehind with ⟨hs | hs, _⟩ | ⟨hs, _⟩ <;> rw [hto] at hs <;> cases hs
      · rw [Reaped, if_neg hgone] at hreaped
        subst hreaped
        rcases hbehind with hlost | ⟨hs, hnew⟩
        · exact hgone hlost
        · exact (hfailed it').mp hnew (hnone it' hl hs)

/-! ## Runs on fixed inputs

The item of `startedQueue` runs; its run has failed, and an attempt is left. -/

lemma startedQueue_tidy : Tidy startedQueue.disk :=
  (startedQueue_run.invariant Inv.init fun _ _ _ hi hc hstep => step_inv hi hstep hc).tidy

/-- The failure branch for the item. -/
def failureSite : Site :=
  .failure sampleEnv 1780000000000001 sampleMint.itemId ⟨.retryInfra, "killed by signal 9", []⟩ []

lemma failureSite_ready : failureSite.Ready startedQueue.disk := by
  have h : ∃ item ∈ items startedQueue.disk, item.itemId = sampleMint.itemId ∧
      item.state = .running := by decide +kernel
  obtain ⟨item, hitem, hid, hstate⟩ := h
  exact ⟨item, startedQueue_tidy.located hitem, hid, hstate⟩

def isRaised {ε α : Type} : Exit ε α → Bool
  | .raised _ => true
  | _ => false

lemma crashes_of_not_raised {d : Disk} {n : ℕ} {site : Site}
    (h : isRaised (cutRun n site.prog d).1 = false) : site.Crashes d n := by
  intro e he
  rw [he] at h
  cases h

/-- The later pass of the reaper. -/
def laterPass (d : Disk) : Exit QueueError ReapResult × List CrashProg.Fault × Disk :=
  reapLeases sampleEnv (fun _ => false) 1780000100000001 "reaper" [] d

def passResult (d : Disk) : Option ReapResult :=
  match (laterPass d).1 with
  | .done result => some result
  | _ => none

lemma laterPass_done {d : Disk} (h : (passResult d).isSome = true) :
    ∃ result, laterPass d = (.done result, (laterPass d).2.1, (laterPass d).2.2) := by
  unfold passResult at h
  rcases hp : laterPass d with ⟨e, fs, d'⟩
  rw [hp] at h
  cases e with
  | done result => exact ⟨result, rfl⟩
  | raised e => cases h
  | crashed => cases h

/-- Killed after the first write, before the rename: the item is queued again by the later pass. -/
theorem recovery_complete_before_rename :
    Recovered (leaseLost sampleEnv (fun _ => false) 1780000100000001) startedQueue.disk
      (cutAfter 1 failureSite.prog startedQueue.disk)
      (laterPass (cutAfter 1 failureSite.prog startedQueue.disk)).2.2 := by
  have hrun : isRaised (cutRun 1 failureSite.prog startedQueue.disk).1 = false ∧
      (passResult (cutAfter 1 failureSite.prog startedQueue.disk)).isSome = true ∧
      items (cutAfter 1 failureSite.prog startedQueue.disk) [.leased] = [] := by decide +kernel
  obtain ⟨hcrash, hdone, hnone⟩ := hrun
  obtain ⟨result, hpass⟩ := laterPass_done hdone
  refine (recovery_complete_iff startedQueue_tidy failureSite_ready
    (crashes_of_not_raised hcrash) hpass).mpr ⟨?_, ?_⟩
  · rintro ⟨h, _⟩
    omega
  · rw [hnone]
    simp

/-- **A crash between the two renames strands the item.**  Killed after three writes, the failure branch
    leaves the item in `failed/`, and so does the later pass. -/
theorem failure_branch_strands :
    ¬ ∀ (site : Site) (d : Disk) (n : ℕ) (result : ReapResult) (fs' : List CrashProg.Fault) (d₂ : Disk),
      Tidy d → site.Ready d → site.Crashes d n →
      reapLeases sampleEnv (fun _ => false) 1780000100000001 "reaper" [] (cutAfter n site.prog d)
        = (.done result, fs', d₂) →
      Recovered (leaseLost sampleEnv (fun _ => false) 1780000100000001) d
        (cutAfter n site.prog d) d₂ := by
  intro hall
  have hrun : isRaised (cutRun 3 failureSite.prog startedQueue.disk).1 = false ∧
      (passResult (cutAfter 3 failureSite.prog startedQueue.disk)).isSome = true ∧
      (∃ it ∈ items (laterPass (cutAfter 3 failureSite.prog startedQueue.disk)).2.2,
        it.state = .failed) ∧
      ∀ it₀ ∈ items startedQueue.disk, it₀.state ≠ .failed := by decide +kernel
  obtain ⟨hcrash, hdone, ⟨it, hit, hfailed⟩, hnone⟩ := hrun
  obtain ⟨result, hpass⟩ := laterPass_done hdone
  have hrecovered := hall failureSite startedQueue.disk 3 result _ _ startedQueue_tidy
    failureSite_ready (crashes_of_not_raised hcrash) hpass
  refine hrecovered.2 it hit (Or.inr ⟨hfailed, ?_⟩)
  rintro ⟨it₀, hit₀, _, hfailed₀⟩
  exact hnone it₀ hit₀ hfailed₀

end Serve

end Kstrl
