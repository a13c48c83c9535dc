import Kstrl.Events.Reducer

/-!
# The stamps of the components

`ComponentState.last_event_ts` over the events that `apply` folds, with any times in any order.  Liveness and the
search for stuck runs read it.

* **`apply_kept_iff`**: one event keeps every stamp, unless it is a contract result about a component whose stamp
  is later.
* **`stamps_kept_iff`**: over a run, no stamp ever falls exactly when no such event is in it.
* `contract_result_falls_back` is a run of two events in which a stamp falls.
-/

namespace Kstrl

namespace Events

open Rows

section Stamps

variable {K : Type} [Zero K]

/-- The stamp of a component that has a row. -/
def stamp? (state : RunState K) (id : String) : Option ℚ :=
  (state.components.find? fun comp => comp.componentId = id).map (·.lastEventTs)

/-- No component's stamp is lower afterwards. -/
def Kept (before after : RunState K) : Prop :=
  ∀ id t, stamp? before id = some t → ∃ t', stamp? after id = some t' ∧ t ≤ t'

/-- A contract result that names a component whose stamp is later than the event. -/
def Late (state : RunState K) (event : Event K) : Prop :=
  ∃ tier passed breaker t, event.kind = .contractResult tier passed (some breaker) ∧ breaker ≠ "" ∧
    event.ts ≠ 0 ∧ stamp? state breaker = some t ∧ event.ts < t

/-- Between any two moments of a run, no stamp falls. -/
def NeverDecreases [Add K] (state : RunState K) (events : List (Event K)) : Prop :=
  ∀ before middle after, events = before ++ middle ++ after →
    Kept (before.foldl apply state) ((before ++ middle).foldl apply state)

/-! ## Rows -/

variable {state other : RunState K} {event : Event K} {id : String} {f : ComponentState K → ComponentState K}

@[refl] lemma Kept.refl (state : RunState K) : Kept state state := fun _ t h => ⟨t, h, le_rfl⟩

lemma Kept.trans {third : RunState K} (h : Kept state other) (h' : Kept other third) : Kept state third := by
  intro id t ht
  obtain ⟨t', ht', hle⟩ := h id t ht
  obtain ⟨t'', ht'', hle'⟩ := h' id t' ht'
  exact ⟨t'', ht'', hle.trans hle'⟩

/-- A stamp is a matter of the rows alone. -/
lemma stamp?_congr (h : other.components = state.components) : stamp? other = stamp? state := by
  funext id
  rw [stamp?, h, stamp?]

lemma kept_of_components (h : other.components = state.components) : Kept state other := by
  intro id t ht
  exact ⟨t, by rwa [stamp?_congr h], le_rfl⟩

/-- A touch changes the stamp of its own component only. -/
lemma stamp?_touch (hkey : ∀ comp, (f comp).componentId = comp.componentId) (id' : String) :
    stamp? (state.touch id f) id' =
      if id' = id then
        some (f ((state.components.find? fun comp => comp.componentId = id).getD (freshRow id))).lastEventTs
      else stamp? state id' := by
  have hrow := @find?_touch _ _ _ _ freshRow id f state.components hkey rfl id'
  rw [stamp?, RunState.touch, hrow]
  split_ifs <;> rfl

/-- A touch that raises the stamp it finds keeps every stamp. -/
lemma kept_touch (hkey : ∀ comp, (f comp).componentId = comp.componentId)
    (hstamp : ∀ comp, comp.lastEventTs ≤ (f comp).lastEventTs) : Kept state (state.touch id f) := by
  intro id' t ht
  rw [stamp?_touch hkey]
  split_ifs with hid
  · refine ⟨_, rfl, ?_⟩
    rw [hid, stamp?, Option.map_eq_some_iff] at ht
    obtain ⟨comp, hcomp, rfl⟩ := ht
    rw [hcomp]
    exact hstamp comp
  · exact ⟨t, ht, le_rfl⟩

/-! ## One event -/

@[simp] lemma noteErrorLog_components : (noteErrorLog state event).components = state.components := by
  rw [noteErrorLog]
  split <;> rfl

@[simp] lemma noteEvent_components : (noteEvent state event).components = state.components := by
  rw [noteEvent, noteErrorLog_components]
  simp only [noteRunIdentity]
  split_ifs <;> rfl

lemma planEntry_kept (entry : Json) : Kept state (planEntry state entry) := by
  rw [planEntry]
  split
  · split_ifs
    · rfl
    · exact kept_touch (fun _ => rfl) fun _ => le_rfl
  · rfl

lemma foldl_planEntry_kept (entries : List Json) : Kept state (entries.foldl planEntry state) := by
  induction entries generalizing state with
  | nil => rfl
  | cons entry rest ih => exact (planEntry_kept entry).trans ih

/-- A contract result takes its own time, whatever the row has. -/
lemma blame_kept_iff {breaker : String} {tier : ℤ} {passed : Bool} :
    Kept state (state.touch breaker (blameRow event tier passed)) ↔
      ∀ t, event.ts ≠ 0 → stamp? state breaker = some t → t ≤ event.ts := by
  have hkey : ∀ comp, (blameRow event tier passed comp).componentId = comp.componentId := fun _ => rfl
  constructor
  · intro h t hts ht
    obtain ⟨t', ht', hle⟩ := h breaker t ht
    rw [stamp?_touch hkey, if_pos rfl] at ht'
    have hstamp : event.ts = t' := by simpa [blameRow, hts] using ht'
    exact hstamp ▸ hle
  · intro h
    by_cases hts : event.ts = 0
    · exact kept_touch hkey fun comp => by simp [blameRow, hts]
    · intro id' t ht
      rw [stamp?_touch hkey]
      split_ifs with hid
      · refine ⟨_, rfl, ?_⟩
        rw [blameRow, if_neg hts]
        exact h t hts (hid ▸ ht)
      · exact ⟨t, ht, le_rfl⟩

variable [Add K]

@[simp] lemma countUsage_components (kind : EventKind K) :
    (countUsage state kind).components = state.components := by
  cases kind <;> rfl

/-- What an event does to the row of the component it names. -/
lemma row_stamp (event : Event K) (comp : ComponentState K) :
    (foldGateDetail (moveRow event (markRow event comp)) event.kind).componentId = comp.componentId ∧
      (foldGateDetail (moveRow event (markRow event comp)) event.kind).lastEventTs =
        if event.ts = 0 then comp.lastEventTs else max comp.lastEventTs event.ts := by
  have hgate : ∀ (row : ComponentState K) (kind : EventKind K),
      (foldGateDetail row kind).componentId = row.componentId ∧
        (foldGateDetail row kind).lastEventTs = row.lastEventTs := by
    intro row kind
    simp only [foldGateDetail]
    split
    · exact ⟨rfl, rfl⟩
    · split
      · exact ⟨rfl, rfl⟩
      · split_ifs <;> exact ⟨rfl, rfl⟩
    · exact ⟨rfl, rfl⟩
  have hmove : ∀ row : ComponentState K, (moveRow event row).componentId = row.componentId ∧
      (moveRow event row).lastEventTs = row.lastEventTs := by
    intro row
    rw [moveRow]
    split <;> first | exact ⟨rfl, rfl⟩ | (split_ifs <;> exact ⟨rfl, rfl⟩)
  rw [(hgate _ _).1, (hgate _ _).2, (hmove _).1, (hmove _).2]
  exact ⟨rfl, rfl⟩

/-- An event that names a component takes the later of the two times. -/
lemma applyComponent_kept : Kept state (applyComponent state event) := by
  refine (kept_of_components (countUsage_components event.kind)).trans ?_
  refine kept_touch (fun comp => (row_stamp event comp).1) fun comp => ?_
  rw [(row_stamp event comp).2]
  split_ifs
  · exact le_rfl
  · exact le_max_left _ _

/-- Of the known events, only a contract result about a component can lower a stamp. -/
lemma applyKnown_kept (h : ∀ tier passed breaker, event.kind = .contractResult tier passed (some breaker) →
    breaker = "") : Kept state (applyKnown state event) := by
  rw [applyKnown]
  split
  · exact kept_of_components rfl
  · exact kept_of_components rfl
  · refine Kept.trans ?_ (foldl_planEntry_kept _)
    exact kept_of_components rfl
  · rename_i tier passed breaker hkind
    split_ifs with hnone
    · rfl
    · cases breaker with
      | none => exact absurd rfl hnone
      | some breaker => exact absurd (h tier passed breaker hkind) hnone
  · exact kept_of_components rfl
  · exact kept_of_components rfl
  · exact kept_of_components rfl
  · split_ifs
    · rfl
    · exact applyComponent_kept

/-- **One event**: every stamp is kept, unless it is a contract result about a component with a later one. -/
theorem apply_kept_iff : Kept state (apply state event) ↔ ¬ Late state event := by
  by_cases hblame : ∃ tier passed breaker, event.kind = .contractResult tier passed (some breaker) ∧ breaker ≠ ""
  · obtain ⟨tier, passed, breaker, hkind, hnamed⟩ := hblame
    have hstep : apply state event = (noteEvent state event).touch breaker (blameRow event tier passed) := by
      simp only [apply, applyKnown, hkind, Option.getD_some, if_neg hnamed]
    have hnote : stamp? (noteEvent state event) = stamp? state := stamp?_congr noteEvent_components
    have hsame : Kept state (apply state event) ↔ Kept (noteEvent state event) (apply state event) := by
      simp only [Kept, hnote]
    rw [hsame, hstep, blame_kept_iff, hnote]
    constructor
    · rintro h ⟨tier', passed', breaker', t, hkind', -, hts, ht, hlt⟩
      obtain ⟨-, -, hbreaker⟩ : tier = tier' ∧ passed = passed' ∧ breaker = breaker' := by
        simpa [hkind] using hkind'
      exact absurd (h t hts (hbreaker ▸ ht)) (not_le.mpr hlt)
    · intro h t hts ht
      by_contra hle
      exact h ⟨tier, passed, breaker, t, hkind, hnamed, hts, ht, not_le.mp hle⟩
  · refine iff_of_true ?_ ?_
    · rw [apply]
      split
      · exact kept_of_components rfl
      · refine (kept_of_components noteEvent_components).trans (applyKnown_kept ?_)
        intro tier passed breaker hkind
        by_contra hnamed
        exact hblame ⟨tier, passed, breaker, hkind, hnamed⟩
    · rintro ⟨tier, passed, breaker, t, hkind, hnamed, -⟩
      exact hblame ⟨tier, passed, breaker, hkind, hnamed⟩

/-! ## A run -/

/-- If no event of a stretch is late, its end keeps the stamps of its start. -/
lemma foldl_kept {events : List (Event K)}
    (h : ∀ before event after, events = before ++ event :: after → ¬ Late (before.foldl apply state) event) :
    Kept state (events.foldl apply state) := by
  induction events generalizing state with
  | nil => rfl
  | cons event rest ih =>
      rw [List.foldl_cons]
      refine (apply_kept_iff.mpr (h [] event rest rfl)).trans (ih ?_)
      intro before event' after hrest
      exact h (event :: before) event' after (by rw [hrest, List.cons_append])

/-- The stamps never fall in a run exactly when none of its contract results is late, whatever the times. -/
theorem stamps_kept_iff (state : RunState K) (events : List (Event K)) :
    NeverDecreases state events ↔
      ∀ before event after, events = before ++ event :: after → ¬ Late (before.foldl apply state) event := by
  constructor
  · intro h before event after hevents
    have hone := h before [event] after (by simpa using hevents)
    rw [List.foldl_append, List.foldl_cons, List.foldl_nil] at hone
    exact apply_kept_iff.mp hone
  · intro h before middle after hevents
    rw [List.foldl_append]
    refine foldl_kept fun before' event after' hmiddle => ?_
    have hlate := h (before ++ before') event (after' ++ after) (by simp [hevents, hmiddle])
    rwa [List.foldl_append] at hlate

end Stamps

/-- A component starts at 10, and a contract result written at 5 blames it. -/
def blamedEarlier : List (Event ℚ) :=
  [{ kind := .componentStarted, ts := 10, component := "a" },
   { kind := .contractResult 1 false (some "a"), ts := 5 }]

/-- Its stamp falls from 10 to 5. -/
theorem contract_result_falls_back :
    stamp? ((blamedEarlier.take 1).foldl apply {}) "a" = some 10 ∧
      stamp? (blamedEarlier.foldl apply {}) "a" = some 5 ∧ ¬ NeverDecreases {} blamedEarlier := by
  have hbefore : stamp? ((blamedEarlier.take 1).foldl apply {}) "a" = some 10 := by decide +kernel
  have hafter : stamp? (blamedEarlier.foldl apply {}) "a" = some 5 := by decide +kernel
  refine ⟨hbefore, hafter, ?_⟩
  intro h
  obtain ⟨t, ht, hle⟩ := h (blamedEarlier.take 1) (blamedEarlier.drop 1) [] rfl "a" 10 hbefore
  have ht' : stamp? (blamedEarlier.foldl apply {}) "a" = some t := ht
  rw [hafter, Option.some_inj] at ht'
  rw [← ht'] at hle
  exact absurd hle (by norm_num)

end Events

end Kstrl
