import Kstrl.Base.Search
import Kstrl.Plan.ManifestGraph
import Mathlib.Order.Bounds.Basic

/-!
# Skipping and retrying the dependents of a component

`cascade_skip` and `reset_for_retry` of `kstrl/plan/manifest.py` against the graph of the manifest.

* **`cascadeSkip_covers_iff`**: the skip leaves no pending dependent exactly where every one has a chain of
  dependencies that passes no component that is completed or was skipped before.
* **`resetForRetry_spec`**: a retry takes the failed component back with the largest set of skipped dependents that
  can run after it, and refuses everything else.
-/

namespace Kstrl

namespace Manifest

open Worklist

variable {m : Manifest}

/-! ## The dependents of a component -/

lemma mem_dependents {a b : String} : b ∈ m.dependents a ↔ a ∈ m.ids ∧ m.DependsOn b a := by
  unfold dependents
  by_cases ha : a ∈ m.ids
  · rw [if_pos ha, and_iff_right ha, List.mem_flatMap]
    simp only [List.mem_map, List.mem_filter, decide_eq_true_eq, DependsOn]
    constructor
    · rintro ⟨c, hc, d, ⟨hd, rfl⟩, rfl⟩
      exact ⟨c, hc, rfl, hd⟩
    · rintro ⟨c, hc, rfl, ha⟩
      exact ⟨c, hc, a, ⟨ha, rfl⟩, rfl⟩
  · rw [if_neg ha]
    exact iff_of_false List.not_mem_nil fun h => ha h.1

lemma mem_ids_of_mem_dependents (a : String) : ∀ b ∈ m.dependents a, b ∈ m.ids := fun b hb => by
  obtain ⟨c, hc, rfl, -⟩ := (mem_dependents.mp hb).2
  exact List.mem_map_of_mem hc

lemma ids_length_lt : m.ids.length < m.components.length + 1 := by
  rw [ids, List.length_map]
  exact Nat.lt_succ_self _

/-- One node of `_transitive_dependents`, as a search that goes through everything. -/
lemma dependentsVisit_eq (s : Search.State String) (hs : s.visited = s.found) (a : String) :
    (Search.visit m.dependents (fun _ => true) s a).1.visited = (Search.visit m.dependents (fun _ => true) s a).1.found ∧
      m.dependentsVisit s.found a = ((Search.visit m.dependents (fun _ => true) s a).1.found,
        (Search.visit m.dependents (fun _ => true) s a).2) := by
  have hfold : ∀ (bs out : List String) (s : Search.State String), s.visited = s.found →
      (bs.foldl (Search.neighbor fun _ => true) (s, out)).1.visited
          = (bs.foldl (Search.neighbor fun _ => true) (s, out)).1.found ∧
        bs.foldl (fun acc dependentId =>
            if dependentId ∈ acc.1 then acc else (acc.1 ++ [dependentId], acc.2 ++ [dependentId])) (s.found, out)
          = ((bs.foldl (Search.neighbor fun _ => true) (s, out)).1.found,
            (bs.foldl (Search.neighbor fun _ => true) (s, out)).2) := by
    intro bs
    induction bs with
    | nil => exact fun out s hs => ⟨hs, rfl⟩
    | cons b bs ih =>
        intro out s hs
        rw [List.foldl_cons, List.foldl_cons, Search.neighbor, hs]
        by_cases hb : b ∈ s.found
        · rw [if_pos hb, if_pos hb]
          exact ih out s hs
        · rw [if_neg hb, if_neg hb, if_pos rfl]
          exact ih (out ++ [b]) ⟨s.found ++ [b], s.found ++ [b]⟩ rfl
  exact hfold (m.dependents a) [] s hs

/-- **`_transitive_dependents`** are those with a chain of dependencies down to the component. -/
lemma mem_transitiveDependents {x b : String} (hx : x ∈ m.ids) :
    b ∈ m.transitiveDependents x ↔ Relation.TransGen m.DependsOn b x := by
  have hsame : drain m.dependentsVisit (m.components.length + 1) [] [x]
      = ((Search.run m.dependents (fun _ => true) [] x (m.components.length + 1)).1.found,
        (Search.run m.dependents (fun _ => true) [] x (m.components.length + 1)).2) :=
    drain_map (f := Search.State.found) (I := fun s => s.visited = s.found)
      (fun s a hs => (dependentsVisit_eq s hs a).1) (fun s a hs => (dependentsVisit_eq s hs a).2) _ (s := ⟨[], []⟩) rfl [x]
  rw [transitiveDependents, hsame, Search.mem_found_iff mem_ids_of_mem_dependents ids_length_lt]
  constructor
  · intro path
    induction path with
    | first edge => exact .single (mem_dependents.mp edge).2
    | later _ edge _ _ ih => exact .head (mem_dependents.mp edge).2 ih
  · intro path
    induction path using Relation.TransGen.head_induction_on with
    | single edge => exact .first (mem_dependents.mpr ⟨hx, edge⟩) List.not_mem_nil rfl
    | head edge rest ih =>
        obtain ⟨_, ⟨c, hc, hid, -⟩, -⟩ := Relation.TransGen.head'_iff.mp rest
        exact .later ih (mem_dependents.mpr ⟨hid ▸ List.mem_map_of_mem hc, edge⟩) List.not_mem_nil rfl

/-! ## Changing the components of a list of ids -/

lemma getComponent_updateAll {f : Component → Component} (hf : ∀ c, (f c).id = c.id) (componentIds : List String)
    (a : String) :
    (m.updateAll componentIds f).getComponent a
      = (m.getComponent a).map fun c => if c.id ∈ componentIds then f c else c := by
  unfold getComponent updateAll
  rw [List.find?_map]
  congr 2
  funext c
  show decide ((if c.id ∈ componentIds then f c else c).id = a) = _
  rw [apply_ite Component.id, hf, ite_self]

lemma update_updateAll {f : Component → Component} (hf : ∀ c, (f c).id = c.id) {componentIds : List String} {b : String}
    (hb : b ∉ componentIds) : (m.updateAll componentIds f).update b f = m.updateAll (componentIds ++ [b]) f := by
  unfold update updateAll
  congr 1
  dsimp only
  rw [List.map_map]
  refine List.map_congr_left fun c _ => ?_
  show (if (if c.id ∈ componentIds then f c else c).id = b then _ else _) = _
  rw [apply_ite Component.id, hf, ite_self]
  by_cases hc : c.id ∈ componentIds
  · have hne : c.id ≠ b := fun hsame => hb (hsame ▸ hc)
    rw [if_pos hc, if_neg hne, if_pos (List.mem_append_left _ hc)]
  · simp only [hc, if_false, List.mem_append, List.mem_singleton, false_or]

lemma dependsOn_updateAll {f : Component → Component} (hid : ∀ c, (f c).id = c.id)
    (hdeps : ∀ c, (f c).dependencies = c.dependencies) (componentIds : List String) :
    (m.updateAll componentIds f).DependsOn = m.DependsOn := by
  funext a b
  refine propext ⟨?_, ?_⟩
  · rintro ⟨_, hmem, hida, hb⟩
    obtain ⟨c, hc, rfl⟩ := List.mem_map.mp hmem
    rw [apply_ite Component.id, hid, ite_self] at hida
    rw [apply_ite Component.dependencies, hdeps, ite_self] at hb
    exact ⟨c, hc, hida, hb⟩
  · rintro ⟨c, hc, hida, hb⟩
    refine ⟨_, List.mem_map_of_mem hc, ?_, ?_⟩
    · rw [apply_ite Component.id, hid, ite_self]
      exact hida
    · rw [apply_ite Component.dependencies, hdeps, ite_self]
      exact hb

/-! ## Skipping -/

/-- A component that `cascade_skip` skips when it reaches it, and goes on through. -/
def isOpen (m : Manifest) (componentId : String) : Bool :=
  (m.getComponent componentId).any fun c => c.status ∉ [ComponentStatus.completed, .skipped]

/-- An open component names `b` as a dependency. -/
def OpenDependsOn (m : Manifest) (a b : String) : Prop := m.DependsOn a b ∧ m.isOpen a = true

/-- The state of the cascade, from that of a search. -/
def cascadeOf (m : Manifest) (failedId now : String) (s : Search.State String) : Cascade :=
  ⟨m.updateAll s.found (skip failedId now), s.visited, s.found⟩

/-- One node of `cascade_skip`, as a search through the open components. -/
lemma cascadeVisit_eq (failedId now : String) (s : Search.State String) (hs : ∀ b ∈ s.found, b ∈ s.visited) (a : String) :
    (∀ b ∈ (Search.visit m.dependents m.isOpen s a).1.found, b ∈ (Search.visit m.dependents m.isOpen s a).1.visited) ∧
      m.cascadeVisit failedId now (m.cascadeOf failedId now s) a
        = (m.cascadeOf failedId now (Search.visit m.dependents m.isOpen s a).1,
          (Search.visit m.dependents m.isOpen s a).2) := by
  unfold cascadeVisit Search.visit
  generalize m.dependents a = bs
  generalize [] = out
  induction bs generalizing s out with
  | nil => exact ⟨hs, rfl⟩
  | cons b bs ih =>
      rw [List.foldl_cons, List.foldl_cons]
      have hone : cascadeDependent failedId now (m.cascadeOf failedId now s, out) b
          = (m.cascadeOf failedId now (Search.neighbor m.isOpen (s, out) b).1,
            (Search.neighbor m.isOpen (s, out) b).2) := by
        rw [cascadeDependent, Search.neighbor]
        by_cases hb : b ∈ s.visited
        · rw [if_pos hb]
          exact if_pos hb
        · have hfound : b ∉ s.found := fun h => hb (hs b h)
          rw [if_neg hb]
          refine (if_neg hb).trans ?_
          simp only [cascadeOf, getComponent_updateAll (f := skip failedId now) fun _ => rfl, isOpen]
          obtain hget | ⟨c, hget⟩ := Option.eq_none_or_eq_some (m.getComponent b)
          · simp only [hget]
            rfl
          · have hid : c.id = b := by simpa using List.find?_some hget
            simp only [hget, Option.map_some, hid, if_neg hfound, Option.any_some, decide_eq_true_eq]
            by_cases hopen : c.status ∉ [ComponentStatus.completed, .skipped]
            · rw [if_pos hopen, if_pos hopen, update_updateAll (f := skip failedId now) (fun _ => rfl) hfound]
            · rw [if_neg hopen, if_neg hopen]
      rw [hone]
      exact ih _ (Search.neighbor_subset (s, out) hs b) _

/-- The cascade, as a search through the open components. -/
lemma cascadeRun_eq (x now : String) : m.cascadeRun x now =
    (m.cascadeOf x now (Search.run m.dependents m.isOpen [x] x (m.components.length + 1)).1,
      (Search.run m.dependents m.isOpen [x] x (m.components.length + 1)).2) := by
  have hinit : m.cascadeOf x now ⟨[x], []⟩ = { manifest := m, visited := [x], skipped := [] } := by
    have hsame : m.updateAll [] (skip x now) = m := by simp [updateAll]
    rw [cascadeOf, hsame]
  rw [cascadeRun, ← hinit]
  exact drain_map (I := fun s => ∀ b ∈ s.found, b ∈ s.visited) (fun s a hs => (cascadeVisit_eq x now s hs a).1)
    (fun s a hs => (cascadeVisit_eq x now s hs a).2) _ (by simp) [x]

/-- What `cascade_skip` does: it skips the components its search found. -/
lemma cascadeSkip_eq (x now : String) :
    m.cascadeSkip x now = (m.updateAll (m.cascadeSkip x now).2 (skip x now), (m.cascadeSkip x now).2) ∧
      ∀ b, b ∈ (m.cascadeSkip x now).2 ↔ Search.Reach m.dependents m.isOpen [x] x b := by
  rw [cascadeSkip, cascadeRun_eq]
  exact ⟨rfl, fun b => Search.mem_found_iff mem_ids_of_mem_dependents ids_length_lt⟩

/-- No component is skipped twice. -/
lemma cascadeSkip_nodup (x now : String) : (m.cascadeSkip x now).2.Nodup := by
  rw [cascadeSkip, cascadeRun_eq]
  exact Search.found_nodup [x] x _

/-- The components skipped are those with a chain of open dependencies down to the one that failed. -/
lemma mem_cascadeSkip {x now b : String} (hx : x ∈ m.ids) :
    b ∈ (m.cascadeSkip x now).2 ↔ b ≠ x ∧ Relation.TransGen m.OpenDependsOn b x := by
  rw [(cascadeSkip_eq x now).2]
  constructor
  · intro path
    induction path with
    | first edge hopen hpasses => exact ⟨by simpa using hopen, .single ⟨(mem_dependents.mp edge).2, hpasses⟩⟩
    | later _ edge hopen hpasses ih =>
        exact ⟨by simpa using hopen, .head ⟨(mem_dependents.mp edge).2, hpasses⟩ ih.2⟩
  · rintro ⟨hne, path⟩
    induction path using Relation.TransGen.head_induction_on with
    | single edge => exact .first (mem_dependents.mpr ⟨hx, edge.1⟩) (by simpa using hne) edge.2
    | @head b c edge rest ih =>
        by_cases hc : c = x
        · rw [hc] at edge
          exact .first (mem_dependents.mpr ⟨hx, edge.1⟩) (by simpa using hne) edge.2
        · obtain ⟨_, ⟨⟨d, hd, hid, -⟩, -⟩, -⟩ := Relation.TransGen.head'_iff.mp rest
          exact .later (ih hc) (mem_dependents.mpr ⟨hid ▸ List.mem_map_of_mem hd, edge.1⟩) (by simpa using hne) edge.2

/-- **What the skip of the dependents leaves.**  No component that depends on the failed one stays pending, and none
that does not is touched, exactly where every pending dependent has a chain of dependencies down to the failed
component in which none is completed or was skipped before. -/
theorem cascadeSkip_covers_iff (hn : m.ids.Nodup) {x : String} {failed : Component} (hx : m.getComponent x = some failed)
    (hfailed : failed.status = .failed) (now : String) :
    ((∀ d ∈ (m.cascadeSkip x now).1.components, d.status = .pending →
          ¬ Relation.TransGen (m.cascadeSkip x now).1.DependsOn d.id x) ∧
        ∀ c ∈ m.components, ¬ Relation.TransGen m.DependsOn c.id x → (m.cascadeSkip x now).1.getComponent c.id = some c) ↔
      ∀ z ∈ m.components, z.status = .pending → Relation.TransGen m.DependsOn z.id x →
        Relation.TransGen m.OpenDependsOn z.id x := by
  have hfailedmem : failed ∈ m.components := List.mem_of_find?_eq_some hx
  have hid : failed.id = x := by simpa using List.find?_some hx
  have hmem : x ∈ m.ids := hid ▸ List.mem_map_of_mem hfailedmem
  have hresult : (m.cascadeSkip x now).1 = m.updateAll (m.cascadeSkip x now).2 (skip x now) :=
    congrArg Prod.fst (cascadeSkip_eq x now).1
  have hskipped := fun b => @mem_cascadeSkip m x now b hmem
  rw [hresult, dependsOn_updateAll (f := skip x now) (fun _ => rfl) fun _ => rfl]
  constructor
  · rintro ⟨hpending, -⟩ z hz hzpending hdepends
    by_contra hclosed
    have hout : z.id ∉ (m.cascadeSkip x now).2 := fun h => hclosed ((hskipped z.id).mp h).2
    exact hpending z (List.mem_map.mpr ⟨z, hz, if_neg hout⟩) hzpending hdepends
  · refine fun hchain => ⟨fun d hd hdpending hdepends => ?_, fun c hc hfree => ?_⟩
    · obtain ⟨z, hz, rfl⟩ := List.mem_map.mp hd
      by_cases hin : z.id ∈ (m.cascadeSkip x now).2
      · rw [if_pos hin] at hdpending
        cases hdpending
      · rw [if_neg hin] at hdpending hdepends
        refine hin ((hskipped z.id).mpr ⟨fun hsame => ?_, hchain z hz hdpending hdepends⟩)
        rw [List.inj_on_of_nodup_map hn hz hfailedmem (hsame.trans hid.symm), hfailed] at hdpending
        cases hdpending
    · have hout : c.id ∉ (m.cascadeSkip x now).2 := fun h =>
        hfree (Relation.TransGen.mono (fun _ _ edge => edge.1) _ _ ((hskipped c.id).mp h).2)
      rw [getComponent_updateAll (f := skip x now) fun _ => rfl, getComponent_id hn hc, Option.map_some, if_neg hout]

/-- A failed component with one that waits for it and was skipped, and one behind that. -/
def chainBehind (status : ComponentStatus) : Manifest where
  components := [{ id := "x", status := .failed }, { id := "y", dependencies := ["x"], status },
    { id := "z", dependencies := ["y"] }]

theorem cascadeSkip_covers_chain :
    (∀ d ∈ ((chainBehind .pending).cascadeSkip "x" "now").1.components, d.status = .pending →
        ¬ Relation.TransGen ((chainBehind .pending).cascadeSkip "x" "now").1.DependsOn d.id "x") ∧
      ∀ c ∈ (chainBehind .pending).components, ¬ Relation.TransGen (chainBehind .pending).DependsOn c.id "x" →
        ((chainBehind .pending).cascadeSkip "x" "now").1.getComponent c.id = some c := by
  have hy : (chainBehind .pending).OpenDependsOn "y" "x" :=
    ⟨⟨{ id := "y", dependencies := ["x"] }, by decide, rfl, by decide⟩, by decide⟩
  have hz : (chainBehind .pending).OpenDependsOn "z" "y" :=
    ⟨⟨{ id := "z", dependencies := ["y"] }, by decide, rfl, by decide⟩, by decide⟩
  refine (cascadeSkip_covers_iff (by decide) rfl rfl "now").mpr fun z hmem hpending _ => ?_
  rcases List.mem_cons.mp hmem with rfl | hmem
  · cases hpending
  rcases List.mem_cons.mp hmem with rfl | hmem
  · exact .single hy
  rw [List.mem_singleton.mp hmem]
  exact .head hz (.single hy)

/-- Behind a component that was skipped before, the one that waits for it stays pending. -/
theorem cascadeSkip_stops :
    ∃ d ∈ ((chainBehind .skipped).cascadeSkip "x" "now").1.components, d.status = .pending ∧
      Relation.TransGen ((chainBehind .skipped).cascadeSkip "x" "now").1.DependsOn d.id "x" := by
  have hresult : ((chainBehind .skipped).cascadeSkip "x" "now").1 = chainBehind .skipped := by decide
  rw [hresult]
  refine ⟨{ id := "z", dependencies := ["y"] }, by decide, rfl, ?_⟩
  refine .head ⟨{ id := "z", dependencies := ["y"] }, by decide, rfl, List.mem_cons_self⟩ (.single ?_)
  exact ⟨{ id := "y", dependencies := ["x"], status := .skipped }, by decide, rfl, List.mem_cons_self⟩

/-! ## Retrying -/

/-- `reset_for_retry` on the manifest itself: what it returns or raises, and the manifest after it. -/
def resetForRetryInPlace (m : Manifest) (componentId : String) : Manifest × Except String (List String) :=
  match m.getComponent componentId with
  | none => (m, .error ("Unknown component '" ++ componentId ++ "'"))
  | some comp =>
      if comp.status ≠ .failed then
        (m, .error ("Component '" ++ componentId ++ "' is '" ++ comp.status.value ++ "', not '" ++
          ComponentStatus.failed.value ++ "'; only failed components can be retried"))
      else
        match m.topologicalOrder with
        | .error error => (m, .error error)
        | .ok order =>
            let resetIds := order.foldl (m.resetStep (m.transitiveDependents componentId)) [componentId]
            (resetIds.foldl (fun m cid => m.update cid reset) m, .ok resetIds.tail)

/-- The loop that resets one component after the other. -/
lemma foldl_update_reset (componentIds : List String) :
    componentIds.foldl (fun m cid => m.update cid reset) m = m.updateAll componentIds reset := by
  induction componentIds generalizing m with
  | nil => simp [updateAll]
  | cons a rest ih =>
      rw [List.foldl_cons, ih, updateAll, updateAll, update]
      congr 1
      dsimp only
      rw [List.map_map]
      refine List.map_congr_left fun c _ => ?_
      show (if (if c.id = a then reset c else c).id ∈ rest then reset (if c.id = a then reset c else c) else
        if c.id = a then reset c else c) = _
      have hid : (if c.id = a then reset c else c).id = c.id := by
        rw [apply_ite Component.id]
        exact ite_self _
      rw [hid]
      by_cases ha : c.id = a
      · rw [if_pos ha, if_pos (ha ▸ List.mem_cons_self : c.id ∈ a :: rest)]
        exact ite_self _
      · simp only [ha, if_false, List.mem_cons, false_or]

/-- Every write stands behind the last refusal. -/
lemma resetForRetryInPlace_eq (m : Manifest) (componentId : String) :
    m.resetForRetryInPlace componentId
      = match m.resetForRetry componentId with
        | .error error => (m, .error error)
        | .ok (m', dependents) => (m', .ok dependents) := by
  rw [resetForRetryInPlace, resetForRetry]
  cases m.getComponent componentId with
  | none => rfl
  | some comp =>
      dsimp only
      by_cases hfailed : comp.status ≠ .failed
      · rw [if_pos hfailed, if_pos hfailed]
      · rw [if_neg hfailed, if_neg hfailed]
        cases m.topologicalOrder with
        | error error => rfl
        | ok order => exact Prod.ext (foldl_update_reset _) rfl

/-- Components that can be taken back together with `componentId`: skipped dependents of it, each with nothing but
runnable components below, or components that are taken back too. -/
def Resettable (m : Manifest) (componentId : String) (S : Set String) : Prop :=
  ∀ z ∈ S, Relation.TransGen m.DependsOn z componentId ∧ ∃ c, m.getComponent z = some c ∧ c.status = .skipped ∧
    ∀ dep ∈ c.dependencies, dep = componentId ∨ dep ∈ S ∨ ∃ d, m.getComponent dep = some d ∧ d.status ∈ runnable

/-- What a reset keeps of a component. -/
structure SameWork (old new : Component) : Prop where
  id : new.id = old.id
  title : new.title = old.title
  description : new.description = old.description
  dependencies : new.dependencies = old.dependencies
  prdPath : new.prdPath = old.prdPath
  branchName : new.branchName = old.branchName
  planId : new.planId = old.planId
  mergeSha : new.mergeSha = old.mergeSha
  judgedSha : new.judgedSha = old.judgedSha
  linearIssueId : new.linearIssueId = old.linearIssueId
  linearIssueIdentifier : new.linearIssueIdentifier = old.linearIssueIdentifier
  scaffold : new.scaffold = old.scaffold

/-- A component that a run has not touched yet. -/
def Fresh (c : Component) : Prop :=
  c = { id := c.id, title := c.title, description := c.description, dependencies := c.dependencies, prdPath := c.prdPath,
        branchName := c.branchName, planId := c.planId, mergeSha := c.mergeSha, judgedSha := c.judgedSha,
        linearIssueId := c.linearIssueId, linearIssueIdentifier := c.linearIssueIdentifier, scaffold := c.scaffold }

/-- The manifest after a reset of exactly these components. -/
structure ResetExactly (componentIds : List String) (m m' : Manifest) : Prop where
  others : m = { m' with components := m.components }
  ids : m'.ids = m.ids
  reset : ∀ z ∈ componentIds, ∀ c, m.getComponent z = some c → ∃ c', m'.getComponent z = some c' ∧ SameWork c c' ∧ Fresh c'
  kept : ∀ z, z ∉ componentIds → m'.getComponent z = m.getComponent z

lemma resetExactly_updateAll (componentIds : List String) : ResetExactly componentIds m (m.updateAll componentIds reset) where
  others := rfl
  ids := by
    show ((m.components.map _).map fun c : Component => c.id) = m.components.map fun c => c.id
    rw [List.map_map]
    refine List.map_congr_left fun c _ => ?_
    show (if c.id ∈ componentIds then reset c else c).id = c.id
    rw [apply_ite Component.id]
    exact ite_self _
  reset := fun z hz c hc => by
    have hid : c.id = z := by simpa using List.find?_some hc
    refine ⟨reset c, ?_, ⟨rfl, rfl, rfl, rfl, rfl, rfl, rfl, rfl, rfl, rfl, rfl, rfl⟩, rfl⟩
    rw [getComponent_updateAll (f := reset) fun _ => rfl, hc, Option.map_some, hid, if_pos hz]
  kept := fun z hz => by
    rw [getComponent_updateAll (f := reset) fun _ => rfl]
    cases hc : m.getComponent z with
    | none => rfl
    | some c =>
        have hid : c.id = z := by simpa using List.find?_some hc
        rw [Option.map_some, hid, if_neg hz]

/-- The largest set that can be taken back. -/
def resettable (m : Manifest) (componentId : String) : Set String := {z | ∃ S, m.Resettable componentId S ∧ z ∈ S}

lemma resettable_isGreatest (componentId : String) :
    IsGreatest {S | m.Resettable componentId S} (m.resettable componentId) := by
  refine ⟨?_, fun S hS z hz => ⟨S, hS, hz⟩⟩
  rintro z ⟨S, hS, hz⟩
  obtain ⟨hdepends, c, hc, hskipped, hdeps⟩ := hS z hz
  refine ⟨hdepends, c, hc, hskipped, fun dep hdep => ?_⟩
  exact (hdeps dep hdep).imp_right fun h => h.imp_left fun hin => ⟨S, hS, hin⟩

/-- One component in topological order: its dependencies stand before it. -/
lemma resetStep_spec {componentId z : String} (hmem : componentId ∈ m.ids) {before reset : List String}
    (hreset : ∀ b, b ∈ reset ↔ b ∈ before ∧ b ∈ m.resettable componentId) (hdeps : ∀ d, m.DependsOn z d → d ∈ before) :
    ∃ reset', m.resetStep (m.transitiveDependents componentId) (componentId :: reset) z = componentId :: reset' ∧
      ∀ b, b ∈ reset' ↔ b ∈ before ++ [z] ∧ b ∈ m.resettable componentId := by
  have hvalid := (m.resettable_isGreatest componentId).1
  by_cases hz : z ∈ m.resettable componentId
  · refine ⟨reset ++ [z], ?_, fun b => ?_⟩
    · obtain ⟨hdepends, c, hc, hskipped, hrun⟩ := hvalid z hz
      have hid : c.id = z := by simpa using List.find?_some hc
      have hwill : ∀ dep ∈ c.dependencies, m.willRun (componentId :: reset) dep := by
        intro dep hdep
        rcases hrun dep hdep with rfl | hin | ⟨d, hd, hrunnable⟩
        · exact Or.inl List.mem_cons_self
        · refine Or.inl (List.mem_cons_of_mem _ ((hreset dep).mpr ⟨hdeps dep ?_, hin⟩))
          exact ⟨c, List.mem_of_find?_eq_some hc, hid, hdep⟩
        · exact Or.inr ⟨d, hd, hrunnable⟩
      rw [resetStep, if_neg (not_not.mpr ((mem_transitiveDependents hmem).mpr hdepends)), hc]
      exact if_pos ⟨hskipped, hwill⟩
    · rw [List.mem_append, List.mem_append, hreset, List.mem_singleton, or_and_right]
      refine or_congr_right ⟨fun h => ⟨h, h ▸ hz⟩, fun h => h.1⟩
  · refine ⟨reset, ?_, fun b => ?_⟩
    · rw [resetStep]
      by_cases hdepends : z ∉ m.transitiveDependents componentId
      · exact if_pos hdepends
      rw [if_neg hdepends]
      rw [not_not, mem_transitiveDependents hmem] at hdepends
      cases hc : m.getComponent z with
      | none => rfl
      | some c =>
          refine if_neg ?_
          rintro ⟨hskipped, hwill⟩
          -- otherwise `z` could be taken back with all the others
          refine hz ⟨insert z (m.resettable componentId), ?_, Set.mem_insert z _⟩
          rintro y (rfl | hy)
          · refine ⟨hdepends, c, hc, hskipped, fun dep hdep => ?_⟩
            rcases hwill dep hdep with hin | hrunnable
            · rcases List.mem_cons.mp hin with hself | hin
              · exact Or.inl hself
              · exact Or.inr (Or.inl (Set.mem_insert_of_mem _ ((hreset dep).mp hin).2))
            · exact Or.inr (Or.inr hrunnable)
          · obtain ⟨hdepends, c, hc, hskipped, hrun⟩ := hvalid y hy
            refine ⟨hdepends, c, hc, hskipped, fun dep hdep => ?_⟩
            exact (hrun dep hdep).imp_right fun h => h.imp_left (Set.mem_insert_of_mem _)
    · rw [hreset, List.mem_append, List.mem_singleton, or_and_right]
      refine (or_iff_left ?_).symm
      rintro ⟨rfl, hin⟩
      exact hz hin

/-- A prefix of the topological order. -/
lemma foldl_resetStep {componentId : String} (hmem : componentId ∈ m.ids) {order : List String}
    (hbefore : ∀ l x r, order = l ++ x :: r → ∀ d, m.DependsOn x d → d ∈ l) (l r : List String) (hsplit : order = l ++ r) :
    ∃ reset, l.foldl (m.resetStep (m.transitiveDependents componentId)) [componentId] = componentId :: reset ∧
      ∀ b, b ∈ reset ↔ b ∈ l ∧ b ∈ m.resettable componentId := by
  induction l using List.reverseRecOn generalizing r with
  | nil => exact ⟨[], rfl, fun b => by simp⟩
  | append_singleton l z ih =>
      rw [List.append_assoc, List.singleton_append] at hsplit
      obtain ⟨reset, hfold, hreset⟩ := ih (z :: r) hsplit
      rw [List.foldl_append, hfold, List.foldl_cons, List.foldl_nil]
      exact resetStep_spec hmem hreset (hbefore l z r hsplit)

/-- What a retry needs of a component. -/
def Retryable (m : Manifest) (componentId : String) : Prop :=
  (∃ c, m.getComponent componentId = some c ∧ c.status = .failed) ∧ m.WellFormedGraph

lemma resetForRetry_ok {componentId : String} (h : m.Retryable componentId) :
    ∃ m' dependents, m.resetForRetry componentId = .ok (m', dependents) ∧
      IsGreatest {S | m.Resettable componentId S} {z | z ∈ dependents} ∧ ResetExactly (componentId :: dependents) m m' := by
  obtain ⟨⟨c, hc, hfailed⟩, hgraph⟩ := h
  have hmem : componentId ∈ m.ids := by
    have hid : c.id = componentId := by simpa using List.find?_some hc
    exact hid ▸ List.mem_map_of_mem (List.mem_of_find?_eq_some hc)
  obtain ⟨order, horder, hperm, hbefore⟩ := topologicalOrder_spec hgraph
  obtain ⟨reset, hfold, hreset⟩ := foldl_resetStep hmem hbefore order [] (List.append_nil order).symm
  have hset : {z | z ∈ reset} = m.resettable componentId := by
    ext z
    refine ⟨fun hz => ((hreset z).mp hz).2, fun hz => (hreset z).mpr ⟨?_, hz⟩⟩
    obtain ⟨-, d, hd, -⟩ := (m.resettable_isGreatest componentId).1 z hz
    have hid : d.id = z := by simpa using List.find?_some hd
    exact hperm.mem_iff.mpr (hid ▸ List.mem_map_of_mem (List.mem_of_find?_eq_some hd))
  refine ⟨m.updateAll (componentId :: reset) Manifest.reset, reset, ?_, ?_, resetExactly_updateAll _⟩
  · rw [resetForRetry, hc]
    refine (if_neg (not_not.mpr hfailed)).trans ?_
    rw [horder]
    show Except.ok _ = Except.ok _
    rw [hfold]
    rfl
  · rw [hset]
    exact m.resettable_isGreatest componentId

lemma resetForRetry_error {componentId : String} (h : ¬ m.Retryable componentId) :
    ∃ error, m.resetForRetry componentId = .error error := by
  rw [resetForRetry]
  cases hc : m.getComponent componentId with
  | none => exact ⟨_, rfl⟩
  | some c =>
      by_cases hfailed : c.status = .failed
      · have hinvalid : m.validateDag ≠ [] := fun hvalid => h ⟨⟨c, hc, hfailed⟩, validateDag_eq_nil.mp hvalid⟩
        obtain ⟨error, errors, hdag⟩ := List.exists_cons_of_ne_nil hinvalid
        refine ⟨error, (if_neg (not_not.mpr hfailed)).trans ?_⟩
        rw [topologicalOrder, hdag]
        rfl
      · exact ⟨_, if_pos hfailed⟩

/-- **What a retry does.**  It takes back the failed component and the largest set of skipped dependents that can run
after it, and nothing else; a component that is unknown or has not failed is refused, and so is a manifest that does
not validate, and then the manifest is what it was. -/
theorem resetForRetry_spec (m : Manifest) (componentId : String) :
    (m.Retryable componentId → ∃ m' dependents, m.resetForRetryInPlace componentId = (m', .ok dependents) ∧
        IsGreatest {S | m.Resettable componentId S} {z | z ∈ dependents} ∧
        ResetExactly (componentId :: dependents) m m') ∧
      (¬ m.Retryable componentId → ∃ error, m.resetForRetryInPlace componentId = (m, .error error)) := by
  rw [resetForRetryInPlace_eq]
  refine ⟨fun h => ?_, fun h => ?_⟩
  · obtain ⟨m', dependents, hreset, hrest⟩ := resetForRetry_ok h
    rw [hreset]
    exact ⟨m', dependents, rfl, hrest⟩
  · obtain ⟨error, hreset⟩ := resetForRetry_error h
    rw [hreset]
    exact ⟨error, rfl⟩

theorem resetForRetry_chain : ∃ m' dependents, (chainBehind .skipped).resetForRetryInPlace "x" = (m', .ok dependents) ∧
    IsGreatest {S | (chainBehind .skipped).Resettable "x" S} {z | z ∈ dependents} ∧
    ResetExactly ("x" :: dependents) (chainBehind .skipped) m' :=
  (resetForRetry_spec (chainBehind .skipped) "x").1 ⟨⟨_, rfl, rfl⟩, validateDag_eq_nil.mp (by decide)⟩

end Manifest

end Kstrl
