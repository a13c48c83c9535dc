import Kstrl.Plan.Manifest

/-!
# The graph of a manifest

`validate_dag`, `topological_order` and `compute_tiers` of `kstrl/plan/manifest.py` against the graph itself.

* **`graph_algorithms_agree`**: a manifest validates exactly where its ids are unique, its dependencies name
  components and none of these waits for itself; then the order has dependencies first, and the tier of a
  component is the length of the longest path below it.
-/

namespace Kstrl

namespace Manifest

variable {m : Manifest}

/-- A component with the id `a` names `b` as a dependency. -/
def DependsOn (m : Manifest) (a b : String) : Prop := ∃ c ∈ m.components, c.id = a ∧ b ∈ c.dependencies

/-- There is a path of so many dependencies below `a`. -/
inductive PathBelow (m : Manifest) : String → ℕ → Prop where
  | nil (a : String) : PathBelow m a 0
  | cons {a b : String} {n : ℕ} (hb : m.DependsOn a b) (path : PathBelow m b n) : PathBelow m a (n + 1)

/-- The longest path below `a` has `n` dependencies. -/
def LongestBelow (m : Manifest) (a : String) (n : ℕ) : Prop :=
  m.PathBelow a n ∧ ∀ k, m.PathBelow a k → k ≤ n

/-- Unique ids, known dependencies, no cycle. -/
structure WellFormedGraph (m : Manifest) : Prop where
  unique : m.ids.Nodup
  known : ∀ c ∈ m.components, ∀ dep ∈ c.dependencies, dep ∈ m.ids
  acyclic : ∀ a, ¬ Relation.TransGen m.DependsOn a a

/-! ## Duplicates and unknown ids -/

lemma duplicateErrors_eq_nil {seen ids : List String} :
    duplicateErrors seen ids = [] ↔ ids.Nodup ∧ ∀ x ∈ ids, x ∉ seen := by
  induction ids generalizing seen with
  | nil => simp [duplicateErrors]
  | cons x rest ih =>
      rw [duplicateErrors]
      by_cases hx : x ∈ seen
      · rw [if_pos hx]
        exact iff_of_false (List.cons_ne_nil _ _) fun h => h.2 x List.mem_cons_self hx
      · rw [if_neg hx, ih, List.nodup_cons]
        constructor
        · rintro ⟨hrest, hseen⟩
          refine ⟨⟨fun hmem => hseen x hmem List.mem_cons_self, hrest⟩, fun y hy => ?_⟩
          rcases List.mem_cons.mp hy with rfl | hy
          · exact hx
          · exact fun hmem => hseen y hy (List.mem_cons_of_mem _ hmem)
        · rintro ⟨⟨hfresh, hrest⟩, hseen⟩
          refine ⟨hrest, fun y hy hmem => ?_⟩
          rcases List.mem_cons.mp hmem with rfl | hmem
          · exact hfresh hy
          · exact hseen y (List.mem_cons_of_mem _ hy) hmem

lemma unknownErrors_eq_nil : m.unknownErrors = [] ↔ ∀ c ∈ m.components, ∀ dep ∈ c.dependencies, dep ∈ m.ids := by
  simp [unknownErrors, List.flatMap_eq_nil_iff, List.filter_eq_nil_iff]

/-! ## The graph as a list of nodes -/

lemma getComponent_id (hn : m.ids.Nodup) {c : Component} (hc : c ∈ m.components) : m.getComponent c.id = some c := by
  cases hfind : m.getComponent c.id with
  | none => exact absurd (decide_eq_true rfl) (List.find?_eq_none.mp hfind c hc)
  | some d =>
      have hid : d.id = c.id := by simpa using List.find?_some hfind
      rw [List.inj_on_of_nodup_map hn (List.mem_of_find?_eq_some hfind) hc hid]

lemma dependenciesOf_id (hn : m.ids.Nodup) {c : Component} (hc : c ∈ m.components) :
    m.dependenciesOf c.id = c.dependencies := by
  rw [dependenciesOf, getComponent_id hn hc]
  rfl

lemma mem_dependenciesOf (hn : m.ids.Nodup) {a b : String} : b ∈ m.dependenciesOf a ↔ m.DependsOn a b := by
  constructor
  · intro hb
    unfold dependenciesOf at hb
    cases hfind : m.getComponent a with
    | none =>
        rw [hfind] at hb
        cases hb
    | some c =>
        rw [hfind] at hb
        exact ⟨c, List.mem_of_find?_eq_some hfind, by simpa using List.find?_some hfind, hb⟩
  · rintro ⟨c, hc, rfl, hb⟩
    rwa [dependenciesOf_id hn hc]

/-- The nodes of the graph are the ids, and every one it names is a node. -/
lemma mem_ids_of_dependsOn (hknown : ∀ c ∈ m.components, ∀ dep ∈ c.dependencies, dep ∈ m.ids) {a b : String}
    (h : m.DependsOn a b) : a ∈ m.ids ∧ b ∈ m.ids := by
  obtain ⟨c, hc, rfl, hb⟩ := h
  exact ⟨List.mem_map_of_mem hc, hknown c hc b hb⟩

lemma waits_iff (hn : m.ids.Nodup) : Kahn.Waits m.dependenciesOf = m.DependsOn := by
  funext a b
  exact propext (mem_dependenciesOf hn)

lemma acyclic_iff (hn : m.ids.Nodup) (hknown : ∀ c ∈ m.components, ∀ dep ∈ c.dependencies, dep ∈ m.ids) :
    Kahn.Acyclic m.ids m.dependenciesOf ↔ ∀ a, ¬ Relation.TransGen m.DependsOn a a := by
  unfold Kahn.Acyclic
  rw [waits_iff hn]
  refine ⟨fun h a hcycle => h a ?_ hcycle, fun h a _ => h a⟩
  obtain ⟨b, hab, -⟩ := Relation.TransGen.head'_iff.mp hcycle
  exact (mem_ids_of_dependsOn hknown hab).1

lemma path_iff (hn : m.ids.Nodup) {a : String} {n : ℕ} : Kahn.Path m.dependenciesOf a n ↔ m.PathBelow a n := by
  constructor
  · intro path
    induction path with
    | nil a => exact .nil a
    | cons hd _ ih => exact .cons ((mem_dependenciesOf hn).mp hd) ih
  · intro path
    induction path with
    | nil a => exact .nil a
    | cons hb _ ih => exact .cons ((mem_dependenciesOf hn).mpr hb) ih

/-! ## The three algorithms -/

/-- **`validate_dag`** finds no error exactly in a graph that is well formed. -/
lemma validateDag_eq_nil : m.validateDag = [] ↔ m.WellFormedGraph := by
  unfold validateDag
  dsimp only
  by_cases herrors : duplicateErrors [] m.ids ++ m.unknownErrors = []
  · rw [if_neg (not_not.mpr herrors)]
    obtain ⟨hduplicate, hunknown⟩ := List.append_eq_nil_iff.mp herrors
    have hn : m.ids.Nodup := (duplicateErrors_eq_nil.mp hduplicate).1
    have hknown := unknownErrors_eq_nil.mp hunknown
    have hnodes : ∀ a ∈ m.ids, ∀ d ∈ m.dependenciesOf a, d ∈ m.ids := fun a _ d hd =>
      (mem_ids_of_dependsOn hknown ((mem_dependenciesOf hn).mp hd)).2
    have hcomplete := Kahn.complete_iff_acyclic hn (fun l => List.Perm.refl (id l)) hnodes
    rw [acyclic_iff hn hknown, ids, List.length_map] at hcomplete
    by_cases hlength : (Kahn.order m.ids m.dependenciesOf id).length = m.components.length
    · rw [if_neg (not_not.mpr hlength)]
      exact iff_of_true rfl ⟨hn, hknown, hcomplete.mp hlength⟩
    · rw [if_pos hlength]
      exact iff_of_false (List.cons_ne_nil _ _) fun h => hlength (hcomplete.mpr h.acyclic)
  · rw [if_pos herrors]
    refine iff_of_false herrors fun h => herrors ?_
    rw [duplicateErrors_eq_nil.mpr ⟨h.unique, fun _ _ => List.not_mem_nil⟩, unknownErrors_eq_nil.mpr h.known]
    rfl

/-- Unique ids are the keys of the dictionary, in their order. -/
lemma eraseDups_of_nodup {ids : List String} (hn : ids.Nodup) : ids.eraseDups = ids := by
  induction ids with
  | nil => rfl
  | cons a rest ih =>
      obtain ⟨hfresh, hrest⟩ := List.nodup_cons.mp hn
      have hall : rest.filter (fun b => !b == a) = rest := by
        refine List.filter_eq_self.mpr fun b hb => ?_
        have hne : b ≠ a := fun hsame => hfresh (hsame ▸ hb)
        simpa using hne
      rw [List.eraseDups_cons, hall, ih hrest]

section Valid

variable (h : m.WellFormedGraph)

include h

lemma WellFormedGraph.nodes : ∀ a ∈ m.ids, ∀ d ∈ m.dependenciesOf a, d ∈ m.ids := fun _ _ _ hd =>
  (mem_ids_of_dependsOn h.known ((mem_dependenciesOf h.unique).mp hd)).2

/-- **`topological_order`** lists every component once, behind its dependencies. -/
lemma topologicalOrder_spec : ∃ order, m.topologicalOrder = .ok order ∧ order.Perm m.ids ∧
    ∀ l x r, order = l ++ x :: r → ∀ d, m.DependsOn x d → d ∈ l := by
  have hsorted : ∀ l, (sortedIds l).Perm l := fun l => List.perm_insertionSort _ l
  refine ⟨Kahn.order m.ids m.dependenciesOf sortedIds, ?_, ?_, fun l x r hsplit d hd => ?_⟩
  · rw [topologicalOrder, validateDag_eq_nil.mpr h]
  · exact Kahn.order_perm h.unique hsorted h.nodes ((acyclic_iff h.unique h.known).mpr h.acyclic)
  · exact Kahn.before m.dependenciesOf h.unique hsorted hsplit d ((mem_dependenciesOf h.unique).mpr hd)

/-- The dependents of an id, as the graph has them. -/
lemma dependents_eq (node : String) : m.dependents node = Kahn.dependents m.ids m.dependenciesOf node := by
  have hmap : ∀ components : List Component, (∀ c ∈ components, c ∈ m.components) →
      components.flatMap (fun c => (c.dependencies.filter (· = node)).map fun _ => c.id)
        = (components.map (·.id)).flatMap fun c => ((m.dependenciesOf c).filter (· = node)).map fun _ => c := by
    intro components hsub
    rw [List.flatMap_map]
    refine List.flatMap_congr fun c hc => ?_
    rw [dependenciesOf_id h.unique (hsub c hc)]
  rw [dependents, Kahn.dependents]
  by_cases hnode : node ∈ m.ids
  · rw [if_pos hnode]
    exact hmap m.components fun _ hc => hc
  · rw [if_neg hnode]
    symm
    rw [List.flatMap_eq_nil_iff]
    intro a ha
    rw [List.map_eq_nil_iff, List.filter_eq_nil_iff]
    intro d hd hsame
    exact hnode (of_decide_eq_true hsame ▸ h.nodes a ha d hd)

lemma tiersFrom_eq (fuel : ℕ) (inDegree : String → ℤ) (current : List String) :
    m.tiersFrom fuel inDegree current
      = (Kahn.levelsFrom m.ids m.dependenciesOf fuel inDegree current).map sortedIds := by
  have hvisit : m.tierVisit = Kahn.levelVisit m.ids m.dependenciesOf := by
    funext acc node
    rw [tierVisit, dependents_eq h, Kahn.levelVisit]
  induction fuel generalizing inDegree current with
  | zero => rfl
  | succ fuel ih =>
      cases current with
      | nil => rfl
      | cons a current =>
          show sortedIds (a :: current) :: m.tiersFrom fuel ((a :: current).foldl m.tierVisit (inDegree, [])).1
            ((a :: current).foldl m.tierVisit (inDegree, [])).2 = _
          rw [hvisit, ih]
          rfl

/-- No two components share an id, so the dependencies under an id are those of its component. -/
lemma inDegree_eq : m.inDegree = fun a => ((m.dependenciesOf a).length : ℤ) := by
  funext a
  cases hfind : m.getComponent a with
  | none =>
      have hnone : m.components.filter (·.id = a) = [] :=
        List.filter_eq_nil_iff.mpr (List.find?_eq_none.mp hfind)
      rw [inDegree, hnone, dependenciesOf, hfind]
      rfl
  | some c =>
      have hc : c ∈ m.components := List.mem_of_find?_eq_some hfind
      have hid : c.id = a := by simpa using List.find?_some hfind
      have honly : m.components.filter (·.id = a) = [c] := by
        have hnodup : m.components.Nodup := List.Nodup.of_map _ h.unique
        refine List.perm_singleton.mp ((List.perm_ext_iff_of_nodup (hnodup.filter _) (List.nodup_singleton c)).mpr ?_)
        intro d
        rw [List.mem_filter, List.mem_singleton, decide_eq_true_iff]
        constructor
        · rintro ⟨hd, hsame⟩
          exact List.inj_on_of_nodup_map h.unique hd hc (hsame.trans hid.symm)
        · rintro rfl
          exact ⟨hc, hid⟩
      rw [inDegree, honly, dependenciesOf, hfind]
      simp

/-- **`compute_tiers`** puts every component once, in the tier of its longest path. -/
lemma computeTiers_spec : ∃ tiers, m.computeTiers = .ok tiers ∧ tiers.flatten.Perm m.ids ∧
    ∀ i tier, tiers[i]? = some tier → ∀ c ∈ tier, m.LongestBelow c i := by
  have hvalid : m.validateDag = [] := validateDag_eq_nil.mpr h
  have hknown : m.unknownErrors = [] := unknownErrors_eq_nil.mpr h.known
  have hlength : m.components.length = m.ids.length := (List.length_map _).symm
  obtain ⟨hperm, hheights⟩ := Kahn.levels_height h.unique h.nodes ((acyclic_iff h.unique h.known).mpr h.acyclic)
  refine ⟨(Kahn.levels m.ids m.dependenciesOf).map sortedIds, ?_, ?_, fun i tier htier c hc => ?_⟩
  · unfold computeTiers
    rw [hvalid, List.filter_nil]
    dsimp only
    rw [if_neg (not_not.mpr hknown), tiersFrom_eq h, inDegree_eq h, eraseDups_of_nodup h.unique, hlength]
    rfl
  · refine List.Perm.trans ?_ hperm
    generalize Kahn.levels m.ids m.dependenciesOf = levels
    induction levels with
    | nil => exact List.Perm.refl _
    | cons level rest ih =>
        rw [List.map_cons, List.flatten_cons, List.flatten_cons]
        exact (List.perm_insertionSort _ level).append ih
  · rw [List.getElem?_map] at htier
    obtain ⟨level, hlevel, rfl⟩ := Option.map_eq_some_iff.mp htier
    have hheight := hheights i level hlevel c ((List.perm_insertionSort _ level).mem_iff.mp hc)
    exact ⟨(path_iff h.unique).mp hheight.path, fun k path => hheight.longest k ((path_iff h.unique).mpr path)⟩

end Valid

/-- **The three algorithms agree with the graph**, and so with each other. -/
theorem graph_algorithms_agree (m : Manifest) :
    (m.validateDag = [] ↔ m.WellFormedGraph) ∧
      (m.validateDag = [] →
        (∃ order, m.topologicalOrder = .ok order ∧ order.Perm m.ids ∧
          ∀ l x r, order = l ++ x :: r → ∀ d, m.DependsOn x d → d ∈ l) ∧
        ∃ tiers, m.computeTiers = .ok tiers ∧ tiers.flatten.Perm m.ids ∧
          ∀ i tier, tiers[i]? = some tier → ∀ c ∈ tier, m.LongestBelow c i) := by
  refine ⟨validateDag_eq_nil, fun hvalid => ?_⟩
  have h := validateDag_eq_nil.mp hvalid
  exact ⟨topologicalOrder_spec h, computeTiers_spec h⟩

end Manifest

end Kstrl
