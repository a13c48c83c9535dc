import Kstrl.Factory.RunEnds

/-!
# Skipped components over runs and retries

A component is skipped when one that it is built on fails, and it comes back when that one is retried
(`Manifest.cascade_skip` and `reset_for_retry` of `kstrl/plan/manifest.py`, `prepare_retry` of
`kstrl/factory/retry_plan.py`).  The two stand in different commands, with whole runs between them.

* **`skipped_rests_on_failed`**: over any sequence of runs, each broken off anywhere, and of retries, what is skipped
  rests on a failed component, which `ks retry` accepts.
* **`retry_strands_iff`**: a retry loses a skipped component exactly where it takes back all that the component rests
  on while another dependency of it is in flight or parked.
-/

namespace Kstrl

namespace Factory

namespace Rounds

open Relation Runs

section Skipped

variable {m m' : Manifest} {cfg : RunConfig} {now : String} {s s' : State} {a : Action} {x : String}

/-- A component that nothing is built on until it is retried. -/
def Blocked (m : Manifest) (x : String) : Prop := HasStatus m .failed x ∨ HasStatus m .skipped x

/-- Every skipped component rests on one that is failed or skipped. -/
def NoneStranded (m : Manifest) : Prop := ∀ x, HasStatus m .skipped x → ∃ dep, m.DependsOn x dep ∧ Blocked m dep

lemma NoneStranded.of_kept (h : NoneStranded m) (hdepends : m'.DependsOn = m.DependsOn)
    (hblocked : ∀ x, Blocked m x → Blocked m' x)
    (hskipped : ∀ x, HasStatus m' .skipped x → HasStatus m .skipped x ∨ ∃ dep, m.DependsOn x dep ∧ Blocked m' dep) :
    NoneStranded m' := by
  intro x hx
  rw [hdepends]
  rcases hskipped x hx with hx | hrests
  · obtain ⟨dep, hdep, hdown⟩ := h x hx
    exact ⟨dep, hdep, hblocked dep hdown⟩
  · exact hrests

lemma Blocked.status_ne {status : ComponentStatus} (h : Blocked m x) (hx : HasStatus m status x)
    (hopen : status ≠ .failed ∧ status ≠ .skipped) : False := by
  rcases h with h | h
  · exact hopen.1 (hx.unique h)
  · exact hopen.2 (hx.unique h)

/-- A component that is neither failed nor skipped changes, and is not skipped. -/
lemma NoneStranded.update (h : NoneStranded m) {f : Component → Component} (hf : ∀ c, (f c).id = c.id)
    (hdeps : ∀ c, (f c).dependencies = c.dependencies) (hskip : ∀ c, (f c).status ≠ .skipped) {status : ComponentStatus}
    (hx : HasStatus m status x) (hopen : status ≠ .failed ∧ status ≠ .skipped) : NoneStranded (m.update x f) := by
  refine h.of_kept ?_ (fun y hy => ?_) (fun y hy => ?_)
  · rw [Manifest.update_eq_updateAll, Manifest.dependsOn_updateAll hf hdeps]
  · have hne : y ≠ x := by
      rintro rfl
      exact hy.status_ne hx hopen
    exact hy.imp (fun hy => hy.update_of_ne hf hne) fun hy => hy.update_of_ne hf hne
  · rcases hasStatus_update hf hy with ⟨-, c, -, hstatus⟩ | ⟨-, hy⟩
    · exact absurd hstatus (hskip c)
    · exact .inl hy

/-- **A component is settled**, and whatever it takes down with it rests on it. -/
lemma noneStranded_settles {o : Outcome} {c : Component} (h : NoneStranded s.manifest) (hs : Settles cfg now s x o c s')
    (hopen : c.status ≠ .failed ∧ c.status ≠ .skipped) : NoneStranded s'.manifest := by
  have happlied := hs.applied
  have hx : HasStatus s.manifest c.status x := ⟨c, hs.found, rfl⟩
  have hself := happlied.self
  rw [hs.found, Option.map_some] at hself
  -- what is on an open chain down to the component is skipped with it
  have hdown : ∀ y, (resolve cfg c o).fails = true → TransGen s.manifest.OpenDependsOn y x →
      HasStatus s'.manifest .skipped y := by
    intro y hfails hchain
    obtain ⟨d, hd, -⟩ := open_of_chain hchain
    exact ⟨Manifest.skip x now d, by rw [happlied.skips hfails y hchain, hd, Option.map_some], rfl⟩
  refine h.of_kept happlied.depends (fun y hy => ?_) (fun y hy => ?_)
  · have hne : y ≠ x := by
      rintro rfl
      exact hy.status_ne hx hopen
    by_cases hchain : (resolve cfg c o).fails = true ∧ TransGen s.manifest.OpenDependsOn y x
    · exact .inr (hdown y hchain.1 hchain.2)
    · have hsame := happlied.others y hne fun hfails hpath => hchain ⟨hfails, hpath⟩
      refine hy.imp ?_ ?_ <;>
      · rintro ⟨d, hd, hstatus⟩
        exact ⟨d, hsame.trans hd, hstatus⟩
  · by_cases hyx : y = x
    · subst hyx
      obtain ⟨d, hd, hstatus⟩ := hy
      rw [hself] at hd
      cases hd
      exact absurd hstatus (@change_status now (resolve cfg c o) c).2.2
    by_cases hchain : (resolve cfg c o).fails = true ∧ TransGen s.manifest.OpenDependsOn y x
    · obtain ⟨hfails, hpath⟩ := hchain
      obtain ⟨w, hedge, hrest⟩ := TransGen.head'_iff.mp hpath
      refine .inr ⟨w, hedge.1, ?_⟩
      rcases reflTransGen_iff_eq_or_transGen.mp hrest with rfl | hrest
      · refine .inl ⟨_, hself, ?_⟩
        cases hv : resolve cfg c o with
        | failed error phase check => rfl
        | back _ _ _ | completed | mergePending _ | awaitingApproval =>
            rw [hv] at hfails
            cases hfails
      · exact .inr (hdown w hfails hrest)
    · obtain ⟨d, hd, hstatus⟩ := hy
      rw [happlied.others y hyx fun hfails hpath => hchain ⟨hfails, hpath⟩] at hd
      exact .inl ⟨d, hd, hstatus⟩

/-! ## Runs -/

/-- A decision of the start is about a component that is still parked. -/
def Decides (s : State) (a : Action) : Prop :=
  ∀ x o c, settled s a = some (x, o) → s.manifest.getComponent x = some c → StillParked s c

lemma open_of_settles {o : Outcome} {c : Component} (hdecides : Decides s a) (hsettled : settled s a = some (x, o))
    (hs : Settles cfg now s x o c s') : c.status ≠ .failed ∧ c.status ≠ .skipped := by
  have hx : HasStatus s.manifest c.status x := ⟨c, hs.found, rfl⟩
  rcases hs.source with hstarting | hpending | hrunning
  · have hparked := hdecides x o c hsettled hs.found
    unfold StillParked at hparked
    unfold State.starting at hstarting
    cases hstage : s.stage <;> rw [hstage] at hparked hstarting <;> first
      | exact hstarting.elim
      | rw [show c.status = _ from hparked]
        decide
  · rw [hx.unique hpending.hasStatus]
    decide
  · rw [hx.unique hrunning.hasStatus]
    decide

/-- **No step strands a component.** -/
lemma noneStranded_next (hsound : Sound s) (h : NoneStranded s.manifest) (hdecides : Decides s a)
    (hstep : next cfg s now a = some s') : NoneStranded s'.manifest := by
  rcases next_effect hsound hstep with ⟨x, o, c, hsettled, hs⟩ | ⟨-, hquiet⟩
  · exact noneStranded_settles h hs (open_of_settles hdecides hsettled hs)
  · cases hquiet with
    | still hmanifest _ => exact hmanifest ▸ h
    | submit x hmanifest _ => exact hmanifest ▸ h
    | start x hpending hmanifest _ =>
        rw [hmanifest]
        exact h.update (f := beginAttempt) (fun _ => rfl) (fun _ => rfl) (fun _ => by rintro ⟨⟩) hpending.hasStatus
          (by decide)
    | contract w baseSha _ hround =>
        rw [hround]
        refine contractRound_rule hsound.graph.unique w baseSha h (fun m id error hx hm => ?_)
          (fun m id error check hx hm => ?_)
        · exact hm.update (f := retryBreaker error) (fun _ => rfl) (fun _ => rfl) (fun _ => by rintro ⟨⟩) hx (by decide)
        · exact hm.update (f := failAs now error "contract" check) (fun _ => rfl) (fun _ => rfl)
            (fun _ => by rintro ⟨⟩) hx (by decide)

/-- **A run strands no component**, wherever it is broken off. -/
lemma noneStranded_run (hm : m.WellFormedGraph) (h : NoneStranded m)
    (hrun : Reaches (Step cfg) (fun s a => Decides s a.2) (init m) s) : Sound s ∧ NoneStranded s.manifest := by
  have hf : ∀ c : Component, ({ c with status := .pending } : Component).id = c.id := fun _ => rfl
  have hget := Manifest.getComponent_updateAll (m := m) hf (idsIn m .running ++ idsIn m .verifying)
  -- a component that is reset was in flight
  have hreset : ∀ {y c}, m.getComponent y = some c → c.id ∈ idsIn m .running ++ idsIn m .verifying →
      c.status = .running ∨ c.status = .verifying := by
    intro y c hc hin
    have hsame : ∀ {status}, c.id ∈ idsIn m status → c.status = status := by
      intro status hin
      obtain ⟨d, hd, hid⟩ := List.mem_map.mp hin
      obtain ⟨hd, hstatus⟩ := List.mem_filter.mp hd
      have hfound := Manifest.getComponent_id hm.unique hd
      rw [show d.id = c.id from hid, Manifest.getComponent_some_id hc, hc] at hfound
      cases hfound
      exact of_decide_eq_true hstatus
    exact (List.mem_append.mp hin).imp hsame hsame
  have hstart : NoneStranded (init m).manifest := by
    refine h.of_kept (Manifest.dependsOn_updateAll hf (fun _ => rfl) _) (fun y hy => ?_) (fun y hy => ?_)
    · refine hy.imp ?_ ?_ <;>
      · rintro ⟨c, hc, hstatus⟩
        refine ⟨c, ?_, hstatus⟩
        rw [init, resumed, hget, hc, Option.map_some, if_neg]
        intro hin
        rcases hreset hc hin with hflight | hflight <;> rw [hstatus] at hflight <;> cases hflight
    · obtain ⟨c, hc, hstatus⟩ := hy
      rw [init, resumed, hget] at hc
      obtain ⟨d, hd, rfl⟩ := Option.map_eq_some_iff.mp hc
      split_ifs at hstatus
      exact .inl ⟨d, hd, hstatus⟩
  refine hrun.invariant (I := fun t => Sound t ∧ NoneStranded t.manifest) ⟨sound_init hm, hstart⟩ ?_
  rintro t a u ⟨hsound, hnone⟩ hdecides hstep
  exact ⟨sound_next hsound hstep, noneStranded_next hsound hnone hdecides hstep⟩

/-! ## Retries -/

/-- The statuses of a component that its run, or the next one, goes on with. -/
def moving : List ComponentStatus := [.running, .verifying, .mergePending, .awaitingApproval]

def Moving (m : Manifest) (x : String) : Prop := ∃ c, m.getComponent x = some c ∧ c.status ∈ moving

/-- `prepare_retry`, as it leaves the manifest: the reset, and the head that is judged again. -/
def prepareRetry (m : Manifest) (componentId keptHead : String) : Except String Manifest := do
  let (manifest, _) ← m.resetForRetry componentId
  .ok (if keptHead = "" then manifest else manifest.update componentId fun c => { c with rejudgeSha := keptHead })

/-- A skipped component that a retry leaves with nothing to bring it back. -/
structure Lost (m : Manifest) (x y : String) : Prop where
  skipped : HasStatus m .skipped y
  rests : ∀ dep, m.DependsOn y dep → Blocked m dep → dep = x ∨ dep ∈ m.resettable x
  waits : ∃ dep, m.DependsOn y dep ∧ Moving m dep

/-- What a retry makes of the statuses. -/
structure Reopens (m : Manifest) (x : String) (m' : Manifest) : Prop where
  failed : HasStatus m .failed x
  graph : m.WellFormedGraph
  ids : m'.ids = m.ids
  depends : m'.DependsOn = m.DependsOn
  pending : ∀ z, z = x ∨ z ∈ m.resettable x → HasStatus m' .pending z
  others : ∀ z, ¬ (z = x ∨ z ∈ m.resettable x) → ∀ status, HasStatus m' status z ↔ HasStatus m status z

/-- The components of two manifests that agree on the dependencies. -/
lemma dependsOn_congr (hn : m.ids.Nodup) (hids : m'.ids = m.ids)
    (h : ∀ z c, m.getComponent z = some c → ∃ c', m'.getComponent z = some c' ∧ c'.dependencies = c.dependencies) :
    m'.DependsOn = m.DependsOn := by
  funext a b
  rw [← Manifest.mem_dependenciesOf hn, ← Manifest.mem_dependenciesOf (hids ▸ hn)]
  unfold Manifest.dependenciesOf
  by_cases ha : a ∈ m.ids
  · obtain ⟨c, hc⟩ := Manifest.exists_getComponent ha
    obtain ⟨c', hc', hdeps⟩ := h a c hc
    rw [hc, hc', Option.map_some, Option.map_some, hdeps]
  · have hnone : ∀ {n : Manifest}, a ∉ n.ids → n.getComponent a = none := by
      intro n hnot
      cases hget : n.getComponent a with
      | none => rfl
      | some c => exact absurd (Manifest.mem_ids_of_getComponent hget) hnot
    rw [hnone ha, hnone (hids ▸ ha)]

lemma retry_reopens {keptHead : String} (hretry : prepareRetry m x keptHead = .ok m') : Reopens m x m' := by
  obtain ⟨⟨m₁, dependents⟩, hreset, hkept⟩ := Except.bind_eq_ok hretry
  have hretryable : m.Retryable x := by
    by_contra hnot
    obtain ⟨error, herror⟩ := Manifest.resetForRetry_error hnot
    rw [herror] at hreset
    cases hreset
  obtain ⟨m₂, dependents', hok, hgreatest, hexact⟩ := Manifest.resetForRetry_ok hretryable
  rw [hok] at hreset
  cases hreset
  obtain ⟨hfailed, hgraph⟩ := hretryable
  have hset : ∀ z, z ∈ x :: dependents ↔ z = x ∨ z ∈ m.resettable x := by
    intro z
    rw [List.mem_cons, (m.resettable_isGreatest x).unique hgreatest]
    rfl
  -- the statuses do not depend on the head that is kept
  have hf : ∀ c : Component, ({ c with rejudgeSha := keptHead } : Component).id = c.id := fun _ => rfl
  have hhead : m'.ids = m₁.ids ∧ m'.DependsOn = m₁.DependsOn ∧
      ∀ z status, HasStatus m' status z ↔ HasStatus m₁ status z := by
    cases hkept
    split_ifs
    · exact ⟨rfl, rfl, fun _ _ => Iff.rfl⟩
    · refine ⟨?_, ?_, fun z status => ⟨fun hz => ?_, fun hz => ?_⟩⟩
      · rw [Manifest.update_eq_updateAll, Manifest.ids_updateAll hf]
      · rw [Manifest.update_eq_updateAll, Manifest.dependsOn_updateAll hf fun _ => rfl]
      · rcases hasStatus_update hf hz with ⟨rfl, c, hc, hstatus⟩ | ⟨-, hz⟩
        · exact ⟨c, hc, hstatus⟩
        · exact hz
      · obtain ⟨c, hc, hstatus⟩ := hz
        unfold HasStatus
        rw [Manifest.getComponent_update hf, hc]
        split_ifs
        · exact ⟨_, rfl, hstatus⟩
        · exact ⟨c, rfl, hstatus⟩
  have hpending : ∀ z ∈ x :: dependents, HasStatus m₁ .pending z := by
    intro z hz
    have hin : z ∈ m.ids := by
      rcases (hset z).mp hz with rfl | hz
      · exact (Manifest.mem_ids_of_getComponent hfailed.choose_spec.1)
      · obtain ⟨-, c, hc, -⟩ := (m.resettable_isGreatest x).1 z hz
        exact Manifest.mem_ids_of_getComponent hc
    obtain ⟨c, hc⟩ := Manifest.exists_getComponent hin
    obtain ⟨c', hc', -, hfresh⟩ := hexact.reset z hz c hc
    exact ⟨c', hc', by rw [hfresh]⟩
  have hdepends : m₁.DependsOn = m.DependsOn := by
    refine dependsOn_congr hgraph.unique hexact.ids fun z c hc => ?_
    by_cases hz : z ∈ x :: dependents
    · obtain ⟨c', hc', hsame, -⟩ := hexact.reset z hz c hc
      exact ⟨c', hc', hsame.dependencies⟩
    · exact ⟨c, (hexact.kept z hz).trans hc, rfl⟩
  refine ⟨hfailed, hgraph, hhead.1.trans hexact.ids, hhead.2.1.trans hdepends, fun z hz => ?_, fun z hz status => ?_⟩
  · exact (hhead.2.2 z .pending).mpr (hpending z ((hset z).mpr hz))
  · rw [hhead.2.2, HasStatus, HasStatus, hexact.kept z fun hin => hz ((hset z).mp hin)]

lemma Reopens.blocked_iff {z : String} (h : Reopens m x m') :
    Blocked m' z ↔ Blocked m z ∧ ¬ (z = x ∨ z ∈ m.resettable x) := by
  by_cases hz : z = x ∨ z ∈ m.resettable x
  · refine ⟨fun hblocked => ?_, fun hblocked => absurd hz hblocked.2⟩
    exact (hblocked.status_ne (h.pending z hz) (by decide)).elim
  · rw [Blocked, Blocked, h.others z hz, h.others z hz]
    exact ⟨fun hblocked => ⟨hblocked, hz⟩, fun hblocked => hblocked.1⟩

/-- **A retry loses a skipped component** exactly where it takes back all that the component rests on while another
dependency of it is in flight or parked. -/
theorem retry_strands_iff {keptHead : String} (h : NoneStranded m) (hretry : prepareRetry m x keptHead = .ok m') :
    NoneStranded m' ↔ ∀ y, ¬ Lost m x y := by
  have hreopens := retry_reopens hretry
  have hvalid := (m.resettable_isGreatest x).1
  constructor
  · rintro hafter y ⟨hskipped, hrests, dep, hdep, d, hd, hmoving⟩
    -- with a dependency on the move, `y` is not taken back
    have hnot : ¬ (y = x ∨ y ∈ m.resettable x) := by
      rintro (rfl | hy)
      · exact absurd (hskipped.unique hreopens.failed) (by decide)
      · obtain ⟨-, c, hc, -, hdeps⟩ := hvalid y hy
        have hin : dep ∈ c.dependencies := by
          have hin := (Manifest.mem_dependenciesOf hreopens.graph.unique).mpr hdep
          rwa [Manifest.dependenciesOf, hc] at hin
        have hd' : HasStatus m d.status dep := ⟨d, hd, rfl⟩
        rcases hdeps dep hin with rfl | hdep | ⟨e, he, hrunnable⟩
        · rw [hd'.unique hreopens.failed] at hmoving
          exact absurd hmoving (by decide)
        · obtain ⟨-, e, he, hstatus, -⟩ := hvalid dep hdep
          rw [hd'.unique ⟨e, he, hstatus⟩] at hmoving
          exact absurd hmoving (by decide)
        · cases hd.symm.trans he
          revert hmoving hrunnable
          cases d.status <;> decide
    obtain ⟨w, hw, hblocked⟩ := hafter y ((hreopens.others y hnot _).mpr hskipped)
    obtain ⟨hblocked, houtside⟩ := hreopens.blocked_iff.mp hblocked
    exact houtside (hrests w (hreopens.depends ▸ hw) hblocked)
  · intro hnone y hy
    by_contra hrests
    have hnot : ¬ (y = x ∨ y ∈ m.resettable x) := fun hin => absurd (hy.unique (hreopens.pending y hin)) (by decide)
    have hskipped := (hreopens.others y hnot _).mp hy
    have hall : ∀ dep, m.DependsOn y dep → Blocked m dep → dep = x ∨ dep ∈ m.resettable x := by
      intro dep hdep hblocked
      by_contra houtside
      exact hrests ⟨dep, hreopens.depends ▸ hdep, hreopens.blocked_iff.mpr ⟨hblocked, houtside⟩⟩
    -- so `y` could be taken back too, with what it rests on
    refine hnot (.inr ⟨insert y (m.resettable x), ?_, Set.mem_insert y _⟩)
    obtain ⟨w, hw, hblocked⟩ := h y hskipped
    have hdown : TransGen m.DependsOn y x := by
      rcases hall w hw hblocked with rfl | hin
      · exact .single hw
      · exact .head hw (hvalid w hin).1
    rintro z (rfl | hz)
    · obtain ⟨c, hc, hstatus⟩ := hskipped
      refine ⟨hdown, c, hc, hstatus, fun dep hdep => ?_⟩
      have hmem := List.mem_of_find?_eq_some hc
      have hedge : m.DependsOn z dep := ⟨c, hmem, Manifest.getComponent_some_id hc, hdep⟩
      obtain ⟨d, hd⟩ := Manifest.exists_getComponent (hreopens.graph.known c hmem dep hdep)
      by_cases hblocked : Blocked m dep
      · exact (hall dep hedge hblocked).imp_right fun hin => .inl (Set.mem_insert_of_mem _ hin)
      · refine .inr (.inr ⟨d, hd, ?_⟩)
        have hfailed : d.status ≠ .failed := fun hstatus => hblocked (.inl ⟨d, hd, hstatus⟩)
        have hskip : d.status ≠ .skipped := fun hstatus => hblocked (.inr ⟨d, hd, hstatus⟩)
        have hstill : d.status ∉ moving := fun hmoving => hnone z ⟨⟨c, hc, hstatus⟩, hall, dep, hedge, d, hd, hmoving⟩
        revert hfailed hskip hstill
        cases d.status <;> decide
    · obtain ⟨hdown, c, hc, hstatus, hdeps⟩ := hvalid z hz
      refine ⟨hdown, c, hc, hstatus, fun dep hdep => ?_⟩
      exact (hdeps dep hdep).imp_right fun hrest => hrest.imp_left (Set.mem_insert_of_mem _)

/-! ## Runs and retries -/

/-- What is done to a manifest between two edits of its plan. -/
inductive Command where
  | run (cfg : RunConfig)
  | retry (componentId keptHead : String)

/-- A command, and the manifest it leaves: for a run, one that it leaves wherever it is broken off. -/
def Leaves (m : Manifest) : Command → Manifest → Prop
  | .run cfg, m' => ∃ s, Reaches (Step cfg) (fun s a => Decides s a.2) (init m) s ∧ s.manifest = m'
  | .retry componentId keptHead, m' => prepareRetry m componentId keptHead = .ok m'

/-- A retry that loses no skipped component. -/
def LosesNone (m : Manifest) : Command → Prop
  | .run _ => True
  | .retry componentId _ => ∀ y, ¬ Lost m componentId y

lemma noneStranded_leaves {command : Command} (hm : m.WellFormedGraph) (h : NoneStranded m) (hnone : LosesNone m command)
    (hleaves : Leaves m command m') : m'.WellFormedGraph ∧ NoneStranded m' := by
  cases command with
  | run cfg =>
      obtain ⟨s, hrun, rfl⟩ := hleaves
      obtain ⟨hsound, hafter⟩ := noneStranded_run hm h hrun
      exact ⟨hsound.graph, hafter⟩
  | retry componentId keptHead =>
      have hreopens := retry_reopens hleaves
      exact ⟨hm.of_same hreopens.ids hreopens.depends, (retry_strands_iff h hleaves).mpr hnone⟩

lemma mem_retryable {d : Component} (hd : m.getComponent x = some d) (hfailed : d.status = .failed) :
    x ∈ m.retryableComponentIds :=
  List.mem_map.mpr ⟨d, List.mem_filter.mpr ⟨List.mem_of_find?_eq_some hd, decide_eq_true hfailed⟩,
    Manifest.getComponent_some_id hd⟩

/-- What is skipped rests on a failed component, over a chain of skipped ones. -/
lemma NoneStranded.rests (h : NoneStranded m) (hm : m.WellFormedGraph) :
    ∀ c ∈ m.components, c.status = .skipped → ∃ d ∈ m.retryableComponentIds, TransGen m.DependsOn c.id d := by
  have hall : ∀ x, HasStatus m .skipped x → ∃ d ∈ m.retryableComponentIds, TransGen m.DependsOn x d := by
    refine hm.induction fun x ih hx => ?_
    obtain ⟨dep, hdep, hfailed | hskipped⟩ := h x hx
    · obtain ⟨d, hd, hstatus⟩ := hfailed
      exact ⟨dep, mem_retryable hd hstatus, .single hdep⟩
    · obtain ⟨d, hd, hchain⟩ := ih dep hdep hskipped
      exact ⟨d, hd, .head hdep hchain⟩
  exact fun c hc hskipped => hall c.id ⟨c, Manifest.getComponent_id hm.unique hc, hskipped⟩

/-- **What is skipped can be brought back.**  After any sequence of runs, each broken off anywhere, and of retries that
lose none, every skipped component rests on a failed one that `ks retry` accepts. -/
theorem skipped_rests_on_failed (hm : m.validateDag = []) (h : NoneStranded m) (history : Reaches Leaves LosesNone m m') :
    ∀ c ∈ m'.components, c.status = .skipped → ∃ d ∈ m'.retryableComponentIds, TransGen m'.DependsOn c.id d := by
  have hboth : m'.WellFormedGraph ∧ NoneStranded m' := by
    refine history.invariant (I := fun n => n.WellFormedGraph ∧ NoneStranded n)
      ⟨Manifest.validateDag_eq_nil.mp hm, h⟩ ?_
    rintro n command n' ⟨hgraph, hnone⟩ hloses hleaves
    exact noneStranded_leaves hgraph hnone hloses hleaves
  exact hboth.2.rests hboth.1

/-- One retry of several, with nothing in flight or parked. -/
lemma retry_idle (keptHead : String) (hm : m.WellFormedGraph) (h : NoneStranded m) (hidle : ∀ y, ¬ Moving m y)
    (hx : HasStatus m .failed x) : ∃ m', prepareRetry m x keptHead = .ok m' ∧ m'.WellFormedGraph ∧ NoneStranded m' ∧
      (∀ y, ¬ Moving m' y) ∧ ∀ y, HasStatus m' .failed y ↔ HasStatus m .failed y ∧ y ≠ x := by
  obtain ⟨m₁, dependents, hreset, -⟩ := Manifest.resetForRetry_ok ⟨hx, hm⟩
  have hretry : ∃ m', prepareRetry m x keptHead = .ok m' := by
    unfold prepareRetry
    rw [hreset]
    exact ⟨_, rfl⟩
  obtain ⟨m', hretry⟩ := hretry
  have hreopens := retry_reopens hretry
  refine ⟨m', hretry, hm.of_same hreopens.ids hreopens.depends, (retry_strands_iff h hretry).mpr ?_, ?_, fun y => ?_⟩
  · rintro y ⟨-, -, dep, -, hmoving⟩
    exact hidle dep hmoving
  · rintro y ⟨c, hc, hmoving⟩
    by_cases hy : y = x ∨ y ∈ m.resettable x
    · rw [(hreopens.pending y hy).unique ⟨c, hc, rfl⟩ |>.symm] at hmoving
      exact absurd hmoving (by decide)
    · obtain ⟨d, hd, hstatus⟩ := (hreopens.others y hy _).mp ⟨c, hc, rfl⟩
      exact hidle y ⟨d, hd, hstatus ▸ hmoving⟩
  · by_cases hy : y = x ∨ y ∈ m.resettable x
    · refine ⟨fun hfailed => absurd (hfailed.unique (hreopens.pending y hy)) (by decide), fun hfailed => ?_⟩
      obtain ⟨-, c, hc, hskipped, -⟩ := (m.resettable_isGreatest x).1 y (hy.resolve_left hfailed.2)
      exact absurd (hfailed.1.unique ⟨c, hc, hskipped⟩) (by decide)
    · rw [hreopens.others y hy]
      exact ⟨fun hfailed => ⟨hfailed, fun hyx => hy (.inl hyx)⟩, fun hfailed => hfailed.1⟩

lemma retry_all_of {keptHead : String → String} (order : List String) (hm : m.WellFormedGraph) (h : NoneStranded m)
    (hidle : ∀ y, ¬ Moving m y) (hnodup : order.Nodup) (hfailed : ∀ y, HasStatus m .failed y ↔ y ∈ order) :
    ∃ m', order.foldlM (fun m x => prepareRetry m x (keptHead x)) m = .ok m' ∧
      ∀ c ∈ m'.components, c.status = .pending ∨ c.status = .completed := by
  induction order generalizing m with
  | nil =>
      refine ⟨m, rfl, fun c hc => ?_⟩
      have hget := Manifest.getComponent_id hm.unique hc
      have hstill : c.status ∉ moving := fun hmoving => hidle c.id ⟨c, hget, hmoving⟩
      have hnone : ∀ y, ¬ HasStatus m .failed y := fun y hy => List.not_mem_nil ((hfailed y).mp hy)
      have hskip : c.status ≠ .skipped := by
        intro hskipped
        obtain ⟨d, hd, -⟩ := h.rests hm c hc hskipped
        obtain ⟨e, he, rfl⟩ := List.mem_map.mp hd
        obtain ⟨he, hstatus⟩ := List.mem_filter.mp he
        exact hnone e.id ⟨e, Manifest.getComponent_id hm.unique he, of_decide_eq_true hstatus⟩
      have hfail : c.status ≠ .failed := fun hstatus => hnone c.id ⟨c, hget, hstatus⟩
      revert hstill hskip hfail
      cases c.status <;> decide
  | cons x rest ih =>
      obtain ⟨hx, hrest⟩ := List.nodup_cons.mp hnodup
      obtain ⟨m₁, hretry, hm₁, h₁, hidle₁, hfailed₁⟩ :=
        retry_idle (keptHead x) hm h hidle ((hfailed x).mpr List.mem_cons_self)
      have hleft : ∀ y, HasStatus m₁ .failed y ↔ y ∈ rest := by
        intro y
        rw [hfailed₁, hfailed, List.mem_cons]
        refine ⟨fun hy => hy.1.resolve_left hy.2, fun hy => ⟨.inr hy, ?_⟩⟩
        rintro rfl
        exact hx hy
      rw [List.foldlM_cons, hretry]
      exact ih hm₁ h₁ hidle₁ hrest hleft

end Skipped

/-! ### A dependency that is parked -/

lemma noneStranded_of_all {m : Manifest} (hn : m.ids.Nodup)
    (h : ∀ c ∈ m.components, c.status = .skipped →
      ∃ d ∈ m.components, d.id ∈ c.dependencies ∧ (d.status = .failed ∨ d.status = .skipped)) : NoneStranded m := by
  rintro x ⟨c, hc, hskipped⟩
  have hmem := List.mem_of_find?_eq_some hc
  obtain ⟨d, hd, hdep, hstatus⟩ := h c hmem hskipped
  have hget := Manifest.getComponent_id hn hd
  exact ⟨d.id, ⟨c, hmem, Manifest.getComponent_some_id hc, hdep⟩,
    hstatus.imp (fun hfailed => ⟨d, hget, hfailed⟩) fun hskip => ⟨d, hget, hskip⟩⟩

/-- **A run breaks off** with `api` failed and `web` skipped, and `web` rests on `api`. -/
theorem skipped_rests_on_failed_run :
    ∃ m', Reaches Leaves LosesNone apiThenWeb m' ∧ m'.components.map (fun c => c.status) = [.failed, .skipped] ∧
      ∀ c ∈ m'.components, c.status = .skipped → ∃ d ∈ m'.retryableComponentIds, TransGen m'.DependsOn c.id d := by
  have hstatuses : ((timed ([.repolled, .decided] ++ attempt "api" (.fail "no diff" "engineer" "diff"))).foldlM
      (fun s a => if calm s a = true then next oneRetry s a.1 a.2 else none) (init apiThenWeb)).map
        (fun s => s.manifest.components.map fun c => c.status) = some [.failed, .skipped] := by decide +kernel
  obtain ⟨s, hrun, hs⟩ := Option.map_eq_some_iff.mp hstatuses
  have hdecides : Reaches (Step oneRetry) (fun s a => Decides s a.2) (init apiThenWeb) s :=
    (Reaches.of_foldlM_if hrun).mono fun s a hcalm x o c hsettled hc =>
      (@clean_of_calm oneRetry s a hcalm x o c hsettled hc).1
  have history : Reaches Leaves LosesNone apiThenWeb s.manifest :=
    .single (a := .run oneRetry) trivial ⟨s, hdecides, rfl⟩
  have hfresh : NoneStranded apiThenWeb := noneStranded_of_all (by decide) (by decide)
  exact ⟨s.manifest, history, hs, skipped_rests_on_failed (by decide +kernel) hfresh history⟩

/-- `web` is built on `api`, which failed, and on `auth`, which has this status. -/
def besideApi (auth : ComponentStatus) : Manifest where
  components := [
    { id := "api", branchName := "kstrl/api", status := .failed },
    { id := "auth", branchName := "kstrl/auth", status := auth },
    { id := "web", branchName := "kstrl/web", dependencies := ["api", "auth"], status := .skipped }]

lemma besideApi_none {auth : ComponentStatus} (hauth : auth ≠ .skipped) : NoneStranded (besideApi auth) := by
  refine noneStranded_of_all (show ["api", "auth", "web"].Nodup by decide) ?_
  revert hauth
  cases auth <;> decide

/-- **The retry of `api` loses `web`** while `auth` waits for its approval. -/
theorem retry_strands_parked :
    ∃ m', prepareRetry (besideApi .awaitingApproval) "api" "" = .ok m' ∧
      (NoneStranded m' ↔ ∀ y, ¬ Lost (besideApi .awaitingApproval) "api" y) ∧
      m'.components.map (fun c => c.status) = [.pending, .awaitingApproval, .skipped] := by
  have hretry : (prepareRetry (besideApi .awaitingApproval) "api" "").toOption.map
      (fun m => m.components.map fun c => c.status) = some [.pending, .awaitingApproval, .skipped] := by decide +kernel
  obtain ⟨m', hm', hstatuses⟩ := Option.map_eq_some_iff.mp hretry
  cases hprepared : prepareRetry (besideApi .awaitingApproval) "api" "" with
  | error error =>
      rw [hprepared] at hm'
      cases hm'
  | ok m₁ =>
      rw [hprepared] at hm'
      cases hm'
      exact ⟨m', rfl, retry_strands_iff (besideApi_none (by decide)) hprepared, hstatuses⟩

end Rounds

end Factory

end Kstrl
