import Kstrl.Factory.RunLists

/-!
# What a factory run leaves behind

The components at the end of a run, and what keeps each unfinished one from going on.

* **`none_in_flight`**: at the end of every run, stopped or not, nothing is `RUNNING` or `VERIFYING`.
* **`waits_for_cause`**: a run that ends by itself leaves a component `PENDING` only where it waits, over some chain of
  dependencies, for one that failed, was skipped or is parked.
-/

namespace Kstrl

namespace Manifest

variable {m : Manifest}

/-- **Induction along the dependencies** of a valid graph. -/
lemma WellFormedGraph.induction (hm : m.WellFormedGraph) {P : String → Prop}
    (h : ∀ x, (∀ dep, m.DependsOn x dep → P dep) → P x) (x : String) : P x := by
  obtain ⟨order, -, hperm, hbefore⟩ := topologicalOrder_spec hm
  have hall : ∀ l r, order = l ++ r → ∀ y ∈ l, P y := by
    intro l
    induction l using List.reverseRecOn with
    | nil => exact fun _ _ => List.forall_mem_nil _
    | append_singleton l z ih =>
        intro r hsplit y hy
        rw [List.append_assoc, List.singleton_append] at hsplit
        have hl := ih (z :: r) hsplit
        rcases List.mem_append.mp hy with hy | hy
        · exact hl y hy
        · rw [List.mem_singleton.mp hy]
          exact h z fun dep hdep => hl dep (hbefore l z r hsplit dep hdep)
  by_cases hx : x ∈ m.ids
  · exact hall order [] (List.append_nil order).symm x (hperm.mem_iff.mpr hx)
  · exact h x fun dep hdep => absurd (mem_ids_of_dependsOn hm.known hdep).1 hx

end Manifest

namespace Factory

namespace Rounds

open Relation Runs

section Statuses

variable {m : Manifest} {cfg : RunConfig} {now : String} {s s' : State} {x y : String}

/-- No transition sets a component going. -/
lemma change_status (v : Verdict) (c : Component) :
    (v.change now c).status ≠ .running ∧ (v.change now c).status ≠ .verifying ∧ (v.change now c).status ≠ .skipped := by
  cases v <;> exact ⟨by rintro ⟨⟩, by rintro ⟨⟩, by rintro ⟨⟩⟩

/-- What is in flight after a transition was so before it. -/
lemma flight_settle (hm : s.manifest.WellFormedGraph) (hx : x ∈ s.manifest.ids) (o : Outcome) {status : ComponentStatus}
    (hflight : status = .running ∨ status = .verifying) (hy : HasStatus (settle cfg now x o s).manifest status y) :
    y ≠ x ∧ HasStatus s.manifest status y := by
  obtain ⟨c, hc, happlied⟩ := @applied_settle cfg now s hm x hx o
  obtain ⟨d, hd, hstatus⟩ := hy
  have hne : y ≠ x := by
    rintro rfl
    rw [happlied.self, hc] at hd
    cases hd
    obtain ⟨hrunning, hverifying, -⟩ := @change_status now (resolve cfg c o) c
    rcases hflight with rfl | rfl
    · exact hrunning hstatus
    · exact hverifying hstatus
  refine ⟨hne, d, ?_, hstatus⟩
  rw [← hd]
  refine (happlied.others y hne fun hfails hchain => ?_).symm
  obtain ⟨e, he, -⟩ := open_of_chain hchain
  rw [happlied.skips hfails y hchain, he] at hd
  cases hd
  rcases hflight with rfl | rfl <;> cases hstatus

lemma hasStatus_update {f : Component → Component} (hf : ∀ c, (f c).id = c.id) {status : ComponentStatus}
    (hy : HasStatus (m.update x f) status y) :
    (y = x ∧ ∃ c, m.getComponent x = some c ∧ (f c).status = status) ∨ y ≠ x ∧ HasStatus m status y := by
  obtain ⟨d, hd, hstatus⟩ := hy
  rw [Manifest.getComponent_update hf] at hd
  split_ifs at hd with hxy
  · obtain ⟨c, hc, rfl⟩ := Option.map_eq_some_iff.mp hd
    exact .inl ⟨hxy, c, hxy ▸ hc, hstatus⟩
  · exact .inr ⟨hxy, d, hd, hstatus⟩

/-- **The rule of a contract round**: what every breaker that goes back or fails keeps, the round keeps. -/
lemma contractRound_rule {P : Manifest → Prop} (hn : s.manifest.ids.Nodup) (w : Phase3) (baseSha : String)
    (hstart : P s.manifest)
    (hreset : ∀ m id error, HasStatus m .completed id → P m → P (m.update id (retryBreaker error)))
    (hrecord : ∀ m id error check, HasStatus m .completed id → P m →
      P (m.update id (failAs now error "contract" check))) :
    P (contractRound cfg now w baseSha s).manifest := by
  rcases @contractRound_spec cfg now s hn w baseSha with ⟨s₁, hsteps, hround⟩ | ⟨s₁, hsteps, hround⟩ <;>
    rw [hround] <;> clear hround
  · show P s₁.manifest
    induction hsteps with
    | single h =>
        obtain ⟨id, c, error, h⟩ := h
        exact h.manifest ▸ hreset _ id error ⟨c, h.found, h.completed⟩ hstart
    | tail _ h ih =>
        obtain ⟨id, c, error, h⟩ := h
        exact h.manifest ▸ hreset _ id error ⟨c, h.found, h.completed⟩ ih
  · show P s₁.manifest
    induction hsteps with
    | refl => exact hstart
    | tail _ h ih =>
        obtain ⟨id, c, error, check, h⟩ := h
        exact h.manifest ▸ hrecord _ id error check ⟨c, h.found, h.completed⟩ ih

/-- A contract round sets nothing going. -/
lemma flight_contractRound (hm : s.manifest.WellFormedGraph) (w : Phase3) (baseSha : String) {status : ComponentStatus}
    (hflight : status = .running ∨ status = .verifying)
    (hy : HasStatus (contractRound cfg now w baseSha s).manifest status y) : HasStatus s.manifest status y := by
  refine contractRound_rule (P := fun m => HasStatus m status y → HasStatus s.manifest status y) hm.unique w baseSha
    id (fun m id error _ hkept hy => ?_) (fun m id error check _ hkept hy => ?_) hy
  · rcases hasStatus_update (f := retryBreaker error) (fun _ => rfl) hy with ⟨-, c, -, hstatus⟩ | ⟨-, hy⟩
    · rcases hflight with rfl | rfl <;> cases hstatus
    · exact hkept hy
  · rcases hasStatus_update (f := failAs now error "contract" check) (fun _ => rfl) hy with ⟨-, c, -, hstatus⟩ | ⟨-, hy⟩
    · rcases hflight with rfl | rfl <;> cases hstatus
    · exact hkept hy

/-- No component is pending with all its dependencies completed. -/
def NoneReady (m : Manifest) : Prop := ∀ x, ¬ Stands m .pending x

lemma noneReady_of_ready (h : m.getReadyComponents = []) : NoneReady m := by
  rintro x ⟨c, hc, hpending, hdeps⟩
  refine List.eq_nil_iff_forall_not_mem.mp h c (List.mem_filter.mpr ⟨List.mem_of_find?_eq_some hc, ?_⟩)
  refine decide_eq_true ⟨hpending, ?_⟩
  intro dep hdep
  obtain ⟨d, hd, hcompleted⟩ := hdeps dep hdep
  exact List.mem_map.mpr ⟨d, List.mem_filter.mpr ⟨List.mem_of_find?_eq_some hd, decide_eq_true hcompleted⟩,
    Manifest.getComponent_some_id hd⟩

/-- A component that fails makes none ready. -/
lemma noneReady_record (h : NoneReady m) (x error check : String) :
    NoneReady (m.update x (failAs now error "contract" check)) := by
  rintro y ⟨c, hc, hpending, hdeps⟩
  have hback : ∀ {status z}, status ≠ .failed → HasStatus (m.update x (failAs now error "contract" check)) status z →
      z ≠ x ∧ HasStatus m status z := by
    intro status z hne hz
    rcases hasStatus_update (f := failAs now error "contract" check) (fun _ => rfl) hz with ⟨-, d, -, hstatus⟩ | hz
    · exact absurd hstatus.symm hne
    · exact hz
  obtain ⟨hne, -⟩ := hback (by decide) ⟨c, hc, hpending⟩
  rw [Manifest.getComponent_update (f := failAs now error "contract" check) (fun _ => rfl), if_neg hne] at hc
  exact h y ⟨c, hc, hpending, fun dep hdep => (hback (by decide) (hdeps dep hdep)).2⟩

end Statuses

/-! ## What is in flight -/

section Flight

variable {cfg : RunConfig} {now : String} {s s' : State} {a : Action}

def InFlight (s : State) (x : String) : Prop :=
  x ∈ s.running ∨ ∃ ready transitioned, s.stage = .launching x ready transitioned

/-- The scheduler knows of everything that runs. -/
structure Tracked (s : State) : Prop where
  running : ∀ x, HasStatus s.manifest .running x → InFlight s x
  verifying : ∀ x, ¬ HasStatus s.manifest .verifying x
  ended : s.stage = .ended → s.running = []

/-- A step that leaves the statuses, and loses none of what runs. -/
lemma Tracked.of_same (h : Tracked s) (hmanifest : s'.manifest = s.manifest) (hrunning : ∀ x ∈ s.running, x ∈ s'.running)
    (hlaunched : ∀ x ready transitioned, s.stage = .launching x ready transitioned → x ∈ s'.running)
    (hended : s'.stage ≠ .ended) : Tracked s' where
  running x hx := by
    rw [hmanifest] at hx
    rcases h.running x hx with hmem | ⟨ready, transitioned, hstage⟩
    · exact .inl (hrunning x hmem)
    · exact .inl (hlaunched x ready transitioned hstage)
  verifying x hx := h.verifying x (hmanifest ▸ hx)
  ended hstage := absurd hstage hended

/-- A step that settles a component. -/
lemma Tracked.of_settle (cfg : RunConfig) (now : String) (h : Tracked s) (hm : s.manifest.WellFormedGraph) {x : String}
    (hx : x ∈ s.manifest.ids) (o : Outcome)
    (hmanifest : s'.manifest = (settle cfg now x o s).manifest) (hrunning : ∀ y ∈ s.running, y ≠ x → y ∈ s'.running)
    (hlaunched : ∀ y ready transitioned, s.stage = .launching y ready transitioned → y = x)
    (hended : s'.stage ≠ .ended) : Tracked s' where
  running y hy := by
    rw [hmanifest] at hy
    obtain ⟨hne, hy⟩ := flight_settle hm hx o (.inl rfl) hy
    rcases h.running y hy with hmem | ⟨ready, transitioned, hstage⟩
    · exact .inl (hrunning y hmem hne)
    · exact absurd (hlaunched y ready transitioned hstage) hne
  verifying y hy := by
    rw [hmanifest] at hy
    exact h.verifying y (flight_settle hm hx o (.inr rfl) hy).2
  ended hstage := absurd hstage hended

/-- **What runs is tracked** by every step. -/
lemma tracked_next (hsound : Sound s) (h : Tracked s) (hstep : next cfg s now a = some s') : Tracked s' := by
  have hplaced := hsound.placed
  unfold Placed at hplaced
  cases a with
  | repoll poll =>
      simp only [next] at hstep
      split at hstep <;> cases hstep
      rename_i x rest hstage
      rw [hstage] at hplaced
      have hx := hplaced.2 x List.mem_cons_self
      cases poll.outcome with
      | none => exact h.of_same rfl (fun _ hy => hy) (by simp [hstage]) (by simp)
      | some o =>
          refine h.of_settle cfg now hsound.graph hx o rfl (fun y hy _ => ?_) (by simp [hstage]) (by simp)
          rw [hplaced.1] at hy
          cases hy
  | decide decision =>
      simp only [next] at hstep
      split at hstep <;> cases hstep
      rename_i x rest hstage
      rw [hstage] at hplaced
      have hx := hplaced.2 x List.mem_cons_self
      cases decision.outcome with
      | none => exact h.of_same rfl (fun _ hy => hy) (by simp [hstage]) (by simp)
      | some o =>
          refine h.of_settle cfg now hsound.graph hx o rfl (fun y hy _ => ?_) (by simp [hstage]) (by simp)
          rw [hplaced.1] at hy
          cases hy
  | repolled | decided | ready | expired =>
      simp only [next] at hstep
      split at hstep <;> cases hstep
      rename_i hstage
      exact h.of_same rfl (fun _ hy => hy) (by simp [hstage]) (by simp)
  | stop =>
      simp only [next] at hstep
      split at hstep <;> cases hstep <;> rename_i hstage <;>
        exact h.of_same rfl (fun _ hy => hy) (by simp [hstage]) (by simp)
  | refuse error phase check =>
      simp only [next] at hstep
      split at hstep <;> cases hstep
      rename_i x rest transitioned hstage
      rw [hstage] at hplaced
      have hx := (hplaced.2 x List.mem_cons_self).mem_ids
      refine h.of_settle cfg now hsound.graph hx _ rfl (fun y hy _ => ?_) (by simp [hstage]) (by simp)
      exact (settle_running x _).symm ▸ hy
  | start =>
      simp only [next] at hstep
      split at hstep <;> cases hstep
      rename_i x rest transitioned hstage
      refine ⟨fun y hy => ?_, fun y hy => ?_, by simp⟩
      · rcases hasStatus_update (f := beginAttempt) (fun _ => rfl) hy with ⟨rfl, -⟩ | ⟨-, hy⟩
        · exact .inr ⟨rest, transitioned, rfl⟩
        · rcases h.running y hy with hmem | ⟨_, _, hlaunching⟩
          · exact .inl hmem
          · rw [hstage] at hlaunching
            cases hlaunching
      · rcases hasStatus_update (f := beginAttempt) (fun _ => rfl) hy with ⟨-, c, -, hstatus⟩ | ⟨-, hy⟩
        · cases hstatus
        · exact h.verifying y hy
  | settleEarly outcome =>
      simp only [next] at hstep
      split at hstep <;> cases hstep
      rename_i x rest transitioned hstage
      rw [hstage] at hplaced
      refine h.of_settle cfg now hsound.graph hplaced.1.mem_ids outcome rfl (fun y hy _ => ?_) ?_ (by simp)
      · exact (settle_running x _).symm ▸ hy
      · intro y _ _ hlaunching
        rw [hstage] at hlaunching
        cases hlaunching
        rfl
  | submit =>
      simp only [next] at hstep
      split at hstep <;> cases hstep
      rename_i x rest transitioned hstage
      refine h.of_same rfl (fun y hy => List.mem_append_left _ hy) ?_ (by simp)
      intro y _ _ hlaunching
      rw [hstage] at hlaunching
      cases hlaunching
      exact List.mem_append_right _ (List.mem_singleton.mpr rfl)
  | filled =>
      simp only [next] at hstep
      split at hstep
      · rename_i hstage
        split_ifs at hstep <;> cases hstep <;> exact h.of_same rfl (fun _ hy => hy) (by simp [hstage]) (by simp)
      · cases hstep
  | collect x outcome | expire x =>
      simp only [next] at hstep
      split at hstep
      all_goals first
        | cases hstep
        | rename_i hstage
          split_ifs at hstep with hx
          cases hstep
          refine h.of_settle cfg now hsound.graph (hsound.runs x hx).mem_ids _ rfl (fun y hy hne => ?_)
            (by simp [hstage]) (by simp)
          exact (hsound.once.mem_erase_iff).mpr ⟨hne, hy⟩
  | abort x reason =>
      simp only [next] at hstep
      split at hstep
      · rename_i hstage
        split_ifs at hstep with hx
        cases hstep
        refine h.of_settle cfg now hsound.graph (hsound.runs x hx).mem_ids _ rfl (fun y hy hne => ?_)
          (by simp [hstage]) (by simp)
        exact (hsound.once.mem_erase_iff).mpr ⟨hne, hy⟩
      · cases hstep
  | aborted =>
      simp only [next] at hstep
      split at hstep
      · rename_i hstage
        split_ifs at hstep with hidle
        cases hstep
        refine ⟨fun y hy => ?_, h.verifying, fun _ => hidle⟩
        rcases h.running y hy with hmem | ⟨_, _, hlaunching⟩
        · exact .inl hmem
        · rw [hstage] at hlaunching
          cases hlaunching
      · cases hstep
  | contract w baseSha =>
      simp only [next] at hstep
      split at hstep
      · rename_i hstage
        rw [hstage] at hplaced
        cases hstep
        refine ⟨fun y hy => ?_, fun y hy => h.verifying y (flight_contractRound hsound.graph w baseSha (.inr rfl) hy),
          fun _ => ?_⟩
        · rcases h.running y (flight_contractRound hsound.graph w baseSha (.inl rfl) hy) with hmem | ⟨_, _, hlaunching⟩
          · rw [hplaced] at hmem
            cases hmem
          · rw [hstage] at hlaunching
            cases hlaunching
        · rcases @contractRound_spec cfg now s hsound.graph.unique w baseSha with
            ⟨s₁, hsteps, hround⟩ | ⟨s₁, hsteps, hround⟩
          · rw [hround]
            exact (graph_reset hsound.graph hsteps).2.trans hplaced
          · rw [hround]
            exact (graph_record hsound.graph hsteps).2.trans hplaced
      · cases hstep
  | skipContract =>
      simp only [next] at hstep
      split at hstep <;> cases hstep
      rename_i hstage
      rw [hstage] at hplaced
      refine ⟨fun y hy => ?_, h.verifying, fun _ => hplaced⟩
      rcases h.running y hy with hmem | ⟨_, _, hlaunching⟩
      · exact .inl hmem
      · rw [hstage] at hlaunching
        cases hlaunching

lemma tracked_init (m : Manifest) : Tracked (init m) := by
  have hidle : ∀ {status x}, status = .running ∨ status = .verifying → ¬ HasStatus (init m).manifest status x := by
    rintro status x hflight ⟨c, hc, hstatus⟩
    have hget := Manifest.getComponent_updateAll (m := m) (f := fun c => { c with status := .pending }) (fun _ => rfl)
      (idsIn m .running ++ idsIn m .verifying) x
    rw [init, resumed, hget] at hc
    obtain ⟨d, hd, rfl⟩ := Option.map_eq_some_iff.mp hc
    split_ifs at hstatus with hreset
    · rcases hflight with rfl | rfl <;> cases hstatus
    · refine hreset (List.mem_append.mpr ?_)
      have hmem := List.mem_of_find?_eq_some hd
      rcases hflight with rfl | rfl
      · exact .inl (List.mem_map.mpr ⟨d, List.mem_filter.mpr ⟨hmem, decide_eq_true hstatus⟩, rfl⟩)
      · exact .inr (List.mem_map.mpr ⟨d, List.mem_filter.mpr ⟨hmem, decide_eq_true hstatus⟩, rfl⟩)
  exact ⟨fun _ hx => absurd hx (hidle (.inl rfl)), fun _ => hidle (.inr rfl), fun hstage => by cases hstage⟩

end Flight

/-! ## The end of the pass -/

section Pass

variable {cfg : RunConfig} {now : String} {s s' : State} {a : Action}

/-- The operator or a signal stops the run. -/
def Action.stops : Action → Bool
  | .stop => true
  | _ => false

/-- The pass ends with nothing ready. -/
def Exhausted (s : State) : Prop :=
  match s.stage with
  | .filling [] false => s.running = [] → NoneReady s.manifest
  | .contract | .ended => NoneReady s.manifest
  | .aborting => False
  | _ => True

lemma exhausted_transitioned {ready : List String} (hstage : s.stage = .filling ready true) : Exhausted s := by
  rw [Exhausted, hstage]
  cases ready <;> trivial

lemma noneReady_records (h : NoneReady s.manifest) (hsteps : ReflTransGen (Record now) s s') :
    NoneReady s'.manifest := by
  induction hsteps with
  | refl => exact h
  | tail _ hrecord ih =>
      obtain ⟨id, c, error, check, hrecord⟩ := hrecord
      exact hrecord.manifest ▸ noneReady_record ih id error check

/-- **No step but a stop** leaves a component ready at the end of the pass. -/
lemma exhausted_next (hsound : Sound s) (h : Exhausted s) (hstop : a.stops = false) (hstep : next cfg s now a = some s') :
    Exhausted s' := by
  unfold Exhausted at h
  cases a with
  | stop => cases hstop
  | repoll _ | repolled | decide _ | decided | start | expired =>
      simp only [next] at hstep
      split at hstep <;> cases hstep
      trivial
  | refuse _ _ _ | settleEarly _ =>
      simp only [next] at hstep
      split at hstep <;> cases hstep
      exact exhausted_transitioned rfl
  | ready =>
      simp only [next] at hstep
      split at hstep <;> cases hstep
      unfold Exhausted
      dsimp only
      split
      · rename_i hstage
        intro hidle
        rw [Stage.filling.injEq, List.map_eq_nil_iff, List.take_eq_nil_iff] at hstage
        rcases hstage.1 with hslots | hready
        · rw [hidle, List.length_nil, Nat.sub_zero, RunConfig.slotsCap] at hslots
          omega
        · exact noneReady_of_ready hready
      all_goals trivial
  | submit =>
      simp only [next] at hstep
      split at hstep <;> cases hstep
      unfold Exhausted
      dsimp only
      split
      · intro hidle
        exact absurd hidle (List.append_ne_nil_of_right_ne_nil _ (List.cons_ne_nil _ _))
      all_goals trivial
  | filled =>
      simp only [next] at hstep
      split at hstep
      · rename_i transitioned hstage
        split_ifs at hstep with hrunning htransitioned <;> cases hstep
        · trivial
        · trivial
        · rw [Bool.not_eq_true] at htransitioned
          rw [hstage, htransitioned] at h
          exact h (not_not.mp hrunning)
      · cases hstep
  | collect x outcome | expire x =>
      simp only [next] at hstep
      split at hstep
      all_goals first
        | cases hstep
        | split_ifs at hstep
          cases hstep
          trivial
  | abort x reason | aborted =>
      simp only [next] at hstep
      split at hstep
      · rename_i hstage
        rw [hstage] at h
        exact h.elim
      · cases hstep
  | contract w baseSha =>
      simp only [next] at hstep
      split at hstep
      · rename_i hstage
        rw [hstage] at h
        cases hstep
        rcases @contractRound_spec cfg now s hsound.graph.unique w baseSha with
          ⟨s₁, hsteps, hround⟩ | ⟨s₁, hsteps, hround⟩ <;>
          rw [hround]
        · trivial
        · show NoneReady s₁.manifest
          exact noneReady_records h hsteps
      · cases hstep
  | skipContract =>
      simp only [next] at hstep
      split at hstep <;> cases hstep
      rename_i hstage
      rw [hstage] at h
      exact h

end Pass

/-! ## Whole runs -/

section Runs

variable {cfg : RunConfig} {m : Manifest} {s : State}

lemma tracked_run (hm : m.validateDag = []) (hrun : Reaches (Step cfg) Always (init m) s) : Sound s ∧ Tracked s := by
  have hgraph := Manifest.validateDag_eq_nil.mp hm
  refine hrun.invariant (I := fun t => Sound t ∧ Tracked t) ⟨sound_init hgraph, tracked_init m⟩ ?_
  rintro t a u ⟨hsound, htracked⟩ - hstep
  exact ⟨sound_next hsound hstep, tracked_next hsound htracked hstep⟩

/-- **At the end of every run nothing is in flight**, however its attempts went and whether or not it was stopped. -/
theorem none_in_flight (hm : m.validateDag = []) (hrun : Reaches (Step cfg) Always (init m) s) (hend : s.stage = .ended) :
    ∀ c ∈ s.manifest.components, c.status ≠ .running ∧ c.status ≠ .verifying := by
  obtain ⟨hsound, htracked⟩ := tracked_run hm hrun
  intro c hc
  have hget := Manifest.getComponent_id hsound.graph.unique hc
  refine ⟨fun hrunning => ?_, fun hverifying => htracked.verifying c.id ⟨c, hget, hverifying⟩⟩
  rcases htracked.running c.id ⟨c, hget, hrunning⟩ with hmem | ⟨ready, transitioned, hstage⟩
  · rw [htracked.ended hend] at hmem
    cases hmem
  · rw [hend] at hstage
    cases hstage

/-- What keeps a dependent from being scheduled until someone acts. -/
def causes : List ComponentStatus := [.failed, .skipped, .mergePending, .awaitingApproval]

/-- **A run that ends by itself leaves nothing that could still run**: a component that is still pending waits, over a
chain of dependencies, for one that failed, was skipped or is parked. -/
theorem waits_for_cause (hm : m.validateDag = []) (hrun : Reaches (Step cfg) (fun _ a => a.2.stops = false) (init m) s)
    (hend : s.stage = .ended) : ∀ c ∈ s.manifest.components, c.status = .pending →
      ∃ d ∈ s.manifest.components, TransGen s.manifest.DependsOn c.id d.id ∧ d.status ∈ causes := by
  obtain ⟨hsound, htracked⟩ := tracked_run hm (hrun.mono fun _ _ _ => trivial)
  have hexhausted : Sound s ∧ Exhausted s := by
    refine hrun.invariant (I := fun t => Sound t ∧ Exhausted t)
      ⟨sound_init (Manifest.validateDag_eq_nil.mp hm), trivial⟩ ?_
    rintro t a u ⟨ht, hpass⟩ hstop hstep
    exact ⟨sound_next ht hstep, exhausted_next ht hpass hstop hstep⟩
  have hnone : NoneReady s.manifest := by
    have hpass := hexhausted.2
    rw [Exhausted, hend] at hpass
    exact hpass
  -- along the dependencies: the first of them that has not completed is the cause, or waits for one itself
  have hall : ∀ x, HasStatus s.manifest .pending x →
      ∃ d ∈ s.manifest.components, TransGen s.manifest.DependsOn x d.id ∧ d.status ∈ causes := by
    refine hsound.graph.induction fun x ih hx => ?_
    obtain ⟨c, hc, hpending⟩ := hx
    have hwaits : ∃ dep ∈ c.dependencies, ¬ HasStatus s.manifest .completed dep := by
      by_contra hcompleted
      refine hnone x ⟨c, hc, hpending, fun dep hdep => ?_⟩
      by_contra hnot
      exact hcompleted ⟨dep, hdep, hnot⟩
    obtain ⟨dep, hdep, hopen⟩ := hwaits
    have hmem := List.mem_of_find?_eq_some hc
    have hedge : s.manifest.DependsOn x dep := ⟨c, hmem, Manifest.getComponent_some_id hc, hdep⟩
    obtain ⟨d, hd⟩ := Manifest.exists_getComponent (hsound.graph.known c hmem dep hdep)
    have hin := List.mem_of_find?_eq_some hd
    have hid := Manifest.getComponent_some_id hd
    have hflight := none_in_flight hm (hrun.mono fun _ _ _ => trivial) hend d hin
    have hcause : d.status ∈ causes →
        ∃ d ∈ s.manifest.components, TransGen s.manifest.DependsOn x d.id ∧ d.status ∈ causes :=
      fun hstatus => ⟨d, hin, hid.symm ▸ .single hedge, hstatus⟩
    cases hstatus : d.status with
    | pending =>
        obtain ⟨e, he, hchain, hcause⟩ := ih dep hedge ⟨d, hd, hstatus⟩
        exact ⟨e, he, .head hedge hchain, hcause⟩
    | running => exact absurd hstatus hflight.1
    | verifying => exact absurd hstatus hflight.2
    | completed => exact absurd ⟨d, hd, hstatus⟩ hopen
    | failed | skipped | mergePending | awaitingApproval => exact hcause (by rw [hstatus]; decide)
  exact fun c hc hpending => hall c.id ⟨c, Manifest.getComponent_id hsound.graph.unique hc, hpending⟩

end Runs

/-! ### A parked component -/

/-- `api` is parked for its merge, and the contract round finds nothing to test. -/
def apiParks : List Action :=
  [.repolled, .decided] ++ attempt "api" (.mergePending "checks pending") ++ [.ready, .filled, .contract apiBreaks ""]

/-- **A stop in mid-flight**: `api` is failed, and nothing runs on. -/
theorem none_in_flight_stopped :
    ∃ s, Reaches (Step oneRetry) Always (init apiThenWeb) s ∧ s.stage = .ended ∧
      ∀ c ∈ s.manifest.components, c.status ≠ .running ∧ c.status ≠ .verifying := by
  have hended : ((timed [.repolled, .decided, .ready, .start, .submit, .filled, .stop, .abort "api" "SIGINT",
      .aborted]).foldlM (fun s a => next oneRetry s a.1 a.2) (init apiThenWeb)).map (fun s => s.stage) =
        some .ended := by decide +kernel
  obtain ⟨s, hrun, hs⟩ := Option.map_eq_some_iff.mp hended
  have hreaches : Reaches (Step oneRetry) Always (init apiThenWeb) s := Reaches.of_foldlM hrun
  exact ⟨s, hreaches, hs, none_in_flight (by decide +kernel) hreaches hs⟩

/-- **`web` waits for the merge of `api`.** -/
theorem waits_for_cause_parked :
    ∃ s, Reaches (Step oneRetry) (fun _ a => a.2.stops = false) (init apiThenWeb) s ∧ s.stage = .ended ∧
      (∃ c ∈ s.manifest.components, c.id = "web" ∧ c.status = .pending) ∧
      ∀ c ∈ s.manifest.components, c.status = .pending →
        ∃ d ∈ s.manifest.components, TransGen s.manifest.DependsOn c.id d.id ∧ d.status ∈ causes := by
  have hended : ((timed apiParks).foldlM (fun s a => if a.2.stops = false then next oneRetry s a.1 a.2 else none)
      (init apiThenWeb)).map (fun s => (s.stage,
        s.manifest.components.any fun c => c.id = "web" && c.status = .pending)) = some (.ended, true) := by
    decide +kernel
  obtain ⟨s, hrun, hs⟩ := Option.map_eq_some_iff.mp hended
  obtain ⟨hstage, hweb⟩ := Prod.mk.inj hs
  have hreaches : Reaches (Step oneRetry) (fun _ a => a.2.stops = false) (init apiThenWeb) s :=
    Reaches.of_foldlM_if hrun
  obtain ⟨c, hc, hpending⟩ := List.any_eq_true.mp hweb
  rw [Bool.and_eq_true, decide_eq_true_eq, decide_eq_true_eq] at hpending
  exact ⟨s, hreaches, hstage, ⟨c, hc, hpending⟩, waits_for_cause (by decide +kernel) hreaches hstage⟩

end Rounds

end Factory

end Kstrl
