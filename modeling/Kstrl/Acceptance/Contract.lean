import Kstrl.Plan.Manifest

/-!
# Contract testing and its blame

Phase 3 merges the branches of the completed components tier by tier in a throwaway worktree and
runs the checks there; a tier that fails is bisected (`kstrl/acceptance/contract.py`).

Git, the worktree setup and the checks come in through `Phase3`, as functions of the branches merged
onto the base, in order.  A tree is that list of branches.

* **`bisectBreaker`** merges a tier's branches one at a time and names the first one whose checks
  fail.  It runs no check before the first merge.
* **`bisectLoop_blames`** is what one bisection proves about its breaker.
* **`contract_blame_iff`** is the whole of a contract round: a bisected breaker turned a passing tree
  into a failing one exactly when the tree before the tier passes, or the tree with the tier's first
  branch does.
-/

namespace Kstrl

/-- What the checks say about one tree. -/
structure CheckResult where
  passed : Bool
  output : String := ""
  heldOut : List String := []
  carriedFailed : List (List (String × String)) := []

/-- The outside of Phase 3. -/
structure Phase3 where
  /-- why the worktree of this name cannot be created for this tier, if so -/
  worktreeError : String → ℕ → Option String
  /-- whether that worktree survives its removal -/
  survives : String → ℕ → Bool
  /-- whether a branch merges into the tree -/
  mergeBranch : List String → String → Bool
  /-- the error text of the worktree setup -/
  prepare : List String → String
  /-- `_run_checks`, given the tree and the ids of the merged components -/
  runChecks : List String → List String → CheckResult
  /-- the integrated check of a base commit, given the ids -/
  runBaseChecks : String → List String → CheckResult
  prepareBase : String → String

inductive ContractMode where
  | tier
  | final
  | skip
  deriving DecidableEq, Repr

/-- The result of a contract test for one tier or for the final merge. -/
structure ContractResult where
  passed : Bool
  tier : ℕ
  componentsTested : List String
  breaker : Option String := none
  testOutput : String := ""
  testedSha : String := ""
  heldOut : List String := []
  carriedFailed : List (List (String × String)) := []

/-- A component of a tier with its branch. -/
abbrev TierBranch : Type := String × String

section Phase

variable (w : Phase3)

/-- `output[:2000]`. -/
def clipped (output : String) : String := String.ofList (output.toList.take 2000)

/-- Leave a worktree behind: an error if it survives its removal. -/
def removeWorktree (label : String) (tierIndex : ℕ) : Except String Unit :=
  if w.survives label tierIndex then .error ("contract worktree " ++ label ++ " survived removal")
  else .ok ()

/-- Merge branches in order; the first that conflicts. -/
def mergeAll : List String → List String → Except String (List String)
  | tree, [] => .ok tree
  | tree, branch :: rest =>
      if w.mergeBranch tree branch then mergeAll (tree ++ [branch]) rest else .error branch

/-- Merge the tier one at a time, check after each. -/
def bisectLoop : List String → List String → List TierBranch → Option String
  | _, _, [] => none
  | tree, merged, (compId, branch) :: rest =>
      if w.mergeBranch tree branch = false then some compId
      else if w.prepare (tree ++ [branch]) ≠ "" then none
      else if (w.runChecks (tree ++ [branch]) (merged ++ [compId])).passed = false then some compId
      else bisectLoop (tree ++ [branch]) (merged ++ [compId]) rest

/-- The bisection inside its worktree: the prior branches first. -/
def bisectTree (priorBranches : List String) (tierBranches : List TierBranch)
    (mergedBefore : List String) : Option String :=
  match mergeAll w [] priorBranches with
  | .error _ => none
  | .ok tree => bisectLoop w tree mergedBefore tierBranches

/-- Linear bisection: which component broke the integration. -/
def bisectBreaker (tierIndex : ℕ) (priorBranches : List String) (tierBranches : List TierBranch)
    (mergedBefore : List String) : Except String (Option String) :=
  if (w.worktreeError "bisect" tierIndex).isSome then .ok none
  else do
    removeWorktree w "bisect" tierIndex
    .ok (bisectTree w priorBranches tierBranches mergedBefore)

variable (m : Manifest)

/-- The ids of the components whose branches are among `branches`. -/
def idsOf (branches : List String) : List String :=
  (m.components.filter fun c => c.branchName ∈ branches).map (·.id)

/-- The known components of a tier with their branches. -/
def tierBranchesOf (tierComponentIds : List String) : List TierBranch :=
  tierComponentIds.filterMap fun cid => (m.getComponent cid).map fun c => (cid, c.branchName)

/-- The tier whose merge conflicts first. -/
def conflictOf : List String → List TierBranch → Option TierBranch
  | _, [] => none
  | tree, tb :: rest =>
      if w.mergeBranch tree tb.2 then conflictOf (tree ++ [tb.2]) rest else some tb

/-- The part of a tier check that runs in the tier's own worktree: a result, or the verdict of the
    checks that has to be bisected. -/
def tierTree (tierIndex : ℕ) (tierBranches : List TierBranch) (priorBranches : List String) :
    ContractResult ⊕ CheckResult :=
  let tested := tierBranches.map (·.1)
  match mergeAll w [] priorBranches with
  | .error branch => .inl {
      passed := false, tier := tierIndex, componentsTested := tested
      testOutput := "Merge conflict with prior branch: " ++ branch }
  | .ok tree =>
      match conflictOf w tree tierBranches with
      | some (compId, branch) => .inl {
          passed := false, tier := tierIndex, componentsTested := tested, breaker := some compId
          testOutput := "Merge conflict with " ++ compId ++ " (" ++ branch ++ ")" }
      | none =>
          let all := tree ++ tierBranches.map (·.2)
          if w.prepare all ≠ "" then .inl {
            passed := false, tier := tierIndex, componentsTested := tested
            testOutput := clipped (w.prepare all) }
          else
            let result := w.runChecks all (idsOf m priorBranches ++ tested)
            if result.passed then .inl {
              passed := true, tier := tierIndex, componentsTested := tested
              testOutput := clipped result.output }
            else .inr result

/-- The contract test of one tier. -/
def runTierCheck (tierComponentIds priorBranches : List String) (tierIndex : ℕ) :
    Except String ContractResult :=
  let tierBranches := tierBranchesOf m tierComponentIds
  let tested := tierBranches.map (·.1)
  let label := "tier" ++ toString tierIndex
  match w.worktreeError label tierIndex with
  | some error => .ok {
      passed := false, tier := tierIndex, componentsTested := tested
      testOutput := "Failed to create contract worktree: " ++ error }
  | none => do
      let outcome := tierTree w m tierIndex tierBranches priorBranches
      removeWorktree w label tierIndex
      match outcome with
      | .inl result => .ok result
      | .inr result =>
          let breaker ← bisectBreaker w tierIndex priorBranches tierBranches
            (idsOf m priorBranches)
          .ok { passed := false, tier := tierIndex, componentsTested := tested, breaker := breaker,
                testOutput := clipped result.output, heldOut := result.heldOut,
                carriedFailed := result.carriedFailed }

/-- The checks of a base commit, or the error of its setup. -/
def baseResult (componentIds : List String) (baseSha : String) : CheckResult :=
  if w.prepareBase baseSha = "" then w.runBaseChecks baseSha componentIds
  else { passed := false, output := w.prepareBase baseSha }

/-- The contract check of components that are merged already: no blame. -/
def runIntegratedBaseCheck (componentIds : List String) (baseSha : String) :
    Except String ContractResult :=
  if baseSha = "" then .ok {
    passed := false, tier := 0, componentsTested := componentIds
    testOutput := "The base branch '" ++ m.baseBranch ++ "' did not resolve to a commit for this " ++
      "round, so nothing was tested" }
  else match w.worktreeError "integrated" 0 with
    | some error => .ok {
        passed := false, tier := 0, componentsTested := componentIds
        testOutput := "Failed to create contract worktree: " ++ error, testedSha := baseSha }
    | none => do
        removeWorktree w "integrated" 0
        .ok { passed := (baseResult w componentIds baseSha).passed
              tier := 0, componentsTested := componentIds, testedSha := baseSha
              testOutput := clipped (baseResult w componentIds baseSha).output
              carriedFailed := (baseResult w componentIds baseSha).carriedFailed }

def completedIds : List String := (m.components.filter (·.status = .completed)).map (·.id)

/-- The branches a tier adds to those merged before the next one. -/
def branchesOf (tierCompleted : List String) : List String :=
  tierCompleted.filterMap fun cid => (m.getComponent cid).map (·.branchName)

/-- Tier-by-tier testing.  A failed tier does not stop the loop, and its branches stay. -/
def tierByTier (priorBranches : List String) :
    List (List String × ℕ) → Except String (List ContractResult)
  | [] => .ok []
  | (tier, tierIndex) :: rest =>
      let tierCompleted := tier.filter (· ∈ completedIds m)
      if tierCompleted = [] then tierByTier priorBranches rest
      else do
        let result ← runTierCheck w m tierCompleted priorBranches tierIndex
        let results ← tierByTier (priorBranches ++ branchesOf m tierCompleted) rest
        .ok (result :: results)

/-- The tests of the completed components, given the tiers. -/
def testTiers (mode : ContractMode) (componentsMerged : Bool) (baseSha : String)
    (tiers : List (List String)) : Except String (List ContractResult) :=
  let ordered := tiers.flatten.filter (· ∈ completedIds m)
  if componentsMerged then do
    let result ← runIntegratedBaseCheck w m ordered baseSha
    .ok [result]
  else if mode = .final then do
    let result ← runTierCheck w m ((tierBranchesOf m ordered).map (·.1)) [] 0
    .ok [result]
  else tierByTier w m [] tiers.zipIdx

/-- Run contract testing across the tiers of the graph. -/
def runContractTesting (mode : ContractMode) (componentsMerged : Bool) (baseSha : String) :
    Except String (List ContractResult) :=
  if mode = .skip then .ok []
  else if completedIds m = [] then .ok []
  else do
    let tiers ← m.computeTiers
    testTiers w m mode componentsMerged baseSha tiers

end Phase

/-! ## What a bisection proves -/

section Blame

variable {w : Phase3} {m : Manifest}

/-- The checks on the tree that holds `tree` and the branches of `part`, given the ids merged
    before. -/
def passesAt (w : Phase3) (tree mergedBefore : List String) (part : List TierBranch) : Prop :=
  (w.runChecks (tree ++ part.map (·.2)) (mergedBefore ++ part.map (·.1))).passed = true

/-- **The blame is earned**: `c` is in the tier, the tree with the branches before it passes and
    the tree with `c` fails. -/
def Earned (w : Phase3) (tree mergedBefore : List String) (tier : List TierBranch) (c : String) :
    Prop :=
  ∃ before branch after, tier = before ++ (c, branch) :: after ∧
    passesAt w tree mergedBefore before ∧ ¬ passesAt w tree mergedBefore (before ++ [(c, branch)])

lemma passesAt_cons {tree merged : List String} {tb : TierBranch} {part : List TierBranch} :
    passesAt w (tree ++ [tb.2]) (merged ++ [tb.1]) part ↔ passesAt w tree merged (tb :: part) := by
  simp [passesAt]

lemma conflictOf_cons {tree : List String} {tb : TierBranch} {rest : List TierBranch}
    (h : conflictOf w tree (tb :: rest) = none) :
    w.mergeBranch tree tb.2 = true ∧ conflictOf w (tree ++ [tb.2]) rest = none := by
  rw [conflictOf] at h
  split_ifs at h with hm
  exact ⟨hm, h⟩

/-- **What a breaker of a tier that merges cleanly is.**  A later component is blamed after the tree
    before it was checked and passed; of the first one only the failure with it is known. -/
lemma bisectLoop_blames {tree merged : List String} {tier : List TierBranch} {c : String}
    (hclean : conflictOf w tree tier = none) (h : bisectLoop w tree merged tier = some c) :
    (∃ branch after, tier = (c, branch) :: after ∧ ¬ passesAt w tree merged [(c, branch)]) ∨
      ∃ first rest, tier = first :: rest ∧ passesAt w tree merged [first] ∧
        Earned w tree merged tier c := by
  induction tier generalizing tree merged with
  | nil => cases h
  | cons tb rest ih =>
      obtain ⟨compId, branch⟩ := tb
      obtain ⟨hmerge, hclean⟩ := conflictOf_cons hclean
      rw [bisectLoop, if_neg (by simp [hmerge])] at h
      split_ifs at h with _ hfail
      · cases h
        exact Or.inl ⟨branch, rest, rfl, by simpa [passesAt] using hfail⟩
      · have hfirst : passesAt w tree merged [(compId, branch)] := by simpa [passesAt] using hfail
        refine Or.inr ⟨_, rest, rfl, hfirst, ?_⟩
        rcases ih hclean h with ⟨b, after, rfl, hnot⟩ | ⟨_, _, _, _, before, b, after, he, hp, hn⟩
        · refine ⟨[(compId, branch)], b, after, rfl, hfirst, ?_⟩
          rwa [List.singleton_append, ← passesAt_cons]
        · subst he
          refine ⟨(compId, branch) :: before, b, after, rfl, passesAt_cons.mp hp, ?_⟩
          rwa [List.cons_append, ← passesAt_cons]

/-- The tree before the tier passes, or the tree with its first branch does. -/
def Grounded (w : Phase3) (tree mergedBefore : List String) (tier : List TierBranch) : Prop :=
  passesAt w tree mergedBefore [] ∨ ∃ first ∈ tier.head?, passesAt w tree mergedBefore [first]

/-- **One bisection**: the blame is earned exactly when the tier is grounded.  The ids of a tier are
    distinct. -/
theorem bisect_earned_iff {tree merged : List String} {tier : List TierBranch} {c : String}
    (hids : (tier.map (·.1)).Nodup) (hclean : conflictOf w tree tier = none)
    (h : bisectLoop w tree merged tier = some c) :
    Earned w tree merged tier c ↔ Grounded w tree merged tier := by
  rcases bisectLoop_blames hclean h with ⟨branch, after, rfl, hnot⟩ | ⟨first, rest, rfl, hfirst, he⟩
  · constructor
    · rintro ⟨before, b, after', hsplit, hp, hn⟩
      cases before with
      | nil => exact Or.inl hp
      | cons x before =>
          -- `c` stands first, so it stands nowhere else
          obtain ⟨rfl, hafter⟩ := List.cons.inj hsplit
          rw [hafter, List.map_cons, List.nodup_cons] at hids
          exact absurd (by simp) hids.1
    · rintro (hbase | ⟨first, hf, hp⟩)
      · exact ⟨[], branch, after, rfl, hbase, hnot⟩
      · simp only [List.head?_cons, Option.mem_def, Option.some.injEq] at hf
        subst hf
        exact absurd hp hnot
  · exact ⟨fun _ => Or.inr ⟨first, rfl, hfirst⟩, fun _ => he⟩

end Blame

/-! ## The tiers hold no id twice -/

section Tiers

variable {m : Manifest}

/-- What a release keeps: a node that was let go stays at zero or below. -/
lemma release_keeps (l : List String) (acc : (String → ℤ) × List String)
    (hout : ∀ x ∈ acc.2, acc.1 x ≤ 0) (hnodup : acc.2.Nodup) :
    (∀ x, (l.foldl Kahn.release acc).1 x ≤ acc.1 x) ∧
      (∀ x ∈ (l.foldl Kahn.release acc).2, (l.foldl Kahn.release acc).1 x ≤ 0 ∧
        (x ∈ acc.2 ∨ 0 < acc.1 x)) ∧
      (l.foldl Kahn.release acc).2.Nodup := by
  induction l generalizing acc with
  | nil => exact ⟨fun x => le_refl _, fun x hx => ⟨hout x hx, Or.inl hx⟩, hnodup⟩
  | cons a l ih =>
      have hle : ∀ x, (Kahn.release acc a).1 x ≤ acc.1 x := by
        intro x
        by_cases h : x = a
        · subst h
          simp only [Kahn.release, Function.update_self]
          omega
        · simp [Kahn.release, Function.update_of_ne h]
      have hmem : ∀ x, x ∈ (Kahn.release acc a).2 ↔ x ∈ acc.2 ∨ (x = a ∧ acc.1 a = 1) := by
        intro x
        by_cases h : acc.1 a - 1 = 0
        · simp [Kahn.release, show acc.1 a = 1 by omega]
        · simp [Kahn.release, h, show ¬ acc.1 a = 1 by omega]
      have hfresh : acc.1 a = 1 → a ∉ acc.2 := fun h ha => by
        have := hout a ha
        omega
      obtain ⟨h1, h2, h3⟩ := ih (Kahn.release acc a)
        (fun x hx => by
          rcases (hmem x).mp hx with hx | ⟨rfl, h⟩
          · exact le_trans (hle x) (hout x hx)
          · simp [Kahn.release, h])
        (by
          by_cases h : acc.1 a - 1 = 0
          · rw [show (Kahn.release acc a).2 = acc.2 ++ [a] from if_pos h]
            exact List.nodup_append.mpr ⟨hnodup, List.nodup_singleton a, fun x hx y hy he =>
              hfresh (by omega) (List.mem_singleton.mp hy ▸ he ▸ hx)⟩
          · rw [show (Kahn.release acc a).2 = acc.2 from if_neg h]
            exact hnodup)
      refine ⟨fun x => le_trans (h1 x) (hle x), fun x hx => ⟨(h2 x hx).1, ?_⟩, h3⟩
      rcases (h2 x hx).2 with hx' | hpos
      · rcases (hmem x).mp hx' with h | ⟨rfl, h⟩
        · exact Or.inl h
        · exact Or.inr (by omega)
      · exact Or.inr (lt_of_lt_of_le hpos (hle x))

/-- One level. -/
lemma tierVisit_keeps (current : List String) (acc : (String → ℤ) × List String)
    (hout : ∀ x ∈ acc.2, acc.1 x ≤ 0) (hnodup : acc.2.Nodup) :
    (∀ x, (current.foldl m.tierVisit acc).1 x ≤ acc.1 x) ∧
      (∀ x ∈ (current.foldl m.tierVisit acc).2, (current.foldl m.tierVisit acc).1 x ≤ 0 ∧
        (x ∈ acc.2 ∨ 0 < acc.1 x)) ∧
      (current.foldl m.tierVisit acc).2.Nodup := by
  induction current generalizing acc with
  | nil => exact ⟨fun x => le_refl _, fun x hx => ⟨hout x hx, Or.inl hx⟩, hnodup⟩
  | cons a current ih =>
      obtain ⟨h1, h2, h3⟩ := release_keeps (m.dependents a) acc hout hnodup
      obtain ⟨k1, k2, k3⟩ := ih (m.tierVisit acc a) (fun x hx => (h2 x hx).1) h3
      refine ⟨fun x => le_trans (k1 x) (h1 x), fun x hx => ⟨(k2 x hx).1, ?_⟩, k3⟩
      rcases (k2 x hx).2 with hx' | hpos
      · exact (h2 x hx').2
      · exact Or.inr (lt_of_lt_of_le hpos (h1 x))

lemma tiersFrom_nodup (fuel : ℕ) (f : String → ℤ) (current : List String)
    (hcur : ∀ x ∈ current, f x ≤ 0) (hnodup : current.Nodup) :
    (m.tiersFrom fuel f current).flatten.Nodup ∧
      ∀ x ∈ (m.tiersFrom fuel f current).flatten, x ∈ current ∨ 0 < f x := by
  induction fuel generalizing f current with
  | zero => simp [Manifest.tiersFrom]
  | succ fuel ih =>
      cases current with
      | nil => simp [Manifest.tiersFrom]
      | cons a current =>
          obtain ⟨h1, h2, h3⟩ := tierVisit_keeps (m := m) (a :: current) (f, [])
            (fun x hx => by cases hx) List.nodup_nil
          obtain ⟨ih1, ih2⟩ := ih _ _ (fun x hx => (h2 x hx).1) h3
          have hsorted : ∀ x, x ∈ Manifest.sortedIds (a :: current) ↔ x ∈ a :: current := fun x =>
            (List.perm_insertionSort _ _).mem_iff
          have hlater : ∀ x ∈ (m.tiersFrom fuel ((a :: current).foldl m.tierVisit (f, [])).1
              ((a :: current).foldl m.tierVisit (f, [])).2).flatten, 0 < f x := by
            intro x hx
            rcases ih2 x hx with hx | hpos
            · exact ((h2 x hx).2).resolve_left fun h => by cases h
            · exact lt_of_lt_of_le hpos (h1 x)
          rw [show m.tiersFrom (fuel + 1) f (a :: current) = Manifest.sortedIds (a :: current) ::
            m.tiersFrom fuel ((a :: current).foldl m.tierVisit (f, [])).1
              ((a :: current).foldl m.tierVisit (f, [])).2 from rfl, List.flatten_cons]
          refine ⟨List.nodup_append.mpr ⟨?_, ih1, fun x hx y hy he => ?_⟩, fun x hx => ?_⟩
          · exact (List.perm_insertionSort _ _).nodup_iff.mpr hnodup
          · have := hcur x ((hsorted x).mp hx)
            have := hlater y hy
            subst he
            omega
          · rcases List.mem_append.mp hx with hx | hx
            · exact Or.inl ((hsorted x).mp hx)
            · exact Or.inr (hlater x hx)

lemma nodup_eraseDups (l : List String) : l.eraseDups.Nodup := by
  induction h : l.length using Nat.strong_induction_on generalizing l with
  | _ n ih =>
      cases l with
      | nil => simp
      | cons a l =>
          rw [List.eraseDups_cons, List.nodup_cons]
          refine ⟨fun hmem => ?_, ih _ ?_ _ rfl⟩
          · simpa using (List.mem_filter.mp (List.mem_eraseDups.mp hmem)).2
          · exact lt_of_le_of_lt (List.length_filter_le _ _) (by simp [← h])

/-- No tier holds an id twice, and no two tiers share one. -/
lemma computeTiers_nodup {tiers : List (List String)} (h : m.computeTiers = .ok tiers) :
    tiers.flatten.Nodup := by
  unfold Manifest.computeTiers at h
  split at h
  · cases h
  · split_ifs at h
    cases h
    refine (tiersFrom_nodup _ _ _ (fun x hx => ?_) ?_).1
    · have := (List.mem_filter.mp hx).2
      simp only [decide_eq_true_eq] at this
      omega
    · exact (nodup_eraseDups _).filter _

end Tiers

/-! ## The whole round -/

section Round

variable {w : Phase3} {m : Manifest}

lemma removeWorktree_bind {α : Type} {label : String} {tierIndex : ℕ} {k : Unit → Except String α}
    {a : α} (h : removeWorktree w label tierIndex >>= k = .ok a) : k () = .ok a := by
  obtain ⟨_, _, h⟩ := Except.bind_eq_ok h
  exact h

lemma mergeAll_eq {tree branches tree' : List String} (h : mergeAll w tree branches = .ok tree') :
    tree' = tree ++ branches := by
  induction branches generalizing tree with
  | nil =>
      cases h
      rw [List.append_nil]
  | cons b rest ih =>
      rw [mergeAll] at h
      split_ifs at h
      rw [ih h, List.append_assoc, List.singleton_append]

/-- The tested ids name the same branches. -/
lemma tierBranchesOf_tested (ids : List String) :
    tierBranchesOf m ((tierBranchesOf m ids).map (·.1)) = tierBranchesOf m ids := by
  induction ids with
  | nil => rfl
  | cons cid ids ih =>
      cases hc : m.getComponent cid with
      | none =>
          have : tierBranchesOf m (cid :: ids) = tierBranchesOf m ids := by
            simp [tierBranchesOf, hc]
          rw [this, ih]
      | some c =>
          have : tierBranchesOf m (cid :: ids) = (cid, c.branchName) :: tierBranchesOf m ids := by
            simp [tierBranchesOf, hc]
          rw [this, List.map_cons]
          have hcons : ∀ l, tierBranchesOf m (cid :: l) = (cid, c.branchName) :: tierBranchesOf m l :=
            fun l => by simp [tierBranchesOf, hc]
          rw [hcons, ih]

lemma tierBranchesOf_sublist (ids : List String) :
    ((tierBranchesOf m ids).map (·.1)).Sublist ids := by
  induction ids with
  | nil => exact List.Sublist.refl _
  | cons cid ids ih =>
      cases hc : m.getComponent cid with
      | none =>
          rw [show tierBranchesOf m (cid :: ids) = tierBranchesOf m ids by simp [tierBranchesOf, hc]]
          exact ih.cons cid
      | some c =>
          rw [show tierBranchesOf m (cid :: ids) = (cid, c.branchName) :: tierBranchesOf m ids by
            simp [tierBranchesOf, hc]]
          exact ih.cons_cons cid

/-- Where a tier fails without a bisection, only a conflict of the tier itself names a breaker. -/
lemma tierTree_breaker {tierIndex : ℕ} {tier : List TierBranch} {prior : List String}
    {r : ContractResult} {c : String} (h : tierTree w m tierIndex tier prior = .inl r)
    (hc : r.breaker = some c) :
    r.tier = tierIndex ∧ r.componentsTested = tier.map (·.1) ∧ ∃ branch, conflictOf w prior tier = some (c, branch) := by
  unfold tierTree at h
  simp only at h
  cases hprior : mergeAll w [] prior with
  | error branch =>
      rw [hprior] at h
      cases h
      cases hc
  | ok tree =>
      have htree := mergeAll_eq hprior
      rw [List.nil_append] at htree
      subst htree
      rw [hprior] at h
      simp only at h
      cases hconf : conflictOf w tree tier with
      | some tb =>
          rw [hconf] at h
          cases h
          cases hc
          exact ⟨rfl, rfl, tb.2, rfl⟩
      | none =>
          rw [hconf] at h
          simp only at h
          split_ifs at h <;> cases h <;> cases hc

/-- A breaker named by the bisection is one of its loop. -/
lemma bisectBreaker_some {tierIndex : ℕ} {prior merged : List String} {tier : List TierBranch}
    {c : String} (h : bisectBreaker w tierIndex prior tier merged = .ok (some c)) :
    bisectLoop w prior merged tier = some c := by
  unfold bisectBreaker at h
  split_ifs at h
  · cases h
  · obtain ⟨_, _, h⟩ := Except.bind_eq_ok h
    have h := Except.ok.inj h
    unfold bisectTree at h
    cases hprior : mergeAll w [] prior with
    | error branch =>
        rw [hprior] at h
        cases h
    | ok tree =>
        have htree := mergeAll_eq hprior
        rw [List.nil_append] at htree
        subst htree
        rw [hprior] at h
        exact h

/-- **Where the breaker of a tier check comes from**: a conflict of the tier, or its bisection. -/
lemma runTierCheck_breaker {ids prior : List String} {tierIndex : ℕ} {r : ContractResult}
    {c : String} (h : runTierCheck w m ids prior tierIndex = .ok r) (hc : r.breaker = some c) :
    r.tier = tierIndex ∧ r.componentsTested = (tierBranchesOf m ids).map (·.1) ∧
      ((∃ branch, conflictOf w prior (tierBranchesOf m ids) = some (c, branch)) ∨
        bisectLoop w prior (idsOf m prior) (tierBranchesOf m ids) = some c) := by
  unfold runTierCheck at h
  simp only at h
  cases hwt : w.worktreeError ("tier" ++ toString tierIndex) tierIndex with
  | some error =>
      rw [hwt] at h
      cases h
      cases hc
  | none =>
      rw [hwt] at h
      have h := removeWorktree_bind h
      cases htree : tierTree w m tierIndex (tierBranchesOf m ids) prior with
      | inl result =>
          rw [htree] at h
          cases h
          obtain ⟨htier, htested, hconf⟩ := tierTree_breaker htree hc
          exact ⟨htier, htested, Or.inl hconf⟩
      | inr result =>
          rw [htree] at h
          obtain ⟨breaker, hbis, h⟩ := Except.bind_eq_ok h
          cases h
          obtain rfl : breaker = some c := hc
          exact ⟨rfl, rfl, Or.inr (bisectBreaker_some hbis)⟩

lemma conflictOf_mem {tree : List String} {tier : List TierBranch} {tb : TierBranch}
    (h : conflictOf w tree tier = some tb) : tb ∈ tier := by
  induction tier generalizing tree with
  | nil => cases h
  | cons first rest ih =>
      rw [conflictOf] at h
      split_ifs at h
      · exact List.mem_cons_of_mem _ (ih h)
      · cases h
        exact List.mem_cons_self

lemma bisectLoop_mem {tree merged : List String} {tier : List TierBranch} {c : String}
    (h : bisectLoop w tree merged tier = some c) : c ∈ tier.map (·.1) := by
  induction tier generalizing tree merged with
  | nil => cases h
  | cons first rest ih =>
      rw [bisectLoop] at h
      rw [List.map_cons]
      split_ifs at h
      · cases h
        exact List.mem_cons_self
      · cases h
        exact List.mem_cons_self
      · exact List.mem_cons_of_mem _ (ih h)

/-- The breaker of a tier check is one of the components it tests. -/
lemma runTierCheck_breaker_mem {ids prior : List String} {tierIndex : ℕ} {r : ContractResult} {c : String}
    (h : runTierCheck w m ids prior tierIndex = .ok r) (hc : r.breaker = some c) : c ∈ ids := by
  have hsub : ∀ {c : String}, c ∈ (tierBranchesOf m ids).map (·.1) → c ∈ ids :=
    fun hmem => (tierBranchesOf_sublist ids).subset hmem
  rcases (runTierCheck_breaker h hc).2.2 with ⟨branch, hconflict⟩ | hbisect
  · exact hsub (List.mem_map_of_mem (conflictOf_mem hconflict))
  · exact hsub (bisectLoop_mem hbisect)

lemma runIntegratedBaseCheck_breaker {ids : List String} {baseSha : String} {r : ContractResult}
    (h : runIntegratedBaseCheck w m ids baseSha = .ok r) : r.breaker = none := by
  unfold runIntegratedBaseCheck at h
  split_ifs at h
  · cases h
    rfl
  · split at h
    · cases h
      rfl
    · cases removeWorktree_bind h
      rfl

/-- The tiers, none for a graph that has none. -/
def tiersOf (m : Manifest) : List (List String) :=
  match m.computeTiers with
  | .ok tiers => tiers
  | .error _ => []

/-- The branches that lie under a tier when it is tested. -/
def priorOf (m : Manifest) (mode : ContractMode) (tierIndex : ℕ) : List String :=
  if mode = .final then []
  else branchesOf m (((tiersOf m).take tierIndex).flatten.filter (· ∈ completedIds m))

/-- Every result of the loop is the check of one tier over the branches of the earlier ones. -/
lemma tierByTier_mem (before : List (List String)) {rest : List (List String)}
    {results : List ContractResult}
    (h : tierByTier w m (branchesOf m (before.flatten.filter (· ∈ completedIds m)))
      (rest.zipIdx before.length) = .ok results) {r : ContractResult} (hr : r ∈ results) :
    ∃ between tier after, rest = between ++ tier :: after ∧
      runTierCheck w m (tier.filter (· ∈ completedIds m))
        (branchesOf m ((before ++ between).flatten.filter (· ∈ completedIds m)))
        (before ++ between).length = .ok r := by
  induction rest generalizing before results with
  | nil =>
      cases h
      cases hr
  | cons tier rest ih =>
      have hnext : before.length + 1 = (before ++ [tier]).length := by simp
      have hbranches : branchesOf m (before.flatten.filter (· ∈ completedIds m)) ++
          branchesOf m (tier.filter (· ∈ completedIds m))
          = branchesOf m ((before ++ [tier]).flatten.filter (· ∈ completedIds m)) := by
        simp [branchesOf]
      have hlater : ∀ {results : List ContractResult},
          tierByTier w m (branchesOf m ((before ++ [tier]).flatten.filter (· ∈ completedIds m)))
            (rest.zipIdx (before ++ [tier]).length) = .ok results → r ∈ results →
          ∃ between tier' after, tier :: rest = between ++ tier' :: after ∧
            runTierCheck w m (tier'.filter (· ∈ completedIds m))
              (branchesOf m ((before ++ between).flatten.filter (· ∈ completedIds m)))
              (before ++ between).length = .ok r := by
        intro results h hr
        obtain ⟨between, tier', after, rfl, hrun⟩ := ih _ h hr
        exact ⟨tier :: between, tier', after, rfl, by simpa using hrun⟩
      rw [List.zipIdx_cons, tierByTier] at h
      split_ifs at h with hempty
      · rw [hempty, show branchesOf m [] = [] from rfl, List.append_nil] at hbranches
        rw [hbranches, hnext] at h
        exact hlater h hr
      · obtain ⟨first, hfirst, h⟩ := Except.bind_eq_ok h
        obtain ⟨later, hrest, h⟩ := Except.bind_eq_ok h
        cases h
        rw [hbranches, hnext] at hrest
        rcases List.mem_cons.mp hr with rfl | hr
        · exact ⟨[], tier, rest, rfl, by simpa using hfirst⟩
        · exact hlater hrest hr

/-- The breakers of the loop are completed components of its tiers, none of them twice. -/
lemma tierByTier_breakers {prior : List String} {rest : List (List String)} {k : ℕ} {results : List ContractResult}
    (h : tierByTier w m prior (rest.zipIdx k) = .ok results) (hnodup : rest.flatten.Nodup) :
    (results.filterMap (·.breaker)).Nodup ∧
      ∀ c ∈ results.filterMap (·.breaker), c ∈ rest.flatten ∧ c ∈ completedIds m := by
  induction rest generalizing prior k results with
  | nil =>
      cases h
      exact ⟨List.nodup_nil, fun _ hc => absurd hc List.not_mem_nil⟩
  | cons tier rest ih =>
      rw [List.flatten_cons, List.nodup_append] at hnodup
      obtain ⟨-, hrest, hdisjoint⟩ := hnodup
      rw [List.zipIdx_cons, tierByTier] at h
      split_ifs at h with hempty
      · obtain ⟨hn, hmem⟩ := ih h hrest
        exact ⟨hn, fun c hc => ⟨List.mem_append_right _ (hmem c hc).1, (hmem c hc).2⟩⟩
      · obtain ⟨first, hfirst, h⟩ := Except.bind_eq_ok h
        obtain ⟨later, hlater, h⟩ := Except.bind_eq_ok h
        cases h
        obtain ⟨hn, hmem⟩ := ih hlater hrest
        cases hbreaker : first.breaker with
        | none =>
            rw [List.filterMap_cons_none hbreaker]
            exact ⟨hn, fun c hc => ⟨List.mem_append_right _ (hmem c hc).1, (hmem c hc).2⟩⟩
        | some c =>
            obtain ⟨htier, hcompleted⟩ := List.mem_filter.mp (runTierCheck_breaker_mem hfirst hbreaker)
            rw [List.filterMap_cons_some hbreaker]
            refine ⟨List.nodup_cons.mpr ⟨fun hc => hdisjoint c htier c (hmem c hc).1 rfl, hn⟩, ?_⟩
            rintro d hd
            rcases List.mem_cons.mp hd with rfl | hd
            · exact ⟨List.mem_append_left _ htier, of_decide_eq_true hcompleted⟩
            · exact ⟨List.mem_append_right _ (hmem d hd).1, (hmem d hd).2⟩

/-- **The breakers of a round** are completed components, none of them twice. -/
theorem contract_breakers {mode : ContractMode} {componentsMerged : Bool} {baseSha : String}
    {results : List ContractResult} (hrun : runContractTesting w m mode componentsMerged baseSha = .ok results) :
    (results.filterMap (·.breaker)).Nodup ∧ ∀ c ∈ results.filterMap (·.breaker), c ∈ completedIds m := by
  have hone : ∀ {ids prior : List String} {idx : ℕ} {r : ContractResult}, runTierCheck w m ids prior idx = .ok r →
      (∀ c ∈ ids, c ∈ completedIds m) →
      ([r].filterMap (·.breaker)).Nodup ∧ ∀ c ∈ [r].filterMap (·.breaker), c ∈ completedIds m := by
    intro ids prior idx r hr hids
    cases hbreaker : r.breaker with
    | none => simp [hbreaker]
    | some c => simpa [hbreaker] using hids c (runTierCheck_breaker_mem hr hbreaker)
  unfold runContractTesting at hrun
  split_ifs at hrun
  · cases hrun
    exact ⟨List.nodup_nil, fun _ hc => absurd hc List.not_mem_nil⟩
  · cases hrun
    exact ⟨List.nodup_nil, fun _ hc => absurd hc List.not_mem_nil⟩
  obtain ⟨tiers, htiers, hrun⟩ := Except.bind_eq_ok hrun
  unfold testTiers at hrun
  simp only at hrun
  split_ifs at hrun
  · obtain ⟨result, hresult, hrun⟩ := Except.bind_eq_ok hrun
    cases hrun
    simp [runIntegratedBaseCheck_breaker hresult]
  · obtain ⟨result, hresult, hrun⟩ := Except.bind_eq_ok hrun
    cases hrun
    refine hone hresult fun c hc => ?_
    exact of_decide_eq_true (List.mem_filter.mp ((tierBranchesOf_sublist _).subset hc)).2
  · obtain ⟨hn, hmem⟩ := tierByTier_breakers hrun (computeTiers_nodup htiers)
    exact ⟨hn, fun c hc => (hmem c hc).2⟩

/-- **Blame over a whole round.**  A breaker named by bisection (its tier merges without a conflict)
    turned a passing tree into a failing one exactly when the tree before its tier passes, or
    passes with the tier's first branch. -/
theorem contract_blame_iff {mode : ContractMode} {componentsMerged : Bool} {baseSha : String}
    {results : List ContractResult} {r : ContractResult} {c : String}
    (hrun : runContractTesting w m mode componentsMerged baseSha = .ok results) (hr : r ∈ results)
    (hc : r.breaker = some c)
    (hbisected : conflictOf w (priorOf m mode r.tier) (tierBranchesOf m r.componentsTested) = none) :
    Earned w (priorOf m mode r.tier) (idsOf m (priorOf m mode r.tier))
        (tierBranchesOf m r.componentsTested) c ↔
      Grounded w (priorOf m mode r.tier) (idsOf m (priorOf m mode r.tier))
        (tierBranchesOf m r.componentsTested) := by
  unfold runContractTesting at hrun
  split_ifs at hrun with hskip hnone
  · cases hrun
    cases hr
  · cases hrun
    cases hr
  obtain ⟨tiers, htiers, hrun⟩ := Except.bind_eq_ok hrun
  have hnodup := computeTiers_nodup htiers
  have htiersOf : tiersOf m = tiers := by rw [tiersOf, htiers]
  -- one tier check, over its own prior branches
  have hone : ∀ (ids : List String) (idx : ℕ), ids.Nodup →
      runTierCheck w m ids (priorOf m mode idx) idx = .ok r →
      (Earned w (priorOf m mode r.tier) (idsOf m (priorOf m mode r.tier))
        (tierBranchesOf m r.componentsTested) c ↔
      Grounded w (priorOf m mode r.tier) (idsOf m (priorOf m mode r.tier))
        (tierBranchesOf m r.componentsTested)) := by
    intro ids idx hids hcheck
    obtain ⟨htier, htested, hfrom⟩ := runTierCheck_breaker hcheck hc
    rw [htier, htested, tierBranchesOf_tested] at hbisected ⊢
    exact bisect_earned_iff ((tierBranchesOf_sublist ids).nodup hids) hbisected
      (hfrom.resolve_left fun ⟨_, h⟩ => by
        rw [hbisected] at h
        cases h)
  unfold testTiers at hrun
  simp only at hrun
  split_ifs at hrun with hmerged hfinal
  · obtain ⟨result, hresult, hrun⟩ := Except.bind_eq_ok hrun
    cases hrun
    obtain rfl := List.mem_singleton.mp hr
    rw [runIntegratedBaseCheck_breaker hresult] at hc
    cases hc
  · obtain ⟨result, hresult, hrun⟩ := Except.bind_eq_ok hrun
    cases hrun
    obtain rfl := List.mem_singleton.mp hr
    refine hone _ 0 ?_ (by rw [priorOf, if_pos hfinal]; exact hresult)
    exact (tierBranchesOf_sublist _).nodup (hnodup.filter _)
  · obtain ⟨between, tier, after, rfl, hcheck⟩ :=
      tierByTier_mem (w := w) (m := m) [] hrun hr
    refine hone (tier.filter (· ∈ completedIds m)) between.length ?_ ?_
    · rw [List.flatten_append, List.flatten_cons] at hnodup
      exact (List.nodup_append.mp (List.nodup_append.mp hnodup).2.1).1.filter _
    · rw [priorOf, if_neg hfinal, htiersOf, List.take_left']
      · exact hcheck
      · rfl

end Round

/-! ### A tier blamed for the one before it -/

/-- Checks that fail as soon as the branch of `api` is merged. -/
def apiBreaks : Phase3 where
  worktreeError _ _ := none
  survives _ _ := false
  mergeBranch _ _ := true
  prepare _ := ""
  runChecks tree _ := { passed := "kstrl/api" ∉ tree }
  runBaseChecks _ _ := { passed := true }
  prepareBase _ := ""

/-- Two components, `web` on top of `api`, both completed. -/
def apiAndWeb : Manifest where
  components := [
    { id := "api", branchName := "kstrl/api", status := .completed },
    { id := "web", branchName := "kstrl/web", status := .completed, dependencies := ["api"] }]

/-- What Phase 3 reports of the two tiers. -/
def blamedResults : List ContractResult := [
  { passed := false, tier := 0, componentsTested := ["api"], breaker := some "api" },
  { passed := false, tier := 1, componentsTested := ["web"], breaker := some "web" }]

lemma run_apiBreaks :
    runContractTesting apiBreaks apiAndWeb .tier false "" = .ok blamedResults := rfl

/-- The blame of `api` is earned: the base passes. -/
theorem contract_blame_api :
    Earned apiBreaks (priorOf apiAndWeb .tier 0) (idsOf apiAndWeb (priorOf apiAndWeb .tier 0))
      (tierBranchesOf apiAndWeb ["api"]) "api" :=
  (contract_blame_iff run_apiBreaks (List.mem_cons_self ..) rfl rfl).mpr (Or.inl rfl)

/-- **The blame of `web` is not**: its tree failed before its branch was merged. -/
theorem contract_blames_innocent :
    ¬ ∀ (w : Phase3) (m : Manifest) (mode : ContractMode) (componentsMerged : Bool)
      (baseSha : String) (results : List ContractResult) (r : ContractResult) (c : String),
      runContractTesting w m mode componentsMerged baseSha = .ok results → r ∈ results →
      r.breaker = some c →
      conflictOf w (priorOf m mode r.tier) (tierBranchesOf m r.componentsTested) = none →
      Earned w (priorOf m mode r.tier) (idsOf m (priorOf m mode r.tier))
        (tierBranchesOf m r.componentsTested) c := by
  intro h
  obtain ⟨before, branch, after, _, hpass, _⟩ := h apiBreaks apiAndWeb .tier false "" blamedResults
    _ "web" run_apiBreaks (List.mem_cons_of_mem _ (List.mem_cons_self ..)) rfl rfl
  -- `api` lies under the tier of `web`
  have hprior : priorOf apiAndWeb .tier 1 = ["kstrl/api"] := rfl
  unfold passesAt at hpass
  simp only [hprior] at hpass
  simp [apiBreaks] at hpass

end Kstrl
