import Mathlib.Data.List.Induction
import Mathlib.Data.List.Pairwise
import Mathlib.Data.List.Perm.Subperm
import Mathlib.Tactic.Common

/-!
# Logs in which a later row supersedes

An append-only log whose rows have keys, and whose current view has the latest row of each key, in
the order in which the keys first appeared: what a program gets that folds a log into a dictionary.

* **`latest`** is the view.
* **`mem_latest_append`** is what an append makes of it, and `pairwise_latest` says that no key has
  two rows in it.
* **`countP_latest_le`**: a row that is lost hides at most one row of the view.
-/

namespace LatestLog

variable {α κ : Type*} [DecidableEq κ] (key : α → κ)

/-- `folded[key(x)] = x`: in place where the key is there, at the end where it is new. -/
def upsert (x : α) : List α → List α
  | [] => [x]
  | y :: ys => if key y = key x then x :: ys else y :: upsert x ys

/-- The latest row of each key, in the order of the keys' first appearance. -/
def latest (log : List α) : List α := log.foldl (fun view x => upsert key x view) []

variable {key} {x y z : α} {view log : List α}

@[simp] lemma latest_nil : latest key [] = [] := rfl

lemma latest_append (log : List α) (x : α) : latest key (log ++ [x]) = upsert key x (latest key log) := by
  rw [latest, List.foldl_append]
  rfl

lemma mem_upsert (h : view.Pairwise fun a b => key a ≠ key b) :
    z ∈ upsert key x view ↔ z = x ∨ z ∈ view ∧ key z ≠ key x := by
  induction view with
  | nil => simp [upsert]
  | cons y ys ih =>
      obtain ⟨hy, hys⟩ := List.pairwise_cons.mp h
      rw [upsert]
      split_ifs with hkey
      · -- no other row has the key of `y`
        have hne : ∀ w ∈ ys, key w ≠ key x := fun w hw he => hy w hw (hkey.trans he.symm)
        simp only [List.mem_cons]
        constructor
        · rintro (rfl | hz)
          · exact Or.inl rfl
          · exact Or.inr ⟨Or.inr hz, hne z hz⟩
        · rintro (rfl | ⟨rfl | hz, hzx⟩)
          · exact Or.inl rfl
          · exact absurd hkey hzx
          · exact Or.inr hz
      · simp only [List.mem_cons, ih hys]
        constructor
        · rintro (rfl | rfl | ⟨hz, hzx⟩)
          · exact Or.inr ⟨Or.inl rfl, hkey⟩
          · exact Or.inl rfl
          · exact Or.inr ⟨Or.inr hz, hzx⟩
        · rintro (rfl | ⟨rfl | hz, hzx⟩)
          · exact Or.inr (Or.inl rfl)
          · exact Or.inl rfl
          · exact Or.inr (Or.inr ⟨hz, hzx⟩)

/-- A row that supersedes one stands in its place. -/
lemma upsert_split {before after : List α} (h : ∀ w ∈ before, key w ≠ key x) (hy : key y = key x) :
    upsert key x (before ++ y :: after) = before ++ x :: after := by
  induction before with
  | nil => exact if_pos hy
  | cons w before ih =>
      obtain ⟨hw, hbefore⟩ := List.forall_mem_cons.mp h
      rw [List.cons_append, upsert, if_neg hw, ih hbefore, List.cons_append]

/-- A row under a new key stands at the end. -/
lemma upsert_new (h : ∀ w ∈ view, key w ≠ key x) : upsert key x view = view ++ [x] := by
  induction view with
  | nil => rfl
  | cons w view ih =>
      obtain ⟨hw, hview⟩ := List.forall_mem_cons.mp h
      rw [upsert, if_neg hw, ih hview, List.cons_append]

lemma pairwise_upsert (h : view.Pairwise fun a b => key a ≠ key b) :
    (upsert key x view).Pairwise fun a b => key a ≠ key b := by
  induction view with
  | nil => simp [upsert]
  | cons y ys ih =>
      obtain ⟨hy, hys⟩ := List.pairwise_cons.mp h
      rw [upsert]
      split_ifs with hkey
      · exact List.pairwise_cons.mpr ⟨fun w hw => hkey ▸ hy w hw, hys⟩
      · refine List.pairwise_cons.mpr ⟨fun w hw => ?_, ih hys⟩
        rcases (mem_upsert hys).mp hw with rfl | ⟨hw, _⟩
        · exact hkey
        · exact hy w hw

/-- No key has two rows in the view. -/
theorem pairwise_latest (log : List α) : (latest key log).Pairwise fun a b => key a ≠ key b := by
  induction log using List.reverseRecOn with
  | nil => exact List.Pairwise.nil
  | append_singleton log x ih =>
      rw [latest_append]
      exact pairwise_upsert ih

/-- **What an append makes of the view.** -/
theorem mem_latest_append :
    z ∈ latest key (log ++ [x]) ↔ z = x ∨ z ∈ latest key log ∧ key z ≠ key x := by
  rw [latest_append]
  exact mem_upsert (pairwise_latest log)

lemma mem_of_mem_latest (h : z ∈ latest key log) : z ∈ log := by
  induction log using List.reverseRecOn with
  | nil => exact h
  | append_singleton log x ih =>
      rcases mem_latest_append.mp h with rfl | ⟨hz, _⟩
      · exact List.mem_append_right _ (List.mem_singleton.mpr rfl)
      · exact List.mem_append_left _ (ih hz)

/-- The view has the keys of the log. -/
lemma exists_mem_latest_iff {k : κ} : (∃ z ∈ latest key log, key z = k) ↔ ∃ z ∈ log, key z = k := by
  constructor
  · rintro ⟨z, hz, hk⟩
    exact ⟨z, mem_of_mem_latest hz, hk⟩
  · rintro ⟨z, hz, hk⟩
    induction log using List.reverseRecOn with
    | nil => exact absurd hz List.not_mem_nil
    | append_singleton log x ih =>
        by_cases hx : key x = k
        · exact ⟨x, mem_latest_append.mpr (Or.inl rfl), hx⟩
        · rcases List.mem_append.mp hz with hz | hz
          · obtain ⟨y, hy, hyk⟩ := ih hz
            exact ⟨y, mem_latest_append.mpr (Or.inr ⟨hy, fun he => hx (he.symm.trans hyk)⟩), hyk⟩
          · exact absurd ((List.mem_singleton.mp hz) ▸ hk) hx

lemma eq_of_mem_latest (hy : y ∈ latest key log) (hz : z ∈ latest key log) (h : key y = key z) :
    y = z := by
  by_contra hne
  have hsymm : Std.Symm fun a b : α => key a ≠ key b := ⟨fun _ _ h => h.symm⟩
  exact (pairwise_latest log).forall hy hz hne h

/-- The rows of the view are those with no later row of their key. -/
lemma mem_latest_iff :
    z ∈ latest key log ↔ ∃ before after, log = before ++ z :: after ∧ ∀ y ∈ after, key y ≠ key z := by
  induction log using List.reverseRecOn with
  | nil => simp
  | append_singleton log x ih =>
      rw [mem_latest_append, ih]
      constructor
      · rintro (rfl | ⟨⟨before, after, rfl, hafter⟩, hne⟩)
        · exact ⟨log, [], rfl, by simp⟩
        · refine ⟨before, after ++ [x], by simp, fun y hy => ?_⟩
          rcases List.mem_append.mp hy with hy | hy
          · exact hafter y hy
          · rw [List.mem_singleton.mp hy]
            exact hne.symm
      · rintro ⟨before, after, hsplit, hafter⟩
        rcases List.eq_nil_or_concat after with rfl | ⟨after, y, rfl⟩
        · exact Or.inl (List.singleton_inj.mp (List.append_inj' hsplit rfl).2).symm
        · rw [List.concat_eq_append, ← List.cons_append, ← List.append_assoc] at hsplit
          obtain ⟨rfl, hlast⟩ := List.append_inj' hsplit rfl
          rw [List.singleton_inj.mp hlast]
          rw [List.concat_eq_append] at hafter
          exact Or.inr ⟨⟨before, after, rfl, fun w hw => hafter w (List.mem_append_left _ hw)⟩,
            (hafter y (List.mem_append_right _ (List.mem_singleton_self y))).symm⟩

/-! ## Rows that are lost -/

/-- A row of the view of all rows is in the view of those that are kept, or its key is a lost row's. -/
lemma mem_latest_kept (rows : List (α × Bool)) (h : z ∈ latest key (rows.map Prod.fst)) :
    z ∈ latest key ((rows.filter Prod.snd).map Prod.fst) ∨
      key z ∈ (rows.filter fun row => !row.2).map fun row => key row.1 := by
  induction rows using List.reverseRecOn generalizing z with
  | nil => exact Or.inl h
  | append_singleton rows row ih =>
      obtain ⟨x, kept⟩ := row
      rw [List.map_append] at h
      have hz := mem_latest_append.mp h
      cases kept with
      | true =>
          rw [List.filter_append, List.map_append, List.filter_append]
          rcases hz with rfl | ⟨hz, hne⟩
          · exact Or.inl (mem_latest_append.mpr (Or.inl rfl))
          · rcases ih hz with hkept | hlost
            · exact Or.inl (mem_latest_append.mpr (Or.inr ⟨hkept, hne⟩))
            · exact Or.inr (by simpa using hlost)
      | false =>
          rw [List.filter_append, List.filter_append, List.map_append, List.map_append]
          rcases hz with rfl | ⟨hz, hne⟩
          · exact Or.inr (List.mem_append_right _ (by simp))
          · rcases ih hz with hkept | hlost
            · exact Or.inl (by simpa using hkept)
            · exact Or.inr (List.mem_append_left _ hlost)

/-- **A lost row hides at most one row of the view.** -/
theorem countP_latest_le (p : α → Bool) (rows : List (α × Bool)) :
    (latest key (rows.map Prod.fst)).countP p ≤
      (latest key ((rows.filter Prod.snd).map Prod.fst)).countP p + rows.countP fun row => !row.2 := by
  have hnodup : (((latest key (rows.map Prod.fst)).filter p).map key).Nodup :=
    List.pairwise_map.mpr (List.Pairwise.filter _ (pairwise_latest _))
  have hsub : ((latest key (rows.map Prod.fst)).filter p).map key ⊆
      ((latest key ((rows.filter Prod.snd).map Prod.fst)).filter p).map key ++
        (rows.filter fun row => !row.2).map fun row => key row.1 := by
    intro k hk
    obtain ⟨z, hz, rfl⟩ := List.mem_map.mp hk
    obtain ⟨hz, hp⟩ := List.mem_filter.mp hz
    rcases mem_latest_kept rows hz with hkept | hlost
    · exact List.mem_append_left _ (List.mem_map_of_mem (List.mem_filter.mpr ⟨hkept, hp⟩))
    · exact List.mem_append_right _ hlost
  have hle := (List.subperm_of_subset hnodup hsub).length_le
  simpa only [List.length_append, List.length_map, ← List.countP_eq_length_filter] using hle

end LatestLog
