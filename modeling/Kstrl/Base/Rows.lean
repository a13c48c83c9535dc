import Mathlib.Algebra.BigOperators.Group.List.Basic
import Mathlib.Data.List.Pairwise
import Mathlib.Tactic.Common

/-!
# Rows that are made when they are first touched

A table of rows with keys, kept as a dictionary keeps it: `touch` changes the row of a key in place and
makes the row first if it is not there.

* **`forall_touch`** is the rule for a property of every row.
* **`sum_touch`** is the rule for a column of amounts: it grows by what the touched row grows by.
* **`forall₂_touch`** is the rule for two tables that go row by row.
* **`lastN`** is the end of a list, as a bounded list keeps it.
* **`lookup_of_mem`**: an entry of a dictionary is found under its key.
-/

namespace Rows

variable {α κ : Type*} [DecidableEq κ] (key : α → κ) (fresh : κ → α)

/-- Change the row of a key, made fresh if it is not there. -/
def touch (k : κ) (f : α → α) : List α → List α
  | [] => [f (fresh k)]
  | y :: ys => if key y = k then f y :: ys else y :: touch k f ys

variable {key fresh} {k : κ} {f : α → α} {rows : List α} {x : α}

/-- A property of every row and of every fresh one is one after a touch, if the change keeps it. -/
lemma forall_touch {P : α → Prop} (h : rows.Pairwise fun a b => key a ≠ key b)
    (hrows : ∀ x ∈ rows, key x ≠ k → P x) (htouched : ∀ x ∈ rows, key x = k → P (f x))
    (hfresh : (∀ x ∈ rows, key x ≠ k) → P (f (fresh k))) : ∀ x ∈ touch key fresh k f rows, P x := by
  induction rows with
  | nil =>
      intro x hx
      rw [touch, List.mem_singleton] at hx
      rw [hx]
      exact hfresh fun x hx => by cases hx
  | cons y ys ih =>
      intro x hx
      obtain ⟨hy, hys⟩ := List.pairwise_cons.mp h
      rw [touch] at hx
      split_ifs at hx with hkey
      · rcases List.mem_cons.mp hx with rfl | hx
        · exact htouched y List.mem_cons_self hkey
        · exact hrows x (List.mem_cons_of_mem _ hx) fun he => hy x hx (hkey.trans he.symm)
      · rcases List.mem_cons.mp hx with rfl | hx
        · exact hrows x List.mem_cons_self hkey
        · refine ih hys (fun z hz => hrows z (List.mem_cons_of_mem _ hz))
            (fun z hz => htouched z (List.mem_cons_of_mem _ hz)) (fun hall => hfresh ?_) x hx
          intro z hz
          rcases List.mem_cons.mp hz with rfl | hz
          · exact hkey
          · exact hall z hz

/-- A property that the change keeps, and the fresh row comes to have. -/
lemma forall_touch_of {P : α → Prop} (hrows : ∀ x ∈ rows, P x) (hf : ∀ x, P x → P (f x)) (hfresh : P (f (fresh k))) :
    ∀ x ∈ touch key fresh k f rows, P x := by
  induction rows with
  | nil =>
      intro x hx
      rw [touch, List.mem_singleton] at hx
      exact hx ▸ hfresh
  | cons y ys ih =>
      obtain ⟨hy, hys⟩ := List.forall_mem_cons.mp hrows
      rw [touch]
      split_ifs
      · exact List.forall_mem_cons.mpr ⟨hf y hy, hys⟩
      · exact List.forall_mem_cons.mpr ⟨hy, ih hys⟩

/-- Keys stay apart when the change keeps the key. -/
lemma pairwise_touch (hkey : ∀ x, key (f x) = key x) (hfresh : key (fresh k) = k)
    (h : rows.Pairwise fun a b => key a ≠ key b) :
    (touch key fresh k f rows).Pairwise fun a b => key a ≠ key b := by
  induction rows with
  | nil => exact List.pairwise_singleton _ _
  | cons y ys ih =>
      obtain ⟨hy, hys⟩ := List.pairwise_cons.mp h
      rw [touch]
      split_ifs with hk
      · exact List.pairwise_cons.mpr ⟨fun z hz => hkey y ▸ hy z hz, hys⟩
      · refine List.pairwise_cons.mpr ⟨fun z hz => ?_, ih hys⟩
        refine forall_touch (P := fun z => key y ≠ key z) hys (fun x hx _ => hy x hx)
          (fun x hx _ => hkey x ▸ hy x hx) (fun _ => ?_) z hz
        rw [hkey, hfresh]
        exact hk

/-- The keys are the keys there were and the one touched. -/
lemma exists_touch {k' : κ} (hkey : ∀ x, key (f x) = key x) (hfresh : key (fresh k) = k) :
    (∃ x ∈ touch key fresh k f rows, key x = k') ↔ k' = k ∨ ∃ x ∈ rows, key x = k' := by
  induction rows with
  | nil => simp [touch, hkey, hfresh, eq_comm]
  | cons y ys ih =>
      rw [touch]
      split_ifs with hk
      · simp only [List.mem_cons, exists_eq_or_imp, hkey, hk]
        constructor
        · rintro (h | h)
          · exact Or.inl h.symm
          · exact Or.inr (Or.inr h)
        · rintro (h | h | h)
          · exact Or.inl h.symm
          · exact Or.inl h
          · exact Or.inr h
      · simp only [List.mem_cons, exists_eq_or_imp, ih]
        exact or_left_comm

/-- The row of a key after a touch. -/
lemma find?_touch (hkey : ∀ x, key (f x) = key x) (hfresh : key (fresh k) = k) (k' : κ) :
    ((touch key fresh k f rows).find? fun x => key x = k') =
      if k' = k then some (f ((rows.find? fun x => key x = k).getD (fresh k)))
      else rows.find? fun x => key x = k' := by
  induction rows with
  | nil =>
      split_ifs with hk
      · simp [touch, hkey, hfresh, hk]
      · simp [touch, hkey, hfresh, Ne.symm hk]
  | cons y ys ih =>
      rw [touch]
      by_cases hy : key y = k
      · rw [if_pos hy]
        split_ifs with hk
        · simp [hkey, hy, hk]
        · simp [hkey, hy, Ne.symm hk]
      · rw [if_neg hy, List.find?_cons, List.find?_cons, List.find?_cons, ih]
        split_ifs with hk
        · simp [hk, hy]
        · rfl

/-- **A column of amounts.** -/
lemma sum_touch {M : Type*} [AddCommMonoid M] {g : α → M} {δ : M} (hf : ∀ x, g (f x) = g x + δ)
    (hfresh : g (fresh k) = 0) :
    ((touch key fresh k f rows).map g).sum = (rows.map g).sum + δ := by
  induction rows with
  | nil => simp [touch, hf, hfresh]
  | cons y ys ih =>
      rw [touch]
      split_ifs with hk
      · simp only [List.map_cons, List.sum_cons, hf]
        rw [add_right_comm]
      · simp only [List.map_cons, List.sum_cons, ih, add_assoc]

/-- Two tables that go row by row, touched alike. -/
lemma forall₂_touch {β : Type*} {key' : β → κ} {fresh' : κ → β} {g : β → β} {rows' : List β} {R S : α → β → Prop}
    (hkey : ∀ x y, R x y → key x = key' y) (hkeep : ∀ x y, R x y → S x y) (hf : ∀ x y, R x y → S (f x) (g y))
    (hfresh : S (f (fresh k)) (g (fresh' k))) (h : List.Forall₂ R rows rows') :
    List.Forall₂ S (touch key fresh k f rows) (touch key' fresh' k g rows') := by
  induction h with
  | nil => exact List.Forall₂.cons hfresh List.Forall₂.nil
  | @cons x y xs ys hxy hrest ih =>
      rw [touch, touch, hkey x y hxy]
      split_ifs with hk
      · exact List.Forall₂.cons (hf x y hxy) (hrest.imp hkeep)
      · exact List.Forall₂.cons (hkeep x y hxy) ih

/-! ## The end of a list -/

/-- The last `n` entries. -/
def lastN {β : Type*} (n : ℕ) (l : List β) : List β := l.drop (l.length - n)

/-- `append`, and `del l[0]` when the list is too long. -/
def pushBounded {β : Type*} (n : ℕ) (l : List β) (b : β) : List β :=
  if n < (l ++ [b]).length then (l ++ [b]).drop 1 else l ++ [b]

/-- **A bounded list keeps the most recent entries.** -/
lemma pushBounded_lastN {β : Type*} {n : ℕ} (l : List β) (b : β) :
    pushBounded n (lastN n l) b = lastN n (l ++ [b]) := by
  unfold pushBounded lastN
  simp only [List.length_append, List.length_singleton, List.length_drop]
  by_cases hlong : n ≤ l.length
  · have hdrop : l.length - (l.length - n) = n := by omega
    rw [hdrop, if_pos (Nat.lt_succ_self n)]
    rcases Nat.eq_zero_or_pos n with rfl | hn
    · simp
    · rw [← List.drop_append_of_le_length (by omega), List.drop_drop]
      congr 1
      omega
  · have hnone : l.length - n = 0 := by omega
    have hnone' : l.length + 1 - n = 0 := by omega
    rw [hnone, hnone', if_neg (by omega), List.drop_zero, List.drop_zero]

/-! ## Dictionaries -/

/-- An entry of a dictionary is found under its key. -/
lemma lookup_of_mem {β : Type*} {l : List (κ × β)} {b : β} (hl : (l.map Prod.fst).Nodup) (h : (k, b) ∈ l) :
    l.lookup k = some b := by
  induction l with
  | nil => cases h
  | cons entry rest ih =>
      obtain ⟨k', v⟩ := entry
      rw [List.map_cons, List.nodup_cons] at hl
      rcases List.mem_cons.mp h with he | hrest
      · cases he
        simp
      · have hne : (k == k') = false := by
          rw [beq_eq_false_iff_ne]
          rintro rfl
          exact hl.1 (List.mem_map.mpr ⟨(k, b), hrest, rfl⟩)
        rw [List.lookup_cons, hne]
        exact ih hl.2 hrest

end Rows
