import Mathlib.Data.List.Induction
import Mathlib.Data.List.Nodup
import Mathlib.Order.Basic
import Mathlib.Tactic.Common
import Mathlib.Order.Lattice

/-!
# Entries under distinct keys

A dict as the list of its entries in order: what `List.lookup` finds after the entries are rewritten or
dropped one by one, and the dict that a list of entries makes.
-/

namespace Keyed

variable {κ α β : Type*} [BEq κ] [LawfulBEq κ]

lemma lookup_cons_self (k : κ) (a : α) (l : List (κ × α)) : ((k, a) :: l).lookup k = some a := by
  rw [List.lookup_cons, beq_self_eq_true]

lemma lookup_cons_ne {k j : κ} (h : k ≠ j) (a : α) (l : List (κ × α)) : ((j, a) :: l).lookup k = l.lookup k := by
  rw [List.lookup_cons, beq_false_of_ne h]

lemma mem_of_lookup {k : κ} {a : α} {l : List (κ × α)} (h : l.lookup k = some a) : (k, a) ∈ l := by
  induction l with
  | nil => cases h
  | cons e l ih =>
      obtain ⟨j, b⟩ := e
      by_cases hk : k = j
      · subst hk
        rw [lookup_cons_self] at h
        exact Option.some.inj h ▸ List.mem_cons_self
      · rw [lookup_cons_ne hk] at h
        exact List.mem_cons_of_mem _ (ih h)

lemma lookup_eq_none {k : κ} {l : List (κ × α)} (h : k ∉ l.map Prod.fst) : l.lookup k = none := by
  induction l with
  | nil => rfl
  | cons e l ih =>
      obtain ⟨j, b⟩ := e
      rw [List.map_cons, List.mem_cons, not_or] at h
      rw [lookup_cons_ne h.1, ih h.2]

lemma lookup_of_mem {k : κ} {a : α} {l : List (κ × α)} (hl : (l.map Prod.fst).Nodup) (h : (k, a) ∈ l) :
    l.lookup k = some a := by
  induction l with
  | nil => cases h
  | cons e l ih =>
      obtain ⟨hfresh, hl⟩ := List.nodup_cons.mp hl
      rcases List.mem_cons.mp h with rfl | h
      · exact lookup_cons_self _ _ _
      · rw [lookup_cons_ne (j := e.1) (fun heq => hfresh (heq ▸ List.mem_map_of_mem h)), ih hl h]

/-- Rewrite the values of the entries, and drop those that have none. -/
def filterMap (f : κ → α → Option β) (l : List (κ × α)) : List (κ × β) :=
  l.filterMap fun e => (f e.1 e.2).map fun b => (e.1, b)

omit [BEq κ] [LawfulBEq κ] in
lemma filterMap_cons (f : κ → α → Option β) (k : κ) (a : α) (l : List (κ × α)) :
    filterMap f ((k, a) :: l) = (match f k a with
      | none => filterMap f l
      | some b => (k, b) :: filterMap f l) := by
  cases hf : f k a <;> simp [filterMap, hf]

omit [BEq κ] [LawfulBEq κ] in
lemma keys_filterMap_subset (f : κ → α → Option β) (l : List (κ × α)) :
    (filterMap f l).map Prod.fst ⊆ l.map Prod.fst := by
  intro k hk
  obtain ⟨⟨j, b⟩, hb, rfl⟩ := List.mem_map.mp hk
  obtain ⟨e, he, hfe⟩ := List.mem_filterMap.mp hb
  obtain ⟨b', -, hpair⟩ := Option.map_eq_some_iff.mp hfe
  obtain ⟨rfl, rfl⟩ := Prod.mk.inj hpair
  exact List.mem_map_of_mem he

/-- **What is found after the rewriting** is what was found before it, rewritten. -/
theorem lookup_filterMap (f : κ → α → Option β) {l : List (κ × α)} (hl : (l.map Prod.fst).Nodup) (k : κ) :
    (filterMap f l).lookup k = (l.lookup k).bind (f k) := by
  induction l with
  | nil => rfl
  | cons e l ih =>
      obtain ⟨j, a⟩ := e
      obtain ⟨hfresh, hl⟩ := List.nodup_cons.mp hl
      rw [filterMap_cons]
      by_cases hk : k = j
      · subst hk
        rw [lookup_cons_self, Option.bind_some]
        cases f k a with
        | none => exact lookup_eq_none fun hmem => hfresh (keys_filterMap_subset f l hmem)
        | some b => exact lookup_cons_self _ _ _
      · rw [lookup_cons_ne hk, ← ih hl]
        cases f j a with
        | none => rfl
        | some b => exact lookup_cons_ne hk _ _

/-- Sorted entries are known by what is found among them. -/
theorem eq_of_lookup [LinearOrder κ] {l l' : List (κ × α)} (hl : (l.map Prod.fst).Pairwise (· < ·))
    (hl' : (l'.map Prod.fst).Pairwise (· < ·)) (h : ∀ k, l.lookup k = l'.lookup k) : l = l' := by
  have hnodup : ∀ {l : List (κ × α)}, (l.map Prod.fst).Pairwise (· < ·) → (l.map Prod.fst).Nodup :=
    fun hl => hl.imp fun hlt => hlt.ne
  have hmem : ∀ e, e ∈ l ↔ e ∈ l' := fun e =>
    ⟨fun he => mem_of_lookup (h e.1 ▸ lookup_of_mem (hnodup hl) he),
      fun he => mem_of_lookup ((h e.1).symm ▸ lookup_of_mem (hnodup hl') he)⟩
  have hantisymm : ∀ a b : κ × α, a ∈ l → b ∈ l' → a.1 < b.1 → b.1 < a.1 → a = b :=
    fun a b _ _ hab hba => absurd (hab.trans hba) (lt_irrefl _)
  exact List.Perm.eq_of_pairwise hantisymm (List.pairwise_map.mp hl) (List.pairwise_map.mp hl')
    ((List.perm_ext_iff_of_nodup (hnodup hl).of_map (hnodup hl').of_map).mpr hmem)

omit [LawfulBEq κ] in
/-- Rewritten values keep their keys. -/
lemma lookup_map (f : α → β) (k : κ) (l : List (κ × α)) :
    (l.map fun e => (e.1, f e.2)).lookup k = (l.lookup k).map f := by
  induction l with
  | nil => rfl
  | cons e l ih =>
      obtain ⟨j, a⟩ := e
      rw [List.map_cons, List.lookup_cons, List.lookup_cons, ih]
      cases k == j <;> rfl

/-! ## The dict of a list -/

/-- An entry in the place of the one under its key, or at the end. -/
def set (k : κ) (a : α) : List (κ × α) → List (κ × α)
  | [] => [(k, a)]
  | e :: l => if e.1 == k then (k, a) :: l else e :: set k a l

/-- The dict of a list of entries, a later one in the place of an earlier one. -/
def dict (l : List (κ × α)) : List (κ × α) := l.foldl (fun d e => set e.1 e.2 d) []

lemma keys_set (k : κ) (a : α) (l : List (κ × α)) :
    (set k a l).map Prod.fst = if k ∈ l.map Prod.fst then l.map Prod.fst else l.map Prod.fst ++ [k] := by
  induction l with
  | nil => rfl
  | cons e l ih =>
      by_cases he : e.1 = k
      · rw [set, if_pos (beq_iff_eq.mpr he), List.map_cons, List.map_cons, ← he, if_pos List.mem_cons_self]
      · have hmem : k ∈ e.1 :: l.map Prod.fst ↔ k ∈ l.map Prod.fst := by
          rw [List.mem_cons, or_iff_right (Ne.symm he)]
        rw [set, if_neg (fun h => he (beq_iff_eq.mp h)), List.map_cons, List.map_cons, ih]
        by_cases hk : k ∈ l.map Prod.fst
        · rw [if_pos hk, if_pos (hmem.mpr hk)]
        · rw [if_neg hk, if_neg (fun h => hk (hmem.mp h)), List.cons_append]

lemma nodup_set {k : κ} {a : α} {l : List (κ × α)} (h : (l.map Prod.fst).Nodup) :
    ((set k a l).map Prod.fst).Nodup := by
  rw [keys_set]
  split_ifs with hk
  · exact h
  · exact List.Nodup.append h (List.nodup_singleton k) (List.disjoint_singleton.mpr hk)

lemma lookup_set (k j : κ) (a : α) (l : List (κ × α)) :
    (set k a l).lookup j = if j == k then some a else l.lookup j := by
  induction l with
  | nil =>
      rw [set, List.lookup_cons]
      cases j == k <;> rfl
  | cons e l ih =>
      obtain ⟨i, b⟩ := e
      rw [set]
      split_ifs with hi hj hj
      · rw [List.lookup_cons, hj]
      · rw [List.lookup_cons, List.lookup_cons, ← beq_iff_eq.mp hi]
        rw [← beq_iff_eq.mp hi] at hj
        simp [hj]
      · obtain rfl := beq_iff_eq.mp hj
        rw [lookup_cons_ne (fun heq => hi (beq_iff_eq.mpr heq.symm)), ih, if_pos hj]
      · rw [List.lookup_cons, List.lookup_cons, ih, if_neg hj]

omit [LawfulBEq κ] in
lemma set_map (f : α → β) (k : κ) (a : α) (l : List (κ × α)) :
    set k (f a) (l.map fun e => (e.1, f e.2)) = (set k a l).map fun e => (e.1, f e.2) := by
  induction l with
  | nil => rfl
  | cons e l ih =>
      rw [List.map_cons, set, set]
      split_ifs
      · rfl
      · rw [ih, List.map_cons]

omit [LawfulBEq κ] in
lemma mem_of_mem_set {k : κ} {a : α} {l : List (κ × α)} {e : κ × α} (h : e ∈ set k a l) : e = (k, a) ∨ e ∈ l := by
  induction l with
  | nil => exact .inl (List.mem_singleton.mp h)
  | cons d l ih =>
      rw [set] at h
      split_ifs at h
      · exact (List.mem_cons.mp h).imp_right (List.mem_cons_of_mem _)
      · rcases List.mem_cons.mp h with rfl | h
        · exact .inr List.mem_cons_self
        · exact (ih h).imp_right (List.mem_cons_of_mem _)

/-- **What a dict has under a key** is the last entry under it. -/
theorem lookup_dict (l : List (κ × α)) (k : κ) : (dict l).lookup k = l.reverse.lookup k := by
  induction l using List.reverseRecOn with
  | nil => rfl
  | append_singleton l e ih =>
      have hlast : dict (l ++ [e]) = set e.1 e.2 (dict l) := by rw [dict, List.foldl_append]; rfl
      rw [hlast, lookup_set, List.reverse_append, List.reverse_singleton, List.singleton_append, ih]
      obtain ⟨j, a⟩ := e
      rw [List.lookup_cons]
      cases k == j <;> rfl

/-- An entry whose key has one value is in the dict. -/
lemma mem_dict {k : κ} {a : α} {l : List (κ × α)} (h : (k, a) ∈ l) (hunique : ∀ e ∈ l, e.1 = k → e.2 = a) :
    (k, a) ∈ dict l := by
  refine mem_of_lookup ?_
  rw [lookup_dict]
  cases hfind : l.reverse.lookup k with
  | none =>
      have hno := List.lookup_eq_none_iff.mp hfind (k, a) (List.mem_reverse.mpr h)
      exact absurd rfl (bne_iff_ne.mp hno)
  | some b => rw [← hunique (k, b) (List.mem_reverse.mp (mem_of_lookup hfind)) rfl]

/-- A dict has no key twice. -/
theorem nodup_dict (l : List (κ × α)) : ((dict l).map Prod.fst).Nodup := by
  have hfold : ∀ (l d : List (κ × α)), (d.map Prod.fst).Nodup →
      ((l.foldl (fun d e => set e.1 e.2 d) d).map Prod.fst).Nodup := by
    intro l
    induction l with
    | nil => exact fun _ hd => hd
    | cons e l ih => exact fun d hd => ih _ (nodup_set hd)
  exact hfold l [] List.nodup_nil

/-- The dict of entries under distinct keys. -/
lemma dict_of_nodup {l : List (κ × α)} (h : (l.map Prod.fst).Nodup) : dict l = l := by
  have hset : ∀ (d : List (κ × α)) (k : κ) (b : α), k ∉ d.map Prod.fst → set k b d = d ++ [(k, b)] := by
    intro d k b hk
    induction d with
    | nil => rfl
    | cons e d ih =>
        rw [List.map_cons, List.mem_cons, not_or] at hk
        rw [set, if_neg fun heq => hk.1 (eq_of_beq heq).symm, ih hk.2, List.cons_append]
  induction l using List.reverseRecOn with
  | nil => rfl
  | append_singleton l e ih =>
      rw [List.map_append, List.map_cons, List.map_nil, List.nodup_append] at h
      have hdict := ih h.1
      unfold dict at hdict ⊢
      rw [List.foldl_append, hdict, List.foldl_cons, List.foldl_nil]
      exact hset l e.1 e.2 fun hmem => h.2.2 e.1 hmem e.1 (List.mem_singleton_self _) rfl

lemma mem_keys_dict {l : List (κ × α)} {k : κ} : k ∈ (dict l).map Prod.fst ↔ k ∈ l.map Prod.fst := by
  have hfold : ∀ (l d : List (κ × α)), k ∈ (l.foldl (fun d e => set e.1 e.2 d) d).map Prod.fst ↔
      k ∈ d.map Prod.fst ∨ k ∈ l.map Prod.fst := by
    intro l
    induction l with
    | nil => intro d; rw [List.foldl_nil, List.map_nil, or_iff_left List.not_mem_nil]
    | cons e l ih =>
        intro d
        rw [List.foldl_cons, ih, keys_set, List.map_cons, List.mem_cons]
        split_ifs with hk
        · constructor
          · exact Or.imp_right .inr
          · rintro (hd | rfl | hl)
            · exact .inl hd
            · exact .inl hk
            · exact .inr hl
        · rw [List.mem_append, List.mem_singleton, or_assoc]
  exact (hfold l []).trans (or_iff_right List.not_mem_nil)

end Keyed
