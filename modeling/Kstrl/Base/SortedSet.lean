import Mathlib.Order.Basic
import Mathlib.Data.List.Pairwise
import Mathlib.Tactic.Common
import Mathlib.Order.Lattice

/-!
# Sets by their sorted list

A finite set over a linear order, kept as its strictly increasing list, so that two sets with the same elements
are equal and a set can be written out in order.

* **`ofList_toList`**: a set is the set of its own list.
-/

/-- A finite set. -/
@[ext]
structure SortedSet (α : Type*) [LinearOrder α] where
  toList : List α
  sorted : toList.Pairwise (· < ·)
  deriving DecidableEq

namespace SortedSet

variable {α : Type*} [LinearOrder α]

instance : EmptyCollection (SortedSet α) := ⟨⟨[], .nil⟩⟩

instance : Membership α (SortedSet α) := ⟨fun s a => a ∈ s.toList⟩

lemma mem_def {a : α} {s : SortedSet α} : a ∈ s ↔ a ∈ s.toList := Iff.rfl

instance (a : α) (s : SortedSet α) : Decidable (a ∈ s) := inferInstanceAs (Decidable (a ∈ s.toList))

/-- An element in its place. -/
def place (a : α) : List α → List α
  | [] => [a]
  | b :: l => if a < b then a :: b :: l else if a = b then b :: l else b :: place a l

lemma mem_place {a x : α} {l : List α} : x ∈ place a l ↔ x = a ∨ x ∈ l := by
  induction l with
  | nil => rw [place, List.mem_singleton, or_iff_left List.not_mem_nil]
  | cons b l ih =>
      rw [place]
      split_ifs with hlt heq
      · exact List.mem_cons
      · subst heq
        rw [List.mem_cons, or_self_left]
      · rw [List.mem_cons, ih, List.mem_cons, or_left_comm]

lemma place_sorted {a : α} {l : List α} (h : l.Pairwise (· < ·)) : (place a l).Pairwise (· < ·) := by
  induction l with
  | nil => exact List.pairwise_singleton _ a
  | cons b l ih =>
      obtain ⟨hb, hl⟩ := List.pairwise_cons.mp h
      rw [place]
      split_ifs with hlt heq
      · refine List.pairwise_cons.mpr ⟨fun x hx => ?_, h⟩
        rcases List.mem_cons.mp hx with rfl | hx
        · exact hlt
        · exact hlt.trans (hb x hx)
      · exact h
      · refine List.pairwise_cons.mpr ⟨fun x hx => ?_, ih hl⟩
        rcases mem_place.mp hx with rfl | hx
        · exact lt_of_le_of_ne (not_lt.mp hlt) (Ne.symm heq)
        · exact hb x hx

/-- What is above the whole list goes to its end. -/
lemma place_last {a : α} {l : List α} (h : ∀ x ∈ l, x < a) : place a l = l ++ [a] := by
  induction l with
  | nil => rfl
  | cons b l ih =>
      have hb : b < a := h b List.mem_cons_self
      rw [place, if_neg (not_lt.mpr hb.le), if_neg hb.ne', ih fun x hx => h x (List.mem_cons_of_mem _ hx)]
      rfl

instance : Insert α (SortedSet α) := ⟨fun a s => ⟨place a s.toList, place_sorted s.sorted⟩⟩

@[simp] lemma toList_insert (a : α) (s : SortedSet α) : (insert a s).toList = place a s.toList := rfl

@[simp] lemma mem_insert {a x : α} {s : SortedSet α} : x ∈ insert a s ↔ x = a ∨ x ∈ s := mem_place

@[simp] lemma not_mem_empty (a : α) : a ∉ (∅ : SortedSet α) := List.not_mem_nil

/-- The set of a list. -/
def ofList (l : List α) : SortedSet α := l.foldl (fun s a => insert a s) ∅

/-- Elements are put into a set one after another. -/
lemma mem_foldl_insert {l : List α} {s : SortedSet α} {x : α} :
    x ∈ l.foldl (fun s a => insert a s) s ↔ x ∈ s ∨ x ∈ l := by
  induction l generalizing s with
  | nil => rw [List.foldl_nil, or_iff_left List.not_mem_nil]
  | cons a l ih =>
      rw [List.foldl_cons, ih, mem_insert, List.mem_cons, or_assoc, or_left_comm]

lemma mem_toList_ofList {l : List α} {x : α} : x ∈ (ofList l).toList ↔ x ∈ l :=
  mem_foldl_insert.trans (or_iff_right (not_mem_empty x))

lemma toList_foldl_insert {l : List α} {s : SortedSet α} (h : (s.toList ++ l).Pairwise (· < ·)) :
    (l.foldl (fun s a => insert a s) s).toList = s.toList ++ l := by
  induction l generalizing s with
  | nil => exact (List.append_nil _).symm
  | cons a l ih =>
      have hlast : place a s.toList = s.toList ++ [a] :=
        place_last fun x hx => (List.pairwise_append.mp h).2.2 x hx a List.mem_cons_self
      have hs : (insert a s).toList ++ l = s.toList ++ a :: l := by
        rw [toList_insert, hlast, List.append_assoc, List.singleton_append]
      rw [List.foldl_cons, ih (hs ▸ h), hs]

/-- **A set is the set of its list.** -/
theorem ofList_toList (s : SortedSet α) : ofList s.toList = s :=
  SortedSet.ext (toList_foldl_insert (s := ∅) s.sorted)

end SortedSet
