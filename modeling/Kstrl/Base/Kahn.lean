import Kstrl.Base.Worklist
import Mathlib.Algebra.BigOperators.Group.List.Basic
import Mathlib.Data.Int.Cast.Basic
import Mathlib.Data.List.Perm.Subperm
import Mathlib.Data.List.Induction
import Mathlib.Data.List.Nodup
import Mathlib.Data.Fintype.Basic
import Mathlib.Data.Fintype.EquivFin
import Mathlib.Logic.Function.Basic
import Mathlib.Logic.Relation
import Mathlib.Order.WellFounded

/-!
# Kahn's algorithm

A finite graph is a list of nodes and, for every node, the list of nodes it waits for.  The
algorithm keeps for each node how many of these are still to come, and hands a node out when the
number reaches zero.  The order in which the nodes released by one visit are queued is a
parameter, `arrange`.

* **`before`**: in the order handed out, a node stands behind everything it waits for.
* **`mem_order`**: a node all of whose dependencies were handed out was handed out too.
* **`order_complete`**: whether all nodes are handed out does not depend on `arrange`.
* **`complete_iff_acyclic`**: all nodes are handed out if and only if no node waits for itself.
* **`levels_height`**: handed out level by level, a node stands in the level of its longest path.
-/

namespace Kahn

open Worklist

variable {α : Type} [DecidableEq α] (nodes : List α) (deps : α → List α)
  (arrange : List α → List α)

structure State (α : Type) where
  /-- the dependencies still to come -/
  inDegree : α → ℤ
  /-- the nodes handed out -/
  order : List α

/-- The nodes that wait for `node`, each as often as it names it. -/
def dependents (node : α) : List α :=
  nodes.flatMap fun c => ((deps c).filter (· = node)).map fun _ => c

/-- One dependency of `neighbor` was handed out. -/
def release (acc : (α → ℤ) × List α) (neighbor : α) : (α → ℤ) × List α :=
  let left := acc.1 neighbor - 1
  (Function.update acc.1 neighbor left, if left = 0 then acc.2 ++ [neighbor] else acc.2)

/-- Hand `node` out. -/
def visit (s : State α) (node : α) : State α × List α :=
  let released := (arrange (dependents nodes deps node)).foldl release (s.inDegree, [])
  ({ inDegree := released.1, order := s.order ++ [node] }, released.2)

def start : State α := { inDegree := fun c => (deps c).length, order := [] }

/-- The nodes that wait for nothing. -/
def roots : List α := nodes.filter fun c => ((deps c).length : ℤ) = 0

def run : State α × List α :=
  drain (visit nodes deps arrange) nodes.length (start deps) (roots nodes deps)

/-- The nodes in the order they are handed out. -/
def order : List α := (run nodes deps arrange).1.order

/-! ## One visit -/

variable {nodes} {deps} {arrange}

lemma count_dependents (hn : nodes.Nodup) {c : α} (hc : c ∈ nodes) (node : α) :
    (dependents nodes deps node).count c = (deps c).count node := by
  have hone : ∀ a, List.count c (((deps a).filter (· = node)).map fun _ => a)
      = if a = c then (deps c).count node else 0 := by
    intro a
    rw [List.map_const', List.count_replicate, ← List.countP_eq_length_filter, List.count]
    by_cases h : a = c
    · subst h
      simp only [beq_self_eq_true, if_true]
      exact List.countP_congr fun x _ => by simp
    · simp [h]
  rw [dependents, List.count_flatMap]
  simp only [Function.comp_def, hone]
  clear hone
  induction nodes with
  | nil => cases hc
  | cons a nodes ih =>
      obtain ⟨ha, hn⟩ := List.nodup_cons.mp hn
      rw [List.map_cons, List.sum_cons]
      rcases List.mem_cons.mp hc with rfl | hc
      · rw [if_pos rfl, List.sum_eq_zero, Nat.add_zero]
        intro x hx
        obtain ⟨b, hb, rfl⟩ := List.mem_map.mp hx
        exact if_neg fun h : b = c => ha (h ▸ hb)
      · rw [if_neg fun h : a = c => ha (h ▸ hc), Nat.zero_add]
        exact ih hn hc

/-- What a visit does to the numbers, and which nodes it releases. -/
lemma foldl_release (l : List α) (f : α → ℤ) (out : List α)
    (hle : ∀ x ∈ l, (l.count x : ℤ) ≤ f x)
    (hout : ∀ x ∈ out, f x = 0) (hnodup : out.Nodup) :
    (∀ x, (l.foldl release (f, out)).1 x = f x - l.count x) ∧
    (∀ x, x ∈ (l.foldl release (f, out)).2 ↔ x ∈ out ∨ (x ∈ l ∧ f x = l.count x)) ∧
    (l.foldl release (f, out)).2.Nodup := by
  induction l generalizing f out with
  | nil => simpa using hnodup
  | cons a l ih =>
      have hcount : ∀ x, ((a :: l).count x : ℤ) = l.count x + if a = x then 1 else 0 := by
        intro x
        rw [List.count_cons]
        push_cast
        by_cases h : a = x <;> simp [h]
      set g := Function.update f a (f a - 1) with hg
      set out' := if f a - 1 = 0 then out ++ [a] else out with hout'
      have hgx : ∀ x, g x = f x - if a = x then 1 else 0 := by
        intro x
        by_cases h : a = x
        · subst h; simp [hg]
        · rw [hg, Function.update_of_ne (Ne.symm h), if_neg h, sub_zero]
      have ha : a ∉ out := by
        intro h
        have h0 := hout a h
        have h1 := hle a (List.mem_cons_self ..)
        rw [hcount, if_pos rfl, h0] at h1
        omega
      have hmem' : ∀ x, x ∈ out' ↔ x ∈ out ∨ (x = a ∧ f a = 1) := by
        intro x
        rw [hout']
        by_cases h : f a - 1 = 0
        · rw [if_pos h, List.mem_append, List.mem_singleton]
          exact or_congr_right ⟨fun hx => ⟨hx, by omega⟩, fun hx => hx.1⟩
        · rw [if_neg h]
          exact ⟨Or.inl, fun hx => hx.resolve_right fun hx => h (by omega)⟩
      obtain ⟨h1, h2, h3⟩ := ih g out'
        (fun x hx => by
          have := hle x (List.mem_cons_of_mem _ hx)
          rw [hcount] at this
          rw [hgx]
          omega)
        (fun x hx => by
          rw [hgx]
          rcases (hmem' x).mp hx with hx | ⟨rfl, h⟩
          · rw [if_neg fun he : a = x => ha (he ▸ hx), hout x hx, sub_zero]
          · rw [if_pos rfl, h, sub_self])
        (by
          rw [hout']
          split_ifs
          · exact List.nodup_append.mpr ⟨hnodup, List.nodup_singleton a, fun x hx y hy he => by
              rw [List.mem_singleton] at hy
              exact ha (hy ▸ he ▸ hx)⟩
          · exact hnodup)
      refine ⟨fun x => ?_, fun x => ?_, h3⟩
      · rw [List.foldl_cons]
        exact (h1 x).trans (by rw [hgx, hcount]; omega)
      · rw [List.foldl_cons]
        refine (h2 x).trans ?_
        rw [hmem', hgx, hcount, List.mem_cons]
        by_cases h : a = x
        · subst h
          have hx := hle a (List.mem_cons_self ..)
          rw [hcount] at hx
          simp only [if_true, true_and, true_or, true_and]
          by_cases hl : a ∈ l
          · have : 0 < l.count a := List.count_pos_iff.mpr hl
            constructor
            · rintro ((h | h) | h)
              · exact Or.inl h
              · rw [if_pos rfl] at hx; omega
              · exact Or.inr (by omega)
            · rintro (h | h)
              · exact Or.inl (Or.inl h)
              · exact Or.inr ⟨hl, by omega⟩
          · have : l.count a = 0 := List.count_eq_zero.mpr hl
            rw [this]
            simp only [hl, false_and, or_false]
            exact or_congr_right (by omega)
        · have h' : ¬ x = a := fun he => h he.symm
          simp [h, h']

/-- The invariant of the loop. -/
structure Inv (nodes : List α) (deps : α → List α) (s : State α) (queue : List α) : Prop where
  nodup : (s.order ++ queue).Nodup
  known : ∀ x ∈ s.order ++ queue, x ∈ nodes
  left : ∀ c ∈ nodes, s.inDegree c = ((deps c).filter (· ∉ s.order)).length
  ready : ∀ c ∈ nodes, c ∈ s.order ++ queue ↔ s.inDegree c = 0
  before : ∀ l x r, s.order = l ++ x :: r → ∀ d ∈ deps x, d ∈ l

lemma Inv.start (hn : nodes.Nodup) : Inv nodes deps (Kahn.start deps) (roots nodes deps) where
  nodup := hn.filter _
  known x hx := (List.mem_filter.mp hx).1
  left c _ := by simp [Kahn.start]
  ready c hc := by simp [Kahn.start, roots, hc]
  before l x r h := by simp [Kahn.start] at h

lemma length_filter_append {order : List α} {a : α} (ha : a ∉ order) (l : List α) :
    ((l.filter (· ∉ order ++ [a])).length : ℤ) = (l.filter (· ∉ order)).length - l.count a := by
  induction l with
  | nil => rfl
  | cons b l ih =>
      rw [List.filter_cons, List.filter_cons, List.count_cons]
      by_cases hb : b = a
      · rw [if_neg (by simp [hb]), if_pos (by simpa [hb] using ha), if_pos (by simp [hb]), ih,
          List.length_cons]
        push_cast
        omega
      · rw [show (b == a) = false by simpa using hb, if_neg Bool.false_ne_true, Nat.add_zero]
        by_cases ho : b ∈ order
        · rw [if_neg (by simp [ho]), if_neg (by simp [ho]), ih]
        · rw [if_pos (by simp [ho, hb]), if_pos (by simp [ho]), List.length_cons,
            List.length_cons]
          push_cast
          omega

/-- **The step of the invariant.** -/
lemma Inv.visit (hn : nodes.Nodup) (harr : ∀ l, (arrange l).Perm l) {s : State α} {a : α}
    {queue : List α} (h : Inv nodes deps s (a :: queue)) :
    Inv nodes deps (visit nodes deps arrange s a).1
      (queue ++ (visit nodes deps arrange s a).2) := by
  have hkeep : ∀ x, x ∈ s.order ++ a :: queue ↔ x ∈ (s.order ++ [a]) ++ queue := by
    intro x; simp
  have hcount : ∀ c ∈ nodes,
      (arrange (dependents nodes deps a)).count c = (deps c).count a := fun c hc => by
    rw [(harr _).count_eq, count_dependents hn hc]
  have ha : a ∉ s.order := fun hm =>
    (List.nodup_append.mp h.nodup).2.2 a hm a (List.mem_cons_self ..) rfl
  have hmem : ∀ x, x ∈ arrange (dependents nodes deps a) → x ∈ nodes := by
    intro x hx
    obtain ⟨c, hc, hx⟩ := List.mem_flatMap.mp ((harr _).mem_iff.mp hx)
    obtain ⟨_, _, rfl⟩ := List.mem_map.mp hx
    exact hc
  set l := arrange (dependents nodes deps a) with hl
  have hle : ∀ x ∈ nodes, (l.count x : ℤ) ≤ s.inDegree x := by
    intro x hx
    rw [hcount x hx, h.left x hx]
    have := length_filter_append ha (deps x)
    omega
  obtain ⟨h1, h2, h3⟩ := foldl_release l s.inDegree [] (fun x hx => hle x (hmem x hx))
    (fun x hx => by cases hx) List.nodup_nil
  have hdeg : ∀ c ∈ nodes, (Kahn.visit nodes deps arrange s a).1.inDegree c
      = s.inDegree c - (deps c).count a := fun c hc => by
    rw [← hcount c hc]
    exact h1 c
  have hnew : ∀ x, x ∈ (Kahn.visit nodes deps arrange s a).2 ↔
      x ∈ l ∧ s.inDegree x = l.count x := fun x => (h2 x).trans (by simp)
  have hfresh : ∀ x ∈ (Kahn.visit nodes deps arrange s a).2, x ∉ s.order ++ a :: queue := by
    intro x hx hold
    obtain ⟨hxl, hfx⟩ := (hnew x).mp hx
    have hxn := hmem x hxl
    have h0 := (h.ready x hxn).mp hold
    rw [h0] at hfx
    have : 0 < l.count x := List.count_pos_iff.mpr hxl
    omega
  refine ⟨?_, ?_, ?_, ?_, ?_⟩
  · show ((s.order ++ [a]) ++ (queue ++ (Kahn.visit nodes deps arrange s a).2)).Nodup
    rw [← List.append_assoc]
    refine List.nodup_append.mpr ⟨by simpa using h.nodup, ?_, fun x hx y hy he => ?_⟩
    · exact h3
    · exact hfresh y hy (he ▸ (hkeep x).mpr hx)
  · intro x hx
    have hx : x ∈ (s.order ++ [a]) ++ (queue ++ (Kahn.visit nodes deps arrange s a).2) := hx
    rw [← List.append_assoc, List.mem_append] at hx
    rcases hx with hx | hx
    · exact h.known x ((hkeep x).mpr hx)
    · exact hmem x ((hnew x).mp hx).1
  · intro c hc
    rw [hdeg c hc, h.left c hc]
    exact (length_filter_append ha (deps c)).symm
  · intro c hc
    have : c ∈ (Kahn.visit nodes deps arrange s a).1.order ++
        (queue ++ (Kahn.visit nodes deps arrange s a).2) ↔
        c ∈ s.order ++ a :: queue ∨ c ∈ (Kahn.visit nodes deps arrange s a).2 := by
      show c ∈ (s.order ++ [a]) ++ (queue ++ _) ↔ _
      rw [← List.append_assoc, List.mem_append, ← hkeep]
    rw [this, hdeg c hc, h.ready c hc, hnew, ← hcount c hc]
    have hlec := hle c hc
    constructor
    · rintro (h0 | ⟨_, h0⟩)
      · omega
      · omega
    · intro h0
      by_cases hcl : c ∈ l
      · exact Or.inr ⟨hcl, by omega⟩
      · rw [List.count_eq_zero.mpr hcl] at h0
        exact Or.inl (by omega)
  · intro l' x r hsplit d hd
    have hsplit : s.order ++ [a] = l' ++ x :: r := hsplit
    rcases List.eq_nil_or_concat r with rfl | ⟨r', b, rfl⟩
    · obtain ⟨rfl, hx⟩ := List.append_inj' hsplit rfl
      obtain rfl : a = x := (List.cons.inj hx).1
      have hxn := h.known a (by simp)
      have h0 := (h.ready a hxn).mp (by simp)
      rw [h.left a hxn] at h0
      have hempty : (deps a).filter (· ∉ s.order) = [] := List.length_eq_zero_iff.mp (by omega)
      simpa using List.filter_eq_nil_iff.mp hempty d hd
    · have hsplit : s.order ++ [a] = (l' ++ x :: r') ++ [b] := by
        rw [hsplit, List.concat_eq_append, List.append_assoc, List.cons_append]
      exact h.before l' x r' (List.append_inj' hsplit rfl).1 d hd

/-- Where nothing is queued, a node whose dependencies were handed out was handed out. -/
lemma Inv.mem_of_deps {s : State α} (h : Inv nodes deps s []) {c : α} (hc : c ∈ nodes)
    (hdeps : ∀ d ∈ deps c, d ∈ s.order) : c ∈ s.order := by
  have hnone : (deps c).filter (· ∉ s.order) = [] := List.filter_eq_nil_iff.mpr fun d hd => by simpa using hdeps d hd
  have hzero : s.inDegree c = 0 := by
    rw [h.left c hc, hnone]
    rfl
  have hmem := (h.ready c hc).mpr hzero
  rwa [List.append_nil] at hmem

/-! ## The whole run -/

section Run

variable (deps) (hn : nodes.Nodup) (harr : ∀ l, (arrange l).Perm l)

include hn harr

lemma run_inv : Inv nodes deps (run nodes deps arrange).1 (run nodes deps arrange).2 :=
  drain_invariant (I := Inv nodes deps) (fun _ _ _ h => h.visit hn harr) _ _ _ (Inv.start hn)

/-- There is fuel enough. -/
lemma run_empty : (run nodes deps arrange).2 = [] := by
  refine drain_empty (I := Inv nodes deps) (μ := fun s _ => nodes.length - s.order.length)
    (fun _ _ _ h => h.visit hn harr) ?_ _ _ _ (Inv.start hn) (Nat.sub_le _ _)
  intro s a queue h
  have hlen : (s.order ++ a :: queue).length ≤ nodes.length :=
    List.Subperm.length_le (List.Nodup.subperm h.nodup h.known)
  show nodes.length - (s.order ++ [a]).length < nodes.length - s.order.length
  simp only [List.length_append, List.length_cons, List.length_nil] at hlen ⊢
  omega

lemma order_inv : Inv nodes deps (run nodes deps arrange).1 [] := by
  have h := run_inv deps hn harr
  rwa [run_empty deps hn harr] at h

lemma order_nodup : (order nodes deps arrange).Nodup := by
  have h := (order_inv deps hn harr).nodup
  rwa [List.append_nil] at h

lemma order_subset {x : α} (hx : x ∈ order nodes deps arrange) : x ∈ nodes :=
  (order_inv deps hn harr).known x (List.mem_append_left _ hx)

/-- **Dependencies come first.** -/
theorem before {l r : List α} {x : α} (h : order nodes deps arrange = l ++ x :: r) :
    ∀ d ∈ deps x, d ∈ l :=
  (order_inv deps hn harr).before l x r h

/-- A node whose dependencies were handed out was handed out. -/
theorem mem_order {c : α} (hc : c ∈ nodes) (hdeps : ∀ d ∈ deps c, d ∈ order nodes deps arrange) :
    c ∈ order nodes deps arrange :=
  (order_inv deps hn harr).mem_of_deps hc hdeps

/-- **Completeness does not depend on the arrangement.** -/
theorem order_complete {arrange' : List α → List α} (harr' : ∀ l, (arrange' l).Perm l)
    (hall : (order nodes deps arrange').length = nodes.length) {c : α} (hc : c ∈ nodes) :
    c ∈ order nodes deps arrange := by
  have hmem' : c ∈ order nodes deps arrange' := by
    have hsub := List.Nodup.subperm (order_nodup deps hn harr')
      fun x hx => order_subset deps hn harr' hx
    exact (hsub.perm_of_length_le (by omega)).mem_iff.mpr hc
  -- along the complete order every node has its dependencies in the other one
  suffices ∀ l r, order nodes deps arrange' = l ++ r → ∀ x ∈ l, x ∈ order nodes deps arrange from
    this _ [] (by rw [List.append_nil]) c hmem'
  intro l
  induction l using List.reverseRecOn with
  | nil => exact fun _ _ x hx => by cases hx
  | append_singleton l a ih =>
      intro r hsplit x hx
      have hsplit : order nodes deps arrange' = l ++ a :: r := by
        rw [hsplit, List.append_assoc, List.singleton_append]
      have hl := ih (a :: r) hsplit
      rcases List.mem_append.mp hx with hx | hx
      · exact hl x hx
      · obtain rfl := List.mem_singleton.mp hx
        have hxn : x ∈ nodes := order_subset deps hn harr' (by rw [hsplit]; simp)
        exact mem_order deps hn harr hxn fun d hd => hl d (before deps hn harr' hsplit d hd)

end Run

/-! ## Acyclic graphs -/

/-- `a` waits for `b`. -/
def Waits (deps : α → List α) (a b : α) : Prop := b ∈ deps a

/-- No node waits for itself, over one node or many. -/
def Acyclic (nodes : List α) (deps : α → List α) : Prop := ∀ a ∈ nodes, ¬ Relation.TransGen (Waits deps) a a

/-- Induction over what a node waits for. -/
theorem Acyclic.induction {P : α → Prop} (h : Acyclic nodes deps) (hknown : ∀ a ∈ nodes, ∀ d ∈ deps a, d ∈ nodes)
    (step : ∀ a ∈ nodes, (∀ d ∈ deps a, P d) → P a) : ∀ a ∈ nodes, P a := by
  let below : { a // a ∈ nodes } → { a // a ∈ nodes } → Prop := fun d a => Relation.TransGen (Waits deps) a.1 d.1
  have htrans : IsTrans { a // a ∈ nodes } below := ⟨fun _ _ _ hab hbc => hbc.trans hab⟩
  have hirrefl : Std.Irrefl below := ⟨fun a => h a.1 a.2⟩
  have hwf : WellFounded below := Finite.wellFounded_of_trans_of_irrefl below
  suffices ∀ a : { a // a ∈ nodes }, P a.1 from fun a ha => this ⟨a, ha⟩
  intro a
  induction a using hwf.induction with
  | _ a ih => exact step a.1 a.2 fun d hd => ih ⟨d, hknown a.1 a.2 d hd⟩ (.single hd)

omit [DecidableEq α] in
/-- In an order of the nodes with dependencies first, what a node waits for stands before it. -/
lemma mem_of_transGen {ordered : List α} (hbefore : ∀ l x r, ordered = l ++ x :: r → ∀ d ∈ deps x, d ∈ l) {l r : List α}
    {a b : α} (hsplit : ordered = l ++ a :: r) (h : Relation.TransGen (Waits deps) a b) : b ∈ l := by
  induction h with
  | single hb => exact hbefore l a r hsplit _ hb
  | tail _ hc ih =>
      obtain ⟨front, back, rfl⟩ := List.append_of_mem ih
      refine List.mem_append_left _ (hbefore front _ (back ++ a :: r) ?_ _ hc)
      rw [hsplit, List.append_assoc, List.cons_append]

section Complete

variable (hn : nodes.Nodup) (harr : ∀ l, (arrange l).Perm l) (hknown : ∀ a ∈ nodes, ∀ d ∈ deps a, d ∈ nodes)

include hn harr hknown

/-- **Kahn's algorithm decides whether there is a cycle.** -/
theorem complete_iff_acyclic : (order nodes deps arrange).length = nodes.length ↔ Acyclic nodes deps := by
  have hsub := List.Nodup.subperm (order_nodup deps hn harr) fun x hx => order_subset deps hn harr hx
  constructor
  · intro hlength a ha hcycle
    have hmem : a ∈ order nodes deps arrange := (hsub.perm_of_length_le (by omega)).mem_iff.mpr ha
    obtain ⟨l, r, hsplit⟩ := List.append_of_mem hmem
    have hbehind := mem_of_transGen (fun _ _ _ h => before deps hn harr h) hsplit hcycle
    have hnodup := order_nodup deps hn harr
    rw [hsplit] at hnodup
    exact (List.nodup_append.mp hnodup).2.2 a hbehind a List.mem_cons_self rfl
  · intro hacyclic
    have hall : ∀ a ∈ nodes, a ∈ order nodes deps arrange :=
      hacyclic.induction hknown fun a ha hdeps => mem_order deps hn harr ha hdeps
    exact le_antisymm hsub.length_le (List.Nodup.subperm hn hall).length_le

lemma order_perm (hacyclic : Acyclic nodes deps) : (order nodes deps arrange).Perm nodes :=
  (List.Nodup.subperm (order_nodup deps hn harr) fun _ hx => order_subset deps hn harr hx).perm_of_length_le
    ((complete_iff_acyclic hn harr hknown).mpr hacyclic).ge

end Complete

/-! ## Level by level -/

/-- There is a path of so many steps from a node through what it waits for. -/
inductive Path (deps : α → List α) : α → ℕ → Prop where
  | nil (a : α) : Path deps a 0
  | cons {a d : α} {n : ℕ} (hd : d ∈ deps a) (path : Path deps d n) : Path deps a (n + 1)

/-- The longest path from a node has `n` steps. -/
structure Height (deps : α → List α) (a : α) (n : ℕ) : Prop where
  path : Path deps a n
  longest : ∀ k, Path deps a k → k ≤ n

variable (nodes deps) in
/-- A node of the level is handed out; what it releases comes to the next level. -/
def levelVisit (acc : (α → ℤ) × List α) (node : α) : (α → ℤ) × List α :=
  (dependents nodes deps node).foldl release acc

variable (nodes deps) in
/-- The levels from `current` on. -/
def levelsFrom : ℕ → (α → ℤ) → List α → List (List α)
  | 0, _, _ => []
  | _ + 1, _, [] => []
  | fuel + 1, inDegree, a :: current =>
      let next := (a :: current).foldl (levelVisit nodes deps) (inDegree, [])
      (a :: current) :: levelsFrom fuel next.1 next.2

/-- What a list releases does not depend on what was released before. -/
lemma foldl_release_append (l : List α) (f : α → ℤ) (out : List α) :
    l.foldl release (f, out) = ((l.foldl release (f, [])).1, out ++ (l.foldl release (f, [])).2) := by
  induction l using List.reverseRecOn with
  | nil => simp
  | append_singleton l a ih =>
      rw [List.foldl_append, List.foldl_append, List.foldl_cons, List.foldl_nil, List.foldl_cons, List.foldl_nil, ih,
        release, release]
      dsimp only
      split_ifs
      · rw [List.append_assoc]
      · rfl

/-- A level is handed out node by node. -/
lemma Inv.level (hn : nodes.Nodup) {s : State α} {current next : List α} (h : Inv nodes deps s (current ++ next)) :
    ∃ s', Inv nodes deps s' (current.foldl (levelVisit nodes deps) (s.inDegree, next)).2 ∧
      s'.inDegree = (current.foldl (levelVisit nodes deps) (s.inDegree, next)).1 ∧ s'.order = s.order ++ current := by
  induction current generalizing s next with
  | nil => exact ⟨s, h, rfl, (List.append_nil _).symm⟩
  | cons a current ih =>
      have hvisit : Inv nodes deps (Kahn.visit nodes deps id s a).1
          ((current ++ next) ++ (Kahn.visit nodes deps id s a).2) := h.visit hn fun l => List.Perm.refl l
      have hsame : levelVisit nodes deps (s.inDegree, next) a
          = ((Kahn.visit nodes deps id s a).1.inDegree, next ++ (Kahn.visit nodes deps id s a).2) :=
        foldl_release_append _ _ _
      rw [List.append_assoc] at hvisit
      obtain ⟨s', hinv, hdegree, horder⟩ := ih hvisit
      rw [List.foldl_cons, hsame]
      refine ⟨s', hinv, hdegree, ?_⟩
      rw [horder]
      exact List.append_assoc _ _ _

/-- What stands in the level behind nodes of heights up to `k`. -/
lemma height_next {s s' : State α} {current next : List α} {k : ℕ} (h : Inv nodes deps s current)
    (h' : Inv nodes deps s' next) (horder : s'.order = s.order ++ current)
    (hdone : ∀ c ∈ s.order, ∃ i ≤ k, Height deps c i) (hcurrent : ∀ c ∈ current, Height deps c k) :
    ∀ c ∈ next, Height deps c (k + 1) := by
  intro c hc
  have hnode : c ∈ nodes := h'.known c (List.mem_append_right _ hc)
  have hfresh : c ∉ s.order ++ current := fun hold =>
    (List.nodup_append.mp h'.nodup).2.2 c (horder ▸ hold) c hc rfl
  have hdeps : ∀ d ∈ deps c, d ∈ s.order ++ current := by
    have hzero := (h'.ready c hnode).mp (List.mem_append_right _ hc)
    rw [h'.left c hnode, horder] at hzero
    have hempty : (deps c).filter (· ∉ s.order ++ current) = [] := List.length_eq_zero_iff.mp (by omega)
    intro d hd
    by_contra hnot
    have hmem : d ∈ (deps c).filter (· ∉ s.order ++ current) := List.mem_filter.mpr ⟨hd, decide_eq_true hnot⟩
    rw [hempty] at hmem
    cases hmem
  constructor
  · -- a dependency was handed out with the level just now
    have hlast : ∃ d ∈ deps c, d ∉ s.order := by
      by_contra hall
      push Not at hall
      have hempty : (deps c).filter (· ∉ s.order) = [] :=
        List.filter_eq_nil_iff.mpr fun d hd => by simpa using hall d hd
      exact hfresh ((h.ready c hnode).mpr (by rw [h.left c hnode, hempty]; rfl))
    obtain ⟨d, hd, hnot⟩ := hlast
    exact .cons hd (hcurrent d ((List.mem_append.mp (hdeps d hd)).resolve_left hnot)).path
  · intro n path
    cases path with
    | nil => exact Nat.zero_le _
    | cons hd path =>
        refine Nat.succ_le_succ ?_
        rcases List.mem_append.mp (hdeps _ hd) with hd | hd
        · obtain ⟨i, hi, hheight⟩ := hdone _ hd
          exact (hheight.longest _ path).trans hi
        · exact (hcurrent _ hd).longest _ path

/-- **The levels from one level on.** -/
lemma levelsFrom_height (hn : nodes.Nodup) {fuel : ℕ} {s : State α} {current : List α} {k : ℕ}
    (h : Inv nodes deps s current) (hfuel : nodes.length ≤ s.order.length + fuel)
    (hdone : ∀ c ∈ s.order, ∃ i ≤ k, Height deps c i) (hcurrent : ∀ c ∈ current, Height deps c k) :
    (∀ i level, (levelsFrom nodes deps fuel s.inDegree current)[i]? = some level →
      ∀ c ∈ level, Height deps c (k + i)) ∧
      ∃ s', Inv nodes deps s' [] ∧
        s'.order = s.order ++ (levelsFrom nodes deps fuel s.inDegree current).flatten := by
  induction fuel generalizing s current k with
  | zero =>
      have hlength : (s.order ++ current).length ≤ nodes.length := (List.Nodup.subperm h.nodup h.known).length_le
      rw [List.length_append] at hlength
      have hempty : current = [] := List.length_eq_zero_iff.mp (by omega)
      subst hempty
      refine ⟨fun i level hlevel => ?_, s, h, (List.append_nil _).symm⟩
      simp [levelsFrom] at hlevel
  | succ fuel ih =>
      cases current with
      | nil =>
          refine ⟨fun i level hlevel => ?_, s, h, (List.append_nil _).symm⟩
          simp [levelsFrom] at hlevel
      | cons a current =>
          obtain ⟨s', hinv, hdegree, horder⟩ := Inv.level hn
            (show Inv nodes deps s ((a :: current) ++ []) by rwa [List.append_nil])
          have hnext := height_next h hinv horder hdone hcurrent
          have hdone' : ∀ c ∈ s'.order, ∃ i ≤ k + 1, Height deps c i := by
            intro c hc
            rw [horder] at hc
            rcases List.mem_append.mp hc with hc | hc
            · obtain ⟨i, hi, hheight⟩ := hdone c hc
              exact ⟨i, Nat.le_succ_of_le hi, hheight⟩
            · exact ⟨k, Nat.le_succ k, hcurrent c hc⟩
          have hfuel' : nodes.length ≤ s'.order.length + fuel := by
            rw [horder, List.length_append, List.length_cons]
            omega
          obtain ⟨hheights, last, hlast, hlastOrder⟩ := ih hinv hfuel' hdone' hnext
          rw [hdegree] at hheights hlastOrder
          refine ⟨fun i level hlevel => ?_, last, hlast, ?_⟩
          · cases i with
            | zero =>
                cases hlevel
                exact hcurrent
            | succ i =>
                have hshift : k + (i + 1) = k + 1 + i := by omega
                rw [hshift]
                exact hheights i level hlevel
          · rw [hlastOrder, horder, List.append_assoc]
            rfl

variable (nodes deps) in
/-- The levels of the graph. -/
def levels : List (List α) := levelsFrom nodes deps nodes.length (fun c => (deps c).length) (roots nodes deps)

/-- **Level by level**, every node is handed out once, in the level of its longest path. -/
theorem levels_height (hn : nodes.Nodup) (hknown : ∀ a ∈ nodes, ∀ d ∈ deps a, d ∈ nodes) (hacyclic : Acyclic nodes deps) :
    (levels nodes deps).flatten.Perm nodes ∧
      ∀ i level, (levels nodes deps)[i]? = some level → ∀ c ∈ level, Height deps c i := by
  have hroots : ∀ c ∈ roots nodes deps, Height deps c 0 := by
    intro c hc
    have hzero : ((deps c).length : ℤ) = 0 := by simpa [roots] using (List.mem_filter.mp hc).2
    have hempty : deps c = [] := List.length_eq_zero_iff.mp (by omega)
    refine ⟨.nil c, fun n path => ?_⟩
    cases path with
    | nil => exact le_refl 0
    | cons hd path =>
        rw [hempty] at hd
        cases hd
  obtain ⟨hheights, last, hlast, horder⟩ := levelsFrom_height hn (Inv.start hn)
    (show nodes.length ≤ 0 + nodes.length by omega) (fun _ hc => by cases hc) hroots
  have hflat : last.order = (levels nodes deps).flatten := horder
  have hall : ∀ a ∈ nodes, a ∈ last.order := hacyclic.induction hknown fun a ha hdeps => hlast.mem_of_deps ha hdeps
  have hnodup : last.order.Nodup := by simpa using hlast.nodup
  refine ⟨?_, fun i level hlevel c hc => ?_⟩
  · rw [← hflat]
    exact (List.perm_ext_iff_of_nodup hnodup hn).mpr fun a =>
      ⟨fun ha => hlast.known a (List.mem_append_left _ ha), hall a⟩
  · have hheight := hheights i level hlevel c hc
    rwa [Nat.zero_add] at hheight

end Kahn
