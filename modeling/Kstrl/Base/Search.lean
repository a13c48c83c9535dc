import Kstrl.Base.Worklist
import Mathlib.Data.List.Nodup

/-!
# Searches through a graph

A breadth-first search with a set of visited nodes, in which not every node that is visited is gone through.

* **`mem_found_iff`**: the nodes gone through are those with a chain from the start through such nodes.
* **`run_queue`**: one pop for each node, and one for the start, are enough.
* **`drain_map`**: a search whose state is made from the state of another one.
-/

namespace Worklist

variable {σ τ α : Type}

/-- A worklist loop in step with another one, where an invariant holds. -/
theorem drain_map {step : σ → α → σ × List α} {step' : τ → α → τ × List α} {f : σ → τ} {I : σ → Prop}
    (kept : ∀ s a, I s → I (step s a).1) (same : ∀ s a, I s → step' (f s) a = (f (step s a).1, (step s a).2))
    (fuel : ℕ) {s : σ} (init : I s) (queue : List α) :
    drain step' fuel (f s) queue = (f (drain step fuel s queue).1, (drain step fuel s queue).2) := by
  induction fuel generalizing s queue with
  | zero => rfl
  | succ fuel ih =>
      cases queue with
      | nil => rfl
      | cons a queue =>
          rw [drain, drain, same s a init]
          exact ih (kept s a init) _

end Worklist

namespace Search

open Worklist

variable {α : Type} [DecidableEq α]

/-- The nodes visited, and those of them that are gone through. -/
structure State (α : Type) where
  visited : List α
  found : List α

section

variable (next : α → List α) (passes : α → Bool)

/-- One neighbour, with what is appended to the queue so far. -/
def neighbor (acc : State α × List α) (b : α) : State α × List α :=
  if b ∈ acc.1.visited then acc
  else if passes b then (⟨acc.1.visited ++ [b], acc.1.found ++ [b]⟩, acc.2 ++ [b])
  else (⟨acc.1.visited ++ [b], acc.1.found⟩, acc.2)

def visit (s : State α) (a : α) : State α × List α := (next a).foldl (neighbor passes) (s, [])

/-- A chain from the start through nodes that are gone through, none of them closed. -/
inductive Reach (closed : List α) (start : α) : α → Prop where
  | first {b : α} (edge : b ∈ next start) (hopen : b ∉ closed) (hpasses : passes b = true) : Reach closed start b
  | later {a b : α} (path : Reach closed start a) (edge : b ∈ next a) (hopen : b ∉ closed) (hpasses : passes b = true) :
      Reach closed start b

/-- What a search has done so far: `expanded` are the nodes popped. -/
structure Inv (closed : List α) (start : α) (expanded : List α) (s : State α) (queue : List α) : Prop where
  found_iff : ∀ b, b ∈ s.found ↔ b ∈ s.visited ∧ b ∉ closed ∧ passes b = true
  closed_visited : ∀ b ∈ closed, b ∈ s.visited
  reach : ∀ b ∈ s.found, Reach next passes closed start b
  queued : ∀ b, b = start ∨ b ∈ s.found → b ∈ expanded ∨ b ∈ queue
  origin : ∀ b ∈ queue, b = start ∨ b ∈ s.found
  done : ∀ a ∈ expanded, ∀ b ∈ next a, b ∈ s.visited

/-- The search, with what is left of its queue. -/
def run (closed : List α) (start : α) (fuel : ℕ) : State α × List α :=
  drain (visit next passes) fuel ⟨closed, []⟩ [start]

variable {next passes}

/-- What is gone through was visited. -/
lemma neighbor_subset (acc : State α × List α) (h : ∀ b ∈ acc.1.found, b ∈ acc.1.visited) (b : α) :
    ∀ x ∈ (neighbor passes acc b).1.found, x ∈ (neighbor passes acc b).1.visited := by
  intro x hx
  rw [neighbor] at hx ⊢
  split_ifs at hx ⊢ with hvisited hpasses
  · exact h x hx
  · rcases List.mem_append.mp hx with hx | hx
    · exact List.mem_append_left _ (h x hx)
    · exact List.mem_append_right _ hx
  · exact List.mem_append_left _ (h x hx)

/-- A neighbour that is seen. -/
lemma neighbor_inv {closed : List α} {start : α} {expanded : List α} {acc : State α × List α} {queue : List α} {a b : α}
    (h : Inv next passes closed start expanded acc.1 (queue ++ acc.2)) (ha : a = start ∨ a ∈ acc.1.found)
    (hb : b ∈ next a) :
    Inv next passes closed start expanded (neighbor passes acc b).1 (queue ++ (neighbor passes acc b).2) ∧
      b ∈ (neighbor passes acc b).1.visited ∧ (∀ x ∈ acc.1.visited, x ∈ (neighbor passes acc b).1.visited) ∧
      ∀ x ∈ acc.1.found, x ∈ (neighbor passes acc b).1.found := by
  rw [neighbor]
  split_ifs with hvisited hpasses
  · exact ⟨h, hvisited, fun _ hx => hx, fun _ hx => hx⟩
  · have hopen : b ∉ closed := fun hmem => hvisited (h.closed_visited b hmem)
    have hreach : Reach next passes closed start b := by
      rcases ha with rfl | ha
      · exact .first hb hopen hpasses
      · exact .later (h.reach a ha) hb hopen hpasses
    refine ⟨⟨fun x => ?_, fun x hx => List.mem_append_left _ (h.closed_visited x hx), fun x hx => ?_, fun x hx => ?_,
      fun x hx => ?_, fun x hx y hy => List.mem_append_left _ (h.done x hx y hy)⟩,
      List.mem_append_right _ List.mem_cons_self, fun x hx => List.mem_append_left _ hx,
      fun x hx => List.mem_append_left _ hx⟩
    · rw [List.mem_append, List.mem_append, h.found_iff, List.mem_singleton]
      constructor
      · rintro (⟨hx, hrest⟩ | rfl)
        · exact ⟨Or.inl hx, hrest⟩
        · exact ⟨Or.inr rfl, hopen, hpasses⟩
      · rintro ⟨hx | rfl, hrest⟩
        · exact Or.inl ⟨hx, hrest⟩
        · exact Or.inr rfl
    · rcases List.mem_append.mp hx with hx | hx
      · exact h.reach x hx
      · rwa [List.mem_singleton.mp hx]
    · rw [← List.append_assoc, List.mem_append]
      rw [List.mem_append, ← or_assoc] at hx
      rcases hx with hx | hx
      · exact (h.queued x hx).imp_right Or.inl
      · exact Or.inr (Or.inr hx)
    · rw [← List.append_assoc, List.mem_append] at hx
      rcases hx with hx | hx
      · exact (h.origin x hx).imp_right (List.mem_append_left _)
      · exact Or.inr (List.mem_append_right _ hx)
  · refine ⟨⟨fun x => ?_, fun x hx => List.mem_append_left _ (h.closed_visited x hx), h.reach, h.queued, h.origin,
      fun x hx y hy => List.mem_append_left _ (h.done x hx y hy)⟩, List.mem_append_right _ List.mem_cons_self,
      fun x hx => List.mem_append_left _ hx, fun _ hx => hx⟩
    rw [h.found_iff, List.mem_append, List.mem_singleton, or_and_right, or_iff_left]
    rintro ⟨rfl, -, hyes⟩
    exact hpasses hyes

/-- The neighbours of one node. -/
lemma neighbors_inv {closed : List α} {start : α} {expanded queue : List α} {a : α} (bs : List α)
    (hbs : ∀ b ∈ bs, b ∈ next a) {acc : State α × List α}
    (h : Inv next passes closed start expanded acc.1 (queue ++ acc.2)) (ha : a = start ∨ a ∈ acc.1.found) :
    Inv next passes closed start expanded (bs.foldl (neighbor passes) acc).1
        (queue ++ (bs.foldl (neighbor passes) acc).2) ∧
      (∀ b ∈ bs, b ∈ (bs.foldl (neighbor passes) acc).1.visited) ∧
      ∀ b ∈ acc.1.visited, b ∈ (bs.foldl (neighbor passes) acc).1.visited := by
  induction bs generalizing acc with
  | nil => exact ⟨h, fun _ h => absurd h List.not_mem_nil, fun _ hb => hb⟩
  | cons b bs ih =>
      obtain ⟨hb, hbs⟩ := List.forall_mem_cons.mp hbs
      obtain ⟨hinv, hvisited, hmono, hfound⟩ := neighbor_inv h ha hb
      obtain ⟨hrest, hseen, hkept⟩ := ih hbs hinv (ha.imp_right (hfound a))
      exact ⟨hrest, List.forall_mem_cons.mpr ⟨hkept b hvisited, hseen⟩, fun x hx => hkept x (hmono x hx)⟩

/-- A node that is popped. -/
lemma visit_inv {closed : List α} {start : α} {expanded : List α} {s : State α} {queue : List α} {a : α}
    (h : Inv next passes closed start expanded s (a :: queue)) :
    Inv next passes closed start (a :: expanded) (visit next passes s a).1 (queue ++ (visit next passes s a).2) := by
  have ha := h.origin a List.mem_cons_self
  have hacc : Inv next passes closed start expanded (s, ([] : List α)).1 (a :: queue ++ (s, ([] : List α)).2) := by
    rwa [List.append_nil]
  obtain ⟨hinv, hseen, hkept⟩ := neighbors_inv (next a) (fun _ hb => hb) hacc ha
  refine ⟨hinv.found_iff, hinv.closed_visited, hinv.reach, fun b hb => ?_,
    fun b hb => hinv.origin b (List.mem_cons_of_mem _ hb), ?_⟩
  · rcases hinv.queued b hb with hold | hqueue
    · exact Or.inl (List.mem_cons_of_mem _ hold)
    · rcases List.mem_cons.mp hqueue with rfl | hqueue
      · exact Or.inl List.mem_cons_self
      · exact Or.inr hqueue
  · exact List.forall_mem_cons.mpr ⟨hseen, fun x hx y hy => hkept y (h.done x hx y hy)⟩

/-! ## The whole search -/

/-- The nodes still to see, and those to pop. -/
def todo (nodes : List α) (s : State α) (queue : List α) : ℕ := queue.length + (nodes.filter (· ∉ s.visited)).length

/-- One more node is visited. -/
lemma filter_visited_lt {nodes visited : List α} {b : α} (hb : b ∈ nodes) (hnew : b ∉ visited) :
    (nodes.filter (· ∉ visited ++ [b])).length < (nodes.filter (· ∉ visited)).length := by
  have hsplit : nodes.filter (· ∉ visited ++ [b]) = (nodes.filter (· ∉ visited)).filter (· ≠ b) := by
    rw [List.filter_filter]
    refine List.filter_congr fun x _ => ?_
    simp [and_comm]
  rw [hsplit]
  exact List.length_filter_lt_length_iff_exists.mpr
    ⟨b, List.mem_filter.mpr ⟨hb, decide_eq_true hnew⟩, by simp⟩

lemma filter_visited_le {nodes visited : List α} (b : α) :
    (nodes.filter (· ∉ visited ++ [b])).length ≤ (nodes.filter (· ∉ visited)).length := by
  refine (List.monotone_filter_right nodes fun x hx => ?_).length_le
  simp only [decide_eq_true_eq, List.mem_append, not_or] at hx ⊢
  exact hx.1

/-- A node is queued only when it is seen for the first time. -/
lemma neighbors_todo {nodes : List α} (bs : List α) (hbs : ∀ b ∈ bs, b ∈ nodes) (acc : State α × List α) :
    todo nodes (bs.foldl (neighbor passes) acc).1 (bs.foldl (neighbor passes) acc).2 ≤ todo nodes acc.1 acc.2 := by
  induction bs generalizing acc with
  | nil => exact Nat.le_refl _
  | cons b bs ih =>
      obtain ⟨hb, hbs⟩ := List.forall_mem_cons.mp hbs
      refine Nat.le_trans (ih hbs (neighbor passes acc b)) ?_
      rw [neighbor]
      split_ifs with hvisited hpasses
      · exact Nat.le_refl _
      · have := filter_visited_lt hb hvisited
        simp only [todo, List.length_append, List.length_singleton]
        omega
      · exact Nat.add_le_add_left (filter_visited_le b) _

/-- **One pop for each node and one for the start are enough.** -/
theorem run_queue {nodes closed : List α} {start : α} (hnext : ∀ a, ∀ b ∈ next a, b ∈ nodes) {fuel : ℕ}
    (hfuel : nodes.length < fuel) : (run next passes closed start fuel).2 = [] := by
  refine drain_empty (I := fun _ _ => True) (μ := todo nodes) (fun _ _ _ _ => trivial) (fun s a queue _ => ?_) fuel _ _
    trivial ?_
  · have h : todo nodes (visit next passes s a).1 (visit next passes s a).2 ≤ todo nodes s [] :=
      neighbors_todo (next a) (hnext a) (s, [])
    simp only [todo, List.length_append, List.length_cons, List.length_nil] at h ⊢
    omega
  · have := List.length_filter_le (fun x => decide (x ∉ closed)) nodes
    simp only [todo, List.length_singleton]
    omega

variable (next passes) in
lemma run_inv (closed : List α) (start : α) (fuel : ℕ) : ∃ expanded, Inv next passes closed start expanded
    (run next passes closed start fuel).1 (run next passes closed start fuel).2 := by
  refine drain_invariant (I := fun s queue => ∃ expanded, Inv next passes closed start expanded s queue)
    (fun s a queue ⟨expanded, h⟩ => ⟨a :: expanded, visit_inv h⟩) fuel _ _
    ⟨[], ⟨fun b => ?_, fun _ hb => hb, ?_, ?_, ?_, ?_⟩⟩
  · exact iff_of_false List.not_mem_nil fun h => h.2.1 h.1
  all_goals simp

/-- **The nodes gone through are those with a chain from the start through such nodes.** -/
theorem mem_found_iff {nodes closed : List α} {start : α} (hnext : ∀ a, ∀ b ∈ next a, b ∈ nodes) {fuel : ℕ}
    (hfuel : nodes.length < fuel) {b : α} :
    b ∈ (run next passes closed start fuel).1.found ↔ Reach next passes closed start b := by
  obtain ⟨expanded, hinv⟩ := run_inv next passes closed start fuel
  rw [run_queue hnext hfuel] at hinv
  have hpopped : ∀ a, a = start ∨ a ∈ (run next passes closed start fuel).1.found → a ∈ expanded :=
    fun a ha => (hinv.queued a ha).resolve_right List.not_mem_nil
  refine ⟨hinv.reach b, fun path => ?_⟩
  induction path with
  | first hb hopen hpasses =>
      exact (hinv.found_iff _).mpr ⟨hinv.done _ (hpopped _ (Or.inl rfl)) _ hb, hopen, hpasses⟩
  | later _ hb hopen hpasses ih =>
      exact (hinv.found_iff _).mpr ⟨hinv.done _ (hpopped _ (Or.inr ih)) _ hb, hopen, hpasses⟩

/-- A node is gone through once. -/
theorem found_nodup (closed : List α) (start : α) (fuel : ℕ) : (run next passes closed start fuel).1.found.Nodup := by
  have hone : ∀ (bs : List α) (acc : State α × List α), (acc.1.found.Nodup ∧ ∀ b ∈ acc.1.found, b ∈ acc.1.visited) →
      (bs.foldl (neighbor passes) acc).1.found.Nodup ∧
        ∀ b ∈ (bs.foldl (neighbor passes) acc).1.found, b ∈ (bs.foldl (neighbor passes) acc).1.visited := by
    intro bs
    induction bs with
    | nil => exact fun acc h => h
    | cons b bs ih =>
        intro acc h
        refine ih _ ⟨?_, neighbor_subset acc h.2 b⟩
        rw [neighbor]
        split_ifs with hvisited hpasses
        · exact h.1
        · show (acc.1.found ++ [b]).Nodup
          rw [← List.concat_eq_append]
          exact List.Nodup.concat (fun hb => hvisited (h.2 b hb)) h.1
        · exact h.1
  have hstart : ([] : List α).Nodup ∧ ∀ b ∈ ([] : List α), b ∈ closed := ⟨List.nodup_nil, List.forall_mem_nil _⟩
  exact (drain_invariant (I := fun s _ => s.found.Nodup ∧ ∀ b ∈ s.found, b ∈ s.visited)
    (fun s a queue h => hone (next a) (s, []) h) fuel ⟨closed, []⟩ [start] hstart).1

end

end Search
