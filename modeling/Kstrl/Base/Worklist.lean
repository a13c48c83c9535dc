import Mathlib.Data.List.Basic
import Mathlib.Tactic.Common

/-!
# Worklist loops

A queue is drained from the left: each element popped changes a state and names the elements to
append.  `drain` runs at most `fuel` pops and returns the state with what is left of the queue,
so a run had fuel enough exactly when nothing is left.

* **`drain_invariant`**: what every pop keeps, of the state and the queue together, holds at the
  end.
* **`drain_empty`**: a measure every pop lowers bounds the fuel a run needs.
-/

namespace Worklist

variable {σ α : Type}

/-- Drain the queue. -/
def drain (step : σ → α → σ × List α) : ℕ → σ → List α → σ × List α
  | 0, s, queue => (s, queue)
  | _ + 1, s, [] => (s, [])
  | fuel + 1, s, a :: queue => drain step fuel (step s a).1 (queue ++ (step s a).2)

variable {step : σ → α → σ × List α}

@[simp] lemma drain_nil (fuel : ℕ) (s : σ) : drain step fuel s [] = (s, []) := by
  cases fuel <;> rfl

/-- **The invariant of a worklist loop.** -/
theorem drain_invariant {I : σ → List α → Prop}
    (kept : ∀ s a queue, I s (a :: queue) → I (step s a).1 (queue ++ (step s a).2))
    (fuel : ℕ) (s : σ) (queue : List α) (init : I s queue) :
    I (drain step fuel s queue).1 (drain step fuel s queue).2 := by
  induction fuel generalizing s queue with
  | zero => exact init
  | succ fuel ih =>
      cases queue with
      | nil => exact init
      | cons a queue => exact ih _ _ (kept s a queue init)

/-- **Fuel enough.**  If every pop lowers `μ` where `I` holds, `μ` many pops empty the queue. -/
theorem drain_empty {I : σ → List α → Prop} {μ : σ → List α → ℕ}
    (kept : ∀ s a queue, I s (a :: queue) → I (step s a).1 (queue ++ (step s a).2))
    (lower : ∀ s a queue, I s (a :: queue) →
      μ (step s a).1 (queue ++ (step s a).2) < μ s (a :: queue))
    (fuel : ℕ) (s : σ) (queue : List α) (init : I s queue) (enough : μ s queue ≤ fuel) :
    (drain step fuel s queue).2 = [] := by
  induction fuel generalizing s queue with
  | zero =>
      cases queue with
      | nil => rfl
      | cons a queue =>
          have := lower s a queue init
          omega
  | succ fuel ih =>
      cases queue with
      | nil => rfl
      | cons a queue =>
          have := lower s a queue init
          exact ih _ _ (kept s a queue init) (by omega)

/-- More fuel than enough changes nothing. -/
theorem drain_of_le {fuel fuel' : ℕ} {s : σ} {queue : List α}
    (enough : (drain step fuel s queue).2 = []) (h : fuel ≤ fuel') :
    drain step fuel' s queue = drain step fuel s queue := by
  induction fuel generalizing fuel' s queue with
  | zero =>
      have : queue = [] := enough
      subst this
      simp
  | succ fuel ih =>
      cases queue with
      | nil => simp
      | cons a queue =>
          obtain ⟨fuel', rfl⟩ : ∃ n, fuel' = n + 1 := ⟨fuel' - 1, by omega⟩
          exact ih enough (by omega)

end Worklist
