import Mathlib.Logic.Relation
import Mathlib.Tactic.Common

/-!
# Runs of a labelled transition system

A system is a relation `step s a t` between states, labelled by actions.  `Reaches step cond s t`
says that `t` is reached from `s` by steps that each meet `cond`, a condition on the state before
the step and on the action.  `Always` is the condition nothing fails, so `Reaches step Always` is
plain reachability.

* **`Reaches.invariant`** is the induction every safety proof uses: what holds at the start and is
  kept by the steps that meet the condition holds in every state reached.
* **`Reaches.mono`** compares conditions.
-/

namespace Runs

variable {σ : Type*} {α : Type*}

/-- The condition every step meets. -/
def Always : σ → α → Prop := fun _ _ => True

/-- `t` is reached from `s` by steps that meet `cond`. -/
inductive Reaches (step : σ → α → σ → Prop) (cond : σ → α → Prop) (s : σ) : σ → Prop where
  | refl : Reaches step cond s s
  | tail {t u : σ} {a : α} (run : Reaches step cond s t) (meets : cond t a) (last : step t a u) :
      Reaches step cond s u

variable {step : σ → α → σ → Prop} {cond cond' : σ → α → Prop} {s t u : σ}

/-- **The invariant rule.** -/
theorem Reaches.invariant {I : σ → Prop} (run : Reaches step cond s t) (init : I s)
    (kept : ∀ t a u, I t → cond t a → step t a u → I u) : I t := by
  induction run with
  | refl => exact init
  | tail _ meets last ih => exact kept _ _ _ ih meets last

/-- A weaker condition admits more runs. -/
theorem Reaches.mono (run : Reaches step cond s t) (h : ∀ s a, cond s a → cond' s a) :
    Reaches step cond' s t := by
  induction run with
  | refl => exact .refl
  | tail _ meets last ih => exact .tail ih (h _ _ meets) last

/-- Runs compose. -/
theorem Reaches.trans (run : Reaches step cond s t) (run' : Reaches step cond t u) :
    Reaches step cond s u := by
  induction run' with
  | refl => exact run
  | tail _ meets last ih => exact .tail ih meets last

/-- A run of one step. -/
theorem Reaches.single {a : α} (meets : cond s a) (last : step s a t) : Reaches step cond s t :=
  .tail .refl meets last

/-- The run of a step function over a list of actions that each meet the condition. -/
theorem Reaches.of_foldlM_if {next : σ → α → Option σ} [∀ s a, Decidable (cond s a)] {actions : List α}
    (h : actions.foldlM (fun s a => if cond s a then next s a else none) s = some t) :
    Reaches (fun s a t => next s a = some t) cond s t := by
  induction actions generalizing s with
  | nil =>
      cases h
      exact .refl
  | cons a rest ih =>
      rw [List.foldlM_cons] at h
      obtain ⟨u, hu, hrest⟩ := Option.bind_eq_some_iff.mp h
      split_ifs at hu with hcond
      exact (Reaches.single hcond hu).trans (ih hrest)

/-- The run of a step function over a list of actions. -/
theorem Reaches.of_foldlM {next : σ → α → Option σ} {actions : List α} (h : actions.foldlM next s = some t) :
    Reaches (fun s a t => next s a = some t) Always s t := by
  induction actions generalizing s with
  | nil =>
      cases h
      exact .refl
  | cons a rest ih =>
      rw [List.foldlM_cons] at h
      obtain ⟨u, hu, hrest⟩ := Option.bind_eq_some_iff.mp h
      exact (Reaches.single trivial hu).trans (ih hrest)

end Runs
