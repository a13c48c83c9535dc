import Kstrl.Events.Usage

/-!
# The spend ceilings of the engineer loop

`kstrl/loop/loop_budget.py`: the ceilings of a run on tokens and on cost, and the verdict on a loop's usage between
two of its iterations.

* **`reached_iff_breached`**: the loop halts on a ceiling if and only if the prior spend and its own have reached it.
* **`unenforceable_dead`**: it halts on ceilings that cannot fire only where each configured one cannot.
-/

namespace Kstrl.Loop

open Events.Usage

/-- How many calls without a figure make a ceiling on it unenforceable. -/
def unenforceableCalls : ℤ := 2

/-- Why a ceiling stopped the loop. -/
structure BudgetHalt where
  condition : String
  ceilings : List String
  reason : String
  deriving DecidableEq, Repr

/-- The ceilings of a run, and what it had used when the loop was launched. -/
structure LoopBudget (A : Type*) where
  maxTotalTokens : ℤ
  priorTotalTokens : ℤ
  priorCalls : ℤ
  priorTokenCalls : ℤ
  maxCostUsd : A
  priorCostUsd : A
  priorCostCalls : ℤ

/-- How an amount is printed: with six digits after the point, and as it is. -/
structure Printing (A : Type*) where
  sixDigits : A → String
  str : A → String

/-- `tokenless_calls` and `costless_calls` -/
def tokenlessCalls {A : Type*} (u : UsageTotals A) : ℤ := u.calls - u.tokenCalls

def costlessCalls {A : Type*} (u : UsageTotals A) : ℤ := u.calls - u.costCalls

namespace LoopBudget

variable {A : Type*} [Add A] [Zero A] [LinearOrder A]

def tokenEnabled (b : LoopBudget A) : Prop := 0 < b.maxTotalTokens

def costEnabled (b : LoopBudget A) : Prop := 0 < b.maxCostUsd

instance (b : LoopBudget A) : Decidable b.tokenEnabled := by unfold tokenEnabled; infer_instance

instance (b : LoopBudget A) : Decidable b.costEnabled := by unfold costEnabled; infer_instance

def totalTokens (b : LoopBudget A) (u : UsageTotals A) : ℤ := b.priorTotalTokens + u.totalTokens

def totalCost (b : LoopBudget A) (u : UsageTotals A) : A := b.priorCostUsd + u.costUsd

def runTokenless (b : LoopBudget A) (u : UsageTotals A) : ℤ :=
  max 0 (b.priorCalls - b.priorTokenCalls) + tokenlessCalls u

def runCostless (b : LoopBudget A) (u : UsageTotals A) : ℤ :=
  max 0 (b.priorCalls - b.priorCostCalls) + costlessCalls u

/-- The loop reports no tokens, and enough calls of the run did not. -/
def tokenDead (b : LoopBudget A) (u : UsageTotals A) : Prop :=
  u.tokenCalls = 0 ∧ unenforceableCalls ≤ b.runTokenless u

def costDead (b : LoopBudget A) (u : UsageTotals A) : Prop :=
  u.costCalls = 0 ∧ unenforceableCalls ≤ b.runCostless u

instance (b : LoopBudget A) (u : UsageTotals A) : Decidable (b.tokenDead u) := by
  unfold tokenDead; infer_instance

instance (b : LoopBudget A) (u : UsageTotals A) : Decidable (b.costDead u) := by
  unfold costDead; infer_instance

variable (p : Printing A)

def tokenClause (b : LoopBudget A) (u : UsageTotals A) : String :=
  "token budget unenforceable: none of this loop's " ++ toString u.calls ++
    " agent call(s) reported a token count, and the engineer has now made " ++ toString (b.runTokenless u) ++
    " tokenless call(s) this run. Spend before this worker launched is frozen at " ++
    toString b.priorTotalTokens ++ ", so max_total_tokens (" ++ toString b.maxTotalTokens ++
    ") cannot advance from this loop"

def costClause (b : LoopBudget A) (u : UsageTotals A) : String :=
  "cost budget unenforceable: none of this loop's " ++ toString u.calls ++
    " agent call(s) reported a cost, and the engineer has now made " ++ toString (b.runCostless u) ++
    " costless call(s) this run. Spend before this worker launched is frozen at $" ++ p.sixDigits b.priorCostUsd ++
    ", so max_cost_usd ($" ++ p.str b.maxCostUsd ++ ") cannot advance from this loop"

/-- Why the loop must stop now, or none to keep iterating. -/
def haltVerdict (b : LoopBudget A) (u : UsageTotals A) : Option BudgetHalt :=
  if ¬ b.tokenEnabled ∧ ¬ b.costEnabled then none
  else if b.tokenEnabled ∧ b.maxTotalTokens ≤ b.totalTokens u then
    some
      { condition := "breached"
        ceilings := ["max_total_tokens"]
        reason := "token budget exceeded: " ++ toString (b.totalTokens u) ++
          " total tokens recorded >= max_total_tokens (" ++ toString b.maxTotalTokens ++
          "); halting the engineer loop instead of starting another iteration (R8)" }
  else if b.costEnabled ∧ b.maxCostUsd ≤ b.totalCost u then
    some
      { condition := "breached"
        ceilings := ["max_cost_usd"]
        reason := "cost budget exceeded: $" ++ p.sixDigits (b.totalCost u) ++
          " recorded >= max_cost_usd ($" ++ p.str b.maxCostUsd ++
          "); halting the engineer loop instead of starting another iteration (R8)" }
  else if u.calls = 0 then none
  else if b.tokenEnabled ∧ ¬ b.tokenDead u then none
  else if b.costEnabled ∧ ¬ b.costDead u then none
  else
    some
      { condition := "unenforceable"
        ceilings := (if b.tokenEnabled then ["max_total_tokens"] else []) ++
          (if b.costEnabled then ["max_cost_usd"] else [])
        reason := String.intercalate "; " ((if b.tokenEnabled then [b.tokenClause u] else []) ++
            (if b.costEnabled then [b.costClause p u] else [])) ++
          "; halting rather than spending under a cap that cannot fire (R8)" }

/-! ## What the verdict says -/

/-- The prior spend and that of the loop have reached a configured ceiling. -/
def Reached (b : LoopBudget A) (u : UsageTotals A) : Prop :=
  b.tokenEnabled ∧ b.maxTotalTokens ≤ b.totalTokens u ∨ b.costEnabled ∧ b.maxCostUsd ≤ b.totalCost u

/-- **A ceiling is breached if and only if it is reached.** -/
theorem reached_iff_breached (b : LoopBudget A) (u : UsageTotals A) :
    b.Reached u ↔ ∃ halt, b.haltVerdict p u = some halt ∧ halt.condition = "breached" := by
  unfold Reached haltVerdict
  split_ifs with hnone htoken hcost hcalls hlive hlive'
  · refine iff_of_false ?_ (by simp)
    rintro (⟨hon, -⟩ | ⟨hon, -⟩)
    · exact hnone.1 hon
    · exact hnone.2 hon
  · exact iff_of_true (.inl htoken) ⟨_, rfl, rfl⟩
  · exact iff_of_true (.inr hcost) ⟨_, rfl, rfl⟩
  all_goals exact iff_of_false (by rintro (h | h); exacts [htoken h, hcost h]) (by simp)

/-- **A loop that is let go on is under every ceiling.** -/
lemma not_reached_of_none {b : LoopBudget A} {u : UsageTotals A} (h : b.haltVerdict p u = none) :
    ¬ b.Reached u := by
  rw [reached_iff_breached p]
  rintro ⟨halt, hhalt, -⟩
  rw [h] at hhalt
  cases hhalt

/-- **An unenforceable halt is one under which no configured ceiling can fire.** -/
theorem unenforceable_dead {b : LoopBudget A} {u : UsageTotals A} {halt : BudgetHalt}
    (h : b.haltVerdict p u = some halt) (hcondition : halt.condition = "unenforceable") :
    (b.tokenEnabled → b.tokenDead u) ∧ (b.costEnabled → b.costDead u) ∧ ¬ b.Reached u := by
  unfold haltVerdict at h
  split_ifs at h with hnone htoken hcost hcalls hlive hlive'
  · cases h
    simp at hcondition
  · cases h
    simp at hcondition
  -- the ceilings named and the reason differ with the ceilings configured
  all_goals
    refine ⟨fun hon => ?_, fun hon => ?_, ?_⟩
    · by_contra hdead
      exact hlive ⟨hon, hdead⟩
    · by_contra hdead
      exact hlive' ⟨hon, hdead⟩
    · rintro (hreached | hreached)
      · exact htoken hreached
      · exact hcost hreached

end LoopBudget

end Kstrl.Loop
