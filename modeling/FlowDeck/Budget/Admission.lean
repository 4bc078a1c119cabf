import FlowDeck.Budget.LedgerBalance
import Mathlib.Tactic.Linarith

namespace Admission

open UsageStore BudgetController BudgetController.Controller Machine

/-- The operations on a budget, with the restarts that read it back from its store. -/
inductive Action
  | op (op : Op)
  | restore (config : ResolvedTokenBudgetConfig)

def RunWithin (s : Controller) : Prop := s.run.consumed + s.run.reserved ≤ s.run.ceiling

def SessionWithin (s : Controller) (sessionId : String) : Prop :=
  ∀ a, s.agents.get? sessionId = some a → a.consumed + a.reserved ≤ a.ceiling

/-- A reservation claims something, or finds the run within its ceiling; where budgets are not
enforced, it finds both within their ceilings. -/
def Claims (s : Controller) (action : Action) : Prop :=
  ∀ uuid opts result t, action = .op (.reserveRequest uuid opts) →
    s.reserveRequestSync uuid opts = some (result, t) → result.allowed = true →
      if s.config.enabled then 0 < opts.need s.config ∨ RunWithin s
      else RunWithin s ∧ SessionWithin s opts.sessionId

end Admission
