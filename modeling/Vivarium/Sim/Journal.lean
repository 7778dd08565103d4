import Vivarium.Behavior.Commands

/-!
What an observer of a simulation gets to see, in order.
-/
namespace Vivarium

/-- What happened in a completed step. -/
structure StepSummary where
  step : Step
  /-- Agents that acted. -/
  executed : Nat
  /-- Messages handed out, one for each recipient. -/
  delivered : Nat
  removed : Nat
  /-- Objects that were set in motion. -/
  moved : Nat
  born : Nat
  /-- Agents that are active afterwards. -/
  active : Nat
  deriving DecidableEq

inductive Notice where
  | started (step : Step)
  | ended (summary : StepSummary)
  | created (step : Step) (agent : AgentId) (population : Population)
  | removed (step : Step) (agent : AgentId) (population : Population)
  | reported (step : Step) (event : AgentEvent)
  deriving DecidableEq

abbrev Journal := Array Notice

end Vivarium
