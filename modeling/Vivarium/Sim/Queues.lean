import Vivarium.Behavior.Commands

/-!
Births, removals and messages that wait for the next step, each in the order of arrival.
-/
namespace Vivarium

structure Queues (σ μ η : Type) where
  additions : List (Addition σ μ η)
  removals : List AgentId
  deliveries : List (Message μ)

namespace Queues
variable {σ μ η : Type}

def empty : Queues σ μ η := ⟨[], [], []⟩

def isEmpty (q : Queues σ μ η) : Bool :=
  q.additions.isEmpty && q.removals.isEmpty && q.deliveries.isEmpty

def length (q : Queues σ μ η) : Nat :=
  q.additions.length + q.removals.length + q.deliveries.length

/-- Moves the requests behind those that wait. The reports are left behind. -/
def absorb (q : Queues σ μ η) (c : Commands σ μ η) : Queues σ μ η × Commands σ μ η :=
  (⟨q.additions ++ c.additions, q.removals ++ c.removals, q.deliveries ++ c.deliveries⟩,
    { Commands.empty with events := c.events })

end Queues
end Vivarium
