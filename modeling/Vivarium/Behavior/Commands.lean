import Vivarium.Agent.Basic

/-!
What agents ask for while they act: births, removals, messages and reports. Nothing of it happens
before every agent has acted.
-/
namespace Vivarium

/-- A request for a new agent. `init` changes the newborn's body after it has inherited. -/
structure Addition (σ μ η : Type) where
  population : Population
  projection : Projection Float
  heritage : Option η
  init : Option (Agent σ μ → Body σ)

namespace Addition
variable {σ μ η : Type}

def plain (population : Population) (projection : Projection Float) : Addition σ μ η :=
  ⟨population, projection, none, none⟩

def text (a : Addition σ μ η) : String :=
  let p := a.projection
  "Addition \x7b population: " ++ Text.quoted a.population ++
    ", projection: Projection \x7b position: Point2 \x7b x: " ++ Text.shortest p.position.x ++
    ", y: " ++ Text.shortest p.position.y ++ " \x7d, orientation: " ++ Text.shortest p.orientation ++
    s!", collided: {p.collided}" ++ " \x7d" ++
    s!", heritage: {a.heritage.isSome}, init: {a.init.isSome}" ++ " \x7d"

end Addition

/-- A report of an agent, for the journal. -/
structure AgentEvent where
  agent : AgentId
  source : String
  message : String
  deriving DecidableEq

structure Commands (σ μ η : Type) where
  additions : List (Addition σ μ η)
  removals : List AgentId
  deliveries : List (Message μ)
  events : List AgentEvent

namespace Commands
variable {σ μ η : Type}

def empty : Commands σ μ η := ⟨[], [], [], []⟩

def isEmpty (c : Commands σ μ η) : Bool :=
  c.additions.isEmpty && c.removals.isEmpty && c.deliveries.isEmpty && c.events.isEmpty

def spawn (c : Commands σ μ η) (a : Addition σ μ η) : Commands σ μ η :=
  { c with additions := c.additions ++ [a] }

def remove (c : Commands σ μ η) (id : AgentId) : Commands σ μ η :=
  { c with removals := c.removals ++ [id] }

def send (c : Commands σ μ η) (m : Message μ) : Commands σ μ η :=
  { c with deliveries := c.deliveries ++ [m] }

def report (c : Commands σ μ η) (e : AgentEvent) : Commands σ μ η :=
  { c with events := c.events ++ [e] }

/-- The requests of `c`, then those of `d`. -/
def append (c d : Commands σ μ η) : Commands σ μ η :=
  ⟨c.additions ++ d.additions, c.removals ++ d.removals, c.deliveries ++ d.deliveries,
    c.events ++ d.events⟩

instance : Append (Commands σ μ η) := ⟨append⟩

end Commands
end Vivarium
