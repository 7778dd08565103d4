import Vivarium.Sim.Step

/-!
Setting up a simulation. What is given is checked in a fixed order: the configuration, the size of
the grid, the walls, and the populations for which storage is asked.
-/
namespace Vivarium

structure Setup (σ μ η : Type) where
  config : Config
  behavior : Behavior σ μ η
  /-- Without a grid, an open one of the configured size is taken. -/
  grid : Option Grid
  walls : List Wall
  prototypes : List (Population × σ)
  capacities : List (Population × Nat)
  /-- How many bytes an agent takes. -/
  agentBytes : Nat

namespace Setup
variable {σ μ η : Type}

def new (config : Config) (behavior : Behavior σ μ η) : Setup σ μ η :=
  ⟨config, behavior, none, [], [], [], Agent.bareBytes⟩

/-- What a setup can be given, in any order and number. -/
inductive Input (σ : Type) where
  | grid (g : Grid)
  | walls (walls : List Wall)
  | wall (w : Wall)
  | prototype (population : Population) (state : σ)
  | capacity (population : Population) (n : Nat)

/-- The last grid counts; all the rest is kept in the order in which it is given. -/
def given (s : Setup σ μ η) : Input σ → Setup σ μ η
  | .grid g => { s with grid := some g }
  | .walls walls => { s with walls := s.walls ++ walls }
  | .wall w => { s with walls := s.walls ++ [w] }
  | .prototype population state => { s with prototypes := s.prototypes ++ [(population, state)] }
  | .capacity population n => { s with capacities := s.capacities ++ [(population, n)] }

def givenAll (s : Setup σ μ η) (inputs : List (Input σ)) : Setup σ μ η := inputs.foldl given s

/-- The grid without the listed walls. -/
def baseGrid (s : Setup σ μ η) : Except SimError Grid :=
  match s.grid with
  | some g =>
    if g.extent.width = s.config.width.toNat ∧ g.extent.height = s.config.height.toNat then .ok g
    else .error (.gridSize g.extent.width g.extent.height s.config.width.toNat
      s.config.height.toNat)
  | none => (Grid.ofSize s.config.width s.config.height).mapError .grid

/-- What is asked for one population adds up. -/
def totals (capacities : List (Population × Nat)) :
    Except AgentError (Std.TreeMap Population Nat) :=
  capacities.foldlM add ∅
where
  add (m : Std.TreeMap Population Nat) (asked : Population × Nat) :
      Except AgentError (Std.TreeMap Population Nat) :=
    match Machine.sum? (m.getD asked.1 0) asked.2 with
    | some total => .ok (m.insert asked.1 total)
    | none => .error (.noRoom asked.1 (m.getD asked.1 0 + asked.2))

def reserveAll (agentBytes : Nat) (pool : Pool σ μ) :
    List (Population × Nat) → Except AgentError (Pool σ μ)
  | [] => .ok pool
  | (p, n) :: rest =>
    match pool.reserve p n agentBytes with
    | .error e => .error e
    | .ok pool => reserveAll agentBytes pool rest

/-- The prototypes, the last one of each population. -/
def registered (s : Setup σ μ η) : Pool σ μ :=
  s.prototypes.foldl (fun pool (p, state) => pool.register p state) Pool.empty

def stockedPool (s : Setup σ μ η) : Except AgentError (Pool σ μ) := do
  let totals ← totals s.capacities
  reserveAll s.agentBytes s.registered totals.toList

/-- A simulation before its first step. -/
def build (s : Setup σ μ η) : Except SimError (Sim σ μ η) := do
  s.config.validate.mapError SimError.config
  let grid ← s.baseGrid
  let grid ← (grid.withWalls s.walls).mapError SimError.grid
  let pool ← s.stockedPool.mapError SimError.agent
  return {
    config := s.config
    behavior := s.behavior
    space := .empty (.ofGrid grid)
    pool
    agents := #[]
    slots := ∅
    queues := .empty
    board := .empty
    journal := #[]
    phase := .idle
    step := .zero
    nextId := ⟨0⟩ }

end Setup
end Vivarium
