import Std.Data.HashSet
import Vivarium.Sim.Error
import Vivarium.Sim.Journal
import Vivarium.Sim.Queues

/-!
The state of a simulation and the requests it takes between steps. Active agents stand in an array
in the order of their activation; `slots` finds an agent by id.
-/
namespace Vivarium

structure Sim (σ μ η : Type) where
  config : Config
  behavior : Behavior σ μ η
  space : Space Float
  pool : Pool σ μ
  agents : Array (Agent σ μ)
  slots : Std.HashMap AgentId Nat
  queues : Queues σ μ η
  board : Board
  journal : Journal
  phase : Phase
  step : Step
  nextId : AgentId

namespace Sim
variable {σ μ η : Type}

/-! Looking up. -/

def agent? (s : Sim σ μ η) (id : AgentId) : Option (Agent σ μ) := do
  s.agents[← s.slots[id]?]?

def countOf (s : Sim σ μ η) (p : Population) : Nat := s.space.populations.count p

def note (s : Sim σ μ η) (n : Notice) : Sim σ μ η := { s with journal := s.journal.push n }

/-! Requests. -/

def enqueueAddition (s : Sim σ μ η) (a : Addition σ μ η) : Sim σ μ η :=
  { s with queues := { s.queues with additions := s.queues.additions ++ [a] } }

def enqueueRemoval (s : Sim σ μ η) (id : AgentId) : Sim σ μ η :=
  { s with queues := { s.queues with removals := s.queues.removals ++ [id] } }

def enqueueDelivery (s : Sim σ μ η) (m : Message μ) : Sim σ μ η :=
  { s with queues := { s.queues with deliveries := s.queues.deliveries ++ [m] } }

/-- Empties the queues; answers what was in them. -/
def discardQueued (s : Sim σ μ η) : Queues σ μ η × Sim σ μ η :=
  (s.queues, { s with queues := .empty })

/-- Rewrites the body of an active agent. -/
def edit? (s : Sim σ μ η) (id : AgentId) (f : Agent σ μ → Body σ) : Option (Sim σ μ η) := do
  let slot ← s.slots[id]?
  let a ← s.agents[slot]?
  return { s with agents := s.agents.setIfInBounds slot (a.withBody (f a)) }

/-! Births. -/

/-- The population is looked at before the position. -/
def validateAddition (s : Sim σ μ η) (a : Addition σ μ η) : Except SimError Unit :=
  if !s.pool.contains a.population then .error (.unknownPopulation a.population)
  else if !s.space.terrain.contains a.projection.position then
    .error (.outside a.population a.projection.position)
  else .ok ()

def validateAll (s : Sim σ μ η) : List (Addition σ μ η) → Except SimError Unit
  | [] => .ok ()
  | a :: rest =>
    match s.validateAddition a with
    | .error e => .error e
    | .ok () => s.validateAll rest

/-- `n` more ids can be handed out. -/
def ensureIds (s : Sim σ μ η) (n : Nat) : Except SimError Unit :=
  if s.nextId.remaining < n then .error .idsExhausted else .ok ()

def allocateId (s : Sim σ μ η) : Except SimError (AgentId × Sim σ μ η) :=
  if s.nextId = .invalid then .error .idsExhausted
  else .ok (s.nextId, { s with nextId := s.nextId.next?.getD .invalid })

/-- The newborn's body after it has inherited and then been changed as the request says. -/
def raise (b : Behavior σ μ η) (a : Addition σ μ η) (newborn : Agent σ μ) : Agent σ μ :=
  let heir := match a.heritage with
    | some h => newborn.withBody (b.inherit newborn h)
    | none => newborn
  match a.init with
  | some init => heir.withBody (init heir)
  | none => heir

/-- Brings one requested agent to life. -/
def activate (s : Sim σ μ η) (a : Addition σ μ η) (now : Step) :
    Except SimError AgentId × Sim σ μ η :=
  match s.pool.borrow a.population with
  | .error e => (.error (.agent e), s)
  | .ok (storage, pool) =>
    let s := { s with pool }
    match s.allocateId with
    | .error e => (.error e, s)
    | .ok (id, s) =>
      let newborn := raise s.behavior a (storage.activate id now s.config.seed)
      match s.space.insert ⟨id, a.population, a.projection⟩ with
      | .error e => (.error (.store e), s)
      | .ok space =>
        let s := { s with
          space
          slots := s.slots.insert id s.agents.size
          agents := s.agents.push newborn }
        (.ok id, s.note (.created now id a.population))

/-- Brings an agent to life between steps. -/
def spawn (s : Sim σ μ η) (a : Addition σ μ η) : Except SimError AgentId × Sim σ μ η :=
  if s.phase ≠ .idle then (.error (.wrongPhase .idle s.phase), s)
  else
    match s.validateAddition a with
    | .error e => (.error e, s)
    | .ok () =>
      match s.ensureIds 1 with
      | .error e => (.error e, s)
      | .ok () => s.activate a s.step

end Sim
end Vivarium
