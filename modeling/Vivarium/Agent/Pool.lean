import Std.Data.TreeMap
import Vivarium.Agent.Basic

/-!
Storage of agents, by population: a prototype, and agents that were released. An agent is taken from
the released ones, the last released first, or copied from the prototype if there is none.
-/
namespace Vivarium

structure PoolStats where
  /-- Copied from the prototype. -/
  created : Nat
  /-- Handed out again after a release. -/
  recycled : Nat
  released : Nat
  deriving DecidableEq

inductive AgentError where
  | unknownPopulation (population : Population)
  | stillActive (id : AgentId)
  /-- No vector holds that many agents. -/
  | noRoom (population : Population) (capacity : Nat)

namespace AgentError

def message : AgentError → String
  | unknownPopulation p => s!"no prototype registered for population {Text.quoted p}"
  | stillActive id => s!"agent {id.text} is still active and cannot be returned to the pool"
  | noRoom p n => s!"no room for {n} agents of population {Text.quoted p}"

end AgentError

structure Bucket (σ μ : Type) where
  prototype : Agent σ μ
  /-- The released agents, the last released first. -/
  free : List (Agent σ μ)
  stats : PoolStats

structure Pool (σ μ : Type) where
  buckets : Std.TreeMap Population (Bucket σ μ)

namespace Pool
variable {σ μ : Type}

def empty : Pool σ μ := ⟨∅⟩

def bucket? (p : Pool σ μ) (population : Population) : Option (Bucket σ μ) :=
  p.buckets[population]?

def contains (p : Pool σ μ) (population : Population) : Bool := p.buckets.contains population

def available (p : Pool σ μ) (population : Population) : Nat :=
  match p.bucket? population with
  | some b => b.free.length
  | none => 0

def populations (p : Pool σ μ) : List Population := p.buckets.keys

def put (p : Pool σ μ) (population : Population) (b : Bucket σ μ) : Pool σ μ :=
  ⟨p.buckets.insert population b⟩

/-- Registers or replaces a prototype; released agents are kept. -/
def register (p : Pool σ μ) (population : Population) (state : σ) : Pool σ μ :=
  let prototype := Agent.prototype population state
  p.put population (match p.bucket? population with
    | some b => { b with prototype }
    | none => ⟨prototype, [], ⟨0, 0, 0⟩⟩)

/-- Adds copies of the prototype until `capacity` agents wait, each of so many bytes. -/
def reserve (p : Pool σ μ) (population : Population) (capacity : Nat)
    (agentBytes : Nat := Agent.bareBytes) : Except AgentError (Pool σ μ) :=
  match p.bucket? population with
  | none => .error (.unknownPopulation population)
  | some b =>
    let missing := capacity - b.free.length
    if missing = 0 ∨ capacity * agentBytes < Machine.vectorLimit then
      .ok (p.put population { b with free := List.replicate missing b.prototype ++ b.free })
    else .error (.noRoom population capacity)

/-- An inactive agent like the prototype. -/
def borrow (p : Pool σ μ) (population : Population) :
    Except AgentError (Agent σ μ × Pool σ μ) :=
  match p.bucket? population with
  | none => .error (.unknownPopulation population)
  | some b =>
    match b.free with
    | a :: free =>
      let stats := { b.stats with recycled := b.stats.recycled + 1 }
      .ok (a.resetFrom b.prototype, p.put population { b with free, stats })
    | [] =>
      let stats := { b.stats with created := b.stats.created + 1 }
      .ok (b.prototype, p.put population { b with stats })

/-- Takes an inactive agent back. -/
def release (p : Pool σ μ) (a : Agent σ μ) : Except AgentError (Pool σ μ) :=
  if a.active then .error (.stillActive a.id)
  else
    match p.bucket? a.population with
    | none => .error (.unknownPopulation a.population)
    | some b =>
      let stats := { b.stats with released := b.stats.released + 1 }
      .ok (p.put a.population { b with free := a :: b.free, stats })

end Pool
end Vivarium
