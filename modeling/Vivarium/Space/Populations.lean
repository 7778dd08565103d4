import Std.Data.TreeMap
import Vivarium.AgentId

/-!
Which objects belong to which population. Members are listed in ascending order, and populations by
name.
-/
namespace Vivarium

structure PopulationIndex where
  buckets : Std.TreeMap Population (Std.TreeSet AgentId)
  /-- Members of all populations together. -/
  total : Nat

namespace PopulationIndex

def empty : PopulationIndex := ⟨∅, 0⟩

def bucket (x : PopulationIndex) (p : Population) : Std.TreeSet AgentId := x.buckets.getD p ∅

def contains (x : PopulationIndex) (p : Population) (a : AgentId) : Bool := (x.bucket p).contains a

def insert (x : PopulationIndex) (p : Population) (a : AgentId) : PopulationIndex :=
  if x.contains p a then x else ⟨x.buckets.insert p ((x.bucket p).insert a), x.total + 1⟩

def erase (x : PopulationIndex) (p : Population) (a : AgentId) : PopulationIndex :=
  if x.contains p a then ⟨x.buckets.insert p ((x.bucket p).erase a), x.total - 1⟩ else x

def count (x : PopulationIndex) (p : Population) : Nat := (x.bucket p).size

def members (x : PopulationIndex) (p : Population) : List AgentId := (x.bucket p).toList

/-- The populations that have a member. -/
def populations (x : PopulationIndex) : List Population :=
  (x.buckets.toList.filter fun e => !e.2.isEmpty).map (·.1)

end PopulationIndex
end Vivarium
