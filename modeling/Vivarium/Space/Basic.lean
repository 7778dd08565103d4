import Std.Data.HashMap
import Vivarium.Chunks
import Vivarium.Space.Entry
import Vivarium.Space.Populations
import Vivarium.Space.SpatialIndex

/-!
The store of positioned objects. Entries stand in an array without holes; `slots` finds an entry by
id, the population index by population, and the spatial index by distance. Every change marks the
spatial index outdated.
-/
namespace Vivarium

structure Space (F : Type) where
  terrain : Terrain F
  entries : Array (Entry F)
  slots : Std.HashMap AgentId Nat
  populations : PopulationIndex
  index : SpatialIndex F

namespace Space
variable {F : Type}

def empty (terrain : Terrain F) : Space F := ⟨terrain, #[], ∅, .empty, .empty⟩

/-! Looking up. -/

def contains (s : Space F) (id : AgentId) : Bool := s.slots.contains id

/-- An entry with its place in the array. -/
def find? (s : Space F) (id : AgentId) : Option (Nat × Entry F) := do
  let slot ← s.slots[id]?
  let entry ← s.entries[slot]?
  return (slot, entry)

def entry? (s : Space F) (id : AgentId) : Option (Entry F) := (s.find? id).map (·.2)

def projection? (s : Space F) (id : AgentId) : Option (Projection F) :=
  (s.entry? id).map (·.projection)

def count (s : Space F) : Nat := s.entries.size

def isEmpty (s : Space F) : Bool := s.entries.isEmpty

def sightings (s : Space F) : List (Sighting F) :=
  s.entries.toList.map fun e => ⟨e.id, e.projection.position⟩

/-! Inserting and removing. -/

/-- An id that is present is reported before a position that is not legal. -/
def insert (s : Space F) (e : Entry F) : Except (StoreError F) (Space F) :=
  if s.contains e.id then .error (.duplicate e.id)
  else if !s.terrain.contains e.projection.position then
    .error (.outside e.id e.projection.position)
  else .ok { s with
    entries := s.entries.push e
    slots := s.slots.insert e.id s.entries.size
    populations := s.populations.insert e.population e.id
    index := s.index.invalidate }

/-- The last entry takes the place of the one that is removed. -/
def remove (s : Space F) (id : AgentId) : Except (StoreError F) (Entry F × Space F) :=
  match s.find? id with
  | none => .error (.unknown id)
  | some (slot, entry) =>
    let entries := match s.entries.back? with
      | some last => (s.entries.setIfInBounds slot last).pop
      | none => s.entries
    let slots := s.slots.erase id
    let slots := match entries[slot]? with
      | some filler => slots.insert filler.id slot
      | none => slots
    .ok (entry, { s with
      entries
      slots
      populations := s.populations.erase entry.population id
      index := s.index.invalidate })

/-- The place of every entry. -/
def slotsOf (entries : List (Entry F)) : Std.HashMap AgentId Nat :=
  entries.zipIdx.foldl (fun slots (e, i) => slots.insert e.id i) ∅

/-- Removes the entries for which `doomed` holds and keeps the others in their order. Answers how
many were removed. -/
def removeIf (s : Space F) (doomed : Entry F → Bool) : Nat × Space F :=
  let gone := s.entries.toList.filter doomed
  let kept := s.entries.toList.filter fun e => !doomed e
  if gone.isEmpty then (0, s)
  else (gone.length, { s with
    entries := kept.toArray
    slots := slotsOf kept
    populations := gone.foldl (fun x e => x.erase e.population e.id) s.populations
    index := s.index.invalidate })

/-! Moving. -/

section
variable [Scalar F] [Trig F]

/-- Moves one object and answers where it is then. -/
def moveObject (s : Space F) (id : AgentId) (m : Motion F) :
    Except (StoreError F) (Projection F × Space F) :=
  match s.find? id with
  | none => .error (.unknown id)
  | some (slot, entry) =>
    match entry.moved? s.terrain m with
    | none => .ok (entry.projection, s)
    | some entry => .ok (entry.projection, { s with
        entries := s.entries.setIfInBounds slot entry
        index := s.index.invalidate })

/-- An entry after its motion, if it has one, and whether it was set in motion. -/
def moveEntry (t : Terrain F) (motionOf : AgentId → Option (Motion F)) (e : Entry F) :
    Entry F × Bool :=
  match (motionOf e.id).bind fun m => e.moved? t m with
  | some e => (e, true)
  | none => (e, false)

/-- The entries of a chunk after their motions, and how many were set in motion. -/
def moveChunk (t : Terrain F) (motionOf : AgentId → Option (Motion F)) (chunk : List (Entry F)) :
    List (Entry F) × Nat :=
  let moves := chunk.map (moveEntry t motionOf)
  (moves.map (·.1), moves.countP (·.2))

/-- Moves every object that has a motion, chunk by chunk. Answers how many motions were not still. -/
def moveAll (s : Space F) (chunkSize : Nat) (motionOf : AgentId → Option (Motion F)) :
    Nat × Space F :=
  let moves := (chunks chunkSize s.entries.toList).map (moveChunk s.terrain motionOf)
  let total := moves.foldl (fun sum chunk => sum + chunk.2) 0
  (total, { s with
    entries := (moves.flatMap (·.1)).toArray
    index := if total = 0 then s.index else s.index.invalidate })

end

/-! Queries by distance. Each answers with the space whose index is then up to date. -/

section
variable [Scalar F]

def refreshed (s : Space F) : Space F := { s with index := s.index.refreshed fun _ => s.sightings }

/-- The space with another picture of it. -/
def pictured (s : Space F) (index : SpatialIndex F) : Space F := { s with index }

/-- The objects at most `radius` away from `center`. No object is within a negative or undefined
radius, and such a query leaves the index as it is. -/
def within (s : Space F) (center : Point F) (radius : F) : List AgentId × Space F :=
  if Scalar.zero ≤ radius then
    let s := s.refreshed
    (s.index.within center radius, s)
  else ([], s)

/-- The `count` objects nearest to `center`, unless their distances cannot be compared. -/
def nearest? (s : Space F) (center : Point F) (count : Nat) : Option (List AgentId) × Space F :=
  let s := s.refreshed
  (s.index.nearest? center count, s)

/-- Of the objects with these ids the others than `me`, as far as it accepts them. -/
def othersOf (s : Space F) (me : Entry F) (id : AgentId) (accept : Entry F → Entry F → Bool)
    (ids : List AgentId) : List (Entry F) :=
  ((ids.filter (· ≠ id)).filterMap s.entry?).filter (accept me)

/-- The other objects within `radius` of an object that it accepts; none if it is not stored. -/
def neighboursOf (s : Space F) (id : AgentId) (radius : F) (accept : Entry F → Entry F → Bool) :
    List (Entry F) × Space F :=
  match s.entry? id with
  | none => ([], s)
  | some me =>
    let (ids, asked) := s.within me.projection.position radius
    (s.othersOf me id accept ids, asked)

def neighbours (s : Space F) (id : AgentId) (radius : F) : List (Entry F) × Space F :=
  s.neighboursOf id radius fun _ _ => true

/-- No wall stands on the straight line from one object to the other. -/
def sees (s : Space F) (me other : Entry F) : Bool :=
  s.terrain.isVisible me.projection.position other.projection.position

/-- The neighbours with no wall on the straight line to them. -/
def visibleNeighbours (s : Space F) (id : AgentId) (radius : F) : List (Entry F) × Space F :=
  s.neighboursOf id radius s.sees

end
end Space
end Vivarium
