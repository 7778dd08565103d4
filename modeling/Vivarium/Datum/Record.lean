import Vivarium.AgentId
import Vivarium.Config
import Vivarium.Datum.Basic
import Vivarium.Geometry.Motion
import Vivarium.Grid.Direction

/-!
The value types as data. A structure is written with its field names, and read from named fields or
from the list of its fields in order.
-/
namespace Vivarium

class Record (α : Type) where
  ofDatum? : Datum → Option α
  toDatum : α → Datum

instance : Record AgentId where
  ofDatum? d := d.word32?.map fun n => ⟨n⟩
  toDatum a := .ofNat a.index

instance : Record Step where
  ofDatum? d := d.word64?.map fun n => ⟨n⟩
  toDatum s := .ofNat s.index

instance : Record Population where
  ofDatum? := Datum.text?
  toDatum p := .text p

namespace Direction

def fullName : Direction → String
  | north => "North"
  | east => "East"
  | south => "South"
  | west => "West"

def ofFullName? (s : String) : Option Direction := all.find? fun d => d.fullName == s

end Direction

/-- A direction is a bare name, or the one name of a record without content. -/
instance : Record Direction where
  ofDatum?
    | .text s => Direction.ofFullName? s
    | .fields [(s, .null)] => Direction.ofFullName? s
    | _ => none
  toDatum d := .text d.fullName

/-- All eight bits are kept. -/
instance : Record WallMask where
  ofDatum? d := (d.natBelow? UInt8.size).map fun n => ⟨UInt8.ofNat n⟩
  toDatum m := .ofNat m.bits.toNat

instance : Record (Point Float) where
  ofDatum? d := do
    let [x, y] ← d.parts? ["x", "y"] | none
    return ⟨← (← x).real?, ← (← y).real?⟩
  toDatum p := .fields [("x", .real p.x), ("y", .real p.y)]

instance : Record (Projection Float) where
  ofDatum? d := do
    let [p, o, c] ← d.parts? ["position", "orientation", "collided"] | none
    return ⟨← Record.ofDatum? (← p), ← (← o).real?, ← (← c).bool?⟩
  toDatum p := .fields [("position", Record.toDatum p.position),
    ("orientation", .real p.orientation), ("collided", .bool p.collided)]

instance : Record (Motion Float) where
  ofDatum? d := do
    let [r, t] ← d.parts? ["rotation", "translation"] | none
    return ⟨← (← r).real?, ← (← t).real?⟩
  toDatum m := .fields [("rotation", .real m.rotation), ("translation", .real m.translation)]

instance : Record Config where
  ofDatum? d := do
    let [w, h, c, n, s, t] ← d.parts?
      ["width", "height", "parallelization_threshold", "num_threads", "seed", "total_steps"] | none
    return ⟨← (← w).word32?, ← (← h).word32?, ← (← c).word64?, ← Datum.optional? Datum.word64? n,
      ← (← s).word64?, ← (← t).word64?⟩
  toDatum c := .fields [("width", .ofNat c.width.toNat), ("height", .ofNat c.height.toNat),
    ("parallelization_threshold", .ofNat c.chunkSize.toNat),
    ("num_threads", match c.workers with
      | some n => .ofNat n.toNat
      | none => .null),
    ("seed", .ofNat c.seed.toNat), ("total_steps", .ofNat c.totalSteps.toNat)]

end Vivarium
